import VibeWorkflow.CallRunProofs
import VibeWorkflow.RetentionProofs
import VibeWorkflow.RunResultProofs
import VibeWorkflow.RunStartProofs
import VibeWorkflow.SubscriptionProofs
import VibeWorkflow.TwoRunProofs

/-!
# An encrypted run and the relay

A client starts a run on a Node with an encrypted `run_start`, and everything they say to each other
about that run goes through the relay.  The Node keeps the run's record, its event log and its journal
on disk; the event key, the tail of the log and the replay subscribers are in memory and gone after a
restart.

* `Guarded` — while the daemon lives, whoever forwards events of the run has its event key;
* **`step_exposes`** — a step puts something of the run's in the clear exactly when it is not discreet.
-/

namespace VibeRelay

open VibeJson VibeJournal VibeRun
open VibeNode (LeaseId RunStart StartEnv admitRun presentedLeaseId)
open VibeResult (AgentTaskResult ResultRow)

/-! ## The start -/

/-- `RunStartPayload`: what the client encrypts. -/
structure StartPayload extends RunStart where
  repoUrl : Option String
  branch : Option String
  permissionMode : Option String
  metadata : Option Json
  verify : Option Json

/-- The keys that both ends derive from the exchange, one for each purpose; no text of one is empty. -/
structure RunKeys where
  start : String
  event : String
  stop : String
  approval : String

/-- `RunRecord`; `given` are the fields that the start message gives. -/
structure RunRecord where
  runId : String
  sessionId : String
  nodeId : String
  status : String
  given : List (String × Json)
  stopAesKey : Option String
  approvalAesKey : Option String
  result : VibeRunResult.RunRecord

/-- A text that an `if` takes for true. -/
def given (text : Option String) : Option String := text.filter (· ≠ "")

/-- A Node. Without a journal, its lease tables are missing too. -/
structure Config where
  nodeId : String
  authority : Option VibeNode.Journal
  tmpdir : String
  leaseText : LeaseId → String
  sha256 : String → String
  jsonParse : String → Option Json

/-- An encrypted `run_start`, and what the Node finds when it arrives. -/
structure Start where
  reqId : String
  hasIdentity : Bool
  intact : Bool                  -- the ciphertext decrypts
  payload : StartPayload
  keys : RunKeys
  env : StartEnv

section

variable (cfg : Config)

/-- The fields of a start that its record and its payload have in common. -/
def commonFields (p : StartPayload) : List (String × Json) :=
  present "repo_url" ((given p.repoUrl).map .str) ++
  present "branch" ((given p.branch).map .str) ++
  present "permission_mode" ((given p.permissionMode).map .str) ++
  present "verify" (p.verify.filter VibeRunResult.truthy) ++
  present "metadata" (p.metadata.filter VibeRunResult.truthy) ++
  present "workspace_lease_id" ((presentedLeaseId p.toRunStart).map fun l => .str (cfg.leaseText l)) ++
  (if p.workspaceWrite then [("workspace_write", .bool true)] else [])

def StartPayload.json (p : StartPayload) : Json :=
  .obj ([("agent", .str p.agent)] ++ commonFields cfg p ++
    present "workspace_key" ((given p.workspaceKey).map .str) ++
    present "prompt_content" (p.promptContent.map .str) ++
    present "cwd" ((given p.cwd).map .str))

/-- The message that `handleEncryptedRunStart` puts together from the payload. -/
def synthetic (p : StartPayload) : StartPayload :=
  { p with
    workspaceKey := given p.workspaceKey
    cwd := given p.cwd
    leaseId := presentedLeaseId p.toRunStart
    repoUrl := given p.repoUrl
    branch := given p.branch
    permissionMode := given p.permissionMode
    metadata := p.metadata.filter VibeRunResult.truthy
    verify := p.verify.filter VibeRunResult.truthy }

/-- The prompt is written to a file of its own, and the record has the file's name. -/
def promptFile (runId : String) (p : StartPayload) : Option String :=
  p.promptContent.map fun _ => cfg.tmpdir ++ "/vibe-prompt-" ++ runId ++ ".md"

def newRecord (s : Start) (admitted : VibeNode.RunRecord) : RunRecord where
  runId := admitted.runId
  sessionId := ""
  nodeId := cfg.nodeId
  status := "queued"
  given :=
    [("agent", .str s.payload.agent), ("workspace_path", .str admitted.workspacePath),
      ("workspace_key", .str admitted.workspaceKey)] ++
    commonFields cfg (synthetic s.payload) ++
    present "prompt_file" ((promptFile cfg admitted.runId s.payload).map .str)
  stopAesKey := some s.keys.stop
  approvalAesKey := some s.keys.approval
  result := ⟨none, none⟩

def RunRecord.json (r : RunRecord) : Json :=
  .obj ([("run_id", .str r.runId), ("session_id", .str r.sessionId), ("node_id", .str r.nodeId),
    ("node_selector", .str r.nodeId), ("status", .str r.status)] ++ r.given ++
    present "stop_aes_key" (r.stopAesKey.map .str) ++ present "approval_aes_key" (r.approvalAesKey.map .str) ++
    present "result_status" (r.result.resultStatus.map .str) ++ present "task_result" r.result.taskResult)

end

def resultJson (r : AgentTaskResult) : Json :=
  .obj ([("schema_version", .str r.schemaVersion),
    ("final_output", .obj [("kind", .str "text"), ("text", .str r.finalOutput)]),
    ("process_exit_code", r.processExitCode.elim .null .num), ("finalized_at", .str r.finalizedAt),
    ("content_hash", .str r.contentHash)] ++
    present "evidence_refs" r.evidenceRefs ++ present "artifact_refs" r.artifactRefs ++
    present "verification" r.verification)

/-! ## Messages -/

/-- A text that is encrypted under a run's key.  Whoever lacks the key sees its length. -/
structure Sealed where
  key : String
  text : String

def Sealed.length (box : Sealed) : Nat := byteLen box.text

/-- What a message carries either encrypted or not. -/
inductive Body (c α : Type) where
  | encrypted (box : c)
  | plain (value : α)

structure Refusal where
  error : String
  code : String

/-- A message through the relay, over what stands for ciphertexts. -/
inductive Message (c : Type) where
  | encryptedRunStart (reqId : String) (payload : c)
  | runStartAck (reqId : String) (answer : Except Refusal RunRecord)
  | encryptedRunEvent (event : c)
  | runEvent (event : Json) (sourceSequence : Option Nat)
  | runReplayOpen (ref : String) (afterSequence : Int)
  | runReplayMeta (ref : String) (metadata : Option ReplayMetadata)
  | runReplayEvent (ref : String) (sourceSequence : Nat) (event : Body c String)
  | runReplayClose (ref : String)
  | runStatusRequest (reqId : String)
  | runStatusAck (reqId : String) (answer : Except Refusal RunRecord)
  | runResultRequest (reqId : String)
  | runResultAck (reqId : String) (answer : Except Refusal (String × Option (Body c AgentTaskResult)))
  | runStopRequest (reqId : String)
  | runStopAck (reqId : String) (answer : Except Refusal RunRecord)
  | encryptedRunStopRequest (reqId : String) (payload : c)
  | encryptedRunStopAck (reqId : String) (answer : c)
  | encryptedApprovalResponse (reqId : String) (payload : c)
  | encryptedApprovalResponseAck (reqId : String) (answer : c)
  | relayError (code message : String)

def Body.map {c d α : Type} (f : c → d) : Body c α → Body d α
  | .encrypted box => .encrypted (f box)
  | .plain value => .plain value

def Message.map {c d : Type} (f : c → d) : Message c → Message d
  | .encryptedRunStart reqId payload => .encryptedRunStart reqId (f payload)
  | .runStartAck reqId answer => .runStartAck reqId answer
  | .encryptedRunEvent event => .encryptedRunEvent (f event)
  | .runEvent event sourceSequence => .runEvent event sourceSequence
  | .runReplayOpen ref afterSequence => .runReplayOpen ref afterSequence
  | .runReplayMeta ref metadata => .runReplayMeta ref metadata
  | .runReplayEvent ref sourceSequence event => .runReplayEvent ref sourceSequence (event.map f)
  | .runReplayClose ref => .runReplayClose ref
  | .runStatusRequest reqId => .runStatusRequest reqId
  | .runStatusAck reqId answer => .runStatusAck reqId answer
  | .runResultRequest reqId => .runResultRequest reqId
  | .runResultAck reqId answer => .runResultAck reqId (answer.map fun a => (a.1, a.2.map (Body.map f)))
  | .runStopRequest reqId => .runStopRequest reqId
  | .runStopAck reqId answer => .runStopAck reqId answer
  | .encryptedRunStopRequest reqId payload => .encryptedRunStopRequest reqId (f payload)
  | .encryptedRunStopAck reqId answer => .encryptedRunStopAck reqId (f answer)
  | .encryptedApprovalResponse reqId payload => .encryptedApprovalResponse reqId (f payload)
  | .encryptedApprovalResponseAck reqId answer => .encryptedApprovalResponseAck reqId (f answer)
  | .relayError code message => .relayError code message

/-- **What the relay sees**: a message up to its ciphertexts. -/
def view (m : Message Sealed) : Message Nat := m.map Sealed.length

/-- Something of the run's that the relay is not to read. -/
inductive Secret where
  | key (text : String)
  | payload (field : String) (value : Json)
  | event (text : String)
  | result (value : Json)
deriving DecidableEq

def RunRecord.secrets (r : RunRecord) : List Secret :=
  r.stopAesKey.toList.map .key ++ r.approvalAesKey.toList.map .key ++ r.given.map (fun f => .payload f.1 f.2) ++
    r.result.taskResult.toList.map .result

/-- The secrets that a message carries in the clear. -/
def Message.secrets {c : Type} : Message c → List Secret
  | .runStartAck _ (.ok record) => record.secrets
  | .runStatusAck _ (.ok record) => record.secrets
  | .runStopAck _ (.ok record) => record.secrets
  | .runEvent event _ => [.event (stringify event)]
  | .runReplayEvent _ _ (.plain text) => [.event text]
  | .runResultAck _ (.ok (_, some (.plain result))) => [.result (resultJson result)]
  | _ => []

def exposed (ms : List (Message Sealed)) : List Secret := ms.flatMap Message.secrets

/-! ## The Node -/

structure Tail where
  key : Option String
  offset : Nat

/-- A subscriber of the journal; the handler has looked up the key when it was opened. -/
structure ReplaySub where
  ref : String
  key : Option String
  sub : Sub

structure Node where
  record : Option RunRecord      -- on disk
  log : List Json
  journal : RunTables
  result : Option ResultRow
  eventKey : Option String       -- in memory: `runEventKeys` of the run
  tail : Option Tail
  subs : List ReplaySub

def Node.empty : Node := ⟨none, [], RunTables.empty, none, none, none, []⟩

/-- What the run's result is stored in and taken from. -/
def Node.disk (n : Node) : VibeRunResult.NodeState := ⟨n.journal, n.result, n.record.map RunRecord.result⟩

def Node.withDisk (n : Node) (d : VibeRunResult.NodeState) : Node := { n with journal := d.journal, result := d.result }

structure ApprovalPayload where
  approvalId : String
  decision : String
  message : Option String

inductive Action where
  | write (status : String) (result : VibeRunResult.RunRecord)   -- the run's processes update its record
  | log (event : Json)                                           -- and append to its log
  | poll (now : String)
  | idle
  | drain (i : Nat)
  | replayOpen (ref : String) (afterSequence : Int)
  | replayClose (ref : String) (i : Nat)
  | statusRequest (reqId : String)
  | resultRequest (reqId : String)
  | stopRequest (reqId now : String)
  | encryptedStop (reqId now : String) (intact : Bool) (reason : Option String)
  | approval (reqId now : String) (intact : Bool) (payload : ApprovalPayload)
  | restart

/-! ## Handlers -/

section

variable (cfg : Config)

/-- `kind` and `text` of an event that is sent on, under the key that its sender has. -/
def eventBody (key : Option String) (text : String) : Body Sealed String :=
  match key with
  | some k => .encrypted ⟨k, text⟩
  | none => .plain text

def refusal : VibeNode.StartAck → Refusal
  | .failed error code => ⟨error, code⟩
  | .started _ => ⟨"", ""⟩        -- never thrown

/-- The journal with the run bound to its lease. -/
def boundJournal (bindFault : Bool) (leaseId : Option LeaseId) : RunTables :=
  match leaseId with
  | some l => if cfg.authority.isSome && !bindFault then (bindRunToLease RunTables.empty l).2 else RunTables.empty
  | none => RunTables.empty

def admission (s : Start) : Except VibeNode.StartAck VibeNode.RunRecord :=
  admitRun cfg.nodeId s.env cfg.authority (synthetic s.payload).toRunStart

/-- The Node once the record is written. -/
def recorded (s : Start) (admitted : VibeNode.RunRecord) : Node :=
  { Node.empty with
    record := some (newRecord cfg s admitted)
    journal := boundJournal cfg s.env.bindFault admitted.leaseId
    eventKey := some s.keys.event }

/-- `updateRun` exits the process where the record's file is gone: the memory goes with it. -/
def handleRunStart (s : Start) : Node × List (Message Sealed) :=
  match admission cfg s with
  | .error ack => (Node.empty, [.runStartAck s.reqId (.error (refusal ack))])
  | .ok admitted =>
    let n := recorded cfg s admitted
    match s.env.backendStart with
    | .error message => (n, [.runStartAck s.reqId (.error ⟨message, "internal_error"⟩)])
    | .ok sessionId =>
      match s.env.update with
      | .throws message => (n, [.runStartAck s.reqId (.error ⟨message, "internal_error"⟩)])
      | .exits => ({ n with eventKey := none }, [])
      | .written =>
        let running := { newRecord cfg s admitted with sessionId := sessionId, status := "running" }
        ({ n with record := some running, tail := some ⟨n.eventKey, 0⟩ }, [.runStartAck s.reqId (.ok running)])

/-- The client's message and `handleEncryptedRunStart`. -/
def handleEncryptedRunStart (s : Start) : Node × List (Message Sealed) :=
  let sent := Message.encryptedRunStart s.reqId ⟨s.keys.start, stringify (s.payload.json cfg)⟩
  if !s.hasIdentity then
    (Node.empty, [sent, .runStartAck s.reqId (.error
      ⟨"Node has no identity — cannot decrypt run_start payload", "no_identity"⟩)])
  else if !s.intact then
    (Node.empty, [sent, .runStartAck s.reqId (.error
      ⟨"Failed to decrypt run_start payload — wrong key or tampered ciphertext", "decrypt_failed"⟩)])
  else ((handleRunStart cfg s).1, sent :: (handleRunStart cfg s).2)

/-- `sendMsg` of an event that the tail has read. -/
def tailMessage (key : Option String) (event : Json) (sourceSequence : Option Nat) : Message Sealed :=
  match key with
  | some k => .encryptedRunEvent ⟨k, stringify event⟩
  | none => .runEvent event sourceSequence

def ReplaySub.fanout (ev : EventRow) (r : ReplaySub) : ReplaySub := { r with sub := VibeJournal.fanout ev r.sub }

def Node.withJournal (n : Node) (journal : RunTables) : Node := { n with journal := journal }

/-- An event is fanned out to the subscribers once it is in the journal. -/
def Node.journaled (n : Node) (journal : RunTables) (row : EventRow) : Node :=
  { n with journal := journal, subs := n.subs.map (ReplaySub.fanout row) }

/-- The run's result is stored at a terminal event. -/
def Node.finalized (n : Node) (event : Json) : Node :=
  if isTerminal event then n.withDisk (VibeRunResult.persistTerminalResult cfg.sha256 n.disk).2 else n

/-- The tail stops at a terminal event. -/
def Node.ending (n : Node) (event : Json) : Node := if isTerminal event then { n with tail := none } else n

/-- One event of a poll: journaled, then sent.  Without a journal it is only sent. -/
def tailEvent (now : String) (n : Node) (event : Json) : Node × List (Message Sealed) :=
  match n.tail with
  | none => (n, [])
  | some tail =>
    if cfg.authority.isNone then (n.ending event, [tailMessage tail.key event none])
    else if event = .null then (n, [])     -- a field read of `null` throws
    else match append n.journal (journalInput now event) with
      | (.error _, journal) => (n.withJournal journal, [])
      | (.ok row, journal) =>
        (((n.journaled journal row).finalized cfg event).ending event,
          [tailMessage tail.key event (some row.sequence)])

def tailEvents (now : String) : Node → List Json → Node × List (Message Sealed)
  | n, [] => (n, [])
  | n, event :: events =>
    let first := tailEvent cfg now n event
    let rest := tailEvents now first.1 events
    (rest.1, first.2 ++ rest.2)

/-- `flush`. -/
def poll (now : String) (n : Node) : Node × List (Message Sealed) :=
  match n.tail with
  | none => (n, [])
  | some tail =>
    tailEvents cfg now { n with tail := some { tail with offset := n.log.length } } (n.log.drop tail.offset)

def replayMessage (r : ReplaySub) (ev : EventRow) : Message Sealed :=
  .runReplayEvent r.ref ev.sequence (eventBody r.key ev.payloadJson)

/-- `DEFAULT_MAX_QUEUE`. -/
def defaultMaxQueue : Nat := 1000

/-- `run_replay_open`: the snapshot is delivered in the call. -/
def openReplay (n : Node) (ref : String) (afterSequence : Int) : Node × List (Message Sealed) :=
  if cfg.authority.isNone then (n, [.runReplayMeta ref none])
  else
    let sub := subscribe n.journal afterSequence defaultMaxQueue
    let opened : ReplaySub := ⟨ref, n.eventKey, { sub with replaying := [], delivered := sub.replaying }⟩
    ({ n with subs := n.subs ++ [opened] },
      (replayMetadata n.journal afterSequence).toList.map (fun data => .runReplayMeta ref (some data)) ++
        sub.replaying.map (replayMessage opened))

/-- The scheduled drain of a queue. -/
def ReplaySub.drained (r : ReplaySub) : ReplaySub × List (Message Sealed) :=
  if r.sub.draining then
    if r.sub.live then
      ({ r with sub := { r.sub with draining := false, queue := [], delivered := r.sub.delivered ++ r.sub.queue } },
        r.sub.queue.map (replayMessage r))
    else ({ r with sub := { r.sub with draining := false } }, [])
  else (r, [])

def drainSub (n : Node) (i : Nat) : Node × List (Message Sealed) :=
  match n.subs[i]? with
  | none => (n, [])
  | some r => ({ n with subs := n.subs.set i r.drained.1 }, r.drained.2)

def handleRunStatus (n : Node) (reqId runId : String) : List (Message Sealed) :=
  match n.record with
  | none => [.runStatusAck reqId (.error ⟨"Run not found: " ++ runId, "run_not_found"⟩)]
  | some record => [.runStatusAck reqId (.ok record)]

def resolveNodeRunResult (n : Node) : Except JournalError VibeRunResult.NodeRunResult × Node :=
  if cfg.authority.isNone then (.ok ⟨"missing", none⟩, n)
  else
    let resolved := VibeRunResult.resolveNodeRunResult cfg.sha256 cfg.jsonParse n.disk
    (resolved.1, n.withDisk resolved.2)

def resultBody (key : Option String) (result : AgentTaskResult) : Body Sealed AgentTaskResult :=
  match key with
  | some k => .encrypted ⟨k, stringify (resultJson result)⟩
  | none => .plain result

/-- The answer to a `run_result_request`. -/
def resultAnswer (key : Option String) :
    Except JournalError VibeRunResult.NodeRunResult → Except Refusal (String × Option (Body Sealed AgentTaskResult))
  | .error e => .error ⟨e.message, "internal_error"⟩
  | .ok nr => .ok (nr.resultStatus, nr.result.map (resultBody key))

/-- `runStopLogic`. -/
def runStopLogic (now runId : String) (n : Node) : Node × Except Refusal RunRecord :=
  match n.record with
  | none => (n, .error ⟨"Run not found: " ++ runId, "run_not_found"⟩)
  | some record =>
    if terminalStatuses.contains record.status then
      (n, .error ⟨"Run is already terminal: " ++ record.status, "already_terminal"⟩)
    else
      let stopped := { record with status := "stopped" }
      ({ n with
          record := some stopped
          log := n.log ++ [.obj [("type", .str "status"), ("run_id", .str runId),
            ("session_id", .str record.sessionId), ("status", .str "stopped"), ("ts", .str now)]] },
        .ok stopped)

/-- `RunStopAckPayload`. -/
def stopAckJson : Except Refusal RunRecord → Json
  | .error e => .obj [("ok", .bool false), ("error", .str e.error), ("code", .str e.code)]
  | .ok record => .obj [("ok", .bool true), ("record", record.json)]

def approvalJson (p : ApprovalPayload) : List (String × Json) :=
  [("approval_id", .str p.approvalId), ("decision", .str p.decision)] ++ present "message" ((given p.message).map .str)

/-- `handleEncryptedRunStop`, with the client's request. -/
def handleEncryptedRunStop (n : Node) (reqId now runId : String) (keys : RunKeys) (intact : Bool)
    (reason : Option String) : Node × List (Message Sealed) :=
  let sent := Message.encryptedRunStopRequest reqId
    ⟨keys.stop, stringify (.obj (present "reason" ((given reason).map .str)))⟩
  match n.record.bind RunRecord.stopAesKey with
  | none =>
    (n, [sent, .runStopAck reqId (.error ⟨"No stop key for this run — was it started with --encrypt?", "no_stop_key"⟩)])
  | some k =>
    if !intact then
      (n, [sent, .runStopAck reqId (.error
        ⟨"Failed to decrypt stop request — wrong key or tampered ciphertext", "decrypt_failed"⟩)])
    else
      let stopped := runStopLogic now runId n
      (stopped.1, [sent, .encryptedRunStopAck reqId ⟨k, stringify (stopAckJson stopped.2)⟩])

/-- `handleEncryptedApprovalResponse`, with the client's message. -/
def handleEncryptedApprovalResponse (n : Node) (reqId now runId : String) (keys : RunKeys) (intact : Bool)
    (payload : ApprovalPayload) : Node × List (Message Sealed) :=
  let sent := Message.encryptedApprovalResponse reqId ⟨keys.approval, stringify (.obj (approvalJson payload))⟩
  match n.record.bind RunRecord.approvalAesKey with
  | none =>
    (n, [sent, .relayError "no_approval_key" "No approval key for this run — was it started with encryption?"])
  | some k =>
    if !intact then
      (n, [sent, .relayError "decrypt_failed" "Failed to decrypt approval_response — wrong key or tampered ciphertext"])
    else
      ({ n with log := n.log ++ [.obj ([("type", .str "approval_response"), ("run_id", .str runId), ("ts", .str now)] ++
          approvalJson payload)] },
        [sent, .encryptedApprovalResponseAck reqId ⟨k, stringify (.obj [("ok", .bool true)])⟩])

/-- One step on behalf of the run `runId`, whose keys the client has. -/
def step (runId : String) (keys : RunKeys) (n : Node) : Action → Node × List (Message Sealed)
  | .write status result =>
    ({ n with record := n.record.map fun r => { r with status := status, result := result } }, [])
  | .log event => ({ n with log := n.log ++ [event] }, [])
  | .poll now => poll cfg now n
  | .idle => ({ n with tail := none }, [])
  | .drain i => drainSub n i
  | .replayOpen ref afterSequence =>
    let opened := openReplay cfg n ref afterSequence
    (opened.1, .runReplayOpen ref afterSequence :: opened.2)
  | .replayClose ref i =>
    ({ n with subs := n.subs.modify i fun r => { r with sub := closeSub r.sub } }, [.runReplayClose ref])
  | .statusRequest reqId => (n, .runStatusRequest reqId :: handleRunStatus n reqId runId)
  | .resultRequest reqId =>
    let resolved := resolveNodeRunResult cfg n
    (resolved.2, [.runResultRequest reqId, .runResultAck reqId (resultAnswer n.eventKey resolved.1)])
  | .stopRequest reqId now =>
    let stopped := runStopLogic now runId n
    (stopped.1, [.runStopRequest reqId, .runStopAck reqId stopped.2])
  | .encryptedStop reqId now intact reason => handleEncryptedRunStop n reqId now runId keys intact reason
  | .approval reqId now intact payload => handleEncryptedApprovalResponse n reqId now runId keys intact payload
  | .restart => ({ n with eventKey := none, tail := none, subs := [] }, [])

end

/-! ## What is exposed -/

section

variable (cfg : Config)

/-- The Node does not get to read the payload. -/
def Start.Unread (s : Start) : Prop := s.hasIdentity = false ∨ s.intact = false

/-- The run is started, and the client told so. -/
structure Start.Started (s : Start) : Prop where
  hasIdentity : s.hasIdentity = true
  intact : s.intact = true
  admitted : ∃ r, admission cfg s = .ok r
  backend : ∃ sessionId, s.env.backendStart = .ok sessionId
  written : s.env.update = .written

/-- A step that is not the answer to a request for the record, and not an answer with the run's events or
    result from a Node that has lost the event key. -/
def Discreet (n : Node) : Action → Prop
  | .statusRequest _ => n.record = none
  | .stopRequest _ _ => ∀ record, n.record = some record → record.status ∈ terminalStatuses
  | .resultRequest _ =>
    n.eventKey.isSome = true ∨ ∀ nr, (resolveNodeRunResult cfg n).1 = .ok nr → nr.result = none
  | .replayOpen _ afterSequence =>
    n.eventKey.isSome = true ∨ cfg.authority = none ∨ readEvents n.journal afterSequence readLimit = []
  | _ => True

end

/-- While the tail runs, the event key is there, and everyone who forwards events has it. -/
structure Guarded (keys : RunKeys) (n : Node) : Prop where
  memory : n.eventKey = some keys.event ∨ n.eventKey = none ∧ n.tail = none
  tail : ∀ t, n.tail = some t → t.key = some keys.event
  subs : ∀ r ∈ n.subs, r.key = some keys.event ∨ r.sub.queue = [] ∧ n.tail = none
  record : ∀ r, n.record = some r → r.stopAesKey = some keys.stop

section

variable {cfg : Config} {keys : RunKeys} {n : Node}

@[simp] theorem exposed_nil : exposed [] = [] := rfl

@[simp] theorem exposed_cons (m : Message Sealed) (ms : List (Message Sealed)) :
    exposed (m :: ms) = m.secrets ++ exposed ms := rfl

theorem exposed_append (ms ms' : List (Message Sealed)) : exposed (ms ++ ms') = exposed ms ++ exposed ms' :=
  List.flatMap_append

theorem guarded_empty : Guarded keys Node.empty where
  memory := .inr ⟨rfl, rfl⟩
  tail := nofun
  subs := nofun
  record := nofun

variable (cfg) in
theorem recorded_guarded (s : Start) (admitted : VibeNode.RunRecord) : Guarded s.keys (recorded cfg s admitted) where
  memory := .inl rfl
  tail := nofun
  subs := nofun
  record := by
    rintro _ ⟨⟩
    rfl

variable (cfg) in
/-- **The start** leaves the keys with those who need them. -/
theorem start_guarded (s : Start) : Guarded s.keys (handleEncryptedRunStart cfg s).1 := by
  have hstart : Guarded s.keys (handleRunStart cfg s).1 := by
    unfold handleRunStart
    split
    · exact guarded_empty
    rename_i admitted _
    have hrecorded := recorded_guarded cfg s admitted
    simp only
    split
    · exact hrecorded
    split
    · exact hrecorded
    · exact ⟨.inr ⟨rfl, rfl⟩, nofun, nofun, hrecorded.record⟩
    · refine ⟨.inl rfl, ?_, nofun, ?_⟩
      · rintro _ ⟨⟩
        rfl
      · rintro _ ⟨⟩
        rfl
  unfold handleEncryptedRunStart
  simp only
  split
  · exact guarded_empty
  split
  · exact guarded_empty
  · exact hstart

/-- **The start** exposes nothing exactly when the run is not started. -/
theorem start_exposes (s : Start) : exposed (handleEncryptedRunStart cfg s).2 = [] ↔ ¬ s.Started cfg := by
  unfold handleEncryptedRunStart
  simp only
  split
  · rename_i hid
    refine ⟨fun _ hst => ?_, fun _ => rfl⟩
    rw [hst.hasIdentity] at hid
    exact nomatch hid
  split
  · rename_i hin
    refine ⟨fun _ hst => ?_, fun _ => rfl⟩
    rw [hst.intact] at hin
    exact nomatch hin
  rename_i hid hin
  simp only [exposed_cons, Message.secrets, List.nil_append]
  unfold handleRunStart
  split
  · rename_i ack hack
    refine ⟨fun _ hst => ?_, fun _ => rfl⟩
    obtain ⟨r, hr⟩ := hst.admitted
    exact nomatch hack.symm.trans hr
  rename_i admitted hadm
  simp only
  split
  · rename_i message hback
    refine ⟨fun _ hst => ?_, fun _ => rfl⟩
    obtain ⟨sessionId, hs⟩ := hst.backend
    exact nomatch hback.symm.trans hs
  rename_i sessionId hback
  split
  · rename_i message hup
    exact ⟨fun _ hst => (nomatch hup.symm.trans hst.written), fun _ => rfl⟩
  · rename_i hup
    exact ⟨fun _ hst => (nomatch hup.symm.trans hst.written), fun _ => rfl⟩
  · rename_i hup
    constructor
    · simp [Message.secrets, RunRecord.secrets, newRecord]
    · intro hnot
      exact absurd ⟨by simpa using hid, by simpa using hin, ⟨admitted, hadm⟩, ⟨sessionId, hback⟩, hup⟩ hnot

/-- The tail ends. -/
theorem Guarded.untailed (h : Guarded keys n) : Guarded keys { n with tail := none } where
  memory := h.memory.imp_right fun m => ⟨m.1, rfl⟩
  tail := nofun
  subs r hr := (h.subs r hr).imp_right fun m => ⟨m.1, rfl⟩
  record := h.record

theorem Guarded.ending (h : Guarded keys n) (event : Json) : Guarded keys (n.ending event) := by
  unfold Node.ending
  split
  · exact h.untailed
  · exact h

theorem Guarded.withDisk (h : Guarded keys n) (d : VibeRunResult.NodeState) : Guarded keys (n.withDisk d) :=
  ⟨h.memory, h.tail, h.subs, h.record⟩

theorem Guarded.finalized (h : Guarded keys n) (event : Json) : Guarded keys (n.finalized cfg event) := by
  unfold Node.finalized
  split
  · exact h.withDisk _
  · exact h

/-- An event is fanned out while the tail runs, so to subscribers with the key. -/
theorem Guarded.journaled (h : Guarded keys n) {t : Tail} (ht : n.tail = some t) (journal : RunTables)
    (row : EventRow) :
    Guarded keys (n.journaled journal row) where
  memory := h.memory
  tail := h.tail
  subs r hr := by
    obtain ⟨r', hr', rfl⟩ := List.mem_map.mp hr
    rcases h.subs r' hr' with hkey | ⟨-, hnone⟩
    · exact .inl hkey
    · rw [ht] at hnone
      exact nomatch hnone
  record := h.record

theorem tailEvent_guarded (h : Guarded keys n) (now : String) (event : Json) :
    Guarded keys (tailEvent cfg now n event).1 ∧ exposed (tailEvent cfg now n event).2 = [] := by
  unfold tailEvent
  split
  · exact ⟨h, rfl⟩
  rename_i t ht
  simp only [h.tail t ht]
  split
  · exact ⟨h.ending event, rfl⟩
  split
  · exact ⟨h, rfl⟩
  split
  · exact ⟨⟨h.memory, h.tail, h.subs, h.record⟩, rfl⟩
  · rename_i row journal _
    exact ⟨((h.journaled ht journal row).finalized event).ending event, rfl⟩

theorem tailEvents_guarded (h : Guarded keys n) (now : String) (events : List Json) :
    Guarded keys (tailEvents cfg now n events).1 ∧ exposed (tailEvents cfg now n events).2 = [] := by
  induction events generalizing n with
  | nil => exact ⟨h, rfl⟩
  | cons event events ih =>
    obtain ⟨hg, hfirst⟩ : Guarded keys (tailEvent cfg now n event).1 ∧ exposed (tailEvent cfg now n event).2 = [] :=
      tailEvent_guarded h now event
    obtain ⟨hrest, hexposed⟩ := ih hg
    refine ⟨hrest, ?_⟩
    show exposed ((tailEvent cfg now n event).2 ++ _) = []
    rw [exposed_append, hfirst, hexposed]
    rfl

/-- The tail moves on. -/
theorem Guarded.moved (h : Guarded keys n) {t : Tail} (ht : n.tail = some t) (offset : Nat) :
    Guarded keys { n with tail := some { t with offset := offset } } := by
  refine ⟨h.memory.imp_right fun m => ?_, ?_, fun r hr => (h.subs r hr).imp_right fun m => ?_, h.record⟩
  · rw [ht] at m
    exact nomatch m.2
  · rintro _ ⟨⟩
    exact h.tail t ht
  · rw [ht] at m
    exact nomatch m.2

theorem poll_guarded (h : Guarded keys n) (now : String) :
    Guarded keys (poll cfg now n).1 ∧ exposed (poll cfg now n).2 = [] := by
  unfold poll
  split
  · exact ⟨h, rfl⟩
  · rename_i t ht
    exact tailEvents_guarded (h.moved ht _) now _

/-- With the key every body is encrypted. -/
theorem secrets_replayMessage {r : ReplaySub} {k : String} (hr : r.key = some k) (ev : EventRow) :
    (replayMessage r ev).secrets = [] := by
  simp only [replayMessage, eventBody, hr, Message.secrets]

theorem exposed_replay {r : ReplaySub} {k : String} (hr : r.key = some k) (rows : List EventRow) :
    exposed (rows.map (replayMessage r)) = [] := by
  simp only [exposed, List.flatMap_eq_nil_iff, List.mem_map]
  rintro _ ⟨ev, -, rfl⟩
  exact secrets_replayMessage hr ev

theorem exposed_plain {r : ReplaySub} (hr : r.key = none) (rows : List EventRow) :
    exposed (rows.map (replayMessage r)) = rows.map fun ev => .event ev.payloadJson := by
  induction rows with
  | nil => rfl
  | cons ev rows ih =>
    simp only [List.map_cons, exposed_cons, ih]
    simp only [replayMessage, eventBody, hr, Message.secrets, List.singleton_append]

theorem exposed_meta (ref : String) (data : Option ReplayMetadata) :
    exposed (data.toList.map fun d => .runReplayMeta ref (some d)) = [] := by
  cases data <;> rfl

theorem drain_guarded (h : Guarded keys n) (i : Nat) :
    Guarded keys (drainSub n i).1 ∧ exposed (drainSub n i).2 = [] := by
  unfold drainSub
  split
  · exact ⟨h, rfl⟩
  rename_i r hr
  have hmem := h.subs r (List.mem_of_getElem? hr)
  have hrow : r.drained.1.key = r.key ∧ (r.sub.queue = [] → r.drained.1.sub.queue = []) := by
    unfold ReplaySub.drained
    split
    · split
      · exact ⟨rfl, fun _ => rfl⟩
      · exact ⟨rfl, id⟩
    · exact ⟨rfl, id⟩
  refine ⟨⟨h.memory, h.tail, fun r' hr' => ?_, h.record⟩, ?_⟩
  · rcases List.mem_or_eq_of_mem_set hr' with hold | rfl
    · exact h.subs r' hold
    · rw [hrow.1]
      exact hmem.imp_right fun m => ⟨hrow.2 m.1, m.2⟩
  · unfold ReplaySub.drained
    split
    · split
      · rcases hmem with hkey | ⟨hempty, -⟩
        · exact exposed_replay hkey _
        · rw [hempty]
          rfl
      · rfl
    · rfl

theorem open_guarded (h : Guarded keys n) (ref : String) (afterSequence : Int) :
    Guarded keys (openReplay cfg n ref afterSequence).1 := by
  unfold openReplay
  split
  · exact h
  refine ⟨h.memory, h.tail, fun r hr => ?_, h.record⟩
  rcases List.mem_append.mp hr with hold | hnew
  · exact h.subs r hold
  · obtain rfl := List.mem_singleton.mp hnew
    rcases h.memory with hkey | ⟨-, hnone⟩
    · exact .inl hkey
    · exact .inr ⟨rfl, hnone⟩

theorem open_exposes (h : Guarded keys n) (ref : String) (afterSequence : Int) :
    exposed (openReplay cfg n ref afterSequence).2 = [] ↔ Discreet cfg n (.replayOpen ref afterSequence) := by
  simp only [openReplay, Discreet, Option.isNone_iff_eq_none]
  split
  · rename_i hnone
    exact ⟨fun _ => .inr (.inl hnone), fun _ => rfl⟩
  rename_i hjournal
  simp only [exposed_append, exposed_meta, List.nil_append]
  rcases h.memory with hkey | ⟨hkey, -⟩
  · exact ⟨fun _ => .inl (by rw [hkey]; rfl), fun _ => exposed_replay hkey _⟩
  · rw [exposed_plain hkey]
    simp [hkey, hjournal, subscribe]

theorem runStop_guarded (h : Guarded keys n) (now runId : String) : Guarded keys (runStopLogic now runId n).1 := by
  unfold runStopLogic
  split
  · exact h
  rename_i record hrecord
  split
  · exact h
  · refine ⟨h.memory, h.tail, h.subs, ?_⟩
    rintro _ ⟨⟩
    exact h.record record hrecord

theorem runStop_exposes (h : Guarded keys n) (reqId now runId : String) :
    (Message.runStopAck (c := Sealed) reqId (runStopLogic now runId n).2).secrets = [] ↔
      Discreet cfg n (.stopRequest reqId now) := by
  simp only [runStopLogic, Discreet]
  split
  · rename_i hnone
    exact ⟨fun _ record hr => (nomatch hnone.symm.trans hr), fun _ => rfl⟩
  rename_i record hrecord
  split
  · rename_i hterm
    refine ⟨fun _ r hr => ?_, fun _ => rfl⟩
    obtain rfl := Option.some.inj (hrecord.symm.trans hr)
    exact List.contains_iff_mem.mp hterm
  · rename_i hterm
    constructor
    · simp [Message.secrets, RunRecord.secrets, h.record record hrecord]
    · intro hall
      exact absurd (List.contains_iff_mem.mpr (hall record hrecord)) hterm

theorem result_exposes (h : Guarded keys n) (reqId : String) :
    (Message.runResultAck (c := Sealed) reqId (resultAnswer n.eventKey (resolveNodeRunResult cfg n).1)).secrets = [] ↔
      Discreet cfg n (.resultRequest reqId) := by
  simp only [Discreet]
  cases hres : (resolveNodeRunResult cfg n).1 with
  | error e => simp [resultAnswer, Message.secrets]
  | ok nr =>
    rcases h.memory with hkey | ⟨hkey, -⟩
    · cases hr : nr.result <;> simp [resultAnswer, resultBody, Message.secrets, hkey, hr]
    · cases hr : nr.result <;> simp [resultAnswer, resultBody, Message.secrets, hkey, hr]

/-- **One step**: it keeps the keys with those who need them. -/
theorem step_guarded (h : Guarded keys n) (runId : String) (a : Action) :
    Guarded keys (step cfg runId keys n a).1 := by
  cases a with
  | write status result =>
    refine ⟨h.memory, h.tail, h.subs, fun r hr => ?_⟩
    obtain ⟨r', hr', rfl⟩ := Option.map_eq_some_iff.mp hr
    exact h.record r' hr'
  | log event => exact ⟨h.memory, h.tail, h.subs, h.record⟩
  | poll now => exact (poll_guarded h now).1
  | idle => exact h.untailed
  | drain i => exact (drain_guarded h i).1
  | replayOpen ref afterSequence => exact open_guarded h ref afterSequence
  | replayClose ref i =>
    refine ⟨h.memory, h.tail, fun r hr => ?_, h.record⟩
    obtain ⟨j, hj⟩ := List.mem_iff_getElem?.mp hr
    change (n.subs.modify i _)[j]? = some r at hj
    rw [List.getElem?_modify] at hj
    cases hold : n.subs[j]? with
    | none =>
      rw [hold] at hj
      exact nomatch hj
    | some r' =>
      have hmem := h.subs r' (List.mem_of_getElem? hold)
      rw [hold] at hj
      obtain rfl := Option.some.inj hj
      split
      · exact hmem
      · exact hmem
  | statusRequest reqId => exact h
  | resultRequest reqId =>
    show Guarded keys (resolveNodeRunResult cfg n).2
    unfold resolveNodeRunResult
    split
    · exact h
    · exact h.withDisk _
  | stopRequest reqId now => exact runStop_guarded h now runId
  | encryptedStop reqId now intact reason =>
    simp only [step, handleEncryptedRunStop]
    split
    · exact h
    split
    · exact h
    · exact runStop_guarded h now runId
  | approval reqId now intact payload =>
    simp only [step, handleEncryptedApprovalResponse]
    split
    · exact h
    split
    · exact h
    · exact ⟨h.memory, h.tail, h.subs, h.record⟩
  | restart => exact ⟨.inr ⟨rfl, rfl⟩, nofun, nofun, h.record⟩

/-- **One step** exposes nothing exactly when it is discreet. -/
theorem step_exposes (h : Guarded keys n) (runId : String) (a : Action) :
    exposed (step cfg runId keys n a).2 = [] ↔ Discreet cfg n a := by
  have always {ms : List (Message Sealed)} (hms : exposed ms = []) :
    exposed ms = [] ↔ True := ⟨fun _ => trivial, fun _ => hms⟩
  cases a with
  | write status result => exact always rfl
  | log event => exact always rfl
  | poll now => exact always (poll_guarded h now).2
  | idle => exact always rfl
  | drain i => exact always (drain_guarded h i).2
  | replayOpen ref afterSequence => exact open_exposes h ref afterSequence
  | replayClose ref i => exact always rfl
  | statusRequest reqId =>
    show exposed (.runStatusRequest reqId :: handleRunStatus n reqId runId) = [] ↔ n.record = none
    unfold handleRunStatus
    split
    · rename_i hnone
      exact ⟨fun _ => hnone, fun _ => rfl⟩
    · rename_i record hrecord
      simp [hrecord, Message.secrets, RunRecord.secrets, h.record record hrecord]
  | resultRequest reqId =>
    show _ ++ (_ ++ []) = [] ↔ _
    rw [List.append_nil]
    exact result_exposes h reqId
  | stopRequest reqId now =>
    show _ ++ (_ ++ []) = [] ↔ _
    rw [List.append_nil]
    exact runStop_exposes h reqId now runId
  | encryptedStop reqId now intact reason =>
    refine always ?_
    simp only [step, handleEncryptedRunStop]
    split
    · rfl
    split <;> rfl
  | approval reqId now intact payload =>
    refine always ?_
    simp only [step, handleEncryptedApprovalResponse]
    split
    · rfl
    split <;> rfl
  | restart => exact always rfl

end

end VibeRelay
