import VibeWorkflow.RunResultProofs
import VibeWorkflow.TaskStoreProofs

/-!
# A task in the Gateway

The Gateway keeps a task in memory next to its durable row: the next event's number, the events it
has published, and whether the task has ended.  Events reach it from the local log, from the Node's
live stream and from the Node's journal; a terminal status may also be seen first by a GET or a
cancel.  A remote task is ended once its result has been fetched.

* `ingest`, `ingestSource` and `reconcileRemoteRecord` — the three ways in;
* `terminalize_taken` — an end that the store takes, and the row it leaves.
-/

namespace VibeGateway

open VibeJson VibeStore VibeTask VibeRun VibeResult CallRuns Transaction
open VibeRunResult (RunRecord truthy)

/-! ## The task in memory -/

inductive Mode where
  | localRun | remote
deriving DecidableEq

/-- `{ status, result }`, as it is stored. -/
abbrev TaskResult := String × Option AgentTaskResult

/-- `published` holds every event that was pushed; the retained buffer is its end. -/
structure GatewayTask where
  mode : Mode
  nextSeq : Int
  emittedRunEvents : Nat
  terminal : Bool
  revision : Int
  remoteRunId : Option String
  resultCapable : Option Bool
  pendingResult : Option TaskResult
  published : List TaskEvent
deriving DecidableEq

/-- A terminal event that waits for the run's result, and the attempt it is at. -/
structure Fetch where
  event : TaskEvent
  attempt : Nat
  sleeping : Bool
deriving DecidableEq

/-- `converging`: the result of a task that the replay has ended is still being fetched. -/
structure Gateway where
  store : TaskStore
  task : GatewayTask
  fetches : List Fetch
  converging : Bool

/-- A time as `toISOString` writes it. -/
abbrev IsoTime := { text : String // isIsoUtc text = true }

/-- What an operation finds outside: whether the store throws on its write, the clock, and the run
    record as `readRun` gives it. -/
structure Ambient where
  fault : Bool
  now : IsoTime
  record : Option RunRecord

structure Config where
  taskId : String
  remoteEnabled : Bool
  sha256 : String → String

inductive RunStatus where
  | queued | running | blocked | completed | failed | stopped | cancelled
deriving DecidableEq

inductive TaskStatus where
  | queued | starting | running | completed | failed | cancelled
deriving DecidableEq

def runStatusToTaskStatus : RunStatus → TaskStatus
  | .queued => .queued
  | .running => .running
  | .completed => .completed
  | .failed => .failed
  | .stopped => .cancelled
  | .cancelled => .cancelled
  | .blocked => .running

def TaskStatus.name : TaskStatus → String
  | .queued => "queued"
  | .starting => "starting"
  | .running => "running"
  | .completed => "completed"
  | .failed => "failed"
  | .cancelled => "cancelled"

def isTerminalTaskStatus : TaskStatus → Bool
  | .completed | .failed | .cancelled => true
  | _ => false

/-- The type of the event that ends a task with this status. -/
def terminalType : TaskStatus → TaskEventType
  | .completed => .completed
  | .failed => .failed
  | _ => .cancelled

def remoteResultAttempts : Nat := 3

def missing : TaskResult := ("missing", none)

/-! ## Publishing and ending -/

section

variable (cfg : Config) (a : Ambient)

/-- A write to the store: whether it went through, and the rows it left. -/
def persist (store : TaskStore) (c : StoreCall) : Bool × TaskStore :=
  if a.fault then (false, store)
  else ((callStore cfg.taskId a.now store c).1.isOk, (callStore cfg.taskId a.now store c).2)

def pushEvent (s : Gateway) (ev : TaskEvent) : Gateway :=
  { s with task := { s.task with published := s.task.published ++ [ev] } }

def persistThenPush (s : Gateway) (ev : TaskEvent) : Gateway :=
  match persist cfg a s.store (.events (.append (toEventInput ev))) with
  | (true, store) => pushEvent { s with store := store } ev
  | (false, store) => { s with store := store }

/-- The next number is taken. -/
def Gateway.reserve (s : Gateway) : Gateway := { s with task := { s.task with nextSeq := s.task.nextSeq + 1 } }

def synthEvent (s : Gateway) (type : TaskEventType) (payload : Json) : TaskEvent × Gateway :=
  (⟨s.task.nextSeq, type, a.now, payload⟩, s.reserve)

def finishTask (s : Gateway) : Gateway := { s with task := { s.task with terminal := true } }

def resolveTerminalResult (task : GatewayTask) (ev : TaskEvent) : TaskResult :=
  match task.pendingResult with
  | some r => r
  | none =>
    if ev.type = .completed ∧ task.mode = .localRun then
      match (a.record.filter (fun rec => rec.resultStatus = some "available")).bind (fun rec => rec.taskResult.filter truthy) with
      | none => missing
      | some value =>
        match validateTaskResult cfg.sha256 value with
        | .ok result => ("available", some result)
        | .error _ => ("invalid", none)
    else missing

/-- The patch of an end: a status, and the error of an end that recovery decides. -/
def endPatch (ev : TaskEvent) (durableError : Option (String × String)) : TaskPatch :=
  ⟨some ev.type.terminalStatusFor, none, none, none, none, none, durableError.map (some ·.1),
    durableError.map (some ·.2)⟩

/-- The event is published and the task ends in memory, whether or not the store has taken it. -/
def finishWithTerminal (s : Gateway) (ev : TaskEvent) (durableError : Option (String × String)) : Gateway :=
  if s.task.terminal then s
  else
    let r := resolveTerminalResult cfg a s.task ev
    let (ok, store) := persist cfg a s.store
      (.terminalizeWithResult s.task.revision (endPatch ev durableError) (toEventInput ev) r.1 r.2)
    let revision := if ok then store.columns.revision else s.task.revision
    finishTask (pushEvent { s with store := store, task := { s.task with revision := revision } } ev)

/-- `!task.remoteRunId`. -/
def GatewayTask.unbound (task : GatewayTask) : Bool := task.remoteRunId.getD "" = ""

/-- Up to the first `await`: the task ends at once, or the fetch of its result is under way. -/
def finishRemoteWithResult (s : Gateway) (ev : TaskEvent) : Gateway :=
  if s.task.terminal then s
  else if !cfg.remoteEnabled || s.task.mode ≠ .remote || s.task.unbound then finishWithTerminal cfg a s ev none
  else if s.task.resultCapable = some false then
    finishWithTerminal cfg a { s with task := { s.task with pendingResult := some missing } } ev none
  else { s with fetches := s.fetches ++ [⟨ev, 0, false⟩] }

/-- The answer to the fetch at this place; a fetch that fails sleeps before the next attempt. -/
def fetched (s : Gateway) (i : Nat) (outcome : Option TaskResult) : Gateway :=
  match s.fetches[i]?.filter (fun f => !f.sleeping) with
  | none => s
  | some f =>
    let done := { s with fetches := s.fetches.eraseIdx i }
    match outcome with
    | some r => finishWithTerminal cfg a { done with task := { s.task with pendingResult := some r } } f.event none
    | none =>
      if f.attempt + 1 < remoteResultAttempts then
        { s with fetches := s.fetches.set i { f with attempt := f.attempt + 1, sleeping := true } }
      else if s.task.resultCapable = none ∧ s.task.terminal = false then
        finishWithTerminal cfg a { done with task := { s.task with pendingResult := some missing } } f.event none
      else done

/-- The sleep is over: another attempt, unless the task has ended meanwhile. -/
def woken (s : Gateway) (i : Nat) : Gateway :=
  match s.fetches[i]?.filter (fun f => f.sleeping) with
  | none => s
  | some f =>
    if s.task.terminal then { s with fetches := s.fetches.eraseIdx i }
    else { s with fetches := s.fetches.set i { f with sleeping := false } }

/-! ## The three ways in -/

/-- An event of the local log or of the live stream, and whether it ends the reading. -/
def ingest (s : Gateway) (event : Json) : Gateway × Bool :=
  if s.task.terminal then (s, true)
  else match runEventToTaskEvent event s.task.nextSeq with
  | none => (s, false)
  | some te =>
    if te.type.terminal then
      (if s.task.mode = .remote then finishRemoteWithResult cfg a s.reserve te
        else finishWithTerminal cfg a s.reserve te none, true)
    else (persistThenPush cfg a s.reserve te, false)

/-- An event of the Node's journal. -/
def ingestSource (s : Gateway) (event : Json) (sourceSeq : JsNum) : Gateway :=
  if s.task.terminal then s
  else match runEventToTaskEvent event 0 with
  | none => { s with store := (persist cfg a s.store (.events (.advance sourceSeq))).2 }
  | some te =>
    let c := TaskCall.ingest sourceSeq (toSourceEvent te)
    if a.fault then s
    else
      let store := (callStore cfg.taskId a.now s.store (.events c)).2
      match (callTask cfg.taskId s.store.tables c).1 with
      | .error _ => { s with store := store }
      | .ok r =>
        let s := { s with store := store, task := { s.task with revision := store.columns.revision } }
        match r.applied, r.canonicalSequence with
        | true, some n =>
          let next := { s.task with nextSeq := max s.task.nextSeq ((n : Int) + 1) }
          let s := pushEvent { s with task := next } { te with seq := n }
          if te.type.terminal then { finishTask s with converging := s.task.mode = .remote } else s
        | _, _ => s

/-- A GET, a cancel or a stream that gave up has read the run's status. -/
def reconcileRemoteRecord (s : Gateway) (status : RunStatus) : Gateway :=
  if s.task.terminal then s
  else if !isTerminalTaskStatus (runStatusToTaskStatus status) then s
  else
    let (ev, s') := synthEvent a s (terminalType (runStatusToTaskStatus status)) (.obj [])
    finishRemoteWithResult cfg a s' ev

/-- The result that is fetched after the replay has ended the task.  Nothing is pending when the fetch
    starts; another one may have been answered since. -/
def converged (s : Gateway) (outcome : Option TaskResult) : Gateway :=
  if !s.converging then s
  else
    let pending :=
      if !cfg.remoteEnabled || s.task.mode ≠ .remote || s.task.unbound then s.task.pendingResult
      else if s.task.resultCapable = some false then some missing
      else outcome.or s.task.pendingResult
    match pending with
    | none => { s with converging := false }
    | some r =>
      { s with
        store := (persist cfg a s.store (.persistResult r.1 r.2)).2
        task := { s.task with pendingResult := pending }
        converging := false }

end

section

variable (cfg : Config)

/-- The rest of the log, until an event ends the reading. -/
def drainLoop : Gateway → Nat → List (Json × Ambient) → Gateway × Option Nat
  | s, _, [] => (s, none)
  | s, i, (event, a) :: rest =>
    match ingest cfg a s event with
    | (s', true) => (s', some (i + 1))
    | (s', false) => drainLoop s' (i + 1) rest

/-- A poll of the local log as it reads now. -/
def drain (s : Gateway) (log : List (Json × Ambient)) : Gateway :=
  let (s', stopped) := drainLoop cfg s s.task.emittedRunEvents (log.drop s.task.emittedRunEvents)
  { s' with task := { s'.task with emittedRunEvents := stopped.getD log.length } }

/-! ## Creation -/

/-- What a creation is given: the run that was started, and what its Node can do.  A remote task is
    bound to its run by a second write, which may throw. -/
structure Creation where
  mode : Mode
  agent : String
  runId : String
  status : RunStatus
  createdAt : IsoTime
  replayCapable : Bool
  resultCapable : Bool
  bindFault : Bool

def createdEvent (c : Creation) : TaskEvent := ⟨0, .created, c.createdAt, .obj [("agent", .str c.agent)]⟩

/-- The row as inserted, before its first event. -/
def insertedRow (status : TaskStatus) (remoteRunId : Option String) : TaskStore :=
  ⟨createdTask status.name, ⟨1, remoteRunId, none, none, none, none, none⟩, none⟩

def bindPatch (c : Creation) : TaskPatch :=
  ⟨some (runStatusToTaskStatus c.status).name, some (some c.runId), none, none, none, none, none, none⟩

/-- A remote task is inserted before its run is started. -/
def createdStatus (c : Creation) : TaskStatus :=
  match c.mode with
  | .localRun => runStatusToTaskStatus c.status
  | .remote => .queued

/-- A remote task is then bound to its run. -/
def bindRemote (c : Creation) (store : TaskStore) : TaskStore :=
  let bound := (persist cfg ⟨c.bindFault, c.createdAt, none⟩ store (.update 1 (bindPatch c))).2
  if c.replayCapable then { bound with tables := initReplayCursor bound.tables } else bound

/-- The durable row of a new task with its first event, or nothing when the store refuses them. -/
def createDurable (c : Creation) : Option TaskStore :=
  match callStore cfg.taskId c.createdAt (insertedRow (createdStatus c) none)
      (.events (.append (toEventInput (createdEvent c)))) with
  | (.error _, _) => none
  | (.ok _, store) =>
    some (match c.mode with
      | .localRun => store
      | .remote => bindRemote cfg c store)

/-- The task as it is registered. -/
def handleCreate (c : Creation) : Option Gateway :=
  (createDurable cfg c).map fun store => {
    store := store
    task := {
      mode := c.mode
      nextSeq := 1
      emittedRunEvents := 0
      terminal := false
      revision := store.columns.revision
      remoteRunId := match c.mode with
        | .localRun => none
        | .remote => some c.runId
      resultCapable := match c.mode with
        | .localRun => none
        | .remote => some c.resultCapable
      pendingResult := none
      published := [createdEvent c] }
    fetches := []
    converging := false }

end

/-! ## What the store takes -/

/-- The store has a row for the event's time and payload. -/
structure Storable (ev : TaskEvent) : Prop where
  ts : isIsoUtc ev.ts = true
  fits : byteLen (stringify ev.payload) ≤ taskEventPayload

/-- A row that has a terminal status already has this event's. -/
def StatusFits (cur : TaskRow) (ev : TaskEvent) : Prop := cur.terminal = true → ev.type.terminalStatusFor = cur.status

/-- A result that the store has a row for. -/
def Encodable (r : TaskResult) : Prop := ∃ row, rowOf VibeTask.resultEncoding r.1 r.2 = .ok row

theorem missing_encodable : Encodable missing := ⟨_, rfl⟩

/-- The row that ends a task. -/
def endedRow (cur : TaskRow) (n : Nat) (ev : TaskEvent) : TaskRow :=
  { cur with status := ev.type.terminalStatusFor, lastEventSequence := n, terminalEventRecorded := true }

section

variable {store : TaskStore} {cur : TaskRow} {ev : TaskEvent}

/-- **The next event** is taken. -/
theorem event_taken (cfg : Config) {db : TaskTables} (h : EventsInv db cur) (hseq : ev.seq = cur.lastEventSequence + 1)
    (hev : Storable ev) :
    appendTaskEventSync cfg.taskId db (toEventInput ev) =
      (.ok (), extend db cur (appendedRow db.events.length (toEventInput ev))) :=
  append_taken cfg.taskId (toEventInput ev) h (congrArg JsNum.ofInt hseq) (name_valid ev.type) hev.ts hev.fits nofun

theorem keepResult_first {r : TaskResult} (conflict : String) (hnone : store.result = none) (hr : Encodable r) :
    ∃ store', keepResult r.1 r.2 conflict store = (.ok (), store') ∧ store'.tables = store.tables ∧
      store'.columns.revision = store.columns.revision := by
  obtain ⟨row, hrow⟩ := hr
  refine ⟨{ store with result := some row, columns := { store.columns with resultStatus := some r.1 } }, ?_, rfl, rfl⟩
  unfold keepResult
  rw [readTx_bind, hnone]
  exact bind_ok.mpr ⟨row, store, check_ok.mpr ⟨hrow, rfl⟩, rfl⟩

/-- A patch that only ends the task. -/
theorem update_taken {taskId now : String} {revision : Int} (htask : store.tables.task = some cur)
    (hrev : store.columns.revision = revision) (hfits : StatusFits cur ev) :
    updateTaskSync taskId revision { endPatch ev none with terminalAt := some (some now) } store =
      (.ok (), ⟨⟨some { cur with status := ev.type.terminalStatusFor }, store.tables.events⟩,
        { store.columns with revision := store.columns.revision + 1, terminalAt := some now }, store.result⟩) := by
  refine bind_ok.mpr ⟨cur, store, requireTask_ok.mpr ⟨htask, rfl⟩, ?_⟩
  rw [readTx_bind, guarded_ok, guarded_ok, guarded_ok]
  refine ⟨not_not.mpr hrev, ?_, (fun h => nomatch h.1), bind_ok.mpr ⟨store.columns.metadataJson, store,
    check_ok.mpr ⟨rfl, rfl⟩, bind_ok.mpr ⟨cur.errorMessage, store, check_ok.mpr ⟨rfl, rfl⟩, ?_⟩⟩⟩
  · -- a terminal status is not replaced by another one
    simp only [endPatch, Option.any_some, Bool.and_eq_true, decide_eq_true_eq, not_and, not_not]
    exact hfits
  · simp only [modifyTx, updateTask, htask, Option.map_some]
    rfl

/-- **An end that the store takes.** -/
theorem terminalize_taken (cfg : Config) (now : String) {revision : Int} {r : TaskResult}
    (h : EventsInv store.tables cur)
    (hopen : cur.terminalEventRecorded = false) (hrev : store.columns.revision = revision) (hnone : store.result = none)
    (hr : Encodable r) (hfits : StatusFits cur ev) (hseq : ev.seq = cur.lastEventSequence + 1) (hev : Storable ev)
    (hterm : ev.type.terminal = true) :
    ∃ store', callStore cfg.taskId now store
        (.terminalizeWithResult revision (endPatch ev none) (toEventInput ev) r.1 r.2) = (.ok (), store') ∧
      store'.tables = ⟨some (endedRow cur store.tables.events.length ev),
        store.tables.events ++ [appendedRow store.tables.events.length (toEventInput ev)]⟩ := by
  obtain ⟨kept, hkeep, htables, hcolumns⟩ := keepResult_first "conflicting task result on terminalization" hnone hr
  have htask : kept.tables.task = some cur := htables ▸ h.task
  have hinv : EventsInv ⟨some { cur with status := ev.type.terminalStatusFor }, kept.tables.events⟩
      { cur with status := ev.type.terminalStatusFor } := by
    rw [htables]
    exact h.of_row rfl
  refine ⟨⟨⟨some (endedRow cur kept.tables.events.length ev),
      kept.tables.events ++ [appendedRow kept.tables.events.length (toEventInput ev)]⟩,
    { kept.columns with revision := kept.columns.revision + 1, terminalAt := some now }, kept.result⟩, ?_, ?_⟩
  · refine transaction_ok.mpr (bind_ok.mpr ⟨cur, store, requireTask_ok.mpr ⟨h.task, rfl⟩,
      bind_ok.mpr ⟨(), kept, hkeep, ?_⟩⟩)
    rw [if_neg (Bool.eq_false_iff.mp hopen), guarded_ok]
    refine ⟨?_, bind_ok.mpr ⟨(), _, update_taken htask (hcolumns.trans hrev) hfits, bind_ok.mpr ⟨(), _,
      onTables_ok.mpr ⟨_, event_taken cfg hinv hseq hev, rfl⟩, rfl⟩⟩⟩
    -- the patch names a terminal status
    have hstatus : (endPatch ev none).terminal = true := List.contains_iff_mem.mpr (terminalStatus_mem hterm)
    rw [hstatus]
    exact nofun
  · rw [htables]

end

end VibeGateway
