import VibeWorkflow.CallRunProofs
import VibeWorkflow.KeyedMapProofs
import VibeWorkflow.RunResultProofs
import VibeWorkflow.AdmissionProofs

/-!
# The relay server

One process holds the connections of nodes and clients.  Its message handler reads a frame as JSON,
takes it for a protocol message without checking it, and keeps its tables by the values it finds in
the frame, whatever they are.  So the frames here are JSON values, table keys are JavaScript values,
and a handler that reads a property of `null` or turns an object into text may throw; what it wrote
before it threw stays written.

* **`Key`** — what a `Map` tells apart;
* **`Relay.handle`** — one frame, case by case;
* **`Relay.step`** — a connection, a frame or a close; a throw takes the process down.

The history fields `registered`, `requests`, `forwards` and `sent` are read by no handler.
-/

namespace VibeRelayServer

open VibeJson VibeRunResult CallRuns KeyedMap
open VibeAdmission (setProp)

/-! ## Values read from a frame -/

/-- What a `Map` tells apart: two objects are the same key only when they are the same object, and every
    frame makes new ones. -/
inductive Key where
  | undefined
  | null
  | bool (b : Bool)
  | num (n : JsNum)
  | str (s : String)
  | ref (frame : Nat) (path : String)
deriving DecidableEq

/-- A value with its identity. -/
structure Val where
  json : Option Json
  key : Key
deriving DecidableEq

def keyAt (frame : Nat) (path : String) : Option Json → Key
  | none => .undefined
  | some .null => .null
  | some (.bool b) => .bool b
  | some (.num n) => .num n
  | some (.str s) => .str s
  | some (.arr _) | some (.obj _) => .ref frame path

def Val.null : Val := ⟨some .null, .null⟩

def Val.truthy (v : Val) : Bool := v.json.any VibeRunResult.truthy

/-- A frame as it was parsed, and how many came before it. -/
structure Frame where
  number : Nat
  json : Json

/-- `msg[name]`. -/
def Frame.val (f : Frame) (name : String) : Val :=
  ⟨f.json.get? name, keyAt f.number name (f.json.get? name)⟩

/-- `msg[outer][name]`, once `msg[outer]` is known to be neither `null` nor absent. -/
def Frame.inner (f : Frame) (outer name : String) : Val :=
  let v := (f.json.get? outer).bind (fun j => j.get? name)
  ⟨v, keyAt f.number (outer ++ "." ++ name) v⟩

mutual

/-- Does `String(v)` return?  An object with a `toString` property of its own has no text. -/
def convertible : Json → Bool
  | .arr xs => convertibleAll xs
  | .obj kvs => kvs.all (fun p => p.1 ≠ "toString")
  | _ => true

def convertibleAll : List Json → Bool
  | [] => true
  | x :: xs => convertible x && convertibleAll xs

end

/-- `${v}`. -/
def Val.text? (v : Val) : Option String :=
  if v.json.all convertible then some (jsString v.json) else none

/-! ## Signatures -/

def joinComma : List (List Char) → List Char
  | [] => []
  | [x] => x
  | x :: y :: rest => x ++ ',' :: joinComma (y :: rest)

mutual

def canonicalChars : Json → List Char
  | .arr xs => '[' :: joinComma (canonicalList xs) ++ [']']
  | .obj kvs => '\x7b' :: joinComma (((canonicalFields kvs).mergeSort
      (fun a b => decide (utf16Units a.1 ≤ utf16Units b.1))).map Prod.snd) ++ ['\x7d']
  | j => textChars j

def canonicalList : List Json → List (List Char)
  | [] => []
  | x :: xs => canonicalChars x :: canonicalList xs

/-- Each property with its text. -/
def canonicalFields : List (String × Json) → List (String × List Char)
  | [] => []
  | (k, v) :: kvs => (k, quoteChars k ++ ':' :: canonicalChars v) :: canonicalFields kvs

end

def canonicalize (j : Json) : String := String.ofList (canonicalChars j)

/-- The options of the server, its clock's texts, and the signatures of the platform: `keyOk` is whether
    `createPublicKey` takes a value, `verify` the check with a key it took. -/
structure Config where
  requirePairing : Bool
  staleMs : Nat
  isoTime : Nat → String
  keyOk : Option Json → Bool
  verify : Option Json → String → Option Json → Bool

/-- `verifyEnvelope`: `none` is a throw. -/
def verifyEnvelope (cfg : Config) (signingPublicKey : Option Json) (envelope : Json) : Option Bool :=
  let signature := envelope.get? "signature"
  if !(signature.any (fun s => s.isObj || s.isArr)) then some false
  else if (signature.bind (fun s => s.get? "alg")) ≠ some (.str "Ed25519") then some false
  else if !cfg.keyOk signingPublicKey then none
  else some (cfg.verify signingPublicKey
    (canonicalize (.obj (envelope.fields.filter (fun p => p.1 ≠ "signature"))))
    (signature.bind (fun s => s.get? "value")))

/-! ## Tables -/

structure Entry where
  node : List (String × Json)
  ws : Nat
  registeredAt : Nat
  lastHeartbeatAt : Nat

/-- The six tables of requests that wait for their answer. -/
inductive Pending where
  | reqs | stops | statuses | results | leases | approvals
deriving DecidableEq

/-- The cases of the handler; the first six are those of encrypted envelopes. -/
inductive Case where
  | encRunStart | encRunEvent | encStopRequest | encStopAck | encApproval | encApprovalAck | encOther
  | nodePairRequest | nodeRegister | nodeHeartbeat | nodeListRequest | runStreamSubscribe | runEvent
  | runReplay | terminalOpen | terminalInput | terminalOutput | sessionList | sessionKill
  | sessionListAck | sessionKillAck | runStart | runStartAck | runStopRequest | runStopAck
  | runStatusRequest | runStatusAck | runResultRequest | runResultAck | leaseRequest | revisionObserve
  | leaseAck | revisionAck | other
deriving DecidableEq

structure Relay where
  registry : List (Key × Entry)
  conns : List Nat
  pending : Pending → List (Key × Nat)
  runOwnership : List (Key × Val)
  subscribers : List (Key × List Nat)
  replayRefs : List (Key × Nat × Val)
  replaySeq : Nat
  terminalSubscribers : List (Key × List Nat)
  pairedIdentities : List (Key × Json)
  /-- The `nodeId` of each connection's closure. -/
  nodeIds : Nat → Val
  frames : Nat
  sockets : Nat
  down : Bool
  /-- The socket of the last accepted registration of each id. -/
  registered : List (Key × Nat)
  requests : List (Key × Case × Nat)
  forwards : List (Key × Case × Nat)
  sent : List (Nat × Json)

namespace Relay

def initial : Relay :=
  ⟨[], [], fun _ => [], [], [], [], 0, [], [], fun _ => Val.null, 0, 0, false, [], [], [], []⟩

/-- `sendMsg`: only to an open socket. -/
def sendMsg (s : Relay) (ws : Nat) (msg : Json) : Relay :=
  if ws ∈ s.conns then { s with sent := s.sent ++ [(ws, msg)] } else s

def setPending (s : Relay) (t : Pending) (k : Key) (ws : Nat) : Relay :=
  { s with pending := Function.update s.pending t (set (s.pending t) k ws) }

def dropPending (s : Relay) (t : Pending) (k : Key) : Relay :=
  { s with pending := Function.update s.pending t (delete (s.pending t) k) }

end Relay

/-! ## The relay's own messages -/

/-- A plaintext envelope of the relay; a property with no value is left out. -/
def fromRelay (cfg : Config) (now : Nat) (dest : Option Json) (fields : List (String × Option Json)) : Json :=
  .obj ([("version", some (.num (.ofInt 1))), ("kind", some (.str "plaintext")),
    ("from", some (.str "relay")), ("to", dest), ("ts", some (.str (cfg.isoTime now)))] ++ fields
    |>.filterMap (fun p => p.2.map (fun v => (p.1, v))))

def textField (name value : String) : String × Option Json := (name, some (.str value))
def okField (b : Bool) : String × Option Json := ("ok", some (.bool b))

/-! ## Handlers -/

/-- A handler returns, or throws with what it has written so far. -/
inductive Outcome where
  | returned (s : Relay)
  | threw (s : Relay)

def Outcome.relay : Outcome → Relay
  | .returned s | .threw s => s

/-- A reply whose text may not exist. -/
def Relay.refuse (s : Relay) (t : Pending) (k : Key) (ws : Nat) (about : Val) (reply : String → Json) :
    Outcome :=
  match about.text? with
  | none => .threw s
  | some text => .returned ((s.sendMsg ws (reply text)).dropPending t k)

/-- A request that names its node. -/
def Relay.requestNode (s : Relay) (t : Pending) (ws : Nat) (f : Frame) (c : Case) (target : String)
    (reply : String → Json) : Outcome :=
  let k := (f.val "req_id").key
  let s := { s.setPending t k ws with requests := s.requests ++ [(k, c, ws)] }
  match get s.registry (f.val target).key with
  | none => s.refuse t k ws (f.val target) reply
  | some e => .returned (s.sendMsg e.ws f.json)

/-- The owner of the run a frame names: its id, or `undefined`. -/
def Relay.owner (s : Relay) (f : Frame) : Val :=
  (get s.runOwnership (f.val "run_id").key).getD ⟨none, .undefined⟩

/-- A request that goes to the owner of a run. -/
def Relay.requestOwner (s : Relay) (t : Pending) (ws : Nat) (f : Frame) (c : Case)
    (reply : String → String → Json) : Outcome :=
  let k := (f.val "req_id").key
  let s := { s.setPending t k ws with requests := s.requests ++ [(k, c, ws)] }
  if !(s.owner f).truthy then
    s.refuse t k ws (f.val "run_id") (fun text => reply ("Run not found in relay: " ++ text) "run_not_found")
  else match get s.registry (s.owner f).key with
    | none => s.refuse t k ws (s.owner f) (fun text => reply ("Owning node is offline: " ++ text) "node_offline")
    | some e => .returned (s.sendMsg e.ws f.json)

/-- An answer goes to the socket that waits for it, once. -/
def Relay.answer (s : Relay) (t : Pending) (f : Frame) (c : Case) : Relay :=
  let k := (f.val "req_id").key
  match get (s.pending t) k with
  | none => s
  | some ws => { (s.sendMsg ws f.json).dropPending t k with forwards := s.forwards ++ [(k, c, ws)] }

/-- A frame for every subscriber. -/
def Relay.fanOut (s : Relay) (subs : List Nat) (msg : Json) : Relay :=
  subs.foldl (fun s ws => s.sendMsg ws msg) s

/-- `Set.add`. -/
def addSocket (subs : List Nat) (ws : Nat) : List Nat := if ws ∈ subs then subs else subs ++ [ws]

def subscribed (m : List (Key × List Nat)) (k : Key) (ws : Nat) : List (Key × List Nat) :=
  set m k (addSocket ((get m k).getD []) ws)

/-- A digit of a number in base 36. -/
def digit36 (d : Nat) : Char := Char.ofNat (if d < 10 then 48 + d else 87 + d)

/-- The digits of a number, the last one first taken off; the fuel is a bound of their count. -/
def digits36 : Nat → Nat → List Char
  | 0, n => [digit36 (n % 36)]
  | fuel + 1, n => if n < 36 then [digit36 n] else digits36 fuel (n / 36) ++ [digit36 (n % 36)]

/-- `n.toString(36)`. -/
def base36 (n : Nat) : String := String.ofList (digits36 n n)

example : base36 46655 = "zzz" := by decide +kernel

/-- `{ ...v }`. -/
def spread : Json → List (String × Json)
  | .obj kvs => kvs
  | .arr xs => xs.zipIdx.map (fun p => (toString p.2, p.1))
  | .str s => s.toList.zipIdx.map (fun p => (toString p.2, .str (String.singleton p.1)))
  | _ => []

/-- `identity.id` is read first, so an identity that is not there throws. -/
def Relay.pairRequest (cfg : Config) (s : Relay) (ws now : Nat) (f : Frame) : Outcome :=
  match f.json.get? "identity" with
  | none | some .null => .threw s
  | some identity =>
    let pid := f.inner "identity" "id"
    .returned ({ s with pairedIdentities := set s.pairedIdentities pid.key identity }.sendMsg ws
      (fromRelay cfg now (f.json.get? "from")
        [textField "type" "node_pair_ack", ("node_id", pid.json), okField true]))

/-- Whether `--require-pairing` lets a frame register: `none` is a throw. -/
def Relay.admits (cfg : Config) (s : Relay) (f : Frame) : Option Bool :=
  if !cfg.requirePairing then some true
  else match (get s.pairedIdentities (f.inner "node" "node_id").key).filter truthy with
    | none => some false
    | some identity =>
      if !(f.val "signature").truthy then some false
      else verifyEnvelope cfg (identity.get? "signing_public_key") f.json

def registerAck (cfg : Config) (now : Nat) (dest nodeId : Option Json) (ok : Bool) : Json :=
  fromRelay cfg now dest [textField "type" "node_register_ack", ("node_id", nodeId), okField ok]

/-- The socket's remembered id is written before the checks, and forgotten when they fail. -/
def Relay.register (cfg : Config) (s : Relay) (ws now : Nat) (f : Frame) : Outcome :=
  match f.json.get? "node" with
  | none | some .null => .threw s
  | some node =>
    let id := f.inner "node" "node_id"
    match s.admits cfg f with
    | none => .threw { s with nodeIds := Function.update s.nodeIds ws id }
    | some false => .returned ({ s with nodeIds := Function.update s.nodeIds ws Val.null }.sendMsg ws
        (registerAck cfg now (f.json.get? "from") id.json false))
    | some true => .returned ({ s with
        nodeIds := Function.update s.nodeIds ws id
        registry := set s.registry id.key
          ⟨setProp (spread node) "transport" (.str "relay"), ws, now, now⟩
        registered := set s.registered id.key ws }.sendMsg ws
        (registerAck cfg now id.json id.json true))

/-- `obj[name] = v`; an absent value is left out of what is sent. -/
def putField (kvs : List (String × Json)) (name : String) : Option Json → List (String × Json)
  | none => kvs.filter (fun p => p.1 ≠ name)
  | some v => setProp kvs name v

def Relay.heartbeat (cfg : Config) (s : Relay) (ws now : Nat) (f : Frame) : Relay :=
  let id := f.val "node_id"
  let s := match get s.registry id.key with
    | none => s
    | some e => { s with registry := set s.registry id.key { e with
        lastHeartbeatAt := now
        node := putField e.node "active_runs" (f.json.get? "active_runs") } }
  s.sendMsg ws (fromRelay cfg now id.json [textField "type" "node_heartbeat_ack", ("node_id", id.json)])

def Relay.listNodes (cfg : Config) (s : Relay) (ws now : Nat) (f : Frame) : Relay :=
  s.sendMsg ws (fromRelay cfg now (f.json.get? "from") [textField "type" "node_list_response",
    ("nodes", some (.arr (s.registry.map (fun p => .obj (setProp p.2.node "status"
      (.str (if now - p.2.lastHeartbeatAt < cfg.staleMs then "online" else "offline")))))))])

/-- With a cursor and an owner that is online, the subscriber is served from the owner's journal; else
    from what is fanned out. -/
def Relay.subscribe (cfg : Config) (s : Relay) (ws now : Nat) (f : Frame) : Relay :=
  let run := f.val "run_id"
  let ack := fromRelay cfg now (f.json.get? "from")
    [textField "type" "run_stream_subscribe_ack", ("run_id", run.json), okField true]
  let owner := s.owner f
  match f.json.get? "after_sequence", (if owner.truthy then get s.registry owner.key else none) with
  | some after, some e =>
    let ref := "sr_" ++ base36 now ++ "_" ++ base36 s.replaySeq
    ({ s with
      replaySeq := s.replaySeq + 1
      replayRefs := set s.replayRefs (.str ref) (ws, run) }.sendMsg ws ack).sendMsg e.ws
      (fromRelay cfg now owner.json [textField "type" "run_replay_open", ("run_id", run.json),
        ("after_sequence", some after), textField "subscriber_ref" ref])
  | _, _ => { s with subscribers := subscribed s.subscribers run.key ws }.sendMsg ws ack

def Relay.replay (s : Relay) (f : Frame) : Relay :=
  match get s.replayRefs (f.val "subscriber_ref").key with
  | none => s
  | some ref => s.sendMsg ref.1 f.json

def Relay.openTerminal (cfg : Config) (s : Relay) (ws now : Nat) (f : Frame) : Outcome :=
  let session := f.val "session_id"
  let s := { s with terminalSubscribers := subscribed s.terminalSubscribers session.key ws }
  match get s.registry (f.val "to").key with
  | some e => .returned (s.sendMsg e.ws f.json)
  | none =>
    match (f.val "to").text? with
    | none => .threw s
    | some dest => .returned (s.sendMsg ws (fromRelay cfg now (f.json.get? "from")
        [textField "type" "terminal_error", ("session_id", session.json),
          textField "code" "node_offline", textField "message" ("Node not found: " ++ dest)]))

/-- `msg.type ?? 'unknown'`. -/
def Frame.typeName (f : Frame) : Val :=
  match f.json.get? "type" with
  | none | some .null => ⟨some (.str "unknown"), .str "unknown"⟩
  | some _ => f.val "type"

/-- Any other frame with a request id is told that nothing handles it. -/
def Relay.unsupported (cfg : Config) (s : Relay) (ws now : Nat) (f : Frame) : Outcome :=
  match f.json.get? "req_id" with
  | some (.str reqId) =>
    if reqId = "" then .returned s
    else
      let dest : Json := match f.json.get? "from" with
        | none | some .null => .str "cli"
        | some v => v
      match f.typeName.text? with
      | none => .threw s
      | some text => .returned (s.sendMsg ws (fromRelay cfg now (some dest)
          [textField "type" "relay_error", textField "req_id" reqId, okField false,
            textField "error" ("unsupported request type: " ++ text), textField "code" "unsupported_request"]))
  | _ => .returned s

/-- `runOwnership.set(msg.record.run_id, msg.from)` on a successful start. -/
def Relay.recordOwner (s : Relay) (f : Frame) : Relay :=
  if (f.val "ok").truthy && (f.val "record").truthy then
    { s with runOwnership := set s.runOwnership (f.inner "record" "run_id").key (f.val "from") }
  else s

/-! ## Cases -/

def encryptedCases : List (String × Case) :=
  [("run_start", .encRunStart), ("encrypted_run_event", .encRunEvent),
    ("encrypted_run_stop_request", .encStopRequest), ("encrypted_run_stop_ack", .encStopAck),
    ("encrypted_approval_response", .encApproval), ("encrypted_approval_response_ack", .encApprovalAck)]

def plaintextCases : List (String × Case) :=
  [("node_pair_request", .nodePairRequest), ("node_register", .nodeRegister),
    ("node_heartbeat", .nodeHeartbeat), ("node_list_request", .nodeListRequest),
    ("run_stream_subscribe", .runStreamSubscribe), ("run_event", .runEvent),
    ("run_replay_meta", .runReplay), ("run_replay_event", .runReplay),
    ("terminal_open", .terminalOpen), ("terminal_input", .terminalInput),
    ("terminal_resize", .terminalInput), ("terminal_close", .terminalInput),
    ("terminal_open_ack", .terminalOutput), ("terminal_output", .terminalOutput),
    ("terminal_error", .terminalOutput), ("terminal_session_list", .sessionList),
    ("terminal_session_kill", .sessionKill), ("terminal_session_list_ack", .sessionListAck),
    ("terminal_session_kill_ack", .sessionKillAck), ("run_start", .runStart),
    ("run_start_ack", .runStartAck), ("run_stop_request", .runStopRequest),
    ("run_stop_ack", .runStopAck), ("run_status_request", .runStatusRequest),
    ("run_status_ack", .runStatusAck), ("run_result_request", .runResultRequest),
    ("run_result_ack", .runResultAck), ("workspace_lease_acquire", .leaseRequest),
    ("workspace_lease_get", .leaseRequest), ("workspace_lease_release", .leaseRequest),
    ("workspace_revision_observe", .revisionObserve), ("workspace_lease_ack", .leaseAck),
    ("workspace_revision_ack", .revisionAck)]

def Frame.case (f : Frame) : Case :=
  let type := (f.json.get? "type").bind Json.str?
  if f.json.get? "kind" = some (.str "encrypted") then
    (type.bind (lookup encryptedCases)).getD .encOther
  else (type.bind (lookup plaintextCases)).getD .other

/-- What a refused request is answered with. -/
def ackReply (cfg : Config) (now : Nat) (f : Frame) (type : String) (fields : List (String × Option Json)) : Json :=
  fromRelay cfg now (f.json.get? "from")
    ([textField "type" type, ("req_id", f.json.get? "req_id")] ++ fields)

/-- The refusal of a request about a run. -/
def runReply (cfg : Config) (now : Nat) (f : Frame) (type error code : String) : Json :=
  ackReply cfg now f type
    [("run_id", f.json.get? "run_id"), okField false, textField "error" error, textField "code" code]

def errorReply (cfg : Config) (now : Nat) (f : Frame) (message code : String) : Json :=
  fromRelay cfg now (f.json.get? "from")
    [textField "type" "relay_error", textField "code" code, textField "message" message]

/-- The message handler on a frame that parsed and is not `null`. -/
def Relay.dispatch (cfg : Config) (s : Relay) (ws now : Nat) (f : Frame) : Outcome :=
  match f.case with
  | .encRunStart => s.requestNode .reqs ws f .encRunStart "to" (fun dest => ackReply cfg now f "run_start_ack"
      [okField false, textField "error" ("Node not found: " ++ dest), textField "code" "node_not_found"])
  | .encRunEvent => .returned (s.fanOut ((get s.subscribers (f.val "run_id").key).getD []) f.json)
  | .encStopRequest => s.requestOwner .stops ws f .encStopRequest (runReply cfg now f "run_stop_ack")
  | .encStopAck => .returned (s.answer .stops f .encStopAck)
  | .encApproval => s.requestOwner .approvals ws f .encApproval (errorReply cfg now f)
  | .encApprovalAck => .returned (s.answer .approvals f .encApprovalAck)
  | .encOther => .returned s
  | .nodePairRequest => s.pairRequest cfg ws now f
  | .nodeRegister => s.register cfg ws now f
  | .nodeHeartbeat => .returned (s.heartbeat cfg ws now f)
  | .nodeListRequest => .returned (s.listNodes cfg ws now f)
  | .runStreamSubscribe => .returned (s.subscribe cfg ws now f)
  | .runEvent => .returned (s.fanOut ((get s.subscribers (f.val "run_id").key).getD []) f.json)
  | .runReplay => .returned (s.replay f)
  | .terminalOpen => s.openTerminal cfg ws now f
  | .terminalInput =>
    match get s.registry (f.val "to").key with
    | none => .returned s
    | some e => .returned (s.sendMsg e.ws f.json)
  | .terminalOutput =>
    .returned (s.fanOut ((get s.terminalSubscribers (f.val "session_id").key).getD []) f.json)
  | .sessionList => s.requestNode .reqs ws f .sessionList "to" (fun dest =>
    ackReply cfg now f "terminal_session_list_ack" [okField false, ("sessions", some (.arr [])),
      textField "code" "node_offline", textField "message" ("Node not found: " ++ dest)])
  | .sessionKill => s.requestNode .reqs ws f .sessionKill "to" (fun dest =>
    ackReply cfg now f "terminal_session_kill_ack" [okField false,
      textField "code" "node_offline", textField "message" ("Node not found: " ++ dest)])
  | .sessionListAck => .returned (s.answer .reqs f .sessionListAck)
  | .sessionKillAck => .returned (s.answer .reqs f .sessionKillAck)
  | .runStart => s.requestNode .reqs ws f .runStart "to" (fun dest => ackReply cfg now f "run_start_ack"
      [okField false, textField "error" ("Node not found: " ++ dest), textField "code" "node_not_found"])
  | .runStartAck => .returned ((s.answer .reqs f .runStartAck).recordOwner f)
  | .runStopRequest => s.requestOwner .stops ws f .runStopRequest (runReply cfg now f "run_stop_ack")
  | .runStopAck => .returned (s.answer .stops f .runStopAck)
  | .runStatusRequest => s.requestOwner .statuses ws f .runStatusRequest (runReply cfg now f "run_status_ack")
  | .runStatusAck => .returned (s.answer .statuses f .runStatusAck)
  | .runResultRequest => s.requestOwner .results ws f .runResultRequest (runReply cfg now f "run_result_ack")
  | .runResultAck => .returned (s.answer .results f .runResultAck)
  | .leaseRequest => s.requestNode .leases ws f .leaseRequest "node_id" (fun id =>
    ackReply cfg now f "workspace_lease_ack" [okField false,
      textField "error" ("node offline or unknown: " ++ id), textField "code" "workspace_lease_unavailable"])
  | .revisionObserve => s.requestNode .leases ws f .revisionObserve "node_id" (fun id =>
    ackReply cfg now f "workspace_revision_ack" [okField false,
      textField "error" ("node offline or unknown: " ++ id), textField "code" "workspace_revision_unavailable"])
  | .leaseAck => .returned (s.answer .leases f .leaseAck)
  | .revisionAck => .returned (s.answer .leases f .revisionAck)
  | .other => s.unsupported cfg ws now f

/-- The message handler.  A frame that does not parse is dropped; `null` has no `kind` to read. -/
def Relay.handle (cfg : Config) (s : Relay) (ws now : Nat) : Option Json → Outcome
  | none => .returned s
  | some .null => .threw s
  | some j => { s with frames := s.frames + 1 }.dispatch cfg ws now ⟨s.frames, j⟩

/-! ## Closing a socket -/

def dropSocket (m : List (Key × List Nat)) (ws : Nat) : List (Key × List Nat) :=
  (m.map (fun p => (p.1, p.2.filter (fun w => w ≠ ws)))).filter (fun p => p.2 ≠ [])

/-- A replay subscriber that is gone: its owner, if online, is told. -/
def Relay.closeRef (cfg : Config) (now : Nat) (s : Relay) (ref : Key × Nat × Val) : Relay :=
  let owner := (get s.runOwnership ref.2.2.key).getD ⟨none, .undefined⟩
  let s' := match (if owner.truthy then get s.registry owner.key else none) with
    | none => s
    | some e => s.sendMsg e.ws (fromRelay cfg now owner.json [textField "type" "run_replay_close",
        ("run_id", ref.2.2.json),
        ("subscriber_ref", match ref.1 with | .str r => some (.str r) | _ => none)])
  { s' with replayRefs := delete s'.replayRefs ref.1 }

def Relay.close (cfg : Config) (s : Relay) (ws now : Nat) : Relay :=
  let id := s.nodeIds ws
  let s : Relay := { s with
    conns := s.conns.filter (fun w => w ≠ ws)
    registry := if id.truthy && (get s.registry id.key).any (fun e : Entry => e.ws = ws)
      then delete s.registry id.key else s.registry
    pending := fun t => (s.pending t).filter (fun p => p.2 ≠ ws)
    subscribers := dropSocket s.subscribers ws }
  let s := (s.replayRefs.filter (fun r => r.2.1 = ws)).foldl (Relay.closeRef cfg now) s
  { s with terminalSubscribers := dropSocket s.terminalSubscribers ws }

/-! ## Runs -/

inductive Event where
  | connect
  | message (ws now : Nat) (frame : Option Json)
  | close (ws now : Nat)

/-- A throw in the handler ends the process. -/
def Relay.step (cfg : Config) (s : Relay) (e : Event) : Relay :=
  if s.down then s
  else match e with
    | .connect => { s with conns := s.conns ++ [s.sockets], sockets := s.sockets + 1 }
    | .message ws now frame =>
      if ws ∈ s.conns then
        match s.handle cfg ws now frame with
        | .returned s' => s'
        | .threw s' => { s' with down := true }
      else s
    | .close ws now => if ws ∈ s.conns then s.close cfg ws now else s

/-- A frame as it reaches the cases: counted, and with its number. -/
def Relay.received (s : Relay) (cfg : Config) (ws now : Nat) (j : Json) : Outcome :=
  { s with frames := s.frames + 1 }.dispatch cfg ws now ⟨s.frames, j⟩

theorem step_message {cfg : Config} {s s' : Relay} {ws now : Nat} {j : Json} (hd : s.down = false)
    (hws : ws ∈ s.conns) (hj : j ≠ .null) (ho : s.received cfg ws now j = .returned s') :
    s.step cfg (.message ws now (some j)) = s' := by
  have hh : s.handle cfg ws now (some j) = s.received cfg ws now j := by
    cases j with
    | null => exact absurd rfl hj
    | _ => rfl
  unfold Relay.step
  dsimp only
  rw [hd, if_neg Bool.false_ne_true, if_pos hws, hh, ho]

theorem step_close {cfg : Config} {s : Relay} {ws now : Nat} (hd : s.down = false) (hws : ws ∈ s.conns) :
    s.step cfg (.close ws now) = s.close cfg ws now := by
  unfold Relay.step
  dsimp only
  rw [hd, if_neg Bool.false_ne_true, if_pos hws]

/-- **What an event does**: nothing; a connection; a frame whose cases return or throw; `null`, which
    throws at once; a close. -/
theorem step_cases (cfg : Config) (s : Relay) (ev : Event) :
    s.step cfg ev = s ∨
    (s.down = false ∧ ev = .connect ∧
      s.step cfg ev = { s with conns := s.conns ++ [s.sockets], sockets := s.sockets + 1 }) ∨
    (∃ ws now j s', s.down = false ∧ ws ∈ s.conns ∧ ev = .message ws now (some j) ∧
      s.received cfg ws now j = .returned s' ∧ s.step cfg ev = s') ∨
    (∃ ws now j s', s.down = false ∧ ws ∈ s.conns ∧ ev = .message ws now (some j) ∧
      s.received cfg ws now j = .threw s' ∧ s.step cfg ev = { s' with down := true }) ∨
    (∃ ws now, s.down = false ∧ ws ∈ s.conns ∧ ev = .message ws now (some .null) ∧
      s.step cfg ev = { s with down := true }) ∨
    (∃ ws now, s.down = false ∧ ws ∈ s.conns ∧ ev = .close ws now ∧ s.step cfg ev = s.close cfg ws now) := by
  unfold Relay.step
  cases hdown : s.down with
  | true => exact Or.inl (if_pos rfl)
  | false =>
    rw [if_neg Bool.false_ne_true]
    cases ev with
    | connect => exact Or.inr (Or.inl ⟨rfl, rfl, rfl⟩)
    | message ws now frame =>
      by_cases hws : ws ∈ s.conns
      · dsimp only
        rw [if_pos hws]
        cases frame with
        | none => exact Or.inl rfl
        | some j =>
          by_cases hj : j = .null
          · subst hj
            exact Or.inr (Or.inr (Or.inr (Or.inr (Or.inl ⟨ws, now, rfl, hws, rfl, rfl⟩))))
          · have hh : s.handle cfg ws now (some j) = s.received cfg ws now j := by
              cases j with
              | null => exact absurd rfl hj
              | _ => rfl
            rw [hh]
            cases ho : s.received cfg ws now j with
            | returned s' => exact Or.inr (Or.inr (Or.inl ⟨ws, now, j, s', rfl, hws, rfl, ho, rfl⟩))
            | threw s' => exact Or.inr (Or.inr (Or.inr (Or.inl ⟨ws, now, j, s', rfl, hws, rfl, ho, rfl⟩)))
      · exact Or.inl (if_neg hws)
    | close ws now =>
      by_cases hws : ws ∈ s.conns
      · exact Or.inr (Or.inr (Or.inr (Or.inr (Or.inr ⟨ws, now, rfl, hws, rfl, if_pos hws⟩))))
      · exact Or.inl (if_neg hws)

end VibeRelayServer
