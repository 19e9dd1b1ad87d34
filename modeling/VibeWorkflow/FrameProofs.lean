import VibeWorkflow.RegistryProofs

/-!
# What a frame can do to the relay

A frame is parsed and taken for a protocol message.  Here is when the handler throws, and when a frame
that is no protocol message writes a table all the same.

* `messages` — the protocol's messages, by the fields their types declare;
* `Relay.NoThrow`, `Relay.NoWrite` — the two conditions, case by case;
* **`dispatch_returns_iff`**, **`dispatch_same_iff`** — that they are exact;
* **`frame_harmless_iff`** — every frame, on every connection, in every state.
-/

namespace VibeRelayServer

open VibeJson VibeRunResult KeyedMap
open VibeAdmission (setProp)

/-! ## The protocol's messages -/

def isText : Json → Bool
  | .str _ => true
  | _ => false

def isNumber : Json → Bool
  | .num _ => true
  | _ => false

def isBool : Json → Bool
  | .bool _ => true
  | _ => false

def isTexts : Json → Bool
  | .arr xs => xs.all isText
  | _ => false

def isOneOf (values : List String) : Json → Bool
  | .str s => s ∈ values
  | _ => false

def orNull (check : Json → Bool) : Json → Bool
  | .null => true
  | j => check j

/-- A field of a message: its name, whether it must be there, and what it may hold. -/
abbrev Field := String × Bool × (Json → Bool)

def need (check : Json → Bool) (name : String) : Field := (name, true, check)
def may (check : Json → Bool) (name : String) : Field := (name, false, check)

def hasFields (fields : List Field) (j : Json) : Bool :=
  j.isObj && fields.all (fun f => match j.get? f.1 with
    | none => !f.2.1
    | some v => f.2.2 v)

def isOne (j : Json) : Bool := decide (j = .num (JsNum.ofInt 1))

def envelopeSignature : Json → Bool :=
  hasFields [need (isOneOf ["Ed25519"]) "alg", need isText "key_id", need isText "value"]

def publicIdentity : Json → Bool :=
  hasFields ([need isOne "version", need (isOneOf ["node", "client", "relay"]) "kind",
    need (isOneOf ["Ed25519"]) "signing_alg", need (isOneOf ["X25519"]) "encryption_alg"] ++
    ["id", "display_name", "signing_public_key", "encryption_public_key", "fingerprint"].map (need isText))

def vibeNode : Json → Bool :=
  hasFields ([need (isOneOf ["online", "offline"]) "status", need (isOneOf ["local", "relay"]) "transport",
    need isNumber "active_runs", need isNumber "max_runs", may isText "encryption_public_key"] ++
    ["node_id", "name", "created_at", "updated_at"].map (need isText) ++
    ["capabilities", "agents", "workspace_roots"].map (need isTexts))

/-- Nonce and ciphertext, as payloads carry them. -/
def sealedPayload : Json → Bool := hasFields (["nonce", "ciphertext"].map (need isText))

/-- Payloads the relay forwards unread are known to be objects only, and a run record to have an id. -/
def runRecord : Json → Bool := hasFields [need isText "run_id"]

def agentBackend : Json → Bool := isOneOf ["mock", "claude-code", "codex", "opencode"]

def outcome : List Field := [need isBool "ok", may isText "error", may isText "code"]

/-- The messages by `kind` and `type`, with the fields beyond the envelope's. -/
def messages : List ((String × String) × List Field) :=
  [(("encrypted", "run_start"),
      ["req_id", "key_id", "ephemeral_public_key", "nonce", "ciphertext"].map (need isText) ++
        [may envelopeSignature "signature"]),
    (("encrypted", "encrypted_run_event"), ["run_id", "key_id", "nonce", "ciphertext"].map (need isText)),
    (("encrypted", "encrypted_run_stop_request"),
      ["req_id", "run_id", "key_id", "nonce", "ciphertext"].map (need isText)),
    (("encrypted", "encrypted_run_stop_ack"), ["req_id", "run_id", "nonce", "ciphertext"].map (need isText)),
    (("encrypted", "encrypted_approval_response"),
      ["req_id", "run_id", "key_id", "nonce", "ciphertext"].map (need isText)),
    (("encrypted", "encrypted_approval_response_ack"),
      ["req_id", "run_id", "nonce", "ciphertext"].map (need isText)),
    (("plaintext", "node_pair_request"), [need publicIdentity "identity"]),
    (("plaintext", "node_pair_ack"), need isText "node_id" :: outcome),
    (("plaintext", "node_register"), [need vibeNode "node"]),
    (("plaintext", "node_heartbeat"),
      [need isText "node_id", need isNumber "active_runs", need isText "last_heartbeat_at"]),
    (("plaintext", "node_list_request"), []),
    (("plaintext", "run_stream_subscribe"), [need isText "run_id", may isNumber "after_sequence"]),
    (("plaintext", "run_start"), [need isText "req_id", need agentBackend "agent",
      may (isOneOf ["default", "unsafe-skip"]) "permission_mode", may Json.isObj "metadata",
      may isBool "workspace_write", may (hasFields [need isText "profile"]) "verify"] ++
      ["workspace_key", "repo_url", "branch", "prompt_content", "workspace_lease_id", "cwd"].map (may isText)),
    (("plaintext", "run_stop_request"), [need isText "req_id", need isText "run_id", may isText "reason"]),
    (("plaintext", "run_status_request"), [need isText "req_id", need isText "run_id"]),
    (("plaintext", "run_result_request"), [need isText "req_id", need isText "run_id"]),
    (("plaintext", "workspace_lease_acquire"), need (isOneOf ["exclusive"]) "mode" ::
      ["req_id", "node_id", "workflow_id", "workspace_key"].map (need isText)),
    (("plaintext", "workspace_lease_get"), ["req_id", "node_id", "workspace_lease_id"].map (need isText)),
    (("plaintext", "workspace_lease_release"), ["req_id", "node_id", "workspace_lease_id"].map (need isText)),
    (("plaintext", "workspace_revision_observe"), ["req_id", "node_id", "workspace_key"].map (need isText)),
    (("plaintext", "run_event"), [need isText "run_id", need Json.isObj "event", may isNumber "source_sequence"]),
    (("plaintext", "run_replay_open"),
      [need isText "run_id", need isNumber "after_sequence", need isText "subscriber_ref"]),
    (("plaintext", "run_replay_close"), [need isText "run_id", need isText "subscriber_ref"]),
    (("plaintext", "run_replay_meta"),
      [need isText "run_id", need isText "subscriber_ref", need (orNull Json.isObj) "metadata"]),
    (("plaintext", "run_replay_event"), [need isText "run_id", need isText "subscriber_ref",
      need isNumber "source_sequence", may Json.isObj "event", may sealedPayload "encrypted"]),
    (("plaintext", "node_register_ack"), [need isText "node_id", need isBool "ok"]),
    (("plaintext", "node_heartbeat_ack"), [need isText "node_id"]),
    (("plaintext", "node_list_response"), [need Json.isArr "nodes"]),
    (("plaintext", "run_start_ack"), need isText "req_id" :: may runRecord "record" :: outcome),
    (("plaintext", "run_stream_subscribe_ack"), [need isText "run_id", need isBool "ok"]),
    (("plaintext", "run_stop_ack"),
      need isText "req_id" :: need isText "run_id" :: may runRecord "record" :: outcome),
    (("plaintext", "run_status_ack"),
      need isText "req_id" :: need isText "run_id" :: may runRecord "record" :: outcome),
    (("plaintext", "run_result_ack"), [need isText "req_id", need isText "run_id", may isText "result_status",
      may sealedPayload "encrypted", may Json.isObj "result"] ++ outcome),
    (("plaintext", "workspace_lease_ack"),
      [need isText "req_id", may isBool "created", may Json.isObj "lease"] ++ outcome),
    (("plaintext", "workspace_revision_ack"), [need isText "req_id", may Json.isObj "revision"] ++ outcome),
    (("plaintext", "terminal_open"), ["req_id", "session_id", "session"].map (need isText) ++
      [may isBool "create", may isNumber "cols", may isNumber "rows"]),
    (("plaintext", "terminal_open_ack"), [need isText "req_id", need isText "session_id", need isBool "ok",
      may isText "message", may isText "code"]),
    (("plaintext", "terminal_input"), [need isText "session_id", need isText "data"]),
    (("plaintext", "terminal_output"), [need isText "session_id", need isText "data"]),
    (("plaintext", "terminal_resize"), [need isText "session_id", need isNumber "cols", need isNumber "rows"]),
    (("plaintext", "terminal_close"), [need isText "session_id"]),
    (("plaintext", "terminal_error"), ["session_id", "code", "message"].map (need isText)),
    (("plaintext", "terminal_session_list"), [need isText "req_id"]),
    (("plaintext", "terminal_session_list_ack"), [need isText "req_id", need isBool "ok", need isTexts "sessions",
      may isText "message", may isText "code"]),
    (("plaintext", "terminal_session_kill"), [need isText "req_id", need isText "session"]),
    (("plaintext", "terminal_session_kill_ack"), [need isText "req_id", need isBool "ok",
      may (isOneOf ["killed", "not_owned", "missing"]) "result", may isText "message", may isText "code"]),
    (("plaintext", "relay_error"), [need isText "code", need isText "message"])]

/-- The fields of every envelope. -/
def envelopeFields (kind : String) : List Field :=
  [need isOne "version", need isText "from", need isText "to", need isText "ts"] ++
    (if kind = "plaintext" then [may envelopeSignature "signature"] else [])

/-- A well-formed protocol message. -/
def wellFormed (j : Json) : Bool :=
  match (j.get? "kind").bind Json.str?, (j.get? "type").bind Json.str? with
  | some kind, some type =>
    match get messages (kind, type) with
    | none => false
    | some fields => hasFields (envelopeFields kind ++ fields) j
  | _, _ => false

variable {cfg : Config} {s s' : Relay} {ws now : Nat} {f : Frame}

/-! ## When a frame throws -/

/-- The refusal of a request whose node is offline has a text. -/
def Relay.NodeText (s : Relay) (f : Frame) (target : String) : Prop :=
  get s.registry (f.val target).key = none → (f.val target).json.all convertible = true

/-- The refusal of a request about a run has a text: the run's id is in it where nobody owns the run, the
    owner's where the owner is offline. -/
def Relay.OwnerText (s : Relay) (f : Frame) : Prop :=
  ((s.owner f).truthy = false → (f.val "run_id").json.all convertible = true) ∧
  ((s.owner f).truthy = true → get s.registry (s.owner f).key = none → (s.owner f).json.all convertible = true)

/-- The signature of a registration is checked with a key the platform does not take. -/
def Relay.BadKey (cfg : Config) (s : Relay) (f : Frame) : Prop :=
  cfg.requirePairing = true ∧ (f.val "signature").truthy = true ∧
  (∃ identity, get s.pairedIdentities (f.inner "node" "node_id").key = some identity ∧ truthy identity = true ∧
    cfg.keyOk (identity.get? "signing_public_key") = false) ∧
  ∃ signature, f.json.get? "signature" = some signature ∧ (signature.isObj || signature.isArr) = true ∧
    signature.get? "alg" = some (.str "Ed25519")

/-- An unknown type has a text, where the frame asks for an answer. -/
def Frame.TypeText (f : Frame) : Prop :=
  ∀ reqId type, f.json.get? "req_id" = some (.str reqId) → reqId ≠ "" → f.json.get? "type" = some type →
    convertible type = true

/-- **The frames the cases return on.** -/
def Relay.NoThrow (cfg : Config) (s : Relay) (f : Frame) : Prop :=
  match f.case with
  | .encRunStart | .runStart | .sessionList | .sessionKill | .terminalOpen => s.NodeText f "to"
  | .leaseRequest | .revisionObserve => s.NodeText f "node_id"
  | .encStopRequest | .encApproval | .runStopRequest | .runStatusRequest | .runResultRequest => s.OwnerText f
  | .nodePairRequest => f.Has "identity"
  | .nodeRegister => f.Has "node" ∧ ¬ s.BadKey cfg f
  | .other => f.TypeText
  | _ => True

/-- The cases returned. -/
def Outcome.Returns (o : Outcome) : Prop := ∃ s', o = .returned s'

theorem returned_returns (s : Relay) : (Outcome.returned s).Returns := ⟨s, rfl⟩

theorem not_threw_returns : ¬ (Outcome.threw s).Returns := fun ⟨_, h⟩ => nomatch h

theorem refuse_returns {t : Pending} {k : Key} {about : Val} {reply : String → Json} :
    (s.refuse t k ws about reply).Returns ↔ about.json.all convertible = true := by
  unfold Relay.refuse Val.text?
  by_cases h : about.json.all convertible = true
  · rw [if_pos h]
    exact ⟨fun _ => h, fun _ => returned_returns _⟩
  · rw [if_neg h]
    exact ⟨fun hr => absurd hr not_threw_returns, fun h' => absurd h' h⟩

/-- What a request does for a target that is registered, and for one that is not. -/
abbrev whenOnline (entry : Option Entry) (offline : Outcome) (online : Entry → Outcome) : Outcome :=
  match entry with
  | none => offline
  | some e => online e

/-- The same, for the one case that looks at a registered target first. -/
abbrev ifOnline (entry : Option Entry) (online : Entry → Outcome) (offline : Outcome) : Outcome :=
  match entry with
  | some e => online e
  | none => offline

theorem requestNode_returns {t : Pending} {c : Case} {target : String} {reply : String → Json} :
    (s.requestNode t ws f c target reply).Returns ↔ s.NodeText f target := by
  unfold Relay.requestNode Relay.NodeText
  show (whenOnline (get s.registry (f.val target).key) _ (fun e => _)).Returns ↔ _
  cases hget : get s.registry (f.val target).key with
  | none => exact refuse_returns.trans ⟨fun h _ => h, fun h => h rfl⟩
  | some e => exact ⟨(fun _ h => by cases h), fun _ => returned_returns _⟩

theorem requestOwner_returns {t : Pending} {c : Case} {reply : String → String → Json} :
    (s.requestOwner t ws f c reply).Returns ↔ s.OwnerText f := by
  unfold Relay.requestOwner Relay.OwnerText
  show (if (!(s.owner f).truthy) = true then _
    else whenOnline (get s.registry (s.owner f).key) _ (fun e => _)).Returns ↔ _
  cases ht : (s.owner f).truthy with
  | false =>
    rw [Bool.not_false, if_pos rfl]
    exact refuse_returns.trans ⟨fun h => ⟨fun _ => h, fun h => by cases h⟩, fun h => h.1 rfl⟩
  | true =>
    rw [Bool.not_true, if_neg Bool.false_ne_true]
    cases hget : get s.registry (s.owner f).key with
    | none =>
      exact refuse_returns.trans ⟨fun h => ⟨(fun h => by cases h), fun _ _ => h⟩, fun h => h.2 rfl rfl⟩
    | some e => exact ⟨fun _ => ⟨(fun h => by cases h), (fun _ h => by cases h)⟩, fun _ => returned_returns _⟩

theorem openTerminal_returns : (s.openTerminal cfg ws now f).Returns ↔ s.NodeText f "to" := by
  unfold Relay.openTerminal Relay.NodeText
  show (ifOnline (get s.registry (f.val "to").key) (fun e => _) _).Returns ↔ _
  cases hget : get s.registry (f.val "to").key with
  | some e => exact ⟨(fun _ h => by cases h), fun _ => returned_returns _⟩
  | none =>
    unfold Val.text?
    by_cases h : (f.val "to").json.all convertible = true
    · rw [if_pos h]
      exact ⟨fun _ _ => h, fun _ => returned_returns _⟩
    · rw [if_neg h]
      exact ⟨fun hr => absurd hr not_threw_returns, fun h' => absurd (h' rfl) h⟩

theorem pairRequest_returns : (s.pairRequest cfg ws now f).Returns ↔ f.Has "identity" := by
  unfold Relay.pairRequest Frame.Has
  split
  · rename_i h
    exact ⟨fun hr => absurd hr not_threw_returns, fun hh => absurd h hh.1⟩
  · rename_i h
    exact ⟨fun hr => absurd hr not_threw_returns, fun hh => absurd h hh.2⟩
  · rename_i identity hnull h
    refine ⟨fun _ => ⟨?_, ?_⟩, fun _ => returned_returns _⟩
    · rw [h]
      exact Option.some_ne_none _
    · rw [h]
      exact fun hn => hnull (Option.some.inj hn)

/-- A signature is checked with the key only when it is one of the right kind. -/
theorem verifyEnvelope_none_iff {key : Option Json} {envelope : Json} :
    verifyEnvelope cfg key envelope = none ↔ cfg.keyOk key = false ∧
      ∃ signature, envelope.get? "signature" = some signature ∧ (signature.isObj || signature.isArr) = true ∧
        signature.get? "alg" = some (.str "Ed25519") := by
  unfold verifyEnvelope
  dsimp only
  cases hs : envelope.get? "signature" with
  | none => exact ⟨(fun h => nomatch h), fun ⟨_, _, h, _⟩ => nomatch h⟩
  | some signature =>
    dsimp only [Option.any_some, Option.bind_some]
    by_cases hobj : (signature.isObj || signature.isArr) = true
    · rw [if_neg (by rw [hobj]; exact Bool.false_ne_true)]
      by_cases halg : signature.get? "alg" = some (.str "Ed25519")
      · rw [if_neg (not_not.mpr halg)]
        cases hkey : cfg.keyOk key with
        | false => exact ⟨fun _ => ⟨rfl, signature, rfl, hobj, halg⟩, fun _ => rfl⟩
        | true => exact ⟨(fun h => nomatch h), fun h => nomatch h.1⟩
      · rw [if_pos halg]
        refine ⟨(fun h => nomatch h), fun ⟨_, sig, hsig, _, h⟩ => ?_⟩
        cases hsig
        exact absurd h halg
    · rw [if_pos (by rw [Bool.eq_false_iff.mpr hobj]; rfl)]
      refine ⟨(fun h => nomatch h), fun ⟨_, sig, hsig, h, _⟩ => ?_⟩
      cases hsig
      exact absurd h hobj

/-- The checks of a registration throw exactly at a key the platform does not take. -/
theorem admits_none_iff : s.admits cfg f = none ↔ s.BadKey cfg f := by
  unfold Relay.admits Relay.BadKey
  cases hreq : cfg.requirePairing with
  | false => exact ⟨(fun h => nomatch h), (fun h => nomatch h.1)⟩
  | true =>
    rw [Bool.not_true, if_neg Bool.false_ne_true]
    cases hid : get s.pairedIdentities (f.inner "node" "node_id").key with
    | none => exact ⟨(fun h => nomatch h), fun ⟨_, _, ⟨_, h, _⟩, _⟩ => nomatch h⟩
    | some identity =>
      cases ht : truthy identity with
      | false =>
        rw [Option.filter_some_neg (by rw [ht])]
        refine ⟨(fun h => nomatch h), fun ⟨_, _, ⟨i, h, hti, _⟩, _⟩ => ?_⟩
        cases h
        exact absurd (ht.symm.trans hti) Bool.false_ne_true
      | true =>
        rw [Option.filter_some_pos ht]
        dsimp only
        cases hs : (f.val "signature").truthy with
        | false => exact ⟨(fun h => nomatch h), (fun h => nomatch h.2.1)⟩
        | true =>
          rw [Bool.not_true, if_neg Bool.false_ne_true, verifyEnvelope_none_iff]
          constructor
          · rintro ⟨hkey, hsig⟩
            exact ⟨rfl, rfl, ⟨identity, rfl, ht, hkey⟩, hsig⟩
          · rintro ⟨-, -, ⟨i, hi, -, hkey⟩, hsig⟩
            cases hi
            exact ⟨hkey, hsig⟩

theorem register_returns : (s.register cfg ws now f).Returns ↔ f.Has "node" ∧ ¬ s.BadKey cfg f := by
  by_cases hn : f.Has "node"
  · rcases register_cases hn with ⟨ha, hr⟩ | ⟨s', ha, hr, -⟩ | ⟨s', e, ha, hr, -, -⟩ <;> rw [hr]
    · exact ⟨fun h => absurd h not_threw_returns, fun h => absurd (admits_none_iff.mp ha) h.2⟩
    · refine ⟨fun _ => ⟨hn, fun hbad => ?_⟩, fun _ => returned_returns _⟩
      exact nomatch ha.symm.trans (admits_none_iff.mpr hbad)
    · refine ⟨fun _ => ⟨hn, fun hbad => ?_⟩, fun _ => returned_returns _⟩
      exact nomatch ha.symm.trans (admits_none_iff.mpr hbad)
  · rw [register_no_node hn]
    exact ⟨fun h => absurd h not_threw_returns, fun h => absurd h.1 hn⟩

theorem typeName_convertible :
    f.typeName.json.all convertible = true ↔ ∀ type, f.json.get? "type" = some type → convertible type = true := by
  unfold Frame.typeName
  split
  · rename_i h
    exact ⟨(fun _ _ ht => nomatch h.symm.trans ht), fun _ => rfl⟩
  · rename_i h
    refine ⟨fun _ type ht => ?_, fun _ => rfl⟩
    cases h.symm.trans ht
    rfl
  · rename_i type _ h
    show (f.json.get? "type").all convertible = true ↔ _
    rw [h]
    exact ⟨fun hc t ht => Option.some.inj ht ▸ hc, fun ht => ht type rfl⟩

theorem unsupported_returns : (s.unsupported cfg ws now f).Returns ↔ f.TypeText := by
  unfold Relay.unsupported Frame.TypeText
  split
  · rename_i reqId hreq
    by_cases hempty : reqId = ""
    · rw [if_pos hempty]
      refine ⟨fun _ r t hr hne _ => ?_, fun _ => returned_returns _⟩
      cases hreq.symm.trans hr
      exact absurd hempty hne
    · rw [if_neg hempty]
      unfold Val.text?
      by_cases hc : f.typeName.json.all convertible = true
      · rw [if_pos hc]
        exact ⟨fun _ _ t _ _ ht => typeName_convertible.mp hc t ht, fun _ => returned_returns _⟩
      · rw [if_neg hc]
        refine ⟨fun h => absurd h not_threw_returns, fun h => absurd (typeName_convertible.mpr fun t ht => ?_) hc⟩
        exact h reqId t hreq hempty ht
  · rename_i hno
    refine ⟨fun _ r t hr _ _ => absurd hr (hno r), fun _ => returned_returns _⟩

/-- **When the cases return.** -/
theorem dispatch_returns_iff : (s.dispatch cfg ws now f).Returns ↔ s.NoThrow cfg f := by
  unfold Relay.dispatch Relay.NoThrow
  split <;> rename_i hcase <;> rw [hcase]
  case h_8 => exact pairRequest_returns
  case h_9 => exact register_returns
  case h_15 => exact openTerminal_returns
  case h_16 =>
    refine ⟨fun _ => trivial, fun _ => ?_⟩
    split <;> exact returned_returns _
  case h_34 => exact unsupported_returns
  all_goals first
    | exact requestNode_returns
    | exact requestOwner_returns
    | exact ⟨fun _ => trivial, fun _ => returned_returns _⟩

/-! ## When a frame writes nothing -/

/-- Registry, waiting requests, ownership, subscriptions and pairings are the same. -/
structure SameTables (s s' : Relay) : Prop where
  registry : s'.registry = s.registry
  pending : s'.pending = s.pending
  runOwnership : s'.runOwnership = s.runOwnership
  subscribers : s'.subscribers = s.subscribers
  replayRefs : s'.replayRefs = s.replayRefs
  terminalSubscribers : s'.terminalSubscribers = s.terminalSubscribers
  pairedIdentities : s'.pairedIdentities = s.pairedIdentities

/-- A request for a node writes what is there: nothing where the node is offline, the socket where it is
    online. -/
def Relay.NodeWaits (s : Relay) (t : Pending) (ws : Nat) (f : Frame) (target : String) : Prop :=
  get (s.pending t) (f.val "req_id").key = (get s.registry (f.val target).key).map (fun _ => ws)

/-- The owner of a run, if it is online. -/
def Relay.ownerEntry (s : Relay) (f : Frame) : Option Entry :=
  if (s.owner f).truthy then get s.registry (s.owner f).key else none

def Relay.OwnerWaits (s : Relay) (t : Pending) (ws : Nat) (f : Frame) : Prop :=
  get (s.pending t) (f.val "req_id").key = (s.ownerEntry f).map (fun _ => ws)

/-- Nobody waits for an answer. -/
def Relay.NobodyWaits (s : Relay) (t : Pending) (f : Frame) : Prop :=
  get (s.pending t) (f.val "req_id").key = none

/-- A start that is recorded is recorded already. -/
def Relay.Owned (s : Relay) (f : Frame) : Prop :=
  (f.val "ok").truthy = true → (f.val "record").truthy = true →
    get s.runOwnership (f.inner "record" "run_id").key = some (f.val "from")

/-- A registration that is taken finds its entry there. -/
def Relay.Registered (cfg : Config) (s : Relay) (ws now : Nat) (f : Frame) : Prop :=
  s.admits cfg f = some true → ∀ node, f.json.get? "node" = some node →
    get s.registry (f.inner "node" "node_id").key =
      some ⟨setProp (spread node) "transport" (.str "relay"), ws, now, now⟩

/-- A heartbeat that finds an entry finds it renewed. -/
def Relay.Renewed (s : Relay) (now : Nat) (f : Frame) : Prop :=
  ∀ e, get s.registry (f.val "node_id").key = some e → e.lastHeartbeatAt = now ∧
    putField e.node "active_runs" (f.json.get? "active_runs") = e.node

/-- A subscription is there: the reference, where the run's journal is asked, or the socket. -/
def Relay.Subscribed (s : Relay) (ws now : Nat) (f : Frame) : Prop :=
  if (f.json.get? "after_sequence").isSome && (s.ownerEntry f).isSome then
    get s.replayRefs (.str ("sr_" ++ base36 now ++ "_" ++ base36 s.replaySeq)) = some (ws, f.val "run_id")
  else ws ∈ (get s.subscribers (f.val "run_id").key).getD []

/-- **The frames that write nothing.** -/
def Relay.NoWrite (cfg : Config) (s : Relay) (ws now : Nat) (f : Frame) : Prop :=
  match f.case with
  | .encRunStart | .runStart | .sessionList | .sessionKill => s.NodeWaits .reqs ws f "to"
  | .leaseRequest | .revisionObserve => s.NodeWaits .leases ws f "node_id"
  | .encStopRequest | .runStopRequest => s.OwnerWaits .stops ws f
  | .encApproval => s.OwnerWaits .approvals ws f
  | .runStatusRequest => s.OwnerWaits .statuses ws f
  | .runResultRequest => s.OwnerWaits .results ws f
  | .runStartAck => s.NobodyWaits .reqs f ∧ s.Owned f
  | .sessionListAck | .sessionKillAck => s.NobodyWaits .reqs f
  | .encStopAck | .runStopAck => s.NobodyWaits .stops f
  | .encApprovalAck => s.NobodyWaits .approvals f
  | .runStatusAck => s.NobodyWaits .statuses f
  | .runResultAck => s.NobodyWaits .results f
  | .leaseAck | .revisionAck => s.NobodyWaits .leases f
  | .nodePairRequest => get s.pairedIdentities (f.inner "identity" "id").key = f.json.get? "identity"
  | .nodeRegister => s.Registered cfg ws now f
  | .nodeHeartbeat => s.Renewed now f
  | .runStreamSubscribe => s.Subscribed ws now f
  | .terminalOpen => ws ∈ (get s.terminalSubscribers (f.val "session_id").key).getD []
  | _ => True

namespace SameTables

theorem refl (s : Relay) : SameTables s s := ⟨rfl, rfl, rfl, rfl, rfl, rfl, rfl⟩

theorem trans {s s' s'' : Relay} (h : SameTables s s') (h' : SameTables s' s'') : SameTables s s'' :=
  ⟨h'.registry.trans h.registry, h'.pending.trans h.pending, h'.runOwnership.trans h.runOwnership,
    h'.subscribers.trans h.subscribers, h'.replayRefs.trans h.replayRefs,
    h'.terminalSubscribers.trans h.terminalSubscribers, h'.pairedIdentities.trans h.pairedIdentities⟩

theorem symm (h : SameTables s s') : SameTables s' s :=
  ⟨h.registry.symm, h.pending.symm, h.runOwnership.symm, h.subscribers.symm, h.replayRefs.symm,
    h.terminalSubscribers.symm, h.pairedIdentities.symm⟩

/-- What is compared may be replaced by what has the same tables. -/
theorem right_iff {s s' s'' : Relay} (h : SameTables s' s'') : SameTables s s'' ↔ SameTables s s' :=
  ⟨fun h' => h'.trans h.symm, fun h' => h'.trans h⟩

theorem sendMsg (s : Relay) (ws : Nat) (msg : Json) : SameTables s (s.sendMsg ws msg) := by
  unfold Relay.sendMsg
  split
  · exact ⟨rfl, rfl, rfl, rfl, rfl, rfl, rfl⟩
  · exact refl s

theorem fanOut (s : Relay) (subs : List Nat) (msg : Json) : SameTables s (s.fanOut subs msg) := by
  induction subs generalizing s with
  | nil => exact refl s
  | cons ws subs ih => exact (sendMsg s ws msg).trans (ih _)

/-- A change of one waiting table. -/
theorem pending_iff {t : Pending} {m : List (Key × Nat)} {reqs fwds : List (Key × Case × Nat)} :
    SameTables s { s with
      pending := Function.update s.pending t m
      requests := reqs
      forwards := fwds } ↔ m = s.pending t := by
  constructor
  · intro h
    have hp : Function.update s.pending t m t = s.pending t := congrFun h.pending t
    rwa [Function.update_self] at hp
  · rintro rfl
    exact ⟨rfl, Function.update_eq_self t s.pending, rfl, rfl, rfl, rfl, rfl⟩

end SameTables

/-- A refused request leaves its id out of the table. -/
theorem refuse_same {t : Pending} {k : Key} {about : Val} {reply : String → Json} {c : Case}
    (h : ({ s.setPending t k ws with requests := s.requests ++ [(k, c, ws)] } : Relay).refuse t k ws about
      reply = .returned s') : SameTables s s' ↔ get (s.pending t) k = none := by
  unfold Relay.refuse at h
  split at h
  · cases h
  · cases h
    rename_i text _
    have hm := SameTables.sendMsg ({ s.setPending t k ws with requests := s.requests ++ [(k, c, ws)] } : Relay)
      ws (reply text)
    have hdrop : SameTables { s with pending := Function.update s.pending t (delete (s.pending t) k) }
        ((({ s.setPending t k ws with requests := s.requests ++ [(k, c, ws)] } : Relay).sendMsg ws
          (reply text)).dropPending t k) := by
      refine ⟨hm.registry, ?_, hm.runOwnership, hm.subscribers, hm.replayRefs, hm.terminalSubscribers,
        hm.pairedIdentities⟩
      show Function.update (Relay.sendMsg _ ws _).pending t (delete ((Relay.sendMsg _ ws _).pending t) k) = _
      rw [hm.pending]
      show Function.update (Function.update s.pending t (set (s.pending t) k ws)) t
        (delete (Function.update s.pending t (set (s.pending t) k ws) t) k) = _
      rw [Function.update_idem, Function.update_self, delete_set]
    rw [hdrop.right_iff, ← delete_eq_self_iff]
    exact SameTables.pending_iff

/-- A forwarded request leaves its socket in the table. -/
theorem waiting_same {t : Pending} {k : Key} {c : Case} {w : Nat} {msg : Json} :
    SameTables s (({ s.setPending t k ws with requests := s.requests ++ [(k, c, ws)] } : Relay).sendMsg w msg) ↔
      get (s.pending t) k = some ws := by
  rw [(SameTables.sendMsg _ w msg).right_iff, ← set_eq_self_iff]
  exact SameTables.pending_iff

theorem requestNode_same {t : Pending} {c : Case} {target : String} {reply : String → Json}
    (h : s.requestNode t ws f c target reply = .returned s') : SameTables s s' ↔ s.NodeWaits t ws f target := by
  unfold Relay.requestNode at h
  unfold Relay.NodeWaits
  dsimp only at h
  split at h
  · rename_i hget
    have hget : get s.registry (f.val target).key = none := hget
    rw [hget]
    exact refuse_same h
  · rename_i e hget
    have hget : get s.registry (f.val target).key = some e := hget
    rw [hget]
    cases h
    exact waiting_same

theorem requestOwner_same {t : Pending} {c : Case} {reply : String → String → Json}
    (h : s.requestOwner t ws f c reply = .returned s') : SameTables s s' ↔ s.OwnerWaits t ws f := by
  unfold Relay.requestOwner at h
  unfold Relay.OwnerWaits Relay.ownerEntry
  dsimp only at h
  split at h
  · rename_i ht
    have ht : (s.owner f).truthy = false := Bool.not_eq_true' _ ▸ ht
    rw [ht]
    exact refuse_same h
  · rename_i ht
    have ht : (s.owner f).truthy = true := by
      have hnot : ¬ (!(s.owner f).truthy) = true := ht
      simpa using hnot
    rw [ht]
    split at h
    · rename_i hget
      have hget : get s.registry (s.owner f).key = none := hget
      rw [if_pos rfl, hget]
      exact refuse_same h
    · rename_i e hget
      have hget : get s.registry (s.owner f).key = some e := hget
      rw [if_pos rfl, hget]
      cases h
      exact waiting_same

theorem answer_same {t : Pending} {c : Case} : SameTables s (s.answer t f c) ↔ s.NobodyWaits t f := by
  unfold Relay.answer Relay.NobodyWaits
  dsimp only
  cases hget : get (s.pending t) (f.val "req_id").key with
  | none => exact ⟨fun _ => rfl, fun _ => SameTables.refl s⟩
  | some w =>
    have hm := SameTables.sendMsg s w f.json
    have hdrop : SameTables
        { s with pending := Function.update s.pending t (delete (s.pending t) (f.val "req_id").key) }
        { (s.sendMsg w f.json).dropPending t (f.val "req_id").key with
          forwards := s.forwards ++ [((f.val "req_id").key, c, w)] } := by
      refine ⟨hm.registry, ?_, hm.runOwnership, hm.subscribers, hm.replayRefs, hm.terminalSubscribers,
        hm.pairedIdentities⟩
      show Function.update (s.sendMsg w f.json).pending t (delete ((s.sendMsg w f.json).pending t) _) = _
      rw [hm.pending]
    rw [hdrop.right_iff]
    constructor
    · intro h
      have hnone := delete_eq_self_iff.mp (SameTables.pending_iff.mp h)
      exact nomatch hget.symm.trans hnone
    · exact fun h => nomatch h

theorem answer_ownership {t : Pending} {c : Case} : (s.answer t f c).runOwnership = s.runOwnership := by
  unfold Relay.answer
  dsimp only
  split
  · rfl
  · exact (SameTables.sendMsg s _ f.json).runOwnership

/-- An answer and the ownership it records are both there, or one of them is written. -/
theorem startAck_same {c : Case} :
    SameTables s ((s.answer .reqs f c).recordOwner f) ↔ s.NobodyWaits .reqs f ∧ s.Owned f := by
  rw [← answer_same (c := c)]
  unfold Relay.recordOwner Relay.Owned
  by_cases hrec : ((f.val "ok").truthy && (f.val "record").truthy) = true
  · rw [if_pos hrec]
    obtain ⟨hok, hrecord⟩ := Bool.and_eq_true_iff.mp hrec
    constructor
    · intro h
      refine ⟨⟨h.registry, h.pending, answer_ownership, h.subscribers, h.replayRefs, h.terminalSubscribers,
        h.pairedIdentities⟩, fun _ _ => ?_⟩
      have hset := h.runOwnership
      dsimp only at hset
      rw [answer_ownership] at hset
      exact set_eq_self_iff.mp hset
    · rintro ⟨h, howned⟩
      refine ⟨h.registry, h.pending, ?_, h.subscribers, h.replayRefs, h.terminalSubscribers, h.pairedIdentities⟩
      dsimp only
      rw [answer_ownership]
      exact set_eq_self_iff.mpr (howned hok hrecord)
  · rw [if_neg hrec]
    refine ⟨fun h => ⟨h, fun hok hrecord => absurd ?_ hrec⟩, fun h => h.1⟩
    rw [hok, hrecord]
    rfl

theorem pairRequest_same (h : s.pairRequest cfg ws now f = .returned s') :
    SameTables s s' ↔ get s.pairedIdentities (f.inner "identity" "id").key = f.json.get? "identity" := by
  unfold Relay.pairRequest at h
  split at h
  · cases h
  · cases h
  · rename_i identity _ hi
    cases h
    rw [(SameTables.sendMsg _ _ _).right_iff, hi, ← set_eq_self_iff]
    exact ⟨fun h => h.pairedIdentities, fun h => ⟨rfl, rfl, rfl, rfl, rfl, rfl, h⟩⟩

theorem register_same (h : s.register cfg ws now f = .returned s') :
    SameTables s s' ↔ s.Registered cfg ws now f := by
  unfold Relay.register at h
  unfold Relay.Registered
  split at h
  · cases h
  · cases h
  · rename_i node _ hnode
    dsimp only at h
    split at h
    · cases h
    · rename_i ha
      cases h
      rw [(SameTables.sendMsg _ _ _).right_iff, ha]
      exact ⟨(fun _ h => by cases h), fun _ => ⟨rfl, rfl, rfl, rfl, rfl, rfl, rfl⟩⟩
    · rename_i ha
      cases h
      rw [(SameTables.sendMsg _ _ _).right_iff, ha, hnode]
      constructor
      · intro h _ n hn
        cases hn
        exact set_eq_self_iff.mp h.registry
      · intro h
        exact ⟨set_eq_self_iff.mpr (h rfl node rfl), rfl, rfl, rfl, rfl, rfl, rfl⟩

theorem heartbeat_same : SameTables s (s.heartbeat cfg ws now f) ↔ s.Renewed now f := by
  unfold Relay.heartbeat Relay.Renewed
  dsimp only
  rw [(SameTables.sendMsg _ _ _).right_iff]
  split
  · rename_i hget
    exact ⟨(fun _ e he => by cases hget.symm.trans he), fun _ => SameTables.refl s⟩
  · rename_i e hget
    constructor
    · intro h e' he'
      cases hget.symm.trans he'
      have hsame := set_eq_self_iff.mp h.registry
      have heq := Option.some.inj (hget.symm.trans hsame)
      exact ⟨congrArg Entry.lastHeartbeatAt heq, (congrArg Entry.node heq).symm⟩
    · intro h
      obtain ⟨hbeat, hnode⟩ := h e hget
      refine ⟨set_eq_self_iff.mpr ?_, rfl, rfl, rfl, rfl, rfl, rfl⟩
      rw [hget, hnode, ← hbeat]

/-- Subscribing changes nothing for a socket that is subscribed. -/
theorem subscribed_same {m : List (Key × List Nat)} {k : Key} :
    subscribed m k ws = m ↔ ws ∈ (get m k).getD [] := by
  unfold subscribed addSocket
  rw [set_eq_self_iff]
  cases hget : get m k with
  | none => simp
  | some subs =>
    show some subs = some (if ws ∈ subs then subs else subs ++ [ws]) ↔ ws ∈ subs
    by_cases hws : ws ∈ subs
    · rw [if_pos hws]
      exact ⟨fun _ => hws, fun _ => rfl⟩
    · rw [if_neg hws]
      refine ⟨fun h => ?_, fun h => absurd h hws⟩
      have hlen := congrArg List.length (Option.some.inj h)
      rw [List.length_append, List.length_singleton] at hlen
      omega

theorem subscribe_same : SameTables s (s.subscribe cfg ws now f) ↔ s.Subscribed ws now f := by
  have hlive : ∀ msg, SameTables s (({ s with
      subscribers := subscribed s.subscribers (f.val "run_id").key ws } : Relay).sendMsg ws msg) ↔
      ws ∈ (get s.subscribers (f.val "run_id").key).getD [] := by
    intro msg
    rw [(SameTables.sendMsg _ ws msg).right_iff, ← subscribed_same]
    exact ⟨fun h => h.subscribers, fun h => ⟨rfl, rfl, rfl, h, rfl, rfl, rfl⟩⟩
  unfold Relay.subscribe Relay.Subscribed Relay.ownerEntry
  dsimp only
  generalize (if (s.owner f).truthy = true then get s.registry (s.owner f).key else none) = owner
  cases f.json.get? "after_sequence" with
  | none => exact hlive _
  | some after =>
    cases owner with
    | none => exact hlive _
    | some e =>
      rw [(SameTables.sendMsg _ _ _).right_iff, (SameTables.sendMsg _ _ _).right_iff]
      show _ ↔ get s.replayRefs _ = some _
      rw [← set_eq_self_iff]
      exact ⟨fun h => h.replayRefs, fun h => ⟨rfl, rfl, rfl, rfl, h, rfl, rfl⟩⟩

theorem openTerminal_same (h : s.openTerminal cfg ws now f = .returned s') :
    SameTables s s' ↔ ws ∈ (get s.terminalSubscribers (f.val "session_id").key).getD [] := by
  have hsub : SameTables s { s with
      terminalSubscribers := subscribed s.terminalSubscribers (f.val "session_id").key ws } ↔
      ws ∈ (get s.terminalSubscribers (f.val "session_id").key).getD [] := by
    rw [← subscribed_same]
    exact ⟨fun h => h.terminalSubscribers, fun h => ⟨rfl, rfl, rfl, rfl, rfl, h, rfl⟩⟩
  unfold Relay.openTerminal at h
  dsimp only at h
  split at h
  · cases h
    rw [(SameTables.sendMsg _ _ _).right_iff]
    exact hsub
  · split at h
    · cases h
    · cases h
      rw [(SameTables.sendMsg _ _ _).right_iff]
      exact hsub

theorem unsupported_same (h : s.unsupported cfg ws now f = .returned s') : SameTables s s' := by
  unfold Relay.unsupported at h
  split at h
  · split at h
    · cases h
      exact SameTables.refl s
    · dsimp only at h
      split at h
      · exact nomatch h
      · cases h
        exact SameTables.sendMsg _ _ _
  · cases h
    exact SameTables.refl s

/-- **When the cases write nothing.** -/
theorem dispatch_same_iff (h : s.dispatch cfg ws now f = .returned s') :
    SameTables s s' ↔ s.NoWrite cfg ws now f := by
  unfold Relay.dispatch at h
  unfold Relay.NoWrite
  split at h <;> rename_i hcase <;> rw [hcase]
  case h_8 => exact pairRequest_same h
  case h_9 => exact register_same h
  case h_15 => exact openTerminal_same h
  case h_16 =>
    refine ⟨fun _ => trivial, fun _ => ?_⟩
    split at h <;> cases h
    · exact SameTables.refl s
    · exact SameTables.sendMsg _ _ _
  case h_34 => exact ⟨fun _ => trivial, fun _ => unsupported_same h⟩
  all_goals first
    | exact requestNode_same h
    | exact requestOwner_same h
    | cases h
  case h_2 => exact ⟨fun _ => trivial, fun _ => SameTables.fanOut _ _ _⟩
  case h_7 => exact ⟨fun _ => trivial, fun _ => SameTables.refl s⟩
  case h_10 => exact heartbeat_same
  case h_11 => exact ⟨fun _ => trivial, fun _ => SameTables.sendMsg _ _ _⟩
  case h_12 => exact subscribe_same
  case h_13 => exact ⟨fun _ => trivial, fun _ => SameTables.fanOut _ _ _⟩
  case h_14 =>
    refine ⟨fun _ => trivial, fun _ => ?_⟩
    unfold Relay.replay
    split
    · exact SameTables.refl s
    · exact SameTables.sendMsg _ _ _
  case h_17 => exact ⟨fun _ => trivial, fun _ => SameTables.fanOut _ _ _⟩
  case h_23 => exact startAck_same
  all_goals exact answer_same

/-! ## Every frame -/

/-- What the relay owes a frame: the handler returns, and a frame that is no protocol message leaves the
    tables as they are. -/
def Relay.Survives (cfg : Config) (s : Relay) (ws now : Nat) (frame : Option Json) : Prop :=
  (s.handle cfg ws now frame).Returns ∧
    (frame.any wellFormed = false → SameTables s (s.handle cfg ws now frame).relay)

/-- The condition on a frame in the state that finds it. -/
def Relay.Harmless (cfg : Config) (s : Relay) (ws now : Nat) (frame : Option Json) : Prop :=
  ∀ j, frame = some j → j ≠ .null ∧ s.NoThrow cfg ⟨s.frames, j⟩ ∧
    (wellFormed j = false → s.NoWrite cfg ws now ⟨s.frames, j⟩)

end VibeRelayServer
