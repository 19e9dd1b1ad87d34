import VibeWorkflow.RelayNodeProofs
import VibeWorkflow.ReplayRefProofs

/-!
# The three ends of a replayed stream

A replayed stream has three ends: the subscriber's socket, the relay's reference, and the Node's journal
subscription, which sends on the connection it was opened on.  Each of the parties may lose its
connection and come back.

* `step` — one move of the relay, the Node, the journal or a subscriber;
* `Served`, `Kept` — what a subscriber with a cursor is to get, and the condition on a move;
* `Backed` — what holds of it: its reference has a live subscription on the Node's current connection,
  and what it has been sent and what is on its way is what that has delivered;
* **`relay_wire`** — what a frame of the Node does at the relay.
-/

namespace VibeReconnect

open VibeJson VibeJournal VibeRelayServer KeyedMap CallRuns
open VibeResult (field)
open VibeRelay (defaultMaxQueue)

/-! ## Frames -/

/-- The relay's options, the Node's and the run's ids, what the Node registers with, and how it puts an
    event on the wire: as it is, or as the nonce and the ciphertext under the run's key. -/
structure Parties where
  cfg : Config
  nodeId : String
  runId : String
  card : List (String × Json)
  signature : String → Option Json
  payload : EventRow → Json
  sealed : Option (EventRow → String × String)

/-- What the Node sends. -/
inductive Body where
  | register
  | replayMeta (ref : String) (data : ReplayMetadata)
  | replayEvent (ref : String) (row : EventRow)
  | liveEvent (row : EventRow)

structure NodeFrame where
  ts : String
  body : Body

def metadataJson (data : ReplayMetadata) : Json :=
  .obj [("earliest_retained_sequence", .num (.ofInt data.earliestRetainedSequence)),
    ("latest_sequence", .num (.ofInt data.latestSequence)),
    ("history_complete_for_request", .bool data.historyCompleteForRequest), ("status", .str data.status),
    ("terminal", .bool data.terminal), ("replay_capability", .str data.replayCapability)]

def header (sender ts kind type : String) : List (String × Json) :=
  [("version", .num (.ofInt 1)), ("kind", .str kind), ("from", .str sender), ("to", .str "relay"), ("ts", .str ts),
    ("type", .str type)]

def sealedJson (enc : String × String) : List (String × Json) := [("nonce", .str enc.1), ("ciphertext", .str enc.2)]

/-- The frame as the relay parses it. -/
def wire (p : Parties) (f : NodeFrame) : Json :=
  match f.body with
  | .register =>
    .obj (header p.nodeId f.ts "plaintext" "node_register" ++ [("node", .obj (("node_id", .str p.nodeId) :: p.card))] ++
      (p.signature f.ts).toList.map fun s => ("signature", s))
  | .replayMeta ref data =>
    .obj (header p.nodeId f.ts "plaintext" "run_replay_meta" ++
      [("run_id", .str p.runId), ("subscriber_ref", .str ref), ("metadata", metadataJson data)])
  | .replayEvent ref row =>
    .obj (header p.nodeId f.ts "plaintext" "run_replay_event" ++
      [("run_id", .str p.runId), ("subscriber_ref", .str ref), ("source_sequence", .num (.ofInt row.sequence)),
        match p.sealed with
        | some enc => ("encrypted", .obj (sealedJson (enc row)))
        | none => ("event", p.payload row)])
  | .liveEvent row =>
    match p.sealed with
    | some enc =>
      .obj (header p.nodeId f.ts "encrypted" "encrypted_run_event" ++
        [("run_id", .str p.runId), ("key_id", .str p.nodeId)] ++ sealedJson (enc row))
    | none =>
      .obj (header p.nodeId f.ts "plaintext" "run_event" ++
        [("run_id", .str p.runId), ("event", p.payload row), ("source_sequence", .num (.ofInt row.sequence))])

/-- A subscriber's only frame. -/
def subscribeFrame (p : Parties) (ts : String) (after : Option Int) : Json :=
  .obj (header "cli" ts "plaintext" "run_stream_subscribe" ++ [("run_id", .str p.runId)] ++
    after.toList.map fun a => ("after_sequence", .num (.ofInt a)))

/-- What the Node makes of a frame of the relay. -/
inductive Note where
  | opened (ref : String) (after : Int)
  | closed (ref : String)
  | other
deriving DecidableEq

/-- A cursor that is no integer is the start. -/
def cursorOf : Option Json → Int
  | some (.num n) => if n.isInteger then n.mantissa else -1
  | _ => -1

def noteOf (p : Parties) (frame : Json) : Note :=
  if field frame "run_id" = some p.runId then
    match field frame "subscriber_ref" with
    | none => .other
    | some ref =>
      if field frame "type" = some "run_replay_open" then .opened ref (cursorOf (frame.get? "after_sequence"))
      else if field frame "type" = some "run_replay_close" then .closed ref
      else .other
  else .other

/-! ## The parties -/

/-- The relay; the Node's journal with its subscriptions, each with its reference and its connection; the
    Node's connection, what it has still to read there, and what is on its way to the relay; the
    connection of the run's tail; and the subscribers' sockets, with the cursors they have subscribed with. -/
structure Net where
  relay : Relay
  feed : FeedState
  tags : List (String × Nat)
  conn : Option Nat
  inbox : List Json
  up : List (Nat × NodeFrame)
  tail : Option Nat
  callers : List Nat
  acked : List (Nat × Option Int)

/-- The relay may have been restarted: it knows the owners of some runs. -/
def Net.initial (owners : List (Key × Val)) : Net :=
  ⟨{ Relay.initial with runOwnership := owners }, FeedState.initial, [], none, [], [], none, [], []⟩

/-- The relay has gone on; what it has sent on the Node's connection is there to be read. -/
def Net.hear (s : Net) (relay : Relay) : Net :=
  { s with
    relay := relay
    inbox := s.inbox ++ ((relay.sent.drop s.relay.sent.length).filter fun m => s.conn = some m.1).map Prod.snd }

/-- `sendMsg` of the Node: only on an open connection. -/
def Net.send (s : Net) (ws : Nat) (frames : List NodeFrame) : Net :=
  if s.conn = some ws then { s with up := s.up ++ frames.map fun f => (ws, f) } else s

/-- A note of the relay.  The relay uses no reference twice. -/
def Net.receive (s : Net) (c : Nat) (ts : String) : Note → Net
  | .opened ref after =>
    { s with
      feed := feedStep s.feed (.subscribe after defaultMaxQueue)
      tags := s.tags ++ [(ref, c)] }.send c
        ((replayMetadata s.feed.run.db after).toList.map fun data => ⟨ts, .replayMeta ref data⟩)
  | .closed ref =>
    match s.tags.findIdx? (fun t => t.1 = ref) with
    | none => s
    | some i => { s with feed := feedStep s.feed (.close i) }
  | .other => s

/-- What the subscription with this number has delivered by a step. -/
def delivery (feed feed' : FeedState) (i : Nat) : List EventRow :=
  (feed'.subs[i]?.elim [] Sub.delivered).drop (feed.subs[i]?.elim 0 fun sub => sub.delivered.length)

/-- A step of a subscription; what it delivers goes out on its own connection. -/
def Net.advance (s : Net) (i : Nat) (ts : String) (feed : FeedState) : Net :=
  match s.tags[i]? with
  | none => s
  | some tag =>
    { s with feed := feed }.send tag.2 ((delivery s.feed feed i).map fun row => ⟨ts, .replayEvent tag.1 row⟩)

/-- An event is journaled, then sent live where the tail was started. -/
def Net.journal (s : Net) (c : JournalCall) (ts : String) : Net :=
  let s' := { s with feed := feedStep s.feed (.call c) }
  match s.tail with
  | none => s'
  | some ws => s'.send ws ((recordedBy c (callJournal s.feed.run.db c).1).map fun r => ⟨ts, .liveEvent r.1⟩)

inductive Move where
  | connect                                                -- a subscriber's socket
  | subscribe (ws now : Nat) (ts : String) (after : Option Int)
  | close (ws now : Nat)                                   -- the relay sees the end of a socket
  | dial (ts : String)                                     -- the Node connects and registers
  | drop                                                   -- the Node's connection ends
  | crash                                                  -- its daemon is restarted
  | start                                                  -- the run's tail, on the connection of its start
  | relayReads (ws now : Nat)
  | nodeReads (ts : String)
  | call (c : JournalCall) (ts : String)
  | replay (i : Nat) (ts : String)
  | drain (i : Nat)
  | deliver (i : Nat) (ts : String)

/-- One move.  A relay that is down has no open socket any more. -/
def step (p : Parties) (s : Net) (m : Move) : Net :=
  if s.relay.down then s
  else match m with
    | .connect => { s.hear (s.relay.step p.cfg .connect) with callers := s.callers ++ [s.relay.sockets] }
    | .subscribe ws now ts after =>
      if ws ∈ s.callers ∧ ws ∈ s.relay.conns then
        { s.hear (s.relay.step p.cfg (.message ws now (some (subscribeFrame p ts after)))) with
          acked := s.acked ++ [(ws, after)] }
      else s
    | .close ws now =>
      { s.hear (s.relay.step p.cfg (.close ws now)) with up := s.up.filter fun m => m.1 ≠ ws }
    | .dial ts =>
      if s.conn.isSome then s
      else { s with
        relay := s.relay.step p.cfg .connect
        conn := some s.relay.sockets
        inbox := [] }.send s.relay.sockets [⟨ts, .register⟩]
    | .drop => { s with conn := none, inbox := [] }
    | .crash => { s with conn := none, inbox := [], tags := [], feed := { s.feed with subs := [] }, tail := none }
    | .start => { s with tail := s.conn }
    | .relayReads ws now =>
      match s.up.find? (fun m => m.1 = ws) with
      | none => s
      | some m =>
        { s.hear (s.relay.step p.cfg (.message ws now (some (wire p m.2)))) with up := s.up.eraseP fun m => m.1 = ws }
    | .nodeReads ts =>
      match s.conn, s.inbox with
      | some c, frame :: rest => { s with inbox := rest }.receive c ts (noteOf p frame)
      | _, _ => s
    | .call c ts => s.journal c ts
    | .replay i ts => s.advance i ts (feedStep s.feed (.replay i))
    | .drain i => { s with feed := feedStep s.feed (.drain i) }
    | .deliver i ts => s.advance i ts (feedStep s.feed (.deliver i))

/-! ## The property -/

/-- The entry of the run's owner, as the relay looks it up for a subscriber. -/
def runEntry (p : Parties) (r : Relay) : Option Entry :=
  let owner := (get r.runOwnership (.str p.runId)).getD ⟨none, .undefined⟩
  if owner.truthy then get r.registry owner.key else none

/-- The owner is registered with its current connection, which is open. -/
def Net.online (p : Parties) (s : Net) : Bool :=
  match s.conn, runEntry p s.relay with
  | some c, some e => e.ws == c && s.relay.conns.contains c
  | _, _ => false

/-- The owner is registered and idle: nothing is on its way to it or from it, and no subscription has
    anything left to deliver. -/
structure Idle (p : Parties) (s : Net) : Prop where
  running : s.relay.down = false
  online : s.online p = true
  inbox : s.inbox = []
  up : ∀ m ∈ s.up, s.conn ≠ some m.1
  drained : ∀ sub ∈ s.feed.subs, sub.live = true → sub.replaying = [] ∧ sub.queue = []

/-- The value under which a reference has its run. -/
def runVal (p : Parties) : Val := ⟨some (.str p.runId), .str p.runId⟩

/-- The subscriber has been sent each event after its cursor once and in order, and its reference has a
    live subscription on the Node's current connection. -/
structure Served (p : Parties) (s : Net) (ws : Nat) (after : Int) : Prop where
  events : s.relay.sequencesTo ws = (s.feed.run.db.eventsAfter after).map EventRow.sequence
  backed : ∃ (c : Nat) (ref : String) (i : Nat) (sub : Sub), s.conn = some c ∧
    get s.relay.replayRefs (.str ref) = some (ws, runVal p) ∧
    s.tags[i]? = some (ref, c) ∧ s.feed.subs[i]? = some sub ∧ sub.live = true ∧ sub.afterSequence = after

/-- **The condition.**  No socket subscribes a second time, which the relay serves once more; the owner is
    online when a subscriber with a cursor comes; no connection of the Node ends while a reference is open;
    and no subscription asks for more than one read of the journal gives, asks beyond the end of the run, or
    has its queue full. -/
def Kept (p : Parties) (s : Net) : Move → Prop
  | .subscribe ws _ _ after => ws ∉ s.acked.map Prod.fst ∧ (after.isSome = true → s.online p = true)
  | .close ws _ => s.conn = some ws → s.relay.replayRefs.isEmpty = true
  | .drop => s.relay.replayRefs.isEmpty = true
  | .crash => s.relay.replayRefs.isEmpty = true
  | .nodeReads _ => ∀ note ∈ s.inbox.head?.map (noteOf p),
      match note with
      | .opened _ after => (s.feed.run.db.eventsAfter after).length ≤ readLimit ∧
          ∀ run ∈ s.feed.run.db.run, after ≤ run.lastSequence
      | _ => True
  | .call _ _ => ∀ sub ∈ s.feed.subs, sub.live = true → sub.queue.length < sub.maxQueue
  | _ => True

instance instDecidableKept (p : Parties) (s : Net) : (m : Move) → Decidable (Kept p s m)
  | .subscribe _ _ _ _ => inferInstanceAs (Decidable (_ ∧ (_ → _ = true)))
  | .close _ _ => inferInstanceAs (Decidable (_ → _ = true))
  | .drop => inferInstanceAs (Decidable (_ = true))
  | .crash => inferInstanceAs (Decidable (_ = true))
  | .nodeReads _ =>
    have (note : Note) : Decidable (match note with
        | .opened _ after => (s.feed.run.db.eventsAfter after).length ≤ readLimit ∧
          ∀ run ∈ s.feed.run.db.run, after ≤ run.lastSequence
        | _ => True) :=
      match note with
      | .opened _ _ => inferInstanceAs (Decidable (_ ∧ _))
      | .closed _ => .isTrue trivial
      | .other => .isTrue trivial
    inferInstanceAs (Decidable (∀ note ∈ s.inbox.head?.map (noteOf p), _))
  | .call _ _ => inferInstanceAs (Decidable (∀ sub ∈ s.feed.subs, sub.live = true → sub.queue.length < sub.maxQueue))
  | .connect | .dial _ | .start | .relayReads _ _ | .replay _ _ | .drain _ | .deliver _ _ => .isTrue trivial

/-! ## The invariant -/

def Note.mentions (ref : String) : Note → Bool
  | .opened r _ => r == ref
  | .closed r => r == ref
  | .other => false

def Body.mentions (ref : String) : Body → Bool
  | .replayMeta r _ => r == ref
  | .replayEvent r _ => r == ref
  | .register | .liveEvent _ => false

/-- What the Node has still to read about a reference. -/
def mail (p : Parties) (s : Net) (ref : String) : List Note := (s.inbox.map (noteOf p)).filter (Note.mentions ref)

def NodeFrame.sequenceFor (ref : String) (f : NodeFrame) : Option Nat :=
  match f.body with
  | .replayEvent r row => if r = ref then some row.sequence else none
  | _ => none

/-- The events that are on their way to the relay under a reference. -/
def flying (s : Net) (ref : String) : List Nat := s.up.filterMap fun m => m.2.sequenceFor ref

/-- The Node has still to be told. -/
structure Awaited (p : Parties) (s : Net) (ws : Nat) (after : Int) (ref : String) : Prop where
  untagged : ∀ t ∈ s.tags, t.1 ≠ ref
  grounded : ∀ m ∈ s.up, m.2.body.mentions ref = false
  silent : s.relay.sequencesTo ws = []
  unread : mail p s ref = [.opened ref after]

/-- The subscription is there, and nothing that it has delivered is lost. -/
structure Streaming (p : Parties) (s : Net) (ws : Nat) (after : Int) (ref : String) (c i : Nat) (sub : Sub) : Prop where
  tag : s.tags[i]? = some (ref, c)
  alone : ∀ j t, s.tags[j]? = some t → t.1 = ref → j = i
  opened : s.feed.subs[i]? = some sub
  live : sub.live = true
  cursor : sub.afterSequence = after
  unread : mail p s ref = []
  delivered : s.relay.sequencesTo ws ++ flying s ref = sub.delivered.map EventRow.sequence

/-- What holds of a subscriber with a cursor. -/
structure Backed (p : Parties) (s : Net) (ws : Nat) (after : Int) (ref : String) (c : Nat) : Prop where
  conn : s.conn = some c
  reference : get s.relay.replayRefs (.str ref) = some (ws, runVal p)
  only : ∀ k v, get s.relay.replayRefs k = some v → v.1 = ws → k = .str ref
  link : c ∈ s.relay.conns
  lane : ∀ m ∈ s.up, m.2.body.mentions ref = true → m.1 = c
  phase : Awaited p s ws after ref ∨ ∃ i sub, Streaming p s ws after ref c i sub

/-- A reference that the relay has made. -/
def Known (s : Net) (ref : String) : Prop := ∃ now seq, seq < s.relay.replaySeq ∧ ref = refName now seq

/-- A socket of the fan-out. -/
def Fan (p : Parties) (r : Relay) (ws : Nat) : Prop := ∃ sockets,
    (Key.str p.runId, sockets) ∈ r.subscribers ∧ ws ∈ sockets

/-- What is there whoever subscribes. -/
structure Base (p : Parties) (s : Net) : Prop where
  feed : FeedInv s.feed
  tags : s.tags.length = s.feed.subs.length
  unique : Unique s.relay.replayRefs
  refs : ∀ k v, get s.relay.replayRefs k = some v → ∃ ref, k = .str ref ∧ Known s ref ∧ v.1 ∈ s.acked.map Prod.fst
  tagged : ∀ t ∈ s.tags, Known s t.1
  read : ∀ frame ∈ s.inbox, ∀ ref, (noteOf p frame).mentions ref = true → Known s ref
  sent : ∀ m ∈ s.up, ∀ ref, m.2.body.mentions ref = true → Known s ref
  fans : ∀ ws, Fan p s.relay ws → (ws, none) ∈ s.acked
  once : (s.acked.map Prod.fst).Nodup
  below : ∀ ws ∈ s.acked.map Prod.fst, ws < s.relay.sockets
  conns : ∀ ws ∈ s.relay.conns, ws < s.relay.sockets
  silent : ∀ ws, ws ∉ s.acked.map Prod.fst → s.relay.sequencesTo ws = []

structure Inv (p : Parties) (s : Net) : Prop extends Base p s where
  backed : ∀ ws after, (ws, some after) ∈ s.acked → ws ∈ s.relay.conns → ∃ ref c, Backed p s ws after ref c

/-! ## Frames, read -/

section

variable {p : Parties} {cfg : Config} {ts : String} {n now : Nat}

theorem case_register : (⟨n, wire p ⟨ts, .register⟩⟩ : Frame).case = .nodeRegister := by
  cases h : p.signature ts with
  | none => simp only [wire, h]; rfl
  | some sig => simp only [wire, h]; rfl

theorem case_replay (p : Parties) (n : Nat) (ts : String) {ref : String} {b : Body} (hb : b.mentions ref = true) :
    (⟨n, wire p ⟨ts, b⟩⟩ : Frame).case = .runReplay ∧ ((⟨n, wire p ⟨ts, b⟩⟩ : Frame).val "subscriber_ref").key = .str ref := by
  cases b with
  | register => exact nomatch hb
  | liveEvent row => exact nomatch hb
  | replayMeta r data =>
    obtain rfl : r = ref := eq_of_beq hb
    exact ⟨rfl, rfl⟩
  | replayEvent r row =>
    obtain rfl : r = ref := eq_of_beq hb
    cases h : p.sealed with
    | none => simp only [wire, h]; exact ⟨rfl, rfl⟩
    | some enc => simp only [wire, h]; exact ⟨rfl, rfl⟩

/-- A live event is fanned out, encrypted or not. -/
theorem dispatch_live {s : Relay} {ws : Nat} {row : EventRow} :
    s.dispatch cfg ws now ⟨n, wire p ⟨ts, .liveEvent row⟩⟩ =
      .returned (s.fanOut ((get s.subscribers (.str p.runId)).getD []) (wire p ⟨ts, .liveEvent row⟩)) := by
  cases h : p.sealed with
  | none => simp only [wire, h]; rfl
  | some enc => simp only [wire, h]; rfl

theorem eventSequence_wire (f : NodeFrame) (ref : String) (hf : f.body.mentions ref = true) :
    eventSequence (wire p f) = f.sequenceFor ref := by
  obtain ⟨ts, b⟩ := f
  cases b with
  | register => exact nomatch hf
  | liveEvent row => exact nomatch hf
  | replayMeta r data => rfl
  | replayEvent r row =>
    have hr : r = ref := eq_of_beq hf
    have hseq : eventSequence (wire p ⟨ts, .replayEvent r row⟩) = some row.sequence := by
      cases h : p.sealed with
      | none => simp only [wire, h]; rfl
      | some enc => simp only [wire, h]; rfl
    rw [hseq]
    exact (if_pos hr).symm

/-- What the Node sends is no note for it. -/
theorem noteOf_wire (f : NodeFrame) : noteOf p (wire p f) = .other := by
  obtain ⟨ts, b⟩ := f
  cases b with
  | register =>
    cases h : p.signature ts with
    | none => simp only [wire, h]; rfl
    | some sig => simp only [wire, h]; rfl
  | replayMeta r data => simp [noteOf, wire, header, field, Json.get?, Json.fields, lookup, Json.str?]
  | replayEvent r row =>
    cases h : p.sealed with
    | none => simp [noteOf, wire, h, header, field, Json.get?, Json.fields, lookup, Json.str?]
    | some enc => simp [noteOf, wire, h, header, field, Json.get?, Json.fields, lookup, Json.str?]
  | liveEvent row =>
    cases h : p.sealed with
    | none => simp [noteOf, wire, h, header, field, Json.get?, Json.fields, lookup, Json.str?]
    | some enc => simp [noteOf, wire, h, header, sealedJson, field, Json.get?, Json.fields, lookup, Json.str?]

theorem subscribeAck_quiet (p : Parties) (cfg : Config) (now n : Nat) (ts : String) (after : Option Int) :
    eventSequence (subscribeAck cfg now ⟨n, subscribeFrame p ts after⟩) = none ∧
      noteOf p (subscribeAck cfg now ⟨n, subscribeFrame p ts after⟩) = .other := by
  cases after with
  | none => exact ⟨rfl, by simp [noteOf, subscribeAck, subscribeFrame, header, fromRelay, textField, okField, Frame.val, field, Json.get?, Json.fields, lookup]⟩
  | some a => exact ⟨rfl, by simp [noteOf, subscribeAck, subscribeFrame, header, fromRelay, textField, okField, Frame.val, field, Json.get?, Json.fields, lookup]⟩

theorem registerAck_quiet (dest id : Option Json) (ok : Bool) :
    eventSequence (registerAck cfg now dest id ok) = none ∧ noteOf p (registerAck cfg now dest id ok) = .other := by
  cases dest <;> cases id <;> exact ⟨rfl, rfl⟩

theorem openFrame_note (p : Parties) (cfg : Config) (now : Nat) (owner : Val) (a : Int) (ref : String) :
    eventSequence (openFrame cfg now owner (runVal p) (.num (.ofInt a)) ref) = none ∧
      noteOf p (openFrame cfg now owner (runVal p) (.num (.ofInt a)) ref) = .opened ref a := by
  obtain ⟨json, key⟩ := owner
  cases json with
  | none => exact ⟨rfl, by simp [noteOf, openFrame, fromRelay, textField, runVal, field, Json.get?, Json.fields, lookup, Json.str?, cursorOf, JsNum.isInteger, JsNum.ofInt]⟩
  | some j => exact ⟨rfl, by simp [noteOf, openFrame, fromRelay, textField, runVal, field, Json.get?, Json.fields, lookup, Json.str?, cursorOf, JsNum.isInteger, JsNum.ofInt]⟩

/-- The text of a key that is a text. -/
def textOfKey : Key → Option String
  | .str r => some r
  | _ => none

theorem closeFrame_note (owner : Val) (r : Key × Nat × Val) :
    eventSequence (closeFrame cfg now owner r) = none ∧
      ∀ ref, (noteOf p (closeFrame cfg now owner r)).mentions ref = true → r.1 = .str ref := by
  obtain ⟨k, w, json, key⟩ := r
  obtain ⟨ojson, okey⟩ := owner
  have hseq : eventSequence (closeFrame cfg now ⟨ojson, okey⟩ (k, w, ⟨json, key⟩)) = none := by
    cases ojson <;> cases json <;> cases k <;> rfl
  refine ⟨hseq, fun ref h => ?_⟩
  have hfield : field (closeFrame cfg now ⟨ojson, okey⟩ (k, w, ⟨json, key⟩)) "subscriber_ref" = textOfKey k := by
    cases ojson <;> cases json <;> cases k <;> rfl
  have htype : field (closeFrame cfg now ⟨ojson, okey⟩ (k, w, ⟨json, key⟩)) "type" = some "run_replay_close" := by
    cases ojson <;> cases json <;> cases k <;> rfl
  unfold noteOf at h
  rw [hfield, htype] at h
  split at h
  · cases k with
    | str r =>
      have hr : (r == ref) = true := h
      exact congrArg Key.str (eq_of_beq hr)
    | _ => cases h
  · cases h

end

/-! ## What the relay does -/

/-- The events among some frames that go to a socket. -/
def heard (extra : List (Nat × Json)) (ws : Nat) : List Nat :=
  extra.filterMap fun m => if m.1 = ws then eventSequence m.2 else none

section

variable {p : Parties} {r r' : Relay} {s : Net} {ws now : Nat} {ts : String}

theorem sequencesTo_append {extra : List (Nat × Json)} (h : r'.sent = r.sent ++ extra) (ws : Nat) :
    r'.sequencesTo ws = r.sequencesTo ws ++ heard extra ws := by
  unfold Relay.sequencesTo
  rw [h, List.filterMap_append]
  rfl

theorem heard_nil {extra : List (Nat × Json)} (h : ∀ m ∈ extra, m.1 = ws → eventSequence m.2 = none) :
    heard extra ws = [] := by
  refine List.filterMap_eq_nil_iff.mpr fun m hm => ?_
  split
  · exact h m hm ‹_›
  · rfl

theorem hear_inbox {extra : List (Nat × Json)} (h : r'.sent = s.relay.sent ++ extra) :
    (s.hear r').inbox = s.inbox ++ (extra.filter fun m => s.conn = some m.1).map Prod.snd := by
  unfold Net.hear
  rw [h, List.drop_left]

theorem relay_connect (hd : r.down = false) :
    r.step p.cfg .connect = { r with conns := r.conns ++ [r.sockets], sockets := r.sockets + 1 } := by
  unfold Relay.step
  rw [hd]
  rfl

/-- A message of an open socket, in terms of its case. -/
theorem relay_message {j : Json} {r' : Relay} (hd : r.down = false) (hws : ws ∈ r.conns) (hj : j.isObj = true)
    (h : { r with frames := r.frames + 1 }.dispatch p.cfg ws now ⟨r.frames, j⟩ = .returned r') :
    r.step p.cfg (.message ws now (some j)) = r' := by
  refine step_message hd hws ?_ h
  rintro rfl
  exact nomatch hj

/-- What a frame of the Node does. -/
structure Relayed (p : Parties) (f : NodeFrame) (r r' : Relay) (extra : List (Nat × Json)) : Prop where
  down : r'.down = false
  sent : r'.sent = r.sent ++ extra
  refs : r'.replayRefs = r.replayRefs
  numbers : r'.replaySeq = r.replaySeq
  fans : r'.subscribers = r.subscribers
  conns : r'.conns = r.conns
  sockets : r'.sockets = r.sockets
  notes : ∀ m ∈ extra, noteOf p m.2 = .other
  told : ∀ m ∈ extra, eventSequence m.2 = none ∨
    (∃ ref v, f.body.mentions ref = true ∧ get r.replayRefs (.str ref) = some v ∧ m.1 = v.1) ∨
    m.1 ∈ (get r.subscribers (.str p.runId)).getD []
  own : ∀ ref v, f.body.mentions ref = true → get r.replayRefs (.str ref) = some v → v.1 ∈ r.conns →
    extra = [(v.1, wire p f)]

/-- A body is about one reference. -/
theorem Body.mentions_inj {b : Body} {ref ref' : String} (h : b.mentions ref = true)
    (h' : b.mentions ref' = true) : ref' = ref := by
  cases b with
  | register => exact nomatch h
  | liveEvent row => exact nomatch h
  | replayMeta q data => exact (eq_of_beq h').symm.trans (eq_of_beq h)
  | replayEvent q row => exact (eq_of_beq h').symm.trans (eq_of_beq h)

theorem relay_replay {b : Body} {ref : String} (hb : b.mentions ref = true) (hobj : (wire p ⟨ts, b⟩).isObj = true)
    (hd : r.down = false) (hws : ws ∈ r.conns) :
    ∃ extra, Relayed p ⟨ts, b⟩ r (r.step p.cfg (.message ws now (some (wire p ⟨ts, b⟩)))) extra := by
  obtain ⟨hcase, hkey⟩ := case_replay p r.frames ts hb
  have hdispatch : { r with frames := r.frames + 1 }.dispatch p.cfg ws now ⟨r.frames, wire p ⟨ts, b⟩⟩ =
      .returned ({ r with frames := r.frames + 1 }.replay ⟨r.frames, wire p ⟨ts, b⟩⟩) := by
    unfold Relay.dispatch
    rw [hcase]
  rw [relay_message hd hws hobj hdispatch]
  unfold Relay.replay
  rw [hkey]
  cases hget : get r.replayRefs (.str ref) with
  | none =>
    refine ⟨[], hd, (List.append_nil _).symm, rfl, rfl, rfl, rfl, rfl, nofun, nofun, fun ref' v hb' hv => ?_⟩
    rw [Body.mentions_inj hb hb', hget] at hv
    exact nomatch hv
  | some v =>
    by_cases hv : v.1 ∈ r.conns
    · refine ⟨[(v.1, wire p ⟨ts, b⟩)], ?_⟩
      simp only [Relay.sendMsg, if_pos hv]
      refine ⟨hd, rfl, rfl, rfl, rfl, rfl, rfl, fun m hm => ?_, fun m hm => ?_, fun ref' v' hb' hv' _ => ?_⟩
      · rw [List.mem_singleton.mp hm]
        exact noteOf_wire ⟨ts, b⟩
      · rw [List.mem_singleton.mp hm]
        exact .inr (.inl ⟨ref, v, hb, hget, rfl⟩)
      · rw [Body.mentions_inj hb hb', hget] at hv'
        rw [Option.some.inj hv']
    · refine ⟨[], ?_⟩
      simp only [Relay.sendMsg, if_neg hv]
      refine ⟨hd, (List.append_nil _).symm, rfl, rfl, rfl, rfl, rfl, nofun, nofun, fun ref' v' hb' hv' hin => ?_⟩
      rw [Body.mentions_inj hb hb', hget] at hv'
      exact absurd (Option.some.inj hv' ▸ hin) hv

theorem relay_live {row : EventRow} (hobj : (wire p ⟨ts, .liveEvent row⟩).isObj = true) (hd : r.down = false)
    (hws : ws ∈ r.conns) :
    ∃ extra, Relayed p ⟨ts, .liveEvent row⟩ r (r.step p.cfg
      (.message ws now (some (wire p ⟨ts, .liveEvent row⟩)))) extra := by
  rw [relay_message hd hws hobj dispatch_live, fanOut_sends]
  refine ⟨_, hd, rfl, rfl, rfl, rfl, rfl, rfl, fun m hm => ?_, fun m hm => ?_, nofun⟩
  · obtain ⟨w, -, rfl⟩ := List.mem_map.mp hm
    exact noteOf_wire (p := p) ⟨ts, .liveEvent row⟩
  · obtain ⟨w, hw, rfl⟩ := List.mem_map.mp hm
    exact .inr (.inr (List.mem_filter.mp hw).1)

theorem relay_threw {j : Json} (hd : r.down = false) (hws : ws ∈ r.conns) (hj : j.isObj = true)
    (h : r.received p.cfg ws now j = .threw r') : (r.step p.cfg (.message ws now (some j))).down = true := by
  cases j with
  | obj kvs =>
    unfold Relay.step
    dsimp only
    rw [hd, if_neg Bool.false_ne_true, if_pos hws]
    unfold Relay.received at h
    simp only [Relay.handle, h]
  | _ => cases hj

theorem register_extra {f : Frame} {b : NodeFrame} (ho : r.register p.cfg ws now f = .returned r') (hd : r.down = false)
    (hws : ws ∈ r.conns) (hb : ∀ ref, b.body.mentions ref = false) : ∃ extra, Relayed p b r r' extra := by
  have hack (nodeIds : Nat → Val) (registry : List (Key × Entry)) (registered : List (Key × Nat))
    (dest id : Option Json)
      (ok : Bool) (h : { r with nodeIds := nodeIds, registry := registry, registered := registered }.sendMsg ws
        (registerAck p.cfg now dest id ok) = r') : ∃ extra, Relayed p b r r' extra := by
    simp only [Relay.sendMsg, if_pos hws] at h
    subst h
    refine ⟨_, hd, rfl, rfl, rfl, rfl, rfl, rfl, fun m hm => ?_, fun m hm => ?_, fun ref v hm => ?_⟩
    · rw [List.mem_singleton.mp hm]
      exact (registerAck_quiet dest id ok).2
    · rw [List.mem_singleton.mp hm]
      exact .inl (registerAck_quiet (p := p) dest id ok).1
    · rw [hb] at hm
      cases hm
  unfold Relay.register at ho
  split at ho
  · cases ho
  · cases ho
  · dsimp only at ho
    split at ho
    · cases ho
    · exact hack _ _ _ _ _ _ (Outcome.returned.inj ho)
    · exact hack _ _ _ _ _ _ (Outcome.returned.inj ho)

/-- A registration is answered, or ends the relay. -/
theorem relay_register (hd : r.down = false) (hws : ws ∈ r.conns) :
    (r.step p.cfg (.message ws now (some (wire p ⟨ts, .register⟩)))).down = true ∨
      ∃ extra, Relayed p ⟨ts, .register⟩ r (r.step p.cfg (.message ws now (some (wire p ⟨ts, .register⟩)))) extra := by
  have hobj : (wire p ⟨ts, .register⟩).isObj = true := rfl
  have hdispatch : r.received p.cfg ws now (wire p ⟨ts, .register⟩) =
      { r with frames := r.frames + 1 }.register p.cfg ws now ⟨r.frames, wire p ⟨ts, .register⟩⟩ := by
    unfold Relay.received Relay.dispatch
    rw [case_register]
  cases ho : { r with frames := r.frames + 1 }.register p.cfg ws now ⟨r.frames, wire p ⟨ts, .register⟩⟩ with
  | threw r' => exact .inl (relay_threw hd hws hobj (hdispatch.trans ho))
  | returned r' =>
    right
    rw [relay_message hd hws hobj (hdispatch.trans ho)]
    obtain ⟨extra, h⟩ := register_extra (p := p) (b := ⟨ts, .register⟩) ho hd hws (fun _ => rfl)
    exact ⟨extra, h.down, h.sent, h.refs, h.numbers, h.fans, h.conns, h.sockets, h.notes, h.told, h.own⟩

/-- **A frame of the Node** goes to the socket of its reference, or to those of the fan-out, or registers it. -/
theorem relay_wire (f : NodeFrame) (hd : r.down = false) (hws : ws ∈ r.conns) :
    (r.step p.cfg (.message ws now (some (wire p f)))).down = true ∨
      ∃ extra, Relayed p f r (r.step p.cfg (.message ws now (some (wire p f)))) extra := by
  obtain ⟨ts, b⟩ := f
  cases b with
  | register => exact relay_register hd hws
  | replayMeta ref data => exact .inr (relay_replay (beq_self_eq_true ref) rfl hd hws)
  | replayEvent ref row => exact .inr (relay_replay (beq_self_eq_true ref) rfl hd hws)
  | liveEvent row =>
    refine .inr (relay_live ?_ hd hws)
    cases h : p.sealed with
    | none => simp only [wire, h]; rfl
    | some enc => simp only [wire, h]; rfl

end

end VibeReconnect
