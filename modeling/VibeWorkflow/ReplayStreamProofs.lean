import VibeWorkflow.ReplayNetProofs

/-!
# The Node's end of a replayed stream

What the moves of the Node do to a subscriber: its journal goes on, its subscriptions deliver, and it
reads what the relay has told it.

* `Backed.relayed`, `Backed.fed` — when a subscriber stays backed through a move of the relay, or of the
  journal;
* `advance_fed`, `journal_fed` — a subscription's step, and a call of the journal;
* **`Inv.reads`** — the Node reads a frame.
-/

namespace VibeReconnect

open VibeJson VibeJournal VibeRelayServer KeyedMap CallRuns
open VibeResult (field)
open VibeRelay (defaultMaxQueue)

/-! ## What a subscriber keeps -/

section

variable {p : Parties} {s s' : Net} {ws c : Nat} {after : Int} {ref : String} {spared : String → Prop}

theorem flying_grounded (h : ∀ m ∈ s.up, m.2.body.mentions ref = false) : flying s ref = [] := by
  refine List.filterMap_eq_nil_iff.mpr fun m hm => ?_
  obtain ⟨w, t, b⟩ := m
  have hb := h _ hm
  cases b with
  | replayEvent r row =>
    have hne : r ≠ ref := fun heq => by simp [Body.mentions, heq] at hb
    exact if_neg hne
  | _ => rfl

/-- A move of the relay: a subscriber stays backed when its references, its mail and its events do. -/
theorem Backed.relayed (h : Backed p s ws after ref c) (hconn : s'.conn = s.conn) (htags : s'.tags = s.tags)
    (hfeed : s'.feed = s.feed)
    (hrefs : ∀ k v, v.1 = ws → (get s'.relay.replayRefs k = some v ↔ get s.relay.replayRefs k = some v))
    (hmail : mail p s' ref = mail p s ref) (hup : ∀ m ∈ s'.up, m ∈ s.up) (hlink : c ∈ s'.relay.conns)
    (hevents : s'.relay.sequencesTo ws ++ flying s' ref = s.relay.sequencesTo ws ++ flying s ref) :
    Backed p s' ws after ref c := by
  refine ⟨hconn.trans h.conn, (hrefs _ _ rfl).mpr h.reference,
    fun k v hv hw => h.only k v ((hrefs k v hw).mp hv) hw, hlink,
    fun m hm => h.lane m (hup m hm), ?_⟩
  rcases h.phase with hwait | ⟨i, sub, hstream⟩
  · left
    have hground : ∀ m ∈ s'.up, m.2.body.mentions ref = false := fun m hm => hwait.grounded m (hup m hm)
    refine ⟨htags ▸ hwait.untagged, hground, ?_, hmail.trans hwait.unread⟩
    rw [flying_grounded hground, flying_grounded hwait.grounded, hwait.silent] at hevents
    simpa using hevents
  · right
    exact ⟨i, sub, htags ▸ hstream.tag, htags ▸ hstream.alone, hfeed ▸ hstream.opened, hstream.live, hstream.cursor,
      hmail.trans hstream.unread, hevents.trans hstream.delivered⟩

/-- What a move of the Node does to the subscription of a reference. -/
def Continues (ref : String) (more : List (Nat × NodeFrame)) (sub sub' : Sub) : Prop :=
  sub'.live = true ∧ sub'.afterSequence = sub.afterSequence ∧
    sub'.delivered.map EventRow.sequence =
      sub.delivered.map EventRow.sequence ++ more.filterMap fun m => m.2.sequenceFor ref

/-- The moves of the journal and its subscriptions, as they are for the references that are spared. -/
structure Fed (spared : String → Prop) (s s' : Net) (more : List (Nat × NodeFrame)) : Prop where
  relay : s'.relay = s.relay
  conn : s'.conn = s.conn
  tags : s'.tags = s.tags
  inbox : s'.inbox = s.inbox
  acked : s'.acked = s.acked
  feed : FeedInv s'.feed
  length : s'.feed.subs.length = s.feed.subs.length
  up : s'.up = s.up ++ more
  lane : ∀ m ∈ more, s.conn = some m.1
  new : ∀ m ∈ more, ∀ ref, m.2.body.mentions ref = true → ∃ t ∈ s.tags, t.1 = ref
  subs : ∀ ref, spared ref → ∀ (c i : Nat) (sub : Sub), s.conn = some c → s.tags[i]? = some (ref, c) →
    (∀ j t, s.tags[j]? = some t → t.1 = ref → j = i) →
    s.feed.subs[i]? = some sub → sub.live = true → ∃ sub', s'.feed.subs[i]? = some sub' ∧ Continues ref more sub sub'

theorem Backed.fed {more : List (Nat × NodeFrame)} (h : Backed p s ws after ref c) (hf : Fed spared s s' more)
    (hspared : spared ref) : Backed p s' ws after ref c := by
  have hmail : mail p s' ref = mail p s ref := by
    unfold mail
    rw [hf.inbox]
  have hlane : ∀ m ∈ s'.up, m.2.body.mentions ref = true → m.1 = c := by
    intro m hm hmention
    rw [hf.up] at hm
    rcases List.mem_append.mp hm with hm | hm
    · exact h.lane m hm hmention
    · exact Option.some.inj ((hf.lane m hm).symm.trans h.conn)
  refine ⟨hf.conn.trans h.conn, hf.relay ▸ h.reference, hf.relay ▸ h.only, hf.relay ▸ h.link, hlane, ?_⟩
  rcases h.phase with hwait | ⟨i, sub, hstream⟩
  · left
    refine ⟨hf.tags ▸ hwait.untagged, fun m hm => ?_, hf.relay ▸ hwait.silent, hmail.trans hwait.unread⟩
    rw [hf.up] at hm
    rcases List.mem_append.mp hm with hm | hm
    · exact hwait.grounded m hm
    · refine Bool.eq_false_iff.mpr fun hmention => ?_
      obtain ⟨t, ht, heq⟩ := hf.new m hm ref hmention
      exact hwait.untagged t ht heq
  · right
    obtain ⟨sub', hsub', hlive, hcursor, hdelivered⟩ :=
      hf.subs ref hspared c i sub h.conn hstream.tag hstream.alone hstream.opened hstream.live
    refine ⟨i, sub', hf.tags ▸ hstream.tag, hf.tags ▸ hstream.alone, hsub', hlive, hcursor.trans hstream.cursor,
      hmail.trans hstream.unread, ?_⟩
    have hflying : flying s' ref = flying s ref ++ more.filterMap fun m => m.2.sequenceFor ref := by
      unfold flying
      rw [hf.up, List.filterMap_append]
    rw [hf.relay, hflying, hdelivered, ← hstream.delivered, List.append_assoc]

theorem Inv.fed {more : List (Nat × NodeFrame)} (h : Inv p s) (hf : Fed spared s s' more)
    (hspared : ∀ ws after, (ws, some after) ∈ s.acked → ws ∈ s.relay.conns →
      ∃ ref c, Backed p s ws after ref c ∧ spared ref) :
    Inv p s' := by
  have hknown {ref : String} (hr : Known s ref) : Known s' ref := by
    unfold Known
    rw [hf.relay]
    exact hr
  refine {
    feed := hf.feed
    tags := by rw [hf.tags, hf.length]; exact h.tags
    unique := hf.relay ▸ h.unique
    refs := fun k v hv => ?_
    tagged := fun t ht => hknown (h.tagged t (hf.tags ▸ ht))
    read := fun frame hframe ref hm => hknown (h.read frame (hf.inbox ▸ hframe) ref hm)
    sent := fun m hm ref hmention => ?_
    fans := by rw [hf.relay, hf.acked]; exact h.fans
    once := hf.acked ▸ h.once
    below := by rw [hf.relay, hf.acked]; exact h.below
    conns := hf.relay ▸ h.conns
    silent := by rw [hf.relay, hf.acked]; exact h.silent
    backed := fun ws after hws hopen => ?_ }
  · obtain ⟨ref, hk, hr, hin⟩ := h.refs k v (hf.relay ▸ hv)
    exact ⟨ref, hk, hknown hr, hf.acked ▸ hin⟩
  · rw [hf.up] at hm
    rcases List.mem_append.mp hm with hm | hm
    · exact hknown (h.sent m hm ref hmention)
    · obtain ⟨t, ht, heq⟩ := hf.new m hm ref hmention
      exact hknown (heq ▸ h.tagged t ht)
  · obtain ⟨ref, c, hb, hs⟩ := hspared ws after (hf.acked ▸ hws) (hf.relay ▸ hopen)
    exact ⟨ref, c, hb.fed hf hs⟩

/-- A move that spares every reference. -/
theorem Inv.fed_all {more : List (Nat × NodeFrame)} (h : Inv p s) (hf : Fed (fun _ => True) s s' more) : Inv p s' := by
  refine h.fed hf fun ws after hws hopen => ?_
  obtain ⟨ref, c, hb⟩ := h.backed ws after hws hopen
  exact ⟨ref, c, hb, trivial⟩

/-! ## The Node's subscriptions -/

/-- A step of a subscription. -/
structure Delivering (f : Sub → Sub) : Prop where
  live : ∀ sub, (f sub).live = sub.live
  cursor : ∀ sub, (f sub).afterSequence = sub.afterSequence
  grows : ∀ sub, ∃ rows, (f sub).delivered = sub.delivered ++ rows

theorem replayNext_delivering : Delivering replayNext := by
  have hall (sub : Sub) : (replayNext sub).live = sub.live ∧ (replayNext sub).afterSequence = sub.afterSequence ∧
      ∃ rows, (replayNext sub).delivered = sub.delivered ++ rows := by
    unfold replayNext
    split
    · exact ⟨rfl, rfl, [], (List.append_nil _).symm⟩
    · split
      · exact ⟨rfl, rfl, [], (List.append_nil _).symm⟩
      · exact ⟨rfl, rfl, _, rfl⟩
  exact ⟨fun sub => (hall sub).1, fun sub => (hall sub).2.1, fun sub => (hall sub).2.2⟩

theorem drainNext_delivering : Delivering drainNext := by
  have hall (sub : Sub) : (drainNext sub).live = sub.live ∧ (drainNext sub).afterSequence = sub.afterSequence ∧
      ∃ rows, (drainNext sub).delivered = sub.delivered ++ rows := by
    unfold drainNext
    split
    · exact ⟨rfl, rfl, [], (List.append_nil _).symm⟩
    · split
      · exact ⟨rfl, rfl, [], (List.append_nil _).symm⟩
      · split
        · exact ⟨rfl, rfl, [], (List.append_nil _).symm⟩
        · exact ⟨rfl, rfl, _, rfl⟩
  exact ⟨fun sub => (hall sub).1, fun sub => (hall sub).2.1, fun sub => (hall sub).2.2⟩

theorem Fed.refl (h : FeedInv s.feed) : Fed spared s s [] where
  relay := rfl
  conn := rfl
  tags := rfl
  inbox := rfl
  acked := rfl
  feed := h
  length := rfl
  up := (List.append_nil _).symm
  lane := nofun
  new := nofun
  subs := fun _ _ _ _ sub _ _ _ hsub hlive => ⟨sub, hsub, hlive, rfl, (List.append_nil _).symm⟩

theorem sequenceFor_replay {ts : String} {rows : List EventRow} {r : String} {w : Nat} :
    ((rows.map fun row => (⟨ts, .replayEvent r row⟩ : NodeFrame)).map fun f => (w, f)).filterMap
      (fun m => m.2.sequenceFor ref) = if r = ref then rows.map EventRow.sequence else [] := by
  rw [List.map_map, List.filterMap_map]
  split
  · rename_i heq
    rw [← List.filterMap_eq_map]
    exact List.filterMap_congr fun row _ => if_pos heq
  · rename_i hne
    exact List.filterMap_eq_nil_iff.mpr fun row _ => if_neg hne

/-- **A subscription's step**: what it delivers goes out under its own reference, on its own connection. -/
theorem advance_fed {f : Sub → Sub} (hf : Delivering f) (h : Inv p s) {feed : FeedState}
    (hfeed : FeedInv feed) {i : Nat}
    (heq : feed = { s.feed with subs := s.feed.subs.modify i f }) (ts : String) :
      ∃ more, Fed spared s (s.advance i ts feed) more := by
  unfold Net.advance
  cases htag : s.tags[i]? with
  | none => exact ⟨[], Fed.refl h.feed⟩
  | some tag =>
    obtain ⟨r, w⟩ := tag
    have hmod (j : Nat) (sub : Sub) (hsub : s.feed.subs[j]? = some sub) :
        feed.subs[j]? = some (if i = j then f sub else sub) := by
      rw [heq]
      show (s.feed.subs.modify i f)[j]? = _
      rw [List.getElem?_modify, hsub]
      split
      · rename_i hij
        rfl
      · rename_i hij
        rfl
    have hlen : feed.subs.length = s.feed.subs.length := by
      rw [heq]
      exact List.length_modify ..
    simp only
    by_cases hw : s.conn = some w
    · refine ⟨((delivery s.feed feed i).map fun row => (⟨ts, .replayEvent r row⟩ : NodeFrame)).map fun f => (w, f), ?_⟩
      unfold Net.send
      rw [if_pos hw]
      refine ⟨rfl, rfl, rfl, rfl, rfl, hfeed, hlen, rfl, fun m hm => ?_, fun m hm ref hmention => ?_,
        fun ref _ c j sub hc htag' halone hsub hlive => ?_⟩
      · obtain ⟨frame, -, rfl⟩ := List.mem_map.mp hm
        exact hw
      · obtain ⟨frame, hframe, rfl⟩ := List.mem_map.mp hm
        obtain ⟨row, -, rfl⟩ := List.mem_map.mp hframe
        exact ⟨(r, w), List.mem_of_getElem? htag, eq_of_beq hmention⟩
      · refine ⟨_, hmod j sub hsub, ?_⟩
        unfold Continues
        rw [sequenceFor_replay]
        by_cases hij : i = j
        · subst hij
          obtain ⟨rfl, rfl⟩ : r = ref ∧ w = c := by
            have := htag.symm.trans htag'
            exact ⟨congrArg (fun t => t.1) (Option.some.inj this), congrArg (fun t => t.2) (Option.some.inj this)⟩
          obtain ⟨rows, hrows⟩ := hf.grows sub
          have hdelivery : delivery s.feed feed i = rows := by
            unfold delivery
            rw [hmod i sub hsub, hsub, if_pos rfl]
            simp only [Option.elim_some, hrows, List.drop_left]
          rw [if_pos rfl, if_pos rfl, hdelivery, hf.live, hf.cursor, hrows, List.map_append]
          exact ⟨hlive, rfl, rfl⟩
        · rw [if_neg hij, if_neg fun hr => hij (halone i (r, w) htag hr), List.append_nil]
          exact ⟨hlive, rfl, rfl⟩
    · refine ⟨[], ?_⟩
      unfold Net.send
      rw [if_neg hw]
      refine ⟨rfl, rfl, rfl, rfl, rfl, hfeed, hlen, (List.append_nil _).symm, nofun, nofun,
        fun ref _ c j sub hc htag' halone hsub hlive => ?_⟩
      refine ⟨_, hmod j sub hsub, ?_⟩
      have hij : i ≠ j := by
        rintro rfl
        have := htag.symm.trans htag'
        exact hw (hc.trans (congrArg (fun t => some t.2) (Option.some.inj this)).symm)
      rw [if_neg hij]
      exact ⟨hlive, rfl, (List.append_nil _).symm⟩

theorem drain_fed (h : Inv p s) (i : Nat) : Fed spared s { s with feed := feedStep s.feed (.drain i) } [] where
  relay := rfl
  conn := rfl
  tags := rfl
  inbox := rfl
  acked := rfl
  feed := feedStep_inv (a := .drain i) h.feed (fun _ _ heq => nomatch heq)
  length := List.length_modify ..
  up := (List.append_nil _).symm
  lane := nofun
  new := nofun
  subs := by
    intro ref _ c j sub _ _ _ hsub hlive
    have hstart : (startDrain sub).live = sub.live ∧ (startDrain sub).afterSequence = sub.afterSequence ∧
        (startDrain sub).delivered = sub.delivered := by
      unfold startDrain
      split
      · exact ⟨rfl, rfl, rfl⟩
      · exact ⟨rfl, rfl, rfl⟩
    refine ⟨if i = j then startDrain sub else sub, ?_, ?_⟩
    · show (s.feed.subs.modify i startDrain)[j]? = _
      rw [List.getElem?_modify, hsub]
      split <;> rfl
    · unfold Continues
      split
      · rw [hstart.1, hstart.2.1, hstart.2.2]
        exact ⟨hlive, rfl, (List.append_nil _).symm⟩
      · exact ⟨hlive, rfl, (List.append_nil _).symm⟩

/-- A queue with room takes one more event. -/
theorem fanout_room {sub : Sub} (hlive : sub.live = true) (hroom : sub.queue.length < sub.maxQueue) (ev : EventRow) :
    (fanout ev sub).live = true ∧ (fanout ev sub).afterSequence = sub.afterSequence ∧
      (fanout ev sub).delivered = sub.delivered := by
  unfold fanout
  split
  · exact ⟨hlive, rfl, rfl⟩
  · split
    · exact ⟨hlive, rfl, rfl⟩
    · split
      · rename_i hlong
        rw [List.length_append] at hlong
        exact absurd hlong (by simp; omega)
      · exact ⟨hlive, rfl, rfl⟩

/-- What is fanned out by one call of the journal. -/
theorem call_subs (c : JournalCall) {i : Nat} {sub : Sub} (hsub : s.feed.subs[i]? = some sub) (hlive : sub.live = true)
    (hroom : sub.queue.length < sub.maxQueue) :
    ∃ sub', (feedStep s.feed (.call c)).subs[i]? = some sub' ∧ sub'.live = true ∧
      sub'.afterSequence = sub.afterSequence ∧
      sub'.delivered = sub.delivered := by
  show ∃ sub', ((recordedBy c (callJournal s.feed.run.db c).1).foldl
    (fun subs r => subs.map (fanout r.1)) s.feed.subs)[i]? =
    some sub' ∧ _
  cases (callJournal s.feed.run.db c).1 with
  | error e => exact ⟨sub, hsub, hlive, rfl, rfl⟩
  | ok row =>
    cases row with
    | none => exact ⟨sub, hsub, hlive, rfl, rfl⟩
    | some row =>
      refine ⟨fanout row sub, ?_, fanout_room hlive hroom row⟩
      show (s.feed.subs.map (fanout row))[i]? = _
      rw [List.getElem?_map, hsub]
      rfl

theorem journal_fed (h : Inv p s) (c : JournalCall) (ts : String)
    (hroom : ∀ sub ∈ s.feed.subs, sub.live = true → sub.queue.length < sub.maxQueue) :
      ∃ more, Fed spared s (s.journal c ts) more := by
  have hfeed : FeedInv (feedStep s.feed (.call c)) := feedStep_inv h.feed (fun _ _ heq => nomatch heq)
  have hlen : (feedStep s.feed (.call c)).subs.length = s.feed.subs.length := by
    show ((recordedBy c (callJournal s.feed.run.db c).1).foldl
      (fun subs r => subs.map (fanout r.1)) s.feed.subs).length = _
    generalize recordedBy c (callJournal s.feed.run.db c).1 = rows
    generalize s.feed.subs = subs
    induction rows generalizing subs with
    | nil => rfl
    | cons r rows ih => rw [List.foldl_cons, ih, List.length_map]
  -- a live frame is about no reference
  have hfed (up : List (Nat × NodeFrame)) (more : List (Nat × NodeFrame)) (hup : up = s.up ++ more)
      (hlane : ∀ m ∈ more, s.conn = some m.1) (hmore : ∀ m ∈ more, ∃ row, m.2.body = .liveEvent row) :
      Fed spared s { s with feed := feedStep s.feed (.call c), up := up } more := by
    refine ⟨rfl, rfl, rfl, rfl, rfl, hfeed, hlen, hup, hlane, fun m hm ref hmention => ?_,
      fun ref _ w i sub _ _ _ hsub hlive => ?_⟩
    · obtain ⟨row, hrow⟩ := hmore m hm
      rw [hrow] at hmention
      exact nomatch hmention
    · obtain ⟨sub', hsub', hlive', hcursor, hdelivered⟩ :=
        call_subs c hsub hlive (hroom sub (List.mem_of_getElem? hsub) hlive)
      have hnone : (more.filterMap fun m => m.2.sequenceFor ref) = [] := by
        refine List.filterMap_eq_nil_iff.mpr fun m hm => ?_
        obtain ⟨row, hrow⟩ := hmore m hm
        unfold NodeFrame.sequenceFor
        rw [hrow]
      refine ⟨sub', hsub', hlive', hcursor, ?_⟩
      rw [hnone, List.append_nil, hdelivered]
  have hnothing : Fed spared s { s with feed := feedStep s.feed (.call c) } [] :=
    hfed s.up [] (List.append_nil _).symm (fun m hm => nomatch hm) (fun m hm => nomatch hm)
  unfold Net.journal
  dsimp only
  split
  · exact ⟨[], hnothing⟩
  · unfold Net.send
    split
    · rename_i hconn
      refine ⟨_, hfed _ _ rfl (fun m hm => ?_) fun m hm => ?_⟩
      · obtain ⟨frame, -, rfl⟩ := List.mem_map.mp hm
        exact hconn
      · obtain ⟨frame, hframe, rfl⟩ := List.mem_map.mp hm
        obtain ⟨r, -, rfl⟩ := List.mem_map.mp hframe
        exact ⟨r.1, rfl⟩
    · exact ⟨[], hnothing⟩

/-! ## The Node's mail -/

theorem mail_cons {frame : Json} {rest : List Json} (hin : s.inbox = frame :: rest) (ref : String) :
    mail p s ref = if (noteOf p frame).mentions ref then noteOf p frame :: mail p { s with inbox := rest } ref
      else mail p { s with inbox := rest } ref := by
  unfold mail
  rw [hin, List.map_cons, List.filter_cons]

/-- A frame that is not about a subscriber's reference. -/
theorem Backed.skip {frame : Json} {rest : List Json} (h : Backed p s ws after ref c) (hin : s.inbox = frame :: rest)
    (hnote : (noteOf p frame).mentions ref = false) : Backed p { s with inbox := rest } ws after ref c := by
  refine h.relayed rfl rfl rfl (fun k v _ => Iff.rfl) ?_ (fun m hm => hm) h.link rfl
  rw [mail_cons hin, hnote]
  rfl

/-- The Node is not told to close what a subscriber still has. -/
theorem Backed.not_closed {frame : Json} {rest : List Json} (h : Backed p s ws after ref c)
    (hin : s.inbox = frame :: rest) :
    noteOf p frame ≠ .closed ref := by
  intro hnote
  have hmail : mail p s ref = .closed ref :: mail p { s with inbox := rest } ref := by
    rw [mail_cons hin, hnote]
    exact if_pos (beq_self_eq_true ref)
  rcases h.phase with hwait | ⟨i, sub, hstream⟩
  · exact nomatch (List.cons.inj (hmail.symm.trans hwait.unread)).1
  · exact nomatch hmail.symm.trans hstream.unread

theorem Inv.skip {frame : Json} {rest : List Json} (h : Inv p s) (hin : s.inbox = frame :: rest)
    (hnote : ∀ ws after ref c, Backed p s ws after ref c → (noteOf p frame).mentions ref = false) :
    Inv p { s with inbox := rest } where
  feed := h.feed
  tags := h.tags
  unique := h.unique
  refs := h.refs
  tagged := h.tagged
  read := fun frame' hframe => h.read frame' (hin ▸ List.mem_cons_of_mem _ hframe)
  sent := h.sent
  fans := h.fans
  once := h.once
  below := h.below
  conns := h.conns
  silent := h.silent
  backed := by
    intro ws after hws hopen
    obtain ⟨ref, c, hb⟩ := h.backed ws after hws hopen
    exact ⟨ref, c, hb.skip hin (hnote ws after ref c hb)⟩

theorem close_fed (h : FeedInv s.feed) {r : String} {i : Nat} (hi : s.tags.findIdx? (fun t => t.1 = r) = some i) :
    Fed (· ≠ r) s { s with feed := feedStep s.feed (.close i) } [] where
  relay := rfl
  conn := rfl
  tags := rfl
  inbox := rfl
  acked := rfl
  feed := feedStep_inv (a := .close i) h (fun _ _ heq => nomatch heq)
  length := List.length_modify ..
  up := (List.append_nil _).symm
  lane := nofun
  new := nofun
  subs := by
    intro ref href c j sub _ htag _ hsub hlive
    obtain ⟨hlt, hat, -⟩ := List.findIdx?_eq_some_iff_getElem.mp hi
    have hij : i ≠ j := by
      rintro rfl
      rw [List.getElem?_eq_getElem hlt] at htag
      rw [Option.some.inj htag] at hat
      exact href (of_decide_eq_true hat)
    refine ⟨sub, ?_, hlive, rfl, (List.append_nil _).symm⟩
    show (s.feed.subs.modify i closeSub)[j]? = _
    rw [List.getElem?_modify, hsub]
    exact congrArg some (if_neg hij)

/-- The Node opens a subscription. -/
structure Opens (s s' : Net) (c : Nat) (r : String) (a : Int) (more : List (Nat × NodeFrame)) : Prop where
  relay : s'.relay = s.relay
  conn : s'.conn = s.conn
  tags : s'.tags = s.tags ++ [(r, c)]
  inbox : s'.inbox = s.inbox
  acked : s'.acked = s.acked
  feed : s'.feed = feedStep s.feed (.subscribe a defaultMaxQueue)
  up : s'.up = s.up ++ more
  lane : ∀ m ∈ more, s.conn = some m.1
  new : ∀ m ∈ more, ∃ data, m.2.body = .replayMeta r data

theorem receive_opens (s : Net) (c : Nat) (ts : String) (r : String) (a : Int) :
    ∃ more, Opens s (s.receive c ts (.opened r a)) c r a more := by
  unfold Net.receive Net.send
  dsimp only
  split
  · rename_i hconn
    refine ⟨_, rfl, rfl, rfl, rfl, rfl, rfl, rfl, fun m hm => ?_, fun m hm => ?_⟩
    · obtain ⟨frame, -, rfl⟩ := List.mem_map.mp hm
      exact hconn
    · obtain ⟨frame, hframe, rfl⟩ := List.mem_map.mp hm
      obtain ⟨data, -, rfl⟩ := List.mem_map.mp hframe
      exact ⟨data, rfl⟩
  · exact ⟨[], rfl, rfl, rfl, rfl, rfl, rfl, (List.append_nil _).symm, nofun, nofun⟩

section

variable {r : String} {a : Int} {more : List (Nat × NodeFrame)}

theorem Opens.flying (ho : Opens s s' c r a more) (ref : String) : flying s' ref = flying s ref := by
  have hnone : (more.filterMap fun m => m.2.sequenceFor ref) = [] := by
    refine List.filterMap_eq_nil_iff.mpr fun m hm => ?_
    obtain ⟨data, hdata⟩ := ho.new m hm
    unfold NodeFrame.sequenceFor
    rw [hdata]
  unfold VibeReconnect.flying
  rw [ho.up, List.filterMap_append, hnone, List.append_nil]

theorem Opens.lane_of (ho : Opens s s' c r a more) (hconn : s.conn = some c)
    (h : ∀ m ∈ s.up, m.2.body.mentions ref = true → m.1 = c) : ∀ m ∈ s'.up, m.2.body.mentions ref = true → m.1 = c := by
  intro m hm hmention
  rw [ho.up] at hm
  rcases List.mem_append.mp hm with hm | hm
  · exact h m hm hmention
  · exact Option.some.inj ((ho.lane m hm).symm.trans hconn)

theorem Opens.subs (ho : Opens s s' c r a more) :
    s'.feed.subs = s.feed.subs ++ [subscribe s.feed.run.db a defaultMaxQueue] := by
  rw [ho.feed]
  rfl

/-- A subscription of another reference. -/
theorem Backed.beside (h : Backed p s ws after ref c) (ho : Opens s s' c r a more) (hne : r ≠ ref) :
    Backed p s' ws after ref c := by
  have hmail : mail p s' ref = mail p s ref := by
    unfold mail
    rw [ho.inbox]
  refine ⟨ho.conn.trans h.conn, ho.relay ▸ h.reference, ho.relay ▸ h.only, ho.relay ▸ h.link,
    ho.lane_of h.conn h.lane, ?_⟩
  rcases h.phase with hwait | ⟨i, sub, hstream⟩
  · left
    refine ⟨fun t ht => ?_, fun m hm => ?_, ho.relay ▸ hwait.silent, hmail.trans hwait.unread⟩
    · rw [ho.tags] at ht
      rcases List.mem_append.mp ht with ht | ht
      · exact hwait.untagged t ht
      · rw [List.mem_singleton.mp ht]
        exact hne
    · rw [ho.up] at hm
      rcases List.mem_append.mp hm with hm | hm
      · exact hwait.grounded m hm
      · obtain ⟨data, hdata⟩ := ho.new m hm
        rw [hdata]
        exact beq_eq_false_iff_ne.mpr hne
  · right
    have hlt : i < s.tags.length := (List.getElem?_eq_some_iff.mp hstream.tag).1
    have hlt' : i < s.feed.subs.length := (List.getElem?_eq_some_iff.mp hstream.opened).1
    refine ⟨i, sub, ?_, fun j t hj ht => ?_, ?_, hstream.live, hstream.cursor, hmail.trans hstream.unread, ?_⟩
    · rw [ho.tags, List.getElem?_append_left hlt]
      exact hstream.tag
    · rw [ho.tags] at hj
      by_cases hjlt : j < s.tags.length
      · rw [List.getElem?_append_left hjlt] at hj
        exact hstream.alone j t hj ht
      · rw [List.getElem?_append_right (by omega)] at hj
        have hmem := List.mem_singleton.mp (List.mem_of_getElem? hj)
        rw [hmem] at ht
        exact absurd ht hne
    · rw [ho.subs, List.getElem?_append_left hlt']
      exact hstream.opened
    · rw [ho.relay, ho.flying]
      exact hstream.delivered

/-- **The subscription of the reference itself**: the subscriber's stream begins. -/
theorem Backed.begins {frame : Json} {rest : List Json} (h : Backed p s ws after ref c)
    (hlen : s.tags.length = s.feed.subs.length)
    (hin : s.inbox = frame :: rest) (hnote : noteOf p frame = .opened ref a)
    (ho : Opens { s with inbox := rest } s' c ref a more) : Backed p s' ws after ref c := by
  have hmail : mail p s ref = .opened ref a :: mail p { s with inbox := rest } ref := by
    rw [mail_cons hin, hnote]
    exact if_pos (beq_self_eq_true ref)
  refine ⟨ho.conn.trans h.conn, ho.relay ▸ h.reference, ho.relay ▸ h.only, ho.relay ▸ h.link,
    ho.lane_of h.conn h.lane, ?_⟩
  rcases h.phase with hwait | ⟨i, sub, hstream⟩
  · right
    obtain ⟨hopen, hrest⟩ := List.cons.inj (hmail.symm.trans hwait.unread)
    obtain rfl : a = after := (Note.opened.inj hopen).2
    refine ⟨s.tags.length, subscribe s.feed.run.db a defaultMaxQueue, ?_, fun j t hj ht => ?_, ?_, rfl, rfl, ?_, ?_⟩
    · rw [ho.tags, List.getElem?_append_right (le_refl _), Nat.sub_self]
      rfl
    · rw [ho.tags] at hj
      by_cases hjlt : j < s.tags.length
      · rw [List.getElem?_append_left hjlt] at hj
        exact absurd ht (hwait.untagged t (List.mem_of_getElem? hj))
      · have hle := (List.getElem?_eq_some_iff.mp hj).1
        rw [List.length_append] at hle
        simp at hle
        omega
    · rw [ho.subs, List.getElem?_append_right (by simp [hlen]), hlen, Nat.sub_self]
      rfl
    · show mail p s' ref = []
      unfold mail at hrest ⊢
      rw [ho.inbox]
      exact hrest
    · rw [ho.relay, ho.flying]
      have hground : VibeReconnect.flying { s with inbox := rest } ref = [] := flying_grounded hwait.grounded
      rw [hground, List.append_nil]
      exact hwait.silent
  · exact nomatch hmail.symm.trans hstream.unread

theorem Inv.opens {frame : Json} {rest : List Json} (h : Inv p s) (hconn : s.conn = some c)
    (hin : s.inbox = frame :: rest)
    (hnote : noteOf p frame = .opened r a) (ho : Opens { s with inbox := rest } s' c r a more)
    (hfits : (s.feed.run.db.eventsAfter a).length ≤ readLimit ∧ ∀ run ∈ s.feed.run.db.run, a ≤ run.lastSequence) :
    Inv p s' := by
  have hknown {ref : String} (hr : Known s ref) : Known s' ref := by
    unfold Known
    rw [ho.relay]
    exact hr
  have hr : Known s r := h.read frame (hin ▸ List.mem_cons_self) r (hnote ▸ beq_self_eq_true r)
  refine {
    feed := ?_
    tags := by rw [ho.tags, ho.subs, List.length_append, List.length_append]; exact congrArg (· + 1) h.tags
    unique := ho.relay ▸ h.unique
    refs := fun k v hv => ?_
    tagged := fun t ht => ?_
    read := fun frame' hframe ref hm => ?_
    sent := fun m hm ref hmention => ?_
    fans := by rw [ho.relay, ho.acked]; exact h.fans
    once := ho.acked ▸ h.once
    below := by rw [ho.relay, ho.acked]; exact h.below
    conns := ho.relay ▸ h.conns
    silent := by rw [ho.relay, ho.acked]; exact h.silent
    backed := fun ws after hws hopen => ?_ }
  · rw [ho.feed]
    refine feedStep_inv h.feed ?_
    rintro _ _ ⟨⟩
    exact ⟨hfits.1, fun run hrun => hfits.2 run hrun⟩
  · obtain ⟨ref, hk, href, hacked⟩ := h.refs k v (ho.relay ▸ hv)
    exact ⟨ref, hk, hknown href, ho.acked ▸ hacked⟩
  · rw [ho.tags] at ht
    rcases List.mem_append.mp ht with ht | ht
    · exact hknown (h.tagged t ht)
    · rw [List.mem_singleton.mp ht]
      exact hknown hr
  · rw [ho.inbox] at hframe
    exact hknown (h.read frame' (hin ▸ List.mem_cons_of_mem _ hframe) ref hm)
  · rw [ho.up] at hm
    rcases List.mem_append.mp hm with hm | hm
    · exact hknown (h.sent m hm ref hmention)
    · obtain ⟨data, hdata⟩ := ho.new m hm
      rw [hdata] at hmention
      exact hknown (eq_of_beq hmention ▸ hr)
  · obtain ⟨ref, c', hb⟩ := h.backed ws after (ho.acked ▸ hws) (ho.relay ▸ hopen)
    obtain rfl : c' = c := Option.some.inj (hb.conn.symm.trans hconn)
    refine ⟨ref, c', ?_⟩
    by_cases hne : r = ref
    · subst hne
      exact hb.begins h.tags hin hnote ho
    · refine (hb.skip hin ?_).beside ho hne
      rw [hnote]
      exact beq_eq_false_iff_ne.mpr hne

/-- **The Node reads a frame.** -/
theorem Inv.reads {frame : Json} {rest : List Json} (h : Inv p s) (hconn : s.conn = some c)
    (hin : s.inbox = frame :: rest)
    (hfits : ∀ ref after, noteOf p frame = .opened ref after →
      (s.feed.run.db.eventsAfter after).length ≤ readLimit ∧ ∀ run ∈ s.feed.run.db.run, after ≤ run.lastSequence)
    (ts : String) : Inv p ({ s with inbox := rest }.receive c ts (noteOf p frame)) := by
  cases hnote : noteOf p frame with
  | opened r a =>
    obtain ⟨more, ho⟩ := receive_opens { s with inbox := rest } c ts r a
    exact h.opens hconn hin hnote ho (hfits r a hnote)
  | closed r =>
    have hother {ref : String} (hne : ref ≠ r) : (noteOf p frame).mentions ref = false := by
      rw [hnote]
      exact beq_eq_false_iff_ne.mpr hne.symm
    have hspared {ws : Nat} {after : Int} {ref : String} {c : Nat} (hb : Backed p s ws after ref c) : ref ≠ r := by
      rintro rfl
      exact hb.not_closed hin hnote
    have hskip : Inv p { s with inbox := rest } := h.skip hin fun ws after ref c hb => hother (hspared hb)
    unfold Net.receive
    dsimp only
    split
    · exact hskip
    · rename_i i hi
      refine hskip.fed (close_fed hskip.feed hi) fun ws after hws hopen => ?_
      obtain ⟨ref, c, hb⟩ := h.backed ws after hws hopen
      exact ⟨ref, c, hb.skip hin (hother (hspared hb)), hspared hb⟩
  | other =>
    refine h.skip hin fun ws after ref c hb => ?_
    rw [hnote]
    rfl

end

end

end VibeReconnect
