import VibeWorkflow.ReplayStreamProofs

/-!
# Replay across reconnects

The relay's moves, the coming of a subscriber, and the Node's connections; with the Node's own moves
these are all there are.

* `Inv.relays`, `Inv.closed` — the relay reads a frame, and sees the end of a socket;
* `Inv.subscribes` — a subscriber with a cursor, while the owner is online;
* **`replay_survives`** — it is sent each event after its cursor once, in every run in which the owner is
  online when it subscribes and no connection of the owner ends under an open reference.
-/

namespace VibeReconnect

open VibeJson VibeJournal VibeRelayServer KeyedMap CallRuns
open VibeResult (field)
open VibeRelay (defaultMaxQueue)

/-! ## The relay's moves -/

section

variable {p : Parties} {s s' : Net} {ws c n : Nat} {after : Int} {ref : String}

/-- What a move of the relay does. -/
structure Moves (p : Parties) (s s' : Net) (extra : List (Nat × Json)) : Prop where
  conn : s'.conn = s.conn
  tags : s'.tags = s.tags
  feed : s'.feed = s.feed
  acked : s'.acked = s.acked
  inbox : s'.inbox = s.inbox ++ (extra.filter fun m => s.conn = some m.1).map Prod.snd
  sent : s'.relay.sent = s.relay.sent ++ extra
  numbers : s.relay.replaySeq ≤ s'.relay.replaySeq
  up : ∀ m ∈ s'.up, m ∈ s.up
  unique : Unique s'.relay.replayRefs
  refs : ∀ k v, get s'.relay.replayRefs k = some v → get s.relay.replayRefs k = some v ∨
    ∃ ref, k = .str ref ∧ Known s' ref ∧ v.1 ∈ s.acked.map Prod.fst
  fans : ∀ ws, Fan p s'.relay ws → Fan p s.relay ws ∨ (ws, none) ∈ s.acked
  sockets : s.relay.sockets ≤ s'.relay.sockets
  conns : ∀ ws ∈ s'.relay.conns, ws < s'.relay.sockets
  notes : ∀ m ∈ extra, ∀ ref, (noteOf p m.2).mentions ref = true → Known s' ref
  silent : ∀ ws, ws ∉ s.acked.map Prod.fst → heard extra ws = []

theorem Known.later {ref : String} (h : Known s ref) (hle : s.relay.replaySeq ≤ s'.relay.replaySeq) : Known s' ref := by
  obtain ⟨now, seq, hlt, heq⟩ := h
  exact ⟨now, seq, hlt.trans_le hle, heq⟩

theorem Base.moves {extra : List (Nat × Json)} (h : Base p s) (hm : Moves p s s' extra)
    (hbacked : ∀ ws after, (ws, some after) ∈ s.acked → ws ∈ s'.relay.conns → ∃ ref c, Backed p s' ws after ref c) :
    Inv p s' := by
  refine {
    feed := hm.feed ▸ h.feed
    tags := by rw [hm.tags, hm.feed]; exact h.tags
    unique := hm.unique
    refs := fun k v hv => ?_
    tagged := fun t ht => (h.tagged t (hm.tags ▸ ht)).later hm.numbers
    read := fun frame hframe ref hmention => ?_
    sent := fun m hin ref hmention => (h.sent m (hm.up m hin) ref hmention).later hm.numbers
    fans := fun ws hws => ?_
    once := hm.acked ▸ h.once
    below := fun ws hws => (h.below ws (hm.acked ▸ hws)).trans_le hm.sockets
    conns := hm.conns
    silent := fun ws hws => ?_
    backed := fun ws after hws hopen => hbacked ws after (hm.acked ▸ hws) hopen }
  · rw [hm.acked]
    rcases hm.refs k v hv with hold | hnew
    · obtain ⟨ref, hk, hr, hin⟩ := h.refs k v hold
      exact ⟨ref, hk, hr.later hm.numbers, hin⟩
    · exact hnew
  · rw [hm.inbox] at hframe
    rcases List.mem_append.mp hframe with hframe | hframe
    · exact (h.read frame hframe ref hmention).later hm.numbers
    · obtain ⟨m, hin, rfl⟩ := List.mem_map.mp hframe
      exact hm.notes m (List.mem_filter.mp hin).1 ref hmention
  · rw [hm.acked]
    rcases hm.fans ws hws with hold | hnew
    · exact h.fans ws hold
    · exact hnew
  · rw [hm.acked] at hws
    rw [sequencesTo_append hm.sent, h.silent ws hws, hm.silent ws hws]
    rfl

/-- The mail of a reference that the new frames are not about. -/
theorem Moves.mail {extra : List (Nat × Json)} (hm : Moves p s s' extra)
    (hnone : ∀ m ∈ extra, (noteOf p m.2).mentions ref = false) : mail p s' ref = mail p s ref := by
  unfold VibeReconnect.mail
  rw [hm.inbox, List.map_append, List.filter_append]
  refine (congrArg _ (List.filter_eq_nil_iff.mpr fun note hnote => ?_)).trans (List.append_nil _)
  obtain ⟨frame, hframe, rfl⟩ := List.mem_map.mp hnote
  obtain ⟨m, hin, rfl⟩ := List.mem_map.mp hframe
  rw [hnone m (List.mem_filter.mp hin).1]
  exact Bool.false_ne_true

/-- A socket that is connected. -/
theorem Inv.connected (h : Inv p s) (hd : s.relay.down = false) :
    Inv p { s.hear (s.relay.step p.cfg .connect) with callers := s.callers ++ [s.relay.sockets] } := by
  rw [relay_connect hd]
  have hm : Moves p s { s.hear { s.relay with conns := s.relay.conns ++ [s.relay.sockets], sockets := s.relay.sockets + 1 } with
      callers := s.callers ++ [s.relay.sockets] } [] := by
    refine ⟨rfl, rfl, rfl, rfl, ?_, (List.append_nil _).symm, le_refl _, fun m hm => hm, h.unique,
      fun k v hv => .inl hv,
      fun ws hws => .inl hws, Nat.le_succ _, fun ws hws => ?_, nofun, fun _ _ => rfl⟩
    · exact hear_inbox (show s.relay.sent = s.relay.sent ++ [] from (List.append_nil _).symm)
    · rcases List.mem_append.mp hws with hold | hnew
      · exact (h.conns ws hold).trans (Nat.lt_succ_self _)
      · rw [List.mem_singleton.mp hnew]
        exact Nat.lt_succ_self _
  refine h.toBase.moves hm fun ws after hws hopen => ?_
  have hold : ws ∈ s.relay.conns := by
    rcases List.mem_append.mp hopen with hold | hnew
    · exact hold
    · have hlt := h.below ws (List.mem_map_of_mem hws)
      exact absurd (List.mem_singleton.mp hnew) (by omega)
  obtain ⟨ref, c, hb⟩ := h.backed ws after hws hold
  exact ⟨ref, c, hb.relayed rfl rfl rfl (fun k v _ => Iff.rfl) (hm.mail nofun) (fun m hm => hm)
    (List.mem_append_left _ hb.link) rfl⟩

theorem flying_filter {w : Nat} (hlane : ∀ m ∈ s.up, m.2.body.mentions ref = true → m.1 = c) (hw : c ≠ w) :
    flying { s with up := s.up.filter fun m => m.1 ≠ w } ref = flying s ref := by
  unfold flying
  show (s.up.filter fun m => m.1 ≠ w).filterMap _ = _
  generalize s.up = up at hlane ⊢
  induction up with
  | nil => rfl
  | cons m rest ih =>
    have hrest := ih fun m hm => hlane m (List.mem_cons_of_mem _ hm)
    by_cases hm : m.1 = w
    · have hnone : m.2.sequenceFor ref = none := by
        obtain ⟨w', ts, b⟩ := m
        cases b with
        | replayEvent r row =>
          refine if_neg fun heq => hw ?_
          exact (hlane _ List.mem_cons_self (heq ▸ beq_self_eq_true r)).symm.trans hm
        | _ => rfl
      rw [List.filter_cons_of_neg (by simpa using hm), List.filterMap_cons, hnone]
      exact hrest
    · rw [List.filter_cons_of_pos (by simpa using hm), List.filterMap_cons, List.filterMap_cons, hrest]

theorem fan_dropSocket {r r' : Relay} {w ws : Nat} (h : r'.subscribers = dropSocket r.subscribers w)
    (hf : Fan p r' ws) :
    Fan p r ws := by
  obtain ⟨sockets, hin, hws⟩ := hf
  rw [h] at hin
  obtain ⟨⟨k, old⟩, hold, heq⟩ := List.mem_map.mp (List.mem_filter.mp hin).1
  obtain ⟨hk, hs⟩ := Prod.mk.inj heq
  subst hs
  exact ⟨old, hk ▸ hold, (List.mem_filter.mp hws).1⟩

/-- A subscriber has no reference when there is none. -/
theorem Backed.nonempty (h : Backed p s ws after ref c) : s.relay.replayRefs.isEmpty = false := by
  cases hr : s.relay.replayRefs with
  | nil =>
    have hget := h.reference
    rw [hr] at hget
    exact nomatch hget
  | cons a rest => rfl

/-- **A socket that the relay sees closed**, unless it is the Node's own under an open reference. -/
theorem Inv.closed {w now : Nat} (h : Inv p s) (hd : s.relay.down = false)
    (hkept : s.conn = some w → s.relay.replayRefs.isEmpty = true) :
    Inv p { s.hear (s.relay.step p.cfg (.close w now)) with up := s.up.filter fun m => m.1 ≠ w } := by
  have hup : ∀ m ∈ s.up.filter (fun m => m.1 ≠ w), m ∈ s.up := fun m hm => (List.mem_filter.mp hm).1
  by_cases hw : w ∈ s.relay.conns
  · rw [step_close hd hw]
    have hl : Leaves p.cfg w now s.relay (s.relay.close p.cfg w now) := close_leaves_refs h.unique
    obtain ⟨extra, hsent, htold⟩ := hl.told
    -- what is sent are closings of the socket's own references
    have hquiet (m : Nat × Json) (hm : m ∈ extra) : eventSequence m.2 = none := by
      obtain ⟨r, -, -, owner, heq⟩ := htold m hm
      rw [heq]
      exact (closeFrame_note (p := p) owner r).1
    have hnotes (m : Nat × Json) (hm : m ∈ extra) (ref : String) (hmention : (noteOf p m.2).mentions ref = true) :
        ∃ v, get s.relay.replayRefs (.str ref) = some v ∧ v.1 = w := by
      obtain ⟨⟨k, v⟩, hin, hv, owner, heq⟩ := htold m hm
      rw [heq] at hmention
      have hk : k = .str ref := (closeFrame_note owner (k, v)).2 ref hmention
      exact ⟨v, hk ▸ get_of_mem h.unique hin, hv⟩
    have hm : Moves p s { s.hear (s.relay.close p.cfg w now) with up := s.up.filter fun m => m.1 ≠ w } extra := by
      refine ⟨rfl, rfl, rfl, rfl, hear_inbox hsent, hsent, le_of_eq hl.numbers.symm, hup, hl.unique,
        fun k v hv => .inl ((hl.left k v).mp hv).1, fun ws hf => .inl (fan_dropSocket hl.fans hf),
          le_of_eq hl.sockets.symm,
        fun ws hws => ?_, fun m hm ref hmention => ?_, fun ws _ => heard_nil fun m hm _ => hquiet m hm⟩
      · have hws : ws ∈ s.relay.conns.filter fun x => x ≠ w := hl.conns ▸ hws
        exact (h.conns ws (List.mem_filter.mp hws).1).trans_le (le_of_eq hl.sockets.symm)
      · obtain ⟨v, hv, -⟩ := hnotes m hm ref hmention
        obtain ⟨ref', hk, hknown, -⟩ := h.refs _ v hv
        exact (Key.str.inj hk ▸ hknown).later (le_of_eq hl.numbers.symm)
    refine h.toBase.moves hm fun ws after hws hopen => ?_
    have hconns : ws ∈ s.relay.conns.filter fun x => x ≠ w := hl.conns ▸ hopen
    obtain ⟨hold, hne⟩ := List.mem_filter.mp hconns
    have hne : ws ≠ w := of_decide_eq_true hne
    obtain ⟨ref, c, hb⟩ := h.backed ws after hws hold
    have hcw : c ≠ w := by
      rintro rfl
      have hempty := hkept hb.conn
      rw [hb.nonempty] at hempty
      exact nomatch hempty
    refine ⟨ref, c, hb.relayed rfl rfl rfl (fun k v hv => ?_) (hm.mail fun m hin => ?_) hup ?_ ?_⟩
    · exact ⟨fun h' => ((hl.left k v).mp h').1, fun h' => (hl.left k v).mpr ⟨h', hv ▸ hne⟩⟩
    · refine Bool.eq_false_iff.mpr fun hmention => ?_
      obtain ⟨v, hv, hvw⟩ := hnotes m hin ref hmention
      obtain rfl := Option.some.inj (hb.reference.symm.trans hv)
      exact hne hvw
    · show c ∈ (s.relay.close p.cfg w now).conns
      rw [hl.conns]
      exact List.mem_filter.mpr ⟨hb.link, decide_eq_true hcw⟩
    · show (s.relay.close p.cfg w now).sequencesTo ws ++ flying { s with up := s.up.filter fun m => m.1 ≠ w } ref = _
      rw [sequencesTo_append hsent, heard_nil fun m hm _ => hquiet m hm, List.append_nil, flying_filter hb.lane hcw]
  · have hstep : s.relay.step p.cfg (.close w now) = s.relay := by
      unfold Relay.step
      dsimp only
      rw [hd, if_neg Bool.false_ne_true, if_neg hw]
    rw [hstep]
    have hm : Moves p s { s.hear s.relay with up := s.up.filter fun m => m.1 ≠ w } [] := by
      refine ⟨rfl, rfl, rfl, rfl, ?_, (List.append_nil _).symm, le_refl _, hup, h.unique, fun k v hv => .inl hv,
        fun ws hws => .inl hws, le_refl _, h.conns, nofun, fun _ _ => rfl⟩
      exact hear_inbox (show s.relay.sent = s.relay.sent ++ [] from (List.append_nil _).symm)
    refine h.toBase.moves hm fun ws after hws hopen => ?_
    obtain ⟨ref, c, hb⟩ := h.backed ws after hws hopen
    have hcw : c ≠ w := by
      rintro rfl
      exact hw hb.link
    refine ⟨ref, c, hb.relayed rfl rfl rfl (fun k v _ => Iff.rfl) (hm.mail nofun) hup hb.link ?_⟩
    exact congrArg (s.relay.sequencesTo ws ++ ·) (flying_filter hb.lane hcw)

theorem sequenceFor_none {f : NodeFrame} (h : f.body.mentions ref = false) : f.sequenceFor ref = none := by
  obtain ⟨ts, b⟩ := f
  cases b with
  | replayEvent r row => exact if_neg fun heq => by simp [Body.mentions, heq] at h
  | _ => rfl

/-- The first frame of a socket is taken. -/
theorem flying_take {w : Nat} {m : Nat × NodeFrame} (hfind : s.up.find? (fun m => m.1 = w) = some m)
    (hlane : ∀ m ∈ s.up, m.2.body.mentions ref = true → m.1 = c) :
    flying s ref = (m.2.sequenceFor ref).toList ++ flying { s with up := s.up.eraseP fun m => m.1 = w } ref := by
  obtain ⟨hm, pre, post, hup, hpre⟩ := List.find?_eq_some_iff_append.mp hfind
  have hm : m.1 = w := of_decide_eq_true hm
  have hpre : ∀ x ∈ pre, ¬ (decide (x.1 = w) = true) := fun x hx h => by simpa [h] using hpre x hx
  have herase : (s.up.eraseP fun m => m.1 = w) = pre ++ post := by
    rw [hup, List.eraseP_append_right _ hpre, List.eraseP_cons, hm]
    simp
  unfold flying
  show s.up.filterMap _ = _ ++ (s.up.eraseP fun m => m.1 = w).filterMap _
  rw [herase, hup, List.filterMap_append, List.filterMap_append, List.filterMap_cons]
  cases hseq : m.2.sequenceFor ref with
  | none => rfl
  | some n =>
    -- the frame is about the reference, so those before it are not: they are on other connections
    have hmention : m.2.body.mentions ref = true := by
      refine Bool.eq_true_of_not_eq_false fun hfalse => ?_
      rw [sequenceFor_none hfalse] at hseq
      exact nomatch hseq
    have hc : c = w := (hlane m (hup ▸ List.mem_append_right _ List.mem_cons_self) hmention).symm.trans hm
    have hnone : (pre.filterMap fun m => m.2.sequenceFor ref) = [] := by
      refine List.filterMap_eq_nil_iff.mpr fun x hx => sequenceFor_none ?_
      refine Bool.eq_false_iff.mpr fun hx' => hpre x hx ?_
      exact decide_eq_true ((hlane x (hup ▸ List.mem_append_left _ hx) hx').trans hc)
    rw [hnone]
    rfl

/-- What a socket with a reference hears of a frame. -/
theorem Relayed.heard_own {f : NodeFrame} {r' : Relay} {extra : List (Nat × Json)} (hr : Relayed p f s.relay r' extra)
    (hb : Backed p s ws after ref c) (hopen : ws ∈ s.relay.conns) (hfan : ¬ Fan p s.relay ws) :
    heard extra ws = (f.sequenceFor ref).toList := by
  cases hmention : f.body.mentions ref with
  | true =>
    rw [hr.own ref _ hmention hb.reference hopen]
    show List.filterMap _ [(ws, wire p f)] = _
    rw [List.filterMap_cons, if_pos rfl, eventSequence_wire f ref hmention]
    cases f.sequenceFor ref <;> rfl
  | false =>
    rw [sequenceFor_none hmention]
    refine heard_nil fun m hm hws => ?_
    rcases hr.told m hm with hquiet | ⟨ref', v, hmention', hv, hmv⟩ | hin
    · exact hquiet
    · obtain rfl := Key.str.inj (hb.only _ v hv (hmv.symm.trans hws))
      rw [hmention'] at hmention
      exact nomatch hmention
    · cases hget : get s.relay.subscribers (.str p.runId) with
      | none =>
        rw [hget] at hin
        exact nomatch hin
      | some sockets =>
        rw [hget] at hin
        exact absurd ⟨sockets, get_mem hget, hws ▸ hin⟩ hfan

/-- **The relay reads a frame of the Node.** -/
theorem Inv.relays {w now : Nat} {m : Nat × NodeFrame} (h : Inv p s) (hd : s.relay.down = false)
    (hfind : s.up.find? (fun m => m.1 = w) = some m)
    (hup' : (s.relay.step p.cfg (.message w now (some (wire p m.2)))).down = false) :
    Inv p { s.hear (s.relay.step p.cfg (.message w now (some (wire p m.2)))) with up := s.up.eraseP fun m => m.1 = w } := by
  have hup : ∀ x ∈ s.up.eraseP (fun m => m.1 = w), x ∈ s.up := fun x hx => List.mem_of_mem_eraseP hx
  have hfan {ws : Nat} {after : Int} (hws : (ws, some after) ∈ s.acked) : ¬ Fan p s.relay ws := by
    intro hf
    have hnone := h.fans ws hf
    exact nomatch (Prod.mk.inj (List.inj_on_of_nodup_map h.once hws hnone rfl)).2
  by_cases hw : w ∈ s.relay.conns
  · rcases relay_wire m.2 hd hw with hdown | ⟨extra, hr⟩
    · rw [hup'] at hdown
      exact nomatch hdown
    generalize s.relay.step p.cfg (.message w now (some (wire p m.2))) = r' at hr ⊢
    have hm : Moves p s { s.hear r' with up := s.up.eraseP fun m => m.1 = w } extra := by
      refine ⟨rfl, rfl, rfl, rfl, hear_inbox hr.sent, hr.sent, le_of_eq hr.numbers.symm, hup, ?_,
        fun k v hv => .inl (hr.refs ▸ hv), ?_, le_of_eq hr.sockets.symm, fun ws hws => ?_, fun x hx ref hmention => ?_,
        fun ws hws => heard_nil fun x hx hxw => ?_⟩
      · show Unique r'.replayRefs
        rw [hr.refs]
        exact h.unique
      · rintro ws ⟨sockets, hin, hws⟩
        exact .inl ⟨sockets, hr.fans ▸ hin, hws⟩
      · exact (h.conns ws (hr.conns ▸ hws)).trans_le (le_of_eq hr.sockets.symm)
      · rw [hr.notes x hx] at hmention
        exact nomatch hmention
      · rcases hr.told x hx with hquiet | ⟨ref', v, -, hv, hxv⟩ | hin
        · exact hquiet
        · obtain ⟨-, -, -, hacked⟩ := h.refs _ v hv
          exact absurd (hxw ▸ hxv ▸ hacked) hws
        · cases hget : get s.relay.subscribers (.str p.runId) with
          | none =>
            rw [hget] at hin
            exact nomatch hin
          | some sockets =>
            rw [hget] at hin
            exact absurd (List.mem_map_of_mem (h.fans ws ⟨sockets, get_mem hget, hxw ▸ hin⟩)) hws
    refine h.toBase.moves hm fun ws after hws hopen => ?_
    have hold : ws ∈ s.relay.conns := hr.conns ▸ hopen
    obtain ⟨ref, c, hb⟩ := h.backed ws after hws hold
    refine ⟨ref, c, hb.relayed rfl rfl rfl (fun k v _ => ?_) (hm.mail fun x hx => ?_) hup ?_ ?_⟩
    · show get r'.replayRefs k = some v ↔ _
      rw [hr.refs]
    · rw [hr.notes x hx]
      rfl
    · show c ∈ r'.conns
      rw [hr.conns]
      exact hb.link
    · show r'.sequencesTo ws ++ flying { s with up := s.up.eraseP fun m => m.1 = w } ref = _
      rw [sequencesTo_append hr.sent, hr.heard_own hb hold (hfan hws), flying_take hfind hb.lane, List.append_assoc]
  · -- a frame of a socket that is closed is lost
    have hstep : s.relay.step p.cfg (.message w now (some (wire p m.2))) = s.relay := by
      unfold Relay.step
      dsimp only
      rw [hd, if_neg Bool.false_ne_true, if_neg hw]
    rw [hstep]
    have hm : Moves p s { s.hear s.relay with up := s.up.eraseP fun m => m.1 = w } [] := by
      refine ⟨rfl, rfl, rfl, rfl, ?_, (List.append_nil _).symm, le_refl _, hup, h.unique, fun k v hv => .inl hv,
        fun ws hws => .inl hws, le_refl _, h.conns, nofun, fun _ _ => rfl⟩
      exact hear_inbox (show s.relay.sent = s.relay.sent ++ [] from (List.append_nil _).symm)
    refine h.toBase.moves hm fun ws after hws hopen => ?_
    obtain ⟨ref, c, hb⟩ := h.backed ws after hws hopen
    have hnone : m.2.body.mentions ref = false := by
      refine Bool.eq_false_iff.mpr fun hmention => hw ?_
      have hmw : m.1 = w := by simpa using List.find?_some hfind
      rw [← hmw, hb.lane m (List.mem_of_find?_eq_some hfind) hmention]
      exact hb.link
    refine ⟨ref, c, hb.relayed rfl rfl rfl (fun k v _ => Iff.rfl) (hm.mail nofun) hup hb.link ?_⟩
    show s.relay.sequencesTo ws ++ flying { s with up := s.up.eraseP fun m => m.1 = w } ref = _
    rw [flying_take hfind hb.lane, sequenceFor_none hnone]
    rfl

/-! ## A new subscriber -/

section

variable {r : Relay} {w now : Nat} {ts : String}

theorem dispatch_subscribe (after : Option Int) : r.dispatch p.cfg w now ⟨n, subscribeFrame p ts after⟩ =
    .returned (r.subscribe p.cfg w now ⟨n, subscribeFrame p ts after⟩) := by
  cases after <;> rfl

theorem relay_joins (hd : r.down = false) (hw : w ∈ r.conns) :
    r.step p.cfg (.message w now (some (subscribeFrame p ts none))) = { r with
      frames := r.frames + 1
      subscribers := VibeRelayServer.subscribed r.subscribers (.str p.runId) w
      sent := r.sent ++ [(w, subscribeAck p.cfg now ⟨r.frames, subscribeFrame p ts none⟩)] } := by
  rw [relay_message hd hw rfl (dispatch_subscribe none)]
  exact subscribe_joins (s := { r with frames := r.frames + 1 }) rfl hw

theorem relay_opens {e : Entry} (hd : r.down = false) (hw : w ∈ r.conns) (he : runEntry p r = some e)
    (hew : e.ws ∈ r.conns)
    (a : Int) :
    ∃ owner, r.step p.cfg (.message w now (some (subscribeFrame p ts (some a)))) = { r with
      frames := r.frames + 1
      replaySeq := r.replaySeq + 1
      replayRefs := set r.replayRefs (.str (refName now r.replaySeq)) (w, runVal p)
      sent := r.sent ++ [(w, subscribeAck p.cfg now ⟨r.frames, subscribeFrame p ts (some a)⟩),
        (e.ws, openFrame p.cfg now owner (runVal p) (.num (.ofInt a)) (refName now r.replaySeq))] } := by
  rw [relay_message hd hw rfl (dispatch_subscribe (some a))]
  exact ⟨_, subscribe_opens (s := { r with frames := r.frames + 1 }) rfl he hw hew⟩

end

theorem Base.acknowledged {w : Nat} (h : Base p s) (hw : w ∈ s.relay.conns) (hnew : w ∉ s.acked.map Prod.fst)
    (after : Option Int) : Base p { s with acked := s.acked ++ [(w, after)] } := by
  refine {
    feed := h.feed
    tags := h.tags
    unique := h.unique
    refs := fun k v hv => ?_
    tagged := h.tagged
    read := h.read
    sent := h.sent
    fans := fun ws hws => List.mem_append_left _ (h.fans ws hws)
    once := ?_
    below := fun ws hws => ?_
    conns := h.conns
    silent := fun ws hws => h.silent ws fun hin => hws ?_ }
  · obtain ⟨ref, hk, hr, hin⟩ := h.refs k v hv
    refine ⟨ref, hk, hr, ?_⟩
    rw [List.map_append]
    exact List.mem_append_left _ hin
  · rw [List.map_append]
    exact h.once.append (List.nodup_singleton _) (List.disjoint_singleton.mpr hnew)
  · rw [List.map_append] at hws
    rcases List.mem_append.mp hws with hws | hws
    · exact h.below ws hws
    · rw [List.mem_singleton.mp hws]
      exact h.conns w hw
  · rw [List.map_append]
    exact List.mem_append_left _ hin

/-- A subscriber without a cursor joins the fan-out. -/
theorem Inv.joins {w now : Nat} {ts : String} (h : Inv p s) (hd : s.relay.down = false) (hw : w ∈ s.relay.conns)
    (hnew : w ∉ s.acked.map Prod.fst) :
    Inv p { s.hear (s.relay.step p.cfg (.message w now (some (subscribeFrame p ts none)))) with
      acked := s.acked ++ [(w, none)] } := by
  rw [relay_joins hd hw]
  have hquiet := subscribeAck_quiet p p.cfg now s.relay.frames ts none
  generalize subscribeAck p.cfg now ⟨s.relay.frames, subscribeFrame p ts none⟩ = ack at hquiet ⊢
  have hm : Moves p { s with acked := s.acked ++ [(w, none)] } { s.hear { s.relay with
      frames := s.relay.frames + 1
      subscribers := VibeRelayServer.subscribed s.relay.subscribers (.str p.runId) w
      sent := s.relay.sent ++ [(w, ack)] } with acked := s.acked ++ [(w, none)] } [(w, ack)] := by
    refine ⟨rfl, rfl, rfl, rfl, hear_inbox rfl, rfl, le_refl _, fun m hm => hm, h.unique, fun k v hv => .inl hv,
      fun ws hf => ?_, le_refl _, h.conns, fun m hm ref hmention => ?_, fun ws _ => heard_nil fun m hm _ => ?_⟩
    · obtain ⟨sockets, hin, hws⟩ := hf
      rcases mem_set hin with heq | hold
      · obtain rfl := (Prod.mk.inj heq).2
        unfold addSocket at hws
        have hor : ws ∈ (get s.relay.subscribers (.str p.runId)).getD [] ∨ ws = w := by
          split at hws
          · exact .inl hws
          · exact (List.mem_append.mp hws).imp id List.mem_singleton.mp
        rcases hor with hws | rfl
        · cases hget : get s.relay.subscribers (.str p.runId) with
          | none =>
            rw [hget] at hws
            cases hws
          | some old =>
            rw [hget] at hws
            exact .inl ⟨old, get_mem hget, hws⟩
        · exact .inr (List.mem_append_right _ List.mem_cons_self)
      · exact .inl ⟨sockets, hold, hws⟩
    · rw [List.mem_singleton.mp hm, hquiet.2] at hmention
      cases hmention
    · rw [List.mem_singleton.mp hm]
      exact hquiet.1
  refine (h.toBase.acknowledged hw hnew none).moves hm fun ws after hws hopen => ?_
  have hold : (ws, some after) ∈ s.acked := by
    rcases List.mem_append.mp hws with hold | hnew
    · exact hold
    · cases (Prod.mk.inj (List.mem_singleton.mp hnew)).2
  obtain ⟨ref, c, hb⟩ := h.backed ws after hold hopen
  refine ⟨ref, c, hb.relayed rfl rfl rfl (fun k v _ => Iff.rfl) (hm.mail fun m hm => ?_) (fun m hm => hm) hb.link ?_⟩
  · rw [List.mem_singleton.mp hm, hquiet.2]
    rfl
  · refine congrArg (· ++ flying s ref) ?_
    refine (sequencesTo_append rfl ws).trans ?_
    rw [heard_nil fun m hm _ => ?_, List.append_nil]
    rw [List.mem_singleton.mp hm]
    exact hquiet.1

/-- The next reference is none that the relay has made. -/
theorem Known.fresh (h : Known s ref) (now : Nat) : ref ≠ refName now s.relay.replaySeq := by
  obtain ⟨now', seq, hlt, rfl⟩ := h
  intro heq
  have := refName_inj heq
  omega

/-- The relay once it has made a reference for a socket. -/
structure Referred (p : Parties) (s s' : Net) (w c : Nat) (r : String) (a : Int) (ack opening : Json) : Prop where
  moves : Moves p { s with acked := s.acked ++ [(w, some a)] } s' [(w, ack), (c, opening)]
  up : s'.up = s.up
  conns : s'.relay.conns = s.relay.conns
  refs : s'.relay.replayRefs = set s.relay.replayRefs (.str r) (w, runVal p)
  ack : eventSequence ack = none ∧ noteOf p ack = .other
  opening : eventSequence opening = none ∧ noteOf p opening = .opened r a

theorem Referred.heard_none {w : Nat} {r : String} {a : Int} {ack opening : Json}
    (hr : Referred p s s' w c r a ack opening)
    (ws : Nat) : s'.relay.sequencesTo ws = s.relay.sequencesTo ws := by
  rw [sequencesTo_append hr.moves.sent ws, heard_nil fun m hm _ => ?_]
  · exact List.append_nil _
  · rcases List.mem_cons.mp hm with rfl | hm
    · exact hr.ack.1
    · rw [List.mem_singleton.mp hm]
      exact hr.opening.1

/-- The new subscriber waits for the Node to open its subscription. -/
theorem Referred.backed {w : Nat} {r : String} {a : Int} {ack opening : Json} (h : Inv p s) (hconn : s.conn = some c)
    (hc : c ∈ s.relay.conns) (hfresh : ∀ ref, Known s ref → ref ≠ r) (hnew : w ∉ s.acked.map Prod.fst)
    (hr : Referred p s s' w c r a ack opening) : Backed p s' w a r c := by
  refine ⟨hr.moves.conn.trans hconn, ?_, fun k v hv hvw => ?_, hr.conns ▸ hc, fun m hm hmention => ?_, .inl ?_⟩
  · rw [hr.refs, get_set, if_pos rfl]
  · rw [hr.refs, get_set] at hv
    split at hv
    · rename_i hk
      exact hk.symm
    · obtain ⟨-, -, -, hin⟩ := h.refs k v hv
      exact absurd (hvw ▸ hin) hnew
  · rw [hr.up] at hm
    exact absurd rfl (hfresh r (h.sent m hm r hmention))
  · refine ⟨fun t ht => hfresh t.1 (h.tagged t (hr.moves.tags ▸ ht)), fun m hm => ?_, ?_, ?_⟩
    · rw [hr.up] at hm
      exact Bool.eq_false_iff.mpr fun hmention => absurd rfl (hfresh r (h.sent m hm r hmention))
    · rw [hr.heard_none]
      exact h.silent w hnew
    · have hold : mail p s r = [] := by
        refine List.filter_eq_nil_iff.mpr fun note hnote hmention => ?_
        obtain ⟨frame, hframe, rfl⟩ := List.mem_map.mp hnote
        exact absurd rfl (hfresh r (h.read frame hframe r hmention))
      unfold mail at hold ⊢
      rw [hr.moves.inbox, List.map_append, List.filter_append]
      dsimp only
      rw [hold, List.nil_append, hconn]
      by_cases hwc : c = w
      · simp [hwc, hr.ack.2, hr.opening.2, Note.mentions]
      · simp [hwc, hr.opening.2, Note.mentions]

/-- The others do not notice. -/
theorem Referred.others {w c' : Nat} {r : String} {a : Int} {ack opening : Json} (h : Inv p s)
    (hfresh : ∀ ref, Known s ref → ref ≠ r) (hr : Referred p s s' w c' r a ack opening) (hws : ws ≠ w)
    (hb : Backed p s ws after ref c) : Backed p s' ws after ref c := by
  have href : Known s ref := by
    obtain ⟨ref', hk, hknown, -⟩ := h.refs _ _ hb.reference
    exact Key.str.inj hk ▸ hknown
  refine hb.relayed hr.moves.conn hr.moves.tags hr.moves.feed (fun k v hv => ?_) (hr.moves.mail fun m hm => ?_)
    hr.moves.up (hr.conns ▸ hb.link) ?_
  · rw [hr.refs, get_set]
    split
    · rename_i hk
      constructor
      · intro heq
        obtain rfl := Option.some.inj heq
        exact absurd hv.symm hws
      · intro hget
        obtain ⟨ref', hk', hknown, -⟩ := h.refs k v hget
        exact absurd (Key.str.inj (hk'.symm.trans hk.symm)) (hfresh ref' hknown)
    · exact Iff.rfl
  · rcases List.mem_cons.mp hm with rfl | hm
    · rw [hr.ack.2]
      rfl
    · rw [List.mem_singleton.mp hm, hr.opening.2]
      exact beq_eq_false_iff_ne.mpr (hfresh ref href).symm
  · unfold flying
    rw [hr.heard_none, hr.up]

/-- **A subscriber with a cursor**, while the owner is online. -/
theorem Inv.subscribes {w now : Nat} {ts : String} {e : Entry} (h : Inv p s) (hd : s.relay.down = false)
    (hw : w ∈ s.relay.conns)
    (hnew : w ∉ s.acked.map Prod.fst) (hconn : s.conn = some e.ws) (he : runEntry p s.relay = some e)
    (hew : e.ws ∈ s.relay.conns) (a : Int) :
    Inv p { s.hear (s.relay.step p.cfg (.message w now (some (subscribeFrame p ts (some a))))) with
      acked := s.acked ++ [(w, some a)] } := by
  obtain ⟨owner, hstep⟩ := relay_opens (p := p) (r := s.relay) (w := w) hd hw he hew a
  rw [hstep]
  have hquiet := subscribeAck_quiet p p.cfg now s.relay.frames ts (some a)
  generalize subscribeAck p.cfg now ⟨s.relay.frames, subscribeFrame p ts (some a)⟩ = ack at hquiet ⊢
  have hopening := openFrame_note p p.cfg now owner a (refName now s.relay.replaySeq)
  generalize openFrame p.cfg now owner (runVal p) (.num (.ofInt a)) (refName now s.relay.replaySeq) = opening
    at hopening ⊢
  have hfresh : ∀ ref, Known s ref → ref ≠ refName now s.relay.replaySeq := fun ref href => href.fresh now
  have hacked : w ∈ (s.acked ++ [(w, some a)]).map Prod.fst := by
    rw [List.map_append]
    exact List.mem_append_right _ List.mem_cons_self
  have hr : Referred p s { s.hear { s.relay with
      frames := s.relay.frames + 1
      replaySeq := s.relay.replaySeq + 1
      replayRefs := set s.relay.replayRefs (.str (refName now s.relay.replaySeq)) (w, runVal p)
      sent := s.relay.sent ++ [(w, ack), (e.ws, opening)] } with acked := s.acked ++ [(w, some a)] }
      w e.ws (refName now s.relay.replaySeq) a ack opening := by
    refine ⟨?_, rfl, rfl, rfl, hquiet, hopening⟩
    refine ⟨rfl, rfl, rfl, rfl, hear_inbox rfl, rfl, Nat.le_succ _, fun m hm => hm, h.unique.set _ _, fun k v hv => ?_,
      fun ws hf => .inl hf, le_refl _, h.conns, fun m hm ref hmention => ?_, fun ws _ => heard_nil fun m hm _ => ?_⟩
    · change get (set s.relay.replayRefs (.str (refName now s.relay.replaySeq)) (w, runVal p)) k = some v at hv
      rw [get_set] at hv
      split at hv
      · rename_i hk
        obtain rfl := Option.some.inj hv
        exact .inr ⟨_, hk.symm, ⟨now, s.relay.replaySeq, Nat.lt_succ_self _, rfl⟩, hacked⟩
      · exact .inl hv
    · rcases List.mem_cons.mp hm with rfl | hm
      · rw [hquiet.2] at hmention
        cases hmention
      · rw [List.mem_singleton.mp hm, hopening.2] at hmention
        exact ⟨now, s.relay.replaySeq, Nat.lt_succ_self _, (eq_of_beq hmention).symm⟩
    · rcases List.mem_cons.mp hm with rfl | hm
      · exact hquiet.1
      · rw [List.mem_singleton.mp hm]
        exact hopening.1
  refine (h.toBase.acknowledged hw hnew (some a)).moves hr.moves fun ws after hws hopen => ?_
  rcases List.mem_append.mp hws with hold | hself
  · have hne : ws ≠ w := by
      rintro rfl
      exact hnew (List.mem_map_of_mem hold)
    obtain ⟨ref, c, hb⟩ := h.backed ws after hold hopen
    exact ⟨ref, c, hr.others h hfresh hne hb⟩
  · obtain ⟨rfl, hafter⟩ := Prod.mk.inj (List.mem_singleton.mp hself)
    obtain rfl := Option.some.inj hafter
    exact ⟨_, e.ws, hr.backed h hconn hew hfresh hnew⟩

/-! ## The Node's connection -/

/-- Nobody with a cursor is there. -/
def Unwatched (s : Net) : Prop := ∀ ws after, (ws, some after) ∈ s.acked → ws ∉ s.relay.conns

theorem Inv.unwatched_of_empty (h : Inv p s) (hempty : s.relay.replayRefs.isEmpty = true) : Unwatched s := by
  intro ws after hws hopen
  obtain ⟨ref, c, hb⟩ := h.backed ws after hws hopen
  rw [hb.nonempty] at hempty
  exact nomatch hempty

theorem Inv.unwatched_of_none (h : Inv p s) (hconn : s.conn = none) : Unwatched s := by
  intro ws after hws hopen
  obtain ⟨ref, c, hb⟩ := h.backed ws after hws hopen
  exact nomatch hconn.symm.trans hb.conn

/-- The Node's connection ends. -/
theorem Inv.drops (h : Inv p s) (hnobody : Unwatched s) : Inv p { s with conn := none, inbox := [] } where
  feed := h.feed
  tags := h.tags
  unique := h.unique
  refs := h.refs
  tagged := h.tagged
  read := nofun
  sent := h.sent
  fans := h.fans
  once := h.once
  below := h.below
  conns := h.conns
  silent := h.silent
  backed := fun ws after hws hopen => absurd hopen (hnobody ws after hws)

theorem Inv.crashes (h : Inv p s) (hnobody : Unwatched s) :
    Inv p { s with conn := none, inbox := [], tags := [], feed := { s.feed with subs := [] }, tail := none } where
  feed := ⟨h.feed.run, nofun⟩
  tags := rfl
  unique := h.unique
  refs := h.refs
  tagged := nofun
  read := nofun
  sent := h.sent
  fans := h.fans
  once := h.once
  below := h.below
  conns := h.conns
  silent := h.silent
  backed := fun ws after hws hopen => absurd hopen (hnobody ws after hws)

/-- The Node connects again, and registers. -/
theorem Inv.dials (h : Inv p s) (hd : s.relay.down = false) (hnobody : Unwatched s) (ts : String) :
    Inv p ({ s with
      relay := s.relay.step p.cfg .connect
      conn := some s.relay.sockets
      inbox := [] }.send s.relay.sockets [⟨ts, .register⟩]) := by
  rw [relay_connect hd]
  unfold Net.send
  rw [if_pos rfl]
  refine {
    feed := h.feed
    tags := h.tags
    unique := h.unique
    refs := h.refs
    tagged := h.tagged
    read := nofun
    sent := fun m hm ref hmention => ?_
    fans := h.fans
    once := h.once
    below := fun ws hws => (h.below ws hws).trans (Nat.lt_succ_self _)
    conns := fun ws hws => ?_
    silent := h.silent
    backed := fun ws after hws hopen => ?_ }
  · rcases List.mem_append.mp hm with hm | hm
    · exact h.sent m hm ref hmention
    · rw [List.mem_singleton.mp hm] at hmention
      exact nomatch hmention
  · rcases List.mem_append.mp hws with hold | hnew
    · exact (h.conns ws hold).trans (Nat.lt_succ_self _)
    · rw [List.mem_singleton.mp hnew]
      exact Nat.lt_succ_self _
  · rcases List.mem_append.mp hopen with hold | hnew
    · exact absurd hold (hnobody ws after hws)
    · have hlt := h.below ws (List.mem_map_of_mem hws)
      exact absurd (List.mem_singleton.mp hnew) (by omega)

/-! ## Runs -/

theorem inv_initial (owners : List (Key × Val)) : Inv p (Net.initial owners) where
  feed := ⟨RunInv.initial, nofun⟩
  tags := rfl
  unique := List.nodup_nil
  refs := nofun
  tagged := nofun
  read := nofun
  sent := nofun
  fans := fun ws hf => by
    obtain ⟨sockets, hin, -⟩ := hf
    exact nomatch hin
  once := List.nodup_nil
  below := nofun
  conns := nofun
  silent := fun _ _ => rfl
  backed := nofun

/-- The owner that is online has its current connection in the registry. -/
theorem online_entry (h : s.online p = true) :
    ∃ e, s.conn = some e.ws ∧ runEntry p s.relay = some e ∧ e.ws ∈ s.relay.conns := by
  unfold Net.online at h
  split at h
  · rename_i c e hconn he
    obtain ⟨heq, hin⟩ := Bool.and_eq_true_iff.mp h
    obtain rfl : e.ws = c := eq_of_beq heq
    exact ⟨e, hconn, he, List.contains_iff_mem.mp hin⟩
  · exact nomatch h

/-- **One move.** -/
theorem step_inv {m : Move} (h : Inv p s) (hd : s.relay.down = false) (hk : Kept p s m)
    (hd' : (step p s m).relay.down = false) : Inv p (step p s m) := by
  unfold step at hd' ⊢
  rw [hd, if_neg Bool.false_ne_true] at hd' ⊢
  cases m with
  | connect => exact h.connected hd
  | subscribe w now ts after =>
    dsimp only
    split
    · rename_i hguard
      obtain ⟨-, hw⟩ := hguard
      obtain ⟨hnew, honline⟩ := hk
      cases after with
      | none => exact h.joins hd hw hnew
      | some a =>
        obtain ⟨e, hconn, he, hew⟩ := online_entry (honline rfl)
        exact h.subscribes hd hw hnew hconn he hew a
    · exact h
  | close w now => exact h.closed hd hk
  | dial ts =>
    dsimp only
    split
    · exact h
    · rename_i hconn
      exact h.dials hd (h.unwatched_of_none (Option.not_isSome_iff_eq_none.mp hconn)) ts
  | drop => exact h.drops (h.unwatched_of_empty hk)
  | crash => exact h.crashes (h.unwatched_of_empty hk)
  | start =>
    have hf : Fed (fun _ => True) s { s with tail := s.conn } [] :=
      ⟨rfl, rfl, rfl, rfl, rfl, h.feed, rfl, (List.append_nil _).symm, nofun, nofun,
        fun ref _ c i sub _ _ _ hsub hlive => ⟨sub, hsub, hlive, rfl, (List.append_nil _).symm⟩⟩
    exact h.fed_all hf
  | relayReads w now =>
    dsimp only at hd' ⊢
    split
    · exact h
    · rename_i m hfind
      rw [hfind] at hd'
      exact h.relays hd hfind hd'
  | nodeReads ts =>
    dsimp only
    split
    · rename_i c frame rest hconn hin
      refine h.reads hconn hin (fun ref after hnote => ?_) ts
      have hfits := hk (noteOf p frame) (by rw [hin]; rfl)
      rw [hnote] at hfits
      exact hfits
    · exact h
  | call c ts =>
    obtain ⟨more, hf⟩ := journal_fed h c ts hk
    exact h.fed_all hf
  | replay i ts =>
    have hfeed : FeedInv (feedStep s.feed (.replay i)) := feedStep_inv h.feed (fun _ _ heq => nomatch heq)
    obtain ⟨more, hf⟩ := advance_fed replayNext_delivering h hfeed rfl ts
    exact h.fed_all hf
  | drain i => exact h.fed_all (drain_fed h i)
  | deliver i ts =>
    have hfeed : FeedInv (feedStep s.feed (.deliver i)) := feedStep_inv h.feed (fun _ _ heq => nomatch heq)
    obtain ⟨more, hf⟩ := advance_fed drainNext_delivering h hfeed rfl ts
    exact h.fed_all hf

theorem step_down {m : Move} (h : (step p s m).relay.down = false) : s.relay.down = false := by
  cases hd : s.relay.down with
  | false => rfl
  | true =>
    unfold step at h
    rw [hd, if_pos rfl, hd] at h
    exact h

theorem run_inv {owners : List (Key × Val)} {moves : List Move}
    (h : Always (step p) (Kept p) (Net.initial owners) moves)
    (hd : (run (step p) (Net.initial owners) moves).relay.down = false) :
      Inv p (run (step p) (Net.initial owners) moves) :=
  h.inv_run (fun s => s.relay.down = false → Inv p s)
    (fun _ _ hi hk hd' => step_inv (hi (step_down hd')) (step_down hd') hk hd') (fun _ => inv_initial owners) hd

/-- At rest, a subscriber that is backed is served. -/
theorem Inv.serves (h : Inv p s) (hidle : Idle p s) (hws : (ws, some after) ∈ s.acked) (hopen : ws ∈ s.relay.conns) :
    Served p s ws after := by
  obtain ⟨ref, c, hb⟩ := h.backed ws after hws hopen
  have hmail : mail p s ref = [] := by
    unfold mail
    rw [hidle.inbox]
    rfl
  rcases hb.phase with hwait | ⟨i, sub, hstream⟩
  · exact nomatch hmail.symm.trans hwait.unread
  · have hground : ∀ m ∈ s.up, m.2.body.mentions ref = false := by
      intro m hm
      refine Bool.eq_false_iff.mpr fun hmention => hidle.up m hm ?_
      rw [hb.lane m hm hmention]
      exact hb.conn
    have hin : sub ∈ s.feed.subs := List.mem_of_getElem? hstream.opened
    obtain ⟨hreplayed, hdrained⟩ := hidle.drained sub hin hstream.live
    have hall := (h.feed.subs sub hin hstream.live).all
    rw [hreplayed, hdrained, List.append_nil, List.append_nil, hstream.cursor] at hall
    refine ⟨?_, c, ref, i, sub, hb.conn, hb.reference, hstream.tag, hstream.opened, hstream.live, hstream.cursor⟩
    have hdelivered := hstream.delivered
    rw [flying_grounded hground, List.append_nil] at hdelivered
    rw [hdelivered, hall]

end

/-- **Replay across reconnects.**  In every interleaving of subscribers, the relay, the Node and the journal whose moves
    meet the condition: whenever the owner is registered and idle, a subscriber with a cursor whose socket is open has
    been sent each event after its cursor once and in order, and its reference has a live subscription on the Node's
    current connection. -/
theorem replay_survives (p : Parties) (owners : List (Key × Val)) (moves : List Move)
    (h : Always (step p) (Kept p) (Net.initial owners) moves) (ws : Nat) (after : Int) :
    let s := run (step p) (Net.initial owners) moves
    (ws, some after) ∈ s.acked → ws ∈ s.relay.conns → Idle p s → Served p s ws after := by
  intro s hws hopen hidle
  exact (run_inv h hidle.running).serves hidle hws hopen

/-! ## Two runs -/

def sampleParties : Parties where
  cfg := openRelay
  nodeId := "n"
  runId := "r"
  card := []
  signature := fun _ => none
  payload := fun _ => .null
  sealed := none

def sampleOwners : List (Key × Val) := [(.str "r", ⟨some (.str "n"), .str "n"⟩)]

/-- The Node registers, a subscriber comes from the start of the run, and its subscription is opened. -/
def streamOpened : List Move :=
  [.dial "t", .relayReads 0 0, .nodeReads "t", .connect, .subscribe 1 0 "t" (some (-1)), .nodeReads "t"]

/-- An event is journaled, and its subscription's drain delivers it. -/
def eventDelivered : List Move := [.call (.append plainLog) "t", .drain 0, .deliver 0 "t", .deliver 0 "t"]

/-- The event reaches the subscriber, which leaves; then the Node loses its connection and comes back. -/
def bothLeft : List Move :=
  streamOpened ++ eventDelivered ++ [.relayReads 0 0, .relayReads 0 0, .close 1 0, .nodeReads "t", .drop, .close 0 0] ++
    [.dial "t", .relayReads 2 0, .nodeReads "t"]

/-- The subscriber is back on another socket, from the start of the run, and is sent the event there. -/
def steadyStream : List Move :=
  bothLeft ++ [.connect, .subscribe 3 0 "t" (some (-1)), .nodeReads "t", .replay 1 "t", .replay 1 "t", .drain 1,
    .deliver 1 "t", .relayReads 2 0, .relayReads 2 0]

theorem idle_of_rest {p : Parties} {s : Net} (hd : s.relay.down = false) (honline : s.online p = true)
    (hinbox : s.inbox = [])
    (hup : s.up.all (fun m => s.conn ≠ some m.1) = true)
    (hsubs : s.feed.subs.all (fun sub => sub.replaying.isEmpty && sub.queue.isEmpty) = true) : Idle p s := by
  refine ⟨hd, honline, hinbox, fun m hm => of_decide_eq_true (List.all_eq_true.mp hup m hm), fun sub hsub _ => ?_⟩
  obtain ⟨hreplay, hqueue⟩ := Bool.and_eq_true_iff.mp (List.all_eq_true.mp hsubs sub hsub)
  exact ⟨List.isEmpty_iff.mp hreplay, List.isEmpty_iff.mp hqueue⟩

theorem steady_stream_served :
    Idle sampleParties (run (step sampleParties) (Net.initial sampleOwners) steadyStream) ∧
      Served sampleParties (run (step sampleParties) (Net.initial sampleOwners) steadyStream) 3 (-1) := by
  have hidle : Idle sampleParties (run (step sampleParties) (Net.initial sampleOwners) steadyStream) :=
    idle_of_rest (by decide +kernel) (by decide +kernel) (by decide +kernel) (by decide +kernel) (by decide +kernel)
  exact ⟨hidle, replay_survives sampleParties sampleOwners steadyStream (by decide +kernel) 3 (-1) (by decide +kernel)
    (by decide +kernel) hidle⟩

/-- The Node loses its connection under the open reference, comes back and registers; then the event. -/
def reconnected : List Move :=
  streamOpened ++ [.drop, .close 0 0, .dial "t", .relayReads 2 0, .nodeReads "t"] ++ eventDelivered

/-- The subscriber, whose socket is open, is sent nothing. -/
theorem reconnect_starves :
    let s := run (step sampleParties) (Net.initial sampleOwners) reconnected
    Idle sampleParties s ∧ (1, some (-1)) ∈ s.acked ∧ 1 ∈ s.relay.conns ∧ s.relay.sequencesTo 1 = [] ∧
      (s.feed.run.db.eventsAfter (-1)).map EventRow.sequence = [0] := by
  intro s
  have hidle : Idle sampleParties s :=
    idle_of_rest (by decide +kernel) (by decide +kernel) (by decide +kernel) (by decide +kernel) (by decide +kernel)
  exact ⟨hidle, by decide +kernel, by decide +kernel, by decide +kernel, by decide +kernel⟩

end VibeReconnect
