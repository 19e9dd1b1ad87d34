import VibeWorkflow.RegistryProofs

/-!
# Requests and their answers

Six tables hold the sockets that wait for an answer, by request id.  A request enters its table, and
leaves it when its target is offline, when an answer of its table comes, or when its socket closes.

* `Case.waitsIn`, `Case.answersIn` — the table a request enters and the one an answer is looked up in;
* `answers` — which answers a Node gives to which requests;
* **`dispatch_routes`** — what a frame does to tables and histories;
* `Routed` — the invariant: whoever waits is open, has asked, and was not answered;
* **`answers_routed`** — every run of distinct requests and their answers.
-/

namespace VibeRelayServer

open VibeJson KeyedMap CallRuns

variable {cfg : Config} {s : Relay} {ws now : Nat} {f : Frame}

def Case.waitsIn : Case → Option Pending
  | .encRunStart | .runStart | .sessionList | .sessionKill => some .reqs
  | .encStopRequest | .runStopRequest => some .stops
  | .encApproval => some .approvals
  | .runStatusRequest => some .statuses
  | .runResultRequest => some .results
  | .leaseRequest | .revisionObserve => some .leases
  | _ => none

def Case.answersIn : Case → Option Pending
  | .runStartAck | .sessionListAck | .sessionKillAck => some .reqs
  | .encStopAck | .runStopAck => some .stops
  | .encApprovalAck => some .approvals
  | .runStatusAck => some .statuses
  | .runResultAck => some .results
  | .leaseAck | .revisionAck => some .leases
  | _ => none

/-- What a Node answers a request with; a stop of either form is answered in the form of its run. -/
def answers : Case → Case → Bool
  | .encRunStart, .runStartAck | .runStart, .runStartAck => true
  | .sessionList, .sessionListAck | .sessionKill, .sessionKillAck => true
  | .encStopRequest, .encStopAck | .encStopRequest, .runStopAck => true
  | .runStopRequest, .encStopAck | .runStopRequest, .runStopAck => true
  | .encApproval, .encApprovalAck => true
  | .runStatusRequest, .runStatusAck => true
  | .runResultRequest, .runResultAck => true
  | .leaseRequest, .leaseAck | .revisionObserve, .revisionAck => true
  | _, _ => false

/-! ## What a frame does -/

/-- Tables and histories are left alone. -/
structure Idle (s s' : Relay) : Prop where
  pending : s'.pending = s.pending
  requests : s'.requests = s.requests
  forwards : s'.forwards = s.forwards

/-- A request of a socket was noted, and waits, or its target was offline. -/
structure Asked (s s' : Relay) (t : Pending) (k : Key) (c : Case) (ws : Nat) : Prop where
  pending : s'.pending = Function.update s.pending t (set (s.pending t) k ws) ∨
    s'.pending = Function.update s.pending t (delete (s.pending t) k)
  requests : s'.requests = s.requests ++ [(k, c, ws)]
  forwards : s'.forwards = s.forwards

/-- An answer found nobody, or went to the socket that waits. -/
inductive Answered (s s' : Relay) (t : Pending) (k : Key) (c : Case) (json : Json) : Prop
  | nobody (hget : get (s.pending t) k = none) (hidle : Idle s s') (hsent : s'.sent = s.sent)
  | sent (ws : Nat) (hget : get (s.pending t) k = some ws)
      (hpending : s'.pending = Function.update s.pending t (delete (s.pending t) k))
      (hrequests : s'.requests = s.requests) (hforwards : s'.forwards = s.forwards ++ [(k, c, ws)])
      (hsent : s'.sent = (s.sendMsg ws json).sent)

theorem Idle.refl (s : Relay) : Idle s s := ⟨rfl, rfl, rfl⟩

theorem Idle.trans {s s' s'' : Relay} (h : Idle s s') (h' : Idle s' s'') : Idle s s'' :=
  ⟨h'.pending.trans h.pending, h'.requests.trans h.requests, h'.forwards.trans h.forwards⟩

theorem sendMsg_idle (s : Relay) (ws : Nat) (msg : Json) : Idle s (s.sendMsg ws msg) := by
  unfold Relay.sendMsg
  split
  · exact ⟨rfl, rfl, rfl⟩
  · exact Idle.refl s

theorem fanOut_idle (s : Relay) (subs : List Nat) (msg : Json) : Idle s (s.fanOut subs msg) := by
  induction subs generalizing s with
  | nil => exact Idle.refl s
  | cons ws subs ih => exact (sendMsg_idle s ws msg).trans (ih _)

theorem register_idle (s : Relay) (ws now : Nat) (f : Frame) : Idle s (s.register cfg ws now f).relay := by
  unfold Relay.register
  split
  · exact Idle.refl s
  · exact Idle.refl s
  · dsimp only
    split
    · exact ⟨rfl, rfl, rfl⟩
    · refine Idle.trans ?_ (sendMsg_idle _ _ _)
      exact ⟨rfl, rfl, rfl⟩
    · refine Idle.trans ?_ (sendMsg_idle _ _ _)
      exact ⟨rfl, rfl, rfl⟩

theorem pairRequest_idle (s : Relay) (ws now : Nat) (f : Frame) : Idle s (s.pairRequest cfg ws now f).relay := by
  unfold Relay.pairRequest
  split
  · exact Idle.refl s
  · exact Idle.refl s
  · refine Idle.trans ?_ (sendMsg_idle _ _ _)
    exact ⟨rfl, rfl, rfl⟩

theorem heartbeat_idle (s : Relay) (ws now : Nat) (f : Frame) : Idle s (s.heartbeat cfg ws now f) := by
  unfold Relay.heartbeat
  refine Idle.trans ?_ (sendMsg_idle _ _ _)
  split
  · exact Idle.refl s
  · exact ⟨rfl, rfl, rfl⟩

theorem subscribe_idle (s : Relay) (ws now : Nat) (f : Frame) : Idle s (s.subscribe cfg ws now f) := by
  unfold Relay.subscribe
  dsimp only
  split
  · refine Idle.trans ?_ (sendMsg_idle _ _ _)
    refine Idle.trans ?_ (sendMsg_idle _ _ _)
    exact ⟨rfl, rfl, rfl⟩
  · refine Idle.trans ?_ (sendMsg_idle _ _ _)
    exact ⟨rfl, rfl, rfl⟩

theorem replay_idle (s : Relay) (f : Frame) : Idle s (s.replay f) := by
  unfold Relay.replay
  split
  · exact Idle.refl s
  · exact sendMsg_idle _ _ _

theorem openTerminal_idle (s : Relay) (ws now : Nat) (f : Frame) : Idle s (s.openTerminal cfg ws now f).relay := by
  unfold Relay.openTerminal
  dsimp only
  split
  · refine Idle.trans ?_ (sendMsg_idle _ _ _)
    exact ⟨rfl, rfl, rfl⟩
  · split
    · exact ⟨rfl, rfl, rfl⟩
    · refine Idle.trans ?_ (sendMsg_idle _ _ _)
      exact ⟨rfl, rfl, rfl⟩

theorem unsupported_idle (s : Relay) (ws now : Nat) (f : Frame) : Idle s (s.unsupported cfg ws now f).relay := by
  unfold Relay.unsupported
  split
  · split
    · exact Idle.refl s
    · dsimp only
      split
      · exact Idle.refl s
      · exact sendMsg_idle _ _ _
  · exact Idle.refl s

/-- A refused request does not wait. -/
theorem refuse_asked {t : Pending} {k : Key} {c : Case} {about : Val} {reply : String → Json} :
    Asked s (({ s.setPending t k ws with requests := s.requests ++ [(k, c, ws)] } : Relay).refuse t k ws about
      reply).relay t k c ws := by
  unfold Relay.refuse
  split
  · exact ⟨Or.inl rfl, rfl, rfl⟩
  · have hidle := fun msg => sendMsg_idle
      ({ s.setPending t k ws with requests := s.requests ++ [(k, c, ws)] } : Relay) ws msg
    refine ⟨Or.inr ?_, (hidle _).requests, (hidle _).forwards⟩
    show Function.update (Relay.sendMsg _ ws _).pending t (delete ((Relay.sendMsg _ ws _).pending t) k) = _
    rw [(hidle _).pending]
    show Function.update (Function.update s.pending t (set (s.pending t) k ws)) t
      (delete (Function.update s.pending t (set (s.pending t) k ws) t) k) = _
    rw [Function.update_idem, Function.update_self, delete_set]

theorem sendMsg_asked {t : Pending} {k : Key} {c : Case} {w : Nat} {msg : Json} :
    Asked s (({ s.setPending t k ws with requests := s.requests ++ [(k, c, ws)] } : Relay).sendMsg w msg) t k c
      ws := by
  have hidle := sendMsg_idle ({ s.setPending t k ws with requests := s.requests ++ [(k, c, ws)] } : Relay) w msg
  exact ⟨Or.inl hidle.pending, hidle.requests, hidle.forwards⟩

theorem requestNode_asked (s : Relay) (t : Pending) (ws : Nat) (f : Frame) (c : Case) (target : String)
    (reply : String → Json) :
    Asked s (s.requestNode t ws f c target reply).relay t (f.val "req_id").key c ws := by
  unfold Relay.requestNode
  dsimp only
  split
  · exact refuse_asked
  · exact sendMsg_asked

theorem requestOwner_asked (s : Relay) (t : Pending) (ws : Nat) (f : Frame) (c : Case)
    (reply : String → String → Json) :
    Asked s (s.requestOwner t ws f c reply).relay t (f.val "req_id").key c ws := by
  unfold Relay.requestOwner
  dsimp only
  split
  · exact refuse_asked
  · split
    · exact refuse_asked
    · exact sendMsg_asked

theorem answer_answered (s : Relay) (t : Pending) (f : Frame) (c : Case) :
    Answered s (s.answer t f c) t (f.val "req_id").key c f.json := by
  unfold Relay.answer
  dsimp only
  split
  · rename_i h
    exact Answered.nobody h (Idle.refl s) rfl
  · rename_i w h
    refine Answered.sent w h ?_ (sendMsg_idle s w f.json).requests rfl rfl
    show Function.update (s.sendMsg w f.json).pending t (delete ((s.sendMsg w f.json).pending t) _) = _
    rw [(sendMsg_idle s w f.json).pending]

theorem recordOwner_answered {s s' : Relay} {t : Pending} {k : Key} {c : Case} {json : Json}
    (h : Answered s s' t k c json) (f : Frame) : Answered s (s'.recordOwner f) t k c json := by
  unfold Relay.recordOwner
  split
  · cases h with
    | nobody hget hidle hsent => exact Answered.nobody hget ⟨hidle.pending, hidle.requests, hidle.forwards⟩ hsent
    | sent ws hget hp hr hf hs => exact Answered.sent ws hget hp hr hf hs
  · exact h

/-- **What a frame does to the waiting tables**: a request is noted, an answer is matched, and no other frame
    touches them. -/
theorem dispatch_routes (cfg : Config) (s : Relay) (ws now : Nat) (f : Frame) :
    (∃ t, f.case.waitsIn = some t ∧
      Asked s (s.dispatch cfg ws now f).relay t (f.val "req_id").key f.case ws) ∨
    (∃ t, f.case.answersIn = some t ∧
      Answered s (s.dispatch cfg ws now f).relay t (f.val "req_id").key f.case f.json) ∨
    (f.case.waitsIn = none ∧ f.case.answersIn = none ∧ Idle s (s.dispatch cfg ws now f).relay) := by
  unfold Relay.dispatch
  split <;> rename_i hcase <;> rw [hcase]
  case h_2 => exact Or.inr (Or.inr ⟨rfl, rfl, fanOut_idle _ _ _⟩)
  case h_7 => exact Or.inr (Or.inr ⟨rfl, rfl, Idle.refl s⟩)
  case h_8 => exact Or.inr (Or.inr ⟨rfl, rfl, pairRequest_idle s ws now f⟩)
  case h_9 => exact Or.inr (Or.inr ⟨rfl, rfl, register_idle s ws now f⟩)
  case h_10 => exact Or.inr (Or.inr ⟨rfl, rfl, heartbeat_idle s ws now f⟩)
  case h_11 => exact Or.inr (Or.inr ⟨rfl, rfl, sendMsg_idle _ _ _⟩)
  case h_12 => exact Or.inr (Or.inr ⟨rfl, rfl, subscribe_idle s ws now f⟩)
  case h_13 => exact Or.inr (Or.inr ⟨rfl, rfl, fanOut_idle _ _ _⟩)
  case h_14 => exact Or.inr (Or.inr ⟨rfl, rfl, replay_idle s f⟩)
  case h_15 => exact Or.inr (Or.inr ⟨rfl, rfl, openTerminal_idle s ws now f⟩)
  case h_16 =>
    refine Or.inr (Or.inr ⟨rfl, rfl, ?_⟩)
    split
    · exact Idle.refl s
    · exact sendMsg_idle _ _ _
  case h_17 => exact Or.inr (Or.inr ⟨rfl, rfl, fanOut_idle _ _ _⟩)
  case h_23 => exact Or.inr (Or.inl ⟨_, rfl, recordOwner_answered (answer_answered s _ f _) f⟩)
  case h_34 => exact Or.inr (Or.inr ⟨rfl, rfl, unsupported_idle s ws now f⟩)
  all_goals first
    | exact Or.inl ⟨_, rfl, requestNode_asked s _ ws f _ _ _⟩
    | exact Or.inl ⟨_, rfl, requestOwner_asked s _ ws f _ _⟩
    | exact Or.inr (Or.inl ⟨_, rfl, answer_answered s _ f _⟩)

theorem closeRef_idle (now : Nat) (s : Relay) (ref : Key × Nat × Val) : Idle s (s.closeRef cfg now ref) := by
  unfold Relay.closeRef
  dsimp only
  split
  · exact ⟨rfl, rfl, rfl⟩
  · rename_i e _
    exact ⟨(sendMsg_idle s e.ws _).pending, (sendMsg_idle s e.ws _).requests, (sendMsg_idle s e.ws _).forwards⟩

theorem closeRefs_idle (now : Nat) (refs : List (Key × Nat × Val)) (s : Relay) :
    Idle s (refs.foldl (Relay.closeRef cfg now) s) := by
  induction refs generalizing s with
  | nil => exact Idle.refl s
  | cons r refs ih => exact (closeRef_idle now s r).trans (ih _)

/-- What a close does to the waiting tables and the histories. -/
theorem close_waits (cfg : Config) (s : Relay) (ws now : Nat) :
    (∀ t, (s.close cfg ws now).pending t = (s.pending t).filter (fun p => p.2 ≠ ws)) ∧
    ((s.close cfg ws now).requests = s.requests ∧ (s.close cfg ws now).forwards = s.forwards) ∧
    (s.close cfg ws now).conns = s.conns.filter (fun w => w ≠ ws) := by
  refine ⟨?_, ?_, (close_keeps cfg s ws now).conns⟩ <;> unfold Relay.close <;> dsimp only
  · intro t
    rw [(closeRefs_idle now _ _).pending]
  · rw [(closeRefs_idle now _ _).requests, (closeRefs_idle now _ _).forwards]
    exact ⟨rfl, rfl⟩

/-! ## The invariant -/

/-- Whoever waits is open, has asked in that table, and was not answered; whoever was answered had asked for
    it, and once; no two requests share an id. -/
structure Routed (s : Relay) : Prop where
  live : ∀ t, ∀ p ∈ s.pending t, p.2 ∈ s.conns
  asked : ∀ t, ∀ p ∈ s.pending t, ∃ c, c.waitsIn = some t ∧ (p.1, c, p.2) ∈ s.requests
  unanswered : ∀ t, ∀ p ∈ s.pending t, p.1 ∉ s.forwards.map Prod.fst
  distinct : Unique s.requests
  once : Unique s.forwards
  matched : ∀ r ∈ s.forwards, ∃ c, (r.1, c, r.2.2) ∈ s.requests ∧ c.waitsIn = r.2.1.answersIn

/-- A request has an id that no request had before. -/
def Relay.NewId (s : Relay) : Event → Prop
  | .message _ _ (some j) => (Frame.case ⟨s.frames, j⟩).waitsIn ≠ none →
      (Frame.val ⟨s.frames, j⟩ "req_id").key ∉ s.requests.map Prod.fst
  | _ => True

/-- An answer is what a Node answers the request with its id with, if there was one. -/
def Relay.NodeAnswer (s : Relay) : Event → Prop
  | .message _ _ (some j) => (Frame.case ⟨s.frames, j⟩).answersIn ≠ none →
      ∀ r ∈ s.requests, r.1 = (Frame.val ⟨s.frames, j⟩ "req_id").key →
        answers r.2.1 (Frame.case ⟨s.frames, j⟩) = true
  | _ => True

instance (s : Relay) : (ev : Event) → Decidable (s.NewId ev)
  | .message _ _ (some j) => inferInstanceAs (Decidable ((Frame.case ⟨s.frames, j⟩).waitsIn ≠ none → _ ∉ _))
  | .message _ _ none | .connect | .close _ _ => inferInstanceAs (Decidable True)

instance (s : Relay) : (ev : Event) → Decidable (s.NodeAnswer ev)
  | .message _ _ (some j) => inferInstanceAs (Decidable ((Frame.case ⟨s.frames, j⟩).answersIn ≠ none →
      ∀ r ∈ s.requests, r.1 = (Frame.val ⟨s.frames, j⟩ "req_id").key → _ = true))
  | .message _ _ none | .connect | .close _ _ => inferInstanceAs (Decidable True)

/-- Requests with one id are one request. -/
theorem Routed.same_request (h : Routed s) {k : Key} {r r' : Case × Nat} (hr : (k, r) ∈ s.requests)
    (hr' : (k, r') ∈ s.requests) : r = r' := by
  have hget := get_of_mem (m := s.requests) h.distinct hr
  rw [get_of_mem h.distinct hr'] at hget
  exact (Option.some.inj hget).symm

namespace Routed

variable {s' : Relay}

theorem idle (h : Routed s) (hi : Idle s s') (hc : s'.conns = s.conns) : Routed s' := by
  constructor
  · rw [hi.pending, hc]
    exact h.live
  · rw [hi.pending, hi.requests]
    exact h.asked
  · rw [hi.pending, hi.forwards]
    exact h.unanswered
  · rw [hi.requests]
    exact h.distinct
  · rw [hi.forwards]
    exact h.once
  · rw [hi.forwards, hi.requests]
    exact h.matched

/-- After a request the new entry is the only one that was not there. -/
theorem asked_mem {t q : Pending} {k : Key} {c : Case} (ha : Asked s s' t k c ws) {p : Key × Nat}
    (hp : p ∈ s'.pending q) : (q = t ∧ p = (k, ws)) ∨ p ∈ s.pending q := by
  by_cases hq : q = t
  · subst hq
    rcases ha.pending with hset | hdel
    · rw [hset, Function.update_self] at hp
      exact (mem_set hp).imp (fun he => ⟨rfl, he⟩) id
    · rw [hdel, Function.update_self] at hp
      exact Or.inr (mem_delete.mp hp).1
  · right
    rcases ha.pending with hset | hdel
    · rwa [hset, Function.update_of_ne hq] at hp
    · rwa [hdel, Function.update_of_ne hq] at hp

theorem request (h : Routed s) {t : Pending} {k : Key} {c : Case} (ha : Asked s s' t k c ws)
    (hc : s'.conns = s.conns) (hws : ws ∈ s.conns) (ht : c.waitsIn = some t)
    (hnew : k ∉ s.requests.map Prod.fst) : Routed s' := by
  have hfresh : k ∉ s.forwards.map Prod.fst := by
    intro hk
    obtain ⟨r, hr, rfl⟩ := List.mem_map.mp hk
    obtain ⟨c', hreq, -⟩ := h.matched r hr
    exact hnew (List.mem_map.mpr ⟨_, hreq, rfl⟩)
  constructor
  · intro q p hp
    rw [hc]
    rcases asked_mem ha hp with ⟨-, rfl⟩ | hp
    · exact hws
    · exact h.live q p hp
  · intro q p hp
    rw [ha.requests]
    rcases asked_mem ha hp with ⟨rfl, rfl⟩ | hp
    · exact ⟨c, ht, List.mem_append_right _ (List.mem_singleton.mpr rfl)⟩
    · obtain ⟨c', hq, hr⟩ := h.asked q p hp
      exact ⟨c', hq, List.mem_append_left _ hr⟩
  · intro q p hp
    rw [ha.forwards]
    rcases asked_mem ha hp with ⟨-, rfl⟩ | hp
    · exact hfresh
    · exact h.unanswered q p hp
  · rw [ha.requests]
    exact h.distinct.append hnew _
  · rw [ha.forwards]
    exact h.once
  · rw [ha.forwards, ha.requests]
    intro r hr
    obtain ⟨c', hreq, htable⟩ := h.matched r hr
    exact ⟨c', List.mem_append_left _ hreq, htable⟩

/-- An answer takes the entry it went to out of its table, and no other table has one for its id. -/
theorem answered_mem (h : Routed s) {t q : Pending} {k : Key} {w : Nat}
    (hget : get (s.pending t) k = some w)
    (hpending : s'.pending = Function.update s.pending t (delete (s.pending t) k)) {p : Key × Nat}
    (hp : p ∈ s'.pending q) : p ∈ s.pending q ∧ p.1 ≠ k := by
  rw [hpending] at hp
  by_cases hq : q = t
  · subst hq
    rw [Function.update_self] at hp
    exact mem_delete.mp hp
  · rw [Function.update_of_ne hq] at hp
    refine ⟨hp, ?_⟩
    rintro rfl
    obtain ⟨c, hct, hreq⟩ := h.asked t _ (get_mem hget)
    obtain ⟨c', hcq, hreq'⟩ := h.asked q p hp
    cases h.same_request hreq hreq'
    exact hq (Option.some.inj (hcq.symm.trans hct))

theorem answer (h : Routed s) {t : Pending} {k : Key} {c : Case} {json : Json}
    (ha : Answered s s' t k c json) (hc : s'.conns = s.conns) (ht : c.answersIn = some t) : Routed s' := by
  cases ha with
  | nobody hget hidle hsent => exact h.idle hidle hc
  | sent w hget hpending hrequests hforwards hsent =>
    have hmem := get_mem hget
    constructor
    · intro q p hp
      rw [hc]
      exact h.live q p (h.answered_mem hget hpending hp).1
    · intro q p hp
      rw [hrequests]
      exact h.asked q p (h.answered_mem hget hpending hp).1
    · intro q p hp
      obtain ⟨hp, hne⟩ := h.answered_mem hget hpending hp
      rw [hforwards, List.map_append, List.mem_append]
      rintro (hin | hin)
      · exact h.unanswered q p hp hin
      · exact hne (List.mem_singleton.mp hin)
    · rw [hrequests]
      exact h.distinct
    · rw [hforwards]
      exact h.once.append (h.unanswered t _ hmem) _
    · rw [hforwards, hrequests]
      intro r hr
      rcases List.mem_append.mp hr with hr | hr
      · exact h.matched r hr
      · cases List.mem_singleton.mp hr
        obtain ⟨c', hct, hreq⟩ := h.asked t _ hmem
        exact ⟨c', hreq, hct.trans ht.symm⟩

theorem received (h : Routed s) {j : Json} (hws : ws ∈ s.conns)
    (hnew : s.NewId (.message ws now (some j))) : Routed (s.received cfg ws now j).relay := by
  have hf : Routed { s with frames := s.frames + 1 } :=
    ⟨h.live, h.asked, h.unanswered, h.distinct, h.once, h.matched⟩
  have hc := (dispatch_conns cfg { s with frames := s.frames + 1 } ws now ⟨s.frames, j⟩).1
  rcases dispatch_routes cfg { s with frames := s.frames + 1 } ws now ⟨s.frames, j⟩ with
    ⟨t, ht, ha⟩ | ⟨t, ht, ha⟩ | ⟨-, -, hi⟩
  · have hwaits : (Frame.case ⟨s.frames, j⟩).waitsIn ≠ none := by
      rw [ht]
      exact Option.some_ne_none t
    exact hf.request ha hc hws ht (hnew hwaits)
  · exact hf.answer ha hc ht
  · exact hf.idle hi hc

/-- A closing socket waits for nothing. -/
theorem close (h : Routed s) (cfg : Config) (ws now : Nat) : Routed (s.close cfg ws now) := by
  obtain ⟨hp, hi, hc⟩ := close_waits cfg s ws now
  have hmem : ∀ t p, p ∈ (s.close cfg ws now).pending t → p ∈ s.pending t ∧ p.2 ≠ ws := by
    intro t p hin
    rw [hp] at hin
    obtain ⟨hin, hne⟩ := List.mem_filter.mp hin
    exact ⟨hin, of_decide_eq_true hne⟩
  constructor
  · intro t p hin
    rw [hc]
    exact List.mem_filter.mpr ⟨h.live t p (hmem t p hin).1, decide_eq_true (hmem t p hin).2⟩
  · intro t p hin
    rw [hi.1]
    exact h.asked t p (hmem t p hin).1
  · intro t p hin
    rw [hi.2]
    exact h.unanswered t p (hmem t p hin).1
  · rw [hi.1]
    exact h.distinct
  · rw [hi.2]
    exact h.once
  · rw [hi.1, hi.2]
    exact h.matched

/-- **Every event with a new id keeps it.** -/
theorem step (h : Routed s) {ev : Event} (hnew : s.NewId ev) : Routed (s.step cfg ev) := by
  rcases step_cases cfg s ev with he | ⟨-, -, he⟩ | ⟨ws, now, j, s', -, hws, rfl, hr, he⟩ |
    ⟨ws, now, j, s', -, hws, rfl, hr, he⟩ | ⟨ws, now, -, -, -, he⟩ | ⟨ws, now, -, -, -, he⟩
  · rw [he]
    exact h
  · rw [he]
    exact ⟨fun t p hp => List.mem_append_left _ (h.live t p hp), h.asked, h.unanswered, h.distinct, h.once,
      h.matched⟩
  · have hs : Routed (s.received cfg ws now j).relay := h.received hws hnew
    rw [hr] at hs
    rw [he]
    exact hs
  · have hs : Routed (s.received cfg ws now j).relay := h.received hws hnew
    rw [hr] at hs
    rw [he]
    exact ⟨hs.live, hs.asked, hs.unanswered, hs.distinct, hs.once, hs.matched⟩
  · rw [he]
    exact ⟨h.live, h.asked, h.unanswered, h.distinct, h.once, h.matched⟩
  · rw [he]
    exact h.close cfg ws now

theorem initial : Routed Relay.initial :=
  ⟨fun _ _ hp => absurd hp List.not_mem_nil, fun _ _ hp => absurd hp List.not_mem_nil,
    fun _ _ hp => absurd hp List.not_mem_nil, List.nodup_nil, List.nodup_nil,
    fun _ hr => absurd hr List.not_mem_nil⟩

end Routed

/-! ## Every run -/

/-- The answers a step forwards, with what it sends. -/
def Forwards (s s' : Relay) (f : Frame) : Prop :=
  ∃ new, s'.forwards = s.forwards ++ new ∧ (∀ r ∈ new, r.1 = (f.val "req_id").key ∧ r.2.1 = f.case) ∧
    s'.sent = s.sent ++ new.map (fun r => (r.2.2, f.json))

theorem Forwards.none (s : Relay) (f : Frame) : Forwards s s f :=
  ⟨[], (List.append_nil _).symm, (fun _ hr => absurd hr List.not_mem_nil), (List.append_nil _).symm⟩

/-- An answer is sent where it is noted: the socket that waits is open. -/
theorem Routed.forwards (h : Routed s) {s' : Relay} {t : Pending}
    (ha : Answered s s' t (f.val "req_id").key f.case f.json) : Forwards s s' f := by
  cases ha with
  | nobody hget hidle hsent =>
    refine ⟨[], ?_, (fun _ hr => absurd hr List.not_mem_nil), ?_⟩
    · rw [hidle.forwards, List.append_nil]
    · rw [hsent]
      exact (List.append_nil _).symm
  | sent w hget hpending hrequests hforwards hsent =>
    refine ⟨[(_, _, w)], hforwards, fun r hr => ?_, ?_⟩
    · cases List.mem_singleton.mp hr
      exact ⟨rfl, rfl⟩
    · rw [hsent]
      unfold Relay.sendMsg
      rw [if_pos (h.live t _ (get_mem hget))]
      rfl

theorem Routed.step_forwards (h : Routed s) (cfg : Config) (ws now : Nat) (j : Json)
    (hack : (Frame.case ⟨s.frames, j⟩).answersIn ≠ none) :
    Forwards s (s.step cfg (.message ws now (some j))) ⟨s.frames, j⟩ := by
  have hf : Routed { s with frames := s.frames + 1 } :=
    ⟨h.live, h.asked, h.unanswered, h.distinct, h.once, h.matched⟩
  have hfw : Forwards s (s.received cfg ws now j).relay ⟨s.frames, j⟩ := by
    rcases dispatch_routes cfg { s with frames := s.frames + 1 } ws now ⟨s.frames, j⟩ with
      ⟨t, ht, -⟩ | ⟨t, -, ha⟩ | ⟨-, hnone, -⟩
    · generalize Frame.case ⟨s.frames, j⟩ = c at ht hack
      cases c <;> first | exact absurd rfl hack | exact nomatch ht
    · exact hf.forwards ha
    · exact absurd hnone hack
  rcases step_cases cfg s (.message ws now (some j)) with he | ⟨-, he, -⟩ | ⟨w, n, j', s', -, -, hev, hr, he⟩ |
    ⟨w, n, j', s', -, -, hev, hr, he⟩ | ⟨w, n, -, -, hev, -⟩ | ⟨w, n, -, -, hev, -⟩
  · rw [he]
    exact Forwards.none s _
  · exact nomatch he
  · cases hev
    rw [hr] at hfw
    rw [he]
    exact hfw
  · cases hev
    rw [hr] at hfw
    rw [he]
    exact hfw
  · cases hev
    exact absurd rfl hack
  · exact nomatch hev

/-- Every forwarded answer is of the kind its request asks for. -/
def RightKind (s : Relay) : Prop :=
  ∀ r ∈ s.forwards, ∀ q ∈ s.requests, q.1 = r.1 → answers q.2.1 r.2.1 = true

theorem RightKind.received (hk : RightKind s) (h : Routed s) {j : Json}
    (hnew : s.NewId (.message ws now (some j))) (hans : s.NodeAnswer (.message ws now (some j))) :
    RightKind (s.received cfg ws now j).relay := by
  rcases dispatch_routes cfg { s with frames := s.frames + 1 } ws now ⟨s.frames, j⟩ with
    ⟨t, ht, ha⟩ | ⟨t, ht, ha⟩ | ⟨-, -, hi⟩
  · have hwaits : (Frame.case ⟨s.frames, j⟩).waitsIn ≠ none := by
      rw [ht]
      exact Option.some_ne_none t
    intro r hr q hq hid
    unfold Relay.received at hr hq
    rw [ha.forwards] at hr
    rw [ha.requests] at hq
    rcases List.mem_append.mp hq with hq | hq
    · exact hk r hr q hq hid
    · -- the new request: its id was never answered, because it was never asked with
      cases List.mem_singleton.mp hq
      obtain ⟨c, hreq, -⟩ := h.matched r hr
      exact absurd (List.mem_map.mpr ⟨_, hreq, hid.symm⟩) (hnew hwaits)
  · have hack : (Frame.case ⟨s.frames, j⟩).answersIn ≠ none := by
      rw [ht]
      exact Option.some_ne_none t
    unfold Relay.received
    cases ha with
    | nobody hget hidle hsent =>
      intro r hr q hq hid
      rw [hidle.forwards] at hr
      rw [hidle.requests] at hq
      exact hk r hr q hq hid
    | sent w hget hpending hrequests hforwards hsent =>
      intro r hr q hq hid
      rw [hforwards] at hr
      rw [hrequests] at hq
      rcases List.mem_append.mp hr with hr | hr
      · exact hk r hr q hq hid
      · cases List.mem_singleton.mp hr
        exact hans hack q hq hid
  · intro r hr q hq hid
    unfold Relay.received at hr hq
    rw [hi.forwards] at hr
    rw [hi.requests] at hq
    exact hk r hr q hq hid

theorem RightKind.step (hk : RightKind s) (h : Routed s) {ev : Event} (hnew : s.NewId ev)
    (hans : s.NodeAnswer ev) : RightKind (s.step cfg ev) := by
  rcases step_cases cfg s ev with he | ⟨-, -, he⟩ | ⟨ws, now, j, s', -, hws, rfl, hr, he⟩ |
    ⟨ws, now, j, s', -, hws, rfl, hr, he⟩ | ⟨ws, now, -, -, -, he⟩ | ⟨ws, now, -, -, -, he⟩
  · rw [he]
    exact hk
  · rw [he]
    exact hk
  · have hs : RightKind (s.received cfg ws now j).relay := hk.received h hnew hans
    rw [hr] at hs
    rw [he]
    exact hs
  · have hs : RightKind (s.received cfg ws now j).relay := hk.received h hnew hans
    rw [hr] at hs
    rw [he]
    exact hs
  · rw [he]
    exact hk
  · obtain ⟨-, ⟨hreq, hfw⟩, -⟩ := close_waits cfg s ws now
    rw [he]
    unfold RightKind
    rw [hreq, hfw]
    exact hk

/-- **Answers are routed.**  In every run of requests with distinct ids, whatever answers come: an id's answer
    is forwarded at most once, and to the socket whose request with that id waited in the answer's table;
    nobody waits in any table on a closed socket; what an answer sends is what is noted as forwarded; and where
    Nodes answer a request with an answer of its kind, the request it went to is of that kind. -/
theorem answers_routed (cfg : Config) (events : List Event)
    (hall : Always (Relay.step cfg) Relay.NewId Relay.initial events) :
    let s := run (Relay.step cfg) Relay.initial events
    (s.forwards.map Prod.fst).Nodup ∧
    (∀ r ∈ s.forwards, ∃ c, (r.1, c, r.2.2) ∈ s.requests ∧ c.waitsIn = r.2.1.answersIn) ∧
    (∀ t, ∀ p ∈ s.pending t, p.2 ∈ s.conns) ∧
    (∀ ws now j, (Frame.case ⟨s.frames, j⟩).answersIn ≠ none →
      Forwards s (s.step cfg (.message ws now (some j))) ⟨s.frames, j⟩) ∧
    (Always (Relay.step cfg) Relay.NodeAnswer Relay.initial events →
      ∀ r ∈ s.forwards, ∃ c, (r.1, c, r.2.2) ∈ s.requests ∧ answers c r.2.1 = true) := by
  intro s
  have h : Routed s := hall.inv_run Routed (fun s ev h hnew => h.step hnew) Routed.initial
  refine ⟨h.once, h.matched, h.live, h.step_forwards cfg, fun hans r hr => ?_⟩
  have hboth := hall.and hans
  have hk : Routed s ∧ RightKind s := hboth.inv_run (fun s => Routed s ∧ RightKind s)
    (fun s ev hi hc => ⟨hi.1.step hc.1, hi.2.step hi.1 hc.1 hc.2⟩)
    ⟨Routed.initial, (fun _ hr => absurd hr List.not_mem_nil)⟩
  obtain ⟨c, hreq, -⟩ := h.matched r hr
  exact ⟨c, hreq, hk.2 r hr _ hreq rfl⟩

def leaseGet (reqId nodeId : String) : Json :=
  .obj [("type", .str "workspace_lease_get"), ("req_id", .str reqId), ("node_id", .str nodeId)]

def leaseAckFrame (reqId : String) : Json :=
  .obj [("type", .str "workspace_lease_ack"), ("req_id", .str reqId)]

/-- A node registers, is asked, and answers twice. -/
def askedTwice : List Event :=
  [.connect, .message 0 0 (registerFrame "n"), .connect, .message 1 1 (some (leaseGet "r" "n")),
    .message 0 2 (some (leaseAckFrame "r")), .message 0 3 (some (leaseAckFrame "r"))]

theorem answers_routed_twice :
    let s := run (Relay.step openRelay) Relay.initial askedTwice
    s.forwards = [(.str "r", .leaseAck, 1)] ∧
      ∀ r ∈ s.forwards, ∃ c, (r.1, c, r.2.2) ∈ s.requests ∧ answers c r.2.1 = true := by
  refine ⟨by decide +kernel, (answers_routed openRelay askedTwice ?_).2.2.2.2 ?_⟩
  · refine ⟨trivial, ?_, trivial, ?_, ?_, ?_, trivial⟩ <;> decide +kernel
  · refine ⟨trivial, ?_, trivial, ?_, ?_, ?_, trivial⟩ <;> decide +kernel

def startRequest (reqId nodeId : String) : Json :=
  .obj [("type", .str "run_start"), ("req_id", .str reqId), ("to", .str nodeId)]

def killAckFrame (reqId : String) : Json :=
  .obj [("type", .str "terminal_session_kill_ack"), ("req_id", .str reqId)]

/-- A node registers, is asked to start a run, and answers with the end of a terminal session. -/
def answeredInAnotherKind : List Event :=
  [.connect, .message 0 0 (registerFrame "n"), .connect, .message 1 1 (some (startRequest "r" "n")),
    .message 0 2 (some (killAckFrame "r"))]

/-- **The kind of an answer is not checked**: two kinds of requests wait in one table, and the answer to
    the one goes to the socket that sent the other. -/
theorem kind_not_checked :
    Always (Relay.step openRelay) Relay.NewId Relay.initial answeredInAnotherKind ∧
    ∃ r ∈ (run (Relay.step openRelay) Relay.initial answeredInAnotherKind).forwards,
      ¬ ∃ c, (r.1, c, r.2.2) ∈ (run (Relay.step openRelay) Relay.initial answeredInAnotherKind).requests ∧
        answers c r.2.1 = true := by
  have hforwards : (run (Relay.step openRelay) Relay.initial answeredInAnotherKind).forwards =
      [(.str "r", .sessionKillAck, 1)] := by decide +kernel
  have hrequests : (run (Relay.step openRelay) Relay.initial answeredInAnotherKind).requests =
      [(.str "r", .runStart, 1)] := by decide +kernel
  refine ⟨⟨trivial, ?_, trivial, ?_, ?_, trivial⟩, (.str "r", .sessionKillAck, 1), ?_, ?_⟩
  · decide +kernel
  · decide +kernel
  · decide +kernel
  · rw [hforwards]
    exact List.mem_singleton_self _
  · rintro ⟨c, hc, hkind⟩
    rw [hrequests] at hc
    cases List.mem_singleton.mp hc
    exact absurd hkind (by decide)

end VibeRelayServer
