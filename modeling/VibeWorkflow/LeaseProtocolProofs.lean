import VibeWorkflow.LeaseEffectProofs
import VibeWorkflow.TripleProofs

/-!
# Reasoning about runs of the lease code

An argument about leases has two kinds of thread, the attempt in flight and the public calls, each
with what it relies on and what it owes.  A `Protocol` is such a division of labour; if its
obligations hold, every thread of every run is safe, and properties of runs follow from what each
call finds when it takes effect.

* **`Protocol.Sound`** — the obligations: calls keep the invariant and what others rely on, and the
  programs meet the calls' preconditions.
* **`Protocol.Sound.reach`** — every reachable system has safe threads.
* **`step_move`** — what a step does to the world.
-/

namespace VibeLease

open VibeJson VibeContract VibeTemplate VibeValidator VibeStore VibeAdmission VibeControl VibeNode
open AsyncLogic
open VibeRuntime (AcquireOutcome Config)

/-! ## Conditions on runs -/

/-- The call a thread is about to make. -/
def nextOp {α : Type} (t : Thread sig α) : Option Op :=
  match t with
  | .run (.call op _) => some op
  | _ => none

def Sys.nextOp (s : Sys) : Who → Option Op
  | .attempt => s.attempt.bind VibeLease.nextOp
  | .call i => s.calls[i]?.bind VibeLease.nextOp

/-- What a run may meet: the inputs of a call, and the worlds a crash may strike. -/
structure Terms where
  call : Op → World → Input → Bool
  crash : World → Bool

def Terms.check (T : Terms) (s : Sys) : Action → Bool
  | .exec who inp => (s.nextOp who).all (fun op => T.call op s.w inp)
  | .crash => T.crash s.w
  | _ => true

def Terms.ok (T : Terms) (s : Sys) (a : Action) : Prop := T.check s a = true

theorem Terms.ok_call {T : Terms} {s : Sys} {who : Who} {inp : Input} {op : Op}
    (h : T.ok s (.exec who inp)) (hop : s.nextOp who = some op) : T.call op s.w inp = true := by
  simp only [Terms.ok, Terms.check, hop, Option.all_some] at h
  exact h

/-- A move of the world that no thread of the process makes. -/
inductive EnvMove (cfg : Config) (w : World) : World → Prop where
  | drive {status : WorkflowStatus} (h : drivable w.status status = true) :
      EnvMove cfg w { w with status := status }
  | node {nodeId : String} {act : NodeAct} {n' : Node} (hf : foreign cfg act = true)
      (h : (w.nodes nodeId).step nodeId act = some n') : EnvMove cfg w (w.setNode nodeId n')
  | stop : EnvMove cfg w { w with stopped := true }

/-! ## Protocols -/

/-- What the attempt and the calls may assume of each other and owe to each other. -/
structure Protocol (cfg : Config) (T : Terms) where
  inv : World → Prop
  attemptRely : World → World → Prop
  attemptRely_refl : ∀ w, attemptRely w w
  attemptRely_trans : ∀ {a b c}, attemptRely a b → attemptRely b c → attemptRely a c
  callRely : World → World → Prop
  callRely_refl : ∀ w, callRely w w
  callRely_trans : ∀ {a b c}, callRely a b → callRely b c → callRely a c
  attemptPre : Op → World → Prop
  callPre : Op → World → Prop
  /-- What an attempt leaves when it returns, and when it throws. -/
  done : Attempt → World → Prop
  threw : World → Prop

section

variable {cfg : Config} {T : Terms} (P : Protocol cfg T)

/-- A call as the terms allow it. -/
def allowed (cfg : Config) (T : Terms) (op : Op) (w : World) (r : Except CallError (Ans op)) (w' : World) : Prop :=
  ∃ inp, T.call op w inp ∧ exec cfg op w inp = some (r, w')

@[reducible] def Protocol.attemptContract : Contract sig World where
  inv := P.inv
  rely := P.attemptRely
  rely_refl := P.attemptRely_refl
  rely_trans := P.attemptRely_trans
  pre := P.attemptPre
  exec := allowed cfg T
  wake := fun _ _ w => w
  flags := World.flags
  linv := fun l => l.elim
  lpost := fun l => l.elim

@[reducible] def Protocol.callContract : Contract sig World where
  inv := P.inv
  rely := P.callRely
  rely_refl := P.callRely_refl
  rely_trans := P.callRely_trans
  pre := P.callPre
  exec := allowed cfg T
  wake := fun _ _ w => w
  flags := World.flags
  linv := fun l => l.elim
  lpost := fun l => l.elim

/-- What a finished attempt leaves. -/
def Protocol.attemptPost : Except CallError Attempt × Flags → World → Prop :=
  finished (S := sig) P.done (fun _ => P.threw)

/-- Nothing is asked of a finished call. -/
def callPost : Except CallError Unit × Flags → World → Prop :=
  finished (S := sig) (fun _ _ => True) (fun _ _ => True)

/-- **The obligations of a protocol.** -/
structure Protocol.Sound : Prop where
  init : P.inv initial.w
  attempt_step : ∀ {op w inp r w'}, P.inv w → P.attemptPre op w → T.call op w inp →
    exec cfg op w inp = some (r, w') → P.inv w' ∧ P.callRely w w'
  attempt_alone : ∀ w, ¬ P.attemptPre .joinLeaseWork w
  call_step : ∀ {op w inp r w'}, P.inv w → P.callPre op w → T.call op w inp →
    exec cfg op w inp = some (r, w') → P.inv w' ∧ P.attemptRely w w' ∧ P.callRely w w'
  env : ∀ {w w'}, P.inv w → EnvMove cfg w w' → P.inv w' ∧ P.attemptRely w w' ∧ P.callRely w w'
  settle : ∀ {w : World} {r : Except CallError Attempt × Flags}, P.inv w → P.attemptPost r w →
    P.inv (w.settle r.1) ∧ P.callRely w (w.settle r.1)
  crash : ∀ {w}, P.inv w → T.crash w → P.inv w.crash
  spawn : ∀ {w}, P.inv w → P.callPre .joinLeaseWork w → w.leaseWork = none →
    threadOk P.attemptContract P.attemptPost
      (attemptStart cfg { w with leaseWork := some w.outcomes.length })
      { w with leaseWork := some w.outcomes.length }
  programs : ∀ (c : LeaseCall) (fl : Flags) (w : World), P.inv w →
    threadOk P.callContract callPost (.run (c.program cfg fl)) w

/-- Every thread is safe where it stands. -/
structure Protocol.Safe (s : Sys) : Prop where
  inv : P.inv s.w
  live : s.w.leaseWork.isSome = s.attempt.isSome
  attempt : ∀ t, s.attempt = some t → threadOk P.attemptContract P.attemptPost t s.w
  calls : ∀ t ∈ s.calls, threadOk P.callContract callPost t s.w

end

/-! ## Steps -/

section

variable {cfg : Config} {T : Terms} {P : Protocol cfg T} {s s' : Sys}

theorem threadExec_cases {α : Type} {t t' : Thread sig α} {w w' : World} {inp : Input}
    (h : threadExec cfg t w inp = some (t', w')) :
    ∃ op k r, t = .run (.call op k) ∧ exec cfg op w inp = some (r, w') ∧ t' = .woken op r k := by
  cases t with
  | run p =>
    cases p with
    | ret a => exact nomatch h
    | loop l fl k => exact l.elim
    | call op k =>
      simp only [threadExec] at h
      cases hex : exec cfg op w inp with
      | none =>
        rw [hex] at h
        exact nomatch h
      | some v =>
        rw [hex] at h
        cases h
        exact ⟨op, k, _, rfl, hex, rfl⟩
  | woken op r k => exact nomatch h

theorem threadWake_cases {α : Type} {t t' : Thread sig α} {w : World} (h : threadWake t w = some t') :
    ∃ op r k, t = .woken op r k ∧ t' = .run (k r w.flags) := by
  cases t with
  | run p => exact nomatch h
  | woken op r k =>
    cases h
    exact ⟨op, r, k, rfl, rfl⟩

/-- A step of a system, as far as the world goes. -/
inductive Move (cfg : Config) (s : Sys) : Action → World → Prop where
  | exec {who : Who} {inp : Input} {op : Op} {r : Except CallError (Ans op)} {w' : World}
      (hop : s.nextOp who = some op) (hex : exec cfg op s.w inp = some (r, w')) :
      Move cfg s (.exec who inp) w'
  | env {a : Action} {w' : World} (h : EnvMove cfg s.w w') : Move cfg s a w'
  | same {a : Action} : Move cfg s a s.w
  | settle {r : Except CallError Attempt} {fl : Flags} (h : s.attempt = some (.run (.ret (r, fl)))) :
      Move cfg s .settle (s.w.settle r)
  | crash : Move cfg s .crash s.w.crash

theorem step_move {a : Action} (hs : step cfg s a = some s') : Move cfg s a s'.w := by
  cases a with
  | exec who inp =>
    cases who with
    | attempt =>
      simp only [step] at hs
      cases ht : s.attempt with
      | none =>
        rw [ht] at hs
        exact nomatch hs
      | some t =>
        rw [ht] at hs
        obtain ⟨⟨t', w'⟩, hex, heq⟩ := Option.map_eq_some_iff.mp hs
        cases heq
        obtain ⟨op, k, r, rfl, hexec, rfl⟩ := threadExec_cases hex
        exact .exec (by simp only [Sys.nextOp, ht]; rfl) hexec
    | call i =>
      simp only [step] at hs
      cases ht : s.calls[i]? with
      | none =>
        rw [ht] at hs
        exact nomatch hs
      | some t =>
        rw [ht] at hs
        obtain ⟨⟨t', w'⟩, hex, heq⟩ := Option.map_eq_some_iff.mp hs
        cases heq
        obtain ⟨op, k, r, rfl, hexec, rfl⟩ := threadExec_cases hex
        exact .exec (by simp only [Sys.nextOp, ht]; rfl) hexec
  | wake who =>
    cases who with
    | attempt =>
      simp only [step] at hs
      split at hs
      · exact nomatch hs
      · obtain ⟨t', -, heq⟩ := Option.map_eq_some_iff.mp hs
        cases heq
        exact .same
    | call i =>
      simp only [step] at hs
      split at hs
      · exact nomatch hs
      · obtain ⟨t', -, heq⟩ := Option.map_eq_some_iff.mp hs
        cases heq
        exact .same
  | settle =>
    simp only [step] at hs
    split at hs
    · rename_i ht
      cases hs
      exact .settle ht
    · exact nomatch hs
  | leave i =>
    simp only [step] at hs
    split at hs
    · cases hs
      exact .same
    · exact nomatch hs
  | invoke c =>
    cases hs
    exact .same
  | drive status =>
    simp only [step] at hs
    split at hs
    · rename_i hd
      cases hs
      exact .env (.drive hd)
    · exact nomatch hs
  | node nodeId act =>
    simp only [step] at hs
    split at hs
    · rename_i hf
      obtain ⟨n', hn, heq⟩ := Option.map_eq_some_iff.mp hs
      cases heq
      exact .env (.node hf hn)
    · exact nomatch hs
  | shutdown =>
    cases hs
    exact .env .stop
  | crash =>
    cases hs
    exact .crash

/-- Only joining an attempt changes which attempt is in flight. -/
theorem exec_leaseWork {op : Op} {inp : Input} {w w' : World} {r : Except CallError (Ans op)}
    (h : exec cfg op w inp = some (r, w')) :
    w'.leaseWork = w.leaseWork ∨
      (op = .joinLeaseWork ∧ w.leaseWork = none ∧ w' = { w with leaseWork := some w.outcomes.length }) := by
  cases exec_effect h with
  | joined hnone => exact .inr ⟨rfl, hnone, rfl⟩
  | marked hm =>
    rename_i site _
    cases site <;> exact .inl rfl
  | acquired hrem =>
    rcases remote_cases hrem with ⟨-, rfl⟩ | ⟨_, rfl, -⟩ <;> exact .inl rfl
  | read hrem =>
    rcases remote_cases hrem with ⟨-, rfl⟩ | ⟨_, rfl, -⟩ <;> exact .inl rfl
  | released hrem =>
    rename_i site _ _ _
    rcases remote_cases hrem with ⟨-, rfl⟩ | ⟨_, rfl, -⟩ <;> cases site <;> exact .inl rfl
  | _ => exact .inl rfl

/-- A change all threads can bear. -/
theorem Protocol.Safe.move {w' : World} (h : P.Safe s) (hi : P.inv w') (hw : w'.leaseWork = s.w.leaseWork)
    (ha : P.attemptRely s.w w') (hc : P.callRely s.w w') : P.Safe { s with w := w' } where
  inv := hi
  live := by
    rw [hw]
    exact h.live
  attempt := fun t ht => threadOk_rely (h.attempt t ht) ha
  calls := fun t ht => threadOk_rely (h.calls t ht) hc

theorem Protocol.Safe.calls_set {w' : World} {i : Nat} {t' : CallThread} (h : P.Safe s)
    (hc : P.callRely s.w w') (ht' : threadOk P.callContract callPost t' w') :
    ∀ t ∈ s.calls.set i t', threadOk P.callContract callPost t w' := by
  intro t ht
  rcases List.mem_or_eq_of_mem_set ht with ht | rfl
  · exact threadOk_rely (h.calls t ht) hc
  · exact ht'

theorem step_attempt {inp : Input} (hP : P.Sound) (h : P.Safe s) (hok : T.ok s (.exec .attempt inp))
    (hs : step cfg s (.exec .attempt inp) = some s') : P.Safe s' := by
  simp only [step] at hs
  cases ht : s.attempt with
  | none =>
    rw [ht] at hs
    exact nomatch hs
  | some t =>
    rw [ht] at hs
    obtain ⟨⟨t', w'⟩, hex, heq⟩ := Option.map_eq_some_iff.mp hs
    cases heq
    obtain ⟨op, k, r, rfl, hexec, rfl⟩ := threadExec_cases hex
    have hcall : T.call op s.w inp = true := Terms.ok_call hok (by simp only [Sys.nextOp, ht]; rfl)
    obtain ⟨hpre, hpost⟩ := threadOk_exec (h.attempt _ ht) h.inv
    obtain ⟨hinv, hrely⟩ := hP.attempt_step h.inv hpre hcall hexec
    refine ⟨hinv, ?_, ?_, fun t ht => threadOk_rely (h.calls t ht) hrely⟩
    · rcases exec_leaseWork hexec with hw | ⟨rfl, -, -⟩
      · show w'.leaseWork.isSome = _
        rw [hw, h.live, ht]
        rfl
      · exact absurd hpre (hP.attempt_alone s.w)
    · rintro t ⟨⟩
      exact hpost r w' ⟨inp, hcall, hexec⟩

theorem step_call {i : Nat} {inp : Input} (hP : P.Sound) (h : P.Safe s) (hok : T.ok s (.exec (.call i) inp))
    (hs : step cfg s (.exec (.call i) inp) = some s') : P.Safe s' := by
  simp only [step] at hs
  cases ht : s.calls[i]? with
  | none =>
    rw [ht] at hs
    exact nomatch hs
  | some t =>
    rw [ht] at hs
    obtain ⟨⟨t', w'⟩, hex, heq⟩ := Option.map_eq_some_iff.mp hs
    cases heq
    obtain ⟨op, k, r, rfl, hexec, rfl⟩ := threadExec_cases hex
    have hcall : T.call op s.w inp = true := Terms.ok_call hok (by simp only [Sys.nextOp, ht]; rfl)
    obtain ⟨hpre, hpost⟩ := threadOk_exec (h.calls _ (List.mem_of_getElem? ht)) h.inv
    obtain ⟨hinv, harely, hcrely⟩ := hP.call_step h.inv hpre hcall hexec
    have hcalls := h.calls_set (i := i) hcrely (hpost r w' ⟨inp, hcall, hexec⟩)
    rcases exec_leaseWork hexec with hw | ⟨rfl, hnone, hw'⟩
    · -- no new attempt: the one in flight, if any, goes on
      have hsame : (s.spawn cfg w' (s.calls.set i (.woken op r k))).attempt = s.attempt := by
        show (if w'.leaseWork.isSome ∧ s.attempt.isNone then _ else s.attempt) = s.attempt
        rw [if_neg]
        rintro ⟨hsome, hn⟩
        rw [hw, h.live] at hsome
        rw [Option.isNone_iff_eq_none] at hn
        rw [hn] at hsome
        exact nomatch hsome
      refine ⟨hinv, ?_, ?_, hcalls⟩
      · rw [hsame]
        show w'.leaseWork.isSome = _
        rw [hw]
        exact h.live
      · intro t ht'
        rw [hsame] at ht'
        exact threadOk_rely (h.attempt t ht') harely
    · have hidle : s.attempt = none := by
        have hl := h.live
        rw [hnone] at hl
        cases ha : s.attempt with
        | none => rfl
        | some t =>
          rw [ha] at hl
          exact nomatch hl
      have hnew : (s.spawn cfg w' (s.calls.set i (.woken .joinLeaseWork r k))).attempt
          = some (attemptStart cfg w') := by
        show (if w'.leaseWork.isSome ∧ s.attempt.isNone then _ else s.attempt) = _
        rw [if_pos ⟨by rw [hw']; rfl, by rw [hidle]; rfl⟩]
      refine ⟨hinv, ?_, ?_, hcalls⟩
      · rw [hnew]
        show w'.leaseWork.isSome = _
        rw [hw']
        rfl
      · intro t ht'
        rw [hnew] at ht'
        cases ht'
        subst hw'
        exact hP.spawn h.inv hpre hnone

theorem step_wake {who : Who} (h : P.Safe s) (hs : step cfg s (.wake who) = some s') : P.Safe s' := by
  cases who with
  | attempt =>
    simp only [step] at hs
    cases ht : s.attempt with
    | none =>
      rw [ht] at hs
      exact nomatch hs
    | some t =>
      rw [ht] at hs
      obtain ⟨t', hw, heq⟩ := Option.map_eq_some_iff.mp hs
      cases heq
      obtain ⟨op, r, k, rfl, rfl⟩ := threadWake_cases hw
      refine ⟨h.inv, by rw [h.live, ht]; rfl, ?_, h.calls⟩
      rintro t ⟨⟩
      exact threadOk_wake (h.attempt _ ht) h.inv
  | call i =>
    simp only [step] at hs
    cases ht : s.calls[i]? with
    | none =>
      rw [ht] at hs
      exact nomatch hs
    | some t =>
      rw [ht] at hs
      obtain ⟨t', hw, heq⟩ := Option.map_eq_some_iff.mp hs
      cases heq
      obtain ⟨op, r, k, rfl, rfl⟩ := threadWake_cases hw
      refine ⟨h.inv, h.live, h.attempt, ?_⟩
      exact h.calls_set (P.callRely_refl s.w) (threadOk_wake (h.calls _ (List.mem_of_getElem? ht)) h.inv)

/-- **A step as the terms allow it keeps every thread safe.** -/
theorem Protocol.Sound.step {a : Action} (hP : P.Sound) (h : P.Safe s) (hok : T.ok s a)
    (hs : VibeLease.step cfg s a = some s') : P.Safe s' := by
  cases a with
  | exec who inp =>
    cases who with
    | attempt => exact step_attempt hP h hok hs
    | call i => exact step_call hP h hok hs
  | wake who => exact step_wake h hs
  | settle =>
    simp only [VibeLease.step] at hs
    split at hs
    · rename_i r fl ht
      cases hs
      have hpost := threadOk_ret (h.attempt _ ht) h.inv
      obtain ⟨hinv, hrely⟩ := hP.settle h.inv hpost
      refine ⟨hinv, rfl, ?_, fun t ht => threadOk_rely (h.calls t ht) hrely⟩
      rintro t ⟨⟩
    · exact nomatch hs
  | leave i =>
    simp only [VibeLease.step] at hs
    split at hs
    · cases hs
      exact ⟨h.inv, h.live, h.attempt, fun t ht => h.calls t (List.mem_of_mem_eraseIdx ht)⟩
    · exact nomatch hs
  | invoke c =>
    cases hs
    refine ⟨h.inv, h.live, h.attempt, fun t ht => ?_⟩
    rcases List.mem_append.mp ht with ht | ht
    · exact h.calls t ht
    · rw [List.mem_singleton.mp ht]
      exact hP.programs c s.w.flags s.w h.inv
  | drive status =>
    simp only [VibeLease.step] at hs
    split at hs
    · rename_i hd
      cases hs
      obtain ⟨hinv, ha, hc⟩ := hP.env h.inv (.drive hd)
      exact h.move hinv rfl ha hc
    · exact nomatch hs
  | node nodeId act =>
    simp only [VibeLease.step] at hs
    split at hs
    · rename_i hf
      obtain ⟨n', hn, heq⟩ := Option.map_eq_some_iff.mp hs
      cases heq
      obtain ⟨hinv, ha, hc⟩ := hP.env h.inv (.node hf hn)
      exact h.move hinv rfl ha hc
    · exact nomatch hs
  | shutdown =>
    cases hs
    obtain ⟨hinv, ha, hc⟩ := hP.env h.inv .stop
    exact h.move hinv rfl ha hc
  | crash =>
    cases hs
    refine ⟨hP.crash h.inv hok, rfl, ?_, fun t ht => absurd ht List.not_mem_nil⟩
    rintro t ⟨⟩

/-- **Every thread of every run is safe.** -/
theorem Protocol.Sound.reach (hP : P.Sound) (h : Reach cfg T.ok s) : P.Safe s := by
  induction h with
  | start =>
    refine ⟨hP.init, rfl, ?_, fun t ht => absurd ht List.not_mem_nil⟩
    rintro t ⟨⟩
  | step _ hok hs ih => exact hP.step ih hok hs

/-- What an attempt's call finds when it takes effect. -/
theorem Protocol.Safe.attemptPre {op : Op} (h : P.Safe s) (hop : s.nextOp .attempt = some op) :
    P.attemptPre op s.w := by
  obtain ⟨t, ht, hn⟩ := Option.bind_eq_some_iff.mp hop
  have hok := h.attempt t ht
  unfold VibeLease.nextOp at hn
  split at hn
  · cases hn
    exact (threadOk_exec hok h.inv).1
  · exact nomatch hn

/-- What a call finds when it takes effect. -/
theorem Protocol.Safe.callPre {i : Nat} {op : Op} (h : P.Safe s) (hop : s.nextOp (.call i) = some op) :
    P.callPre op s.w := by
  obtain ⟨t, ht, hn⟩ := Option.bind_eq_some_iff.mp hop
  have hok := h.calls t (List.mem_of_getElem? ht)
  unfold VibeLease.nextOp at hn
  split at hn
  · cases hn
    exact (threadOk_exec hok h.inv).1
  · exact nomatch hn

end

/-! ## Executed runs -/

/-- A sequence of actions whose steps all meet the terms. -/
def runUnder (cfg : Config) (T : Terms) : Sys → List Action → Option Sys
  | s, [] => some s
  | s, a :: rest =>
    if T.check s a then
      match step cfg s a with
      | some s' => runUnder cfg T s' rest
      | none => none
    else none

theorem reach_of_runUnder {cfg : Config} {T : Terms} {s s' : Sys} {actions : List Action} (h : Reach cfg T.ok s)
    (hrun : runUnder cfg T s actions = some s') : Reach cfg T.ok s' := by
  induction actions generalizing s with
  | nil =>
    cases hrun
    exact h
  | cons a rest ih =>
    simp only [runUnder] at hrun
    split at hrun
    · rename_i hcheck
      split at hrun
      · rename_i s₁ hstep
        exact ih (.step h hcheck hstep) hrun
      · exact nomatch hrun
    · exact nomatch hrun

/-- An executed run that leads to a state with a property. -/
theorem reach_exists (cfg : Config) (T : Terms) (actions : List Action) (P : Sys → Bool)
    (h : (runUnder cfg T initial actions).any P = true) : ∃ s, Reach cfg T.ok s ∧ P s = true := by
  obtain ⟨s, hs, hP⟩ := Option.any_eq_true _ _ |>.mp h
  exact ⟨s, reach_of_runUnder .start hs, hP⟩

end VibeLease
