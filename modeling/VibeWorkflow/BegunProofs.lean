import VibeWorkflow.HumanGateProofs

/-!
# A pump belongs to a started workflow

A public call asks for a pump only after it read a running row, or started or resumed the
workflow itself.  No write puts a workflow back to where it was before its start, so while a pump
is there its workflow is a started one.

* **`step_calls`** — what a step does to the threads of the public calls.
* **`waits_program`** — every public call waits for such an answer.
* **`reach_begun`** — in every run.
-/

namespace VibeRuntime

open VibeJson VibeContract VibeRouting VibeTemplate VibeValidator VibeStore VibeAdmission VibeControl
open AsyncLogic

/-! ## Programs that wait for a start -/

/-- The workflow has been started at some time. -/
def Begun (w : World) : Prop := w.db.wf.status ≠ .draft ∧ w.db.wf.status ≠ .ready

/-- Answers only a started workflow gives. -/
def showsBegun : (op : Op) → Ans op → Prop
  | .getWorkflow _, wf => WorkflowRow.status wf = .running
  | .startDurably _, _ | .resume _, _ => True
  | _, _ => False

/-- A program that asks for a pump only after such an answer. -/
def Waits {α : Type} : Prog sig α → Prop
  | .ret _ => True
  | .call op k => op ≠ .ensurePump ∧ ∀ r fl, (∃ a, r = .ok a ∧ showsBegun op a) ∨ Waits (k r fl)
  | .loop _ _ _ => False

def WaitsJs {α : Type} (m : Rt α) : Prop := ∀ fl, Waits (m fl)

section

variable {α β : Type}

theorem Waits.bind {p : Prog sig α} {f : α → Prog sig β} (h : Waits p) (hf : ∀ a, Waits (f a)) :
    Waits (p.bind f) := by
  induction p with
  | ret a => exact hf a
  | call op k ih => exact ⟨h.1, fun r fl => (h.2 r fl).imp id (ih r fl)⟩
  | loop l fl k _ => exact h.elim

theorem waits_pure (a : α) : WaitsJs (pure a : Rt α) := fun _ => trivial

theorem waits_fail (e : CallError) : WaitsJs (fail e : Rt α) := fun _ => trivial

theorem waits_call {op : Op} (h : op ≠ .ensurePump) : WaitsJs (call op) :=
  fun _ => ⟨h, fun _ _ => Or.inr trivial⟩

theorem waits_bind {m : Rt α} {f : α → Rt β} (h : WaitsJs m) (hf : ∀ a, WaitsJs (f a)) :
    WaitsJs (m >>= f) := by
  intro fl
  refine (h fl).bind ?_
  rintro ⟨r, fl'⟩
  cases r with
  | ok a => exact hf a fl'
  | error e => trivial

theorem waits_catching {m : Rt α} {handler : CallError → Rt α} (h : WaitsJs m)
    (hh : ∀ e, WaitsJs (handler e)) : WaitsJs (catching m handler) := by
  intro fl
  refine (h fl).bind ?_
  rintro ⟨r, fl'⟩
  cases r with
  | ok a => trivial
  | error e => exact hh e fl'

theorem waits_flags {f : Flags → Rt β} (h : ∀ fl, WaitsJs (f fl)) : WaitsJs (getFlags >>= f) :=
  fun fl => h fl fl

theorem waits_ite {c : Prop} [Decidable c] {m₁ m₂ : Rt α} (h₁ : c → WaitsJs m₁)
    (h₂ : ¬ c → WaitsJs m₂) : WaitsJs (if c then m₁ else m₂) := by
  split
  · rename_i h
    exact h₁ h
  · rename_i h
    exact h₂ h

/-- After an answer of a started workflow anything may follow. -/
theorem waits_seen {op : Op} {f : Ans op → Rt β} (hop : op ≠ .ensurePump)
    (hf : ∀ a, showsBegun op a ∨ WaitsJs (f a)) : WaitsJs (call op >>= f) := by
  intro fl
  refine ⟨hop, fun r fl' => ?_⟩
  cases r with
  | error e => exact Or.inr trivial
  | ok a =>
    rcases hf a with h | h
    · exact Or.inl ⟨a, rfl, h⟩
    · exact Or.inr (h fl')

end

theorem waits_performCancellation : WaitsJs performCancellation := by
  refine waits_bind (waits_call nofun) (fun wf => waits_ite (fun _ => waits_pure _) (fun _ =>
    waits_bind (waits_call nofun) (fun _ => ?_)))
  split
  · exact waits_call nofun
  · refine waits_bind (waits_call nofun) (fun step => ?_)
    split
    · exact waits_call nofun
    · split
      · exact waits_call nofun
      · exact waits_bind (waits_catching (waits_call nofun) (fun _ => waits_pure _))
          (fun _ => waits_call nofun)

theorem waits_settleLeaseReleases (cfg : Config) : WaitsJs (settleLeaseReleases cfg) := by
  have hone : ∀ lease left attempt, WaitsJs (releaseLeaseWithRetry lease left attempt) := by
    intro lease left
    induction left with
    | zero => exact fun _ => waits_pure _
    | succ left ih =>
      intro attempt
      refine waits_flags (fun fl => waits_ite (fun _ => waits_pure _) (fun _ => waits_bind
        (waits_catching (waits_bind (waits_call nofun) (fun _ => waits_bind (waits_call nofun)
          (fun _ => waits_pure _))) (fun _ => waits_ite (fun _ => waits_pure _) (fun _ => waits_pure _)))
        (fun again => waits_ite (fun _ => ?_) (fun _ => waits_pure _))))
      exact waits_bind (waits_call nofun) (fun _ => ih _)
  have hall : ∀ leases, WaitsJs (releaseAll cfg leases) := by
    intro leases
    induction leases with
    | nil => exact waits_pure _
    | cons lease rest ih =>
      exact waits_ite (fun _ => ih) (fun _ => waits_bind (waits_call nofun) (fun _ =>
        waits_bind (hone _ _ _) (fun _ => ih)))
  exact waits_ite (fun _ => waits_bind (waits_call nofun) (fun _ => waits_ite
    (fun _ => waits_bind (waits_call nofun) (fun _ => hall _)) (fun _ => waits_pure _))) (fun _ => waits_pure _)

/-- Starting and registering a pump. -/
theorem waits_startDurably (ev : WorkflowEvent) : WaitsJs (do
    let _ : Unit ← call (.startDurably ev)
    call .ensurePump) :=
  waits_seen nofun (fun _ => Or.inl trivial)

/-- **Every public call** asks for a pump only for a started workflow. -/
theorem waits_program (cfg : Config) (c : ApiCall) : WaitsJs (c.program cfg) := by
  cases c with
  | start =>
    refine waits_seen nofun (fun (wf : WorkflowRow) => ?_)
    by_cases hrun : wf.status = .running
    · exact Or.inl hrun
    refine Or.inr (waits_ite (fun _ => waits_pure _) (fun _ => waits_ite (fun h => absurd h hrun)
      (fun _ => waits_ite (fun _ => waits_fail _) (fun _ => ?_))))
    split
    · exact waits_fail _
    · refine waits_ite (fun _ => waits_fail _) (fun _ => waits_ite (fun _ => waits_bind (waits_call nofun)
        (fun (leases : LeaseReply) => ?_)) (fun _ => waits_startDurably _))
      cases leases.outcome with
      | acquired => exact waits_startDurably _
      | blocked => exact waits_fail _
      | pending => exact waits_fail _
  | reconcile =>
    refine waits_flags (fun fl => waits_ite (fun _ => waits_pure _) (fun _ => waits_bind (waits_call nofun)
      (fun wf => waits_ite (fun _ => waits_pure _) (fun _ => waits_bind (waits_call nofun)
        (fun (leases : LeaseReply) => ?_)))))
    cases leases.outcome with
    | acquired => exact waits_startDurably _
    | blocked => exact waits_pure _
    | pending => exact waits_pure _
  | recover =>
    refine waits_seen nofun (fun (wf : WorkflowRow) => ?_)
    by_cases hrun : wf.status = .running
    · exact Or.inl hrun
    · exact Or.inr (waits_ite (fun h => absurd h hrun) (fun _ => waits_pure _))
  | cancel =>
    exact waits_bind (waits_call nofun) (fun wf => waits_ite (fun _ => waits_pure _) (fun _ =>
      waits_bind (waits_call nofun) (fun _ => waits_bind (waits_call nofun) (fun _ =>
        waits_bind waits_performCancellation (fun _ => waits_settleLeaseReleases cfg)))))
  | resume =>
    refine waits_seen nofun (fun (wf : WorkflowRow) => ?_)
    by_cases hrun : wf.status = .running
    · exact Or.inl hrun
    refine Or.inr (waits_ite (fun _ => waits_bind (waits_call nofun) (fun req => ?_))
      (fun _ => waits_ite (fun h => absurd h hrun) (fun _ => waits_pure _)))
    split
    · exact waits_pure _
    · exact waits_ite (fun _ => waits_seen nofun (fun _ => Or.inl trivial)) (fun _ => waits_pure _)
  | answer id value => exact waits_call nofun
  | decide id approved =>
    exact waits_ite (fun _ => waits_call nofun) (fun _ => waits_bind (waits_call nofun) (fun _ =>
      waits_bind (waits_call nofun) (fun _ => waits_settleLeaseReleases cfg)))

def threadWaits {α : Type} : Thread sig α → Prop
  | .run p => Waits p
  | .woken _ r k => ∀ fl, Waits (k r fl)

/-- A pump is there, or asked for, only for a started workflow. -/
structure BegunInv (s : Sys) : Prop where
  pump : s.pump.isSome → Begun s.w
  calls : ∀ t ∈ s.calls, Begun s.w ∨ threadWaits t

section

variable {cfg : Config} {w w' : World} {op : Op}

theorem newStatus_begun (hg : EventGuard op) {st : WorkflowStatus} (h : op.newStatus = some st) :
    st ≠ .draft ∧ st ≠ .ready := by
  cases op with
  | terminalize status edge ev =>
    cases h
    rcases hg.2 with ⟨rfl, -⟩ | ⟨rfl, -⟩ | ⟨rfl, -⟩ <;> exact ⟨nofun, nofun⟩
  | pause id k gate ev =>
    cases h
    unfold gateStatus
    cases gate.kind <;> exact ⟨nofun, nofun⟩
  | startDurably _ =>
    cases h
    exact ⟨nofun, nofun⟩
  | resume _ =>
    cases h
    exact ⟨nofun, nofun⟩
  | failStepAndWorkflow _ _ _ _ =>
    cases h
    exact ⟨nofun, nofun⟩
  | reject _ _ =>
    cases h
    exact ⟨nofun, nofun⟩
  | cancelStepAndWorkflow _ _ _ =>
    cases h
    exact ⟨nofun, nofun⟩
  | _ => exact nomatch h

/-- A started workflow stays one. -/
theorem Begun.effect (h : Begun w) (hg : EventGuard op) (heff : Effect op w w') : Begun w' := by
  rcases heff.status with heq | ⟨hnew, -⟩
  · unfold Begun
    rw [heq]
    exact h
  · exact newStatus_begun hg hnew

/-- A running row is a started workflow's. -/
theorem begun_of_running (h : w.db.wf.status = .running) : Begun w := by
  unfold Begun
  rw [h]
  exact ⟨nofun, nofun⟩

theorem begun_of_answer {a : Ans op} {inp : Input} (hex : exec op w inp = some (.ok a, w'))
    (hs : showsBegun op a) : Begun w' := by
  cases op with
  | getWorkflow site =>
    cases site with
    | driveHead =>
      have hex : storeCall w inp (.ok ({ w with restarted := false }, w.db.wf)) = some (.ok a, w') := hex
      rcases storeCall_cases hex with ⟨b, hb, heq⟩ | ⟨-, e, he⟩
      · cases heq
        cases hb
        exact begun_of_running hs
      · exact nomatch he
    | other =>
      obtain ⟨rfl, heq | ⟨e, he⟩⟩ := storeRead_cases hex
      · cases heq
        exact begun_of_running hs
      · exact nomatch he
  | startDurably ev =>
    rcases storeCall_cases hex with ⟨b, hb, -⟩ | ⟨-, e, he⟩
    · cases hdb : startWorkflowDurably w.db w.now ev with
      | error e =>
        rw [hdb] at hb
        exact nomatch hb
      | ok db =>
        rw [hdb] at hb
        cases hb
        refine begun_of_running ?_
        show db.wf.status = .running
        unfold startWorkflowDurably at hdb
        split at hdb
        · rename_i hrun
          cases hdb
          exact hrun
        · split at hdb
          · exact nomatch hdb
          · cases hdb
            rfl
    · exact nomatch he
  | resume ev =>
    rcases storeCall_cases hex with ⟨b, hb, -⟩ | ⟨-, e, he⟩
    · cases hdb : resumeWorkflowRunning w.db ev with
      | error e =>
        rw [hdb] at hb
        exact nomatch hb
      | ok db =>
        rw [hdb] at hb
        cases hb
        refine begun_of_running ?_
        show db.wf.status = .running
        unfold resumeWorkflowRunning at hdb
        split at hdb
        · rename_i hrun
          cases hdb
          exact hrun
        · split at hdb
          · exact nomatch hdb
          · cases hdb
            rfl
    · exact nomatch he
  | _ => exact hs.elim

theorem begun_move {s : Sys} {a : Action} (hm : Move cfg s a w') (h : Begun s.w) : Begun w' := by
  rcases hm.call_or_env with ⟨_, _, op, r, -, -, hg, hex⟩ | henv
  · exact h.effect (nextOp_events hg) (exec_effect hex)
  · unfold Begun
    rw [henv.db]
    exact h

/-- A thread that has not seen a started workflow, after its call. -/
theorem waits_exec {α : Type} {k : Except CallError (Ans op) → Flags → Prog sig α} {inp : Input}
    {r : Except CallError (Ans op)} (h : Waits (.call op k)) (hex : exec op w inp = some (r, w')) :
    Begun w' ∨ threadWaits (.woken op r k) := by
  by_cases hs : ∃ a, r = .ok a ∧ showsBegun op a
  · obtain ⟨a, rfl, hs⟩ := hs
    exact Or.inl (begun_of_answer hex hs)
  · exact Or.inr (fun fl => (h.2 r fl).resolve_left hs)

/-- The threads of public calls after a step: one that was there, one that took a turn, or a new
    one. -/
inductive CallTurn (cfg : Config) (s : Sys) (w' : World) : CallThread → Prop where
  | same {t : CallThread} (h : t ∈ s.calls) : CallTurn cfg s w' t
  | call {op : Op} {k : Except CallError (Ans op) → Flags → Prog sig (Except CallError Unit × Flags)}
      {r : Except CallError (Ans op)} {inp : Input} (h : .run (.call op k) ∈ s.calls)
      (hex : exec op s.w inp = some (r, w')) : CallTurn cfg s w' (.woken op r k)
  | wake {op : Op} {k : Except CallError (Ans op) → Flags → Prog sig (Except CallError Unit × Flags)}
      {r : Except CallError (Ans op)} {fl : Flags} (h : .woken op r k ∈ s.calls) :
      CallTurn cfg s w' (.run (k r fl))
  | unfold {p : Prog sig (Except CallError Unit × Flags)} (h : .run p ∈ s.calls) :
      CallTurn cfg s w' (.run (unfoldLoop (body cfg) p))
  | new (c : ApiCall) (fl : Flags) : CallTurn cfg s w' (.run (c.program cfg fl))

theorem step_calls {s s' : Sys} {a : Action} (hs : step cfg s a = some s') :
    ∀ t ∈ s'.calls, CallTurn cfg s s'.w t := by
  have hset : ∀ {i : Nat} {t' t : CallThread} {w' : World}, CallTurn cfg s w' t' →
      t ∈ s.calls.set i t' → CallTurn cfg s w' t := by
    intro i t' t w' hnew ht
    rcases List.mem_or_eq_of_mem_set ht with ht | rfl
    · exact .same ht
    · exact hnew
  cases a with
  | exec who inp =>
    cases who with
    | pump =>
      simp only [step] at hs
      split at hs
      · cases hs
      · obtain ⟨r, -, rfl⟩ := Option.map_eq_some_iff.mp hs
        exact fun t ht => .same ht
    | call i =>
      simp only [step] at hs
      split at hs
      · cases hs
      · rename_i t ht
        obtain ⟨⟨t', w'⟩, hthread, rfl⟩ := Option.map_eq_some_iff.mp hs
        obtain ⟨op, k, r, rfl, rfl, hex⟩ := threadExec_cases hthread
        exact fun _ => hset (.call (List.mem_of_getElem? ht) hex)
  | wake who =>
    cases who with
    | pump =>
      simp only [step] at hs
      split at hs
      · cases hs
      · obtain ⟨r, -, rfl⟩ := Option.map_eq_some_iff.mp hs
        exact fun t ht => .same ht
    | call i =>
      simp only [step] at hs
      split at hs
      · cases hs
      · rename_i t ht
        obtain ⟨⟨t', w'⟩, hthread, rfl⟩ := Option.map_eq_some_iff.mp hs
        obtain ⟨op, r, k, rfl, rfl, rfl⟩ := threadWake_cases hthread
        exact fun _ => hset (.wake (List.mem_of_getElem? ht))
  | unfold who =>
    cases who with
    | pump =>
      simp only [step] at hs
      split at hs
      · cases hs
      · obtain ⟨r, -, rfl⟩ := Option.map_eq_some_iff.mp hs
        exact fun t ht => .same ht
    | call i =>
      simp only [step] at hs
      split at hs
      · cases hs
      · rename_i t ht
        obtain ⟨t', hthread, rfl⟩ := Option.map_eq_some_iff.mp hs
        obtain ⟨p, rfl, rfl⟩ := threadUnfold_cases hthread
        exact fun _ => hset (.unfold (List.mem_of_getElem? ht))
  | settle =>
    simp only [step] at hs
    split at hs
    · cases hs
      exact fun t ht => .same ht
    · cases hs
  | leave i =>
    simp only [step] at hs
    split at hs
    · cases hs
      exact fun t ht => .same (List.mem_of_mem_eraseIdx ht)
    · cases hs
  | invoke c =>
    cases hs
    intro t ht
    rcases List.mem_append.mp ht with ht | ht
    · exact .same ht
    · rw [List.mem_singleton.mp ht]
      exact .new c s.w.flags
  | deliver req id =>
    simp only [step] at hs
    split at hs
    · obtain ⟨r, -, rfl⟩ := Option.map_eq_some_iff.mp hs
      exact fun t ht => .same ht
    · cases hs
  | finish taskId status =>
    simp only [step] at hs
    split at hs
    · cases hs
    · cases hs
      exact fun t ht => .same ht
  | tick ms wall =>
    cases hs
    exact fun t ht => .same ht
  | shutdown =>
    cases hs
    exact fun t ht => .same ht
  | crash =>
    cases hs
    exact fun _ ht => absurd ht List.not_mem_nil

/-- A pump that starts was asked for. -/
theorem pump_asked {s s' : Sys} {a : Action} (hinv : SysInv cfg s) (hs : step cfg s a = some s')
    (hnone : s.pump = none) (hsome : s'.pump.isSome) : ∃ k, .run (.call .ensurePump k) ∈ s.calls := by
  have hlive' := (step_move hinv hs).1.live
  have hlive : s.w.pumpLive = false := by
    rw [hinv.live, hnone]
    rfl
  have hm := (step_move hinv hs).2
  rw [hsome] at hlive'
  generalize s'.w = w' at hm hlive'
  have hoff : w'.pumpLive = s.w.pumpLive → False := by
    intro heq
    rw [heq, hlive] at hlive'
    exact nomatch hlive'
  cases hm with
  | pump hop hj hex =>
    have hop : s.pump.bind nextOp = some _ := hop
    rw [hnone] at hop
    exact nomatch hop
  | @call i op _ _ _ hop hg hex =>
    have heff := exec_effect hex
    cases heff with
    | pumped _ =>
      have hop : s.calls[i]?.bind nextOp = some .ensurePump := hop
      obtain ⟨t, ht, hop⟩ := Option.bind_eq_some_iff.mp hop
      obtain ⟨k, rfl⟩ := nextOp_eq hop
      exact ⟨k, List.mem_of_getElem? ht⟩
    | _ => exact (hoff rfl).elim
  | wake _ =>
    refine (hoff ?_).elim
    rcases noteWake_db _ _ s.w with h | h <;> rw [h]
  | invoke =>
    refine (hoff ?_).elim
    split <;> rfl
  | deliver _ hd =>
    refine (hoff ?_).elim
    rcases World.deliver_cases hd with ⟨rfl, -⟩ | ⟨rfl, -⟩ <;> rfl
  | settle _ _ => exact nomatch hlive'
  | crash _ => exact nomatch hlive'
  | _ => exact (hoff rfl).elim

theorem BegunInv.step {s s' : Sys} {a : Action} (h : BegunInv s) (hinv : SysInv cfg s)
    (hs : VibeRuntime.step cfg s a = some s') : BegunInv s' := by
  have hm := (step_move hinv hs).2
  constructor
  · intro hsome
    cases hp : s.pump with
    | some t => exact begun_move hm (h.pump (by rw [hp]; rfl))
    | none =>
      obtain ⟨k, hk⟩ := pump_asked hinv hs hp hsome
      rcases h.calls _ hk with hb | hw
      · exact begun_move hm hb
      · exact absurd rfl hw.1
  · intro t ht
    cases step_calls hs t ht with
    | same hmem => exact (h.calls _ hmem).imp (begun_move hm) id
    | call hmem hex =>
      rcases h.calls _ hmem with hb | hw
      · exact Or.inl (begun_move hm hb)
      · exact waits_exec hw hex
    | wake hmem => exact (h.calls _ hmem).imp (begun_move hm) (fun hw => hw _)
    | @unfold p hmem =>
      refine (h.calls _ hmem).imp (begun_move hm) (fun hw => ?_)
      cases p with
      | ret a => exact hw
      | call op k => exact hw
      | loop l fl k => exact hw.elim
    | new c fl => exact Or.inr (waits_program cfg c fl)

theorem reach_begun {ok : Sys → Action → Prop} {s : Sys} (h : Reach cfg ok s) : BegunInv s := by
  induction h with
  | start => exact ⟨nofun, fun _ ht => absurd ht List.not_mem_nil⟩
  | step hr _ hs ih => exact ih.step (reach_inv hr) hs

end

end VibeRuntime
