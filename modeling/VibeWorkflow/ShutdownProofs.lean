import VibeWorkflow.ReachProofs

/-!
# The driver's endings

The driver completes, fails or blocks its workflow; only the cancellation's own write makes it
`cancelled`.

* `cancels_op` — the one call that cancels;
* `nextOp_guard` — the reason of a pending call.
-/

namespace VibeRuntime

open VibeJson VibeContract VibeRouting VibeTemplate VibeValidator VibeStore VibeAdmission VibeControl
open AsyncLogic

/-! ## What the driver's endings write -/

theorem terminalTarget_cases (target : String) : terminalTargetToStatus target = .completed ∨
    terminalTargetToStatus target = .failed ∨ terminalTargetToStatus target = .blocked := by
  unfold terminalTargetToStatus
  split
  · exact Or.inl rfl
  · split
    · exact Or.inr (Or.inl rfl)
    · exact Or.inr (Or.inr rfl)

/-- The driver completes, fails or blocks. -/
theorem EndReason.status {cfg : Config} {w : World} {st : WorkflowStatus} {edge : Option WorkflowEvent}
    {ev : WorkflowEvent} (h : EndReason cfg w st edge ev) :
    st = .completed ∨ st = .failed ∨ st = .blocked := by
  cases h with
  | routed _ _ _ => exact terminalTarget_cases _
  | gated _ _ _ _ _ _ =>
    cases evaluateCompletion _ _ _ with
    | complete => exact Or.inl rfl
    | blocked missing => exact Or.inr (Or.inr rfl)
    | failed reason => exact Or.inr (Or.inl rfl)
  | resultMissing _ _ _ _ => exact Or.inr (Or.inr rfl)
  | resultTimeout _ _ _ _ => exact Or.inr (Or.inr rfl)
  | noProgress _ _ _ _ _ => exact Or.inr (Or.inr rfl)
  | revisionConflict _ _ => exact Or.inr (Or.inr rfl)
  | _ => exact Or.inr (Or.inl rfl)

/-- Only the cancellation's own write makes a workflow `cancelled`. -/
theorem cancels_op {cfg : Config} {op : Op} {w : World}
    (h : Justified cfg op w ∨ ApiGuard cfg op w) (hs : op.newStatus = some .cancelled) :
    ∃ k seen ev, op = .cancelStepAndWorkflow k seen ev := by
  cases op with
  | cancelStepAndWorkflow k seen ev => exact ⟨k, seen, ev, rfl⟩
  | terminalize status edge ev =>
    rcases h with h | h
    · have hst := EndReason.status h
      cases hs
      rcases hst with h | h | h <;> exact nomatch h
    · exact absurd h id
  | pause request k gate ev =>
    have hs : some (gateStatus gate) = some .cancelled := hs
    unfold gateStatus at hs
    cases hk : gate.kind <;> rw [hk] at hs <;> exact nomatch hs
  | _ => exact nomatch hs

/-! ## Runs -/

/-- The guard of a pending call, in a system with safe threads. -/
theorem nextOp_guard {cfg : Config} {s : Sys} (h : SysInv cfg s) {who : Who} {op : Op}
    (hop : s.nextOp who = some op) : Justified cfg op s.w ∨ ApiGuard cfg op s.w := by
  cases who with
  | pump =>
    obtain ⟨t, ht, hop⟩ := Option.bind_eq_some_iff.mp hop
    obtain ⟨k, rfl⟩ := nextOp_eq hop
    exact Or.inl (threadOk_exec (h.pump _ ht) h.core).1
  | call i =>
    obtain ⟨t, ht, hop⟩ := Option.bind_eq_some_iff.mp hop
    obtain ⟨k, rfl⟩ := nextOp_eq hop
    exact Or.inr (threadOk_exec (h.calls _ (List.mem_of_getElem? ht)) h.core).1

/-- A process that starts on a running row: recovery registers a pump for it. -/
def recoverActions : List Action :=
  [.crash, .invoke .recover, .exec (.call 0) .run, .wake (.call 0), .exec (.call 0) .run]

end VibeRuntime
