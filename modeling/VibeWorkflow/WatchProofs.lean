import VibeWorkflow.BoundedProofs
import VibeWorkflow.MonitorProofs

/-!
# Watching the pump

A monitor beside the pump knows what the pump has just read and written.  Most of the driver makes
calls that every monitor allows; what a monitor is about happens while a completed step is routed.

* `Op.ofRoute` — the calls that only routing makes;
* **`bodies_quiet`** — the driver is quiet as far as its routing is;
* **`reach_watched`** — the pump of every reachable system is watched, with what its ghost says of the
  world.
-/

namespace VibeRuntime

open VibeJson VibeContract VibeRouting VibeTemplate VibeValidator VibeStore VibeAdmission VibeControl
open AsyncLogic

/-- The calls that are made while a completed step is routed. -/
def Op.ofRoute : Op → Bool
  | .terminalize _ (some _) _ => true
  | .recordEvidence _ _ _ => true
  | .recordStall _ _ _ => true
  | _ => false

/-! ## The functions of the driver -/

section Driver

variable {M : Monitor sig} (hfree : ∀ op, op.ofRoute = false → ∀ g, M.allows g op)

include hfree

/-- A call outside of routing is not watched. -/
theorem quiet_call {op : Op} (h : op.ofRoute = false) : Quiet M (call op) := quiet_await (hfree op h)

theorem quiet_failWorkflow (code : String) (info : List (String × Json)) :
    Quiet M (failWorkflow code info) := quiet_call hfree rfl

theorem quiet_failLimit (limit : String) : Quiet M (failLimit limit) := quiet_call hfree rfl

theorem quiet_blockWorkflow (reason : String) (info : List (String × Json)) :
    Quiet M (blockWorkflow reason info) := quiet_call hfree rfl

theorem quiet_failStepOf (k : StepKey) (info : List (String × Json)) : Quiet M (failStepOf k info) :=
  quiet_call hfree rfl

/-- Nor is a cancellation. -/
theorem quiet_performCancellation : Quiet M performCancellation := by
  refine quiet_bind (quiet_call hfree rfl) (fun wf => quiet_ite (quiet_pure _)
    (quiet_bind (quiet_call hfree rfl) (fun _ => ?_)))
  split
  · exact quiet_call hfree rfl
  · refine quiet_bind (quiet_call hfree rfl) (fun step => ?_)
    split
    · exact quiet_call hfree rfl
    · split
      · exact quiet_call hfree rfl
      · exact quiet_bind (quiet_catch (quiet_call hfree rfl) (fun _ => quiet_pure _))
          (fun _ => quiet_call hfree rfl)

theorem quiet_evaluatePauseGate (cfg : Config) (k : StepKey) (gate : StepPauseGate) :
    Quiet M (evaluatePauseGate cfg k gate) := by
  refine quiet_bind (quiet_call hfree rfl) (fun existing => ?_)
  split
  · exact quiet_pure _
  · exact quiet_pure _
  · exact quiet_leave (quiet_failWorkflow hfree _ _)
  · exact quiet_leave (quiet_call hfree rfl)

theorem quiet_revisionGateBefore (k : StepKey) (target : WorkspaceTarget) :
    Quiet M (revisionGateBefore k target) := by
  refine quiet_bind (quiet_call hfree rfl) (fun proj => quiet_bind (quiet_recur _) ?_)
  intro (observed : Option WorkspaceRevision)
  cases observed with
  | none => exact quiet_flags (fun fl => quiet_pure _)
  | some rev =>
    refine quiet_bind (quiet_call hfree rfl) (fun _ => quiet_ite ?_ (quiet_pure _))
    exact quiet_leave (quiet_blockWorkflow hfree _ _)

theorem quiet_observeRevisionAfter (k : StepKey) (target : WorkspaceTarget) (left attempt : Nat) :
    Quiet M (observeRevisionAfter k target left attempt) := by
  induction left generalizing attempt with
  | zero => exact quiet_pure _
  | succ left ih =>
    refine quiet_flags (fun fl => quiet_ite (quiet_pure _) (quiet_bind (quiet_catch ?_ ?_) ?_))
    · refine quiet_bind (quiet_call hfree rfl) (fun (seen : LeaseReply) => ?_)
      cases seen.revision with
      | none => exact quiet_pure _
      | some rev =>
        exact quiet_bind (quiet_call hfree rfl) (fun _ => quiet_leave (quiet_call hfree rfl))
    · exact fun e => quiet_ite (quiet_pure _) (quiet_pure _)
    · exact fun again => quiet_ite (quiet_bind (quiet_call hfree rfl) (fun _ => ih _)) (quiet_pure _)

theorem quiet_releaseLeaseWithRetry (lease : LeaseProjection) (left attempt : Nat) :
    Quiet M (releaseLeaseWithRetry lease left attempt) := by
  induction left generalizing attempt with
  | zero => exact quiet_pure _
  | succ left ih =>
    refine quiet_flags (fun fl => quiet_ite (quiet_pure _) (quiet_bind (quiet_catch ?_ ?_) ?_))
    · exact quiet_bind (quiet_call hfree rfl) (fun _ => quiet_leave (quiet_call hfree rfl))
    · exact fun e => quiet_ite (quiet_pure _) (quiet_pure _)
    · exact fun again => quiet_ite (quiet_bind (quiet_call hfree rfl) (fun _ => ih _)) (quiet_pure _)

theorem quiet_releaseAll (cfg : Config) (leases : List LeaseProjection) :
    Quiet M (releaseAll cfg leases) := by
  induction leases with
  | nil => exact quiet_pure _
  | cons lease rest ih =>
    exact quiet_ite ih (quiet_bind (quiet_call hfree rfl) (fun _ =>
      quiet_bind (quiet_releaseLeaseWithRetry hfree _ _ _) (fun _ => ih)))

theorem quiet_settleLeaseReleases (cfg : Config) : Quiet M (settleLeaseReleases cfg) :=
  quiet_ite (quiet_bind (quiet_call hfree rfl) (fun _ => quiet_ite
    (quiet_bind (quiet_call hfree rfl) (fun _ => quiet_releaseAll hfree cfg _)) (quiet_pure _)))
    (quiet_pure _)

theorem quiet_buildRenderScope (cfg : Config) (k : StepKey) : Quiet M (buildRenderScope cfg k) :=
  quiet_bind (quiet_call hfree rfl) (fun _ => quiet_bind (quiet_call hfree rfl)
    (fun _ => quiet_leave (quiet_call hfree rfl)))

theorem quiet_requestTask (cfg : Config) (spec : WorkflowSpec) (wf : WorkflowRow) (k : StepKey)
    (req : AgentTaskCreateRequest) : Quiet M (requestTask cfg spec wf k req) := by
  unfold requestTask
  split
  · exact quiet_recur _
  · refine quiet_bind (quiet_revisionGateBefore hfree k _) (fun gate => ?_)
    cases gate with
    | none => exact quiet_recur _
    | some why => exact quiet_pure _

theorem quiet_renderAndRequest (cfg : Config) (spec : WorkflowSpec) (wf : WorkflowRow) (k : StepKey)
    (step : AgentTaskStep) (role : WorkflowAgentRole) :
    Quiet M (renderAndRequest cfg spec wf k step role) := by
  refine quiet_bind (quiet_buildRenderScope hfree cfg k) (fun scope => ?_)
  split
  · exact quiet_leave (quiet_failWorkflow hfree _ _)
  · exact quiet_requestTask hfree cfg spec wf k _

theorem quiet_createAndBindTask (cfg : Config) (spec : WorkflowSpec) (wf : WorkflowRow) (k : StepKey) :
    Quiet M (createAndBindTask cfg spec wf k) := by
  unfold createAndBindTask
  split
  · exact quiet_leave (quiet_failWorkflow hfree _ _)
  · split
    · exact quiet_renderAndRequest hfree cfg spec wf k _ _
    · exact quiet_bind (quiet_evaluatePauseGate hfree cfg k _) (fun proceed => quiet_ite
        (quiet_renderAndRequest hfree cfg spec wf k _ _) (quiet_pure _))

/-- A task's end is written unwatched. -/
theorem quiet_handleTaskTerminal (cfg : Config) (spec : WorkflowSpec) (k : StepKey) (r : TerminalRead) :
    Quiet M (handleTaskTerminal cfg spec k r) := by
  refine quiet_bind (quiet_call hfree rfl) (fun wf => quiet_bind ?_ (fun _ => quiet_ite
    (quiet_leave (quiet_performCancellation hfree)) ?_))
  · split
    · exact quiet_pure _
    · exact quiet_observeRevisionAfter hfree _ _ _ _
  split
  · exact quiet_leave (quiet_failStepOf hfree _ _)
  · exact quiet_leave (quiet_failStepOf hfree _ _)
  · refine quiet_bind (quiet_recur _) (fun resolved => ?_)
    split
    · exact quiet_pure _
    · split
      · exact quiet_leave (quiet_failStepOf hfree _ _)
      · exact quiet_leave (quiet_bind (quiet_call hfree rfl) (fun _ => quiet_call hfree rfl))

theorem quiet_awaitAndHandle (cfg : Config) (spec : WorkflowSpec) (wf : WorkflowRow) (k : StepKey)
    (taskId : String) : Quiet M (awaitAndHandle cfg spec wf k taskId) := by
  refine quiet_bind (quiet_recur _) (fun (outcome : WaitOutcome) => ?_)
  cases outcome with
  | shutdown => exact quiet_pure _
  | deadline => exact quiet_leave (quiet_failLimit hfree _)
  | cancel => exact quiet_leave (quiet_performCancellation hfree)
  | read r => exact quiet_handleTaskTerminal hfree cfg spec k r

/-- Up to the wait nothing is watched. -/
theorem quiet_createThenAwait (cfg : Config) (spec : WorkflowSpec) (wf : WorkflowRow) (k : StepKey) :
    Quiet M (createThenAwait cfg spec wf k) := by
  refine quiet_ite (quiet_leave (quiet_failLimit hfree _))
    (quiet_bind (quiet_createAndBindTask hfree cfg spec wf k) (fun r => ?_))
  cases r with
  | stop why => exact quiet_pure _
  | ok =>
    refine quiet_bind (quiet_call hfree rfl) (fun (step : Option StepRow) => ?_)
    cases step.bind StepRow.taskId with
    | none => exact quiet_throw _
    | some taskId => exact quiet_awaitAndHandle hfree cfg spec wf k taskId

/-! ## The loops -/

/-- An awaited call whose failure is an answer. -/
theorem quiet_try {op : Op} (h : op.ofRoute = false) :
    Quiet M (catching (do
      let r ← call op
      pure (.ok r)) (fun e => pure (.error e)) : Rt (Except CallError (Ans op))) :=
  quiet_catch (quiet_leave (quiet_call hfree h)) (fun _ => quiet_pure _)

/-- The create loop retries unwatched. -/
theorem quiet_createLoop (cfg : Config) (wf : WorkflowRow) (k : StepKey) (req : AgentTaskCreateRequest)
    (attempt : Nat) : Quiet M (createLoop cfg wf k req attempt) := by
  refine quiet_flags (fun fl => quiet_ite (quiet_pure _) (quiet_ite (quiet_pure _) (quiet_ite (quiet_pure _)
    (quiet_bind (quiet_catch ?_ (fun _ => quiet_pure _)) (fun bound => ?_)))))
  · exact quiet_bind (quiet_call hfree rfl) (fun _ => quiet_leave (quiet_call hfree rfl))
  · cases bound with
    | ok _ => exact quiet_pure _
    | error e =>
      cases e with
      | transientTask => exact quiet_bind (quiet_call hfree rfl) (fun _ => quiet_recur _)
      | _ => exact quiet_leave (quiet_failWorkflow hfree _ _)

/-- So does the wait. -/
theorem quiet_waitLoop (cfg : Config) (wf : WorkflowRow) (taskId : String) (cursor : Int) (attempt : Nat) :
    Quiet M (waitLoop cfg wf taskId cursor attempt) := by
  refine quiet_flags (fun fl => quiet_ite (quiet_pure _) (quiet_ite (quiet_pure _) (quiet_ite (quiet_pure _)
    (quiet_bind (quiet_try hfree rfl) (fun read => ?_)))))
  split
  · exact quiet_ite (quiet_pure _) (quiet_recur _)
  · exact quiet_flags (fun fl' => quiet_ite (quiet_pure _)
      (quiet_bind (quiet_call hfree rfl) (fun _ => quiet_recur _)))
  · exact quiet_throw _

/-- So does the wait for a result. -/
theorem quiet_resolveLoop (cfg : Config) (k : StepKey) (cur : TerminalRead) (cursor : Int) (attempt : Nat) :
    Quiet M (resolveLoop cfg k cur cursor attempt) := by
  unfold resolveLoop
  split
  · exact quiet_pure _
  · exact quiet_leave (quiet_failStepOf hfree _ _)
  · exact quiet_leave (quiet_blockWorkflow hfree _ _)
  · refine quiet_flags (fun fl => quiet_ite (quiet_pure _) (quiet_ite (quiet_pure _)
      (quiet_bind (quiet_call hfree rfl) (fun proj => quiet_bind ?_ (fun since => quiet_flags (fun fl' =>
        quiet_ite (quiet_leave (quiet_blockWorkflow hfree _ _)) (quiet_bind (quiet_call hfree rfl)
          (fun _ => quiet_bind (quiet_try hfree rfl) (fun read => ?_)))))))))
    · split
      · exact quiet_pure _
      · exact quiet_call hfree rfl
    · cases read with
      | ok r => exact quiet_recur _
      | error e =>
        cases e with
        | transientTask => exact quiet_recur _
        | _ => exact quiet_throw _

theorem quiet_observeLoop (target : WorkspaceTarget) (attempt : Nat) :
    Quiet M (observeLoop target attempt) := by
  refine quiet_flags (fun fl => quiet_ite (quiet_pure _) (quiet_bind (quiet_try hfree rfl) (fun seen => ?_)))
  cases seen with
  | ok r =>
    dsimp only
    cases r.revision with
    | some rev => exact quiet_pure _
    | none => exact quiet_recur _
  | error e =>
    cases e with
    | transientLease => exact quiet_bind (quiet_call hfree rfl) (fun _ => quiet_recur _)
    | _ => exact quiet_throw _

/-- **The whole drive loop** is quiet when its routing is. -/
theorem quiet_driveLoop {cfg : Config}
    (hroute : ∀ spec row, cfg.loaded = some spec → Quiet M (routeAndAdvance cfg spec row)) :
    Quiet M (driveLoop cfg) := by
  have hiterate : ∀ wf now, Quiet M (iterate cfg wf now) := by
    intro wf now
    unfold iterate
    split
    · exact quiet_leave (quiet_failWorkflow hfree _ _)
    · rename_i spec hload
      refine quiet_ite (quiet_leave (quiet_performCancellation hfree)) (quiet_ite
        (quiet_leave (quiet_failLimit hfree _)) (quiet_bind (quiet_call hfree rfl) (fun found =>
          quiet_bind ?_ (fun row => quiet_ite (hroute spec row hload) (quiet_ite (quiet_pure _) ?_)))))
      · split
        · exact quiet_pure _
        · exact quiet_call hfree rfl
      · split
        · exact quiet_createThenAwait hfree cfg spec wf row.key
        · exact quiet_awaitAndHandle hfree cfg spec wf row.key _
  refine quiet_flags (fun fl => quiet_ite (quiet_pure _) (quiet_bind (quiet_call hfree rfl) (fun wf =>
    quiet_flags (fun fl' => quiet_ite (quiet_pure _) (quiet_bind (hiterate wf fl'.now) (fun r => ?_))))))
  cases r with
  | some why => exact quiet_pure _
  | none => exact quiet_recur _

/-- **The driver is quiet as far as its routing is.** -/
theorem bodies_quiet {cfg : Config}
    (hroute : ∀ spec row, cfg.loaded = some spec → Quiet M (routeAndAdvance cfg spec row)) :
    ∀ l, Quiet M (body cfg l) := by
  intro l
  cases l with
  | drive => exact quiet_driveLoop hfree hroute
  | create wf k req attempt => exact quiet_createLoop hfree cfg wf k req attempt
  | wait wf taskId cursor attempt => exact quiet_waitLoop hfree cfg wf taskId cursor attempt
  | resolve k cur cursor attempt => exact quiet_resolveLoop hfree cfg k cur cursor attempt
  | observe target attempt => exact quiet_observeLoop hfree target attempt

theorem quiet_runWorkflow (cfg : Config) : Quiet M (runWorkflow cfg) :=
  quiet_bind (quiet_recur _) (fun _ => quiet_flags (fun _ => quiet_ite (quiet_pure _)
    (quiet_leave (quiet_catch (quiet_settleLeaseReleases hfree cfg) (fun _ => quiet_pure _)))))

end Driver

/-! ## Runs -/

section

variable {cfg : Config} {ok : Sys → Action → Prop} {s : Sys} {t : PumpThread} {M : Monitor sig}
  {Facts : M.State → World → Prop}

/-- **The pump is watched in every run**, and its ghost is true of the world: each of its calls moves the
    ghost to one that is true of what the call leaves, and nobody else makes a ghost false. -/
theorem reach_watched (hbody : ∀ l, Quiet M (body cfg l)) (hrun : Quiet M (runWorkflow cfg))
    (hstart : ∀ w, ∃ g, Facts g w)
    (hcall : ∀ s inp op r w' g, SysInv cfg s → ok s (.exec .pump inp) → s.nextOp .pump = some op →
      Justified cfg op s.w → M.allows g op → Facts g s.w → exec op s.w inp = some (r, w') →
      Facts (M.step g op r) w')
    (hmove : ∀ s a w' g, SysInv cfg s → (∀ inp, a ≠ .exec .pump inp) → Move cfg s a w' → Facts g s.w →
      Facts g w')
    (h : Reach cfg ok s) (hp : s.pump = some t) : ∃ g, Watching M t g ∧ Facts g s.w := by
  induction h generalizing t with
  | start => cases hp
  | @step s₁ s₂ a hr hok hs ih =>
    have hinv := reach_inv hr
    obtain ⟨-, hm⟩ := step_move hinv hs
    cases hpump : a.ofPump with
    | false =>
      have hother : ∀ inp, a ≠ .exec .pump inp := by
        rintro inp rfl
        cases hpump
      rcases other_pump hpump hs with hsame | ⟨hnone, -⟩ | ⟨-, w, hnew⟩
      · obtain ⟨g, hg, hf⟩ := ih (hsame.symm.trans hp)
        exact ⟨g, hg, hmove s₁ a s₂.w g hinv hother hm hf⟩
      · rw [hnone] at hp
        cases hp
      · -- a new pump starts with any ghost that is true of the world
        rw [hnew] at hp
        cases hp
        obtain ⟨g, hf⟩ := hstart s₂.w
        exact ⟨g, hrun.watching _ g, hf⟩
    | true =>
      obtain ⟨t₁, hp₁⟩ := pump_there hpump hs
      obtain ⟨g, hg, hf⟩ := ih hp₁
      rcases pump_step hp₁ hpump hs with ⟨op, k, r, inp, rfl, rfl, hp', hex⟩ |
        ⟨op, r, k, fl, rfl, hp', -⟩ | ⟨l, fl, k, rfl, hp', hw⟩
      · rw [hp'] at hp
        cases hp
        obtain ⟨hallow, hnext⟩ := watched_exec hg s₁.w.flags
        have hop : s₁.nextOp .pump = some op := by
          show s₁.pump.bind nextOp = some op
          rw [hp₁]
          rfl
        have hj : Justified cfg op s₁.w := (threadOk_exec (hinv.pump _ hp₁) hinv.core).1
        exact ⟨_, hnext r, hcall s₁ inp op r s₂.w g hinv hok hop hj hallow hf hex⟩
      · rw [hp'] at hp
        cases hp
        refine ⟨g, watched_wake hg fl, hmove s₁ a s₂.w g hinv ?_ hm hf⟩
        rintro inp rfl
        simp only [step, hp₁, threadExec] at hs
        cases hs
      · rw [hp'] at hp
        cases hp
        rw [hw]
        exact ⟨g, watched_unfold hbody hg, hf⟩

end

end VibeRuntime
