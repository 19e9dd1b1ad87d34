import VibeWorkflow.RoundProofs
import VibeWorkflow.TurnProofs

/-!
# A pump takes finitely many turns

The driver goes back to its head only after storing an output or taking an edge, and each of
its inner loops is entered again only after an answer that brought nothing: a transient failure,
a report on an unfinished task, a result that is not there yet.  There is room for only so many
outputs and edges, so a pump whose calls are answered comes to its end.

* **`Idle`** — the answers that bring nothing.
* **`bodies_climb`** — how the loops of the driver follow each other.
* **`pump_turns_finite`** — every pump takes finitely many turns, whatever happens between them.
-/

namespace VibeRuntime

open VibeJson VibeContract VibeRouting VibeTemplate VibeValidator VibeStore VibeAdmission VibeControl
open AsyncLogic

/-! ## Levels and marks -/

/-- Is a result there, or known not to come? -/
def TerminalRead.settled (r : TerminalRead) : Bool :=
  match r.resultStatus, r.resultText with
  | .available, some _ => true
  | .invalid, _ => true
  | .missing, _ => true
  | _, _ => false

/-- Answers that bring nothing. -/
def idleAnswer : (op : Op) → Ans op → Prop
  | .waitForTerminal _ _ .awaitTask, r => TerminalRead.status r = .running
  | .waitForTerminal _ _ .resolveResult, r => TerminalRead.settled r = false
  | .lease (.observeRevision _ _), r => LeaseReply.revision r = none
  | _, _ => False

/-- A call that changes nothing it has not changed before. -/
def Idle (op : Op) (r : Except CallError (Ans op)) : Prop :=
  match r with
  | .ok a => idleAnswer op a
  | .error e => e = .transientTask ∨ e = .transientLease

/-- The writes the driver goes back to its head after. -/
def Op.advances : Op → Bool
  | .completeStep _ _ _ _ _ | .advance _ _ _ _ => true
  | _ => false

/-- Where a loop starts. -/
def loopLevel : Label → Nat
  | .drive => 0
  | .observe _ _ => 1
  | .create _ _ _ _ => 2
  | .wait _ _ _ _ => 3
  | .resolve _ cur _ _ => if cur.settled then 5 else 4

/-- How far its body gets. -/
def loopExit : Label → Nat
  | .drive => 6
  | .observe _ _ => 2
  | .create _ _ _ _ => 3
  | .wait _ _ _ _ => 4
  | .resolve _ _ _ _ => 6

/-- The meter of a pump. -/
def pumpMeter : Meter sig where
  level := loopLevel
  exit := loopExit
  limit := 6
  level_lt := by
    intro l
    cases l with
    | resolve k cur cursor attempt =>
      show (if cur.settled then 5 else 4) < 6
      split <;> decide
    | _ => exact of_decide_eq_true rfl
  mark := fun op r => Idle op r ∨ (op.advances = true ∧ r.isOk = true)

/-! ## Pieces without loops -/

/-- A program that enters no loop. -/
def Flat {α : Type} (m : Rt α) : Prop := ∀ n, ClimbsJs pumpMeter (fun _ => n) (fun _ => n) m n

/-- How a program of the pump climbs.  Errors end the pump. -/
def Rises {α : Type} (top : α → Nat) (m : Rt α) (n : Nat) : Prop :=
  ClimbsJs pumpMeter top (fun _ => 6) m n

section

variable {α β : Type} {n : Nat} {top : α → Nat}

/-- A value costs nothing. -/
theorem flat_pure (a : α) : Flat (pure a : Rt α) := fun _ => .pure (Nat.le_refl _)

/-- A call costs no level. -/
theorem flat_call (op : Op) : Flat (call op) :=
  fun _ => .await (fun _ => Or.inr (Nat.le_refl _)) (fun _ => Or.inr (Nat.le_refl _))

/-- Flat programs compose. -/
theorem flat_bind {m : Rt α} {f : α → Rt β} (h : Flat m) (hf : ∀ a, Flat (f a)) : Flat (m >>= f) :=
  fun n => .bind (h n) (fun a => hf a n)

theorem flat_flags {f : Flags → Rt β} (h : ∀ fl, Flat (f fl)) : Flat (getFlags >>= f) :=
  fun n => .flags (fun fl => h fl n)

theorem flat_catching {m : Rt α} {handler : CallError → Rt α} (h : Flat m)
    (hh : ∀ e, Flat (handler e)) : Flat (catching m handler) :=
  fun n => .tryCatch (h n) (fun e => hh e n)

theorem flat_ite {c : Prop} [Decidable c] {m₁ m₂ : Rt α} (h₁ : Flat m₁) (h₂ : Flat m₂) :
    Flat (if c then m₁ else m₂) := by
  split
  · exact h₁
  · exact h₂

theorem Flat.rises {m : Rt α} (h : Flat m) (ht : ∀ a, n ≤ top a) (hn : n ≤ 6) : Rises top m n :=
  ClimbsJs.weaken (h n) ht (fun _ => hn)

theorem rises_pure {a : α} (h : n ≤ top a) : Rises top (pure a : Rt α) n := .pure h

theorem rises_fail {e : CallError} (h : n ≤ 6) : Rises top (fail e : Rt α) n := .throw h

/-- Rises compose through the level between. -/
theorem rises_bind {g : α → Nat} {top : β → Nat} {m : Rt α} {f : α → Rt β} (h : Rises g m n)
    (hf : ∀ a, Rises top (f a) (g a)) : Rises top (m >>= f) n :=
  .bind h hf

/-- A piece without loops leaves the level as it is. -/
theorem flat_then {top : β → Nat} {m : Rt α} {f : α → Rt β} (h : Flat m) (hn : n ≤ 6)
    (hf : ∀ a, Rises top (f a) n) : Rises top (m >>= f) n :=
  rises_bind (h.rises (fun _ => Nat.le_refl _) hn) hf

theorem rises_flags {top : β → Nat} {f : Flags → Rt β} (h : ∀ fl, Rises top (f fl) n) :
    Rises top (getFlags >>= f) n :=
  .flags h

theorem rises_ite {c : Prop} [Decidable c] {m₁ m₂ : Rt α} (h₁ : c → Rises top m₁ n)
    (h₂ : ¬ c → Rises top m₂ n) : Rises top (if c then m₁ else m₂) n := by
  split
  · rename_i h
    exact h₁ h
  · rename_i h
    exact h₂ h

/-- A loop that is entered at its level. -/
theorem rises_enter {l : Label} {top : Ret l → Nat} (hl : n ≤ loopLevel l)
    (hx : ∀ a, loopExit l ≤ top a) : Rises top (enter l) n :=
  .recur hl hx (fun _ => Nat.le_refl _)

/-- A write after which the driver goes back to its head. -/
theorem rises_advance {op : Op} {top : Ans op → Nat} (hop : op.advances = true) (hn : n ≤ 6) :
    Rises top (call op) n :=
  .await (fun _ => Or.inl (Or.inr ⟨hop, rfl⟩)) (fun _ => Or.inr hn)

end

/-! ## The functions of the driver -/

theorem flat_failWorkflow (code : String) (info : List (String × Json)) : Flat (failWorkflow code info) :=
  flat_call _

theorem flat_failLimit (limit : String) : Flat (failLimit limit) := flat_call _

theorem flat_blockWorkflow (reason : String) (info : List (String × Json)) :
    Flat (blockWorkflow reason info) := flat_call _

theorem flat_failStepOf (k : StepKey) (info : List (String × Json)) : Flat (failStepOf k info) := flat_call _

theorem flat_performCancellation : Flat performCancellation := by
  refine flat_bind (flat_call _) (fun wf => flat_ite (flat_pure _) (flat_bind (flat_call _) (fun _ => ?_)))
  split
  · exact flat_call _
  · refine flat_bind (flat_call _) (fun step => ?_)
    split
    · exact flat_call _
    · split
      · exact flat_call _
      · exact flat_bind (flat_catching (flat_call _) (fun _ => flat_pure _)) (fun _ => flat_call _)

theorem flat_evaluatePauseGate (cfg : Config) (k : StepKey) (gate : StepPauseGate) :
    Flat (evaluatePauseGate cfg k gate) := by
  refine flat_bind (flat_call _) (fun existing => ?_)
  split
  · exact flat_pure _
  · exact flat_pure _
  · exact flat_bind (flat_failWorkflow _ _) (fun _ => flat_pure _)
  · exact flat_bind (flat_call _) (fun _ => flat_pure _)

theorem flat_observeRevisionAfter (k : StepKey) (target : WorkspaceTarget) (left attempt : Nat) :
    Flat (observeRevisionAfter k target left attempt) := by
  induction left generalizing attempt with
  | zero => exact flat_pure _
  | succ left ih =>
    refine flat_flags (fun fl => flat_ite (flat_pure _) (flat_bind (flat_catching ?_ ?_) (fun again => ?_)))
    · refine flat_bind (flat_call _) (fun (seen : LeaseReply) => ?_)
      cases seen.revision with
      | none => exact flat_pure _
      | some rev => exact flat_bind (flat_call _) (fun _ => flat_bind (flat_call _) (fun _ => flat_pure _))
    · exact fun e => flat_ite (flat_pure _) (flat_pure _)
    · exact flat_ite (flat_bind (flat_call _) (fun _ => ih _)) (flat_pure _)

theorem flat_releaseLeaseWithRetry (lease : LeaseProjection) (left attempt : Nat) :
    Flat (releaseLeaseWithRetry lease left attempt) := by
  induction left generalizing attempt with
  | zero => exact flat_pure _
  | succ left ih =>
    refine flat_flags (fun fl => flat_ite (flat_pure _) (flat_bind (flat_catching ?_ ?_) (fun again => ?_)))
    · exact flat_bind (flat_call _) (fun _ => flat_bind (flat_call _) (fun _ => flat_pure _))
    · exact fun e => flat_ite (flat_pure _) (flat_pure _)
    · exact flat_ite (flat_bind (flat_call _) (fun _ => ih _)) (flat_pure _)

theorem flat_releaseAll (cfg : Config) (leases : List LeaseProjection) : Flat (releaseAll cfg leases) := by
  induction leases with
  | nil => exact flat_pure _
  | cons lease rest ih =>
    exact flat_ite ih (flat_bind (flat_call _) (fun _ =>
      flat_bind (flat_releaseLeaseWithRetry _ _ _) (fun _ => ih)))

theorem flat_settleLeaseReleases (cfg : Config) : Flat (settleLeaseReleases cfg) :=
  flat_ite (flat_bind (flat_call _) (fun _ => flat_ite
    (flat_bind (flat_call _) (fun _ => flat_releaseAll cfg _)) (flat_pure _))) (flat_pure _)

theorem flat_buildRenderScope (cfg : Config) (k : StepKey) : Flat (buildRenderScope cfg k) :=
  flat_bind (flat_call _) (fun _ => flat_bind (flat_call _) (fun _ => flat_bind (flat_call _)
    (fun _ => flat_pure _)))

theorem flat_orNone {α : Type} {m : Rt (Option α)} (h : Flat m) : Flat (orNone m) :=
  flat_catching h (fun _ => flat_pure _)

theorem flat_gateCompletion (cfg : Config) (policy : CompletionPolicy) (row : StepRow) (output : Json)
    (target : String) : Flat (gateCompletion cfg policy row output target) := by
  refine flat_bind ?_ (fun evidence => flat_bind (flat_catching (flat_call _) (fun _ => flat_pure _))
    (fun _ => flat_bind (flat_call _) (fun _ => flat_pure _)))
  unfold assembleStepEvidence
  split
  · exact flat_pure _
  · exact flat_bind (flat_orNone (flat_call _)) (fun _ => flat_bind (flat_orNone (flat_call _))
      (fun _ => flat_pure _))

theorem flat_checkStall (cfg : Config) (policy : StallPolicy) (k : StepKey) (output : Json) :
    Flat (checkStall cfg policy k output) := by
  refine flat_bind (flat_call _) (fun _ => flat_bind (flat_catching (flat_bind (flat_call _)
    (fun _ => flat_pure _)) (fun _ => flat_pure _)) (fun _ => flat_bind ?_ (fun _ =>
    flat_bind (flat_call _) (fun _ => flat_bind (flat_call _) (fun _ => flat_ite
      (flat_bind (flat_blockWorkflow _ _) (fun _ => flat_pure _)) (flat_pure _))))))
  refine flat_bind (flat_call _) (fun (rows : List StepRow) => ?_)
  cases (latestOther rows k.stepId).bind StepRow.taskId with
  | none => exact flat_pure _
  | some t => exact flat_bind (flat_orNone (flat_call _)) (fun _ => flat_pure _)

/-- The driver goes back to its head at level zero, and leaves at the top. -/
def headTop : Option Exit → Nat
  | none => 0
  | some _ => 6

theorem rises_leave {α : Type} {n : Nat} {m : Rt α} {f : α → Exit} (h : Flat m) (hn : n ≤ 6) :
    Rises headTop (m >>= fun a => pure (some (f a))) n :=
  flat_then h hn (fun _ => rises_pure hn)

theorem rises_takeEdge {n : Nat} (k : StepKey) (d : RoutingDecision) (hn : n ≤ 6) :
    Rises headTop (takeEdge k d) n :=
  rises_bind (g := fun _ => 0) (rises_advance rfl hn) (fun _ => rises_pure (Nat.le_refl _))

/-- Routing takes an edge or ends the turn. -/
theorem rises_routeAndAdvance {n : Nat} (cfg : Config) (spec : WorkflowSpec) (row : StepRow) (hn : n ≤ 6) :
    Rises headTop (routeAndAdvance cfg spec row) n := by
  unfold routeAndAdvance
  split
  · exact rises_leave (flat_failWorkflow _ _) hn
  · split
    · exact rises_leave (flat_failWorkflow _ _) hn
    · refine rises_ite (fun _ => ?_) (fun _ => rises_ite (fun _ => rises_ite (fun _ => ?_) (fun _ => ?_))
        (fun _ => rises_takeEdge _ _ hn))
      · split
        · exact rises_leave (flat_gateCompletion _ _ _ _ _) hn
        · exact rises_leave (flat_call _) hn
      · exact rises_leave (flat_failLimit _) hn
      · split
        · exact rises_takeEdge _ _ hn
        · refine flat_then (flat_checkStall _ _ _ _) hn (fun stalled => rises_ite (fun _ => ?_) (fun _ => ?_))
          · exact rises_pure hn
          · exact rises_takeEdge _ _ hn

theorem rises_checkpointOutput {n : Nat} (spec : WorkflowSpec) (k : StepKey) (r : TerminalRead)
    (output : Json) (hn : n ≤ 6) : Rises (fun _ => 0) (checkpointOutput spec k r output) n :=
  flat_then (flat_call _) hn (fun _ => rises_advance rfl hn)

/-- A task's end is written, or the turn ends. -/
theorem rises_handleTaskTerminal (cfg : Config) (spec : WorkflowSpec) (k : StepKey) (r : TerminalRead) :
    Rises headTop (handleTaskTerminal cfg spec k r) 4 := by
  have h4 : 4 ≤ 6 := by decide
  refine flat_then (flat_call _) h4 (fun wf => flat_then ?_ h4 (fun _ =>
    rises_ite (fun _ => ?_) (fun _ => ?_)))
  · split
    · exact flat_pure _
    · exact flat_observeRevisionAfter _ _ _ _
  · exact rises_leave flat_performCancellation h4
  · split
    · exact rises_leave (flat_failStepOf _ _) h4
    · exact rises_leave (flat_failStepOf _ _) h4
    · refine rises_bind (g := fun _ => 6) (rises_enter ?_ (fun _ => Nat.le_refl _)) ?_
      · show 4 ≤ if r.settled then 5 else 4
        split <;> decide
      · intro resolved
        split
        · exact rises_pure (Nat.le_refl _)
        · split
          · exact rises_leave (flat_failStepOf _ _) (Nat.le_refl _)
          · exact rises_bind (rises_checkpointOutput spec k _ _ (Nat.le_refl _)) (fun _ => rises_pure (Nat.le_refl _))

theorem rises_awaitAndHandle (cfg : Config) (spec : WorkflowSpec) (wf : WorkflowRow) (k : StepKey)
    (taskId : String) : Rises headTop (awaitAndHandle cfg spec wf k taskId) 3 := by
  refine rises_bind (g := fun _ => 4) (rises_enter (Nat.le_refl _) (fun _ => Nat.le_refl _)) ?_
  intro outcome
  cases outcome with
  | shutdown => exact rises_pure (by decide)
  | deadline => exact rises_leave (flat_failLimit _) (by decide)
  | cancel => exact rises_leave flat_performCancellation (by decide)
  | read r => exact rises_handleTaskTerminal cfg spec k r

/-- Entering the create loop leaves it behind. -/
theorem rises_create {n : Nat} (wf : WorkflowRow) (k : StepKey) (req : AgentTaskCreateRequest) (attempt : Nat)
    (hn : n ≤ 2) : Rises (fun _ => 3) (enter (.create wf k req attempt)) n :=
  rises_enter hn (fun _ => Nat.le_refl _)

theorem rises_requestTask (cfg : Config) (spec : WorkflowSpec) (wf : WorkflowRow) (k : StepKey)
    (req : AgentTaskCreateRequest) : Rises (fun _ => 3) (requestTask cfg spec wf k req) 1 := by
  unfold requestTask
  split
  · exact rises_create wf k req 0 (by decide)
  · rename_i target _
    refine rises_bind (g := fun _ => 2) (flat_then (flat_call _) (by decide) (fun proj => ?_)) ?_
    · refine rises_bind (g := fun _ => 2) (rises_enter (Nat.le_refl _) (fun _ => Nat.le_refl _)) ?_
      intro (observed : Option WorkspaceRevision)
      cases observed with
      | none => exact rises_flags (fun fl => rises_pure (Nat.le_refl _))
      | some rev =>
        refine flat_then (flat_call _) (by decide) (fun _ => rises_ite (fun _ => ?_) (fun _ => ?_))
        · exact flat_then (flat_blockWorkflow _ _) (by decide) (fun _ => rises_pure (Nat.le_refl _))
        · exact rises_pure (Nat.le_refl _)
    · intro gate
      cases gate with
      | some why => exact rises_pure (by decide)
      | none => exact rises_create wf k req 0 (Nat.le_refl _)

theorem rises_createAndBindTask (cfg : Config) (spec : WorkflowSpec) (wf : WorkflowRow) (k : StepKey) :
    Rises (fun _ => 3) (createAndBindTask cfg spec wf k) 1 := by
  have hrender : ∀ step role, Rises (fun _ => 3) (renderAndRequest cfg spec wf k step role) 1 := by
    intro step role
    refine flat_then (flat_buildRenderScope cfg k) (by decide) (fun scope => ?_)
    split
    · exact flat_then (flat_failWorkflow _ _) (by decide) (fun _ => rises_pure (by decide))
    · exact rises_requestTask cfg spec wf k _
  unfold createAndBindTask
  split
  · exact flat_then (flat_failWorkflow _ _) (by decide) (fun _ => rises_pure (by decide))
  · split
    · exact hrender _ _
    · refine flat_then (flat_evaluatePauseGate cfg k _) (by decide) (fun proceed =>
        rises_ite (fun _ => hrender _ _) (fun _ => rises_pure (by decide)))

/-- **A pass of the drive loop** rises. -/
theorem rises_driveStep (cfg : Config) (spec : WorkflowSpec) (wf : WorkflowRow) (row : StepRow) :
    Rises headTop (driveStep cfg spec wf row) 1 := by
  have h1 : 1 ≤ 6 := by decide
  have hawait : ∀ taskId, Rises headTop (awaitAndHandle cfg spec wf row.key taskId) 1 :=
    fun taskId => (rises_awaitAndHandle cfg spec wf row.key taskId).mono (by decide)
  refine rises_ite (fun _ => rises_routeAndAdvance cfg spec row h1) (fun _ => rises_ite
    (fun _ => rises_pure h1) (fun _ => ?_))
  cases row.taskId with
  | some taskId => exact hawait taskId
  | none =>
    refine rises_ite (fun _ => rises_leave (flat_failLimit _) h1) (fun _ => ?_)
    refine rises_bind (rises_createAndBindTask cfg spec wf row.key) (fun r => ?_)
    cases r with
    | stop why => exact rises_pure (Nat.le_add_left 3 3)
    | ok =>
      refine flat_then (flat_call _) (by decide) (fun (step : Option StepRow) => ?_)
      cases step.bind StepRow.taskId with
      | none => exact rises_fail (by decide)
      | some taskId => exact rises_awaitAndHandle cfg spec wf row.key taskId

theorem rises_iterate (cfg : Config) (wf : WorkflowRow) (now : Nat) :
    Rises headTop (iterate cfg wf now) 1 := by
  have h1 : 1 ≤ 6 := by decide
  unfold iterate
  split
  · exact rises_leave (flat_failWorkflow _ _) h1
  · rename_i spec _
    refine rises_ite (fun _ => rises_leave flat_performCancellation h1) (fun _ => rises_ite
      (fun _ => rises_leave (flat_failLimit _) h1) (fun _ => flat_then (flat_call _) h1 (fun found => ?_)))
    refine flat_then ?_ h1 (fun row => rises_driveStep cfg spec wf row)
    split
    · exact flat_pure _
    · exact flat_call _

/-! ## The loops -/

/-- An awaited call whose failure is an answer; a transient failure starts over. -/
theorem rises_try {op : Op} {n : Nat} {top : Except CallError (Ans op) → Nat}
    (hok : ∀ a, idleAnswer op a ∨ n ≤ top (.ok a))
    (herr : ∀ e, e = .transientTask ∨ e = .transientLease ∨ n ≤ top (.error e)) :
    Rises top (catching (do
        let r ← call op
        pure (.ok r)) (fun e => pure (.error e))) n := by
  refine .tryCatch (g := fun e => top (.error e)) (.bind (g := fun a => top (.ok a)) (.await ?_ ?_) ?_)
    (fun e => .pure (Nat.le_refl _))
  · intro a
    exact (hok a).imp Or.inl id
  · intro e
    rcases herr e with h | h | h
    · exact Or.inl (Or.inl (Or.inl h))
    · exact Or.inl (Or.inl (Or.inr h))
    · exact Or.inr h
  · exact fun a => .pure (Nat.le_refl _)

/-- The level after an attempt: a transient failure starts over, and so does an answer that
    brings nothing. -/
def tryTop {α : Type} (n : Nat) (done : α → Bool) : Except CallError α → Nat
  | .ok a => if done a then n else 0
  | .error .transientTask => 0
  | .error .transientLease => 0
  | .error _ => n

theorem tryTop_error {α : Type} {n : Nat} {d : α → Bool} (e : CallError) :
    e = .transientTask ∨ e = .transientLease ∨ n ≤ tryTop n d (.error e : Except CallError α) := by
  cases e with
  | transientTask => exact Or.inl rfl
  | transientLease => exact Or.inr (Or.inl rfl)
  | _ => exact Or.inr (Or.inr (Nat.le_refl n))

/-- An attempt gets no further than its loop. -/
theorem tryTop_le {α : Type} {n : Nat} {done : α → Bool} (r : Except CallError α) : tryTop n done r ≤ n := by
  unfold tryTop
  split
  · split
    · exact Nat.le_refl n
    · exact Nat.zero_le n
  · exact Nat.zero_le n
  · exact Nat.zero_le n
  · exact Nat.le_refl n

theorem tryTop_ok {α : Type} {n : Nat} {d : α → Bool} (a : α) :
    d a = false ∨ n ≤ tryTop n d (.ok a : Except CallError α) := by
  cases hd : d a with
  | false => exact Or.inl rfl
  | true =>
    refine Or.inr ?_
    show n ≤ if d a then n else 0
    rw [if_pos hd]

theorem isTerminal_running {s : TaskStatus} (h : s.isTerminal = false) : s = .running := by
  cases s with
  | running => rfl
  | _ => exact nomatch h

/-- The create loop climbs at every attempt that is no retry. -/
theorem climbs_create (cfg : Config) (wf : WorkflowRow) (k : StepKey) (req : AgentTaskCreateRequest)
    (attempt : Nat) : Rises (fun _ => 3) (createLoop cfg wf k req attempt) 3 := by
  have h3 : 3 ≤ 6 := by decide
  refine rises_flags (fun fl => rises_ite (fun _ => rises_pure (Nat.le_refl _)) (fun _ => rises_ite
    (fun _ => rises_pure (Nat.le_refl _)) (fun _ => rises_ite (fun _ => rises_pure (Nat.le_refl _))
    (fun _ => ?_))))
  refine rises_bind (g := tryTop 3 (fun _ => true)) ?_ (fun bound => ?_)
  · -- the create call and the binding, with one handler
    refine .tryCatch (g := fun e => tryTop 3 (fun _ : Unit => true) (.error e)) (.bind (g := fun _ => 3)
      (.await (fun _ => Or.inr (Nat.le_refl _)) ?_) (fun taskId => .bind (g := fun _ => 3)
      (.await (fun _ => Or.inr (Nat.le_refl _)) ?_) (fun _ => .pure (Nat.le_refl _))))
      (fun e => .pure (Nat.le_refl _))
    · intro e
      rcases tryTop_error (n := 3) (d := fun _ : Unit => true) e with h | h | h
      · exact Or.inl (Or.inl (Or.inl h))
      · exact Or.inl (Or.inl (Or.inr h))
      · exact Or.inr h
    · intro e
      rcases tryTop_error (n := 3) (d := fun _ : Unit => true) e with h | h | h
      · exact Or.inl (Or.inl (Or.inl h))
      · exact Or.inl (Or.inl (Or.inr h))
      · exact Or.inr h
  · have hfail : ∀ {n : Nat}, n ≤ 3 → Rises (fun _ => 3) (do
        failWorkflow "runtime_internal" [("reason", .str "task_create_failed"), stepIdProp k]
        pure (CreateOutcome.stop .ended)) n :=
      fun hn => flat_then (flat_failWorkflow _ _) (Nat.le_trans hn h3) (fun _ => rises_pure hn)
    cases bound with
    | ok _ => exact rises_pure (Nat.le_refl _)
    | error e =>
      cases e with
      | transientTask =>
        exact flat_then (flat_call _) (by decide) (fun _ => rises_create wf k req _ (Nat.zero_le _))
      | _ => exact hfail (tryTop_le _)

/-- So does the wait. -/
theorem climbs_wait (cfg : Config) (wf : WorkflowRow) (taskId : String) (cursor : Int) (attempt : Nat) :
    Rises (fun _ => 4) (waitLoop cfg wf taskId cursor attempt) 4 := by
  have hagain : ∀ cursor attempt, Rises (fun _ => 4) (enter (.wait wf taskId cursor attempt)) 0 :=
    fun _ _ => rises_enter (Nat.zero_le _) (fun _ => Nat.le_refl _)
  refine rises_flags (fun fl => rises_ite (fun _ => rises_pure (Nat.le_refl _)) (fun _ => rises_ite
    (fun _ => rises_pure (Nat.le_refl _)) (fun _ => rises_ite (fun _ => rises_pure (Nat.le_refl _))
    (fun _ => ?_))))
  refine rises_bind (g := tryTop 4 (fun r : TerminalRead => r.status.isTerminal)) (rises_try
    (fun (r : TerminalRead) => (tryTop_ok (d := fun r : TerminalRead => r.status.isTerminal) r).imp
      isTerminal_running id) tryTop_error) (fun read => ?_)
  split
  · rename_i r
    refine rises_ite (fun _ => rises_pure (tryTop_le _)) (fun hr => ?_)
    have hzero : tryTop 4 (fun r : TerminalRead => r.status.isTerminal) (.ok r) = 0 := if_neg hr
    rw [hzero]
    exact hagain _ _
  · exact rises_flags (fun fl' => rises_ite (fun _ => rises_pure (Nat.zero_le _))
      (fun _ => flat_then (flat_call _) (by decide) (fun _ => hagain _ _)))
  · exact rises_fail (Nat.le_trans (tryTop_le _) (by decide))

theorem climbs_observe (target : WorkspaceTarget) (attempt : Nat) :
    Rises (fun _ => 2) (observeLoop target attempt) 2 := by
  have h2 : 2 ≤ 6 := by decide
  have hagain : Rises (fun _ => 2) (enter (.observe target (attempt + 1))) 0 :=
    rises_enter (Nat.zero_le _) (fun _ => Nat.le_refl _)
  refine rises_flags (fun fl => rises_ite (fun _ => rises_pure (Nat.le_refl _)) (fun _ => ?_))
  refine rises_bind (g := tryTop 2 (fun r : LeaseReply => r.revision.isSome)) (rises_try
    (fun (r : LeaseReply) => (tryTop_ok (d := fun r : LeaseReply => r.revision.isSome) r).imp
      (fun h => Option.isNone_iff_eq_none.mp (Option.isSome_eq_false_iff.mp h)) id) tryTop_error) (fun seen => ?_)
  cases seen with
  | ok r =>
    dsimp only
    cases hr : r.revision with
    | some rev => exact rises_pure (tryTop_le _)
    | none =>
      have hzero : tryTop 2 (fun r : LeaseReply => r.revision.isSome) (.ok r) = 0 := by
        show (if r.revision.isSome then 2 else 0) = 0
        rw [hr]
        rfl
      rw [hzero]
      exact hagain
  | error e =>
    cases e with
    | transientLease => exact flat_then (flat_call _) (by decide) (fun _ => hagain)
    | _ => exact rises_fail (Nat.le_trans (tryTop_le _) h2)

theorem climbs_resolve (cfg : Config) (k : StepKey) (cur : TerminalRead) (cursor : Int) (attempt : Nat) :
    Rises (fun _ => 6) (resolveLoop cfg k cur cursor attempt) (loopLevel (.resolve k cur cursor attempt) + 1) := by
  have hagain : ∀ r cursor attempt n, n ≤ loopLevel (.resolve k r cursor attempt) →
      Rises (fun _ => 6) (enter (.resolve k r cursor attempt)) n :=
    fun _ _ _ _ hn => rises_enter hn (fun _ => Nat.le_refl _)
  have h6 : loopLevel (.resolve k cur cursor attempt) + 1 ≤ 6 :=
    pumpMeter.level_lt (.resolve k cur cursor attempt)
  unfold resolveLoop
  split
  · exact rises_pure h6
  · exact flat_then (flat_failStepOf _ _) h6 (fun _ => rises_pure h6)
  · exact flat_then (flat_blockWorkflow _ _) h6 (fun _ => rises_pure h6)
  · rename_i h₁ h₂ h₃
    -- a pending result lies one level below a settled one
    have hpending : loopLevel (.resolve k cur cursor attempt) = 4 := by
      refine if_neg ?_
      unfold TerminalRead.settled
      split
      · rename_i t ha ht
        exact absurd ht (h₃ t ha)
      · rename_i hi
        exact absurd hi h₁
      · rename_i hm
        exact absurd hm h₂
      · exact Bool.false_ne_true
    rw [hpending]
    have h5 : 4 + 1 ≤ 6 := by decide
    refine rises_flags (fun fl => rises_ite (fun _ => rises_pure h5) (fun _ => rises_ite
      (fun _ => rises_pure h5) (fun _ => flat_then (flat_call _) h5 (fun proj => ?_))))
    refine flat_then ?_ h5 (fun since => rises_flags (fun fl' => rises_ite (fun _ => ?_)
        (fun _ => flat_then (flat_call _) h5 (fun _ => ?_))))
    · split
      · exact flat_pure _
      · exact flat_call _
    · exact flat_then (flat_blockWorkflow _ _) h5 (fun _ => rises_pure h5)
    · refine rises_bind (g := tryTop 5 TerminalRead.settled) (rises_try
        (fun (r : TerminalRead) => tryTop_ok r) tryTop_error) (fun read => ?_)
      cases read with
      | ok r =>
        refine hagain r _ _ _ ?_
        show (if r.settled then 5 else 0) ≤ if r.settled then 5 else 4
        split <;> decide
      | error e =>
        cases e with
        | transientTask => exact hagain _ _ _ _ (Nat.zero_le _)
        | _ => exact rises_fail (Nat.le_trans (tryTop_le _) h5)

/-- A turn of the drive loop climbs. -/
theorem climbs_drive (cfg : Config) : Rises (fun _ => 6) (driveLoop cfg) 1 := by
  have h1 : 1 ≤ 6 := by decide
  refine rises_flags (fun fl => rises_ite (fun _ => rises_pure h1) (fun _ => flat_then (flat_call _) h1
    (fun wf => rises_flags (fun fl' => rises_ite (fun _ => rises_pure h1) (fun _ =>
      rises_bind (rises_iterate cfg wf fl'.now) (fun r => ?_))))))
  cases r with
  | some why => exact rises_pure (Nat.le_refl _)
  | none => exact rises_enter (Nat.le_refl _) (fun _ => Nat.le_refl _)

/-- **The loops of the driver climb.** -/
theorem bodies_climb (cfg : Config) : BodiesClimb pumpMeter (body cfg) := by
  intro l
  cases l with
  | drive => exact climbs_drive cfg
  | create wf k req attempt => exact climbs_create cfg wf k req attempt
  | wait wf taskId cursor attempt => exact climbs_wait cfg wf taskId cursor attempt
  | resolve k cur cursor attempt => exact climbs_resolve cfg k cur cursor attempt
  | observe target attempt => exact climbs_observe target attempt

/-- A pump enters the driver, and no loop after it. -/
theorem climbs_runWorkflow (cfg : Config) (fl : Flags) :
    Climbs pumpMeter (fun _ => pumpMeter.limit) (runWorkflow cfg fl) 0 := by
  have hrun : Rises (fun _ => 6) (runWorkflow cfg) 0 := by
    refine rises_bind (g := fun _ => 6) (rises_enter (Nat.le_refl _) (fun _ => Nat.le_refl _))
      (fun why => rises_flags (fun fl => rises_ite (fun _ => rises_pure (Nat.le_refl _)) (fun _ => ?_)))
    exact flat_then (flat_catching (flat_settleLeaseReleases cfg) (fun _ => flat_pure _)) (Nat.le_refl _)
      (fun _ => rises_pure (Nat.le_refl _))
  refine (hrun fl).weaken ?_
  rintro ⟨r, fl'⟩
  cases r <;> exact Nat.le_refl 6

end VibeRuntime
