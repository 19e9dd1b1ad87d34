import VibeWorkflow.OwnedProofs

/-!
# Tasks a cancellation leaves behind

A cancellation reads the current execution, cancels the task it finds there and commits.  A
failure of the cancel call is swallowed, a task that is created, bound or still on its way while
the cancellation is under way is not looked at again, and the ended row hides all of them from
recovery.  In runs without these three, a cancelled workflow has no task that nobody stopped.

* **`cancelled_tasks_stopped`** — the runs in which a cancellation leaves no task behind.
* **`swallowed_cancel_orphans`** — a run in which a failed cancel call does.
-/

namespace VibeRuntime

open VibeJson VibeContract VibeRouting VibeTemplate VibeValidator VibeStore VibeAdmission VibeControl
open AsyncLogic

/-! ## The three ways -/

/-- A cancel call fails for a task that has not ended. -/
def CancelRefused (s : Sys) (a : Action) : Prop :=
  ∃ who inp id, a = .exec who inp ∧ inp ≠ .run ∧ s.nextOp who = some (.cancelTask id) ∧
    ∀ t ∈ s.w.tasks, t.id = id → t.status.isTerminal = false

/-- A new task is created for a workflow that is cancelled. -/
def CreatedLate (s : Sys) (a : Action) : Prop :=
  s.w.db.wf.status = .cancelled ∧ ∃ req id, (∀ t ∈ s.w.tasks, t.request ≠ req) ∧
    (a = .deliver req id ∨
      ∃ who, a = .exec who (.created id) ∧ s.nextOp who = some (.createTask req))

/-- A cancellation commits while a task that has not ended is not bound to any execution, or is
    bound to the current one and was not the one the cancellation read there. -/
def CommitsEarly (cfg : Config) (s : Sys) (a : Action) : Prop :=
  ∃ who k seen ev, a = .exec who .run ∧ s.nextOp who = some (.cancelStepAndWorkflow k seen ev) ∧
    s.w.db.isTerminal = false ∧ ∃ t ∈ s.w.tasks, t.status.isTerminal = false ∧
      ((∀ r ∈ s.w.db.steps, r.taskId ≠ some t.id) ∨
        (seen ≠ some t.id ∧ ∃ r ∈ s.w.db.steps,
          r.key = currentKey cfg.spec s.w.db.wf ∧ r.taskId = some t.id))

def cancelOk (cfg : Config) (s : Sys) (a : Action) : Prop :=
  ¬ CancelRefused s a ∧ ¬ CreatedLate s a ∧ ¬ CommitsEarly cfg s a

/-! ## Cancelled workflows -/

/-- Every task has ended or has an accepted cancel call. -/
def Stopped (w : World) : Prop :=
  ∀ t ∈ w.tasks, t.status.isTerminal = true ∨ t.id ∈ w.cancelAccepted

structure CancelInv (w : World) : Prop where
  failed : ∀ id ∈ w.cancelFailed, ∃ t ∈ w.tasks, t.id = id ∧ t.status.isTerminal = true
  stopped : w.db.wf.status = .cancelled → Stopped w

/-- A cancellation commits having named a task whose cancel call was answered. -/
theorem cancel_seen {cfg : Config} {k : Option StepKey} {seen : Option String} {ev : WorkflowEvent}
    {w : World} (h : Justified cfg (.cancelStepAndWorkflow k seen ev) w ∨
      ApiGuard cfg (.cancelStepAndWorkflow k seen ev) w) {id : String} (hs : seen = some id) :
    id ∈ w.cancelAccepted ∨ id ∈ w.cancelFailed :=
  h.elim (fun h => h.2.2 id hs) (fun h => h.2.2 id hs)

/-- **At the commit of a cancellation** every task has ended or was cancelled. -/
theorem commit_stopped {cfg : Config} {s : Sys} {who : Who} {k : Option StepKey}
    {seen : Option String} {ev : WorkflowEvent} (ht : TaskInv cfg s.w)
    (hf : ∀ id ∈ s.w.cancelFailed, ∃ t ∈ s.w.tasks, t.id = id ∧ t.status.isTerminal = true)
    (hok : ¬ CommitsEarly cfg s (.exec who .run))
    (hop : s.nextOp who = some (.cancelStepAndWorkflow k seen ev))
    (hg : Justified cfg (.cancelStepAndWorkflow k seen ev) s.w ∨
      ApiGuard cfg (.cancelStepAndWorkflow k seen ev) s.w)
    (hlive : s.w.db.isTerminal = false) : Stopped s.w := by
  intro t htask
  by_contra hrun
  rw [not_or] at hrun
  obtain ⟨hrun, hacc⟩ := hrun
  have hrun : t.status.isTerminal = false := by simpa using hrun
  -- a task of the same id that has ended is this one
  have hend : ∀ t' ∈ s.w.tasks, t'.id = t.id → t'.status.isTerminal = true → False := by
    intro t' ht' hid hterm
    rw [task_unique ht.ids ht' htask hid, hrun] at hterm
    exact nomatch hterm
  have hbound : ∃ r ∈ s.w.db.steps, r.taskId = some t.id := by
    by_contra hnone
    refine hok ⟨who, k, seen, ev, rfl, hop, hlive, t, htask, hrun, Or.inl ?_⟩
    exact fun r hr hid => hnone ⟨r, hr, hid⟩
  obtain ⟨r, hr, hid⟩ := hbound
  by_cases hk : r.key = currentKey cfg.spec s.w.db.wf
  · have hseen : seen = some t.id := by
      by_contra hne
      exact hok ⟨who, k, seen, ev, rfl, hop, hlive, t, htask, hrun, Or.inr ⟨hne, r, hr, hk, hid⟩⟩
    rcases cancel_seen hg hseen with h | h
    · exact hacc h
    · obtain ⟨t', ht', hid', hterm⟩ := hf t.id h
      exact hend t' ht' hid' hterm
  · have hmem : maskRow r ∈ (owned s.w.db).steps := List.mem_map_of_mem hr
    have hdone : (maskRow r).status = .completed := ht.rows.past _ hmem hk
    obtain ⟨t', ht', hid', -, hterm⟩ := ht.rows.bound _ hmem t.id hid
    exact hend t' ht' hid' (hterm hdone)

/-- The same tasks and answers, or more cancel calls accepted. -/
theorem Stopped.of_tasks {w w' : World} (h : Stopped w) (htasks : w'.tasks = w.tasks)
    (hacc : w.cancelAccepted ⊆ w'.cancelAccepted) : Stopped w' := by
  intro t ht
  rw [htasks] at ht
  exact (h t ht).imp id (fun h => hacc h)

/-- Tasks that ended stay so. -/
theorem ended_mono {w w' : World} (hm : Mono w w') {id : String}
    (h : ∃ t ∈ w.tasks, t.id = id ∧ t.status.isTerminal = true) :
    ∃ t ∈ w'.tasks, t.id = id ∧ t.status.isTerminal = true := by
  obtain ⟨t, ht, hid, hterm⟩ := h
  obtain ⟨t', ht', hid', -, hst⟩ := hm.tasks t ht
  exact ⟨t', ht', hid'.trans hid, by rw [hst hterm]; exact hterm⟩

/-- Creating a task takes a created answer. -/
theorem exec_created {req : AgentTaskCreateRequest} {w w' : World} {inp : Input}
    {r : Except CallError (Ans (.createTask req))} (h : exec (.createTask req) w inp = some (r, w'))
    (hne : w'.tasks ≠ w.tasks) :
    (∃ id, inp = .created id) ∧ ∀ t ∈ w.tasks, t.request ≠ req := by
  simp only [exec] at h
  split at h
  · obtain ⟨⟨id, w₁⟩, hd, heq⟩ := Option.map_eq_some_iff.mp h
    cases heq
    rcases World.deliver_cases hd with ⟨rfl, -⟩ | ⟨-, -, hnew, -⟩
    · exact absurd rfl hne
    · exact ⟨⟨_, rfl⟩, hnew⟩
  · cases h
    exact absurd rfl hne
  · cases h
    exact absurd rfl hne
  · cases h

/-- A cancel call that is not run has failed. -/
theorem exec_cancelFailed {op : Op} {w w' : World} {inp : Input} {r : Except CallError (Ans op)}
    (h : exec op w inp = some (r, w')) : w'.cancelFailed = w.cancelFailed ∨
      ∃ id, op = .cancelTask id ∧ inp ≠ .run ∧ w'.cancelFailed = w.cancelFailed ++ [id] := by
  rcases (exec_effect h).cancels with ⟨-, heq⟩ | ⟨id, rfl⟩
  · exact Or.inl heq
  · simp only [exec] at h
    split at h
    · cases h
      exact Or.inl rfl
    · cases h
      exact Or.inr ⟨id, rfl, (by rintro ⟨⟩), rfl⟩
    · cases h

theorem CancelInv.call {cfg : Config} {s : Sys} {a : Action} {w' : World} (h : CancelInv s.w)
    (ht : TaskInv cfg s.w) (hok : cancelOk cfg s a) (hm : CallMove cfg s a w') : CancelInv w' := by
  obtain ⟨who, inp, op, r, rfl, hop, hg, hex⟩ := hm
  have heff := exec_effect hex
  constructor
  · intro id hid
    rcases exec_cancelFailed hex with heq | ⟨id', rfl, hinp, heq⟩
    · exact ended_mono heff.mono (h.failed id (heq ▸ hid))
    · rw [heq] at hid
      rcases mem_snoc.mp hid with hid | rfl
      · exact ended_mono heff.mono (h.failed id hid)
      · -- the call failed, so its task had ended
        refine ended_mono heff.mono ?_
        by_contra hrun
        refine hok.1 ⟨who, inp, id, rfl, hinp, hop, fun t ht hid => ?_⟩
        by_contra hterm
        exact hrun ⟨t, ht, hid, by simpa using hterm⟩
  · intro hs
    rcases heff.status with heq | ⟨hnew, hlive⟩
    · have hsame : w'.tasks = s.w.tasks := by
        by_contra hne
        rcases heff.tasks with heq | ⟨req, _, rfl, -, -⟩
        · exact hne heq
        · obtain ⟨⟨id, rfl⟩, hnew⟩ := exec_created hex hne
          exact hok.2.1 ⟨heq ▸ hs, req, id, hnew, Or.inr ⟨who, rfl, hop⟩⟩
      exact (h.stopped (heq ▸ hs)).of_tasks hsame heff.mono.accepted
    · rw [hs] at hnew
      obtain ⟨k, seen, ev, rfl⟩ := cancels_op hg hnew
      have hinp : inp = .run := by
        by_contra hinp
        rw [exec_refused hex hinp] at hs
        unfold Db.isTerminal at hlive
        rw [hs] at hlive
        exact nomatch hlive
      subst hinp
      have hsame : w'.tasks = s.w.tasks := by
        rcases heff.tasks with heq | ⟨_, _, hreq, -, -⟩
        · exact heq
        · exact nomatch hreq
      exact (commit_stopped ht h.failed hok.2.2 hop hg hlive).of_tasks hsame heff.mono.accepted

theorem CancelInv.env {cfg : Config} {s : Sys} {a : Action} {w' : World} (h : CancelInv s.w)
    (hok : cancelOk cfg s a) (hm : EnvMove cfg s a w') : CancelInv w' := by
  constructor
  · rw [hm.failed]
    exact fun id hid => ended_mono hm.mono (h.failed id hid)
  · rw [hm.db]
    intro hs
    have hstop := h.stopped hs
    have htasks := hm.tasks
    intro t ht
    rw [hm.accepted]
    generalize w'.tasks = tasks at htasks ht
    cases htasks with
    | same => exact hstop t ht
    | @arrived req id hreq hid hnew => exact absurd ⟨hs, req, id, hnew, Or.inl rfl⟩ hok.2.1
    | @finished id status hne =>
      obtain ⟨t₀, ht₀, rfl⟩ := List.mem_map.mp ht
      by_cases hfin : t₀.id = id ∧ t₀.status = .running
      · rw [if_pos hfin]
        left
        cases status with
        | running => exact absurd rfl hne
        | _ => rfl
      · rw [if_neg hfin]
        exact hstop t₀ ht₀

/-- **A cancelled workflow leaves no task behind**, in runs in which no cancel call fails for a
    task that has not ended, no task is created for a workflow that is already cancelled, and no
    cancellation commits past a task it did not see: whether or not calls are pending, every task
    ever created has ended or has an accepted cancel call. -/
theorem cancelled_tasks_stopped {cfg : Config} {s : Sys} (h : Reach cfg (cancelOk cfg) s)
    (hc : s.w.db.wf.status = .cancelled) :
    ∀ t ∈ s.w.tasks, t.status.isTerminal = true ∨ t.id ∈ s.w.cancelAccepted := by
  have hboth : TaskInv cfg s.w ∧ CancelInv s.w := by
    refine reach_world (P := fun w => TaskInv cfg w ∧ CancelInv w) ?_ ?_ h
    · exact ⟨@reach_tasks cfg (cancelOk cfg) _ .start, fun _ hid => absurd hid List.not_mem_nil, nofun⟩
    · intro s a w' hinv hok hm hP
      refine ⟨taskInv_move hinv hm hP.1, ?_⟩
      rcases hm.call_or_env with hcall | henv
      · exact hP.2.call hP.1 hok hcall
      · exact hP.2.env hok henv
  exact hboth.2.stopped hc

/-- A check of the steps of a cancellation: every task is bound and seen at its commit. -/
def seesTasks (s : Sys) (a : Action) : Bool :=
  !s.w.db.isTerminal && (match a with
    | .exec who inp =>
      match s.nextOp who with
      | some (.cancelTask _) => decide (inp = .run)
      | some (.cancelStepAndWorkflow _ seen _) => s.w.tasks.all (fun t =>
        decide (seen = some t.id) && s.w.db.steps.any (fun r => decide (r.taskId = some t.id)))
      | _ => true
    | _ => true)

theorem cancelOk_of_sees {cfg : Config} {s : Sys} {a : Action} (h : seesTasks s a = true) :
    cancelOk cfg s a := by
  unfold seesTasks at h
  rw [Bool.and_eq_true] at h
  obtain ⟨hlive, h⟩ := h
  refine ⟨?_, ?_, ?_⟩
  · rintro ⟨who, inp, id, rfl, hinp, hop, -⟩
    simp only [hop, decide_eq_true_eq] at h
    exact hinp h
  · rintro ⟨hs, -⟩
    unfold Db.isTerminal at hlive
    rw [hs] at hlive
    exact nomatch hlive
  · rintro ⟨who, k, seen, ev, rfl, hop, -, t, ht, -, hbad⟩
    simp only [hop, List.all_eq_true, Bool.and_eq_true, List.any_eq_true, decide_eq_true_eq] at h
    obtain ⟨hseen, r, hr, hid⟩ := h t ht
    rcases hbad with hbad | ⟨hne, -⟩
    · exact hbad r hr hid
    · exact hne hseen

/-- The calls of a cancellation up to its cancel call, on an execution that has a task. -/
def cancelBoundActions : List Action :=
  .invoke .cancel :: (List.replicate 6 [Action.exec (.call 0) .run, .wake (.call 0)]).flatten

/-- A workflow cancelled while its task runs: the task's cancel call was accepted. -/
theorem running_task_stopped : ∃ s, Reach oneStep (cancelOk oneStep) s ∧
    s.w.db.wf.status = .cancelled ∧ s.w.tasks.map AgentTask.status = [.running] ∧
    ∀ t ∈ s.w.tasks, t.id ∈ s.w.cancelAccepted := by
  obtain ⟨s, hs, hP⟩ := reach_exists oneStep (cancelOk oneStep) seesTasks
    (fun _ _ h => cancelOk_of_sees h)
    (startActions ++ renderActions ++ bindActions ++ cancelBoundActions ++
      [.exec (.call 0) .run, .wake (.call 0), .exec (.call 0) .run])
    (fun s => decide (s.w.db.wf.status = .cancelled ∧ s.w.tasks.map AgentTask.status = [.running]))
    (by decide +kernel)
  obtain ⟨hc, htasks⟩ := of_decide_eq_true hP
  refine ⟨s, hs, hc, htasks, fun t ht => ?_⟩
  rcases cancelled_tasks_stopped hs hc t ht with hend | hacc
  · have hmem : t.status ∈ s.w.tasks.map AgentTask.status := List.mem_map_of_mem ht
    rw [htasks, List.mem_singleton] at hmem
    rw [hmem] at hend
    exact nomatch hend
  · exact hacc

/-- **A swallowed failure**: the cancel call fails transiently, the cancellation commits all the
    same, everything settles, and the task is still running with no cancel call accepted. -/
theorem swallowed_cancel_orphans : ∃ s, Reach oneStep anyStep s ∧
    s.w.db.wf.status = .cancelled ∧ s.pump.isSome = false ∧ s.calls.length = 0 ∧
    s.w.tasks.map AgentTask.status = [.running] ∧ s.w.cancelAccepted = [] := by
  obtain ⟨s, hs, hP⟩ := reach_exists oneStep anyStep (fun _ _ => true) (fun _ _ _ => trivial)
    (startActions ++ renderActions ++ bindActions ++ cancelBoundActions ++
      [.exec (.call 0) (.taskFail true), .wake (.call 0), .exec (.call 0) .run, .wake (.call 0),
        .leave 0, .exec .pump (.waited true .pending none 1), .wake .pump, .unfold .pump,
        .exec .pump .run, .wake .pump, .settle])
    (fun s => decide (s.w.db.wf.status = .cancelled ∧ s.pump.isSome = false ∧ s.calls.length = 0 ∧
      s.w.tasks.map AgentTask.status = [.running] ∧ s.w.cancelAccepted = []))
    (by decide +kernel)
  exact ⟨s, hs, of_decide_eq_true hP⟩

end VibeRuntime
