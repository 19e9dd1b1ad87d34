import VibeWorkflow.EvaluationProofs
import VibeWorkflow.SnapshotProofs

/-!
# A workflow with more events than a page

Three steps in a ring, whose last edge is a loop: every round logs thirteen events, and the limits
admit a hundred rounds.  The run is followed through the undisturbed evaluation of the driver, one
step execution at a time, down to the loop edge that the last round may not take.

* `surroundings`, **`reach_of_eval`** — the driver evaluated alone, as runs of the system;
* `ring_execution` — one execution of a step of the ring, from its fresh row to the next one's;
* **`long_log_hides_reason`** — the failure's reason is missing from the snapshot.
-/

namespace VibeRuntime

open VibeJson VibeContract VibeRouting VibeTemplate VibeValidator VibeStore VibeAdmission VibeControl
open AsyncLogic

/-! ## The driver alone -/

/-- The environment of an undisturbed driver finishes tasks. -/
def surroundings (cfg : Config) : Surroundings sig World where
  exec op w r w' := ∃ inp, exec op w inp = some (r, w')
  wake := noteWake
  env w w' := ∃ taskId status, status ≠ .running ∧ w' = w.finish taskId status
  flags := World.flags
  body := body cfg
  wake_flags := by
    intro op r w
    rcases noteWake_db op r w with h | h
    · rw [h]
    · rw [h]
      rfl
  env_flags := by
    rintro w w' ⟨taskId, status, -, rfl⟩
    rfl

/-- **An evaluation is a run.** -/
theorem reach_of_eval {cfg : Config} {p : Prog sig (Except CallError Exit × Flags)} {w w' : World}
    {r : Except CallError Exit × Flags} (h : Eval (surroundings cfg) p w r w')
    (hreach : Reach cfg anyStep ⟨w, some (.run p), []⟩) : Reach cfg anyStep ⟨w', some (.run (.ret r)), []⟩ := by
  induction h with
  | ret => exact hreach
  | @env p w w₁ w' r hmove _ ih =>
    obtain ⟨taskId, status, hne, rfl⟩ := hmove
    refine ih (.step (a := .finish taskId status) hreach trivial ?_)
    simp only [step, if_neg hne]
  | @call op k w w₁ w' a r hanswer _ ih =>
    obtain ⟨inp, hex⟩ := hanswer
    have hcalled : Reach cfg anyStep ⟨w₁, some (.woken op a k), []⟩ := by
      refine .step (a := .exec .pump inp) hreach trivial ?_
      simp only [step, threadExec, hex, Option.map_some]
    refine ih (.step (a := .wake .pump) hcalled trivial ?_)
    rfl
  | @loop l fl k w w' r _ ih => exact ih (.step (a := .unfold .pump) hreach trivial rfl)

section

variable {cfg : Config} {w w₁ w₂ : World} {α : Type}

/-- A call of the driver that answers. -/
theorem yields_call {op : Op} {a : Ans op} (inp : Input) (h : exec op w inp = some (.ok a, w₁)) :
    Yields (surroundings cfg) (call op) w a w₁ := by
  have hwake : noteWake op (.ok a) w₁ = w₁ := by
    unfold noteWake
    split <;> rfl
  have hexec : (surroundings cfg).exec op w (.ok a) w₁ := ⟨inp, h⟩
  have hawait : Yields (surroundings cfg) (call op) w a (noteWake op (.ok a) w₁) := Yields.await hexec
  rw [hwake] at hawait
  exact hawait

theorem yields_enter {l : Label} {a : Ret l} (h : Yields (surroundings cfg) (body cfg l) w a w₁) :
    Yields (surroundings cfg) (enter l) w a w₁ :=
  Yields.recur h

theorem yields_neg {c : Prop} [Decidable c] {x y : Rt α} {a : α} (hc : ¬ c)
    (h : Yields (surroundings cfg) y w a w₁) : Yields (surroundings cfg) (if c then x else y) w a w₁ := by
  rw [if_neg hc]
  exact h

theorem yields_flags {f : Flags → Rt α} {a : α} (h : Yields (surroundings cfg) (f w.flags) w a w₁) :
    Yields (surroundings cfg) (getFlags >>= f) w a w₁ :=
  Yields.bind Yields.flags h

end

/-! ## One execution of a step -/

/-- The rows once a task is bound. -/
def boundDb (db : Db) (k : StepKey) (taskId : String) : Db :=
  ((db.setStep k (fun r => { r with taskId := some taskId })).setWf (fun w =>
    { w with totalTasks := w.totalTasks + 1 })).append (taskCreatedEvent k taskId)

/-- The rows once its output is stored. -/
def storedDb (db : Db) (k : StepKey) (output : Json) (context : List (String × Json)) : Db :=
  ((db.setStep k (fun r => { r with status := .completed, output := some output })).setWf (fun w =>
    { w with context := context, contextRevision := w.contextRevision + 1 })).append
    (stepEvent .stepCompleted k [stepIdProp k, roundProp k])

/-- The read of a completed task with an answer. -/
def answeredRead (taskId text : String) : TerminalRead := ⟨taskId, .completed, true, .available, some text, 1⟩

/-- A process that runs a workflow nobody cancels, within its time. -/
structure Undisturbed (cfg : Config) (w : World) : Prop where
  stopped : w.stopped = false
  aborted : w.aborted = false
  running : w.db.wf.status = .running
  wanted : w.db.wf.cancelRequested = false
  inTime : deadlineExceeded cfg w.db.wf w.now = false
  finished : ∀ t ∈ w.tasks, t.status = .completed

section

variable {cfg : Config} {spec : WorkflowSpec} {w : World}

theorem exists_free_id (ids : List String) : ∃ id, id ∉ ids := by
  refine ⟨String.ofList (List.replicate ((ids.map String.length).sum + 1) 'x'), fun hmem => ?_⟩
  have hle := List.le_sum_of_mem (List.mem_map_of_mem (f := String.length) hmem)
  rw [String.length_ofList, List.length_replicate] at hle
  omega

/-- A request is always answered, under an id that is free or already its own. -/
theorem deliver_some (w : World) (req : AgentTaskCreateRequest) :
    ∃ id taskId w', w.deliver req id = some (taskId, w') ∧ w'.db = w.db ∧ w'.flags = w.flags ∧
      (∃ t ∈ w'.tasks, t.id = taskId) ∧ ∀ t ∈ w'.tasks, t ∈ w.tasks ∨ (t.id = taskId ∧ t.status = .running) := by
  unfold World.deliver
  cases hfound : w.tasks.find? (fun t => t.request = req) with
  | some t =>
    exact ⟨"", t.id, w, rfl, rfl, rfl, ⟨t, List.mem_of_find?_eq_some hfound, rfl⟩, fun _ ht => .inl ht⟩
  | none =>
    obtain ⟨id, hid⟩ := exists_free_id (w.tasks.map AgentTask.id)
    have hfree : w.tasks.any (fun t => t.id = id) = false := by
      rw [List.any_eq_false]
      intro t ht hid'
      rw [← of_decide_eq_true hid'] at hid
      exact hid (List.mem_map_of_mem ht)
    refine ⟨id, id, { w with tasks := w.tasks ++ [⟨id, req, .running⟩] }, by rw [hfree]; rfl, rfl, rfl,
      ⟨⟨id, req, .running⟩, ?_, rfl⟩, ?_⟩
    · exact List.mem_append_right _ (List.mem_singleton_self _)
    · intro t ht
      rcases List.mem_append.mp ht with ht | ht
      · exact .inl ht
      · rw [List.mem_singleton.mp ht]
        exact .inr ⟨rfl, rfl⟩

/-- The one task that runs finishes. -/
theorem finish_all {w : World} {taskId : String}
    (h : ∀ t ∈ w.tasks, t.status = .completed ∨ (t.id = taskId ∧ t.status = .running)) :
    ∀ t ∈ (w.finish taskId .completed).tasks, t.status = .completed := by
  intro t ht
  obtain ⟨t₀, ht₀, rfl⟩ := List.mem_map.mp ht
  by_cases hrun : t₀.id = taskId ∧ t₀.status = .running
  · rw [if_pos hrun]
  · rw [if_neg hrun]
    exact (h t₀ ht₀).resolve_right hrun

theorem finish_task {w : World} {taskId : String} (h : ∃ t ∈ w.tasks, t.id = taskId) :
    ∃ t, (w.finish taskId .completed).task? taskId = some t := by
  obtain ⟨t, ht, hid⟩ := h
  refine Option.isSome_iff_exists.mp (List.find?_isSome.mpr ⟨_, List.mem_map_of_mem ht, ?_⟩)
  split <;> simpa using hid

/-- The create loop, on a request that is answered at once. -/
theorem yields_createLoop {k : StepKey} {row : StepRow} (req : AgentTaskCreateRequest) (hu : Undisturbed cfg w)
    (hrow : w.db.step? k = some row) (hfree : row.taskId = none) :
    ∃ taskId w', Yields (surroundings cfg) (enter (.create w.db.wf k req 0)) w .ok w' ∧
      w'.db = boundDb w.db k taskId ∧ w'.flags = w.flags ∧ (∃ t ∈ w'.tasks, t.id = taskId) ∧
      ∀ t ∈ w'.tasks, t.status = .completed ∨ (t.id = taskId ∧ t.status = .running) := by
  obtain ⟨id, taskId, w₁, hdel, hdb, hflags, hmem, htasks⟩ := deliver_some w req
  refine ⟨taskId, { w₁ with db := boundDb w.db k taskId }, ?_, rfl, hflags, hmem, ?_⟩
  · refine yields_enter (yields_flags ?_)
    refine yields_neg (by show ¬ w.stopped = true; rw [hu.stopped]; exact Bool.false_ne_true) ?_
    refine yields_neg (by show ¬ w.aborted = true; rw [hu.aborted]; exact Bool.false_ne_true) ?_
    refine yields_neg (by show ¬ deadlineExceeded cfg w.db.wf w.now = true; rw [hu.inTime]; exact Bool.false_ne_true) ?_
    have hcreate : Yields (surroundings cfg) (call (.createTask req)) w taskId w₁ := by
      refine yields_call (.created id) ?_
      show (w.deliver req id).map _ = _
      rw [hdel]
      rfl
    have hbound : Yields (surroundings cfg) (call (.bindStepTaskOnce k taskId (taskCreatedEvent k taskId))) w₁ ()
        { w₁ with db := boundDb w.db k taskId } := by
      refine yields_call .run ?_
      -- the row is free, so the binding goes through
      have hbind : bindStepTaskOnce w₁.db k taskId (taskCreatedEvent k taskId) = .ok (boundDb w.db k taskId) := by
        rw [hdb]
        simp only [bindStepTaskOnce, hrow, hfree, reduceCtorEq, if_false, ne_eq, not_true_eq_false]
        rfl
      show (storeWrite w₁ .run (bindStepTaskOnce w₁.db k taskId _)).map _ = _
      rw [hbind]
      rfl
    refine Yields.bind (a := (.ok () : Except CallError Unit)) ?_ (Yields.pure _)
    refine Yields.tryCatch (Yields.bind hcreate ?_)
    exact Yields.bind hbound (Yields.pure _)
  · intro t ht
    exact (htasks t ht).imp_left (hu.finished t)


/-- What the driver needs of a step to run it: no gate, a prompt that renders, no leased workspace. -/
structure Plain (cfg : Config) (spec : WorkflowSpec) (k : StepKey) : Prop where
  step : ∃ step role, stepAndRole spec k = some (step, role) ∧ step.pauseBefore = none ∧
    ∀ scope, ∃ out, renderStep step scope = .ok out
  target : stepLeaseTarget cfg spec k = none

theorem yields_createAndBind {k : StepKey} {row : StepRow} (hu : Undisturbed cfg w) (hplain : Plain cfg spec k)
    (hrow : w.db.step? k = some row) (hfree : row.taskId = none) :
    ∃ taskId w', Yields (surroundings cfg) (createAndBindTask cfg spec w.db.wf k) w .ok w' ∧
      w'.db = boundDb w.db k taskId ∧ w'.flags = w.flags ∧ (∃ t ∈ w'.tasks, t.id = taskId) ∧
      ∀ t ∈ w'.tasks, t.status = .completed ∨ (t.id = taskId ∧ t.status = .running) := by
  obtain ⟨step, role, hstep, hgate, hrender⟩ := hplain.step
  obtain ⟨out, hout⟩ := hrender (renderScopeOf cfg k w.db.wf.context (listStepExecutions w.db)
    (w.db.human? (cfg.humanRequestId k)))
  obtain ⟨taskId, w', hyields, hrest⟩ := yields_createLoop (requestFor cfg spec k step role out.1 out.2)
    hu hrow hfree
  refine ⟨taskId, w', ?_, hrest⟩
  unfold createAndBindTask
  rw [hstep]
  dsimp only
  rw [hgate]
  have hscope : Yields (surroundings cfg) (buildRenderScope cfg k) w
      (renderScopeOf cfg k w.db.wf.context (listStepExecutions w.db) (w.db.human? (cfg.humanRequestId k))) w := by
    have hsnap : Yields (surroundings cfg) (call .getSnapshot) w w.db.wf w := yields_call .run rfl
    have hlist : Yields (surroundings cfg) (call .listSteps) w (listStepExecutions w.db) w := yields_call .run rfl
    have hhuman : Yields (surroundings cfg) (call (.getHumanRequest (cfg.humanRequestId k))) w
        (w.db.human? (cfg.humanRequestId k)) w := yields_call .run rfl
    exact Yields.bind hsnap (Yields.bind hlist (Yields.bind hhuman (Yields.pure _)))
  refine Yields.bind hscope ?_
  rw [hout]
  show Yields _ (requestTask cfg spec w.db.wf k _) _ _ _
  unfold requestTask
  rw [hplain.target]
  exact hyields

/-- The wait, on a task that finishes meanwhile. -/
theorem yields_wait {wf : WorkflowRow} {taskId : String} (text : String) (hstopped : w.stopped = false)
    (haborted : w.aborted = false) (hin : deadlineExceeded cfg wf w.now = false)
    (hmem : ∃ t ∈ w.tasks, t.id = taskId)
    (htasks : ∀ t ∈ w.tasks, t.status = .completed ∨ (t.id = taskId ∧ t.status = .running)) :
    ∃ w', Yields (surroundings cfg) (enter (.wait wf taskId (-1) 0)) w
        (.read (answeredRead taskId text)) w' ∧
      w'.db = w.db ∧ w'.flags = w.flags ∧ ∀ t ∈ w'.tasks, t.status = .completed := by
  obtain ⟨t, ht⟩ := finish_task hmem
  have hall := finish_all htasks
  have hcompleted : t.status = .completed := hall t (List.mem_of_find?_eq_some ht)
  refine ⟨(w.finish taskId .completed).note (.read (answeredRead taskId text)), ?_,
    rfl, rfl, hall⟩
  have hmove : (surroundings cfg).env w (w.finish taskId .completed) := ⟨taskId, .completed, by decide, rfl⟩
  refine Yields.env hmove ?_
  refine yields_enter (yields_flags ?_)
  refine yields_neg (by show ¬ w.stopped = true; rw [hstopped]; exact Bool.false_ne_true) ?_
  refine yields_neg (by show ¬ w.aborted = true; rw [haborted]; exact Bool.false_ne_true) ?_
  refine yields_neg (by show ¬ deadlineExceeded cfg wf w.now = true; rw [hin]; exact Bool.false_ne_true) ?_
  have hread : Yields (surroundings cfg) (call (.waitForTerminal taskId (-1) .awaitTask)) (w.finish taskId .completed)
      (answeredRead taskId text)
      ((w.finish taskId .completed).note (.read (answeredRead taskId text))) := by
    refine yields_call (.waited true .available (some text) 1) ?_
    simp only [exec, ht, hcompleted, answeredRead]
  refine Yields.bind (a := (.ok (answeredRead taskId text) : Except CallError TerminalRead)) ?_ (Yields.pure _)
  exact Yields.tryCatch (Yields.bind hread (Yields.pure _))

/-- The output of an answered task is stored with the context it updates. -/
theorem yields_handle {k : StepKey} {row : StepRow} (taskId : String) {text : String} {output : Json}
    (hwanted : w.db.wf.cancelRequested = false) (htarget : stepLeaseTarget cfg spec k = none)
    (hparse : parseResultOutput cfg text k.stepId = .ok output) (hrow : w.db.step? k = some row)
    (hopen : isTerminalStepStatus row.status = false) :
    ∃ context, Yields (surroundings cfg) (handleTaskTerminal cfg spec k (answeredRead taskId text)) w none
      { w with db := storedDb w.db k output context } := by
  have hget : Yields (surroundings cfg) (call (.getWorkflow .other)) w w.db.wf w := yields_call .run rfl
  have hsnap : Yields (surroundings cfg) (call .getSnapshot) w w.db.wf w := yields_call .run rfl
  have hnew : row.status ≠ .completed := fun h => by
    rw [h] at hopen
    exact Bool.noConfusion hopen
  have hstore : ∀ context ev, Yields (surroundings cfg)
      (call (.completeStep k output w.db.wf.contextRevision context ev)) w ()
      { w with db := ((w.db.setStep k (fun r => { r with status := .completed, output := some output })).setWf
        (fun w => { w with context := context, contextRevision := w.contextRevision + 1 })).append ev } := by
    intro context ev
    refine yields_call .run ?_
    simp only [exec, completeStepAndCheckpoint, hrow, hnew, hopen, if_false, Bool.false_eq_true, ne_eq,
      not_true_eq_false]
    rfl
  have hresolve : Yields (surroundings cfg) (enter (.resolve k (answeredRead taskId text) 1 0)) w
      (.available (answeredRead taskId text)) w := yields_enter (Yields.pure _)
  refine ⟨buildUpdatedContext w.db.wf.context w.db.wf.currentRound
    ((spec.step? k.stepId).bind AgentTaskStep.contextBinding) output taskId true, ?_⟩
  refine Yields.bind hget ?_
  rw [htarget]
  refine Yields.bind (Yields.pure ()) ?_
  refine yields_neg (by rw [hwanted]; exact Bool.false_ne_true) ?_
  refine Yields.bind hresolve ?_
  dsimp only
  rw [show parseResultOutput cfg ((answeredRead taskId text).resultText.getD "") k.stepId = .ok output from hparse]
  refine Yields.bind (Yields.bind hsnap (hstore _ _)) (Yields.pure _)

/-- One turn of the driver, through the row of the current execution. -/
theorem yields_drive {w₁ w₂ : World} {row : StepRow} {r : Option Exit} {why : Exit} (hu : Undisturbed cfg w)
    (hspec : cfg.loaded = some spec) (hrow : w.db.step? (currentKey spec w.db.wf) = some row)
    (hstep : Yields (surroundings cfg) (driveStep cfg spec w.db.wf row) { w with restarted := false } r w₁)
    (hrest : Yields (surroundings cfg) (match r with | some why => pure why | none => enter .drive) w₁ why w₂) :
    Yields (surroundings cfg) (enter .drive) w why w₂ := by
  have hhead : Yields (surroundings cfg) (call (.getWorkflow .driveHead)) w w.db.wf { w with restarted := false } :=
    yields_call .run rfl
  have hfound : Yields (surroundings cfg) (call (.getStepByKey (currentKey spec w.db.wf)))
      { w with restarted := false } (some row) { w with restarted := false } := by
    refine yields_call .run ?_
    show storeRead _ _ (w.db.step? _) = _
    rw [hrow]
    rfl
  have hiterate : Yields (surroundings cfg) (iterate cfg w.db.wf w.now) { w with restarted := false } r w₁ := by
    unfold iterate
    rw [hspec]
    refine yields_neg (by rw [hu.wanted]; exact Bool.false_ne_true) ?_
    refine yields_neg (by rw [hu.inTime]; exact Bool.false_ne_true) ?_
    exact Yields.bind hfound (Yields.bind (Yields.pure row) hstep)
  refine yields_enter (yields_flags ?_)
  refine yields_neg (by show ¬ w.stopped = true; rw [hu.stopped]; exact Bool.false_ne_true) ?_
  refine Yields.bind hhead (yields_flags ?_)
  refine yields_neg (by rw [hu.running]; exact fun h => h rfl) ?_
  exact Yields.bind hiterate hrest

end

/-! ## From a fresh row to the next one -/

/-- The driver is about to run the execution `k`, whose row is fresh. -/
structure Fresh (cfg : Config) (w : World) (k : StepKey) : Prop extends Undisturbed cfg w where
  current : w.db.wf.currentStepId = some k.stepId
  round : w.db.wf.currentRound = k.round
  row : w.db.step? k = some (.fresh k)

/-- From `w` the driver may come to the head of its loop in `w'`. -/
def Turns (cfg : Config) (w w' : World) : Prop :=
  ∀ why w'', Yields (surroundings cfg) (enter .drive) w' why w'' → Yields (surroundings cfg) (enter .drive) w why w''

/-- The execution is done: its row is completed with the output. -/
structure Done (cfg : Config) (w : World) (k : StepKey) (output : Json) : Prop extends Undisturbed cfg w where
  current : w.db.wf.currentStepId = some k.stepId
  round : w.db.wf.currentRound = k.round
  row : ∃ row, w.db.step? k = some row ∧ row.key = k ∧ row.status = .completed ∧ row.output = some output

section

variable {cfg : Config} {spec : WorkflowSpec} {w : World} {k : StepKey}

theorem currentKey_eq (hcurrent : w.db.wf.currentStepId = some k.stepId) (hround : w.db.wf.currentRound = k.round) :
    currentKey spec w.db.wf = k := by
  unfold currentKey
  rw [hcurrent, hround]
  rfl

theorem step?_set_self {db : Db} {row : StepRow} {f : StepRow → StepRow} (hf : ∀ r, (f r).key = r.key)
    (hrow : db.step? k = some row) : (db.setStep k f).step? k = some (f row) := by
  rw [Db.step?_setStep db k k hf, hrow]
  exact congrArg some (if_pos (Db.step?_key hrow))

/-- **One execution.** -/
theorem fresh_turns {text : String} {output : Json} (hf : Fresh cfg w k) (hspec : cfg.loaded = some spec)
    (hplain : Plain cfg spec k) (htasks : w.db.wf.totalTasks < spec.limits.maxTasks)
    (hparse : parseResultOutput cfg text k.stepId = .ok output) :
    ∃ w' taskId context, Turns cfg w w' ∧ Done cfg w' k output ∧
      w'.db = storedDb (boundDb w.db k taskId) k output context := by
  have hkey : currentKey spec w.db.wf = k := currentKey_eq hf.current hf.round
  have hhead : Undisturbed cfg { w with restarted := false } :=
    ⟨hf.stopped, hf.aborted, hf.running, hf.wanted, hf.inTime, hf.finished⟩
  obtain ⟨taskId, w₁, hcreate, hdb₁, hflags₁, hmem₁, htasks₁⟩ := yields_createAndBind hhead hplain hf.row rfl
  obtain ⟨hstopped₁, haborted₁, hnow₁⟩ := Flags.mk.inj hflags₁
  have hbound : (boundDb w.db k taskId).step? k = some { StepRow.fresh k with taskId := some taskId } :=
    step?_set_self (fun _ => rfl) hf.row
  have hfind : Yields (surroundings cfg) (call (.getStepByKey k)) w₁
      (some { StepRow.fresh k with taskId := some taskId }) w₁ := by
    refine yields_call .run ?_
    show storeRead _ _ (w₁.db.step? k) = _
    rw [hdb₁]
    exact congrArg (fun r => storeRead w₁ .run r) hbound
  have hin₁ : deadlineExceeded cfg w.db.wf w₁.now = false := by
    rw [hnow₁]
    exact hf.inTime
  obtain ⟨w₂, hwait, hdb₂, hflags₂, htasks₂⟩ := yields_wait text
    (hstopped₁.trans hf.stopped) (haborted₁.trans hf.aborted) hin₁ hmem₁ htasks₁
  obtain ⟨hstopped₂, haborted₂, hnow₂⟩ := Flags.mk.inj (hflags₂.trans hflags₁)
  have hw₂ : w₂.db = boundDb w.db k taskId := hdb₂.trans hdb₁
  obtain ⟨context, hhandle⟩ := yields_handle (w := w₂) taskId
    (by rw [hw₂]; exact hf.wanted) hplain.target hparse ((congrArg (fun db => Db.step? db k) hw₂).trans hbound) rfl
  rw [hw₂] at hhandle
  refine ⟨{ w₂ with db := storedDb (boundDb w.db k taskId) k output context }, taskId, context, ?_, ?_, rfl⟩
  · intro why w'' hrest
    refine yields_drive (r := none) hf.toUndisturbed hspec (by rw [hkey]; exact hf.row) ?_ hrest
    show Yields _ (createThenAwait cfg spec w.db.wf k) _ _ _
    refine yields_neg (Nat.not_le.mpr htasks) ?_
    refine Yields.bind hcreate ?_
    refine Yields.bind hfind ?_
    exact Yields.bind hwait hhandle
  · refine ⟨⟨hstopped₂.trans hf.stopped, haborted₂.trans hf.aborted, hf.running, hf.wanted, ?_, htasks₂⟩,
      hf.current, hf.round, ?_⟩
    · show deadlineExceeded cfg _ w₂.now = false
      rw [hnow₂]
      exact hf.inTime
    · refine ⟨{ StepRow.fresh k with taskId := some taskId, status := .completed, output := some output }, ?_,
        rfl, rfl, rfl⟩
      exact step?_set_self (f := fun r => { r with status := .completed, output := some output }) (fun _ => rfl) hbound

/-- The rows once an edge is taken. -/
def advancedDb (db : Db) (k : StepKey) (d : RoutingDecision) : Db :=
  (({ db with
      steps := db.steps ++ [StepRow.fresh (nextKey k d)]
      events := db.events ++ edgeEvent d :: (roundEvent k d).toList } : Db).setWf (fun w => { w with
    currentRound := if (roundEvent k d).isSome then (nextKey k d).round else w.currentRound
    currentStepId := some (nextKey k d).stepId })).append (startedEvent (nextKey k d))

/-- **One edge**, to an execution that has no row yet. -/
theorem done_turns {kvs : List (String × Json)} {d : RoutingDecision} (hd : Done cfg w k (.obj kvs))
    (hspec : cfg.loaded = some spec) (hstall : spec.stallPolicy = none)
    (hedge : selectEdge spec k.stepId (.obj kvs) k.round = .ok d) (hopen : d.terminal = false)
    (hloop : d.edgeKind = .loop → canTakeLoopEdge k.round (spec.limits.maxRounds.getD 0) = true)
    (hnew : w.db.step? (nextKey k d) = none) :
    ∃ w', Turns cfg w w' ∧ Fresh cfg w' (nextKey k d) ∧ w'.db = advancedDb w.db k d := by
  obtain ⟨row, hrow, hrowkey, hstatus, houtput⟩ := hd.row
  have hkey : currentKey spec w.db.wf = k := currentKey_eq hd.current hd.round
  have hround : ¬ ((roundEvent k d).isSome ∧ (nextKey k d).round < w.db.wf.currentRound) := by
    rintro ⟨-, hlt⟩
    rw [hd.round] at hlt
    unfold nextKey at hlt
    split at hlt
    · exact absurd hlt (by show ¬ (k.round + 1 < k.round); omega)
    · exact absurd hlt (Nat.lt_irrefl _)
  have hadvance : advanceWorkflow w.db (edgeEvent d) (roundEvent k d) (nextKey k d) (startedEvent (nextKey k d))
      = .ok (advancedDb w.db k d) := by
    unfold advanceWorkflow
    rw [hnew]
    exact if_neg hround
  have htake : Yields (surroundings cfg) (takeEdge k d) { w with restarted := false } none
      { w with restarted := false, db := advancedDb w.db k d } := by
    have hcall : Yields (surroundings cfg)
        (call (.advance (edgeEvent d) (roundEvent k d) (nextKey k d) (startedEvent (nextKey k d))))
        { w with restarted := false } () { w with restarted := false, db := advancedDb w.db k d } := by
      refine yields_call .run ?_
      show storeWrite { w with restarted := false } .run (advanceWorkflow w.db _ _ _ _) = _
      rw [hadvance]
      rfl
    exact Yields.bind hcall (Yields.pure _)
  refine ⟨{ w with restarted := false, db := advancedDb w.db k d }, ?_, ?_, rfl⟩
  · intro why w'' hrest
    refine yields_drive (r := none) hd.toUndisturbed hspec (by rw [hkey]; exact hrow) ?_ hrest
    unfold driveStep routeAndAdvance
    rw [if_pos hstatus]
    simp only [outputObject, houtput, hrowkey, hedge, hopen, Bool.false_eq_true, if_false, hstall]
    by_cases hkind : d.edgeKind = .loop
    · rw [if_pos hkind, hloop hkind]
      exact htake
    · rw [if_neg hkind]
      exact htake
  · refine ⟨⟨hd.stopped, hd.aborted, hd.running, hd.wanted, hd.inTime, hd.finished⟩, rfl, ?_, ?_⟩
    · show (if (roundEvent k d).isSome then (nextKey k d).round else w.db.wf.currentRound) = _
      unfold roundEvent nextKey
      by_cases hkind : d.edgeKind = .loop
      · rw [if_pos hkind, if_pos hkind]
        rfl
      · rw [if_neg hkind, if_neg hkind]
        exact hd.round
    · show Db.step? { w.db with steps := _ } _ = _
      rw [@Db.step?_concat w.db _ _ rfl, hnew]
      exact if_pos rfl

end

/-! ## The ring -/

def ringLimits : Json :=
  .obj [("max_tasks", .num (.ofInt 1000)), ("max_runtime_seconds", .num (.ofInt 60)),
    ("max_step_attempts", .num (.ofInt 1)), ("max_failures", .num (.ofInt 1)), ("max_rounds", .num (.ofInt 100))]

/-- Three steps, the last of which loops back on one answer and completes on the other. -/
def ringSpec : Json :=
  .obj [("version", .str "1"), ("name", .str "w"), ("entry_step", .str "a"), ("agents", oneRole),
    ("output_schemas", enumSchemas), ("limits", ringLimits),
    ("steps", .arr [plainStep "a" "go", plainStep "b" "go", plainStep "c" "go"]),
    ("edges", .arr [plainEdge "a" "b", plainEdge "b" "c", enumEdge "c" "a" "loop" "x",
      enumEdge "c" "$complete" "normal" "y"]), statusPolicy]

theorem ringSpec_valid : (validateWorkflowSpec ringSpec).valid = true := by decide +kernel

theorem ringSpec_loaded : some (WorkflowSpec.ofJson ringSpec) = loadSpec ringSpec := by
  unfold loadSpec
  rw [if_pos ringSpec_valid]

def ringAnswer : Json := .obj [("k", .str "x")]

/-- The ring's workflow, whose agents always give the answer that loops. -/
def ring : Config where
  workflowId := "wf"
  rawSpec := ringSpec
  loaded := some (WorkflowSpec.ofJson ringSpec)
  loaded_eq := ringSpec_loaded
  inputs := []
  leaseClient := false
  jsonParse := fun text => if text = "\x7b\"k\":\"x\"\x7d" then some ringAnswer else none
  digest := id
  digest_inj := fun _ _ h => h
  filesHash := fun files => " ".intercalate files
  resultIngestionDeadlineMs := 60000
  maxReleaseAttempts := 3

def ringText : String := "\x7b\"k\":\"x\"\x7d"

/-- The edge each step takes on that answer. -/
def ringEdge (x : String) : RoutingDecision :=
  if x = "a" then ⟨false, "b", .normal⟩ else if x = "b" then ⟨false, "c", .normal⟩ else ⟨false, "a", .loop⟩

section

variable {x : String} (hx : x = "a" ∨ x = "b" ∨ x = "c") (n : Nat)

include hx

theorem ring_plain : Plain ring ring.spec ⟨x, n⟩ := by
  rcases hx with rfl | rfl | rfl <;>
    exact ⟨⟨_, _, rfl, rfl, fun scope => ⟨_, rfl⟩⟩, rfl⟩

theorem ring_parse : parseResultOutput ring ringText x = .ok ringAnswer := by
  rcases hx with rfl | rfl | rfl <;> rfl

theorem ring_edge : selectEdge ring.spec x ringAnswer n = .ok (ringEdge x) := by
  rcases hx with rfl | rfl | rfl <;> rfl

end

theorem ring_maxTasks : ring.spec.limits.maxTasks = 1000 := by decide +kernel

theorem ring_maxRuntime : ring.spec.limits.maxRuntimeSeconds = 60 := by decide +kernel

theorem ring_maxRounds : ring.spec.limits.maxRounds.getD 0 = 100 := by decide +kernel

theorem mem_setStep {db : Db} {k : StepKey} {f : StepRow → StepRow} (hf : ∀ r, (f r).key = r.key) {r : StepRow}
    (hr : r ∈ (db.setStep k f).steps) : ∃ r₀ ∈ db.steps, r₀.key = r.key := by
  obtain ⟨r₀, hr₀, rfl⟩ := List.mem_map.mp hr
  refine ⟨r₀, hr₀, ?_⟩
  split
  · exact (hf r₀).symm
  · rfl

/-- The place of a step in the ring. -/
def place (x : String) : Nat := if x = "a" then 0 else if x = "b" then 1 else 2

/-- The edge goes to the next place of the round, or to the first of the next round. -/
theorem ring_advance {x : String} (hx : x = "a" ∨ x = "b" ∨ x = "c") (n : Nat) :
    (place (ringEdge x).target = place x + 1 ∧ (nextKey ⟨x, n⟩ (ringEdge x)).round = n ∧
      roundEvent ⟨x, n⟩ (ringEdge x) = none) ∨
    (place x = 2 ∧ place (ringEdge x).target = 0 ∧ (nextKey ⟨x, n⟩ (ringEdge x)).round = n + 1 ∧
      ∃ ev, roundEvent ⟨x, n⟩ (ringEdge x) = some ev ∧ ev.type = .workflowRoundAdvanced) := by
  rcases hx with rfl | rfl | rfl
  · exact .inl ⟨rfl, rfl, rfl⟩
  · exact .inl ⟨rfl, rfl, rfl⟩
  · exact .inr ⟨rfl, rfl, rfl, _, rfl, rfl⟩

/-- The driver is about to run a step of the ring, in a round: earlier executions only have rows, and
    each of them logged its events. -/
structure OnRing (w : World) (x : String) (n : Nat) : Prop extends Fresh ring w ⟨x, n⟩ where
  known : x = "a" ∨ x = "b" ∨ x = "c"
  earlier : ∀ r ∈ w.db.steps, r.key.round < n ∨ (r.key.round = n ∧ place r.key.stepId ≤ place x)
  tasks : w.db.wf.totalTasks + 3 = 3 * n + place x
  long : 13 * n + 4 * place x ≤ w.db.events.length + 13
  quiet : ∀ e ∈ w.db.events, e.type ≠ .workflowBlocked

/-- The execution of a step of the ring. -/
theorem ring_done {w : World} {x : String} {n : Nat} (h : OnRing w x n) (hn : n ≤ 100) :
    ∃ w' taskId context, Turns ring w w' ∧ Done ring w' ⟨x, n⟩ ringAnswer ∧
      w'.db = storedDb (boundDb w.db ⟨x, n⟩ taskId) ⟨x, n⟩ ringAnswer context := by
  refine fresh_turns h.toFresh rfl (ring_plain h.known n) ?_ (ring_parse h.known)
  have htasks := h.tasks
  have hplace : place x ≤ 2 := by
    unfold place
    split
    · omega
    · split <;> omega
  show w.db.wf.totalTasks < ring.spec.limits.maxTasks
  rw [ring_maxTasks]
  omega

/-- **One step of the ring**, unless it is the last of the last round. -/
theorem ring_next {w : World} {x : String} {n : Nat} (h : OnRing w x n) (hn : n ≤ 100)
    (hlast : x = "c" → n < 100) :
    ∃ w', Turns ring w w' ∧ OnRing w' (ringEdge x).target (nextKey ⟨x, n⟩ (ringEdge x)).round := by
  obtain ⟨w₁, taskId, context, hturn₁, hdone, hdb₁⟩ := ring_done h hn
  have hsteps : ∀ r ∈ w₁.db.steps, r.key.round < n ∨ (r.key.round = n ∧ place r.key.stepId ≤ place x) := by
    intro r hr
    rw [hdb₁] at hr
    obtain ⟨r₁, hr₁, hkey₁⟩ := mem_setStep (f := fun r => { r with status := .completed, output := some ringAnswer })
      (fun _ => rfl) hr
    obtain ⟨r₀, hr₀, hkey₀⟩ := mem_setStep (f := fun r => { r with taskId := some taskId }) (fun _ => rfl) hr₁
    rw [← hkey₁, ← hkey₀]
    exact h.earlier r₀ hr₀
  have hnew : w₁.db.step? (nextKey ⟨x, n⟩ (ringEdge x)) = none := by
    refine List.find?_eq_none.mpr fun r hr hk => ?_
    have hk : r.key = nextKey ⟨x, n⟩ (ringEdge x) := of_decide_eq_true hk
    have hr := hsteps r hr
    rw [hk] at hr
    have htarget : (nextKey ⟨x, n⟩ (ringEdge x)).stepId = (ringEdge x).target := rfl
    rw [htarget] at hr
    rcases ring_advance h.known n with ⟨hplace, hround, -⟩ | ⟨-, hplace, hround, -⟩ <;> omega
  have hloop : (ringEdge x).edgeKind = .loop → canTakeLoopEdge n (ring.spec.limits.maxRounds.getD 0) = true := by
    intro hkind
    rw [ring_maxRounds]
    obtain rfl | rfl | rfl := h.known
    · exact nomatch hkind
    · exact nomatch hkind
    · exact decide_eq_true (hlast rfl)
  obtain ⟨w₂, hturn₂, hfresh, hdb₂⟩ := done_turns hdone rfl rfl (ring_edge h.known n)
    (by obtain rfl | rfl | rfl := h.known <;> rfl) hloop hnew
  -- the rows and events of the step, then those of the edge
  have hsteps₂ : w₂.db.steps = w₁.db.steps ++ [.fresh (nextKey ⟨x, n⟩ (ringEdge x))] := by
    rw [hdb₂]
    rfl
  have htasks₂ : w₂.db.wf.totalTasks = w.db.wf.totalTasks + 1 := by
    rw [hdb₂, hdb₁]
    rfl
  have hevents₂ : w₂.db.events = w.db.events ++ ([taskCreatedEvent ⟨x, n⟩ taskId,
      stepEvent .stepCompleted ⟨x, n⟩ [stepIdProp ⟨x, n⟩, roundProp ⟨x, n⟩]] ++
      (edgeEvent (ringEdge x) :: (roundEvent ⟨x, n⟩ (ringEdge x)).toList) ++
      [startedEvent (nextKey ⟨x, n⟩ (ringEdge x))]) := by
    rw [hdb₂, hdb₁]
    simp [advancedDb, storedDb, boundDb]
  have htasks := h.tasks
  have hlong := h.long
  have hadvance := ring_advance h.known n
  refine ⟨w₂, fun why w'' hrest => hturn₁ why w'' (hturn₂ why w'' hrest), hfresh, ?_, ?_, ?_, ?_, ?_⟩
  · obtain rfl | rfl | rfl := h.known
    · exact .inr (.inl rfl)
    · exact .inr (.inr rfl)
    · exact .inl rfl
  · intro r hr
    rw [hsteps₂] at hr
    rcases mem_snoc.mp hr with hr | rfl
    · have hr := hsteps r hr
      rcases hadvance with ⟨hplace, hround, -⟩ | ⟨hplace, -, hround, -⟩ <;> omega
    · exact .inr ⟨rfl, Nat.le_refl _⟩
  · rcases hadvance with ⟨hplace, hround, -⟩ | ⟨hplace, htarget, hround, -⟩ <;> omega
  · rw [hevents₂, List.length_append]
    rcases hadvance with ⟨hplace, hround, hnone⟩ | ⟨hplace, htarget, hround, ev, hsome, -⟩
    · rw [hnone]
      simp only [Option.toList_none, List.length_append, List.length_cons, List.length_nil]
      omega
    · rw [hsome]
      simp only [Option.toList_some, List.length_append, List.length_cons, List.length_nil]
      omega
  · intro e he
    rw [hevents₂] at he
    rcases List.mem_append.mp he with he | he
    · exact h.quiet e he
    · rcases hadvance with ⟨-, -, hnone⟩ | ⟨-, -, -, ev, hsome, htype⟩
      · rw [hnone] at he
        rcases he with _ | ⟨_, _ | ⟨_, _ | ⟨_, _ | ⟨_, he⟩⟩⟩⟩ <;> first | exact EventType.noConfusion | exact nomatch he
      · rw [hsome] at he
        rcases he with _ | ⟨_, _ | ⟨_, _ | ⟨_, _ | ⟨_, _ | ⟨_, he⟩⟩⟩⟩⟩
        · exact EventType.noConfusion
        · exact EventType.noConfusion
        · exact EventType.noConfusion
        · rw [htype]
          exact EventType.noConfusion
        · exact EventType.noConfusion
        · exact nomatch he

/-- A whole round. -/
theorem ring_round {w : World} {n : Nat} (h : OnRing w "a" n) (hn : n < 100) :
    ∃ w', Turns ring w w' ∧ OnRing w' "a" (n + 1) := by
  obtain ⟨w₁, hturn₁, hb⟩ := ring_next h hn.le (fun hc => absurd hc (by decide))
  obtain ⟨w₂, hturn₂, hc⟩ := ring_next (x := "b") hb hn.le (fun hc => absurd hc (by decide))
  obtain ⟨w₃, hturn₃, ha⟩ := ring_next (x := "c") hc hn.le (fun _ => hn)
  exact ⟨w₃, fun why w' hrest => hturn₁ why w' (hturn₂ why w' (hturn₃ why w' hrest)), ha⟩

/-- **The rounds**, by induction on how many are left. -/
theorem ring_rounds {w : World} (h : OnRing w "a" 1) (m : Nat) (hm : m < 100) :
    ∃ w', Turns ring w w' ∧ OnRing w' "a" (m + 1) := by
  induction m with
  | zero => exact ⟨w, fun _ _ hrest => hrest, h⟩
  | succ m ih =>
    obtain ⟨w₁, hturn₁, h₁⟩ := ih (by omega)
    obtain ⟨w₂, hturn₂, h₂⟩ := ring_round h₁ (by omega)
    exact ⟨w₂, fun why w' hrest => hturn₁ why w' (hturn₂ why w' hrest), h₂⟩

/-- The loop edge of the last round is refused. -/
theorem ring_refused {w : World} (h : OnRing w "a" 100) :
    ∃ w', Yields (surroundings ring) (enter .drive) w .ended w' ∧ w'.stopped = false ∧ w'.db.wf.status = .failed ∧
      ∃ log, w'.db.events = log ++ [limitEvent "max_rounds"] ∧ 1000 ≤ log.length ∧
        ∀ e ∈ log, e.type ≠ .workflowBlocked := by
  obtain ⟨w₁, hturn₁, hb⟩ := ring_next h (Nat.le_refl _) (fun hc => absurd hc (by decide))
  obtain ⟨w₂, hturn₂, hc⟩ := ring_next (x := "b") hb (Nat.le_refl _) (fun hc => absurd hc (by decide))
  obtain ⟨w₃, taskId, context, hturn₃, hdone, hdb₃⟩ := ring_done (x := "c") hc (Nat.le_refl _)
  obtain ⟨row, hrow, hrowkey, hstatus, houtput⟩ := hdone.row
  have hlong : 13 * 100 + 4 * 2 ≤ w₂.db.events.length + 13 := hc.long
  have hopen : ¬ (w₃.db.wf.status = .failed ∨ w₃.db.isTerminal = true) := by
    unfold Db.isTerminal
    rw [hdone.running]
    rintro (h | h) <;> exact nomatch h
  have hended : terminalizeWorkflow w₃.db .failed none (limitEvent "max_rounds") =
      (w₃.db.setWf fun r => { r with status := .failed }).append (limitEvent "max_rounds") := by
    unfold terminalizeWorkflow
    rw [if_neg hopen]
    simp [Db.setWf, Db.append]
  have hfail : Yields (surroundings ring) (failLimit "max_rounds") { w₃ with restarted := false } ()
      { w₃ with restarted := false, db := terminalizeWorkflow w₃.db .failed none (limitEvent "max_rounds") } :=
    yields_call .run rfl
  refine ⟨{ w₃ with restarted := false, db := terminalizeWorkflow w₃.db .failed none (limitEvent "max_rounds") }, ?_,
    hdone.stopped, ?_, w₃.db.events, ?_, ?_, ?_⟩
  · refine hturn₁ _ _ (hturn₂ _ _ (hturn₃ _ _ ?_))
    refine @yields_drive ring ring.spec w₃ _ _ row (some .ended) _ hdone.toUndisturbed rfl ?_ ?_ (Yields.pure _)
    · rw [currentKey_eq hdone.current hdone.round]
      exact hrow
    · unfold driveStep routeAndAdvance
      rw [if_pos hstatus]
      simp only [outputObject, houtput, ringAnswer, hrowkey, ring_maxRounds]
      exact Yields.bind hfail (Yields.pure _)
  · show (terminalizeWorkflow w₃.db .failed none (limitEvent "max_rounds")).wf.status = .failed
    rw [hended]
    rfl
  · show (terminalizeWorkflow w₃.db .failed none (limitEvent "max_rounds")).events = _
    rw [hended]
    rfl
  · rw [hdb₃]
    simp only [storedDb, boundDb, Db.append_events, Db.setWf_events, Db.setStep_events, List.length_append,
      List.length_cons, List.length_nil]
    omega
  · intro e he
    rw [hdb₃] at he
    rcases mem_snoc.mp he with he | rfl
    · rcases mem_snoc.mp he with he | rfl
      · exact hc.quiet e he
      · exact EventType.noConfusion
    · exact EventType.noConfusion

/-! ## The run -/

/-- The start, the first row, a crash, and the recovery that drives it again. -/
def ringActions : List Action :=
  startActions ++ [.unfold .pump, .exec .pump .run, .wake .pump, .exec .pump .run, .wake .pump, .exec .pump .run,
    .crash, .invoke .recover, .exec (.call 0) .run, .wake (.call 0), .exec (.call 0) .run, .wake (.call 0), .leave 0]

theorem ring_started : ∃ w, runWhile ring (fun _ _ => true) (initial ring) ringActions
    = some ⟨w, some (pumpStart ring w), []⟩ ∧ OnRing w "a" 1 := by
  refine ⟨_, rfl, ⟨⟨⟨rfl, rfl, rfl, rfl, ?_, ?_⟩, rfl, rfl, ?_⟩, .inl rfl, ?_, rfl, ?_, ?_⟩⟩
  · show decide (0 + ring.spec.limits.maxRuntimeSeconds * 1000 ≤ 0) = false
    rw [ring_maxRuntime]
    rfl
  · exact fun t ht => nomatch ht
  · rfl
  · intro r hr
    obtain rfl := List.mem_singleton.mp hr
    exact .inr ⟨rfl, Nat.le_refl _⟩
  · show 13 * 1 + 4 * 0 ≤ 4 + 13
    decide
  · intro e he
    rcases he with _ | ⟨_, _ | ⟨_, _ | ⟨_, _ | ⟨_, he⟩⟩⟩⟩ <;> first | exact EventType.noConfusion | exact nomatch he

/-- A failure's reason can be missing: the page that the snapshot reads ends before it. -/
theorem long_log_hides_reason : ¬ ∀ (cfg : Config) (s : Sys) (rows : List EventRow), StoredRun cfg s rows →
    s.w.db.isTerminal = true → ∃ (i : Nat) (ev : WorkflowEvent), s.w.db.events[i]? = some ev ∧ isFinalEvent ev = true ∧
      (buildSnapshotView s.w.db rows).Reports ev := by
  intro hall
  obtain ⟨w, hrun, hring⟩ := ring_started
  obtain ⟨w₁, hturn, hlast⟩ := ring_rounds hring 99 (by decide)
  obtain ⟨w₂, hdrive, hstopped, hstatus, log, hlog, hlen, hquiet⟩ := ring_refused hlast
  -- the pump returns from its driver and has no leases to release
  have hpump : Yields (surroundings ring) (runWorkflow ring) w .ended w₂ := by
    refine Yields.bind (hturn _ _ hdrive) (yields_flags ?_)
    refine yields_neg (by show ¬ w₂.stopped = true; rw [hstopped]; exact Bool.false_ne_true) ?_
    exact Yields.bind (Yields.tryCatch (Yields.pure ())) (Yields.pure _)
  have hreach := reach_of_eval hpump (reach_of_runWhile (fun _ _ _ => trivial) .start hrun)
  have hend : w₂.db.isTerminal = true := by
    unfold Db.isTerminal
    rw [hstatus]
    rfl
  obtain ⟨i, ev, hget, hfinal, hreports⟩ := hall ring _ _ (storedRun_of_reach hreach) hend
  obtain ⟨i', ev', hget', -, honly, hiff⟩ := snapshot_reports (storedRun_of_reach hreach) hend
  -- the one ending event is the last of the log, past the first page
  have hlastEvent : w₂.db.events[log.length]? = some (limitEvent "max_rounds") := by
    rw [hlog, List.getElem?_append_right (Nat.le_refl _), Nat.sub_self]
    rfl
  obtain rfl : log.length = i' := honly _ _ hlastEvent rfl
  obtain rfl : i = log.length := honly _ _ hget hfinal
  obtain rfl : limitEvent "max_rounds" = ev := Option.some.inj (hlastEvent.symm.trans hget)
  obtain rfl : limitEvent "max_rounds" = ev' := Option.some.inj (hlastEvent.symm.trans hget')
  rcases hiff.mp hreports with hpage | ⟨-, hreason⟩
  · have hin := (mem_page (k := 0) hlastEvent).mp hpage
    omega
  · have hnone : lastBlockedReason (((eventRows w₂.db).take 1000).map EventRow.event) = none := by
      unfold lastBlockedReason
      refine Option.bind_eq_none_iff.mpr fun e he => ?_
      have hmem : e ∈ w₂.db.events.take 1000 := by
        rw [← eventRows_event, ← List.map_take]
        exact List.mem_reverse.mp (List.mem_of_find?_eq_some he)
      rw [hlog, List.take_append_of_le_length hlen] at hmem
      have hblocked := List.find?_some he
      exact absurd (of_decide_eq_true hblocked) (hquiet e (List.mem_of_mem_take hmem))
    have hcarries : CarriesReason (limitEvent "max_rounds") "workflow_limit_exceeded" := ⟨rfl, by decide, .inl rfl⟩
    have hshown := (congrArg shownReason hnone).symm.trans ((hreason _).mpr hcarries)
    cases hshown

end VibeRuntime
