import VibeWorkflow.FinalityProofs

/-!
# How the driver's own data evolves

Five writes change what the pump owns: a row is started, bound, completed or followed by the
next one, and a round's fingerprint is recorded.  Everything else leaves it as it is.  The
executions that are not current are completed, and every bound task is one the service holds.

* **`Effect.owned`** — every effect is one of the writes below, or leaves owned data alone.
* **`TaskInv`** — what the rows, the service and the answers given say about each other.
-/

namespace VibeRuntime

open VibeJson VibeContract VibeRouting VibeTemplate VibeValidator VibeStore VibeAdmission VibeControl
open AsyncLogic

/-! ## Owned writes -/

namespace Owned

/-- Change the row of one execution. -/
def setStep (O : Owned) (k : StepKey) (f : StepRow → StepRow) : Owned :=
  { O with steps := O.steps.map (fun r => if r.key = k then f r else r) }

def start (O : Owned) (k : StepKey) : Owned :=
  { O with steps := O.steps ++ [StepRow.fresh k], currentStepId := some k.stepId }

def bind (O : Owned) (k : StepKey) (taskId : String) : Owned :=
  { O.setStep k (fun r => { r with taskId := some taskId }) with totalTasks := O.totalTasks + 1 }

def complete (O : Owned) (k : StepKey) (output : Json) (context : List (String × Json)) : Owned :=
  { O.setStep k (fun r => { r with status := .completed, output := some output }) with
    context := context
    contextRevision := O.contextRevision + 1 }

def advance (O : Owned) (next : StepKey) (looped : Bool) : Owned :=
  { O with
    steps := O.steps ++ [StepRow.fresh next]
    currentRound := if looped then next.round else O.currentRound
    currentStepId := some next.stepId }

end Owned

inductive OwnedStep : Op → Owned → Owned → Prop where
  | same {op : Op} {O : Owned} : OwnedStep op O O
  | started {k : StepKey} {ev : WorkflowEvent} {O : Owned} (h : O.step? k = none) :
      OwnedStep (.ensureStepStarted k ev) O (O.start k)
  | bound {k : StepKey} {taskId : String} {ev : WorkflowEvent} {O : Owned} {row : StepRow}
      (h : O.step? k = some row) (hfree : row.taskId = none) :
      OwnedStep (.bindStepTaskOnce k taskId ev) O (O.bind k taskId)
  | completed {k : StepKey} {output : Json} {context : List (String × Json)} {ev : WorkflowEvent}
      {O : Owned} {row : StepRow} (h : O.step? k = some row) (hlive : row.status ≠ .completed) :
      OwnedStep (.completeStep k output O.contextRevision context ev) O (O.complete k output context)
  | advanced {edgeEv : WorkflowEvent} {roundEv : Option WorkflowEvent} {next : StepKey}
      {startedEv : WorkflowEvent} {O : Owned} (h : O.step? next = none) :
      OwnedStep (.advance edgeEv roundEv next startedEv) O (O.advance next roundEv.isSome)
  | stalled {round : Nat} {fp : String} {signals : Json} {O : Owned}
      (h : ∀ s ∈ O.stall, s.round ≠ round) :
      OwnedStep (.recordStall round fp signals) O { O with stall := O.stall ++ [⟨round, fp, signals⟩] }

/-- Masking the changed row. -/
theorem mask_setStep (rows : List StepRow) (k : StepKey) {f g : StepRow → StepRow}
    (h : ∀ r ∈ rows, r.key = k → maskRow (f r) = g (maskRow r)) :
    (rows.map (fun r => if r.key = k then f r else r)).map maskRow
      = (rows.map maskRow).map (fun r => if r.key = k then g r else r) := by
  rw [List.map_map, List.map_map]
  refine List.map_congr_left (fun r hr => ?_)
  show maskRow (if r.key = k then f r else r) = if (maskRow r).key = k then g (maskRow r) else maskRow r
  rw [maskRow_key]
  split
  · rename_i hk
    exact h r hr hk
  · rfl

theorem owned_step?_none {db : Db} {k : StepKey} (h : db.step? k = none) :
    (owned db).step? k = none := by
  rw [owned_step?, h]
  rfl

theorem owned_step?_some {db : Db} {k : StepKey} {row : StepRow} (h : db.step? k = some row) :
    (owned db).step? k = some (maskRow row) := by
  rw [owned_step?, h]
  rfl

theorem OwnedStep.of_eq {op : Op} {O O₁ O' : Owned} (h : OwnedStep op O O₁) (heq : O' = O₁) :
    OwnedStep op O O' := heq ▸ h

/-- Failing a row that has not ended is not seen. -/
theorem owned_failRow {db : Db} {k : StepKey} {row : StepRow}
    (hkeys : (db.steps.map StepRow.key).Nodup) (hrow : db.step? k = some row)
    (hlive : isTerminalStepStatus row.status = false) (stepEv : WorkflowEvent) (error : Json) :
    owned (failRow db k stepEv error) = owned db := by
  have hsteps : (db.steps.map (fun r => if r.key = k then failedRow error r else r)).map maskRow
      = db.steps.map maskRow := by
    rw [mask_setStep db.steps k (f := failedRow error) (g := id)]
    · simp
    · intro r hr hk
      -- the only row of that key is the one that was found
      have hfound := step?_of_mem_steps hkeys hr
      rw [hk, hrow] at hfound
      obtain rfl := Option.some.inj hfound
      have hne : row.status ≠ .completed := by
        intro hc
        rw [hc] at hlive
        exact nomatch hlive
      simp [maskRow, failedRow, hne]
  show Owned.mk _ _ _ _ _ ((db.steps.map _).map maskRow) _ = _
  rw [hsteps]
  rfl

/-- **Every effect on owned data.** -/
theorem Effect.owned {op : Op} {w w' : World} (h : Effect op w w')
    (hkeys : (w.db.steps.map StepRow.key).Nodup) :
    OwnedStep op (owned w.db) (owned w'.db) := by
  have hkeep : ∀ {O : Owned}, O = VibeRuntime.owned w.db → OwnedStep op (VibeRuntime.owned w.db) O :=
    fun heq => OwnedStep.same.of_eq heq
  cases h with
  | @stepStarted _ k ev hnone =>
    refine (OwnedStep.started (owned_step?_none hnone)).of_eq ?_
    show Owned.mk _ _ _ _ _ ((w.db.steps ++ [StepRow.fresh k]).map maskRow) _ = _
    rw [List.map_append]
    rfl
  | @bound _ k taskId ev row hrow hfree =>
    refine (OwnedStep.bound (owned_step?_some hrow) hfree).of_eq ?_
    show Owned.mk _ _ _ _ _ ((w.db.steps.map _).map maskRow) _ = _
    rw [mask_setStep w.db.steps k (g := fun r => { r with taskId := some taskId })
      (fun _ _ _ => rfl)]
    rfl
  | @completed _ k output context ev row hrow hlive =>
    have hne : (maskRow row).status ≠ .completed := by
      intro hc
      rw [(maskRow_completed row).mp hc] at hlive
      exact nomatch hlive
    refine (OwnedStep.completed (owned_step?_some hrow) hne).of_eq ?_
    show Owned.mk _ _ _ _ _ ((w.db.steps.map _).map maskRow) _ = _
    rw [mask_setStep w.db.steps k
      (g := fun r => { r with status := .completed, output := some output }) (fun _ _ _ => rfl)]
    rfl
  | @advanced _ edgeEv roundEv next startedEv hnone hround =>
    refine (OwnedStep.advanced (owned_step?_none hnone)).of_eq ?_
    show Owned.mk _ (if roundEv.isSome then next.round else w.db.wf.currentRound) _ _ _
      ((w.db.steps ++ [StepRow.fresh next]).map maskRow) _ = _
    rw [List.map_append]
    rfl
  | stalled hfree => exact .stalled hfree
  | @stepFailed _ _ stepEv _ error _ hrow hlive _ =>
    exact hkeep (owned_failRow hkeys hrow hlive stepEv error)
  | @stepFailedLate _ _ stepEv _ error _ hrow hlive _ =>
    exact hkeep (owned_failRow hkeys hrow hlive stepEv error)
  | @cancelled _ k _ _ _ => exact hkeep (owned_cancelNamed w.db k)
  | awaited _ => exact hkeep (owned_setStep _ _ (fun _ => rfl))
  | revisedBefore => exact hkeep (owned_setStep _ _ (fun _ => rfl))
  | revisedAfter => exact hkeep (owned_setStep _ _ (fun _ => rfl))
  | _ => exact hkeep rfl

/-! ## Owned rows -/

section

variable {O : Owned} {k : StepKey}

theorem Owned.step?_mem {row : StepRow} (h : O.step? k = some row) : row ∈ O.steps ∧ row.key = k :=
  ⟨List.mem_of_find?_eq_some h, by simpa using List.find?_some h⟩

theorem Owned.key_ne (h : O.step? k = none) {r : StepRow} (hr : r ∈ O.steps) : r.key ≠ k := by
  have := List.find?_eq_none.mp h r hr
  simpa using this

theorem Owned.step?_setStep (O : Owned) (k k' : StepKey) {f : StepRow → StepRow}
    (hf : ∀ r, (f r).key = r.key) :
    (O.setStep k f).step? k' = (O.step? k').map (fun r => if r.key = k then f r else r) :=
  find_change StepRow.key O.steps k k' hf

theorem Owned.mem_setStep {f : StepRow → StepRow} {r : StepRow} :
    r ∈ (O.setStep k f).steps ↔ ∃ r₀ ∈ O.steps, (if r₀.key = k then f r₀ else r₀) = r :=
  List.mem_map

end

/-! ## The service and the answers it gave -/

/-- A call adds at most one task, and its id is new. -/
theorem Effect.tasks {op : Op} {w w' : World} (h : Effect op w w') : w'.tasks = w.tasks ∨
    ∃ req id, op = .createTask req ∧ (∀ t ∈ w.tasks, t.id ≠ id) ∧
      w'.tasks = w.tasks ++ [⟨id, req, .running⟩] := by
  cases h with
  | created _ hid => exact Or.inr ⟨_, _, rfl, hid, rfl⟩
  | _ => exact Or.inl rfl

/-- A call leaves at most one answer. -/
theorem Effect.log {op : Op} {w w' : World} (h : Effect op w w') : w'.log = w.log ∨
    ∃ a, w'.log = w.log ++ [a] ∧ (Notes op w a ∨ a = .createFailed) := by
  cases h with
  | noted ha => exact Or.inr ⟨_, rfl, Or.inl ha⟩
  | createRefused => exact Or.inr ⟨_, rfl, Or.inr rfl⟩
  | _ => exact Or.inl rfl

/-- A report on a task stays true of it once the task has ended. -/
def ReadOk (w : World) (r : TerminalRead) : Prop :=
  ∃ t ∈ w.tasks, t.id = r.taskId ∧ (r.status.isTerminal = true → t.status = r.status)

theorem ReadOk.mono {w w' : World} {r : TerminalRead} (h : ReadOk w r) (hm : Mono w w') :
    ReadOk w' r := by
  obtain ⟨t, ht, hid, hst⟩ := h
  obtain ⟨t', ht', hid', -, hst'⟩ := hm.tasks t ht
  refine ⟨t', ht', hid'.trans hid, fun hr => ?_⟩
  have heq := hst hr
  rw [hst' (heq ▸ hr), heq]

/-- The task of an execution is one the service holds under its key, ended if the execution is
    completed. -/
def BoundRow (cfg : Config) (w : World) (r : StepRow) : Prop :=
  ∀ id, r.taskId = some id → ∃ t ∈ w.tasks, t.id = id ∧
    t.request.idempotencyKey = cfg.sec r.key ∧ (r.status = .completed → t.status.isTerminal = true)

theorem BoundRow.mono {cfg : Config} {w w' : World} {r : StepRow} (h : BoundRow cfg w r)
    (hm : Mono w w') : BoundRow cfg w' r := by
  intro id hid
  obtain ⟨t, ht, htid, hkey, hdone⟩ := h id hid
  obtain ⟨t', ht', htid', hreq, hst⟩ := hm.tasks t ht
  refine ⟨t', ht', htid'.trans htid, by rw [hreq]; exact hkey, fun hc => ?_⟩
  rw [hst (hdone hc)]
  exact hdone hc

theorem BoundRow.fresh (cfg : Config) (w : World) (k : StepKey) : BoundRow cfg w (.fresh k) := nofun

/-- The executions that are not current are completed, and every bound task is held. -/
structure RowInv (cfg : Config) (w : World) (O : Owned) : Prop where
  past : ∀ r ∈ O.steps, r.key ≠ O.cur cfg → r.status = .completed
  bound : ∀ r ∈ O.steps, BoundRow cfg w r

structure TaskInv (cfg : Config) (w : World) : Prop where
  ids : (w.tasks.map AgentTask.id).Nodup
  reads : ∀ r, .read r ∈ w.log → ReadOk w r
  rows : RowInv cfg w (owned w.db)

/-- Tasks of distinct ids are found by their ids. -/
theorem task_unique {w : World} (hids : (w.tasks.map AgentTask.id).Nodup) {t t' : AgentTask}
    (ht : t ∈ w.tasks) (ht' : t' ∈ w.tasks) (hid : t.id = t'.id) : t = t' :=
  List.inj_on_of_nodup_map hids ht ht' hid

section

variable {cfg : Config} {w w' : World} {k : StepKey}

/-- The task of an execution whose result was read has completed. -/
theorem TaskInv.completed_task (h : TaskInv cfg w) {t : String} {r : TerminalRead}
    (hr : ResultRead w t r) (hb : AtBound cfg w k t) : ∃ task ∈ w.tasks, task.id = t ∧
      task.request.idempotencyKey = cfg.sec k ∧ task.status = .completed := by
  obtain ⟨r₀, hread, hid, hst⟩ := hr.completed
  obtain ⟨t₁, ht₁, hid₁, hst₁⟩ := h.reads r₀ hread
  obtain ⟨row, hat, -, htask⟩ := hb
  obtain ⟨hmem, hkey⟩ := Owned.step?_mem hat.row
  obtain ⟨t₂, ht₂, hid₂, hkey₂, -⟩ := h.rows.bound row hmem t htask
  have heq : t₁ = t₂ := task_unique h.ids ht₁ ht₂ (hid₁.trans (hid.trans hid₂.symm))
  rw [hkey] at hkey₂
  refine ⟨t₂, ht₂, hid₂, hkey₂, ?_⟩
  rw [← heq, hst₁ (by rw [hst]; rfl), hst]

/-- The current execution after an edge is taken. -/
theorem advance_cur (O : Owned) (d : RoutingDecision) (hcur : O.cur cfg = k) :
    (O.advance (nextKey k d) (roundEvent k d).isSome).cur cfg = nextKey k d := by
  have hround : O.currentRound = k.round := congrArg StepKey.round hcur
  show StepKey.mk d.target _ = StepKey.mk d.target _
  congr 1
  show (if (roundEvent k d).isSome then _ else O.currentRound) = _
  unfold roundEvent
  by_cases hl : d.edgeKind = .loop
  · simp [hl, nextKey]
  · simp [hl, hround]

theorem start_cur (O : Owned) (hcur : O.cur cfg = k) : (O.start k).cur cfg = k := by
  rw [← hcur]
  rfl

theorem owned_keys (db : Db) : (owned db).steps.map StepRow.key = db.steps.map StepRow.key := by
  show (db.steps.map maskRow).map StepRow.key = _
  rw [List.map_map]
  rfl

/-- The row of one execution changes. -/
theorem RowInv.setStep {O O' : Owned} {f : StepRow → StepRow} {row : StepRow} (h : RowInv cfg w O)
    (hkeys : (O.steps.map StepRow.key).Nodup) (hrow : O.step? k = some row)
    (hsteps : O'.steps = (O.setStep k f).steps) (hcur : O'.cur cfg = O.cur cfg)
    (hkey : ∀ r, (f r).key = r.key) (hst : row.status = .completed → (f row).status = .completed)
    (hnew : BoundRow cfg w (f row)) : RowInv cfg w O' := by
  obtain ⟨hmem, hk⟩ := Owned.step?_mem hrow
  have huniq : ∀ r ∈ O.steps, r.key = k → r = row :=
    fun r hr hrk => List.inj_on_of_nodup_map hkeys hr hmem (hrk.trans hk.symm)
  constructor
  · rw [hsteps, hcur]
    intro r hr hne
    obtain ⟨r₀, hr₀, rfl⟩ := Owned.mem_setStep.mp hr
    by_cases hrk : r₀.key = k
    · rw [if_pos hrk] at hne ⊢
      rw [huniq r₀ hr₀ hrk] at hne ⊢
      exact hst (h.past row hmem (hkey row ▸ hne))
    · rw [if_neg hrk] at hne ⊢
      exact h.past r₀ hr₀ hne
  · rw [hsteps]
    intro r hr
    obtain ⟨r₀, hr₀, rfl⟩ := Owned.mem_setStep.mp hr
    by_cases hrk : r₀.key = k
    · rw [if_pos hrk, huniq r₀ hr₀ hrk]
      exact hnew
    · rw [if_neg hrk]
      exact h.bound r₀ hr₀

/-- A new row becomes the current one. -/
theorem RowInv.concat {O O' : Owned} (h : RowInv cfg w O)
    (hsteps : O'.steps = O.steps ++ [StepRow.fresh k]) (hcur : O'.cur cfg = k)
    (hpast : ∀ r ∈ O.steps, r.key ≠ k → r.status = .completed) : RowInv cfg w O' := by
  constructor
  · rw [hsteps, hcur]
    intro r hr hne
    rcases mem_snoc.mp hr with hr | rfl
    · exact hpast r hr hne
    · exact absurd rfl hne
  · rw [hsteps]
    intro r hr
    rcases mem_snoc.mp hr with hr | rfl
    · exact h.bound r hr
    · exact BoundRow.fresh cfg w k

/-- **A write of the pump's own data** keeps the invariant of the rows. -/
theorem RowInv.step {op : Op} {O' : Owned} (h : TaskInv cfg w) (hi : CoreInv cfg w)
    (hj : Justified cfg op w) (hs : OwnedStep op (owned w.db) O') : RowInv cfg w O' := by
  have hkeys : ((owned w.db).steps.map StepRow.key).Nodup := by
    rw [owned_keys]
    exact hi.keys
  generalize hO : owned w.db = O at hs
  subst hO
  cases hs with
  | same => exact h.rows
  | @started k ev _ hnone =>
    exact h.rows.concat rfl (start_cur _ hj.1)
      (fun r hr hne => h.rows.past r hr (by rw [hj.1]; exact hne))
  | @bound k taskId ev _ row hrow hfree =>
    obtain ⟨⟨row', hat, hlive, -⟩, -, ⟨t, ht, htid, hkey⟩, -⟩ := hj
    obtain rfl : row' = row := Option.some.inj (hat.row.symm.trans hrow)
    refine h.rows.setStep (f := fun r => { r with taskId := some taskId }) hkeys hrow rfl rfl
      (fun _ => rfl) id ?_
    intro id hid
    cases hid
    refine ⟨t, ht, htid, ?_, fun hc => absurd hc hlive⟩
    rw [hkey, ← (Owned.step?_mem hrow).2]
  | @completed k output context ev _ row hrow hlive =>
    obtain ⟨t, r, hb, hr, -⟩ := hj
    refine h.rows.setStep (f := fun r => { r with status := .completed, output := some output })
      hkeys hrow rfl rfl (fun _ => rfl) (fun _ => rfl) ?_
    intro id hid
    obtain ⟨task, htask, htid, hkey, hdone⟩ := h.completed_task hr hb
    obtain ⟨row', hat, -, hbound⟩ := hb
    obtain rfl : row' = row := Option.some.inj (hat.row.symm.trans hrow)
    obtain rfl : t = id := Option.some.inj (hbound.symm.trans hid)
    refine ⟨task, htask, htid, ?_, fun _ => by rw [hdone]; rfl⟩
    rw [hkey, ← (Owned.step?_mem hrow).2]
  | @advanced edgeEv roundEv next startedEv _ hnone =>
    obtain ⟨k, output, d, hrt, -, -, -, rfl, rfl, -⟩ := hj
    obtain ⟨row, hat, hdone, -⟩ := hrt.left
    refine h.rows.concat rfl (advance_cur _ d hat.cur) ?_
    intro r hr _
    by_cases hk : r.key = k
    · -- the execution that was left is completed
      obtain ⟨hmem, hrk⟩ := Owned.step?_mem hat.row
      rw [List.inj_on_of_nodup_map hkeys hr hmem (hk.trans hrk.symm)]
      exact hdone
    · exact h.rows.past r hr (by rw [hat.cur]; exact hk)
  | stalled _ => exact ⟨h.rows.past, h.rows.bound⟩

/-- A public call leaves owned data alone. -/
theorem ApiGuard.owned {op : Op} {O O' : Owned} (hg : ApiGuard cfg op w) (hs : OwnedStep op O O') :
    O' = O := by
  cases hs with
  | same => rfl
  | _ => exact absurd hg id

theorem RowInv.mono {O : Owned} (h : RowInv cfg w O) (hm : Mono w w') : RowInv cfg w' O :=
  ⟨h.past, fun r hr => (h.bound r hr).mono hm⟩

/-- **A guarded call** keeps the invariant of the tasks. -/
theorem TaskInv.call {op : Op} (h : TaskInv cfg w) (hi : CoreInv cfg w)
    (hg : Justified cfg op w ∨ ApiGuard cfg op w) (heff : Effect op w w') : TaskInv cfg w' where
  ids := by
    rcases heff.tasks with heq | ⟨req, id, -, hnew, heq⟩
    · rw [heq]
      exact h.ids
    · rw [heq]
      exact nodup_snoc h.ids hnew
  reads := by
    intro r hr
    rcases heff.log with heq | ⟨a, heq, ha⟩
    · rw [heq] at hr
      exact (h.reads r hr).mono heff.mono
    · rw [heq] at hr
      rcases mem_snoc.mp hr with hr | rfl
      · exact (h.reads r hr).mono heff.mono
      · rcases ha with ha | ha
        · cases ha with
          | @read _ _ _ _ t _ ht hid hst =>
            have hok : ReadOk w r :=
              ⟨t, List.mem_of_find?_eq_some ht, by simpa [hid] using List.find?_some ht,
                fun _ => hst.symm⟩
            exact hok.mono heff.mono
        · exact nomatch ha
  rows := by
    have hs := heff.owned hi.keys
    rcases hg with hj | hg
    · exact (RowInv.step h hi hj hs).mono heff.mono
    · rw [ApiGuard.owned hg hs]
      exact h.rows.mono heff.mono

/-- Only the tasks change. -/
theorem TaskInv.env (h : TaskInv cfg w) (hm : Mono w w') (hlog : w'.log = w.log)
    (hdb : w'.db = w.db) (hids : (w'.tasks.map AgentTask.id).Nodup) : TaskInv cfg w' where
  ids := hids
  reads := fun r hread => (h.reads r (hlog ▸ hread)).mono hm
  rows := by
    rw [hdb]
    exact h.rows.mono hm

theorem finish_ids (w : World) (taskId : String) (status : TaskStatus) :
    (w.finish taskId status).tasks.map AgentTask.id = w.tasks.map AgentTask.id := by
  show (w.tasks.map _).map AgentTask.id = _
  rw [List.map_map]
  refine List.map_congr_left (fun t _ => ?_)
  show (if t.id = taskId ∧ t.status = .running then { t with status := status } else t).id = t.id
  split <;> rfl

end

/-! ## Moves of the environment -/

/-- What an action that is no call does to the tasks. -/
inductive TasksMove (w : World) : Action → List AgentTask → Prop where
  | same {a : Action} : TasksMove w a w.tasks
  | arrived {req : AgentTaskCreateRequest} {id : String} (hreq : req ∈ w.inFlight)
      (hid : ∀ t ∈ w.tasks, t.id ≠ id) (hnew : ∀ t ∈ w.tasks, t.request ≠ req) :
      TasksMove w (.deliver req id) (w.tasks ++ [⟨id, req, .running⟩])
  | finished {id : String} {status : TaskStatus} (hs : status ≠ .running) :
      TasksMove w (.finish id status) (w.finish id status).tasks

/-- An action that is no call leaves the rows, the answers and the cancel calls alone. -/
structure EnvMove (cfg : Config) (s : Sys) (a : Action) (w' : World) : Prop where
  db : w'.db = s.w.db
  log : w'.log = s.w.log
  accepted : w'.cancelAccepted = s.w.cancelAccepted
  failed : w'.cancelFailed = s.w.cancelFailed
  mono : Mono s.w w'
  tasks : TasksMove s.w a w'.tasks
  inFlight : ∀ req ∈ w'.inFlight, req ∈ s.w.inFlight ∨ Justified cfg (.createTask req) s.w

/-- A guarded call taking effect. -/
def CallMove (cfg : Config) (s : Sys) (a : Action) (w' : World) : Prop :=
  ∃ who inp op r, a = .exec who inp ∧ s.nextOp who = some op ∧
    (Justified cfg op s.w ∨ ApiGuard cfg op s.w) ∧ exec op s.w inp = some (r, w')

theorem EnvMove.of_mono {cfg : Config} {s : Sys} {a : Action} {w' : World} (hm : Mono s.w w')
    (hdb : w'.db = s.w.db) (hlog : w'.log = s.w.log) (hacc : w'.cancelAccepted = s.w.cancelAccepted)
    (hfail : w'.cancelFailed = s.w.cancelFailed) (htasks : w'.tasks = s.w.tasks)
    (hin : w'.inFlight = s.w.inFlight) : EnvMove cfg s a w' :=
  ⟨hdb, hlog, hacc, hfail, hm, htasks ▸ .same, fun _ hreq => Or.inl (hin ▸ hreq)⟩

theorem EnvMove.refl {cfg : Config} {s : Sys} {a : Action} : EnvMove cfg s a s.w :=
  .of_mono (Mono.refl _) rfl rfl rfl rfl rfl rfl

/-- **A move is a guarded call or a move of the environment.** -/
theorem Move.call_or_env {cfg : Config} {s : Sys} {a : Action} {w' : World} (hm : Move cfg s a w') :
    CallMove cfg s a w' ∨ EnvMove cfg s a w' := by
  cases hm with
  | pump hop hj hex => exact Or.inl ⟨_, _, _, _, rfl, hop, Or.inl hj, hex⟩
  | call hop hg hex => exact Or.inl ⟨_, _, _, _, rfl, hop, Or.inr hg, hex⟩
  | @wake who op r hw =>
    have hr := (noteWake_rely op r s.w).toMono
    rcases noteWake_db op r s.w with h | h <;> rw [h] at hr ⊢
    · exact Or.inr .refl
    · exact Or.inr (.of_mono hr rfl rfl rfl rfl rfl rfl)
  | unfold => exact Or.inr .refl
  | settle hp hpost =>
    exact Or.inr (.of_mono (.of_db rfl id (List.Subset.refl _) (List.Subset.refl _)
      (List.Subset.refl _) (sameTasks _) (Nat.le_refl _)) rfl rfl rfl rfl rfl rfl)
  | leave => exact Or.inr .refl
  | invoke =>
    split
    · exact Or.inr (.of_mono (called_rely _).toMono rfl rfl rfl rfl rfl rfl)
    · exact Or.inr .refl
  | deliver hreq hd =>
    have hr := (deliver_rely hd).toMono
    rcases World.deliver_cases hd with ⟨rfl, -⟩ | ⟨rfl, -, hnew, hid⟩
    · exact Or.inr .refl
    · exact Or.inr ⟨rfl, rfl, rfl, rfl, hr, .arrived hreq hid hnew, fun _ h => Or.inl h⟩
  | finish hs =>
    exact Or.inr ⟨rfl, rfl, rfl, rfl, (finish_rely _ _ _).toMono, .finished hs, fun _ h => Or.inl h⟩
  | tick => exact Or.inr (.of_mono (tick_rely _ _ _).toMono rfl rfl rfl rfl rfl rfl)
  | shutdown => exact Or.inr (.of_mono (shutdown_rely _).toMono rfl rfl rfl rfl rfl rfl)
  | crash hp =>
    refine Or.inr ⟨rfl, rfl, rfl, rfl, .of_db rfl id (List.Subset.refl _) (List.Subset.refl _)
      (List.Subset.refl _) (sameTasks _) (Nat.le_refl _), .same, ?_⟩
    intro req hreq
    exact (List.mem_append.mp hreq).imp id (hp req)

theorem TasksMove.ids {w : World} {a : Action} {tasks : List AgentTask} (h : TasksMove w a tasks)
    (hids : (w.tasks.map AgentTask.id).Nodup) : (tasks.map AgentTask.id).Nodup := by
  cases h with
  | same => exact hids
  | arrived _ hid _ => exact nodup_snoc hids hid
  | finished _ =>
    rw [finish_ids]
    exact hids

theorem taskInv_move {cfg : Config} {s : Sys} {a : Action} {w' : World} (hinv : SysInv cfg s)
    (hm : Move cfg s a w') (h : TaskInv cfg s.w) : TaskInv cfg w' := by
  rcases hm.call_or_env with ⟨_, _, op, r, -, hop, hg, hex⟩ | henv
  · exact h.call hinv.core hg (exec_effect hex)
  · exact h.env henv.mono henv.log henv.db (henv.tasks.ids h.ids)

/-- **In every run** the executions and the tasks agree. -/
theorem reach_tasks {cfg : Config} {ok : Sys → Action → Prop} {s : Sys} (h : Reach cfg ok s) :
    TaskInv cfg s.w := by
  have hrows : RowInv cfg (initial cfg).w (owned (initial cfg).w.db) :=
    ⟨fun _ hr => absurd hr List.not_mem_nil, fun _ hr => absurd hr List.not_mem_nil⟩
  have hstart : TaskInv cfg (initial cfg).w :=
    ⟨List.nodup_nil, fun _ hr => absurd hr List.not_mem_nil, hrows⟩
  exact reach_world hstart (fun _ _ _ hinv _ hm hP => taskInv_move hinv hm hP) h

end VibeRuntime
