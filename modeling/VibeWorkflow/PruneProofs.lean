import VibeWorkflow.NodeLeaseProofs
import VibeWorkflow.StoreSequenceProofs
import VibeWorkflow.TaskStoreProofs

/-!
# Retention of terminal tasks and workflows

Two statements drop old rows: `pruneTerminalTasks` and `pruneTerminalWorkflows`.  Each looks only at
the row it drops, at its status and at its `terminal_at`, and the foreign keys of the schema carry the
deletion on: the steps of a deleted task lose their `task_id`, and the steps, the events, the human
requests and the lease projections of a deleted workflow go with it.

* `Respected` — what an operation owes the running workflows: the task a step of theirs is bound to,
  the output of a step that ended, and every lease projection that is not released;
* `Spares` — that no dropped task is bound to a step of a running workflow, and that no dropped
  workflow holds a lease projection that is not released;
* **`retention_spares_running`** — over every sequence of store operations these two agree, and where
  they hold the driver never creates a task for a step that had one.
-/

namespace VibePrune

open Transaction CallRuns VibeStore VibeTables
open VibeNode (LeaseStatus)
open VibeJson (Json)
open VibeTask (TaskStore StoreCall)

/-! ## The database -/

/-- A row of `tasks` with what hangs on it. -/
structure TaskEntry where
  taskId : String
  store : TaskStore
deriving DecidableEq

/-- A row of `workflow_workspace_leases`; a revision is the text `encodeRevision` returned. -/
structure LeaseRec where
  leaseId : String
  workflowId : String
  nodeId : String
  workspaceKey : String
  status : LeaseStatus
  revision : Nat
  baseRevision : Option String
  currentRevision : Option String
  acquireReason : Option String
deriving DecidableEq

/-- `terminalAt` is the column of that name of `workflows`. -/
structure Database where
  tasks : List TaskEntry
  workflows : List WorkflowRec
  terminalAt : String → Option String
  steps : List StepRec
  events : List EventRec
  human : List HumanRec
  leases : List LeaseRec

namespace Database

def empty : Database := ⟨[], [], fun _ => none, [], [], [], []⟩

/-- What the operations on workflows see. -/
def tables (db : Database) : Tables := ⟨db.tasks.map (·.taskId), db.workflows, db.steps, db.events, db.human⟩

def withTables (db : Database) (t : Tables) : Database :=
  { db with workflows := t.workflows, steps := t.steps, events := t.events, human := t.human }

def workflowRow (db : Database) (id : String) : Option WorkflowRec := lookup WorkflowRec.workflowId db.workflows id

def stepRow (db : Database) (id : String) : Option StepRec := lookup StepRec.stepExecutionId db.steps id

def taskRow (db : Database) (id : String) : Option TaskEntry := lookup TaskEntry.taskId db.tasks id

def leaseRow (db : Database) (id : String) : Option LeaseRec := lookup LeaseRec.leaseId db.leases id

def setStep (db : Database) (id : String) (f : StepRec → StepRec) : Database :=
  { db with steps := update StepRec.stepExecutionId db.steps id f }

def setLease (db : Database) (id : String) (f : LeaseRec → LeaseRec) : Database :=
  { db with leases := update LeaseRec.leaseId db.leases id f }

end Database

abbrev Control (α : Type) := Tx Database Thrown α

def refuse {α : Type} (code : StoreCode) (message : String) : Control α := throwTx (.store ⟨code, message⟩)

/-! ## Operations on tasks -/

/-- The row `createTaskSync` inserts. -/
def newTask (taskId status : String) : TaskEntry :=
  ⟨taskId, ⟨⟨some ⟨status, false, none, none, -1, none⟩, []⟩, ⟨1, none, none, none, none, none, none⟩, none⟩⟩

def createTask (taskId status : String) : Control Unit := do
  match ← readTx (·.taskRow taskId) with
  | some _ => refuse .duplicate ("task already exists: " ++ taskId)
  | none => modifyTx fun db => { db with tasks := db.tasks ++ [newTask taskId status] }

/-- A call on the task's own rows, at a time; a task that is not there is looked for all the same. -/
def onTask (taskId now : String) (c : StoreCall) : Control Unit := fun db =>
  match db.taskRow taskId with
  | none => (.error (.store ⟨.notFound, "task not found: " ++ taskId⟩), db)
  | some entry =>
    let (result, store) := VibeTask.callStore taskId now entry.store c
    (result.mapError (fun fault => match fault with
        | .store e => .store e
        | .resultConflict message => .store ⟨.constraint, message⟩),
      { db with tasks := update TaskEntry.taskId db.tasks taskId fun t => { t with store := store } })

/-- `DELETE FROM tasks`, with `ON DELETE SET NULL` on `workflow_step_executions.task_id`. -/
def deleteTasks (gone : String → Bool) (db : Database) : Database :=
  { db with
    tasks := db.tasks.filter fun t => !gone t.taskId
    steps := db.steps.map fun s => if s.taskId.any gone then { s with taskId := none } else s }

/-- `status IN ('completed','failed','cancelled') AND terminal_at IS NOT NULL AND terminal_at < ?`. -/
def taskPrunable (olderThan : String) (db : Database) (taskId : String) : Bool :=
  (db.taskRow taskId).any fun t =>
    t.store.tables.task.any (fun row => VibeTask.taskTerminalStatuses.contains row.status) &&
      t.store.columns.terminalAt.any fun at' => decide (at' < olderThan)

def pruneTerminalTasks (olderThan : String) : Control Unit :=
  modifyTx fun db => deleteTasks (taskPrunable olderThan db) db

def deleteTask (taskId : String) : Control Unit := modifyTx (deleteTasks fun id => id = taskId)

/-! ## Operations on workflows -/

/-- The composites write `terminal_at` with the status that ends the workflow, and not otherwise. -/
def stamp (now : String) (before after : Tables) (terminalAt : String → Option String) : String → Option String :=
  fun id =>
    let ended (t : Tables) := (t.workflowRow id).any fun w => workflowTerminal w.status
    if ended after && !ended before then some now else terminalAt id

def composite (now : String) (c : Call) : Control Unit := fun db =>
  let (result, after) := call c db.tables
  (result, { db.withTables after with terminalAt := stamp now db.tables after db.terminalAt })

/-- An operation that writes workflows, steps and events in one transaction. -/
def onTables (body : Store Unit) : Control Unit := fun db =>
  let (result, after) := Transaction.transaction body db.tables
  (result, db.withTables after)

/-- `updateWorkflow` with a patch that may also set `terminal_at`. -/
def updateWorkflow (workflowId : String) (expectedRevision : Nat) (patch : WorkflowPatch) (terminalAt : Option String) :
    Control Unit := do
  onTables (updateWorkflowSync workflowId expectedRevision patch)
  modifyTx fun db => { db with
    terminalAt := fun id => if id = workflowId then terminalAt.or (db.terminalAt id) else db.terminalAt id }

def unbound (s : StepRec) : StepRec := { s with taskId := none, revision := s.revision + 1 }

/-- `updateStepExecution` with `task_id: null`, the one patch that clears a binding. -/
def unbindStep (id : String) (expectedRevision : Nat) : Control Unit := do
  match ← readTx (·.stepRow id) with
  | none => refuse .notFound ("step execution not found: " ++ id)
  | some cur =>
    if cur.revision ≠ expectedRevision then
      refuse .revisionConflict ("step revision conflict (have " ++ toString cur.revision ++ ", expected " ++
        toString expectedRevision ++ ")")
    else modifyTx (·.setStep id unbound)

def startWorkflowStep (step : CreateStepInput) (wfExpectedRevision : Nat) (wfPatch : WorkflowPatch) (sequence : Int)
    (event : EventDraft) : Store Unit := do
  createStepSync step
  updateWorkflowSync step.workflowId wfExpectedRevision wfPatch
  appendWorkflowEventSync step.workflowId sequence event

def bindStepTask (stepId : String) (stepExpectedRevision : Nat) (taskId workflowId : String) (wfExpectedRevision : Nat)
    (sequence : Int) (event : EventDraft) : Store Unit := do
  updateStepSync stepId stepExpectedRevision { taskId := some taskId }
  match ← readTx (·.workflowRow workflowId) with
  | none => fault .notFound ("workflow not found: " ++ workflowId)
  | some wf =>
    updateWorkflowSync workflowId wfExpectedRevision { totalTasks := some (wf.totalTasks + 1) }
    appendWorkflowEventSync workflowId sequence event

def checkpointWorkflow (workflowId : String) (wfExpectedRevision : Nat) (patch : WorkflowPatch)
    (ctxExpectedRevision : Option Nat) (context : Option Json) (sequence : Int) (event : EventDraft) : Store Unit := do
  updateWorkflowSync workflowId wfExpectedRevision patch
  saveContextOptional workflowId ctxExpectedRevision context
  appendWorkflowEventSync workflowId sequence event

/-- `DELETE FROM workflows`, with `ON DELETE CASCADE` on what refers to it. -/
def deleteWorkflows (gone : String → Bool) (db : Database) : Database :=
  { db with
    workflows := db.workflows.filter fun w => !gone w.workflowId
    terminalAt := fun id => if gone id then none else db.terminalAt id
    steps := db.steps.filter fun s => !gone s.workflowId
    events := db.events.filter fun e => !gone e.workflowId
    human := db.human.filter fun h => !gone h.workflowId &&
      !(db.stepRow h.stepExecutionId).any fun s => gone s.workflowId
    leases := db.leases.filter fun l => !gone l.workflowId }

/-- The same three conditions, on a workflow's row. -/
def workflowPrunable (olderThan : String) (db : Database) (workflowId : String) : Bool :=
  (db.workflowRow workflowId).any fun w =>
    workflowTerminal w.status && (db.terminalAt workflowId).any fun at' => decide (at' < olderThan)

def pruneTerminalWorkflows (olderThan : String) : Control Unit :=
  modifyTx fun db => deleteWorkflows (workflowPrunable olderThan db) db

/-! ## Operations on lease projections -/

/-- `idx_wf_ws_lease_active`: one lease in force for each workflow, Node and workspace. -/
def leaseClash (db : Database) (row : LeaseRec) : Bool :=
  db.leases.any fun l => l.leaseId != row.leaseId && l.status.inForce && l.workflowId == row.workflowId &&
    l.nodeId == row.nodeId && l.workspaceKey == row.workspaceKey

def recordWorkspaceLeaseIntent (leaseId workflowId nodeId workspaceKey : String) : Control Unit := do
  if !isSafeId leaseId then refuse .invalidRecord "workspace_lease_id is not a safe identifier"
  else do
    let db ← readTx id
    match db.leaseRow leaseId with
    | some _ => pure ()
    | none =>
      if (db.workflowRow workflowId).isNone then refuse .notFound ("workflow not found: " ++ workflowId)
      else do
        let node ← liftTx ((boundString nodeId 256 "lease.node_id").mapError .store)
        let workspace ← liftTx ((boundString workspaceKey 256 "lease.workspace_key").mapError .store)
        let row : LeaseRec := ⟨leaseId, workflowId, node, workspace, .acquiring, 1, none, none, none⟩
        if leaseClash db row then refuse .constraint "UNIQUE constraint failed"
        else modifyTx fun db => { db with leases := db.leases ++ [row] }

/-- An update of a lease's row, which must be there and keep to the unique index. -/
def updateLease (leaseId : String) (f : LeaseRec → LeaseRec) : Control Unit := do
  let db ← readTx id
  match db.leaseRow leaseId with
  | none => refuse .notFound ("lease not found: " ++ leaseId)
  | some row =>
    if (f row).status.inForce ∧ leaseClash db (f row) then refuse .constraint "UNIQUE constraint failed"
    else modifyTx (·.setLease leaseId f)

/-- What each of the updates makes of the row; a released row is left alone by the last two. -/
def activated (base : Option String) (current : Option String) (l : LeaseRec) : LeaseRec :=
  { l with
    status := .active
    baseRevision := if l.status = .released ∨ l.status = .releaseRequested then base else l.baseRevision.or base
    currentRevision := current.or base
    acquireReason := none
    revision := l.revision + 1 }

def markWorkspaceLeaseActive (leaseId : String) (base current : Option String) : Control Unit :=
  updateLease leaseId (activated base current)

def setWorkspaceLeaseAcquireReason (leaseId : String) (reason : Option String) : Control Unit := do
  match ← readTx (·.leaseRow leaseId) with
  | none => refuse .notFound ("lease not found: " ++ leaseId)
  | some _ =>
    let reason ← liftTx ((match reason with
      | none => .ok none
      | some r => (boundString r 256 "lease.acquire_reason").map some : Except StoreError (Option String)).mapError .store)
    updateLease leaseId fun l => { l with acquireReason := reason, revision := l.revision + 1 }

def setWorkspaceLeaseRevision (leaseId : String) (current : Option String) : Control Unit :=
  updateLease leaseId fun l => { l with currentRevision := current, revision := l.revision + 1 }

def requestWorkspaceLeaseRelease (leaseId : String) : Control Unit :=
  updateLease leaseId fun l =>
    if l.status = .released then l else { l with status := .releaseRequested, revision := l.revision + 1 }

def markWorkspaceLeaseReleased (leaseId : String) : Control Unit :=
  updateLease leaseId fun l =>
    if l.status = .released then l else { l with status := .released, revision := l.revision + 1 }

/-! ## Runs -/

inductive Operation where
  | createTask (taskId status : String)
  | onTask (taskId now : String) (c : StoreCall)
  | deleteTask (taskId : String)
  | pruneTerminalTasks (olderThan : String)
  | composite (now : String) (c : Call)
  | createWorkflow (input : CreateWorkflowInput) (status : Option String)
  | updateWorkflow (workflowId : String) (expectedRevision : Nat) (patch : WorkflowPatch) (terminalAt : Option String)
  | createStepExecution (input : CreateStepInput)
  | updateStepExecution (id : String) (expectedRevision : Nat) (patch : StepPatch)
  | unbindStep (id : String) (expectedRevision : Nat)
  | appendWorkflowEvent (workflowId : String) (sequence : Int) (event : EventDraft)
  | saveWorkflowContext (workflowId : String) (expectedContextRevision : Nat) (context : Json)
  | startWorkflowStep (step : CreateStepInput) (wfExpectedRevision : Nat) (wfPatch : WorkflowPatch) (sequence : Int)
      (event : EventDraft)
  | bindStepTask (stepId : String) (stepExpectedRevision : Nat) (taskId workflowId : String)
      (wfExpectedRevision : Nat) (sequence : Int) (event : EventDraft)
  | checkpointWorkflow (workflowId : String) (wfExpectedRevision : Nat) (patch : WorkflowPatch)
      (ctxExpectedRevision : Option Nat) (context : Option Json) (sequence : Int) (event : EventDraft)
  | pruneTerminalWorkflows (olderThan : String)
  | recordWorkspaceLeaseIntent (leaseId workflowId nodeId workspaceKey : String)
  | markWorkspaceLeaseActive (leaseId : String) (base current : Option String)
  | setWorkspaceLeaseAcquireReason (leaseId : String) (reason : Option String)
  | setWorkspaceLeaseRevision (leaseId : String) (current : Option String)
  | requestWorkspaceLeaseRelease (leaseId : String)
  | markWorkspaceLeaseReleased (leaseId : String)

def perform : Operation → Control Unit
  | .createTask taskId status => VibePrune.createTask taskId status
  | .onTask taskId now c => VibePrune.onTask taskId now c
  | .deleteTask taskId => VibePrune.deleteTask taskId
  | .pruneTerminalTasks olderThan => VibePrune.pruneTerminalTasks olderThan
  | .composite now c => VibePrune.composite now c
  | .createWorkflow input status =>
    onTables (createWorkflowSync input (status.getD "draft") (input.currentRound.getD 1))
  | .updateWorkflow id revision patch terminalAt => VibePrune.updateWorkflow id revision patch terminalAt
  | .createStepExecution input => onTables (createStepSync input)
  | .updateStepExecution id revision patch => onTables (updateStepSync id revision patch)
  | .unbindStep id revision => VibePrune.unbindStep id revision
  | .appendWorkflowEvent id sequence event => onTables (appendWorkflowEventSync id sequence event)
  | .saveWorkflowContext id revision context => onTables (saveContextSync id revision context)
  | .startWorkflowStep step revision patch sequence event =>
    onTables (VibePrune.startWorkflowStep step revision patch sequence event)
  | .bindStepTask stepId stepRevision taskId id revision sequence event =>
    onTables (VibePrune.bindStepTask stepId stepRevision taskId id revision sequence event)
  | .checkpointWorkflow id revision patch ctxRevision context sequence event =>
    onTables (VibePrune.checkpointWorkflow id revision patch ctxRevision context sequence event)
  | .pruneTerminalWorkflows olderThan => VibePrune.pruneTerminalWorkflows olderThan
  | .recordWorkspaceLeaseIntent leaseId workflowId nodeId workspaceKey =>
    VibePrune.recordWorkspaceLeaseIntent leaseId workflowId nodeId workspaceKey
  | .markWorkspaceLeaseActive leaseId base current => VibePrune.markWorkspaceLeaseActive leaseId base current
  | .setWorkspaceLeaseAcquireReason leaseId reason => VibePrune.setWorkspaceLeaseAcquireReason leaseId reason
  | .setWorkspaceLeaseRevision leaseId current => VibePrune.setWorkspaceLeaseRevision leaseId current
  | .requestWorkspaceLeaseRelease leaseId => VibePrune.requestWorkspaceLeaseRelease leaseId
  | .markWorkspaceLeaseReleased leaseId => VibePrune.markWorkspaceLeaseReleased leaseId

/-- The database after an operation, whether it throws or not. -/
def apply (db : Database) (op : Operation) : Database := (perform op db).2

/-! ## What the driver does with what it finds -/

/-- The turns of `driveWorkflow`, up to the call it makes next. -/
inductive Turn where
  | settled                             -- it returns
  | performCancellation
  | failLimit (limit : String)
  | startStep (stepId : String) (round : Int)
  | routeAndAdvance (step : StepRec)
  | createAndBindTask (step : StepRec)
  | awaitTask (step : StepRec) (taskId : String)
deriving DecidableEq

/-- The head of the loop of `driveWorkflow`; of the spec it reads the entry step and `max_tasks`. -/
def driveWorkflow (entryStep : String) (maxTasks : Nat) (deadlineExceeded : Bool) (db : Database)
    (workflowId : String) :
    Turn :=
  match db.workflowRow workflowId with
  | none => .settled
  | some wf =>
    if workflowTerminal wf.status ∨ wf.status = "blocked" ∨ wf.status ≠ "running" then .settled
    else if wf.cancelRequested then .performCancellation
    else if deadlineExceeded then .failLimit "max_runtime_seconds"
    else
      let stepId := wf.currentStepId.getD entryStep
      match db.tables.stepExecByKey workflowId stepId wf.currentRound 1 with
      | none => .startStep stepId wf.currentRound
      | some step =>
        if step.status = "completed" then .routeAndAdvance step
        else if stepTerminal step.status then .settled
        else match step.taskId with
        | none => if wf.totalTasks ≥ maxTasks then .failLimit "max_tasks" else .createAndBindTask step
        | some taskId => .awaitTask step taskId

/-- A task is created for a step without one only. -/
theorem driveWorkflow_creates {entryStep : String} {maxTasks : Nat} {late : Bool} {db : Database} {workflowId : String}
    {step : StepRec} (h : driveWorkflow entryStep maxTasks late db workflowId = .createAndBindTask step) :
    step.taskId = none := by
  simp only [driveWorkflow] at h
  cases hwf : db.workflowRow workflowId with
  | none => simp only [hwf, reduceCtorEq] at h
  | some wf =>
    simp only [hwf] at h
    cases hstep : db.tables.stepExecByKey workflowId (wf.currentStepId.getD entryStep) wf.currentRound 1 with
    | none =>
      simp only [hstep] at h
      split_ifs at h
    | some found =>
      simp only [hstep] at h
      cases htask : found.taskId with
      | none =>
        simp only [htask] at h
        split_ifs at h
        injection h with h
        exact h ▸ htask
      | some taskId =>
        simp only [htask] at h
        split_ifs at h

/-! ## What retention owes -/

/-- A step whose workflow is there and has not ended. -/
def Active (db : Database) (s : StepRec) : Prop :=
  ∃ w, db.workflowRow s.workflowId = some w ∧ workflowTerminal w.status = false

def Operation.retention : Operation → Bool
  | .pruneTerminalTasks _ | .pruneTerminalWorkflows _ => true
  | _ => false

/-- The steps of workflows that have not ended keep their task and the output of an ended step, and
    a lease projection that is not released is still there; retention changes neither at all. -/
structure Respected (db : Database) (op : Operation) : Prop where
  steps : ∀ id s, db.stepRow id = some s → Active db s →
    ∃ s', (apply db op).stepRow id = some s' ∧ StepLe s s' ∧ (op.retention = true → s' = s)
  leases : ∀ id l, db.leaseRow id = some l → l.status ≠ .released →
    ∃ l', (apply db op).leaseRow id = some l' ∧ (op.retention = true → l' = l)

/-- No deleted task is bound to a step of a workflow that has not ended. -/
def TasksSpared (db : Database) (gone : String → Bool) : Prop :=
  ∀ id s, db.stepRow id = some s → Active db s → ∀ t, s.taskId = some t → gone t = false

def Spares (db : Database) : Operation → Prop
  | .pruneTerminalTasks olderThan => TasksSpared db (taskPrunable olderThan db)
  | .deleteTask taskId => TasksSpared db fun id => id = taskId
  | .pruneTerminalWorkflows olderThan =>
    ∀ id l, db.leaseRow id = some l → l.status ≠ .released → workflowPrunable olderThan db l.workflowId = false
  | .unbindStep id revision =>
    ∀ s, db.stepRow id = some s → Active db s → s.revision = revision → s.taskId = none
  | _ => True

/-! ## Operations that delete nothing -/

/-- Rows stay, and the steps keep their task and their final output. -/
structure Growing (db db' : Database) : Prop where
  steps : ∀ id s, db.stepRow id = some s → ∃ s', db'.stepRow id = some s' ∧ StepLe s s'
  leases : ∀ id l, db.leaseRow id = some l → ∃ l', db'.leaseRow id = some l'

theorem Growing.refl (db : Database) : Growing db db :=
  ⟨fun _ s hs => ⟨s, hs, .refl s⟩, fun _ l hl => ⟨l, hl⟩⟩

theorem Growing.trans (a b c : Database) (h : Growing a b) (h' : Growing b c) : Growing a c := by
  constructor
  · intro id s hs
    obtain ⟨s₁, hs₁, hle⟩ := h.steps id s hs
    obtain ⟨s₂, hs₂, hle'⟩ := h'.steps id s₁ hs₁
    exact ⟨s₂, hs₂, hle.trans hle'⟩
  · intro id l hl
    obtain ⟨l₁, hl₁⟩ := h.leases id l hl
    exact h'.leases id l₁ hl₁

/-- A change to other tables. -/
theorem Growing.frame {db db' : Database} (hsteps : db'.steps = db.steps) (hleases : db'.leases = db.leases) :
    Growing db db' := by
  constructor
  · intro id s hs
    refine ⟨s, ?_, .refl s⟩
    show lookup _ db'.steps id = some s
    rw [hsteps]
    exact hs
  · intro id l hl
    refine ⟨l, ?_⟩
    show lookup _ db'.leases id = some l
    rw [hleases]
    exact hl

theorem Growing.ofTables {db : Database} {after : Tables} {terminalAt : String → Option String}
    (h : Grows db.tables after) : Growing db { db.withTables after with terminalAt := terminalAt } :=
  ⟨h.step, fun _ l hl => ⟨l, hl⟩⟩

theorem Growing.setLease (db : Database) (leaseId : String) {f : LeaseRec → LeaseRec}
    (hkey : ∀ l, (f l).leaseId = l.leaseId) : Growing db (db.setLease leaseId f) := by
  refine ⟨fun _ s hs => ⟨s, hs, .refl s⟩, ?_⟩
  intro id l hl
  obtain ⟨l', hl', -⟩ := lookup_update_rel (P := fun _ _ => True) (k := leaseId) hkey (fun _ => trivial)
    (fun _ _ => trivial) id l hl
  exact ⟨l', hl'⟩

theorem growing_refuse {α : Type} (code : StoreCode) (message : String) :
    Leads Growing (refuse code message : Control α) := Leads.throwTx .refl _

theorem growing_onTables {body : Store Unit} (h : Keeps Moves body) : Leads Growing (onTables body) := by
  intro db
  exact .ofTables (Keeps.transaction Moves.refl h db.tables).grows

/-- An event with a given sequence is appended, or one that is there already is left. -/
theorem moves_appendSync (id : String) (sequence : Int) (ev : EventDraft) :
    Keeps Moves (appendWorkflowEventSync id sequence ev) := by
  intro db a db' h
  simp only [appendWorkflowEventSync, guard_ok, readTx_bind] at h
  cases hrow : db.workflowRow id with
  | none => simp only [hrow, fault_ok, and_false] at h
  | some cur =>
    simp only [hrow, guard_ok, bind_ok, lift_ok] at h
    obtain ⟨-, -, -, -, -, -, payloadJson, db₁, ⟨-, hdb⟩, h⟩ := h
    rw [hdb] at h
    split at h
    · cases hold : db.events.find? (fun e => e.workflowId = id ∧ e.sequence = sequence) with
      | none => simp only [hold, fault_ok] at h
      | some existing =>
        simp only [hold, guard_ok, pure_ok] at h
        obtain ⟨-, -, rfl⟩ := h
        exact .refl _
    · simp only [guard_ok, not_not, modifyTx_bind] at h
      obtain ⟨hseq, -, hpush⟩ := h
      rw [modify_ok.mp hpush]
      have hrow' : db.workflowRow
          (EventRec.workflowId ⟨id, sequence, ev.eventType, ev.ts, ev.stepExecutionId, payloadJson⟩) = some cur := hrow
      exact ⟨.pushEvent db _, .pushEvent hrow' hseq⟩

theorem moves_startStep (step : CreateStepInput) (revision : Nat) (patch : WorkflowPatch) (sequence : Int)
    (ev : EventDraft) : Keeps Moves (startWorkflowStep step revision patch sequence ev) :=
  moves_bind (moves_createStep _) fun _ => moves_bind (moves_updateWorkflow _ _ _) fun _ => moves_appendSync _ _ _

theorem moves_bindTask (stepId : String) (stepRevision : Nat) (taskId id : String) (revision : Nat) (sequence : Int)
    (ev : EventDraft) : Keeps Moves (bindStepTask stepId stepRevision taskId id revision sequence ev) := by
  refine moves_bind (moves_updateStep _ _ _) fun _ => moves_bind (moves_read _) fun row => ?_
  cases row with
  | none => exact moves_fault _ _
  | some wf => exact moves_bind (moves_updateWorkflow _ _ _) fun _ => moves_appendSync _ _ _

theorem moves_checkpoint (id : String) (revision : Nat) (patch : WorkflowPatch) (ctxRevision : Option Nat)
    (context : Option Json) (sequence : Int) (ev : EventDraft) :
    Keeps Moves (checkpointWorkflow id revision patch ctxRevision context sequence ev) :=
  moves_bind (moves_updateWorkflow _ _ _) fun _ => moves_bind (moves_saveContextOptional _ _ _) fun _ =>
    moves_appendSync _ _ _

theorem growing_createTask (taskId status : String) : Leads Growing (createTask taskId status) := by
  refine Leads.read_bind fun row => ?_
  cases row with
  | some _ => exact growing_refuse _ _
  | none => exact Leads.modifyTx fun db => .frame rfl rfl

theorem growing_onTask (taskId now : String) (c : StoreCall) : Leads Growing (onTask taskId now c) := by
  intro db
  unfold onTask
  cases db.taskRow taskId with
  | none => exact .refl db
  | some entry => exact .frame rfl rfl

theorem growing_updateWorkflow (id : String) (revision : Nat) (patch : WorkflowPatch) (terminalAt : Option String) :
    Leads Growing (updateWorkflow id revision patch terminalAt) :=
  Leads.bind Growing.trans (growing_onTables (moves_updateWorkflow _ _ _)) fun _ =>
    Leads.modifyTx fun _ => .frame rfl rfl

theorem growing_updateLease (leaseId : String) {f : LeaseRec → LeaseRec} (hkey : ∀ l, (f l).leaseId = l.leaseId) :
    Leads Growing (updateLease leaseId f) := by
  refine Leads.read_bind fun db => ?_
  cases db.leaseRow leaseId with
  | none => exact growing_refuse _ _
  | some row => exact Leads.ite (growing_refuse _ _) (Leads.modifyTx fun db => .setLease db leaseId hkey)

theorem growing_acquireReason (leaseId : String) (reason : Option String) :
    Leads Growing (setWorkspaceLeaseAcquireReason leaseId reason) := by
  refine Leads.read_bind fun row => ?_
  cases row with
  | none => exact growing_refuse _ _
  | some _ => exact Leads.lift_bind .refl fun _ => growing_updateLease leaseId fun _ => rfl

theorem growing_intent (leaseId workflowId nodeId workspaceKey : String) :
    Leads Growing (recordWorkspaceLeaseIntent leaseId workflowId nodeId workspaceKey) := by
  refine Leads.ite (growing_refuse _ _) (Leads.read_bind fun db => ?_)
  cases db.leaseRow leaseId with
  | some _ => exact Leads.pure .refl ()
  | none =>
    refine Leads.ite (growing_refuse _ _) (Leads.lift_bind .refl fun _ => Leads.lift_bind .refl fun _ =>
      Leads.ite (growing_refuse _ _) (Leads.modifyTx fun db => ?_))
    exact ⟨fun _ s hs => ⟨s, hs, .refl s⟩, fun _ l hl => ⟨l, lookup_concat_of_some _ hl⟩⟩

/-- The lease of a released row is left alone, that of any other is written. -/
theorem leaseId_unlessReleased (status : LeaseStatus) (l : LeaseRec) :
    (if l.status = .released then l else { l with status := status, revision := l.revision + 1 }).leaseId = l.leaseId := by
  split <;> rfl

/-- The operations that delete rows or clear a binding. -/
def Operation.removes : Operation → Bool
  | .deleteTask _ | .pruneTerminalTasks _ | .pruneTerminalWorkflows _ | .unbindStep _ _ => true
  | _ => false

/-- **Every other operation lets rows stay.** -/
theorem growing_perform {op : Operation} (h : op.removes = false) : Leads Growing (perform op) := by
  cases op with
  | createTask taskId status => exact growing_createTask taskId status
  | onTask taskId now c => exact growing_onTask taskId now c
  | deleteTask _ => exact nomatch h
  | pruneTerminalTasks _ => exact nomatch h
  | pruneTerminalWorkflows _ => exact nomatch h
  | unbindStep _ _ => exact nomatch h
  | composite now c => exact fun db => .ofTables (Keeps.transaction Moves.refl (body_keeps c) db.tables).grows
  | createWorkflow input status => exact growing_onTables (moves_createWorkflow _ _ _)
  | updateWorkflow id revision patch terminalAt => exact growing_updateWorkflow id revision patch terminalAt
  | createStepExecution input => exact growing_onTables (moves_createStep _)
  | updateStepExecution id revision patch => exact growing_onTables (moves_updateStep _ _ _)
  | appendWorkflowEvent id sequence event => exact growing_onTables (moves_appendSync _ _ _)
  | saveWorkflowContext id revision context => exact growing_onTables (moves_saveContext _ _ _)
  | startWorkflowStep step revision patch sequence event => exact growing_onTables (moves_startStep _ _ _ _ _)
  | bindStepTask stepId stepRevision taskId id revision sequence event =>
    exact growing_onTables (moves_bindTask _ _ _ _ _ _ _)
  | checkpointWorkflow id revision patch ctxRevision context sequence event =>
    exact growing_onTables (moves_checkpoint _ _ _ _ _ _ _)
  | recordWorkspaceLeaseIntent leaseId workflowId nodeId workspaceKey => exact growing_intent _ _ _ _
  | markWorkspaceLeaseActive leaseId base current => exact growing_updateLease leaseId fun _ => rfl
  | setWorkspaceLeaseAcquireReason leaseId reason => exact growing_acquireReason leaseId reason
  | setWorkspaceLeaseRevision leaseId current => exact growing_updateLease leaseId fun _ => rfl
  | requestWorkspaceLeaseRelease leaseId => exact growing_updateLease leaseId (leaseId_unlessReleased _)
  | markWorkspaceLeaseReleased leaseId => exact growing_updateLease leaseId (leaseId_unlessReleased _)

/-! ## Operations that delete -/

/-- A step after some tasks were deleted. -/
def StepRec.without (gone : String → Bool) (s : StepRec) : StepRec :=
  if s.taskId.any gone then { s with taskId := none } else s

theorem StepRec.without_key (gone : String → Bool) (s : StepRec) :
    (StepRec.without gone s).stepExecutionId = s.stepExecutionId := by
  unfold StepRec.without
  split <;> rfl

theorem stepRow_deleteTasks (gone : String → Bool) (db : Database) (id : String) :
    (deleteTasks gone db).stepRow id = (db.stepRow id).map (StepRec.without gone) := by
  show List.find? _ (db.steps.map (StepRec.without gone)) = Option.map _ (List.find? _ db.steps)
  rw [List.find?_map]
  congr 2
  funext s
  show decide ((StepRec.without gone s).stepExecutionId = id) = decide (s.stepExecutionId = id)
  rw [StepRec.without_key]

/-- A task's deletion shows in the steps bound to it. -/
theorem respected_deleteTasks {db : Database} {op : Operation} {gone : String → Bool}
    (hop : apply db op = deleteTasks gone db) : Respected db op ↔ TasksSpared db gone := by
  constructor
  · intro h id s hs hactive t ht
    obtain ⟨s', hs', hle, -⟩ := h.steps id s hs hactive
    rw [hop, stepRow_deleteTasks, hs] at hs'
    obtain rfl : StepRec.without gone s = s' := Option.some.inj hs'
    by_contra hgone
    have hnone : (StepRec.without gone s).taskId = none := by
      unfold StepRec.without
      rw [if_pos (by rw [ht]; simpa using hgone)]
    exact nomatch hnone.symm.trans (hle.task t ht)
  · intro h
    constructor
    · intro id s hs hactive
      have hkept : StepRec.without gone s = s := by
        unfold StepRec.without
        refine if_neg ?_
        cases ht : s.taskId with
        | none => exact Bool.false_ne_true
        | some t =>
          show ¬ gone t = true
          rw [h id s hs hactive t ht]
          exact Bool.false_ne_true
      refine ⟨s, ?_, .refl s, fun _ => rfl⟩
      rw [hop, stepRow_deleteTasks, hs]
      exact congrArg some hkept
    · intro id l hl _
      exact ⟨l, by rw [hop]; exact hl, fun _ => rfl⟩

theorem active_not_prunable {db : Database} {s : StepRec} {olderThan : String} (h : Active db s) :
    workflowPrunable olderThan db s.workflowId = false := by
  obtain ⟨w, hw, hopen⟩ := h
  unfold workflowPrunable
  rw [hw, Option.any_some, hopen]
  rfl

/-- A workflow's deletion shows in its lease projections only: the steps that go with it are its own. -/
theorem respected_pruneWorkflows (db : Database) (olderThan : String) :
    Respected db (.pruneTerminalWorkflows olderThan) ↔ Spares db (.pruneTerminalWorkflows olderThan) := by
  constructor
  · intro h id l hl hopen
    obtain ⟨l', hl', hsame⟩ := h.leases id l hl hopen
    obtain rfl := hsame rfl
    have hmem : l' ∈ db.leases.filter fun l => !workflowPrunable olderThan db l.workflowId :=
      (lookup_some LeaseRec.leaseId hl').1
    simpa using (List.mem_filter.mp hmem).2
  · intro h
    constructor
    · intro id s hs hactive
      exact ⟨s, lookup_filter_some _ hs (by rw [active_not_prunable hactive]; rfl), .refl s, fun _ => rfl⟩
    · intro id l hl hopen
      exact ⟨l, lookup_filter_some _ hl (by rw [h id l hl hopen]; rfl), fun _ => rfl⟩

/-- What `task_id: null` does: nothing, or the step found under the id loses its task. -/
theorem unbindStep_apply (db : Database) (id : String) (revision : Nat) :
    apply db (.unbindStep id revision) =
      if (db.stepRow id).any (fun s => s.revision = revision) then db.setStep id unbound else db := by
  show (unbindStep id revision db).2 = _
  simp only [unbindStep, readTx_bind]
  cases hrow : db.stepRow id with
  | none => rfl
  | some cur =>
    by_cases hrev : cur.revision = revision
    · simp only [hrev, ne_eq, not_true_eq_false, if_false, Option.any_some, decide_true, if_true, modifyTx_apply]
    · simp only [hrev, ne_eq, not_false_eq_true, if_true, Option.any_some, decide_false, Bool.false_eq_true, if_false]
      rfl

theorem stepRow_unbound (db : Database) (id id' : String) :
    (db.setStep id unbound).stepRow id' = if id' = id then (db.stepRow id').map unbound else db.stepRow id' :=
  lookup_update StepRec.stepExecutionId (f := unbound) (fun _ => rfl) id'

theorem respected_unbindStep (db : Database) (id : String) (revision : Nat) :
    Respected db (.unbindStep id revision) ↔ Spares db (.unbindStep id revision) := by
  have happly := unbindStep_apply db id revision
  constructor
  · intro h s hs hactive hrev
    obtain ⟨s', hs', hle, -⟩ := h.steps id s hs hactive
    rw [happly, if_pos (by rw [hs]; simpa using hrev), stepRow_unbound, if_pos rfl, hs] at hs'
    obtain rfl : unbound s = s' := Option.some.inj hs'
    cases ht : s.taskId with
    | none => rfl
    | some t => exact nomatch hle.task t ht
  · intro h
    constructor
    · intro id' s hs hactive
      rw [happly]
      split
      · rename_i hany
        rw [stepRow_unbound]
        by_cases hid : id' = id
        · subst hid
          have hrev : s.revision = revision := by
            rw [hs] at hany
            simpa using hany
          have htask := h s hs hactive hrev
          rw [if_pos rfl, hs]
          exact ⟨unbound s, rfl, ⟨fun t ht => (nomatch htask.symm.trans ht), fun _ => ⟨rfl, rfl⟩⟩,
            fun hr => (nomatch hr)⟩
        · rw [if_neg hid]
          exact ⟨s, hs, .refl s, fun _ => rfl⟩
      · exact ⟨s, hs, .refl s, fun _ => rfl⟩
    · intro id' l hl _
      refine ⟨l, ?_, fun _ => rfl⟩
      rw [happly]
      split <;> exact hl

/-- **What one operation owes**: exactly the deletions that spare the running workflows keep to it. -/
theorem respected_iff (db : Database) (op : Operation) : Respected db op ↔ Spares db op := by
  by_cases hremoves : op.removes = true
  · cases op with
    | deleteTask taskId => exact respected_deleteTasks rfl
    | pruneTerminalTasks olderThan => exact respected_deleteTasks rfl
    | pruneTerminalWorkflows olderThan => exact respected_pruneWorkflows db olderThan
    | unbindStep id revision => exact respected_unbindStep db id revision
    | _ => exact nomatch hremoves
  · have hother : op.removes = false := by simpa using hremoves
    have hgrow := growing_perform hother db
    have hretain : op.retention = false := by
      cases op with
      | pruneTerminalTasks _ => exact nomatch hother
      | pruneTerminalWorkflows _ => exact nomatch hother
      | _ => rfl
    have hspares : Spares db op := by
      cases op with
      | deleteTask _ => exact nomatch hother
      | pruneTerminalTasks _ => exact nomatch hother
      | pruneTerminalWorkflows _ => exact nomatch hother
      | unbindStep _ _ => exact nomatch hother
      | _ => trivial
    refine iff_of_true ?_ hspares
    constructor
    · intro id s hs _
      obtain ⟨s', hs', hle⟩ := hgrow.steps id s hs
      exact ⟨s', hs', hle, fun h => absurd (hretain.symm.trans h) Bool.false_ne_true⟩
    · intro id l hl _
      obtain ⟨l', hl'⟩ := hgrow.leases id l hl
      exact ⟨l', hl', fun h => absurd (hretain.symm.trans h) Bool.false_ne_true⟩

/-! ## Whole runs -/

/-- The step of that id is there and its workflow has not ended. -/
def Running (stepExecutionId : String) (db : Database) : Prop :=
  ∃ s, db.stepRow stepExecutionId = some s ∧ Active db s

/-- What retention owes over a run: every operation respects the running workflows, and a step that
    was bound is bound to the same task for as long as its workflow runs, so that the driver does not
    create another one for it. -/
structure RetentionSafe (db : Database) (ops : List Operation) : Prop where
  respected : Always apply Respected db ops
  once : ∀ before after rest, ops = before ++ after ++ rest →
    ∀ id s t, (run apply db before).stepRow id = some s → s.taskId = some t →
      Always apply (fun db _ => Running id db) (run apply db before) after →
      (∃ s', (run apply db (before ++ after)).stepRow id = some s' ∧ StepLe s s') ∧
      ∀ entryStep maxTasks late workflowId step,
        driveWorkflow entryStep maxTasks late (run apply db (before ++ after)) workflowId = .createAndBindTask step →
        (run apply db (before ++ after)).stepRow id ≠ some step

/-- A step is followed through the operations that find its workflow running. -/
theorem step_stays {db : Database} {ops : List Operation} {id : String} {s : StepRec} (hs : db.stepRow id = some s)
    (hresp : Always apply Respected db ops) (hrun : Always apply (fun db _ => Running id db) db ops) :
    ∃ s', (run apply db ops).stepRow id = some s' ∧ StepLe s s' := by
  induction ops generalizing db s with
  | nil => exact ⟨s, hs, .refl s⟩
  | cons op ops ih =>
    obtain ⟨s₀, hs₀, hactive⟩ := hrun.1
    obtain rfl : s = s₀ := Option.some.inj (hs.symm.trans hs₀)
    obtain ⟨s₁, hs₁, hle, -⟩ := hresp.1.steps id s hs hactive
    obtain ⟨s₂, hs₂, hle'⟩ := ih hs₁ hresp.2 hrun.2
    exact ⟨s₂, hs₂, hle.trans hle'⟩

theorem retentionSafe_of_respected {db : Database} {ops : List Operation} (h : Always apply Respected db ops) :
    RetentionSafe db ops := by
  refine ⟨h, ?_⟩
  rintro before after rest rfl id s t hs ht hrun
  have hafter : Always apply Respected (run apply db before) after :=
    (always_append.mp (always_append.mp h).1).2
  obtain ⟨s', hs', hle⟩ := step_stays hs hafter hrun
  rw [← run_append] at hs'
  refine ⟨⟨s', hs', hle⟩, ?_⟩
  intro entryStep maxTasks late workflowId step hturn hstep
  -- the driver's step has no task, and this one still has its own
  obtain rfl : s' = step := Option.some.inj (hs'.symm.trans hstep)
  exact nomatch (driveWorkflow_creates hturn).symm.trans (hle.task t ht)

/-- **Retention and the running workflows.**  Over every sequence of store operations, from any
    database and with any cutoffs: the steps of workflows that have not ended keep their task and the
    output of an ended step, the driver creates no second task for them, and every lease projection
    that is not released stays — exactly when no operation deletes a task that such a step is bound
    to (or clears its binding), and no pruned workflow holds a projection that is not released. -/
theorem retention_spares_running (db : Database) (ops : List Operation) :
    RetentionSafe db ops ↔ Always apply Spares db ops := by
  have hcongr : Always apply Respected db ops ↔ Always apply Spares db ops :=
    always_congr (fun _ => True) (fun _ _ _ _ => trivial) (fun db op _ => respected_iff db op) trivial ops
  constructor
  · intro h
    exact hcongr.mp h.respected
  · intro h
    exact retentionSafe_of_respected (hcongr.mpr h)

/-! ### A pruned history -/

def pruneEvent (type : String) (step : Option String) : EventDraft := ⟨type, "2024-05-06T07:08:09Z", step, none⟩

/-- A workflow whose first step is bound to a task, which has ended; the workflow has not seen it yet. -/
def boundOps : List Operation :=
  [.createTask "t1" "running",
   .composite "2024-05-06T07:08:09Z" (.createWorkflowWithLifecycleEvents ⟨"wf", "1", "sample", .obj [], none, none, none⟩
     none (pruneEvent "workflow.created" none) (pruneEvent "workflow.validated" none)),
   .composite "2024-05-06T07:08:09Z" (.startWorkflowDurably "wf" (pruneEvent "workflow.started" none)),
   .composite "2024-05-06T07:08:09Z" (.ensureStepStarted ⟨"wf.a.r1.a1", "wf", "a", 1, 1, none, none⟩ "a"
     (pruneEvent "step.started" (some "wf.a.r1.a1"))),
   .composite "2024-05-06T07:08:09Z" (.bindStepTaskOnce "wf.a.r1.a1" "t1" "wf"
     (pruneEvent "step.task_created" (some "wf.a.r1.a1"))),
   .onTask "t1" "2024-05-06T07:09:00Z" (.update 1 ⟨some "completed", none, none, none, none,
     some (some "2024-05-06T07:09:00Z"), none, none⟩)]

def boundStep : StepRec := ⟨"wf.a.r1.a1", "wf", "a", 1, 1, some "t1", 2, "pending", none, none⟩

theorem boundOps_step : (run apply .empty boundOps).stepRow "wf.a.r1.a1" = some boundStep := by decide +kernel

/-- Pruning the ended task makes the driver create a second one for the step that had it. -/
theorem pruned_task_created_again : ¬ ∀ ops, RetentionSafe .empty ops := by
  intro hall
  have hactive : Running "wf.a.r1.a1" (run apply .empty boundOps) := by
    refine ⟨boundStep, boundOps_step, ?_⟩
    have hopen : ((run apply .empty boundOps).workflowRow "wf").map (fun w => workflowTerminal w.status) = some false := by
      decide +kernel
    obtain ⟨w, hw, hstatus⟩ := Option.map_eq_some_iff.mp hopen
    exact ⟨w, hw, hstatus⟩
  have honce := ((hall (boundOps ++ [.pruneTerminalTasks "2025-01-01T00:00:00Z"])).once boundOps
    [.pruneTerminalTasks "2025-01-01T00:00:00Z"] [] (List.append_nil _).symm "wf.a.r1.a1" boundStep "t1" boundOps_step rfl
    ⟨hactive, trivial⟩).2 "a" 10 false "wf" { boundStep with taskId := none }
  exact honce (by decide +kernel) (by decide +kernel)

end VibePrune
