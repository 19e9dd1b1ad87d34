import VibeWorkflow.TransactionProofs
import VibeWorkflow.TaskEventProofs

/-!
# The workflow tables and their composites

`StoreProofs` looks at the rows of one workflow through the calls the runtime makes. Here are
the tables themselves, with every workflow in them, and the composites take whatever arguments
they are given: a step of one workflow with the id of another, unknown ids, any status text.
Timestamps are left out; a branch that returns without a write returns the tables it got.

* `updateWorkflow_ok`, `updateStep_ok`, `appendEvent_ok`, `saveContext_ok`, `createStep_ok`,
  `createWorkflow_ok` — all that a row operation which did not throw has checked and written.
-/

namespace VibeTables

open Transaction VibeJson VibeStore VibeContract

/-! ## Tables -/

/-- A row of `workflows`. -/
structure WorkflowRec where
  workflowId : String
  revision : Nat
  specVersion : String
  workflowName : String
  specJson : String
  status : String
  currentStepId : Option String
  currentRound : Int
  totalTasks : Nat
  totalFailures : Nat
  lastEventSequence : Int
  contextRevision : Nat
  contextJson : Option String
  inputValuesJson : Option String
  cancelRequested : Bool
deriving DecidableEq

/-- A row of `workflow_step_executions`. -/
structure StepRec where
  stepExecutionId : String
  workflowId : String
  stepId : String
  round : Int
  attempt : Int
  taskId : Option String
  revision : Nat
  status : String
  outputJson : Option String
  errorJson : Option String
deriving DecidableEq

/-- A row of `workflow_events`. -/
structure EventRec where
  workflowId : String
  sequence : Int
  eventType : String
  ts : String
  stepExecutionId : Option String
  payloadJson : String
deriving DecidableEq

/-- A row of `workflow_human_requests`. -/
structure HumanRec where
  requestId : String
  workflowId : String
  stepExecutionId : String
  kind : String
  prompt : String
  choicesJson : Option String
  status : String
  responseValue : Option String
  revision : Nat
deriving DecidableEq

/-- `tasks` holds the ids the foreign key of a step's `task_id` may name. -/
structure Tables where
  tasks : List String
  workflows : List WorkflowRec
  steps : List StepRec
  events : List EventRec
  human : List HumanRec
deriving DecidableEq

namespace Tables

/-- `SELECT` a workflow by its id. -/
def workflowRow (db : Tables) (id : String) : Option WorkflowRec := lookup WorkflowRec.workflowId db.workflows id

/-- `SELECT` a step execution by its id. -/
def stepRow (db : Tables) (id : String) : Option StepRec := lookup StepRec.stepExecutionId db.steps id

/-- `SELECT` a human request by its id. -/
def humanRow (db : Tables) (id : String) : Option HumanRec := lookup HumanRec.requestId db.human id

/-- `SELECT` a step execution by its natural key. -/
def stepExecByKey (db : Tables) (workflowId stepId : String) (round attempt : Int) : Option StepRec :=
  db.steps.find? fun s =>
    s.workflowId = workflowId ∧ s.stepId = stepId ∧ s.round = round ∧ s.attempt = attempt

/-- `UPDATE` one workflow. -/
def setWorkflow (db : Tables) (id : String) (f : WorkflowRec → WorkflowRec) : Tables :=
  { db with workflows := update WorkflowRec.workflowId db.workflows id f }

/-- `UPDATE` one step execution. -/
def setStep (db : Tables) (id : String) (f : StepRec → StepRec) : Tables :=
  { db with steps := update StepRec.stepExecutionId db.steps id f }

/-- `UPDATE` one human request. -/
def setHuman (db : Tables) (id : String) (f : HumanRec → HumanRec) : Tables :=
  { db with human := update HumanRec.requestId db.human id f }

end Tables

/-- A `ControlStoreError`, SQLite's own error, or the `TypeError` of reading a row that is not there. -/
inductive Thrown where
  | store (e : StoreError)
  | typeError
deriving DecidableEq

/-- An operation on the tables. -/
abbrev Store (α : Type) := Tx Tables Thrown α

/-- Throw the store's own error. -/
def fault {α : Type} (code : StoreCode) (message : String) : Store α := throwTx (.store ⟨code, message⟩)

/-- A check made before any write. -/
def lift {α : Type} (x : Except StoreError α) : Store α := liftTx (x.mapError .store)

/-- `WORKFLOW_TERMINAL_STATUSES`; `blocked` is not one of them. -/
def workflowTerminal (status : String) : Bool := ["completed", "failed", "cancelled"].contains status

/-- `STEP_TERMINAL_STATUSES`. -/
def stepTerminal (status : String) : Bool := ["completed", "failed", "skipped", "cancelled"].contains status

/-- `SAFE_ID_RE`: `^[A-Za-z0-9][A-Za-z0-9._:-]{0,127}$`. -/
def isSafeId (s : String) : Bool :=
  matchesId isAlnum (fun c => isAlnum c || c == '.' || c == '_' || c == ':' || c == '-') 127 s

/-! ## Row operations -/

/-- The fields an update may set. -/
structure WorkflowPatch where
  status : Option String := none
  currentStepId : Option String := none
  currentRound : Option Int := none
  totalTasks : Option Nat := none
  totalFailures : Option Nat := none
  cancelRequested : Bool := false

/-- A given field replaces the stored one. -/
def WorkflowPatch.apply (patch : WorkflowPatch) (cur : WorkflowRec) : WorkflowRec :=
  { cur with
    revision := cur.revision + 1
    status := patch.status.getD cur.status
    currentStepId := patch.currentStepId.or cur.currentStepId
    currentRound := patch.currentRound.getD cur.currentRound
    totalTasks := patch.totalTasks.getD cur.totalTasks
    totalFailures := patch.totalFailures.getD cur.totalFailures
    cancelRequested := patch.cancelRequested || cur.cancelRequested }

/-- Guarded by the revision the caller read. -/
def updateWorkflowSync (workflowId : String) (expectedRevision : Nat) (patch : WorkflowPatch) : Store Unit := do
  match ← readTx (·.workflowRow workflowId) with
  | none => fault .notFound ("workflow not found: " ++ workflowId)
  | some cur =>
    if cur.revision ≠ expectedRevision then
      fault .revisionConflict ("workflow revision conflict (have " ++ toString cur.revision ++ ", expected " ++
        toString expectedRevision ++ ")")
    else if workflowTerminal cur.status ∧ patch.status.getD cur.status ≠ cur.status then
      fault .invalidTransition "terminal workflow status cannot regress"
    else if patch.currentRound.getD cur.currentRound < cur.currentRound then
      fault .invalidTransition "current_round cannot decrease"
    else if patch.totalTasks.getD cur.totalTasks < cur.totalTasks then
      fault .invalidTransition "total_tasks cannot decrease"
    else if patch.totalFailures.getD cur.totalFailures < cur.totalFailures then
      fault .invalidTransition "total_failures cannot decrease"
    else modifyTx (·.setWorkflow workflowId patch.apply)

/-- What a creation is given. -/
structure CreateWorkflowInput where
  workflowId : String
  specVersion : String
  workflowName : String
  spec : Json
  currentStepId : Option String
  currentRound : Option Int
  inputValues : Option Json

/-- The input values are `null`, or free of forbidden names and small enough. -/
def encodeInputValues : Option Json → Except StoreError (Option String)
  | none => .ok none
  | some values => do
    assertNoForbiddenFields "workflow.input_values" values
    let text ← encodeJson values metadataJson "workflow.input_values"
    .ok (some text)

/-- Insert a workflow, unless its id is taken. -/
def createWorkflowSync (input : CreateWorkflowInput) (status : String) (currentRound : Int) : Store Unit := do
  if !isSafeId input.workflowId then fault .invalidRecord "workflow.workflow_id is not a safe id"
  else if input.workflowName = "" then fault .invalidRecord "workflow.workflow_name is required"
  else if input.specVersion = "" then fault .invalidRecord "workflow.spec_version is required"
  else do
    match ← readTx (·.workflowRow input.workflowId) with
    | some _ => fault .duplicate ("workflow already exists: " ++ input.workflowId)
    | none =>
      let specJson ← lift (encodeJson input.spec specJson "workflow.spec")
      let inputValuesJson ← lift (encodeInputValues input.inputValues)
      modifyTx fun db => { db with
        workflows := db.workflows ++ [{
          workflowId := input.workflowId, revision := 1, specVersion := input.specVersion
          workflowName := input.workflowName, specJson := specJson, status := status
          currentStepId := input.currentStepId, currentRound := currentRound, totalTasks := 0
          totalFailures := 0, lastEventSequence := -1, contextRevision := 0, contextJson := none
          inputValuesJson := inputValuesJson, cancelRequested := false }] }

/-- What a step execution starts with. -/
structure CreateStepInput where
  stepExecutionId : String
  workflowId : String
  stepId : String
  round : Int
  attempt : Int
  taskId : Option String
  status : Option String
deriving DecidableEq

/-- `validateCreateStepExecution`. -/
def validateCreateStepExecution (i : CreateStepInput) : Except StoreError Unit :=
  if !isSafeId i.stepExecutionId then .error ⟨.invalidRecord, "step.step_execution_id is not a safe id"⟩
  else if !isSafeId i.workflowId then .error ⟨.invalidRecord, "step.workflow_id is not a safe id"⟩
  else if !isSafeId i.stepId then .error ⟨.invalidRecord, "step.step_id is not a safe id"⟩
  else if i.round < 1 then .error ⟨.invalidRecord, "step.round must be a positive integer"⟩
  else if i.attempt < 1 then .error ⟨.invalidRecord, "step.attempt must be a positive integer"⟩
  else .ok ()

/-- The foreign key of `task_id`: `NULL`, or the id of a task. -/
def taskKnown (db : Tables) : Option String → Bool
  | none => true
  | some t => db.tasks.contains t

/-- The row of a step execution that starts. -/
def newStep (input : CreateStepInput) : StepRec where
  stepExecutionId := input.stepExecutionId
  workflowId := input.workflowId
  stepId := input.stepId
  round := input.round
  attempt := input.attempt
  taskId := input.taskId
  revision := 1
  status := input.status.getD "pending"
  outputJson := none
  errorJson := none

/-- Insert a step execution, unless its id is taken. -/
def createStepSync (input : CreateStepInput) : Store Unit := do
  lift (validateCreateStepExecution input)
  let db ← readTx id
  if (db.workflowRow input.workflowId).isNone then fault .notFound ("workflow not found: " ++ input.workflowId)
  else if (db.stepRow input.stepExecutionId).isSome then
    fault .duplicate ("step execution already exists: " ++ input.stepExecutionId)
  else if (db.stepExecByKey input.workflowId input.stepId input.round input.attempt).isSome then
    fault .duplicate ("step execution (step,round,attempt) already exists for " ++ input.stepId)
  else if !taskKnown db input.taskId then fault .constraint "FOREIGN KEY constraint failed"
  else modifyTx fun db => { db with steps := db.steps ++ [newStep input] }

/-- The fields a step update may set. -/
structure StepPatch where
  status : Option String := none
  taskId : Option String := none
  output : Option Json := none
  error : Option Json := none

/-- A column patch: absent keeps the column, `null` clears it. -/
def patchJson (patch : Option Json) (cur : Option String) (max : Nat) (label : String) :
    Except StoreError (Option String) :=
  match patch with
  | none => .ok cur
  | some .null => .ok none
  | some value => (encodeJson value max label).map some

/-- Guarded by the revision the caller read. -/
def updateStepSync (id : String) (expectedRevision : Nat) (patch : StepPatch) : Store Unit := do
  let db ← readTx fun db => db
  match db.stepRow id with
  | none => fault .notFound ("step execution not found: " ++ id)
  | some cur =>
    if cur.revision ≠ expectedRevision then
      fault .revisionConflict ("step revision conflict (have " ++ toString cur.revision ++ ", expected " ++
        toString expectedRevision ++ ")")
    else if stepTerminal cur.status ∧ patch.status.getD cur.status ≠ cur.status then
      fault .invalidTransition "terminal step status cannot change"
    else if stepTerminal cur.status ∧ patch.output.isSome then
      fault .invalidTransition "terminal step output cannot be replaced"
    else if patch.taskId.isSome ∧ cur.taskId.isSome ∧ cur.taskId ≠ patch.taskId then
      fault .invalidTransition "step task binding is immutable once set"
    else do
      let outputJson ← lift (patchJson patch.output cur.outputJson stepOutputJson "step.output")
      let errorJson ← lift (patchJson patch.error cur.errorJson stepErrorJson "step.error")
      if !taskKnown db patch.taskId then fault .constraint "FOREIGN KEY constraint failed"
      else modifyTx (·.setStep id fun s => { s with
        revision := s.revision + 1
        status := patch.status.getD s.status
        taskId := patch.taskId.or s.taskId
        outputJson := outputJson
        errorJson := errorJson })

/-- An event before it has a number. -/
structure EventDraft where
  eventType : String
  ts : String
  stepExecutionId : Option String
  payload : Option Json

/-- `WF_EVENT_NAMES`. -/
def workflowEventNames : List String :=
  ["workflow.created", "workflow.validated", "workflow.started", "step.started", "step.task_created",
   "step.completed", "step.failed", "edge.selected", "workflow.round_advanced", "workflow.blocked",
   "workflow.completed", "workflow.failed", "workflow.cancelled", "workflow.paused", "workflow.resumed"]

/-- `STEP_SCOPED_EVENT_TYPES`. -/
def stepScopedEventTypes : List String := ["step.started", "step.task_created", "step.completed", "step.failed"]

/-- A reference that is given and not the empty text. -/
def truthy (ref : Option String) : Bool := ref.any (· ≠ "")

/-- `appendWorkflowEventSync`. -/
def appendWorkflowEventSync (workflowId : String) (sequence : Int) (ev : EventDraft) : Store Unit := do
  if sequence < 0 then fault .invalidRecord "event.sequence must be a non-negative integer"
  else if !workflowEventNames.contains ev.eventType then
    fault .invalidRecord "event.event_type is not a known workflow event"
  else if !VibeTask.isIsoUtc ev.ts then fault .invalidRecord "event.ts must be ISO-8601 UTC"
  else do
    let db ← readTx fun db => db
    match db.workflowRow workflowId with
    | none => fault .notFound ("workflow not found: " ++ workflowId)
    | some cur =>
      let stepScoped := stepScopedEventTypes.contains ev.eventType
      if stepScoped ∧ !truthy ev.stepExecutionId then
        fault .invalidRecord ("step-scoped event " ++ ev.eventType ++ " requires step_execution_id")
      else if !stepScoped ∧ truthy ev.stepExecutionId then
        fault .invalidRecord ("workflow-scoped event " ++ ev.eventType ++ " must not carry step_execution_id")
      else if truthy ev.stepExecutionId ∧
          ((ev.stepExecutionId.bind db.stepRow).map (·.workflowId)) ≠ some workflowId then
        fault .invalidRecord "step_execution_id does not belong to this workflow"
      else do
        let payloadJson ← lift (encodeJson (ev.payload.getD .null) workflowEventPayload "workflow_event.payload")
        if sequence ≤ cur.lastEventSequence then
          match db.events.find? fun e => e.workflowId = workflowId ∧ e.sequence = sequence with
          | none => fault .eventGap ("missing workflow event below high-water mark at sequence " ++ toString sequence)
          | some existing =>
            if existing.eventType ≠ ev.eventType ∨ existing.ts ≠ ev.ts ∨ existing.payloadJson ≠ payloadJson ∨
                existing.stepExecutionId ≠ ev.stepExecutionId then
              fault .eventConflict ("conflicting workflow event at sequence " ++ toString sequence)
            else pure ()
        else if sequence ≠ cur.lastEventSequence + 1 then
          fault .eventGap ("workflow event gap: expected " ++ toString (cur.lastEventSequence + 1) ++ ", got " ++
            toString sequence)
        else if ev.stepExecutionId.isSome ∧ !truthy ev.stepExecutionId then
          -- the empty text passes the checks and fails the foreign key
          fault .constraint "FOREIGN KEY constraint failed"
        else do
          modifyTx fun db => { db with
            events := db.events ++ [⟨workflowId, sequence, ev.eventType, ev.ts, ev.stepExecutionId, payloadJson⟩] }
          modifyTx (·.setWorkflow workflowId fun w => { w with lastEventSequence := sequence })

/-- Append with the next number of the log. -/
def appendWorkflowEventAuto (workflowId : String) (draft : EventDraft) : Store Unit := do
  match ← readTx (·.workflowRow workflowId) with
  | none => fault .notFound ("workflow not found: " ++ workflowId)
  | some cur => appendWorkflowEventSync workflowId (cur.lastEventSequence + 1) draft

/-- Guarded by the context revision. -/
def saveContextSync (workflowId : String) (expectedContextRevision : Nat) (context : Json) : Store Unit := do
  match ← readTx (·.workflowRow workflowId) with
  | none => fault .notFound ("workflow not found: " ++ workflowId)
  | some cur =>
    if cur.contextRevision ≠ expectedContextRevision then
      fault .revisionConflict ("context revision conflict (have " ++ toString cur.contextRevision ++ ", expected " ++
        toString expectedContextRevision ++ ")")
    else do
      lift (assertValidContext context "workflow.context")
      let text ← lift (encodeJson context contextJson "workflow.context")
      modifyTx (·.setWorkflow workflowId fun w =>
        { w with contextJson := some text, contextRevision := w.contextRevision + 1 })

/-- `this.workflowRow(id)!`: reading a field of a row that is not there throws. -/
def requireRow (workflowId : String) : Store WorkflowRec := do
  match ← readTx (·.workflowRow workflowId) with
  | none => throwTx .typeError
  | some w => pure w

/-! ## Composites -/

/-- The context write of a composite, where both its arguments are given. -/
def saveContextOptional (workflowId : String) (expectedRevision : Option Nat) (context : Option Json) : Store Unit :=
  match expectedRevision, context with
  | some revision, some context => saveContextSync workflowId revision context
  | _, _ => pure ()

/-- The row, its context and its first two events, in one transaction. -/
def createWorkflowWithLifecycleEvents (input : CreateWorkflowInput) (context : Option Json)
    (createdEvent validatedEvent : EventDraft) : Store Unit := do
  createWorkflowSync input "ready" (input.currentRound.getD 1)
  saveContextOptional input.workflowId (some 0) context
  appendWorkflowEventAuto input.workflowId createdEvent
  appendWorkflowEventAuto input.workflowId validatedEvent

/-- `ready` to `running`; a second start changes nothing. -/
def startWorkflowDurably (workflowId : String) (startedEvent : EventDraft) : Store Unit := do
  match ← readTx (·.workflowRow workflowId) with
  | none => fault .notFound ("workflow not found: " ++ workflowId)
  | some cur =>
    if cur.status = "running" then pure ()
    else if cur.status ≠ "ready" then
      fault .invalidTransition ("workflow cannot start from status " ++ cur.status)
    else do
      updateWorkflowSync workflowId cur.revision { status := some "running" }
      appendWorkflowEventAuto workflowId startedEvent

/-- Move the workflow's `current_step_id`, where it is another one. -/
def setCurrentStep (workflowId currentStepId : String) (w : WorkflowRec) : Store Unit :=
  if w.currentStepId ≠ some currentStepId then
    updateWorkflowSync workflowId w.revision { currentStepId := some currentStepId }
  else pure ()

/-- Start a step execution once. -/
def ensureStepStarted (step : CreateStepInput) (currentStepId : String) (startedEvent : EventDraft) : Store Unit := do
  let db ← readTx fun db => db
  match db.workflowRow step.workflowId with
  | none => fault .notFound ("workflow not found: " ++ step.workflowId)
  | some wf =>
    match db.stepExecByKey step.workflowId step.stepId step.round step.attempt with
    | some _ => pure ()
    | none =>
      createStepSync step
      setCurrentStep step.workflowId currentStepId wf
      appendWorkflowEventAuto step.workflowId startedEvent

/-- Bind a task to a step execution once. -/
def bindStepTaskOnce (stepExecutionId taskId workflowId : String) (event : EventDraft) : Store Unit := do
  match ← readTx (·.stepRow stepExecutionId) with
  | none => fault .notFound ("step execution not found: " ++ stepExecutionId)
  | some step =>
    if step.taskId = some taskId then pure ()
    else if step.taskId ≠ none then fault .invalidTransition "step is already bound to a different task"
    else do
      updateStepSync stepExecutionId step.revision { taskId := some taskId }
      match ← readTx (·.workflowRow workflowId) with
      | none => fault .notFound ("workflow not found: " ++ workflowId)
      | some wf =>
        updateWorkflowSync workflowId wf.revision { totalTasks := some (wf.totalTasks + 1) }
        appendWorkflowEventAuto workflowId event

/-- The step's output and the context, in one transaction. -/
def completeStepAndCheckpoint (stepExecutionId : String) (output : Option Json) (workflowId : String)
    (contextExpectedRevision : Option Nat) (context : Option Json) (event : EventDraft) : Store Unit := do
  match ← readTx (·.stepRow stepExecutionId) with
  | none => fault .notFound ("step execution not found: " ++ stepExecutionId)
  | some step =>
    if step.status = "completed" then pure ()
    else do
      updateStepSync stepExecutionId step.revision { status := some "completed", output := output }
      saveContextOptional workflowId contextExpectedRevision context
      appendWorkflowEventAuto workflowId event

/-- The round of a loop edge, with its event. -/
def advanceRound (workflowId : String) (round : Int) : Option EventDraft → Store Unit
  | none => pure ()
  | some roundAdvancedEvent => do
    let wf ← requireRow workflowId
    updateWorkflowSync workflowId wf.revision { currentRound := some round }
    appendWorkflowEventAuto workflowId roundAdvancedEvent

/-- Follow an edge: its event, the round, the next step. -/
def advanceWorkflow (workflowId : String) (edgeSelectedEvent : EventDraft) (roundAdvancedEvent : Option EventDraft)
    (nextStep : CreateStepInput) (currentStepId : String) (stepStartedEvent : EventDraft) : Store Unit := do
  let db ← readTx fun db => db
  match db.stepExecByKey nextStep.workflowId nextStep.stepId nextStep.round nextStep.attempt with
  | some _ =>
    let _ ← requireRow workflowId
    pure ()
  | none =>
    appendWorkflowEventAuto workflowId edgeSelectedEvent
    advanceRound workflowId nextStep.round roundAdvancedEvent
    createStepSync nextStep
    let wf ← requireRow workflowId
    setCurrentStep workflowId currentStepId wf
    appendWorkflowEventAuto workflowId stepStartedEvent

/-- An optional event. -/
def appendOptional (workflowId : String) : Option EventDraft → Store Unit
  | none => pure ()
  | some event => appendWorkflowEventAuto workflowId event

/-- End a workflow by routing. -/
def terminalizeWorkflow (workflowId status : String) (edgeSelectedEvent : Option EventDraft)
    (terminalEvent : EventDraft) : Store Unit := do
  match ← readTx (·.workflowRow workflowId) with
  | none => fault .notFound ("workflow not found: " ++ workflowId)
  | some cur =>
    if cur.status = status ∨ workflowTerminal cur.status then pure ()
    else do
      appendOptional workflowId edgeSelectedEvent
      updateWorkflowSync workflowId cur.revision { status := some status }
      appendWorkflowEventAuto workflowId terminalEvent

/-- Fail a workflow that has not ended, with its event. -/
def failOpenWorkflow (workflowId : String) (terminalEvent : EventDraft) : Store Unit := do
  let wf ← requireRow workflowId
  if workflowTerminal wf.status then pure ()
  else do
    updateWorkflowSync workflowId wf.revision { status := some "failed" }
    appendWorkflowEventAuto workflowId terminalEvent

/-- Fail a step that has not ended, and count it. -/
def failOpenStep (step : StepRec) (workflowId : String) (stepFailedEvent : EventDraft) (stepError : Option Json) :
    Store Unit := do
  if stepTerminal step.status then pure ()
  else do
    updateStepSync step.stepExecutionId step.revision { status := some "failed", error := stepError }
    let wf ← requireRow workflowId
    updateWorkflowSync workflowId wf.revision { totalFailures := some (wf.totalFailures + 1) }
    appendWorkflowEventAuto workflowId stepFailedEvent

/-- Fail a step and its workflow, in one transaction. -/
def failStepAndWorkflow (stepExecutionId workflowId : String) (stepFailedEvent terminalEvent : EventDraft)
    (stepError : Option Json) : Store Unit := do
  match ← readTx (·.stepRow stepExecutionId) with
  | none => fault .notFound ("step execution not found: " ++ stepExecutionId)
  | some step =>
    failOpenStep step workflowId stepFailedEvent stepError
    failOpenWorkflow workflowId terminalEvent

/-- Note that a cancellation was asked for. -/
def recordCancellationIntent (workflowId : String) : Store Unit := do
  match ← readTx (·.workflowRow workflowId) with
  | none => fault .notFound ("workflow not found: " ++ workflowId)
  | some cur =>
    if cur.cancelRequested ∨ workflowTerminal cur.status then pure ()
    else updateWorkflowSync workflowId cur.revision { cancelRequested := true }

/-- Cancel the step, where there is one that has not ended. -/
def cancelOpenStep (stepExecutionId : Option String) : Store Unit := do
  let db ← readTx fun db => db
  match stepExecutionId.bind db.stepRow with
  | none => pure ()
  | some step =>
    if stepTerminal step.status then pure ()
    else updateStepSync step.stepExecutionId step.revision { status := some "cancelled" }

/-- Cancel a step and its workflow, in one transaction. -/
def cancelStepAndWorkflow (stepExecutionId : Option String) (workflowId : String) (terminalEvent : EventDraft) :
    Store Unit := do
  match ← readTx (·.workflowRow workflowId) with
  | none => fault .notFound ("workflow not found: " ++ workflowId)
  | some cur =>
    if workflowTerminal cur.status then pure ()
    else do
      cancelOpenStep (stepExecutionId.filter (· ≠ ""))
      updateWorkflowSync workflowId cur.revision { status := some "cancelled" }
      appendWorkflowEventAuto workflowId terminalEvent

/-- What a pause asks. -/
structure CreateHumanInput where
  requestId : String
  workflowId : String
  stepExecutionId : String
  kind : String
  prompt : String
  choices : Option (List String)

/-- The request's row, inserted if it is not there. -/
def ensureHumanRow (input : CreateHumanInput) : Store Unit := do
  let db ← readTx fun db => db
  match db.humanRow input.requestId with
  | some _ => pure ()
  | none =>
    if (db.stepRow input.stepExecutionId).isNone then
      fault .notFound ("step execution not found: " ++ input.stepExecutionId)
    else do
      let prompt ← lift (boundString input.prompt 8192 "human.prompt")
      let choicesJson ← lift (match input.choices with
        | none => .ok none
        | some choices => (encodeJson (.arr ((choices.take 200).map .str)) metadataJson "human.choices").map some)
      if db.human.any fun h => h.stepExecutionId = input.stepExecutionId then
        fault .constraint "UNIQUE constraint failed: workflow_human_requests.step_execution_id"
      else modifyTx fun db => { db with
        human := db.human ++ [⟨input.requestId, input.workflowId, input.stepExecutionId, input.kind, prompt,
          choicesJson, "pending", none, 1⟩] }

/-- Ask and pause, in one transaction. -/
def createHumanRequestAndPause (input : CreateHumanInput) (waitingStatus : String) (pausedEvent : EventDraft) :
    Store Unit := do
  if !isSafeId input.requestId then fault .invalidRecord "request_id is not a safe identifier"
  else if input.kind ≠ "input" ∧ input.kind ≠ "approval" then
    fault .invalidRecord "human request kind must be input|approval"
  else if waitingStatus ≠ "waiting_input" ∧ waitingStatus ≠ "waiting_approval" then
    fault .invalidRecord "waitingStatus must be waiting_input|waiting_approval"
  else do
    match ← readTx (·.workflowRow input.workflowId) with
    | none => fault .notFound ("workflow not found: " ++ input.workflowId)
    | some wf =>
      ensureHumanRow input
      if wf.status = "running" then do
        updateWorkflowSync input.workflowId wf.revision { status := some waitingStatus }
        appendWorkflowEventAuto input.workflowId pausedEvent
      else pure ()

/-- Answer a pending input request once. -/
def answerHumanRequestInput (requestId value : String) : Store Unit := do
  match ← readTx (·.humanRow requestId) with
  | none => fault .notFound ("human request not found: " ++ requestId)
  | some r =>
    if r.kind ≠ "input" then fault .invalidTransition "request is not an input request"
    else do
      let v ← lift (boundString value 8192 "human.response_value")
      if r.status = "answered" then
        if r.responseValue ≠ some v then fault .invalidTransition "conflicting input response" else pure ()
      else if r.status ≠ "pending" then fault .invalidTransition ("cannot answer a " ++ r.status ++ " request")
      else modifyTx (·.setHuman requestId fun h =>
        { h with status := "answered", responseValue := some v, revision := h.revision + 1 })

/-- Approve a pending request once. -/
def approveHumanRequest (requestId : String) : Store Unit := do
  match ← readTx (·.humanRow requestId) with
  | none => fault .notFound ("human request not found: " ++ requestId)
  | some r =>
    if r.kind ≠ "approval" then fault .invalidTransition "request is not an approval request"
    else if r.status = "approved" then pure ()
    else if r.status = "rejected" then fault .invalidTransition "request was already rejected"
    else if r.status ≠ "pending" then fault .invalidTransition ("cannot approve a " ++ r.status ++ " request")
    else modifyTx (·.setHuman requestId fun h => { h with status := "approved", revision := h.revision + 1 })

/-- A pending request becomes rejected. -/
def rejectPending (r : HumanRec) : Store Unit :=
  if r.status = "pending" then
    modifyTx (·.setHuman r.requestId fun h => { h with status := "rejected", revision := h.revision + 1 })
  else pure ()

/-- Reject a pending request and fail its workflow. -/
def rejectHumanRequestAndFailWorkflow (requestId : String) (workflowFailedEvent : EventDraft) : Store Unit := do
  match ← readTx (·.humanRow requestId) with
  | none => fault .notFound ("human request not found: " ++ requestId)
  | some r =>
    if r.kind ≠ "approval" then fault .invalidTransition "request is not an approval request"
    else if r.status = "approved" then fault .invalidTransition "request was already approved"
    else if r.status ≠ "rejected" ∧ r.status ≠ "pending" then
      fault .invalidTransition ("cannot reject a " ++ r.status ++ " request")
    else do
      rejectPending r
      failOpenWorkflow r.workflowId workflowFailedEvent

/-- A waiting workflow runs again. -/
def resumeWorkflowRunning (workflowId : String) (resumedEvent : EventDraft) : Store Unit := do
  match ← readTx (·.workflowRow workflowId) with
  | none => fault .notFound ("workflow not found: " ++ workflowId)
  | some cur =>
    if cur.status = "running" then pure ()
    else if cur.status ≠ "waiting_input" ∧ cur.status ≠ "waiting_approval" then
      fault .invalidTransition ("cannot resume from status " ++ cur.status)
    else do
      updateWorkflowSync workflowId cur.revision { status := some "running" }
      appendWorkflowEventAuto workflowId resumedEvent

/-! ## What each row operation does -/

@[simp] theorem fault_ok {α : Type} {code : StoreCode} {message : String} {db db' : Tables} {a : α} :
    (fault code message : Store α) db = (.ok a, db') ↔ False := by
  constructor
  · intro h
    exact nomatch h
  · exact False.elim

/-- A check that throws was passed. -/
theorem guard_ok {α : Type} {c : Prop} [Decidable c] {code : StoreCode} {message : String} {x : Store α}
    {db db' : Tables} {a : α} :
    (if c then fault code message else x) db = (.ok a, db') ↔ ¬ c ∧ x db = (.ok a, db') := by
  by_cases h : c <;> simp [h]

theorem lift_ok {α : Type} {x : Except StoreError α} {db db' : Tables} {a : α} :
    lift x db = (.ok a, db') ↔ x = .ok a ∧ db' = db := by
  unfold lift
  rw [liftTx_ok]
  cases x <;> simp [Except.mapError]

theorem modify_ok {f : Tables → Tables} {db db' : Tables} :
    (modifyTx f : Store Unit) db = (.ok (), db') ↔ db' = f db := by
  rw [modifyTx_apply, Prod.mk.injEq]
  constructor
  · rintro ⟨-, rfl⟩
    rfl
  · rintro rfl
    exact ⟨rfl, rfl⟩

theorem pure_ok {α : Type} {a b : α} {db db' : Tables} :
    (pure a : Store α) db = (.ok b, db') ↔ a = b ∧ db' = db := by
  rw [pure_apply, Prod.mk.injEq, Except.ok.injEq, eq_comm (a := db)]

/-- An update that went through: the row was there, its counters do not fall, and a terminal
    status stays. -/
theorem updateWorkflow_ok {id : String} {revision : Nat} {patch : WorkflowPatch} {db db' : Tables}
    (h : updateWorkflowSync id revision patch db = (.ok (), db')) :
    ∃ cur, db.workflowRow id = some cur ∧
      (workflowTerminal cur.status = true → patch.status.getD cur.status = cur.status) ∧
      cur.currentRound ≤ patch.currentRound.getD cur.currentRound ∧
      cur.totalTasks ≤ patch.totalTasks.getD cur.totalTasks ∧
      cur.totalFailures ≤ patch.totalFailures.getD cur.totalFailures ∧
      db' = db.setWorkflow id patch.apply := by
  simp only [updateWorkflowSync, readTx_bind] at h
  cases hrow : db.workflowRow id with
  | none => simp only [hrow, fault_ok] at h
  | some cur =>
    simp only [hrow, guard_ok, modify_ok] at h
    obtain ⟨-, hterm, hround, htasks, hfail, rfl⟩ := h
    refine ⟨cur, rfl, ?_, by omega, by omega, by omega, rfl⟩
    intro ht
    by_contra hne
    exact hterm ⟨ht, hne⟩

theorem updateStep_ok {id : String} {revision : Nat} {patch : StepPatch} {db db' : Tables}
    (h : updateStepSync id revision patch db = (.ok (), db')) :
    ∃ cur outputJson errorJson, db.stepRow id = some cur ∧
      (stepTerminal cur.status = true → patch.status.getD cur.status = cur.status ∧ outputJson = cur.outputJson) ∧
      (∀ t, cur.taskId = some t → patch.taskId.or cur.taskId = some t) ∧
      db' = db.setStep id (fun s => { s with
        revision := s.revision + 1
        status := patch.status.getD s.status
        taskId := patch.taskId.or s.taskId
        outputJson := outputJson
        errorJson := errorJson }) := by
  simp only [updateStepSync, readTx_bind] at h
  cases hrow : db.stepRow id with
  | none => simp only [hrow, fault_ok] at h
  | some cur =>
    simp only [hrow, guard_ok, bind_ok, lift_ok, modify_ok] at h
    obtain ⟨-, hterm, hout, htask, outputJson, _, ⟨hoj, rfl⟩, errorJson, _, ⟨-, rfl⟩, -, rfl⟩ := h
    refine ⟨cur, outputJson, errorJson, rfl, ?_, ?_, rfl⟩
    · intro ht
      constructor
      · by_contra hne
        exact hterm ⟨ht, hne⟩
      · cases hp : patch.output with
        | none => rw [hp] at hoj; exact (Except.ok.inj hoj).symm
        | some v => exact absurd ⟨ht, by rw [hp]; rfl⟩ hout
    · intro t hcur
      cases hp : patch.taskId with
      | none => exact hcur
      | some t' =>
        by_contra hne
        refine htask ⟨by rw [hp]; rfl, by rw [hcur]; rfl, ?_⟩
        rw [hcur, hp]
        intro heq
        exact hne (by rw [heq]; rfl)

/-- The two writes of an appended event. -/
def Tables.pushEvent (db : Tables) (e : EventRec) : Tables :=
  Tables.setWorkflow { db with events := db.events ++ [e] } e.workflowId
    fun w => { w with lastEventSequence := e.sequence }

theorem appendEvent_ok {id : String} {draft : EventDraft} {db db' : Tables}
    (h : appendWorkflowEventAuto id draft db = (.ok (), db')) :
    ∃ cur payloadJson, db.workflowRow id = some cur ∧
      db' = db.pushEvent
        ⟨id, cur.lastEventSequence + 1, draft.eventType, draft.ts, draft.stepExecutionId, payloadJson⟩ := by
  simp only [appendWorkflowEventAuto, readTx_bind] at h
  cases hrow : db.workflowRow id with
  | none => simp only [hrow, fault_ok] at h
  | some cur =>
    simp only [hrow, appendWorkflowEventSync, guard_ok, readTx_bind, bind_ok, lift_ok] at h
    obtain ⟨-, -, -, -, -, -, payloadJson, _, ⟨-, rfl⟩, h⟩ := h
    -- the next sequence is past the high-water mark
    rw [if_neg (by omega), guard_ok, guard_ok] at h
    simp only [modifyTx_bind, modify_ok] at h
    exact ⟨cur, payloadJson, rfl, h.2.2⟩

theorem saveContext_ok {id : String} {revision : Nat} {context : Json} {db db' : Tables}
    (h : saveContextSync id revision context db = (.ok (), db')) :
    ∃ text, db' = db.setWorkflow id (fun w =>
      { w with contextJson := some text, contextRevision := w.contextRevision + 1 }) := by
  simp only [saveContextSync, readTx_bind] at h
  cases hrow : db.workflowRow id with
  | none => simp only [hrow, fault_ok] at h
  | some cur =>
    simp only [hrow, guard_ok, bind_ok, lift_ok, modify_ok] at h
    obtain ⟨-, _, _, ⟨-, rfl⟩, text, _, ⟨-, rfl⟩, rfl⟩ := h
    exact ⟨text, rfl⟩

theorem createStep_ok {input : CreateStepInput} {db db' : Tables}
    (h : createStepSync input db = (.ok (), db')) :
    db.stepRow input.stepExecutionId = none ∧ db' = { db with steps := db.steps ++ [newStep input] } := by
  simp only [createStepSync, bind_ok, lift_ok] at h
  obtain ⟨_, _, ⟨-, rfl⟩, db₁, _, hread, h⟩ := h
  cases hread
  simp only [guard_ok, modify_ok] at h
  exact ⟨by simpa using h.2.1, h.2.2.2.2⟩

theorem createWorkflow_ok {input : CreateWorkflowInput} {status : String} {round : Int} {db db' : Tables}
    (h : createWorkflowSync input status round db = (.ok (), db')) :
    db.workflowRow input.workflowId = none ∧
      ∃ row, row.workflowId = input.workflowId ∧ row.lastEventSequence = -1 ∧
        db' = { db with workflows := db.workflows ++ [row] } := by
  simp only [createWorkflowSync, guard_ok, readTx_bind] at h
  obtain ⟨-, -, -, h⟩ := h
  cases hrow : db.workflowRow input.workflowId with
  | some _ => simp only [hrow, fault_ok] at h
  | none =>
    simp only [hrow, bind_ok, lift_ok, modify_ok] at h
    obtain ⟨_, _, ⟨-, rfl⟩, _, _, ⟨-, rfl⟩, rfl⟩ := h
    exact ⟨rfl, _, rfl, rfl, rfl⟩

end VibeTables
