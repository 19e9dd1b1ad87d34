import VibeWorkflow.AdmissionProofs
import Mathlib.Data.List.MinMax

/-!
# The control store: rows of one workflow and its composites

Every composite runs in one transaction and appends its events in order; the guards that make a
re-run after a crash a no-op are the ones below.  The state is the rows of one workflow.  A step
execution is identified by its step and round: the attempt is always 1, and the derived id is
injective on safe step names (`stepExecutionId_inj`).  Row revisions are left out, because each
composite reads and writes them in one transaction; the context revision stays, because its
expected value crosses transactions.

* **`stepExecutionId_inj`** — distinct executions have distinct ids.
* **`step?_setStep`**, **`step?_concat`** — how changing and adding a row reads back.
-/

namespace VibeControl

open VibeJson VibeContract VibeStore

/-! ## Rows -/

/-- A step execution: a step in a round. -/
structure StepKey where
  stepId : String
  round : Nat
deriving DecidableEq, Repr

/-- The derived id of a step execution, which is also the task's idempotency key. -/
def stepExecutionId (workflowId : String) (k : StepKey) : String :=
  workflowId ++ "." ++ k.stepId ++ ".r" ++ toString k.round ++ ".a1"

inductive EventType where
  | workflowCreated | workflowValidated | workflowStarted | workflowPaused | workflowResumed
  | workflowRoundAdvanced | workflowBlocked | workflowCompleted | workflowFailed | workflowCancelled
  | stepStarted | stepTaskCreated | stepCompleted | stepFailed | edgeSelected
deriving DecidableEq, Repr

/-- Step-scoped events carry their execution. -/
structure WorkflowEvent where
  type : EventType
  step : Option StepKey
  payload : Json
deriving DecidableEq

/-- The observable state of a leased workspace. -/
structure WorkspaceRevision where
  isGit : Bool
  stateHash : String
  changedFiles : List String
deriving DecidableEq

structure WorkflowRow where
  status : WorkflowStatus
  currentStepId : Option String
  currentRound : Nat
  totalTasks : Nat
  totalFailures : Nat
  startedAt : Option Nat
  cancelRequested : Bool
  context : List (String × Json)
  contextRevision : Nat
deriving DecidableEq

structure StepRow where
  key : StepKey
  taskId : Option String
  status : StepStatus
  output : Option Json
  error : Option Json
  resultAwaitedSince : Option Nat
  revisionBefore : Option WorkspaceRevision
  revisionAfter : Option WorkspaceRevision
deriving DecidableEq

inductive HumanStatus where
  | pending | answered | approved | rejected
deriving DecidableEq, Repr

structure HumanRequestRow where
  requestId : String
  key : StepKey
  gate : StepPauseGate
  status : HumanStatus
  responseValue : Option String
  createdAt : Nat
deriving DecidableEq

structure StallRow where
  round : Nat
  fingerprint : String
  signals : Json
deriving DecidableEq

structure EvidenceRow where
  key : StepKey
  evidence : Json
  decision : String
deriving DecidableEq

/-- The rows of one workflow, each list in creation order. -/
structure Db where
  wf : WorkflowRow
  steps : List StepRow
  events : List WorkflowEvent
  human : List HumanRequestRow
  stall : List StallRow
  evidence : List EvidenceRow
deriving DecidableEq

namespace Db

def step? (db : Db) (k : StepKey) : Option StepRow := db.steps.find? (fun r => r.key = k)

def human? (db : Db) (id : String) : Option HumanRequestRow :=
  db.human.find? (fun h => h.requestId = id)

/-- Change the row of one execution. -/
def setStep (db : Db) (k : StepKey) (f : StepRow → StepRow) : Db :=
  { db with steps := db.steps.map (fun r => if r.key = k then f r else r) }

def setHuman (db : Db) (id : String) (f : HumanRequestRow → HumanRequestRow) : Db :=
  { db with human := db.human.map (fun h => if h.requestId = id then f h else h) }

def setWf (db : Db) (f : WorkflowRow → WorkflowRow) : Db := { db with wf := f db.wf }

def append (db : Db) (ev : WorkflowEvent) : Db := { db with events := db.events ++ [ev] }

def isTerminal (db : Db) : Bool := isTerminalWorkflowStatus db.wf.status

end Db

def StepRow.fresh (k : StepKey) : StepRow :=
  ⟨k, none, .pending, none, none, none, none, none⟩

/-- `ORDER BY round ASC, created_at ASC`; rows are kept in creation order. -/
def listStepExecutions (db : Db) : List StepRow :=
  db.steps.mergeSort (fun a b => decide (a.key.round ≤ b.key.round))

/-- `ORDER BY round ASC`. -/
def listStallRounds (db : Db) : List String :=
  (db.stall.mergeSort (fun a b => decide (a.round ≤ b.round))).map StallRow.fingerprint

/-- The latest request by the wall clock that is pending, answered or approved (`ORDER BY created_at DESC LIMIT 1`),
    the first one of a time. -/
def getActiveHumanRequest (db : Db) : Option HumanRequestRow :=
  (db.human.filter (fun h => h.status ≠ .rejected)).argmax HumanRequestRow.createdAt

/-! ## Composites -/

def fault {α : Type} (code : StoreCode) (message : String) : Except StoreError α := .error ⟨code, message⟩

/-- `ready` to `running`, once. -/
def startWorkflowDurably (db : Db) (now : Nat) (ev : WorkflowEvent) : Except StoreError Db :=
  if db.wf.status = .running then .ok db
  else if db.wf.status ≠ .ready then fault .invalidTransition "workflow cannot start from this status"
  else .ok ((db.setWf (fun w =>
    { w with status := .running, startedAt := some (w.startedAt.getD now) })).append ev)

/-- The row of an execution, created if it is not there.  The workflow's status is not looked
    at. -/
def ensureStepStarted (db : Db) (k : StepKey) (ev : WorkflowEvent) : Except StoreError (Db × StepRow) :=
  match db.step? k with
  | some row => .ok (db, row)
  | none => .ok ((({ db with steps := db.steps ++ [StepRow.fresh k] }).setWf (fun w =>
    { w with currentStepId := some k.stepId })).append ev, StepRow.fresh k)

/-- Bind a task once and count it.  The workflow's status is not looked at. -/
def bindStepTaskOnce (db : Db) (k : StepKey) (taskId : String) (ev : WorkflowEvent) :
    Except StoreError Db :=
  match db.step? k with
  | none => fault .notFound "step execution not found"
  | some row =>
    if row.taskId = some taskId then .ok db
    else if row.taskId ≠ none then
      fault .invalidTransition "step is already bound to a different task"
    else .ok (((db.setStep k (fun r => { r with taskId := some taskId })).setWf (fun w =>
      { w with totalTasks := w.totalTasks + 1 })).append ev)

/-- Store the output and the context with it.  A step that ended otherwise keeps its status. -/
def completeStepAndCheckpoint (db : Db) (k : StepKey) (output : Json) (contextRevision : Nat)
    (context : List (String × Json)) (ev : WorkflowEvent) : Except StoreError Db :=
  match db.step? k with
  | none => fault .notFound "step execution not found"
  | some row =>
    if row.status = .completed then .ok db
    else if isTerminalStepStatus row.status then
      fault .invalidTransition "terminal step status cannot change"
    else if db.wf.contextRevision ≠ contextRevision then
      fault .revisionConflict "context revision conflict"
    else .ok (((db.setStep k (fun r => { r with status := .completed, output := some output })).setWf
      (fun w => { w with context := context, contextRevision := w.contextRevision + 1 })).append ev)

/-- Take an edge to a step: its events, the round when it is a loop edge, and the next row. -/
def advanceWorkflow (db : Db) (edgeEv : WorkflowEvent) (roundEv : Option WorkflowEvent) (next : StepKey)
    (startedEv : WorkflowEvent) : Except StoreError Db :=
  match db.step? next with
  | some _ => .ok db
  | none =>
    if roundEv.isSome ∧ next.round < db.wf.currentRound then
      fault .invalidTransition "current_round cannot decrease"
    else
      let db' := { db with
        steps := db.steps ++ [StepRow.fresh next]
        events := db.events ++ edgeEv :: roundEv.toList }
      .ok ((db'.setWf (fun w => { w with
        currentRound := if roundEv.isSome then next.round else w.currentRound
        currentStepId := some next.stepId })).append startedEv)

/-- End or block a workflow that has not ended. -/
def terminalizeWorkflow (db : Db) (status : WorkflowStatus) (edgeEv : Option WorkflowEvent)
    (ev : WorkflowEvent) : Db :=
  if db.wf.status = status ∨ db.isTerminal then db
  else (({ db with events := db.events ++ edgeEv.toList }).setWf (fun w =>
    { w with status := status })).append ev

/-- Fail a step that has not ended, whatever the workflow's status. -/
def failStep (db : Db) (k : StepKey) (row : StepRow) (stepEv : WorkflowEvent) (error : Json) : Db :=
  if isTerminalStepStatus row.status then db
  else ((db.setStep k (fun r => { r with status := .failed, error := some error })).setWf (fun w =>
    { w with totalFailures := w.totalFailures + 1 })).append stepEv

def failStepAndWorkflow (db : Db) (k : StepKey) (stepEv ev : WorkflowEvent) (error : Json) :
    Except StoreError Db :=
  match db.step? k with
  | none => fault .notFound "step execution not found"
  | some row =>
    let db' := failStep db k row stepEv error
    if db'.isTerminal then .ok db'
    else .ok ((db'.setWf (fun w => { w with status := .failed })).append ev)

def recordCancellationIntent (db : Db) : Db :=
  if db.wf.cancelRequested ∨ db.isTerminal then db
  else db.setWf (fun w => { w with cancelRequested := true })

/-- Cancel a step that has not ended. -/
def cancelStep (db : Db) (k : StepKey) : Db :=
  db.setStep k (fun r => if isTerminalStepStatus r.status then r else { r with status := .cancelled })

def cancelStepAndWorkflow (db : Db) (k : Option StepKey) (ev : WorkflowEvent) : Db :=
  if db.isTerminal then db
  else (((match k with | some k => cancelStep db k | none => db).setWf (fun w =>
    { w with status := .cancelled })).append ev)

/-! ## Human requests, stall rounds, evidence -/

def createHumanRequestAndPause (db : Db) (id : String) (k : StepKey) (gate : StepPauseGate)
    (ev : WorkflowEvent) (now : Nat) : Except StoreError Db :=
  let asked : Except StoreError Db := match db.human? id with
    | some _ => .ok db
    | none =>
      match db.step? k with
      | none => fault .notFound "step execution not found"
      | some _ => .ok { db with human := db.human ++ [⟨id, k, gate, .pending, none, now⟩] }
  match asked with
  | .error e => .error e
  | .ok db' =>
    if db'.wf.status = .running then
      .ok ((db'.setWf (fun w => { w with status := match gate.kind with
        | .input => .waitingInput
        | .approval => .waitingApproval })).append ev)
    else .ok db'

/-- An input answer, once; a different one is refused. -/
def answerHumanRequestInput (db : Db) (id value : String) : Except StoreError Db :=
  match db.human? id with
  | none => fault .notFound "human request not found"
  | some h =>
    if h.gate.kind ≠ .input then fault .invalidTransition "request is not an input request"
    else if h.status = .answered then
      if h.responseValue = some value then .ok db
      else fault .invalidTransition "conflicting input response"
    else if h.status ≠ .pending then fault .invalidTransition "cannot answer this request"
    else .ok (db.setHuman id (fun h => { h with status := .answered, responseValue := some value }))

def approveHumanRequest (db : Db) (id : String) : Except StoreError Db :=
  match db.human? id with
  | none => fault .notFound "human request not found"
  | some h =>
    if h.gate.kind ≠ .approval then fault .invalidTransition "request is not an approval request"
    else if h.status = .approved then .ok db
    else if h.status = .rejected then fault .invalidTransition "request was already rejected"
    else if h.status ≠ .pending then fault .invalidTransition "cannot approve this request"
    else .ok (db.setHuman id (fun h => { h with status := .approved }))

/-- A rejection fails the workflow in the same transaction. -/
def rejectHumanRequestAndFailWorkflow (db : Db) (id : String) (ev : WorkflowEvent) :
    Except StoreError Db :=
  match db.human? id with
  | none => fault .notFound "human request not found"
  | some h =>
    if h.gate.kind ≠ .approval then fault .invalidTransition "request is not an approval request"
    else if h.status = .approved then fault .invalidTransition "request was already approved"
    else if h.status ≠ .rejected ∧ h.status ≠ .pending then
      fault .invalidTransition "cannot reject this request"
    else
      let db' := db.setHuman id (fun h => { h with status := .rejected })
      if db.isTerminal then .ok db'
      else .ok ((db'.setWf (fun w => { w with status := .failed })).append ev)

def resumeWorkflowRunning (db : Db) (ev : WorkflowEvent) : Except StoreError Db :=
  if db.wf.status = .running then .ok db
  else if db.wf.status ≠ .waitingInput ∧ db.wf.status ≠ .waitingApproval then
    fault .invalidTransition "cannot resume from this status"
  else .ok ((db.setWf (fun w => { w with status := .running })).append ev)

/-- First write wins. -/
def recordCompletionEvidence (db : Db) (k : StepKey) (evidence : Json) (decision : String) :
    Except StoreError Db :=
  if db.evidence.any (fun e => e.key = k) then .ok db
  else match db.step? k with
    | none => fault .notFound "step execution not found"
    | some _ => .ok { db with evidence := db.evidence ++ [⟨k, evidence, decision⟩] }

/-- First write wins. -/
def recordStallRound (db : Db) (round : Nat) (fingerprint : String) (signals : Json) : Db :=
  if db.stall.any (fun s => s.round = round) then db
  else { db with stall := db.stall ++ [⟨round, fingerprint, signals⟩] }

/-- The first timestamp stays. -/
def markStepAwaitingResult (db : Db) (k : StepKey) (now : Nat) : Except StoreError (Db × Nat) :=
  match db.step? k with
  | none => fault .notFound "step execution not found"
  | some row =>
    let since := row.resultAwaitedSince.getD now
    .ok (db.setStep k (fun r => { r with resultAwaitedSince := some since }), since)

def setStepRevisionBefore (db : Db) (k : StepKey) (rev : WorkspaceRevision) : Except StoreError Db :=
  match db.step? k with
  | none => fault .notFound "step execution not found"
  | some _ => .ok (db.setStep k (fun r => { r with revisionBefore := some rev }))

def setStepRevisionAfter (db : Db) (k : StepKey) (rev : WorkspaceRevision) : Except StoreError Db :=
  match db.step? k with
  | none => fault .notFound "step execution not found"
  | some _ => .ok (db.setStep k (fun r => { r with revisionAfter := some rev }))

/-! ## Reading back -/

section

variable (db : Db) (k : StepKey) (f : StepRow → StepRow) (g : WorkflowRow → WorkflowRow)
  (h : HumanRequestRow → HumanRequestRow) (ev : WorkflowEvent) (id : String)

@[simp] theorem Db.setStep_wf : (db.setStep k f).wf = db.wf := rfl
@[simp] theorem Db.setStep_events : (db.setStep k f).events = db.events := rfl
@[simp] theorem Db.setStep_human : (db.setStep k f).human = db.human := rfl
@[simp] theorem Db.setStep_stall : (db.setStep k f).stall = db.stall := rfl
@[simp] theorem Db.setStep_evidence : (db.setStep k f).evidence = db.evidence := rfl

@[simp] theorem Db.setWf_wf : (db.setWf g).wf = g db.wf := rfl
@[simp] theorem Db.setWf_steps : (db.setWf g).steps = db.steps := rfl
@[simp] theorem Db.setWf_events : (db.setWf g).events = db.events := rfl
@[simp] theorem Db.setWf_human : (db.setWf g).human = db.human := rfl
@[simp] theorem Db.setWf_stall : (db.setWf g).stall = db.stall := rfl
@[simp] theorem Db.setWf_evidence : (db.setWf g).evidence = db.evidence := rfl

@[simp] theorem Db.append_wf : (db.append ev).wf = db.wf := rfl
@[simp] theorem Db.append_steps : (db.append ev).steps = db.steps := rfl
@[simp] theorem Db.append_events : (db.append ev).events = db.events ++ [ev] := rfl
@[simp] theorem Db.append_human : (db.append ev).human = db.human := rfl
@[simp] theorem Db.append_stall : (db.append ev).stall = db.stall := rfl
@[simp] theorem Db.append_evidence : (db.append ev).evidence = db.evidence := rfl

@[simp] theorem Db.setHuman_wf : (db.setHuman id h).wf = db.wf := rfl
@[simp] theorem Db.setHuman_steps : (db.setHuman id h).steps = db.steps := rfl
@[simp] theorem Db.setHuman_events : (db.setHuman id h).events = db.events := rfl
@[simp] theorem Db.setHuman_stall : (db.setHuman id h).stall = db.stall := rfl
@[simp] theorem Db.setHuman_evidence : (db.setHuman id h).evidence = db.evidence := rfl

@[simp] theorem Db.setWf_step? (k' : StepKey) : (db.setWf g).step? k' = db.step? k' := rfl
@[simp] theorem Db.append_step? (k' : StepKey) : (db.append ev).step? k' = db.step? k' := rfl
@[simp] theorem Db.setHuman_step? (k' : StepKey) : (db.setHuman id h).step? k' = db.step? k' := rfl
@[simp] theorem Db.setStep_human? (id' : String) : (db.setStep k f).human? id' = db.human? id' := rfl
@[simp] theorem Db.setWf_human? (id' : String) : (db.setWf g).human? id' = db.human? id' := rfl
@[simp] theorem Db.append_human? (id' : String) : (db.append ev).human? id' = db.human? id' := rfl

end

theorem Db.step?_key {db : Db} {k : StepKey} {row : StepRow} (h : db.step? k = some row) :
    row.key = k := by
  have := List.find?_some h
  simpa using this

theorem Db.step?_mem {db : Db} {k : StepKey} {row : StepRow} (h : db.step? k = some row) :
    row ∈ db.steps :=
  List.mem_of_find?_eq_some h

/-- A row whose key is not taken joins rows of distinct keys. -/
theorem nodup_snoc {α κ : Type} {key : α → κ} {rows : List α} {row : α} (h : (rows.map key).Nodup)
    (hnew : ∀ r ∈ rows, key r ≠ key row) : ((rows ++ [row]).map key).Nodup := by
  rw [List.map_append, List.nodup_append]
  refine ⟨h, List.nodup_singleton _, ?_⟩
  intro a ha b hb hab
  obtain ⟨r, hr, rfl⟩ := List.mem_map.mp ha
  rw [List.map_singleton, List.mem_singleton] at hb
  exact hnew r hr (hab.trans hb)

theorem mem_snoc {α : Type} {a b : α} {as : List α} : a ∈ as ++ [b] ↔ a ∈ as ∨ a = b := by
  rw [List.mem_append, List.mem_singleton]

/-- Changing rows without their keys changes what a lookup finds. -/
theorem find_change {α κ : Type} [DecidableEq κ] (key : α → κ) (rows : List α) (k k' : κ) {f : α → α}
    (hf : ∀ r, key (f r) = key r) :
    (rows.map (fun r => if key r = k then f r else r)).find? (fun r => key r = k')
      = (rows.find? (fun r => key r = k')).map (fun r => if key r = k then f r else r) := by
  rw [List.find?_map]
  have hkey : ∀ r, key (if key r = k then f r else r) = key r := by
    intro r
    split
    · exact hf r
    · rfl
  have hp : ((fun r => decide (key r = k')) ∘ fun r => if key r = k then f r else r)
      = fun r => decide (key r = k') := by
    funext r
    simp only [Function.comp, hkey]
  rw [hp]

theorem Db.step?_setStep (db : Db) (k k' : StepKey) {f : StepRow → StepRow}
    (hf : ∀ r, (f r).key = r.key) :
    (db.setStep k f).step? k' = (db.step? k').map (fun r => if r.key = k then f r else r) :=
  find_change StepRow.key db.steps k k' hf

/-- A row added at the end is found where no earlier one is. -/
theorem Db.step?_concat {db db' : Db} {r : StepRow} (h : db'.steps = db.steps ++ [r])
    (k : StepKey) : db'.step? k = (db.step? k).or (if r.key = k then some r else none) := by
  show db'.steps.find? _ = (db.steps.find? _).or _
  rw [h, List.find?_append]
  congr 1
  by_cases hk : r.key = k <;> simp [hk]

theorem Db.human?_setHuman (db : Db) (id id' : String) {f : HumanRequestRow → HumanRequestRow}
    (hf : ∀ h, (f h).requestId = h.requestId) :
    (db.setHuman id f).human? id' = (db.human? id').map (fun h => if h.requestId = id then f h else h) :=
  find_change HumanRequestRow.requestId db.human id id' hf

theorem Db.human?_mem {db : Db} {id : String} {h : HumanRequestRow} (hh : db.human? id = some h) :
    h ∈ db.human ∧ h.requestId = id := by
  refine ⟨List.mem_of_find?_eq_some hh, ?_⟩
  have := List.find?_some hh
  simpa using this

/-! ## Ids -/

/-- Up to the first dot, and from it on. -/
theorem append_dot_inj {a b u v : List Char} (ha : '.' ∉ a) (hb : '.' ∉ b)
    (h : a ++ '.' :: u = b ++ '.' :: v) : a = b ∧ u = v := by
  induction a generalizing b with
  | nil =>
    cases b with
    | nil => exact ⟨rfl, by simpa using h⟩
    | cons c b =>
      simp only [List.nil_append, List.cons_append, List.cons.injEq] at h
      exact absurd (h.1 ▸ List.mem_cons_self) hb
  | cons c a ih =>
    cases b with
    | nil =>
      simp only [List.nil_append, List.cons_append, List.cons.injEq] at h
      exact absurd (h.1 ▸ List.mem_cons_self) ha
    | cons d b =>
      simp only [List.cons_append, List.cons.injEq] at h
      obtain ⟨h1, h2⟩ := ih (fun hm => ha (List.mem_cons_of_mem _ hm))
        (fun hm => hb (List.mem_cons_of_mem _ hm)) h.2
      exact ⟨by rw [h.1, h1], h2⟩

/-- **Distinct executions have distinct ids**, when step names have no dots. -/
theorem stepExecutionId_inj {workflowId : String} {k k' : StepKey} (hk : '.' ∉ k.stepId.toList)
    (hk' : '.' ∉ k'.stepId.toList)
    (h : stepExecutionId workflowId k = stepExecutionId workflowId k') : k = k' := by
  have hl := congrArg String.toList h
  simp only [stepExecutionId, String.toList_append, List.append_assoc, List.append_cancel_left_eq] at hl
  obtain ⟨hid, hround⟩ := append_dot_inj hk hk' (u := 'r' :: ((toString k.round).toList ++ ".a1".toList))
    (v := 'r' :: ((toString k'.round).toList ++ ".a1".toList)) (by simpa using hl)
  have hrep : (toString k.round).toList = (toString k'.round).toList := by
    simpa using hround
  have hdigits : Nat.toDigits 10 k.round = Nat.toDigits 10 k'.round := by
    rw [← Nat.toList_repr, ← Nat.toList_repr]
    exact hrep
  have hnat : k.round = k'.round := by
    have := congrArg (fun ds => Nat.ofDigitChars 10 ds 0) hdigits
    simpa using this
  cases k with
  | mk s r =>
    cases k' with
    | mk s' r' =>
      simp only [StepKey.mk.injEq]
      exact ⟨String.toList_inj.mp hid, hnat⟩

end VibeControl
