import VibeWorkflow.EffectProofs

/-!
# What the pump owns, and why it writes

Only the pump starts, binds, completes and advances executions, so while it is suspended nobody
changes what it read of them: that part of the rows is `owned`.  What others may do to the world
meanwhile is `Rely`.  `Justified` says for each write of the pump why it is made, in terms of
the state it is made in; it is the specification the driver's code is checked against.

* **`Mono`** — what no step of the system ever takes back.
* **`Rely`** — what the pump may assume of everybody else.
* **`CoreInv`** — the invariant the driver's own decisions rest on.
* **`Justified`** — the guard of each write.
-/

namespace VibeRuntime

open VibeJson VibeContract VibeRouting VibeTemplate VibeValidator VibeStore VibeAdmission VibeControl
open AsyncLogic

/-! ## Owned data -/

/-- A row as the pump owns it: others may end it, and its error, timestamps and revisions are
    not part of the driver's decisions. -/
def maskRow (r : StepRow) : StepRow :=
  { r with
    status := if r.status = .completed then .completed else .pending
    error := none
    resultAwaitedSince := none
    revisionBefore := none
    revisionAfter := none }

structure Owned where
  currentStepId : Option String
  currentRound : Nat
  totalTasks : Nat
  context : List (String × Json)
  contextRevision : Nat
  steps : List StepRow
  stall : List StallRow

def owned (db : Db) : Owned :=
  ⟨db.wf.currentStepId, db.wf.currentRound, db.wf.totalTasks, db.wf.context, db.wf.contextRevision,
    db.steps.map maskRow, db.stall⟩

namespace Owned

def step? (O : Owned) (k : StepKey) : Option StepRow := O.steps.find? (fun r => r.key = k)

/-- The current execution. -/
def cur (cfg : Config) (O : Owned) : StepKey :=
  ⟨O.currentStepId.getD cfg.spec.entryStep, O.currentRound⟩

end Owned

@[simp] theorem maskRow_key (r : StepRow) : (maskRow r).key = r.key := rfl

@[simp] theorem maskRow_taskId (r : StepRow) : (maskRow r).taskId = r.taskId := rfl

@[simp] theorem maskRow_output (r : StepRow) : (maskRow r).output = r.output := rfl

@[simp] theorem maskRow_completed (r : StepRow) :
    (maskRow r).status = .completed ↔ r.status = .completed := by
  by_cases h : r.status = .completed <;> simp [maskRow, h]

theorem outputObject_mask (r : StepRow) : outputObject (maskRow r) = outputObject r := rfl

theorem completedOutput_mask (r : StepRow) : completedOutput (maskRow r) = completedOutput r := by
  by_cases h : r.status = .completed <;> simp [completedOutput, maskRow, h]

/-- Looking an execution up commutes with masking. -/
theorem owned_step? (db : Db) (k : StepKey) : (owned db).step? k = (db.step? k).map maskRow := by
  show (db.steps.map maskRow).find? (fun r => r.key = k) = (db.steps.find? (fun r => r.key = k)).map maskRow
  rw [List.find?_map]
  rfl

/-- The outputs a prompt may use are owned. -/
theorem listed_outputs (db : Db) : (listStepExecutions db).filterMap completedOutput
    = ((owned db).steps.mergeSort (fun a b => decide (a.key.round ≤ b.key.round))).filterMap
        completedOutput := by
  have hsort : (db.steps.map maskRow).mergeSort (fun a b => decide (a.key.round ≤ b.key.round))
      = (listStepExecutions db).map maskRow :=
    (List.map_mergeSort (f := maskRow) (r := fun a b => decide (a.key.round ≤ b.key.round))
      (fun _ _ _ _ => rfl)).symm
  show _ = ((db.steps.map maskRow).mergeSort _).filterMap completedOutput
  rw [hsort, List.filterMap_map]
  exact List.filterMap_congr (fun r _ => (completedOutput_mask r).symm)

/-! ## What is never taken back -/

/-- Why a cancellation may be under way. -/
def CancelReason (w : World) : Prop := w.cancelCalled = true ∨ w.stopCancel = true

/-- Some execution has been waiting for its result since `t`. -/
def AwaitedSince (w : World) (t : Nat) : Prop :=
  ∃ k r, w.db.step? k = some r ∧ r.resultAwaitedSince = some t

structure Mono (w w' : World) : Prop where
  cancel : CancelReason w → CancelReason w'
  terminal : w.db.isTerminal = true → w'.db.wf.status = w.db.wf.status
  accepted : w.cancelAccepted ⊆ w'.cancelAccepted
  failed : w.cancelFailed ⊆ w'.cancelFailed
  log : w.log ⊆ w'.log
  tasks : ∀ t ∈ w.tasks, ∃ t' ∈ w'.tasks, t'.id = t.id ∧ t'.request = t.request ∧
    (t.status.isTerminal = true → t'.status = t.status)
  started : ∀ t, w.db.wf.startedAt = some t → w'.db.wf.startedAt = some t
  awaited : ∀ t, AwaitedSince w t → AwaitedSince w' t
  human : ∀ id h, w.db.human? id = some h → h.status ≠ .pending → w'.db.human? id = some h
  now : w.now ≤ w'.now

theorem Mono.refl (w : World) : Mono w w :=
  ⟨id, fun _ => rfl, List.Subset.refl _, List.Subset.refl _, List.Subset.refl _,
    fun t ht => ⟨t, ht, rfl, rfl, fun _ => rfl⟩, fun _ h => h, fun _ h => h, fun _ _ h _ => h,
    Nat.le_refl _⟩

theorem Mono.isTerminal {w w' : World} (h : Mono w w') (ht : w.db.isTerminal = true) :
    w'.db.isTerminal = true := by
  unfold Db.isTerminal at ht ⊢
  rw [h.terminal ht]
  exact ht

theorem Mono.trans {a b c : World} (hab : Mono a b) (hbc : Mono b c) : Mono a c where
  cancel := fun h => hbc.cancel (hab.cancel h)
  terminal := fun h => (hbc.terminal (hab.isTerminal h)).trans (hab.terminal h)
  accepted := List.Subset.trans hab.accepted hbc.accepted
  failed := List.Subset.trans hab.failed hbc.failed
  log := List.Subset.trans hab.log hbc.log
  tasks := by
    intro t ht
    obtain ⟨t', ht', hid, hreq, hst⟩ := hab.tasks t ht
    obtain ⟨t'', ht'', hid', hreq', hst'⟩ := hbc.tasks t' ht'
    refine ⟨t'', ht'', hid'.trans hid, hreq'.trans hreq, ?_⟩
    intro hterm
    have h1 := hst hterm
    rw [← h1]
    exact hst' (by rw [h1]; exact hterm)
  started := fun t h => hbc.started t (hab.started t h)
  awaited := fun t h => hbc.awaited t (hab.awaited t h)
  human := fun id h hh hp => hbc.human id h (hab.human id h hh hp) hp
  now := Nat.le_trans hab.now hbc.now

/-! ## What others may do while a pump is suspended -/

structure Rely (w w' : World) : Prop extends Mono w w' where
  owned : owned w'.db = owned w.db
  noHuman : ∀ id, w.db.human? id = none → w'.db.human? id = none
  notRunning : w.db.wf.status ≠ .running → w'.db.wf.status ≠ .running ∨ w'.restarted = true
  restarted : w.restarted = true → w'.restarted = true
  stopped : w.stopped = true → w'.stopped = true

theorem Rely.refl (w : World) : Rely w w :=
  ⟨Mono.refl w, rfl, fun _ h => h, fun h => Or.inl h, id, id⟩

theorem Rely.trans {a b c : World} (hab : Rely a b) (hbc : Rely b c) : Rely a c where
  toMono := hab.toMono.trans hbc.toMono
  owned := hbc.owned.trans hab.owned
  noHuman := fun id h => hbc.noHuman id (hab.noHuman id h)
  notRunning := by
    intro h
    rcases hab.notRunning h with h | h
    · exact hbc.notRunning h
    · exact Or.inr (hbc.restarted h)
  restarted := fun h => hbc.restarted (hab.restarted h)
  stopped := fun h => hbc.stopped (hab.stopped h)

/-! ## The core invariant -/

/-- Does an execution's step have a pause gate? -/
def gateOf (cfg : Config) (k : StepKey) : Option StepPauseGate :=
  (stepAndRole cfg.spec k).bind (fun s => s.1.pauseBefore)

/-- The requests have distinct ids, each its execution's, and its execution's gate. -/
structure HumanRows (cfg : Config) (rows : List HumanRequestRow) : Prop where
  ids : (rows.map HumanRequestRow.requestId).Nodup
  gate : ∀ h ∈ rows, h.requestId = cfg.humanRequestId h.key ∧ gateOf cfg h.key = some h.gate

/-- Some execution takes a workspace lease. -/
def Leases (cfg : Config) : Prop := ∃ k, (stepLeaseTarget cfg cfg.spec k).isSome

structure CoreInv (cfg : Config) (w : World) : Prop where
  keys : (w.db.steps.map StepRow.key).Nodup
  abort : w.aborted = true → w.stopped = true ∨ CancelReason w ∨ w.db.isTerminal = true
  intent : w.db.wf.cancelRequested = true → CancelReason w
  stepEnded : ∀ r ∈ w.db.steps, isTerminalStepStatus r.status = true → r.status ≠ .completed →
    w.db.isTerminal = true
  human : HumanRows cfg w.db.human
  revisions : ¬ Leases cfg → ∀ r ∈ w.db.steps,
    r.revisionBefore = none ∧ r.revisionAfter = none

/-! ## Guards -/

/-- The pump is at an execution whose owned row is `row`. -/
structure AtStep (cfg : Config) (w : World) (k : StepKey) (row : StepRow) : Prop where
  cur : (owned w.db).cur cfg = k
  row : (owned w.db).step? k = some row

/-- At an execution that has no task yet. -/
def AtUnbound (cfg : Config) (w : World) (k : StepKey) : Prop :=
  ∃ row, AtStep cfg w k row ∧ row.status ≠ .completed ∧ row.taskId = none

/-- At an execution that has a task and no output yet. -/
def AtBound (cfg : Config) (w : World) (k : StepKey) (taskId : String) : Prop :=
  ∃ row, AtStep cfg w k row ∧ row.status ≠ .completed ∧ row.taskId = some taskId

/-- At an execution that left an output object. -/
def AtOutput (cfg : Config) (w : World) (k : StepKey) (output : Json) : Prop :=
  ∃ row, AtStep cfg w k row ∧ row.status = .completed ∧ outputObject row = some output

/-- The scope an execution's templates are rendered in. -/
def scopeAt (cfg : Config) (w : World) (k : StepKey) : RenderScope :=
  renderScopeOf cfg k w.db.wf.context (listStepExecutions w.db) (w.db.human? (cfg.humanRequestId k))

/-- The request of an execution's task, if its templates render. -/
def requestOf (cfg : Config) (w : World) (k : StepKey) : Option AgentTaskCreateRequest :=
  (stepAndRole cfg.spec k).bind (fun s =>
    match renderStep s.1 (scopeAt cfg w k) with
    | .ok out => some (requestFor cfg cfg.spec k s.1 s.2 out.1 out.2)
    | .error _ => none)

/-- The pause gate of an execution, if it has one, has its response. -/
def PauseOk (cfg : Config) (w : World) (k : StepKey) : Prop :=
  (gateOf cfg k).isSome → ∃ h, w.db.human? (cfg.humanRequestId k) = some h ∧
    (h.status = .answered ∨ h.status = .approved)

/-- There is room for one more task. -/
def TaskRoom (cfg : Config) (w : World) : Prop := w.db.wf.totalTasks < cfg.spec.limits.maxTasks

/-- A report on a task with a completed status, and a later one with its result. -/
structure ResultRead (w : World) (taskId : String) (r : TerminalRead) : Prop where
  read : .read r ∈ w.log
  task : r.taskId = taskId
  completed : ∃ r₀, .read r₀ ∈ w.log ∧ r₀.taskId = taskId ∧ r₀.status = .completed

/-- The answer an evidence read was given, with a failed read counting as none. -/
def TaskRowRead (w : World) (taskId : String) (st : Option String) : Prop :=
  .taskRow taskId st ∈ w.log ∨ (.unread taskId ∈ w.log ∧ st = none)

def TaskResultRead (w : World) (taskId : String) (r : Option TaskResult) : Prop :=
  .taskResult taskId r ∈ w.log ∨ (.unread taskId ∈ w.log ∧ r = none)

/-- The evidence a completing execution was judged on. -/
def EvidenceRead (cfg : Config) (w : World) (taskId : Option String) (e : VerifiedEvidence) : Prop :=
  ∃ st r before after, e = assembleEvidence cfg st r before after ∧
    (¬ Leases cfg → before = none ∧ after = none) ∧
    (match taskId with
      | none => st = none ∧ r = none
      | some t => TaskRowRead w t st ∧ TaskResultRead w t r)

/-- The workspace signal of a looped round. -/
def LeaseHashRead (w : World) (h : String) : Prop :=
  h = "none" ∨ ∃ r, .leases r ∈ w.log ∧ h = workspaceHash r

/-- The verified-evidence signal of a looped round. -/
def ContentHashRead (w : World) (stepId : String) (h : Option String) : Prop :=
  match (latestOther (listStepExecutions w.db) stepId).bind StepRow.taskId with
  | none => h = none
  | some t => ∃ r, TaskResultRead w t r ∧ h = r.bind TaskResult.contentHash

/-- A looped round's signals, as observed. -/
def StallRead (cfg : Config) (w : World) (policy : StallPolicy) (k : StepKey) (output : Json)
    (fp : String) (values : Json) : Prop :=
  ∃ wsRev verified, LeaseHashRead w wsRev ∧ ContentHashRead w k.stepId verified ∧
    values = stallSignalValues w.db.wf.context output wsRev (verified.getD "none") ∧
    fp = computeStallFingerprint cfg policy.signals values

/-- The edge a completed execution leads along. -/
structure Routed (cfg : Config) (w : World) (k : StepKey) (output : Json) (d : RoutingDecision) :
    Prop where
  left : AtOutput cfg w k output
  edge : selectEdge cfg.spec k.stepId output k.round = .ok d

/-- A loop edge that may be taken. -/
structure Looped (cfg : Config) (w : World) (k : StepKey) (output : Json) (d : RoutingDecision) :
    Prop extends Routed cfg w k output d where
  step : d.terminal = false
  loop : d.edgeKind = .loop
  room : canTakeLoopEdge k.round (cfg.spec.limits.maxRounds.getD 0) = true

/-- This round's fingerprint is recorded. -/
def StallRecorded (w : World) (round : Nat) : Prop := ∃ s ∈ w.db.stall, s.round = round

/-- The event `failWorkflow` writes. -/
def failedEvent (code : String) (info : List (String × Json)) : WorkflowEvent :=
  wfEvent .workflowFailed (spread [("reason", .str code)] info)

/-- The failure of an execution whose step or role the spec does not have. -/
def unknownStepEvent (k : StepKey) : WorkflowEvent :=
  failedEvent "runtime_internal" [("reason", .str "unknown_step_or_role"), stepIdProp k]

/-- The failure of a completed execution that left no object. -/
def missingOutputEvent (k : StepKey) : WorkflowEvent :=
  failedEvent "runtime_internal" [("reason", .str "missing_step_output"), stepIdProp k]

/-- Why the pump ends, blocks or limits a workflow, with the events it writes. -/
inductive EndReason (cfg : Config) (w : World) :
    WorkflowStatus → Option WorkflowEvent → WorkflowEvent → Prop where
  | badSpec (h : cfg.loaded = none) : EndReason cfg w .failed none
      (failedEvent "runtime_internal" [("reason", .str "invalid_persisted_spec")])
  | deadline (h : deadlineExceeded cfg w.db.wf w.now = true) :
      EndReason cfg w .failed none (limitEvent "max_runtime_seconds")
  | maxTasks {k : StepKey} (h : AtUnbound cfg w k) (hroom : ¬ TaskRoom cfg w) :
      EndReason cfg w .failed none (limitEvent "max_tasks")
  | unknownStep {k : StepKey} (h : AtUnbound cfg w k) (hstep : stepAndRole cfg.spec k = none) :
      EndReason cfg w .failed none (unknownStepEvent k)
  | rejected {k : StepKey} (hg : (gateOf cfg k).isSome) : EndReason cfg w .failed none
      (failedEvent "runtime_internal" [("reason", .str "approval_rejected"), stepIdProp k])
  | render {k : StepKey} {s : AgentTaskStep} {r : WorkflowAgentRole} {e : RenderError}
      (h : AtUnbound cfg w k) (hroom : TaskRoom cfg w)
      (hstep : stepAndRole cfg.spec k = some (s, r))
      (hr : renderStep s (scopeAt cfg w k) = .error e) :
      EndReason cfg w .failed none (failedEvent "render_error" [("code", .str e.code.name), stepIdProp k])
  | createFailed {k : StepKey} (h : .createFailed ∈ w.log) : EndReason cfg w .failed none
      (failedEvent "runtime_internal" [("reason", .str "task_create_failed"), stepIdProp k])
  | resultMissing {k : StepKey} {t : String} {r : TerminalRead} {ev : WorkflowEvent}
      (h : AtBound cfg w k t) (hr : ResultRead w t r) (hs : r.resultStatus = .missing)
      (hev : ev.type = .workflowBlocked) : EndReason cfg w .blocked none ev
  | resultTimeout {k : StepKey} {t : String} {since : Nat} {ev : WorkflowEvent}
      (h : AtBound cfg w k t) (hs : AwaitedSince w since)
      (hlate : since + cfg.resultIngestionDeadlineMs < w.now) (hev : ev.type = .workflowBlocked) :
      EndReason cfg w .blocked none ev
  | noOutput {k : StepKey} {row : StepRow} (h : AtStep cfg w k row)
      (hc : row.status = .completed) (ho : outputObject row = none) :
      EndReason cfg w .failed none (missingOutputEvent k)
  | routing {k : StepKey} {output : Json} {e : RoutingError} (h : AtOutput cfg w k output)
      (he : selectEdge cfg.spec k.stepId output k.round = .error e) :
      EndReason cfg w .failed none
        (failedEvent (match e.code with | .noEdge => "routing_no_edge" | .ambiguous => "routing_ambiguous")
          [stepIdProp k])
  | routed {k : StepKey} {output : Json} {d : RoutingDecision} (h : Routed cfg w k output d)
      (ht : d.terminal = true)
      (hp : terminalTargetToStatus d.target ≠ .completed ∨ cfg.spec.completionPolicy = none) :
      EndReason cfg w (terminalTargetToStatus d.target)
        (some (wfEvent .edgeSelected [("to", .str d.target)]))
        (routedEvent (terminalTargetToStatus d.target))
  | gated {k : StepKey} {row : StepRow} {output : Json} {d : RoutingDecision}
      {policy : CompletionPolicy} {e : VerifiedEvidence} (h : Routed cfg w k output d)
      (hrow : AtStep cfg w k row) (ht : d.terminal = true)
      (hs : terminalTargetToStatus d.target = .completed)
      (hp : cfg.spec.completionPolicy = some policy) (he : EvidenceRead cfg w row.taskId e) :
      EndReason cfg w
        (completionStatus (evaluateCompletion policy e (declaredRemainingWork output)))
        (some (gatedEdgeEvent d.target))
        (completionEvent (evaluateCompletion policy e (declaredRemainingWork output)))
  | maxRounds {k : StepKey} {output : Json} {d : RoutingDecision} (h : Routed cfg w k output d)
      (ht : d.terminal = false) (hl : d.edgeKind = .loop)
      (hroom : canTakeLoopEdge k.round (cfg.spec.limits.maxRounds.getD 0) = false) :
      EndReason cfg w .failed none (limitEvent "max_rounds")
  | noProgress {k : StepKey} {output : Json} {d : RoutingDecision} {policy : StallPolicy}
      {ev : WorkflowEvent} (h : Looped cfg w k output d) (hp : cfg.spec.stallPolicy = some policy)
      (hrec : StallRecorded w k.round)
      (hs : isStalled (listStallRounds w.db) policy.maxStalledRounds = true)
      (hev : ev.type = .workflowBlocked) : EndReason cfg w .blocked none ev
  | revisionConflict {ev : WorkflowEvent} (h : Leases cfg)
      (hev : ev.type = .workflowBlocked) : EndReason cfg w .blocked none ev

/-- Why the pump fails a step. -/
inductive FailReason (cfg : Config) (w : World) (k : StepKey) (t : String) : Prop where
  | task {r : TerminalRead} (h : .read r ∈ w.log) (ht : r.taskId = t)
      (hs : r.status = .failed ∨ r.status = .cancelled)
  | invalid {r : TerminalRead} (h : ResultRead w t r) (hs : r.resultStatus = .invalid)
  | output {r : TerminalRead} {e : OutputError} (h : ResultRead w t r)
      (hs : r.resultStatus = .available) (ht : r.resultText.isSome)
      (he : parseResultOutput cfg (r.resultText.getD "") k.stepId = .error e)

/-- The guard of each call of the pump. -/
def Justified (cfg : Config) (op : Op) (w : World) : Prop :=
  match op with
  | .ensureStepStarted k ev => (owned w.db).cur cfg = k ∧ ev = startedEvent k
  | .createTask req => ∃ k, AtUnbound cfg w k ∧ TaskRoom cfg w ∧ PauseOk cfg w k ∧
      requestOf cfg w k = some req
  | .bindStepTaskOnce k taskId ev => AtUnbound cfg w k ∧ TaskRoom cfg w ∧
      (∃ t ∈ w.tasks, t.id = taskId ∧ t.request.idempotencyKey = cfg.sec k) ∧
      ev = taskCreatedEvent k taskId
  | .completeStep k output revision context ev => ∃ t r, AtBound cfg w k t ∧ ResultRead w t r ∧
      r.resultStatus = .available ∧ r.resultText.isSome ∧
      parseResultOutput cfg (r.resultText.getD "") k.stepId = .ok output ∧
      revision = w.db.wf.contextRevision ∧
      context = buildUpdatedContext w.db.wf.context w.db.wf.currentRound
        ((cfg.spec.step? k.stepId).bind AgentTaskStep.contextBinding) output t r.historyComplete ∧
      ev.type = .stepCompleted
  | .advance edgeEv roundEv next startedEv => ∃ k output d, Routed cfg w k output d ∧
      d.terminal = false ∧
      (d.edgeKind = .loop → Looped cfg w k output d ∧ ∀ policy, cfg.spec.stallPolicy = some policy →
        StallRecorded w k.round ∧ isStalled (listStallRounds w.db) policy.maxStalledRounds = false) ∧
      edgeEv = edgeEvent d ∧ roundEv = roundEvent k d ∧ next = nextKey k d ∧
      startedEv = startedEvent next
  | .terminalize status edgeEv ev => EndReason cfg w status edgeEv ev
  | .failStepAndWorkflow k stepEv ev _ => (∃ t, AtBound cfg w k t ∧ FailReason cfg w k t) ∧
      stepEv.type = .stepFailed ∧ ev.type = .workflowFailed
  | .recordIntent => CancelReason w
  | .cancelTask _ => CancelReason w
  | .cancelStepAndWorkflow _ seen ev => CancelReason w ∧ ev.type = .workflowCancelled ∧
      ∀ t, seen = some t → t ∈ w.cancelAccepted ∨ t ∈ w.cancelFailed
  | .pause id k gate ev => gateOf cfg k = some gate ∧ id = cfg.humanRequestId k ∧
      ev.type = .workflowPaused ∧ AtUnbound cfg w k
  | .recordStall round fp values => ∃ k output d policy, Looped cfg w k output d ∧
      cfg.spec.stallPolicy = some policy ∧ round = k.round ∧ StallRead cfg w policy k output fp values
  | .recordEvidence k _ _ => ∃ row, AtStep cfg w k row
  | .setRevisionBefore _ _ => Leases cfg
  | .setRevisionAfter _ _ => Leases cfg
  | .startDurably _ | .answer _ _ | .approve _ | .reject _ _ | .resume _ | .ensurePump
  | .abortPump => False
  | _ => True

end VibeRuntime
