import VibeWorkflow.AsyncProofs
import VibeWorkflow.PolicyProofs

/-!
# The workflow runtime as asynchronous programs

Each function of the runtime is a program over the calls it awaits: the store's composites, the
task client, the lease client, and its own timers.  The code between two awaits is one piece and
reads `stopped`, the abort signal and the clock as they are when it wakes up.  The loops of the
source are the labels; their bodies are in `body`.

The return values carry one thing the source drops: why a function stopped (`Exit`), so that the
ways the driver can leave a workflow are told apart.  Leases have no rows here: every answer of
the lease client and of the lease tables is the environment's.
-/

namespace VibeRuntime

open VibeJson VibeContract VibeRouting VibeTemplate VibeValidator VibeStore VibeAdmission VibeControl
open AsyncLogic

/-! ## Calls and their answers -/

inductive TaskStatus where
  | running | completed | failed | cancelled
deriving DecidableEq, Repr

def TaskStatus.isTerminal : TaskStatus → Bool
  | .running => false
  | _ => true

inductive ResultStatus where
  | available | invalid | missing | pending
deriving DecidableEq, Repr

/-- One wait window's report. -/
structure TerminalRead where
  taskId : String
  status : TaskStatus
  historyComplete : Bool
  resultStatus : ResultStatus
  resultText : Option String
  nextEventId : Int
deriving DecidableEq

inductive CallError where
  | transientTask
  | fatalTask
  | transientLease
  | fatalLease
  | store (e : StoreError)
  | runtime (code : String)
deriving DecidableEq

inductive AcquireOutcome where
  | acquired | pending | blocked
deriving DecidableEq

structure LeaseProjection where
  nodeId : String
  leaseId : String
  released : Bool
  held : Bool
  currentHash : Option String
deriving DecidableEq

/-- What a lease call or a lease table may answer. -/
structure LeaseReply where
  outcome : AcquireOutcome
  revision : Option WorkspaceRevision
  leases : List LeaseProjection
deriving DecidableEq

inductive LeaseQuery where
  | acquireAll
  | projection (leaseId : String)
  | observeRevision (nodeId workspaceKey : String)
  | setRevision (leaseId : String)
  | list
  | requestRelease (leaseId : String)
  | release (nodeId leaseId : String)
  | markReleased (leaseId : String)
deriving DecidableEq

/-- Where a workflow row is read: at the head of the driver's loop, or elsewhere. -/
inductive ReadSite where
  | driveHead | other
deriving DecidableEq

/-- Which loop a wait belongs to. -/
inductive WaitSite where
  | awaitTask | resolveResult
deriving DecidableEq

/-- Everything the runtime awaits.  `cancelStepAndWorkflow` also records which task the caller
    saw on the step. -/
inductive Op where
  | getWorkflow (site : ReadSite)
  | getStepByKey (k : StepKey)
  | getSnapshot
  | listSteps
  | getHumanRequest (id : String)
  | getActiveHumanRequest
  | listStallRounds
  | getTask (taskId : String)
  | getTaskResult (taskId : String)
  | startDurably (ev : WorkflowEvent)
  | ensureStepStarted (k : StepKey) (ev : WorkflowEvent)
  | bindStepTaskOnce (k : StepKey) (taskId : String) (ev : WorkflowEvent)
  | completeStep (k : StepKey) (output : Json) (revision : Nat) (context : List (String × Json))
      (ev : WorkflowEvent)
  | advance (edgeEv : WorkflowEvent) (roundEv : Option WorkflowEvent) (next : StepKey)
      (startedEv : WorkflowEvent)
  | terminalize (status : WorkflowStatus) (edgeEv : Option WorkflowEvent) (ev : WorkflowEvent)
  | failStepAndWorkflow (k : StepKey) (stepEv ev : WorkflowEvent) (error : Json)
  | recordIntent
  | cancelStepAndWorkflow (k : Option StepKey) (seen : Option String) (ev : WorkflowEvent)
  | pause (id : String) (k : StepKey) (gate : StepPauseGate) (ev : WorkflowEvent)
  | answer (id value : String)
  | approve (id : String)
  | reject (id : String) (ev : WorkflowEvent)
  | resume (ev : WorkflowEvent)
  | recordEvidence (k : StepKey) (evidence : Json) (decision : String)
  | recordStall (round : Nat) (fingerprint : String) (signals : Json)
  | markAwaiting (k : StepKey)
  | setRevisionBefore (k : StepKey) (rev : WorkspaceRevision)
  | setRevisionAfter (k : StepKey) (rev : WorkspaceRevision)
  | createTask (req : AgentTaskCreateRequest)
  | waitForTerminal (taskId : String) (cursor : Int) (site : WaitSite)
  | cancelTask (taskId : String)
  | backoff (attempt : Nat)
  | lease (q : LeaseQuery)
  | ensurePump
  | abortPump
deriving DecidableEq

def Ans : Op → Type
  | .getWorkflow _ => WorkflowRow
  | .getStepByKey _ => Option StepRow
  | .getSnapshot => WorkflowRow
  | .listSteps => List StepRow
  | .getHumanRequest _ => Option HumanRequestRow
  | .getActiveHumanRequest => Option HumanRequestRow
  | .listStallRounds => List String
  | .getTask _ => Option String
  | .getTaskResult _ => Option TaskResult
  | .ensureStepStarted _ _ => StepRow
  | .markAwaiting _ => Nat
  | .createTask _ => String
  | .waitForTerminal _ _ _ => TerminalRead
  | .lease _ => LeaseReply
  | _ => Unit

/-- What a piece of code sees of the process when it wakes up. -/
structure Flags where
  stopped : Bool
  aborted : Bool
  now : Nat
deriving DecidableEq

/-- How the driver left the workflow. -/
inductive Exit where
  | shutdown          -- the runtime is stopping
  | notRunning        -- the row it read was not `running`
  | stepEnded         -- the step it read had failed or was cancelled
  | ended             -- it made an ending, blocking or pausing write
  | limit             -- it failed the workflow on the time limit
  | cancelled         -- it went through the cancellation
  | createDeadline    -- the create loop saw the time limit and returned
  | createAborted     -- the create loop saw the abort signal and returned
  | resultAborted     -- the result loop saw the abort signal and returned
  | gateAborted       -- the revision gate saw the abort signal and returned
deriving DecidableEq

inductive CreateOutcome where
  | ok
  | stop (why : Exit)
deriving DecidableEq

inductive WaitOutcome where
  | read (r : TerminalRead)
  | shutdown
  | deadline
  | cancel
deriving DecidableEq

inductive Resolved where
  | available (r : TerminalRead)
  | handled (why : Exit)
deriving DecidableEq

/-- The loops of the source, with what they carry around. -/
inductive Label where
  | drive
  | create (wf : WorkflowRow) (k : StepKey) (req : AgentTaskCreateRequest) (attempt : Nat)
  | wait (wf : WorkflowRow) (taskId : String) (cursor : Int) (attempt : Nat)
  | resolve (k : StepKey) (cur : TerminalRead) (cursor : Int) (attempt : Nat)
  | observe (target : WorkspaceTarget) (attempt : Nat)

def Ret : Label → Type
  | .drive => Exit
  | .create _ _ _ _ => CreateOutcome
  | .wait _ _ _ _ => WaitOutcome
  | .resolve _ _ _ _ => Resolved
  | .observe _ _ => Option WorkspaceRevision

@[reducible] def sig : Sig where
  Op := Op
  Ans := Ans
  Err := CallError
  Flags := Flags
  Label := Label
  Ret := Ret

abbrev Rt (α : Type) := Js sig α

def call (op : Op) : Rt (Ans op) := Js.await (S := sig) op

def enter (l : Label) : Rt (Ret l) := Js.recur (S := sig) l

def getFlags : Rt Flags := Js.flags

def fail {α : Type} (e : CallError) : Rt α := MonadExcept.throw e

def catching {α : Type} (m : Rt α) (handler : CallError → Rt α) : Rt α :=
  MonadExcept.tryCatch m handler

/-! ## Events -/

def wfEvent (type : EventType) (payload : List (String × Json)) : WorkflowEvent :=
  ⟨type, none, .obj payload⟩

def stepEvent (type : EventType) (k : StepKey) (payload : List (String × Json)) : WorkflowEvent :=
  ⟨type, some k, .obj payload⟩

/-- `{ ...base, ...extra }`. -/
def spread (base extra : List (String × Json)) : List (String × Json) :=
  extra.foldl (fun o kv => setProp o kv.1 kv.2) base

def stepIdProp (k : StepKey) : String × Json := ("step_id", .str k.stepId)
def roundProp (k : StepKey) : String × Json := ("round", .num (.ofInt k.round))

def startedEvent (k : StepKey) : WorkflowEvent :=
  stepEvent .stepStarted k [stepIdProp k, roundProp k, ("attempt", .num (.ofInt 1))]

def taskCreatedEvent (k : StepKey) (taskId : String) : WorkflowEvent :=
  stepEvent .stepTaskCreated k [("task_id", .str taskId), stepIdProp k, roundProp k]

/-! ## Ending writes -/

def failWorkflow (code : String) (info : List (String × Json)) : Rt Unit :=
  call (.terminalize .failed none (wfEvent .workflowFailed (spread [("reason", .str code)] info)))

/-- The event of a limit failure. -/
def limitEvent (limit : String) : WorkflowEvent :=
  wfEvent .workflowFailed [("reason", .str "workflow_limit_exceeded"), ("limit", .str limit)]

def failLimit (limit : String) : Rt Unit := call (.terminalize .failed none (limitEvent limit))

def blockWorkflow (reason : String) (info : List (String × Json)) : Rt Unit :=
  call (.terminalize .blocked none (wfEvent .workflowBlocked (spread [("reason", .str reason)] info)))

def failStepOf (k : StepKey) (info : List (String × Json)) : Rt Unit :=
  call (.failStepAndWorkflow k (stepEvent .stepFailed k info) (wfEvent .workflowFailed info) (.obj info))

/-! ## Cancellation -/

/-- Record the intent, cancel the task seen on the current step, end the workflow.  A failed
    cancel call is swallowed. -/
def performCancellation : Rt Unit := do
  let wf : WorkflowRow ← call (.getWorkflow .other)
  if isTerminalWorkflowStatus wf.status then pure ()
  else do
    let _ : Unit ← call .recordIntent
    match wf.currentStepId with
    | none => call (.cancelStepAndWorkflow none none (wfEvent .workflowCancelled []))
    | some stepId => do
        let step : Option StepRow ← call (.getStepByKey ⟨stepId, wf.currentRound⟩)
        match step with
        | none => call (.cancelStepAndWorkflow none none (wfEvent .workflowCancelled []))
        | some row =>
          match row.taskId with
          | none => call (.cancelStepAndWorkflow (some row.key) none (wfEvent .workflowCancelled []))
          | some taskId => do
              let _ : Unit ← catching (call (.cancelTask taskId)) (fun _ => pure ())
              call (.cancelStepAndWorkflow (some row.key) (some taskId)
                (wfEvent .workflowCancelled []))

/-! ## The pause gate -/

def waitingReason (gate : StepPauseGate) : String :=
  match gate.kind with
  | .input => "waiting_input"
  | .approval => "waiting_approval"

def pausedEvent (cfg : Config) (k : StepKey) (gate : StepPauseGate) : WorkflowEvent :=
  wfEvent .workflowPaused [("reason", .str (waitingReason gate)), ("kind", .str gate.kind.name),
    stepIdProp k, ("step_execution_id", .str (cfg.sec k))]

/-- `true` is to proceed. -/
def evaluatePauseGate (cfg : Config) (k : StepKey) (gate : StepPauseGate) : Rt Bool := do
  let existing : Option HumanRequestRow ← call (.getHumanRequest (cfg.humanRequestId k))
  match existing.map HumanRequestRow.status with
  | some .answered => pure true
  | some .approved => pure true
  | some .rejected => do
      failWorkflow "runtime_internal" [("reason", .str "approval_rejected"), stepIdProp k]
      pure false
  | _ => do
      let _ : Unit ← call (.pause (cfg.humanRequestId k) k gate (pausedEvent cfg k gate))
      pure false

/-! ## Leases on the driver's path -/

/-- Observe and compare the revision before a task; `none` is to proceed. -/
def revisionGateBefore (k : StepKey) (target : WorkspaceTarget) : Rt (Option Exit) := do
  let proj : LeaseReply ← call (.lease (.projection target.workspaceLeaseId))
  let observed : Option WorkspaceRevision ← enter (.observe target 0)
  match observed with
  | none => do
      let fl ← getFlags
      pure (some (if fl.stopped then .shutdown else .gateAborted))
  | some rev => do
      let _ : Unit ← call (.setRevisionBefore k rev)
      if proj.revision.any (fun e => e.stateHash ≠ rev.stateHash) then do
        blockWorkflow "workspace_revision_conflict"
          [stepIdProp k, roundProp k, ("workspace_key", .str target.workspaceKey)]
        pure (some .ended)
      else pure none

/-- Observe the revision after a task; every failure is left for later. -/
def observeRevisionAfter (k : StepKey) (target : WorkspaceTarget) : Nat → Nat → Rt Unit
  | 0, _ => pure ()
  | left + 1, attempt => do
      let fl ← getFlags
      if fl.stopped then pure ()
      else do
        let again : Bool ← catching (do
            let seen : LeaseReply ← call (.lease (.observeRevision target.nodeId target.workspaceKey))
            match seen.revision with
            | none => pure false
            | some rev => do
                let _ : Unit ← call (.setRevisionAfter k rev)
                let _ : LeaseReply ← call (.lease (.setRevision target.workspaceLeaseId))
                pure false)
          (fun e => if e = .transientLease then pure true else pure false)
        if again then do
          let _ : Unit ← call (.backoff attempt)
          observeRevisionAfter k target left (attempt + 1)
        else pure ()

def releaseLeaseWithRetry (lease : LeaseProjection) : Nat → Nat → Rt Unit
  | 0, _ => pure ()
  | left + 1, attempt => do
      let fl ← getFlags
      if fl.stopped then pure ()
      else do
        let again : Bool ← catching (do
            let _ : LeaseReply ← call (.lease (.release lease.nodeId lease.leaseId))
            let _ : LeaseReply ← call (.lease (.markReleased lease.leaseId))
            pure false)
          (fun e => if e = .transientLease then pure true else pure false)
        if again then do
          let _ : Unit ← call (.backoff attempt)
          releaseLeaseWithRetry lease left (attempt + 1)
        else pure ()

def releaseAll (cfg : Config) : List LeaseProjection → Rt Unit
  | [] => pure ()
  | lease :: rest =>
    if lease.released then releaseAll cfg rest
    else do
      let _ : LeaseReply ← call (.lease (.requestRelease lease.leaseId))
      releaseLeaseWithRetry lease cfg.maxReleaseAttempts 0
      releaseAll cfg rest

/-- Release the leases of an ended workflow. -/
def settleLeaseReleases (cfg : Config) : Rt Unit :=
  if cfg.leaseClient then do
    let wf : WorkflowRow ← call (.getWorkflow .other)
    if isTerminalWorkflowStatus wf.status then do
      let leases : LeaseReply ← call (.lease .list)
      releaseAll cfg leases.leases
    else pure ()
  else pure ()

/-! ## Creating a task -/

def buildRenderScope (cfg : Config) (k : StepKey) : Rt RenderScope := do
  let snap : WorkflowRow ← call .getSnapshot
  let rows : List StepRow ← call .listSteps
  let h : Option HumanRequestRow ← call (.getHumanRequest (cfg.humanRequestId k))
  pure (renderScopeOf cfg k snap.context rows h)

/-- From the rendered step on: the revision gate, then the create loop. -/
def requestTask (cfg : Config) (spec : WorkflowSpec) (wf : WorkflowRow) (k : StepKey)
    (req : AgentTaskCreateRequest) : Rt CreateOutcome :=
  match stepLeaseTarget cfg spec k with
  | none => enter (.create wf k req 0)
  | some target => do
      let gate : Option Exit ← revisionGateBefore k target
      match gate with
      | some why => pure (.stop why)
      | none => enter (.create wf k req 0)

/-- Render, then request. -/
def renderAndRequest (cfg : Config) (spec : WorkflowSpec) (wf : WorkflowRow) (k : StepKey)
    (step : AgentTaskStep) (role : WorkflowAgentRole) : Rt CreateOutcome := do
  let scope ← buildRenderScope cfg k
  match renderStep step scope with
  | .error e => do
      failWorkflow "render_error" [("code", .str e.code.name), stepIdProp k]
      pure (.stop .ended)
  | .ok out => requestTask cfg spec wf k (requestFor cfg spec k step role out.1 out.2)

def createAndBindTask (cfg : Config) (spec : WorkflowSpec) (wf : WorkflowRow) (k : StepKey) :
    Rt CreateOutcome :=
  match stepAndRole spec k with
  | none => do
      failWorkflow "runtime_internal" [("reason", .str "unknown_step_or_role"), stepIdProp k]
      pure (.stop .ended)
  | some (step, role) =>
    match step.pauseBefore with
    | none => renderAndRequest cfg spec wf k step role
    | some gate => do
        let proceed ← evaluatePauseGate cfg k gate
        if proceed then renderAndRequest cfg spec wf k step role else pure (.stop .ended)

/-- The create loop.  A transient failure of the create call backs off; every other failure of
    the create call or of the binding fails the workflow. -/
def createLoop (cfg : Config) (wf : WorkflowRow) (k : StepKey) (req : AgentTaskCreateRequest)
    (attempt : Nat) : Rt CreateOutcome := do
  let fl ← getFlags
  if fl.stopped then pure (.stop .shutdown)
  else if fl.aborted then pure (.stop .createAborted)
  else if deadlineExceeded cfg wf fl.now then pure (.stop .createDeadline)
  else do
    let bound : Except CallError Unit ← catching (do
        let taskId : String ← call (.createTask req)
        let _ : Unit ← call (.bindStepTaskOnce k taskId (taskCreatedEvent k taskId))
        pure (.ok ()))
      (fun e => pure (.error e))
    match bound with
    | .ok _ => pure .ok
    | .error .transientTask => do
        let _ : Unit ← call (.backoff attempt)
        enter (.create wf k req (attempt + 1))
    | .error _ => do
        failWorkflow "runtime_internal" [("reason", .str "task_create_failed"), stepIdProp k]
        pure (.stop .ended)

/-! ## Awaiting a task -/

/-- The wait loop.  The abort signal means a cancellation here, wherever it comes from. -/
def waitLoop (cfg : Config) (wf : WorkflowRow) (taskId : String) (cursor : Int) (attempt : Nat) :
    Rt WaitOutcome := do
  let fl ← getFlags
  if fl.stopped then pure .shutdown
  else if fl.aborted then pure .cancel
  else if deadlineExceeded cfg wf fl.now then pure .deadline
  else do
    let read : Except CallError TerminalRead ← catching (do
        let r : TerminalRead ← call (.waitForTerminal taskId cursor .awaitTask)
        pure (.ok r))
      (fun e => pure (.error e))
    match read with
    | .ok r => if r.status.isTerminal then pure (.read r) else enter (.wait wf taskId r.nextEventId 0)
    | .error .transientTask => do
        let fl' ← getFlags
        if fl'.aborted then pure .cancel
        else do
          let _ : Unit ← call (.backoff attempt)
          enter (.wait wf taskId cursor (attempt + 1))
    | .error e => fail e

/-- The result of a completed task, waited for within a durable window. -/
def resolveLoop (cfg : Config) (k : StepKey) (cur : TerminalRead) (cursor : Int) (attempt : Nat) :
    Rt Resolved :=
  match cur.resultStatus, cur.resultText with
  | .available, some _ => pure (.available cur)
  | .invalid, _ => do
      failStepOf k [("reason", .str "task_result_invalid"), ("task_id", .str cur.taskId)]
      pure (.handled .ended)
  | .missing, _ => do
      blockWorkflow "task_result_missing" [("task_id", .str cur.taskId), stepIdProp k, roundProp k]
      pure (.handled .ended)
  | _, _ => do
      let fl ← getFlags
      if fl.stopped then pure (.handled .shutdown)
      else if fl.aborted then pure (.handled .resultAborted)
      else do
        let proj : Option StepRow ← call (.getStepByKey k)
        let since : Nat ← (match proj.bind StepRow.resultAwaitedSince with
          | some t => pure t
          | none => call (.markAwaiting k))
        let fl' ← getFlags
        if since + cfg.resultIngestionDeadlineMs < fl'.now then do
          blockWorkflow "task_result_timeout"
            [("task_id", .str cur.taskId), stepIdProp k, roundProp k]
          pure (.handled .ended)
        else do
          let _ : Unit ← call (.backoff attempt)
          let read : Except CallError TerminalRead ← catching (do
              let r : TerminalRead ← call (.waitForTerminal cur.taskId cursor .resolveResult)
              pure (.ok r))
            (fun e => pure (.error e))
          match read with
          | .ok r => enter (.resolve k r r.nextEventId (attempt + 1))
          | .error .transientTask => enter (.resolve k cur cursor (attempt + 1))
          | .error e => fail e

/-- Store a parsed output with the context it updates. -/
def checkpointOutput (spec : WorkflowSpec) (k : StepKey) (read : TerminalRead) (output : Json) :
    Rt Unit := do
  let snap : WorkflowRow ← call .getSnapshot
  let binding := (spec.step? k.stepId).bind AgentTaskStep.contextBinding
  call (.completeStep k output snap.contextRevision
    (buildUpdatedContext snap.context snap.currentRound binding output read.taskId read.historyComplete)
    (stepEvent .stepCompleted k [stepIdProp k, roundProp k]))

/-- After a terminal read; `none` goes on with the driver's loop. -/
def handleTaskTerminal (cfg : Config) (spec : WorkflowSpec) (k : StepKey) (read : TerminalRead) :
    Rt (Option Exit) := do
  let wf : WorkflowRow ← call (.getWorkflow .other)
  (match stepLeaseTarget cfg spec k with
    | none => pure ()
    | some target => observeRevisionAfter k target cfg.maxReleaseAttempts 0)
  if wf.cancelRequested then do
    performCancellation
    pure (some .cancelled)
  else match read.status with
    | .failed => do
        failStepOf k [("reason", .str "task_failed"), ("task_id", .str read.taskId)]
        pure (some .ended)
    | .cancelled => do
        failStepOf k [("reason", .str "task_cancelled_external"), ("task_id", .str read.taskId)]
        pure (some .ended)
    | _ => do
        let resolved : Resolved ← enter (.resolve k read read.nextEventId 0)
        match resolved with
        | .handled why => pure (some why)
        | .available r =>
          match parseResultOutput cfg (r.resultText.getD "") k.stepId with
          | .error e => do
              failStepOf k ([("reason", .str "invalid_output"), ("code", .str e.code)]
                ++ (match e.field with | some f => [("field", .str f)] | none => []))
              pure (some .ended)
          | .ok output => do
              checkpointOutput spec k r output
              pure none

/-! ## Routing -/

/-- A read whose failure counts as no answer. -/
def orNone {α : Type} (m : Rt (Option α)) : Rt (Option α) := catching m (fun _ => pure none)

def assembleStepEvidence (cfg : Config) (row : StepRow) : Rt VerifiedEvidence :=
  match row.taskId with
  | none => pure (assembleEvidence cfg none none row.revisionBefore row.revisionAfter)
  | some taskId => do
      let status ← orNone (call (.getTask taskId))
      let result ← orNone (call (.getTaskResult taskId))
      pure (assembleEvidence cfg status result row.revisionBefore row.revisionAfter)

def completionStatus : CompletionDecision → WorkflowStatus
  | .complete => .completed
  | .blocked _ => .blocked
  | .failed _ => .failed

def completionEvent : CompletionDecision → WorkflowEvent
  | .complete => wfEvent .workflowCompleted [("verified", .bool true)]
  | .blocked missing => wfEvent .workflowBlocked
      [("reason", .str "verification_required"), ("missing", .arr (missing.map Json.str))]
  | .failed reason => wfEvent .workflowFailed [("reason", .str reason)]

def gatedEdgeEvent (target : String) : WorkflowEvent :=
  wfEvent .edgeSelected [("to", .str target), ("gated", .bool true)]

/-- A requested completion is a claim: it is checked against observed evidence. -/
def gateCompletion (cfg : Config) (policy : CompletionPolicy) (row : StepRow) (output : Json)
    (target : String) : Rt Exit := do
  let evidence ← assembleStepEvidence cfg row
  let decision := evaluateCompletion policy evidence (declaredRemainingWork output)
  let _ : Unit ← catching (call (.recordEvidence row.key evidence.toJson decision.name))
    (fun _ => pure ())
  let _ : Unit ← call (.terminalize (completionStatus decision) (some (gatedEdgeEvent target))
    (completionEvent decision))
  pure .ended

/-- The latest completed execution of another step. -/
def latestOther (rows : List StepRow) (stepId : String) : Option StepRow :=
  (rows.filter (fun r => r.status = .completed && r.taskId.isSome && r.key.stepId ≠ stepId)).getLast?

def latestResultContentHash (stepId : String) : Rt (Option String) := do
  let rows : List StepRow ← call .listSteps
  match (latestOther rows stepId).bind StepRow.taskId with
  | none => pure none
  | some taskId => do
      let result ← orNone (call (.getTaskResult taskId))
      pure (result.bind TaskResult.contentHash)

/-- The hash of the lease in use, or `none` as a word. -/
def workspaceHash (reply : LeaseReply) : String :=
  (((reply.leases.find? (fun l => l.held)).bind LeaseProjection.currentHash).filter
    (fun h => h ≠ "")).getD "none"

def leaseHash : Rt String :=
  catching (do
    let leases : LeaseReply ← call (.lease .list)
    pure (workspaceHash leases)) (fun _ => pure "none")

/-- On a loop edge: record this round's fingerprint and block when it has not changed for long
    enough. -/
def checkStall (cfg : Config) (policy : StallPolicy) (k : StepKey) (output : Json) : Rt Bool := do
  let snap : WorkflowRow ← call .getSnapshot
  let wsRev ← leaseHash
  let verified ← latestResultContentHash k.stepId
  let values := stallSignalValues snap.context output wsRev (verified.getD "none")
  let _ : Unit ← call (.recordStall k.round (computeStallFingerprint cfg policy.signals values) values)
  let history : List String ← call .listStallRounds
  if isStalled history policy.maxStalledRounds then do
    blockWorkflow "no_progress" [roundProp k, ("signals", .arr (policy.signals.map Json.str)),
      ("stalled_rounds", .num (.ofInt policy.maxStalledRounds))]
    pure true
  else pure false

/-- The key an edge leads to. -/
def nextKey (k : StepKey) (d : RoutingDecision) : StepKey :=
  ⟨d.target, if d.edgeKind = .loop then k.round + 1 else k.round⟩

def edgeEvent (d : RoutingDecision) : WorkflowEvent :=
  wfEvent .edgeSelected [("to", .str d.target), ("kind", .str d.edgeKind.name)]

def roundEvent (k : StepKey) (d : RoutingDecision) : Option WorkflowEvent :=
  if d.edgeKind = .loop then
    some (wfEvent .workflowRoundAdvanced [("round", .num (.ofInt (nextKey k d).round))])
  else none

def takeEdge (k : StepKey) (d : RoutingDecision) : Rt (Option Exit) := do
  let _ : Unit ← call (.advance (edgeEvent d) (roundEvent k d) (nextKey k d)
    (startedEvent (nextKey k d)))
  pure none

/-- The event of an ungated routing to a reserved target. -/
def routedEvent : WorkflowStatus → WorkflowEvent
  | .completed => wfEvent .workflowCompleted [("legacy_unverified", .bool true)]
  | .failed => wfEvent .workflowFailed []
  | _ => wfEvent .workflowBlocked [("reason", .str "routed_blocked")]

/-- An edge to a reserved target that no completion policy gates. -/
def endByRouting (target : String) : Rt Unit :=
  call (.terminalize (terminalTargetToStatus target)
    (some (wfEvent .edgeSelected [("to", .str target)]))
    (routedEvent (terminalTargetToStatus target)))

/-- The object a completed step left, if it is one. -/
def outputObject (row : StepRow) : Option Json :=
  match row.output with
  | some (.obj kvs) => some (.obj kvs)
  | _ => none

/-- Route a completed step; `none` goes on with the driver's loop. -/
def routeAndAdvance (cfg : Config) (spec : WorkflowSpec) (row : StepRow) : Rt (Option Exit) :=
  match outputObject row with
  | none => do
      failWorkflow "runtime_internal" [("reason", .str "missing_step_output"), stepIdProp row.key]
      pure (some .ended)
  | some output =>
    match selectEdge spec row.key.stepId output row.key.round with
    | .error e => do
        failWorkflow (match e.code with | .noEdge => "routing_no_edge" | .ambiguous => "routing_ambiguous")
          [stepIdProp row.key]
        pure (some .ended)
    | .ok d =>
      if d.terminal then
        match terminalTargetToStatus d.target, spec.completionPolicy with
        | .completed, some policy => do
            let why ← gateCompletion cfg policy row output d.target
            pure (some why)
        | _, _ => do
            endByRouting d.target
            pure (some .ended)
      else if d.edgeKind = .loop then
        if !canTakeLoopEdge row.key.round (spec.limits.maxRounds.getD 0) then do
          failLimit "max_rounds"
          pure (some .ended)
        else match spec.stallPolicy with
          | none => takeEdge row.key d
          | some policy => do
              let stalled ← checkStall cfg policy row.key output
              if stalled then pure (some .ended) else takeEdge row.key d
      else takeEdge row.key d

/-! ## The driver -/

/-- A wait outcome's consequence; `none` goes on with the driver's loop. -/
def handleOutcome (cfg : Config) (spec : WorkflowSpec) (k : StepKey) : WaitOutcome → Rt (Option Exit)
  | .shutdown => pure (some .shutdown)
  | .deadline => do
      failLimit "max_runtime_seconds"
      pure (some .limit)
  | .cancel => do
      performCancellation
      pure (some .cancelled)
  | .read r => handleTaskTerminal cfg spec k r

/-- Await a bound task and act on it. -/
def awaitAndHandle (cfg : Config) (spec : WorkflowSpec) (wf : WorkflowRow) (k : StepKey)
    (taskId : String) : Rt (Option Exit) := do
  let outcome : WaitOutcome ← enter (.wait wf taskId (-1) 0)
  handleOutcome cfg spec k outcome

/-- Create the task of an unbound step, then await it. -/
def createThenAwait (cfg : Config) (spec : WorkflowSpec) (wf : WorkflowRow) (k : StepKey) :
    Rt (Option Exit) :=
  if spec.limits.maxTasks ≤ wf.totalTasks then do
    failLimit "max_tasks"
    pure (some .ended)
  else do
    let r ← createAndBindTask cfg spec wf k
    match r with
    | .stop why => pure (some why)
    | .ok => do
        let step : Option StepRow ← call (.getStepByKey k)
        match step.bind StepRow.taskId with
        | none => fail (.runtime "no task")
        | some taskId => awaitAndHandle cfg spec wf k taskId

/-- One execution of the current step, from its row; `none` goes on with the driver's loop. -/
def driveStep (cfg : Config) (spec : WorkflowSpec) (wf : WorkflowRow) (row : StepRow) :
    Rt (Option Exit) :=
  if row.status = .completed then routeAndAdvance cfg spec row
  else if isTerminalStepStatus row.status then pure (some .stepEnded)
  else match row.taskId with
    | none => createThenAwait cfg spec wf row.key
    | some taskId => awaitAndHandle cfg spec wf row.key taskId

/-- The current execution of a workflow row. -/
def currentKey (spec : WorkflowSpec) (wf : WorkflowRow) : StepKey :=
  ⟨wf.currentStepId.getD spec.entryStep, wf.currentRound⟩

/-- One iteration on a `running` row. -/
def iterate (cfg : Config) (wf : WorkflowRow) (now : Nat) : Rt (Option Exit) :=
  match cfg.loaded with
  | none => do
      failWorkflow "runtime_internal" [("reason", .str "invalid_persisted_spec")]
      pure (some .ended)
  | some spec =>
    if wf.cancelRequested then do
      performCancellation
      pure (some .cancelled)
    else if deadlineExceeded cfg wf now then do
      failLimit "max_runtime_seconds"
      pure (some .limit)
    else do
      let found : Option StepRow ← call (.getStepByKey (currentKey spec wf))
      let row : StepRow ← (match found with
        | some row => pure row
        | none => call (.ensureStepStarted (currentKey spec wf) (startedEvent (currentKey spec wf))))
      driveStep cfg spec wf row

/-- The driver's loop. -/
def driveLoop (cfg : Config) : Rt Exit := do
  let fl ← getFlags
  if fl.stopped then pure .shutdown
  else do
    let wf : WorkflowRow ← call (.getWorkflow .driveHead)
    let fl' ← getFlags
    if wf.status ≠ .running then pure .notRunning
    else do
      let r ← iterate cfg wf fl'.now
      match r with
      | some why => pure why
      | none => enter .drive

/-- The revision gate's loop. -/
def observeLoop (target : WorkspaceTarget) (attempt : Nat) : Rt (Option WorkspaceRevision) := do
  let fl ← getFlags
  if fl.stopped || fl.aborted then pure none
  else do
    let seen : Except CallError LeaseReply ← catching (do
        let r : LeaseReply ← call (.lease (.observeRevision target.nodeId target.workspaceKey))
        pure (.ok r))
      (fun e => pure (.error e))
    match seen with
    | .ok r =>
      match r.revision with
      | some rev => pure (some rev)
      | none => enter (.observe target (attempt + 1))
    | .error .transientLease => do
        let _ : Unit ← call (.backoff attempt)
        enter (.observe target (attempt + 1))
    | .error e => fail e

def body (cfg : Config) : (l : Label) → Rt (Ret l)
  | .drive => driveLoop cfg
  | .create wf k req attempt => createLoop cfg wf k req attempt
  | .wait wf taskId cursor attempt => waitLoop cfg wf taskId cursor attempt
  | .resolve k cur cursor attempt => resolveLoop cfg k cur cursor attempt
  | .observe target attempt => observeLoop target attempt

/-- A pump: the driver, then the lease releases.  Nothing follows these, and the catch around the
    pump swallows what they throw. -/
def runWorkflow (cfg : Config) : Rt Exit := do
  let why : Exit ← enter .drive
  let fl ← getFlags
  if fl.stopped then pure why
  else do
    catching (settleLeaseReleases cfg) (fun _ => pure ())
    pure why

/-! ## The public calls -/

def invalidTransition : CallError := .runtime "invalid_transition"

def startWorkflow (cfg : Config) : Rt Unit := do
  let wf : WorkflowRow ← call (.getWorkflow .other)
  if isTerminalWorkflowStatus wf.status ∨ wf.status = .blocked then pure ()
  else if wf.status = .running then call .ensurePump
  else if wf.status ≠ .ready then fail invalidTransition
  else match cfg.loaded with
    | none => fail (.runtime "runtime_internal")
    | some spec =>
      if workspaceBound cfg spec && !cfg.leaseClient then fail (.runtime "workspace_lease_unsupported")
      else if cfg.leaseClient then do
        let leases : LeaseReply ← call (.lease .acquireAll)
        match leases.outcome with
        | .acquired => do
            let _ : Unit ← call (.startDurably (wfEvent .workflowStarted []))
            call .ensurePump
        | .blocked => fail (.runtime "workspace_lease_conflict")
        | .pending => fail (.runtime "workspace_lease_pending")
      else do
        let _ : Unit ← call (.startDurably (wfEvent .workflowStarted []))
        call .ensurePump

/-- The background continuation of a start whose leases were unconfirmed. -/
def reconcileAndMaybeStart (cfg : Config) : Rt Unit := do
  let fl ← getFlags
  if fl.stopped || !cfg.leaseClient then pure ()
  else do
    let wf : WorkflowRow ← call (.getWorkflow .other)
    if wf.status ≠ .ready ∨ cfg.loaded = none then pure ()
    else do
      let leases : LeaseReply ← call (.lease .acquireAll)
      match leases.outcome with
      | .acquired => do
          let _ : Unit ← call (.startDurably (wfEvent .workflowStarted []))
          call .ensurePump
      | _ => pure ()

/-- Recovery, for one workflow: a `running` row gets a pump. -/
def recoverWorkflows : Rt Unit := do
  let wf : WorkflowRow ← call (.getWorkflow .other)
  if wf.status = .running then call .ensurePump else pure ()

def cancelWorkflow (cfg : Config) : Rt Unit := do
  let wf : WorkflowRow ← call (.getWorkflow .other)
  if isTerminalWorkflowStatus wf.status then pure ()
  else do
    let _ : Unit ← call .recordIntent
    let _ : Unit ← call .abortPump
    performCancellation
    settleLeaseReleases cfg

def resumeWorkflow : Rt Unit := do
  let wf : WorkflowRow ← call (.getWorkflow .other)
  if wf.status = .waitingInput ∨ wf.status = .waitingApproval then do
    let req : Option HumanRequestRow ← call .getActiveHumanRequest
    match req with
    | none => pure ()
    | some h =>
      if h.status = .answered ∨ h.status = .approved then do
        let _ : Unit ← call (.resume (wfEvent .workflowResumed [("request_id", .str h.requestId)]))
        call .ensurePump
      else pure ()
  else if wf.status = .running then call .ensurePump
  else pure ()

def answerInput (id value : String) : Rt Unit := call (.answer id value)

def decideApproval (cfg : Config) (id : String) (approved : Bool) : Rt Unit :=
  if approved then call (.approve id)
  else do
    let _ : Unit ← call (.reject id (wfEvent .workflowFailed [("reason", .str "approval_rejected")]))
    let _ : Unit ← call .abortPump
    settleLeaseReleases cfg

/-- A call of the public interface. -/
inductive ApiCall where
  | start | reconcile | recover | cancel | resume
  | answer (id value : String)
  | decide (id : String) (approved : Bool)
deriving DecidableEq

def ApiCall.program (cfg : Config) : ApiCall → Rt Unit
  | .start => startWorkflow cfg
  | .reconcile => reconcileAndMaybeStart cfg
  | .recover => recoverWorkflows
  | .cancel => cancelWorkflow cfg
  | .resume => resumeWorkflow
  | .answer id value => answerInput id value
  | .decide id approved => decideApproval cfg id approved

end VibeRuntime
