import Mathlib.Data.List.Sort
import VibeWorkflow.NodeExclusionProofs
import VibeWorkflow.RuntimeProofs

/-!
# Acquiring and releasing workspace leases

The part of the runtime that speaks to the Nodes' lease authorities, as asynchronous programs over
the store's lease projections and the lease client.  One workflow, its lease table, every Node with
its journal, the one attempt at acquiring that may be in flight, and any number of public calls.

A call to a Node is handled and acknowledged, handled with its acknowledgement lost, or refused on
the way; other workflows use the Nodes meanwhile.  What the driver does to the workflow row between
`running` and its end is the environment's here.
-/

namespace VibeLease

open VibeJson VibeContract VibeTemplate VibeValidator VibeStore VibeAdmission VibeControl VibeNode
open AsyncLogic
open VibeRuntime (AcquireOutcome Config)

/-! ## The targets of a spec -/

/-- One exclusive claim of a workspace-bound step. -/
structure Target where
  nodeId : String
  workspaceKey : String
deriving DecidableEq, Repr

def Target.leaseId (cfg : Config) (t : Target) : LeaseId :=
  workspaceLeaseId cfg.workflowId t.nodeId t.workspaceKey

inductive ResolveCode where
  | workspaceNodeAmbiguous
  | workspaceLeaseInvalid
deriving DecidableEq, Repr

/-- Sorted by node, then by key. -/
def Target.before (a b : Target) : Bool :=
  if a.nodeId = b.nodeId then !decide (utf16Units b.workspaceKey < utf16Units a.workspaceKey)
  else decide (utf16Units a.nodeId < utf16Units b.nodeId)

/-- The claim of one step; an unroutable or unusable workspace is an error. -/
def resolveStep (cfg : Config) (spec : WorkflowSpec) (s : AgentTaskStep) :
    Except (ResolveCode × String) (Option Target) :=
  match renderWorkspaceKey s.workspaceKeyTemplate ⟨cfg.inputs, [], 1, fun _ => none, none⟩ with
  | .error _ => .error (.workspaceLeaseInvalid, s.id)
  | .ok none => .ok none
  | .ok (some key) =>
    match ((lookup spec.agents s.agentRole).bind WorkflowAgentRole.nodeId).filter (fun n => n ≠ "") with
    | none => .error (.workspaceNodeAmbiguous, s.id)
    | some node => .ok (some ⟨node, key⟩)

/-- The claims of a spec, each once, in a fixed order. -/
def resolveWorkspaceTargets (cfg : Config) (spec : WorkflowSpec) :
    Except (ResolveCode × String) (List Target) :=
  (spec.steps.mapM (resolveStep cfg spec)).map
    (fun found => found.reduceOption.dedup.insertionSort (fun a b => a.before b))

/-- A workspace that cannot be resolved still binds the workflow. -/
def workspaceBound (cfg : Config) (spec : WorkflowSpec) : Bool :=
  match resolveWorkspaceTargets cfg spec with
  | .error _ => true
  | .ok targets => !targets.isEmpty

/-! ## The store's lease projections -/

/-- A row of `workflow_workspace_leases`; the workflow is the modelled one. -/
structure Projection where
  leaseId : LeaseId
  nodeId : String
  workspaceKey : String
  status : LeaseStatus
  baseRevision : Option String
  currentRevision : Option String
  acquireReason : Option String
deriving DecidableEq, Repr

def leaseRow (rows : List Projection) (id : LeaseId) : Option Projection :=
  rows.find? (fun p => p.leaseId = id)

/-- `UPDATE workflow_workspace_leases … WHERE workspace_lease_id = ?`. -/
def setLeaseRow (rows : List Projection) (id : LeaseId) (f : Projection → Projection) :
    List Projection :=
  rows.map (fun p => if p.leaseId = id then f p else p)

/-- An update of a row that must be there. -/
def updateLease (rows : List Projection) (id : LeaseId) (f : Projection → Projection) :
    Except StoreError (List Projection) :=
  match leaseRow rows id with
  | none => fault .notFound "lease not found"
  | some _ => .ok (setLeaseRow rows id f)

/-- Idempotent on the id: a row that is there, whatever its status, is left as it is. -/
def recordWorkspaceLeaseIntent (cfg : Config) (rows : List Projection) (t : Target) :
    List Projection :=
  match leaseRow rows (t.leaseId cfg) with
  | some _ => rows
  | none => rows ++ [⟨t.leaseId cfg, t.nodeId, t.workspaceKey, .acquiring, none, none, none⟩]

/-- A released row takes a fresh base; any other keeps the base it has. -/
def markWorkspaceLeaseActive (rows : List Projection) (id : LeaseId) (base current : String) :
    Except StoreError (List Projection) :=
  updateLease rows id (fun p =>
    { p with
      status := .active
      baseRevision :=
        if p.status = .released ∨ p.status = .releaseRequested then some base
        else p.baseRevision.or (some base)
      currentRevision := some current
      acquireReason := none })

def setWorkspaceLeaseAcquireReason (rows : List Projection) (id : LeaseId) (reason : String) :
    Except StoreError (List Projection) :=
  updateLease rows id (fun p => { p with acquireReason := some reason })

def requestWorkspaceLeaseRelease (rows : List Projection) (id : LeaseId) :
    Except StoreError (List Projection) :=
  updateLease rows id (fun p =>
    if p.status = .released then p else { p with status := .releaseRequested })

def markWorkspaceLeaseReleased (rows : List Projection) (id : LeaseId) :
    Except StoreError (List Projection) :=
  updateLease rows id (fun p => { p with status := .released })

/-- `ORDER BY node_id ASC, workspace_key ASC`. -/
def Projection.before (a b : Projection) : Bool :=
  if a.nodeId = b.nodeId then decide (a.workspaceKey ≤ b.workspaceKey) else decide (a.nodeId ≤ b.nodeId)

def listWorkspaceLeaseProjections (rows : List Projection) : List Projection :=
  rows.insertionSort (fun a b => a.before b)

/-- The leases of an ended workflow that are not released yet. -/
def listReleasableWorkspaceLeases (status : WorkflowStatus) (rows : List Projection) :
    List Projection :=
  if isTerminalWorkflowStatus status then
    (rows.filter (fun p => p.status.inForce)).insertionSort (fun a b => a.before b)
  else []

/-! ## The lease client -/

inductive CallError where
  | lease (code : String)       -- a `WorkspaceLeaseError`, a definite verdict
  | transientLease              -- a `TransientWorkspaceLeaseError`
  | store (e : StoreError)
  | runtime (code : String)
deriving DecidableEq

def transientLeaseCodes : List String :=
  ["workspace_lease_in_use", "workspace_lease_unavailable", "workspace_revision_unavailable",
    "internal_error"]

/-- How a failed remote call is reported to the runtime. -/
def rethrow (code : String) : CallError :=
  if code = "workspace_lease_conflict" then .lease code
  else if transientLeaseCodes.contains code || code = "" then .transientLease
  else .lease code

/-- What becomes of a request to a Node. -/
inductive Delivery where
  | acked (probe : LeaseProbe)
  | lost (probe : LeaseProbe)        -- handled, but the acknowledgement never arrives
  | refused (code : String)          -- the relay or the transport reports this code

def unwrapLease : LeaseAck → Except String LeaseRow
  | .granted row _ => .ok row
  | .lease row => .ok row
  | .refused _ code => .error code

/-! ## Calls and their answers -/

/-- Which of the two loops releases a lease. -/
inductive ReleaseSite where
  | rollback | retry
deriving DecidableEq

/-- Everything the lease code awaits. -/
inductive Op where
  | getWorkflow
  | getProjection (id : LeaseId)
  | recordIntent (t : Target)
  | markActive (id : LeaseId) (base current : String)
  | setReason (id : LeaseId) (reason : String)
  | requestRelease (id : LeaseId)
  | markReleased (id : LeaseId) (site : ReleaseSite)
  | listProjections
  | listReleasable
  | startDurably
  | cancel
  | acquire (t : Target)
  | get (t : Target)
  | release (nodeId : String) (id : LeaseId) (site : ReleaseSite)
  | backoff (attempt : Nat)
  | joinLeaseWork
  | awaitLeaseWork (ticket : Nat)
deriving DecidableEq

def Ans : Op → Type
  | .getWorkflow => WorkflowStatus
  | .getProjection _ => Option Projection
  | .listProjections => List Projection
  | .listReleasable => List Projection
  | .acquire _ => LeaseRow
  | .get _ => Option LeaseRow
  | .release _ _ _ => LeaseRow
  | .joinLeaseWork => Nat
  | .awaitLeaseWork _ => AcquireOutcome
  | _ => Unit

structure Flags where
  stopped : Bool
deriving DecidableEq

@[reducible] def sig : Sig where
  Op := Op
  Ans := Ans
  Err := CallError
  Flags := Flags
  Label := Empty
  Ret := Empty.elim

abbrev Lt (α : Type) := Js sig α

def call (op : Op) : Lt (Ans op) := Js.await (S := sig) op

def getFlags : Lt Flags := Js.flags

def fail {α : Type} (e : CallError) : Lt α := MonadExcept.throw e

def catching {α : Type} (m : Lt α) (handler : CallError → Lt α) : Lt α :=
  MonadExcept.tryCatch m handler

/-! ## One lease -/

inductive TargetOutcome where
  | active | pending | blocked
deriving DecidableEq

/-- Best effort. -/
def setLeaseReason (id : LeaseId) (reason : String) : Lt Unit :=
  catching (call (.setReason id reason)) (fun _ => pure ())

/-- The acknowledgement of an acquire was lost: ask the Node. -/
def reconcileAmbiguousAcquire (cfg : Config) (t : Target) : Lt TargetOutcome :=
  catching (do
    let lease : Option LeaseRow ← call (.get t)
    match lease with
    | none => do
        setLeaseReason (t.leaseId cfg) "acquire_unconfirmed"
        pure .pending
    | some l =>
      if l.status = .active ∧ l.workflowId = cfg.workflowId then do
        let _ : Unit ← call (.markActive l.leaseId l.baseRevision l.currentRevision)
        pure .active
      else do
        setLeaseReason (t.leaseId cfg) "lease_outcome_unknown"
        pure .pending)
    (fun _ => do
      setLeaseReason (t.leaseId cfg) "lease_outcome_unknown"
      pure .pending)

/-- A projection that says `active` is believed; otherwise the Node is asked for the lease. -/
def reconcileOneLease (cfg : Config) (t : Target) : Lt TargetOutcome := do
  let proj : Option Projection ← call (.getProjection (t.leaseId cfg))
  if proj.any (fun p => p.status = .active) then pure .active
  else do
    let _ : Unit ← call (.recordIntent t)
    catching (do
        let lease : LeaseRow ← call (.acquire t)
        let _ : Unit ← call (.markActive lease.leaseId lease.baseRevision lease.currentRevision)
        pure .active)
      (fun e => match e with
        | .lease code => do
            setLeaseReason (t.leaseId cfg) code
            pure .blocked
        | .transientLease => reconcileAmbiguousAcquire cfg t
        | e => fail e)

/-! ## All leases of a workflow -/

/-- Both halves are best effort. -/
def rollbackAcquired (cfg : Config) : List Target → Lt Unit
  | [] => pure ()
  | t :: rest => do
      catching (do
        let _ : LeaseRow ← call (.release t.nodeId (t.leaseId cfg) .rollback)
        pure ()) (fun _ => pure ())
      catching (call (.markReleased (t.leaseId cfg) .rollback)) (fun _ => pure ())
      rollbackAcquired cfg rest

/-- An attempt's outcome, with the targets it had activated when it was decided. -/
structure Attempt where
  outcome : AcquireOutcome
  activated : List Target
deriving DecidableEq

/-- The loop over the targets. -/
def acquireEach (cfg : Config) (activated : List Target) : List Target → Lt Attempt
  | [] => pure ⟨.acquired, activated⟩
  | t :: rest => do
      let outcome ← reconcileOneLease cfg t
      match outcome with
      | .active => acquireEach cfg (activated ++ [t]) rest
      | .pending => do
          rollbackAcquired cfg activated
          pure ⟨.pending, activated⟩
      | .blocked => do
          rollbackAcquired cfg activated
          pure ⟨.blocked, activated⟩

/-- Why the targets of a spec cannot be leased at all. -/
def unresolved : ResolveCode → CallError
  | .workspaceNodeAmbiguous => .runtime "workspace_node_ambiguous"
  | .workspaceLeaseInvalid => .runtime "runtime_internal"

def doAcquireOrReconcile (cfg : Config) (spec : WorkflowSpec) : Lt Attempt :=
  if cfg.leaseClient then
    match resolveWorkspaceTargets cfg spec with
    | .error e => fail (unresolved e.1)
    | .ok targets => acquireEach cfg [] targets
  else pure ⟨.acquired, []⟩

/-- Callers share the attempt in flight. -/
def acquireOrReconcileLeases : Lt AcquireOutcome := do
  let ticket : Nat ← call .joinLeaseWork
  call (.awaitLeaseWork ticket)

/-! ## Releases -/

def releaseLeaseWithRetry (p : Projection) : Nat → Nat → Lt Unit
  | 0, _ => pure ()
  | left + 1, attempt => do
      let fl ← getFlags
      if fl.stopped then pure ()
      else do
        let again : Bool ← catching (do
            let _ : LeaseRow ← call (.release p.nodeId p.leaseId .retry)
            let _ : Unit ← call (.markReleased p.leaseId .retry)
            pure false)
          (fun e => pure (decide (e = .transientLease)))
        if again then do
          let _ : Unit ← call (.backoff attempt)
          releaseLeaseWithRetry p left (attempt + 1)
        else pure ()

/-- Record the intent, then release. -/
def releaseEach (cfg : Config) : List Projection → Lt Unit
  | [] => pure ()
  | p :: rest =>
    if p.status = .released then releaseEach cfg rest
    else do
      let _ : Unit ← call (.requestRelease p.leaseId)
      releaseLeaseWithRetry p cfg.maxReleaseAttempts 0
      releaseEach cfg rest

/-- Blocked and live workflows keep their leases. -/
def settleLeaseReleases (cfg : Config) : Lt Unit :=
  if cfg.leaseClient then do
    let status : WorkflowStatus ← call .getWorkflow
    if isTerminalWorkflowStatus status then do
      let leases : List Projection ← call .listProjections
      releaseEach cfg leases
    else pure ()
  else pure ()

def recoverLeaseReleases (cfg : Config) : Lt Unit :=
  if cfg.leaseClient then do
    let pending : List Projection ← call .listReleasable
    releaseEach cfg pending
  else pure ()

/-! ## The calls that touch leases -/

def startWorkflow (cfg : Config) : Lt Unit := do
  let status : WorkflowStatus ← call .getWorkflow
  if isTerminalWorkflowStatus status ∨ status = .blocked ∨ status = .running then pure ()
  else if status ≠ .ready then fail (.runtime "invalid_transition")
  else match cfg.loaded with
    | none => fail (.runtime "runtime_internal")
    | some spec =>
      if workspaceBound cfg spec && !cfg.leaseClient then fail (.runtime "workspace_lease_unsupported")
      else if cfg.leaseClient then do
        let outcome ← acquireOrReconcileLeases
        match outcome with
        | .acquired => call .startDurably
        | .blocked => fail (.runtime "workspace_lease_conflict")
        | .pending => fail (.runtime "workspace_lease_pending")
      else call .startDurably

/-- The background continuation of a start whose leases were unconfirmed. -/
def reconcileAndMaybeStart (cfg : Config) : Lt Unit := do
  let fl ← getFlags
  if fl.stopped || !cfg.leaseClient then pure ()
  else do
    let status : WorkflowStatus ← call .getWorkflow
    if status ≠ .ready ∨ cfg.loaded = none then pure ()
    else do
      let outcome ← acquireOrReconcileLeases
      match outcome with
      | .acquired => call .startDurably
      | _ => pure ()

def cancelWorkflow (cfg : Config) : Lt Unit := do
  let status : WorkflowStatus ← call .getWorkflow
  if isTerminalWorkflowStatus status then pure ()
  else do
    let _ : Unit ← call .cancel
    settleLeaseReleases cfg

/-- Recovery's part in the leases.  What it schedules for a `ready` workflow is a later
    `reconcileAndMaybeStart`. -/
def recoverWorkflows (cfg : Config) : Lt Unit :=
  catching (recoverLeaseReleases cfg) (fun _ => pure ())

/-- What a pump does once its driver has left the workflow. -/
def afterDrive (cfg : Config) : Lt Unit := do
  let fl ← getFlags
  if fl.stopped then pure () else settleLeaseReleases cfg

inductive LeaseCall where
  | start | reconcile | cancel | recover | afterDrive
deriving DecidableEq

def LeaseCall.program (cfg : Config) : LeaseCall → Lt Unit
  | .start => startWorkflow cfg
  | .reconcile => reconcileAndMaybeStart cfg
  | .cancel => cancelWorkflow cfg
  | .recover => recoverWorkflows cfg
  | .afterDrive => VibeLease.afterDrive cfg

/-! ## The world -/

structure World where
  status : WorkflowStatus
  leases : List Projection
  nodes : String → Node
  stopped : Bool
  /-- The attempt in flight, by its ticket. -/
  leaseWork : Option Nat
  /-- How the attempts so far ended. -/
  outcomes : List (Except CallError AcquireOutcome)
  /-- History: a rollback has released this lease at its Node and not yet marked its row. -/
  rollingBack : Option LeaseId

def World.flags (w : World) : Flags := ⟨w.stopped⟩

def World.setNode (w : World) (nodeId : String) (n : Node) : World :=
  { w with nodes := Function.update w.nodes nodeId n }

/-- A Node that is up handles a request. -/
def World.request (w : World) (nodeId : String) (probe : LeaseProbe) (req : LeaseRequest) :
    Option (LeaseAck × World) :=
  let n := w.nodes nodeId
  if n.up then
    let res := handleWorkspaceLeaseRequest nodeId probe n.authority req
    some (res.1, w.setNode nodeId { n with journal := res.2.getD n.journal })
  else none

/-- A call of the lease client; a failure is its code. -/
def World.remote (w : World) (nodeId : String) (req : LeaseRequest) :
    Delivery → Option (Except String LeaseRow × World)
  | .acked probe => (w.request nodeId probe req).map (fun r => (unwrapLease r.1, r.2))
  | .lost probe => (w.request nodeId probe req).map (fun r => (.error "workspace_lease_unavailable", r.2))
  | .refused code => some (.error code, w)

/-! ## One awaited call -/

inductive Input where
  | run
  | storeFail (e : StoreError)
  | node (d : Delivery)

def storeCall {α : Type} (w : World) (inp : Input) (run : Except StoreError (World × α)) :
    Option (Except CallError α × World) :=
  match inp with
  | .run =>
    match run with
    | .ok (w', a) => some (.ok a, w')
    | .error e => some (.error (.store e), w)
  | .storeFail e => some (.error (.store e), w)
  | .node _ => none

def storeWrite (w : World) (inp : Input) (rows : Except StoreError (List Projection)) :
    Option (Except CallError Unit × World) :=
  storeCall w inp (rows.map (fun rows => ({ w with leases := rows }, ())))

def remoteCall {α : Type} (w : World) (inp : Input) (nodeId : String) (req : LeaseRequest)
    (answer : Except String LeaseRow → Except CallError α) : Option (Except CallError α × World) :=
  match inp with
  | .node d => (w.remote nodeId req d).map (fun r => (answer r.1, r.2))
  | _ => none

/-- `get` reads a missing lease as `null`. -/
def getAnswer : Except String LeaseRow → Except CallError (Option LeaseRow)
  | .ok row => .ok (some row)
  | .error code => if code = "workspace_lease_invalid" then .ok none else .error (rethrow code)

def leaseAnswer (r : Except String LeaseRow) : Except CallError LeaseRow := r.mapError rethrow

/-- `startWorkflowDurably`, as far as the status goes. -/
def startDurably (status : WorkflowStatus) : Except StoreError WorkflowStatus :=
  if status = .running then .ok status
  else if status ≠ .ready then fault .invalidTransition "workflow cannot start from this status"
  else .ok .running

/-- `performCancellation`, as far as the status goes. -/
def cancelStatus (status : WorkflowStatus) : WorkflowStatus :=
  if isTerminalWorkflowStatus status then status else .cancelled

/-- Only a rollback's release and its mark are recorded. -/
def World.released (w : World) (id : LeaseId) : ReleaseSite → World
  | .rollback => { w with rollingBack := some id }
  | .retry => w

def World.marked (w : World) : ReleaseSite → World
  | .rollback => { w with rollingBack := none }
  | .retry => w

/-- The effect of a call. -/
def exec (cfg : Config) (op : Op) (w : World) (inp : Input) :
    Option (Except CallError (Ans op) × World) :=
  match op with
  | .getWorkflow => storeCall w inp (.ok (w, w.status))
  | .getProjection id => storeCall w inp (.ok (w, leaseRow w.leases id))
  | .listProjections => storeCall w inp (.ok (w, listWorkspaceLeaseProjections w.leases))
  | .listReleasable => storeCall w inp (.ok (w, listReleasableWorkspaceLeases w.status w.leases))
  | .recordIntent t => storeWrite w inp (.ok (recordWorkspaceLeaseIntent cfg w.leases t))
  | .markActive id base current => storeWrite w inp (markWorkspaceLeaseActive w.leases id base current)
  | .setReason id reason => storeWrite w inp (setWorkspaceLeaseAcquireReason w.leases id reason)
  | .requestRelease id => storeWrite w inp (requestWorkspaceLeaseRelease w.leases id)
  | .markReleased id site => storeCall w inp
      ((markWorkspaceLeaseReleased w.leases id).map
        (fun rows => ({ w with leases := rows }.marked site, ())))
  | .startDurably => storeCall w inp
      ((startDurably w.status).map (fun st => ({ w with status := st }, ())))
  | .cancel => storeCall w inp (.ok ({ w with status := cancelStatus w.status }, ()))
  | .acquire t => remoteCall w inp t.nodeId (.acquire cfg.workflowId t.workspaceKey) leaseAnswer
  | .get t => remoteCall w inp t.nodeId (.get (t.leaseId cfg)) getAnswer
  | .release nodeId id site =>
    (remoteCall w inp nodeId (.release id) leaseAnswer).map (fun r => (r.1, r.2.released id site))
  | .backoff _ => match inp with
      | .run => some (.ok (), w)
      | _ => none
  | .joinLeaseWork => match inp with
      | .run =>
        match w.leaseWork with
        | some ticket => some (.ok ticket, w)
        | none => some (.ok w.outcomes.length, { w with leaseWork := some w.outcomes.length })
      | _ => none
  -- the shared promise: nothing happens before its attempt has ended
  | .awaitLeaseWork ticket => match inp with
      | .run => w.outcomes[ticket]?.map (fun r => (r, w))
      | _ => none

/-! ## The system -/

abbrev AttemptThread := Thread sig (Except CallError Attempt × Flags)
abbrev CallThread := Thread sig (Except CallError Unit × Flags)

structure Sys where
  w : World
  attempt : Option AttemptThread
  calls : List CallThread

inductive Who where
  | attempt
  | call (i : Nat)
deriving DecidableEq

inductive Action where
  | exec (who : Who) (inp : Input)
  | wake (who : Who)
  | settle
  | leave (i : Nat)
  | invoke (c : LeaseCall)
  | drive (status : WorkflowStatus)
  | node (nodeId : String) (act : NodeAct)
  | shutdown
  | crash

section

variable {α : Type}

/-- The pending call of a thread takes effect. -/
def threadExec (cfg : Config) (t : Thread sig α) (w : World) (inp : Input) :
    Option (Thread sig α × World) :=
  match t with
  | .run (.call op k) =>
    match exec cfg op w inp with
    | some (r, w') => some (.woken op r k, w')
    | none => none
  | _ => none

/-- A thread with its answer runs up to its next call. -/
def threadWake (t : Thread sig α) (w : World) : Option (Thread sig α) :=
  match t with
  | .woken _ r k => some (.run (k r w.flags))
  | _ => none

end

/-- An attempt reads the spec its callers have loaded. -/
def attemptStart (cfg : Config) (w : World) : AttemptThread :=
  match cfg.loaded with
  | none => .run (.ret (.error (.runtime "runtime_internal"), w.flags))
  | some spec => .run (doAcquireOrReconcile cfg spec w.flags)

/-- An attempt that a call has registered starts running. -/
def Sys.spawn (cfg : Config) (s : Sys) (w : World) (calls : List CallThread) : Sys :=
  { w := w
    attempt := if w.leaseWork.isSome ∧ s.attempt.isNone then some (attemptStart cfg w) else s.attempt
    calls := calls }

/-- The attempt's promise settles. -/
def World.settle (w : World) (r : Except CallError Attempt) : World :=
  { w with leaseWork := none, outcomes := w.outcomes ++ [r.map Attempt.outcome] }

/-- The process dies with all it had in memory. -/
def World.crash (w : World) : World :=
  { w with stopped := false, leaseWork := none, outcomes := [], rollingBack := none }

/-- What the driver and the human gates may make of a row that is neither `ready` nor ended. -/
def drivable (current next : WorkflowStatus) : Bool :=
  decide (current ≠ .ready) && !isTerminalWorkflowStatus current && decide (next ≠ .ready)

/-- A Node's own moves and the requests of others: everything but an acquire or a release in this
    workflow's name. -/
def foreign (cfg : Config) : NodeAct → Bool
  | .lease _ (.acquire workflowId _) => decide (workflowId ≠ cfg.workflowId)
  | .lease _ (.release (.derived workflowId _ _)) => decide (workflowId ≠ cfg.workflowId)
  | _ => true

def initial : Sys where
  w := ⟨.ready, [], fun _ => Node.initial, false, none, [], none⟩
  attempt := none
  calls := []

/-- One step of the system. -/
def step (cfg : Config) (s : Sys) : Action → Option Sys
  | .exec .attempt inp =>
    match s.attempt with
    | none => none
    | some t => (threadExec cfg t s.w inp).map (fun r => { s with w := r.2, attempt := some r.1 })
  | .exec (.call i) inp =>
    match s.calls[i]? with
    | none => none
    | some t => (threadExec cfg t s.w inp).map (fun r => s.spawn cfg r.2 (s.calls.set i r.1))
  | .wake .attempt =>
    match s.attempt with
    | none => none
    | some t => (threadWake t s.w).map (fun t' => { s with attempt := some t' })
  | .wake (.call i) =>
    match s.calls[i]? with
    | none => none
    | some t => (threadWake t s.w).map (fun t' => { s with calls := s.calls.set i t' })
  | .settle =>
    match s.attempt with
    | some (.run (.ret (r, _))) => some { s with w := s.w.settle r, attempt := none }
    | _ => none
  | .leave i =>
    match s.calls[i]? with
    | some (.run (.ret _)) => some { s with calls := s.calls.eraseIdx i }
    | _ => none
  | .invoke c => some { s with calls := s.calls ++ [.run (c.program cfg s.w.flags)] }
  | .drive status =>
    if drivable s.w.status status then some { s with w := { s.w with status := status } } else none
  | .node nodeId act =>
    if foreign cfg act then
      ((s.w.nodes nodeId).step nodeId act).map (fun n => { s with w := s.w.setNode nodeId n })
    else none
  | .shutdown => some { s with w := { s.w with stopped := true } }
  | .crash => some { w := s.w.crash, attempt := none, calls := [] }

/-- The states of runs whose steps all meet a condition on the state before them. -/
inductive Reach (cfg : Config) (ok : Sys → Action → Prop) : Sys → Prop where
  | start : Reach cfg ok initial
  | step {s s' : Sys} {a : Action} : Reach cfg ok s → ok s a → step cfg s a = some s' →
      Reach cfg ok s'

end VibeLease
