import VibeWorkflow.RuntimeProofs

/-!
# The process, the store and the task service together

One workflow, one runtime process with its pump and any number of public calls in flight, the
store, and the task service with the requests still on their way to it.  A step of the system
is one awaited call taking effect, one piece of code waking up, or one move of the environment:
a task finishing, a request arriving late, time passing, a shutdown, a crash.

Some fields of the world are history only: they record what was asked for and answered, so that
properties can be stated, and no program reads them.
-/

namespace VibeRuntime

open VibeJson VibeContract VibeRouting VibeTemplate VibeValidator VibeStore VibeAdmission VibeControl
open AsyncLogic

/-! ## The world -/

structure AgentTask where
  id : String
  request : AgentTaskCreateRequest
  status : TaskStatus
deriving DecidableEq

/-- Answers of the environment that the driver's decisions rest on. -/
inductive EnvAnswer where
  | read (r : TerminalRead)
  | taskRow (taskId : String) (status : Option String)
  | taskResult (taskId : String) (result : Option TaskResult)
  | unread (taskId : String)
  | leases (r : LeaseReply)
  | unleased
  | createFailed
deriving DecidableEq

structure World where
  db : Db
  tasks : List AgentTask
  inFlight : List AgentTaskCreateRequest
  stopped : Bool
  aborted : Bool
  pumpLive : Bool
  now : Nat
  /-- What the wall clock shows; it may be set back. -/
  wall : Nat
  /-- History: answers given. -/
  log : List EnvAnswer
  /-- History: `cancelWorkflow` was called. -/
  cancelCalled : Bool
  /-- History: tasks with an accepted cancel call. -/
  cancelAccepted : List String
  /-- History: tasks with a failed cancel call. -/
  cancelFailed : List String
  /-- History: the row was put back to `running` since the pump last looked at it. -/
  restarted : Bool
  /-- History: a wait failed transiently and woke up in a stopped process. -/
  stopCancel : Bool
  /-- History: the row was `running` when the process was stopped. -/
  runningAtStop : Bool
deriving DecidableEq

def World.flags (w : World) : Flags := ⟨w.stopped, w.aborted, w.now⟩

def World.task? (w : World) (id : String) : Option AgentTask := w.tasks.find? (fun t => t.id = id)

/-! ## The task service -/

/-- A request reaches the service.  The same key with the same request is the same task; `id` is
    used when it is a new one, and must not be taken. -/
def World.deliver (w : World) (req : AgentTaskCreateRequest) (id : String) : Option (String × World) :=
  match w.tasks.find? (fun t => t.request = req) with
  | some t => some (t.id, w)
  | none =>
    if w.tasks.any (fun t => t.id = id) then none
    else some (id, { w with tasks := w.tasks ++ [⟨id, req, .running⟩] })

/-! ## One awaited call -/

/-- What the environment chooses when a call takes effect. -/
inductive Input where
  | run
  | storeFail (e : StoreError)
  | taskFail (isTransient : Bool)
  | leaseFail (isTransient : Bool)
  | created (id : String)
  | waited (historyComplete : Bool) (resultStatus : ResultStatus) (text : Option String) (next : Int)
  | taskRow (status : Option String)
  | taskResult (result : Option TaskResult)
  | leased (r : LeaseReply)
deriving DecidableEq

def taskError (isTransient : Bool) : CallError := if isTransient then .transientTask else .fatalTask
def leaseError (isTransient : Bool) : CallError := if isTransient then .transientLease else .fatalLease

/-- A store call: it runs, or it is refused and changes nothing. -/
def storeCall {α : Type} (w : World) (inp : Input) (run : Except StoreError (World × α)) :
    Option (Except CallError α × World) :=
  match inp with
  | .run =>
    match run with
    | .ok (w', a) => some (.ok a, w')
    | .error e => some (.error (.store e), w)
  | .storeFail e => some (.error (.store e), w)
  | _ => none

def storeRead {α : Type} (w : World) (inp : Input) (a : α) : Option (Except CallError α × World) :=
  storeCall w inp (.ok (w, a))

def storeWrite (w : World) (inp : Input) (r : Except StoreError Db) :
    Option (Except CallError Unit × World) :=
  storeCall w inp (r.map (fun db => ({ w with db := db }, ())))

/-- A write that may put the row back to `running`. -/
def World.restart (w : World) (db : Db) : World :=
  { w with
    db := db
    restarted := w.restarted
      || (w.pumpLive && decide (w.db.wf.status ≠ .running) && decide (db.wf.status = .running)) }

def World.note (w : World) (a : EnvAnswer) : World := { w with log := w.log ++ [a] }

/-- The effect of a call. -/
def exec (op : Op) (w : World) (inp : Input) : Option (Except CallError (Ans op) × World) :=
  match op with
  | .getWorkflow .driveHead =>
    storeCall w inp (.ok ({ w with restarted := false }, w.db.wf))
  | .getWorkflow .other => storeRead w inp w.db.wf
  | .getStepByKey k => storeRead w inp (w.db.step? k)
  | .getSnapshot => storeRead w inp w.db.wf
  | .listSteps => storeRead w inp (listStepExecutions w.db)
  | .getHumanRequest id => storeRead w inp (w.db.human? id)
  | .getActiveHumanRequest => storeRead w inp (getActiveHumanRequest w.db)
  | .listStallRounds => storeRead w inp (listStallRounds w.db)
  | .getTask id =>
    match inp with
    | .taskRow st => some (.ok st, w.note (.taskRow id st))
    | .storeFail e => some (.error (.store e), w.note (.unread id))
    | _ => none
  | .getTaskResult id =>
    match inp with
    | .taskResult r => some (.ok r, w.note (.taskResult id r))
    | .storeFail e => some (.error (.store e), w.note (.unread id))
    | _ => none
  | .startDurably ev => storeCall w inp
      ((startWorkflowDurably w.db w.now ev).map (fun db => (w.restart db, ())))
  | .ensureStepStarted k ev => storeCall w inp
      ((ensureStepStarted w.db k ev).map (fun r => ({ w with db := r.1 }, r.2)))
  | .bindStepTaskOnce k taskId ev =>
    (storeWrite w inp (bindStepTaskOnce w.db k taskId ev)).map (fun r =>
      (r.1, if r.1.isOk then r.2 else r.2.note .createFailed))
  | .completeStep k output revision context ev =>
    storeWrite w inp (completeStepAndCheckpoint w.db k output revision context ev)
  | .advance edgeEv roundEv next startedEv =>
    storeWrite w inp (advanceWorkflow w.db edgeEv roundEv next startedEv)
  | .terminalize status edgeEv ev =>
    storeWrite w inp (.ok (terminalizeWorkflow w.db status edgeEv ev))
  | .failStepAndWorkflow k stepEv ev error =>
    storeWrite w inp (failStepAndWorkflow w.db k stepEv ev error)
  | .recordIntent => storeWrite w inp (.ok (recordCancellationIntent w.db))
  | .cancelStepAndWorkflow k _ ev => storeWrite w inp (.ok (cancelStepAndWorkflow w.db k ev))
  | .pause id k gate ev => storeWrite w inp (createHumanRequestAndPause w.db id k gate ev w.wall)
  | .answer id value => storeWrite w inp (answerHumanRequestInput w.db id value)
  | .approve id => storeWrite w inp (approveHumanRequest w.db id)
  | .reject id ev => storeWrite w inp (rejectHumanRequestAndFailWorkflow w.db id ev)
  | .resume ev => storeCall w inp
      ((resumeWorkflowRunning w.db ev).map (fun db => (w.restart db, ())))
  | .recordEvidence k evidence decision =>
    storeWrite w inp (recordCompletionEvidence w.db k evidence decision)
  | .recordStall round fingerprint signals =>
    storeWrite w inp (.ok (recordStallRound w.db round fingerprint signals))
  | .markAwaiting k => storeCall w inp
      ((markStepAwaitingResult w.db k w.now).map (fun r => ({ w with db := r.1 }, r.2)))
  | .setRevisionBefore k rev => storeWrite w inp (setStepRevisionBefore w.db k rev)
  | .setRevisionAfter k rev => storeWrite w inp (setStepRevisionAfter w.db k rev)
  | .createTask req =>
    match inp with
    | .created id => (w.deliver req id).map (fun r => (.ok r.1, r.2))
    -- a failed create may still be on its way
    | .taskFail true => some (.error .transientTask, { w with inFlight := w.inFlight ++ [req] })
    | .taskFail false => some (.error .fatalTask,
        { w.note .createFailed with inFlight := w.inFlight ++ [req] })
    | _ => none
  | .waitForTerminal id _ _ =>
    match inp, w.task? id with
    | .waited hc rs text next, some t =>
      let r : TerminalRead := ⟨id, t.status, hc, rs, text, next⟩
      some (.ok r, w.note (.read r))
    | .taskFail t, _ => some (.error (taskError t), w)
    | _, _ => none
  | .cancelTask id =>
    match inp with
    | .run => some (.ok (), { w with cancelAccepted := w.cancelAccepted ++ [id] })
    | .taskFail t => some (.error (taskError t), { w with cancelFailed := w.cancelFailed ++ [id] })
    | _ => none
  | .backoff _ => match inp with
      | .run => some (.ok (), w)
      | _ => none
  | .lease _ =>
    match inp with
    | .leased r => some (.ok r, w.note (.leases r))
    | .leaseFail t => some (.error (leaseError t), w.note .unleased)
    | .storeFail e => some (.error (.store e), w.note .unleased)
    | _ => none
  | .ensurePump => match inp with
      | .run => some (.ok (), if w.pumpLive then w
          else { w with pumpLive := true, aborted := false, restarted := false })
      | _ => none
  | .abortPump => match inp with
      | .run => some (.ok (), { w with aborted := w.aborted || w.pumpLive })
      | _ => none

/-- A transient failure of the driver's wait that wakes up in a stopped process is recorded. -/
def noteWake (op : Op) (r : Except CallError (Ans op)) (w : World) : World :=
  match op with
  | .waitForTerminal _ _ .awaitTask =>
    match r with
    | .error .transientTask => { w with stopCancel := w.stopCancel || w.stopped }
    | _ => w
  | _ => w

/-! ## The system -/

abbrev PumpThread := Thread sig (Except CallError Exit × Flags)
abbrev CallThread := Thread sig (Except CallError Unit × Flags)

structure Sys where
  w : World
  pump : Option PumpThread
  calls : List CallThread

inductive Who where
  | pump
  | call (i : Nat)
deriving DecidableEq

inductive Action where
  | exec (who : Who) (inp : Input)
  | wake (who : Who)
  | unfold (who : Who)
  | settle
  | leave (i : Nat)
  | invoke (c : ApiCall)
  | deliver (req : AgentTaskCreateRequest) (id : String)
  | finish (taskId : String) (status : TaskStatus)
  | tick (ms wall : Nat)
  | shutdown
  | crash
deriving DecidableEq

section

variable {α : Type}

/-- The pending call of a thread takes effect. -/
def threadExec (t : Thread sig α) (w : World) (inp : Input) : Option (Thread sig α × World) :=
  match t with
  | .run (.call op k) =>
    match exec op w inp with
    | some (r, w') => some (.woken op r k, w')
    | none => none
  | _ => none

/-- A thread with its answer runs up to its next call. -/
def threadWake (t : Thread sig α) (w : World) : Option (Thread sig α × World) :=
  match t with
  | .woken op r k => some (.run (k r w.flags), noteWake op r w)
  | _ => none

/-- A thread at a loop enters the loop's body. -/
def threadUnfold (cfg : Config) (t : Thread sig α) : Option (Thread sig α) :=
  match t with
  | .run (.loop l fl k) => some (.run (unfoldLoop (body cfg) (.loop l fl k)))
  | _ => none

/-- The create request a thread is waiting on. -/
def pendingCreate (t : Thread sig α) : List AgentTaskCreateRequest :=
  match t with
  | .run (.call (.createTask req) _) => [req]
  | _ => []

end

def pumpStart (cfg : Config) (w : World) : PumpThread := .run (runWorkflow cfg w.flags)

/-- A pump that a call has registered starts running. -/
def Sys.spawn (cfg : Config) (s : Sys) (w : World) (calls : List CallThread) : Sys :=
  { w := w
    pump := if w.pumpLive ∧ s.pump = none then some (pumpStart cfg w) else s.pump
    calls := calls }

def World.finish (w : World) (taskId : String) (status : TaskStatus) : World :=
  { w with tasks := w.tasks.map (fun t =>
      if t.id = taskId ∧ t.status = .running then { t with status := status } else t) }

def World.shutdown (w : World) : World :=
  { w with
    stopped := true
    aborted := w.aborted || w.pumpLive
    runningAtStop := if w.stopped then w.runningAtStop else decide (w.db.wf.status = .running) }

def World.crash (w : World) (pending : List AgentTaskCreateRequest) : World :=
  { w with
    inFlight := w.inFlight ++ pending
    stopped := false
    aborted := false
    pumpLive := false
    restarted := false
    runningAtStop := false }

/-- The pump's promise settles: it is no longer registered. -/
def World.settle (w : World) : World := { w with pumpLive := false, aborted := false }

/-- A created workflow: its row, its context and its two first events. -/
def initialDb (cfg : Config) : Db where
  wf := ⟨.ready, none, 1, 0, 0, none, false, initialContext cfg.spec cfg.inputs, 1⟩
  steps := []
  events := [wfEvent .workflowCreated [("name", .str cfg.spec.name)], wfEvent .workflowValidated []]
  human := []
  stall := []
  evidence := []

def initial (cfg : Config) : Sys where
  w := ⟨initialDb cfg, [], [], false, false, false, 0, 0, [], false, [], [], false, false, false⟩
  pump := none
  calls := []

/-- One step of the system. -/
def step (cfg : Config) (s : Sys) : Action → Option Sys
  | .exec .pump inp =>
    match s.pump with
    | none => none
    | some t => (threadExec t s.w inp).map (fun r => { s with w := r.2, pump := some r.1 })
  | .exec (.call i) inp =>
    match s.calls[i]? with
    | none => none
    | some t => (threadExec t s.w inp).map (fun r => s.spawn cfg r.2 (s.calls.set i r.1))
  | .wake .pump =>
    match s.pump with
    | none => none
    | some t => (threadWake t s.w).map (fun r => { s with w := r.2, pump := some r.1 })
  | .wake (.call i) =>
    match s.calls[i]? with
    | none => none
    | some t => (threadWake t s.w).map (fun r => { s with w := r.2, calls := s.calls.set i r.1 })
  | .unfold .pump =>
    match s.pump with
    | none => none
    | some t => (threadUnfold cfg t).map (fun t' => { s with pump := some t' })
  | .unfold (.call i) =>
    match s.calls[i]? with
    | none => none
    | some t => (threadUnfold cfg t).map (fun t' => { s with calls := s.calls.set i t' })
  | .settle =>
    match s.pump with
    | some (.run (.ret _)) => some { s with w := s.w.settle, pump := none }
    | _ => none
  | .leave i =>
    match s.calls[i]? with
    | some (.run (.ret _)) => some { s with calls := s.calls.eraseIdx i }
    | _ => none
  | .invoke c => some { s with
      w := if c = .cancel then { s.w with cancelCalled := true } else s.w
      calls := s.calls ++ [.run (c.program cfg s.w.flags)] }
  | .deliver req id =>
    if req ∈ s.w.inFlight then (s.w.deliver req id).map (fun r => { s with w := r.2 }) else none
  | .finish taskId status =>
    if status = .running then none else some { s with w := s.w.finish taskId status }
  | .tick ms wall => some { s with w := { s.w with now := s.w.now + ms, wall := wall } }
  | .shutdown => some { s with w := s.w.shutdown }
  | .crash => some
      { w := s.w.crash (s.pump.toList.flatMap pendingCreate ++ s.calls.flatMap pendingCreate)
        pump := none
        calls := [] }

/-- The states of runs whose steps all meet a condition on the state before them. -/
inductive Reach (cfg : Config) (ok : Sys → Action → Prop) : Sys → Prop where
  | start : Reach cfg ok (initial cfg)
  | step {s s' : Sys} {a : Action} : Reach cfg ok s → ok s a → step cfg s a = some s' →
      Reach cfg ok s'

/-- No condition. -/
def anyStep : Sys → Action → Prop := fun _ _ => True

end VibeRuntime
