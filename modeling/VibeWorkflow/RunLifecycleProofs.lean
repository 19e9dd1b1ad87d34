import VibeWorkflow.CallRunProofs
import VibeWorkflow.GatewayProofs
import VibeWorkflow.SessionProofs

/-!
# The life of a run across processes

A run has one record and one event log, and three processes work on them without a lock: the supervisor,
which runs the agents; the process that started it, which marks the run `running` once the supervisor is
spawned; and a stop.  An update of the record reads the whole file and writes it back.

* `runSupervisor`, `startRun`, `stopRun` — the programs, one file operation at a time;
* `supervisor_follows`, `starter_follows`, `stop_follows` — the protocols they keep to;
* **`one_terminal_event`** — a run ends with one terminal event that its record agrees with, and a
  terminal status is never left, in every interleaving whose writes do not cross.
-/

namespace VibeLifecycle

open Sessions CallRuns
open VibeGateway (RunStatus)

/-! ## Files -/

/-- `TERMINAL_STATES`. -/
def terminal : RunStatus → Bool
  | .completed | .failed | .stopped | .cancelled => true
  | _ => false

/-- The fields of the run record that these programs read. -/
structure RunRecord where
  status : RunStatus
  sessionId : String
  childPid : Option Nat
deriving DecidableEq

/-- A patch of the record: a field that is absent is left, and `child_pid` may be cleared. -/
structure RunPatch where
  status : Option RunStatus
  sessionId : Option String
  childPid : Option (Option Nat)
deriving DecidableEq

def RunRecord.patched (r : RunRecord) (p : RunPatch) : RunRecord :=
  ⟨p.status.getD r.status, p.sessionId.getD r.sessionId, p.childPid.getD r.childPid⟩

inductive Event where
  | status (status : RunStatus)
  | error (message : String) (code : Option String)
  | log (message : String)
deriving DecidableEq

/-! ## What the programs wait for -/

inductive Agent where
  | claudeCode | codex | mock
deriving DecidableEq

def Agent.name : Agent → String
  | .claudeCode => "claude-code"
  | .codex => "codex"
  | .mock => "mock"

/-- What precedes the spawn of an agent: its prompt and its clone are there, or not, or the adapter throws. -/
inductive Preparation where
  | ready
  | refused (message : String) (code : Option String)
  | throws (message : String)

/-- How the child ended; `timedOut` is the limit that was reached, in milliseconds. -/
structure Exit where
  code : Option Int
  signal : Option String
  timedOut : Option Nat
  spawnError : Option String

inductive Outcome where
  | completed
  | failed (message : String)

inductive Verification where
  | undeclared
  | unavailable (message : String)
  | threw (message : String)
  | ran (summary : String)

/-- What the supervisor asks of its surroundings, apart from the run's files. -/
inductive Question where
  | authPreflight
  | repoGate
  | verifierPreflight
  | adapterKnown (agent : Agent)
  | sandbox (agent : Agent)
  | prepare
  | spawn
  | output
  | close
  | mockOutcome
  | verification
  | switches (message : String)
  | handoff

/-- A check that passes, or is not made, answers `none`. -/
def Question.Answer : Question → Type
  | .authPreflight => Option String
  | .repoGate => Option (String × String)
  | .verifierPreflight => Option String
  | .adapterKnown _ => Bool
  | .sandbox _ => Option (String × Option String)
  | .prepare => Preparation
  | .spawn => Option Nat
  | .output => List String
  | .close => Exit
  | .mockOutcome => Outcome
  | .verification => Verification
  | .switches _ => Bool
  | .handoff => Option String

/-- One operation.  `writeRun` is given the record that was read and the patch. -/
inductive Op where
  | readRun
  | writeRun (held : RunRecord) (patch : RunPatch)
  | appendEvent (event : Event)
  | kill (sessionId : String) (childPid : Option Nat)
  | ask (q : Question)

def Op.Ans : Op → Type
  | .readRun => RunRecord
  | .ask q => q.Answer
  | _ => Unit

abbrev Program (α : Type) := Prog Op Op.Ans α

def readRun : Program RunRecord := Prog.perform Op.readRun

def appendEvent (event : Event) : Program Unit := Prog.perform (Op.appendEvent event)

def ask (q : Question) : Program q.Answer := Prog.perform (Op.ask q)

/-- The record is read and written back, in two operations. -/
def updateRun (patch : RunPatch) : Program Unit := do
  let record ← readRun
  Prog.perform (Op.writeRun record patch)

/-! ## The supervisor -/

/-- The end of a run: the record, then the log. -/
def finish (status : RunStatus) : Program Unit := do
  updateRun ⟨some status, none, some none⟩
  appendEvent (.status status)

/-- A failure with its diagnostic. -/
def failWith (message : String) (code : Option String) : Program Unit := do
  appendEvent (.error message code)
  finish .failed

def diagnosticError (message : String) (code : Option String) : Program Outcome := do
  appendEvent (.error message code)
  return .failed message

/-- What the agent prints, a line at a time. -/
def emit : List String → Program Unit
  | [] => pure ()
  | line :: rest => do
    appendEvent (.log line)
    emit rest

/-- The outcome that the child's end gives, once its pid is cleared. -/
def outcomeOf (label : String) (started stopped : Bool) (exit : Exit) : Program Outcome :=
  if !started then diagnosticError (exit.spawnError.getD (label ++ " failed to start")) none
  else if stopped then pure (.failed "run stopped")
  else match exit.timedOut with
  | some limit => diagnosticError ("run timed out after " ++ toString limit ++ "ms") none
  | none =>
    if exit.code = some 0 then pure .completed
    else match exit.signal with
    | some signal => diagnosticError (label ++ " exited with signal " ++ signal) none
    | none => diagnosticError (label ++ " exited with code " ++ (exit.code.elim "null" toString)) none

/-- The child's pid is recorded, if it has one. -/
def recordChild : Option Nat → Program Unit
  | some pid => updateRun ⟨none, none, some (some pid)⟩
  | none => pure ()

/-- The agent runs until its child is closed. -/
def awaitChild (label : String) : Program Outcome := do
  let pid : Option Nat ← ask .spawn
  recordChild pid
  let lines : List String ← ask .output
  emit lines
  let exit : Exit ← ask .close
  let current ← readRun
  updateRun ⟨none, none, some none⟩
  outcomeOf label pid.isSome (current.status = .stopped) exit

/-- An adapter that throws is a failed agent: the supervisor writes the diagnostic. -/
def execAgent (agent : Agent) (label : String) : Program Outcome := do
  let preparation : Preparation ← ask .prepare
  match preparation with
  | .refused message code => diagnosticError message code
  | .throws message => diagnosticError (agent.name ++ " adapter crashed: " ++ message) none
  | .ready => awaitChild label

def mockAgent : Program Outcome := do
  let lines : List String ← ask .output
  emit lines
  let outcome : Outcome ← ask .mockOutcome
  match outcome with
  | .completed => pure .completed
  | .failed message => diagnosticError message none

def runAdapter : Agent → Program Outcome
  | .mock => mockAgent
  | .claudeCode => execAgent .claudeCode "claude"
  | .codex => execAgent .codex "codex"

/-- A completed agent: the declared verifier has the last word. -/
def complete : Program Unit := do
  let verification : Verification ← ask .verification
  match verification with
  | .undeclared => finish .completed
  | .unavailable message => failWith ("test verifier unavailable after agent run: " ++ message) (some "verifier_unavailable")
  | .threw message => failWith ("test verifier error: " ++ message) (some "verifier_error")
  | .ran summary => do
    appendEvent (.log summary)
    finish .completed

/-- A handoff is written for the next agent, at best. -/
def handOff (agent next : Agent) : Program Unit := do
  let fault : Option String ← ask .handoff
  match fault with
  | some message => appendEvent (.error ("handoff generation failed: " ++ message) none)
  | none => pure ()
  appendEvent (.log ("↪ switching agent: " ++ agent.name ++ " → " ++ next.name))
  updateRun ⟨none, none, none⟩

/-- The gate of an agent's sandbox: only Codex has one.  The code of a denial. -/
def sandboxGate (agent : Agent) : Program (Option String) :=
  if agent = .codex then do
    let decision : Option (String × Option String) ← ask (.sandbox agent)
    match decision with
    | none => pure none
    | some (line, denied) => do
      appendEvent (.log line)
      pure denied
  else pure none

/-- What follows an agent's outcome; a stop that was seen leaves the run alone. -/
def conclude (stopped : Bool) (outcome : Outcome) (fallback : String → Program Unit) : Program Unit :=
  if stopped then pure ()
  else match outcome with
  | .completed => complete
  | .failed message => fallback message

/-- An agent runs behind its gates. -/
def attempt (agent : Agent) (fallback : String → Program Unit) : Program Unit := do
  let _ ← readRun
  let known : Bool ← ask (.adapterKnown agent)
  if known then do
    let denied ← sandboxGate agent
    match denied with
    | some code => failWith ("codex workspace-write denied: " ++ code) (some code)
    | none => do
      let outcome ← runAdapter agent
      let current ← readRun
      conclude (current.status = .stopped) outcome fallback
  else failWith ("no adapter for agent: " ++ agent.name) none

/-- The agent, and then those that may take over from it. -/
def tryAgents (agent : Agent) : List Agent → Program Unit
  | [] => attempt agent fun _ => finish .failed
  | next :: others => attempt agent fun message => do
    let switches : Bool ← ask (.switches message)
    if switches then do
      handOff agent next
      tryAgents next others
    else finish .failed

/-- The checks that precede every agent. -/
def runSupervisor (primary : Agent) (fallbacks : List Agent) : Program Unit := do
  let _ ← readRun
  updateRun ⟨none, none, none⟩
  appendEvent (.status .running)
  let auth : Option String ← ask .authPreflight
  match auth with
  | some reason => failWith ("auth preflight failed: " ++ reason) (some "auth_misconfigured")
  | none => do
    let gate : Option (String × String) ← ask .repoGate
    match gate with
    | some (message, code) => failWith message (some code)
    | none => do
      let verifier : Option String ← ask .verifierPreflight
      match verifier with
      | some message => failWith ("test verifier unavailable: " ++ message) (some "verifier_unavailable")
      | none => tryAgents primary fallbacks

/-! ## The starter and the stop -/

/-- The end of `startRun` and of `handleRunStart`, once the supervisor is spawned. -/
def startRun (sessionId : String) : Program Unit := updateRun ⟨some .running, some sessionId, none⟩

/-- `stopRun` and `runStopLogic`. -/
def stopRun : Program Unit := do
  let record ← readRun
  if terminal record.status then pure ()
  else do
    Prog.perform (Op.kill record.sessionId record.childPid)
    appendEvent (.status .stopped)
    updateRun ⟨some .stopped, none, none⟩

/-! ## The protocols -/

def endsRun : Event → Bool
  | .status status => terminal status
  | _ => false

/-- `working` remembers the status of a record that was read just before. -/
inductive SupervisorPhase where
  | working (seen : Option RunStatus)
  | ending (status : RunStatus)
  | closed (status : RunStatus)

/-- The supervisor writes back the status it has read, or ends the run: the record, then the log.  It
    leaves without an end only when it has just read `stopped`. -/
def supervisorProtocol : Protocol Op Op.Ans where
  Phase := SupervisorPhase
  allowed
    | .working _, .readRun => True
    | .working seen, .writeRun held patch =>
      match patch.status with
      | none => seen = some held.status
      | some status => status = .completed ∨ status = .failed
    | .working _, .appendEvent event => endsRun event = false
    | .working _, .ask _ => True
    | .ending status, .appendEvent event => event = .status status
    | _, _ => False
  next
    | .working _, .readRun, record => .working (some record.status)
    | .working _, .writeRun _ patch, _ =>
      match patch.status with
      | none => .working none
      | some status => .ending status
    | .ending status, _, _ => .closed status
    | .closed status, _, _ => .closed status
    | .working _, _, _ => .working none
  final
    | .working seen => seen = some .stopped
    | .ending _ => False
    | .closed _ => True

inductive StarterPhase where
  | starting | started

def starterProtocol : Protocol Op Op.Ans where
  Phase := StarterPhase
  allowed
    | .starting, .readRun => True
    | .starting, .writeRun _ patch => patch.status = some .running
    | _, _ => False
  next
    | .starting, .readRun, _ => .starting
    | _, _, _ => .started
  final
    | .starting => False
    | .started => True

inductive StopPhase where
  | idle | refused | engaged | appended | finished
deriving DecidableEq

/-- A stop that has read a status which is not terminal appends `stopped` and then writes it. -/
def stopProtocol : Protocol Op Op.Ans where
  Phase := StopPhase
  allowed
    | .idle, .readRun => True
    | .engaged, .kill _ _ => True
    | .engaged, .appendEvent event => event = .status .stopped
    | .appended, .readRun => True
    | .appended, .writeRun _ patch => patch.status = some .stopped
    | _, _ => False
  next
    | .idle, .readRun, record => if terminal record.status then .refused else .engaged
    | .engaged, .appendEvent _, _ => .appended
    | .appended, .writeRun _ _, _ => .finished
    | phase, _, _ => phase
  final
    | .idle | .refused | .finished => True
    | _ => False

/-! ## Interleavings -/

/-- The run's files, and whether the supervisor was sent a signal. -/
structure World where
  record : RunRecord
  log : List Event
  signalled : Bool

abbrev Oracle := ∀ q : Question, q.Answer

/-- A run that nobody has anything to say of. -/
def quiet : Oracle
  | .authPreflight => (none : Option String)
  | .repoGate => (none : Option (String × String))
  | .verifierPreflight => (none : Option String)
  | .adapterKnown _ => true
  | .sandbox _ => (none : Option (String × Option String))
  | .prepare => Preparation.ready
  | .spawn => some (1 : Nat)
  | .output => ([] : List String)
  | .close => (⟨some 0, none, none, none⟩ : Exit)
  | .mockOutcome => Outcome.completed
  | .verification => Verification.undeclared
  | .switches _ => false
  | .handoff => (none : Option String)

/-- One file operation.  A signal reaches the supervisor only by the session that the record names. -/
def exec (oracle : Oracle) (w : World) : (op : Op) → op.Ans × World
  | .readRun => (w.record, w)
  | .writeRun held patch => ((), { w with record := held.patched patch })
  | .appendEvent event => ((), { w with log := w.log ++ [event] })
  | .kill sessionId _ => ((), { w with signalled := w.signalled || sessionId ≠ "" })
  | .ask q => (oracle q, w)

structure Lifecycle where
  world : World
  supervisor : Thread supervisorProtocol
  alive : Bool
  starter : Thread starterProtocol
  stop : Thread stopProtocol

/-- Who moves.  A supervisor that was sent a signal dies at any moment, or survives it. -/
inductive Move where
  | supervisor (oracle : Oracle)
  | starter
  | stop
  | die

/-- The supervisor has just been spawned; `stops` says whether a stop is on its way. -/
def spawned (primary : Agent) (fallbacks : List Agent) (sessionId : String) (stops : Bool) : Lifecycle where
  world := ⟨⟨.queued, "", none⟩, [], false⟩
  supervisor := ⟨runSupervisor primary fallbacks, .working none⟩
  alive := true
  starter := ⟨startRun sessionId, .starting⟩
  stop := ⟨if stops then stopRun else pure (), .idle⟩

def move (s : Lifecycle) : Move → Lifecycle
  | .supervisor oracle =>
    if s.alive then
      { s with world := (s.supervisor.step (exec oracle) s.world).1, supervisor := (s.supervisor.step (exec oracle) s.world).2 }
    else s
  | .starter => { s with world := (s.starter.step (exec quiet) s.world).1, starter := (s.starter.step (exec quiet) s.world).2 }
  | .stop => { s with world := (s.stop.step (exec quiet) s.world).1, stop := (s.stop.step (exec quiet) s.world).2 }
  | .die => if s.world.signalled then { s with alive := false } else s

/-! ## What a run owes -/

def terminalEvents (log : List Event) : List RunStatus :=
  log.filterMap fun
    | .status status => if terminal status then some status else none
    | _ => none

/-- Every process has ended. -/
def Lifecycle.settled (s : Lifecycle) : Bool :=
  (s.supervisor.prog.ended || !s.alive) && s.starter.prog.ended && s.stop.prog.ended

/-- One terminal event, and the record agrees with it. -/
def EndsOnce (s : Lifecycle) : Prop :=
  s.settled = true → ∃ status, terminalEvents s.world.log = [status] ∧ s.world.record.status = status

/-- A terminal status is not left. -/
def KeepsTerminal (s : Lifecycle) (m : Move) : Prop :=
  terminal s.world.record.status = true → (move s m).world.record.status = s.world.record.status

/-- The write that a program is about to make. -/
def pendingWrite : Program Unit → Option (RunRecord × RunPatch)
  | .call (.writeRun held patch) _ => some (held, patch)
  | _ => none

/-- A stop that has found the run going on, and has not written `stopped` yet. -/
def StopPhase.inProgress : StopPhase → Bool
  | .engaged | .appended => true
  | _ => false

/-- The supervisor's write does not cross another: a terminal status does not come between its read of a
    status and the write that keeps it, and it does not end a run that has ended or that a stop is ending. -/
def WriteUncrossed (s : Lifecycle) : Option (RunRecord × RunPatch) → Prop
  | none => True
  | some (held, ⟨none, _, _⟩) => terminal s.world.record.status = true → held.status = s.world.record.status
  | some (_, ⟨some _, _, _⟩) => terminal s.world.record.status = false ∧ StopPhase.inProgress s.stop.phase = false

instance (s : Lifecycle) : (write : Option (RunRecord × RunPatch)) → Decidable (WriteUncrossed s write)
  | none => inferInstanceAs (Decidable True)
  | some (held, ⟨none, _, _⟩) =>
    inferInstanceAs (Decidable (terminal s.world.record.status = true → held.status = s.world.record.status))
  | some (_, ⟨some _, _, _⟩) =>
    inferInstanceAs (Decidable (terminal s.world.record.status = false ∧ StopPhase.inProgress s.stop.phase = false))

/-- The writes do not cross: nor does the starter mark `running` a run that has ended. -/
def Uncrossed (s : Lifecycle) : Move → Prop
  | .supervisor _ => WriteUncrossed s (pendingWrite s.supervisor.prog)
  | .starter => (pendingWrite s.starter.prog).isSome = true → terminal s.world.record.status = false
  | .stop => True
  | .die => True

instance (s : Lifecycle) : (m : Move) → Decidable (Uncrossed s m)
  | .supervisor _ => inferInstanceAs (Decidable (WriteUncrossed s (pendingWrite s.supervisor.prog)))
  | .starter => inferInstanceAs (Decidable ((pendingWrite s.starter.prog).isSome = true →
    terminal s.world.record.status = false))
  | .stop => inferInstanceAs (Decidable True)
  | .die => inferInstanceAs (Decidable True)

/-! ## The programs keep to their protocols -/

/-- The supervisor has not ended the run. -/
def Working : SupervisorPhase → Prop
  | .working _ => True
  | _ => False

/-- The program leaves the supervisor working, wherever it finds it so. -/
def Works {α : Type} (m : Program α) : Prop :=
  ∀ p, Working p → Leads supervisorProtocol p m fun _ p' => Working p'

/-- The program ends the run. -/
def Ends (m : Program Unit) : Prop :=
  ∀ p, Working p → Leads supervisorProtocol p m fun _ p' => supervisorProtocol.final p'

section

variable {α β : Type}

theorem Works.pure (a : α) : Works (Pure.pure a) := fun _ hp => leads_pure hp

theorem Works.bind {m : Program α} {f : α → Program β} (hm : Works m) (hf : ∀ a, Works (f a)) : Works (m >>= f) :=
  fun p hp => leads_bind (hm p hp) fun a p' hp' => hf a p' hp'

theorem Works.then_ends {m : Program α} {f : α → Program Unit} (hm : Works m) (hf : ∀ a, Ends (f a)) : Ends (m >>= f) :=
  fun p hp => leads_bind (hm p hp) fun a p' hp' => hf a p' hp'

theorem readRun_seen {p : SupervisorPhase} (hp : Working p) :
    Leads supervisorProtocol p readRun fun record p' => p' = .working (some record.status) := by
  cases p with
  | working seen => exact leads_perform trivial fun record => rfl
  | ending status => exact hp.elim
  | closed status => exact hp.elim

theorem readRun_works : Works readRun := by
  intro p hp
  refine (readRun_seen hp).mono ?_
  rintro record p' rfl
  trivial

theorem ask_works (q : Question) : Works (ask q) := by
  intro p hp
  cases p with
  | working seen => exact leads_perform trivial fun _ => trivial
  | ending status => exact hp.elim
  | closed status => exact hp.elim

theorem append_works {event : Event} (h : endsRun event = false) : Works (appendEvent event) := by
  intro p hp
  cases p with
  | working seen => exact leads_perform h fun _ => trivial
  | ending status => exact hp.elim
  | closed status => exact hp.elim

/-- An update that leaves the status alone. -/
theorem update_works {patch : RunPatch} (h : patch.status = none) : Works (updateRun patch) := by
  intro p hp
  refine leads_bind (readRun_seen hp) ?_
  rintro record p' rfl
  refine leads_perform ?_ fun _ => ?_
  · show match patch.status with | none => _ | some _ => _
    rw [h]
  · show Working (match patch.status with | none => _ | some _ => _)
    rw [h]
    trivial

/-- **The end of a run**: the record, then the log. -/
theorem finish_ends {status : RunStatus} (h : status = .completed ∨ status = .failed) : Ends (finish status) := by
  intro p hp
  have hwritten : Leads supervisorProtocol p (updateRun ⟨some status, none, some none⟩)
      fun _ p' => p' = SupervisorPhase.ending status := by
    refine leads_bind (readRun_seen hp) ?_
    rintro record p' rfl
    exact leads_perform h fun _ => rfl
  refine leads_bind hwritten ?_
  rintro _ p' rfl
  exact leads_perform rfl fun _ => trivial

theorem failWith_ends (message : String) (code : Option String) : Ends (failWith message code) :=
  (append_works rfl).then_ends fun _ => finish_ends (.inr rfl)

theorem diagnosticError_works (message : String) (code : Option String) : Works (diagnosticError message code) :=
  (append_works rfl).bind fun _ => .pure _

theorem emit_works (lines : List String) : Works (emit lines) := by
  induction lines with
  | nil => exact .pure ()
  | cons line rest ih => exact (append_works rfl).bind fun _ => ih

theorem outcomeOf_works (label : String) (started stopped : Bool) (exit : Exit) :
    Works (outcomeOf label started stopped exit) := by
  unfold outcomeOf
  split
  · exact diagnosticError_works _ _
  split
  · exact .pure _
  split
  · exact diagnosticError_works _ _
  split
  · exact .pure _
  split
  · exact diagnosticError_works _ _
  · exact diagnosticError_works _ _

theorem recordChild_works (pid : Option Nat) : Works (recordChild pid) := by
  cases pid with
  | none => exact .pure ()
  | some pid => exact update_works rfl

theorem awaitChild_works (label : String) : Works (awaitChild label) :=
  (ask_works _).bind fun pid => (recordChild_works pid).bind fun _ => (ask_works _).bind fun lines =>
    (emit_works lines).bind fun _ => (ask_works _).bind fun exit => readRun_works.bind fun _ =>
      (update_works rfl).bind fun _ => outcomeOf_works label _ _ exit

theorem execAgent_works (agent : Agent) (label : String) : Works (execAgent agent label) := by
  refine (ask_works _).bind fun preparation => ?_
  cases preparation with
  | ready => exact awaitChild_works label
  | refused message code => exact diagnosticError_works _ _
  | throws message => exact diagnosticError_works _ _

theorem mockAgent_works : Works mockAgent := by
  refine (ask_works _).bind fun lines => (emit_works lines).bind fun _ => (ask_works _).bind fun outcome => ?_
  cases outcome with
  | completed => exact .pure _
  | failed message => exact diagnosticError_works _ _

theorem runAdapter_works (agent : Agent) : Works (runAdapter agent) := by
  cases agent with
  | claudeCode => exact execAgent_works _ _
  | codex => exact execAgent_works _ _
  | mock => exact mockAgent_works

theorem complete_ends : Ends complete := by
  refine (ask_works _).then_ends fun verification => ?_
  cases verification with
  | undeclared => exact finish_ends (.inl rfl)
  | unavailable message => exact failWith_ends _ _
  | threw message => exact failWith_ends _ _
  | ran summary => exact (append_works rfl).then_ends fun _ => finish_ends (.inl rfl)

theorem handOff_works (agent next : Agent) : Works (handOff agent next) := by
  refine (ask_works _).bind fun fault => ?_
  have htail : Works (do
      appendEvent (.log ("↪ switching agent: " ++ agent.name ++ " → " ++ next.name))
      updateRun ⟨none, none, none⟩) :=
    (append_works rfl).bind fun _ => update_works rfl
  cases fault with
  | none => exact htail
  | some message => exact (append_works rfl).bind fun _ => htail

theorem sandboxGate_works (agent : Agent) : Works (sandboxGate agent) := by
  unfold sandboxGate
  split
  · refine (ask_works _).bind fun decision => ?_
    cases decision with
    | none => exact .pure _
    | some answer => exact (append_works rfl).bind fun _ => .pure _
  · exact .pure _

/-- **An agent ends the run**, hands it on, or finds it stopped. -/
theorem attempt_ends (agent : Agent) {fallback : String → Program Unit} (h : ∀ message, Ends (fallback message)) :
    Ends (attempt agent fallback) := by
  refine readRun_works.then_ends fun _ => (ask_works _).then_ends fun known => ?_
  cases known with
  | false => exact failWith_ends _ _
  | true =>
    refine (sandboxGate_works agent).then_ends fun denied => ?_
    cases denied with
    | some code => exact failWith_ends _ _
    | none =>
      refine (runAdapter_works agent).then_ends fun outcome => ?_
      -- the last read decides whether the supervisor may leave
      intro p hp
      refine leads_bind (readRun_seen hp) ?_
      rintro current p' rfl
      unfold conclude
      split
      · rename_i hstopped
        exact leads_pure (congrArg some (of_decide_eq_true hstopped))
      · cases outcome with
        | completed => exact complete_ends _ trivial
        | failed message => exact h message _ trivial

theorem tryAgents_ends (agent : Agent) (rest : List Agent) : Ends (tryAgents agent rest) := by
  induction rest generalizing agent with
  | nil => exact attempt_ends agent fun _ => finish_ends (.inr rfl)
  | cons next others ih =>
    refine attempt_ends agent fun message => (ask_works _).then_ends fun switches => ?_
    cases switches with
    | true => exact (handOff_works agent next).then_ends fun _ => ih next
    | false => exact finish_ends (.inr rfl)

/-- **The supervisor keeps to its protocol.** -/
theorem supervisor_follows (primary : Agent) (fallbacks : List Agent) : Ends (runSupervisor primary fallbacks) := by
  refine readRun_works.then_ends fun _ => (update_works rfl).then_ends fun _ => (append_works rfl).then_ends fun _ =>
    (ask_works _).then_ends fun auth => ?_
  cases auth with
  | some reason => exact failWith_ends _ _
  | none =>
    refine (ask_works _).then_ends fun gate => ?_
    cases gate with
    | some refusal => exact failWith_ends _ _
    | none =>
      refine (ask_works _).then_ends fun verifier => ?_
      cases verifier with
      | some message => exact failWith_ends _ _
      | none => exact tryAgents_ends primary fallbacks

theorem starter_follows (sessionId : String) :
    Leads starterProtocol .starting (startRun sessionId) fun _ p => starterProtocol.final p :=
  ⟨trivial, fun _ => ⟨rfl, fun _ => trivial⟩⟩

theorem stop_follows : Leads stopProtocol .idle stopRun fun _ p => stopProtocol.final p := by
  refine ⟨trivial, fun record => ?_⟩
  show Leads stopProtocol (if terminal record.status then .refused else .engaged)
    (if terminal record.status then pure () else _) _
  cases terminal record.status with
  | true => trivial
  | false => exact ⟨trivial, fun _ => ⟨rfl, fun _ => ⟨trivial, fun _ => ⟨rfl, fun _ => trivial⟩⟩⟩⟩

end

/-! ## The invariant -/

/-- Where the supervisor and the stop stand tells what the record and the log have. -/
def Agrees (supervisor : SupervisorPhase) (stop : StopPhase) (status : RunStatus) (ended : List RunStatus) : Prop :=
  match stop, supervisor with
  | .idle, .working _ | .refused, .working _ | .engaged, .working _ => terminal status = false ∧ ended = []
  | .idle, .ending t | .refused, .ending t => status = t ∧ terminal t = true ∧ ended = []
  | .idle, .closed t | .refused, .closed t => status = t ∧ terminal t = true ∧ ended = [t]
  | .appended, .working _ => terminal status = false ∧ ended = [.stopped]
  | .finished, .working _ => status = .stopped ∧ ended = [.stopped]
  | _, _ => False

structure LifeInv (s : Lifecycle) : Prop where
  supervisor : s.supervisor.Follows
  starter : s.starter.Follows
  stop : s.stop.Follows
  seen : ∀ status, s.supervisor.phase = .working (some status) → terminal status = true → s.world.record.status = status
  signalled : s.world.signalled = true → s.stop.phase ≠ .idle ∧ s.stop.phase ≠ .refused
  alive : s.alive = false → s.world.signalled = true
  agrees : Agrees s.supervisor.phase s.stop.phase s.world.record.status (terminalEvents s.world.log)

theorem terminalEvents_append (log : List Event) (event : Event) :
    terminalEvents (log ++ [event]) = terminalEvents log ++ terminalEvents [event] := List.filterMap_append

theorem terminalEvents_plain {log : List Event} {event : Event} (h : endsRun event = false) :
    terminalEvents (log ++ [event]) = terminalEvents log := by
  rw [terminalEvents_append]
  cases event with
  | status status =>
    have hplain : terminal status = false := h
    simp [terminalEvents, hplain]
  | error message code => simp [terminalEvents]
  | log message => simp [terminalEvents]

theorem terminalEvents_end {log : List Event} {status : RunStatus} (h : terminal status = true) :
    terminalEvents (log ++ [.status status]) = terminalEvents log ++ [status] := by
  rw [terminalEvents_append]
  simp [terminalEvents, h]

section

variable {s : Lifecycle}

/-- What a working supervisor has seen does not matter to the others. -/
theorem agrees_working {seen seen' : Option RunStatus} {stop : StopPhase} {status : RunStatus} {ended : List RunStatus}
    (h : Agrees (.working seen) stop status ended) : Agrees (.working seen') stop status ended := by
  cases stop with
  | idle => exact h
  | refused => exact h
  | engaged => exact h
  | appended => exact h
  | finished => exact h

/-- A supervisor that has written its end has no stop beside it. -/
theorem agrees_ending {t : RunStatus} {stop : StopPhase} {status : RunStatus} {ended : List RunStatus}
    (h : Agrees (.ending t) stop status ended) : Agrees (.closed t) stop status (ended ++ [t]) ∧ terminal t = true := by
  cases stop with
  | idle =>
    obtain ⟨hstatus, ht, rfl⟩ := h
    exact ⟨⟨hstatus, ht, rfl⟩, ht⟩
  | refused =>
    obtain ⟨hstatus, ht, rfl⟩ := h
    exact ⟨⟨hstatus, ht, rfl⟩, ht⟩
  | engaged => exact h.elim
  | appended => exact h.elim
  | finished => exact h.elim

theorem agrees_over {t : RunStatus} {stop : StopPhase} {status : RunStatus} {ended : List RunStatus}
    (h : Agrees (.closed t) stop status ended) : status = t ∧ terminal t = true := by
  cases stop with
  | idle => exact ⟨h.1, h.2.1⟩
  | refused => exact ⟨h.1, h.2.1⟩
  | engaged => exact h.elim
  | appended => exact h.elim
  | finished => exact h.elim

/-- The supervisor ends a run that nobody else is ending. -/
theorem agrees_ended {seen : Option RunStatus} {stop : StopPhase} {status t : RunStatus} {ended : List RunStatus}
    (h : Agrees (.working seen) stop status ended) (hgoing : terminal status = false) (hstop : stop.inProgress = false)
    (ht : terminal t = true) : Agrees (.ending t) stop t ended := by
  cases stop with
  | idle => exact ⟨rfl, ht, h.2⟩
  | refused => exact ⟨rfl, ht, h.2⟩
  | engaged => exact nomatch hstop
  | appended => exact nomatch hstop
  | finished =>
    obtain ⟨rfl, -⟩ := h
    exact nomatch hgoing

/-- The status that a working supervisor keeps. -/
theorem agrees_kept {seen : Option RunStatus} {stop : StopPhase} {status status' : RunStatus} {ended : List RunStatus}
    (h : Agrees (.working seen) stop status ended) (hkept : terminal status = true → status' = status)
    (hgoing : terminal status = false → terminal status' = false) : Agrees (.working none) stop status' ended := by
  cases hterm : terminal status with
  | true =>
    rw [hkept hterm]
    exact agrees_working h
  | false =>
    have hterm' := hgoing hterm
    cases stop with
    | idle => exact ⟨hterm', h.2⟩
    | refused => exact ⟨hterm', h.2⟩
    | engaged => exact ⟨hterm', h.2⟩
    | appended => exact ⟨hterm', h.2⟩
    | finished =>
      obtain ⟨rfl, -⟩ := h
      exact nomatch hterm

theorem LifeInv.supervised (h : LifeInv s) (w : World) {t : Thread supervisorProtocol} (ht : t.Follows)
    (hseen : ∀ status, t.phase = .working (some status) → terminal status = true → w.record.status = status)
    (hsignalled : w.signalled = s.world.signalled)
    (hagrees : Agrees t.phase s.stop.phase w.record.status (terminalEvents w.log)) :
    LifeInv { s with world := w, supervisor := t } :=
  ⟨ht, h.starter, h.stop, hseen, (fun hs => h.signalled (hsignalled.symm.trans hs)),
    (fun ha => hsignalled.trans (h.alive ha)), hagrees⟩

/-- **A move of the supervisor.** -/
theorem supervisor_inv (h : LifeInv s) {oracle : Oracle} (hm : Uncrossed s (.supervisor oracle)) :
    LifeInv (move s (.supervisor oracle)) := by
  show LifeInv (if s.alive then _ else s)
  split
  swap
  · exact h
  have hfollows := Thread.step_follows (exec oracle) s.world h.supervisor
  rcases Thread.step_cases (exec oracle) s.world h.supervisor with hidle | ⟨op, k, hprog, hop, hstep⟩
  · rw [hidle]
    exact h
  rw [hstep] at hfollows ⊢
  have hagrees := h.agrees
  have hseen := h.seen
  generalize hphase : s.supervisor.phase = phase at *
  cases phase with
  | closed status => cases op <;> exact hop.elim
  | ending status =>
    cases op with
    | appendEvent event =>
      obtain rfl : event = .status status := hop
      obtain ⟨hover, ht⟩ := agrees_ending hagrees
      refine h.supervised _ hfollows nofun rfl ?_
      show Agrees (.closed status) s.stop.phase s.world.record.status (terminalEvents (s.world.log ++ [.status status]))
      rw [terminalEvents_end ht]
      exact hover
    | _ => exact hop.elim
  | working seen =>
    cases op with
    | readRun =>
      refine h.supervised _ hfollows ?_ rfl (agrees_working hagrees)
      rintro status ⟨⟩ -
      rfl
    | appendEvent event =>
      refine h.supervised _ hfollows nofun rfl ?_
      show Agrees (.working none) s.stop.phase s.world.record.status (terminalEvents (s.world.log ++ [event]))
      rw [terminalEvents_plain hop]
      exact agrees_working hagrees
    | ask q => exact h.supervised _ hfollows nofun rfl (agrees_working hagrees)
    | kill sessionId childPid => exact hop.elim
    | writeRun held patch =>
      simp only [Uncrossed, hprog, pendingWrite] at hm
      obtain ⟨status, sessionId, childPid⟩ := patch
      cases status with
      | none =>
        -- the status is the one that was read
        obtain rfl : seen = some held.status := hop
        refine h.supervised _ hfollows nofun rfl (agrees_kept hagrees hm fun hgoing => ?_)
        cases hheld : terminal held.status with
        | false => exact hheld
        | true =>
          rw [hseen _ rfl hheld] at hgoing
          exact nomatch hheld.symm.trans hgoing
      | some status =>
        have hend : terminal status = true := by
          rcases hop with rfl | rfl
          · rfl
          · rfl
        exact h.supervised _ hfollows nofun rfl (agrees_ended hagrees hm.1 hm.2 hend)

/-- A run that goes on may change between statuses that are not terminal. -/
theorem agrees_running {supervisor : SupervisorPhase} {stop : StopPhase} {status status' : RunStatus}
    {ended : List RunStatus}
    (h : Agrees supervisor stop status ended) (hgoing : terminal status = false) (hgoing' : terminal status' = false) :
    Agrees supervisor stop status' ended := by
  cases supervisor with
  | working seen =>
    refine agrees_working (agrees_kept h (fun hterm => ?_) fun _ => hgoing')
    exact nomatch hterm.symm.trans hgoing
  | ending t =>
    obtain ⟨rfl, ht⟩ := agrees_over (agrees_ending h).1
    exact nomatch ht.symm.trans hgoing
  | closed t =>
    obtain ⟨rfl, ht⟩ := agrees_over h
    exact nomatch ht.symm.trans hgoing

/-- **A move of the starter.** -/
theorem starter_inv (h : LifeInv s) (hm : Uncrossed s .starter) : LifeInv (move s .starter) := by
  have hfollows := Thread.step_follows (exec quiet) s.world h.starter
  show LifeInv { s with
    world := (s.starter.step (exec quiet) s.world).1
    starter := (s.starter.step (exec quiet) s.world).2 }
  rcases Thread.step_cases (exec quiet) s.world h.starter with hidle | ⟨op, k, hprog, hop, hstep⟩
  · rw [hidle]
    exact h
  rw [hstep] at hfollows ⊢
  generalize s.starter.phase = phase at hop hfollows ⊢
  cases phase with
  | started => cases op <;> exact hop.elim
  | starting =>
    cases op with
    | readRun => exact ⟨h.supervisor, hfollows, h.stop, h.seen, h.signalled, h.alive, h.agrees⟩
    | writeRun held patch =>
      have hgoing : terminal s.world.record.status = false := hm (by rw [hprog]; rfl)
      have hpatch : patch.status = some .running := hop
      have hrunning : (held.patched patch).status = .running := by
        unfold RunRecord.patched
        rw [hpatch]
        rfl
      refine ⟨h.supervisor, hfollows, h.stop, fun status hphase hterm => ?_, h.signalled, h.alive, ?_⟩
      · rw [h.seen status hphase hterm] at hgoing
        exact nomatch hterm.symm.trans hgoing
      · refine agrees_running h.agrees hgoing ?_
        show terminal (held.patched patch).status = false
        rw [hrunning]
        rfl
    | _ => exact hop.elim

/-- A stop that finds the run going on has only a working supervisor beside it. -/
theorem agrees_engaged {supervisor : SupervisorPhase} {status : RunStatus} {ended : List RunStatus}
    (h : Agrees supervisor .idle status ended) :
    Agrees supervisor (if terminal status then .refused else .engaged) status ended := by
  cases supervisor with
  | working seen =>
    rw [if_neg (Bool.eq_false_iff.mp h.1)]
    exact h
  | ending t =>
    rw [if_pos (h.1 ▸ h.2.1)]
    exact h
  | closed t =>
    rw [if_pos (h.1 ▸ h.2.1)]
    exact h

/-- The stop appends its event, and then writes its status. -/
theorem agrees_appended {supervisor : SupervisorPhase} {status : RunStatus} {ended : List RunStatus}
    (h : Agrees supervisor .engaged status ended) : Agrees supervisor .appended status (ended ++ [.stopped]) := by
  cases supervisor with
  | working seen =>
    obtain ⟨hgoing, rfl⟩ := h
    exact ⟨hgoing, rfl⟩
  | ending t => exact h.elim
  | closed t => exact h.elim

theorem agrees_finished {supervisor : SupervisorPhase} {status : RunStatus} {ended : List RunStatus}
    (h : Agrees supervisor .appended status ended) :
    terminal status = false ∧ Agrees supervisor .finished .stopped ended := by
  cases supervisor with
  | working seen => exact ⟨h.1, rfl, h.2⟩
  | ending t => exact h.elim
  | closed t => exact h.elim

/-- **A move of the stop.** -/
theorem stop_inv (h : LifeInv s) : LifeInv (move s .stop) := by
  have hfollows := Thread.step_follows (exec quiet) s.world h.stop
  show LifeInv { s with
    world := (s.stop.step (exec quiet) s.world).1
    stop := (s.stop.step (exec quiet) s.world).2 }
  rcases Thread.step_cases (exec quiet) s.world h.stop with hidle | ⟨op, k, hprog, hop, hstep⟩
  · rw [hidle]
    exact h
  rw [hstep] at hfollows ⊢
  have hagrees := h.agrees
  have hsignalled := h.signalled
  generalize s.stop.phase = phase at *
  cases phase with
  | idle =>
    cases op with
    | readRun =>
      refine ⟨h.supervisor, h.starter, hfollows, h.seen, fun hs => absurd rfl (hsignalled hs).1, h.alive, ?_⟩
      exact agrees_engaged hagrees
    | _ => exact hop.elim
  | refused => cases op <;> exact hop.elim
  | finished => cases op <;> exact hop.elim
  | engaged =>
    cases op with
    | kill sessionId childPid =>
      refine ⟨h.supervisor, h.starter, hfollows, h.seen, fun _ => ⟨nofun, nofun⟩, fun ha => ?_, hagrees⟩
      show (s.world.signalled || decide (sessionId ≠ "")) = true
      rw [h.alive ha, Bool.true_or]
    | appendEvent event =>
      obtain rfl : event = .status .stopped := hop
      refine ⟨h.supervisor, h.starter, hfollows, h.seen, fun _ => ⟨nofun, nofun⟩, h.alive, ?_⟩
      show Agrees s.supervisor.phase .appended s.world.record.status
        (terminalEvents (s.world.log ++ [.status .stopped]))
      rw [terminalEvents_end rfl]
      exact agrees_appended hagrees
    | _ => exact hop.elim
  | appended =>
    cases op with
    | readRun => exact ⟨h.supervisor, h.starter, hfollows, h.seen, hsignalled, h.alive, hagrees⟩
    | writeRun held patch =>
      obtain ⟨hgoing, hfinished⟩ := agrees_finished hagrees
      have hpatch : patch.status = some .stopped := hop
      have hstopped : (held.patched patch).status = .stopped := by
        unfold RunRecord.patched
        rw [hpatch]
        rfl
      refine ⟨h.supervisor, h.starter, hfollows, fun status hphase hterm => ?_, fun _ => ⟨nofun, nofun⟩, h.alive, ?_⟩
      · rw [h.seen status hphase hterm] at hgoing
        exact nomatch hterm.symm.trans hgoing
      · show Agrees s.supervisor.phase .finished (held.patched patch).status (terminalEvents s.world.log)
        rw [hstopped]
        exact hfinished
    | _ => exact hop.elim

/-- **One move.** -/
theorem move_inv (h : LifeInv s) {m : Move} (hm : Uncrossed s m) : LifeInv (move s m) := by
  cases m with
  | supervisor oracle => exact supervisor_inv h hm
  | starter => exact starter_inv h hm
  | stop => exact stop_inv h
  | die =>
    show LifeInv (if s.world.signalled then { s with alive := false } else s)
    split
    · rename_i hs
      exact ⟨h.supervisor, h.starter, h.stop, h.seen, h.signalled, fun _ => hs, h.agrees⟩
    · exact h

theorem spawned_inv (primary : Agent) (fallbacks : List Agent) (sessionId : String) (stops : Bool) :
    LifeInv (spawned primary fallbacks sessionId stops) := by
  refine ⟨supervisor_follows primary fallbacks _ trivial, starter_follows sessionId, ?_, nofun, nofun, nofun, rfl, rfl⟩
  show Leads stopProtocol .idle (if stops then stopRun else pure ()) _
  cases stops with
  | true => exact stop_follows
  | false => trivial

/-- A settled run has one terminal event. -/
theorem LifeInv.endsOnce (h : LifeInv s) : EndsOnce s := by
  intro hsettled
  simp only [Lifecycle.settled, Bool.and_eq_true, Bool.or_eq_true, Bool.not_eq_true'] at hsettled
  obtain ⟨⟨hsupervisor, -⟩, hstop⟩ := hsettled
  have hfinal : stopProtocol.final s.stop.phase := Thread.final_of_ended h.stop hstop
  have hagrees := h.agrees
  have hsignalled := h.signalled
  rcases hsupervisor with hended | hdead
  · -- the supervisor has appended its end, or has left a run that was stopped
    have hover : supervisorProtocol.final s.supervisor.phase := Thread.final_of_ended h.supervisor hended
    have hseen := h.seen
    generalize s.supervisor.phase = phase at *
    generalize s.stop.phase = stop at *
    cases phase with
    | ending t => exact hover.elim
    | closed t =>
      cases stop with
      | idle => exact ⟨t, hagrees.2.2, hagrees.1⟩
      | refused => exact ⟨t, hagrees.2.2, hagrees.1⟩
      | _ => exact hagrees.elim
    | working seen =>
      obtain rfl : seen = some .stopped := hover
      have hstopped := hseen .stopped rfl rfl
      rw [hstopped] at hagrees ⊢
      cases stop with
      | idle => exact nomatch hagrees.1
      | refused => exact nomatch hagrees.1
      | engaged => exact hfinal.elim
      | appended => exact hfinal.elim
      | finished => exact ⟨.stopped, hagrees.2, rfl⟩
  · -- the supervisor was killed by a stop, which has finished
    have hne := hsignalled (h.alive hdead)
    generalize s.stop.phase = stop at *
    cases stop with
    | idle => exact absurd rfl hne.1
    | refused => exact absurd rfl hne.2
    | engaged => exact hfinal.elim
    | appended => exact hfinal.elim
    | finished =>
      generalize s.supervisor.phase = phase at hagrees
      cases phase with
      | working seen => exact ⟨.stopped, hagrees.2, hagrees.1⟩
      | ending t => exact hagrees.elim
      | closed t => exact hagrees.elim

/-- A step that is not a write leaves the record. -/
theorem step_record {P : Protocol Op Op.Ans} {t : Thread P} (oracle : Oracle) (w : World) (ht : t.Follows) :
    (t.step (exec oracle) w).1.record = w.record ∨ ∃ held patch, pendingWrite t.prog = some (held, patch) ∧
      P.allowed t.phase (.writeRun held patch) ∧ (t.step (exec oracle) w).1.record = held.patched patch := by
  rcases Thread.step_cases (exec oracle) w ht with hidle | ⟨op, k, hprog, hop, hstep⟩
  · rw [hidle]
    exact .inl rfl
  · rw [hstep, hprog]
    cases op with
    | writeRun held patch => exact .inr ⟨held, patch, rfl, hop, rfl⟩
    | _ => exact .inl rfl

/-- **A terminal status is not left.** -/
theorem LifeInv.keepsTerminal (h : LifeInv s) {m : Move} (hm : Uncrossed s m) : KeepsTerminal s m := by
  intro hterm
  cases m with
  | supervisor oracle =>
    show (if s.alive then _ else s : Lifecycle).world.record.status = _
    split
    · rcases step_record oracle s.world h.supervisor with hsame | ⟨held, patch, hwrite, -, hrecord⟩
      · exact congrArg RunRecord.status hsame
      · refine (congrArg RunRecord.status hrecord).trans ?_
        simp only [Uncrossed, hwrite] at hm
        obtain ⟨status, sessionId, childPid⟩ := patch
        cases status with
        | none => exact hm hterm
        | some status => exact nomatch hterm.symm.trans hm.1
    · rfl
  | starter =>
    rcases step_record quiet s.world h.starter with hsame | ⟨held, patch, hwrite, -, -⟩
    · exact congrArg RunRecord.status hsame
    · exact nomatch hterm.symm.trans (hm (by rw [hwrite]; rfl))
  | stop =>
    rcases step_record quiet s.world h.stop with hsame | ⟨held, patch, -, hop, -⟩
    · exact congrArg RunRecord.status hsame
    · -- a stop writes only after it has found the run going on
      have hagrees := h.agrees
      generalize s.stop.phase = phase at hop hagrees
      cases phase with
      | appended => exact nomatch hterm.symm.trans (agrees_finished hagrees).1
      | _ => exact hop.elim
  | die =>
    show (if s.world.signalled then _ else s : Lifecycle).world.record.status = _
    split
    · rfl
    · rfl

end

/-- **One terminal event.**  In every interleaving of a supervisor, its starter and a stop whose writes
    do not cross: a terminal status of the record is never left, and once all have ended the log has one
    terminal event and the record has its status. -/
theorem one_terminal_event (primary : Agent) (fallbacks : List Agent) (sessionId : String) (stops : Bool)
    {moves : List Move} (h : Always move Uncrossed (spawned primary fallbacks sessionId stops) moves) :
    Always move KeepsTerminal (spawned primary fallbacks sessionId stops) moves ∧
      EndsOnce (run move (spawned primary fallbacks sessionId stops) moves) := by
  have hstart := spawned_inv primary fallbacks sessionId stops
  refine ⟨h.imp LifeInv (fun _ _ hi hm => move_inv hi hm) (fun _ _ hi hm => hi.keepsTerminal hm) hstart, ?_⟩
  exact (h.inv_run LifeInv (fun _ _ hi hm => move_inv hi hm) hstart).endsOnce

/-! ## Two interleavings -/

/-- The starter's update comes first; then a stop finds the agent running, and the supervisor is killed. -/
def stoppedMidway : List Move :=
  [.starter, .starter] ++ List.replicate 8 (.supervisor quiet) ++ List.replicate 5 .stop ++ [.die]

theorem stopped_midway_ends_once :
    (run move (spawned .claudeCode [.codex] "7" true) stoppedMidway).settled = true ∧
      terminalEvents (run move (spawned .claudeCode [.codex] "7" true) stoppedMidway).world.log = [.stopped] ∧
      EndsOnce (run move (spawned .claudeCode [.codex] "7" true) stoppedMidway) :=
  ⟨by decide +kernel, by decide +kernel, (one_terminal_event .claudeCode [.codex] "7" true (by decide +kernel)).2⟩

/-- A mock agent is done before the starter's update: sixteen operations. -/
def hurried : List Move := List.replicate 16 (.supervisor quiet) ++ [.starter, .starter]

/-- The record of a run that has ended says that it is running. -/
theorem starter_revives_record :
    ¬ ∀ (primary : Agent) (fallbacks : List Agent) (sessionId : String) (stops : Bool) (moves : List Move),
      Always move KeepsTerminal (spawned primary fallbacks sessionId stops) moves ∧
        EndsOnce (run move (spawned primary fallbacks sessionId stops) moves) := by
  intro h
  obtain ⟨status, hevents, hstatus⟩ := (h .mock [] "7" false hurried).2 (by decide +kernel)
  have hlog : terminalEvents (run move (spawned .mock [] "7" false) hurried).world.log = [.completed] := by decide +kernel
  have hrecord : (run move (spawned .mock [] "7" false) hurried).world.record.status = .running := by decide +kernel
  rw [hlog] at hevents
  rw [hrecord] at hstatus
  obtain rfl := List.head_eq_of_cons_eq hevents
  exact nomatch hstatus

end VibeLifecycle
