import VibeWorkflow.SystemProofs

/-!
# What one call can do to the world

`exec` says how each call takes effect; `Effect` says once, guards included, everything that can
come of it, and every later proof about a step of the system is a case analysis on it.

* **`exec_effect`** — a call that takes effect has one of these effects.
* **`storeCall_cases`** — a store call runs, or is refused and changes nothing.
-/

namespace VibeRuntime

open VibeJson VibeContract VibeRouting VibeTemplate VibeValidator VibeStore VibeAdmission VibeControl
open AsyncLogic

/-- The world after a write to the store. -/
def World.write (w : World) (db : Db) : World := { w with db := db }

/-- A step is cancelled with its workflow, when the caller names one. -/
def cancelNamed (db : Db) : Option StepKey → Db
  | some k => cancelStep db k
  | none => db

/-- The row of a step that failed. -/
def failedRow (error : Json) (r : StepRow) : StepRow :=
  { r with status := .failed, error := some error }

/-- A step fails and is counted. -/
def failRow (db : Db) (k : StepKey) (stepEv : WorkflowEvent) (error : Json) : Db :=
  ((db.setStep k (failedRow error)).setWf (fun w =>
    { w with totalFailures := w.totalFailures + 1 })).append stepEv

/-- The workflow's status changes, with an event. -/
def setStatus (db : Db) (status : WorkflowStatus) (ev : WorkflowEvent) : Db :=
  (db.setWf (fun w => { w with status := status })).append ev

/-- The status a pause gate waits in. -/
def gateStatus (gate : StepPauseGate) : WorkflowStatus :=
  match gate.kind with
  | .input => .waitingInput
  | .approval => .waitingApproval

/-- The answers a call may leave in the history. -/
inductive Notes : Op → World → EnvAnswer → Prop where
  | taskRow {w : World} {id : String} {st : Option String} : Notes (.getTask id) w (.taskRow id st)
  | noTaskRow {w : World} {id : String} : Notes (.getTask id) w (.unread id)
  | taskResult {w : World} {id : String} {r : Option TaskResult} :
      Notes (.getTaskResult id) w (.taskResult id r)
  | noTaskResult {w : World} {id : String} : Notes (.getTaskResult id) w (.unread id)
  | bindFailed {w : World} {k : StepKey} {id : String} {ev : WorkflowEvent} :
      Notes (.bindStepTaskOnce k id ev) w .createFailed
  | read {w : World} {id : String} {c : Int} {site : WaitSite} {t : AgentTask} {r : TerminalRead}
      (ht : w.task? id = some t) (hid : r.taskId = id) (hst : r.status = t.status) :
      Notes (.waitForTerminal id c site) w (.read r)
  | leases {w : World} {q : LeaseQuery} {r : LeaseReply} : Notes (.lease q) w (.leases r)
  | noLeases {w : World} {q : LeaseQuery} : Notes (.lease q) w .unleased

/-- What a call may do to the world. -/
inductive Effect : Op → World → World → Prop where
  | same {op : Op} {w : World} : Effect op w w
  | noted {op : Op} {w : World} {a : EnvAnswer} (h : Notes op w a) : Effect op w (w.note a)
  | looked {w : World} : Effect (.getWorkflow .driveHead) w { w with restarted := false }
  | started {w : World} {ev : WorkflowEvent} (h : w.db.wf.status = .ready) :
      Effect (.startDurably ev) w (w.restart ((w.db.setWf (fun r =>
        { r with status := .running, startedAt := some (r.startedAt.getD w.now) })).append ev))
  | stepStarted {w : World} {k : StepKey} {ev : WorkflowEvent} (h : w.db.step? k = none) :
      Effect (.ensureStepStarted k ev) w (w.write
        ((({ w.db with steps := w.db.steps ++ [StepRow.fresh k] }).setWf (fun r =>
          { r with currentStepId := some k.stepId })).append ev))
  | bound {w : World} {k : StepKey} {taskId : String} {ev : WorkflowEvent} {row : StepRow}
      (h : w.db.step? k = some row) (hfree : row.taskId = none) :
      Effect (.bindStepTaskOnce k taskId ev) w (w.write
        (((w.db.setStep k (fun r => { r with taskId := some taskId })).setWf (fun r =>
          { r with totalTasks := r.totalTasks + 1 })).append ev))
  | completed {w : World} {k : StepKey} {output : Json} {context : List (String × Json)}
      {ev : WorkflowEvent} {row : StepRow} (h : w.db.step? k = some row)
      (hlive : isTerminalStepStatus row.status = false) :
      Effect (.completeStep k output w.db.wf.contextRevision context ev) w (w.write
        (((w.db.setStep k (fun r => { r with status := .completed, output := some output })).setWf
          (fun r => { r with context := context, contextRevision := r.contextRevision + 1 })).append ev))
  | advanced {w : World} {edgeEv : WorkflowEvent} {roundEv : Option WorkflowEvent} {next : StepKey}
      {startedEv : WorkflowEvent} (h : w.db.step? next = none)
      (hround : roundEv.isSome → w.db.wf.currentRound ≤ next.round) :
      Effect (.advance edgeEv roundEv next startedEv) w (w.write
        ((({ w.db with
            steps := w.db.steps ++ [StepRow.fresh next]
            events := w.db.events ++ edgeEv :: roundEv.toList } : Db).setWf (fun r => { r with
          currentRound := if roundEv.isSome then next.round else r.currentRound
          currentStepId := some next.stepId })).append startedEv))
  | terminalized {w : World} {status : WorkflowStatus} {edgeEv : Option WorkflowEvent}
      {ev : WorkflowEvent} (hne : w.db.wf.status ≠ status) (hlive : w.db.isTerminal = false) :
      Effect (.terminalize status edgeEv ev) w (w.write
        (setStatus { w.db with events := w.db.events ++ edgeEv.toList } status ev))
  | stepFailed {w : World} {k : StepKey} {stepEv ev : WorkflowEvent} {error : Json} {row : StepRow}
      (h : w.db.step? k = some row) (hrow : isTerminalStepStatus row.status = false)
      (hlive : w.db.isTerminal = false) :
      Effect (.failStepAndWorkflow k stepEv ev error) w
        (w.write (setStatus (failRow w.db k stepEv error) .failed ev))
  | stepFailedLate {w : World} {k : StepKey} {stepEv ev : WorkflowEvent} {error : Json}
      {row : StepRow} (h : w.db.step? k = some row)
      (hrow : isTerminalStepStatus row.status = false) (hend : w.db.isTerminal = true) :
      Effect (.failStepAndWorkflow k stepEv ev error) w (w.write (failRow w.db k stepEv error))
  | failedOnly {w : World} {k : StepKey} {stepEv ev : WorkflowEvent} {error : Json}
      {row : StepRow} (h : w.db.step? k = some row)
      (hrow : isTerminalStepStatus row.status = true) (hlive : w.db.isTerminal = false) :
      Effect (.failStepAndWorkflow k stepEv ev error) w (w.write (setStatus w.db .failed ev))
  | intended {w : World} (h : w.db.wf.cancelRequested = false) (hlive : w.db.isTerminal = false) :
      Effect .recordIntent w (w.write (w.db.setWf (fun r => { r with cancelRequested := true })))
  | cancelled {w : World} {k : Option StepKey} {seen : Option String} {ev : WorkflowEvent}
      (hlive : w.db.isTerminal = false) :
      Effect (.cancelStepAndWorkflow k seen ev) w
        (w.write (setStatus (cancelNamed w.db k) .cancelled ev))
  | asked {w : World} {id : String} {k : StepKey} {gate : StepPauseGate} {ev : WorkflowEvent}
      {row : StepRow} (h : w.db.human? id = none) (hrow : w.db.step? k = some row)
      (hrun : w.db.wf.status ≠ .running) :
      Effect (.pause id k gate ev) w
        (w.write { w.db with human := w.db.human ++ [⟨id, k, gate, .pending, none, w.wall⟩] })
  | askedPaused {w : World} {id : String} {k : StepKey} {gate : StepPauseGate} {ev : WorkflowEvent}
      {row : StepRow} (h : w.db.human? id = none) (hrow : w.db.step? k = some row)
      (hrun : w.db.wf.status = .running) :
      Effect (.pause id k gate ev) w
        (w.write (setStatus { w.db with human := w.db.human ++ [⟨id, k, gate, .pending, none, w.wall⟩] }
          (gateStatus gate) ev))
  | paused {w : World} {id : String} {k : StepKey} {gate : StepPauseGate} {ev : WorkflowEvent}
      (hrun : w.db.wf.status = .running) :
      Effect (.pause id k gate ev) w (w.write (setStatus w.db (gateStatus gate) ev))
  | answered {w : World} {id value : String} {h : HumanRequestRow} (hh : w.db.human? id = some h)
      (hp : h.status = .pending) (hkind : h.gate.kind = .input) :
      Effect (.answer id value) w (w.write (w.db.setHuman id (fun h =>
        { h with status := .answered, responseValue := some value })))
  | approved {w : World} {id : String} {h : HumanRequestRow} (hh : w.db.human? id = some h)
      (hp : h.status = .pending) (hkind : h.gate.kind = .approval) :
      Effect (.approve id) w (w.write (w.db.setHuman id (fun h => { h with status := .approved })))
  | rejected {w : World} {id : String} {ev : WorkflowEvent} {h : HumanRequestRow}
      (hh : w.db.human? id = some h) (hp : h.status = .pending ∨ h.status = .rejected)
      (hlive : w.db.isTerminal = false) (hkind : h.gate.kind = .approval) :
      Effect (.reject id ev) w (w.write
        (setStatus (w.db.setHuman id (fun h => { h with status := .rejected })) .failed ev))
  | rejectedLate {w : World} {id : String} {ev : WorkflowEvent} {h : HumanRequestRow}
      (hh : w.db.human? id = some h) (hp : h.status = .pending ∨ h.status = .rejected)
      (hend : w.db.isTerminal = true) (hkind : h.gate.kind = .approval) :
      Effect (.reject id ev) w (w.write (w.db.setHuman id (fun h => { h with status := .rejected })))
  | resumed {w : World} {ev : WorkflowEvent}
      (h : w.db.wf.status = .waitingInput ∨ w.db.wf.status = .waitingApproval) :
      Effect (.resume ev) w (w.restart (setStatus w.db .running ev))
  | evidenced {w : World} {k : StepKey} {evidence : Json} {decision : String} :
      Effect (.recordEvidence k evidence decision) w
        (w.write { w.db with evidence := w.db.evidence ++ [⟨k, evidence, decision⟩] })
  | stalled {w : World} {round : Nat} {fp : String} {signals : Json}
      (h : ∀ s ∈ w.db.stall, s.round ≠ round) :
      Effect (.recordStall round fp signals) w
        (w.write { w.db with stall := w.db.stall ++ [⟨round, fp, signals⟩] })
  | awaited {w : World} {k : StepKey} {row : StepRow} (h : w.db.step? k = some row) :
      Effect (.markAwaiting k) w (w.write (w.db.setStep k (fun r =>
        { r with resultAwaitedSince := some (row.resultAwaitedSince.getD w.now) })))
  | revisedBefore {w : World} {k : StepKey} {rev : WorkspaceRevision} :
      Effect (.setRevisionBefore k rev) w (w.write (w.db.setStep k (fun r =>
        { r with revisionBefore := some rev })))
  | revisedAfter {w : World} {k : StepKey} {rev : WorkspaceRevision} :
      Effect (.setRevisionAfter k rev) w (w.write (w.db.setStep k (fun r =>
        { r with revisionAfter := some rev })))
  | created {w : World} {req : AgentTaskCreateRequest} {id : String}
      (h : ∀ t ∈ w.tasks, t.request ≠ req) (hid : ∀ t ∈ w.tasks, t.id ≠ id) :
      Effect (.createTask req) w { w with tasks := w.tasks ++ [⟨id, req, .running⟩] }
  | lost {w : World} {req : AgentTaskCreateRequest} :
      Effect (.createTask req) w { w with inFlight := w.inFlight ++ [req] }
  | createRefused {w : World} {req : AgentTaskCreateRequest} :
      Effect (.createTask req) w { w.note .createFailed with inFlight := w.inFlight ++ [req] }
  | cancelSent {w : World} {id : String} :
      Effect (.cancelTask id) w { w with cancelAccepted := w.cancelAccepted ++ [id] }
  | cancelLost {w : World} {id : String} :
      Effect (.cancelTask id) w { w with cancelFailed := w.cancelFailed ++ [id] }
  | pumped {w : World} (h : w.pumpLive = false) :
      Effect .ensurePump w { w with pumpLive := true, aborted := false, restarted := false }
  | abort {w : World} : Effect .abortPump w { w with aborted := w.aborted || w.pumpLive }

/-! ## Store calls -/

section

variable {α : Type} {w w' : World} {inp : Input} {r : Except CallError α}

theorem storeCall_cases {prog : Except StoreError (World × α)}
    (h : storeCall w inp prog = some (r, w')) :
    (∃ a, prog = .ok (w', a) ∧ r = .ok a) ∨ (w' = w ∧ ∃ e, r = .error (.store e)) := by
  unfold storeCall at h
  split at h
  · split at h
    · rename_i w₁ a
      simp only [Option.some.injEq, Prod.mk.injEq] at h
      obtain ⟨rfl, rfl⟩ := h
      exact Or.inl ⟨a, rfl, rfl⟩
    · rename_i e
      simp only [Option.some.injEq, Prod.mk.injEq] at h
      exact Or.inr ⟨h.2.symm, e, h.1.symm⟩
  · rename_i e
    simp only [Option.some.injEq, Prod.mk.injEq] at h
    exact Or.inr ⟨h.2.symm, e, h.1.symm⟩
  · exact nomatch h

/-- A store call that is refused changes nothing. -/
theorem storeCall_refused {prog : Except StoreError (World × α)}
    (h : storeCall w inp prog = some (r, w')) (hinp : inp ≠ .run) : w' = w := by
  unfold storeCall at h
  split at h
  · exact absurd rfl hinp
  · cases h
    rfl
  · exact nomatch h

theorem storeRead_cases {a : α} (h : storeRead w inp a = some (r, w')) :
    w' = w ∧ (r = .ok a ∨ ∃ e, r = .error (.store e)) := by
  rcases storeCall_cases h with ⟨b, hb, rfl⟩ | ⟨rfl, e, rfl⟩
  · simp only [Except.ok.injEq, Prod.mk.injEq] at hb
    exact ⟨hb.1.symm, Or.inl (by rw [hb.2])⟩
  · exact ⟨rfl, Or.inr ⟨e, rfl⟩⟩

theorem storeWrite_cases {prog : Except StoreError Db} {r : Except CallError Unit}
    (h : storeWrite w inp prog = some (r, w')) :
    (∃ db, prog = .ok db ∧ r = .ok () ∧ w' = w.write db) ∨ (w' = w ∧ ∃ e, r = .error (.store e)) := by
  rcases storeCall_cases h with ⟨a, ha, rfl⟩ | hr
  · cases prog with
    | error e => exact nomatch ha
    | ok db =>
      simp only [Except.map, Except.ok.injEq, Prod.mk.injEq] at ha
      exact Or.inl ⟨db, rfl, rfl, ha.1.symm⟩
  · exact Or.inr hr

end

/-- Writing the same row back restarts nothing. -/
theorem World.restart_self (w : World) : w.restart w.db = w := by
  have h : (decide (w.db.wf.status ≠ .running) && decide (w.db.wf.status = .running)) = false := by
    by_cases hs : w.db.wf.status = .running <;> simp [hs]
  unfold World.restart
  rw [Bool.and_assoc, h, Bool.and_false, Bool.or_false]

/-! ## Composites -/

section

variable {w : World} {k next : StepKey} {ev edgeEv startedEv stepEv : WorkflowEvent}

theorem startDurably_effect {db : Db} (h : startWorkflowDurably w.db w.now ev = .ok db) :
    Effect (.startDurably ev) w (w.restart db) := by
  unfold startWorkflowDurably at h
  split at h
  · cases h
    rw [World.restart_self]
    exact .same
  · split at h
    · exact nomatch h
    · rename_i hready
      cases h
      exact .started (not_not.mp hready)

theorem ensureStepStarted_effect {r : Db × StepRow} (h : ensureStepStarted w.db k ev = .ok r) :
    Effect (.ensureStepStarted k ev) w (w.write r.1) := by
  unfold ensureStepStarted at h
  split at h
  · cases h
    exact .same
  · rename_i hnone
    cases h
    exact .stepStarted hnone

theorem bindStepTaskOnce_effect {taskId : String} {db : Db}
    (h : bindStepTaskOnce w.db k taskId ev = .ok db) :
    Effect (.bindStepTaskOnce k taskId ev) w (w.write db) := by
  unfold bindStepTaskOnce at h
  split at h
  · exact nomatch h
  · rename_i row hrow
    split at h
    · cases h
      exact .same
    · split at h
      · exact nomatch h
      · rename_i hfree
        cases h
        exact .bound hrow (not_not.mp hfree)

theorem completeStep_effect {output : Json} {rev : Nat} {context : List (String × Json)} {db : Db}
    (h : completeStepAndCheckpoint w.db k output rev context ev = .ok db) :
    Effect (.completeStep k output rev context ev) w (w.write db) := by
  unfold completeStepAndCheckpoint at h
  split at h
  · exact nomatch h
  · rename_i row hrow
    split at h
    · cases h
      exact .same
    · split at h
      · exact nomatch h
      · rename_i hlive
        split at h
        · exact nomatch h
        · rename_i hrev
          obtain rfl := not_not.mp hrev
          cases h
          exact .completed hrow (by simpa using hlive)

theorem advance_effect {roundEv : Option WorkflowEvent} {db : Db}
    (h : advanceWorkflow w.db edgeEv roundEv next startedEv = .ok db) :
    Effect (.advance edgeEv roundEv next startedEv) w (w.write db) := by
  unfold advanceWorkflow at h
  split at h
  · cases h
    exact .same
  · rename_i hnone
    split at h
    · exact nomatch h
    · rename_i hround
      cases h
      refine .advanced hnone ?_
      intro hs
      have hlt : ¬ next.round < w.db.wf.currentRound := fun hlt => hround ⟨hs, hlt⟩
      omega

theorem terminalize_effect (status : WorkflowStatus) (edge : Option WorkflowEvent) :
    Effect (.terminalize status edge ev) w (w.write (terminalizeWorkflow w.db status edge ev)) := by
  unfold terminalizeWorkflow
  split
  · exact .same
  · rename_i hne
    rw [not_or] at hne
    exact .terminalized hne.1 (by simpa using hne.2)

theorem failStepAndWorkflow_effect {error : Json} {db : Db}
    (h : failStepAndWorkflow w.db k stepEv ev error = .ok db) :
    Effect (.failStepAndWorkflow k stepEv ev error) w (w.write db) := by
  unfold failStepAndWorkflow at h
  split at h
  · exact nomatch h
  · rename_i row hrow
    have hdb : (failStep w.db k row stepEv error).isTerminal = w.db.isTerminal := by
      unfold failStep
      split <;> rfl
    simp only [hdb] at h
    cases hlive : w.db.isTerminal with
    | true =>
      rw [hlive, if_pos rfl] at h
      cases h
      unfold failStep
      split
      · exact .same
      · rename_i hr
        exact .stepFailedLate hrow (by simpa using hr) hlive
    | false =>
      rw [hlive, if_neg Bool.false_ne_true] at h
      cases h
      unfold failStep
      split
      · rename_i hr
        exact .failedOnly hrow hr hlive
      · rename_i hr
        exact .stepFailed hrow (by simpa using hr) hlive

theorem recordIntent_effect : Effect .recordIntent w (w.write (recordCancellationIntent w.db)) := by
  unfold recordCancellationIntent
  split
  · exact .same
  · rename_i h
    rw [not_or] at h
    exact .intended (by simpa using h.1) (by simpa using h.2)

theorem cancelStepAndWorkflow_effect (named : Option StepKey) (seen : Option String) :
    Effect (.cancelStepAndWorkflow named seen ev) w
      (w.write (cancelStepAndWorkflow w.db named ev)) := by
  unfold cancelStepAndWorkflow
  split
  · exact .same
  · rename_i h
    cases named with
    | none => exact .cancelled (by simpa using h)
    | some k => exact .cancelled (by simpa using h)

theorem pause_effect {id : String} {gate : StepPauseGate} {db : Db}
    (h : createHumanRequestAndPause w.db id k gate ev w.wall = .ok db) :
    Effect (.pause id k gate ev) w (w.write db) := by
  unfold createHumanRequestAndPause at h
  simp only at h
  cases hh : w.db.human? id with
  | some row =>
    simp only [hh] at h
    split at h
    · rename_i hrun
      cases h
      exact .paused hrun
    · cases h
      exact .same
  | none =>
    cases hs : w.db.step? k with
    | none =>
      simp only [hh, hs, fault] at h
      exact nomatch h
    | some row =>
      simp only [hh, hs] at h
      split at h
      · rename_i hrun
        cases h
        exact .askedPaused hh hs hrun
      · rename_i hrun
        cases h
        exact .asked hh hs hrun

theorem answer_effect {id value : String} {db : Db}
    (h : answerHumanRequestInput w.db id value = .ok db) :
    Effect (.answer id value) w (w.write db) := by
  unfold answerHumanRequestInput at h
  split at h
  · exact nomatch h
  · rename_i row hrow
    split at h
    · exact nomatch h
    · rename_i hkind
      split at h
      · split at h
        · cases h
          exact .same
        · exact nomatch h
      · split at h
        · exact nomatch h
        · rename_i hp
          cases h
          exact .answered hrow (not_not.mp hp) (not_not.mp hkind)

theorem approve_effect {id : String} {db : Db} (h : approveHumanRequest w.db id = .ok db) :
    Effect (.approve id) w (w.write db) := by
  unfold approveHumanRequest at h
  split at h
  · exact nomatch h
  · rename_i row hrow
    split at h
    · exact nomatch h
    · rename_i hkind
      split at h
      · cases h
        exact .same
      · split at h
        · exact nomatch h
        · split at h
          · exact nomatch h
          · rename_i hp
            cases h
            exact .approved hrow (not_not.mp hp) (not_not.mp hkind)

theorem reject_effect {id : String} {db : Db}
    (h : rejectHumanRequestAndFailWorkflow w.db id ev = .ok db) :
    Effect (.reject id ev) w (w.write db) := by
  unfold rejectHumanRequestAndFailWorkflow at h
  split at h
  · exact nomatch h
  · rename_i row hrow
    split at h
    · exact nomatch h
    · rename_i hkind
      split at h
      · exact nomatch h
      · split at h
        · exact nomatch h
        · rename_i hs
          have hp : row.status = .pending ∨ row.status = .rejected := by
            by_contra hc
            rw [not_or] at hc
            exact hs ⟨hc.2, hc.1⟩
          simp only at h
          split at h
          · rename_i hend
            cases h
            exact .rejectedLate hrow hp hend (not_not.mp hkind)
          · rename_i hend
            cases h
            exact .rejected hrow hp (by simpa using hend) (not_not.mp hkind)

theorem resume_effect {db : Db} (h : resumeWorkflowRunning w.db ev = .ok db) :
    Effect (.resume ev) w (w.restart db) := by
  unfold resumeWorkflowRunning at h
  split at h
  · cases h
    rw [World.restart_self]
    exact .same
  · split at h
    · exact nomatch h
    · rename_i hs
      cases h
      refine .resumed ?_
      by_contra hc
      rw [not_or] at hc
      exact hs hc

theorem recordEvidence_effect {evidence : Json} {decision : String} {db : Db}
    (h : recordCompletionEvidence w.db k evidence decision = .ok db) :
    Effect (.recordEvidence k evidence decision) w (w.write db) := by
  unfold recordCompletionEvidence at h
  split at h
  · cases h
    exact .same
  · split at h
    · exact nomatch h
    · cases h
      exact .evidenced

theorem recordStall_effect (round : Nat) (fp : String) (signals : Json) :
    Effect (.recordStall round fp signals) w (w.write (recordStallRound w.db round fp signals)) := by
  unfold recordStallRound
  split
  · exact .same
  · rename_i h
    exact .stalled (by simpa using h)

theorem markAwaiting_effect {r : Db × Nat} (h : markStepAwaitingResult w.db k w.now = .ok r) :
    Effect (.markAwaiting k) w (w.write r.1) := by
  unfold markStepAwaitingResult at h
  split at h
  · exact nomatch h
  · rename_i row hrow
    cases h
    exact .awaited hrow

theorem setRevisionBefore_effect {rev : WorkspaceRevision} {db : Db}
    (h : setStepRevisionBefore w.db k rev = .ok db) :
    Effect (.setRevisionBefore k rev) w (w.write db) := by
  unfold setStepRevisionBefore at h
  split at h
  · exact nomatch h
  · cases h
    exact .revisedBefore

theorem setRevisionAfter_effect {rev : WorkspaceRevision} {db : Db}
    (h : setStepRevisionAfter w.db k rev = .ok db) :
    Effect (.setRevisionAfter k rev) w (w.write db) := by
  unfold setStepRevisionAfter at h
  split at h
  · exact nomatch h
  · cases h
    exact .revisedAfter

end

/-- A delivered request is a known one, or makes a new task. -/
theorem World.deliver_cases {w w' : World} {req : AgentTaskCreateRequest} {id id' : String}
    (h : w.deliver req id = some (id', w')) :
    (w' = w ∧ ∃ t ∈ w.tasks, t.request = req ∧ t.id = id') ∨
    (w' = { w with tasks := w.tasks ++ [⟨id, req, .running⟩] } ∧ id' = id ∧
      (∀ t ∈ w.tasks, t.request ≠ req) ∧ ∀ t ∈ w.tasks, t.id ≠ id) := by
  unfold World.deliver at h
  split at h
  · rename_i t ht
    simp only [Option.some.injEq, Prod.mk.injEq] at h
    refine Or.inl ⟨h.2.symm, t, List.mem_of_find?_eq_some ht, ?_, h.1⟩
    simpa using List.find?_some ht
  · rename_i hnone
    split at h
    · exact nomatch h
    · rename_i hid
      simp only [Option.some.injEq, Prod.mk.injEq] at h
      refine Or.inr ⟨h.2.symm, h.1.symm, ?_, ?_⟩
      · simpa [List.find?_eq_none] using hnone
      · simpa using hid

/-! ## Every call -/

section

variable {w w' : World} {inp : Input} {op : Op}

/-- A read leaves the world as it is. -/
theorem storeRead_effect {α : Type} {r : Except CallError α} {a : α}
    (h : storeRead w inp a = some (r, w')) : Effect op w w' := by
  rw [(storeRead_cases h).1]
  exact .same

/-- A refused write leaves the world as it is. -/
theorem storeWrite_effect {r : Except CallError Unit} {prog : Except StoreError Db}
    (h : storeWrite w inp prog = some (r, w')) (hok : ∀ db, prog = .ok db → Effect op w (w.write db)) :
    Effect op w w' := by
  rcases storeWrite_cases h with ⟨db, hdb, -, rfl⟩ | ⟨rfl, -⟩
  · exact hok db hdb
  · exact .same

theorem storeCall_effect {α : Type} {r : Except CallError α} {prog : Except StoreError (World × α)}
    (h : storeCall w inp prog = some (r, w')) (hok : ∀ a, prog = .ok (w', a) → Effect op w w') :
    Effect op w w' := by
  rcases storeCall_cases h with ⟨a, ha, -⟩ | ⟨rfl, -⟩
  · exact hok a ha
  · exact .same

theorem map_ok_pair {α β : Type} {prog : Except StoreError α} {f : α → World × β} {a : β}
    (h : prog.map f = .ok (w', a)) : ∃ x, prog = .ok x ∧ f x = (w', a) := by
  cases prog with
  | error e => exact nomatch h
  | ok x => exact ⟨x, rfl, by simpa [Except.map] using h⟩

/-- **Everything a call can do.** -/
theorem exec_effect {r : Except CallError (Ans op)} (h : exec op w inp = some (r, w')) :
    Effect op w w' := by
  cases op with
  | getWorkflow site =>
    cases site with
    | driveHead =>
      have h : storeCall w inp (.ok ({ w with restarted := false }, w.db.wf)) = some (r, w') := h
      refine storeCall_effect h (fun a ha => ?_)
      cases ha
      exact .looked
    | other => exact storeRead_effect h
  | getStepByKey k => exact storeRead_effect h
  | getSnapshot => exact storeRead_effect h
  | listSteps => exact storeRead_effect h
  | getHumanRequest id => exact storeRead_effect h
  | getActiveHumanRequest => exact storeRead_effect h
  | listStallRounds => exact storeRead_effect h
  | getTask id =>
    simp only [exec] at h
    split at h
    · cases h
      exact .noted .taskRow
    · cases h
      exact .noted .noTaskRow
    · exact nomatch h
  | getTaskResult id =>
    simp only [exec] at h
    split at h
    · cases h
      exact .noted .taskResult
    · cases h
      exact .noted .noTaskResult
    · exact nomatch h
  | startDurably ev =>
    refine storeCall_effect h (fun a ha => ?_)
    obtain ⟨db, hdb, hx⟩ := map_ok_pair ha
    cases hx
    exact startDurably_effect hdb
  | ensureStepStarted k ev =>
    refine storeCall_effect h (fun a ha => ?_)
    obtain ⟨x, hdb, hx⟩ := map_ok_pair ha
    cases hx
    exact ensureStepStarted_effect hdb
  | bindStepTaskOnce k taskId ev =>
    simp only [exec, Option.map_eq_some_iff, Prod.exists] at h
    obtain ⟨r₁, w₁, hw, heq⟩ := h
    cases heq
    rcases storeWrite_cases hw with ⟨db, hdb, rfl, rfl⟩ | ⟨rfl, e, rfl⟩
    · exact bindStepTaskOnce_effect hdb
    · exact .noted .bindFailed
  | completeStep k output revision context ev =>
    exact storeWrite_effect h (fun db hdb => completeStep_effect hdb)
  | advance edgeEv roundEv next startedEv =>
    exact storeWrite_effect h (fun db hdb => advance_effect hdb)
  | terminalize status edgeEv ev =>
    refine storeWrite_effect h (fun db hdb => ?_)
    cases hdb
    exact terminalize_effect status edgeEv
  | failStepAndWorkflow k stepEv ev error =>
    exact storeWrite_effect h (fun db hdb => failStepAndWorkflow_effect hdb)
  | recordIntent =>
    refine storeWrite_effect h (fun db hdb => ?_)
    cases hdb
    exact recordIntent_effect
  | cancelStepAndWorkflow k seen ev =>
    refine storeWrite_effect h (fun db hdb => ?_)
    cases hdb
    exact cancelStepAndWorkflow_effect k seen
  | pause id k gate ev => exact storeWrite_effect h (fun db hdb => pause_effect hdb)
  | answer id value => exact storeWrite_effect h (fun db hdb => answer_effect hdb)
  | approve id => exact storeWrite_effect h (fun db hdb => approve_effect hdb)
  | reject id ev => exact storeWrite_effect h (fun db hdb => reject_effect hdb)
  | resume ev =>
    refine storeCall_effect h (fun a ha => ?_)
    obtain ⟨db, hdb, hx⟩ := map_ok_pair ha
    cases hx
    exact resume_effect hdb
  | recordEvidence k evidence decision =>
    exact storeWrite_effect h (fun db hdb => recordEvidence_effect hdb)
  | recordStall round fingerprint signals =>
    refine storeWrite_effect h (fun db hdb => ?_)
    cases hdb
    exact recordStall_effect round fingerprint signals
  | markAwaiting k =>
    refine storeCall_effect h (fun a ha => ?_)
    obtain ⟨x, hdb, hx⟩ := map_ok_pair ha
    cases hx
    exact markAwaiting_effect hdb
  | setRevisionBefore k rev =>
    exact storeWrite_effect h (fun db hdb => setRevisionBefore_effect hdb)
  | setRevisionAfter k rev =>
    exact storeWrite_effect h (fun db hdb => setRevisionAfter_effect hdb)
  | createTask req =>
    simp only [exec] at h
    split at h
    · simp only [Option.map_eq_some_iff, Prod.exists, Prod.mk.injEq] at h
      obtain ⟨id', w₁, hd, -, rfl⟩ := h
      rcases World.deliver_cases hd with ⟨rfl, -⟩ | ⟨rfl, -, hreq, hid⟩
      · exact .same
      · exact .created hreq hid
    · cases h
      exact .lost
    · cases h
      exact .createRefused
    · exact nomatch h
  | waitForTerminal id cursor site =>
    simp only [exec] at h
    split at h
    · rename_i t ht
      cases h
      exact .noted (.read ht rfl rfl)
    · cases h
      exact .same
    · exact nomatch h
  | cancelTask id =>
    simp only [exec] at h
    split at h
    · cases h
      exact .cancelSent
    · cases h
      exact .cancelLost
    · exact nomatch h
  | backoff attempt =>
    simp only [exec] at h
    split at h
    · cases h
      exact .same
    · exact nomatch h
  | lease q =>
    simp only [exec] at h
    split at h
    · cases h
      exact .noted .leases
    · cases h
      exact .noted .noLeases
    · cases h
      exact .noted .noLeases
    · exact nomatch h
  | ensurePump =>
    simp only [exec] at h
    split at h
    · cases h
      split
      · exact .same
      · rename_i hlive
        exact .pumped (by simpa using hlive)
    · exact nomatch h
  | abortPump =>
    simp only [exec] at h
    split at h
    · cases h
      exact .abort
    · exact nomatch h

end

/-- A call whose turn does not run it leaves the rows alone. -/
theorem exec_refused {op : Op} {w w' : World} {inp : Input} {r : Except CallError (Ans op)}
    (h : exec op w inp = some (r, w')) (hinp : inp ≠ .run) : w'.db = w.db := by
  have hstore : ∀ {α : Type} {r : Except CallError α} {prog : Except StoreError (World × α)},
      storeCall w inp prog = some (r, w') → w'.db = w.db :=
    fun h => congrArg World.db (storeCall_refused h hinp)
  cases op with
  | getWorkflow site => cases site <;> simp only [exec] at h <;> exact hstore h
  | bindStepTaskOnce k t ev =>
    obtain ⟨⟨r₁, w₁⟩, hw, heq⟩ := Option.map_eq_some_iff.mp h
    cases heq
    rw [storeCall_refused hw hinp]
    show (if r₁.isOk then w else w.note .createFailed).db = w.db
    split <;> rfl
  | createTask req =>
    simp only [exec] at h
    split at h
    · obtain ⟨⟨id, w₁⟩, hw, heq⟩ := Option.map_eq_some_iff.mp h
      cases heq
      rcases World.deliver_cases hw with ⟨rfl, -⟩ | ⟨rfl, -⟩ <;> rfl
    · cases h
      rfl
    · cases h
      rfl
    · exact nomatch h
  | getTask id =>
    simp only [exec] at h
    split at h <;> cases h <;> rfl
  | getTaskResult id =>
    simp only [exec] at h
    split at h <;> cases h <;> rfl
  | waitForTerminal id c site =>
    simp only [exec] at h
    split at h <;> cases h <;> rfl
  | cancelTask id =>
    simp only [exec] at h
    split at h <;> cases h <;> rfl
  | lease q =>
    simp only [exec] at h
    split at h <;> cases h <;> rfl
  | backoff n =>
    simp only [exec] at h
    exact nomatch h
  | ensurePump =>
    simp only [exec] at h
    exact nomatch h
  | abortPump =>
    simp only [exec] at h
    exact nomatch h
  | _ =>
    simp only [exec] at h
    exact hstore h

/-! ## Parts of the world -/

/-- The status a call writes, when it writes one. -/
def Op.newStatus : Op → Option WorkflowStatus
  | .startDurably _ | .resume _ => some .running
  | .terminalize status _ _ => some status
  | .failStepAndWorkflow _ _ _ _ | .reject _ _ => some .failed
  | .cancelStepAndWorkflow _ _ _ => some .cancelled
  | .pause _ _ gate _ => some (gateStatus gate)
  | _ => none

/-- A call leaves the status or writes its own. -/
theorem Effect.status {op : Op} {w w' : World} (h : Effect op w w') :
    w'.db.wf.status = w.db.wf.status ∨
      (op.newStatus = some w'.db.wf.status ∧ w.db.isTerminal = false) := by
  cases h with
  | started hs => exact Or.inr ⟨rfl, by unfold Db.isTerminal; rw [hs]; rfl⟩
  | terminalized hne hlive => exact Or.inr ⟨rfl, hlive⟩
  | stepFailed hrow hr hlive => exact Or.inr ⟨rfl, hlive⟩
  | failedOnly hrow hr hlive => exact Or.inr ⟨rfl, hlive⟩
  | cancelled hlive => exact Or.inr ⟨rfl, hlive⟩
  | askedPaused hh hrow hs => exact Or.inr ⟨rfl, by unfold Db.isTerminal; rw [hs]; rfl⟩
  | paused hs => exact Or.inr ⟨rfl, by unfold Db.isTerminal; rw [hs]; rfl⟩
  | rejected hh hp hlive => exact Or.inr ⟨rfl, hlive⟩
  | resumed hs =>
    refine Or.inr ⟨rfl, ?_⟩
    unfold Db.isTerminal
    rcases hs with hs | hs <;> rw [hs] <;> rfl
  | _ => exact Or.inl rfl

/-- Only a cancel call leaves a trace of one. -/
theorem Effect.cancels {op : Op} {w w' : World} (h : Effect op w w') :
    (w'.cancelAccepted = w.cancelAccepted ∧ w'.cancelFailed = w.cancelFailed) ∨
      ∃ id, op = .cancelTask id := by
  cases h with
  | cancelSent => exact Or.inr ⟨_, rfl⟩
  | cancelLost => exact Or.inr ⟨_, rfl⟩
  | _ => exact Or.inl ⟨rfl, rfl⟩

end VibeRuntime
