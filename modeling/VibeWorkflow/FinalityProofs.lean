import VibeWorkflow.SettleProofs

/-!
# Finality of the workflow log

The composites that end a workflow look at its status first; those that start, bind, complete,
advance and fail a step do not.  A cancellation or a rejection that commits while the driver is
suspended before one of them is followed by its event.  In runs in which none of them takes
effect on an ended row, the ending event is the last one, and the row is frozen from then on.

* **`log_final`** — the runs in which the log is final.
* **`bind_after_cancel`** — a run in which a task is bound after the cancellation.
-/

namespace VibeRuntime

open VibeJson VibeContract VibeRouting VibeTemplate VibeValidator VibeStore VibeAdmission VibeControl
open AsyncLogic

/-! ## The events of a call -/

/-- The types of the events a call carries. -/
def EventGuard (op : Op) : Prop :=
  match op with
  | .startDurably ev => ev.type = .workflowStarted
  | .ensureStepStarted _ ev => ev.type = .stepStarted
  | .bindStepTaskOnce _ _ ev => ev.type = .stepTaskCreated
  | .completeStep _ _ _ _ ev => ev.type = .stepCompleted
  | .advance edge round _ started => edge.type = .edgeSelected ∧
      (∀ e ∈ round, e.type = .workflowRoundAdvanced) ∧ started.type = .stepStarted
  | .terminalize st edge ev => (∀ e ∈ edge, e.type = .edgeSelected) ∧
      ((st = .completed ∧ ev.type = .workflowCompleted) ∨ (st = .failed ∧ ev.type = .workflowFailed) ∨
        (st = .blocked ∧ ev.type = .workflowBlocked))
  | .failStepAndWorkflow _ stepEv ev _ => stepEv.type = .stepFailed ∧ ev.type = .workflowFailed
  | .cancelStepAndWorkflow _ _ ev => ev.type = .workflowCancelled
  | .pause _ _ _ ev => ev.type = .workflowPaused
  | .reject _ ev => ev.type = .workflowFailed
  | .resume ev => ev.type = .workflowResumed
  | _ => True

theorem EndReason.events {cfg : Config} {w : World} {st : WorkflowStatus} {edge : Option WorkflowEvent}
    {ev : WorkflowEvent} (h : EndReason cfg w st edge ev) : EventGuard (.terminalize st edge ev) := by
  have hnone : ∀ e ∈ (none : Option WorkflowEvent), e.type = .edgeSelected := nofun
  cases h with
  | @routed k output d hr ht hp =>
    refine ⟨?_, ?_⟩
    · intro e he
      cases he
      rfl
    · rcases terminalTarget_cases d.target with hs | hs | hs
      · rw [hs]
        exact Or.inl ⟨rfl, rfl⟩
      · rw [hs]
        exact Or.inr (Or.inl ⟨rfl, rfl⟩)
      · rw [hs]
        exact Or.inr (Or.inr ⟨rfl, rfl⟩)
  | gated hr hrow ht hs hp he =>
    refine ⟨?_, ?_⟩
    · intro e he
      cases he
      rfl
    · cases evaluateCompletion _ _ _ with
      | complete => exact Or.inl ⟨rfl, rfl⟩
      | blocked missing => exact Or.inr (Or.inr ⟨rfl, rfl⟩)
      | failed reason => exact Or.inr (Or.inl ⟨rfl, rfl⟩)
  | resultMissing _ _ _ hev => exact ⟨hnone, Or.inr (Or.inr ⟨rfl, hev⟩)⟩
  | resultTimeout _ _ _ hev => exact ⟨hnone, Or.inr (Or.inr ⟨rfl, hev⟩)⟩
  | noProgress _ _ _ _ hev => exact ⟨hnone, Or.inr (Or.inr ⟨rfl, hev⟩)⟩
  | revisionConflict _ hev => exact ⟨hnone, Or.inr (Or.inr ⟨rfl, hev⟩)⟩
  | badSpec _ => exact ⟨hnone, Or.inr (Or.inl ⟨rfl, rfl⟩)⟩
  | unknownStep _ _ => exact ⟨hnone, Or.inr (Or.inl ⟨rfl, rfl⟩)⟩
  | rejected _ => exact ⟨hnone, Or.inr (Or.inl ⟨rfl, rfl⟩)⟩
  | render _ _ _ _ => exact ⟨hnone, Or.inr (Or.inl ⟨rfl, rfl⟩)⟩
  | createFailed _ => exact ⟨hnone, Or.inr (Or.inl ⟨rfl, rfl⟩)⟩
  | noOutput _ _ _ => exact ⟨hnone, Or.inr (Or.inl ⟨rfl, rfl⟩)⟩
  | routing _ _ => exact ⟨hnone, Or.inr (Or.inl ⟨rfl, rfl⟩)⟩
  | deadline _ => exact ⟨hnone, Or.inr (Or.inl ⟨rfl, rfl⟩)⟩
  | maxTasks _ _ => exact ⟨hnone, Or.inr (Or.inl ⟨rfl, rfl⟩)⟩
  | maxRounds _ _ _ _ => exact ⟨hnone, Or.inr (Or.inl ⟨rfl, rfl⟩)⟩

theorem Justified.events {cfg : Config} {op : Op} {w : World} (h : Justified cfg op w) :
    EventGuard op := by
  cases op with
  | ensureStepStarted k ev =>
    rw [h.2]
    rfl
  | bindStepTaskOnce k t ev =>
    rw [h.2.2.2]
    rfl
  | completeStep k output rev ctx ev =>
    obtain ⟨_, _, _, _, _, _, _, _, _, hev⟩ := h
    exact hev
  | advance edge round next started =>
    obtain ⟨k, output, d, -, -, -, rfl, rfl, rfl, rfl⟩ := h
    refine ⟨rfl, ?_, rfl⟩
    intro e he
    unfold roundEvent at he
    split at he
    · cases he
      rfl
    · exact nomatch he
  | terminalize st edge ev => exact EndReason.events h
  | failStepAndWorkflow k stepEv ev error => exact h.2
  | cancelStepAndWorkflow k seen ev => exact h.2.1
  | pause request k gate ev => exact h.2.2.1
  | startDurably ev => exact absurd h id
  | reject request ev => exact absurd h id
  | resume ev => exact absurd h id
  | _ => trivial

theorem ApiGuard.events {cfg : Config} {op : Op} {w : World} (h : ApiGuard cfg op w) :
    EventGuard op := by
  cases op with
  | startDurably ev => exact h.2
  | reject request ev => exact h
  | resume ev =>
    obtain ⟨row, -, -, rfl⟩ := h
    rfl
  | cancelStepAndWorkflow k seen ev => exact h.2.1
  | ensureStepStarted k ev => exact absurd h id
  | bindStepTaskOnce k t ev => exact absurd h id
  | completeStep k output rev ctx ev => exact absurd h id
  | advance edge round next started => exact absurd h id
  | terminalize st edge ev => exact absurd h id
  | failStepAndWorkflow k stepEv ev error => exact absurd h id
  | pause request k gate ev => exact absurd h id
  | _ => trivial

theorem nextOp_events {cfg : Config} {op : Op} {w : World}
    (h : Justified cfg op w ∨ ApiGuard cfg op w) : EventGuard op :=
  h.elim Justified.events ApiGuard.events

/-! ## Late writes -/

/-- Would this call write to the rows and the log, whatever the workflow's status? -/
def Op.writesLate (op : Op) (db : Db) : Bool :=
  match op with
  | .ensureStepStarted k _ => (db.step? k).isNone
  | .bindStepTaskOnce k _ _ => (db.step? k).any (fun r => r.taskId.isNone)
  | .completeStep k _ _ _ _ => (db.step? k).any (fun r => !isTerminalStepStatus r.status)
  | .advance _ _ next _ => (db.step? next).isNone
  | .failStepAndWorkflow k _ _ _ => (db.step? k).any (fun r => !isTerminalStepStatus r.status)
  | _ => false

/-- A step's write takes effect on a workflow that has ended. -/
def LateWrite (s : Sys) (a : Action) : Prop :=
  ∃ who op, a = .exec who .run ∧ s.nextOp who = some op ∧ s.w.db.isTerminal = true ∧
    op.writesLate s.w.db = true

def finalOk (s : Sys) (a : Action) : Prop := ¬ LateWrite s a

/-! ## The log -/

/-- The types of the events that end a workflow. -/
def isFinalType : EventType → Bool
  | .workflowCompleted | .workflowFailed | .workflowCancelled => true
  | _ => false

def isFinalEvent (e : WorkflowEvent) : Bool := isFinalType e.type

theorem isFinalEvent_of_type {e : WorkflowEvent} {t : EventType} (h : e.type = t) :
    isFinalEvent e = isFinalType t := congrArg isFinalType h

/-- What may not change after the end. -/
structure Frozen where
  events : List WorkflowEvent
  status : WorkflowStatus
  totalTasks : Nat
  totalFailures : Nat
  currentStepId : Option String
  currentRound : Nat

def frozen (db : Db) : Frozen :=
  ⟨db.events, db.wf.status, db.wf.totalTasks, db.wf.totalFailures, db.wf.currentStepId,
    db.wf.currentRound⟩

/-- **A call on an ended workflow** that is no late write changes nothing that is frozen. -/
theorem Effect.frozen {op : Op} {w w' : World} (h : Effect op w w') (hend : w.db.isTerminal = true)
    (hlate : op.writesLate w.db = false) : frozen w'.db = frozen w.db := by
  have hne : ∀ {s : WorkflowStatus}, w.db.wf.status = s → isTerminalWorkflowStatus s = false → False := by
    intro s hs hf
    rw [isTerminalStatus_eq hs hf] at hend
    exact nomatch hend
  have hdead : ∀ {p : Prop}, w.db.isTerminal = false → p := by
    intro p hf
    rw [hend] at hf
    exact nomatch hf
  cases h with
  | started hs => exact (hne hs rfl).elim
  | stepStarted hnone => simp [Op.writesLate, hnone] at hlate
  | bound hrow hfree => simp [Op.writesLate, hrow, hfree] at hlate
  | completed hrow hr => simp [Op.writesLate, hrow, hr] at hlate
  | advanced hnone hround => simp [Op.writesLate, hnone] at hlate
  | terminalized hst hlive => exact hdead hlive
  | stepFailed hrow hr hlive => exact hdead hlive
  | stepFailedLate hrow hr _ => simp [Op.writesLate, hrow, hr] at hlate
  | failedOnly hrow hr hlive => exact hdead hlive
  | intended hreq hlive => exact hdead hlive
  | cancelled hlive => exact hdead hlive
  | askedPaused hh hrow hs => exact (hne hs rfl).elim
  | paused hs => exact (hne hs rfl).elim
  | rejected hh hp hlive => exact hdead hlive
  | resumed hs => exact (hs.elim (fun hs => hne hs rfl) (fun hs => hne hs rfl)).elim
  | _ => rfl

/-- The log of a workflow: no ending event while it has not ended, and one at the end once it
    has. -/
structure FinalLog (db : Db) : Prop where
  live : db.isTerminal = false → ∀ e ∈ db.events, isFinalEvent e = false
  ended : db.isTerminal = true → ∃ pre ev, db.events = pre ++ [ev] ∧ isFinalEvent ev = true ∧
    ∀ e ∈ pre, isFinalEvent e = false

theorem FinalLog.of_frozen {db db' : Db} (h : FinalLog db)
    (hf : VibeRuntime.frozen db' = VibeRuntime.frozen db) : FinalLog db' := by
  have hev : db'.events = db.events := congrArg Frozen.events hf
  have hst : db'.isTerminal = db.isTerminal :=
    congrArg (fun f => isTerminalWorkflowStatus (Frozen.status f)) hf
  constructor
  · rw [hev, hst]
    exact h.live
  · rw [hev, hst]
    exact h.ended

/-- The status that an ending event names. -/
def endStatus : EventType → Option WorkflowStatus
  | .workflowCompleted => some .completed
  | .workflowFailed => some .failed
  | .workflowCancelled => some .cancelled
  | _ => none

theorem isFinalEvent_of_endStatus {ev : WorkflowEvent} {status : WorkflowStatus}
    (h : endStatus ev.type = some status) : isFinalEvent ev = true := by
  unfold isFinalEvent
  cases ht : ev.type <;> rw [ht] at h <;> first | rfl | cases h

/-- **What a write makes of the log of a live workflow**: it stays live and gets events that end nothing,
    or it ends, with the event of its status last. -/
inductive LiveWrite (db db' : Db) : Prop where
  | grow (new : List WorkflowEvent) (hlive : db'.isTerminal = false) (hev : db'.events = db.events ++ new)
      (hnew : ∀ e ∈ new, isFinalEvent e = false)
  | close (new : List WorkflowEvent) (ev : WorkflowEvent) (hend : db'.isTerminal = true)
      (hev : db'.events = db.events ++ new ++ [ev]) (hnew : ∀ e ∈ new, isFinalEvent e = false)
      (hstatus : endStatus ev.type = some db'.wf.status)

/-- A guarded call on a workflow that has not ended. -/
theorem Effect.live_write {op : Op} {w w' : World} (hg : EventGuard op) (heff : Effect op w w')
    (hend : w.db.isTerminal = false) : LiveWrite w.db w'.db := by
  have hone : ∀ {ev : WorkflowEvent} {t : EventType}, ev.type = t → isFinalType t = false →
      ∀ e ∈ [ev], isFinalEvent e = false := by
    intro ev t ht hf e he
    rw [List.mem_singleton.mp he]
    exact (isFinalEvent_of_type ht).trans hf
  have hstatus : ∀ {ev : WorkflowEvent} {t : EventType}, ev.type = t → endStatus ev.type = endStatus t :=
    fun ht => congrArg endStatus ht
  have hgate : ∀ gate : StepPauseGate, isTerminalWorkflowStatus (gateStatus gate) = false := by
    intro gate
    unfold gateStatus
    cases gate.kind <;> rfl
  have hnone : ∀ e ∈ ([] : List WorkflowEvent), isFinalEvent e = false := fun _ he => absurd he List.not_mem_nil
  cases heff with
  | started _ => exact .grow _ rfl rfl (hone hg rfl)
  | stepStarted _ => exact .grow _ hend rfl (hone hg rfl)
  | bound _ _ => exact .grow _ hend rfl (hone hg rfl)
  | completed _ _ => exact .grow _ hend rfl (hone hg rfl)
  | @advanced _ edgeEv roundEv _ startedEv _ _ =>
    obtain ⟨hedge, hround, hstarted⟩ := hg
    refine .grow (edgeEv :: roundEv.toList ++ [startedEv]) hend (List.append_assoc _ _ _) ?_
    intro e he
    rcases List.mem_append.mp he with he | he
    · rcases List.mem_cons.mp he with rfl | he
      · exact isFinalEvent_of_type hedge
      · exact isFinalEvent_of_type (hround e (Option.mem_toList.mp he))
    · exact hone hstarted rfl e he
  | @terminalized _ status edgeEv ev _ _ =>
    obtain ⟨hedge, hkind⟩ := hg
    have hnew : ∀ e ∈ edgeEv.toList, isFinalEvent e = false :=
      fun e he => isFinalEvent_of_type (hedge e (Option.mem_toList.mp he))
    rcases hkind with ⟨rfl, hev⟩ | ⟨rfl, hev⟩ | ⟨rfl, hev⟩
    · exact .close _ _ rfl rfl hnew (hstatus hev)
    · exact .close _ _ rfl rfl hnew (hstatus hev)
    · -- a blocked workflow has not ended
      refine .grow (edgeEv.toList ++ [ev]) rfl (List.append_assoc _ _ _) ?_
      intro e he
      exact (List.mem_append.mp he).elim (hnew e) (hone hev rfl e)
  | stepFailed _ _ _ => exact .close _ _ rfl rfl (hone hg.1 rfl) (hstatus hg.2)
  | stepFailedLate _ _ hdead =>
    rw [hend] at hdead
    cases hdead
  | failedOnly _ _ _ =>
    refine .close [] _ rfl ?_ hnone (hstatus hg.2)
    rw [List.append_nil]
    rfl
  | @cancelled _ k _ _ _ =>
    refine .close [] _ rfl ?_ hnone (hstatus hg)
    rw [List.append_nil]
    cases k <;> rfl
  | @askedPaused _ _ _ gate _ _ _ _ _ => exact .grow _ (hgate gate) rfl (hone hg rfl)
  | @paused _ _ _ gate _ _ => exact .grow _ (hgate gate) rfl (hone hg rfl)
  | rejected _ _ _ =>
    refine .close [] _ rfl ?_ hnone (hstatus hg)
    rw [List.append_nil]
    rfl
  | resumed _ => exact .grow _ rfl rfl (hone hg rfl)
  | _ => exact .grow [] hend (List.append_nil _).symm hnone

/-- **A guarded call keeps the log final**, if it is no late write. -/
theorem FinalLog.call {op : Op} {w w' : World} (h : FinalLog w.db) (hg : EventGuard op)
    (heff : Effect op w w') (hlate : w.db.isTerminal = true → op.writesLate w.db = false) :
    FinalLog w'.db := by
  cases hend : w.db.isTerminal with
  | true => exact h.of_frozen (heff.frozen hend (hlate hend))
  | false =>
    have hold : ∀ {new : List WorkflowEvent}, (∀ e ∈ new, isFinalEvent e = false) →
        ∀ e ∈ w.db.events ++ new, isFinalEvent e = false :=
      fun hnew e he => (List.mem_append.mp he).elim (h.live hend e) (hnew e)
    rcases heff.live_write hg hend with ⟨new, hlive, hev, hnew⟩ | ⟨new, ev, hend', hev, hnew, hstatus⟩
    · refine ⟨fun _ => ?_, fun hend' => ?_⟩
      · rw [hev]
        exact hold hnew
      · rw [hlive] at hend'
        cases hend'
    · refine ⟨fun hlive => ?_, fun _ => ⟨_, ev, hev, isFinalEvent_of_endStatus hstatus, hold hnew⟩⟩
      rw [hend'] at hlive
      cases hlive

/-! ## Runs -/

/-- An allowed move leaves the rows alone, or is a guarded call that is no late write. -/
theorem Move.writes {cfg : Config} {s : Sys} {a : Action} {w' : World} (hok : finalOk s a)
    (hm : Move cfg s a w') : w'.db = s.w.db ∨ ∃ op, EventGuard op ∧ Effect op s.w w' ∧
      (s.w.db.isTerminal = true → op.writesLate s.w.db = false) := by
  have hcall : ∀ {who : Who} {inp : Input} {op : Op} {r : Except CallError (Ans op)},
      a = .exec who inp → s.nextOp who = some op → (Justified cfg op s.w ∨ ApiGuard cfg op s.w) →
      exec op s.w inp = some (r, w') → w'.db = s.w.db ∨ ∃ op, EventGuard op ∧ Effect op s.w w' ∧
        (s.w.db.isTerminal = true → op.writesLate s.w.db = false) := by
    intro who inp op r ha hop hg hex
    by_cases hlate : s.w.db.isTerminal = true ∧ op.writesLate s.w.db = true
    · refine Or.inl (exec_refused hex ?_)
      rintro rfl
      exact hok ⟨who, op, ha, hop, hlate⟩
    · refine Or.inr ⟨op, nextOp_events hg, exec_effect hex, fun hend => ?_⟩
      by_contra hl
      exact hlate ⟨hend, by simpa using hl⟩
  cases hm with
  | pump hop hj hex => exact hcall rfl hop (Or.inl hj) hex
  | call hop hg hex => exact hcall rfl hop (Or.inr hg) hex
  | @wake who op r hw => rcases noteWake_db op r s.w with h | h <;> exact Or.inl (by rw [h])
  | invoke => exact Or.inl (by split <;> rfl)
  | deliver hreq hd => rcases World.deliver_cases hd with ⟨rfl, -⟩ | ⟨rfl, -⟩ <;> exact Or.inl rfl
  | _ => exact Or.inl rfl

theorem finalLog_move {cfg : Config} {s : Sys} {a : Action} {w' : World} (hok : finalOk s a)
    (hm : Move cfg s a w') (h : FinalLog s.w.db) : FinalLog w'.db := by
  rcases hm.writes hok with hdb | ⟨op, hg, heff, hlate⟩
  · rw [hdb]
    exact h
  · exact h.call hg heff hlate

/-- An ended workflow is frozen. -/
theorem frozen_move {cfg : Config} {s : Sys} {a : Action} {w' : World} (hok : finalOk s a)
    (hm : Move cfg s a w') {f : Frozen}
    (h : s.w.db.isTerminal = true ∧ frozen s.w.db = f) : w'.db.isTerminal = true ∧ frozen w'.db = f := by
  rcases hm.writes hok with hdb | ⟨op, -, heff, hlate⟩
  · rw [hdb]
    exact h
  · exact ⟨heff.mono.isTerminal h.1, (heff.frozen h.1 (hlate h.1)).trans h.2⟩

theorem initial_finalLog (cfg : Config) : FinalLog (initial cfg).w.db where
  live := by
    intro _ e he
    have he : e ∈ [wfEvent .workflowCreated [("name", .str cfg.spec.name)],
      wfEvent .workflowValidated []] := he
    simp only [List.mem_cons, List.not_mem_nil, or_false] at he
    rcases he with rfl | rfl <;> rfl
  ended := nofun

/-- The ending events of a final log, and what stands after one. -/
theorem FinalLog.last {db : Db} (h : FinalLog db) : (db.events.filter isFinalEvent).length ≤ 1 ∧
    ∀ pre ev post, db.events = pre ++ ev :: post → isFinalEvent ev = true →
      post = [] ∧ db.isTerminal = true := by
  cases hend : db.isTerminal with
  | false =>
    have hnone := h.live hend
    constructor
    · rw [List.filter_eq_nil_iff.mpr (fun e he => by rw [hnone e he]; exact Bool.false_ne_true)]
      exact Nat.zero_le 1
    · intro pre ev post hev hf
      rw [hnone ev (by rw [hev]; exact List.mem_append_right _ List.mem_cons_self)] at hf
      exact nomatch hf
  | true =>
    obtain ⟨pre₀, ev₀, hev₀, hf₀, hpre₀⟩ := h.ended hend
    constructor
    · rw [hev₀, List.filter_append,
        List.filter_eq_nil_iff.mpr (fun e he => by rw [hpre₀ e he]; exact Bool.false_ne_true)]
      exact List.length_filter_le _ _
    · intro pre ev post hev hf
      refine ⟨?_, rfl⟩
      -- an ending event before the last one would be among the others
      rcases List.eq_nil_or_concat post with rfl | ⟨post', last, rfl⟩
      · rfl
      · have heq : pre₀ ++ [ev₀] = (pre ++ ev :: post') ++ [last] := by
          rw [← hev₀, hev]
          simp
        have hmem : ev ∈ pre₀ := by
          rw [(List.append_inj' heq rfl).1]
          exact List.mem_append_right _ List.mem_cons_self
        rw [hpre₀ ev hmem] at hf
        exact nomatch hf

/-- **The log is final**, in runs in which no step's write takes effect on an ended row: it has at
    most one ending event, nothing stands after it, and in every later state the log, the status,
    the counts, the current step and the round are what they were. -/
theorem log_final {cfg : Config} {s : Sys} (h : Reach cfg finalOk s) :
    (s.w.db.events.filter isFinalEvent).length ≤ 1 ∧
    (∀ pre ev post, s.w.db.events = pre ++ ev :: post → isFinalEvent ev = true → post = []) ∧
    ∀ s', Steps cfg finalOk s s' → (∃ ev ∈ s.w.db.events, isFinalEvent ev = true) →
      frozen s'.w.db = frozen s.w.db := by
  have hlog : FinalLog s.w.db :=
    reach_world (P := fun w => FinalLog w.db) (initial_finalLog cfg)
      (fun _ _ _ _ hok hm hP => finalLog_move hok hm hP) h
  obtain ⟨hone, hlast⟩ := hlog.last
  refine ⟨hone, fun pre ev post hev hf => (hlast pre ev post hev hf).1, ?_⟩
  rintro s' hsteps ⟨ev, hev, hf⟩
  obtain ⟨pre, post, hsplit⟩ := List.append_of_mem hev
  have hend : s.w.db.isTerminal = true := (hlast pre ev post hsplit hf).2
  exact (steps_world (P := fun w => w.db.isTerminal = true ∧ frozen w.db = frozen s.w.db)
    (fun _ _ _ _ hok hm hP => frozen_move hok hm hP) hsteps h ⟨hend, rfl⟩).2

theorem finalOk_live {s : Sys} {a : Action} (h : s.w.db.isTerminal = false) : finalOk s a := by
  rintro ⟨_, _, _, _, hend, _⟩
  rw [h] at hend
  exact nomatch hend

/-- A workflow that ran to its end has one ending event, and stays as it is. -/
theorem completed_log_final : ∃ s, Reach oneStep finalOk s ∧ s.w.db.wf.status = .completed ∧
    (s.w.db.events.filter isFinalEvent).length = 1 ∧
    ∀ s', Steps oneStep finalOk s s' → frozen s'.w.db = frozen s.w.db := by
  obtain ⟨s, hs, hP⟩ := reach_exists oneStep finalOk (fun s _ => !s.w.db.isTerminal)
    (fun _ _ h => finalOk_live (by simpa using h))
    (startActions ++ renderActions ++ bindActions ++ resultActions ++ routeActions.dropLast)
    (fun s => decide (s.w.db.wf.status = .completed ∧
      (s.w.db.events.filter isFinalEvent).length = 1))
    (by decide +kernel)
  obtain ⟨hst, hlen⟩ := of_decide_eq_true hP
  refine ⟨s, hs, hst, hlen, fun s' hsteps => (log_final hs).2.2 s' hsteps ?_⟩
  obtain ⟨ev, hev⟩ := List.exists_mem_of_length_pos (Nat.lt_of_lt_of_eq Nat.one_pos hlen.symm)
  obtain ⟨hmem, hf⟩ := List.mem_filter.mp hev
  exact ⟨ev, hmem, hf⟩

/-- A cancellation, up to its commit. -/
def cancelActions : List Action :=
  .invoke .cancel :: (List.replicate 6 [Action.exec (.call 0) .run, .wake (.call 0)]).flatten ++
    [.exec (.call 0) .run]

/-- **A task bound after the cancellation**: the workflow is cancelled while the driver is about
    to bind the task it has created, and the binding is counted and logged on the ended row. -/
theorem bind_after_cancel : ∃ s s', Reach oneStep anyStep s ∧
    (∃ ev ∈ s.w.db.events, isFinalEvent ev = true) ∧
    step oneStep s (.exec .pump .run) = some s' ∧
    s'.w.db.events = s.w.db.events ++ [taskCreatedEvent ⟨"a", 1⟩ "t"] ∧
    s.w.db.wf.totalTasks = 0 ∧ s'.w.db.wf.totalTasks = 1 := by
  obtain ⟨s, hs, hP⟩ := reach_exists oneStep anyStep (fun _ _ => true) (fun _ _ _ => trivial)
    (startActions ++ renderActions ++ [.exec .pump (.created "t"), .wake .pump] ++ cancelActions)
    (fun s => decide (∃ ev ∈ s.w.db.events, isFinalEvent ev = true) &&
      (step oneStep s (.exec .pump .run)).any (fun s' : Sys =>
        decide (s'.w.db.events = s.w.db.events ++ [taskCreatedEvent ⟨"a", 1⟩ "t"] ∧
          s.w.db.wf.totalTasks = 0 ∧ s'.w.db.wf.totalTasks = 1)))
    (by decide +kernel)
  rw [Bool.and_eq_true, Option.any_eq_true] at hP
  obtain ⟨hfinal, s', hs', hchange⟩ := hP
  exact ⟨s, s', hs, of_decide_eq_true hfinal, hs', of_decide_eq_true hchange⟩

end VibeRuntime
