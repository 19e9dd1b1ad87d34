import VibeWorkflow.WatchProofs
import VibeWorkflow.ShutdownProofs

/-!
# Recorded evidence and the outcome

A step that routes to `$complete` is judged on evidence.  The pump reads the evidence, records it with the
decision and then ends the workflow by the decision.  The record is kept from the first write on, and the
pump goes on when it cannot be written; a pump that comes back after a crash reads the evidence again and
ends the workflow by what it reads then.

* `evidenceMonitor` — the pump ends a workflow through `$complete` right after recording its decision;
* `Recorded` — the evidence row of an execution is there, with a decision;
* **`evidence_agrees`** — in runs in which every record is written and no later reading leads to another
  decision, the workflow is ended by the recorded decision;
* **`evidence_disagrees`** — a crash between the record and the ending write.
-/

namespace VibeRuntime

open VibeJson VibeContract VibeRouting VibeTemplate VibeValidator VibeStore VibeAdmission VibeControl
open AsyncLogic

/-! ## Ending through `$complete` -/

/-- An edge event that leads to `$complete`. -/
def leadsToComplete (e : WorkflowEvent) : Bool :=
  decide (e.type = .edgeSelected ∧ e.payload.get? "to" = some (.str "$complete"))

/-- A step after which the workflow has ended through a `$complete` route. -/
def EndsComplete (s s' : Sys) : Prop :=
  s'.w.db.wf.status ≠ s.w.db.wf.status ∧
    ∃ edge ev, s'.w.db.events = s.w.db.events ++ [edge, ev] ∧ leadsToComplete edge = true

/-- The evidence row of an execution is there, with this decision. -/
def Recorded (db : Db) (k : StepKey) (decision : String) : Prop :=
  (∃ row ∈ db.evidence, row.key = k) ∧ ∀ row ∈ db.evidence, row.key = k → row.decision = decision

/-- The record of the pump is written, and the decision it comes with is the one that stands there. -/
def evidenceOk (s : Sys) (a : Action) : Prop :=
  ∀ inp k evidence decision, a = .exec .pump inp →
    s.nextOp .pump = some (.recordEvidence k evidence decision) →
    inp = .run ∧ ∀ row ∈ s.w.db.evidence, row.key = k → row.decision = decision

/-- The evidence row of the current execution is there, and its decision names the status. -/
def EvidenceAgrees (cfg : Config) (db : Db) : Prop :=
  (∃ row ∈ db.evidence, row.key = currentKey cfg.spec db.wf) ∧
    ∀ row ∈ db.evidence, row.key = currentKey cfg.spec db.wf →
      (row.decision = "complete" ↔ db.wf.status = .completed) ∧
      (row.decision = "blocked" ↔ db.wf.status = .blocked) ∧
      (row.decision = "failed" ↔ db.wf.status = .failed)

instance (cfg : Config) (db : Db) : Decidable (EvidenceAgrees cfg db) :=
  inferInstanceAs (Decidable (_ ∧ _))

/-- The pump ends a workflow through `$complete` right after recording its decision. -/
def evidenceMonitor : Monitor sig where
  State := Option (StepKey × String)
  step := fun _ op _ =>
    match op with
    | .recordEvidence k _ decision => some (k, decision)
    | _ => none
  allows := fun g op =>
    match op with
    | .terminalize status (some edge) _ => leadsToComplete edge = true →
        ∃ k d, g = some (k, CompletionDecision.name d) ∧ status = completionStatus d
    | _ => True

/-- What was just recorded stands in the store, for the current execution. -/
def RecordedNow (cfg : Config) (g : Option (StepKey × String)) (w : World) : Prop :=
  ∀ k decision, g = some (k, decision) → (owned w.db).cur cfg = k ∧ Recorded w.db k decision

/-! ## The routing is watched -/

theorem evidenceMonitor_free (op : Op) (h : op.ofRoute = false) (g : evidenceMonitor.State) :
    evidenceMonitor.allows g op := by
  cases op with
  | terminalize status edge ev =>
    cases edge with
    | none => trivial
    | some edge => exact nomatch h
  | _ => trivial

theorem assembleStepEvidence_quiet (cfg : Config) (row : StepRow) :
    Quiet evidenceMonitor (assembleStepEvidence cfg row) := by
  unfold assembleStepEvidence
  split
  · exact quiet_pure _
  · refine quiet_bind (quiet_catch (quiet_call evidenceMonitor_free rfl) (fun _ => quiet_pure _)) ?_
    intro status
    exact quiet_leave (quiet_catch (quiet_call evidenceMonitor_free rfl) (fun _ => quiet_pure _))

/-- The gate records its decision, and ends the workflow by it. -/
theorem gateCompletion_quiet (cfg : Config) (policy : CompletionPolicy) (row : StepRow) (output : Json)
    (target : String) : Quiet evidenceMonitor (gateCompletion cfg policy row output target) := by
  refine quiet_bind (assembleStepEvidence_quiet cfg row) ?_
  intro e
  generalize evaluateCompletion policy e (declaredRemainingWork output) = d
  refine Watched.quiet (Q := fun _ _ => True) (E := fun _ _ => True)
    (watched_bind (Q := fun _ g => g = some (row.key, d.name)) ?_ ?_)
  · -- the record is the last call, whether it fails or not
    refine watched_catch (F := fun _ g => g = some (row.key, d.name)) ?_
      (fun _ => watched_pure (fun _ h => h))
    exact watched_await (fun _ _ => trivial) (fun _ _ _ => rfl) (fun _ _ _ => rfl)
  · intro _
    refine watched_bind (Q := fun _ _ => True) ?_ (fun _ => watched_pure (fun _ h => h))
    refine watched_await ?_ (fun _ _ _ => trivial) (fun _ _ _ => trivial)
    rintro g rfl _
    exact ⟨row.key, d, rfl, rfl⟩

/-- An ungated routing of a gated workflow does not lead to `$complete`. -/
theorem endByRouting_quiet {target : String} (h : terminalTargetToStatus target ≠ .completed) :
    Quiet evidenceMonitor (endByRouting target) := by
  refine quiet_await ?_
  intro g hto
  refine absurd ?_ h
  have hto : some (Json.str target) = some (.str "$complete") := (of_decide_eq_true hto).2
  have htarget : target = "$complete" := Json.str.inj (Option.some.inj hto)
  rw [htarget]
  rfl

theorem checkStall_quiet (cfg : Config) (policy : StallPolicy) (k : StepKey) (output : Json) :
    Quiet evidenceMonitor (checkStall cfg policy k output) := by
  have hrecord : ∀ round fp values, Quiet evidenceMonitor (call (.recordStall round fp values)) :=
    fun _ _ _ => quiet_await (fun _ => trivial)
  have hlatest : Quiet evidenceMonitor (latestResultContentHash k.stepId) := by
    refine quiet_bind (quiet_call evidenceMonitor_free rfl) (fun (rows : List StepRow) => ?_)
    cases (latestOther rows k.stepId).bind StepRow.taskId with
    | none => exact quiet_pure _
    | some t =>
      exact quiet_leave (quiet_catch (quiet_call evidenceMonitor_free rfl) (fun _ => quiet_pure _))
  refine quiet_bind (quiet_call evidenceMonitor_free rfl) (fun _ => quiet_bind (quiet_catch
    (quiet_leave (quiet_call evidenceMonitor_free rfl)) (fun _ => quiet_pure _)) (fun _ =>
    quiet_bind hlatest (fun _ => quiet_bind (hrecord _ _ _) (fun _ => quiet_bind
      (quiet_call evidenceMonitor_free rfl) (fun _ => quiet_ite ?_ (quiet_pure _))))))
  exact quiet_leave (quiet_blockWorkflow evidenceMonitor_free _ _)

theorem takeEdge_quiet (k : StepKey) (d : RoutingDecision) : Quiet evidenceMonitor (takeEdge k d) :=
  quiet_leave (quiet_call evidenceMonitor_free rfl)

theorem routeAndAdvance_quiet {cfg : Config} {policy : CompletionPolicy}
    (hp : cfg.spec.completionPolicy = some policy) (row : StepRow) :
    Quiet evidenceMonitor (routeAndAdvance cfg cfg.spec row) := by
  unfold routeAndAdvance
  split
  · exact quiet_leave (quiet_failWorkflow evidenceMonitor_free _ _)
  · split
    · exact quiet_leave (quiet_failWorkflow evidenceMonitor_free _ _)
    · refine quiet_ite ?_ (quiet_ite (quiet_ite (quiet_leave (quiet_failLimit evidenceMonitor_free _)) ?_)
        (takeEdge_quiet _ _))
      · split
        · exact quiet_leave (gateCompletion_quiet _ _ _ _ _)
        · rename_i hne
          refine quiet_leave (endByRouting_quiet ?_)
          intro hs
          exact hne policy hs hp
      · split
        · exact takeEdge_quiet _ _
        · exact quiet_bind (checkStall_quiet _ _ _ _) (fun _ => quiet_ite (quiet_pure _) (takeEdge_quiet _ _))

/-! ## The record in the store -/

section

variable {cfg : Config} {w w' : World} {op : Op} {k : StepKey} {evidence : Json} {decision : String}

/-- Only the record writes evidence. -/
theorem Effect.evidence_same (h : Effect op w w')
    (hop : ∀ k evidence decision, op ≠ .recordEvidence k evidence decision) :
    w'.db.evidence = w.db.evidence := by
  cases h with
  | evidenced => exact absurd rfl (hop _ _ _)
  | @cancelled _ k _ _ _ => cases k <;> rfl
  | _ => rfl

theorem Recorded.of_evidence {db db' : Db} (h : Recorded db k decision)
    (heq : db'.evidence = db.evidence) : Recorded db' k decision := by
  unfold Recorded
  rw [heq]
  exact h

/-- **A record that is written** and meets no other decision leaves its decision. -/
theorem recordEvidence_records {row : StepRow} {r : Except CallError Unit} (hat : AtStep cfg w k row)
    (hold : ∀ row ∈ w.db.evidence, row.key = k → row.decision = decision)
    (hex : exec (.recordEvidence k evidence decision) w .run = some (r, w')) :
    Recorded w'.db k decision := by
  have hex : storeWrite w .run (recordCompletionEvidence w.db k evidence decision) = some (r, w') := hex
  obtain ⟨r₀, hr₀, -⟩ := hat.row?
  by_cases hany : w.db.evidence.any (fun e => e.key = k) = true
  · have hsame : recordCompletionEvidence w.db k evidence decision = .ok w.db := if_pos hany
    rw [hsame] at hex
    cases hex
    obtain ⟨e, he, hk⟩ := List.any_eq_true.mp hany
    exact ⟨⟨e, he, of_decide_eq_true hk⟩, hold⟩
  · have hnew : recordCompletionEvidence w.db k evidence decision
        = .ok { w.db with evidence := w.db.evidence ++ [⟨k, evidence, decision⟩] } := by
      unfold recordCompletionEvidence
      rw [if_neg hany, hr₀]
    rw [hnew] at hex
    cases hex
    refine ⟨⟨_, List.mem_append_right _ (List.mem_singleton.mpr rfl), rfl⟩, ?_⟩
    intro row hrow hk
    rcases mem_snoc.mp hrow with hrow | rfl
    · exact hold row hrow hk
    · rfl

end

/-! ## Runs -/

section

variable {cfg : Config} {s s' : Sys} {a : Action} {policy : CompletionPolicy}

/-- Nobody but the pump changes the current execution or its evidence. -/
theorem recordedNow_move {w' : World} {g : Option (StepKey × String)} (hinv : SysInv cfg s)
    (ha : ∀ inp, a ≠ .exec .pump inp) (hm : Move cfg s a w') (h : RecordedNow cfg g s.w) :
    RecordedNow cfg g w' := by
  have howned := owned_move hinv ha hm
  have hevidence : w'.db.evidence = s.w.db.evidence := by
    cases hm with
    | pump _ _ _ => exact absurd rfl (ha _)
    | @call i op _ _ _ hop hg hex =>
      refine (exec_effect hex).evidence_same ?_
      rintro k evidence decision rfl
      exact absurd hg id
    | wake _ => rcases noteWake_db _ _ s.w with h | h <;> rw [h]
    | invoke => split <;> rfl
    | deliver _ hd => rcases World.deliver_cases hd with ⟨rfl, -⟩ | ⟨rfl, -⟩ <;> rfl
    | _ => rfl
  intro k decision hg
  obtain ⟨hcur, hrec⟩ := h k decision hg
  exact ⟨by rw [howned]; exact hcur, hrec.of_evidence hevidence⟩

/-- A call of the pump leaves its own record, or none that the monitor remembers. -/
theorem recordedNow_call {inp : Input} {op : Op} {r : Except CallError (Ans op)} {w' : World}
    {g : evidenceMonitor.State} (hok : evidenceOk s (.exec .pump inp)) (hop : s.nextOp .pump = some op)
    (hj : Justified cfg op s.w) (hinv : SysInv cfg s) (hex : exec op s.w inp = some (r, w')) :
    RecordedNow cfg (evidenceMonitor.step g op r) w' := by
  cases op with
  | recordEvidence k evidence decision =>
    intro k' decision' hg
    cases hg
    obtain ⟨rfl, hold⟩ := hok inp k evidence decision rfl hop
    obtain ⟨row, hat⟩ := hj
    refine ⟨?_, recordEvidence_records hat hold hex⟩
    have hsame : owned w'.db = owned s.w.db := by
      have hs := (exec_effect hex).owned hinv.core.keys
      generalize owned w'.db = O' at hs
      cases hs
      rfl
    rw [hsame]
    exact hat.cur
  | _ => exact fun _ _ hg => nomatch hg

/-- The pump's ghost is what it has just recorded. -/
theorem reach_recordedNow {t : PumpThread} (hp : cfg.spec.completionPolicy = some policy)
    (h : Reach cfg evidenceOk s) (ht : s.pump = some t) :
    ∃ g, Watching evidenceMonitor t g ∧ RecordedNow cfg g s.w := by
  have hroute : ∀ spec row, cfg.loaded = some spec →
      Quiet evidenceMonitor (routeAndAdvance cfg spec row) := by
    intro spec row hload
    rw [(loaded_spec hload).2]
    exact routeAndAdvance_quiet hp row
  refine reach_watched (bodies_quiet evidenceMonitor_free hroute)
    (quiet_runWorkflow evidenceMonitor_free cfg) ?_ ?_ ?_ h ht
  · exact fun _ => ⟨none, fun _ _ hg => nomatch hg⟩
  · intro s inp op r w' g hinv hok hop hj _ _ hex
    exact recordedNow_call hok hop hj hinv hex
  · intro s a w' g hinv ha hm hf
    exact recordedNow_move hinv ha hm hf

/-- A call after which the workflow has ended through `$complete` is the gate's ending write. -/
theorem ends_terminalize {op : Op} {w w' : World} {edge ev : WorkflowEvent} (heff : Effect op w w')
    (hg : EventGuard op) (hstatus : w'.db.wf.status ≠ w.db.wf.status)
    (hevents : w'.db.events = w.db.events ++ [edge, ev]) (hedge : leadsToComplete edge = true) :
    op = .terminalize w'.db.wf.status (some edge) ev ∧ w'.db.evidence = w.db.evidence ∧
      (owned w'.db).cur = (owned w.db).cur := by
  have hone : ∀ {e : WorkflowEvent}, w.db.events ++ [e] ≠ w.db.events ++ [edge, ev] := by
    intro e heq
    exact nomatch List.append_cancel_left heq
  have htype : edge.type = .edgeSelected := (of_decide_eq_true hedge).1
  cases heff with
  | started _ => exact absurd hevents hone
  | @terminalized _ status edgeEv ev' _ _ =>
    have hevents : w.db.events ++ edgeEv.toList ++ [ev'] = w.db.events ++ [edge, ev] := hevents
    rw [List.append_assoc] at hevents
    have hlist := List.append_cancel_left hevents
    cases edgeEv with
    | none => exact nomatch hlist
    | some e =>
      cases hlist
      exact ⟨rfl, rfl, rfl⟩
  | @stepFailed _ k stepEv ev' _ _ _ _ _ =>
    have hevents : w.db.events ++ [stepEv] ++ [ev'] = w.db.events ++ [edge, ev] := hevents
    rw [List.append_assoc] at hevents
    have hlist := List.append_cancel_left hevents
    cases hlist
    have hstep : edge.type = .stepFailed := hg.1
    rw [htype] at hstep
    exact nomatch hstep
  | failedOnly _ _ _ => exact absurd hevents hone
  | @cancelled _ k _ _ _ => cases k <;> exact absurd hevents hone
  | askedPaused _ _ _ => exact absurd hevents hone
  | paused _ => exact absurd hevents hone
  | rejected _ _ _ _ => exact absurd hevents hone
  | resumed _ => exact absurd hevents hone
  | _ => exact absurd rfl hstatus

/-- A status set by a decision is named by it. -/
theorem Recorded.agrees {db : Db} {d : CompletionDecision}
    (h : Recorded db (currentKey cfg.spec db.wf) d.name) (hs : db.wf.status = completionStatus d) :
    EvidenceAgrees cfg db := by
  refine ⟨h.1, ?_⟩
  intro row hrow hk
  rw [h.2 row hrow hk, hs]
  cases d <;> simp [CompletionDecision.name, completionStatus]

/-- **The recorded decision is the outcome**: in every run in which every record of evidence is written and
    no later reading of the evidence leads to another decision than the recorded one, a workflow that ends
    through a `$complete` route has the evidence row of the completing execution, and is `completed`,
    `blocked` or `failed` by the decision recorded there. -/
theorem evidence_agrees (hp : cfg.spec.completionPolicy = some policy) (h : Reach cfg evidenceOk s)
    (hok : evidenceOk s a) (hs : step cfg s a = some s') (hend : EndsComplete s s') :
    EvidenceAgrees cfg s'.w.db := by
  obtain ⟨hstatus, edge, ev, hevents, hedge⟩ := hend
  have hinv := reach_inv h
  obtain ⟨-, hm⟩ := step_move hinv hs
  generalize hw : s'.w = w' at hm hstatus hevents ⊢
  cases hm with
  | @pump op inp r _ hop hj hex =>
    obtain ⟨rfl, hsame, hcur⟩ :=
      ends_terminalize (exec_effect hex) (nextOp_events (Or.inl hj)) hstatus hevents hedge
    obtain ⟨t, ht, hnext⟩ := Option.bind_eq_some_iff.mp hop
    obtain ⟨kont, rfl⟩ := nextOp_eq hnext
    obtain ⟨g, hg, hrec⟩ := reach_recordedNow hp h ht
    obtain ⟨k, d, rfl, hd⟩ := (watched_exec hg s.w.flags).1 hedge
    obtain ⟨hk, hrow⟩ := hrec k d.name rfl
    have hkey : currentKey cfg.spec w'.db.wf = k := (congrFun hcur cfg).trans hk
    refine Recorded.agrees ?_ hd
    rw [hkey]
    exact hrow.of_evidence hsame
  | @call i op inp r _ hop hg hex =>
    obtain ⟨rfl, -⟩ :=
      ends_terminalize (exec_effect hex) (nextOp_events (Or.inr hg)) hstatus hevents hedge
    exact absurd hg id
  | wake _ =>
    refine absurd ?_ hstatus
    rcases noteWake_db _ _ s.w with h | h <;> rw [h]
  | invoke =>
    refine absurd ?_ hstatus
    split <;> rfl
  | deliver _ hd =>
    refine absurd ?_ hstatus
    rcases World.deliver_cases hd with ⟨rfl, -⟩ | ⟨rfl, -⟩ <;> rfl
  | _ => exact absurd rfl hstatus

end

/-! ## A run that completes -/

/-- The condition of `evidenceOk`, as a check. -/
def evidenceCheck (s : Sys) (a : Action) : Bool :=
  match a, s.nextOp .pump with
  | .exec .pump inp, some (.recordEvidence k _ decision) =>
    decide (inp = .run ∧ ∀ row ∈ s.w.db.evidence, row.key = k → row.decision = decision)
  | _, _ => true

theorem evidenceCheck_ok (s : Sys) (a : Action) (h : evidenceCheck s a = true) : evidenceOk s a := by
  rintro inp k evidence decision rfl hop
  unfold evidenceCheck at h
  rw [hop] at h
  exact of_decide_eq_true h

/-- The next call of the pump ends the workflow as completed. -/
def completing (s : Sys) : Bool :=
  (step oneStep s (.exec .pump .run)).any (fun s' =>
    decide (s.w.db.wf.status = .running ∧ s'.w.db.wf.status = .completed ∧
      s'.w.db.events = s.w.db.events ++ [gatedEdgeEvent "$complete", completionEvent .complete]))

theorem completing_ends {s : Sys} (h : completing s = true) :
    ∃ s', step oneStep s (.exec .pump .run) = some s' ∧ EndsComplete s s' ∧
      s'.w.db.wf.status = .completed := by
  obtain ⟨s', hs', hP⟩ := Option.any_eq_true _ _ |>.mp h
  obtain ⟨hrun, hdone, hevents⟩ := of_decide_eq_true hP
  refine ⟨s', hs', ⟨?_, _, _, hevents, by decide⟩, hdone⟩
  rw [hrun, hdone]
  exact nofun

/-- A task that is seen completed completes the workflow, with its evidence. -/
theorem gated_completion_agrees : ∃ s s', Reach oneStep evidenceOk s ∧
    step oneStep s (.exec .pump .run) = some s' ∧ EndsComplete s s' ∧
    s'.w.db.wf.status = .completed ∧ EvidenceAgrees oneStep s'.w.db := by
  obtain ⟨s, hs, hP⟩ := reach_exists oneStep evidenceOk evidenceCheck evidenceCheck_ok
    (startActions ++ renderActions ++ bindActions ++ resultActions ++
      evidenceActions (.taskRow (some "completed")))
    (fun s => completing s && evidenceCheck s (.exec .pump .run)) (by decide +kernel)
  rw [Bool.and_eq_true] at hP
  obtain ⟨s', hs', hend, hdone⟩ := completing_ends hP.1
  exact ⟨s, s', hs, hs', hend, hdone, evidence_agrees rfl hs (evidenceCheck_ok _ _ hP.2) hs' hend⟩

/-- **The record and the outcome disagree**: the task's row is behind, so `blocked` is recorded; the process
    crashes before it ends the workflow, and the next one finds the row up to date and completes it. -/
theorem evidence_disagrees : ∃ s s', Reach oneStep anyStep s ∧
    step oneStep s (.exec .pump .run) = some s' ∧ EndsComplete s s' ∧
    s'.w.db.wf.status = .completed ∧ ¬ EvidenceAgrees oneStep s'.w.db := by
  obtain ⟨s, hs, hP⟩ := reach_exists oneStep anyStep (fun _ _ => true) (fun _ _ _ => trivial)
    (startActions ++ renderActions ++ bindActions ++ resultActions ++
      evidenceActions (.taskRow (some "running")) ++ recoverActions ++
      [.wake (.call 0), .leave 0] ++ evidenceActions (.taskRow (some "completed")))
    (fun s => completing s && (step oneStep s (.exec .pump .run)).all
      (fun s' => decide (¬ EvidenceAgrees oneStep s'.w.db))) (by decide +kernel)
  rw [Bool.and_eq_true] at hP
  obtain ⟨s', hs', hend, hdone⟩ := completing_ends hP.1
  have hno := hP.2
  rw [hs'] at hno
  exact ⟨s, s', hs, hs', hend, hdone, of_decide_eq_true hno⟩

end VibeRuntime
