import VibeWorkflow.StoreTableProofs

/-!
# The workflow tables under every sequence of composites

* `Grows` — what no composite ever undoes: counters, the cancellation flag, terminal statuses,
  task bindings, a terminal step's output, human answers;
* `EventsContiguous` — every workflow's event sequences are `0, 1, …, last_event_sequence`;
* `body_keeps` — every composite keeps both;
* `settled_after`, `settled_noop`, `settled_lasts` — the guard a successful call leaves behind,
  that it makes a repeat a no-op, and which guards outlive later calls;
* `store_invariants` — the whole over every sequence of calls;
* `paused_again` — repeating a pause after the workflow has resumed pauses it once more.
-/

namespace VibeTables

open Transaction VibeJson VibeStore

/-! ## What no composite undoes -/

/-- What stays of a workflow's row. -/
structure WorkflowLe (w w' : WorkflowRec) : Prop where
  round : w.currentRound ≤ w'.currentRound
  tasks : w.totalTasks ≤ w'.totalTasks
  failures : w.totalFailures ≤ w'.totalFailures
  cancel : w.cancelRequested = true → w'.cancelRequested = true
  final : workflowTerminal w.status = true → w'.status = w.status

/-- What stays of a step's row. -/
structure StepLe (s s' : StepRec) : Prop where
  task : ∀ t, s.taskId = some t → s'.taskId = some t
  final : stepTerminal s.status = true → s'.status = s.status ∧ s'.outputJson = s.outputJson

/-- What stays of a human request's row: everything, once it was responded to. -/
structure HumanLe (h h' : HumanRec) : Prop where
  workflow : h'.workflowId = h.workflowId
  kind : h'.kind = h.kind
  settled : h.status ≠ "pending" → h' = h

structure Grows (db db' : Tables) : Prop where
  workflow : ∀ id w, db.workflowRow id = some w → ∃ w', db'.workflowRow id = some w' ∧ WorkflowLe w w'
  step : ∀ id s, db.stepRow id = some s → ∃ s', db'.stepRow id = some s' ∧ StepLe s s'
  human : ∀ id h, db.humanRow id = some h → ∃ h', db'.humanRow id = some h' ∧ HumanLe h h'
  keys : ∀ wf step round attempt, (db.stepExecByKey wf step round attempt).isSome = true →
    (db'.stepExecByKey wf step round attempt).isSome = true

theorem WorkflowLe.refl (w : WorkflowRec) : WorkflowLe w w := ⟨le_refl _, le_refl _, le_refl _, id, fun _ => rfl⟩

theorem WorkflowLe.trans {a b c : WorkflowRec} (h : WorkflowLe a b) (h' : WorkflowLe b c) : WorkflowLe a c where
  round := le_trans h.round h'.round
  tasks := le_trans h.tasks h'.tasks
  failures := le_trans h.failures h'.failures
  cancel := fun hc => h'.cancel (h.cancel hc)
  final := fun ht => by
    have hb := h.final ht
    rw [h'.final (by rw [hb]; exact ht), hb]

theorem StepLe.refl (s : StepRec) : StepLe s s := ⟨fun _ ht => ht, fun _ => ⟨rfl, rfl⟩⟩

theorem StepLe.trans {a b c : StepRec} (h : StepLe a b) (h' : StepLe b c) : StepLe a c where
  task := fun t ht => h'.task t (h.task t ht)
  final := fun ht => by
    obtain ⟨hs, ho⟩ := h.final ht
    obtain ⟨hs', ho'⟩ := h'.final (by rw [hs]; exact ht)
    exact ⟨hs'.trans hs, ho'.trans ho⟩

theorem HumanLe.refl (h : HumanRec) : HumanLe h h := ⟨rfl, rfl, fun _ => rfl⟩

theorem HumanLe.trans {a b c : HumanRec} (h : HumanLe a b) (h' : HumanLe b c) : HumanLe a c where
  workflow := h'.workflow.trans h.workflow
  kind := h'.kind.trans h.kind
  settled := fun hs => by
    obtain rfl := h.settled hs
    exact h'.settled hs

theorem Grows.refl (db : Tables) : Grows db db :=
  ⟨fun _ w h => ⟨w, h, .refl w⟩, fun _ s h => ⟨s, h, .refl s⟩, fun _ r h => ⟨r, h, .refl r⟩, fun _ _ _ _ h => h⟩

theorem Grows.trans {a b c : Tables} (h : Grows a b) (h' : Grows b c) : Grows a c := by
  refine ⟨?_, ?_, ?_, fun wf st r n hk => h'.keys wf st r n (h.keys wf st r n hk)⟩
  · intro id w hw
    obtain ⟨w₁, hw₁, hle⟩ := h.workflow id w hw
    obtain ⟨w₂, hw₂, hle'⟩ := h'.workflow id w₁ hw₁
    exact ⟨w₂, hw₂, hle.trans hle'⟩
  · intro id s hs
    obtain ⟨s₁, hs₁, hle⟩ := h.step id s hs
    obtain ⟨s₂, hs₂, hle'⟩ := h'.step id s₁ hs₁
    exact ⟨s₂, hs₂, hle.trans hle'⟩
  · intro id r hr
    obtain ⟨r₁, hr₁, hle⟩ := h.human id r hr
    obtain ⟨r₂, hr₂, hle'⟩ := h'.human id r₁ hr₁
    exact ⟨r₂, hr₂, hle.trans hle'⟩

/-- A row found before a change of one row is found after it, changed or not. -/
theorem lookup_update_rel {κ ρ : Type} [DecidableEq κ] {key : ρ → κ} {rows : List ρ} {k : κ} {f : ρ → ρ}
    {P : ρ → ρ → Prop} (hkey : ∀ r, key (f r) = key r) (hrefl : ∀ r, P r r)
    (hf : ∀ r, lookup key rows k = some r → P r (f r)) (k' : κ) (r : ρ) (h : lookup key rows k' = some r) :
    ∃ r', lookup key (update key rows k f) k' = some r' ∧ P r r' := by
  rw [lookup_update key hkey]
  by_cases hk : k' = k
  · subst hk
    exact ⟨f r, by rw [if_pos rfl, h]; rfl, hf r h⟩
  · exact ⟨r, by rw [if_neg hk, h], hrefl r⟩

theorem Grows.setWorkflow {db : Tables} {id : String} {f : WorkflowRec → WorkflowRec}
    (hkey : ∀ w, (f w).workflowId = w.workflowId)
    (hf : ∀ w, db.workflowRow id = some w → WorkflowLe w (f w)) : Grows db (db.setWorkflow id f) :=
  ⟨lookup_update_rel hkey .refl hf, fun _ s h => ⟨s, h, .refl s⟩, fun _ r h => ⟨r, h, .refl r⟩, fun _ _ _ _ h => h⟩

theorem Grows.setStep {db : Tables} {id : String} {f : StepRec → StepRec}
    (hkey : ∀ s, (f s).stepExecutionId = s.stepExecutionId ∧ (f s).workflowId = s.workflowId ∧
      (f s).stepId = s.stepId ∧ (f s).round = s.round ∧ (f s).attempt = s.attempt)
    (hf : ∀ s, db.stepRow id = some s → StepLe s (f s)) : Grows db (db.setStep id f) := by
  refine ⟨fun _ w h => ⟨w, h, .refl w⟩, lookup_update_rel (fun s => (hkey s).1) .refl hf,
    fun _ r h => ⟨r, h, .refl r⟩, ?_⟩
  intro wf step round attempt h
  simp only [Tables.stepExecByKey, List.find?_isSome, decide_eq_true_eq] at h ⊢
  obtain ⟨s, hs, hcols⟩ := h
  refine ⟨_, List.mem_map.mpr ⟨s, hs, rfl⟩, ?_⟩
  split
  · simpa only [hkey s] using hcols
  · exact hcols

theorem Grows.setHuman {db : Tables} {id : String} {f : HumanRec → HumanRec}
    (hkey : ∀ r, (f r).requestId = r.requestId)
    (hf : ∀ r, db.humanRow id = some r → HumanLe r (f r)) : Grows db (db.setHuman id f) :=
  ⟨fun _ w h => ⟨w, h, .refl w⟩, fun _ s h => ⟨s, h, .refl s⟩, lookup_update_rel hkey .refl hf, fun _ _ _ _ h => h⟩

theorem Grows.addWorkflow (db : Tables) (row : WorkflowRec) :
    Grows db { db with workflows := db.workflows ++ [row] } :=
  ⟨fun _ w h => ⟨w, lookup_concat_of_some _ h, .refl w⟩, fun _ s h => ⟨s, h, .refl s⟩,
    fun _ r h => ⟨r, h, .refl r⟩, fun _ _ _ _ h => h⟩

theorem Grows.addStep (db : Tables) (row : StepRec) : Grows db { db with steps := db.steps ++ [row] } := by
  refine ⟨fun _ w h => ⟨w, h, .refl w⟩, fun _ s h => ⟨s, lookup_concat_of_some _ h, .refl s⟩,
    fun _ r h => ⟨r, h, .refl r⟩, ?_⟩
  intro wf step round attempt h
  simp only [Tables.stepExecByKey, List.find?_append, Option.isSome_or] at h ⊢
  rw [h]
  rfl

theorem Grows.addHuman (db : Tables) (row : HumanRec) : Grows db { db with human := db.human ++ [row] } :=
  ⟨fun _ w h => ⟨w, h, .refl w⟩, fun _ s h => ⟨s, h, .refl s⟩,
    fun _ r h => ⟨r, lookup_concat_of_some _ h, .refl r⟩, fun _ _ _ _ h => h⟩

/-! ## Event sequences -/

/-- The sequences of a workflow's events, in the order they were appended. -/
def sequences (db : Tables) (id : String) : List Int :=
  (db.events.filter fun e => e.workflowId = id).map (·.sequence)

/-- A workflow's events are numbered from 0 to `last_event_sequence`; there are none of a
    workflow that is not there. -/
structure EventsContiguous (db : Tables) : Prop where
  known : ∀ id w, db.workflowRow id = some w →
    ∃ n : Nat, w.lastEventSequence = (n : Int) - 1 ∧ sequences db id = (List.range n).map Int.ofNat
  unknown : ∀ id, db.workflowRow id = none → sequences db id = []

/-- A composite's effect on the tables. -/
structure Moves (db db' : Tables) : Prop where
  grows : Grows db db'
  events : EventsContiguous db → EventsContiguous db'

theorem Moves.refl (db : Tables) : Moves db db := ⟨.refl db, id⟩

theorem Moves.trans (a b c : Tables) (h : Moves a b) (h' : Moves b c) : Moves a c :=
  ⟨h.grows.trans h'.grows, fun hc => h'.events (h.events hc)⟩

/-- A change that keeps the events and every workflow's high-water mark keeps contiguity. -/
theorem EventsContiguous.frame {db db' : Tables} (hev : db'.events = db.events)
    (hlast : ∀ id, (db'.workflowRow id).map (·.lastEventSequence) = (db.workflowRow id).map (·.lastEventSequence))
    (h : EventsContiguous db) : EventsContiguous db' := by
  have hseq : ∀ id, sequences db' id = sequences db id := by
    intro id
    unfold sequences
    rw [hev]
  constructor
  · intro id w' hw'
    have hl := hlast id
    rw [hw'] at hl
    obtain ⟨w, hw, hwl⟩ := Option.map_eq_some_iff.mp hl.symm
    obtain ⟨n, hn, hs⟩ := h.known id w hw
    exact ⟨n, hwl.symm.trans hn, (hseq id).trans hs⟩
  · intro id hnone
    have hl := hlast id
    rw [hnone] at hl
    exact (hseq id).trans (h.unknown id (Option.map_eq_none_iff.mp hl.symm))

theorem lastSequence_setWorkflow {db : Tables} {id : String} {f : WorkflowRec → WorkflowRec}
    (hkey : ∀ w, (f w).workflowId = w.workflowId) (hlast : ∀ w, (f w).lastEventSequence = w.lastEventSequence)
    (id' : String) :
    ((db.setWorkflow id f).workflowRow id').map (·.lastEventSequence) =
      (db.workflowRow id').map (·.lastEventSequence) := by
  show (lookup _ (update _ _ _ _) _).map _ = _
  rw [lookup_update _ hkey]
  split
  · rw [Option.map_map]
    exact congrArg (fun g => Option.map g (lookup _ db.workflows id')) (funext hlast)
  · rfl

theorem workflowRow_pushEvent (db : Tables) (e : EventRec) (id : String) :
    (db.pushEvent e).workflowRow id =
      if id = e.workflowId then (db.workflowRow id).map fun w => { w with lastEventSequence := e.sequence }
      else db.workflowRow id :=
  lookup_update WorkflowRec.workflowId (f := fun w => { w with lastEventSequence := e.sequence }) (fun _ => rfl) id

theorem sequences_pushEvent (db : Tables) (e : EventRec) (id : String) :
    sequences (db.pushEvent e) id = sequences db id ++ if e.workflowId = id then [e.sequence] else [] := by
  simp only [sequences, Tables.pushEvent, Tables.setWorkflow, List.filter_append, List.map_append]
  by_cases hid : e.workflowId = id <;> simp [hid]

theorem Grows.pushEvent (db : Tables) (e : EventRec) : Grows db (db.pushEvent e) := by
  have hev : Grows db { db with events := db.events ++ [e] } :=
    ⟨fun _ w h => ⟨w, h, .refl w⟩, fun _ s h => ⟨s, h, .refl s⟩, fun _ r h => ⟨r, h, .refl r⟩, fun _ _ _ _ h => h⟩
  exact hev.trans (.setWorkflow (fun _ => rfl) fun w _ => ⟨le_refl _, le_refl _, le_refl _, fun h => h, fun _ => rfl⟩)

/-- The next event of a workflow. -/
theorem EventsContiguous.pushEvent {db : Tables} {cur : WorkflowRec} {e : EventRec}
    (hrow : db.workflowRow e.workflowId = some cur) (hnext : e.sequence = cur.lastEventSequence + 1)
    (h : EventsContiguous db) : EventsContiguous (db.pushEvent e) := by
  constructor
  · intro id w' hw'
    rw [workflowRow_pushEvent] at hw'
    by_cases hid : id = e.workflowId
    · subst hid
      rw [if_pos rfl, hrow] at hw'
      cases hw'
      obtain ⟨n, hn, hs⟩ := h.known _ cur hrow
      refine ⟨n + 1, ?_, ?_⟩
      · show e.sequence = _
        rw [hnext, hn]
        omega
      · rw [sequences_pushEvent, hs, if_pos rfl, List.range_succ, List.map_append, hnext, hn]
        simp
    · rw [if_neg hid] at hw'
      obtain ⟨n, hn, hs⟩ := h.known id w' hw'
      refine ⟨n, hn, ?_⟩
      rw [sequences_pushEvent, hs, if_neg (fun h => hid h.symm), List.append_nil]
  · intro id hnone
    rw [workflowRow_pushEvent] at hnone
    by_cases hid : id = e.workflowId
    · subst hid
      rw [if_pos rfl, hrow] at hnone
      exact nomatch hnone
    · rw [if_neg hid] at hnone
      rw [sequences_pushEvent, h.unknown id hnone, if_neg (fun h => hid h.symm), List.append_nil]

/-! ## Every composite moves the tables -/

/-- The reflexivity and transitivity that the rules of `Keeps` ask for. -/
theorem moves_bind {α β : Type} {x : Store α} {f : α → Store β} (hx : Keeps Moves x) (hf : ∀ a, Keeps Moves (f a)) :
    Keeps Moves (x >>= f) := Keeps.bind Moves.trans hx hf

theorem moves_pure {α : Type} (a : α) : Keeps Moves (pure a : Store α) := Keeps.pure Moves.refl a

theorem moves_read {α : Type} (f : Tables → α) : Keeps Moves (readTx f : Store α) := Keeps.readTx Moves.refl f

theorem moves_fault {α : Type} (code : StoreCode) (message : String) : Keeps Moves (fault code message : Store α) :=
  Keeps.throwTx _

theorem moves_lift {α : Type} (x : Except StoreError α) : Keeps Moves (lift x) := Keeps.liftTx Moves.refl _

theorem moves_append (id : String) (draft : EventDraft) : Keeps Moves (appendWorkflowEventAuto id draft) := by
  intro db a db' h
  obtain ⟨cur, payloadJson, hrow, rfl⟩ := appendEvent_ok h
  exact ⟨.pushEvent db _, .pushEvent hrow rfl⟩

theorem moves_updateWorkflow (id : String) (revision : Nat) (patch : WorkflowPatch) :
    Keeps Moves (updateWorkflowSync id revision patch) := by
  intro db a db' h
  obtain ⟨cur, hrow, hterm, hround, htasks, hfail, rfl⟩ := updateWorkflow_ok h
  refine ⟨.setWorkflow (fun _ => rfl) fun w hw => ?_, .frame rfl (lastSequence_setWorkflow (fun _ => rfl) fun _ => rfl)⟩
  obtain rfl : cur = w := Option.some.inj (hrow.symm.trans hw)
  exact ⟨hround, htasks, hfail, fun hc => by simp [WorkflowPatch.apply, hc], hterm⟩

theorem moves_updateStep (id : String) (revision : Nat) (patch : StepPatch) :
    Keeps Moves (updateStepSync id revision patch) := by
  intro db a db' h
  obtain ⟨cur, outputJson, errorJson, hrow, hterm, htask, rfl⟩ := updateStep_ok h
  refine ⟨.setStep (fun _ => ⟨rfl, rfl, rfl, rfl, rfl⟩) fun s hs => ?_, .frame rfl fun _ => rfl⟩
  obtain rfl : cur = s := Option.some.inj (hrow.symm.trans hs)
  exact ⟨htask, hterm⟩

theorem moves_saveContext (id : String) (revision : Nat) (context : Json) :
    Keeps Moves (saveContextSync id revision context) := by
  intro db a db' h
  obtain ⟨text, rfl⟩ := saveContext_ok h
  exact ⟨.setWorkflow (fun _ => rfl) fun w _ => ⟨le_refl _, le_refl _, le_refl _, fun h => h, fun _ => rfl⟩,
    .frame rfl (lastSequence_setWorkflow (fun _ => rfl) fun _ => rfl)⟩

theorem moves_createStep (input : CreateStepInput) : Keeps Moves (createStepSync input) := by
  intro db a db' h
  obtain ⟨-, rfl⟩ := createStep_ok h
  exact ⟨.addStep db _, .frame rfl fun _ => rfl⟩

theorem moves_createWorkflow (input : CreateWorkflowInput) (status : String) (round : Int) :
    Keeps Moves (createWorkflowSync input status round) := by
  intro db a db' h
  obtain ⟨hnone, row, hid, hlast, rfl⟩ := createWorkflow_ok h
  refine ⟨.addWorkflow db row, fun hc => ?_⟩
  have hlook : ∀ id, Tables.workflowRow { db with workflows := db.workflows ++ [row] } id =
      (db.workflowRow id).or (if row.workflowId = id then some row else none) := lookup_concat _ _ _
  constructor
  · intro id w hw
    rw [hlook] at hw
    cases hold : db.workflowRow id with
    | some w₀ =>
      rw [hold] at hw
      cases hw
      exact hc.known id w hold
    | none =>
      -- a new workflow has no events yet
      rw [hold, Option.none_or] at hw
      split at hw
      · cases hw
        exact ⟨0, by rw [hlast]; rfl, hc.unknown id hold⟩
      · exact nomatch hw
  · intro id hn
    rw [hlook, Option.or_eq_none_iff] at hn
    exact hc.unknown id hn.1

theorem moves_requireRow (id : String) : Keeps Moves (requireRow id) := by
  refine moves_bind (moves_read _) fun row => ?_
  cases row with
  | none => exact Keeps.throwTx _
  | some w => exact moves_pure w

theorem moves_ite {α : Type} {c : Prop} [Decidable c] {x y : Store α} (hx : Keeps Moves x) (hy : Keeps Moves y) :
    Keeps Moves (if c then x else y) := by
  split
  · exact hx
  · exact hy

theorem moves_setHuman {id : String} {f : HumanRec → HumanRec} {db : Tables}
    (hkey : ∀ r, (f r).requestId = r.requestId ∧ (f r).workflowId = r.workflowId ∧ (f r).kind = r.kind)
    (hpending : ∀ r, db.humanRow id = some r → r.status = "pending") : Moves db (db.setHuman id f) :=
  ⟨.setHuman (fun r => (hkey r).1) fun r hr => ⟨(hkey r).2.1, (hkey r).2.2, fun h => absurd (hpending r hr) h⟩,
    .frame rfl fun _ => rfl⟩

theorem moves_saveContextOptional (id : String) (revision : Option Nat) (context : Option Json) :
    Keeps Moves (saveContextOptional id revision context) := by
  cases revision with
  | none => exact moves_pure ()
  | some r =>
    cases context with
    | none => exact moves_pure ()
    | some c => exact moves_saveContext id r c

theorem moves_setCurrentStep (id step : String) (w : WorkflowRec) : Keeps Moves (setCurrentStep id step w) :=
  moves_ite (moves_updateWorkflow _ _ _) (moves_pure ())

theorem moves_failOpenWorkflow (id : String) (ev : EventDraft) : Keeps Moves (failOpenWorkflow id ev) :=
  moves_bind (moves_requireRow id) fun _ =>
    moves_ite (moves_pure ()) (moves_bind (moves_updateWorkflow _ _ _) fun _ => moves_append _ _)

/-- One call of a composite. -/
inductive Call where
  | createWorkflowWithLifecycleEvents (input : CreateWorkflowInput) (context : Option Json)
      (createdEvent validatedEvent : EventDraft)
  | startWorkflowDurably (workflowId : String) (startedEvent : EventDraft)
  | ensureStepStarted (step : CreateStepInput) (currentStepId : String) (startedEvent : EventDraft)
  | bindStepTaskOnce (stepExecutionId taskId workflowId : String) (event : EventDraft)
  | completeStepAndCheckpoint (stepExecutionId : String) (output : Option Json) (workflowId : String)
      (contextExpectedRevision : Option Nat) (context : Option Json) (event : EventDraft)
  | advanceWorkflow (workflowId : String) (edgeSelectedEvent : EventDraft) (roundAdvancedEvent : Option EventDraft)
      (nextStep : CreateStepInput) (currentStepId : String) (stepStartedEvent : EventDraft)
  | terminalizeWorkflow (workflowId status : String) (edgeSelectedEvent : Option EventDraft)
      (terminalEvent : EventDraft)
  | failStepAndWorkflow (stepExecutionId workflowId : String) (stepFailedEvent terminalEvent : EventDraft)
      (stepError : Option Json)
  | recordCancellationIntent (workflowId : String)
  | cancelStepAndWorkflow (stepExecutionId : Option String) (workflowId : String) (terminalEvent : EventDraft)
  | createHumanRequestAndPause (input : CreateHumanInput) (waitingStatus : String) (pausedEvent : EventDraft)
  | answerHumanRequestInput (requestId value : String)
  | approveHumanRequest (requestId : String)
  | rejectHumanRequestAndFailWorkflow (requestId : String) (workflowFailedEvent : EventDraft)
  | resumeWorkflowRunning (workflowId : String) (resumedEvent : EventDraft)

def body : Call → Store Unit
  | .createWorkflowWithLifecycleEvents input context createdEvent validatedEvent =>
    VibeTables.createWorkflowWithLifecycleEvents input context createdEvent validatedEvent
  | .startWorkflowDurably id ev => VibeTables.startWorkflowDurably id ev
  | .ensureStepStarted step current ev => VibeTables.ensureStepStarted step current ev
  | .bindStepTaskOnce step task id ev => VibeTables.bindStepTaskOnce step task id ev
  | .completeStepAndCheckpoint step output id revision context ev =>
    VibeTables.completeStepAndCheckpoint step output id revision context ev
  | .advanceWorkflow id edge round next current ev => VibeTables.advanceWorkflow id edge round next current ev
  | .terminalizeWorkflow id status edge ev => VibeTables.terminalizeWorkflow id status edge ev
  | .failStepAndWorkflow step id stepEv ev error => VibeTables.failStepAndWorkflow step id stepEv ev error
  | .recordCancellationIntent id => VibeTables.recordCancellationIntent id
  | .cancelStepAndWorkflow step id ev => VibeTables.cancelStepAndWorkflow step id ev
  | .createHumanRequestAndPause input waiting ev => VibeTables.createHumanRequestAndPause input waiting ev
  | .answerHumanRequestInput id value => VibeTables.answerHumanRequestInput id value
  | .approveHumanRequest id => VibeTables.approveHumanRequest id
  | .rejectHumanRequestAndFailWorkflow id ev => VibeTables.rejectHumanRequestAndFailWorkflow id ev
  | .resumeWorkflowRunning id ev => VibeTables.resumeWorkflowRunning id ev

/-- Every composite runs in one transaction. -/
def call (c : Call) : Store Unit := transaction (body c)

/-- The tables after a sequence of calls, whether they throw or not. -/
def runCalls (db : Tables) (cs : List Call) : Tables := cs.foldl (fun db c => (call c db).2) db

theorem moves_ensureStep (step : CreateStepInput) (current : String) (ev : EventDraft) :
    Keeps Moves (ensureStepStarted step current ev) := by
  refine moves_bind (moves_read _) fun db => ?_
  cases db.workflowRow step.workflowId with
  | none => exact moves_fault _ _
  | some wf =>
    cases db.stepExecByKey step.workflowId step.stepId step.round step.attempt with
    | some _ => exact moves_pure ()
    | none =>
      exact moves_bind (moves_createStep _) fun _ => moves_bind (moves_setCurrentStep _ _ _) fun _ => moves_append _ _

theorem moves_bindStep (step task id : String) (ev : EventDraft) : Keeps Moves (bindStepTaskOnce step task id ev) := by
  refine moves_bind (moves_read _) fun row => ?_
  cases row with
  | none => exact moves_fault _ _
  | some row =>
    refine moves_ite (moves_pure ()) (moves_ite (moves_fault _ _) (moves_bind (moves_updateStep _ _ _) fun _ =>
      moves_bind (moves_read _) fun wf => ?_))
    cases wf with
    | none => exact moves_fault _ _
    | some wf => exact moves_bind (moves_updateWorkflow _ _ _) fun _ => moves_append _ _

theorem moves_advance (id : String) (edge : EventDraft) (round : Option EventDraft) (next : CreateStepInput)
    (current : String) (ev : EventDraft) : Keeps Moves (advanceWorkflow id edge round next current ev) := by
  refine moves_bind (moves_read _) fun db => ?_
  cases db.stepExecByKey next.workflowId next.stepId next.round next.attempt with
  | some _ => exact moves_bind (moves_requireRow _) fun _ => moves_pure ()
  | none =>
    refine moves_bind (moves_append _ _) fun _ => moves_bind ?_ fun _ => moves_bind (moves_createStep _) fun _ =>
      moves_bind (moves_requireRow _) fun _ => moves_bind (moves_setCurrentStep _ _ _) fun _ => moves_append _ _
    cases round with
    | none => exact moves_pure ()
    | some roundEv =>
      exact moves_bind (moves_requireRow _) fun _ => moves_bind (moves_updateWorkflow _ _ _) fun _ => moves_append _ _

theorem moves_terminalize (id status : String) (edge : Option EventDraft) (ev : EventDraft) :
    Keeps Moves (terminalizeWorkflow id status edge ev) := by
  refine moves_bind (moves_read _) fun row => ?_
  cases row with
  | none => exact moves_fault _ _
  | some cur =>
    refine moves_ite (moves_pure ()) (moves_bind ?_ fun _ => moves_bind (moves_updateWorkflow _ _ _) fun _ =>
      moves_append _ _)
    cases edge with
    | none => exact moves_pure ()
    | some edge => exact moves_append _ _

theorem moves_failStep (step id : String) (stepEv ev : EventDraft) (error : Option Json) :
    Keeps Moves (failStepAndWorkflow step id stepEv ev error) := by
  refine moves_bind (moves_read _) fun row => ?_
  cases row with
  | none => exact moves_fault _ _
  | some row =>
    exact moves_bind (moves_ite (moves_pure ()) (moves_bind (moves_updateStep _ _ _) fun _ =>
      moves_bind (moves_requireRow _) fun _ => moves_bind (moves_updateWorkflow _ _ _) fun _ => moves_append _ _))
      fun _ => moves_failOpenWorkflow _ _

theorem moves_cancelStep (step : Option String) (id : String) (ev : EventDraft) :
    Keeps Moves (cancelStepAndWorkflow step id ev) := by
  refine moves_bind (moves_read _) fun row => ?_
  cases row with
  | none => exact moves_fault _ _
  | some cur =>
    refine moves_ite (moves_pure ()) (moves_bind (moves_bind (moves_read _) fun db => ?_) fun _ =>
      moves_bind (moves_updateWorkflow _ _ _) fun _ => moves_append _ _)
    cases (step.filter (· ≠ "")).bind db.stepRow with
    | none => exact moves_pure ()
    | some s => exact moves_ite (moves_pure ()) (moves_updateStep _ _ _)

theorem moves_ensureHuman (input : CreateHumanInput) : Keeps Moves (ensureHumanRow input) := by
  refine moves_bind (moves_read _) fun db => ?_
  cases db.humanRow input.requestId with
  | some _ => exact moves_pure ()
  | none =>
    refine moves_ite (moves_fault _ _) (moves_bind (moves_lift _) fun prompt => moves_bind (moves_lift _) fun choices =>
      moves_ite (moves_fault _ _) ?_)
    intro db a db' h
    obtain rfl := modify_ok.mp h
    exact ⟨.addHuman db _, .frame rfl fun _ => rfl⟩

theorem moves_pause (input : CreateHumanInput) (waiting : String) (ev : EventDraft) :
    Keeps Moves (createHumanRequestAndPause input waiting ev) := by
  refine moves_ite (moves_fault _ _) (moves_ite (moves_fault _ _) (moves_ite (moves_fault _ _)
    (moves_bind (moves_read _) fun row => ?_)))
  cases row with
  | none => exact moves_fault _ _
  | some wf =>
    exact moves_bind (moves_ensureHuman _) fun _ => moves_ite
      (moves_bind (moves_updateWorkflow _ _ _) fun _ => moves_append _ _) (moves_pure ())

/-- All an answer does: a pending request is answered, or nothing happens. -/
theorem answer_ok {id value : String} {db db' : Tables} (h : answerHumanRequestInput id value db = (.ok (), db')) :
    ∃ r, db.humanRow id = some r ∧ r.kind = "input" ∧
      ((r.status = "answered" ∧ db' = db) ∨
       (r.status = "pending" ∧ db' = db.setHuman id fun h =>
          { h with status := "answered", responseValue := some value, revision := h.revision + 1 })) := by
  simp only [answerHumanRequestInput, readTx_bind] at h
  cases hrow : db.humanRow id with
  | none => simp only [hrow, fault_ok] at h
  | some r =>
    simp only [hrow, guard_ok, bind_ok, lift_ok, not_not] at h
    obtain ⟨hkind, v, _, ⟨hv, rfl⟩, h⟩ := h
    obtain rfl : value = v := by
      unfold boundString at hv
      split at hv
      · cases hv
      · exact Except.ok.inj hv
    refine ⟨r, rfl, hkind, ?_⟩
    by_cases hs : r.status = "answered"
    · rw [if_pos hs, guard_ok, pure_ok] at h
      exact .inl ⟨hs, h.2.2⟩
    · rw [if_neg hs, guard_ok, modify_ok] at h
      exact .inr ⟨not_not.mp h.1, h.2⟩

theorem approve_ok {id : String} {db db' : Tables} (h : approveHumanRequest id db = (.ok (), db')) :
    ∃ r, db.humanRow id = some r ∧ r.kind = "approval" ∧
      ((r.status = "approved" ∧ db' = db) ∨
       (r.status = "pending" ∧ db' = db.setHuman id fun h =>
          { h with status := "approved", revision := h.revision + 1 })) := by
  simp only [approveHumanRequest, readTx_bind] at h
  cases hrow : db.humanRow id with
  | none => simp only [hrow, fault_ok] at h
  | some r =>
    simp only [hrow, guard_ok, not_not] at h
    refine ⟨r, rfl, h.1, ?_⟩
    by_cases hs : r.status = "approved"
    · rw [if_pos hs, pure_ok] at h
      exact .inl ⟨hs, h.2.2⟩
    · rw [if_neg hs, guard_ok, guard_ok, modify_ok] at h
      exact .inr ⟨not_not.mp h.2.2.1, h.2.2.2⟩

theorem moves_answer (id value : String) : Keeps Moves (answerHumanRequestInput id value) := by
  intro db a db' h
  obtain ⟨r, hrow, -, ⟨-, rfl⟩ | ⟨hs, rfl⟩⟩ := answer_ok h
  · exact .refl _
  · exact moves_setHuman (fun _ => ⟨rfl, rfl, rfl⟩) fun r' hr' => by
      rw [← Option.some.inj (hrow.symm.trans hr')]
      exact hs

theorem moves_approve (id : String) : Keeps Moves (approveHumanRequest id) := by
  intro db a db' h
  obtain ⟨r, hrow, -, ⟨-, rfl⟩ | ⟨hs, rfl⟩⟩ := approve_ok h
  · exact .refl _
  · exact moves_setHuman (fun _ => ⟨rfl, rfl, rfl⟩) fun r' hr' => by
      rw [← Option.some.inj (hrow.symm.trans hr')]
      exact hs

/-- All a rejection does: the request ends up rejected, then its workflow is failed if open. -/
theorem reject_ok {id : String} {ev : EventDraft} {db db' : Tables}
    (h : rejectHumanRequestAndFailWorkflow id ev db = (.ok (), db')) :
    ∃ r db₁, db.humanRow id = some r ∧ r.kind = "approval" ∧
      ((r.status = "rejected" ∧ db₁ = db) ∨
       (r.status = "pending" ∧ db₁ = db.setHuman id fun h =>
          { h with status := "rejected", revision := h.revision + 1 })) ∧
      failOpenWorkflow r.workflowId ev db₁ = (.ok (), db') := by
  simp only [rejectHumanRequestAndFailWorkflow, readTx_bind] at h
  cases hrow : db.humanRow id with
  | none => simp only [hrow, fault_ok] at h
  | some r =>
    simp only [hrow, guard_ok, bind_ok, not_not] at h
    obtain ⟨hkind, -, hstatus, _, db₁, hrej, hfail⟩ := h
    refine ⟨r, db₁, rfl, hkind, ?_, hfail⟩
    unfold rejectPending at hrej
    by_cases hs : r.status = "pending"
    · rw [if_pos hs, modify_ok, (lookup_some _ hrow).2] at hrej
      exact .inr ⟨hs, hrej⟩
    · rw [if_neg hs, pure_ok] at hrej
      refine .inl ⟨?_, hrej.2⟩
      by_contra hr
      exact hstatus ⟨hr, hs⟩

theorem moves_reject (id : String) (ev : EventDraft) : Keeps Moves (rejectHumanRequestAndFailWorkflow id ev) := by
  intro db a db' h
  obtain ⟨r, db₁, hrow, -, hrej, hfail⟩ := reject_ok h
  have hmoves : Moves db db₁ := by
    rcases hrej with ⟨-, rfl⟩ | ⟨hs, rfl⟩
    · exact .refl _
    · exact moves_setHuman (fun _ => ⟨rfl, rfl, rfl⟩) fun r' hr' => by
        rw [← Option.some.inj (hrow.symm.trans hr')]
        exact hs
  exact hmoves.trans _ _ _ (moves_failOpenWorkflow _ _ _ _ _ hfail)

/-- Every composite keeps what no composite undoes, and the event sequences contiguous. -/
theorem body_keeps (c : Call) : Keeps Moves (body c) := by
  cases c with
  | createWorkflowWithLifecycleEvents input context createdEvent validatedEvent =>
    exact moves_bind (moves_createWorkflow _ _ _) fun _ => moves_bind (moves_saveContextOptional _ _ _) fun _ =>
      moves_bind (moves_append _ _) fun _ => moves_append _ _
  | startWorkflowDurably id ev =>
    refine moves_bind (moves_read _) fun row => ?_
    cases row with
    | none => exact moves_fault _ _
    | some cur =>
      exact moves_ite (moves_pure ()) (moves_ite (moves_fault _ _)
        (moves_bind (moves_updateWorkflow _ _ _) fun _ => moves_append _ _))
  | ensureStepStarted step current ev => exact moves_ensureStep step current ev
  | bindStepTaskOnce step task id ev => exact moves_bindStep step task id ev
  | completeStepAndCheckpoint step output id revision context ev =>
    refine moves_bind (moves_read _) fun row => ?_
    cases row with
    | none => exact moves_fault _ _
    | some row =>
      exact moves_ite (moves_pure ()) (moves_bind (moves_updateStep _ _ _) fun _ =>
        moves_bind (moves_saveContextOptional _ _ _) fun _ => moves_append _ _)
  | advanceWorkflow id edge round next current ev => exact moves_advance id edge round next current ev
  | terminalizeWorkflow id status edge ev => exact moves_terminalize id status edge ev
  | failStepAndWorkflow step id stepEv ev error => exact moves_failStep step id stepEv ev error
  | recordCancellationIntent id =>
    refine moves_bind (moves_read _) fun row => ?_
    cases row with
    | none => exact moves_fault _ _
    | some cur => exact moves_ite (moves_pure ()) (moves_updateWorkflow _ _ _)
  | cancelStepAndWorkflow step id ev => exact moves_cancelStep step id ev
  | createHumanRequestAndPause input waiting ev => exact moves_pause input waiting ev
  | answerHumanRequestInput id value => exact moves_answer id value
  | approveHumanRequest id => exact moves_approve id
  | rejectHumanRequestAndFailWorkflow id ev => exact moves_reject id ev
  | resumeWorkflowRunning id ev =>
    refine moves_bind (moves_read _) fun row => ?_
    cases row with
    | none => exact moves_fault _ _
    | some cur =>
      exact moves_ite (moves_pure ()) (moves_ite (moves_fault _ _)
        (moves_bind (moves_updateWorkflow _ _ _) fun _ => moves_append _ _))

theorem runCalls_moves (db : Tables) (cs : List Call) : Moves db (runCalls db cs) := by
  induction cs generalizing db with
  | nil => exact .refl db
  | cons c cs ih =>
    exact (Keeps.transaction Moves.refl (body_keeps c) db).trans _ _ _ (ih (call c db).2)

/-! ## Repeated calls -/

/-- The step and target arguments of a call: what it is for, without the events, the output and
    the other values it would write. -/
inductive Target where
  | created (workflowId : String)
  | started (workflowId : String)
  | entered (workflowId stepId : String) (round attempt : Int)
  | bound (stepExecutionId : String)
  | completed (stepExecutionId : String)
  | advanced (workflowId stepId : String) (round attempt : Int)
  | terminalized (workflowId status : String)
  | failed (stepExecutionId workflowId : String)
  | cancelRequested (workflowId : String)
  | cancelled (workflowId : String)
  | paused (requestId workflowId : String)
  | answered (requestId : String)
  | approved (requestId : String)
  | rejected (requestId : String)
  | resumed (workflowId : String)
deriving DecidableEq

def target : Call → Target
  | .createWorkflowWithLifecycleEvents input _ _ _ => .created input.workflowId
  | .startWorkflowDurably id _ => .started id
  | .ensureStepStarted step _ _ => .entered step.workflowId step.stepId step.round step.attempt
  | .bindStepTaskOnce step _ _ _ => .bound step
  | .completeStepAndCheckpoint step _ _ _ _ _ => .completed step
  | .advanceWorkflow _ _ _ next _ _ => .advanced next.workflowId next.stepId next.round next.attempt
  | .terminalizeWorkflow id status _ _ => .terminalized id status
  | .failStepAndWorkflow step id _ _ _ => .failed step id
  | .recordCancellationIntent id => .cancelRequested id
  | .cancelStepAndWorkflow _ id _ => .cancelled id
  | .createHumanRequestAndPause input _ _ => .paused input.requestId input.workflowId
  | .answerHumanRequestInput id _ => .answered id
  | .approveHumanRequest id => .approved id
  | .rejectHumanRequestAndFailWorkflow id _ => .rejected id
  | .resumeWorkflowRunning id _ => .resumed id

/-- The workflow's row has the property. -/
def WorkflowIs (db : Tables) (id : String) (P : WorkflowRec → Prop) : Prop := ∃ w, db.workflowRow id = some w ∧ P w

def StepIs (db : Tables) (id : String) (P : StepRec → Prop) : Prop := ∃ s, db.stepRow id = some s ∧ P s

def HumanIs (db : Tables) (id : String) (P : HumanRec → Prop) : Prop := ∃ r, db.humanRow id = some r ∧ P r

/-- What the guard of a composite finds once the call has gone through. -/
def Settled (db : Tables) : Target → Prop
  | .created id => (db.workflowRow id).isSome = true
  | .started id | .resumed id => WorkflowIs db id fun w => w.status = "running"
  | .entered wf step round attempt | .advanced wf step round attempt =>
    (db.stepExecByKey wf step round attempt).isSome = true
  | .bound step => StepIs db step fun s => s.taskId.isSome = true
  | .completed step => StepIs db step fun s => s.status = "completed"
  | .terminalized id status => WorkflowIs db id fun w => w.status = status ∨ workflowTerminal w.status = true
  | .failed step id => (StepIs db step fun s => stepTerminal s.status = true) ∧
    WorkflowIs db id fun w => workflowTerminal w.status = true
  | .cancelRequested id => WorkflowIs db id fun w => w.cancelRequested = true ∨ workflowTerminal w.status = true
  | .cancelled id => WorkflowIs db id fun w => workflowTerminal w.status = true
  | .paused request id => (db.humanRow request).isSome = true ∧ WorkflowIs db id fun w => w.status ≠ "running"
  | .answered request => HumanIs db request fun r => r.kind = "input" ∧ r.status = "answered"
  | .approved request => HumanIs db request fun r => r.kind = "approval" ∧ r.status = "approved"
  | .rejected request => HumanIs db request fun r => r.kind = "approval" ∧ r.status = "rejected" ∧
    WorkflowIs db r.workflowId fun w => workflowTerminal w.status = true

/-- The targets whose guard no later call can undo. A workflow may leave `running` and a waiting
    status again, and any status that is not terminal. -/
def Target.lasting : Target → Bool
  | .started _ | .resumed _ | .paused _ _ => false
  | .terminalized _ status => workflowTerminal status
  | _ => true

theorem WorkflowIs.grows {db db' : Tables} {id : String} {P Q : WorkflowRec → Prop} (hg : Grows db db')
    (hPQ : ∀ w w', WorkflowLe w w' → P w → Q w') (h : WorkflowIs db id P) : WorkflowIs db' id Q := by
  obtain ⟨w, hw, hP⟩ := h
  obtain ⟨w', hw', hle⟩ := hg.workflow id w hw
  exact ⟨w', hw', hPQ w w' hle hP⟩

theorem StepIs.grows {db db' : Tables} {id : String} {P Q : StepRec → Prop} (hg : Grows db db')
    (hPQ : ∀ s s', StepLe s s' → P s → Q s') (h : StepIs db id P) : StepIs db' id Q := by
  obtain ⟨s, hs, hP⟩ := h
  obtain ⟨s', hs', hle⟩ := hg.step id s hs
  exact ⟨s', hs', hPQ s s' hle hP⟩

theorem ended_stays {w w' : WorkflowRec} (hle : WorkflowLe w w') (h : workflowTerminal w.status = true) :
    workflowTerminal w'.status = true := by
  rw [hle.final h]
  exact h

theorem ended_step_stays {s s' : StepRec} (hle : StepLe s s') (h : stepTerminal s.status = true) :
    stepTerminal s'.status = true := by
  rw [(hle.final h).1]
  exact h

/-- What a lasting guard finds, it finds after any further calls. -/
theorem settled_lasts {t : Target} {db db' : Tables} (hlast : t.lasting = true) (hg : Grows db db')
    (h : Settled db t) : Settled db' t := by
  cases t with
  | created id =>
    obtain ⟨w, hw⟩ := Option.isSome_iff_exists.mp h
    obtain ⟨w', hw', -⟩ := hg.workflow id w hw
    exact Option.isSome_iff_exists.mpr ⟨w', hw'⟩
  | started id => exact nomatch hlast
  | resumed id => exact nomatch hlast
  | paused request id => exact nomatch hlast
  | entered wf step round attempt => exact hg.keys _ _ _ _ h
  | advanced wf step round attempt => exact hg.keys _ _ _ _ h
  | bound step =>
    refine StepIs.grows hg (fun s s' hle hs => ?_) h
    obtain ⟨t, ht⟩ := Option.isSome_iff_exists.mp hs
    exact Option.isSome_iff_exists.mpr ⟨t, hle.task t ht⟩
  | completed step =>
    refine StepIs.grows hg (fun s s' hle hs => ?_) h
    rw [(hle.final (by rw [hs]; rfl)).1, hs]
  | terminalized id status =>
    refine WorkflowIs.grows hg (fun w w' hle hw => ?_) h
    have hterm : workflowTerminal w.status = true := by
      rcases hw with hw | hw
      · rw [hw]
        exact hlast
      · exact hw
    exact .inr (ended_stays hle hterm)
  | failed step id =>
    exact ⟨StepIs.grows hg (fun _ _ => ended_step_stays) h.1, WorkflowIs.grows hg (fun _ _ => ended_stays) h.2⟩
  | cancelRequested id =>
    refine WorkflowIs.grows hg (fun w w' hle hw => ?_) h
    exact hw.imp hle.cancel (ended_stays hle)
  | cancelled id => exact WorkflowIs.grows hg (fun _ _ => ended_stays) h
  | answered request =>
    obtain ⟨r, hr, hk, hs⟩ := h
    obtain ⟨r', hr', hle⟩ := hg.human request r hr
    obtain rfl := hle.settled (by rw [hs]; decide)
    exact ⟨r', hr', hk, hs⟩
  | approved request =>
    obtain ⟨r, hr, hk, hs⟩ := h
    obtain ⟨r', hr', hle⟩ := hg.human request r hr
    obtain rfl := hle.settled (by rw [hs]; decide)
    exact ⟨r', hr', hk, hs⟩
  | rejected request =>
    obtain ⟨r, hr, hk, hs, hw⟩ := h
    obtain ⟨r', hr', hle⟩ := hg.human request r hr
    obtain rfl := hle.settled (by rw [hs]; decide)
    exact ⟨r', hr', hk, hs, WorkflowIs.grows hg (fun _ _ => ended_stays) hw⟩

theorem requireRow_ok {id : String} {db db' : Tables} {w : WorkflowRec} (h : requireRow id db = (.ok w, db')) :
    db.workflowRow id = some w ∧ db' = db := by
  simp only [requireRow, readTx_bind] at h
  cases hrow : db.workflowRow id with
  | none => rw [hrow] at h; exact nomatch h
  | some w' =>
    rw [hrow] at h
    obtain ⟨rfl, rfl⟩ := pure_ok.mp h
    exact ⟨rfl, rfl⟩

/-- A workflow that has ended is not failed again. -/
theorem failOpenWorkflow_ended {id : String} {ev : EventDraft} {db db' : Tables}
    (hended : WorkflowIs db id fun w => workflowTerminal w.status = true)
    (h : failOpenWorkflow id ev db = (.ok (), db')) : db' = db := by
  obtain ⟨w, db₁, hreq, hrest⟩ := bind_ok.mp h
  obtain ⟨hw, rfl⟩ := requireRow_ok hreq
  obtain ⟨w', hw', ht⟩ := hended
  obtain rfl : w = w' := Option.some.inj (hw.symm.trans hw')
  rw [if_pos ht, pure_ok] at hrest
  exact hrest.2

/-- A call whose guard is settled writes nothing. -/
theorem settled_noop {c : Call} {db : Tables} (hs : Settled db (target c)) : (call c db).2 = db := by
  refine transaction_noop fun a db' h => ?_
  cases c with
  | createWorkflowWithLifecycleEvents input context createdEvent validatedEvent =>
    obtain ⟨_, db₁, hcreate, -⟩ := bind_ok.mp h
    rw [target, Settled, (createWorkflow_ok hcreate).1] at hs
    cases hs
  | startWorkflowDurably id ev =>
    obtain ⟨w, hw, hrun⟩ := hs
    simp only [body, startWorkflowDurably, readTx_bind, hw, if_pos hrun, pure_ok] at h
    exact h.2
  | ensureStepStarted step current ev =>
    obtain ⟨row, hrow⟩ := Option.isSome_iff_exists.mp hs
    simp only [body, ensureStepStarted, readTx_bind, hrow] at h
    cases hw : db.workflowRow step.workflowId with
    | none => simp only [hw, fault_ok] at h
    | some w => simp only [hw, pure_ok] at h; exact h.2
  | bindStepTaskOnce step task id ev =>
    obtain ⟨row, hrow, hbound⟩ := hs
    obtain ⟨t, ht⟩ := Option.isSome_iff_exists.mp hbound
    simp only [body, bindStepTaskOnce, readTx_bind, hrow] at h
    by_cases heq : row.taskId = some task
    · rw [if_pos heq, pure_ok] at h
      exact h.2
    · -- another task is refused
      rw [if_neg heq, guard_ok] at h
      exact absurd (by rw [ht]; exact Option.some_ne_none t) h.1
  | completeStepAndCheckpoint step output id revision context ev =>
    obtain ⟨row, hrow, hdone⟩ := hs
    simp only [body, completeStepAndCheckpoint, readTx_bind, hrow, if_pos hdone, pure_ok] at h
    exact h.2
  | advanceWorkflow id edge round next current ev =>
    obtain ⟨row, hrow⟩ := Option.isSome_iff_exists.mp hs
    simp only [body, advanceWorkflow, readTx_bind, hrow] at h
    obtain ⟨w, db₁, hreq, hrest⟩ := bind_ok.mp h
    obtain ⟨-, rfl⟩ := requireRow_ok hreq
    exact (pure_ok.mp hrest).2
  | terminalizeWorkflow id status edge ev =>
    obtain ⟨w, hw, hdone⟩ := hs
    simp only [body, terminalizeWorkflow, readTx_bind, hw, if_pos hdone, pure_ok] at h
    exact h.2
  | failStepAndWorkflow step id stepEv ev error =>
    obtain ⟨⟨row, hrow, hended⟩, hwf⟩ := hs
    simp only [body, failStepAndWorkflow, readTx_bind, hrow, bind_ok] at h
    obtain ⟨_, db₁, hstep, hfail⟩ := h
    rw [failOpenStep, if_pos hended, pure_ok] at hstep
    rw [hstep.2] at hfail
    exact failOpenWorkflow_ended hwf hfail
  | recordCancellationIntent id =>
    obtain ⟨w, hw, hdone⟩ := hs
    simp only [body, recordCancellationIntent, readTx_bind, hw, if_pos hdone, pure_ok] at h
    exact h.2
  | cancelStepAndWorkflow step id ev =>
    obtain ⟨w, hw, hdone⟩ := hs
    simp only [body, cancelStepAndWorkflow, readTx_bind, hw, if_pos hdone, pure_ok] at h
    exact h.2
  | createHumanRequestAndPause input waiting ev =>
    obtain ⟨hrow, w, hw, hnot⟩ := hs
    obtain ⟨row, hrow⟩ := Option.isSome_iff_exists.mp hrow
    simp only [body, createHumanRequestAndPause, guard_ok, readTx_bind, hw, if_neg hnot, bind_ok, pure_ok] at h
    obtain ⟨-, -, -, _, db₁, hensure, -, rfl⟩ := h
    simp only [ensureHumanRow, readTx_bind, hrow, pure_ok] at hensure
    exact hensure.2
  | answerHumanRequestInput id value =>
    obtain ⟨r, hr, -, hdone⟩ := hs
    obtain ⟨r', hr', -, ⟨-, rfl⟩ | ⟨hp, -⟩⟩ := answer_ok h
    · rfl
    · rw [Option.some.inj (hr'.symm.trans hr), hdone] at hp
      exact absurd hp (by decide)
  | approveHumanRequest id =>
    obtain ⟨r, hr, -, hdone⟩ := hs
    obtain ⟨r', hr', -, ⟨-, rfl⟩ | ⟨hp, -⟩⟩ := approve_ok h
    · rfl
    · rw [Option.some.inj (hr'.symm.trans hr), hdone] at hp
      exact absurd hp (by decide)
  | rejectHumanRequestAndFailWorkflow id ev =>
    obtain ⟨r, hr, -, hdone, hwf⟩ := hs
    obtain ⟨r', db₁, hr', -, ⟨-, rfl⟩ | ⟨hp, -⟩, hfail⟩ := reject_ok h
    · obtain rfl : r' = r := Option.some.inj (hr'.symm.trans hr)
      exact failOpenWorkflow_ended hwf hfail
    · rw [Option.some.inj (hr'.symm.trans hr), hdone] at hp
      exact absurd hp (by decide)
  | resumeWorkflowRunning id ev =>
    obtain ⟨w, hw, hrun⟩ := hs
    simp only [body, resumeWorkflowRunning, readTx_bind, hw, if_pos hrun, pure_ok] at h
    exact h.2

/-! ### What a call that went through has settled -/

/-- An appended event leaves every status as it is. -/
theorem WorkflowIs.append {id id' : String} {ev : EventDraft} {db db' : Tables} {P : String → Prop}
    (h : appendWorkflowEventAuto id' ev db = (.ok (), db')) (hw : WorkflowIs db id fun w => P w.status) :
    WorkflowIs db' id fun w => P w.status := by
  obtain ⟨cur, payloadJson, -, rfl⟩ := appendEvent_ok h
  obtain ⟨w, hw, hP⟩ := hw
  unfold WorkflowIs
  rw [workflowRow_pushEvent, hw]
  split
  · exact ⟨_, rfl, hP⟩
  · exact ⟨w, rfl, hP⟩

theorem updateWorkflow_is {id : String} {revision : Nat} {patch : WorkflowPatch} {db db' : Tables}
    (h : updateWorkflowSync id revision patch db = (.ok (), db')) : WorkflowIs db' id fun w =>
      ∃ cur, db.workflowRow id = some cur ∧ w = patch.apply cur := by
  obtain ⟨cur, hrow, -, -, -, -, rfl⟩ := updateWorkflow_ok h
  refine ⟨patch.apply cur, ?_, cur, hrow, rfl⟩
  show lookup _ (update _ _ _ _) _ = _
  rw [lookup_update WorkflowRec.workflowId (f := patch.apply) (fun _ => rfl), if_pos rfl]
  show (db.workflowRow id).map _ = _
  rw [hrow]
  rfl

/-- The status that an update wrote. -/
theorem updateStatus_is {id status : String} {revision : Nat} {db db' : Tables}
    (h : updateWorkflowSync id revision { status := some status } db = (.ok (), db')) :
    WorkflowIs db' id fun w => w.status = status := by
  obtain ⟨w, hw, cur, -, rfl⟩ := updateWorkflow_is h
  exact ⟨_, hw, rfl⟩

theorem updateStep_is {id : String} {revision : Nat} {patch : StepPatch} {db db' : Tables}
    (h : updateStepSync id revision patch db = (.ok (), db')) : StepIs db' id fun s =>
      ∃ cur, db.stepRow id = some cur ∧ s.status = patch.status.getD cur.status ∧
        s.taskId = patch.taskId.or cur.taskId := by
  obtain ⟨cur, outputJson, errorJson, hrow, -, -, rfl⟩ := updateStep_ok h
  refine ⟨{ cur with
    revision := cur.revision + 1, status := patch.status.getD cur.status, taskId := patch.taskId.or cur.taskId
    outputJson := outputJson, errorJson := errorJson }, ?_, cur, hrow, rfl, rfl⟩
  show lookup _ (update _ _ _ _) _ = _
  rw [lookup_update StepRec.stepExecutionId (f := fun s => { s with
    revision := s.revision + 1, status := patch.status.getD s.status, taskId := patch.taskId.or s.taskId
    outputJson := outputJson, errorJson := errorJson }) (fun _ => rfl), if_pos rfl]
  show (db.stepRow id).map _ = _
  rw [hrow]
  rfl

theorem createStep_key {input : CreateStepInput} {db db' : Tables} (h : createStepSync input db = (.ok (), db')) :
    (db'.stepExecByKey input.workflowId input.stepId input.round input.attempt).isSome = true := by
  obtain ⟨-, rfl⟩ := createStep_ok h
  simp only [Tables.stepExecByKey, List.find?_isSome, decide_eq_true_eq]
  exact ⟨newStep input, List.mem_append_right _ (List.mem_singleton_self _), rfl, rfl, rfl, rfl⟩

theorem failOpenWorkflow_ends {id : String} {ev : EventDraft} {db db' : Tables}
    (h : failOpenWorkflow id ev db = (.ok (), db')) : WorkflowIs db' id fun w => workflowTerminal w.status = true := by
  obtain ⟨w, db₁, hreq, hrest⟩ := bind_ok.mp h
  obtain ⟨hw, rfl⟩ := requireRow_ok hreq
  by_cases ht : workflowTerminal w.status = true
  · rw [if_pos ht, pure_ok] at hrest
    rw [hrest.2]
    exact ⟨w, hw, ht⟩
  · rw [if_neg ht] at hrest
    obtain ⟨_, db₂, hup, happ⟩ := bind_ok.mp hrest
    obtain ⟨w', hw', hst⟩ := WorkflowIs.append (P := fun s => s = "failed") happ (updateStatus_is hup)
    refine ⟨w', hw', ?_⟩
    show workflowTerminal w'.status = true
    rw [hst]
    rfl

/-- A row found before an operation is found after it, whatever its growth. -/
theorem humanRow_stays {db db' : Tables} {id : String} (hg : Grows db db') (h : (db.humanRow id).isSome = true) :
    (db'.humanRow id).isSome = true := by
  obtain ⟨r, hr⟩ := Option.isSome_iff_exists.mp h
  obtain ⟨r', hr', -⟩ := hg.human id r hr
  exact Option.isSome_iff_exists.mpr ⟨r', hr'⟩

theorem ensureHuman_row {input : CreateHumanInput} {db db' : Tables} (h : ensureHumanRow input db = (.ok (), db')) :
    (db'.humanRow input.requestId).isSome = true ∧ ∀ id, db'.workflowRow id = db.workflowRow id := by
  simp only [ensureHumanRow, readTx_bind] at h
  cases hrow : db.humanRow input.requestId with
  | some r =>
    simp only [hrow, pure_ok] at h
    rw [h.2, hrow]
    exact ⟨rfl, fun _ => rfl⟩
  | none =>
    simp only [hrow, guard_ok, bind_ok, lift_ok, modify_ok] at h
    obtain ⟨-, prompt, _, ⟨-, rfl⟩, choices, _, ⟨-, rfl⟩, -, rfl⟩ := h
    refine ⟨?_, fun _ => rfl⟩
    show (lookup _ (_ ++ [_]) _).isSome = true
    rw [lookup_concat, if_pos rfl]
    simp

theorem setHuman_row {db : Tables} {id : String} {r : HumanRec} {f : HumanRec → HumanRec}
    (hkey : ∀ r, (f r).requestId = r.requestId) (h : db.humanRow id = some r) :
    (db.setHuman id f).humanRow id = some (f r) := by
  show lookup _ (update _ _ _ _) _ = _
  rw [lookup_update HumanRec.requestId hkey, if_pos rfl]
  show (db.humanRow id).map _ = _
  rw [h]
  rfl

/-- Every composite that goes through leaves its guard settled. -/
theorem settled_after {c : Call} {db db' : Tables} (h : body c db = (.ok (), db')) : Settled db' (target c) := by
  cases c with
  | createWorkflowWithLifecycleEvents input context createdEvent validatedEvent =>
    obtain ⟨_, db₁, hcreate, hrest⟩ := bind_ok.mp h
    obtain ⟨-, row, hid, -, rfl⟩ := createWorkflow_ok hcreate
    have hrow : (Tables.workflowRow { db with workflows := db.workflows ++ [row] } input.workflowId).isSome = true := by
      show (lookup _ (_ ++ [row]) _).isSome = true
      rw [lookup_concat, if_pos hid]
      simp
    have hgrow : Moves _ db' := (moves_bind (moves_saveContextOptional _ _ _) fun _ =>
      moves_bind (moves_append _ _) fun _ => moves_append _ _) _ _ _ hrest
    exact settled_lasts (t := .created input.workflowId) rfl hgrow.grows hrow
  | startWorkflowDurably id ev =>
    simp only [body, startWorkflowDurably, readTx_bind] at h
    cases hrow : db.workflowRow id with
    | none => simp only [hrow, fault_ok] at h
    | some cur =>
      simp only [hrow] at h
      by_cases hrun : cur.status = "running"
      · rw [if_pos hrun, pure_ok] at h
        rw [h.2]
        exact ⟨cur, hrow, hrun⟩
      · rw [if_neg hrun, guard_ok, bind_ok] at h
        obtain ⟨-, _, db₁, hup, happ⟩ := h
        exact WorkflowIs.append (P := fun s => s = "running") happ (updateStatus_is hup)
  | ensureStepStarted step current ev =>
    simp only [body, ensureStepStarted, readTx_bind] at h
    cases hrow : db.workflowRow step.workflowId with
    | none => simp only [hrow, fault_ok] at h
    | some wf =>
      simp only [hrow] at h
      cases hkey : db.stepExecByKey step.workflowId step.stepId step.round step.attempt with
      | some row =>
        simp only [hkey, pure_ok] at h
        rw [h.2]
        show (db.stepExecByKey _ _ _ _).isSome = true
        rw [hkey]
        rfl
      | none =>
        simp only [hkey] at h
        obtain ⟨_, db₁, hcreate, hrest⟩ := bind_ok.mp h
        have hgrow : Moves db₁ db' := (moves_bind (moves_setCurrentStep _ _ _) fun _ => moves_append _ _) _ _ _ hrest
        exact hgrow.grows.keys _ _ _ _ (createStep_key hcreate)
  | bindStepTaskOnce step task id ev =>
    simp only [body, bindStepTaskOnce, readTx_bind] at h
    cases hrow : db.stepRow step with
    | none => simp only [hrow, fault_ok] at h
    | some row =>
      simp only [hrow] at h
      by_cases heq : row.taskId = some task
      · rw [if_pos heq, pure_ok] at h
        rw [h.2]
        exact ⟨row, hrow, Option.isSome_iff_exists.mpr ⟨task, heq⟩⟩
      · rw [if_neg heq, guard_ok, bind_ok] at h
        obtain ⟨-, _, db₁, hup, hrest⟩ := h
        have hgrow : Moves db₁ db' := by
          refine (moves_bind (moves_read _) fun wf => ?_) _ _ _ hrest
          cases wf with
          | none => exact moves_fault _ _
          | some wf => exact moves_bind (moves_updateWorkflow _ _ _) fun _ => moves_append _ _
        refine settled_lasts (t := .bound step) rfl hgrow.grows ?_
        obtain ⟨s, hs, cur, -, -, htask⟩ := updateStep_is hup
        exact ⟨s, hs, Option.isSome_iff_exists.mpr ⟨task, htask⟩⟩
  | completeStepAndCheckpoint step output id revision context ev =>
    simp only [body, completeStepAndCheckpoint, readTx_bind] at h
    cases hrow : db.stepRow step with
    | none => simp only [hrow, fault_ok] at h
    | some row =>
      simp only [hrow] at h
      by_cases heq : row.status = "completed"
      · rw [if_pos heq, pure_ok] at h
        rw [h.2]
        exact ⟨row, hrow, heq⟩
      · rw [if_neg heq, bind_ok] at h
        obtain ⟨_, db₁, hup, hrest⟩ := h
        have hgrow : Moves db₁ db' :=
          (moves_bind (moves_saveContextOptional _ _ _) fun _ => moves_append _ _) _ _ _ hrest
        refine settled_lasts (t := .completed step) rfl hgrow.grows ?_
        obtain ⟨s, hs, cur, -, hst, -⟩ := updateStep_is hup
        exact ⟨s, hs, hst⟩
  | advanceWorkflow id edge round next current ev =>
    simp only [body, advanceWorkflow, readTx_bind] at h
    cases hkey : db.stepExecByKey next.workflowId next.stepId next.round next.attempt with
    | some row =>
      simp only [hkey] at h
      obtain ⟨w, db₁, hreq, hrest⟩ := bind_ok.mp h
      obtain ⟨-, rfl⟩ := requireRow_ok hreq
      rw [(pure_ok.mp hrest).2]
      show (Tables.stepExecByKey _ _ _ _ _).isSome = true
      rw [hkey]
      rfl
    | none =>
      simp only [hkey] at h
      obtain ⟨_, db₁, -, h⟩ := bind_ok.mp h
      obtain ⟨_, db₂, -, h⟩ := bind_ok.mp h
      obtain ⟨_, db₃, hcreate, hrest⟩ := bind_ok.mp h
      have hgrow : Moves db₃ db' := (moves_bind (moves_requireRow _) fun _ =>
        moves_bind (moves_setCurrentStep _ _ _) fun _ => moves_append _ _) _ _ _ hrest
      exact hgrow.grows.keys _ _ _ _ (createStep_key hcreate)
  | terminalizeWorkflow id status edge ev =>
    simp only [body, terminalizeWorkflow, readTx_bind] at h
    cases hrow : db.workflowRow id with
    | none => simp only [hrow, fault_ok] at h
    | some cur =>
      simp only [hrow] at h
      by_cases hdone : cur.status = status ∨ workflowTerminal cur.status
      · rw [if_pos hdone, pure_ok] at h
        rw [h.2]
        exact ⟨cur, hrow, hdone⟩
      · rw [if_neg hdone] at h
        obtain ⟨_, db₁, -, h⟩ := bind_ok.mp h
        obtain ⟨_, db₂, hup, happ⟩ := bind_ok.mp h
        obtain ⟨w, hw, hst⟩ := WorkflowIs.append (P := fun s => s = status) happ (updateStatus_is hup)
        exact ⟨w, hw, .inl hst⟩
  | failStepAndWorkflow step id stepEv ev error =>
    simp only [body, failStepAndWorkflow, readTx_bind] at h
    cases hrow : db.stepRow step with
    | none => simp only [hrow, fault_ok] at h
    | some row =>
      simp only [hrow] at h
      obtain ⟨_, db₁, hstep, hfail⟩ := bind_ok.mp h
      have hended : StepIs db₁ step fun s => stepTerminal s.status = true := by
        unfold failOpenStep at hstep
        by_cases ht : stepTerminal row.status = true
        · rw [if_pos ht, pure_ok] at hstep
          rw [hstep.2]
          exact ⟨row, hrow, ht⟩
        · rw [if_neg ht, bind_ok, (lookup_some _ hrow).2] at hstep
          obtain ⟨_, db₂, hup, hrest⟩ := hstep
          have hgrow : Moves db₂ db₁ := (moves_bind (moves_requireRow _) fun _ =>
            moves_bind (moves_updateWorkflow _ _ _) fun _ => moves_append _ _) _ _ _ hrest
          refine StepIs.grows hgrow.grows (fun _ _ => ended_step_stays) ?_
          obtain ⟨s, hs, cur, -, hst, -⟩ := updateStep_is hup
          refine ⟨s, hs, ?_⟩
          show stepTerminal s.status = true
          rw [hst]
          rfl
      exact ⟨StepIs.grows (moves_failOpenWorkflow _ _ _ _ _ hfail).grows (fun _ _ => ended_step_stays) hended,
        failOpenWorkflow_ends hfail⟩
  | recordCancellationIntent id =>
    simp only [body, recordCancellationIntent, readTx_bind] at h
    cases hrow : db.workflowRow id with
    | none => simp only [hrow, fault_ok] at h
    | some cur =>
      simp only [hrow] at h
      by_cases hdone : cur.cancelRequested ∨ workflowTerminal cur.status
      · rw [if_pos hdone, pure_ok] at h
        rw [h.2]
        exact ⟨cur, hrow, hdone⟩
      · rw [if_neg hdone] at h
        obtain ⟨w, hw, cur', -, rfl⟩ := updateWorkflow_is h
        exact ⟨_, hw, .inl rfl⟩
  | cancelStepAndWorkflow step id ev =>
    simp only [body, cancelStepAndWorkflow, readTx_bind] at h
    cases hrow : db.workflowRow id with
    | none => simp only [hrow, fault_ok] at h
    | some cur =>
      simp only [hrow] at h
      by_cases hdone : workflowTerminal cur.status = true
      · rw [if_pos hdone, pure_ok] at h
        rw [h.2]
        exact ⟨cur, hrow, hdone⟩
      · rw [if_neg hdone] at h
        obtain ⟨_, db₁, -, h⟩ := bind_ok.mp h
        obtain ⟨_, db₂, hup, happ⟩ := bind_ok.mp h
        obtain ⟨w, hw, hst⟩ := WorkflowIs.append (P := fun s => s = "cancelled") happ (updateStatus_is hup)
        refine ⟨w, hw, ?_⟩
        show workflowTerminal w.status = true
        rw [hst]
        rfl
  | createHumanRequestAndPause input waiting ev =>
    simp only [body, createHumanRequestAndPause, guard_ok, readTx_bind] at h
    obtain ⟨-, -, hwaiting, h⟩ := h
    cases hrow : db.workflowRow input.workflowId with
    | none => simp only [hrow, fault_ok] at h
    | some wf =>
      simp only [hrow] at h
      obtain ⟨_, db₁, hensure, h⟩ := bind_ok.mp h
      obtain ⟨hhuman, hsame⟩ := ensureHuman_row hensure
      by_cases hrun : wf.status = "running"
      · rw [if_pos hrun] at h
        obtain ⟨_, db₂, hup, happ⟩ := bind_ok.mp h
        have hgrow : Moves db₁ db' := (moves_bind (moves_updateWorkflow _ _ _) fun _ => moves_append _ _) _ _ _ h
        refine ⟨humanRow_stays hgrow.grows hhuman, ?_⟩
        obtain ⟨w, hw, hst⟩ := WorkflowIs.append (P := fun s => s = waiting) happ (updateStatus_is hup)
        refine ⟨w, hw, ?_⟩
        show w.status ≠ "running"
        rw [hst]
        rintro rfl
        exact hwaiting ⟨by decide, by decide⟩
      · rw [if_neg hrun, pure_ok] at h
        rw [h.2]
        exact ⟨hhuman, wf, (hsame _).trans hrow, hrun⟩
  | answerHumanRequestInput id value =>
    obtain ⟨r, hrow, hkind, ⟨hs, rfl⟩ | ⟨-, rfl⟩⟩ := answer_ok h
    · exact ⟨r, hrow, hkind, hs⟩
    · exact ⟨_, setHuman_row (fun _ => rfl) hrow, hkind, rfl⟩
  | approveHumanRequest id =>
    obtain ⟨r, hrow, hkind, ⟨hs, rfl⟩ | ⟨-, rfl⟩⟩ := approve_ok h
    · exact ⟨r, hrow, hkind, hs⟩
    · exact ⟨_, setHuman_row (fun _ => rfl) hrow, hkind, rfl⟩
  | rejectHumanRequestAndFailWorkflow id ev =>
    obtain ⟨r, db₁, hrow, hkind, hrej, hfail⟩ := reject_ok h
    have hrejected : HumanIs db₁ id fun r' => r'.kind = "approval" ∧ r'.status = "rejected" ∧
        r'.workflowId = r.workflowId := by
      rcases hrej with ⟨hs, rfl⟩ | ⟨-, rfl⟩
      · exact ⟨r, hrow, hkind, hs, rfl⟩
      · exact ⟨_, setHuman_row (fun _ => rfl) hrow, hkind, rfl, rfl⟩
    obtain ⟨r₁, hr₁, hk₁, hs₁, hwf₁⟩ := hrejected
    obtain ⟨r₂, hr₂, hle⟩ := (moves_failOpenWorkflow _ _ _ _ _ hfail).grows.human id r₁ hr₁
    obtain rfl := hle.settled (by rw [hs₁]; decide)
    exact ⟨r₂, hr₂, hk₁, hs₁, by rw [hwf₁]; exact failOpenWorkflow_ends hfail⟩
  | resumeWorkflowRunning id ev =>
    simp only [body, resumeWorkflowRunning, readTx_bind] at h
    cases hrow : db.workflowRow id with
    | none => simp only [hrow, fault_ok] at h
    | some cur =>
      simp only [hrow] at h
      by_cases hrun : cur.status = "running"
      · rw [if_pos hrun, pure_ok] at h
        rw [h.2]
        exact ⟨cur, hrow, hrun⟩
      · rw [if_neg hrun, guard_ok, bind_ok] at h
        obtain ⟨-, _, db₁, hup, happ⟩ := h
        exact WorkflowIs.append (P := fun s => s = "running") happ (updateStatus_is hup)

/-! ## Every sequence of calls -/

/-- A store with no workflow yet. -/
def Tables.fresh (tasks : List String) : Tables := ⟨tasks, [], [], [], []⟩

theorem fresh_contiguous (tasks : List String) : EventsContiguous (Tables.fresh tasks) :=
  ⟨fun _ _ h => (nomatch h), fun _ _ => rfl⟩

/-- The tables that some sequence of calls leads to. -/
def Reached (db : Tables) : Prop := ∃ tasks cs, db = runCalls (Tables.fresh tasks) cs

/-- A call that returned. -/
def Succeeds (c : Call) (db : Tables) : Prop := (call c db).1 = .ok ()

theorem succeeds_settled {c : Call} {db : Tables} (h : Succeeds c db) : Settled (call c db).2 (target c) :=
  settled_after (transaction_ok.mp (Prod.ext h rfl))

/-- **The store's invariants over every sequence of composites**, whatever their arguments: every
    workflow's events are numbered from 0 to its high-water mark; no later call lowers a counter,
    clears a cancellation, changes a terminal status, a bound task or a terminal step's output;
    a call that throws changes nothing; a call repeated at once changes nothing; and a call
    repeated at any later time changes nothing where no later call can undo its guard. -/
theorem store_invariants (db : Tables) (hdb : Reached db) :
    EventsContiguous db ∧
    (∀ cs, Grows db (runCalls db cs)) ∧
    (∀ c e, (call c db).1 = .error e → (call c db).2 = db) ∧
    (∀ c c', Succeeds c db → target c' = target c → (call c' (call c db).2).2 = (call c db).2) ∧
    (∀ c c' cs, Succeeds c db → target c' = target c → (target c).lasting = true →
      (call c' (runCalls (call c db).2 cs)).2 = runCalls (call c db).2 cs) := by
  obtain ⟨tasks, before, rfl⟩ := hdb
  refine ⟨(runCalls_moves _ before).events (fresh_contiguous tasks), fun cs => (runCalls_moves _ cs).grows,
    fun c e h => transaction_rollback h, ?_, ?_⟩
  · intro c c' hok htarget
    refine settled_noop ?_
    rw [htarget]
    exact succeeds_settled hok
  · intro c c' cs hok htarget hlast
    refine settled_noop ?_
    rw [htarget]
    exact settled_lasts hlast (runCalls_moves _ cs).grows (succeeds_settled hok)

/-! ### A sample history -/

def sampleEvent (type : String) (step : Option String) : EventDraft := ⟨type, "2024-05-06T07:08:09Z", step, none⟩

/-- Workflow `wf` with one step, which asks for an answer. -/
def askedCalls : List Call :=
  [.createWorkflowWithLifecycleEvents ⟨"wf", "1", "sample", .obj [], none, none, none⟩ none
      (sampleEvent "workflow.created" none) (sampleEvent "workflow.validated" none),
   .startWorkflowDurably "wf" (sampleEvent "workflow.started" none),
   .ensureStepStarted ⟨"wf.a.r1.a1", "wf", "a", 1, 1, none, none⟩ "a"
      (sampleEvent "step.started" (some "wf.a.r1.a1"))]

def askCall : Call :=
  .createHumanRequestAndPause ⟨"req", "wf", "wf.a.r1.a1", "input", "Go on?", none⟩ "waiting_input"
    (sampleEvent "workflow.paused" none)

def resumeCalls : List Call :=
  [.answerHumanRequestInput "req" "yes", .resumeWorkflowRunning "wf" (sampleEvent "workflow.resumed" none)]

/-- The tables just before the step asks. -/
def askedTables : Tables := runCalls (Tables.fresh []) askedCalls

/-- The last call of the history, repeated at once and after the pause. -/
theorem entered_once :
    Succeeds askCall askedTables ∧ (call askCall (call askCall askedTables).2).2 = (call askCall askedTables).2 := by
  have hok : Succeeds askCall askedTables := by
    show (call askCall askedTables).1 = .ok ()
    decide +kernel
  exact ⟨hok, (store_invariants askedTables ⟨[], askedCalls, rfl⟩).2.2.2.1 askCall askCall hok rfl⟩

/-- Repeating a pause after its request was answered and the workflow resumed pauses it once
    more: the guard is the workflow's status, which has moved on. -/
theorem paused_again :
    ¬ ∀ db, Reached db → ∀ c c' cs, Succeeds c db → target c' = target c →
      (call c' (runCalls (call c db).2 cs)).2 = runCalls (call c db).2 cs := by
  intro hall
  have hok : Succeeds askCall askedTables := by
    show (call askCall askedTables).1 = .ok ()
    decide +kernel
  have hsame := hall askedTables ⟨[], askedCalls, rfl⟩ askCall askCall resumeCalls hok rfl
  have hstatus := congrArg (fun db => (db.workflowRow "wf").map (·.status)) hsame
  exact absurd hstatus (by decide +kernel)

end VibeTables
