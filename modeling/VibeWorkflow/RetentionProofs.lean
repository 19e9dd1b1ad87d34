import VibeWorkflow.JournalProofs
import VibeWorkflow.RetainedLogProofs
import VibeWorkflow.StoreSequenceProofs

/-!
# Retention in the journal and in the control store

Three tables of events can be cut to their newest rows: the run events of a Node's journal, and the
task and the workflow events of the control store.  Next to each stands a row with the last and the
earliest retained sequence, from which a consumer decides whether its history is complete.  The
three pruning functions do the same in their own tables: where no event remains, the earliest
retained sequence is left at what it was.

* **`retention_truthful`** — over every sequence of appends and prunes, in each of the three, the
  retained events are those the columns say exactly when no prune keeps nothing of a record that
  has events; and a replay that calls its history complete then misses nothing.
-/

namespace VibeJournal

open VibeJson
open VibeTask (isSequence)

/-! ## Run events -/

def EventRow.seq (e : EventRow) : Int := e.sequence

/-- `pruneRunEvents`; the result is how many rows went. -/
def pruneRunEvents (db : RunTables) (keepLast : JsNum) : Outcome Nat :=
  if !isSequence keepLast then throwWith db .invalidRecord "keepLast must be a non-negative integer"
  else match RetainedLog.boundary EventRow.seq keepLast.mantissa.toNat db.events with
  | none => (.ok 0, db)
  | some bound =>
    let rest := RetainedLog.after EventRow.seq bound db.events
    let min := (rest.map EventRow.seq).min?
    (.ok (db.events.length - rest.length),
      { run := db.run.map (fun r => { r with earliestRetainedSequence := min.getD r.earliestRetainedSequence })
        events := rest })

structure ReplayMetadata where
  earliestRetainedSequence : Int
  latestSequence : Int
  historyCompleteForRequest : Bool
  status : String
  terminal : Bool
  replayCapability : String
deriving DecidableEq

def replayMetadata (db : RunTables) (afterSequence : Int) : Option ReplayMetadata :=
  db.run.map fun run =>
    { earliestRetainedSequence := run.earliestRetainedSequence
      latestSequence := run.lastSequence
      historyCompleteForRequest := decide (run.earliestRetainedSequence ≤ afterSequence + 1)
      status := run.status
      terminal := run.terminalEventRecorded
      replayCapability := "run_event_replay_v1" }

inductive RetentionCall where
  | call (c : JournalCall)
  | prune (keepLast : JsNum)

def retentionStep (db : RunTables) : RetentionCall → RunTables
  | .call c => (callJournal db c).2
  | .prune keepLast => (pruneRunEvents db keepLast).2

/-- The run's log, as its row describes it. -/
def RunTables.log (db : RunTables) : RetainedLog.Log EventRow where
  rows := db.events
  last := db.run.elim (-1) RunRow.lastSequence
  earliest := db.run.elim 0 RunRow.earliestRetainedSequence

/-- The columns are right, and a replay said to be complete has every event it asks for. -/
structure HistoryTruthful (db : RunTables) : Prop where
  columns : db.log.Truthful EventRow.seq
  complete : ∀ afterSequence data, replayMetadata db afterSequence = some data →
    data.historyCompleteForRequest = true →
    ∀ n : Int, afterSequence < n → n ≤ data.latestSequence → ∃ e ∈ db.events, e.seq = n

/-- How many events the call keeps, if it is a prune that goes ahead. -/
def RetentionCall.pruned : RetentionCall → Option Nat
  | .prune keepLast => if isSequence keepLast then some keepLast.mantissa.toNat else none
  | .call _ => none

section

variable {db : RunTables}

/-- Right columns are enough. -/
theorem truthful_iff : HistoryTruthful db ↔ db.log.Truthful EventRow.seq := by
  refine ⟨HistoryTruthful.columns, fun h => ⟨h, ?_⟩⟩
  intro afterSequence data hdata hcomplete n hlt hle
  obtain ⟨run, hrun, rfl⟩ := Option.map_eq_some_iff.mp hdata
  have hstart : run.earliestRetainedSequence ≤ afterSequence + 1 := of_decide_eq_true hcomplete
  refine (h n).mpr ?_
  simp only [RunTables.log, hrun, Option.elim_some]
  exact ⟨by omega, hle⟩

/-- No event without a row, and no negative sequence. -/
structure RetentionInv (db : RunTables) : Prop where
  absent : db.run = none → db.events = []
  start : 0 ≤ db.log.earliest

theorem RetentionInv.empty : RetentionInv RunTables.empty := ⟨fun _ => rfl, le_refl _⟩

/-- A write to the run's row that keeps the two columns. -/
theorem log_setRow {run run' : RunRow} (hrow : (ensureRun db "running").run = some run)
    (hlast : run'.lastSequence = run.lastSequence)
    (hearliest : run'.earliestRetainedSequence = run.earliestRetainedSequence) :
    RunTables.log ⟨some run', db.events⟩ = db.log := by
  rw [ensureRun_run] at hrow
  cases hrun : db.run with
  | some r =>
    rw [hrun] at hrow
    cases hrow
    simp only [RunTables.log, hrun, Option.elim_some, hlast, hearliest, Option.getD_some]
  | none =>
    rw [hrun] at hrow
    cases hrow
    simp only [RunTables.log, hrun, Option.elim_some, Option.elim_none, hlast, hearliest, Option.getD_none]

theorem log_ensureRun (status : String) : (ensureRun db status).log = db.log := by
  have hdb : ensureRun db status = ⟨some (db.run.getD ⟨status, -1, 0, false, none⟩), db.events⟩ := by
    rw [← ensureRun_events db status, ← ensureRun_run db status]
  rw [hdb]
  refine log_setRow (ensureRun_run db _) ?_ ?_
  · cases db.run <;> rfl
  · cases db.run <;> rfl

/-- The log after a call: pushed at the row's next sequence, or left alone. -/
theorem call_log (h : RetentionInv db) (c : JournalCall) :
    RetentionInv (callJournal db c).2 ∧
      ((callJournal db c).2.log = db.log ∨
        ∃ e : EventRow, e.sequence = (db.log.last + 1).toNat ∧
          (callJournal db c).2.log = db.log.push EventRow.seq e) := by
  have hsame {db' : RunTables} (hlog : db'.log = db.log) (habsent : db'.run = none → db'.events = []) :
      RetentionInv db' ∧ (db'.log = db.log ∨ ∃ e : EventRow, e.sequence = (db.log.last + 1).toNat ∧
        db'.log = db.log.push EventRow.seq e) :=
    ⟨⟨habsent, hlog ▸ h.start⟩, .inl hlog⟩
  obtain ⟨row, -, heff⟩ := journalCall_cases db c
  generalize (callJournal db c).2 = db' at heff
  cases heff with
  | kept => exact hsame rfl h.absent
  | ensured status =>
    refine hsame (log_ensureRun status) (fun hnone => ?_)
    rw [ensureRun_run] at hnone
    exact nomatch hnone
  | @appended _ event run text hoff ha =>
    have hlog : RunTables.log ⟨some run, db.events⟩ = db.log := log_setRow ha.row rfl rfl
    refine ⟨⟨nofun, ?_⟩, .inr ⟨eventRow (run.lastSequence + 1).toNat event text, ?_, ?_⟩⟩
    · exact (congrArg RetainedLog.Log.earliest hlog).symm ▸ h.start
    · rw [← hlog]
      rfl
    · rw [← hlog]
      rfl
  | @marked status run hrun hfinal =>
    have hrow : (ensureRun db "running").run = some run := by
      rw [ensureRun_run, hrun]
      rfl
    exact hsame (log_setRow hrow rfl rfl) nofun
  | bound hrow => exact hsame (log_setRow hrow rfl rfl) nofun

/-- A prune is a cut of the run's log. -/
theorem prune_log {keepLast : JsNum} (hk : isSequence keepLast = true) (h : RetentionInv db) :
    (pruneRunEvents db keepLast).2.log = db.log.prune EventRow.seq keepLast.mantissa.toNat := by
  simp only [pruneRunEvents, hk, Bool.not_true, RetainedLog.Log.prune, if_neg Bool.false_ne_true]
  show _ = match RetainedLog.boundary EventRow.seq keepLast.mantissa.toNat db.events with
    | none => _
    | some bound => _
  cases hb : RetainedLog.boundary EventRow.seq keepLast.mantissa.toNat db.events with
  | none => rfl
  | some bound =>
    cases hrun : db.run with
    | some run => simp only [RunTables.log, hrun, Option.map_some, Option.elim_some]
    | none =>
      rw [h.absent hrun] at hb
      cases hb

/-- The smallest sequence that remains is no more negative than before. -/
theorem prune_inv {keepLast : JsNum} (h : RetentionInv db) : RetentionInv (pruneRunEvents db keepLast).2 := by
  unfold pruneRunEvents
  split
  · exact h
  split
  · exact h
  · rename_i bound hb
    cases hrun : db.run with
    | none =>
      rw [h.absent hrun] at hb
      exact nomatch hb
    | some run =>
      refine ⟨nofun, ?_⟩
      have hold : 0 ≤ run.earliestRetainedSequence := by
        have hstart := h.start
        simp only [RunTables.log, hrun, Option.elim_some] at hstart
        exact hstart
      show 0 ≤ ((RetainedLog.after EventRow.seq bound db.events).map EventRow.seq).min?.getD
        run.earliestRetainedSequence
      cases hmin : ((RetainedLog.after EventRow.seq bound db.events).map EventRow.seq).min? with
      | none => exact hold
      | some m =>
        obtain ⟨e, -, rfl⟩ := List.mem_map.mp (List.min?_mem hmin)
        exact Int.natCast_nonneg _

theorem RetentionInv.step (h : RetentionInv db) (c : RetentionCall) : RetentionInv (retentionStep db c) := by
  cases c with
  | call c => exact (call_log h c).1
  | prune keepLast => exact prune_inv h

end

/-- **Runs of the journal.** -/
theorem journal_retention (calls : List RetentionCall) :
    CallRuns.Always retentionStep (fun db c => ∀ k, c.pruned = some k → k ≠ 0 ∨ db.events = []) RunTables.empty calls ↔
      CallRuns.Always retentionStep (fun db c => HistoryTruthful (retentionStep db c)) RunTables.empty calls := by
  simp only [truthful_iff]
  refine RetainedLog.always_truthful RunTables.log (fun _ c => c.pruned) RetentionInv (fun _ c h => h.step c) ?_ ?_
    RetentionInv.empty ⟨rfl, rfl⟩ calls
  · intro db c k h hp
    cases c with
    | call c => exact nomatch hp
    | prune keepLast =>
      simp only [RetentionCall.pruned] at hp
      split at hp
      · rename_i hk
        cases hp
        exact prune_log hk h
      · exact nomatch hp
  · intro db c h hp hf
    cases c with
    | call c =>
      rcases (call_log h c).2 with heq | ⟨e, hseq, heq⟩
      · exact .inl heq
      · refine .inr ⟨e, ?_, heq⟩
        have hlast := hf.last
        have hstart := h.start
        show (e.sequence : Int) = _
        omega
    | prune keepLast =>
      simp only [RetentionCall.pruned] at hp
      split at hp
      · exact nomatch hp
      · rename_i hk
        refine .inl ?_
        simp only [retentionStep, pruneRunEvents, if_pos (show (!isSequence keepLast) = true by simpa using hk)]
        rfl

end VibeJournal

namespace VibeTask

open VibeJson VibeStore

/-! ## Task events -/

def TaskEventRow.seq (e : TaskEventRow) : Int := e.sequence

/-- The rows of a task with the column that the operations on its events never touch. -/
structure RetainedTask where
  tables : TaskTables
  earliestRetainedSequence : Int

/-- `pruneTaskEvents`, which is `pruneEventsSync` on `task_events` and `tasks`. -/
def pruneTaskEvents (db : RetainedTask) (keepLast : JsNum) : Except StoreError Nat × RetainedTask :=
  if !isSequence keepLast then (.error ⟨.invalidRecord, "keepLast must be a non-negative integer"⟩, db)
  else match RetainedLog.boundary TaskEventRow.seq keepLast.mantissa.toNat db.tables.events with
  | none => (.ok 0, db)
  | some cutoff =>
    let rest := RetainedLog.after TaskEventRow.seq cutoff db.tables.events
    let min := (rest.map TaskEventRow.seq).min?
    (.ok (db.tables.events.length - rest.length),
      { tables := { db.tables with events := rest }
        earliestRetainedSequence := min.getD db.earliestRetainedSequence })

inductive RetainedTaskCall where
  | call (c : TaskCall)
  | prune (keepLast : JsNum)

def retainedTaskStep (taskId : String) (db : RetainedTask) : RetainedTaskCall → RetainedTask
  | .call c => { db with tables := (callTask taskId db.tables c).2 }
  | .prune keepLast => (pruneTaskEvents db keepLast).2

def RetainedTaskCall.pruned : RetainedTaskCall → Option Nat
  | .prune keepLast => if isSequence keepLast then some keepLast.mantissa.toNat else none
  | .call _ => none

/-- A task as `createTask` inserts it. -/
def newRetainedTask (status : String) (replay : Bool) : RetainedTask := ⟨newTask status replay, 0⟩

def RetainedTask.log (db : RetainedTask) : RetainedLog.Log TaskEventRow where
  rows := db.tables.events
  last := db.tables.task.elim (-1) TaskRow.lastEventSequence
  earliest := db.earliestRetainedSequence

/-- The log after a call: pushed at the next Gateway sequence, or left alone. -/
theorem taskCall_log (taskId : String) (db : RetainedTask) (c : TaskCall) :
    (retainedTaskStep taskId db (.call c)).log = db.log ∨
      ∃ e : TaskEventRow, e.seq = db.log.last + 1 ∧
        (retainedTaskStep taskId db (.call c)).log = db.log.push TaskEventRow.seq e := by
  show RetainedTask.log ⟨(callTask taskId db.tables c).2, _⟩ = _ ∨ ∃ e : TaskEventRow, _ ∧
    RetainedTask.log ⟨(callTask taskId db.tables c).2, _⟩ = _
  rcases taskCall_cases taskId db.tables c with ⟨e, h⟩ | ⟨r, db', h, hdone⟩
  · rw [h]
    exact .inl rfl
  rw [h]
  cases hdone with
  | repeated => exact .inl rfl
  | kept => exact .inl rfl
  | passed => exact .inl rfl
  | advanced ht =>
    refine .inl ?_
    simp only [RetainedTask.log, updateTask, ht, Option.map_some, Option.elim_some]
  | appended ht hnext =>
    refine .inr ⟨_, ?_, by simp only [RetainedTask.log, extend, RetainedLog.Log.push, Option.elim_some]; rfl⟩
    simp only [RetainedTask.log, ht, Option.elim_some]
    exact hnext
  | @ingested n ev cur k ht hacc hnext =>
    refine .inr ⟨imageRow k n.mantissa.toNat ev, ?_, ?_⟩
    · simp only [RetainedTask.log, ht, Option.elim_some]
      exact hnext
    · simp only [RetainedTask.log, updateTask, extend, RetainedLog.Log.push, Option.map_some, Option.elim_some,
        (settleStatus_last _ _).1]
      rfl

theorem pruneTask_log {db : RetainedTask} {keepLast : JsNum} (hk : isSequence keepLast = true) :
    (pruneTaskEvents db keepLast).2.log = db.log.prune TaskEventRow.seq keepLast.mantissa.toNat := by
  simp only [pruneTaskEvents, hk, Bool.not_true, RetainedLog.Log.prune, if_neg Bool.false_ne_true]
  show _ = match RetainedLog.boundary TaskEventRow.seq keepLast.mantissa.toNat db.tables.events with
    | none => _
    | some bound => _
  cases RetainedLog.boundary TaskEventRow.seq keepLast.mantissa.toNat db.tables.events with
  | none => rfl
  | some bound => rfl

theorem newRetainedTask_log (status : String) (replay : Bool) :
    (newRetainedTask status replay).log.Faithful TaskEventRow.seq := by
  cases replay
  · exact ⟨rfl, rfl⟩
  · exact ⟨rfl, rfl⟩

/-- **Runs of a task.** -/
theorem task_retention (taskId status : String) (replay : Bool) (calls : List RetainedTaskCall) :
    CallRuns.Always (retainedTaskStep taskId) (fun db c => ∀ k, c.pruned = some k → k ≠ 0 ∨ db.tables.events = [])
        (newRetainedTask status replay) calls ↔
      CallRuns.Always (retainedTaskStep taskId)
        (fun db c => (retainedTaskStep taskId db c).log.Truthful TaskEventRow.seq)
        (newRetainedTask status replay) calls := by
  refine RetainedLog.always_truthful RetainedTask.log (fun _ c => c.pruned) (fun _ => True) (fun _ _ _ => trivial)
    ?_ ?_ trivial (newRetainedTask_log status replay) calls
  · intro db c k _ hp
    cases c with
    | call c => exact nomatch hp
    | prune keepLast =>
      simp only [RetainedTaskCall.pruned] at hp
      split at hp
      · rename_i hk
        cases hp
        exact pruneTask_log hk
      · exact nomatch hp
  · intro db c _ hp _
    cases c with
    | call c => exact taskCall_log taskId db c
    | prune keepLast =>
      simp only [RetainedTaskCall.pruned] at hp
      split at hp
      · exact nomatch hp
      · rename_i hk
        refine .inl ?_
        simp only [retainedTaskStep, pruneTaskEvents, if_pos (show (!isSequence keepLast) = true by simpa using hk)]

end VibeTask

namespace VibeTables

open Transaction VibeJson VibeStore VibeContract
open VibeTask (isSequence)

/-! ## Workflow events -/

def EventRec.seq (e : EventRec) : Int := e.sequence

/-- The tables with the column of each workflow that the operations on its events never touch. -/
structure RetainedTables where
  tables : Tables
  earliestRetainedSequence : String → Int

/-- The rows of `workflow_events` that a statement keyed by the workflow sees. -/
def Tables.eventsOf (db : Tables) (workflowId : String) : List EventRec :=
  db.events.filter fun e => e.workflowId = workflowId

/-- `pruneWorkflowEvents`, which is `pruneEventsSync` on `workflow_events` and `workflows`. -/
def pruneWorkflowEvents (db : RetainedTables) (workflowId : String) (keepLast : JsNum) :
    Except StoreError Nat × RetainedTables :=
  if !isSequence keepLast then (.error ⟨.invalidRecord, "keepLast must be a non-negative integer"⟩, db)
  else match RetainedLog.boundary EventRec.seq keepLast.mantissa.toNat (db.tables.eventsOf workflowId) with
  | none => (.ok 0, db)
  | some cutoff =>
    let rest := db.tables.events.filter fun e => !(e.workflowId = workflowId ∧ e.sequence ≤ cutoff)
    let min := ((rest.filter fun e => e.workflowId = workflowId).map EventRec.seq).min?
    (.ok (db.tables.events.length - rest.length),
      { tables := { db.tables with events := rest }
        earliestRetainedSequence := fun id =>
          if id = workflowId then min.getD (db.earliestRetainedSequence id) else db.earliestRetainedSequence id })

inductive RetainedWorkflowCall where
  | append (workflowId : String) (sequence : Int) (ev : EventDraft)
  | prune (workflowId : String) (keepLast : JsNum)

def retainedWorkflowStep (db : RetainedTables) : RetainedWorkflowCall → RetainedTables
  | .append workflowId sequence ev => { db with tables := (appendWorkflowEventSync workflowId sequence ev db.tables).2 }
  | .prune workflowId keepLast => (pruneWorkflowEvents db workflowId keepLast).2

def RetainedWorkflowCall.pruned (id : String) : RetainedWorkflowCall → Option Nat
  | .prune workflowId keepLast => if workflowId = id ∧ isSequence keepLast then some keepLast.mantissa.toNat else none
  | .append .. => none

/-- Any workflows, steps and human requests, before the first event. -/
def withoutEvents (db : Tables) : RetainedTables where
  tables := { db with
    events := []
    workflows := db.workflows.map fun w => { w with lastEventSequence := -1 } }
  earliestRetainedSequence := fun _ => 0

def RetainedTables.log (db : RetainedTables) (id : String) : RetainedLog.Log EventRec where
  rows := db.tables.eventsOf id
  last := (db.tables.workflowRow id).elim (-1) WorkflowRec.lastEventSequence
  earliest := db.earliestRetainedSequence id

/-- A throw of an append leaves the tables alone. -/
theorem appendSync_clean (id : String) (sequence : Int) (ev : EventDraft) :
    Clean (appendWorkflowEventSync id sequence ev) := by
  unfold appendWorkflowEventSync
  refine .ite (.throwTx _) (.ite (.throwTx _) (.ite (.throwTx _) (.read_bind _ fun db => ?_)))
  split
  · exact .throwTx _
  · refine .ite (.throwTx _) (.ite (.throwTx _) (.ite (.throwTx _) (.lift_bind _ fun text => ?_)))
    refine .ite ?_ (.ite (.throwTx _) (.ite (.throwTx _) (.modify_modify _ _)))
    split
    · exact .throwTx _
    · exact .ite (.throwTx _) (.pure _)

/-- **All an append can do.** -/
theorem appendSync_cases (id : String) (sequence : Int) (ev : EventDraft) (db : Tables) :
    (appendWorkflowEventSync id sequence ev db).2 = db ∨
    ∃ cur payloadJson, db.workflowRow id = some cur ∧ sequence = cur.lastEventSequence + 1 ∧
      (appendWorkflowEventSync id sequence ev db).2 =
        db.pushEvent ⟨id, sequence, ev.eventType, ev.ts, ev.stepExecutionId, payloadJson⟩ := by
  rcases h : appendWorkflowEventSync id sequence ev db with ⟨e | ⟨⟩, db'⟩
  · exact .inl (appendSync_clean id sequence ev db e db' h)
  · simp only [appendWorkflowEventSync, guard_ok, readTx_bind] at h
    obtain ⟨-, -, -, h⟩ := h
    cases hrow : db.workflowRow id with
    | none => simp only [hrow, fault_ok] at h
    | some cur =>
      simp only [hrow, guard_ok, bind_ok, lift_ok] at h
      obtain ⟨-, -, -, payloadJson, _, ⟨-, hdb⟩, h⟩ := h
      subst hdb
      by_cases hle : sequence ≤ cur.lastEventSequence
      · rw [if_pos hle] at h
        generalize List.find? _ _ = found at h
        cases found with
        | none => simp only [fault_ok] at h
        | some existing =>
          simp only [guard_ok, pure_ok] at h
          exact .inl h.2.2
      · rw [if_neg hle, guard_ok, guard_ok] at h
        exact .inr ⟨cur, payloadJson, rfl, not_not.mp h.1, (congrArg Prod.snd h.2.2).symm⟩

theorem eventsOf_pushEvent (db : Tables) (e : EventRec) (id : String) :
    (db.pushEvent e).eventsOf id = db.eventsOf id ++ if e.workflowId = id then [e] else [] := by
  simp only [Tables.eventsOf, Tables.pushEvent, Tables.setWorkflow, List.filter_append]
  by_cases hid : e.workflowId = id <;> simp [hid]

/-- The log of every workflow after an append: pushed for the one that is named. -/
theorem append_log (db : RetainedTables) (workflowId : String) (sequence : Int) (ev : EventDraft) (id : String) :
    (retainedWorkflowStep db (.append workflowId sequence ev)).log id = db.log id ∨
      ∃ e : EventRec, e.seq = (db.log id).last + 1 ∧
        (retainedWorkflowStep db (.append workflowId sequence ev)).log id = (db.log id).push EventRec.seq e := by
  show RetainedTables.log ⟨(appendWorkflowEventSync workflowId sequence ev db.tables).2, _⟩ id = _ ∨
    ∃ e : EventRec, _ ∧ RetainedTables.log ⟨(appendWorkflowEventSync workflowId sequence ev db.tables).2, _⟩ id = _
  rcases appendSync_cases workflowId sequence ev db.tables with h | ⟨cur, payloadJson, hrow, hnext, h⟩
  · rw [h]
    exact .inl rfl
  rw [h]
  by_cases hid : id = workflowId
  · subst hid
    refine .inr ⟨⟨id, sequence, ev.eventType, ev.ts, ev.stepExecutionId, payloadJson⟩, ?_, ?_⟩
    · simp only [RetainedTables.log, hrow, Option.elim_some]
      exact hnext
    · simp only [RetainedTables.log, eventsOf_pushEvent, workflowRow_pushEvent, hrow, if_true, Option.map_some,
        Option.elim_some, RetainedLog.Log.push]
      rfl
  · refine .inl ?_
    simp only [RetainedTables.log, eventsOf_pushEvent, workflowRow_pushEvent, if_neg hid,
      if_neg (fun h => hid h.symm : ¬ workflowId = id), List.append_nil]

/-- Deleting by workflow and sequence, seen from that workflow. -/
theorem delete_eventsOf (events : List EventRec) (workflowId : String) (cutoff : Int) :
    (events.filter fun e => !(e.workflowId = workflowId ∧ e.sequence ≤ cutoff)).filter
        (fun e => e.workflowId = workflowId) =
      RetainedLog.after EventRec.seq cutoff (events.filter fun e => e.workflowId = workflowId) := by
  simp only [RetainedLog.after, List.filter_filter]
  refine List.filter_congr ?_
  intro e _
  by_cases hid : e.workflowId = workflowId
  · simp only [hid, EventRec.seq, true_and, decide_true, Bool.and_true, Bool.true_and, ← Int.not_le, decide_not]
  · simp [hid]

/-- Deleting by workflow and sequence, seen from another one. -/
theorem delete_other {id workflowId : String} (hid : id ≠ workflowId) (events : List EventRec) (cutoff : Int) :
    (events.filter fun e => !(e.workflowId = workflowId ∧ e.sequence ≤ cutoff)).filter (fun e => e.workflowId = id) =
      events.filter fun e => e.workflowId = id := by
  rw [List.filter_filter]
  refine List.filter_congr ?_
  intro e _
  by_cases h : e.workflowId = id
  · simp [h, hid]
  · simp [h]

/-- A prune cuts the log of the workflow it names and leaves the others. -/
theorem pruneWorkflow_log {db : RetainedTables} {keepLast : JsNum} (workflowId id : String)
    (hk : isSequence keepLast = true) :
    (pruneWorkflowEvents db workflowId keepLast).2.log id =
      if workflowId = id then (db.log id).prune EventRec.seq keepLast.mantissa.toNat else db.log id := by
  simp only [pruneWorkflowEvents, hk, Bool.not_true, RetainedLog.Log.prune, if_neg Bool.false_ne_true]
  by_cases hid : workflowId = id
  · subst hid
    rw [if_pos rfl]
    show _ = match RetainedLog.boundary EventRec.seq keepLast.mantissa.toNat (db.tables.eventsOf workflowId) with
      | none => _
      | some bound => _
    cases RetainedLog.boundary EventRec.seq keepLast.mantissa.toNat (db.tables.eventsOf workflowId) with
    | none => rfl
    | some bound =>
      simp only [RetainedTables.log, Tables.eventsOf, delete_eventsOf, if_true]
      rfl
  · rw [if_neg hid]
    cases RetainedLog.boundary EventRec.seq keepLast.mantissa.toNat (db.tables.eventsOf workflowId) with
    | none => rfl
    | some bound =>
      simp only [RetainedTables.log, Tables.eventsOf, delete_other (fun h => hid h.symm : id ≠ workflowId),
        if_neg (fun h => hid h.symm : ¬ id = workflowId)]
      rfl

theorem withoutEvents_log (db : Tables) (id : String) : ((withoutEvents db).log id).Faithful EventRec.seq := by
  have hlast : ((withoutEvents db).log id).last = -1 := by
    show (Option.elim _ _ _ : Int) = _
    simp only [withoutEvents, Tables.workflowRow, Transaction.lookup, List.find?_map]
    cases List.find? _ _ <;> rfl
  exact ⟨rfl, by rw [hlast]; rfl⟩

/-- **Runs of the workflows.** -/
theorem workflow_retention (db₀ : Tables) (calls : List RetainedWorkflowCall) :
    CallRuns.Always retainedWorkflowStep
        (fun db c => ∀ id k, c.pruned id = some k → k ≠ 0 ∨ db.tables.eventsOf id = []) (withoutEvents db₀) calls ↔
      CallRuns.Always retainedWorkflowStep
        (fun db c => ∀ id, ((retainedWorkflowStep db c).log id).Truthful EventRec.seq) (withoutEvents db₀) calls := by
  rw [CallRuns.always_forall, CallRuns.always_forall]
  refine forall_congr' fun id => ?_
  refine RetainedLog.always_truthful (fun db : RetainedTables => db.log id) (fun _ c => c.pruned id) (fun _ => True)
    (fun _ _ _ => trivial) ?_ ?_ trivial (withoutEvents_log db₀ id) calls
  · intro db c k _ hp
    cases c with
    | append => exact nomatch hp
    | prune workflowId keepLast =>
      simp only [RetainedWorkflowCall.pruned] at hp
      split at hp
      · rename_i hk
        cases hp
        show RetainedTables.log _ id = _
        rw [retainedWorkflowStep, pruneWorkflow_log workflowId id hk.2, if_pos hk.1]
      · exact nomatch hp
  · intro db c _ hp _
    cases c with
    | append workflowId sequence ev => exact append_log db workflowId sequence ev id
    | prune workflowId keepLast =>
      simp only [RetainedWorkflowCall.pruned] at hp
      split at hp
      · exact nomatch hp
      · rename_i hnot
        refine .inl ?_
        by_cases hk : isSequence keepLast = true
        · show RetainedTables.log _ id = _
          rw [retainedWorkflowStep, pruneWorkflow_log workflowId id hk, if_neg (fun h => hnot ⟨h, hk⟩)]
        · simp only [retainedWorkflowStep, pruneWorkflowEvents,
            if_pos (show (!isSequence keepLast) = true by simpa using hk)]

end VibeTables

namespace VibeJournal

open CallRuns (Always)
open VibeTask VibeTables

/-- **The retention columns are right** after every call of a run, in the journal and in the two
    tables of the control store, exactly when no call prunes every event of a record that has some. -/
theorem retention_truthful (taskId status : String) (replay : Bool) (db₀ : Tables)
    (journalCalls : List RetentionCall) (taskCalls : List RetainedTaskCall)
    (workflowCalls : List RetainedWorkflowCall) :
    (Always retentionStep (fun db c => ∀ k, c.pruned = some k → k ≠ 0 ∨ db.events = []) RunTables.empty journalCalls ↔
      Always retentionStep (fun db c => HistoryTruthful (retentionStep db c)) RunTables.empty journalCalls) ∧
    (Always (retainedTaskStep taskId) (fun db c => ∀ k, c.pruned = some k → k ≠ 0 ∨ db.tables.events = [])
        (newRetainedTask status replay) taskCalls ↔
      Always (retainedTaskStep taskId) (fun db c => (retainedTaskStep taskId db c).log.Truthful TaskEventRow.seq)
        (newRetainedTask status replay) taskCalls) ∧
    (Always retainedWorkflowStep
        (fun db c => ∀ id k, c.pruned id = some k → k ≠ 0 ∨
          db.tables.eventsOf id = []) (withoutEvents db₀) workflowCalls ↔
      Always retainedWorkflowStep (fun db c => ∀ id, ((retainedWorkflowStep db c).log id).Truthful EventRec.seq)
        (withoutEvents db₀) workflowCalls) :=
  ⟨journal_retention journalCalls, task_retention taskId status replay taskCalls, workflow_retention db₀ workflowCalls⟩

/-- An event, and a prune that keeps none. -/
def keepNone : List RetentionCall := [.call (.append plainLog), .prune (VibeJson.JsNum.ofInt 0)]

/-- The pruned journal calls a history complete from the start, and has none of it; and the rows of a
    task are gone in the same way. -/
theorem complete_and_empty :
    ¬ Always retentionStep (fun db c => HistoryTruthful (retentionStep db c)) RunTables.empty keepNone ∧
    ¬ Always (retainedTaskStep "t") (fun db c => (retainedTaskStep "t" db c).log.Truthful TaskEventRow.seq)
      (newRetainedTask "running" false)
      [.call (.append ⟨VibeJson.JsNum.ofInt 0, "task.created", "2024-01-01T00:00:00Z", none, none⟩),
        .prune (VibeJson.JsNum.ofInt 0)] := by
  constructor
  · rintro ⟨-, htrue, -⟩
    have hmeta : replayMetadata (CallRuns.run retentionStep RunTables.empty keepNone) (-1) =
        some ⟨0, 0, true, "running", false, "run_event_replay_v1"⟩ := by decide +kernel
    obtain ⟨e, he, -⟩ := htrue.complete (-1) _ hmeta rfl 0 (by decide) (le_refl _)
    have hnil : (CallRuns.run retentionStep RunTables.empty keepNone).events = [] := by decide +kernel
    exact nomatch hnil ▸ he
  · rintro ⟨-, htrue, -⟩
    obtain ⟨e, he, -⟩ := (htrue 0).mpr (by decide +kernel)
    exact nomatch (show e ∈ [] from he)

end VibeJournal
