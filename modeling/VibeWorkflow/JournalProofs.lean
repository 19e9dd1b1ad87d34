import VibeWorkflow.CallRunProofs
import VibeWorkflow.NodeLeaseProofs
import VibeWorkflow.TaskEventProofs

/-!
# The Node's event journal

The rows of one run in the Node's SQLite journal and the calls that write them: the run's own row
with its high-water mark, its status and the flag its lease depends on, and its events.

* `insert_cases`, `journalCall_cases` — all a call can do to the rows;
* **`RunInv`** — the events are `0, 1, 2, …` up to the high-water mark, and a terminal event is the
  last one;
* **`run_lifecycle`** — a run keeps its final status and can always be ended, exactly when no
  `markStatus` names another terminal status after the end and the last event the journal has room
  for is terminal.
-/

namespace VibeJournal

open VibeJson
open VibeNode (LeaseId)
open VibeTask (isIsoUtc isSequence)

/-! ## Rows and limits -/

inductive JournalCode where
  | notFound
  | eventConflict
  | eventGap
  | invalidRecord
  | invalidTransition
  | tooLarge
  | eventsPerRunExceeded
  | resultConflict
  | leaseConflict
  | corruption
  | constraint        -- an error of SQLite itself
deriving DecidableEq, Repr

structure JournalError where
  code : JournalCode
  message : String
deriving DecidableEq, Repr

/-- A row of `run_events`. -/
structure EventRow where
  sequence : Nat
  type : String
  ts : String
  payloadJson : String
deriving DecidableEq

/-- A row of `runs`. -/
structure RunRow where
  status : String
  lastSequence : Int
  earliestRetainedSequence : Int
  terminalEventRecorded : Bool
  leaseId : Option LeaseId
deriving DecidableEq

/-- What the journal holds for one `remote_run_id`; every statement below is keyed by it. -/
structure RunTables where
  run : Option RunRow
  events : List EventRow
deriving DecidableEq

def RunTables.empty : RunTables := ⟨none, []⟩

structure RunEventInput where
  type : String
  timestamp : String
  payload : Option Json
  terminal : Bool
  status : Option String

def nodeRunEventTypes : List String :=
  ["status", "log", "approval_required", "approval_response", "tool_call", "pr_created", "error"]

def eventPayloadBytes : Nat := 256 * 1024

def eventsPerRun : Nat := 200000

def terminalStatuses : List String := ["completed", "failed", "stopped", "cancelled"]

/-- What a call returned or threw, and the rows it left. -/
abbrev Outcome (α : Type) := Except JournalError α × RunTables

def throwWith {α : Type} (db : RunTables) (code : JournalCode) (message : String) : Outcome α :=
  (.error ⟨code, message⟩, db)

/-! ## The calls -/

def encodeJson (value : Json) (maxBytes : Nat) (label : String) : Except JournalError String :=
  if byteLen (stringify value) > maxBytes then
    .error ⟨.tooLarge, label ++ ": exceeds " ++ toString maxBytes ++ " bytes"⟩
  else .ok (stringify value)

def validate (event : RunEventInput) : Except JournalError String :=
  if !nodeRunEventTypes.contains event.type then .error ⟨.invalidRecord, "unsupported run event type"⟩
  else if !isIsoUtc event.timestamp then .error ⟨.invalidRecord, "timestamp must be ISO-8601 UTC"⟩
  else encodeJson (event.payload.getD .null) eventPayloadBytes "run_event.payload"

/-- The row is created on first sight; a row that is there keeps its status. -/
def ensureRun (db : RunTables) (status : String) : RunTables :=
  match db.run with
  | some _ => db
  | none => { db with run := some ⟨status, -1, 0, false, none⟩ }

/-- The columns an inserted event writes. -/
def RunRow.after (run : RunRow) (seq : Nat) (event : RunEventInput) : RunRow :=
  { run with
    lastSequence := seq
    status := (event.status.or (if event.terminal then some "completed" else none)).getD run.status
    terminalEventRecorded := run.terminalEventRecorded || event.terminal }

/-- The payload's text, as a caller has computed it already or as `validate` gives it. -/
def payloadOf (event : RunEventInput) : Option String → Except JournalError String
  | some text => .ok text
  | none => validate event

def insertEvent (db : RunTables) (seq : Nat) (event : RunEventInput) (precomputed : Option String) :
    Outcome EventRow :=
  if eventsPerRun ≤ seq then
    throwWith db .eventsPerRunExceeded ("events per run exceeds " ++ toString eventsPerRun)
  else
    match payloadOf event precomputed with
    | .error e => (.error e, db)
    | .ok payloadJson =>
      if db.events.any (fun r => r.sequence == seq) then
        throwWith db .constraint "UNIQUE constraint failed: run_events.remote_run_id, run_events.sequence"
      else
        let row : EventRow := ⟨seq, event.type, event.timestamp, payloadJson⟩
        (.ok row, { run := db.run.map (fun r => r.after seq event), events := db.events ++ [row] })

def alreadyTerminal {α : Type} (db : RunTables) : Outcome α :=
  throwWith db .invalidTransition "run is already terminal; no further events"

def append (db : RunTables) (event : RunEventInput) : Outcome EventRow :=
  let db := ensureRun db "running"
  match db.run with
  | none => throwWith db .notFound "run not found"
  | some run =>
    if run.terminalEventRecorded then alreadyTerminal db
    else insertEvent db (run.lastSequence + 1).toNat event none

/-- The event at the sequence, and whether it was there already. -/
def appendAt (db : RunTables) (sequence : JsNum) (event : RunEventInput) : Outcome (EventRow × Bool) :=
  let db := ensureRun db "running"
  if !isSequence sequence then throwWith db .invalidRecord "sequence must be a non-negative integer"
  else match db.run with
  | none => throwWith db .notFound "run not found"
  | some run =>
    match validate event with
    | .error e => (.error e, db)
    | .ok payloadJson =>
      let seq := sequence.mantissa.toNat
      if (seq : Int) ≤ run.lastSequence then
        match db.events.find? (fun r => r.sequence == seq) with
        | none => throwWith db .eventGap ("missing event below high-water mark at " ++ toString seq)
        | some existing =>
          if existing.type ≠ event.type ∨ existing.ts ≠ event.timestamp ∨ existing.payloadJson ≠ payloadJson then
            throwWith db .eventConflict ("conflicting event at sequence " ++ toString seq)
          else (.ok (existing, true), db)
      else if (seq : Int) ≠ run.lastSequence + 1 then
        throwWith db .eventGap
          ("gap: expected " ++ toString (run.lastSequence + 1) ++ ", got " ++ toString seq)
      else if run.terminalEventRecorded then alreadyTerminal db
      else match insertEvent db seq event (some payloadJson) with
        | (.error e, db') => (.error e, db')
        | (.ok row, db') => (.ok (row, false), db')

def markStatus (db : RunTables) (status : String) : Outcome Unit :=
  match db.run with
  | none => throwWith db .notFound "run not found"
  | some run =>
    if run.terminalEventRecorded && !terminalStatuses.contains status then
      throwWith db .invalidTransition "terminal run cannot regress to non-terminal"
    else (.ok (), { db with run := some { run with status := status } })

/-- Immutable once set; a throw rolls back the row `ensureRun` added. -/
def bindRunToLease (db : RunTables) (leaseId : LeaseId) : Outcome Unit :=
  let db' := ensureRun db "running"
  match db'.run with
  | none => throwWith db .notFound "run not found"
  | some run =>
    match run.leaseId with
    | some bound =>
      if bound ≠ leaseId then throwWith db .leaseConflict "run is already bound to a different lease"
      else (.ok (), db')
    | none => (.ok (), { db' with run := some { run with leaseId := some leaseId } })

/-- The run is a reason not to release the lease (`isLeaseInUse`). -/
def keepsInUse (db : RunTables) (leaseId : LeaseId) : Bool :=
  db.run.any (fun r => r.leaseId == some leaseId && !r.terminalEventRecorded)

/-! ## Calls and what they can do -/

inductive JournalCall where
  | ensureRun (status : String)
  | append (event : RunEventInput)
  | appendAt (sequence : JsNum) (event : RunEventInput)
  | markStatus (status : String)
  | bindRunToLease (leaseId : LeaseId)

/-- One call; the result is the row it has inserted, if any. -/
def callJournal (db : RunTables) : JournalCall → Outcome (Option EventRow)
  | .ensureRun status => (.ok none, VibeJournal.ensureRun db status)
  | .append event =>
    match VibeJournal.append db event with
    | (.error e, db') => (.error e, db')
    | (.ok row, db') => (.ok (some row), db')
  | .appendAt sequence event =>
    match VibeJournal.appendAt db sequence event with
    | (.error e, db') => (.error e, db')
    | (.ok (row, duplicate), db') => (.ok (if duplicate then none else some row), db')
  | .markStatus status =>
    match VibeJournal.markStatus db status with
    | (.error e, db') => (.error e, db')
    | (.ok _, db') => (.ok none, db')
  | .bindRunToLease leaseId =>
    match VibeJournal.bindRunToLease db leaseId with
    | (.error e, db') => (.error e, db')
    | (.ok _, db') => (.ok none, db')

/-- The event a call offers. -/
def JournalCall.event? : JournalCall → Option RunEventInput
  | .append event => some event
  | .appendAt _ event => some event
  | _ => none

/-- An event with its row, as it was recorded, and whether it was declared terminal. -/
abbrev Recorded := EventRow × Bool

/-- What one more call has recorded. -/
def recordedBy (c : JournalCall) : Except JournalError (Option EventRow) → List Recorded
  | .ok (some row) => [(row, c.event?.any RunEventInput.terminal)]
  | _ => []

/-- The rows of a run and the history of what its calls have recorded. -/
structure RunState where
  db : RunTables
  recorded : List Recorded

def RunState.initial : RunState := ⟨RunTables.empty, []⟩

/-- The caller goes on after a throw. -/
def journalStep (s : RunState) (c : JournalCall) : RunState :=
  ⟨(callJournal s.db c).2, s.recorded ++ recordedBy c (callJournal s.db c).1⟩

def eventRow (seq : Nat) (event : RunEventInput) (payloadJson : String) : EventRow :=
  ⟨seq, event.type, event.timestamp, payloadJson⟩

/-- The rows with one more event. -/
def RunRow.extended (run : RunRow) (db : RunTables) (event : RunEventInput) (text : String) : RunTables :=
  ⟨some (run.after (run.lastSequence + 1).toNat event),
    db.events ++ [eventRow (run.lastSequence + 1).toNat event text]⟩

/-- The run is open and has room, and the event is valid. -/
structure Appendable (db : RunTables) (run : RunRow) (event : RunEventInput) (text : String) : Prop where
  row : (ensureRun db "running").run = some run
  live : run.terminalEventRecorded = false
  room : (run.lastSequence + 1).toNat < eventsPerRun
  valid : validate event = .ok text

/-- The call offers the event for the run's next sequence. -/
inductive Offered (run : RunRow) (event : RunEventInput) : JournalCall → Prop
  | next : Offered run event (.append event)
  | sequenced {n : JsNum} (whole : isSequence n = true) (seq : (n.mantissa.toNat : Int) = run.lastSequence + 1) :
      Offered run event (.appendAt n event)

theorem Offered.event {run : RunRow} {event : RunEventInput} {c : JournalCall} (h : Offered run event c) :
    c.event? = some event := by
  cases h <;> rfl

/-- What a call may do to the rows. -/
inductive Effect (db : RunTables) : JournalCall → Option EventRow → RunTables → Prop
  | kept {c : JournalCall} : Effect db c none db
  | ensured {c : JournalCall} (status : String) : Effect db c none (ensureRun db status)
  | appended {c : JournalCall} {event : RunEventInput} {run : RunRow} {text : String}
      (offered : Offered run event c) (open_ : Appendable db run event text) :
      Effect db c (some (eventRow (run.lastSequence + 1).toNat event text)) (run.extended db event text)
  | marked {status : String} {run : RunRow} (row : db.run = some run)
      (final : run.terminalEventRecorded = true → status ∈ terminalStatuses) :
      Effect db (.markStatus status) none { db with run := some { run with status := status } }
  | bound {leaseId : LeaseId} {run : RunRow} (row : (ensureRun db "running").run = some run) :
      Effect db (.bindRunToLease leaseId) none ⟨some { run with leaseId := some leaseId }, db.events⟩

section

variable (db : RunTables)

@[simp] theorem ensureRun_events (status : String) : (ensureRun db status).events = db.events := by
  unfold ensureRun
  split <;> rfl

theorem ensureRun_run (status : String) :
    (ensureRun db status).run = some (db.run.getD ⟨status, -1, 0, false, none⟩) := by
  unfold ensureRun
  cases h : db.run with
  | some run =>
    simp only [Option.getD_some]
    exact h
  | none => rfl

theorem insert_cases (seq : Nat) (event : RunEventInput) (precomputed : Option String) :
    (∃ e, insertEvent db seq event precomputed = (.error e, db)) ∨
    ∃ text, seq < eventsPerRun ∧ payloadOf event precomputed = .ok text ∧
      insertEvent db seq event precomputed = (.ok (eventRow seq event text),
        ⟨db.run.map (fun r => r.after seq event), db.events ++ [eventRow seq event text]⟩) := by
  unfold insertEvent
  split
  · exact .inl ⟨_, rfl⟩
  rename_i hroom
  cases hp : payloadOf event precomputed with
  | error e => exact .inl ⟨e, rfl⟩
  | ok text =>
    simp only
    split
    · exact .inl ⟨_, rfl⟩
    · exact .inr ⟨text, by omega, rfl, rfl⟩

theorem append_cases (event : RunEventInput) :
    (∃ e, append db event = (.error e, ensureRun db "running")) ∨
    ∃ run text, Appendable db run event text ∧
      append db event = (.ok (eventRow (run.lastSequence + 1).toNat event text), run.extended db event text) := by
  obtain ⟨run, hrun⟩ : ∃ run, (ensureRun db "running").run = some run := ⟨_, ensureRun_run db _⟩
  simp only [append, hrun]
  split
  · exact .inl ⟨_, rfl⟩
  · rename_i hlive
    rcases insert_cases (ensureRun db "running") (run.lastSequence + 1).toNat event none with
      ⟨e, h⟩ | ⟨text, hroom, hvalid, h⟩
    · exact .inl ⟨e, h⟩
    · refine .inr ⟨run, text, ⟨hrun, by simpa using hlive, hroom, hvalid⟩, ?_⟩
      rw [h, hrun, ensureRun_events]
      rfl

theorem appendAt_cases (sequence : JsNum) (event : RunEventInput) :
    (∃ e, appendAt db sequence event = (.error e, ensureRun db "running")) ∨
    (∃ row, appendAt db sequence event = (.ok (row, true), ensureRun db "running")) ∨
    ∃ run text, Appendable db run event text ∧ Offered run event (.appendAt sequence event) ∧
      appendAt db sequence event =
        (.ok (eventRow (run.lastSequence + 1).toNat event text, false), run.extended db event text) := by
  obtain ⟨run, hrun⟩ : ∃ run, (ensureRun db "running").run = some run := ⟨_, ensureRun_run db _⟩
  simp only [appendAt, hrun]
  split
  · exact .inl ⟨_, rfl⟩
  rename_i hwhole
  cases hv : validate event with
  | error e => exact .inl ⟨e, rfl⟩
  | ok text =>
    simp only
    split
    · -- at or below the high-water mark nothing is written
      split
      · exact .inl ⟨_, rfl⟩
      · split
        · exact .inl ⟨_, rfl⟩
        · exact .inr (.inl ⟨_, rfl⟩)
    split
    · exact .inl ⟨_, rfl⟩
    rename_i hnext
    have hseq : (sequence.mantissa.toNat : Int) = run.lastSequence + 1 := not_not.mp hnext
    have hnat : sequence.mantissa.toNat = (run.lastSequence + 1).toNat := by omega
    split
    · exact .inl ⟨_, rfl⟩
    rename_i hlive
    rcases insert_cases (ensureRun db "running") sequence.mantissa.toNat event (some text) with
      ⟨e, h⟩ | ⟨text', hroom, hvalid, h⟩
    · exact .inl ⟨e, by rw [h]⟩
    · obtain rfl : text = text' := Except.ok.inj hvalid
      refine .inr (.inr ⟨run, text, ⟨hrun, by simpa using hlive, hnat ▸ hroom, hv⟩,
        .sequenced (by simpa using hwhole) hseq, ?_⟩)
      rw [h, hrun, ensureRun_events, hnat]
      rfl

theorem markStatus_cases (status : String) :
    (∃ e, markStatus db status = (.error e, db)) ∨
    ∃ run, db.run = some run ∧ (run.terminalEventRecorded = true → status ∈ terminalStatuses) ∧
      markStatus db status = (.ok (), { db with run := some { run with status := status } }) := by
  unfold markStatus
  cases db.run with
  | none => exact .inl ⟨_, rfl⟩
  | some run =>
    simp only
    split
    · exact .inl ⟨_, rfl⟩
    · rename_i hguard
      refine .inr ⟨run, rfl, fun hterm => ?_, rfl⟩
      simpa [hterm] using hguard

theorem bind_cases (leaseId : LeaseId) :
    (∃ e, bindRunToLease db leaseId = (.error e, db)) ∨
    bindRunToLease db leaseId = (.ok (), ensureRun db "running") ∨
    ∃ run, (ensureRun db "running").run = some run ∧
      bindRunToLease db leaseId = (.ok (), ⟨some { run with leaseId := some leaseId }, db.events⟩) := by
  obtain ⟨run, hrun⟩ : ∃ run, (ensureRun db "running").run = some run := ⟨_, ensureRun_run db _⟩
  simp only [bindRunToLease, hrun, ensureRun_events]
  split
  · split
    · exact .inl ⟨_, rfl⟩
    · exact .inr (.inl rfl)
  · exact .inr (.inr ⟨run, rfl, rfl⟩)

/-- **All a call can do.** -/
theorem journalCall_cases (c : JournalCall) :
    ∃ row, recordedBy c (callJournal db c).1 = row.toList.map (fun r => (r, c.event?.any RunEventInput.terminal)) ∧
      Effect db c row (callJournal db c).2 := by
  cases c with
  | ensureRun status => exact ⟨none, rfl, .ensured status⟩
  | append event =>
    rcases append_cases db event with ⟨e, h⟩ | ⟨run, text, ha, h⟩
    · simp only [callJournal, h]
      exact ⟨none, rfl, .ensured _⟩
    · simp only [callJournal, h]
      exact ⟨some _, rfl, .appended .next ha⟩
  | appendAt sequence event =>
    rcases appendAt_cases db sequence event with ⟨e, h⟩ | ⟨row, h⟩ | ⟨run, text, ha, hoff, h⟩
    · simp only [callJournal, h]
      exact ⟨none, rfl, .ensured _⟩
    · simp only [callJournal, h]
      exact ⟨none, rfl, .ensured _⟩
    · simp only [callJournal, h]
      exact ⟨some _, rfl, .appended hoff ha⟩
  | markStatus status =>
    rcases markStatus_cases db status with ⟨e, h⟩ | ⟨run, hrun, hfinal, h⟩
    · simp only [callJournal, h]
      exact ⟨none, rfl, .kept⟩
    · simp only [callJournal, h]
      exact ⟨none, rfl, .marked hrun hfinal⟩
  | bindRunToLease leaseId =>
    rcases bind_cases db leaseId with ⟨e, h⟩ | h | ⟨run, hrun, h⟩
    · simp only [callJournal, h]
      exact ⟨none, rfl, .kept⟩
    · simp only [callJournal, h]
      exact ⟨none, rfl, .ensured _⟩
    · simp only [callJournal, h]
      exact ⟨none, rfl, .bound hrun⟩

end

/-! ## The invariant -/

/-- The events are `0, 1, 2, …` up to the high-water mark, and a terminal event is the last one. -/
structure RunInv (s : RunState) : Prop where
  rows : s.db.events = s.recorded.map Prod.fst
  absent : s.db.run = none → s.db.events = []
  mark : ∀ run, s.db.run = some run → run.lastSequence = (s.db.events.length : Int) - 1
  flag : ∀ run, s.db.run = some run → run.terminalEventRecorded = s.recorded.any Prod.snd
  contiguous : s.db.events.map EventRow.sequence = List.range s.db.events.length
  final : ∀ r ∈ s.recorded.dropLast, r.2 = false
  room : s.db.events.length ≤ eventsPerRun

theorem RunInv.initial : RunInv RunState.initial where
  rows := rfl
  absent _ := rfl
  mark _ h := nomatch h
  flag _ h := nomatch h
  contiguous := rfl
  final _ h := nomatch h
  room := Nat.zero_le _

/-- The run's row as the next append finds it. -/
def RunState.row (s : RunState) : RunRow := s.db.run.getD ⟨"running", -1, 0, false, none⟩

section

variable {s : RunState}

theorem RunInv.row_mark (h : RunInv s) : s.row.lastSequence = (s.db.events.length : Int) - 1 := by
  unfold RunState.row
  cases hrun : s.db.run with
  | none =>
    rw [h.absent hrun]
    rfl
  | some run => exact h.mark run hrun

theorem RunInv.row_flag (h : RunInv s) : s.row.terminalEventRecorded = s.recorded.any Prod.snd := by
  unfold RunState.row
  cases hrun : s.db.run with
  | none =>
    have hnil : s.recorded = [] := List.map_eq_nil_iff.mp (h.rows.symm.trans (h.absent hrun))
    rw [hnil]
    rfl
  | some run => exact h.flag run hrun

/-- The next event's sequence is the number of events. -/
theorem RunInv.next (h : RunInv s) : (s.row.lastSequence + 1).toNat = s.db.events.length := by
  rw [h.row_mark]
  omega

/-- A write to the run's row alone. -/
theorem RunInv.setRow {run' : RunRow} (h : RunInv s) (hmark : run'.lastSequence = s.row.lastSequence)
    (hflag : run'.terminalEventRecorded = s.row.terminalEventRecorded) :
    RunInv ⟨⟨some run', s.db.events⟩, s.recorded⟩ where
  rows := h.rows
  absent hrun := nomatch hrun
  mark run hrun := by
    cases hrun
    exact hmark.trans h.row_mark
  flag run hrun := by
    cases hrun
    exact hflag.trans h.row_flag
  contiguous := h.contiguous
  final := h.final
  room := h.room

theorem RunInv.ensured (h : RunInv s) (status : String) : RunInv ⟨ensureRun s.db status, s.recorded⟩ := by
  have hdb : ensureRun s.db status = ⟨(ensureRun s.db status).run, s.db.events⟩ := by
    rw [← ensureRun_events s.db status]
  rw [hdb, ensureRun_run]
  refine h.setRow ?_ ?_
  · unfold RunState.row
    cases s.db.run <;> rfl
  · unfold RunState.row
    cases s.db.run <;> rfl

/-- One more event at the next sequence of an open run. -/
theorem RunInv.appended {event : RunEventInput} {run : RunRow} {text : String} (h : RunInv s)
    (ha : Appendable s.db run event text) :
    RunInv ⟨run.extended s.db event text,
      s.recorded ++ [(eventRow (run.lastSequence + 1).toNat event text, event.terminal)]⟩ := by
  have hrow : run = s.row := by
    have hrun := ha.row
    rw [ensureRun_run] at hrun
    exact (Option.some.inj hrun).symm
  have hnext : (run.lastSequence + 1).toNat = s.db.events.length := hrow ▸ h.next
  have hopen : s.recorded.any Prod.snd = false := by
    rw [← h.row_flag, ← hrow]
    exact ha.live
  refine ⟨?_, nofun, ?_, ?_, ?_, ?_, ?_⟩
  · simp only [RunRow.extended, h.rows, List.map_append, List.map_cons, List.map_nil]
  · intro run' hrun'
    cases hrun'
    simp only [RunRow.extended, RunRow.after, hnext, List.length_append, List.length_singleton]
    omega
  · intro run' hrun'
    cases hrun'
    simp only [RunRow.after, ha.live, hopen, List.any_append, List.any_cons, List.any_nil, Bool.or_false]
  · simp [RunRow.extended, eventRow, hnext, h.contiguous, List.range_succ]
  · -- what was recorded before the new event is all of it but the last, and none of it is terminal
    rw [List.dropLast_concat]
    intro r hr
    simpa using List.any_eq_false.mp hopen r hr
  · have hroom := ha.room
    simp only [RunRow.extended, List.length_append, List.length_singleton]
    omega

/-- **One call** keeps the invariant. -/
theorem journalStep_inv (h : RunInv s) (c : JournalCall) : RunInv (journalStep s c) := by
  obtain ⟨row, hrec, heff⟩ := journalCall_cases s.db c
  unfold journalStep
  rw [hrec]
  generalize (callJournal s.db c).2 = db' at heff
  cases heff with
  | kept => simpa using h
  | ensured status => simpa using h.ensured status
  | @appended _ event run text hoff ha =>
    rw [hoff.event]
    exact h.appended ha
  | @marked status run hrun hfinal =>
    have hrow : s.row = run := by
      unfold RunState.row
      rw [hrun]
      rfl
    show RunInv ⟨_, s.recorded ++ []⟩
    rw [List.append_nil]
    exact h.setRow (hrow ▸ rfl) (hrow ▸ rfl)
  | @bound leaseId run hrun =>
    have hrow : s.row = run := by
      rw [ensureRun_run] at hrun
      exact Option.some.inj hrun
    show RunInv ⟨_, s.recorded ++ []⟩
    rw [List.append_nil]
    exact h.setRow (hrow ▸ rfl) (hrow ▸ rfl)

/-- An append, taken or refused. -/
theorem RunInv.after_append (h : RunInv s) (event : RunEventInput) :
    ∃ recorded, RunInv ⟨(append s.db event).2, recorded⟩ := by
  have hcall : (callJournal s.db (.append event)).2 = (append s.db event).2 := by
    simp only [callJournal]
    split
    · rename_i heq
      rw [heq]
    · rename_i heq
      rw [heq]
  have hnext := journalStep_inv h (.append event)
  unfold journalStep at hnext
  rw [hcall] at hnext
  exact ⟨_, hnext⟩

end

/-! ## The life of a run -/

def RunState.terminal (s : RunState) : Bool := s.row.terminalEventRecorded

def RunState.status (s : RunState) : String := s.row.status

/-- A valid terminal event can be appended, and the run then no longer keeps any lease in use. -/
def CanEnd (s : RunState) : Prop :=
  ∀ event text, event.terminal = true → validate event = .ok text →
    ∃ row, (append s.db event).1 = .ok row ∧ ∀ leaseId, keepsInUse (append s.db event).2 leaseId = false

/-- What a step must leave. -/
structure Lifecycle (s s' : RunState) : Prop where
  contiguous : s'.db.events.map EventRow.sequence = List.range s'.db.events.length
  journaled : s'.db.events = s'.recorded.map Prod.fst
  once : s'.recorded.countP Prod.snd ≤ 1
  last : ∀ r ∈ s'.recorded.dropLast, r.2 = false
  final : s.terminal = true → s'.status = s.status
  endable : s'.terminal = false → CanEnd s'

/-- No terminal status but the recorded one is written after the end, and the last event the journal
    has room for is terminal. -/
structure Orderly (s : RunState) (c : JournalCall) : Prop where
  status : ∀ status, c = .markStatus status → s.terminal = true → status ∈ terminalStatuses → status = s.status
  room : ∀ event text, Offered s.row event c → s.terminal = false → event.terminal = false →
    validate event = .ok text → s.db.events.length + 1 < eventsPerRun

section

variable {s : RunState}

theorem insert_ok {db : RunTables} {seq : Nat} {text : String} (event : RunEventInput) (precomputed : Option String)
    (hroom : seq < eventsPerRun) (hvalid : payloadOf event precomputed = .ok text)
    (hfresh : ∀ r ∈ db.events, r.sequence ≠ seq) :
    insertEvent db seq event precomputed = (.ok (eventRow seq event text),
      ⟨db.run.map (fun r => r.after seq event), db.events ++ [eventRow seq event text]⟩) := by
  have hnone : (db.events.any fun r => r.sequence == seq) = false := by simpa using hfresh
  simp only [insertEvent, if_neg (Nat.not_le.mpr hroom), hvalid, hnone]
  rfl

/-- No event stands at the next sequence. -/
theorem RunInv.fresh (h : RunInv s) : ∀ r ∈ s.db.events, r.sequence ≠ s.db.events.length := by
  intro r hr heq
  have hmem : r.sequence ∈ List.range s.db.events.length := h.contiguous ▸ List.mem_map_of_mem hr
  rw [heq] at hmem
  exact absurd (List.mem_range.mp hmem) (Nat.lt_irrefl _)

/-- The next event of an open run with room. -/
theorem RunInv.append_ok {event : RunEventInput} {text : String} (h : RunInv s) (hopen : s.terminal = false)
    (hroom : s.db.events.length < eventsPerRun) (hvalid : validate event = .ok text) :
    append s.db event = (.ok (eventRow s.db.events.length event text), s.row.extended s.db event text) := by
  have hrun : (ensureRun s.db "running").run = some s.row := ensureRun_run s.db _
  have hlive : s.row.terminalEventRecorded = false := hopen
  have hfresh : ∀ r ∈ (ensureRun s.db "running").events, r.sequence ≠ s.db.events.length := by
    rw [ensureRun_events]
    exact h.fresh
  have hins := insert_ok event none hroom hvalid hfresh
  simp only [append, hrun, hlive, h.next, hins, ensureRun_events, RunRow.extended]
  rfl

theorem RunInv.appendAt_ok {n : JsNum} {event : RunEventInput} {text : String} (h : RunInv s)
    (hopen : s.terminal = false) (hroom : s.db.events.length < eventsPerRun) (hvalid : validate event = .ok text)
    (hn : isSequence n = true) (hseq : n.mantissa.toNat = s.db.events.length) :
    appendAt s.db n event =
      (.ok (eventRow s.db.events.length event text, false), s.row.extended s.db event text) := by
  have hrun : (ensureRun s.db "running").run = some s.row := ensureRun_run s.db _
  have hlive : s.row.terminalEventRecorded = false := hopen
  have hfresh : ∀ r ∈ (ensureRun s.db "running").events, r.sequence ≠ s.db.events.length := by
    rw [ensureRun_events]
    exact h.fresh
  have hmark : s.row.lastSequence = (s.db.events.length : Int) - 1 := h.row_mark
  have hins := insert_ok event (some text) hroom rfl hfresh
  have hpast : ¬ ((s.db.events.length : Int) ≤ s.row.lastSequence) := by omega
  have hnext : ¬ ((s.db.events.length : Int) ≠ s.row.lastSequence + 1) := by omega
  simp only [appendAt, hrun, hlive, hn, hvalid, hseq, if_neg hpast, if_neg hnext, hins, ensureRun_events,
    RunRow.extended, h.next]
  rfl

/-- The terminal event that a run ends with when nothing else is said. -/
def plainEnd : RunEventInput := ⟨"status", "2024-01-01T00:00:00Z", none, true, none⟩

theorem plainEnd_valid : validate plainEnd = .ok "null" := by decide +kernel

/-- **A run can be ended** exactly when it is open and the journal has room. -/
theorem RunInv.canEnd_iff (h : RunInv s) :
    CanEnd s ↔ s.terminal = false ∧ s.db.events.length < eventsPerRun := by
  constructor
  · intro hend
    obtain ⟨row, hok, -⟩ := hend plainEnd "null" rfl plainEnd_valid
    rcases append_cases s.db plainEnd with ⟨e, he⟩ | ⟨run, text, ha, -⟩
    · rw [he] at hok
      exact nomatch hok
    · have hrow : run = s.row := by
        have hrun := ha.row
        rw [ensureRun_run] at hrun
        exact (Option.some.inj hrun).symm
      have hroom := ha.room
      rw [hrow, h.next] at hroom
      exact ⟨(congrArg RunRow.terminalEventRecorded hrow).symm.trans ha.live, hroom⟩
  · rintro ⟨hopen, hroom⟩ event text hterm hvalid
    rw [h.append_ok hopen hroom hvalid]
    refine ⟨_, rfl, fun leaseId => ?_⟩
    simp [keepsInUse, RunRow.extended, RunRow.after, hterm]

/-- The flag, the status and the number of events after a call on an open or ended run. -/
inductive Moved (s s' : RunState) (c : JournalCall) : Prop
  | kept (terminal : s'.terminal = s.terminal) (events : s'.db.events.length = s.db.events.length)
      (status : s.terminal = true → s'.status = s.status)
  | marked {status : String} (call : c = .markStatus status) (terminal : s'.terminal = s.terminal)
      (events : s'.db.events.length = s.db.events.length) (written : s'.status = status)
      (final : s.terminal = true → status ∈ terminalStatuses)
  | appended {event : RunEventInput} {text : String} (offered : Offered s.row event c) (live : s.terminal = false)
      (valid : validate event = .ok text) (terminal : s'.terminal = event.terminal)
      (events : s'.db.events.length = s.db.events.length + 1)

theorem step_moved (s : RunState) (c : JournalCall) : Moved s (journalStep s c) c := by
  obtain ⟨row, -, heff⟩ := journalCall_cases s.db c
  have hrow {run : RunRow} (hrun : (ensureRun s.db "running").run = some run) : run = s.row := by
    rw [ensureRun_run] at hrun
    exact (Option.some.inj hrun).symm
  unfold journalStep
  generalize (callJournal s.db c).2 = db' at heff
  cases heff with
  | kept => exact .kept rfl rfl (fun _ => rfl)
  | ensured status =>
    cases hrun : s.db.run with
    | some run =>
      have hdb : ensureRun s.db status = s.db := by
        unfold ensureRun
        rw [hrun]
      rw [hdb]
      exact .kept rfl rfl (fun _ => rfl)
    | none =>
      have hopen : s.terminal = false := by
        simp only [RunState.terminal, RunState.row, hrun]
        rfl
      refine .kept ?_ (by rw [ensureRun_events]) (fun hterm => ?_)
      · simp only [RunState.terminal, RunState.row, ensureRun_run, hrun]
        rfl
      · rw [hopen] at hterm
        exact nomatch hterm
  | @appended _ event run text hoff ha =>
    obtain rfl := hrow ha.row
    refine .appended hoff ha.live ha.valid ?_ ?_
    · show (s.row.terminalEventRecorded || event.terminal) = event.terminal
      rw [ha.live, Bool.false_or]
    · simp only [RunRow.extended, List.length_append, List.length_singleton]
  | @marked status run hrun hfinal =>
    have hrun' : s.row = run := by
      unfold RunState.row
      rw [hrun]
      rfl
    refine .marked rfl ?_ rfl rfl ?_
    · show run.terminalEventRecorded = s.row.terminalEventRecorded
      rw [hrun']
    · intro hterm
      refine hfinal ?_
      rw [← hrun']
      exact hterm
  | @bound leaseId run hrun =>
    obtain rfl := hrow hrun
    exact .kept rfl rfl (fun _ => rfl)

/-- A terminal event only at the end is at most one terminal event. -/
theorem RunInv.once (h : RunInv s) : s.recorded.countP Prod.snd ≤ 1 := by
  cases List.eq_nil_or_concat s.recorded with
  | inl hnil =>
    rw [hnil]
    exact Nat.zero_le _
  | inr hsnoc =>
    obtain ⟨init, last, heq⟩ := hsnoc
    have hfinal := h.final
    rw [heq, List.concat_eq_append, List.dropLast_concat] at hfinal
    have hzero : init.countP Prod.snd = 0 := List.countP_eq_zero.mpr (fun r hr => by simp [hfinal r hr])
    rw [heq, List.concat_eq_append, List.countP_append, hzero, Nat.zero_add]
    exact List.countP_le_length

/-- An offered event that is valid is appended to an open run with room. -/
theorem RunInv.offered_ok {c : JournalCall} {event : RunEventInput} {text : String} (h : RunInv s)
    (hoff : Offered s.row event c) (hopen : s.terminal = false) (hroom : s.db.events.length < eventsPerRun)
    (hvalid : validate event = .ok text) : (journalStep s c).db = s.row.extended s.db event text := by
  unfold journalStep
  cases hoff with
  | next => simp only [callJournal, h.append_ok hopen hroom hvalid]
  | sequenced hn hseq =>
    rw [h.row_mark] at hseq
    simp only [callJournal, h.appendAt_ok hopen hroom hvalid hn (by omega)]

/-- **One call** from a run that can still be ended: what it must leave is what the condition asks. -/
theorem RunInv.orderly_iff (h : RunInv s) (hend : s.terminal = false → s.db.events.length < eventsPerRun)
    (c : JournalCall) : Orderly s c ↔ Lifecycle s (journalStep s c) := by
  have h' : RunInv (journalStep s c) := journalStep_inv h c
  constructor
  · intro hok
    refine ⟨h'.contiguous, h'.rows, h'.once, h'.final, ?_, ?_⟩
    · intro hterm
      cases step_moved s c with
      | kept _ _ hstatus => exact hstatus hterm
      | marked hcall _ _ hwritten hfinal => exact hwritten.trans (hok.status _ hcall hterm (hfinal hterm))
      | appended _ hlive =>
        rw [hlive] at hterm
        exact nomatch hterm
    · intro hopen'
      refine h'.canEnd_iff.mpr ⟨hopen', ?_⟩
      cases step_moved s c with
      | kept hterm hlen _ =>
        rw [hlen]
        exact hend (hterm.symm.trans hopen')
      | marked _ hterm hlen _ _ =>
        rw [hlen]
        exact hend (hterm.symm.trans hopen')
      | appended hoff hlive hvalid hterm hlen =>
        rw [hlen]
        exact hok.room _ _ hoff hlive (hterm.symm.trans hopen') hvalid
  · intro hl
    refine ⟨?_, ?_⟩
    · rintro status rfl hterm hmem
      -- the mark goes through, so the status it names is the one that must not change
      have hrun : ∃ run, s.db.run = some run ∧ s.row = run := by
        cases hrun : s.db.run with
        | some run => exact ⟨run, rfl, by unfold RunState.row; rw [hrun]; rfl⟩
        | none =>
          simp only [RunState.terminal, RunState.row, hrun] at hterm
          exact nomatch hterm
      obtain ⟨run, hrun, hrow⟩ := hrun
      have hcontains : terminalStatuses.contains status = true := List.contains_iff_mem.mpr hmem
      have hwritten : (journalStep s (.markStatus status)).status = status := by
        simp only [journalStep, callJournal, markStatus, hrun, hcontains, Bool.not_true, Bool.and_false]
        rfl
      exact hwritten.symm.trans (hl.final hterm)
    · intro event text hoff hopen hplain hvalid
      have hdb := h.offered_ok hoff hopen (hend hopen) hvalid
      have hopen' : (journalStep s c).terminal = false := by
        simp only [RunState.terminal, RunState.row, hdb, RunRow.extended]
        show (s.row.terminalEventRecorded || event.terminal) = false
        rw [hplain, Bool.or_false]
        exact hopen
      have hroom := (h'.canEnd_iff.mp (hl.endable hopen')).2
      rw [hdb] at hroom
      simpa only [RunRow.extended, List.length_append, List.length_singleton] using hroom

/-- **The life of a run.**  Over every sequence of `ensureRun`, `append`, `appendAt`, `markStatus` and
    lease-binding calls: every step leaves contiguous events with at most one terminal event at their
    end, a final status that no longer changes and, before the end, a run that a valid terminal event
    still ends, exactly when no `markStatus` after the end names another terminal status and the last
    event the journal has room for is terminal. -/
theorem run_lifecycle (calls : List JournalCall) :
    CallRuns.Always journalStep (fun s c => Lifecycle s (journalStep s c)) RunState.initial calls ↔
      CallRuns.Always journalStep Orderly RunState.initial calls := by
  symm
  refine CallRuns.always_congr (fun s => RunInv s ∧ (s.terminal = false → s.db.events.length < eventsPerRun)) ?_
    (fun s c hi => hi.1.orderly_iff hi.2 c) ⟨RunInv.initial, fun _ => by decide⟩ calls
  rintro s c ⟨hi, hend⟩ hok
  have hl := (hi.orderly_iff hend c).mp hok
  have h' := journalStep_inv hi c
  exact ⟨h', fun hopen => (h'.canEnd_iff.mp (hl.endable hopen)).2⟩

/-- An event of the run's output. -/
def plainLog : RunEventInput := ⟨"log", "2024-01-01T00:00:00Z", none, false, none⟩

theorem plainLog_valid : validate plainLog = .ok "null" := by decide +kernel

/-- A run that only ever logs fills up and stays open. -/
theorem logs_fill (n : Nat) (hn : n ≤ eventsPerRun) :
    let s := CallRuns.run journalStep RunState.initial (List.replicate n (.append plainLog))
    RunInv s ∧ s.terminal = false ∧ s.db.events.length = n := by
  induction n with
  | zero => exact ⟨RunInv.initial, rfl, rfl⟩
  | succ n ih =>
    obtain ⟨hinv, hopen, hlen⟩ := ih (Nat.le_of_succ_le hn)
    rw [List.replicate_succ', CallRuns.run_append]
    generalize CallRuns.run journalStep RunState.initial (List.replicate n (.append plainLog)) = s at *
    have hroom : s.db.events.length < eventsPerRun := hlen ▸ hn
    have hdb := hinv.offered_ok .next hopen hroom plainLog_valid
    refine ⟨journalStep_inv hinv _, ?_, ?_⟩
    · show (journalStep s (.append plainLog)).terminal = false
      simp only [RunState.terminal, RunState.row, hdb, RunRow.extended]
      show (s.row.terminalEventRecorded || false) = false
      rw [Bool.or_false]
      exact hopen
    · show (journalStep s (.append plainLog)).db.events.length = n + 1
      rw [hdb]
      simp only [RunRow.extended, List.length_append, List.length_singleton, hlen]

/-- Two runs that break the life of a run: an ended run is marked with another terminal status, and a
    run fills the journal's room for it with output, after which no terminal event fits. -/
theorem run_restated_or_stuck :
    ¬ CallRuns.Always journalStep (fun s c => Lifecycle s (journalStep s c)) RunState.initial
      [.append plainEnd, .markStatus "failed"] ∧
    ¬ CallRuns.Always journalStep (fun s c => Lifecycle s (journalStep s c)) RunState.initial
      (List.replicate eventsPerRun (.append plainLog)) := by
  constructor
  · rintro ⟨-, hmark, -⟩
    exact absurd (hmark.final (by decide +kernel)) (by decide +kernel)
  · intro hall
    obtain ⟨n, hn⟩ : ∃ n, eventsPerRun = n + 1 := Nat.exists_eq_succ_of_ne_zero (by decide)
    obtain ⟨hinv, hopen, hlen⟩ := logs_fill n (by omega)
    obtain ⟨hinv', hopen', hlen'⟩ := logs_fill (n + 1) (by omega)
    rw [hn, List.replicate_succ', CallRuns.always_append] at hall
    obtain ⟨-, hlast, -⟩ := hall
    rw [List.replicate_succ', CallRuns.run_append] at hinv' hopen' hlen'
    have hroom := (hinv'.canEnd_iff.mp (hlast.endable hopen')).2
    omega

end

end VibeJournal
