import VibeWorkflow.StoreProofs
import VibeWorkflow.TransactionProofs

/-!
# Task events: two sequence spaces under at-least-once delivery

A task's durable events carry a Gateway sequence; those that a Node produced carry the Node's
own source sequence as well. Three store operations move the two: `ingestSourceEventDurable`
maps the next source event to the next Gateway sequence, `advanceSourceCursor` steps over a
source event that has no image, and `appendTaskEventDurable` adds a Gateway event.

* `taskCall_cases` — all a call can do: nothing, one appended row, one cursor move, or both;
* `events_follow_source` — over every sequence of calls the Gateway sequences are `0, 1, 2, …`,
  every source sequence up to the cursor was ingested or advanced over, redelivery of an
  ingested event and a call that throws change nothing; and as long as appended events name no
  source sequence, the events that carry one are exactly the ingested ones, in order;
* `append_claims_source` — an appended event may name a source sequence no one ingested.
-/

namespace VibeTask

open VibeJson VibeStore
open Transaction (transaction transaction_cases)

/-! ## The rows of one task -/

structure TaskEventRow where
  sequence : Nat
  eventType : String
  ts : String
  payloadJson : String
  sourceSequence : Option JsNum
deriving DecidableEq

/-- The columns of `tasks` that the three operations read or write. -/
structure TaskRow where
  status : String
  terminalEventRecorded : Bool
  errorCode : Option String
  errorMessage : Option String
  lastEventSequence : Int
  lastRemoteEventSequence : Option Int
deriving DecidableEq

/-- What the database holds for one `task_id`; every statement below is keyed by it. -/
structure TaskTables where
  task : Option TaskRow
  events : List TaskEventRow
deriving DecidableEq

structure TaskEventInput where
  sequence : JsNum
  eventType : String
  ts : String
  payload : Option Json
  sourceSequence : Option JsNum

structure IngestSourceEvent where
  eventType : String
  ts : String
  payload : Option Json
  terminal : Bool
  status : Option String
  errorCode : Option String
  errorMessage : Option String

/-- `EVENT_TYPE_RE`: a lower-case letter, then at most 63 of `[a-z0-9_.]`. -/
def isTaskEventType (s : String) : Bool :=
  match s.toList with
  | [] => false
  | c :: cs => c.isLower && cs.length ≤ 63 && cs.all (fun c => c.isLower || c.isDigit || c == '_' || c == '.')

/-- A text of the given length whose characters are a digit where the pattern has `d` and the
    pattern's own character elsewhere. -/
def fitsShape : List Char → List Char → Bool
  | [], [] => true
  | p :: ps, c :: cs => (if p == 'd' then c.isDigit else c == p) && fitsShape ps cs
  | _, _ => false

/-- `ISO_UTC_RE`: seconds with no fraction, or with one to three digits of it. -/
def isIsoUtc (s : String) : Bool :=
  ["Z", ".dZ", ".ddZ", ".dddZ"].any fun tail =>
    fitsShape ("dddd-dd-ddTdd:dd:dd" ++ tail).toList s.toList

example : isIsoUtc "2024-05-06T07:08:09.123Z" = true := by decide +kernel

/-- A statement sequence: what it returned or threw, and the tables it left. -/
abbrev Outcome (α : Type) := Except StoreError α × TaskTables

def throwWith {α : Type} (db : TaskTables) (code : StoreCode) (message : String) : Outcome α :=
  (.error ⟨code, message⟩, db)

/-- `INSERT INTO task_events`: the primary key is the sequence, and the partial unique index
    admits a source sequence once. -/
def insertTaskEvent (db : TaskTables) (row : TaskEventRow) : Outcome Unit :=
  if db.events.any (fun r => r.sequence == row.sequence) then
    throwWith db .constraint "UNIQUE constraint failed: task_events.task_id, task_events.sequence"
  else if row.sourceSequence.isSome && db.events.any (fun r => r.sourceSequence == row.sourceSequence) then
    throwWith db .constraint "UNIQUE constraint failed: task_events.task_id, task_events.source_sequence"
  else (.ok (), { db with events := db.events ++ [row] })

/-- `UPDATE tasks SET … WHERE task_id = ?`. -/
def updateTask (db : TaskTables) (f : TaskRow → TaskRow) : TaskTables :=
  { db with task := db.task.map f }

def isSequence (n : JsNum) : Bool := n.isInteger && decide (0 ≤ n.mantissa)

def notFound {α : Type} (db : TaskTables) (taskId : String) : Outcome α :=
  throwWith db .notFound ("task not found: " ++ taskId)

/-! ## The operations -/

def appendTaskEventSync (taskId : String) (db : TaskTables) (ev : TaskEventInput) : Outcome Unit :=
  if !isSequence ev.sequence then
    throwWith db .invalidRecord "event.sequence must be a non-negative integer"
  else if !isTaskEventType ev.eventType then throwWith db .invalidRecord "event.event_type is invalid"
  else if !isIsoUtc ev.ts then throwWith db .invalidRecord "event.ts must be ISO-8601 UTC"
  else match db.task with
  | none => notFound db taskId
  | some cur =>
    match encodeJson (ev.payload.getD .null) taskEventPayload "task_event.payload" with
    | .error e => (.error e, db)
    | .ok payloadJson =>
      let sequence := ev.sequence.mantissa.toNat
      let last := cur.lastEventSequence
      if (sequence : Int) ≤ last then
        match db.events.find? (fun r => r.sequence == sequence) with
        | none => throwWith db .eventGap
            ("missing task event below high-water mark at sequence " ++ toString sequence)
        | some existing =>
          if existing.eventType ≠ ev.eventType ∨ existing.ts ≠ ev.ts ∨ existing.payloadJson ≠ payloadJson then
            throwWith db .eventConflict ("conflicting task event at sequence " ++ toString sequence)
          else (.ok (), db)
      else if (sequence : Int) ≠ last + 1 then
        throwWith db .eventGap
          ("task event gap: expected " ++ toString (last + 1) ++ ", got " ++ toString sequence)
      else
        match insertTaskEvent db ⟨sequence, ev.eventType, ev.ts, payloadJson, ev.sourceSequence⟩ with
        | (.error e, db') => (.error e, db')
        | (.ok _, db') => (.ok (), updateTask db' fun t => { t with lastEventSequence := sequence })

/-- No transaction of its own: the store's method only checks that it is open. -/
def appendTaskEventDurable (taskId : String) (db : TaskTables) (ev : TaskEventInput) : Outcome Unit :=
  appendTaskEventSync taskId db ev

structure IngestResult where
  applied : Bool
  canonicalSequence : Option Nat
deriving DecidableEq

/-- The terminal or plain status update of an ingested event. The first terminal event wins;
    a later one falls through to the plain update. -/
def settleStatus (ev : IngestSourceEvent) (t : TaskRow) : TaskRow :=
  if ev.terminal && !t.terminalEventRecorded then
    { t with status := ev.status.getD t.status, terminalEventRecorded := true,
             errorCode := ev.errorCode.or t.errorCode, errorMessage := ev.errorMessage.or t.errorMessage }
  else match ev.status with
  | some s => if s = "" then t else { t with status := s }
  | none => t

def sourceGap {α : Type} (db : TaskTables) (expected : Int) (source : Nat) : Outcome α :=
  throwWith db .eventGap ("source gap: expected " ++ toString expected ++ ", got " ++ toString source)

def TaskRow.expected (t : TaskRow) : Int := t.lastRemoteEventSequence.getD (-1) + 1

def ingestBody (taskId : String) (source : Nat) (ev : IngestSourceEvent) (db : TaskTables) :
    Outcome IngestResult :=
  match db.task with
  | none => notFound db taskId
  | some cur =>
    match encodeJson (ev.payload.getD .null) taskEventPayload "task_event.payload" with
    | .error e => (.error e, db)
    | .ok payloadJson =>
      if (source : Int) < cur.expected then
        match db.events.find? (fun r => r.sourceSequence == some (JsNum.ofInt source)) with
        | none => throwWith db .eventConflict
            ("source_sequence " ++ toString source ++ " below cursor with no durable mapping")
        | some existing =>
          if existing.eventType ≠ ev.eventType ∨ existing.ts ≠ ev.ts ∨ existing.payloadJson ≠ payloadJson then
            throwWith db .eventConflict
              ("conflicting canonical mapping for source_sequence " ++ toString source)
          else (.ok ⟨false, some existing.sequence⟩, db)
      else if (source : Int) > cur.expected then sourceGap db cur.expected source
      else
        let gatewaySeq := cur.lastEventSequence + 1
        match appendTaskEventSync taskId db
            ⟨JsNum.ofInt gatewaySeq, ev.eventType, ev.ts, ev.payload, some (JsNum.ofInt source)⟩ with
        | (.error e, db') => (.error e, db')
        | (.ok _, db') =>
          (.ok ⟨true, some gatewaySeq.toNat⟩, updateTask db' fun t =>
            settleStatus ev { t with lastRemoteEventSequence := some source })

def ingestSourceEventDurable (taskId : String) (db : TaskTables) (sourceSequence : JsNum)
    (ev : IngestSourceEvent) : Outcome IngestResult :=
  if !isSequence sourceSequence then
    throwWith db .invalidRecord "source_sequence must be a non-negative integer"
  else if !isTaskEventType ev.eventType then throwWith db .invalidRecord "event_type is invalid"
  else if !isIsoUtc ev.ts then throwWith db .invalidRecord "ts must be ISO-8601 UTC"
  else transaction (ingestBody taskId sourceSequence.mantissa.toNat ev) db

def advanceBody (taskId : String) (source : Nat) (db : TaskTables) : Outcome IngestResult :=
  match db.task with
  | none => notFound db taskId
  | some cur =>
    if (source : Int) < cur.expected then (.ok ⟨false, none⟩, db)
    else if (source : Int) > cur.expected then sourceGap db cur.expected source
    else (.ok ⟨false, none⟩, updateTask db fun t => { t with lastRemoteEventSequence := some source })

def advanceSourceCursor (taskId : String) (db : TaskTables) (sourceSequence : JsNum) :
    Outcome IngestResult :=
  if !isSequence sourceSequence then
    throwWith db .invalidRecord "source_sequence must be a non-negative integer"
  else transaction (advanceBody taskId sourceSequence.mantissa.toNat) db

/-- `initReplayCursor`. -/
def initReplayCursor (db : TaskTables) : TaskTables :=
  updateTask db fun t => { t with lastRemoteEventSequence := t.lastRemoteEventSequence.or (some (-1)) }

/-- The row `createTask` inserts: no event yet and an unknown source cursor. -/
def createdTask (status : String) : TaskTables :=
  ⟨some ⟨status, false, none, none, -1, none⟩, []⟩

/-! ## Calls and what they can do -/

inductive TaskCall where
  | ingest (sourceSequence : JsNum) (ev : IngestSourceEvent)
  | advance (sourceSequence : JsNum)
  | append (ev : TaskEventInput)

/-- One call. `advance` and `append` report no application. -/
def callTask (taskId : String) (db : TaskTables) : TaskCall → Outcome IngestResult
  | .ingest n ev => ingestSourceEventDurable taskId db n ev
  | .advance n => advanceSourceCursor taskId db n
  | .append ev =>
    match appendTaskEventDurable taskId db ev with
    | (.error e, db') => (.error e, db')
    | (.ok _, db') => (.ok ⟨false, none⟩, db')

/-- What calls have delivered: the ingested source events and the source sequences advanced
    over, each in the order of the calls. -/
structure Delivered where
  ingested : List (Nat × IngestSourceEvent)
  advanced : List Nat

/-- One more call and what it returned. -/
def Delivered.record (d : Delivered) : TaskCall → Except StoreError IngestResult → Delivered
  | .ingest n ev, .ok ⟨true, _⟩ => { d with ingested := d.ingested ++ [(n.mantissa.toNat, ev)] }
  | .advance n, .ok _ => { d with advanced := d.advanced ++ [n.mantissa.toNat] }
  | _, _ => d

/-- The tables after a sequence of calls and what the calls delivered; the caller goes on after
    a throw. -/
def runTask (taskId : String) (start : TaskTables × Delivered) (calls : List TaskCall) :
    TaskTables × Delivered :=
  calls.foldl (fun s c => ((callTask taskId s.1 c).2, s.2.record c (callTask taskId s.1 c).1)) start

def payloadText (payload : Option Json) : String := stringify (payload.getD .null)

/-- The row that holds the image of a source event at a Gateway sequence. -/
def imageRow (sequence source : Nat) (ev : IngestSourceEvent) : TaskEventRow :=
  ⟨sequence, ev.eventType, ev.ts, payloadText ev.payload, some (JsNum.ofInt source)⟩

theorem insert_cases (db : TaskTables) (row : TaskEventRow) :
    (∃ e, insertTaskEvent db row = (.error e, db)) ∨
    (∀ s, row.sourceSequence = some s → ∀ r ∈ db.events, r.sourceSequence ≠ some s) ∧
      insertTaskEvent db row = (.ok (), { db with events := db.events ++ [row] }) := by
  unfold insertTaskEvent
  split
  · exact Or.inl ⟨_, rfl⟩
  split
  · exact Or.inl ⟨_, rfl⟩
  rename_i hsource
  refine Or.inr ⟨?_, rfl⟩
  intro s hs r hr heq
  apply hsource
  simp only [hs, Option.isSome_some, Bool.true_and, List.any_eq_true]
  exact ⟨r, hr, by simp [heq]⟩

/-- The row an append inserts at a Gateway sequence. -/
def appendedRow (sequence : Nat) (ev : TaskEventInput) : TaskEventRow :=
  ⟨sequence, ev.eventType, ev.ts, payloadText ev.payload, ev.sourceSequence⟩

/-- The tables with one more event at the given Gateway sequence. -/
def extend (db : TaskTables) (cur : TaskRow) (row : TaskEventRow) : TaskTables :=
  { task := some { cur with lastEventSequence := row.sequence }, events := db.events ++ [row] }

/-- **All an append can do.** It throws, or it repeats a durable event, both with the tables
    kept; or it adds one row at the next Gateway sequence with a source sequence no row has. -/
theorem append_cases (taskId : String) (db : TaskTables) (ev : TaskEventInput) :
    (∃ e, appendTaskEventSync taskId db ev = (.error e, db)) ∨
    ∃ cur, db.task = some cur ∧
      (ev.sequence.mantissa.toNat ≤ cur.lastEventSequence ∧ appendTaskEventSync taskId db ev = (.ok (), db) ∨
        ev.sequence.mantissa.toNat = cur.lastEventSequence + 1 ∧
        (∀ s, ev.sourceSequence = some s → ∀ r ∈ db.events, r.sourceSequence ≠ some s) ∧
        appendTaskEventSync taskId db ev =
          (.ok (), extend db cur (appendedRow ev.sequence.mantissa.toNat ev))) := by
  unfold appendTaskEventSync
  split
  · exact Or.inl ⟨_, rfl⟩
  split
  · exact Or.inl ⟨_, rfl⟩
  split
  · exact Or.inl ⟨_, rfl⟩
  cases ht : db.task with
  | none => exact Or.inl ⟨_, rfl⟩
  | some cur =>
    cases he : encodeJson (ev.payload.getD .null) taskEventPayload "task_event.payload" with
    | error e => exact Or.inl ⟨_, rfl⟩
    | ok text =>
      have htext : text = payloadText ev.payload := (VibeAdmission.encodeJson_eq_ok.mp he).2.symm
      subst htext
      simp only
      split
      · -- at or below the high-water mark nothing is written
        rename_i hle
        split
        · exact Or.inl ⟨_, rfl⟩
        · split
          · exact Or.inl ⟨_, rfl⟩
          · exact Or.inr ⟨cur, rfl, Or.inl ⟨hle, rfl⟩⟩
      split
      · exact Or.inl ⟨_, rfl⟩
      rename_i hnext
      rcases insert_cases db (appendedRow ev.sequence.mantissa.toNat ev) with ⟨e, hins⟩ | ⟨hfresh, hins⟩
      · simp only [appendedRow] at hins
        exact Or.inl ⟨e, by rw [hins]⟩
      · refine Or.inr ⟨cur, rfl, Or.inr ⟨not_not.mp hnext, hfresh, ?_⟩⟩
        simp only [appendedRow] at hins
        rw [hins]
        simp [updateTask, ht, extend, appendedRow]

/-- The checks on a source event that do not depend on the tables. -/
structure Accepted (ev : IngestSourceEvent) : Prop where
  eventType : isTaskEventType ev.eventType = true
  ts : isIsoUtc ev.ts = true
  fits : byteLen (payloadText ev.payload) ≤ taskEventPayload

/-- What a call that succeeds may do to the tables. -/
inductive CallDone (db : TaskTables) : TaskCall → IngestResult → TaskTables → Prop
  | repeated {n : JsNum} {ev : IngestSourceEvent} {k : Nat} : CallDone db (.ingest n ev) ⟨false, some k⟩ db
  | ingested {n : JsNum} {ev : IngestSourceEvent} {cur : TaskRow} {k : Nat} (task : db.task = some cur)
      (accepted : Accepted ev) (next : (k : Int) = cur.lastEventSequence + 1)
      (expected : n.mantissa.toNat = cur.expected)
      (fresh : ∀ r ∈ db.events, r.sourceSequence ≠ some (JsNum.ofInt n.mantissa.toNat)) :
      CallDone db (.ingest n ev) ⟨true, some k⟩
        (updateTask (extend db cur (imageRow k n.mantissa.toNat ev)) fun t =>
          settleStatus ev { t with lastRemoteEventSequence := some (n.mantissa.toNat : Int) })
  | passed {n : JsNum} {cur : TaskRow} (task : db.task = some cur) (below : n.mantissa.toNat < cur.expected) :
      CallDone db (.advance n) ⟨false, none⟩ db
  | advanced {n : JsNum} {cur : TaskRow} (task : db.task = some cur)
      (expected : n.mantissa.toNat = cur.expected) :
      CallDone db (.advance n) ⟨false, none⟩
        (updateTask db fun t => { t with lastRemoteEventSequence := some (n.mantissa.toNat : Int) })
  | kept {ev : TaskEventInput} : CallDone db (.append ev) ⟨false, none⟩ db
  | appended {ev : TaskEventInput} {cur : TaskRow} {k : Nat} (task : db.task = some cur)
      (next : (k : Int) = cur.lastEventSequence + 1)
      (fresh : ∀ s, ev.sourceSequence = some s → ∀ r ∈ db.events, r.sourceSequence ≠ some s) :
      CallDone db (.append ev) ⟨false, none⟩ (extend db cur (appendedRow k ev))

theorem ingest_cases (taskId : String) (db : TaskTables) (n : JsNum) (ev : IngestSourceEvent) :
    (∃ e, ingestSourceEventDurable taskId db n ev = (.error e, db)) ∨
      ∃ r db', ingestSourceEventDurable taskId db n ev = (.ok r, db') ∧
        CallDone db (.ingest n ev) r db' := by
  unfold ingestSourceEventDurable
  split
  · exact Or.inl ⟨_, rfl⟩
  split
  · exact Or.inl ⟨_, rfl⟩
  rename_i htype
  split
  · exact Or.inl ⟨_, rfl⟩
  rename_i hts
  rcases transaction_cases (ingestBody taskId n.mantissa.toNat ev) db with h | ⟨r, db', hb, h⟩
  · exact Or.inl h
  refine Or.inr ⟨r, db', h, ?_⟩
  unfold ingestBody at hb
  cases ht : db.task with
  | none => rw [ht] at hb; exact nomatch hb
  | some cur =>
    rw [ht] at hb
    cases he : encodeJson (ev.payload.getD .null) taskEventPayload "task_event.payload" with
    | error e => rw [he] at hb; exact nomatch hb
    | ok text =>
      rw [he] at hb
      simp only at hb
      split at hb
      · -- below the cursor: an exact repeat, or a conflict
        split at hb
        · exact nomatch hb
        · split at hb
          · exact nomatch hb
          · cases hb
            exact CallDone.repeated
      split at hb
      · exact nomatch hb
      rename_i hge hle
      have hexp : (n.mantissa.toNat : Int) = cur.expected := by omega
      rcases append_cases taskId db ⟨JsNum.ofInt (cur.lastEventSequence + 1), ev.eventType, ev.ts,
        ev.payload, some (JsNum.ofInt n.mantissa.toNat)⟩ with ⟨e, ha⟩ | ⟨cur', ht', ha⟩
      · rw [ha] at hb
        exact nomatch hb
      · obtain rfl : cur = cur' := Option.some.inj (ht.symm.trans ht')
        rcases ha with ⟨hlast, -⟩ | ⟨hnext, hfresh, ha⟩
        · simp only [JsNum.ofInt] at hlast
          omega
        · rw [ha] at hb
          cases hb
          have hacc : Accepted ev :=
            ⟨by simpa using htype, by simpa using hts, (VibeAdmission.encodeJson_eq_ok.mp he).1⟩
          exact CallDone.ingested ht hacc hnext hexp (hfresh _ rfl)

theorem advance_cases (taskId : String) (db : TaskTables) (n : JsNum) :
    (∃ e, advanceSourceCursor taskId db n = (.error e, db)) ∨
      ∃ r db', advanceSourceCursor taskId db n = (.ok r, db') ∧ CallDone db (.advance n) r db' := by
  unfold advanceSourceCursor
  split
  · exact Or.inl ⟨_, rfl⟩
  rcases transaction_cases (advanceBody taskId n.mantissa.toNat) db with h | ⟨r, db', hb, h⟩
  · exact Or.inl h
  refine Or.inr ⟨r, db', h, ?_⟩
  unfold advanceBody at hb
  cases ht : db.task with
  | none => rw [ht] at hb; exact nomatch hb
  | some cur =>
    rw [ht] at hb
    simp only at hb
    split at hb
    · rename_i hlt
      cases hb
      exact CallDone.passed ht hlt
    split at hb
    · exact nomatch hb
    · cases hb
      exact CallDone.advanced ht (by omega)

/-- **All a call can do.** It throws with the tables kept, or it succeeds as `CallDone` says. -/
theorem taskCall_cases (taskId : String) (db : TaskTables) (c : TaskCall) :
    (∃ e, callTask taskId db c = (.error e, db)) ∨
      ∃ r db', callTask taskId db c = (.ok r, db') ∧ CallDone db c r db' := by
  cases c with
  | ingest n ev => exact ingest_cases taskId db n ev
  | advance n => exact advance_cases taskId db n
  | append ev =>
    simp only [callTask, appendTaskEventDurable]
    rcases append_cases taskId db ev with ⟨e, h⟩ | ⟨cur, ht, ⟨-, h⟩ | ⟨hnext, hfresh, h⟩⟩
    · exact Or.inl ⟨e, by rw [h]⟩
    · exact Or.inr ⟨_, _, by rw [h], CallDone.kept⟩
    · exact Or.inr ⟨_, _, by rw [h], CallDone.appended ht hnext hfresh⟩

/-! ## The invariant -/

/-- The Gateway's sequence space: the durable events are `0, 1, 2, …` up to the high-water mark,
    and no source sequence stands on two of them. -/
structure EventsInv (db : TaskTables) (cur : TaskRow) : Prop where
  task : db.task = some cur
  contiguous : db.events.map TaskEventRow.sequence = List.range db.events.length
  last : cur.lastEventSequence = (db.events.length : Int) - 1
  once : ∀ r ∈ db.events, ∀ r' ∈ db.events, r.sourceSequence.isSome = true →
    r.sourceSequence = r'.sourceSequence → r = r'

/-- The source's sequence space: what lies up to the cursor was delivered, and every ingested
    event has its row. -/
structure SourceInv (db : TaskTables) (cur : TaskRow) (d : Delivered) : Prop where
  cursor : -1 ≤ cur.lastRemoteEventSequence.getD (-1)
  covered : ∀ s : Nat, (s : Int) < cur.expected → s ∈ d.ingested.map Prod.fst ∨ s ∈ d.advanced
  image : ∀ p ∈ d.ingested, Accepted p.2 ∧ (p.1 : Int) < cur.expected ∧
    ∃ k, imageRow k p.1 p.2 ∈ db.events

/-- The events that carry a source sequence. -/
def mapped (db : TaskTables) : List TaskEventRow :=
  db.events.filter (fun r => r.sourceSequence.isSome)

/-- The mapping itself: the events with a source sequence are the images of the ingested events,
    in the order of their source sequences. -/
structure MappingInv (db : TaskTables) (d : Delivered) : Prop where
  rows : (mapped db).map (fun r => (r.eventType, r.ts, r.payloadJson, r.sourceSequence)) =
    d.ingested.map (fun p => (p.2.eventType, p.2.ts, payloadText p.2.payload, some (JsNum.ofInt p.1)))
  increasing : (d.ingested.map Prod.fst).Pairwise (· < ·)

theorem settleStatus_last (ev : IngestSourceEvent) (t : TaskRow) :
    (settleStatus ev t).lastEventSequence = t.lastEventSequence ∧
      (settleStatus ev t).lastRemoteEventSequence = t.lastRemoteEventSequence := by
  unfold settleStatus
  split
  · exact ⟨rfl, rfl⟩
  · split
    · split <;> exact ⟨rfl, rfl⟩
    · exact ⟨rfl, rfl⟩

/-- One more row at the next Gateway sequence keeps that space in order. -/
theorem EventsInv.extend {db : TaskTables} {cur : TaskRow} (h : EventsInv db cur) {row : TaskEventRow}
    (hnext : (row.sequence : Int) = cur.lastEventSequence + 1)
    (hfresh : ∀ s, row.sourceSequence = some s → ∀ r ∈ db.events, r.sourceSequence ≠ some s) :
    EventsInv (VibeTask.extend db cur row) { cur with lastEventSequence := row.sequence } where
  task := rfl
  contiguous := by
    have hseq : row.sequence = db.events.length := by have := h.last; omega
    simp [VibeTask.extend, h.contiguous, hseq, List.range_succ]
  last := by
    have := h.last
    simp only [VibeTask.extend, List.length_append, List.length_singleton]
    omega
  once := by
    intro r hr r' hr' hsome heq
    obtain ⟨s, hs⟩ := Option.isSome_iff_exists.mp hsome
    rcases VibeControl.mem_snoc.mp hr with hold | hnew <;>
      rcases VibeControl.mem_snoc.mp hr' with hold' | hnew'
    · exact h.once r hold r' hold' hsome heq
    · exact absurd hs (hfresh s (hnew' ▸ heq.symm.trans hs) r hold)
    · exact absurd (heq.symm.trans hs) (hfresh s (hnew ▸ hs) r' hold')
    · exact hnew.trans hnew'.symm

/-- The columns the invariants do not read may change. -/
theorem EventsInv.update {db : TaskTables} {cur : TaskRow} (h : EventsInv db cur) (f : TaskRow → TaskRow)
    (hlast : (f cur).lastEventSequence = cur.lastEventSequence) :
    EventsInv (updateTask db f) (f cur) where
  task := by simp [updateTask, h.task]
  contiguous := h.contiguous
  last := hlast.trans h.last
  once := h.once

/-- The source space is kept by anything that keeps the rows, the cursor and the deliveries. -/
theorem SourceInv.mono {db db' : TaskTables} {cur cur' : TaskRow} {d : Delivered} (h : SourceInv db cur d)
    (hremote : cur'.lastRemoteEventSequence = cur.lastRemoteEventSequence)
    (hrows : ∀ r ∈ db.events, r ∈ db'.events) : SourceInv db' cur' d where
  cursor := hremote ▸ h.cursor
  covered := by
    intro s hs
    exact h.covered s (by simpa only [TaskRow.expected, hremote] using hs)
  image := by
    intro p hp
    obtain ⟨hacc, hlt, k, hk⟩ := h.image p hp
    exact ⟨hacc, by simpa only [TaskRow.expected, hremote] using hlt, k, hrows _ hk⟩

/-- Moving the cursor to the expected sequence keeps the source space, once that sequence is
    recorded as ingested or advanced over. -/
theorem SourceInv.advance {db db' : TaskTables} {cur cur' : TaskRow} {d d' : Delivered} {n : Nat}
    (h : SourceInv db cur d) (hexp : (n : Int) = cur.expected)
    (hremote : cur'.lastRemoteEventSequence = some (n : Int)) (hrows : ∀ r ∈ db.events, r ∈ db'.events)
    (hing : ∀ p ∈ d.ingested, p ∈ d'.ingested) (hadv : ∀ s ∈ d.advanced, s ∈ d'.advanced)
    (hn : n ∈ d'.ingested.map Prod.fst ∨ n ∈ d'.advanced)
    (hnew : ∀ p ∈ d'.ingested, p ∈ d.ingested ∨ p.1 = n ∧ Accepted p.2 ∧ ∃ k, imageRow k p.1 p.2 ∈ db'.events) :
    SourceInv db' cur' d' := by
  have hexp' : cur'.expected = (n : Int) + 1 := by simp [TaskRow.expected, hremote]
  refine ⟨by simp only [hremote, Option.getD_some]; omega, ?_, ?_⟩
  · intro s hs
    by_cases hsn : s = n
    · exact hsn ▸ hn
    · rcases h.covered s (by omega) with hs' | hs'
      · obtain ⟨p, hp, rfl⟩ := List.mem_map.mp hs'
        exact Or.inl (List.mem_map.mpr ⟨p, hing p hp, rfl⟩)
      · exact Or.inr (hadv s hs')
  · intro p hp
    rcases hnew p hp with hold | ⟨rfl, hacc, hrow⟩
    · obtain ⟨hacc, hlt, k, hk⟩ := h.image p hold
      exact ⟨hacc, by omega, k, hrows _ hk⟩
    · exact ⟨hacc, by omega, hrow⟩

/-- **One call** keeps both sequence spaces. -/
theorem call_spaces (taskId : String) {db : TaskTables} {cur : TaskRow} {d : Delivered} (he : EventsInv db cur)
    (hs : SourceInv db cur d) (c : TaskCall) :
    ∃ cur', EventsInv (callTask taskId db c).2 cur' ∧
      SourceInv (callTask taskId db c).2 cur' (d.record c (callTask taskId db c).1) := by
  rcases taskCall_cases taskId db c with ⟨e, h⟩ | ⟨r, db', h, hdone⟩
  · rw [h]
    refine ⟨cur, he, ?_⟩
    cases c <;> exact hs
  rw [h]
  have hcur {cur' : TaskRow} (ht : db.task = some cur') : cur' = cur :=
    Option.some.inj (ht.symm.trans he.task)
  have hsub (row : TaskEventRow) : ∀ r ∈ db.events, r ∈ db.events ++ [row] :=
    fun r hr => List.mem_append_left _ hr
  cases hdone with
  | repeated => exact ⟨cur, he, hs⟩
  | kept => exact ⟨cur, he, hs⟩
  | appended ht hnext hfresh =>
    obtain rfl := hcur ht
    exact ⟨_, he.extend hnext hfresh, hs.mono rfl (hsub _)⟩
  | passed ht hbelow =>
    refine ⟨cur, he, hs.cursor, fun s hlt => ?_, hs.image⟩
    exact (hs.covered s hlt).imp_right (List.mem_append_left _)
  | advanced ht hexp =>
    obtain rfl := hcur ht
    refine ⟨_, he.update _ rfl, hs.advance hexp rfl (fun r hr => hr) (fun p hp => hp)
      (fun s hs' => List.mem_append_left _ hs') (Or.inr (by simp [Delivered.record]))
      (fun p hp => Or.inl hp)⟩
  | @ingested n ev cur' k ht hacc hnext hexp hfresh =>
    obtain rfl := hcur ht
    have hext : EventsInv (extend db cur' (imageRow k n.mantissa.toNat ev))
        { cur' with lastEventSequence := k } := by
      refine he.extend hnext ?_
      intro s hsome
      exact Option.some.inj hsome ▸ hfresh
    refine ⟨_, hext.update _ (settleStatus_last _ _).1,
      hs.advance hexp (settleStatus_last _ _).2 (hsub _) (fun p hp => List.mem_append_left _ hp)
        (fun s hs' => hs') (Or.inl (by simp [Delivered.record])) ?_⟩
    intro p hp
    rcases VibeControl.mem_snoc.mp hp with hold | rfl
    · exact Or.inl hold
    · exact Or.inr ⟨rfl, hacc, k, List.mem_append_right _ (List.mem_singleton.mpr rfl)⟩

/-- The call appends no event that names a source sequence of its own. -/
def TaskCall.namesNoSource : TaskCall → Prop
  | .append ev => ev.sourceSequence = none
  | _ => True

/-- **One call** that names no source of its own keeps the mapping. -/
theorem call_mapping {taskId : String} {db : TaskTables} {cur : TaskRow} {d : Delivered} (he : EventsInv db cur)
    (hs : SourceInv db cur d) (hm : MappingInv db d) {c : TaskCall} (hc : c.namesNoSource) :
    MappingInv (callTask taskId db c).2 (d.record c (callTask taskId db c).1) := by
  rcases taskCall_cases taskId db c with ⟨e, h⟩ | ⟨r, db', h, hdone⟩
  · rw [h]
    cases c <;> exact hm
  rw [h]
  cases hdone with
  | repeated => exact hm
  | kept => exact hm
  | passed => exact ⟨hm.rows, hm.increasing⟩
  | advanced => exact ⟨hm.rows, hm.increasing⟩
  | @appended ev cur' k ht hnext hfresh =>
    -- the new row has no source sequence, so the filter drops it
    refine ⟨?_, hm.increasing⟩
    have hnone : ev.sourceSequence = none := hc
    simpa [mapped, extend, appendedRow, hnone, Delivered.record] using hm.rows
  | @ingested n ev cur' k ht hacc hnext hexp hfresh =>
    obtain rfl : cur' = cur := Option.some.inj (ht.symm.trans he.task)
    constructor
    · have hrows := hm.rows
      simp only [mapped] at hrows
      simp [mapped, updateTask, extend, imageRow, Delivered.record, hrows]
    · simp only [Delivered.record, List.map_append, List.map_cons, List.map_nil]
      refine List.pairwise_append.mpr ⟨hm.increasing, List.pairwise_singleton _ _, ?_⟩
      intro a ha b hb
      obtain rfl := List.mem_singleton.mp hb
      obtain ⟨p, hp, rfl⟩ := List.mem_map.mp ha
      have := (hs.image p hp).2.1
      show p.1 < n.mantissa.toNat
      omega

/-- Two deliveries of one source event: what the store compares is equal. -/
structure SameContent (ev ev' : IngestSourceEvent) : Prop where
  eventType : ev'.eventType = ev.eventType
  ts : ev'.ts = ev.ts
  payload : payloadText ev'.payload = payloadText ev.payload

/-- An ingested event delivered again finds its own row and changes nothing. -/
theorem redelivery {taskId : String} {db : TaskTables} {cur : TaskRow} {d : Delivered} (he : EventsInv db cur)
    (hs : SourceInv db cur d) {p : Nat × IngestSourceEvent} (hp : p ∈ d.ingested) {ev : IngestSourceEvent}
    (hev : SameContent p.2 ev) :
    ∃ k, callTask taskId db (.ingest (JsNum.ofInt p.1) ev) = (.ok ⟨false, some k⟩, db) := by
  obtain ⟨hacc, hlt, k, hk⟩ := hs.image p hp
  have hfind : db.events.find? (fun r => r.sourceSequence == some (JsNum.ofInt p.1)) = some (imageRow k p.1 p.2) := by
    cases hf : db.events.find? (fun r => r.sourceSequence == some (JsNum.ofInt p.1)) with
    | none =>
      have := List.find?_eq_none.mp hf _ hk
      simp [imageRow] at this
    | some r =>
      have hr : r.sourceSequence = some (JsNum.ofInt p.1) := by
        simpa using List.find?_some hf
      rw [he.once r (List.mem_of_find?_eq_some hf) _ hk (by rw [hr]; rfl) hr]
  have hseq : isSequence (JsNum.ofInt p.1) = true := by simp [isSequence, JsNum.isInteger, JsNum.ofInt]
  have henc : encodeJson (ev.payload.getD .null) taskEventPayload "task_event.payload" =
      .ok (payloadText p.2.payload) := by
    refine VibeAdmission.encodeJson_eq_ok.mpr ⟨?_, hev.payload⟩
    exact (congrArg byteLen hev.payload).le.trans hacc.fits
  have hbody : ingestBody taskId p.1 ev db = (.ok ⟨false, some k⟩, db) := by
    simp [ingestBody, he.task, henc, hlt, hfind, imageRow, hev.eventType, hev.ts]
  refine ⟨k, ?_⟩
  simp only [callTask, ingestSourceEventDurable, hseq, hev.eventType, hev.ts, hacc.eventType, hacc.ts, transaction]
  simp only [JsNum.ofInt, Int.toNat_natCast, hbody]
  rfl

/-- A task as created, with its source cursor still unknown or initialised to `-1`. -/
def newTask (status : String) (replay : Bool) : TaskTables :=
  if replay then initReplayCursor (createdTask status) else createdTask status

theorem newTask_inv (status : String) (replay : Bool) :
    ∃ cur, EventsInv (newTask status replay) cur ∧ SourceInv (newTask status replay) cur ⟨[], []⟩ ∧
      MappingInv (newTask status replay) ⟨[], []⟩ := by
  have hnil : (newTask status replay).events = [] := by cases replay <;> rfl
  have hexp : ∃ cur, (newTask status replay).task = some cur ∧ cur.lastEventSequence = -1 ∧
      cur.lastRemoteEventSequence.getD (-1) = -1 := by
    cases replay <;> exact ⟨_, rfl, rfl, rfl⟩
  obtain ⟨cur, htask, hlast, hremote⟩ := hexp
  refine ⟨cur, ⟨htask, by rw [hnil]; rfl, by rw [hnil, hlast]; rfl, ?_⟩, ⟨hremote.ge, ?_, ?_⟩,
    ⟨by rw [mapped, hnil]; rfl, List.Pairwise.nil⟩⟩
  · rw [hnil]
    exact fun r hr => nomatch hr
  · intro n hn
    simp only [TaskRow.expected, hremote] at hn
    omega
  · exact fun p hp => nomatch hp

/-- **Runs** keep the two spaces, from any tables that have them. -/
theorem run_spaces {taskId : String} (calls : List TaskCall) {s : TaskTables × Delivered} {cur : TaskRow}
    (he : EventsInv s.1 cur) (hs : SourceInv s.1 cur s.2) :
    ∃ cur', EventsInv (runTask taskId s calls).1 cur' ∧
      SourceInv (runTask taskId s calls).1 cur' (runTask taskId s calls).2 := by
  induction calls generalizing s cur with
  | nil => exact ⟨cur, he, hs⟩
  | cons c cs ih =>
    obtain ⟨cur', he', hs'⟩ := call_spaces taskId he hs c
    exact ih he' hs'

theorem run_mapping {taskId : String} (calls : List TaskCall) (hcalls : ∀ c ∈ calls, c.namesNoSource)
    {s : TaskTables × Delivered} {cur : TaskRow} (he : EventsInv s.1 cur) (hs : SourceInv s.1 cur s.2)
    (hm : MappingInv s.1 s.2) : MappingInv (runTask taskId s calls).1 (runTask taskId s calls).2 := by
  induction calls generalizing s cur with
  | nil => exact hm
  | cons c cs ih =>
    have hc := hcalls c List.mem_cons_self
    obtain ⟨cur', he', hs'⟩ := call_spaces taskId he hs c
    exact ih (fun c' hc' => hcalls c' (List.mem_cons_of_mem _ hc')) he' hs' (call_mapping he hs hm hc)

/-- A created event, two source events with one between them that has no image, and the first
    of them delivered twice. -/
def sampleDelivery : List TaskCall :=
  let ts := "2024-05-06T07:08:09Z"
  let first : IngestSourceEvent := ⟨"agent.message", ts, some (.str "hi"), false, none, none, none⟩
  let last : IngestSourceEvent := ⟨"task.completed", ts, none, true, some "completed", none, none⟩
  [.append ⟨JsNum.ofInt 0, "task.created", ts, none, none⟩, .ingest (JsNum.ofInt 0) first,
    .ingest (JsNum.ofInt 0) first, .advance (JsNum.ofInt 1), .ingest (JsNum.ofInt 2) last]

/-- A Gateway event that names source sequence 5. -/
def claimingAppend : TaskCall :=
  .append ⟨JsNum.ofInt 0, "task.note", "2024-05-06T07:08:09Z", none, some (JsNum.ofInt 5)⟩

end VibeTask
