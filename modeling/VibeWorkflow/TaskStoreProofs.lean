import VibeWorkflow.CallRunProofs
import VibeWorkflow.TaskResultProofs
import VibeWorkflow.TransactionProofs

/-!
# The task store: one status, one terminal event, one result

The writes that the Gateway makes to a task's own row, next to its events: `updateTaskDurable`
patches the row under its revision, the two terminalizations end it, and `persistTaskResultDurable`
stores the result once.  Ingesting a source event writes the status column as well, with its own
statement.

* `storeCall_cases` — all a call can do to the rows;
* **`terminal_final`** — over every sequence of calls a terminal status stays, one terminal event is
  recorded and a recorded one stands with a terminal status, exactly when the ingested source events
  respect what is recorded already; a stored result always stays.
-/

namespace VibeTask

open VibeJson VibeStore Transaction CallRuns VibeResult

/-! ## Rows -/

/-- The columns of `tasks` that no operation on events touches. -/
structure TaskColumns where
  revision : Int
  remoteRunId : Option String
  workspaceKey : Option String
  permissionMode : Option String
  terminalAt : Option String
  metadataJson : Option String
  resultStatus : Option String
deriving DecidableEq

/-- What the database holds for one `task_id`. -/
structure TaskStore where
  tables : TaskTables
  columns : TaskColumns
  result : Option ResultRow
deriving DecidableEq

/-- A field that is absent leaves the column, and one that is `null` clears it. -/
structure TaskPatch where
  status : Option String
  remoteRunId : Option (Option String)
  workspaceKey : Option (Option String)
  permissionMode : Option (Option String)
  metadata : Option (Option Json)
  terminalAt : Option (Option String)
  errorCode : Option (Option String)
  errorMessage : Option (Option String)

inductive TaskFault where
  | store (e : StoreError)
  | resultConflict (message : String)
deriving DecidableEq

abbrev TaskTx (α : Type) := Tx TaskStore TaskFault α

def taskTerminalStatuses : List String := ["completed", "failed", "cancelled"]

def errorMessageBytes : Nat := 4 * 1024

/-! ## The operations -/

def refuse {α : Type} (code : StoreCode) (message : String) : TaskTx α := throwTx (.store ⟨code, message⟩)

def check {α : Type} (x : Except StoreError α) : TaskTx α := liftTx (x.mapError .store)

/-- A statement sequence over the task's row and its events. -/
def onTables {α : Type} (body : TaskTables → Outcome α) : TaskTx α := fun s =>
  ((body s.tables).1.mapError .store, { s with tables := (body s.tables).2 })

def requireTask (taskId : String) : TaskTx TaskRow := do
  match ← readTx (fun s => s.tables.task) with
  | none => refuse .notFound ("task not found: " ++ taskId)
  | some cur => pure cur

/-- The column a patched JSON field leaves. -/
def patchedJson (patch : Option (Option Json)) (cur : Option String) : Except StoreError (Option String) :=
  match patch with
  | none => .ok cur
  | some none => .ok none
  | some (some value) => (encodeJson value metadataJson "task.metadata").map some

def patchedMessage (patch : Option (Option String)) (cur : Option String) : Except StoreError (Option String) :=
  match patch with
  | none => .ok cur
  | some none => .ok none
  | some (some text) => (boundString text errorMessageBytes "task.error_message").map some

def updateTaskSync (taskId : String) (expectedRevision : Int) (patch : TaskPatch) : TaskTx Unit := do
  let cur ← requireTask taskId
  let columns ← readTx (fun s => s.columns)
  if columns.revision ≠ expectedRevision then
    refuse .revisionConflict ("task revision conflict (have " ++ toString columns.revision ++ ", expected " ++
      toString expectedRevision ++ ")")
  else if patch.status.any (fun status => taskTerminalStatuses.contains cur.status && status ≠ cur.status) then
    refuse .invalidTransition "terminal task status cannot change"
  else if patch.terminalAt = some none ∧ columns.terminalAt.isSome then
    refuse .invalidTransition "terminal_at cannot be cleared"
  else do
    let metadataJson ← check (patchedJson patch.metadata columns.metadataJson)
    let errorMessage ← check (patchedMessage patch.errorMessage cur.errorMessage)
    modifyTx fun s => { s with
      tables := updateTask s.tables fun t => { t with
        status := patch.status.getD cur.status
        errorCode := patch.errorCode.getD cur.errorCode
        errorMessage := errorMessage }
      columns := { s.columns with
        revision := columns.revision + 1
        remoteRunId := patch.remoteRunId.getD columns.remoteRunId
        workspaceKey := patch.workspaceKey.getD columns.workspaceKey
        permissionMode := patch.permissionMode.getD columns.permissionMode
        terminalAt := patch.terminalAt.getD columns.terminalAt
        metadataJson := metadataJson } }

/-- The writes that both terminalizations make once they have checked what they require. -/
def recordTerminal (taskId now : String) (expectedRevision : Int) (patch : TaskPatch) (terminalEvent : TaskEventInput) :
    TaskTx Unit := do
  updateTaskSync taskId expectedRevision
    { patch with terminalAt := some (some (patch.terminalAt.join.getD now)) }
  onTables (fun db => appendTaskEventSync taskId db terminalEvent)
  modifyTx fun s => { s with tables := updateTask s.tables fun t => { t with terminalEventRecorded := true } }

/-- A status is given and is terminal. -/
def TaskPatch.terminal (patch : TaskPatch) : Bool := patch.status.any taskTerminalStatuses.contains

def terminalizeTaskBody (taskId now : String) (expectedRevision : Int) (patch : TaskPatch)
    (terminalEvent : TaskEventInput) : TaskTx Unit := do
  let cur ← requireTask taskId
  if cur.terminalEventRecorded then refuse .invalidTransition "terminal event already recorded"
  else if !patch.terminal then refuse .invalidTransition "terminalizeTask requires a terminal status"
  else recordTerminal taskId now expectedRevision patch terminalEvent

def resultEncoding : Encoding StoreError where
  json value name := encodeJson value (256 * 1024) ("task_result." ++ name)
  text value := boundString value maxFinalOutputBytes "task_result.final_output"

def writeResultRow (resultStatus : String) (result : Option AgentTaskResult) : TaskTx Unit := do
  let row ← check (rowOf resultEncoding resultStatus result)
  modifyTx fun s => { s with
    result := some row
    columns := { s.columns with resultStatus := some resultStatus } }

/-- A result that is there must match; the first one is written. -/
def keepResult (resultStatus : String) (result : Option AgentTaskResult) (conflict : String) : TaskTx Unit := do
  match ← readTx (fun s => s.result) with
  | none => writeResultRow resultStatus result
  | some existing =>
    if ← check (rowMatches resultEncoding existing resultStatus result) then pure ()
    else throwTx (.resultConflict conflict)

def persistTaskResultBody (taskId resultStatus : String) (result : Option AgentTaskResult) : TaskTx Unit := do
  let _ ← requireTask taskId
  keepResult resultStatus result "a different task result already exists (content mismatch)"

def terminalizeTaskWithResultBody (taskId now : String) (expectedRevision : Int) (patch : TaskPatch)
    (terminalEvent : TaskEventInput) (resultStatus : String) (result : Option AgentTaskResult) : TaskTx Unit := do
  let cur ← requireTask taskId
  keepResult resultStatus result "conflicting task result on terminalization"
  if cur.terminalEventRecorded then pure ()
  else if !patch.terminal then refuse .invalidTransition "terminalize requires a terminal status"
  else recordTerminal taskId now expectedRevision patch terminalEvent

/-- The time at which the ingested event that ends the task is written. -/
def ingestedAt (now : String) (c : TaskCall) (before : TaskTables) (columns : TaskColumns) : TaskColumns :=
  match c with
  | .ingest _ ev =>
    if ev.terminal && before.task.any (fun t => !t.terminalEventRecorded) then { columns with terminalAt := some now }
    else columns
  | _ => columns

inductive StoreCall where
  | update (expectedRevision : Int) (patch : TaskPatch)
  | terminalize (expectedRevision : Int) (patch : TaskPatch) (terminalEvent : TaskEventInput)
  | terminalizeWithResult (expectedRevision : Int) (patch : TaskPatch) (terminalEvent : TaskEventInput)
      (resultStatus : String) (result : Option AgentTaskResult)
  | persistResult (resultStatus : String) (result : Option AgentTaskResult)
  | events (c : TaskCall)

/-- `updateTaskDurable` has no transaction of its own: it writes with one statement. -/
def callStore (taskId now : String) (s : TaskStore) : StoreCall → Except TaskFault Unit × TaskStore
  | .update expectedRevision patch => updateTaskSync taskId expectedRevision patch s
  | .terminalize expectedRevision patch ev =>
    Transaction.transaction (terminalizeTaskBody taskId now expectedRevision patch ev) s
  | .terminalizeWithResult expectedRevision patch ev resultStatus result =>
    Transaction.transaction (terminalizeTaskWithResultBody taskId now expectedRevision patch ev resultStatus result) s
  | .persistResult resultStatus result => Transaction.transaction (persistTaskResultBody taskId resultStatus result) s
  | .events c =>
    match callTask taskId s.tables c with
    | (.error e, db) => (.error (.store e), { s with tables := db })
    | (.ok r, db) => (.ok (), { s with
        tables := db
        columns := if r.applied then ingestedAt now c s.tables s.columns else s.columns })

/-! ## What a call can do -/

def TaskRow.terminal (t : TaskRow) : Bool := taskTerminalStatuses.contains t.status

/-- The event that a terminalization records. -/
def StoreCall.terminalEvent : StoreCall → Option TaskEventInput
  | .terminalize _ _ ev => some ev
  | .terminalizeWithResult _ _ ev _ _ => some ev
  | _ => none

/-- The row with the columns a patch writes. -/
def TaskRow.patched (t : TaskRow) (status : String) (errorCode errorMessage : Option String) : TaskRow :=
  { t with status := status, errorCode := errorCode, errorMessage := errorMessage }

/-- What a call may do to the task's row and its events. -/
inductive Written (db : TaskTables) : StoreCall → TaskTables → Prop
  | kept {c : StoreCall} : Written db c db
  | event {c : TaskCall} {r : IngestResult} {db' : TaskTables} (done : CallDone db c r db')
      (sequence : ∀ n ev, c = .ingest n ev → isSequence n = true) : Written db (.events c) db'
  | patched {revision : Int} {patch : TaskPatch} {cur : TaskRow} {status : String}
    {errorCode errorMessage : Option String}
      (task : db.task = some cur) (final : cur.terminal = true → status = cur.status) :
      Written db (.update revision patch) ⟨some (cur.patched status errorCode errorMessage), db.events⟩
  | ended {c : StoreCall} {ev : TaskEventInput} {cur : TaskRow} {status : String}
      {errorCode errorMessage : Option String} (call : c.terminalEvent = some ev)
        (task : db.task = some cur) (live : cur.terminalEventRecorded = false)
      (terminal : status ∈ taskTerminalStatuses) (final : cur.terminal = true → status = cur.status) :
      Written db c ⟨some { cur.patched status errorCode errorMessage with terminalEventRecorded := true }, db.events⟩
  | endedWith {c : StoreCall} {ev : TaskEventInput} {cur : TaskRow} {status : String}
      {errorCode errorMessage : Option String} (row : TaskEventRow) (call : c.terminalEvent = some ev)
        (task : db.task = some cur) (live : cur.terminalEventRecorded = false)
      (terminal : status ∈ taskTerminalStatuses) (final : cur.terminal = true → status = cur.status)
      (next : (row.sequence : Int) = cur.lastEventSequence + 1)
      (fresh : ∀ n, row.sourceSequence = some n → ∀ r ∈ db.events, r.sourceSequence ≠ some n) :
      Written db c ⟨some { cur.patched status errorCode errorMessage with
        lastEventSequence := row.sequence, terminalEventRecorded := true }, db.events ++ [row]⟩

section

variable {α : Type} {s s' : TaskStore}

theorem refuse_ok {code : StoreCode} {message : String} {a : α} : ¬ refuse code message s = (.ok a, s') := nofun

theorem check_ok {x : Except StoreError α} {a : α} : check x s = (.ok a, s') ↔ x = .ok a ∧ s' = s := by
  unfold check
  rw [liftTx_ok]
  refine and_congr_left fun _ => ?_
  cases x with
  | error e => exact ⟨nofun, nofun⟩
  | ok b =>
    constructor
    · rintro ⟨⟩
      rfl
    · rintro ⟨⟩
      rfl

theorem onTables_ok {body : TaskTables → Outcome α} {a : α} :
    onTables body s = (.ok a, s') ↔ ∃ db, body s.tables = (.ok a, db) ∧ s' = { s with tables := db } := by
  unfold onTables
  rcases body s.tables with ⟨e | b, db⟩
  · exact ⟨nofun, nofun⟩
  · constructor
    · rintro ⟨⟩
      exact ⟨db, rfl, rfl⟩
    · rintro ⟨_, ⟨⟩, rfl⟩
      rfl

theorem requireTask_ok {taskId : String} {cur : TaskRow} :
    requireTask taskId s = (.ok cur, s') ↔ s.tables.task = some cur ∧ s' = s := by
  unfold requireTask
  rw [readTx_bind]
  cases s.tables.task with
  | none => exact ⟨nofun, nofun⟩
  | some t =>
    constructor
    · rintro ⟨⟩
      exact ⟨rfl, rfl⟩
    · rintro ⟨⟨⟩, rfl⟩
      rfl

theorem requireTask_state (taskId : String) (s : TaskStore) : (requireTask taskId s).2 = s := by
  unfold requireTask
  rw [readTx_bind]
  cases s.tables.task <;> rfl

/-- A guard that was passed. -/
theorem guarded_ok {c : Prop} [Decidable c] {code : StoreCode} {message : String} {x : TaskTx α} {a : α} :
    (if c then refuse code message else x) s = (.ok a, s') ↔ ¬ c ∧ x s = (.ok a, s') := by
  split
  · rename_i hc
    exact ⟨fun h => absurd h refuse_ok, fun h => absurd hc h.1⟩
  · rename_i hc
    exact ⟨fun h => ⟨hc, h⟩, fun h => h.2⟩

/-- **A patch** that goes through keeps a terminal status. -/
theorem update_ok {taskId : String} {revision : Int} {patch : TaskPatch}
    (h : updateTaskSync taskId revision patch s = (.ok (), s')) :
    ∃ cur errorCode errorMessage, s.tables.task = some cur ∧
      (cur.terminal = true → patch.status.getD cur.status = cur.status) ∧
      s'.tables = ⟨some (cur.patched (patch.status.getD cur.status) errorCode errorMessage), s.tables.events⟩ ∧
      s'.result = s.result := by
  simp only [updateTaskSync, bind_ok, requireTask_ok, readTx_bind, guarded_ok, check_ok] at h
  obtain ⟨cur, _, ⟨htask, rfl⟩, -, hfinal, -, metadata, _, ⟨-, rfl⟩, message, _, ⟨-, rfl⟩, hmodify⟩ := h
  cases hmodify
  refine ⟨cur, patch.errorCode.getD cur.errorCode, message, htask, ?_, ?_, ?_⟩
  · intro hterm
    cases hstatus : patch.status with
    | none => rfl
    | some status =>
      rw [hstatus] at hfinal
      by_contra hne
      apply hfinal
      have hcur : taskTerminalStatuses.contains cur.status = true := hterm
      simp only [Option.any_some, hcur, Bool.true_and, decide_eq_true_eq]
      exact hne
  · simp only [updateTask, htask, Option.map_some, TaskRow.patched]
  · rfl

theorem update_clean (taskId : String) (revision : Int) (patch : TaskPatch) :
    Clean (updateTaskSync taskId revision patch) := by
  refine .bind (requireTask_state taskId) fun cur => .read_bind _ fun columns => .ite (.throwTx _) (.ite (.throwTx _)
    (.ite (.throwTx _) (.lift_bind _ fun metadata => .lift_bind _ fun message => ?_)))
  intro s e s' h
  exact nomatch h

/-- A stored result is kept, and the task's row and events are left alone. -/
theorem keepResult_ok {resultStatus conflict : String} {result : Option AgentTaskResult}
    (h : keepResult resultStatus result conflict s = (.ok (), s')) :
    s'.tables = s.tables ∧ ∀ r, s.result = some r → s'.result = some r := by
  unfold keepResult at h
  rw [readTx_bind] at h
  cases hres : s.result with
  | none =>
    rw [hres] at h
    obtain ⟨row, _, hrow, hmodify⟩ := bind_ok.mp h
    obtain ⟨-, rfl⟩ := check_ok.mp hrow
    cases hmodify
    exact ⟨rfl, nofun⟩
  | some existing =>
    rw [hres] at h
    obtain ⟨found, _, hfound, hend⟩ := bind_ok.mp h
    obtain ⟨-, rfl⟩ := check_ok.mp hfound
    cases found with
    | true =>
      cases hend
      exact ⟨rfl, fun r hr => hres.trans hr⟩
    | false => exact nomatch hend

/-- **The writes of a terminalization** of a task whose terminal event is not recorded. -/
theorem recordTerminal_ok (c : StoreCall) {taskId now : String} {revision : Int} {patch : TaskPatch}
    {ev : TaskEventInput} {cur : TaskRow}
    (hcall : c.terminalEvent = some ev) (htask : s.tables.task = some cur) (hlive : cur.terminalEventRecorded = false)
    (hpatch : patch.terminal = true) (h : recordTerminal taskId now revision patch ev s = (.ok (), s')) :
    Written s.tables c s'.tables ∧ s'.result = s.result := by
  obtain ⟨_, s₁, hupdate, h⟩ := bind_ok.mp h
  obtain ⟨_, s₂, happend, hflag⟩ := bind_ok.mp h
  obtain ⟨cur', errorCode, errorMessage, htask', hfinal, htables, hresult⟩ := update_ok hupdate
  obtain rfl : cur' = cur := Option.some.inj (htask'.symm.trans htask)
  obtain ⟨db, hdb, rfl⟩ := onTables_ok.mp happend
  cases hflag
  have hterm : patch.status.getD cur'.status ∈ taskTerminalStatuses := by
    unfold TaskPatch.terminal at hpatch
    cases hstatus : patch.status with
    | none =>
      rw [hstatus] at hpatch
      exact nomatch hpatch
    | some status =>
      rw [hstatus] at hpatch
      exact List.contains_iff_mem.mp hpatch
  refine ⟨?_, hresult⟩
  rcases append_cases taskId s₁.tables ev with ⟨e, he⟩ | ⟨t, ht, ⟨-, hkept⟩ | ⟨hnext, hfresh, hnew⟩⟩
  · rw [he] at hdb
    exact nomatch hdb
  · -- the event is there already, and only the flag is written
    rw [hkept] at hdb
    cases hdb
    show Written s.tables c (updateTask s₁.tables _)
    rw [htables]
    exact .ended hcall htask hlive hterm hfinal
  · rw [hnew] at hdb
    cases hdb
    rw [htables] at ht hfresh
    cases ht
    show Written s.tables c ⟨some { cur'.patched (patch.status.getD cur'.status) errorCode errorMessage with
      lastEventSequence := _, terminalEventRecorded := true }, s₁.tables.events ++ _⟩
    rw [htables]
    exact Written.endedWith (appendedRow ev.sequence.mantissa.toNat ev) hcall htask hlive hterm hfinal hnext hfresh

/-- A transaction that throws is undone. -/
theorem transaction_written {body : TaskTx Unit} {c : StoreCall}
    (hbody : ∀ s', body s = (.ok (), s') → Written s.tables c s'.tables ∧ ∀ r, s.result = some r → s'.result = some r) :
    Written s.tables c (Transaction.transaction body s).2.tables ∧
      ∀ r, s.result = some r → (Transaction.transaction body s).2.result = some r := by
  cases h : (Transaction.transaction body s).1 with
  | error e =>
    rw [transaction_rollback h]
    exact ⟨.kept, fun r hr => hr⟩
  | ok a =>
    have hok : Transaction.transaction body s = (.ok (), (Transaction.transaction body s).2) := Prod.ext h rfl
    exact hbody _ (transaction_ok.mp hok)

end

theorem ingest_sequence {taskId : String} {db db' : TaskTables} {n : JsNum} {ev : IngestSourceEvent} {r : IngestResult}
    (h : ingestSourceEventDurable taskId db n ev = (.ok r, db')) : isSequence n = true := by
  unfold ingestSourceEventDurable at h
  cases hn : isSequence n with
  | true => rfl
  | false =>
    rw [hn] at h
    exact nomatch h

/-- **All a call can do**, to the task and to its result. -/
theorem storeCall_cases (taskId now : String) (s : TaskStore) (c : StoreCall) :
    Written s.tables c (callStore taskId now s c).2.tables ∧
      ∀ r, s.result = some r → (callStore taskId now s c).2.result = some r := by
  cases c with
  | update revision patch =>
    simp only [callStore]
    cases h : updateTaskSync taskId revision patch s with
    | mk res s' =>
    cases res with
    | error e =>
      obtain rfl := update_clean taskId revision patch s e s' h
      exact ⟨.kept, fun r hr => hr⟩
    | ok _ =>
      obtain ⟨cur, errorCode, errorMessage, htask, hfinal, htables, hresult⟩ := update_ok h
      rw [htables, hresult]
      exact ⟨.patched htask hfinal, fun r hr => hr⟩
  | terminalize revision patch ev =>
    refine transaction_written fun s' hbody => ?_
    obtain ⟨cur, _, hcur, h⟩ := bind_ok.mp hbody
    obtain ⟨htask, rfl⟩ := requireTask_ok.mp hcur
    rw [guarded_ok, guarded_ok] at h
    obtain ⟨hlive, hpatch, h⟩ := h
    obtain ⟨hwritten, hresult⟩ :=
      recordTerminal_ok (.terminalize revision patch ev) rfl htask (Bool.eq_false_iff.mpr hlive)
        (by simpa using hpatch) h
    exact ⟨hwritten, fun r hr => hresult.trans hr⟩
  | terminalizeWithResult revision patch ev resultStatus result =>
    refine transaction_written fun s' hbody => ?_
    obtain ⟨cur, _, hcur, h⟩ := bind_ok.mp hbody
    obtain ⟨htask, rfl⟩ := requireTask_ok.mp hcur
    obtain ⟨_, s₁, hkeep, hend⟩ := bind_ok.mp h
    obtain ⟨htables, hresult⟩ := keepResult_ok hkeep
    cases hlive : cur.terminalEventRecorded with
    | true =>
      rw [if_pos hlive] at hend
      cases hend
      exact ⟨htables ▸ .kept, hresult⟩
    | false =>
      rw [if_neg (Bool.eq_false_iff.mp hlive), guarded_ok] at hend
      obtain ⟨hwritten, hresult'⟩ := recordTerminal_ok
        (.terminalizeWithResult revision patch ev resultStatus result) rfl (htables ▸ htask) hlive
          (by simpa using hend.1) hend.2
      exact ⟨htables ▸ hwritten, fun r hr => hresult'.trans (hresult r hr)⟩
  | persistResult resultStatus result =>
    refine transaction_written fun s' hbody => ?_
    obtain ⟨cur, _, hcur, h⟩ := bind_ok.mp hbody
    obtain ⟨-, rfl⟩ := requireTask_ok.mp hcur
    obtain ⟨htables, hresult⟩ := keepResult_ok h
    exact ⟨htables ▸ .kept, hresult⟩
  | events c =>
    rcases taskCall_cases taskId s.tables c with ⟨e, h⟩ | ⟨r, db', h, hdone⟩
    · simp only [callStore, h]
      exact ⟨.kept, fun r hr => hr⟩
    · simp only [callStore, h]
      refine ⟨.event hdone ?_, fun r hr => hr⟩
      rintro n ev rfl
      exact ingest_sequence h

/-! ## Events that are taken -/

section

variable {db : TaskTables} {cur : TaskRow}

theorem EventsInv.fresh_sequence (h : EventsInv db cur) : ∀ r ∈ db.events, r.sequence ≠ db.events.length := by
  intro r hr heq
  have hmem : r.sequence ∈ List.range db.events.length := h.contiguous ▸ List.mem_map_of_mem hr
  rw [heq] at hmem
  exact absurd (List.mem_range.mp hmem) (Nat.lt_irrefl _)

theorem insert_taken {row : TaskEventRow} (hseq : ∀ r ∈ db.events, r.sequence ≠ row.sequence)
    (hsource : ∀ n, row.sourceSequence = some n → ∀ r ∈ db.events, r.sourceSequence ≠ some n) :
    insertTaskEvent db row = (.ok (), { db with events := db.events ++ [row] }) := by
  have hnone : (db.events.any fun r => r.sequence == row.sequence) = false := by simpa using hseq
  have hfree : (row.sourceSequence.isSome && db.events.any fun r => r.sourceSequence ==
      row.sourceSequence) = false := by
    cases hs : row.sourceSequence with
    | none => rfl
    | some n => simpa using hsource n hs
  simp only [insertTaskEvent, hnone, hfree]
  rfl

/-- **An event at the next sequence** is taken when its type, time, size and source are in order. -/
theorem append_taken (taskId : String) (ev : TaskEventInput) (h : EventsInv db cur)
    (hseq : ev.sequence = JsNum.ofInt (cur.lastEventSequence + 1)) (htype : isTaskEventType ev.eventType = true)
    (hts : isIsoUtc ev.ts = true) (hfits : byteLen (payloadText ev.payload) ≤ taskEventPayload)
    (hsource : ∀ n, ev.sourceSequence = some n → ∀ r ∈ db.events, r.sourceSequence ≠ some n) :
    appendTaskEventSync taskId db ev = (.ok (), extend db cur (appendedRow db.events.length ev)) := by
  have hnext : ev.sequence.mantissa = db.events.length := by
    rw [hseq, h.last]
    simp [JsNum.ofInt]
  have hint : isSequence ev.sequence = true := by
    have hpos : (0 : Int) ≤ cur.lastEventSequence + 1 := by
      rw [h.last]
      omega
    rw [hseq]
    exact Bool.and_eq_true_iff.mpr ⟨rfl, decide_eq_true hpos⟩
  have henc : encodeJson (ev.payload.getD .null) taskEventPayload "task_event.payload" = .ok (payloadText ev.payload) :=
    VibeAdmission.encodeJson_eq_ok.mpr ⟨hfits, rfl⟩
  have hpast : ¬ (db.events.length : Int) ≤ cur.lastEventSequence := by
    rw [h.last]
    omega
  have hgap : ¬ (db.events.length : Int) ≠ cur.lastEventSequence + 1 := by
    rw [h.last]
    omega
  have hins : insertTaskEvent db ⟨db.events.length, ev.eventType, ev.ts, payloadText ev.payload,
    ev.sourceSequence⟩ = _ :=
    insert_taken h.fresh_sequence hsource
  simp only [appendTaskEventSync, hint, htype, hts, h.task, henc, hnext, Int.toNat_natCast, if_neg hpast, if_neg hgap,
    hins, updateTask, extend, appendedRow]
  rfl

/-- The next source event, in a shape the store takes. -/
structure Ingestible (db : TaskTables) (cur : TaskRow) (n : JsNum) (ev : IngestSourceEvent) : Prop where
  task : db.task = some cur
  sequence : isSequence n = true
  accepted : Accepted ev
  expected : (n.mantissa.toNat : Int) = cur.expected
  fresh : ∀ r ∈ db.events, r.sourceSequence ≠ some (JsNum.ofInt n.mantissa.toNat)

/-- The row after the event is ingested. -/
def TaskRow.ingested (cur : TaskRow) (sequence source : Nat) (ev : IngestSourceEvent) : TaskRow :=
  settleStatus ev { cur with lastEventSequence := sequence, lastRemoteEventSequence := some (source : Int) }

/-- **The next source event is ingested.** -/
theorem ingest_taken (taskId : String) (h : EventsInv db cur) {n : JsNum} {ev : IngestSourceEvent}
    (hev : Ingestible db cur n ev) :
    ingestSourceEventDurable taskId db n ev = (.ok ⟨true, some db.events.length⟩,
      ⟨some (cur.ingested db.events.length n.mantissa.toNat ev),
        db.events ++ [imageRow db.events.length n.mantissa.toNat ev]⟩) := by
  have hnext : (cur.lastEventSequence + 1).toNat = db.events.length := by
    rw [h.last]
    omega
  have happend := append_taken taskId
    ⟨JsNum.ofInt (cur.lastEventSequence + 1), ev.eventType, ev.ts, ev.payload, some (JsNum.ofInt n.mantissa.toNat)⟩
    h rfl hev.accepted.eventType hev.accepted.ts hev.accepted.fits (fun m hm => by cases hm; exact hev.fresh)
  have henc : encodeJson (ev.payload.getD .null) taskEventPayload "task_event.payload" = .ok (payloadText ev.payload) :=
    VibeAdmission.encodeJson_eq_ok.mpr ⟨hev.accepted.fits, rfl⟩
  have hbelow : ¬ (n.mantissa.toNat : Int) < cur.expected := by
    rw [hev.expected]
    omega
  have habove : ¬ (n.mantissa.toNat : Int) > cur.expected := by
    rw [hev.expected]
    omega
  have hbody : ingestBody taskId n.mantissa.toNat ev db = (.ok ⟨true, some db.events.length⟩,
      ⟨some (cur.ingested db.events.length n.mantissa.toNat ev),
        db.events ++ [imageRow db.events.length n.mantissa.toNat ev]⟩) := by
    simp only [ingestBody, h.task, henc, if_neg hbelow, if_neg habove, happend, hnext, updateTask,
      extend, Option.map_some]
    rfl
  simp only [ingestSourceEventDurable, hev.sequence, hev.accepted.eventType, hev.accepted.ts, transaction, hbody]
  rfl

end

/-! ## Runs -/

def TaskTables.recorded (db : TaskTables) : Bool := db.task.any (·.terminalEventRecorded)

/-- The sequences of the events that a call records as terminal: an ingested event that says so, and
    the one with which a terminalization sets the flag. -/
def notedTerminal (before after : TaskTables) (c : StoreCall) : List Nat :=
  match c with
  | .events (.ingest _ ev) =>
    if ev.terminal then (after.events.drop before.events.length).map TaskEventRow.sequence else []
  | c =>
    match c.terminalEvent with
    | none => []
    | some ev => if !before.recorded && after.recorded then [ev.sequence.mantissa.toNat] else []

/-- The store, and the sequences of the terminal events that are recorded. -/
structure TaskState where
  store : TaskStore
  terminal : List Nat

/-- One call at its time. -/
def taskStep (taskId : String) (s : TaskState) (call : String × StoreCall) : TaskState :=
  let store := (callStore taskId call.1 s.store call.2).2
  { store := store, terminal := s.terminal ++ notedTerminal s.store.tables store.tables call.2 }

def createdStore (status : String) (replay : Bool) : TaskStore where
  tables := newTask status replay
  columns := ⟨1, none, none, none, none, none, none⟩
  result := none

def TaskState.initial (status : String) (replay : Bool) : TaskState := ⟨createdStore status replay, []⟩

/-- What a step must leave. -/
structure TerminalFinal (s s' : TaskState) : Prop where
  status : ∀ cur, s.store.tables.task = some cur → cur.terminal = true →
    ∃ cur', s'.store.tables.task = some cur' ∧ cur'.status = cur.status
  once : s'.terminal.length ≤ 1
  flag : ∀ cur, s'.store.tables.task = some cur → cur.terminalEventRecorded = true → cur.terminal = true
  result : ∀ r, s.store.result = some r → s'.store.result = some r

/-- A source event that ends the task comes when no terminal event is recorded, and with a terminal
    status; and no source event names another status than a terminal one that is recorded. -/
structure Respects (cur : TaskRow) (ev : IngestSourceEvent) : Prop where
  ends : ev.terminal = true → cur.terminalEventRecorded = false ∧ ev.status.getD cur.status ∈ taskTerminalStatuses
  keeps : cur.terminal = true → ∀ status, ev.status = some status → ev.terminal = true ∨ status ≠ "" →
    status = cur.status

/-- The next source event of the task respects what is recorded. -/
def Orderly (s : TaskState) (call : String × StoreCall) : Prop :=
  ∀ n ev cur, call.2 = .events (.ingest n ev) → Ingestible s.store.tables cur n ev → Respects cur ev

/-- What holds between the calls. -/
structure FinalInv (s : TaskState) (cur : TaskRow) : Prop where
  events : EventsInv s.store.tables cur
  flag : cur.terminalEventRecorded = true → cur.terminal = true
  once : s.terminal.length = if cur.terminalEventRecorded then 1 else 0

theorem FinalInv.initial (status : String) (replay : Bool) : ∃ cur, FinalInv (TaskState.initial status replay) cur := by
  obtain ⟨cur, he, -, -⟩ := newTask_inv status replay
  have hopen : cur.terminalEventRecorded = false := by
    have htask := he.task
    cases replay <;>
      cases htask <;>
      rfl
  refine ⟨cur, he, ?_, ?_⟩
  · rw [hopen]
    exact nofun
  · rw [hopen]
    rfl

section

variable {s : TaskState} {call : String × StoreCall} {taskId : String}

/-- The row after an event that respects it. -/
theorem settle_respects {t : TaskRow} {ev : IngestSourceEvent} (h : Respects t ev)
    (hflag : t.terminalEventRecorded = true → t.terminal = true) :
    (t.terminal = true → (settleStatus ev t).status = t.status) ∧
      ((settleStatus ev t).terminalEventRecorded = true → (settleStatus ev t).terminal = true) ∧
      ((settleStatus ev t).terminalEventRecorded = false → ev.terminal = false ∧ t.terminalEventRecorded = false) := by
  unfold settleStatus
  cases hev : ev.terminal with
  | true =>
    obtain ⟨hopen, hterm⟩ := h.ends hev
    simp only [hopen, Bool.not_false, Bool.and_self, if_true]
    refine ⟨?_, fun _ => List.contains_iff_mem.mpr hterm, nofun⟩
    intro ht
    cases hstatus : ev.status with
    | none => rfl
    | some status => exact h.keeps ht status hstatus (.inl hev)
  | false =>
    simp only [Bool.false_and, Bool.false_eq_true, if_false]
    cases hstatus : ev.status with
    | none => exact ⟨fun _ => rfl, hflag, fun hf => ⟨trivial, hf⟩⟩
    | some status =>
      by_cases hempty : status = ""
      · simp only [if_pos hempty]
        exact ⟨fun _ => trivial, hflag, fun hf => ⟨trivial, hf⟩⟩
      · simp only [if_neg hempty]
        have hkeep (ht : t.terminal = true) : status = t.status := h.keeps ht status hstatus (.inr hempty)
        refine ⟨hkeep, fun hf => ?_, fun hf => ⟨trivial, hf⟩⟩
        have ht := hflag hf
        simp only [TaskRow.terminal] at ht ⊢
        rw [hkeep ht]
        exact ht

/-- An event that does not respect the row leaves a changed status, a second terminal event or a
    terminal event without a terminal status. -/
theorem settle_violates {t : TaskRow} {ev : IngestSourceEvent} (hstatus : t.terminal = true →
    (settleStatus ev t).status = t.status)
    (hflag : (settleStatus ev t).terminalEventRecorded = true → (settleStatus ev t).terminal = true)
    (honce : ev.terminal = true → t.terminalEventRecorded = false) : Respects t ev := by
  constructor
  · intro hev
    have hopen := honce hev
    simp only [settleStatus, hev, hopen, Bool.not_false, Bool.and_self, if_true] at hflag
    exact ⟨hopen, List.contains_iff_mem.mp (hflag trivial)⟩
  · intro ht status hs hwritten
    have hkeep := hstatus ht
    cases hev : ev.terminal with
    | true =>
      simpa only [settleStatus, hev, honce hev, Bool.not_false, Bool.and_self, if_true, hs,
        Option.getD_some] using hkeep
    | false =>
      have hne : status ≠ "" := hwritten.resolve_left (by simp [hev])
      simpa only [settleStatus, hev, Bool.false_and, Bool.false_eq_true, if_false, hs, if_neg hne] using hkeep

/-- A step that keeps a terminal status, with at most one recording where the flag was not set. -/
theorem FinalInv.move {cur cur' : TaskRow} {db : TaskTables} (h : FinalInv s cur)
    (hstep : (taskStep taskId s call).store.tables = db) (he : EventsInv db cur')
    (hresult : ∀ r, s.store.result = some r → (taskStep taskId s call).store.result = some r)
    (hstatus : cur.terminal = true → cur'.status = cur.status)
    (hflag : cur'.terminalEventRecorded = true → cur'.terminal = true)
    (hnoted : cur.terminalEventRecorded.toNat + (notedTerminal s.store.tables db call.2).length =
      cur'.terminalEventRecorded.toNat) :
    FinalInv (taskStep taskId s call) cur' ∧ TerminalFinal s (taskStep taskId s call) := by
  subst hstep
  have hlen : (taskStep taskId s call).terminal.length = cur'.terminalEventRecorded.toNat := by
    rw [← hnoted]
    show (s.terminal ++ _).length = _
    rw [List.length_append, h.once]
    cases cur.terminalEventRecorded <;> rfl
  refine ⟨⟨he, hflag, ?_⟩, ⟨?_, ?_, ?_, hresult⟩⟩
  · rw [hlen]
    cases cur'.terminalEventRecorded <;> rfl
  · intro t ht hterm
    obtain rfl : t = cur := Option.some.inj (ht.symm.trans h.events.task)
    exact ⟨cur', he.task, hstatus hterm⟩
  · rw [hlen]
    cases cur'.terminalEventRecorded <;> decide
  · intro t ht
    obtain rfl : t = cur' := Option.some.inj (ht.symm.trans he.task)
    exact hflag

theorem step_tables : (taskStep taskId s call).store.tables = (callStore taskId call.1 s.store call.2).2.tables := rfl

/-- Another row at the same high-water mark. -/
theorem EventsInv.of_row {db : TaskTables} {cur cur' : TaskRow} (h : EventsInv db cur)
    (hlast : cur'.lastEventSequence = cur.lastEventSequence) : EventsInv ⟨some cur', db.events⟩ cur' :=
  ⟨rfl, h.contiguous, hlast.trans h.last, h.once⟩

/-- Another row at the sequence of a new event. -/
theorem EventsInv.of_push {db : TaskTables} {cur cur' : TaskRow} {row : TaskEventRow} (h : EventsInv db cur)
    (hnext : (row.sequence : Int) = cur.lastEventSequence + 1)
    (hfresh : ∀ n, row.sourceSequence = some n → ∀ r ∈ db.events, r.sourceSequence ≠ some n)
    (hlast : cur'.lastEventSequence = row.sequence) : EventsInv ⟨some cur', db.events ++ [row]⟩ cur' :=
  (h.extend hnext hfresh).of_row hlast

theorem noted_same {db db' : TaskTables} (c : StoreCall) (hevents : db'.events = db.events)
    (hrecorded : db'.recorded = db.recorded) : notedTerminal db db' c = [] := by
  have hnot : (!db.recorded && db'.recorded) = false := by
    rw [hrecorded]
    cases db.recorded <;> rfl
  unfold notedTerminal
  split
  · rw [hevents, List.drop_length]
    exact ite_self _
  · split
    · rfl
    · rw [hnot]
      rfl

theorem noted_ended {db db' : TaskTables} {c : StoreCall} {ev : TaskEventInput} (hcall : c.terminalEvent = some ev)
    (hbefore : db.recorded = false) (hafter : db'.recorded = true) : (notedTerminal db db' c).length = 1 := by
  cases c with
  | events => exact nomatch hcall
  | update => exact nomatch hcall
  | persistResult => exact nomatch hcall
  | terminalize => simp only [notedTerminal, StoreCall.terminalEvent, hbefore, hafter]; rfl
  | terminalizeWithResult => simp only [notedTerminal, StoreCall.terminalEvent, hbefore, hafter]; rfl

theorem noted_ingested {db db' : TaskTables} {n : JsNum} {ev : IngestSourceEvent} {row : TaskEventRow}
    (hevents : db'.events = db.events ++ [row]) :
    (notedTerminal db db' (.events (.ingest n ev))).length = ev.terminal.toNat := by
  unfold notedTerminal
  simp only [hevents, List.drop_left]
  cases ev.terminal <;> rfl

theorem recorded_of {db : TaskTables} {t : TaskRow} (h : db.task = some t) : db.recorded = t.terminalEventRecorded := by
  unfold TaskTables.recorded
  rw [h]
  rfl

theorem settleStatus_recorded (ev : IngestSourceEvent) (t : TaskRow) :
    (settleStatus ev t).terminalEventRecorded = (ev.terminal || t.terminalEventRecorded) := by
  unfold settleStatus
  cases hev : ev.terminal with
  | true =>
    cases ht : t.terminalEventRecorded with
    | false => rfl
    | true =>
      simp only [Bool.not_true, Bool.and_false, Bool.false_eq_true, if_false, Bool.or_self]
      split
      · split
        · exact ht
        · rfl
      · exact ht
  | false =>
    simp only [Bool.false_and, Bool.false_eq_true, if_false, Bool.false_or]
    split
    · split <;> rfl
    · rfl

/-- The row a source event is weighed against, whatever the cursors are. -/
theorem Respects.cursors {cur : TaskRow} {ev : IngestSourceEvent} (h : Respects cur ev) (last : Int)
    (remote : Option Int) :
    Respects { cur with lastEventSequence := last, lastRemoteEventSequence := remote } ev := ⟨h.ends, h.keeps⟩

/-- **The next source event**, ingested. -/
theorem ingest_inv {db : TaskTables} {cur : TaskRow} (h : EventsInv db cur) {n : JsNum} {ev : IngestSourceEvent}
    (hev : Ingestible db cur n ev) :
    EventsInv ⟨some (cur.ingested db.events.length n.mantissa.toNat ev),
      db.events ++ [imageRow db.events.length n.mantissa.toNat ev]⟩
      (cur.ingested db.events.length n.mantissa.toNat ev) := by
  have hnext : ((imageRow db.events.length n.mantissa.toNat ev).sequence : Int) = cur.lastEventSequence + 1 := by
    show (db.events.length : Int) = _
    rw [h.last]
    omega
  exact h.of_push hnext (fun m hm => by cases hm; exact hev.fresh) (settleStatus_last _ _).1

/-- **One call** that ingests nothing, or ingests an event that respects the row. -/
theorem step_final {cur : TaskRow} (h : FinalInv s cur) (hcall : Orderly s call) :
    ∃ cur', FinalInv (taskStep taskId s call) cur' ∧ TerminalFinal s (taskStep taskId s call) := by
  obtain ⟨hwritten, hresult⟩ := storeCall_cases taskId call.1 s.store call.2
  have hstep : (taskStep taskId s call).store.tables = _ := step_tables
  generalize hdb : (callStore taskId call.1 s.store call.2).2.tables = db at hwritten hstep
  obtain ⟨now, c⟩ := call
  have htask {t : TaskRow} (ht : s.store.tables.task = some t) :
    t = cur := Option.some.inj (ht.symm.trans h.events.task)
  have hbefore : s.store.tables.recorded = cur.terminalEventRecorded := recorded_of h.events.task
  -- a call that adds no event and leaves the flag
  have hquiet {cur' : TaskRow} (he : EventsInv db cur') (hevents : db.events = s.store.tables.events)
      (hrec : cur'.terminalEventRecorded = cur.terminalEventRecorded)
      (hstatus : cur.terminal = true → cur'.status = cur.status) :
      ∃ cur', FinalInv (taskStep taskId s (now, c)) cur' ∧ TerminalFinal s (taskStep taskId s (now, c)) := by
    refine ⟨cur', h.move hstep he hresult hstatus ?_ ?_⟩
    · intro hflag
      have hterm := h.flag (hrec ▸ hflag)
      simp only [TaskRow.terminal] at hterm ⊢
      rw [hstatus hterm]
      exact hterm
    · rw [noted_same c hevents ((recorded_of he.task).trans (hrec.trans hbefore.symm)), hrec]
      rfl
  cases hwritten with
  | kept => exact hquiet h.events rfl rfl (fun _ => rfl)
  | event hdone hsequence =>
    cases hdone with
    | repeated => exact hquiet h.events rfl rfl (fun _ => rfl)
    | kept => exact hquiet h.events rfl rfl (fun _ => rfl)
    | passed => exact hquiet h.events rfl rfl (fun _ => rfl)
    | advanced ht =>
      obtain rfl := htask ht
      exact hquiet (h.events.update _ rfl) rfl rfl (fun _ => rfl)
    | appended ht hnext hfresh =>
      obtain rfl := htask ht
      exact ⟨_, h.move hstep (h.events.of_push hnext hfresh rfl) hresult (fun _ => rfl) h.flag rfl⟩
    | @ingested n ev t k ht hacc hnext hexp hfresh =>
      obtain rfl := htask ht
      have hev : Respects t ev :=
        hcall n ev t rfl ⟨ht, hsequence n ev rfl, hacc, hexp, hfresh⟩
      obtain ⟨hstatus, hflag, -⟩ := settle_respects (hev.cursors k (some n.mantissa.toNat)) h.flag
      refine ⟨_, h.move hstep (h.events.of_push hnext (fun m hm => by cases hm; exact hfresh) (settleStatus_last _ _).1)
        hresult hstatus hflag ?_⟩
      rw [noted_ingested rfl, settleStatus_recorded]
      cases hend : ev.terminal with
      | false => rfl
      | true =>
        rw [(hev.ends hend).1]
        rfl
  | patched ht hfinal =>
    obtain rfl := htask ht
    exact hquiet (h.events.of_row rfl) rfl rfl hfinal
  | ended hc ht hlive hterm hfinal =>
    obtain rfl := htask ht
    refine ⟨_, h.move hstep (h.events.of_row rfl) hresult hfinal (fun _ => List.contains_iff_mem.mpr hterm) ?_⟩
    rw [noted_ended hc (hbefore.trans hlive) rfl, hlive]
    rfl
  | endedWith row hc ht hlive hterm hfinal hnext hfresh =>
    obtain rfl := htask ht
    refine ⟨_, h.move hstep (h.events.of_push hnext hfresh rfl) hresult hfinal
      (fun _ => List.contains_iff_mem.mpr hterm) ?_⟩
    rw [noted_ended hc (hbefore.trans hlive) rfl, hlive]
    rfl

/-- A step that keeps everything has ingested an event that respects the row, if any. -/
theorem orderly_of_final {cur : TaskRow} (h : FinalInv s cur) (hfinal : TerminalFinal s (taskStep taskId s call)) :
    Orderly s call := by
  intro n ev t hcall hev
  obtain rfl : t = cur := Option.some.inj (hev.task.symm.trans h.events.task)
  obtain ⟨now, c⟩ := call
  obtain rfl : c = .events (.ingest n ev) := hcall
  have htaken := ingest_taken taskId h.events hev
  have hstep : (taskStep taskId s (now, .events (.ingest n ev))).store.tables =
      ⟨some (t.ingested s.store.tables.events.length n.mantissa.toNat ev),
        s.store.tables.events ++ [imageRow s.store.tables.events.length n.mantissa.toNat ev]⟩ := by
    show (callStore taskId now s.store (.events (.ingest n ev))).2.tables = _
    simp only [callStore, callTask, htaken]
  have htask : (taskStep taskId s (now, .events (.ingest n ev))).store.tables.task =
      some (t.ingested s.store.tables.events.length n.mantissa.toNat ev) := by
    rw [hstep]
  have hrespects : Respects { t with
      lastEventSequence := s.store.tables.events.length,
        lastRemoteEventSequence := some (n.mantissa.toNat : Int) } ev := by
    refine settle_violates ?_ (hfinal.flag _ htask) ?_
    · intro hterm
      obtain ⟨cur', hcur', hstatus⟩ := hfinal.status t h.events.task hterm
      rw [htask] at hcur'
      cases hcur'
      exact hstatus
    · -- a second terminal event would be noted
      intro hend
      have honce := hfinal.once
      change (s.terminal ++ notedTerminal s.store.tables
        (taskStep taskId s (now, .events (.ingest n ev))).store.tables (.events (.ingest n ev))).length ≤ 1 at honce
      rw [List.length_append, h.once, hstep, noted_ingested rfl, hend] at honce
      cases hflag : t.terminalEventRecorded with
      | false => rfl
      | true =>
        rw [hflag] at honce
        exact absurd honce (by decide)
  exact ⟨hrespects.ends, hrespects.keeps⟩

end

/-- **A terminal status is final.**  Over every sequence of calls on a task: a terminal status stays,
    at most one terminal event is recorded, the flag stands with a terminal status and a stored result
    stays, exactly when every source event the store ingests respects the row it finds. -/
theorem terminal_final (taskId status : String) (replay : Bool) (calls : List (String × StoreCall)) :
    Always (taskStep taskId) Orderly (TaskState.initial status replay) calls ↔
      Always (taskStep taskId) (fun s call => TerminalFinal s (taskStep taskId s call))
        (TaskState.initial status replay) calls := by
  refine always_congr (fun s => ∃ cur, FinalInv s cur) ?_ ?_ (FinalInv.initial status replay) calls
  · rintro s call ⟨cur, h⟩ hcall
    obtain ⟨cur', h', -⟩ := step_final h hcall
    exact ⟨cur', h'⟩
  · rintro s call ⟨cur, h⟩
    constructor
    · intro hcall
      obtain ⟨-, -, hfinal⟩ := step_final h hcall
      exact hfinal
    · exact orderly_of_final h

/-- A task cancelled by its client, and the run's own end that arrives after it. -/
def lateCompletion : List (String × StoreCall) :=
  let ts := "2024-01-01T00:00:00Z"
  let patch : TaskPatch := ⟨some "cancelled", none, none, none, none, none, none, none⟩
  [(ts, .terminalize 1 patch ⟨JsNum.ofInt 0, "task.cancelled", ts, none, none⟩),
    (ts, .events (.ingest (JsNum.ofInt 0) ⟨"task.completed", ts, none, true, some "completed", none, none⟩))]

/-- The late event turns the cancelled task into a completed one and is its second terminal event. -/
theorem cancelled_then_completed :
    ¬ Always (taskStep "t") (fun s call => TerminalFinal s (taskStep "t" s call))
      (TaskState.initial "running" true) lateCompletion := by
  rintro ⟨-, hfinal, -⟩
  have honce := hfinal.once
  revert honce
  decide +kernel

end VibeTask
