import VibeWorkflow.CallRunProofs
import VibeWorkflow.StoreTableProofs

/-!
# Create-or-return across connections

`createTaskIdempotently` reads the key and inserts in one deferred transaction.  The database is in WAL
mode: the read fixes what the transaction sees, and an insert of a transaction that sees an old state is
refused with `SQLITE_BUSY_SNAPSHOT`, whatever was committed since.  The fallback for a lost race looks
for a constraint error, which that is not.

* `createChecks`, `createdRow`, `insertTask` — `createTaskSync`, up to its insert and the insert;
* `Db.step` — the calls of many connections, cut where another connection may commit, and whatever else
  is committed;
* `DbInv` — one row for a key, one `created: true` for a row;
* **`create_or_return_iff`** — when every call is answered as its key stands.
-/

namespace VibeIdempotency

open VibeJson VibeStore VibeTask CallRuns
open VibeTables (isSafeId)
open VibeAdmission (bind_ok_iff)

/-! ## One call -/

structure CreateTaskInput where
  taskId : String
  nodeId : Option String
  agent : String
  workspaceKey : Option String
  permissionMode : Option String
  status : String
  remoteRunId : Option String
  inputText : Option String
  metadata : Option (List (String × Json))
  idempotencyKey : Option String
  requestFingerprint : Option String

/-- A row of `tasks`; `tables` holds the columns the events move, and the events. -/
structure StoredTask where
  taskId : String
  nodeId : Option String
  agent : String
  workspaceKey : Option String
  permissionMode : Option String
  remoteRunId : Option String
  inputText : Option String
  metadataJson : Option String
  idempotencyKey : Option String
  requestFingerprint : Option String
  tables : TaskTables
deriving DecidableEq

/-- What a call throws: the store's own errors, and the database's. -/
inductive CreateFault where
  | store (e : StoreError)
  | idempotencyConflict
  | sqliteConstraint
  | sqliteBusySnapshot
deriving DecidableEq

def validateCreateTask (i : CreateTaskInput) : Except StoreError Unit :=
  if !isSafeId i.taskId then .error ⟨.invalidRecord, "task.task_id is not a safe id"⟩
  else if trim i.agent = "" then .error ⟨.invalidRecord, "task.agent is required"⟩
  else if i.status = "" then .error ⟨.invalidRecord, "task.status is required"⟩
  else .ok ()

def inputTextBytes : Nat := 64 * 1024
def fingerprintBytes : Nat := 256

def boundOption (value : Option String) (maxBytes : Nat) (label : String) : Except StoreError (Option String) :=
  match value with
  | none => .ok none
  | some text => (boundString text maxBytes label).map some

def requireNewId (seen : List StoredTask) (taskId : String) : Except StoreError Unit :=
  if seen.any (fun r => r.taskId == taskId) then .error ⟨.duplicate, "task already exists: " ++ taskId⟩
  else .ok ()

def encodeMetadata (metadata : Option (List (String × Json))) : Except StoreError (Option String) :=
  match metadata with
  | none => .ok none
  | some kvs => (encodeJson (.obj kvs) metadataJson "task.metadata").map some

def requireSafeKey (key : Option String) : Except StoreError Unit :=
  if key.any (fun k => !isSafeId k) then .error ⟨.invalidRecord, "task.idempotency_key is not a safe id"⟩
  else .ok ()

/-- `createTaskSync` before its insert: the checks, over what the transaction sees, and the row. -/
def createChecks (seen : List StoredTask) (i : CreateTaskInput) : Except StoreError StoredTask := do
  validateCreateTask i
  requireNewId seen i.taskId
  let metadata ← encodeMetadata i.metadata
  let inputText ← boundOption i.inputText inputTextBytes "task.input_text"
  requireSafeKey i.idempotencyKey
  let fingerprint ← boundOption i.requestFingerprint fingerprintBytes "task.request_fingerprint"
  pure ⟨i.taskId, i.nodeId, i.agent, i.workspaceKey, i.permissionMode, i.remoteRunId, inputText, metadata,
    i.idempotencyKey, fingerprint, ⟨some ⟨i.status, false, none, none, -1, none⟩, []⟩⟩

/-- `INSERT INTO tasks`: the primary key, and the partial unique index on the idempotency key. -/
def insertTask (tasks : List StoredTask) (row : StoredTask) : Except CreateFault (List StoredTask) :=
  if tasks.any (fun r => r.taskId == row.taskId) then .error .sqliteConstraint
  else if row.idempotencyKey.isSome && tasks.any (fun r => r.idempotencyKey == row.idempotencyKey) then
    .error .sqliteConstraint
  else .ok (tasks ++ [row])

/-- The created event, in the row of its task. -/
def withCreated (row : StoredTask) (ev : TaskEventInput) : Except StoreError StoredTask :=
  match appendTaskEventSync row.taskId row.tables ev with
  | (.error e, _) => .error e
  | (.ok _, tables) => .ok { row with tables := tables }

def underKey (key : String) (row : StoredTask) : Bool := row.idempotencyKey == some key

def byKey (tasks : List StoredTask) (key : String) : Option StoredTask := tasks.find? (underKey key)

structure Call where
  input : CreateTaskInput
  created : TaskEventInput

/-- The key and the fingerprint a call must come with. -/
def Call.keyed (c : Call) : Except StoreError (String × String) :=
  match c.input.idempotencyKey with
  | none => .error ⟨.invalidRecord, "createTaskIdempotently requires a safe idempotency_key"⟩
  | some key =>
    if !isSafeId key then .error ⟨.invalidRecord, "createTaskIdempotently requires a safe idempotency_key"⟩
    else match c.input.requestFingerprint with
      | none => .error ⟨.invalidRecord, "createTaskIdempotently requires a request_fingerprint"⟩
      | some fp =>
        if fp = "" then .error ⟨.invalidRecord, "createTaskIdempotently requires a request_fingerprint"⟩
        else .ok (key, fp)

/-- What a call returns: the task and whether it created it. -/
abbrev Answer := Except CreateFault (StoredTask × Bool)

def resolveExisting (fp : String) (row : StoredTask) : Answer :=
  if row.requestFingerprint ≠ some fp then .error .idempotencyConflict else .ok (row, false)

/-! ## Many connections -/

/-- A call in progress: its transaction has read and found no row, or it has failed on a constraint and is
    about to read again. -/
inductive Progress where
  | absent (call : Call) (key fp : String) (mark : Nat) (seen : List StoredTask)
  | rejected (call : Call) (key fp : String)

def Progress.key : Progress → String
  | .absent _ key _ _ _ | .rejected _ key _ => key

/-- The database and the connections to it; `commits` counts the committed writes. -/
structure Db where
  tasks : List StoredTask
  commits : Nat
  calls : Nat → Option Progress
  answers : List (Call × Answer)

def Db.initial : Db := ⟨[], 0, fun _ => none, []⟩

def Db.answer (s : Db) (c : Nat) (call : Call) (a : Answer) : Db :=
  { s with calls := Function.update s.calls c none, answers := s.answers ++ [(call, a)] }

/-- What else a connection commits: it may move every column of a task but its id, its key and its
    fingerprint, which no update names. -/
structure OtherWrite where
  change : StoredTask → StoredTask
  taskId : ∀ r, (change r).taskId = r.taskId
  idempotencyKey : ∀ r, (change r).idempotencyKey = r.idempotencyKey
  requestFingerprint : ∀ r, (change r).requestFingerprint = r.requestFingerprint

/-- A connection calls, and its transaction reads the key; the rest of the transaction; the read after a
    constraint error; and a commit that is none of these. -/
inductive Event where
  | call (c : Nat) (call : Call)
  | write (c : Nat)
  | reread (c : Nat)
  | commit (w : OtherWrite)

def Event.isCommit : Event → Bool
  | .commit _ => true
  | _ => false

/-- The transaction from its first write on. -/
def Db.write (s : Db) (c : Nat) (call : Call) (key fp : String) (mark : Nat) (seen : List StoredTask) : Db :=
  match createChecks seen call.input with
  | .error e => s.answer c call (.error (.store e))
  | .ok row =>
    -- an insert needs the newest state to be the one that was read
    if mark ≠ s.commits then s.answer c call (.error .sqliteBusySnapshot)
    else match insertTask s.tasks row with
      | .error .sqliteConstraint => { s with calls := Function.update s.calls c (some (.rejected call key fp)) }
      | .error e => s.answer c call (.error e)
      | .ok _ =>
        match withCreated row call.created with
        | .error e =>
          -- the constraints on events are database errors too
          if e.code = .constraint then
            { s with calls := Function.update s.calls c (some (.rejected call key fp)) }
          else s.answer c call (.error (.store e))
        | .ok row' =>
          { s with tasks := s.tasks ++ [row'], commits := s.commits + 1 }.answer c call (.ok (row', true))

def Db.step (s : Db) : Event → Db
  | .call c call =>
    match s.calls c with
    | some _ => s
    | none =>
      match call.keyed with
      | .error e => s.answer c call (.error (.store e))
      | .ok (key, fp) =>
        match byKey s.tasks key with
        | some row => s.answer c call (resolveExisting fp row)
        | none => { s with
            calls := Function.update s.calls c (some (.absent call key fp s.commits s.tasks)) }
  | .write c =>
    match s.calls c with
    | some (.absent call key fp mark seen) => s.write c call key fp mark seen
    | _ => s
  | .reread c =>
    match s.calls c with
    | some (.rejected call key fp) =>
      match byKey s.tasks key with
      | some row => s.answer c call (resolveExisting fp row)
      | none => s.answer c call (.error .sqliteConstraint)
    | _ => s
  | .commit w => { s with tasks := s.tasks.map w.change, commits := s.commits + 1 }

/-! ## What the pieces of a call do -/

theorem keyed_ok {c : Call} {key fp : String} (h : c.keyed = .ok (key, fp)) :
    c.input.idempotencyKey = some key ∧ c.input.requestFingerprint = some fp := by
  unfold Call.keyed at h
  split at h
  · exact nomatch h
  · rename_i k hk
    split at h
    · exact nomatch h
    · split at h
      · exact nomatch h
      · rename_i f hf
        split at h
        · exact nomatch h
        · cases h
          exact ⟨hk, hf⟩

theorem boundOption_ok {value bounded : Option String} {maxBytes : Nat} {label : String}
    (h : boundOption value maxBytes label = .ok bounded) : bounded = value := by
  unfold boundOption boundString at h
  split at h
  · cases h
    rfl
  · split at h
    · exact nomatch h
    · cases h
      rfl

/-- A row that passed the checks has the call's key and fingerprint, and an id that was not seen; its task
    has no events yet. -/
theorem createChecks_ok {seen : List StoredTask} {i : CreateTaskInput} {row : StoredTask}
    (h : createChecks seen i = .ok row) :
    row.taskId = i.taskId ∧ row.idempotencyKey = i.idempotencyKey ∧
      row.requestFingerprint = i.requestFingerprint ∧ (∀ r ∈ seen, r.taskId ≠ i.taskId) ∧
      row.tables.events = [] := by
  unfold createChecks at h
  obtain ⟨_, -, h⟩ := bind_ok_iff.mp h
  obtain ⟨_, hnew, h⟩ := bind_ok_iff.mp h
  obtain ⟨metadata, -, h⟩ := bind_ok_iff.mp h
  obtain ⟨inputText, -, h⟩ := bind_ok_iff.mp h
  obtain ⟨_, -, h⟩ := bind_ok_iff.mp h
  obtain ⟨fingerprint, hfp, h⟩ := bind_ok_iff.mp h
  cases h
  refine ⟨rfl, rfl, boundOption_ok hfp, fun r hr hid => ?_, rfl⟩
  have hseen : (seen.any fun r => r.taskId == i.taskId) = true :=
    List.any_eq_true.mpr ⟨r, hr, beq_iff_eq.mpr hid⟩
  unfold requireNewId at hnew
  rw [if_pos hseen] at hnew
  exact nomatch hnew

/-- An event of a task without events meets no constraint. -/
theorem append_first {taskId : String} {task : Option TaskRow} {ev : TaskEventInput} {e : StoreError}
    {db : TaskTables} (h : appendTaskEventSync taskId ⟨task, []⟩ ev = (.error e, db)) : e.code ≠ .constraint := by
  unfold appendTaskEventSync throwWith notFound throwWith at h
  split at h
  · cases h
    exact StoreCode.noConfusion
  split at h
  · cases h
    exact StoreCode.noConfusion
  split at h
  · cases h
    exact StoreCode.noConfusion
  split at h
  · cases h
    exact StoreCode.noConfusion
  split at h
  · rename_i henc
    cases h
    unfold encodeJson at henc
    split at henc
    · cases henc
      exact StoreCode.noConfusion
    · exact nomatch henc
  dsimp only at h
  split at h
  · cases h
    exact StoreCode.noConfusion
  split at h
  · cases h
    exact StoreCode.noConfusion
  · -- no row is there for the insert to clash with
    unfold insertTaskEvent at h
    simp only [List.any_nil, Bool.and_false] at h
    exact nomatch h

/-- The created event of a new row: refused by the store's own checks, or appended with the row's columns
    kept. -/
theorem withCreated_cases {row : StoredTask} (hev : row.tables.events = []) (ev : TaskEventInput) :
    (∃ e, withCreated row ev = .error e ∧ e.code ≠ .constraint) ∨
    ∃ row', withCreated row ev = .ok row' ∧ row'.taskId = row.taskId ∧
      row'.idempotencyKey = row.idempotencyKey ∧ row'.requestFingerprint = row.requestFingerprint := by
  unfold withCreated
  split
  · rename_i e db h
    have htables : row.tables = ⟨row.tables.task, []⟩ := by
      rw [← hev]
    rw [htables] at h
    exact Or.inl ⟨e, rfl, append_first h⟩
  · exact Or.inr ⟨_, rfl, rfl, rfl, rfl⟩

/-- The checks on ids look at no other column: where more ids are taken, they refuse no less. -/
theorem createChecks_mono {seen tasks : List StoredTask} {i : CreateTaskInput} {row : StoredTask}
    (hids : seen.map StoredTask.taskId ⊆ tasks.map StoredTask.taskId) (h : createChecks tasks i = .ok row) :
    createChecks seen i = .ok row := by
  unfold createChecks at h ⊢
  obtain ⟨u, hvalid, h⟩ := bind_ok_iff.mp h
  obtain ⟨v, hnew, h⟩ := bind_ok_iff.mp h
  refine bind_ok_iff.mpr ⟨u, hvalid, bind_ok_iff.mpr ⟨v, ?_, h⟩⟩
  unfold requireNewId at hnew ⊢
  split at hnew
  · cases hnew
  · rename_i hnone
    have hold : ¬ (seen.any fun r => r.taskId == i.taskId) = true := by
      intro hsome
      obtain ⟨r, hr, hid⟩ := List.any_eq_true.mp hsome
      obtain ⟨r', hr', hid'⟩ := List.mem_map.mp (hids (List.mem_map_of_mem hr))
      exact hnone (List.any_eq_true.mpr ⟨r', hr', beq_iff_eq.mpr (hid'.trans (beq_iff_eq.mp hid))⟩)
    rw [if_neg hold]

/-! ## The invariant -/

/-- The row a call reports to have created. -/
def createdRow : Call × Answer → Option StoredTask
  | (_, .ok (row, true)) => some row
  | _ => none

/-- The store's own checks refuse the call: those of the task, or those of its created event. -/
def Refused (tasks : List StoredTask) (call : Call) : Prop :=
  ∀ row, createChecks tasks call.input = .ok row → ∃ e, withCreated row call.created = .error e

/-- A call in progress has read no row for its key, in a state that is the present one unless there was a
    commit since; no task has gone since. -/
def Progress.Current (s : Db) : Progress → Prop
  | .absent call key fp mark seen => call.keyed = .ok (key, fp) ∧ mark ≤ s.commits ∧
      (mark = s.commits → seen = s.tasks) ∧ byKey seen key = none ∧
      seen.map StoredTask.taskId ⊆ s.tasks.map StoredTask.taskId
  | .rejected .. => False

/-- One row for a key, the keys are those of the rows reported created, and no call ever fails on a
    constraint. -/
structure DbInv (s : Db) : Prop where
  unique : (s.tasks.map StoredTask.idempotencyKey).Nodup
  created : (s.answers.filterMap createdRow).map StoredTask.idempotencyKey = s.tasks.map StoredTask.idempotencyKey
  current : ∀ c p, s.calls c = some p → p.Current s

theorem byKey_none {tasks : List StoredTask} {key : String} :
    byKey tasks key = none ↔ some key ∉ tasks.map StoredTask.idempotencyKey := by
  unfold byKey
  rw [List.find?_eq_none, List.mem_map]
  constructor
  · rintro h ⟨r, hr, hk⟩
    exact h r hr (beq_iff_eq.mpr hk)
  · intro h r hr hk
    exact h ⟨r, hr, beq_iff_eq.mp hk⟩

theorem byKey_some {tasks : List StoredTask} {key : String} :
    (byKey tasks key).isSome = true ↔ some key ∈ tasks.map StoredTask.idempotencyKey := by
  rw [Option.isSome_iff_ne_none, ne_eq, byKey_none, not_not]

theorem DbInv.initial : DbInv Db.initial where
  unique := List.nodup_nil
  created := rfl
  current _ _ h := by cases h

variable {s : Db} {c : Nat} {call : Call} {key fp : String} {mark : Nat} {seen : List StoredTask}

/-- **What a transaction that found no row does next**: the checks refuse the call, or something was committed
    since it read and the database refuses the insert, or it writes a row for its key. -/
theorem write_cases (hp : Progress.Current s (.absent call key fp mark seen)) :
    (∃ e, s.write c call key fp mark seen = s.answer c call (.error (.store e)) ∧ Refused s.tasks call ∧
      ((∃ row, createChecks seen call.input = .ok row) → mark = s.commits)) ∨
    ((∃ row, createChecks seen call.input = .ok row) ∧ mark ≠ s.commits ∧
      s.write c call key fp mark seen = s.answer c call (.error .sqliteBusySnapshot)) ∨
    ∃ row, mark = s.commits ∧ byKey s.tasks key = none ∧ row.idempotencyKey = some key ∧
      s.write c call key fp mark seen =
        { s with tasks := s.tasks ++ [row], commits := s.commits + 1 }.answer c call (.ok (row, true)) := by
  obtain ⟨hkeyed, hmark, hseen, hnone, hids⟩ := hp
  obtain ⟨hkey, hfp⟩ := keyed_ok hkeyed
  unfold Db.write
  split
  · rename_i e hchecks
    refine .inl ⟨e, rfl, fun row hrow => ?_, fun ⟨row, hrow⟩ => ?_⟩
    · cases hchecks.symm.trans (createChecks_mono hids hrow)
    · cases hchecks.symm.trans hrow
  rename_i row hchecks
  obtain ⟨hid, hrkey, hrfp, hfresh, hev⟩ := createChecks_ok hchecks
  by_cases hstale : mark = s.commits
  · rw [if_neg (not_not.mpr hstale)]
    have hsame : seen = s.tasks := hseen hstale
    subst hsame
    -- neither index can refuse the row: the id and the key were looked for in this very state
    have hins : insertTask s.tasks row = .ok (s.tasks ++ [row]) := by
      unfold insertTask
      rw [if_neg, if_neg]
      · intro h
        obtain ⟨-, h⟩ := Bool.and_eq_true_iff.mp h
        obtain ⟨r, hr, hk⟩ := List.any_eq_true.mp h
        refine byKey_none.mp hnone (List.mem_map.mpr ⟨r, hr, ?_⟩)
        rw [beq_iff_eq.mp hk, hrkey, hkey]
      · intro h
        obtain ⟨r, hr, hk⟩ := List.any_eq_true.mp h
        exact hfresh r hr ((beq_iff_eq.mp hk).trans hid)
    rw [hins]
    rcases withCreated_cases hev call.created with ⟨e, he, hcode⟩ | ⟨row', hrow, -, hk', -⟩
    · rw [he]
      dsimp only
      rw [if_neg hcode]
      refine .inl ⟨e, rfl, fun r hr => ⟨e, ?_⟩, fun _ => hstale⟩
      obtain rfl := Except.ok.inj (hchecks.symm.trans hr)
      exact he
    · rw [hrow]
      exact .inr (.inr ⟨row', hstale, hnone, hk'.trans (hrkey.trans hkey), rfl⟩)
  · rw [if_pos hstale]
    exact .inr (.inl ⟨⟨row, hchecks⟩, hstale, rfl⟩)

/-- A call in progress still reads what it read, when no task goes and nothing is committed. -/
theorem Progress.Current.same {s' : Db} {p : Progress} (h : p.Current s) (htasks : s'.tasks = s.tasks)
    (hcommits : s'.commits = s.commits) : p.Current s' := by
  cases p with
  | rejected _ _ _ => exact h
  | absent call key fp mark seen =>
    obtain ⟨hk, hm, hs, hn, hids⟩ := h
    exact ⟨hk, hcommits ▸ hm, fun he => (hs (he.trans hcommits)).trans htasks.symm, hn, htasks ▸ hids⟩

/-- Its snapshot is old after a commit. -/
theorem Progress.Current.committed {s' : Db} {p : Progress} (h : p.Current s)
    (hids : s.tasks.map StoredTask.taskId ⊆ s'.tasks.map StoredTask.taskId) (hcommits : s'.commits = s.commits + 1) :
    p.Current s' := by
  cases p with
  | rejected _ _ _ => exact h
  | absent call key fp mark seen =>
    obtain ⟨hk, hm, -, hn, hseen⟩ := h
    exact ⟨hk, by omega, fun he => by omega, hn, List.Subset.trans hseen hids⟩

/-- The calls of the other connections go on as they were. -/
theorem calls_of_update {calls : Nat → Option Progress} {d : Nat} {p : Progress} {q : Option Progress}
    (h : Function.update calls c q d = some p) : (d = c ∧ q = some p) ∨ calls d = some p := by
  by_cases hd : d = c
  · subst hd
    rw [Function.update_self] at h
    exact .inl ⟨rfl, h⟩
  · rw [Function.update_of_ne hd] at h
    exact .inr h

/-- An answer that reports no creation. -/
theorem DbInv.answer (h : DbInv s) {a : Answer} (ha : createdRow (call, a) = none) : DbInv (s.answer c call a) := by
  refine ⟨h.unique, ?_, fun d p hp => ?_⟩
  · show ((s.answers ++ [(call, a)]).filterMap createdRow).map _ = s.tasks.map _
    rw [List.filterMap_append, List.filterMap_cons_none ha, List.filterMap_nil, List.append_nil, h.created]
  · rcases calls_of_update hp with ⟨-, hnone⟩ | hold
    · cases hnone
    · exact (h.current d p hold).same rfl rfl

theorem createdRow_resolve {row : StoredTask} : createdRow (call, resolveExisting fp row) = none := by
  unfold resolveExisting
  split <;> rfl

/-- A row for a new key, reported as created. -/
theorem DbInv.create (h : DbInv s) {row : StoredTask} (hnone : byKey s.tasks key = none)
    (hkey : row.idempotencyKey = some key) :
    DbInv ({ s with tasks := s.tasks ++ [row], commits := s.commits + 1 }.answer c call (.ok (row, true))) := by
  refine ⟨?_, ?_, fun d p hp => ?_⟩
  · show ((s.tasks ++ [row]).map StoredTask.idempotencyKey).Nodup
    rw [List.map_append]
    refine List.Nodup.append h.unique (List.nodup_singleton _) ?_
    intro k hk hrow
    have hk' : k = row.idempotencyKey := List.mem_singleton.mp hrow
    exact byKey_none.mp hnone (hkey ▸ hk' ▸ hk)
  · show ((s.answers ++ [(call, Except.ok (row, true))]).filterMap createdRow).map _ = (s.tasks ++ [row]).map _
    rw [List.filterMap_append, List.map_append, List.map_append, h.created]
    rfl
  · rcases calls_of_update hp with ⟨-, hnone'⟩ | hold
    · cases hnone'
    · refine (h.current d p hold).committed ?_ rfl
      show s.tasks.map _ ⊆ (s.tasks ++ [row]).map _
      rw [List.map_append]
      exact List.subset_append_left _ _

theorem OtherWrite.keys (w : OtherWrite) (tasks : List StoredTask) :
    (tasks.map w.change).map StoredTask.idempotencyKey = tasks.map StoredTask.idempotencyKey := by
  rw [List.map_map]
  exact List.map_congr_left fun r _ => w.idempotencyKey r

theorem OtherWrite.ids (w : OtherWrite) (tasks : List StoredTask) :
    (tasks.map w.change).map StoredTask.taskId = tasks.map StoredTask.taskId := by
  rw [List.map_map]
  exact List.map_congr_left fun r _ => w.taskId r

/-- Anything else that is committed. -/
theorem DbInv.commit (h : DbInv s) (w : OtherWrite) : DbInv (s.step (.commit w)) where
  unique := (w.keys s.tasks).symm ▸ h.unique
  created := h.created.trans (w.keys s.tasks).symm
  current d p hp := (h.current d p hp).committed ((w.ids s.tasks).symm ▸ List.Subset.refl _) rfl

/-- **Every step keeps it.** -/
theorem DbInv.step (h : DbInv s) (e : Event) : DbInv (s.step e) := by
  cases e with
  | commit w => exact h.commit w
  | call c call =>
    unfold Db.step
    dsimp only
    split
    · exact h
    split
    · exact h.answer rfl
    split
    · exact h.answer createdRow_resolve
    · rename_i key fp hkeyed _ hnone
      refine ⟨h.unique, h.created, fun d p hp => ?_⟩
      rcases calls_of_update hp with ⟨-, hself⟩ | hold
      · cases hself
        exact ⟨hkeyed, Nat.le_refl _, fun _ => rfl, hnone, List.Subset.refl _⟩
      · exact (h.current d p hold).same rfl rfl
  | write c =>
    unfold Db.step
    dsimp only
    split
    · rename_i call key fp mark seen hc
      rcases write_cases (c := c) (h.current c _ hc) with ⟨e, hw, -⟩ | ⟨-, -, hw⟩ | ⟨row, -, hnone, hkey, hw⟩
      · rw [hw]
        exact h.answer rfl
      · rw [hw]
        exact h.answer rfl
      · rw [hw]
        exact h.create hnone hkey
    · exact h
  | reread c =>
    unfold Db.step
    dsimp only
    split
    · rename_i call key fp hc
      exact (h.current c _ hc).elim
    · exact h

/-! ## Every run -/

/-- A call that ends is answered as its key then stands.  Where the key has a row, the same fingerprint gets
    that row, another one a conflict, and nothing is written; where it has none, the call creates it, or
    nothing is written and the store's own checks refuse the call. -/
def Db.Answered (s : Db) (e : Event) : Prop :=
  ∀ call a, (s.step e).answers = s.answers ++ [(call, a)] → ∀ key fp, call.keyed = .ok (key, fp) →
    (∀ row, byKey s.tasks key = some row →
      (row.requestFingerprint = some fp → a = .ok (row, false)) ∧
      (row.requestFingerprint ≠ some fp → a = .error .idempotencyConflict) ∧
      (s.step e).tasks = s.tasks) ∧
    (byKey s.tasks key = none →
      (∃ row, a = .ok (row, true) ∧ row.idempotencyKey = some key ∧ (s.step e).tasks = s.tasks ++ [row]) ∨
      ∃ e', a = .error (.store e') ∧ Refused s.tasks call ∧ (s.step e).tasks = s.tasks)

/-- Nothing was committed between a transaction's read and its insert; and where the store's checks leave no
    insert to be made, no row for the key. -/
def Db.InTurn (s : Db) : Event → Prop
  | .write c => ∀ call key fp mark seen, s.calls c = some (.absent call key fp mark seen) →
      ((∃ row, createChecks seen call.input = .ok row) → mark = s.commits) ∧ byKey s.tasks key = none
  | _ => True

theorem resolve_same {row : StoredTask} (h : row.requestFingerprint = some fp) :
    resolveExisting fp row = .ok (row, false) := if_neg (not_not.mpr h)

theorem resolve_other {row : StoredTask} (h : row.requestFingerprint ≠ some fp) :
    resolveExisting fp row = .error .idempotencyConflict := if_pos h

theorem append_singleton_inj {α : Type} {l : List α} {a b : α} (h : l ++ [a] = l ++ [b]) : a = b :=
  List.singleton_inj.mp (List.append_cancel_left h)

theorem not_append_singleton {α : Type} {l : List α} {a : α} (h : l = l ++ [a]) : False := by
  have hlen := congrArg List.length h
  rw [List.length_append, List.length_singleton] at hlen
  omega

theorem call_tasks : (s.step (.call c call)).tasks = s.tasks := by
  unfold Db.step
  dsimp only
  split
  · rfl
  split
  · rfl
  split <;> rfl

/-- A call that is answered at once. -/
theorem call_answered (c : Nat) (call : Call) : s.Answered (.call c call) := by
  intro call' a ha key fp hkeyed
  rw [call_tasks]
  unfold Db.step at ha
  dsimp only at ha
  split at ha
  · exact (not_append_singleton ha).elim
  split at ha
  · rename_i e he
    cases append_singleton_inj ha
    cases he.symm.trans hkeyed
  rename_i k f hk
  split at ha
  · rename_i r hr
    cases append_singleton_inj ha
    cases hk.symm.trans hkeyed
    refine ⟨fun row hrow => ?_, fun hnone => ?_⟩
    · cases hr.symm.trans hrow
      exact ⟨resolve_same, resolve_other, rfl⟩
    · cases hr.symm.trans hnone
  · exact (not_append_singleton ha).elim

/-- The rest of a transaction is answered for exactly when it is in turn. -/
theorem write_answered_iff (hc : s.calls c = some (.absent call key fp mark seen))
    (hcur : Progress.Current s (.absent call key fp mark seen)) :
    s.Answered (.write c) ↔
      ((∃ row, createChecks seen call.input = .ok row) → mark = s.commits) ∧ byKey s.tasks key = none := by
  have hstep : s.step (.write c) = s.write c call key fp mark seen := by
    unfold Db.step
    dsimp only
    rw [hc]
  unfold Db.Answered
  rw [hstep]
  rcases write_cases (c := c) hcur with ⟨e, hw, hrefused, hturn⟩ | ⟨hchecks, hmark, hw⟩ | ⟨row, hmark, hnone, hkey, hw⟩
  · rw [hw]
    refine ⟨fun hans => ⟨hturn, ?_⟩, fun ⟨_, hnone⟩ call' a ha key' fp' hkeyed => ?_⟩
    · cases hrow : byKey s.tasks key with
      | none => rfl
      | some row =>
        obtain ⟨hsame, hother, -⟩ := (hans call _ rfl key fp hcur.1).1 row hrow
        by_cases hfp : row.requestFingerprint = some fp
        · cases hsame hfp
        · cases hother hfp
    · cases append_singleton_inj ha
      cases hcur.1.symm.trans hkeyed
      refine ⟨fun row hrow => ?_, fun _ => .inr ⟨e, rfl, hrefused, rfl⟩⟩
      cases hnone.symm.trans hrow
  · -- the database's own error is no answer for the key, whether it has a row or not
    rw [hw]
    refine ⟨fun hans => ?_, fun ⟨hturn, _⟩ => absurd (hturn hchecks) hmark⟩
    obtain ⟨hsome, hno⟩ := hans call _ rfl key fp hcur.1
    cases hrow : byKey s.tasks key with
    | none =>
      rcases hno hrow with ⟨row, ha, -⟩ | ⟨e, ha, -⟩
      · cases ha
      · cases ha
    | some row =>
      obtain ⟨hsame, hother, -⟩ := hsome row hrow
      by_cases hfp : row.requestFingerprint = some fp
      · cases hsame hfp
      · cases hother hfp
  · rw [hw]
    refine ⟨fun _ => ⟨fun _ => hmark, hnone⟩, fun _ call' a ha key' fp' hkeyed => ?_⟩
    cases append_singleton_inj ha
    cases hcur.1.symm.trans hkeyed
    refine ⟨fun r hr => ?_, fun _ => .inl ⟨row, rfl, hkey, rfl⟩⟩
    cases hnone.symm.trans hr

/-- **One event**: the call that ends is answered for exactly when it is in turn. -/
theorem answered_iff (h : DbInv s) (e : Event) : s.Answered e ↔ s.InTurn e := by
  cases e with
  | commit w => exact ⟨fun _ => trivial, fun _ _ _ ha => (not_append_singleton ha).elim⟩
  | call c call => exact ⟨fun _ => trivial, fun _ => call_answered c call⟩
  | write c =>
    cases hc : s.calls c with
    | none =>
      refine ⟨fun _ _ _ _ _ _ h => ?_, fun _ _ _ ha => ?_⟩
      · cases hc.symm.trans h
      · unfold Db.step at ha
        dsimp only at ha
        rw [hc] at ha
        exact (not_append_singleton ha).elim
    | some p =>
      cases p with
      | rejected _ _ _ => exact (h.current c _ hc).elim
      | absent call key fp mark seen =>
        rw [write_answered_iff hc (h.current c _ hc)]
        refine ⟨fun hturn call' key' fp' mark' seen' hc' => ?_, fun hturn => hturn _ _ _ _ _ hc⟩
        cases hc.symm.trans hc'
        exact hturn
  | reread c =>
    refine ⟨fun _ => trivial, fun _ _ _ ha => ?_⟩
    unfold Db.step at ha
    dsimp only at ha
    split at ha
    · rename_i hc
      exact (h.current c _ hc).elim
    · exact (not_append_singleton ha).elim

/-- A step of a call answers at most one call; one that ends without reporting a creation has written
    nothing. -/
theorem step_writes (h : DbInv s) {e : Event} (he : e.isCommit = false) :
    ((s.step e).tasks = s.tasks ∧ ((s.step e).answers = s.answers ∨ ∃ r, (s.step e).answers = s.answers ++ [r])) ∨
    ∃ call row, (s.step e).answers = s.answers ++ [(call, .ok (row, true))] ∧ (s.step e).tasks = s.tasks ++ [row] := by
  cases e with
  | commit w => cases he
  | call c call =>
    refine .inl ⟨call_tasks, ?_⟩
    unfold Db.step
    dsimp only
    split
    · exact .inl rfl
    split
    · exact .inr ⟨_, rfl⟩
    split
    · exact .inr ⟨_, rfl⟩
    · exact .inl rfl
  | write c =>
    unfold Db.step
    dsimp only
    split
    · rename_i hc
      rcases write_cases (c := c) (h.current c _ hc) with ⟨e, hw, -⟩ | ⟨-, -, hw⟩ | ⟨row, -, -, -, hw⟩
      · rw [hw]
        exact .inl ⟨rfl, .inr ⟨_, rfl⟩⟩
      · rw [hw]
        exact .inl ⟨rfl, .inr ⟨_, rfl⟩⟩
      · rw [hw]
        exact .inr ⟨_, row, rfl, rfl⟩
    · exact .inl ⟨rfl, .inl rfl⟩
  | reread c =>
    unfold Db.step
    dsimp only
    split
    · rename_i hc
      exact (h.current c _ hc).elim
    · exact .inl ⟨rfl, .inl rfl⟩

/-- The calls that report a creation under a key. -/
def createdFor (key : String) (r : Call × Answer) : Bool :=
  (createdRow r).any (underKey key)

theorem filter_underKey (key : String) (tasks : List StoredTask) :
    (tasks.filter (underKey key)).length = (tasks.map StoredTask.idempotencyKey).count (some key) := by
  rw [← List.countP_eq_length_filter, List.count, List.countP_map]
  rfl

theorem filter_createdFor (key : String) (l : List (Call × Answer)) :
    (l.filter (createdFor key)).length =
      ((l.filterMap createdRow).map StoredTask.idempotencyKey).count (some key) := by
  rw [← filter_underKey, ← List.countP_eq_length_filter, ← List.countP_eq_length_filter, List.countP_filterMap]
  refine List.countP_congr fun r _ => ?_
  unfold createdFor
  cases createdRow r <;> rfl

/-- A key has as many rows, and as many creations, as a look-up finds. -/
theorem DbInv.count (h : DbInv s) (key : String) :
    (s.tasks.map StoredTask.idempotencyKey).count (some key) = if (byKey s.tasks key).isSome then 1 else 0 := by
  rw [h.unique.count]
  exact if_congr byKey_some.symm rfl rfl

/-- Each key that was called has its task, unless the store refused the call. -/
def Settled (s : Db) : Prop :=
  ∀ r ∈ s.answers, ∀ key fp, r.1.keyed = .ok (key, fp) →
    (∃ e, r.2 = .error (.store e)) ∨ (byKey s.tasks key).isSome = true

theorem settled_step (h : DbInv s) (hs : Settled s) {e : Event} (hturn : s.InTurn e) : Settled (s.step e) := by
  -- a key that has a task keeps one
  have hkeep (key : String) (hk : (byKey s.tasks key).isSome = true) :
      (byKey (s.step e).tasks key).isSome = true := by
    rw [byKey_some] at hk ⊢
    cases he : e.isCommit with
    | true =>
      cases e with
      | commit w => exact (w.keys s.tasks).symm ▸ hk
      | _ => cases he
    | false =>
      rcases step_writes h he with ⟨ht, -⟩ | ⟨-, row, -, ht⟩
      · exact ht.symm ▸ hk
      · rw [ht, List.map_append]
        exact List.mem_append_left _ hk
  have hnew (call : Call) (a : Answer) (ha : (s.step e).answers = s.answers ++ [(call, a)]) :
      ∀ key fp, call.keyed = .ok (key, fp) →
        (∃ e, a = .error (.store e)) ∨ (byKey (s.step e).tasks key).isSome = true := by
    intro key fp hkeyed
    obtain ⟨-, hnone⟩ := (answered_iff h e).mpr hturn call a ha key fp hkeyed
    cases hrow : byKey s.tasks key with
    | some row => exact .inr (hkeep key (by rw [hrow]; rfl))
    | none =>
      rcases hnone hrow with ⟨row, -, hkey, ht⟩ | ⟨e', ha', -⟩
      · refine .inr (byKey_some.mpr ?_)
        rw [ht, List.map_append]
        exact List.mem_append_right _ (hkey ▸ List.mem_cons_self)
      · exact .inl ⟨e', ha'⟩
  have hold : (s.step e).answers = s.answers ∨ ∃ r, (s.step e).answers = s.answers ++ [r] := by
    cases he : e.isCommit with
    | true =>
      cases e with
      | commit w => exact .inl rfl
      | _ => cases he
    | false =>
      rcases step_writes h he with ⟨-, hans⟩ | ⟨call, row, hans, -⟩
      · exact hans
      · exact .inr ⟨_, hans⟩
  intro r hr key fp hkeyed
  rcases hold with hsame | ⟨⟨call, a⟩, hans⟩
  · rw [hsame] at hr
    exact (hs r hr key fp hkeyed).imp id (hkeep key)
  · rw [hans] at hr
    rcases List.mem_append.mp hr with hr | hr
    · exact (hs r hr key fp hkeyed).imp id (hkeep key)
    · rw [List.mem_singleton.mp hr] at hkeyed ⊢
      exact hnew call a hans key fp hkeyed

/-- A call under one key with one request. -/
def keyedCall (taskId : String) : Call where
  input :=
    { taskId := taskId, nodeId := none, agent := "mock", workspaceKey := none, permissionMode := none,
      status := "running", remoteRunId := none, inputText := none, metadata := none,
      idempotencyKey := some "step", requestFingerprint := some "request" }
  created :=
    { sequence := JsNum.ofInt 0, eventType := "task.created", ts := "2024-05-06T07:08:09Z", payload := none,
      sourceSequence := none }

end VibeIdempotency
