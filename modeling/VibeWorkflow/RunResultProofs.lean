import VibeWorkflow.RunEventProofs

/-!
# The durable result of a run

A Node keeps a run's result in its journal.  The run's own finalization stores it, when the tail reads
the terminal event; a `run_result_request` that finds none stores what the run record gives at that
moment.  The first write wins.

* `persistRunResult_keeps` — a stored result is never replaced;
* **`reading_keeps_result`** — a run ends with the same result, and later requests get the same answer,
  as without the requests, exactly when no request stores another result than the run's own.
-/

namespace VibeRunResult

open VibeJson VibeJournal VibeRun VibeResult CallRuns

/-- The fields of a run record that the result is taken from. -/
structure RunRecord where
  resultStatus : Option String
  taskResult : Option Json
deriving DecidableEq

/-- A run on its Node: the journal's rows, the stored result and the run record. -/
structure NodeState where
  journal : RunTables
  result : Option ResultRow
  record : Option RunRecord

def NodeState.initial : NodeState := ⟨RunTables.empty, none, none⟩

structure NodeRunResult where
  resultStatus : String
  result : Option AgentTaskResult
deriving DecidableEq

def resultEncoding : Encoding JournalError where
  json value name := encodeJson value (256 * 1024) ("run_result." ++ name)
  text value :=
    if byteLen value > maxFinalOutputBytes then .error ⟨.tooLarge, "run_result.final_output exceeds the size limit"⟩
    else .ok value

/-- A value that an `if` takes for true. -/
def truthy : Json → Bool
  | .null => false
  | .bool b => b
  | .num n => n ≠ JsNum.ofInt 0
  | .str s => s ≠ ""
  | _ => true

/-! ## Writing and reading the result -/

/-- One transaction: a throw takes back the row `ensureRun` added. -/
def persistRunResult (s : NodeState) (resultStatus : String) (result : Option AgentTaskResult) :
    Except JournalError Bool × NodeState :=
  let journal := ensureRun s.journal "running"
  match s.result with
  | some existing =>
    match rowMatches resultEncoding existing resultStatus result with
    | .error e => (.error e, s)
    | .ok true => (.ok false, { s with journal := journal })
    | .ok false => (.error ⟨.resultConflict, "a different run result already exists (content mismatch)"⟩, s)
  | none =>
    match rowOf resultEncoding resultStatus result with
    | .error e => (.error e, s)
    | .ok row => (.ok true, { s with journal := journal, result := some row })

section

variable (sha256 : String → String) (jsonParse : String → Option Json)

/-- The status and the result that a run record gives. -/
def recordResult (record : Option RunRecord) : String × Option AgentTaskResult :=
  let status := (record.bind (·.resultStatus)).getD "missing"
  if status = "available" then
    match (record.bind (·.taskResult)).filter truthy with
    | none => ("missing", none)
    | some value =>
      match validateTaskResult sha256 value with
      | .ok result => ("available", some result)
      | .error _ => ("invalid", none)
  else (status, none)

def persistTerminalResult (s : NodeState) : Except JournalError Bool × NodeState :=
  persistRunResult s (recordResult sha256 s.record).1 (recordResult sha256 s.record).2

def decodeJson (text : String) (maxBytes : Nat) (label : String) : Except JournalError Json :=
  if byteLen text > maxBytes then
    .error ⟨.corruption, label ++ ": persisted JSON exceeds " ++ toString maxBytes ++ " bytes"⟩
  else match jsonParse text with
  | none => .error ⟨.corruption, label ++ ": persisted JSON is malformed"⟩
  | some value => .ok value

def codeText : ResultCode → String
  | .unsupportedSchemaVersion => "unsupported_schema_version"
  | .invalidResult => "invalid_result"
  | .resultTooLarge => "result_too_large"
  | .contentHashMismatch => "content_hash_mismatch"

/-- The persisted envelope, put together again for the validator. -/
def envelopeOf (row : ResultRow) : Except JournalError Json := do
  let evidence ← decodeJson jsonParse row.evidenceRefsJson (256 * 1024) "run_result.evidence_refs"
  let artifacts ← decodeJson jsonParse row.artifactRefsJson (256 * 1024) "run_result.artifact_refs"
  let verification ← match row.verificationJson with
    | none => pure []
    | some text => do
      let value ← decodeJson jsonParse text (256 * 1024) "run_result.verification"
      pure [("verification", value)]
  return .obj ([("schema_version", .str row.schemaVersion),
    ("final_output", .obj [("kind", .str "text"), ("text", .str (row.finalOutputText.getD ""))]),
    ("process_exit_code", row.processExitCode.elim .null .num),
    ("finalized_at", .str (row.finalizedAt.getD "")), ("content_hash", .str (row.contentHash.getD "")),
    ("evidence_refs", evidence), ("artifact_refs", artifacts)] ++ verification)

def getRunResult (s : NodeState) : Except JournalError (Option NodeRunResult) :=
  match s.result with
  | none => .ok none
  | some row =>
    if row.resultStatus ≠ "available" then .ok (some ⟨row.resultStatus, none⟩)
    else do
      let envelope ← envelopeOf jsonParse row
      match validateTaskResult sha256 envelope with
      | .error fault => .error ⟨.corruption, "persisted run result is invalid (" ++ codeText fault.code ++ ")"⟩
      | .ok value => .ok (some ⟨"available", some value⟩)

/-- The answer to a request, and the state it leaves.  Only the first read can throw out of it. -/
def resolveNodeRunResult (s : NodeState) : Except JournalError NodeRunResult × NodeState :=
  match getRunResult sha256 jsonParse s with
  | .error e => (.error e, s)
  | .ok (some nr) => (.ok nr, s)
  | .ok none =>
    match persistTerminalResult sha256 s with
    | (.error _, s') => (.ok ⟨"missing", none⟩, s')
    | (.ok _, s') =>
      match getRunResult sha256 jsonParse s' with
      | .ok (some nr) => (.ok nr, s')
      | _ => (.ok ⟨"missing", none⟩, s')

/-! ## Runs -/

inductive NodeAction where
  | record (record : Option RunRecord)     -- the run's own processes write its record
  | event (now : String) (event : Json)    -- the tail reads a line of the run's log
  | request                                -- a `run_result_request`

/-- A parsed `null` has no fields to read: the line is skipped. -/
def tailEvent (s : NodeState) (now : String) (event : Json) : NodeState :=
  if event = .null then s
  else
    match append s.journal (journalInput now event) with
    | (.error _, journal) => { s with journal := journal }
    | (.ok _, journal) =>
      if isTerminal event then (persistTerminalResult sha256 { s with journal := journal }).2
      else { s with journal := journal }

def nodeStep (s : NodeState) : NodeAction → NodeState
  | .record record => { s with record := record }
  | .event now event => tailEvent sha256 s now event
  | .request => (resolveNodeRunResult sha256 jsonParse s).2

end

def NodeAction.own : NodeAction → Bool
  | .request => false
  | _ => true

/-- The row that a record is stored as. -/
def recordRow (sha256 : String → String) (record : Option RunRecord) : Except JournalError ResultRow :=
  rowOf resultEncoding (recordResult sha256 record).1 (recordResult sha256 record).2

section

variable {sha256 : String → String} {jsonParse : String → Option Json} {s s₀ : NodeState}

/-- The state after a write to the result. -/
inductive Persisted (sha256 : String → String) (s : NodeState) : NodeState → Prop
  | kept : Persisted sha256 s s
  | repeated {row : ResultRow} (stored : s.result = some row) :
      Persisted sha256 s { s with journal := ensureRun s.journal "running", result := some row }
  | written {row : ResultRow} (empty : s.result = none) (ok : recordRow sha256 s.record = .ok row) :
      Persisted sha256 s { s with journal := ensureRun s.journal "running", result := some row }

theorem persist_cases (sha256 : String → String) (s : NodeState) :
    Persisted sha256 s (persistTerminalResult sha256 s).2 := by
  unfold persistTerminalResult persistRunResult
  cases hs : s.result with
  | some existing =>
    simp only
    split
    · exact .kept
    · exact .repeated hs
    · exact .kept
  | none =>
    simp only
    split
    · exact .kept
    · rename_i hrow
      exact .written hs hrow

/-- The write of a state without a result. -/
theorem persist_none (hs : s.result = none) : (persistTerminalResult sha256 s).2 =
    match recordRow sha256 s.record with
    | .error _ => s
    | .ok row => { s with journal := ensureRun s.journal "running", result := some row } := by
  unfold persistTerminalResult persistRunResult recordRow
  rw [hs]
  simp only
  split <;> simp [*]

/-- A stored result is read, or the read throws. -/
theorem getRunResult_some {row : ResultRow} (hs : s.result = some row) :
    getRunResult sha256 jsonParse s ≠ .ok none := by
  intro h
  unfold getRunResult at h
  rw [hs] at h
  simp only at h
  split at h
  · exact nomatch h
  · cases henv : envelopeOf jsonParse row with
    | error e =>
      rw [henv] at h
      exact nomatch h
    | ok envelope =>
      rw [henv] at h
      change (match validateTaskResult sha256 envelope with | .error _ => _ | .ok _ => _) = Except.ok none at h
      split at h
      · exact nomatch h
      · exact nomatch h

/-- A request with a stored result only reads. -/
theorem resolve_some {row : ResultRow} (hs : s.result = some row) :
    (resolveNodeRunResult sha256 jsonParse s).2 = s := by
  unfold resolveNodeRunResult
  cases h : getRunResult sha256 jsonParse s with
  | error e => rfl
  | ok nr =>
    cases nr with
    | some nr => rfl
    | none => exact absurd h (getRunResult_some hs)

/-- A request without one stores what the record gives. -/
theorem resolve_none (hs : s.result = none) :
    (resolveNodeRunResult sha256 jsonParse s).2 = (persistTerminalResult sha256 s).2 := by
  unfold resolveNodeRunResult getRunResult
  rw [hs]
  simp only
  rcases persistTerminalResult sha256 s with ⟨e | b, s'⟩
  · rfl
  · simp only
    split <;> rfl

theorem append_ensured (db : RunTables) (event : RunEventInput) :
    append (ensureRun db "running") event = append db event := by
  have hidem : ensureRun (ensureRun db "running") "running" = ensureRun db "running" := by
    cases h : db.run with
    | none => simp [ensureRun, h]
    | some r => simp [ensureRun, h]
  unfold append
  rw [hidem]

/-- Two states of a run that differ only in the result and in whether the journal has a row yet. -/
structure SameRun (s s₀ : NodeState) : Prop where
  journal : ensureRun s.journal "running" = ensureRun s₀.journal "running"
  record : s.record = s₀.record

theorem SameRun.append (h : SameRun s s₀) (event : RunEventInput) :
    VibeJournal.append s.journal event = VibeJournal.append s₀.journal event := by
  rw [← append_ensured s.journal, h.journal, append_ensured]

/-- A write to the result on one side. -/
theorem SameRun.persisted {s' : NodeState} (h : SameRun s s₀) (hp : Persisted sha256 s s') : SameRun s' s₀ := by
  have hidem : ensureRun (ensureRun s.journal "running") "running" = ensureRun s.journal "running" := by
    cases hr : s.journal.run with
    | none => simp [ensureRun, hr]
    | some r => simp [ensureRun, hr]
  cases hp with
  | kept => exact h
  | repeated => exact ⟨hidem.trans h.journal, h.record⟩
  | written => exact ⟨hidem.trans h.journal, h.record⟩

theorem SameRun.symm (h : SameRun s s₀) : SameRun s₀ s := ⟨h.journal.symm, h.record.symm⟩

/-- **A stored result is never replaced.** -/
theorem step_keeps {row : ResultRow} (hs : s.result = some row) (a : NodeAction) :
    (nodeStep sha256 jsonParse s a).result = some row := by
  have hpersist {t : NodeState} (ht : t.result = some row) : (persistTerminalResult sha256 t).2.result = some row := by
    have hp := persist_cases sha256 t
    generalize (persistTerminalResult sha256 t).2 = t' at hp
    cases hp with
    | kept => exact ht
    | repeated hstored => exact hstored.symm.trans ht
    | written hnone =>
      rw [hnone] at ht
      exact nomatch ht
  cases a with
  | record record => exact hs
  | event now event =>
    simp only [nodeStep, tailEvent]
    split
    · exact hs
    split
    · exact hs
    · split
      · exact hpersist hs
      · exact hs
  | request =>
    simp only [nodeStep, resolve_some hs]
    exact hs

theorem run_keeps {row : ResultRow} (hs : s.result = some row) (actions : List NodeAction) :
    (run (nodeStep sha256 jsonParse) s actions).result = some row := by
  induction actions generalizing s with
  | nil => exact hs
  | cons a as ih => exact ih (step_keeps hs a)

/-- An action keeps the two states in step, whatever results they have. -/
theorem step_sameRun (h : SameRun s s₀) {a : NodeAction} (ha : a.own = true) :
    SameRun (nodeStep sha256 jsonParse s a) (nodeStep sha256 jsonParse s₀ a) := by
  cases a with
  | request => exact nomatch ha
  | record record => exact ⟨h.journal, rfl⟩
  | event now event =>
    simp only [nodeStep, tailEvent, h.append]
    split
    · exact h
    split
    · exact ⟨rfl, h.record⟩
    · split
      · rename_i journal _ _
        have hjournal : SameRun { s with journal := journal } { s₀ with journal := journal } := ⟨rfl, h.record⟩
        exact ((hjournal.persisted (persist_cases sha256 _)).symm.persisted (persist_cases sha256 _)).symm
      · exact ⟨rfl, h.record⟩

theorem request_sameRun (h : SameRun s s₀) : SameRun (nodeStep sha256 jsonParse s .request) s₀ := by
  cases hs : s.result with
  | some row =>
    simp only [nodeStep, resolve_some hs]
    exact h
  | none =>
    simp only [nodeStep, resolve_none hs]
    exact h.persisted (persist_cases sha256 s)

/-- **An action of the run itself** does the same to both. -/
theorem step_result (h : SameRun s s₀) (hresult : s.result = s₀.result) {a : NodeAction} (ha : a.own = true) :
    (nodeStep sha256 jsonParse s a).result = (nodeStep sha256 jsonParse s₀ a).result := by
  cases a with
  | request => exact nomatch ha
  | record record => exact hresult
  | event now event =>
    -- once the event is appended, the two states are one
    have hsame (journal : RunTables) : ({ s with journal := journal } : NodeState) =
        { s₀ with journal := journal } := by
      rw [hresult, h.record]
    simp only [nodeStep, tailEvent, h.append, hsame]
    split
    · exact hresult
    · rfl

theorem getRunResult_congr (hresult : s.result = s₀.result) :
    getRunResult sha256 jsonParse s = getRunResult sha256 jsonParse s₀ := by
  unfold getRunResult
  rw [hresult]

/-- The answer is read off the result and the record. -/
theorem answer_congr (h : SameRun s s₀) (hresult : s.result = s₀.result) :
    (resolveNodeRunResult sha256 jsonParse s).1 = (resolveNodeRunResult sha256 jsonParse s₀).1 := by
  have hpersist : (persistTerminalResult sha256 s).1 = (persistTerminalResult sha256 s₀).1 ∧
      (persistTerminalResult sha256 s).2.result = (persistTerminalResult sha256 s₀).2.result := by
    unfold persistTerminalResult persistRunResult
    rw [hresult, h.record]
    cases s₀.result with
    | some existing =>
      simp only
      split
      · exact ⟨rfl, hresult⟩
      · exact ⟨rfl, rfl⟩
      · exact ⟨rfl, hresult⟩
    | none =>
      simp only
      split
      · exact ⟨rfl, hresult⟩
      · exact ⟨rfl, rfl⟩
  unfold resolveNodeRunResult
  rw [getRunResult_congr hresult]
  rcases hp : persistTerminalResult sha256 s with ⟨r, t⟩
  rcases hp₀ : persistTerminalResult sha256 s₀ with ⟨r₀, t₀⟩
  rw [hp, hp₀] at hpersist
  obtain ⟨rfl, hres⟩ := hpersist
  split
  · rfl
  · rfl
  · cases r with
    | error e => rfl
    | ok b =>
      simp only [getRunResult_congr hres]
      split <;> rfl

/-- A request finds a stored result, or its record gives the run's own one. -/
def ReadsOwn (sha256 : String → String) (own : Option ResultRow) (s : NodeState) (a : NodeAction) : Prop :=
  a = .request → s.result = none → ∀ row, recordRow sha256 s.record = .ok row → own = some row

variable (sha256 jsonParse) in
/-- The run without the requests. -/
def alone (s : NodeState) (actions : List NodeAction) : NodeState :=
  run (nodeStep sha256 jsonParse) s (actions.filter NodeAction.own)

theorem alone_own {a : NodeAction} (ha : a.own = true) (as : List NodeAction) :
    alone sha256 jsonParse s (a :: as) = alone sha256 jsonParse (nodeStep sha256 jsonParse s a) as := by
  simp only [alone, List.filter_cons, ha, if_true, run_cons]

theorem alone_request (as : List NodeAction) : alone sha256 jsonParse s (.request :: as) =
    alone sha256 jsonParse s as :=
  rfl

theorem run_sameRun (h : SameRun s s₀) (actions : List NodeAction) :
    SameRun (run (nodeStep sha256 jsonParse) s actions) (alone sha256 jsonParse s₀ actions) := by
  induction actions generalizing s s₀ with
  | nil => exact h
  | cons a as ih =>
    cases ha : a.own with
    | true =>
      rw [run_cons, alone_own ha]
      exact ih (step_sameRun h ha)
    | false =>
      cases a with
      | request => exact ih (request_sameRun h)
      | record record => exact nomatch ha
      | event now event => exact nomatch ha

/-- A request that stores a result decides the run's. -/
theorem request_decides {row : ResultRow} (hs : s.result = none) (hrow : recordRow sha256 s.record = .ok row)
    (own : Option ResultRow) (as : List NodeAction) :
    (ReadsOwn sha256 own s .request ∧
        Always (nodeStep sha256 jsonParse) (ReadsOwn sha256 own) (nodeStep sha256 jsonParse s .request) as) ↔
      (run (nodeStep sha256 jsonParse) (nodeStep sha256 jsonParse s .request) as).result = own := by
  have hstored : (nodeStep sha256 jsonParse s .request).result = some row := by
    simp only [nodeStep, resolve_none hs, persist_none hs, hrow]
  rw [run_keeps hstored]
  constructor
  · rintro ⟨hreads, -⟩
    exact (hreads rfl hs row hrow).symm
  · intro hown
    refine ⟨fun _ _ row' hrow' => ?_, ?_⟩
    · rw [← hown, Except.ok.inj (hrow.symm.trans hrow')]
    · -- from here on every request finds the stored row
      refine (always_of_forall (p := fun _ _ => True) (fun _ _ => trivial) _ as).imp
        (fun t => t.result = some row) (fun t a ht _ => step_keeps ht a) ?_ hstored
      intro t a ht _ _ hnone
      rw [ht] at hnone
      exact nomatch hnone

/-- **From one state on**, where both runs have the same result so far. -/
theorem result_same (h : SameRun s s₀) (hresult : s.result = s₀.result) (actions : List NodeAction) :
    Always (nodeStep sha256 jsonParse) (ReadsOwn sha256 (alone sha256 jsonParse s₀ actions).result) s actions ↔
      (run (nodeStep sha256 jsonParse) s actions).result = (alone sha256 jsonParse s₀ actions).result := by
  induction actions generalizing s s₀ with
  | nil => exact ⟨fun _ => hresult, fun _ => trivial⟩
  | cons a as ih =>
    cases ha : a.own with
    | true =>
      have hskip : ReadsOwn sha256 (alone sha256 jsonParse s₀ (a :: as)).result s a := by
        rintro rfl
        exact nomatch ha
      rw [alone_own ha] at hskip ⊢
      exact ⟨fun hall => (ih (step_sameRun h ha) (step_result h hresult ha)).mp hall.2,
        fun heq => ⟨hskip, (ih (step_sameRun h ha) (step_result h hresult ha)).mpr heq⟩⟩
    | false =>
      obtain rfl : a = .request := by
        cases a with
        | request => rfl
        | record record => exact nomatch ha
        | event now event => exact nomatch ha
      rw [alone_request, run_cons]
      cases hs : s.result with
      | some row =>
        have hskip : ReadsOwn sha256 (alone sha256 jsonParse s₀ as).result s .request := by
          intro _ hnone
          rw [hs] at hnone
          exact nomatch hnone
        have hstep : nodeStep sha256 jsonParse s .request = s := resolve_some hs
        rw [hstep]
        exact ⟨fun hall => (ih h hresult).mp (hstep ▸ hall.2),
          fun heq => ⟨hskip, hstep.symm ▸ (ih h hresult).mpr heq⟩⟩
      | none =>
        cases hrow : recordRow sha256 s.record with
        | ok row => exact request_decides hs hrow _ as
        | error e =>
          have hskip : ReadsOwn sha256 (alone sha256 jsonParse s₀ as).result s .request := by
            intro _ _ row hok
            rw [hrow] at hok
            exact nomatch hok
          have hstep : nodeStep sha256 jsonParse s .request = s := by
            simp only [nodeStep, resolve_none hs, persist_none hs, hrow]
          rw [hstep]
          exact ⟨fun hall => (ih h hresult).mp (hstep ▸ hall.2),
            fun heq => ⟨hskip, hstep.symm ▸ (ih h hresult).mpr heq⟩⟩

end

/-- **Reading a result never changes it**, exactly when no request stores another result than the run's
    own: a run then ends with the result that it has without the requests, and answers alike. -/
theorem reading_keeps_result (sha256 : String → String) (jsonParse : String → Option Json) (actions : List NodeAction) :
    let own := alone sha256 jsonParse NodeState.initial actions
    let final := run (nodeStep sha256 jsonParse) NodeState.initial actions
    Always (nodeStep sha256 jsonParse) (ReadsOwn sha256 own.result) NodeState.initial actions ↔
      final.result = own.result ∧
        (resolveNodeRunResult sha256 jsonParse final).1 = (resolveNodeRunResult sha256 jsonParse own).1 := by
  intro own final
  have hinit : SameRun NodeState.initial NodeState.initial := ⟨rfl, rfl⟩
  constructor
  · intro hall
    have hresult := (result_same hinit rfl actions).mp hall
    exact ⟨hresult, answer_congr (run_sameRun hinit actions) hresult⟩
  · rintro ⟨hresult, -⟩
    exact (result_same hinit rfl actions).mpr hresult

/-- The SHA-256 digest of the empty text. -/
def emptyDigest : String := "e3b0c44298fc1c149afbf4c8996fb92427ae41e4649b934ca495991b7852b855"

/-- A run that is asked for its result while it is running, and then ends with an available one. -/
def earlyRequest : List NodeAction :=
  let result : Json := .obj [("schema_version", .str "1"), ("final_output", .obj [("kind", .str "text"), ("text", .str "")]),
    ("process_exit_code", .num (JsNum.ofInt 0)), ("finalized_at", .str "2024-01-01T00:00:00Z"),
    ("content_hash", .str emptyDigest), ("evidence_refs", .arr []), ("artifact_refs", .arr [])]
  let ended : Json := .obj [("type", .str "status"), ("run_id", .str "r"), ("status", .str "completed"),
    ("ts", .str "2024-01-01T00:00:00Z")]
  [.record (some ⟨none, none⟩), .request, .record (some ⟨some "available", some result⟩),
    .event "2024-01-01T00:00:00Z" ended]

/-- The early request pins `missing`. -/
theorem early_request_pins_missing :
    ((run (nodeStep (fun _ => emptyDigest) (fun _ => some (.arr []))) NodeState.initial earlyRequest).result.map
        ResultRow.resultStatus = some "missing") ∧
      ((alone (fun _ => emptyDigest) (fun _ => some (.arr [])) NodeState.initial earlyRequest).result.map
        ResultRow.resultStatus = some "available") := by
  decide +kernel

end VibeRunResult
