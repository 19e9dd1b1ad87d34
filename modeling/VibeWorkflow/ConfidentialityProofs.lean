import VibeWorkflow.RelayNodeProofs
import VibeWorkflow.SerializationProofs

/-!
# What the relay learns of an encrypted run

Two executions of a Node and a client are compared that differ only in what the run's payload, its
events and its result say.  A shape keeps of a value what the two have in common: its type and its
length.  Every handler but a few works on the shapes alone.

* `append_shape`, `resolve_shape` — the journal and the result store do not look at contents;
* `unwinds` — one step of each execution;
* **`relay_view`** — no step of the two executions is told apart, and nothing of the run is in the
  clear, at every step that is discreet; at every other step something is.
-/

namespace VibeRelay

open VibeJson VibeJournal VibeRun TwoRuns CallRuns
open VibeNode (LeaseId presentedLeaseId)
open VibeResult (AgentTaskResult ResultRow validateTaskResult rowOf isHex64 field)

/-! ## Lengths -/

/-- The bytes of a value's JSON text. -/
def size (j : Json) : Nat := byteLen (stringify j)

def textSize (s : String) : Nat := size (.str s)

def fieldShape (f : String × Json) : String × Nat := (f.1, size f.2)

theorem fields_size {fs fs' : List (String × Json)} (h : fs.map fieldShape = fs'.map fieldShape) :
    ((textCharsFields fs).map Char.utf8Size).sum = ((textCharsFields fs').map Char.utf8Size).sum := by
  have hsize {v v' : Json} (hv : size v = size v') :
      ((textChars v).map Char.utf8Size).sum = ((textChars v').map Char.utf8Size).sum := by
    simpa only [size, stringify, VibeStore.byteLen_ofList] using hv
  induction fs generalizing fs' with
  | nil =>
    obtain rfl := List.map_eq_nil_iff.mp h.symm
    rfl
  | cons f fs ih =>
    cases fs' with
    | nil => cases h
    | cons f' fs' =>
      obtain ⟨k, v⟩ := f
      obtain ⟨k', v'⟩ := f'
      obtain ⟨hf, hrest⟩ := List.cons.inj h
      obtain ⟨rfl, hv⟩ := Prod.mk.inj hf
      have htail := ih hrest
      cases fs with
      | nil =>
        obtain rfl := List.map_eq_nil_iff.mp hrest.symm
        simp only [textCharsFields, List.map_append, List.map_cons, List.sum_append, List.sum_cons, hsize hv]
      | cons g gs =>
        cases fs' with
        | nil => cases hrest
        | cons g' gs' =>
          simp only [textCharsFields, List.map_append, List.map_cons, List.sum_append, List.sum_cons,
            hsize hv] at htail ⊢
          rw [htail]

/-- The text of an object is as long as its fields make it. -/
theorem size_obj {fs fs' : List (String × Json)} (h : fs.map fieldShape = fs'.map fieldShape) :
    size (.obj fs) = size (.obj fs') := by
  simp only [size, stringify, VibeStore.byteLen_ofList, textChars, List.map_cons, List.map_append,
    List.sum_cons, List.sum_append, fields_size h]

theorem present_shape {v v' : Option Json} (name : String) (h : v.map size = v'.map size) :
    (present name v).map fieldShape = (present name v').map fieldShape := by
  cases v with
  | none =>
    obtain rfl := Option.map_eq_none_iff.mp h.symm
    rfl
  | some j =>
    obtain ⟨j', rfl, hsize⟩ := Option.map_eq_some_iff.mp h.symm
    show [(name, size j)] = [(name, size j')]
    rw [hsize]

theorem present_str_shape {t t' : Option String} (name : String) (h : t.map textSize = t'.map textSize) :
    (present name (t.map .str)).map fieldShape = (present name (t'.map .str)).map fieldShape := by
  refine present_shape name ?_
  rw [Option.map_map, Option.map_map]
  exact h

/-! ## Shapes -/

/-- An event's type, time, status and length. -/
structure EventShape where
  type : String
  ts : String
  status : Option String
  isNull : Bool
  size : Nat
deriving DecidableEq

def eventShape (e : Json) : EventShape := ⟨eventType e, eventTs e, field e "status", decide (e = .null), size e⟩

/-- The same of a journaled event. -/
structure RowShape where
  sequence : Nat
  type : String
  ts : String
  bytes : Nat

def rowShape (r : EventRow) : RowShape := ⟨r.sequence, r.type, r.ts, byteLen r.payloadJson⟩

/-- The run's row; nothing of what the relay sees depends on its lease. -/
def runShape (r : RunRow) : RunRow := { r with leaseId := none }

def tablesShape (db : RunTables) : Option RunRow × List RowShape := (db.run.map runShape, db.events.map rowShape)

/-- A result without its text, and the lengths of the text and of its hash. -/
structure ResultShape where
  rest : AgentTaskResult
  bytes : Nat
  text : Nat
  hash : Nat

def resultShape (r : AgentTaskResult) : ResultShape where
  rest := { r with finalOutput := "", contentHash := "" }
  bytes := byteLen r.finalOutput
  text := textSize r.finalOutput
  hash := textSize r.contentHash

def answerShape (nr : VibeRunResult.NodeRunResult) : String × Option ResultShape :=
  (nr.resultStatus, nr.result.map resultShape)

/-- A row of a result: its text counts by its length, its hash by its form and by whether it is the text's. -/
structure ResultRowShape where
  rest : ResultRow
  text : Option (Nat × Nat)
  hash : Option Nat
  hex : Bool
  own : Bool

def resultRowShape (sha256 : String → String) (row : ResultRow) : ResultRowShape where
  rest := { row with finalOutputText := none, contentHash := none }
  text := row.finalOutputText.map fun t => (byteLen t, textSize t)
  hash := row.contentHash.map textSize
  hex := isHex64 (row.contentHash.getD "")
  own := row.contentHash.getD "" == sha256 (row.finalOutputText.getD "")

/-- The result fields of a record: their lengths, and the shape of the result they give. -/
structure FieldsShape where
  resultStatus : Option String
  taskResult : Option Nat
  status : String
  result : Option ResultShape

def resultFieldsShape (sha256 : String → String) (r : VibeRunResult.RunRecord) : FieldsShape where
  resultStatus := r.resultStatus
  taskResult := r.taskResult.map size
  status := (VibeRunResult.recordResult sha256 (some r)).1
  result := (VibeRunResult.recordResult sha256 (some r)).2.map resultShape

/-- A record: its own texts and its keys, and the lengths of what it was given. -/
structure RecordShape where
  runId : String
  sessionId : String
  nodeId : String
  status : String
  given : List (String × Nat)
  stopAesKey : Option String
  approvalAesKey : Option String
  result : FieldsShape

def recordShape (sha256 : String → String) (r : RunRecord) : RecordShape :=
  ⟨r.runId, r.sessionId, r.nodeId, r.status, r.given.map fieldShape, r.stopAesKey, r.approvalAesKey,
    resultFieldsShape sha256 r.result⟩

/-- A subscriber, as far as its next messages depend on it. -/
structure SubShape where
  ref : String
  key : Option String
  cutoff : Int
  maxQueue : Nat
  queue : List RowShape
  draining : Bool
  overflowed : Bool
  closed : Bool

def subShape (s : ReplaySub) : SubShape :=
  ⟨s.ref, s.key, s.sub.cutoff, s.sub.maxQueue, s.sub.queue.map rowShape, s.sub.draining, s.sub.overflowed, s.sub.closed⟩

/-! ## The journal does not look at contents -/

section

variable {db db' : RunTables} {e e' : Json}

theorem ensureRun_shape (h : tablesShape db = tablesShape db') (status : String) :
    tablesShape (ensureRun db status) = tablesShape (ensureRun db' status) := by
  obtain ⟨hrun, hevents⟩ := Prod.mk.inj h
  simp only [tablesShape, ensureRun_run, ensureRun_events, hevents, Option.map_some, Prod.mk.injEq, and_true,
    Option.some.injEq]
  cases hr : db.run with
  | none =>
    rw [hr] at hrun
    rw [Option.map_eq_none_iff.mp hrun.symm]
  | some run =>
    rw [hr] at hrun
    obtain ⟨run', hr', hshape⟩ := Option.map_eq_some_iff.mp hrun.symm
    rw [hr']
    exact hshape.symm

theorem journalInput_shape (h : eventShape e = eventShape e') (now : String) :
    (journalInput now e).type = (journalInput now e').type ∧
    (journalInput now e).timestamp = (journalInput now e').timestamp ∧
    (journalInput now e).terminal = (journalInput now e').terminal ∧
    (journalInput now e).status = (journalInput now e').status := by
  simp only [eventShape, EventShape.mk.injEq] at h
  obtain ⟨htype, hts, hstatus, -, -⟩ := h
  simp only [journalInput, isTerminal, journalStatusOf, eventStatus, htype, hts, hstatus, and_self]

/-- The payload's text: refused alike, and else of the same length. -/
theorem validate_shape (h : eventShape e = eventShape e') (now : String) :
    (∃ err, validate (journalInput now e) = .error err ∧ validate (journalInput now e') = .error err) ∨
    ∃ text text', validate (journalInput now e) = .ok text ∧ validate (journalInput now e') = .ok text' ∧
      byteLen text = byteLen text' := by
  obtain ⟨htype, hts, -, -⟩ := journalInput_shape h now
  have hsize : byteLen (stringify e) = byteLen (stringify e') := congrArg EventShape.size h
  simp only [validate, htype, hts]
  split
  · exact .inl ⟨_, rfl, rfl⟩
  split
  · exact .inl ⟨_, rfl, rfl⟩
  by_cases hlarge : byteLen (stringify e') > eventPayloadBytes
  · exact .inl ⟨_, if_pos (hsize ▸ hlarge), if_pos hlarge⟩
  · exact .inr ⟨_, _, if_neg (hsize ▸ hlarge), if_neg hlarge, hsize⟩

theorem runShape_inj {run run' : RunRow} (h : runShape run = runShape run') :
    run.lastSequence = run'.lastSequence ∧ run.terminalEventRecorded = run'.terminalEventRecorded ∧
      ∀ seq (ev ev' : RunEventInput), ev.status = ev'.status → ev.terminal = ev'.terminal →
        runShape (run.after seq ev) = runShape (run'.after seq ev') := by
  obtain ⟨status, last, earliest, terminal, lease⟩ := run
  obtain ⟨status', last', earliest', terminal', lease'⟩ := run'
  simp only [runShape, RunRow.mk.injEq] at h
  obtain ⟨rfl, rfl, rfl, rfl, -⟩ := h
  refine ⟨rfl, rfl, fun seq ev ev' hstatus hterm => ?_⟩
  simp only [runShape, RunRow.after, hstatus, hterm]

/-- **Two appends** of events of one shape do the same to the shapes. -/
theorem append_shape (h : tablesShape db = tablesShape db') (he : eventShape e = eventShape e') (now : String) :
    (append db (journalInput now e)).1.toOption.map rowShape =
    (append db' (journalInput now e')).1.toOption.map rowShape ∧
      tablesShape (append db (journalInput now e)).2 = tablesShape (append db' (journalInput now e')).2 := by
  have hensured := ensureRun_shape h "running"
  obtain ⟨hrun, hevents⟩ := Prod.mk.inj hensured
  obtain ⟨run, hr⟩ : ∃ run, (ensureRun db "running").run = some run := ⟨_, ensureRun_run db _⟩
  obtain ⟨run', hr'⟩ : ∃ run, (ensureRun db' "running").run = some run := ⟨_, ensureRun_run db' _⟩
  have hrunShape : runShape run = runShape run' := by
    rw [hr, hr'] at hrun
    exact Option.some.inj hrun
  obtain ⟨hlast, hterm, hafter⟩ := runShape_inj hrunShape
  obtain ⟨htype, hts, hterminal, hstatus⟩ := journalInput_shape he now
  have hany (seq : Nat) : (ensureRun db "running").events.any (fun r => r.sequence == seq) =
      (ensureRun db' "running").events.any (fun r => r.sequence == seq) := by
    have hmap := congrArg (fun l => l.any fun r => r.sequence == seq) hevents
    simp only [List.any_map] at hmap
    exact hmap
  simp only [append, hr, hr', hterm, hlast]
  split
  · exact ⟨rfl, hensured⟩
  simp only [insertEvent, payloadOf]
  split
  · exact ⟨rfl, hensured⟩
  rcases validate_shape he now with ⟨err, hv, hv'⟩ | ⟨text, text', hv, hv', hlen⟩
  · rw [hv, hv']
    exact ⟨rfl, hensured⟩
  rw [hv, hv']
  simp only [hany]
  split
  · exact ⟨rfl, hensured⟩
  · have hrow : rowShape ⟨(run'.lastSequence + 1).toNat, (journalInput now e).type,
      (journalInput now e).timestamp, text⟩ =
        rowShape ⟨(run'.lastSequence + 1).toNat, (journalInput now e').type,
          (journalInput now e').timestamp, text'⟩ := by
      simp only [rowShape, htype, hts, hlen]
    refine ⟨congrArg some hrow, ?_⟩
    simp only [tablesShape, hr, hr', Option.map_some, List.map_append, hevents, List.map_cons, List.map_nil, hrow,
      hafter _ _ _ hstatus hterminal]

theorem readEvents_shape (h : tablesShape db = tablesShape db') (afterSequence : Int) (limit : Nat) :
    (readEvents db afterSequence limit).map rowShape = (readEvents db' afterSequence limit).map rowShape := by
  have hread (d : RunTables) : (readEvents d afterSequence limit).map rowShape =
      (((d.events.map rowShape).filter fun r => decide (afterSequence < r.sequence)).insertionSort
        fun a b => a.sequence ≤ b.sequence).take limit := by
    rw [readEvents, List.map_take, List.map_insertionSort (r := fun a b => a.sequence ≤ b.sequence)
      (s := fun a b => a.sequence ≤ b.sequence) rowShape _ (fun _ _ _ _ => Iff.rfl),
        RunTables.eventsAfter, List.filter_map]
    rfl
  rw [hread, hread, (Prod.mk.inj h).2]

theorem replayMetadata_shape (h : tablesShape db = tablesShape db') (afterSequence : Int) :
    replayMetadata db afterSequence = replayMetadata db' afterSequence := by
  have hmeta (d : RunTables) : replayMetadata d afterSequence =
      replayMetadata ⟨(tablesShape d).1, []⟩ afterSequence := by
    simp only [replayMetadata, tablesShape, Option.map_map]
    rfl
  rw [hmeta db, hmeta db', h]

theorem lastSequence_shape (h : tablesShape db = tablesShape db') (afterSequence : Int) :
    db.run.elim afterSequence RunRow.lastSequence = db'.run.elim afterSequence RunRow.lastSequence := by
  have hlast (d : RunTables) : d.run.elim afterSequence RunRow.lastSequence =
      (tablesShape d).1.elim afterSequence RunRow.lastSequence := by
    cases hr : d.run <;> simp [tablesShape, hr, runShape]
  rw [hlast db, hlast db', h]

end

/-! ## Neither does the result store -/

section

variable {sha256 : String → String} {jsonParse : String → Option Json}

/-- A valid result's hash is its text's. -/
theorem valid_hash {o : Json} {r : AgentTaskResult} (h : validateTaskResult sha256 o = .ok r) :
    isHex64 r.contentHash = true ∧ r.contentHash = sha256 r.finalOutput := by
  obtain ⟨-, -, h⟩ := VibeAdmission.bind_ok_iff.mp h
  obtain ⟨-, -, h⟩ := VibeAdmission.bind_ok_iff.mp h
  obtain ⟨text, -, h⟩ := VibeAdmission.bind_ok_iff.mp h
  obtain ⟨-, -, h⟩ := VibeAdmission.bind_ok_iff.mp h
  obtain ⟨exitCode, -, h⟩ := VibeAdmission.bind_ok_iff.mp h
  obtain ⟨finalizedAt, -, h⟩ := VibeAdmission.bind_ok_iff.mp h
  obtain ⟨hash, hneed, h⟩ := VibeAdmission.bind_ok_iff.mp h
  obtain ⟨_, hensure, h⟩ := VibeAdmission.bind_ok_iff.mp h
  obtain ⟨-, -, h⟩ := VibeAdmission.bind_ok_iff.mp h
  obtain ⟨-, -, h⟩ := VibeAdmission.bind_ok_iff.mp h
  obtain ⟨verification, -, h⟩ := VibeAdmission.bind_ok_iff.mp h
  cases h
  constructor
  · unfold VibeResult.need at hneed
    split at hneed
    · cases hneed
      rename_i hfield
      exact (Option.filter_eq_some_iff.mp hfield).2
    · exact nomatch hneed
  · unfold VibeResult.ensure at hensure
    split at hensure
    · rename_i heq
      exact beq_iff_eq.mp heq
    · exact nomatch hensure

/-- The envelope of a row, over its text and its hash. -/
def envelope (row : ResultRow) (evidence artifacts : Json) (verification : Option Json) (text hash : String) : Json :=
  .obj ([("schema_version", .str row.schemaVersion),
    ("final_output", .obj [("kind", .str "text"), ("text", .str text)]),
    ("process_exit_code", row.processExitCode.elim .null .num),
    ("finalized_at", .str (row.finalizedAt.getD "")), ("content_hash", .str hash),
    ("evidence_refs", evidence), ("artifact_refs", artifacts)] ++ present "verification" verification)

/-- What the validator reads off an envelope beside its text and its hash. -/
structure Reads where
  version : Except VibeResult.ResultFault Unit
  exitCode : Except VibeResult.ResultFault (Option JsNum)
  finalizedAt : Option String
  evidence : Option Json
  artifacts : Option Json
  verification : Except VibeResult.ResultFault (Option Json)

/-- The validator on these. -/
def checked (sha256 : String → String) (r : Reads) (text hash : String) :
    Except VibeResult.ResultFault AgentTaskResult := do
  r.version
  VibeResult.ensure (byteLen text ≤ VibeResult.maxFinalOutputBytes)
    ⟨.resultTooLarge, "final_output.text exceeds the size limit"⟩
  let exitCode ← r.exitCode
  let finalizedAt ← VibeResult.need r.finalizedAt (VibeResult.invalid "finalized_at must be ISO-8601 UTC")
  let contentHash ← VibeResult.need ((some hash).filter isHex64)
    (VibeResult.invalid "content_hash must be a sha256 hex digest")
  VibeResult.ensure (contentHash == VibeResult.computeResultContentHash sha256 text)
    ⟨.contentHashMismatch, "content_hash does not match final_output.text"⟩
  VibeResult.ensure (VibeResult.boundedRefs r.evidence)
    (VibeResult.invalid "evidence_refs must be a bounded array of \x7bkind,...\x7d")
  VibeResult.ensure (VibeResult.boundedRefs r.artifacts)
    (VibeResult.invalid "artifact_refs must be a bounded array of \x7bkind,ref,...\x7d")
  let verification ← r.verification
  return {
    schemaVersion := "1"
    finalOutput := text
    processExitCode := exitCode
    finalizedAt := finalizedAt
    contentHash := contentHash
    evidenceRefs := r.evidence
    artifactRefs := r.artifacts
    verification := verification }

/-- Two rows that agree but for text and hash are read alike. -/
theorem validate_reads (sha256 : String → String) (row : ResultRow) (evidence artifacts : Json)
    (verification : Option Json) :
    ∃ r : Reads, ∀ text hash,
      validateTaskResult sha256 (envelope row evidence artifacts verification text hash) =
        checked sha256 r text hash := by
  let blank := envelope row evidence artifacts verification "" ""
  have hget (t h k : String) (hk : k ≠ "final_output" ∧ k ≠ "content_hash") :
      (envelope row evidence artifacts verification t h).get? k = blank.get? k := by
    cases verification with
    | none => simp [blank, envelope, Json.get?, Json.fields, present, lookup, hk.1.symm, hk.2.symm]
    | some v => simp [blank, envelope, Json.get?, Json.fields, present, lookup, hk.1.symm, hk.2.symm]
  have houtput (t h : String) : VibeResult.finalOutputOf
      (envelope row evidence artifacts verification t h) = some t := by
    cases verification with
    | none => simp [envelope, VibeResult.finalOutputOf, Json.get?, Json.fields, present, lookup, field, Json.str?]
    | some v => simp [envelope, VibeResult.finalOutputOf, Json.get?, Json.fields, present, lookup, field, Json.str?]
  have hcontent (t h : String) : field (envelope row evidence artifacts verification t h) "content_hash" = some h := by
    cases verification with
    | none => simp [envelope, Json.get?, Json.fields, present, lookup, field, Json.str?]
    | some v => simp [envelope, Json.get?, Json.fields, present, lookup, field, Json.str?]
  refine ⟨⟨VibeResult.ensureVersion blank (fun v => ⟨.unsupportedSchemaVersion, "unsupported result schema_version " ++ v⟩)
      (VibeResult.invalid "invalid result schema_version"), VibeResult.exitCodeOf blank,
    VibeResult.fieldWith blank "finalized_at" VibeTask.isIsoUtc, blank.get? "evidence_refs", blank.get? "artifact_refs",
    VibeResult.verificationOf sha256 blank⟩, fun t h => ?_⟩
  simp only [validateTaskResult, checked, VibeResult.ensureVersion, VibeResult.exitCodeOf, VibeResult.verificationOf,
    VibeResult.fieldWith, houtput, hcontent]
  simp only [field, hget t h "schema_version" (by decide), hget t h "process_exit_code" (by decide),
    hget t h "verification" (by decide), hget t h "finalized_at" (by decide), hget t h "evidence_refs" (by decide),
    hget t h "artifact_refs" (by decide)]
  rfl

theorem checked_shape (r : Reads) {text text' hash hash' : String} (hbytes : byteLen text = byteLen text')
    (hsize : textSize text = textSize text') (hhash : textSize hash = textSize hash')
    (hhex : isHex64 hash = isHex64 hash')
    (hsha : (hash == sha256 text) = (hash' == sha256 text')) :
    (checked sha256 r text hash).map resultShape = (checked sha256 r text' hash').map resultShape := by
  obtain ⟨version, exitCode, finalizedAt, evidence, artifacts, verification⟩ := r
  simp only [checked, hbytes, VibeResult.computeResultContentHash]
  cases version with
  | error e => rfl
  | ok _ =>
  cases VibeResult.ensure (decide (byteLen text' ≤ VibeResult.maxFinalOutputBytes))
      (⟨.resultTooLarge, "final_output.text exceeds the size limit"⟩ : VibeResult.ResultFault) with
  | error e => rfl
  | ok _ =>
  cases exitCode with
  | error e => rfl
  | ok exitCode =>
  cases finalizedAt with
  | none => rfl
  | some finalizedAt =>
  cases hh : isHex64 hash' with
  | false =>
    rw [hh] at hhex
    simp only [Option.filter, hh, hhex]
    rfl
  | true =>
  rw [hh] at hhex
  simp only [Option.filter, hh, hhex, if_true, VibeResult.need, bind, Except.bind, hsha]
  -- the hash, the two lists of references and the verification are judged alike
  split
  · rfl
  split
  · rfl
  split
  · rfl
  split
  · rfl
  · simp only [pure, Except.pure, Except.map, resultShape, hbytes, hsize, hhash]

variable (jsonParse) in
/-- Two rows of one shape give one envelope, over their texts and hashes. -/
theorem envelope_shape {row row' : ResultRow} (h : resultRowShape sha256 row = resultRowShape sha256 row') :
    (∃ e, VibeRunResult.envelopeOf jsonParse row = .error e ∧ VibeRunResult.envelopeOf jsonParse row' = .error e) ∨
    ∃ evidence artifacts verification,
      VibeRunResult.envelopeOf jsonParse row = .ok (envelope row evidence artifacts verification
        (row.finalOutputText.getD "") (row.contentHash.getD "")) ∧
      VibeRunResult.envelopeOf jsonParse row' = .ok (envelope row evidence artifacts verification
        (row'.finalOutputText.getD "") (row'.contentHash.getD "")) := by
  obtain ⟨schema, status, text, exit, finalized, hash, evidence, artifacts, verification⟩ := row
  obtain ⟨schema', status', text', exit', finalized', hash', evidence', artifacts', verification'⟩ := row'
  simp only [resultRowShape, ResultRowShape.mk.injEq, ResultRow.mk.injEq] at h
  obtain ⟨⟨rfl, rfl, -, rfl, rfl, -, rfl, rfl, rfl⟩, -⟩ := h
  simp only [VibeRunResult.envelopeOf, bind, Except.bind]
  cases VibeRunResult.decodeJson jsonParse evidence (256 * 1024) "run_result.evidence_refs" with
  | error e => exact .inl ⟨e, rfl, rfl⟩
  | ok evidence =>
  cases VibeRunResult.decodeJson jsonParse artifacts (256 * 1024) "run_result.artifact_refs" with
  | error e => exact .inl ⟨e, rfl, rfl⟩
  | ok artifacts =>
  cases verification with
  | none => exact .inr ⟨evidence, artifacts, none, rfl, rfl⟩
  | some text =>
    simp only
    cases VibeRunResult.decodeJson jsonParse text (256 * 1024) "run_result.verification" with
    | error e => exact .inl ⟨e, rfl, rfl⟩
    | ok value => exact .inr ⟨evidence, artifacts, some value, rfl, rfl⟩

/-- The lengths of a text that may be missing. -/
theorem getD_shape {t t' : Option String} (h : t.map (fun t => (byteLen t, textSize t)) =
    t'.map (fun t => (byteLen t, textSize t))) :
    byteLen (t.getD "") = byteLen (t'.getD "") ∧ textSize (t.getD "") = textSize (t'.getD "") := by
  cases t with
  | none =>
    obtain rfl := Option.map_eq_none_iff.mp h.symm
    exact ⟨rfl, rfl⟩
  | some t =>
    obtain ⟨t', rfl, ht⟩ := Option.map_eq_some_iff.mp h.symm
    exact ⟨(Prod.mk.inj ht).1.symm, (Prod.mk.inj ht).2.symm⟩

theorem hash_getD {t t' : Option String} (h : t.map textSize = t'.map textSize) :
    textSize (t.getD "") = textSize (t'.getD "") := by
  cases t with
  | none =>
    obtain rfl := Option.map_eq_none_iff.mp h.symm
    rfl
  | some t =>
    obtain ⟨t', rfl, ht⟩ := Option.map_eq_some_iff.mp h.symm
    exact ht.symm

variable (jsonParse) in
/-- **Reading a stored result.** -/
theorem getRunResult_shape {d d' : VibeRunResult.NodeState}
    (h : d.result.map (resultRowShape sha256) = d'.result.map (resultRowShape sha256)) :
    (VibeRunResult.getRunResult sha256 jsonParse d).map (Option.map answerShape) =
      (VibeRunResult.getRunResult sha256 jsonParse d').map (Option.map answerShape) := by
  unfold VibeRunResult.getRunResult
  cases hd : d.result with
  | none =>
    rw [hd] at h
    rw [Option.map_eq_none_iff.mp h.symm]
  | some row =>
    rw [hd] at h
    obtain ⟨row', hd', hrow⟩ := Option.map_eq_some_iff.mp h.symm
    rw [hd']
    have hstatus : row.resultStatus = row'.resultStatus := congrArg (fun s => s.rest.resultStatus) hrow.symm
    have htext := congrArg ResultRowShape.text hrow.symm
    have hhash := congrArg ResultRowShape.hash hrow.symm
    have hhex := congrArg ResultRowShape.hex hrow.symm
    have hsha := congrArg ResultRowShape.own hrow.symm
    obtain ⟨hbytes, hsize⟩ := getD_shape htext
    simp only [hstatus]
    split
    · rfl
    rcases envelope_shape jsonParse hrow.symm with ⟨e, he, he'⟩ | ⟨ev, ar, ver, he, he'⟩
    · rw [he, he']
    · obtain ⟨r, hr⟩ := validate_reads sha256 row ev ar ver
      have hchecked := checked_shape r hbytes hsize (hash_getD hhash) hhex hsha
      simp only [he, he', bind, Except.bind, hr]
      generalize checked sha256 r (row.finalOutputText.getD "") (row.contentHash.getD "") = c at hchecked ⊢
      generalize checked sha256 r (row'.finalOutputText.getD "") (row'.contentHash.getD "") = c' at hchecked ⊢
      cases c with
      | error e =>
        cases c' with
        | error e' =>
          cases hchecked
          rfl
        | ok v' => exact nomatch hchecked
      | ok v =>
        cases c' with
        | error e' => exact nomatch hchecked
        | ok v' =>
          have hv : resultShape v = resultShape v' := Except.ok.inj hchecked
          simp only [Except.map, Option.map_some, answerShape, hv]

/-- What a record gives has been validated. -/
theorem recordResult_valid {r : Option VibeRunResult.RunRecord} {a : AgentTaskResult}
    (h : (VibeRunResult.recordResult sha256 r).2 = some a) : ∃ o, validateTaskResult sha256 o = .ok a := by
  unfold VibeRunResult.recordResult at h
  simp only at h
  split at h
  · split at h
    · exact nomatch h
    · split at h
      · rename_i hvalid
        exact ⟨_, hvalid.trans (congrArg Except.ok (Option.some.inj h))⟩
      · exact nomatch h
  · exact nomatch h

/-- A result is written as a row of its own shape. -/
theorem rowOf_shape {a b : AgentTaskResult} (h : resultShape a = resultShape b)
    (ha : isHex64 a.contentHash = true ∧ a.contentHash = sha256 a.finalOutput)
    (hb : isHex64 b.contentHash = true ∧ b.contentHash = sha256 b.finalOutput) (status : String) :
    (rowOf VibeRunResult.resultEncoding status (some a)).map (resultRowShape sha256) =
      (rowOf VibeRunResult.resultEncoding status (some b)).map (resultRowShape sha256) := by
  obtain ⟨schema, text, exit, finalized, hash, evidence, artifacts, verification⟩ := a
  obtain ⟨schema', text', exit', finalized', hash', evidence', artifacts', verification'⟩ := b
  simp only [resultShape, ResultShape.mk.injEq, AgentTaskResult.mk.injEq] at h
  obtain ⟨⟨rfl, -, rfl, rfl, -, rfl, rfl, rfl⟩, hbytes, hsize, hhash⟩ := h
  have hsha : (hash == sha256 text) = true := beq_iff_eq.mpr ha.2
  have hsha' : (hash' == sha256 text') = true := beq_iff_eq.mpr hb.2
  by_cases hlarge : byteLen text' > VibeResult.maxFinalOutputBytes
  · simp only [rowOf, VibeResult.finalOutputText, VibeRunResult.resultEncoding, hbytes, if_pos hlarge]
    rfl
  have htext : VibeRunResult.resultEncoding.text text = .ok text := if_neg (hbytes ▸ hlarge)
  have htext' : VibeRunResult.resultEncoding.text text' = .ok text' := if_neg hlarge
  simp only [rowOf, VibeResult.finalOutputText, htext, htext', bind, Except.bind, Except.map,
    Option.bind_some, Option.map_some,
    Option.getD_some]
  cases VibeResult.refsJson VibeRunResult.resultEncoding evidence "evidence_refs" with
  | error e => rfl
  | ok evidence =>
  cases VibeResult.refsJson VibeRunResult.resultEncoding artifacts "artifact_refs" with
  | error e => rfl
  | ok artifacts =>
  cases VibeResult.verificationJson VibeRunResult.resultEncoding verification with
  | error e => rfl
  | ok verification =>
    simp only [pure, Except.pure, resultRowShape, Option.map_some, Option.getD_some, ha.1, hb.1, hsha,
      hsha', hbytes, hsize,
      hhash]

/-- **The row that a record is stored as.** -/
theorem recordRow_shape {r r' : Option VibeRunResult.RunRecord}
    (h : r.map (resultFieldsShape sha256) = r'.map (resultFieldsShape sha256)) :
    (VibeRunResult.recordRow sha256 r).map (resultRowShape sha256) =
      (VibeRunResult.recordRow sha256 r').map (resultRowShape sha256) := by
  have hsame : (VibeRunResult.recordResult sha256 r).1 = (VibeRunResult.recordResult sha256 r').1 ∧
      (VibeRunResult.recordResult sha256 r).2.map resultShape =
        (VibeRunResult.recordResult sha256 r').2.map resultShape := by
    cases r with
    | none =>
      obtain rfl := Option.map_eq_none_iff.mp h.symm
      exact ⟨rfl, rfl⟩
    | some r =>
      obtain ⟨r', rfl, hr⟩ := Option.map_eq_some_iff.mp h.symm
      exact ⟨congrArg FieldsShape.status hr.symm, congrArg FieldsShape.result hr.symm⟩
  unfold VibeRunResult.recordRow
  rw [hsame.1]
  cases ha : (VibeRunResult.recordResult sha256 r).2 with
  | none =>
    rw [ha] at hsame
    rw [Option.map_eq_none_iff.mp hsame.2.symm]
  | some a =>
    rw [ha] at hsame
    obtain ⟨b, hb, hshape⟩ := Option.map_eq_some_iff.mp hsame.2.symm
    obtain ⟨_, hvalid⟩ := recordResult_valid ha
    obtain ⟨_, hvalid'⟩ := recordResult_valid hb
    rw [hb]
    exact rowOf_shape hshape.symm (valid_hash hvalid) (valid_hash hvalid') _

/-- Two states of the disk of one shape. -/
structure SameDisk (sha256 : String → String) (d d' : VibeRunResult.NodeState) : Prop where
  journal : tablesShape d.journal = tablesShape d'.journal
  result : d.result.map (resultRowShape sha256) = d'.result.map (resultRowShape sha256)
  record : d.record.map (resultFieldsShape sha256) = d'.record.map (resultFieldsShape sha256)
  stored : d.result.isSome = true → d.journal.run.isSome = true

theorem SameDisk.stored' {d d' : VibeRunResult.NodeState} (h : SameDisk sha256 d d') (hs : d'.result.isSome = true) :
    d'.journal.run.isSome = true := by
  have hresult := congrArg Option.isSome h.result
  have hrun := congrArg Option.isSome (Prod.mk.inj h.journal).1
  simp only [Option.isSome_map] at hresult hrun
  rw [← hrun]
  exact h.stored (hresult.trans hs)

/-- A result that is there is not written again, and its run has a row. -/
theorem persist_kept {d : VibeRunResult.NodeState} (hs : d.result.isSome = true) (hrun : d.journal.run.isSome = true) :
    (VibeRunResult.persistTerminalResult sha256 d).2 = d := by
  obtain ⟨run, hr⟩ := Option.isSome_iff_exists.mp hrun
  have hensured : ensureRun d.journal "running" = d.journal := by
    unfold ensureRun
    rw [hr]
  obtain ⟨row, hrow⟩ := Option.isSome_iff_exists.mp hs
  unfold VibeRunResult.persistTerminalResult VibeRunResult.persistRunResult
  simp only [hrow, hensured]
  split
  · rfl
  · rw [← hrow]
  · rfl

/-- **Storing the result** of records of one shape. -/
theorem persist_shape {d d' : VibeRunResult.NodeState} (h : SameDisk sha256 d d') :
    SameDisk sha256 (VibeRunResult.persistTerminalResult sha256 d).2
      (VibeRunResult.persistTerminalResult sha256 d').2 := by
  cases hnone : d.result with
  | some row =>
    have hd : d.result.isSome = true := by rw [hnone]; rfl
    have hd' : d'.result.isSome = true := by
      have hsome := congrArg Option.isSome h.result
      rw [Option.isSome_map, Option.isSome_map, hd] at hsome
      exact hsome.symm
    rw [persist_kept hd (h.stored hd), persist_kept hd' (h.stored' hd')]
    exact h
  | none =>
    have hnone' : d'.result = none := by
      have hresult := h.result
      rw [hnone] at hresult
      exact Option.map_eq_none_iff.mp hresult.symm
    rw [VibeRunResult.persist_none hnone, VibeRunResult.persist_none hnone']
    have hrow := recordRow_shape h.record
    cases hr : VibeRunResult.recordRow sha256 d.record with
    | error e =>
      rw [hr] at hrow
      cases hr' : VibeRunResult.recordRow sha256 d'.record with
      | error e' => exact h
      | ok row' =>
        rw [hr'] at hrow
        exact nomatch hrow
    | ok row =>
      rw [hr] at hrow
      cases hr' : VibeRunResult.recordRow sha256 d'.record with
      | error e' =>
        rw [hr'] at hrow
        exact nomatch hrow
      | ok row' =>
        rw [hr'] at hrow
        refine ⟨ensureRun_shape h.journal "running", congrArg some (Except.ok.inj hrow), h.record, fun _ => ?_⟩
        show (ensureRun d.journal "running").run.isSome = true
        rw [ensureRun_run]
        rfl

/-- The answer of a Node that has no result yet is what it can store. -/
theorem resolve_answer {d : VibeRunResult.NodeState} (hnone : d.result = none) :
    (VibeRunResult.resolveNodeRunResult sha256 jsonParse d).1 =
      match VibeRunResult.getRunResult sha256 jsonParse (VibeRunResult.persistTerminalResult sha256 d).2 with
      | .ok (some nr) => .ok nr
      | _ => .ok ⟨"missing", none⟩ := by
  have hget : VibeRunResult.getRunResult sha256 jsonParse d = .ok none := by
    unfold VibeRunResult.getRunResult
    rw [hnone]
  unfold VibeRunResult.resolveNodeRunResult
  rw [hget]
  simp only
  rcases hp : VibeRunResult.persistTerminalResult sha256 d with ⟨e | b, d₁⟩
  · -- a write that throws leaves the Node without a result
    have hkept : d₁ = d := by
      unfold VibeRunResult.persistTerminalResult VibeRunResult.persistRunResult at hp
      rw [hnone] at hp
      simp only at hp
      split at hp
      · exact (Prod.mk.inj hp).2.symm
      · cases (Prod.mk.inj hp).1
    simp only [hkept, hget]
  · simp only
    split <;> simp_all

variable (jsonParse) in
/-- **A `run_result_request`** is answered alike, and leaves the same shapes. -/
theorem resolve_shape {d d' : VibeRunResult.NodeState} (h : SameDisk sha256 d d') :
    (VibeRunResult.resolveNodeRunResult sha256 jsonParse d).1.map answerShape =
        (VibeRunResult.resolveNodeRunResult sha256 jsonParse d').1.map answerShape ∧
      SameDisk sha256 (VibeRunResult.resolveNodeRunResult sha256 jsonParse d).2
        (VibeRunResult.resolveNodeRunResult sha256 jsonParse d').2 := by
  cases hnone : d.result with
  | none =>
    have hnone' : d'.result = none := by
      have hresult := h.result
      rw [hnone] at hresult
      exact Option.map_eq_none_iff.mp hresult.symm
    have hpersist := persist_shape h
    have hget := getRunResult_shape jsonParse hpersist.result
    rw [VibeRunResult.resolve_none hnone, VibeRunResult.resolve_none hnone', resolve_answer hnone,
      resolve_answer hnone']
    refine ⟨?_, hpersist⟩
    generalize VibeRunResult.getRunResult sha256 jsonParse
      (VibeRunResult.persistTerminalResult sha256 d).2 = g at hget ⊢
    generalize VibeRunResult.getRunResult sha256 jsonParse
      (VibeRunResult.persistTerminalResult sha256 d').2 = g' at hget ⊢
    rcases g with e | _ | nr <;> rcases g' with e' | _ | nr'
    · rfl
    · exact nomatch hget
    · exact nomatch hget
    · exact nomatch hget
    · rfl
    · exact nomatch hget
    · exact nomatch hget
    · exact nomatch hget
    · exact congrArg Except.ok (Option.some.inj (Except.ok.inj hget))
  | some row =>
    obtain ⟨row', hrow', -⟩ := Option.map_eq_some_iff.mp (h.result.symm.trans (congrArg _ hnone))
    rw [VibeRunResult.resolve_some hnone, VibeRunResult.resolve_some hrow']
    refine ⟨?_, h⟩
    have hget := getRunResult_shape jsonParse h.result
    have hsome : VibeRunResult.getRunResult sha256 jsonParse d ≠ .ok none := VibeRunResult.getRunResult_some hnone
    unfold VibeRunResult.resolveNodeRunResult
    generalize VibeRunResult.getRunResult sha256 jsonParse d = g at hget hsome ⊢
    generalize VibeRunResult.getRunResult sha256 jsonParse d' = g' at hget ⊢
    rcases g with e | _ | nr <;> rcases g' with e' | _ | nr'
    · exact congrArg Except.error (Except.error.inj hget)
    · exact nomatch hget
    · exact nomatch hget
    · exact nomatch hget
    · exact absurd rfl hsome
    · exact nomatch hget
    · exact nomatch hget
    · exact nomatch hget
    · exact congrArg Except.ok (Option.some.inj (Except.ok.inj hget))

end

/-! ## Two executions -/

/-- The two Nodes have the same memory, and files of one shape. -/
structure Alike (cfg : Config) (n n' : Node) : Prop where
  record : n.record.map (recordShape cfg.sha256) = n'.record.map (recordShape cfg.sha256)
  log : n.log.map eventShape = n'.log.map eventShape
  journal : tablesShape n.journal = tablesShape n'.journal
  result : n.result.map (resultRowShape cfg.sha256) = n'.result.map (resultRowShape cfg.sha256)
  stored : n.result.isSome = true → n.journal.run.isSome = true
  eventKey : n.eventKey = n'.eventKey
  tail : n.tail = n'.tail
  subs : n.subs.map subShape = n'.subs.map subShape

/-- What the run does differs only in what its events and its result say. -/
inductive ActionAlike (cfg : Config) : Action → Action → Prop
  | same (a : Action) : ActionAlike cfg a a
  | write (status : String) {r r' : VibeRunResult.RunRecord}
      (shape : resultFieldsShape cfg.sha256 r = resultFieldsShape cfg.sha256 r') :
      ActionAlike cfg (.write status r) (.write status r')
  | log {e e' : Json} (shape : eventShape e = eventShape e') : ActionAlike cfg (.log e) (.log e')

section

variable {cfg : Config} {n n' : Node}

theorem Alike.disk (h : Alike cfg n n') : SameDisk cfg.sha256 n.disk n'.disk where
  journal := h.journal
  result := h.result
  record := by
    have hfields (m : Node) : (m.record.map RunRecord.result).map (resultFieldsShape cfg.sha256) =
        (m.record.map (recordShape cfg.sha256)).map RecordShape.result := by
      simp only [Option.map_map]
      rfl
    show (n.record.map RunRecord.result).map _ = (n'.record.map RunRecord.result).map _
    rw [hfields n, hfields n', h.record]
  stored := h.stored

theorem Alike.withDisk (h : Alike cfg n n') {d d' : VibeRunResult.NodeState} (hd : SameDisk cfg.sha256 d d') :
    Alike cfg (n.withDisk d) (n'.withDisk d') :=
  ⟨h.record, h.log, hd.journal, hd.result, hd.stored, h.eventKey, h.tail, h.subs⟩

/-- Two records of one shape: the handlers read them alike, and their texts are of one length. -/
theorem recordShape_cases (h : Alike cfg n n') : (n.record = none ∧ n'.record = none) ∨
    ∃ r r', n.record = some r ∧ n'.record = some r' ∧ recordShape cfg.sha256 r = recordShape cfg.sha256 r' := by
  cases hr : n.record with
  | none => exact .inl ⟨rfl, Option.map_eq_none_iff.mp (h.record.symm.trans (congrArg _ hr))⟩
  | some r =>
    obtain ⟨r', hr', hshape⟩ := Option.map_eq_some_iff.mp (h.record.symm.trans (congrArg _ hr))
    exact .inr ⟨r, r', rfl, hr', hshape.symm⟩

theorem size_record {r r' : RunRecord} (h : recordShape cfg.sha256 r = recordShape cfg.sha256 r') :
    size r.json = size r'.json := by
  obtain ⟨runId, sessionId, nodeId, status, given, stop, approval, result⟩ := r
  obtain ⟨runId', sessionId', nodeId', status', given', stop', approval', result'⟩ := r'
  simp only [recordShape, resultFieldsShape, RecordShape.mk.injEq, FieldsShape.mk.injEq] at h
  obtain ⟨rfl, rfl, rfl, rfl, hgiven, rfl, rfl, hstatus, htask, -⟩ := h
  refine size_obj ?_
  simp only [List.map_append, hgiven, hstatus, present_shape "task_result" htask]

/-- An encrypted event shows its length. -/
theorem tailMessage_view {e e' : Json} (h : eventShape e = eventShape e') (k : String) (seq seq' : Option Nat) :
    view (tailMessage (some k) e seq) = view (tailMessage (some k) e' seq') :=
  congrArg Message.encryptedRunEvent (congrArg EventShape.size h)

theorem ending_alike (h : Alike cfg n n') {e e' : Json} (he : eventShape e = eventShape e') :
    Alike cfg (n.ending e) (n'.ending e') := by
  have hterm : isTerminal e = isTerminal e' := (journalInput_shape he "").2.2.1
  unfold Node.ending
  rw [hterm]
  split
  · exact ⟨h.record, h.log, h.journal, h.result, h.stored, h.eventKey, rfl, h.subs⟩
  · exact h

theorem fanout_shape {row row' : EventRow} (hrow : rowShape row = rowShape row') {s s' : ReplaySub}
    (h : subShape s = subShape s') : subShape (s.fanout row) = subShape (s'.fanout row') := by
  obtain ⟨ref, key, ⟨after, cutoff, maxQueue, replaying, queue, draining, emptying, overflowed, closed, delivered⟩⟩ := s
  obtain ⟨ref', key', ⟨after', cutoff', maxQueue', replaying', queue', draining', emptying',
    overflowed', closed', delivered'⟩⟩ := s'
  simp only [subShape, SubShape.mk.injEq] at h
  obtain ⟨rfl, rfl, rfl, rfl, hqueue, rfl, rfl, rfl⟩ := h
  have hlen : queue.length = queue'.length := by
    simpa only [List.length_map] using congrArg List.length hqueue
  have hseq : row.sequence = row'.sequence := congrArg RowShape.sequence hrow
  simp only [ReplaySub.fanout, fanout, hseq, List.length_append, List.length_singleton, hlen]
  split
  · simp only [subShape, hqueue]
  split
  · simp only [subShape, hqueue]
  split
  · rfl
  · simp only [subShape, List.map_append, hqueue, List.map_cons, List.map_nil, hrow]

theorem map_fanout_shape {row row' : EventRow} (hrow : rowShape row = rowShape row') {ss ss' : List ReplaySub}
    (h : ss.map subShape = ss'.map subShape) :
    (ss.map (ReplaySub.fanout row)).map subShape = (ss'.map (ReplaySub.fanout row')).map subShape := by
  induction ss generalizing ss' with
  | nil =>
    obtain rfl := List.map_eq_nil_iff.mp h.symm
    rfl
  | cons s ss ih =>
    cases ss' with
    | nil => exact nomatch h
    | cons s' ss' =>
      obtain ⟨hs, hrest⟩ := List.cons.inj h
      simp only [List.map_cons, fanout_shape hrow hs, ih hrest]

variable {keys : RunKeys}

theorem journaled_alike (h : Alike cfg n n') {db db' : RunTables} (hdb : tablesShape db = tablesShape db')
    (hrun : db.run.isSome = true) {row row' : EventRow} (hrow : rowShape row = rowShape row') :
    Alike cfg (n.journaled db row) (n'.journaled db' row') :=
  ⟨h.record, h.log, hdb, h.result, fun _ => hrun, h.eventKey, h.tail, map_fanout_shape hrow h.subs⟩

theorem finalized_alike (h : Alike cfg n n') {e e' : Json} (he : eventShape e = eventShape e') :
    Alike cfg (n.finalized cfg e) (n'.finalized cfg e') := by
  have hterm : isTerminal e = isTerminal e' := (journalInput_shape he "").2.2.1
  unfold Node.finalized
  rw [hterm]
  split
  · exact h.withDisk (persist_shape h.disk)
  · exact h

/-- An append leaves the run with a row, whether it throws or not. -/
theorem append_row (db : RunTables) (event : RunEventInput) : (append db event).2.run.isSome = true := by
  rcases append_cases db event with ⟨e, h⟩ | ⟨run, text, -, h⟩
  · rw [h, ensureRun_run]
    rfl
  · rw [h]
    rfl

/-- **One event of a poll.** -/
theorem tailEvent_alike (h : Alike cfg n n') (hg : Guarded keys n) {e e' : Json} (he : eventShape e = eventShape e')
    (now : String) : Alike cfg (tailEvent cfg now n e).1 (tailEvent cfg now n' e').1 ∧
      (tailEvent cfg now n e).2.map view = (tailEvent cfg now n' e').2.map view := by
  have hnull : e = .null ↔ e' = .null := by
    have hdec := congrArg EventShape.isNull he
    simpa only [eventShape, decide_eq_decide] using hdec
  cases ht : n.tail with
  | none =>
    have ht' : n'.tail = none := h.tail ▸ ht
    simp only [tailEvent, ht, ht']
    exact ⟨h, trivial⟩
  | some t =>
    have ht' : n'.tail = some t := h.tail ▸ ht
    simp only [tailEvent, ht, ht', hg.tail t ht, hnull]
    split
    · exact ⟨ending_alike h he, congrArg (· :: []) (tailMessage_view he _ _ _)⟩
    split
    · exact ⟨h, rfl⟩
    obtain ⟨hrow, htables⟩ := append_shape h.journal he now
    have hrun := append_row n.journal (journalInput now e)
    rcases ha : append n.journal (journalInput now e) with ⟨err | row, db⟩
    · rcases ha' : append n'.journal (journalInput now e') with ⟨err' | row', db'⟩
      · rw [ha, ha'] at htables
        rw [ha] at hrun
        exact ⟨⟨h.record, h.log, htables, h.result, fun _ => hrun, h.eventKey, h.tail, h.subs⟩, rfl⟩
      · rw [ha, ha'] at hrow
        exact nomatch hrow
    · rcases ha' : append n'.journal (journalInput now e') with ⟨err' | row', db'⟩
      · rw [ha, ha'] at hrow
        exact nomatch hrow
      · rw [ha, ha'] at hrow htables
        rw [ha] at hrun
        exact ⟨ending_alike (finalized_alike (journaled_alike h htables hrun (Option.some.inj hrow)) he) he,
          congrArg (· :: []) (tailMessage_view he _ _ _)⟩

/-- **A poll.** -/
theorem tailEvents_alike (h : Alike cfg n n') (hg : Guarded keys n) (now : String) {es es' : List Json}
    (hes : es.map eventShape = es'.map eventShape) :
    Alike cfg (tailEvents cfg now n es).1 (tailEvents cfg now n' es').1 ∧
      (tailEvents cfg now n es).2.map view = (tailEvents cfg now n' es').2.map view := by
  induction es generalizing n n' es' with
  | nil =>
    obtain rfl := List.map_eq_nil_iff.mp hes.symm
    exact ⟨h, rfl⟩
  | cons e es ih =>
    cases es' with
    | nil => exact nomatch hes
    | cons e' es' =>
      obtain ⟨he, hrest⟩ := List.cons.inj hes
      obtain ⟨hfirst, hview⟩ := tailEvent_alike h hg he now
      obtain ⟨hlast, hviews⟩ := ih hfirst (tailEvent_guarded hg now e).1 hrest
      refine ⟨hlast, ?_⟩
      simp only [tailEvents, List.map_append, hview, hviews]

theorem poll_alike (h : Alike cfg n n') (hg : Guarded keys n) (now : String) :
    Alike cfg (poll cfg now n).1 (poll cfg now n').1 ∧ (poll cfg now n).2.map view = (poll cfg now n').2.map view := by
  cases ht : n.tail with
  | none =>
    have ht' : n'.tail = none := h.tail ▸ ht
    simp only [poll, ht, ht']
    exact ⟨h, trivial⟩
  | some t =>
    have ht' : n'.tail = some t := h.tail ▸ ht
    have hlen : n.log.length = n'.log.length := by
      simpa only [List.length_map] using congrArg List.length h.log
    have hmoved : Alike cfg { n with tail := some { t with offset := n'.log.length } }
        { n' with tail := some { t with offset := n'.log.length } } :=
      ⟨h.record, h.log, h.journal, h.result, h.stored, h.eventKey, rfl, h.subs⟩
    simp only [poll, ht, ht', hlen]
    refine tailEvents_alike hmoved (hg.moved ht _) now ?_
    rw [List.map_drop, List.map_drop, h.log]

/-! ## Replay -/

/-- Replayed rows of one shape show their numbers and lengths. -/
theorem replay_view {r r' : ReplaySub} {k : String} (href : r.ref = r'.ref) (hkey : r.key = some k)
    (hkey' : r'.key = some k)
    {rows rows' : List EventRow} (h : rows.map rowShape = rows'.map rowShape) :
    (rows.map (replayMessage r)).map view = (rows'.map (replayMessage r')).map view := by
  induction rows generalizing rows' with
  | nil =>
    obtain rfl := List.map_eq_nil_iff.mp h.symm
    rfl
  | cons row rows ih =>
    cases rows' with
    | nil => exact nomatch h
    | cons row' rows' =>
      obtain ⟨hrow, hrest⟩ := List.cons.inj h
      have hseq : row.sequence = row'.sequence := congrArg RowShape.sequence hrow
      have hlen : byteLen row.payloadJson = byteLen row'.payloadJson := congrArg RowShape.bytes hrow
      have hfirst : view (replayMessage r row) = view (replayMessage r' row') := by
        simp only [view, replayMessage, eventBody, hkey, hkey', Message.map, Body.map, Sealed.length, href, hseq, hlen]
      simp only [List.map_cons, hfirst, ih hrest]

theorem drained_shape {r r' : ReplaySub} (h : subShape r = subShape r') :
    subShape r.drained.1 = subShape r'.drained.1 := by
  obtain ⟨ref, key, ⟨after, cutoff, maxQueue, replaying, queue, draining, emptying, overflowed, closed, delivered⟩⟩ := r
  obtain ⟨ref', key', ⟨after', cutoff', maxQueue', replaying', queue', draining', emptying',
    overflowed', closed', delivered'⟩⟩ := r'
  simp only [subShape, SubShape.mk.injEq] at h
  obtain ⟨rfl, rfl, rfl, rfl, hqueue, rfl, rfl, rfl⟩ := h
  cases draining <;> cases closed <;> cases overflowed <;> simp [ReplaySub.drained, Sub.live, subShape, hqueue]

theorem drained_view {r r' : ReplaySub} (h : subShape r = subShape r') (hkey : r.key = some keys.event ∨
    r.sub.queue = []) :
    r.drained.2.map view = r'.drained.2.map view := by
  have href : r.ref = r'.ref := congrArg SubShape.ref h
  have hkeys : r.key = r'.key := congrArg SubShape.key h
  have hqueue : r.sub.queue.map rowShape = r'.sub.queue.map rowShape := congrArg SubShape.queue h
  have hdraining : r.sub.draining = r'.sub.draining := congrArg SubShape.draining h
  have hlive : r.sub.live = r'.sub.live := by
    have hover : r.sub.overflowed = r'.sub.overflowed := congrArg SubShape.overflowed h
    have hclosed : r.sub.closed = r'.sub.closed := congrArg SubShape.closed h
    simp only [Sub.live, hover, hclosed]
  simp only [ReplaySub.drained, hdraining, hlive]
  split
  · split
    · rcases hkey with hkey | hempty
      · exact replay_view href hkey (hkeys.symm.trans hkey) hqueue
      · have hempty' : r'.sub.queue = [] := by
          rw [hempty] at hqueue
          exact List.map_eq_nil_iff.mp hqueue.symm
        simp only [hempty, hempty', List.map_nil]
    · rfl
  · rfl

/-- The subscribers with a number. -/
theorem sub_cases (h : Alike cfg n n') (i : Nat) : (n.subs[i]? = none ∧ n'.subs[i]? = none) ∨
    ∃ r r', n.subs[i]? = some r ∧ n'.subs[i]? = some r' ∧ subShape r = subShape r' := by
  have hget : (n.subs[i]?).map subShape = (n'.subs[i]?).map subShape := by
    rw [← List.getElem?_map, ← List.getElem?_map, h.subs]
  cases hr : n.subs[i]? with
  | none => exact .inl ⟨rfl, Option.map_eq_none_iff.mp (hget.symm.trans (congrArg _ hr))⟩
  | some r =>
    obtain ⟨r', hr', hshape⟩ := Option.map_eq_some_iff.mp (hget.symm.trans (congrArg _ hr))
    exact .inr ⟨r, r', rfl, hr', hshape.symm⟩

theorem drain_alike (h : Alike cfg n n') (hg : Guarded keys n) (i : Nat) :
    Alike cfg (drainSub n i).1 (drainSub n' i).1 ∧ (drainSub n i).2.map view = (drainSub n' i).2.map view := by
  rcases sub_cases h i with ⟨hr, hr'⟩ | ⟨r, r', hr, hr', hshape⟩
  · simp only [drainSub, hr, hr']
    exact ⟨h, trivial⟩
  · simp only [drainSub, hr, hr']
    refine ⟨⟨h.record, h.log, h.journal, h.result, h.stored, h.eventKey, h.tail, ?_⟩, ?_⟩
    · show (n.subs.set i r.drained.1).map subShape = (n'.subs.set i r'.drained.1).map subShape
      rw [List.map_set, List.map_set, h.subs, drained_shape hshape]
    · exact drained_view hshape ((hg.subs r (List.mem_of_getElem? hr)).imp_right And.left)

theorem open_alike (h : Alike cfg n n') (ref : String) (afterSequence : Int) :
    Alike cfg (openReplay cfg n ref afterSequence).1 (openReplay cfg n' ref afterSequence).1 := by
  unfold openReplay
  split
  · exact h
  refine ⟨h.record, h.log, h.journal, h.result, h.stored, h.eventKey, h.tail, ?_⟩
  simp only [List.map_append, h.subs, List.map_cons, List.map_nil, subShape, subscribe, h.eventKey,
    lastSequence_shape h.journal]

theorem open_view (h : Alike cfg n n') (hg : Guarded keys n) (ref : String) (afterSequence : Int)
    (hd : Discreet cfg n (.replayOpen ref afterSequence)) :
    (openReplay cfg n ref afterSequence).2.map view = (openReplay cfg n' ref afterSequence).2.map view := by
  simp only [openReplay, Option.isNone_iff_eq_none]
  split
  · rfl
  rename_i hjournal
  have hrows := readEvents_shape h.journal afterSequence readLimit
  simp only [List.map_append, replayMetadata_shape h.journal, subscribe]
  congr 1
  rcases hd with hkey | hnone | hempty
  · -- the key is there, so the snapshot is encrypted
    have hsome : n.eventKey = some keys.event := by
      rcases hg.memory with hsome | ⟨hnone, -⟩
      · exact hsome
      · rw [hnone] at hkey
        cases hkey
    refine replay_view (k := keys.event) ?_ ?_ ?_ hrows
    · rfl
    · exact hsome
    · exact h.eventKey ▸ hsome
  · exact absurd hnone hjournal
  · have hempty' : readEvents n'.journal afterSequence readLimit = [] := by
      rw [hempty] at hrows
      exact List.map_eq_nil_iff.mp hrows.symm
    simp only [hempty, hempty', List.map_nil]

/-! ## Requests -/

theorem status_alike {r r' : RunRecord} (h : recordShape cfg.sha256 r = recordShape cfg.sha256 r') :
    r.status = r'.status :=
  congrArg RecordShape.status h

/-- Two records of one shape, with the same new status and results of one shape. -/
theorem recordShape_update {r r' : RunRecord} (h : recordShape cfg.sha256 r = recordShape cfg.sha256 r')
    (status : String)
    {f f' : VibeRunResult.RunRecord} (hf : resultFieldsShape cfg.sha256 f = resultFieldsShape cfg.sha256 f') :
    recordShape cfg.sha256 { r with status := status, result := f } =
      recordShape cfg.sha256 { r' with status := status, result := f' } := by
  simp only [recordShape, RecordShape.mk.injEq] at h ⊢
  obtain ⟨hid, hsession, hnode, -, hgiven, hstop, happroval, -⟩ := h
  exact ⟨hid, hsession, hnode, trivial, hgiven, hstop, happroval, hf⟩

/-- **A stop** changes the same, and answers with texts of one length. -/
theorem runStop_alike (h : Alike cfg n n') (now runId : String) :
    Alike cfg (runStopLogic now runId n).1 (runStopLogic now runId n').1 ∧
      size (stopAckJson (runStopLogic now runId n).2) = size (stopAckJson (runStopLogic now runId n').2) := by
  rcases recordShape_cases h with ⟨hr, hr'⟩ | ⟨r, r', hr, hr', hshape⟩
  · simp only [runStopLogic, hr, hr']
    exact ⟨h, trivial⟩
  simp only [runStopLogic, hr, hr', status_alike hshape]
  split
  · exact ⟨h, rfl⟩
  · have hsession : r.sessionId = r'.sessionId := congrArg RecordShape.sessionId hshape
    have hstopped := recordShape_update hshape "stopped" (congrArg RecordShape.result hshape)
    refine ⟨⟨congrArg some hstopped, ?_, h.journal, h.result, h.stored, h.eventKey, h.tail, h.subs⟩, ?_⟩
    · simp only [List.map_append, h.log, hsession]
    · refine size_obj ?_
      have hsize : size (RunRecord.json { r with status := "stopped" }) = size (RunRecord.json { r' with status := "stopped" }) :=
        size_record hstopped
      simp only [List.map_cons, List.map_nil, fieldShape, hsize]

/-- A stop that is refused is refused with the same words. -/
theorem runStop_view (h : Alike cfg n n') (now runId reqId : String) (hd : Discreet cfg n (.stopRequest reqId now)) :
    (runStopLogic now runId n).2 = (runStopLogic now runId n').2 := by
  rcases recordShape_cases h with ⟨hr, hr'⟩ | ⟨r, r', hr, hr', hshape⟩
  · simp only [runStopLogic, hr, hr']
  · have hterm := List.contains_iff_mem.mpr (hd r hr)
    have hstatus := status_alike hshape
    simp only [runStopLogic, hr, hr', hterm, ← hstatus, if_true]

theorem resultJson_size {a b : AgentTaskResult} (h : resultShape a = resultShape b) :
    byteLen (stringify (resultJson a)) = byteLen (stringify (resultJson b)) := by
  obtain ⟨schema, text, exit, finalized, hash, evidence, artifacts, verification⟩ := a
  obtain ⟨schema', text', exit', finalized', hash', evidence', artifacts', verification'⟩ := b
  simp only [resultShape, ResultShape.mk.injEq, AgentTaskResult.mk.injEq] at h
  obtain ⟨⟨rfl, -, rfl, rfl, -, rfl, rfl, rfl⟩, -, hsize, hhash⟩ := h
  have htext : size (.str text) = size (.str text') := hsize
  have hhash' : size (.str hash) = size (.str hash') := hhash
  have houtput : size (.obj [("kind", .str "text"), ("text", .str text)]) =
      size (.obj [("kind", .str "text"), ("text", .str text')]) := by
    refine size_obj ?_
    simp only [List.map_cons, List.map_nil, fieldShape, htext]
  refine size_obj ?_
  simp only [List.map_append, List.map_cons, List.map_nil, fieldShape, houtput, hhash']

theorem resolveNode_alike (h : Alike cfg n n') :
    (resolveNodeRunResult cfg n).1.map answerShape = (resolveNodeRunResult cfg n').1.map answerShape ∧
      Alike cfg (resolveNodeRunResult cfg n).2 (resolveNodeRunResult cfg n').2 := by
  unfold resolveNodeRunResult
  split
  · exact ⟨rfl, h⟩
  · obtain ⟨hanswer, hdisk⟩ := resolve_shape cfg.jsonParse h.disk
    exact ⟨hanswer, h.withDisk hdisk⟩

/-- The answer to a `run_result_request`, while the event key is there or there is nothing to say. -/
theorem result_view (h : Alike cfg n n') (reqId : String) (hd : Discreet cfg n (.resultRequest reqId)) :
    view (.runResultAck reqId (resultAnswer n.eventKey (resolveNodeRunResult cfg n).1)) =
      view (.runResultAck reqId (resultAnswer n'.eventKey (resolveNodeRunResult cfg n').1)) := by
  obtain ⟨hanswer, -⟩ := resolveNode_alike h
  simp only [Discreet] at hd
  rw [← h.eventKey]
  generalize (resolveNodeRunResult cfg n).1 = g at hanswer hd ⊢
  generalize (resolveNodeRunResult cfg n').1 = g' at hanswer ⊢
  rcases g with e | ⟨status, result⟩ <;> rcases g' with e' | ⟨status', result'⟩
  · cases hanswer
    rfl
  · cases hanswer
  · cases hanswer
  · obtain ⟨hstatus, hresult⟩ := Prod.mk.inj (Except.ok.inj hanswer)
    simp only at hstatus hresult
    subst hstatus
    cases result with
    | none =>
      obtain rfl := Option.map_eq_none_iff.mp hresult.symm
      rfl
    | some a =>
      obtain ⟨b, rfl, hb⟩ := Option.map_eq_some_iff.mp hresult.symm
      rcases hd with hkey | hnothing
      · obtain ⟨k, hk⟩ := Option.isSome_iff_exists.mp hkey
        simp only [resultAnswer, hk, Option.map_some, resultBody, view, Message.map, Except.map,
          Body.map, Sealed.length,
          resultJson_size hb]
      · cases hnothing _ rfl

/-- The view of a stop's answer, encrypted. -/
theorem encryptedStop_alike (h : Alike cfg n n') (reqId now runId : String) (intact : Bool) (reason : Option String) :
    Alike cfg (handleEncryptedRunStop n reqId now runId keys intact reason).1
        (handleEncryptedRunStop n' reqId now runId keys intact reason).1 ∧
      (handleEncryptedRunStop n reqId now runId keys intact reason).2.map view =
        (handleEncryptedRunStop n' reqId now runId keys intact reason).2.map view := by
  have hkey : n.record.bind RunRecord.stopAesKey = n'.record.bind RunRecord.stopAesKey := by
    rcases recordShape_cases h with ⟨hr, hr'⟩ | ⟨r, r', hr, hr', hshape⟩
    · rw [hr, hr']
    · rw [hr, hr']
      exact congrArg RecordShape.stopAesKey hshape
  simp only [handleEncryptedRunStop, hkey]
  split
  · exact ⟨h, rfl⟩
  split
  · exact ⟨h, rfl⟩
  · obtain ⟨hstopped, hsize⟩ := runStop_alike h now runId
    refine ⟨hstopped, ?_⟩
    have hlen : byteLen (stringify (stopAckJson (runStopLogic now runId n).2)) =
        byteLen (stringify (stopAckJson (runStopLogic now runId n').2)) := hsize
    simp only [List.map_cons, List.map_nil, view, Message.map, Sealed.length, hlen]

theorem approval_alike (h : Alike cfg n n') (reqId now runId : String) (intact : Bool) (payload : ApprovalPayload) :
    Alike cfg (handleEncryptedApprovalResponse n reqId now runId keys intact payload).1
        (handleEncryptedApprovalResponse n' reqId now runId keys intact payload).1 ∧
      (handleEncryptedApprovalResponse n reqId now runId keys intact payload).2.map view =
        (handleEncryptedApprovalResponse n' reqId now runId keys intact payload).2.map view := by
  have hkey : n.record.bind RunRecord.approvalAesKey = n'.record.bind RunRecord.approvalAesKey := by
    rcases recordShape_cases h with ⟨hr, hr'⟩ | ⟨r, r', hr, hr', hshape⟩
    · rw [hr, hr']
    · rw [hr, hr']
      exact congrArg RecordShape.approvalAesKey hshape
  simp only [handleEncryptedApprovalResponse, hkey]
  split
  · exact ⟨h, rfl⟩
  split
  · exact ⟨h, rfl⟩
  · refine ⟨⟨h.record, ?_, h.journal, h.result, h.stored, h.eventKey, h.tail, h.subs⟩, rfl⟩
    simp only [List.map_append, h.log]

/-- **One step of each execution**: the Nodes stay alike, whatever the step. -/
theorem step_alike (h : Alike cfg n n') (hg : Guarded keys n) (runId : String) {a a' : Action}
    (ha : ActionAlike cfg a a') :
    Alike cfg (step cfg runId keys n a).1 (step cfg runId keys n' a').1 := by
  cases ha with
  | write status hshape =>
    refine ⟨?_, h.log, h.journal, h.result, h.stored, h.eventKey, h.tail, h.subs⟩
    rcases recordShape_cases h with ⟨hr, hr'⟩ | ⟨r, r', hr, hr', hrec⟩
    · simp only [step, hr, hr', Option.map_none]
    · simp only [step, hr, hr', Option.map_some, recordShape_update hrec status hshape]
  | log hshape =>
    refine ⟨h.record, ?_, h.journal, h.result, h.stored, h.eventKey, h.tail, h.subs⟩
    simp only [step, List.map_append, h.log, List.map_cons, List.map_nil, hshape]
  | same =>
  cases a with
  | write status result =>
    refine ⟨?_, h.log, h.journal, h.result, h.stored, h.eventKey, h.tail, h.subs⟩
    rcases recordShape_cases h with ⟨hr, hr'⟩ | ⟨r, r', hr, hr', hrec⟩
    · simp only [step, hr, hr', Option.map_none]
    · simp only [step, hr, hr', Option.map_some, recordShape_update hrec status rfl]
  | log event =>
    refine ⟨h.record, ?_, h.journal, h.result, h.stored, h.eventKey, h.tail, h.subs⟩
    simp only [step, List.map_append, h.log]
  | poll now => exact (poll_alike h hg now).1
  | idle => exact ⟨h.record, h.log, h.journal, h.result, h.stored, h.eventKey, rfl, h.subs⟩
  | drain i => exact (drain_alike h hg i).1
  | replayOpen ref afterSequence => exact open_alike h ref afterSequence
  | replayClose ref i =>
    refine ⟨h.record, h.log, h.journal, h.result, h.stored, h.eventKey, h.tail, ?_⟩
    refine List.ext_getElem? fun j => ?_
    simp only [step, List.getElem?_map, List.getElem?_modify]
    rcases sub_cases h j with ⟨hr, hr'⟩ | ⟨r, r', hr, hr', hshape⟩
    · rw [hr, hr']
    · have hclosed : subShape { r with sub := closeSub r.sub } = subShape { r' with sub := closeSub r'.sub } := by
        simp only [subShape, closeSub, SubShape.mk.injEq] at hshape ⊢
        obtain ⟨href, hkey, hcutoff, hmax, hqueue, hdraining, hover, -⟩ := hshape
        exact ⟨href, hkey, hcutoff, hmax, hqueue, hdraining, hover, trivial⟩
      rw [hr, hr']
      simp only [Functor.map, Option.map]
      split
      · exact congrArg some hclosed
      · exact congrArg some hshape
  | statusRequest reqId => exact h
  | resultRequest reqId => exact (resolveNode_alike h).2
  | stopRequest reqId now => exact (runStop_alike h now runId).1
  | encryptedStop reqId now intact reason => exact (encryptedStop_alike h reqId now runId intact reason).1
  | approval reqId now intact payload => exact (approval_alike h reqId now runId intact payload).1
  | restart => exact ⟨h.record, h.log, h.journal, h.result, h.stored, rfl, rfl, rfl⟩

/-- **What the relay sees** of one discreet step of each. -/
theorem step_view (h : Alike cfg n n') (hg : Guarded keys n) (runId : String) {a a' : Action}
    (ha : ActionAlike cfg a a')
    (hd : Discreet cfg n a) : (step cfg runId keys n a).2.map view = (step cfg runId keys n' a').2.map view := by
  cases ha with
  | write status hshape => rfl
  | log hshape => rfl
  | same =>
  cases a with
  | write status result => rfl
  | log event => rfl
  | poll now => exact (poll_alike h hg now).2
  | idle => rfl
  | drain i => exact (drain_alike h hg i).2
  | replayOpen ref afterSequence => exact congrArg (_ :: ·) (open_view h hg ref afterSequence hd)
  | replayClose ref i => rfl
  | statusRequest reqId =>
    have hnone' : n'.record = none := Option.map_eq_none_iff.mp (h.record.symm.trans (congrArg _ hd))
    have hnone : n.record = none := hd
    simp only [step, handleRunStatus, hnone, hnone']
  | resultRequest reqId => exact congrArg (fun m => [_, m]) (result_view h reqId hd)
  | stopRequest reqId now => simp only [step, runStop_view h now runId reqId hd]
  | encryptedStop reqId now intact reason => exact (encryptedStop_alike h reqId now runId intact reason).2
  | approval reqId now intact payload => exact (approval_alike h reqId now runId intact payload).2
  | restart => rfl

end

/-! ## The start -/

/-- The lengths of what a payload gives, and which fields it gives. -/
structure PayloadShape where
  agent : Nat
  cwd : Option Nat
  workspaceKey : Option Nat
  workspaceWrite : Bool
  leaseId : Option Nat
  promptContent : Option Nat
  repoUrl : Option Nat
  branch : Option Nat
  permissionMode : Option Nat
  metadata : Option Nat
  verify : Option Nat
deriving DecidableEq

def payloadShape (cfg : Config) (p : StartPayload) : PayloadShape where
  agent := textSize p.agent
  cwd := (given p.cwd).map textSize
  workspaceKey := (given p.workspaceKey).map textSize
  workspaceWrite := p.workspaceWrite
  leaseId := (presentedLeaseId p.toRunStart).map fun l => textSize (cfg.leaseText l)
  promptContent := p.promptContent.map textSize
  repoUrl := (given p.repoUrl).map textSize
  branch := (given p.branch).map textSize
  permissionMode := (given p.permissionMode).map textSize
  metadata := (p.metadata.filter VibeRunResult.truthy).map size
  verify := (p.verify.filter VibeRunResult.truthy).map size

/-- Two starts whose payloads differ only in what they say.  A Node that reads them admits both, with paths
    of one length, or neither. -/
structure StartsAlike (cfg : Config) (s s' : Start) : Prop where
  reqId : s.reqId = s'.reqId
  hasIdentity : s.hasIdentity = s'.hasIdentity
  intact : s.intact = s'.intact
  keys : s.keys = s'.keys
  env : s.env = s'.env
  payload : payloadShape cfg s.payload = payloadShape cfg s'.payload
  decided : s.hasIdentity = true → s.intact = true →
    (admission cfg s).toOption.map (fun r => (textSize r.workspacePath, textSize r.workspaceKey)) =
      (admission cfg s').toOption.map (fun r => (textSize r.workspacePath, textSize r.workspaceKey))

section

variable {cfg : Config} {p p' : StartPayload}

theorem commonFields_shape (h : payloadShape cfg p = payloadShape cfg p') :
    (commonFields cfg p).map fieldShape = (commonFields cfg p').map fieldShape := by
  simp only [payloadShape, PayloadShape.mk.injEq] at h
  obtain ⟨-, -, -, hwrite, hlease, -, hrepo, hbranch, hmode, hmeta, hverify⟩ := h
  have hlease' : ((presentedLeaseId p.toRunStart).map fun l => Json.str (cfg.leaseText l)).map size =
      ((presentedLeaseId p'.toRunStart).map fun l => Json.str (cfg.leaseText l)).map size := by
    rw [Option.map_map, Option.map_map]
    exact hlease
  simp only [commonFields, List.map_append, present_str_shape "repo_url" hrepo, present_str_shape "branch" hbranch,
    present_str_shape "permission_mode" hmode, present_shape "verify" hverify, present_shape "metadata" hmeta,
    present_shape "workspace_lease_id" hlease', hwrite]

theorem given_idem (t : Option String) : given (given t) = given t := by
  simp only [given, Option.filter_filter, Bool.and_self]

theorem truthy_idem (v : Option Json) :
    (v.filter VibeRunResult.truthy).filter VibeRunResult.truthy = v.filter VibeRunResult.truthy := by
  simp only [Option.filter_filter, Bool.and_self]

theorem presented_idem (p : StartPayload) :
    presentedLeaseId (synthetic p).toRunStart = presentedLeaseId p.toRunStart := by
  simp only [presentedLeaseId, synthetic, Option.filter_filter, Bool.and_self]

/-- What the Node makes of a payload has its shape. -/
theorem synthetic_shape (h : payloadShape cfg p = payloadShape cfg p') :
    payloadShape cfg (synthetic p) = payloadShape cfg (synthetic p') := by
  have hsame (q : StartPayload) : payloadShape cfg (synthetic q) = payloadShape cfg q := by
    simp only [payloadShape, presented_idem]
    simp only [synthetic, given_idem, truthy_idem]
  rw [hsame, hsame, h]

theorem payload_size (h : payloadShape cfg p = payloadShape cfg p') : size (p.json cfg) = size (p'.json cfg) := by
  have hcommon := commonFields_shape h
  simp only [payloadShape, PayloadShape.mk.injEq] at h
  obtain ⟨hagent, hcwd, hkey, -, -, hprompt, -⟩ := h
  have hagent' : fieldShape ("agent", .str p.agent) = fieldShape ("agent", .str p'.agent) :=
    congrArg (Prod.mk "agent") hagent
  refine size_obj ?_
  simp only [List.map_append, List.map_cons, List.map_nil, hagent', hcommon, present_str_shape "workspace_key" hkey,
    present_str_shape "prompt_content" hprompt, present_str_shape "cwd" hcwd]

variable {s s' : Start}

/-- Two admitted runs of one shape. -/
theorem newRecord_shape (h : StartsAlike cfg s s') {r r' : VibeNode.RunRecord} (hid : r.runId = r'.runId)
    (hpath : textSize r.workspacePath = textSize r'.workspacePath)
    (hkey : textSize r.workspaceKey = textSize r'.workspaceKey) :
    recordShape cfg.sha256 (newRecord cfg s r) = recordShape cfg.sha256 (newRecord cfg s' r') := by
  have hcommon := commonFields_shape (synthetic_shape h.payload)
  have hagent : textSize s.payload.agent = textSize s'.payload.agent := congrArg PayloadShape.agent h.payload
  have hprompt : (promptFile cfg r.runId s.payload) = (promptFile cfg r'.runId s'.payload) := by
    have hshape : s.payload.promptContent.map textSize = s'.payload.promptContent.map textSize :=
      congrArg PayloadShape.promptContent h.payload
    cases hs : s.payload.promptContent with
    | none =>
      rw [hs] at hshape
      simp only [promptFile, hs, Option.map_eq_none_iff.mp hshape.symm, Option.map_none]
    | some t =>
      rw [hs] at hshape
      obtain ⟨t', ht', -⟩ := Option.map_eq_some_iff.mp hshape.symm
      simp only [promptFile, hs, ht', hid, Option.map_some]
  have hfield {name t t' : String} (ht : textSize t = textSize t') :
    fieldShape (name, .str t) = fieldShape (name, .str t') :=
    congrArg (Prod.mk name) ht
  simp only [recordShape, newRecord, hprompt, h.keys, List.map_append, List.map_cons, List.map_nil, hcommon,
    hfield hagent, hfield hpath, hfield hkey]
  rw [hid]

theorem boundJournal_shape {l l' : Option LeaseId} (h : l.isSome = l'.isSome) (bindFault : Bool) :
    tablesShape (boundJournal cfg bindFault l) = tablesShape (boundJournal cfg bindFault l') := by
  cases l with
  | none =>
    cases l' with
    | none => rfl
    | some l' => exact nomatch h
  | some l =>
    cases l' with
    | none => exact nomatch h
    | some l' =>
      simp only [boundJournal]
      split <;> rfl

/-- **The start of each execution** leaves Nodes that are alike. -/
theorem start_alike (h : StartsAlike cfg s s') :
    Alike cfg (handleEncryptedRunStart cfg s).1 (handleEncryptedRunStart cfg s').1 := by
  have hempty : Alike cfg Node.empty Node.empty := ⟨rfl, rfl, rfl, rfl, nofun, rfl, rfl, rfl⟩
  simp only [handleEncryptedRunStart, ← h.hasIdentity, ← h.intact]
  split
  · exact hempty
  split
  · exact hempty
  rename_i hid hin
  have hdecided := h.decided (by simpa using hid) (by simpa using hin)
  unfold handleRunStart
  cases ha : admission cfg s with
  | error ack =>
    rw [ha] at hdecided
    cases ha' : admission cfg s' with
    | error ack' => exact hempty
    | ok r' =>
      rw [ha'] at hdecided
      exact nomatch hdecided
  | ok r =>
    rw [ha] at hdecided
    cases ha' : admission cfg s' with
    | error ack' =>
      rw [ha'] at hdecided
      exact nomatch hdecided
    | ok r' =>
      rw [ha'] at hdecided
      obtain ⟨hpath, hkey⟩ := Prod.mk.inj (Option.some.inj hdecided)
      have hadm := (VibeNode.admitRun_ok.mp ha).identity
      have hadm' := (VibeNode.admitRun_ok.mp ha').identity
      have hrun : r.runId = r'.runId := by
        rw [hadm, hadm', h.env]
      have hlease : r.leaseId.isSome = r'.leaseId.isSome := by
        have hshape := congrArg (fun q => q.leaseId.isSome) (synthetic_shape h.payload)
        simp only [payloadShape, Option.isSome_map] at hshape
        rw [hadm, hadm']
        exact hshape
      have hrecord := newRecord_shape h hrun hpath hkey
      have hjournal : tablesShape (recorded cfg s r).journal = tablesShape (recorded cfg s' r').journal := by
        show tablesShape (boundJournal cfg s.env.bindFault r.leaseId) =
          tablesShape (boundJournal cfg s'.env.bindFault r'.leaseId)
        rw [h.env]
        exact boundJournal_shape hlease _
      have hrecorded : Alike cfg (recorded cfg s r) (recorded cfg s' r') :=
        ⟨congrArg some hrecord, rfl, hjournal, rfl, nofun, congrArg (fun k : RunKeys => some k.event) h.keys, rfl, rfl⟩
      simp only [← h.env]
      split
      · exact hrecorded
      split
      · exact hrecorded
      · exact ⟨hrecorded.record, rfl, hjournal, rfl, nofun, rfl, rfl, rfl⟩
      · rename_i sessionId _ _ _
        have hrunning : recordShape cfg.sha256 { newRecord cfg s r with sessionId := sessionId, status := "running" } =
            recordShape cfg.sha256 { newRecord cfg s' r' with sessionId := sessionId, status := "running" } := by
          simp only [recordShape, RecordShape.mk.injEq] at hrecord ⊢
          obtain ⟨hid, -, hnode, -, hrest⟩ := hrecord
          exact ⟨hid, trivial, hnode, trivial, hrest⟩
        exact ⟨congrArg some hrunning, rfl, hjournal, rfl, nofun, hrecorded.eventKey,
          congrArg (fun k => some (Tail.mk k 0)) hrecorded.eventKey, rfl⟩

/-- A start that is not read shows the length of its payload. -/
theorem start_view (h : StartsAlike cfg s s') (hs : s.Unread) :
    (handleEncryptedRunStart cfg s).2.map view = (handleEncryptedRunStart cfg s').2.map view := by
  have hlen : byteLen (stringify (s.payload.json cfg)) =
    byteLen (stringify (s'.payload.json cfg)) := payload_size h.payload
  simp only [handleEncryptedRunStart, ← h.hasIdentity, ← h.intact, ← h.reqId]
  split
  · simp only [List.map_cons, List.map_nil, view, Message.map, Sealed.length, hlen]
  split
  · simp only [List.map_cons, List.map_nil, view, Message.map, Sealed.length, hlen]
  rename_i hid hin
  rcases hs with hno | hno
  · exact absurd hno (by simpa using hid)
  · exact absurd hno (by simpa using hin)

end

/-! ## Runs -/

/-- Both executions so far: alike, and with the keys where they are needed. -/
def Related (cfg : Config) (keys : RunKeys) (n n' : Node) : Prop := Alike cfg n n' ∧ Guarded keys n

theorem unwinds (cfg : Config) (runId : String) (keys : RunKeys) :
    Unwinds (step cfg runId keys) view (Discreet cfg) (Related cfg keys) (ActionAlike cfg) where
  keeps := fun h ha => ⟨step_alike h.1 h.2 runId ha, step_guarded h.2 runId _⟩
  shows := fun h ha hd => step_view h.1 h.2 runId ha hd

/-- A step lets out nothing of the run exactly when it is discreet. -/
def Kept (cfg : Config) (runId : String) (keys : RunKeys) (n : Node) (a : Action) : Prop :=
  exposed (step cfg runId keys n a).2 = [] ↔ Discreet cfg n a

theorem run_kept {cfg : Config} {keys : RunKeys} {n : Node} (h : Guarded keys n) (runId : String) (as : List Action) :
    Always (Machine.next (step cfg runId keys)) (Kept cfg runId keys) n as := by
  refine (always_of_forall (p := fun _ _ => True) (fun _ _ => trivial) n as).imp (Guarded keys) ?_ ?_ h
  · exact fun n a hn _ => step_guarded hn runId a
  · exact fun n a hn _ => step_exposes hn runId a

/-- **What the relay learns of an encrypted run.**  A start that the Node cannot read looks the same whatever
    it says, and a start tells something exactly when the run is started.  After that, in any two executions
    that differ in contents only, every discreet step looks the same; and a step tells something exactly when
    it is not discreet. -/
theorem relay_view (cfg : Config) {s s' : Start} (hs : StartsAlike cfg s s') {as as' : List Action}
    (has : List.Forall₂ (ActionAlike cfg) as as') :
    (s.Unread → (handleEncryptedRunStart cfg s).2.map view = (handleEncryptedRunStart cfg s').2.map view) ∧
    (exposed (handleEncryptedRunStart cfg s).2 = [] ↔ ¬ s.Started cfg) ∧
    LooksAlike (step cfg s.env.runId s.keys) view (Discreet cfg) (handleEncryptedRunStart cfg s).1
      (handleEncryptedRunStart cfg s').1 as as' ∧
    Always (Machine.next (step cfg s.env.runId s.keys)) (Kept cfg s.env.runId s.keys)
      (handleEncryptedRunStart cfg s).1 as := by
  have hguarded := start_guarded cfg s
  exact ⟨start_view hs, start_exposes s,
    (unwinds cfg s.env.runId s.keys).looksAlike ⟨start_alike hs, hguarded⟩ has, run_kept hguarded s.env.runId as⟩

/-! ## An execution that tells -/

def sampleConfig : Config where
  nodeId := "n"
  authority := some VibeNode.Journal.empty
  tmpdir := "/tmp"
  leaseText _ := ""
  sha256 := id
  jsonParse _ := none

/-- A start whose payload names a branch. -/
def sampleStart (branch : String) : Start where
  reqId := "req"
  hasIdentity := true
  intact := true
  payload := ⟨⟨"mock", none, none, false, none, some "secret"⟩, none, some branch, none, none, none⟩
  keys := ⟨"k-start", "k-event", "k-stop", "k-approval"⟩
  env :=
    { supportedAgents := ["mock"]
      runId := "r"
      resolveAllowedCwd := fun _ => .denied "cwd_not_allowed" ""
      resolveContainedWorkspace := fun key => .ok (.resolved ("/w/" ++ key))
      gateFault := none
      mkdirFault := none
      promptFault := none
      recordFault := none
      bindFault := false
      backendStart := .ok "1"
      update := .written }

/-- The run logs a message, the daemon restarts, and a client replays. -/
def sampleActions (message : String) : List Action :=
  [.log (.obj [("type", .str "log"), ("ts", .str "2024-01-01T00:00:00Z"), ("message", .str message)]),
    .poll "2024-01-01T00:00:00Z", .restart, .replayOpen "sub" (-1)]

theorem sampleStarts_alike : StartsAlike sampleConfig (sampleStart "main") (sampleStart "work") where
  reqId := rfl
  hasIdentity := rfl
  intact := rfl
  keys := rfl
  env := rfl
  payload := by decide +kernel
  decided := fun _ _ => rfl

theorem sampleActions_alike :
    List.Forall₂ (ActionAlike sampleConfig) (sampleActions "yes") (sampleActions "not") :=
  .cons (.log (by decide +kernel)) (.cons (.same _) (.cons (.same _) (.cons (.same _) .nil)))

/-- The theorem at two executions. -/
theorem relay_view_sample :
    LooksAlike (step sampleConfig "r" (sampleStart "main").keys) view (Discreet sampleConfig)
      (handleEncryptedRunStart sampleConfig (sampleStart "main")).1
      (handleEncryptedRunStart sampleConfig (sampleStart "work")).1 (sampleActions "yes") (sampleActions "not") :=
  (relay_view sampleConfig sampleStarts_alike sampleActions_alike).2.2.1

/-- The acknowledgement of the start carries the run's keys and tells the two payloads apart, and after the
    restart the replay carries the event. -/
theorem encrypted_run_exposed :
    StartsAlike sampleConfig (sampleStart "main") (sampleStart "work") ∧
    (handleEncryptedRunStart sampleConfig (sampleStart "main")).2.map view ≠
      (handleEncryptedRunStart sampleConfig (sampleStart "work")).2.map view ∧
    Secret.key "k-stop" ∈ exposed (handleEncryptedRunStart sampleConfig (sampleStart "main")).2 ∧
    exposed (outputs (step sampleConfig "r" (sampleStart "main").keys)
        (handleEncryptedRunStart sampleConfig (sampleStart "main")).1 (sampleActions "yes")) =
      [.event "\x7b\"type\":\"log\",\"ts\":\"2024-01-01T00:00:00Z\",\"message\":\"yes\"\x7d"] := by
  refine ⟨sampleStarts_alike, ?_, by decide +kernel, by decide +kernel⟩
  intro h
  have hsecrets := congrArg (List.flatMap Message.secrets) h
  revert hsecrets
  decide +kernel

end VibeRelay
