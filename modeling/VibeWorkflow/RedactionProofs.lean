import VibeWorkflow.EnvelopeProofs
import VibeWorkflow.GatewayProofs
import VibeWorkflow.PatternProofs

/-!
# Redaction and the result of a run

The supervisor hashes an agent's final output and puts text and hash into the run record.  Every write of
the record redacts each of its strings, the output's text among them; the readers of the record compare
the hash with the text they find.

* `redact`, `redactDeep`, `updateRun` — the writes of a record;
* `redact_fixed` — a text of digits, hexadecimal letters and the signs of a timestamp is left;
* **`result_survives_iff`** — a result that was finalized is available after every later update exactly
  when the redactor leaves its text.
-/

namespace VibeRedaction

open VibeJson VibeResult Patterns CallRuns VibeAdmission
open VibeGateway (IsoTime)

/-! ## The rules -/

/-- `\s`. -/
def isSpace (c : Char) : Bool :=
  [9, 10, 11, 12, 13, 32, 160, 5760, 8232, 8233, 8239, 8287, 12288, 65279].contains c.toNat ||
    (8192 ≤ c.toNat && c.toNat ≤ 8202)

def word (w : String) : Atom := .alts false [w]

def among (chars : String) (c : Char) : Bool := chars.toList.contains c

def tokenNames : List String :=
  ["GH_TOKEN", "GITHUB_TOKEN", "GH_PAT", "GITHUB_PAT", "GHE_TOKEN", "VIBE_RELAY_TOKEN", "OPENAI_API_KEY",
   "ANTHROPIC_API_KEY", "LINEAR_API_KEY"]

/-- `RULES`. -/
def rules : List Rule :=
  [ -- GitHub tokens, and fine-grained ones
   ⟨[], [word "gh", .one (among "posru"), word "_", .many 20 Char.isAlphanum], ""⟩,
   ⟨[], [word "github_pat_", .many 20 isWord], ""⟩,
   -- AWS access key id
   ⟨[], word "AKIA" :: List.replicate 16 (.one fun c => c.isDigit || c.isUpper), ""⟩,
   -- OpenAI-style keys
   ⟨[], [word "sk-", .many 20 fun c => isWord c || c == '-'], ""⟩,
   -- Authorization headers
   ⟨[word "Bearer "], [.many 1 fun c => c.isAlphanum || among "-._~+/" c, .many 0 (· == '=')], ""⟩,
   -- credentials in a URL
   ⟨[word "http", .alts false ["s", ""], word "://"], [.many 1 fun c => !isSpace c && !among "/@" c, word "@"], "@"⟩,
   -- assignments of token variables
   ⟨[.boundary, .alts true tokenNames, .boundary, .many 0 isSpace, .one (among "=:"), .many 0 isSpace],
     [.many 1 fun c => !isSpace c], ""⟩,
   -- a relay token as an argument, and in a query
   ⟨[word "--token", .many 1 fun c => c == '=' || isSpace c], [.many 1 fun c => !isSpace c], ""⟩,
   ⟨[.one (among "?&"), .alts true ["token="]], [.many 1 fun c => !isSpace c && !among "&\"'" c], ""⟩,
   -- private keys
   ⟨[], [word "-----BEGIN ", .alts false ["RSA ", "EC ", ""], word "PRIVATE KEY-----"], ""⟩]

def mark : Text := "[REDACTED]".toList

def redact (text : String) : String := String.ofList (rules.foldl (fun out r => r.replaceAll mark out) text.toList)

example : redact "export GH_TOKEN=abc and https://user:pw@host/" =
      "export GH_TOKEN=[REDACTED] and https://[REDACTED]@host/" ∧
    redact "run --token==x?TOKEN=y" = "run --token==[REDACTED]" := by decide +kernel

mutual

/-- Every string leaf; the other object names are left. -/
def redactDeep : Json → Json
  | .str s => .str (redact s)
  | .arr xs => .arr (redactElems xs)
  | .obj kvs => .obj (redactFields kvs)
  | v => v

def redactElems : List Json → List Json
  | [] => []
  | x :: xs => redactDeep x :: redactElems xs

def redactFields : List (String × Json) → List (String × Json)
  | [] => []
  | (k, v) :: rest =>
    -- this name is a setter of the fresh object: the value is no field of it
    if k = "__proto__" then redactFields rest else (k, redactDeep v) :: redactFields rest

end

/-! ## The run record -/

/-- A patch of the record; `none` is `undefined`, which the encoder drops. -/
abbrev Patch := List (String × Option Json)

/-- One field of `{ ...record, ...patch }`.  No reader asks for the order of the fields. -/
def setField (fields : List (String × Json)) (kv : String × Option Json) : List (String × Json) :=
  fields.filter (fun f => f.1 ≠ kv.1) ++ kv.2.toList.map fun v => (kv.1, v)

/-- An update of the record: the file as it was, the patch, and the time. -/
def updateRun (file : List (String × Json)) (update : Patch × String) : List (String × Json) :=
  redactFields ((update.1 ++ [("updated_at", some (Json.str update.2))]).foldl setField file)

section

variable (sha256 : String → String)

/-- What the declared verifier observed. -/
structure VerifierRun where
  exitCode : Int
  startedAt : IsoTime
  finishedAt : IsoTime
  output : String

/-- The argv of the only verifier profile. -/
def verifierArgv : List String := ["node", "--test"]

def buildTaskVerification (v : VerifierRun) : Json :=
  .obj
    [("schema_version", .str "1"), ("kind", .str (if v.exitCode = 0 then "tests_passed" else "tests_failed")),
     ("profile", .str "node-test"), ("argv", .arr (verifierArgv.map Json.str)),
     ("resolved_command_hash", .str (computeResolvedCommandHash sha256 verifierArgv)),
     ("exit_code", .num (JsNum.ofInt v.exitCode)), ("started_at", .str v.startedAt), ("finished_at", .str v.finishedAt),
     ("content_hash", .str (sha256 v.output))]

/-- What an agent that has completed leaves. -/
structure Finished where
  text : String
  exitCode : Option Int
  finalizedAt : IsoTime
  verifier : Option VerifierRun

/-- The envelope of a result. -/
def buildTaskResult (f : Finished) : Json :=
  .obj ([("schema_version", .str "1"), ("final_output", .obj [("kind", .str "text"), ("text", .str f.text)]),
    ("process_exit_code", (f.exitCode.map JsNum.ofInt).elim .null .num), ("finalized_at", .str f.finalizedAt),
    ("content_hash", .str (computeResultContentHash sha256 f.text)), ("evidence_refs", .arr []), ("artifact_refs", .arr [])] ++
    f.verifier.elim [] fun v => [("verification", buildTaskVerification sha256 v)])

/-- The fields of the result: only a bounded text is available. -/
def finalizeResult (f : Finished) : Patch :=
  if byteLen f.text ≤ maxFinalOutputBytes then
    [("result_status", some (.str "available")), ("task_result", some (buildTaskResult sha256 f))]
  else [("result_status", some (.str "missing"))]

/-- The supervisor's update of a completed run; `other` are the fields that are not the result's. -/
def completion (f : Finished) (other : Patch) : Patch :=
  ("status", some (.str "completed")) :: other ++ finalizeResult sha256 f ++ [("child_pid", none)]

/-- The result as the Node and the Gateway read it from the record. -/
def readResult (file : List (String × Json)) : String × Option AgentTaskResult :=
  VibeRunResult.recordResult sha256 (some ⟨field (.obj file) "result_status", (Json.obj file).get? "task_result"⟩)

/-- The result is valid and available. -/
def Available (file : List (String × Json)) : Prop := ∃ r, readResult sha256 file = ("available", some r)

/-- The patch is not the result's. -/
def Unrelated (patch : Patch) : Prop := ∀ kv ∈ patch, kv.1 ≠ "result_status" ∧ kv.1 ≠ "task_result"

end

/-! ## Texts that are left -/

/-- Digits, hexadecimal letters, and the signs of a timestamp. -/
def plainAlphabet : Text := "0123456789abcdef-:.TZ".toList

theorem rules_alien : rules.all (Rule.alien plainAlphabet) = true := by decide

/-- **A plain text is left.** -/
theorem redact_fixed {text : String} (h : Over plainAlphabet text.toList) : redact text = text := by
  have hfold : ∀ rs : List Rule, rs.all (Rule.alien plainAlphabet) = true →
      rs.foldl (fun out r => r.replaceAll mark out) text.toList = text.toList := by
    intro rs hrs
    induction rs with
    | nil => rfl
    | cons r rest ih =>
      obtain ⟨hr, hrest⟩ := Bool.and_eq_true_iff.mp hrs
      rw [List.foldl_cons, Rule.replaceAll_fixed hr mark h]
      exact ih hrest
  unfold redact
  rw [hfold rules rules_alien, String.ofList_toList]

/-- The words of a result and of its record. -/
def plainWords : List String :=
  ["1", "text", "available", "tests_passed", "tests_failed", "node-test", "node", "--test", "all tests pass"]

theorem plainWords_fixed : plainWords.all (fun s => redact s == s) = true := by decide +kernel

theorem redact_word {s : String} (h : s ∈ plainWords) : redact s = s :=
  eq_of_beq (List.all_eq_true.mp plainWords_fixed s h)

/-- The digits and the letters `a` to `f` by their code points. -/
theorem codes_plain : ∀ n < 103, 48 ≤ n ∧ n ≤ 57 ∨ 97 ≤ n → Char.ofNat n ∈ plainAlphabet := by decide

theorem digit_plain {c : Char} (h : c.isDigit = true) : c ∈ plainAlphabet := by
  obtain ⟨hlow, hhigh⟩ := Bool.and_eq_true_iff.mp h
  have hlow : 48 ≤ c.toNat := UInt32.le_iff_toNat_le.mp (of_decide_eq_true hlow)
  have hhigh : c.toNat ≤ 57 := UInt32.le_iff_toNat_le.mp (of_decide_eq_true hhigh)
  rw [← Char.ofNat_toNat c]
  exact codes_plain _ (by omega) (.inl ⟨hlow, hhigh⟩)

theorem letter_plain {c : Char} (hlow : 'a' ≤ c) (hhigh : c ≤ 'f') : c ∈ plainAlphabet := by
  have hlow : 97 ≤ c.toNat := UInt32.le_iff_toNat_le.mp hlow
  have hhigh : c.toNat ≤ 102 := UInt32.le_iff_toNat_le.mp hhigh
  rw [← Char.ofNat_toNat c]
  exact codes_plain _ (by omega) (.inr hlow)

/-- A digest is left. -/
theorem redact_hex {text : String} (h : isHex64 text = true) : redact text = text := by
  refine redact_fixed fun c hc => ?_
  have hall := List.all_eq_true.mp (Bool.and_eq_true_iff.mp h).2 c hc
  rcases Bool.or_eq_true_iff.mp hall with hdigit | hletter
  · exact digit_plain hdigit
  · obtain ⟨hlow, hhigh⟩ := Bool.and_eq_true_iff.mp hletter
    exact letter_plain (of_decide_eq_true hlow) (of_decide_eq_true hhigh)

theorem fitsShape_plain {shape s : Text} (h : VibeTask.fitsShape shape s = true) (hshape : Over plainAlphabet shape) :
    Over plainAlphabet s := by
  induction shape generalizing s with
  | nil =>
    cases s with
    | nil => exact hshape
    | cons c cs => exact nomatch h
  | cons p ps ih =>
    cases s with
    | nil => exact nomatch h
    | cons c cs =>
      obtain ⟨hc, hcs⟩ := Bool.and_eq_true_iff.mp h
      intro x hx
      rcases List.mem_cons.mp hx with rfl | hx
      · split at hc
        · exact digit_plain hc
        · exact eq_of_beq hc ▸ hshape p List.mem_cons_self
      · exact ih hcs (fun y hy => hshape y (List.mem_cons_of_mem _ hy)) x hx

/-- A timestamp is left. -/
theorem redact_time (t : IsoTime) : redact t = t := by
  obtain ⟨text, h⟩ := t
  obtain ⟨tail, htail, hfits⟩ := List.any_eq_true.mp h
  have hshapes : ∀ tail ∈ ["Z", ".dZ", ".ddZ", ".dddZ"], Over plainAlphabet ("dddd-dd-ddTdd:dd:dd" ++ tail).toList := by
    have hbase : "dddd-dd-ddTdd:dd:dd".toList.all plainAlphabet.contains = true := by decide
    have htails : ["Z", ".dZ", ".ddZ", ".dddZ"].all (fun tail => tail.toList.all plainAlphabet.contains) = true := by
      decide
    intro tail htail c hc
    rw [String.toList_append] at hc
    rcases List.mem_append.mp hc with hc | hc
    · exact List.contains_iff_mem.mp (List.all_eq_true.mp hbase c hc)
    · exact List.contains_iff_mem.mp (List.all_eq_true.mp (List.all_eq_true.mp htails tail htail) c hc)
  exact redact_fixed (fitsShape_plain hfits (hshapes tail htail))

/-! ## The fields of the record -/

theorem redactFields_eq (kvs : List (String × Json)) :
    redactFields kvs = (kvs.filter fun kv => kv.1 ≠ "__proto__").map fun kv => (kv.1, redactDeep kv.2) := by
  induction kvs with
  | nil => rfl
  | cons kv rest ih =>
    obtain ⟨k, v⟩ := kv
    by_cases hk : k = "__proto__"
    · rw [redactFields, if_pos hk, ih, List.filter_cons_of_neg (by simp [hk])]
    · rw [redactFields, if_neg hk, ih, List.filter_cons_of_pos (by simp [hk]), List.map_cons]

theorem redactFields_cons {k : String} (hk : k ≠ "__proto__") (v : Json) (rest : List (String × Json)) :
    redactFields ((k, v) :: rest) = (k, redactDeep v) :: redactFields rest := by
  rw [redactFields, if_neg hk]

theorem redactFields_nil : redactFields [] = [] := rfl

theorem lookup_append_ne {kvs : List (String × Json)} {k q : String} (hne : k ≠ q) (v : Option Json) :
    lookup (kvs ++ v.toList.map fun v => (k, v)) q = lookup kvs q := by
  induction kvs with
  | nil =>
    cases v with
    | none => rfl
    | some v => exact if_neg hne
  | cons kv rest ih =>
    show lookup (kv :: (rest ++ _)) q = _
    unfold lookup
    rw [ih]

theorem lookup_filter_ne {kvs : List (String × Json)} {k q : String} (hne : k ≠ q) :
    lookup (kvs.filter fun f => f.1 ≠ k) q = lookup kvs q := by
  induction kvs with
  | nil => rfl
  | cons kv rest ih =>
    rw [List.filter_cons]
    split
    · unfold lookup
      rw [ih]
    · rename_i hk
      obtain ⟨k', v⟩ := kv
      have hk : k' = k := by simpa using hk
      rw [ih]
      simp only [lookup, if_neg (hk ▸ hne)]
      cases lookup rest q <;> rfl

theorem lookup_redact (kvs : List (String × Json)) {q : String} (hq : "__proto__" ≠ q) :
    lookup (redactFields kvs) q = (lookup kvs q).map redactDeep := by
  rw [redactFields_eq, VibeContract.lookup_map redactDeep, lookup_filter_ne hq]

/-- A field that the patch does not name is kept. -/
theorem lookup_setField_ne {fields : List (String × Json)} {k q : String} {v : Option Json} (hne : k ≠ q) :
    lookup (setField fields (k, v)) q = lookup fields q := by
  unfold setField
  rw [lookup_append_ne hne, lookup_filter_ne hne]

/-- A field that is set is read back. -/
theorem lookup_setField_some (fields : List (String × Json)) (q : String) (v : Json) :
    lookup (setField fields (q, some v)) q = some v := by
  show lookup (fields.filter _ ++ [(q, v)]) q = some v
  generalize fields.filter _ = kvs
  induction kvs with
  | nil => exact if_pos rfl
  | cons kv rest ih =>
    show lookup (kv :: (rest ++ [(q, v)])) q = some v
    unfold lookup
    rw [ih]

theorem lookup_patch_ne {patch : Patch} {q : String} (h : ∀ kv ∈ patch, kv.1 ≠ q) (fields : List (String × Json)) :
    lookup (patch.foldl setField fields) q = lookup fields q := by
  induction patch generalizing fields with
  | nil => rfl
  | cons kv rest ih =>
    rw [List.foldl_cons, ih (fun x hx => h x (List.mem_cons_of_mem _ hx))]
    exact lookup_setField_ne (h kv List.mem_cons_self)

section

variable {sha256 : String → String} {f : Finished} {file : List (String × Json)} {other patch : Patch}

/-- The fields of the result. -/
def isResultField (q : String) : Prop := q = "result_status" ∨ q = "task_result"

theorem Unrelated.ne {q : String} (h : Unrelated patch) (hq : isResultField q) : ∀ kv ∈ patch, kv.1 ≠ q := by
  intro kv hkv
  obtain ⟨hstatus, hresult⟩ := h kv hkv
  rcases hq with rfl | rfl
  · exact hstatus
  · exact hresult

/-- **An unrelated update** redacts the fields of the result once more, and does nothing else to them. -/
theorem update_unrelated {q : String} (h : Unrelated patch) (hq : isResultField q)
    (file : List (String × Json)) (now : String) :
    lookup (updateRun file (patch, now)) q = (lookup file q).map redactDeep := by
  show lookup (redactFields ((patch ++ [("updated_at", some (Json.str now))]).foldl setField file)) q = _
  have htime : ("updated_at" : String) ≠ q := by
    rcases hq with rfl | rfl <;> decide
  have hproto : ("__proto__" : String) ≠ q := by
    rcases hq with rfl | rfl <;> decide
  rw [lookup_redact _ hproto, List.foldl_append]
  show (lookup (setField (patch.foldl setField file) _) q).map redactDeep = _
  rw [lookup_setField_ne htime, lookup_patch_ne (h.ne hq)]

/-- Fields of the result that the redactor leaves stay through every later update. -/
theorem updates_keep {q : String} {v : Json} (hq : isResultField q) (hv : redactDeep v = v)
    (hfile : lookup file q = some v)
    {later : List (Patch × String)} (hlater : ∀ p ∈ later, Unrelated p.1) :
      lookup (run updateRun file later) q = some v := by
  induction later generalizing file with
  | nil => exact hfile
  | cons p rest ih =>
    obtain ⟨patch, now⟩ := p
    refine ih ?_ (fun p hp => hlater p (List.mem_cons_of_mem _ hp))
    rw [update_unrelated (hlater _ List.mem_cons_self) hq, hfile]
    exact congrArg some hv

/-! ## The result in the record -/

/-- The supervisor's result, with the text that the record holds. -/
def resultOf (sha256 : String → String) (f : Finished) (text : String) : AgentTaskResult :=
  { schemaVersion := "1"
    finalOutput := text
    processExitCode := f.exitCode.map JsNum.ofInt
    finalizedAt := f.finalizedAt
    contentHash := computeResultContentHash sha256 f.text
    evidenceRefs := some (.arr [])
    artifactRefs := some (.arr [])
    verification := f.verifier.map (buildTaskVerification sha256) }

theorem build_envelope (sha256 : String → String) (f : Finished) :
    buildTaskResult sha256 f = envelope (resultOf sha256 f f.text) := by
  obtain ⟨text, code, time, verifier⟩ := f
  cases verifier <;> rfl

theorem redact_verification (hdigest : ∀ t, isHex64 (sha256 t) = true) (v : VerifierRun) :
    redactDeep (buildTaskVerification sha256 v) = buildTaskVerification sha256 v := by
  have hkind : redact (if v.exitCode = 0 then "tests_passed" else "tests_failed") =
      if v.exitCode = 0 then "tests_passed" else "tests_failed" := by
    split <;> exact redact_word (by simp [plainWords])
  have hversion : redact "1" = "1" := redact_word (by simp [plainWords])
  have hprofile : redact "node-test" = "node-test" := redact_word (by simp [plainWords])
  have hnode : redact "node" = "node" := redact_word (by simp [plainWords])
  have htest : redact "--test" = "--test" := redact_word (by simp [plainWords])
  have hcommand : redact (computeResolvedCommandHash sha256 ["node", "--test"]) =
      computeResolvedCommandHash sha256 ["node", "--test"] := redact_hex (hdigest _)
  simp (disch := decide) only [buildTaskVerification, verifierArgv, List.map_cons, List.map_nil, redactDeep,
    redactFields_cons, redactFields_nil, redactElems, hkind, hversion, hprofile, hnode, htest, hcommand, redact_time]
  rw [redact_hex (hdigest _)]

/-- The record keeps the result with its text redacted and its hash as it was. -/
theorem redact_envelope (hdigest : ∀ t, isHex64 (sha256 t) = true) (f : Finished) (text : String) :
    redactDeep (envelope (resultOf sha256 f text)) = envelope (resultOf sha256 f (redact text)) := by
  have hversion : redact "1" = "1" := redact_word (by simp [plainWords])
  have hkind : redact "text" = "text" := redact_word (by simp [plainWords])
  have hhash : redact (computeResultContentHash sha256 f.text) = computeResultContentHash sha256 f.text :=
    redact_hex (hdigest _)
  have hcode : redactDeep ((f.exitCode.map JsNum.ofInt).elim .null .num) =
      (f.exitCode.map JsNum.ofInt).elim .null .num := by
    cases f.exitCode <;> rfl
  cases hv : f.verifier with
  | none =>
    simp (disch := decide) only [envelope, envelopeFields, resultOf, hv, Option.map_none,
      Option.elim_none, List.append_nil,
      Option.getD_some, redactDeep, redactFields_cons, redactFields_nil, redactElems, hversion, hkind, hhash, hcode,
      redact_time]
  | some v =>
    simp (disch := decide) only [envelope, envelopeFields, resultOf, hv, Option.map_some,
      Option.elim_some, List.cons_append,
      List.nil_append, Option.getD_some, redactDeep, redactFields_cons, redactFields_nil, redactElems,
        hversion, hkind, hhash,
      hcode, redact_time, redact_verification hdigest]

/-- The supervisor's verification is valid. -/
theorem verification_valid (hdigest : ∀ t, isHex64 (sha256 t) = true) (v : VerifierRun) :
    validateTaskVerification sha256 (buildTaskVerification sha256 v) = .ok (buildTaskVerification sha256 v) := by
  have hkind : ((if v.exitCode = 0 then "tests_passed" else "tests_failed" : String) = "tests_passed" ||
      (if v.exitCode = 0 then "tests_passed" else "tests_failed" : String) = "tests_failed") = true := by
    split <;> rfl
  have hagree : (decide (JsNum.ofInt v.exitCode = JsNum.ofInt 0) ==
      decide ((if v.exitCode = 0 then "tests_passed" else "tests_failed" : String) = "tests_passed")) = true := by
    by_cases hzero : v.exitCode = 0
    · simp [hzero]
    · have hne : JsNum.ofInt v.exitCode ≠ JsNum.ofInt 0 := fun h => hzero (congrArg JsNum.mantissa h)
      simp [hzero, hne]
  have hprofile : (VibeValidator.isProfileId "node-test" && VibeValidator.isKnownVerifierProfile "node-test") = true := by
    decide
  have hcode : ((buildTaskVerification sha256 v).get? "exit_code").bind integer? = some (JsNum.ofInt v.exitCode) := rfl
  have hargv : boundedArgv (some (.arr (verifierArgv.map Json.str))) = some verifierArgv := by decide
  have hcommand : (isHex64 (computeResolvedCommandHash sha256 verifierArgv) &&
      computeResolvedCommandHash sha256 verifierArgv == computeResolvedCommandHash sha256 verifierArgv) = true :=
    Bool.and_eq_true_iff.mpr ⟨hdigest _, beq_self_eq_true _⟩
  unfold validateTaskVerification
  refine bind_ok_iff.mpr ⟨(), rfl, bind_ok_iff.mpr ⟨(), ensureVersion_ok.mpr rfl,
    bind_ok_iff.mpr ⟨_, need_ok.mpr (fieldWith_some.mpr ⟨rfl, hkind⟩),
    bind_ok_iff.mpr ⟨JsNum.ofInt v.exitCode, need_ok.mpr hcode,
    bind_ok_iff.mpr ⟨(), ensure_ok.mpr hagree,
    bind_ok_iff.mpr ⟨_, need_ok.mpr (fieldWith_some.mpr ⟨rfl, hprofile⟩),
    bind_ok_iff.mpr ⟨_, need_ok.mpr hargv,
    bind_ok_iff.mpr ⟨_, need_ok.mpr (fieldWith_some.mpr ⟨rfl, hcommand⟩),
    bind_ok_iff.mpr ⟨_, need_ok.mpr (fieldWith_some.mpr ⟨rfl, v.startedAt.2⟩),
    bind_ok_iff.mpr ⟨_, need_ok.mpr (fieldWith_some.mpr ⟨rfl, v.finishedAt.2⟩),
    bind_ok_iff.mpr ⟨_, need_ok.mpr (fieldWith_some.mpr ⟨rfl, hdigest _⟩), rfl⟩⟩⟩⟩⟩⟩⟩⟩⟩⟩⟩

theorem result_normal (hdigest : ∀ t, isHex64 (sha256 t) = true) (hsize : byteLen f.text ≤ maxFinalOutputBytes) :
    Normal sha256 (resultOf sha256 f f.text) where
  version := rfl
  size := hsize
  exitCode := by
    intro n hn
    obtain ⟨code, -, rfl⟩ := Option.map_eq_some_iff.mp hn
    rfl
  time := f.finalizedAt.2
  digest := hdigest _
  hash := rfl
  evidence := rfl
  artifacts := rfl
  verification := by
    intro v hv
    obtain ⟨run, -, rfl⟩ := Option.map_eq_some_iff.mp hv
    exact verification_valid hdigest run

theorem envelope_parts (sha256 : String → String) (f : Finished) (text : String) :
    finalOutputOf (envelope (resultOf sha256 f text)) = some text ∧
      field (envelope (resultOf sha256 f text)) "content_hash" = some (sha256 f.text) := by
  obtain ⟨_, code, time, verifier⟩ := f
  cases verifier with
  | none => exact ⟨rfl, rfl⟩
  | some v => exact ⟨rfl, rfl⟩

/-- What a result in the record is read as, by its validation. -/
abbrev reading : Except ResultFault AgentTaskResult → String × Option AgentTaskResult
  | .ok result => ("available", some result)
  | .error _ => ("invalid", none)

/-- The value in the record is accepted exactly when its text still has the supervisor's hash. -/
theorem available_iff (hdigest : ∀ t, isHex64 (sha256 t) = true) (hsize : byteLen f.text ≤ maxFinalOutputBytes)
    (hcollision : sha256 (redact f.text) = sha256 f.text → redact f.text = f.text)
    (hstatus : lookup file "result_status" = some (.str "available"))
    (hresult : lookup file "task_result" = some (envelope (resultOf sha256 f (redact f.text)))) :
    Available sha256 file ↔ redact f.text = f.text := by
  have hread : readResult sha256 file =
      reading (validateTaskResult sha256 (envelope (resultOf sha256 f (redact f.text)))) := by
    have hfield : field (.obj file) "result_status" = some "available" := by
      show (lookup file "result_status").bind Json.str? = _
      rw [hstatus]
      rfl
    have hvalue : (Json.obj file).get? "task_result" = some (envelope (resultOf sha256 f (redact f.text))) := hresult
    unfold readResult
    rw [hfield, hvalue]
    rfl
  unfold Available
  rw [hread]
  constructor
  · rintro ⟨r, hr⟩
    cases hval : validateTaskResult sha256 (envelope (resultOf sha256 f (redact f.text))) with
    | error e =>
      rw [hval] at hr
      cases (Prod.mk.inj hr).2
    | ok r' =>
      obtain ⟨htext, hhash⟩ := validate_reads hval
      obtain ⟨htext', hhash'⟩ := envelope_parts sha256 f (redact f.text)
      have htext : redact f.text = r'.finalOutput := Option.some.inj (htext'.symm.trans htext)
      have hhash : sha256 f.text = r'.contentHash := Option.some.inj (hhash'.symm.trans hhash)
      refine hcollision ?_
      rw [htext, hhash]
      exact (validate_normal hval).hash.symm
  · intro hfixed
    have hnormal := result_normal hdigest hsize
    refine ⟨resultOf sha256 f f.text, ?_⟩
    rw [hfixed, (envelope_reads hnormal).validates hnormal]

/-- **The completed run's record**: the result is available there, its text redacted and its hash not. -/
theorem completion_stores (hdigest : ∀ t, isHex64 (sha256 t) = true) (hsize : byteLen f.text ≤ maxFinalOutputBytes)
    (file : List (String × Json)) (now : String) :
    lookup (updateRun file (completion sha256 f other, now)) "result_status" = some (.str "available") ∧
      lookup (updateRun file (completion sha256 f other, now)) "task_result" =
        some (envelope (resultOf sha256 f (redact f.text))) := by
  have hpatch : completion sha256 f other ++ [("updated_at", some (Json.str now))] =
      (("status", some (.str "completed")) :: other) ++
        (("result_status", some (Json.str "available")) :: ("task_result", some (buildTaskResult sha256 f)) ::
          [("child_pid", none), ("updated_at", some (Json.str now))]) := by
    unfold completion finalizeResult
    rw [if_pos hsize]
    simp
  have hfile : updateRun file (completion sha256 f other, now) = redactFields (setField (setField (setField (setField
      ((("status", some (Json.str "completed")) :: other).foldl setField file) ("result_status", some (Json.str "available")))
      ("task_result", some (buildTaskResult sha256 f))) ("child_pid", none)) ("updated_at", some (Json.str now))) := by
    show redactFields ((completion sha256 f other ++ [("updated_at", some (Json.str now))]).foldl setField file) = _
    rw [hpatch, List.foldl_append]
    rfl
  have hword : redact "available" = "available" := redact_word (by simp [plainWords])
  rw [hfile]
  constructor
  · rw [lookup_redact _ (by decide), lookup_setField_ne (by decide), lookup_setField_ne (by decide),
      lookup_setField_ne (by decide),
      lookup_setField_some, Option.map_some, redactDeep, hword]
  · rw [lookup_redact _ (by decide), lookup_setField_ne (by decide), lookup_setField_ne (by decide),
      lookup_setField_some,
      Option.map_some, build_envelope, redact_envelope hdigest]

end

/-- **A result survives its storage** exactly when the redactor leaves its text: the record then gives it as valid and
    available after every later update, and otherwise not even after the supervisor's own one. -/
theorem result_survives_iff (sha256 : String → String) (hdigest : ∀ t, isHex64 (sha256 t) = true) (f : Finished)
    (hsize : byteLen f.text ≤ maxFinalOutputBytes)
    (hcollision : sha256 (redact f.text) = sha256 f.text → redact f.text = f.text) (file : List (String × Json))
    (other : Patch) (now : String) :
    (∀ later : List (Patch × String), (∀ p ∈ later, Unrelated p.1) →
        Available sha256 (run updateRun (updateRun file (completion sha256 f other, now)) later)) ↔
      redact f.text = f.text := by
  obtain ⟨hstatus, hresult⟩ := completion_stores (f := f) hdigest hsize file now
  constructor
  · intro h
    exact (available_iff hdigest hsize hcollision hstatus hresult).mp (h [] nofun)
  · intro hfixed later hlater
    have hword : redactDeep (.str "available") = .str "available" := by
      rw [redactDeep, redact_word (by simp [plainWords])]
    have henvelope : redactDeep (envelope (resultOf sha256 f (redact f.text))) =
        envelope (resultOf sha256 f (redact f.text)) := by
      rw [redact_envelope hdigest, hfixed, hfixed]
    exact (available_iff hdigest hsize hcollision (updates_keep (.inl rfl) hword hstatus hlater)
      (updates_keep (.inr rfl) henvelope hresult hlater)).mpr hfixed

/-- The SHA-256 digests of three texts, and of the empty one. -/
def sampleDigest (text : String) : String :=
  if text = "Set GH_TOKEN=abc in .env" then "0338911640145e34fb07383c01e288c09cb232c0e43ef983ed924c9d2bd756f8"
  else if text = "Set GH_TOKEN=[REDACTED] in .env" then "6e28003317493214c13c031f6183c7a729a9521dab483a84c58239bc22b4dd0d"
  else if text = "all tests pass" then "8d7c8b8624b364223b821f3cd9c4d6ba030ef9621c7d1aac046ca8a1b91315c1"
  else VibeRunResult.emptyDigest

theorem sampleDigest_hex (text : String) : isHex64 (sampleDigest text) = true := by
  unfold sampleDigest
  split
  · decide
  · split
    · decide
    · split <;> decide

def sampleRun (text : String) : Finished := ⟨text, some 0, ⟨"2024-01-01T00:00:00Z", by decide⟩, none⟩

/-- A plain output, through a later stop of the run. -/
theorem plain_output_survives : Available sampleDigest
    (run updateRun
      (updateRun [("status", .str "running")]
        (completion sampleDigest (sampleRun "all tests pass") [("switched", some (.bool false))], "2024-01-01T00:00:01Z"))
      [([("status", some (.str "stopped"))], "2024-01-01T00:00:02Z")]) := by
  have hfixed : redact "all tests pass" = "all tests pass" := redact_word (by simp [plainWords])
  have hlater : ∀ p ∈ [(([("status", some (Json.str "stopped"))] : Patch), "2024-01-01T00:00:02Z")], Unrelated p.1 := by
    unfold Unrelated
    decide
  exact (result_survives_iff sampleDigest sampleDigest_hex (sampleRun "all tests pass") (by decide +kernel) (fun _ => hfixed)
    [("status", .str "running")] _ "2024-01-01T00:00:01Z").mpr hfixed _ hlater

/-- An output that names a token variable: the supervisor's own update makes its result invalid. -/
theorem redacted_output_invalid :
    byteLen "Set GH_TOKEN=abc in .env" ≤ maxFinalOutputBytes ∧
      readResult sampleDigest (updateRun [("status", .str "running")]
        (completion sampleDigest (sampleRun "Set GH_TOKEN=abc in .env") [], "2024-01-01T00:00:01Z")) = ("invalid", none) := by
  decide +kernel

end VibeRedaction
