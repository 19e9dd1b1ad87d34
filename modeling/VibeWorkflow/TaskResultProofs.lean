import VibeWorkflow.StoreProofs
import VibeWorkflow.TaskEventProofs

/-!
# Task results

The envelope in which a run's final output travels, its validator, and the row in which the control
store and the Node's journal each keep it.  Both stores write the row once and compare later writes
with it; they differ in their error type and in the labels of their messages (`Encoding`).

* `validateTaskResult` — the checks on an untrusted envelope;
* `rowOf`, `rowMatches` — the row an envelope gives, and the comparison with a row that is there.
-/

namespace VibeResult

open VibeJson

/-- `AgentTaskResultV1`. -/
structure AgentTaskResult where
  schemaVersion : String
  finalOutput : String
  processExitCode : Option JsNum
  finalizedAt : String
  contentHash : String
  evidenceRefs : Option Json
  artifactRefs : Option Json
  verification : Option Json
deriving DecidableEq

def maxFinalOutputBytes : Nat := 256 * 1024

def maxRefs : Nat := 64

def maxRefStr : Nat := 4 * 1024

/-! ## Validation -/

inductive ResultCode where
  | unsupportedSchemaVersion | invalidResult | resultTooLarge | contentHashMismatch
deriving DecidableEq

structure ResultFault where
  code : ResultCode
  message : String
deriving DecidableEq

/-- `^[0-9a-f]{64}$`. -/
def isHex64 (s : String) : Bool :=
  s.toList.length == 64 && s.toList.all fun c => c.isDigit || ('a' ≤ c && c ≤ 'f')

/-- `Number.isInteger` of a value. -/
def integer? : Json → Option JsNum
  | .num n => if n.isInteger then some n else none
  | _ => none

/-- A reference: an object of bounded strings with a `kind`. -/
def isRef (r : Json) : Bool :=
  r.isObj && r.fields.all (fun kv => kv.2.str?.any (fun s => byteLen s ≤ maxRefStr)) &&
    ((r.get? "kind").bind Json.str?).isSome

def boundedRefs : Option Json → Bool
  | some (.arr refs) => refs.length ≤ maxRefs && refs.all isRef
  | _ => false

def field (o : Json) (name : String) : Option String := (o.get? name).bind Json.str?

def maxVerifyArgvItems : Nat := 32

def maxVerifyArgvItemLen : Nat := 4 * 1024

section

variable {ε α : Type}

/-- A value that must be there. -/
def need (x : Option α) (e : ε) : Except ε α :=
  match x with
  | some a => .ok a
  | none => .error e

def ensure (c : Bool) (e : ε) : Except ε Unit := if c then .ok () else .error e

/-- A field with a text that meets the condition. -/
def fieldWith (o : Json) (name : String) (p : String → Bool) : Option String := (field o name).filter p

/-- A schema version other than `1`: a later one is told apart. -/
def ensureVersion (o : Json) (unsupported : String → ε) (other : ε) : Except ε Unit :=
  match field o "schema_version" with
  | some v => if v = "1" then .ok () else if "1" < v then .error (unsupported v) else .error other
  | none => .error other

end

section

variable (sha256 : String → String)

def computeResultContentHash (text : String) : String := sha256 text

def computeResolvedCommandHash (argv : List String) : String := sha256 (stringify (.arr (argv.map Json.str)))

/-- The strings of an argv that is bounded. -/
def boundedArgv : Option Json → Option (List String)
  | some (.arr xs) =>
    if xs.isEmpty ∨ xs.length > maxVerifyArgvItems then none
    else xs.mapM fun x => x.str?.filter fun s => byteLen s ≤ maxVerifyArgvItemLen
  | _ => none

/-- The normalized record, or the message. -/
def validateTaskVerification (o : Json) : Except String Json := do
  ensure o.isObj "verification must be a JSON object"
  ensureVersion o (fun v => "unsupported verification schema_version " ++ v) "invalid verification schema_version"
  let kind ← need (fieldWith o "kind" fun k => k = "tests_passed" || k = "tests_failed")
    "verification.kind must be tests_passed | tests_failed"
  let exitCode ← need ((o.get? "exit_code").bind integer?) "verification.exit_code must be an integer"
  ensure (decide (exitCode = JsNum.ofInt 0) == decide (kind = "tests_passed"))
    "verification.kind is inconsistent with exit_code"
  let profile ← need
    (fieldWith o "profile" fun p => VibeValidator.isProfileId p && VibeValidator.isKnownVerifierProfile p)
    "verification.profile must be an advertised profile id"
  let argv ← need (boundedArgv (o.get? "argv")) "verification.argv must be a bounded array of strings"
  let commandHash ← need
    (fieldWith o "resolved_command_hash" fun h => isHex64 h && h == computeResolvedCommandHash sha256 argv)
    "verification.resolved_command_hash must match argv"
  let startedAt ← need (fieldWith o "started_at" VibeTask.isIsoUtc) "verification.started_at must be ISO-8601 UTC"
  let finishedAt ← need (fieldWith o "finished_at" VibeTask.isIsoUtc) "verification.finished_at must be ISO-8601 UTC"
  let contentHash ← need (fieldWith o "content_hash" isHex64) "verification.content_hash must be a sha256 hex digest"
  return .obj
    [("schema_version", .str "1"), ("kind", .str kind), ("profile", .str profile),
     ("argv", .arr (argv.map Json.str)), ("resolved_command_hash", .str commandHash), ("exit_code", .num exitCode),
     ("started_at", .str startedAt), ("finished_at", .str finishedAt), ("content_hash", .str contentHash)]

def invalid (message : String) : ResultFault := ⟨.invalidResult, message⟩

/-- The verification of an envelope: absent and `null` are none. -/
def verificationOf (o : Json) : Except ResultFault (Option Json) :=
  match o.get? "verification" with
  | none => .ok none
  | some .null => .ok none
  | some v => ((validateTaskVerification sha256 v).mapError fun m => invalid ("verification invalid: " ++ m)).map some

/-- The exit code of an envelope: absent and `null` are none. -/
def exitCodeOf (o : Json) : Except ResultFault (Option JsNum) :=
  match o.get? "process_exit_code" with
  | none => .ok none
  | some .null => .ok none
  | some v => (need (integer? v) (invalid "process_exit_code must be an integer or null")).map some

/-- The text of `final_output`. -/
def finalOutputOf (o : Json) : Option String :=
  (o.get? "final_output").bind fun fo => if field fo "kind" = some "text" then field fo "text" else none

def validateTaskResult (o : Json) : Except ResultFault AgentTaskResult := do
  ensure o.isObj (invalid "result must be a JSON object")
  ensureVersion o (fun v => ⟨.unsupportedSchemaVersion, "unsupported result schema_version " ++ v⟩)
    (invalid "invalid result schema_version")
  let text ← need (finalOutputOf o) (invalid "final_output must be \x7b kind:\"text\", text:string \x7d")
  ensure (byteLen text ≤ maxFinalOutputBytes) ⟨.resultTooLarge, "final_output.text exceeds the size limit"⟩
  let exitCode ← exitCodeOf o
  let finalizedAt ← need (fieldWith o "finalized_at" VibeTask.isIsoUtc) (invalid "finalized_at must be ISO-8601 UTC")
  let contentHash ← need (fieldWith o "content_hash" isHex64) (invalid "content_hash must be a sha256 hex digest")
  ensure (contentHash == computeResultContentHash sha256 text)
    ⟨.contentHashMismatch, "content_hash does not match final_output.text"⟩
  ensure (boundedRefs (o.get? "evidence_refs")) (invalid "evidence_refs must be a bounded array of \x7bkind,...\x7d")
  ensure (boundedRefs (o.get? "artifact_refs")) (invalid "artifact_refs must be a bounded array of \x7bkind,ref,...\x7d")
  let verification ← verificationOf sha256 o
  return {
    schemaVersion := "1"
    finalOutput := text
    processExitCode := exitCode
    finalizedAt := finalizedAt
    contentHash := contentHash
    evidenceRefs := o.get? "evidence_refs"
    artifactRefs := o.get? "artifact_refs"
    verification := verification }

end

/-! ## Rows -/

/-- A row of `task_results` or `run_results`. -/
structure ResultRow where
  schemaVersion : String
  resultStatus : String
  finalOutputText : Option String
  processExitCode : Option JsNum
  finalizedAt : Option String
  contentHash : Option String
  evidenceRefsJson : String
  artifactRefsJson : String
  verificationJson : Option String
deriving DecidableEq

/-- How a store bounds and encodes the parts of a result. -/
structure Encoding (ε : Type) where
  json : Json → String → Except ε String
  text : String → Except ε String

section

variable {ε : Type} (enc : Encoding ε)

def refsJson (refs : Option Json) (name : String) : Except ε String := enc.json (refs.getD (.arr [])) name

def verificationJson : Option Json → Except ε (Option String)
  | none => .ok none
  | some value => (enc.json value "verification").map some

def finalOutputText : Option AgentTaskResult → Except ε (Option String)
  | none => .ok none
  | some r => (enc.text r.finalOutput).map some

/-- `resultRowMatches`, `resultMatches`: the whole immutable envelope but its time. -/
def rowMatches (row : ResultRow) (resultStatus : String) (result : Option AgentTaskResult) : Except ε Bool :=
  if row.resultStatus ≠ resultStatus then .ok false
  else match result with
  | none => .ok row.contentHash.isNone
  | some r =>
    if row.schemaVersion ≠ r.schemaVersion ∨ row.contentHash ≠ some r.contentHash ∨
        row.finalOutputText.getD "" ≠ r.finalOutput ∨ row.processExitCode ≠ r.processExitCode then .ok false
    else do
      let evidence ← refsJson enc r.evidenceRefs "evidence_refs"
      if row.evidenceRefsJson ≠ evidence then return false
      let artifacts ← refsJson enc r.artifactRefs "artifact_refs"
      if row.artifactRefsJson ≠ artifacts then return false
      let verification ← verificationJson enc r.verification
      return row.verificationJson = verification

/-- The row that a result is written as. -/
def rowOf (resultStatus : String) (result : Option AgentTaskResult) : Except ε ResultRow := do
  let text ← finalOutputText enc result
  let evidence ← refsJson enc (result.bind (·.evidenceRefs)) "evidence_refs"
  let artifacts ← refsJson enc (result.bind (·.artifactRefs)) "artifact_refs"
  let verification ← verificationJson enc (result.bind (·.verification))
  return {
    schemaVersion := (result.map (·.schemaVersion)).getD "1"
    resultStatus := resultStatus
    finalOutputText := text
    processExitCode := result.bind (·.processExitCode)
    finalizedAt := result.map (·.finalizedAt)
    contentHash := result.map (·.contentHash)
    evidenceRefsJson := evidence
    artifactRefsJson := artifacts
    verificationJson := verification }

end

end VibeResult
