import VibeWorkflow.CompileKeyProofs
import VibeWorkflow.ParsedProofs
import VibeWorkflow.StoreTableProofs

/-!
# Create requests and their fingerprints

A create request is validated field by field and rebuilt from what was validated.  Its fingerprint is a
digest of the canonical text of its fields; a second request under the same key is taken for a retry when
the fingerprints agree.

* `validateCreateTaskRequest` — the request a body is accepted as;
* `computeRequestFingerprint` — the digest of its fields;
* `Agree` — agreement on every field that affects execution;
* **`fingerprint_iff`** — what fingerprints and canonical hashes identify: neither sees a property named
  `__proto__` or tells an infinite number from `null`, and the fingerprint does not see `verify`;
* **`verify_not_fingerprinted`** — two requests that differ in `verify`.
-/

namespace VibeRequest

open VibeJson VibeContract VibeValidator VibeCompiler VibeTables

structure CreateTaskRequest where
  agent : String
  nodeId : Option String
  inputText : String
  workspaceKey : Option String
  workspacePath : Option String
  permissionMode : Option String
  workspaceWrite : Option Bool
  metadata : Option (List (String × Parsed))
  idempotencyKey : Option String
  workspaceLeaseId : Option String
  verify : Option String

/-! ## Validation -/

def safeIdShape : String :=
  "must be a bounded safe identifier matching ^[A-Za-z0-9][A-Za-z0-9._:-]\x7b0,127\x7d$ (no whitespace, control characters, path separators, or arbitrary Unicode)"

/-- An optional field of one type. -/
def optional {α : Type} (o : Parsed) (name : String) (read : Parsed → Option α) (message : String) :
    Except String (Option α) :=
  match o.get? name with
  | none => .ok none
  | some v =>
    match read v with
    | some a => .ok (some a)
    | none => .error message

/-- A required text that is not blank. -/
def requiredText (o : Parsed) (name message : String) : Except String String :=
  match o.get? name with
  | some (.str s) => if trim s = "" then .error message else .ok s
  | _ => .error message

def object? (v : Parsed) : Option Parsed := if v.isObj then some v else none

def requiredObject (o : Parsed) (name message : String) : Except String Parsed :=
  match (o.get? name).bind object? with
  | some v => .ok v
  | none => .error message

def refused (o : Option Parsed) (names : List String) (group : String) : Except String Unit :=
  match names.find? (fun n => (o.bind (·.get? n)).isSome) with
  | some n => .error ("`" ++ group ++ "." ++ n ++ "` is not supported by Agent Gateway v1 (reserved/deferred)")
  | none => .ok ()

def matching (p : String → Bool) (v : Parsed) : Option String := v.str?.filter p

def bool? : Parsed → Option Bool
  | .bool b => some b
  | _ => none

def ensure (cond : Bool) (message : String) : Except String Unit := if cond then .ok () else .error message

/-- Fields of an optional object. -/
def within {α : Type} (o : Option Parsed) (read : Parsed → Except String (Option α)) : Except String (Option α) :=
  match o with
  | none => .ok none
  | some j => read j

def isPathShape (p : String) : Bool :=
  p ≠ "" && utf16Length p ≤ 1024 && p.toList.all (fun c => 0x20 ≤ c.toNat && c.toNat ≠ 0x7f)

/-- The profile of an accepted verifier.  Its check looks for an object and for a text, and takes an infinite
    number for as little of either as `null`. -/
def verifyProfile (b : Parsed) : Except String (Option String) :=
  match b.get? "verify" with
  | none => .ok none
  | some v =>
    match validateTaskVerifyConfig v.written with
    | some message => .error ("`verify` is invalid: " ++ message)
    | none => .ok (strField? v.written "profile")

/-- `workspace.path` shares a request with nothing that manages a workspace. -/
def checkPath (body path : Option Parsed) (key : Option String) (write : Option Bool) : Except String (Option String) :=
  match path with
  | none => .ok none
  | some p =>
    match matching isPathShape p with
    | none => .error "`workspace.path` must be a non-empty absolute path string (max 1024 chars, no control characters)"
    | some s => do
      ensure (s.toList.head? = some '/') "`workspace.path` must be an absolute path"
      ensure key.isNone "`workspace.path` is mutually exclusive with `workspace.workspace_key`"
      ensure (write ≠ some true) "`workspace.path` is mutually exclusive with `execution.workspace_write`"
      ensure ((body.bind (·.get? "workspace_lease_id")).isNone)
        "`workspace.path` is mutually exclusive with `workspace_lease_id`"
      .ok (some s)

/-- `validateCreateTaskRequest`. -/
def validateCreateTaskRequest (b : Parsed) : Except String CreateTaskRequest := do
  ensure b.isObj "request body must be a JSON object"
  let agent ← requiredText b "agent" "`agent` is required (non-empty string)"
  let nodeId ← optional b "node_id" Parsed.str? "`node_id` must be a string"
  let input ← requiredObject b "input" "`input` must be an object"
  let text ← requiredText input "text" "`input.text` is required (non-empty string)"
  let exec ← optional b "execution" object? "`execution` must be an object"
  refused exec ["timeout_seconds"] "execution"
  let mode ← within exec fun e => optional e "permission_mode" (matching fun m => m = "default" || m = "unsafe-skip")
    "`execution.permission_mode` must be \"default\" or \"unsafe-skip\""
  let write ← within exec fun e => optional e "workspace_write" bool? "`execution.workspace_write` must be a boolean"
  let workspace ← optional b "workspace" object? "`workspace` must be an object"
  refused workspace ["repo_url", "branch"] "workspace"
  let key ← within workspace fun w => optional w "workspace_key" (matching isOpaqueId)
    "`workspace.workspace_key` must be an opaque key matching ^[A-Za-z0-9][A-Za-z0-9._-]\x7b0,127\x7d$ (not a path)"
  let path ← checkPath (some b) (workspace.bind (·.get? "path")) key write
  let metadata ← optional b "metadata" object? "`metadata` must be an object"
  let idempotencyKey ← optional b "idempotency_key" (matching isSafeId) ("`idempotency_key` " ++ safeIdShape)
  let leaseId ← optional b "workspace_lease_id" (matching isSafeId) ("`workspace_lease_id` " ++ safeIdShape)
  let verify ← verifyProfile b
  .ok ⟨agent, nodeId, text, key, path, mode, write, metadata.map Parsed.fields, idempotencyKey, leaseId, verify⟩

/-! ## The fingerprint -/

def textOrNull (s : Option String) : Parsed := (s.map Parsed.str).getD .null

/-- The fields that the fingerprint covers. -/
def semanticFields (r : CreateTaskRequest) : List (String × Parsed) :=
  [("agent", .str r.agent), ("node_id", textOrNull r.nodeId), ("input_text", .str r.inputText),
    ("workspace_key", textOrNull r.workspaceKey), ("workspace_path", textOrNull r.workspacePath),
    ("permission_mode", textOrNull r.permissionMode),
    ("workspace_write", (r.workspaceWrite.map Parsed.bool).getD .null),
    ("workspace_lease_id", textOrNull r.workspaceLeaseId), ("metadata", (r.metadata.map Parsed.obj).getD .null)]

/-- `computeRequestFingerprint`. -/
def computeRequestFingerprint (sha256 : String → String) (r : CreateTaskRequest) : String :=
  sha256 (Parsed.obj (semanticFields r)).canonicalJson

/-- The compiler's `canonicalHash` of a parsed value. -/
def canonicalHash (cfg : Setup) (value : Parsed) : String := cfg.digest value.canonicalJson

/-- Metadata that is the same up to the order of properties. -/
def SameMetadata (m m' : Option (List (String × Parsed))) : Prop :=
  ((m.map Parsed.obj).getD .null).Same ((m'.map Parsed.obj).getD .null)

/-- The values differ at most in properties named `__proto__`, and in infinite numbers against each other and
    against `null`. -/
def SameSeen (a b : Parsed) : Prop := Same (dropProto a.written) (dropProto b.written)

/-- The same fields, apart from `metadata`, `verify` and the key. -/
structure AgreePlain (r r' : CreateTaskRequest) : Prop where
  agent : r.agent = r'.agent
  nodeId : r.nodeId = r'.nodeId
  inputText : r.inputText = r'.inputText
  workspaceKey : r.workspaceKey = r'.workspaceKey
  workspacePath : r.workspacePath = r'.workspacePath
  permissionMode : r.permissionMode = r'.permissionMode
  workspaceWrite : r.workspaceWrite = r'.workspaceWrite
  workspaceLeaseId : r.workspaceLeaseId = r'.workspaceLeaseId

/-- **Agreement on every field that affects execution**: all but the idempotency key. -/
def Agree (r r' : CreateTaskRequest) : Prop :=
  AgreePlain r r' ∧ SameMetadata r.metadata r'.metadata ∧ r.verify = r'.verify

/-- Metadata that the fingerprint takes for the same. -/
def SameSeenMetadata (m m' : Option (List (String × Parsed))) : Prop :=
  SameSeen ((m.map Parsed.obj).getD .null) ((m'.map Parsed.obj).getD .null)

/-- **The requests differ, and only where the fingerprint does not look**: in `verify`, or, in the metadata,
    in properties named `__proto__` and in infinite numbers against each other and against `null`. -/
def DifferUnseen (r r' : CreateTaskRequest) : Prop :=
  AgreePlain r r' ∧ SameSeenMetadata r.metadata r'.metadata ∧ ¬ Agree r r'

theorem same_textOrNull {a b : Option String} : Same (textOrNull a).written (textOrNull b).written ↔ a = b := by
  cases a <;> cases b <;> simp [textOrNull, Same, Parsed.written]

theorem same_boolOrNull {a b : Option Bool} :
    Same ((a.map Parsed.bool).getD .null).written ((b.map Parsed.bool).getD .null).written ↔ a = b := by
  cases a <;> cases b <;> simp [Same, Parsed.written]

theorem dropProto_textOrNull (a : Option String) : dropProto (textOrNull a).written = (textOrNull a).written := by
  cases a <;> rfl

theorem dropProto_boolOrNull (a : Option Bool) :
    dropProto ((a.map Parsed.bool).getD .null).written = ((a.map Parsed.bool).getD .null).written := by
  cases a <;> rfl

/-- What the fingerprint sees of two requests. -/
theorem same_semantic {r r' : CreateTaskRequest} :
    SameSeen (.obj (semanticFields r)) (.obj (semanticFields r')) ↔
      AgreePlain r r' ∧ SameSeenMetadata r.metadata r'.metadata := by
  have hfields : ∀ r : CreateTaskRequest, dropProto (Parsed.obj (semanticFields r)).written = .obj
      [("agent", .str r.agent), ("node_id", (textOrNull r.nodeId).written), ("input_text", .str r.inputText),
        ("workspace_key", (textOrNull r.workspaceKey).written), ("workspace_path", (textOrNull r.workspacePath).written),
        ("permission_mode", (textOrNull r.permissionMode).written),
        ("workspace_write", ((r.workspaceWrite.map Parsed.bool).getD .null).written),
        ("workspace_lease_id", (textOrNull r.workspaceLeaseId).written),
        ("metadata", dropProto ((r.metadata.map Parsed.obj).getD .null).written)] := by
    intro r
    simp [semanticFields, Parsed.written, Parsed.writtenFields, dropProtoFields, dropProto_textOrNull,
      dropProto_boolOrNull, dropProto]
  unfold SameSeen
  rw [hfields, hfields]
  refine (same_obj_iff ?_ ?_).trans ?_
  · rfl
  · exact (by decide : ["agent", "node_id", "input_text", "workspace_key", "workspace_path", "permission_mode",
      "workspace_write", "workspace_lease_id", "metadata"].Nodup)
  constructor
  · rintro ⟨h₁, h₂, h₃, h₄, h₅, h₆, h₇, h₈, h₉, -⟩
    exact ⟨⟨h₁, same_textOrNull.mp h₂, h₃, same_textOrNull.mp h₄, same_textOrNull.mp h₅, same_textOrNull.mp h₆,
      same_boolOrNull.mp h₇, same_textOrNull.mp h₈⟩, h₉⟩
  · rintro ⟨⟨h₁, h₂, h₃, h₄, h₅, h₆, h₇, h₈⟩, h₉⟩
    exact ⟨h₁, same_textOrNull.mpr h₂, h₃, same_textOrNull.mpr h₄, same_textOrNull.mpr h₅, same_textOrNull.mpr h₆,
      same_boolOrNull.mpr h₇, same_textOrNull.mpr h₈, h₉, trivial⟩

/-! ## What fingerprints identify -/

/-- The metadata of an accepted request is that of its body. -/
theorem validated_metadata {b : Parsed} {r : CreateTaskRequest} (h : validateCreateTaskRequest b = .ok r)
    {m : List (String × Parsed)} (hm : r.metadata = some m) : b.get? "metadata" = some (.obj m) := by
  iterate 13 obtain ⟨_, -, h⟩ := VibeAdmission.bind_ok_iff.mp h
  obtain ⟨metadata, hmetadata, h⟩ := VibeAdmission.bind_ok_iff.mp h
  iterate 3 obtain ⟨_, -, h⟩ := VibeAdmission.bind_ok_iff.mp h
  obtain rfl := Except.ok.inj h
  obtain ⟨v, rfl, hv⟩ := Option.map_eq_some_iff.mp hm
  unfold optional at hmetadata
  split at hmetadata
  · exact nomatch hmetadata
  · rename_i w hw
    unfold object? at hmetadata
    split at hmetadata
    · rename_i a hobj
      split at hobj
      · rename_i hisObj
        obtain rfl := Option.some.inj hobj
        obtain rfl := Option.some.inj (Except.ok.inj hmetadata)
        rw [hw]
        cases w with
        | obj kvs => exact congrArg (fun m => some (Parsed.obj m)) hv
        | _ => exact nomatch hisObj
      · exact nomatch hobj
    · exact nomatch hmetadata

theorem distinct_get {b v : Parsed} {name : String} (h : Distinct b.written) (hget : b.get? name = some v) :
    Distinct v.written := by
  obtain ⟨⟨k, w⟩, hfind, rfl⟩ := Option.map_eq_some_iff.mp hget
  have hmem : (k, w) ∈ b.fields := List.mem_reverse.mp (List.mem_of_find?_eq_some hfind)
  cases b with
  | obj kvs => exact distinctFields_iff.mp h.2 (k, w.written) (Parsed.mem_writtenFields.mpr ⟨w, hmem, rfl⟩)
  | _ => cases hmem

theorem distinct_semantic {r : CreateTaskRequest} (h : ∀ m, r.metadata = some m → Distinct (Parsed.obj m).written) :
    Distinct (Parsed.obj (semanticFields r)).written := by
  have htext : ∀ s, Distinct (textOrNull s).written := by
    intro s
    cases s <;> trivial
  refine ⟨?_, trivial, htext _, trivial, htext _, htext _, htext _, ?_, htext _, ?_, trivial⟩
  · simp [semanticFields, Parsed.writtenFields]
  · cases r.workspaceWrite <;> trivial
  · cases hm : r.metadata with
    | none => trivial
    | some m => exact h m hm

/-- What the fingerprint of accepted requests identifies. -/
theorem fingerprint_eq_iff {sha256 : String → String} (hsha : Function.Injective sha256) {b b' : Parsed}
    {r r' : CreateTaskRequest} (hb : Distinct b.written) (hb' : Distinct b'.written)
    (h : validateCreateTaskRequest b = .ok r) (h' : validateCreateTaskRequest b' = .ok r') :
    computeRequestFingerprint sha256 r = computeRequestFingerprint sha256 r' ↔
      AgreePlain r r' ∧ SameSeenMetadata r.metadata r'.metadata := by
  have hd := distinct_semantic fun m hm => distinct_get hb (validated_metadata h hm)
  have hd' := distinct_semantic fun m hm => distinct_get hb' (validated_metadata h' hm)
  rw [← same_semantic]
  unfold SameSeen
  rw [← Parsed.canonicalJson_eq_iff hd hd']
  exact ⟨fun heq => hsha heq, fun heq => congrArg sha256 heq⟩

/-- Equivalences that one implication decides. -/
theorem iff_iff_of_imp {p q seen : Prop} (hseen : p ↔ seen) (hq : q → seen) : (p ↔ q) ↔ ¬ (seen ∧ ¬ q) := by
  rw [hseen]
  constructor
  · rintro h ⟨hs, hn⟩
    exact hn (h.mp hs)
  · intro h
    exact ⟨fun hs => Classical.byContradiction fun hn => h ⟨hs, hn⟩, hq⟩

/-- Values that are the same are seen as the same. -/
theorem sameSeen_of_same {a b : Parsed} (h : a.Same b) : SameSeen a b :=
  Same.dropProto _ _ (Parsed.Same.written a b h)

/-- **What fingerprints and canonical hashes identify**, for digests without collisions.  For two accepted
    requests the fingerprints agree exactly when the requests agree on every field but the key, unless they
    differ only in `verify` and, in the metadata, in properties named `__proto__` and in infinite numbers
    against each other and against `null`; and canonical hashes agree exactly for values that are the same up
    to the order of properties, unless they differ only in such properties and numbers. -/
theorem fingerprint_iff {sha256 : String → String} (hsha : Function.Injective sha256) (cfg : Setup)
    (hdigest : Function.Injective cfg.digest) :
    (∀ b b' r r', Distinct b.written → Distinct b'.written → validateCreateTaskRequest b = .ok r →
      validateCreateTaskRequest b' = .ok r' →
      ((computeRequestFingerprint sha256 r = computeRequestFingerprint sha256 r' ↔ Agree r r') ↔ ¬ DifferUnseen r r')) ∧
    (∀ a b : Parsed, Distinct a.written → Distinct b.written →
      ((canonicalHash cfg a = canonicalHash cfg b ↔ a.Same b) ↔ ¬ (SameSeen a b ∧ ¬ a.Same b))) := by
  refine ⟨?_, ?_⟩
  · intro b b' r r' hb hb' h h'
    have hiff := iff_iff_of_imp (fingerprint_eq_iff hsha hb hb' h h')
      (fun hagree : Agree r r' => ⟨hagree.1, sameSeen_of_same hagree.2.1⟩)
    rw [hiff, and_assoc]
    exact Iff.rfl
  · intro a b ha hb
    refine iff_iff_of_imp ?_ sameSeen_of_same
    unfold SameSeen
    rw [← Parsed.canonicalJson_eq_iff ha hb]
    exact ⟨fun heq => hdigest heq, fun heq => congrArg cfg.digest heq⟩

/-- A create request, with metadata and a verifier. -/
def sampleBody (metadata : List (String × Parsed)) (verify : Option String) : Parsed :=
  .obj ([("agent", .str "codex"), ("node_id", .str "n1"), ("input", .obj [("text", .str "go")]), ("metadata", .obj metadata)]
    ++ (verify.map fun p => ("verify", Parsed.obj [("profile", .str p)])).toList)

def sampleRequest (metadata : List (String × Parsed)) (verify : Option String) : CreateTaskRequest :=
  ⟨"codex", some "n1", "go", none, none, none, none, some metadata, none, none, verify⟩

theorem sampleBody_accepted (metadata : List (String × Parsed)) :
    validateCreateTaskRequest (sampleBody metadata none) = .ok (sampleRequest metadata none) ∧
    validateCreateTaskRequest (sampleBody metadata (some "node-test")) = .ok (sampleRequest metadata (some "node-test")) :=
  ⟨rfl, rfl⟩

theorem sampleBody_distinct {metadata : List (String × Parsed)} (h : Distinct (Parsed.obj metadata).written)
    (verify : Option String) : Distinct (sampleBody metadata verify).written := by
  have hinput : Distinct (Parsed.obj [("text", .str "go")]).written := ⟨List.nodup_singleton _, trivial, trivial⟩
  cases verify with
  | none =>
    refine ⟨?_, trivial, trivial, hinput, h, trivial⟩
    exact (by decide : ["agent", "node_id", "input", "metadata"].Nodup)
  | some p =>
    refine ⟨?_, trivial, trivial, hinput, h, ⟨List.nodup_singleton _, trivial, trivial⟩, trivial⟩
    exact (by decide : ["agent", "node_id", "input", "metadata", "verify"].Nodup)

/-- Metadata in another order has the same fingerprint. -/
theorem reordered_metadata_same :
    computeRequestFingerprint id (sampleRequest [("a", .null), ("b", .bool true)] none)
        = computeRequestFingerprint id (sampleRequest [("b", .bool true), ("a", .null)] none) ∧
      Agree (sampleRequest [("a", .null), ("b", .bool true)] none) (sampleRequest [("b", .bool true), ("a", .null)] none) := by
  have hsame : SameMetadata (some [("a", .null), ("b", .bool true)]) (some [("b", .bool true), ("a", .null)]) :=
    ⟨List.Perm.swap _ _ _, ⟨⟨_, List.mem_cons_of_mem _ List.mem_cons_self, trivial⟩,
      ⟨⟨_, List.mem_cons_self, rfl⟩, trivial⟩⟩⟩
  have hagree : Agree (sampleRequest [("a", .null), ("b", .bool true)] none)
      (sampleRequest [("b", .bool true), ("a", .null)] none) :=
    ⟨⟨rfl, rfl, rfl, rfl, rfl, rfl, rfl, rfl⟩, hsame, rfl⟩
  have hd : Distinct (sampleBody [("a", .null), ("b", .bool true)] none).written := by
    refine sampleBody_distinct ?_ none
    exact ⟨(by decide : ["a", "b"].Nodup), trivial, trivial, trivial⟩
  have hd' : Distinct (sampleBody [("b", .bool true), ("a", .null)] none).written := by
    refine sampleBody_distinct ?_ none
    exact ⟨(by decide : ["b", "a"].Nodup), trivial, trivial, trivial⟩
  have hinj : Function.Injective (id : String → String) := Function.injective_id
  have hiff := ((fingerprint_iff hinj plainSetup hinj).1 _ _ _ _ hd hd' (sampleBody_accepted _).1
    (sampleBody_accepted _).1).mpr fun hdiff => hdiff.2.2 hagree
  exact ⟨hiff.mpr hagree, hagree⟩

/-- Two requests that differ in `verify` have one fingerprint. -/
theorem verify_not_fingerprinted :
    ¬ ∀ (sha256 : String → String), Function.Injective sha256 → ∀ b b' r r', Distinct b.written → Distinct b'.written →
      validateCreateTaskRequest b = .ok r → validateCreateTaskRequest b' = .ok r' →
      (computeRequestFingerprint sha256 r = computeRequestFingerprint sha256 r' ↔ Agree r r') := by
  intro hall
  have hnone : Distinct (Parsed.obj []).written := ⟨List.nodup_nil, trivial⟩
  have hsame : computeRequestFingerprint id (sampleRequest [] none)
      = computeRequestFingerprint id (sampleRequest [] (some "node-test")) := rfl
  have hagree := (hall id Function.injective_id _ _ _ _ (sampleBody_distinct hnone none)
    (sampleBody_distinct hnone (some "node-test")) (sampleBody_accepted []).1 (sampleBody_accepted []).2).mp hsame
  cases hagree.2.2

end VibeRequest
