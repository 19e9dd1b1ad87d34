import VibeWorkflow.CanonicalProofs
import VibeWorkflow.EnvelopeProofs
import VibeWorkflow.JsonParseProofs
import VibeWorkflow.RunResultProofs
import VibeWorkflow.Utf16Proofs

/-!
# Durable results: written once, and read as written

The control store and the Node's journal each keep the result of a run in one row.  The first write makes it;
a later one is compared with it, part by part and text by text; a read puts the envelope together again and
validates it.  The runtime's texts are UTF-16, the column is UTF-8.

* `ResultStore` — a store, with what its encoder and its reader do; `controlStore`, `nodeJournal`;
* `matches_iff` — when a write is taken for the row that is there;
* **`results_durable_iff`** — what was stored is read back and only its like is accepted again, just when its
  final text has no half of a surrogate pair and the like is no reordering of its references; and the Gateway
  gets and stores what the Node reads.
-/

namespace VibeResult

open VibeJson VibeAdmission

/-! ## Results in the runtime -/

/-- A result as the runtime holds it: its text in code units, and the envelope with what UTF-8 makes of the
    text, of which every length and every digest is taken. -/
structure RuntimeResult where
  text : Utf16.Units
  body : AgentTaskResult
  utf8 : body.finalOutput = String.ofList (Utf16.decode text)

/-- A result as it comes out of a store. -/
def RuntimeResult.ofStored (r : AgentTaskResult) : RuntimeResult where
  text := Utf16.encode r.finalOutput.toList
  body := r
  utf8 := by rw [Utf16.decode_encode, String.ofList_toList]

/-- What a store is given for a run: a result, or a status that says why there is none. -/
inductive Finalization where
  | available (r : RuntimeResult)
  | absent (status : String) (other : status ≠ "available")

namespace Finalization

def status : Finalization → String
  | .available _ => "available"
  | .absent status _ => status

def result : Finalization → Option RuntimeResult
  | .available r => some r
  | .absent _ _ => none

/-- What `validateTaskResult` accepts. -/
def Accepted (sha256 : String → String) (f : Finalization) : Prop :=
  ∀ r, f.result = some r → ∃ o, validateTaskResult sha256 o = .ok r.body

def WellFormed (f : Finalization) : Prop := ∀ r, f.result = some r → Utf16.isWellFormed r.text = true

/-- References that are equal up to the order of their properties. -/
def SameRefs (refs refs' : Option Json) : Prop := VibeCompiler.Same (refs.getD .null) (refs'.getD .null)

/-- **Equal envelopes**, `finalized_at` apart.  A verification is always put together in one order. -/
def Alike : Finalization → Finalization → Prop
  | .available r, .available r' =>
    r.text = r'.text ∧ r.body.schemaVersion = r'.body.schemaVersion ∧
      r.body.processExitCode = r'.body.processExitCode ∧ r.body.contentHash = r'.body.contentHash ∧
      SameRefs r.body.evidenceRefs r'.body.evidenceRefs ∧ SameRefs r.body.artifactRefs r'.body.artifactRefs ∧
      r.body.verification = r'.body.verification
  | .absent status _, .absent status' _ => status = status'
  | _, _ => False

/-- Equal envelopes with references that are not written alike. -/
def Reordered (f f' : Finalization) : Prop :=
  Alike f f' ∧ ((f.result.bind (·.body.evidenceRefs)) ≠ (f'.result.bind (·.body.evidenceRefs)) ∨
    (f.result.bind (·.body.artifactRefs)) ≠ (f'.result.bind (·.body.artifactRefs)))

end Finalization

/-! ## The row of a result -/

def maxRefsBytes : Nat := 256 * 1024

/-- An encoding, with the bounds it is relied on for. -/
structure BoundedEncoding (ε : Type) extends Encoding ε where
  json_ok : ∀ {v : Json} {name text : String},
    json v name = .ok text ↔ byteLen (stringify v) ≤ maxRefsBytes ∧ stringify v = text
  text_ok : ∀ {value text' : String}, text value = .ok text' ↔ byteLen value ≤ maxFinalOutputBytes ∧ value = text'

variable {sha256 : String → String} {ε : Type}

section

variable (enc : BoundedEncoding ε)

theorem refsJson_ok {refs : Option Json} {name text : String} :
    refsJson enc.toEncoding refs name = .ok text ↔
      byteLen (stringify (refs.getD (.arr []))) ≤ maxRefsBytes ∧ stringify (refs.getD (.arr [])) = text :=
  enc.json_ok

theorem verificationJson_ok {v : Option Json} {text : Option String} :
    verificationJson enc.toEncoding v = .ok text ↔
      (∀ w, v = some w → byteLen (stringify w) ≤ maxRefsBytes) ∧ v.map stringify = text := by
  cases v with
  | none =>
    refine ⟨fun h => ⟨fun w hw => (nomatch hw), Except.ok.inj h⟩, ?_⟩
    rintro ⟨-, rfl⟩
    rfl
  | some w =>
    unfold verificationJson
    rw [map_ok_iff]
    constructor
    · rintro ⟨t, ht, rfl⟩
      obtain ⟨hsize, rfl⟩ := enc.json_ok.mp ht
      exact ⟨fun w' hw' => Option.some.inj hw' ▸ hsize, rfl⟩
    · rintro ⟨hsize, rfl⟩
      exact ⟨stringify w, enc.json_ok.mpr ⟨hsize w rfl, rfl⟩, rfl⟩

/-- The parts of a result are within the bounds. -/
structure Fits (r : AgentTaskResult) : Prop where
  text : byteLen r.finalOutput ≤ maxFinalOutputBytes
  evidence : byteLen (stringify (r.evidenceRefs.getD (.arr []))) ≤ maxRefsBytes
  artifacts : byteLen (stringify (r.artifactRefs.getD (.arr []))) ≤ maxRefsBytes
  verification : ∀ v, r.verification = some v → byteLen (stringify v) ≤ maxRefsBytes

/-- The row of a result that fits. -/
def rowFor (r : AgentTaskResult) : ResultRow where
  schemaVersion := r.schemaVersion
  resultStatus := "available"
  finalOutputText := some r.finalOutput
  processExitCode := r.processExitCode
  finalizedAt := some r.finalizedAt
  contentHash := some r.contentHash
  evidenceRefsJson := stringify (r.evidenceRefs.getD (.arr []))
  artifactRefsJson := stringify (r.artifactRefs.getD (.arr []))
  verificationJson := r.verification.map stringify

theorem rowOf_available {r : AgentTaskResult} {row : ResultRow} :
    rowOf enc.toEncoding "available" (some r) = .ok row ↔ Fits r ∧ rowFor r = row := by
  unfold rowOf
  constructor
  · intro h
    obtain ⟨text, htext, h⟩ := bind_ok_iff.mp h
    obtain ⟨evidence, hevidence, h⟩ := bind_ok_iff.mp h
    obtain ⟨artifacts, hartifacts, h⟩ := bind_ok_iff.mp h
    obtain ⟨verification, hverification, h⟩ := bind_ok_iff.mp h
    obtain ⟨t, ht, rfl⟩ := map_ok_iff.mp htext
    obtain ⟨hsize, rfl⟩ := enc.text_ok.mp ht
    obtain ⟨hevidenceFits, rfl⟩ := (refsJson_ok enc).mp hevidence
    obtain ⟨hartifactsFit, rfl⟩ := (refsJson_ok enc).mp hartifacts
    obtain ⟨hverificationFits, rfl⟩ := (verificationJson_ok enc).mp hverification
    exact ⟨⟨hsize, hevidenceFits, hartifactsFit, hverificationFits⟩, Except.ok.inj h⟩
  · rintro ⟨h, rfl⟩
    exact bind_ok_iff.mpr ⟨some r.finalOutput, map_ok_iff.mpr ⟨_, enc.text_ok.mpr ⟨h.text, rfl⟩, rfl⟩,
      bind_ok_iff.mpr ⟨_, (refsJson_ok enc).mpr ⟨h.evidence, rfl⟩,
        bind_ok_iff.mpr ⟨_, (refsJson_ok enc).mpr ⟨h.artifacts, rfl⟩,
        bind_ok_iff.mpr ⟨_, (verificationJson_ok enc).mpr ⟨h.verification, rfl⟩, rfl⟩⟩⟩⟩

/-- The row that says why there is no result. -/
def absentRow (status : String) : ResultRow where
  schemaVersion := "1"
  resultStatus := status
  finalOutputText := none
  processExitCode := none
  finalizedAt := none
  contentHash := none
  evidenceRefsJson := stringify (.arr [])
  artifactRefsJson := stringify (.arr [])
  verificationJson := none

theorem rowOf_absent (status : String) : rowOf enc.toEncoding status none = .ok (absentRow status) := by
  have hempty (name : String) : enc.json (.arr []) name = .ok (stringify (.arr [])) :=
    enc.json_ok.mpr ⟨by decide +kernel, rfl⟩
  unfold rowOf refsJson
  exact bind_ok_iff.mpr ⟨none, rfl, bind_ok_iff.mpr ⟨_, hempty _, bind_ok_iff.mpr ⟨_, hempty _,
    bind_ok_iff.mpr ⟨none, rfl, rfl⟩⟩⟩⟩

/-- **The comparison with a row**: a result is taken for the one that is there just when each part is written
    alike. -/
theorem rowMatches_available {r r' : AgentTaskResult} (hr : Fits r) :
    rowMatches enc.toEncoding (rowFor r) "available" (some r') = .ok true ↔
      (r.schemaVersion = r'.schemaVersion ∧ r.contentHash = r'.contentHash ∧ r.finalOutput = r'.finalOutput ∧
        r.processExitCode = r'.processExitCode) ∧ r.evidenceRefs.getD (.arr []) = r'.evidenceRefs.getD (.arr []) ∧
        r.artifactRefs.getD (.arr []) = r'.artifactRefs.getD (.arr []) ∧ r.verification = r'.verification := by
  have hplain : (¬ ((rowFor r).schemaVersion ≠ r'.schemaVersion ∨ (rowFor r).contentHash ≠ some r'.contentHash ∨
      (rowFor r).finalOutputText.getD "" ≠ r'.finalOutput ∨ (rowFor r).processExitCode ≠ r'.processExitCode)) ↔
      r.schemaVersion = r'.schemaVersion ∧ r.contentHash = r'.contentHash ∧ r.finalOutput = r'.finalOutput ∧
        r.processExitCode = r'.processExitCode := by
    simp only [rowFor, not_or, not_not, Option.some.injEq, Option.getD_some]
  unfold rowMatches
  rw [if_neg (fun hne => hne rfl)]
  dsimp only
  by_cases hparts : r.schemaVersion = r'.schemaVersion ∧ r.contentHash = r'.contentHash ∧
      r.finalOutput = r'.finalOutput ∧ r.processExitCode = r'.processExitCode
  swap
  · rw [if_pos (not_not.mp (mt hplain.mp hparts))]
    exact ⟨fun h => (nomatch h), fun h => absurd h.1 hparts⟩
  · rw [if_neg (hplain.mpr hparts)]
    constructor
    · intro h
      obtain ⟨evidence, hevidence, h⟩ := bind_ok_iff.mp h
      obtain ⟨-, rfl⟩ := (refsJson_ok enc).mp hevidence
      by_cases he : (rowFor r).evidenceRefsJson ≠ stringify (r'.evidenceRefs.getD (.arr []))
      · rw [if_pos he] at h
        exact nomatch h
      rw [if_neg he] at h
      obtain ⟨artifacts, hartifacts, h⟩ := bind_ok_iff.mp h
      obtain ⟨-, rfl⟩ := (refsJson_ok enc).mp hartifacts
      by_cases ha : (rowFor r).artifactRefsJson ≠ stringify (r'.artifactRefs.getD (.arr []))
      · rw [if_pos ha] at h
        exact nomatch h
      rw [if_neg ha] at h
      obtain ⟨verification, hverification, h⟩ := bind_ok_iff.mp h
      obtain ⟨-, rfl⟩ := (verificationJson_ok enc).mp hverification
      refine ⟨hparts, stringify_injective (not_not.mp he), stringify_injective (not_not.mp ha), ?_⟩
      have hv : r.verification.map stringify = r'.verification.map stringify := of_decide_eq_true (Except.ok.inj h)
      exact Option.map_injective (fun _ _ => stringify_injective) hv
    · rintro ⟨-, he, ha, hv⟩
      refine bind_ok_iff.mpr ⟨_, (refsJson_ok enc).mpr ⟨he ▸ hr.evidence, rfl⟩, ?_⟩
      rw [if_neg (show ¬ (rowFor r).evidenceRefsJson ≠ _ from not_not.mpr (congrArg stringify he))]
      refine bind_ok_iff.mpr ⟨_, (refsJson_ok enc).mpr ⟨ha ▸ hr.artifacts, rfl⟩, ?_⟩
      rw [if_neg (show ¬ (rowFor r).artifactRefsJson ≠ _ from not_not.mpr (congrArg stringify ha))]
      refine bind_ok_iff.mpr ⟨_, (verificationJson_ok enc).mpr ⟨hv ▸ hr.verification, rfl⟩, ?_⟩
      exact congrArg Except.ok (decide_eq_true (congrArg (Option.map stringify) hv))

end

/-! ## Stores -/

/-- How a store encodes a result and reads a row, with what the reader is relied on for. -/
structure ResultStore (sha256 : String → String) (ε : Type) where
  enc : BoundedEncoding ε
  /-- The status and the result of a row; a throw is `none`. -/
  read : ResultRow → Option (String × Option AgentTaskResult)
  read_available : ∀ {r : AgentTaskResult}, Normal sha256 r → Fits r → read (rowFor r) = some ("available", some r)
  read_absent : ∀ {status : String}, status ≠ "available" → read (absentRow status) = some (status, none)

inductive Refusal (ε : Type) where
  | encoding (e : ε)
  | conflict

/-- The text is compared by its code units. -/
def textMatches (row : ResultRow) (result : Option RuntimeResult) : Bool :=
  result.all fun r => Utf16.encode (row.finalOutputText.getD "").toList == r.text

namespace ResultStore

variable (S : ResultStore sha256 ε)

/-- `resultRowMatches`, `resultMatches`. -/
def isMatch (row : ResultRow) (f : Finalization) : Except ε Bool :=
  if textMatches row f.result then rowMatches S.enc.toEncoding row f.status (f.result.map (·.body)) else .ok false

/-- `persistTaskResultDurable`, `persistRunResult`: whether the row was written, and the row. -/
def persist (stored : Option ResultRow) (f : Finalization) : Except (Refusal ε) Bool × Option ResultRow :=
  match stored with
  | some row =>
    match S.isMatch row f with
    | .error e => (.error (.encoding e), some row)
    | .ok true => (.ok false, some row)
    | .ok false => (.error .conflict, some row)
  | none =>
    match rowOf S.enc.toEncoding f.status (f.result.map (·.body)) with
    | .error e => (.error (.encoding e), none)
    | .ok row => (.ok true, some row)

/-- `getTaskResultDurable`, `getRunResult`; a throw is `none`. -/
def get (stored : Option ResultRow) : Option (Option (String × Option RuntimeResult)) :=
  match stored with
  | none => some none
  | some row => (S.read row).map fun p => some (p.1, p.2.map RuntimeResult.ofStored)

inductive Call where
  | persist (f : Finalization)
  | get

def call (stored : Option ResultRow) : Call → Option ResultRow
  | .persist f => (S.persist stored f).2
  | .get => stored

def run (stored : Option ResultRow) (calls : List Call) : Option ResultRow := calls.foldl S.call stored

end ResultStore

/-! ## What is accepted after the first write -/

mutual

/-- Equality up to order is reflexive. -/
theorem same_refl : (v : Json) → VibeCompiler.Same v v
  | .null => trivial
  | .bool _ => rfl
  | .num _ => rfl
  | .str _ => rfl
  | .arr xs => sameList_refl xs
  | .obj kvs => ⟨List.Perm.refl _, sameFields_refl kvs kvs (List.Subset.refl kvs)⟩

theorem sameList_refl : (xs : List Json) → VibeCompiler.SameList xs xs
  | [] => trivial
  | x :: xs => ⟨same_refl x, sameList_refl xs⟩

theorem sameFields_refl : (kvs all : List (String × Json)) → kvs ⊆ all → VibeCompiler.SameFields kvs all
  | [], _, _ => trivial
  | (_, v) :: kvs, all, h =>
    ⟨⟨v, h List.mem_cons_self, same_refl v⟩, sameFields_refl kvs all fun _ hkv => h (List.mem_cons_of_mem _ hkv)⟩

end

section

open Finalization

variable {S : ResultStore sha256 ε} {first second : Finalization} {row : ResultRow}

theorem Finalization.Accepted.normal {r : RuntimeResult} (h : Accepted sha256 (.available r)) :
    Normal sha256 r.body := by
  obtain ⟨o, ho⟩ := h r rfl
  exact validate_normal ho

/-- References of accepted results are there. -/
theorem refs_getD {refs refs' : Option Json} (h : boundedRefs refs = true) (h' : boundedRefs refs' = true) :
    refs.getD (.arr []) = refs'.getD (.arr []) ↔ refs = refs' := by
  obtain ⟨xs, rfl⟩ := boundedRefs_some h
  obtain ⟨ys, rfl⟩ := boundedRefs_some h'
  exact ⟨fun heq => congrArg some heq, fun heq => Option.some.inj heq⟩

/-- What the first write stores. -/
inductive Stored (S : ResultStore sha256 ε) : Finalization → ResultRow → Prop
  | available {r : RuntimeResult} (fits : Fits r.body) : Stored S (.available r) (rowFor r.body)
  | absent {status : String} (other : status ≠ "available") : Stored S (.absent status other) (absentRow status)

theorem persist_first {stored : Option ResultRow} (h : S.persist stored first = (.ok true, some row)) :
    stored = none ∧ Stored S first row := by
  unfold ResultStore.persist at h
  cases stored with
  | some existing =>
    dsimp only at h
    cases hm : S.isMatch existing first with
    | error e =>
      rw [hm] at h
      exact nomatch congrArg Prod.fst h
    | ok b =>
      rw [hm] at h
      cases b with
      | true => exact nomatch Except.ok.inj (congrArg Prod.fst h)
      | false => exact nomatch congrArg Prod.fst h
  | none =>
    refine ⟨rfl, ?_⟩
    cases first with
    | available r =>
      cases hrow : rowOf S.enc.toEncoding "available" (some r.body) with
      | error e =>
        simp only [Finalization.status, Finalization.result, Option.map_some, hrow] at h
        exact nomatch congrArg Prod.fst h
      | ok row' =>
        obtain ⟨hfits, rfl⟩ := (rowOf_available S.enc).mp hrow
        simp only [Finalization.status, Finalization.result, Option.map_some, hrow] at h
        obtain rfl := Option.some.inj (congrArg Prod.snd h)
        exact .available hfits
    | absent status other =>
      have hrow := rowOf_absent S.enc status
      simp only [Finalization.status, Finalization.result, Option.map_none, hrow] at h
      obtain rfl := Option.some.inj (congrArg Prod.snd h)
      exact .absent other

/-- A row stays. -/
theorem run_some (S : ResultStore sha256 ε) (row : ResultRow) (calls : List ResultStore.Call) :
    S.run (some row) calls = some row := by
  induction calls with
  | nil => rfl
  | cons c calls ih =>
    have hcall : S.call (some row) c = some row := by
      cases c with
      | get => rfl
      | persist f =>
        show (S.persist (some row) f).2 = _
        unfold ResultStore.persist
        dsimp only
        split <;> rfl
    show S.run (S.call (some row) c) calls = _
    rw [hcall, ih]

/-- What a later write meets. -/
theorem persist_some (S : ResultStore sha256 ε) (row : ResultRow) (f : Finalization) :
    (S.persist (some row) f = (.ok false, some row) ↔ S.isMatch row f = .ok true) ∧
      ((∃ e, S.persist (some row) f = (.error e, some row)) ↔ S.isMatch row f ≠ .ok true) := by
  cases hm : S.isMatch row f with
  | error e =>
    have hp : S.persist (some row) f = (.error (.encoding e), some row) := by
      simp only [ResultStore.persist, hm]
    rw [hp]
    refine ⟨⟨fun h => ?_, fun h => (nomatch h)⟩, ⟨fun _ h => (nomatch h), fun _ => ⟨_, rfl⟩⟩⟩
    exact nomatch congrArg Prod.fst h
  | ok b =>
    cases b with
    | true =>
      have hp : S.persist (some row) f = (.ok false, some row) := by
        simp only [ResultStore.persist, hm]
      rw [hp]
      refine ⟨⟨fun _ => rfl, fun _ => rfl⟩, ⟨?_, fun h => absurd rfl h⟩⟩
      rintro ⟨e, he⟩
      exact nomatch congrArg Prod.fst he
    | false =>
      have hp : S.persist (some row) f = (.error .conflict, some row) := by
        simp only [ResultStore.persist, hm]
      rw [hp]
      refine ⟨⟨fun h => ?_, fun h => ?_⟩, ⟨fun _ h => ?_, fun _ => ⟨_, rfl⟩⟩⟩
      · exact nomatch congrArg Prod.fst h
      · exact nomatch Except.ok.inj h
      · exact nomatch Except.ok.inj h

theorem stored_text (r : RuntimeResult) :
    Utf16.encode r.body.finalOutput.toList = Utf16.encode (Utf16.decode r.text) := by
  rw [r.utf8, String.toList_ofList]

/-- A result comes out of a store as it went in just when its text is well formed. -/
theorem ofStored_iff (r : RuntimeResult) : RuntimeResult.ofStored r.body = r ↔ Utf16.isWellFormed r.text = true := by
  rw [← Utf16.encode_decode_iff, ← stored_text]
  obtain ⟨text, body, utf8⟩ := r
  constructor
  · intro h
    exact congrArg RuntimeResult.text h
  · intro h
    unfold RuntimeResult.ofStored
    congr

/-- Two results that are written alike, `finalized_at` apart. -/
structure Identical (r r' : RuntimeResult) : Prop where
  text : r.text = r'.text
  version : r.body.schemaVersion = r'.body.schemaVersion
  exitCode : r.body.processExitCode = r'.body.processExitCode
  digest : r.body.contentHash = r'.body.contentHash
  evidence : r.body.evidenceRefs = r'.body.evidenceRefs
  artifacts : r.body.artifactRefs = r'.body.artifactRefs
  verification : r.body.verification = r'.body.verification

theorem Identical.alike {r r' : RuntimeResult} (h : Identical r r') : Alike (.available r) (.available r') := by
  refine ⟨h.text, h.version, h.exitCode, h.digest, ?_, ?_, h.verification⟩
  · rw [h.evidence]
    exact same_refl _
  · rw [h.artifacts]
    exact same_refl _

/-- **When a write is taken for the row that is there.** -/
theorem isMatch_iff {r r' : RuntimeResult} (hr : Normal sha256 r.body) (hr' : Normal sha256 r'.body)
    (hfits : Fits r.body)
    (hwell : Utf16.isWellFormed r.text = true) :
    S.isMatch (rowFor r.body) (.available r') = .ok true ↔ Identical r r' := by
  have htext : Utf16.encode r.body.finalOutput.toList = r.text :=
    (stored_text r).trans (Utf16.encode_decode_iff r.text |>.mpr hwell)
  have hmatch : textMatches (rowFor r.body) (some r') = true ↔ r.text = r'.text := by
    show (Utf16.encode r.body.finalOutput.toList == r'.text) = true ↔ _
    rw [htext, beq_iff_eq]
  unfold ResultStore.isMatch
  constructor
  · intro h
    by_cases ht : textMatches (rowFor r.body) (some r') = true
    · simp only [Finalization.status, Finalization.result, ht, if_true, Option.map_some] at h
      obtain ⟨⟨hversion, hdigest, -, hexit⟩, hevidence, hartifacts,
        hverification⟩ := (rowMatches_available S.enc hfits).mp h
      exact ⟨hmatch.mp ht, hversion, hexit, hdigest, (refs_getD hr.evidence hr'.evidence).mp hevidence,
        (refs_getD hr.artifacts hr'.artifacts).mp hartifacts, hverification⟩
    · simp only [Finalization.status, Finalization.result, ht] at h
      exact nomatch Except.ok.inj h
  · intro h
    simp only [Finalization.status, Finalization.result, hmatch.mpr h.text, if_true, Option.map_some]
    have houtput : r.body.finalOutput = r'.body.finalOutput := by rw [r.utf8, r'.utf8, h.text]
    exact (rowMatches_available S.enc hfits).mpr ⟨⟨h.version, h.digest, houtput, h.exitCode⟩,
      congrArg (Option.getD · _) h.evidence, congrArg (Option.getD · _) h.artifacts, h.verification⟩

/-- A row of another status is no match. -/
theorem isMatch_status {f : Finalization} (h : row.resultStatus ≠ f.status) : S.isMatch row f = .ok false := by
  unfold ResultStore.isMatch rowMatches
  rw [if_pos h, ite_self]

/-- What a store owes after the first write: it is read back, its like is accepted without a change, and
    whatever else is refused without one. -/
structure Kept (S : ResultStore sha256 ε) (first second : Finalization) (stored : Option ResultRow) : Prop where
  read : S.get stored = some (some (first.status, first.result))
  again : Alike first second → S.persist stored second = (.ok false, stored)
  other : ¬ Alike first second → ∃ e, S.persist stored second = (.error e, stored)

/-- What a stored finalization is read as. -/
def asStored : Finalization → Finalization
  | .available r => .available (RuntimeResult.ofStored r.body)
  | .absent status other => .absent status other

theorem get_stored {S : ResultStore sha256 ε} {f : Finalization} (hf : f.Accepted sha256) {row : ResultRow}
    (h : Stored S f row) : S.get (some row) = some (some ((asStored f).status, (asStored f).result)) := by
  unfold ResultStore.get
  cases h with
  | available hfits =>
    dsimp only
    rw [S.read_available hf.normal hfits]
    rfl
  | absent other =>
    dsimp only
    rw [S.read_absent other]
    rfl

/-- After the first write of a result. -/
theorem kept_available {r : RuntimeResult} (hfirst : (Finalization.available r).Accepted sha256)
    (hsecond : second.Accepted sha256) (hfits : Fits r.body) :
    Kept S (.available r) second (some (rowFor r.body)) ↔
      (Finalization.available r).WellFormed ∧ ¬ Reordered (.available r) second := by
  have hsome := persist_some S (rowFor r.body) second
  have hr := hfirst.normal
  have hget := get_stored hfirst (@Stored.available _ _ S r hfits)
  have hread (hkept : Kept S (.available r) second (some (rowFor r.body))) : Utf16.isWellFormed r.text = true :=
    (ofStored_iff r).mp
      (Option.some.inj (congrArg Prod.snd (Option.some.inj (Option.some.inj (hget.symm.trans hkept.read)))))
  have hwell : (Finalization.available r).WellFormed ↔ Utf16.isWellFormed r.text = true := by
    refine ⟨fun h => h r rfl, ?_⟩
    rintro h _ ⟨⟩
    exact h
  cases second with
  | absent status other =>
    have hmiss : S.isMatch (rowFor r.body) (.absent status other) = .ok false := isMatch_status (Ne.symm other)
    have hne : S.isMatch (rowFor r.body) (.absent status other) ≠ .ok true := by
      rw [hmiss]
      intro heq
      cases heq
    constructor
    · intro hkept
      exact ⟨hwell.mpr (hread hkept), fun hre => hre.1⟩
    · rintro ⟨hform, -⟩
      refine ⟨?_, fun hlike => absurd hlike id, fun _ => hsome.2.mpr hne⟩
      rw [hget, asStored, (ofStored_iff r).mpr (hwell.mp hform)]
  | available r' =>
    have hr' := hsecond.normal
    constructor
    · intro hkept
      refine ⟨hwell.mpr (hread hkept), ?_⟩
      rintro ⟨hlike, hrefs⟩
      have hsame := (isMatch_iff hr hr' hfits (hread hkept)).mp (hsome.1.mp (hkept.again hlike))
      rcases hrefs with hrefs | hrefs
      · exact hrefs hsame.evidence
      · exact hrefs hsame.artifacts
    · rintro ⟨hform, hre⟩
      have hform := hwell.mp hform
      have hmatch := @isMatch_iff sha256 ε S r r' hr hr' hfits hform
      refine ⟨?_, ?_, ?_⟩
      · rw [hget, asStored, (ofStored_iff r).mpr hform]
      · intro hlike
        refine hsome.1.mpr (hmatch.mpr ?_)
        have hrefs := not_and.mp hre hlike
        rw [not_or, not_not, not_not] at hrefs
        obtain ⟨htext, hversion, hexit, hdigest, -, -, hverification⟩ := hlike
        exact ⟨htext, hversion, hexit, hdigest, hrefs.1, hrefs.2, hverification⟩
      · intro hlike
        exact hsome.2.mpr fun hm => hlike (hmatch.mp hm).alike

/-- After the first write of a status alone. -/
theorem kept_absent {status : String} (other : status ≠ "available") :
    Kept S (.absent status other) second (some (absentRow status)) ↔
      (Finalization.absent status other).WellFormed ∧ ¬ Reordered (.absent status other) second := by
  have hsome := persist_some S (absentRow status) second
  have hform : (Finalization.absent status other).WellFormed := by rintro _ ⟨⟩
  have haccepted : (Finalization.absent status other).Accepted sha256 := by rintro _ ⟨⟩
  have hget := get_stored haccepted (@Stored.absent _ _ S status other)
  cases second with
  | available r' =>
    have hmiss : S.isMatch (absentRow status) (.available r') = .ok false := isMatch_status other
    refine ⟨fun _ => ⟨hform, fun hre => hre.1⟩, fun _ => ⟨hget, fun hlike => absurd hlike id,
      fun _ => hsome.2.mpr ?_⟩⟩
    rw [hmiss]
    intro heq
    cases heq
  | absent status' other' =>
    have hmatch : S.isMatch (absentRow status) (.absent status' other') = .ok true ↔ status = status' := by
      by_cases hs : status = status'
      · refine ⟨fun _ => hs, fun _ => ?_⟩
        subst hs
        simp [ResultStore.isMatch, rowMatches, textMatches, Finalization.status, Finalization.result, absentRow]
      · rw [@isMatch_status sha256 ε S (absentRow status) (.absent status' other') hs]
        exact ⟨fun heq => Bool.noConfusion (Except.ok.inj heq), fun heq => absurd heq hs⟩
    refine ⟨fun _ => ⟨hform, ?_⟩, fun _ => ⟨hget, fun hlike => hsome.1.mpr (hmatch.mpr hlike),
      fun hlike => hsome.2.mpr ?_⟩⟩
    · rintro ⟨-, hrefs | hrefs⟩
      · exact hrefs rfl
      · exact hrefs rfl
    · exact fun hm => hlike (hmatch.mp hm)

/-- **After the first write.** -/
theorem kept_iff (hfirst : first.Accepted sha256) (hsecond : second.Accepted sha256) (h : Stored S first row) :
    Kept S first second (some row) ↔ first.WellFormed ∧ ¬ Reordered first second := by
  cases h with
  | available hfits => exact kept_available hfirst hsecond hfits
  | absent other => exact kept_absent other

end

/-! ## The two stores -/

def controlEncoding : BoundedEncoding VibeStore.StoreError :=
  { VibeTask.resultEncoding with
    json_ok := encodeJson_eq_ok
    text_ok := boundString_eq_ok }

def controlStore (sha256 : String → String) : ResultStore sha256 VibeStore.StoreError where
  enc := controlEncoding
  read := getTaskResultDurable sha256 parse
  read_available h hfits :=
    read_back h (fun v _ => parse_stringify v) ((rowOf_available controlEncoding).mpr ⟨hfits, rfl⟩)
  read_absent h := if_pos h

theorem journal_json_ok {v : Json} {name text : String} :
    VibeRunResult.resultEncoding.json v name = .ok text ↔ byteLen (stringify v) ≤ maxRefsBytes ∧
      stringify v = text := by
  show VibeJournal.encodeJson v (256 * 1024) _ = .ok text ↔ _
  unfold VibeJournal.encodeJson maxRefsBytes
  split
  · simp; omega
  · simp; omega

theorem journal_text_ok {value text : String} :
    VibeRunResult.resultEncoding.text value = .ok text ↔ byteLen value ≤ maxFinalOutputBytes ∧ value = text := by
  show (if _ then _ else _) = _ ↔ _
  split
  · simp; omega
  · simp; omega

def journalEncoding : BoundedEncoding VibeJournal.JournalError :=
  { VibeRunResult.resultEncoding with
    json_ok := journal_json_ok
    text_ok := journal_text_ok }

/-- A run with this row. -/
def journalWith (row : ResultRow) : VibeRunResult.NodeState := ⟨VibeJournal.RunTables.empty, some row, none⟩

/-- What `getRunResult` reads of a row. -/
def journalRead (sha256 : String → String) (row : ResultRow) : Option (String × Option AgentTaskResult) :=
  match VibeRunResult.getRunResult sha256 parse (journalWith row) with
  | .ok (some nr) => some (nr.resultStatus, nr.result)
  | _ => none

theorem journal_decode {v : Json} (h : byteLen (stringify v) ≤ maxRefsBytes) (label : String) :
    VibeRunResult.decodeJson parse (stringify v) (256 * 1024) label = .ok v := by
  have hfits : ¬ byteLen (stringify v) > 256 * 1024 := Nat.not_lt.mpr h
  unfold VibeRunResult.decodeJson
  rw [if_neg hfits, parse_stringify]

/-- The envelope of the row is that of the result. -/
theorem journal_envelope {r : AgentTaskResult} (h : Normal sha256 r) (hfits : Fits r) :
    VibeRunResult.envelopeOf parse (rowFor r) = .ok (envelope r) := by
  obtain ⟨version, text, code, time, hash, refs, artifactRefs, verification⟩ := r
  obtain ⟨xs, rfl⟩ := boundedRefs_some h.evidence
  obtain ⟨ys, rfl⟩ := boundedRefs_some h.artifacts
  unfold VibeRunResult.envelopeOf
  refine bind_ok_iff.mpr ⟨.arr xs, journal_decode hfits.evidence _,
    bind_ok_iff.mpr ⟨.arr ys, journal_decode hfits.artifacts _, ?_⟩⟩
  cases verification with
  | none => rfl
  | some v =>
    refine bind_ok_iff.mpr ⟨v, journal_decode (hfits.verification v rfl) _, ?_⟩
    rfl

theorem journal_read {r : AgentTaskResult} (h : Normal sha256 r) (hfits : Fits r) :
    journalRead sha256 (rowFor r) = some ("available", some r) := by
  have hget : VibeRunResult.getRunResult sha256 parse (journalWith (rowFor r)) = .ok (some ⟨"available", some r⟩) := by
    unfold VibeRunResult.getRunResult journalWith
    dsimp only
    rw [if_neg (show ¬ (rowFor r).resultStatus ≠ "available" from fun hne => hne rfl)]
    refine bind_ok_iff.mpr ⟨envelope r, journal_envelope h hfits, ?_⟩
    rw [(envelope_reads h).validates h]
  unfold journalRead
  rw [hget]

theorem journal_read_absent {status : String} (h : status ≠ "available") :
    journalRead sha256 (absentRow status) = some (status, none) := by
  have hget : VibeRunResult.getRunResult sha256 parse (journalWith (absentRow status)) = .ok (some ⟨status, none⟩) :=
    if_pos h
  unfold journalRead
  rw [hget]

def nodeJournal (sha256 : String → String) : ResultStore sha256 VibeJournal.JournalError where
  enc := journalEncoding
  read := journalRead sha256
  read_available h hfits := journal_read h hfits
  read_absent h := journal_read_absent h

/-! ## The stores' own operations -/

/-! ## From the Node to the Gateway -/

/-- What `remoteRunResult` makes of an answer: its content was sent as text, and is validated again. -/
def remoteRunResult (sha256 : String → String) (status : String) (sent : Option AgentTaskResult) :
    String × Option AgentTaskResult :=
  let result := (sent.bind fun r => parse (stringify (envelope r))).bind fun o => (validateTaskResult sha256 o).toOption
  (if status = "available" ∧ result.isNone = true then "invalid" else status, result)

theorem remoteRunResult_same {r : AgentTaskResult} (h : Normal sha256 r) :
    remoteRunResult sha256 "available" (some r) = ("available", some r) := by
  unfold remoteRunResult
  simp only [Option.bind_some, parse_stringify, (envelope_reads h).validates h]
  rfl

/-! ## The round trip -/

section

open Finalization

theorem stored_fresh {S : ResultStore sha256 ε} {f : Finalization} {row : ResultRow} (h : Stored S f row) :
    S.persist none f = (.ok true, some row) := by
  unfold ResultStore.persist
  cases h with
  | available hfits =>
    have hrow := (rowOf_available S.enc).mpr ⟨hfits, rfl⟩
    simp only [Finalization.status, Finalization.result, Option.map_some, hrow]
  | absent other =>
    simp only [Finalization.status, Finalization.result, Option.map_none, rowOf_absent]

/-- **What the Gateway gets from the Node** is what the Node reads, and is stored as the same row. -/
theorem fetched_same {f : Finalization} (hf : f.Accepted sha256) {row : ResultRow}
    (h : Stored (nodeJournal sha256) f row) :
    remoteRunResult sha256 (asStored f).status ((asStored f).result.map (·.body)) =
        ((asStored f).status, (asStored f).result.map (·.body)) ∧
      (controlStore sha256).persist none (asStored f) = (.ok true, some row) := by
  cases h with
  | available hfits => exact ⟨remoteRunResult_same hf.normal, stored_fresh (.available hfits)⟩
  | absent other =>
    refine ⟨?_, stored_fresh (.absent other)⟩
    unfold remoteRunResult
    exact congrArg (·, none) (if_neg fun h => other h.1)

/-- **DURABLE RESULTS.**  In the control store and in the Node's journal, whatever was called before and is
    called after the first write that succeeds, the row stays; and what was written is read back, its like is
    accepted without a change and everything else refused without one, just when its text is well formed and
    the like is no reordering of its references.  What the Gateway gets of what the Node stored is what the
    Node reads, and reads the same in the control store. -/
theorem results_durable_iff (first second : Finalization) (hfirst : first.Accepted sha256)
    (hsecond : second.Accepted sha256) :
    (∀ before after row,
      (controlStore sha256).persist ((controlStore sha256).run none before) first = (.ok true, some row) →
        (controlStore sha256).run (some row) after = some row ∧
        (Kept (controlStore sha256) first second ((controlStore sha256).run (some row) after) ↔
          first.WellFormed ∧ ¬ Reordered first second)) ∧
    (∀ before after row,
      (nodeJournal sha256).persist ((nodeJournal sha256).run none before) first = (.ok true, some row) →
        (nodeJournal sha256).run (some row) after = some row ∧
        (Kept (nodeJournal sha256) first second ((nodeJournal sha256).run (some row) after) ↔
          first.WellFormed ∧ ¬ Reordered first second)) ∧
    ∀ row, (nodeJournal sha256).persist none first = (.ok true, some row) →
      ∃ seen : Finalization, (nodeJournal sha256).get (some row) = some (some (seen.status, seen.result)) ∧
        remoteRunResult sha256 seen.status (seen.result.map (·.body)) = (seen.status, seen.result.map (·.body)) ∧
        (controlStore sha256).persist none seen = (.ok true, some row) ∧
        (controlStore sha256).get (some row) = some (some (seen.status, seen.result)) := by
  refine ⟨?_, ?_, ?_⟩
  · intro before after row hwrite
    obtain ⟨-, hstored⟩ := persist_first hwrite
    rw [run_some]
    exact ⟨rfl, kept_iff hfirst hsecond hstored⟩
  · intro before after row hwrite
    obtain ⟨-, hstored⟩ := persist_first hwrite
    rw [run_some]
    exact ⟨rfl, kept_iff hfirst hsecond hstored⟩
  · intro row hwrite
    obtain ⟨-, hstored⟩ := persist_first hwrite
    obtain ⟨hfetch, hpersist⟩ := fetched_same hfirst hstored
    have hcontrol : Stored (controlStore sha256) first row := by
      cases hstored with
      | available hfits => exact .available hfits
      | absent other => exact .absent other
    exact ⟨asStored first, get_stored hfirst hstored, hfetch, hpersist, get_stored hfirst hcontrol⟩

end

/-- A result with one reference. -/
def plainResult (text hash : String) : AgentTaskResult where
  schemaVersion := "1"
  finalOutput := text
  processExitCode := some (JsNum.ofInt 0)
  finalizedAt := "2024-01-01T00:00:00Z"
  contentHash := hash
  evidenceRefs := some (.arr [.obj [("kind", .str "log"), ("ref", .str "ci/1")]])
  artifactRefs := some (.arr [])
  verification := none

theorem plainResult_normal {text hash : String} (hsize : byteLen text ≤ maxFinalOutputBytes)
    (hhex : isHex64 hash = true)
    (hsha : sha256 text = hash) : Normal sha256 (plainResult text hash) where
  version := rfl
  size := hsize
  exitCode n hn := by
    obtain rfl := Option.some.inj hn
    rfl
  time := (by decide +kernel : VibeTask.isIsoUtc "2024-01-01T00:00:00Z" = true)
  digest := hhex
  hash := hsha.symm
  evidence := rfl
  artifacts := rfl
  verification v hv := nomatch hv

theorem plainResult_fits {text hash : String} (hsize : byteLen text ≤ maxFinalOutputBytes) :
    Fits (plainResult text hash) where
  text := hsize
  evidence := (by decide +kernel :
    byteLen (stringify (.arr [.obj [("kind", .str "log"), ("ref", .str "ci/1")]])) ≤ maxRefsBytes)
  artifacts := (by decide +kernel : byteLen (stringify (.arr [])) ≤ maxRefsBytes)
  verification v hv := nomatch hv

/-- The SHA-256 digests of one text, and of the empty one. -/
def reportDigest (text : String) : String :=
  if text = "all tests pass" then "8d7c8b8624b364223b821f3cd9c4d6ba030ef9621c7d1aac046ca8a1b91315c1"
  else VibeRunResult.emptyDigest

def report (text : String) : Finalization := .available (.ofStored (plainResult text (reportDigest text)))

theorem report_accepted {text : String} (hsize : byteLen text ≤ maxFinalOutputBytes)
    (hhex : isHex64 (reportDigest text) = true) : (report text).Accepted reportDigest := by
  have hnormal : Normal reportDigest (plainResult text (reportDigest text)) := plainResult_normal hsize hhex rfl
  rintro _ ⟨⟩
  exact ⟨_, (envelope_reads hnormal).validates hnormal⟩

/-- A report is kept, and a run that wrote nothing is refused over it. -/
theorem report_kept : ∃ row,
    (nodeJournal reportDigest).persist none (report "all tests pass") = (.ok true, some row) ∧
      Kept (nodeJournal reportDigest) (report "all tests pass") (report "") (some row) := by
  have hsize : byteLen "all tests pass" ≤ maxFinalOutputBytes := by decide
  have hfirst := report_accepted hsize (by decide +kernel)
  have hsecond : (report "").Accepted reportDigest := report_accepted (by decide) (by decide +kernel)
  have hwrite := @stored_fresh _ _ (nodeJournal reportDigest) (report "all tests pass") _
    (.available (plainResult_fits hsize))
  refine ⟨_, hwrite,
    ((results_durable_iff (report "all tests pass") (report "") hfirst hsecond).2.1 [] [] _ hwrite).2.mpr ⟨?_, ?_⟩⟩
  · rintro _ ⟨⟩
    decide +kernel
  · intro hreordered
    exact absurd hreordered.1.1 (by decide +kernel)

/-- The SHA-256 digest of the replacement character. -/
def replacementDigest : String := "83d544ccc223c057d2bf80d3f2a32982c32c3c0db8e2674820da5064783fb097"

/-- Half of a surrogate pair. -/
def halfPair : RuntimeResult where
  text := [0xD800]
  body := plainResult (String.ofList [Utf16.replacement]) replacementDigest
  utf8 := rfl

/-- The half is stored as a replacement character: it is read as another text, and the same result is refused
    when it is written again. -/
theorem halfPair_refused :
    (Finalization.available halfPair).Accepted (fun _ => replacementDigest) ∧ ∃ row,
      (controlStore fun _ => replacementDigest).persist none (.available halfPair) = (.ok true, some row) ∧
      (controlStore fun _ => replacementDigest).persist (some row) (.available halfPair) =
        (.error .conflict, some row) ∧
      (controlStore fun _ => replacementDigest).get (some row) ≠ some (some ("available", some halfPair)) := by
  have hsize : byteLen (String.ofList [Utf16.replacement]) ≤ maxFinalOutputBytes := by decide
  have hnormal : Normal (fun _ => replacementDigest) halfPair.body := plainResult_normal hsize (by decide +kernel) rfl
  have haccepted : (Finalization.available halfPair).Accepted fun _ => replacementDigest := by
    rintro _ ⟨⟩
    exact ⟨_, (envelope_reads hnormal).validates hnormal⟩
  have hstored : Stored (controlStore fun _ => replacementDigest) (.available halfPair) (rowFor halfPair.body) :=
    .available (plainResult_fits hsize)
  refine ⟨haccepted, _, stored_fresh hstored, ?_, ?_⟩
  · rfl
  · rw [get_stored haccepted hstored]
    intro heq
    have htext := congrArg RuntimeResult.text (Option.some.inj
      (congrArg Prod.snd (Option.some.inj (Option.some.inj heq))))
    exact absurd htext (by decide +kernel)

end VibeResult
