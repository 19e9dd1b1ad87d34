import VibeWorkflow.RelayServerProofs
import VibeWorkflow.ParsedProofs
import VibeWorkflow.JsonParseProofs
import VibeWorkflow.DurableResultProofs

/-!
# Signed envelopes

A node signs the canonical text of a message and sends the message as JSON; the relay signs nothing, it
writes the canonical text of what it has read and compares.  The two sides see the same value only when the
message has no `undefined` in it: the signer writes an `undefined` property as `"name":undefined`, and the
frame does not have it at all.  And the text has `null` for an infinite number, which a frame may hold where
the message has `null`.

* `JsValue` — a JSON value that may hold `undefined` and infinite numbers;
* `canonicalize` — `crypto.canonicalize` on such values, `canonicalChars_ofParsed` — the relay's on parsed ones;
* **`canonicalize_same_iff`** — on parsed values the canonical text is the same exactly where what is written
  is the same up to the order of properties;
* `Weaker`, **`written_text`** — what is lost on the way weakens the text: fewer `d`, or as many and more
  characters;
* **`signed_frames_iff`** — which messages arrive with a signature that is theirs.
-/

namespace VibeCrypto

open VibeJson VibeRelayServer
open VibeCompiler (Same SameList SameFields Distinct DistinctList DistinctFields)

/-! ## Values with `undefined` -/

inductive JsValue where
  | undefined
  | null
  | bool (b : Bool)
  | num (n : JsNum)
  | infinite (negative : Bool)
  | str (s : String)
  | arr (xs : List JsValue)
  | obj (kvs : List (String × JsValue))

namespace JsValue

mutual

/-- The value `JSON.stringify` writes: nothing for `undefined`, which an array shows as `null` and an object
    leaves out, and `null` for an infinite number. -/
def toJson : JsValue → Option Json
  | .undefined => none
  | .null => some .null
  | .bool b => some (.bool b)
  | .num n => some (.num n)
  | .infinite _ => some .null
  | .str s => some (.str s)
  | .arr xs => some (.arr (toJsonList xs))
  | .obj kvs => some (.obj (toJsonFields kvs))

def toJsonList : List JsValue → List Json
  | [] => []
  | x :: xs => (toJson x).getD .null :: toJsonList xs

def toJsonFields : List (String × JsValue) → List (String × Json)
  | [] => []
  | (k, v) :: kvs =>
    match toJson v with
    | none => toJsonFields kvs
    | some j => (k, j) :: toJsonFields kvs

end

mutual

/-- The characters of `canonicalize`; `none` is the value `undefined`, which `join` takes for no text and a
    template literal for the word. -/
def canonicalChars : JsValue → Option (List Char)
  | .undefined => none
  | .null => some (textChars .null)
  | .bool b => some (textChars (.bool b))
  | .num n => some (textChars (.num n))
  | .infinite _ => some (textChars .null)
  | .str s => some (textChars (.str s))
  | .arr xs => some ('[' :: joinComma (canonicalList xs) ++ [']'])
  | .obj kvs => some ('\x7b' :: joinComma (((canonicalFields kvs).mergeSort
      (fun a b => decide (utf16Units a.1 ≤ utf16Units b.1))).map Prod.snd) ++ ['\x7d'])

def canonicalList : List JsValue → List (List Char)
  | [] => []
  | x :: xs => (canonicalChars x).getD [] :: canonicalList xs

def canonicalFields : List (String × JsValue) → List (String × List Char)
  | [] => []
  | (k, v) :: kvs =>
    (k, quoteChars k ++ ':' :: (canonicalChars v).getD "undefined".toList) :: canonicalFields kvs

end

mutual

/-- Is there no `undefined` in the value? -/
def isDefined : JsValue → Bool
  | .undefined => false
  | .arr xs => isDefinedList xs
  | .obj kvs => isDefinedFields kvs
  | _ => true

def isDefinedList : List JsValue → Bool
  | [] => true
  | x :: xs => isDefined x && isDefinedList xs

def isDefinedFields : List (String × JsValue) → Bool
  | [] => true
  | (_, v) :: kvs => isDefined v && isDefinedFields kvs

end

mutual

/-- Is there no `undefined`, no `null` and no infinite number in the value? -/
def isPlain : JsValue → Bool
  | .undefined | .null | .infinite _ => false
  | .arr xs => isPlainList xs
  | .obj kvs => isPlainFields kvs
  | _ => true

def isPlainList : List JsValue → Bool
  | [] => true
  | x :: xs => isPlain x && isPlainList xs

def isPlainFields : List (String × JsValue) → Bool
  | [] => true
  | (_, v) :: kvs => isPlain v && isPlainFields kvs

end

mutual

/-- Every object has each of its names once. -/
def Named : JsValue → Prop
  | .arr xs => NamedList xs
  | .obj kvs => (kvs.map Prod.fst).Nodup ∧ NamedFields kvs
  | _ => True

def NamedList : List JsValue → Prop
  | [] => True
  | x :: xs => Named x ∧ NamedList xs

def NamedFields : List (String × JsValue) → Prop
  | [] => True
  | (_, v) :: kvs => Named v ∧ NamedFields kvs

end

mutual

/-- A parsed value. -/
def ofParsed : Parsed → JsValue
  | .null => .null
  | .bool b => .bool b
  | .num n => .num n
  | .infinite n => .infinite n
  | .str s => .str s
  | .arr xs => .arr (ofParsedList xs)
  | .obj kvs => .obj (ofParsedFields kvs)

def ofParsedList : List Parsed → List JsValue
  | [] => []
  | x :: xs => ofParsed x :: ofParsedList xs

def ofParsedFields : List (String × Parsed) → List (String × JsValue)
  | [] => []
  | (k, v) :: kvs => (k, ofParsed v) :: ofParsedFields kvs

end

end JsValue

open JsValue

/-- `canonicalize`. -/
def canonicalize (v : JsValue) : Option String := v.canonicalChars.map String.ofList

/-! ## Signing and sending -/

/-- A message as the node builds it: an object. -/
structure Message where
  fields : List (String × JsValue)
  named : Named (.obj fields)

/-- `signEnvelope`, `sign` being the platform's signature of a text with the node's private key. -/
def signEnvelope (sign : String → String) (keyId : String) (envelopeWithoutSig : List (String × JsValue)) :
    Option JsValue :=
  (canonicalize (.obj envelopeWithoutSig)).map fun canonical =>
    .obj [("alg", .str "Ed25519"), ("key_id", .str keyId), ("value", .str (sign canonical))]

/-- `obj[k] = v` on properties of which some are `undefined`. -/
def assign : List (String × JsValue) → String → JsValue → List (String × JsValue)
  | [], k, v => [(k, v)]
  | (q, w) :: rest, k, v => if q = k then (k, v) :: rest else (q, w) :: assign rest k v

/-- `const { signature, ...withoutSig } = msg`. -/
def withoutSig {α : Type} (fields : List (String × α)) : List (String × α) :=
  fields.filter (fun p => p.1 ≠ "signature")

/-- `sendSigned`: the text written to the socket, if one is written. -/
def sendSigned (sign : String → String) (identityId : String) (isOpen : Bool) (msg : Message) : Option String :=
  if isOpen then do
    let sig ← signEnvelope sign identityId (withoutSig msg.fields)
    let frame ← (JsValue.obj (assign msg.fields "signature" sig)).toJson
    some (stringify frame)
  else none

/-! ## Canonical texts are texts of sorted copies -/

section

variable {α β : Type}

/-- The order of `.sort()` on the names of properties. -/
def sortFields (kvs : List (String × α)) : List (String × α) :=
  kvs.mergeSort (fun a b => decide (utf16Units a.1 ≤ utf16Units b.1))

theorem sortFields_perm (kvs : List (String × α)) : (sortFields kvs).Perm kvs := List.mergeSort_perm _ _

theorem sortFields_sorted (kvs : List (String × α)) :
    (sortFields kvs).Pairwise (fun a b => utf16Units a.1 ≤ utf16Units b.1) := by
  have hsorted := @List.pairwise_mergeSort _ (fun a b : String × α => decide (utf16Units a.1 ≤ utf16Units b.1))
    (fun a b c hab hbc => decide_eq_true (le_trans (of_decide_eq_true hab) (of_decide_eq_true hbc)))
    (fun a b => by
      rw [Bool.or_eq_true, decide_eq_true_iff, decide_eq_true_iff]
      exact le_total (utf16Units a.1) (utf16Units b.1)) kvs
  exact hsorted.imp of_decide_eq_true

/-- Sorting looks at the names only. -/
theorem sortFields_map (f : String × α → String × β) (hname : ∀ kv, (f kv).1 = kv.1) (kvs : List (String × α)) :
    sortFields (kvs.map f) = (sortFields kvs).map f := by
  refine (List.map_mergeSort fun a _ b _ => ?_).symm
  rw [hname, hname]

/-- The sorted properties do not depend on the order of the object. -/
theorem sortFields_eq_iff {kvs kvs' : List (String × α)} (hnodup : (kvs.map Prod.fst).Nodup) :
    sortFields kvs = sortFields kvs' ↔ kvs.Perm kvs' := by
  constructor
  · intro h
    have hperm := sortFields_perm kvs
    rw [h] at hperm
    exact hperm.symm.trans (sortFields_perm kvs')
  · intro h
    have hperm : (sortFields kvs).Perm (sortFields kvs') :=
      (sortFields_perm kvs).trans (h.trans (sortFields_perm kvs').symm)
    refine List.Perm.eq_of_pairwise ?_ (sortFields_sorted kvs) (sortFields_sorted kvs') hperm
    intro a b ha hb hab hba
    -- one name, and so one property
    have hname : a.1 = b.1 := VibeCompiler.utf16Units_injective
      (show utf16Units a.1 = utf16Units b.1 from le_antisymm hab hba)
    have hmem : ∀ kv ∈ sortFields kvs, kv ∈ kvs := fun kv hkv => (sortFields_perm kvs).subset hkv
    exact List.inj_on_of_nodup_map hnodup (hmem a ha) (hmem b (hperm.symm.subset hb)) hname

end

mutual

/-- The value with the properties of every object in the order of `.sort()`. -/
def sortedCopy : Json → Json
  | .arr xs => .arr (sortedList xs)
  | .obj kvs => .obj (sortFields (sortedProps kvs))
  | .null => .null
  | .bool b => .bool b
  | .num n => .num n
  | .str s => .str s

def sortedList : List Json → List Json
  | [] => []
  | x :: xs => sortedCopy x :: sortedList xs

def sortedProps : List (String × Json) → List (String × Json)
  | [] => []
  | (k, v) :: kvs => (k, sortedCopy v) :: sortedProps kvs

end

/-- One property as it is written. -/
def propText (kv : String × Json) : List Char := quoteChars kv.1 ++ ':' :: textChars kv.2

theorem textCharsList_eq (xs : List Json) : textCharsList xs = joinComma (xs.map textChars) := by
  induction xs with
  | nil => rfl
  | cons x xs ih =>
    cases xs with
    | nil => rfl
    | cons y rest =>
      rw [textCharsList, ih]
      rfl

theorem textCharsFields_eq (kvs : List (String × Json)) : textCharsFields kvs = joinComma (kvs.map propText) := by
  induction kvs with
  | nil => rfl
  | cons kv kvs ih =>
    obtain ⟨k, v⟩ := kv
    cases kvs with
    | nil => rfl
    | cons y rest =>
      rw [textCharsFields, ih]
      show _ = (quoteChars k ++ ':' :: textChars v) ++ ',' :: joinComma ((y :: rest).map propText)
      rw [List.append_assoc]
      rfl

theorem sortedProps_eq (kvs : List (String × Json)) :
    sortedProps kvs = kvs.map (fun kv => (kv.1, sortedCopy kv.2)) := by
  induction kvs with
  | nil => rfl
  | cons kv kvs ih =>
    rw [sortedProps, ih]
    rfl

mutual

/-- **A canonical text is the text of the sorted copy.** -/
theorem canonicalChars_sorted (v : Json) : VibeRelayServer.canonicalChars v = textChars (sortedCopy v) := by
  match v with
  | .null | .bool _ | .num _ | .str _ => rfl
  | .arr xs =>
    rw [VibeRelayServer.canonicalChars, canonicalList_sorted xs, ← textCharsList_eq]
    rfl
  | .obj kvs =>
    rw [VibeRelayServer.canonicalChars, canonicalFields_sorted kvs]
    have hsort := sortFields_map (fun kv : String × Json => (kv.1, propText kv)) (fun _ => rfl) (sortedProps kvs)
    unfold sortFields at hsort
    rw [hsort, List.map_map]
    show '\x7b' :: joinComma ((sortFields (sortedProps kvs)).map propText) ++ ['\x7d'] = _
    rw [← textCharsFields_eq]
    rfl

theorem canonicalList_sorted (xs : List Json) : VibeRelayServer.canonicalList xs = (sortedList xs).map textChars := by
  match xs with
  | [] => rfl
  | x :: xs =>
    rw [VibeRelayServer.canonicalList, canonicalChars_sorted x, canonicalList_sorted xs]
    rfl

theorem canonicalFields_sorted (kvs : List (String × Json)) :
    VibeRelayServer.canonicalFields kvs = (sortedProps kvs).map (fun kv => (kv.1, propText kv)) := by
  match kvs with
  | [] => rfl
  | (k, v) :: kvs =>
    rw [VibeRelayServer.canonicalFields, canonicalChars_sorted v, canonicalFields_sorted kvs]
    rfl

end

/-! ## What a canonical text identifies -/

/-- Objects whose values are compared through a function: the same properties in any order. -/
theorem props_perm_iff {f : Json → Json} {kvs kvs' : List (String × Json)} (h : (kvs.map Prod.fst).Nodup)
    (hvalues : ∀ kv ∈ kvs, ∀ kv' ∈ kvs', (f kv.2 = f kv'.2 ↔ Same kv.2 kv'.2)) :
    (kvs.map (fun kv => (kv.1, f kv.2))).Perm (kvs'.map (fun kv => (kv.1, f kv.2))) ↔ Same (.obj kvs) (.obj kvs') := by
  have hnames : ∀ kvs : List (String × Json), (kvs.map (fun kv => (kv.1, f kv.2))).map Prod.fst = kvs.map Prod.fst := by
    intro kvs
    rw [List.map_map]
    rfl
  rw [Same, VibeCompiler.sameFields_iff]
  constructor
  · intro hperm
    refine ⟨?_, ?_⟩
    · rw [← hnames kvs, ← hnames kvs']
      exact hperm.map Prod.fst
    · intro kv hkv
      obtain ⟨kv', hkv', heq⟩ := List.mem_map.mp (hperm.subset (List.mem_map.mpr ⟨kv, hkv, rfl⟩))
      obtain ⟨hname, hvalue⟩ := Prod.mk.inj heq
      exact ⟨kv'.2, by rw [← hname]; exact hkv', (hvalues kv hkv kv' hkv').mp hvalue.symm⟩
  · rintro ⟨hperm, hfields⟩
    have hsubset : kvs.map (fun kv => (kv.1, f kv.2)) ⊆ kvs'.map (fun kv => (kv.1, f kv.2)) := by
      intro p hp
      obtain ⟨kv, hkv, rfl⟩ := List.mem_map.mp hp
      obtain ⟨v', hv', hsame⟩ := hfields kv hkv
      exact List.mem_map.mpr ⟨(kv.1, v'), hv', by rw [(hvalues kv hkv (kv.1, v') hv').mpr hsame]⟩
    have hnodup : (kvs.map (fun kv => (kv.1, f kv.2))).Nodup := List.Nodup.of_map Prod.fst (by rw [hnames]; exact h)
    refine (hnodup.subperm hsubset).perm_of_length_le ?_
    have hlength := hperm.length_eq
    rw [List.length_map, List.length_map] at hlength ⊢
    exact Nat.le_of_eq hlength.symm

mutual

/-- **Sorted copies are equal exactly for values that are the same up to the order of properties.** -/
theorem sortedCopy_eq_iff (a b : Json) (ha : Distinct a) (hb : Distinct b) :
    sortedCopy a = sortedCopy b ↔ Same a b := by
  match a, b with
  | .arr xs, .arr ys =>
    rw [sortedCopy, sortedCopy, Json.arr.injEq]
    exact sortedList_eq_iff xs ys ha hb
  | .obj kvs, .obj kvs' =>
    rw [sortedCopy, sortedCopy, Json.obj.injEq, sortedProps_eq, sortedProps_eq, sortFields_eq_iff]
    · refine props_perm_iff ha.1 ?_
      intro kv hkv kv' hkv'
      exact sortedProps_eq_iff kvs kv hkv kv'.2 (VibeCompiler.distinctFields_iff.mp ha.2 kv hkv)
        (VibeCompiler.distinctFields_iff.mp hb.2 kv' hkv')
    · rw [List.map_map]
      exact ha.1
  | .null, .null => exact ⟨fun _ => trivial, fun _ => rfl⟩
  | .bool _, .bool _ => exact ⟨fun h => Json.bool.inj h, fun h => congrArg Json.bool h⟩
  | .num _, .num _ => exact ⟨fun h => Json.num.inj h, fun h => congrArg Json.num h⟩
  | .str _, .str _ => exact ⟨fun h => Json.str.inj h, fun h => congrArg Json.str h⟩
  | .null, .bool _ | .null, .num _ | .null, .str _ | .null, .arr _ | .null, .obj _
  | .bool _, .null | .bool _, .num _ | .bool _, .str _ | .bool _, .arr _ | .bool _, .obj _
  | .num _, .null | .num _, .bool _ | .num _, .str _ | .num _, .arr _ | .num _, .obj _
  | .str _, .null | .str _, .bool _ | .str _, .num _ | .str _, .arr _ | .str _, .obj _
  | .arr _, .null | .arr _, .bool _ | .arr _, .num _ | .arr _, .str _ | .arr _, .obj _
  | .obj _, .null | .obj _, .bool _ | .obj _, .num _ | .obj _, .str _ | .obj _, .arr _ =>
    exact ⟨fun h => (nomatch h), fun h => False.elim h⟩

theorem sortedList_eq_iff (xs ys : List Json) (hxs : DistinctList xs) (hys : DistinctList ys) :
    sortedList xs = sortedList ys ↔ SameList xs ys := by
  match xs, ys with
  | [], [] => exact ⟨fun _ => trivial, fun _ => rfl⟩
  | [], _ :: _ => exact ⟨fun h => (nomatch h), fun h => False.elim h⟩
  | _ :: _, [] => exact ⟨fun h => (nomatch h), fun h => False.elim h⟩
  | x :: xs, y :: ys =>
    rw [sortedList, sortedList, SameList, List.cons.injEq, sortedCopy_eq_iff x y hxs.1 hys.1,
      sortedList_eq_iff xs ys hxs.2 hys.2]

theorem sortedProps_eq_iff (kvs : List (String × Json)) :
    ∀ kv ∈ kvs, ∀ v', Distinct kv.2 → Distinct v' → (sortedCopy kv.2 = sortedCopy v' ↔ Same kv.2 v') := by
  match kvs with
  | [] => exact fun _ h => nomatch h
  | (k, v) :: kvs =>
    intro kv hkv v' hv hv'
    rcases List.mem_cons.mp hkv with rfl | hkv
    · exact sortedCopy_eq_iff v v' hv hv'
    · exact sortedProps_eq_iff kvs kv hkv v' hv hv'

end

/-- What the relay's canonical text identifies. -/
theorem relayCanonical_eq_iff {a b : Json} (ha : Distinct a) (hb : Distinct b) :
    VibeRelayServer.canonicalize a = VibeRelayServer.canonicalize b ↔ Same a b := by
  rw [← sortedCopy_eq_iff a b ha hb]
  have htext : ∀ v, VibeRelayServer.canonicalize v = stringify (sortedCopy v) := by
    intro v
    show String.ofList (VibeRelayServer.canonicalChars v) = String.ofList (textChars (sortedCopy v))
    rw [canonicalChars_sorted]
  rw [htext, htext]
  exact ⟨stringify_injective, congrArg stringify⟩

/-! ## The signer's text of a parsed value -/

mutual

/-- On a parsed value the signer writes what the relay writes. -/
theorem canonicalChars_ofParsed (v : Parsed) :
    (ofParsed v).canonicalChars = some (VibeRelayServer.canonicalChars v.written) := by
  match v with
  | .null | .bool _ | .num _ | .infinite _ | .str _ => rfl
  | .arr xs =>
    rw [ofParsed, JsValue.canonicalChars, canonicalList_ofParsed xs]
    rfl
  | .obj kvs =>
    rw [ofParsed, JsValue.canonicalChars, canonicalFields_ofParsed kvs]
    rfl

theorem canonicalList_ofParsed (xs : List Parsed) :
    JsValue.canonicalList (ofParsedList xs) = VibeRelayServer.canonicalList (Parsed.writtenList xs) := by
  match xs with
  | [] => rfl
  | x :: xs =>
    rw [ofParsedList, JsValue.canonicalList, canonicalChars_ofParsed x, canonicalList_ofParsed xs]
    rfl

theorem canonicalFields_ofParsed (kvs : List (String × Parsed)) :
    JsValue.canonicalFields (ofParsedFields kvs) = VibeRelayServer.canonicalFields (Parsed.writtenFields kvs) := by
  match kvs with
  | [] => rfl
  | (k, v) :: kvs =>
    rw [ofParsedFields, JsValue.canonicalFields, canonicalChars_ofParsed v, canonicalFields_ofParsed kvs]
    rfl

end

theorem canonicalize_ofParsed (v : Parsed) :
    canonicalize (ofParsed v) = some (VibeRelayServer.canonicalize v.written) := by
  unfold canonicalize
  rw [canonicalChars_ofParsed]
  rfl

/-- **What `canonicalize` identifies**: values that are written the same up to the order of properties. -/
theorem canonicalize_same_iff {a b : Parsed} (ha : Distinct a.written) (hb : Distinct b.written) :
    canonicalize (ofParsed a) = canonicalize (ofParsed b) ↔ Same a.written b.written := by
  rw [canonicalize_ofParsed, canonicalize_ofParsed, Option.some.injEq]
  exact relayCanonical_eq_iff ha hb

/-! ## What is lost on the way -/

/-- The first text has fewer `d` than the second, or as many and more characters. -/
def Weaker (written text : List Char) : Prop :=
  written.count 'd' < text.count 'd' ∨ written.count 'd' = text.count 'd' ∧ text.length < written.length

/-- How many `d` the texts have together. -/
def marks (ts : List (List Char)) : Nat := (ts.map (List.count 'd')).sum

def size (ts : List (List Char)) : Nat := (ts.map List.length).sum

def WeakerAll (ws ts : List (List Char)) : Prop :=
  marks ws < marks ts ∨ marks ws = marks ts ∧ ws.length = ts.length ∧ size ts < size ws

section

variable {w t : List Char} {ws ts ws' ts' : List (List Char)}

@[simp] theorem marks_cons (t : List Char) (ts : List (List Char)) : marks (t :: ts) = t.count 'd' + marks ts := rfl

@[simp] theorem size_cons (t : List Char) (ts : List (List Char)) : size (t :: ts) = t.length + size ts := rfl

theorem marks_perm (h : ts.Perm ts') : marks ts = marks ts' := (h.map _).sum_eq

theorem size_perm (h : ts.Perm ts') : size ts = size ts' := (h.map _).sum_eq

theorem joinComma_count (ts : List (List Char)) : (joinComma ts).count 'd' = marks ts := by
  induction ts with
  | nil => rfl
  | cons t ts ih =>
    cases ts with
    | nil => rfl
    | cons y rest =>
      rw [joinComma, List.count_append, List.count_cons_of_ne (by decide), ih]
      rfl

theorem joinComma_length (ts : List (List Char)) : (joinComma ts).length = size ts + (ts.length - 1) := by
  induction ts with
  | nil => rfl
  | cons t ts ih =>
    cases ts with
    | nil => rfl
    | cons y rest =>
      rw [joinComma, List.length_append, List.length_cons, ih, size_cons t]
      simp only [List.length_cons]
      omega

theorem Weaker.ne (h : Weaker w t) : w ≠ t := by
  rintro rfl
  rcases h with h | ⟨-, h⟩
  · exact Nat.lt_irrefl _ h
  · exact Nat.lt_irrefl _ h

theorem Weaker.append (h : Weaker w t) (front back : List Char) : Weaker (front ++ w ++ back) (front ++ t ++ back) := by
  unfold Weaker at h ⊢
  simp only [List.count_append, List.length_append]
  omega

theorem WeakerAll.join (h : WeakerAll ws ts) : Weaker (joinComma ws) (joinComma ts) := by
  unfold WeakerAll at h
  unfold Weaker
  rw [joinComma_count, joinComma_count, joinComma_length, joinComma_length]
  omega

theorem WeakerAll.perm (h : WeakerAll ws ts) (hw : ws'.Perm ws) (ht : ts'.Perm ts) : WeakerAll ws' ts' := by
  unfold WeakerAll at h ⊢
  rw [marks_perm hw, marks_perm ht, size_perm hw, size_perm ht, hw.length_eq, ht.length_eq]
  exact h

/-- One text weakened, the others as they were or weakened too. -/
theorem WeakerAll.head (h : Weaker w t) (hrest : ws = ts ∨ WeakerAll ws ts) : WeakerAll (w :: ws) (t :: ts) := by
  unfold Weaker at h
  unfold WeakerAll at hrest ⊢
  simp only [marks_cons, size_cons, List.length_cons]
  rcases hrest with rfl | hrest
  · omega
  · omega

theorem WeakerAll.tail (t : List Char) (h : WeakerAll ws ts) : WeakerAll (t :: ws) (t :: ts) := by
  unfold WeakerAll at h ⊢
  simp only [marks_cons, size_cons, List.length_cons]
  omega

/-- One text left out; it has a `d`. -/
theorem WeakerAll.dropped (h : 0 < t.count 'd') (hrest : ws = ts ∨ WeakerAll ws ts) : WeakerAll ws (t :: ts) := by
  unfold WeakerAll at hrest ⊢
  simp only [marks_cons, size_cons, List.length_cons]
  rcases hrest with rfl | hrest
  · omega
  · omega

end

section

variable (xs : List JsValue) (kvs : List (String × JsValue))

/-- Only `undefined` is not written. -/
theorem undefined_of_toJson {v : JsValue} (h : v.toJson = none) : v = .undefined := by
  cases v with
  | undefined => rfl
  | _ => cases h

/-- What an array's elements are written as, against the signer's texts. -/
def ListWritten : Prop :=
  (isDefinedList xs = true ∧ VibeRelayServer.canonicalList (toJsonList xs) = JsValue.canonicalList xs) ∨
    (isDefinedList xs = false ∧
      WeakerAll (VibeRelayServer.canonicalList (toJsonList xs)) (JsValue.canonicalList xs))

/-- What an object's properties are written as, against the signer's texts. -/
def FieldsWritten : Prop :=
  (isDefinedFields kvs = true ∧ VibeRelayServer.canonicalFields (toJsonFields kvs) = JsValue.canonicalFields kvs) ∨
    (isDefinedFields kvs = false ∧ WeakerAll ((VibeRelayServer.canonicalFields (toJsonFields kvs)).map Prod.snd)
      ((JsValue.canonicalFields kvs).map Prod.snd))

end

/-- What a value is written as, against the signer's text. -/
def Written (v : JsValue) (j : Json) : Prop :=
  ∃ t, v.canonicalChars = some t ∧
    ((v.isDefined = true ∧ VibeRelayServer.canonicalChars j = t) ∨
      (v.isDefined = false ∧ Weaker (VibeRelayServer.canonicalChars j) t))

theorem written_list {xs : List JsValue} (h : ListWritten xs) : Written (.arr xs) (.arr (toJsonList xs)) := by
  refine ⟨_, rfl, ?_⟩
  rcases h with ⟨hd, h⟩ | ⟨hd, h⟩
  · refine .inl ⟨hd, ?_⟩
    rw [VibeRelayServer.canonicalChars, h]
  · refine .inr ⟨hd, ?_⟩
    rw [VibeRelayServer.canonicalChars]
    exact h.join.append ['['] [']']

theorem written_fields {kvs : List (String × JsValue)} (h : FieldsWritten kvs) :
    Written (.obj kvs) (.obj (toJsonFields kvs)) := by
  refine ⟨_, rfl, ?_⟩
  rcases h with ⟨hd, h⟩ | ⟨hd, h⟩
  · refine .inl ⟨hd, ?_⟩
    rw [VibeRelayServer.canonicalChars, h]
  · refine .inr ⟨hd, ?_⟩
    rw [VibeRelayServer.canonicalChars]
    -- sorting only moves the texts
    have hsorted := h.perm ((sortFields_perm (VibeRelayServer.canonicalFields (toJsonFields kvs))).map Prod.snd)
      ((sortFields_perm (JsValue.canonicalFields kvs)).map Prod.snd)
    exact hsorted.join.append ['\x7b'] ['\x7d']

mutual

/-- **The relay's text of a value that was sent**: the signer's text when the value has no `undefined`, and
    a weaker one when it has. -/
theorem written_text (v : JsValue) (j : Json) (h : v.toJson = some j) : Written v j := by
  match v with
  | .undefined => exact nomatch h
  | .null | .bool _ | .num _ | .infinite _ | .str _ =>
    obtain rfl := Option.some.inj h
    exact ⟨_, rfl, .inl ⟨rfl, rfl⟩⟩
  | .arr xs =>
    obtain rfl := Option.some.inj h
    exact written_list (written_textList xs)
  | .obj kvs =>
    obtain rfl := Option.some.inj h
    exact written_fields (written_textFields kvs)

theorem written_textList (xs : List JsValue) : ListWritten xs := by
  match xs with
  | [] => exact .inl ⟨rfl, rfl⟩
  | x :: xs =>
    have hrest := written_textList xs
    unfold ListWritten
    rw [isDefinedList, toJsonList, VibeRelayServer.canonicalList, JsValue.canonicalList]
    cases hx : x.toJson with
    | none =>
      -- an `undefined` element: the signer writes nothing, the frame says `null`
      obtain rfl := undefined_of_toJson hx
      refine .inr ⟨rfl, WeakerAll.head ?_ (hrest.imp And.right And.right)⟩
      exact .inr ⟨rfl, Nat.succ_pos _⟩
    | some j =>
      obtain ⟨t, ht, hxj⟩ := written_text x j hx
      rw [ht]
      show (_ ∧ VibeRelayServer.canonicalChars j :: _ = t :: _) ∨
        (_ ∧ WeakerAll (VibeRelayServer.canonicalChars j :: _) (t :: _))
      rcases hxj with ⟨hd, rfl⟩ | ⟨hd, hweak⟩
      · rw [hd, Bool.true_and]
        rcases hrest with ⟨hds, heq⟩ | ⟨hds, hweak⟩
        · exact .inl ⟨hds, by rw [heq]⟩
        · exact .inr ⟨hds, hweak.tail _⟩
      · rw [hd, Bool.false_and]
        exact .inr ⟨rfl, WeakerAll.head hweak (hrest.imp And.right And.right)⟩

theorem written_textFields (kvs : List (String × JsValue)) : FieldsWritten kvs := by
  match kvs with
  | [] => exact .inl ⟨rfl, rfl⟩
  | (k, v) :: kvs =>
    have hrest := written_textFields kvs
    have htails : (VibeRelayServer.canonicalFields (toJsonFields kvs)).map Prod.snd
        = (JsValue.canonicalFields kvs).map Prod.snd ∨ WeakerAll
        ((VibeRelayServer.canonicalFields (toJsonFields kvs)).map Prod.snd)
          ((JsValue.canonicalFields kvs).map Prod.snd) :=
      hrest.imp (fun h => congrArg (List.map Prod.snd) h.2) And.right
    unfold FieldsWritten
    rw [isDefinedFields, toJsonFields, JsValue.canonicalFields]
    cases hv : v.toJson with
    | none =>
      -- an `undefined` property: the signer writes the word, the frame nothing
      obtain rfl := undefined_of_toJson hv
      refine .inr ⟨rfl, WeakerAll.dropped ?_ htails⟩
      rw [List.count_append]
      exact Nat.lt_of_lt_of_le (show 0 < 2 by decide) (Nat.le_add_left 2 _)
    | some j =>
      obtain ⟨t, ht, hvj⟩ := written_text v j hv
      rw [ht]
      show (_ ∧ (k, quoteChars k ++ ':' :: VibeRelayServer.canonicalChars j) :: _ =
        (k, quoteChars k ++ ':' :: t) :: _) ∨
        (_ ∧ WeakerAll ((quoteChars k ++ ':' :: VibeRelayServer.canonicalChars j) :: _)
          ((quoteChars k ++ ':' :: t) :: _))
      rcases hvj with ⟨hd, rfl⟩ | ⟨hd, hweak⟩
      · rw [hd, Bool.true_and]
        rcases hrest with ⟨hds, heq⟩ | ⟨hds, hweak⟩
        · exact .inl ⟨hds, by rw [heq]⟩
        · exact .inr ⟨hds, hweak.tail _⟩
      · rw [hd, Bool.false_and]
        refine .inr ⟨rfl, WeakerAll.head ?_ htails⟩
        have hfield := hweak.append (quoteChars k ++ [':']) []
        rw [List.append_nil, List.append_nil, List.append_assoc, List.append_assoc] at hfield
        exact hfield

end

/-- The relay's text is the signer's exactly when nothing was lost. -/
theorem canonical_sent_iff {v : JsValue} {j : Json} (h : v.toJson = some j) :
    canonicalize v = some (VibeRelayServer.canonicalize j) ↔ v.isDefined = true := by
  obtain ⟨t, ht, hcase⟩ := written_text v j h
  unfold canonicalize VibeRelayServer.canonicalize
  rw [ht, Option.map_some, Option.some.injEq]
  rcases hcase with ⟨hd, rfl⟩ | ⟨hd, hweak⟩
  · exact ⟨fun _ => hd, fun _ => rfl⟩
  · rw [hd]
    exact ⟨fun heq => absurd (String.ofList_injective heq).symm hweak.ne, fun hfalse => nomatch hfalse⟩

theorem and_exchange (a b c d : Bool) : ((a && b) && (c && d)) = ((a && c) && (b && d)) := by
  cases a <;> cases b <;> cases c <;> rfl

mutual

/-- A plain value is a defined one that is written without `null`. -/
theorem isPlain_iff (v : JsValue) (j : Json) (h : v.toJson = some j) :
    v.isPlain = (v.isDefined && !Parsed.holdsNull j) := by
  match v with
  | .undefined => cases h
  | .null | .bool _ | .num _ | .infinite _ | .str _ =>
    obtain rfl := Option.some.inj h
    rfl
  | .arr xs =>
    obtain rfl := Option.some.inj h
    exact isPlainList_iff xs
  | .obj kvs =>
    obtain rfl := Option.some.inj h
    exact isPlainFields_iff kvs

theorem isPlainList_iff (xs : List JsValue) :
    isPlainList xs = (isDefinedList xs && !Parsed.holdsNullList (toJsonList xs)) := by
  match xs with
  | [] => rfl
  | x :: xs =>
    rw [isPlainList, isDefinedList, toJsonList, Parsed.holdsNullList, isPlainList_iff xs]
    cases hx : x.toJson with
    | none =>
      rw [undefined_of_toJson hx]
      rfl
    | some j =>
      rw [isPlain_iff x j hx, Option.getD_some, Bool.not_or, and_exchange]

theorem isPlainFields_iff (kvs : List (String × JsValue)) :
    isPlainFields kvs = (isDefinedFields kvs && !Parsed.holdsNullFields (toJsonFields kvs)) := by
  match kvs with
  | [] => rfl
  | (k, v) :: kvs =>
    rw [isPlainFields, isDefinedFields, toJsonFields, isPlainFields_iff kvs]
    cases hv : v.toJson with
    | none =>
      rw [undefined_of_toJson hv]
      rfl
    | some j =>
      dsimp only
      rw [isPlain_iff v j hv, Parsed.holdsNullFields, Bool.not_or, and_exchange]

end

/-! ## What the relay reads -/

theorem namedFields_iff {kvs : List (String × JsValue)} : NamedFields kvs ↔ ∀ kv ∈ kvs, Named kv.2 := by
  induction kvs with
  | nil => exact ⟨fun _ _ h => (nomatch h), fun _ => trivial⟩
  | cons kv kvs ih =>
    obtain ⟨k, v⟩ := kv
    rw [NamedFields, ih, List.forall_mem_cons]

mutual

theorem distinct_toJson (v : JsValue) (h : v.Named) (j : Json) (hj : v.toJson = some j) : Distinct j := by
  match v with
  | .undefined => exact nomatch hj
  | .null | .bool _ | .num _ | .infinite _ | .str _ =>
    obtain rfl := Option.some.inj hj
    trivial
  | .arr xs =>
    obtain rfl := Option.some.inj hj
    exact distinct_toJsonList xs h
  | .obj kvs =>
    obtain rfl := Option.some.inj hj
    obtain ⟨hsub, hfields⟩ := distinct_toJsonFields kvs h.2
    exact ⟨h.1.sublist hsub, hfields⟩

theorem distinct_toJsonList (xs : List JsValue) (h : NamedList xs) : DistinctList (toJsonList xs) := by
  match xs with
  | [] => trivial
  | x :: xs =>
    refine ⟨?_, distinct_toJsonList xs h.2⟩
    cases hx : x.toJson with
    | none => trivial
    | some j => exact distinct_toJson x h.1 j hx

theorem distinct_toJsonFields (kvs : List (String × JsValue)) (h : NamedFields kvs) :
    ((toJsonFields kvs).map Prod.fst).Sublist (kvs.map Prod.fst) ∧ DistinctFields (toJsonFields kvs) := by
  match kvs with
  | [] => exact ⟨List.Sublist.refl _, trivial⟩
  | (k, v) :: kvs =>
    obtain ⟨hsub, hfields⟩ := distinct_toJsonFields kvs h.2
    rw [toJsonFields]
    cases hv : v.toJson with
    | none => exact ⟨hsub.cons k, hfields⟩
    | some j => exact ⟨hsub.cons_cons k, distinct_toJson v h.1 j hv, hfields⟩

end

section

variable {kvs : List (String × JsValue)}

theorem toJsonFields_withoutSig (kvs : List (String × JsValue)) :
    withoutSig (toJsonFields kvs) = toJsonFields (withoutSig kvs) := by
  induction kvs with
  | nil => rfl
  | cons kv kvs ih =>
    obtain ⟨k, v⟩ := kv
    by_cases hk : k = "signature"
    · rw [show withoutSig ((k, v) :: kvs) = withoutSig kvs from List.filter_cons_of_neg (by simpa using hk), ← ih,
        toJsonFields]
      cases v.toJson with
      | none => rfl
      | some j => exact List.filter_cons_of_neg (by simpa using hk)
    · rw [show withoutSig ((k, v) :: kvs) = (k, v) :: withoutSig kvs from List.filter_cons_of_pos (by simpa using hk),
        toJsonFields, toJsonFields, ← ih]
      cases v.toJson with
      | none => rfl
      | some j => exact List.filter_cons_of_pos (by simpa using hk)

theorem assign_withoutSig (kvs : List (String × JsValue)) (v : JsValue) :
    withoutSig (assign kvs "signature" v) = withoutSig kvs := by
  induction kvs with
  | nil => rfl
  | cons kv kvs ih =>
    obtain ⟨k, w⟩ := kv
    rw [assign]
    by_cases hk : k = "signature"
    · rw [if_pos hk]
      exact (List.filter_cons_of_neg (by simp)).trans (List.filter_cons_of_neg (by simpa using hk)).symm
    · rw [if_neg hk]
      refine (List.filter_cons_of_pos (by simpa using hk)).trans ?_
      exact (congrArg ((k, w) :: ·) ih).trans (List.filter_cons_of_pos (by simpa using hk)).symm

theorem mem_assign {k q : String} {v : JsValue} (h : q ∈ (assign kvs k v).map Prod.fst) :
    q = k ∨ q ∈ kvs.map Prod.fst := by
  induction kvs with
  | nil => exact .inl (List.mem_singleton.mp h)
  | cons kv kvs ih =>
    obtain ⟨p, w⟩ := kv
    rw [assign] at h
    split at h
    · exact (List.mem_cons.mp h).imp id (List.mem_cons_of_mem _)
    · rcases List.mem_cons.mp h with rfl | h
      · exact .inr List.mem_cons_self
      · exact (ih h).imp id (List.mem_cons_of_mem _)

/-- An assignment keeps the names apart. -/
theorem named_assign {k : String} {v : JsValue} (hv : v.Named) (h : Named (.obj kvs)) :
    Named (.obj (assign kvs k v)) := by
  induction kvs with
  | nil => exact ⟨List.nodup_singleton _, hv, trivial⟩
  | cons kv kvs ih =>
    obtain ⟨q, w⟩ := kv
    obtain ⟨hnodup, hw, hnamed⟩ := h
    obtain ⟨hq, hnodup⟩ := List.nodup_cons.mp hnodup
    rw [assign]
    split
    · rename_i hk
      exact ⟨List.nodup_cons.mpr ⟨hk ▸ hq, hnodup⟩, hv, hnamed⟩
    · rename_i hk
      obtain ⟨hnodup', hnamed'⟩ := ih ⟨hnodup, hnamed⟩
      exact ⟨List.nodup_cons.mpr ⟨fun hin => (mem_assign hin).elim hk hq, hnodup'⟩, hw, hnamed'⟩

/-- An assigned property is read back from the frame. -/
theorem lookup_assigned {k : String} {v : JsValue} {j : Json} (hv : v.toJson = some j)
    (h : (kvs.map Prod.fst).Nodup) (hnamed : NamedFields kvs) : lookup (toJsonFields (assign kvs k v)) k = some j := by
  induction kvs with
  | nil =>
    rw [assign, toJsonFields, hv]
    show (if k = k then some j else none) = some j
    rw [if_pos rfl]
  | cons kv kvs ih =>
    obtain ⟨q, w⟩ := kv
    obtain ⟨hq, hnodup⟩ := List.nodup_cons.mp h
    rw [assign]
    by_cases hk : q = k
    · subst hk
      rw [if_pos rfl, toJsonFields, hv]
      -- no later property has the name
      have hnone : lookup (toJsonFields kvs) q = none := by
        cases hlook : lookup (toJsonFields kvs) q with
        | none => rfl
        | some w' =>
          exact absurd ((distinct_toJsonFields kvs hnamed.2).1.subset (List.mem_map_of_mem (lookup_mem hlook))) hq
      show lookup ((q, j) :: toJsonFields kvs) q = some j
      rw [lookup, hnone]
      exact if_pos rfl
    · rw [if_neg hk, toJsonFields]
      have hrest := ih hnodup hnamed.2
      cases w.toJson with
      | none => exact hrest
      | some j' =>
        show lookup ((q, j') :: toJsonFields (assign kvs k v)) k = some j
        rw [lookup, hrest]

end

/-- An envelope without its signature. -/
def content (envelope : Json) : Json := .obj (withoutSig envelope.fields)

/-- The value of an envelope's signature. -/
def signatureValue (envelope : Json) : Option Json := (envelope.get? "signature").bind fun s => s.get? "value"

theorem distinct_content {envelope : Json} (h : Distinct envelope) : Distinct (content envelope) := by
  cases envelope with
  | obj kvs =>
    refine ⟨h.1.sublist (List.filter_sublist.map _), VibeCompiler.distinctFields_iff.mpr ?_⟩
    exact fun kv hkv => VibeCompiler.distinctFields_iff.mp h.2 kv (List.mem_filter.mp hkv).1
  | _ => exact ⟨List.nodup_nil, trivial⟩

/-- What an envelope that verifies has been checked for. -/
theorem verified {cfg : Config} {key : Option Json} {envelope : Json}
    (h : verifyEnvelope cfg key envelope = some true) :
    cfg.verify key (VibeRelayServer.canonicalize (content envelope)) (signatureValue envelope) = true := by
  simp only [verifyEnvelope] at h
  split at h
  · exact nomatch h
  · split at h
    · exact nomatch h
    · split at h
      · exact nomatch h
      · exact Option.some.inj h

/-- A parsed envelope without its signature. -/
def parsedContent (envelope : Parsed) : Parsed := .obj (withoutSig envelope.fields)

theorem parsedContent_written (envelope : Parsed) : (parsedContent envelope).written = content envelope.written := by
  have hfields (kvs : List (String × Parsed)) :
      Parsed.writtenFields (withoutSig kvs) = withoutSig (Parsed.writtenFields kvs) := by
    unfold withoutSig
    rw [Parsed.writtenFields_eq, Parsed.writtenFields_eq, List.filter_map]
    rfl
  cases envelope with
  | obj kvs => exact congrArg Json.obj (hfields kvs)
  | _ => rfl

/-- **A received frame**: it is an envelope that verifies, and whatever else `JSON.parse` may give that verifies
    with its signature has its content.  The check reads an infinite number as it reads `null`: neither is an
    object or a text, and both are written `null`. -/
def Arrives (cfg : Config) (key : Option Json) (frame : String) : Prop :=
  ∃ envelope, parse frame = some envelope ∧ verifyEnvelope cfg key envelope = some true ∧
    ∀ other : Parsed, Distinct other.written → verifyEnvelope cfg key other.written = some true →
      signatureValue other.written = signatureValue envelope → (parsedContent other).Same (.ofJson (content envelope))

section

variable {cfg : Config} {key : Option Json} {sign : String → String}

/-- The signature as the frame has it. -/
def signatureOf (sign : String → String) (identityId text : String) : Json :=
  .obj [("alg", .str "Ed25519"), ("key_id", .str identityId), ("value", .str (sign text))]

/-- The envelope a message arrives as. -/
theorem sent_envelope (sign : String → String) (identityId : String) (msg : Message) :
    ∃ text kvs, canonicalize (.obj (withoutSig msg.fields)) = some text ∧
      sendSigned sign identityId true msg = some (stringify (.obj kvs)) ∧
      Distinct (.obj kvs) ∧ withoutSig kvs = toJsonFields (withoutSig msg.fields) ∧
      lookup kvs "signature" = some (signatureOf sign identityId text) := by
  refine ⟨_, toJsonFields (assign msg.fields "signature" (.obj [("alg", .str "Ed25519"), ("key_id", .str identityId), _])),
    rfl, rfl, ?_, ?_, ?_⟩
  · refine distinct_toJson (.obj (assign msg.fields "signature" _)) (named_assign ?_ msg.named) _ rfl
    exact ⟨(by decide : ["alg", "key_id", "value"].Nodup), trivial, trivial, trivial, trivial⟩
  · rw [toJsonFields_withoutSig, assign_withoutSig]
  · exact lookup_assigned rfl msg.named.1 msg.named.2

/-- The relay's check of an envelope with such a signature. -/
theorem verify_signed {identityId text : String} {kvs : List (String × Json)} (hkey : cfg.keyOk key = true)
    (hsig : lookup kvs "signature" = some (signatureOf sign identityId text)) :
    verifyEnvelope cfg key (.obj kvs) =
      some (cfg.verify key (VibeRelayServer.canonicalize (.obj (withoutSig kvs))) (some (.str (sign text)))) := by
  simp only [verifyEnvelope]
  rw [show (Json.obj kvs).get? "signature" = some (signatureOf sign identityId text) from hsig, hkey]
  rfl

/-- The envelope with infinite numbers for what is `null` outside its signature. -/
def infiniteForNull (kvs : List (String × Json)) : List (String × Parsed) :=
  kvs.map fun kv => (kv.1, if kv.1 = "signature" then .ofJson kv.2 else .readNull (.infinite false) kv.2)

theorem infiniteForNull_written (kvs : List (String × Json)) : Parsed.writtenFields (infiniteForNull kvs) = kvs := by
  rw [Parsed.writtenFields_eq]
  unfold infiniteForNull
  rw [List.map_map]
  refine (List.map_congr_left fun kv _ => ?_).trans (List.map_id kvs)
  show (kv.1, (if kv.1 = "signature" then Parsed.ofJson kv.2 else .readNull (.infinite false) kv.2).written) = kv
  split
  · rw [Parsed.written_ofJson]
  · rw [Parsed.written_readNull rfl]

theorem infiniteForNull_content (kvs : List (String × Json)) :
    parsedContent (.obj (infiniteForNull kvs)) = .readNull (.infinite false) (.obj (withoutSig kvs)) := by
  refine congrArg Parsed.obj ?_
  unfold withoutSig infiniteForNull Parsed.fields
  induction kvs with
  | nil => rfl
  | cons kv kvs ih =>
    obtain ⟨k, v⟩ := kv
    by_cases hk : k = "signature"
    · rw [List.map_cons, List.filter_cons_of_neg (by simpa using hk), List.filter_cons_of_neg (by simpa using hk)]
      exact ih
    · rw [List.map_cons, List.filter_cons_of_pos (by simpa using hk), List.filter_cons_of_pos (by simpa using hk),
        if_neg hk, Parsed.readNullFields]
      exact congrArg _ ih

/-- **A message arrives when nothing of it was lost, and nothing of it can be replaced.** -/
theorem arrives_iff (hkey : cfg.keyOk key = true)
    (hverify : ∀ text text', cfg.verify key text' (some (.str (sign text))) = true ↔ text' = text)
    (identityId : String) (msg : Message) :
    (∃ frame, sendSigned sign identityId true msg = some frame ∧ Arrives cfg key frame) ↔
      isPlainFields (withoutSig msg.fields) = true := by
  obtain ⟨text, kvs, htext, hsent, hnames, hcontent, hsig⟩ := sent_envelope sign identityId msg
  have hread : (JsValue.obj (withoutSig msg.fields)).toJson = some (.obj (withoutSig kvs)) := by
    rw [hcontent]
    rfl
  have hvalue : signatureValue (.obj kvs) = some (.str (sign text)) := by
    unfold signatureValue
    rw [show (Json.obj kvs).get? "signature" = some (signatureOf sign identityId text) from hsig]
    rfl
  have hcheck := verify_signed hkey hsig
  have hsame := canonical_sent_iff hread
  rw [htext, Option.some.injEq] at hsame
  have hdistinct : Distinct (.obj (withoutSig kvs)) := by
    refine distinct_toJson (.obj (withoutSig msg.fields)) ⟨?_, ?_⟩ _ hread
    · exact msg.named.1.sublist (List.filter_sublist.map _)
    · exact namedFields_iff.mpr fun kv hkv => namedFields_iff.mp msg.named.2 kv (List.mem_filter.mp hkv).1
  have hplain : isPlainFields (withoutSig msg.fields) = true ↔
      isDefinedFields (withoutSig msg.fields) = true ∧ Parsed.holdsNull (.obj (withoutSig kvs)) = false := by
    rw [show isPlainFields (withoutSig msg.fields) = _ from isPlain_iff _ _ hread, Bool.and_eq_true,
      Bool.not_eq_eq_eq_not, Bool.not_true]
    exact Iff.rfl
  rw [hplain]
  constructor
  · rintro ⟨frame, hframe, envelope, hparse, hverified, hother⟩
    obtain rfl := Option.some.inj (hsent.symm.trans hframe)
    obtain rfl := Option.some.inj ((parse_stringify _).symm.trans hparse)
    refine ⟨?_, ?_⟩
    · rw [hcheck] at hverified
      exact hsame.mp ((hverify _ _).mp (Option.some.inj hverified)).symm
    · -- otherwise an infinite number in the place of a `null` would verify too
      refine Bool.eq_false_iff.mpr fun hnull => Parsed.not_same_nulls hnull ?_
      have hwritten : (Parsed.obj (infiniteForNull kvs)).written =
        .obj kvs := congrArg Json.obj (infiniteForNull_written kvs)
      have hin := hother (.obj (infiniteForNull kvs)) ?_ (hwritten ▸ hverified) (by rw [hwritten])
      · rw [infiniteForNull_content] at hin
        exact hin
      · rw [hwritten]
        exact hnames
  · rintro ⟨hdefined, hnull⟩
    have htexts := hsame.mpr hdefined
    refine ⟨_, hsent, _, parse_stringify _, ?_, ?_⟩
    · rw [hcheck, (hverify _ _).mpr htexts.symm]
    · intro other hother hverified hsignature
      have hcovered := verified hverified
      rw [hsignature, hvalue] at hcovered
      have hequal := (hverify _ _).mp hcovered
      refine Parsed.same_ofJson _ _ ?_ hnull
      rw [parsedContent_written]
      exact (relayCanonical_eq_iff (distinct_content hother) hdistinct).mp (hequal.trans htexts)

/-- **Which messages are received with a signature that is theirs.**  The canonical text of JSON values is
    the same exactly up to the order of properties; that of parsed values is so too, unless they differ only in
    infinite numbers against each other and against `null`; the way through `JSON.stringify` and `JSON.parse`
    does not change it; and a signed message arrives exactly when there is no `undefined`, no `null` and no
    infinite number in it. -/
theorem signed_frames_iff (hkey : cfg.keyOk key = true)
    (hverify : ∀ text text', cfg.verify key text' (some (.str (sign text))) = true ↔ text' = text) :
    (∀ a b : Json, Distinct a → Distinct b →
      (canonicalize (ofParsed (.ofJson a)) = canonicalize (ofParsed (.ofJson b)) ↔ Same a b)) ∧
    (∀ a b : Parsed, Distinct a.written → Distinct b.written →
      ((canonicalize (ofParsed a) = canonicalize (ofParsed b) ↔ a.Same b) ↔
        ¬ (Same a.written b.written ∧ ¬ a.Same b))) ∧
    (∀ a : Parsed, ∃ a', parse (stringify a.written) = some a' ∧
      canonicalize (ofParsed (.ofJson a')) = canonicalize (ofParsed a)) ∧
    ∀ identityId (msg : Message), (∃ frame, sendSigned sign identityId true msg = some frame ∧ Arrives cfg key frame) ↔
      isPlainFields (withoutSig msg.fields) = true := by
  refine ⟨?_, ?_, ?_, ?_⟩
  · intro a b ha hb
    rw [canonicalize_same_iff, Parsed.written_ofJson, Parsed.written_ofJson]
    · rw [Parsed.written_ofJson]
      exact ha
    · rw [Parsed.written_ofJson]
      exact hb
  · intro a b ha hb
    rw [canonicalize_same_iff ha hb]
    have himp := Parsed.Same.written a b
    constructor
    · rintro hiff ⟨hw, hn⟩
      exact hn (hiff.mp hw)
    · intro hno
      exact ⟨fun hw => by_contra fun hn => hno ⟨hw, hn⟩, himp⟩
  · intro a
    refine ⟨a.written, parse_stringify _, ?_⟩
    rw [canonicalize_ofParsed, canonicalize_ofParsed, Parsed.written_ofJson]
  · intro identityId msg
    exact arrives_iff hkey hverify identityId msg

end

/-! ## A signature that is the text -/

/-- A platform whose signature of a text is the text. -/
def echo : Config where
  requirePairing := true
  staleMs := 0
  isoTime := fun _ => ""
  keyOk := fun _ => true
  verify := fun _ text value => value == some (.str text)

theorem echo_verify (text text' : String) : echo.verify none text' (some (.str (id text))) = true ↔ text' = text := by
  show ((some (Json.str text) == some (Json.str text')) = true) ↔ _
  rw [beq_iff_eq, Option.some.injEq, Json.str.injEq]
  exact eq_comm

/-- A heartbeat. -/
def heartbeat : Message where
  fields := [("type", .str "node_heartbeat"), ("node_id", .str "node_1"), ("active_runs", .num (.ofInt 0))]
  named := ⟨by decide, trivial, trivial, trivial, trivial⟩

theorem heartbeat_arrives : ∃ frame, sendSigned id "node_1" true heartbeat = some frame ∧ Arrives echo none frame :=
  ((signed_frames_iff rfl echo_verify).2.2.2 "node_1" heartbeat).mpr rfl

/-- A registration of a node whose identity file has no key for encryption. -/
def keylessRegistration : Message where
  fields := [("type", .str "node_register"), ("node", .obj [("node_id", .str "node_1"), ("encryption_public_key", .undefined)])]
  named := ⟨by decide, trivial, ⟨by decide, trivial, trivial, trivial⟩, trivial⟩

/-- The relay does not take its signature for its own. -/
theorem keylessRegistration_refused :
    ¬ ∃ frame, sendSigned id "node_1" true keylessRegistration = some frame ∧ Arrives echo none frame := by
  rw [arrives_iff rfl echo_verify]
  exact Bool.false_ne_true

end VibeCrypto
