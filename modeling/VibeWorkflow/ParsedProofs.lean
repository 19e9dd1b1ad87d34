import VibeWorkflow.CanonicalProofs
import Mathlib.Data.List.Sort

/-!
# What `JSON.parse` gives

`JSON.parse` reads a number that is too large, such as `1e999`, as `Infinity`, and `JSON.stringify` writes
an infinite number as `null`.  A parsed value is a JSON value in which some numbers may be infinite.

* `Parsed` — such a value, `written` — what `JSON.stringify` writes of it;
* `Parsed.Same` — equality up to the order of properties;
* **`canonicalize_written`** — a canonical copy is written as the copy of what is written;
* `same_ofJson`, `not_same_nulls` — where nothing written is `null`, it tells parsed values apart; where
  something is, it does not.
-/

namespace VibeJson

open VibeCompiler (ownOrder sortStrings arrayIndex? Distinct)

inductive Parsed where
  | null
  | bool (b : Bool)
  | num (n : JsNum)
  | infinite (negative : Bool)
  | str (s : String)
  | arr (xs : List Parsed)
  | obj (kvs : List (String × Parsed))

namespace Parsed

instance : Inhabited Parsed := ⟨null⟩

/-! ## Reading and writing -/

def isObj : Parsed → Bool
  | .obj _ => true
  | _ => false

def str? : Parsed → Option String
  | .str s => some s
  | _ => none

def fields : Parsed → List (String × Parsed)
  | .obj kvs => kvs
  | _ => []

/-- `o[name]`: the last entry of the name. -/
def get? (o : Parsed) (name : String) : Option Parsed :=
  (o.fields.reverse.find? (fun kv => kv.1 = name)).map Prod.snd

mutual

/-- What `JSON.stringify` writes. -/
def written : Parsed → Json
  | .null => .null
  | .bool b => .bool b
  | .num n => .num n
  | .infinite _ => .null
  | .str s => .str s
  | .arr xs => .arr (writtenList xs)
  | .obj kvs => .obj (writtenFields kvs)

def writtenList : List Parsed → List Json
  | [] => []
  | x :: xs => written x :: writtenList xs

def writtenFields : List (String × Parsed) → List (String × Json)
  | [] => []
  | (k, v) :: kvs => (k, written v) :: writtenFields kvs

end

section

variable (n : Parsed)

mutual

/-- A parsed value that is written as this one, with `n` wherever `null` is written. -/
def readNull : Json → Parsed
  | .null => n
  | .bool b => .bool b
  | .num m => .num m
  | .str s => .str s
  | .arr xs => .arr (readNullList xs)
  | .obj kvs => .obj (readNullFields kvs)

def readNullList : List Json → List Parsed
  | [] => []
  | x :: xs => readNull x :: readNullList xs

def readNullFields : List (String × Json) → List (String × Parsed)
  | [] => []
  | (k, v) :: kvs => (k, readNull v) :: readNullFields kvs

end

end

/-- A value without infinite numbers. -/
def ofJson (j : Json) : Parsed := readNull .null j

mutual

/-- **Equality up to the order of properties.** -/
def Same : Parsed → Parsed → Prop
  | .arr xs, .arr ys => SameList xs ys
  | .obj kvs, .obj kvs' => (kvs.map Prod.fst).Perm (kvs'.map Prod.fst) ∧ SameFields kvs kvs'
  | .null, .null => True
  | .bool b, .bool b' => b = b'
  | .num n, .num n' => n = n'
  | .infinite n, .infinite n' => n = n'
  | .str s, .str s' => s = s'
  | _, _ => False

def SameList : List Parsed → List Parsed → Prop
  | [], [] => True
  | x :: xs, y :: ys => Same x y ∧ SameList xs ys
  | _, _ => False

def SameFields : List (String × Parsed) → List (String × Parsed) → Prop
  | [], _ => True
  | (k, v) :: kvs, kvs' => (∃ v', (k, v') ∈ kvs' ∧ Same v v') ∧ SameFields kvs kvs'

end

mutual

/-- The canonical copy; a number is copied as it is. -/
def canonicalize : Parsed → Parsed
  | .arr xs => .arr (canonicalizeList xs)
  | .obj kvs => .obj (ownOrder (canonicalizeFields kvs))
  | .null => .null
  | .bool b => .bool b
  | .num n => .num n
  | .infinite n => .infinite n
  | .str s => .str s

def canonicalizeList : List Parsed → List Parsed
  | [] => []
  | x :: xs => canonicalize x :: canonicalizeList xs

def canonicalizeFields : List (String × Parsed) → List (String × Parsed)
  | [] => []
  | (k, v) :: kvs => (k, canonicalize v) :: canonicalizeFields kvs

end

/-- `JSON.stringify(canonicalize(value))`. -/
def canonicalJson (value : Parsed) : String := stringify value.canonicalize.written

/-! ## What is written -/

theorem writtenFields_eq (kvs : List (String × Parsed)) :
    writtenFields kvs = kvs.map (fun kv => (kv.1, kv.2.written)) := by
  induction kvs with
  | nil => rfl
  | cons kv kvs ih =>
    rw [writtenFields, ih]
    rfl

theorem writtenFields_names (kvs : List (String × Parsed)) : (writtenFields kvs).map Prod.fst = kvs.map Prod.fst := by
  rw [writtenFields_eq, List.map_map]
  rfl

theorem mem_writtenFields {kvs : List (String × Parsed)} {k : String} {j : Json} :
    (k, j) ∈ writtenFields kvs ↔ ∃ v, (k, v) ∈ kvs ∧ v.written = j := by
  rw [writtenFields_eq, List.mem_map]
  constructor
  · rintro ⟨⟨k', v⟩, hmem, heq⟩
    obtain ⟨rfl, rfl⟩ := Prod.mk.inj heq
    exact ⟨v, hmem, rfl⟩
  · rintro ⟨v, hmem, rfl⟩
    exact ⟨(k, v), hmem, rfl⟩

mutual

theorem written_readNull {n : Parsed} (hn : n.written = .null) (j : Json) : (readNull n j).written = j := by
  match j with
  | .null => exact hn
  | .bool _ | .num _ | .str _ => rfl
  | .arr xs => exact congrArg Json.arr (writtenList_readNull hn xs)
  | .obj kvs => exact congrArg Json.obj (writtenFields_readNull hn kvs)

theorem writtenList_readNull {n : Parsed} (hn : n.written = .null) (xs : List Json) :
    writtenList (readNullList n xs) = xs := by
  match xs with
  | [] => rfl
  | x :: xs => rw [readNullList, writtenList, written_readNull hn x, writtenList_readNull hn xs]

theorem writtenFields_readNull {n : Parsed} (hn : n.written = .null) (kvs : List (String × Json)) :
    writtenFields (readNullFields n kvs) = kvs := by
  match kvs with
  | [] => rfl
  | (k, v) :: kvs => rw [readNullFields, writtenFields, written_readNull hn v, writtenFields_readNull hn kvs]

end

theorem written_ofJson (j : Json) : (ofJson j).written = j := written_readNull rfl j

theorem sameFields_iff {kvs kvs' : List (String × Parsed)} :
    SameFields kvs kvs' ↔ ∀ kv ∈ kvs, ∃ v', (kv.1, v') ∈ kvs' ∧ Same kv.2 v' := by
  induction kvs with
  | nil => exact ⟨fun _ _ h => absurd h List.not_mem_nil, fun _ => trivial⟩
  | cons kv kvs ih =>
    obtain ⟨k, v⟩ := kv
    rw [SameFields, ih, List.forall_mem_cons]

mutual

/-- Values that are the same are written alike. -/
theorem Same.written (a b : Parsed) (h : Same a b) : VibeCompiler.Same a.written b.written := by
  match a, b with
  | .arr xs, .arr ys => exact SameList.written xs ys h
  | .obj kvs, .obj kvs' =>
    obtain ⟨hnames, hfields⟩ := h
    refine ⟨?_, VibeCompiler.sameFields_iff.mpr ?_⟩
    · rw [writtenFields_names, writtenFields_names]
      exact hnames
    · rintro ⟨k, j⟩ hmem
      obtain ⟨v, hv, rfl⟩ := mem_writtenFields.mp hmem
      obtain ⟨v', hv', hsame⟩ := SameFields.written kvs kvs' hfields (k, v) hv
      exact ⟨_, mem_writtenFields.mpr ⟨v', hv', rfl⟩, hsame⟩
  | .null, .null => trivial
  | .bool _, .bool _ => exact h
  | .num _, .num _ => exact h
  | .infinite _, .infinite _ => trivial
  | .str _, .str _ => exact h
  | .null, .bool _ | .null, .num _ | .null, .infinite _ | .null, .str _ | .null, .arr _ | .null, .obj _
  | .bool _, .null | .bool _, .num _ | .bool _, .infinite _ | .bool _, .str _ | .bool _, .arr _ | .bool _, .obj _
  | .num _, .null | .num _, .bool _ | .num _, .infinite _ | .num _, .str _ | .num _, .arr _ | .num _, .obj _
  | .infinite _, .null | .infinite _, .bool _ | .infinite _, .num _ | .infinite _, .str _ | .infinite _, .arr _
  | .infinite _, .obj _
  | .str _, .null | .str _, .bool _ | .str _, .num _ | .str _, .infinite _ | .str _, .arr _ | .str _, .obj _
  | .arr _, .null | .arr _, .bool _ | .arr _, .num _ | .arr _, .infinite _ | .arr _, .str _ | .arr _, .obj _
  | .obj _, .null | .obj _, .bool _ | .obj _, .num _ | .obj _, .infinite _ | .obj _, .str _ | .obj _, .arr _ =>
    exact h.elim

theorem SameList.written (xs ys : List Parsed) (h : SameList xs ys) :
    VibeCompiler.SameList (writtenList xs) (writtenList ys) := by
  match xs, ys with
  | [], [] => trivial
  | [], _ :: _ => exact h.elim
  | _ :: _, [] => exact h.elim
  | x :: xs, y :: ys => exact ⟨Same.written x y h.1, SameList.written xs ys h.2⟩

theorem SameFields.written (kvs kvs' : List (String × Parsed)) (h : SameFields kvs kvs') :
    ∀ kv ∈ kvs, ∃ v', (kv.1, v') ∈ kvs' ∧ VibeCompiler.Same kv.2.written v'.written := by
  match kvs with
  | [] => exact fun _ h => absurd h List.not_mem_nil
  | (k, v) :: kvs =>
    intro kv hkv
    rcases List.mem_cons.mp hkv with rfl | hkv
    · obtain ⟨v', hv', hsame⟩ := h.1
      exact ⟨v', hv', Same.written v v' hsame⟩
    · exact SameFields.written kvs kvs' h.2 kv hkv

end

/-! ## Canonical copies -/

section

variable {α β : Type} (f : α → β) (kvs : List (String × α))

theorem insertionSort_names (r : String → String → Prop) [DecidableRel r] :
    (kvs.map fun kv => (kv.1, f kv.2)).insertionSort (fun a b => r a.1 b.1) =
      (kvs.insertionSort fun a b => r a.1 b.1).map fun kv => (kv.1, f kv.2) :=
  (List.map_insertionSort (fun a b : String × α => r a.1 b.1) (fun a b : String × β => r a.1 b.1)
    (fun kv => (kv.1, f kv.2)) kvs fun _ _ _ _ => Iff.rfl).symm

/-- The order of a copy looks at the names only. -/
theorem ownOrder_map : ownOrder (kvs.map fun kv => (kv.1, f kv.2)) = (ownOrder kvs).map fun kv => (kv.1, f kv.2) := by
  have hsort : sortStrings Prod.fst (kvs.map fun kv => (kv.1, f kv.2)) =
      (sortStrings Prod.fst kvs).map fun kv => (kv.1, f kv.2) :=
    insertionSort_names f kvs fun a b => VibeCompiler.unitsLe (utf16Units a) (utf16Units b) = true
  unfold ownOrder
  dsimp only
  rw [hsort, List.filter_map, List.filter_map, List.filter_map, List.map_append]
  exact congrArg (· ++ _) (insertionSort_names f _ fun a b => (arrayIndex? a).getD 0 ≤ (arrayIndex? b).getD 0)

end

mutual

/-- **A canonical copy is written as the copy of what is written.** -/
theorem canonicalize_written (v : Parsed) : v.canonicalize.written = VibeCompiler.canonicalize v.written := by
  match v with
  | .null | .bool _ | .num _ | .infinite _ | .str _ => rfl
  | .arr xs => exact congrArg Json.arr (canonicalizeList_written xs)
  | .obj kvs =>
    rw [canonicalize, written, written, VibeCompiler.canonicalize, ← canonicalizeFields_written kvs,
      writtenFields_eq, writtenFields_eq, ← ownOrder_map]

theorem canonicalizeList_written (xs : List Parsed) :
    writtenList (canonicalizeList xs) = VibeCompiler.canonicalizeList (writtenList xs) := by
  match xs with
  | [] => rfl
  | x :: xs =>
    rw [canonicalizeList, writtenList, writtenList, VibeCompiler.canonicalizeList, canonicalize_written x,
      canonicalizeList_written xs]

theorem canonicalizeFields_written (kvs : List (String × Parsed)) :
    writtenFields (canonicalizeFields kvs) = VibeCompiler.canonicalizeFields (writtenFields kvs) := by
  match kvs with
  | [] => rfl
  | (k, v) :: kvs =>
    rw [canonicalizeFields, writtenFields, writtenFields, VibeCompiler.canonicalizeFields, canonicalize_written v,
      canonicalizeFields_written kvs]

end

theorem canonicalJson_written (v : Parsed) : v.canonicalJson = VibeCompiler.canonicalJson v.written :=
  congrArg stringify (canonicalize_written v)

/-- **What the canonical text of a parsed value identifies.** -/
theorem canonicalJson_eq_iff {a b : Parsed} (ha : Distinct a.written) (hb : Distinct b.written) :
    a.canonicalJson = b.canonicalJson ↔
      VibeCompiler.Same (VibeCompiler.dropProto a.written) (VibeCompiler.dropProto b.written) := by
  rw [canonicalJson_written, canonicalJson_written, VibeCompiler.canonicalJson_eq_iff ha hb]

/-! ## `null` and infinite numbers -/

mutual

/-- Is there a `null` in the value? -/
def holdsNull : Json → Bool
  | .null => true
  | .arr xs => holdsNullList xs
  | .obj kvs => holdsNullFields kvs
  | _ => false

def holdsNullList : List Json → Bool
  | [] => false
  | x :: xs => holdsNull x || holdsNullList xs

def holdsNullFields : List (String × Json) → Bool
  | [] => false
  | (_, v) :: kvs => holdsNull v || holdsNullFields kvs

end

mutual

/-- Is there an infinite number in the value? -/
def isInfinite : Parsed → Bool
  | .infinite _ => true
  | .arr xs => isInfiniteList xs
  | .obj kvs => isInfiniteFields kvs
  | _ => false

def isInfiniteList : List Parsed → Bool
  | [] => false
  | x :: xs => isInfinite x || isInfiniteList xs

def isInfiniteFields : List (String × Parsed) → Bool
  | [] => false
  | (_, v) :: kvs => isInfinite v || isInfiniteFields kvs

end

theorem isInfiniteFields_mem {kvs : List (String × Parsed)} {k : String} {v : Parsed} (h : (k, v) ∈ kvs)
    (hv : v.isInfinite = true) : isInfiniteFields kvs = true := by
  induction kvs with
  | nil => exact absurd h List.not_mem_nil
  | cons kv kvs ih =>
    obtain ⟨q, w⟩ := kv
    rw [isInfiniteFields, Bool.or_eq_true]
    rcases List.mem_cons.mp h with heq | h
    · obtain ⟨rfl, rfl⟩ := Prod.mk.inj heq
      exact .inl hv
    · exact .inr (ih h)

mutual

/-- Values that are the same have infinite numbers together. -/
theorem Same.isInfinite (a b : Parsed) (h : Same a b) (ha : a.isInfinite = true) : b.isInfinite = true := by
  match a, b with
  | .arr xs, .arr ys => exact SameList.isInfinite xs ys h ha
  | .obj kvs, .obj kvs' => exact SameFields.isInfinite kvs kvs' h.2 ha
  | .infinite _, b =>
    cases b with
    | infinite _ => rfl
    | _ => exact h.elim
  | .null, _ | .bool _, _ | .num _, _ | .str _, _ => cases ha
  | .arr _, .null | .arr _, .bool _ | .arr _, .num _ | .arr _, .infinite _ | .arr _, .str _ | .arr _, .obj _
  | .obj _, .null | .obj _, .bool _ | .obj _, .num _ | .obj _, .infinite _ | .obj _, .str _ | .obj _, .arr _ =>
    exact h.elim

theorem SameList.isInfinite (xs ys : List Parsed) (h : SameList xs ys) (ha : isInfiniteList xs = true) :
    isInfiniteList ys = true := by
  match xs, ys with
  | [], _ => cases ha
  | _ :: _, [] => exact h.elim
  | x :: xs, y :: ys =>
    rw [isInfiniteList, Bool.or_eq_true] at ha ⊢
    exact ha.imp (Same.isInfinite x y h.1) (SameList.isInfinite xs ys h.2)

theorem SameFields.isInfinite (kvs kvs' : List (String × Parsed)) (h : SameFields kvs kvs')
    (ha : isInfiniteFields kvs = true) : isInfiniteFields kvs' = true := by
  match kvs with
  | [] => cases ha
  | (k, v) :: kvs =>
    obtain ⟨⟨v', hv', hsame⟩, hrest⟩ := h
    rw [isInfiniteFields, Bool.or_eq_true] at ha
    rcases ha with hv | ha
    · exact isInfiniteFields_mem hv' (Same.isInfinite v v' hsame hv)
    · exact SameFields.isInfinite kvs kvs' hrest ha

end

mutual

theorem isInfinite_readNull (n : Parsed) (j : Json) : (readNull n j).isInfinite = (holdsNull j && n.isInfinite) := by
  match j with
  | .null => exact (Bool.true_and _).symm
  | .bool _ | .num _ | .str _ => rfl
  | .arr xs => exact isInfiniteList_readNull n xs
  | .obj kvs => exact isInfiniteFields_readNull n kvs

theorem isInfiniteList_readNull (n : Parsed) (xs : List Json) :
    isInfiniteList (readNullList n xs) = (holdsNullList xs && n.isInfinite) := by
  match xs with
  | [] => rfl
  | x :: xs =>
    rw [readNullList, isInfiniteList, holdsNullList, isInfinite_readNull n x, isInfiniteList_readNull n xs,
      Bool.and_or_distrib_right]

theorem isInfiniteFields_readNull (n : Parsed) (kvs : List (String × Json)) :
    isInfiniteFields (readNullFields n kvs) = (holdsNullFields kvs && n.isInfinite) := by
  match kvs with
  | [] => rfl
  | (k, v) :: kvs =>
    rw [readNullFields, isInfiniteFields, holdsNullFields, isInfinite_readNull n v, isInfiniteFields_readNull n kvs,
      Bool.and_or_distrib_right]

end

/-- **Where something written is `null`**, another value is written so too. -/
theorem not_same_nulls {j : Json} (h : holdsNull j = true) : ¬ (readNull (.infinite false) j).Same (ofJson j) := by
  intro hsame
  have hinf : (readNull (.infinite false) j).isInfinite = true := by
    rw [isInfinite_readNull, h]
    rfl
  have hnone := Same.isInfinite _ _ hsame hinf
  rw [show (ofJson j).isInfinite = (holdsNull j && Parsed.null.isInfinite) from isInfinite_readNull .null j, h] at hnone
  cases hnone

theorem mem_readNullFields {n : Parsed} {kvs : List (String × Json)} {k : String} {j : Json} (h : (k, j) ∈ kvs) :
    (k, readNull n j) ∈ readNullFields n kvs := by
  induction kvs with
  | nil => exact absurd h List.not_mem_nil
  | cons kv kvs ih =>
    obtain ⟨q, w⟩ := kv
    rw [readNullFields]
    rcases List.mem_cons.mp h with heq | h
    · obtain ⟨rfl, rfl⟩ := Prod.mk.inj heq
      exact List.mem_cons_self
    · exact List.mem_cons_of_mem _ (ih h)

theorem holdsNull_mem {kvs : List (String × Json)} {k : String} {j : Json} (h : holdsNullFields kvs = false)
    (hmem : (k, j) ∈ kvs) : holdsNull j = false := by
  induction kvs with
  | nil => exact absurd hmem List.not_mem_nil
  | cons kv kvs ih =>
    obtain ⟨q, w⟩ := kv
    rw [holdsNullFields, Bool.or_eq_false_iff] at h
    rcases List.mem_cons.mp hmem with heq | hmem
    · rw [(Prod.mk.inj heq).2]
      exact h.1
    · exact ih h.2 hmem

mutual

/-- **Where nothing written is `null`**, what is written tells parsed values apart. -/
theorem same_ofJson (p : Parsed) (j : Json) (h : VibeCompiler.Same p.written j) (hn : holdsNull j = false) :
    p.Same (ofJson j) := by
  match p, j with
  | .arr xs, .arr ys => exact sameList_ofJson xs ys h hn
  | .obj kvs, .obj kvs' =>
    obtain ⟨hnames, hfields⟩ := h
    refine ⟨?_, sameFields_iff.mpr fun kv hkv => ?_⟩
    · rw [writtenFields_names] at hnames
      refine hnames.trans (List.Perm.of_eq ?_)
      rw [← writtenFields_names, writtenFields_readNull rfl]
    · obtain ⟨v', hv', hsame⟩ := VibeCompiler.sameFields_iff.mp hfields _
        (mem_writtenFields.mpr ⟨kv.2, hkv, rfl⟩)
      exact ⟨ofJson v', mem_readNullFields hv', sameFields_ofJson kvs kv hkv v' hsame (holdsNull_mem hn hv')⟩
  | .bool _, .bool _ => exact h
  | .num _, .num _ => exact h
  | .str _, .str _ => exact h
  | .null, j | .infinite _, j =>
    cases j with
    | null => cases hn
    | _ => exact h.elim
  | .bool _, .null | .bool _, .num _ | .bool _, .str _ | .bool _, .arr _ | .bool _, .obj _
  | .num _, .null | .num _, .bool _ | .num _, .str _ | .num _, .arr _ | .num _, .obj _
  | .str _, .null | .str _, .bool _ | .str _, .num _ | .str _, .arr _ | .str _, .obj _
  | .arr _, .null | .arr _, .bool _ | .arr _, .num _ | .arr _, .str _ | .arr _, .obj _
  | .obj _, .null | .obj _, .bool _ | .obj _, .num _ | .obj _, .str _ | .obj _, .arr _ => exact h.elim

theorem sameList_ofJson (xs : List Parsed) (ys : List Json) (h : VibeCompiler.SameList (writtenList xs) ys)
    (hn : holdsNullList ys = false) : SameList xs (readNullList .null ys) := by
  match xs, ys with
  | [], [] => trivial
  | [], _ :: _ => exact h.elim
  | _ :: _, [] => exact h.elim
  | x :: xs, y :: ys =>
    rw [holdsNullList, Bool.or_eq_false_iff] at hn
    exact ⟨same_ofJson x y h.1 hn.1, sameList_ofJson xs ys h.2 hn.2⟩

theorem sameFields_ofJson (kvs : List (String × Parsed)) : ∀ kv ∈ kvs, ∀ j, VibeCompiler.Same kv.2.written j →
    holdsNull j = false → kv.2.Same (ofJson j) := by
  match kvs with
  | [] => exact fun _ h => absurd h List.not_mem_nil
  | (k, v) :: kvs =>
    intro kv hkv j hsame hn
    rcases List.mem_cons.mp hkv with rfl | hkv
    · exact same_ofJson v j hsame hn
    · exact sameFields_ofJson kvs kv hkv j hsame hn

end

end Parsed

end VibeJson
