import Mathlib.Algebra.GroupWithZero.Nat
import Mathlib.Data.List.Basic
import Mathlib.Data.List.Lemmas

/-!
# JSON values, as the workflow modules read and write them

A `WorkflowSpec`, an agent's output, a context bundle and an event payload are all plain
JSON.  This file fixes the value type, the property reads the code makes on it
(`Object.keys`, own-property lookup), and the text `JSON.stringify` gives, whose UTF-8
length is what every size limit of the store is measured in.

* **`JsNum`** — a finite number by its shortest decimal form, which is what JavaScript
  prints and what `===` separates (`-0` and `0` print alike and are one value here).
* **`Json`** — the value type.  An object keeps its properties in enumeration order; a
  lookup takes the last entry of a name, as `JSON.parse` does with a repeated name.
* **`stringify`** / **`byteLen`** — the text and its UTF-8 length.

Strings are sequences of Unicode scalar values: a lone UTF-16 surrogate is not modelled.
-/

namespace VibeJson

/-- A finite JavaScript number `mantissa · 10^(-scale)`, in the one form in which the
    mantissa carries no trailing zero after the point. -/
structure JsNum where
  mantissa : Int
  scale : Nat
  normal : scale = 0 ∨ mantissa % 10 ≠ 0
deriving DecidableEq

namespace JsNum

/-- An integer as a number. -/
def ofInt (n : Int) : JsNum := ⟨n, 0, Or.inl rfl⟩

instance : Inhabited JsNum := ⟨ofInt 0⟩

/-- `Number.isInteger`. -/
def isInteger (n : JsNum) : Bool := n.scale == 0

/-- The decimal digits of a natural number, most significant first. -/
def digits (n : Nat) : List Char := Nat.toDigits 10 n

/-- Drop the trailing zeros of a digit string. -/
def dropZeros (ds : List Char) : List Char := (ds.reverse.dropWhile (· == '0')).reverse

/-- The exponent part of `Number::toString`. -/
def exponentText (e : Int) : List Char :=
  'e' :: (if e < 0 then '-' else '+') :: digits e.natAbs

/-- `Number::toString` for a positive number with significant digits `ds` whose decimal
    point stands after `n` of them. -/
def unsignedText (ds : List Char) (n : Int) : List Char :=
  let k : Int := ds.length
  if k ≤ n ∧ n ≤ 21 then ds ++ List.replicate (n - k).toNat '0'
  else if 0 < n ∧ n ≤ 21 then ds.take n.toNat ++ '.' :: ds.drop n.toNat
  else if -6 < n ∧ n ≤ 0 then '0' :: '.' :: (List.replicate (-n).toNat '0' ++ ds)
  else if ds.length = 1 then ds ++ exponentText (n - 1)
  else ds.take 1 ++ '.' :: ds.drop 1 ++ exponentText (n - 1)

/-- `String(n)`, which is also the number's JSON text. -/
def toText (n : JsNum) : String :=
  if n.mantissa = 0 then "0"
  else
    let all := digits n.mantissa.natAbs
    let body := unsignedText (dropZeros all) (all.length - n.scale)
    String.ofList (if n.mantissa < 0 then '-' :: body else body)

example : (ofInt 86400).toText = "86400" := by decide +kernel
example : (⟨-25, 3, by decide⟩ : JsNum).toText = "-0.025" := by decide +kernel

end JsNum

/-- A JSON value. -/
inductive Json where
  | null
  | bool (b : Bool)
  | num (n : JsNum)
  | str (s : String)
  | arr (xs : List Json)
  | obj (kvs : List (String × Json))
deriving Inhabited

namespace Json

mutual

/-- Equality of JSON values, member by member. -/
def decEq : (a b : Json) → Decidable (a = b)
  | .null, .null => isTrue rfl
  | .bool x, .bool y => decidable_of_iff (x = y) (by simp)
  | .num x, .num y => decidable_of_iff (x = y) (by simp)
  | .str x, .str y => decidable_of_iff (x = y) (by simp)
  | .arr xs, .arr ys =>
    match decEqList xs ys with
    | isTrue h => isTrue (by rw [h])
    | isFalse h => isFalse (fun e => h (Json.arr.inj e))
  | .obj xs, .obj ys =>
    match decEqFields xs ys with
    | isTrue h => isTrue (by rw [h])
    | isFalse h => isFalse (fun e => h (Json.obj.inj e))
  | .null, .bool _ | .null, .num _ | .null, .str _ | .null, .arr _ | .null, .obj _
  | .bool _, .null | .bool _, .num _ | .bool _, .str _ | .bool _, .arr _ | .bool _, .obj _
  | .num _, .null | .num _, .bool _ | .num _, .str _ | .num _, .arr _ | .num _, .obj _
  | .str _, .null | .str _, .bool _ | .str _, .num _ | .str _, .arr _ | .str _, .obj _
  | .arr _, .null | .arr _, .bool _ | .arr _, .num _ | .arr _, .str _ | .arr _, .obj _
  | .obj _, .null | .obj _, .bool _ | .obj _, .num _ | .obj _, .str _ | .obj _, .arr _ =>
    isFalse (fun e => by injection e)

/-- Equality of array elements. -/
def decEqList : (a b : List Json) → Decidable (a = b)
  | [], [] => isTrue rfl
  | x :: xs, y :: ys =>
    match decEq x y, decEqList xs ys with
    | isTrue h, isTrue hs => isTrue (by rw [h, hs])
    | isFalse h, _ => isFalse (fun e => h (List.cons.inj e).1)
    | _, isFalse hs => isFalse (fun e => hs (List.cons.inj e).2)
  | [], _ :: _ => isFalse (fun e => nomatch e)
  | _ :: _, [] => isFalse (fun e => nomatch e)

/-- Equality of object properties. -/
def decEqFields : (a b : List (String × Json)) → Decidable (a = b)
  | [], [] => isTrue rfl
  | (k, x) :: xs, (l, y) :: ys =>
    if hk : k = l then
      match decEq x y, decEqFields xs ys with
      | isTrue h, isTrue hs => isTrue (by rw [hk, h, hs])
      | isFalse h, _ => isFalse (fun e => h (congrArg Prod.snd (List.cons.inj e).1))
      | _, isFalse hs => isFalse (fun e => hs (List.cons.inj e).2)
    else isFalse (fun e => hk (congrArg Prod.fst (List.cons.inj e).1))
  | [], _ :: _ => isFalse (fun e => nomatch e)
  | _ :: _, [] => isFalse (fun e => nomatch e)

end

instance : DecidableEq Json := decEq

end Json

/-! ## Property reads -/

/-- The value a property list gives a name: the last entry of that name. -/
def lookup {α : Type} : List (String × α) → String → Option α
  | [], _ => none
  | (k, v) :: rest, q =>
    match lookup rest q with
    | some w => some w
    | none => if k = q then some v else none

/-- A name has a value exactly when it is listed. -/
theorem lookup_isSome_iff {α : Type} (kvs : List (String × α)) (q : String) :
    (lookup kvs q).isSome = true ↔ q ∈ kvs.map Prod.fst := by
  induction kvs with
  | nil => simp [lookup]
  | cons hd tl ih =>
    obtain ⟨k, v⟩ := hd
    simp only [lookup, List.map_cons, List.mem_cons]
    cases h : lookup tl q with
    | some w =>
      rw [h] at ih
      simp only [Option.isSome_some, true_iff] at ih ⊢
      exact Or.inr ih
    | none =>
      rw [h] at ih
      have hn : q ∉ tl.map Prod.fst := by
        intro hq
        exact absurd (ih.mpr hq) (by simp)
      by_cases hk : k = q
      · simp [hk]
      · simp only [if_neg hk, Option.isSome_none, Bool.false_eq_true, false_iff]
        rintro (h1 | h2)
        · exact hk h1.symm
        · exact hn h2

/-- A value found under a name is one of the listed entries. -/
theorem lookup_mem {α : Type} {kvs : List (String × α)} {q : String} {v : α}
    (h : lookup kvs q = some v) : (q, v) ∈ kvs := by
  induction kvs with
  | nil => exact nomatch h
  | cons hd tl ih =>
    obtain ⟨k, w⟩ := hd
    simp only [lookup] at h
    cases ht : lookup tl q with
    | some u =>
      rw [ht] at h
      exact List.mem_cons_of_mem _ (ih (ht.trans h))
    | none =>
      rw [ht] at h
      by_cases hk : k = q
      · rw [if_pos hk] at h
        rw [← hk, Option.some.inj h]
        exact List.mem_cons_self
      · rw [if_neg hk] at h
        exact nomatch h

namespace Json

/-- The properties of an object; none for any other value. -/
def fields : Json → List (String × Json)
  | .obj kvs => kvs
  | _ => []

/-- Own-property read: `none` stands for `undefined`. -/
def get? (j : Json) (k : String) : Option Json := lookup j.fields k

/-- `Object.keys`. -/
def keys (j : Json) : List String := j.fields.map Prod.fst

/-- The elements of an array; none for any other value. -/
def elems : Json → List Json
  | .arr xs => xs
  | _ => []

/-- `typeof x === 'object' && x !== null && !Array.isArray(x)`. -/
def isObj : Json → Bool
  | .obj _ => true
  | _ => false

def isArr : Json → Bool
  | .arr _ => true
  | _ => false

def isStr : Json → Bool
  | .str _ => true
  | _ => false

def isBool : Json → Bool
  | .bool _ => true
  | _ => false

/-- The text of a string value. -/
def str? : Json → Option String
  | .str s => some s
  | _ => none

/-- `string | number | boolean`. -/
def isScalar : Json → Bool
  | .str _ | .num _ | .bool _ => true
  | _ => false

/-- `===` between values read from JSON.  Two distinct array or object values are never
    identical, so only scalars and `null` can compare equal. -/
def strictEq : Json → Json → Bool
  | .null, .null => true
  | .bool a, .bool b => a == b
  | .num a, .num b => a == b
  | .str a, .str b => a == b
  | _, _ => false

theorem strictEq_eq {a b : Json} (h : strictEq a b = true) : a = b := by
  cases a <;> cases b <;> simp_all [strictEq]

end Json

/-! ## Text and sizes -/

/-- `Buffer.byteLength(s, 'utf8')`. -/
def byteLen (s : String) : Nat := s.utf8ByteSize

/-- `s.length`: the number of UTF-16 code units. -/
def utf16Length (s : String) : Nat :=
  (s.toList.map (fun c => if c.toNat < 0x10000 then 1 else 2)).sum

/-- The UTF-16 code units of a character. -/
def charUnits (c : Char) : List Nat :=
  if c.toNat < 0x10000 then [c.toNat]
  else [0xD800 + (c.toNat - 0x10000) / 0x400, 0xDC00 + (c.toNat - 0x10000) % 0x400]

/-- The code units a script compares texts by, as `Array.prototype.sort` does. -/
def utf16Units (s : String) : List Nat := s.toList.flatMap charUnits

/-- The white space and line terminators `String.prototype.trim` removes. -/
def isJsSpace (c : Char) : Bool :=
  let n := c.toNat
  (0x9 ≤ n && n ≤ 0xd) || n == 0x20 || n == 0xa0 || n == 0x1680
    || (0x2000 ≤ n && n ≤ 0x200a) || n == 0x2028 || n == 0x2029 || n == 0x202f
    || n == 0x205f || n == 0x3000 || n == 0xfeff

/-- `String.prototype.trim` on the characters of a string. -/
def trimChars (cs : List Char) : List Char :=
  ((cs.dropWhile isJsSpace).reverse.dropWhile isJsSpace).reverse

def trim (s : String) : String := String.ofList (trimChars s.toList)

/-- Does `cs` hold `pat` as a substring? -/
def containsChars (pat cs : List Char) : Bool := cs.tails.any (fun t => pat.isPrefixOf t)

/-- One character of `key.toLowerCase().replace(/[^a-z0-9]/g, '')`.  Beside the ASCII
    capitals, the Kelvin sign and the dotted capital I lower to ASCII letters. -/
def normalizeKeyChar (c : Char) : List Char :=
  let n := c.toNat
  if (0x61 ≤ n && n ≤ 0x7a) || (0x30 ≤ n && n ≤ 0x39) then [c]
  else if 0x41 ≤ n && n ≤ 0x5a then [Char.ofNat (n + 32)]
  else if n = 0x212a then ['k']
  else if n = 0x130 then ['i']
  else []

/-- `key.toLowerCase().replace(/[^a-z0-9]/g, '')`. -/
def normalizeKey (key : String) : List Char := key.toList.flatMap normalizeKeyChar

/-- Does a normalized key hold one of the listed words? -/
def holdsWord (words : List String) (norm : List Char) : Bool :=
  words.any (fun w => containsChars w.toList norm)

def hexDigit (n : Nat) : Char := "0123456789abcdef".toList.getD n '0'

/-- One character of a JSON string literal. -/
def escapeChar (c : Char) : List Char :=
  if c = '"' then ['\\', '"']
  else if c = '\\' then ['\\', '\\']
  else if c = '\n' then ['\\', 'n']
  else if c = '\r' then ['\\', 'r']
  else if c = '\t' then ['\\', 't']
  else if c.toNat = 8 then ['\\', 'b']
  else if c.toNat = 12 then ['\\', 'f']
  else if c.toNat < 0x20 then
    ['\\', 'u', '0', '0', hexDigit (c.toNat / 16), hexDigit (c.toNat % 16)]
  else [c]

/-- A JSON string literal. -/
def quoteChars (s : String) : List Char :=
  '"' :: (s.toList.flatMap escapeChar ++ ['"'])

mutual

/-- `JSON.stringify` of a JSON value, as characters. -/
def textChars : Json → List Char
  | .null => "null".toList
  | .bool b => if b then "true".toList else "false".toList
  | .num n => n.toText.toList
  | .str s => quoteChars s
  | .arr xs => '[' :: (textCharsList xs ++ [']'])
  | .obj kvs => '\x7b' :: (textCharsFields kvs ++ ['\x7d'])

def textCharsList : List Json → List Char
  | [] => []
  | [x] => textChars x
  | x :: y :: rest => textChars x ++ ',' :: textCharsList (y :: rest)

def textCharsFields : List (String × Json) → List Char
  | [] => []
  | [(k, v)] => quoteChars k ++ ':' :: textChars v
  | (k, v) :: y :: rest => quoteChars k ++ ':' :: (textChars v ++ ',' :: textCharsFields (y :: rest))

end

/-- `JSON.stringify`. -/
def stringify (j : Json) : String := String.ofList (textChars j)

example : stringify (.obj [("a", .arr [.num (.ofInt 1), .str "x\n"]), ("b", .null)])
    = "\x7b\"a\":[1,\"x\\n\"],\"b\":null\x7d" := by decide +kernel

mutual

/-- `String(v)` of a JSON value: an array is its elements joined by commas, an object has one
    fixed text. -/
def jsStringChars : Json → List Char
  | .null => "null".toList
  | .bool b => if b then "true".toList else "false".toList
  | .num n => n.toText.toList
  | .str s => s.toList
  | .arr xs => joinChars xs
  | .obj _ => "[object Object]".toList

def joinChars : List Json → List Char
  | [] => []
  | [x] => joinElem x
  | x :: y :: rest => joinElem x ++ ',' :: joinChars (y :: rest)

/-- An element of a joined array: `null` joins as nothing. -/
def joinElem : Json → List Char
  | .null => []
  | .bool b => if b then "true".toList else "false".toList
  | .num n => n.toText.toList
  | .str s => s.toList
  | .arr xs => joinChars xs
  | .obj _ => "[object Object]".toList

end

/-- `String(v)` of a property that may be absent. -/
def jsString : Option Json → String
  | none => "undefined"
  | some v => String.ofList (jsStringChars v)

end VibeJson
