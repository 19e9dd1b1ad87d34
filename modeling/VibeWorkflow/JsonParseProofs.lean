import VibeWorkflow.JsonTextProofs
import Mathlib.Tactic.Ring

/-!
# `JSON.parse`

The reader of JSON texts, by the grammar: white space between tokens, escapes and surrogate pairs in
strings, signs, fractions and exponents in numbers.  A number is kept as its exact decimal value, and an
object keeps a repeated name, as the value type does; a lone surrogate becomes `U+FFFD`.

* `readString`, `readNumeral`, `readValue` — the three levels of the grammar;
* `JsNum.readNum_toText`, `readString_quote` — numbers and strings read back;
* **`parse_stringify`** — what `JSON.stringify` wrote, `JSON.parse` reads back.
-/

namespace VibeJson

/-! ## Strings -/

def hexDigitVal (c : Char) : Option Nat :=
  let n := c.toNat
  if 48 ≤ n ∧ n ≤ 57 then some (n - 48)
  else if 97 ≤ n ∧ n ≤ 102 then some (n - 87)
  else if 65 ≤ n ∧ n ≤ 70 then some (n - 55)
  else none

theorem hexDigitVal_hexDigit : ∀ n < 16, hexDigitVal (hexDigit n) = some n := by decide

/-- Four hexadecimal digits, a UTF-16 code unit. -/
def readHex : List Char → Option (Nat × List Char)
  | a :: b :: c :: d :: t => do
      let a ← hexDigitVal a
      let b ← hexDigitVal b
      let c ← hexDigitVal c
      let d ← hexDigitVal d
      some (((a * 16 + b) * 16 + c) * 16 + d, t)
  | _ => none

def lonelySurrogate : Char := Char.ofNat 0xFFFD

/-- A code unit, with the second half of its pair when it is a high surrogate. -/
def joinUnit (unit : Nat) (t : List Char) : Char × List Char :=
  if 0xD800 ≤ unit ∧ unit < 0xDC00 then
    match t with
    | '\\' :: 'u' :: t' =>
      match readHex t' with
      | some (low, t'') =>
        if 0xDC00 ≤ low ∧ low < 0xE000 then
          (Char.ofNat (0x10000 + (unit - 0xD800) * 0x400 + (low - 0xDC00)), t'')
        else (lonelySurrogate, t)
      | none => (lonelySurrogate, t)
    | _ => (lonelySurrogate, t)
  else if 0xDC00 ≤ unit ∧ unit < 0xE000 then (lonelySurrogate, t)
  else (Char.ofNat unit, t)

def simpleEscape (e : Char) : Option Char :=
  if e = '"' ∨ e = '\\' ∨ e = '/' then some e
  else if e = 'n' then some '\n'
  else if e = 'r' then some '\r'
  else if e = 't' then some '\t'
  else if e = 'b' then some (Char.ofNat 8)
  else if e = 'f' then some (Char.ofNat 12)
  else none

/-- One character of a string literal, if the literal neither ends here nor breaks the grammar. -/
def readChar : List Char → Option (Char × List Char)
  | [] => none
  | c :: t =>
    if c = '\\' then
      match t with
      | [] => none
      | e :: t => if e = 'u' then (readHex t).map fun u => joinUnit u.1 u.2 else (simpleEscape e).map fun c => (c, t)
    else if c = '"' ∨ c.toNat < 0x20 then none
    else some (c, t)

/-- The rest of a string literal.  Each character takes one unit of fuel. -/
def readString : Nat → List Char → Option (List Char × List Char)
  | 0, _ => none
  | n + 1, t =>
    if t.head? = some '"' then some ([], t.tail)
    else (readChar t).bind fun r => (readString n r.2).map fun s => (r.1 :: s.1, s.2)

theorem readChar_escapeChar (c : Char) (t : List Char) : readChar (escapeChar c ++ t) = some (c, t) := by
  have hchar : ∀ {n : Nat}, c.toNat = n → c = Char.ofNat n := by
    intro n h
    rw [← h, Char.ofNat_toNat]
  unfold escapeChar
  split
  · rename_i h
    rw [h]
    rfl
  · rename_i hquote
    split
    · rename_i h
      rw [h]
      rfl
    · rename_i hback
      split
      · rename_i h
        rw [h]
        rfl
      · split
        · rename_i h
          rw [h]
          rfl
        · split
          · rename_i h
            rw [h]
            rfl
          · split
            · rename_i h
              rw [hchar h]
              rfl
            · split
              · rename_i h
                rw [hchar h]
                rfl
              · split
                · rename_i h
                  -- a control character is written by its code, in four digits
                  have hhex : readHex ('0' :: '0' :: hexDigit (c.toNat / 16) :: hexDigit (c.toNat % 16) :: t) =
                      some (c.toNat, t) := by
                    have hzero : hexDigitVal '0' = some 0 := rfl
                    simp only [readHex, hzero, hexDigitVal_hexDigit _ (show c.toNat / 16 < 16 by omega),
                      hexDigitVal_hexDigit _ (show c.toNat % 16 < 16 by omega), Option.bind_eq_bind, Option.bind_some]
                    refine congrArg (fun n => some (n, t)) ?_
                    omega
                  show (readHex ('0' :: '0' :: hexDigit (c.toNat / 16) :: hexDigit (c.toNat % 16) :: t)).map
                    (fun u => joinUnit u.1 u.2) = _
                  rw [hhex, Option.map_some]
                  unfold joinUnit
                  rw [if_neg (by omega), if_neg (by omega), Char.ofNat_toNat]
                · rename_i hcode
                  show (if c = '\\' then _ else if c = '"' ∨ c.toNat < 0x20 then none else some (c, t)) = some (c, t)
                  rw [if_neg hback, if_neg (not_or.mpr ⟨hquote, hcode⟩)]

/-- **A string literal reads back.** -/
theorem readString_escaped (s r : List Char) (n : Nat) (h : s.length < n) :
    readString n (s.flatMap escapeChar ++ '"' :: r) = some (s, r) := by
  induction s generalizing n with
  | nil =>
    obtain ⟨n, rfl⟩ : ∃ k, n = k + 1 := ⟨n - 1, by omega⟩
    rfl
  | cons c s ih =>
    obtain ⟨n, rfl⟩ : ∃ k, n = k + 1 := ⟨n - 1, by omega⟩
    obtain ⟨d, rest, hd, hne⟩ := escapeChar_head c
    have hhead : (((c :: s).flatMap escapeChar ++ '"' :: r).head? = some '"') = False := by
      rw [List.flatMap_cons, hd]
      exact eq_false fun hq => hne (Option.some.inj hq)
    unfold readString
    rw [if_neg (of_eq_false hhead), List.flatMap_cons, List.append_assoc, readChar_escapeChar, Option.bind_some,
      ih n (by simpa using h)]
    rfl

/-! ## Numbers -/

namespace JsNum

/-- `m · 10^(-s)`, in its one form. -/
def ofDecimal : Int → Nat → JsNum
  | m, 0 => ofInt m
  | m, s + 1 => if h : m % 10 = 0 then ofDecimal (m / 10) s else ⟨m, s + 1, .inr h⟩

def ofScaled (m s : Int) : JsNum := if s ≤ 0 then ofInt (m * 10 ^ (-s).toNat) else ofDecimal m s.toNat

/-- The parts of an unsigned number's text. -/
structure Numeral where
  whole : List Char
  frac : List Char
  exponent : Int

def Numeral.value (x : Numeral) (neg : Bool) : JsNum :=
  let m : Int := Nat.ofDigitChars 10 (x.whole ++ x.frac) 0
  ofScaled (if neg then -m else m) (x.frac.length - x.exponent)

def readFraction (t : List Char) : Option (List Char × List Char) :=
  if t.head? = some '.' then
    let ds := t.tail.takeWhile Char.isDigit
    if ds = [] then none else some (ds, t.tail.dropWhile Char.isDigit)
  else some ([], t)

def readExponent (t : List Char) : Option (Int × List Char) :=
  if t.head? = some 'e' ∨ t.head? = some 'E' then
    let sign := t.tail.head?
    let rest := if sign = some '+' ∨ sign = some '-' then t.tail.tail else t.tail
    let ds := rest.takeWhile Char.isDigit
    let n : Int := Nat.ofDigitChars 10 ds 0
    if ds = [] then none else some (if sign = some '-' then -n else n, rest.dropWhile Char.isDigit)
  else some (0, t)

/-- Digits without a superfluous zero, a fraction and an exponent. -/
def readNumeral (t : List Char) : Option (Numeral × List Char) :=
  let whole := t.takeWhile Char.isDigit
  if whole = [] ∨ (whole.head? = some '0' ∧ whole ≠ ['0']) then none
  else
    (readFraction (t.dropWhile Char.isDigit)).bind fun f =>
      (readExponent f.2).map fun e => (⟨whole, f.1, e.1⟩, e.2)

def readNum (t : List Char) : Option (JsNum × List Char) :=
  if t.head? = some '-' then (readNumeral t.tail).map fun x => (x.1.value true, x.2)
  else (readNumeral t).map fun x => (x.1.value false, x.2)

section

variable {ds r : List Char}

/-- No number goes on here. -/
def Ends (r : List Char) : Prop := ∀ c rest, r = c :: rest → c.isDigit = false ∧ c ≠ '.' ∧ c ≠ 'e' ∧ c ≠ 'E'

theorem span_digits (hds : ∀ c ∈ ds, c.isDigit = true) (hr : ∀ c rest, r = c :: rest → c.isDigit = false) :
    (ds ++ r).takeWhile Char.isDigit = ds ∧ (ds ++ r).dropWhile Char.isDigit = r := by
  rw [List.takeWhile_append_of_pos hds, List.dropWhile_append_of_pos hds]
  cases r with
  | nil => exact ⟨List.append_nil ds, rfl⟩
  | cons c rest =>
    have hc : ¬ c.isDigit = true := by
      rw [hr c rest rfl]
      exact Bool.false_ne_true
    rw [List.takeWhile_cons_of_neg hc, List.dropWhile_cons_of_neg hc, List.append_nil]
    exact ⟨rfl, rfl⟩

theorem head_ne {c : Char} (h : ∀ d rest, r = d :: rest → d ≠ c) : ¬ r.head? = some c := by
  cases r with
  | nil => exact nofun
  | cons d rest => exact fun heq => h d rest rfl (Option.some.inj heq)

theorem readFraction_none (h : ∀ c rest, r = c :: rest → c ≠ '.') : readFraction r = some ([], r) :=
  if_neg (head_ne h)

theorem readFraction_digits (hne : ds ≠ []) (hds : ∀ c ∈ ds, c.isDigit = true)
    (hr : ∀ c rest, r = c :: rest → c.isDigit = false) : readFraction ('.' :: (ds ++ r)) = some (ds, r) := by
  obtain ⟨htake, hdrop⟩ := span_digits hds hr
  show (if (ds ++ r).takeWhile Char.isDigit = [] then none
    else some ((ds ++ r).takeWhile Char.isDigit, (ds ++ r).dropWhile Char.isDigit)) = _
  rw [htake, hdrop, if_neg hne]

theorem readExponent_none (h : Ends r) : readExponent r = some (0, r) := by
  refine if_neg ?_
  rintro (he | he)
  · exact head_ne (fun c rest hc => (h c rest hc).2.2.1) he
  · exact head_ne (fun c rest hc => (h c rest hc).2.2.2) he

theorem digits_ne_nil (n : Nat) : digits n ≠ [] := Nat.toDigits_ne_nil

theorem readExponent_text (e : Int) (h : Ends r) : readExponent (exponentText e ++ r) = some (e, r) := by
  have hdigits : ∀ c ∈ digits e.natAbs, c.isDigit = true := digits_isDigit
  obtain ⟨htake, hdrop⟩ := span_digits hdigits (fun c rest hc => (h c rest hc).1)
  have hval : Nat.ofDigitChars 10 (digits e.natAbs) 0 = e.natAbs := Nat.ofDigitChars_ten_toDigits
  by_cases hneg : e < 0
  · have htext : exponentText e = 'e' :: '-' :: digits e.natAbs := by
      unfold exponentText
      rw [if_pos hneg]
    rw [htext]
    show (if (digits e.natAbs ++ r).takeWhile Char.isDigit = [] then none else
      some (-((Nat.ofDigitChars 10 ((digits e.natAbs ++ r).takeWhile Char.isDigit) 0 : Nat) : Int),
        (digits e.natAbs ++ r).dropWhile Char.isDigit)) = _
    rw [htake, hdrop, if_neg (digits_ne_nil _), hval]
    exact congrArg (fun n => some (n, r)) (by omega)
  · have htext : exponentText e = 'e' :: '+' :: digits e.natAbs := by
      unfold exponentText
      rw [if_neg hneg]
    rw [htext]
    show (if (digits e.natAbs ++ r).takeWhile Char.isDigit = [] then none else
      some (((Nat.ofDigitChars 10 ((digits e.natAbs ++ r).takeWhile Char.isDigit) 0 : Nat) : Int),
        (digits e.natAbs ++ r).dropWhile Char.isDigit)) = _
    rw [htake, hdrop, if_neg (digits_ne_nil _), hval]
    exact congrArg (fun n => some (n, r)) (by omega)

theorem zero_isDigit : ∀ c ∈ ['0'], c.isDigit = true := by
  intro c hc
  rw [List.mem_singleton.mp hc]
  rfl

/-- A numeral from its parts. -/
theorem readNumeral_parts (whole : List Char) {rest frac t t' : List Char} {e : Int} (hds : ∀ c ∈ whole,
    c.isDigit = true)
    (hok : ¬ (whole = [] ∨ (whole.head? = some '0' ∧ whole ≠ ['0'])))
    (hrest : ∀ c r, rest = c :: r → c.isDigit = false) (hfrac : readFraction rest = some (frac, t))
    (hexp : readExponent t = some (e, t')) : readNumeral (whole ++ rest) = some (⟨whole, frac, e⟩, t') := by
  obtain ⟨htake, hdrop⟩ := span_digits hds hrest
  unfold readNumeral
  rw [htake, hdrop]
  simp only [if_neg hok, hfrac, Option.bind_some, hexp, Option.map_some]

/-- The number that significant digits stand for, with the point after `p` of them. -/
def ofDigits (neg : Bool) (ds : List Char) (p : Int) : JsNum :=
  let m : Int := Nat.ofDigitChars 10 ds 0
  ofScaled (if neg then -m else m) (ds.length - p)

theorem value_of_digits {x : Numeral} {p : Int} (hm : Nat.ofDigitChars 10 (x.whole ++ x.frac) 0 =
    Nat.ofDigitChars 10 ds 0)
    (hs : (x.frac.length : Int) - x.exponent = ds.length - p) (neg : Bool) : x.value neg = ofDigits neg ds p := by
  unfold Numeral.value ofDigits
  rw [hm, hs]

theorem ofScaled_zeros (neg : Bool) (n k : Nat) :
    ofScaled (if neg then -((10 ^ k * n : Nat) : Int) else ((10 ^ k * n : Nat) : Int)) 0 =
      ofScaled (if neg then -(n : Int) else (n : Int)) (-(k : Int)) := by
  have hk : (-(-(k : Int))).toNat = k := by omega
  have hneg : -(k : Int) ≤ 0 := by omega
  have hscaled : ∀ m : Int, ofScaled m (-(k : Int)) = ofInt (m * 10 ^ k) := by
    intro m
    unfold ofScaled
    rw [if_pos hneg, hk]
  have hwhole : ∀ m : Int, ofScaled m 0 = ofInt m := by
    intro m
    show ofInt (m * 1) = ofInt m
    rw [mul_one]
  rw [hscaled, hwhole]
  cases neg with
  | true =>
    refine congrArg ofInt ?_
    show -((10 ^ k * n : Nat) : Int) = -(n : Int) * 10 ^ k
    push_cast
    ring
  | false =>
    refine congrArg ofInt ?_
    show ((10 ^ k * n : Nat) : Int) = (n : Int) * 10 ^ k
    push_cast
    ring

theorem Significant.whole (h : Significant ds) (tail : List Char) :
    ¬ (ds ++ tail = [] ∨ ((ds ++ tail).head? = some '0' ∧ ds ++ tail ≠ ['0'])) := by
  obtain ⟨c, rest, rfl, hc⟩ := h.head
  rintro (hnil | ⟨hzero, -⟩)
  · exact nomatch hnil
  · exact hc (Option.some.inj hzero)

theorem Significant.take_whole (h : Significant ds) {k : Nat} (hk : 0 < k) :
    ¬ (ds.take k = [] ∨ ((ds.take k).head? = some '0' ∧ ds.take k ≠ ['0'])) := by
  obtain ⟨c, rest, rfl, hc⟩ := h.head
  obtain ⟨k, rfl⟩ : ∃ j, k = j + 1 := ⟨k - 1, by omega⟩
  rintro (hnil | ⟨hzero, -⟩)
  · exact nomatch hnil
  · exact hc (Option.some.inj hzero)

theorem value_append (a b : List Char) :
    Nat.ofDigitChars 10 (a ++ b) 0 = Nat.ofDigitChars 10 b (Nat.ofDigitChars 10 a 0) := Nat.ofDigitChars_append 0

/-- **Every layout of a number is a numeral** with the digits' value. -/
theorem readNumeral_text (h : Significant ds) (p : Int) (hr : Ends r) :
    ∃ x, readNumeral (unsignedText ds p ++ r) = some (x, r) ∧ ∀ neg, x.value neg = ofDigits neg ds p := by
  have hdigit : ∀ c rest, r = c :: rest → c.isDigit = false := fun c rest hc => (hr c rest hc).1
  have hnopoint : ∀ c rest, r = c :: rest → c ≠ '.' := fun c rest hc => (hr c rest hc).2.1
  have hpoint : ∀ (t : List Char) (c : Char) rest, '.' :: t = c :: rest → c.isDigit = false := by
    intro t c rest heq
    rw [← (List.cons.inj heq).1]
    rfl
  have hexp : ∀ (e : Int) (c : Char) rest, exponentText e ++ r = c :: rest → c.isDigit = false ∧ c ≠ '.' := by
    intro e c rest heq
    rw [← (List.cons.inj heq).1]
    exact ⟨rfl, by decide⟩
  have hlen : 0 < ds.length := by
    obtain ⟨c, rest, hds, -⟩ := h.head
    rw [hds]
    exact Nat.succ_pos _
  simp only [unsignedText]
  split
  · rename_i hlayout
    have hall : ∀ c ∈ ds ++ List.replicate (p - ds.length).toNat '0', c.isDigit = true := by
      intro c hc
      rcases List.mem_append.mp hc with hc | hc
      · exact h.digit c hc
      · rw [List.eq_of_mem_replicate hc]
        rfl
    refine ⟨_, readNumeral_parts _ hall (h.whole _) hdigit (readFraction_none hnopoint) (readExponent_none hr), ?_⟩
    intro neg
    unfold Numeral.value ofDigits
    rw [List.append_nil, value_append, Nat.ofDigitChars_replicate_zero]
    have hscale : (ds.length : Int) - p = -(((p - ds.length).toNat : Nat) : Int) := by omega
    rw [hscale]
    exact ofScaled_zeros neg _ _
  · split
    · rename_i hlong hlayout
      have hdrop : ds.drop p.toNat ≠ [] := by
        intro hnil
        have := List.drop_eq_nil_iff.mp hnil
        omega
      rw [List.append_assoc, List.cons_append]
      refine ⟨_, readNumeral_parts _ (fun c hc => h.digit c (List.mem_of_mem_take hc))
        (h.take_whole (by omega)) (hpoint _)
        (readFraction_digits hdrop (fun c hc => h.digit c (List.mem_of_mem_drop hc)) hdigit) (readExponent_none hr), ?_⟩
      refine value_of_digits (by rw [List.take_append_drop]) ?_
      show ((ds.drop p.toNat).length : Int) - 0 = _
      rw [List.length_drop]
      omega
    · split
      · rename_i hlayout
        have hall : ∀ c ∈ List.replicate (-p).toNat '0' ++ ds, c.isDigit = true := by
          intro c hc
          rcases List.mem_append.mp hc with hc | hc
          · rw [List.eq_of_mem_replicate hc]
            rfl
          · exact h.digit c hc
        have hne : List.replicate (-p).toNat '0' ++ ds ≠ [] := by
          intro hnil
          rw [(List.append_eq_nil_iff.mp hnil).2] at hlen
          exact absurd hlen (by decide)
        refine ⟨_, readNumeral_parts ['0'] zero_isDigit (by decide) (hpoint _)
          (readFraction_digits hne hall hdigit) (readExponent_none hr), ?_⟩
        refine value_of_digits ?_ ?_
        · show Nat.ofDigitChars 10 (['0'] ++ (List.replicate (-p).toNat '0' ++ ds)) 0 = _
          rw [value_append, show Nat.ofDigitChars 10 ['0'] 0 = 0 from rfl, value_append,
            Nat.ofDigitChars_replicate_zero,
            Nat.mul_zero]
        · show ((List.replicate (-p).toNat '0' ++ ds).length : Int) - 0 = _
          rw [List.length_append, List.length_replicate]
          omega
      · split
        · rename_i hone
          have hwhole := h.whole []
          rw [List.append_nil] at hwhole
          rw [List.append_assoc]
          refine ⟨_, readNumeral_parts _ h.digit hwhole (fun c rest hc => (hexp _ c rest hc).1)
            (readFraction_none fun c rest hc => (hexp _ c rest hc).2) (readExponent_text _ hr), ?_⟩
          refine value_of_digits (by rw [List.append_nil]) ?_
          show ((0 : Nat) : Int) - (p - 1) = _
          omega
        · rename_i hmany
          have hdrop : ds.drop 1 ≠ [] := by
            intro hnil
            have := List.drop_eq_nil_iff.mp hnil
            omega
          rw [List.append_assoc, List.append_assoc, List.cons_append]
          refine ⟨_, readNumeral_parts _ (fun c hc => h.digit c (List.mem_of_mem_take hc))
            (h.take_whole (by decide)) (hpoint _)
            (readFraction_digits hdrop (fun c hc => h.digit c (List.mem_of_mem_drop hc))
              (fun c rest hc => (hexp _ c rest hc).1)) (readExponent_text _ hr), ?_⟩
          refine value_of_digits (by rw [List.take_append_drop]) ?_
          show ((ds.drop 1).length : Int) - (p - 1) = _
          rw [List.length_drop]
          omega

theorem ofDecimal_normal {n : JsNum} (h : n.scale ≠ 0) : ofDecimal n.mantissa n.scale = n := by
  obtain ⟨m, s, normal⟩ := n
  cases s with
  | zero => exact absurd rfl h
  | succ s =>
    have hm : ¬ m % 10 = 0 := normal.resolve_left (Nat.succ_ne_zero s)
    exact dif_neg hm

/-- The digits of a number stand for the number. -/
theorem ofDigits_digits {n : JsNum} (h : n.mantissa ≠ 0) :
    ofDigits (decide (n.mantissa < 0)) (dropZeros (digits n.mantissa.natAbs))
      ((digits n.mantissa.natAbs).length - n.scale) =
      n := by
  have hsplit := dropZeros_append (digits n.mantissa.natAbs)
  have hle := (dropZeros_initial (digits n.mantissa.natAbs)).length_le
  generalize hk : (digits n.mantissa.natAbs).length - (dropZeros (digits n.mantissa.natAbs)).length = k at hsplit
  have hval : n.mantissa.natAbs = 10 ^ k * Nat.ofDigitChars 10 (dropZeros (digits n.mantissa.natAbs)) 0 := by
    have hdigits : Nat.ofDigitChars 10 (digits n.mantissa.natAbs) 0 = n.mantissa.natAbs := Nat.ofDigitChars_ten_toDigits
    rw [← Nat.ofDigitChars_replicate_zero, ← value_append, ← hsplit, hdigits]
  have hscale : ((dropZeros (digits n.mantissa.natAbs)).length : Int) - ((digits n.mantissa.natAbs).length - n.scale) =
      n.scale - k := by omega
  have hsigned : (if decide (n.mantissa < 0) = true then -((n.mantissa.natAbs : Nat) : Int)
      else ((n.mantissa.natAbs : Nat) : Int)) = n.mantissa := by
    by_cases hneg : n.mantissa < 0
    · rw [if_pos (decide_eq_true hneg)]
      omega
    · rw [if_neg (by rw [decide_eq_false hneg]; exact Bool.false_ne_true)]
      omega
  unfold ofDigits
  rw [hscale]
  by_cases hs : n.scale = 0
  · rw [hs, show ((0 : Nat) : Int) - (k : Int) = -(k : Int) by omega]
    show ofScaled _ _ = n
    rw [← ofScaled_zeros, ← hval, hsigned]
    obtain ⟨m, s, normal⟩ := n
    obtain rfl : s = 0 := hs
    show ofScaled m 0 = _
    unfold ofScaled
    rw [if_pos (le_refl _)]
    show ofInt (m * 1) = _
    rw [mul_one]
    rfl
  · -- a fraction has no trailing zero to drop
    have hfull : dropZeros (digits n.mantissa.natAbs) = digits n.mantissa.natAbs := by
      refine dropZeros_digits ?_
      have := n.normal.resolve_left hs
      omega
    have hzero : k = 0 := by
      rw [← hk, hfull]
      omega
    subst hzero
    rw [Nat.pow_zero, Nat.one_mul] at hval
    show ofScaled (if decide (n.mantissa < 0) = true then
      -((Nat.ofDigitChars 10 (dropZeros (digits n.mantissa.natAbs)) 0 : Nat) : Int) else _) _ = n
    rw [← hval, hsigned]
    unfold ofScaled
    rw [if_neg (by omega), show ((n.scale : Int) - ((0 : Nat) : Int)).toNat = n.scale by omega]
    exact ofDecimal_normal hs

/-- **A number's text reads back.** -/
theorem readNum_toText (n : JsNum) (hr : Ends r) : readNum (n.toText.toList ++ r) = some (n, r) := by
  by_cases hzero : n.mantissa = 0
  · have htext : n.toText = "0" := if_pos hzero
    have hn : n = ofInt 0 := by
      obtain ⟨m, s, normal⟩ := n
      obtain rfl : m = 0 := hzero
      obtain rfl : s = 0 := normal.resolve_right (by decide)
      rfl
    have hread := readNumeral_parts ['0'] zero_isDigit (by decide) (fun c rest hc => (hr c rest hc).1)
      (readFraction_none fun c rest hc => (hr c rest hc).2.1) (readExponent_none hr)
    rw [htext]
    show (readNumeral ('0' :: r)).map _ = _
    rw [show '0' :: r = ['0'] ++ r from rfl, hread, hn]
    rfl
  · have hsig := significant_digits (Int.natAbs_pos.mpr hzero)
    obtain ⟨x, hx, hvalue⟩ := readNumeral_text hsig ((digits n.mantissa.natAbs).length - n.scale) hr
    have hdigits := ofDigits_digits hzero
    obtain ⟨⟨c, rest, hhead, hc⟩, -⟩ := unsignedText_shape hsig ((digits n.mantissa.natAbs).length - n.scale)
    rw [toText_nonzero hzero]
    by_cases hneg : n.mantissa < 0
    · rw [decide_eq_true hneg] at hdigits
      rw [if_pos hneg]
      show (readNumeral (unsignedText _ _ ++ r)).map _ = _
      rw [hx, Option.map_some, hvalue true, hdigits]
    · rw [decide_eq_false hneg] at hdigits
      rw [if_neg hneg, List.nil_append]
      unfold readNum
      rw [if_neg ?_, hx, Option.map_some, hvalue false, hdigits]
      rw [hhead]
      exact fun heq => digit_ne hc rfl (Option.some.inj heq)

end

end JsNum

/-! ## Values -/

def isJsonSpace (c : Char) : Bool := c == ' ' || c == '\t' || c == '\n' || c == '\r'

def skipSpace (t : List Char) : List Char := t.dropWhile isJsonSpace

/-- A fixed word. -/
def readWord (word : String) (v : Json) (t : List Char) : Option (Json × List Char) :=
  if word.toList.isPrefixOf t then some (v, t.drop word.toList.length) else none

mutual

/-- A value, with the white space before it. -/
def readValue : Nat → List Char → Option (Json × List Char)
  | 0, _ => none
  | n + 1, t =>
    match skipSpace t with
    | [] => none
    | c :: rest =>
      if c = '"' then (readString rest.length rest).map fun s => (.str (String.ofList s.1), s.2)
      else if c = '[' then
        if (skipSpace rest).head? = some ']' then some (.arr [], (skipSpace rest).tail)
        else (readElements n rest).map fun xs => (.arr xs.1, xs.2)
      else if c = '\x7b' then
        if (skipSpace rest).head? = some '\x7d' then some (.obj [], (skipSpace rest).tail)
        else (readMembers n rest).map fun kvs => (.obj kvs.1, kvs.2)
      else if c = 'n' then readWord "null" .null (c :: rest)
      else if c = 't' then readWord "true" (.bool true) (c :: rest)
      else if c = 'f' then readWord "false" (.bool false) (c :: rest)
      else (JsNum.readNum (c :: rest)).map fun n => (.num n.1, n.2)

/-- The elements of an array, with its closing bracket. -/
def readElements : Nat → List Char → Option (List Json × List Char)
  | 0, _ => none
  | n + 1, t =>
    (readValue n t).bind fun v =>
      if (skipSpace v.2).head? = some ']' then some ([v.1], (skipSpace v.2).tail)
      else if (skipSpace v.2).head? = some ',' then
        (readElements n (skipSpace v.2).tail).map fun xs => (v.1 :: xs.1, xs.2)
      else none

/-- The members of an object, with its closing brace. -/
def readMembers : Nat → List Char → Option (List (String × Json) × List Char)
  | 0, _ => none
  | n + 1, t =>
    if (skipSpace t).head? = some '"' then
      (readString t.length (skipSpace t).tail).bind fun k =>
        if (skipSpace k.2).head? = some ':' then
          (readValue n (skipSpace k.2).tail).bind fun v =>
            if (skipSpace v.2).head? = some '\x7d' then some ([(String.ofList k.1, v.1)], (skipSpace v.2).tail)
            else if (skipSpace v.2).head? = some ',' then
              (readMembers n (skipSpace v.2).tail).map fun kvs => ((String.ofList k.1, v.1) :: kvs.1, kvs.2)
            else none
        else none
    else none

end

/-- `JSON.parse`; `none` where it throws. -/
def parse (text : String) : Option Json :=
  (readValue (text.toList.length + 1) text.toList).bind fun v => if skipSpace v.2 = [] then some v.1 else none

example : parse " \x7b \"a\" : [1.50, -2e3, \"\\u00e9\\ud83d\\ude00\"] , \"b\":null\x7d" =
    some (.obj [("a", .arr [.num ⟨15, 1, by decide⟩, .num (.ofInt (-2000)), .str "é😀"]), ("b", .null)]) := by
  decide +kernel

example : parse "[1,]" = none ∧ parse "01" = none ∧ parse "\"\n\"" = none := by decide +kernel

section

variable {r : List Char}

theorem skipSpace_cons {c : Char} (h : isJsonSpace c = false) (t : List Char) : skipSpace (c :: t) = c :: t :=
  List.dropWhile_cons_of_neg (by rw [h]; exact Bool.false_ne_true)

/-- The first character of a value is no white space. -/
theorem leadKind_space {c : Char} (h : leadKind c < 7) : isJsonSpace c = false := by
  cases hc : isJsonSpace c with
  | false => rfl
  | true =>
    exfalso
    have hcases : c = ' ' ∨ c = '\t' ∨ c = '\n' ∨ c = '\r' := by simpa [isJsonSpace, or_assoc] using hc
    rcases hcases with rfl | rfl | rfl | rfl <;> exact absurd h (by decide)

theorem readString_quote (s : String) (n : Nat) (h : (s.toList.flatMap escapeChar).length < n) :
    readString n (s.toList.flatMap escapeChar ++ '"' :: r) = some (s.toList, r) := by
  refine readString_escaped _ _ _ (lt_of_le_of_lt ?_ h)
  -- no character is written as nothing
  induction s.toList with
  | nil => exact le_refl _
  | cons c cs ih =>
    obtain ⟨d, rest, hd, -⟩ := escapeChar_head c
    rw [List.flatMap_cons, hd, List.length_append, List.length_cons, List.length_cons]
    omega

theorem Delimited.ends (h : Delimited r) : JsNum.Ends r := by
  intro c rest hc
  rcases h c rest hc with rfl | rfl | rfl <;> exact ⟨rfl, by decide, by decide, by decide⟩

/-- A number starts like none of the other values. -/
theorem readValue_num (x : JsNum) (h : Delimited r) (n : Nat) :
    readValue (n + 1) (x.toText.toList ++ r) = some (.num x, r) := by
  obtain ⟨⟨c, rest, htext, hc⟩, -⟩ := x.toText_shape
  have hread := x.readNum_toText h.ends
  have hne : ∀ d : Char, d.isDigit = false → d ≠ '-' → c ≠ d := by
    intro d hd hminus
    rcases hc with hc | rfl
    · exact JsNum.digit_ne hc hd
    · exact hminus.symm
  have hspace : isJsonSpace c = false := by
    have h1 := hne ' ' rfl (by decide)
    have h2 := hne '\t' rfl (by decide)
    have h3 := hne '\n' rfl (by decide)
    have h4 := hne '\r' rfl (by decide)
    simp [isJsonSpace, h1, h2, h3, h4]
  rw [htext] at hread ⊢
  unfold readValue
  rw [List.cons_append, skipSpace_cons hspace]
  simp only
  rw [if_neg (hne _ rfl (by decide)), if_neg (hne _ rfl (by decide)), if_neg (hne _ rfl (by decide)),
    if_neg (hne _ rfl (by decide)), if_neg (hne _ rfl (by decide)), if_neg (hne _ rfl (by decide))]
  rw [← List.cons_append, hread]
  rfl

/-- The text of a value starts no white space and no closing bracket. -/
theorem skipSpace_text (v : Json) (t : List Char) :
    skipSpace (textChars v ++ t) = textChars v ++ t ∧ ∀ c, leadKind c = 7 → (textChars v ++ t).head? ≠ some c := by
  obtain ⟨c, rest, htext, hkind⟩ := text_head v
  have hlt : leadKind c < 7 := by
    rw [hkind]
    exact v.kind_lt
  rw [htext]
  refine ⟨skipSpace_cons (leadKind_space hlt) _, ?_⟩
  intro d hd heq
  rw [Option.some.inj heq, hd] at hlt
  exact absurd hlt (by decide)

mutual

/-- **A value's text reads back**, whatever follows. -/
theorem readValue_text (v : Json) (r : List Char) (hr : Delimited r) (n : Nat) (hn : (textChars v).length < n) :
    readValue n (textChars v ++ r) = some (v, r) := by
  obtain ⟨n, rfl⟩ : ∃ k, n = k + 1 := ⟨n - 1, by omega⟩
  match v with
  | .null => rfl
  | .bool true => rfl
  | .bool false => rfl
  | .num x => exact readValue_num x hr n
  | .str s =>
    have hlen : (s.toList.flatMap escapeChar).length < (s.toList.flatMap escapeChar ++ '"' :: r).length := by
      rw [List.length_append, List.length_cons]
      omega
    show readValue (n + 1) ('"' :: (s.toList.flatMap escapeChar ++ ['"']) ++ r) = _
    rw [List.cons_append, List.append_assoc]
    show (readString (s.toList.flatMap escapeChar ++ '"' :: r).length _).map _ = _
    rw [List.singleton_append, readString_quote s _ hlen, Option.map_some, String.ofList_toList]
  | .arr [] => rfl
  | .arr (x :: xs) =>
    have hlen : (textCharsList (x :: xs)).length + 1 < n := by
      have : (textChars (.arr (x :: xs))).length = (textCharsList (x :: xs)).length + 2 := by
        simp only [textChars, List.length_cons, List.length_append, List.length_nil]
      omega
    have hhead : (skipSpace (textCharsList (x :: xs) ++ ']' :: r)).head? ≠ some ']' := by
      obtain ⟨t, ht⟩ : ∃ t, textCharsList (x :: xs) ++ ']' :: r = textChars x ++ t := by
        cases xs with
        | nil => exact ⟨_, rfl⟩
        | cons y ys => exact ⟨_, by rw [textCharsList, List.append_assoc]⟩
      obtain ⟨hskip, hclose⟩ := skipSpace_text x t
      rw [ht, hskip]
      exact hclose _ rfl
    show readValue (n + 1) ('[' :: (textCharsList (x :: xs) ++ [']']) ++ r) = _
    rw [List.cons_append, List.append_assoc, List.singleton_append]
    show (if (skipSpace (textCharsList (x :: xs) ++ ']' :: r)).head? = some ']' then _ else _) = _
    rw [if_neg hhead, readElements_text x xs r n hlen]
    rfl
  | .obj [] => rfl
  | .obj ((k, x) :: kvs) =>
    have hlen : (textCharsFields ((k, x) :: kvs)).length + 1 < n := by
      have : (textChars (.obj ((k, x) :: kvs))).length = (textCharsFields ((k, x) :: kvs)).length + 2 := by
        simp only [textChars, List.length_cons, List.length_append, List.length_nil]
      omega
    have hhead : (skipSpace (textCharsFields ((k, x) :: kvs) ++ '\x7d' :: r)).head? ≠ some '\x7d' := by
      obtain ⟨t, ht⟩ : ∃ t, textCharsFields ((k, x) :: kvs) ++ '\x7d' :: r = '"' :: t := by
        cases kvs with
        | nil => exact ⟨_, rfl⟩
        | cons y ys => exact ⟨_, rfl⟩
      rw [ht, skipSpace_cons rfl]
      exact fun heq => absurd (Option.some.inj heq) (by decide)
    show readValue (n + 1) ('\x7b' :: (textCharsFields ((k, x) :: kvs) ++ ['\x7d']) ++ r) = _
    rw [List.cons_append, List.append_assoc, List.singleton_append]
    show (if (skipSpace (textCharsFields ((k, x) :: kvs) ++ '\x7d' :: r)).head? = some '\x7d' then _ else _) = _
    rw [if_neg hhead, readMembers_text k x kvs r n hlen]
    rfl
termination_by n

theorem readElements_text (x : Json) (xs : List Json) (r : List Char) (n : Nat)
    (hn : (textCharsList (x :: xs)).length + 1 < n) :
    readElements n (textCharsList (x :: xs) ++ ']' :: r) = some (x :: xs, r) := by
  obtain ⟨n, rfl⟩ : ∃ k, n = k + 1 := ⟨n - 1, by omega⟩
  match xs with
  | [] =>
    have hlen : (textChars x).length < n := by
      have : (textCharsList [x]).length = (textChars x).length := by rw [textCharsList]
      omega
    rw [textCharsList]
    unfold readElements
    rw [readValue_text x _ (delimited_cons (.inr (.inl rfl))) n hlen, Option.bind_some, skipSpace_cons rfl]
    rfl
  | y :: ys =>
    have hlen : (textCharsList (x :: y :: ys)).length =
        (textChars x).length + ((textCharsList (y :: ys)).length + 1) := by
      rw [textCharsList, List.length_append, List.length_cons]
    rw [textCharsList, List.append_assoc, List.cons_append]
    unfold readElements
    rw [readValue_text x _ (delimited_cons (.inl rfl)) n (by omega), Option.bind_some, skipSpace_cons rfl]
    show (readElements n (textCharsList (y :: ys) ++ ']' :: r)).map _ = _
    rw [readElements_text y ys r n (by omega)]
    rfl
termination_by n

theorem readMembers_text (k : String) (x : Json) (kvs : List (String × Json)) (r : List Char) (n : Nat)
    (hn : (textCharsFields ((k, x) :: kvs)).length + 1 < n) :
    readMembers n (textCharsFields ((k, x) :: kvs) ++ '\x7d' :: r) = some ((k, x) :: kvs, r) := by
  obtain ⟨n, rfl⟩ : ∃ j, n = j + 1 := ⟨n - 1, by omega⟩
  have hname : ∀ t, readMembers (n + 1) (quoteChars k ++ ':' :: t) =
      (readValue n t).bind fun v =>
        if (skipSpace v.2).head? = some '\x7d' then some ([(k, v.1)], (skipSpace v.2).tail)
        else if (skipSpace v.2).head? = some ',' then
          (readMembers n (skipSpace v.2).tail).map fun kvs => ((k, v.1) :: kvs.1, kvs.2)
        else none := by
    intro t
    have hlen : (k.toList.flatMap escapeChar).length < (quoteChars k ++ ':' :: t).length := by
      unfold quoteChars
      simp only [List.length_append, List.length_cons]
      omega
    have hskip : skipSpace (quoteChars k ++ ':' :: t) = '"' :: (k.toList.flatMap escapeChar ++ '"' :: ':' :: t) := by
      unfold quoteChars
      rw [List.cons_append, skipSpace_cons rfl, List.append_assoc]
      rfl
    rw [readMembers, hskip]
    show (readString _ (k.toList.flatMap escapeChar ++ '"' :: ':' :: t)).bind _ = _
    rw [readString_quote k _ hlen, Option.bind_some]
    simp only [skipSpace_cons (show isJsonSpace ':' = false from rfl), List.head?_cons, if_true, List.tail_cons,
      String.ofList_toList]
  match kvs with
  | [] =>
    have hlen : (textCharsFields [(k, x)]).length = (quoteChars k).length + ((textChars x).length + 1) := by
      rw [textCharsFields, List.length_append, List.length_cons]
    rw [textCharsFields, List.append_assoc, List.cons_append, hname,
      readValue_text x _ (delimited_cons (.inr (.inr rfl))) n (by omega), Option.bind_some, skipSpace_cons rfl]
    rfl
  | (k', x') :: rest =>
    have hlen : (textCharsFields ((k, x) :: (k', x') :: rest)).length =
        (quoteChars k).length + ((textChars x).length + ((textCharsFields ((k', x') :: rest)).length + 1) + 1) := by
      rw [textCharsFields, List.length_append, List.length_cons, List.length_append, List.length_cons]
    rw [textCharsFields, List.append_assoc, List.cons_append, List.append_assoc, List.cons_append, hname,
      readValue_text x _ (delimited_cons (.inl rfl)) n (by omega), Option.bind_some, skipSpace_cons rfl]
    show (readMembers n (textCharsFields ((k', x') :: rest) ++ '\x7d' :: r)).map _ = _
    rw [readMembers_text k' x' rest r n (by omega)]
    rfl
termination_by n

end

end

/-- **What `JSON.stringify` wrote, `JSON.parse` reads back.** -/
theorem parse_stringify (v : Json) : parse (stringify v) = some v := by
  have hread := readValue_text v [] (fun _ _ h => nomatch h) ((textChars v).length + 1) (Nat.lt_succ_self _)
  rw [List.append_nil] at hread
  unfold parse stringify
  rw [String.toList_ofList, hread, Option.bind_some]
  rfl

end VibeJson
