import Mathlib.Data.List.Basic

/-!
# Texts of UTF-16 code units

A text of code units may hold half of a surrogate pair; a text of characters may not.  What reads the first
as the second puts a replacement character in the place of each half.

* `encode`, `decode` — the two readings;
* **`decode_encode`** — characters come back;
* **`encode_decode_iff`** — code units come back just when no half stands alone.
-/

namespace Utf16

abbrev Units := List UInt16

/-- The first half of a pair. -/
def isHigh (u : UInt16) : Bool := 0xD800 ≤ u.toNat && u.toNat < 0xDC00

/-- The second half of a pair. -/
def isLow (u : UInt16) : Bool := 0xDC00 ≤ u.toNat && u.toNat < 0xE000

def replacement : Char := Char.ofNat 0xFFFD

/-- The character of a unit by itself. -/
def single (u : UInt16) : Char := if isHigh u || isLow u then replacement else Char.ofNat u.toNat

/-- The character of a pair. -/
def paired (high low : UInt16) : Char :=
  Char.ofNat (0x10000 + (high.toNat - 0xD800) * 0x400 + (low.toNat - 0xDC00))

def decode : Units → List Char
  | [] => []
  | [u] => [single u]
  | u :: v :: units => if isHigh u && isLow v then paired u v :: decode units else single u :: decode (v :: units)

def unitsOf (c : Char) : Units :=
  if c.toNat < 0x10000 then [UInt16.ofNat c.toNat]
  else [UInt16.ofNat (0xD800 + (c.toNat - 0x10000) / 0x400), UInt16.ofNat (0xDC00 + (c.toNat - 0x10000) % 0x400)]

def encode (cs : List Char) : Units := cs.flatMap unitsOf

/-- No half of a pair stands alone. -/
def isWellFormed : Units → Bool
  | [] => true
  | [u] => !(isHigh u || isLow u)
  | u :: v :: units =>
    if isHigh u && isLow v then isWellFormed units else !(isHigh u || isLow u) && isWellFormed (v :: units)

/-! ## One character -/

/-- A character is no surrogate, and below the last code point. -/
theorem char_valid (c : Char) : c.toNat < 0xD800 ∨ (0xDFFF < c.toNat ∧ c.toNat < 0x110000) := c.valid

theorem toNat_ofNat {n : Nat} (h : n < 0xD800 ∨ (0xDFFF < n ∧ n < 0x110000)) : (Char.ofNat n).toNat = n := by
  rw [Char.ofNat, dif_pos h]
  rfl

theorem unit_toNat {n : Nat} (h : n < 0x10000) : (UInt16.ofNat n).toNat = n := UInt16.toNat_ofNat_of_lt' h

/-- A character of one unit is no half of a pair. -/
theorem single_unit {c : Char} (h : c.toNat < 0x10000) :
    (isHigh (UInt16.ofNat c.toNat) || isLow (UInt16.ofNat c.toNat)) = false ∧ single (UInt16.ofNat c.toNat) = c := by
  have hnone : (isHigh (UInt16.ofNat c.toNat) || isLow (UInt16.ofNat c.toNat)) = false := by
    have hvalid := char_valid c
    unfold isHigh isLow
    rw [unit_toNat h]
    simp only [Bool.or_eq_false_iff, Bool.and_eq_false_iff, decide_eq_false_iff_not]
    omega
  refine ⟨hnone, ?_⟩
  unfold single
  rw [hnone, unit_toNat h, if_neg Bool.false_ne_true, Char.ofNat_toNat]

/-- A character of two units is a pair. -/
theorem paired_units {c : Char} (h : ¬ c.toNat < 0x10000) :
    let high := UInt16.ofNat (0xD800 + (c.toNat - 0x10000) / 0x400)
    let low := UInt16.ofNat (0xDC00 + (c.toNat - 0x10000) % 0x400)
    isHigh high = true ∧ isLow low = true ∧ paired high low = c := by
  intro high low
  have hvalid := char_valid c
  have hhigh : high.toNat = 0xD800 + (c.toNat - 0x10000) / 0x400 := unit_toNat (by omega)
  have hlow : low.toNat = 0xDC00 + (c.toNat - 0x10000) % 0x400 := unit_toNat (by omega)
  refine ⟨?_, ?_, ?_⟩
  · unfold isHigh
    rw [hhigh, Bool.and_eq_true, decide_eq_true_iff, decide_eq_true_iff]
    omega
  · unfold isLow
    rw [hlow, Bool.and_eq_true, decide_eq_true_iff, decide_eq_true_iff]
    omega
  · unfold paired
    rw [hhigh, hlow]
    have hsum : 0x10000 + (0xD800 + (c.toNat - 0x10000) / 0x400 - 0xD800) * 0x400 +
        (0xDC00 + (c.toNat - 0x10000) % 0x400 - 0xDC00) = c.toNat := by omega
    rw [hsum, Char.ofNat_toNat]

theorem decode_unitsOf (c : Char) (units : Units) : decode (unitsOf c ++ units) = c :: decode units := by
  unfold unitsOf
  by_cases h : c.toNat < 0x10000
  · obtain ⟨hnone, hsingle⟩ := single_unit h
    rw [if_pos h]
    cases units with
    | nil =>
      show [single _] = _
      rw [hsingle]
      rfl
    | cons v units =>
      show decode (_ :: v :: units) = _
      rw [decode, (Bool.or_eq_false_iff.mp hnone).1, Bool.false_and, if_neg Bool.false_ne_true, hsingle]
  · obtain ⟨hhigh, hlow, hpair⟩ := paired_units h
    rw [if_neg h]
    show decode (_ :: _ :: units) = _
    rw [decode, hhigh, hlow, Bool.and_self, if_pos rfl, hpair]

/-- **Characters come back.** -/
theorem decode_encode (cs : List Char) : decode (encode cs) = cs := by
  induction cs with
  | nil => rfl
  | cons c cs ih =>
    show decode (unitsOf c ++ encode cs) = _
    rw [decode_unitsOf, ih]

/-! ## One unit, or two -/

theorem unitsOf_single (u : UInt16) : unitsOf (single u) = [u] ↔ (isHigh u || isLow u) = false := by
  have hu : u.toNat < 0x10000 := u.toNat_lt
  constructor
  · intro h
    by_contra hhalf
    rw [Bool.not_eq_false] at hhalf
    unfold single at h
    rw [hhalf, if_pos rfl] at h
    -- a half is not the unit of the replacement character
    have heq : UInt16.ofNat 0xFFFD = u := (List.cons.inj h).1
    rw [← heq] at hhalf
    exact nomatch hhalf
  · intro h
    have hrange : u.toNat < 0xD800 ∨ (0xDFFF < u.toNat ∧ u.toNat < 0x110000) := by
      unfold isHigh isLow at h
      simp only [Bool.or_eq_false_iff, Bool.and_eq_false_iff, decide_eq_false_iff_not] at h
      omega
    unfold single unitsOf
    rw [h, if_neg Bool.false_ne_true, toNat_ofNat hrange, if_pos hu, UInt16.ofNat_toNat]

theorem unitsOf_paired {u v : UInt16} (hu : isHigh u = true) (hv : isLow v = true) : unitsOf (paired u v) = [u, v] := by
  unfold isHigh at hu
  unfold isLow at hv
  rw [Bool.and_eq_true, decide_eq_true_iff, decide_eq_true_iff] at hu hv
  have hchar : (paired u v).toNat = 0x10000 + (u.toNat - 0xD800) * 0x400 + (v.toNat - 0xDC00) :=
    toNat_ofNat (by omega)
  have hhigh : 0xD800 + ((paired u v).toNat - 0x10000) / 0x400 = u.toNat := by omega
  have hlow : 0xDC00 + ((paired u v).toNat - 0x10000) % 0x400 = v.toNat := by omega
  unfold unitsOf
  rw [if_neg (by omega), hhigh, hlow, UInt16.ofNat_toNat, UInt16.ofNat_toNat]

/-- The units of a unit's character are one. -/
theorem unitsOf_single_length (u : UInt16) : ∃ v, unitsOf (single u) = [v] := by
  by_cases h : (isHigh u || isLow u) = false
  · exact ⟨u, (unitsOf_single u).mpr h⟩
  · refine ⟨UInt16.ofNat 0xFFFD, ?_⟩
    rw [Bool.not_eq_false] at h
    unfold single
    rw [h, if_pos rfl]
    rfl

/-- **Code units come back just when no half of a pair stands alone.** -/
theorem encode_decode_iff (units : Units) : encode (decode units) = units ↔ isWellFormed units = true := by
  fun_induction decode units with
  | case1 => exact ⟨fun _ => rfl, fun _ => rfl⟩
  | case2 u =>
    show unitsOf (single u) ++ [] = [u] ↔ (!(isHigh u || isLow u)) = true
    rw [List.append_nil, unitsOf_single, Bool.not_eq_true']
  | case3 u v units hpair ih =>
    obtain ⟨hu, hv⟩ := Bool.and_eq_true_iff.mp hpair
    show unitsOf (paired u v) ++ encode (decode units) = u :: v :: units ↔ _
    rw [unitsOf_paired hu hv, isWellFormed, if_pos hpair, ← ih]
    exact List.append_right_inj [u, v]
  | case4 u v units hpair ih =>
    obtain ⟨w, hw⟩ := unitsOf_single_length u
    show unitsOf (single u) ++ encode (decode (v :: units)) = [u] ++ (v :: units) ↔ _
    rw [isWellFormed, if_neg hpair, Bool.and_eq_true, Bool.not_eq_true', ← unitsOf_single, ← ih]
    constructor
    · intro h
      exact List.append_inj h (by rw [hw]; rfl)
    · rintro ⟨hfirst, hrest⟩
      rw [hfirst, hrest]

end Utf16
