import VibeWorkflow.Utf8Proofs
import VibeWorkflow.Utf16Proofs

/-!
# How many bytes a text of code units takes

A text of UTF-16 code units is written as UTF-8, a half of a pair that stands alone as the replacement
character.  Two texts one after the other take the bytes of both, unless a pair joins where they meet.

* **`byteLength_append`** — the count of two texts together;
* **`byteLength_le_length_iff`** — a text takes no more bytes than units just when it is ASCII.
-/

namespace Utf16

/-- The bytes of a unit that is no half of a pair, or a half that stands alone. -/
def unitBytes (u : UInt16) : Nat := if u.toNat < 0x80 then 1 else if u.toNat < 0x800 then 2 else 3

def byteLength : Units → Nat
  | [] => 0
  | [u] => unitBytes u
  | u :: v :: units => if isHigh u && isLow v then 4 + byteLength units else unitBytes u + byteLength (v :: units)

def isAscii (units : Units) : Bool := units.all fun u => u.toNat < 0x80

/-- The last unit of the one text and the first of the other are a pair. -/
def joins (front back : Units) : Bool := front.getLast?.any isHigh && back.head?.any isLow

/-! ## Units -/

theorem isHigh_iff (u : UInt16) : isHigh u = true ↔ 0xD800 ≤ u.toNat ∧ u.toNat < 0xDC00 := by
  rw [isHigh, Bool.and_eq_true, decide_eq_true_iff, decide_eq_true_iff]

theorem isLow_iff (u : UInt16) : isLow u = true ↔ 0xDC00 ≤ u.toNat ∧ u.toNat < 0xE000 := by
  rw [isLow, Bool.and_eq_true, decide_eq_true_iff, decide_eq_true_iff]

theorem not_high_of_low {u : UInt16} (h : isLow u = true) : isHigh u = false := by
  have hlow := (isLow_iff u).mp h
  rw [Bool.eq_false_iff, ne_eq, isHigh_iff]
  omega

theorem unitBytes_half {u : UInt16} (h : (isHigh u || isLow u) = true) : unitBytes u = 3 := by
  rw [Bool.or_eq_true, isHigh_iff, isLow_iff] at h
  rw [unitBytes, if_neg (by omega), if_neg (by omega)]

/-! ## One text after another -/

/-- A second half at the front stands alone. -/
theorem byteLength_low {u : UInt16} (h : isLow u = true) (units : Units) :
    byteLength (u :: units) = 3 + byteLength units := by
  have hbytes : unitBytes u = 3 := unitBytes_half (by rw [h, Bool.or_true])
  cases units with
  | nil => exact hbytes
  | cons v units =>
    rw [byteLength, not_high_of_low h, Bool.false_and, if_neg Bool.false_ne_true, hbytes]

theorem joins_nil_left (back : Units) : joins [] back = false := rfl

theorem joins_nil_right (front : Units) : joins front [] = false := Bool.and_false _

theorem joins_cons_cons (u v : UInt16) (front back : Units) :
    joins (u :: v :: front) back = joins (v :: front) back := by
  rw [joins, joins, List.getLast?_cons_cons]

/-- A pair at the end of the first text leaves no half to join. -/
theorem joins_low {v : UInt16} (h : isLow v = true) (front back : Units) :
    joins (v :: front) back = joins front back := by
  cases front with
  | nil =>
    show (isHigh v && _) = _
    rw [not_high_of_low h, Bool.false_and, joins_nil_left]
  | cons w front => exact joins_cons_cons v w front back

/-- **Two texts together.**  A pair that joins takes four bytes where its halves took three each. -/
theorem byteLength_append (front back : Units) :
    byteLength (front ++ back) + (if joins front back then 2 else 0) = byteLength front + byteLength back := by
  induction front using byteLength.induct with
  | case1 =>
    rw [joins_nil_left, if_neg Bool.false_ne_true, List.nil_append, byteLength, Nat.add_zero, Nat.zero_add]
  | case2 u =>
    cases back with
    | nil => rw [joins_nil_right, if_neg Bool.false_ne_true]; rfl
    | cons v back =>
      show byteLength (u :: v :: back) + (if isHigh u && isLow v then 2 else 0) = unitBytes u + byteLength (v :: back)
      by_cases hpair : (isHigh u && isLow v) = true
      · obtain ⟨hu, hv⟩ := Bool.and_eq_true_iff.mp hpair
        have hbytes : unitBytes u = 3 := unitBytes_half (by rw [hu, Bool.true_or])
        rw [byteLength, if_pos hpair, if_pos hpair, byteLength_low hv, hbytes]
        omega
      · rw [byteLength, if_neg hpair, if_neg hpair, Nat.add_zero]
  | case3 u v units hpair ih =>
    obtain ⟨-, hv⟩ := Bool.and_eq_true_iff.mp hpair
    rw [joins_cons_cons, joins_low hv]
    show byteLength (u :: v :: (units ++ back)) + _ = _
    rw [byteLength, byteLength, if_pos hpair, if_pos hpair]
    omega
  | case4 u v units hpair ih =>
    rw [joins_cons_cons]
    rw [List.cons_append] at ih
    show byteLength (u :: v :: (units ++ back)) + _ = _
    rw [byteLength, byteLength, if_neg hpair, if_neg hpair]
    omega

theorem byteLength_append_le (front back : Units) : byteLength (front ++ back) ≤ byteLength front + byteLength back :=
  byteLength_append front back ▸ Nat.le_add_right _ _

/-! ## Bytes and units -/

theorem unitBytes_pos (u : UInt16) : 1 ≤ unitBytes u := by
  rw [unitBytes]
  split
  · exact Nat.le_refl 1
  · split <;> decide

theorem unitBytes_one_iff (u : UInt16) : unitBytes u ≤ 1 ↔ u.toNat < 0x80 := by
  rw [unitBytes]
  constructor
  · intro h
    by_contra hwide
    rw [if_neg hwide] at h
    split at h <;> omega
  · intro h
    rw [if_pos h]

theorem length_le_byteLength (units : Units) : units.length ≤ byteLength units := by
  induction units using byteLength.induct with
  | case1 => exact Nat.le_refl 0
  | case2 u => exact unitBytes_pos u
  | case3 u v units hpair ih =>
    rw [byteLength, if_pos hpair, List.length_cons, List.length_cons]
    omega
  | case4 u v units hpair ih =>
    have hpos := unitBytes_pos u
    rw [byteLength, if_neg hpair, List.length_cons]
    omega

/-- **No more bytes than units.** -/
theorem byteLength_le_length_iff (units : Units) : byteLength units ≤ units.length ↔ isAscii units = true := by
  induction units using byteLength.induct with
  | case1 => exact ⟨fun _ => rfl, fun _ => Nat.le_refl 0⟩
  | case2 u =>
    show unitBytes u ≤ 1 ↔ (decide (u.toNat < 0x80) && true) = true
    rw [Bool.and_true, decide_eq_true_iff, unitBytes_one_iff]
  | case3 u v units hpair ih =>
    have hmore := length_le_byteLength units
    have hhigh := (isHigh_iff u).mp (Bool.and_eq_true_iff.mp hpair).1
    rw [byteLength, if_pos hpair, List.length_cons, List.length_cons]
    constructor
    · intro h
      omega
    · intro h
      have hascii : u.toNat < 0x80 := decide_eq_true_iff.mp (Bool.and_eq_true_iff.mp h).1
      omega
  | case4 u v units hpair ih =>
    have hmore := length_le_byteLength (v :: units)
    have hpos := unitBytes_pos u
    have hcons : isAscii (u :: v :: units) = true ↔ u.toNat < 0x80 ∧ isAscii (v :: units) = true := by
      show (decide (u.toNat < 0x80) && isAscii (v :: units)) = true ↔ _
      rw [Bool.and_eq_true, decide_eq_true_iff]
    rw [hcons, ← ih, ← unitBytes_one_iff, byteLength, if_neg hpair, List.length_cons]
    omega

end Utf16
