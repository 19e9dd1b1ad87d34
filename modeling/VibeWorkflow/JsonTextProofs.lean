import VibeWorkflow.JsonProofs
import Mathlib.Data.List.DropRight

/-!
# JSON texts are unambiguous

`JSON.stringify` writes different values as different texts.  Numbers are the part with an argument: each
of the five layouts of `Number::toString` gives its significant digits and the place of its point back.
Strings are read back one escaped character at a time, and values by their first character.

* `readNumber`, **`toText_injective`** — numbers;
* `unescape`, `quote_append` — strings;
* **`text_append`** — a value's text, followed by a delimiter, determines the value and what follows;
* **`stringify_injective`**.
-/

namespace VibeJson

/-! ## Digits -/

namespace JsNum

/-- Digits without a zero at either end. -/
structure Significant (ds : List Char) : Prop where
  digit : ∀ c ∈ ds, c.isDigit = true
  head : ∃ c rest, ds = c :: rest ∧ c ≠ '0'
  last : dropZeros ds = ds

theorem dropZeros_zeros (ds : List Char) (k : Nat) : dropZeros (ds ++ List.replicate k '0') = dropZeros ds := by
  induction k with
  | zero => rw [List.replicate_zero, List.append_nil]
  | succ k ih =>
    rw [List.replicate_succ', ← List.append_assoc]
    exact (List.rdropWhile_concat_pos _ _ _ rfl).trans ih

theorem dropZeros_initial (ds : List Char) : dropZeros ds <+: ds := List.rdropWhile_prefix _ _

/-- What is dropped is zeros. -/
theorem dropZeros_append (ds : List Char) :
    ds = dropZeros ds ++ List.replicate (ds.length - (dropZeros ds).length) '0' := by
  have hsplit := List.rdropWhile_append_rtakeWhile (p := (· == '0')) (l := ds)
  have hzeros : ds.rtakeWhile (· == '0') = List.replicate (ds.rtakeWhile (· == '0')).length '0' := by
    refine List.eq_replicate_iff.mpr ⟨rfl, ?_⟩
    intro c hc
    exact beq_iff_eq.mp (List.mem_rtakeWhile_imp (p := (· == '0')) hc)
  have hlength := congrArg List.length hsplit
  rw [List.length_append] at hlength
  have hcount : ds.length - (dropZeros ds).length = (ds.rtakeWhile (· == '0')).length := by
    show ds.length - (ds.rdropWhile (· == '0')).length = _
    omega
  rw [hcount, ← hzeros]
  exact hsplit.symm

theorem digitChar_ne_zero : ∀ d < 10, d ≠ 0 → d.digitChar ≠ '0' := by decide

theorem digits_of_pos {n : Nat} (h : 0 < n) : ∃ c rest, digits n = c :: rest ∧ c ≠ '0' := by
  induction n using Nat.strong_induction_on with
  | _ n ih =>
    by_cases hlt : n < 10
    · exact ⟨n.digitChar, [], Nat.toDigits_of_lt_base hlt, digitChar_ne_zero n hlt (by omega)⟩
    · obtain ⟨c, rest, hds, hc⟩ := ih (n / 10) (by omega) (by omega)
      refine ⟨c, rest ++ [(n % 10).digitChar], ?_, hc⟩
      show Nat.toDigits 10 n = _
      rw [Nat.toDigits_of_base_le (by decide) (by omega), show Nat.toDigits 10 (n / 10) = c :: rest from hds]
      rfl

theorem digits_isDigit {n : Nat} : ∀ c ∈ digits n, c.isDigit = true :=
  fun _ hc => Nat.isDigit_of_mem_toDigits (by decide) (by decide) hc

/-- The significant digits of a positive number. -/
theorem significant_digits {n : Nat} (h : 0 < n) : Significant (dropZeros (digits n)) where
  digit c hc := digits_isDigit c ((dropZeros_initial _).subset hc)
  head := by
    obtain ⟨c, rest, hds, hc⟩ := digits_of_pos h
    obtain ⟨tail, htail⟩ := dropZeros_initial (digits n)
    cases hdrop : dropZeros (digits n) with
    | nil =>
      -- not all digits are zeros
      have hall := List.rdropWhile_eq_nil_iff.mp (show (digits n).rdropWhile (· == '0') = [] from hdrop)
      exact absurd (beq_iff_eq.mp (hall c (by rw [hds]; exact List.mem_cons_self))) hc
    | cons c' rest' =>
      rw [hdrop, hds] at htail
      exact ⟨c', rest', rfl, by rw [(List.cons.inj htail).1]; exact hc⟩
  last := List.rdropWhile_idempotent _ _

/-- A number that does not end in zero has no trailing zero digit. -/
theorem dropZeros_digits {n : Nat} (h : n % 10 ≠ 0) : dropZeros (digits n) = digits n := by
  have hlast : ∃ ds, digits n = ds ++ [(n % 10).digitChar] := by
    by_cases hlt : n < 10
    · refine ⟨[], ?_⟩
      rw [Nat.mod_eq_of_lt hlt]
      exact Nat.toDigits_of_lt_base hlt
    · exact ⟨_, Nat.toDigits_of_base_le (by decide) (by omega)⟩
  obtain ⟨ds, hds⟩ := hlast
  rw [hds]
  refine List.rdropWhile_concat_neg _ _ _ ?_
  intro hzero
  exact digitChar_ne_zero _ (Nat.mod_lt n (by decide)) h (beq_iff_eq.mp hzero)

/-! ## Reading a number -/

/-- The exponent of a number's text, from its `e` on. -/
def exponentOf : List Char → Int
  | _ :: sign :: ds => if sign = '-' then -(Nat.ofDigitChars 10 ds 0 : Int) else Nat.ofDigitChars 10 ds 0
  | _ => 0

/-- The significant digits of an unsigned number's text, and where its point stands after them. -/
def readNumber (t : List Char) : List Char × Int :=
  let body := t.takeWhile (· ≠ 'e')
  let all := body.filter (· ≠ '.')
  let lead := (all.takeWhile (· = '0')).length
  (dropZeros (all.drop lead), ((body.takeWhile (· ≠ '.')).length : Int) + exponentOf (t.dropWhile (· ≠ 'e')) - lead)

/-- Reading a text with its exponent apart. -/
theorem readNumber_append {body tail : List Char} (hbody : ∀ c ∈ body, c ≠ 'e') (htail : ∀ c rest,
    tail = c :: rest → c = 'e') :
    readNumber (body ++ tail) =
      (dropZeros ((body.filter (· ≠ '.')).drop ((body.filter (· ≠ '.')).takeWhile (· = '0')).length),
        ((body.takeWhile (· ≠ '.')).length : Int) + exponentOf tail
          - ((body.filter (· ≠ '.')).takeWhile (· = '0')).length) := by
  have hall : ∀ c ∈ body, decide (c ≠ 'e') = true := fun c hc => decide_eq_true (hbody c hc)
  have htake : tail.takeWhile (fun c => decide (c ≠ 'e')) = [] := by
    cases tail with
    | nil => rfl
    | cons c rest =>
      rw [htail c rest rfl]
      rfl
  have hdrop : tail.dropWhile (fun c => decide (c ≠ 'e')) = tail := by
    cases tail with
    | nil => rfl
    | cons c rest =>
      rw [htail c rest rfl]
      rfl
  unfold readNumber
  rw [List.takeWhile_append_of_pos hall, List.dropWhile_append_of_pos hall, htake, hdrop, List.append_nil]

theorem exponentOf_text (e : Int) : exponentOf (exponentText e) = e := by
  show (if (if e < 0 then '-' else '+') = '-' then -((Nat.ofDigitChars 10 (digits e.natAbs) 0 : Nat) : Int)
    else (Nat.ofDigitChars 10 (digits e.natAbs) 0 : Nat)) = e
  rw [show Nat.ofDigitChars 10 (digits e.natAbs) 0 = e.natAbs from Nat.ofDigitChars_ten_toDigits]
  by_cases he : e < 0
  · rw [if_pos he, if_pos rfl]
    omega
  · rw [if_neg he, if_neg (by decide)]
    omega

section

variable {ds : List Char}

theorem digit_ne {c : Char} (h : c.isDigit = true) {d : Char} (hd : d.isDigit = false) : c ≠ d := by
  rintro rfl
  rw [h] at hd
  exact nomatch hd

theorem Significant.filter (h : Significant ds) : ds.filter (· ≠ '.') = ds :=
  List.filter_eq_self.mpr fun c hc => decide_eq_true (digit_ne (h.digit c hc) rfl)

theorem Significant.noE (h : Significant ds) : ∀ c ∈ ds, c ≠ 'e' := fun c hc => digit_ne (h.digit c hc) rfl

theorem filter_zeros (k : Nat) : (List.replicate k '0').filter (· ≠ '.') = List.replicate k '0' :=
  List.filter_eq_self.mpr fun c hc => by rw [List.eq_of_mem_replicate hc]; rfl

/-- Significant digits have no leading zero. -/
theorem Significant.lead (h : Significant ds) (tail : List Char) : (ds ++ tail).takeWhile (· = '0') = [] := by
  obtain ⟨c, rest, rfl, hc⟩ := h.head
  exact List.takeWhile_cons_of_neg (fun hzero => hc (of_decide_eq_true hzero))

/-- Reading a text of significant digits, with a point among them and an exponent after them. -/
theorem readNumber_point (h : Significant ds) (k : Nat) (tail : List Char)
    (htail : ∀ c rest, tail = c :: rest → c = 'e') :
    readNumber (ds.take k ++ '.' :: ds.drop k ++ tail) = (ds, ((ds.take k).length : Int) + exponentOf tail) := by
  have hfilter : (ds.take k ++ '.' :: ds.drop k).filter (· ≠ '.') = ds := by
    rw [List.filter_append, List.filter_cons_of_neg (by decide), ← List.filter_append, List.take_append_drop]
    exact h.filter
  have hpoint : (ds.take k ++ '.' :: ds.drop k).takeWhile (· ≠ '.') = ds.take k := by
    rw [List.takeWhile_append_of_pos fun c hc => decide_eq_true (digit_ne (h.digit c (List.mem_of_mem_take hc)) rfl),
      List.takeWhile_cons_of_neg (by decide), List.append_nil]
  have hlead : ds.takeWhile (· = '0') = [] := by
    have hl := h.lead []
    rw [List.append_nil] at hl
    exact hl
  rw [readNumber_append ?_ htail, hfilter, hpoint, hlead]
  · rw [List.length_nil, List.drop_zero, h.last]
    simp
  · intro c hc
    rcases List.mem_append.mp hc with hc | hc
    · exact h.noE c (List.mem_of_mem_take hc)
    · rcases List.mem_cons.mp hc with rfl | hc
      · decide
      · exact h.noE c (List.mem_of_mem_drop hc)

/-- Reading digits without a point. -/
theorem readNumber_whole (h : Significant ds) (k : Nat) (tail : List Char) (htail : ∀ c rest,
    tail = c :: rest → c = 'e') :
    readNumber (ds ++ List.replicate k '0' ++ tail) = (ds, ((ds.length + k : Nat) : Int) + exponentOf tail) := by
  have hall : ∀ c ∈ ds ++ List.replicate k '0', c.isDigit = true := by
    intro c hc
    rcases List.mem_append.mp hc with hc | hc
    · exact h.digit c hc
    · rw [List.eq_of_mem_replicate hc]
      rfl
  have hfilter : (ds ++ List.replicate k '0').filter (· ≠ '.') = ds ++ List.replicate k '0' := by
    rw [List.filter_append, h.filter, filter_zeros]
  have hpoint : (ds ++ List.replicate k '0').takeWhile (· ≠ '.') = ds ++ List.replicate k '0' :=
    List.takeWhile_eq_self_iff.mpr fun c hc => decide_eq_true (digit_ne (hall c hc) rfl)
  rw [readNumber_append (fun c hc => digit_ne (hall c hc) rfl) htail, hfilter, hpoint, h.lead]
  rw [List.length_nil, List.drop_zero, dropZeros_zeros, h.last, List.length_append, List.length_replicate]
  simp

/-- Reading a fraction below one. -/
theorem readNumber_fraction (h : Significant ds) (k : Nat) :
    readNumber ('0' :: '.' :: (List.replicate k '0' ++ ds)) = (ds, -(k : Int)) := by
  have hfilter : ('0' :: '.' :: (List.replicate k '0' ++ ds)).filter (· ≠ '.') = List.replicate (k + 1) '0' ++ ds := by
    rw [List.filter_cons_of_pos (by decide), List.filter_cons_of_neg (by decide), List.filter_append,
      h.filter, filter_zeros]
    rfl
  have hlead : (List.replicate (k + 1) '0' ++ ds).takeWhile (· = '0') = List.replicate (k + 1) '0' := by
    have hds := h.lead []
    rw [List.append_nil] at hds
    rw [List.takeWhile_append_of_pos fun c hc => decide_eq_true (List.eq_of_mem_replicate hc), hds, List.append_nil]
  have hbody : ∀ c ∈ '0' :: '.' :: (List.replicate k '0' ++ ds), c ≠ 'e' := by
    intro c hc
    rcases List.mem_cons.mp hc with rfl | hc
    · decide
    · rcases List.mem_cons.mp hc with rfl | hc
      · decide
      · rcases List.mem_append.mp hc with hc | hc
        · rw [List.eq_of_mem_replicate hc]
          decide
        · exact h.noE c hc
  have hnone : ∀ (c : Char) rest, ([] : List Char) = c :: rest → c = 'e' := fun _ _ heq => nomatch heq
  have hread := readNumber_append hbody hnone
  rw [List.append_nil] at hread
  rw [hread, hfilter, hlead, List.length_replicate, List.drop_append_of_le_length (by rw [List.length_replicate])]
  rw [List.drop_eq_nil_of_le (by rw [List.length_replicate]), List.nil_append, h.last]
  refine Prod.ext rfl ?_
  show ((1 : Nat) : Int) + 0 - ((k + 1 : Nat) : Int) = _
  omega

/-- **Every layout of a number reads back**: its significant digits and the place of its point. -/
theorem readNumber_text (h : Significant ds) (n : Int) : readNumber (unsignedText ds n) = (ds, n) := by
  have hpos : 0 < ds.length := by
    obtain ⟨c, rest, rfl, -⟩ := h.head
    exact Nat.succ_pos _
  have hexp : ∀ e c rest, exponentText e = c :: rest → c = 'e' := by
    intro e c rest heq
    exact (List.cons.inj heq).1.symm
  have hnone : ∀ (c : Char) rest, ([] : List Char) = c :: rest → c = 'e' := fun _ _ heq => nomatch heq
  simp only [unsignedText]
  split
  · rename_i hlayout
    have hread := readNumber_whole h (n - ds.length).toNat [] hnone
    rw [List.append_nil] at hread
    rw [hread]
    refine Prod.ext rfl ?_
    show ((ds.length + (n - ds.length).toNat : Nat) : Int) + 0 = n
    omega
  · split
    · rename_i hlayout
      have hread := readNumber_point h n.toNat [] hnone
      rw [List.append_nil] at hread
      rw [hread, List.length_take]
      refine Prod.ext rfl ?_
      show ((min n.toNat ds.length : Nat) : Int) + 0 = n
      omega
    · split
      · rename_i hlayout
        rw [readNumber_fraction h]
        refine Prod.ext rfl ?_
        show -((-n).toNat : Int) = n
        omega
      · split
        · rename_i hone
          have hread := readNumber_whole h 0 (exponentText (n - 1)) (hexp _)
          rw [List.replicate_zero, List.append_nil] at hread
          rw [hread, exponentOf_text]
          refine Prod.ext rfl ?_
          show ((ds.length + 0 : Nat) : Int) + (n - 1) = n
          omega
        · have hread := readNumber_point h 1 (exponentText (n - 1)) (hexp _)
          rw [hread, exponentOf_text, List.length_take]
          refine Prod.ext rfl ?_
          show ((min 1 ds.length : Nat) : Int) + (n - 1) = n
          omega

end

/-! ## Numbers -/

/-- The characters of a number's text. -/
def isNumberChar (c : Char) : Bool := c.isDigit || c == '.' || c == 'e' || c == '+' || c == '-'

/-- An unsigned text starts with a digit and has a number's characters. -/
theorem unsignedText_shape {ds : List Char} (h : Significant ds) (n : Int) :
    (∃ c rest, unsignedText ds n = c :: rest ∧ c.isDigit = true) ∧ ∀ c ∈ unsignedText ds n, isNumberChar c = true := by
  have hdigit : ∀ {c : Char}, c.isDigit = true → isNumberChar c = true := by
    intro c hc
    unfold isNumberChar
    rw [hc]
    rfl
  have hds : ∀ c ∈ ds, isNumberChar c = true := fun c hc => hdigit (h.digit c hc)
  have hzeros : ∀ k, ∀ c ∈ List.replicate k '0', isNumberChar c = true := by
    intro k c hc
    rw [List.eq_of_mem_replicate hc]
    rfl
  have hexp : ∀ e, ∀ c ∈ exponentText e, isNumberChar c = true := by
    intro e c hc
    rcases List.mem_cons.mp hc with rfl | hc
    · rfl
    · rcases List.mem_cons.mp hc with rfl | hc
      · split <;> rfl
      · exact hdigit (digits_isDigit c hc)
  have happend : ∀ {a b : List Char}, (∀ c ∈ a, isNumberChar c = true) → (∀ c ∈ b, isNumberChar c = true) →
      ∀ c ∈ a ++ b, isNumberChar c = true := by
    intro a b ha hb c hc
    rcases List.mem_append.mp hc with hc | hc
    · exact ha c hc
    · exact hb c hc
  have hcons : ∀ {a : List Char} {d : Char}, isNumberChar d = true → (∀ c ∈ a, isNumberChar c = true) →
      ∀ c ∈ d :: a, isNumberChar c = true := by
    intro a d hd ha c hc
    rcases List.mem_cons.mp hc with rfl | hc
    · exact hd
    · exact ha c hc
  have htake : ∀ k, ∀ c ∈ ds.take k, isNumberChar c = true := fun k c hc => hds c (List.mem_of_mem_take hc)
  have hdrop : ∀ k, ∀ c ∈ ds.drop k, isNumberChar c = true := fun k c hc => hds c (List.mem_of_mem_drop hc)
  obtain ⟨d, rest, hhead, -⟩ := h.head
  have hd : d.isDigit = true := h.digit d (by rw [hhead]; exact List.mem_cons_self)
  simp only [unsignedText]
  split
  · exact ⟨⟨d, _, by rw [hhead]; rfl, hd⟩, happend hds (hzeros _)⟩
  · split
    · rename_i hlayout
      refine ⟨⟨d, rest.take (n.toNat - 1) ++ '.' :: ds.drop n.toNat, ?_, hd⟩, happend (htake _) (hcons rfl (hdrop _))⟩
      rw [hhead, show n.toNat = (n.toNat - 1) + 1 by omega]
      rfl
    · split
      · exact ⟨⟨'0', _, rfl, rfl⟩, hcons rfl (hcons rfl (happend (hzeros _) hds))⟩
      · split
        · exact ⟨⟨d, _, by rw [hhead]; rfl, hd⟩, happend hds (hexp _)⟩
        · refine ⟨⟨d, '.' :: ds.drop 1 ++ exponentText (n - 1), by rw [hhead]; rfl, hd⟩, ?_⟩
          exact happend (happend (htake 1) (hcons rfl (hdrop 1))) (hexp _)

/-- The text of a number other than zero. -/
theorem toText_nonzero {n : JsNum} (h : n.mantissa ≠ 0) :
    n.toText.toList = (if n.mantissa < 0 then ['-'] else []) ++
      unsignedText (dropZeros (digits n.mantissa.natAbs)) ((digits n.mantissa.natAbs).length - n.scale) := by
  unfold toText
  rw [if_neg h, String.toList_ofList]
  split <;> rfl

/-- The digits, the point and the sign determine the number. -/
theorem eq_of_digits {a b : JsNum} (ha : a.mantissa ≠ 0) (hb : b.mantissa ≠ 0)
    (hsign : a.mantissa < 0 ↔ b.mantissa < 0)
    (hds : dropZeros (digits a.mantissa.natAbs) = dropZeros (digits b.mantissa.natAbs))
    (hpoint : ((digits a.mantissa.natAbs).length : Int) - a.scale = (digits b.mantissa.natAbs).length - b.scale) :
    a = b := by
  have hle : ∀ n : JsNum, (dropZeros (digits n.mantissa.natAbs)).length ≤ (digits n.mantissa.natAbs).length :=
    fun n => (dropZeros_initial _).length_le
  have hfull : ∀ n : JsNum, n.scale ≠ 0 → dropZeros (digits n.mantissa.natAbs) = digits n.mantissa.natAbs := by
    intro n hs
    refine dropZeros_digits ?_
    have hn := n.normal.resolve_left hs
    omega
  -- digits that end the same way and are as many are the same
  have hsame : (digits a.mantissa.natAbs).length = (digits b.mantissa.natAbs).length →
      a.mantissa = b.mantissa := by
    intro hlen
    have hdigits : digits a.mantissa.natAbs = digits b.mantissa.natAbs := by
      rw [dropZeros_append (digits a.mantissa.natAbs), dropZeros_append (digits b.mantissa.natAbs), hds, hlen]
    have habs := congrArg (fun ds => Nat.ofDigitChars 10 ds 0) hdigits
    have habs : a.mantissa.natAbs = b.mantissa.natAbs := by
      simpa only [digits, Nat.ofDigitChars_ten_toDigits] using habs
    omega
  have hlens := congrArg List.length hds
  have hmantissa : a.mantissa = b.mantissa ∧ a.scale = b.scale := by
    have hla := hle a
    have hlb := hle b
    by_cases hsa : a.scale = 0
    · by_cases hsb : b.scale = 0
      · have hlen : (digits a.mantissa.natAbs).length = (digits b.mantissa.natAbs).length := by omega
        exact ⟨hsame hlen, by omega⟩
      · have hfb := congrArg List.length (hfull b hsb)
        omega
    · have hfa := congrArg List.length (hfull a hsa)
      by_cases hsb : b.scale = 0
      · omega
      · have hfb := congrArg List.length (hfull b hsb)
        have hlen : (digits a.mantissa.natAbs).length = (digits b.mantissa.natAbs).length := by omega
        exact ⟨hsame hlen, by omega⟩
  obtain ⟨ma, sa, na⟩ := a
  obtain ⟨mb, sb, nb⟩ := b
  obtain ⟨rfl, rfl⟩ := hmantissa
  rfl

/-- A number's text has a number's characters, and starts with a digit or a minus sign. -/
theorem toText_shape (n : JsNum) :
    (∃ c rest, n.toText.toList = c :: rest ∧ (c.isDigit = true ∨ c = '-')) ∧
      ∀ c ∈ n.toText.toList, isNumberChar c = true := by
  by_cases hzero : n.mantissa = 0
  · have htext : n.toText = "0" := if_pos hzero
    rw [htext]
    refine ⟨⟨'0', [], rfl, .inl rfl⟩, fun c hc => ?_⟩
    obtain rfl : c = '0' := List.mem_singleton.mp hc
    rfl
  · rw [toText_nonzero hzero]
    obtain ⟨⟨c, rest, hhead, hc⟩, hall⟩ := unsignedText_shape
      (significant_digits (Int.natAbs_pos.mpr hzero)) ((digits n.mantissa.natAbs).length - n.scale)
    split
    · refine ⟨⟨'-', _, rfl, .inr rfl⟩, ?_⟩
      intro c hc
      rcases List.mem_cons.mp hc with rfl | hc
      · rfl
      · exact hall c hc
    · exact ⟨⟨c, rest, hhead, .inl hc⟩, hall⟩

/-- **Different numbers have different texts.** -/
theorem toText_injective {a b : JsNum} (h : a.toText = b.toText) : a = b := by
  have hzero : ∀ n : JsNum, n.mantissa = 0 → n = ofInt 0 := by
    intro n hn
    obtain ⟨m, s, normal⟩ := n
    obtain rfl : m = 0 := hn
    obtain rfl : s = 0 := normal.resolve_right (by decide)
    rfl
  -- zero reads as no digits at all
  have hread : ∀ n : JsNum, n.mantissa ≠ 0 → ∃ neg body, n.toText.toList = (if neg then ['-'] else []) ++ body ∧
      (neg = true ↔ n.mantissa < 0) ∧ (∃ c rest, body = c :: rest ∧ c.isDigit = true) ∧ readNumber body =
        (dropZeros (digits n.mantissa.natAbs), ((digits n.mantissa.natAbs).length : Int) - n.scale) := by
    intro n hn
    have hsig := significant_digits (Int.natAbs_pos.mpr hn)
    refine ⟨decide (n.mantissa < 0), _, ?_, decide_eq_true_iff, (unsignedText_shape hsig _).1, readNumber_text hsig _⟩
    rw [toText_nonzero hn]
    by_cases hneg : n.mantissa < 0
    · rw [if_pos hneg, if_pos (decide_eq_true hneg)]
    · rw [if_neg hneg, if_neg (by rw [decide_eq_false hneg]; exact Bool.false_ne_true)]
  have hnotzero : ∀ n : JsNum, n.mantissa ≠ 0 → n.toText ≠ "0" := by
    intro n hn htext
    obtain ⟨neg, body, hbody, -, -, hds⟩ := hread n hn
    rw [htext] at hbody
    cases neg with
    | true => exact absurd (List.cons.inj hbody).1 (by decide)
    | false =>
      obtain rfl : ['0'] = body := hbody
      obtain ⟨c, rest, hne, -⟩ := (significant_digits (Int.natAbs_pos.mpr hn)).head
      rw [hne] at hds
      exact nomatch (congrArg Prod.fst hds : ([] : List Char) = c :: rest)
  by_cases ha : a.mantissa = 0
  · by_cases hb : b.mantissa = 0
    · rw [hzero a ha, hzero b hb]
    · exact absurd (h.symm.trans (if_pos ha)) (hnotzero b hb)
  · by_cases hb : b.mantissa = 0
    · exact absurd (h.trans (if_pos hb)) (hnotzero a ha)
    · obtain ⟨nega, bodya, hta, hsa, ⟨ca, ra, hca, hda⟩, hra⟩ := hread a ha
      obtain ⟨negb, bodyb, htb, hsb, ⟨cb, rb, hcb, hdb⟩, hrb⟩ := hread b hb
      have htexts := hta.symm.trans ((congrArg String.toList h).trans htb)
      have hboth : nega = negb ∧ bodya = bodyb := by
        cases nega with
        | true =>
          cases negb with
          | true => exact ⟨rfl, (List.cons.inj htexts).2⟩
          | false =>
            rw [hcb] at htexts
            exact absurd (List.cons.inj htexts).1.symm (digit_ne hdb rfl)
        | false =>
          cases negb with
          | true =>
            rw [hca] at htexts
            exact absurd (List.cons.inj htexts).1 (digit_ne hda rfl)
          | false => exact ⟨rfl, htexts⟩
      obtain ⟨rfl, rfl⟩ := hboth
      obtain ⟨hds, hpoint⟩ := Prod.mk.inj (hra.symm.trans hrb)
      exact eq_of_digits ha hb (hsa.symm.trans hsb) hds hpoint

end JsNum

/-! ## Strings -/

def hexVal (c : Char) : Nat := "0123456789abcdef".toList.idxOf c

theorem hexVal_hexDigit : ∀ n < 16, hexVal (hexDigit n) = n := by decide

/-- Read one character of a string literal. -/
def unescape : List Char → Option (Char × List Char)
  | [] => none
  | c :: t =>
    if c ≠ '\\' then some (c, t)
    else match t with
      | [] => none
      | e :: t =>
        if e = 'u' then
          match t with
          | _ :: _ :: h :: l :: t => some (Char.ofNat (16 * hexVal h + hexVal l), t)
          | _ => none
        else some (if e = 'n' then '\n' else if e = 'r' then '\r' else if e = 't' then '\t'
          else if e = 'b' then Char.ofNat 8 else if e = 'f' then Char.ofNat 12 else e, t)

theorem unescape_escapeChar (c : Char) (t : List Char) : unescape (escapeChar c ++ t) = some (c, t) := by
  have hchar : ∀ {n : Nat}, c.toNat = n → c = Char.ofNat n := by
    intro n h
    rw [← h, Char.ofNat_toNat]
  unfold escapeChar
  split
  · rename_i h
    rw [h]
    rfl
  · split
    · rename_i h
      rw [h]
      rfl
    · rename_i hback
      split
      · rename_i h
        rw [h]
        rfl
      · split
        · rename_i h
          rw [h]
          rfl
        · split
          · rename_i h
            rw [h]
            rfl
          · split
            · rename_i h
              rw [hchar h]
              rfl
            · split
              · rename_i h
                rw [hchar h]
                rfl
              · split
                · rename_i h
                  show some (Char.ofNat (16 * hexVal (hexDigit (c.toNat / 16)) + hexVal
                    (hexDigit (c.toNat % 16))), t) = _
                  rw [hexVal_hexDigit _ (by omega), hexVal_hexDigit _ (by omega), Nat.div_add_mod, Char.ofNat_toNat]
                · exact if_pos hback

/-- An escaped character does not start like the end of a literal. -/
theorem escapeChar_head (c : Char) : ∃ d rest, escapeChar c = d :: rest ∧ d ≠ '"' := by
  unfold escapeChar
  split
  · exact ⟨_, _, rfl, by decide⟩
  · rename_i hquote
    repeat' split
    all_goals first | exact ⟨_, _, rfl, by decide⟩ | exact ⟨_, _, rfl, hquote⟩

theorem escaped_append (s s' r r' : List Char)
    (h : s.flatMap escapeChar ++ '"' :: r = s'.flatMap escapeChar ++ '"' :: r') : s = s' ∧ r = r' := by
  induction s generalizing s' with
  | nil =>
    cases s' with
    | nil => exact ⟨rfl, (List.cons.inj h).2⟩
    | cons c' s' =>
      obtain ⟨d, rest, hd, hne⟩ := escapeChar_head c'
      rw [List.flatMap_cons, hd] at h
      exact absurd (List.cons.inj h).1.symm hne
  | cons c s ih =>
    cases s' with
    | nil =>
      obtain ⟨d, rest, hd, hne⟩ := escapeChar_head c
      rw [List.flatMap_cons, hd] at h
      exact absurd (List.cons.inj h).1 hne
    | cons c' s' =>
      rw [List.flatMap_cons, List.flatMap_cons, List.append_assoc, List.append_assoc] at h
      have hread := congrArg unescape h
      rw [unescape_escapeChar, unescape_escapeChar] at hread
      obtain ⟨rfl, hrest⟩ := Prod.mk.inj (Option.some.inj hread)
      obtain ⟨rfl, rfl⟩ := ih s' hrest
      exact ⟨rfl, rfl⟩

/-- The same first character may be dropped. -/
theorem tail_append {c : Char} {a b r r' : List Char} (h : (c :: a) ++ r = (c :: b) ++ r') : a ++ r = b ++ r' :=
  (List.cons.inj h).2

/-- A string literal determines its string and what follows. -/
theorem quote_append {s s' : String} {r r' : List Char} (h : quoteChars s ++ r = quoteChars s' ++ r') :
    s = s' ∧ r = r' := by
  have htail := tail_append h
  rw [List.append_assoc, List.append_assoc] at htail
  obtain ⟨hs, hr⟩ := escaped_append s.toList s'.toList r r' htail
  exact ⟨String.toList_inj.mp hs, hr⟩

/-! ## Values -/

/-- What may follow a value. -/
def Delimited (r : List Char) : Prop := ∀ c rest, r = c :: rest → c = ',' ∨ c = ']' ∨ c = '\x7d'

theorem delimited_cons {c : Char} {r : List Char} (h : c = ',' ∨ c = ']' ∨ c = '\x7d') : Delimited (c :: r) := by
  intro d rest heq
  rw [← (List.cons.inj heq).1]
  exact h

/-- The kind of value that a first character announces. -/
def leadKind (c : Char) : Nat :=
  if c = 'n' then 0 else if c = 't' then 1 else if c = 'f' then 2 else if c = '"' then 3 else if c = '[' then 4
  else if c = '\x7b' then 5 else if c.isDigit || c = '-' then 6 else 7

def Json.kind : Json → Nat
  | .null => 0
  | .bool b => if b then 1 else 2
  | .str _ => 3
  | .arr _ => 4
  | .obj _ => 5
  | .num _ => 6

theorem Json.kind_lt (v : Json) : v.kind < 7 := by
  cases v with
  | bool b => cases b <;> decide
  | _ => simp only [Json.kind]; decide

theorem text_head (v : Json) : ∃ c rest, textChars v = c :: rest ∧ leadKind c = v.kind := by
  cases v with
  | null => exact ⟨_, _, rfl, rfl⟩
  | bool b => cases b <;> exact ⟨_, _, rfl, rfl⟩
  | str s => exact ⟨_, _, rfl, rfl⟩
  | arr xs => exact ⟨_, _, rfl, rfl⟩
  | obj kvs => exact ⟨_, _, rfl, rfl⟩
  | num n =>
    obtain ⟨⟨c, rest, htext, hc⟩, -⟩ := n.toText_shape
    refine ⟨c, rest, htext, ?_⟩
    rcases hc with hc | rfl
    · unfold leadKind
      rw [if_neg (JsNum.digit_ne hc rfl), if_neg (JsNum.digit_ne hc rfl), if_neg (JsNum.digit_ne hc rfl),
        if_neg (JsNum.digit_ne hc rfl), if_neg (JsNum.digit_ne hc rfl), if_neg (JsNum.digit_ne hc rfl),
        if_pos (by rw [hc]; rfl)]
      rfl
    · rfl

theorem kind_eq {v v' : Json} {r r' : List Char} (h : textChars v ++ r = textChars v' ++ r') : v.kind = v'.kind := by
  obtain ⟨c, rest, hc, hk⟩ := text_head v
  obtain ⟨c', rest', hc', hk'⟩ := text_head v'
  rw [hc, hc'] at h
  rw [← hk, ← hk', (List.cons.inj h).1]

/-- A value's text does not start with a closing bracket. -/
theorem text_not_closing {v : Json} {c : Char} {r r' : List Char} (hc : leadKind c = 7)
    (h : c :: r = textChars v ++ r') : False := by
  obtain ⟨d, rest, hd, hk⟩ := text_head v
  rw [hd] at h
  have hlt := v.kind_lt
  rw [← hk, ← (List.cons.inj h).1, hc] at hlt
  exact absurd hlt (by decide)

/-- A number's text ends where a delimiter stands. -/
theorem number_append {a b : JsNum} {r r' : List Char} (hr : Delimited r) (hr' : Delimited r')
    (h : a.toText.toList ++ r = b.toText.toList ++ r') : a = b ∧ r = r' := by
  have hstop : ∀ {r : List Char}, Delimited r → r.takeWhile JsNum.isNumberChar = [] := by
    intro r hr
    cases r with
    | nil => rfl
    | cons c rest => rcases hr c rest rfl with rfl | rfl | rfl <;> rfl
  have htake := congrArg (List.takeWhile JsNum.isNumberChar) h
  rw [List.takeWhile_append_of_pos a.toText_shape.2, List.takeWhile_append_of_pos b.toText_shape.2, hstop hr, hstop hr',
    List.append_nil, List.append_nil] at htake
  refine ⟨JsNum.toText_injective (String.toList_inj.mp htake), ?_⟩
  rw [htake] at h
  exact List.append_cancel_left h

mutual

/-- **A value's text determines the value and what follows.** -/
theorem text_append (v v' : Json) (r r' : List Char) (hr : Delimited r) (hr' : Delimited r')
    (h : textChars v ++ r = textChars v' ++ r') : v = v' ∧ r = r' := by
  have hkind := kind_eq h
  match v, v' with
  | .null, .null => exact ⟨rfl, List.append_cancel_left h⟩
  | .bool b, .bool b' =>
    obtain rfl : b = b' := by
      cases b <;> cases b' <;> first | rfl | exact absurd hkind (by decide)
    exact ⟨rfl, List.append_cancel_left h⟩
  | .num a, .num b =>
    obtain ⟨rfl, rfl⟩ := number_append hr hr' h
    exact ⟨rfl, rfl⟩
  | .str s, .str s' =>
    obtain ⟨rfl, rfl⟩ := quote_append h
    exact ⟨rfl, rfl⟩
  | .arr xs, .arr ys =>
    have htail := tail_append h
    rw [List.append_assoc, List.append_assoc] at htail
    obtain ⟨rfl, rfl⟩ := list_append xs ys r r' htail
    exact ⟨rfl, rfl⟩
  | .obj kvs, .obj kvs' =>
    have htail := tail_append h
    rw [List.append_assoc, List.append_assoc] at htail
    obtain ⟨rfl, rfl⟩ := fields_append kvs kvs' r r' htail
    exact ⟨rfl, rfl⟩
  | .null, .bool b | .bool b, .null => cases b <;> exact absurd hkind (by decide)
  | .bool b, .num _ | .bool b, .str _ | .bool b, .arr _ | .bool b, .obj _ | .num _, .bool b | .str _, .bool b
  | .arr _, .bool b | .obj _, .bool b => cases b <;> exact nomatch hkind
  | .null, .num _ | .null, .str _ | .null, .arr _ | .null, .obj _ | .num _, .null | .str _, .null | .arr _, .null
  | .obj _, .null | .num _, .str _ | .num _, .arr _ | .num _, .obj _ | .str _, .num _ | .str _, .arr _ | .str _, .obj _
  | .arr _, .num _ | .arr _, .str _ | .arr _, .obj _ | .obj _, .num _ | .obj _, .str _ | .obj _, .arr _ =>
    exact nomatch hkind

theorem list_append (xs ys : List Json) (r r' : List Char)
    (h : textCharsList xs ++ ']' :: r = textCharsList ys ++ ']' :: r') : xs = ys ∧ r = r' := by
  match xs, ys with
  | [], [] => exact ⟨rfl, (List.cons.inj h).2⟩
  | [], [y] => exact (text_not_closing rfl h).elim
  | [], y :: y' :: ys =>
    rw [textCharsList, textCharsList, List.append_assoc] at h
    exact (text_not_closing rfl h).elim
  | [x], [] => exact (text_not_closing rfl h.symm).elim
  | x :: x' :: xs, [] =>
    rw [textCharsList, textCharsList, List.append_assoc] at h
    exact (text_not_closing rfl h.symm).elim
  | [x], [y] =>
    obtain ⟨rfl, hr⟩ := text_append x y _ _ (delimited_cons (.inr (.inl rfl))) (delimited_cons (.inr (.inl rfl))) h
    exact ⟨rfl, (List.cons.inj hr).2⟩
  | [x], y :: y' :: ys =>
    rw [textCharsList, textCharsList, List.append_assoc] at h
    obtain ⟨-, hr⟩ := text_append x y _ _ (delimited_cons (.inr (.inl rfl))) (delimited_cons (.inl rfl)) h
    exact absurd (List.cons.inj hr).1 (by decide)
  | x :: x' :: xs, [y] =>
    rw [textCharsList, textCharsList, List.append_assoc] at h
    obtain ⟨-, hr⟩ := text_append x y _ _ (delimited_cons (.inl rfl)) (delimited_cons (.inr (.inl rfl))) h
    exact absurd (List.cons.inj hr).1 (by decide)
  | x :: x' :: xs, y :: y' :: ys =>
    rw [textCharsList, textCharsList, List.append_assoc, List.append_assoc] at h
    obtain ⟨rfl, hr⟩ := text_append x y _ _ (delimited_cons (.inl rfl)) (delimited_cons (.inl rfl)) h
    obtain ⟨hxs, hr⟩ := list_append (x' :: xs) (y' :: ys) r r' (tail_append hr)
    rw [hxs]
    exact ⟨rfl, hr⟩

theorem fields_append (kvs kvs' : List (String × Json)) (r r' : List Char)
    (h : textCharsFields kvs ++ '\x7d' :: r = textCharsFields kvs' ++ '\x7d' :: r') : kvs = kvs' ∧ r = r' := by
  match kvs, kvs' with
  | [], [] => exact ⟨rfl, (List.cons.inj h).2⟩
  | [], [(k', v')] => exact absurd (List.cons.inj h).1 (by decide)
  | [], (k', v') :: kv' :: kvs' => exact absurd (List.cons.inj h).1 (by decide)
  | [(k, v)], [] => exact absurd (List.cons.inj h).1 (by decide)
  | (k, v) :: kv :: kvs, [] => exact absurd (List.cons.inj h).1 (by decide)
  | [(k, v)], [(k', v')] =>
    rw [textCharsFields, textCharsFields, List.append_assoc, List.append_assoc] at h
    obtain ⟨rfl, hvalue⟩ := quote_append h
    obtain ⟨rfl, hr⟩ := text_append v v' _ _ (delimited_cons (.inr (.inr rfl))) (delimited_cons (.inr (.inr rfl)))
      (tail_append hvalue)
    exact ⟨rfl, (List.cons.inj hr).2⟩
  | [(k, v)], (k', v') :: kv' :: kvs' =>
    rw [textCharsFields, textCharsFields, List.append_assoc, List.append_assoc] at h
    have hvalue := tail_append (quote_append h).2
    rw [List.append_assoc] at hvalue
    obtain ⟨-, hr⟩ := text_append v v' _ _ (delimited_cons (.inr (.inr rfl))) (delimited_cons (.inl rfl)) hvalue
    exact absurd (List.cons.inj hr).1 (by decide)
  | (k, v) :: kv :: kvs, [(k', v')] =>
    rw [textCharsFields, textCharsFields, List.append_assoc, List.append_assoc] at h
    have hvalue := tail_append (quote_append h).2
    rw [List.append_assoc] at hvalue
    obtain ⟨-, hr⟩ := text_append v v' _ _ (delimited_cons (.inl rfl)) (delimited_cons (.inr (.inr rfl))) hvalue
    exact absurd (List.cons.inj hr).1 (by decide)
  | (k, v) :: kv :: kvs, (k', v') :: kv' :: kvs' =>
    rw [textCharsFields, textCharsFields, List.append_assoc, List.append_assoc] at h
    obtain ⟨rfl, hvalue⟩ := quote_append h
    have hvalue := tail_append hvalue
    rw [List.append_assoc, List.append_assoc] at hvalue
    obtain ⟨rfl, hrest⟩ := text_append v v' _ _ (delimited_cons (.inl rfl)) (delimited_cons (.inl rfl)) hvalue
    obtain ⟨hkvs, hr⟩ := fields_append (kv :: kvs) (kv' :: kvs') r r' (tail_append hrest)
    rw [hkvs]
    exact ⟨rfl, hr⟩

end

/-- **`JSON.stringify` is injective.** -/
theorem stringify_injective {v v' : Json} (h : stringify v = stringify v') : v = v' := by
  have htext : textChars v ++ [] = textChars v' ++ [] := by
    rw [List.append_nil, List.append_nil]
    exact String.ofList_injective h
  exact (text_append v v' [] [] (fun _ _ heq => nomatch heq) (fun _ _ heq => nomatch heq) htext).1

end VibeJson
