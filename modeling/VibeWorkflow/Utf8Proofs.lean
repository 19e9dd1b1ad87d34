import Mathlib.Data.List.Basic
import Mathlib.Data.List.Chain

/-!
# UTF-8, with replacement

A text as the bytes a file holds, and the decoder that turns bytes back into a text.  The decoder is
the standard's: a byte that does not continue the character in progress ends it with `U+FFFD` and is
read afresh.  Bytes are numbers.

* **`decode_encode`** — the bytes of a text decode to that text;
* `decodeChunk` — the decoder as it is fed chunk by chunk, the character in progress kept between them;
* **`decodeChunk_received`** — of a text that has not arrived in full, the longest part whose bytes have;
* **`decode_newline`** — the decoder starts afresh after a newline;
* **`decode_single`**, `single_of_decode` — the bytes that may be decoded one by one.
-/

namespace Utf8

/-- The bytes of a character. -/
def encodeChar (c : Char) : List Nat :=
  let n := c.toNat
  if n < 0x80 then [n]
  else if n < 0x800 then [0xC0 + n / 0x40, 0x80 + n % 0x40]
  else if n < 0x10000 then [0xE0 + n / 0x1000, 0x80 + n / 0x40 % 0x40, 0x80 + n % 0x40]
  else [0xF0 + n / 0x40000, 0x80 + n / 0x1000 % 0x40, 0x80 + n / 0x40 % 0x40, 0x80 + n % 0x40]

def encode (cs : List Char) : List Nat := cs.flatMap encodeChar

/-- A character in progress: how many bytes it still needs, the number so far, and the range of its
    next byte. -/
structure Decoder where
  needed : Nat
  codePoint : Nat
  lower : Nat
  upper : Nat

/-- Between characters. -/
def Decoder.idle : Decoder := ⟨0, 0, 0x80, 0xBF⟩

def replacement : Char := Char.ofNat 0xFFFD

/-- The first byte of a character.  The ranges of the second byte leave out overlong forms, the
    surrogates and what lies beyond the last code point. -/
def first (b : Nat) : Decoder × List Char :=
  if b < 0x80 then (.idle, [Char.ofNat b])
  else if 0xC2 ≤ b ∧ b ≤ 0xDF then (⟨1, b - 0xC0, 0x80, 0xBF⟩, [])
  else if 0xE0 ≤ b ∧ b ≤ 0xEF then
    (⟨2, b - 0xE0, if b = 0xE0 then 0xA0 else 0x80, if b = 0xED then 0x9F else 0xBF⟩, [])
  else if 0xF0 ≤ b ∧ b ≤ 0xF4 then
    (⟨3, b - 0xF0, if b = 0xF0 then 0x90 else 0x80, if b = 0xF4 then 0x8F else 0xBF⟩, [])
  else (.idle, [replacement])

def feed (d : Decoder) (b : Nat) : Decoder × List Char :=
  if d.needed = 0 then first b
  else if d.lower ≤ b ∧ b ≤ d.upper then
    let codePoint := d.codePoint * 0x40 + (b - 0x80)
    if d.needed = 1 then (.idle, [Char.ofNat codePoint]) else (⟨d.needed - 1, codePoint, 0x80, 0xBF⟩, [])
  else ((first b).1, replacement :: (first b).2)

/-- A character that the bytes end inside is replaced as well. -/
def decodeFrom (d : Decoder) : List Nat → List Char
  | [] => if d.needed = 0 then [] else [replacement]
  | b :: bs => (feed d b).2 ++ decodeFrom (feed d b).1 bs

def decode (bytes : List Nat) : List Char := decodeFrom .idle bytes

/-- `decode(bytes, { stream: true })`: the characters that are complete, and the decoder for the next chunk. -/
def decodeChunk (d : Decoder) : List Nat → Decoder × List Char
  | [] => (d, [])
  | b :: bs => ((decodeChunk (feed d b).1 bs).1, (feed d b).2 ++ (decodeChunk (feed d b).1 bs).2)

/-- A code point is below the surrogates or above them. -/
theorem codePoint_cases (c : Char) : c.toNat < 0xD800 ∨ 0xDFFF < c.toNat ∧ c.toNat < 0x110000 := by
  rcases c.valid with h | ⟨h₁, h₂⟩
  · exact .inl h
  · exact .inr ⟨h₁, h₂⟩

theorem ofNat_toNat (c : Char) : Char.ofNat c.toNat = c := Char.ofNat_toNat c

section

variable {d : Decoder} {b : Nat}

theorem feed_one (h : b < 0x80) : feed .idle b = (.idle, [Char.ofNat b]) := by
  simp only [feed, Decoder.idle, first, if_true, if_pos h]

theorem feed_two (h : 0xC2 ≤ b ∧ b ≤ 0xDF) : feed .idle b = (⟨1, b - 0xC0, 0x80, 0xBF⟩, []) := by
  have hascii : ¬ b < 0x80 := by omega
  simp only [feed, Decoder.idle, first, if_true, if_neg hascii, if_pos h]

theorem feed_three (h : 0xE0 ≤ b ∧ b ≤ 0xEF) : feed .idle b =
    (⟨2, b - 0xE0, if b = 0xE0 then 0xA0 else 0x80, if b = 0xED then 0x9F else 0xBF⟩, []) := by
  have hascii : ¬ b < 0x80 := by omega
  have htwo : ¬ (0xC2 ≤ b ∧ b ≤ 0xDF) := by omega
  simp only [feed, Decoder.idle, first, if_true, if_neg hascii, if_neg htwo, if_pos h]

theorem feed_four (h : 0xF0 ≤ b ∧ b ≤ 0xF4) : feed .idle b =
    (⟨3, b - 0xF0, if b = 0xF0 then 0x90 else 0x80, if b = 0xF4 then 0x8F else 0xBF⟩, []) := by
  have hascii : ¬ b < 0x80 := by omega
  have htwo : ¬ (0xC2 ≤ b ∧ b ≤ 0xDF) := by omega
  have hthree : ¬ (0xE0 ≤ b ∧ b ≤ 0xEF) := by omega
  simp only [feed, Decoder.idle, first, if_true, if_neg hascii, if_neg htwo, if_neg hthree, if_pos h]

theorem feed_next {k cp lower upper : Nat} (h : lower ≤ b ∧ b ≤ upper) :
    feed ⟨k + 2, cp, lower, upper⟩ b = (⟨k + 1, cp * 0x40 + (b - 0x80), 0x80, 0xBF⟩, []) := by
  have hzero : ¬ k + 2 = 0 := by omega
  have hone : ¬ k + 2 = 1 := by omega
  simp only [feed, if_neg hzero, if_pos h, if_neg hone]
  rfl

theorem feed_last {cp lower upper : Nat} (h : lower ≤ b ∧ b ≤ upper) :
    feed ⟨1, cp, lower, upper⟩ b = (.idle, [Char.ofNat (cp * 0x40 + (b - 0x80))]) := by
  simp only [feed, Nat.one_ne_zero, if_false, if_pos h, if_true]

/-- A byte that ends a character, in whatever way, gives one. -/
theorem feed_complete (h : (feed d b).1.needed = 0) : (feed d b).2 ≠ [] := by
  have hfirst : (first b).1.needed = 0 → (first b).2 ≠ [] := by
    unfold first
    repeat' split
    all_goals first | exact fun _ => List.cons_ne_nil _ _ | exact fun h => absurd h (Nat.succ_ne_zero _)
  unfold feed at h ⊢
  split
  · rename_i hidle
    rw [if_pos hidle] at h
    exact hfirst h
  · rename_i hbusy
    rw [if_neg hbusy] at h
    split
    · rename_i hrange
      rw [if_pos hrange] at h
      simp only at h ⊢
      split
      · exact List.cons_ne_nil _ _
      · rename_i hmore
        rw [if_neg hmore] at h
        have h : d.needed - 1 = 0 := h
        omega
    · exact List.cons_ne_nil _ _

end

/-! ## Chunks -/

theorem decodeChunk_append (d : Decoder) (as bs : List Nat) :
    decodeChunk d (as ++ bs) = ((decodeChunk (decodeChunk d as).1 bs).1,
      (decodeChunk d as).2 ++ (decodeChunk (decodeChunk d as).1 bs).2) := by
  induction as generalizing d with
  | nil => rfl
  | cons a as ih =>
    show ((decodeChunk (feed d a).1 (as ++ bs)).1, (feed d a).2 ++ (decodeChunk (feed d a).1 (as ++ bs)).2) = _
    rw [ih, ← List.append_assoc]
    rfl

/-- Bytes that leave the decoder between characters gave one. -/
theorem decodeChunk_complete {d : Decoder} {bs : List Nat} (hne : bs ≠ []) (h : (decodeChunk d bs).1.needed = 0) :
    (decodeChunk d bs).2 ≠ [] := by
  induction bs generalizing d with
  | nil => exact absurd rfl hne
  | cons b bs ih =>
    intro hnil
    obtain ⟨hfeed, hrest⟩ := List.append_eq_nil_iff.mp hnil
    cases bs with
    | nil => exact feed_complete h hfeed
    | cons b' bs => exact ih (List.cons_ne_nil _ _) h hrest

/-- **A character's bytes** give the character, and the decoder is between characters again. -/
theorem decodeChunk_char (c : Char) : decodeChunk .idle (encodeChar c) = (.idle, [c]) := by
  have hrange := codePoint_cases c
  have hc := ofNat_toNat c
  unfold encodeChar
  generalize c.toNat = n at hrange hc
  simp only
  split
  · rename_i h
    simp only [decodeChunk, feed_one h, hc, List.append_nil]
  split
  · have hn : (0xC0 + n / 0x40 - 0xC0) * 0x40 + (0x80 + n % 0x40 - 0x80) = n := by omega
    simp only [decodeChunk]
    rw [feed_two (by omega), feed_last (by omega), hn, hc]
    rfl
  split
  · -- the range of the second byte depends on the first one
    have hn : ((0xE0 + n / 0x1000 - 0xE0) * 0x40 + (0x80 + n / 0x40 % 0x40 - 0x80)) * 0x40 +
        (0x80 + n % 0x40 - 0x80) = n := by omega
    simp only [decodeChunk]
    rw [feed_three (by omega), feed_next (by constructor <;> split <;> omega), feed_last (by omega), hn, hc]
    rfl
  · have hn : (((0xF0 + n / 0x40000 - 0xF0) * 0x40 + (0x80 + n / 0x1000 % 0x40 - 0x80)) * 0x40 +
        (0x80 + n / 0x40 % 0x40 - 0x80)) * 0x40 + (0x80 + n % 0x40 - 0x80) = n := by omega
    simp only [decodeChunk]
    rw [feed_four (by omega), feed_next (by constructor <;> split <;> omega), feed_next (by omega),
      feed_last (by omega),
      hn, hc]
    rfl

@[simp] theorem encode_append (as bs : List Char) : encode (as ++ bs) = encode as ++ encode bs :=
  List.flatMap_append

theorem encode_cons (c : Char) (cs : List Char) : encode (c :: cs) = encodeChar c ++ encode cs := rfl

theorem decodeChunk_encode (cs : List Char) (bs : List Nat) :
    decodeChunk .idle (encode cs ++ bs) = ((decodeChunk .idle bs).1, cs ++ (decodeChunk .idle bs).2) := by
  induction cs with
  | nil => rfl
  | cons c cs ih =>
    rw [encode_cons, List.append_assoc, decodeChunk_append, decodeChunk_char, ih]
    rfl

/-- The decoder at the end of its input is the one that is fed in chunks. -/
theorem decodeFrom_append (d : Decoder) (as bs : List Nat) :
    decodeFrom d (as ++ bs) = (decodeChunk d as).2 ++ decodeFrom (decodeChunk d as).1 bs := by
  induction as generalizing d with
  | nil => rfl
  | cons a as ih =>
    show (feed d a).2 ++ decodeFrom (feed d a).1 (as ++ bs) = _
    rw [ih, ← List.append_assoc]
    rfl

/-- **The bytes of a text** decode to it. -/
theorem decode_encode (cs : List Char) : decode (encode cs) = cs := by
  have h := decodeChunk_encode cs []
  rw [List.append_nil] at h
  have hdecode := decodeFrom_append .idle (encode cs) []
  rw [List.append_nil, h] at hdecode
  rw [decode, hdecode]
  exact (List.append_nil _).trans (List.append_nil cs)

/-- Some of a character's bytes, but not all, give nothing. -/
theorem decodeChunk_part {c : Char} {as bs : List Nat} (h : as ++ bs = encodeChar c) (hne : bs ≠ []) :
    (decodeChunk .idle as).2 = [] := by
  have hchar := decodeChunk_append .idle as bs
  rw [h, decodeChunk_char] at hchar
  obtain ⟨hidle, hout⟩ := Prod.mk.inj hchar
  have hsome := decodeChunk_complete hne (by rw [← hidle]; rfl)
  cases hfirst : (decodeChunk .idle as).2 with
  | nil => rfl
  | cons x xs =>
    rw [hfirst] at hout
    exact absurd (List.append_eq_nil_iff.mp (List.cons.inj hout).2.symm).2 hsome

/-- **A text that arrives in part**: what is decoded is the longest part of it whose bytes are there. -/
theorem decodeChunk_received {text : List Char} {bytes : List Nat} (h : bytes <+: encode text) :
    ∃ rest, text = (decodeChunk .idle bytes).2 ++ rest ∧ (encode (decodeChunk .idle bytes).2).length ≤ bytes.length ∧
      ∀ got, got <+: text → (encode got).length ≤ bytes.length → got <+: (decodeChunk .idle bytes).2 := by
  induction text generalizing bytes with
  | nil =>
    obtain rfl : bytes = [] := List.prefix_nil.mp h
    exact ⟨[], rfl, Nat.le_refl _, fun got hgot _ => hgot⟩
  | cons c text ih =>
    obtain ⟨more, hmore⟩ := h
    rw [encode_cons] at hmore
    rcases List.append_eq_append_iff.mp hmore with ⟨as, hchar, hrest⟩ | ⟨bs, hbytes, hrest⟩
    · by_cases has : as = []
      · -- exactly the first character has arrived
        subst has
        rw [List.append_nil] at hchar
        have hone := decodeChunk_char c
        rw [hchar] at hone
        rw [hone]
        refine ⟨text, rfl, ?_, ?_⟩
        · show (encodeChar c ++ []).length ≤ _
          exact Nat.le_of_eq (by rw [List.append_nil, hchar])
        · intro got hgot hlen
          cases got with
          | nil => exact List.nil_prefix
          | cons g got =>
            obtain ⟨rfl, -⟩ := List.cons_prefix_cons.mp hgot
            rw [encode_cons, List.length_append, hchar] at hlen
            cases got with
            | nil => exact List.prefix_refl _
            | cons g' got =>
              have hpos : encodeChar g' ≠ [] := by
                unfold encodeChar
                simp only
                repeat' split
                all_goals exact List.cons_ne_nil _ _
              rw [encode_cons, List.length_append] at hlen
              have := List.length_pos_of_ne_nil hpos
              omega
      · have hnone := decodeChunk_part hchar.symm has
        rw [hnone]
        refine ⟨c :: text, rfl, Nat.zero_le _, ?_⟩
        intro got hgot hlen
        cases got with
        | nil => exact List.nil_prefix
        | cons g got =>
          obtain ⟨rfl, -⟩ := List.cons_prefix_cons.mp hgot
          rw [encode_cons, List.length_append, hchar, List.length_append] at hlen
          have := List.length_pos_of_ne_nil has
          omega
    · obtain ⟨rest, htext, hfit, hlongest⟩ := ih ⟨more, hrest.symm⟩
      rw [hbytes, decodeChunk_append, decodeChunk_char]
      refine ⟨rest, ?_, ?_, ?_⟩
      · show c :: text = [c] ++ (decodeChunk .idle bs).2 ++ rest
        rw [List.append_assoc, ← htext]
        rfl
      · show (encode ([c] ++ (decodeChunk .idle bs).2)).length ≤ _
        rw [encode_append, List.length_append, List.length_append]
        refine Nat.add_le_add ?_ hfit
        show (encodeChar c ++ []).length ≤ _
        exact Nat.le_of_eq (by rw [List.append_nil])
      · intro got hgot hlen
        cases got with
        | nil => exact List.nil_prefix
        | cons g got =>
          obtain ⟨rfl, htail⟩ := List.cons_prefix_cons.mp hgot
          rw [encode_cons, List.length_append, List.length_append] at hlen
          exact List.cons_prefix_cons.mpr ⟨rfl, hlongest got htail (by omega)⟩

/-! ## Newlines

The byte of a newline is never part of another character, so a newline in the bytes is one in the text
and the decoder starts afresh after it. -/

/-- A character in progress will not come out below `U+0080`, and does not go on with an ASCII byte. -/
def Decoder.Minimal (d : Decoder) : Prop :=
  d.needed = 0 ∨ (0x80 ≤ d.lower ∧ (d.needed = 1 → 2 ≤ d.codePoint) ∧
    (2 ≤ d.needed → 2 ≤ d.codePoint * 0x40 + (d.lower - 0x80)))

theorem first_minimal (b : Nat) : (first b).1.Minimal := by
  unfold first
  split
  · exact .inl rfl
  split
  · exact .inr ⟨Nat.le_refl _, fun _ => by simp only; omega, fun h => absurd (show 2 ≤ 1 from h) (by decide)⟩
  split
  · refine .inr ⟨?_, fun h => absurd (show 2 = 1 from h) (by decide), fun _ => ?_⟩
    · simp only
      split <;> omega
    · simp only
      split <;> omega
  split
  · refine .inr ⟨?_, fun h => absurd (show 3 = 1 from h) (by decide), fun _ => ?_⟩
    · simp only
      split <;> omega
    · simp only
      split <;> omega
  · exact .inl rfl

theorem feed_minimal {d : Decoder} (h : d.Minimal) (b : Nat) : (feed d b).1.Minimal := by
  unfold feed
  split
  · exact first_minimal b
  · rename_i hbusy
    obtain ⟨hlower, -, hmore⟩ := h.resolve_left hbusy
    split
    · dsimp only
      split
      · exact .inl rfl
      · rename_i hrange hone
        have := hmore (by omega)
        exact .inr ⟨Nat.le_refl _, fun _ => by simp only; omega, fun _ => by simp only; omega⟩
    · exact first_minimal b

theorem ofNat_eq_newline {n : Nat} (h : Char.ofNat n = '\n') : n = 10 := by
  unfold Char.ofNat at h
  by_cases hvalid : n.isValidChar
  · rw [dif_pos hvalid] at h
    exact congrArg Char.toNat h
  · rw [dif_neg hvalid] at h
    exact absurd h (by decide)

theorem first_no_newline {b : Nat} (hb : b ≠ 10) : '\n' ∉ (first b).2 := by
  unfold first
  repeat' split
  all_goals first
    | exact List.not_mem_nil
    | (intro hin
       first
         | exact hb (ofNat_eq_newline (List.mem_singleton.mp hin).symm)
         | exact absurd (List.mem_singleton.mp hin) (by decide))

theorem feed_no_newline {d : Decoder} (h : d.Minimal) {b : Nat} (hb : b ≠ 10) : '\n' ∉ (feed d b).2 := by
  unfold feed
  split
  · exact first_no_newline hb
  · rename_i hbusy
    obtain ⟨hlower, hone, -⟩ := h.resolve_left hbusy
    split
    · dsimp only
      split
      · rename_i hrange hlast
        intro hin
        have hcode := ofNat_eq_newline (List.mem_singleton.mp hin).symm
        have := hone hlast
        omega
      · exact List.not_mem_nil
    · intro hin
      rcases List.mem_cons.mp hin with hrep | hin
      · exact absurd hrep (by decide)
      · exact first_no_newline hb hin

theorem decodeFrom_no_newline {d : Decoder} (h : d.Minimal) {bs : List Nat} (hbs : 10 ∉ bs) :
    '\n' ∉ decodeFrom d bs := by
  induction bs generalizing d with
  | nil =>
    show '\n' ∉ if d.needed = 0 then [] else [replacement]
    split
    · exact List.not_mem_nil
    · exact fun hin => absurd (List.mem_singleton.mp hin) (by decide)
  | cons b bs ih =>
    rw [List.mem_cons, not_or] at hbs
    intro hin
    rcases List.mem_append.mp hin with hin | hin
    · exact feed_no_newline h (fun heq => hbs.1 heq.symm) hin
    · exact ih (feed_minimal h b) hbs.2 hin

/-- **A text without the newline byte** has no newline. -/
theorem decode_no_newline {bs : List Nat} (hbs : 10 ∉ bs) : '\n' ∉ decode bs := decodeFrom_no_newline (.inl rfl) hbs

theorem decodeFrom_newline {d : Decoder} (h : d.Minimal) (as bs : List Nat) :
    decodeFrom d (as ++ 10 :: bs) = decodeFrom d as ++ '\n' :: decode bs := by
  induction as generalizing d with
  | nil =>
    show (feed d 10).2 ++ decodeFrom (feed d 10).1 bs = (if d.needed = 0 then [] else [replacement]) ++
      '\n' :: decode bs
    unfold feed
    split
    · rfl
    · rename_i hbusy
      obtain ⟨hlower, -⟩ := h.resolve_left hbusy
      rw [if_neg (by omega)]
      rfl
  | cons a as ih =>
    show (feed d a).2 ++ decodeFrom (feed d a).1 (as ++ 10 :: bs) = (feed d a).2 ++ decodeFrom (feed d a).1 as ++ _
    rw [ih (feed_minimal h a), List.append_assoc]

/-- **The decoder starts afresh after a newline.** -/
theorem decode_newline (as bs : List Nat) : decode (as ++ 10 :: bs) = decode as ++ '\n' :: decode bs :=
  decodeFrom_newline (.inl rfl) as bs

/-! ## Single bytes -/

/-- What a byte on its own decodes to. -/
def byteChar (b : Nat) : Char := if b < 0x80 then Char.ofNat b else replacement

/-- The second byte goes on with the character that the first one begins. -/
def Begins (x y : Nat) : Prop := (first x).1.needed ≠ 0 ∧ (first x).1.lower ≤ y ∧ y ≤ (first x).1.upper

/-- Bytes of which none goes on with a character. -/
def Single (bs : List Nat) : Prop := bs.IsChain fun x y => ¬ Begins x y

/-- A first byte is a character, or begins one. -/
theorem first_cases (b : Nat) :
    first b = (.idle, [byteChar b]) ∨ ((first b).1.needed ≠ 0 ∧ (first b).2 = [] ∧ byteChar b = replacement) := by
  unfold byteChar
  by_cases hb : b < 0x80
  · rw [if_pos hb]
    exact .inl (if_pos hb)
  · rw [if_neg hb]
    unfold first
    rw [if_neg hb]
    split
    · exact .inr ⟨Nat.one_ne_zero, rfl, rfl⟩
    split
    · exact .inr ⟨Nat.succ_ne_zero 1, rfl, rfl⟩
    split
    · exact .inr ⟨Nat.succ_ne_zero 2, rfl, rfl⟩
    · exact .inl rfl

theorem decode_byte (b : Nat) : decode [b] = [byteChar b] := by
  show (first b).2 ++ decodeFrom (first b).1 [] = _
  rcases first_cases b with h | ⟨hneeded, hnone, hchar⟩
  · rw [h]
    rfl
  · rw [hnone, hchar]
    exact if_neg hneeded

/-- **Single bytes decode one by one.** -/
theorem decode_single {bs : List Nat} (h : Single bs) : decode bs = bs.map byteChar := by
  induction bs with
  | nil => rfl
  | cons x bs ih =>
    have htail := ih h.tail
    show (first x).2 ++ decodeFrom (first x).1 bs = _
    rcases first_cases x with hone | ⟨hneeded, hnone, hchar⟩
    · rw [hone, List.map_cons, ← htail]
      rfl
    · rw [hnone, List.map_cons, hchar, ← htail]
      cases bs with
      | nil => exact if_neg hneeded
      | cons y bs =>
        -- the byte does not go on with the character, which is replaced
        have hnot : ¬ Begins x y := (List.isChain_cons_cons.mp h).1
        have hrange : ¬ ((first x).1.lower ≤ y ∧ y ≤ (first x).1.upper) := fun hr => hnot ⟨hneeded, hr⟩
        show (feed (first x).1 y).2 ++ decodeFrom (feed (first x).1 y).1 bs =
          replacement :: ((first y).2 ++ decodeFrom (first y).1 bs)
        unfold feed
        rw [if_neg hneeded, if_neg hrange]
        rfl

/-- A decoder gives at most one character a byte, and one more for a character in progress; it gives
    that many only when no byte goes on with a character. -/
theorem length_decodeFrom (d : Decoder) (bs : List Nat) :
    (decodeFrom d bs).length ≤ bs.length + (if d.needed = 0 then 0 else 1) ∧
      ((decodeFrom d bs).length = bs.length + (if d.needed = 0 then 0 else 1) →
        Single bs ∧ (d.needed ≠ 0 → ∀ y ∈ bs.head?, ¬ (d.lower ≤ y ∧ y ≤ d.upper))) := by
  induction bs generalizing d with
  | nil =>
    refine ⟨?_, fun _ => ⟨List.isChain_nil, fun _ y hy => nomatch hy⟩⟩
    show (if d.needed = 0 then [] else [replacement]).length ≤ _
    split <;> exact Nat.le_refl _
  | cons x bs ih =>
    -- a decoder between characters
    have hidle : (decodeFrom .idle (x :: bs)).length ≤ bs.length + 1 ∧
        ((decodeFrom .idle (x :: bs)).length = bs.length + 1 → Single (x :: bs)) := by
      have hshow : decodeFrom .idle (x :: bs) = (first x).2 ++ decodeFrom (first x).1 bs := rfl
      rw [hshow, List.length_append]
      rcases first_cases x with hone | ⟨hneeded, hnone, -⟩
      · rw [hone]
        obtain ⟨hle, heq⟩ := ih .idle
        have hle : (decodeFrom .idle bs).length ≤ bs.length := hle
        refine ⟨by simp only [List.length_singleton]; omega, fun h => ?_⟩
        simp only [List.length_singleton] at h
        refine List.isChain_cons.mpr ⟨fun y _ hbegins => ?_, (heq (by show _ = bs.length; omega)).1⟩
        obtain ⟨hbusy, -⟩ := hbegins
        rw [hone] at hbusy
        exact hbusy rfl
      · obtain ⟨hle, heq⟩ := ih (first x).1
        rw [if_neg hneeded] at hle heq
        rw [hnone]
        refine ⟨by simp only [List.length_nil]; omega, fun h => ?_⟩
        simp only [List.length_nil, Nat.zero_add] at h
        obtain ⟨hsingle, hhead⟩ := heq h
        exact List.isChain_cons.mpr ⟨fun y hy hbegins => hhead hneeded y hy hbegins.2, hsingle⟩
    by_cases hzero : d.needed = 0
    · have hsame : decodeFrom d (x :: bs) = decodeFrom .idle (x :: bs) := by
        show (feed d x).2 ++ decodeFrom (feed d x).1 bs = (first x).2 ++ decodeFrom (first x).1 bs
        unfold feed
        rw [if_pos hzero]
      rw [if_pos hzero, hsame]
      exact ⟨hidle.1, fun h => ⟨hidle.2 h, fun hbusy => absurd hzero hbusy⟩⟩
    · rw [if_neg hzero]
      by_cases hrange : d.lower ≤ x ∧ x ≤ d.upper
      · -- the byte goes on with the character: one byte is short of a character of its own
        have hshort : (decodeFrom d (x :: bs)).length ≤ bs.length + 1 := by
          show ((feed d x).2 ++ decodeFrom (feed d x).1 bs).length ≤ _
          unfold feed
          rw [if_neg hzero, if_pos hrange, List.length_append]
          dsimp only
          split
          · have hle : (decodeFrom .idle bs).length ≤ bs.length := (ih .idle).1
            simp only [List.length_singleton]
            omega
          · have hle := (ih ⟨d.needed - 1, d.codePoint * 0x40 + (x - 0x80), 0x80, 0xBF⟩).1
            split at hle
            · simp only [List.length_nil]
              omega
            · simp only [List.length_nil]
              omega
        simp only [List.length_cons]
        exact ⟨by omega, fun h => absurd h (by omega)⟩
      · have hsame : decodeFrom d (x :: bs) = replacement :: decodeFrom .idle (x :: bs) := by
          show (feed d x).2 ++ decodeFrom (feed d x).1 bs = replacement :: ((first x).2 ++ decodeFrom (first x).1 bs)
          unfold feed
          rw [if_neg hzero, if_neg hrange]
          rfl
        rw [hsame]
        simp only [List.length_cons]
        refine ⟨by omega, fun h => ⟨hidle.2 (by omega), fun _ y hy => ?_⟩⟩
        obtain rfl : x = y := Option.some.inj hy
        exact hrange

/-- Only single bytes decode one by one. -/
theorem single_of_decode {bs : List Nat} (h : decode bs = bs.map byteChar) : Single bs := by
  refine ((length_decodeFrom .idle bs).2 ?_).1
  have hlen := congrArg List.length h
  rw [List.length_map] at hlen
  exact hlen

end Utf8
