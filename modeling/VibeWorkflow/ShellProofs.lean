import Mathlib.Algebra.Order.BigOperators.Group.List
import Mathlib.Algebra.Order.Ring.Nat

/-!
# Plain words of a shell command line

A command line as a POSIX shell reads it: blanks between words, quoting, comments, operators, expansions.
`plainWords` gives the words of a line that is one simple command of plain words, and nothing when the line
holds an operator, an expansion or a quote that is not closed.

* **`lex_weight`** — the words are never longer than the line, and as long only on a line without quoting;
* **`plainWords_join_iff`** — words joined by blanks are the words of the line just when each is ordinary.
-/

namespace Shell

abbrev Text := List Char

def isBlank (c : Char) : Bool := c == ' ' || c == '\t'

/-- Unquoted, these are operators or parts of them, or begin an expansion. -/
def isSpecial (c : Char) : Bool := "\n|&;<>()$\x60*?[".toList.contains c

def isQuote (c : Char) : Bool := c == '\'' || c == '"' || c == '\\'

/-- At the beginning of a word, a comment or a home directory. -/
def isLeading (c : Char) : Bool := c == '#' || c == '~'

inductive Mode where
  | plain | single | double

/-- One more character of the word in progress. -/
def grow (word : Option Text) (c : Char) : Option Text := some (word.getD [] ++ [c])

/-- A quote begins a word, if only an empty one. -/
def touch (word : Option Text) : Option Text := some (word.getD [])

/-- The words of a line, from the word in progress. -/
def lex : Mode → Option Text → Text → Option (List Text)
  | .plain, word, [] => some word.toList
  | .plain, word, '\\' :: d :: line => if d = '\n' then lex .plain word line else lex .plain (grow word d) line
  | .plain, word, c :: line =>
    if isBlank c then (lex .plain none line).map fun words => word.toList ++ words
    else if isSpecial c then none
    else if c = '\'' then lex .single (touch word) line
    else if c = '"' then lex .double (touch word) line
    else if c = '\\' then none
    else if word.isNone && c == '#' then if '\n' ∈ line then none else some []
    else if word.isNone && c == '~' then none
    else lex .plain (grow word c) line
  | .single, _, [] => none
  | .single, word, c :: line => if c = '\'' then lex .plain word line else lex .single (grow word c) line
  | .double, _, [] => none
  | .double, word, '\\' :: d :: line =>
    if d = '\n' then lex .double word line
    else if "$\x60\"\\".toList.contains d then lex .double (grow word d) line
    else lex .double (grow (grow word '\\') d) line
  | .double, word, c :: line =>
    if c = '"' then lex .plain word line
    else if "$\x60".toList.contains c then none
    else lex .double (grow word c) line

/-- The words of a line that is one simple command of plain words. -/
def plainWords (line : Text) : Option (List Text) := lex .plain none line

/-- A character that stands for itself anywhere in a word. -/
def Ordinary (c : Char) : Prop := isBlank c = false ∧ isSpecial c = false ∧ isQuote c = false

/-- A word that stands for itself. -/
def OrdinaryWord (w : Text) : Prop := (∀ c ∈ w, Ordinary c) ∧ ∃ c t, w = c :: t ∧ isLeading c = false

/-- The room words take on a line, with a blank after each. -/
def weight (words : List Text) : Nat := (words.map fun w => w.length + 1).sum

def blanks (line : Text) : Nat := line.countP isBlank

def wordLength (word : Option Text) : Nat := (word.getD []).length

theorem weight_cons (w : Text) (words : List Text) : weight (w :: words) = w.length + 1 + weight words := rfl

@[simp] theorem wordLength_none : wordLength none = 0 := rfl
@[simp] theorem wordLength_some (w : Text) : wordLength (some w) = w.length := rfl

@[simp] theorem wordLength_grow (word : Option Text) (c : Char) : wordLength (grow word c) = wordLength word + 1 := by
  show (word.getD [] ++ [c]).length = _
  rw [List.length_append]
  rfl

@[simp] theorem wordLength_touch (word : Option Text) : wordLength (touch word) = wordLength word := rfl

/-- A quote that is open costs the character that closes it. -/
def Mode.pending : Mode → Nat
  | .plain => 0
  | .single | .double => 1

/-- **The words fit the line**, and fill it only when nothing in it is quoted and one blank stands between
    two words. -/
theorem lex_weight {m : Mode} {word : Option Text} {line : Text} {words : List Text}
    (h : lex m word line = some words) :
    weight words + m.pending ≤ line.length + 1 + wordLength word ∧
      (weight words = line.length + 1 + wordLength word →
        (∀ c ∈ line, isSpecial c = false ∧ isQuote c = false) ∧ blanks line + 1 = words.length) := by
  fun_induction lex m word line generalizing words with
  | case1 word =>
    rw [← Option.some.inj h]
    cases word with
    | none => exact ⟨Nat.zero_le 1, fun heq => absurd heq (by simp [weight])⟩
    | some w =>
      refine ⟨Nat.le_of_eq ?_, fun _ => ⟨fun c hc => (nomatch hc), rfl⟩⟩
      simp only [weight, Mode.pending, Option.toList_some, List.map_cons, List.map_nil, List.sum_cons, List.sum_nil,
        List.length_nil, wordLength_some]
      omega
  | case4 word c line _ hblank ih =>
    obtain ⟨words', hwords', rfl⟩ := Option.map_eq_some_iff.mp h
    obtain ⟨hle, heq⟩ := ih hwords'
    simp only [Mode.pending, wordLength_none, List.length_cons] at hle heq ⊢
    cases word with
    | none =>
      simp only [Option.toList_none, List.nil_append, wordLength_none]
      exact ⟨by omega, fun hsame => absurd hsame (by omega)⟩
    | some w =>
      simp only [Option.toList_some, List.singleton_append, weight_cons, wordLength_some, List.length_cons]
      refine ⟨by omega, fun hsame => ?_⟩
      obtain ⟨hplain, hcount⟩ := heq (by omega)
      refine ⟨?_, ?_⟩
      · intro d hd
        rcases List.mem_cons.mp hd with rfl | hd
        · -- a blank is neither special nor a quote
          unfold isBlank at hblank
          rcases Bool.or_eq_true_iff.mp hblank with hd | hd <;> rw [eq_of_beq hd] <;> exact ⟨by decide, by decide⟩
        · exact hplain d hd
      · unfold blanks at hcount ⊢
        rw [List.countP_cons_of_pos hblank, hcount]
  | case10 =>
    rw [← Option.some.inj h]
    simp only [weight, Mode.pending, List.map_nil, List.sum_nil, List.length_cons]
    exact ⟨by omega, fun hsame => absurd hsame (by omega)⟩
  | case12 word c line _ hblank hspecial hsingle hdouble hescape hcomment htilde ih =>
    obtain ⟨hle, heq⟩ := ih h
    simp only [wordLength_grow, Mode.pending, List.length_cons] at hle heq ⊢
    refine ⟨by omega, fun hsame => ?_⟩
    obtain ⟨hplain, hcount⟩ := heq (by omega)
    refine ⟨?_, ?_⟩
    · intro d hd
      rcases List.mem_cons.mp hd with rfl | hd
      · refine ⟨Bool.eq_false_iff.mpr hspecial, ?_⟩
        unfold isQuote
        simp [hsingle, hdouble, hescape]
      · exact hplain d hd
    · unfold blanks at hcount ⊢
      rw [List.countP_cons_of_neg hblank, hcount]
  | _ =>
    -- whatever is quoted or escaped leaves room on the line; the other branches give no words
    first
      | (rename_i ih
         obtain ⟨hle, -⟩ := ih h
         simp only [wordLength_grow, wordLength_touch, Mode.pending, List.length_cons] at hle ⊢
         exact ⟨by omega, fun hsame => absurd hsame (by omega)⟩)
      | exact nomatch h

/-! ## Ordinary words -/

theorem ordinaryWord_of_all {w : Text} (h : w.all (fun c => !(isBlank c || isSpecial c || isQuote c)) = true)
    (hlead : w.head?.any (fun c => !isLeading c) = true) : OrdinaryWord w := by
  constructor
  · intro c hc
    have hplain := List.all_eq_true.mp h c hc
    rw [Bool.not_eq_true', Bool.or_eq_false_iff, Bool.or_eq_false_iff] at hplain
    exact ⟨hplain.1.1, hplain.1.2, hplain.2⟩
  · cases w with
    | nil => exact nomatch hlead
    | cons c t => exact ⟨c, t, rfl, (Bool.not_eq_true' _).mp hlead⟩

/-- Words with a blank between them. -/
def join (words : List Text) : Text := [' '].intercalate words

theorem join_cons (w : Text) {words : List Text} (h : words ≠ []) : join (w :: words) = w ++ ' ' :: join words := by
  unfold join
  rw [List.intercalate_cons_of_ne_nil h, List.append_assoc]
  rfl

theorem join_singleton (w : Text) : join [w] = w := List.intercalate_singleton

/-- An ordinary character goes into the word, unless it leads one. -/
theorem lex_cons {c : Char} (h : Ordinary c) {word : Option Text} (hword : word.isNone = true → isLeading c = false)
    (line : Text) : lex .plain word (c :: line) = lex .plain (grow word c) line := by
  obtain ⟨hblank, hspecial, hquote⟩ := h
  unfold isQuote at hquote
  simp only [Bool.or_eq_false_iff, beq_eq_false_iff_ne] at hquote
  obtain ⟨⟨hsingle, hdouble⟩, hescape⟩ := hquote
  rw [lex, hblank, hspecial]
  · rw [if_neg Bool.false_ne_true, if_neg Bool.false_ne_true, if_neg hsingle, if_neg hdouble,
      if_neg hescape, if_neg, if_neg]
    · intro htilde
      obtain ⟨hnone, heq⟩ := Bool.and_eq_true_iff.mp htilde
      have hlead := hword hnone
      unfold isLeading at hlead
      rw [heq, Bool.or_true] at hlead
      exact nomatch hlead
    · intro hhash
      obtain ⟨hnone, heq⟩ := Bool.and_eq_true_iff.mp hhash
      have hlead := hword hnone
      unfold isLeading at hlead
      rw [heq] at hlead
      exact nomatch hlead
  · intro d line' hc
    exact absurd hc hescape

theorem lex_ordinary {w : Text} (h : ∀ c ∈ w, Ordinary c) (acc line : Text) :
    lex .plain (some acc) (w ++ line) = lex .plain (some (acc ++ w)) line := by
  induction w generalizing acc with
  | nil => rw [List.append_nil]; rfl
  | cons c w ih =>
    rw [List.cons_append, @lex_cons c (h c List.mem_cons_self) (some acc) (fun hnone => nomatch hnone)]
    show lex .plain (some (acc ++ [c])) (w ++ line) = _
    rw [ih fun d hd => h d (List.mem_cons_of_mem _ hd), List.append_assoc]
    rfl

theorem lex_word {w : Text} (h : OrdinaryWord w) (line : Text) :
    lex .plain none (w ++ line) = lex .plain (some w) line := by
  obtain ⟨hall, c, t, rfl, hlead⟩ := h
  rw [List.cons_append, lex_cons (hall c List.mem_cons_self) (fun _ => hlead)]
  exact lex_ordinary (fun d hd => hall d (List.mem_cons_of_mem _ hd)) [c] line

theorem lex_blank (word : Option Text) (line : Text) :
    lex .plain word (' ' :: line) = (lex .plain none line).map fun words => word.toList ++ words := by
  rw [lex]
  · exact if_pos rfl
  · intro d line' hc
    exact absurd hc (by decide)

/-- **Ordinary words are taken as they are.** -/
theorem plainWords_join {words : List Text} (hne : words ≠ []) (h : ∀ w ∈ words, OrdinaryWord w) :
    plainWords (join words) = some words := by
  unfold plainWords
  induction words with
  | nil => exact absurd rfl hne
  | cons w words ih =>
    have hw := h w List.mem_cons_self
    by_cases hnil : words = []
    · subst hnil
      have hword := lex_word hw []
      rw [List.append_nil] at hword
      rw [join_singleton, hword, lex]
      rfl
    · rw [join_cons w hnil, lex_word hw, lex_blank, ih hnil fun v hv => h v (List.mem_cons_of_mem _ hv)]
      rfl

theorem length_join {words : List Text} (hne : words ≠ []) : (join words).length + 1 = weight words := by
  induction words with
  | nil => exact absurd rfl hne
  | cons w words ih =>
    by_cases hnil : words = []
    · subst hnil
      rw [join_singleton]
      rfl
    · rw [join_cons w hnil, List.length_append, List.length_cons, weight_cons, ← ih hnil]
      omega

theorem blanks_join {words : List Text} (hne : words ≠ []) :
    blanks (join words) + 1 = words.length + (words.map blanks).sum := by
  induction words with
  | nil => exact absurd rfl hne
  | cons w words ih =>
    by_cases hnil : words = []
    · subst hnil
      rw [join_singleton]
      simp only [List.length_cons, List.length_nil, List.map_cons, List.map_nil, List.sum_cons, List.sum_nil]
      omega
    · have htail := ih hnil
      rw [join_cons w hnil]
      unfold blanks at htail ⊢
      rw [List.countP_append, List.countP_cons_of_pos rfl, List.length_cons, List.map_cons, List.sum_cons]
      omega

theorem mem_join {words : List Text} {w : Text} (hw : w ∈ words) {c : Char} (hc : c ∈ w) : c ∈ join words := by
  induction words with
  | nil => exact nomatch hw
  | cons v words ih =>
    by_cases hnil : words = []
    · subst hnil
      rw [join_singleton]
      obtain rfl := List.mem_singleton.mp hw
      exact hc
    · rw [join_cons v hnil, List.mem_append]
      rcases List.mem_cons.mp hw with rfl | hw
      · exact .inl hc
      · exact .inr (List.mem_cons_of_mem _ (ih hw))

/-- What comes out as it went in has its words begin like words. -/
theorem leads_of_plainWords {words : List Text} (hall : ∀ w ∈ words, ∀ c ∈ w, Ordinary c) (hne : words ≠ [])
    (h : plainWords (join words) = some words) : ∀ w ∈ words, OrdinaryWord w := by
  unfold plainWords at h
  induction words with
  | nil => exact absurd rfl hne
  | cons w words ih =>
    have hroom := length_join hne
    -- the first word has a first character, and it leads nothing
    have hw : OrdinaryWord w := by
      refine ⟨hall w List.mem_cons_self, ?_⟩
      cases w with
      | nil =>
        exfalso
        by_cases hnil : words = []
        · subst hnil
          rw [join_singleton, lex] at h
          exact nomatch Option.some.inj h
        · rw [join_cons [] hnil, List.nil_append, lex_blank] at h
          obtain ⟨words', hwords', heq⟩ := Option.map_eq_some_iff.mp h
          have hle := (lex_weight hwords').1
          rw [show words' = [] :: words from heq] at hle
          rw [join_cons [] hnil, List.nil_append, List.length_cons] at hroom
          simp only [wordLength_none, Mode.pending] at hle
          omega
      | cons c t =>
        refine ⟨c, t, rfl, ?_⟩
        have hc := hall (c :: t) List.mem_cons_self c List.mem_cons_self
        obtain ⟨rest, hjoin⟩ : ∃ rest, join ((c :: t) :: words) = c :: rest := by
          by_cases hnil : words = []
          · subst hnil
            exact ⟨t, join_singleton _⟩
          · exact ⟨_, join_cons _ hnil⟩
        rw [hjoin] at h
        by_contra hlead
        obtain hlead | hlead := Bool.or_eq_true_iff.mp (Bool.not_eq_false _ ▸ hlead)
        · rw [eq_of_beq hlead, lex] at h
          · by_cases hnewline : '\n' ∈ rest
            · simp [isBlank, isSpecial, hnewline] at h
            · simp [isBlank, isSpecial, hnewline] at h
          · intro d line' hd
            exact absurd hd (by decide)
        · rw [eq_of_beq hlead, lex] at h
          · simp [isBlank, isSpecial] at h
          · intro d line' hd
            exact absurd hd (by decide)
    intro v hv
    rcases List.mem_cons.mp hv with rfl | hv
    · exact hw
    · have hnil : words ≠ [] := List.ne_nil_of_mem hv
      rw [join_cons w hnil, lex_word hw, lex_blank] at h
      obtain ⟨words', hwords', heq⟩ := Option.map_eq_some_iff.mp h
      obtain rfl : words' = words := (List.cons.inj heq).2
      exact ih (fun u hu => hall u (List.mem_cons_of_mem _ hu)) hnil hwords' v hv

/-- **A LINE OF WORDS**: joined by blanks, words are the words of the line just when each stands for
    itself. -/
theorem plainWords_join_iff {words : List Text} (hne : words ≠ []) :
    plainWords (join words) = some words ↔ ∀ w ∈ words, OrdinaryWord w := by
  refine ⟨fun h => ?_, plainWords_join hne⟩
  have hroom := length_join hne
  have hfull : weight words = (join words).length + 1 + wordLength none := hroom.symm
  obtain ⟨hplain, hcount⟩ := (lex_weight h).2 hfull
  refine leads_of_plainWords ?_ hne h
  intro w hw c hc
  obtain ⟨hspecial, hquote⟩ := hplain c (mem_join hw hc)
  refine ⟨?_, hspecial, hquote⟩
  -- the blanks of the line are those between the words
  have hsum : (words.map blanks).sum = 0 := by
    have := blanks_join hne
    omega
  have hzero : blanks w = 0 :=
    Nat.le_zero.mp (hsum ▸ List.le_sum_of_mem (List.mem_map.mpr ⟨w, hw, rfl⟩))
  exact Bool.eq_false_iff.mpr (List.countP_eq_zero.mp hzero c hc)

end Shell
