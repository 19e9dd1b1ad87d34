import Mathlib.Data.List.Basic

/-!
# Patterns and replacement

The part of regular expressions that a table of replacement rules needs: a pattern is a sequence of
atoms, tried from left to right with backtracking, each atom giving its ways to match in the order in
which a greedy matcher tries them.

* `matchesOf`, `Rule.find`, `Rule.replaceAll` — the matches of a pattern, and what a rule makes of a text;
* **`Rule.replaceAll_fixed`** — a rule with a word that the text's alphabet cannot spell leaves the text.
-/

namespace Patterns

abbrev Text := List Char

/-- `[A-Za-z0-9_]`. -/
def isWord (c : Char) : Bool := c.isAlphanum || c == '_'

/-- A class, at least so many of a class, one of some words (up to case if `fold`), a word boundary. -/
inductive Atom where
  | one (p : Char → Bool)
  | many (min : Nat) (p : Char → Bool)
  | alts (fold : Bool) (words : List String)
  | boundary

def same (fold : Bool) (a b : Char) : Bool := if fold then a.toLower == b.toLower else a == b

/-- The word at the start of a text, and what follows it. -/
def stripWord (fold : Bool) : Text → Text → Option (Text × Text)
  | [], s => some ([], s)
  | _ :: _, [] => none
  | w :: ws, c :: cs => if same fold w c then (stripWord fold ws cs).map fun m => (c :: m.1, m.2) else none

/-- The ways in which an atom matches at the start of a text, given the character before it. -/
def Atom.ways : Atom → Option Char → Text → List (Text × Text)
  | .one _, _, [] => []
  | .one p, _, c :: cs => if p c then [([c], cs)] else []
  | .many min p, _, s =>
    ((List.range ((s.takeWhile p).length + 1)).reverse.filter (min ≤ ·)).map fun k => (s.take k, s.drop k)
  | .alts fold words, _, s => words.filterMap fun w => stripWord fold w.toList s
  | .boundary, before, s => if before.any isWord != s.head?.any isWord then [([], s)] else []

/-- The character before what follows a match. -/
def lastOf (before : Option Char) (matched : Text) : Option Char := matched.getLast?.or before

/-- The matches of a pattern at the start of a text, in the order in which they are tried. -/
def matchesOf : List Atom → Option Char → Text → List (Text × Text)
  | [], _, s => [([], s)]
  | a :: rest, before, s =>
    (a.ways before s).flatMap fun m => (matchesOf rest (lastOf before m.1) m.2).map fun n => (m.1 ++ n.1, n.2)

/-- A rule keeps what its first part matches, and puts a mark in the place of what the second one does. -/
structure Rule where
  kept : List Atom
  dropped : List Atom
  suffix : String

/-- The first match: what is kept, what is dropped, and what follows. -/
def Rule.find (r : Rule) (before : Option Char) (s : Text) : Option (Text × Text × Text) :=
  (matchesOf r.kept before s).findSome? fun k =>
    (matchesOf r.dropped (lastOf before k.1) k.2).head?.map fun d => (k.1, d.1, d.2)

/-- Every match from here on is replaced; a match is looked for at each place in turn. -/
def Rule.replaceFrom (r : Rule) (mark : Text) : Nat → Option Char → Text → Text
  | 0, _, s => s
  | _ + 1, _, [] => []
  | n + 1, before, c :: cs =>
    match r.find before (c :: cs) with
    | some (kept, dropped, rest) =>
      kept ++ mark ++ r.suffix.toList ++ r.replaceFrom mark n (lastOf before (kept ++ dropped)) rest
    | none => c :: r.replaceFrom mark n (some c) cs

def Rule.replaceAll (r : Rule) (mark : Text) (s : Text) : Text := r.replaceFrom mark s.length none s

/-! ## Texts that a rule leaves -/

/-- No word of the atom can be spelled with the alphabet. -/
def Atom.alien (alphabet : Text) : Atom → Bool
  | .alts fold words => words.all fun w => w.toList.any fun c => alphabet.all fun a => !same fold c a
  | _ => false

def Rule.alien (alphabet : Text) (r : Rule) : Bool := (r.kept ++ r.dropped).any (Atom.alien alphabet)

def Over (alphabet s : Text) : Prop := ∀ c ∈ s, c ∈ alphabet

section

variable {alphabet s : Text} {before : Option Char}

/-- A word is spelled with the characters of the text. -/
theorem stripWord_spells {fold : Bool} {w m rest : Text} (h : stripWord fold w s = some (m, rest)) :
    (∀ c ∈ w, ∃ a ∈ s, same fold c a = true) ∧ ∀ c ∈ rest, c ∈ s := by
  induction w generalizing s m rest with
  | nil =>
    obtain ⟨rfl, rfl⟩ := Prod.mk.inj (Option.some.inj h)
    exact ⟨nofun, fun c hc => hc⟩
  | cons w ws ih =>
    cases s with
    | nil => exact nomatch h
    | cons c cs =>
      unfold stripWord at h
      split at h
      · rename_i hsame
        obtain ⟨⟨m', rest'⟩, hm, heq⟩ := Option.map_eq_some_iff.mp h
        obtain ⟨-, rfl⟩ := Prod.mk.inj heq
        obtain ⟨hspells, hrest⟩ := ih hm
        refine ⟨fun x hx => ?_, fun x hx => List.mem_cons_of_mem _ (hrest x hx)⟩
        rcases List.mem_cons.mp hx with rfl | hx
        · exact ⟨c, List.mem_cons_self, hsame⟩
        · obtain ⟨a, ha, hxa⟩ := hspells x hx
          exact ⟨a, List.mem_cons_of_mem _ ha, hxa⟩
      · exact nomatch h

/-- What follows a match is a part of the text. -/
theorem ways_rest {a : Atom} {m : Text × Text} (h : m ∈ a.ways before s) : ∀ c ∈ m.2, c ∈ s := by
  cases a with
  | one p =>
    cases s with
    | nil => exact nomatch h
    | cons c cs =>
      change m ∈ (if p c then [([c], cs)] else []) at h
      split at h
      · obtain rfl := List.mem_singleton.mp h
        exact fun x hx => List.mem_cons_of_mem _ hx
      · exact nomatch h
  | many min p =>
    obtain ⟨k, -, rfl⟩ := List.mem_map.mp h
    exact fun x hx => List.mem_of_mem_drop hx
  | alts fold words =>
    obtain ⟨w, -, hw⟩ := List.mem_filterMap.mp h
    exact (stripWord_spells hw).2
  | boundary =>
    change m ∈ (if before.any isWord != s.head?.any isWord then [([], s)] else []) at h
    split at h
    · obtain rfl := List.mem_singleton.mp h
      exact fun x hx => hx
    · exact nomatch h

/-- An alien atom has no way. -/
theorem alien_ways {a : Atom} (ha : a.alien alphabet = true) (hs : Over alphabet s) : a.ways before s = [] := by
  cases a with
  | alts fold words =>
    refine List.filterMap_eq_nil_iff.mpr fun w hw => ?_
    obtain ⟨c, hc, halien⟩ := List.any_eq_true.mp (List.all_eq_true.mp ha w hw)
    cases hstrip : stripWord fold w.toList s with
    | none => rfl
    | some m =>
      obtain ⟨x, hx, hsame⟩ := (stripWord_spells hstrip).1 c hc
      have hne := List.all_eq_true.mp halien x (hs x hx)
      rw [hsame] at hne
      exact nomatch hne
  | one p => exact nomatch ha
  | many min p => exact nomatch ha
  | boundary => exact nomatch ha

/-- A pattern with an alien atom has no match. -/
theorem alien_matches {atoms : List Atom} (ha : atoms.any (Atom.alien alphabet) = true) (hs : Over alphabet s) :
    matchesOf atoms before s = [] := by
  induction atoms generalizing before s with
  | nil => exact nomatch ha
  | cons a rest ih =>
    unfold matchesOf
    rcases Bool.or_eq_true_iff.mp ha with hhead | htail
    · rw [alien_ways hhead hs]
      rfl
    · refine List.flatMap_eq_nil_iff.mpr fun m hm => ?_
      rw [ih htail (fun c hc => hs c (ways_rest hm c hc))]
      rfl

/-- What follows the match of a pattern is a part of the text. -/
theorem matchesOf_rest {atoms : List Atom} {m : Text × Text} (h : m ∈ matchesOf atoms before s) : ∀ c ∈ m.2, c ∈ s := by
  induction atoms generalizing before s m with
  | nil =>
    obtain rfl := List.mem_singleton.mp h
    exact fun c hc => hc
  | cons a rest ih =>
    obtain ⟨w, hw, hm⟩ := List.mem_flatMap.mp h
    obtain ⟨n, hn, rfl⟩ := List.mem_map.mp hm
    exact fun c hc => ways_rest hw c (ih hn c hc)

theorem alien_find {r : Rule} (hr : r.alien alphabet = true) (hs : Over alphabet s) : r.find before s = none := by
  unfold Rule.alien at hr
  rw [List.any_append] at hr
  unfold Rule.find
  rcases Bool.or_eq_true_iff.mp hr with hkept | hdropped
  · rw [alien_matches hkept hs]
    rfl
  · refine List.findSome?_eq_none_iff.mpr fun k hk => ?_
    rw [alien_matches hdropped (fun c hc => hs c (matchesOf_rest hk c hc))]
    rfl

/-- **A rule leaves a text** whose alphabet cannot spell one of its words. -/
theorem Rule.replaceAll_fixed {r : Rule} (hr : r.alien alphabet = true) (mark : Text) (hs : Over alphabet s) :
    r.replaceAll mark s = s := by
  unfold Rule.replaceAll
  generalize none = before
  generalize s.length = n
  induction n generalizing before s with
  | zero => rfl
  | succ n ih =>
    cases s with
    | nil => rfl
    | cons c cs =>
      unfold Rule.replaceFrom
      rw [alien_find hr hs]
      exact congrArg (c :: ·) (ih (fun x hx => hs x (List.mem_cons_of_mem _ hx)) (some c))

end

end Patterns
