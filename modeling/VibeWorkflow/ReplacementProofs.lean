import Mathlib.Data.List.Infix
import VibeWorkflow.PatternProofs

/-!
# What replacement rules do to each other's matches

A rule replaces parts of a text by a mark.  A text that shares no end with the mark and does not lie in it
stands in the output only where it stood in the input, so what is known of the sites of one rule can be
carried through the other rules.

* `Spells` — the texts that a pattern matches, and `mem_matchesOf` for patterns without a boundary;
* `Replaced`, `Scan` — an output with its input, and the same along the places at which a rule looks;
* `Clean` — every site of a text is followed by something good;
* **`Clean.replaced`**, **`Scan.clean`** — what other rules keep, and what a rule itself establishes;
* **`replaceAll_clean`** — a rule leaves a text whose matches all are the mark.
-/

namespace Patterns

/-! ## The texts of a pattern -/

def Atom.Spells : Atom → Text → Prop
  | .one p, m => ∃ c, m = [c] ∧ p c = true
  | .many min p, m => min ≤ m.length ∧ ∀ c ∈ m, p c = true
  | .alts fold words, m => ∃ w ∈ words, List.Forall₂ (fun a b => same fold a b = true) w.toList m
  | .boundary, m => m = []

/-- The text is made of what the atoms spell, in order. -/
def Spells : List Atom → Text → Prop
  | [], m => m = []
  | a :: rest, m => ∃ x y, m = x ++ y ∧ a.Spells x ∧ Spells rest y

def Atom.isBoundary : Atom → Bool
  | .boundary => true
  | _ => false

/-- No atom looks at what surrounds it. -/
def Inner (atoms : List Atom) : Prop := ∀ a ∈ atoms, a.isBoundary = false

section

variable {before : Option Char} {s m rest : Text} {p : Char → Bool}

theorem stripWord_iff {fold : Bool} {w : Text} :
    stripWord fold w s = some (m, rest) ↔ s = m ++ rest ∧ List.Forall₂ (fun a b => same fold a b = true) w m := by
  induction w generalizing s m with
  | nil =>
    constructor
    · intro h
      obtain ⟨rfl, rfl⟩ := Prod.mk.inj (Option.some.inj h)
      exact ⟨rfl, .nil⟩
    · rintro ⟨rfl, h⟩
      cases h
      rfl
  | cons a ws ih =>
    cases s with
    | nil =>
      constructor
      · exact fun h => nomatch h
      · rintro ⟨hs, h⟩
        cases h
        exact nomatch hs
    | cons c cs =>
      rw [stripWord]
      constructor
      · intro h
        split at h
        · rename_i hsame
          obtain ⟨⟨m', rest'⟩, hm, heq⟩ := Option.map_eq_some_iff.mp h
          obtain ⟨rfl, rfl⟩ := Prod.mk.inj heq
          obtain ⟨rfl, hall⟩ := ih.mp hm
          exact ⟨rfl, .cons hsame hall⟩
        · exact nomatch h
      · rintro ⟨hs, h⟩
        cases h with
        | cons hsame hall =>
          obtain ⟨rfl, hcs⟩ := List.cons.inj hs
          rw [if_pos hsame, ih.mpr ⟨hcs, hall⟩]
          rfl

/-- The ways of an atom. -/
theorem ways_spells {a : Atom} (h : (m, rest) ∈ a.ways before s) : s = m ++ rest ∧ a.Spells m := by
  cases a with
  | one p =>
    cases s with
    | nil => exact nomatch h
    | cons c cs =>
      change (m, rest) ∈ (if p c then [([c], cs)] else []) at h
      split at h
      · rename_i hc
        obtain ⟨rfl, rfl⟩ := Prod.mk.inj (List.mem_singleton.mp h)
        exact ⟨rfl, c, rfl, hc⟩
      · exact nomatch h
  | many min p =>
    obtain ⟨k, hk, heq⟩ := List.mem_map.mp h
    obtain ⟨rfl, rfl⟩ := Prod.mk.inj heq
    obtain ⟨hrange, hmin⟩ := List.mem_filter.mp hk
    have hle : k ≤ (s.takeWhile p).length := Nat.le_of_lt_succ (List.mem_range.mp (List.mem_reverse.mp hrange))
    have hlen : (s.takeWhile p).length ≤ s.length := (List.takeWhile_prefix p).length_le
    refine ⟨(List.take_append_drop k s).symm, ?_, fun c hc => ?_⟩
    · rw [List.length_take]
      exact le_min (of_decide_eq_true hmin) ((of_decide_eq_true hmin).trans (hle.trans hlen))
    · obtain ⟨t, ht⟩ := List.takeWhile_prefix (l := s) p
      rw [← ht, List.take_append_of_le_length hle] at hc
      exact List.all_eq_true.mp List.all_takeWhile c (List.mem_of_mem_take hc)
  | alts fold words =>
    obtain ⟨w, hw, hstrip⟩ := List.mem_filterMap.mp h
    obtain ⟨hs, hall⟩ := stripWord_iff.mp hstrip
    exact ⟨hs, w, hw, hall⟩
  | boundary =>
    change (m, rest) ∈ (if before.any isWord != s.head?.any isWord then [([], s)] else []) at h
    split at h
    · obtain ⟨rfl, rfl⟩ := Prod.mk.inj (List.mem_singleton.mp h)
      exact ⟨rfl, rfl⟩
    · exact nomatch h

theorem spells_ways {a : Atom} (ha : a.isBoundary = false) (h : a.Spells m) :
    (m, rest) ∈ a.ways before (m ++ rest) := by
  cases a with
  | one p =>
    obtain ⟨c, rfl, hc⟩ := h
    show ([c], rest) ∈ (if p c then [([c], rest)] else [])
    rw [if_pos hc]
    exact List.mem_singleton.mpr rfl
  | many min p =>
    obtain ⟨hmin, hall⟩ := h
    refine List.mem_map.mpr ⟨m.length, ?_, by rw [List.take_left, List.drop_left]⟩
    have hle : m.length ≤ ((m ++ rest).takeWhile p).length := by
      rw [List.takeWhile_append_of_pos hall, List.length_append]
      exact Nat.le_add_right _ _
    exact List.mem_filter.mpr
      ⟨List.mem_reverse.mpr (List.mem_range.mpr (Nat.lt_succ_of_le hle)), decide_eq_true hmin⟩
  | alts fold words =>
    obtain ⟨w, hw, hall⟩ := h
    exact List.mem_filterMap.mpr ⟨w, hw, stripWord_iff.mpr ⟨rfl, hall⟩⟩
  | boundary => exact nomatch ha

/-- A match is spelled by its pattern. -/
theorem matchesOf_spells {atoms : List Atom} (h : (m, rest) ∈ matchesOf atoms before s) :
    s = m ++ rest ∧ Spells atoms m := by
  induction atoms generalizing before s m with
  | nil =>
    obtain ⟨rfl, rfl⟩ := Prod.mk.inj (List.mem_singleton.mp h)
    exact ⟨rfl, rfl⟩
  | cons a atoms ih =>
    obtain ⟨⟨x, mid⟩, hx, hm⟩ := List.mem_flatMap.mp h
    obtain ⟨⟨y, rest'⟩, hy, heq⟩ := List.mem_map.mp hm
    obtain ⟨rfl, rfl⟩ := Prod.mk.inj heq
    obtain ⟨rfl, hspells⟩ := ways_spells hx
    obtain ⟨rfl, hrest⟩ := ih hy
    exact ⟨(List.append_assoc x y rest').symm, x, y, rfl, hspells, hrest⟩

theorem mem_atom {a : Atom} {atoms : List Atom} {x y : Text} (hx : (x, y ++ rest) ∈ a.ways before s)
    (hy : (y, rest) ∈ matchesOf atoms (lastOf before x) (y ++ rest)) :
    (x ++ y, rest) ∈ matchesOf (a :: atoms) before s :=
  List.mem_flatMap.mpr ⟨(x, y ++ rest), hx, List.mem_map.mpr ⟨(y, rest), hy, rfl⟩⟩

/-- A boundary matches nothing, between two characters of which one is a word's. -/
theorem mem_boundary {atoms : List Atom} (hne : before.any isWord ≠ (m ++ rest).head?.any isWord)
    (h : (m, rest) ∈ matchesOf atoms before (m ++ rest)) :
    (m, rest) ∈ matchesOf (.boundary :: atoms) before (m ++ rest) := by
  refine @mem_atom before (m ++ rest) rest .boundary atoms [] m ?_ h
  show ([], m ++ rest) ∈ (if before.any isWord != (m ++ rest).head?.any isWord then [([], m ++ rest)] else [])
  rw [if_pos (bne_iff_ne.mpr hne)]
  exact List.mem_singleton.mpr rfl

/-- **The matches of a pattern without a boundary** are what it spells, whatever surrounds them. -/
theorem mem_matchesOf {atoms : List Atom} (hatoms : Inner atoms) :
    (m, rest) ∈ matchesOf atoms before s ↔ s = m ++ rest ∧ Spells atoms m := by
  refine ⟨matchesOf_spells, ?_⟩
  rintro ⟨rfl, h⟩
  induction atoms generalizing before m with
  | nil =>
    obtain rfl := h
    exact List.mem_singleton.mpr rfl
  | cons a atoms ih =>
    obtain ⟨x, y, rfl, hx, hy⟩ := h
    refine mem_atom ?_ (ih (fun b hb => hatoms b (List.mem_cons_of_mem _ hb)) hy)
    rw [List.append_assoc]
    exact spells_ways (hatoms a List.mem_cons_self) hx

theorem spells_append {as bs : List Atom} : Spells (as ++ bs) m ↔ ∃ x y, m = x ++ y ∧ Spells as x ∧ Spells bs y := by
  induction as generalizing m with
  | nil =>
    constructor
    · exact fun h => ⟨[], m, rfl, rfl, h⟩
    · rintro ⟨x, y, rfl, hx, hy⟩
      obtain rfl := hx
      exact hy
  | cons a as ih =>
    constructor
    · rintro ⟨x, y, rfl, hx, hy⟩
      obtain ⟨y1, y2, rfl, hy1, hy2⟩ := ih.mp hy
      exact ⟨x ++ y1, y2, (List.append_assoc ..).symm, ⟨x, y1, rfl, hx, hy1⟩, hy2⟩
    · rintro ⟨xy, z, rfl, ⟨x, y, rfl, hx, hy⟩, hz⟩
      exact ⟨x, y ++ z, List.append_assoc .., hx, ih.mpr ⟨y, z, rfl, hy, hz⟩⟩

end

/-! ## Outputs with their inputs -/

/-- What a rule may drop: the output before the part, the part, and the input after it. -/
abbrev Drops := Text → Text → Text → Prop

/-- A text, and the same with some of its parts replaced by the mark; first the output before them. -/
inductive Replaced (D : Drops) (mark : Text) : Text → Text → Text → Prop where
  | nil {b} : Replaced D mark b [] []
  | keep {b c u v} : Replaced D mark (b ++ [c]) u v → Replaced D mark b (c :: u) (c :: v)
  | drop {b d u v} : D b d u → Replaced D mark (b ++ mark) u v → Replaced D mark b (d ++ u) (mark ++ v)

/-- The text has neither end of the mark, and does not lie in it. -/
structure Apart (mark k : Text) : Prop where
  first : ∃ c, mark.head? = some c ∧ c ∉ k
  last : ∃ c, mark.getLast? = some c ∧ c ∉ k
  inside : ¬ k <:+: mark

section

variable {D : Drops} {mark b u v k pre post : Text}

theorem Apart.ne_nil (h : Apart mark k) : k ≠ [] := by
  rintro rfl
  exact h.inside (List.nil_infix)

/-- A mark in the text stands before or after. -/
theorem Apart.split (h : Apart mark k) (heq : pre ++ (k ++ post) = mark ++ v) :
    ∃ pre', pre = mark ++ pre' ∧ v = pre' ++ (k ++ post) := by
  rcases List.append_eq_append_iff.mp heq with ⟨a, hmark, hk⟩ | ⟨pre', hpre, hv⟩
  · -- the text would start in the mark
    rcases List.append_eq_append_iff.mp hk with ⟨a', ha, -⟩ | ⟨k', hk', hpost⟩
    · exact absurd ⟨pre, a', by rw [hmark, ha, List.append_assoc]⟩ h.inside
    · cases a with
      | nil => exact ⟨[], by rw [hmark, List.append_nil, List.append_nil], by rw [hk', hpost]; rfl⟩
      | cons c cs =>
        obtain ⟨x, hx, hnot⟩ := h.last
        rw [hmark, List.getLast?_append_of_ne_nil _ (List.cons_ne_nil c cs)] at hx
        exact absurd (hk' ▸ List.mem_append_left _ (List.mem_of_getLast? hx)) hnot
  · exact ⟨pre', hpre, hv⟩

/-- A text without the mark's first character at the start of the output starts the input. -/
theorem Replaced.strip (hfirst : ∃ c, mark.head? = some c ∧ c ∉ k) (h : Replaced D mark b u (k ++ post)) :
    ∃ post', u = k ++ post' ∧ Replaced D mark (b ++ k) post' post := by
  induction k generalizing b u with
  | nil => exact ⟨u, rfl, by rw [List.append_nil]; exact h⟩
  | cons c k ih =>
    obtain ⟨x, hx, hnot⟩ := hfirst
    generalize heq : c :: k ++ post = w at h
    cases h with
    | nil => exact nomatch heq
    | keep h =>
      obtain ⟨rfl, rfl⟩ := List.cons.inj heq
      obtain ⟨post', rfl, hpost⟩ := ih ⟨x, hx, fun hmem => hnot (List.mem_cons_of_mem _ hmem)⟩ h
      exact ⟨post', rfl, by rw [List.append_cons]; exact hpost⟩
    | drop hd h =>
      cases mark with
      | nil => exact nomatch hx
      | cons y ys =>
        obtain rfl := Option.some.inj hx
        exact absurd ((List.cons.inj heq).1 ▸ List.mem_cons_self) hnot

/-- What stands before a place: the same character, or the last one of what was dropped there. -/
def Behind (D : Drops) (pre' pre rest : Text) : Prop :=
  pre'.getLast? = pre.getLast? ∨ ∃ b d, D b d rest ∧ pre'.getLast? = d.getLast?

theorem Behind.cons {pre' rest : Text} (hD : ∀ b d u, D b d u → d ≠ []) {c : Char} (h : Behind D pre' pre rest) :
    Behind D (c :: pre') (c :: pre) rest := by
  rcases h with h | ⟨b', d, hd, h⟩
  · left
    rw [List.getLast?_cons, List.getLast?_cons, h]
  · right
    refine ⟨b', d, hd, ?_⟩
    cases hlast : d.getLast? with
    | none => exact absurd (List.getLast?_eq_none_iff.mp hlast) (hD _ _ _ hd)
    | some x => rw [List.getLast?_cons, h, hlast, Option.getD_some]

/-- **A text apart from the mark** stands in the output where it stood in the input. -/
theorem Replaced.site (hD : ∀ b d u, D b d u → d ≠ []) (hk : Apart mark k)
    (h : Replaced D mark b u (pre ++ (k ++ post))) :
    ∃ pre' post', u = pre' ++ (k ++ post') ∧ Replaced D mark (b ++ (pre ++ k)) post' post ∧
      Behind D pre' pre (k ++ post') := by
  generalize hw : pre ++ (k ++ post) = w at h
  induction h generalizing pre with
  | nil => exact absurd (List.append_eq_nil_iff.mp (List.append_eq_nil_iff.mp hw).2).1 hk.ne_nil
  | @keep b c u v h ih =>
    cases pre with
    | nil =>
      have hwhole : Replaced D mark b (c :: u) (k ++ post) := by
        rw [show k ++ post = c :: v from hw]
        exact .keep h
      obtain ⟨post', heq, hpost⟩ := hwhole.strip hk.first
      exact ⟨[], post', heq, hpost, .inl rfl⟩
    | cons x pre =>
      obtain ⟨rfl, htail⟩ := List.cons.inj hw
      obtain ⟨pre', post', rfl, hpost, hbehind⟩ := ih htail
      refine ⟨x :: pre', post', rfl, ?_, hbehind.cons hD⟩
      rw [List.append_assoc] at hpost
      exact hpost
  | @drop b d u v hd h ih =>
    obtain ⟨pre1, rfl, hv⟩ := hk.split hw
    obtain ⟨pre', post', rfl, hpost, hbehind⟩ := ih hv.symm
    refine ⟨d ++ pre', post', by rw [List.append_assoc], by simpa [List.append_assoc] using hpost, ?_⟩
    rcases hbehind with hsame | ⟨b', d', hd', hsame⟩
    · cases hlast : pre'.getLast? with
      | none =>
        obtain rfl := List.getLast?_eq_none_iff.mp hlast
        exact .inr ⟨b, d, hd, by rw [List.append_nil]⟩
      | some x =>
        refine .inl ?_
        rw [List.getLast?_append, List.getLast?_append, ← hsame, hlast]
        rfl
    · cases hlast : d'.getLast? with
      | none => exact absurd (List.getLast?_eq_none_iff.mp hlast) (hD _ _ _ hd')
      | some x =>
        refine .inr ⟨b', d', hd', ?_⟩
        rw [List.getLast?_append, hsame, hlast]
        rfl

/-- The first character of the output is the input's, or the input's first part is dropped. -/
theorem Replaced.head (h : Replaced D mark b u v) :
    u.head? = v.head? ∨ ∃ d rest v', u = d ++ rest ∧ v = mark ++ v' ∧ D b d rest ∧
      Replaced D mark (b ++ mark) rest v' := by
  cases h with
  | nil => exact .inl rfl
  | keep h => exact .inl rfl
  | drop hd h => exact .inr ⟨_, _, _, rfl, rfl, hd, h⟩

/-- A text in which no part to drop starts is passed. -/
theorem Replaced.pass {x : Text} (hD : ∀ b d u, D b d u → d ≠ [])
    (hquiet : ∀ x₁ c x₂, x = x₁ ++ c :: x₂ → ∀ d u', c :: x₂ ++ u = c :: d ++ u' → ¬ D (b ++ x₁) (c :: d) u')
    (h : Replaced D mark b (x ++ u) v) : ∃ v', v = x ++ v' ∧ Replaced D mark (b ++ x) u v' := by
  induction x generalizing b v with
  | nil => exact ⟨v, rfl, by rw [List.append_nil]; exact h⟩
  | cons c x ih =>
    generalize heq : c :: x ++ u = w at h
    cases h with
    | nil => exact nomatch heq
    | keep h =>
      obtain ⟨rfl, rfl⟩ := List.cons.inj heq
      obtain ⟨v', rfl, hv⟩ := ih (fun x₁ a x₂ hx d u' hrest => by
        have hnot := hquiet (c :: x₁) a x₂ (by rw [hx]; rfl) d u' hrest
        rwa [List.append_cons] at hnot) h
      exact ⟨v', rfl, by rw [List.append_cons]; exact hv⟩
    | @drop _ d rest v' hd h =>
      cases d with
      | nil => exact absurd rfl (hD _ _ _ hd)
      | cons y d =>
        obtain ⟨rfl, -⟩ := List.cons.inj heq
        rw [← List.append_nil b] at hd
        exact absurd hd (hquiet [] c x rfl d rest heq)

theorem Replaced.mono {D' : Drops} (hD : ∀ b d u, D b d u → D' b d u) (h : Replaced D mark b u v) :
    Replaced D' mark b u v := by
  induction h with
  | nil => exact .nil
  | keep _ ih => exact .keep ih
  | drop hd _ ih => exact .drop (hD _ _ _ hd) ih

/-- The output has a mark, or is the input. -/
theorem Replaced.marked_or_same (h : Replaced D mark b u v) : (∃ x y, v = x ++ (mark ++ y)) ∨ u = v := by
  induction h with
  | nil => exact .inr rfl
  | @keep _ c _ _ _ ih =>
    rcases ih with ⟨x, y, rfl⟩ | rfl
    · exact .inl ⟨c :: x, y, rfl⟩
    · exact .inr rfl
  | @drop _ _ _ v _ _ _ => exact .inl ⟨[], v, rfl⟩

theorem Replaced.kept {x : Text} (h : Replaced D mark (b ++ x) u v) : Replaced D mark b (x ++ u) (x ++ v) := by
  induction x generalizing b with
  | nil => rwa [List.append_nil] at h
  | cons c x ih =>
    rw [List.append_cons] at h
    exact .keep (ih h)

end

/-! ## Sites -/

/-- Every site of the text is followed by something good; a site may depend on the character before it. -/
def Clean (S : Option Char → Text → Prop) (G : Text → Prop) (before : Option Char) (s : Text) : Prop :=
  ∀ pre k post, s = pre ++ (k ++ post) → S (lastOf before pre) k → G post

/-- The run of a rule over a text: the places at which it looks, and what comes of them. -/
inductive Scan (r : Rule) (mark : Text) : Option Char → Text → Text → Prop where
  | nil {before} : Scan r mark before [] []
  | keep {before c s out} : r.find before (c :: s) = none → Scan r mark (some c) s out →
      Scan r mark before (c :: s) (c :: out)
  | hit {before c s kept dropped rest out} : r.find before (c :: s) = some (kept, dropped, rest) →
      Scan r mark (lastOf before (kept ++ dropped)) rest out →
      Scan r mark before (c :: s) (kept ++ (mark ++ (r.suffix.toList ++ out)))

theorem lastOf_cons (before : Option Char) (c : Char) (s : Text) : lastOf before (c :: s) = lastOf (some c) s := by
  unfold lastOf
  rw [List.getLast?_cons]
  cases s.getLast? <;> rfl

theorem lastOf_append (before : Option Char) (x y : Text) : lastOf before (x ++ y) = lastOf (lastOf before x) y := by
  unfold lastOf
  rw [List.getLast?_append]
  cases y.getLast? <;> rfl

theorem lastOf_none (s : Text) : lastOf none s = s.getLast? := by
  unfold lastOf
  cases s.getLast? <;> rfl

section

variable {r : Rule} {D : Drops} {S : Option Char → Text → Prop} {G : Text → Prop} {mark s out : Text}
  {before : Option Char}

/-- **What the other rules keep**: sites stay where they are, and what follows them stays good. -/
theorem Clean.replaced {u v : Text} (hD : ∀ b d u, D b d u → d ≠ []) (hS : ∀ a k, S a k → Apart mark k)
    (hseam : ∀ b d k post a, D b d (k ++ post) → S a k → S d.getLast? k)
    (hfollow : ∀ b a k post' post, S a k → G post' → Replaced D mark (b ++ k) post' post → G post)
    (h : Replaced D mark [] u v) (hu : Clean S G none u) : Clean S G none v := by
  rintro pre k post rfl hsite
  obtain ⟨pre', post', rfl, hpost, hbehind⟩ := h.site hD (hS _ _ hsite)
  have hsite' : S (lastOf none pre') k := by
    rw [lastOf_none] at hsite ⊢
    rcases hbehind with hsame | ⟨b, d, hd, hsame⟩
    · exact hsame ▸ hsite
    · exact hsame ▸ hseam _ _ _ _ _ hd hsite
  refine hfollow pre _ k post' post hsite' (hu pre' k post' rfl hsite') ?_
  rwa [List.nil_append] at hpost

theorem find_spells {k d rest : Text} (h : r.find before s = some (k, d, rest)) :
    s = k ++ (d ++ rest) ∧ Spells r.kept k ∧ Spells r.dropped d := by
  obtain ⟨⟨k', s'⟩, hk, hd⟩ := List.exists_of_findSome?_eq_some h
  obtain ⟨⟨d', rest'⟩, hhead, heq⟩ := Option.map_eq_some_iff.mp hd
  obtain ⟨rfl, hkept⟩ := matchesOf_spells hk
  obtain ⟨hs', hdropped⟩ := matchesOf_spells (List.mem_of_head? hhead)
  obtain ⟨hk', heq⟩ := Prod.mk.inj heq
  obtain ⟨hd', hrest'⟩ := Prod.mk.inj heq
  subst hk' hd' hrest'
  exact ⟨congrArg (k' ++ ·) hs', hkept, hdropped⟩

/-- A rule that finds nothing here has no match of patterns without a boundary here. -/
theorem find_none {k d rest : Text} (hkept : Inner r.kept) (hdropped : Inner r.dropped)
    (h : r.find before (k ++ (d ++ rest)) = none) (hk : Spells r.kept k) : ¬ Spells r.dropped d := by
  intro hd
  have hnone := List.findSome?_eq_none_iff.mp h (k, d ++ rest) ((mem_matchesOf hkept).mpr ⟨rfl, hk⟩)
  have hmem : (d, rest) ∈ matchesOf r.dropped (lastOf before k) (d ++ rest) := (mem_matchesOf hdropped).mpr ⟨rfl, hd⟩
  rw [List.head?_eq_none_iff.mp (Option.map_eq_none_iff.mp hnone)] at hmem
  exact nomatch hmem

/-- With fuel for the whole text, the replacement is a run of the rule. -/
theorem replaceFrom_scan (hdrop : ¬ Spells r.dropped []) {n : Nat} (hn : s.length ≤ n) :
    Scan r mark before s (r.replaceFrom mark n before s) := by
  induction n generalizing before s with
  | zero =>
    obtain rfl := List.eq_nil_of_length_eq_zero (Nat.le_zero.mp hn)
    exact .nil
  | succ n ih =>
    cases s with
    | nil => exact .nil
    | cons c cs =>
      cases hfind : r.find before (c :: cs) with
      | none =>
        rw [Rule.replaceFrom, hfind]
        exact .keep hfind (ih (Nat.le_of_succ_le_succ hn))
      | some m =>
        obtain ⟨k, d, rest⟩ := m
        obtain ⟨hs, -, hd⟩ := find_spells hfind
        have hshort : rest.length ≤ n := by
          have hlen := congrArg List.length hs
          rw [List.length_append, List.length_append] at hlen
          have hpos : 0 < d.length := List.length_pos_iff.mpr fun h => hdrop (h ▸ hd)
          omega
        rw [Rule.replaceFrom, hfind]
        show Scan r mark before (c :: cs) (k ++ mark ++ r.suffix.toList ++ _)
        rw [List.append_assoc, List.append_assoc]
        exact .hit hfind (ih hshort)

theorem replaceAll_scan (hdrop : ¬ Spells r.dropped []) (mark s : Text) : Scan r mark none s (r.replaceAll mark s) :=
  replaceFrom_scan hdrop (Nat.le_refl _)

/-- A run replaces what its matches drop. -/
theorem Scan.replaced (hfind : ∀ before s k d rest, r.find before s = some (k, d, rest) →
      ∃ d', d = d' ++ r.suffix.toList ∧ ∀ b, D (b ++ k) d' (r.suffix.toList ++ rest))
    (h : Scan r mark before s out) (b : Text) : Replaced D mark b s out := by
  induction h generalizing b with
  | nil => exact .nil
  | @keep _ c _ _ _ _ ih => exact .keep (ih (b ++ [c]))
  | @hit _ _ _ k _ rest out hit _ ih =>
    obtain ⟨d, rfl, hd⟩ := hfind _ _ _ _ _ hit
    rw [(find_spells hit).1, List.append_assoc]
    exact Replaced.kept (.drop (hd b) (Replaced.kept (ih _)))

/-- A run keeps the first character when its matches keep something. -/
theorem Scan.head (hkept : ¬ Spells r.kept []) (h : Scan r mark before s out) : out.head? = s.head? := by
  cases h with
  | nil => rfl
  | keep _ _ => rfl
  | @hit _ _ _ k _ _ _ hit _ =>
    obtain ⟨hs, hk, -⟩ := find_spells hit
    cases k with
    | nil => exact absurd hk hkept
    | cons x k =>
      rw [hs]
      rfl

/-- **What a rule establishes**: a site of the output is one that the rule passed, one in what a match kept, or one
    in what follows a match. -/
theorem Scan.clean (hS : ∀ a k, S a k → Apart mark k)
    (hreplaced : ∀ before s out b, Scan r mark before s out → Replaced D mark b s out)
    (hmiss : ∀ before k post' post b, r.find before (k ++ post') = none → S before k →
      Replaced D mark (b ++ k) post' post → G post)
    (hhit : ∀ before s kept dropped rest out pre k y, r.find before s = some (kept, dropped, rest) →
      Scan r mark (lastOf before (kept ++ dropped)) rest out → kept = pre ++ (k ++ y) → S (lastOf before pre) k →
      G (y ++ (mark ++ (r.suffix.toList ++ out))))
    (hnext : ∀ before s kept dropped rest out pre k post, r.find before s = some (kept, dropped, rest) →
      Scan r mark (lastOf before (kept ++ dropped)) rest out → r.suffix.toList ++ out = pre ++ (k ++ post) →
      S (lastOf mark.getLast? pre) k →
      ∃ pre', out = pre' ++ (k ++ post) ∧ S (lastOf (lastOf before (kept ++ dropped)) pre') k)
    (h : Scan r mark before s out) : Clean S G before out := by
  induction h with
  | nil =>
    intro pre k post heq hsite
    exact absurd (List.append_eq_nil_iff.mp (List.append_eq_nil_iff.mp heq.symm).2).1 (hS _ _ hsite).ne_nil
  | @keep before c s out hnone hscan ih =>
    intro pre k post heq hsite
    cases pre with
    | nil =>
      have hwhole : Replaced D mark [] (c :: s) (k ++ post) := by
        rw [← show c :: out = k ++ post from heq]
        exact hreplaced _ _ _ _ (.keep hnone hscan)
      obtain ⟨post', hs, hpost⟩ := hwhole.strip (hS _ _ hsite).first
      exact hmiss before k post' post [] (hs ▸ hnone) hsite hpost
    | cons x pre =>
      obtain ⟨rfl, hout⟩ := List.cons.inj heq
      rw [lastOf_cons] at hsite
      exact ih pre k post hout hsite
  | @hit before c s kept dropped rest out hit hscan ih =>
    intro pre k post heq hsite
    have hk := hS _ _ hsite
    rcases List.append_eq_append_iff.mp heq with ⟨a, hpre, hrest⟩ | ⟨x, hkept, hpost⟩
    · -- behind the mark
      obtain ⟨pre', rfl, hout⟩ := hk.split hrest.symm
      have hmark : lastOf before (kept ++ (mark ++ pre')) = lastOf mark.getLast? pre' := by
        obtain ⟨y, hy, -⟩ := hk.last
        rw [lastOf_append, lastOf_append]
        congr 1
        unfold lastOf
        rw [hy]
        rfl
      rw [hpre, hmark] at hsite
      obtain ⟨pre'', hout', hsite'⟩ := hnext _ _ _ _ _ _ _ _ _ hit hscan hout hsite
      exact ih pre'' k post hout' hsite'
    · -- in what the match kept
      rcases List.append_eq_append_iff.mp hpost with ⟨y, hx, hpost⟩ | ⟨y, hx, hpost⟩
      · have hy := hhit before _ kept dropped rest out pre k y hit hscan (by rw [hkept, hx]) hsite
        rwa [← hpost] at hy
      · cases y with
        | nil =>
          rw [List.append_nil] at hx
          have hy := hhit before _ kept dropped rest out pre k [] hit hscan (by rw [hkept, hx, List.append_nil]) hsite
          rwa [List.nil_append, hpost] at hy
        | cons a y =>
          obtain ⟨z, hz, hnot⟩ := hk.first
          cases mark with
          | nil => exact nomatch hz
          | cons m ms =>
            obtain rfl := Option.some.inj hz
            exact absurd (hx ▸ List.mem_append_right _ ((List.cons.inj hpost).1 ▸ List.mem_cons_self)) hnot

/-- **A rule leaves a text** whose matches all drop the mark. -/
theorem Rule.replaceAll_same (hfix : ∀ pre post k d rest, s = pre ++ post →
      r.find pre.getLast? post = some (k, d, rest) → d = mark ++ r.suffix.toList) : r.replaceAll mark s = s := by
  have hrun : ∀ n pre post, s = pre ++ post → r.replaceFrom mark n pre.getLast? post = post := by
    intro n
    induction n with
    | zero => exact fun _ _ _ => rfl
    | succ n ih =>
      intro pre post hs
      cases post with
      | nil => rfl
      | cons c cs =>
        cases hfind : r.find pre.getLast? (c :: cs) with
        | none =>
          rw [Rule.replaceFrom, hfind]
          have htail := ih (pre ++ [c]) cs (by rw [hs, List.append_cons])
          rw [List.getLast?_concat] at htail
          exact congrArg (c :: ·) htail
        | some m =>
          obtain ⟨k, d, rest⟩ := m
          obtain ⟨hsplit, -, -⟩ := find_spells hfind
          have hd := hfix pre _ k d rest hs hfind
          have htail := ih (pre ++ (k ++ d)) rest (by rw [hs, hsplit]; simp only [List.append_assoc])
          have hlast : lastOf pre.getLast? (k ++ d) = (pre ++ (k ++ d)).getLast? := by
            rw [List.getLast?_append]
            rfl
          rw [Rule.replaceFrom, hfind]
          show k ++ mark ++ r.suffix.toList ++ r.replaceFrom mark n (lastOf pre.getLast? (k ++ d)) rest = c :: cs
          rw [hlast, htail, hsplit, hd]
          simp only [List.append_assoc]
  exact hrun s.length [] s rfl

end

/-! ## Patterns apart from the mark -/

/-- No text of the atom has this character. -/
def Atom.avoids (x : Char) : Atom → Bool
  | .one p => !p x
  | .many _ p => !p x
  | .alts fold words => words.all fun w => w.toList.all fun a => !same fold a x
  | .boundary => true

/-- No text of the pattern has an end of the mark, and none can be spelled with the mark's characters. -/
def aloof (mark : Text) (atoms : List Atom) : Bool :=
  (mark.head?.any fun c => atoms.all (Atom.avoids c)) && (mark.getLast?.any fun c => atoms.all (Atom.avoids c)) &&
    atoms.any (Atom.alien mark)

section

variable {mark k s : Text} {atoms : List Atom} {p : Char → Bool}

theorem forall₂_right {fold : Bool} {w m : Text} (h : List.Forall₂ (fun a b => same fold a b = true) w m) :
    ∀ x ∈ m, ∃ a ∈ w, same fold a x = true := by
  induction h with
  | nil => exact nofun
  | cons hsame _ ih =>
    intro x hx
    rcases List.mem_cons.mp hx with rfl | hx
    · exact ⟨_, List.mem_cons_self, hsame⟩
    · obtain ⟨a, ha, hax⟩ := ih x hx
      exact ⟨a, List.mem_cons_of_mem _ ha, hax⟩

theorem forall₂_left {fold : Bool} {w m : Text} (h : List.Forall₂ (fun a b => same fold a b = true) w m) :
    ∀ a ∈ w, ∃ x ∈ m, same fold a x = true := by
  induction h with
  | nil => exact nofun
  | cons hsame _ ih =>
    intro a ha
    rcases List.mem_cons.mp ha with rfl | ha
    · exact ⟨_, List.mem_cons_self, hsame⟩
    · obtain ⟨x, hx, hax⟩ := ih a ha
      exact ⟨x, List.mem_cons_of_mem _ hx, hax⟩

theorem forall₂_concat {fold : Bool} {w m : Text} {a : Char}
    (h : List.Forall₂ (fun a b => same fold a b = true) (w ++ [a]) m) :
    ∃ n e, m = n ++ [e] ∧ List.Forall₂ (fun a b => same fold a b = true) w n ∧ same fold a e = true := by
  induction w generalizing m with
  | nil =>
    cases h with
    | cons he hnil =>
      cases hnil
      exact ⟨[], _, rfl, .nil, he⟩
  | cons c w ih =>
    cases h with
    | cons hc hrest =>
      obtain ⟨n, e, rfl, hn, he⟩ := ih hrest
      exact ⟨_ :: n, e, rfl, .cons hc hn, he⟩

theorem spells_avoid {x : Char} (h : atoms.all (Atom.avoids x) = true) (hk : Spells atoms k) : x ∉ k := by
  induction atoms generalizing k with
  | nil =>
    obtain rfl := hk
    exact List.not_mem_nil
  | cons a atoms ih =>
    obtain ⟨m, n, rfl, hm, hn⟩ := hk
    obtain ⟨ha, hrest⟩ := Bool.and_eq_true_iff.mp h
    intro hx
    rcases List.mem_append.mp hx with hx | hx
    · cases a with
      | one p =>
        obtain ⟨c, rfl, hc⟩ := hm
        obtain rfl := List.mem_singleton.mp hx
        rw [show (Atom.one p).avoids x = !p x from rfl, hc] at ha
        exact nomatch ha
      | many min p =>
        rw [show (Atom.many min p).avoids x = !p x from rfl, hm.2 x hx] at ha
        exact nomatch ha
      | alts fold words =>
        obtain ⟨w, hw, hall⟩ := hm
        obtain ⟨c, hc, hsame⟩ := forall₂_right hall x hx
        have hnot := List.all_eq_true.mp (List.all_eq_true.mp ha w hw) c hc
        rw [hsame] at hnot
        exact nomatch hnot
      | boundary =>
        obtain rfl := hm
        exact nomatch hx
    · exact ih hrest hn hx

/-- A pattern with an alien atom spells a character outside the alphabet. -/
theorem spells_alien {alphabet : Text} (h : atoms.any (Atom.alien alphabet) = true) (hk : Spells atoms k) :
    ∃ c ∈ k, c ∉ alphabet := by
  induction atoms generalizing k with
  | nil => exact nomatch h
  | cons a atoms ih =>
    obtain ⟨m, n, rfl, hm, hn⟩ := hk
    rcases Bool.or_eq_true_iff.mp h with ha | hrest
    · cases a with
      | alts fold words =>
        obtain ⟨w, hw, hall⟩ := hm
        obtain ⟨c, hc, halien⟩ := List.any_eq_true.mp (List.all_eq_true.mp ha w hw)
        obtain ⟨x, hx, hsame⟩ := forall₂_left hall c hc
        refine ⟨x, List.mem_append_left _ hx, fun hmem => ?_⟩
        have hnot := List.all_eq_true.mp halien x hmem
        rw [hsame] at hnot
        exact nomatch hnot
      | one p => exact nomatch ha
      | many min p => exact nomatch ha
      | boundary => exact nomatch ha
    · obtain ⟨c, hc, hnot⟩ := ih hrest hn
      exact ⟨c, List.mem_append_right _ hc, hnot⟩

/-- **The texts of an aloof pattern** are apart from the mark. -/
theorem aloof_apart (h : aloof mark atoms = true) (hk : Spells atoms k) : Apart mark k := by
  obtain ⟨hends, halien⟩ := Bool.and_eq_true_iff.mp h
  obtain ⟨hfirst, hlast⟩ := Bool.and_eq_true_iff.mp hends
  obtain ⟨first, hf, hfirst⟩ := (Option.any_eq_true _ _).mp hfirst
  obtain ⟨last, hl, hlast⟩ := (Option.any_eq_true _ _).mp hlast
  obtain ⟨c, hc, hnot⟩ := spells_alien halien hk
  exact
    { first := ⟨first, hf, spells_avoid hfirst hk⟩
      last := ⟨last, hl, spells_avoid hlast hk⟩
      inside := fun hin => hnot (hin.mem hc) }

theorem spells_word {w : String} {m : Text} : (Atom.alts false [w]).Spells m ↔ m = w.toList := by
  constructor
  · rintro ⟨w', hw', hall⟩
    obtain rfl := List.mem_singleton.mp hw'
    clear hw'
    generalize w'.toList = t at hall
    induction hall with
    | nil => rfl
    | cons hsame _ ih => rw [ih, eq_of_beq hsame]
  · rintro rfl
    refine ⟨w, List.mem_singleton.mpr rfl, ?_⟩
    induction w.toList with
    | nil => exact .nil
    | cons c cs ih => exact .cons (beq_self_eq_true c) ih

end

/-! ## Texts without a match -/

/-- No text of the pattern stands in the text. -/
def Absent (atoms : List Atom) (s : Text) : Prop := ∀ m, m <:+: s → ¬ Spells atoms m

section

variable {r : Rule} {D : Drops} {atoms : List Atom} {mark s u v : Text}

theorem absent_iff : Absent atoms s ↔ Clean (fun _ k => Spells atoms k) (fun _ => False) none s := by
  constructor
  · rintro h pre k post rfl hk
    exact h k ⟨pre, post, List.append_assoc ..⟩ hk
  · rintro h m ⟨pre, post, hs⟩ hm
    exact h pre m post (by rw [← hs, List.append_assoc]) hm

/-- A match that is not in the input is not in the output of any rule. -/
theorem Absent.replaced (haloof : aloof mark atoms = true) (hD : ∀ b d u, D b d u → d ≠ []) (h : Replaced D mark [] u v)
    (hu : Absent atoms u) : Absent atoms v :=
  absent_iff.mpr (Clean.replaced hD (fun _ _ hk => aloof_apart haloof hk) (fun _ _ _ _ _ _ hk => hk)
    (fun _ _ _ _ _ _ hfalse _ => hfalse) h (absent_iff.mp hu))

/-- What every rule without a suffix drops. -/
def Something : Drops := fun _ d _ => d ≠ []

theorem replaceAll_something (hdrop : ¬ Spells r.dropped []) (hsuffix : r.suffix.toList = []) (mark s : Text) :
    Replaced Something mark [] s (r.replaceAll mark s) := by
  refine (replaceAll_scan hdrop mark s).replaced (fun before s k d rest hfind => ⟨d, ?_, fun b hd => ?_⟩) []
  · rw [hsuffix, List.append_nil]
  · exact hdrop (hd ▸ (find_spells hfind).2.2)

/-- **A rule removes its matches**, when what they keep has one length. -/
theorem replaceAll_absent {n : Nat} (hkept : Inner r.kept) (hdropped : Inner r.dropped)
    (haloof : aloof mark (r.kept ++ r.dropped) = true) (hdrop : ¬ Spells r.dropped []) (hsuffix : r.suffix.toList = [])
    (hlen : ∀ k, Spells r.kept k → k.length = n) (s : Text) : Absent (r.kept ++ r.dropped) (r.replaceAll mark s) := by
  refine absent_iff.mpr (Scan.clean (D := Something) (fun _ _ hk => aloof_apart haloof hk) ?_ ?_ ?_ ?_
    (replaceAll_scan hdrop mark s))
  · intro before s out b h
    refine h.replaced (fun before s k d rest hfind => ⟨d, ?_, fun b hd => ?_⟩) b
    · rw [hsuffix, List.append_nil]
    · exact hdrop (hd ▸ (find_spells hfind).2.2)
  · intro before k post' post b hnone hk _
    obtain ⟨x, y, rfl, hx, hy⟩ := spells_append.mp hk
    rw [List.append_assoc] at hnone
    exact find_none hkept hdropped hnone hx hy
  · intro before s kept dropped rest out pre k y hfind _ heq hk
    obtain ⟨x, z, rfl, hx, hz⟩ := spells_append.mp hk
    have hall := hlen _ (find_spells hfind).2.1
    have hpart := hlen _ hx
    rw [heq, List.length_append, List.length_append, List.length_append] at hall
    exact hdrop ((List.eq_nil_of_length_eq_zero (by omega) : z = []) ▸ hz)
  · intro before s kept dropped rest out pre k post _ _ hout hk
    exact ⟨pre, by rwa [hsuffix] at hout, hk⟩

/-- A rule leaves a text without its matches. -/
theorem Absent.same (h : Absent (r.kept ++ r.dropped) s) : r.replaceAll mark s = s := by
  refine Rule.replaceAll_same fun pre post k d rest hs hfind => ?_
  obtain ⟨hpost, hk, hd⟩ := find_spells hfind
  exact absurd (spells_append.mpr ⟨k, d, rfl, hk, hd⟩)
    (h (k ++ d) ⟨pre, rest, by rw [hs, hpost]; simp only [List.append_assoc]⟩)

end

/-! ## Rules that drop a run -/

/-- A rule that keeps something, and drops the longest run of a class behind it. -/
structure Rule.DropsRun (r : Rule) (p : Char → Bool) : Prop where
  dropped : r.dropped = [.many 1 p]
  suffix : r.suffix.toList = []
  kept : ¬ Spells r.kept []

/-- Behind a text of the pattern, the longest run of the class. -/
def RunDrop (kept : List Atom) (p : Char → Bool) : Drops := fun b d u =>
  (∃ k, Spells kept k ∧ k <:+ b) ∧ d ≠ [] ∧ (d ++ u).takeWhile p = d

/-- The run at the start of the text is the mark, or there is none. -/
def Masked (p : Char → Bool) (mark s : Text) : Prop := s.takeWhile p = [] ∨ s.takeWhile p = mark

section

variable {r : Rule} {D : Drops} {kept : List Atom} {p : Char → Bool} {mark s u v b : Text}

theorem takeWhile_nil : s.takeWhile p = [] ↔ ∀ c, s.head? = some c → p c = false := by
  cases s with
  | nil => exact ⟨fun _ _ h => (nomatch h), fun _ => rfl⟩
  | cons c cs =>
    constructor
    · intro h x hx
      obtain rfl := Option.some.inj hx
      cases hp : p c with
      | false => rfl
      | true =>
        rw [List.takeWhile_cons_of_pos hp] at h
        exact nomatch h
    · intro h
      exact List.takeWhile_cons_of_neg (by rw [h c rfl]; exact Bool.false_ne_true)

theorem RunDrop.class {d : Text} {c : Char} (h : RunDrop kept p b (c :: d) u) : p c = true := by
  obtain ⟨-, -, hrun⟩ := h
  cases hc : p c with
  | true => rfl
  | false =>
    rw [List.cons_append, List.takeWhile_cons_of_neg (by rw [hc]; exact Bool.false_ne_true)] at hrun
    exact nomatch hrun

theorem RunDrop.stops {d : Text} (h : RunDrop kept p b d u) : u.takeWhile p = [] := by
  obtain ⟨-, -, hrun⟩ := h
  have hall : ∀ c ∈ d, p c = true := by
    intro c hc
    rw [← hrun] at hc
    exact List.all_eq_true.mp List.all_takeWhile c hc
  rw [List.takeWhile_append_of_pos hall] at hrun
  exact List.append_cancel_left (hrun.trans (List.append_nil d).symm)

/-- Two endings of a text that are not empty end alike. -/
theorem last_of_suffix {k x : Text} (h : k <:+ b ++ x) (hk : k ≠ []) (hx : x ≠ []) : k.getLast? = x.getLast? := by
  obtain ⟨t, ht⟩ := h
  have hlast := congrArg List.getLast? ht
  rwa [List.getLast?_append_of_ne_nil _ hk, List.getLast?_append_of_ne_nil _ hx] at hlast

/-- A run that has stopped stays so, where no drop starts with a character outside its class. -/
theorem Replaced.stopped (hD : ∀ b d u, D b d u → d ≠ []) (hstop : ∀ c d u, D b (c :: d) u → p c = true)
    (h : Replaced D mark b u v) (hu : u.takeWhile p = []) : v.takeWhile p = [] := by
  rcases h.head with hsame | ⟨d, rest, v', rfl, -, hd, -⟩
  · exact takeWhile_nil.mpr fun c hc => takeWhile_nil.mp hu c (hsame.trans hc)
  · cases d with
    | nil => exact absurd rfl (hD _ _ _ hd)
    | cons c d =>
      have hc := takeWhile_nil.mp hu c rfl
      rw [hstop c d rest hd] at hc
      exact nomatch hc

/-- **A masked run stays masked**, when a drop takes the whole mark or nothing of it. -/
theorem Masked.replaced (hD : ∀ b d u, D b d u → d ≠ []) (hmark : ∀ c ∈ mark, p c = true)
    (hstop : ∀ c d u, D b (c :: d) u → p c = true) (hbehind : ∀ c d u, D (b ++ mark) (c :: d) u → p c = true)
    (hquiet : ∀ x a y, mark = x ++ a :: y → x ≠ [] → ∀ d u, ¬ D (b ++ x) (a :: d) u)
    (hwhole : ∀ d u, D b d u → (d ++ u).takeWhile p = mark → d = mark)
    (h : Replaced D mark b u v) (hu : Masked p mark u) : Masked p mark v := by
  rcases hu with hnone | hrun
  · exact .inl (h.stopped hD hstop hnone)
  · obtain ⟨rest, rfl⟩ : ∃ rest, u = mark ++ rest := ⟨u.dropWhile p, by rw [← hrun, List.takeWhile_append_dropWhile]⟩
    have hrest : rest.takeWhile p = [] := by
      rw [List.takeWhile_append_of_pos hmark] at hrun
      exact List.append_cancel_left (hrun.trans (List.append_nil mark).symm)
    have hafter : ∀ w, Replaced D mark (b ++ mark) rest w → Masked p mark (mark ++ w) := by
      intro w hw
      right
      rw [List.takeWhile_append_of_pos hmark, hw.stopped hD hbehind hrest, List.append_nil]
    generalize hwhole' : mark ++ rest = w at h
    cases h with
    | nil =>
      obtain ⟨rfl, -⟩ := List.append_eq_nil_iff.mp hwhole'
      exact .inl rfl
    | @keep _ c u v h =>
      cases mark with
      | nil =>
        rw [List.append_nil] at hbehind
        exact .inl ((Replaced.keep h).stopped hD hbehind (hwhole' ▸ hrest))
      | cons m ms =>
        obtain ⟨rfl, rfl⟩ := List.cons.inj hwhole'
        obtain ⟨w', rfl, hw'⟩ := h.pass hD fun x a y hx d u' _ => by
          rw [List.append_assoc]
          exact hquiet (m :: x) a y (by rw [hx]; rfl) (List.cons_ne_nil _ _) d u'
        exact hafter w' (by rwa [List.append_assoc] at hw')
    | @drop _ d u v hd h =>
      obtain rfl := hwhole d u hd (hwhole' ▸ hrun)
      obtain rfl := List.append_cancel_left hwhole'
      exact hafter v h

/-- A masked run stays masked under a rule that drops a run of a smaller class, behind texts that do not end like a
    part of the mark. -/
theorem Masked.after_run {q : Char → Bool} (hends : ∀ k, Spells kept k → ∃ c, k.getLast? = some c ∧ c ∉ mark)
    (hp : ∀ c ∈ mark, p c = true) (hq : ∀ c ∈ mark, q c = true)
    (hsub : ∀ d u, RunDrop kept q b d u → ∀ c, q c = true → p c = true) (h : Replaced (RunDrop kept q) mark b u v)
    (hu : Masked p mark u) : Masked p mark v := by
  have hnot : ∀ x d u, x ≠ [] → (∀ c ∈ x, c ∈ mark) → ¬ RunDrop kept q (b ++ x) d u := by
    rintro x d u hx hin ⟨⟨k, hk, hsuffix⟩, -⟩
    obtain ⟨c, hc, hout⟩ := hends k hk
    have hne : k ≠ [] := by
      rintro rfl
      exact nomatch hc
    rw [last_of_suffix hsuffix hne hx] at hc
    exact hout (hin c (List.mem_of_getLast? hc))
  refine hu.replaced (fun _ _ _ h => h.2.1) hp (fun c d u h => hsub _ _ h c h.class) ?_ ?_ ?_ h
  · intro c d u hdrop
    cases hmark : mark with
    | nil =>
      rw [hmark, List.append_nil] at hdrop
      exact hsub _ _ hdrop c hdrop.class
    | cons m ms => exact absurd hdrop (hnot mark _ _ (hmark ▸ List.cons_ne_nil m ms) fun _ hc => hc)
  · intro x a y hmark hx d u
    exact hnot x _ _ hx fun c hc => hmark ▸ List.mem_append_left _ hc
  · intro d u hdrop hrun
    have hsplit := List.takeWhile_append_dropWhile (p := p) (l := d ++ u)
    rw [hrun] at hsplit
    have hstop : ((d ++ u).dropWhile p).takeWhile p = [] := by
      have hwhole := hrun
      rw [← hsplit, List.takeWhile_append_of_pos hp] at hwhole
      exact List.append_cancel_left (hwhole.trans (List.append_nil mark).symm)
    have hstop' : ((d ++ u).dropWhile p).takeWhile q = [] := by
      refine takeWhile_nil.mpr fun c hc => ?_
      cases hqc : q c with
      | false => rfl
      | true =>
        have hpc := takeWhile_nil.mp hstop c hc
        rw [hsub d u hdrop c hqc] at hpc
        exact nomatch hpc
    rw [← hdrop.2.2, ← hsplit, List.takeWhile_append_of_pos hq, hstop', List.append_nil]

/-- The first way of a run is the longest one. -/
theorem ways_run (before : Option Char) (s : Text) : s.takeWhile p = [] ∧ (Atom.many 1 p).ways before s = [] ∨
    s.takeWhile p ≠ [] ∧ ∃ ways, (Atom.many 1 p).ways before s = (s.takeWhile p, s.dropWhile p) :: ways := by
  have hways : (Atom.many 1 p).ways before s =
      ((List.range ((s.takeWhile p).length + 1)).reverse.filter (1 ≤ ·)).map fun k => (s.take k, s.drop k) := rfl
  rw [hways, List.range_succ, List.reverse_append, List.reverse_singleton, List.singleton_append]
  cases hrun : s.takeWhile p with
  | nil => exact .inl ⟨rfl, rfl⟩
  | cons c cs =>
    have hsplit : c :: cs ++ s.dropWhile p = s := by rw [← hrun, List.takeWhile_append_dropWhile]
    have htake : s.take (c :: cs).length = c :: cs := by
      conv_lhs => rw [← hsplit]
      exact List.take_left
    have hdrop : s.drop (c :: cs).length = s.dropWhile p := by
      conv_lhs => rw [← hsplit]
      exact List.drop_left
    have hpos : (fun n => decide (1 ≤ n)) (c :: cs).length = true := decide_eq_true (Nat.succ_pos _)
    rw [@List.filter_cons_of_pos _ (fun n => decide (1 ≤ n)) _ _ hpos, List.map_cons, htake, hdrop]
    exact .inr ⟨List.cons_ne_nil c cs, _, rfl⟩

/-- What a rule that drops a run finds. -/
theorem find_run (hr : r.DropsRun p) {before : Option Char} {k d rest : Text}
    (h : r.find before s = some (k, d, rest)) :
    (k, d ++ rest) ∈ matchesOf r.kept before s ∧ (d ++ rest).takeWhile p = d ∧ d ≠ [] := by
  obtain ⟨⟨k', s'⟩, hk, hd⟩ := List.exists_of_findSome?_eq_some h
  obtain ⟨⟨d', rest'⟩, hhead, heq⟩ := Option.map_eq_some_iff.mp hd
  rw [hr.dropped] at hhead
  obtain ⟨hk', heq⟩ := Prod.mk.inj heq
  obtain ⟨hd', hrest'⟩ := Prod.mk.inj heq
  subst hk' hd' hrest'
  rcases @ways_run p (lastOf before k') s' with ⟨-, hnone⟩ | ⟨hne, ways, hways⟩
  · rw [matchesOf, hnone] at hhead
    exact nomatch hhead
  · rw [matchesOf, hways, List.flatMap_cons] at hhead
    obtain ⟨hd', hrest'⟩ := Prod.mk.inj (Option.some.inj hhead)
    rw [List.append_nil] at hd'
    have hd' : s'.takeWhile p = d' := hd'
    have hrest' : s'.dropWhile p = rest' := hrest'
    rw [← hd', ← hrest', List.takeWhile_append_dropWhile]
    exact ⟨hk, rfl, hne⟩

/-- The first of the matches of a pattern that ends in a run. -/
theorem matchesOf_word_run {w : String} {before : Option Char} (hs : s.takeWhile p ≠ []) :
    (matchesOf [.alts false [w], .many 1 p] before (w.toList ++ s)).head? =
      some (w.toList ++ s.takeWhile p, s.dropWhile p) := by
  have hword : (Atom.alts false [w]).ways before (w.toList ++ s) = [(w.toList, s)] := by
    have hstrip : stripWord false w.toList (w.toList ++ s) = some (w.toList, s) := by
      obtain ⟨w', hw', hall⟩ := spells_word.mpr (rfl : w.toList = w.toList)
      obtain rfl := List.mem_singleton.mp hw'
      exact stripWord_iff.mpr ⟨rfl, hall⟩
    show [w].filterMap (fun w' => stripWord false w'.toList (w.toList ++ s)) = _
    rw [List.filterMap_cons, hstrip]
    rfl
  rcases @ways_run p (lastOf before w.toList) s with ⟨hnone, -⟩ | ⟨-, ways, hways⟩
  · exact absurd hnone hs
  · rw [matchesOf, hword, List.flatMap_singleton, matchesOf, hways, List.flatMap_cons]
    show some (w.toList ++ (s.takeWhile p ++ []), s.dropWhile p) = _
    rw [List.append_nil]

/-- The first match that a run follows is the one that is found. -/
theorem find_first (hr : r.DropsRun p) {before : Option Char} {k₀ s₀ k d rest : Text}
    (hfirst : (matchesOf r.kept before s).head? = some (k₀, s₀)) (hrun : s₀.takeWhile p ≠ [])
    (h : r.find before s = some (k, d, rest)) : k = k₀ := by
  obtain ⟨others, hmatches⟩ := List.head?_eq_some_iff.mp hfirst
  rcases @ways_run p (lastOf before k₀) s₀ with ⟨hnone, -⟩ | ⟨-, ways, hways⟩
  · exact absurd hnone hrun
  · rw [Rule.find, hmatches, List.findSome?_cons, hr.dropped, matchesOf, hways, List.flatMap_cons] at h
    exact (Prod.mk.inj (Option.some.inj h)).1.symm

/-- Where such a rule finds nothing, no run follows what it keeps. -/
theorem find_no_run (hr : r.DropsRun p) {before : Option Char} {k rest : Text} (h : r.find before s = none)
    (hk : (k, rest) ∈ matchesOf r.kept before s) : rest.takeWhile p = [] := by
  have hnone := Option.map_eq_none_iff.mp (List.findSome?_eq_none_iff.mp h _ hk)
  rw [hr.dropped] at hnone
  rcases @ways_run p (lastOf before k) rest with ⟨hnil, -⟩ | ⟨-, ways, hways⟩
  · exact hnil
  · rw [matchesOf, hways, List.flatMap_cons] at hnone
    exact nomatch hnone

theorem Rule.DropsRun.drop (hr : r.DropsRun p) : ¬ Spells r.dropped [] := by
  rw [hr.dropped]
  rintro ⟨x, y, heq, ⟨hlen, -⟩, -⟩
  rw [(List.append_eq_nil_iff.mp heq.symm).1] at hlen
  exact nomatch hlen

theorem RunDrop.ne_nil {d : Text} (h : RunDrop kept p b d u) : d ≠ [] := h.2.1

theorem Scan.run_replaced (hr : r.DropsRun p) {before : Option Char} (h : Scan r mark before u v) (b : Text) :
    Replaced (RunDrop r.kept p) mark b u v := by
  refine h.replaced (fun before s k d rest hfind => ⟨d, by rw [hr.suffix, List.append_nil], fun b => ?_⟩) b
  obtain ⟨-, hrun, hne⟩ := find_run hr hfind
  rw [hr.suffix]
  exact ⟨⟨k, (find_spells hfind).2.1, List.suffix_append b k⟩, hne, hrun⟩

theorem replaceAll_run (hr : r.DropsRun p) (mark s : Text) :
    Replaced (RunDrop r.kept p) mark [] s (r.replaceAll mark s) :=
  (replaceAll_scan hr.drop mark s).run_replaced hr []

/-- **What such a rule establishes** at its sites. -/
theorem run_clean {S : Option Char → Text → Prop} {G : Text → Prop} (hr : r.DropsRun p)
    (hS : ∀ a k, S a k → Apart mark k)
    (hmatch : ∀ a k post, S a k → post.takeWhile p ≠ [] → (k, post) ∈ matchesOf r.kept a (k ++ post))
    (hgood : ∀ s, s.takeWhile p = [] → G s)
    (hhit : ∀ pre k y a out, Spells r.kept (pre ++ (k ++ y)) → S a k → out.takeWhile p = [] → G (y ++ (mark ++ out)))
    (hseam : ∀ a a' k post, S a k → (k ++ post).takeWhile p = [] → S a' k) (s : Text) :
    Clean S G none (r.replaceAll mark s) := by
  have hout : ∀ {before before' s k d rest out}, r.find before s = some (k, d, rest) → Scan r mark before' rest out →
      out.takeWhile p = [] := by
    intro before before' s k d rest out hfind hscan
    obtain ⟨-, hrun, hne⟩ := find_run hr hfind
    refine takeWhile_nil.mpr fun c hc => ?_
    rw [hscan.head hr.kept] at hc
    exact takeWhile_nil.mp (RunDrop.stops ⟨⟨k, (find_spells hfind).2.1, List.suffix_refl k⟩, hne, hrun⟩) c hc
  refine Scan.clean hS (fun _ _ _ b h => h.run_replaced hr b) ?_ ?_ ?_ (replaceAll_scan hr.drop mark s)
  · intro before k post' post b hnone hsite hpost
    have hstopped : post'.takeWhile p = [] := by
      by_contra hne
      exact hne (find_no_run hr hnone (hmatch _ _ _ hsite hne))
    exact hgood _ (hpost.stopped (fun _ _ _ h => h.2.1) (fun c d u h => h.class) hstopped)
  · intro before s kept dropped rest out pre k y hfind hscan heq hsite
    rw [hr.suffix, List.nil_append]
    exact hhit pre k y _ out (heq ▸ (find_spells hfind).2.1) hsite (hout hfind hscan)
  · intro before s kept dropped rest out pre k post hfind hscan heq hsite
    rw [hr.suffix, List.nil_append] at heq
    refine ⟨pre, heq, ?_⟩
    cases pre with
    | nil => exact hseam _ _ k post hsite (heq ▸ hout hfind hscan)
    | cons c pre =>
      rw [lastOf_cons] at hsite ⊢
      exact hsite

/-- Such a rule leaves a text whose sites are masked. -/
theorem run_same {S : Option Char → Text → Prop} (hr : r.DropsRun p)
    (hsite : ∀ a k post s, (k, post) ∈ matchesOf r.kept a s → S a k) (h : Clean S (Masked p mark) none s) :
    r.replaceAll mark s = s := by
  refine Rule.replaceAll_same fun pre post k d rest hs hfind => ?_
  obtain ⟨hk, hrun, hne⟩ := find_run hr hfind
  have hpost := (find_spells hfind).1
  rcases h pre k (d ++ rest) (by rw [hs, hpost]) (lastOf_none pre ▸ hsite _ _ _ _ hk) with hnil | hmark
  · exact absurd (hrun.symm.trans hnil) hne
  · rw [hr.suffix, List.append_nil, ← hrun, hmark]

/-- A character that stands alone of its kind in one text stands at the same place in an equal one. -/
theorem pivot_unique {q : Char → Bool} {x z x' z' : Text} {c c' : Char} (h : x ++ c :: z = x' ++ c' :: z')
    (hx : ∀ a ∈ x, q a = false) (hz : ∀ a ∈ z, q a = false) (hc' : q c' = true) : z = z' := by
  rcases List.append_eq_append_iff.mp h with ⟨y, -, hy⟩ | ⟨y, hxy, hy⟩
  · cases y with
    | nil => exact (List.cons.inj hy).2
    | cons a y =>
      have hmem : c' ∈ z := (List.cons.inj hy).2 ▸ List.mem_append_right _ List.mem_cons_self
      rw [hz c' hmem] at hc'
      exact nomatch hc'
  · cases y with
    | nil => exact (List.cons.inj hy).2.symm
    | cons a y =>
      have hmem : c' ∈ x := by
        rw [hxy, (List.cons.inj hy).1]
        exact List.mem_append_right _ List.mem_cons_self
      rw [hx c' hmem] at hc'
      exact nomatch hc'

/-- The last characters of a kind of two equal texts have the same before them. -/
theorem pivot_last {q : Char → Bool} {x z x' z' : Text} {c c' : Char} (h : x ++ c :: z = x' ++ c' :: z')
    (hz : ∀ a ∈ z, q a = false) (hz' : ∀ a ∈ z', q a = false) (hc : q c = true) (hc' : q c' = true) : x = x' := by
  rcases List.append_eq_append_iff.mp h with ⟨y, hxy, hy⟩ | ⟨y, hxy, hy⟩
  · cases y with
    | nil => rw [hxy, List.append_nil]
    | cons a y =>
      have hmem : c' ∈ z := (List.cons.inj hy).2 ▸ List.mem_append_right _ List.mem_cons_self
      rw [hz c' hmem] at hc'
      exact nomatch hc'
  · cases y with
    | nil => rw [hxy, List.append_nil]
    | cons a y =>
      have hmem : c ∈ z' := (List.cons.inj hy).2 ▸ List.mem_append_right _ List.mem_cons_self
      rw [hz' c hmem] at hc
      exact nomatch hc

end

end Patterns
