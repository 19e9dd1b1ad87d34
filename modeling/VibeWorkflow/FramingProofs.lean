import Mathlib.Data.List.Infix

/-!
# Frames that end at a blank line

A sender writes frames, each with a blank line after it; a receiver keeps a buffer, adds every chunk to
it and takes the complete frames off its front.  Neither the chunks nor the point where they stop matter
to what the frames are.

* `cut`, `drain` — the first blank line of a buffer, and all frames before its last one;
* **`Split.append`** — draining what is left together with the next chunk continues the frames;
* **`split_received`** — of a stream that has arrived in part, the frames that have arrived in full;
* **`Lines.splitOn_append`** — the same for lines: splitting may go on with the next chunk.
-/

namespace Framing

variable {α : Type} [DecidableEq α] (nl : α)

/-- What stands before the first two `nl` in a row, and what after. -/
def cut : List α → Option (List α × List α)
  | [] => none
  | [_] => none
  | a :: b :: rest => if a = nl ∧ b = nl then some ([], rest) else (cut (b :: rest)).map fun r => (a :: r.1, r.2)

/-- The complete frames of a buffer and what is left of it.  Each frame takes one unit of fuel. -/
def drainFrom : Nat → List α → List (List α) × List α
  | 0, buf => ([], buf)
  | n + 1, buf =>
    match cut nl buf with
    | none => ([], buf)
    | some r => (r.1 :: (drainFrom n r.2).1, (drainFrom n r.2).2)

def drain (buf : List α) : List (List α) × List α := drainFrom nl buf.length buf

/-- **A buffer splits** into its frames and a rest without a blank line. -/
inductive Split : List α → List (List α) → List α → Prop where
  | rest {buf : List α} (none : cut nl buf = none) : Split buf [] buf
  | frame {buf f next rest : List α} {fs : List (List α)} (first : cut nl buf = some (f, next))
    (more : Split next fs rest) :
      Split buf (f :: fs) rest

variable {nl}

theorem cut_eq {buf f rest : List α} (h : cut nl buf = some (f, rest)) : buf = f ++ nl :: nl :: rest := by
  induction buf generalizing f with
  | nil => exact nomatch h
  | cons a buf ih =>
    cases buf with
    | nil => exact nomatch h
    | cons b buf =>
      unfold cut at h
      split at h
      · rename_i hab
        obtain ⟨rfl, rfl⟩ := hab
        cases h
        rfl
      · obtain ⟨⟨g, next⟩, hr, heq⟩ := Option.map_eq_some_iff.mp h
        cases heq
        rw [ih hr]
        rfl

/-- What comes later does not move the first blank line. -/
theorem cut_append {buf f rest : List α} (h : cut nl buf = some (f, rest)) (more : List α) :
    cut nl (buf ++ more) = some (f, rest ++ more) := by
  induction buf generalizing f with
  | nil => exact nomatch h
  | cons a buf ih =>
    cases buf with
    | nil => exact nomatch h
    | cons b buf =>
      show cut nl (a :: b :: (buf ++ more)) = _
      unfold cut at h ⊢
      split at h
      · rename_i hab
        rw [if_pos hab]
        cases h
        rfl
      · rename_i hab
        obtain ⟨⟨g, next⟩, hr, heq⟩ := Option.map_eq_some_iff.mp h
        cases heq
        have hmore := ih hr
        rw [List.cons_append] at hmore
        rw [if_neg hab, hmore]
        rfl

theorem drainFrom_split {n : Nat} {buf : List α} (h : buf.length ≤ n) :
    Split nl buf (drainFrom nl n buf).1 (drainFrom nl n buf).2 := by
  induction n generalizing buf with
  | zero =>
    obtain rfl : buf = [] := List.length_eq_zero_iff.mp (Nat.le_zero.mp h)
    exact .rest rfl
  | succ n ih =>
    unfold drainFrom
    cases hcut : cut nl buf with
    | none => exact .rest hcut
    | some r =>
      refine .frame hcut (ih ?_)
      have hlen := congrArg List.length (cut_eq hcut)
      simp only [List.length_append, List.length_cons] at hlen
      omega

theorem drain_split (buf : List α) : Split nl buf (drain nl buf).1 (drain nl buf).2 := drainFrom_split (Nat.le_refl _)

/-- **The next chunk continues the frames.** -/
theorem Split.append {buf rest more rest' : List α} {fs fs' : List (List α)} (h : Split nl buf fs rest)
    (h' : Split nl (rest ++ more) fs' rest') : Split nl (buf ++ more) (fs ++ fs') rest' := by
  induction h with
  | rest _ => exact h'
  | frame first _ ih => exact .frame (cut_append first more) (ih h')

theorem Split.unique {buf rest rest' : List α} {fs fs' : List (List α)} (h : Split nl buf fs rest)
    (h' : Split nl buf fs' rest') : fs = fs' ∧ rest = rest' := by
  induction h generalizing fs' with
  | rest hnone =>
    cases h' with
    | rest _ => exact ⟨rfl, rfl⟩
    | frame first _ =>
      rw [hnone] at first
      exact nomatch first
  | frame first _ ih =>
    cases h' with
    | rest hnone =>
      rw [hnone] at first
      exact nomatch first
    | frame first' more' =>
      rw [first] at first'
      cases first'
      obtain ⟨rfl, rfl⟩ := ih more'
      exact ⟨rfl, rfl⟩

/-! ## A stream that arrives in part -/

variable (nl)

/-- A frame that ends where its own blank line stands. -/
def Clean (f : List α) : Prop := cut nl (f ++ [nl, nl]) = some (f, [])

/-- What the sender writes. -/
def written (fs : List (List α)) : List α := fs.flatMap fun f => f ++ [nl, nl]

variable {nl}

omit [DecidableEq α] in
theorem written_cons (f : List α) (fs : List (List α)) : written nl (f :: fs) = f ++ [nl, nl] ++ written nl fs := rfl

/-- The frames and their blank lines are the front of the buffer. -/
theorem Split.written_le {buf rest : List α} {fs : List (List α)} (h : Split nl buf fs rest) :
    written nl fs <+: buf := by
  induction h with
  | rest _ => exact List.nil_prefix
  | frame first _ ih =>
    rw [cut_eq first, written_cons, List.append_assoc]
    exact (List.prefix_append_right_inj _).mpr ((List.prefix_append_right_inj _).mpr ih)

theorem Clean.cut {f : List α} (h : Clean nl f) (rest : List α) : cut nl (f ++ [nl, nl] ++ rest) = some (f, rest) := by
  have hcut := cut_append h rest
  rwa [List.nil_append] at hcut

/-- **A stream that arrives in part**: the receiver has the frames that have arrived in full, and no other. -/
theorem split_received {fs : List (List α)} (hclean : ∀ f ∈ fs, Clean nl f) {got : List α} (h : got <+: written nl fs) :
    ∃ k rest, Split nl got (fs.take k) rest ∧ k ≤ fs.length ∧
      ∀ j ≤ fs.length, written nl (fs.take j) <+: got → j ≤ k := by
  induction fs generalizing got with
  | nil =>
    obtain rfl : got = [] := List.prefix_nil.mp h
    exact ⟨0, [], .rest rfl, Nat.le_refl _, fun j hj _ => hj⟩
  | cons f fs ih =>
    obtain ⟨more, hmore⟩ := h
    rw [written_cons] at hmore
    rcases List.append_eq_append_iff.mp hmore with ⟨as, hframe, -⟩ | ⟨bs, hgot, hrest⟩
    · by_cases has : as = []
      · -- the first frame has arrived, and nothing else
        subst has
        rw [List.append_nil] at hframe
        have hcut := (hclean f List.mem_cons_self).cut []
        rw [List.append_nil, hframe] at hcut
        refine ⟨1, [], .frame hcut (.rest rfl), Nat.succ_le_succ (Nat.zero_le _), ?_⟩
        intro j hj hprefix
        obtain rfl | ⟨j, rfl⟩ : j = 0 ∨ ∃ i, j = i + 1 := by
          cases j with
          | zero => exact .inl rfl
          | succ i => exact .inr ⟨i, rfl⟩
        · exact Nat.zero_le _
        · cases j with
          | zero => exact Nat.le_refl _
          | succ i =>
            cases fs with
            | nil => exact absurd hj (by simp)
            | cons g fs =>
              have hlen := hprefix.length_le
              rw [← hframe] at hlen
              simp only [List.take_succ_cons, written_cons, List.length_append, List.length_cons,
                List.length_nil] at hlen
              omega
      · have hnone : cut nl got = none := by
          cases hcut : cut nl got with
          | none => rfl
          | some r =>
            exfalso
            have hfirst := cut_append hcut as
            rw [← hframe, hclean f List.mem_cons_self] at hfirst
            have hempty := (Prod.mk.inj (Option.some.inj hfirst)).2
            exact has (List.append_eq_nil_iff.mp hempty.symm).2
        refine ⟨0, got, .rest hnone, Nat.zero_le _, ?_⟩
        intro j _ hprefix
        cases j with
        | zero => exact Nat.le_refl _
        | succ j =>
          have hlen := hprefix.length_le
          have hframe := congrArg List.length hframe
          have := List.length_pos_of_ne_nil has
          simp only [List.take_succ_cons, written_cons, List.length_append, List.length_cons,
            List.length_nil] at hlen hframe
          omega
    · obtain ⟨k, rest, hsplit, hk, hmax⟩ := ih (fun g hg => hclean g (List.mem_cons_of_mem _ hg)) ⟨more, hrest.symm⟩
      subst hgot
      refine ⟨k + 1, rest, .frame ((hclean f List.mem_cons_self).cut bs) hsplit, Nat.succ_le_succ hk, ?_⟩
      intro j hj hprefix
      cases j with
      | zero => exact Nat.zero_le _
      | succ j =>
        rw [List.take_succ_cons, written_cons] at hprefix
        exact Nat.succ_le_succ (hmax j (Nat.le_of_succ_le_succ hj) ((List.prefix_append_right_inj _).mp hprefix))

/-- One more character in front, other than `nl`. -/
theorem Clean.cons {c : α} {f : List α} (hc : c ≠ nl) (h : Clean nl f) : Clean nl (c :: f) := by
  unfold Clean at h ⊢
  obtain ⟨d, rest, hd⟩ : ∃ d rest, f ++ [nl, nl] = d :: rest := by
    cases f with
    | nil => exact ⟨_, _, rfl⟩
    | cons d f => exact ⟨_, _, rfl⟩
  rw [List.cons_append, hd]
  rw [hd] at h
  show (if c = nl ∧ d = nl then some ([], rest) else (Framing.cut nl (d :: rest)).map fun r => (c :: r.1, r.2)) = _
  rw [if_neg fun heq => hc heq.1, h]
  rfl

theorem Clean.line {l f : List α} (hl : ∀ c ∈ l, c ≠ nl) (h : Clean nl f) : Clean nl (l ++ f) := by
  induction l with
  | nil => exact h
  | cons c l ih => exact .cons (hl c List.mem_cons_self) (ih fun d hd => hl d (List.mem_cons_of_mem _ hd))

theorem clean_nil : Clean nl ([] : List α) := if_pos ⟨rfl, rfl⟩

/-- A line end before a line that is not blank. -/
theorem Clean.newline {c : α} {f : List α} (hc : c ≠ nl) (h : Clean nl (c :: f)) : Clean nl (nl :: c :: f) := by
  unfold Clean at h ⊢
  show (if nl = nl ∧ c = nl then some ([], f ++ [nl, nl])
    else (Framing.cut nl (c :: f ++ [nl, nl])).map fun r => (nl :: r.1, r.2)) = _
  rw [if_neg fun heq => hc heq.2, h]
  rfl

end Framing

/-! ## Lines -/

namespace Lines

variable {α : Type} [BEq α] [LawfulBEq α] {nl : α}

/-- Complete lines, each with its line end, and what stands after the last one. -/
def joined (nl : α) (lines : List (List α)) (rest : List α) : List α := lines.flatMap (fun l => l ++ [nl]) ++ rest

/-- Complete lines split off, whatever comes after them. -/
theorem splitOn_joined_append {lines : List (List α)} (h : ∀ l ∈ lines, nl ∉ l) (rest : List α) :
    (joined nl lines rest).splitOn nl = lines ++ rest.splitOn nl := by
  induction lines with
  | nil => rfl
  | cons l lines ih =>
    have hcons : joined nl (l :: lines) rest = l ++ nl :: joined nl lines rest := by
      unfold joined
      rw [List.flatMap_cons, List.append_assoc, List.append_assoc]
      rfl
    rw [hcons, List.splitOn_append_cons_self_of_not_mem (h l List.mem_cons_self),
      ih fun m hm => h m (List.mem_cons_of_mem _ hm)]
    rfl

theorem splitOn_joined {lines : List (List α)} {rest : List α} (h : ∀ l ∈ lines, nl ∉ l) (hrest : nl ∉ rest) :
    (joined nl lines rest).splitOn nl = lines ++ [rest] := by
  rw [splitOn_joined_append h, List.splitOn_eq_singleton hrest]

omit [BEq α] [LawfulBEq α] in
/-- **Every text is complete lines and a rest.** -/
theorem exists_joined (text : List α) :
    ∃ lines rest, (∀ l ∈ lines, nl ∉ l) ∧ nl ∉ rest ∧ text = joined nl lines rest := by
  induction text with
  | nil => exact ⟨[], [], fun l hl => (nomatch hl), List.not_mem_nil, rfl⟩
  | cons c text ih =>
    obtain ⟨lines, rest, hlines, hrest, rfl⟩ := ih
    by_cases hc : c = nl
    · -- a line end closes an empty line
      refine ⟨[] :: lines, rest, ?_, hrest, ?_⟩
      · intro l hl
        rcases List.mem_cons.mp hl with rfl | hl
        · exact List.not_mem_nil
        · exact hlines l hl
      · rw [hc]
        rfl
    · cases lines with
      | nil =>
        refine ⟨[], c :: rest, hlines, ?_, rfl⟩
        rw [List.mem_cons, not_or]
        exact ⟨fun h => hc h.symm, hrest⟩
      | cons l lines =>
        refine ⟨(c :: l) :: lines, rest, ?_, hrest, rfl⟩
        intro m hm
        rcases List.mem_cons.mp hm with rfl | hm
        · rw [List.mem_cons, not_or]
          exact ⟨fun h => hc h.symm, hlines l List.mem_cons_self⟩
        · exact hlines m (List.mem_cons_of_mem _ hm)

/-- **The next chunk continues the lines.** -/
theorem splitOn_append (a b : List α) :
    (a ++ b).splitOn nl = (a.splitOn nl).dropLast ++ (((a.splitOn nl).getLast?.getD []) ++ b).splitOn nl := by
  obtain ⟨lines, rest, hlines, hrest, rfl⟩ := @exists_joined _ nl a
  rw [splitOn_joined hlines hrest, List.dropLast_concat, List.getLast?_concat, Option.getD_some,
    ← splitOn_joined_append hlines]
  unfold joined
  rw [List.append_assoc]

end Lines
