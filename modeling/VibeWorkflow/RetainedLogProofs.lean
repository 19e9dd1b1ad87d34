import Mathlib.Data.List.Sort
import VibeWorkflow.CallRunProofs

/-!
# Logs whose head is cut off

A log keeps rows with increasing sequence numbers next to two columns: the number of its last row
and the number of the first row it still has.  Cutting keeps the newest rows, as a database does it:
find the row at an offset from the end, delete up to it, and take the smallest number that remains.

* **`Log.Faithful`** — the rows are exactly those the two columns say;
* `Log.Faithful.push`, **`Log.Faithful.prune_iff`** — one more row keeps that, and so does cutting,
  exactly when it leaves a row or has nothing to cut;
* **`always_truthful`** — the same over the runs of a store whose calls push rows and cut.
-/

namespace RetainedLog

variable {ε : Type} (seq : ε → Int)

/-- `ORDER BY sequence DESC LIMIT 1 OFFSET keepLast`: the newest row that goes, if one does. -/
def boundary (keepLast : Nat) (rows : List ε) : Option Int :=
  ((rows.map seq).insertionSort (· ≥ ·))[keepLast]?

/-- What remains once the rows up to the boundary are deleted. -/
def after (bound : Int) (rows : List ε) : List ε := rows.filter fun e => decide (bound < seq e)

/-- The rows of a record and its two columns. -/
structure Log (ε : Type) where
  rows : List ε
  last : Int
  earliest : Int

/-- The column is left alone where no row remains. -/
def Log.prune (keepLast : Nat) (l : Log ε) : Log ε :=
  match boundary seq keepLast l.rows with
  | none => l
  | some bound =>
    { l with
      rows := after seq bound l.rows
      earliest := ((after seq bound l.rows).map seq).min?.getD l.earliest }

def Log.push (e : ε) (l : Log ε) : Log ε := { l with rows := l.rows ++ [e], last := seq e }

/-- The columns say which rows there are. -/
def Log.Truthful (l : Log ε) : Prop := ∀ k : Int, (∃ e ∈ l.rows, seq e = k) ↔ l.earliest ≤ k ∧ k ≤ l.last

/-- The numbers from `a` on, `n` of them. -/
def span (a : Int) (n : Nat) : List Int := (List.range n).map fun i : Nat => a + (i : Int)

/-- The rows stand in order, from the first column to the last. -/
structure Log.Faithful (l : Log ε) : Prop where
  rows : l.rows.map seq = span l.earliest l.rows.length
  last : l.last = l.earliest + l.rows.length - 1

section

variable {a : Int} {n : Nat}

theorem mem_span {k : Int} : k ∈ span a n ↔ a ≤ k ∧ k < a + n := by
  unfold span
  rw [List.mem_map]
  constructor
  · rintro ⟨i, hi, rfl⟩
    have := List.mem_range.mp hi
    omega
  · rintro ⟨hle, hlt⟩
    exact ⟨(k - a).toNat, List.mem_range.mpr (by omega), by omega⟩

theorem span_pairwise (a : Int) (n : Nat) : (span a n).Pairwise (· < ·) := by
  unfold span
  rw [List.pairwise_map]
  exact List.pairwise_lt_range.imp (fun h => by omega)

theorem span_succ (a : Int) (n : Nat) : span a (n + 1) = span a n ++ [a + n] := by
  simp [span, List.range_succ]

theorem getElem?_span (k : Nat) : (span a n)[k]? = if k < n then some (a + k) else none := by
  simp only [span, List.getElem?_map]
  split
  · simp [*]
  · simp [*]

/-- From the end of the span. -/
theorem sorted_span : (span a n).insertionSort (· ≥ ·) = (span a n).reverse := by
  refine ((List.perm_insertionSort _ _).trans (List.reverse_perm _).symm).eq_of_pairwise'
    (List.pairwise_insertionSort _ _) ?_
  rw [List.pairwise_reverse]
  exact (span_pairwise a n).imp (fun h => h.le)

theorem boundary_span (k : Nat) :
    ((span a n).insertionSort (· ≥ ·))[k]? = if k < n then some (a + (n - 1 - k : Nat)) else none := by
  have hlen : (span a n).length = n := by simp [span]
  rw [sorted_span]
  split
  · rename_i hk
    rw [List.getElem?_reverse (by omega), hlen, getElem?_span, if_pos (by omega)]
  · rw [List.getElem?_eq_none (by rw [List.length_reverse, hlen]; omega)]

/-- What lies after a number of the span. -/
theorem filter_span {k : Nat} (hk : k < n) :
    (span a n).filter (fun x => decide (a + (n - 1 - k : Nat) < x)) = span (a + (n - k : Nat)) k := by
  refine List.Perm.eq_of_pairwise' ((span_pairwise a n).filter _ |>.imp le_of_lt) ((span_pairwise _ k).imp le_of_lt) ?_
  refine (List.perm_ext_iff_of_nodup ((span_pairwise a n).imp ne_of_lt |>.filter _)
    ((span_pairwise _ k).imp ne_of_lt)).mpr ?_
  intro x
  simp only [List.mem_filter, mem_span, decide_eq_true_eq]
  omega

theorem min_span (h : 0 < n) : (span a n).min? = some a := by
  rw [List.min?_eq_some_iff]
  refine ⟨mem_span.mpr (by omega), fun b hb => (mem_span.mp hb).1⟩

end

section

variable {seq} {l : Log ε}

theorem Log.Faithful.truthful (h : l.Faithful seq) : l.Truthful seq := by
  intro k
  have hmem : (∃ e ∈ l.rows, seq e = k) ↔ k ∈ span l.earliest l.rows.length := by
    rw [← h.rows, List.mem_map]
  rw [hmem, mem_span, h.last]
  omega

/-- **One more row** at the next number. -/
theorem Log.Faithful.push {e : ε} (h : l.Faithful seq) (hseq : seq e = l.last + 1) : (l.push seq e).Faithful seq where
  rows := by
    have hnext : seq e = l.earliest + l.rows.length := by
      rw [hseq, h.last]
      omega
    simp only [Log.push, List.map_append, List.map_cons, List.map_nil, List.length_append, List.length_singleton,
      span_succ, h.rows, hnext]
  last := by
    simp only [Log.push, List.length_append, List.length_singleton, hseq, h.last]
    omega

theorem Log.Faithful.boundary_eq (h : l.Faithful seq) (keepLast : Nat) :
    boundary seq keepLast l.rows =
      if keepLast < l.rows.length then some (l.earliest + (l.rows.length - 1 - keepLast : Nat)) else none := by
  rw [boundary, h.rows, boundary_span]

theorem Log.Faithful.after_eq (h : l.Faithful seq) {keepLast : Nat} (hk : keepLast < l.rows.length) :
    (after seq (l.earliest + (l.rows.length - 1 - keepLast : Nat)) l.rows).map seq =
      span (l.earliest + (l.rows.length - keepLast : Nat)) keepLast := by
  have hmap := List.filter_map (f := seq) (l := l.rows)
    (p := fun x => decide (l.earliest + (l.rows.length - 1 - keepLast : Nat) < x))
  rw [h.rows, filter_span hk] at hmap
  exact hmap.symm

/-- **Cutting** that leaves a row, or has nothing to cut. -/
theorem Log.Faithful.prune {keepLast : Nat} (h : l.Faithful seq) (hkeep : keepLast ≠ 0 ∨ l.rows = []) :
    (l.prune seq keepLast).Faithful seq := by
  unfold Log.prune
  rw [h.boundary_eq]
  by_cases hk : keepLast < l.rows.length
  · rw [if_pos hk]
    have hrest := h.after_eq hk
    have hlen := congrArg List.length hrest
    simp only [List.length_map, span, List.length_range] at hlen
    have hpos : 0 < keepLast := by
      rcases hkeep with hne | hnil
      · exact Nat.pos_of_ne_zero hne
      · rw [hnil] at hk
        exact absurd hk (Nat.not_lt_zero _)
    have hmin : (span (l.earliest + (l.rows.length - keepLast : Nat)) keepLast).min? = _ := min_span hpos
    constructor
    · simp only [hrest, hlen, hmin, Option.getD_some]
    · simp only [hrest, hlen, hmin, Option.getD_some, h.last]
      omega
  · rw [if_neg hk]
    exact h

/-- **Cutting everything** leaves a first column that names a row which is gone. -/
theorem Log.Faithful.prune_all (h : l.Faithful seq) (hne : l.rows ≠ []) : ¬ (l.prune seq 0).Truthful seq := by
  intro htrue
  have hpos : 0 < l.rows.length := List.length_pos_iff.mpr hne
  have hnil := List.map_eq_nil_iff.mp (h.after_eq hpos)
  unfold Log.prune at htrue
  rw [h.boundary_eq, if_pos hpos] at htrue
  simp only [hnil] at htrue
  obtain ⟨e, he, -⟩ := (htrue l.earliest).mpr ⟨le_refl _, by rw [h.last]; omega⟩
  exact nomatch he

/-- **Cutting keeps the columns right** exactly when it leaves a row or has nothing to cut. -/
theorem Log.Faithful.prune_iff (h : l.Faithful seq) (keepLast : Nat) :
    (l.prune seq keepLast).Truthful seq ↔ keepLast ≠ 0 ∨ l.rows = [] := by
  constructor
  · intro htrue
    by_contra hnot
    obtain ⟨rfl, hne⟩ : keepLast = 0 ∧ l.rows ≠ [] :=
      ⟨by_contra fun hk => hnot (.inl hk), fun hnil => hnot (.inr hnil)⟩
    exact h.prune_all hne htrue
  · intro hkeep
    exact (h.prune hkeep).truthful

end

/-! ## What cutting leaves of the rows -/

section

variable {seq} {rows : List ε} {a : Int}

theorem span_cons (a : Int) (n : Nat) : span a (n + 1) = a :: span (a + 1) n := by
  simp only [span, List.range_succ_eq_map, List.map_cons, List.map_map, Int.natCast_zero, Int.add_zero]
  refine congrArg (a :: ·) (List.map_congr_left fun i _ => ?_)
  simp only [Function.comp_apply, Nat.succ_eq_add_one, Int.natCast_add, Int.natCast_one]
  omega

/-- Nothing lies before the first row. -/
theorem after_all (h : rows.map seq = span a rows.length) {b : Int} (hb : b < a) : after seq b rows = rows := by
  refine List.filter_eq_self.mpr fun e he => ?_
  have hmem : seq e ∈ span a rows.length := h ▸ List.mem_map_of_mem he
  have := (mem_span.mp hmem).1
  exact decide_eq_true (by omega)

/-- Deleting up to a row drops it and what stands before it. -/
theorem after_drop (h : rows.map seq = span a rows.length) (j : Nat) :
    after seq (a + j) rows = rows.drop (j + 1) := by
  induction rows generalizing a j with
  | nil => rfl
  | cons e rows ih =>
    rw [List.map_cons, List.length_cons, span_cons] at h
    obtain ⟨he, htail⟩ := List.cons.inj h
    have hgone : after seq (a + j) (e :: rows) = after seq (a + j) rows :=
      List.filter_cons_of_neg (by simp only [he, decide_eq_true_eq]; omega)
    rw [hgone, List.drop_succ_cons]
    cases j with
    | zero => exact after_all htail (by omega)
    | succ j =>
      have hnext : a + ((j + 1 : Nat) : Int) = a + 1 + (j : Int) := by omega
      rw [hnext]
      exact ih htail j

/-- **Cutting keeps the newest rows.** -/
theorem cut_eq_drop (h : rows.map seq = span a rows.length) (keepLast : Nat) :
    (match boundary seq keepLast rows with
      | none => rows
      | some bound => after seq bound rows) = rows.drop (rows.length - keepLast) := by
  have hbound : boundary seq keepLast rows =
      if keepLast < rows.length then some (a + (rows.length - 1 - keepLast : Nat)) else none := by
    rw [boundary, h, boundary_span]
  rw [hbound]
  by_cases hk : keepLast < rows.length
  · rw [if_pos hk]
    show after seq _ rows = _
    rw [after_drop h]
    congr 1
    omega
  · rw [if_neg hk, Nat.sub_eq_zero_of_le (by omega)]
    rfl

end

/-! ## Stores with a log -/

section

variable {σ κ : Type} {step : σ → κ → σ} {seq}

/-- **Runs.**  A store whose calls push the next row, cut its log or leave it alone has right columns
    after every call exactly when no call cuts everything. -/
theorem always_truthful (view : σ → Log ε) (pruned : σ → κ → Option Nat) (inv : σ → Prop)
    (hinv : ∀ s c, inv s → inv (step s c))
    (hprune : ∀ s c k, inv s → pruned s c = some k → view (step s c) = (view s).prune seq k)
    (hother : ∀ s c, inv s → pruned s c = none → (view s).Faithful seq →
      view (step s c) = view s ∨ ∃ e, seq e = (view s).last + 1 ∧ view (step s c) = (view s).push seq e)
    {s : σ} (hs : inv s) (hf : (view s).Faithful seq) (calls : List κ) :
    CallRuns.Always step (fun s c => ∀ k, pruned s c = some k → k ≠ 0 ∨ (view s).rows = []) s calls ↔
      CallRuns.Always step (fun s c => (view (step s c)).Truthful seq) s calls := by
  have hkept : ∀ s c, inv s → pruned s c = none → (view s).Faithful seq → (view (step s c)).Faithful seq := by
    intro s c hi hnone h
    rcases hother s c hi hnone h with heq | ⟨e, hseq, heq⟩
    · rw [heq]
      exact h
    · rw [heq]
      exact h.push hseq
  refine CallRuns.always_congr (fun s => inv s ∧ (view s).Faithful seq) ?_ ?_ ⟨hs, hf⟩ calls
  · rintro s c ⟨hi, h⟩ hkeep
    refine ⟨hinv s c hi, ?_⟩
    cases hp : pruned s c with
    | none => exact hkept s c hi hp h
    | some k =>
      rw [hprune s c k hi hp]
      exact h.prune (hkeep k hp)
  · rintro s c ⟨hi, h⟩
    cases hp : pruned s c with
    | none => exact ⟨fun _ => (hkept s c hi hp h).truthful, fun _ k hk => nomatch hk⟩
    | some k =>
      rw [hprune s c k hi hp, h.prune_iff]
      constructor
      · intro hkeep
        exact hkeep k rfl
      · rintro hkeep _ ⟨⟩
        exact hkeep

end

end RetainedLog
