import Mathlib.Data.List.Sort
import Mathlib.Data.Prod.Lex
import Mathlib.Data.String.Basic

/-!
# Ordered pages

A query with an order and a limit returns the first rows of a table.  Which rows those are is a matter of
rank: how many rows come before.

* `selectPage` — `ORDER BY key LIMIT limit`;
* `rank` — the rows with a smaller key;
* `mem_selectPage_iff` — a row is on the page exactly when its rank is below the limit.
-/

namespace Paging

variable {α κ : Type} [LinearOrder κ] (key : α → κ)

/-- `ORDER BY key LIMIT limit`. -/
def selectPage (limit : Nat) (rows : List α) : List α :=
  (rows.insertionSort fun a b => key a ≤ key b).take limit

/-- How many rows come before `x`. -/
def rank (rows : List α) (x : α) : Nat := rows.countP fun y => key y < key x

variable {key}

theorem sorted_rows (rows : List α) : (rows.insertionSort fun a b => key a ≤
    key b).Pairwise fun a b => key a ≤ key b := by
  have : Std.Total fun a b : α => key a ≤ key b := ⟨fun a b => le_total (key a) (key b)⟩
  have : IsTrans α fun a b => key a ≤ key b := ⟨fun a b c hab hbc => le_trans hab hbc⟩
  exact List.pairwise_insertionSort _ rows

/-- In a list in strict order, an entry is among the first ones when few are before it. -/
theorem mem_take_iff_rank : ∀ {rows : List α}, rows.Pairwise (fun a b => key a < key b) → ∀ {x : α}, x ∈ rows →
    ∀ limit, x ∈ rows.take limit ↔ rank key rows x < limit := by
  intro rows
  induction rows with
  | nil =>
    intro _ x hx
    exact nomatch hx
  | cons y rows ih =>
    intro hsorted x hx limit
    obtain ⟨hbefore, hsorted⟩ := List.pairwise_cons.mp hsorted
    cases limit with
    | zero => simp
    | succ limit =>
      rw [List.take_succ_cons, List.mem_cons, rank, List.countP_cons]
      rcases List.mem_cons.mp hx with rfl | hx
      · -- nothing later is smaller, so the head has rank zero
        have hzero : rows.countP (fun y => key y < key x) = 0 := by
          refine List.countP_eq_zero.mpr fun z hz => ?_
          simpa using le_of_lt (hbefore z hz)
        simp [hzero]
      · have hne : x ≠ y := fun heq => lt_irrefl _ (heq ▸ hbefore x hx)
        have hlt := ih hsorted hx limit
        rw [rank] at hlt
        simp [hne, hlt, hbefore x hx]

/-- **What is on a page**: the rows whose rank is below its limit. -/
theorem mem_selectPage_iff {rows : List α} (hkeys : (rows.map key).Nodup) {x : α} (hx : x ∈ rows) (limit : Nat) :
    x ∈ selectPage key limit rows ↔ rank key rows x < limit := by
  have hperm := List.perm_insertionSort (fun a b => key a ≤ key b) rows
  have hnodup : ((rows.insertionSort fun a b => key a ≤ key b).map key).Nodup :=
    (hperm.map key).nodup_iff.mpr hkeys
  have hstrict : (rows.insertionSort fun a b => key a ≤ key b).Pairwise fun a b => key a < key b := by
    refine ((sorted_rows rows).and (List.pairwise_map.mp hnodup)).imp ?_
    rintro a b ⟨hle, hne⟩
    exact lt_of_le_of_ne hle hne
  rw [selectPage, mem_take_iff_rank hstrict (hperm.mem_iff.mpr hx)]
  simp only [rank, hperm.countP_eq]

theorem mem_of_mem_selectPage {rows : List α} {x : α} {limit : Nat} (h : x ∈ selectPage key limit rows) : x ∈ rows :=
  (List.perm_insertionSort _ rows).mem_iff.mp (List.mem_of_mem_take h)

theorem length_selectPage_le (limit : Nat) (rows : List α) : (selectPage key limit rows).length ≤ limit :=
  List.length_take_le _ _

end Paging
