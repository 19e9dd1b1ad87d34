import Mathlib.Data.List.Infix
import Mathlib.Algebra.Order.Group.Unbundled.Int

/-!
# Reading a growing log by a cursor

The rows of a log carry increasing numbers.  A reader keeps the greatest number it has seen; each read gives
it some of the rows after that, from the first one on, while the log grows behind its back.

* `between`, `after`, `advance` — the rows of an interval, those after a cursor, and the cursor after some rows;
* **`Polled`** — the rows that were read are exactly those of the interval the cursor has passed;
* `Polled.of_after`, **`Polled.trans`** — one read, and a read after another.
-/

namespace Cursor

variable {ε : Type} (seq : ε → Int)

def between (a b : Int) (log : List ε) : List ε := log.filter fun e => decide (a < seq e ∧ seq e ≤ b)

def after (a : Int) (log : List ε) : List ε := log.filter fun e => decide (a < seq e)

/-- The greatest number seen. -/
def advance (c : Int) (rows : List ε) : Int := rows.foldl (fun c e => max c (seq e)) c

def Increasing (log : List ε) : Prop := log.Pairwise fun a b => seq a < seq b

/-- **What was read** from a log, with the cursor before and after. -/
structure Polled (c : Int) (log rows : List ε) (c' : Int) : Prop where
  le : c ≤ c'
  rows : rows = between seq c c' log
  seen : c' = c ∨ ∃ e ∈ log, seq e = c'

variable {seq} {c c' c'' : Int} {log log' rows rows' : List ε}

theorem Increasing.initial (h : Increasing seq log') (hlog : log <+: log') : Increasing seq log :=
  List.Pairwise.sublist hlog.sublist h

theorem mem_after {e : ε} : e ∈ after seq c log ↔ e ∈ log ∧ c < seq e := by
  rw [after, List.mem_filter, decide_eq_true_iff]

variable (seq) in
theorem le_advance (c : Int) (rows : List ε) : c ≤ advance seq c rows ∧ ∀ e ∈ rows, seq e ≤ advance seq c rows := by
  induction rows generalizing c with
  | nil => exact ⟨le_refl _, fun e he => nomatch he⟩
  | cons e rows ih =>
    obtain ⟨hle, hall⟩ := ih (max c (seq e))
    refine ⟨le_trans (le_max_left _ _) hle, ?_⟩
    intro e' he'
    rcases List.mem_cons.mp he' with rfl | he'
    · exact le_trans (le_max_right _ _) hle
    · exact hall e' he'

variable (seq) in
theorem advance_seen (c : Int) (rows : List ε) : advance seq c rows = c ∨ ∃ e ∈ rows, seq e = advance seq c rows := by
  induction rows generalizing c with
  | nil => exact .inl rfl
  | cons e rows ih =>
    show advance seq (max c (seq e)) rows = c ∨ ∃ e' ∈ e :: rows, seq e' = advance seq (max c (seq e)) rows
    rcases ih (max c (seq e)) with h | ⟨e', he', h⟩
    · rw [h]
      rcases le_total (seq e) c with hle | hle
      · exact .inl (max_eq_left hle)
      · exact .inr ⟨e, List.mem_cons_self, (max_eq_right hle).symm⟩
    · exact .inr ⟨e', List.mem_cons_of_mem _ he', h⟩

theorem between_self : between seq c c log = [] := by
  refine List.filter_eq_nil_iff.mpr fun e _ he => ?_
  have := of_decide_eq_true he
  omega

theorem between_append_log (a b : Int) (log more : List ε) :
    between seq a b (log ++ more) = between seq a b log ++ between seq a b more := List.filter_append _ _

/-- Rows that come later than the cursor do not matter. -/
theorem between_grow (h : Increasing seq log') (hlog : log <+: log') (hseen : c' = c ∨ ∃ e ∈ log, seq e = c') :
    between seq c c' log' = between seq c c' log := by
  rcases hseen with rfl | ⟨e, he, rfl⟩
  · rw [between_self, between_self]
  · obtain ⟨more, rfl⟩ := hlog
    have hmore : between seq c (seq e) more = [] := by
      refine List.filter_eq_nil_iff.mpr fun e' he' hin => ?_
      have hlt := (List.pairwise_append.mp h).2.2 e he e' he'
      have := of_decide_eq_true hin
      omega
    rw [between_append_log, hmore, List.append_nil]

/-- Adjoining intervals. -/
theorem between_adjoin (h : Increasing seq log) (hle : c ≤ c') (hle' : c' ≤ c'') :
    between seq c c' log ++ between seq c' c'' log = between seq c c'' log := by
  induction log with
  | nil => rfl
  | cons e log ih =>
    obtain ⟨hlater, hrest⟩ := List.pairwise_cons.mp h
    have ih := ih hrest
    by_cases hfirst : c < seq e ∧ seq e ≤ c'
    · have h₁ : between seq c c' (e :: log) = e :: between seq c c' log := List.filter_cons_of_pos
        (decide_eq_true hfirst)
      have h₂ : between seq c' c'' (e :: log) = between seq c' c'' log :=
        List.filter_cons_of_neg (by rw [decide_eq_true_iff]; omega)
      have h₃ : between seq c c'' (e :: log) = e :: between seq c c'' log :=
        List.filter_cons_of_pos (decide_eq_true (by omega))
      rw [h₁, h₂, h₃, List.cons_append, ih]
    · by_cases hsecond : c' < seq e ∧ seq e ≤ c''
      · -- nothing after this row is in the first interval
        have hnone : between seq c c' log = [] := by
          refine List.filter_eq_nil_iff.mpr fun e' he' hin => ?_
          have := hlater e' he'
          have := of_decide_eq_true hin
          omega
        have h₁ : between seq c c' (e :: log) = between seq c c' log :=
          List.filter_cons_of_neg (by rw [decide_eq_true_iff]; exact hfirst)
        have h₂ : between seq c' c'' (e :: log) = e :: between seq c' c'' log :=
          List.filter_cons_of_pos (decide_eq_true hsecond)
        have h₃ : between seq c c'' (e :: log) = e :: between seq c c'' log :=
          List.filter_cons_of_pos (decide_eq_true (by omega))
        rw [hnone, List.nil_append] at ih
        rw [h₁, h₂, h₃, hnone, List.nil_append, ih]
      · have h₁ : between seq c c' (e :: log) = between seq c c' log :=
          List.filter_cons_of_neg (by rw [decide_eq_true_iff]; exact hfirst)
        have h₂ : between seq c' c'' (e :: log) = between seq c' c'' log :=
          List.filter_cons_of_neg (by rw [decide_eq_true_iff]; exact hsecond)
        have h₃ : between seq c c'' (e :: log) = between seq c c'' log :=
          List.filter_cons_of_neg (by rw [decide_eq_true_iff]; omega)
        rw [h₁, h₂, h₃, ih]

/-- The rows after a cursor: those up to a later one, and those after it. -/
theorem after_split (h : Increasing seq log) (hle : c ≤ c') :
    after seq c log = between seq c c' log ++ after seq c' log := by
  have hbound : ∀ a, after seq a log = between seq a (advance seq c' log) log := by
    intro a
    refine List.filter_congr fun e he => decide_eq_decide.mpr ?_
    constructor
    · exact fun hlt => ⟨hlt, (le_advance seq c' log).2 e he⟩
    · exact fun hin => hin.1
  rw [hbound c, hbound c', between_adjoin h hle (le_advance seq c' log).1]

/-- After rows in order, the cursor is at the last one. -/
theorem advance_last (hrows : Increasing seq rows) (hahead : ∀ e ∈ rows, c < seq e) :
    advance seq c rows = (rows.getLast?.map seq).getD c := by
  induction rows generalizing c with
  | nil => rfl
  | cons e rows ih =>
    obtain ⟨hlater, hrest⟩ := List.pairwise_cons.mp hrows
    have hmax : max c (seq e) = seq e := max_eq_right (le_of_lt (hahead e List.mem_cons_self))
    show advance seq (max c (seq e)) rows = _
    rw [hmax, ih hrest hlater]
    cases rows with
    | nil => rfl
    | cons d rows => rw [List.getLast?_cons_cons, List.getLast?_cons]; rfl

theorem Polled.refl (c : Int) (log : List ε) : Polled seq c log [] c := ⟨le_refl _, between_self.symm, .inl rfl⟩

/-- **One read**: the first of the rows after the cursor. -/
theorem Polled.of_after (h : Increasing seq log) (hrows : rows <+: after seq c log) :
    Polled seq c log rows (advance seq c rows) := by
  obtain ⟨hle, hall⟩ := le_advance seq c rows
  have hmem : ∀ e ∈ rows, e ∈ log ∧ c < seq e := fun e he => mem_after.mp (hrows.subset he)
  refine ⟨hle, ?_, ?_⟩
  · obtain ⟨more, hmore⟩ := hrows
    have hsorted : Increasing seq (rows ++ more) := by
      rw [hmore]
      exact List.Pairwise.sublist List.filter_sublist h
    have hbetween : between seq c (advance seq c rows) log = between seq c (advance seq c rows) (rows ++ more) := by
      rw [hmore, between, between, after, List.filter_filter]
      refine List.filter_congr fun e _ => ?_
      rw [← Bool.decide_and]
      refine decide_eq_decide.mpr ?_
      constructor
      · exact fun hin => ⟨hin, hin.1⟩
      · exact fun hin => hin.1
    have hkeep : between seq c (advance seq c rows) rows = rows :=
      List.filter_eq_self.mpr fun e he => decide_eq_true ⟨(hmem e he).2, hall e he⟩
    have hdrop : between seq c (advance seq c rows) more = [] := by
      refine List.filter_eq_nil_iff.mpr fun e he hin => ?_
      have hin := of_decide_eq_true hin
      rcases advance_seen seq c rows with hc | ⟨e', he', hc⟩
      · omega
      · have := (List.pairwise_append.mp hsorted).2.2 e' he' e he
        omega
    rw [hbetween, between_append_log, hkeep, hdrop, List.append_nil]
  · rcases advance_seen seq c rows with hc | ⟨e, he, hc⟩
    · exact .inl hc
    · exact .inr ⟨e, (hmem e he).1, hc⟩

/-- **A read after another**, from where the cursor stands, of a log that has grown. -/
theorem Polled.trans (h : Polled seq c log rows c') (hsorted : Increasing seq log') (hlog : log <+: log')
    (h' : Polled seq c' log' rows' c'') : Polled seq c log' (rows ++ rows') c'' := by
  refine ⟨le_trans h.le h'.le, ?_, ?_⟩
  · rw [h.rows, ← between_grow hsorted hlog h.seen, h'.rows]
    exact between_adjoin hsorted h.le h'.le
  · rcases h'.seen with rfl | hseen
    · rcases h.seen with hc | ⟨e, he, hc⟩
      · exact .inl hc
      · exact .inr ⟨e, hlog.subset he, hc⟩
    · exact .inr hseen

end Cursor
