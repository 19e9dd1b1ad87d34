import Mathlib.Data.List.Forall2
import VibeWorkflow.CallRunProofs

/-!
# Two runs of one machine

A machine takes inputs and lets outputs out, and an observer sees a view of each output.  Two runs are
told apart only where the views of a step differ.

* `Unwinds` — what one step of each run has to keep, and to show;
* **`Unwinds.looksAlike`** — then no step of two runs from related states is told apart, as long as the
  inputs correspond.
-/

namespace TwoRuns

open CallRuns

variable {σ ι ο ν : Type}

/-- The next state, and what the step lets out. -/
abbrev Machine (σ ι ο : Type) := σ → ι → σ × List ο

/-- The states of a run, without the outputs. -/
def Machine.next (m : Machine σ ι ο) (s : σ) (i : ι) : σ := (m s i).1

/-- Everything a run lets out. -/
def outputs (m : Machine σ ι ο) : σ → List ι → List ο
  | _, [] => []
  | s, i :: is => (m s i).2 ++ outputs m (m s i).1 is

/-- Step by step, what two runs let out has the same views wherever the first meets the condition. -/
def LooksAlike (m : Machine σ ι ο) (view : ο → ν) (p : σ → ι → Prop) : σ → σ → List ι → List ι → Prop
  | s, s', i :: is, i' :: is' =>
    (p s i → (m s i).2.map view = (m s' i').2.map view) ∧ LooksAlike m view p (m s i).1 (m s' i').1 is is'
  | _, _, [], [] => True
  | _, _, _, _ => False

/-- One step of each run, from related states and with corresponding inputs. -/
structure Unwinds (m : Machine σ ι ο) (view : ο → ν) (p : σ → ι → Prop) (related : σ → σ → Prop)
    (inputs : ι → ι → Prop) : Prop where
  keeps : ∀ {s s' i i'}, related s s' → inputs i i' → related (m s i).1 (m s' i').1
  shows : ∀ {s s' i i'}, related s s' → inputs i i' → p s i → (m s i).2.map view = (m s' i').2.map view

variable {m : Machine σ ι ο} {view : ο → ν} {p : σ → ι → Prop} {related : σ → σ → Prop} {inputs : ι → ι → Prop}

/-- **Unwinding.** -/
theorem Unwinds.looksAlike (h : Unwinds m view p related inputs) {s s' : σ} (hs : related s s') {is is' : List ι}
    (his : List.Forall₂ inputs is is') : LooksAlike m view p s s' is is' := by
  induction his generalizing s s' with
  | nil => trivial
  | cons hi _ ih => exact ⟨h.shows hs hi, ih (h.keeps hs hi)⟩

end TwoRuns
