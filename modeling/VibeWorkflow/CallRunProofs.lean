import Mathlib.Data.List.Basic

/-!
# Sequences of calls on a state

A store that answers one call after another is a step function, and a run is a list of calls.
What holds of a run is said step by step: `Always p` asks `p` of every call in the state it finds.

* `Always.inv_run` — an invariant kept by the calls that meet a condition holds at the end;
* `always_congr` — under an invariant, two conditions that agree on every step agree on every run.
-/

namespace CallRuns

variable {σ κ : Type} (step : σ → κ → σ)

/-- The state after a sequence of calls. -/
def run (s : σ) (calls : List κ) : σ := calls.foldl step s

/-- Every call meets the condition in the state it finds. -/
def Always (p : σ → κ → Prop) : σ → List κ → Prop
  | _, [] => True
  | s, c :: cs => p s c ∧ Always p (step s c) cs

variable {step}

@[simp] theorem run_nil (s : σ) : run step s [] = s := rfl

@[simp] theorem run_cons (s : σ) (c : κ) (cs : List κ) : run step s (c :: cs) = run step (step s c) cs := rfl

theorem run_append (s : σ) (cs ds : List κ) : run step s (cs ++ ds) = run step (run step s cs) ds :=
  List.foldl_append

theorem always_append {p : σ → κ → Prop} {s : σ} {cs ds : List κ} :
    Always step p s (cs ++ ds) ↔ Always step p s cs ∧ Always step p (run step s cs) ds := by
  induction cs generalizing s with
  | nil => exact (true_and _).symm ▸ Iff.rfl
  | cons c cs ih =>
    show p s c ∧ Always step p (step s c) (cs ++ ds) ↔ (p s c ∧ Always step p (step s c) cs) ∧ _
    rw [ih, and_assoc]
    exact Iff.rfl

/-- Whether the calls of a run meet a condition can be computed. -/
instance instDecidableAlways {p : σ → κ → Prop} [∀ s c, Decidable (p s c)] :
  (s : σ) → (cs : List κ) → Decidable (Always step p s cs)
  | _, [] => .isTrue trivial
  | s, c :: cs =>
    have : Decidable (Always step p (step s c) cs) := instDecidableAlways (step s c) cs
    inferInstanceAs (Decidable (p s c ∧ Always step p (step s c) cs))

/-- A condition that every state and call meets. -/
theorem always_of_forall {p : σ → κ → Prop} (h : ∀ s c, p s c) (s : σ) (cs : List κ) : Always step p s cs := by
  induction cs generalizing s with
  | nil => trivial
  | cons c cs ih => exact ⟨h s c, ih _⟩

/-- A condition on the calls alone. -/
theorem always_of_mem {p : κ → Prop} {cs : List κ} (h : ∀ c ∈ cs, p c) (s : σ) : Always step (fun _ c => p c) s cs := by
  induction cs generalizing s with
  | nil => trivial
  | cons c cs ih => exact ⟨h c (List.mem_cons_self ..), ih (fun d hd => h d (List.mem_cons_of_mem _ hd)) _⟩

theorem always_forall {ι : Type} {p : ι → σ → κ → Prop} {s : σ} {cs : List κ} :
    Always step (fun s c => ∀ i, p i s c) s cs ↔ ∀ i, Always step (p i) s cs := by
  induction cs generalizing s with
  | nil => exact ⟨fun _ _ => trivial, fun _ => trivial⟩
  | cons c cs ih =>
    constructor
    · rintro ⟨hc, hcs⟩ i
      exact ⟨hc i, ih.mp hcs i⟩
    · intro h
      exact ⟨fun i => (h i).1, ih.mpr fun i => (h i).2⟩

theorem Always.and {p q : σ → κ → Prop} {s : σ} {cs : List κ} (hp : Always step p s cs)
    (hq : Always step q s cs) : Always step (fun s c => p s c ∧ q s c) s cs := by
  induction cs generalizing s with
  | nil => trivial
  | cons c cs ih => exact ⟨⟨hp.1, hq.1⟩, ih hp.2 hq.2⟩

/-- **Invariants of runs.** -/
theorem Always.inv_run {p : σ → κ → Prop} (inv : σ → Prop) (hstep : ∀ s c, inv s → p s c → inv (step s c))
    {s : σ} {cs : List κ} (h : Always step p s cs) (hinv : inv s) : inv (run step s cs) := by
  induction cs generalizing s with
  | nil => exact hinv
  | cons c cs ih => exact ih h.2 (hstep s c hinv h.1)

/-- A condition that follows from another one under an invariant. -/
theorem Always.imp {p q : σ → κ → Prop} (inv : σ → Prop) (hstep : ∀ s c, inv s → p s c → inv (step s c))
    (hpq : ∀ s c, inv s → p s c → q s c) {s : σ} {cs : List κ} (h : Always step p s cs) (hinv : inv s) :
    Always step q s cs := by
  induction cs generalizing s with
  | nil => trivial
  | cons c cs ih => exact ⟨hpq s c hinv h.1, ih h.2 (hstep s c hinv h.1)⟩

/-- **Two conditions that agree under an invariant** agree on every run from it. -/
theorem always_congr {p q : σ → κ → Prop} (inv : σ → Prop) (hstep : ∀ s c, inv s → p s c → inv (step s c))
    (hpq : ∀ s c, inv s → (p s c ↔ q s c)) {s : σ} (hinv : inv s) (cs : List κ) :
    Always step p s cs ↔ Always step q s cs := by
  constructor
  · intro h
    exact h.imp inv hstep (fun s c hi => (hpq s c hi).mp) hinv
  · intro h
    exact h.imp inv (fun s c hi hq => hstep s c hi ((hpq s c hi).mpr hq)) (fun s c hi => (hpq s c hi).mpr) hinv

end CallRuns
