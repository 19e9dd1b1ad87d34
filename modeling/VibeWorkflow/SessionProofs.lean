import Mathlib.Logic.Basic

/-!
# Programs that follow a protocol

A program that shares its state with others is a tree of operations: it names one, is given the answer,
and goes on.  A protocol says of such a program which operation it may name next, and what its answer
moves it to; where the protocol stands is all that the others need to know of the program.

* `Prog` — the programs, a monad;
* `Leads` — a program keeps to a protocol, and where it ends: one rule a construct;
* `Thread.step_follows` — a program that is run keeps to its protocol.
-/

namespace Sessions

/-- A program over operations `Op` that are answered in `Ans`. -/
inductive Prog (Op : Type) (Ans : Op → Type) (α : Type) : Type where
  | ret (a : α)
  | call (op : Op) (k : Ans op → Prog Op Ans α)

variable {Op : Type} {Ans : Op → Type} {α β : Type}

namespace Prog

def bind : Prog Op Ans α → (α → Prog Op Ans β) → Prog Op Ans β
  | .ret a, f => f a
  | .call op k, f => .call op fun r => (k r).bind f

instance : Monad (Prog Op Ans) where
  pure := .ret
  bind := Prog.bind

def perform (op : Op) : Prog Op Ans (Ans op) := .call op .ret

/-- The program has ended. -/
def ended : Prog Op Ans α → Bool
  | .ret _ => true
  | .call _ _ => false

end Prog

/-- Where a program may stand, what it may do there, and where an answer takes it. -/
structure Protocol (Op : Type) (Ans : Op → Type) where
  Phase : Type
  allowed : Phase → Op → Prop
  next : Phase → (op : Op) → Ans op → Phase
  final : Phase → Prop

variable {P : Protocol Op Ans}

/-- The program keeps to the protocol, and ends in a phase that `Q` admits. -/
def Leads (P : Protocol Op Ans) : P.Phase → Prog Op Ans α → (α → P.Phase → Prop) → Prop
  | p, .ret a, Q => Q a p
  | p, .call op k, Q => P.allowed p op ∧ ∀ r, Leads P (P.next p op r) (k r) Q

/-! ## One rule a construct -/

section

variable {p : P.Phase} {Q Q' : α → P.Phase → Prop} {R : β → P.Phase → Prop}

theorem leads_pure {a : α} (h : Q a p) : Leads P p (Pure.pure a) Q := h

theorem leads_perform {op : Op} (hop : P.allowed p op) {Q : Ans op → P.Phase → Prop}
    (h : ∀ r, Q r (P.next p op r)) : Leads P p (Prog.perform op) Q := ⟨hop, h⟩

theorem Leads.mono {m : Prog Op Ans α} (h : Leads P p m Q) (hQ : ∀ a p', Q a p' → Q' a p') : Leads P p m Q' := by
  induction m generalizing p with
  | ret a => exact hQ a p h
  | call op k ih => exact ⟨h.1, fun r => ih r (h.2 r)⟩

/-- **Sequencing.** -/
theorem leads_bind {m : Prog Op Ans α} {f : α → Prog Op Ans β} (hm : Leads P p m Q)
    (hf : ∀ a p', Q a p' → Leads P p' (f a) R) : Leads P p (m >>= f) R := by
  induction m generalizing p with
  | ret a => exact hf a p hm
  | call op k ih => exact ⟨hm.1, fun r => ih r (hm.2 r)⟩

end

/-! ## Running -/

/-- A program that is being run, and where its protocol stands. -/
structure Thread (P : Protocol Op Ans) where
  prog : Prog Op Ans Unit
  phase : P.Phase

/-- What is left of the program keeps to the protocol. -/
def Thread.Follows (t : Thread P) : Prop := Leads P t.phase t.prog fun _ p => P.final p

/-- The program's next operation on a state; one that has ended does nothing. -/
def Thread.step {σ : Type} (exec : σ → (op : Op) → Ans op × σ) (s : σ) (t : Thread P) : σ × Thread P :=
  match t.prog with
  | .ret _ => (s, t)
  | .call op k => ((exec s op).2, ⟨k (exec s op).1, P.next t.phase op (exec s op).1⟩)

section

variable {σ : Type} {exec : σ → (op : Op) → Ans op × σ} {s : σ} {t : Thread P}

/-- **A program that is run keeps to its protocol.** -/
theorem Thread.step_follows (exec : σ → (op : Op) → Ans op × σ) (s : σ) (h : t.Follows) :
    (t.step exec s).2.Follows := by
  obtain ⟨prog, phase⟩ := t
  cases prog with
  | ret a => exact h
  | call op k => exact h.2 _

/-- What a step does: nothing, or an operation that the protocol allows. -/
theorem Thread.step_cases (exec : σ → (op : Op) → Ans op × σ) (s : σ) (h : t.Follows) :
    t.step exec s = (s, t) ∨ ∃ op k, t.prog = .call op k ∧ P.allowed t.phase op ∧
      t.step exec s = ((exec s op).2, ⟨k (exec s op).1, P.next t.phase op (exec s op).1⟩) := by
  obtain ⟨prog, phase⟩ := t
  cases prog with
  | ret a => exact .inl rfl
  | call op k => exact .inr ⟨op, k, rfl, h.1, rfl⟩

/-- A program that has ended stands in a final phase. -/
theorem Thread.final_of_ended (h : t.Follows) (hend : t.prog.ended = true) : P.final t.phase := by
  obtain ⟨prog, phase⟩ := t
  cases prog with
  | ret a => exact h
  | call op k => exact nomatch hend

end

end Sessions
