import Mathlib.Logic.Relation

/-!
# A logic for asynchronous programs

An asynchronous program awaits one operation after another; between two of them, and between an
operation and the code that follows it, other activities of the process may run.  Programs here
are finite trees of awaited operations, with a node for each loop they enter, so a program
that never ends is still an inductive value.  Code between two awaits is one uninterrupted
piece and sees the process flags as they are when it wakes.

* **`Js`** — the monad of such programs, with exceptions.
* **`wp`** — what must hold for a program to be safe under interference: a precondition at each
  operation, an invariant at each loop, a postcondition at the end.
* **`wpJs_bind`**, **`wpJs_await_bind`**, **`wpJs_recur_bind`**, **`wpJs_tryCatch`** — one rule a
  construct.
* **`threadOk_exec`**, **`threadOk_wake`**, **`threadOk_unfold`** — a running thread stays safe.
-/

namespace AsyncLogic

/-! ## Programs -/

/-- What a program may await, what its flags are, and which loops it has. -/
structure Sig where
  Op : Type
  Ans : Op → Type
  Err : Type
  Flags : Type
  Label : Type
  Ret : Label → Type

/-- A program tree.  `loop l` stands for the body of the loop named `l`. -/
inductive Prog (S : Sig) (α : Type) : Type where
  | ret (a : α)
  | call (op : S.Op) (k : Except S.Err (S.Ans op) → S.Flags → Prog S α)
  | loop (l : S.Label) (fl : S.Flags) (k : Except S.Err (S.Ret l) → S.Flags → Prog S α)

variable {S : Sig} {α β : Type}

namespace Prog

def bind : Prog S α → (α → Prog S β) → Prog S β
  | .ret a, f => f a
  | .call op k, f => .call op (fun r fl => (k r fl).bind f)
  | .loop l fl k, f => .loop l fl (fun r fl' => (k r fl').bind f)

end Prog

/-- A program with exceptions, started with the flags it wakes up with. -/
def Js (S : Sig) (α : Type) : Type := S.Flags → Prog S (Except S.Err α × S.Flags)

namespace Js

def pure (a : α) : Js S α := fun fl => .ret (.ok a, fl)

def bind (m : Js S α) (f : α → Js S β) : Js S β := fun fl =>
  (m fl).bind (fun r => match r.1 with
    | .ok a => f a r.2
    | .error e => .ret (.error e, r.2))

def throw (e : S.Err) : Js S α := fun fl => .ret (.error e, fl)

def tryCatch (m : Js S α) (h : S.Err → Js S α) : Js S α := fun fl =>
  (m fl).bind (fun r => match r.1 with
    | .ok a => .ret (.ok a, r.2)
    | .error e => h e r.2)

/-- Await an operation. -/
def await (op : S.Op) : Js S (S.Ans op) := fun _ => .call op (fun r fl => .ret (r, fl))

/-- Enter a loop. -/
def recur (l : S.Label) : Js S (S.Ret l) := fun fl => .loop l fl (fun r fl' => .ret (r, fl'))

/-- Read the process flags. -/
def flags : Js S S.Flags := fun fl => .ret (.ok fl, fl)

instance : Monad (Js S) where
  pure := Js.pure
  bind := Js.bind

instance : MonadExcept S.Err (Js S) where
  throw := Js.throw
  tryCatch := Js.tryCatch

end Js

/-! ## Contracts -/

/-- What a thread may assume of its surroundings and owes to them.  `exec` says how an operation
    may answer and change the world; `wake` is what waking up records in it. -/
structure Contract (S : Sig) (W : Type) where
  inv : W → Prop
  rely : W → W → Prop
  rely_refl : ∀ w, rely w w
  rely_trans : ∀ {a b c}, rely a b → rely b c → rely a c
  pre : S.Op → W → Prop
  exec : (op : S.Op) → W → Except S.Err (S.Ans op) → W → Prop
  wake : (op : S.Op) → Except S.Err (S.Ans op) → W → W
  flags : W → S.Flags
  linv : S.Label → S.Flags → W → Prop
  lpost : (l : S.Label) → S.Flags → W → Except S.Err (S.Ret l) → S.Flags → W → Prop

variable {W : Type} (C : Contract S W)

/-- **Safety of a program**, started in a world that others may change along `rely`. -/
def wp : Prog S α → (α → W → Prop) → W → Prop
  | .ret a, Q, w => ∀ w₁, C.rely w w₁ → C.inv w₁ → Q a w₁
  | .call op k, Q, w => ∀ w₁, C.rely w w₁ → C.inv w₁ → C.pre op w₁ ∧
      ∀ r w₂, C.exec op w₁ r w₂ → ∀ w₃, C.rely w₂ w₃ → C.inv w₃ →
        wp (k r (C.flags w₃)) Q (C.wake op r w₃)
  | .loop l fl k, Q, w => ∀ w₁, C.rely w w₁ → C.inv w₁ → C.linv l fl w₁ ∧
      ∀ r fl' w₂, C.lpost l fl w₁ r fl' w₂ → wp (k r fl') Q w₂

variable {C}

/-- Safety may be shown where the program is resumed. -/
theorem wp_intro {p : Prog S α} {Q : α → W → Prop} {w : W}
    (h : ∀ w₁, C.rely w w₁ → C.inv w₁ → wp C p Q w₁) : wp C p Q w := by
  cases p with
  | ret a =>
    intro w₁ hr hi
    exact h w₁ hr hi w₁ (C.rely_refl w₁) hi
  | call op k =>
    intro w₁ hr hi
    exact h w₁ hr hi w₁ (C.rely_refl w₁) hi
  | loop l fl k =>
    intro w₁ hr hi
    exact h w₁ hr hi w₁ (C.rely_refl w₁) hi

/-- **Interference keeps a program safe.** -/
theorem wp_rely {p : Prog S α} {Q : α → W → Prop} {w w' : W} (h : wp C p Q w)
    (hr : C.rely w w') : wp C p Q w' := by
  cases p with
  | ret a =>
    intro w₁ hr₁ hi
    exact h w₁ (C.rely_trans hr hr₁) hi
  | call op k =>
    intro w₁ hr₁ hi
    exact h w₁ (C.rely_trans hr hr₁) hi
  | loop l fl k =>
    intro w₁ hr₁ hi
    exact h w₁ (C.rely_trans hr hr₁) hi

/-- **Sequencing.**  What the first program leaves holds under further interference. -/
theorem wp_bind {p : Prog S α} {f : α → Prog S β} {R : α → W → Prop} {Q : β → W → Prop} {w : W}
    (h : wp C p R w)
    (hf : ∀ a w', (∀ w₁, C.rely w' w₁ → C.inv w₁ → R a w₁) → wp C (f a) Q w') :
    wp C (p.bind f) Q w := by
  induction p generalizing w with
  | ret a => exact hf a w h
  | call op k ih =>
    intro w₁ hr hi
    obtain ⟨hpre, hpost⟩ := h w₁ hr hi
    refine ⟨hpre, ?_⟩
    intro r w₂ hex w₃ hr₃ hi₃
    exact ih r (C.flags w₃) (hpost r w₂ hex w₃ hr₃ hi₃)
  | loop l fl k ih =>
    intro w₁ hr hi
    obtain ⟨hinv, hpost⟩ := h w₁ hr hi
    refine ⟨hinv, ?_⟩
    intro r fl' w₂ hl
    exact ih r fl' (hpost r fl' w₂ hl)

/-- A safe program is safe for every weaker postcondition. -/
theorem wp_mono {p : Prog S α} {Q Q' : α → W → Prop} {w : W} (h : wp C p Q w)
    (hQ : ∀ a w', C.inv w' → Q a w' → Q' a w') : wp C p Q' w := by
  induction p generalizing w with
  | ret a =>
    intro w₁ hr hi
    exact hQ a w₁ hi (h w₁ hr hi)
  | call op k ih =>
    intro w₁ hr hi
    obtain ⟨hpre, hpost⟩ := h w₁ hr hi
    refine ⟨hpre, ?_⟩
    intro r w₂ hex w₃ hr₃ hi₃
    exact ih r (C.flags w₃) (hpost r w₂ hex w₃ hr₃ hi₃)
  | loop l fl k ih =>
    intro w₁ hr hi
    obtain ⟨hinv, hpost⟩ := h w₁ hr hi
    refine ⟨hinv, ?_⟩
    intro r fl' w₂ hl
    exact ih r fl' (hpost r fl' w₂ hl)

/-! ## The rules -/

variable (C)

/-- Safety of a program with exceptions: `Q` when it returns, `E` when it throws. -/
def wpJs (m : Js S α) (Q : α → S.Flags → W → Prop) (E : S.Err → S.Flags → W → Prop)
    (fl : S.Flags) (w : W) : Prop :=
  wp C (m fl) (fun r w' => match r.1 with
    | .ok a => Q a r.2 w'
    | .error e => E e r.2 w') w

variable {C} {Q : α → S.Flags → W → Prop} {Q' : β → S.Flags → W → Prop}
  {E : S.Err → S.Flags → W → Prop} {fl : S.Flags} {w : W}

theorem wpJs_intro {m : Js S α}
    (h : ∀ w₁, C.rely w w₁ → C.inv w₁ → wpJs C m Q E fl w₁) : wpJs C m Q E fl w :=
  wp_intro h

theorem wpJs_rely {m : Js S α} {w' : W} (h : wpJs C m Q E fl w) (hr : C.rely w w') :
    wpJs C m Q E fl w' :=
  wp_rely h hr

theorem wpJs_pure {a : α} (h : ∀ w₁, C.rely w w₁ → C.inv w₁ → Q a fl w₁) :
    wpJs C (Pure.pure a : Js S α) Q E fl w :=
  h

theorem wpJs_throw {e : S.Err} (h : ∀ w₁, C.rely w w₁ → C.inv w₁ → E e fl w₁) :
    wpJs C (MonadExcept.throw e : Js S α) Q E fl w :=
  h

theorem wpJs_mono {m : Js S α} {R : α → S.Flags → W → Prop} {E' : S.Err → S.Flags → W → Prop}
    (h : wpJs C m R E' fl w) (hQ : ∀ a fl' w', C.inv w' → R a fl' w' → Q a fl' w')
    (hE : ∀ e fl' w', C.inv w' → E' e fl' w' → E e fl' w') : wpJs C m Q E fl w := by
  refine wp_mono h ?_
  rintro ⟨r, fl'⟩ w' hi hr
  cases r with
  | ok a => exact hQ a fl' w' hi hr
  | error e => exact hE e fl' w' hi hr

theorem wpJs_bind {m : Js S α} {f : α → Js S β}
    (h : wpJs C m (fun a fl' w' => wpJs C (f a) Q' E fl' w') E fl w) :
    wpJs C (m >>= f) Q' E fl w := by
  refine wp_bind h ?_
  rintro ⟨r, fl'⟩ w' hr
  cases r with
  | ok a => exact wp_intro hr
  | error e => exact hr

theorem wpJs_tryCatch {m : Js S α} {handler : S.Err → Js S α}
    (h : wpJs C m Q (fun e fl' w' => wpJs C (handler e) Q E fl' w') fl w) :
    wpJs C (MonadExcept.tryCatch m handler) Q E fl w := by
  refine wp_bind h ?_
  rintro ⟨r, fl'⟩ w' hr
  cases r with
  | ok a => exact hr
  | error e => exact wp_intro hr

/-- Reading the flags. -/
theorem wpJs_flags_bind {f : S.Flags → Js S β} (h : wpJs C (f fl) Q' E fl w) :
    wpJs C (Js.flags >>= f) Q' E fl w :=
  h

/-- **Awaiting an operation.**  Its precondition is due when it takes effect; the code after it
    starts in the world it wakes up in. -/
theorem wpJs_await {op : S.Op} {Q : S.Ans op → S.Flags → W → Prop}
    (h : ∀ w₁, C.rely w w₁ → C.inv w₁ → C.pre op w₁ ∧
      ∀ r w₂, C.exec op w₁ r w₂ → ∀ w₃, C.rely w₂ w₃ → C.inv w₃ →
        ∀ w₄, C.rely (C.wake op r w₃) w₄ → C.inv w₄ →
          match r with
          | .ok a => Q a (C.flags w₃) w₄
          | .error e => E e (C.flags w₃) w₄) :
    wpJs C (Js.await op) Q E fl w := by
  intro w₁ hr hi
  obtain ⟨hpre, hpost⟩ := h w₁ hr hi
  refine ⟨hpre, ?_⟩
  intro r w₂ hex w₃ hr₃ hi₃ w₄ hr₄ hi₄
  have := hpost r w₂ hex w₃ hr₃ hi₃ w₄ hr₄ hi₄
  cases r with
  | ok a => exact this
  | error e => exact this

theorem wpJs_await_bind {op : S.Op} {f : S.Ans op → Js S β}
    (h : ∀ w₁, C.rely w w₁ → C.inv w₁ → C.pre op w₁ ∧
      ∀ r w₂, C.exec op w₁ r w₂ → ∀ w₃, C.rely w₂ w₃ → C.inv w₃ →
        ∀ w₄, C.rely (C.wake op r w₃) w₄ → C.inv w₄ →
          match r with
          | .ok a => wpJs C (f a) Q' E (C.flags w₃) w₄
          | .error e => E e (C.flags w₃) w₄) :
    wpJs C (Js.await op >>= f) Q' E fl w :=
  wpJs_bind (wpJs_await h)

/-- **Entering a loop**: its invariant is due, its postcondition is had. -/
theorem wpJs_recur {l : S.Label} {Q : S.Ret l → S.Flags → W → Prop}
    (h : ∀ w₁, C.rely w w₁ → C.inv w₁ → C.linv l fl w₁ ∧
      ∀ r fl' w₂, C.lpost l fl w₁ r fl' w₂ → ∀ w₃, C.rely w₂ w₃ → C.inv w₃ →
        match r with
        | .ok a => Q a fl' w₃
        | .error e => E e fl' w₃) :
    wpJs C (Js.recur l) Q E fl w := by
  intro w₁ hr hi
  obtain ⟨hinv, hpost⟩ := h w₁ hr hi
  refine ⟨hinv, ?_⟩
  intro r fl' w₂ hl w₃ hr₃ hi₃
  have := hpost r fl' w₂ hl w₃ hr₃ hi₃
  cases r with
  | ok a => exact this
  | error e => exact this

theorem wpJs_recur_bind {l : S.Label} {f : S.Ret l → Js S β}
    (h : ∀ w₁, C.rely w w₁ → C.inv w₁ → C.linv l fl w₁ ∧
      ∀ r fl' w₂, C.lpost l fl w₁ r fl' w₂ → ∀ w₃, C.rely w₂ w₃ → C.inv w₃ →
        match r with
        | .ok a => wpJs C (f a) Q' E fl' w₃
        | .error e => E e fl' w₃) :
    wpJs C (Js.recur l >>= f) Q' E fl w :=
  wpJs_bind (wpJs_recur h)

/-! ## Threads -/

/-- A thread is about to await an operation, or has its answer and is about to wake up. -/
inductive Thread (S : Sig) (α : Type) where
  | run (p : Prog S α)
  | woken (op : S.Op) (r : Except S.Err (S.Ans op))
      (k : Except S.Err (S.Ans op) → S.Flags → Prog S α)

/-- Replace a loop by its body, followed by what comes after the loop. -/
def unfoldLoop (body : (l : S.Label) → Js S (S.Ret l)) : Prog S α → Prog S α
  | .loop l fl k => (body l fl).bind (fun r => k r.1 r.2)
  | p => p

variable (C)

/-- Every loop body keeps its invariant's promise. -/
def BodiesOk (body : (l : S.Label) → Js S (S.Ret l)) : Prop :=
  ∀ l fl w, C.inv w → C.linv l fl w →
    wp C (body l fl) (fun r w' => C.lpost l fl w r.1 r.2 w') w

def threadOk (Q : α → W → Prop) : Thread S α → W → Prop
  | .run p, w => wp C p Q w
  | .woken op r k, w => ∀ w₃, C.rely w w₃ → C.inv w₃ →
      wp C (k r (C.flags w₃)) Q (C.wake op r w₃)

variable {C} {R : α → W → Prop}

theorem threadOk_rely {t : Thread S α} {w' : W} (h : threadOk C R t w) (hr : C.rely w w') :
    threadOk C R t w' := by
  cases t with
  | run p => exact wp_rely h hr
  | woken op r k =>
    intro w₃ hr₃ hi₃
    exact h w₃ (C.rely_trans hr hr₃) hi₃

/-- **An operation of a safe thread** meets its precondition and leaves the thread safe. -/
theorem threadOk_exec {op : S.Op} {k : Except S.Err (S.Ans op) → S.Flags → Prog S α}
    (h : threadOk C R (.run (.call op k)) w) (hi : C.inv w) :
    C.pre op w ∧ ∀ r w₂, C.exec op w r w₂ → threadOk C R (.woken op r k) w₂ := by
  obtain ⟨hpre, hpost⟩ := h w (C.rely_refl w) hi
  exact ⟨hpre, fun r w₂ hex w₃ hr₃ hi₃ => hpost r w₂ hex w₃ hr₃ hi₃⟩

theorem threadOk_wake {op : S.Op} {r : Except S.Err (S.Ans op)}
    {k : Except S.Err (S.Ans op) → S.Flags → Prog S α}
    (h : threadOk C R (.woken op r k) w) (hi : C.inv w) :
    threadOk C R (.run (k r (C.flags w))) (C.wake op r w) :=
  h w (C.rely_refl w) hi

theorem threadOk_unfold {body : (l : S.Label) → Js S (S.Ret l)} (hb : BodiesOk C body)
    {p : Prog S α} (h : threadOk C R (.run p) w) :
    threadOk C R (.run (unfoldLoop body p)) w := by
  cases p with
  | ret a => exact h
  | call op k => exact h
  | loop l fl k =>
    refine wp_intro ?_
    intro w₁ hr hi
    obtain ⟨hinv, hpost⟩ := h w₁ hr hi
    refine wp_bind (hb l fl w₁ hi hinv) ?_
    intro r w' hl
    exact wp_intro (fun w₂ hr₂ hi₂ => hpost r.1 r.2 w₂ (hl w₂ hr₂ hi₂))

/-- A finished thread has its postcondition. -/
theorem threadOk_ret {a : α} (h : threadOk C R (.run (.ret a)) w) (hi : C.inv w) : R a w :=
  h w (C.rely_refl w) hi

end AsyncLogic
