import VibeWorkflow.AsyncProofs

/-!
# Undisturbed evaluation of asynchronous programs

The logic of `AsyncProofs` says what every interleaving keeps.  To show that a behaviour is possible,
one interleaving is enough, and the simplest is the one in which the program is the only one that
runs: each awaited operation answers, the program wakes up, a loop is replaced by its body, and the
environment may move in between.

* **`Eval`** — the end of such an evaluation, over arbitrary operations and worlds;
* `eval_bind`, `eval_loop` — sequencing, and a loop through an evaluation of its body;
* **`Yields`** — evaluations of programs with exceptions that return, with one rule a construct.
-/

namespace AsyncLogic

/-- What the evaluation rests on: how an operation may answer, what waking up records, what the
    environment may do by itself, and the bodies of the loops.  Neither waking up nor the environment
    changes the flags. -/
structure Surroundings (S : Sig) (W : Type) where
  exec : (op : S.Op) → W → Except S.Err (S.Ans op) → W → Prop
  wake : (op : S.Op) → Except S.Err (S.Ans op) → W → W
  env : W → W → Prop
  flags : W → S.Flags
  body : (l : S.Label) → Js S (S.Ret l)
  wake_flags : ∀ op r w, flags (wake op r w) = flags w
  env_flags : ∀ w w', env w w' → flags w' = flags w

variable {S : Sig} {W α β : Type}

/-- The program, run from a world, may end with a value in another world. -/
inductive Eval (E : Surroundings S W) : Prog S α → W → α → W → Prop
  | ret {a : α} {w : W} : Eval E (.ret a) w a w
  | env {p : Prog S α} {w w₁ w' : W} {a : α} (move : E.env w w₁) (rest : Eval E p w₁ a w') : Eval E p w a w'
  | call {op : S.Op} {k : Except S.Err (S.Ans op) → S.Flags → Prog S α} {w w₁ w' : W}
      {r : Except S.Err (S.Ans op)} {a : α} (answer : E.exec op w r w₁)
      (rest : Eval E (k r (E.flags w₁)) (E.wake op r w₁) a w') : Eval E (.call op k) w a w'
  | loop {l : S.Label} {fl : S.Flags} {k : Except S.Err (S.Ret l) → S.Flags → Prog S α} {w w' : W} {a : α}
      (rest : Eval E ((E.body l fl).bind fun r => k r.1 r.2) w a w') : Eval E (.loop l fl k) w a w'

variable {E : Surroundings S W}

theorem eval_bind {p : Prog S α} {f : α → Prog S β} {w w₁ w₂ : W} {a : α} {b : β} (h : Eval E p w a w₁)
    (hf : Eval E (f a) w₁ b w₂) : Eval E (p.bind f) w b w₂ := by
  induction h with
  | ret => exact hf
  | env move _ ih => exact .env move (ih hf)
  | call answer _ ih => exact .call answer (ih hf)
  | @loop l fl k w w' a _ ih =>
    refine .loop ?_
    have hassoc : ∀ p : Prog S (Except S.Err (S.Ret l) × S.Flags),
        (p.bind fun r => k r.1 r.2).bind f = p.bind fun r => (k r.1 r.2).bind f := by
      intro p
      induction p with
      | ret a => rfl
      | call op k ih => exact congrArg (Prog.call op) (funext fun r => funext fun fl => ih r fl)
      | loop l fl k ih => exact congrArg (Prog.loop l fl) (funext fun r => funext fun fl => ih r fl)
    have hrest := ih hf
    rw [hassoc] at hrest
    exact hrest

/-- A loop evaluates through its body. -/
theorem eval_loop {l : S.Label} {fl : S.Flags} {k : Except S.Err (S.Ret l) → S.Flags → Prog S α} {w w₁ w' : W}
    {r : Except S.Err (S.Ret l) × S.Flags} {a : α} (h : Eval E (E.body l fl) w r w₁)
    (hk : Eval E (k r.1 r.2) w₁ a w') : Eval E (.loop l fl k) w a w' :=
  .loop (eval_bind h hk)

/-! ## Programs that return -/

variable (E) in
/-- Started with the flags of the world, the program may return a value, with the flags of the world
    it ends in. -/
def Yields (m : Js S α) (w : W) (a : α) (w' : W) : Prop := Eval E (m (E.flags w)) w (.ok a, E.flags w') w'

variable {w w₁ w₂ : W}

theorem Yields.pure (a : α) : Yields E (Pure.pure a : Js S α) w a w := Eval.ret

theorem Yields.flags : Yields E Js.flags w (E.flags w) w := Eval.ret

theorem Yields.bind {m : Js S α} {f : α → Js S β} {a : α} {b : β} (h : Yields E m w a w₁)
    (hf : Yields E (f a) w₁ b w₂) : Yields E (m >>= f) w b w₂ :=
  eval_bind h hf

theorem Yields.tryCatch {m : Js S α} {handler : S.Err → Js S α} {a : α} (h : Yields E m w a w₁) :
    Yields E (MonadExcept.tryCatch m handler) w a w₁ :=
  eval_bind h .ret

/-- An awaited operation that answers. -/
theorem Yields.await {op : S.Op} {a : S.Ans op} (h : E.exec op w (.ok a) w₁) :
    Yields E (Js.await op) w a (E.wake op (.ok a) w₁) := by
  unfold Yields
  rw [E.wake_flags]
  exact Eval.call h Eval.ret

theorem Yields.recur {l : S.Label} {a : S.Ret l} (h : Yields E (E.body l) w a w₁) : Yields E (Js.recur l) w a w₁ :=
  eval_loop h .ret

/-- The environment may move first. -/
theorem Yields.env {m : Js S α} {a : α} (hmove : E.env w w₁) (h : Yields E m w₁ a w₂) : Yields E m w a w₂ := by
  refine Eval.env hmove ?_
  rw [← E.env_flags w w₁ hmove]
  exact h

end AsyncLogic
