import VibeWorkflow.TripleProofs

/-!
# Watching an asynchronous program

A monitor follows the operations of one program and their answers.  Its state is a ghost: it is no part
of the world, other activities do not change it, and it says what the program has just done.  What a
program does in order, such as writing a record before the write that depends on it, is a property of
the program and its monitor alone.

* `Monitor` — a ghost state, how an answer moves it, and which operations it allows;
* `Watched` — a triple over ghost states, an instance of the triples of `TripleProofs`;
* `Quiet` — a program whose operations are allowed in every ghost state;
* **`watched_exec`**, **`watched_wake`**, **`watched_unfold`** — a running thread stays watched.
-/

namespace AsyncLogic

/-- A ghost state beside a program. -/
structure Monitor (S : Sig) where
  State : Type
  step : State → (op : S.Op) → Except S.Err (S.Ans op) → State
  allows : State → S.Op → Prop

variable {S : Sig} {α β : Type}

/-- A monitor as a contract: others change the flags and nothing else. -/
def Monitor.contract (M : Monitor S) : Contract S (M.State × S.Flags) where
  inv := fun _ => True
  rely := fun a b => a.1 = b.1
  rely_refl := fun _ => rfl
  rely_trans := Eq.trans
  pre := fun op w => M.allows w.1 op
  exec := fun op w r w' => w'.1 = M.step w.1 op r
  wake := fun _ _ w => w
  flags := Prod.snd
  linv := fun _ _ _ => True
  lpost := fun _ _ _ _ _ _ => True

variable {M : Monitor S}

/-- **A watched program**: started in a ghost state with `P`, it only asks for what the monitor allows,
    and leaves a ghost state with `Q` when it returns and with `E` when it throws. -/
def Watched (M : Monitor S) (P : M.State → Prop) (m : Js S α) (Q : α → M.State → Prop)
    (E : S.Err → M.State → Prop) : Prop :=
  Safe M.contract (fun w => P w.1) m (fun a w => Q a w.1) (fun e w => E e w.1)

section Rules

variable {P P' : M.State → Prop} {Q Q' : α → M.State → Prop} {R : β → M.State → Prop}
  {E E' : S.Err → M.State → Prop}

theorem watched_pure {a : α} (h : ∀ g, P g → Q a g) : Watched M P (Pure.pure a : Js S α) Q E :=
  safe_pure (fun w _ hP => h w.1 hP)

theorem watched_throw {e : S.Err} (h : ∀ g, P g → E e g) :
    Watched M P (MonadExcept.throw e : Js S α) Q E :=
  safe_throw (fun w _ hP => h w.1 hP)

theorem watched_bind {m : Js S α} {f : α → Js S β} (hm : Watched M P m Q E)
    (hf : ∀ a, Watched M (Q a) (f a) R E) : Watched M P (m >>= f) R E :=
  safe_bind hm hf

theorem watched_catch {m : Js S α} {handler : S.Err → Js S α} {F : S.Err → M.State → Prop}
    (hm : Watched M P m Q F) (hh : ∀ e, Watched M (F e) (handler e) Q E) :
    Watched M P (MonadExcept.tryCatch m handler) Q E :=
  safe_catch hm hh

theorem watched_ite {c : Prop} [Decidable c] {m m' : Js S α} (hm : c → Watched M P m Q E)
    (hm' : ¬ c → Watched M P m' Q E) : Watched M P (if c then m else m') Q E :=
  safe_ite hm hm'

theorem watched_flags {f : S.Flags → Js S β} (hf : ∀ fl, Watched M P (f fl) R E) :
    Watched M P (Js.flags >>= f) R E :=
  safe_flags hf

/-- Weaken what is promised, strengthen what is asked. -/
theorem Watched.conseq {m : Js S α} (h : Watched M P m Q E) (hP : ∀ g, P' g → P g)
    (hQ : ∀ a g, Q a g → Q' a g) (hE : ∀ e g, E e g → E' e g) : Watched M P' m Q' E' :=
  Safe.conseq h (fun w _ => hP w.1) (fun a w _ => hQ a w.1) (fun e w _ => hE e w.1)

/-- **Awaiting an operation** moves the ghost by its answer. -/
theorem watched_await {op : S.Op} {Q : S.Ans op → M.State → Prop} (hpre : ∀ g, P g → M.allows g op)
    (hok : ∀ g a, P g → Q a (M.step g op (.ok a))) (herr : ∀ g e, P g → E e (M.step g op (.error e))) :
    Watched M P (Js.await op) Q E := by
  refine safe_call (fun _ _ _ => rfl) (fun w _ hP => hpre w.1 hP) ?_ ?_
  · intro w r w' _ hP hex
    have hex : w'.1 = M.step w.1 op r := hex
    cases r with
    | ok a =>
      show Q a w'.1
      rw [hex]
      exact hok w.1 a hP
    | error e =>
      show E e w'.1
      rw [hex]
      exact herr w.1 e hP
  · intro r w w' hw hr _
    have hr : w.1 = w'.1 := hr
    cases r with
    | ok a =>
      show Q a w'.1
      rw [← hr]
      exact hw
    | error e =>
      show E e w'.1
      rw [← hr]
      exact hw

/-- Nothing is known of the ghost after a loop. -/
theorem watched_recur {l : S.Label} :
    Watched M P (Js.recur l) (fun _ _ => True) (fun _ _ => True) := by
  intro fl w _
  refine wpJs_recur ?_
  intro w₁ _ _
  refine ⟨trivial, ?_⟩
  intro r fl' w₂ _ w₃ _ _
  cases r with
  | ok a => trivial
  | error e => trivial

end Rules

/-! ## Quiet programs -/

/-- Every operation is allowed in every ghost state. -/
def Quiet (M : Monitor S) (m : Js S α) : Prop :=
  Watched M (fun _ => True) m (fun _ _ => True) (fun _ _ => True)

theorem Watched.quiet {m : Js S α} {Q : α → M.State → Prop} {E : S.Err → M.State → Prop}
    (h : Watched M (fun _ => True) m Q E) : Quiet M m :=
  h.conseq (fun _ h => h) (fun _ _ _ => trivial) (fun _ _ _ => trivial)

theorem quiet_pure (a : α) : Quiet M (Pure.pure a : Js S α) := watched_pure (fun _ h => h)

theorem quiet_throw (e : S.Err) : Quiet M (MonadExcept.throw e : Js S α) := watched_throw (fun _ h => h)

theorem quiet_await {op : S.Op} (h : ∀ g, M.allows g op) : Quiet M (Js.await op) :=
  watched_await (fun g _ => h g) (fun _ _ h => h) (fun _ _ h => h)

theorem quiet_recur (l : S.Label) : Quiet M (Js.recur l) := watched_recur

theorem quiet_bind {m : Js S α} {f : α → Js S β} (hm : Quiet M m) (hf : ∀ a, Quiet M (f a)) :
    Quiet M (m >>= f) :=
  watched_bind hm hf

theorem quiet_catch {m : Js S α} {handler : S.Err → Js S α} (hm : Quiet M m)
    (hh : ∀ e, Quiet M (handler e)) : Quiet M (MonadExcept.tryCatch m handler) :=
  watched_catch hm hh

theorem quiet_ite {c : Prop} [Decidable c] {m m' : Js S α} (hm : Quiet M m) (hm' : Quiet M m') :
    Quiet M (if c then m else m') :=
  watched_ite (fun _ => hm) (fun _ => hm')

theorem quiet_flags {f : S.Flags → Js S β} (hf : ∀ fl, Quiet M (f fl)) : Quiet M (Js.flags >>= f) :=
  watched_flags hf

/-- A quiet program with its answer put to use. -/
theorem quiet_leave {m : Js S α} {f : α → β} (h : Quiet M m) : Quiet M (m >>= fun a => Pure.pure (f a)) :=
  quiet_bind h (fun _ => quiet_pure _)

/-! ## Threads -/

/-- A thread whose ghost state is `g`. -/
def Watching (M : Monitor S) (t : Thread S α) (g : M.State) : Prop :=
  ∀ fl, threadOk M.contract (fun _ _ => True) t (g, fl)

theorem Quiet.watching {m : Js S α} (h : Quiet M m) (fl : S.Flags) (g : M.State) :
    Watching M (.run (m fl)) g := by
  intro fl'
  refine wp_mono (h fl (g, fl') (fun _ _ _ => trivial)) ?_
  exact fun _ _ _ _ => trivial

/-- **A watched thread only asks for what is allowed.** -/
theorem watched_exec {op : S.Op} {k : Except S.Err (S.Ans op) → S.Flags → Prog S α} {g : M.State}
    (h : Watching M (.run (.call op k)) g) (fl : S.Flags) :
    M.allows g op ∧ ∀ r, Watching M (.woken op r k) (M.step g op r) := by
  refine ⟨(threadOk_exec (h fl) trivial).1, fun r fl' => ?_⟩
  exact (threadOk_exec (h fl') trivial).2 r (M.step g op r, fl') rfl

theorem watched_wake {op : S.Op} {r : Except S.Err (S.Ans op)}
    {k : Except S.Err (S.Ans op) → S.Flags → Prog S α} {g : M.State}
    (h : Watching M (.woken op r k) g) (fl : S.Flags) : Watching M (.run (k r fl)) g := by
  intro fl'
  exact threadOk_rely (threadOk_wake (h fl) trivial) rfl

theorem watched_unfold {body : (l : S.Label) → Js S (S.Ret l)} (hb : ∀ l, Quiet M (body l))
    {p : Prog S α} {g : M.State} (h : Watching M (.run p) g) :
    Watching M (.run (unfoldLoop body p)) g := by
  intro fl
  refine threadOk_unfold ?_ (h fl)
  intro l fl' w _ _
  exact wp_mono (hb l fl' w (fun _ _ _ => trivial)) (fun _ _ _ _ => trivial)

end AsyncLogic
