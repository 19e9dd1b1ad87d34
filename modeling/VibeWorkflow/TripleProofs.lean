import VibeWorkflow.AsyncProofs

/-!
# Triples for asynchronous programs

Pre- and postconditions over the logic of `AsyncProofs`, for contracts whose threads wake up without
a trace.  A precondition is a fact that holds now and keeps holding while others run, so sequencing
asks for no stability; only the answer of an awaited operation has to be shown stable.

* **`safe_call`** — awaiting an operation.
* **`safe_bind`**, **`safe_catch`**, **`safe_pure`**, **`safe_throw`**, **`safe_ite`**,
  **`safe_flags`** — one rule a construct.
* **`Safe.thread`** — a safe program is a safe thread.
-/

namespace AsyncLogic

variable {S : Sig} {W α β : Type} {C : Contract S W}

variable (C)

/-- The fact holds, and holds after whatever others do. -/
def Kept (P : W → Prop) (w : W) : Prop := ∀ w₁, C.rely w w₁ → C.inv w₁ → P w₁

/-- Others cannot make the fact false. -/
def Stable (P : W → Prop) : Prop := ∀ w w', P w → C.rely w w' → C.inv w' → P w'

/-- **A triple**: from a kept precondition the program is safe, `Q` when it returns and `E` when it
    throws. -/
def Safe (P : W → Prop) (m : Js S α) (Q : α → W → Prop) (E : S.Err → W → Prop) : Prop :=
  ∀ fl w, Kept C P w → wpJs C m (fun a _ => Q a) (fun e _ => E e) fl w

variable {C} {P P' : W → Prop} {Q Q' : α → W → Prop} {R : β → W → Prop} {E E' : S.Err → W → Prop}

theorem Kept.mono {w : W} (h : Kept C P w) (hP : ∀ w', C.inv w' → P w' → P' w') : Kept C P' w :=
  fun w₁ hr hi => hP w₁ hi (h w₁ hr hi)

/-! ## The rules -/

theorem safe_pure {a : α} (h : ∀ w, C.inv w → P w → Q a w) :
    Safe C P (Pure.pure a : Js S α) Q E := by
  intro fl w hk
  exact wpJs_pure (fun w₁ hr hi => h w₁ hi (hk w₁ hr hi))

theorem safe_throw {e : S.Err} (h : ∀ w, C.inv w → P w → E e w) :
    Safe C P (MonadExcept.throw e : Js S α) Q E := by
  intro fl w hk
  exact wpJs_throw (fun w₁ hr hi => h w₁ hi (hk w₁ hr hi))

/-- Weaken what is promised, strengthen what is asked. -/
theorem Safe.conseq {m : Js S α} (h : Safe C P m Q E) (hP : ∀ w, C.inv w → P' w → P w)
    (hQ : ∀ a w, C.inv w → Q a w → Q' a w) (hE : ∀ e w, C.inv w → E e w → E' e w) :
    Safe C P' m Q' E' := by
  intro fl w hk
  exact wpJs_mono (h fl w (hk.mono hP)) (fun a _ w' hi hq => hQ a w' hi hq)
    (fun e _ w' hi he => hE e w' hi he)

theorem Safe.pre {m : Js S α} (h : Safe C P m Q E) (hP : ∀ w, C.inv w → P' w → P w) :
    Safe C P' m Q E :=
  h.conseq hP (fun _ _ _ hq => hq) (fun _ _ _ he => he)

/-- A fact without a world may be had from the precondition. -/
theorem safe_lift {m : Js S α} {φ : Prop} (hφ : ∀ w, C.inv w → P w → φ) (h : φ → Safe C P m Q E) :
    Safe C P m Q E := by
  intro fl w hk
  refine wpJs_intro (fun w₁ hr hi => ?_)
  exact wpJs_rely (h (hφ w₁ hi (hk w₁ hr hi)) fl w hk) hr

/-- **Sequencing.** -/
theorem safe_bind {m : Js S α} {f : α → Js S β} (hm : Safe C P m Q E)
    (hf : ∀ a, Safe C (Q a) (f a) R E) : Safe C P (m >>= f) R E := by
  intro fl w hk
  refine wp_bind (hm fl w hk) ?_
  rintro ⟨r, fl'⟩ w' hr
  cases r with
  | ok a => exact hf a fl' w' hr
  | error e => exact hr

theorem safe_catch {m : Js S α} {handler : S.Err → Js S α} {F : S.Err → W → Prop} (hm : Safe C P m Q F)
    (hh : ∀ e, Safe C (F e) (handler e) Q E) :
    Safe C P (MonadExcept.tryCatch m handler) Q E := by
  intro fl w hk
  refine wp_bind (hm fl w hk) ?_
  rintro ⟨r, fl'⟩ w' hr
  cases r with
  | ok a => exact hr
  | error e => exact hh e fl' w' hr

theorem safe_ite {c : Prop} [Decidable c] {m m' : Js S α} (hm : c → Safe C P m Q E)
    (hm' : ¬ c → Safe C P m' Q E) : Safe C P (if c then m else m') Q E := by
  by_cases hc : c
  · rw [if_pos hc]
    exact hm hc
  · rw [if_neg hc]
    exact hm' hc

/-- Reading the flags tells nothing. -/
theorem safe_flags {f : S.Flags → Js S β} (hf : ∀ fl, Safe C P (f fl) R E) :
    Safe C P (Js.flags >>= f) R E := by
  intro fl w hk
  exact wpJs_flags_bind (hf fl fl w hk)

/-- The post of an answer. -/
def answered {op : S.Op} (Q : S.Ans op → W → Prop) (E : S.Err → W → Prop) :
    Except S.Err (S.Ans op) → W → Prop
  | .ok a => Q a
  | .error e => E e

/-- **Awaiting an operation**: its precondition, what its answer tells, and that this is stable. -/
theorem safe_call (hwake : ∀ op r w, C.wake op r w = w) {op : S.Op} {Q : S.Ans op → W → Prop}
    (hpre : ∀ w, C.inv w → P w → C.pre op w)
    (hpost : ∀ w r w', C.inv w → P w → C.exec op w r w' → answered Q E r w')
    (hstable : ∀ r, Stable C (answered Q E r)) : Safe C P (Js.await op) Q E := by
  intro fl w hk
  refine wpJs_await (fun w₁ hr₁ hi₁ => ⟨hpre w₁ hi₁ (hk w₁ hr₁ hi₁), ?_⟩)
  intro r w₂ hex w₃ hr₃ hi₃ w₄ hr₄ hi₄
  have h₂ := hpost w₁ r w₂ hi₁ (hk w₁ hr₁ hi₁) hex
  rw [hwake] at hr₄
  have h₄ := hstable r w₃ w₄ (hstable r w₂ w₃ h₂ hr₃ hi₃) hr₄ hi₄
  cases r with
  | ok a => exact h₄
  | error e => exact h₄

/-! ## Threads -/

/-- What a finished program leaves. -/
def finished (Q : α → W → Prop) (E : S.Err → W → Prop) (r : Except S.Err α × S.Flags) (w : W) : Prop :=
  match r.1 with
  | .ok a => Q a w
  | .error e => E e w

theorem Safe.thread {m : Js S α} {fl : S.Flags} {w : W} (h : Safe C P m Q E) (hk : Kept C P w) :
    threadOk C (finished Q E) (.run (m fl)) w := by
  refine wp_mono (h fl w hk) ?_
  rintro ⟨r, fl'⟩ w' - hr
  cases r with
  | ok a => exact hr
  | error e => exact hr

end AsyncLogic
