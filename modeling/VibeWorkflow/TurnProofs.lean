import VibeWorkflow.AsyncProofs

/-!
# When an asynchronous program keeps to finitely many turns

A program tree has no infinite path, so a thread can only go on forever by entering loops again
and again.  Give every loop a level and mark some answers as ones that pay for a return to lower
levels.  If every entered loop lies above the last one unless an answer in between was marked,
and marked answers use up a budget, then the thread takes finitely many turns, whatever happens
to the world between them.

* **`Climbs`** — the levels of a program's loops rise between marked answers.
* **`turns_finite`** — a climbing thread with a budget takes finitely many turns.
-/

namespace AsyncLogic

variable {S : Sig} {α β : Type}

/-- Levels of the loops, the level a loop leaves behind, and the marked answers. -/
structure Meter (S : Sig) where
  level : S.Label → Nat
  exit : S.Label → Nat
  limit : Nat
  level_lt : ∀ l, level l < limit
  mark : (op : S.Op) → Except S.Err (S.Ans op) → Prop

variable (M : Meter S)

/-- From level `n` on, loops are entered at rising levels; a marked answer starts over; a result
    `a` is left at level `top a` at most.  A loop that throws leaves the highest level behind. -/
def Climbs (top : α → Nat) : Prog S α → Nat → Prop
  | .ret a, n => n ≤ top a
  | .call op k, n => ∀ r fl, (M.mark op r → Climbs top (k r fl) 0) ∧
      (¬ M.mark op r → Climbs top (k r fl) n)
  | .loop l _ k, n => n ≤ M.level l ∧ (∀ a fl, Climbs top (k (.ok a) fl) (M.exit l)) ∧
      ∀ e fl, Climbs top (k (.error e) fl) M.limit

variable {M} {top : α → Nat}

theorem Climbs.mono {p : Prog S α} {n m : Nat} (h : Climbs M top p n) (hm : m ≤ n) :
    Climbs M top p m := by
  induction p with
  | ret a => exact Nat.le_trans hm h
  | call op k ih =>
    intro r fl
    exact ⟨(h r fl).1, fun hr => ih r fl ((h r fl).2 hr)⟩
  | loop l fl k _ => exact ⟨Nat.le_trans hm h.1, h.2⟩

theorem Climbs.weaken {top' : α → Nat} {p : Prog S α} {n : Nat} (h : Climbs M top p n)
    (ht : ∀ a, top a ≤ top' a) : Climbs M top' p n := by
  induction p generalizing n with
  | ret a => exact Nat.le_trans h (ht a)
  | call op k ih =>
    intro r fl
    exact ⟨fun hr => ih r fl ((h r fl).1 hr), fun hr => ih r fl ((h r fl).2 hr)⟩
  | loop l fl k ih =>
    exact ⟨h.1, fun a fl' => ih (.ok a) fl' (h.2.1 a fl'), fun e fl' => ih (.error e) fl' (h.2.2 e fl')⟩

theorem Climbs.bind {top' : β → Nat} {p : Prog S α} {f : α → Prog S β} {n : Nat}
    (h : Climbs M top p n) (hf : ∀ a, Climbs M top' (f a) (top a)) : Climbs M top' (p.bind f) n := by
  induction p generalizing n with
  | ret a => exact (hf a).mono h
  | call op k ih =>
    intro r fl
    exact ⟨fun hr => ih r fl ((h r fl).1 hr), fun hr => ih r fl ((h r fl).2 hr)⟩
  | loop l fl k ih =>
    exact ⟨h.1, fun a fl' => ih (.ok a) fl' (h.2.1 a fl'), fun e fl' => ih (.error e) fl' (h.2.2 e fl')⟩

/-! ## Programs with exceptions -/

variable (M)

/-- A program with exceptions climbs: a value `a` is left at level `top a`, an error `e` at
    `err e`. -/
def ClimbsJs (top : α → Nat) (err : S.Err → Nat) (m : Js S α) (n : Nat) : Prop :=
  ∀ fl, Climbs M (fun r => match r.1 with
    | .ok a => top a
    | .error e => err e) (m fl) n

variable {M} {err : S.Err → Nat} {n : Nat}

theorem ClimbsJs.mono {m : Js S α} {n' : Nat} (h : ClimbsJs M top err m n) (hn : n' ≤ n) :
    ClimbsJs M top err m n' :=
  fun fl => (h fl).mono hn

theorem ClimbsJs.weaken {err' : S.Err → Nat} {top' : α → Nat} {m : Js S α} (h : ClimbsJs M top err m n)
    (ht : ∀ a, top a ≤ top' a) (he : ∀ e, err e ≤ err' e) : ClimbsJs M top' err' m n := by
  intro fl
  refine (h fl).weaken ?_
  rintro ⟨r, fl'⟩
  cases r with
  | ok a => exact ht a
  | error e => exact he e

theorem ClimbsJs.pure {a : α} (h : n ≤ top a) : ClimbsJs M top err (Pure.pure a : Js S α) n :=
  fun _ => h

theorem ClimbsJs.throw {e : S.Err} (h : n ≤ err e) :
    ClimbsJs M top err (MonadExcept.throw e : Js S α) n :=
  fun _ => h

theorem ClimbsJs.bind {g : α → Nat} {top : β → Nat} {m : Js S α} {f : α → Js S β}
    (h : ClimbsJs M g err m n) (hf : ∀ a, ClimbsJs M top err (f a) (g a)) :
    ClimbsJs M top err (m >>= f) n := by
  intro fl
  refine (h fl).bind ?_
  rintro ⟨r, fl'⟩
  cases r with
  | ok a => exact hf a fl'
  | error e => exact Nat.le_refl (err e)

theorem ClimbsJs.tryCatch {g : S.Err → Nat} {m : Js S α} {handler : S.Err → Js S α}
    (h : ClimbsJs M top g m n) (hh : ∀ e, ClimbsJs M top err (handler e) (g e)) :
    ClimbsJs M top err (MonadExcept.tryCatch m handler) n := by
  intro fl
  refine (h fl).bind ?_
  rintro ⟨r, fl'⟩
  cases r with
  | ok a => exact Nat.le_refl (top a)
  | error e => exact hh e fl'

theorem ClimbsJs.flags {f : S.Flags → Js S β} {top : β → Nat} (h : ∀ fl, ClimbsJs M top err (f fl) n) :
    ClimbsJs M top err (Js.flags >>= f) n :=
  fun fl => h fl fl

/-- Awaiting an operation: a marked answer may go on from level zero. -/
theorem ClimbsJs.await {op : S.Op} {top : S.Ans op → Nat}
    (hok : ∀ a, M.mark op (.ok a) ∨ n ≤ top a) (herr : ∀ e, M.mark op (.error e) ∨ n ≤ err e) :
    ClimbsJs M top err (Js.await op) n := by
  intro fl r fl'
  refine ⟨fun _ => Nat.zero_le _, fun hr => ?_⟩
  cases r with
  | ok a => exact (hok a).resolve_left hr
  | error e => exact (herr e).resolve_left hr

/-- Entering a loop. -/
theorem ClimbsJs.recur {l : S.Label} {top : S.Ret l → Nat} (hl : n ≤ M.level l)
    (hok : ∀ a, M.exit l ≤ top a) (herr : ∀ e, M.limit ≤ err e) :
    ClimbsJs M top err (Js.recur l) n :=
  fun _ => ⟨hl, fun a _ => hok a, fun e _ => herr e⟩

/-! ## Threads -/

variable (M)

/-- Every loop's body climbs from its own level to the level the loop leaves behind. -/
def BodiesClimb (body : (l : S.Label) → Js S (S.Ret l)) : Prop :=
  ∀ l, ClimbsJs M (fun _ => M.exit l) (fun _ => M.limit) (body l) (M.level l + 1)

def threadClimbs (t : Thread S α) (n : Nat) : Prop :=
  match t with
  | .run p => Climbs M (fun _ => M.limit) p n
  | .woken _ r k => ∀ fl, Climbs M (fun _ => M.limit) (k r fl) n

/-- A turn of a thread, and the budget it leaves: a marked answer uses some of it. -/
inductive Turn (body : (l : S.Label) → Js S (S.Ret l)) : Thread S α → Nat → Thread S α → Nat → Prop where
  | call {op : S.Op} {k : Except S.Err (S.Ans op) → S.Flags → Prog S α}
      {r : Except S.Err (S.Ans op)} {b b' : Nat} (hb : b' ≤ b) (hr : M.mark op r → b' < b) :
      Turn body (.run (.call op k)) b (.woken op r k) b'
  | wake {op : S.Op} {k : Except S.Err (S.Ans op) → S.Flags → Prog S α}
      {r : Except S.Err (S.Ans op)} {fl : S.Flags} {b b' : Nat} (hb : b' ≤ b) :
      Turn body (.woken op r k) b (.run (k r fl)) b'
  | unfold {l : S.Label} {fl : S.Flags} {k : Except S.Err (S.Ret l) → S.Flags → Prog S α} {b b' : Nat}
      (hb : b' ≤ b) : Turn body (.run (.loop l fl k)) b (.run (unfoldLoop body (.loop l fl k))) b'

variable {M} {body : (l : S.Label) → Js S (S.Ret l)}

/-- The body of an entered loop, followed by the rest, climbs from above the loop. -/
theorem Climbs.unfold (hbody : BodiesClimb M body) {l : S.Label} {fl : S.Flags}
    {k : Except S.Err (S.Ret l) → S.Flags → Prog S α} (h : Climbs M top (.loop l fl k) n) :
    Climbs M top (unfoldLoop body (.loop l fl k)) (M.level l + 1) := by
  refine (hbody l fl).bind ?_
  rintro ⟨r, fl'⟩
  cases r with
  | ok a => exact h.2.1 a fl'
  | error e => exact h.2.2 e fl'

section

variable {X : Type} {th : X → Thread S α} {budget : X → Nat} {next : X → X → Prop}

/-- A program within its budget, level by level and then along the tree. -/
theorem run_finite {b m : Nat} (hbody : BodiesClimb M body)
    (hnext : ∀ x y, next x y → Turn M body (th x) (budget x) (th y) (budget y))
    (hlow : ∀ x n, budget x < b → threadClimbs M (th x) n → Acc (fun y x => next x y) x)
    (hhigh : ∀ x n, budget x ≤ b → M.limit - n < m → threadClimbs M (th x) n →
      Acc (fun y x => next x y) x)
    (p : Prog S α) (x : X) (hx : th x = .run p) (hb : budget x ≤ b) (hm : M.limit - n ≤ m)
    (hc : Climbs M (fun _ => M.limit) p n) : Acc (fun y x => next x y) x := by
  induction p generalizing x n with
  | ret a =>
    refine ⟨x, fun y hy => ?_⟩
    have ht := hnext x y hy
    rw [hx] at ht
    exact nomatch ht
  | call op k ih =>
    refine ⟨x, fun y hy => ?_⟩
    have ht := hnext x y hy
    rw [hx] at ht
    generalize hty : th y = t at ht
    cases ht with
    | @call _ _ r _ _ hle hmark =>
      by_cases hr : M.mark op r
      · -- a marked answer starts over with less budget
        refine hlow y 0 (Nat.lt_of_lt_of_le (hmark hr) hb) ?_
        rw [hty]
        exact fun fl => (hc r fl).1 hr
      · refine ⟨y, fun z hz => ?_⟩
        have ht := hnext y z hz
        rw [hty] at ht
        generalize htz : th z = t at ht
        cases ht with
        | @wake _ _ _ fl _ _ hle' =>
          exact ih r fl z htz (Nat.le_trans hle' (Nat.le_trans hle hb)) hm ((hc r fl).2 hr)
  | loop l fl k _ =>
    refine ⟨x, fun y hy => ?_⟩
    have ht := hnext x y hy
    rw [hx] at ht
    generalize hty : th y = t at ht
    cases ht with
    | unfold hle =>
      -- the loop lies above the last one
      have hlt := M.level_lt l
      have hn := hc.1
      refine hhigh y (M.level l + 1) (Nat.le_trans hle hb) (by omega) ?_
      rw [hty]
      exact hc.unfold hbody

/-- Any thread within its budget, level by level. -/
theorem thread_finite {b : Nat} (hbody : BodiesClimb M body)
    (hnext : ∀ x y, next x y → Turn M body (th x) (budget x) (th y) (budget y))
    (hlow : ∀ x n, budget x < b → threadClimbs M (th x) n → Acc (fun y x => next x y) x) (m : Nat) :
    ∀ x n, budget x ≤ b → M.limit - n < m → threadClimbs M (th x) n →
      Acc (fun y x => next x y) x := by
  induction m with
  | zero => exact fun _ _ _ hm => absurd hm (Nat.not_lt_zero _)
  | succ m ih =>
    intro x n hb hm hc
    cases hx : th x with
    | run p =>
      rw [hx] at hc
      exact run_finite hbody hnext hlow ih p x hx hb (Nat.le_of_lt_succ hm) hc
    | woken op r k =>
      refine ⟨x, fun y hy => ?_⟩
      have ht := hnext x y hy
      rw [hx] at ht hc
      generalize hty : th y = t at ht
      cases ht with
      | @wake _ _ _ fl _ _ hle =>
        exact run_finite hbody hnext hlow ih _ y hty (Nat.le_trans hle hb)
          (Nat.le_of_lt_succ hm) (hc fl)

/-- **A climbing thread takes finitely many turns.**  `next` is one turn of the thread together
    with whatever happens before it; it may only shrink the budget. -/
theorem turns_finite (hbody : BodiesClimb M body)
    (hnext : ∀ x y, next x y → Turn M body (th x) (budget x) (th y) (budget y)) (x : X) (n : Nat)
    (hc : threadClimbs M (th x) n) : Acc (fun y x => next x y) x := by
  have hall : ∀ b x n, budget x < b → threadClimbs M (th x) n → Acc (fun y x => next x y) x := by
    intro b
    induction b with
    | zero => exact fun _ _ hb => absurd hb (Nat.not_lt_zero _)
    | succ b ih =>
      intro x n hb
      exact thread_finite hbody hnext ih (M.limit - n + 1) x n (Nat.le_of_lt_succ hb) (Nat.lt_succ_self _)
  exact hall (budget x + 1) x n (Nat.lt_succ_self _) hc

end

end AsyncLogic
