import VibeWorkflow.TripleProofs

/-!
# A process that serves calls

Calls come in at any moment; each is a program that awaits operations on a world which all of them
share.  One step is a call coming in, one awaited operation of one of them, a move of the surroundings,
or a crash, which loses every program but not the world.  The code between two operations is local to
its call, so it runs together with the answer it was waiting for.

* `Pool`, `Pool.step`, **`Pool.Reach`** — the process, one step, and the states of its runs, under a
  condition on the steps;
* **`Pool.reach_safe`** — under a contract every reached world has its invariant, and what is left of
  every call is safe;
* **`Safe.frame`** — what nobody changes stays true;
* `Prog.Every` — what holds of every operation a program may come to name;
* `Prog.Ends`, `Js.Throws` — the ends a program may come to, when its operations fail with certain errors;
* **`Pool.reach_left`** — what programs keep from one answer to the next, of what is left of every call;
* **`Pool.reach_result`**, **`Pool.reach_pre`** — what a finished call leaves, and what holds when an
  operation is about to take effect.
-/

namespace AsyncLogic

/-- Calls, their programs, how an operation answers on an input of the environment, and what may
    happen to the world by itself. -/
structure Pool (S : Sig) (W : Type) where
  Call : Type
  Res : Type
  Input : Type
  Move : Type
  exec : (op : S.Op) → W → Input → Option (Except S.Err (S.Ans op) × W)
  move : W → Move → Option W
  flags : W → S.Flags
  program : Call → Js S Res

namespace Pool

variable {S : Sig} {W : Type}

/-- A call and what is left of its program. -/
structure Serving (P : Pool S W) where
  call : P.Call
  prog : Prog S (Except S.Err P.Res × S.Flags)

structure State (P : Pool S W) where
  w : W
  serving : List P.Serving

/-- What the scheduler chooses. -/
inductive Action (P : Pool S W) where
  | invoke (c : P.Call)
  | exec (i : Nat) (inp : P.Input)
  | move (m : P.Move)
  | crash

/-- What a step does. -/
inductive Event (P : Pool S W) where
  | invoke (c : P.Call)
  | exec (c : P.Call) (op : S.Op) (inp : P.Input)
  | move (m : P.Move)
  | crash

variable (P : Pool S W)

def step (s : P.State) : P.Action → Option (P.Event × P.State)
  | .invoke c => some (.invoke c, { s with serving := s.serving ++ [⟨c, P.program c (P.flags s.w)⟩] })
  | .exec i inp =>
    match s.serving[i]? with
    | some ⟨c, .call op k⟩ =>
      match P.exec op s.w inp with
      | some (r, w') => some (.exec c op inp, ⟨w', s.serving.set i ⟨c, k r (P.flags w')⟩⟩)
      | none => none
    | _ => none
  | .move m =>
    match P.move s.w m with
    | some w' => some (.move m, { s with w := w' })
    | none => none
  | .crash => some (.crash, { s with serving := [] })

/-- The states of the runs from a world whose steps all meet a condition on the world before them. -/
inductive Reach (ok : W → P.Event → Prop) (w₀ : W) : P.State → Prop
  | start : Reach ok w₀ ⟨w₀, []⟩
  | step {s s' : P.State} {a : P.Action} {e : P.Event} : Reach ok w₀ s → P.step s a = some (e, s') → ok s.w e →
      Reach ok w₀ s'

variable {P}

/-- What a step does, case by case. -/
theorem step_cases {s s' : P.State} {a : P.Action} {e : P.Event} (h : P.step s a = some (e, s')) :
    (∃ c, e = .invoke c ∧ s'.w = s.w ∧ s'.serving = s.serving ++ [⟨c, P.program c (P.flags s.w)⟩]) ∨
    (∃ c op k inp r i, e = .exec c op inp ∧ s.serving[i]? = some ⟨c, .call op k⟩ ∧ P.exec op s.w inp = some (r, s'.w) ∧
      s'.serving = s.serving.set i ⟨c, k r (P.flags s'.w)⟩) ∨
    (∃ m, e = .move m ∧ P.move s.w m = some s'.w ∧ s'.serving = s.serving) ∨
    (e = .crash ∧ s'.w = s.w ∧ s'.serving = []) := by
  cases a with
  | invoke c =>
    obtain ⟨rfl, rfl⟩ := Prod.mk.inj (Option.some.inj h)
    exact .inl ⟨c, rfl, rfl, rfl⟩
  | exec i inp =>
    simp only [step] at h
    split at h
    · rename_i c op k hget
      split at h
      · rename_i r w' hexec
        obtain ⟨rfl, rfl⟩ := Prod.mk.inj (Option.some.inj h)
        exact .inr (.inl ⟨c, op, k, inp, r, i, rfl, hget, hexec, rfl⟩)
      · exact nomatch h
    · exact nomatch h
  | move m =>
    simp only [step] at h
    split at h
    · rename_i w' hmove
      obtain ⟨rfl, rfl⟩ := Prod.mk.inj (Option.some.inj h)
      exact .inr (.inr (.inl ⟨m, rfl, hmove, rfl⟩))
    · exact nomatch h
  | crash =>
    obtain ⟨rfl, rfl⟩ := Prod.mk.inj (Option.some.inj h)
    exact .inr (.inr (.inr ⟨rfl, rfl, rfl⟩))

/-! ## Runs under a contract -/

end Pool

/-- What all calls share: an invariant, what each relies on of the others, and how operations answer. -/
structure Ground (S : Sig) (W : Type) where
  inv : W → Prop
  rely : W → W → Prop
  rely_refl : ∀ w, rely w w
  rely_trans : ∀ {a b c}, rely a b → rely b c → rely a c
  exec : (op : S.Op) → W → Except S.Err (S.Ans op) → W → Prop
  flags : W → S.Flags

/-- The contract of a call that may name an operation when its precondition holds.  It enters no loop,
    and waking up leaves no trace. -/
def Ground.contract {S : Sig} {W : Type} (G : Ground S W) (pre : S.Op → W → Prop) : Contract S W where
  inv := G.inv
  rely := G.rely
  rely_refl := G.rely_refl
  rely_trans := G.rely_trans
  pre := pre
  exec := G.exec
  wake := fun _ _ w => w
  flags := G.flags
  linv := fun _ _ _ => False
  lpost := fun _ _ _ _ _ _ => True

/-- Awaiting an operation, under such a contract. -/
theorem Ground.await {S : Sig} {W : Type} {G : Ground S W} {pre : S.Op → W → Prop} {P : W → Prop} {op : S.Op}
    {Q : S.Ans op → W → Prop} {E : S.Err → W → Prop} (hpre : ∀ w, G.inv w → P w → pre op w)
    (hpost : ∀ w r w', G.inv w → P w → G.exec op w r w' → answered Q E r w')
    (hstable : ∀ r w w', answered Q E r w → G.rely w w' → G.inv w' → answered Q E r w') :
    Safe (G.contract pre) P (Js.await op) Q E :=
  safe_call (fun _ _ _ => rfl) hpre hpost (fun r w w' h hr hi => hstable r w w' h hr hi)

/-- **The frame rule**: what every operation and everything others do leaves true stays true. -/
theorem wp_frame {S : Sig} {W α : Type} {G : Ground S W} {pre : S.Op → W → Prop} {R : W → Prop} {Q : α → W → Prop}
    (hrely : ∀ w w', R w → G.rely w w' → R w') (hexec : ∀ op w r w', R w → G.exec op w r w' → R w')
    {m : Prog S α} {w : W} (h : wp (G.contract pre) m Q w) (hR : R w) :
    wp (G.contract pre) m (fun a w => Q a w ∧ R w) w := by
  induction m generalizing w with
  | ret a => exact fun w₁ hr hi => ⟨h w₁ hr hi, hrely w w₁ hR hr⟩
  | call op k ih =>
    intro w₁ hr hi
    obtain ⟨hpre, hafter⟩ := h w₁ hr hi
    refine ⟨hpre, ?_⟩
    intro r w₂ hex w₃ hr₃ hi₃
    exact ih r _ (hafter r w₂ hex w₃ hr₃ hi₃) (hrely w₂ w₃ (hexec op w₁ r w₂ (hrely w w₁ hR hr) hex) hr₃)
  | loop l fl k => exact fun w₁ hr hi => (h w₁ hr hi).1.elim

theorem Safe.frame {S : Sig} {W α : Type} {G : Ground S W} {pre : S.Op → W → Prop} {P R : W → Prop} {m : Js S α}
    {Q : α → W → Prop} {E : S.Err → W → Prop} (h : Safe (G.contract pre) P m Q E)
    (hrely : ∀ w w', R w → G.rely w w' → R w') (hexec : ∀ op w r w', R w → G.exec op w r w' → R w') :
    Safe (G.contract pre) (fun w => P w ∧ R w) m (fun a w => Q a w ∧ R w) (fun e w => E e w ∧ R w) := by
  intro fl w hk
  refine wpJs_intro fun w₁ hr hi => ?_
  have hP : Kept (G.contract pre) P w₁ := fun w₂ hr₂ hi₂ => (hk w₂ (G.rely_trans hr hr₂) hi₂).1
  refine wp_mono (wp_frame hrely hexec (h fl w₁ hP) (hk w₁ hr hi).2) ?_
  rintro ⟨r, fl'⟩ w' - ⟨hq, hR⟩
  cases r with
  | ok a => exact ⟨hq, hR⟩
  | error e => exact ⟨hq, hR⟩

/-! ## Programs by their operations -/

section

variable {S : Sig} {W α β : Type} {p q : S.Op → Prop}

/-- Every operation that a program may come to name has a property. -/
def Prog.Every (p : S.Op → Prop) : Prog S α → Prop
  | .ret _ => True
  | .call op k => p op ∧ ∀ r fl, (k r fl).Every p
  | .loop _ _ _ => False

def Js.Every (p : S.Op → Prop) (m : Js S α) : Prop := ∀ fl, (m fl).Every p

theorem Prog.Every.bind {m : Prog S α} {f : α → Prog S β} (hm : m.Every p) (hf : ∀ a, (f a).Every p) :
    (m.bind f).Every p := by
  induction m with
  | ret a => exact hf a
  | call op k ih => exact ⟨hm.1, fun r fl => ih r fl (hm.2 r fl)⟩
  | loop l fl k => exact hm.elim

theorem Prog.Every.mono {m : Prog S α} (hm : m.Every p) (h : ∀ op, p op → q op) : m.Every q := by
  induction m with
  | ret a => trivial
  | call op k ih => exact ⟨h op hm.1, fun r fl => ih r fl (hm.2 r fl)⟩
  | loop l fl k => exact hm

theorem Js.Every.mono {m : Js S α} (hm : m.Every p) (h : ∀ op, p op → q op) : m.Every q := fun fl => (hm fl).mono h

theorem every_pure (a : α) : (Pure.pure a : Js S α).Every p := fun _ => trivial

theorem every_throw (e : S.Err) : (MonadExcept.throw e : Js S α).Every p := fun _ => trivial

theorem every_await {op : S.Op} (h : p op) : (Js.await op).Every p := fun _ => ⟨h, fun _ _ => trivial⟩

theorem every_bind {m : Js S α} {f : α → Js S β} (hm : m.Every p) (hf : ∀ a, (f a).Every p) : (m >>= f).Every p := by
  intro fl
  refine Prog.Every.bind (hm fl) ?_
  rintro ⟨r, fl'⟩
  cases r with
  | ok a => exact hf a fl'
  | error e => trivial

theorem every_catch {m : Js S α} {handler : S.Err → Js S α} (hm : m.Every p) (hh : ∀ e, (handler e).Every p) :
    (MonadExcept.tryCatch m handler : Js S α).Every p := by
  intro fl
  refine Prog.Every.bind (hm fl) ?_
  rintro ⟨r, fl'⟩
  cases r with
  | ok a => trivial
  | error e => exact hh e fl'

theorem every_ite {c : Prop} [Decidable c] {m m' : Js S α} (hm : m.Every p) (hm' : m'.Every p) :
    (if c then m else m').Every p := by
  split
  · exact hm
  · exact hm'

/-- A program that only names operations which are always allowed is safe, and keeps what its operations
    and the others keep. -/
theorem Prog.Every.wp {G : Ground S W} {pre : S.Op → W → Prop} {R : W → Prop} {m : Prog S α} (hm : m.Every p)
    (hpre : ∀ op w, p op → G.inv w → pre op w) (hrely : ∀ w w', R w → G.rely w w' → G.inv w' → R w')
    (hexec : ∀ op w r w', p op → G.inv w → R w → G.exec op w r w' → R w') {w : W} (hR : R w) :
    wp (G.contract pre) m (fun _ => R) w := by
  induction m generalizing w with
  | ret a => exact fun w₁ hr hi => hrely w w₁ hR hr hi
  | call op k ih =>
    intro w₁ hr hi
    refine ⟨hpre op w₁ hm.1 hi, fun r w₂ hex w₃ hr₃ hi₃ => ih r _ (hm.2 r _) ?_⟩
    exact hrely w₂ w₃ (hexec op w₁ r w₂ hm.1 hi (hrely w w₁ hR hr hi) hex) hr₃ hi₃
  | loop l fl k => exact hm.elim

theorem Js.Every.keeps {G : Ground S W} {pre : S.Op → W → Prop} {R : W → Prop} {m : Js S α} (hm : m.Every p)
    (hpre : ∀ op w, p op → G.inv w → pre op w) (hrely : ∀ w w', R w → G.rely w w' → G.inv w' → R w')
    (hexec : ∀ op w r w', p op → G.inv w → R w → G.exec op w r w' → R w') :
    Safe (G.contract pre) R m (fun _ => R) (fun _ => R) := by
  intro fl w hk
  refine wpJs_intro fun w₁ hr hi => ?_
  refine wp_mono ((hm fl).wp hpre hrely hexec (hk w₁ hr hi)) ?_
  rintro ⟨r, fl'⟩ w' - hR
  cases r <;> exact hR

theorem Js.Every.safe {G : Ground S W} {pre : S.Op → W → Prop} {m : Js S α} (hm : m.Every p)
    (hpre : ∀ op w, p op → G.inv w → pre op w) :
    Safe (G.contract pre) (fun _ => True) m (fun _ _ => True) (fun _ _ => True) :=
  hm.keeps hpre (fun _ _ _ _ _ => trivial) (fun _ _ _ _ _ _ _ _ => trivial)

/-! ## Programs by their ends -/

variable {e : S.Err → Prop}

/-- Every end that a program may come to has a property, when its operations fail with errors of one kind
    only. -/
def Prog.Ends (e : S.Err → Prop) (L : Except S.Err α → Prop) : Prog S (Except S.Err α × S.Flags) → Prop
  | .ret r => L r.1
  | .call _ k => ∀ r fl, (∀ x, r = .error x → e x) → (k r fl).Ends e L
  | .loop _ _ _ => False

def Js.Ends (e : S.Err → Prop) (L : Except S.Err α → Prop) (m : Js S α) : Prop := ∀ fl, (m fl).Ends e L

/-- A program fails as its operations do. -/
def Js.Throws (e : S.Err → Prop) (m : Js S α) : Prop := m.Ends e fun r => ∀ x, r = .error x → e x

/-- A program goes on from each of its ends. -/
theorem Prog.Ends.bind {L : Except S.Err α → Prop} {M : Except S.Err β → Prop}
    {m : Prog S (Except S.Err α × S.Flags)} {f : Except S.Err α × S.Flags → Prog S (Except S.Err β × S.Flags)}
    (hm : m.Ends e L) (hf : ∀ r, L r.1 → (f r).Ends e M) : (m.bind f).Ends e M := by
  induction m with
  | ret r => exact hf r hm
  | call op k ih => exact fun r fl hr => ih r fl (hm r fl hr)
  | loop l fl k => exact hm.elim

theorem ends_bind {L : Except S.Err α → Prop} {M : Except S.Err β → Prop} {m : Js S α} {f : α → Js S β}
    (hm : m.Ends e L) (hok : ∀ a, L (.ok a) → (f a).Ends e M) (herror : ∀ x, L (.error x) → M (.error x)) :
    (m >>= f).Ends e M := by
  intro fl
  refine Prog.Ends.bind (hm fl) ?_
  rintro ⟨r, fl'⟩ hr
  cases r with
  | ok a => exact hok a hr fl'
  | error x => exact herror x hr

theorem ends_catch {L M : Except S.Err α → Prop} {m : Js S α} {handler : S.Err → Js S α} (hm : m.Ends e L)
    (hok : ∀ a, L (.ok a) → M (.ok a)) (herror : ∀ x, L (.error x) → (handler x).Ends e M) :
    (MonadExcept.tryCatch m handler : Js S α).Ends e M := by
  intro fl
  refine Prog.Ends.bind (hm fl) ?_
  rintro ⟨r, fl'⟩ hr
  cases r with
  | ok a => exact hok a hr
  | error x => exact herror x hr fl'

theorem throws_pure (a : α) : (Pure.pure a : Js S α).Throws e := fun _ _ h => by cases h

theorem throws_throw {x : S.Err} (h : e x) : (MonadExcept.throw x : Js S α).Throws e := by
  intro fl y hy
  cases hy
  exact h

theorem throws_await (op : S.Op) : (Js.await op).Throws e := fun _ _ _ h x hx => h x hx

theorem throws_bind {m : Js S α} {f : α → Js S β} (hm : m.Throws e) (hf : ∀ a, (f a).Throws e) :
    (m >>= f).Throws e :=
  ends_bind hm (fun a _ => hf a) fun x hx y hy => by
    cases hy
    exact hx x rfl

theorem throws_ite {c : Prop} [Decidable c] {m m' : Js S α} (hm : m.Throws e) (hm' : m'.Throws e) :
    (if c then m else m').Throws e := by
  split
  · exact hm
  · exact hm'

end

namespace Pool

variable {S : Sig} {W : Type} {P : Pool S W}

/-- **What is left of every call**: a property that each program has when its call comes in, and keeps
    from one answer of the process to the next. -/
theorem reach_left {ok : W → P.Event → Prop} {w₀ : W} {s : P.State}
    {I : P.Call → Prog S (Except S.Err P.Res × S.Flags) → Prop} (hcall : ∀ c fl, I c (P.program c fl))
    (hnext : ∀ c op k w inp r w' fl, I c (.call op k) → P.exec op w inp = some (r, w') → I c (k r fl))
    (h : P.Reach ok w₀ s) : ∀ t ∈ s.serving, I t.call t.prog := by
  induction h with
  | start => exact fun t ht => by cases ht
  | step _ hstep _ ih =>
    rcases step_cases hstep with ⟨c, -, -, hserving⟩ | ⟨c, op, k, inp, r, i, -, hget, hexec, hserving⟩ |
      ⟨m, -, -, hserving⟩ | ⟨-, -, hserving⟩
    · intro t ht
      rw [hserving] at ht
      rcases List.mem_append.mp ht with ht | ht
      · exact ih t ht
      · rw [List.mem_singleton.mp ht]
        exact hcall c _
    · intro t ht
      rw [hserving] at ht
      rcases List.mem_or_eq_of_mem_set ht with ht | rfl
      · exact ih t ht
      · exact hnext c op k _ inp r _ _ (ih _ (List.mem_of_getElem? hget)) hexec
    · rw [hserving]
      exact ih
    · rw [hserving]
      exact fun t ht => by cases ht

/-- **The ground fits the process**: operations and moves keep its invariant and stay within what the
    other calls rely on, and every call that comes in is safe. -/
structure Fits (P : Pool S W) (ok : W → P.Event → Prop) (G : Ground S W) (pre : P.Call → S.Op → W → Prop)
    (Q : P.Call → P.Res → W → Prop) (E : P.Call → S.Err → W → Prop) : Prop where
  flags : ∀ w, G.flags w = P.flags w
  exec : ∀ c op w inp r w', G.inv w → ok w (.exec c op inp) → pre c op w → P.exec op w inp = some (r, w') →
    G.exec op w r w' ∧ G.inv w' ∧ G.rely w w'
  move : ∀ w m w', G.inv w → ok w (.move m) → P.move w m = some w' → G.inv w' ∧ G.rely w w'
  call : ∀ w c, G.inv w → ok w (.invoke c) → Safe (G.contract (pre c)) (fun _ => True) (P.program c) (Q c) (E c)

variable {ok : W → P.Event → Prop} {G : Ground S W} {pre : P.Call → S.Op → W → Prop} {Q : P.Call → P.Res → W → Prop}
  {E : P.Call → S.Err → W → Prop} {w₀ : W} {s : P.State}

/-- **Every reached state is safe.** -/
theorem reach_safe (hfits : Fits P ok G pre Q E) (hinit : G.inv w₀) (h : P.Reach ok w₀ s) :
    G.inv s.w ∧ ∀ t ∈ s.serving, wp (G.contract (pre t.call)) t.prog (finished (Q t.call) (E t.call)) s.w := by
  induction h with
  | start => exact ⟨hinit, fun t ht => nomatch ht⟩
  | @step s s' a e _ hstep hok ih =>
    obtain ⟨hinv, hsafe⟩ := ih
    rcases step_cases hstep with ⟨c, rfl, hw, hserving⟩ | ⟨c, op, k, inp, r, i, rfl, hget, hexec, hserving⟩ |
      ⟨m, rfl, hmove, hserving⟩ | ⟨rfl, hw, hserving⟩
    · rw [hw]
      refine ⟨hinv, fun t ht => ?_⟩
      rw [hserving] at ht
      rcases List.mem_append.mp ht with ht | ht
      · exact hsafe t ht
      · rw [List.mem_singleton.mp ht]
        exact (hfits.call s.w c hinv hok).thread (fun _ _ _ => trivial)
    · -- the operation of one call; the others see it as interference
      have hcall := hsafe _ (List.mem_of_getElem? hget)
      obtain ⟨hpre, hafter⟩ := hcall s.w (G.rely_refl _) hinv
      obtain ⟨hGexec, hinv', hrely⟩ := hfits.exec c op s.w inp r s'.w hinv hok hpre hexec
      refine ⟨hinv', fun t ht => ?_⟩
      rw [hserving] at ht
      rcases List.mem_or_eq_of_mem_set ht with ht | rfl
      · exact wp_rely (hsafe t ht) hrely
      · have hnext := hafter r s'.w hGexec s'.w (G.rely_refl _) hinv'
        rw [show (G.contract (pre c)).flags s'.w = P.flags s'.w from hfits.flags s'.w] at hnext
        exact hnext
    · obtain ⟨hinv', hrely⟩ := hfits.move s.w m s'.w hinv hok hmove
      rw [hserving]
      exact ⟨hinv', fun t ht => wp_rely (hsafe t ht) hrely⟩
    · rw [hw, hserving]
      exact ⟨hinv, fun t ht => nomatch ht⟩

/-- A finished call has its postcondition. -/
theorem reach_result (hfits : Fits P ok G pre Q E) (hinit : G.inv w₀) (h : P.Reach ok w₀ s) {c : P.Call} {fl : S.Flags}
    {r : Except S.Err P.Res} (hret : ⟨c, .ret (r, fl)⟩ ∈ s.serving) : finished (Q c) (E c) (r, fl) s.w := by
  obtain ⟨hinv, hsafe⟩ := reach_safe hfits hinit h
  exact hsafe _ hret s.w (G.rely_refl _) hinv

/-- An operation about to take effect meets its precondition. -/
theorem reach_pre (hfits : Fits P ok G pre Q E) (hinit : G.inv w₀) (h : P.Reach ok w₀ s) {c : P.Call} {op : S.Op}
    {k : Except S.Err (S.Ans op) → S.Flags → Prog S (Except S.Err P.Res × S.Flags)}
    (hcall : ⟨c, .call op k⟩ ∈ s.serving) : pre c op s.w := by
  obtain ⟨hinv, hsafe⟩ := reach_safe hfits hinit h
  exact (hsafe _ hcall s.w (G.rely_refl _) hinv).1

/-! ## Checked runs -/

/-- A sequence of actions whose steps are checked. -/
def runWhile (P : Pool S W) (good : W → P.Event → Bool) : P.State → List P.Action → Option P.State
  | s, [] => some s
  | s, a :: as =>
    match P.step s a with
    | some (e, s') => if good s.w e then runWhile P good s' as else none
    | none => none

/-- An executed sequence of checked actions is a run. -/
theorem reach_of_runWhile {good : W → P.Event → Bool} (hgood : ∀ w e, good w e = true → ok w e) {s s' : P.State}
    {as : List P.Action} (hs : P.Reach ok w₀ s) (h : runWhile P good s as = some s') : P.Reach ok w₀ s' := by
  induction as generalizing s with
  | nil =>
    obtain rfl := Option.some.inj h
    exact hs
  | cons a as ih =>
    unfold runWhile at h
    split at h
    · rename_i e s₁ hstep
      split at h
      · rename_i hok
        exact ih (.step hs hstep (hgood _ _ hok)) h
      · exact nomatch h
    · exact nomatch h

/-- A checked run that leads to a state with a property. -/
theorem reach_exists (P : Pool S W) (ok : W → P.Event → Prop) (good : W → P.Event → Bool)
    (hgood : ∀ w e, good w e = true → ok w e) (w₀ : W) (as : List P.Action) (Good : P.State → Bool)
    (h : (runWhile P good ⟨w₀, []⟩ as).any Good = true) : ∃ s, P.Reach ok w₀ s ∧ Good s = true := by
  obtain ⟨s, hs, hgoal⟩ := (Option.any_eq_true _ _).mp h
  exact ⟨s, reach_of_runWhile hgood .start hs, hgoal⟩

end Pool

end AsyncLogic
