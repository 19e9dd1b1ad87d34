import Mathlib.Data.List.Basic

/-!
# Transactions over keyed tables

A statement sequence over a database may throw, and has then made the writes before the throw;
`transaction` takes them back. A table is a list of rows with a key column.

* `Keeps` — what a program that does not throw does to the state, in terms of a preorder; the
  rules `Keeps.pure`, `Keeps.bind`, `Keeps.modify` follow the program's text;
* `transaction_rollback`, `transaction_ok` — a transaction either runs through or does nothing;
* `lookup_update`, `lookup_concat` — how a change of one row and a new row read back.
-/

namespace Transaction

variable {σ ε α β κ ρ : Type}

/-! ## Programs -/

/-- A statement sequence: what it returned or threw, and the state it left. -/
def Tx (σ ε α : Type) : Type := σ → Except ε α × σ

instance : Monad (Tx σ ε) where
  pure a := fun s => (.ok a, s)
  bind x f := fun s =>
    match x s with
    | (.ok a, s') => f a s'
    | (.error e, s') => (.error e, s')

def throwTx (e : ε) : Tx σ ε α := fun s => (.error e, s)

def readTx (f : σ → α) : Tx σ ε α := fun s => (.ok (f s), s)

def modifyTx (f : σ → σ) : Tx σ ε Unit := fun s => (.ok (), f s)

/-- A pure check or encoding that may throw. -/
def liftTx (x : Except ε α) : Tx σ ε α := fun s => (x, s)

/-- A throw takes back what the program wrote. -/
def transaction (x : Tx σ ε α) : Tx σ ε α := fun s =>
  match x s with
  | (.ok a, s') => (.ok a, s')
  | (.error e, _) => (.error e, s)

@[simp] theorem pure_apply (a : α) (s : σ) : (pure a : Tx σ ε α) s = (.ok a, s) := rfl

@[simp] theorem throwTx_apply (e : ε) (s : σ) : (throwTx e : Tx σ ε α) s = (.error e, s) := rfl

@[simp] theorem readTx_apply (f : σ → α) (s : σ) : (readTx f : Tx σ ε α) s = (.ok (f s), s) := rfl

@[simp] theorem modifyTx_apply (f : σ → σ) (s : σ) : (modifyTx f : Tx σ ε Unit) s = (.ok (), f s) := rfl

@[simp] theorem liftTx_apply (x : Except ε α) (s : σ) : (liftTx x : Tx σ ε α) s = (x, s) := rfl

/-- A sequence runs through exactly when both parts do. -/
theorem bind_ok {x : Tx σ ε α} {f : α → Tx σ ε β} {s s' : σ} {b : β} :
    (x >>= f) s = (.ok b, s') ↔ ∃ a s₁, x s = (.ok a, s₁) ∧ f a s₁ = (.ok b, s') := by
  show (match x s with | (.ok a, s') => f a s' | (.error e, s') => (.error e, s')) = (Except.ok b, s') ↔ _
  rcases x s with ⟨_ | a, s₁⟩
  · constructor
    · intro h
      exact nomatch h
    · rintro ⟨_, _, h, _⟩
      exact nomatch h
  · constructor
    · intro h
      exact ⟨a, s₁, rfl, h⟩
    · rintro ⟨_, _, ⟨⟩, h⟩
      exact h

/-- After a read, the program goes on in the same state. -/
@[simp] theorem readTx_bind (f : σ → α) (k : α → Tx σ ε β) (s : σ) : (readTx f >>= k) s = k (f s) s := rfl

@[simp] theorem modifyTx_bind (f : σ → σ) (k : Unit → Tx σ ε β) (s : σ) : (modifyTx f >>= k) s = k () (f s) := rfl

theorem liftTx_ok {x : Except ε α} {s s' : σ} {a : α} : (liftTx x : Tx σ ε α) s = (.ok a, s') ↔ x = .ok a ∧ s' = s := by
  constructor
  · intro h
    exact ⟨congrArg Prod.fst h, (congrArg Prod.snd h).symm⟩
  · rintro ⟨rfl, rfl⟩
    rfl

/-- A call that throws leaves the state as it was. -/
theorem transaction_cases (x : Tx σ ε α) (s : σ) :
    (∃ e, transaction x s = (.error e, s)) ∨ ∃ a s', x s = (.ok a, s') ∧ transaction x s = (.ok a, s') := by
  unfold transaction
  split
  · rename_i a s' hx
    exact .inr ⟨a, s', hx, rfl⟩
  · exact .inl ⟨_, rfl⟩

theorem transaction_rollback {x : Tx σ ε α} {s : σ} {e : ε} (h : (transaction x s).1 = .error e) :
    (transaction x s).2 = s := by
  unfold transaction at h ⊢
  split at h
  · exact nomatch h
  · rfl

theorem transaction_ok {x : Tx σ ε α} {s s' : σ} {a : α} :
    transaction x s = (.ok a, s') ↔ x s = (.ok a, s') := by
  unfold transaction
  split
  · rename_i hx
    rw [hx]
  · rename_i hx
    rw [hx]
    constructor
    · intro h
      exact nomatch h
    · intro h
      exact nomatch h

/-- A transaction whose success would write nothing writes nothing. -/
theorem transaction_noop {x : Tx σ ε α} {s : σ} (h : ∀ a s', x s = (.ok a, s') → s' = s) :
    (transaction x s).2 = s := by
  unfold transaction
  split
  · rename_i hx
    exact h _ _ hx
  · rfl

/-! ## What a throw leaves -/

/-- A program that throws has written nothing. -/
def Clean (x : Tx σ ε α) : Prop := ∀ s e s', x s = (.error e, s') → s' = s

theorem Clean.pure (a : α) : Clean (Pure.pure a : Tx σ ε α) := by
  intro s e s' h
  exact nomatch h

theorem Clean.throwTx (e : ε) : Clean (throwTx e : Tx σ ε α) := by
  rintro s _ _ ⟨⟩
  rfl

theorem Clean.ite {c : Prop} [Decidable c] {x y : Tx σ ε α} (hx : Clean x) (hy : Clean y) :
    Clean (if c then x else y) := by
  split
  · exact hx
  · exact hy

theorem Clean.read_bind (f : σ → α) {k : α → Tx σ ε β} (hk : ∀ a, Clean (k a)) :
    Clean (Transaction.readTx f >>= k) := by
  intro s e s' h
  rw [readTx_bind] at h
  exact hk (f s) s e s' h

theorem Clean.lift_bind (x : Except ε α) {k : α → Tx σ ε β} (hk : ∀ a, Clean (k a)) :
    Clean (Transaction.liftTx x >>= k) := by
  intro s e s' h
  cases x with
  | error e' =>
    cases h
    rfl
  | ok a => exact hk a s e s' h

/-- A first part that writes nothing, whether it throws or not. -/
theorem Clean.bind {x : Tx σ ε α} (hx : ∀ s, (x s).2 = s) {k : α → Tx σ ε β} (hk : ∀ a, Clean (k a)) :
    Clean (x >>= k) := by
  intro s e s' h
  change (match x s with | (.ok a, s₁) => k a s₁ | (.error e, s₁) => (.error e, s₁)) = (Except.error e, s') at h
  have hs := hx s
  rcases hxs : x s with ⟨e' | a, s₁⟩
  · rw [hxs] at h hs
    cases h
    exact hs
  · rw [hxs] at h hs
    obtain rfl : s₁ = s := hs
    exact hk a s₁ e s' h

/-- Two writes in a row do not throw. -/
theorem Clean.modify_modify (f g : σ → σ) : Clean (do modifyTx f; modifyTx g : Tx σ ε Unit) := by
  intro s e s' h
  exact nomatch h

/-! ## What a program keeps -/

/-- Whenever the program runs through, it moves the state along `R`. -/
def Keeps (R : σ → σ → Prop) (x : Tx σ ε α) : Prop := ∀ s a s', x s = (.ok a, s') → R s s'

variable {R : σ → σ → Prop}

theorem Keeps.pure (hrefl : ∀ s, R s s) (a : α) : Keeps R (Pure.pure a : Tx σ ε α) := by
  rintro s _ _ ⟨⟩
  exact hrefl s

theorem Keeps.throwTx (e : ε) : Keeps R (throwTx e : Tx σ ε α) := by
  intro s a s' h
  exact nomatch h

theorem Keeps.readTx (hrefl : ∀ s, R s s) (f : σ → α) : Keeps R (readTx f : Tx σ ε α) := by
  rintro s _ _ ⟨⟩
  exact hrefl s

theorem Keeps.liftTx (hrefl : ∀ s, R s s) (x : Except ε α) : Keeps R (liftTx x : Tx σ ε α) := by
  intro s a s' h
  rw [(liftTx_ok.mp h).2]
  exact hrefl s

theorem Keeps.bind (htrans : ∀ a b c, R a b → R b c → R a c) {x : Tx σ ε α} {f : α → Tx σ ε β}
    (hx : Keeps R x) (hf : ∀ a, Keeps R (f a)) : Keeps R (x >>= f) := by
  intro s b s' h
  obtain ⟨a, s₁, h₁, h₂⟩ := bind_ok.mp h
  exact htrans _ _ _ (hx s a s₁ h₁) (hf a s₁ b s' h₂)

/-- A transaction moves the state along `R` whether it throws or not. -/
theorem Keeps.transaction (hrefl : ∀ s, R s s) {x : Tx σ ε α} (hx : Keeps R x) (s : σ) :
    R s (transaction x s).2 := by
  cases h : (Transaction.transaction x s).1 with
  | error e =>
    rw [transaction_rollback h]
    exact hrefl s
  | ok a =>
    have hok : Transaction.transaction x s = (.ok a, (Transaction.transaction x s).2) := Prod.ext h rfl
    exact hx s a _ (transaction_ok.mp hok)

/-! ## What a program leaves, whether it throws or not -/

/-- Wherever the program stops, it has led to a related state. -/
def Leads (R : σ → σ → Prop) (x : Tx σ ε α) : Prop := ∀ s, R s (x s).2

theorem Leads.pure (hrefl : ∀ s, R s s) (a : α) : Leads R (Pure.pure a : Tx σ ε α) := hrefl

theorem Leads.throwTx (hrefl : ∀ s, R s s) (e : ε) : Leads R (throwTx e : Tx σ ε α) := hrefl

theorem Leads.modifyTx {f : σ → σ} (h : ∀ s, R s (f s)) : Leads R (modifyTx f : Tx σ ε Unit) := h

theorem Leads.read_bind {f : σ → α} {k : α → Tx σ ε β} (h : ∀ a, Leads R (k a)) :
    Leads R (Transaction.readTx f >>= k) :=
  fun s => h (f s) s

theorem Leads.lift_bind (hrefl : ∀ s, R s s) {x : Except ε α} {k : α → Tx σ ε β} (h : ∀ a, Leads R (k a)) :
    Leads R (Transaction.liftTx x >>= k) := by
  intro s
  cases x with
  | error e => exact hrefl s
  | ok a => exact h a s

theorem Leads.bind (htrans : ∀ a b c, R a b → R b c → R a c) {x : Tx σ ε α} {f : α → Tx σ ε β} (hx : Leads R x)
    (hf : ∀ a, Leads R (f a)) : Leads R (x >>= f) := by
  intro s
  have hs := hx s
  show R s (match x s with | (.ok a, s') => f a s' | (.error e, s') => (.error e, s')).2
  rcases hxs : x s with ⟨e | a, s'⟩
  · rw [hxs] at hs
    exact hs
  · rw [hxs] at hs
    exact htrans _ _ _ hs (hf a s')

theorem Leads.ite {c : Prop} [Decidable c] {x y : Tx σ ε α} (hx : Leads R x) (hy : Leads R y) :
    Leads R (if c then x else y) := by
  split
  · exact hx
  · exact hy

/-! ## Keyed tables -/

section Table

variable [DecidableEq κ] (key : ρ → κ)

def lookup (rows : List ρ) (k : κ) : Option ρ := rows.find? fun r => key r = k

/-- `UPDATE … WHERE key = k`. -/
def update (rows : List ρ) (k : κ) (f : ρ → ρ) : List ρ := rows.map fun r => if key r = k then f r else r

theorem lookup_some {rows : List ρ} {k : κ} {r : ρ} (h : lookup key rows k = some r) : r ∈ rows ∧ key r = k :=
  ⟨List.mem_of_find?_eq_some h, by simpa using List.find?_some h⟩

theorem lookup_update {rows : List ρ} {k : κ} {f : ρ → ρ} (hf : ∀ r, key (f r) = key r) (k' : κ) :
    lookup key (update key rows k f) k' = if k' = k then (lookup key rows k').map f else lookup key rows k' := by
  unfold lookup update
  induction rows with
  | nil => simp
  | cons r rows ih =>
    simp only [List.map_cons, List.find?_cons]
    by_cases hr : key r = k
    · by_cases hk : k' = k
      · simp [hr, hf, hk]
      · have hne : ¬ k = k' := fun h => hk h.symm
        simpa [hr, hf, hk, hne] using ih
    · by_cases hk : k' = k
      · subst hk
        simpa [hr] using ih
      · by_cases hr' : key r = k'
        · have hne : ¬ k' = k := hk
          simp [hr', hne]
        · simpa [hr, hr', hk] using ih

theorem lookup_concat (rows : List ρ) (r : ρ) (k : κ) :
    lookup key (rows ++ [r]) k = (lookup key rows k).or (if key r = k then some r else none) := by
  unfold lookup
  rw [List.find?_append]
  by_cases h : key r = k <;> simp [h]

/-- Rows that were there are still found after another one is added. -/
theorem lookup_concat_of_some {rows : List ρ} {r r' : ρ} {k : κ} (h : lookup key rows k = some r) :
    lookup key (rows ++ [r']) k = some r := by
  rw [lookup_concat, h]
  rfl

/-- The first row found is still the first one if it is not dropped. -/
theorem lookup_filter_some {rows : List ρ} {k : κ} {r : ρ} {keep : ρ → Bool} (h : lookup key rows k = some r)
    (hkeep : keep r = true) : lookup key (rows.filter keep) k = some r := by
  unfold lookup at h ⊢
  induction rows with
  | nil => exact nomatch h
  | cons r₀ rows ih =>
    by_cases hk : key r₀ = k
    · rw [List.find?_cons_of_pos (by simpa using hk)] at h
      obtain rfl : r₀ = r := Option.some.inj h
      rw [List.filter_cons_of_pos hkeep, List.find?_cons_of_pos (by simpa using hk)]
    · rw [List.find?_cons_of_neg (by simpa using hk)] at h
      by_cases hr : keep r₀ = true
      · rw [List.filter_cons_of_pos hr, List.find?_cons_of_neg (by simpa using hk)]
        exact ih h
      · rw [List.filter_cons_of_neg hr]
        exact ih h

end Table

end Transaction
