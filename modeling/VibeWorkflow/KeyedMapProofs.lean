import Mathlib.Data.List.Basic
import Mathlib.Data.List.Nodup

/-!
# Maps in insertion order

A map as a list of entries, one for a key, in the order in which the keys came: setting a key that is
there changes its entry in place.

* `get_set`, `get_delete` — reading back;
* `mem_set`, `mem_delete` — where the entries of a changed map come from;
* **`set_eq_self_iff`**, **`delete_eq_self_iff`** — when a change is none.
-/

namespace KeyedMap

variable {κ ν : Type} [DecidableEq κ]

def get : List (κ × ν) → κ → Option ν
  | [], _ => none
  | (q, v) :: m, k => if q = k then some v else get m k

def set : List (κ × ν) → κ → ν → List (κ × ν)
  | [], k, v => [(k, v)]
  | (q, u) :: m, k, v => if q = k then (k, v) :: m else (q, u) :: set m k v

def delete (m : List (κ × ν)) (k : κ) : List (κ × ν) := m.filter (fun p => p.1 ≠ k)

/-- One entry for a key. -/
def Unique (m : List (κ × ν)) : Prop := (m.map Prod.fst).Nodup

variable {m : List (κ × ν)} {k q : κ} {v u : ν}

@[simp] theorem get_nil : get ([] : List (κ × ν)) k = none := rfl

theorem get_mem (h : get m k = some v) : (k, v) ∈ m := by
  induction m with
  | nil => exact nomatch h
  | cons p m ih =>
    obtain ⟨q, u⟩ := p
    rw [get] at h
    split at h
    · rename_i hq
      cases h
      exact hq ▸ List.mem_cons_self
    · exact List.mem_cons_of_mem _ (ih h)

theorem get_none_iff : get m k = none ↔ ∀ p ∈ m, p.1 ≠ k := by
  induction m with
  | nil => exact ⟨fun _ _ hp => absurd hp List.not_mem_nil, fun _ => rfl⟩
  | cons p m ih =>
    obtain ⟨q, u⟩ := p
    rw [get, List.forall_mem_cons]
    split
    · rename_i hq
      exact ⟨(fun h => nomatch h), fun h => absurd hq h.1⟩
    · rename_i hq
      exact ⟨fun h => ⟨hq, ih.mp h⟩, fun h => ih.mpr h.2⟩

theorem get_of_mem (hu : Unique m) (h : (k, v) ∈ m) : get m k = some v := by
  induction m with
  | nil => exact absurd h List.not_mem_nil
  | cons p m ih =>
    obtain ⟨q, u⟩ := p
    have hu : q ∉ m.map Prod.fst ∧ (m.map Prod.fst).Nodup := List.nodup_cons.mp hu
    rw [get]
    rcases List.mem_cons.mp h with heq | h
    · cases heq
      exact if_pos rfl
    · have hne : q ≠ k := fun hq => hu.1 (hq ▸ List.mem_map_of_mem (f := Prod.fst) h)
      rw [if_neg hne]
      exact ih hu.2 h

theorem get_set (m : List (κ × ν)) (k q : κ) (v : ν) :
    get (set m k v) q = if k = q then some v else get m q := by
  induction m with
  | nil => rfl
  | cons p m ih =>
    obtain ⟨r, u⟩ := p
    by_cases hr : r = k
    · subst hr
      simp only [set, get, if_true]
      split <;> rfl
    · simp only [set, get, hr, if_false, ih]
      by_cases hq : r = q
      · subst hq
        rw [if_pos rfl, if_neg (Ne.symm hr), if_pos rfl]
      · rw [if_neg hq, if_neg hq]

theorem get_delete (m : List (κ × ν)) (k q : κ) :
    get (delete m k) q = if k = q then none else get m q := by
  induction m with
  | nil => split <;> rfl
  | cons p m ih =>
    obtain ⟨r, u⟩ := p
    unfold delete at ih ⊢
    by_cases hr : r = k
    · subst hr
      rw [List.filter_cons_of_neg (by simp), ih]
      by_cases hq : r = q
      · rw [if_pos hq, if_pos hq]
      · rw [if_neg hq, if_neg hq, get, if_neg hq]
    · rw [List.filter_cons_of_pos (by simpa using hr), get, get, ih]
      by_cases hq : r = q
      · subst hq
        rw [if_pos rfl, if_neg (Ne.symm hr), if_pos rfl]
      · rw [if_neg hq, if_neg hq]

/-- A new key comes last. -/
theorem set_new (h : get m k = none) (v : ν) : set m k v = m ++ [(k, v)] := by
  induction m with
  | nil => rfl
  | cons p m ih =>
    obtain ⟨q, u⟩ := p
    rw [get] at h
    split at h
    · exact nomatch h
    · rename_i hq
      rw [KeyedMap.set, if_neg hq, ih h]
      rfl

/-- The entries of a changed map are the new one and old ones. -/
theorem mem_set {p : κ × ν} (h : p ∈ set m k v) : p = (k, v) ∨ p ∈ m := by
  induction m with
  | nil => exact Or.inl (List.mem_singleton.mp h)
  | cons r m ih =>
    obtain ⟨q, u⟩ := r
    rw [set] at h
    split at h
    · rcases List.mem_cons.mp h with h | h
      · exact Or.inl h
      · exact Or.inr (List.mem_cons_of_mem _ h)
    · rcases List.mem_cons.mp h with h | h
      · exact Or.inr (h ▸ List.mem_cons_self)
      · exact (ih h).imp id (List.mem_cons_of_mem _)

/-- In a map with one entry for a key, the old entry is gone. -/
theorem mem_set_of_unique (hu : Unique m) {p : κ × ν} (h : p ∈ set m k v) :
    p = (k, v) ∨ (p ∈ m ∧ p.1 ≠ k) := by
  induction m with
  | nil => exact Or.inl (List.mem_singleton.mp h)
  | cons r m ih =>
    obtain ⟨q, u⟩ := r
    have hu : q ∉ m.map Prod.fst ∧ (m.map Prod.fst).Nodup := List.nodup_cons.mp hu
    rw [set] at h
    split at h
    · rename_i hq
      rcases List.mem_cons.mp h with h | h
      · exact Or.inl h
      · refine Or.inr ⟨List.mem_cons_of_mem _ h, fun hk => hu.1 ?_⟩
        rw [hq, ← hk]
        exact List.mem_map_of_mem h
    · rename_i hq
      rcases List.mem_cons.mp h with h | h
      · exact Or.inr ⟨h ▸ List.mem_cons_self, h ▸ hq⟩
      · exact (ih hu.2 h).imp id (fun hp => ⟨List.mem_cons_of_mem _ hp.1, hp.2⟩)

theorem mem_delete {p : κ × ν} : p ∈ delete m k ↔ p ∈ m ∧ p.1 ≠ k := by
  unfold delete
  rw [List.mem_filter, decide_eq_true_eq]

theorem keys_set_subset : ∀ q ∈ (set m k v).map Prod.fst, q = k ∨ q ∈ m.map Prod.fst := by
  intro q hq
  obtain ⟨p, hp, rfl⟩ := List.mem_map.mp hq
  rcases mem_set hp with rfl | hp
  · exact Or.inl rfl
  · exact Or.inr (List.mem_map_of_mem hp)

theorem Unique.set (hu : Unique m) (k : κ) (v : ν) : Unique (set m k v) := by
  induction m with
  | nil => exact List.nodup_singleton k
  | cons r m ih =>
    obtain ⟨q, u⟩ := r
    have hu : q ∉ m.map Prod.fst ∧ (m.map Prod.fst).Nodup := List.nodup_cons.mp hu
    unfold Unique
    rw [KeyedMap.set]
    split
    · rename_i hq
      exact List.nodup_cons.mpr ⟨hq ▸ hu.1, hu.2⟩
    · rename_i hq
      refine List.nodup_cons.mpr ⟨fun hmem => ?_, ih hu.2⟩
      rcases keys_set_subset q hmem with h | h
      · exact hq h
      · exact hu.1 h

omit [DecidableEq κ] in
theorem Unique.append (hu : Unique m) (h : k ∉ m.map Prod.fst) (v : ν) : Unique (m ++ [(k, v)]) := by
  unfold Unique
  rw [List.map_append]
  refine List.Nodup.append hu (List.nodup_singleton k) ?_
  intro q hq hk
  have hqk : q = k := List.mem_singleton.mp hk
  exact h (hqk ▸ hq)

omit [DecidableEq κ] in
theorem Unique.filter (hu : Unique m) (p : κ × ν → Bool) : Unique (m.filter p) :=
  List.Nodup.sublist (List.filter_sublist.map Prod.fst) hu

/-- Deleting a key that is there takes one entry. -/
theorem length_delete (hu : Unique m) (h : get m k = some v) : (delete m k).length + 1 = m.length := by
  induction m with
  | nil => exact nomatch h
  | cons p m ih =>
    obtain ⟨q, u⟩ := p
    have hu : q ∉ m.map Prod.fst ∧ (m.map Prod.fst).Nodup := List.nodup_cons.mp hu
    rw [get] at h
    unfold delete at ih ⊢
    split at h
    · rename_i hq
      have hrest : m.filter (fun p => p.1 ≠ k) = m := by
        refine List.filter_eq_self.mpr fun p hp => decide_eq_true fun hk => hu.1 ?_
        rw [hq, ← hk]
        exact List.mem_map_of_mem hp
      rw [List.filter_cons_of_neg (by simpa using hq), hrest, List.length_cons]
    · rename_i hq
      rw [List.filter_cons_of_pos (by simpa using hq), List.length_cons, List.length_cons, ih hu.2 h]

/-- **Setting changes nothing** exactly where the entry is there already. -/
theorem set_eq_self_iff : set m k v = m ↔ get m k = some v := by
  constructor
  · intro h
    rw [← h, get_set, if_pos rfl]
  · intro h
    induction m with
    | nil => exact nomatch h
    | cons r m ih =>
      obtain ⟨q, u⟩ := r
      rw [get] at h
      rw [KeyedMap.set]
      split
      · rename_i hq
        rw [if_pos hq] at h
        cases h
        rw [hq]
      · rename_i hq
        rw [if_neg hq] at h
        rw [ih h]

/-- **Deleting changes nothing** exactly where there is no entry. -/
theorem delete_eq_self_iff : delete m k = m ↔ get m k = none := by
  rw [get_none_iff]
  unfold delete
  rw [List.filter_eq_self]
  simp only [decide_eq_true_eq]

/-- Setting a key and deleting it leaves what was there without the key. -/
theorem delete_set (m : List (κ × ν)) (k : κ) (v : ν) : delete (set m k v) k = delete m k := by
  induction m with
  | nil =>
    show List.filter _ [(k, v)] = []
    rw [List.filter_cons_of_neg (by simp)]
    rfl
  | cons r m ih =>
    obtain ⟨q, u⟩ := r
    rw [KeyedMap.set]
    unfold delete at ih ⊢
    split
    · rename_i hq
      rw [List.filter_cons_of_neg (by simp), List.filter_cons_of_neg (by simpa using hq)]
    · rename_i hq
      rw [List.filter_cons_of_pos (by simpa using hq), List.filter_cons_of_pos (by simpa using hq), ih]

end KeyedMap
