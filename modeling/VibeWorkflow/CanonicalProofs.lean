import VibeWorkflow.CompilerContractProofs
import VibeWorkflow.JsonTextProofs

/-!
# What a canonical text identifies

A canonical copy lists the properties of every object in one order.  Its text is the same for two values
exactly when they are the same up to the order of properties, with one exception: the copy is made by
assignment, and an assignment to `__proto__` makes no property, so a property of that name is lost.

* `Distinct` — the objects of a parsed value have every name once;
* `Same` — equality up to the order of properties;
* `dropProto` — the value without its properties named `__proto__`;
* **`canonicalize_eq_iff`**, **`canonicalJson_eq_iff`** — what canonical copies and texts identify.
-/

namespace VibeCompiler

open VibeJson VibeContract

/-! ## Equality up to order -/

mutual

/-- Every object has each of its names once. -/
def Distinct : Json → Prop
  | .arr xs => DistinctList xs
  | .obj kvs => (kvs.map Prod.fst).Nodup ∧ DistinctFields kvs
  | _ => True

def DistinctList : List Json → Prop
  | [] => True
  | x :: xs => Distinct x ∧ DistinctList xs

def DistinctFields : List (String × Json) → Prop
  | [] => True
  | (_, v) :: kvs => Distinct v ∧ DistinctFields kvs

end

mutual

/-- **Equality up to the order of properties**: the same names, and every property is in the other. -/
def Same : Json → Json → Prop
  | .arr xs, .arr ys => SameList xs ys
  | .obj kvs, .obj kvs' => (kvs.map Prod.fst).Perm (kvs'.map Prod.fst) ∧ SameFields kvs kvs'
  | .null, .null => True
  | .bool b, .bool b' => b = b'
  | .num n, .num n' => n = n'
  | .str s, .str s' => s = s'
  | _, _ => False

def SameList : List Json → List Json → Prop
  | [], [] => True
  | x :: xs, y :: ys => Same x y ∧ SameList xs ys
  | _, _ => False

def SameFields : List (String × Json) → List (String × Json) → Prop
  | [], _ => True
  | (k, v) :: kvs, kvs' => (∃ v', (k, v') ∈ kvs' ∧ Same v v') ∧ SameFields kvs kvs'

end

mutual

/-- The value without its properties named `__proto__`. -/
def dropProto : Json → Json
  | .arr xs => .arr (dropProtoList xs)
  | .obj kvs => .obj (dropProtoFields kvs)
  | .null => .null
  | .bool b => .bool b
  | .num n => .num n
  | .str s => .str s

def dropProtoList : List Json → List Json
  | [] => []
  | x :: xs => dropProto x :: dropProtoList xs

def dropProtoFields : List (String × Json) → List (String × Json)
  | [] => []
  | (k, v) :: kvs => if k = "__proto__" then dropProtoFields kvs else (k, dropProto v) :: dropProtoFields kvs

end

/-! ## The order of names -/

theorem unitsLe_total (a b : List Nat) : unitsLe a b = true ∨ unitsLe b a = true := by
  induction a generalizing b with
  | nil => exact .inl rfl
  | cons a as ih =>
    cases b with
    | nil => exact .inr rfl
    | cons b bs =>
      rcases Nat.lt_trichotomy a b with h | rfl | h
      · exact .inl (by simp [unitsLe, h])
      · rcases ih bs with h | h
        · exact .inl (by simp [unitsLe, h])
        · exact .inr (by simp [unitsLe, h])
      · exact .inr (by simp [unitsLe, h])

theorem unitsLe_cons {a b : Nat} {as bs : List Nat} :
    unitsLe (a :: as) (b :: bs) = true ↔ a < b ∨ (a = b ∧ unitsLe as bs = true) := by
  simp [unitsLe]

theorem unitsLe_trans {a b c : List Nat} (hab : unitsLe a b = true) (hbc : unitsLe b c = true) :
    unitsLe a c = true := by
  induction a generalizing b c with
  | nil => rfl
  | cons a as ih =>
    cases b with
    | nil => exact nomatch hab
    | cons b bs =>
      cases c with
      | nil => exact nomatch hbc
      | cons c cs =>
        rw [unitsLe_cons] at hab hbc ⊢
        rcases hab with hab | ⟨rfl, hab⟩
        · rcases hbc with hbc | ⟨rfl, -⟩
          · exact .inl (Nat.lt_trans hab hbc)
          · exact .inl hab
        · rcases hbc with hbc | ⟨rfl, hbc⟩
          · exact .inl hbc
          · exact .inr ⟨rfl, ih hab hbc⟩

theorem unitsLe_antisymm {a b : List Nat} (hab : unitsLe a b = true) (hba : unitsLe b a = true) : a = b := by
  induction a generalizing b with
  | nil =>
    cases b with
    | nil => rfl
    | cons b bs => exact nomatch hba
  | cons a as ih =>
    cases b with
    | nil => exact nomatch hab
    | cons b bs =>
      rw [unitsLe_cons] at hab hba
      rcases hab with hab | ⟨rfl, hab⟩
      · rcases hba with hba | ⟨rfl, -⟩
        · exact absurd (Nat.lt_trans hab hba) (Nat.lt_irrefl a)
        · exact absurd hab (Nat.lt_irrefl _)
      · rcases hba with hba | ⟨-, hba⟩
        · exact absurd hba (Nat.lt_irrefl a)
        · rw [ih hab hba]

theorem char_range (c : Char) : c.toNat < 55296 ∨ (57343 < c.toNat ∧ c.toNat < 1114112) := c.valid

theorem charUnits_append {c c' : Char} {t t' : List Nat} (h : charUnits c ++ t = charUnits c' ++ t') :
    c = c' ∧ t = t' := by
  have hc := char_range c
  have hc' := char_range c'
  have hchar : c.toNat = c'.toNat → c = c' := by
    intro h
    rw [← Char.ofNat_toNat c, h, Char.ofNat_toNat]
  unfold charUnits at h
  split at h
  · split at h
    · obtain ⟨hn, ht⟩ := List.cons.inj h
      exact ⟨hchar hn, ht⟩
    · -- a surrogate is no character
      have hn := (List.cons.inj h).1
      omega
  · split at h
    · have hn := (List.cons.inj h).1
      omega
    · obtain ⟨hn, hrest⟩ := List.cons.inj h
      obtain ⟨hm, ht⟩ := List.cons.inj hrest
      exact ⟨hchar (by omega), ht⟩

theorem utf16Units_injective {a b : String} (h : utf16Units a = utf16Units b) : a = b := by
  have hlist : ∀ cs cs' : List Char, cs.flatMap charUnits = cs'.flatMap charUnits → cs = cs' := by
    intro cs
    have hne : ∀ c, charUnits c ≠ [] := by
      intro c
      unfold charUnits
      split <;> exact List.cons_ne_nil _ _
    induction cs with
    | nil =>
      intro cs' h
      cases cs' with
      | nil => rfl
      | cons c' cs' => exact absurd (List.append_eq_nil_iff.mp h.symm).1 (hne c')
    | cons c cs ih =>
      intro cs' h
      cases cs' with
      | nil => exact absurd (List.append_eq_nil_iff.mp h).1 (hne c)
      | cons c' cs' =>
        obtain ⟨rfl, hrest⟩ := charUnits_append h
        rw [ih cs' hrest]
  exact String.toList_inj.mp (hlist a.toList b.toList h)

/-! ## The order of a copy -/

section

variable {α : Type}

/-- The order of `.sort()` on names. -/
def nameLe (a b : String × α) : Prop := unitsLe (utf16Units a.1) (utf16Units b.1) = true

/-- The properties that the copy gets, sorted by name. -/
def ownSorted (kvs : List (String × α)) : List (String × α) :=
  (sortStrings Prod.fst kvs).filter (fun kv => kv.1 ≠ "__proto__")

theorem ownSorted_perm (kvs : List (String × α)) : (ownSorted kvs).Perm (kvs.filter (fun kv => kv.1 ≠ "__proto__")) :=
  (List.perm_insertionSort _ _).filter _

theorem ownSorted_sorted (kvs : List (String × α)) : (ownSorted kvs).Pairwise nameLe := by
  refine List.Pairwise.filter _ ?_
  have htotal : Std.Total (fun a b : String × α => unitsLe (utf16Units a.1) (utf16Units b.1) = true) :=
    ⟨fun a b => unitsLe_total _ _⟩
  have htrans : IsTrans (String × α) (fun a b => unitsLe (utf16Units a.1) (utf16Units b.1) = true) :=
    ⟨fun a b c => unitsLe_trans⟩
  exact List.pairwise_insertionSort (fun a b : String × α => unitsLe (utf16Units a.1) (utf16Units b.1) = true) kvs

/-- A copy has the properties of the object, without `__proto__`. -/
theorem ownOrder_perm (kvs : List (String × α)) : (ownOrder kvs).Perm (kvs.filter (fun kv => kv.1 ≠ "__proto__")) := by
  refine List.Perm.trans ?_ (ownSorted_perm kvs)
  refine List.Perm.trans ((List.perm_insertionSort _ _).append_right _) ?_
  show ((ownSorted kvs).filter _ ++ (ownSorted kvs).filter _).Perm (ownSorted kvs)
  have hsplit := List.filter_append_perm (fun kv : String × α => (arrayIndex? kv.1).isSome) (ownSorted kvs)
  have hneg : (ownSorted kvs).filter (fun kv => (arrayIndex? kv.1).isNone)
      = (ownSorted kvs).filter (fun kv => !(arrayIndex? kv.1).isSome) := by
    refine List.filter_congr fun kv _ => ?_
    cases arrayIndex? kv.1 <;> rfl
  rw [hneg]
  exact hsplit

/-- The order of a copy does not depend on the order of the object. -/
theorem ownOrder_congr {kvs kvs' : List (String × α)} (hnodup : (kvs.map Prod.fst).Nodup)
    (h : (kvs.filter (fun kv => kv.1 ≠ "__proto__")).Perm (kvs'.filter (fun kv => kv.1 ≠ "__proto__"))) :
    ownOrder kvs = ownOrder kvs' := by
  have hsorted : ownSorted kvs = ownSorted kvs' := by
    have hperm : (ownSorted kvs).Perm (ownSorted kvs') := (ownSorted_perm kvs).trans
      (h.trans (ownSorted_perm kvs').symm)
    refine List.Perm.eq_of_pairwise ?_ (ownSorted_sorted kvs) (ownSorted_sorted kvs') hperm
    intro a b ha hb hab hba
    -- one name, and so one property
    have hname : a.1 = b.1 := utf16Units_injective (unitsLe_antisymm hab hba)
    have hmem : ∀ kv ∈ ownSorted kvs, kv ∈ kvs :=
      fun kv hkv => (List.mem_filter.mp ((ownSorted_perm kvs).subset hkv)).1
    exact List.inj_on_of_nodup_map hnodup (hmem a ha) (hmem b (hperm.symm.subset hb)) hname
  show (((ownSorted kvs).filter _).insertionSort _ ++ (ownSorted kvs).filter _) = _
  rw [hsorted]
  rfl

end

/-! ## Properties one by one -/

theorem canonicalizeFields_eq (kvs : List (String × Json)) :
    canonicalizeFields kvs = kvs.map (fun kv => (kv.1, canonicalize kv.2)) := by
  induction kvs with
  | nil => rfl
  | cons kv kvs ih =>
    rw [canonicalizeFields, ih]
    rfl

theorem dropProtoFields_eq (kvs : List (String × Json)) :
    dropProtoFields kvs = (kvs.filter (fun kv => kv.1 ≠ "__proto__")).map (fun kv => (kv.1, dropProto kv.2)) := by
  induction kvs with
  | nil => rfl
  | cons kv kvs ih =>
    obtain ⟨k, v⟩ := kv
    rw [dropProtoFields]
    split
    · rename_i h
      rw [List.filter_cons_of_neg (by simpa using h), ih]
    · rename_i h
      rw [List.filter_cons_of_pos (by simpa using h), ih]
      rfl

theorem sameFields_iff {kvs kvs' : List (String × Json)} :
    SameFields kvs kvs' ↔ ∀ kv ∈ kvs, ∃ v', (kv.1, v') ∈ kvs' ∧ Same kv.2 v' := by
  induction kvs with
  | nil => exact ⟨fun _ _ h => (nomatch h), fun _ => trivial⟩
  | cons kv kvs ih =>
    obtain ⟨k, v⟩ := kv
    rw [SameFields, ih, List.forall_mem_cons]

theorem distinctFields_iff {kvs : List (String × Json)} : DistinctFields kvs ↔ ∀ kv ∈ kvs, Distinct kv.2 := by
  induction kvs with
  | nil => exact ⟨fun _ _ h => (nomatch h), fun _ => trivial⟩
  | cons kv kvs ih =>
    obtain ⟨k, v⟩ := kv
    rw [DistinctFields, ih, List.forall_mem_cons]

/-- A property is in an object when its value is the same as the one under its name. -/
theorem field_same_iff {all : List (String × Json)} (h : (all.map Prod.fst).Nodup) {k : String} {v w : Json}
    (hmem : (k, w) ∈ all) : (∃ v', (k, v') ∈ all ∧ Same v v') ↔ Same v w := by
  constructor
  · rintro ⟨v', hv', hsame⟩
    rw [← (Prod.mk.inj (List.inj_on_of_nodup_map h hv' hmem rfl)).2]
    exact hsame
  · exact fun hsame => ⟨w, hmem, hsame⟩

/-- Objects with the same names in the same order are compared value by value. -/
theorem same_obj_iff {kvs kvs' : List (String × Json)} (hnames : kvs.map Prod.fst = kvs'.map Prod.fst)
    (h : (kvs'.map Prod.fst).Nodup) : Same (.obj kvs) (.obj kvs') ↔
      SameList (kvs.map Prod.snd) (kvs'.map Prod.snd) := by
  have hfields : ∀ (part part' : List (String × Json)), part.map Prod.fst = part'.map Prod.fst →
      (∀ kv ∈ part', kv ∈ kvs') → (SameFields part kvs' ↔ SameList (part.map Prod.snd) (part'.map Prod.snd)) := by
    intro part
    induction part with
    | nil =>
      intro part' hn _
      rw [List.map_eq_nil_iff.mp hn.symm]
      exact ⟨fun _ => trivial, fun _ => trivial⟩
    | cons kv part ih =>
      intro part' hn hsub
      cases part' with
      | nil => exact nomatch hn
      | cons kv' part' =>
        obtain ⟨k, v⟩ := kv
        obtain ⟨k', w⟩ := kv'
        obtain ⟨rfl, hrest⟩ := List.cons.inj hn
        rw [SameFields, field_same_iff h (hsub _ List.mem_cons_self),
          ih part' hrest fun kv hkv => hsub kv (List.mem_cons_of_mem _ hkv)]
        exact Iff.rfl
  rw [Same, hfields kvs kvs' hnames fun _ hkv => hkv]
  exact ⟨fun hsame => hsame.2, fun hsame => ⟨by rw [hnames], hsame⟩⟩

/-- The canonical properties of an object, in its own order. -/
def ownCanonical (kvs : List (String × Json)) : List (String × Json) :=
  (canonicalizeFields kvs).filter (fun kv => kv.1 ≠ "__proto__")

theorem mem_ownCanonical {kvs : List (String × Json)} {k : String} {c : Json} :
    (k, c) ∈ ownCanonical kvs ↔ k ≠ "__proto__" ∧ ∃ v, (k, v) ∈ kvs ∧ canonicalize v = c := by
  unfold ownCanonical
  rw [List.mem_filter, canonicalizeFields_eq, List.mem_map]
  constructor
  · rintro ⟨⟨⟨k', v⟩, hmem, heq⟩, hk⟩
    obtain ⟨rfl, rfl⟩ := Prod.mk.inj heq
    exact ⟨of_decide_eq_true hk, v, hmem, rfl⟩
  · rintro ⟨hk, v, hmem, rfl⟩
    exact ⟨⟨(k, v), hmem, rfl⟩, decide_eq_true hk⟩

theorem canonical_names (kvs : List (String × Json)) : (canonicalizeFields kvs).map Prod.fst = kvs.map Prod.fst := by
  rw [canonicalizeFields_eq, List.map_map]
  rfl

theorem ownCanonical_names (kvs : List (String × Json)) :
    (ownCanonical kvs).map Prod.fst = (dropProtoFields kvs).map Prod.fst := by
  unfold ownCanonical
  rw [canonicalizeFields_eq, dropProtoFields_eq, List.filter_map, List.map_map, List.map_map]
  rfl

theorem ownCanonical_nodup {kvs : List (String × Json)} (h : (kvs.map Prod.fst).Nodup) : (ownCanonical kvs).Nodup := by
  refine List.Nodup.filter _ (List.Nodup.of_map Prod.fst ?_)
  rw [canonical_names]
  exact h

theorem mem_dropProto {kvs : List (String × Json)} {k : String} {d : Json} :
    (k, d) ∈ dropProtoFields kvs ↔ k ≠ "__proto__" ∧ ∃ v, (k, v) ∈ kvs ∧ dropProto v = d := by
  rw [dropProtoFields_eq, List.mem_map]
  constructor
  · rintro ⟨⟨k', v⟩, hmem, heq⟩
    obtain ⟨rfl, rfl⟩ := Prod.mk.inj heq
    obtain ⟨hmem, hk⟩ := List.mem_filter.mp hmem
    exact ⟨of_decide_eq_true hk, v, hmem, rfl⟩
  · rintro ⟨hk, v, hmem, rfl⟩
    exact ⟨(k, v), List.mem_filter.mpr ⟨hmem, decide_eq_true hk⟩, rfl⟩

/-- **Copies of objects are equal when their properties are**, in any order. -/
theorem canonical_obj_iff {kvs kvs' : List (String × Json)} (h : (kvs.map Prod.fst).Nodup) :
    canonicalize (.obj kvs) = canonicalize (.obj kvs') ↔ (ownCanonical kvs).Perm (ownCanonical kvs') := by
  rw [canonicalize, canonicalize]
  constructor
  · intro heq
    have horder : ownOrder (canonicalizeFields kvs) = ownOrder (canonicalizeFields kvs') := Json.obj.inj heq
    have hperm := ownOrder_perm (canonicalizeFields kvs)
    rw [horder] at hperm
    exact hperm.symm.trans (ownOrder_perm (canonicalizeFields kvs'))
  · intro hperm
    exact congrArg Json.obj (ownOrder_congr (by rw [canonical_names]; exact h) hperm)

/-- The canonical properties of two objects agree when they have the same names and every property of one
    is in the other. -/
theorem ownCanonical_perm_iff {kvs kvs' : List (String × Json)} (h : (kvs.map Prod.fst).Nodup)
    (hvalues : ∀ kv ∈ kvs, ∀ kv' ∈ kvs',
      (canonicalize kv.2 = canonicalize kv'.2 ↔ Same (dropProto kv.2) (dropProto kv'.2))) :
    (ownCanonical kvs).Perm (ownCanonical kvs') ↔ Same (dropProto (.obj kvs)) (dropProto (.obj kvs')) := by
  rw [dropProto, dropProto, Same, sameFields_iff]
  constructor
  · intro hperm
    refine ⟨?_, ?_⟩
    · rw [← ownCanonical_names, ← ownCanonical_names]
      exact hperm.map Prod.fst
    · rintro ⟨k, d⟩ hmem
      obtain ⟨hk, v, hv, rfl⟩ := mem_dropProto.mp hmem
      obtain ⟨-, v', hv', hc⟩ := mem_ownCanonical.mp (hperm.subset (mem_ownCanonical.mpr ⟨hk, v, hv, rfl⟩))
      exact ⟨dropProto v', mem_dropProto.mpr ⟨hk, v', hv', rfl⟩, (hvalues _ hv _ hv').mp hc.symm⟩
  · rintro ⟨hnames, hfields⟩
    have hsubset : ownCanonical kvs ⊆ ownCanonical kvs' := by
      rintro ⟨k, c⟩ hmem
      obtain ⟨hk, v, hv, rfl⟩ := mem_ownCanonical.mp hmem
      obtain ⟨d, hd, hsame⟩ := hfields _ (mem_dropProto.mpr ⟨hk, v, hv, rfl⟩)
      obtain ⟨-, v', hv', rfl⟩ := mem_dropProto.mp hd
      exact mem_ownCanonical.mpr ⟨hk, v', hv', ((hvalues _ hv _ hv').mpr hsame).symm⟩
    refine ((ownCanonical_nodup h).subperm hsubset).perm_of_length_le ?_
    have hlength := hnames.length_eq
    rw [← ownCanonical_names, ← ownCanonical_names, List.length_map, List.length_map] at hlength
    exact Nat.le_of_eq hlength.symm

mutual

/-- **Canonical copies are equal exactly for values that are the same up to the order of properties**, apart
    from properties named `__proto__`. -/
theorem canonicalize_eq_iff (a b : Json) (ha : Distinct a) (hb : Distinct b) :
    canonicalize a = canonicalize b ↔ Same (dropProto a) (dropProto b) := by
  match a, b with
  | .arr xs, .arr ys =>
    rw [canonicalize, canonicalize, Json.arr.injEq]
    exact canonicalizeList_eq_iff xs ys ha hb
  | .obj kvs, .obj kvs' =>
    rw [canonical_obj_iff ha.1]
    refine ownCanonical_perm_iff ha.1 ?_
    intro kv hkv kv' hkv'
    exact canonicalizeFields_eq_iff kvs kv hkv kv'.2 (distinctFields_iff.mp ha.2 kv hkv)
      (distinctFields_iff.mp hb.2 kv' hkv')
  | .null, .null => exact ⟨fun _ => trivial, fun _ => rfl⟩
  | .bool _, .bool _ => exact ⟨fun h => Json.bool.inj h, fun h => congrArg Json.bool h⟩
  | .num _, .num _ => exact ⟨fun h => Json.num.inj h, fun h => congrArg Json.num h⟩
  | .str _, .str _ => exact ⟨fun h => Json.str.inj h, fun h => congrArg Json.str h⟩
  | .null, .bool _ | .null, .num _ | .null, .str _ | .null, .arr _ | .null, .obj _
  | .bool _, .null | .bool _, .num _ | .bool _, .str _ | .bool _, .arr _ | .bool _, .obj _
  | .num _, .null | .num _, .bool _ | .num _, .str _ | .num _, .arr _ | .num _, .obj _
  | .str _, .null | .str _, .bool _ | .str _, .num _ | .str _, .arr _ | .str _, .obj _
  | .arr _, .null | .arr _, .bool _ | .arr _, .num _ | .arr _, .str _ | .arr _, .obj _
  | .obj _, .null | .obj _, .bool _ | .obj _, .num _ | .obj _, .str _ | .obj _, .arr _ =>
    exact ⟨fun h => (nomatch h), fun h => False.elim h⟩

theorem canonicalizeList_eq_iff (xs ys : List Json) (hxs : DistinctList xs) (hys : DistinctList ys) :
    canonicalizeList xs = canonicalizeList ys ↔ SameList (dropProtoList xs) (dropProtoList ys) := by
  match xs, ys with
  | [], [] => exact ⟨fun _ => trivial, fun _ => rfl⟩
  | [], _ :: _ => exact ⟨fun h => (nomatch h), fun h => False.elim h⟩
  | _ :: _, [] => exact ⟨fun h => (nomatch h), fun h => False.elim h⟩
  | x :: xs, y :: ys =>
    rw [canonicalizeList, canonicalizeList, dropProtoList, dropProtoList, SameList, List.cons.injEq,
      canonicalize_eq_iff x y hxs.1 hys.1, canonicalizeList_eq_iff xs ys hxs.2 hys.2]

theorem canonicalizeFields_eq_iff (kvs : List (String × Json)) :
    ∀ kv ∈ kvs, ∀ v', Distinct kv.2 → Distinct v' →
      (canonicalize kv.2 = canonicalize v' ↔ Same (dropProto kv.2) (dropProto v')) := by
  match kvs with
  | [] => exact fun _ h => nomatch h
  | (k, v) :: kvs =>
    intro kv hkv v' hv hv'
    rcases List.mem_cons.mp hkv with rfl | hkv
    · exact canonicalize_eq_iff v v' hv hv'
    · exact canonicalizeFields_eq_iff kvs kv hkv v' hv hv'

end

/-- **What a canonical text identifies.** -/
theorem canonicalJson_eq_iff {a b : Json} (ha : Distinct a) (hb : Distinct b) :
    canonicalJson a = canonicalJson b ↔ Same (dropProto a) (dropProto b) := by
  rw [← canonicalize_eq_iff a b ha hb]
  exact ⟨stringify_injective, congrArg stringify⟩

mutual

/-- Values that are the same are the same without `__proto__`. -/
theorem Same.dropProto (a b : Json) (h : Same a b) : Same (VibeCompiler.dropProto a) (VibeCompiler.dropProto b) := by
  match a, b with
  | .arr xs, .arr ys => exact SameList.dropProto xs ys h
  | .obj kvs, .obj kvs' =>
    obtain ⟨hnames, hfields⟩ := h
    refine ⟨?_, sameFields_iff.mpr ?_⟩
    · have hkeys : ∀ kvs : List (String × Json),
          (dropProtoFields kvs).map Prod.fst = (kvs.map Prod.fst).filter (fun k => k ≠ "__proto__") := by
        intro kvs
        rw [dropProtoFields_eq, List.map_map, List.filter_map]
        rfl
      rw [hkeys, hkeys]
      exact hnames.filter _
    · rintro ⟨k, d⟩ hmem
      obtain ⟨hk, v, hv, rfl⟩ := mem_dropProto.mp hmem
      obtain ⟨v', hv', hsame⟩ := SameFields.dropProto kvs kvs' hfields (k, v) hv
      exact ⟨_, mem_dropProto.mpr ⟨hk, v', hv', rfl⟩, hsame⟩
  | .null, .null => trivial
  | .bool _, .bool _ => exact h
  | .num _, .num _ => exact h
  | .str _, .str _ => exact h
  | .null, .bool _ | .null, .num _ | .null, .str _ | .null, .arr _ | .null, .obj _
  | .bool _, .null | .bool _, .num _ | .bool _, .str _ | .bool _, .arr _ | .bool _, .obj _
  | .num _, .null | .num _, .bool _ | .num _, .str _ | .num _, .arr _ | .num _, .obj _
  | .str _, .null | .str _, .bool _ | .str _, .num _ | .str _, .arr _ | .str _, .obj _
  | .arr _, .null | .arr _, .bool _ | .arr _, .num _ | .arr _, .str _ | .arr _, .obj _
  | .obj _, .null | .obj _, .bool _ | .obj _, .num _ | .obj _, .str _ | .obj _, .arr _ => exact h.elim

theorem SameList.dropProto (xs ys : List Json) (h : SameList xs ys) :
    SameList (dropProtoList xs) (dropProtoList ys) := by
  match xs, ys with
  | [], [] => trivial
  | [], _ :: _ => exact h.elim
  | _ :: _, [] => exact h.elim
  | x :: xs, y :: ys => exact ⟨Same.dropProto x y h.1, SameList.dropProto xs ys h.2⟩

theorem SameFields.dropProto (kvs kvs' : List (String × Json)) (h : SameFields kvs kvs') :
    ∀ kv ∈ kvs, ∃ v', (kv.1, v') ∈ kvs' ∧ Same (VibeCompiler.dropProto kv.2) (VibeCompiler.dropProto v') := by
  match kvs with
  | [] => exact fun _ h => nomatch h
  | (k, v) :: kvs =>
    intro kv hkv
    rcases List.mem_cons.mp hkv with rfl | hkv
    · obtain ⟨v', hv', hsame⟩ := h.1
      exact ⟨v', hv', Same.dropProto v v' hsame⟩
    · exact SameFields.dropProto kvs kvs' h.2 kv hkv

end

end VibeCompiler
