import VibeWorkflow.SoloProofs
import Mathlib.Data.List.Induction
import Mathlib.Tactic.ByContra

/-!
# The schema of a database

The control store and the Node's journal each bring the schema of their file up to date when they are opened:
they read which migrations the file has had and run the others, each in a transaction with its row.  Several
processes may open one file at the same time, a statement may fail, and any of them may end in between.

* `runMigrations`, `runJournalMigrations` — the two, by one program;
* `AtPrefix` — a file that has had the first migrations, each once and in order;
* `AtPrefix.change` — one operation; `applyFrom_safe`, `migrate_safe` — one opening;
* `migrate_can` — an opening of which nothing fails;
* **`migrations_once`** — in every run.
-/

namespace VibeSchema

open AsyncLogic

/-! ## The file -/

/-- A value of the version column. -/
inductive Cell where
  | integer (n : Int)
  | other
deriving DecidableEq

/-- The schema, and the rows of `schema_migrations` once there is such a table. -/
structure Db (σ : Type) where
  schema : σ
  rows : Option (List Cell)

def Db.applied {σ : Type} (w : Db σ) : List Cell := w.rows.getD []

inductive Fault where
  | sqlite (message : String)
  | store (code message : String)
deriving DecidableEq

inductive Op where
  | createTable
  | hasTable
  | selectVersions
  | apply (version : Nat)

abbrev Ans : Op → Type
  | .createTable => Unit
  | .hasTable => Bool
  | .selectVersions => List Cell
  | .apply _ => Unit

def sig : Sig where
  Op := Op
  Ans := Ans
  Err := Fault
  Flags := Unit
  Label := Empty
  Ret := fun l => nomatch l

/-- A statement runs, or fails on its own: a lock, the disk, a table that is there. -/
inductive Input where
  | run
  | fail (message : String)

/-- Migrations by their versions, and what each does to the schema. -/
structure Migrations (σ : Type) where
  versions : List Nat
  sql : Nat → σ → σ
  unreadable : String
  malformed : String
  newer : Int → Nat → String
  increasing : versions.Pairwise (· < ·)
  positive : ∀ v ∈ versions, 0 < v

section

variable {σ : Type} (m : Migrations σ)

def Migrations.latest : Nat := m.versions.getLastD 0

/-- A transaction of a migration and its row.  Of one that the file has had, its statements or its row fail, and
    the transaction is undone. -/
def applyMigration (version : Nat) (w : Db σ) : Except Fault Unit × Db σ :=
  match w.rows with
  | none => (.error (.sqlite "no such table: schema_migrations"), w)
  | some rows =>
    if Cell.integer version ∈ rows then (.error (.sqlite "UNIQUE constraint failed: schema_migrations.version"), w)
    else (.ok (), ⟨m.sql version w.schema, some (rows ++ [.integer version])⟩)

def exec (op : Op) (w : Db σ) (inp : Input) : Option (Except Fault (Ans op) × Db σ) :=
  match inp with
  | .fail message => some (.error (.sqlite message), w)
  | .run =>
    match op with
    | .createTable => some (.ok (), { w with rows := some w.applied })
    | .hasTable => some (.ok w.rows.isSome, w)
    | .selectVersions =>
      match w.rows with
      | none => some (.error (.sqlite "no such table: schema_migrations"), w)
      | some rows => some (.ok rows, w)
    | .apply version => some (applyMigration m version w)

/-! ## An opening -/

abbrev Call (α : Type) := Js sig α

def call (op : Op) : Call (Ans op) := Js.await (S := sig) op

def fail {α : Type} (e : Fault) : Call α := MonadExcept.throw e

/-- The greatest version, if every one is a positive integer. -/
def maxVersion (rows : List Cell) : Option Int :=
  rows.foldlM (fun max c => match c with
    | .integer n => if n < 1 then none else some (if max < n then n else max)
    | .other => none) 0

/-- `readCurrentVersion`. -/
def readCurrentVersion : Call Int := do
  let has : Bool ← call .hasTable
  if has then do
    let rows : List Cell ← MonadExcept.tryCatch (call .selectVersions) fun _ => fail (.store "corruption" m.unreadable)
    match maxVersion rows with
    | none => fail (.store "corruption" m.malformed)
    | some max => pure max
  else pure 0

def applyFrom (current : Int) : List Nat → Call Unit
  | [] => pure ()
  | v :: vs =>
    if v ≤ current then applyFrom current vs
    else do
      let _ : Unit ← call (.apply v)
      applyFrom current vs

def migrate : Call Nat := do
  let _ : Unit ← call .createTable
  let current ← readCurrentVersion m
  if m.latest < current then fail (.store "unsupported_schema_version" (m.newer current m.latest))
  else do
    applyFrom current m.versions
    pure m.latest

end

/-- The migrations of the control store. -/
def controlMigrations {σ : Type} (sql : Nat → σ → σ) : Migrations σ where
  versions := [1, 2, 3, 4, 5, 6, 7, 8, 9, 10, 11, 12, 13, 14, 15, 16]
  sql := sql
  unreadable := "schema_migrations table is unreadable"
  malformed := "schema_migrations contains a malformed version"
  newer current latest := "database schema version " ++ toString current ++ " is newer than supported " ++ toString latest
  increasing := by decide
  positive := by decide

/-- The migrations of the journal. -/
def journalMigrations {σ : Type} (sql : Nat → σ → σ) : Migrations σ where
  versions := [1, 2, 3, 4, 5]
  sql := sql
  unreadable := "schema_migrations unreadable"
  malformed := "malformed schema version"
  newer current latest := "journal schema " ++ toString current ++ " is newer than supported " ++ toString latest
  increasing := by decide
  positive := by decide

def runMigrations {σ : Type} (sql : Nat → σ → σ) : Call Nat := migrate (controlMigrations sql)

def runJournalMigrations {σ : Type} (sql : Nat → σ → σ) : Call Nat := migrate (journalMigrations sql)

/-- The processes that open a file. -/
def openers {σ : Type} (m : Migrations σ) : Pool sig (Db σ) where
  Call := Unit
  Res := Nat
  Input := Input
  Move := Empty
  exec := exec m
  move := fun _ e => nomatch e
  flags := fun _ => ()
  program := fun _ => migrate m

/-! ## The invariant -/

section

variable {σ : Type} {m : Migrations σ} {initial : σ} {w w' : Db σ}

/-- The file has had the first `k` migrations, each once and in order. -/
def HasHad (m : Migrations σ) (initial : σ) (k : Nat) (w : Db σ) : Prop :=
  w.applied = (m.versions.take k).map (fun v : Nat => Cell.integer v) ∧
    w.schema = (m.versions.take k).foldl (fun s v => m.sql v s) initial

def AtPrefix (m : Migrations σ) (initial : σ) (w : Db σ) : Prop := ∃ k, HasHad m initial k w

theorem applied_eq {rows : List Cell} (h : w.rows = some rows) : w.applied = rows := by
  rw [Db.applied, h]
  rfl

/-- The migrations that a file has had stay. -/
structure Grows (w w' : Db σ) : Prop where
  table : w.rows.isSome = true → w'.rows.isSome = true
  rows : w.applied <+: w'.applied

theorem Grows.refl (w : Db σ) : Grows w w := ⟨id, List.prefix_refl _⟩

theorem Grows.trans {a b c : Db σ} (h : Grows a b) (h' : Grows b c) : Grows a c :=
  ⟨fun ht => h'.table (h.table ht), h.rows.trans h'.rows⟩

theorem mem_applied_iff {k : Nat} (h : HasHad m initial k w) {v : Nat} :
    Cell.integer v ∈ w.applied ↔ v ∈ m.versions.take k := by
  rw [h.1, List.mem_map]
  constructor
  · rintro ⟨u, hu, heq⟩
    obtain rfl : u = v := Int.ofNat.inj (Cell.integer.inj heq)
    exact hu
  · exact fun hv => ⟨v, hv, rfl⟩

/-- Of increasing numbers, a first part that holds all below one of them ends there or holds it. -/
theorem take_next {l : List Nat} (hl : l.Pairwise (· < ·)) {v k : Nat} (hv : v ∈ l)
    (hbelow : ∀ u ∈ l, u < v → u ∈ l.take k) (hnew : v ∉ l.take k) : l[k]? = some v ∧ k < l.length := by
  obtain ⟨i, hi, rfl⟩ := List.getElem_of_mem hv
  have hki : k ≤ i := by
    by_contra hlt
    exact hnew (List.mem_take_iff_getElem.mpr ⟨i, by omega, rfl⟩)
  rcases Nat.lt_or_eq_of_le hki with hlt | rfl
  · -- the number at `k` is below, and not in the first part
    obtain ⟨j, hj, hsame⟩ := List.mem_take_iff_getElem.mp
      (hbelow l[k] (List.getElem_mem (by omega)) (List.pairwise_iff_getElem.mp hl k i (by omega) hi hlt))
    have hless := List.pairwise_iff_getElem.mp hl j k (by omega) (by omega) (by omega)
    omega
  · exact ⟨List.getElem?_eq_getElem hi, hi⟩

/-- A first part of increasing numbers holds all below one of its own. -/
theorem mem_take_of_le {l : List Nat} (hl : l.Pairwise (· < ·)) {u v k : Nat} (hu : u ∈ l) (hv : v ∈ l.take k)
    (hle : u ≤ v) : u ∈ l.take k := by
  obtain ⟨i, hi, rfl⟩ := List.getElem_of_mem hu
  obtain ⟨j, hj, rfl⟩ := List.mem_take_iff_getElem.mp hv
  refine List.mem_take_iff_getElem.mpr ⟨i, ?_, rfl⟩
  by_contra hge
  have hless := List.pairwise_iff_getElem.mp hl j i (by omega) hi (by omega)
  omega

/-- What an opening may name: a migration that comes after all it has seen done. -/
def SchemaPre (m : Migrations σ) : Op → Db σ → Prop
  | .apply v, w => v ∈ m.versions ∧ ∀ u ∈ m.versions, u < v → Cell.integer u ∈ w.applied
  | _, _ => True

/-- What an operation can do to the file. -/
inductive Change (m : Migrations σ) (w : Db σ) : Op → Db σ → Prop
  | same {op : Op} : Change m w op w
  | table : Change m w .createTable { w with rows := some w.applied }
  | apply {v : Nat} {rows : List Cell} (table : w.rows = some rows) (fresh : Cell.integer v ∉ rows) :
      Change m w (.apply v) ⟨m.sql v w.schema, some (rows ++ [.integer v])⟩

theorem applyMigration_cases (v : Nat) (w : Db σ) :
    (∃ e, applyMigration m v w = (.error e, w)) ∨ ∃ rows, w.rows = some rows ∧ Cell.integer v ∉ rows ∧
      applyMigration m v w = (.ok (), ⟨m.sql v w.schema, some (rows ++ [.integer v])⟩) := by
  unfold applyMigration
  split
  · exact .inl ⟨_, rfl⟩
  · rename_i rows hrows
    split
    · exact .inl ⟨_, rfl⟩
    · exact .inr ⟨rows, hrows, ‹_›, rfl⟩

theorem exec_change {op : Op} {inp : Input} {r : Except Fault (Ans op)} (h : exec m op w inp = some (r, w')) :
    Change m w op w' := by
  cases inp with
  | fail message =>
    obtain ⟨-, rfl⟩ := Prod.mk.inj (Option.some.inj h)
    exact .same
  | run =>
    cases op with
    | createTable =>
      obtain ⟨-, rfl⟩ := Prod.mk.inj (Option.some.inj h)
      exact .table
    | hasTable =>
      obtain ⟨-, rfl⟩ := Prod.mk.inj (Option.some.inj h)
      exact .same
    | selectVersions =>
      simp only [exec] at h
      split at h
      · obtain ⟨-, rfl⟩ := Prod.mk.inj (Option.some.inj h)
        exact .same
      · obtain ⟨-, rfl⟩ := Prod.mk.inj (Option.some.inj h)
        exact .same
    | apply v =>
      have h : applyMigration m v w = (r, w') := Option.some.inj h
      rcases applyMigration_cases (m := m) v w with ⟨e, he⟩ | ⟨rows, hrows, hfresh, hok⟩
      · obtain ⟨-, rfl⟩ := Prod.mk.inj (he.symm.trans h)
        exact .same
      · obtain ⟨-, rfl⟩ := Prod.mk.inj (hok.symm.trans h)
        exact .apply hrows hfresh

theorem Change.grows {op : Op} (h : Change m w op w') : Grows w w' := by
  cases h with
  | same => exact .refl w
  | table => exact ⟨fun _ => rfl, List.prefix_refl _⟩
  | apply table fresh =>
    refine ⟨fun _ => rfl, ?_⟩
    rw [Db.applied, table]
    exact List.prefix_append _ _

/-- A migration that is run is the next one. -/
theorem Change.next {k v : Nat} {rows : List Cell} (h : HasHad m initial k w) (hpre : SchemaPre m (.apply v) w)
    (table : w.rows = some rows) (fresh : Cell.integer v ∉ rows) :
    m.versions[k]? = some v ∧ k < m.versions.length ∧
      HasHad m initial (k + 1) ⟨m.sql v w.schema, some (rows ++ [.integer v])⟩ := by
  have happlied := applied_eq table
  obtain ⟨hget, hlt⟩ := take_next m.increasing hpre.1 (fun u hu huv => (mem_applied_iff h).mp (hpre.2 u hu huv))
    fun hmem => fresh (happlied ▸ (mem_applied_iff h).mpr hmem)
  have htake : m.versions.take (k + 1) = m.versions.take k ++ [v] := by
    rw [List.take_add_one, hget]
    rfl
  refine ⟨hget, hlt, ?_, ?_⟩
  · show rows ++ [Cell.integer v] = _
    rw [htake, List.map_append, ← h.1, happlied]
    rfl
  · show m.sql v w.schema = _
    rw [htake, List.foldl_append, h.2]
    rfl

/-- **Operations keep the file at a first part of the migrations.** -/
theorem AtPrefix.change {op : Op} (h : AtPrefix m initial w) (hpre : SchemaPre m op w) (hc : Change m w op w') :
    AtPrefix m initial w' := by
  obtain ⟨k, hk⟩ := h
  cases hc with
  | same => exact ⟨k, hk⟩
  | table => exact ⟨k, hk⟩
  | apply table fresh => exact ⟨k + 1, (Change.next hk hpre table fresh).2.2⟩

/-- What an operation that returns has found or done. -/
def Returned (w : Db σ) : (op : Op) → Ans op → Db σ → Prop
  | .createTable, _, w' => w'.rows.isSome = true
  | .hasTable, has, w' => has = w.rows.isSome ∧ w' = w
  | .selectVersions, rows, w' => w.rows = some rows ∧ w' = w
  | .apply v, _, w' => Cell.integer v ∈ w'.applied

theorem exec_returned {op : Op} {inp : Input} {a : Ans op} (h : exec m op w inp = some (.ok a, w')) :
    Returned w op a w' := by
  cases inp with
  | fail message => exact nomatch (Prod.mk.inj (Option.some.inj h)).1
  | run =>
    cases op with
    | createTable =>
      obtain ⟨-, rfl⟩ := Prod.mk.inj (Option.some.inj h)
      exact rfl
    | hasTable =>
      obtain ⟨hok, rfl⟩ := Prod.mk.inj (Option.some.inj h)
      exact ⟨(Except.ok.inj hok).symm, rfl⟩
    | selectVersions =>
      simp only [exec] at h
      split at h
      · exact nomatch (Prod.mk.inj (Option.some.inj h)).1
      · rename_i rows hrows
        obtain ⟨hok, rfl⟩ := Prod.mk.inj (Option.some.inj h)
        exact ⟨Except.ok.inj hok ▸ hrows, rfl⟩
    | apply v =>
      have h : applyMigration m v w = (.ok a, w') := Option.some.inj h
      rcases applyMigration_cases (m := m) v w with ⟨e, he⟩ | ⟨rows, -, -, hok⟩
      · exact nomatch (Prod.mk.inj (he.symm.trans h)).1
      · obtain ⟨-, rfl⟩ := Prod.mk.inj (hok.symm.trans h)
        exact List.mem_append_right _ (List.mem_singleton_self _)

/-- Openers that keep `I`, and what the file has had. -/
def fileGround (m : Migrations σ) (I : Db σ → Prop) : Ground sig (Db σ) where
  inv := I
  rely := Grows
  rely_refl := Grows.refl
  rely_trans := Grows.trans
  exec op w r w' := ∃ inp, exec m op w inp = some (r, w')
  flags _ := ()

/-- Awaiting an operation. -/
theorem call_safe {I : Db σ → Prop} {pre : Op → Db σ → Prop} (op : Op) {P : Db σ → Prop} {Q : Ans op → Db σ → Prop}
    (hpre : ∀ w, I w → P w → pre op w) (hpost : ∀ w a w', I w → P w → Grows w w' → Returned w op a w' → Q a w')
    (hQ : ∀ a w w', Q a w → Grows w w' → Q a w') :
    Safe ((fileGround m I).contract pre) P (call op) Q (fun _ _ => True) := by
  refine Ground.await (G := fileGround m I) hpre ?_ ?_
  · rintro w r w' hinv hP ⟨inp, hexec⟩
    cases r with
    | ok a => exact hpost w a w' hinv hP (exec_change hexec).grows (exec_returned hexec)
    | error e => trivial
  · intro r w w' h hg _
    cases r with
    | ok a => exact hQ a w w' h hg
    | error e => trivial

abbrev opening (m : Migrations σ) (initial : σ) : Contract sig (Db σ) :=
  (fileGround m (AtPrefix m initial)).contract (SchemaPre m)

/-! ## One opening -/

/-- What is done of a list of migrations. -/
def Done (vs : List Nat) (w : Db σ) : Prop := ∀ v ∈ vs, Cell.integer v ∈ w.applied

theorem Done.grows {vs : List Nat} (h : Done vs w) (hg : Grows w w') : Done vs w' :=
  fun v hv => hg.rows.subset (h v hv)

theorem maxVersion_mem {rows : List Cell} {max : Int} (h : maxVersion rows = some max) :
    max = 0 ∨ Cell.integer max ∈ rows := by
  induction rows using List.reverseRecOn generalizing max with
  | nil => exact .inl (Option.some.inj h).symm
  | append_singleton rows c ih =>
    rw [maxVersion, List.foldlM_append] at h
    obtain ⟨before, hbefore, hlast⟩ := Option.bind_eq_some_iff.mp h
    rw [List.foldlM_cons] at hlast
    obtain ⟨next, hnext, hmax⟩ := Option.bind_eq_some_iff.mp hlast
    obtain rfl : next = max := Option.some.inj hmax
    cases c with
    | other => exact nomatch hnext
    | integer n =>
      simp only at hnext
      split at hnext
      · exact nomatch hnext
      · obtain rfl := Option.some.inj hnext
        split
        · exact .inr (List.mem_append_right _ (List.mem_singleton_self _))
        · rcases ih hbefore with hzero | hmem
          · exact .inl hzero
          · exact .inr (List.mem_append_left _ hmem)

/-- What a file says it has had, it has had. -/
theorem current_done {k : Nat} (h : HasHad m initial k w) {max : Int} (hmax : maxVersion w.applied = some max) :
    Done (m.versions.filter fun v => decide ((v : Int) ≤ max)) w := by
  intro v hv
  obtain ⟨hmem, hdec⟩ := List.mem_filter.mp hv
  have hle : (v : Int) ≤ max := of_decide_eq_true hdec
  rcases maxVersion_mem hmax with rfl | hlast
  · have hpos := m.positive v hmem
    omega
  · rw [h.1, List.mem_map] at hlast
    obtain ⟨u, hu, heq⟩ := hlast
    obtain rfl := Cell.integer.inj heq
    exact (mem_applied_iff h).mpr (mem_take_of_le m.increasing hmem hu (Int.ofNat_le.mp hle))

/-- **The rest of the migrations**: each one is run after all before it. -/
theorem applyFrom_safe {current : Int} {done rest : List Nat} (hversions : m.versions = done ++ rest) :
    Safe (opening m initial)
      (fun w => w.rows.isSome = true ∧ Done done w ∧ Done (m.versions.filter fun v => decide ((v : Int) ≤ current)) w)
      (applyFrom current rest) (fun _ => Done m.versions) (fun _ _ => True) := by
  induction rest generalizing done with
  | nil =>
    refine safe_pure fun w _ h => ?_
    rw [hversions, List.append_nil]
    exact h.2.1
  | cons v rest ih =>
    have hmem : v ∈ m.versions := hversions ▸ List.mem_append_right _ List.mem_cons_self
    have hnext : ∀ w : Db σ, Done done w → Cell.integer v ∈ w.applied → Done (done ++ [v]) w := by
      intro w hdone hv u hu
      rcases List.mem_append.mp hu with hu | hu
      · exact hdone u hu
      · exact List.mem_singleton.mp hu ▸ hv
    have ih := ih (show m.versions = done ++ [v] ++ rest from by rw [hversions, List.append_assoc]; rfl)
    refine safe_ite (fun hle => ih.pre fun w _ h => ⟨h.1, hnext w h.2.1 ?_, h.2.2⟩) fun _ => ?_
    · exact h.2.2 v (List.mem_filter.mpr ⟨hmem, decide_eq_true hle⟩)
    · refine safe_bind (call_safe (.apply v) ?_ ?_ ?_) fun _ => ih
      · rintro w - ⟨-, hdone, -⟩
        refine ⟨hmem, fun u hu huv => hdone u ?_⟩
        -- whatever is smaller stands before it
        rw [hversions] at hu
        rcases List.mem_append.mp hu with hu | hu
        · exact hu
        · have hsorted := (List.pairwise_append.mp (hversions ▸ m.increasing)).2.1
          rcases List.mem_cons.mp hu with rfl | hu
          · exact absurd huv (Nat.lt_irrefl u)
          · exact absurd (List.rel_of_pairwise_cons hsorted hu) (Nat.not_lt.mpr (Nat.le_of_lt huv))
      · exact fun w _ w' _ h hg hv => ⟨hg.table h.1, hnext w' (h.2.1.grows hg) hv, h.2.2.grows hg⟩
      · exact fun _ w w' h hg => ⟨hg.table h.1, h.2.1.grows hg, h.2.2.grows hg⟩

/-- The version that is read. -/
theorem readCurrentVersion_safe :
    Safe (opening m initial) (fun w => w.rows.isSome = true) (readCurrentVersion m)
      (fun current w => w.rows.isSome = true ∧ Done (m.versions.filter fun v => decide ((v : Int) ≤ current)) w)
      (fun _ _ => True) := by
  refine safe_bind (Q := fun has w => w.rows.isSome = true ∧ has = true)
    (call_safe .hasTable (fun _ _ _ => trivial) ?_ fun _ w w' h hg => ⟨hg.table h.1, h.2⟩) fun has => ?_
  · rintro w has w' - hsome - ⟨rfl, rfl⟩
    exact ⟨hsome, hsome⟩
  · refine safe_ite (fun _ => ?_) fun hno => safe_lift (φ := False) (fun _ _ h => hno h.2) fun h => h.elim
    refine safe_bind (Q := fun rows w => w.rows.isSome = true ∧
      ∀ max, maxVersion rows = some max → Done (m.versions.filter fun v => decide ((v : Int) ≤ max)) w)
        ?_ fun rows => ?_
    · refine safe_catch (F := fun _ _ => True) (call_safe .selectVersions (fun _ _ _ => trivial) ?_ ?_)
        fun _ => safe_throw fun _ _ _ => trivial
      · rintro w rows w' ⟨k, hk⟩ ⟨hsome, -⟩ - ⟨hrows, rfl⟩
        exact ⟨hsome, fun max hmax => current_done hk (applied_eq hrows ▸ hmax)⟩
      · exact fun _ w w' h hg => ⟨hg.table h.1, fun max hmax => (h.2 max hmax).grows hg⟩
    · show Safe _ _ (match maxVersion rows with | none => _ | some max => _) _ _
      split
      · exact safe_throw fun _ _ _ => trivial
      · rename_i max hmax
        exact safe_pure fun w _ h => ⟨h.1, h.2 max hmax⟩

/-- **One opening.** -/
theorem migrate_safe : Safe (opening m initial) (fun _ => True) (migrate m)
    (fun latest w => latest = m.latest ∧ Done m.versions w) (fun _ _ => True) := by
  refine safe_bind (Q := fun _ w => w.rows.isSome = true)
    (call_safe .createTable (fun _ _ _ => trivial) ?_ fun _ w w' h hg => hg.table h) fun _ => ?_
  · exact fun _ _ _ _ _ _ h => h
  refine safe_bind readCurrentVersion_safe fun current => ?_
  refine safe_ite (fun _ => safe_throw fun _ _ _ => trivial) fun _ => ?_
  refine safe_bind ((applyFrom_safe (show m.versions = [] ++ m.versions from rfl)).pre fun w _ h =>
    ⟨h.1, fun v hv => (nomatch hv), h.2⟩) fun _ => ?_
  exact safe_pure fun _ _ h => ⟨rfl, h⟩

/-! ## An opening of which nothing fails -/

theorem can_run {op : Op} {r : Except Fault (Ans op)} (h : exec m op w .run = some (r, w')) :
    (openers m).Can (call op) w r w' := by
  have hexec : (openers m).exec op w Input.run = some (r, w') := h
  exact Pool.can_await hexec

theorem maxVersion_bound {rows : List Cell} (h : ∀ c ∈ rows, ∃ n, c = .integer n ∧ 1 ≤ n) :
    ∃ max, maxVersion rows = some max ∧ ∀ n, Cell.integer n ∈ rows → n ≤ max := by
  induction rows using List.reverseRecOn with
  | nil => exact ⟨0, rfl, fun n hn => (nomatch hn)⟩
  | append_singleton rows c ih =>
    obtain ⟨before, hbefore, hbound⟩ := ih fun c hc => h c (List.mem_append_left _ hc)
    obtain ⟨n, rfl, hpos⟩ := h c (List.mem_append_right _ (List.mem_singleton_self c))
    refine ⟨if before < n then n else before, ?_, ?_⟩
    · have hfold : maxVersion (rows ++ [.integer n]) = (maxVersion rows).bind fun max =>
          (if n < 1 then none else some (if max < n then n else max)).bind some := List.foldlM_append
      rw [hfold, hbefore, Option.bind_some, if_neg (by omega)]
      rfl
    · intro u hu
      rcases List.mem_append.mp hu with hu | hu
      · have hle := hbound u hu
        split <;> omega
      · obtain rfl := Cell.integer.inj (List.mem_singleton.mp hu)
        split <;> omega

theorem le_latest {v : Nat} (hv : v ∈ m.versions) : v ≤ m.latest := by
  obtain ⟨i, hi, rfl⟩ := List.getElem_of_mem hv
  have hlast : m.latest = m.versions[m.versions.length - 1] := by
    rw [Migrations.latest, List.getLastD_eq_getLast?, List.getLast?_eq_getElem?, List.getElem?_eq_getElem (by omega)]
    rfl
  rw [hlast]
  rcases Nat.lt_or_ge i (m.versions.length - 1) with hlt | hge
  · exact Nat.le_of_lt (List.pairwise_iff_getElem.mp m.increasing _ _ _ _ hlt)
  · have hsame : i = m.versions.length - 1 := by omega
    exact Nat.le_of_eq (congrArg (fun j : Fin m.versions.length => m.versions[j])
      (Fin.ext hsame : (⟨i, hi⟩ : Fin _) = ⟨_, by omega⟩))

theorem HasHad.all {k : Nat} (h : HasHad m initial k w) (hk : m.versions.length ≤ k) :
    HasHad m initial m.versions.length w := by
  rw [HasHad, List.take_of_length_le hk] at h
  rw [HasHad, List.take_length]
  exact h

/-- What is left is run, one migration after another. -/
theorem can_apply {current : Int} {first : Nat} (hcurrent : ∀ v ∈ m.versions, (v : Int) ≤ current ↔
    v ∈ m.versions.take first)
    {i : Nat} {rest : List Nat} (hrest : m.versions.drop i = rest) (hk : HasHad m initial (max i first) w)
    (htable : w.rows.isSome = true) :
    ∃ w', (openers m).Can (applyFrom current rest) w (.ok ()) w' ∧ HasHad m initial m.versions.length w' := by
  induction rest generalizing i w with
  | nil =>
    have hlength := List.drop_eq_nil_iff.mp hrest
    exact ⟨w, Pool.can_pure, hk.all (by omega)⟩
  | cons v rest ih =>
    have hlt : i < m.versions.length := by
      by_contra hge
      rw [List.drop_eq_nil_of_le (by omega)] at hrest
      exact nomatch hrest
    rw [List.drop_eq_getElem_cons hlt] at hrest
    obtain ⟨rfl, hdrop⟩ := List.cons.inj hrest
    have hmem : m.versions[i] ∈ m.versions := List.getElem_mem hlt
    have hplace : ∀ j, m.versions[i] ∈ m.versions.take j ↔ i < j := by
      intro j
      rw [List.mem_take_iff_getElem]
      constructor
      · rintro ⟨n, hn, heq⟩
        rcases Nat.lt_trichotomy n i with hless | rfl | hless
        · have hne := List.pairwise_iff_getElem.mp m.increasing n i (by omega) hlt hless
          omega
        · omega
        · have hne := List.pairwise_iff_getElem.mp m.increasing i n hlt (by omega) hless
          omega
      · exact fun hij => ⟨i, by omega, rfl⟩
    by_cases hle : (m.versions[i] : Int) ≤ current
    · have hfirst := (hplace first).mp ((hcurrent _ hmem).mp hle)
      obtain ⟨w', hcan, hall⟩ := ih hdrop (by rw [show max (i + 1) first = max i first by omega]; exact hk) htable
      refine ⟨w', ?_, hall⟩
      rw [applyFrom, if_pos hle]
      exact hcan
    · have hfirst : first ≤ i := by
        by_contra hlt'
        exact hle ((hcurrent _ hmem).mpr ((hplace first).mpr (by omega)))
      rw [Nat.max_eq_left hfirst] at hk
      obtain ⟨rows, hrows⟩ := Option.isSome_iff_exists.mp htable
      have happlied := applied_eq hrows
      have hfresh : Cell.integer m.versions[i] ∉ rows := by
        rw [← happlied, mem_applied_iff hk, hplace]
        exact Nat.lt_irrefl i
      have hpre : SchemaPre m (.apply m.versions[i]) w := by
        refine ⟨hmem, fun u hu hless => (mem_applied_iff hk).mpr ?_⟩
        obtain ⟨j, hj, rfl⟩ := List.getElem_of_mem hu
        refine List.mem_take_iff_getElem.mpr ⟨j, ?_, rfl⟩
        by_contra hge
        rcases Nat.lt_or_eq_of_le (show i ≤ j by omega) with hij | rfl
        · have hmore := List.pairwise_iff_getElem.mp m.increasing i j hlt hj hij
          omega
        · omega
      obtain ⟨-, -, hnext⟩ := Change.next hk hpre hrows hfresh
      obtain ⟨w', hcan, hall⟩ := ih hdrop (by rw [Nat.max_eq_left (by omega)]; exact hnext) rfl
      refine ⟨w', ?_, hall⟩
      rw [applyFrom, if_neg hle]
      have hexec : exec m (.apply m.versions[i]) w .run =
          some (.ok (), ⟨m.sql m.versions[i] w.schema, some (rows ++ [.integer m.versions[i]])⟩) := by
        rw [exec, applyMigration, hrows]
        simp only [if_neg hfresh]
      exact Pool.can_bind (can_run hexec) hcan

/-- **An opening of which nothing fails** brings the file up to date. -/
theorem migrate_can (h : AtPrefix m initial w) :
    ∃ w', (openers m).Can (migrate m) w (.ok m.latest) w' ∧ HasHad m initial m.versions.length w' := by
  obtain ⟨k, hk⟩ := h
  have hopened : HasHad m initial (max 0 k) { w with rows := some w.applied } := by
    rw [Nat.zero_max]
    exact hk
  obtain ⟨max, hmax, hbound⟩ : ∃ max, maxVersion w.applied = some max ∧ ∀ n, Cell.integer n ∈ w.applied → n ≤ max := by
    refine maxVersion_bound fun c hc => ?_
    rw [hk.1] at hc
    obtain ⟨v, hv, rfl⟩ := List.mem_map.mp hc
    have hpos := m.positive v (List.mem_of_mem_take hv)
    exact ⟨v, rfl, by omega⟩
  have hcurrent : ∀ v ∈ m.versions, (v : Int) ≤ max ↔ v ∈ m.versions.take k := by
    intro v hv
    rw [← mem_applied_iff hk]
    exact ⟨fun hle => current_done hk hmax v (List.mem_filter.mpr ⟨hv, decide_eq_true hle⟩), fun hmem => hbound v hmem⟩
  have hsupported : ¬ (m.latest : Int) < max := by
    rcases maxVersion_mem hmax with rfl | hmem
    · omega
    · rw [hk.1, List.mem_map] at hmem
      obtain ⟨v, hv, heq⟩ := hmem
      obtain rfl := Cell.integer.inj heq
      have hle := le_latest (List.mem_of_mem_take hv)
      show ¬ (m.latest : Int) < (v : Int)
      omega
  obtain ⟨w', hcan, hall⟩ := can_apply hcurrent (List.drop_zero (l := m.versions)) hopened rfl
  have hcreate : exec m .createTable w .run = some (.ok (), { w with rows := some w.applied }) := rfl
  have hhas : exec m .hasTable { w with rows := some w.applied } .run =
    some (.ok true, { w with rows := some w.applied }) := rfl
  have hselect : exec m .selectVersions { w with rows := some w.applied } .run =
      some (.ok w.applied, { w with rows := some w.applied }) := rfl
  have hread : (openers m).Can (readCurrentVersion m) { w with rows := some w.applied } (.ok max)
      { w with rows := some w.applied } := by
    refine Pool.can_bind (can_run hhas) (Pool.can_bind (Pool.can_catch_ok (can_run hselect)) ?_)
    show (openers m).Can (match maxVersion w.applied with | none => _ | some max => _) _ _ _
    rw [hmax]
    exact Pool.can_pure
  refine ⟨w', Pool.can_bind (can_run hcreate) (Pool.can_bind hread ?_), hall⟩
  rw [if_neg hsupported]
  exact Pool.can_bind hcan Pool.can_pure

/-! ## Runs -/

theorem schema_fits :
    Pool.Fits (openers m) (fun _ _ => True) (fileGround m (AtPrefix m initial)) (fun _ => SchemaPre m)
      (fun _ latest w => latest = m.latest ∧ Done m.versions w) (fun _ _ _ => True) where
  flags _ := rfl
  exec _ _ _ inp _ _ hinv _ hpre hexec :=
    ⟨⟨inp, hexec⟩, hinv.change hpre (exec_change hexec), (exec_change hexec).grows⟩
  move _ e := nomatch e
  call _ _ _ _ := migrate_safe

/-- A file that has had every migration, at whatever first part it is. -/
theorem Done.all (hdone : Done m.versions w) (h : AtPrefix m initial w) : HasHad m initial m.versions.length w := by
  obtain ⟨k, hk⟩ := h
  refine hk.all ?_
  by_contra hlt
  have hk' : k < m.versions.length := by omega
  obtain ⟨j, hj, hsame⟩ := List.mem_take_iff_getElem.mp
    ((mem_applied_iff hk).mp (hdone m.versions[k] (List.getElem_mem hk')))
  have hless := List.pairwise_iff_getElem.mp m.increasing j k (by omega) hk' (by omega)
  omega

theorem HasHad.length {k : Nat} (h : HasHad m initial k w) (hk : k ≤ m.versions.length) : w.applied.length = k := by
  rw [h.1, List.length_map, List.length_take, Nat.min_eq_left hk]

/-- What holds of a file that any number of processes open. -/
structure Migrated (m : Migrations σ) (initial : σ) (s : (openers m).State) : Prop where
  ordered : AtPrefix m initial s.w
  returned : ∀ fl latest, ⟨(), .ret (.ok latest, fl)⟩ ∈ s.serving → latest = m.latest ∧
    HasHad m initial m.versions.length s.w
  stepped : ∀ a e s', (openers m).step s a = some (e, s') →
    (s'.w.applied = s.w.applied ∧ s'.w.schema = s.w.schema) ∨
      ∃ v, m.versions[s.w.applied.length]? = some v ∧ s'.w = ⟨m.sql v s.w.schema, some (s.w.applied ++ [.integer v])⟩
  recovers : ∃ as s' fl, Pool.runWhile (openers m) (fun _ _ => true) s as = some s' ∧
    s'.serving = [⟨(), .ret (.ok m.latest, fl)⟩] ∧ HasHad m initial m.versions.length s'.w

/-- One operation leaves what the file has had, or runs the next migration. -/
theorem Change.stepped {op : Op} (h : AtPrefix m initial w) (hpre : SchemaPre m op w) (hc : Change m w op w') :
    (w'.applied = w.applied ∧ w'.schema = w.schema) ∨
      ∃ v, m.versions[w.applied.length]? = some v ∧ w' = ⟨m.sql v w.schema, some (w.applied ++ [.integer v])⟩ := by
  obtain ⟨k, hk⟩ := h
  cases hc with
  | same => exact .inl ⟨rfl, rfl⟩
  | table => exact .inl ⟨rfl, rfl⟩
  | @apply v rows table fresh =>
    obtain ⟨hget, hlt, -⟩ := Change.next hk hpre table fresh
    have happlied := applied_eq table
    refine .inr ⟨v, ?_, ?_⟩
    · rw [hk.length (Nat.le_of_lt hlt)]
      exact hget
    · rw [happlied]

/-- An opening that returned has found every migration done. -/
theorem returned_all {w₀ : Db σ} (hfile : AtPrefix m initial w₀) {s : (openers m).State}
    (h : (openers m).Reach (fun _ _ => True) w₀ s) {latest : Nat} {fl : Unit}
    (hret : ⟨(), .ret (.ok latest, fl)⟩ ∈ s.serving) :
    latest = m.latest ∧ HasHad m initial m.versions.length s.w := by
  obtain ⟨hlatest, hdone⟩ := Pool.reach_result schema_fits hfile h hret
  exact ⟨hlatest, hdone.all (Pool.reach_safe schema_fits hfile h).1⟩

/-- The control store's `runMigrations` gives version 16, of a file with its sixteen migrations. -/
theorem runMigrations_returned {sql : Nat → σ → σ} {w₀ : Db σ} (hfile : AtPrefix (controlMigrations sql) initial w₀)
    {s : (openers (controlMigrations sql)).State} (h : (openers _).Reach (fun _ _ => True) w₀ s) {latest : Nat}
    {fl : Unit} (hret : ⟨(), .ret (.ok latest, fl)⟩ ∈ s.serving) :
    (openers (controlMigrations sql)).program () = runMigrations sql ∧ latest = 16 ∧
      HasHad (controlMigrations sql) initial 16 s.w :=
  ⟨rfl, returned_all hfile h hret⟩

/-- The journal's `runJournalMigrations` gives version 5, of a file with its five migrations. -/
theorem runJournalMigrations_returned {sql : Nat → σ → σ} {w₀ : Db σ}
    (hfile : AtPrefix (journalMigrations sql) initial w₀) {s : (openers (journalMigrations sql)).State}
    (h : (openers _).Reach (fun _ _ => True) w₀ s) {latest : Nat} {fl : Unit}
    (hret : ⟨(), .ret (.ok latest, fl)⟩ ∈ s.serving) :
    (openers (journalMigrations sql)).program () = runJournalMigrations sql ∧ latest = 5 ∧
      HasHad (journalMigrations sql) initial 5 s.w :=
  ⟨rfl, returned_all hfile h hret⟩

/-- **Migrations run once and in order**, however many processes open the file, fail, and end in between: a
    process that has opened it finds all of them done, and after any failure an opening brings it up to date. -/
theorem migrations_once {w₀ : Db σ} (hfile : AtPrefix m initial w₀) {s : (openers m).State}
    (h : (openers m).Reach (fun _ _ => True) w₀ s) : Migrated m initial s := by
  have hfirst := (Pool.reach_safe schema_fits hfile h).1
  refine ⟨hfirst, ?_, ?_, ?_⟩
  · intro fl latest hret
    exact returned_all hfile h hret
  · intro a e s' hstep
    rcases Pool.step_cases hstep with ⟨c, -, hw, -⟩ | ⟨c, op, k, inp, r, i, -, hget, hexec, -⟩ | ⟨e, -⟩ | ⟨-, hw, -⟩
    · exact .inl (by rw [hw]; exact ⟨rfl, rfl⟩)
    · have hpre := Pool.reach_pre schema_fits hfile h (List.mem_of_getElem? hget)
      exact Change.stepped hfirst hpre (exec_change hexec)
    · exact nomatch e
    · exact .inl (by rw [hw]; exact ⟨rfl, rfl⟩)
  · obtain ⟨w', hcan, hall⟩ := migrate_can hfirst
    obtain ⟨as, fl, hrun⟩ := Pool.retry (P := openers m) (c := ()) hcan
    exact ⟨as, _, fl, hrun, rfl, hall⟩

end

/-- Two processes that read the version of an empty journal before either changes it: one of them fails. -/
def racingOpeners : List (openers (journalMigrations fun v (s : List Nat) => s ++ [v])).Action :=
  [.invoke (), .invoke (), .exec 0 .run, .exec 1 .run, .exec 0 .run, .exec 1 .run, .exec 0 .run, .exec 1 .run,
    .exec 0 .run, .exec 1 .run, .exec 0 .run, .exec 0 .run, .exec 0 .run, .exec 0 .run]

/-- The other has run every migration, and what holds of the file. -/
theorem journal_migrated : ∃ s : (openers (journalMigrations fun v (s : List Nat) => s ++ [v])).State,
    (openers _).Reach (fun _ _ => True) ⟨[], none⟩ s ∧ s.w.schema = [1, 2, 3, 4, 5] ∧ Migrated _ [] s := by
  obtain ⟨s, hs, hschema⟩ := Pool.reach_exists (openers (journalMigrations fun v (s : List Nat) => s ++ [v]))
    (fun _ _ => True) (fun _ _ => true) (fun _ _ _ => trivial) ⟨[], none⟩ racingOpeners
    (fun s => s.w.schema == [1, 2, 3, 4, 5]) (by decide +kernel)
  exact ⟨s, hs, eq_of_beq hschema, migrations_once ⟨0, rfl, rfl⟩ hs⟩

/-! ## A file that is not supported -/

section

variable {σ : Type} {m : Migrations σ} {w₀ : Db σ}

/-- The rows tell of a later program, or are malformed. -/
def Unsupported (m : Migrations σ) (rows : List Cell) : Prop :=
  match maxVersion rows with
  | none => True
  | some max => m.latest < max

/-- What the file has had stays. -/
def Frozen (w₀ w : Db σ) : Prop := w.applied = w₀.applied ∧ w.schema = w₀.schema

/-- Every operation but a migration. -/
def Reads : Op → Db σ → Prop
  | .apply _, _ => False
  | _, _ => True

theorem Change.reads {w w' : Db σ} {op : Op} (h : Change m w op w') (hreads : Reads op w) :
    w'.applied = w.applied ∧ w'.schema = w.schema := by
  cases h with
  | same => exact ⟨rfl, rfl⟩
  | table => exact ⟨rfl, rfl⟩
  | apply table fresh => exact hreads.elim

/-- An unsupported file has a version table. -/
theorem Unsupported.table {w : Db σ} (h : Unsupported m w.applied) : w.rows.isSome = true := by
  cases hrows : w.rows with
  | some rows => rfl
  | none =>
    rw [Db.applied, hrows] at h
    exact absurd (show (m.latest : Int) < 0 from h) (by omega)

/-- Such an opening throws. -/
theorem migrate_frozen (hbad : Unsupported m w₀.applied) :
    Safe ((fileGround m (Frozen w₀)).contract Reads) (fun _ => True) (migrate m) (fun _ _ => False)
      (fun _ _ => True) := by
  refine safe_bind (Q := fun _ _ => True)
    (call_safe .createTable (fun _ _ _ => trivial) (fun _ _ _ _ _ _ _ => trivial) fun _ _ _ _ _ => trivial) fun _ => ?_
  refine safe_bind (Q := fun current _ => (m.latest : Int) < current) ?_ fun current => ?_
  · refine safe_bind (Q := fun has _ => has = true)
      (call_safe .hasTable (fun _ _ _ => trivial) ?_ fun _ _ _ h _ => h) fun has => ?_
    · rintro w has w' hinv - - ⟨rfl, -⟩
      exact Unsupported.table (hinv.1.symm ▸ hbad)
    refine safe_ite (fun _ => ?_) fun hno => safe_lift (φ := False) (fun _ _ h => hno h) fun h => h.elim
    refine safe_bind (Q := fun rows _ => rows = w₀.applied) ?_ fun rows => ?_
    · refine safe_catch (F := fun _ _ => True) (call_safe .selectVersions (fun _ _ _ => trivial) ?_ fun _ _ _ h _ => h)
        fun _ => safe_throw fun _ _ _ => trivial
      rintro w rows w' hinv - - ⟨hrows, -⟩
      exact (applied_eq hrows).symm.trans hinv.1
    · show Safe _ _ (match maxVersion rows with | none => _ | some max => _) _ _
      split
      · exact safe_throw fun _ _ _ => trivial
      · rename_i max hmax
        refine safe_pure fun w _ hrows => ?_
        rw [Unsupported, ← hrows, hmax] at hbad
        exact hbad
  · refine safe_ite (fun _ => safe_throw fun _ _ _ => trivial) fun hsupported => ?_
    exact safe_lift (φ := False) (fun _ _ h => hsupported h) fun h => h.elim

theorem frozen_fits (hbad : Unsupported m w₀.applied) :
    Pool.Fits (openers m) (fun _ _ => True) (fileGround m (Frozen w₀)) (fun _ => Reads) (fun _ _ _ => False)
      (fun _ _ _ => True) where
  flags _ := rfl
  exec _ _ _ inp _ _ hinv _ hpre hexec := by
    obtain ⟨hrows, hschema⟩ := (exec_change hexec).reads hpre
    exact ⟨⟨inp, hexec⟩, ⟨hrows.trans hinv.1, hschema.trans hinv.2⟩, (exec_change hexec).grows⟩
  move _ e := nomatch e
  call _ _ _ _ := migrate_frozen hbad

/-- **A file that is not supported is left alone**: nobody changes it, and nobody who opens it goes on. -/
theorem unsupported_untouched (hbad : Unsupported m w₀.applied) {s : (openers m).State}
    (h : (openers m).Reach (fun _ _ => True) w₀ s) :
    (s.w.applied = w₀.applied ∧ s.w.schema = w₀.schema) ∧
      ∀ fl latest, ⟨(), .ret (.ok latest, fl)⟩ ∉ s.serving :=
  ⟨(Pool.reach_safe (frozen_fits hbad) ⟨rfl, rfl⟩ h).1,
    fun _ _ hret => Pool.reach_result (frozen_fits hbad) ⟨rfl, rfl⟩ h hret⟩

/-- An opening of a journal that a later program has written throws. -/
theorem newer_journal_untouched : ∃ s : (openers (journalMigrations fun v (s : List Nat) => s ++ [v])).State,
    (openers _).Reach (fun _ _ => True) ⟨[], some [.integer 9]⟩ s ∧
      s.serving.any (fun t => t.prog matches .ret _) = true ∧
      s.w.schema = [] := by
  obtain ⟨s, hs, hended⟩ := Pool.reach_exists (openers (journalMigrations fun v (s : List Nat) => s ++ [v]))
    (fun _ _ => True) (fun _ _ => true) (fun _ _ _ => trivial) ⟨[], some [.integer 9]⟩
    [.invoke (), .exec 0 .run, .exec 0 .run, .exec 0 .run] (fun s => s.serving.any (fun t => t.prog matches .ret _)) rfl
  have hbad : Unsupported (journalMigrations fun v (s : List Nat) => s ++ [v]) [.integer 9] := by
    show (5 : Int) < 9
    decide
  exact ⟨s, hs, hended, (unsupported_untouched hbad hs).1.2⟩

end

end VibeSchema
