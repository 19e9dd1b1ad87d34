import Mathlib.Data.List.Basic
import Mathlib.Data.List.Induction

/-!
# A file system with symbolic links

Directories, files and symbolic links under one root.  A path text is a list of names; to resolve it is to
walk the names from a directory and to follow each link, up to a bound.

* `FileSystem`, `walk` — the entries, and what a list of names leads to: an entry that is there, or, when
  `create` is set, the place it will have once what is missing has been created;
* `realpath` — a resolution that takes `..` out as text, link by link, and so may lead elsewhere;
* `lead_entry`, `realpath_entry` — a resolved path resolves to itself;
* **`body_prefix_iff`** — the text of a directory with a slash begins the text of a path just when the path
  lies strictly below the directory.
-/

namespace Posix

/-- Names from the root. -/
abbrev Path := List String

inductive Entry where
  | dir
  | file
  | link (target : String)
deriving DecidableEq

/-- What may name an entry. -/
structure IsName (n : String) : Prop where
  nonempty : n ≠ ""
  noDot : n ≠ "."
  noDots : n ≠ ".."
  noSlash : '/' ∉ n.toList
  noNul : '\x00' ∉ n.toList

structure FileSystem where
  entry : Path → Option Entry
  workingDirectory : Path
  /-- How many links a resolution follows before it gives up. -/
  maxLinks : Nat
  top : entry [] = some .dir
  working : entry workingDirectory = some .dir
  parents : ∀ p n, (entry (p ++ [n])).isSome = true → entry p = some .dir
  names : ∀ p n, (entry (p ++ [n])).isSome = true → IsName n

/-! ## Texts of paths -/

/-- The names of a path text. -/
def segments (path : String) : List String :=
  ((path.toList.splitOnP (· == '/')).filter (· ≠ [])).map String.ofList

def isAbsolute (path : String) : Bool := ['/'].isPrefixOf path.toList

/-- Each name after a slash. -/
def body (p : Path) : List Char := p.flatMap fun n => '/' :: n.toList

/-- The text of a path. -/
def render (p : Path) : String := if p = [] then "/" else String.ofList (body p)

/-! ## Resolution -/

namespace FileSystem

variable (fs : FileSystem)

/-- One walk without following a link, which `follow` goes on with.  Missing names are taken for directories
    to be created, or lead nowhere. -/
def walkNames (create : Bool) (follow : Path → List String → Option Path) : Path → List String → Option Path
  | cur, [] => some cur
  | cur, n :: rest =>
    if n = "." then walkNames create follow cur rest
    else if n = ".." then walkNames create follow cur.dropLast rest
    else match fs.entry (cur ++ [n]) with
      | some .dir => walkNames create follow (cur ++ [n]) rest
      | some .file => if rest = [] then some (cur ++ [n]) else none
      | some (.link target) => follow (if isAbsolute target then [] else cur) (segments target ++ rest)
      | none => if create then walkNames create follow (cur ++ [n]) rest else none

def walk (create : Bool) : Nat → Path → List String → Option Path
  | 0 => fs.walkNames create fun _ _ => none
  | links + 1 => fs.walkNames create (walk create links)

/-- Where a text leads. -/
def lead (create : Bool) (path : String) : Option Path :=
  if path = "" ∨ '\x00' ∈ path.toList then none
  else fs.walk create fs.maxLinks (if isAbsolute path then [] else fs.workingDirectory) (segments path)

/-- The entry a path text stands for, with every link followed. -/
def resolve (path : String) : Option Path := fs.lead false path

/-- Where that entry is, or will be once what is missing has been created. -/
def locate (path : String) : Option Path := fs.lead true path

/-- Names from a directory with `.` and `..` taken out as text, whatever is there. -/
def collapse : Path → List String → Path
  | cur, [] => cur
  | cur, n :: rest =>
    if n = "." then collapse cur rest
    else if n = ".." then collapse cur.dropLast rest
    else collapse (cur ++ [n]) rest

/-- One pass over the names of an absolute path.  The first link must lead to something; `follow` goes on with the
    text of its target in its place. -/
def realNames (follow : Path → Option Path) : Path → List String → Option Path
  | cur, [] => some cur
  | cur, n :: rest =>
    match fs.entry (cur ++ [n]) with
    | none => none
    | some (.link target) =>
      if (fs.resolve (render (cur ++ [n]))).isSome then
        follow (collapse (if isAbsolute target then [] else cur) (segments target) ++ rest)
      else none
    | some _ => realNames follow (cur ++ [n]) rest

/-- Pass after pass, as many as it takes; with taken-out names it may take no end of them. -/
def realFrom : Nat → Path → Option Path
  | 0, p => fs.realNames (fun _ => none) [] p
  | passes + 1, p => fs.realNames (realFrom passes) [] p

/-- What a text becomes when `..` is taken out before the links are followed. -/
def realpath (passes : Nat) (path : String) : Option Path :=
  if '\x00' ∈ path.toList then none
  else fs.realFrom passes (collapse (if isAbsolute path then [] else fs.workingDirectory) (segments path))

end FileSystem

/-! ## Names and texts -/

theorem render_cons (n : String) (p : Path) : render (n :: p) =
    String.ofList (body (n :: p)) := if_neg (List.cons_ne_nil n p)

theorem body_cons (n : String) (p : Path) : body (n :: p) = '/' :: (n.toList ++ body p) := rfl

theorem toList_render_cons (n : String) (p : Path) : (render (n :: p)).toList = body (n :: p) := by
  rw [render_cons, String.toList_ofList]

theorem body_append (p q : Path) : body (p ++ q) = body p ++ body q := List.flatMap_append

/-- What follows a name begins with a slash, or is nothing. -/
theorem body_head (p : Path) : body p = [] ∨ ∃ t, body p = '/' :: t := by
  cases p with
  | nil => exact .inl rfl
  | cons n p => exact .inr ⟨_, body_cons n p⟩

theorem isAbsolute_render (p : Path) : isAbsolute (render p) = true := by
  cases p with
  | nil => rfl
  | cons n p =>
    rw [render_cons]
    unfold isAbsolute
    rw [String.toList_ofList, body_cons]
    rfl

/-- The first name ends at the first slash. -/
theorem splitOnP_body {w : List Char} (hw : '/' ∉ w) {p : Path} (h : ∀ n ∈ p, IsName n) :
    (w ++ body p).splitOnP (· == '/') = w :: p.map String.toList := by
  have hfree {w : List Char} (hw : '/' ∉ w) : ∀ c ∈ w, (c == '/') = false := by
    intro c hc
    exact beq_eq_false_iff_ne.mpr (ne_of_mem_of_not_mem hc hw)
  induction p generalizing w with
  | nil =>
    show (w ++ []).splitOnP _ = _
    rw [List.append_nil, List.splitOnP_eq_singleton (hfree hw)]
    rfl
  | cons n p ih =>
    rw [body_cons, List.splitOnP_append_cons_of_forall_mem (hfree hw) '/' rfl,
      ih (h n List.mem_cons_self).noSlash fun m hm => h m (List.mem_cons_of_mem _ hm)]
    rfl

/-- **The names of a text come back.** -/
theorem segments_render {p : Path} (h : ∀ n ∈ p, IsName n) : segments (render p) = p := by
  cases p with
  | nil => rfl
  | cons n p =>
    rw [render_cons]
    unfold segments
    have hsplit := @splitOnP_body [] List.not_mem_nil (n :: p) h
    rw [List.nil_append] at hsplit
    rw [String.toList_ofList, hsplit, List.filter_cons_of_neg (by simp), List.filter_eq_self.mpr, List.map_map]
    · exact (List.map_congr_left fun m _ => String.ofList_toList).trans (List.map_id _)
    · intro m hm
      obtain ⟨m', hm', rfl⟩ := List.mem_map.mp hm
      exact decide_eq_true fun hnil => (h m' hm').nonempty (String.toList_eq_nil_iff.mp hnil)

/-- A name is read off the front of a text in one way. -/
theorem name_append {a b s t : List Char} (ha : '/' ∉ a) (hb : '/' ∉ b) (hs : ∃ s', s = '/' :: s')
    (ht : t = [] ∨ ∃ t', t = '/' :: t') (h : a ++ s = b ++ t) : a = b ∧ s = t := by
  obtain ⟨s', rfl⟩ := hs
  induction a generalizing b with
  | nil =>
    cases b with
    | nil => exact ⟨rfl, h⟩
    | cons c b =>
      have hc : '/' = c := (List.cons.inj h).1
      exact absurd List.mem_cons_self (hc ▸ hb)
  | cons d a ih =>
    cases b with
    | nil =>
      rcases ht with rfl | ⟨t', rfl⟩
      · exact nomatch h
      · have hd : d = '/' := (List.cons.inj h).1
        exact absurd List.mem_cons_self (hd ▸ ha)
    | cons c b =>
      obtain ⟨rfl, hrest⟩ := List.cons.inj h
      obtain ⟨rfl, hst⟩ := ih (fun hm => ha (List.mem_cons_of_mem _ hm))
        (fun hm => hb (List.mem_cons_of_mem _ hm)) hrest
      exact ⟨rfl, hst⟩

/-- **Below a directory**: its text and a slash begin the text of the path. -/
theorem body_prefix_iff {q p : Path} (hq : ∀ n ∈ q, IsName n) (hp : ∀ n ∈ p, IsName n) :
    body q ++ ['/'] <+: body p ↔ q <+: p ∧ q ≠ p := by
  induction q generalizing p with
  | nil =>
    cases p with
    | nil =>
      refine ⟨?_, fun h => absurd rfl h.2⟩
      rintro ⟨t, ht⟩
      exact nomatch ht
    | cons m p => exact ⟨fun _ => ⟨List.nil_prefix, List.cons_ne_nil m p |>.symm⟩, fun _ => ⟨_, rfl⟩⟩
  | cons n q ih =>
    cases p with
    | nil =>
      refine ⟨?_, fun h => (nomatch List.prefix_nil.mp h.1)⟩
      rintro ⟨t, ht⟩
      exact nomatch ht
    | cons m p =>
      have hih := @ih p (fun k hk => hq k (List.mem_cons_of_mem _ hk)) fun k hk => hp k (List.mem_cons_of_mem _ hk)
      constructor
      · rintro ⟨t, ht⟩
        have hrest : n.toList ++ (body q ++ ['/'] ++ t) = m.toList ++ body p := by
          rw [body_cons, body_cons, List.cons_append, List.cons_append] at ht
          rw [← (List.cons.inj ht).2]
          simp only [List.append_assoc]
        have hslash : ∃ s', body q ++ ['/'] ++ t = '/' :: s' := by
          rcases body_head q with hnil | ⟨s', hs'⟩
          · exact ⟨t, by rw [hnil]; rfl⟩
          · exact ⟨s' ++ ['/'] ++ t, by rw [hs']; rfl⟩
        obtain ⟨hname, hbelow⟩ := name_append (hq n List.mem_cons_self).noSlash (hp m List.mem_cons_self).noSlash
          hslash (body_head p) hrest
        obtain rfl : n = m := String.toList_injective hname
        obtain ⟨hinit, hne⟩ := hih.mp ⟨t, hbelow⟩
        exact ⟨List.cons_prefix_cons.mpr ⟨rfl, hinit⟩, fun heq => hne (List.cons.inj heq).2⟩
      · rintro ⟨hinit, hne⟩
        obtain ⟨rfl, hbelow⟩ := List.cons_prefix_cons.mp hinit
        obtain ⟨t, ht⟩ := hih.mpr ⟨hbelow, fun heq => hne (congrArg _ heq)⟩
        refine ⟨t, ?_⟩
        rw [body_cons, body_cons, ← ht]
        simp only [List.cons_append, List.append_assoc]

/-! ## Walking -/

namespace FileSystem

variable {fs : FileSystem}

/-- What stands above an entry is a directory. -/
theorem dir_above {p : Path} {n : String} {q : List String} (h : (fs.entry (p ++ n :: q)).isSome = true) :
    fs.entry p = some .dir := by
  induction q generalizing p n with
  | nil => exact fs.parents p n h
  | cons m q ih =>
    rw [List.append_cons] at h
    have hdir := ih h
    exact fs.parents p n (by rw [hdir]; rfl)

theorem entry_names {p : Path} (h : (fs.entry p).isSome = true) : ∀ n ∈ p, IsName n := by
  induction p using List.reverseRecOn with
  | nil => exact fun n hn => nomatch hn
  | append_singleton p n ih =>
    intro m hm
    rcases List.mem_append.mp hm with hm | hm
    · exact ih (by rw [fs.parents p n h]; rfl) m hm
    · obtain rfl := List.mem_singleton.mp hm
      exact fs.names p m h

/-- One step by a name. -/
theorem walkNames_name (create : Bool) (follow : Path → List String →
    Option Path) (cur : Path) {n : String} (hn : IsName n)
    (rest : List String) :
    fs.walkNames create follow cur (n :: rest) =
      match fs.entry (cur ++ [n]) with
      | some .dir => fs.walkNames create follow (cur ++ [n]) rest
      | some .file => if rest = [] then some (cur ++ [n]) else none
      | some (.link target) => follow (if isAbsolute target then [] else cur) (segments target ++ rest)
      | none => if create then fs.walkNames create follow (cur ++ [n]) rest else none := by
  rw [walkNames, if_neg hn.noDot, if_neg hn.noDots]

/-- The first step towards a directory. -/
theorem dir_head {cur p : Path} {n : String} (h : fs.entry (cur ++ n :: p) = some .dir) :
    fs.entry (cur ++ [n]) = some .dir := by
  cases p with
  | nil => exact h
  | cons m p =>
    refine dir_above (n := m) (q := p) ?_
    rw [← List.append_cons, h]
    rfl

/-- A directory is walked into. -/
theorem walkNames_dir (create : Bool) (follow : Path → List String → Option Path) {cur p : Path}
    (h : fs.entry (cur ++ p) = some .dir) (rest : List String) :
    fs.walkNames create follow cur (p ++ rest) = fs.walkNames create follow (cur ++ p) rest := by
  induction p generalizing cur with
  | nil => rw [List.append_nil, List.nil_append]
  | cons n p ih =>
    have hdir : fs.entry (cur ++ [n]) = some .dir := dir_head h
    have hname : IsName n := fs.names cur n (by rw [hdir]; rfl)
    rw [List.append_cons] at h
    rw [List.cons_append, walkNames_name create follow cur hname, hdir]
    exact (ih h).trans (by rw [← List.append_cons])

/-- An entry that is no link is where its names lead. -/
theorem walkNames_entry (create : Bool) (follow : Path → List String → Option Path) {p : Path}
    (h : fs.entry p = some .dir ∨ fs.entry p = some .file) : fs.walkNames create follow [] p = some p := by
  rcases h with h | h
  · have hwalk := @walkNames_dir fs create follow [] p h []
    rw [List.append_nil] at hwalk
    rw [hwalk]
    rfl
  · induction p using List.reverseRecOn with
    | nil =>
      rw [fs.top] at h
      exact nomatch h
    | append_singleton p n _ =>
      have hsome : (fs.entry (p ++ [n])).isSome = true := by
        rw [h]
        rfl
      rw [@walkNames_dir fs create follow [] p (fs.parents p n hsome), List.nil_append,
        walkNames_name create follow p (fs.names p n hsome), h]
      rfl

/-! ## Resolved paths -/

theorem walk_follow (create : Bool) (links : Nat) : ∃ follow, fs.walk create links = fs.walkNames create follow := by
  cases links with
  | zero => exact ⟨_, rfl⟩
  | succ links => exact ⟨_, rfl⟩

theorem nul_notMem_render {p : Path} (h : ∀ n ∈ p, IsName n) : '\x00' ∉ (render p).toList := by
  cases p with
  | nil => simp [render]
  | cons n p =>
    rw [render_cons, String.toList_ofList]
    intro hmem
    obtain ⟨m, hm, hc⟩ := List.mem_flatMap.mp hmem
    rcases List.mem_cons.mp hc with hslash | hc
    · exact absurd hslash (by decide)
    · exact (h m hm).noNul hc

theorem render_ne_empty (p : Path) : render p ≠ "" := by
  intro h
  have habs := isAbsolute_render p
  rw [h] at habs
  exact nomatch habs

/-- The text of a path leads where its names lead from the root. -/
theorem lead_render (fs : FileSystem) (create : Bool) {p : Path} (h : ∀ n ∈ p, IsName n) :
    fs.lead create (render p) = fs.walk create fs.maxLinks [] p := by
  unfold lead
  rw [if_neg (not_or.mpr ⟨render_ne_empty p, nul_notMem_render h⟩), isAbsolute_render, if_pos rfl, segments_render h]

/-- **A resolved path resolves to itself**, and is where it is. -/
theorem lead_entry (create : Bool) {p : Path} (h : fs.entry p = some .dir ∨ fs.entry p = some .file) :
    fs.lead create (render p) = some p := by
  have hsome : (fs.entry p).isSome = true := by
    rcases h with h | h <;> rw [h] <;> rfl
  obtain ⟨follow, hfollow⟩ := @walk_follow fs create fs.maxLinks
  rw [lead_render fs create (entry_names hsome), hfollow, walkNames_entry create follow h]

/-- A name that is free in a directory leads nowhere, and will be there once it is created. -/
theorem lead_free (create : Bool) {root : Path} (hroot : fs.entry root = some .dir) {n : String} (hn : IsName n)
    (hfree : fs.entry (root ++ [n]) = none) :
    fs.lead create (render (root ++ [n])) = if create then some (root ++ [n]) else none := by
  have hnames : ∀ m ∈ root ++ [n], IsName m := by
    intro m hm
    rcases List.mem_append.mp hm with hm | hm
    · exact entry_names (by rw [hroot]; rfl) m hm
    · exact List.mem_singleton.mp hm ▸ hn
  obtain ⟨follow, hfollow⟩ := @walk_follow fs create fs.maxLinks
  rw [lead_render fs create hnames, hfollow, @walkNames_dir fs create follow [] root hroot, List.nil_append,
    walkNames_name create follow root hn, hfree]
  rfl

/-- Nothing is below a file. -/
theorem lead_file (create : Bool) {p : Path} (hp : fs.entry p = some .file) {n : String} (hn : IsName n) :
    fs.lead create (render (p ++ [n])) = none := by
  have hsome : (fs.entry p).isSome = true := by
    rw [hp]
    rfl
  have hnames : ∀ m ∈ p ++ [n], IsName m := by
    intro m hm
    rcases List.mem_append.mp hm with hm | hm
    · exact entry_names hsome m hm
    · exact List.mem_singleton.mp hm ▸ hn
  obtain ⟨follow, hfollow⟩ := @walk_follow fs create fs.maxLinks
  rw [lead_render fs create hnames, hfollow]
  induction p using List.reverseRecOn with
  | nil =>
    rw [fs.top] at hp
    cases hp
  | append_singleton q m _ =>
    rw [List.append_assoc, @walkNames_dir fs create follow [] q (fs.parents q m hsome), List.nil_append]
    show fs.walkNames create follow q (m :: [n]) = none
    rw [walkNames_name create follow q (fs.names q m hsome), hp]
    rfl

/-! ## Passes -/

/-- A directory is passed. -/
theorem realNames_dir (follow : Path → Option Path) {cur p : Path} (h : fs.entry (cur ++ p) = some .dir)
    (rest : List String) : fs.realNames follow cur (p ++ rest) = fs.realNames follow (cur ++ p) rest := by
  induction p generalizing cur with
  | nil => rw [List.append_nil, List.nil_append]
  | cons n p ih =>
    have hdir : fs.entry (cur ++ [n]) = some .dir := dir_head h
    rw [List.append_cons] at h
    rw [List.cons_append, realNames, hdir]
    exact (ih h).trans (by rw [← List.append_cons])

theorem real_follow (passes : Nat) : ∃ follow, fs.realFrom passes = fs.realNames follow [] := by
  cases passes with
  | zero => exact ⟨_, rfl⟩
  | succ passes => exact ⟨_, rfl⟩

/-- The names of an entry have nothing to take out. -/
theorem collapse_names {p : Path} (h : ∀ n ∈ p, IsName n) (cur : Path) : collapse cur p = cur ++ p := by
  induction p generalizing cur with
  | nil => rw [collapse, List.append_nil]
  | cons n p ih =>
    have hname := h n List.mem_cons_self
    rw [collapse, if_neg hname.noDot, if_neg hname.noDots, ih fun m hm => h m (List.mem_cons_of_mem _ hm),
      ← List.append_cons]

/-- **A resolved path is what becomes of its text.** -/
theorem realpath_entry (passes : Nat) {p : Path} (h : fs.entry p = some .dir ∨ fs.entry p = some .file) :
    fs.realpath passes (render p) = some p := by
  have hsome : (fs.entry p).isSome = true := by
    rcases h with h | h <;> rw [h] <;> rfl
  have hnames := entry_names hsome
  obtain ⟨follow, hfollow⟩ := @real_follow fs passes
  unfold realpath
  rw [if_neg (nul_notMem_render hnames), isAbsolute_render, if_pos rfl, segments_render hnames, collapse_names hnames,
    List.nil_append, hfollow]
  rcases h with h | h
  · have hpass := @realNames_dir fs follow [] p h []
    rw [List.append_nil] at hpass
    rw [hpass]
    rfl
  · induction p using List.reverseRecOn with
    | nil =>
      rw [fs.top] at h
      cases h
    | append_singleton p n _ =>
      rw [@realNames_dir fs follow [] p (fs.parents p n hsome), List.nil_append, realNames, h]
      rfl

/-- What a text becomes is there, and is no link. -/
theorem realpath_some {passes : Nat} {path : String} {p : Path} (h : fs.realpath passes path = some p) :
    fs.entry p = some .dir ∨ fs.entry p = some .file := by
  have hnames : ∀ {follow : Path → Option Path},
      (∀ {q}, follow q = some p → fs.entry p = some .dir ∨ fs.entry p = some .file) →
      ∀ {names cur}, (fs.entry cur = some .dir ∨ fs.entry cur = some .file) →
        fs.realNames follow cur names = some p → fs.entry p = some .dir ∨ fs.entry p = some .file := by
    intro follow hfollow names
    induction names with
    | nil =>
      intro cur hcur h
      obtain rfl := Option.some.inj h
      exact hcur
    | cons n rest ih =>
      intro cur hcur h
      rw [realNames] at h
      cases hentry : fs.entry (cur ++ [n]) with
      | none =>
        rw [hentry] at h
        cases h
      | some e =>
        rw [hentry] at h
        cases e with
        | dir => exact ih (.inl hentry) h
        | file => exact ih (.inr hentry) h
        | link target =>
          dsimp only at h
          split at h
          · exact hfollow h
          · cases h
  unfold realpath at h
  split at h
  · cases h
  · generalize collapse _ _ = q at h
    induction passes generalizing q with
    | zero => exact hnames (fun h => by cases h) (.inl fs.top) h
    | succ passes ih => exact hnames (fun h => ih _ h) (.inl fs.top) h

end FileSystem

end Posix
