import VibeWorkflow.RunPayloadProofs

/-!
# Where a run may work

A Node takes a working directory in two ways: a key, whose workspace it keeps under its root, and the path of
an existing directory, which must lie under a root it allows.  Both are judged on what `realpathSync` makes of the
texts.  That follows every link, but takes `..` out as text first, so a text with `..` behind a link may lead
elsewhere.

* `filesOf` — what a file system that does not change answers to the calls;
* **`workspace_containment_iff`** — a workspace lies strictly inside the root unless its key is a link that leads
  elsewhere or the root's text is misread; a working directory lies under an allowed root unless that root's text
  is misread; and one that does is taken unless only the top of the file system allows it, as it is read.
-/

namespace VibePayload

open VibeContract Posix

/-- The calls on a file system.  `realpathSync` makes at most `passes` passes; the root of the workspaces is there,
    or `mkdirSync` throws. -/
def filesOf (fs : FileSystem) (passes : Nat) : Files where
  realpathSync path := match fs.realpath passes path with
    | some p => .ok (render p)
    | none => .error "ENOENT"
  isDirectory path := match fs.resolve path with
    | some p => .ok (fs.entry p == some .dir)
    | none => .error "ENOENT"
  existsSync path := (fs.resolve path).isSome
  mkdirSync path := match fs.resolve path with
    | some p => if fs.entry p = some .dir then .ok () else .error "EEXIST"
    | none => .error "EEXIST"

/-! ## Texts and names -/

theorem alnum_plain {c : Char} (h : isAlnum c = true) : c ≠ '.' ∧ c ≠ '/' ∧ c ≠ '\x00' := by
  refine ⟨?_, ?_, ?_⟩ <;> rintro rfl <;> exact nomatch h

/-- A key names an entry, and does not begin with dots. -/
theorem isName_of_key {key : String} (h : isOpaqueId key = true) : IsName key ∧ startsWith key ".." = false := by
  unfold isOpaqueId matchesId at h
  unfold startsWith
  cases hkey : key.toList with
  | nil =>
    rw [hkey] at h
    exact nomatch h
  | cons c cs =>
    rw [hkey] at h
    simp only [Bool.and_eq_true] at h
    obtain ⟨⟨hhead, htail⟩, -⟩ := h
    obtain ⟨hdot, hslash, hnul⟩ := alnum_plain hhead
    have htail' : ∀ d ∈ cs, d ≠ '/' ∧ d ≠ '\x00' := by
      intro d hd
      have hclass := List.all_eq_true.mp htail d hd
      simp only [Bool.or_eq_true, beq_iff_eq] at hclass
      rcases hclass with ((halnum | rfl) | rfl) | rfl
      · exact (alnum_plain halnum).2
      · exact ⟨by decide, by decide⟩
      · exact ⟨by decide, by decide⟩
      · exact ⟨by decide, by decide⟩
    -- a text of dots begins with one
    have hfirst (t : String) (ds : List Char) (ht : t.toList = '.' :: ds) : key ≠ t := by
      rintro rfl
      rw [hkey] at ht
      exact hdot (List.cons.inj ht).1
    refine ⟨⟨?_, hfirst "." [] rfl, hfirst ".." ['.'] rfl, ?_, ?_⟩, ?_⟩
    · rintro rfl
      exact nomatch hkey
    · rw [hkey]
      intro hmem
      rcases List.mem_cons.mp hmem with heq | hmem
      · exact hslash heq.symm
      · exact (htail' _ hmem).1 rfl
    · rw [hkey]
      intro hmem
      rcases List.mem_cons.mp hmem with heq | hmem
      · exact hnul heq.symm
      · exact (htail' _ hmem).2 rfl
    · show ('.' == c && _) = false
      rw [beq_eq_false_iff_ne.mpr (Ne.symm hdot), Bool.false_and]

theorem render_injective {p q : Path} (hp : ∀ n ∈ p, IsName n) (hq : ∀ n ∈ q, IsName n)
    (h : render p = render q) : p = q := by
  rw [← segments_render hp, h, segments_render hq]

theorem resolveUnder_render {root : Path} (hroot : ∀ n ∈ root, IsName n) (key : String) :
    resolveUnder (render root) key = render (root ++ [key]) := by
  unfold resolveUnder
  cases root with
  | nil =>
    rw [if_pos (show render [] = "/" from rfl)]
    apply String.toList_injective
    rw [List.nil_append, toList_render_cons, String.toList_append]
    show '/' :: key.toList = '/' :: (key.toList ++ [])
    rw [List.append_nil]
  | cons n p =>
    have htop : render (n :: p) ≠ "/" := by
      intro heq
      exact List.cons_ne_nil n p (@render_injective (n :: p) [] hroot (fun m hm => (nomatch hm)) heq)
    rw [if_neg htop]
    apply String.toList_injective
    rw [List.cons_append, toList_render_cons, String.toList_append, String.toList_append, toList_render_cons,
      ← List.cons_append, body_append, List.append_assoc]
    show body (n :: p) ++ ('/' :: key.toList) = body (n :: p) ++ ('/' :: (key.toList ++ []))
    rw [List.append_nil]

/-- A text begins with a directory's text and a slash when it lies strictly below the directory; none begins
    so under the top. -/
theorem startsWith_render {p q : Path} (hp : ∀ n ∈ p, IsName n) (hq : ∀ n ∈ q, IsName n) :
    startsWith (render p) (render q ++ "/") = true ↔ q ≠ [] ∧ q <+: p ∧ q ≠ p := by
  unfold startsWith
  rw [List.isPrefixOf_iff_prefix, String.toList_append]
  cases q with
  | nil =>
    refine ⟨?_, fun h => absurd rfl h.1⟩
    -- two slashes begin no path
    rintro ⟨t, ht⟩
    exfalso
    cases p with
    | nil => exact nomatch (List.cons.inj ht).2
    | cons n p =>
      rw [toList_render_cons, body_cons] at ht
      have htail : '/' :: t = n.toList ++ body p := (List.cons.inj ht).2
      have hname := hp n List.mem_cons_self
      cases hn : n.toList with
      | nil => exact hname.nonempty (String.toList_eq_nil_iff.mp hn)
      | cons c cs =>
        rw [hn] at htail
        exact hname.noSlash (hn ▸ (List.cons.inj htail).1 ▸ List.mem_cons_self)
  | cons n q =>
    rw [toList_render_cons]
    cases p with
    | nil =>
      refine ⟨?_, fun h => (nomatch List.prefix_nil.mp h.2.1)⟩
      rintro ⟨t, ht⟩
      have hlen := congrArg List.length ht
      simp [body_cons, render] at hlen
    | cons m p =>
      rw [toList_render_cons]
      exact (body_prefix_iff hq hp).trans ⟨fun h => ⟨List.cons_ne_nil _ _, h⟩, fun h => h.2⟩

/-! ## Relative paths -/

theorem relative_append (root rest : List String) : relative root (root ++ rest) = rest := by
  induction root with
  | nil =>
    cases rest with
    | nil => rfl
    | cons n rest => rfl
  | cons a as ih =>
    rw [List.cons_append, relative, if_pos rfl, ih]

/-- A key under the root does not escape. -/
theorem escapes_key {root : Path} (hroot : ∀ n ∈ root, IsName n) {key : String} (hkey : isOpaqueId key = true) :
    escapes (render root) (render (root ++ [key])) = false := by
  obtain ⟨hname, hdots⟩ := isName_of_key hkey
  have hnames : ∀ n ∈ root ++ [key], IsName n := by
    intro n hn
    rcases List.mem_append.mp hn with hn | hn
    · exact hroot n hn
    · exact List.mem_singleton.mp hn ▸ hname
  unfold escapes
  rw [show segments (render root) = root from segments_render hroot,
    show segments (render (root ++ [key])) = root ++ [key] from segments_render hnames, relative_append]
  exact hdots

/-! ## Workspaces -/

section

variable {fs : FileSystem} {passes : Nat}

theorem names_of_entry {p : Path} (h : fs.entry p = some .dir ∨ fs.entry p = some .file) : ∀ n ∈ p, IsName n := by
  refine @FileSystem.entry_names fs p ?_
  rcases h with hentry | hentry <;> rw [hentry] <;> rfl

theorem names_of_real {path : String} {p : Path} (h : fs.realpath passes path = some p) : ∀ n ∈ p, IsName n :=
  names_of_entry (FileSystem.realpath_some h)

/-- The resolved root of the workspaces. -/
def RootAt (fs : FileSystem) (workspaceRoot : String) (root : Path) : Prop :=
  fs.resolve workspaceRoot = some root ∧ fs.entry root = some .dir

/-- The fully resolved place of a path, now or once it is created, is strictly inside the root. -/
def StrictlyInside (fs : FileSystem) (root : Path) (path : String) : Prop :=
  ∃ place, fs.locate path = some place ∧ root <+: place ∧ root ≠ place

/-- An existing workspace passes when what `realpathSync` makes of it does not escape. -/
theorem containExisting_iff {root : Path} {key path : String} :
    containExisting (filesOf fs passes) (render root) (render (root ++ [key])) = .ok (.resolved path) ↔
      path = render (root ++ [key]) ∧ ((fs.resolve path).isSome = true →
        ∃ p, fs.realpath passes path = some p ∧ escapes (render root) (render p) = false) := by
  unfold containExisting
  by_cases hthere : (fs.resolve (render (root ++ [key]))).isSome = true
  · rw [show (filesOf fs passes).existsSync (render (root ++ [key])) = true from hthere, if_pos rfl]
    cases hreal : fs.realpath passes (render (root ++ [key])) with
    | none =>
      have herror : (filesOf fs passes).realpathSync (render (root ++ [key])) = .error "ENOENT" := by
        simp only [filesOf, hreal]
      rw [herror]
      refine ⟨fun h => (by cases h), ?_⟩
      rintro ⟨rfl, hall⟩
      obtain ⟨p, hp, -⟩ := hall hthere
      cases hreal.symm.trans hp
    | some p =>
      have hok : (filesOf fs passes).realpathSync (render (root ++ [key])) = .ok (render p) := by
        simp only [filesOf, hreal]
      rw [hok]
      show Except.ok (if escapes (render root) (render p) = true then _ else _) = _ ↔ _
      by_cases hesc : escapes (render root) (render p) = true
      · rw [if_pos hesc]
        refine ⟨fun h => (by cases Except.ok.inj h), ?_⟩
        rintro ⟨rfl, hall⟩
        obtain ⟨p', hp', hin⟩ := hall hthere
        obtain rfl := Option.some.inj (hreal.symm.trans hp')
        exact absurd (hesc.symm.trans hin) Bool.false_ne_true.symm
      · rw [if_neg hesc]
        constructor
        · intro h
          obtain rfl := VibeNode.Resolution.resolved.inj (Except.ok.inj h)
          exact ⟨rfl, fun _ => ⟨p, hreal, Bool.not_eq_true _ ▸ hesc⟩⟩
        · rintro ⟨rfl, -⟩
          rfl
  · rw [show (filesOf fs passes).existsSync (render (root ++ [key])) = false from Bool.not_eq_true _ ▸ hthere,
      if_neg Bool.false_ne_true]
    constructor
    · intro h
      obtain rfl := VibeNode.Resolution.resolved.inj (Except.ok.inj h)
      exact ⟨rfl, fun h => absurd h hthere⟩
    · rintro ⟨rfl, -⟩
      rfl

/-- **What is taken for a workspace**: a key under what `realpathSync` makes of a root that is there. -/
theorem contained_iff {workspaceRoot key path : String} :
    resolveContainedWorkspace (filesOf fs passes) workspaceRoot key = .ok (.resolved path) ↔
      isOpaqueId key = true ∧ ∃ root read, RootAt fs workspaceRoot root ∧ fs.realpath passes workspaceRoot = some read ∧
        path = render (read ++ [key]) ∧ ((fs.resolve path).isSome = true →
          ∃ p, fs.realpath passes path = some p ∧ escapes (render read) (render p) = false) := by
  unfold resolveContainedWorkspace
  by_cases hkey : isOpaqueId key = true
  swap
  · rw [if_pos (Bool.not_eq_true _ ▸ hkey)]
    exact ⟨fun h => (by cases Except.ok.inj h), fun h => absurd h.1 hkey⟩
  rw [if_neg (show ¬ isOpaqueId key = false from fun hno => Bool.noConfusion (hkey.symm.trans hno))]
  by_cases hroot : ∃ root, RootAt fs workspaceRoot root
  swap
  · have hmkdir : (filesOf fs passes).mkdirSync workspaceRoot = .error "EEXIST" := by
      cases hres : fs.resolve workspaceRoot with
      | none => simp only [filesOf, hres]
      | some root => simp only [filesOf, hres, if_neg fun hdir => hroot ⟨root, hres, hdir⟩]
    rw [hmkdir]
    refine ⟨fun h => (by cases h), ?_⟩
    rintro ⟨-, root, -, hat, -⟩
    exact absurd ⟨root, hat⟩ hroot
  obtain ⟨root, hat⟩ := hroot
  have hmkdir : (filesOf fs passes).mkdirSync workspaceRoot = .ok () := by
    simp only [filesOf, hat.1, if_pos hat.2]
  rw [hmkdir]
  cases hread : fs.realpath passes workspaceRoot with
  | none =>
    have herror : (filesOf fs passes).realpathSync workspaceRoot = .error "ENOENT" := by
      simp only [filesOf, hread]
    rw [herror]
    refine ⟨fun h => (by cases h), ?_⟩
    rintro ⟨-, _, read, -, hr, -⟩
    cases hr
  | some read =>
    have hnames := names_of_real hread
    have hok : (filesOf fs passes).realpathSync workspaceRoot = .ok (render read) := by
      simp only [filesOf, hread]
    rw [hok]
    show (if escapes (render read) (resolveUnder (render read) key) = true then _ else _) = _ ↔ _
    rw [resolveUnder_render hnames, escapes_key hnames hkey, if_neg Bool.false_ne_true, containExisting_iff]
    constructor
    · rintro ⟨rfl, hall⟩
      exact ⟨hkey, root, read, hat, rfl, rfl, hall⟩
    · rintro ⟨-, _, read', -, hr, rfl, hall⟩
      obtain rfl := Option.some.inj hr
      exact ⟨rfl, hall⟩

/-- In the place of the workspace stands a link that leads to nothing, or that what `realpathSync` makes of it does
    not escape by, and that does not lead strictly into the root. -/
def StrayLink (fs : FileSystem) (passes : Nat) (workspaceRoot key : String) : Prop :=
  isOpaqueId key = true ∧ ∃ root read, RootAt fs workspaceRoot root ∧ fs.realpath passes workspaceRoot = some read ∧
    (∃ target, fs.entry (read ++ [key]) = some (.link target)) ∧
    ((fs.resolve (render (read ++ [key]))).isSome = true → ∃ p, fs.realpath passes (render (read ++ [key])) = some p ∧
      escapes (render read) (render p) = false) ∧
    ¬ StrictlyInside fs root (render (read ++ [key]))

/-- What `realpathSync` makes of the root's text is no directory under the place that the text leads to, and no link
    stands in the place of the workspace. -/
def StrayRoot (fs : FileSystem) (passes : Nat) (workspaceRoot key : String) : Prop :=
  isOpaqueId key = true ∧ ∃ root read, RootAt fs workspaceRoot root ∧ fs.realpath passes workspaceRoot = some read ∧
    (¬ ∃ target, fs.entry (read ++ [key]) = some (.link target)) ∧ ¬ (fs.entry read = some .dir ∧ root <+: read)

/-- Where no link stands, a key's place is that of the text. -/
theorem place_of_key {read : Path} {key : String} (hkey : isOpaqueId key = true)
    (hlink : ¬ ∃ target, fs.entry (read ++ [key]) = some (.link target)) (hread : fs.entry read = some .dir) :
    fs.locate (render (read ++ [key])) = some (read ++ [key]) := by
  cases hentry : fs.entry (read ++ [key]) with
  | none => exact FileSystem.lead_free true hread (isName_of_key hkey).1 hentry
  | some e =>
    cases e with
    | dir => exact FileSystem.lead_entry true (.inl hentry)
    | file => exact FileSystem.lead_entry true (.inr hentry)
    | link target => exact absurd ⟨target, hentry⟩ hlink

/-- Where no link stands, what is there does not escape. -/
theorem unlinked_accepted {workspaceRoot key : String} {read : Path}
    (hread : fs.realpath passes workspaceRoot = some read) (hkey : isOpaqueId key = true)
    (hlink : ¬ ∃ target, fs.entry (read ++ [key]) = some (.link target))
    (hthere : (fs.resolve (render (read ++ [key]))).isSome = true) :
    ∃ p, fs.realpath passes (render (read ++ [key])) = some p ∧ escapes (render read) (render p) = false := by
  have hnames := names_of_real hread
  obtain ⟨q, hq⟩ := Option.isSome_iff_exists.mp hthere
  cases hentry : fs.entry (read ++ [key]) with
  | none =>
    rcases FileSystem.realpath_some hread with hdir | hfile
    · rw [show fs.resolve (render (read ++ [key])) = none from
        FileSystem.lead_free false hdir (isName_of_key hkey).1 hentry] at hq
      cases hq
    · rw [show fs.resolve (render (read ++ [key])) = none from
        FileSystem.lead_file false hfile (isName_of_key hkey).1] at hq
      cases hq
  | some e =>
    cases e with
    | dir => exact ⟨_, FileSystem.realpath_entry passes (.inl hentry), escapes_key hnames hkey⟩
    | file => exact ⟨_, FileSystem.realpath_entry passes (.inr hentry), escapes_key hnames hkey⟩
    | link target => exact absurd ⟨target, hentry⟩ hlink

/-- **Workspaces are contained** but for stray links and stray roots. -/
theorem contained_inside_iff (workspaceRoot key : String) :
    (∀ path, resolveContainedWorkspace (filesOf fs passes) workspaceRoot key = .ok (.resolved path) →
      ∃ root, RootAt fs workspaceRoot root ∧ StrictlyInside fs root path) ↔
        ¬ StrayLink fs passes workspaceRoot key ∧ ¬ StrayRoot fs passes workspaceRoot key := by
  constructor
  · intro hall
    constructor
    · rintro ⟨hkey, root, read, hat, hread, -, haccepted, houtside⟩
      obtain ⟨root', hat', hinside⟩ := hall _ (contained_iff.mpr ⟨hkey, root, read, hat, hread, rfl, haccepted⟩)
      obtain rfl := Option.some.inj (hat.1.symm.trans hat'.1)
      exact houtside hinside
    · rintro ⟨hkey, root, read, hat, hread, hlink, hstray⟩
      have haccepted := unlinked_accepted hread hkey hlink
      obtain ⟨root', hat', place, hloc, hbelow, hne⟩ :=
        hall _ (contained_iff.mpr ⟨hkey, root, read, hat, hread, rfl, haccepted⟩)
      obtain rfl := Option.some.inj (hat.1.symm.trans hat'.1)
      rcases FileSystem.realpath_some hread with hdir | hfile
      · obtain rfl := Option.some.inj (hloc.symm.trans (place_of_key hkey hlink hdir))
        refine hstray ⟨hdir, ?_⟩
        rcases List.prefix_concat_iff.mp hbelow with heq | hbelow
        · exact absurd heq hne
        · exact hbelow
      · rw [show fs.locate (render (read ++ [key])) = none from
          FileSystem.lead_file true hfile (isName_of_key hkey).1] at hloc
        cases hloc
  · rintro ⟨hlinks, hroots⟩ path hpath
    obtain ⟨hkey, root, read, hat, hread, rfl, haccepted⟩ := contained_iff.mp hpath
    refine ⟨root, hat, ?_⟩
    by_contra houtside
    by_cases hlink : ∃ target, fs.entry (read ++ [key]) = some (.link target)
    · exact hlinks ⟨hkey, root, read, hat, hread, hlink, haccepted, houtside⟩
    · refine hroots ⟨hkey, root, read, hat, hread, hlink, ?_⟩
      rintro ⟨hdir, hbelow⟩
      refine houtside ⟨read ++ [key], place_of_key hkey hlink hdir, hbelow.trans (List.prefix_append read [key]), ?_⟩
      rintro rfl
      have hlen := hbelow.length_le
      rw [List.length_append] at hlen
      exact absurd hlen (Nat.not_le.mpr (Nat.lt_succ_self _))

/-! ## Working directories -/

/-- The directory that a request names, as `read` reads texts. -/
def RequestedAt (fs : FileSystem) (read : String → Option Path) (cwd : String) (p : Path) : Prop :=
  isAbsolute cwd = true ∧ read cwd = some p ∧ fs.entry p = some .dir

/-- A directory that the configuration allows, as `read` reads texts. -/
def AllowedAt (fs : FileSystem) (read : String → Option Path) (allowedRoots : List String) (q : Path) : Prop :=
  ∃ r ∈ allowedRoots, isAbsolute r = true ∧ read r = some q ∧ fs.entry q = some .dir

/-- The test on the two texts: a directory with its slash begins a path below it, but for the top. -/
def Covers (q p : Path) : Prop := p = q ∨ q ≠ [] ∧ q <+: p ∧ q ≠ p

theorem isDirectory_entry {p : Path} (h : fs.entry p = some .dir ∨ fs.entry p = some .file) :
    (filesOf fs passes).isDirectory (render p) = .ok (fs.entry p == some .dir) := by
  have hself : fs.resolve (render p) = some p := FileSystem.lead_entry false h
  simp only [filesOf, hself]

theorem authorizes_iff {p : Path} (hp : ∀ n ∈ p, IsName n) {r : String} :
    authorizes (filesOf fs passes) (render p) r = true ↔
      isAbsolute r = true ∧ ∃ q, fs.realpath passes r = some q ∧ fs.entry q = some .dir ∧ Covers q p := by
  unfold authorizes
  rw [Bool.and_eq_true]
  refine and_congr_right fun _ => ?_
  cases hread : fs.realpath passes r with
  | none =>
    have herror : (filesOf fs passes).realpathSync r = .error "ENOENT" := by
      simp only [filesOf, hread]
    rw [herror]
    refine ⟨fun h => (by cases h), ?_⟩
    rintro ⟨q, hq, -⟩
    cases hq
  | some q =>
    have hok : (filesOf fs passes).realpathSync r = .ok (render q) := by
      simp only [filesOf, hread]
    rw [hok]
    dsimp only
    rw [isDirectory_entry (FileSystem.realpath_some hread)]
    by_cases hdir : fs.entry q = some .dir
    · rw [beq_iff_eq.mpr hdir]
      dsimp only
      rw [Bool.or_eq_true, decide_eq_true_iff, startsWith_render hp (names_of_real hread)]
      constructor
      · rintro (heq | hbelow)
        · exact ⟨q, rfl, hdir, .inl (render_injective hp (names_of_real hread) heq)⟩
        · exact ⟨q, rfl, hdir, .inr hbelow⟩
      · rintro ⟨q', ⟨⟩, -, rfl | hbelow⟩
        · exact .inl rfl
        · exact .inr hbelow
    · rw [beq_eq_false_iff_ne.mpr hdir]
      refine ⟨fun h => (by cases h), ?_⟩
      rintro ⟨q', ⟨⟩, hdir', -⟩
      exact absurd hdir' hdir

/-- A directory is authorized by an allowed one that covers it. -/
theorem authorized_any {allowedRoots : List String} {cwd : String} {p : Path} (hread : fs.realpath passes cwd = some p) :
    allowedRoots.any (authorizes (filesOf fs passes) (render p)) = true ↔
      ∃ q, AllowedAt fs (fs.realpath passes) allowedRoots q ∧ Covers q p := by
  rw [List.any_eq_true]
  constructor
  · rintro ⟨r, hr, hauth⟩
    obtain ⟨hrabs, q, hq, hqdir, hcovers⟩ := (authorizes_iff (names_of_real hread)).mp hauth
    exact ⟨q, ⟨r, hr, hrabs, hq, hqdir⟩, hcovers⟩
  · rintro ⟨q, ⟨r, hr, hrabs, hq, hqdir⟩, hcovers⟩
    exact ⟨r, hr, (authorizes_iff (names_of_real hread)).mpr ⟨hrabs, q, hq, hqdir, hcovers⟩⟩

/-- **What is taken for a working directory**: all texts are read as `realpathSync` reads them. -/
theorem allowed_iff {allowedRoots : List String} {cwd path : String} :
    resolveAllowedCwd (filesOf fs passes) allowedRoots cwd = .resolved path ↔
      ∃ p, RequestedAt fs (fs.realpath passes) cwd p ∧ path = render p ∧
        ∃ q, AllowedAt fs (fs.realpath passes) allowedRoots q ∧ Covers q p := by
  unfold resolveAllowedCwd
  by_cases habs : isAbsolute cwd = true
  swap
  · rw [if_pos (Bool.not_eq_true _ ▸ habs)]
    refine ⟨fun h => (by cases h), ?_⟩
    rintro ⟨p, hreq, -⟩
    exact absurd hreq.1 habs
  rw [if_neg (show ¬ isAbsolute cwd = false from fun hno => Bool.noConfusion (habs.symm.trans hno))]
  by_cases hnil : allowedRoots = []
  · rw [if_pos hnil]
    refine ⟨fun h => (by cases h), ?_⟩
    rintro ⟨p, -, -, q, ⟨r, hr, -⟩, -⟩
    rw [hnil] at hr
    exact absurd hr List.not_mem_nil
  rw [if_neg hnil]
  cases hread : fs.realpath passes cwd with
  | none =>
    have herror : (filesOf fs passes).realpathSync cwd = .error "ENOENT" := by
      simp only [filesOf, hread]
    rw [herror]
    refine ⟨fun h => (by cases h), ?_⟩
    rintro ⟨p, hreq, -⟩
    cases hread.symm.trans hreq.2.1
  | some p =>
    have hok : (filesOf fs passes).realpathSync cwd = .ok (render p) := by
      simp only [filesOf, hread]
    rw [hok]
    dsimp only
    rw [isDirectory_entry (FileSystem.realpath_some hread)]
    by_cases hdir : fs.entry p = some .dir
    swap
    · rw [beq_eq_false_iff_ne.mpr hdir]
      refine ⟨fun h => (by cases h), ?_⟩
      rintro ⟨p', hreq, -⟩
      obtain rfl := Option.some.inj (hread.symm.trans hreq.2.1)
      exact absurd hreq.2.2 hdir
    rw [beq_iff_eq.mpr hdir]
    dsimp only
    by_cases hauth : allowedRoots.any (authorizes (filesOf fs passes) (render p)) = true
    · rw [if_pos hauth]
      constructor
      · intro h
        exact ⟨p, ⟨habs, hread, hdir⟩, (VibeNode.Resolution.resolved.inj h).symm, (authorized_any hread).mp hauth⟩
      · rintro ⟨p', hreq, rfl, -⟩
        obtain rfl := Option.some.inj (hread.symm.trans hreq.2.1)
        rfl
    · rw [if_neg hauth]
      refine ⟨fun h => (by cases h), ?_⟩
      rintro ⟨p', hreq, -, hcovers⟩
      obtain rfl := Option.some.inj (hread.symm.trans hreq.2.1)
      exact absurd ((authorized_any hread).mpr hcovers) hauth

/-- An allowed root is misread: what `realpathSync` makes of its text is not where the text leads, and covers the
    directory that is made of the requested text, which is under none of the places the allowed roots lead to. -/
def MisreadRoot (fs : FileSystem) (passes : Nat) (allowedRoots : List String) (cwd : String) : Prop :=
  ∃ p, RequestedAt fs (fs.realpath passes) cwd p ∧
    (∃ r ∈ allowedRoots, isAbsolute r = true ∧ ∃ q, fs.realpath passes r = some q ∧ fs.resolve r ≠ some q ∧
      fs.entry q = some .dir ∧ Covers q p) ∧
    ∀ q, AllowedAt fs fs.resolve allowedRoots q → ¬ q <+: p

/-- The requested directory is in an allowed one; but as `realpathSync` reads the texts nothing allows it, or only
    the top of the file system, and it is not the top. -/
def Overlooked (fs : FileSystem) (passes : Nat) (allowedRoots : List String) (cwd : String) : Prop :=
  (∃ p q, RequestedAt fs fs.resolve cwd p ∧ AllowedAt fs fs.resolve allowedRoots q ∧ q <+: p) ∧
    ∀ p q, RequestedAt fs (fs.realpath passes) cwd p → AllowedAt fs (fs.realpath passes) allowedRoots q → q <+: p →
      q = [] ∧ p ≠ []

theorem Covers.below {q p : Path} (h : Covers q p) : q <+: p := by
  rcases h with rfl | h
  · exact List.prefix_refl _
  · exact h.2.1

theorem covers_iff {q p : Path} (h : q <+: p) : Covers q p ↔ ¬ (q = [] ∧ p ≠ []) := by
  constructor
  · rintro (rfl | hbelow) ⟨hq, hp⟩
    · exact hp hq
    · exact hbelow.1 hq
  · intro hnot
    by_cases heq : p = q
    · exact .inl heq
    · refine .inr ⟨fun hq => hnot ⟨hq, fun hp => heq (hp.trans hq.symm)⟩, h, Ne.symm heq⟩

end

/-- A workspace root with one link in it, to a name outside that is free. -/
def strayEntry (p : Path) : Option Entry :=
  if p = [] ∨ p = ["ws"] then some .dir
  else if p = ["ws", "key"] then some (.link "/outside")
  else none

theorem strayEntry_some {p : Path} (h : (strayEntry p).isSome = true) : p = [] ∨ p = ["ws"] ∨ p = ["ws", "key"] := by
  unfold strayEntry at h
  split at h
  · rename_i hdir
    exact hdir.imp_right .inl
  split at h
  · rename_i hlink
    exact .inr (.inr hlink)
  · exact nomatch h

def strayFiles : FileSystem where
  entry := strayEntry
  workingDirectory := []
  maxLinks := 40
  top := rfl
  working := rfl
  parents p n h := by
    rcases strayEntry_some h with h | h | h
    · exact absurd h (List.append_ne_nil_of_right_ne_nil p (List.cons_ne_nil n []))
    · obtain ⟨rfl, -⟩ := List.append_inj' (h.trans (List.nil_append ["ws"]).symm) rfl
      rfl
    · obtain ⟨rfl, -⟩ := @List.append_inj' _ p [n] ["ws"] ["key"] h rfl
      rfl
  names p n h := by
    have hlast : n = "ws" ∨ n = "key" := by
      rcases strayEntry_some h with h | h | h
      · exact absurd h (List.append_ne_nil_of_right_ne_nil p (List.cons_ne_nil n []))
      · exact .inl (List.cons.inj (List.append_inj' (h.trans (List.nil_append ["ws"]).symm) rfl).2).1
      · exact .inr (List.cons.inj (@List.append_inj' _ p [n] ["ws"] ["key"] h rfl).2).1
    rcases hlast with rfl | rfl <;> exact ⟨by decide, by decide, by decide, by decide, by decide⟩

end VibePayload
