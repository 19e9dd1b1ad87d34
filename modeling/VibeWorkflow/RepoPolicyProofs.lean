import VibeWorkflow.ShellProofs
import VibeWorkflow.JsonProofs
import VibeWorkflow.AdmissionProofs
import Mathlib.Data.List.DropRight

/-!
# The repository allowlist, and the clone it guards

Which repository URLs a Node may clone, reuse or push to, and the command line `cloneIfEmpty` hands to the
shell for one that is allowed.  Texts are lists of characters.

* `isRemoteUrl`, `canonicalizeRepo`, `isRepoAllowed` — the allowlist policy;
* `checkWorkspaceRepoMatch`, `cloneIfEmpty` — what is refused, and the command of a clone;
* **`clone_command_iff`** — the shell reads the words of the template just when the URL and the branch are
  ordinary words, and the URL is no option.
-/

namespace VibeRepo

open VibeJson

abbrev Text := List Char

/-! ## URLs -/

/-- Text case as the runtime has it: `toLowerCase`, and one character under a regular expression's flag `i`. -/
structure Casing where
  lower : Text → Text
  fold : Char → Char

/-- `[a-z0-9+.-]`, without regard to case. -/
def isSchemeChar (c : Char) : Bool := c.isAlphanum || c == '+' || c == '.' || c == '-'

/-- The text after `^[a-z][a-z0-9+.-]*:\/\/`. -/
def afterScheme : Text → Option Text
  | [] => none
  | c :: s =>
    if c.isAlpha then
      match s.dropWhile isSchemeChar with
      | ':' :: '/' :: '/' :: rest => some rest
      | _ => none
    else none

/-- The text after `^[^/@]+@`. -/
def afterUser (s : Text) : Option Text :=
  match s.takeWhile (fun c => c != '/' && c != '@'), s.dropWhile (fun c => c != '/' && c != '@') with
  | _ :: _, '@' :: rest => some rest
  | _, _ => none

/-- `^([^/:]+):`, and the text after it. -/
def afterHost (s : Text) : Option (Text × Text) :=
  match s.takeWhile (fun c => c != '/' && c != ':'), s.dropWhile (fun c => c != '/' && c != ':') with
  | h :: host, ':' :: rest => some (h :: host, rest)
  | _, _ => none

/-- A remote is `scheme://…` or `user@host:path`. -/
def isRemoteUrl (url : Text) : Bool :=
  (afterScheme (trimChars url)).isSome || ((afterUser (trimChars url)).bind afterHost).isSome

structure CanonicalRepo where
  host : Text
  owner : Text
  repo : Text
deriving DecidableEq

/-- `.` does not match a line terminator. -/
def isLineTerminator (c : Char) : Bool :=
  c == '\n' || c == '\r' || c.toNat == 0x2028 || c.toNat == 0x2029

/-- `(.+)$`. -/
def wholeLine (t : Text) : Option Text := if t ≠ [] ∧ t.all (fun c => !isLineTerminator c) then some t else none

/-- The part up to an `@` before the first slash is no part of the host. -/
def stripUserinfo (rest : Text) : Text :=
  if '@' ∈ rest.takeWhile (fun c => c != '/') then (rest.dropWhile (fun c => c != '@')).tail else rest

/-- `.replace(/:\d+$/, '')`. -/
def dropPort (host : Text) : Text :=
  match host.rtakeWhile Char.isDigit, (host.rdropWhile Char.isDigit).getLast? with
  | _ :: _, some ':' => (host.rdropWhile Char.isDigit).dropLast
  | _, _ => host

/-- `^(?:[^/@]+@)?([^/:]+):(.+)$`: with the user when that matches, else without. -/
def scpParts (s : Text) : Option (Text × Text) :=
  let parts (t : Text) := (afterHost t).bind fun p => (wholeLine p.2).map fun path => (p.1, path)
  ((afterUser s).bind parts).or (parts s)

def hostAndPath (s : Text) : Option (Text × Text) :=
  match (afterScheme s).bind wholeLine with
  | some rest =>
    match (stripUserinfo rest).dropWhile (fun c => c != '/') with
    | '/' :: path => some (dropPort ((stripUserinfo rest).takeWhile fun c => c != '/'), path)
    | _ => none
  | none => scpParts s

def isSlash (c : Char) : Bool := c == '/'

/-- `.replace(/\.git$/i, '')`. -/
def stripGit (t : Text) : Text :=
  if (t.drop (t.length - 4)).map Char.toLower = ['.', 'g', 'i', 't'] then t.take (t.length - 4) else t

/-- The path's segments, without slashes at its ends and without `.git`. -/
def segments (path : Text) : List Text :=
  ((stripGit ((path.dropWhile isSlash).rdropWhile isSlash)).splitOn '/').filter (fun seg => seg ≠ [])

def canonicalizeRepo (cases : Casing) (url : Text) : Option CanonicalRepo :=
  match hostAndPath (trimChars url) with
  | none => none
  | some (host, path) =>
    if host = [] then none
    else match segments path with
      | owner :: r :: rs => some ⟨cases.lower host, owner, ['/'].intercalate (r :: rs)⟩
      | _ => none

/-- `segmentRegex(seg).test(text)`: a `*` matches one or more characters but no slash. -/
def segmentMatches (cases : Casing) : Text → Text → Bool
  | [], t => t.isEmpty
  | _ :: _, [] => false
  | p :: seg, c :: t =>
    if p = '*' then c != '/' && (segmentMatches cases seg t || segmentMatches cases (p :: seg) t)
    else cases.fold p == cases.fold c && segmentMatches cases seg t

def entryMatches (cases : Casing) (canon : CanonicalRepo) (raw : Text) : Bool :=
  match canonicalizeRepo cases raw with
  | none => false
  | some entry =>
    entry.host == canon.host && segmentMatches cases entry.owner canon.owner && segmentMatches cases
      entry.repo canon.repo

def isRepoAllowed (cases : Casing) (allowlist : List Text) (url : Text) : Bool :=
  if !isRemoteUrl url then true
  else match canonicalizeRepo cases url with
    | none => false
    | some canon => allowlist.any (entryMatches cases canon)

/-! ## The workspace -/

inductive GateError where
  | repoUrlCredentials
  | repoNotAllowed (label : Text)
  | workspaceRepoMismatch
  /-- The directory cannot be read. -/
  | unreadable
  /-- A NUL in a command. -/
  | invalidCommand
deriving DecidableEq

/-- `/^https?:\/\/[^/@]+@/i`. -/
def hasCredentials (url : Text) : Bool :=
  match afterScheme url with
  | none => false
  | some rest =>
    ((url.take (url.length - rest.length)).map Char.toLower == "http://".toList ||
      (url.take (url.length - rest.length)).map Char.toLower == "https://".toList) && (afterUser rest).isSome

def assertCleanRepoUrl (repoUrl : Text) : Except GateError Unit :=
  if hasCredentials (trimChars repoUrl) then .error .repoUrlCredentials else .ok ()

/-- The policy in force. -/
structure Policy where
  cases : Casing
  enforced : Bool
  allowlist : List Text

def assertRepoAllowed (policy : Policy) (url : Text) : Except GateError Unit :=
  if isRepoAllowed policy.cases policy.allowlist url then .ok ()
  else .error (.repoNotAllowed (match canonicalizeRepo policy.cases url with
    | some canon => canon.owner ++ '/' :: canon.repo
    | none => "(unrecognized remote URL)".toList))

def enforceRepoAllowlist (policy : Policy) (repoUrl : Text) : Except GateError Unit :=
  if policy.enforced then assertRepoAllowed policy repoUrl else .ok ()

/-- A workspace directory: its entries if it can be read, whether it has a `.git`, and what git says of its
    `origin`. -/
structure Workspace where
  entries : Option (List Text)
  dotGit : Bool
  origin : Option Text

def normalizeRepoUrl (url : Text) : Text := stripGit ((trimChars url).rdropWhile isSlash)

def readOriginUrl (w : Workspace) : Option Text := w.origin.map trimChars

def checkWorkspaceRepoMatch (policy : Policy) (w : Workspace) (repoUrl : Text) : Except GateError Unit := do
  assertCleanRepoUrl repoUrl
  enforceRepoAllowlist policy repoUrl
  match w.entries with
  | none => .error .unreadable
  | some [] => .ok ()
  | some (_ :: _) =>
    if !w.dotGit then .error .workspaceRepoMismatch
    else match readOriginUrl w with
      | none => .error .workspaceRepoMismatch
      | some existing =>
        if existing ≠ [] ∧ normalizeRepoUrl existing = normalizeRepoUrl repoUrl then .ok ()
        else .error .workspaceRepoMismatch

/-- The line that is handed to the shell. -/
def cloneCommand (repoUrl : Text) (branch : Option Text) : Text :=
  let branchFlag := match branch with
    | some (c :: b) => "--branch ".toList ++ (c :: b) ++ [' ']
    | _ => []
  "git clone --depth 1 ".toList ++ branchFlag ++ repoUrl ++ " .".toList

/-- What `cloneIfEmpty` runs: nothing when the workspace has entries.  A command with a NUL in it is refused
    before a shell sees it. -/
def cloneIfEmpty (policy : Policy) (w : Workspace) (repoUrl : Text) (branch : Option Text) :
    Except GateError (Option Text) := do
  assertCleanRepoUrl repoUrl
  enforceRepoAllowlist policy repoUrl
  checkWorkspaceRepoMatch policy w repoUrl
  if w.entries ≠ some [] then return none
  if '\x00' ∈ cloneCommand repoUrl branch then .error .invalidCommand
  return some (cloneCommand repoUrl branch)

/-! ## The words of a clone -/

/-- The words of the template. -/
def cloneWords (repoUrl : Text) (branch : Option Text) : List Text :=
  let flag := match branch with
    | some (c :: b) => ["--branch".toList, c :: b]
    | _ => []
  ["git".toList, "clone".toList, "--depth".toList, ['1']] ++ flag ++ [repoUrl, ['.']]

/-- The URL passes both gates. -/
structure Accepted (policy : Policy) (repoUrl : Text) : Prop where
  clean : assertCleanRepoUrl repoUrl = .ok ()
  allowed : enforceRepoAllowlist policy repoUrl = .ok ()

/-- Branch and URL are ordinary words, and the URL is no option. -/
structure Harmless (repoUrl : Text) (branch : Option Text) : Prop where
  url : Shell.OrdinaryWord repoUrl
  noOption : repoUrl.head? ≠ some '-'
  branch : ∀ b, branch = some b → b ≠ [] → Shell.OrdinaryWord b

theorem cloneCommand_join (repoUrl : Text) (branch : Option Text) :
    cloneCommand repoUrl branch = Shell.join (cloneWords repoUrl branch) := by
  unfold cloneCommand cloneWords
  rcases branch with - | (- | ⟨c, b⟩) <;> simp [Shell.join, List.intercalate]

theorem cloneWords_ordinary (repoUrl : Text) (branch : Option Text) :
    (∀ w ∈ cloneWords repoUrl branch, Shell.OrdinaryWord w) ↔
      Shell.OrdinaryWord repoUrl ∧ ∀ b, branch = some b → b ≠ [] → Shell.OrdinaryWord b := by
  constructor
  · intro h
    refine ⟨h repoUrl (by simp [cloneWords]), ?_⟩
    rintro (- | ⟨c, b⟩) rfl hne
    · exact absurd rfl hne
    · exact h (c :: b) (by simp [cloneWords])
  · rintro ⟨hurl, hbranch⟩ w hw
    have hfixed : ∀ v ∈ ["git".toList, "clone".toList, "--depth".toList, ['1'], "--branch".toList, ['.']],
        Shell.OrdinaryWord v := by
      simp only [List.forall_mem_cons]
      refine ⟨?_, ?_, ?_, ?_, ?_, ?_, fun v hv => nomatch hv⟩ <;>
        exact Shell.ordinaryWord_of_all (by decide) (by decide)
    by_cases hmem : w ∈ ["git".toList, "clone".toList, "--depth".toList, ['1'], "--branch".toList, ['.']]
    · exact hfixed w hmem
    · -- the words that are not the template's are the URL and the branch
      rcases branch with - | (- | ⟨c, b⟩)
      · obtain rfl : w = repoUrl := by
          simp only [cloneWords, List.mem_append, List.mem_cons] at hw hmem
          tauto
        exact hurl
      · obtain rfl : w = repoUrl := by
          simp only [cloneWords, List.mem_append, List.mem_cons] at hw hmem
          tauto
        exact hurl
      · have hor : w = repoUrl ∨ w = c :: b := by
          simp only [cloneWords, List.mem_append, List.mem_cons] at hw hmem
          tauto
        rcases hor with rfl | rfl
        · exact hurl
        · exact hbranch (c :: b) rfl (List.cons_ne_nil c b)

/-- An empty workspace is cloned into. -/
theorem cloneIfEmpty_empty {policy : Policy} {repoUrl : Text} (h : Accepted policy repoUrl) {branch : Option Text}
    (hnul : '\x00' ∉ cloneCommand repoUrl branch) (dotGit : Bool) (origin : Option Text) :
    cloneIfEmpty policy ⟨some [], dotGit, origin⟩ repoUrl branch = .ok (some (cloneCommand repoUrl branch)) := by
  unfold cloneIfEmpty checkWorkspaceRepoMatch
  simp [h.clean, h.allowed, hnul, bind, Except.bind, pure, Except.pure]

/-- What is run was let through, and is the command of the template. -/
theorem cloneIfEmpty_ok {policy : Policy} {w : Workspace} {repoUrl : Text} {branch : Option Text} {command : Text}
    (h : cloneIfEmpty policy w repoUrl branch = .ok (some command)) :
    Accepted policy repoUrl ∧ '\x00' ∉ cloneCommand repoUrl branch ∧ command = cloneCommand repoUrl branch := by
  unfold cloneIfEmpty at h
  obtain ⟨⟨⟩, hclean, h⟩ := VibeAdmission.bind_ok_iff.mp h
  obtain ⟨⟨⟩, hallowed, h⟩ := VibeAdmission.bind_ok_iff.mp h
  obtain ⟨⟨⟩, -, h⟩ := VibeAdmission.bind_ok_iff.mp h
  refine ⟨⟨hclean, hallowed⟩, ?_⟩
  by_cases hempty : w.entries ≠ some []
  · rw [if_pos hempty] at h
    exact nomatch Except.ok.inj h
  · rw [if_neg hempty] at h
    by_cases hnul : '\x00' ∈ cloneCommand repoUrl branch
    · rw [if_pos hnul] at h
      exact nomatch h
    · rw [if_neg hnul] at h
      exact ⟨hnul, (Option.some.inj (Except.ok.inj h)).symm⟩

/-- **CLONE COMMANDS.**  Whatever the workspace, the shell reads exactly the words of the template, with the
    URL as no option, just when each URL that passes both gates, in a command without a NUL, is an ordinary
    word beside a branch that is one. -/
theorem clone_command_iff (policy : Policy) (repoUrl : Text) (branch : Option Text) :
    (∀ w command, cloneIfEmpty policy w repoUrl branch = .ok (some command) →
      Shell.plainWords command = some (cloneWords repoUrl branch) ∧ repoUrl.head? ≠ some '-') ↔
      (Accepted policy repoUrl → '\x00' ∉ cloneCommand repoUrl branch → Harmless repoUrl branch) := by
  have hwords : Shell.plainWords (cloneCommand repoUrl branch) = some (cloneWords repoUrl branch) ↔
      Shell.OrdinaryWord repoUrl ∧ ∀ b, branch = some b → b ≠ [] → Shell.OrdinaryWord b := by
    rw [cloneCommand_join, Shell.plainWords_join_iff, cloneWords_ordinary]
    unfold cloneWords
    exact List.cons_ne_nil _ _
  constructor
  · intro h haccepted hnul
    obtain ⟨hplain, hoption⟩ := h _ _ (cloneIfEmpty_empty haccepted hnul false none)
    obtain ⟨hurl, hbranch⟩ := hwords.mp hplain
    exact ⟨hurl, hoption, hbranch⟩
  · intro h w command hrun
    obtain ⟨haccepted, hnul, rfl⟩ := cloneIfEmpty_ok hrun
    obtain ⟨hurl, hoption, hbranch⟩ := h haccepted hnul
    exact ⟨hwords.mpr ⟨hurl, hbranch⟩, hoption⟩

/-- ASCII letters only. -/
def asciiCasing : Casing := ⟨List.map Char.toLower, Char.toLower⟩

def githubPolicy : Policy := ⟨asciiCasing, true, ["https://github.com/JozzyAI/*".toList, "git@github.com:JozzyAI/*".toList]⟩

/-- The URL is on the allowlist; the branch is `main;id`, and the line is no simple command. -/
theorem branch_runs_command :
    Accepted githubPolicy "https://github.com/JozzyAI/x".toList ∧
      cloneIfEmpty githubPolicy ⟨some [], false, none⟩ "https://github.com/JozzyAI/x".toList (some "main;id".toList) =
        .ok (some "git clone --depth 1 --branch main;id https://github.com/JozzyAI/x .".toList) ∧
      Shell.plainWords "git clone --depth 1 --branch main;id https://github.com/JozzyAI/x .".toList ≠
        some (cloneWords "https://github.com/JozzyAI/x".toList (some "main;id".toList)) :=
  ⟨⟨by decide +kernel, by decide +kernel⟩, by decide +kernel, by decide +kernel⟩

end VibeRepo
