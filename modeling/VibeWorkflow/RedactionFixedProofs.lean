import VibeWorkflow.CanonicalProofs
import VibeWorkflow.RedactionProofs
import VibeWorkflow.ReplacementProofs

/-!
# Redacting what is redacted

A run record is redacted on every write, so what the redactor makes of its own output matters.  No rule
brings back a match of a token rule, and each rule that drops a run leaves a text in which the run is the
mark; only the credentials of a URL are looked for before two rules that can join what stood apart.

* `rules_eq` — the rules by name;
* **`redact_token`** — no token is left, whatever the later rules do;
* **`redact_again`** — a second redaction is the replacement of URL credentials alone;
* **`redaction_settles`** — the second redaction is the last one to change anything.
-/

namespace VibeRedaction

open VibeJson Patterns

/-! ## The rules by name -/

def gitHubToken : Rule := ⟨[], [word "gh", .one (among "posru"), word "_", .many 20 Char.isAlphanum], ""⟩

def fineGrainedToken : Rule := ⟨[], [word "github_pat_", .many 20 isWord], ""⟩

def awsKey : Rule := ⟨[], word "AKIA" :: List.replicate 16 (.one fun c => c.isDigit || c.isUpper), ""⟩

def openAiKey : Rule := ⟨[], [word "sk-", .many 20 fun c => isWord c || c == '-'], ""⟩

def bearer : Rule := ⟨[word "Bearer "], [.many 1 fun c => c.isAlphanum || among "-._~+/" c, .many 0 (· == '=')], ""⟩

def inUserinfo (c : Char) : Bool := !isSpace c && !among "/@" c

def urlScheme : List Atom := [word "http", .alts false ["s", ""], word "://"]

def userinfo : Rule := ⟨urlScheme, [.many 1 inUserinfo, word "@"], "@"⟩

def nonSpace (c : Char) : Bool := !isSpace c

def assignment : Rule :=
  ⟨[.boundary, .alts true tokenNames, .boundary, .many 0 isSpace, .one (among "=:"), .many 0 isSpace], [.many 1 nonSpace], ""⟩

def isSeparator (c : Char) : Bool := c == '=' || isSpace c

def argument : Rule := ⟨[word "--token", .many 1 isSeparator], [.many 1 nonSpace], ""⟩

def inQuery (c : Char) : Bool := !isSpace c && !among "&\"'" c

def queryName : List Atom := [.one (among "?&"), .alts true ["token="]]

def query : Rule := ⟨queryName, [.many 1 inQuery], ""⟩

def pemHeader : List Atom := [word "-----BEGIN ", .alts false ["RSA ", "EC ", ""], word "PRIVATE KEY-----"]

def privateKey : Rule := ⟨[], pemHeader, ""⟩

theorem rules_eq : rules = [gitHubToken, fineGrainedToken, awsKey, openAiKey, bearer, userinfo,
    assignment, argument, query,
    privateKey] := rfl

/-- The rules for the tokens of GitHub, AWS and OpenAI. -/
def tokenRules : List Rule := [gitHubToken, fineGrainedToken, awsKey, openAiKey]

theorem no_suffix : "".toList = [] := rfl

theorem mark_classes : mark.all (fun c => nonSpace c && (inQuery c && inUserinfo c)) = true := by decide

/-- The mark is a run of every class. -/
theorem mark_chars (c : Char) (hc : c ∈ mark) : nonSpace c = true ∧ inQuery c = true ∧ inUserinfo c = true := by
  obtain ⟨hspace, hrest⟩ := Bool.and_eq_true_iff.mp (List.all_eq_true.mp mark_classes c hc)
  exact ⟨hspace, Bool.and_eq_true_iff.mp hrest⟩

/-! ## Rules that remove their matches -/

/-- A rule without a suffix and a boundary whose texts are apart from the mark, and which keeps one word. -/
structure Removes (r : Rule) (w : Text) : Prop where
  kept : ∀ k, Spells r.kept k → k = w
  inner : Inner r.kept
  innerDropped : Inner r.dropped
  aloof : aloof mark (r.kept ++ r.dropped) = true
  drop : ¬ Spells r.dropped []
  suffix : r.suffix.toList = []

theorem Removes.absent {r : Rule} {w : Text} (hr : Removes r w) (s : Text) :
    Absent (r.kept ++ r.dropped) (r.replaceAll mark s) :=
  replaceAll_absent hr.inner hr.innerDropped hr.aloof hr.drop hr.suffix
    (fun k hk => congrArg List.length (hr.kept k hk)) s

theorem Removes.replaced {r : Rule} {w : Text} (hr : Removes r w) (s : Text) :
    Replaced Something mark [] s (r.replaceAll mark s) :=
  replaceAll_something hr.drop hr.suffix mark s

/-- The patterns whose texts are apart from the mark: the whole ones of the rules that remove their matches, and what
    the others keep. -/
def aloofPatterns : List (List Atom) :=
  [gitHubToken, fineGrainedToken, awsKey, openAiKey, bearer, privateKey].map (fun r => r.kept ++ r.dropped) ++
    [urlScheme, assignment.kept, argument.kept, query.kept]

theorem patterns_aloof : aloofPatterns.all (aloof mark) = true := by decide

theorem aloof_of {atoms : List Atom} (h : atoms ∈ aloofPatterns) : aloof mark atoms = true :=
  List.all_eq_true.mp patterns_aloof atoms h

theorem not_spells_nil {atoms : List Atom} (h : atoms ∈ aloofPatterns) : ¬ Spells atoms [] := fun hk =>
  (aloof_apart (aloof_of h) hk).ne_nil rfl

theorem inner_of {atoms : List Atom} (h : atoms.all (fun a => !a.isBoundary) = true) : Inner atoms := fun a ha => by
  have hnot := List.all_eq_true.mp h a ha
  cases hb : a.isBoundary with
  | false => rfl
  | true =>
    rw [hb] at hnot
    exact nomatch hnot

theorem removes_of {atoms : List Atom} (hinner : atoms.all (fun a => !a.isBoundary) = true)
    (haloof : atoms ∈ aloofPatterns) :
    Removes ⟨[], atoms, ""⟩ [] where
  kept _ hk := hk
  inner := nofun
  innerDropped := inner_of hinner
  aloof := aloof_of haloof
  drop := not_spells_nil haloof
  suffix := no_suffix

theorem gitHubToken_removes : Removes gitHubToken [] := removes_of rfl (.head _)

theorem fineGrainedToken_removes : Removes fineGrainedToken [] := removes_of rfl (.tail _ (.head _))

theorem awsKey_removes : Removes awsKey [] := removes_of rfl (.tail _ (.tail _ (.head _)))

theorem openAiKey_removes : Removes openAiKey [] := removes_of rfl (.tail _ (.tail _ (.tail _ (.head _))))

theorem bearer_removes : Removes bearer "Bearer ".toList where
  kept := by
    rintro _ ⟨x, y, rfl, hx, rfl⟩
    rw [List.append_nil]
    exact spells_word.mp hx
  inner := inner_of rfl
  innerDropped := inner_of rfl
  aloof := aloof_of (.tail _ (.tail _ (.tail _ (.tail _ (.head _)))))
  drop := by
    rintro ⟨x, y, heq, ⟨hlen, -⟩, -⟩
    rw [(List.append_eq_nil_iff.mp heq.symm).1] at hlen
    exact nomatch hlen
  suffix := no_suffix

theorem privateKey_removes : Removes privateKey [] := removes_of rfl
    (.tail _ (.tail _ (.tail _ (.tail _ (.tail _ (.head _))))))

theorem scheme_listed : urlScheme ∈ aloofPatterns := List.mem_append_right _ (.head _)

theorem assignment_listed : assignment.kept ∈ aloofPatterns := List.mem_append_right _ (.tail _ (.head _))

theorem argument_listed : argument.kept ∈ aloofPatterns := List.mem_append_right _ (.tail _ (.tail _ (.head _)))

theorem query_listed : query.kept ∈ aloofPatterns := List.mem_append_right _ (.tail _ (.tail _ (.tail _ (.head _))))

/-! ## Characters -/

/-- The characters of a word by their code points. -/
theorem isWord_codes {c : Char} (h : isWord c = true) : 48 ≤ c.toNat ∧ c.toNat ≤ 122 := by
  unfold isWord Char.isAlphanum Char.isAlpha Char.isUpper Char.isLower Char.isDigit at h
  simp only [Bool.or_eq_true, Bool.and_eq_true, decide_eq_true_eq, beq_iff_eq, UInt32.le_iff_toNat_le, ge_iff_le] at h
  have hcode : c.val.toNat = c.toNat := rfl
  rw [hcode] at h
  have hletters : 'A'.val.toNat = 65 ∧ 'Z'.val.toNat = 90 ∧ 'a'.val.toNat = 97 ∧
    'z'.val.toNat = 122 := ⟨rfl, rfl, rfl, rfl⟩
  have hdigits : '0'.val.toNat = 48 ∧ '9'.val.toNat = 57 := ⟨rfl, rfl⟩
  rcases h with h | rfl
  · omega
  · decide

theorem word_nonSpace {c : Char} (h : isWord c = true) : nonSpace c = true := by
  obtain ⟨hlow, hhigh⟩ := isWord_codes h
  have hall : ∀ n < 123, 48 ≤ n → [9, 10, 11, 12, 13, 32, 160, 5760, 8232, 8233, 8239, 8287, 12288,
    65279].contains n = false ∧
      (decide (8192 ≤ n) && decide (n ≤ 8202)) = false := by decide
  obtain ⟨hlist, hrange⟩ := hall c.toNat (by omega) hlow
  unfold nonSpace isSpace
  rw [hlist, hrange]
  rfl

/-- Folding the case keeps the characters of words apart from the others. -/
theorem isWord_toLower (c : Char) : isWord c.toLower = isWord c := by
  by_cases h : c.val ≥ 'A'.val ∧ c.val ≤ 'Z'.val
  · have hlow : 65 ≤ c.toNat := UInt32.le_iff_toNat_le.mp h.1
    have hhigh : c.toNat ≤ 90 := UInt32.le_iff_toNat_le.mp h.2
    have hall : ∀ n < 91, 65 ≤ n → isWord (Char.ofNat n).toLower = isWord (Char.ofNat n) := by decide
    have hc := hall c.toNat (by omega) hlow
    rwa [Char.ofNat_toNat] at hc
  · unfold Char.toLower
    rw [dif_neg h]

theorem fold_isWord {a c : Char} (h : same true a c = true) : isWord c = isWord a := by
  rw [← isWord_toLower c, ← isWord_toLower a, eq_of_beq h]

/-! ## What the rules keep -/

theorem scheme_form {k : Text} (h : Spells urlScheme k) : ∃ s ∈ ["s", ""], k = "http".toList ++ (s.toList ++ "://".toList) := by
  obtain ⟨x, _, rfl, hx, y, _, rfl, ⟨s, hs, hy⟩, z, _, rfl, hz, rfl⟩ := h
  have hy : y = s.toList := spells_word.mp ⟨s, List.mem_singleton.mpr rfl, hy⟩
  exact ⟨s, hs, by rw [spells_word.mp hx, hy, spells_word.mp hz, List.append_nil]⟩

theorem argument_form {k : Text} (h : Spells argument.kept k) :
    ∃ sep, k = "--token".toList ++ sep ∧ sep ≠ [] ∧ ∀ c ∈ sep, isSeparator c = true := by
  obtain ⟨x, _, rfl, hx, sep, _, rfl, ⟨hlen, hall⟩, rfl⟩ := h
  refine ⟨sep, by rw [spells_word.mp hx, List.append_nil], ?_, hall⟩
  rintro rfl
  exact nomatch hlen

theorem query_form {k : Text} (h : Spells query.kept k) : ∃ c n e, k = c :: (n ++ [e]) ∧ among "?&" c = true ∧
    List.Forall₂ (fun a b => same true a b = true) "token".toList n ∧ same true '=' e = true := by
  obtain ⟨_, _, rfl, ⟨c, rfl, hc⟩, m, _, rfl, ⟨w, hw, hall⟩, rfl⟩ := h
  obtain rfl := List.mem_singleton.mp hw
  rw [show "token=".toList = "token".toList ++ ['='] by decide] at hall
  obtain ⟨n, e, rfl, hn, he⟩ := forall₂_concat hall
  exact ⟨c, n, e, by simp, hc, hn, he⟩

/-- The parts of an assignment up to the value. -/
theorem assignment_form {k : Text} : Spells assignment.kept k ↔ ∃ n w c w', k = n ++ (w ++ c :: w') ∧
    (Atom.alts true tokenNames).Spells n ∧ (∀ y ∈ w, isSpace y = true) ∧ among "=:" c = true ∧ ∀ y ∈ w', isSpace y = true := by
  constructor
  · rintro ⟨_, _, rfl, rfl, n, _, rfl, hn, _, _, rfl, rfl, w, _, rfl, ⟨-, hw⟩, _, _, rfl, ⟨c, rfl, hc⟩,
      w', _, rfl, ⟨-, hw'⟩, rfl⟩
    exact ⟨n, w, c, w', by simp, hn, hw, hc, hw'⟩
  · rintro ⟨n, w, c, w', rfl, hn, hw, hc, hw'⟩
    exact ⟨[], _, rfl, rfl, n, _, rfl, hn, [], _, rfl, rfl, w, _, rfl, ⟨Nat.zero_le _, hw⟩, [c], _, rfl,
      ⟨c, rfl, hc⟩, w', [],
      by simp, ⟨Nat.zero_le _, hw'⟩, rfl⟩

theorem separator_not_word {c : Char} (h : isSeparator c = true) : isWord c = false := by
  cases hc : isWord c with
  | false => rfl
  | true =>
    have hspace := word_nonSpace hc
    rcases Bool.or_eq_true_iff.mp h with heq | hs
    · rw [eq_of_beq heq] at hc
      exact nomatch hc
    · unfold nonSpace at hspace
      rw [hs] at hspace
      exact nomatch hspace

theorem name_words {n : Text} (h : (Atom.alts true tokenNames).Spells n) :
    (∀ c ∈ n, isWord c = true) ∧ n ≠ [] := by
  obtain ⟨w, hw, hall⟩ := h
  have hnames : tokenNames.all (fun w => w.toList.all isWord && !w.toList.isEmpty) = true := by decide
  have hwords : ∀ w ∈ tokenNames, (∀ c ∈ w.toList, isWord c = true) ∧ w.toList ≠ [] := by
    intro w hw
    obtain ⟨hall, hempty⟩ := Bool.and_eq_true_iff.mp (List.all_eq_true.mp hnames w hw)
    refine ⟨List.all_eq_true.mp hall, fun hnil => ?_⟩
    rw [hnil] at hempty
    exact nomatch hempty
  constructor
  · intro c hc
    obtain ⟨a, ha, hsame⟩ := forall₂_right hall c hc
    rw [fold_isWord hsame]
    exact (hwords w hw).1 a ha
  · rintro rfl
    cases hall' : w.toList with
    | nil => exact (hwords w hw).2 hall'
    | cons a as =>
      rw [hall'] at hall
      exact nomatch hall

theorem assignment_run : assignment.DropsRun nonSpace where
  dropped := rfl
  suffix := no_suffix
  kept := not_spells_nil assignment_listed

theorem argument_run : argument.DropsRun nonSpace where
  dropped := rfl
  suffix := no_suffix
  kept := not_spells_nil argument_listed

theorem query_run : query.DropsRun inQuery where
  dropped := rfl
  suffix := no_suffix
  kept := not_spells_nil query_listed

/-! ## What the rules establish at their sites -/

/-- The name of a variable, after a character that is no word's, with the sign behind it. -/
def AssignmentSite (a : Option Char) (k : Text) : Prop := a.any isWord = false ∧ Spells assignment.kept k

def Assignments (s : Text) : Prop := Clean AssignmentSite (Masked nonSpace mark) none s

/-- A value that is the mark, or only separators with something else behind them. -/
def ArgumentGood (s : Text) : Prop :=
  (s.head? = some '=' → ∃ x ∈ s, isSeparator x = false) ∧ (s.head? ≠ some '=' → Masked nonSpace mark s)

def Arguments (s : Text) : Prop := Clean (fun _ k => Spells argument.kept k) ArgumentGood none s

def Queries (s : Text) : Prop := Clean (fun _ k => Spells query.kept k) (Masked inQuery mark) none s

theorem masked_mark {p : Char → Bool} {out : Text} (hp : ∀ c ∈ mark, p c = true) (hout : out.takeWhile p = []) :
    Masked p mark (mark ++ out) := by
  right
  rw [List.takeWhile_append_of_pos hp, hout, List.append_nil]

theorem head_stops {p : Char → Bool} {c : Char} {s : Text} (h : p c = false) : (c :: s).takeWhile p = [] :=
  takeWhile_nil.mpr fun _ hx => Option.some.inj hx ▸ h

theorem space_stops {c : Char} (h : isSpace c = true) (s : Text) : (c :: s).takeWhile nonSpace = [] :=
  head_stops (by unfold nonSpace; rw [h]; rfl)

theorem signs : "=:".toList.all (fun c => !isWord c && !isSpace c) = true := by decide

/-- The sign of an assignment is neither a word's character nor a space. -/
theorem sign_chars {c : Char} (h : among "=:" c = true) : isWord c = false ∧ isSpace c = false := by
  obtain ⟨hword, hspace⟩ := Bool.and_eq_true_iff.mp (List.all_eq_true.mp signs c (List.contains_iff_mem.mp h))
  exact ⟨(Bool.not_eq_true' _).mp hword, (Bool.not_eq_true' _).mp hspace⟩

theorem space_not_word {c : Char} (h : isSpace c = true) : isWord c = false :=
  separator_not_word (Bool.or_eq_true_iff.mpr (.inr h))

theorem space_not_sign {c : Char} (h : isSpace c = true) : among "=:" c = false := by
  cases hc : among "=:" c with
  | false => rfl
  | true =>
    rw [(sign_chars hc).2] at h
    exact nomatch h

/-- The name is surrounded by boundaries. -/
theorem assignment_matches {a : Option Char} {k post : Text} (h : AssignmentSite a k) :
    (k, post) ∈ matchesOf assignment.kept a (k ++ post) := by
  obtain ⟨ha, hk⟩ := h
  obtain ⟨n, w, c, w', rfl, hn, hw, hc, hw'⟩ := assignment_form.mp hk
  obtain ⟨hwords, hne⟩ := name_words hn
  have hinner : Inner [.many 0 isSpace, .one (among "=:"), .many 0 isSpace] := by
    intro b hb
    rcases List.mem_cons.mp hb with rfl | hb
    · rfl
    · rcases List.mem_cons.mp hb with rfl | hb
      · rfl
      · obtain rfl := List.mem_singleton.mp hb
        rfl
  have hrest : Spells [.many 0 isSpace, .one (among "=:"), .many 0 isSpace] (w ++ c :: w') :=
    ⟨w, _, rfl, ⟨Nat.zero_le _, hw⟩, [c], w', rfl, ⟨c, rfl, hc⟩, w', [], (List.append_nil w').symm,
      ⟨Nat.zero_le _, hw'⟩, rfl⟩
  have hlast : (lastOf a n).any isWord = true := by
    unfold lastOf
    rw [List.getLast?_eq_some_getLast hne]
    exact hwords _ (List.getLast_mem hne)
  have hsign : ((w ++ c :: w') ++ post).head?.any isWord = false := by
    cases w with
    | nil => exact (sign_chars hc).1
    | cons y ys => exact space_not_word (hw y List.mem_cons_self)
  have hhead : ((n ++ (w ++ c :: w')) ++ post).head?.any isWord = true := by
    cases n with
    | nil => exact absurd rfl hne
    | cons x xs => exact hwords x List.mem_cons_self
  have hvalue := @mem_boundary (lastOf a n) _ _ _ (by rw [hlast, hsign]; exact Bool.noConfusion)
    ((mem_matchesOf hinner).mpr ⟨rfl, hrest⟩ : (w ++ c :: w', post) ∈ matchesOf _ (lastOf a n) ((w ++ c :: w') ++ post))
  have hname : (n, (w ++ c :: w') ++ post) ∈ (Atom.alts true tokenNames).ways a ((n ++ (w ++ c :: w')) ++ post) := by
    rw [List.append_assoc]
    exact spells_ways rfl hn
  exact mem_boundary (by rw [ha, hhead]; exact Bool.noConfusion) (mem_atom hname hvalue)

theorem assignments_clean (s : Text) : Assignments (assignment.replaceAll mark s) := by
  refine run_clean assignment_run (fun _ _ hk => aloof_apart (aloof_of assignment_listed) hk.2)
    (fun a k post hsite _ => assignment_matches hsite) (fun _ h => .inl h) ?_ ?_ s
  · -- a site in what a match keeps has the same sign
    rintro pre k y a out hkept ⟨-, hk⟩ hout
    obtain ⟨n, w, c, w', heq, hn, hw, hc, hw'⟩ := assignment_form.mp hkept
    obtain ⟨n₁, w₁, c₁, w₁', rfl, -, -, hc₁, -⟩ := assignment_form.mp hk
    have hname : ∀ b ∈ n ++ w, among "=:" b = false := by
      intro b hb
      rcases List.mem_append.mp hb with hb | hb
      · cases hsign : among "=:" b with
        | false => rfl
        | true =>
          have hword := (name_words hn).1 b hb
          rw [(sign_chars hsign).1] at hword
          exact nomatch hword
      · exact space_not_sign (hw b hb)
    have hsame : w' = w₁' ++ y := by
      refine @pivot_unique (among "=:") (n ++ w) w' (pre ++ (n₁ ++ w₁)) (w₁' ++ y) c c₁ ?_ hname
        (fun b hb => space_not_sign (hw' b hb)) hc₁
      simpa [List.append_assoc] using heq.symm
    cases y with
    | nil => exact masked_mark (fun c hc => (mark_chars c hc).1) hout
    | cons b y => exact .inl (space_stops (hw' b (hsame ▸ List.mem_append_right _ List.mem_cons_self)) _)
  · rintro a a' k post ⟨-, hk⟩ hstop
    obtain ⟨n, w, c, w', rfl, hn, -⟩ := assignment_form.mp hk
    obtain ⟨hwords, hne⟩ := name_words hn
    obtain ⟨x, xs, rfl⟩ := List.exists_cons_of_ne_nil hne
    have hx := takeWhile_nil.mp hstop x rfl
    rw [word_nonSpace (hwords x List.mem_cons_self)] at hx
    exact nomatch hx

theorem query_length {k : Text} (h : Spells query.kept k) : k.length = 7 := by
  obtain ⟨c, n, e, rfl, -, hn, -⟩ := query_form h
  rw [List.length_cons, List.length_append, ← hn.length_eq]
  rfl

theorem queries_clean (s : Text) : Queries (query.replaceAll mark s) := by
  refine run_clean query_run (fun _ _ hk => aloof_apart (aloof_of query_listed) hk)
    (fun a k post hsite _ => (mem_matchesOf (inner_of rfl)).mpr ⟨rfl, hsite⟩) (fun _ h => .inl h) ?_
    (fun _ _ _ _ hk _ => hk) s
  intro pre k y a out hkept hk hout
  have hlen := query_length hkept
  rw [List.length_append, List.length_append, query_length hk] at hlen
  obtain rfl : y = [] := List.eq_nil_of_length_eq_zero (by omega)
  exact masked_mark (fun c hc => (mark_chars c hc).2.1) hout

theorem token_pivot : "--token".toList = "--toke".toList ++ ['n'] ∧ "--toke".toList.all (fun a => !(a == 'n')) = true ∧
    isWord 'n' = true ∧ nonSpace '=' = true ∧ '[' ∈ mark ∧ isSeparator '[' = false := by decide

theorem separator_not_n {c : Char} (h : isSeparator c = true) : (c == 'n') = false := by
  cases hc : c == 'n' with
  | false => rfl
  | true =>
    have hword := separator_not_word h
    rw [eq_of_beq hc, token_pivot.2.2.1] at hword
    exact nomatch hword

/-- Separators in front of a mark are good. -/
theorem argument_good {y out : Text} (hy : ∀ c ∈ y, isSeparator c = true) (hout : out.takeWhile nonSpace = []) :
    ArgumentGood (y ++ (mark ++ out)) := by
  obtain ⟨-, -, -, heq, hopen, hnot⟩ := token_pivot
  constructor
  · exact fun _ => ⟨'[', List.mem_append_right _ (List.mem_append_left _ hopen), hnot⟩
  · intro hhead
    cases y with
    | nil => exact masked_mark (fun c hc => (mark_chars c hc).1) hout
    | cons c y =>
      rcases Bool.or_eq_true_iff.mp (hy c List.mem_cons_self) with hsign | hspace
      · exact absurd (congrArg some (eq_of_beq hsign)) hhead
      · exact .inl (space_stops hspace _)

theorem arguments_clean (s : Text) : Arguments (argument.replaceAll mark s) := by
  refine run_clean argument_run (fun _ _ hk => aloof_apart (aloof_of argument_listed) hk)
    (fun a k post hsite _ => (mem_matchesOf (inner_of rfl)).mpr ⟨rfl, hsite⟩) ?_ ?_ (fun _ _ _ _ hk _ => hk) s
  · intro s hs
    refine ⟨fun hhead => ?_, fun _ => .inl hs⟩
    have hnot := takeWhile_nil.mp hs '=' hhead
    rw [token_pivot.2.2.2.1] at hnot
    exact nomatch hnot
  · -- a site in what a match keeps starts with it
    intro pre k y a out hkept hk hout
    obtain ⟨sep, heq, -, hsep⟩ := argument_form hkept
    obtain ⟨sep₁, rfl, -, -⟩ := argument_form hk
    obtain ⟨hsplit, hpivot, -⟩ := token_pivot
    have hsame : sep = sep₁ ++ y := by
      refine @pivot_unique (· == 'n') "--toke".toList sep (pre ++ "--toke".toList) (sep₁ ++ y) 'n' 'n' ?_
        (fun a ha => (Bool.not_eq_true' _).mp (List.all_eq_true.mp hpivot a ha))
          (fun a ha => separator_not_n (hsep a ha)) rfl
      rw [hsplit] at heq
      simpa only [List.append_assoc, List.cons_append, List.nil_append, List.singleton_append] using heq.symm
    exact argument_good (fun c hc => hsep c (hsame ▸ List.mem_append_right _ hc)) hout

/-! ## What the rules leave -/

theorem assignments_same {s : Text} (h : Assignments s) : assignment.replaceAll mark s = s := by
  refine run_same assignment_run (fun a k post s hmem => ?_) h
  obtain ⟨rfl, hk⟩ := matchesOf_spells hmem
  obtain ⟨n, w, c, w', rfl, hn, -⟩ := assignment_form.mp hk
  refine ⟨?_, hk⟩
  obtain ⟨m, hm, -⟩ := List.mem_flatMap.mp hmem
  obtain ⟨hwords, hne⟩ := name_words hn
  obtain ⟨x, xs, rfl⟩ := List.exists_cons_of_ne_nil hne
  change m ∈ (if a.any isWord != isWord x then [([], _)] else []) at hm
  rw [hwords x List.mem_cons_self] at hm
  cases ha : a.any isWord with
  | false => rfl
  | true =>
    rw [ha] at hm
    exact nomatch hm

theorem queries_same {s : Text} (h : Queries s) : query.replaceAll mark s = s :=
  run_same query_run (fun _ _ _ _ hmem => (matchesOf_spells hmem).2) h

/-- The longest separator is tried first, so a value starts with no sign unless nothing else is left. -/
theorem arguments_same {s : Text} (h : Arguments s) : argument.replaceAll mark s = s := by
  refine Rule.replaceAll_same fun pre post k d rest hs hfind => ?_
  obtain ⟨-, hrun, hne⟩ := find_run argument_run hfind
  obtain ⟨hpost, hk, -⟩ := find_spells hfind
  obtain ⟨hsign, hother⟩ := h pre k (d ++ rest) (by rw [hs, hpost]) hk
  by_cases hhead : (d ++ rest).head? = some '='
  · exfalso
    obtain ⟨x, hx, hnot⟩ := hsign hhead
    obtain ⟨sep, rfl, hsep, hall⟩ := argument_form hk
    have hlong : (sep ++ (d ++ rest)).takeWhile isSeparator = sep ++ (d ++ rest).takeWhile isSeparator :=
      List.takeWhile_append_of_pos hall
    have hfirst : (sep ++ (d ++ rest)).takeWhile isSeparator ≠ [] := by
      rw [hlong]
      exact fun hnil => hsep (List.append_eq_nil_iff.mp hnil).1
    -- what is left when all separators are taken
    have hleft : ((sep ++ (d ++ rest)).dropWhile isSeparator).takeWhile nonSpace ≠ [] := by
      intro hnil
      cases htail : (sep ++ (d ++ rest)).dropWhile isSeparator with
      | nil =>
        have hin := List.takeWhile_append_dropWhile (p := isSeparator) (l := sep ++ (d ++ rest))
        rw [htail, List.append_nil] at hin
        have hall' := List.all_eq_true.mp (@List.all_takeWhile _ isSeparator (sep ++ (d ++ rest))) x
          (hin.symm ▸ List.mem_append_right _ hx)
        rw [hnot] at hall'
        exact nomatch hall'
      | cons c cs =>
        have hc := @List.head?_dropWhile_not _ isSeparator (sep ++ (d ++ rest))
        rw [htail] at hnil hc
        have hstop := takeWhile_nil.mp hnil c rfl
        unfold nonSpace at hstop
        have hc : isSeparator c = false := by simpa using hc
        unfold isSeparator at hc
        rw [(Bool.or_eq_false_iff.mp hc).2] at hstop
        exact nomatch hstop
    have hmatches := @matchesOf_word_run isSeparator (sep ++ (d ++ rest)) "--token" pre.getLast? hfirst
    rw [hpost, List.append_assoc] at hfind
    have hk := List.append_cancel_left (find_first argument_run hmatches hleft hfind)
    rw [hlong] at hk
    have hnil := List.append_cancel_left (hk.symm.trans (List.append_nil sep).symm)
    have hstop := takeWhile_nil.mp hnil '=' hhead
    exact nomatch hstop
  · rcases hother hhead with hnil | hmark
    · exact absurd (hrun.symm.trans hnil) hne
    · rw [argument_run.suffix, List.append_nil, ← hrun, hmark]

/-! ## Credentials in a URL -/

/-- Behind a scheme, the run that ends at the sign. -/
def UserinfoDrop : Drops := fun b d u => RunDrop urlScheme inUserinfo b d u ∧ u.head? = some '@'

/-- What stands before the sign, if it is there, is the mark. -/
def UserinfoGood (s : Text) : Prop := (s.dropWhile inUserinfo).head? = some '@' → Masked inUserinfo mark s

def Userinfos (s : Text) : Prop := Clean (fun _ k => Spells urlScheme k) UserinfoGood none s

theorem scheme_pivot : "://".toList = ':' :: ['/', '/'] ∧
    ["s", ""].all (fun s => ("http".toList ++ s.toList).all fun a => !(a == ':')) = true ∧
    "@".toList = ['@'] ∧ inUserinfo '/' = false ∧ inUserinfo '@' = false ∧ urlScheme.all (Atom.avoids '@') = true := by
  decide

theorem scheme_last {k : Text} (h : Spells urlScheme k) : k.getLast? = some '/' := by
  obtain ⟨s, -, rfl⟩ := scheme_form h
  rw [scheme_pivot.1, ← List.append_assoc, List.getLast?_append_of_ne_nil _ (List.cons_ne_nil _ _)]
  rfl

theorem dropWhile_append {p : Char → Bool} {x y : Text} (hx : ∀ c ∈ x, p c = true) (hy : y.takeWhile p = []) :
    (x ++ y).takeWhile p = x ∧ (x ++ y).dropWhile p = y := by
  have htake : (x ++ y).takeWhile p = x := by rw [List.takeWhile_append_of_pos hx, hy, List.append_nil]
  refine ⟨htake, ?_⟩
  have hsplit := List.takeWhile_append_dropWhile (p := p) (l := x ++ y)
  rw [htake] at hsplit
  exact List.append_cancel_left hsplit

theorem sign_stops (rest : Text) : ('@' :: rest).takeWhile inUserinfo = [] := head_stops scheme_pivot.2.2.2.2.1

theorem find_userinfo {before : Option Char} {s k d rest : Text} (h : userinfo.find before s = some (k, d, rest)) :
    ∃ run, d = run ++ ['@'] ∧ run ≠ [] ∧ (run ++ '@' :: rest).takeWhile inUserinfo = run ∧
      (run ++ '@' :: rest).dropWhile inUserinfo = '@' :: rest := by
  obtain ⟨-, -, run, _, rfl, ⟨hlen, hall⟩, y, _, rfl, hy, rfl⟩ := find_spells h
  refine ⟨run, by rw [spells_word.mp hy, scheme_pivot.2.2.1]; rfl, ?_, dropWhile_append hall (sign_stops rest)⟩
  rintro rfl
  exact nomatch hlen

theorem not_nil_userinfo : ¬ Spells userinfo.dropped [] := by
  rintro ⟨x, y, heq, ⟨hlen, -⟩, -⟩
  rw [(List.append_eq_nil_iff.mp heq.symm).1] at hlen
  exact nomatch hlen

theorem scan_userinfo {before : Option Char} {s out : Text} (h : Scan userinfo mark before s out) (b : Text) :
    Replaced UserinfoDrop mark b s out := by
  refine h.replaced (fun before s k d rest hfind => ?_) b
  obtain ⟨run, rfl, hne, hrun, -⟩ := find_userinfo hfind
  have hsuffix : userinfo.suffix.toList = ['@'] := scheme_pivot.2.2.1
  rw [hsuffix]
  exact ⟨run, rfl, fun b => ⟨⟨⟨k, (find_spells hfind).2.1, List.suffix_append b k⟩, hne, hrun⟩, rfl⟩⟩

theorem UserinfoDrop.ne_nil {b d u : Text} (h : UserinfoDrop b d u) : d ≠ [] := h.1.2.1

/-- A scheme that the rule passes has no credentials in the output either. -/
theorem userinfo_passed {before : Option Char} {b k post' post : Text}
    (hnone : userinfo.find before (k ++ post') = none)
    (hk : Spells urlScheme k) (h : Replaced UserinfoDrop mark (b ++ k) post' post) : UserinfoGood post := by
  have hinput : ∀ run rest, post' = run ++ '@' :: rest → (∀ c ∈ run, inUserinfo c = true) → run = [] := by
    rintro run rest rfl hall
    cases run with
    | nil => rfl
    | cons c cs =>
      have hsplit : k ++ (c :: cs ++ '@' :: rest) = k ++ ((c :: cs ++ ['@']) ++ rest) := by simp
      rw [hsplit] at hnone
      refine absurd ?_ (find_none (inner_of rfl) (inner_of rfl) hnone hk)
      exact ⟨c :: cs, ['@'], rfl, ⟨Nat.succ_le_succ (Nat.zero_le _), hall⟩, ['@'], [], rfl,
        spells_word.mpr scheme_pivot.2.2.1.symm, rfl⟩
  have hrun : ∀ c ∈ post'.takeWhile inUserinfo, inUserinfo c = true := List.all_eq_true.mp List.all_takeWhile
  have hstop : (post'.dropWhile inUserinfo).takeWhile inUserinfo = [] := by
    have hsplit := @List.takeWhile_append_of_pos _ inUserinfo _ (post'.dropWhile inUserinfo) hrun
    rw [List.takeWhile_append_dropWhile] at hsplit
    exact List.append_cancel_left (hsplit.symm.trans (List.append_nil _).symm)
  have hin := List.takeWhile_append_dropWhile (p := inUserinfo) (l := post')
  generalize post'.takeWhile inUserinfo = run at hrun hin
  generalize post'.dropWhile inUserinfo = rest at hstop hin
  subst hin
  obtain ⟨rest', rfl, hrest⟩ := h.pass (fun _ _ _ h => h.ne_nil) fun x₁ c x₂ hx d u' heq hdrop => by
    cases x₁ with
    | nil =>
      obtain ⟨hd, hsign⟩ := hdrop
      obtain ⟨tail, rfl⟩ : ∃ tail, u' = '@' :: tail := by
        cases u' with
        | nil => exact nomatch hsign
        | cons a tail => exact ⟨tail, by rw [Option.some.inj hsign]⟩
      have hall : ∀ a ∈ c :: d, inUserinfo a = true := by
        intro a ha
        rw [← hd.2.2] at ha
        exact List.all_eq_true.mp List.all_takeWhile a ha
      rw [show run = c :: x₂ from hx, heq] at hinput
      exact nomatch hinput (c :: d) tail rfl hall
    | cons a x₁ =>
      obtain ⟨⟨k', hk', hsuffix⟩, -⟩ := hdrop.1
      have hlast := last_of_suffix hsuffix (aloof_apart (aloof_of scheme_listed) hk').ne_nil (List.cons_ne_nil a x₁)
      rw [scheme_last hk'] at hlast
      have hmem := hrun '/' (hx ▸ List.mem_append_left _ (List.mem_of_getLast? hlast.symm))
      rw [scheme_pivot.2.2.2.1] at hmem
      exact nomatch hmem
  have hstop' := hrest.stopped (fun _ _ _ h => h.ne_nil) (fun c d u h => h.1.class) hstop
  obtain ⟨htake, hdrop⟩ := dropWhile_append hrun hstop'
  intro hsign
  rw [hdrop] at hsign
  left
  rcases hrest.head with hsame | ⟨d, u, v, rfl, -, hd, -⟩
  · rw [htake]
    cases rest with
    | nil =>
      rw [← hsame] at hsign
      exact nomatch hsign
    | cons a tail =>
      rw [← hsame] at hsign
      obtain rfl := Option.some.inj hsign
      exact hinput run tail rfl hrun
  · cases d with
    | nil => exact absurd rfl hd.ne_nil
    | cons a d =>
      have ha := takeWhile_nil.mp hstop a rfl
      rw [hd.1.class] at ha
      exact nomatch ha

theorem userinfos_clean (s : Text) : Userinfos (userinfo.replaceAll mark s) := by
  have hsuffix : userinfo.suffix.toList = ['@'] := scheme_pivot.2.2.1
  refine Scan.clean (fun _ _ hk => aloof_apart (aloof_of scheme_listed) hk) (fun _ _ _ b h => scan_userinfo h b)
    (fun before k post' post b hnone hk h => userinfo_passed hnone hk h) ?_ ?_ (replaceAll_scan not_nil_userinfo mark s)
  · -- a site in what a match keeps is all of it
    intro before s kept dropped rest out pre k y hfind _ heq hk
    obtain ⟨t, ht, hkept⟩ := scheme_form (find_spells hfind).2.1
    obtain ⟨t₁, -, rfl⟩ := scheme_form hk
    have hsame : ['/', '/'] = ['/', '/'] ++ y := by
      refine @pivot_unique (· == ':') ("http".toList ++ t.toList) ['/', '/'] (pre ++ ("http".toList ++ t₁.toList))
        (['/', '/'] ++ y) ':' ':' ?_ (fun a ha => (Bool.not_eq_true' _).mp (List.all_eq_true.mp
          (List.all_eq_true.mp scheme_pivot.2.1 t ht) a ha)) (fun a ha => ?_) rfl
      · rw [hkept, scheme_pivot.1] at heq
        simpa only [List.append_assoc, List.cons_append, List.nil_append] using heq
      · rcases List.mem_cons.mp ha with rfl | ha
        · rfl
        · obtain rfl := List.mem_singleton.mp ha
          rfl
    obtain rfl : y = [] := List.append_cancel_left (hsame.symm.trans (List.append_nil _).symm)
    rw [hsuffix]
    exact fun _ => masked_mark (fun c hc => (mark_chars c hc).2.2) (sign_stops out)
  · intro before s kept dropped rest out pre k post _ _ heq hk
    rw [hsuffix] at heq
    cases pre with
    | nil =>
      obtain ⟨x, xs, rfl⟩ := List.exists_cons_of_ne_nil (aloof_apart (aloof_of scheme_listed) hk).ne_nil
      obtain rfl := (List.cons.inj heq).1
      exact absurd List.mem_cons_self (spells_avoid scheme_pivot.2.2.2.2.2 hk)
    | cons c pre => exact ⟨pre, (List.cons.inj heq).2, hk⟩

theorem userinfos_same {s : Text} (h : Userinfos s) : userinfo.replaceAll mark s = s := by
  refine Rule.replaceAll_same fun pre post k d rest hs hfind => ?_
  obtain ⟨hpost, hk, -⟩ := find_spells hfind
  obtain ⟨run, rfl, hne, htake, hdrop⟩ := find_userinfo hfind
  have hgood := h pre k (run ++ '@' :: rest) (by rw [hs, hpost, List.append_assoc]; rfl) hk (by rw [hdrop]; rfl)
  have hsuffix : userinfo.suffix.toList = ['@'] := scheme_pivot.2.2.1
  rcases hgood with hnil | hmark
  · exact absurd (htake.symm.trans hnil) hne
  · rw [hsuffix, ← htake, hmark]

/-! ## What one rule leaves of what another one established -/

def PemDrop : Drops := fun _ d _ => Spells pemHeader d

theorem pem_ends : (∃ tail, "-----BEGIN ".toList = '-' :: tail) ∧ (∃ init, "PRIVATE KEY-----".toList = init ++ ['-']) ∧
    nonSpace '-' = true ∧ inQuery '-' = true ∧ isWord '-' = false ∧ '-' ∉ mark :=
  ⟨⟨"----BEGIN ".toList, by decide⟩, ⟨"PRIVATE KEY----".toList, by decide⟩, by decide⟩

theorem pem_form {d : Text} (h : Spells pemHeader d) : (∃ tail, d = '-' :: tail) ∧ d.getLast? = some '-' := by
  obtain ⟨⟨tail, htail⟩, ⟨init, hinit⟩, -⟩ := pem_ends
  obtain ⟨x, _, rfl, hx, y, _, rfl, -, z, _, rfl, hz, rfl⟩ := h
  rw [spells_word.mp hx, spells_word.mp hz, htail, hinit, List.append_nil]
  refine ⟨⟨_, rfl⟩, ?_⟩
  rw [← List.append_assoc, ← List.append_assoc, List.getLast?_concat]

theorem PemDrop.ne_nil {b d u : Text} (h : PemDrop b d u) : d ≠ [] := by
  obtain ⟨⟨tail, rfl⟩, -⟩ := pem_form h
  exact List.cons_ne_nil _ _

theorem PemDrop.first {b d u : Text} {c : Char} (h : PemDrop b (c :: d) u) : c = '-' := by
  obtain ⟨⟨tail, htail⟩, -⟩ := pem_form h
  exact (List.cons.inj htail).1

theorem privateKey_replaced (s : Text) : Replaced PemDrop mark [] s (privateKey.replaceAll mark s) := by
  refine (replaceAll_scan privateKey_removes.drop mark s).replaced
    (fun before s k d rest hfind => ⟨d, ?_, fun b => ?_⟩) []
  · rw [privateKey_removes.suffix, List.append_nil]
  · exact (find_spells hfind).2.2

theorem userinfo_replaced (s : Text) : Replaced UserinfoDrop mark [] s (userinfo.replaceAll mark s) :=
  scan_userinfo (replaceAll_scan not_nil_userinfo mark s) []

theorem userinfo_runs (s : Text) : Replaced (RunDrop urlScheme inUserinfo) mark [] s (userinfo.replaceAll mark s) :=
  (userinfo_replaced s).mono fun _ _ _ h => h.1

theorem mark_ends : '/' ∉ mark ∧ mark.all (fun c => !isSeparator c) = true ∧
    mark.all (fun c => !same true '=' c) = true := by
  decide

theorem scheme_ends (k : Text) (h : Spells urlScheme k) : ∃ c, k.getLast? = some c ∧ c ∉ mark :=
  ⟨'/', scheme_last h, mark_ends.1⟩

theorem argument_last {k : Text} (h : Spells argument.kept k) : ∃ c, k.getLast? = some c ∧ isSeparator c = true := by
  obtain ⟨sep, rfl, hne, hall⟩ := argument_form h
  refine ⟨sep.getLast hne, ?_, hall _ (List.getLast_mem hne)⟩
  rw [List.getLast?_append_of_ne_nil _ hne, List.getLast?_eq_some_getLast hne]

theorem argument_ends (k : Text) (h : Spells argument.kept k) : ∃ c, k.getLast? = some c ∧ c ∉ mark := by
  obtain ⟨c, hc, hsep⟩ := argument_last h
  refine ⟨c, hc, fun hmem => ?_⟩
  have hnot := List.all_eq_true.mp mark_ends.2.1 c hmem
  rw [hsep] at hnot
  exact nomatch hnot

theorem query_last {k : Text} (h : Spells query.kept k) : ∃ c, k.getLast? = some c ∧ same true '=' c = true := by
  obtain ⟨c, n, e, rfl, -, -, he⟩ := query_form h
  exact ⟨e, by rw [← List.cons_append, List.getLast?_concat], he⟩

theorem query_ends (k : Text) (h : Spells query.kept k) : ∃ c, k.getLast? = some c ∧ c ∉ mark := by
  obtain ⟨c, hc, hsign⟩ := query_last h
  refine ⟨c, hc, fun hmem => ?_⟩
  have hnot := List.all_eq_true.mp mark_ends.2.2 c hmem
  rw [hsign] at hnot
  exact nomatch hnot

/-- The header of a key is no part of a masked run. -/
theorem masked_after_pem {p : Char → Bool} {b u v : Text} (hp : ∀ c ∈ mark, p c = true) (hdash : p '-' = true)
    (h : Replaced PemDrop mark b u v) (hu : Masked p mark u) : Masked p mark v := by
  obtain ⟨-, -, -, -, -, hnot⟩ := pem_ends
  have hclass : ∀ b c d u, PemDrop b (c :: d) u → p c = true := by
    intro b c d u hdrop
    rw [hdrop.first]
    exact hdash
  refine hu.replaced (fun _ _ _ h => h.ne_nil) hp (hclass b) (hclass (b ++ mark)) ?_ ?_ h
  · intro x a y hmark _ d u hdrop
    exact hnot (hdrop.first ▸ hmark ▸ List.mem_append_right _ List.mem_cons_self)
  · intro d u hdrop hrun
    obtain ⟨⟨tail, rfl⟩, -⟩ := pem_form hdrop
    rw [List.cons_append, List.takeWhile_cons_of_pos hdash] at hrun
    exact absurd (hrun ▸ List.mem_cons_self) hnot

theorem nonSpace_of_query {c : Char} (h : inQuery c = true) : nonSpace c = true := (Bool.and_eq_true_iff.mp h).1

theorem nonSpace_of_userinfo {c : Char} (h : inUserinfo c = true) : nonSpace c = true := (Bool.and_eq_true_iff.mp h).1

/-- The characters of words are in every class of a run. -/
theorem word_classes {c : Char} (h : isWord c = true) : nonSpace c = true ∧ inQuery c = true ∧ inUserinfo c = true := by
  have hsigns : "&\"'".toList.all (fun c => !isWord c) = true ∧ "/@".toList.all (fun c => !isWord c) = true := by
    decide
  have hspace := word_nonSpace h
  have hnot : ∀ signs : String, signs.toList.all (fun c => !isWord c) = true →
      (!isSpace c && !among signs c) = true := by
    intro signs hall
    refine Bool.and_eq_true_iff.mpr ⟨hspace, ?_⟩
    cases hc : among signs c with
    | false => rfl
    | true =>
      have hword := List.all_eq_true.mp hall c (List.contains_iff_mem.mp hc)
      rw [h] at hword
      exact nomatch hword
  exact ⟨hspace, hnot _ hsigns.1, hnot _ hsigns.2⟩

/-- A name does not follow a dropped run at once. -/
theorem assignment_seam {kept : List Atom} {p : Char → Bool} (hword : ∀ c, isWord c = true → p c = true)
    (b d k post : Text) (a : Option Char) (h : RunDrop kept p b d (k ++ post)) (hsite : AssignmentSite a k) :
    AssignmentSite d.getLast? k := by
  obtain ⟨n, w, c, w', rfl, hn, -⟩ := assignment_form.mp hsite.2
  obtain ⟨hwords, hne⟩ := name_words hn
  obtain ⟨x, xs, rfl⟩ := List.exists_cons_of_ne_nil hne
  have hx := takeWhile_nil.mp h.stops x rfl
  rw [hword x (hwords x List.mem_cons_self)] at hx
  exact nomatch hx

theorem Assignments.after_run {kept : List Atom} {p : Char → Bool} {u v : Text}
    (hends : ∀ k, Spells kept k → ∃ c, k.getLast? = some c ∧ c ∉ mark) (hp : ∀ c ∈ mark, p c = true)
    (hword : ∀ c, isWord c = true → p c = true) (hsub : ∀ c, p c = true → nonSpace c = true)
    (h : Replaced (RunDrop kept p) mark [] u v) (hu : Assignments u) : Assignments v :=
  Clean.replaced (fun _ _ _ h => h.2.1) (fun _ _ hk => aloof_apart (aloof_of assignment_listed) hk.2)
    (assignment_seam hword)
    (fun _ _ _ _ _ _ hgood hpost => Masked.after_run hends (fun c hc => (mark_chars c hc).1) hp
      (fun _ _ _ => hsub) hpost hgood)
    h hu

theorem Assignments.after_pem {u v : Text} (h : Replaced PemDrop mark [] u v) (hu : Assignments u) : Assignments v := by
  refine Clean.replaced (fun _ _ _ h => h.ne_nil) (fun _ _ hk => aloof_apart (aloof_of assignment_listed) hk.2) ?_
    (fun _ _ _ _ _ _ hgood hpost => masked_after_pem (fun c hc => (mark_chars c hc).1) pem_ends.2.2.1 hpost hgood) h hu
  rintro b d k post a hdrop ⟨-, hk⟩
  rw [(pem_form hdrop).2]
  exact ⟨pem_ends.2.2.2.2.1, hk⟩

/-- Queries after the two rules that come behind theirs, and before it. -/
theorem Queries.after_pem {u v : Text} (h : Replaced PemDrop mark [] u v) (hu : Queries u) : Queries v :=
  Clean.replaced (fun _ _ _ h => h.ne_nil) (fun _ _ hk => aloof_apart (aloof_of query_listed) hk)
    (fun _ _ _ _ _ _ hk => hk)
    (fun _ _ _ _ _ _ hgood hpost => masked_after_pem
      (fun c hc => (mark_chars c hc).2.1) pem_ends.2.2.2.1 hpost hgood) h hu

theorem not_scheme_after {kept : List Atom} {b k d u : Text} (hk : Spells kept k) (hne : k ≠ [])
    (hlast : ∀ k, Spells kept k → k.getLast? ≠ some '/') : ¬ RunDrop urlScheme inUserinfo (b ++ k) d u := by
  rintro ⟨⟨k', hk', hsuffix⟩, -⟩
  have hsame := last_of_suffix hsuffix (aloof_apart (aloof_of scheme_listed) hk').ne_nil hne
  exact hlast k hk (hsame.symm.trans (scheme_last hk'))

theorem query_not_slash {k : Text} (h : Spells query.kept k) : k.getLast? ≠ some '/' := by
  intro hlast
  obtain ⟨c, hc, hsign⟩ := query_last h
  rw [hlast] at hc
  obtain rfl := Option.some.inj hc
  exact absurd hsign (by decide)

theorem argument_not_slash {k : Text} (h : Spells argument.kept k) : k.getLast? ≠ some '/' := by
  intro hlast
  obtain ⟨c, hc, hsep⟩ := argument_last h
  rw [hlast] at hc
  obtain rfl := Option.some.inj hc
  exact absurd hsep (by decide)

theorem Queries.after_userinfo {u v : Text} (h : Replaced (RunDrop urlScheme inUserinfo) mark [] u v) (hu : Queries u) :
    Queries v := by
  refine Clean.replaced (fun _ _ _ h => h.2.1) (fun _ _ hk => aloof_apart (aloof_of query_listed) hk)
    (fun _ _ _ _ _ _ hk => hk) ?_ h hu
  intro b _ k post' post hk hgood hpost
  have hne := (aloof_apart (aloof_of query_listed) hk).ne_nil
  exact Masked.after_run scheme_ends (fun c hc => (mark_chars c hc).2.1) (fun c hc => (mark_chars c hc).2.2)
    (fun d u hdrop => absurd hdrop (not_scheme_after hk hne fun _ => query_not_slash)) hpost hgood

/-- An argument stays good when nothing is dropped behind its separators, but for the header of a key. -/
theorem argument_after {D : Drops} {b u v : Text} (hD : ∀ b d u, D b d u → d ≠ [])
    (hfront : ∀ c d u, D b (c :: d) u → c = '-') (hmasked : Masked nonSpace mark u → Masked nonSpace mark v)
    (h : Replaced D mark b u v) (hu : ArgumentGood u) : ArgumentGood v := by
  obtain ⟨hsign, hother⟩ := hu
  obtain ⟨-, -, -, -, hopen, hnot⟩ := token_pivot
  rcases h.head with hsame | ⟨d, rest, v', rfl, rfl, hdrop, -⟩
  · constructor
    · intro hhead
      obtain ⟨x, hx, hsep⟩ := hsign (hsame.trans hhead)
      rcases h.marked_or_same with ⟨y, z, rfl⟩ | rfl
      · exact ⟨'[', List.mem_append_right _ (List.mem_append_left _ hopen), hnot⟩
      · exact ⟨x, hx, hsep⟩
    · exact fun hhead => hmasked (hother (hsame ▸ hhead))
  · constructor
    · intro hhead
      exact absurd (Option.some.inj hhead) (by decide)
    · intro _
      refine hmasked (hother ?_)
      cases d with
      | nil => exact absurd rfl (hD _ _ _ hdrop)
      | cons c d =>
        rw [hfront c d rest hdrop]
        exact fun hhead => absurd (Option.some.inj hhead) (by decide)

theorem Arguments.after_pem {u v : Text} (h : Replaced PemDrop mark [] u v) (hu : Arguments u) : Arguments v :=
  Clean.replaced (fun _ _ _ h => h.ne_nil) (fun _ _ hk => aloof_apart (aloof_of argument_listed) hk)
    (fun _ _ _ _ _ _ hk => hk)
    (fun _ _ _ _ _ _ hgood hpost => argument_after (fun _ _ _ h => h.ne_nil) (fun _ _ _ h => h.first)
      (masked_after_pem (fun c hc => (mark_chars c hc).1) pem_ends.2.2.1 hpost) hpost hgood) h hu

theorem Arguments.after_run {kept : List Atom} {p : Char → Bool} {u v : Text}
    (hends : ∀ k, Spells kept k → ∃ c, k.getLast? = some c ∧ c ∉ mark) (hp : ∀ c ∈ mark, p c = true)
    (hnot : ∀ b k d u, Spells argument.kept k → ¬ RunDrop kept p (b ++ k) d u)
    (h : Replaced (RunDrop kept p) mark [] u v) (hu : Arguments u) : Arguments v :=
  Clean.replaced (fun _ _ _ h => h.2.1) (fun _ _ hk => aloof_apart (aloof_of argument_listed) hk)
    (fun _ _ _ _ _ _ hk => hk)
    (fun _ _ _ _ _ hk hgood hpost => argument_after (fun _ _ _ h => h.2.1) (fun _ _ _ h => absurd h (hnot _ _ _ _ hk))
      (Masked.after_run hends (fun c hc => (mark_chars c hc).1) hp
        (fun _ _ h => absurd h (hnot _ _ _ _ hk)) hpost) hpost hgood)
    h hu

theorem token_letters : "--toke".toList = ['-'] ++ '-' :: "toke".toList ∧ "token".toList = "toke".toList ++ ['n'] ∧
    isWord '=' = false ∧ among "?&" '-' = false := by decide

/-- The separators of an argument are not the end of a query's name. -/
theorem not_query_after {b k d u : Text} (hk : Spells argument.kept k) : ¬ RunDrop query.kept inQuery (b ++ k) d u := by
  rintro ⟨⟨k', hk', t, ht⟩, -⟩
  obtain ⟨sep, rfl, -, hall⟩ := argument_form hk
  obtain ⟨c, n, e, rfl, hc, hn, he⟩ := query_form hk'
  obtain ⟨hdashes, htoken, hsign, hnot⟩ := token_letters
  obtain ⟨hsplit, -, hword, -⟩ := token_pivot
  rw [htoken] at hn
  obtain ⟨n, x, rfl, hn, hx⟩ := forall₂_concat hn
  have hpivot : t ++ c :: n = b ++ "--toke".toList := by
    refine @pivot_last isWord (t ++ c :: n) [e] (b ++ "--toke".toList) sep x 'n' ?_ ?_
      (fun a ha => separator_not_word (hall a ha)) ((fold_isWord hx).trans hword) hword
    · rw [hsplit] at ht
      simpa only [List.append_assoc, List.cons_append, List.nil_append, List.singleton_append] using ht
    · intro a ha
      obtain rfl := List.mem_singleton.mp ha
      exact (fold_isWord he).trans hsign
  have hparts : (t ++ [c]) ++ n = ((b ++ ['-']) ++ ['-']) ++ "toke".toList := by
    rw [hdashes] at hpivot
    simpa only [List.append_assoc, List.cons_append, List.nil_append, List.singleton_append] using hpivot
  have hdash := congrArg List.getLast? (List.append_inj' hparts hn.length_eq.symm).1
  rw [List.getLast?_concat, List.getLast?_concat] at hdash
  rw [Option.some.inj hdash, hnot] at hc
  exact nomatch hc

/-- A run of everything but spaces takes the sign with it. -/
theorem userinfo_after {kept : List Atom} {b u v : Text} (h : Replaced (RunDrop kept nonSpace) mark b u v)
    (hsign : (v.dropWhile inUserinfo).head? = some '@') :
    (u.dropWhile inUserinfo).head? = some '@' ∧ v.takeWhile inUserinfo = u.takeWhile inUserinfo := by
  induction h with
  | nil => exact nomatch hsign
  | @keep b c u v h ih =>
    cases hc : inUserinfo c with
    | true =>
      rw [List.dropWhile_cons_of_pos hc] at hsign ⊢
      obtain ⟨hsign', hrun⟩ := ih hsign
      rw [List.takeWhile_cons_of_pos hc, List.takeWhile_cons_of_pos hc, hrun]
      exact ⟨hsign', rfl⟩
    | false =>
      have hnot : ¬ inUserinfo c = true := by rw [hc]; exact Bool.false_ne_true
      rw [List.dropWhile_cons_of_neg hnot] at hsign ⊢
      rw [List.takeWhile_cons_of_neg hnot, List.takeWhile_cons_of_neg hnot]
      exact ⟨hsign, rfl⟩
  | @drop b d u v hd h ih =>
    have hstop := h.stopped (fun _ _ _ h => h.2.1) (fun _ _ _ h => h.class) hd.stops
    have hstop' : v.takeWhile inUserinfo = [] := by
      refine takeWhile_nil.mpr fun c hc => ?_
      cases hin : inUserinfo c with
      | false => rfl
      | true =>
        have hspace := takeWhile_nil.mp hstop c hc
        rw [nonSpace_of_userinfo hin] at hspace
        exact nomatch hspace
    rw [(dropWhile_append (fun c hc => (mark_chars c hc).2.2) hstop').2] at hsign
    exact absurd (takeWhile_nil.mp hstop '@' hsign) (by decide)

theorem Userinfos.after_run {kept : List Atom} {u v : Text} (h : Replaced (RunDrop kept nonSpace) mark [] u v)
    (hu : Userinfos u) : Userinfos v := by
  refine Clean.replaced (fun _ _ _ h => h.2.1) (fun _ _ hk => aloof_apart (aloof_of scheme_listed) hk)
    (fun _ _ _ _ _ _ hk => hk) ?_ h hu
  intro b _ k post' post _ hgood hpost hsign
  obtain ⟨hsign', hrun⟩ := userinfo_after hpost hsign
  unfold Masked
  rw [hrun]
  exact hgood hsign'

/-! ## A redacted text -/

/-- What the rules make of a text. -/
def redactText (s : Text) : Text := rules.foldl (fun out r => r.replaceAll mark out) s

theorem redactText_eq (s : Text) : redactText s =
    privateKey.replaceAll mark (query.replaceAll mark (argument.replaceAll mark (assignment.replaceAll mark
      (userinfo.replaceAll mark (bearer.replaceAll mark (openAiKey.replaceAll mark (awsKey.replaceAll mark
        (fineGrainedToken.replaceAll mark (gitHubToken.replaceAll mark s))))))))) := by
  unfold redactText
  rw [rules_eq]
  simp only [List.foldl_cons, List.foldl_nil]

theorem redact_text (s : String) : (redact s).toList = redactText s.toList := String.toList_ofList

/-- No rule drops nothing. -/
theorem rules_replaced {r : Rule} (hr : r ∈ rules) (s : Text) : Replaced Something mark [] s (r.replaceAll mark s) := by
  have hrun : ∀ {r p}, Rule.DropsRun r p → Replaced Something mark [] s (r.replaceAll mark s) := fun h =>
    (replaceAll_run h mark s).mono fun _ _ _ hd => hd.2.1
  rw [rules_eq] at hr
  simp only [List.mem_cons, List.not_mem_nil, or_false] at hr
  rcases hr with rfl | rfl | rfl | rfl | rfl | rfl | rfl | rfl | rfl | rfl
  · exact gitHubToken_removes.replaced s
  · exact fineGrainedToken_removes.replaced s
  · exact awsKey_removes.replaced s
  · exact openAiKey_removes.replaced s
  · exact bearer_removes.replaced s
  · exact (userinfo_replaced s).mono fun _ _ _ hd => hd.ne_nil
  · exact hrun assignment_run
  · exact hrun argument_run
  · exact hrun query_run
  · exact privateKey_removes.replaced s

theorem absent_rules {atoms : List Atom} (hatoms : atoms ∈ aloofPatterns) {rs : List Rule} (hrs : ∀ r ∈ rs, r ∈ rules)
    {s : Text} (hs : Absent atoms s) : Absent atoms (rs.foldl (fun out r => r.replaceAll mark out) s) := by
  induction rs generalizing s with
  | nil => exact hs
  | cons r rs ih =>
    refine ih (fun r' hr' => hrs r' (List.mem_cons_of_mem _ hr')) ?_
    exact hs.replaced (aloof_of hatoms) (fun _ _ _ h => h) (rules_replaced (hrs r List.mem_cons_self) s)

/-- **What a rule removes stays away** through the rules behind it. -/
theorem removed {r : Rule} {w : Text} (hr : r ∈ rules) (hremoves : Removes r w)
    (hlisted : r.kept ++ r.dropped ∈ aloofPatterns)
    (s : Text) : Absent (r.kept ++ r.dropped) (redactText s) := by
  obtain ⟨before, after, hsplit⟩ := List.append_of_mem hr
  unfold redactText
  rw [hsplit, List.foldl_append, List.foldl_cons]
  exact absent_rules hlisted (fun r' hr' => hsplit ▸ List.mem_append_right _ (List.mem_cons_of_mem _ hr'))
    (hremoves.absent _)

/-- What the rules but the one for credentials have nothing to do in. -/
structure Settled (s : Text) : Prop where
  gitHubToken : Absent gitHubToken.dropped s
  fineGrainedToken : Absent fineGrainedToken.dropped s
  awsKey : Absent awsKey.dropped s
  openAiKey : Absent openAiKey.dropped s
  bearer : Absent (bearer.kept ++ bearer.dropped) s
  privateKey : Absent pemHeader s
  assignments : Assignments s
  arguments : Arguments s
  queries : Queries s

theorem assignments_rest {s : Text} (h : Assignments s) :
    Assignments (privateKey.replaceAll mark (query.replaceAll mark (argument.replaceAll mark s))) := by
  have harguments := h.after_run argument_ends (fun c hc => (mark_chars c hc).1) (fun c hc => (word_classes hc).1)
    (fun _ hc => hc) (replaceAll_run argument_run mark s)
  have hqueries := harguments.after_run query_ends (fun c hc => (mark_chars c hc).2.1)
    (fun c hc => (word_classes hc).2.1)
    (fun _ hc => nonSpace_of_query hc) (replaceAll_run query_run mark _)
  exact hqueries.after_pem (privateKey_replaced _)

theorem arguments_rest {s : Text} (h : Arguments s) :
    Arguments (privateKey.replaceAll mark (query.replaceAll mark s)) :=
  (h.after_run query_ends (fun c hc => (mark_chars c hc).2.1) (fun _ _ _ _ hk => not_query_after hk)
    (replaceAll_run query_run mark s)).after_pem (privateKey_replaced _)

/-- **A redacted text is settled.** -/
theorem redactText_settled (s : Text) : Settled (redactText s) where
  gitHubToken := removed (.head _) gitHubToken_removes (.head _) s
  fineGrainedToken := removed (.tail _ (.head _)) fineGrainedToken_removes (.tail _ (.head _)) s
  awsKey := removed (.tail _ (.tail _ (.head _))) awsKey_removes (.tail _ (.tail _ (.head _))) s
  openAiKey := removed (.tail _ (.tail _ (.tail _ (.head _)))) openAiKey_removes
    (.tail _ (.tail _ (.tail _ (.head _)))) s
  bearer := removed (.tail _ (.tail _ (.tail _ (.tail _ (.head _))))) bearer_removes
    (.tail _ (.tail _ (.tail _ (.tail _ (.head _))))) s
  privateKey := by
    rw [redactText_eq]
    exact privateKey_removes.absent _
  assignments := by
    rw [redactText_eq]
    exact assignments_rest (assignments_clean _)
  arguments := by
    rw [redactText_eq]
    exact arguments_rest (arguments_clean _)
  queries := by
    rw [redactText_eq]
    exact (queries_clean _).after_pem (privateKey_replaced _)

/-- The replacement of credentials settles nothing anew. -/
theorem Settled.after_userinfo {s : Text} (h : Settled s) : Settled (userinfo.replaceAll mark s) := by
  have habsent : ∀ {atoms}, atoms ∈ aloofPatterns → Absent atoms s →
    Absent atoms (userinfo.replaceAll mark s) := fun ha hs =>
    hs.replaced (aloof_of ha) (fun _ _ _ hd => hd.ne_nil) (userinfo_replaced s)
  have hmark : ∀ c ∈ mark, inUserinfo c = true := fun c hc => (mark_chars c hc).2.2
  exact
    { gitHubToken := habsent (.head _) h.gitHubToken
      fineGrainedToken := habsent (.tail _ (.head _)) h.fineGrainedToken
      awsKey := habsent (.tail _ (.tail _ (.head _))) h.awsKey
      openAiKey := habsent (.tail _ (.tail _ (.tail _ (.head _)))) h.openAiKey
      bearer := habsent (.tail _ (.tail _ (.tail _ (.tail _ (.head _))))) h.bearer
      privateKey := habsent (.tail _ (.tail _ (.tail _ (.tail _ (.tail _ (.head _)))))) h.privateKey
      assignments := h.assignments.after_run scheme_ends hmark (fun c hc => (word_classes hc).2.2)
        (fun _ hc => nonSpace_of_userinfo hc) (userinfo_runs s)
      arguments := h.arguments.after_run scheme_ends hmark
        (fun _ _ _ _ hk => not_scheme_after hk (aloof_apart (aloof_of argument_listed) hk).ne_nil fun _
          => argument_not_slash)
        (userinfo_runs s)
      queries := h.queries.after_userinfo (userinfo_runs s) }

/-- A rule leaves a text without what it drops. -/
theorem same_of_absent {r : Rule} {s : Text} (h : Absent (r.kept ++ r.dropped) s) : r.replaceAll mark s = s := h.same

/-- **A second redaction** replaces credentials in URLs, and does nothing else. -/
theorem redact_again {s : Text} (h : Settled s) : redactText s = userinfo.replaceAll mark s := by
  have hrest := h.after_userinfo
  have hgitHub : gitHubToken.replaceAll mark s = s := same_of_absent h.gitHubToken
  have hfine : fineGrainedToken.replaceAll mark s = s := same_of_absent h.fineGrainedToken
  have haws : awsKey.replaceAll mark s = s := same_of_absent h.awsKey
  have hopenAi : openAiKey.replaceAll mark s = s := same_of_absent h.openAiKey
  have hbearer : bearer.replaceAll mark s = s := same_of_absent h.bearer
  have hpem : privateKey.replaceAll mark (userinfo.replaceAll mark s) = userinfo.replaceAll mark s :=
    same_of_absent hrest.privateKey
  rw [redactText_eq, hgitHub, hfine, haws, hopenAi, hbearer, assignments_same hrest.assignments,
    arguments_same hrest.arguments, queries_same hrest.queries, hpem]

/-! ## The credentials that are left -/

/-- No URL of the text has credentials, but for the mark. -/
def OnlyPlaceholders (text : String) : Prop := ∀ scheme info, Spells urlScheme scheme → info ≠ [] →
  (∀ c ∈ info, inUserinfo c = true) → scheme ++ (info ++ ['@']) <:+: text.toList → info = mark

theorem onlyPlaceholders_iff {text : String} : OnlyPlaceholders text ↔ Userinfos text.toList := by
  constructor
  · intro h pre k post heq hk hsign
    by_cases hnone : post.takeWhile inUserinfo = []
    · exact .inl hnone
    · right
      obtain ⟨rest, hrest⟩ : ∃ rest, post.dropWhile inUserinfo = '@' :: rest := by
        cases hdrop : post.dropWhile inUserinfo with
        | nil =>
          rw [hdrop] at hsign
          exact nomatch hsign
        | cons c rest =>
          rw [hdrop] at hsign
          exact ⟨rest, by rw [Option.some.inj hsign]⟩
      have hsplit := List.takeWhile_append_dropWhile (p := inUserinfo) (l := post)
      rw [hrest] at hsplit
      refine h k _ hk hnone (List.all_eq_true.mp List.all_takeWhile) ⟨pre, rest, ?_⟩
      conv_rhs => rw [heq, ← hsplit]
      simp only [List.append_assoc, List.cons_append, List.nil_append]
  · rintro h scheme info hscheme hne hall ⟨pre, post, heq⟩
    have hsite := h pre scheme (info ++ '@' :: post)
      (by rw [← heq]; simp only [List.append_assoc, List.cons_append, List.nil_append]) hscheme
    obtain ⟨htake, hdrop⟩ := dropWhile_append hall (sign_stops post)
    rcases hsite (by rw [hdrop]; rfl) with hnil | hmark
    · exact absurd (htake.symm.trans hnil) hne
    · rw [← htake, hmark]

theorem redact_redact (s : String) : (redact (redact s)).toList = userinfo.replaceAll mark (redact s).toList := by
  rw [redact_text (redact s), redact_again]
  rw [redact_text]
  exact redactText_settled _

/-- **A second redaction changes something** exactly where credentials are left. -/
theorem redact_same_iff (s : String) : redact (redact s) = redact s ↔ OnlyPlaceholders (redact s) := by
  rw [onlyPlaceholders_iff, ← String.toList_inj, redact_redact]
  constructor
  · intro h
    rw [← h]
    exact userinfos_clean _
  · exact fun h => userinfos_same h

/-- The second redaction leaves no credentials. -/
theorem redact_twice (s : String) : OnlyPlaceholders (redact (redact s)) := by
  rw [onlyPlaceholders_iff, redact_redact]
  exact userinfos_clean _

theorem redact_thrice (s : String) : redact (redact (redact s)) = redact (redact s) :=
  (redact_same_iff (redact s)).mpr (redact_twice s)

/-- Without the name of a query's token and the header of a key, the first redaction leaves none. -/
theorem redact_once {s : String} (hquery : Absent queryName s.toList) (hpem : Absent pemHeader s.toList) :
    OnlyPlaceholders (redact s) := by
  have hearly : ∀ {atoms}, atoms ∈ aloofPatterns → Absent atoms s.toList →
      Absent atoms ((rules.take 8).foldl (fun out r => r.replaceAll mark out) s.toList) := fun hatoms hs =>
    absent_rules hatoms (fun r hr => List.mem_of_mem_take hr) hs
  have height : (rules.take 8).foldl (fun out r => r.replaceAll mark out) s.toList =
      argument.replaceAll mark (assignment.replaceAll mark (userinfo.replaceAll mark (bearer.replaceAll mark
        (openAiKey.replaceAll mark (awsKey.replaceAll mark (fineGrainedToken.replaceAll mark
          (gitHubToken.replaceAll mark s.toList))))))) := by
    rw [rules_eq]
    simp only [List.take_succ_cons, List.take_zero, List.foldl_cons, List.foldl_nil]
  have hno : Absent query.kept _ := hearly query_listed hquery
  have hkey : Absent pemHeader _ := hearly (.tail _ (.tail _ (.tail _ (.tail _ (.tail _ (.head _)))))) hpem
  rw [height] at hno hkey
  rw [onlyPlaceholders_iff, redact_text, redactText_eq]
  rw [queries_same (fun pre k post heq hk => absurd hk (hno k ⟨pre, post, by rw [heq, List.append_assoc]⟩)),
    same_of_absent (r := privateKey) hkey]
  exact ((userinfos_clean _).after_run (replaceAll_run assignment_run mark _)).after_run
    (replaceAll_run argument_run mark _)

/-- **No token is left** by a redaction, whatever the rules behind its own do. -/
theorem redact_token (s : String) {r : Rule} (hr : r ∈ tokenRules) : Absent r.dropped (redact s).toList := by
  have hsettled := redactText_settled s.toList
  rw [redact_text]
  simp only [tokenRules, List.mem_cons, List.not_mem_nil, or_false] at hr
  rcases hr with rfl | rfl | rfl | rfl
  · exact hsettled.gitHubToken
  · exact hsettled.fineGrainedToken
  · exact hsettled.awsKey
  · exact hsettled.openAiKey

/-! ## Redacting a value -/

mutual

/-- The value with every string leaf empty. -/
def blank : Json → Json
  | .str _ => .str ""
  | .arr xs => .arr (blankElems xs)
  | .obj kvs => .obj (blankFields kvs)
  | v => v

def blankElems : List Json → List Json
  | [] => []
  | x :: xs => blank x :: blankElems xs

def blankFields : List (String × Json) → List (String × Json)
  | [] => []
  | (k, v) :: rest => (k, blank v) :: blankFields rest

end

mutual

/-- The string leaves of a value. -/
def leaves : Json → List String
  | .str s => [s]
  | .arr xs => leavesElems xs
  | .obj kvs => leavesFields kvs
  | _ => []

def leavesElems : List Json → List String
  | [] => []
  | x :: xs => leaves x ++ leavesElems xs

def leavesFields : List (String × Json) → List String
  | [] => []
  | (_, v) :: rest => leaves v ++ leavesFields rest

end

mutual

/-- **Redaction leaves every name and every leaf that is no string**, apart from properties named `__proto__`. -/
theorem blank_redactDeep (v : Json) : blank (redactDeep v) = blank (VibeCompiler.dropProto v) := by
  match v with
  | .str _ => rw [redactDeep, VibeCompiler.dropProto, blank, blank]
  | .arr xs =>
    rw [redactDeep, VibeCompiler.dropProto, blank, blank]
    exact congrArg Json.arr (blank_redactElems xs)
  | .obj kvs =>
    rw [redactDeep, VibeCompiler.dropProto, blank, blank]
    exact congrArg Json.obj (blank_redactFields kvs)
  | .null => rfl
  | .bool _ => rfl
  | .num _ => rfl

theorem blank_redactElems (xs : List Json) : blankElems (redactElems xs) =
    blankElems (VibeCompiler.dropProtoList xs) := by
  match xs with
  | [] => rfl
  | x :: xs =>
    rw [redactElems, VibeCompiler.dropProtoList, blankElems, blankElems, blank_redactDeep x, blank_redactElems xs]

theorem blank_redactFields (kvs : List (String × Json)) :
    blankFields (redactFields kvs) = blankFields (VibeCompiler.dropProtoFields kvs) := by
  match kvs with
  | [] => rfl
  | (k, v) :: rest =>
    by_cases hk : k = "__proto__"
    · rw [redactFields, VibeCompiler.dropProtoFields, if_pos hk, if_pos hk]
      exact blank_redactFields rest
    · rw [redactFields, VibeCompiler.dropProtoFields, if_neg hk, if_neg hk, blankFields, blankFields,
        blank_redactDeep v, blank_redactFields rest]

end

mutual

/-- A second redaction of a value changes it exactly where it changes one of the leaves. -/
theorem redactDeep_same_iff (v : Json) :
    redactDeep (redactDeep v) = redactDeep v ↔ ∀ s ∈ leaves (redactDeep v), redact s = s := by
  match v with
  | .str s =>
    rw [redactDeep, redactDeep, leaves, Json.str.injEq, List.forall_mem_singleton]
  | .arr xs =>
    rw [redactDeep, redactDeep, leaves, Json.arr.injEq]
    exact redactElems_same_iff xs
  | .obj kvs =>
    rw [redactDeep, redactDeep, leaves, Json.obj.injEq]
    exact redactFields_same_iff kvs
  | .null => exact ⟨fun _ _ h => (nomatch h), fun _ => rfl⟩
  | .bool _ => exact ⟨fun _ _ h => (nomatch h), fun _ => rfl⟩
  | .num _ => exact ⟨fun _ _ h => (nomatch h), fun _ => rfl⟩

theorem redactElems_same_iff (xs : List Json) :
    redactElems (redactElems xs) = redactElems xs ↔ ∀ s ∈ leavesElems (redactElems xs), redact s = s := by
  match xs with
  | [] => exact ⟨fun _ _ h => (nomatch h), fun _ => rfl⟩
  | x :: xs =>
    rw [redactElems, redactElems, leavesElems, List.cons.injEq, redactDeep_same_iff x, redactElems_same_iff xs,
      List.forall_mem_append]

theorem redactFields_same_iff (kvs : List (String × Json)) :
    redactFields (redactFields kvs) = redactFields kvs ↔ ∀ s ∈ leavesFields (redactFields kvs), redact s = s := by
  match kvs with
  | [] => exact ⟨fun _ _ h => (nomatch h), fun _ => rfl⟩
  | (k, v) :: rest =>
    by_cases hk : k = "__proto__"
    · rw [redactFields, if_pos hk]
      exact redactFields_same_iff rest
    · rw [redactFields_cons hk, redactFields_cons hk, List.cons.injEq, Prod.mk.injEq, redactFields_same_iff rest]
      rw [leavesFields, redactDeep_same_iff v, List.forall_mem_append]
      exact ⟨fun h => ⟨h.1.2, h.2⟩, fun h => ⟨⟨rfl, h.1⟩, h.2⟩⟩

end

mutual

/-- The leaves of a redacted value are redacted texts. -/
theorem leaves_redacted (v : Json) : ∀ s ∈ leaves (redactDeep v), ∃ t ∈ leaves v, s = redact t := by
  match v with
  | .str s =>
    rw [redactDeep, leaves, leaves]
    exact fun t ht => ⟨s, List.mem_singleton.mpr rfl, List.mem_singleton.mp ht⟩
  | .arr xs =>
    rw [redactDeep, leaves, leaves]
    exact leavesElems_redacted xs
  | .obj kvs =>
    rw [redactDeep, leaves, leaves]
    exact leavesFields_redacted kvs
  | .null => exact fun _ h => nomatch h
  | .bool _ => exact fun _ h => nomatch h
  | .num _ => exact fun _ h => nomatch h

theorem leavesElems_redacted (xs : List Json) : ∀ s ∈ leavesElems (redactElems xs),
    ∃ t ∈ leavesElems xs, s = redact t := by
  match xs with
  | [] => exact fun _ h => nomatch h
  | x :: xs =>
    intro s hs
    rcases List.mem_append.mp hs with hs | hs
    · obtain ⟨t, ht, heq⟩ := leaves_redacted x s hs
      exact ⟨t, List.mem_append_left _ ht, heq⟩
    · obtain ⟨t, ht, heq⟩ := leavesElems_redacted xs s hs
      exact ⟨t, List.mem_append_right _ ht, heq⟩

theorem leavesFields_redacted (kvs : List (String × Json)) :
    ∀ s ∈ leavesFields (redactFields kvs), ∃ t ∈ leavesFields kvs, s = redact t := by
  match kvs with
  | [] => exact fun _ h => nomatch h
  | (k, v) :: rest =>
    intro s hs
    by_cases hk : k = "__proto__"
    · rw [redactFields, if_pos hk] at hs
      obtain ⟨t, ht, heq⟩ := leavesFields_redacted rest s hs
      exact ⟨t, List.mem_append_right _ ht, heq⟩
    · rw [redactFields_cons hk] at hs
      rcases List.mem_append.mp hs with hs | hs
      · obtain ⟨t, ht, heq⟩ := leaves_redacted v s hs
        exact ⟨t, List.mem_append_left _ ht, heq⟩
      · obtain ⟨t, ht, heq⟩ := leavesFields_redacted rest s hs
        exact ⟨t, List.mem_append_right _ ht, heq⟩

end

/-- **Redaction settles.**  It removes every token at once; a second redaction leaves no credentials in a URL but the mark,
    and changes something exactly where the first one left some, which takes a query's token or the header of a key; the
    third one changes nothing.  The same holds of the values that a record is made of, whose names and other leaves stay. -/
theorem redaction_settles :
    (∀ s, ∀ r ∈ tokenRules, Absent r.dropped (redact s).toList) ∧
    (∀ s, redact (redact s) = redact s ↔ OnlyPlaceholders (redact s)) ∧
    (∀ s, Absent queryName s.toList → Absent pemHeader s.toList → OnlyPlaceholders (redact s)) ∧
    (∀ s, OnlyPlaceholders (redact (redact s)) ∧ redact (redact (redact s)) = redact (redact s)) ∧
    (∀ v, redactDeep (redactDeep v) = redactDeep v ↔ ∀ s ∈ leaves (redactDeep v), OnlyPlaceholders s) ∧
    (∀ v, redactDeep (redactDeep (redactDeep v)) = redactDeep (redactDeep v)) ∧
    (∀ v, VibeCompiler.dropProto v = v → blank (redactDeep v) = blank v) := by
  refine ⟨fun s r hr => redact_token s hr, redact_same_iff, fun s => redact_once,
    fun s => ⟨redact_twice s, redact_thrice s⟩, fun v => ?_, fun v => ?_, fun v hv => ?_⟩
  · rw [redactDeep_same_iff]
    refine forall₂_congr fun s hs => ?_
    obtain ⟨t, -, rfl⟩ := leaves_redacted v s hs
    exact redact_same_iff t
  · rw [redactDeep_same_iff]
    intro s hs
    obtain ⟨t, ht, rfl⟩ := leaves_redacted (redactDeep v) s hs
    obtain ⟨t', -, rfl⟩ := leaves_redacted v t ht
    exact redact_thrice t'
  · rw [blank_redactDeep, hv]

/-- The token of a query hides the slash that kept a URL from having credentials. -/
theorem redacted_again : redact "https://?token=a/b&x@host" = "https://?token=[REDACTED]&x@host" ∧
    redact (redact "https://?token=a/b&x@host") = "https://[REDACTED]@host" ∧
    redact (redact "https://?token=a/b&x@host") ≠ redact "https://?token=a/b&x@host" := by decide +kernel

end VibeRedaction
