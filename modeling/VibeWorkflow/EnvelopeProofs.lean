import VibeWorkflow.TaskStoreProofs

/-!
# Reading a result back

A result that passed its validator is written as a row, or as a field of a run record, and is put
together and validated again when it is read.

* `validate_normal`, `normal_validates` — a result that was accepted is accepted again;
* `read_back` — the row of such a result reads as the result.
-/

namespace VibeResult

open VibeJson VibeAdmission

variable {sha256 : String → String}

/-! ## The checks, one at a time -/

section

variable {ε α : Type}

theorem need_ok {x : Option α} {e : ε} {a : α} : need x e = .ok a ↔ x = some a := by
  cases x with
  | none => exact ⟨nofun, nofun⟩
  | some b => simp [need]

theorem ensure_ok {c : Bool} {e : ε} {u : Unit} : ensure c e = .ok u ↔ c = true := by
  cases c with
  | true => exact ⟨fun _ => rfl, fun _ => rfl⟩
  | false => exact ⟨nofun, nofun⟩

theorem fieldWith_some {o : Json} {name : String} {p : String → Bool} {s : String} :
    fieldWith o name p = some s ↔ field o name = some s ∧ p s = true := by
  simp [fieldWith, Option.filter_eq_some_iff]

theorem ensureVersion_ok {o : Json} {unsupported : String → ε} {other : ε} {u : Unit} :
    ensureVersion o unsupported other = .ok u ↔ field o "schema_version" = some "1" := by
  unfold ensureVersion
  cases hv : field o "schema_version" with
  | none => exact ⟨nofun, nofun⟩
  | some v =>
    simp only [Option.some.injEq]
    by_cases h1 : v = "1"
    · simp [h1]
    · rw [if_neg h1]
      refine ⟨fun h => ?_, fun h => absurd h h1⟩
      split at h
      · exact nomatch h
      · exact nomatch h

theorem map_ok_iff {β : Type} {x : Except ε α} {f : α → β} {b : β} : x.map f = .ok b ↔ ∃ a, x = .ok a ∧ f a = b := by
  cases x with
  | error e => exact ⟨nofun, nofun⟩
  | ok a => simp [Except.map]

theorem integer?_some {v : Json} {n : JsNum} : integer? v = some n ↔ v = .num n ∧ n.isInteger = true := by
  cases v with
  | num m =>
    simp only [integer?, Json.num.injEq]
    split
    · rename_i hm
      simp only [Option.some.injEq]
      exact ⟨fun h => ⟨h, h ▸ hm⟩, fun h => h.1⟩
    · rename_i hm
      exact ⟨nofun, fun h => absurd (h.1 ▸ h.2) hm⟩
  | _ => simp [integer?]

end

/-! ## Verifications -/

/-- The strings of a bounded argv, again. -/
theorem boundedArgv_again {v : Option Json} {argv : List String} (h : boundedArgv v = some argv) :
    boundedArgv (some (.arr (argv.map Json.str))) = some argv := by
  unfold boundedArgv at h
  split at h
  · rename_i xs
    split at h
    · cases h
    · rename_i hbounds
      have hlen : xs.length = argv.length ∧ ∀ s ∈ argv, byteLen s ≤ maxVerifyArgvItemLen := by
        clear hbounds
        induction xs generalizing argv with
        | nil =>
          obtain rfl := Option.some.inj h
          exact ⟨rfl, (by intros; contradiction)⟩
        | cons x xs ih =>
          rw [List.mapM_cons] at h
          obtain ⟨s, hs, h⟩ := Option.bind_eq_some_iff.mp h
          obtain ⟨rest, hrest, h⟩ := Option.bind_eq_some_iff.mp h
          obtain rfl := Option.some.inj h
          obtain ⟨hl, hb⟩ := ih hrest
          refine ⟨congrArg (· + 1) hl, ?_⟩
          intro s' hs'
          rcases List.mem_cons.mp hs' with rfl | hs'
          · simpa using (Option.filter_eq_some_iff.mp hs).2
          · exact hb s' hs'
      obtain ⟨hl, hb⟩ := hlen
      have hmap : (argv.map Json.str).mapM (fun x => x.str?.filter fun s => byteLen s ≤
          maxVerifyArgvItemLen) = some argv := by
        clear h hl
        induction argv with
        | nil => rfl
        | cons s rest ih =>
          have hs : byteLen s ≤ maxVerifyArgvItemLen := hb s List.mem_cons_self
          rw [List.map_cons, List.mapM_cons, ih (fun s hs => hb s (List.mem_cons_of_mem _ hs))]
          simp [Json.str?, Option.filter_some, hs]
      have hsame : ¬ ((argv.map Json.str).isEmpty = true ∨ (argv.map Json.str).length > maxVerifyArgvItems) := by
        simp only [List.isEmpty_iff, List.length_map, List.map_eq_nil_iff] at hbounds ⊢
        rw [← hl]
        rintro (hnil | hlong)
        · exact hbounds (.inl (List.length_eq_zero_iff.mp (hl.trans (congrArg List.length hnil))))
        · exact hbounds (.inr hlong)
      show (if _ then none else _) = _
      rw [if_neg hsame, hmap]
  · cases h

/-- **A verification that was accepted** is accepted again, as it is. -/
theorem verification_again {o v : Json} (h : validateTaskVerification sha256 o = .ok v) :
    validateTaskVerification sha256 v = .ok v := by
  unfold validateTaskVerification at h
  obtain ⟨_, -, h⟩ := bind_ok_iff.mp h
  obtain ⟨_, -, h⟩ := bind_ok_iff.mp h
  obtain ⟨kind, hkind, h⟩ := bind_ok_iff.mp h
  obtain ⟨exitCode, hexit, h⟩ := bind_ok_iff.mp h
  obtain ⟨_, hagree, h⟩ := bind_ok_iff.mp h
  obtain ⟨profile, hprofile, h⟩ := bind_ok_iff.mp h
  obtain ⟨argv, hargv, h⟩ := bind_ok_iff.mp h
  obtain ⟨commandHash, hcommand, h⟩ := bind_ok_iff.mp h
  obtain ⟨startedAt, hstarted, h⟩ := bind_ok_iff.mp h
  obtain ⟨finishedAt, hfinished, h⟩ := bind_ok_iff.mp h
  obtain ⟨contentHash, hcontent, h⟩ := bind_ok_iff.mp h
  obtain rfl := Except.ok.inj h
  have hargv' := boundedArgv_again (need_ok.mp hargv)
  have hexit' : exitCode.isInteger = true := by
    obtain ⟨j, -, hj⟩ := Option.bind_eq_some_iff.mp (need_ok.mp hexit)
    exact (integer?_some.mp hj).2
  simp only [need_ok, fieldWith_some, ensure_ok] at hkind hprofile hcommand hstarted hfinished hcontent hagree
  unfold validateTaskVerification
  refine bind_ok_iff.mpr ⟨(), rfl, bind_ok_iff.mpr ⟨(), ensureVersion_ok.mpr rfl,
    bind_ok_iff.mpr ⟨kind, need_ok.mpr (fieldWith_some.mpr ⟨rfl, hkind.2⟩),
    bind_ok_iff.mpr ⟨exitCode, need_ok.mpr (integer?_some.mpr ⟨rfl, hexit'⟩),
    bind_ok_iff.mpr ⟨(), ensure_ok.mpr hagree,
    bind_ok_iff.mpr ⟨profile, need_ok.mpr (fieldWith_some.mpr ⟨rfl, hprofile.2⟩),
    bind_ok_iff.mpr ⟨argv, need_ok.mpr hargv',
    bind_ok_iff.mpr ⟨commandHash, need_ok.mpr (fieldWith_some.mpr ⟨rfl, hcommand.2⟩),
    bind_ok_iff.mpr ⟨startedAt, need_ok.mpr (fieldWith_some.mpr ⟨rfl, hstarted.2⟩),
    bind_ok_iff.mpr ⟨finishedAt, need_ok.mpr (fieldWith_some.mpr ⟨rfl, hfinished.2⟩),
    bind_ok_iff.mpr ⟨contentHash, need_ok.mpr (fieldWith_some.mpr ⟨rfl, hcontent.2⟩), rfl⟩⟩⟩⟩⟩⟩⟩⟩⟩⟩⟩

/-! ## Envelopes -/

/-- A result as its validator returns it. -/
structure Normal (sha256 : String → String) (r : AgentTaskResult) : Prop where
  version : r.schemaVersion = "1"
  size : byteLen r.finalOutput ≤ maxFinalOutputBytes
  exitCode : ∀ n, r.processExitCode = some n → n.isInteger = true
  time : VibeTask.isIsoUtc r.finalizedAt = true
  digest : isHex64 r.contentHash = true
  hash : r.contentHash = computeResultContentHash sha256 r.finalOutput
  evidence : boundedRefs r.evidenceRefs = true
  artifacts : boundedRefs r.artifactRefs = true
  verification : ∀ v, r.verification = some v → validateTaskVerification sha256 v = .ok v

/-- The fields of a result, its verification apart. -/
def envelopeFields (r : AgentTaskResult) : List (String × Json) :=
  [("schema_version", .str r.schemaVersion),
   ("final_output", .obj [("kind", .str "text"), ("text", .str r.finalOutput)]),
   ("process_exit_code", r.processExitCode.elim .null .num),
   ("finalized_at", .str r.finalizedAt), ("content_hash", .str r.contentHash),
   ("evidence_refs", r.evidenceRefs.getD .null), ("artifact_refs", r.artifactRefs.getD .null)]

/-- A result as a value again. -/
def envelope (r : AgentTaskResult) : Json :=
  .obj (envelopeFields r ++ r.verification.elim [] fun v => [("verification", v)])

theorem exitCode_integer {o : Json} {code : Option JsNum} (h : exitCodeOf o = .ok code) :
    ∀ n, code = some n → n.isInteger = true := by
  rintro n rfl
  unfold exitCodeOf at h
  split at h
  · exact nomatch h
  · exact nomatch h
  · rename_i v _ _
    cases hv : integer? v with
    | none =>
      rw [hv] at h
      exact nomatch h
    | some m =>
      rw [hv] at h
      obtain rfl : m = n := Option.some.inj (Except.ok.inj h)
      exact (integer?_some.mp hv).2

theorem verificationOf_again {o : Json} {v : Option Json} (h : verificationOf sha256 o = .ok v) :
    ∀ w, v = some w → validateTaskVerification sha256 w = .ok w := by
  rintro w rfl
  unfold verificationOf at h
  split at h
  · exact nomatch h
  · exact nomatch h
  · rename_i u _ _
    cases hu : validateTaskVerification sha256 u with
    | error e =>
      rw [hu] at h
      exact nomatch h
    | ok w' =>
      rw [hu] at h
      obtain rfl : w' = w := Option.some.inj (Except.ok.inj h)
      exact verification_again hu

/-- **What the validator accepts** is normal. -/
theorem validate_normal {o : Json} {r : AgentTaskResult} (h : validateTaskResult sha256 o = .ok r) :
    Normal sha256 r := by
  unfold validateTaskResult at h
  obtain ⟨_, -, h⟩ := bind_ok_iff.mp h
  obtain ⟨_, -, h⟩ := bind_ok_iff.mp h
  obtain ⟨text, -, h⟩ := bind_ok_iff.mp h
  obtain ⟨_, hsize, h⟩ := bind_ok_iff.mp h
  obtain ⟨exitCode, hexit, h⟩ := bind_ok_iff.mp h
  obtain ⟨finalizedAt, htime, h⟩ := bind_ok_iff.mp h
  obtain ⟨contentHash, hdigest, h⟩ := bind_ok_iff.mp h
  obtain ⟨_, hhash, h⟩ := bind_ok_iff.mp h
  obtain ⟨_, hevidence, h⟩ := bind_ok_iff.mp h
  obtain ⟨_, hartifacts, h⟩ := bind_ok_iff.mp h
  obtain ⟨verification, hverify, h⟩ := bind_ok_iff.mp h
  obtain rfl := Except.ok.inj h
  exact {
    version := rfl
    size := of_decide_eq_true (ensure_ok.mp hsize)
    exitCode := exitCode_integer hexit
    time := (fieldWith_some.mp (need_ok.mp htime)).2
    digest := (fieldWith_some.mp (need_ok.mp hdigest)).2
    hash := eq_of_beq (ensure_ok.mp hhash)
    evidence := ensure_ok.mp hevidence
    artifacts := ensure_ok.mp hartifacts
    verification := verificationOf_again hverify }

/-- The text and the hash of an accepted result are those of the value. -/
theorem validate_reads {o : Json} {r : AgentTaskResult} (h : validateTaskResult sha256 o = .ok r) :
    finalOutputOf o = some r.finalOutput ∧ field o "content_hash" = some r.contentHash := by
  unfold validateTaskResult at h
  obtain ⟨_, -, h⟩ := bind_ok_iff.mp h
  obtain ⟨_, -, h⟩ := bind_ok_iff.mp h
  obtain ⟨text, htext, h⟩ := bind_ok_iff.mp h
  obtain ⟨_, -, h⟩ := bind_ok_iff.mp h
  obtain ⟨exitCode, -, h⟩ := bind_ok_iff.mp h
  obtain ⟨finalizedAt, -, h⟩ := bind_ok_iff.mp h
  obtain ⟨contentHash, hdigest, h⟩ := bind_ok_iff.mp h
  obtain ⟨_, -, h⟩ := bind_ok_iff.mp h
  obtain ⟨_, -, h⟩ := bind_ok_iff.mp h
  obtain ⟨_, -, h⟩ := bind_ok_iff.mp h
  obtain ⟨verification, -, h⟩ := bind_ok_iff.mp h
  obtain rfl := Except.ok.inj h
  exact ⟨need_ok.mp htext, (fieldWith_some.mp (need_ok.mp hdigest)).1⟩

/-- References that are bounded are there. -/
theorem boundedRefs_some {refs : Option Json} (h : boundedRefs refs = true) :
    ∃ xs, refs = some (.arr xs) := by
  unfold boundedRefs at h
  split at h
  · exact ⟨_, rfl⟩
  · exact nomatch h

/-- The exit code of a result is read back. -/
theorem exitCode_again {o : Json} {code : Option JsNum} (h : ∀ n, code = some n → n.isInteger = true)
    (hget : o.get? "process_exit_code" = some (code.elim .null .num)) : exitCodeOf o = .ok code := by
  unfold exitCodeOf
  rw [hget]
  cases code with
  | none => rfl
  | some n =>
    show (need (integer? (.num n)) _).map some = _
    rw [integer?_some.mpr ⟨rfl, h n rfl⟩]
    rfl

/-- The verification of a result is read back. -/
theorem verificationOf_some {o v : Json} (hget : o.get? "verification" = some v)
    (h : validateTaskVerification sha256 v = .ok v) : verificationOf sha256 o = .ok (some v) := by
  unfold verificationOf
  rw [hget]
  cases v with
  | null => exact nomatch h
  | _ =>
    simp only
    rw [h]
    rfl

/-- A value with the fields of a result. -/
structure Reads (o : Json) (r : AgentTaskResult) : Prop where
  obj : o.isObj = true
  version : field o "schema_version" = some r.schemaVersion
  text : finalOutputOf o = some r.finalOutput
  exitCode : o.get? "process_exit_code" = some (r.processExitCode.elim .null .num)
  time : field o "finalized_at" = some r.finalizedAt
  digest : field o "content_hash" = some r.contentHash
  evidence : o.get? "evidence_refs" = r.evidenceRefs
  artifacts : o.get? "artifact_refs" = r.artifactRefs
  verification : o.get? "verification" = r.verification

/-- **The fields of a normal result** are accepted, and give the result. -/
theorem Reads.validates {o : Json} {r : AgentTaskResult} (ho : Reads o r) (h : Normal sha256 r) :
    validateTaskResult sha256 o = .ok r := by
  have hhash : (r.contentHash == computeResultContentHash sha256 r.finalOutput) = true := beq_iff_eq.mpr h.hash
  have hsize : decide (byteLen r.finalOutput ≤ maxFinalOutputBytes) = true := decide_eq_true h.size
  have hverification : verificationOf sha256 o = .ok r.verification := by
    cases hv : r.verification with
    | none =>
      unfold verificationOf
      rw [ho.verification, hv]
    | some v => exact verificationOf_some (ho.verification.trans hv) (h.verification v hv)
  unfold validateTaskResult
  refine bind_ok_iff.mpr ⟨(), ensure_ok.mpr ho.obj,
    bind_ok_iff.mpr ⟨(), ensureVersion_ok.mpr (ho.version.trans (congrArg some h.version)),
    bind_ok_iff.mpr ⟨r.finalOutput, need_ok.mpr ho.text, bind_ok_iff.mpr ⟨(), ensure_ok.mpr hsize,
    bind_ok_iff.mpr ⟨r.processExitCode, exitCode_again h.exitCode ho.exitCode,
    bind_ok_iff.mpr ⟨r.finalizedAt, need_ok.mpr (fieldWith_some.mpr ⟨ho.time, h.time⟩),
    bind_ok_iff.mpr ⟨r.contentHash, need_ok.mpr (fieldWith_some.mpr ⟨ho.digest, h.digest⟩),
    bind_ok_iff.mpr ⟨(), ensure_ok.mpr hhash, bind_ok_iff.mpr ⟨(), ensure_ok.mpr (ho.evidence ▸ h.evidence),
    bind_ok_iff.mpr ⟨(), ensure_ok.mpr (ho.artifacts ▸ h.artifacts),
      bind_ok_iff.mpr ⟨r.verification, hverification, ?_⟩⟩⟩⟩⟩⟩⟩⟩⟩⟩⟩
  rw [ho.evidence, ho.artifacts, ← h.version]
  rfl

theorem envelope_reads {r : AgentTaskResult} (h : Normal sha256 r) : Reads (envelope r) r := by
  obtain ⟨version, text, code, time, hash, refs, artifactRefs, verification⟩ := r
  obtain ⟨evidence, rfl⟩ := boundedRefs_some h.evidence
  obtain ⟨artifacts, rfl⟩ := boundedRefs_some h.artifacts
  cases verification with
  | none => exact ⟨rfl, rfl, rfl, rfl, rfl, rfl, rfl, rfl, rfl⟩
  | some v => exact ⟨rfl, rfl, rfl, rfl, rfl, rfl, rfl, rfl, rfl⟩

/-! ## Rows -/

section

variable (sha256 : String → String) (jsonParse : String → Option Json)

/-- `decodeJson` of the control store; a throw is `none`, since its caller asks for no more. -/
def decodeStored (text : String) : Option Json := if byteLen text > 256 * 1024 then none else jsonParse text

/-- `?? []`. -/
def orEmpty : Json → Json
  | .null => .arr []
  | v => v

/-- The envelope of a row, put together for the validator. -/
def storedEnvelope (row : ResultRow) : Option Json := do
  let evidence ← decodeStored jsonParse row.evidenceRefsJson
  let artifacts ← decodeStored jsonParse row.artifactRefsJson
  let verification ← match row.verificationJson with
    | none => some []
    | some text => (decodeStored jsonParse text).map fun v => [("verification", v)]
  some (.obj ([("schema_version", .str row.schemaVersion),
    ("final_output", .obj [("kind", .str "text"), ("text", .str (row.finalOutputText.getD ""))]),
    ("process_exit_code", row.processExitCode.elim .null .num),
    ("finalized_at", .str (row.finalizedAt.getD "")), ("content_hash", .str (row.contentHash.getD "")),
    ("evidence_refs", orEmpty evidence), ("artifact_refs", orEmpty artifacts)] ++ verification))

/-- The result of a row, validated again; a throw is `none`. -/
def getTaskResultDurable (row : ResultRow) : Option (String × Option AgentTaskResult) :=
  if row.resultStatus ≠ "available" then some (row.resultStatus, none)
  else (storedEnvelope jsonParse row).bind fun o =>
    match validateTaskResult sha256 o with
    | .ok r => some ("available", some r)
    | .error _ => none

end

section

variable {jsonParse : String → Option Json} {ε : Type}

/-- The parts of a result that are stored as JSON texts read as they were written. -/
def PartsRead (jsonParse : String → Option Json) (r : AgentTaskResult) : Prop :=
  ∀ v, r.evidenceRefs = some v ∨ r.artifactRefs = some v ∨ r.verification = some v → jsonParse (stringify v) = some v

theorem decodeStored_encoded {v : Json} (label : String) {text : String}
    (henc : VibeStore.encodeJson v (256 * 1024) label = .ok text)
    (hparse : jsonParse (stringify v) = some v) : decodeStored jsonParse text = some v := by
  obtain ⟨hsize, rfl⟩ := encodeJson_eq_ok.mp henc
  unfold decodeStored
  rw [if_neg (Nat.not_lt.mpr hsize), hparse]

/-- **The row of a normal result** reads as the result. -/
theorem read_back {r : AgentTaskResult} (h : Normal sha256 r) (hparts : PartsRead jsonParse r) {row : ResultRow}
    (hrow : rowOf VibeTask.resultEncoding "available" (some r) = .ok row) :
    getTaskResultDurable sha256 jsonParse row = some ("available", some r) := by
  obtain ⟨xs, hxs⟩ := boundedRefs_some h.evidence
  obtain ⟨ys, hys⟩ := boundedRefs_some h.artifacts
  unfold rowOf at hrow
  obtain ⟨text, htext, hrow⟩ := bind_ok_iff.mp hrow
  obtain ⟨evidence, hevidence, hrow⟩ := bind_ok_iff.mp hrow
  obtain ⟨artifacts, hartifacts, hrow⟩ := bind_ok_iff.mp hrow
  obtain ⟨verification, hverification, hrow⟩ := bind_ok_iff.mp hrow
  obtain rfl := Except.ok.inj hrow
  have hevidence' : decodeStored jsonParse evidence = some (.arr xs) := by
    refine decodeStored_encoded "task_result.evidence_refs" ?_ (hparts _ (.inl hxs))
    simpa [refsJson, hxs, VibeTask.resultEncoding] using hevidence
  have hartifacts' : decodeStored jsonParse artifacts = some (.arr ys) := by
    refine decodeStored_encoded "task_result.artifact_refs" ?_ (hparts _ (.inr (.inl hys)))
    simpa [refsJson, hys, VibeTask.resultEncoding] using hartifacts
  have htext' : text = some r.finalOutput := by
    obtain ⟨t, ht, rfl⟩ := map_ok_iff.mp htext
    exact congrArg some (boundString_eq_ok.mp ht).2.symm
  subst htext'
  -- what is read has the fields of the result
  obtain ⟨o, ho, hreads⟩ : ∃ o, storedEnvelope jsonParse
      ⟨r.schemaVersion, "available", some r.finalOutput, r.processExitCode, some r.finalizedAt, some r.contentHash,
        evidence, artifacts, verification⟩ = some o ∧ Reads o r := by
    unfold storedEnvelope
    simp only [hevidence', hartifacts', Option.bind_eq_bind, Option.bind_some]
    cases hv : r.verification with
    | none =>
      have hnone : verification = none := by simpa [verificationJson, hv] using hverification.symm
      subst hnone
      exact ⟨_, rfl, rfl, rfl, rfl, rfl, rfl, rfl, hxs.symm, hys.symm, hv.symm⟩
    | some v =>
      have henc : verificationJson VibeTask.resultEncoding (some v) =
        .ok verification := by simpa [hv] using hverification
      obtain ⟨vtext, hvtext, rfl⟩ := map_ok_iff.mp henc
      have hdecode := decodeStored_encoded "task_result.verification" hvtext (hparts _ (.inr (.inr hv)))
      simp only [hdecode, Option.map_some, Option.bind_some]
      exact ⟨_, rfl, rfl, rfl, rfl, rfl, rfl, rfl, hxs.symm, hys.symm, hv.symm⟩
  have hread : getTaskResultDurable sha256 jsonParse
      ⟨r.schemaVersion, "available", some r.finalOutput, r.processExitCode, some r.finalizedAt, some r.contentHash,
        evidence, artifacts, verification⟩ = some ("available", some r) := by
    unfold getTaskResultDurable
    rw [if_neg (fun hne => hne rfl), ho, Option.bind_some, hreads.validates h]
  exact hread

end

end VibeResult
