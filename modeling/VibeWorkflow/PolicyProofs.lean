import VibeWorkflow.StoreProofs

/-!
# The pure parts of the driver

What the runtime computes between two awaited calls: the request of a task, the parsed output of
a result, the verified evidence of a completing step and the completion decision, and the stall
fingerprint of a looped round.  Hashing and `JSON.parse` are parameters of the configuration.

* **`evaluateCompletion_complete`** — a completion decision has no conflict and nothing missing.
-/

namespace VibeRuntime

open VibeJson VibeContract VibeRouting VibeTemplate VibeValidator VibeStore VibeAdmission VibeControl

/-! ## Configuration -/

/-- `loadSpec`: the persisted spec, validated again on every iteration. -/
def loadSpec (raw : Json) : Option WorkflowSpec :=
  if (validateWorkflowSpec raw).valid then some (WorkflowSpec.ofJson raw) else none

/-- The fixed data of one workflow and the environment's functions.  `digest` is the first 32
    hex digits of SHA-256, and is taken to have no collisions. -/
structure Config where
  workflowId : String
  rawSpec : Json
  loaded : Option WorkflowSpec
  loaded_eq : loaded = loadSpec rawSpec
  inputs : List (String × Json)
  leaseClient : Bool
  jsonParse : String → Option Json
  digest : String → String
  digest_inj : Function.Injective digest
  filesHash : List String → String
  resultIngestionDeadlineMs : Nat
  maxReleaseAttempts : Nat

namespace Config

/-- The spec as the runtime reads it. -/
def spec (cfg : Config) : WorkflowSpec := WorkflowSpec.ofJson cfg.rawSpec

def sec (cfg : Config) (k : StepKey) : String := stepExecutionId cfg.workflowId k

/-- `humanRequestId`. -/
def humanRequestId (cfg : Config) (k : StepKey) : String := "hr_" ++ cfg.digest (cfg.sec k)

def workspaceLeaseId (cfg : Config) (nodeId workspaceKey : String) : String :=
  "wl_" ++ cfg.digest (cfg.workflowId ++ "\x00" ++ nodeId ++ "\x00" ++ workspaceKey)

end Config

/-- Measured from the persisted start, so a restart never resets it. -/
def deadlineExceeded (cfg : Config) (wf : WorkflowRow) (now : Nat) : Bool :=
  match wf.startedAt with
  | none => false
  | some started => decide (started + cfg.spec.limits.maxRuntimeSeconds * 1000 ≤ now)

/-! ## Parsing an output -/

def maxAgentOutputBytes : Nat := 256 * 1024

def fenceMarker : List Char := ['\x60', '\x60', '\x60']

/-- A text without a given start. -/
def dropStart (pat cs : List Char) : Option (List Char) :=
  if pat.isPrefixOf cs then some (cs.drop pat.length) else none

/-- A line end at the start of a text, with or without a carriage return. -/
def dropNewline : List Char → Option (List Char)
  | '\n' :: cs => some cs
  | '\r' :: '\n' :: cs => some cs
  | _ => none

/-- The body of a single fenced block that is the whole text. -/
def fenceBody (cs : List Char) : Option (List Char) := do
  let afterMark ← dropStart fenceMarker cs
  let afterLang := (dropStart "json".toList afterMark).getD afterMark
  let rest ← dropNewline (afterLang.dropWhile (fun c => c == ' ' || c == '\t'))
  -- the closing fence, read from the end
  let beforeMark ← dropStart fenceMarker rest.reverse
  match beforeMark with
  | '\n' :: '\r' :: body => some body.reverse
  | '\n' :: body => some body.reverse
  | _ => none

inductive ParseCode where
  | outputEmpty | outputTooLarge | outputNotJson | outputNotObject
deriving DecidableEq

def ParseCode.name : ParseCode → String
  | .outputEmpty => "output_empty"
  | .outputTooLarge => "output_too_large"
  | .outputNotJson => "output_not_json"
  | .outputNotObject => "output_not_object"

structure ParseFailure where
  code : ParseCode
  message : String
deriving DecidableEq

def notJson (message : String) : ParseFailure := ⟨.outputNotJson, message⟩

def notObject (message : String) : ParseFailure := ⟨.outputNotObject, message⟩

/-- The text that is read as JSON: the content of the fence, or the trimmed text itself. -/
def unfence (trimmed : List Char) : Except ParseFailure (List Char) :=
  if fenceMarker.isPrefixOf trimmed then
    match fenceBody trimmed with
    | some body => .ok (trimChars body)
    | none => .error (notJson "output is not a single well-formed \x60\x60\x60json fence")
  else if containsChars fenceMarker trimmed then .error (notJson "output mixes prose/fences with JSON")
  else .ok trimmed

/-- What is left of the checks once the text is bare. -/
def readObject (jsonParse : String → Option Json) (text : List Char) : Except ParseFailure Json :=
  if text.head? ≠ some '\x7b' then .error (notObject "output must be a single JSON object")
  else match jsonParse (String.ofList text) with
    | none => .error (notJson
        "output is not exactly one JSON value (trailing prose or multiple objects are rejected)")
    | some v =>
      if v.isObj then .ok v
      else .error (notObject "output must be a JSON object (not an array or primitive)")

/-- Exactly one JSON object, bare or in one fence. -/
def parseSingleJsonObject (jsonParse : String → Option Json) (raw : String) (maxBytes : Nat) :
    Except ParseFailure Json :=
  if byteLen raw > maxBytes then .error ⟨.outputTooLarge, "output exceeds the maximum size"⟩
  else if trimChars raw.toList = [] then .error ⟨.outputEmpty, "output is empty"⟩
  else (unfence (trimChars raw.toList)).bind (readObject jsonParse)

structure OutputError where
  code : String
  field : Option String
deriving DecidableEq

/-- A result text against the schema of its step. -/
def parseResultOutput (cfg : Config) (text stepId : String) : Except OutputError Json :=
  match parseSingleJsonObject cfg.jsonParse text maxAgentOutputBytes with
  | .error failure => .error ⟨failure.code.name, none⟩
  | .ok j =>
    match validateAgainstSchema j ((cfg.spec.schemaOf? stepId).getD []) with
    | .error e => .error ⟨e.code, e.field⟩
    | .ok v => .ok v

/-! ## The render scope and the request -/

/-- A completed execution's output, when it is an object. -/
def completedOutput (r : StepRow) : Option (String × Json) :=
  if r.status = .completed then
    match r.output with
    | some (.obj kvs) => some (r.key.stepId, .obj kvs)
    | _ => none
  else none

/-- The answered input of a step's own pause. -/
def pauseResponse (h : Option HumanRequestRow) : Option String :=
  h.bind (fun r => if r.gate.kind = .input ∧ r.status = .answered then r.responseValue else none)

/-- What a template may refer to, from the stored context, the executions and the pause. -/
def renderScopeOf (cfg : Config) (k : StepKey) (context : List (String × Json))
    (rows : List StepRow) (h : Option HumanRequestRow) : RenderScope where
  inputs := cfg.inputs
  stepOutputs := rows.filterMap completedOutput
  round := k.round
  context := fun g => lookup context g.name
  pauseResponse := pauseResponse h

structure AgentTaskCreateRequest where
  agent : String
  nodeId : Option String
  text : String
  workspaceKey : Option String
  permissionMode : Option String
  workspaceWrite : Bool
  metadata : Json
  idempotencyKey : String
  workspaceLeaseId : Option String
  verify : Option Json
deriving DecidableEq

/-- The exclusive claim of a workspace-bound step. -/
structure WorkspaceTarget where
  nodeId : String
  workspaceKey : String
  workspaceLeaseId : String
deriving DecidableEq

/-- The lease of a step, from the spec and the inputs alone. -/
def stepLeaseTarget (cfg : Config) (spec : WorkflowSpec) (k : StepKey) : Option WorkspaceTarget :=
  if cfg.leaseClient then do
    let step ← spec.step? k.stepId
    let role ← lookup spec.agents step.agentRole
    let node ← role.nodeId
    match renderWorkspaceKey step.workspaceKeyTemplate ⟨cfg.inputs, [], k.round, fun _ => none, none⟩ with
    | .ok (some key) => some ⟨node, key, cfg.workspaceLeaseId node key⟩
    | _ => none
  else none

/-- Does any step name a workspace, or one that cannot be resolved? -/
def workspaceBound (cfg : Config) (spec : WorkflowSpec) : Bool :=
  spec.steps.any (fun s =>
    match renderWorkspaceKey s.workspaceKeyTemplate ⟨cfg.inputs, [], 1, fun _ => none, none⟩ with
    | .ok none => false
    | _ => true)

def requestMetadata (cfg : Config) (k : StepKey) : Json :=
  .obj [("workflow_id", .str cfg.workflowId), ("step_execution_id", .str (cfg.sec k)),
    ("step_id", .str k.stepId), ("round", .num (.ofInt k.round)), ("attempt", .num (.ofInt 1))]

/-- The request of an execution's task, from what its step renders to. -/
def requestFor (cfg : Config) (spec : WorkflowSpec) (k : StepKey) (step : AgentTaskStep)
    (role : WorkflowAgentRole) (text : String) (workspaceKey : Option String) :
    AgentTaskCreateRequest :=
  let lease := (stepLeaseTarget cfg spec k).map WorkspaceTarget.workspaceLeaseId
  { agent := role.agent
    nodeId := role.nodeId
    text := text
    workspaceKey := workspaceKey
    permissionMode := step.permissionMode
    workspaceWrite := step.workspaceWrite && lease.isSome
    metadata := requestMetadata cfg k
    idempotencyKey := cfg.sec k
    workspaceLeaseId := lease
    verify := step.verify }

/-- The step of an execution and its role. -/
def stepAndRole (spec : WorkflowSpec) (k : StepKey) : Option (AgentTaskStep × WorkflowAgentRole) :=
  (spec.step? k.stepId).bind (fun s => (lookup spec.agents s.agentRole).map (fun r => (s, r)))

/-- Render the prompt and the workspace key, in that order. -/
def renderStep (step : AgentTaskStep) (scope : RenderScope) :
    Except RenderError (String × Option String) :=
  match renderPrompt step.promptTemplate scope with
  | .error e => .error e
  | .ok text =>
    match renderWorkspaceKey step.workspaceKeyTemplate scope with
    | .error e => .error e
    | .ok key => .ok (text, key)

/-! ## Verified evidence and the completion decision -/

structure TaskResult where
  exitCode : Option Int
  contentHash : Option String
  testsPassed : Option Bool
deriving DecidableEq

/-- System-observed facts of a completing step. -/
structure VerifiedEvidence where
  taskStatus : Option String
  exitCode : Option Int
  contentHash : Option String
  revisionBefore : Option String
  revisionAfter : Option String
  repositoryChanged : Option Bool
  changedFiles : Option (List String)
  changedFilesHash : Option String
  testsPassed : Option Bool
deriving DecidableEq

def optStr : Option String → Json
  | some s => .str s
  | none => .null

def optBool : Option Bool → Json
  | some b => .bool b
  | none => .null

def VerifiedEvidence.toJson (e : VerifiedEvidence) : Json :=
  .obj [("task_status", optStr e.taskStatus),
    ("exit_code", match e.exitCode with | some n => .num (.ofInt n) | none => .null),
    ("content_hash", optStr e.contentHash), ("revision_before", optStr e.revisionBefore),
    ("revision_after", optStr e.revisionAfter), ("repository_changed", optBool e.repositoryChanged),
    ("changed_files", match e.changedFiles with | some fs => .arr (fs.map Json.str) | none => .null),
    ("changed_files_hash", optStr e.changedFilesHash), ("tests_passed", optBool e.testsPassed)]

def assembleEvidence (cfg : Config) (taskStatus : Option String) (result : Option TaskResult)
    (before after : Option WorkspaceRevision) : VerifiedEvidence :=
  let changed := after.bind (fun r => if r.isGit then some r.changedFiles else none)
  { taskStatus := taskStatus
    exitCode := result.bind TaskResult.exitCode
    contentHash := result.bind TaskResult.contentHash
    revisionBefore := before.map WorkspaceRevision.stateHash
    revisionAfter := after.map WorkspaceRevision.stateHash
    repositoryChanged := match before, after with
      | some b, some a => some (b.stateHash != a.stateHash)
      | _, _ => none
    changedFiles := changed
    changedFilesHash := changed.map cfg.filesHash
    testsPassed := result.bind TaskResult.testsPassed }

/-- Is a required kind of evidence there? -/
def evidencePresent (type : String) (e : VerifiedEvidence) : Bool :=
  if type = "task_status" then e.taskStatus = some "completed"
  else if type = "exit_code" then e.exitCode.isSome
  else if type = "content_hash" then e.contentHash.any (fun h => h ≠ "")
  else if type = "workspace_revision" then e.revisionBefore.isSome && e.revisionAfter.isSome
  else if type = "changed_files" then e.changedFiles.isSome
  else if type = "tests_passed" then e.testsPassed.isSome
  else false

inductive CompletionDecision where
  | complete
  | blocked (missing : List String)
  | failed (reason : String)
deriving DecidableEq

def CompletionDecision.name : CompletionDecision → String
  | .complete => "complete"
  | .blocked _ => "blocked"
  | .failed _ => "failed"

/-- The requirements a snapshot does not meet. -/
def missingEvidence (policy : CompletionPolicy) (e : VerifiedEvidence)
    (remainingWork : Option (List Json)) : List String :=
  policy.requiredEvidence.filter (fun t => !evidencePresent t e)
  ++ (if policy.requireRepositoryChange ∧ e.repositoryChanged ≠ some true then ["repository_change"]
      else [])
  ++ (if policy.requireTestsPassed ∧ e.testsPassed ≠ some true then ["tests_passed"] else [])
  ++ (if policy.requireNoRemainingWork ∧ remainingWork.any (fun xs => xs ≠ []) then
        ["no_remaining_work"] else [])

/-- Conflicts fail, missing evidence blocks, and only then the workflow completes. -/
def evaluateCompletion (policy : CompletionPolicy) (e : VerifiedEvidence)
    (remainingWork : Option (List Json)) : CompletionDecision :=
  if e.taskStatus = some "failed" ∨ e.taskStatus = some "cancelled" then
    .failed "evidence_conflict_task_status"
  else if e.exitCode.any (fun n => n ≠ 0) then .failed "evidence_conflict_nonzero_exit"
  else if policy.requireTestsPassed ∧ e.testsPassed = some false then
    .failed "evidence_conflict_tests_failed"
  else
    match missingEvidence policy e remainingWork with
    | [] => .complete
    | missing => .blocked missing.eraseDups

/-- **A completion decision** has no conflict and nothing missing. -/
theorem evaluateCompletion_complete {policy : CompletionPolicy} {e : VerifiedEvidence}
    {remainingWork : Option (List Json)}
    (h : evaluateCompletion policy e remainingWork = .complete) :
    e.taskStatus ≠ some "failed" ∧ e.taskStatus ≠ some "cancelled" ∧
      (∀ n, e.exitCode = some n → n = 0) ∧ missingEvidence policy e remainingWork = [] := by
  unfold evaluateCompletion at h
  split at h
  · exact nomatch h
  · rename_i hstatus
    split at h
    · exact nomatch h
    · rename_i hexit
      split at h
      · exact nomatch h
      · split at h
        · rename_i hmissing
          rw [not_or] at hstatus
          refine ⟨hstatus.1, hstatus.2, ?_, hmissing⟩
          intro n hn
          rw [hn] at hexit
          simpa using hexit
        · exact nomatch h

/-- Nothing is missing when each requirement is met on its own. -/
theorem missingEvidence_nil {policy : CompletionPolicy} {e : VerifiedEvidence} {remainingWork : Option (List Json)} :
    missingEvidence policy e remainingWork = [] ↔
      (∀ t ∈ policy.requiredEvidence, evidencePresent t e = true) ∧
      (policy.requireRepositoryChange = true → e.repositoryChanged = some true) ∧
      (policy.requireTestsPassed = true → e.testsPassed = some true) ∧
      (policy.requireNoRemainingWork = true → ∀ work, remainingWork = some work → work = []) := by
  have hflag : ∀ (p : Prop) [Decidable p] (name : String), (if p then [name] else []) = [] ↔ ¬ p := by
    intro p _ name
    by_cases hp : p
    · simp [hp]
    · simp [hp]
  unfold missingEvidence
  rw [List.append_eq_nil_iff, List.append_eq_nil_iff, List.append_eq_nil_iff, hflag, hflag, hflag,
    List.filter_eq_nil_iff, and_assoc, and_assoc]
  refine and_congr ?_ (and_congr ?_ (and_congr ?_ ?_))
  · exact forall₂_congr fun t _ => by simp
  · rw [not_and, not_not]
  · rw [not_and, not_not]
  · rw [not_and]
    refine imp_congr_right fun _ => ?_
    cases remainingWork with
    | none => simp
    | some work => simp

/-- **Completion, exactly**: no conflict and nothing missing.  The test conflict is subsumed:
    tests that failed are tests that are missing. -/
theorem evaluateCompletion_complete_iff {policy : CompletionPolicy} {e : VerifiedEvidence}
    {remainingWork : Option (List Json)} :
    evaluateCompletion policy e remainingWork = .complete ↔
      e.taskStatus ≠ some "failed" ∧ e.taskStatus ≠ some "cancelled" ∧
        (∀ n, e.exitCode = some n → n = 0) ∧ missingEvidence policy e remainingWork = [] := by
  constructor
  · exact evaluateCompletion_complete
  · rintro ⟨hfailed, hcancelled, hexit, hmissing⟩
    unfold evaluateCompletion
    rw [if_neg (not_or.mpr ⟨hfailed, hcancelled⟩), if_neg, if_neg, hmissing]
    · rintro ⟨hflag, htests⟩
      rw [(missingEvidence_nil.mp hmissing).2.2.1 hflag] at htests
      exact nomatch htests
    · cases hcode : e.exitCode with
      | none => simp
      | some n => simp [hexit n hcode]

/-- A listed kind of evidence is there, and does not contradict the completion it is listed for. -/
def EvidenceMet (type : String) (e : VerifiedEvidence) : Prop :=
  evidencePresent type e = true ∧ (type = "exit_code" → e.exitCode = some 0) ∧
    (type = "tests_passed" → e.testsPassed = some true)

/-- The snapshot meets, and does not contradict, all that a policy requires. -/
structure PolicyMet (policy : CompletionPolicy) (e : VerifiedEvidence) (remainingWork : Option (List Json)) : Prop where
  status : e.taskStatus ≠ some "failed" ∧ e.taskStatus ≠ some "cancelled"
  exit : ∀ n, e.exitCode = some n → n = 0
  listed : ∀ t ∈ policy.requiredEvidence, EvidenceMet t e
  repository : policy.requireRepositoryChange = true → e.repositoryChanged = some true
  tests : policy.requireTestsPassed = true → e.testsPassed = some true
  remaining : policy.requireNoRemainingWork = true → ∀ work, remainingWork = some work → work = []

/-- The policy without its listing of `tests_passed`. -/
def testsUnlisted (policy : CompletionPolicy) : CompletionPolicy :=
  { policy with requiredEvidence := policy.requiredEvidence.filter (fun t => t ≠ "tests_passed") }

/-- Failed tests that the policy lists as evidence, without the flag, beside evidence that meets
    all the rest of it. -/
def FailedTestsListed (policy : CompletionPolicy) (e : VerifiedEvidence) (remainingWork : Option (List Json)) : Prop :=
  "tests_passed" ∈ policy.requiredEvidence ∧ policy.requireTestsPassed = false ∧ e.testsPassed = some false ∧
    PolicyMet (testsUnlisted policy) e remainingWork

/-- One policy asks for at least what another asks for. -/
structure Strengthens (stronger policy : CompletionPolicy) : Prop where
  evidence : policy.requiredEvidence ⊆ stronger.requiredEvidence
  repository : policy.requireRepositoryChange = true → stronger.requireRepositoryChange = true
  remaining : policy.requireNoRemainingWork = true → stronger.requireNoRemainingWork = true
  tests : policy.requireTestsPassed = true → stronger.requireTestsPassed = true

/-- A kind of evidence that is present is met, the tests apart. -/
theorem evidenceMet_of_present {type : String} {e : VerifiedEvidence} (h : evidencePresent type e = true)
    (hexit : ∀ n, e.exitCode = some n → n = 0) (htests : type = "tests_passed" → e.testsPassed = some true) :
    EvidenceMet type e := by
  refine ⟨h, ?_, htests⟩
  rintro rfl
  obtain ⟨n, hn⟩ := Option.isSome_iff_exists.mp (show e.exitCode.isSome = true from h)
  rw [hn, hexit n hn]

/-- A completion leaves only one requirement open: tests that are listed but not flagged. -/
theorem policyMet_of_complete {policy : CompletionPolicy} {e : VerifiedEvidence} {remainingWork : Option (List Json)}
    (h : evaluateCompletion policy e remainingWork = .complete)
    (htests : "tests_passed" ∈ policy.requiredEvidence → e.testsPassed = some true) :
    PolicyMet policy e remainingWork := by
  obtain ⟨hfailed, hcancelled, hexit, hmissing⟩ := evaluateCompletion_complete_iff.mp h
  obtain ⟨hlisted, hrepository, hflag, hremaining⟩ := missingEvidence_nil.mp hmissing
  refine ⟨⟨hfailed, hcancelled⟩, hexit, ?_, hrepository, hflag, hremaining⟩
  intro t ht
  refine evidenceMet_of_present (hlisted t ht) hexit ?_
  rintro rfl
  exact htests ht

/-- **A strengthened policy completes less.** -/
theorem Strengthens.completes {stronger policy : CompletionPolicy} {e : VerifiedEvidence}
    {remainingWork : Option (List Json)} (hs : Strengthens stronger policy)
    (h : evaluateCompletion stronger e remainingWork = .complete) :
    evaluateCompletion policy e remainingWork = .complete := by
  obtain ⟨hfailed, hcancelled, hexit, hmissing⟩ := evaluateCompletion_complete_iff.mp h
  obtain ⟨hlisted, hrepository, hflag, hremaining⟩ := missingEvidence_nil.mp hmissing
  refine evaluateCompletion_complete_iff.mpr ⟨hfailed, hcancelled, hexit, missingEvidence_nil.mpr ⟨?_, ?_, ?_, ?_⟩⟩
  · intro t ht
    exact hlisted t (hs.evidence ht)
  · exact fun hset => hrepository (hs.repository hset)
  · exact fun hset => hflag (hs.tests hset)
  · exact fun hset => hremaining (hs.remaining hset)

/-- **COMPLETION DECISIONS**: a completion means that the policy is met, except just when the
    policy lists `tests_passed` without the flag, the observed tests failed and all the rest is
    met; and strengthening a policy never makes it complete. -/
theorem completion_sound_iff (policy : CompletionPolicy) (e : VerifiedEvidence) (remainingWork : Option (List Json)) :
    ((evaluateCompletion policy e remainingWork = .complete → PolicyMet policy e remainingWork) ↔
      ¬ FailedTestsListed policy e remainingWork) ∧
    ∀ stronger, Strengthens stronger policy →
      evaluateCompletion stronger e remainingWork = .complete →
        evaluateCompletion policy e remainingWork = .complete := by
  refine ⟨⟨?_, ?_⟩, fun stronger hs => hs.completes⟩
  · rintro hsound ⟨hlisted, hflag, hfailed, hrest⟩
    -- the listed tests are observed, so nothing stands in the way of completing
    have hcomplete : evaluateCompletion policy e remainingWork = .complete := by
      refine evaluateCompletion_complete_iff.mpr ⟨hrest.status.1, hrest.status.2, hrest.exit,
        missingEvidence_nil.mpr ⟨?_, hrest.repository, ?_, hrest.remaining⟩⟩
      · intro t ht
        by_cases htests : t = "tests_passed"
        · rw [htests]
          show e.testsPassed.isSome = true
          rw [hfailed]
          rfl
        · exact (hrest.listed t (List.mem_filter.mpr ⟨ht, decide_eq_true htests⟩)).1
      · intro hset
        rw [hflag] at hset
        exact nomatch hset
    have hpassed := ((hsound hcomplete).listed _ hlisted).2.2 rfl
    rw [hfailed] at hpassed
    exact nomatch hpassed
  · intro hnot hcomplete
    refine policyMet_of_complete hcomplete ?_
    intro hlisted
    obtain ⟨-, -, -, hmissing⟩ := evaluateCompletion_complete_iff.mp hcomplete
    obtain ⟨hpresent, -, hflag, -⟩ := missingEvidence_nil.mp hmissing
    obtain ⟨passed, hpassed⟩ := Option.isSome_iff_exists.mp
      (show e.testsPassed.isSome = true from hpresent _ hlisted)
    cases passed with
    | true => exact hpassed
    | false =>
      refine absurd ⟨hlisted, ?_, hpassed, ?_⟩ hnot
      · cases hset : policy.requireTestsPassed with
        | false => rfl
        | true =>
          rw [hflag hset] at hpassed
          exact nomatch hpassed
      · have hrest : evaluateCompletion (testsUnlisted policy) e remainingWork = .complete :=
          Strengthens.completes ⟨fun t ht => (List.mem_filter.mp ht).1, id, id, id⟩ hcomplete
        refine policyMet_of_complete hrest ?_
        intro hin
        exact absurd rfl (of_decide_eq_true (List.mem_filter.mp hin).2)

/-- Tests are listed as evidence, were observed, and failed: the workflow completes. -/
theorem failed_tests_complete :
    let policy : CompletionPolicy := ⟨["tests_passed"], false, false, false⟩
    let e : VerifiedEvidence := ⟨some "completed", some 0, none, none, none, none, none, none, some false⟩
    evaluateCompletion policy e none = .complete ∧ ¬ PolicyMet policy e none := by
  refine ⟨by decide, ?_⟩
  intro hmet
  exact nomatch (hmet.listed "tests_passed" List.mem_cons_self).2.2 rfl

/-- The completing step's declared remaining work: a claim, not evidence. -/
def declaredRemainingWork (output : Json) : Option (List Json) :=
  match output.get? "remaining_work" with
  | some (.arr xs) => some xs
  | _ => none

/-! ## Stall detection -/

/-- A fingerprint over the configured signals only, in a fixed order. -/
def computeStallFingerprint (cfg : Config) (signals : List String) (values : Json) : String :=
  let sorted := signals.eraseDups.mergeSort (fun a b => decide (a ≤ b))
  cfg.digest ("\x00".intercalate (sorted.map (fun s => s ++ "=" ++ strField values s)))

/-- How many of the latest fingerprints equal the last one. -/
def consecutiveUnchanged (fps : List String) : Nat :=
  match fps.reverse with
  | [] => 0
  | last :: rest => (rest.takeWhile (fun f => f == last)).length + 1

def isStalled (fps : List String) (maxStalledRounds : Nat) : Bool :=
  decide (maxStalledRounds ≤ consecutiveUnchanged fps)

end VibeRuntime
