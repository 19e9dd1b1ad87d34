import VibeWorkflow.CompilerContractProofs
import VibeWorkflow.PoolProofs

/-!
# The compiler, the builder and their store

A compile is a keyed operation on a draft: look the draft up, create it once, run the compiler's agent
task, finalize the draft once.  The builder is a conversation over it, one compile a turn; an approval
turns a finalized draft into a workflow.  All of them are calls of one process over one store, and each
awaits one operation at a time.

The columns that `finalizeDraft` writes stand in the row as one value, which is there or not; a row is
approved when it has its workflow.  A message's random id is its sequence, which is as unique.

* `World`, `exec` — the tables and the agent tasks, and one operation on them;
* `compile`, `approve`, `sendMessage` — the programs;
* `compiler` — the process that serves them.
-/

namespace VibeCompiler

open VibeJson VibeContract VibeValidator VibeStore VibeAdmission AsyncLogic

/-! ## Rows -/

/-- What a draft is finalized with. -/
structure Patch where
  compilerStatus : CompilerStatus
  valid : Bool
  spec : Option Json
  inputValues : Option (List (String × Json))
  specHash : Option String
  policySummary : Option Json
  policySummaryHash : Option String
  preview : Option Json
  rationale : Option Json
  warnings : Option (List String)
  questions : Option (List String)
deriving DecidableEq

/-- A row of `workflow_drafts`; without a content it is `pending`. -/
structure Draft where
  draftId : String
  idempotencyKey : Option String
  requestFingerprint : String
  constraints : Json
  inventory : Inventory
  inventoryHash : String
  compilerTaskId : Option String
  capability : Option Json
  content : Option Patch
  materializedWorkflowId : Option String
deriving DecidableEq

structure DraftInput where
  draftId : String
  idempotencyKey : Option String
  requestFingerprint : String
  constraints : Json
  inventory : Inventory
  inventoryHash : String
deriving DecidableEq

def DraftInput.row (i : DraftInput) : Draft :=
  ⟨i.draftId, i.idempotencyKey, i.requestFingerprint, i.constraints, i.inventory, i.inventoryHash, none,
    none, none, none⟩

inductive TaskStatus where
  | running | completed | failed | cancelled
deriving DecidableEq, Repr

def TaskStatus.isTerminal : TaskStatus → Bool
  | .running => false
  | _ => true

/-- A task's durable result, once it is published. -/
inductive ResultRow where
  | available (text : String)
  | missing
  | invalid
deriving DecidableEq

structure TaskRequest where
  agent : String
  nodeId : Option String
  text : String
  permissionMode : String
  idempotencyKey : String
deriving DecidableEq

structure AgentTask where
  taskId : String
  request : TaskRequest
  status : TaskStatus
  result : Option ResultRow
deriving DecidableEq

/-- One window of waiting for a task. -/
structure TerminalRead where
  status : TaskStatus
  result : Option ResultRow
  nextEventId : Int
deriving DecidableEq

structure WorkflowRecord where
  workflowId : String
  spec : Json
  inputValues : List (String × Json)
  context : List (String × Json)
  status : WorkflowStatus
deriving DecidableEq

inductive Role where
  | user | assistant
deriving DecidableEq, Repr

def Role.name : Role → String
  | .user => "user"
  | .assistant => "assistant"

structure Message where
  role : Role
  content : String
  sequence : Nat
  draftId : Option String
  specHash : Option String
  details : Option Json
  turnKey : String
deriving DecidableEq

structure Session where
  active : Bool
  currentDraftId : Option String
  currentSpecHash : Option String
  revision : Nat
  compilerAgent : Option String
  compilerNodeId : Option String
  pendingTurnKey : Option String
deriving DecidableEq

/-- What completes a turn. -/
structure Completion where
  content : String
  draftId : Option String
  specHash : Option String
  details : Json
  turnKey : String
  currentDraftId : Option String
  currentSpecHash : Option String
deriving DecidableEq

/-- The tables, the rows of one builder session, and the agent tasks. -/
structure World where
  drafts : List Draft
  tasks : List AgentTask
  workflows : List WorkflowRecord
  session : Session
  messages : List Message
deriving DecidableEq

namespace World

def draft? (w : World) (id : String) : Option Draft := w.drafts.find? (fun d => d.draftId = id)

def workflow? (w : World) (id : String) : Option WorkflowRecord := w.workflows.find? (fun f => f.workflowId = id)

def taskOf? (w : World) (key : String) : Option AgentTask := w.tasks.find? (fun t => t.request.idempotencyKey = key)

def task? (w : World) (id : String) : Option AgentTask := w.tasks.find? (fun t => t.taskId = id)

def setDraft (w : World) (id : String) (f : Draft → Draft) : World :=
  { w with drafts := w.drafts.map (fun d => if d.draftId = id then f d else d) }

/-- `builderTurnRow`. -/
def turnRow (w : World) (turnKey : String) (role : Role) : Option Message :=
  w.messages.find? (fun m => m.turnKey = turnKey ∧ m.role = role)

/-- `MAX(sequence) + 1`. -/
def nextSeq (w : World) : Nat := ((w.messages.map Message.sequence).max?.map (· + 1)).getD 0

end World

/-! ## Operations -/

inductive CallError where
  | compiler (code message : String)
  | builder (code message : String)
  | store (code message : String)
  | task (isTransient : Bool) (message : String)
deriving DecidableEq

/-- `err.message`. -/
def CallError.text : CallError → String
  | .compiler _ m | .builder _ m | .store _ m | .task _ m => m

inductive Op where
  | getDraft (id : String)
  | snapshot
  | createDraft (input : DraftInput)
  | createTask (req : TaskRequest)
  /-- `i` is the client's own count of its waits; the service does not see it. -/
  | waitForTerminal (taskId : String) (cursor : Int) (i : Nat)
  | bindDraftCompilerTask (id taskId : String) (capability : Json)
  | finalizeDraft (id : String) (patch : Patch)
  | getWorkflow (id : String)
  | createWorkflow (id : String) (spec : Json) (inputValues : List (String × Json))
  | approveDraftWithWorkflow (id workflowId : String)
  | getBuilderSession
  | findBuilderTurn (turnKey : String)
  | appendBuilderUserMessage (content turnKey : String)
  | listBuilderMessages
  | completeBuilderTurn (expectedRevision : Nat) (input : Completion)
deriving DecidableEq

abbrev Ans : Op → Type
  | .getDraft _ => Option Draft
  | .snapshot => Inventory
  | .createDraft _ => Draft
  | .createTask _ => String
  | .waitForTerminal _ _ _ => TerminalRead
  | .bindDraftCompilerTask _ _ _ => Unit
  | .finalizeDraft _ _ => Draft
  | .getWorkflow _ => Option WorkflowRecord
  | .createWorkflow _ _ _ => Unit
  | .approveDraftWithWorkflow _ _ => Draft
  | .getBuilderSession => Session
  | .findBuilderTurn _ => Option Message × Option Message
  | .appendBuilderUserMessage _ _ => Message
  | .listBuilderMessages => List Message
  | .completeBuilderTurn _ _ => Session × Message × Bool

def sig : Sig where
  Op := Op
  Ans := Ans
  Err := CallError
  Flags := Unit
  Label := Empty
  Ret := fun l => nomatch l

/-- What the environment chooses when an operation takes effect. -/
inductive Input where
  | run
  | storeFail (code message : String)
  /-- A failed create may still have reached the service, under an id. -/
  | taskFail (isTransient : Bool) (message : String) (arrived : Option String)
  | created (id : String)
  | waited (nextEventId : Int)
  | inventory (inv : Inventory)
deriving DecidableEq

/-- A store operation: it runs, or is refused and changes nothing. -/
def storeCall {α : Type} (w : World) (inp : Input) (run : Except CallError (World × α)) :
    Option (Except CallError α × World) :=
  match inp with
  | .run => match run with
    | .ok (w', a) => some (.ok a, w')
    | .error e => some (.error e, w)
  | .storeFail code message => some (.error (.store code message), w)
  | _ => none

/-- `createDraft`: create or return by the stable id. -/
def createDraft (w : World) (input : DraftInput) : World × Draft :=
  match w.draft? input.draftId with
  | some existing => (w, existing)
  | none => ({ w with drafts := w.drafts ++ [input.row] }, input.row)

def bindDraftCompilerTask (w : World) (id taskId : String) (capability : Json) : Except CallError (World × Unit) :=
  match w.draft? id with
  | none => .error (.store "not_found" ("draft not found: " ++ id))
  | some d =>
    if d.compilerTaskId ≠ none ∧ d.compilerTaskId ≠ some taskId then
      .error (.store "invalid_transition" "draft compiler task is immutable once bound")
    else if d.compilerTaskId = none then
      .ok (w.setDraft id (fun d => { d with compilerTaskId := some taskId, capability := some capability }), ())
    else .ok (w, ())

/-- `finalizeDraft`: the first one wins. -/
def finalizeDraft (w : World) (id : String) (patch : Patch) : Except CallError (World × Draft) :=
  match w.draft? id with
  | none => .error (.store "not_found" ("draft not found: " ++ id))
  | some d =>
    if d.content.isSome then .ok (w, d)
    else .ok (w.setDraft id (fun d => { d with content := some patch }), { d with content := some patch })

/-- `createWorkflowWithLifecycleEvents`, with the store's checks of a new workflow. -/
def createWorkflow (w : World) (id : String) (spec : Json) (inputValues : List (String × Json)) :
    Except CallError (World × Unit) :=
  if (w.workflow? id).isSome then .error (.store "duplicate" ("workflow already exists: " ++ id))
  else match VibeAdmission.createWorkflow spec inputValues with
    | .error e => .error (.store "refused" e.message)
    | .ok st => .ok ({ w with workflows := w.workflows ++ [⟨id, spec, inputValues, st.context, .ready⟩] }, ())

def approveDraftWithWorkflow (w : World) (id workflowId : String) : Except CallError (World × Draft) :=
  match w.draft? id with
  | none => .error (.store "not_found" ("draft not found: " ++ id))
  | some d =>
    if d.materializedWorkflowId.isSome then .ok (w, d)
    else .ok (w.setDraft id (fun d => { d with materializedWorkflowId := some workflowId }),
      { d with materializedWorkflowId := some workflowId })

/-- `appendBuilderUserMessage`: the message and the pending mark in one transaction. -/
def appendBuilderUserMessage (w : World) (content turnKey : String) : Except CallError (World × Message) :=
  if !w.session.active then .error (.store "invalid_transition" "builder session is archived; it cannot accept new messages")
  else match w.turnRow turnKey .user with
    | some m => .ok (w, m)
    | none =>
      if w.session.pendingTurnKey ≠ none ∧ w.session.pendingTurnKey ≠ some turnKey then
        .error (.store "builder_turn_in_progress" "a turn is already in progress on this session")
      else
        let m : Message := ⟨.user, content, w.nextSeq, none, none, none, turnKey⟩
        .ok ({ w with
          messages := w.messages ++ [m]
          session := { w.session with pendingTurnKey := some turnKey } }, m)

/-- `completeBuilderTurn`: the reply, the pointer and the revision in one transaction. -/
def completeBuilderTurn (w : World) (expectedRevision : Nat) (input : Completion) :
    Except CallError (World × (Session × Message × Bool)) :=
  match w.turnRow input.turnKey .assistant with
  | some m => .ok (w, (w.session, m, true))
  | none =>
    if !w.session.active then .error (.store "invalid_transition" "builder session is archived; it cannot accept new messages")
    else if w.session.revision ≠ expectedRevision then
      .error (.store "builder_revision_conflict" ("session revision is " ++ toString w.session.revision
        ++ ", not the expected " ++ toString expectedRevision))
    else
      let m : Message := ⟨.assistant, input.content, w.nextSeq, input.draftId, input.specHash,
        some input.details, input.turnKey⟩
      let session := { w.session with
        currentDraftId := input.currentDraftId
        currentSpecHash := input.currentSpecHash
        revision := w.session.revision + 1
        pendingTurnKey := none }
      .ok ({ w with messages := w.messages ++ [m], session := session }, (session, m, false))

/-- A create request reaches the task service: one task a key, and a different request under a used key
    is refused. -/
def deliver (w : World) (req : TaskRequest) (id : String) : Option (Except CallError String × World) :=
  match w.taskOf? req.idempotencyKey with
  | some t => if t.request = req then some (.ok t.taskId, w)
      else some (.error (.task false "idempotency key was used with a different request"), w)
  | none => if (w.task? id).isSome then none
      else some (.ok id, { w with tasks := w.tasks ++ [⟨id, req, .running, none⟩] })

/-- The effect of an operation. -/
def exec (op : Op) (w : World) (inp : Input) : Option (Except CallError (Ans op) × World) :=
  match op with
  | .getDraft id => storeCall w inp (.ok (w, w.draft? id))
  | .snapshot => match inp with
    | .inventory inv => some (.ok inv, w)
    | .storeFail code message => some (.error (.store code message), w)
    | _ => none
  | .createDraft input => storeCall w inp (.ok (createDraft w input))
  | .createTask req => match inp with
    | .created id => deliver w req id
    | .taskFail isTransient message none => some (.error (.task isTransient message), w)
    | .taskFail isTransient message (some id) =>
      (deliver w req id).map fun r => (.error (.task isTransient message), r.2)
    | _ => none
  | .waitForTerminal taskId _ _ => match inp with
    | .waited next => (w.task? taskId).map fun t => (.ok ⟨t.status, t.result, next⟩, w)
    | .taskFail isTransient message _ => some (.error (.task isTransient message), w)
    | _ => none
  | .bindDraftCompilerTask id taskId capability => storeCall w inp (bindDraftCompilerTask w id taskId capability)
  | .finalizeDraft id patch => storeCall w inp (finalizeDraft w id patch)
  | .getWorkflow id => storeCall w inp (.ok (w, w.workflow? id))
  | .createWorkflow id spec inputValues => storeCall w inp (createWorkflow w id spec inputValues)
  | .approveDraftWithWorkflow id workflowId => storeCall w inp (approveDraftWithWorkflow w id workflowId)
  | .getBuilderSession => storeCall w inp (.ok (w, w.session))
  | .findBuilderTurn turnKey => storeCall w inp (.ok (w, (w.turnRow turnKey .user, w.turnRow turnKey .assistant)))
  | .appendBuilderUserMessage content turnKey => storeCall w inp (appendBuilderUserMessage w content turnKey)
  | .listBuilderMessages => storeCall w inp (.ok (w, w.messages))
  | .completeBuilderTurn expectedRevision input => storeCall w inp (completeBuilderTurn w expectedRevision input)

/-! ## The compiler -/

abbrev Call (α : Type) := Js sig α

def call (op : Op) : Call (Ans op) := Js.await (S := sig) op

def fail {α : Type} (e : CallError) : Call α := MonadExcept.throw e

/-- `try { return ok } catch (e) { return error }`. -/
def attempt {α : Type} (m : Call α) : Call (Except CallError α) :=
  MonadExcept.tryCatch (m >>= fun a => pure (.ok a)) (fun e => pure (.error e))

/-- The digests, the platform's `JSON.parse`, the policy and the session.  The shortened digests that ids
    are made of do not collide. -/
structure Setup where
  digest : String → String
  draftDigest : String → String
  workflowDigest : String → String
  jsonParse : String → Option Json
  policy : SystemPolicy
  maxWaits : Nat
  sessionId : String
  draftDigest_inj : ∀ a b, draftDigest a = draftDigest b → a = b
  workflowDigest_inj : ∀ a b, workflowDigest a = workflowDigest b → a = b

section

variable (cfg : Setup)

def canonicalHash (value : Json) : String := cfg.digest (canonicalJson value)

structure CompileRequest where
  nlRequest : String
  constraints : Option Json
  compilerAgent : String
  compilerNodeId : Option String
  idempotencyKey : Option String
  /-- The random digits of an unkeyed draft's id. -/
  random : String
deriving DecidableEq

def maxRequestBytes : Nat := 16 * 1024

/-- `SAFE_IDEM_KEY_RE` and `SAFE_KEY_RE`. -/
def isSafeKey (key : String) : Bool :=
  matchesId isAlnum (fun c => isAlnum c || c == '.' || c == '_' || c == ':' || c == '-') 127 key

def CompileRequest.given (req : CompileRequest) : Json := req.constraints.getD (.obj [])

/-- The request's identity: the normalized text and the constraints. -/
def fingerprint (nlRequest : String) (constraints : Json) : String :=
  canonicalHash cfg (.obj [("request", .str (trim nlRequest)), ("constraints", constraints)])

def CompileRequest.fingerprint (req : CompileRequest) : String := VibeCompiler.fingerprint cfg req.nlRequest req.given

def keyedDraftId (key : String) : String := "wd_" ++ cfg.draftDigest ("key:" ++ key)

def CompileRequest.draftId (req : CompileRequest) : String :=
  match req.idempotencyKey with
  | some key => keyedDraftId cfg key
  | none => "wd_" ++ req.random

inductive Outcome where
  | available (text : String)
  | missing | invalid | failed
deriving DecidableEq

/-- What the client makes of a terminal read. -/
def outcomeOf (status : TaskStatus) (result : Option ResultRow) : Outcome :=
  match status, result with
  | .completed, some (.available text) => .available text
  | .completed, some .invalid => .invalid
  | .completed, _ => .missing
  | _, _ => .failed

/-- The client's waits, of which `left` are left. -/
def waits (taskId : String) : (left i : Nat) → (cursor : Int) → Call Outcome
  | 0, _, _ => pure .missing
  | left + 1, i, cursor => do
    let read ← attempt (call (.waitForTerminal taskId cursor i))
    match read with
    | .error (.task true _) => waits taskId left (i + 1) cursor
    | .error e => fail e
    | .ok r =>
      if r.status.isTerminal then pure (outcomeOf r.status r.result) else waits taskId left (i + 1) r.nextEventId

/-- `AgentTaskCompilerModelClient.compile`. -/
def modelCompile (req : TaskRequest) : Call (String × Outcome) := do
  let taskId : String ← call (.createTask req)
  let outcome ← waits taskId cfg.maxWaits 0 (-1)
  pure (taskId, outcome)

def invalidPatch (status : CompilerStatus) (warnings : List String) : Patch :=
  ⟨status, false, none, none, none, none, none, none, none, some warnings, none⟩

def issueText (i : ValidationIssue) : String := i.code ++ ((i.path.filter (· ≠ "")).map (" @ " ++ ·)).getD ""

/-- What a draft is finalized with on an outcome. -/
def outcomePatch (inventory : Inventory) : Outcome → Patch
  | .available text =>
    match parseCompilerResult cfg.jsonParse text with
    | .error code => invalidPatch .impossible ["compiler output rejected: " ++ code.name]
    | .ok result =>
      if result.status ≠ .ready then
        ⟨result.status, false, none, none, none, none, none, none, some result.rationale, some result.warnings,
          some result.questions⟩
      else match validateReady result.workflowSpec result.inputValues inventory cfg.policy with
        | .error issues => ⟨.ready, false, none, none, none, none, none, none, some result.rationale,
            some ((result.warnings ++ issues.map issueText).take 100), some result.questions⟩
        | .ok values =>
          let spec := result.workflowSpec
          ⟨.ready, true, some spec, some values, some (canonicalHash cfg spec), some (buildPolicySummary spec),
            some (canonicalHash cfg (buildPolicySummary spec)), some (buildPreview spec), some result.rationale,
            some result.warnings, some result.questions⟩
  | _ => invalidPatch .impossible ["compiler produced no authoritative result"]

/-- The fail-closed refusal of a placement that cannot enforce the compiler's profile. -/
def refusalPatch : Patch :=
  invalidPatch .impossible
    ["compiler backend cannot enforce the minimum-capability profile (permission_mode \"default\" unsupported)"]

def enforceable (inventory : Inventory) (agent : String) (nodeId : Option String) : Bool :=
  (findPlacement inventory agent nodeId).any (fun p => p.permissionModes.contains "default")

def capabilityOf (agent : String) (nodeId : Option String) : Json :=
  .obj [("permission_mode", .str "default"), ("workspace_write", .bool false), ("git_push", .bool false),
    ("deploy", .bool false), ("secret_access", .bool false), ("external_side_effects", .bool false),
    ("network", .bool false), ("agent", .str agent), ("node_id", (nodeId.map Json.str).getD .null),
    ("enforced_by", .str "node")]

/-- The compiler's task for a draft. -/
def taskRequest (d : Draft) (req : CompileRequest) : TaskRequest :=
  ⟨req.compilerAgent, req.compilerNodeId.filter (· ≠ ""), buildCompilerPrompt req.nlRequest d.constraints d.inventory,
    "default", "compile:" ++ d.draftId⟩

/-- `runCompile`: run or resume a pending draft with the inventory it was created with. -/
def runCompile (d : Draft) (req : CompileRequest) : Call Draft :=
  if !enforceable d.inventory req.compilerAgent req.compilerNodeId then call (.finalizeDraft d.draftId refusalPatch)
  else do
    let (taskId, outcome) ← modelCompile cfg (taskRequest d req)
    let _ : Unit ← call (.bindDraftCompilerTask d.draftId taskId (capabilityOf req.compilerAgent req.compilerNodeId))
    call (.finalizeDraft d.draftId (outcomePatch cfg d.inventory outcome))

/-- A draft that is there is returned as it is, or driven. -/
def returnOrRun (d : Draft) (req : CompileRequest) : Call Draft :=
  if d.content.isSome then pure d else runCompile cfg d req

/-- The first creation of a draft: one inventory snapshot, stored with it. -/
def createAndRun (req : CompileRequest) : Call Draft := do
  let inventory : Inventory ← call .snapshot
  let d : Draft ← call (.createDraft ⟨req.draftId cfg, req.idempotencyKey, req.fingerprint cfg, req.given, inventory,
    canonicalHash cfg inventory.json⟩)
  returnOrRun cfg d req

/-- The checks of a compile request. -/
@[irreducible] def checkRequest (req : CompileRequest) : Option CallError :=
  if trim req.nlRequest = "" ∨ maxRequestBytes < byteLen req.nlRequest then
    some (.compiler "invalid_request" "nl_request must be a non-empty bounded string")
  else if req.idempotencyKey.any (fun k => !isSafeKey k) then
    some (.compiler "invalid_request" "idempotency_key must be a bounded safe identifier")
  else none

def conflict : CallError :=
  .compiler "idempotency_conflict" "idempotency_key was used with a different request/constraints"

/-- `compile`. -/
def compile (req : CompileRequest) : Call Draft :=
  match checkRequest req with
  | some e => fail e
  | none =>
    match req.idempotencyKey with
    | none => createAndRun cfg req
    | some _ => do
      let existing : Option Draft ← call (.getDraft (req.draftId cfg))
      match existing with
      | none => createAndRun cfg req
      | some d => if d.requestFingerprint ≠ req.fingerprint cfg then fail conflict else returnOrRun cfg d req

/-! ## Approval -/

def workflowIdOf (draftId : String) : String := "wf_" ++ cfg.workflowDigest ("materialize:" ++ draftId)

/-- `materializeWorkflow`: an id that is there counts as done. -/
def materializeWorkflow (workflowId : String) (spec : Json) (inputValues : List (String × Json)) : Call Unit := do
  let found : Option WorkflowRecord ← call (.getWorkflow workflowId)
  if found.isSome then pure ()
  else
    let made ← attempt (call (.createWorkflow workflowId spec inputValues))
    match made with
    | .ok _ => pure ()
    | .error e => do
      let again : Option WorkflowRecord ← call (.getWorkflow workflowId)
      if again.isSome then pure () else fail e

/-- `approve`. -/
def approve (draftId inspectedSpecHash : String) : Call (Draft × String) := do
  let found : Option Draft ← call (.getDraft draftId)
  match found with
  | none => fail (.compiler "draft_not_found" ("no such draft: " ++ draftId))
  | some d =>
    match d.materializedWorkflowId with
    | some workflowId =>
      if d.content.bind Patch.specHash ≠ some inspectedSpecHash then
        fail (.compiler "approval_hash_conflict" "spec_hash does not match the approved draft")
      else pure (d, workflowId)
    | none =>
      match d.content with
      | none => fail (.compiler "draft_not_approvable" "draft is not a validated ready draft")
      | some p =>
        if p.compilerStatus ≠ .ready ∨ p.valid = false ∨ p.specHash = none ∨ p.specHash = some "" then
          fail (.compiler "draft_not_approvable" "draft is not a validated ready draft")
        else if p.specHash ≠ some inspectedSpecHash then
          fail (.compiler "approval_hash_conflict" "inspected spec_hash does not match the draft")
        else do
          materializeWorkflow (workflowIdOf cfg draftId) (p.spec.getD .null) (p.inputValues.getD [])
          let updated : Draft ← call (.approveDraftWithWorkflow draftId (workflowIdOf cfg draftId))
          pure (updated, workflowIdOf cfg draftId)

/-! ## The builder -/

inductive TurnKind where
  | readyForReview | draftUpdated | clarificationRequired | compileFailed
deriving DecidableEq, Repr

def TurnKind.name : TurnKind → String
  | .readyForReview => "ready_for_review"
  | .draftUpdated => "draft_updated"
  | .clarificationRequired => "clarification_required"
  | .compileFailed => "compile_failed"

/-- `!!spec_hash`. -/
def hashed (p : Patch) : Bool := (p.specHash.filter (· ≠ "")).isSome

def classifyDraft (d : Draft) : TurnKind :=
  match d.content with
  | none => .draftUpdated
  | some p =>
    if p.compilerStatus = .ready ∧ p.valid = true ∧ hashed p then .readyForReview
    else if p.compilerStatus = .needsInput then .clarificationRequired
    else if p.compilerStatus = .impossible ∨ p.compilerStatus = .policyDenied ∨ p.valid = false then .compileFailed
    else .draftUpdated

def draftQuestions (d : Draft) : List String := (d.content.bind Patch.questions).getD []
def draftWarnings (d : Draft) : List String := (d.content.bind Patch.warnings).getD []

def assistantText (kind : TurnKind) (d : Draft) : String :=
  let name := ((d.content.bind Patch.spec).bind (strField? · "name")).filter (· ≠ "")
  match kind with
  | .readyForReview => "The workflow" ++ (name.map fun n => " \"" ++ n ++ "\"").getD "" ++
      " is ready for review. Inspect the preview, then approve spec_hash " ++
      ((d.content.bind Patch.specHash).getD "null") ++ " to materialize it (nothing is started automatically)."
  | .clarificationRequired =>
    if (draftQuestions d).isEmpty then "I need more information before I can compile this workflow."
    else "I need a little more information before I can finish:\n- " ++ "\n- ".intercalate (draftQuestions d)
  | .compileFailed =>
    if (draftWarnings d).isEmpty then "I could not compile a valid workflow from that request."
    else "I could not compile a valid workflow: " ++ "; ".intercalate ((draftWarnings d).take 5)
  | .draftUpdated => "The draft was updated" ++ (name.map fun n => " (" ++ n ++ ")").getD "" ++ "."

def statusName (d : Draft) : String := (d.content.map fun p => p.compilerStatus.name).getD "pending"

def validationName (d : Draft) : String := (d.content.map fun p => if p.valid then "valid" else "invalid").getD "pending"

def assistantMetadata (kind : TurnKind) (d : Draft) : Json :=
  .obj [("kind", .str kind.name), ("compiler_status", .str (statusName d)), ("validation_status", .str (validationName d)),
    ("spec_hash", ((d.content.bind Patch.specHash).map Json.str).getD .null),
    ("questions", strArr ((draftQuestions d).take 50)),
    ("missing", strArr (if kind = .clarificationRequired then (draftQuestions d).take 50 else [])),
    ("warnings", strArr ((draftWarnings d).take 50))]

structure SendInput where
  content : String
  expectedRevision : Option Nat
  idempotencyKey : Option String
deriving DecidableEq

structure TurnResult where
  session : Session
  message : Message
  kind : TurnKind
  draft : Option Draft
  replayed : Bool
deriving DecidableEq

def maxContentBytes : Nat := 32 * 1024
def maxHistory : Nat := 20

def keyRequired : CallError :=
  .builder "builder_idempotency_key_required"
    "a stable `idempotency_key` is required for every builder message (it is the durable turn key used for crash recovery)"

/-- The checks of a message, with its turn key. -/
@[irreducible] def checkInput (input : SendInput) : Except CallError String :=
  if trim input.content = "" ∨ maxContentBytes < byteLen input.content then
    .error (.builder "invalid_request" "`content` must be a non-empty bounded string")
  else match input.idempotencyKey with
    | none => .error keyRequired
    | some key =>
      if trim key = "" then .error keyRequired
      else if !isSafeKey key then .error (.builder "invalid_request" "`idempotency_key` must be a bounded safe identifier")
      else .ok key

def historyOf (prior : List Message) : Json :=
  .arr ((prior.drop (prior.length - maxHistory)).map fun m =>
    .obj [("role", .str m.role.name), ("content", .str (String.ofList (sliceUnits 4000 m.content.toList)))])

/-- The spec of a draft that is shown to the compiler: a validated one. -/
def currentSpec (d : Option Draft) : Json :=
  ((d.bind Draft.content).bind fun p => if p.valid then p.spec else none).getD .null

/-- The context a turn is compiled in. -/
def builderConstraints (prior : List Message) (current : Option Draft) : Json :=
  .obj [("builder_context", .obj [("history", historyOf prior), ("current_spec", currentSpec current),
    ("current_spec_hash", (((current.bind Draft.content).bind Patch.specHash).map Json.str).getD .null)])]

def compileKey (turnKey : String) : String := "builder:" ++ cfg.sessionId ++ ":" ++ turnKey

/-- The draft a session points at. -/
def currentDraft (session : Session) : Call (Option Draft) :=
  match session.currentDraftId with
  | none => pure none
  | some id => call (.getDraft id)

/-- What completes a turn whose compile failed. -/
def failedCompletion (session : Session) (turnKey : String) (e : CallError) : Completion :=
  ⟨"Compilation failed: " ++ e.text, none, none, .obj [("kind", .str "compile_failed"), ("error", .str e.text)], turnKey,
    session.currentDraftId, session.currentSpecHash⟩

/-- What completes a turn with its draft: the pointer moves to a validated one only. -/
def draftCompletion (session : Session) (turnKey : String) (d : Draft) : Completion :=
  let advance := d.content.any fun p => p.valid && hashed p
  let kind := classifyDraft d
  ⟨assistantText kind d, some d.draftId, d.content.bind Patch.specHash, assistantMetadata kind d, turnKey,
    if advance then some d.draftId else session.currentDraftId,
    if advance then d.content.bind Patch.specHash else session.currentSpecHash⟩

/-- The two store errors that reach a caller under the builder's names. -/
def builderError (e : CallError) (codes : List (String × String)) : CallError :=
  match e with
  | .store code message => match lookup codes code with
    | some name => .builder name message
    | none => e
  | _ => e

def mapErrors {α : Type} (m : Call α) (codes : List (String × String)) : Call α :=
  MonadExcept.tryCatch m (fun e => fail (builderError e codes))

/-- The request a turn compiles. -/
def turnRequest (session : Session) (agent turnKey content : String) (prior : List Message) (current : Option Draft) :
    CompileRequest :=
  ⟨content, some (builderConstraints prior current), agent, session.compilerNodeId, some (compileKey cfg turnKey), ""⟩

/-- The turn from its stored user message on. -/
def runTurn (session : Session) (agent turnKey : String) (expectedRevision : Nat) (own : Message) :
    Call TurnResult := do
  let messages : List Message ← call .listBuilderMessages
  let current ← currentDraft session
  let compiled ← attempt (compile cfg (turnRequest cfg session agent turnKey own.content
    (messages.filter fun m => m.sequence ≠ own.sequence) current))
  match compiled with
  | .error e => do
    let (session', message, replay) ← call (.completeBuilderTurn expectedRevision (failedCompletion session turnKey e))
    pure ⟨session', message, .compileFailed, none, replay⟩
  | .ok d => do
    let (session', message, replay) ← mapErrors
      (call (.completeBuilderTurn expectedRevision (draftCompletion session turnKey d)))
      [("builder_revision_conflict", "builder_revision_conflict"), ("invalid_transition", "builder_session_not_active")]
    pure ⟨session', message, classifyDraft d, some d, replay⟩

/-- A completed turn is replayed. -/
def replayTurn (session : Session) (m : Message) : Call TurnResult := do
  let d : Option Draft ← (match m.draftId with
    | none => pure none
    | some id => call (.getDraft id))
  let kind := match (m.details.bind (strField? · "kind")) with
    | some "ready_for_review" => .readyForReview
    | some "draft_updated" => .draftUpdated
    | some "clarification_required" => .clarificationRequired
    | some "compile_failed" => .compileFailed
    | _ => (d.map classifyDraft).getD .compileFailed
  pure ⟨session, m, kind, d, true⟩

/-- The guards between the lookup of the turn and its first write. -/
def checkTurn (session : Session) (turnKey : String) (expected : Option Nat) : Except CallError (String × Nat) :=
  if session.pendingTurnKey ≠ none ∧ session.pendingTurnKey ≠ some turnKey then
    .error (.builder "builder_turn_in_progress"
      "a turn is already in progress on this session; resume it with its turn_key or wait for it to complete")
  else if !session.active then .error (.builder "builder_session_not_active" "builder session is archived; it cannot accept new messages")
  else match session.compilerAgent.filter (· ≠ "") with
    | none => .error (.builder "invalid_request" "this builder session has no compiler agent configured")
    | some agent =>
      if expected.any (· ≠ session.revision) then
        .error (.builder "builder_revision_conflict" ("session revision is " ++ toString session.revision
          ++ ", not the expected " ++ toString (expected.getD 0)))
      else .ok (agent, expected.getD session.revision)

/-- `sendMessage`. -/
def sendMessage (input : SendInput) : Call TurnResult :=
  match checkInput input with
  | .error e => fail e
  | .ok turnKey => do
    let session : Session ← call .getBuilderSession
    let (_, assistant) ← call (.findBuilderTurn turnKey)
    match assistant with
    | some m => replayTurn session m
    | none =>
      match checkTurn session turnKey input.expectedRevision with
      | .error e => fail e
      | .ok (agent, expectedRevision) => do
        let own : Message ← mapErrors (call (.appendBuilderUserMessage input.content turnKey))
          [("builder_turn_in_progress", "builder_turn_in_progress"), ("invalid_transition", "builder_session_not_active")]
        runTurn cfg session agent turnKey expectedRevision own

/-! ## The process -/

inductive ApiCall where
  | compile (req : CompileRequest)
  | approve (draftId inspectedSpecHash : String)
  | send (input : SendInput)
deriving DecidableEq

inductive Result where
  | draft (d : Draft)
  | approved (d : Draft) (workflowId : String)
  | turn (r : TurnResult)
deriving DecidableEq

def ApiCall.program : ApiCall → Call Result
  | .compile req => do
    let d ← VibeCompiler.compile cfg req
    pure (.draft d)
  | .approve draftId hash => do
    let (d, workflowId) ← VibeCompiler.approve cfg draftId hash
    pure (.approved d workflowId)
  | .send input => do
    let r ← sendMessage cfg input
    pure (.turn r)

/-- What happens without a call of the compiler: a task ends, a result is published, a workflow is created
    directly, the runtime writes a workflow's status and context, the session is archived. -/
inductive Move where
  | finish (taskId : String) (status : TaskStatus)
  | publish (taskId : String) (result : ResultRow)
  | direct (id : String) (spec : Json) (provided : Option Json)
  | advance (id : String) (status : WorkflowStatus) (context : List (String × Json))
  | archive
deriving DecidableEq

def World.setTask (w : World) (id : String) (f : AgentTask → AgentTask) : World :=
  { w with tasks := w.tasks.map (fun t => if t.taskId = id then f t else t) }

/-- The end of a task and its result are each written once.  A direct workflow passes the runtime's
    checks. -/
def move (w : World) : Move → Option World
  | .finish id status =>
    if status.isTerminal then
      some (w.setTask id fun t => if t.status.isTerminal then t else { t with status := status })
    else none
  | .publish id result =>
    some (w.setTask id fun t => if t.result.isSome then t else { t with result := some result })
  | .direct id spec provided =>
    match createChecks spec provided with
    | none => none
    | some values =>
      match createWorkflow w id spec values with
      | .ok (w', _) => some w'
      | .error _ => none
  | .advance id status context =>
    some { w with workflows := w.workflows.map (fun f =>
      if f.workflowId = id then { f with status := status, context := context } else f) }
  | .archive => some { w with session := { w.session with active := false } }

/-- The compiler's process. -/
def compiler : Pool sig World where
  Call := ApiCall
  Res := Result
  Input := Input
  Move := Move
  exec := exec
  move := move
  flags := fun _ => ()
  program := ApiCall.program cfg

end

end VibeCompiler
