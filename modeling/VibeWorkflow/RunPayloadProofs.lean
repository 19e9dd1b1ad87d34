import VibeWorkflow.CreateRequestProofs
import VibeWorkflow.FileSystemProofs
import VibeWorkflow.IdempotencyProofs
import VibeWorkflow.RunStartProofs

/-!
# One request, one run

The payload of `run_start` is put together by hand in four places: by the Gateway with and without a
durable store, and by a Node from the plaintext and from the encrypted form.  Each place has its own tests
for the presence of a field.

* `sentPayload` — what a Gateway sends for a create request, with and without a store;
* `handlePlain`, `handleEncrypted` — what a Node makes of the two forms;
* **`same_request_same_run`** — without a store `workspace_write` is left out and nothing is too large, and
  the encrypted form loses a `cwd` and a `workspace_key` that are not true; everything else agrees;
* **`store_changes_payload`** — a request whose permission to write depends on the store.
-/

namespace VibePayload

open VibeJson VibeContract VibeRequest VibeNode
open VibeIdempotency (CreateTaskInput StoredTask createChecks withCreated)
open VibeTask (TaskEventInput isIsoUtc)
open VibeStore (metadataJson taskEventPayload)
open VibeTables (isSafeId)
open Posix (segments isAbsolute)

/-! ## `RunStartPayload` -/

/-- The fields of a `run_start`, encrypted or not.  A test for truth takes a `null` for no field; the two
    fields that one side tests for presence may have any value. -/
structure RunStartPayload where
  agent : String
  workspaceKey : Option Json
  repoUrl : Option String
  branch : Option String
  promptContent : Option String
  permissionMode : Option String
  metadata : Option (List (String × Json))
  leaseId : Option LeaseId
  workspaceWrite : Option Bool
  verify : Option String
  cwd : Option Json
deriving DecidableEq

/-- `x && …` for a text: the empty text counts as absent. -/
def truthy (x : Option String) : Option String := x.filter (· ≠ "")

def isTruthy : Json → Bool
  | .null => false
  | .bool b => b
  | .num n => n ≠ .ofInt 0
  | .str s => s ≠ ""
  | .arr _ | .obj _ => true

def truthyJson (x : Option Json) : Option Json := x.filter isTruthy

def truthyLease (x : Option LeaseId) : Option LeaseId := x.filter (· ≠ .other "")

/-- `x && { …: true }`. -/
def truthyFlag (x : Option Bool) : Option Bool := if x = some true then some true else none

/-- The fields that pass a test for truth; `prompt_content` is tested for presence. -/
def RunStartPayload.truthy (p : RunStartPayload) : RunStartPayload where
  agent := p.agent
  workspaceKey := truthyJson p.workspaceKey
  repoUrl := VibePayload.truthy p.repoUrl
  branch := VibePayload.truthy p.branch
  promptContent := p.promptContent
  permissionMode := VibePayload.truthy p.permissionMode
  metadata := p.metadata
  leaseId := truthyLease p.leaseId
  workspaceWrite := truthyFlag p.workspaceWrite
  verify := p.verify
  cwd := truthyJson p.cwd

/-! ## The Gateway: `handleCreate` up to `remoteRunStart` -/

/-- What the relay's registry says of a Node. -/
structure NodeEntry where
  nodeId : String
  online : Bool
  agents : List String
  encryptionPublicKey : Option String
  capabilities : List String

/-- What a Gateway finds around one create. -/
structure GatewayEnv where
  remoteEnabled : Bool
  /-- `fetchRemoteNodes`; `none` where it throws. -/
  nodes : Option (List NodeEntry)
  /-- A slot is free. -/
  slot : Bool
  /-- The prompt file can be read back. -/
  promptRead : Bool

/-- A durable store during one create: its tasks, and the id and the time that the new one gets. -/
structure StoreEnv where
  /-- `getTaskByIdempotencyKey` finds a task. -/
  existing : String → Bool
  tasks : List StoredTask
  taskId : String
  safe : isSafeId taskId = true
  fresh : ∀ r ∈ tasks, r.taskId ≠ taskId
  ts : String
  iso : isIsoUtc ts = true
  sha256 : String → String
  /-- A concurrent create won, or the database threw. -/
  fault : Bool

/-- The task that is stored for a create request. -/
def StoreEnv.input (s : StoreEnv) (r : CreateTaskRequest) : CreateTaskInput where
  taskId := s.taskId
  nodeId := r.nodeId
  agent := r.agent
  workspaceKey := r.workspaceKey
  permissionMode := r.permissionMode
  status := "queued"
  remoteRunId := none
  inputText := some r.inputText
  metadata := r.metadata.map Parsed.writtenFields
  idempotencyKey := r.idempotencyKey
  requestFingerprint := r.idempotencyKey.map fun _ => computeRequestFingerprint s.sha256 r

/-- `synthEvent` of `task.created`. -/
def StoreEnv.createdEvent (s : StoreEnv) (r : CreateTaskRequest) : TaskEventInput where
  sequence := .ofInt 0
  eventType := "task.created"
  ts := s.ts
  payload := some (.obj [("agent", .str r.agent)])
  sourceSequence := none

/-- `persistCreate` makes the task: the store's checks of the task and of its first event pass. -/
def StoreEnv.created (s : StoreEnv) (r : CreateTaskRequest) : Bool :=
  match createChecks s.tasks (s.input r) with
  | .error _ => false
  | .ok row => (withCreated row (s.createdEvent r)).toOption.isSome && !s.fault

def isRemote (r : CreateTaskRequest) : Bool :=
  match truthy r.nodeId with
  | some n => n ≠ "local" && n ≠ "auto"
  | none => false

/-- The remote preflight: the Node is online, advertises the agent, a key, and what the request needs. -/
def preflight (nodes : Option (List NodeEntry)) (r : CreateTaskRequest) : Bool :=
  match (nodes.getD []).find? (fun n => some n.nodeId = r.nodeId) with
  | none => false
  | some n =>
    n.online && n.agents.contains r.agent && (truthy n.encryptionPublicKey).isSome &&
    ((truthy r.workspaceLeaseId).isNone || n.capabilities.contains "workspace_lease_v1") &&
    ((truthy r.workspacePath).isNone || n.capabilities.contains "cwd")

/-- The options of `remoteRunStart` with a durable store. -/
def durableOpts (r : CreateTaskRequest) (prompt : Option String) : RunStartPayload where
  agent := r.agent
  workspaceKey := r.workspaceKey.map .str
  repoUrl := none
  branch := none
  promptContent := prompt
  permissionMode := r.permissionMode
  metadata := r.metadata.map Parsed.writtenFields
  leaseId := r.workspaceLeaseId.map .other
  workspaceWrite := r.workspaceWrite
  verify := r.verify
  cwd := r.workspacePath.map .str

/-- The options of `remoteRunStart` without a store: `workspaceWrite` is not among them. -/
def plainOpts (r : CreateTaskRequest) (prompt : Option String) : RunStartPayload where
  agent := r.agent
  workspaceKey := r.workspaceKey.map .str
  repoUrl := none
  branch := none
  promptContent := prompt
  permissionMode := r.permissionMode
  metadata := r.metadata.map Parsed.writtenFields
  leaseId := r.workspaceLeaseId.map .other
  workspaceWrite := none
  verify := r.verify
  cwd := r.workspacePath.map .str

/-- `remoteRunStart`: the payload it encrypts. -/
def remoteRunStart (opts : RunStartPayload) : RunStartPayload := opts.truthy

/-- A key needs a store, and a key that is known already is answered from it. -/
def keyAdmitted (store : Option StoreEnv) (r : CreateTaskRequest) : Bool :=
  match r.idempotencyKey, store with
  | none, _ => true
  | some _, none => false
  | some key, some s => !s.existing key

/-- **`handleCreate`**: the payload sent to the Node, if any. -/
def sentPayload (env : GatewayEnv) (store : Option StoreEnv) (r : CreateTaskRequest) : Option RunStartPayload :=
  if isRemote r && env.remoteEnabled && keyAdmitted store r && env.slot && preflight env.nodes r then
    let prompt := if env.promptRead then some r.inputText else none
    match store with
    | some s => if s.created r then some (remoteRunStart (durableOpts r prompt)) else none
    | none => some (remoteRunStart (plainOpts r prompt))
  else none

/-- **The store does not matter**: for a request that needs no store, what is sent with one whose database
    works is what is sent without. -/
def StoreIndependent (r : CreateTaskRequest) : Prop :=
  ∀ env (store : StoreEnv), keyAdmitted none r = true → store.fault = false →
    sentPayload env none r = sentPayload env (some store) r

/-- The store refuses the request: its prompt, its metadata or its first event is too large. -/
def TooLarge (r : CreateTaskRequest) : Prop :=
  VibeIdempotency.inputTextBytes < byteLen r.inputText ∨
  (∃ m, r.metadata = some m ∧ metadataJson < byteLen (stringify (.obj (Parsed.writtenFields m)))) ∨
  taskEventPayload < byteLen (stringify (.obj [("agent", .str r.agent)]))

/-- A request for a Node that only the durable path grants the permission to write, or that it refuses. -/
def StoreMatters (r : CreateTaskRequest) : Prop :=
  isRemote r = true ∧ r.idempotencyKey = none ∧ (r.workspaceWrite = some true ∨ TooLarge r)

theorem keyAdmitted_none {r : CreateTaskRequest} : keyAdmitted none r = true ↔ r.idempotencyKey = none := by
  unfold keyAdmitted
  cases r.idempotencyKey with
  | none => exact ⟨fun _ => rfl, fun _ => rfl⟩
  | some key => exact ⟨fun h => absurd h Bool.false_ne_true, fun h => by cases h⟩

theorem requiredText_ok {o : Parsed} {name message s : String} (h : requiredText o name message = .ok s) : trim s ≠ "" := by
  unfold requiredText at h
  split at h
  · split at h
    · cases h
    · rename_i hne
      cases h
      exact hne
  · cases h

/-- An accepted request names its agent. -/
theorem validated_agent {b : Parsed} {r : CreateTaskRequest} (h : validateCreateTaskRequest b = .ok r) :
    trim r.agent ≠ "" := by
  obtain ⟨_, -, h⟩ := VibeAdmission.bind_ok_iff.mp h
  obtain ⟨agent, hagent, h⟩ := VibeAdmission.bind_ok_iff.mp h
  iterate 15 obtain ⟨_, -, h⟩ := VibeAdmission.bind_ok_iff.mp h
  cases h
  exact requiredText_ok hagent

/-- The first event of a new task is refused for its size only. -/
theorem withCreated_first {row : StoredTask} {status : String} {s : StoreEnv} {r : CreateTaskRequest}
    (hrow : row.tables = ⟨some ⟨status, false, none, none, -1, none⟩, []⟩) :
    (withCreated row (s.createdEvent r)).toOption.isSome = true ↔
      byteLen (stringify (.obj [("agent", .str r.agent)])) ≤ taskEventPayload := by
  have htype : VibeTask.isTaskEventType "task.created" = true := by decide +kernel
  have happend : (VibeTask.appendTaskEventSync row.taskId ⟨some ⟨status, false, none, none, -1, none⟩, []⟩
      (s.createdEvent r)).1.toOption.isSome = true ↔
      byteLen (stringify (.obj [("agent", .str r.agent)])) ≤ taskEventPayload := by
    have hseq : ¬ (!VibeTask.isSequence (s.createdEvent r).sequence) = true := by
      show ¬ (!VibeTask.isSequence (JsNum.ofInt 0)) = true
      decide
    unfold VibeTask.appendTaskEventSync
    rw [if_neg hseq, if_neg (show ¬ (!VibeTask.isTaskEventType (s.createdEvent r).eventType) = true from by
      rw [show (s.createdEvent r).eventType = "task.created" from rfl, htype]; decide),
      if_neg (show ¬ (!isIsoUtc (s.createdEvent r).ts) = true from by
      rw [show (s.createdEvent r).ts = s.ts from rfl, s.iso]; decide)]
    dsimp only
    rw [show (s.createdEvent r).payload.getD .null = .obj [("agent", .str r.agent)] from rfl]
    by_cases hfit : byteLen (stringify (.obj [("agent", .str r.agent)])) ≤ taskEventPayload
    · rw [VibeAdmission.encodeJson_eq_ok.mpr ⟨hfit, rfl⟩]
      exact ⟨fun _ => hfit, fun _ => rfl⟩
    · unfold VibeStore.encodeJson
      rw [if_pos (Nat.not_le.mp hfit)]
      exact ⟨fun h => absurd h Bool.false_ne_true, fun h => absurd h hfit⟩
  rw [← happend, ← hrow]
  unfold withCreated
  rcases VibeTask.appendTaskEventSync row.taskId row.tables (s.createdEvent r) with ⟨_ | _, db⟩
  · exact Iff.rfl
  · exact Iff.rfl

theorem boundOption_some {text label : String} {maxBytes : Nat} {bounded : Option String} :
    VibeIdempotency.boundOption (some text) maxBytes label = .ok bounded ↔ byteLen text ≤ maxBytes ∧
      bounded = some text := by
  unfold VibeIdempotency.boundOption VibeStore.boundString
  dsimp only
  split
  · rename_i hbig
    exact ⟨fun h => (by cases h), fun h => absurd h.1 (Nat.not_le.mpr hbig)⟩
  · rename_i hfit
    refine ⟨fun h => ⟨Nat.not_lt.mp hfit, ?_⟩, fun h => congrArg Except.ok h.2.symm⟩
    cases h
    rfl

theorem encodeMetadata_ok {m : Option (List (String × Json))} :
    (∃ text, VibeIdempotency.encodeMetadata m = .ok text) ↔
      ∀ kvs, m = some kvs → byteLen (stringify (.obj kvs)) ≤ metadataJson := by
  cases m with
  | none => exact ⟨fun _ _ h => (by cases h), fun _ => ⟨none, rfl⟩⟩
  | some kvs =>
    unfold VibeIdempotency.encodeMetadata
    dsimp only
    constructor
    · rintro ⟨text, h⟩ kvs' heq
      cases heq
      cases he : VibeStore.encodeJson (.obj kvs) metadataJson "task.metadata" with
      | error e =>
        rw [he] at h
        cases h
      | ok text' => exact (VibeAdmission.encodeJson_eq_ok.mp he).1
    · intro hfit
      rw [VibeAdmission.encodeJson_eq_ok.mpr ⟨hfit kvs rfl, rfl⟩]
      exact ⟨_, rfl⟩

/-- A store whose database works takes a request that is not too large. -/
theorem created_iff {s : StoreEnv} {r : CreateTaskRequest} (hagent : trim r.agent ≠ "") (hkey : r.idempotencyKey = none)
    (hfault : s.fault = false) : s.created r = true ↔ ¬ TooLarge r := by
  have hvalid : VibeIdempotency.validateCreateTask (s.input r) = .ok () := by
    unfold VibeIdempotency.validateCreateTask
    rw [if_neg (by rw [show (s.input r).taskId = s.taskId from rfl, s.safe]; decide), if_neg (show ¬ trim (s.input r).agent = "" from hagent)]
    exact if_neg (by show ¬ "queued" = ""; decide)
  have hnew : VibeIdempotency.requireNewId s.tasks s.taskId = .ok () := by
    refine if_neg fun hany => ?_
    obtain ⟨row, hrow, hid⟩ := List.any_eq_true.mp hany
    exact s.fresh row hrow (beq_iff_eq.mp hid)
  have hmeta : (∃ text, VibeIdempotency.encodeMetadata (s.input r).metadata = .ok text) ↔
      ∀ m, r.metadata = some m → byteLen (stringify (.obj (Parsed.writtenFields m))) ≤ metadataJson := by
    rw [encodeMetadata_ok]
    show (∀ kvs, r.metadata.map Parsed.writtenFields = some kvs → _) ↔ _
    cases r.metadata with
    | none => exact ⟨fun _ _ h => (by cases h), fun _ _ h => by cases h⟩
    | some m =>
      refine ⟨fun h m' hm => ?_, fun h kvs hkvs => ?_⟩
      · cases hm
        exact h _ rfl
      · cases hkvs
        exact h _ rfl
  unfold StoreEnv.created
  constructor
  · intro h
    split at h
    · cases h
    rename_i row hchecks
    obtain ⟨hevent, -⟩ := Bool.and_eq_true_iff.mp h
    obtain ⟨_, -, hchecks⟩ := VibeAdmission.bind_ok_iff.mp hchecks
    obtain ⟨_, -, hchecks⟩ := VibeAdmission.bind_ok_iff.mp hchecks
    obtain ⟨text, hm, hchecks⟩ := VibeAdmission.bind_ok_iff.mp hchecks
    obtain ⟨prompt, ht, hchecks⟩ := VibeAdmission.bind_ok_iff.mp hchecks
    obtain ⟨_, -, hchecks⟩ := VibeAdmission.bind_ok_iff.mp hchecks
    obtain ⟨_, -, hchecks⟩ := VibeAdmission.bind_ok_iff.mp hchecks
    cases hchecks
    rintro (hbig | ⟨m, hm', hbig⟩ | hbig)
    · exact Nat.not_le.mpr hbig (boundOption_some.mp ht).1
    · exact Nat.not_le.mpr hbig (hmeta.mp ⟨text, hm⟩ m hm')
    · exact Nat.not_le.mpr hbig ((withCreated_first rfl).mp hevent)
  · intro hfits
    obtain ⟨text, hm⟩ := hmeta.mpr fun m hm => Nat.not_lt.mp fun hbig => hfits (.inr (.inl ⟨m, hm, hbig⟩))
    have ht : VibeIdempotency.boundOption (s.input r).inputText VibeIdempotency.inputTextBytes "task.input_text" =
        .ok (some r.inputText) := boundOption_some.mpr ⟨Nat.not_lt.mp fun hbig => hfits (.inl hbig), rfl⟩
    have hnone : (s.input r).idempotencyKey = none := hkey
    have hfp : (s.input r).requestFingerprint = none := by
      show r.idempotencyKey.map _ = none
      rw [hkey]
      rfl
    have hchecks : ∃ row, createChecks s.tasks (s.input r) = .ok row ∧
        row.tables = ⟨some ⟨"queued", false, none, none, -1, none⟩, []⟩ := by
      unfold createChecks
      rw [hvalid, show (s.input r).taskId = s.taskId from rfl, hnew, hm, ht, hnone, hfp]
      exact ⟨_, rfl, rfl⟩
    obtain ⟨row, hrow, htables⟩ := hchecks
    rw [hrow, hfault]
    dsimp only
    rw [Bool.not_false, Bool.and_true]
    exact (withCreated_first htables).mpr (Nat.not_lt.mp fun hbig => hfits (.inr (.inr hbig)))

/-- A Gateway and a Node that take every remote request. -/
def openGateway (r : CreateTaskRequest) : GatewayEnv where
  remoteEnabled := true
  nodes := some [⟨r.nodeId.getD "", true, [r.agent], some "key", ["workspace_lease_v1", "cwd"]⟩]
  slot := true
  promptRead := true

theorem isRemote_node {r : CreateTaskRequest} (h : isRemote r = true) : ∃ n, r.nodeId = some n := by
  cases hn : r.nodeId with
  | none => simp [isRemote, hn, truthy] at h
  | some n => exact ⟨n, rfl⟩

theorem openGateway_preflight {r : CreateTaskRequest} (h : isRemote r = true) :
    preflight (openGateway r).nodes r = true := by
  obtain ⟨n, hn⟩ := isRemote_node h
  simp [preflight, openGateway, hn, truthy]

/-- An empty store whose database works. -/
def emptyStore : StoreEnv where
  existing := fun _ => false
  tasks := []
  taskId := "task_1"
  safe := by decide +kernel
  fresh := by simp
  ts := "2024-05-06T07:08:09Z"
  iso := by decide +kernel
  sha256 := id
  fault := false

/-- **The Gateway's half.** -/
theorem storeIndependent_iff {r : CreateTaskRequest} (hagent : trim r.agent ≠ "") :
    StoreIndependent r ↔ ¬ StoreMatters r := by
  constructor
  · rintro hsame ⟨hremote, hkey, hmatters⟩
    have hadm : ∀ store, keyAdmitted store r = true := by
      intro store
      simp [keyAdmitted, hkey]
    have heq := hsame (openGateway r) emptyStore (keyAdmitted_none.mpr hkey) rfl
    have hopen : (isRemote r && (openGateway r).remoteEnabled && true && (openGateway r).slot &&
        preflight (openGateway r).nodes r) = true := by
      rw [hremote, openGateway_preflight hremote]
      rfl
    unfold sentPayload at heq
    rw [hadm, hadm, if_pos hopen, if_pos hopen] at heq
    dsimp only at heq
    by_cases hcreated : emptyStore.created r = true
    · rw [if_pos hcreated] at heq
      -- both send; a request that asks for permission to write is granted it by one of them
      have hwrite : r.workspaceWrite = some true :=
        hmatters.resolve_right ((created_iff hagent hkey rfl).mp hcreated)
      have hflag : none = truthyFlag r.workspaceWrite := congrArg RunStartPayload.workspaceWrite (Option.some.inj heq)
      rw [hwrite] at hflag
      cases hflag
    · rw [if_neg hcreated] at heq
      cases heq
  · intro hno env store hadm hfault
    have hkey := keyAdmitted_none.mp hadm
    have hadm' : keyAdmitted (some store) r = true := by simp [keyAdmitted, hkey]
    unfold sentPayload
    rw [hadm, hadm']
    split
    · rename_i hcond
      simp only [Bool.and_eq_true] at hcond
      have hremote := hcond.1.1.1.1
      have hcreated : store.created r = true :=
        (created_iff hagent hkey hfault).mpr fun hbig => hno ⟨hremote, hkey, .inr hbig⟩
      have hflag : truthyFlag r.workspaceWrite = none := by
        unfold truthyFlag
        split
        · rename_i hwrite
          exact absurd ⟨hremote, hkey, .inl hwrite⟩ hno
        · rfl
      dsimp only
      rw [if_pos hcreated]
      simp only [remoteRunStart, RunStartPayload.truthy, plainOpts, durableOpts, hflag]
      rfl
    · rfl

/-! ## The Node's file system: `resolveAllowedCwd` and `resolveContainedWorkspace` -/

/-- What the file system answers during one start; a fault is the message thrown. -/
structure Files where
  realpathSync : String → Except String String
  /-- `statSync(…).isDirectory()`. -/
  isDirectory : String → Except String Bool
  existsSync : String → Bool
  mkdirSync : String → Except String Unit

def startsWith (s t : String) : Bool := t.toList.isPrefixOf s.toList

/-- The configured root is a directory above the requested one, both fully resolved. -/
def authorizes (fs : Files) (realCwd root : String) : Bool :=
  isAbsolute root &&
  match fs.realpathSync root with
  | .error _ => false
  | .ok realRoot =>
    match fs.isDirectory realRoot with
    | .ok true => realCwd = realRoot || startsWith realCwd (realRoot ++ "/")
    | _ => false

def denyCwd (message : String) : Resolution := .denied "cwd_not_allowed" message

def resolveAllowedCwd (fs : Files) (allowedRoots : List String) (cwd : String) : Resolution :=
  if isAbsolute cwd = false then denyCwd "cwd must be an absolute path"
  else if allowedRoots = [] then
    denyCwd "this node does not allow cwd-backed runs (no allowed_cwd_roots configured)"
  else match fs.realpathSync cwd with
  | .error _ => denyCwd "cwd does not exist on this node"
  | .ok realCwd =>
    match fs.isDirectory realCwd with
    | .error _ => denyCwd "cwd does not exist on this node"
    | .ok false => denyCwd "cwd is not a directory"
    | .ok true =>
      if allowedRoots.any (authorizes fs realCwd) then .resolved realCwd
      else denyCwd "cwd is not under an allowed root on this node"

/-- `path.relative` of resolved absolute paths, by names. -/
def relative : List String → List String → List String
  | a :: as, b :: bs => if a = b then relative as bs else (a :: as).map (fun _ => "..") ++ b :: bs
  | as, bs => as.map (fun _ => "..") ++ bs

/-- `rel === '' || rel.startsWith('..')`; a relative path is never absolute here. -/
def escapes (realRoot path : String) : Bool :=
  match relative (segments realRoot) (segments path) with
  | [] => true
  | first :: _ => startsWith first ".."

/-- `path.resolve` of a name that passed the key pattern, under a resolved root. -/
def resolveUnder (realRoot key : String) : String := if realRoot = "/" then "/" ++ key else realRoot ++ "/" ++ key

def opaqueKey : String :=
  "workspace_key must be an opaque key matching ^[A-Za-z0-9][A-Za-z0-9._-]\x7b0,127\x7d$ (not a path)"

def invalidKey (message : String) : Resolution := .denied "invalid_workspace_key" message

/-- An existing workspace must lie inside the root once its links are followed. -/
def containExisting (fs : Files) (realRoot resolved : String) : Except String Resolution :=
  if fs.existsSync resolved then do
    let realResolved ← fs.realpathSync resolved
    .ok (if escapes realRoot realResolved then invalidKey "existing workspace path escapes the workspace root"
      else .resolved resolved)
  else .ok (.resolved resolved)

def resolveContainedWorkspace (fs : Files) (workspaceRoot workspaceKey : String) : Except String Resolution :=
  if isOpaqueId workspaceKey = false then .ok (invalidKey opaqueKey)
  else do
    fs.mkdirSync workspaceRoot
    let realRoot ← fs.realpathSync workspaceRoot
    let resolved := resolveUnder realRoot workspaceKey
    if escapes realRoot resolved then .ok (invalidKey "workspace_key does not resolve within the workspace root")
    else containExisting fs realRoot resolved

/-! ## `generateRunId` -/

def digit (d : Nat) : Char := "0123456789abcdefghijklmnopqrstuvwxyz".toList.getD d '0'

/-- The digits of `n`, at most as many as the fuel. -/
def digitsFrom (base : Nat) : Nat → Nat → List Char
  | 0, _ => []
  | fuel + 1, n => if n < base then [digit n] else digitsFrom base fuel (n / base) ++ [digit (n % base)]

/-- `Number.prototype.toString(base)` of a whole number. -/
def numberText (base n : Nat) : List Char := digitsFrom base (n + 1) n

def padStart (width : Nat) (cs : List Char) : List Char := List.replicate (width - cs.length) '0' ++ cs

/-- `run_<time in base 36>_<six hexadecimal digits>`. -/
def generateRunId (now rand : Nat) : String :=
  String.ofList ("run_".toList ++ numberText 36 now ++ ['_'] ++ padStart 6 (numberText 16 rand))

theorem digit_alnum (d : Nat) : isAlnum (digit d) = true := by
  have hall : ∀ c ∈ '0' :: "0123456789abcdefghijklmnopqrstuvwxyz".toList, isAlnum c = true :=
    List.all_eq_true.mp (by decide)
  refine hall _ ?_
  unfold digit
  rw [List.getD_eq_getElem?_getD]
  cases h : "0123456789abcdefghijklmnopqrstuvwxyz".toList[d]? with
  | none => exact List.mem_cons_self
  | some c => exact List.mem_cons_of_mem _ (List.mem_of_getElem? h)

theorem digitsFrom_alnum (base : Nat) : ∀ (fuel n : Nat), ∀ c ∈ digitsFrom base fuel n, isAlnum c = true := by
  intro fuel
  induction fuel with
  | zero =>
    intro n c hc
    exact nomatch hc
  | succ fuel ih =>
    intro n c hc
    rw [digitsFrom] at hc
    split at hc
    · rw [List.mem_singleton.mp hc]
      exact digit_alnum n
    · rcases List.mem_append.mp hc with hc | hc
      · exact ih _ c hc
      · rw [List.mem_singleton.mp hc]
        exact digit_alnum _

theorem digitsFrom_length {base : Nat} (hbase : 0 < base) :
    ∀ (k : Nat) {fuel n : Nat}, n < base ^ (k + 1) → (digitsFrom base fuel n).length ≤ k + 1 := by
  intro k
  induction k with
  | zero =>
    intro fuel n hn
    have hlt : n < base := by simpa using hn
    cases fuel <;> simp [digitsFrom, hlt]
  | succ k ih =>
    intro fuel n hn
    cases fuel with
    | zero => simp [digitsFrom]
    | succ fuel =>
      rw [digitsFrom]
      split
      · simp
      · have hdiv : n / base < base ^ (k + 1) := by
          rw [Nat.div_lt_iff_lt_mul hbase, ← Nat.pow_succ]
          exact hn
        have hlen : (digitsFrom base fuel (n / base)).length ≤ k + 1 := ih hdiv
        rw [List.length_append]
        exact Nat.succ_le_succ hlen

theorem generateRunId_toList (now rand : Nat) :
    (generateRunId now rand).toList
      = 'r' :: 'u' :: 'n' :: '_' :: (numberText 36 now ++ '_' :: padStart 6 (numberText 16 rand)) := by
  have hrun : "run_".toList = ['r', 'u', 'n', '_'] := by decide
  unfold generateRunId
  rw [String.toList_ofList, hrun]
  simp

/-- A run id passes the pattern of workspace keys. -/
theorem generateRunId_shape {now rand : Nat} (hnow : now ≤ 8640000000000000) (hrand : rand < 0xffffff) :
    isOpaqueId (generateRunId now rand) = true := by
  have hchars : ∀ c ∈ numberText 36 now, isAlnum c = true := digitsFrom_alnum _ _ _
  have hchars' : ∀ c ∈ numberText 16 rand, isAlnum c = true := digitsFrom_alnum _ _ _
  have hlen : (numberText 36 now).length ≤ 11 := digitsFrom_length (by decide) 10 (by omega)
  have hlen' : (numberText 16 rand).length ≤ 6 := digitsFrom_length (by decide) 5 (by omega)
  have hpad : ∀ c ∈ padStart 6 (numberText 16 rand), isAlnum c = true := by
    intro c hc
    rcases List.mem_append.mp hc with hc | hc
    · rw [List.eq_of_mem_replicate hc]
      decide
    · exact hchars' c hc
  have hpadLen : (padStart 6 (numberText 16 rand)).length ≤ 6 := by
    simp only [padStart, List.length_append, List.length_replicate]
    omega
  unfold isOpaqueId matchesId
  rw [generateRunId_toList]
  simp only [Bool.and_eq_true, decide_eq_true_eq, List.all_eq_true]
  refine ⟨⟨by decide, ?_⟩, ?_⟩
  · intro c hc
    simp only [List.mem_append, List.mem_cons] at hc
    rcases hc with rfl | rfl | rfl | hc | rfl | hc
    · decide
    · decide
    · decide
    · simp [hchars c hc]
    · decide
    · simp [hpad c hc]
  · simp only [List.length_append, List.length_cons]
    omega

/-! ## The Node: `handleRunStart` and `handleEncryptedRunStart` -/

/-- A Node during one start: its configuration, its clock and what its process and files do. -/
structure NodeHost where
  nodeId : String
  supportedAgents : List String
  workspaceRoot : String
  allowedRoots : List String
  tmpdir : String
  files : Files
  now : Nat
  now_le : now ≤ 8640000000000000
  rand : Nat
  rand_lt : rand < 0xffffff
  gateFault : Option String
  mkdirFault : Option String
  promptFault : Option String
  recordFault : Option String
  bindFault : Bool
  backendStart : Except String String
  update : UpdateOutcome

def NodeHost.runId (host : NodeHost) : String := generateRunId host.now host.rand

def NodeHost.env (host : NodeHost) : StartEnv where
  supportedAgents := host.supportedAgents
  runId := host.runId
  resolveAllowedCwd := resolveAllowedCwd host.files host.allowedRoots
  resolveContainedWorkspace := resolveContainedWorkspace host.files host.workspaceRoot
  gateFault := host.gateFault
  mkdirFault := host.mkdirFault
  promptFault := host.promptFault
  recordFault := host.recordFault
  bindFault := host.bindFault
  backendStart := host.backendStart
  update := host.update

/-- The checks of a path and of a key ask for a text, and refuse what is none as they refuse the empty one. -/
def textOf : Json → String
  | .str s => s
  | _ => ""

/-- The part of a message that decides whether a run starts, and where.  A `null` is a key for
    `msg.workspace_key !== undefined`, which is asked beside a `cwd`, and none for `??`. -/
def RunStartPayload.start (p : RunStartPayload) : RunStart where
  agent := p.agent
  cwd := p.cwd.map textOf
  workspaceKey := if p.cwd.isNone ∧ p.workspaceKey = some .null then none else p.workspaceKey.map textOf
  workspaceWrite := p.workspaceWrite = some true
  leaseId := p.leaseId
  promptContent := p.promptContent

/-- The run record as it is written, without the keys of an encrypted run. -/
structure RunFile where
  record : RunRecord
  nodeId : String
  repoUrl : Option String
  branch : Option String
  promptFile : Option String
  permissionMode : Option String
  verify : Option String
  metadata : Option (List (String × Json))

/-- What a Node made of a `run_start`: answer, journal and live run; the record and the prompt it wrote; and
    the keys `stop_aes_key` and `approval_aes_key`, which only the encrypted form has. -/
structure Started where
  result : StartResult
  file : Option RunFile
  prompt : Option String
  keys : Option (String × String)

def runFile (host : NodeHost) (msg : RunStartPayload) (record : RunRecord) : RunFile where
  record := record
  nodeId := host.nodeId
  repoUrl := truthy msg.repoUrl
  branch := truthy msg.branch
  promptFile := msg.promptContent.map fun _ => host.tmpdir ++ "/vibe-prompt-" ++ host.runId ++ ".md"
  permissionMode := truthy msg.permissionMode
  verify := msg.verify
  metadata := msg.metadata

/-- `handleRunStart` on all fields. -/
def handlePlain (host : NodeHost) (authority : Option Journal) (msg : RunStartPayload)
    (keys : Option (String × String)) : Started :=
  let result := VibeNode.handleRunStart host.nodeId host.env authority msg.start
  match admitRun host.nodeId host.env authority msg.start with
  | .error _ => ⟨result, none, none, none⟩
  | .ok record => ⟨result, some (runFile host msg record), msg.promptContent, keys⟩

/-- A Node's key pair: what is encrypted for it, it decrypts. -/
structure Identity where
  Envelope : Type
  encryptPayload : RunStartPayload → Envelope
  decryptPayload : Envelope → Option RunStartPayload
  opens : ∀ p, decryptPayload (encryptPayload p) = some p
  /-- `deriveRunStopKey` and `deriveApprovalKey`. -/
  deriveKeys : Envelope → String × String

/-- `handleEncryptedRunStart`: decrypt, rebuild a message from the fields that are true, start. -/
def handleEncrypted (host : NodeHost) (authority : Option Journal) (identity : Identity)
    (enc : identity.Envelope) : Started :=
  match identity.decryptPayload enc with
  | none =>
    ⟨⟨some (.failed "Failed to decrypt run_start payload — wrong key or tampered ciphertext" "decrypt_failed"),
      authority, none, false⟩, none, none, none⟩
  | some payload => handlePlain host authority payload.truthy (some (identity.deriveKeys enc))

/-- **The same run**: answer, record, workspace, prompt and journal, all but the keys. -/
def SameRun (a b : Started) : Prop := a.result = b.result ∧ a.file = b.file ∧ a.prompt = b.prompt

/-- The field is there, and a test for truth takes it for absent. -/
def Lost (x : Option Json) : Prop := ∃ j, x = some j ∧ isTruthy j = false

/-- **The encrypted form loses a field that decides**: a `cwd`; or a `workspace_key`, unless it is `null` and
    there is no `cwd`, or something else beside the `cwd` makes the request one that is refused for mixing the
    two workspace models. -/
def LosesFalsy (host : NodeHost) (p : RunStartPayload) : Prop :=
  p.agent ∈ host.supportedAgents ∧
    (Lost p.cwd ∨ Lost p.workspaceKey ∧ (p.cwd = none ∧ p.workspaceKey ≠ some .null ∨
      p.cwd ≠ none ∧ p.workspaceWrite ≠ some true ∧ truthyLease p.leaseId = none))

/-! ### Where the two forms agree -/

theorem truthy_truthy (x : Option String) : truthy (truthy x) = truthy x := by
  cases x <;> simp [truthy, Option.filter_filter]

theorem truthyJson_kept {x : Option Json} (h : ¬ Lost x) : truthyJson x = x := by
  cases x with
  | none => rfl
  | some j => exact Option.filter_some_pos (Bool.eq_true_of_not_eq_false fun hj => h ⟨j, rfl, hj⟩)

theorem truthyJson_lost {x : Option Json} (h : Lost x) : truthyJson x = none := by
  obtain ⟨j, rfl, hj⟩ := h
  exact Option.filter_some_neg (by rw [hj])

theorem textOf_lost {j : Json} (h : isTruthy j = false) : textOf j = "" := by
  cases j with
  | str s => exact Classical.not_not.mp (of_decide_eq_false h)
  | _ => rfl

theorem truthyFlag_eq (x : Option Bool) : (truthyFlag x = some true) ↔ x = some true := by
  unfold truthyFlag
  split <;> simp_all

/-- Admission reads no more of a message than this. -/
theorem admitRun_congr {nodeId : String} {env : StartEnv} {authority : Option Journal} {m m' : RunStart}
    (hagent : m.agent = m'.agent) (hws : resolveWorkspace env m = resolveWorkspace env m')
    (hlease : presentedLeaseId m = presentedLeaseId m') (hcwd : m.cwd.isNone = m'.cwd.isNone)
    (hprompt : m.promptContent = m'.promptContent) (hwrite : m.workspaceWrite = m'.workspaceWrite) :
    admitRun nodeId env authority m = admitRun nodeId env authority m' := by
  simp only [admitRun, checkAgent, checkLease, hagent, hws, hlease, hcwd, hprompt, hwrite]

theorem handleRunStart_congr {nodeId : String} {env : StartEnv} {authority : Option Journal} {m m' : RunStart}
    (h : admitRun nodeId env authority m = admitRun nodeId env authority m') :
    VibeNode.handleRunStart nodeId env authority m = VibeNode.handleRunStart nodeId env authority m' := by
  simp only [VibeNode.handleRunStart, h]

theorem presented_truthy (p : RunStartPayload) : presentedLeaseId p.truthy.start = presentedLeaseId p.start := by
  show Option.filter _ (Option.filter _ p.leaseId) = Option.filter _ p.leaseId
  rw [Option.filter_filter]
  congr 1
  funext l
  simp

theorem write_truthy (p : RunStartPayload) : p.truthy.start.workspaceWrite = p.start.workspaceWrite :=
  decide_eq_decide.mpr (truthyFlag_eq p.workspaceWrite)

/-- Where admission agrees on both forms, so does the whole start. -/
theorem sameRun_of_admit {host : NodeHost} {authority : Option Journal} {p : RunStartPayload}
    {keys : Option (String × String)}
    (h : admitRun host.nodeId host.env authority p.truthy.start = admitRun host.nodeId host.env authority p.start) :
    SameRun (handlePlain host authority p.truthy keys) (handlePlain host authority p none) := by
  have hresult := handleRunStart_congr h
  have hfile : ∀ record, runFile host p.truthy record = runFile host p record := by
    intro record
    simp [runFile, RunStartPayload.truthy, truthy_truthy]
  simp only [handlePlain, h]
  cases admitRun host.nodeId host.env authority p.start with
  | error ack => exact ⟨hresult, rfl, rfl⟩
  | ok record => exact ⟨hresult, congrArg some (hfile record), rfl⟩

/-- The workspace of the two forms agrees where no field that decides is lost. -/
theorem resolveWorkspace_truthy {host : NodeHost} {p : RunStartPayload} (hcwd : ¬ Lost p.cwd)
    (hkey : Lost p.workspaceKey → (p.cwd = none → p.workspaceKey = some .null) ∧
      (p.cwd ≠ none → p.workspaceWrite = some true ∨ truthyLease p.leaseId ≠ none)) :
    resolveWorkspace host.env p.truthy.start = resolveWorkspace host.env p.start := by
  have hkept : p.truthy.cwd = p.cwd := truthyJson_kept hcwd
  have hcwd' : p.truthy.start.cwd = p.start.cwd := congrArg (Option.map textOf) hkept
  have hlease := presented_truthy p
  have hwrite := write_truthy p
  by_cases hlost : Lost p.workspaceKey
  · obtain ⟨hnull, hmixed⟩ := hkey hlost
    have hnone : p.truthy.workspaceKey = none := truthyJson_lost hlost
    cases hc : p.cwd with
    | none =>
      -- `null ?? runId`
      have hk : p.start.workspaceKey = none := if_pos ⟨by rw [hc]; rfl, hnull hc⟩
      have hk' : p.truthy.start.workspaceKey = none := by
        show (if _ then none else p.truthy.workspaceKey.map textOf) = none
        rw [hnone]
        exact ite_self _
      simp only [resolveWorkspace, hcwd', hlease, hwrite, hk, hk']
    | some cwd =>
      have hc' : p.start.cwd = some (textOf cwd) := congrArg (Option.map textOf) hc
      have hmixed' : (p.start.workspaceWrite || (presentedLeaseId p.start).isSome) = true := by
        rcases hmixed (by rw [hc]; exact Option.some_ne_none _) with hw | hl
        · simp [RunStartPayload.start, hw]
        · have hl' : (presentedLeaseId p.start).isSome = true := Option.isSome_iff_ne_none.mpr hl
          rw [hl', Bool.or_true]
      simp only [resolveWorkspace, hcwd', hc', hlease, hwrite, Bool.or_assoc, hmixed', Bool.or_true]
  · have hkey' : p.truthy.start.workspaceKey = p.start.workspaceKey := by
      show (if p.truthy.cwd.isNone ∧ p.truthy.workspaceKey =
        some .null then none else p.truthy.workspaceKey.map textOf) = _
      rw [hkept, show p.truthy.workspaceKey = p.workspaceKey from truthyJson_kept hlost]
      rfl
    simp only [resolveWorkspace, hcwd', hlease, hwrite, hkey']

/-- A message whose agent is not supported is answered before anything else is read. -/
theorem admitRun_unsupported {nodeId : String} {env : StartEnv} {authority : Option Journal} {m m' : RunStart}
    (hagent : m.agent = m'.agent) (h : m'.agent ∉ env.supportedAgents) :
    admitRun nodeId env authority m = admitRun nodeId env authority m' := by
  have hcheck : ∃ ack, checkAgent env m' = .error ack := by
    refine ⟨_, if_neg ?_⟩
    simpa using h
  obtain ⟨ack, hack⟩ := hcheck
  have hack' : checkAgent env m = .error ack := by
    rw [← hack]
    simp only [checkAgent, hagent]
  simp only [admitRun, hack, hack', bind, Except.bind]

/-! ### Where they do not -/

/-- The codes of the two workspace models. -/
def WorkspaceCode (code : String) : Prop := code = "cwd_not_allowed" ∨ code = "invalid_workspace_key"

theorem WorkspaceCode.ne_lease {code : String} (h : WorkspaceCode code) (c : LeaseCode) : c.text ≠ code := by
  rcases h with rfl | rfl <;> cases c <;> decide

theorem WorkspaceCode.ne_internal {code : String} (h : WorkspaceCode code) : "internal_error" ≠ code := by
  rcases h with rfl | rfl <;> decide

theorem attempt_error {fault : Option String} {error code : String} (h : attempt fault = .error (.failed error code)) :
    code = "internal_error" := by
  cases fault with
  | none => exact nomatch h
  | some message =>
    have hack : thrown message = StartAck.failed error code := Except.error.inj h
    exact (StartAck.failed.inj hack).2.symm

theorem attemptIf_error {cond : Bool} {fault : Option String} {error code : String}
    (h : attemptIf cond fault = .error (.failed error code)) : code = "internal_error" := by
  cases cond with
  | false => exact nomatch h
  | true => exact attempt_error h

theorem checkLease_error {nodeId key : String} {env : StartEnv} {authority : Option Journal} {m : RunStart}
    {error code : String} (hcode : WorkspaceCode code) :
    checkLease nodeId env authority m key ≠ .error (.failed error code) := by
  intro h
  cases authority with
  | none =>
    simp only [checkLease] at h
    split at h
    · have hack := (StartAck.failed.inj (Except.error.inj h)).2
      exact hcode.ne_lease _ hack
    · exact nomatch h
  | some j =>
    simp only [checkLease] at h
    cases hg : attempt env.gateFault with
    | error ack =>
      rw [hg] at h
      obtain rfl : ack = .failed error code := Except.error.inj h
      exact hcode.ne_internal (attempt_error hg).symm
    | ok _ =>
      rw [hg] at h
      simp only [bind, Except.bind] at h
      split at h
      · have hack := (StartAck.failed.inj (Except.error.inj h)).2
        exact hcode.ne_lease _ hack
      · exact nomatch h

theorem bind_error_iff {ε α β : Type} {x : Except ε α} {f : α → Except ε β} {e : ε} :
    (x >>= f) = .error e ↔ x = .error e ∨ ∃ a, x = .ok a ∧ f a = .error e := by
  cases x with
  | error e' => simp [bind, Except.bind]
  | ok a => simp [bind, Except.bind]

/-- A refusal under one of the two codes comes from the choice of the workspace. -/
theorem admitRun_workspaceCode {nodeId : String} {env : StartEnv} {authority : Option Journal} {m : RunStart}
    {error code : String} (hagent : m.agent ∈ env.supportedAgents) (hcode : WorkspaceCode code)
    (h : admitRun nodeId env authority m = .error (.failed error code)) :
    resolveWorkspace env m = .error (.failed error code) := by
  rcases bind_error_iff.mp h with h | ⟨_, -, h⟩
  · rw [checkAgent_ok.mpr hagent] at h
    exact nomatch h
  rcases bind_error_iff.mp h with h | ⟨ws, -, h⟩
  · exact h
  rcases bind_error_iff.mp h with h | ⟨_, -, h⟩
  · exact absurd h (checkLease_error hcode)
  rcases bind_error_iff.mp h with h | ⟨_, -, h⟩
  · exact absurd (attemptIf_error h).symm hcode.ne_internal
  rcases bind_error_iff.mp h with h | ⟨_, -, h⟩
  · exact absurd (attemptIf_error h).symm hcode.ne_internal
  rcases bind_error_iff.mp h with h | ⟨_, -, h⟩
  · exact absurd (attempt_error h).symm hcode.ne_internal
  · exact nomatch h

/-- An answer under one of the two codes comes from the choice of the workspace. -/
theorem ack_workspaceCode {nodeId : String} {env : StartEnv} {authority : Option Journal} {m : RunStart}
    {error code : String} (hagent : m.agent ∈ env.supportedAgents) (hcode : WorkspaceCode code)
    (h : (VibeNode.handleRunStart nodeId env authority m).ack = some (.failed error code)) :
    resolveWorkspace env m = .error (.failed error code) := by
  simp only [VibeNode.handleRunStart] at h
  cases hadm : admitRun nodeId env authority m with
  | error ack =>
    rw [hadm] at h
    obtain rfl : ack = .failed error code := Option.some.inj h
    exact admitRun_workspaceCode hagent hcode hadm
  | ok record =>
    rw [hadm] at h
    simp only at h
    split at h
    · exact absurd (StartAck.failed.inj (Option.some.inj h)).2 hcode.ne_internal
    · split at h
      · exact absurd (StartAck.failed.inj (Option.some.inj h)).2 hcode.ne_internal
      · exact nomatch h
      · exact nomatch h

theorem ack_of_resolve {nodeId : String} {env : StartEnv} {authority : Option Journal} {m : RunStart} {ack : StartAck}
    (hagent : m.agent ∈ env.supportedAgents) (h : resolveWorkspace env m = .error ack) :
    (VibeNode.handleRunStart nodeId env authority m).ack = some ack := by
  have hadm : admitRun nodeId env authority m = .error ack := by
    simp only [admitRun, checkAgent_ok.mpr hagent, h, bind, Except.bind]
  simp only [VibeNode.handleRunStart, hadm]

/-- Two forms of which one is refused for its workspace are the same only if the other is, alike. -/
theorem resolve_of_sameRun {host : NodeHost} {authority : Option Journal} {p : RunStartPayload}
    {keys : Option (String × String)} {error code : String} (hagent : p.agent ∈ host.supportedAgents)
    (hcode : WorkspaceCode code) (h : resolveWorkspace host.env p.start = .error (.failed error code))
    (hsame : SameRun (handlePlain host authority p.truthy keys) (handlePlain host authority p none)) :
    resolveWorkspace host.env p.truthy.start = .error (.failed error code) := by
  have hresult : ∀ (q : RunStartPayload) (ks : Option (String × String)), (handlePlain host authority q ks).result
      = VibeNode.handleRunStart host.nodeId host.env authority q.start := by
    intro q ks
    simp only [handlePlain]
    cases admitRun host.nodeId host.env authority q.start <;> rfl
  have hacks := congrArg StartResult.ack hsame.1
  rw [hresult, hresult, ack_of_resolve hagent h] at hacks
  exact ack_workspaceCode hagent hcode hacks

theorem resolveContained_code {fs : Files} {root key code message : String}
    (h : resolveContainedWorkspace fs root key = .ok (.denied code message)) : code = "invalid_workspace_key" := by
  unfold resolveContainedWorkspace at h
  split at h
  · exact (Resolution.denied.inj (Except.ok.inj h)).1.symm
  obtain ⟨_, -, h⟩ := VibeAdmission.bind_ok_iff.mp h
  obtain ⟨realRoot, -, h⟩ := VibeAdmission.bind_ok_iff.mp h
  simp only at h
  split at h
  · exact (Resolution.denied.inj (Except.ok.inj h)).1.symm
  unfold containExisting at h
  split at h
  · obtain ⟨real, -, h⟩ := VibeAdmission.bind_ok_iff.mp h
    have h := Except.ok.inj h
    split at h
    · exact (Resolution.denied.inj h).1.symm
    · exact nomatch h
  · exact nomatch h

/-- A key that has the shape of one is never refused for its shape. -/
theorem resolveContained_opaque {fs : Files} {root key code : String} (hkey : isOpaqueId key = true) :
    resolveContainedWorkspace fs root key ≠ .ok (.denied code opaqueKey) := by
  intro h
  unfold resolveContainedWorkspace at h
  rw [if_neg (by rw [hkey]; decide)] at h
  obtain ⟨_, -, h⟩ := VibeAdmission.bind_ok_iff.mp h
  obtain ⟨realRoot, -, h⟩ := VibeAdmission.bind_ok_iff.mp h
  simp only at h
  split at h
  · exact absurd (Resolution.denied.inj (Except.ok.inj h)).2 (by decide)
  unfold containExisting at h
  split at h
  · obtain ⟨real, -, h⟩ := VibeAdmission.bind_ok_iff.mp h
    have h := Except.ok.inj h
    split at h
    · exact absurd (Resolution.denied.inj h).2 (by decide)
    · exact nomatch h
  · exact nomatch h

def mixedModels : String := "cwd is mutually exclusive with workspace_key, workspace_write, and workspace_lease_id"

theorem resolveAllowedCwd_message {fs : Files} {roots : List String} {cwd code : String} :
    resolveAllowedCwd fs roots cwd ≠ .denied code mixedModels := by
  intro h
  unfold resolveAllowedCwd at h
  split at h
  · exact absurd (Resolution.denied.inj h).2 (by decide)
  split at h
  · exact absurd (Resolution.denied.inj h).2 (by decide)
  split at h
  · exact absurd (Resolution.denied.inj h).2 (by decide)
  split at h
  · exact absurd (Resolution.denied.inj h).2 (by decide)
  · exact absurd (Resolution.denied.inj h).2 (by decide)
  split at h
  · exact nomatch h
  · exact absurd (Resolution.denied.inj h).2 (by decide)

/-- Without a `cwd` nothing is refused as `cwd_not_allowed`. -/
theorem resolve_scratch_code {host : NodeHost} {m : RunStart} {error code : String} (hcwd : m.cwd = none)
    (h : resolveWorkspace host.env m = .error (.failed error code)) : code ≠ "cwd_not_allowed" := by
  simp only [resolveWorkspace, hcwd] at h
  split at h
  · rw [← (StartAck.failed.inj (Except.error.inj h)).2]
    decide
  · rename_i hden
    have hcode := resolveContained_code hden
    rw [← (StartAck.failed.inj (Except.error.inj h)).2, hcode]
    decide
  · exact nomatch h

/-- A lost `cwd` is refused in plaintext and forgotten in the encrypted form. -/
theorem lostCwd_differs {host : NodeHost} {authority : Option Journal} {p : RunStartPayload}
    {keys : Option (String × String)} (hagent : p.agent ∈ host.supportedAgents) (hcwd : Lost p.cwd) :
    ¬ SameRun (handlePlain host authority p.truthy keys) (handlePlain host authority p none) := by
  intro hsame
  have hplain : ∃ error, resolveWorkspace host.env p.start = .error (.failed error "cwd_not_allowed") := by
    obtain ⟨j, hj, hfalse⟩ := hcwd
    have hc : p.start.cwd = some "" := by
      show p.cwd.map textOf = some ""
      rw [hj, Option.map_some, textOf_lost hfalse]
    have hdeny : host.env.resolveAllowedCwd "" = denyCwd "cwd must be an absolute path" := rfl
    simp only [resolveWorkspace, hc, hdeny, denyCwd]
    split
    · exact ⟨_, rfl⟩
    · exact ⟨_, rfl⟩
  obtain ⟨error, hplain⟩ := hplain
  have henc := resolve_of_sameRun hagent (.inl rfl) hplain hsame
  have hnone : p.truthy.start.cwd = none := congrArg (Option.map textOf) (truthyJson_lost hcwd)
  exact resolve_scratch_code hnone henc rfl

/-- A lost `workspace_key` is refused in plaintext; the encrypted form runs under the run's own id. -/
theorem lostKey_scratch_differs {host : NodeHost} {authority : Option Journal} {p : RunStartPayload}
    {keys : Option (String × String)} (hagent : p.agent ∈ host.supportedAgents) (hkey : Lost p.workspaceKey)
    (hnull : p.workspaceKey ≠ some .null) (hcwd : p.cwd = none) :
    ¬ SameRun (handlePlain host authority p.truthy keys) (handlePlain host authority p none) := by
  intro hsame
  have hc : p.start.cwd = none := congrArg (Option.map textOf) hcwd
  have hk : p.start.workspaceKey = some "" := by
    obtain ⟨j, hj, hfalse⟩ := hkey
    refine (if_neg fun h => hnull h.2).trans ?_
    rw [hj, Option.map_some, textOf_lost hfalse]
  have hc' : p.truthy.start.cwd = none := by
    show (truthyJson p.cwd).map textOf = none
    rw [hcwd]
    rfl
  have hk' : p.truthy.start.workspaceKey = none := by
    show (if _ then none else (truthyJson p.workspaceKey).map textOf) = none
    rw [truthyJson_lost hkey]
    exact ite_self _
  have hplain : resolveWorkspace host.env p.start = .error (.failed opaqueKey "invalid_workspace_key") := by
    have hdeny : host.env.resolveContainedWorkspace "" = .ok (invalidKey opaqueKey) := rfl
    simp only [resolveWorkspace, hc, hk, Option.getD_some, hdeny, invalidKey]
  have henc := resolve_of_sameRun hagent (.inr rfl) hplain hsame
  simp only [resolveWorkspace, hc', hk', Option.getD_none] at henc
  split at henc
  · exact absurd (StartAck.failed.inj (Except.error.inj henc)).2 (by decide)
  · rename_i hden
    rw [(StartAck.failed.inj (Except.error.inj henc)).1] at hden
    exact resolveContained_opaque (generateRunId_shape host.now_le host.rand_lt) hden
  · cases henc

/-- A lost `workspace_key` beside a `cwd` is refused in plaintext only. -/
theorem lostKey_cwd_differs {host : NodeHost} {authority : Option Journal} {p : RunStartPayload}
    {keys : Option (String × String)} (hagent : p.agent ∈ host.supportedAgents) (hkey : Lost p.workspaceKey)
    (hcwd : p.cwd ≠ none) (hkept : ¬ Lost p.cwd) (hwrite : p.workspaceWrite ≠ some true)
    (hlease : truthyLease p.leaseId = none) :
    ¬ SameRun (handlePlain host authority p.truthy keys) (handlePlain host authority p none) := by
  intro hsame
  obtain ⟨cwd, hc⟩ := Option.ne_none_iff_exists'.mp hcwd
  have hk : p.start.workspaceKey.isSome = true := by
    obtain ⟨j, hj, -⟩ := hkey
    show (if p.cwd.isNone = true ∧ _ then none else p.workspaceKey.map textOf).isSome = true
    rw [if_neg (by rw [hc]; exact fun h => absurd h.1 Bool.false_ne_true), hj]
    rfl
  have hc' : p.truthy.start.cwd = some (textOf cwd) := by
    show (truthyJson p.cwd).map textOf = _
    rw [truthyJson_kept hkept, hc]
    rfl
  have hcs : p.start.cwd = some (textOf cwd) := congrArg (Option.map textOf) hc
  have hk' : p.truthy.start.workspaceKey.isSome = false := by
    show (if _ then none else (truthyJson p.workspaceKey).map textOf).isSome = false
    rw [truthyJson_lost hkey]
    exact congrArg Option.isSome (ite_self (none : Option String))
  have hw' : p.truthy.start.workspaceWrite = false := by
    rw [write_truthy]
    exact decide_eq_false hwrite
  have hl' : (presentedLeaseId p.truthy.start).isSome = false := by
    rw [presented_truthy]
    exact congrArg Option.isSome hlease
  have hplain : resolveWorkspace host.env p.start = .error (.failed mixedModels "cwd_not_allowed") := by
    simp only [resolveWorkspace, hcs, hk, Bool.true_or, if_true, mixedModels]
  have henc := resolve_of_sameRun hagent (.inl rfl) hplain hsame
  simp only [resolveWorkspace, hc', hk', hw', hl', Bool.or_self, Bool.false_eq_true, if_false] at henc
  split at henc
  · rename_i hden
    rw [(StartAck.failed.inj (Except.error.inj henc)).1] at hden
    exact resolveAllowedCwd_message hden
  · cases henc

/-- **The Node's half.** -/
theorem sameRun_iff (host : NodeHost) (authority : Option Journal) (p : RunStartPayload)
    (keys : Option (String × String)) :
    SameRun (handlePlain host authority p.truthy keys) (handlePlain host authority p none) ↔ ¬ LosesFalsy host p := by
  constructor
  · rintro hsame ⟨hagent, hcwd | ⟨hkey, ⟨hcwd, hnull⟩ | ⟨hcwd, hwrite, hlease⟩⟩⟩
    · exact lostCwd_differs hagent hcwd hsame
    · exact lostKey_scratch_differs hagent hkey hnull hcwd hsame
    · by_cases hlost : Lost p.cwd
      · exact lostCwd_differs hagent hlost hsame
      · exact lostKey_cwd_differs hagent hkey hcwd hlost hwrite hlease hsame
  · intro hkept
    refine sameRun_of_admit ?_
    by_cases hagent : p.agent ∈ host.supportedAgents
    · have hcwd : ¬ Lost p.cwd := fun hcwd => hkept ⟨hagent, .inl hcwd⟩
      have hws : resolveWorkspace host.env p.truthy.start = resolveWorkspace host.env p.start := by
        refine resolveWorkspace_truthy hcwd fun hkey => ⟨fun hnone => ?_, fun hsome => ?_⟩
        · exact Classical.byContradiction fun hnull => hkept ⟨hagent, .inr ⟨hkey, .inl ⟨hnone, hnull⟩⟩⟩
        · by_cases hwrite : p.workspaceWrite = some true
          · exact .inl hwrite
          · exact .inr fun hlease => hkept ⟨hagent, .inr ⟨hkey, .inr ⟨hsome, hwrite, hlease⟩⟩⟩
      have hnone : p.truthy.start.cwd.isNone = p.start.cwd.isNone :=
        congrArg (fun c => (Option.map textOf c).isNone) (truthyJson_kept hcwd)
      exact admitRun_congr rfl hws (presented_truthy p) hnone rfl (write_truthy p)
    · exact admitRun_unsupported rfl hagent

/-! ## The result -/

/-- **Same request, same run, up to four slips.**  What a Gateway sends does not depend on its store, except
    that a write permission is sent only with one, and what is too large for one only without; and a Node makes
    the same run of both forms of a payload, except that it forgets a `cwd` or a `workspace_key` of the
    encrypted one that is not true. -/
theorem same_request_same_run (b : Parsed) (r : CreateTaskRequest) (host : NodeHost) (authority : Option Journal)
    (identity : Identity) (p : RunStartPayload) :
    (validateCreateTaskRequest b = .ok r → (StoreIndependent r ↔ ¬ StoreMatters r)) ∧
    (SameRun (handleEncrypted host authority identity (identity.encryptPayload p)) (handlePlain host authority p none)
      ↔ ¬ LosesFalsy host p) := by
  refine ⟨fun h => storeIndependent_iff (validated_agent h), ?_⟩
  simp only [handleEncrypted, identity.opens]
  exact sameRun_iff host authority p _

/-- A create request for a Node, with or without the permission to write. -/
def writeBody (write : Bool) : Parsed :=
  .obj [("agent", .str "codex"), ("node_id", .str "n1"), ("input", .obj [("text", .str "go")]),
    ("execution", .obj [("workspace_write", .bool write)])]

def writeRequest (write : Bool) : CreateTaskRequest :=
  ⟨"codex", some "n1", "go", none, none, none, some write, none, none, none, none⟩

theorem writeBody_accepted (write : Bool) : validateCreateTaskRequest (writeBody write) =
    .ok (writeRequest write) := rfl

/-- A Node whose files are all there and whose backend starts. -/
def sampleHost : NodeHost where
  nodeId := "n1"
  supportedAgents := ["codex"]
  workspaceRoot := "/ws"
  allowedRoots := []
  tmpdir := "/tmp"
  files := ⟨fun path => .ok path, fun _ => .ok true, fun _ => false, fun _ => .ok ()⟩
  now := 46655
  now_le := by decide
  rand := 255
  rand_lt := by decide
  gateFault := none
  mkdirFault := none
  promptFault := none
  recordFault := none
  bindFault := false
  backendStart := .ok "4711"
  update := .written

/-- A channel that hides nothing. -/
def openChannel : Identity where
  Envelope := RunStartPayload
  encryptPayload := id
  decryptPayload := some
  opens := fun _ => rfl
  deriveKeys := fun _ => ("stop", "approval")

theorem writeRequest_fits (write : Bool) : ¬ TooLarge (writeRequest write) := by
  rintro (hbig | ⟨m, hm, -⟩ | hbig)
  · exact absurd hbig (show ¬ VibeIdempotency.inputTextBytes < byteLen "go" by decide +kernel)
  · cases hm
  · exact absurd hbig (show ¬ taskEventPayload < byteLen (stringify (.obj [("agent", .str "codex")])) by decide +kernel)

/-- A request that does not write is sent alike, and its payload starts one run in either form, also with a `null`
    for its key. -/
theorem read_only_request_same :
    let payload := { remoteRunStart (plainOpts (writeRequest false) (some "go")) with workspaceKey := some .null }
    StoreIndependent (writeRequest false) ∧
      SameRun (handleEncrypted sampleHost none openChannel payload) (handlePlain sampleHost none payload none) ∧
      ((handlePlain sampleHost none payload none).file.map fun f => f.record.workspacePath) = some "/ws/run_zzz_0000ff" := by
  intro payload
  obtain ⟨hgateway, hnode⟩ := same_request_same_run (writeBody false)
    (writeRequest false) sampleHost none openChannel payload
  refine ⟨(hgateway (writeBody_accepted false)).mpr ?_, hnode.mpr ?_, by decide +kernel⟩
  · rintro ⟨-, -, hwrite | hbig⟩
    · cases hwrite
    · exact writeRequest_fits false hbig
  · rintro ⟨-, ⟨j, hcwd, -⟩ | ⟨-, ⟨-, hnull⟩ | ⟨hcwd, -⟩⟩⟩
    · cases hcwd
    · exact hnull rfl
    · exact hcwd rfl

/-- A request that writes is sent without its permission by a Gateway that has no store. -/
theorem store_changes_payload :
    validateCreateTaskRequest (writeBody true) = .ok (writeRequest true) ∧
      ((sentPayload (openGateway (writeRequest true)) none (writeRequest true)).map fun p => p.workspaceWrite)
        = some none ∧
      ((sentPayload (openGateway (writeRequest true)) (some emptyStore) (writeRequest true)).map
        fun p => p.workspaceWrite) = some (some true) ∧
      ¬ StoreIndependent (writeRequest true) := by
  refine ⟨writeBody_accepted true, by decide +kernel, by decide +kernel, fun hsame => ?_⟩
  refine (storeIndependent_iff ?_).mp hsame ⟨by decide +kernel, rfl, .inl rfl⟩
  exact (by decide +kernel : trim "codex" ≠ "")

end VibePayload
