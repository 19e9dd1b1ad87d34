import VibeWorkflow.AdmissionProofs
import VibeWorkflow.ValidatorProofs
import Mathlib.Data.List.Sort

/-!
# The compiler's pure parts

A compiler task answers with one JSON object, which trusted code parses strictly, validates against
the spec validator, the inventory and the system policy, and previews.  The hashes that an approval
binds are taken over canonical JSON: the properties of every object in the order of their names.

* `canonicalJson` — canonical text, with JavaScript's own order of properties;
* `parseCompilerResult`, `validateReady` — what a compiler may answer, and what is accepted of it;
* `buildPolicySummary`, `buildPreview`, `buildCompilerPrompt` — what is shown and what is asked;
* **`validateReady_admits`** — what is accepted passes the checks of a workflow created directly.
-/

namespace VibeCompiler

open VibeJson VibeContract VibeValidator VibeStore VibeAdmission

/-! ## Canonical JSON -/

def unitsLe : List Nat → List Nat → Bool
  | [], _ => true
  | _ :: _, [] => false
  | a :: as, b :: bs => a < b || (a == b && unitsLe as bs)

/-- `.sort()` on distinct strings. -/
def sortStrings {α : Type} (name : α → String) (xs : List α) : List α :=
  xs.insertionSort (fun a b => unitsLe (utf16Units (name a)) (utf16Units (name b)) = true)

/-- The number an array-index property name stands for. -/
def arrayIndex? (name : String) : Option Nat :=
  let n := Nat.ofDigitChars 10 name.toList 0
  if name.toList ≠ [] ∧ name.toList.all Char.isDigit ∧ (Nat.toDigits 10 n = name.toList) ∧ n < 2 ^ 32 - 1 then some n
  else none

/-- The properties of the copy, in the order JavaScript lists them: array indices count up first.  An
    assignment to `__proto__` makes no property. -/
def ownOrder {α : Type} (kvs : List (String × α)) : List (String × α) :=
  let own := (sortStrings Prod.fst kvs).filter (fun kv => kv.1 ≠ "__proto__")
  (own.filter (fun kv => (arrayIndex? kv.1).isSome)).insertionSort
      (fun a b => (arrayIndex? a.1).getD 0 ≤ (arrayIndex? b.1).getD 0)
    ++ own.filter (fun kv => (arrayIndex? kv.1).isNone)

mutual

def canonicalize : Json → Json
  | .arr xs => .arr (canonicalizeList xs)
  | .obj kvs => .obj (ownOrder (canonicalizeFields kvs))
  | .null => .null
  | .bool b => .bool b
  | .num n => .num n
  | .str s => .str s

def canonicalizeList : List Json → List Json
  | [] => []
  | x :: xs => canonicalize x :: canonicalizeList xs

def canonicalizeFields : List (String × Json) → List (String × Json)
  | [] => []
  | (k, v) :: kvs => (k, canonicalize v) :: canonicalizeFields kvs

end

def canonicalJson (value : Json) : String := stringify (canonicalize value)

example : canonicalJson (.obj [("b", .null), ("10", .bool true), ("9", .bool false), ("__proto__", .obj []), ("a", .null)])
    = "\x7b\"9\":false,\"10\":true,\"a\":null,\"b\":null\x7d" := by decide +kernel

/-! ## The inventory -/

structure InventoryAgent where
  agent : String
  nodeId : Option String
  permissionModes : List String
  workspaceSupported : Bool
  capabilities : List String
  verifierProfiles : Option (List String)
deriving DecidableEq

structure Inventory where
  agents : List InventoryAgent
  observedAt : String
deriving DecidableEq

def strArr (xs : List String) : Json := .arr (xs.map Json.str)

def InventoryAgent.json (a : InventoryAgent) : Json :=
  .obj ([("agent", .str a.agent)] ++ (a.nodeId.map fun n => ("node_id", Json.str n)).toList
    ++ [("permission_modes", strArr a.permissionModes), ("workspace_supported", .bool a.workspaceSupported),
      ("capabilities", strArr a.capabilities)]
    ++ (a.verifierProfiles.map fun ps => ("verifier_profiles", strArr ps)).toList)

def Inventory.json (inv : Inventory) : Json :=
  .obj [("agents", .arr (inv.agents.map InventoryAgent.json)), ("observed_at", .str inv.observedAt)]

def findPlacement (inv : Inventory) (agent : String) (nodeId : Option String) : Option InventoryAgent :=
  inv.agents.find? (fun a => a.agent = agent ∧ a.nodeId = nodeId)

/-! ## The compiler's result -/

inductive CompilerStatus where
  | ready | needsInput | impossible | policyDenied
deriving DecidableEq, Repr

def CompilerStatus.name : CompilerStatus → String
  | .ready => "ready"
  | .needsInput => "needs_input"
  | .impossible => "impossible"
  | .policyDenied => "policy_denied"

def CompilerStatus.ofName : String → Option CompilerStatus
  | "ready" => some .ready
  | "needs_input" => some .needsInput
  | "impossible" => some .impossible
  | "policy_denied" => some .policyDenied
  | _ => none

structure CompilerResult where
  status : CompilerStatus
  workflowSpec : Json
  inputValues : Json
  rationale : Json
  questions : List String
  warnings : List String
deriving DecidableEq

inductive ParseCode where
  | notJson | notObject | unknownField | badSchemaVersion | badStatus | badShape
deriving DecidableEq, Repr

def ParseCode.name : ParseCode → String
  | .notJson => "not_json"
  | .notObject => "not_object"
  | .unknownField => "unknown_field"
  | .badSchemaVersion => "bad_schema_version"
  | .badStatus => "bad_status"
  | .badShape => "bad_shape"

def knownResultFields : List String :=
  ["schema_version", "status", "workflow_spec", "input_values", "rationale", "questions", "warnings"]

def maxList : Nat := 50
def maxStr : Nat := 4096

/-- `parsed[k] ?? fallback`. -/
def orElse (j : Json) (k : String) (fallback : Json) : Json :=
  match j.get? k with
  | none | some .null => fallback
  | some v => v

/-- `isStrList`, with the strings it admits. -/
def strList? : Json → Option (List String)
  | .arr xs =>
    if xs.length ≤ maxList ∧ xs.all (fun x => match x with | .str s => utf16Length s ≤ maxStr | _ => false)
      then some (xs.filterMap Json.str?) else none
  | _ => none

/-- `parseCompilerResult`, over the platform's `JSON.parse`. -/
def parseCompilerResult (jsonParse : String → Option Json) (text : String) : Except ParseCode CompilerResult :=
  if (trim text).toList.head? ≠ some '\x7b' then .error .notJson
  else match jsonParse (trim text) with
    | none => .error .notJson
    | some parsed =>
      if !parsed.isObj then .error .notObject
      else if parsed.keys.any (fun k => !knownResultFields.contains k) then .error .unknownField
      else if parsed.get? "schema_version" ≠ some (.str "1") then .error .badSchemaVersion
      else match ((parsed.get? "status").bind Json.str?).bind CompilerStatus.ofName with
        | none => .error .badStatus
        | some status =>
          let spec := orElse parsed "workflow_spec" (.obj [])
          let inputs := orElse parsed "input_values" (.obj [])
          let rationale := orElse parsed "rationale" (.obj [])
          if !(spec.isObj && inputs.isObj && rationale.isObj) then .error .badShape
          else match strList? (orElse parsed "questions" (.arr [])), strList? (orElse parsed "warnings" (.arr [])) with
            | some questions, some warnings =>
              .ok ⟨status, spec, inputs, rationale, questions.take maxList, warnings.take maxList⟩
            | _, _ => .error .badShape

/-! ## Validation of a ready result -/

structure SystemPolicy where
  maxTasksCap : Nat
  maxRuntimeCapSeconds : Nat
  maxRoundsCap : Nat
  allowedPermissionModes : List String

def defaultSystemPolicy : SystemPolicy := ⟨200, 21600, 50, ["default"]⟩

def lowerAscii (c : Char) : Char := if 'A' ≤ c ∧ c ≤ 'Z' then Char.ofNat (c.toNat + 32) else c

/-- The alternatives of `SECRET_KEY_RE`. -/
def secretWords : List String :=
  ["token", "secret", "password", "passwd", "apikey", "api_key", "api-key", "credential", "privatekey", "private_key",
    "private-key", "bearer", "accesskey", "access_key", "access-key"]

def isSecretField (key : String) : Bool :=
  secretWords.any (fun w => containsChars w.toList (key.toList.map lowerAscii))

mutual

/-- Names that look like credentials, down to a bounded depth. -/
def scanSecrets (path : String) (depth : Nat) : Json → List ValidationIssue
  | .arr xs => if depth > 12 then [] else scanSecretsList path depth 0 xs
  | .obj kvs => if depth > 12 then [] else scanSecretsFields path depth kvs
  | _ => []

def scanSecretsList (path : String) (depth i : Nat) : List Json → List ValidationIssue
  | [] => []
  | x :: xs => scanSecrets (path ++ "/" ++ toString i) (depth + 1) x ++ scanSecretsList path depth (i + 1) xs

def scanSecretsFields (path : String) (depth : Nat) : List (String × Json) → List ValidationIssue
  | [] => []
  | (k, v) :: kvs =>
    (if isSecretField k then
      [⟨"secret_field_rejected", "secret/credential-like field is not allowed: " ++ k, some (path ++ "/" ++ k)⟩] else [])
    ++ scanSecrets (path ++ "/" ++ k) (depth + 1) v ++ scanSecretsFields path depth kvs

end

/-- `isCompletableSpec`. -/
def isCompletableSpec (spec : WorkflowSpec) : Bool := spec.edges.any (fun e => e.target = "$complete")

def stepsOf (spec : WorkflowSpec) (role : String) : List AgentTaskStep :=
  spec.steps.filter (fun s => s.agentRole ≠ "" && s.agentRole = role)

def permissionsOf (spec : WorkflowSpec) (role : String) : List String :=
  ((stepsOf spec role).filterMap (fun s => s.permissionMode.filter (· ≠ ""))).eraseDups

def profilesOf (spec : WorkflowSpec) (role : String) : List String :=
  ((stepsOf spec role).filterMap (fun s => (s.verify.bind (Json.get? · "profile")).bind Json.str?)).eraseDups

/-- The issues of one role against its placement. -/
def roleIssues (spec : WorkflowSpec) (inventory : Inventory) (policy : SystemPolicy) (roleName : String)
    (role : WorkflowAgentRole) : List ValidationIssue :=
  let path := some ("/agents/" ++ roleName)
  match findPlacement inventory role.agent role.nodeId with
  | none => [⟨"agent_not_in_inventory", "agent \"" ++ role.agent ++ "\""
      ++ ((role.nodeId.filter (· ≠ "")).map (" on node " ++ ·)).getD "" ++ " is not available in the inventory", path⟩]
  | some placement =>
    ((permissionsOf spec roleName).filter (fun mode =>
        !placement.permissionModes.contains mode || !policy.allowedPermissionModes.contains mode)).map (fun mode =>
      ⟨"permission_not_enforceable", "permission_mode \"" ++ mode ++ "\" is not enforceable for role " ++ roleName, path⟩)
    ++ (if (stepsOf spec roleName).any (fun s => s.workspaceKeyTemplate.isSome) && !placement.workspaceSupported then
      [⟨"workspace_not_supported",
        "role " ++ roleName ++ " requires a workspace but its placement does not support one", path⟩] else [])
    ++ ((profilesOf spec roleName).filter (fun p => !(placement.verifierProfiles.getD []).contains p)).map (fun p =>
      ⟨"verifier_profile_not_advertised", "verifier profile \"" ++ p
        ++ "\" is not advertised by the placement for role " ++ roleName ++ " (the Node cannot enforce it)", path⟩)

/-- The system policy's caps. -/
def limitIssues (lim : WorkflowLimits) (policy : SystemPolicy) : List ValidationIssue :=
  (if policy.maxTasksCap < lim.maxTasks then
    [⟨"limit_exceeds_policy", "max_tasks " ++ toString lim.maxTasks ++ " exceeds cap " ++ toString policy.maxTasksCap,
      some "/limits/max_tasks"⟩] else [])
  ++ (if policy.maxRuntimeCapSeconds < lim.maxRuntimeSeconds then
    [⟨"limit_exceeds_policy", "max_runtime_seconds exceeds cap", some "/limits/max_runtime_seconds"⟩] else [])
  ++ (if policy.maxRoundsCap < lim.maxRounds.getD 0 then
    [⟨"limit_exceeds_policy", "max_rounds exceeds cap", some "/limits/max_rounds"⟩] else [])

def completionIssues (spec : WorkflowSpec) : List ValidationIssue :=
  if isCompletableSpec spec && spec.completionPolicy.isNone then
    [⟨"completion_policy_required", "a completable workflow must declare a completion_policy", some "/completion_policy"⟩]
  else []

/-- `validateReady`: the issues, or the normalized inputs. -/
def validateReady (specInput inputValues : Json) (inventory : Inventory) (policy : SystemPolicy) :
    Except (List ValidationIssue) (List (String × Json)) :=
  let secrets := scanSecrets "/workflow_spec" 0 specInput ++ scanSecrets "/input_values" 0 inputValues
  let v := validateWorkflowSpec specInput
  if !v.valid then .error (secrets ++ v.issues.take 25)
  else
    let spec := WorkflowSpec.ofJson specInput
    match normalizeInputValues spec (some inputValues) with
    | .error e => .error (secrets ++ [⟨"invalid_input_values", e.message,
        (e.name.filter (· ≠ "")).map ("/input_values/" ++ ·)⟩])
    | .ok values =>
      let issues := secrets ++ spec.agents.flatMap (fun r => roleIssues spec inventory policy r.1 r.2)
        ++ limitIssues spec.limits policy ++ completionIssues spec
      if issues.isEmpty then .ok values else .error issues

/-- The checks of `createWorkflow`, which a workflow that is created directly passes. -/
def createChecks (specInput : Json) (provided : Option Json) : Option (List (String × Json)) :=
  if (validateWorkflowSpec specInput).valid then
    let spec := WorkflowSpec.ofJson specInput
    if isCompletableSpec spec && spec.completionPolicy.isNone then none
    else (normalizeInputValues spec provided).toOption
  else none

/-- **What is accepted passes the checks of a direct creation**, with the same inputs. -/
theorem validateReady_admits {specInput inputValues : Json} {inventory : Inventory} {policy : SystemPolicy}
    {values : List (String × Json)} (h : validateReady specInput inputValues inventory policy = .ok values) :
    createChecks specInput (some inputValues) = some values := by
  unfold validateReady at h
  unfold createChecks
  by_cases hv : (validateWorkflowSpec specInput).valid = true
  · simp only [hv, Bool.not_true, Bool.false_eq_true, if_false] at h
    rw [if_pos hv]
    split at h
    · exact nomatch h
    · rename_i vs hnorm
      split at h
      · rename_i hissues
        obtain rfl := Except.ok.inj h
        -- no issue at all means no missing completion policy
        have hcompletion : completionIssues (WorkflowSpec.ofJson specInput) = [] := by
          have hnil := List.isEmpty_iff.mp hissues
          exact (List.append_eq_nil_iff.mp hnil).2
        unfold completionIssues at hcompletion
        split at hcompletion
        · exact nomatch hcompletion
        · rename_i hpolicy
          show (if _ then none else _) = _
          rw [if_neg hpolicy, hnorm]
          rfl
      · exact nomatch h
  · rw [Bool.not_eq_true] at hv
    simp only [hv, Bool.not_false, if_true] at h
    exact nomatch h

/-! ## The preview -/

/-- `o[k] ?? null`. -/
def orNull (j : Option Json) (k : String) : Json := (j.bind (Json.get? · k)).getD .null

def specSteps (spec : Json) : List Json := ((spec.get? "steps").getD .null).elems
def specEdges (spec : Json) : List Json := ((spec.get? "edges").getD .null).elems
def specAgents (spec : Json) : List (String × Json) := ((spec.get? "agents").getD .null).fields

/-- The role a step names, if it names one. -/
def stepRole (spec step : Json) : Option Json :=
  ((strField? step "agent_role").filter (· ≠ "")).bind (lookup (specAgents spec))

/-- A present property of an object. -/
def propOf (j : Json) (k : String) : List (String × Json) := ((j.get? k).map fun v => (k, v)).toList

/-- The text of a template's value, or another one. -/
def shown (j : Json) (fallback : String) : String := match j with
  | .null => fallback
  | v => jsString (some v)

/-- A step's warnings about what it may do outside. -/
def stepWarnings (spec step : Json) : List String :=
  (if strField? step "permission_mode" = some "unsafe-skip" then
    ["step \"" ++ strField step "id" ++ "\" runs with unsafe-skip permissions (bypasses approval prompts)"] else [])
  ++ (if (step.get? "workspace_key_template").isSome then
    ["step \"" ++ strField step "id" ++ "\" writes a Node workspace ("
      ++ shown (orNull (stepRole spec step) "node_id") "unrouted" ++ ")"] else [])

def summaryWarnings (spec : Json) : List String :=
  sortStrings id ((specSteps spec).flatMap (stepWarnings spec)).eraseDups

def summaryLimits (spec : Json) : Json :=
  let limits := (spec.get? "limits").getD .null
  .obj (propOf limits "max_tasks" ++ propOf limits "max_runtime_seconds" ++ [("max_rounds", orNull (some limits) "max_rounds")]
    ++ propOf limits "max_step_attempts" ++ propOf limits "max_failures")

/-- `buildPolicySummary`. -/
def buildPolicySummary (spec : Json) : Json :=
  let cp := orNull (some spec) "completion_policy"
  .obj [("roles", .arr ((specAgents spec).map fun r =>
      .obj ([("role", Json.str r.1)] ++ propOf r.2 "agent" ++ [("node_id", orNull (some r.2) "node_id")]))),
    ("permissions", .arr ((specSteps spec).filterMap fun s =>
      ((strField? s "permission_mode").filter (· ≠ "")).map fun mode =>
        .obj ([("step", .str (strField s "id")), ("role", .str (strField s "agent_role")), ("permission_mode", .str mode)]))),
    ("workspace_access", .arr ((specSteps spec).filterMap fun s =>
      (s.get? "workspace_key_template").map fun _ =>
        .obj ([("step", .str (strField s "id")), ("role", .str (strField s "agent_role")),
          ("node_id", orNull (stepRole spec s) "node_id")]))),
    ("network_capable", .bool false),
    ("limits", summaryLimits spec),
    ("completion_policy", cp),
    ("requires_verified_tests", .bool (flag cp "require_tests_passed")),
    ("stall_policy", orNull (some spec) "stall_policy"),
    ("external_side_effect_warnings", strArr (summaryWarnings spec))]

def previewStep (spec step : Json) : Json :=
  let role := stepRole spec step
  .obj [("id", .str (strField step "id")), ("role", orNull (some step) "agent_role"), ("agent", orNull role "agent"),
    ("node_id", orNull role "node_id"), ("workspace", .bool (step.get? "workspace_key_template").isSome),
    ("workspace_write", .bool (flag step "workspace_write")), ("verify", orNull (step.get? "verify") "profile"),
    ("permission_mode", orNull (some step) "permission_mode"), ("pause", orNull (step.get? "pause_before") "kind")]

/-- An edge's condition as text. -/
def edgeCondition (edge : Json) : Json :=
  match edge.get? "condition" with
  | none => .null
  | some c => match strField? c "path" with
    | none => .null
    | some path => .str (trim (path ++ " " ++ shown (orNull (some c) "op") "" ++ " " ++ ((c.get? "value").map stringify).getD ""))

def previewEdge (edge : Json) : Json :=
  .obj [("from", .str (strField edge "from")), ("to", .str (strField edge "to")), ("kind", .str (strField edge "kind")),
    ("loop", .bool (strField edge "kind" = "loop")), ("terminal", .bool ((strField edge "to").toList.head? = some '$')),
    ("cond", edgeCondition edge)]

def graphStep (st : Json) : String :=
  let get := fun k => orNull (some st) k
  "  step " ++ shown (get "id") "" ++ ": " ++ shown (get "agent") "—"
    ++ (match get "node_id" with | .str n => if n = "" then "" else "@" ++ n | _ => "")
    ++ (if flag st "workspace" then " [workspace]" else "")
    ++ (match get "permission_mode" with | .str m => if m = "" then "" else " perm=" ++ m | _ => "")
    ++ (match get "pause" with | .str p => if p = "" then "" else " pause=" ++ p | _ => "")

def graphEdge (e : Json) : String :=
  "  edge " ++ strField e "from" ++ " -" ++ (if flag e "loop" then "loop→" else "→") ++ " " ++ strField e "to"

def policyText (j : Json) : String := match j with | .null => "none" | v => stringify v

/-- `buildPreview`. -/
def buildPreview (spec : Json) : Json :=
  let summary := buildPolicySummary spec
  let limits := (summary.get? "limits").getD .null
  let steps := (specSteps spec).map (previewStep spec)
  let edges := (specEdges spec).map previewEdge
  let warnings := summaryWarnings spec
  let lines := ["workflow " ++ strField spec "name" ++ " (entry: " ++ strField spec "entry_step" ++ ")"]
    ++ steps.map graphStep ++ edges.map graphEdge
    ++ ["  limits: tasks≤" ++ jsString (limits.get? "max_tasks") ++ " runtime≤" ++ jsString (limits.get? "max_runtime_seconds")
        ++ "s rounds≤" ++ shown (orNull (some limits) "max_rounds") "—",
      "  completion_policy: " ++ policyText (orNull (some summary) "completion_policy") ++ "  stall_policy: "
        ++ policyText (orNull (some summary) "stall_policy")]
    ++ (if warnings.isEmpty then [] else ["  warnings: " ++ "; ".intercalate warnings])
  .obj [("name", .str (strField spec "name")), ("entry_step", .str (strField spec "entry_step")),
    ("policy_summary", summary), ("steps", .arr steps), ("edges", .arr edges),
    ("loop_edges", .num (.ofInt (edges.filter (flag · "loop")).length)),
    ("terminal_routes", strArr (sortStrings id ((edges.filter (flag · "terminal")).map (strField · "to")).eraseDups)),
    ("graph_text", .str ("\n".intercalate lines))]

/-! ## The prompt -/

/-- `buildCompilerPrompt`. -/
def buildCompilerPrompt (nlRequest : String) (constraints : Json) (inventory : Inventory) : String :=
  "\n".intercalate
    ["You are a Workflow Compiler. Output EXACTLY ONE JSON object and nothing else (no prose, no markdown).",
      "The object must match: \x7b \"schema_version\":\"1\", \"status\":\"ready|needs_input|impossible|policy_denied\", \"workflow_spec\":\x7b\x7d, \"input_values\":\x7b\x7d, \"rationale\":\x7b\x7d, \"questions\":[], \"warnings\":[] \x7d.",
      "Assign roles to agents/nodes ONLY from the inventory. Do not invent agents. A completable workflow ($complete route) MUST include a completion_policy. Never include secrets or credentials.",
      "INVENTORY:", canonicalJson inventory.json,
      "CONSTRAINTS:", canonicalJson constraints,
      "REQUEST:", nlRequest]

end VibeCompiler
