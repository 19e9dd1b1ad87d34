import VibeWorkflow.JsonProofs

/-!
# The workflow contract: statuses, limits, and the typed reading of a spec

The validator works on untrusted JSON; once it has accepted a spec, the runtime reads the
same JSON through the `WorkflowSpec` interface.  `WorkflowSpec.ofJson` is that reading: it
takes every field where the code reads it and never rejects, so it says nothing about a spec
the validator has not accepted.
-/

namespace VibeContract

open VibeJson

/-! ## Statuses and terminal targets -/

/-- `WorkflowStatus`. -/
inductive WorkflowStatus where
  | draft | ready | running | blocked | waitingInput | waitingApproval
  | completed | failed | cancelled
deriving DecidableEq, Repr

/-- `StepExecutionStatus`. -/
inductive StepStatus where
  | pending | running | completed | failed | skipped | cancelled
deriving DecidableEq, Repr

/-- `blocked` and the two waiting states are resumable, hence not terminal. -/
def isTerminalWorkflowStatus : WorkflowStatus → Bool
  | .completed | .failed | .cancelled => true
  | _ => false

/-- A step execution that is over. -/
def isTerminalStepStatus : StepStatus → Bool
  | .completed | .failed | .skipped | .cancelled => true
  | _ => false

/-- The reserved targets, which are not steps. -/
def terminalTargets : List String := ["$complete", "$failed", "$blocked"]

/-- A reserved target, not a step. -/
def isTerminalTarget (target : String) : Bool := terminalTargets.contains target

/-- The workflow status a reserved target produces; the code only asks for one of the
    three. -/
def terminalTargetToStatus (t : String) : WorkflowStatus :=
  if t = "$complete" then .completed else if t = "$failed" then .failed else .blocked

/-- May a loop edge be taken at `currentRound` under `maxRounds`? -/
def canTakeLoopEdge (currentRound maxRounds : Nat) : Bool := decide (currentRound < maxRounds)

/-! ## Identifier grammars -/

/-- `[a-z0-9]`. -/
def isLowerAlnum (c : Char) : Bool := ('a' ≤ c && c ≤ 'z') || ('0' ≤ c && c ≤ '9')

/-- `[A-Za-z0-9]`. -/
def isAlnum (c : Char) : Bool := isLowerAlnum c || ('A' ≤ c && c ≤ 'Z')

/-- `^head tail{0,max}$`. -/
def matchesId (head tail : Char → Bool) (max : Nat) (s : String) : Bool :=
  match s.toList with
  | [] => false
  | c :: cs => head c && cs.all tail && decide (cs.length ≤ max)

/-- `^[a-z0-9][a-z0-9_-]{0,63}$`. -/
def isSafeName (s : String) : Bool :=
  matchesId isLowerAlnum (fun c => isLowerAlnum c || c == '_' || c == '-') 63 s

/-- `^[A-Za-z0-9][A-Za-z0-9._-]{0,127}$`: a `node_id`, and a literal workspace key. -/
def isOpaqueId (s : String) : Bool :=
  matchesId isAlnum (fun c => isAlnum c || c == '.' || c == '_' || c == '-') 127 s

/-- `^[A-Za-z_][A-Za-z0-9_]*$` on characters: an input or output field name in a path. -/
def isFieldName : List Char → Bool
  | [] => false
  | c :: cs =>
    (isAlnum c || c == '_') && !('0' ≤ c && c ≤ '9') && cs.all (fun d => isAlnum d || d == '_')

/-- A safe name has no dot, which is what keeps derived ids unambiguous. -/
theorem isSafeName_no_dot {s : String} (h : isSafeName s = true) : '.' ∉ s.toList := by
  simp only [isSafeName, matchesId] at h
  cases hs : s.toList with
  | nil => simp
  | cons c cs =>
    rw [hs] at h
    simp only [Bool.and_eq_true, List.all_eq_true] at h
    obtain ⟨⟨hc, hcs⟩, -⟩ := h
    intro hmem
    rcases List.mem_cons.mp hmem with rfl | hmem
    · exact absurd hc (by decide)
    · exact absurd (hcs '.' hmem) (by decide)

/-! ## Bounds and fixed name lists -/

/-- How many values an enum may list. -/
def maxEnumValues : Nat := 64
/-- How long an enum value may be. -/
def maxEnumValueLength : Nat := 128

/-- `LIMIT_MAXIMA`. -/
def limitMaxima : List (String × Nat) :=
  [("max_rounds", 100), ("max_tasks", 1000), ("max_runtime_seconds", 86400),
   ("max_step_attempts", 20), ("max_failures", 100)]

/-- The fields a spec may have. -/
def knownSpecFields : List String :=
  ["version", "name", "description", "entry_step", "inputs", "agents", "output_schemas",
   "limits", "steps", "edges", "completion_policy", "stall_policy"]

/-- What a completion may ask for. -/
def evidenceTypes : List String :=
  ["task_status", "exit_code", "content_hash", "workspace_revision", "changed_files",
   "tests_passed"]

/-- What a stall policy may compare. -/
def stallSignals : List String :=
  ["planner_next_step", "remaining_work", "workspace_revision", "verified_evidence"]

/-- The two context slots a step's output may replace. -/
inductive ContextGroup where
  | latestPlannerDecision | latestExecutorHandoff
deriving DecidableEq, Repr

namespace ContextGroup

def name : ContextGroup → String
  | .latestPlannerDecision => "latest_planner_decision"
  | .latestExecutorHandoff => "latest_executor_handoff"

def ofName (s : String) : Option ContextGroup :=
  if s = "latest_planner_decision" then some .latestPlannerDecision
  else if s = "latest_executor_handoff" then some .latestExecutorHandoff
  else none

/-- `CONTEXT_FIELDS`. -/
def fields : ContextGroup → List String
  | .latestPlannerDecision =>
    ["status", "summary", "next_step", "acceptance_criteria", "open_questions"]
  | .latestExecutorHandoff =>
    ["status", "summary", "changed_files", "tests_run", "remaining_work", "risks"]

end ContextGroup

/-- The slots of the shared context. -/
def contextGroups : List String := ["latest_planner_decision", "latest_executor_handoff"]

/-! ## The typed spec -/

/-- A schema field's type. -/
inductive SchemaFieldType where
  | string | number | boolean | stringArray | enum
deriving DecidableEq, Repr

/-- Other names give no type. -/
def SchemaFieldType.ofName : String → Option SchemaFieldType
  | "string" => some .string
  | "number" => some .number
  | "boolean" => some .boolean
  | "string[]" => some .stringArray
  | "enum" => some .enum
  | _ => none

/-- A workflow input's type. -/
inductive WorkflowInputType where
  | string | number | boolean | stringArray
deriving DecidableEq, Repr

/-- Other names give no type. -/
def WorkflowInputType.ofName : String → Option WorkflowInputType
  | "string" => some .string
  | "number" => some .number
  | "boolean" => some .boolean
  | "string[]" => some .stringArray
  | _ => none

/-- One field of an output schema. -/
structure SchemaField where
  type : SchemaFieldType
  required : Bool
  enum : List String
deriving DecidableEq

/-- The declared fields of a step's output, in declaration order. -/
abbrev OutputSchema := List (String × SchemaField)

/-- One declared input. -/
structure WorkflowInputDef where
  type : WorkflowInputType
  required : Bool
  default : Option Json
deriving DecidableEq

/-- Who runs a step, and where. -/
structure WorkflowAgentRole where
  agent : String
  nodeId : Option String
deriving DecidableEq

/-- What a pause asks for. -/
inductive PauseKind where
  | input | approval
deriving DecidableEq, Repr

def PauseKind.name : PauseKind → String
  | .input => "input"
  | .approval => "approval"

/-- A pause before a step. -/
structure StepPauseGate where
  kind : PauseKind
  prompt : String
  choices : Option (List String)
deriving DecidableEq

/-- A step that an agent runs. -/
structure AgentTaskStep where
  id : String
  agentRole : String
  promptTemplate : String
  outputSchema : String
  permissionMode : Option String
  workspaceKeyTemplate : Option String
  workspaceWrite : Bool
  verify : Option Json
  contextBinding : Option ContextGroup
  pauseBefore : Option StepPauseGate
deriving DecidableEq

/-- A condition's operator. -/
inductive ConditionOp where
  | eqOp | neqOp | existsOp | inOp | unsupported
deriving DecidableEq, Repr

def ConditionOp.ofName : String → ConditionOp
  | "eq" => .eqOp
  | "neq" => .neqOp
  | "exists" => .existsOp
  | "in" => .inOp
  | _ => .unsupported

/-- A test on an output. -/
structure Condition where
  path : String
  op : ConditionOp
  value : Option Json
deriving DecidableEq

/-- A loop edge enters the next round. -/
inductive EdgeKind where
  | normal | loop
deriving DecidableEq, Repr

def EdgeKind.name : EdgeKind → String
  | .normal => "normal"
  | .loop => "loop"

/-- An edge to a step or a terminal. -/
structure WorkflowEdge where
  fromStep : String
  target : String
  condition : Option Condition
  kind : EdgeKind
deriving DecidableEq

/-- The bounds of a run. -/
structure WorkflowLimits where
  maxRounds : Option Nat
  maxTasks : Nat
  maxRuntimeSeconds : Nat
deriving DecidableEq

/-- What a completion must show. -/
structure CompletionPolicy where
  requiredEvidence : List String
  requireRepositoryChange : Bool
  requireNoRemainingWork : Bool
  requireTestsPassed : Bool
deriving DecidableEq

/-- When a loop counts as stalled. -/
structure StallPolicy where
  maxStalledRounds : Nat
  signals : List String
deriving DecidableEq

/-- A workflow as its author wrote it. -/
structure WorkflowSpec where
  version : String
  name : String
  description : Option String
  entryStep : String
  inputs : List (String × WorkflowInputDef)
  agents : List (String × WorkflowAgentRole)
  outputSchemas : List (String × OutputSchema)
  limits : WorkflowLimits
  steps : List AgentTaskStep
  edges : List WorkflowEdge
  completionPolicy : Option CompletionPolicy
  stallPolicy : Option StallPolicy
deriving DecidableEq

/-! ## Reading a spec off its JSON -/

/-- A text field, or no text. -/
def strField (j : Json) (k : String) : String := ((j.get? k).bind Json.str?).getD ""

/-- A text field. -/
def strField? (j : Json) (k : String) : Option String := (j.get? k).bind Json.str?

/-- A flag is set when the property is `true`. -/
def flag (j : Json) (k : String) : Bool := j.get? k == some (.bool true)

/-- A number that counts something. -/
def natOf : Json → Nat
  | .num n => n.mantissa.toNat
  | _ => 0

/-- The texts of a list. -/
def strings (j : Json) : List String := j.elems.filterMap Json.str?

/-- An output field as it is written. -/
def SchemaField.ofJson (j : Json) : SchemaField where
  type := (SchemaFieldType.ofName (strField j "type")).getD .string
  required := flag j "required"
  enum := strings ((j.get? "enum").getD .null)

def OutputSchema.ofJson (j : Json) : OutputSchema :=
  (((j.get? "fields").getD .null).fields).map (fun kv => (kv.1, SchemaField.ofJson kv.2))

def WorkflowInputDef.ofJson (j : Json) : WorkflowInputDef where
  type := (WorkflowInputType.ofName (strField j "type")).getD .string
  required := flag j "required"
  default := j.get? "default"

def WorkflowAgentRole.ofJson (j : Json) : WorkflowAgentRole where
  agent := strField j "agent"
  nodeId := strField? j "node_id"

def StepPauseGate.ofJson (j : Json) : StepPauseGate where
  kind := if strField j "kind" = "input" then .input else .approval
  prompt := strField j "prompt"
  choices := (j.get? "choices").map strings

/-- A step as it is written. -/
def AgentTaskStep.ofJson (j : Json) : AgentTaskStep where
  id := strField j "id"
  agentRole := strField j "agent_role"
  promptTemplate := strField j "prompt_template"
  outputSchema := strField j "output_schema"
  permissionMode := strField? j "permission_mode"
  workspaceKeyTemplate := strField? j "workspace_key_template"
  workspaceWrite := flag j "workspace_write"
  verify := j.get? "verify"
  contextBinding := (strField? j "context_binding").bind ContextGroup.ofName
  pauseBefore := (j.get? "pause_before").map StepPauseGate.ofJson

def Condition.ofJson (j : Json) : Condition where
  path := strField j "path"
  op := ConditionOp.ofName (strField j "op")
  value := j.get? "value"

/-- An edge as it is written. -/
def WorkflowEdge.ofJson (j : Json) : WorkflowEdge where
  fromStep := strField j "from"
  target := strField j "to"
  condition := (j.get? "condition").map Condition.ofJson
  kind := if strField j "kind" = "loop" then .loop else .normal

/-- A missing bound reads as 0. -/
def WorkflowLimits.ofJson (j : Json) : WorkflowLimits where
  maxRounds := (j.get? "max_rounds").map natOf
  maxTasks := natOf ((j.get? "max_tasks").getD .null)
  maxRuntimeSeconds := natOf ((j.get? "max_runtime_seconds").getD .null)

/-- A policy as it is written. -/
def CompletionPolicy.ofJson (j : Json) : CompletionPolicy where
  requiredEvidence := strings ((j.get? "required_evidence").getD .null)
  requireRepositoryChange := flag j "require_repository_change"
  requireNoRemainingWork := flag j "require_no_remaining_work"
  requireTestsPassed := flag j "require_tests_passed"

def StallPolicy.ofJson (j : Json) : StallPolicy where
  maxStalledRounds := natOf ((j.get? "max_stalled_rounds").getD .null)
  signals := strings ((j.get? "signals").getD .null)

/-- Named members of an object-valued field. -/
def members {α : Type} (read : Json → α) (j : Option Json) : List (String × α) :=
  ((j.getD .null).fields).map (fun kv => (kv.1, read kv.2))

/-- The `as WorkflowSpec` reading of a validated spec. -/
def WorkflowSpec.ofJson (j : Json) : WorkflowSpec where
  version := strField j "version"
  name := strField j "name"
  description := strField? j "description"
  entryStep := strField j "entry_step"
  inputs := members WorkflowInputDef.ofJson (j.get? "inputs")
  agents := members WorkflowAgentRole.ofJson (j.get? "agents")
  outputSchemas := members OutputSchema.ofJson (j.get? "output_schemas")
  limits := WorkflowLimits.ofJson ((j.get? "limits").getD .null)
  steps := (((j.get? "steps").getD .null).elems).map AgentTaskStep.ofJson
  edges := (((j.get? "edges").getD .null).elems).map WorkflowEdge.ofJson
  completionPolicy := (j.get? "completion_policy").map CompletionPolicy.ofJson
  stallPolicy := (j.get? "stall_policy").map StallPolicy.ofJson

namespace WorkflowSpec

/-- `spec.steps.find((s) => s.id === id)`. -/
def step? (spec : WorkflowSpec) (id : String) : Option AgentTaskStep :=
  spec.steps.find? (fun s => s.id == id)

/-- The declared schema of a step's output. -/
def schemaOf? (spec : WorkflowSpec) (id : String) : Option OutputSchema :=
  (spec.step? id).bind (fun s => lookup spec.outputSchemas s.outputSchema)

end WorkflowSpec

/-- A lookup commutes with reading the values of a property list. -/
theorem lookup_map {α β : Type} (f : α → β) (kvs : List (String × α)) (q : String) :
    lookup (kvs.map (fun kv => (kv.1, f kv.2))) q = (lookup kvs q).map f := by
  induction kvs with
  | nil => rfl
  | cons hd tl ih =>
    obtain ⟨k, v⟩ := hd
    simp only [List.map_cons, lookup, ih]
    cases lookup tl q with
    | some w => rfl
    | none => by_cases hk : k = q <;> simp [hk]

end VibeContract
