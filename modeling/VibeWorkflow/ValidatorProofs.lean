import VibeWorkflow.TemplateProofs
import VibeWorkflow.GraphProofs

/-!
# The spec validator

`validateWorkflowSpec` is the one gate every workflow spec passes.  It reads untrusted JSON
and reports structured issues; a spec is valid when it reports none.  Each check is a function
to the list of issues it reports, with the code, the message and the path of each, and the
sets and maps one check builds for the next are definitions of their own.
-/

namespace VibeValidator

open VibeJson VibeContract VibeRouting VibeTemplate GraphSearch

/-! ## Issues -/

/-- Every issue the validator reports is an error. -/
structure ValidationIssue where
  code : String
  message : String
  path : Option String
deriving DecidableEq, Repr

abbrev Issues := List ValidationIssue

def err (code message path : String) : Issues := [⟨code, message, some path⟩]

/-- Report when a check fails. -/
def errIf (bad : Bool) (code message path : String) : Issues :=
  if bad then err code message path else []

/-- Report each property outside an allow-list. -/
def unknownFields (allowed : List String) (code message path : String) (j : Json) : Issues :=
  j.keys.flatMap (fun k => errIf (!allowed.contains k) code (message ++ k) (path ++ "/" ++ k))

/-- An optional property that must have a given shape when it is there. -/
def optionalField (ok : Json → Bool) (code message : String) (j : Json) (k path : String) : Issues :=
  errIf ((j.get? k).any (fun v => !ok v)) code message (path ++ "/" ++ k)

/-! ## Small guards -/

/-- `isPosInt`. -/
def isPosInt : Json → Bool
  | .num n => n.isInteger && decide (0 < n.mantissa)
  | _ => false

def strOk (ok : String → Bool) (j : Option Json) : Bool := (j.bind Json.str?).any ok

def isOneOf (names : List String) (j : Json) : Bool := j.str?.any (fun s => names.contains s)

def secretTokens : List String :=
  ["token", "secret", "password", "passwd", "apikey", "bearer", "credential", "privatekey",
   "encryptionkey", "accesskey", "signingkey"]

def isSecretKey (key : String) : Bool := holdsWord secretTokens (normalizeKey key)

/-- The shape a declared input type asks of a value. -/
def matchesInputType (v : Json) : WorkflowInputType → Bool
  | .string => v.isStr
  | .number => match v with | .num _ => true | _ => false
  | .boolean => v.isBool
  | .stringArray => v.isArr && v.elems.all Json.isStr

/-! ## Credential-like field names -/

mutual

def scanSecretFields (path : String) : Json → Issues
  | .arr xs => scanSecretList path 0 xs
  | .obj kvs => scanSecretProps path kvs
  | _ => []

def scanSecretList (path : String) (i : Nat) : List Json → Issues
  | [] => []
  | x :: xs => scanSecretFields (path ++ "/" ++ toString i) x ++ scanSecretList path (i + 1) xs

def scanSecretProps (path : String) : List (String × Json) → Issues
  | [] => []
  | (k, v) :: kvs =>
    errIf (isSecretKey k) "secret_field_forbidden"
      ("credential-like field name is not allowed: " ++ k) (path ++ "/" ++ k)
    ++ scanSecretFields (path ++ "/" ++ k) v ++ scanSecretProps path kvs

end

/-! ## Completion and stall policies -/

def completionFlags : List String :=
  ["require_repository_change", "require_no_remaining_work", "require_tests_passed"]

def validateCompletionPolicy (cp : Json) : Issues :=
  let p := "/completion_policy"
  if !cp.isObj then err "bad_completion_policy" "completion_policy must be an object" p
  else
    (match cp.get? "required_evidence" with
      | none => []
      | some ev =>
        if !ev.isArr || decide (evidenceTypes.length < ev.elems.length) then
          err "bad_required_evidence"
            ("required_evidence must be an array of at most " ++ toString evidenceTypes.length
              ++ " evidence types") (p ++ "/required_evidence")
        else ev.elems.flatMap (fun e => errIf (!isOneOf evidenceTypes e) "bad_evidence_type"
          ("unknown evidence type: " ++ jsString (some e) ++ " (allowed: "
            ++ ", ".intercalate evidenceTypes ++ ")") (p ++ "/required_evidence")))
    ++ completionFlags.flatMap (fun k => optionalField Json.isBool "bad_completion_flag"
        ("completion_policy." ++ k ++ " must be a boolean") cp k p)
    ++ unknownFields ("required_evidence" :: completionFlags) "completion_policy_unknown_field"
        "unknown completion_policy field: " p cp

def maxStalledRounds : Nat := 100

/-- A positive integer within a bound. -/
def isBoundedPosInt (max : Nat) (j : Json) : Bool := isPosInt j && decide (natOf j ≤ max)

def validateStallPolicy (hasLoopEdge : Bool) (sp : Json) : Issues :=
  let p := "/stall_policy"
  if !sp.isObj then err "bad_stall_policy" "stall_policy must be an object" p
  else
    errIf (!hasLoopEdge) "stall_policy_without_loop"
      "stall_policy is only meaningful with a loop edge" p
    ++ errIf (!(sp.get? "max_stalled_rounds").any (isBoundedPosInt maxStalledRounds))
        "bad_max_stalled_rounds"
        ("max_stalled_rounds must be a positive integer ≤ " ++ toString maxStalledRounds)
        (p ++ "/max_stalled_rounds")
    ++ (let signals := (sp.get? "signals").getD .null
        if !signals.isArr || signals.elems.isEmpty
            || decide (stallSignals.length < signals.elems.length) then
          err "bad_stall_signals" "signals must be a non-empty array of stall signals"
            (p ++ "/signals")
        else signals.elems.flatMap (fun s => errIf (!isOneOf stallSignals s) "bad_stall_signal"
          ("unknown stall signal: " ++ jsString (some s) ++ " (allowed: "
            ++ ", ".intercalate stallSignals ++ ")") (p ++ "/signals")))
    ++ unknownFields ["max_stalled_rounds", "signals"] "stall_policy_unknown_field"
        "unknown stall_policy field: " p sp

/-! ## Agents and inputs -/

def validateRole (role : String) (def_ : Json) : Issues :=
  let p := "/agents/" ++ role
  errIf (!isSafeName role) "bad_role_name"
    ("agent role name is not a safe identifier: " ++ role) p
  ++ (if !def_.isObj then err "bad_role" "agent role must be an object" p
      else
        errIf (!strOk (fun a => trim a != "") (def_.get? "agent")) "bad_role_agent"
          "role.agent must be a non-empty string (data, not a command)" (p ++ "/agent")
        ++ optionalField (fun v => strOk isOpaqueId (some v)) "bad_role_node_id"
          "role.node_id must be a safe opaque id" def_ "node_id" p
        ++ optionalField Json.isStr "bad_field_type" "role.description must be a string" def_
          "description" p
        ++ unknownFields ["agent", "node_id", "description"] "role_unknown_field"
          "unknown agent-role field: " p def_)

/-- A property that must be a non-empty object. -/
def isNonEmptyObj (j : Option Json) : Bool := j.any (fun v => v.isObj && !v.keys.isEmpty)

def validateAgents (agents : Option Json) : Issues :=
  if !isNonEmptyObj agents then
    err "agents_missing"
      "agents must be a non-empty object of role → \x7b agent, node_id? \x7d" "/agents"
  else (agents.getD .null).fields.flatMap (fun kv => validateRole kv.1 kv.2)

/-- The declared role names. -/
def agentRoles (agents : Option Json) : List String :=
  if !isNonEmptyObj agents then [] else (agents.getD .null).keys

def validateInput (name : String) (def_ : Json) : Issues :=
  let p := "/inputs/" ++ name
  errIf (!isSafeName name) "bad_input_name" ("input name is not a safe identifier: " ++ name) p
  ++ (if !def_.isObj then err "bad_input" "input def must be an object" p
      else
        (match (strField? def_ "type").bind WorkflowInputType.ofName with
          | none => err "bad_input_type" "input.type must be string|number|boolean|string[]"
              (p ++ "/type")
          | some t => optionalField (fun v => matchesInputType v t) "bad_input_default"
              "input.default does not match input.type" def_ "default" p)
        ++ optionalField Json.isBool "bad_field_type" "input.required must be boolean" def_
          "required" p
        ++ optionalField Json.isStr "bad_field_type" "input.description must be a string" def_
          "description" p
        ++ unknownFields ["type", "required", "description", "default"] "input_unknown_field"
          "unknown input field: " p def_)

def validateInputs (inputs : Option Json) : Issues :=
  match inputs with
  | none => []
  | some j =>
    if !j.isObj then err "inputs_bad" "inputs must be an object" "/inputs"
    else j.fields.flatMap (fun kv => validateInput kv.1 kv.2)

/-- The declared input types, for the inputs whose type is supported. -/
def inputTypes (inputs : Option Json) : List (String × WorkflowInputType) :=
  (inputs.getD .null).fields.filterMap (fun kv =>
    if kv.2.isObj then
      ((strField? kv.2 "type").bind WorkflowInputType.ofName).map (fun t => (kv.1, t))
    else none)

/-! ## Output schemas -/

/-- `FieldDef`: the validator's own reading of a schema field. -/
structure FieldDef where
  type : SchemaFieldType
  enum : Option (List Json)
  required : Bool

/-- The issues of the enum values themselves; `seen` holds the strings met so far. -/
def enumValueIssues (path : String) : List String → List Json → Issues
  | _, [] => []
  | seen, v :: vs =>
    match v.str? with
    | some s =>
      if s = "" then
        err "enum_value_invalid" "enum values must be non-empty strings" path
          ++ enumValueIssues path seen vs
      else
        errIf (decide (maxEnumValueLength < utf16Length s)) "enum_value_invalid"
          ("enum value exceeds " ++ toString maxEnumValueLength ++ " chars") path
        ++ errIf (seen.contains s) "enum_duplicate_values" "enum values must be unique" path
        ++ enumValueIssues path (s :: seen) vs
    | none =>
      err "enum_value_invalid" "enum values must be non-empty strings" path
        ++ enumValueIssues path seen vs

def validateEnumValues (en : Option Json) (path : String) : Issues :=
  match en with
  | some (.arr (v :: vs)) =>
    errIf (decide (maxEnumValues < (v :: vs).length)) "enum_too_many"
      ("enum has more than " ++ toString maxEnumValues ++ " values") path
    ++ enumValueIssues path [] (v :: vs)
  | _ => err "bad_enum" "enum field requires a non-empty string enum[]" path

def validateSchemaField (fp : String) (fdef : Json) : Issues :=
  if !fdef.isObj then err "bad_schema_field" "schema field must be an object" fp
  else
    errIf ((strField? fdef "type").bind SchemaFieldType.ofName).isNone "bad_schema_field_type"
      "field.type must be string|number|boolean|string[]|enum" (fp ++ "/type")
    ++ (if strField? fdef "type" = some "enum" then
          validateEnumValues (fdef.get? "enum") (fp ++ "/enum")
        else errIf (fdef.get? "enum").isSome "enum_on_non_enum_field"
          "enum is only allowed on type \"enum\"" (fp ++ "/enum"))
    ++ optionalField Json.isBool "bad_field_type" "field.required must be boolean" fdef
        "required" fp
    ++ optionalField Json.isStr "bad_field_type" "field.description must be a string" fdef
        "description" fp
    ++ unknownFields ["type", "required", "enum", "description"] "schema_field_unknown_field"
        "unknown schema-field key: " fp fdef

def badSchemaMessage : String := "output schema must be \x7b fields: \x7b...\x7d \x7d"

def validateOutputSchema (sname : String) (sdef : Json) : Issues :=
  let p := "/output_schemas/" ++ sname
  errIf (!isSafeName sname) "bad_schema_name"
    ("output schema name is not a safe identifier: " ++ sname) p
  ++ (if !sdef.isObj then err "bad_schema" badSchemaMessage p
      else
        unknownFields ["fields"] "schema_unknown_field" "output schema allows only \"fields\": " p
          sdef
        ++ (match sdef.get? "fields" with
            | some (.obj fields) =>
              errIf fields.isEmpty "schema_no_fields" "output schema fields must be non-empty"
                (p ++ "/fields")
              ++ fields.flatMap (fun kv => validateSchemaField (p ++ "/fields/" ++ kv.1) kv.2)
            | _ => err "bad_schema" badSchemaMessage (p ++ "/fields")))

def validateOutputSchemas (schemas : Option Json) : Issues :=
  if !isNonEmptyObj schemas then
    err "output_schemas_missing" "output_schemas must be a non-empty object" "/output_schemas"
  else (schemas.getD .null).fields.flatMap (fun kv => validateOutputSchema kv.1 kv.2)

/-- The fields object of a schema, when it is one. -/
def schemaFieldsOf (sdef : Json) : List (String × Json) := ((sdef.get? "fields").getD .null).fields

/-- The validator's reading of one field, for a supported type. -/
def fieldDefOf (fdef : Json) : Option FieldDef :=
  if fdef.isObj then
    ((strField? fdef "type").bind SchemaFieldType.ofName).map (fun t =>
      { type := t
        enum := match fdef.get? "enum" with | some (.arr xs) => some xs | _ => none
        required := flag fdef "required" })
  else none

def schemaNames (schemas : Option Json) : List String :=
  if !isNonEmptyObj schemas then [] else (schemas.getD .null).keys

/-- `schemaFields`: the declared field names of each schema. -/
def schemaFields (schemas : Option Json) : List (String × List String) :=
  (schemas.getD .null).fields.map (fun kv => (kv.1, (schemaFieldsOf kv.2).map Prod.fst))

/-- `schemaFieldDefs`: the readable field definitions of each schema. -/
def schemaFieldDefs (schemas : Option Json) : List (String × List (String × FieldDef)) :=
  (schemas.getD .null).fields.map (fun kv =>
    (kv.1, (schemaFieldsOf kv.2).filterMap (fun f => (fieldDefOf f.2).map (fun d => (f.1, d)))))

/-! ## Steps -/

/-- A bound step's schema against its context slot: only the slot's fields, and the two core
    fields required. -/
def checkContextBindingCompat (group : ContextGroup) (defs : Option (List (String × FieldDef)))
    (path : String) : Issues :=
  match defs with
  | none => []
  | some ds =>
    ds.flatMap (fun d => errIf (!group.fields.contains d.1) "context_binding_incompatible_schema"
      ("output field \"" ++ d.1 ++ "\" is not part of context." ++ group.name
        ++ "; bound output schema must be structurally compatible") path)
    ++ ["status", "summary"].flatMap (fun core =>
        errIf (!(lookup ds core).any FieldDef.required) "context_binding_incompatible_schema"
          ("context." ++ group.name ++ " binding requires a required \"" ++ core
            ++ "\" output field") path)

def maxPausePrompt : Nat := 2000
def maxPauseChoices : Nat := 50
def maxPauseChoiceLen : Nat := 200

def isPauseChoice (c : Json) : Bool :=
  strOk (fun s => decide (0 < utf16Length s) && decide (utf16Length s ≤ maxPauseChoiceLen)) (some c)

def isPauseChoices (c : Json) : Bool :=
  c.isArr && decide (c.elems.length ≤ maxPauseChoices) && c.elems.all isPauseChoice

def validatePauseGate (p : String) (gate : Json) : Issues :=
  if !gate.isObj then err "bad_pause_before" "pause_before must be an object" p
  else
    errIf (!strOk (fun k => ["input", "approval"].contains k) (gate.get? "kind")) "bad_pause_kind"
      "pause_before.kind must be \"input\" or \"approval\"" (p ++ "/kind")
    ++ errIf (!strOk (fun s => decide (0 < utf16Length s) && decide (utf16Length s ≤ maxPausePrompt))
          (gate.get? "prompt")) "bad_pause_prompt"
        ("pause_before.prompt must be a non-empty string ≤ " ++ toString maxPausePrompt ++ " chars")
        (p ++ "/prompt")
    ++ optionalField isPauseChoices "bad_pause_choices"
        ("pause_before.choices must be an array of ≤ " ++ toString maxPauseChoices
          ++ " non-empty strings (≤ " ++ toString maxPauseChoiceLen ++ " chars each)") gate
        "choices" p
    ++ unknownFields ["kind", "prompt", "choices"] "pause_unknown_field"
        "unknown pause_before field: " p gate

def maxVerifyProfileLen : Nat := 128

/-- The advertised verifier profiles. -/
def verifierProfileIds : List String := ["node-test"]

def isKnownVerifierProfile (id : String) : Bool := verifierProfileIds.contains id

/-- `^[a-z0-9][a-z0-9-]{0,127}$`. -/
def isProfileId (s : String) : Bool :=
  matchesId isLowerAlnum (fun c => isLowerAlnum c || c == '-') 127 s

/-- The message of a rejected verifier config; `none` when it is accepted. -/
def validateTaskVerifyConfig (input : Json) : Option String :=
  if !input.isObj then some "verify must be an object \x7b profile: string \x7d"
  else match input.keys.find? (fun k => k ≠ "profile") with
    | some k => some ("unknown verify field: " ++ k
        ++ " (only \"profile\" is allowed; raw argv/commands are not permitted)")
    | none =>
      match input.get? "profile" with
      | none => some "verify.profile is required"
      | some (.str profile) =>
        if maxVerifyProfileLen < utf16Length profile ∨ ¬ isProfileId profile then
          some "verify.profile must be a short lowercase profile id"
        else if !isKnownVerifierProfile profile then
          some ("verify.profile is not an advertised profile: " ++ profile)
        else none
      | some _ => some "verify.profile must be a short lowercase profile id"

def stepFields : List String :=
  ["id", "type", "agent_role", "prompt_template", "output_schema", "permission_mode",
   "workspace_key_template", "workspace_write", "context_binding", "pause_before", "label",
   "description", "verify"]

/-- The issues of one step apart from its id. -/
def stepBodyIssues (roles schemas : List String)
    (defs : List (String × List (String × FieldDef))) (p : String) (step : Json) : Issues :=
  errIf (step.get? "type" != some (.str "agent_task")) "unsupported_step_type"
    "v1 supports only type \"agent_task\"" (p ++ "/type")
  ++ errIf (!strOk (fun r => roles.contains r) (step.get? "agent_role")) "unknown_agent_role"
      ("step.agent_role does not reference a defined role: " ++ jsString (step.get? "agent_role"))
      (p ++ "/agent_role")
  ++ errIf (!strOk (fun s => schemas.contains s) (step.get? "output_schema"))
      "unknown_output_schema"
      ("step.output_schema does not reference a defined schema: "
        ++ jsString (step.get? "output_schema")) (p ++ "/output_schema")
  ++ optionalField (isOneOf ["default", "unsafe-skip"]) "bad_permission_mode"
      "permission_mode must be \"default\" or \"unsafe-skip\"" step "permission_mode" p
  ++ errIf (!strOk (fun _ => true) (step.get? "prompt_template")) "bad_prompt_template"
      "prompt_template must be a string" (p ++ "/prompt_template")
  ++ optionalField Json.isStr "bad_workspace_key_template"
      "workspace_key_template must be a string" step "workspace_key_template" p
  ++ optionalField Json.isBool "bad_workspace_write" "workspace_write must be a boolean" step
      "workspace_write" p
  ++ errIf (flag step "workspace_write" && (step.get? "workspace_key_template").isNone)
      "workspace_write_requires_workspace"
      "a step with workspace_write must declare workspace_key_template (writes are scoped to the leased workspace)"
      (p ++ "/workspace_write")
  ++ (match step.get? "verify" with
      | none => []
      | some v =>
        (match validateTaskVerifyConfig v with
          | some message => err "bad_verify" ("verify is invalid: " ++ message) (p ++ "/verify")
          | none => [])
        ++ errIf (step.get? "workspace_key_template").isNone "verify_requires_workspace"
          "a step with verify must declare workspace_key_template (the verifier runs in the leased workspace)"
          (p ++ "/verify"))
  ++ (match step.get? "context_binding" with
      | none => []
      | some b =>
        match b.str?.bind ContextGroup.ofName with
        | none => err "bad_context_binding"
            ("context_binding must be one of: " ++ ", ".intercalate contextGroups)
            (p ++ "/context_binding")
        | some group =>
          match strField? step "output_schema" with
          | some schema => checkContextBindingCompat group (lookup defs schema)
              (p ++ "/context_binding")
          | none => [])
  ++ optionalField Json.isStr "bad_field_type" "step.label must be a string" step "label" p
  ++ optionalField Json.isStr "bad_field_type" "step.description must be a string" step
      "description" p
  ++ (match step.get? "pause_before" with
      | none => []
      | some gate => validatePauseGate (p ++ "/pause_before") gate)
  ++ unknownFields stepFields "step_unknown_field" "unknown step field: " p step

/-- The safe id of a step, when it has one. -/
def stepIdOf (step : Json) : Option String :=
  if step.isObj then
    match strField? step "id" with
    | some id => if isSafeName id then some id else none
    | none => none
  else none

/-- The issues of the steps in order; `seen` holds the safe ids met so far. -/
def stepIssues (roles schemas : List String) (defs : List (String × List (String × FieldDef))) :
    Nat → List String → List Json → Issues
  | _, _, [] => []
  | i, seen, step :: rest =>
    let p := "/steps/" ++ toString i
    if !step.isObj then
      err "bad_step" "step must be an object" p ++ stepIssues roles schemas defs (i + 1) seen rest
    else
      match stepIdOf step with
      | none =>
        err "bad_step_id" "step.id must be a safe identifier" (p ++ "/id")
          ++ stepBodyIssues roles schemas defs p step
          ++ stepIssues roles schemas defs (i + 1) seen rest
      | some id =>
        errIf (seen.contains id) "duplicate_step_id" ("duplicate step id: " ++ id) (p ++ "/id")
          ++ stepBodyIssues roles schemas defs p step
          ++ stepIssues roles schemas defs (i + 1) (id :: seen) rest

def validateSteps (steps : Option Json) (roles schemas : List String)
    (defs : List (String × List (String × FieldDef))) : Issues :=
  match steps with
  | some (.arr (s :: ss)) => stepIssues roles schemas defs 0 [] (s :: ss)
  | _ => err "steps_missing" "steps must be a non-empty array" "/steps"

/-- `stepIds`, in order of first appearance. -/
def stepIds (steps : Option Json) : List String :=
  ((steps.getD .null).elems.filterMap stepIdOf).eraseDups

/-- `stepOutputSchema`: the schema each step names, for a declared one. -/
def stepOutputSchema (steps : Option Json) (schemas : List String) : List (String × String) :=
  (steps.getD .null).elems.filterMap (fun step =>
    match strField? step "id", strField? step "output_schema" with
    | some id, some schema => if schemas.contains schema then some (id, schema) else none
    | _, _ => none)

/-! ## Limits -/

def limitIssues (limits : Json) (key : String) : Issues :=
  let p := "/limits/" ++ key
  let max := (lookup limitMaxima key).getD 0
  match limits.get? key with
  | none => err "limit_missing" ("limits." ++ key ++ " is required") p
  | some v =>
    if !isPosInt v then
      err "limit_invalid" ("limits." ++ key ++ " must be a positive integer") p
    else errIf (decide (max < natOf v)) "limit_exceeds_max"
      ("limits." ++ key ++ " exceeds the maximum (" ++ toString max ++ ")") p

def requiredLimits : List String :=
  ["max_tasks", "max_runtime_seconds", "max_step_attempts", "max_failures"]

def validateLimits (limits : Option Json) (hasLoopEdge : Bool) : Issues :=
  match limits with
  | some (.obj kvs) =>
    let l := Json.obj kvs
    requiredLimits.flatMap (limitIssues l)
    ++ (if (l.get? "max_rounds").isSome then limitIssues l "max_rounds" else [])
    ++ errIf (hasLoopEdge && !(l.get? "max_rounds").any isPosInt) "loop_requires_max_rounds"
        "a workflow with loop edges must define a positive limits.max_rounds" "/limits/max_rounds"
    ++ (match l.get? "budget" with
        | none => []
        | some b =>
          if !b.isObj then
            err "bad_budget" "limits.budget must be an object (reserved; must be empty in v1)"
              "/limits/budget"
          else unknownFields [] "budget_unknown_field" "limits.budget must be empty in v1: "
            "/limits/budget" b)
    ++ unknownFields ("max_rounds" :: requiredLimits ++ ["budget"]) "limit_unknown_field"
        "unknown limits field: " "/limits" l
  | _ => err "limits_missing" "limits must be an object" "/limits"

/-! ## Edges -/

/-- An edge's source, when it names a declared step. -/
def edgeSource (ids : List String) (edge : Json) : Option String :=
  if edge.isObj then (strField? edge "from").filter (fun s => ids.contains s) else none

def isLoopEdge (edge : Json) : Bool := edge.isObj && strField? edge "kind" == some "loop"

/-- `hasLoopEdge`. -/
def hasLoopEdge (edges : Option Json) : Bool := (edges.getD .null).elems.any isLoopEdge

/-- Truthiness of an optional condition. -/
def isTruthy : Option Json → Bool
  | none => false
  | some .null => false
  | some (.bool b) => b
  | some (.num n) => decide (n.mantissa ≠ 0)
  | some (.str s) => decide (s ≠ "")
  | some _ => true

/-- The text two equivalent edges share. -/
def edgeKey (edge : Json) : String :=
  jsString (edge.get? "from") ++ "→" ++ jsString (edge.get? "to") ++ "|"
    ++ jsString (edge.get? "kind") ++ "|"
    ++ (if isTruthy (edge.get? "condition") then stringify ((edge.get? "condition").getD .null)
        else "∅")

/-- The condition checks an edge makes by itself. -/
def edgeConditionIssues (schemaOfStep : List (String × String))
    (fields : List (String × List String)) (p : String) (edge : Json) : Issues :=
  match edge.get? "condition" with
  | none => []
  | some cond =>
    let codes := checkConditionShape cond
    codes.flatMap (fun c => err c ("invalid edge condition (" ++ c ++ ")") (p ++ "/condition"))
    ++ (match codes, strField? edge "from", (strField? cond "path").bind parseConditionPath with
        | [], some source, some (.output key) =>
          match (lookup schemaOfStep source).bind (lookup fields) with
          | some flds => errIf (!flds.contains key) "condition_unknown_output_field"
              ("condition references unknown output field: output." ++ key) (p ++ "/condition")
          | none => []
        | _, _, _ => [])

/-- The issues of one edge object. -/
def edgeIssues (ids : List String) (schemaOfStep : List (String × String))
    (fields : List (String × List String)) (p : String) (edge : Json) : Issues :=
  errIf (!strOk (fun s => ids.contains s) (edge.get? "from")) "edge_bad_source"
    ("edge.from must reference a step id: " ++ jsString (edge.get? "from")) (p ++ "/from")
  ++ errIf (!strOk (fun t => isTerminalTarget t || ids.contains t) (edge.get? "to"))
      "edge_bad_target"
      ("edge.to must be a step id or a reserved terminal (" ++ ", ".intercalate terminalTargets
        ++ "): " ++ jsString (edge.get? "to")) (p ++ "/to")
  ++ errIf (!strOk (fun k => ["normal", "loop"].contains k) (edge.get? "kind")) "edge_bad_kind"
      "edge.kind must be \"normal\" or \"loop\"" (p ++ "/kind")
  ++ unknownFields ["from", "to", "condition", "kind"] "edge_unknown_field"
      "unknown edge field: " p edge
  ++ edgeConditionIssues schemaOfStep fields p edge

/-- The issues of the edges in order; `seen` holds the keys met so far. -/
def edgeListIssues (ids : List String) (schemaOfStep : List (String × String))
    (fields : List (String × List String)) : Nat → List String → List Json → Issues
  | _, _, [] => []
  | i, seen, edge :: rest =>
    let p := "/edges/" ++ toString i
    if !edge.isObj then
      err "bad_edge" "edge must be an object" p
        ++ edgeListIssues ids schemaOfStep fields (i + 1) seen rest
    else
      edgeIssues ids schemaOfStep fields p edge
        ++ errIf (seen.contains (edgeKey edge)) "duplicate_edge" "duplicate equivalent edge" p
        ++ edgeListIssues ids schemaOfStep fields (i + 1) (edgeKey edge :: seen) rest

def validateEdges (edges : Option Json) (ids : List String) (schemaOfStep : List (String × String))
    (fields : List (String × List String)) : Issues :=
  match edges with
  | some (.arr es) => edgeListIssues ids schemaOfStep fields 0 [] es
  | _ => err "edges_missing" "edges must be an array" "/edges"

/-- The step-to-step edges the graph checks see; `loops` keeps the loop edges. -/
def stepEdges (loops : Bool) (edges : Option Json) (ids : List String) : List (String × String) :=
  (edges.getD .null).elems.filterMap (fun edge =>
    match edgeSource ids edge, strField? edge "to" with
    | some source, some target =>
      if ids.contains target && (loops || !isLoopEdge edge) then some (source, target) else none
    | _, _ => none)

/-- `normalAdj`: loop edges removed. -/
def normalAdj (edges : Option Json) (ids : List String) : List (String × String) :=
  stepEdges false edges ids

/-- `allAdj`. -/
def allAdj (edges : Option Json) (ids : List String) : List (String × String) :=
  stepEdges true edges ids

/-- `anyTerminalEdge`. -/
def anyTerminalEdge (edges : Option Json) (ids : List String) : Bool :=
  (edges.getD .null).elems.any (fun edge =>
    (edgeSource ids edge).isSome && (strField? edge "to").any isTerminalTarget)

/-- An outgoing edge as the routing checks see it. -/
structure OutEdge where
  condition : Option Json
  idx : Nat

/-- `outgoing.get(source)`: the step's edges with their positions. -/
def outgoingFrom (ids : List String) (source : String) : Nat → List Json → List OutEdge
  | _, [] => []
  | i, edge :: rest =>
    if edgeSource ids edge = some source then
      ⟨edge.get? "condition", i⟩ :: outgoingFrom ids source (i + 1) rest
    else outgoingFrom ids source (i + 1) rest

/-- The keys of `outgoing`, in order of first appearance. -/
def outgoingSources (edges : Option Json) (ids : List String) : List String :=
  ((edges.getD .null).elems.filterMap (edgeSource ids)).eraseDups

/-! ## Graph checks -/

/-- The steps a search over all edges marks.  A step is pushed once, so the number of steps
    bounds the search. -/
def reachableSteps (edges : Option Json) (ids : List String) (entry : String) : List String :=
  reachableFrom (allAdj edges ids) (ids.length + 1) entry

def analyzeGraph (edges : Option Json) (ids : List String) (entry : Option String) : Issues :=
  errIf (!anyTerminalEdge edges ids && edges.any Json.isArr) "no_terminal_reachable"
    "no edge routes to a terminal target ($complete/$failed/$blocked)" "/edges"
  ++ (match entry with
      | none => []
      | some e => ids.flatMap (fun s => errIf (!(reachableSteps edges ids e).contains s)
          "unreachable_step" ("step \"" ++ s ++ "\" is not reachable from entry_step") "/steps"))
  ++ (match findCycle ids (normalAdj edges ids) with
      | some cycle => err "unmarked_cycle"
          ("cycle among non-loop edges (mark an intentional back-edge kind:\"loop\"): "
            ++ " → ".intercalate cycle) "/edges"
      | none => [])

/-- `doms.get(step)`, over the loop-removed graph of the marked steps. -/
def dominatorsOf (edges : Option Json) (ids : List String) (entry : String) : String → List String :=
  computeDominators entry (reachableSteps edges ids entry) (normalAdj edges ids)

/-! ## Template references -/

/-- What the template checks know of the spec. -/
structure TemplateScope where
  inputTypes : List (String × WorkflowInputType)
  stepIds : List String
  schemaOfStep : List (String × String)
  schemaFields : List (String × List String)
  reachable : List String
  doms : String → List String

/-- Is a step of the graph guaranteed to have run before the current one? -/
def availabilityIssues (sc : TemplateScope) (path : String) (currentStep : Option String)
    (step : String) : Issues :=
  match currentStep with
  | none => []
  | some cur =>
    -- an empty id is falsy, so the availability check is skipped for it
    if cur ≠ "" ∧ sc.reachable.contains cur then
      if step = cur then
        err "template_self_reference" ("a step may not reference its own output: " ++ step) path
      else errIf (!(sc.doms cur).contains step) "template_step_not_guaranteed"
        ("step \"" ++ step ++ "\" is not guaranteed to run before \"" ++ cur
          ++ "\" (not a dominator); use context.* for cross-round handoffs") path
    else []

def checkPromptRef (sc : TemplateScope) (path : String) (currentStep : Option String)
    (hasInputPause : Bool) (ref : TemplateRef) : Issues :=
  match ref.kind with
  | .pause => errIf (!hasInputPause) "template_pause_without_input_gate"
      "pause.response requires this step to declare pause_before.kind = \"input\"" path
  | .input name => errIf (!(sc.inputTypes.map Prod.fst).contains name) "template_unknown_input"
      ("template references unknown input: " ++ name) path
  | .context group field => errIf (!group.fields.contains field) "template_unknown_context_field"
      ("unknown context field: context." ++ group.name ++ "." ++ field) path
  | .round => []
  | .stepOutput step field =>
    if !sc.stepIds.contains step then
      err "template_unknown_step" ("template references unknown step: " ++ step) path
    else
      (match (lookup sc.schemaOfStep step).bind (lookup sc.schemaFields) with
        | some flds => errIf (!flds.contains field) "template_unknown_output_field"
            ("template references unknown output field: " ++ step ++ ".output." ++ field) path
        | none => [])
      ++ availabilityIssues sc path currentStep step

def templateErrorIssues (path : String) (errors : List String) : Issues :=
  errors.flatMap (fun code => err code ("invalid template reference (" ++ code ++ ")") path)

def validateWorkspaceKey (types : List (String × WorkflowInputType)) (path wk : String) : Issues :=
  if !hasOpenPair wk.toList then
    errIf (!isOpaqueId wk) "bad_workspace_key"
      "workspace_key_template must be a safe opaque key or exactly one \x7b\x7b inputs.<name> \x7d\x7d reference"
      path
  else
    templateErrorIssues path (parseTemplateReferences wk).errors
    ++ (match singleInputRef wk with
        | none => err "workspace_key_bad_reference"
            "workspace_key_template must be exactly one \x7b\x7b inputs.<name> \x7d\x7d reference (no other text)"
            path
        | some name =>
          match lookup types name with
          | none => err "template_unknown_input"
              ("workspace_key_template references unknown input: " ++ name) path
          | some t => errIf (t ≠ .string) "workspace_key_input_not_string"
              ("workspace_key input \"" ++ name ++ "\" must be type string") path)

/-- The template issues of one step. -/
def stepTemplateIssues (sc : TemplateScope) (p : String) (step : Json) : Issues :=
  let hasInputPause := ((step.get? "pause_before").bind (fun g => strField? g "kind")) == some "input"
  (match strField? step "prompt_template" with
    | none => []
    | some template =>
      let parsed := parseTemplateReferences template
      templateErrorIssues (p ++ "/prompt_template") parsed.errors
      ++ parsed.refs.flatMap
          (checkPromptRef sc (p ++ "/prompt_template") (strField? step "id") hasInputPause))
  ++ (match strField? step "workspace_key_template" with
      | none => []
      | some wk => validateWorkspaceKey sc.inputTypes (p ++ "/workspace_key_template") wk)

def templateIssues (sc : TemplateScope) : Nat → List Json → Issues
  | _, [] => []
  | i, step :: rest =>
    stepTemplateIssues sc ("/steps/" ++ toString i) step ++ templateIssues sc (i + 1) rest

def validateTemplates (steps : Option Json) (sc : TemplateScope) : Issues :=
  templateIssues sc 0 (steps.getD .null).elems

/-! ## Deterministic and exhaustive routing -/

/-- What a condition selects on. -/
inductive Selector where
  | round
  | field (name : String) (fdef : Option FieldDef)
  | unknown

def selectorOf (schemaOfStep : List (String × String))
    (defs : List (String × List (String × FieldDef))) (source : String) (cond : Json) : Selector :=
  match (strField? cond "path").bind parseConditionPath with
  | none => .unknown
  | some .round => .round
  | some (.output key) =>
    .field key (((lookup schemaOfStep source).bind (lookup defs)).bind (fun ds => lookup ds key))

/-- The operand list of a condition: the array of `in`, the one value of anything else.  An
    absent operand is `none`. -/
def operands (cond : Json) : List (Option Json) :=
  if strField? cond "op" = some "in" then ((cond.get? "value").getD .null).elems.map some
  else [cond.get? "value"]

/-- Is a literal of the type of the field it is compared with? -/
def matchesField (v : Json) (fdef : Option FieldDef) : Bool :=
  match fdef with
  | none => true
  | some d =>
    match d.type with
    | .string => v.isStr
    | .number => match v with | .num _ => true | _ => false
    | .boolean => v.isBool
    | .enum => v.isStr && (d.enum.getD []).any (fun w => Json.strictEq w v)
    | .stringArray => false

def isNumber : Json → Bool
  | .num _ => true
  | _ => false

/-- The issue of one operand against a selected field. -/
def operandIssue (fdef : Option FieldDef) (v : Option Json) : List String :=
  if !v.any Json.isScalar then ["condition_value_type_mismatch"]
  else if !v.any (fun w => matchesField w fdef) then
    [if fdef.any (fun d => d.type = .enum) then "condition_value_not_in_enum"
      else "condition_value_type_mismatch"]
  else []

def conditionValueTypeIssues (cond : Json) (sel : Selector) : List String :=
  if strField? cond "op" = some "exists" then []
  else match sel with
    | .round =>
      if (operands cond).all (fun v => v.any isNumber) then [] else ["condition_round_needs_number"]
    | .unknown => []
    | .field _ fdef =>
      if fdef.any (fun d => d.type = .stringArray) then ["condition_op_not_allowed_for_type"]
      else (operands cond).flatMap (operandIssue fdef)

/-- `Set` membership of a value that may be absent. -/
def sameValue : Option Json → Option Json → Bool
  | none, none => true
  | some a, some b => Json.strictEq a b
  | _, _ => false

/-- Is some value listed twice? -/
def hasOverlap : List (Option Json) → Bool
  | [] => false
  | v :: vs => vs.any (fun w => sameValue v w) || hasOverlap vs

/-- The conditions of a step's conditional edges. -/
def conditionsOf (edges : List OutEdge) : List Json := edges.filterMap OutEdge.condition

def fallbackCount (edges : List OutEdge) : Nat :=
  (edges.filter (fun e => e.condition.isNone)).length

/-- The per-edge value checks, for well-formed conditions. -/
def operandIssues (schemaOfStep : List (String × String))
    (defs : List (String × List (String × FieldDef))) (source : String) (edges : List OutEdge) :
    Issues :=
  edges.flatMap (fun e =>
    match e.condition with
    | none => []
    | some cond =>
      if checkConditionShape cond = [] then
        (conditionValueTypeIssues cond (selectorOf schemaOfStep defs source cond)).flatMap (fun c =>
          err c ("edge condition value is incompatible with the selected field (" ++ c ++ ")")
            ("/edges/" ++ toString e.idx ++ "/condition"))
      else [])

/-- The checks on two or more conditional edges.  `none` goes on to the exhaustiveness check;
    `some` stops there. -/
def branchIssues (source : String) (conds : List Json) : Option Issues × Issues :=
  let paths := conds.map (fun c => (strField? c "path").getD "?")
  let ops := conds.map (fun c => strField? c "op")
  if conds.length < 2 then (none, [])
  else if paths.eraseDups.length ≠ 1 ∨ paths.contains "?" then
    (some (err "routing_mixed_selectors"
      ("step \"" ++ source ++ "\" branches on multiple/ambiguous selectors; multi-branch routing must share one selector path")
      "/edges"), [])
  else if !ops.all (fun o => o == some "eq" || o == some "in") then
    (some (err "routing_not_provably_disjoint"
      ("step \"" ++ source ++ "\" multi-branch conditions must use only eq/in (neq/exists cannot be proven disjoint)")
      "/edges"), [])
  else (none, errIf (hasOverlap (conds.flatMap operands)) "routing_overlapping_values"
    ("step \"" ++ source ++ "\" has overlapping eq/in condition values across branches") "/edges")

def selectsField (sel : Selector) (field : String) : Bool :=
  match sel with
  | .field name _ => name == field
  | _ => false

/-- The values the conditions route. -/
def coveredValues (conds : List Json) : List Json :=
  conds.flatMap (fun c =>
    if strField? c "op" = some "eq" then (c.get? "value").toList
    else if strField? c "op" = some "in" then ((c.get? "value").getD .null).elems
    else [])

/-- A required enum selector must be fully routed when there is no fallback. -/
def enumIssues (schemaOfStep : List (String × String))
    (defs : List (String × List (String × FieldDef))) (source : String) (fallbacks : Nat)
    (conds : List Json) : Issues :=
  match conds with
  | [] => []
  | c :: _ =>
    match selectorOf schemaOfStep defs source c with
    | .field field (some d) =>
      if conds.all (fun c' => selectsField (selectorOf schemaOfStep defs source c') field)
          && decide (d.type = .enum) && d.required && decide (fallbacks = 0) then
        (d.enum.getD []).flatMap (fun v =>
          errIf (!(coveredValues conds).any (fun w => Json.strictEq v w)) "enum_outcome_unrouted"
            ("step \"" ++ source ++ "\" leaves enum outcome \"" ++ jsString (some v)
              ++ "\" of \"" ++ field ++ "\" unrouted") "/edges")
      else []
    | _ => []

/-- The routing issues of one step's outgoing edges. -/
def routingIssues (schemaOfStep : List (String × String))
    (defs : List (String × List (String × FieldDef))) (source : String) (edges : List OutEdge) :
    Issues :=
  errIf (decide (2 ≤ fallbackCount edges)) "ambiguous_unconditional_edges"
    ("step \"" ++ source ++ "\" has " ++ toString (fallbackCount edges)
      ++ " unconditional outgoing edges") "/edges"
  ++ operandIssues schemaOfStep defs source edges
  ++ (match branchIssues source (conditionsOf edges) with
      | (some stop, _) => stop
      | (none, overlap) =>
        overlap ++ enumIssues schemaOfStep defs source (fallbackCount edges) (conditionsOf edges))

def validateRouting (edges : Option Json) (ids : List String)
    (schemaOfStep : List (String × String)) (defs : List (String × List (String × FieldDef))) :
    Issues :=
  (outgoingSources edges ids).flatMap (fun source =>
    routingIssues schemaOfStep defs source (outgoingFrom ids source 0 (edges.getD .null).elems))

/-! ## The validator -/

structure ValidationResult where
  valid : Bool
  issues : Issues
deriving DecidableEq

/-- The step ids of a spec. -/
def specStepIds (spec : Json) : List String := stepIds (spec.get? "steps")

/-- The schema each step of a spec names. -/
def specStepSchema (spec : Json) : List (String × String) :=
  stepOutputSchema (spec.get? "steps") (schemaNames (spec.get? "output_schemas"))

/-- The entry step, when it is a declared one. -/
def specEntry (spec : Json) : Option String :=
  (strField? spec "entry_step").filter (fun e => (specStepIds spec).contains e)

/-- The scope the template checks of a spec run in. -/
def specTemplateScope (spec : Json) : TemplateScope where
  inputTypes := inputTypes (spec.get? "inputs")
  stepIds := specStepIds spec
  schemaOfStep := specStepSchema spec
  schemaFields := schemaFields (spec.get? "output_schemas")
  reachable := match specEntry spec with
    | some e => reachableSteps (spec.get? "edges") (specStepIds spec) e
    | none => []
  doms := match specEntry spec with
    | some e => dominatorsOf (spec.get? "edges") (specStepIds spec) e
    | none => fun _ => []

/-- The issues of a spec object. -/
def specIssues (spec : Json) : Issues :=
  let ids := specStepIds spec
  let edges := spec.get? "edges"
  let defs := schemaFieldDefs (spec.get? "output_schemas")
  scanSecretFields "" spec
  ++ unknownFields knownSpecFields "unknown_top_level_field" "unknown top-level field: " "" spec
  ++ errIf (spec.get? "version" != some (.str "1")) "unsupported_version"
      "unsupported workflow version (expected \"1\")" "/version"
  ++ errIf (!strOk isSafeName (spec.get? "name")) "bad_workflow_name"
      "name must be a safe identifier ^[a-z0-9][a-z0-9_-]\x7b0,63\x7d$" "/name"
  ++ optionalField Json.isStr "bad_field_type" "description must be a string" spec "description" ""
  ++ validateAgents (spec.get? "agents")
  ++ validateInputs (spec.get? "inputs")
  ++ validateOutputSchemas (spec.get? "output_schemas")
  ++ validateSteps (spec.get? "steps") (agentRoles (spec.get? "agents"))
      (schemaNames (spec.get? "output_schemas")) defs
  ++ errIf (!strOk (fun e => ids.contains e) (spec.get? "entry_step")) "unknown_entry_step"
      "entry_step must reference an existing step id" "/entry_step"
  ++ validateLimits (spec.get? "limits") (hasLoopEdge edges)
  ++ (match spec.get? "completion_policy" with
      | some cp => validateCompletionPolicy cp
      | none => [])
  ++ (match spec.get? "stall_policy" with
      | some sp => validateStallPolicy (hasLoopEdge edges) sp
      | none => [])
  ++ validateEdges edges ids (specStepSchema spec) (schemaFields (spec.get? "output_schemas"))
  ++ analyzeGraph edges ids (specEntry spec)
  ++ validateTemplates (spec.get? "steps") (specTemplateScope spec)
  ++ validateRouting edges ids (specStepSchema spec) defs

/-- The gate every spec passes. -/
def validateWorkflowSpec (input : Json) : ValidationResult :=
  let issues := if !input.isObj then
      [⟨"not_an_object", "workflow spec must be a JSON object", none⟩]
    else specIssues input
  { valid := issues.isEmpty, issues := issues }

end VibeValidator
