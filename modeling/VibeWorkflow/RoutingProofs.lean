import VibeWorkflow.ContractProofs

/-!
# Conditions, edge selection and output validation

The three pure functions a completed step goes through: `validateAgainstSchema` accepts the
agent's output, `evaluateCondition` reads it, and `selectEdge` picks the one outgoing edge.

* **`validateAgainstSchema_ok`** — what an accepted output has: no unknown field, every
  required field, every value of its declared type.
* **`selectEdge_ambiguous_iff`**, **`selectEdge_noEdge_iff`** — the two failures of
  `selectEdge`, in terms of how many conditional edges match and how many fallbacks exist.
-/

namespace VibeRouting

open VibeJson VibeContract

/-! ## Condition paths -/

/-- Strip a literal from the front of a text. -/
def dropLiteral : List Char → List Char → Option (List Char)
  | [], cs => some cs
  | _ :: _, [] => none
  | p :: ps, c :: cs => if p = c then dropLiteral ps cs else none

/-- `output.<field>` of the source step, or `workflow.round`. -/
inductive ConditionPath where
  | output (key : String)
  | round
deriving DecidableEq, Repr

def parseConditionPath (path : String) : Option ConditionPath :=
  match dropLiteral "output.".toList path.toList with
  | some rest =>
    if isFieldName rest then some (.output (String.ofList rest)) else none
  | none => if path = "workflow.round" then some .round else none

def conditionOps : List String := ["eq", "neq", "exists", "in"]

/-- The value part of the shape check, for a supported operator. -/
def conditionValueIssues (op : String) (value : Option Json) : List String :=
  if op = "exists" then
    if value.isSome then ["condition_exists_takes_no_value"] else []
  else if op = "in" then
    match value with
    | some (.arr xs) =>
      if xs ≠ [] ∧ xs.all Json.isScalar then [] else ["condition_in_needs_scalar_array"]
    | _ => ["condition_in_needs_scalar_array"]
  else
    match value with
    | some v => if v.isScalar then [] else ["condition_needs_scalar_value"]
    | none => ["condition_needs_scalar_value"]

/-- Stable issue codes for a condition's shape; none when it is well formed. -/
def checkConditionShape (cond : Json) : List String :=
  if !cond.isObj then ["condition_not_object"]
  else
    (if ((cond.get? "path").bind Json.str?).any (fun p => (parseConditionPath p).isSome) then []
      else ["condition_bad_path"])
    ++ (match (cond.get? "op").bind Json.str? with
        | some op =>
          if conditionOps.contains op then conditionValueIssues op (cond.get? "value")
          else ["condition_unsupported_op"]
        | none => ["condition_unsupported_op"])
    ++ cond.keys.flatMap (fun k =>
        if ["path", "op", "value"].contains k then [] else ["condition_unknown_field"])

/-! ## Evaluation -/

/-- The value a path reads; `none` when the output has no such field. -/
def resolveConditionValue (path : String) (output : Json) (round : Nat) : Option Json :=
  match parseConditionPath path with
  | none => none
  | some .round => some (.num (.ofInt round))
  | some (.output key) => output.get? key

/-- `found && value === cond.value`. -/
def matchesValue (found : Option Json) (value : Option Json) : Bool :=
  match found, value with
  | some v, some w => Json.strictEq v w
  | _, _ => false

/-- Evaluate a condition against the source step's output and the current round. -/
def evaluateCondition (cond : Condition) (output : Json) (round : Nat) : Bool :=
  let found := resolveConditionValue cond.path output round
  match cond.op with
  | .existsOp => match found with
      | some .null => false
      | some _ => true
      | none => false
  | .eqOp => matchesValue found cond.value
  | .neqOp => !matchesValue found cond.value
  | .inOp => match found, cond.value with
      | some v, some (.arr xs) => xs.any (fun w => Json.strictEq v w)
      | _, _ => false
  | .unsupported => false

/-! ## Edge selection -/

/-- `terminal` tells a reserved target from a step target. -/
structure RoutingDecision where
  terminal : Bool
  target : String
  edgeKind : EdgeKind
deriving DecidableEq

inductive RoutingCode where
  | noEdge | ambiguous
deriving DecidableEq, Repr

structure RoutingError where
  code : RoutingCode
  message : String
deriving DecidableEq

def outgoing (spec : WorkflowSpec) (fromStepId : String) : List WorkflowEdge :=
  spec.edges.filter (fun e => e.fromStep == fromStepId)

def matchedConditional (spec : WorkflowSpec) (fromStepId : String) (output : Json)
    (round : Nat) : List WorkflowEdge :=
  (outgoing spec fromStepId).filter
    (fun e => e.condition.any (fun c => evaluateCondition c output round))

def fallbacks (spec : WorkflowSpec) (fromStepId : String) : List WorkflowEdge :=
  (outgoing spec fromStepId).filter (fun e => e.condition.isNone)

def decisionOf (e : WorkflowEdge) : RoutingDecision :=
  { terminal := isTerminalTarget e.target, target := e.target, edgeKind := e.kind }

/-- Select the single outgoing edge: a matching conditional edge wins, an unconditional edge
    is a fallback only, and zero or several candidates are a structured failure. -/
def selectEdge (spec : WorkflowSpec) (fromStepId : String) (output : Json) (round : Nat) :
    Except RoutingError RoutingDecision :=
  match matchedConditional spec fromStepId output round, fallbacks spec fromStepId with
  | _ :: _ :: rest, _ =>
    .error ⟨.ambiguous, "step \"" ++ fromStepId ++ "\" matched " ++ toString (rest.length + 2)
      ++ " conditional edges"⟩
  | [e], _ => .ok (decisionOf e)
  | [], [e] => .ok (decisionOf e)
  | [], _ :: _ :: rest =>
    .error ⟨.ambiguous, "step \"" ++ fromStepId ++ "\" has " ++ toString (rest.length + 2)
      ++ " unconditional fallback edges"⟩
  | [], [] =>
    .error ⟨.noEdge, "step \"" ++ fromStepId ++ "\" has no matching outgoing edge"⟩

/-- The code of a routing failure. -/
def routingCode (r : Except RoutingError RoutingDecision) : Option RoutingCode :=
  match r with
  | .error e => some e.code
  | .ok _ => none

/-- Routing is ambiguous exactly when two conditions match, or none does and there are two
    fallbacks. -/
theorem selectEdge_ambiguous_iff (spec : WorkflowSpec) (s : String) (output : Json)
    (round : Nat) :
    routingCode (selectEdge spec s output round) = some .ambiguous ↔
      2 ≤ (matchedConditional spec s output round).length ∨
      (matchedConditional spec s output round = [] ∧ 2 ≤ (fallbacks spec s).length) := by
  unfold selectEdge
  split
  · rename_i hm; simp [routingCode, hm]
  · rename_i hm; simp [routingCode, hm]
  · rename_i hm hf; simp [routingCode, hm, hf]
  · rename_i hm hf; simp [routingCode, hm, hf]
  · rename_i hm hf; simp [routingCode, hm, hf]

/-- Routing finds no edge exactly when no condition matches and there is no fallback. -/
theorem selectEdge_noEdge_iff (spec : WorkflowSpec) (s : String) (output : Json)
    (round : Nat) :
    routingCode (selectEdge spec s output round) = some .noEdge ↔
      matchedConditional spec s output round = [] ∧ fallbacks spec s = [] := by
  unfold selectEdge
  split
  · rename_i hm; simp [routingCode, hm]
  · rename_i hm; simp [routingCode, hm]
  · rename_i hm hf; simp [routingCode, hm, hf]
  · rename_i hm hf; simp [routingCode, hm, hf]
  · rename_i hm hf; simp [routingCode, hm, hf]

/-- A selected edge is one of the step's declared edges. -/
theorem selectEdge_ok_mem {spec : WorkflowSpec} {s : String} {output : Json} {round : Nat}
    {d : RoutingDecision} (h : selectEdge spec s output round = .ok d) :
    ∃ e ∈ spec.edges, e.fromStep = s ∧ d = decisionOf e := by
  have hout : ∀ e ∈ outgoing spec s, e ∈ spec.edges ∧ e.fromStep = s := by
    intro e he
    obtain ⟨h1, h2⟩ := List.mem_filter.mp he
    exact ⟨h1, by simpa using h2⟩
  unfold selectEdge at h
  split at h
  · exact nomatch h
  · rename_i e hm
    have he : e ∈ matchedConditional spec s output round := by rw [hm]; exact List.mem_cons_self
    obtain ⟨h1, h2⟩ := hout e (List.mem_filter.mp he).1
    exact ⟨e, h1, h2, (Except.ok.inj h).symm⟩
  · rename_i e hm hf
    have he : e ∈ fallbacks spec s := by rw [hf]; exact List.mem_cons_self
    obtain ⟨h1, h2⟩ := hout e (List.mem_filter.mp he).1
    exact ⟨e, h1, h2, (Except.ok.inj h).symm⟩
  · exact nomatch h
  · exact nomatch h

/-! ## Output validation -/

def maxOutputStringLen : Nat := 16 * 1024
def maxOutputArrayLen : Nat := 512
def maxOutputSerializedBytes : Nat := 128 * 1024

structure SchemaError where
  code : String
  message : String
  field : Option String
deriving DecidableEq

/-- A JSON number is always finite, so `Number.isFinite` adds nothing here. -/
def matchesType (v : Json) (f : SchemaField) : Bool :=
  match f.type, v with
  | .string, .str _ => true
  | .number, .num _ => true
  | .boolean, .bool _ => true
  | .stringArray, .arr xs => xs.all Json.isStr
  | .enum, .str s => f.enum.contains s
  | _, _ => false

def SchemaFieldType.name : SchemaFieldType → String
  | .string => "string"
  | .number => "number"
  | .boolean => "boolean"
  | .stringArray => "string[]"
  | .enum => "enum"

/-- The per-value bounds on strings and arrays. -/
def valueBoundIssue (name : String) (type : SchemaFieldType) (v : Json) : Option SchemaError :=
  match type, v with
  | .string, .str s =>
    if byteLen s > maxOutputStringLen then
      some ⟨"output_string_too_long", "output field \"" ++ name ++ "\" exceeds the string size limit", some name⟩
    else none
  | .stringArray, .arr xs =>
    if xs.length > maxOutputArrayLen then
      some ⟨"output_array_too_long", "output field \"" ++ name ++ "\" exceeds the array length limit", some name⟩
    else if (strings v).any (fun s => byteLen s > maxOutputStringLen) then
      some ⟨"output_string_too_long", "an element of output field \"" ++ name ++ "\" exceeds the string size limit", some name⟩
    else none
  | _, _ => none

/-- The first issue of one declared field. -/
def fieldIssue (obj : Json) (entry : String × SchemaField) : Option SchemaError :=
  let (name, f) := entry
  match obj.get? name with
  | none =>
    if f.required then
      some ⟨"output_missing_required", "output is missing required field: " ++ name, some name⟩
    else none
  | some v =>
    if !matchesType v f then
      if f.type = .enum then
        some ⟨"output_enum_invalid",
          "output field \"" ++ name ++ "\" does not satisfy its declared enum", some name⟩
      else
        some ⟨"output_type_mismatch",
          "output field \"" ++ name ++ "\" does not satisfy its declared type "
            ++ SchemaFieldType.name f.type, some name⟩
    else valueBoundIssue name f.type v

/-- Validate a parsed output against its schema; the object itself on success. -/
def validateAgainstSchema (obj : Json) (schema : OutputSchema) : Except SchemaError Json :=
  match obj.keys.find? (fun k => !(schema.map Prod.fst).contains k) with
  | some k => .error ⟨"output_unknown_field", "output has an unknown field: " ++ k, some k⟩
  | none =>
    match schema.findSome? (fieldIssue obj) with
    | some e => .error e
    | none =>
      if byteLen (stringify obj) > maxOutputSerializedBytes then
        .error ⟨"output_too_large", "output exceeds the total serialized size limit", none⟩
      else .ok obj

/-- **What an accepted output guarantees.**  It is returned unchanged, carries no field the
    schema does not declare, fits the total bound, and every declared field is clean. -/
theorem validateAgainstSchema_ok {obj out : Json} {schema : OutputSchema}
    (h : validateAgainstSchema obj schema = .ok out) :
    out = obj ∧ (∀ k ∈ obj.keys, k ∈ schema.map Prod.fst) ∧
      (∀ entry ∈ schema, fieldIssue obj entry = none) ∧
      byteLen (stringify obj) ≤ maxOutputSerializedBytes := by
  unfold validateAgainstSchema at h
  split at h
  · exact nomatch h
  · rename_i hkeys
    split at h
    · exact nomatch h
    · rename_i hfields
      split at h
      · exact nomatch h
      · rename_i hsize
        refine ⟨(Except.ok.inj h).symm, ?_, ?_, Nat.le_of_not_lt hsize⟩
        · intro k hk
          have := List.find?_eq_none.mp hkeys k hk
          simpa using this
        · exact List.findSome?_eq_none_iff.mp hfields

/-- A required field of an accepted output is present. -/
theorem fieldIssue_none_present {obj : Json} {name : String} {f : SchemaField}
    (h : fieldIssue obj (name, f) = none) (hreq : f.required = true) :
    ∃ v, obj.get? name = some v := by
  cases hv : obj.get? name with
  | some v => exact ⟨v, rfl⟩
  | none => simp [fieldIssue, hv, hreq] at h

/-- A present field of an accepted output has its declared type. -/
theorem fieldIssue_none_type {obj : Json} {name : String} {f : SchemaField} {v : Json}
    (h : fieldIssue obj (name, f) = none) (hv : obj.get? name = some v) :
    matchesType v f = true := by
  by_cases hm : matchesType v f = true
  · exact hm
  · simp only [fieldIssue, hv, Bool.not_eq_true] at h hm
    rw [hm] at h
    by_cases he : f.type = .enum <;> simp [he] at h

end VibeRouting
