import VibeWorkflow.RoutingProofs

/-!
# Template references and rendering

`parseTemplateReferences` finds the double-brace references of a prompt template, for the
validator and for the renderer alike; `renderPrompt` and `renderWorkspaceKey` are the two
renderings the runtime makes before it creates a task.
-/

namespace VibeTemplate

open VibeJson VibeContract VibeRouting

/-! ## Scanning for references -/

def openBrace : Char := '\x7b'
def closeBrace : Char := '\x7d'

/-- How often a doubled character occurs, counted left to right without overlap. -/
def countPairs (d : Char) : List Char → Nat
  | [] => 0
  | [_] => 0
  | c :: c' :: rest =>
    if c = d ∧ c' = d then countPairs d rest + 1 else countPairs d (c' :: rest)

/-- The texts between an opening pair and the next closing pair.  `none` is outside a
    reference; `some acc` is inside one, with the text read so far in reverse. -/
def scanRefs : Option (List Char) → List Char → List (List Char)
  | _, [] => []
  | _, [_] => []
  | none, c :: c' :: rest =>
    if c = openBrace ∧ c' = openBrace then scanRefs (some []) rest
    else scanRefs none (c' :: rest)
  | some acc, c :: c' :: rest =>
    if c = closeBrace ∧ c' = closeBrace then acc.reverse :: scanRefs none rest
    else scanRefs (some (c :: acc)) (c' :: rest)

/-- `String.prototype.split('.')`. -/
def splitDots : List Char → List (List Char)
  | [] => [[]]
  | c :: cs =>
    match splitDots cs with
    | [] => [[c]]
    | part :: parts => if c = '.' then [] :: part :: parts else (c :: part) :: parts

/-- `^[a-z0-9][a-z0-9_-]*$` on characters: a step id inside a reference. -/
def isStepRefName : List Char → Bool
  | [] => false
  | c :: cs => isLowerAlnum c && cs.all (fun d => isLowerAlnum d || d == '_' || d == '-')

inductive RefKind where
  | input (name : String)
  | stepOutput (step field : String)
  | round
  | context (group : ContextGroup) (field : String)
  | pause
deriving DecidableEq, Repr

/-- A reference and the exact text it stands for, braces included. -/
structure TemplateRef where
  kind : RefKind
  raw : String
deriving DecidableEq, Repr

structure TemplateParse where
  refs : List TemplateRef
  errors : List String
deriving DecidableEq, Repr

def knownTemplateNamespaces : List String := ["inputs", "steps", "workflow", "context", "pause"]

/-- What the trimmed text of one reference names.  None of the accepted forms has a dot
    inside a component, so the components decide. -/
def refKindOf (inner : List Char) : Except String RefKind :=
  let parts := splitDots inner
  let ns := (parts.map String.ofList).headD ""
  let bad : Except String RefKind :=
    .error (if knownTemplateNamespaces.contains ns then "template_bad_reference"
      else "template_unsupported_namespace")
  match parts with
  | [a, b] =>
    if a = "inputs".toList ∧ isFieldName b then .ok (.input (String.ofList b))
    else if a = "workflow".toList ∧ b = "round".toList then .ok .round
    else if a = "pause".toList ∧ b = "response".toList then .ok .pause
    else bad
  | [a, g, f] =>
    match ContextGroup.ofName (String.ofList g) with
    | some group =>
      if a = "context".toList ∧ isFieldName f then .ok (.context group (String.ofList f))
      else bad
    | none => bad
  | [a, s, o, f] =>
    if a = "steps".toList ∧ isStepRefName s ∧ o = "output".toList ∧ isFieldName f then
      .ok (.stepOutput (String.ofList s) (String.ofList f))
    else bad
  | _ => bad

def rawOf (inner : List Char) : String :=
  String.ofList (openBrace :: openBrace :: (inner ++ [closeBrace, closeBrace]))

/-- One scanned reference: the parsed reference or its error code. -/
def parseRef (inner : List Char) : Except String TemplateRef :=
  let body := trimChars inner
  if body = [] then .error "template_malformed"
  else match refKindOf body with
    | .ok kind => .ok ⟨kind, rawOf inner⟩
    | .error code => .error code

/-- Parse the references of a text.  Surrounding text is ignored; nothing is evaluated. -/
def parseTemplateReferences (text : String) : TemplateParse :=
  let cs := text.toList
  let found := (scanRefs none cs).map parseRef
  { refs := found.filterMap (fun r => r.toOption)
    errors :=
      (if countPairs openBrace cs ≠ countPairs closeBrace cs then ["template_malformed"] else [])
      ++ found.filterMap (fun r => match r with | .error code => some code | .ok _ => none) }

/-! ## Property reads that may reach a prototype -/

/-- What a bracket read on a plain object gives.  A name the object lacks may still be found
    on `Object.prototype`, as a function or as that object itself. -/
inductive JsRead where
  | undefined
  | value (v : Json)
  | builtinFunction
  | builtinObject
deriving DecidableEq

/-- The function-valued names of `Object.prototype`. -/
def prototypeFunctions : List String :=
  ["constructor", "__defineGetter__", "__defineSetter__", "hasOwnProperty", "__lookupGetter__",
   "__lookupSetter__", "isPrototypeOf", "propertyIsEnumerable", "toString", "valueOf",
   "toLocaleString"]

/-- `obj[name]` for a name the object does not have. -/
def readPrototype (name : String) : JsRead :=
  if name = "__proto__" then .builtinObject
  else if prototypeFunctions.contains name then .builtinFunction
  else .undefined

/-- `obj[name]` on a plain object. -/
def readProp (props : List (String × Json)) (name : String) : JsRead :=
  match lookup props name with
  | some v => .value v
  | none => readPrototype name

/-- `fn[name]` on the one built-in function a safe name can reach, the `Object` constructor:
    its own data properties, and otherwise a function or nothing. -/
def readFunctionProp (name : String) : JsRead :=
  if name = "name" then .value (.str "Object")
  else if name = "length" then .value (.num (.ofInt 1))
  else if name = "prototype" then .builtinObject
  else if name = "__proto__" then .builtinFunction
  else if prototypeFunctions.contains name then .builtinFunction
  else if ["assign", "getOwnPropertyDescriptor", "getOwnPropertyDescriptors",
      "getOwnPropertyNames", "getOwnPropertySymbols", "hasOwn", "is", "preventExtensions",
      "seal", "create", "defineProperties", "defineProperty", "freeze", "getPrototypeOf",
      "setPrototypeOf", "isExtensible", "isFrozen", "isSealed", "keys", "entries",
      "fromEntries", "values", "groupBy", "apply", "bind", "call"].contains name then
    .builtinFunction
  else .undefined

/-! ## Rendering -/

structure RenderScope where
  inputs : List (String × Json)
  stepOutputs : List (String × Json)
  round : Nat
  context : ContextGroup → Option Json
  pauseResponse : Option String

/-- Strings as text, numbers and booleans through `String()`, everything else as JSON. -/
def renderValue : Json → String
  | .str s => s
  | .num n => n.toText
  | .bool b => if b then "true" else "false"
  | .null => ""
  | v => stringify v

/-- The text a read is joined in as.  A function has no JSON text, and joining with no
    separator puts a comma. -/
def renderRead : JsRead → String
  | .undefined => ""
  | .value v => renderValue v
  | .builtinFunction => ","
  | .builtinObject => "\x7b\x7d"

/-- Resolve one reference: the value read, and whether an absent one is an error. -/
def resolveRef (kind : RefKind) (scope : RenderScope) : JsRead × Bool :=
  match kind with
  | .input name => (readProp scope.inputs name, true)
  | .round => (.value (.num (.ofInt scope.round)), true)
  | .stepOutput step field =>
    match readProp scope.stepOutputs step with
    | .undefined => (.undefined, true)
    | .value out => (readProp out.fields field, false)
    | .builtinFunction => (readFunctionProp field, false)
    | .builtinObject => (readPrototype field, false)
  | .context group field =>
    match scope.context group with
    | some g => (readProp g.fields field, false)
    | none => (.undefined, false)
  | .pause =>
    match scope.pauseResponse with
    | some s => (.value (.str s), true)
    | none => (.undefined, true)

/-- `out.split(raw).join(text)`: every occurrence, left to right.  The counter skips the rest
    of an occurrence just replaced. -/
def replaceAll (raw text : List Char) : Nat → List Char → List Char
  | _, [] => []
  | k + 1, _ :: cs => replaceAll raw text k cs
  | 0, c :: cs =>
    if raw.isPrefixOf (c :: cs) then text ++ replaceAll raw text (raw.length - 1) cs
    else c :: replaceAll raw text 0 cs

inductive RenderCode where
  | missingValue | tooLarge | badReference
deriving DecidableEq, Repr

def RenderCode.name : RenderCode → String
  | .missingValue => "render_missing_value"
  | .tooLarge => "render_too_large"
  | .badReference => "render_bad_reference"

structure RenderError where
  code : RenderCode
  message : String
deriving DecidableEq

/-- Substitute the references one after the other into the text built so far. -/
def substitute (scope : RenderScope) : List TemplateRef → List Char → Except RenderError (List Char)
  | [], out => .ok out
  | ref :: refs, out =>
    let r := resolveRef ref.kind scope
    if r.1 = .undefined ∧ r.2 then
      .error ⟨.missingValue, "missing required runtime value for " ++ ref.raw⟩
    else substitute scope refs (replaceAll ref.raw.toList (renderRead r.1).toList 0 out)

theorem substitute_missing_code {scope : RenderScope} {refs : List TemplateRef} {out : List Char} {e : RenderError}
    (h : substitute scope refs out = .error e) : e.code = .missingValue := by
  induction refs generalizing out with
  | nil => exact nomatch h
  | cons ref refs ih =>
    rw [substitute] at h
    split at h
    · rw [← Except.error.inj h]
    · exact ih h

def maxRenderedPromptBytes : Nat := 64 * 1024

def renderPrompt (template : String) (scope : RenderScope) : Except RenderError String :=
  let parsed := parseTemplateReferences template
  match parsed.errors with
  | code :: _ => .error ⟨.badReference, "template has unsupported references (" ++ code ++ ")"⟩
  | [] =>
    match substitute scope parsed.refs template.toList with
    | .error e => .error e
    | .ok out =>
      let text := String.ofList out
      if byteLen text > maxRenderedPromptBytes then
        .error ⟨.tooLarge, "rendered prompt exceeds the size limit"⟩
      else .ok text

/-- Does a text hold an opening pair? -/
def hasOpenPair (cs : List Char) : Bool := countPairs openBrace cs != 0

/-- The one input a workspace-key template names, if it is exactly that reference. -/
def singleInputRef (template : String) : Option String :=
  match (parseTemplateReferences template).refs with
  | [⟨.input name, raw⟩] => if trim template = raw then some name else none
  | _ => none

/-- A safe literal key, or exactly one input reference; `ok none` is no explicit key. -/
def renderWorkspaceKey (template : Option String) (scope : RenderScope) :
    Except RenderError (Option String) :=
  match template with
  | none => .ok none
  | some t =>
    if !hasOpenPair t.toList then
      if isOpaqueId t then .ok (some t)
      else .error ⟨.badReference, "workspace_key literal is not a safe opaque key"⟩
    else
      let single := if (parseTemplateReferences t).errors = [] then singleInputRef t else none
      match single with
      | none => .error ⟨.badReference,
          "workspace_key_template must be exactly one \x7b\x7b inputs.<name> \x7d\x7d reference"⟩
      | some name =>
        match readProp scope.inputs name with
        | .undefined => .ok none
        | .value (.str v) =>
          if v = "" then .ok none
          else if isOpaqueId v then .ok (some v)
          else .error ⟨.badReference, "workspace_key input value is not a safe opaque key"⟩
        | _ => .error ⟨.badReference, "workspace_key input value is not a safe opaque key"⟩

example : parseTemplateReferences "do \x7b\x7b steps.plan.output.goal \x7d\x7d now"
    = ⟨[⟨.stepOutput "plan" "goal", "\x7b\x7b steps.plan.output.goal \x7d\x7d"⟩], []⟩ := by
  decide +kernel

end VibeTemplate
