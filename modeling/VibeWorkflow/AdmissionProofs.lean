import VibeWorkflow.SerializationProofs
import VibeWorkflow.StaticRoutingProofs

/-!
# What is admitted and what can be stored

Admission (`validateWorkflowSpec`, `normalizeInputValues`, `validateAgainstSchema`) and storage
(`encodeJson`, `assertNoForbiddenFields`) bound the same data in different modules and units.
This file follows the durable writes of a workflow, from its creation through any sequence of
step outputs, pause requests, stall records and evidence records.

* **`durable_writes_accepted_iff`** — the store accepts a whole sequence of admitted writes
  exactly when none of the listed sizes is exceeded and no input has a name only the store
  reserves.  Everything else always fits: pause prompts, fingerprints, the first context, and
  every field name of the context bundle.
* **`reservedInput_rejected`** — an admitted input the store refuses.
-/

namespace VibeAdmission

open VibeJson VibeContract VibeRouting VibeValidator VibeStore

/-! ## Input values -/

structure InputError where
  message : String
  name : Option String
deriving DecidableEq

/-- Names an input value may not be given under. -/
def isSecretName (key : String) : Bool :=
  normalizeKey key == "pid".toList || holdsWord secretTokens (normalizeKey key)

def inputTypeName : WorkflowInputType → String
  | .string => "string"
  | .number => "number"
  | .boolean => "boolean"
  | .stringArray => "string[]"

/-- The first rejected name among the given values. -/
def givenIssue (defs : List (String × WorkflowInputDef)) (name : String) : Option InputError :=
  if isSecretName name then
    some ⟨"input value \"" ++ name ++ "\" uses a reserved credential-like name", some name⟩
  else if !(defs.map Prod.fst).contains name then
    some ⟨"unknown input name: " ++ name, some name⟩
  else none

/-- Give each declared input its value, its default, or nothing. -/
def fillInputs (given : List (String × Json)) :
    List (String × WorkflowInputDef) → Except InputError (List (String × Json))
  | [] => .ok []
  | (name, d) :: rest =>
    match lookup given name with
    | some v =>
      if matchesInputType v d.type then
        match fillInputs given rest with
        | .ok out => .ok ((name, v) :: out)
        | .error e => .error e
      else .error ⟨"input \"" ++ name ++ "\" does not match declared type "
        ++ inputTypeName d.type, some name⟩
    | none =>
      match d.default with
      | some v =>
        match fillInputs given rest with
        | .ok out => .ok ((name, v) :: out)
        | .error e => .error e
      | none =>
        if d.required then .error ⟨"missing required input: " ++ name, some name⟩
        else fillInputs given rest

def normalizeInputValues (spec : WorkflowSpec) (provided : Option Json) :
    Except InputError (List (String × Json)) :=
  if provided.any (fun v => !v.isObj) then .error ⟨"input values must be a JSON object", none⟩
  else
    let given := (provided.getD .null).fields
    match (given.map Prod.fst).findSome? (givenIssue spec.inputs) with
    | some e => .error e
    | none => fillInputs given spec.inputs

/-- A normalized value is a declared input with a value of its declared type or its default. -/
theorem fillInputs_mem {given : List (String × Json)} :
    ∀ (defs : List (String × WorkflowInputDef)) (out : List (String × Json)),
      fillInputs given defs = .ok out → ∀ kv ∈ out, ∃ d, (kv.1, d) ∈ defs ∧
        (matchesInputType kv.2 d.type = true ∨ d.default = some kv.2) := by
  intro defs
  induction defs with
  | nil =>
    intro out h kv hkv
    rw [← Except.ok.inj h] at hkv
    exact nomatch hkv
  | cons hd tl ih =>
    obtain ⟨name, d⟩ := hd
    -- what both value-giving branches do with the rest
    have hput : ∀ v out, (matchesInputType v d.type = true ∨ d.default = some v) →
        (match fillInputs given tl with
          | .ok rest => Except.ok ((name, v) :: rest)
          | .error e => .error e) = .ok out →
        ∀ kv ∈ out, ∃ d', (kv.1, d') ∈ (name, d) :: tl ∧
          (matchesInputType kv.2 d'.type = true ∨ d'.default = some kv.2) := by
      intro v out hv h kv hkv
      split at h
      · rename_i rest hrest
        rw [← Except.ok.inj h] at hkv
        rcases List.mem_cons.mp hkv with rfl | hkv
        · exact ⟨d, List.mem_cons_self, hv⟩
        · obtain ⟨d', hd', hval⟩ := ih rest hrest kv hkv
          exact ⟨d', List.mem_cons_of_mem _ hd', hval⟩
      · exact nomatch h
    intro out h kv hkv
    rw [fillInputs] at h
    split at h
    · rename_i v _
      split at h
      · rename_i hm
        exact hput v out (Or.inl hm) h kv hkv
      · exact nomatch h
    · split at h
      · rename_i v hdef
        exact hput v out (Or.inr hdef) h kv hkv
      · split at h
        · exact nomatch h
        · obtain ⟨d', hd', hval⟩ := ih out h kv hkv
          exact ⟨d', List.mem_cons_of_mem _ hd', hval⟩

/-! ## The context bundle -/

/-- `s.slice(0, n)`, on characters: the longest prefix within `n` UTF-16 units. -/
def sliceUnits : Nat → List Char → List Char
  | _, [] => []
  | n, c :: cs => if units c ≤ n then c :: sliceUnits (n - units c) cs else []

theorem sliceUnits_le (n : Nat) (cs : List Char) : ((sliceUnits n cs).map units).sum ≤ n := by
  induction cs generalizing n with
  | nil => exact Nat.zero_le _
  | cons c cs ih =>
    rw [sliceUnits]
    split
    · have := ih (n - units c)
      simp only [List.map_cons, List.sum_cons]
      omega
    · exact Nat.zero_le _

/-- The objective a new workflow records: the input of that name if it is a string, else the
    description, else the name. -/
def objectiveOf (spec : WorkflowSpec) (values : List (String × Json)) : String :=
  let text := match lookup values "objective" with
    | some (.str s) => s
    | _ => spec.description.getD spec.name
  String.ofList (sliceUnits 4096 text.toList)

def initialContext (spec : WorkflowSpec) (values : List (String × Json)) : List (String × Json) :=
  [("objective", .str (objectiveOf spec values)), ("current_round", .num (.ofInt 1))]

/-- `obj[k] = v` on a property list. -/
def setProp : List (String × Json) → String → Json → List (String × Json)
  | [], k, v => [(k, v)]
  | (q, w) :: rest, k, v => if q = k then (k, v) :: rest else (q, w) :: setProp rest k v

theorem mem_setProp {kvs : List (String × Json)} {k : String} {v : Json} {kv : String × Json}
    (h : kv ∈ setProp kvs k v) : kv = (k, v) ∨ kv ∈ kvs := by
  induction kvs with
  | nil => exact Or.inl (List.mem_singleton.mp h)
  | cons hd tl ih =>
    obtain ⟨q, w⟩ := hd
    rw [setProp] at h
    split at h
    · rcases List.mem_cons.mp h with h | h
      · exact Or.inl h
      · exact Or.inr (List.mem_cons_of_mem _ h)
    · rcases List.mem_cons.mp h with h | h
      · exact Or.inr (by rw [h]; exact List.mem_cons_self)
      · exact (ih h).imp id (List.mem_cons_of_mem _)

def maxCtxList : Nat := 50

/-- `list.slice(-50)`. -/
def lastFifty (xs : List Json) : List Json := xs.drop (xs.length - maxCtxList)

def taskEvidence (taskId : String) (historyComplete : Bool) : Json :=
  .obj [("kind", .str "task_status"),
    ("summary", .str ("task completed; history_complete="
      ++ (if historyComplete then "true" else "false"))), ("task_id", .str taskId)]

/-- The context after a step completes: its slot replaced, and the task recorded. -/
def buildUpdatedContext (cur : List (String × Json)) (round : Nat) (binding : Option ContextGroup)
    (output : Json) (taskId : String) (historyComplete : Bool) : List (String × Json) :=
  let next := setProp cur "current_round" (.num (.ofInt round))
  let next := match binding with
    | some group => setProp next group.name output
    | none => next
  let next := setProp next "verified_evidence" (.arr (lastFifty
    (((lookup cur "verified_evidence").getD .null).elems ++ [taskEvidence taskId historyComplete])))
  setProp next "prior_task_ids" (.arr (lastFifty
    (((lookup cur "prior_task_ids").getD .null).elems ++ [.str taskId])))

/-! ## The durable writes -/

/-- What the store keeps of a workflow that later writes read back. -/
structure StoredWorkflow where
  spec : WorkflowSpec
  context : List (String × Json)
deriving DecidableEq

/-- The four signal values of one looped round. -/
def stallSignalValues (context : List (String × Json)) (output : Json)
    (workspaceRevision verifiedEvidence : String) : Json :=
  let nextStep := match output.get? "next_step" with
    | none | some .null => ""
    | some v => jsString (some v)
  let remaining := (((lookup context "latest_executor_handoff").bind
    (fun h => h.get? "remaining_work")).getD .null)
  .obj [("planner_next_step", .str nextStep), ("remaining_work", .str (stringify remaining)),
    ("workspace_revision", .str workspaceRevision), ("verified_evidence", .str verifiedEvidence)]

/-- A durable write of the runtime. -/
inductive DurableWrite where
  | stepOutput (step : AgentTaskStep) (output : Json) (round : Nat) (taskId : String)
      (historyComplete : Bool)
  | pauseRequest (gate : StepPauseGate)
  | stallRound (output : Json) (workspaceRevision verifiedEvidence digest : String)
  | completionEvidence (evidence : Json) (decision : String)

/-- The state after a write. -/
def applyWrite (st : StoredWorkflow) : DurableWrite → StoredWorkflow
  | .stepOutput step output round taskId hc =>
    { st with context :=
        buildUpdatedContext st.context round step.contextBinding output taskId hc }
  | _ => st

/-- The size and field-name checks of creating a workflow. -/
def createWorkflow (j : Json) (values : List (String × Json)) : Except StoreError StoredWorkflow := do
  let _ ← encodeJson j specJson "workflow.spec"
  assertNoForbiddenFields "workflow.input_values" (.obj values)
  let _ ← encodeJson (.obj values) metadataJson "workflow.input_values"
  let context := initialContext (WorkflowSpec.ofJson j) values
  assertValidContext (.obj context) "workflow.context"
  let _ ← encodeJson (.obj context) contextJson "workflow.context"
  return ⟨WorkflowSpec.ofJson j, context⟩

/-- The size and field-name checks of each later write. -/
def persist (st : StoredWorkflow) (w : DurableWrite) : Except StoreError StoredWorkflow := do
  match w with
  | .stepOutput _ output _ _ _ =>
    let _ ← encodeJson output stepOutputJson "step.output"
    assertValidContext (.obj (applyWrite st w).context) "workflow.context"
    let _ ← encodeJson (.obj (applyWrite st w).context) contextJson "workflow.context"
    return applyWrite st w
  | .pauseRequest gate =>
    let _ ← boundString gate.prompt 8192 "human.prompt"
    match gate.choices with
    | some choices =>
      let _ ← encodeJson (.arr ((choices.take 200).map Json.str)) metadataJson "human.choices"
      return st
    | none => return st
  | .stallRound output workspaceRevision verifiedEvidence digest =>
    let _ ← boundString (String.ofList (sliceUnits 32 digest.toList)) 128 "stall.fingerprint"
    let _ ← encodeJson (stallSignalValues st.context output workspaceRevision verifiedEvidence)
      metadataJson "stall.signals"
    return st
  | .completionEvidence evidence decision =>
    let _ ← encodeJson evidence metadataJson "completion.evidence"
    let _ ← boundString decision 64 "completion.decision"
    return st

/-- A sequence of writes, stopping at the first the store refuses. -/
def persistAll : StoredWorkflow → List DurableWrite → Except StoreError StoredWorkflow
  | st, [] => .ok st
  | st, w :: ws =>
    match persist st w with
    | .error e => .error e
    | .ok st' => persistAll st' ws

/-- What the runtime writes: outputs its steps' schemas accept, the gates of the spec, and a
    decision of the completion policy.  A JavaScript object has no repeated key. -/
def Admitted (j : Json) : DurableWrite → Prop
  | .stepOutput step output _ _ _ => step ∈ (WorkflowSpec.ofJson j).steps ∧ output.isObj = true ∧
      output.keys.Nodup ∧ ∃ schema, lookup (WorkflowSpec.ofJson j).outputSchemas step.outputSchema = some schema ∧
        validateAgainstSchema output schema = .ok output
  | .pauseRequest gate => ∃ step ∈ (WorkflowSpec.ofJson j).steps, step.pauseBefore = some gate
  | .stallRound _ _ _ _ => True
  | .completionEvidence _ decision => decision ∈ ["complete", "blocked", "failed"]

/-! ## The sizes that decide -/

/-- A name the store reserves and admission does not. -/
def isStoreReserved (name : String) : Bool :=
  normalizeKey name == "pid".toList || holdsWord ["sessionhistory", "processid"] (normalizeKey name)

/-- The bounds a creation must meet. -/
def CreateFits (j : Json) (values : List (String × Json)) : Prop :=
  byteLen (stringify j) ≤ specJson ∧ byteLen (stringify (.obj values)) ≤ metadataJson ∧
  ∀ kv ∈ values, isStoreReserved kv.1 = false

/-- The bounds a later write must meet in the state it is made in. -/
def WriteFits (st : StoredWorkflow) (w : DurableWrite) : Prop :=
  match w with
  | .stepOutput _ output _ _ _ => byteLen (stringify output) ≤ stepOutputJson ∧
      byteLen (stringify (.obj (applyWrite st w).context)) ≤ contextJson
  | .pauseRequest gate => ∀ choices, gate.choices = some choices →
      byteLen (stringify (.arr (choices.map Json.str))) ≤ metadataJson
  | .stallRound output workspaceRevision verifiedEvidence _ =>
    byteLen (stringify (stallSignalValues st.context output workspaceRevision verifiedEvidence))
      ≤ metadataJson
  | .completionEvidence evidence _ => byteLen (stringify evidence) ≤ metadataJson

/-- Every write of a sequence meets its bounds where it is made. -/
def AllFit : StoredWorkflow → List DurableWrite → Prop
  | _, [] => True
  | st, w :: ws => WriteFits st w ∧ AllFit (applyWrite st w) ws

/-! ## Admitted values are flat -/

theorem isFlat_of_isStr {v : Json} (h : v.isStr = true) : isFlat v = true := by
  cases v with
  | str _ => rfl
  | null | bool _ | num _ | arr _ | obj _ => exact nomatch h

theorem isFlat_of_matchesType {v : Json} {f : SchemaField} (h : matchesType v f = true) :
    isFlat v = true := by
  unfold matchesType at h
  split at h
  · rfl
  · rfl
  · rfl
  · exact h
  · rfl
  · exact nomatch h

theorem isFlat_of_matchesInputType {v : Json} {t : WorkflowInputType}
    (h : matchesInputType v t = true) : isFlat v = true := by
  cases t with
  | string => exact isFlat_of_isStr h
  | number =>
    cases v with
    | num _ => rfl
    | null | bool _ | str _ | arr _ | obj _ => exact nomatch h
  | boolean =>
    cases v with
    | bool _ => rfl
    | null | num _ | str _ | arr _ | obj _ => exact nomatch h
  | stringArray =>
    cases v with
    | arr xs => exact h
    | null | bool _ | num _ | str _ | obj _ => exact nomatch h

/-- The fields of an accepted output are declared and flat. -/
theorem output_flat {output : Json} {schema : OutputSchema} (hnd : output.keys.Nodup)
    (h : validateAgainstSchema output schema = .ok output) :
    ∀ kv ∈ output.fields, kv.1 ∈ schema.map Prod.fst ∧ isFlat kv.2 = true := by
  obtain ⟨-, hkeys, hfields, -⟩ := validateAgainstSchema_ok h
  intro kv hkv
  have hdecl := hkeys kv.1 (List.mem_map.mpr ⟨kv, hkv, rfl⟩)
  refine ⟨hdecl, ?_⟩
  obtain ⟨⟨name, f⟩, hentry, hname⟩ := List.mem_map.mp hdecl
  have hname' : name = kv.1 := hname
  have hget : output.get? name = some kv.2 := lookup_of_nodup hnd (by rw [hname']; exact hkv)
  exact isFlat_of_matchesType (fieldIssue_none_type (hfields _ hentry) hget)

/-! ## Field names of the context -/

/-- A clean value carries no forbidden field name, whatever the label. -/
def Clean (v : Json) : Prop := ∀ label, assertNoForbiddenFields label v = .ok ()

theorem clean_flat {v : Json} (h : isFlat v = true) : Clean v :=
  fun _ => noForbiddenFields_flat h

theorem clean_obj_iff {kvs : List (String × Json)} :
    Clean (.obj kvs) ↔ ∀ kv ∈ kvs, isForbiddenKey kv.1 = false ∧ Clean kv.2 := by
  constructor
  · intro h kv hkv
    refine ⟨(assertNoForbiddenProps_ok_iff.mp (h "") kv hkv).1, ?_⟩
    intro label
    exact (assertNoForbiddenProps_ok_iff.mp (h label) kv hkv).2
  · intro h label
    exact assertNoForbiddenProps_ok_iff.mpr (fun kv hkv => ⟨(h kv hkv).1, (h kv hkv).2 label⟩)

theorem clean_arr_iff {xs : List Json} : Clean (.arr xs) ↔ ∀ x ∈ xs, Clean x := by
  have hiff : ∀ (label : String) (l : List Json), assertNoForbiddenList label l = .ok () ↔
      ∀ x ∈ l, assertNoForbiddenFields label x = .ok () := by
    intro label l
    induction l with
    | nil => simp [assertNoForbiddenList]
    | cons x rest ih =>
      rw [assertNoForbiddenList]
      cases hx : assertNoForbiddenFields label x with
      | error e => simp [hx]
      | ok u => simp [hx, ih]
  constructor
  · intro h x hx label
    exact (hiff label xs).mp (h label) x hx
  · intro h label
    exact (hiff label xs).mpr (fun x hx => h x hx label)

/-- The elements of a clean value are clean. -/
theorem clean_elems {v : Json} (h : Clean v) : ∀ x ∈ v.elems, Clean x := by
  cases v with
  | arr xs => exact clean_arr_iff.mp h
  | null | bool _ | num _ | str _ | obj _ => intro x hx; exact nomatch hx

/-- The invariant of the context bundle: allowed names, clean values. -/
def ContextClean (ctx : List (String × Json)) : Prop :=
  ∀ kv ∈ ctx, kv.1 ∈ contextAllowedKeys ∧ Clean kv.2

/-- No allowed context name is forbidden. -/
theorem allowed_not_forbidden : ∀ k ∈ contextAllowedKeys, isForbiddenKey k = false := by
  decide +kernel

/-- **A clean context passes the store's context check.** -/
theorem ContextClean.accepted {ctx : List (String × Json)} (h : ContextClean ctx) (label : String) :
    assertValidContext (.obj ctx) label = .ok () := by
  have hfind : (Json.obj ctx).keys.find? (fun k => !contextAllowedKeys.contains k) = none := by
    refine List.find?_eq_none.mpr ?_
    intro k hk
    obtain ⟨kv, hkv, rfl⟩ := List.mem_map.mp hk
    simpa using (h kv hkv).1
  unfold assertValidContext
  simp only [hfind]
  exact clean_obj_iff.mpr (fun kv hkv => ⟨allowed_not_forbidden _ (h kv hkv).1, (h kv hkv).2⟩) label

theorem ContextClean.setProp {ctx : List (String × Json)} (h : ContextClean ctx) {k : String}
    {v : Json} (hk : k ∈ contextAllowedKeys) (hv : Clean v) : ContextClean (setProp ctx k v) := by
  intro kv hkv
  rcases mem_setProp hkv with rfl | hkv
  · exact ⟨hk, hv⟩
  · exact h kv hkv

/-- A list slot of the context stays clean when a clean entry is appended and the list cut. -/
theorem ContextClean.append {ctx : List (String × Json)} (h : ContextClean ctx) (k : String)
    {v : Json} (hv : Clean v) :
    Clean (.arr (lastFifty (((lookup ctx k).getD .null).elems ++ [v]))) := by
  refine clean_arr_iff.mpr ?_
  intro x hx
  rcases List.mem_append.mp (List.mem_of_mem_drop hx) with hx | hx
  · cases hl : lookup ctx k with
    | none =>
      rw [hl] at hx
      exact nomatch hx
    | some w =>
      rw [hl] at hx
      exact clean_elems (h (k, w) (lookup_mem hl)).2 x hx
  · rw [List.mem_singleton.mp hx]
    exact hv

theorem taskEvidence_clean (taskId : String) (hc : Bool) : Clean (taskEvidence taskId hc) := by
  have hnames : ∀ k ∈ ["kind", "summary", "task_id"], isForbiddenKey k = false := by decide +kernel
  refine clean_obj_iff.mpr ?_
  intro kv hkv
  have hk : kv.1 ∈ ["kind", "summary", "task_id"] := List.mem_map_of_mem hkv
  refine ⟨hnames _ hk, clean_flat ?_⟩
  simp only [List.mem_cons, List.not_mem_nil, or_false] at hkv
  rcases hkv with rfl | rfl | rfl <;> rfl

theorem initialContext_clean (spec : WorkflowSpec) (values : List (String × Json)) :
    ContextClean (initialContext spec values) := by
  intro kv hkv
  simp only [initialContext, List.mem_cons, List.not_mem_nil, or_false] at hkv
  rcases hkv with rfl | rfl
  · exact ⟨List.mem_cons_self, clean_flat rfl⟩
  · exact ⟨List.mem_cons_of_mem _ List.mem_cons_self, clean_flat rfl⟩

/-- No field of a context slot is forbidden. -/
theorem slot_fields_clean (group : ContextGroup) : ∀ k ∈ group.fields, isForbiddenKey k = false := by
  cases group <;> decide +kernel

/-- The fields of a bound step's schema are fields of its slot. -/
theorem binding_fields {j : Json} (h : ValidSpec j) {step : AgentTaskStep}
    (hs : step ∈ (WorkflowSpec.ofJson j).steps) {group : ContextGroup}
    (hg : step.contextBinding = some group) {schema : OutputSchema}
    (hsch : lookup (WorkflowSpec.ofJson j).outputSchemas step.outputSchema = some schema) :
    ∀ k ∈ schema.map Prod.fst, k ∈ group.fields := by
  obtain ⟨raw, -, rfl, -, -, p, hbody⟩ := h.step_of_mem hs
  have hsch' : (lookup ((j.get? "output_schemas").getD .null).fields
      (AgentTaskStep.ofJson raw).outputSchema).map OutputSchema.ofJson = some schema := by
    rw [← lookup_map]
    exact hsch
  obtain ⟨sdef, hsdef, rfl⟩ := Option.map_eq_some_iff.mp hsch'
  simp only [stepBodyIssues, List.append_eq_nil_iff, errIf_nil, Bool.not_eq_false'] at hbody
  obtain ⟨sn, hsn, -⟩ := strOk_get hbody.1.1.1.1.1.1.1.1.1.1.1.2
  have hname : (AgentTaskStep.ofJson raw).outputSchema = sn := strField_of hsn
  have hbind := hbody.1.1.1.1.2
  obtain ⟨b, hb, hgroup⟩ := Option.bind_eq_some_iff.mp
    (show (strField? raw "context_binding").bind ContextGroup.ofName = some group from hg)
  rw [strField?_eq.mp hb] at hbind
  simp only [Json.str?, Option.bind_some, hgroup, hsn] at hbind
  have hdefs : lookup (schemaFieldDefs (j.get? "output_schemas")) sn
      = some ((schemaFieldsOf sdef).filterMap
          (fun f => (fieldDefOf f.2).map (fun d => (f.1, d)))) := by
    rw [schemaFieldDefs, lookup_map (fun s => (schemaFieldsOf s).filterMap
      (fun f => (fieldDefOf f.2).map (fun d => (f.1, d)))), ← hname, hsdef]
    rfl
  rw [hdefs] at hbind
  have hallowed := List.flatMap_eq_nil_iff.mp (List.append_eq_nil_iff.mp hbind).1
  intro k hk
  obtain ⟨kv, hkv, rfl⟩ := List.mem_map.mp hk
  obtain ⟨f, hf, rfl⟩ := List.mem_map.mp hkv
  obtain ⟨fp, hclean⟩ := h.schema_fields_clean hsdef f hf
  obtain ⟨d, hd, -⟩ := validateSchemaField_nil hclean
  have hmem : (f.1, d) ∈ (schemaFieldsOf sdef).filterMap
      (fun f => (fieldDefOf f.2).map (fun d => (f.1, d))) :=
    List.mem_filterMap.mpr ⟨f, hf, by rw [hd]; rfl⟩
  have := errIf_nil.mp (hallowed (f.1, d) hmem)
  simpa using this

/-- **A write keeps the context clean.** -/
theorem applyWrite_clean {j : Json} (h : ValidSpec j) {st : StoredWorkflow}
    (hc : ContextClean st.context) {w : DurableWrite} (hw : Admitted j w) :
    ContextClean (applyWrite st w).context := by
  cases w with
  | pauseRequest _ | stallRound _ _ _ _ | completionEvidence _ _ => exact hc
  | stepOutput step output round taskId historyComplete =>
    obtain ⟨hs, hobj, hnd, schema, hsch, hval⟩ := hw
    have hround := hc.setProp (k := "current_round") (v := .num (.ofInt round)) (by decide)
      (clean_flat rfl)
    show ContextClean (buildUpdatedContext st.context round step.contextBinding output taskId
      historyComplete)
    unfold buildUpdatedContext
    refine ContextClean.setProp (ContextClean.setProp ?_ (by decide)
      (hc.append _ (taskEvidence_clean taskId historyComplete))) (by decide)
      (hc.append _ (clean_flat rfl))
    cases hb : step.contextBinding with
    | none => exact hround
    | some group =>
      refine hround.setProp (by cases group <;> decide) ?_
      cases output with
      | null | bool _ | num _ | str _ | arr _ => exact nomatch hobj
      | obj kvs =>
        refine clean_obj_iff.mpr ?_
        intro kv hkv
        obtain ⟨hdecl, hflat⟩ := output_flat hnd hval kv hkv
        exact ⟨slot_fields_clean group _ (binding_fields h hs hb hsch _ hdecl),
          clean_flat hflat⟩

/-! ## Creation -/

/-- A scanned value has no credential-like name at any depth; here, at the second level. -/
theorem scanSecretProps_nil {path : String} {kvs : List (String × Json)}
    (h : scanSecretProps path kvs = []) : ∀ kv ∈ kvs, isSecretKey kv.1 = false ∧
      ∃ p, scanSecretFields p kv.2 = [] := by
  induction kvs with
  | nil => intro kv hkv; exact nomatch hkv
  | cons hd tl ih =>
    obtain ⟨k, v⟩ := hd
    rw [scanSecretProps] at h
    simp only [List.append_eq_nil_iff, errIf_nil] at h
    intro kv hkv
    rcases List.mem_cons.mp hkv with rfl | hkv
    · exact ⟨h.1.1, _, h.1.2⟩
    · exact ih h.2 kv hkv

/-- The declared inputs of an accepted spec have no credential-like name, and flat defaults. -/
theorem input_clean {j : Json} (h : ValidSpec j) {name : String} {d : WorkflowInputDef}
    (hd : (name, d) ∈ (WorkflowSpec.ofJson j).inputs) :
    isSecretKey name = false ∧ ∀ v, d.default = some v → isFlat v = true := by
  obtain ⟨⟨k, raw⟩, hraw, hpair⟩ := List.mem_map.mp hd
  obtain ⟨rfl, rfl⟩ := Prod.mk.inj hpair
  cases hin : j.get? "inputs" with
  | none =>
    rw [hin] at hraw
    exact nomatch hraw
  | some inputs =>
    rw [hin] at hraw
    cases inputs with
    | null | bool _ | num _ | str _ | arr _ => exact nomatch hraw
    | obj kvs =>
      have hraw' : (k, raw) ∈ kvs := hraw
      constructor
      · -- the secret scan goes through the whole spec, so it has seen this name
        have hscan := h.noSecrets
        cases j with
        | null | bool _ | num _ | str _ | arr _ => exact nomatch h.isObject
        | obj top =>
          obtain ⟨-, p, hp⟩ := scanSecretProps_nil hscan ("inputs", .obj kvs) (lookup_mem hin)
          exact (scanSecretProps_nil hp (k, raw) hraw').1
      · intro v hv
        have hval := h.inputs
        rw [hin] at hval
        have hone := (List.flatMap_eq_nil_iff.mp
          (show kvs.flatMap (fun kv => validateInput kv.1 kv.2) = [] from hval)) (k, raw) hraw'
        simp only [validateInput, List.append_eq_nil_iff] at hone
        obtain ⟨-, hbody⟩ := hone
        split at hbody
        · exact absurd hbody err_ne_nil
        · simp only [List.append_eq_nil_iff] at hbody
          have htype := hbody.1.1.1
          split at htype
          · exact absurd htype err_ne_nil
          · rename_i t _
            have hdef : raw.get? "default" = some v := hv
            rw [optionalField, errIf_nil, hdef] at htype
            have hm : matchesInputType v t = true := by simpa using htype
            exact isFlat_of_matchesInputType hm

/-- Normalized values come from the declared inputs. -/
theorem normalizeInputValues_ok {spec : WorkflowSpec} {provided : Option Json}
    {values : List (String × Json)} (h : normalizeInputValues spec provided = .ok values) :
    ∀ kv ∈ values, ∃ d, (kv.1, d) ∈ spec.inputs ∧
      (matchesInputType kv.2 d.type = true ∨ d.default = some kv.2) := by
  unfold normalizeInputValues at h
  split at h
  · exact nomatch h
  · dsimp only at h
    split at h
    · exact nomatch h
    · exact fillInputs_mem spec.inputs values h

/-- The words both lists know. -/
def sharedTokens : List String :=
  ["token", "secret", "password", "passwd", "apikey", "bearer", "credential", "privatekey",
   "encryptionkey", "accesskey"]

theorem holdsWord_append (a b : List String) (norm : List Char) :
    holdsWord (a ++ b) norm = (holdsWord a norm || holdsWord b norm) :=
  List.any_append

/-- For a name the validator lets through, the store's list comes down to the words the store
    alone knows. -/
theorem isForbiddenKey_of_not_secret {name : String} (h : isSecretKey name = false) :
    isForbiddenKey name = isStoreReserved name := by
  have hsecret : secretTokens = sharedTokens ++ ["signingkey"] := rfl
  have hstore : storeSecretTokens = sharedTokens ++ ["sessionhistory", "processid"] := rfl
  rw [isSecretKey, hsecret, holdsWord_append, Bool.or_eq_false_iff] at h
  rw [isForbiddenKey, isStoreReserved, hstore, holdsWord_append, h.1, Bool.false_or]

/-- The input values pass the name check exactly when no name is reserved by the store. -/
theorem values_clean_iff {j : Json} (h : ValidSpec j) {provided : Option Json}
    {values : List (String × Json)}
    (hn : normalizeInputValues (WorkflowSpec.ofJson j) provided = .ok values) (label : String) :
    assertNoForbiddenFields label (.obj values) = .ok () ↔
      ∀ kv ∈ values, isStoreReserved kv.1 = false := by
  have hkey : ∀ kv ∈ values, isForbiddenKey kv.1 = isStoreReserved kv.1 ∧ Clean kv.2 := by
    intro kv hkv
    obtain ⟨d, hd, hval⟩ := normalizeInputValues_ok hn kv hkv
    obtain ⟨hsecret, hdefault⟩ := input_clean h hd
    refine ⟨isForbiddenKey_of_not_secret hsecret, clean_flat ?_⟩
    rcases hval with hm | hdef
    · exact isFlat_of_matchesInputType hm
    · exact hdefault _ hdef
  constructor
  · intro hok kv hkv
    rw [← (hkey kv hkv).1]
    exact (assertNoForbiddenProps_ok_iff.mp hok kv hkv).1
  · intro hres
    refine assertNoForbiddenProps_ok_iff.mpr ?_
    intro kv hkv
    rw [(hkey kv hkv).1]
    exact ⟨hres kv hkv, (hkey kv hkv).2 label⟩

/-- **The first context always fits**: its objective is cut at 4096 units. -/
theorem initialContext_fits (spec : WorkflowSpec) (values : List (String × Json)) :
    byteLen (stringify (.obj (initialContext spec values))) ≤ contextJson := by
  have hobj : utf16Length (objectiveOf spec values) ≤ 4096 := by
    rw [utf16Length_eq, objectiveOf, String.toList_ofList]
    exact sliceUnits_le _ _
  have hquote := jsonText_le (objectiveOf spec values)
  have htext : byteLen (stringify (.obj (initialContext spec values)))
      = charBytes (textChars (.obj (initialContext spec values))) := byteLen_ofList _
  have hparts : charBytes (textChars (.obj (initialContext spec values)))
      ≤ charBytes (quoteChars (objectiveOf spec values)) + 64 := by
    have hone : (JsNum.ofInt 1).toText.toList = ['1'] := by decide
    have hk : charBytes (quoteChars "objective") = 11 := by decide
    have hr : charBytes (quoteChars "current_round") = 15 := by decide
    have hopen := Char.utf8Size_le_four '\x7b'
    have hclose := Char.utf8Size_le_four '\x7d'
    have hcolon := Char.utf8Size_le_four ':'
    have hcomma := Char.utf8Size_le_four ','
    have hdigit := Char.utf8Size_le_four '1'
    simp only [initialContext, textChars, textCharsFields, hone, charBytes_cons, charBytes_append,
      charBytes_nil, hk, hr]
    omega
  rw [htext]
  unfold contextJson
  omega

/-! ## Every write -/

theorem bind_ok_iff {ε α β : Type} {x : Except ε α} {f : α → Except ε β} {r : β} :
    (x >>= f) = .ok r ↔ ∃ a, x = .ok a ∧ f a = .ok r := by
  cases x with
  | error e => simp [bind, Except.bind]
  | ok a => simp [bind, Except.bind]

theorem encodeJson_eq_ok {value : Json} {max : Nat} {label text : String} :
    encodeJson value max label = .ok text ↔
      byteLen (stringify value) ≤ max ∧ stringify value = text := by
  unfold encodeJson
  split
  · simp; omega
  · simp; omega

theorem boundString_eq_ok {value : String} {max : Nat} {label text : String} :
    boundString value max label = .ok text ↔ byteLen value ≤ max ∧ value = text := by
  unfold boundString
  split
  · simp; omega
  · simp; omega

/-- Creation is accepted exactly within its bounds. -/
theorem createWorkflow_ok_iff {j : Json} (h : ValidSpec j) {provided : Option Json}
    {values : List (String × Json)}
    (hn : normalizeInputValues (WorkflowSpec.ofJson j) provided = .ok values)
    {st : StoredWorkflow} :
    createWorkflow j values = .ok st ↔ CreateFits j values ∧
      st = ⟨WorkflowSpec.ofJson j, initialContext (WorkflowSpec.ofJson j) values⟩ := by
  have hfits := initialContext_fits (WorkflowSpec.ofJson j) values
  have hctx := (initialContext_clean (WorkflowSpec.ofJson j) values).accepted "workflow.context"
  simp only [createWorkflow, bind_ok_iff, encodeJson_eq_ok, hctx, Except.ok.injEq, pure, Except.pure]
  constructor
  · rintro ⟨_, ⟨hspec, -⟩, _, hnames, _, ⟨hvals, -⟩, _, -, _, -, rfl⟩
    exact ⟨⟨hspec, hvals, (values_clean_iff h hn _).mp hnames⟩, rfl⟩
  · rintro ⟨⟨hspec, hvals, hnames⟩, rfl⟩
    exact ⟨_, ⟨hspec, rfl⟩, (), (values_clean_iff h hn _).mpr hnames, _, ⟨hvals, rfl⟩, (),
      trivial, _, ⟨hfits, rfl⟩, rfl⟩

/-- The gates of an accepted spec: the prompt within 2000 units, at most 50 choices. -/
theorem gate_bounds {j : Json} (h : ValidSpec j) {step : AgentTaskStep}
    (hs : step ∈ (WorkflowSpec.ofJson j).steps) {gate : StepPauseGate}
    (hg : step.pauseBefore = some gate) :
    utf16Length gate.prompt ≤ maxPausePrompt ∧
      ∀ choices, gate.choices = some choices → choices.length ≤ maxPauseChoices := by
  obtain ⟨raw, -, rfl, -, -, p, hbody⟩ := h.step_of_mem hs
  obtain ⟨g, hraw, rfl⟩ := Option.map_eq_some_iff.mp
    (show (raw.get? "pause_before").map StepPauseGate.ofJson = some gate from hg)
  simp only [stepBodyIssues, List.append_eq_nil_iff] at hbody
  have hgate := hbody.1.2
  rw [hraw] at hgate
  have hgate' : validatePauseGate (p ++ "/pause_before") g = [] := hgate
  unfold validatePauseGate at hgate'
  split at hgate'
  · exact absurd hgate' err_ne_nil
  · simp only [List.append_eq_nil_iff, errIf_nil, Bool.not_eq_false'] at hgate'
    obtain ⟨⟨⟨-, hprompt⟩, hchoices⟩, -⟩ := hgate'
    obtain ⟨s, hsf, hlen⟩ := strOk_get hprompt
    constructor
    · have : (StepPauseGate.ofJson g).prompt = s := strField_of hsf
      rw [this]
      simp only [Bool.and_eq_true, decide_eq_true_eq] at hlen
      exact hlen.2
    · intro choices hc
      obtain ⟨c, hcraw, rfl⟩ := Option.map_eq_some_iff.mp
        (show (g.get? "choices").map strings = some choices from hc)
      rw [optionalField, errIf_nil, hcraw] at hchoices
      simp only [Option.any_some, Bool.not_eq_false', isPauseChoices, Bool.and_eq_true,
        decide_eq_true_eq] at hchoices
      exact le_trans (List.length_filterMap_le _ _) hchoices.1.2

/-- **One write is accepted exactly within its bounds.** -/
theorem persist_ok_iff {j : Json} (h : ValidSpec j) {st st' : StoredWorkflow}
    (hc : ContextClean st.context) {w : DurableWrite} (hw : Admitted j w) :
    persist st w = .ok st' ↔ WriteFits st w ∧ st' = applyWrite st w := by
  have hctx := (applyWrite_clean h hc hw).accepted "workflow.context"
  cases w with
  | stepOutput step output round taskId historyComplete =>
    simp only [persist, WriteFits, bind_ok_iff, encodeJson_eq_ok, hctx, pure, Except.pure,
      Except.ok.injEq]
    constructor
    · rintro ⟨_, ⟨hout, -⟩, _, -, _, ⟨hsize, -⟩, rfl⟩
      exact ⟨⟨hout, hsize⟩, rfl⟩
    · rintro ⟨⟨hout, hsize⟩, rfl⟩
      exact ⟨_, ⟨hout, rfl⟩, (), trivial, _, ⟨hsize, rfl⟩, rfl⟩
  | pauseRequest gate =>
    obtain ⟨step, hs, hg⟩ := hw
    obtain ⟨hprompt, hlen⟩ := gate_bounds h hs hg
    have hbytes : byteLen gate.prompt ≤ 8192 := by
      have := byteLen_le_utf16 gate.prompt
      unfold maxPausePrompt at hprompt
      omega
    simp only [persist, WriteFits, bind_ok_iff, boundString_eq_ok, pure, Except.pure]
    cases hch : gate.choices with
    | none =>
      constructor
      · rintro ⟨_, -, hst⟩
        exact ⟨fun _ hno => (nomatch hno), (Except.ok.inj hst).symm⟩
      · rintro ⟨-, rfl⟩
        exact ⟨_, ⟨hbytes, rfl⟩, rfl⟩
    | some choices =>
      have htake : choices.take 200 = choices := by
        have := hlen choices hch
        unfold maxPauseChoices at this
        exact List.take_of_length_le (by omega)
      simp only [bind_ok_iff, encodeJson_eq_ok, htake, Except.ok.injEq, Option.some.injEq]
      constructor
      · rintro ⟨_, -, _, ⟨hsize, -⟩, rfl⟩
        refine ⟨?_, rfl⟩
        rintro _ rfl
        exact hsize
      · rintro ⟨hsize, rfl⟩
        exact ⟨_, ⟨hbytes, rfl⟩, _, ⟨hsize choices rfl, rfl⟩, rfl⟩
  | stallRound output workspaceRevision verifiedEvidence digest =>
    have hfp : byteLen (String.ofList (sliceUnits 32 digest.toList)) ≤ 128 := by
      have hcut := sliceUnits_le 32 digest.toList
      have hle := byteLen_le_utf16 (String.ofList (sliceUnits 32 digest.toList))
      rw [utf16Length_eq, String.toList_ofList] at hle
      omega
    simp only [persist, WriteFits, bind_ok_iff, encodeJson_eq_ok, boundString_eq_ok, pure,
      Except.pure, Except.ok.injEq]
    constructor
    · rintro ⟨_, -, _, ⟨hsize, -⟩, rfl⟩
      exact ⟨hsize, rfl⟩
    · rintro ⟨hsize, rfl⟩
      exact ⟨_, ⟨hfp, rfl⟩, _, ⟨hsize, rfl⟩, rfl⟩
  | completionEvidence evidence decision =>
    have hshort : ∀ d ∈ ["complete", "blocked", "failed"], byteLen d ≤ 64 := by decide
    have hdec := hshort decision hw
    simp only [persist, WriteFits, bind_ok_iff, encodeJson_eq_ok, boundString_eq_ok, pure,
      Except.pure, Except.ok.injEq]
    constructor
    · rintro ⟨_, ⟨hsize, -⟩, _, -, rfl⟩
      exact ⟨hsize, rfl⟩
    · rintro ⟨hsize, rfl⟩
      exact ⟨_, ⟨hsize, rfl⟩, _, ⟨hdec, rfl⟩, rfl⟩

/-- A sequence of admitted writes is accepted exactly when each fits where it is made. -/
theorem persistAll_ok_iff {j : Json} (h : ValidSpec j) (ws : List DurableWrite) :
    ∀ (st : StoredWorkflow), ContextClean st.context → (∀ w ∈ ws, Admitted j w) →
      ((∃ st', persistAll st ws = .ok st') ↔ AllFit st ws) := by
  induction ws with
  | nil =>
    intro st _ _
    exact ⟨fun _ => trivial, fun _ => ⟨st, rfl⟩⟩
  | cons w ws ih =>
    intro st hc hws
    have hw := hws w List.mem_cons_self
    have hrest := ih (applyWrite st w) (applyWrite_clean h hc hw)
      (fun v hv => hws v (List.mem_cons_of_mem _ hv))
    rw [AllFit, ← hrest, persistAll]
    constructor
    · rintro ⟨st', hst⟩
      split at hst
      · exact nomatch hst
      · rename_i st1 h1
        obtain ⟨hfit, rfl⟩ := (persist_ok_iff h hc hw).mp h1
        exact ⟨hfit, st', hst⟩
    · rintro ⟨hfit, st', hst⟩
      refine ⟨st', ?_⟩
      rw [(persist_ok_iff h hc hw).mpr ⟨hfit, rfl⟩]
      exact hst

/-- The durable life of a workflow: its creation and its later writes. -/
def persistRun (j : Json) (values : List (String × Json)) (ws : List DurableWrite) :
    Except StoreError StoredWorkflow :=
  match createWorkflow j values with
  | .error e => .error e
  | .ok st => persistAll st ws

/-- **WHAT THE STORE ACCEPTS OF WHAT IS ADMITTED.**  For an accepted spec, normalized inputs and
    any sequence of admitted writes, no write is refused exactly when no input has a name only
    the store reserves and the listed texts stay within their byte bounds. -/
theorem durable_writes_accepted_iff {j : Json} (hv : (validateWorkflowSpec j).valid = true)
    {provided : Option Json} {values : List (String × Json)}
    (hn : normalizeInputValues (WorkflowSpec.ofJson j) provided = .ok values)
    {ws : List DurableWrite} (hws : ∀ w ∈ ws, Admitted j w) :
    (∃ st, persistRun j values ws = .ok st) ↔ CreateFits j values ∧
      AllFit ⟨WorkflowSpec.ofJson j, initialContext (WorkflowSpec.ofJson j) values⟩ ws := by
  have h := ValidSpec.of_valid hv
  have hrest := persistAll_ok_iff h ws
    ⟨WorkflowSpec.ofJson j, initialContext (WorkflowSpec.ofJson j) values⟩
    (initialContext_clean _ _) hws
  rw [← hrest]
  unfold persistRun
  constructor
  · rintro ⟨st, hst⟩
    split at hst
    · exact nomatch hst
    · rename_i st1 h1
      obtain ⟨hfit, rfl⟩ := (createWorkflow_ok_iff h hn).mp h1
      exact ⟨hfit, st, hst⟩
  · rintro ⟨hfit, st, hst⟩
    refine ⟨st, ?_⟩
    rw [(createWorkflow_ok_iff h hn).mpr ⟨hfit, rfl⟩]
    exact hst

/-- A small accepted spec with one declared input. -/
def oneInputSpec (input : String) : Json :=
  .obj [("version", .str "1"), ("name", .str "w"), ("entry_step", .str "a"),
    ("inputs", .obj [(input, .obj [("type", .str "string")])]),
    ("agents", oneRole), ("output_schemas", enumSchemas), ("limits", smallLimits []),
    ("steps", .arr [plainStep "a" "go"]), ("edges", .arr [plainEdge "a" "$failed"])]

/-- The values a caller gives. -/
def oneInput (input : String) : List (String × Json) := [(input, .str "1")]

/-- A creation with an input the store forbids. -/
theorem persistRun_forbidden {j : Json} {values : List (String × Json)} {e : StoreError} (ws : List DurableWrite)
    (hsize : byteLen (stringify j) ≤ specJson)
    (hf : assertNoForbiddenFields "workflow.input_values" (.obj values) = .error e) :
    persistRun j values ws = .error e := by
  have hcreate : createWorkflow j values = .error e := by
    unfold createWorkflow
    rw [encodeJson_eq_ok.mpr ⟨hsize, rfl⟩, hf]
    rfl
  rw [persistRun, hcreate]

/-- The size of the spec, counted on its characters. -/
theorem oneInputSpec_small {input : String} (h : charBytes (textChars (oneInputSpec input)) ≤ specJson) :
    byteLen (stringify (oneInputSpec input)) ≤ specJson := by
  rw [stringify, byteLen_ofList]
  exact h

/-- An input named `process_id` is accepted by the validator and by the input check, and the
    store throws a forbidden-field error on it. -/
theorem reservedInput_rejected :
    (validateWorkflowSpec (oneInputSpec "process_id")).valid = true ∧
    normalizeInputValues (WorkflowSpec.ofJson (oneInputSpec "process_id"))
      (some (.obj (oneInput "process_id"))) = .ok (oneInput "process_id") ∧
    persistRun (oneInputSpec "process_id") (oneInput "process_id") []
      = .error ⟨.forbiddenField, forbiddenMessage "workflow.input_values" "process_id"⟩ := by
  refine ⟨by decide +kernel, rfl, ?_⟩
  exact persistRun_forbidden [] (oneInputSpec_small (by decide +kernel)) (by decide +kernel)

/-- With another name for the input, creation and a first step output are stored. -/
theorem plainInput_stored :
    ∃ st, persistRun (oneInputSpec "goal") (oneInput "goal")
      [.stepOutput (AgentTaskStep.ofJson (plainStep "a" "go")) (.obj [("k", .str "x")]) 1 "t1" true]
      = .ok st := by
  have hn : normalizeInputValues (WorkflowSpec.ofJson (oneInputSpec "goal")) (some (.obj (oneInput "goal"))) =
      .ok (oneInput "goal") := rfl
  refine (durable_writes_accepted_iff (by decide +kernel) hn ?_).mpr ?_
  · intro w hw
    rw [List.mem_singleton.mp hw]
    exact ⟨by decide +kernel, rfl, by decide, enumSchema, by decide +kernel, by decide +kernel⟩
  · refine ⟨⟨oneInputSpec_small (by decide +kernel), by decide +kernel, by decide +kernel⟩, ⟨?_, ?_⟩, trivial⟩
    · decide +kernel
    · decide +kernel

end VibeAdmission
