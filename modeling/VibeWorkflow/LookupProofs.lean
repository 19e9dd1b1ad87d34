import VibeWorkflow.RoundProofs
import VibeWorkflow.WalkProofs
import VibeWorkflow.ShutdownProofs

/-!
# The names a run looks up

The driver, the renderer and the router look things up by name: steps, roles, schemas, inputs, output and
context fields.  The validator has checked each of these names, in one pass or another, so a run of an
accepted spec never finds one missing.

* `Lookup`, `lookupsAt` — the lookups of one step, from its request to the edge it leaves by;
* **`lookups_declared`** — all of them are of declared names;
* `Outputs` — a completed execution left an object;
* **`run_lookups_resolve`** — in every reachable state, and so at every lookup of every run.
-/

namespace VibeRuntime

open VibeJson VibeContract VibeRouting VibeTemplate VibeValidator VibeStore VibeAdmission VibeControl
open AsyncLogic
open VibeWalk (step_templates)

/-! ## Lookups -/

/-- A name that is looked up. -/
inductive Lookup where
  | step (id : String)
  | role (name : String)
  | schema (name : String)
  | input (name : String)
  | output (step field : String)
  | context (group : ContextGroup) (field : String)
deriving DecidableEq

/-- The name is one the spec declares. -/
def Declares (spec : WorkflowSpec) : Lookup → Prop
  | .step id => (spec.step? id).isSome
  | .role name => (lookup spec.agents name).isSome
  | .schema name => (lookup spec.outputSchemas name).isSome
  | .input name => (lookup spec.inputs name).isSome
  | .output step field => ∃ schema, spec.schemaOf? step = some schema ∧ (lookup schema field).isSome
  | .context group field => field ∈ group.fields

/-- `resolveRef`. -/
def refLookups (ref : TemplateRef) : List Lookup :=
  match ref.kind with
  | .input name => [.input name]
  | .stepOutput step field => [.step step, .output step field]
  | .context group field => [.context group field]
  | .round | .pause => []

/-- `renderWorkspaceKey`: a literal key looks nothing up. -/
def keyLookups (template : Option String) : List Lookup :=
  match template with
  | none => []
  | some t => if hasOpenPair t.toList then (singleInputRef t).toList.map .input else []

/-- `evaluateCondition`, on the output of the edge's source. -/
def conditionLookups (source : String) (condition : Option Condition) : List Lookup :=
  match condition.bind (fun c => parseConditionPath c.path) with
  | some (.output key) => [.output source key]
  | _ => []

/-- An outgoing edge: its condition, and the step it leads to. -/
def edgeLookups (e : WorkflowEdge) : List Lookup :=
  conditionLookups e.fromStep e.condition ++ if isTerminalTarget e.target then [] else [.step e.target]

/-- Everything that is looked up while a step is the current one: its request, its output, its routing. -/
def lookupsAt (spec : WorkflowSpec) (id : String) : List Lookup :=
  .step id :: (spec.step? id).toList.flatMap (fun s =>
    .role s.agentRole :: .schema s.outputSchema ::
      ((parseTemplateReferences s.promptTemplate).refs.flatMap refLookups ++ keyLookups s.workspaceKeyTemplate))
  ++ (spec.edges.filter (fun e => e.fromStep = id)).flatMap edgeLookups

/-! ## Declared names -/

section

variable {j : Json}

theorem declared_step (h : ValidSpec j) {id : String} (hid : id ∈ specStepIds j) :
    ((WorkflowSpec.ofJson j).step? id).isSome := by
  obtain ⟨s, hs, rfl⟩ := h.mem_stepIds.mp hid
  rw [h.step?_of_mem hs]
  rfl

theorem declared_role (h : ValidSpec j) {s : AgentTaskStep} (hs : s ∈ (WorkflowSpec.ofJson j).steps) :
    (lookup (WorkflowSpec.ofJson j).agents s.agentRole).isSome := by
  obtain ⟨raw, -, rfl, -, -, p, hbody⟩ := h.step_of_mem hs
  simp only [stepBodyIssues, List.append_eq_nil_iff, errIf_nil, Bool.not_eq_false'] at hbody
  obtain ⟨role, hrole, hdecl⟩ := strOk_get hbody.1.1.1.1.1.1.1.1.1.1.1.1.2
  rw [show (AgentTaskStep.ofJson raw).agentRole = role from strField_of hrole]
  have hmem : role ∈ agentRoles (j.get? "agents") := List.contains_iff_mem.mp hdecl
  unfold agentRoles at hmem
  split at hmem
  · exact nomatch hmem
  · show (lookup (members WorkflowAgentRole.ofJson (j.get? "agents")) role).isSome
    rw [members, lookup_map, Option.isSome_map]
    exact (lookup_isSome_iff _ role).mpr hmem

/-- The inputs the validator knows are the declared ones. -/
theorem declared_input {name : String} (h : name ∈ (inputTypes (j.get? "inputs")).map Prod.fst) :
    (lookup (WorkflowSpec.ofJson j).inputs name).isSome := by
  show (lookup (members WorkflowInputDef.ofJson (j.get? "inputs")) name).isSome
  rw [members, lookup_map, Option.isSome_map, lookup_isSome_iff]
  obtain ⟨⟨name', t⟩, hmem, rfl⟩ := List.mem_map.mp h
  obtain ⟨⟨k, def_⟩, hkv, hsome⟩ := List.mem_filterMap.mp hmem
  split at hsome
  · obtain ⟨t', -, heq⟩ := Option.map_eq_some_iff.mp hsome
    rw [← (Prod.mk.inj heq).1]
    exact List.mem_map_of_mem hkv
  · cases hsome

/-- The fields the validator knows of a step's output are those of its schema. -/
theorem declared_fields (h : ValidSpec j) {id : String} (hid : id ∈ specStepIds j) :
    ∃ fields, (lookup (specStepSchema j) id).bind (lookup (schemaFields (j.get? "output_schemas"))) = some fields ∧
      ∀ f ∈ fields, Declares (WorkflowSpec.ofJson j) (.output id f) := by
  obtain ⟨s, hs, rfl⟩ := h.mem_stepIds.mp hid
  obtain ⟨hname, schema, hschema⟩ := h.step_schema hs
  have htyped : (lookup ((j.get? "output_schemas").getD .null).fields s.outputSchema).map OutputSchema.ofJson
      = some schema := by
    rw [← lookup_map]
    exact hschema
  obtain ⟨sdef, hsdef, rfl⟩ := Option.map_eq_some_iff.mp htyped
  refine ⟨(schemaFieldsOf sdef).map Prod.fst, ?_, ?_⟩
  · rw [hname, Option.bind_some]
    show lookup (((j.get? "output_schemas").getD .null).fields.map
      (fun kv => (kv.1, (schemaFieldsOf kv.2).map Prod.fst))) s.outputSchema = _
    rw [lookup_map (fun v => (schemaFieldsOf v).map Prod.fst), hsdef]
    rfl
  · intro f hf
    refine ⟨OutputSchema.ofJson sdef, ?_, ?_⟩
    · unfold WorkflowSpec.schemaOf?
      rw [h.step?_of_mem hs, Option.bind_some, hschema]
    · show (lookup ((schemaFieldsOf sdef).map (fun kv => (kv.1, SchemaField.ofJson kv.2))) f).isSome
      rw [lookup_map, Option.isSome_map]
      exact (lookup_isSome_iff _ f).mpr hf

theorem ref_declared (h : ValidSpec j) {path : String} {pause : Bool} {current : Option String} {ref : TemplateRef}
    (hclean : checkPromptRef (specTemplateScope j) path current pause ref = []) :
    ∀ l ∈ refLookups ref, Declares (WorkflowSpec.ofJson j) l := by
  intro l hl
  unfold refLookups at hl
  unfold checkPromptRef at hclean
  cases hkind : ref.kind with
  | round =>
    rw [hkind] at hl
    exact nomatch hl
  | pause =>
    rw [hkind] at hl
    exact nomatch hl
  | input name =>
    rw [hkind] at hl hclean
    simp only [errIf_nil, Bool.not_eq_false', List.contains_iff_mem] at hclean
    rw [List.mem_singleton.mp hl]
    exact declared_input hclean
  | context group field =>
    rw [hkind] at hl hclean
    simp only [errIf_nil, Bool.not_eq_false', List.contains_iff_mem] at hclean
    rw [List.mem_singleton.mp hl]
    exact hclean
  | stepOutput step field =>
    rw [hkind] at hl hclean
    simp only at hclean
    split at hclean
    · exact absurd hclean err_ne_nil
    · rename_i hstep
      have hid : step ∈ specStepIds j := by
        rw [Bool.not_eq_true, Bool.not_eq_false'] at hstep
        exact List.contains_iff_mem.mp hstep
      obtain ⟨fields, hfields, hdecl⟩ := declared_fields h hid
      have hfield := (List.append_eq_nil_iff.mp hclean).1
      rw [show (lookup (specTemplateScope j).schemaOfStep step).bind (lookup (specTemplateScope j).schemaFields)
        = some fields from hfields] at hfield
      simp only [errIf_nil, Bool.not_eq_false', List.contains_iff_mem] at hfield
      rcases List.mem_cons.mp hl with rfl | hl
      · exact declared_step h hid
      · rw [List.mem_singleton.mp hl]
        exact hdecl field hfield

theorem key_declared {path wk : String} (hclean : validateWorkspaceKey (specTemplateScope j).inputTypes path wk = []) :
    ∀ l ∈ keyLookups (some wk), Declares (WorkflowSpec.ofJson j) l := by
  intro l hl
  unfold keyLookups at hl
  simp only at hl
  split at hl
  · rename_i hopen
    obtain ⟨name, hname, rfl⟩ := List.mem_map.mp hl
    have hsingle : singleInputRef wk = some name := Option.mem_toList.mp hname
    unfold validateWorkspaceKey at hclean
    simp only [hopen, Bool.not_true, Bool.false_eq_true, if_false, hsingle, List.append_eq_nil_iff] at hclean
    obtain ⟨-, hclean⟩ := hclean
    split at hclean
    · exact absurd hclean err_ne_nil
    · rename_i t htype
      have htype : lookup (inputTypes (j.get? "inputs")) name = some t := htype
      refine declared_input ((lookup_isSome_iff _ name).mp ?_)
      rw [htype]
      rfl
  · exact nomatch hl

theorem edge_declared (h : ValidSpec j) {e : WorkflowEdge} (he : e ∈ (WorkflowSpec.ofJson j).edges) :
    ∀ l ∈ edgeLookups e, Declares (WorkflowSpec.ofJson j) l := by
  obtain ⟨raw, hraw, rfl⟩ := List.mem_map.mp he
  obtain ⟨-, hfrom, hsource, -, htarget, -, p, hcond⟩ := h.edge_of_raw hraw
  intro l hl
  rcases List.mem_append.mp hl with hl | hl
  · unfold conditionLookups at hl
    split at hl
    · rename_i key hpath
      rw [List.mem_singleton.mp hl]
      obtain ⟨c, hc, hpath⟩ := Option.bind_eq_some_iff.mp hpath
      obtain ⟨cond, hget, rfl⟩ := Option.map_eq_some_iff.mp hc
      have hread : (strField? cond "path").bind parseConditionPath = some (.output key) := by
        have hpath : parseConditionPath ((strField? cond "path").getD "") = some (.output key) := hpath
        cases hp : strField? cond "path" with
        | none =>
          rw [hp] at hpath
          exact absurd (hpath.symm.trans (show parseConditionPath "" = none by decide)) nofun
        | some path =>
          rw [hp] at hpath
          exact hpath
      unfold edgeConditionIssues at hcond
      simp only [hget, List.append_eq_nil_iff] at hcond
      obtain ⟨hshape, hfield⟩ := hcond
      cases hcodes : checkConditionShape cond with
      | cons code codes =>
        rw [hcodes] at hshape
        exact absurd (List.flatMap_eq_nil_iff.mp hshape code List.mem_cons_self) err_ne_nil
      | nil =>
        obtain ⟨fields, hfields, hdecl⟩ := declared_fields h hsource
        simp only [hcodes, hfrom, hread, hfields, errIf_nil, Bool.not_eq_false', List.contains_iff_mem] at hfield
        exact hdecl key hfield
    · exact nomatch hl
  · split at hl
    · exact nomatch hl
    · rename_i hstep
      rw [List.mem_singleton.mp hl]
      exact declared_step h (htarget.resolve_left hstep)

theorem declared_schema (h : ValidSpec j) {id : String} (hid : id ∈ specStepIds j) :
    ((WorkflowSpec.ofJson j).schemaOf? id).isSome := by
  obtain ⟨s, hs, rfl⟩ := h.mem_stepIds.mp hid
  obtain ⟨-, schema, hschema⟩ := h.step_schema hs
  unfold WorkflowSpec.schemaOf?
  rw [h.step?_of_mem hs, Option.bind_some, hschema]
  rfl

/-- **Every lookup of a declared step is of a declared name.** -/
theorem lookups_declared (h : ValidSpec j) {id : String} (hid : id ∈ specStepIds j) :
    ∀ l ∈ lookupsAt (WorkflowSpec.ofJson j) id, Declares (WorkflowSpec.ofJson j) l := by
  obtain ⟨s, hs, rfl⟩ := h.mem_stepIds.mp hid
  intro l hl
  unfold lookupsAt at hl
  rw [h.step?_of_mem hs] at hl
  obtain ⟨-, ⟨path, pause, hrefs⟩, hkeys⟩ := step_templates h hs
  rcases List.mem_append.mp hl with hfirst | hedges
  · rcases List.mem_cons.mp hfirst with rfl | hrequest
    · exact declared_step h hid
    · obtain ⟨s', hs', hnames⟩ := List.mem_flatMap.mp hrequest
      rw [List.mem_singleton.mp hs'] at hnames
      rcases List.mem_cons.mp hnames with rfl | hnames'
      · exact declared_role h hs
      · rcases List.mem_cons.mp hnames' with rfl | htemplates
        · obtain ⟨-, schema, hschema⟩ := h.step_schema hs
          exact Option.isSome_iff_exists.mpr ⟨schema, hschema⟩
        · rcases List.mem_append.mp htemplates with hprompt | hkey
          · obtain ⟨ref, href, hmem⟩ := List.mem_flatMap.mp hprompt
            exact ref_declared h (hrefs ref href) l hmem
          · cases hwk : s.workspaceKeyTemplate with
            | none =>
              rw [hwk] at hkey
              exact nomatch hkey
            | some wk =>
              obtain ⟨path', hclean⟩ := hkeys wk hwk
              rw [hwk] at hkey
              exact key_declared hclean l hkey
  · obtain ⟨e, he, hmem⟩ := List.mem_flatMap.mp hedges
    exact edge_declared h (List.mem_filter.mp he).1 l hmem

end

/-! ## Runs -/

/-- An accepted prompt is never refused for its references. -/
theorem prompt_references {template : String} (h : (parseTemplateReferences template).errors = []) {scope : RenderScope}
    {e : RenderError} (hr : renderPrompt template scope = .error e) : e.code ≠ .badReference := by
  unfold renderPrompt at hr
  simp only [h] at hr
  split at hr
  · rename_i e' hsub
    rw [← Except.error.inj hr, substitute_missing_code hsub]
    exact nofun
  · split at hr
    · rw [← Except.error.inj hr]
      exact nofun
    · exact nomatch hr

/-- An output that is stored is an object. -/
theorem parsed_object {cfg : Config} {text stepId : String} {output : Json}
    (h : parseResultOutput cfg text stepId = .ok output) : output.isObj = true := by
  have hobject : ∀ {j : Json}, parseSingleJsonObject cfg.jsonParse text maxAgentOutputBytes = .ok j →
      j.isObj = true := by
    intro j hj
    unfold parseSingleJsonObject at hj
    split at hj
    · cases hj
    split at hj
    · cases hj
    obtain ⟨bare, -, hread⟩ := bind_ok_iff.mp hj
    unfold readObject at hread
    split at hread
    · cases hread
    split at hread
    · cases hread
    split at hread
    · rename_i hobj
      rw [← Except.ok.inj hread]
      exact hobj
    · cases hread
  unfold parseResultOutput at h
  split at h
  · cases h
  · rename_i j hj
    split at h
    · cases h
    · rename_i v hv
      rw [← Except.ok.inj h, (validateAgainstSchema_ok hv).1]
      exact hobject hj

/-- Every completed execution left an object. -/
def Outputs (O : Owned) : Prop := ∀ r ∈ O.steps, r.status = .completed → (outputObject r).isSome

section

variable {cfg : Config} {w w' : World}

theorem Outputs.start {O : Owned} (h : Outputs O) (k : StepKey) :
    ∀ r ∈ O.steps ++ [StepRow.fresh k], r.status = .completed → (outputObject r).isSome := by
  intro r hr hc
  rcases mem_snoc.mp hr with hr | rfl
  · exact h r hr hc
  · exact nomatch hc

/-- **A write of the pump's own data**: what completes an execution is a parsed output. -/
theorem Outputs.ownedStep {op : Op} {O' : Owned} (hj : Justified cfg op w) (hs : OwnedStep op (owned w.db) O')
    (h : Outputs (owned w.db)) : Outputs O' := by
  generalize hO : owned w.db = O at hs h
  cases hs with
  | same => exact h
  | started _ => exact h.start _
  | advanced _ => exact h.start _
  | stalled _ => exact h
  | @bound k taskId ev _ row hrow hfree =>
    intro r hr hc
    obtain ⟨r₀, hr₀, rfl⟩ := List.mem_map.mp hr
    split at hc
    · rename_i hk
      rw [if_pos hk]
      exact h r₀ hr₀ hc
    · rename_i hk
      rw [if_neg hk]
      exact h r₀ hr₀ hc
  | @completed k output context ev _ row hrow hlive =>
    obtain ⟨t, read, -, -, -, -, hparse, -⟩ := hj
    have hobj := parsed_object hparse
    intro r hr hc
    obtain ⟨r₀, hr₀, rfl⟩ := List.mem_map.mp hr
    split at hc
    · rename_i hk
      rw [if_pos hk]
      cases output with
      | obj kvs => rfl
      | _ => exact nomatch hobj
    · rename_i hk
      rw [if_neg hk]
      exact h r₀ hr₀ hc

theorem outputs_move {s : Sys} {a : Action} (hinv : SysInv cfg s) (hm : Move cfg s a w')
    (h : Outputs (owned s.w.db)) : Outputs (owned w'.db) := by
  rcases hm.call_or_env with ⟨_, _, op, r, -, hop, hg, hex⟩ | henv
  · have hs := (exec_effect hex).owned hinv.core.keys
    rcases hg with hj | hg
    · exact h.ownedStep hj hs
    · rw [ApiGuard.owned hg hs]
      exact h
  · rw [henv.db]
    exact h

theorem reach_outputs {ok : Sys → Action → Prop} {s : Sys} (h : Reach cfg ok s) : Outputs (owned s.w.db) :=
  reach_world (P := fun w => Outputs (owned w.db)) (fun _ hr => absurd hr List.not_mem_nil)
    (fun _ _ _ hinv _ hm hP => outputs_move hinv hm hP) h

/-- The reason a failure event names. -/
def eventReason (ev : WorkflowEvent) : Option Json := ev.payload.get? "reason"

theorem reason_ne {ev : WorkflowEvent} (reason : String) (h : eventReason ev = some (.str reason))
    (hstep : reason ≠ "unknown_step_or_role") (hout : reason ≠ "missing_step_output") :
    eventReason ev ≠ some (.str "unknown_step_or_role") ∧ eventReason ev ≠ some (.str "missing_step_output") := by
  rw [h]
  exact ⟨fun heq => hstep (Json.str.inj (Option.some.inj heq)), fun heq => hout (Json.str.inj (Option.some.inj heq))⟩

/-- A completion decision names its own reasons. -/
theorem completion_reason {policy : CompletionPolicy} {e : VerifiedEvidence} {remaining : Option (List Json)} :
    eventReason (completionEvent (evaluateCompletion policy e remaining)) ≠ some (.str "unknown_step_or_role") ∧
      eventReason (completionEvent (evaluateCompletion policy e remaining)) ≠ some (.str "missing_step_output") := by
  unfold evaluateCompletion
  split
  · exact reason_ne "evidence_conflict_task_status" rfl (by decide) (by decide)
  · split
    · exact reason_ne "evidence_conflict_nonzero_exit" rfl (by decide) (by decide)
    · split
      · exact reason_ne "evidence_conflict_tests_failed" rfl (by decide) (by decide)
      · split
        · exact ⟨nofun, nofun⟩
        · exact reason_ne "verification_required" rfl (by decide) (by decide)

/-- A declared step has its role. -/
theorem stepAndRole_declared (hv : ValidSpec cfg.rawSpec) {k : StepKey} (hk : k.stepId ∈ specStepIds cfg.rawSpec) :
    stepAndRole cfg.spec k ≠ none := by
  obtain ⟨st, hst, hid⟩ := hv.mem_stepIds.mp hk
  obtain ⟨role, hrole⟩ := Option.isSome_iff_exists.mp (declared_role hv hst)
  have hfound : cfg.spec.step? k.stepId = some st := by
    rw [← hid]
    exact hv.step?_of_mem hst
  unfold stepAndRole
  rw [hfound, Option.bind_some, show lookup cfg.spec.agents st.agentRole = some role from hrole]
  exact nofun

/-- An event that ends a workflow of an accepted spec names neither of the internal failures. -/
theorem EndReason.reason (hv : ValidSpec cfg.rawSpec) (hload : cfg.loaded.isSome)
    (hcur : ((owned w.db).cur cfg).stepId ∈ specStepIds cfg.rawSpec) (hout : Outputs (owned w.db))
    {status : WorkflowStatus} {edge : Option WorkflowEvent} {ev : WorkflowEvent} (h : EndReason cfg w status edge ev)
    (hfailed : ev.type = .workflowFailed) :
    eventReason ev ≠ some (.str "unknown_step_or_role") ∧ eventReason ev ≠ some (.str "missing_step_output") := by
  cases h with
  | badSpec hnone =>
    rw [hnone] at hload
    exact nomatch hload
  | unknownStep hat hstep =>
    obtain ⟨row, hat, -, -⟩ := hat
    rw [hat.cur] at hcur
    exact absurd hstep (stepAndRole_declared hv hcur)
  | @noOutput k row hat hc ho =>
    obtain ⟨hmem, -⟩ := Owned.step?_mem hat.row
    have hsome := hout row hmem hc
    rw [ho] at hsome
    exact nomatch hsome
  | deadline _ => exact ⟨by decide, by decide⟩
  | maxTasks _ _ => exact ⟨by decide, by decide⟩
  | maxRounds _ _ _ _ => exact ⟨by decide, by decide⟩
  | @rejected k _ => exact reason_ne "approval_rejected" rfl (by decide) (by decide)
  | render _ _ _ _ => exact reason_ne "render_error" rfl (by decide) (by decide)
  | createFailed _ => exact reason_ne "task_create_failed" rfl (by decide) (by decide)
  | @routing k output e _ _ =>
    cases hcode : e.code with
    | noEdge => exact reason_ne "routing_no_edge" rfl (by decide) (by decide)
    | ambiguous => exact reason_ne "routing_ambiguous" rfl (by decide) (by decide)
  | @routed k output d _ _ _ =>
    rcases terminalTarget_cases d.target with hs | hs | hs
    · rw [hs] at hfailed
      exact nomatch hfailed
    · rw [hs]
      exact ⟨nofun, nofun⟩
    · rw [hs] at hfailed
      exact nomatch hfailed
  | @gated k row output d policy e _ _ _ _ _ _ => exact completion_reason
  | resultMissing _ _ _ hev => exact nomatch hev.symm.trans hfailed
  | resultTimeout _ _ _ hev => exact nomatch hev.symm.trans hfailed
  | noProgress _ _ _ _ hev => exact nomatch hev.symm.trans hfailed
  | revisionConflict _ hev => exact nomatch hev.symm.trans hfailed

end

/-- **A run of an accepted spec finds every name it looks up.**  In every reachable state the lookups of the
    current step, of every step that has an execution and of every step of the spec are of declared names; a
    completed execution has its output object; no thread is about to fail the workflow for an unknown step or a
    missing output; a result is parsed against a schema that is there, an edge leads to a step that is there; and
    no prompt is refused for its references. -/
theorem run_lookups_resolve {cfg : Config} (hvalid : (validateWorkflowSpec cfg.rawSpec).valid = true)
    {ok : Sys → Action → Prop} {s : Sys} (h : Reach cfg ok s) :
    (∀ l ∈ lookupsAt cfg.spec (currentKey cfg.spec s.w.db.wf).stepId, Declares cfg.spec l) ∧
    (∀ r ∈ s.w.db.steps, (∀ l ∈ lookupsAt cfg.spec r.key.stepId, Declares cfg.spec l) ∧
      (r.status = .completed → (outputObject r).isSome)) ∧
    (∀ who status edge ev, s.nextOp who = some (.terminalize status edge ev) →
      ∀ k, ev ≠ unknownStepEvent k ∧ ev ≠ missingOutputEvent k) ∧
    (∀ who k output revision context ev, s.nextOp who = some (.completeStep k output revision context ev) →
      (cfg.spec.schemaOf? k.stepId).isSome) ∧
    (∀ who k stepEv ev error, s.nextOp who = some (.failStepAndWorkflow k stepEv ev error) →
      (cfg.spec.schemaOf? k.stepId).isSome) ∧
    (∀ who edgeEv roundEv next startedEv, s.nextOp who = some (.advance edgeEv roundEv next startedEv) →
      (cfg.spec.step? next.stepId).isSome) ∧
    (∀ step ∈ cfg.spec.steps, (∀ l ∈ lookupsAt cfg.spec step.id, Declares cfg.spec l) ∧
      ∀ scope e, renderPrompt step.promptTemplate scope = .error e → e.code ≠ .badReference) := by
  have hv := ValidSpec.of_valid hvalid
  have hload : cfg.loaded.isSome := by
    rw [cfg.loaded_eq, loadSpec, if_pos hvalid]
    rfl
  have hinv := reach_inv h
  obtain ⟨rank, hrank⟩ := hv.normal_edges_rank
  have hplaced := reach_placed hv hrank h
  have hout := reach_outputs h
  have hcurrent : ∀ k, (owned s.w.db).cur cfg = k → (cfg.spec.schemaOf? k.stepId).isSome := by
    intro k hk
    exact declared_schema hv (hk ▸ hplaced.step)
  have hown : ∀ who op, s.nextOp who = some op → Justified cfg op s.w ∨ ApiGuard cfg op s.w :=
    fun who op hop => nextOp_guard hinv hop
  refine ⟨lookups_declared hv hplaced.step, ?_, ?_, ?_, ?_, ?_, ?_⟩
  · intro r hr
    have hmem : maskRow r ∈ (owned s.w.db).steps := List.mem_map_of_mem hr
    refine ⟨lookups_declared hv (hplaced.rows _ hmem).1, fun hc => ?_⟩
    exact hout (maskRow r) hmem ((maskRow_completed r).mpr hc)
  · intro who status edge ev hop k
    rcases hown who _ hop with hj | hg
    · have hreason := fun hfailed => EndReason.reason hv hload hplaced.step hout hj hfailed
      constructor
      · rintro rfl
        exact (hreason rfl).1 rfl
      · rintro rfl
        exact (hreason rfl).2 rfl
    · exact absurd hg id
  · intro who k output revision context ev hop
    rcases hown who _ hop with ⟨t, r, ⟨row, hat, -, -⟩, -⟩ | hg
    · exact hcurrent k hat.cur
    · exact absurd hg id
  · intro who k stepEv ev error hop
    rcases hown who _ hop with ⟨⟨t, ⟨row, hat, -, -⟩, -⟩, -⟩ | hg
    · exact hcurrent k hat.cur
    · exact absurd hg id
  · intro who edgeEv roundEv next startedEv hop
    rcases hown who _ hop with ⟨k, output, d, hrouted, hstep, -, -, -, rfl, -⟩ | hg
    · exact declared_step hv (edge_target hv hrouted.edge hstep).1
    · exact absurd hg id
  · intro step hstep
    refine ⟨lookups_declared hv (hv.mem_stepIds.mpr ⟨step, hstep, rfl⟩), ?_⟩
    intro scope e hr
    exact prompt_references (step_templates hv hstep).1 hr

/-- The pump is about to store an output. -/
def storesOutput (s : Sys) : Bool :=
  match s.nextOp .pump with
  | some (.completeStep _ _ _ _ _) => true
  | _ => false

/-- The run of a one-step workflow, about to store its output: the step, its role and its schema are there. -/
theorem oneStep_resolves : ∃ s, Reach oneStep anyStep s ∧
    (∃ k output revision context ev, s.nextOp .pump = some (.completeStep k output revision context ev) ∧
      (oneStep.spec.schemaOf? k.stepId).isSome) ∧
    lookupsAt oneStep.spec (currentKey oneStep.spec s.w.db.wf).stepId = [.step "a", .role "r", .schema "s"] ∧
    ∀ l ∈ lookupsAt oneStep.spec (currentKey oneStep.spec s.w.db.wf).stepId, Declares oneStep.spec l := by
  obtain ⟨s, hs, hP⟩ := reach_exists oneStep anyStep (fun _ _ => true) (fun _ _ _ => trivial)
    (startActions ++ renderActions ++ bindActions ++ resultActions.dropLast.dropLast)
    (fun s => storesOutput s &&
      decide (lookupsAt oneStep.spec (currentKey oneStep.spec s.w.db.wf).stepId = [.step "a", .role "r", .schema "s"]))
    (by decide +kernel)
  have hrun := run_lookups_resolve (by decide +kernel) hs
  obtain ⟨hop, hlookups⟩ := Bool.and_eq_true_iff.mp hP
  refine ⟨s, hs, ?_, of_decide_eq_true hlookups, hrun.1⟩
  unfold storesOutput at hop
  split at hop
  · rename_i k output revision context ev heq
    exact ⟨k, output, revision, context, ev, heq, hrun.2.2.2.1 _ _ _ _ _ _ heq⟩
  · cases hop

end VibeRuntime
