import VibeWorkflow.RuntimeProofs
import VibeWorkflow.StaticRoutingProofs

/-!
# Walks through an accepted spec, and which step outputs a prompt can count on

A walk is what a run does to the graph: complete the current step with an output its schema
accepts, let `selectEdge` pick the edge, and follow it.  The validator lets a prompt reference
a step's output when that step dominates the referencing one in the graph without its loop
edges.  A walk also takes loop edges, and a loop edge need not lead back.

* **`walk_outputs_available`** — along walks whose loop edges land only where every strict
  dominator of the target has completed, each referenced output is there.
* **`forwardLoop_misses_output`** — an accepted spec and a walk that takes a loop edge forward,
  past the referenced step.
-/

namespace VibeWalk

open VibeJson VibeContract VibeRouting VibeTemplate VibeValidator GraphSearch

/-- A completed step execution with its accepted output. -/
structure Completed where
  stepId : String
  round : Nat
  output : Json
deriving DecidableEq

/-- Where a run stands: the completed executions in order, and the step to run next. -/
structure Walk where
  done : List Completed
  current : String
  round : Nat
deriving DecidableEq

/-- A run starts at the entry step in round one. -/
def Walk.start (spec : WorkflowSpec) : Walk := ⟨[], spec.entryStep, 1⟩

/-- The step and round an output leads to, when routing picks a step the limits allow.  Taking
    a loop edge enters the next round. -/
def follow (spec : WorkflowSpec) (stepId : String) (round : Nat) (output : Json) :
    Option (WorkflowEdge × Nat) :=
  match selectEdge spec stepId output round with
  | .error _ => none
  | .ok d =>
    if d.terminal then none
    else if d.edgeKind = .loop ∧ ¬ canTakeLoopEdge round (spec.limits.maxRounds.getD 0) then none
    else some (⟨stepId, d.target, none, d.edgeKind⟩,
      if d.edgeKind = .loop then round + 1 else round)

/-- The outputs a prompt is rendered against: every completed execution that has an object. -/
def Walk.stepOutputs (w : Walk) : List (String × Json) :=
  w.done.filterMap (fun c => if c.output.isObj then some (c.stepId, c.output) else none)

/-- The render scope of the current step, for the inputs, context and answer at hand. -/
def Walk.scope (w : Walk) (inputs : List (String × Json)) (context : ContextGroup → Option Json)
    (pauseResponse : Option String) : RenderScope :=
  { inputs := inputs, stepOutputs := w.stepOutputs, round := w.round, context := context,
    pauseResponse := pauseResponse }

/-- One step of a run: the current step completes with an object its schema accepts, and the
    edge its output selects is followed. -/
structure WalkStep (spec : WorkflowSpec) (w w' : Walk) where
  output : Json
  edge : WorkflowEdge
  schema : OutputSchema
  isObject : output.isObj = true
  declared : spec.schemaOf? w.current = some schema
  accepted : validateAgainstSchema output schema = .ok output
  followed : follow spec w.current w.round output = some (edge, w'.round)
  next : w'.current = edge.target
  done : w'.done = w.done ++ [⟨w.current, w.round, output⟩]

/-- Has a step completed? -/
def Walk.completed (w : Walk) (id : String) : Prop := ∃ c ∈ w.done, c.stepId = id

/-- The strict dominators of a step in the graph without loop edges, as the validator computes
    them. -/
def strictDominators (j : Json) (id : String) : List String :=
  (dominatorsOf (j.get? "edges") (specStepIds j) (WorkflowSpec.ofJson j).entryStep id).filter
    (fun d => d ≠ id)

/-- A loop edge lands where nothing is missing: the target's strict dominators have all
    completed. -/
def LandsReady (j : Json) {w w' : Walk} (st : WalkStep (WorkflowSpec.ofJson j) w w') : Prop :=
  st.edge.kind = .loop → ∀ d ∈ strictDominators j w'.current, w'.completed d

/-- Runs whose loop edges all land ready. -/
def ReadyRun (j : Json) : Walk → Walk → Prop :=
  Relation.ReflTransGen (fun w w' => ∃ st : WalkStep (WorkflowSpec.ofJson j) w w', LandsReady j st)

/-! ## The runtime's walk -/

section

open VibeControl VibeRuntime

/-- The walk a store's step rows tell of, at the step to run next. -/
def walkOf (k : StepKey) (rows : List StepRow) : Walk where
  done := rows.filterMap fun r =>
    if r.status = .completed then r.output.map (⟨r.key.stepId, r.key.round, ·⟩) else none
  current := k.stepId
  round := k.round

/-- The outputs of that walk are the outputs of the completed rows. -/
theorem walkOf_stepOutputs (k : StepKey) (rows : List StepRow) :
    (walkOf k rows).stepOutputs = rows.filterMap completedOutput := by
  rw [Walk.stepOutputs, walkOf, List.filterMap_filterMap]
  refine List.filterMap_congr fun r _ => ?_
  unfold completedOutput
  split
  · cases r.output with
    | none => rfl
    | some o => cases o <;> rfl
  · rfl

/-- **A prompt is rendered against the scope of that walk.** -/
theorem renderScopeOf_walk (cfg : Config) (k : StepKey) (context : List (String × Json))
    (rows : List StepRow) (h : Option HumanRequestRow) :
    renderScopeOf cfg k context rows h =
      (walkOf k rows).scope cfg.inputs (fun g => lookup context g.name) (pauseResponse h) := by
  rw [Walk.scope, walkOf_stepOutputs]
  rfl

/-- **The edge a walk follows is the one the runtime takes**; before a loop edge it looks whether
    the run has stalled. -/
theorem routeAndAdvance_follow {cfg : Config} {spec : WorkflowSpec} {row : StepRow} {output : Json}
    (hobject : outputObject row = some output) {e : WorkflowEdge} {r : Nat}
    (hf : follow spec row.key.stepId row.key.round output = some (e, r)) :
    ∃ d, nextKey row.key d = ⟨e.target, r⟩ ∧
      (routeAndAdvance cfg spec row = takeEdge row.key d ∨
        e.kind = .loop ∧ ∃ policy, spec.stallPolicy = some policy ∧
          routeAndAdvance cfg spec row = do
            let stalled ← checkStall cfg policy row.key output
            if stalled then pure (some .ended) else takeEdge row.key d) := by
  unfold follow at hf
  split at hf
  · cases hf
  · rename_i d hselect
    split at hf
    · cases hf
    · rename_i hopen
      split at hf
      · cases hf
      · rename_i hround
        obtain ⟨rfl, rfl⟩ := Prod.mk.inj (Option.some.inj hf)
        refine ⟨d, rfl, ?_⟩
        unfold routeAndAdvance
        simp only [hobject, hselect, if_neg hopen]
        by_cases hloop : d.edgeKind = .loop
        · -- The round limit was looked at before: only a stall can still end the run.
          have htake : canTakeLoopEdge row.key.round (spec.limits.maxRounds.getD 0) = true := by
            by_contra hno
            exact hround ⟨hloop, hno⟩
          simp only [if_pos hloop, htake, Bool.not_true, Bool.false_eq_true, if_false]
          cases hpolicy : spec.stallPolicy with
          | none => exact .inl rfl
          | some policy => exact .inr ⟨hloop, policy, rfl, rfl⟩
        · exact .inl (if_neg hloop)

end

/-! ## One step -/

/-- A followed edge is a declared one, to a step. -/
theorem follow_edge {j : Json} (h : ValidSpec j) {id : String} {round r : Nat} {out : Json}
    {e : WorkflowEdge} (hf : follow (WorkflowSpec.ofJson j) id round out = some (e, r)) :
    ∃ e' ∈ (WorkflowSpec.ofJson j).edges, e'.fromStep = id ∧ e'.target = e.target ∧
      e'.kind = e.kind ∧ e.target ∈ specStepIds j := by
  unfold follow at hf
  split at hf
  · exact nomatch hf
  · rename_i d hsel
    obtain ⟨e', he', hfrom, rfl⟩ := selectEdge_ok_mem hsel
    split at hf
    · exact nomatch hf
    · rename_i hterm
      split at hf
      · exact nomatch hf
      · have he : e = ⟨id, e'.target, none, e'.kind⟩ :=
          (congrArg Prod.fst (Option.some.inj hf)).symm
        subst he
        exact ⟨e', he', hfrom, rfl, rfl, ((h.edge_of_mem he').2).resolve_left hterm⟩

/-- What holds of a walk at every step: it stands at a declared step whose strict dominators
    have completed, and every completed output was accepted. -/
structure Ready (j : Json) (w : Walk) : Prop where
  declared : w.current ∈ specStepIds j
  dominators : ∀ d ∈ strictDominators j w.current, w.completed d
  outputs : ∀ c ∈ w.done, c.output.isObj = true ∧
    ∃ schema, (WorkflowSpec.ofJson j).schemaOf? c.stepId = some schema ∧
      validateAgainstSchema c.output schema = .ok c.output

theorem ready_start {j : Json} (h : ValidSpec j) : Ready j (Walk.start (WorkflowSpec.ofJson j)) := by
  refine ⟨h.entry_mem, ?_, fun c hc => nomatch hc⟩
  intro d hd
  obtain ⟨hmem, hne⟩ := List.mem_filter.mp hd
  rw [show (Walk.start (WorkflowSpec.ofJson j)).current = (WorkflowSpec.ofJson j).entryStep from rfl,
    dominatorsOf, reachableSteps, computeDominators_entry (reachableFrom_nodup _ _ _)
      (entry_mem_reachableFrom _ _ _)] at hmem
  rw [List.mem_singleton.mp hmem] at hne
  exact absurd hne (by simp [Walk.start])

/-- **ONE STEP.**  Across a normal edge the target's strict dominators are the source or strict
    dominators of the source; across a loop edge they are what `LandsReady` asks for. -/
theorem ready_step {j : Json} (h : ValidSpec j) {w w' : Walk} (hw : Ready j w)
    (st : WalkStep (WorkflowSpec.ofJson j) w w') (hready : LandsReady j st) : Ready j w' := by
  obtain ⟨e, he, hfrom, htarget, hkind, hin⟩ := follow_edge h st.followed
  have hnext : w'.current ∈ specStepIds j := by
    rw [st.next]
    exact hin
  refine ⟨hnext, ?_, ?_⟩
  · intro d hd
    cases hk : st.edge.kind with
    | loop => exact hready hk d hd
    | normal =>
      obtain ⟨hdom, hne⟩ := List.mem_filter.mp hd
      have hedge : (w.current, w'.current) ∈ normalAdj (j.get? "edges") (specStepIds j) := by
        refine h.mem_stepEdges.mpr ⟨e, he, hfrom, ?_, hnext, Or.inr (hkind.trans hk)⟩
        rw [htarget, st.next]
      have hcross := computeDominators_edge (reachableFrom_nodup _ _ _)
        (entry_mem_reachableFrom _ _ _) (h.step_marked hw.declared) (h.step_marked hnext)
        hedge hdom
      rcases hcross with rfl | hdom'
      · exact absurd hne (by simp)
      · rw [Walk.completed, st.done]
        by_cases hcur : d = w.current
        · exact ⟨⟨w.current, w.round, st.output⟩, by simp, hcur.symm⟩
        · obtain ⟨c, hc, hcd⟩ := hw.dominators d
            (List.mem_filter.mpr ⟨hdom', by simpa using hcur⟩)
          exact ⟨c, List.mem_append_left _ hc, hcd⟩
  · intro c hc
    rw [st.done] at hc
    rcases List.mem_append.mp hc with hc | hc
    · exact hw.outputs c hc
    · rw [List.mem_singleton.mp hc]
      exact ⟨st.isObject, st.schema, st.declared, st.accepted⟩

/-- **A WHOLE RUN.** -/
theorem ready_run {j : Json} (h : ValidSpec j) {w : Walk}
    (hrun : ReadyRun j (Walk.start (WorkflowSpec.ofJson j)) w) : Ready j w := by
  induction hrun with
  | refl => exact ready_start h
  | tail _ hlast ih =>
    obtain ⟨st, hready⟩ := hlast
    exact ready_step h ih st hready

/-! ## References -/

/-- The template checks of one step of an accepted spec. -/
theorem step_templates {j : Json} (h : ValidSpec j) {s : AgentTaskStep} (hs : s ∈ (WorkflowSpec.ofJson j).steps) :
    (parseTemplateReferences s.promptTemplate).errors = [] ∧
    (∃ path pause, ∀ ref ∈ (parseTemplateReferences s.promptTemplate).refs,
      checkPromptRef (specTemplateScope j) path (some s.id) pause ref = []) ∧
    ∀ wk, s.workspaceKeyTemplate = some wk →
      ∃ path, validateWorkspaceKey (specTemplateScope j).inputTypes path wk = [] := by
  obtain ⟨raw, hraw, rfl, hid, -, p, hbody⟩ := h.step_of_mem hs
  have hclean : ∀ (l : List Json) (i : Nat), templateIssues (specTemplateScope j) i l = [] →
      ∀ r ∈ l, ∃ q, stepTemplateIssues (specTemplateScope j) q r = [] := by
    intro l
    induction l with
    | nil => intro _ _ r hr; exact nomatch hr
    | cons r rest ih =>
      intro i hl r' hr'
      rw [templateIssues, List.append_eq_nil_iff] at hl
      rcases List.mem_cons.mp hr' with rfl | hr'
      · exact ⟨_, hl.1⟩
      · exact ih _ hl.2 r' hr'
  obtain ⟨q, hq⟩ := hclean _ 0 h.templates raw hraw
  simp only [stepBodyIssues, List.append_eq_nil_iff, errIf_nil, Bool.not_eq_false'] at hbody
  obtain ⟨template, htemplate, -⟩ := strOk_get hbody.1.1.1.1.1.1.1.1.1.2
  have htpl : (AgentTaskStep.ofJson raw).promptTemplate = template := strField_of htemplate
  simp only [stepTemplateIssues, htemplate, hid, List.append_eq_nil_iff] at hq
  obtain ⟨⟨herrors, hrefs⟩, hkey⟩ := hq
  rw [htpl]
  refine ⟨?_, ⟨_, _, List.flatMap_eq_nil_iff.mp hrefs⟩, ?_⟩
  · cases hcodes : (parseTemplateReferences template).errors with
    | nil => rfl
    | cons code codes =>
      rw [hcodes] at herrors
      exact absurd (List.flatMap_eq_nil_iff.mp herrors code List.mem_cons_self) err_ne_nil
  · intro wk hwk
    have hwk : strField? raw "workspace_key_template" = some wk := hwk
    rw [hwk] at hkey
    exact ⟨_, hkey⟩

/-- A step-output reference of an accepted template names a strict dominator of its step. -/
theorem reference_dominates {j : Json} (h : ValidSpec j) {s : AgentTaskStep}
    (hs : s ∈ (WorkflowSpec.ofJson j).steps) {ref : TemplateRef}
    (href : ref ∈ (parseTemplateReferences s.promptTemplate).refs) {x f : String}
    (hkind : ref.kind = .stepOutput x f) : x ∈ strictDominators j s.id := by
  obtain ⟨-, ⟨path, pause, hrefs⟩, -⟩ := step_templates h hs
  have hcheck := hrefs ref href
  simp only [checkPromptRef, hkind] at hcheck
  split at hcheck
  · exact absurd hcheck err_ne_nil
  · have havail := (List.append_eq_nil_iff.mp hcheck).2
    have hmem : s.id ∈ specStepIds j := h.mem_stepIds.mpr ⟨_, hs, rfl⟩
    have hmarked := h.step_marked hmem
    have hne : s.id ≠ "" := by
      intro he
      have hsafe := h.stepId_safe hmem
      rw [he] at hsafe
      exact absurd hsafe (by decide)
    have hreach : (specTemplateScope j).reachable
        = reachableSteps (j.get? "edges") (specStepIds j) (WorkflowSpec.ofJson j).entryStep := by
      simp only [specTemplateScope, h.specEntry_eq]
    have hdoms : (specTemplateScope j).doms
        = dominatorsOf (j.get? "edges") (specStepIds j) (WorkflowSpec.ofJson j).entryStep := by
      simp only [specTemplateScope, h.specEntry_eq]
    simp only [availabilityIssues, hreach, hdoms] at havail
    rw [if_pos ⟨hne, List.contains_iff_mem.mpr hmarked⟩] at havail
    split at havail
    · exact absurd havail err_ne_nil
    · rename_i hself
      rw [errIf_nil, Bool.not_eq_false', List.contains_iff_mem] at havail
      exact List.mem_filter.mpr ⟨havail, by simpa using hself⟩

/-- The recorded output of a completed step is one of its accepted outputs. -/
theorem lookup_stepOutputs {j : Json} {w : Walk} (hw : Ready j w) {x : String}
    (hx : w.completed x) :
    ∃ out, lookup w.stepOutputs x = some out ∧
      ∃ schema, (WorkflowSpec.ofJson j).schemaOf? x = some schema ∧
        validateAgainstSchema out schema = .ok out := by
  obtain ⟨c, hc, rfl⟩ := hx
  have hmem : (c.stepId, c.output) ∈ w.stepOutputs :=
    List.mem_filterMap.mpr ⟨c, hc, by rw [if_pos (hw.outputs c hc).1]⟩
  obtain ⟨out, hout⟩ := Option.isSome_iff_exists.mp
    ((lookup_isSome_iff w.stepOutputs c.stepId).mpr (List.mem_map.mpr ⟨_, hmem, rfl⟩))
  refine ⟨out, hout, ?_⟩
  obtain ⟨c', hc', hsome⟩ := List.mem_filterMap.mp (lookup_mem hout)
  rw [if_pos (hw.outputs c' hc').1] at hsome
  have hpair := Option.some.inj hsome
  have hid : c'.stepId = c.stepId := congrArg Prod.fst hpair
  have hval : c'.output = out := congrArg Prod.snd hpair
  obtain ⟨-, schema, hschema, hacc⟩ := hw.outputs c' hc'
  rw [hid] at hschema
  rw [hval] at hacc
  exact ⟨schema, hschema, hacc⟩

/-- **OUTPUTS A PROMPT CAN COUNT ON.**  In every run of an accepted spec whose loop edges land
    ready, each `steps.X.output.f` reference of the current step's template finds a completed
    execution of `X`; rendering does not miss it, and finds a value when `f` is required. -/
theorem walk_outputs_available {j : Json} (hv : (validateWorkflowSpec j).valid = true) {w : Walk}
    (hrun : ReadyRun j (Walk.start (WorkflowSpec.ofJson j)) w) {s : AgentTaskStep}
    (hs : s ∈ (WorkflowSpec.ofJson j).steps) (hcur : s.id = w.current) {ref : TemplateRef}
    (href : ref ∈ (parseTemplateReferences s.promptTemplate).refs) {x f : String}
    (hkind : ref.kind = .stepOutput x f) (inputs : List (String × Json))
    (context : ContextGroup → Option Json) (pauseResponse : Option String) :
    w.completed x ∧
    (resolveRef ref.kind (w.scope inputs context pauseResponse)).2 = false ∧
    (∀ schema fd, (WorkflowSpec.ofJson j).schemaOf? x = some schema → lookup schema f = some fd →
      fd.required = true →
      ∃ v, resolveRef ref.kind (w.scope inputs context pauseResponse) = (.value v, false)) := by
  have h := ValidSpec.of_valid hv
  have hw := ready_run h hrun
  have hdom := reference_dominates h hs href hkind
  rw [hcur] at hdom
  have hx := hw.dominators x hdom
  obtain ⟨out, hout, schema, hschema, hacc⟩ := lookup_stepOutputs hw hx
  have hread : readProp (w.scope inputs context pauseResponse).stepOutputs x = .value out := by
    show readProp w.stepOutputs x = .value out
    rw [readProp, hout]
  refine ⟨hx, ?_, ?_⟩
  · rw [hkind, resolveRef, hread]
  · intro schema' fd hschema' hfd hreq
    rw [hschema] at hschema'
    rw [← Option.some.inj hschema'] at hfd
    obtain ⟨-, -, hfields, -⟩ := validateAgainstSchema_ok hacc
    obtain ⟨v, hget⟩ := fieldIssue_none_present (hfields (f, fd) (lookup_mem hfd)) hreq
    refine ⟨v, ?_⟩
    have hval : readProp out.fields f = .value v := by
      rw [readProp, show lookup out.fields f = some v from hget]
    rw [hkind, resolveRef, hread]
    simp only [hval]

/-! ## A loop edge that leads forward -/

/-- Step `a` routes one value to `b` and the other, by an edge marked as a loop, past `b` to
    `c`, whose prompt references the output of `b`, and which loops back to `a` or ends the run. -/
def forwardLoopSpec : Json :=
  .obj [("version", .str "1"), ("name", .str "w"), ("entry_step", .str "a"),
    ("agents", oneRole), ("output_schemas", enumSchemas),
    ("limits", smallLimits [("max_rounds", .num (.ofInt 3))]),
    ("steps", .arr [plainStep "a" "go", plainStep "b" "go",
      plainStep "c" "use \x7b\x7b steps.b.output.k \x7d\x7d"]),
    ("edges", .arr [enumEdge "a" "b" "normal" "x", enumEdge "a" "c" "loop" "y",
      plainEdge "b" "c", enumEdge "c" "a" "loop" "x", enumEdge "c" "$complete" "normal" "y"]), statusPolicy]

theorem forwardLoopSpec_valid : (validateWorkflowSpec forwardLoopSpec).valid = true := by
  decide +kernel

/-- An output of the shared schema. -/
def enumOutput (value : String) : Json := .obj [("k", .str value)]

/-- The walk after `a` completes with `y`: round two, at `c`, with only `a` done. -/
def skippedWalk : Walk := ⟨[⟨"a", 1, enumOutput "y"⟩], "c", 2⟩

/-- The step that takes the loop edge. -/
def skipStep : WalkStep (WorkflowSpec.ofJson forwardLoopSpec)
    (Walk.start (WorkflowSpec.ofJson forwardLoopSpec)) skippedWalk where
  output := enumOutput "y"
  edge := ⟨"a", "c", none, .loop⟩
  schema := enumSchema
  isObject := rfl
  declared := by decide +kernel
  accepted := by decide +kernel
  followed := by decide +kernel
  next := rfl
  done := by decide +kernel

/-- **The loop edge skips the referenced step**: the spec is accepted, the run reaches `c`, no
    execution of `b` has completed, and rendering the prompt of `c` misses a required value. -/
theorem forwardLoop_misses_output :
    (validateWorkflowSpec forwardLoopSpec).valid = true ∧
    Nonempty (WalkStep (WorkflowSpec.ofJson forwardLoopSpec)
      (Walk.start (WorkflowSpec.ofJson forwardLoopSpec)) skippedWalk) ∧
    (∃ s ∈ (WorkflowSpec.ofJson forwardLoopSpec).steps, s.id = skippedWalk.current ∧
      ∃ ref ∈ (parseTemplateReferences s.promptTemplate).refs,
        ref.kind = .stepOutput "b" "k" ∧ ¬ skippedWalk.completed "b" ∧
        renderPrompt s.promptTemplate (skippedWalk.scope [] (fun _ => none) none)
          = .error ⟨.missingValue, "missing required runtime value for " ++ ref.raw⟩) := by
  refine ⟨forwardLoopSpec_valid, ⟨skipStep⟩,
    AgentTaskStep.ofJson (plainStep "c" "use \x7b\x7b steps.b.output.k \x7d\x7d"),
    by decide +kernel, by decide +kernel,
    ⟨.stepOutput "b" "k", "\x7b\x7b steps.b.output.k \x7d\x7d"⟩, by decide +kernel, rfl, ?_,
    by decide +kernel⟩
  rintro ⟨c, hc, hb⟩
  rw [List.mem_singleton.mp hc] at hb
  exact absurd hb (by decide)

/-- A walk goes on with `x` along a normal edge, or to a step that no other dominates. -/
theorem ReadyRun.through {w : Walk} {e : WorkflowEdge} {r : Nat}
    (h : ReadyRun forwardLoopSpec (Walk.start (WorkflowSpec.ofJson forwardLoopSpec)) w)
    (hschema : (WorkflowSpec.ofJson forwardLoopSpec).schemaOf? w.current = some enumSchema)
    (hf : follow (WorkflowSpec.ofJson forwardLoopSpec) w.current w.round (enumOutput "x") = some (e, r))
    (hlands : e.kind = .normal ∨ strictDominators forwardLoopSpec e.target = []) :
    ReadyRun forwardLoopSpec (Walk.start (WorkflowSpec.ofJson forwardLoopSpec))
      ⟨w.done ++ [⟨w.current, w.round, enumOutput "x"⟩], e.target, r⟩ := by
  refine Relation.ReflTransGen.tail h
    ⟨⟨enumOutput "x", e, enumSchema, rfl, hschema, by decide +kernel, hf, rfl, rfl⟩, ?_⟩
  intro hkind d hd
  rcases hlands with hnormal | hnone
  · cases hkind.symm.trans hnormal
  · rw [hnone] at hd
    cases hd

/-- The walk through `b` to `c`, and by the loop edge of `c` back to `a`, and so again. -/
def throughWalk : Walk :=
  ⟨[⟨"a", 1, enumOutput "x"⟩, ⟨"b", 1, enumOutput "x"⟩, ⟨"c", 1, enumOutput "x"⟩,
    ⟨"a", 2, enumOutput "x"⟩, ⟨"b", 2, enumOutput "x"⟩], "c", 2⟩

theorem throughWalk_run :
    ReadyRun forwardLoopSpec (Walk.start (WorkflowSpec.ofJson forwardLoopSpec)) throughWalk := by
  have hb := ReadyRun.through (e := ⟨"a", "b", none, .normal⟩) (r := 1) .refl (by decide +kernel)
    (by decide +kernel) (.inl rfl)
  have hc := ReadyRun.through (e := ⟨"b", "c", none, .normal⟩) (r := 1) hb (by decide +kernel)
    (by decide +kernel) (.inl rfl)
  have hback := ReadyRun.through (e := ⟨"c", "a", none, .loop⟩) (r := 2) hc (by decide +kernel)
    (by decide +kernel) (.inr (by decide +kernel))
  have hb' := ReadyRun.through (e := ⟨"a", "b", none, .normal⟩) (r := 2) hback (by decide +kernel)
    (by decide +kernel) (.inl rfl)
  exact ReadyRun.through (e := ⟨"b", "c", none, .normal⟩) (r := 2) hb' (by decide +kernel)
    (by decide +kernel) (.inl rfl)

/-- On the walk that comes back to `c` its reference finds the output of `b`. -/
theorem throughWalk_output :
    throughWalk.completed "b" ∧
    ∃ v, resolveRef (.stepOutput "b" "k") (throughWalk.scope [] (fun _ => none) none)
      = (.value v, false) := by
  have h := walk_outputs_available forwardLoopSpec_valid throughWalk_run
    (s := AgentTaskStep.ofJson (plainStep "c" "use \x7b\x7b steps.b.output.k \x7d\x7d"))
    (by decide +kernel) (by decide +kernel)
    (show ⟨.stepOutput "b" "k", "\x7b\x7b steps.b.output.k \x7d\x7d"⟩ ∈ _ by decide +kernel) rfl
    [] (fun _ => none) none
  exact ⟨h.1, h.2.2 enumSchema ⟨.enum, true, ["x", "y"]⟩ (by decide +kernel) (by decide) rfl⟩

end VibeWalk
