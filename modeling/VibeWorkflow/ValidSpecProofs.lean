import VibeWorkflow.ValidatorProofs

/-!
# What an accepted spec guarantees

The validator speaks about raw JSON; the runtime reads the same JSON as a `WorkflowSpec`.
This file carries each check over to that reading.

* **`ValidSpec`** — the empty issue list, one field for each group of checks.
* **`step_of_mem`**, **`edge_of_mem`** — what the step and edge checks say of one member.
* **`specStepIds_eq`** — the validator's step ids are the ids of the typed steps.
* **`normal_edges_rank`** — the normal edges of an accepted spec have a decreasing rank.
* **`unmarked_cycle_exact`** — the cycle check reports a cycle of the loop-free graph, and
  only when there is one.
-/

namespace VibeValidator

open VibeJson VibeContract VibeRouting VibeTemplate GraphSearch

/-! ## An empty issue list -/

theorem errIf_nil {bad : Bool} {code message path : String} :
    errIf bad code message path = [] ↔ bad = false := by
  cases bad <;> simp [errIf, err]

theorem err_ne_nil {code message path : String} : err code message path ≠ [] := by
  simp [err]

/-- The checks of an accepted spec that the run-time argument uses, one field each. -/
structure ValidSpec (j : Json) : Prop where
  isObject : j.isObj = true
  noSecrets : scanSecretFields "" j = []
  knownFields : unknownFields knownSpecFields "unknown_top_level_field"
    "unknown top-level field: " "" j = []
  nameOk : strOk isSafeName (j.get? "name") = true
  agents : validateAgents (j.get? "agents") = []
  inputs : validateInputs (j.get? "inputs") = []
  schemas : validateOutputSchemas (j.get? "output_schemas") = []
  steps : validateSteps (j.get? "steps") (agentRoles (j.get? "agents"))
    (schemaNames (j.get? "output_schemas")) (schemaFieldDefs (j.get? "output_schemas")) = []
  entry : strOk (fun e => (specStepIds j).contains e) (j.get? "entry_step") = true
  limits : validateLimits (j.get? "limits") (hasLoopEdge (j.get? "edges")) = []
  edges : validateEdges (j.get? "edges") (specStepIds j) (specStepSchema j)
    (schemaFields (j.get? "output_schemas")) = []
  graph : analyzeGraph (j.get? "edges") (specStepIds j) (specEntry j) = []
  templates : validateTemplates (j.get? "steps") (specTemplateScope j) = []
  routing : validateRouting (j.get? "edges") (specStepIds j) (specStepSchema j)
    (schemaFieldDefs (j.get? "output_schemas")) = []

/-- An accepted spec passes every check. -/
theorem ValidSpec.of_valid {j : Json} (h : (validateWorkflowSpec j).valid = true) :
    ValidSpec j := by
  simp only [validateWorkflowSpec, List.isEmpty_iff] at h
  by_cases hobj : j.isObj = true
  · simp only [hobj, Bool.not_true, Bool.false_eq_true, if_false, specIssues,
      List.append_eq_nil_iff, errIf_nil] at h
    obtain ⟨⟨⟨⟨⟨⟨⟨⟨⟨⟨⟨⟨⟨⟨⟨⟨h1, h2⟩, h3⟩, h4⟩, h5⟩, h6⟩, h7⟩, h8⟩, h9⟩, h10⟩, h11⟩, h12⟩, h13⟩,
      h14⟩, h15⟩, h16⟩, h17⟩ := h
    exact
      { isObject := hobj, noSecrets := h1, knownFields := h2,
        nameOk := by simpa using h4,
        agents := h6, inputs := h7, schemas := h8, steps := h9,
        entry := by simpa using h10,
        limits := h11, edges := h14, graph := h15, templates := h16, routing := h17 }
  · rw [Bool.not_eq_true] at hobj
    simp [hobj] at h

/-! ## Reading a string property -/

theorem strField?_eq {j : Json} {k s : String} :
    strField? j k = some s ↔ j.get? k = some (.str s) := by
  simp only [strField?, Option.bind_eq_some_iff]
  constructor
  · rintro ⟨v, hv, hs⟩
    cases v <;> simp only [Json.str?, reduceCtorEq, Option.some.injEq] at hs
    rw [hv, hs]
  · intro h
    exact ⟨.str s, h, rfl⟩

theorem strField_of {j : Json} {k s : String} (h : strField? j k = some s) :
    strField j k = s := by
  show (strField? j k).getD "" = s
  rw [h]
  rfl

/-- A checked string property is a string that passes. -/
theorem strOk_get {ok : String → Bool} {j : Json} {k : String}
    (h : strOk ok (j.get? k) = true) : ∃ s, strField? j k = some s ∧ ok s = true := by
  simp only [strOk, Option.any_eq_true] at h
  exact h

/-! ## Steps -/

/-- What the step checks give for a list of steps: each is an object with a safe id that was
    not met before, and its body is clean. -/
theorem stepIssues_nil {roles schemas : List String}
    {defs : List (String × List (String × FieldDef))} :
    ∀ (l : List Json) (i : Nat) (seen : List String),
      stepIssues roles schemas defs i seen l = [] →
      (l.filterMap stepIdOf).Nodup ∧ (∀ id ∈ l.filterMap stepIdOf, id ∉ seen) ∧
      ∀ step ∈ l, ∃ id p, stepIdOf step = some id ∧
        stepBodyIssues roles schemas defs p step = [] := by
  intro l
  induction l with
  | nil =>
    intro i seen _
    exact ⟨List.nodup_nil, fun id h => (nomatch h), fun s h => nomatch h⟩
  | cons step rest ih =>
    intro i seen h
    rw [stepIssues] at h
    by_cases hobj : step.isObj = true
    · simp only [hobj, Bool.not_true, Bool.false_eq_true, if_false] at h
      cases hid : stepIdOf step with
      | none =>
        rw [hid] at h
        simp only [List.append_eq_nil_iff] at h
        exact absurd h.1.1 err_ne_nil
      | some id =>
        rw [hid] at h
        simp only [List.append_eq_nil_iff, errIf_nil] at h
        obtain ⟨⟨hseen, hbody⟩, hrest⟩ := h
        obtain ⟨hnd, hnew, hall⟩ := ih (i + 1) (id :: seen) hrest
        have hns : id ∉ seen := by simpa using hseen
        rw [List.filterMap_cons_some hid]
        refine ⟨?_, ?_, ?_⟩
        · refine List.nodup_cons.mpr ⟨?_, hnd⟩
          intro hm
          exact hnew id hm List.mem_cons_self
        · intro x hx
          rcases List.mem_cons.mp hx with rfl | hx
          · exact hns
          · intro hs
            exact hnew x hx (List.mem_cons_of_mem _ hs)
        · intro s hs
          rcases List.mem_cons.mp hs with rfl | hs
          · exact ⟨id, _, hid, hbody⟩
          · exact hall s hs
    · rw [Bool.not_eq_true] at hobj
      simp only [hobj, Bool.not_false, if_true, List.append_eq_nil_iff] at h
      exact absurd h.1 err_ne_nil

theorem stepIdOf_some {step : Json} {id : String} (h : stepIdOf step = some id) :
    strField? step "id" = some id ∧ isSafeName id = true := by
  unfold stepIdOf at h
  split at h
  · split at h
    · rename_i s hs
      split at h
      · rename_i hsafe
        rw [← Option.some.inj h]
        exact ⟨hs, hsafe⟩
      · exact nomatch h
    · exact nomatch h
  · exact nomatch h

/-- A duplicate-free list keeps all its members. -/
theorem eraseDups_of_nodup {α : Type} [DecidableEq α] :
    ∀ l : List α, l.Nodup → l.eraseDups = l := by
  intro l
  induction l with
  | nil => intro _; rfl
  | cons a rest ih =>
    intro h
    obtain ⟨ha, hrest⟩ := List.nodup_cons.mp h
    have hkeep : rest.filter (fun b => !b == a) = rest := by
      refine List.filter_eq_self.mpr ?_
      intro b hb
      have : b ≠ a := fun hba => ha (hba ▸ hb)
      simp [this]
    rw [List.eraseDups_cons, hkeep, ih hrest]

namespace ValidSpec

variable {j : Json}

/-- The raw steps of an accepted spec. -/
theorem steps_list (h : ValidSpec j) :
    stepIssues (agentRoles (j.get? "agents")) (schemaNames (j.get? "output_schemas"))
      (schemaFieldDefs (j.get? "output_schemas")) 0 [] ((j.get? "steps").getD .null).elems = [] := by
  have hs := h.steps
  unfold validateSteps at hs
  split at hs
  · rename_i s ss heq
    rw [heq]
    exact hs
  · exact absurd hs err_ne_nil

/-- The ids of the steps, in order, are what the validator collects. -/
theorem specStepIds_eq (h : ValidSpec j) :
    specStepIds j = (WorkflowSpec.ofJson j).steps.map AgentTaskStep.id := by
  obtain ⟨hnd, -, hall⟩ := stepIssues_nil _ 0 [] h.steps_list
  show (((j.get? "steps").getD .null).elems.filterMap stepIdOf).eraseDups
    = (((j.get? "steps").getD .null).elems.map AgentTaskStep.ofJson).map AgentTaskStep.id
  have hmap : ((j.get? "steps").getD .null).elems.filterMap stepIdOf
      = ((j.get? "steps").getD .null).elems.map (fun s => (AgentTaskStep.ofJson s).id) := by
    refine List.filterMap_eq_map_iff_forall_eq_some.mpr ?_
    intro s hs
    obtain ⟨id, _, hid, _⟩ := hall s hs
    rw [hid]
    exact congrArg some (strField_of (stepIdOf_some hid).1).symm
  rw [eraseDups_of_nodup _ hnd, hmap, List.map_map]
  rfl

/-- Step ids are distinct. -/
theorem stepIds_nodup (h : ValidSpec j) :
    ((WorkflowSpec.ofJson j).steps.map AgentTaskStep.id).Nodup := by
  obtain ⟨hnd, -, -⟩ := stepIssues_nil _ 0 [] h.steps_list
  rw [← h.specStepIds_eq]
  show (((j.get? "steps").getD .null).elems.filterMap stepIdOf).eraseDups.Nodup
  rw [eraseDups_of_nodup _ hnd]
  exact hnd

/-- A typed step comes from a raw one that passed the step checks. -/
theorem step_of_mem (h : ValidSpec j) {s : AgentTaskStep} (hs : s ∈ (WorkflowSpec.ofJson j).steps) :
    ∃ raw ∈ ((j.get? "steps").getD .null).elems, s = AgentTaskStep.ofJson raw ∧
      strField? raw "id" = some s.id ∧ isSafeName s.id = true ∧
      ∃ p, stepBodyIssues (agentRoles (j.get? "agents")) (schemaNames (j.get? "output_schemas"))
        (schemaFieldDefs (j.get? "output_schemas")) p raw = [] := by
  obtain ⟨-, -, hall⟩ := stepIssues_nil _ 0 [] h.steps_list
  obtain ⟨raw, hraw, rfl⟩ := List.mem_map.mp hs
  obtain ⟨id, p, hid, hbody⟩ := hall raw hraw
  obtain ⟨hfield, hsafe⟩ := stepIdOf_some hid
  have hsid : (AgentTaskStep.ofJson raw).id = id := strField_of hfield
  exact ⟨raw, hraw, rfl, by rw [hsid]; exact hfield, by rw [hsid]; exact hsafe, p, hbody⟩

theorem mem_stepIds (h : ValidSpec j) {id : String} :
    id ∈ specStepIds j ↔ ∃ s ∈ (WorkflowSpec.ofJson j).steps, s.id = id := by
  rw [h.specStepIds_eq, List.mem_map]

/-- Ids of an accepted spec are safe names. -/
theorem stepId_safe (h : ValidSpec j) {id : String} (hid : id ∈ specStepIds j) :
    isSafeName id = true := by
  obtain ⟨s, hs, rfl⟩ := h.mem_stepIds.mp hid
  obtain ⟨_, _, _, _, hsafe, _⟩ := h.step_of_mem hs
  exact hsafe

/-- Looking a declared id up finds its step. -/
theorem step?_of_mem (h : ValidSpec j) {s : AgentTaskStep}
    (hs : s ∈ (WorkflowSpec.ofJson j).steps) : (WorkflowSpec.ofJson j).step? s.id = some s := by
  have hnd := h.stepIds_nodup
  unfold WorkflowSpec.step?
  generalize (WorkflowSpec.ofJson j).steps = l at hs hnd
  induction l with
  | nil => exact nomatch hs
  | cons t rest ih =>
    obtain ⟨ht, hrest⟩ := List.nodup_cons.mp hnd
    rcases List.mem_cons.mp hs with rfl | hs
    · simp
    · have hne : t.id ≠ s.id := fun he => ht (List.mem_map.mpr ⟨s, hs, he.symm⟩)
      rw [List.find?_cons_of_neg (by simpa using hne)]
      exact ih hs hrest

/-- The entry step of an accepted spec is one of its steps. -/
theorem entry_mem (h : ValidSpec j) : (WorkflowSpec.ofJson j).entryStep ∈ specStepIds j := by
  obtain ⟨e, he, hin⟩ := strOk_get h.entry
  have : (WorkflowSpec.ofJson j).entryStep = e := strField_of he
  rw [this]
  simpa using hin

theorem specEntry_eq (h : ValidSpec j) : specEntry j = some (WorkflowSpec.ofJson j).entryStep := by
  obtain ⟨e, he, hin⟩ := strOk_get h.entry
  have hentry : (WorkflowSpec.ofJson j).entryStep = e := strField_of he
  rw [hentry, specEntry, he]
  simp only [Option.filter, hin, if_true]

end ValidSpec

/-! ## Edges -/

/-- What the edge checks give for a list of edges. -/
theorem edgeListIssues_nil {ids : List String} {schemaOfStep : List (String × String)}
    {fields : List (String × List String)} :
    ∀ (l : List Json) (i : Nat) (seen : List String),
      edgeListIssues ids schemaOfStep fields i seen l = [] →
      ∀ edge ∈ l, edge.isObj = true ∧ ∃ p, edgeIssues ids schemaOfStep fields p edge = [] := by
  intro l
  induction l with
  | nil => intro i seen _ edge h; exact nomatch h
  | cons e rest ih =>
    intro i seen h edge hedge
    rw [edgeListIssues] at h
    by_cases hobj : e.isObj = true
    · simp only [hobj, Bool.not_true, Bool.false_eq_true, if_false, List.append_eq_nil_iff] at h
      rcases List.mem_cons.mp hedge with rfl | hedge
      · exact ⟨hobj, _, h.1.1⟩
      · exact ih _ _ h.2 edge hedge
    · rw [Bool.not_eq_true] at hobj
      simp only [hobj, Bool.not_false, if_true, List.append_eq_nil_iff] at h
      exact absurd h.1 err_ne_nil

/-- The three string fields of a clean edge, and its condition checks. -/
theorem edgeIssues_nil {ids : List String} {schemaOfStep : List (String × String)}
    {fields : List (String × List String)} {p : String} {edge : Json}
    (h : edgeIssues ids schemaOfStep fields p edge = []) :
    (∃ s, strField? edge "from" = some s ∧ s ∈ ids) ∧
    (∃ t, strField? edge "to" = some t ∧ (isTerminalTarget t = true ∨ t ∈ ids)) ∧
    (∃ k, strField? edge "kind" = some k ∧ (k = "normal" ∨ k = "loop")) ∧
    edgeConditionIssues schemaOfStep fields p edge = [] := by
  simp only [edgeIssues, List.append_eq_nil_iff, errIf_nil, Bool.not_eq_false'] at h
  obtain ⟨⟨⟨⟨h1, h2⟩, h3⟩, -⟩, h5⟩ := h
  obtain ⟨s, hs, hsok⟩ := strOk_get h1
  obtain ⟨t, ht, htok⟩ := strOk_get h2
  obtain ⟨k, hk, hkok⟩ := strOk_get h3
  refine ⟨⟨s, hs, by simpa using hsok⟩, ⟨t, ht, by simpa using htok⟩, ⟨k, hk, ?_⟩, h5⟩
  simpa using hkok

namespace ValidSpec

variable {j : Json}

theorem edges_list (h : ValidSpec j) :
    edgeListIssues (specStepIds j) (specStepSchema j) (schemaFields (j.get? "output_schemas")) 0 []
      ((j.get? "edges").getD .null).elems = [] := by
  have he := h.edges
  unfold validateEdges at he
  split at he
  · rename_i es heq
    rw [heq]
    exact he
  · exact absurd he err_ne_nil

/-- One raw edge of an accepted spec: an object with a declared source, a resolvable target
    and a known kind, which its typed reading agrees with. -/
theorem edge_of_raw (h : ValidSpec j) {raw : Json}
    (hraw : raw ∈ ((j.get? "edges").getD .null).elems) :
    raw.isObj = true ∧
    strField? raw "from" = some (WorkflowEdge.ofJson raw).fromStep ∧
    (WorkflowEdge.ofJson raw).fromStep ∈ specStepIds j ∧
    strField? raw "to" = some (WorkflowEdge.ofJson raw).target ∧
    (isTerminalTarget (WorkflowEdge.ofJson raw).target = true ∨
      (WorkflowEdge.ofJson raw).target ∈ specStepIds j) ∧
    (isLoopEdge raw = true ↔ (WorkflowEdge.ofJson raw).kind = .loop) ∧
    ∃ p, edgeConditionIssues (specStepSchema j) (schemaFields (j.get? "output_schemas")) p raw
      = [] := by
  obtain ⟨hobj, p, hclean⟩ := edgeListIssues_nil _ 0 [] h.edges_list raw hraw
  obtain ⟨⟨s, hs, hsin⟩, ⟨t, ht, htok⟩, ⟨k, hk, hkok⟩, hcond⟩ := edgeIssues_nil hclean
  have hs' : (WorkflowEdge.ofJson raw).fromStep = s := strField_of hs
  have ht' : (WorkflowEdge.ofJson raw).target = t := strField_of ht
  refine ⟨hobj, by rw [hs']; exact hs, by rw [hs']; exact hsin, by rw [ht']; exact ht,
    by rw [ht']; exact htok, ?_, p, hcond⟩
  have hkind : (WorkflowEdge.ofJson raw).kind = if k = "loop" then .loop else .normal := by
    show (if strField raw "kind" = "loop" then EdgeKind.loop else EdgeKind.normal) = _
    rw [strField_of hk]
  rw [hkind, isLoopEdge, hobj, hk]
  by_cases hl : k = "loop"
  · simp [hl]
  · simp [hl]

/-- The same for a typed edge. -/
theorem edge_of_mem (h : ValidSpec j) {e : WorkflowEdge}
    (he : e ∈ (WorkflowSpec.ofJson j).edges) :
    e.fromStep ∈ specStepIds j ∧
    (isTerminalTarget e.target = true ∨ e.target ∈ specStepIds j) := by
  obtain ⟨raw, hraw, rfl⟩ := List.mem_map.mp he
  obtain ⟨-, -, h3, -, h5, -⟩ := h.edge_of_raw hraw
  exact ⟨h3, h5⟩

theorem edgeSource_eq (h : ValidSpec j) {raw : Json}
    (hraw : raw ∈ ((j.get? "edges").getD .null).elems) :
    edgeSource (specStepIds j) raw = some (WorkflowEdge.ofJson raw).fromStep := by
  obtain ⟨hobj, hfrom, hin, -⟩ := h.edge_of_raw hraw
  have hc : (specStepIds j).contains (WorkflowEdge.ofJson raw).fromStep = true := by
    simpa using hin
  rw [edgeSource, hobj, hfrom]
  simp only [if_true, Option.filter, hc]

/-- The step-to-step edges the graph checks see are the typed edges between steps. -/
theorem mem_stepEdges (h : ValidSpec j) {loops : Bool} {u v : String} :
    (u, v) ∈ stepEdges loops (j.get? "edges") (specStepIds j) ↔
      ∃ e ∈ (WorkflowSpec.ofJson j).edges, e.fromStep = u ∧ e.target = v ∧
        v ∈ specStepIds j ∧ (loops = true ∨ e.kind = .normal) := by
  have hkind : ∀ raw, raw ∈ ((j.get? "edges").getD .null).elems →
      ((loops || !isLoopEdge raw) = true ↔ loops = true ∨ (WorkflowEdge.ofJson raw).kind = .normal) := by
    intro raw hraw
    obtain ⟨-, -, -, -, -, hk, -⟩ := h.edge_of_raw hraw
    rw [Bool.or_eq_true, Bool.not_eq_true']
    refine or_congr_right ?_
    cases hkv : (WorkflowEdge.ofJson raw).kind with
    | loop => simp [hk.mpr hkv]
    | normal =>
      have : isLoopEdge raw ≠ true := fun hl => by rw [hk.mp hl] at hkv; exact nomatch hkv
      simpa using this
  simp only [stepEdges, List.mem_filterMap]
  constructor
  · rintro ⟨raw, hraw, hsome⟩
    obtain ⟨-, hfrom, -, hto, -⟩ := h.edge_of_raw hraw
    rw [h.edgeSource_eq hraw, hto] at hsome
    simp only [Bool.and_eq_true, List.contains_iff_mem] at hsome
    split at hsome
    · rename_i hc
      have hp := Option.some.inj hsome
      have hv : (WorkflowEdge.ofJson raw).target = v := congrArg Prod.snd hp
      exact ⟨WorkflowEdge.ofJson raw, List.mem_map.mpr ⟨raw, hraw, rfl⟩, congrArg Prod.fst hp,
        hv, hv ▸ hc.1, (hkind raw hraw).mp hc.2⟩
    · exact nomatch hsome
  · rintro ⟨e, he, rfl, rfl, hin, hk⟩
    obtain ⟨raw, hraw, rfl⟩ := List.mem_map.mp he
    obtain ⟨-, hfrom, -, hto, -⟩ := h.edge_of_raw hraw
    refine ⟨raw, hraw, ?_⟩
    rw [h.edgeSource_eq hraw, hto]
    simp only [Bool.and_eq_true, List.contains_iff_mem]
    rw [if_pos ⟨hin, (hkind raw hraw).mpr hk⟩]

/-- **The normal edges of an accepted spec are acyclic**: a rank drops along each of them. -/
theorem normal_edges_rank (h : ValidSpec j) :
    ∃ rank : String → Nat, ∀ e ∈ (WorkflowSpec.ofJson j).edges, e.kind = .normal →
      e.target ∈ specStepIds j → rank e.target < rank e.fromStep := by
  have hg := h.graph
  simp only [analyzeGraph, List.append_eq_nil_iff] at hg
  obtain ⟨-, hcycle⟩ := hg
  have hnone : findCycle (specStepIds j) (normalAdj (j.get? "edges") (specStepIds j)) = none := by
    cases hc : findCycle (specStepIds j) (normalAdj (j.get? "edges") (specStepIds j)) with
    | none => rfl
    | some cycle =>
      rw [hc] at hcycle
      exact absurd hcycle err_ne_nil
  obtain ⟨rank, hrank⟩ := findCycle_none_rank hnone
  refine ⟨rank, ?_⟩
  intro e he hk ht
  refine hrank e.fromStep e.target ?_ (h.edge_of_mem he).1 ht
  exact h.mem_stepEdges.mpr ⟨e, he, rfl, rfl, ht, Or.inr hk⟩

/-- Every step of an accepted spec is marked by the search from the entry. -/
theorem step_marked (h : ValidSpec j) {s : String} (hs : s ∈ specStepIds j) :
    s ∈ reachableSteps (j.get? "edges") (specStepIds j) (WorkflowSpec.ofJson j).entryStep := by
  have hg := h.graph
  simp only [analyzeGraph, List.append_eq_nil_iff] at hg
  obtain ⟨⟨-, hreach⟩, -⟩ := hg
  rw [h.specEntry_eq] at hreach
  have := (List.flatMap_eq_nil_iff.mp hreach) s hs
  simpa [errIf_nil] using this

end ValidSpec

/-! ## Output schemas -/

/-- In a list without repeated names an entry is what its name looks up. -/
theorem lookup_of_nodup {α : Type} {kvs : List (String × α)} {k : String} {v : α}
    (hnd : (kvs.map Prod.fst).Nodup) (hm : (k, v) ∈ kvs) : lookup kvs k = some v := by
  obtain ⟨w, hw⟩ := Option.isSome_iff_exists.mp
    ((lookup_isSome_iff kvs k).mpr (List.mem_map.mpr ⟨(k, v), hm, rfl⟩))
  have hpair : (k, w) = (k, v) := List.inj_on_of_nodup_map hnd (lookup_mem hw) hm rfl
  rw [hw]
  exact congrArg (fun kv => some kv.2) hpair

/-- Clean enum values are strings. -/
theorem enumValueIssues_nil {path : String} :
    ∀ (l : List Json) (seen : List String), enumValueIssues path seen l = [] →
      l = (l.filterMap Json.str?).map Json.str := by
  intro l
  induction l with
  | nil => intro _ _; rfl
  | cons v rest ih =>
    intro seen h
    rw [enumValueIssues] at h
    cases hv : v.str? with
    | none =>
      rw [hv] at h
      exact absurd (List.append_eq_nil_iff.mp h).1 err_ne_nil
    | some s =>
      rw [hv] at h
      have hvs : v = .str s := by
        cases v <;> simp only [Json.str?, reduceCtorEq, Option.some.injEq] at hv
        rw [hv]
      dsimp only at h
      split at h
      · exact absurd (List.append_eq_nil_iff.mp h).1 err_ne_nil
      · have hrest := ih _ (List.append_eq_nil_iff.mp h).2
        rw [List.filterMap_cons_some hv, List.map_cons, ← hrest, hvs]

/-- How the validator's reading of a field relates to the runtime's. -/
structure FieldAgrees (d : FieldDef) (f : SchemaField) : Prop where
  type : d.type = f.type
  required : d.required = f.required
  enum : f.type = .enum → d.enum = some (f.enum.map Json.str)

theorem validateSchemaField_nil {fp : String} {fdef : Json}
    (h : validateSchemaField fp fdef = []) :
    ∃ d, fieldDefOf fdef = some d ∧ FieldAgrees d (SchemaField.ofJson fdef) := by
  unfold validateSchemaField at h
  by_cases hobj : fdef.isObj = true
  · simp only [hobj, Bool.not_true, Bool.false_eq_true, if_false, List.append_eq_nil_iff,
      errIf_nil] at h
    obtain ⟨⟨⟨⟨htype, henum⟩, -⟩, -⟩, -⟩ := h
    obtain ⟨t, ht⟩ : ∃ t, (strField? fdef "type").bind SchemaFieldType.ofName = some t := by
      cases ht : (strField? fdef "type").bind SchemaFieldType.ofName with
      | none => rw [ht] at htype; cases htype
      | some t => exact ⟨t, rfl⟩
    obtain ⟨tn, htn, htof⟩ := Option.bind_eq_some_iff.mp ht
    refine ⟨_, by rw [fieldDefOf, if_pos hobj, ht]; rfl, ?_⟩
    have hty : (SchemaField.ofJson fdef).type = t := by
      show (SchemaFieldType.ofName (strField fdef "type")).getD .string = t
      rw [strField_of htn, htof]
      rfl
    refine ⟨hty.symm, rfl, ?_⟩
    intro he
    -- only the name "enum" reads as the enum type
    have htne : tn = "enum" := by
      rw [hty] at he
      rw [he] at htof
      unfold SchemaFieldType.ofName at htof
      split at htof <;> first | rfl | cases htof
    rw [htn, htne, if_pos rfl] at henum
    unfold validateEnumValues at henum
    split at henum
    · rename_i v vs heq
      have hvs := enumValueIssues_nil (v :: vs) [] (List.append_eq_nil_iff.mp henum).2
      show _ = some ((strings ((fdef.get? "enum").getD .null)).map Json.str)
      rw [heq]
      exact congrArg some hvs
    · exact absurd henum err_ne_nil
  · rw [Bool.not_eq_true] at hobj
    simp only [hobj, Bool.not_false, if_true] at h
    exact absurd h err_ne_nil

/-- Reading every value of a list that reads keeps lookups. -/
theorem lookup_filterMap {α β : Type} {f : α → Option β} {kvs : List (String × α)} {k : String}
    {v : α} (hall : ∀ kv ∈ kvs, ∃ w, f kv.2 = some w) (hk : lookup kvs k = some v) :
    lookup (kvs.filterMap (fun kv => (f kv.2).map (fun w => (kv.1, w)))) k = f v := by
  induction kvs with
  | nil => cases hk
  | cons hd tl ih =>
    obtain ⟨q, u⟩ := hd
    obtain ⟨w, hw⟩ := hall (q, u) List.mem_cons_self
    have hall' : ∀ kv ∈ tl, ∃ w, f kv.2 = some w :=
      fun kv hkv => hall kv (List.mem_cons_of_mem _ hkv)
    have hw' : f u = some w := hw
    rw [List.filterMap_cons_some (by rw [hw']; rfl)]
    simp only [lookup] at hk ⊢
    cases htl : lookup tl k with
    | some x =>
      rw [htl] at hk
      rw [ih hall' (htl.trans hk)]
      obtain ⟨y, hy⟩ := hall' (k, v) (lookup_mem (htl.trans hk))
      rw [show f v = some y from hy]
    | none =>
      have hnone : lookup (tl.filterMap (fun kv => (f kv.2).map (fun w => (kv.1, w)))) k
          = none := by
        rw [← Option.not_isSome_iff_eq_none, lookup_isSome_iff]
        intro hm
        obtain ⟨⟨a, b⟩, hab, rfl⟩ := List.mem_map.mp hm
        obtain ⟨⟨c, d⟩, hcd, hsome⟩ := List.mem_filterMap.mp hab
        obtain ⟨z, -, hz⟩ := Option.map_eq_some_iff.mp hsome
        have hca : c = a := congrArg Prod.fst hz
        have : (lookup tl a).isSome = true :=
          (lookup_isSome_iff tl a).mpr (List.mem_map.mpr ⟨(c, d), hcd, hca⟩)
        rw [htl] at this
        cases this
      rw [htl] at hk
      rw [hnone]
      by_cases hq : q = k
      · rw [if_pos hq] at hk ⊢
        rw [← Option.some.inj hk, hw']
      · rw [if_neg hq] at hk
        cases hk

namespace ValidSpec

variable {j : Json}

theorem schema_clean (h : ValidSpec j) {name : String} {sdef : Json}
    (hs : lookup ((j.get? "output_schemas").getD .null).fields name = some sdef) :
    validateOutputSchema name sdef = [] := by
  have hv := h.schemas
  unfold validateOutputSchemas at hv
  split at hv
  · exact absurd hv err_ne_nil
  · exact (List.flatMap_eq_nil_iff.mp hv) (name, sdef) (lookup_mem hs)

/-- Every field of a declared schema is readable. -/
theorem schema_fields_clean (h : ValidSpec j) {name : String} {sdef : Json}
    (hs : lookup ((j.get? "output_schemas").getD .null).fields name = some sdef) :
    ∀ kv ∈ schemaFieldsOf sdef, ∃ fp, validateSchemaField fp kv.2 = [] := by
  have hc := h.schema_clean hs
  simp only [validateOutputSchema, List.append_eq_nil_iff] at hc
  obtain ⟨-, hbody⟩ := hc
  split at hbody
  · exact absurd hbody err_ne_nil
  · obtain ⟨-, hfields⟩ := List.append_eq_nil_iff.mp hbody
    intro kv hkv
    split at hfields
    · rename_i fields heq
      rw [schemaFieldsOf, heq] at hkv
      exact ⟨_, (List.flatMap_eq_nil_iff.mp (List.append_eq_nil_iff.mp hfields).2) kv hkv⟩
    · exact absurd hfields err_ne_nil

/-- **The two readings of a schema field agree.** -/
theorem field_agrees (h : ValidSpec j) {name key : String} {schema : OutputSchema}
    {f : SchemaField} (hs : lookup (WorkflowSpec.ofJson j).outputSchemas name = some schema)
    (hf : lookup schema key = some f) :
    ∃ d, (lookup (schemaFieldDefs (j.get? "output_schemas")) name).bind
      (fun ds => lookup ds key) = some d ∧ FieldAgrees d f := by
  have hs' : (lookup ((j.get? "output_schemas").getD .null).fields name).map OutputSchema.ofJson
      = some schema := by
    rw [← lookup_map]
    exact hs
  obtain ⟨sdef, hsdef, rfl⟩ := Option.map_eq_some_iff.mp hs'
  have hf' : (lookup (schemaFieldsOf sdef) key).map SchemaField.ofJson = some f := by
    rw [← lookup_map]
    exact hf
  obtain ⟨fdef, hfdef, rfl⟩ := Option.map_eq_some_iff.mp hf'
  have hall : ∀ kv ∈ schemaFieldsOf sdef, ∃ w, fieldDefOf kv.2 = some w := by
    intro kv hkv
    obtain ⟨fp, hclean⟩ := h.schema_fields_clean hsdef kv hkv
    obtain ⟨d, hd, -⟩ := validateSchemaField_nil hclean
    exact ⟨d, hd⟩
  obtain ⟨fp, hclean⟩ := h.schema_fields_clean hsdef (key, fdef) (lookup_mem hfdef)
  obtain ⟨d, hd, hagree⟩ := validateSchemaField_nil hclean
  refine ⟨d, ?_, hagree⟩
  rw [schemaFieldDefs, lookup_map (fun s => (schemaFieldsOf s).filterMap
    (fun f => (fieldDefOf f.2).map (fun d => (f.1, d)))), hsdef]
  show lookup ((schemaFieldsOf sdef).filterMap _) key = some d
  rw [lookup_filterMap hall hfdef, hd]

/-- The schema a step names is declared, and the validator has it on record. -/
theorem step_schema (h : ValidSpec j) {s : AgentTaskStep}
    (hs : s ∈ (WorkflowSpec.ofJson j).steps) :
    lookup (specStepSchema j) s.id = some s.outputSchema ∧
    ∃ schema, lookup (WorkflowSpec.ofJson j).outputSchemas s.outputSchema = some schema := by
  obtain ⟨raw, hraw, rfl, hid, hsafe, p, hbody⟩ := h.step_of_mem hs
  simp only [stepBodyIssues, List.append_eq_nil_iff, errIf_nil, Bool.not_eq_false'] at hbody
  obtain ⟨sn, hsn, hdecl⟩ := strOk_get hbody.1.1.1.1.1.1.1.1.1.1.1.2
  have hout : (AgentTaskStep.ofJson raw).outputSchema = sn := strField_of hsn
  rw [hout]
  constructor
  · refine lookup_of_nodup ?_ ?_
    · -- the recorded names are a sublist of the distinct step ids
      have hnd := h.stepIds_nodup
      have hsub : ((specStepSchema j).map Prod.fst).Sublist
          ((WorkflowSpec.ofJson j).steps.map AgentTaskStep.id) := by
        show List.Sublist (List.map Prod.fst (List.filterMap _ ((j.get? "steps").getD .null).elems))
          (List.map AgentTaskStep.id (List.map AgentTaskStep.ofJson ((j.get? "steps").getD .null).elems))
        generalize ((j.get? "steps").getD .null).elems = l
        induction l with
        | nil => exact List.Sublist.slnil
        | cons r rest ih =>
          rw [List.filterMap_cons]
          split
          · exact ih.cons _
          · rename_i pair hpair
            have hfst : pair.1 = (AgentTaskStep.ofJson r).id := by
              split at hpair
              · rename_i id schema hid _
                split at hpair
                · rw [← Option.some.inj hpair]
                  exact (strField_of hid).symm
                · exact nomatch hpair
              · exact nomatch hpair
            rw [List.map_cons, hfst]
            exact ih.cons_cons _
      exact hnd.sublist hsub
    · refine List.mem_filterMap.mpr ⟨raw, hraw, ?_⟩
      rw [hid, hsn]
      dsimp only
      rw [if_pos hdecl]
  · have hkeys : sn ∈ ((j.get? "output_schemas").getD .null).keys := by
      have hmem : sn ∈ schemaNames (j.get? "output_schemas") := by simpa using hdecl
      unfold schemaNames at hmem
      split at hmem
      · exact nomatch hmem
      · exact hmem
    obtain ⟨sdef, hsdef⟩ := Option.isSome_iff_exists.mp ((lookup_isSome_iff _ sn).mpr hkeys)
    refine ⟨OutputSchema.ofJson sdef, ?_⟩
    show lookup (members OutputSchema.ofJson (j.get? "output_schemas")) sn = _
    rw [members, lookup_map, hsdef]
    rfl

end ValidSpec

/-! ## The cycle check -/

/-- The graph checks see edges between declared steps only. -/
theorem stepEdges_declared {loops : Bool} {edges : Option Json} {ids : List String} {u v : String}
    (h : (u, v) ∈ stepEdges loops edges ids) : u ∈ ids ∧ v ∈ ids := by
  obtain ⟨edge, -, hedge⟩ := List.mem_filterMap.mp h
  split at hedge
  · rename_i source target hsource _
    split at hedge
    · rename_i hkept
      obtain ⟨rfl, rfl⟩ := Prod.mk.inj (Option.some.inj hedge)
      constructor
      · unfold edgeSource at hsource
        split at hsource
        · exact List.contains_iff_mem.mp (Option.filter_eq_some_iff.mp hsource).2
        · exact nomatch hsource
      · exact List.contains_iff_mem.mp (Bool.and_eq_true_iff.mp hkept).1
    · exact nomatch hedge
  · exact nomatch hedge

/-- A normal edge, as a spec writes it. -/
def normalEdge (e : String × String) : Json :=
  .obj [("from", .str e.1), ("to", .str e.2), ("kind", .str "normal")]

/-- Every graph of declared steps is the graph of some edge list. -/
theorem normalAdj_normalEdge {ids : List String} :
    ∀ {es : List (String × String)}, (∀ e ∈ es, e.1 ∈ ids ∧ e.2 ∈ ids) →
      normalAdj (some (.arr (es.map normalEdge))) ids = es := by
  intro es hdeclared
  show (es.map normalEdge).filterMap _ = es
  rw [List.filterMap_map]
  induction es with
  | nil => rfl
  | cons e rest ih =>
    obtain ⟨hfrom, hto⟩ := hdeclared e List.mem_cons_self
    have hsource : edgeSource ids (normalEdge e) = some e.1 :=
      Option.filter_eq_some_iff.mpr ⟨rfl, List.contains_iff_mem.mpr hfrom⟩
    have htarget : strField? (normalEdge e) "to" = some e.2 := rfl
    have hnormal : isLoopEdge (normalEdge e) = false := rfl
    rw [List.filterMap_cons, Function.comp_apply, hsource, htarget]
    dsimp only
    rw [List.contains_iff_mem.mpr hto, hnormal, ih fun x hx => hdeclared x (List.mem_cons_of_mem _ hx)]
    rfl

/-- **THE CYCLE CHECK IS EXACT**: over the loop-free graph of any edge list, and every graph of
    declared steps is one, the search reports nothing just when the graph is acyclic, and
    otherwise a closed walk along its edges. -/
theorem unmarked_cycle_exact (ids : List String) :
    (∀ edges : Option Json,
      (findCycle ids (normalAdj edges ids) = none ↔ Acyclic (normalAdj edges ids)) ∧
      ∀ cycle, findCycle ids (normalAdj edges ids) = some cycle → IsCycle (normalAdj edges ids) cycle) ∧
    ∀ es : List (String × String), (∀ e ∈ es, e.1 ∈ ids ∧ e.2 ∈ ids) →
      ∃ edges : Option Json, normalAdj edges ids = es := by
  refine ⟨fun edges => ⟨findCycle_none_iff fun u v huv => stepEdges_declared huv, ?_⟩, ?_⟩
  · intro cycle hcycle
    exact findCycle_some hcycle
  · intro es hdeclared
    exact ⟨_, normalAdj_normalEdge hdeclared⟩

end VibeValidator
