import VibeWorkflow.ValidSpecProofs

/-!
# Static routing checks against the run-time router

The validator's per-step routing checks are meant to make `selectEdge` deterministic and, on a
required enum, exhaustive.  The argument compares the raw edges the checks read with the typed
edges the router reads.

* **`validated_routing`** — on an accepted spec routing is never ambiguous, and a step with an
  outgoing edge that tests one required enum or has a fallback always routes.
* **`validated_reachability`** — every step is reachable, the entry has a path to a terminal
  target, and from every step a path leads to a terminal target or to a step that no normal
  edge leaves.
-/

namespace VibeValidator

open VibeJson VibeContract VibeRouting VibeTemplate GraphSearch

/-! ## The raw outgoing edges and the typed ones -/

/-- The conditions the checks see are the conditions the router sees, edge by edge. -/
theorem outgoingFrom_conditions {ids : List String} {id : String} :
    ∀ (l : List Json) (i : Nat),
      (∀ raw ∈ l, edgeSource ids raw = some (WorkflowEdge.ofJson raw).fromStep) →
      (outgoingFrom ids id i l).map (fun o => o.condition.map Condition.ofJson)
        = ((l.map WorkflowEdge.ofJson).filter (fun e => e.fromStep == id)).map
            WorkflowEdge.condition := by
  intro l
  induction l with
  | nil => intro i _; rfl
  | cons raw rest ih =>
    intro i h
    have hrest := ih (i + 1) (fun r hr => h r (List.mem_cons_of_mem _ hr))
    rw [outgoingFrom, h raw List.mem_cons_self, List.map_cons]
    by_cases hid : (WorkflowEdge.ofJson raw).fromStep = id
    · rw [if_pos (congrArg some hid), List.filter_cons_of_pos (by simpa using hid), List.map_cons,
        List.map_cons, hrest]
      rfl
    · rw [if_neg (fun hs => hid (Option.some.inj hs)),
        List.filter_cons_of_neg (by simpa using hid), hrest]

/-- The outgoing edges of a step as the routing checks see them. -/
def rawOutgoing (j : Json) (id : String) : List OutEdge :=
  outgoingFrom (specStepIds j) id 0 ((j.get? "edges").getD .null).elems

namespace ValidSpec

variable {j : Json}

theorem outgoing_conditions (h : ValidSpec j) (id : String) :
    (rawOutgoing j id).map (fun o => o.condition.map Condition.ofJson)
      = (outgoing (WorkflowSpec.ofJson j) id).map WorkflowEdge.condition :=
  outgoingFrom_conditions _ 0 (fun _ hraw => h.edgeSource_eq hraw)

/-- The routing checks of a step that has an outgoing edge. -/
theorem routing_of_outgoing (h : ValidSpec j) {id : String}
    (hout : outgoing (WorkflowSpec.ofJson j) id ≠ []) :
    routingIssues (specStepSchema j) (schemaFieldDefs (j.get? "output_schemas")) id
      (rawOutgoing j id) = [] := by
  obtain ⟨e, he⟩ := List.exists_mem_of_ne_nil _ hout
  obtain ⟨hmem, hid⟩ := List.mem_filter.mp he
  obtain ⟨raw, hraw, rfl⟩ := List.mem_map.mp hmem
  have hsrc : id ∈ outgoingSources (j.get? "edges") (specStepIds j) := by
    refine List.mem_eraseDups.mpr (List.mem_filterMap.mpr ⟨raw, hraw, ?_⟩)
    rw [h.edgeSource_eq hraw]
    exact congrArg some (by simpa using hid)
  exact (List.flatMap_eq_nil_iff.mp h.routing) id hsrc

end ValidSpec

/-! ## Disjoint branches -/

theorem hasOverlap_false {l : List (Option Json)} :
    hasOverlap l = false → l.Pairwise (fun v w => sameValue v w = false) := by
  induction l with
  | nil => intro _; exact List.Pairwise.nil
  | cons v rest ih =>
    intro h
    simp only [hasOverlap, Bool.or_eq_false_iff, List.any_eq_false, Bool.not_eq_true] at h
    exact List.pairwise_cons.mpr ⟨h.1, ih h.2⟩

/-- At most one member of a list passes a test no two of its members pass. -/
theorem length_filter_le_one {α : Type} {p : α → Bool} {l : List α}
    (h : l.Pairwise (fun a b => ¬ (p a = true ∧ p b = true))) : (l.filter p).length ≤ 1 := by
  have hf := h.filter p
  match hl : l.filter p with
  | [] => exact Nat.zero_le _
  | [_] => exact Nat.le_refl _
  | a :: b :: rest =>
    rw [hl] at hf
    have hp : ∀ x ∈ l.filter p, p x = true := fun x hx => (List.mem_filter.mp hx).2
    have ha := hp a (by rw [hl]; simp)
    have hb := hp b (by rw [hl]; simp)
    exact absurd ⟨ha, hb⟩ ((List.pairwise_cons.mp hf).1 b List.mem_cons_self)

/-- A list of one distinct value has all members equal. -/
theorem eq_of_eraseDups_length_one {l : List String} (h : l.eraseDups.length = 1) {a b : String}
    (ha : a ∈ l) (hb : b ∈ l) : a = b := by
  obtain ⟨x, hx⟩ := List.length_eq_one_iff.mp h
  rw [← List.mem_eraseDups, hx, List.mem_singleton] at ha hb
  rw [ha, hb]

/-- Membership of a read value in an operand list. -/
def inValues (found : Option Json) (value : Option Json) : Bool :=
  match found, value with
  | some v, some (.arr xs) => xs.any (fun w => Json.strictEq v w)
  | _, _ => false

theorem evaluateCondition_eqOp {c out : Json} {round : Nat} (hop : strField? c "op" = some "eq") :
    evaluateCondition (Condition.ofJson c) out round
      = matchesValue (resolveConditionValue (strField c "path") out round) (c.get? "value") := by
  simp only [evaluateCondition, Condition.ofJson, strField_of hop]
  rfl

theorem evaluateCondition_inOp {c out : Json} {round : Nat} (hop : strField? c "op" = some "in") :
    evaluateCondition (Condition.ofJson c) out round
      = inValues (resolveConditionValue (strField c "path") out round) (c.get? "value") := by
  simp only [evaluateCondition, Condition.ofJson, strField_of hop]
  rfl

/-- A matching `eq` or `in` condition compares the value it reads with one of its operands. -/
theorem evaluateCondition_operand {c : Json} {out : Json} {round : Nat}
    (hop : strField? c "op" = some "eq" ∨ strField? c "op" = some "in")
    (h : evaluateCondition (Condition.ofJson c) out round = true) :
    ∃ v w, resolveConditionValue (strField c "path") out round = some v ∧
      some w ∈ operands c ∧ Json.strictEq v w = true := by
  rcases hop with hop | hop
  · rw [evaluateCondition_eqOp hop] at h
    unfold matchesValue at h
    split at h
    · rename_i v w hv hw
      refine ⟨v, w, hv, ?_, h⟩
      rw [operands, hop, if_neg (by decide), hw]
      exact List.mem_cons_self
    · exact nomatch h
  · rw [evaluateCondition_inOp hop] at h
    unfold inValues at h
    split at h
    · rename_i v xs hv hxs
      obtain ⟨w, hw, heq⟩ := List.any_eq_true.mp h
      refine ⟨v, w, hv, ?_, heq⟩
      rw [operands, if_pos hop, hxs]
      exact List.mem_map.mpr ⟨w, hw, rfl⟩
    · exact nomatch h

/-- What the branch checks of two or more conditions say: one selector, only `eq` and `in`, and
    no shared operand. -/
theorem branchIssues_clean {source : String} {conds : List Json} {overlap : Issues}
    (h : branchIssues source conds = (none, overlap)) (hov : overlap = [])
    (hlen : ¬ conds.length < 2) :
    (∀ c ∈ conds, ∀ c' ∈ conds, strField c "path" = strField c' "path") ∧
    (∀ c ∈ conds, strField? c "op" = some "eq" ∨ strField? c "op" = some "in") ∧
    conds.Pairwise (fun c c' => ∀ w ∈ operands c, ∀ w' ∈ operands c', sameValue w w' = false) := by
  simp only [branchIssues, if_neg hlen] at h
  split at h
  · exact nomatch congrArg Prod.fst h
  · rename_i hsel
    split at h
    · exact nomatch congrArg Prod.fst h
    · rename_i hops
      rw [not_or, Decidable.not_not] at hsel
      obtain ⟨hone, hmark⟩ := hsel
      have hnone := (congrArg Prod.snd h).trans hov
      rw [errIf_nil] at hnone
      refine ⟨?_, ?_, (List.pairwise_flatMap.mp (hasOverlap_false hnone)).2⟩
      · have hpath : ∀ c ∈ conds, (strField? c "path").getD "?" = strField c "path" := by
          intro c hc
          cases hp : strField? c "path" with
          | some p => rw [strField_of hp]; rfl
          | none =>
            refine absurd ?_ hmark
            rw [List.contains_iff_mem]
            exact List.mem_map.mpr ⟨c, hc, by rw [hp]; rfl⟩
        intro c hc c' hc'
        rw [← hpath c hc, ← hpath c' hc']
        exact eq_of_eraseDups_length_one hone (List.mem_map.mpr ⟨c, hc, rfl⟩)
          (List.mem_map.mpr ⟨c', hc', rfl⟩)
      · intro c hc
        simp only [Bool.not_eq_true, Bool.not_eq_false', List.all_map, List.all_eq_true,
          Function.comp, Bool.or_eq_true, beq_iff_eq] at hops
        exact hops c hc

/-- A stopping branch check always reports something. -/
theorem branchIssues_stop {source : String} {conds : List Json} {stop rest : Issues}
    (h : branchIssues source conds = (some stop, rest)) : stop ≠ [] := by
  unfold branchIssues at h
  dsimp only at h
  split at h
  · exact nomatch congrArg Prod.fst h
  · split at h
    · rw [← Option.some.inj (congrArg Prod.fst h)]
      exact err_ne_nil
    · split at h
      · rw [← Option.some.inj (congrArg Prod.fst h)]
        exact err_ne_nil
      · exact nomatch congrArg Prod.fst h

/-- The branch checks leave at most one condition that can match. -/
theorem branch_matched_le_one {source : String} {conds : List Json} {overlap : Issues}
    (h : branchIssues source conds = (none, overlap)) (hov : overlap = [])
    (out : Json) (round : Nat) :
    ((conds.map Condition.ofJson).filter (fun c => evaluateCondition c out round)).length ≤ 1 := by
  by_cases hlen : conds.length < 2
  · refine Nat.le_trans (List.length_filter_le _ _) ?_
    rw [List.length_map]
    omega
  · obtain ⟨hpath, hops, hpw⟩ := branchIssues_clean h hov hlen
    rw [List.filter_map, List.length_map]
    refine length_filter_le_one (hpw.imp_of_mem ?_)
    intro c c' hc hc' hdis hboth
    obtain ⟨v, w, hv, hw, hvw⟩ := evaluateCondition_operand (hops c hc) hboth.1
    obtain ⟨v', w', hv', hw', hvw'⟩ := evaluateCondition_operand (hops c' hc') hboth.2
    rw [hpath c hc c' hc', hv'] at hv
    have hvv : v' = v := Option.some.inj hv
    -- both operands equal the one value read
    have hsame : sameValue (some w) (some w') = true := by
      show Json.strictEq w w' = true
      rw [← Json.strictEq_eq hvw, ← hvv]
      exact hvw'
    rw [hdis (some w) hw (some w') hw'] at hsame
    exact nomatch hsame

/-! ## Exhaustive enums -/

/-- All of a step's conditional edges test one required enum field of its schema. -/
def TestsRequiredEnum (spec : WorkflowSpec) (id : String) (schema : OutputSchema) : Prop :=
  ∃ f fd, lookup schema f = some fd ∧ fd.type = .enum ∧ fd.required = true ∧
    ∀ e ∈ outgoing spec id, ∀ c, e.condition = some c →
      parseConditionPath c.path = some (.output f)

/-- A routed value makes its condition true. -/
theorem evaluateCondition_of_covered {conds : List Json} {f : String} {v w : Json} {out : Json}
    (round : Nat) (hpath : ∀ c ∈ conds, parseConditionPath (strField c "path") = some (.output f))
    (hv : out.get? f = some v) (hw : w ∈ coveredValues conds) (heq : Json.strictEq v w = true) :
    ∃ c ∈ conds, evaluateCondition (Condition.ofJson c) out round = true := by
  obtain ⟨c, hc, hwc⟩ := List.mem_flatMap.mp hw
  have hres : resolveConditionValue (strField c "path") out round = some v := by
    rw [resolveConditionValue, hpath c hc]
    exact hv
  refine ⟨c, hc, ?_⟩
  split at hwc
  · rename_i hop
    rw [evaluateCondition_eqOp hop, hres, Option.mem_toList.mp hwc]
    exact heq
  · split at hwc
    · rename_i hop
      obtain ⟨xs, hxs, hwx⟩ : ∃ xs, c.get? "value" = some (.arr xs) ∧ w ∈ xs := by
        cases hval : c.get? "value" with
        | none => rw [hval] at hwc; exact nomatch hwc
        | some u =>
          rw [hval] at hwc
          cases u with
          | arr xs => exact ⟨xs, rfl, hwc⟩
          | null | bool _ | num _ | str _ | obj _ => exact nomatch hwc
      rw [evaluateCondition_inOp hop, hres, hxs]
      exact List.any_eq_true.mpr ⟨w, hwx, heq⟩
    · exact nomatch hwc

/-- The exhaustiveness check of a step without fallback whose conditions all test one required
    enum: every value of the enum is routed. -/
theorem enumIssues_covered {schemaOfStep : List (String × String)}
    {defs : List (String × List (String × FieldDef))} {source f : String} {conds : List Json}
    {d : FieldDef} {fd : SchemaField} (hne : conds ≠ [])
    (hsel : ∀ c ∈ conds, selectorOf schemaOfStep defs source c = .field f (some d))
    (hagree : FieldAgrees d fd) (henum : fd.type = .enum) (hreq : fd.required = true)
    (h : enumIssues schemaOfStep defs source 0 conds = []) {s : String} (hs : s ∈ fd.enum) :
    ∃ w ∈ coveredValues conds, Json.strictEq (.str s) w = true := by
  cases conds with
  | nil => exact absurd rfl hne
  | cons c rest =>
    have hall : (c :: rest).all (fun c' =>
        selectsField (selectorOf schemaOfStep defs source c') f) = true := by
      refine List.all_eq_true.mpr ?_
      intro c' hc'
      rw [hsel c' hc']
      exact beq_self_eq_true f
    simp only [enumIssues, hsel c List.mem_cons_self, hall, hagree.type, henum, hagree.required,
      hreq, hagree.enum henum, decide_true, Bool.and_self, if_true, Option.getD_some] at h
    have hv := (List.flatMap_eq_nil_iff.mp h) (.str s) (List.mem_map.mpr ⟨s, hs, rfl⟩)
    rw [errIf_nil, Bool.not_eq_false', List.any_eq_true] at hv
    exact hv

/-! ## Counting edges by condition -/

theorem matched_length (edges : List WorkflowEdge) (p : Condition → Bool) :
    (edges.filter (fun e => e.condition.any p)).length
      = ((edges.filterMap WorkflowEdge.condition).filter p).length := by
  induction edges with
  | nil => rfl
  | cons e rest ih =>
    cases hc : e.condition with
    | none =>
      rw [List.filter_cons_of_neg (by simp [hc]), List.filterMap_cons_none hc, ih]
    | some c =>
      rw [List.filterMap_cons_some hc]
      by_cases hp : p c = true
      · rw [List.filter_cons_of_pos (by simp [hc, hp]), List.filter_cons_of_pos hp,
          List.length_cons, List.length_cons, ih]
      · rw [List.filter_cons_of_neg (by simpa [hc] using hp), List.filter_cons_of_neg hp, ih]

namespace ValidSpec

variable {j : Json}

/-- The typed conditions of a step are the raw ones, read. -/
theorem typed_conditions (h : ValidSpec j) (id : String) :
    (outgoing (WorkflowSpec.ofJson j) id).filterMap WorkflowEdge.condition
      = (conditionsOf (rawOutgoing j id)).map Condition.ofJson := by
  have hc := congrArg (List.filterMap (fun c => c)) (h.outgoing_conditions id)
  rw [List.filterMap_map, List.filterMap_map] at hc
  rw [conditionsOf, List.map_filterMap]
  exact hc.symm

theorem typed_fallbacks (h : ValidSpec j) (id : String) :
    (fallbacks (WorkflowSpec.ofJson j) id).length = fallbackCount (rawOutgoing j id) := by
  have hc := congrArg (fun l => (l.filter Option.isNone).length) (h.outgoing_conditions id)
  simp only [List.filter_map, List.length_map] at hc
  rw [fallbacks, fallbackCount]
  refine Eq.trans ?_ hc.symm |>.trans ?_
  · rfl
  · congr 1
    refine List.filter_congr ?_
    intro o _
    simp

/-- The routing checks of a step with an outgoing edge, taken apart. -/
theorem routing_parts (h : ValidSpec j) {id : String}
    (hout : outgoing (WorkflowSpec.ofJson j) id ≠ []) :
    fallbackCount (rawOutgoing j id) < 2 ∧
    branchIssues id (conditionsOf (rawOutgoing j id)) = (none, []) ∧
    enumIssues (specStepSchema j) (schemaFieldDefs (j.get? "output_schemas")) id
      (fallbackCount (rawOutgoing j id)) (conditionsOf (rawOutgoing j id)) = [] := by
  have hr := h.routing_of_outgoing hout
  simp only [routingIssues, List.append_eq_nil_iff, errIf_nil, decide_eq_false_iff_not] at hr
  obtain ⟨⟨hfb, -⟩, hbranch⟩ := hr
  refine ⟨by omega, ?_⟩
  split at hbranch
  · rename_i stop rest heq
    exact absurd hbranch (branchIssues_stop heq)
  · rename_i overlap heq
    obtain ⟨hov, henum⟩ := List.append_eq_nil_iff.mp hbranch
    rw [heq, hov]
    exact ⟨rfl, henum⟩

/-- At most one condition of a step matches, whatever the output. -/
theorem matched_le_one (h : ValidSpec j) {id : String}
    (hne : outgoing (WorkflowSpec.ofJson j) id ≠ []) (out : Json) (round : Nat) :
    (matchedConditional (WorkflowSpec.ofJson j) id out round).length ≤ 1 := by
  rw [matchedConditional, matched_length, h.typed_conditions]
  exact branch_matched_le_one (h.routing_parts hne).2.1 rfl out round

end ValidSpec

/-- A raw condition that the runtime reads as a test of an output field. -/
theorem selectorOf_field {schemaOfStep : List (String × String)}
    {defs : List (String × List (String × FieldDef))} {source f : String} {c : Json}
    (h : parseConditionPath (strField c "path") = some (.output f)) :
    selectorOf schemaOfStep defs source c = .field f
      (((lookup schemaOfStep source).bind (lookup defs)).bind (fun ds => lookup ds f)) := by
  have hpath : (strField? c "path").bind parseConditionPath = some (.output f) := by
    cases hp : strField? c "path" with
    | some p => rw [strField_of hp] at h; exact h
    | none =>
      rw [show strField c "path" = (strField? c "path").getD "" from rfl, hp] at h
      exact nomatch (show parseConditionPath "" = none by decide).symm.trans h
  rw [selectorOf, hpath]

/-- A required enum field of an accepted output holds one of the enum's values. -/
theorem accepted_enum_value {obj out : Json} {schema : OutputSchema} {f : String}
    {fd : SchemaField} (hout : validateAgainstSchema obj schema = .ok out)
    (hfd : lookup schema f = some fd) (henum : fd.type = .enum) (hreq : fd.required = true) :
    ∃ t ∈ fd.enum, out.get? f = some (.str t) := by
  obtain ⟨rfl, -, hfields, -⟩ := validateAgainstSchema_ok hout
  have hclean := hfields (f, fd) (lookup_mem hfd)
  obtain ⟨v, hvf⟩ := fieldIssue_none_present hclean hreq
  have hty := fieldIssue_none_type hclean hvf
  cases v with
  | str t => exact ⟨t, by simpa [matchesType, henum] using hty, hvf⟩
  | null | bool _ | num _ | arr _ | obj _ => simp [matchesType, henum] at hty

/-- A step without fallback whose conditions all test one required enum matches one of them. -/
theorem ValidSpec.enum_matches {j : Json} (h : ValidSpec j) {s : AgentTaskStep}
    (hs : s ∈ (WorkflowSpec.ofJson j).steps) {schema : OutputSchema}
    (hschema : lookup (WorkflowSpec.ofJson j).outputSchemas s.outputSchema = some schema)
    {obj out : Json} (hout : validateAgainstSchema obj schema = .ok out) (round : Nat)
    (hne : outgoing (WorkflowSpec.ofJson j) s.id ≠ [])
    (hnofb : fallbacks (WorkflowSpec.ofJson j) s.id = [])
    (htests : TestsRequiredEnum (WorkflowSpec.ofJson j) s.id schema) :
    matchedConditional (WorkflowSpec.ofJson j) s.id out round ≠ [] := by
  obtain ⟨f, fd, hfd, henum, hreq, hpath⟩ := htests
  obtain ⟨t, ht, hvf⟩ := accepted_enum_value hout hfd henum hreq
  obtain ⟨d, hd, hagree⟩ := h.field_agrees hschema hfd
  obtain ⟨-, -, hcover⟩ := h.routing_parts hne
  have hpaths : ∀ c ∈ conditionsOf (rawOutgoing j s.id),
      parseConditionPath (strField c "path") = some (.output f) := by
    intro c hc
    have hm : Condition.ofJson c ∈
        (outgoing (WorkflowSpec.ofJson j) s.id).filterMap WorkflowEdge.condition := by
      rw [h.typed_conditions]
      exact List.mem_map.mpr ⟨c, hc, rfl⟩
    obtain ⟨e, he, hec⟩ := List.mem_filterMap.mp hm
    exact hpath e he _ hec
  have hconds : conditionsOf (rawOutgoing j s.id) ≠ [] := by
    intro hnil
    obtain ⟨e, he⟩ := List.exists_mem_of_ne_nil _ hne
    cases hec : e.condition with
    | none =>
      have hm : e ∈ fallbacks (WorkflowSpec.ofJson j) s.id :=
        List.mem_filter.mpr ⟨he, by rw [hec]; rfl⟩
      rw [hnofb] at hm
      exact nomatch hm
    | some c =>
      have hm : c ∈ (outgoing (WorkflowSpec.ofJson j) s.id).filterMap WorkflowEdge.condition :=
        List.mem_filterMap.mpr ⟨e, he, hec⟩
      rw [h.typed_conditions, hnil] at hm
      exact nomatch hm
  have hsel : ∀ c ∈ conditionsOf (rawOutgoing j s.id),
      selectorOf (specStepSchema j) (schemaFieldDefs (j.get? "output_schemas")) s.id c
        = .field f (some d) := by
    intro c hc
    rw [selectorOf_field (hpaths c hc), (h.step_schema hs).1]
    exact congrArg (Selector.field f) hd
  rw [← h.typed_fallbacks, hnofb] at hcover
  obtain ⟨w, hw, heq⟩ := enumIssues_covered hconds hsel hagree henum hreq hcover ht
  obtain ⟨c, hc, heval⟩ := evaluateCondition_of_covered round hpaths hvf hw heq
  intro hnil
  have hpos : 0 < (matchedConditional (WorkflowSpec.ofJson j) s.id out round).length := by
    rw [matchedConditional, matched_length, h.typed_conditions]
    exact List.length_pos_of_mem (List.mem_filter.mpr ⟨List.mem_map.mpr ⟨c, hc, rfl⟩, heval⟩)
  rw [hnil] at hpos
  exact absurd hpos (by decide)

/-- **VALIDATED ROUTING.**  On an accepted spec, for an output its step's schema accepts,
    `selectEdge` is never ambiguous; and a step that has an outgoing edge always routes when
    its conditions all test one required enum or it has an unconditional edge. -/
theorem validated_routing {j : Json} (hv : (validateWorkflowSpec j).valid = true)
    {s : AgentTaskStep} (hs : s ∈ (WorkflowSpec.ofJson j).steps) {schema : OutputSchema}
    (hschema : lookup (WorkflowSpec.ofJson j).outputSchemas s.outputSchema = some schema)
    {obj out : Json} (hout : validateAgainstSchema obj schema = .ok out) (round : Nat) :
    routingCode (selectEdge (WorkflowSpec.ofJson j) s.id out round) ≠ some .ambiguous ∧
    (outgoing (WorkflowSpec.ofJson j) s.id ≠ [] →
      TestsRequiredEnum (WorkflowSpec.ofJson j) s.id schema ∨
        (∃ e ∈ outgoing (WorkflowSpec.ofJson j) s.id, e.condition = none) →
      routingCode (selectEdge (WorkflowSpec.ofJson j) s.id out round) ≠ some .noEdge) := by
  have h := ValidSpec.of_valid hv
  by_cases hempty : outgoing (WorkflowSpec.ofJson j) s.id = []
  · refine ⟨?_, fun hne => absurd hempty hne⟩
    rw [Ne, selectEdge_ambiguous_iff, matchedConditional, fallbacks, hempty]
    simp
  · constructor
    · rw [Ne, selectEdge_ambiguous_iff]
      have hm := h.matched_le_one hempty out round
      have hf := (h.routing_parts hempty).1
      rw [← h.typed_fallbacks] at hf
      rintro (h2 | ⟨-, h2⟩) <;> omega
    · intro _ hcase
      rw [Ne, selectEdge_noEdge_iff]
      rintro ⟨hnomatch, hnofb⟩
      rcases hcase with htests | ⟨e, he, hnone⟩
      · exact h.enum_matches hs hschema hout round hempty hnofb htests hnomatch
      · have hm : e ∈ fallbacks (WorkflowSpec.ofJson j) s.id :=
          List.mem_filter.mpr ⟨he, by rw [hnone]; rfl⟩
        rw [hnofb] at hm
        exact nomatch hm

/-! ### A step that nothing leaves

Two steps share an enum schema; the first routes one value to the second and the other to
`$complete`, and the second has no outgoing edge at all. -/

/-- A required enum field with two values. -/
def enumField : Json :=
  .obj [("type", .str "enum"), ("enum", .arr [.str "x", .str "y"]), ("required", .bool true)]

/-- An object-valued table with the schema `s` of one required enum field `k`. -/
def enumSchemas : Json := .obj [("s", .obj [("fields", .obj [("k", enumField)])])]

/-- One agent role `r`. -/
def oneRole : Json := .obj [("r", .obj [("agent", .str "x")])]

/-- A step of role `r` and schema `s`. -/
def plainStep (id template : String) : Json :=
  .obj [("id", .str id), ("type", .str "agent_task"), ("agent_role", .str "r"),
    ("prompt_template", .str template), ("output_schema", .str "s")]

/-- An edge taken when `output.k` equals `value`. -/
def enumEdge (source target kind value : String) : Json :=
  .obj [("from", .str source), ("to", .str target), ("kind", .str kind),
    ("condition", .obj [("path", .str "output.k"), ("op", .str "eq"), ("value", .str value)])]

/-- An unconditional edge. -/
def plainEdge (source target : String) : Json :=
  .obj [("from", .str source), ("to", .str target), ("kind", .str "normal")]

def smallLimits (extra : List (String × Json)) : Json :=
  .obj (("max_tasks", .num (.ofInt 9)) :: ("max_runtime_seconds", .num (.ofInt 60))
    :: ("max_step_attempts", .num (.ofInt 1)) :: ("max_failures", .num (.ofInt 1)) :: extra)

/-- A completion asks for the task's status. -/
def statusPolicy : String × Json :=
  ("completion_policy", .obj [("required_evidence", .arr [.str "task_status"])])

/-- One step, then the end. -/
def oneStepSpec : Json :=
  .obj [("version", .str "1"), ("name", .str "w"), ("entry_step", .str "a"),
    ("agents", oneRole), ("output_schemas", enumSchemas), ("limits", smallLimits []),
    ("steps", .arr [plainStep "a" "go"]), ("edges", .arr [plainEdge "a" "$complete"]), statusPolicy]

def deadEndSpec : Json :=
  .obj [("version", .str "1"), ("name", .str "w"), ("entry_step", .str "a"),
    ("agents", oneRole), ("output_schemas", enumSchemas), ("limits", smallLimits []),
    ("steps", .arr [plainStep "a" "go", plainStep "b" "go"]),
    ("edges", .arr [enumEdge "a" "b" "normal" "x", enumEdge "a" "$complete" "normal" "y"]), statusPolicy]

theorem deadEndSpec_valid : (validateWorkflowSpec deadEndSpec).valid = true := by decide +kernel

/-- The schema of both steps. -/
def enumSchema : OutputSchema := [("k", ⟨.enum, true, ["x", "y"]⟩)]

/-- The second step has no outgoing edge, so its (no) conditions all test the required enum,
    and routing finds no edge. -/
theorem deadEndSpec_no_edge :
    (validateWorkflowSpec deadEndSpec).valid = true ∧
    AgentTaskStep.ofJson (plainStep "b" "go") ∈ (WorkflowSpec.ofJson deadEndSpec).steps ∧
    lookup (WorkflowSpec.ofJson deadEndSpec).outputSchemas "s" = some enumSchema ∧
    TestsRequiredEnum (WorkflowSpec.ofJson deadEndSpec) "b" enumSchema ∧
    validateAgainstSchema (.obj [("k", .str "x")]) enumSchema = .ok (.obj [("k", .str "x")]) ∧
    routingCode (selectEdge (WorkflowSpec.ofJson deadEndSpec) "b" (.obj [("k", .str "x")]) 1)
      = some .noEdge := by
  refine ⟨deadEndSpec_valid, by decide +kernel, by decide +kernel, ?_, by decide +kernel,
    by decide +kernel⟩
  refine ⟨"k", ⟨.enum, true, ["x", "y"]⟩, by decide, rfl, rfl, ?_⟩
  have hnone : outgoing (WorkflowSpec.ofJson deadEndSpec) "b" = [] := by decide +kernel
  intro e he
  rw [hnone] at he
  exact nomatch he

/-- The first step of the same spec routes. -/
theorem deadEndSpec_entry_routes :
    routingCode (selectEdge (WorkflowSpec.ofJson deadEndSpec) "a" (.obj [("k", .str "x")]) 1)
      ≠ some .ambiguous ∧
    routingCode (selectEdge (WorkflowSpec.ofJson deadEndSpec) "a" (.obj [("k", .str "x")]) 1)
      ≠ some .noEdge := by
  have h := validated_routing deadEndSpec_valid
    (s := AgentTaskStep.ofJson (plainStep "a" "go")) (by decide +kernel)
    (show lookup _ "s" = some enumSchema by decide +kernel)
    (show validateAgainstSchema (.obj [("k", .str "x")]) enumSchema
      = .ok (.obj [("k", .str "x")]) by decide +kernel) 1
  refine ⟨h.1, h.2 (by decide +kernel) (Or.inl ?_)⟩
  refine ⟨"k", ⟨.enum, true, ["x", "y"]⟩, by decide, rfl, rfl, ?_⟩
  have hpaths : ∀ e ∈ outgoing (WorkflowSpec.ofJson deadEndSpec) "a",
      e.condition.all (fun c => decide (parseConditionPath c.path = some (.output "k"))) = true := by
    decide +kernel
  intro e he c hc
  have := hpaths e he
  rw [hc] at this
  simpa using this

/-! ## Reachability of steps and terminal targets -/

/-- One declared edge, to a step or to a reserved target. -/
def StepEdge (spec : WorkflowSpec) (u v : String) : Prop :=
  ∃ e ∈ spec.edges, e.fromStep = u ∧ e.target = v

/-- A path of declared edges. -/
abbrev StepPath (spec : WorkflowSpec) : String → String → Prop :=
  Relation.ReflTransGen (StepEdge spec)

namespace ValidSpec

variable {j : Json}

/-- Every step of an accepted spec has a path from the entry. -/
theorem step_reachable (h : ValidSpec j) {id : String} (hid : id ∈ specStepIds j) :
    StepPath (WorkflowSpec.ofJson j) (WorkflowSpec.ofJson j).entryStep id := by
  refine Relation.ReflTransGen.mono ?_ _ _ (reachableFrom_sound (h.step_marked hid))
  intro u v huv
  obtain ⟨e, he, hu, hv, -⟩ := h.mem_stepEdges.mp huv
  exact ⟨e, he, hu, hv⟩

/-- Some declared edge of an accepted spec has a reserved target. -/
theorem terminal_edge (h : ValidSpec j) :
    ∃ e ∈ (WorkflowSpec.ofJson j).edges, isTerminalTarget e.target = true := by
  have hg := h.graph
  simp only [analyzeGraph, List.append_eq_nil_iff, errIf_nil] at hg
  obtain ⟨⟨hterm, -⟩, -⟩ := hg
  have harr : (j.get? "edges").any Json.isArr = true := by
    have he := h.edges
    unfold validateEdges at he
    split at he
    · rename_i es heq
      rw [heq]
      rfl
    · exact absurd he err_ne_nil
  rw [harr, Bool.and_true, Bool.not_eq_false'] at hterm
  obtain ⟨raw, hraw, hok⟩ := List.any_eq_true.mp hterm
  obtain ⟨-, -, -, hto, -⟩ := h.edge_of_raw hraw
  refine ⟨WorkflowEdge.ofJson raw, List.mem_map.mpr ⟨raw, hraw, rfl⟩, ?_⟩
  rw [hto] at hok
  exact (Bool.and_eq_true _ _ ▸ hok).2

/-- From every step a path leads to a reserved target or to a step no normal edge leaves.  The
    induction is on the rank that drops along normal edges. -/
theorem path_to_sink (h : ValidSpec j) :
    ∀ id ∈ specStepIds j, ∃ t, StepPath (WorkflowSpec.ofJson j) id t ∧
      (isTerminalTarget t = true ∨
        (t ∈ specStepIds j ∧ ∀ e ∈ (WorkflowSpec.ofJson j).edges, e.fromStep = t → e.kind = .loop)) := by
  obtain ⟨rank, hrank⟩ := h.normal_edges_rank
  intro id
  induction hn : rank id using Nat.strong_induction_on generalizing id with
  | _ n ih =>
    intro hid
    by_cases hsink : ∀ e ∈ (WorkflowSpec.ofJson j).edges, e.fromStep = id → e.kind = .loop
    · exact ⟨id, Relation.ReflTransGen.refl, Or.inr ⟨hid, hsink⟩⟩
    · push Not at hsink
      obtain ⟨e, he, rfl, hk⟩ := hsink
      rcases (h.edge_of_mem he).2 with hterm | hstep
      · exact ⟨e.target, Relation.ReflTransGen.single ⟨e, he, rfl, rfl⟩, Or.inl hterm⟩
      · have hnormal : e.kind = .normal := by
          cases hkv : e.kind with
          | normal => rfl
          | loop => exact absurd hkv hk
        have hlt := hrank e he hnormal hstep
        obtain ⟨t, hpath, ht⟩ := ih (rank e.target) (by omega) e.target rfl hstep
        exact ⟨t, Relation.ReflTransGen.head ⟨e, he, rfl, rfl⟩ hpath, ht⟩

end ValidSpec

/-- **WHAT THE GRAPH CHECKS GUARANTEE.**  Every step is reachable from the entry, the entry has
    a path to a terminal target, and from every step a path leads to a terminal target or to a
    step that no normal edge leaves. -/
theorem validated_reachability {j : Json} (hv : (validateWorkflowSpec j).valid = true) :
    (∀ s ∈ (WorkflowSpec.ofJson j).steps,
      StepPath (WorkflowSpec.ofJson j) (WorkflowSpec.ofJson j).entryStep s.id) ∧
    (∃ t, isTerminalTarget t = true ∧
      StepPath (WorkflowSpec.ofJson j) (WorkflowSpec.ofJson j).entryStep t) ∧
    (∀ s ∈ (WorkflowSpec.ofJson j).steps, ∃ t, StepPath (WorkflowSpec.ofJson j) s.id t ∧
      (isTerminalTarget t = true ∨
        ((∃ u ∈ (WorkflowSpec.ofJson j).steps, u.id = t) ∧
          ∀ e ∈ (WorkflowSpec.ofJson j).edges, e.fromStep = t → e.kind = .loop))) := by
  have h := ValidSpec.of_valid hv
  refine ⟨?_, ?_, ?_⟩
  · intro s hs
    exact h.step_reachable (h.mem_stepIds.mpr ⟨s, hs, rfl⟩)
  · obtain ⟨e, he, hterm⟩ := h.terminal_edge
    exact ⟨e.target, hterm,
      (h.step_reachable (h.edge_of_mem he).1).tail ⟨e, he, rfl, rfl⟩⟩
  · intro s hs
    obtain ⟨t, hpath, ht⟩ := h.path_to_sink s.id (h.mem_stepIds.mpr ⟨s, hs, rfl⟩)
    refine ⟨t, hpath, ht.imp id ?_⟩
    rintro ⟨hin, hloop⟩
    exact ⟨h.mem_stepIds.mp hin, hloop⟩

/-- From the second step of the sample spec no path of edges ends at a terminal target: no edge
    leaves it. -/
theorem deadEndSpec_stuck :
    (validateWorkflowSpec deadEndSpec).valid = true ∧
    AgentTaskStep.ofJson (plainStep "b" "go") ∈ (WorkflowSpec.ofJson deadEndSpec).steps ∧
    outgoing (WorkflowSpec.ofJson deadEndSpec) "b" = [] ∧
    ¬ ∃ t, isTerminalTarget t = true ∧ StepPath (WorkflowSpec.ofJson deadEndSpec) "b" t := by
  have hnone : outgoing (WorkflowSpec.ofJson deadEndSpec) "b" = [] := by decide +kernel
  refine ⟨deadEndSpec_valid, by decide +kernel, hnone, ?_⟩
  rintro ⟨t, hterm, hpath⟩
  rcases Relation.ReflTransGen.cases_head hpath with rfl | ⟨v, ⟨e, he, hfrom, -⟩, -⟩
  · exact absurd hterm (by decide)
  · have hm : e ∈ outgoing (WorkflowSpec.ofJson deadEndSpec) "b" :=
      List.mem_filter.mpr ⟨he, by simp [hfrom]⟩
    rw [hnone] at hm
    exact nomatch hm

/-- The entry of the sample spec can still end by routing. -/
theorem deadEndSpec_entry_ends :
    ∃ t, isTerminalTarget t = true ∧ StepPath (WorkflowSpec.ofJson deadEndSpec) "a" t :=
  (validated_reachability deadEndSpec_valid).2.1

end VibeValidator
