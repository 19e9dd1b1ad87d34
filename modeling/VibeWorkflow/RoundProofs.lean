import Mathlib.Data.List.ProdSigma
import VibeWorkflow.ExactlyOnceProofs

/-!
# Where a walk stands

Normal edges lower a rank of the steps and keep the round; loop edges raise the round, up to its
limit.  So every execution a workflow has lies behind the one an edge leads to, and taking an
edge always finds its row missing, also after a crash: the row and the position are written
together.

* **`Placed`** — the executions lie behind the current one, in rounds within the limit.
* **`reach_placed`** — in every run.
* **`advance_fresh`** — an edge never leads to an execution the workflow already has.
* **`executions_length_le`** — how many executions there can be.
-/

namespace VibeRuntime

open VibeJson VibeContract VibeRouting VibeTemplate VibeValidator VibeStore VibeAdmission VibeControl
open AsyncLogic

/-- The last round a workflow may reach. -/
def roundLimit (cfg : Config) : Nat := max 1 (cfg.spec.limits.maxRounds.getD 0)

/-- Does a rank drop along every normal edge to a step? -/
def Ranks (cfg : Config) (rank : String → Nat) : Prop :=
  ∀ e ∈ cfg.spec.edges, e.kind = .normal → e.target ∈ specStepIds cfg.rawSpec →
    rank e.target < rank e.fromStep

/-- One execution lies behind another, or is it. -/
def Behind (rank : String → Nat) (k k' : StepKey) : Prop :=
  k.round < k'.round ∨ (k.round = k'.round ∧ rank k'.stepId ≤ rank k.stepId)

/-- The current execution is one of the spec's within its rounds, and the rows lie behind it. -/
structure Placed (cfg : Config) (rank : String → Nat) (O : Owned) : Prop where
  step : (O.cur cfg).stepId ∈ specStepIds cfg.rawSpec
  first : 1 ≤ (O.cur cfg).round
  last : (O.cur cfg).round ≤ roundLimit cfg
  rows : ∀ r ∈ O.steps, r.key.stepId ∈ specStepIds cfg.rawSpec ∧ 1 ≤ r.key.round ∧
    Behind rank r.key (O.cur cfg)

section

variable {cfg : Config} {rank : String → Nat} {w w' : World}

theorem Behind.refl (k : StepKey) : Behind rank k k := Or.inr ⟨rfl, Nat.le_refl _⟩

theorem Behind.round_le {k k' : StepKey} (h : Behind rank k k') : k.round ≤ k'.round := by
  rcases h with h | ⟨h, -⟩ <;> omega

/-- An edge to a step is one of the spec's. -/
theorem edge_target (hv : ValidSpec cfg.rawSpec) {k : StepKey} {output : Json} {d : RoutingDecision}
    (h : selectEdge cfg.spec k.stepId output k.round = .ok d) (hstep : d.terminal = false) :
    d.target ∈ specStepIds cfg.rawSpec ∧
      ∃ e ∈ cfg.spec.edges, e.fromStep = k.stepId ∧ e.target = d.target ∧ e.kind = d.edgeKind := by
  obtain ⟨e, he, hfrom, rfl⟩ := selectEdge_ok_mem h
  refine ⟨?_, e, he, hfrom, rfl, rfl⟩
  rcases (hv.edge_of_mem he).2 with hterm | hmem
  · have hstep : isTerminalTarget e.target = false := hstep
    rw [hterm] at hstep
    exact nomatch hstep
  · exact hmem

/-- **An edge leads ahead** of everything behind the execution it leaves. -/
theorem behind_next (hv : ValidSpec cfg.rawSpec) (hrank : Ranks cfg rank) {k k₀ : StepKey}
    {output : Json} {d : RoutingDecision} (h : selectEdge cfg.spec k.stepId output k.round = .ok d)
    (hstep : d.terminal = false) (hb : Behind rank k₀ k) : Behind rank k₀ (nextKey k d) ∧ k₀ ≠ nextKey k d := by
  have hle := hb.round_le
  by_cases hl : d.edgeKind = .loop
  · -- the next round has not begun
    have hround : (nextKey k d).round = k.round + 1 := if_pos hl
    have hlt : k₀.round < (nextKey k d).round := by omega
    exact ⟨Or.inl hlt, fun heq => absurd (heq ▸ hlt) (Nat.lt_irrefl _)⟩
  · obtain ⟨hmem, e, he, hfrom, htgt, hkind⟩ := edge_target hv h hstep
    have hnormal : e.kind = .normal := by
      cases hk : e.kind with
      | normal => rfl
      | loop => exact absurd (hkind.symm.trans hk) hl
    have hdrop := hrank e he hnormal (htgt ▸ hmem)
    rw [htgt, hfrom] at hdrop
    have hround : (nextKey k d).round = k.round := if_neg hl
    rcases hb with hlt | ⟨heq, hr⟩
    · refine ⟨Or.inl (by omega), fun hk => ?_⟩
      rw [hk] at hlt
      omega
    · have hlt : rank (nextKey k d).stepId < rank k₀.stepId := Nat.lt_of_lt_of_le hdrop hr
      refine ⟨Or.inr ⟨by omega, Nat.le_of_lt hlt⟩, fun hk => ?_⟩
      rw [hk] at hlt
      exact Nat.lt_irrefl _ hlt

/-- The execution an edge leads to is within the rounds. -/
theorem next_within {k : StepKey} {d : RoutingDecision} (hfirst : 1 ≤ k.round)
    (hlast : k.round ≤ roundLimit cfg)
    (hroom : d.edgeKind = .loop → canTakeLoopEdge k.round (cfg.spec.limits.maxRounds.getD 0) = true) :
    1 ≤ (nextKey k d).round ∧ (nextKey k d).round ≤ roundLimit cfg := by
  by_cases hl : d.edgeKind = .loop
  · have hround : (nextKey k d).round = k.round + 1 := if_pos hl
    have hroom : k.round < cfg.spec.limits.maxRounds.getD 0 := of_decide_eq_true (hroom hl)
    unfold roundLimit
    omega
  · have hround : (nextKey k d).round = k.round := if_neg hl
    omega

/-- The current execution and the keys of the rows are all that counts. -/
theorem Placed.congr {O O' : Owned} (h : Placed cfg rank O) (hcur : O'.cur cfg = O.cur cfg)
    (hkeys : O'.steps.map StepRow.key = O.steps.map StepRow.key) : Placed cfg rank O' where
  step := hcur ▸ h.step
  first := hcur ▸ h.first
  last := hcur ▸ h.last
  rows := by
    intro r hr
    have hmem : r.key ∈ O.steps.map StepRow.key := hkeys ▸ List.mem_map_of_mem hr
    obtain ⟨r₀, hr₀, heq⟩ := List.mem_map.mp hmem
    rw [hcur, ← heq]
    exact h.rows r₀ hr₀

theorem setStep_keys (O : Owned) (k : StepKey) {f : StepRow → StepRow} (hf : ∀ r, (f r).key = r.key) :
    (O.setStep k f).steps.map StepRow.key = O.steps.map StepRow.key := by
  show (O.steps.map _).map StepRow.key = _
  rw [List.map_map]
  refine List.map_congr_left (fun r _ => ?_)
  show (if r.key = k then f r else r).key = r.key
  split
  · exact hf r
  · rfl

/-- **A write of the pump's own data** keeps the walk in place. -/
theorem Placed.ownedStep (hv : ValidSpec cfg.rawSpec) (hrank : Ranks cfg rank) {op : Op} {O' : Owned}
    (hj : Justified cfg op w) (hs : OwnedStep op (owned w.db) O')
    (h : Placed cfg rank (owned w.db)) : Placed cfg rank O' := by
  generalize hO : owned w.db = O at hs h
  cases hs with
  | same => exact h
  | @started k ev _ hnone =>
    have hcur : O.cur cfg = k := hO ▸ hj.1
    have hnew := start_cur O hcur
    refine ⟨?_, ?_, ?_, ?_⟩
    · rw [hnew, ← hcur]
      exact h.step
    · rw [hnew, ← hcur]
      exact h.first
    · rw [hnew, ← hcur]
      exact h.last
    · rw [hnew]
      intro r hr
      rcases mem_snoc.mp hr with hr | rfl
      · rw [← hcur]
        exact h.rows r hr
      · exact ⟨hcur ▸ h.step, hcur ▸ h.first, Behind.refl k⟩
  | @bound k taskId ev _ row hrow hfree =>
    exact h.congr rfl (setStep_keys O k (f := fun r => { r with taskId := some taskId }) (fun _ => rfl))
  | @completed k output context ev _ row hrow hlive =>
    exact h.congr rfl (setStep_keys O k
      (f := fun r => { r with status := .completed, output := some output }) (fun _ => rfl))
  | @advanced edgeEv roundEv next startedEv _ hnone =>
    obtain ⟨k, output, d, hrt, hterm, hloop, -, rfl, rfl, -⟩ := hj
    obtain ⟨row, hat, -⟩ := hrt.left
    have hcur : O.cur cfg = k := hO ▸ hat.cur
    have hnew := advance_cur O d hcur
    have hmem := (edge_target hv hrt.edge hterm).1
    have hwithin := next_within (hcur ▸ h.first) (hcur ▸ h.last) (fun hl => (hloop hl).1.room)
    refine ⟨?_, ?_, ?_, ?_⟩
    · rw [hnew]
      exact hmem
    · rw [hnew]
      exact hwithin.1
    · rw [hnew]
      exact hwithin.2
    · rw [hnew]
      intro r hr
      rcases mem_snoc.mp hr with hr | rfl
      · obtain ⟨hid, hone, hb⟩ := h.rows r hr
        exact ⟨hid, hone, (behind_next hv hrank hrt.edge hterm (hcur ▸ hb)).1⟩
      · exact ⟨hmem, hwithin.1, Behind.refl _⟩
  | stalled _ => exact h.congr rfl rfl

theorem placed_move (hv : ValidSpec cfg.rawSpec) (hrank : Ranks cfg rank) {s : Sys} {a : Action}
    (hinv : SysInv cfg s) (hm : Move cfg s a w') (h : Placed cfg rank (owned s.w.db)) :
    Placed cfg rank (owned w'.db) := by
  rcases hm.call_or_env with ⟨_, _, op, r, -, hop, hg, hex⟩ | henv
  · have hs := (exec_effect hex).owned hinv.core.keys
    rcases hg with hj | hg
    · exact h.ownedStep hv hrank hj hs
    · rw [ApiGuard.owned hg hs]
      exact h
  · rw [henv.db]
    exact h

/-- A created workflow stands before its entry step. -/
theorem placed_initial (hv : ValidSpec cfg.rawSpec) : Placed cfg rank (owned (initialDb cfg)) where
  step := hv.entry_mem
  first := Nat.le_refl 1
  last := Nat.le_max_left _ _
  rows := fun _ hr => absurd hr List.not_mem_nil

/-- **In every run** the executions lie behind the current one. -/
theorem reach_placed (hv : ValidSpec cfg.rawSpec) (hrank : Ranks cfg rank)
    {ok : Sys → Action → Prop} {s : Sys} (h : Reach cfg ok s) : Placed cfg rank (owned s.w.db) :=
  reach_world (P := fun w => Placed cfg rank (owned w.db)) (placed_initial hv)
    (fun _ _ _ hinv _ hm hP => placed_move hv hrank hinv hm hP) h

/-- **An edge never leads to an execution the workflow already has.** -/
theorem advance_fresh (hv : ValidSpec cfg.rawSpec) (hrank : Ranks cfg rank)
    (h : Placed cfg rank (owned w.db)) {edgeEv startedEv : WorkflowEvent}
    {roundEv : Option WorkflowEvent} {next : StepKey}
    (hj : Justified cfg (.advance edgeEv roundEv next startedEv) w) : w.db.step? next = none := by
  obtain ⟨k, output, d, hrt, hterm, -, -, -, rfl, -⟩ := hj
  obtain ⟨row, hat, -⟩ := hrt.left
  cases hfound : w.db.step? (nextKey k d) with
  | none => rfl
  | some r =>
    have hown := owned_step?_some hfound
    obtain ⟨hmem, hkey⟩ := Owned.step?_mem hown
    have hb := (h.rows _ hmem).2.2
    rw [hat.cur] at hb
    exact absurd hkey (behind_next hv hrank hrt.edge hterm hb).2

/-- **How many executions there can be**: one for each step and round. -/
theorem executions_length_le (hv : ValidSpec cfg.rawSpec) {keys : List StepKey} (hkeys : keys.Nodup)
    (hin : ∀ k ∈ keys, k.stepId ∈ specStepIds cfg.rawSpec ∧ 1 ≤ k.round ∧ k.round ≤ roundLimit cfg) :
    keys.length ≤ cfg.spec.steps.length * roundLimit cfg := by
  have hsub : keys ⊆
      (specStepIds cfg.rawSpec ×ˢ List.range' 1 (roundLimit cfg)).map (fun p => StepKey.mk p.1 p.2) := by
    intro k hk
    obtain ⟨hid, hone, hlast⟩ := hin k hk
    refine List.mem_map.mpr ⟨(k.stepId, k.round), ?_, rfl⟩
    exact List.mem_product.mpr ⟨hid, List.mem_range'_1.mpr ⟨hone, by omega⟩⟩
  have hlen := (hkeys.subperm hsub).length_le
  have hids : (specStepIds cfg.rawSpec).length = cfg.spec.steps.length := by
    rw [hv.specStepIds_eq, List.length_map]
    rfl
  rw [List.length_map, List.length_product, List.length_range', hids] at hlen
  exact hlen

theorem Placed.length_le (hv : ValidSpec cfg.rawSpec) {O : Owned} (h : Placed cfg rank O)
    (hkeys : (O.steps.map StepRow.key).Nodup) :
    O.steps.length ≤ cfg.spec.steps.length * roundLimit cfg := by
  rw [← List.length_map StepRow.key]
  refine executions_length_le hv hkeys ?_
  intro k hk
  obtain ⟨r, hr, rfl⟩ := List.mem_map.mp hk
  obtain ⟨hid, hone, hb⟩ := h.rows r hr
  exact ⟨hid, hone, Nat.le_trans hb.round_le h.last⟩

end

end VibeRuntime
