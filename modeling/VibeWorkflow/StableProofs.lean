import VibeWorkflow.RelyProofs

/-!
# What interference leaves of the driver's knowledge

Everything the driver learns of the executions, the limits and the answers it was given stays
true while it is suspended, and so does the request it computes for an execution: the context,
the outputs and the pause's answer it is rendered from do not change meanwhile.

* **`scopeAt_rely`**, **`requestOf_rely`** — an execution's request is stable.
-/

namespace VibeRuntime

open VibeJson VibeContract VibeRouting VibeTemplate VibeValidator VibeStore VibeAdmission VibeControl
open AsyncLogic

/-! ## What interference leaves -/

section

variable {cfg : Config} {w w' : World} {k : StepKey}

/-- Others leave the current step of a pump alone. -/
theorem AtStep.rely {row : StepRow} (h : AtStep cfg w k row) (hr : Rely w w') :
    AtStep cfg w' k row := by
  refine ⟨?_, ?_⟩
  · rw [hr.owned]
    exact h.cur
  · rw [hr.owned]
    exact h.row

theorem AtUnbound.rely (h : AtUnbound cfg w k) (hr : Rely w w') : AtUnbound cfg w' k := by
  obtain ⟨row, hat, hs, ht⟩ := h
  exact ⟨row, hat.rely hr, hs, ht⟩

theorem AtBound.rely {t : String} (h : AtBound cfg w k t) (hr : Rely w w') : AtBound cfg w' k t := by
  obtain ⟨row, hat, hs, ht⟩ := h
  exact ⟨row, hat.rely hr, hs, ht⟩

theorem AtOutput.rely {output : Json} (h : AtOutput cfg w k output) (hr : Rely w w') :
    AtOutput cfg w' k output := by
  obtain ⟨row, hat, hs, ho⟩ := h
  exact ⟨row, hat.rely hr, hs, ho⟩

/-- Others count no task. -/
theorem TaskRoom.rely (h : TaskRoom cfg w) (hr : Rely w w') : TaskRoom cfg w' := by
  have heq : w'.db.wf.totalTasks = w.db.wf.totalTasks := congrArg Owned.totalTasks hr.owned
  unfold TaskRoom
  rw [heq]
  exact h

/-- An answered pause stays answered. -/
theorem PauseOk.rely (h : PauseOk cfg w k) (hr : Rely w w') : PauseOk cfg w' k := by
  intro hg
  obtain ⟨row, hrow, hs⟩ := h hg
  refine ⟨row, hr.human _ _ hrow ?_, hs⟩
  rcases hs with hs | hs
  · rw [hs]
    exact nofun
  · rw [hs]
    exact nofun

/-- A read of a result stays true. -/
theorem ResultRead.rely {t : String} {r : TerminalRead} (h : ResultRead w t r) (hr : Rely w w') :
    ResultRead w' t r := by
  obtain ⟨r₀, h₀, ht, hs⟩ := h.completed
  exact ⟨hr.log h.read, h.task, r₀, hr.log h₀, ht, hs⟩

/-- A selected edge stays selected. -/
theorem Routed.rely {output : Json} {d : RoutingDecision} (h : Routed cfg w k output d)
    (hr : Rely w w') : Routed cfg w' k output d :=
  ⟨h.left.rely hr, h.edge⟩

theorem Looped.rely {output : Json} {d : RoutingDecision} (h : Looped cfg w k output d)
    (hr : Rely w w') : Looped cfg w' k output d :=
  ⟨h.toRouted.rely hr, h.step, h.loop, h.room⟩

theorem TaskRowRead.rely {t : String} {st : Option String} (h : TaskRowRead w t st)
    (hr : Rely w w') : TaskRowRead w' t st := by
  rcases h with h | ⟨h, hn⟩
  · exact Or.inl (hr.log h)
  · exact Or.inr ⟨hr.log h, hn⟩

theorem TaskResultRead.rely {t : String} {r : Option TaskResult} (h : TaskResultRead w t r)
    (hr : Rely w w') : TaskResultRead w' t r := by
  rcases h with h | ⟨h, hn⟩
  · exact Or.inl (hr.log h)
  · exact Or.inr ⟨hr.log h, hn⟩

theorem EvidenceRead.rely {t : Option String} {e : VerifiedEvidence} (h : EvidenceRead cfg w t e)
    (hr : Rely w w') : EvidenceRead cfg w' t e := by
  obtain ⟨st, r, before, after, he, hrev, hread⟩ := h
  refine ⟨st, r, before, after, he, hrev, ?_⟩
  cases t with
  | none => exact hread
  | some t => exact ⟨hread.1.rely hr, hread.2.rely hr⟩

theorem LeaseHashRead.rely {s : String} (h : LeaseHashRead w s) (hr : Rely w w') :
    LeaseHashRead w' s := by
  rcases h with h | ⟨r, h, hs⟩
  · exact Or.inl h
  · exact Or.inr ⟨r, hr.log h, hs⟩

/-- The latest execution of another step is owned. -/
theorem latestOther_owned (db : Db) (stepId : String) :
    (latestOther (listStepExecutions db) stepId).map maskRow
      = latestOther ((owned db).steps.mergeSort (fun a b => decide (a.key.round ≤ b.key.round)))
        stepId := by
  have hsort : (db.steps.map maskRow).mergeSort (fun a b => decide (a.key.round ≤ b.key.round))
      = (listStepExecutions db).map maskRow :=
    (List.map_mergeSort (f := maskRow) (r := fun a b => decide (a.key.round ≤ b.key.round))
      (fun _ _ _ _ => rfl)).symm
  show _ = latestOther ((db.steps.map maskRow).mergeSort _) stepId
  rw [hsort]
  unfold latestOther
  rw [List.filter_map, List.getLast?_map]
  congr 2
  refine List.filter_congr (fun r _ => ?_)
  by_cases h : r.status = .completed <;> simp [maskRow, h]

theorem latestTask_rely (hr : Rely w w') (stepId : String) :
    (latestOther (listStepExecutions w'.db) stepId).bind StepRow.taskId
      = (latestOther (listStepExecutions w.db) stepId).bind StepRow.taskId := by
  have h1 := latestOther_owned w'.db stepId
  rw [hr.owned, ← latestOther_owned w.db stepId] at h1
  have h2 := congrArg (fun o => o.bind StepRow.taskId) h1
  simpa [Option.bind_map, Function.comp_def] using h2

theorem ContentHashRead.rely {stepId : String} {s : Option String} (h : ContentHashRead w stepId s)
    (hr : Rely w w') : ContentHashRead w' stepId s := by
  unfold ContentHashRead at h ⊢
  rw [latestTask_rely hr stepId]
  split at h
  · exact h
  · obtain ⟨r, hread, hs⟩ := h
    exact ⟨r, hread.rely hr, hs⟩

/-- A recorded round stays recorded. -/
theorem StallRecorded.rely {round : Nat} (h : StallRecorded w round) (hr : Rely w w') :
    StallRecorded w' round := by
  have heq : w'.db.stall = w.db.stall := congrArg Owned.stall hr.owned
  unfold StallRecorded
  rw [heq]
  exact h

/-- Others record no round. -/
theorem listStallRounds_rely (hr : Rely w w') : listStallRounds w'.db = listStallRounds w.db := by
  have heq : w'.db.stall = w.db.stall := congrArg Owned.stall hr.owned
  unfold listStallRounds
  rw [heq]

end

/-! ## The request of an execution is stable -/

section

variable {cfg : Config} {w w' : World} {k : StepKey}

/-- A loaded spec is a valid one. -/
theorem loaded_spec {spec : WorkflowSpec} (h : cfg.loaded = some spec) :
    ValidSpec cfg.rawSpec ∧ spec = cfg.spec := by
  rw [cfg.loaded_eq] at h
  unfold loadSpec at h
  split at h
  · rename_i hv
    cases h
    exact ⟨ValidSpec.of_valid hv, rfl⟩
  · exact nomatch h

/-- The step of an execution has a safe name. -/
theorem stepAndRole_no_dot (hv : ValidSpec cfg.rawSpec) (h : (stepAndRole cfg.spec k).isSome) :
    '.' ∉ k.stepId.toList := by
  unfold stepAndRole at h
  cases hs : cfg.spec.step? k.stepId with
  | none =>
    rw [hs] at h
    exact nomatch h
  | some s =>
    have hmem := List.mem_of_find?_eq_some hs
    have hid : s.id = k.stepId := by simpa using List.find?_some hs
    exact isSafeName_no_dot (hv.stepId_safe (hv.mem_stepIds.mpr ⟨s, hmem, hid⟩))

theorem gateOf_step {k : StepKey} (h : (gateOf cfg k).isSome) : (stepAndRole cfg.spec k).isSome := by
  unfold gateOf at h
  cases hs : stepAndRole cfg.spec k with
  | none =>
    rw [hs] at h
    exact nomatch h
  | some s => rfl

/-- A step without a gate has no request. -/
theorem human?_ungated (hv : ValidSpec cfg.rawSpec) (hi : CoreInv cfg w)
    (hs : (stepAndRole cfg.spec k).isSome) (hg : gateOf cfg k = none) :
    w.db.human? (cfg.humanRequestId k) = none := by
  cases hh : w.db.human? (cfg.humanRequestId k) with
  | none => rfl
  | some h =>
    obtain ⟨hmem, hid⟩ := Db.human?_mem hh
    obtain ⟨hreq, hgate⟩ := hi.human.gate h hmem
    have hdig : cfg.digest (cfg.sec h.key) = cfg.digest (cfg.sec k) := by
      have hcat : "hr_" ++ cfg.digest (cfg.sec h.key) = "hr_" ++ cfg.digest (cfg.sec k) :=
        hreq.symm.trans hid
      exact String.append_right_inj _ |>.mp hcat
    have hkey : h.key = k := stepExecutionId_inj (stepAndRole_no_dot hv (gateOf_step (by rw [hgate]; rfl)))
      (stepAndRole_no_dot hv hs) (cfg.digest_inj hdig)
    rw [hkey, hg] at hgate
    exact nomatch hgate

/-- So does the answer it was given. -/
theorem human?_rely (hv : ValidSpec cfg.rawSpec) (hi : CoreInv cfg w)
    (hs : (stepAndRole cfg.spec k).isSome) (hp : PauseOk cfg w k) (hr : Rely w w') :
    w'.db.human? (cfg.humanRequestId k) = w.db.human? (cfg.humanRequestId k) := by
  cases hg : gateOf cfg k with
  | none =>
    have hnone := human?_ungated hv hi hs hg
    rw [hnone]
    exact hr.noHuman _ hnone
  | some g =>
    obtain ⟨row, hrow, hst⟩ := hp (by rw [hg]; rfl)
    rw [hrow]
    refine hr.human _ _ hrow ?_
    rcases hst with hst | hst
    · rw [hst]
      exact nofun
    · rw [hst]
      exact nofun

/-- **The scope of an execution's templates does not change while it waits.** -/
theorem scopeAt_rely (hv : ValidSpec cfg.rawSpec) (hi : CoreInv cfg w)
    (hs : (stepAndRole cfg.spec k).isSome) (hp : PauseOk cfg w k) (hr : Rely w w') :
    scopeAt cfg w' k = scopeAt cfg w k := by
  have hctx : w'.db.wf.context = w.db.wf.context := congrArg Owned.context hr.owned
  unfold scopeAt renderScopeOf
  rw [human?_rely hv hi hs hp hr, hctx, listed_outputs, listed_outputs, hr.owned]

/-- **The request a step builds** stays the same. -/
theorem requestOf_rely (hv : ValidSpec cfg.rawSpec) (hi : CoreInv cfg w)
    (hs : (stepAndRole cfg.spec k).isSome) (hp : PauseOk cfg w k) (hr : Rely w w') :
    requestOf cfg w' k = requestOf cfg w k := by
  unfold requestOf
  rw [scopeAt_rely hv hi hs hp hr]

theorem requestOf_step {req : AgentTaskCreateRequest} (h : requestOf cfg w k = some req) :
    (stepAndRole cfg.spec k).isSome := by
  unfold requestOf at h
  cases hs : stepAndRole cfg.spec k with
  | none =>
    rw [hs] at h
    exact nomatch h
  | some s => rfl

theorem requestOf_key {req : AgentTaskCreateRequest} (h : requestOf cfg w k = some req) :
    req.idempotencyKey = cfg.sec k := by
  unfold requestOf at h
  rw [Option.bind_eq_some_iff] at h
  obtain ⟨s, -, hreq⟩ := h
  split at hreq
  · cases hreq
    rfl
  · exact nomatch hreq

end

end VibeRuntime
