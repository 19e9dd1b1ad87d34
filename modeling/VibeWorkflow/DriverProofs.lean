import VibeWorkflow.PumpProofs

/-!
# The driver's code meets its guards

Each function of the driver has one specification, in terms of what it may assume of the world
it starts in and what it leaves; loops have an invariant and a postcondition.

* **`bodies_ok`** — every loop of the driver meets its specification.
* **`runWorkflow_ok`** — so does a pump, from any state it is started in.
-/

namespace VibeRuntime

open VibeJson VibeContract VibeRouting VibeTemplate VibeValidator VibeStore VibeAdmission VibeControl
open AsyncLogic

variable {cfg : Config} {fl : Flags} {w : World} {k : StepKey}

/-- A branch. -/
theorem wp_ite {α : Type} {c : Prop} [Decidable c] {m₁ m₂ : Rt α} {Q : α → Flags → World → Prop}
    {E : CallError → Flags → World → Prop} (h₁ : c → wpJs (pumpContract cfg) m₁ Q E fl w)
    (h₂ : ¬ c → wpJs (pumpContract cfg) m₂ Q E fl w) :
    wpJs (pumpContract cfg) (if c then m₁ else m₂) Q E fl w := by
  split
  · exact h₁ ‹c›
  · exact h₂ ‹¬ c›

/-- What a function leaves that goes on with the driver's loop, or leaves the workflow. -/
def StepPost (r : Option Exit) (fl : Flags) (w : World) : Prop :=
  match r with
  | none => FlagsOk fl w
  | some why => ExitOk why w

theorem wp_exit {x : Exit} {E : CallError → Flags → World → Prop} (h : ExitOk x w) :
    wpJs (pumpContract cfg) (pure (some x) : Rt (Option Exit)) StepPost E fl w :=
  wp_pure (fun _ hr _ => h.rely hr)

/-! ## The pause gate -/

/-- What a gate leaves: its response, or a workflow that is not running. -/
def PausePost (cfg : Config) (k : StepKey) (w₀ : World) (r : Bool) (fl : Flags) (w : World) : Prop :=
  if r = true then FlagsOk fl w ∧ Rely w₀ w ∧ PauseOk cfg w k else ExitOk .ended w

theorem wp_proceed {w₀ : World} (hfl : FlagsOk fl w) (hr : Rely w₀ w) (hp : PauseOk cfg w k)
    {E : CallError → Flags → World → Prop} :
    wpJs (pumpContract cfg) (pure true : Rt Bool) (PausePost cfg k w₀) E fl w :=
  wp_pure (fun _ hr' _ => ⟨hfl.rely hr', hr.trans hr', hp.rely hr'⟩)

theorem wp_halt {w₀ : World} (hx : ExitOk .ended w) {E : CallError → Flags → World → Prop} :
    wpJs (pumpContract cfg) (pure false : Rt Bool) (PausePost cfg k w₀) E fl w := by
  refine wp_pure (fun w' hr' _ => ?_)
  show if (false = true) then _ else _
  rw [if_neg Bool.false_ne_true]
  exact hx.rely hr'

/-- A workflow that was asked to pause is not running. -/
theorem pause_status {id : String} {gate : StepPauseGate} {ev : WorkflowEvent} {w' : World} {inp : Input}
    (h : exec (.pause id k gate ev) w inp = some (.ok (), w')) : w'.db.wf.status ≠ .running := by
  have hgate : gateStatus gate ≠ .running := by
    unfold gateStatus
    split <;> rintro ⟨⟩
  rcases storeWrite_cases h with ⟨db, hdb, -, rfl⟩ | ⟨-, e, he⟩
  · show db.wf.status ≠ .running
    unfold createHumanRequestAndPause at hdb
    simp only at hdb
    split at hdb
    · cases hdb
    · split at hdb
      · cases hdb
        exact hgate
      · rename_i hs
        cases hdb
        exact hs
  · cases he

theorem wp_pause {gate : StepPauseGate} {α : Type} {Q : α → Flags → World → Prop} {f : Unit → Rt α}
    (hg : gateOf cfg k = some gate) (hu : AtUnbound cfg w k)
    (h : ∀ fl' w', ExitOk .ended w' → wpJs (pumpContract cfg) (f ()) Q anyErr fl' w') :
    wpJs (pumpContract cfg) (call (.pause (cfg.humanRequestId k) k gate (pausedEvent cfg k gate)) >>= f)
      Q anyErr fl w := by
  refine wp_call ?_
  intro w₁ hr₁ _
  refine ⟨⟨hg, rfl, rfl, hu.rely hr₁⟩, ?_⟩
  intro r w₂ inp hex fl' w' hr' _ _ _
  cases r with
  | error e => trivial
  | ok a => exact h fl' w' (ExitOk.rely (Or.inl (pause_status hex)) hr')

theorem evaluatePauseGate_ok {gate : StepPauseGate} (hg : gateOf cfg k = some gate)
    (hu : AtUnbound cfg w k) :
    wpJs (pumpContract cfg) (evaluatePauseGate cfg k gate) (PausePost cfg k w) anyErr fl w := by
  have hsome : (gateOf cfg k).isSome := by
    rw [hg]
    rfl
  unfold evaluatePauseGate
  refine wp_read (v := fun w => w.db.human? (cfg.humanRequestId k)) (fun _ _ => rfl)
    (fun _ => trivial) ?_ (fun _ _ _ _ _ _ => trivial)
  intro w₁ fl' w' hr₁ _ hr' hrw _ hfl
  cases hh : w₁.db.human? (cfg.humanRequestId k) with
  | none => exact wp_pause hg (hu.rely hrw) (fun _ _ hx => wp_halt hx)
  | some h =>
    cases hst : h.status with
    | pending =>
      simp only [Option.map_some, hst]
      exact wp_pause hg (hu.rely hrw) (fun _ _ hx => wp_halt hx)
    | answered =>
      simp only [Option.map_some, hst]
      have hstay := hr'.human _ _ hh (by rw [hst]; exact nofun)
      exact wp_proceed hfl hrw (fun _ => ⟨h, hstay, Or.inl hst⟩)
    | approved =>
      simp only [Option.map_some, hst]
      have hstay := hr'.human _ _ hh (by rw [hst]; exact nofun)
      exact wp_proceed hfl hrw (fun _ => ⟨h, hstay, Or.inr hst⟩)
    | rejected =>
      simp only [Option.map_some, hst]
      exact wp_failWorkflow (fun _ _ _ => .rejected hsome) (fun _ _ hx => wp_halt hx)

/-! ## Leases -/

theorem stepLeaseTarget_leases {target : WorkspaceTarget}
    (h : stepLeaseTarget cfg cfg.spec k = some target) : Leases cfg :=
  ⟨k, by rw [h]; rfl⟩

/-- What the revision gate leaves. -/
def GatePost (w₀ : World) (r : Option Exit) (fl : Flags) (w : World) : Prop :=
  match r with
  | none => FlagsOk fl w ∧ Rely w₀ w
  | some why => ExitOk why w

theorem revisionGateBefore_ok {target : WorkspaceTarget} (hl : Leases cfg) :
    wpJs (pumpContract cfg) (revisionGateBefore k target) (GatePost w) anyErr fl w := by
  unfold revisionGateBefore
  refine wp_quiet rfl rfl (fun _ _ _ => trivial) ?_
  intro w₁ r w₂ inp fl₂ w₃ _ _ _ hr₃ _ hfl₃ _
  cases r with
  | error e => trivial
  | ok proj =>
    refine wpJs_recur_bind (C := pumpContract cfg) ?_
    intro w₄ hr₄ hi₄
    refine ⟨⟨hfl₃.rely hr₄, trivial⟩, ?_⟩
    intro r fl₅ w₅ hpost w₆ hr₆ hi₆
    cases r with
    | error e => trivial
    | ok seen =>
      obtain ⟨hr₅, hfl₅⟩ := hpost
      have hr₆ : Rely w₅ w₆ := hr₆
      have hrw : Rely w w₆ := ((hr₃.trans hr₄).trans hr₅).trans hr₆
      have hfl₆ := hfl₅.rely hr₆
      cases seen with
      | none =>
        refine wpJs_flags_bind (C := pumpContract cfg) ?_
        refine wp_pure (fun w' hr' _ => ?_)
        show ExitOk (if fl₅.stopped then .shutdown else .gateAborted) w'
        split
        · rename_i hs
          exact hr'.stopped (hfl₆.stopped hs)
        · trivial
      | some rev =>
        refine wp_quiet rfl rfl (fun _ _ _ => hl) ?_
        intro w₇ r w₈ inp₈ fl₈ w₉ _ _ _ hr₉ _ hfl₉ _
        cases r with
        | error e => trivial
        | ok a =>
          show wpJs _ (if _ then _ else _) _ _ _ _
          split
          · exact wp_blockWorkflow (fun _ _ _ _ hev => .revisionConflict hl hev)
              (fun _ _ hx => wp_pure (fun _ hr' _ => hx.rely hr'))
          · exact wp_pure (fun _ hr' _ => ⟨hfl₉.rely hr', (hrw.trans hr₉).trans hr'⟩)

/-- What is left of the world's owned data after code that makes no decision. -/
def QuietPost (w₀ : World) (fl : Flags) (w : World) : Prop := FlagsOk fl w ∧ Rely w₀ w

theorem QuietPost.rely {w₀ w₁ : World} (h : QuietPost w₀ fl w) (hr : Rely w w₁) :
    QuietPost w₀ fl w₁ :=
  ⟨h.1.rely hr, h.2.trans hr⟩

theorem observeRevisionAfter_ok {target : WorkspaceTarget} {w₀ : World} (hl : Leases cfg)
    (left attempt : Nat) (h : QuietPost w₀ fl w) :
    wpJs (pumpContract cfg) (observeRevisionAfter k target left attempt)
      (fun _ fl' w' => QuietPost w₀ fl' w') anyErr fl w := by
  induction left generalizing attempt fl w with
  | zero => exact wp_pure (fun _ hr _ => h.rely hr)
  | succ left ih =>
    refine wpJs_flags_bind (C := pumpContract cfg) ?_
    show wpJs _ (if fl.stopped = true then _ else _) _ _ _ _
    split
    · exact wp_pure (fun _ hr _ => h.rely hr)
    · -- one observation, then the retry
      have hretry : ∀ (again : Bool) fl w, QuietPost w₀ fl w →
          wpJs (pumpContract cfg) (if again then (do
            let _ : Unit ← call (.backoff attempt)
            observeRevisionAfter k target left (attempt + 1)) else pure ())
            (fun _ fl' w' => QuietPost w₀ fl' w') anyErr fl w := by
        intro again fl w h
        cases again with
        | false => exact wp_pure (fun _ hr _ => h.rely hr)
        | true =>
          refine wp_quiet rfl rfl (fun _ _ _ => trivial) ?_
          intro w₁ r w₂ inp fl' w' _ _ _ hr' _ hfl _
          cases r with
          | error e => trivial
          | ok a => exact ih (attempt + 1) ⟨hfl, h.2.trans hr'⟩
      have hdone : ∀ (again : Bool) fl w, QuietPost w₀ fl w →
          wpJs (pumpContract cfg) (pure again : Rt Bool) (fun again fl w =>
            wpJs (pumpContract cfg) (if again then (do
              let _ : Unit ← call (.backoff attempt)
              observeRevisionAfter k target left (attempt + 1)) else pure ())
              (fun _ fl' w' => QuietPost w₀ fl' w') anyErr fl w) anyErr fl w :=
        fun again fl w h => wp_pure (fun w' hr _ => hretry again fl w' (h.rely hr))
      have hcatch : ∀ (e : CallError) fl w, QuietPost w₀ fl w →
          wpJs (pumpContract cfg) (if e = .transientLease then pure true else pure false : Rt Bool)
            (fun again fl w => wpJs (pumpContract cfg) (if again then (do
              let _ : Unit ← call (.backoff attempt)
              observeRevisionAfter k target left (attempt + 1)) else pure ())
              (fun _ fl' w' => QuietPost w₀ fl' w') anyErr fl w) anyErr fl w := by
        intro e fl w h
        split
        · exact hdone true fl w h
        · exact hdone false fl w h
      refine wpJs_bind (C := pumpContract cfg) (wpJs_tryCatch (C := pumpContract cfg) ?_)
      refine wp_quiet rfl rfl (fun _ _ _ => trivial) ?_
      intro w₁ r w₂ inp fl₁ w' _ _ _ hr' _ hfl _
      have hq : QuietPost w₀ fl₁ w' := ⟨hfl, h.2.trans hr'⟩
      cases r with
      | error e => exact hcatch e fl₁ w' hq
      | ok seen =>
        have seen : LeaseReply := seen
        dsimp only
        split
        · exact hdone false fl₁ w' hq
        · refine wp_quiet rfl rfl (fun _ _ _ => hl) ?_
          intro w₃ r w₄ inp₄ fl₄ w₅ _ _ _ hr₅ _ hfl₅ _
          have hq : QuietPost w₀ fl₄ w₅ := ⟨hfl₅, hq.2.trans hr₅⟩
          cases r with
          | error e => exact hcatch e fl₄ w₅ hq
          | ok a =>
            refine wp_quiet rfl rfl (fun _ _ _ => trivial) ?_
            intro w₆ r w₇ inp₇ fl₇ w₈ _ _ _ hr₈ _ hfl₈ _
            have hq : QuietPost w₀ fl₇ w₈ := ⟨hfl₈, hq.2.trans hr₈⟩
            cases r with
            | error e => exact hcatch e fl₇ w₈ hq
            | ok a => exact hdone false fl₇ w₈ hq

/-! ## Creating a task -/

/-- The scope a prompt is rendered in is the one of the world it goes on in. -/
theorem buildRenderScope_ok (hv : ValidSpec cfg.rawSpec) (hs : (stepAndRole cfg.spec k).isSome)
    (hp : PauseOk cfg w k) :
    wpJs (pumpContract cfg) (buildRenderScope cfg k)
      (fun scope fl' w' => QuietPost w fl' w' ∧ scope = scopeAt cfg w' k) anyErr fl w := by
  unfold buildRenderScope
  refine wp_read (v := fun w => w.db.wf) (fun _ _ => rfl) (fun _ => trivial) ?_
    (fun _ _ _ _ _ _ => trivial)
  intro w₁ fl₁ w₁' hr₁ _ hr₁' hrw₁ _ _
  refine wp_read (v := fun w => listStepExecutions w.db) (fun _ _ => rfl) (fun _ => trivial) ?_
    (fun _ _ _ _ _ _ => trivial)
  intro w₂ fl₂ w₂' hr₂ _ hr₂' hrw₂ _ _
  refine wp_read (v := fun w => w.db.human? (cfg.humanRequestId k)) (fun _ _ => rfl)
    (fun _ => trivial) ?_ (fun _ _ _ _ _ _ => trivial)
  intro w₃ fl₃ w₃' hr₃ hi₃ hr₃' hrw₃ _ hfl₃
  refine wp_pure (fun w' hr' _ => ?_)
  have hto₃ : Rely w w₃ := (hrw₁.trans hrw₂).trans hr₃
  have hend₃ : Rely w₃ w' := hr₃'.trans hr'
  have hend₂ : Rely w₂ w' := (hr₂'.trans hr₃).trans hend₃
  have hend₁ : Rely w₁ w' := (hr₁'.trans hr₂).trans hend₂
  refine ⟨⟨hfl₃.rely hr', hto₃.trans hend₃⟩, ?_⟩
  have hctx : w'.db.wf.context = w₁.db.wf.context := congrArg Owned.context hend₁.owned
  have hhuman := human?_rely hv hi₃ hs (hp.rely hto₃) hend₃
  unfold scopeAt renderScopeOf
  rw [hhuman, hctx, listed_outputs, listed_outputs, hend₂.owned]

/-- An execution may be rendered and requested. -/
structure RenderReady (cfg : Config) (wf : WorkflowRow) (k : StepKey) (w : World) : Prop where
  valid : ValidSpec cfg.rawSpec
  unbound : AtUnbound cfg w k
  room : TaskRoom cfg w
  started : StartedOk wf w

theorem RenderReady.rely {wf : WorkflowRow} {w' : World} (h : RenderReady cfg wf k w) (hr : Rely w w') :
    RenderReady cfg wf k w' :=
  ⟨h.valid, h.unbound.rely hr, h.room.rely hr, h.started.rely hr⟩

theorem createLoop_enter {wf : WorkflowRow} {req : AgentTaskCreateRequest} {attempt : Nat}
    (h : CreateReady cfg wf k req w) (hi : CoreInv cfg w) (hfl : FlagsOk fl w) :
    wpJs (pumpContract cfg) (enter (.create wf k req attempt)) (createPost cfg wf k) anyErr fl w := by
  refine wpJs_recur (C := pumpContract cfg) ?_
  intro w₁ hr₁ _
  refine ⟨⟨hfl.rely hr₁, h.rely hi hr₁⟩, ?_⟩
  intro r fl₂ w₂ hpost w₃ hr₃ _
  have hr₃ : Rely w₂ w₃ := hr₃
  cases r with
  | error e => trivial
  | ok r =>
    cases r with
    | ok =>
      obtain ⟨hfl₂, hs, t, ht⟩ := hpost
      exact ⟨hfl₂.rely hr₃, hs.rely hr₃, t, ht.rely hr₃⟩
    | stop why => exact ExitOk.rely hpost hr₃

theorem requestTask_ok {wf : WorkflowRow} {req : AgentTaskCreateRequest}
    (h : CreateReady cfg wf k req w) (hi : CoreInv cfg w) (hfl : FlagsOk fl w) :
    wpJs (pumpContract cfg) (requestTask cfg cfg.spec wf k req) (createPost cfg wf k) anyErr fl w := by
  unfold requestTask
  split
  · exact createLoop_enter h hi hfl
  · rename_i target htarget
    refine wpJs_bind (C := pumpContract cfg) (wpJs_mono
      (revisionGateBefore_ok (stepLeaseTarget_leases htarget)) ?_ (fun _ _ _ _ h => h))
    intro r fl' w' hi' hpost
    cases r with
    | none => exact createLoop_enter (h.rely hi hpost.2) hi' hpost.1
    | some why => exact wp_pure (fun _ hr' _ => ExitOk.rely hpost hr')

theorem wp_stop {why : Exit} {wf : WorkflowRow} {E : CallError → Flags → World → Prop}
    (h : ExitOk why w) :
    wpJs (pumpContract cfg) (pure (.stop why) : Rt CreateOutcome) (createPost cfg wf k) E fl w :=
  wp_pure (fun _ hr _ => ExitOk.rely h hr)

theorem renderAndRequest_ok {wf : WorkflowRow} {s : AgentTaskStep} {role : WorkflowAgentRole}
    (h : RenderReady cfg wf k w) (hs : stepAndRole cfg.spec k = some (s, role))
    (hp : PauseOk cfg w k) :
    wpJs (pumpContract cfg) (renderAndRequest cfg cfg.spec wf k s role) (createPost cfg wf k) anyErr
      fl w := by
  have hsome : (stepAndRole cfg.spec k).isSome := by
    rw [hs]
    rfl
  unfold renderAndRequest
  refine wpJs_bind (C := pumpContract cfg) (wpJs_mono (buildRenderScope_ok h.valid hsome hp) ?_
    (fun _ _ _ _ h => h))
  rintro scope fl₁ w₁ hi₁ ⟨⟨hfl₁, hr₁⟩, rfl⟩
  have hp₁ := hp.rely hr₁
  cases hren : renderStep s (scopeAt cfg w₁ k) with
  | error e =>
    refine wp_failWorkflow ?_ (fun _ _ hx => wp_stop hx)
    intro w₂ hr₂ _
    have h₂ := (h.rely hr₁).rely hr₂
    refine .render h₂.unbound h₂.room hs ?_
    rw [scopeAt_rely h.valid hi₁ hsome hp₁ hr₂]
    exact hren
  | ok out =>
    have h₁ := h.rely hr₁
    refine requestTask_ok ⟨h.valid, h₁.unbound, h₁.room, hp₁, ?_, h₁.started⟩ hi₁ hfl₁
    unfold requestOf
    rw [hs]
    simp only [Option.bind_some, hren]

theorem createAndBindTask_ok {wf : WorkflowRow} (h : RenderReady cfg wf k w) :
    wpJs (pumpContract cfg) (createAndBindTask cfg cfg.spec wf k) (createPost cfg wf k) anyErr fl w := by
  unfold createAndBindTask
  split
  · rename_i hnone
    refine wp_failWorkflow ?_ (fun _ _ hx => wp_stop hx)
    intro w₁ hr₁ _
    exact .unknownStep (h.rely hr₁).unbound hnone
  · rename_i s role hs
    have hgate : gateOf cfg k = s.pauseBefore := by
      unfold gateOf
      rw [hs]
      rfl
    split
    · rename_i hnone
      refine renderAndRequest_ok h hs ?_
      intro hg
      rw [hgate, hnone] at hg
      exact nomatch hg
    · rename_i gate hsome
      refine wpJs_bind (C := pumpContract cfg) (wpJs_mono
        (evaluatePauseGate_ok (hgate.trans hsome) h.unbound) ?_ (fun _ _ _ _ h => h))
      intro r fl₁ w₁ _ hpost
      cases r with
      | true => exact renderAndRequest_ok (h.rely hpost.2.1) hs hpost.2.2
      | false => exact wp_stop hpost

/-- What a create call answers. -/
theorem createTask_cases {req : AgentTaskCreateRequest} {inp : Input} {w' : World}
    {r : Except CallError (Ans (.createTask req))} (h : exec (.createTask req) w inp = some (r, w')) :
    (∃ id, r = .ok id ∧ ∃ t ∈ w'.tasks, t.id = id ∧ t.request = req) ∨ r = .error .transientTask ∨
      (r = .error .fatalTask ∧ .createFailed ∈ w'.log) := by
  simp only [exec] at h
  split at h
  · rename_i id
    rw [Option.map_eq_some_iff] at h
    obtain ⟨⟨id', w₁⟩, hd, heq⟩ := h
    cases heq
    refine Or.inl ⟨id', rfl, ?_⟩
    rcases World.deliver_cases hd with ⟨rfl, t, ht, hreq, hid⟩ | ⟨rfl, rfl, -, -⟩
    · exact ⟨t, ht, hid, hreq⟩
    · exact ⟨_, List.mem_append_right _ (List.mem_singleton.mpr rfl), rfl, rfl⟩
  · cases h
    exact Or.inr (Or.inl rfl)
  · cases h
    exact Or.inr (Or.inr ⟨rfl, List.mem_append_right _ (List.mem_singleton.mpr rfl)⟩)
  · cases h

/-- The row behind an owned one. -/
theorem AtStep.row? {row : StepRow} (h : AtStep cfg w k row) :
    ∃ r, w.db.step? k = some r ∧ maskRow r = row := by
  have hrow := h.row
  rw [owned_step?, Option.map_eq_some_iff] at hrow
  exact hrow

/-- A binding binds, or leaves a trace of its failure. -/
theorem bind_cases {taskId : String} {ev : WorkflowEvent} {inp : Input} {w' : World}
    {r : Except CallError (Ans (.bindStepTaskOnce k taskId ev))}
    (h : exec (.bindStepTaskOnce k taskId ev) w inp = some (r, w')) (hat : AtUnbound cfg w k) :
    (r = .ok () ∧ AtBound cfg w' k taskId) ∨ (∃ e, r = .error (.store e) ∧ .createFailed ∈ w'.log) := by
  simp only [exec, Option.map_eq_some_iff, Prod.exists] at h
  obtain ⟨r₁, w₁, hw, heq⟩ := h
  cases heq
  rcases storeWrite_cases hw with ⟨db, hdb, rfl, rfl⟩ | ⟨rfl, e, rfl⟩
  · refine Or.inl ⟨rfl, ?_⟩
    obtain ⟨row, hstep, hst, hfree⟩ := hat
    obtain ⟨r₀, hr₀, rfl⟩ := hstep.row?
    have hfree : r₀.taskId = none := hfree
    unfold bindStepTaskOnce at hdb
    simp only [hr₀, hfree] at hdb
    rw [if_neg (Option.some_ne_none taskId).symm, if_neg (fun h => h rfl)] at hdb
    cases hdb
    have hkey := Db.step?_key hr₀
    refine ⟨maskRow { r₀ with taskId := some taskId }, ⟨hstep.cur, ?_⟩, ?_, rfl⟩
    · show (owned (w.db.setStep k _)).step? k = _
      rw [owned_step?, Db.step?_setStep, hr₀]
      · show some (maskRow (if r₀.key = k then _ else _)) = _
        rw [if_pos hkey]
      · exact fun _ => rfl
    · exact hst
  · exact Or.inr ⟨e, rfl, List.mem_append_right _ (List.mem_singleton.mpr rfl)⟩

/-- What one attempt of the create loop leaves. -/
def BoundPost (cfg : Config) (wf : WorkflowRow) (k : StepKey) (req : AgentTaskCreateRequest)
    (r : Except CallError Unit) (fl : Flags) (w : World) : Prop :=
  match r with
  | .ok _ => FlagsOk fl w ∧ StartedOk wf w ∧ ∃ t, AtBound cfg w k t
  | .error .transientTask => FlagsOk fl w ∧ CreateReady cfg wf k req w
  | .error _ => .createFailed ∈ w.log

theorem BoundPost.rely {wf : WorkflowRow} {req : AgentTaskCreateRequest} {r : Except CallError Unit}
    {w' : World} (h : BoundPost cfg wf k req r fl w) (hi : CoreInv cfg w) (hr : Rely w w') :
    BoundPost cfg wf k req r fl w' := by
  unfold BoundPost at h ⊢
  split at h
  · exact ⟨h.1.rely hr, h.2.1.rely hr, h.2.2.choose, h.2.2.choose_spec.rely hr⟩
  · exact ⟨h.1.rely hr, h.2.rely hi hr⟩
  · exact hr.log h

/-- One attempt: create, then bind. -/
theorem createAttempt_ok {wf : WorkflowRow} {req : AgentTaskCreateRequest}
    (h : CreateReady cfg wf k req w) (hi : CoreInv cfg w) :
    wpJs (pumpContract cfg) (catching (do
        let taskId : String ← call (.createTask req)
        let _ : Unit ← call (.bindStepTaskOnce k taskId (taskCreatedEvent k taskId))
        pure (.ok ())) (fun e => pure (.error e)))
      (BoundPost cfg wf k req) anyErr fl w := by
  have hdone : ∀ (r : Except CallError Unit) fl w, CoreInv cfg w → BoundPost cfg wf k req r fl w →
      wpJs (pumpContract cfg) (pure r : Rt (Except CallError Unit)) (BoundPost cfg wf k req) anyErr
        fl w :=
    fun r fl w hi h => wp_pure (fun _ hr _ => h.rely hi hr)
  refine wpJs_tryCatch (C := pumpContract cfg) ?_
  refine wp_quiet rfl rfl ?_ ?_
  · intro w₁ hr₁ hi₁
    have h₁ := h.rely hi hr₁
    exact ⟨k, h₁.unbound, h₁.room, h₁.pause, h₁.request⟩
  intro w₁ r w₂ inp fl' w' hr₁ hex hr' hrw hi' hfl _
  have hready := h.rely hi hrw
  rcases createTask_cases hex with ⟨id, rfl, t, ht, hid, hreq⟩ | rfl | ⟨rfl, hlog⟩
  · obtain ⟨t', ht', hid', hreq', -⟩ := hr'.tasks t ht
    refine wp_call ?_
    intro w₃ hr₃ hi₃
    have h₃ := hready.rely hi' hr₃
    obtain ⟨t₃, ht₃, hid₃, hreq₃, -⟩ := hr₃.tasks t' ht'
    refine ⟨⟨h₃.unbound, h₃.room, ⟨t₃, ht₃, ?_, ?_⟩, rfl⟩, ?_⟩
    · rw [hid₃, hid', hid]
    · rw [hreq₃, hreq', hreq]
      exact requestOf_key h.request
    · intro r w₄ inp₄ hex₄ fl₅ w₅ hr₅ hi₅ hfl₅ _
      rcases bind_cases hex₄ h₃.unbound with ⟨rfl, hat⟩ | ⟨e, rfl, hlog⟩
      · have hst₄ : StartedOk wf w₄ := fun t ht => (exec_effect hex₄).mono.started t (h₃.started t ht)
        exact hdone (.ok ()) fl₅ w₅ hi₅ ⟨hfl₅, hst₄.rely hr₅, id, hat.rely hr₅⟩
      · exact hdone (.error (.store e)) fl₅ w₅ hi₅ (hr₅.log hlog)
  · exact hdone (.error .transientTask) fl' w' hi' ⟨hfl, hready⟩
  · exact hdone (.error .fatalTask) fl' w' hi' (hr'.log hlog)

theorem createLoop_ok {wf : WorkflowRow} {req : AgentTaskCreateRequest} {attempt : Nat}
    (hi : CoreInv cfg w) (h : loopInv cfg (.create wf k req attempt) fl w) :
    wpJs (pumpContract cfg) (createLoop cfg wf k req attempt) (createPost cfg wf k) anyErr fl w := by
  obtain ⟨hfl, hready⟩ := h
  unfold createLoop
  refine wpJs_flags_bind (C := pumpContract cfg) ?_
  split
  · rename_i hs
    exact wp_stop (hfl.stopped hs)
  · split
    · exact wp_stop trivial
    · split
      · exact wp_stop trivial
      · refine wpJs_bind (C := pumpContract cfg) (wpJs_mono (createAttempt_ok hready hi) ?_
          (fun _ _ _ _ h => h))
        intro r fl₁ w₁ hi₁ hpost
        cases r with
        | ok a =>
          obtain ⟨hfl₁, hst₁, t, hat⟩ := hpost
          exact wp_pure (fun _ hr _ => ⟨hfl₁.rely hr, hst₁.rely hr, t, hat.rely hr⟩)
        | error e =>
          by_cases he : e = .transientTask
          · subst he
            refine wp_quiet rfl rfl (fun _ _ _ => trivial) ?_
            intro w₂ r w₃ inp fl₂ w₄ _ _ _ hr₄ hi₄ hfl₄ _
            cases r with
            | error e => trivial
            | ok a => exact createLoop_enter (hpost.2.rely hi₁ hr₄) hi₄ hfl₄
          · have hlog : .createFailed ∈ w₁.log := by
              cases e <;> first | exact absurd rfl he | exact hpost
            have hfail : wpJs (pumpContract cfg) (failWorkflow "runtime_internal"
                [("reason", .str "task_create_failed"), stepIdProp k] >>=
                  fun _ => pure (.stop .ended)) (createPost cfg wf k) anyErr fl₁ w₁ :=
              wp_failWorkflow (fun _ hr _ => .createFailed (hr.log hlog))
                (fun _ _ hx => wp_stop hx)
            cases e <;> first | exact absurd rfl he | exact hfail

/-! ## Awaiting a task -/

theorem WakeOk.rely {op : Op} {r : Except CallError (Ans op)} {w' : World} (h : WakeOk op r fl w)
    (hr : Rely w w') : WakeOk op r fl w' := by
  unfold WakeOk at h ⊢
  split
  · split
    · exact fun hs => hr.cancel (h hs)
    · trivial
  · trivial

/-- A call whose failure is a value. -/
theorem wp_try {α : Type} {op : Op} {Q : α → Flags → World → Prop}
    {g : Except CallError (Ans op) → Rt α} (hk : op.keeps = true) (hw : op.wakes = false)
    (hj : ∀ w₁, Rely w w₁ → CoreInv cfg w₁ → Justified cfg op w₁)
    (h : ∀ w₁ r w₂ inp fl' w', Rely w w₁ → exec op w₁ inp = some (r, w₂) → Rely w₂ w' →
      Rely w w' → CoreInv cfg w' → FlagsOk fl' w' → WakeOk op r fl' w' →
        wpJs (pumpContract cfg) (g r) Q anyErr fl' w') :
    wpJs (pumpContract cfg)
      (catching (call op >>= fun r => pure (.ok r)) (fun e => pure (.error e)) >>= g) Q anyErr fl w := by
  refine wpJs_bind (C := pumpContract cfg) (wpJs_tryCatch (C := pumpContract cfg) ?_)
  refine wp_quiet hk hw hj ?_
  intro w₁ r w₂ inp fl' w' hr₁ hex hr' hrw _ hfl hwk
  have hgo : ∀ w₃, Rely w' w₃ → CoreInv cfg w₃ → wpJs (pumpContract cfg) (g r) Q anyErr fl' w₃ :=
    fun w₃ hr₃ hi₃ => h w₁ r w₂ inp fl' w₃ hr₁ hex (hr'.trans hr₃) (hrw.trans hr₃) hi₃ (hfl.rely hr₃)
      (hwk.rely hr₃)
  cases r with
  | ok a => exact wp_pure hgo
  | error e => exact wp_pure hgo

/-- What a wait answers. -/
theorem wait_cases {taskId : String} {cursor : Int} {site : WaitSite} {inp : Input} {w' : World}
    {r : Except CallError (Ans (.waitForTerminal taskId cursor site))}
    (h : exec (.waitForTerminal taskId cursor site) w inp = some (r, w')) :
    (∃ a : TerminalRead, r = .ok a ∧ .read a ∈ w'.log ∧ a.taskId = taskId) ∨
      r = .error .transientTask ∨ r = .error .fatalTask := by
  simp only [exec] at h
  split at h
  · cases h
    exact Or.inl ⟨_, rfl, List.mem_append_right _ (List.mem_singleton.mpr rfl), rfl⟩
  · rename_i t
    cases h
    cases t with
    | true => exact Or.inr (Or.inl rfl)
    | false => exact Or.inr (Or.inr rfl)
  · cases h

theorem waitPost.rely {taskId : String} {r : WaitOutcome} {w' : World}
    (h : waitPost cfg taskId r fl w) (hr : Rely w w') : waitPost cfg taskId r fl w' := by
  obtain ⟨hfl, hpost⟩ := h
  refine ⟨hfl.rely hr, ?_⟩
  cases r with
  | read a => exact ⟨hr.log hpost.1, hpost.2⟩
  | shutdown => exact hr.stopped hpost
  | deadline => exact deadline_rely hpost (fun t ht => hr.started t ht) hr.now
  | cancel => exact CancelOk.rely hpost hr

theorem waitLoop_enter {wf : WorkflowRow} {taskId : String} {cursor : Int} {attempt : Nat} {w₀ : World}
    (hs : StartedOk wf w) (hfl : FlagsOk fl w) (hr₀ : Rely w₀ w) :
    wpJs (pumpContract cfg) (enter (.wait wf taskId cursor attempt))
      (fun r fl' w' => Rely w₀ w' ∧ waitPost cfg taskId r fl' w') anyErr fl w := by
  refine wpJs_recur (C := pumpContract cfg) ?_
  intro w₁ hr₁ _
  refine ⟨⟨hfl.rely hr₁, hs.rely hr₁⟩, ?_⟩
  intro r fl₂ w₂ hpost w₃ hr₃ _
  have hr₁ : Rely w w₁ := hr₁
  have hr₃ : Rely w₂ w₃ := hr₃
  cases r with
  | error e => trivial
  | ok r => exact ⟨((hr₀.trans hr₁).trans hpost.1).trans hr₃, hpost.2.rely hr₃⟩

theorem waitLoop_ok {wf : WorkflowRow} {taskId : String} {cursor : Int} {attempt : Nat}
    (h : loopInv cfg (.wait wf taskId cursor attempt) fl w) :
    wpJs (pumpContract cfg) (waitLoop cfg wf taskId cursor attempt)
      (fun r fl' w' => Rely w w' ∧ waitPost cfg taskId r fl' w') anyErr fl w := by
  obtain ⟨hfl, hst⟩ := h
  have hst : StartedOk wf w := hst
  have hdone : ∀ (r : WaitOutcome) fl w₁, Rely w w₁ → waitPost cfg taskId r fl w₁ →
      wpJs (pumpContract cfg) (pure r : Rt WaitOutcome)
        (fun r fl' w' => Rely w w' ∧ waitPost cfg taskId r fl' w') anyErr fl w₁ :=
    fun r fl w₁ hr h => wp_pure (fun _ hr' _ => ⟨hr.trans hr', h.rely hr'⟩)
  unfold waitLoop
  refine wpJs_flags_bind (C := pumpContract cfg) ?_
  split
  · rename_i hs
    exact hdone .shutdown fl w (Rely.refl w) ⟨hfl, hfl.stopped hs⟩
  · rename_i hs
    split
    · rename_i ha
      refine hdone .cancel fl w (Rely.refl w) ⟨hfl, ?_⟩
      exact (hfl.aborted ha).resolve_left hs
    · split
      · rename_i hd
        exact hdone .deadline fl w (Rely.refl w) ⟨hfl, deadline_rely hd hst hfl.now⟩
      · refine wp_try rfl rfl (fun _ _ _ => trivial) ?_
        intro w₁ r w₂ inp fl' w' hr₁ hex hr' hrw hi' hfl' hwk
        rcases wait_cases hex with ⟨a, rfl, hlog, hid⟩ | rfl | rfl
        · refine wp_ite (c := a.status.isTerminal = true) ?_ ?_
          · exact fun ht => hdone (.read a) fl' w' hrw ⟨hfl', hr'.log hlog, hid, ht⟩
          · exact fun _ => waitLoop_enter (hst.rely hrw) hfl' hrw
        · -- in a stopped process the abort flag is taken for a cancellation
          refine wpJs_flags_bind (C := pumpContract cfg) (wp_ite ?_ ?_)
          · intro ha
            refine hdone .cancel fl' w' hrw ⟨hfl', ?_⟩
            rcases hfl'.aborted ha with hs' | hc
            · exact Or.inl (hwk hs')
            · exact hc
          · intro _
            refine wp_quiet rfl rfl (fun _ _ _ => trivial) ?_
            intro w₃ r w₄ inp₄ fl₅ w₅ _ _ _ hr₅ _ hfl₅ _
            cases r with
            | error e => trivial
            | ok a => exact waitLoop_enter (hst.rely (hrw.trans hr₅)) hfl₅ (hrw.trans hr₅)
        · exact wpJs_throw (C := pumpContract cfg) (fun _ _ _ => trivial)

/-! ## The result of a completed task -/

theorem resolvePost.rely {taskId : String} {w₀ : World} {r : Resolved} {w' : World}
    (h : resolvePost taskId w₀ r fl w) (hr : Rely w w') : resolvePost taskId w₀ r fl w' := by
  cases r with
  | available a =>
    obtain ⟨h₀, hfl, hread, hs⟩ := h
    exact ⟨h₀.trans hr, hfl.rely hr, hread.rely hr, hs⟩
  | handled why => exact ExitOk.rely h hr

theorem resolveLoop_enter {cur : TerminalRead} {cursor : Int} {attempt : Nat} {w₀ : World}
    (hat : AtBound cfg w k cur.taskId) (hread : ResultRead w cur.taskId cur) (hfl : FlagsOk fl w)
    (hr₀ : Rely w₀ w) :
    wpJs (pumpContract cfg) (enter (.resolve k cur cursor attempt)) (resolvePost cur.taskId w₀) anyErr
      fl w := by
  refine wpJs_recur (C := pumpContract cfg) ?_
  intro w₁ hr₁ _
  refine ⟨⟨hfl.rely hr₁, hat.rely hr₁, hread.rely hr₁⟩, ?_⟩
  intro r fl₂ w₂ hpost w₃ hr₃ _
  have hr₁ : Rely w w₁ := hr₁
  have hr₃ : Rely w₂ w₃ := hr₃
  cases r with
  | error e => trivial
  | ok r =>
    have hpost : resolvePost cur.taskId w₁ r fl₂ w₂ := hpost
    cases r with
    | available a =>
      obtain ⟨h₁, hrest⟩ := hpost
      exact resolvePost.rely (r := .available a) ⟨(hr₀.trans hr₁).trans h₁, hrest⟩ hr₃
    | handled why => exact ExitOk.rely hpost hr₃

/-- The first time a row waits for its result stays. -/
theorem markAwaiting_since {inp : Input} {w' : World} {since : Nat}
    (h : exec (.markAwaiting k) w inp = some (.ok since, w')) : AwaitedSince w' since := by
  rcases storeCall_cases h with ⟨a, ha, heq⟩ | ⟨-, e, he⟩
  · cases heq
    obtain ⟨x, hx, hw⟩ := map_ok_pair ha
    cases hw
    unfold markStepAwaitingResult at hx
    split at hx
    · exact nomatch hx
    · rename_i row hrow
      cases hx
      refine ⟨k, { row with resultAwaitedSince := some (row.resultAwaitedSince.getD w.now) }, ?_, rfl⟩
      show (w.db.setStep k _).step? k = _
      rw [Db.step?_setStep, hrow]
      · show some (if row.key = k then _ else _) = _
        rw [if_pos (Db.step?_key hrow)]
      · exact fun _ => rfl
  · exact nomatch he

/-- When the result has been awaited since. -/
theorem awaitedSince_ok {proj : Option StepRow} {w₀ w₁ : World} (hq : QuietPost w₀ fl w)
    (hproj : proj = w₁.db.step? k) (hr : Rely w₁ w) :
    wpJs (pumpContract cfg) (match proj.bind StepRow.resultAwaitedSince with
        | some t => pure t
        | none => call (.markAwaiting k) : Rt Nat)
      (fun since fl' w' => QuietPost w₀ fl' w' ∧ AwaitedSince w' since) anyErr fl w := by
  cases ht : proj.bind StepRow.resultAwaitedSince with
  | some t =>
    refine wp_pure (fun w' hr' _ => ⟨hq.rely hr', (hr.trans hr').awaited t ?_⟩)
    rw [Option.bind_eq_some_iff] at ht
    obtain ⟨row, hrow, hat⟩ := ht
    exact ⟨k, row, hproj ▸ hrow, hat⟩
  | none =>
    refine wpJs_last (wp_quiet rfl rfl (fun _ _ _ => trivial) ?_)
    intro w₂ r w₃ inp fl' w' _ hex hr' hrw _ hfl _
    cases r with
    | error e => trivial
    | ok since =>
      refine wp_pure (fun w'' hr'' _ => ?_)
      exact ⟨⟨hfl.rely hr'', (hq.2.trans hrw).trans hr''⟩,
        (hr'.trans hr'').awaited since (markAwaiting_since hex)⟩

theorem resolveLoop_ok {cur : TerminalRead} {cursor : Int} {attempt : Nat}
    (h : loopInv cfg (.resolve k cur cursor attempt) fl w) :
    wpJs (pumpContract cfg) (resolveLoop cfg k cur cursor attempt) (resolvePost cur.taskId w) anyErr
      fl w := by
  obtain ⟨hfl, hat, hread⟩ := h
  have hhandled : ∀ (why : Exit) fl w₁, ExitOk why w₁ →
      wpJs (pumpContract cfg) (pure (.handled why) : Rt Resolved) (resolvePost cur.taskId w) anyErr
        fl w₁ :=
    fun why fl w₁ hx => wp_pure (fun _ hr _ => ExitOk.rely hx hr)
  unfold resolveLoop
  split
  · rename_i text hs ht
    refine wp_pure (fun w' hr _ => ⟨hr, hfl.rely hr, hread.rely hr, hs, ?_⟩)
    rw [ht]
    rfl
  · rename_i hs
    refine wp_failStepOf ?_ (fun fl' w' hx => hhandled .ended fl' w' hx)
    intro w₁ hr₁ _
    exact ⟨cur.taskId, hat.rely hr₁, .invalid (hread.rely hr₁) hs⟩
  · rename_i hs
    refine wp_blockWorkflow ?_ (fun fl' w' hx => hhandled .ended fl' w' hx)
    intro w₁ ev hr₁ _ hev
    exact .resultMissing (hat.rely hr₁) (hread.rely hr₁) hs hev
  · refine wpJs_flags_bind (C := pumpContract cfg) (wp_ite ?_ ?_)
    · exact fun hs => hhandled .shutdown fl w (hfl.stopped hs)
    intro _
    refine wp_ite ?_ ?_
    · exact fun _ => hhandled .resultAborted fl w trivial
    intro _
    refine wp_read (v := fun w => w.db.step? k) (fun _ _ => rfl) (fun _ => trivial) ?_
      (fun _ _ _ _ _ _ => trivial)
    intro w₁ fl₁ w₁' hr₁ _ hr₁' hrw₁ _ hfl₁
    refine wpJs_bind (C := pumpContract cfg) (wpJs_mono
      (awaitedSince_ok ⟨hfl₁, hrw₁⟩ rfl hr₁') ?_ (fun _ _ _ _ h => h))
    rintro since fl₂ w₂ _ ⟨⟨hfl₂, hrw₂⟩, hsince⟩
    refine wpJs_flags_bind (C := pumpContract cfg) (wp_ite ?_ ?_)
    · intro hlate
      refine wp_blockWorkflow ?_ (fun fl' w' hx => hhandled .ended fl' w' hx)
      intro w₃ ev hr₃ _ hev
      have hnow : fl₂.now ≤ w₃.now := (hfl₂.rely hr₃).now
      refine .resultTimeout (hat.rely (hrw₂.trans hr₃)) (hr₃.awaited since hsince) ?_ hev
      omega
    · intro _
      refine wp_quiet rfl rfl (fun _ _ _ => trivial) ?_
      intro w₃ r w₄ inp fl₃ w₅ _ _ _ hr₅ _ hfl₅ _
      cases r with
      | error e => trivial
      | ok a =>
        have hrw₅ : Rely w w₅ := hrw₂.trans hr₅
        refine wp_try rfl rfl (fun _ _ _ => trivial) ?_
        intro w₆ r w₇ inp₇ fl₇ w₈ _ hex hr₈ hrw₈ _ hfl₈ _
        have hrw : Rely w w₈ := hrw₅.trans hrw₈
        rcases wait_cases hex with ⟨a, rfl, hlog, hid⟩ | rfl | rfl
        · -- a later report on the same task
          have hread' : ResultRead w₈ a.taskId a := by
            obtain ⟨r₀, h₀, ht₀, hs₀⟩ := (hread.rely hrw).completed
            exact ⟨hr₈.log hlog, rfl, r₀, h₀, ht₀.trans hid.symm, hs₀⟩
          have hat' : AtBound cfg w₈ k a.taskId := by
            rw [hid]
            exact hat.rely hrw
          show wpJs _ (enter (.resolve k a a.nextEventId (attempt + 1))) _ _ _ _
          rw [← hid]
          exact resolveLoop_enter hat' hread' hfl₈ hrw
        · exact resolveLoop_enter (hat.rely hrw) (hread.rely hrw) hfl₈ hrw
        · exact wpJs_throw (C := pumpContract cfg) (fun _ _ _ => trivial)

theorem observeLoop_ok {target : WorkspaceTarget} {attempt : Nat}
    (h : loopInv cfg (.observe target attempt) fl w) :
    wpJs (pumpContract cfg) (observeLoop target attempt)
      (fun _ fl' w' => Rely w w' ∧ FlagsOk fl' w') anyErr fl w := by
  obtain ⟨hfl, -⟩ := h
  have henter : ∀ fl₁ w₁, Rely w w₁ → FlagsOk fl₁ w₁ →
      wpJs (pumpContract cfg) (enter (.observe target (attempt + 1)))
        (fun _ fl' w' => Rely w w' ∧ FlagsOk fl' w') anyErr fl₁ w₁ := by
    intro fl₁ w₁ hr₁ hfl₁
    refine wpJs_recur (C := pumpContract cfg) ?_
    intro w₂ hr₂ _
    have hr₂ : Rely w₁ w₂ := hr₂
    refine ⟨⟨hfl₁.rely hr₂, trivial⟩, ?_⟩
    intro r fl₃ w₃ hpost w₄ hr₄ _
    have hr₄ : Rely w₃ w₄ := hr₄
    cases r with
    | error e => trivial
    | ok r => exact ⟨((hr₁.trans hr₂).trans hpost.1).trans hr₄, hpost.2.rely hr₄⟩
  have hdone : ∀ (r : Option WorkspaceRevision) fl₁ w₁, Rely w w₁ → FlagsOk fl₁ w₁ →
      wpJs (pumpContract cfg) (pure r : Rt (Option WorkspaceRevision))
        (fun _ fl' w' => Rely w w' ∧ FlagsOk fl' w') anyErr fl₁ w₁ :=
    fun r fl₁ w₁ hr₁ hfl₁ => wp_pure (fun _ hr _ => ⟨hr₁.trans hr, hfl₁.rely hr⟩)
  unfold observeLoop
  refine wpJs_flags_bind (C := pumpContract cfg) (wp_ite ?_ ?_)
  · exact fun _ => hdone none fl w (Rely.refl w) hfl
  · intro _
    refine wp_try rfl rfl (fun _ _ _ => trivial) ?_
    intro w₁ r w₂ inp fl' w' _ _ _ hrw _ hfl' _
    cases r with
    | ok reply =>
      have reply : LeaseReply := reply
      dsimp only
      split
      · exact hdone _ fl' w' hrw hfl'
      · exact henter fl' w' hrw hfl'
    | error e =>
      by_cases he : e = .transientLease
      · subst he
        refine wp_quiet rfl rfl (fun _ _ _ => trivial) ?_
        intro w₃ r w₄ inp₄ fl₅ w₅ _ _ _ hr₅ _ hfl₅ _
        cases r with
        | error e => trivial
        | ok a => exact henter fl₅ w₅ (hrw.trans hr₅) hfl₅
      · have hthrow : wpJs (pumpContract cfg) (fail e : Rt (Option WorkspaceRevision))
            (fun _ fl' w' => Rely w w' ∧ FlagsOk fl' w') anyErr fl' w' :=
          wpJs_throw (C := pumpContract cfg) (fun _ _ _ => trivial)
        cases e <;> first | exact absurd rfl he | exact hthrow

/-! ## After a terminal read -/

theorem wp_cancel (hc : CancelOk w) :
    wpJs (pumpContract cfg) (performCancellation >>= fun (_ : Unit) => pure (some .cancelled))
      StepPost anyErr fl w :=
  wpJs_bind (C := pumpContract cfg) (wpJs_mono
    (sound_performCancellation (pumpContract_sound cfg) hc)
    (fun _ _ _ _ h => wp_exit (x := .cancelled) h) (fun _ _ _ _ h => h))

theorem checkpointOutput_ok {r : TerminalRead} {output : Json} {t : String} (hat : AtBound cfg w k t)
    (hread : ResultRead w t r) (hs : r.resultStatus = .available) (ht : r.resultText.isSome)
    (hp : parseResultOutput cfg (r.resultText.getD "") k.stepId = .ok output) :
    wpJs (pumpContract cfg) (checkpointOutput cfg.spec k r output) (fun _ fl' w' => FlagsOk fl' w')
      anyErr fl w := by
  unfold checkpointOutput
  refine wp_read (v := fun w => w.db.wf) (fun _ _ => rfl) (fun _ => trivial) ?_
    (fun _ _ _ _ _ _ => trivial)
  intro w₁ fl₁ w₁' hr₁ _ hr₁' hrw₁ _ _
  refine wpJs_last (wp_call ?_)
  intro w₂ hr₂ _
  have hrw₂ : Rely w w₂ := hrw₁.trans hr₂
  have howned : owned w₂.db = owned w₁.db := (hr₁'.trans hr₂).owned
  refine ⟨⟨t, r, hat.rely hrw₂, hread.rely hrw₂, hs, ht, hp, ?_, ?_, rfl⟩, ?_⟩
  · exact (congrArg Owned.contextRevision howned).symm
  · have hctx : w₂.db.wf.context = w₁.db.wf.context := congrArg Owned.context howned
    have hround : w₂.db.wf.currentRound = w₁.db.wf.currentRound :=
      congrArg Owned.currentRound howned
    rw [hctx, hround, ← hread.task]
  · intro res w₃ inp _ fl' w' _ _ hfl' _
    cases res with
    | error e => trivial
    | ok a => exact wp_pure (fun _ hr _ => hfl'.rely hr)

/-- A completed task's result, resolved, parsed and stored. -/
theorem resolveAndStore_ok {r : TerminalRead} (hat : AtBound cfg w k r.taskId)
    (hread : ResultRead w r.taskId r) (hfl : FlagsOk fl w) :
    wpJs (pumpContract cfg) (do
        let resolved : Resolved ← enter (.resolve k r r.nextEventId 0)
        match resolved with
        | .handled why => pure (some why)
        | .available r =>
          match parseResultOutput cfg (r.resultText.getD "") k.stepId with
          | .error e => do
              failStepOf k ([("reason", .str "invalid_output"), ("code", .str e.code)]
                ++ (match e.field with | some f => [("field", .str f)] | none => []))
              pure (some .ended)
          | .ok output => do
              checkpointOutput cfg.spec k r output
              pure none) StepPost anyErr fl w := by
  refine wpJs_bind (C := pumpContract cfg) (wpJs_mono (resolveLoop_enter hat hread hfl (Rely.refl w))
    ?_ (fun _ _ _ _ h => h))
  intro resolved fl₁ w₁ _ hpost
  cases resolved with
  | handled why => exact wp_exit hpost
  | available a =>
    obtain ⟨hr₁, hfl₁, hread₁, hs, ht⟩ := hpost
    have hat₁ := hat.rely hr₁
    show wpJs _ (match parseResultOutput cfg (a.resultText.getD "") k.stepId with
      | .error e => _ | .ok output => _) _ _ _ _
    cases hp : parseResultOutput cfg (a.resultText.getD "") k.stepId with
    | error e =>
      refine wp_failStepOf ?_ (fun _ _ hx => wp_exit hx)
      intro w₂ hr₂ _
      exact ⟨r.taskId, hat₁.rely hr₂, .output (hread₁.rely hr₂) hs ht hp⟩
    | ok output =>
      refine wpJs_bind (C := pumpContract cfg) (wpJs_mono
        (checkpointOutput_ok hat₁ hread₁ hs ht hp) ?_ (fun _ _ _ _ h => h))
      exact fun _ fl' w' _ hfl' => wp_pure (fun _ hr _ => hfl'.rely hr)

theorem handleTaskTerminal_ok {r : TerminalRead} (hat : AtBound cfg w k r.taskId)
    (hlog : .read r ∈ w.log) (hterm : r.status.isTerminal = true) :
    wpJs (pumpContract cfg) (handleTaskTerminal cfg cfg.spec k r) StepPost anyErr fl w := by
  unfold handleTaskTerminal
  refine wp_read (v := fun w => w.db.wf) (fun _ _ => rfl) (fun _ => trivial) ?_
    (fun _ _ _ _ _ _ => trivial)
  intro w₁ fl₁ w₁' hr₁ hi₁ hr₁' hrw₁ _ hfl₁
  refine wpJs_bind (C := pumpContract cfg) (wpJs_mono (R := fun _ fl' w' => QuietPost w₁' fl' w') ?_ ?_
    (fun _ _ _ _ h => h))
  · split
    · exact wp_pure (fun _ hr _ => ⟨hfl₁.rely hr, hr⟩)
    · rename_i target htarget
      exact observeRevisionAfter_ok (stepLeaseTarget_leases htarget) _ _ ⟨hfl₁, Rely.refl _⟩
  rintro _ fl₂ w₂ _ ⟨hfl₂, hr₂⟩
  have hrw₂ : Rely w w₂ := hrw₁.trans hr₂
  refine wp_ite (c := w₁.db.wf.cancelRequested = true) ?_ ?_
  · intro hreq
    exact wp_cancel (Or.inl ((hr₁'.trans hr₂).cancel (hi₁.intent hreq)))
  · intro _
    cases hst : r.status with
    | running =>
      rw [hst] at hterm
      cases hterm
    | failed =>
      refine wp_failStepOf ?_ (fun _ _ hx => wp_exit hx)
      intro w₃ hr₃ _
      have hr := hrw₂.trans hr₃
      exact ⟨r.taskId, hat.rely hr, .task (hr.log hlog) rfl (Or.inl hst)⟩
    | cancelled =>
      refine wp_failStepOf ?_ (fun _ _ hx => wp_exit hx)
      intro w₃ hr₃ _
      have hr := hrw₂.trans hr₃
      exact ⟨r.taskId, hat.rely hr, .task (hr.log hlog) rfl (Or.inr hst)⟩
    | completed =>
      exact resolveAndStore_ok (hat.rely hrw₂)
        ⟨hrw₂.log hlog, rfl, r, hrw₂.log hlog, rfl, hst⟩ hfl₂

/-! ## Evidence -/

theorem getTask_read {t : String} {inp : Input} {w' : World} {r : Except CallError (Ans (.getTask t))}
    (h : exec (.getTask t) w inp = some (r, w')) :
    (∃ st, r = .ok st ∧ TaskRowRead w' t st) ∨ ((∃ e, r = .error e) ∧ TaskRowRead w' t none) := by
  simp only [exec] at h
  split at h
  · rename_i st
    cases h
    exact Or.inl ⟨st, rfl, Or.inl (List.mem_append_right _ (List.mem_singleton.mpr rfl))⟩
  · rename_i e
    cases h
    exact Or.inr ⟨⟨_, rfl⟩, Or.inr ⟨List.mem_append_right _ (List.mem_singleton.mpr rfl), rfl⟩⟩
  · cases h

theorem getTaskResult_read {t : String} {inp : Input} {w' : World}
    {r : Except CallError (Ans (.getTaskResult t))}
    (h : exec (.getTaskResult t) w inp = some (r, w')) :
    (∃ a, r = .ok a ∧ TaskResultRead w' t a) ∨ ((∃ e, r = .error e) ∧ TaskResultRead w' t none) := by
  simp only [exec] at h
  split at h
  · rename_i a
    cases h
    exact Or.inl ⟨a, rfl, Or.inl (List.mem_append_right _ (List.mem_singleton.mpr rfl))⟩
  · rename_i e
    cases h
    exact Or.inr ⟨⟨_, rfl⟩, Or.inr ⟨List.mem_append_right _ (List.mem_singleton.mpr rfl), rfl⟩⟩
  · cases h

theorem getTask_ok {t : String} {w₀ : World} (hr₀ : Rely w₀ w) :
    wpJs (pumpContract cfg) (orNone (call (.getTask t)))
      (fun st fl' w' => QuietPost w₀ fl' w' ∧ TaskRowRead w' t st) anyErr fl w := by
  refine wpJs_tryCatch (C := pumpContract cfg) (wpJs_last (wp_quiet rfl rfl (fun _ _ _ => trivial) ?_))
  intro w₁ r w₂ inp fl' w' _ hex hr' hrw _ hfl _
  rcases getTask_read hex with ⟨st, rfl, hread⟩ | ⟨⟨e, rfl⟩, hread⟩
  · exact wp_pure (fun _ hr _ => ⟨⟨hfl.rely hr, (hr₀.trans hrw).trans hr⟩, hread.rely (hr'.trans hr)⟩)
  · exact wp_pure (fun _ hr _ => ⟨⟨hfl.rely hr, (hr₀.trans hrw).trans hr⟩, hread.rely (hr'.trans hr)⟩)

theorem getTaskResult_ok {t : String} {w₀ : World} (hr₀ : Rely w₀ w) :
    wpJs (pumpContract cfg) (orNone (call (.getTaskResult t)))
      (fun a fl' w' => QuietPost w₀ fl' w' ∧ TaskResultRead w' t a) anyErr fl w := by
  refine wpJs_tryCatch (C := pumpContract cfg) (wpJs_last (wp_quiet rfl rfl (fun _ _ _ => trivial) ?_))
  intro w₁ r w₂ inp fl' w' _ hex hr' hrw _ hfl _
  rcases getTaskResult_read hex with ⟨st, rfl, hread⟩ | ⟨⟨e, rfl⟩, hread⟩
  · exact wp_pure (fun _ hr _ => ⟨⟨hfl.rely hr, (hr₀.trans hrw).trans hr⟩, hread.rely (hr'.trans hr)⟩)
  · exact wp_pure (fun _ hr _ => ⟨⟨hfl.rely hr, (hr₀.trans hrw).trans hr⟩, hread.rely (hr'.trans hr)⟩)

/-- A completed row as it was read. -/
structure CompletedRow (cfg : Config) (row : StepRow) : Prop where
  status : row.status = .completed
  revisions : ¬ Leases cfg → row.revisionBefore = none ∧ row.revisionAfter = none

theorem assembleStepEvidence_ok {row : StepRow} (hrow : CompletedRow cfg row) (hfl : FlagsOk fl w) :
    wpJs (pumpContract cfg) (assembleStepEvidence cfg row)
      (fun e fl' w' => QuietPost w fl' w' ∧ EvidenceRead cfg w' row.taskId e) anyErr fl w := by
  unfold assembleStepEvidence
  cases ht : row.taskId with
  | none =>
    refine wp_pure (fun _ hr _ => ⟨⟨hfl.rely hr, hr⟩, ?_⟩)
    exact ⟨none, none, row.revisionBefore, row.revisionAfter, rfl, hrow.revisions, rfl, rfl⟩
  | some t =>
    refine wpJs_bind (C := pumpContract cfg) (wpJs_mono (getTask_ok (Rely.refl w)) ?_
      (fun _ _ _ _ h => h))
    rintro st fl₁ w₁ _ ⟨⟨-, hr₁⟩, hst⟩
    refine wpJs_bind (C := pumpContract cfg) (wpJs_mono (getTaskResult_ok (Rely.refl w₁)) ?_
      (fun _ _ _ _ h => h))
    rintro a fl₂ w₂ _ ⟨⟨hfl₂, hr₂⟩, ha⟩
    refine wp_pure (fun _ hr _ => ⟨⟨hfl₂.rely hr, (hr₁.trans hr₂).trans hr⟩, ?_⟩)
    exact ⟨st, a, row.revisionBefore, row.revisionAfter, rfl, hrow.revisions,
      hst.rely (hr₂.trans hr), ha.rely hr⟩

theorem gateCompletion_ok {policy : CompletionPolicy} {row : StepRow} {output : Json}
    {d : RoutingDecision} (hrow : CompletedRow cfg row) (hat : AtStep cfg w row.key (maskRow row))
    (h : Routed cfg w row.key output d) (ht : d.terminal = true)
    (hs : terminalTargetToStatus d.target = .completed)
    (hp : cfg.spec.completionPolicy = some policy) (hfl : FlagsOk fl w) :
    wpJs (pumpContract cfg) (gateCompletion cfg policy row output d.target)
      (fun why _ w' => ExitOk why w') anyErr fl w := by
  unfold gateCompletion
  refine wpJs_bind (C := pumpContract cfg) (wpJs_mono (assembleStepEvidence_ok hrow hfl) ?_
    (fun _ _ _ _ h => h))
  rintro e fl₁ w₁ _ ⟨⟨hfl₁, hr₁⟩, he⟩
  -- the evidence row is written if it can be
  have hwrite : ∀ fl₂ w₂, Rely w₁ w₂ → wpJs (pumpContract cfg) (do
      let _ : Unit ← call (.terminalize
        (completionStatus (evaluateCompletion policy e (declaredRemainingWork output)))
        (some (gatedEdgeEvent d.target))
        (completionEvent (evaluateCompletion policy e (declaredRemainingWork output))))
      pure .ended) (fun why _ w' => ExitOk why w') anyErr fl₂ w₂ := by
    intro fl₂ w₂ hr₂
    refine wp_terminalize (completionStatus_ne _) ?_
      (fun _ _ hx _ => wp_pure (fun _ hr _ => ExitOk.rely hx hr))
    intro w₃ hr₃ _
    have hr := (hr₁.trans hr₂).trans hr₃
    exact .gated (h.rely hr) (hat.rely hr) ht hs hp (he.rely (hr₂.trans hr₃))
  refine wpJs_bind (C := pumpContract cfg) (wpJs_tryCatch (C := pumpContract cfg)
    (wpJs_last (wp_quiet rfl rfl (fun _ hr _ => ⟨_, hat.rely (hr₁.trans hr)⟩) ?_)))
  intro w₂ r w₃ inp fl' w' _ _ _ hrw _ _ _
  cases r with
  | ok a => exact wp_pure (fun w₄ hr₄ _ => hwrite fl' w₄ (hrw.trans hr₄))
  | error e => exact wp_pure (fun w₄ hr₄ _ => hwrite fl' w₄ (hrw.trans hr₄))

/-! ## Stall detection -/

theorem leaseHash_ok {w₀ : World} (hr₀ : Rely w₀ w) :
    wpJs (pumpContract cfg) leaseHash
      (fun s fl' w' => QuietPost w₀ fl' w' ∧ LeaseHashRead w' s) anyErr fl w := by
  unfold leaseHash
  refine wpJs_tryCatch (C := pumpContract cfg) (wp_quiet rfl rfl (fun _ _ _ => trivial) ?_)
  intro w₁ r w₂ inp fl' w' _ hex hr' hrw _ hfl _
  cases r with
  | error e =>
    exact wp_pure (fun _ hr _ => ⟨⟨hfl.rely hr, (hr₀.trans hrw).trans hr⟩, Or.inl rfl⟩)
  | ok reply =>
    refine wp_pure (fun _ hr _ => ⟨⟨hfl.rely hr, (hr₀.trans hrw).trans hr⟩, ?_⟩)
    refine Or.inr ⟨reply, (hr'.trans hr).log ?_, rfl⟩
    simp only [exec] at hex
    split at hex
    · cases hex
      exact List.mem_append_right _ (List.mem_singleton.mpr rfl)
    · cases hex
    · cases hex
    · cases hex

theorem latestResultContentHash_ok {stepId : String} {w₀ : World} (hr₀ : Rely w₀ w) :
    wpJs (pumpContract cfg) (latestResultContentHash stepId)
      (fun s fl' w' => QuietPost w₀ fl' w' ∧ ContentHashRead w' stepId s) anyErr fl w := by
  unfold latestResultContentHash
  refine wp_read (v := fun w => listStepExecutions w.db) (fun _ _ => rfl) (fun _ => trivial) ?_
    (fun _ _ _ _ _ _ => trivial)
  intro w₁ fl₁ w₁' _ _ hr₁' hrw₁ _ hfl₁
  cases ht : (latestOther (listStepExecutions w₁.db) stepId).bind StepRow.taskId with
  | none =>
    refine wp_pure (fun _ hr _ => ⟨⟨hfl₁.rely hr, (hr₀.trans hrw₁).trans hr⟩, ?_⟩)
    refine ContentHashRead.rely (w := w₁) ?_ (hr₁'.trans hr)
    unfold ContentHashRead
    rw [ht]
  | some t =>
    refine wpJs_bind (C := pumpContract cfg) (wpJs_mono (getTaskResult_ok (Rely.refl w₁')) ?_
      (fun _ _ _ _ h => h))
    rintro a fl₂ w₂ _ ⟨⟨hfl₂, hr₂⟩, ha⟩
    refine wp_pure (fun w' hr _ => ⟨⟨hfl₂.rely hr, ((hr₀.trans hrw₁).trans hr₂).trans hr⟩, ?_⟩)
    have hto : Rely w₁ w' := (hr₁'.trans hr₂).trans hr
    have heq : (latestOther (listStepExecutions w'.db) stepId).bind StepRow.taskId = some t :=
      (latestTask_rely hto stepId).trans ht
    unfold ContentHashRead
    rw [heq]
    exact ⟨a, ha.rely hr, rfl⟩

/-- The executions and the current one are all a routing decision rests on. -/
theorem Looped.of_steps {output : Json} {d : RoutingDecision} {w' : World}
    (h : Looped cfg w k output d) (hwf : w'.db.wf = w.db.wf) (hsteps : w'.db.steps = w.db.steps) :
    Looped cfg w' k output d := by
  obtain ⟨row, hat, hs, ho⟩ := h.left
  refine ⟨⟨⟨row, ⟨?_, ?_⟩, hs, ho⟩, h.edge⟩, h.step, h.loop, h.room⟩
  · rw [← hat.cur]
    simp only [Owned.cur, owned, hwf]
  · rw [← hat.row]
    simp only [Owned.step?, owned, hsteps]

theorem recordStall_cases {round : Nat} {fp : String} {values : Json} {inp : Input} {w' : World}
    (h : exec (.recordStall round fp values) w inp = some (.ok (), w')) :
    StallRecorded w' round ∧ w'.db.wf = w.db.wf ∧ w'.db.steps = w.db.steps := by
  rcases storeWrite_cases h with ⟨db, hdb, -, rfl⟩ | ⟨-, e, he⟩
  · cases hdb
    show StallRecorded (w.write (recordStallRound w.db round fp values)) round ∧
      (recordStallRound w.db round fp values).wf = w.db.wf ∧
      (recordStallRound w.db round fp values).steps = w.db.steps
    unfold recordStallRound
    split
    · rename_i hany
      rw [List.any_eq_true] at hany
      obtain ⟨s, hs, hr⟩ := hany
      exact ⟨⟨s, hs, by simpa using hr⟩, rfl, rfl⟩
    · exact ⟨⟨_, List.mem_append_right _ (List.mem_singleton.mpr rfl), rfl⟩, rfl, rfl⟩
  · exact nomatch he

/-- A loop edge that stall detection lets pass. -/
def Unstalled (w : World) (policy : StallPolicy) (k : StepKey) : Prop :=
  StallRecorded w k.round ∧ isStalled (listStallRounds w.db) policy.maxStalledRounds = false

theorem checkStall_ok {policy : StallPolicy} {output : Json} {d : RoutingDecision}
    (h : Looped cfg w k output d) (hp : cfg.spec.stallPolicy = some policy) :
    wpJs (pumpContract cfg) (checkStall cfg policy k output)
      (fun stalled fl' w' => if stalled = true then ExitOk .ended w'
        else FlagsOk fl' w' ∧ Looped cfg w' k output d ∧ Unstalled w' policy k) anyErr fl w := by
  unfold checkStall
  refine wp_read (v := fun w => w.db.wf) (fun _ _ => rfl) (fun _ => trivial) ?_
    (fun _ _ _ _ _ _ => trivial)
  intro w₁ fl₁ w₁' _ _ hr₁' hrw₁ _ _
  refine wpJs_bind (C := pumpContract cfg) (wpJs_mono (leaseHash_ok (Rely.refl w₁')) ?_
    (fun _ _ _ _ h => h))
  rintro wsRev fl₂ w₂ _ ⟨⟨-, hr₂⟩, hws⟩
  refine wpJs_bind (C := pumpContract cfg) (wpJs_mono (latestResultContentHash_ok (Rely.refl w₂)) ?_
    (fun _ _ _ _ h => h))
  rintro verified fl₃ w₃ _ ⟨⟨-, hr₃⟩, hver⟩
  have hrw₃ : Rely w w₃ := (hrw₁.trans hr₂).trans hr₃
  refine wp_call ?_
  intro w₄ hr₄ _
  have hto₄ : Rely w₁ w₄ := ((hr₁'.trans hr₂).trans hr₃).trans hr₄
  have hloop := h.rely (hrw₃.trans hr₄)
  refine ⟨⟨k, output, d, policy, hloop, hp, rfl, wsRev, verified, hws.rely (hr₃.trans hr₄),
    hver.rely hr₄, ?_, rfl⟩, ?_⟩
  · have hctx : w₄.db.wf.context = w₁.db.wf.context := congrArg Owned.context hto₄.owned
    rw [hctx]
  · intro r w₅ inp hex fl₆ w₆ hr₆ _ _ _
    cases r with
    | error e => trivial
    | ok a =>
      obtain ⟨hrec, hwf, hsteps⟩ := recordStall_cases hex
      have hloop₆ := (hloop.of_steps hwf hsteps).rely hr₆
      have hrec₆ := hrec.rely hr₆
      refine wp_read (v := fun w => listStallRounds w.db) (fun _ _ => rfl) (fun _ => trivial) ?_
        (fun _ _ _ _ _ _ => trivial)
      intro w₇ fl₇ w₇' hr₇ _ hr₇' hrw₇ _ hfl₇
      refine wp_ite ?_ ?_
      · intro hst
        refine wp_blockWorkflow ?_ (fun _ _ hx => wp_pure (fun _ hr _ => ?_))
        · intro w₈ ev hr₈ _ hev
          refine .noProgress (hloop₆.rely (hrw₇.trans hr₈)) hp (hrec₆.rely (hrw₇.trans hr₈)) ?_ hev
          rw [listStallRounds_rely (hr₇'.trans hr₈)]
          exact hst
        · exact ExitOk.rely hx hr
      · intro hst
        refine wp_pure (fun w₈ hr₈ _ => ?_)
        show if false = true then _ else _
        rw [if_neg Bool.false_ne_true]
        refine ⟨hfl₇.rely hr₈, hloop₆.rely (hrw₇.trans hr₈), hrec₆.rely (hrw₇.trans hr₈), ?_⟩
        rw [listStallRounds_rely (hr₇'.trans hr₈)]
        simpa using hst

/-! ## Routing -/

/-- An edge to a step may be taken. -/
structure EdgeReady (cfg : Config) (k : StepKey) (output : Json) (d : RoutingDecision) (w : World) :
    Prop where
  routed : Routed cfg w k output d
  step : d.terminal = false
  loop : d.edgeKind = .loop → Looped cfg w k output d ∧ ∀ policy, cfg.spec.stallPolicy = some policy →
    Unstalled w policy k

theorem EdgeReady.rely {output : Json} {d : RoutingDecision} {w' : World}
    (h : EdgeReady cfg k output d w) (hr : Rely w w') : EdgeReady cfg k output d w' where
  routed := h.routed.rely hr
  step := h.step
  loop := by
    intro hk
    obtain ⟨hl, hs⟩ := h.loop hk
    refine ⟨hl.rely hr, ?_⟩
    intro policy hp
    obtain ⟨hrec, hst⟩ := hs policy hp
    refine ⟨hrec.rely hr, ?_⟩
    rw [listStallRounds_rely hr]
    exact hst

theorem takeEdge_ok {output : Json} {d : RoutingDecision} (h : EdgeReady cfg k output d w) :
    wpJs (pumpContract cfg) (takeEdge k d) StepPost anyErr fl w := by
  unfold takeEdge
  refine wp_call ?_
  intro w₁ hr₁ _
  have h₁ := h.rely hr₁
  refine ⟨⟨k, output, d, h₁.routed, h₁.step, h₁.loop, rfl, rfl, rfl, rfl⟩, ?_⟩
  intro r w₂ inp _ fl' w' _ _ hfl _
  cases r with
  | error e => trivial
  | ok a => exact wp_pure (fun _ hr _ => hfl.rely hr)

theorem routeAndAdvance_ok {row : StepRow} (hrow : CompletedRow cfg row)
    (hat : AtStep cfg w row.key (maskRow row)) (hfl : FlagsOk fl w) :
    wpJs (pumpContract cfg) (routeAndAdvance cfg cfg.spec row) StepPost anyErr fl w := by
  have hcomp : (maskRow row).status = .completed := (maskRow_completed row).mpr hrow.status
  unfold routeAndAdvance
  cases ho : outputObject row with
  | none =>
    refine wp_failWorkflow ?_ (fun _ _ hx => wp_exit hx)
    intro w₁ hr₁ _
    exact .noOutput (hat.rely hr₁) hcomp ((outputObject_mask row).trans ho)
  | some output =>
    have hout : AtOutput cfg w row.key output :=
      ⟨maskRow row, hat, hcomp, (outputObject_mask row).trans ho⟩
    dsimp only
    cases hsel : selectEdge cfg.spec row.key.stepId output row.key.round with
    | error e =>
      refine wp_failWorkflow ?_ (fun _ _ hx => wp_exit hx)
      intro w₁ hr₁ _
      exact .routing (hout.rely hr₁) hsel
    | ok d =>
      have hrouted : Routed cfg w row.key output d := ⟨hout, hsel⟩
      refine wp_ite (c := d.terminal = true) ?_ ?_
      · intro ht
        have hplain : (terminalTargetToStatus d.target ≠ .completed ∨
            cfg.spec.completionPolicy = none) →
            wpJs (pumpContract cfg) (endByRouting d.target >>= fun (_ : Unit) => pure (some .ended))
              StepPost anyErr fl w := by
          intro hor
          exact wp_terminalize (terminalTargetToStatus_ne d.target)
            (fun w₁ hr₁ _ => .routed (hrouted.rely hr₁) ht hor) (fun _ _ hx _ => wp_exit hx)
        split
        · rename_i policy hs hp
          refine wpJs_bind (C := pumpContract cfg) (wpJs_mono
            (gateCompletion_ok hrow hat hrouted ht hs hp hfl) ?_ (fun _ _ _ _ h => h))
          exact fun why fl' w' _ hx => wp_exit hx
        · rename_i hne
          refine hplain ?_
          by_cases hs : terminalTargetToStatus d.target = .completed
          · cases hp : cfg.spec.completionPolicy with
            | none => exact Or.inr rfl
            | some policy => exact absurd hp (hne policy hs)
          · exact Or.inl hs
      · intro ht
        have ht : d.terminal = false := by simpa using ht
        refine wp_ite (c := d.edgeKind = .loop) ?_ ?_
        · intro hloop
          refine wp_ite ?_ ?_
          · intro hroom
            refine wp_failLimit ?_ (fun _ _ hx _ => wp_exit hx)
            intro w₁ hr₁ _
            exact .maxRounds (hrouted.rely hr₁) ht hloop (by simpa using hroom)
          · intro hroom
            have hlooped : Looped cfg w row.key output d := ⟨hrouted, ht, hloop, by simpa using hroom⟩
            cases hp : cfg.spec.stallPolicy with
            | none =>
              refine takeEdge_ok ⟨hrouted, ht, fun _ => ⟨hlooped, ?_⟩⟩
              intro policy hp'
              rw [hp] at hp'
              cases hp'
            | some policy =>
              refine wpJs_bind (C := pumpContract cfg) (wpJs_mono
                (checkStall_ok hlooped hp) ?_ (fun _ _ _ _ h => h))
              intro stalled fl₁ w₁ _ hpost
              cases stalled with
              | true => exact wp_exit hpost
              | false =>
                obtain ⟨-, hl₁, hun⟩ := hpost
                refine takeEdge_ok ⟨hl₁.toRouted, ht, fun _ => ⟨hl₁, ?_⟩⟩
                intro policy' hp'
                rw [hp] at hp'
                cases hp'
                exact hun
        · intro hloop
          exact takeEdge_ok ⟨hrouted, ht, fun h => absurd h hloop⟩

/-! ## The driver -/

theorem handleOutcome_ok {t : String} {r : WaitOutcome} (hat : AtBound cfg w k t)
    (h : waitPost cfg t r fl w) :
    wpJs (pumpContract cfg) (handleOutcome cfg cfg.spec k r) StepPost anyErr fl w := by
  obtain ⟨hfl, hpost⟩ := h
  cases r with
  | shutdown => exact wp_exit (x := .shutdown) hpost
  | deadline =>
    refine wp_failLimit ?_ (fun _ _ _ ht => wp_exit (x := .limit) ht)
    intro w₁ hr₁ _
    exact .deadline (deadline_rely hpost (fun t ht => hr₁.started t ht) hr₁.now)
  | cancel => exact wp_cancel hpost
  | read a =>
    obtain ⟨hlog, hid, hterm⟩ := hpost
    exact handleTaskTerminal_ok (hid ▸ hat) hlog hterm

theorem awaitAndHandle_ok {wf : WorkflowRow} {t : String} (hat : AtBound cfg w k t)
    (hs : StartedOk wf w) (hfl : FlagsOk fl w) :
    wpJs (pumpContract cfg) (awaitAndHandle cfg cfg.spec wf k t) StepPost anyErr fl w := by
  unfold awaitAndHandle
  refine wpJs_bind (C := pumpContract cfg) (wpJs_mono (waitLoop_enter hs hfl (Rely.refl w)) ?_
    (fun _ _ _ _ h => h))
  rintro r fl₁ w₁ _ ⟨hr₁, hpost⟩
  exact handleOutcome_ok (hat.rely hr₁) hpost

/-- What a workflow row that was read says of the world. -/
structure RowRead (wf : WorkflowRow) (w : World) : Prop where
  started : StartedOk wf w
  total : wf.totalTasks = w.db.wf.totalTasks

theorem RowRead.rely {wf : WorkflowRow} {w' : World} (h : RowRead wf w) (hr : Rely w w') :
    RowRead wf w' := by
  have hown : w'.db.wf.totalTasks = w.db.wf.totalTasks := congrArg Owned.totalTasks hr.owned
  exact ⟨h.started.rely hr, h.total.trans hown.symm⟩

theorem createThenAwait_ok {wf : WorkflowRow} (hv : ValidSpec cfg.rawSpec) (hat : AtUnbound cfg w k)
    (hwf : RowRead wf w) :
    wpJs (pumpContract cfg) (createThenAwait cfg cfg.spec wf k) StepPost anyErr fl w := by
  unfold createThenAwait
  refine wp_ite ?_ ?_
  · intro hfull
    refine wp_failLimit ?_ (fun _ _ hx _ => wp_exit hx)
    intro w₁ hr₁ _
    refine .maxTasks (hat.rely hr₁) ?_
    have htot := (hwf.rely hr₁).total
    unfold TaskRoom
    omega
  · intro hroom
    have hready : RenderReady cfg wf k w := by
      refine ⟨hv, hat, ?_, hwf.started⟩
      have htot := hwf.total
      unfold TaskRoom
      omega
    refine wpJs_bind (C := pumpContract cfg) (wpJs_mono (createAndBindTask_ok hready) ?_
      (fun _ _ _ _ h => h))
    intro r fl₁ w₁ _ hpost
    cases r with
    | stop why => exact wp_exit hpost
    | ok =>
      obtain ⟨-, hs₁, t, row, hat₁, hst, htask⟩ := hpost
      refine wp_read (v := fun w => w.db.step? k) (fun _ _ => rfl) (fun _ => trivial) ?_
        (fun _ _ _ _ _ _ => trivial)
      intro w₂ fl₂ w₂' hr₂ _ hr₂' hrw₂ _ hfl₂
      obtain ⟨r₀, hr₀, hmask⟩ := (hat₁.rely hr₂).row?
      have htask₀ : r₀.taskId = some t := by
        rw [← maskRow_taskId, hmask]
        exact htask
      rw [hr₀, Option.bind_some, htask₀]
      exact awaitAndHandle_ok ⟨row, hat₁.rely hrw₂, hst, htask⟩ (hs₁.rely hrw₂) hfl₂

/-- The current execution's row, as the driver has it. -/
structure CurrentRow (cfg : Config) (wf : WorkflowRow) (row : StepRow) (w : World) : Prop where
  valid : ValidSpec cfg.rawSpec
  workflow : RowRead wf w
  current : AtStep cfg w row.key (maskRow row)
  ended : isTerminalStepStatus row.status = true → row.status ≠ .completed → w.db.isTerminal = true
  revisions : ¬ Leases cfg → row.revisionBefore = none ∧ row.revisionAfter = none

theorem CurrentRow.rely {wf : WorkflowRow} {row : StepRow} {w' : World}
    (h : CurrentRow cfg wf row w) (hr : Rely w w') : CurrentRow cfg wf row w' :=
  ⟨h.valid, h.workflow.rely hr, h.current.rely hr, fun ht hne => hr.isTerminal (h.ended ht hne), h.revisions⟩

theorem driveStep_ok {wf : WorkflowRow} {row : StepRow} (h : CurrentRow cfg wf row w)
    (hfl : FlagsOk fl w) :
    wpJs (pumpContract cfg) (driveStep cfg cfg.spec wf row) StepPost anyErr fl w := by
  unfold driveStep
  refine wp_ite ?_ ?_
  · exact fun hc => routeAndAdvance_ok ⟨hc, h.revisions⟩ h.current hfl
  intro hne
  have hmask : (maskRow row).status ≠ .completed := fun hc => hne ((maskRow_completed row).mp hc)
  refine wp_ite ?_ ?_
  · intro ht
    exact wp_exit (x := .stepEnded) (Or.inl (not_running_of_terminal (h.ended ht hne)))
  · intro _
    cases ht : row.taskId with
    | none => exact createThenAwait_ok h.valid ⟨maskRow row, h.current, hmask, ht⟩ h.workflow
    | some t => exact awaitAndHandle_ok ⟨maskRow row, h.current, hmask, ht⟩ h.workflow.started hfl

/-- A row read at the current key. -/
theorem currentRow_of_read {wf : WorkflowRow} {row : StepRow} (hv : ValidSpec cfg.rawSpec)
    (hwf : RowRead wf w) (hi : CoreInv cfg w) (hcur : (owned w.db).cur cfg = k)
    (hrow : w.db.step? k = some row) : CurrentRow cfg wf row w := by
  have hkey := Db.step?_key hrow
  refine ⟨hv, hwf, ⟨?_, ?_⟩, ?_, ?_⟩
  · rw [hkey]
    exact hcur
  · rw [owned_step?, hkey, hrow]
    rfl
  · exact fun ht hne => hi.stepEnded row (Db.step?_mem hrow) ht hne
  · exact fun hl => hi.revisions hl row (Db.step?_mem hrow)

/-- A row that is started if it is not there. -/
theorem ensureStepStarted_row {wf : WorkflowRow} {row : StepRow} {ev : WorkflowEvent} {inp : Input}
    {w' : World} (hv : ValidSpec cfg.rawSpec) (hwf : RowRead wf w) (hi : CoreInv cfg w)
    (hcur : (owned w.db).cur cfg = k)
    (h : exec (.ensureStepStarted k ev) w inp = some (.ok row, w')) : CurrentRow cfg wf row w' := by
  rcases storeCall_cases h with ⟨a, ha, heq⟩ | ⟨-, e, he⟩
  · cases heq
    obtain ⟨x, hx, hw⟩ := map_ok_pair ha
    cases hw
    unfold ensureStepStarted at hx
    split at hx
    · rename_i r₀ hr₀
      cases hx
      exact currentRow_of_read hv hwf hi hcur hr₀
    · rename_i hnone
      cases hx
      refine ⟨hv, ⟨hwf.started, hwf.total⟩, ⟨?_, ?_⟩, nofun, fun _ => ⟨rfl, rfl⟩⟩
      · -- the new row is the current execution's
        show Owned.cur cfg (owned _) = k
        have hround : w.db.wf.currentRound = k.round := by rw [← hcur]; rfl
        show (⟨k.stepId, w.db.wf.currentRound⟩ : StepKey) = k
        rw [hround]
      · rw [owned_step?, Db.step?_concat (r := StepRow.fresh k) rfl, show (StepRow.fresh k).key = k from rfl,
          hnone]
        simp [StepRow.fresh]
  · exact nomatch he

theorem iterate_ok {wf : WorkflowRow} {now : Nat} (hwf : RowRead wf w)
    (hcur : cfg.loaded.isSome → currentKey cfg.spec wf = (owned w.db).cur cfg)
    (hreq : wf.cancelRequested = true → CancelReason w) (hnow : now ≤ w.now) :
    wpJs (pumpContract cfg) (iterate cfg wf now) StepPost anyErr fl w := by
  unfold iterate
  cases hload : cfg.loaded with
  | none =>
    refine wp_failWorkflow ?_ (fun _ _ hx => wp_exit hx)
    exact fun _ _ _ => .badSpec hload
  | some spec =>
    obtain ⟨hv, rfl⟩ := loaded_spec hload
    have hcur := hcur (by rw [hload]; rfl)
    refine wp_ite ?_ ?_
    · exact fun hc => wp_cancel (Or.inl (hreq hc))
    intro _
    refine wp_ite ?_ ?_
    · intro hd
      refine wp_failLimit ?_ (fun _ _ _ ht => wp_exit (x := .limit) ht)
      intro w₁ hr₁ _
      exact .deadline (deadline_rely hd (hwf.started.rely hr₁) (Nat.le_trans hnow hr₁.now))
    intro _
    refine wp_read (v := fun w => w.db.step? (currentKey cfg.spec wf)) (fun _ _ => rfl)
      (fun _ => trivial) ?_ (fun _ _ _ _ _ _ => trivial)
    intro w₁ fl₁ w₁' hr₁ hi₁ hr₁' hrw₁ _ hfl₁
    have hcur₁ : (owned w₁.db).cur cfg = currentKey cfg.spec wf := by
      rw [hr₁.owned]
      exact hcur.symm
    refine wpJs_bind (C := pumpContract cfg) (wpJs_mono
      (R := fun row fl' w' => FlagsOk fl' w' ∧ CurrentRow cfg wf row w') ?_ ?_ (fun _ _ _ _ h => h))
    · cases hstep : w₁.db.step? (currentKey cfg.spec wf) with
      | some row =>
        have hcurrent := currentRow_of_read hv (hwf.rely hr₁) hi₁ hcur₁ hstep
        exact wp_pure (fun _ hr _ => ⟨hfl₁.rely hr, hcurrent.rely (hr₁'.trans hr)⟩)
      | none =>
        refine wpJs_last (wp_call ?_)
        intro w₂ hr₂ hi₂
        have hcur₂ : (owned w₂.db).cur cfg = currentKey cfg.spec wf := by
          rw [(hr₁'.trans hr₂).owned]
          exact hcur₁
        refine ⟨⟨hcur₂, rfl⟩, ?_⟩
        intro r w₃ inp hex fl₄ w₄ hr₄ _ hfl₄ _
        cases r with
        | error e => trivial
        | ok row =>
          have hcurrent := ensureStepStarted_row hv (hwf.rely (hrw₁.trans hr₂)) hi₂ hcur₂ hex
          exact wp_pure (fun _ hr _ => ⟨hfl₄.rely hr, hcurrent.rely (hr₄.trans hr)⟩)
    rintro row fl₂ w₂ _ ⟨hfl₂, hcurrent⟩
    exact driveStep_ok hcurrent hfl₂

theorem driveLoop_ok (hfl : FlagsOk fl w) :
    wpJs (pumpContract cfg) (driveLoop cfg) (fun why _ w' => ExitOk why w') anyErr fl w := by
  unfold driveLoop
  refine wpJs_flags_bind (C := pumpContract cfg) (wp_ite ?_ ?_)
  · exact fun hs => wp_pure (fun _ hr _ => ExitOk.rely (x := .shutdown) (hfl.stopped hs) hr)
  intro _
  refine wp_call ?_
  intro w₁ hr₁ hi₁
  refine ⟨trivial, ?_⟩
  intro r w₂ inp hex fl' w' hr' _ hfl' _
  cases r with
  | error e => trivial
  | ok wf =>
    -- the row the rest of the iteration goes by
    have hread : wf = w₁.db.wf ∧ w₂ = { w₁ with restarted := false } := by
      have hex : storeCall w₁ inp (.ok ({ w₁ with restarted := false }, w₁.db.wf))
        = some (.ok wf, w₂) := hex
      rcases storeCall_cases hex with ⟨a, ha, heq⟩ | ⟨-, e, he⟩
      · cases heq
        cases ha
        exact ⟨rfl, rfl⟩
      · exact nomatch he
    obtain ⟨rfl, rfl⟩ := hread
    refine wpJs_flags_bind (C := pumpContract cfg) (wp_ite ?_ ?_)
    · intro hne
      refine wp_pure (fun _ hr _ => ExitOk.rely (x := .notRunning) ?_ (hr'.trans hr))
      exact Or.inl hne
    · intro _
      have hcancel : CancelReason w₁ → CancelReason w' := fun hc => hr'.cancel hc
      refine wpJs_bind (C := pumpContract cfg) (wpJs_mono (iterate_ok ?_ ?_ ?_ hfl'.now) ?_
        (fun _ _ _ _ h => h))
      · exact RowRead.rely (w := { w₁ with restarted := false }) ⟨fun _ ht => ht, rfl⟩ hr'
      · intro _
        rw [hr'.owned]
        rfl
      · exact fun hreq => hcancel (hi₁.intent hreq)
      · intro r fl₃ w₃ _ hpost
        cases r with
        | some why => exact wp_pure (fun _ hr _ => ExitOk.rely hpost hr)
        | none =>
          refine wpJs_recur (C := pumpContract cfg) ?_
          intro w₄ hr₄ _
          refine ⟨⟨FlagsOk.rely hpost hr₄, trivial⟩, ?_⟩
          intro r fl₅ w₅ hx w₆ hr₆ _
          cases r with
          | error e => trivial
          | ok why => exact ExitOk.rely hx hr₆

/-! ## Loops and pumps -/

/-- A specification of a loop's body is what the contract asks of it. -/
theorem bodyOk_of {l : Label} {m : Rt (Ret l)} (h : wpJs (pumpContract cfg) m (okPost cfg l w) anyErr fl w) :
    wp (pumpContract cfg) (m fl) (fun r w' => (pumpContract cfg).lpost l fl w r.1 r.2 w') w := by
  refine wp_mono h ?_
  rintro ⟨r, fl'⟩ w' _ hpost
  cases r with
  | ok a => exact hpost
  | error e => trivial

/-- **Every loop of the driver** meets its specification. -/
theorem bodies_ok (cfg : Config) : BodiesOk (pumpContract cfg) (body cfg) := by
  intro l fl w hi hinv
  refine bodyOk_of ?_
  cases l with
  | drive => exact driveLoop_ok hinv.1
  | create wf k req attempt => exact createLoop_ok hi hinv
  | wait wf taskId cursor attempt => exact waitLoop_ok hinv
  | resolve k cur cursor attempt => exact resolveLoop_ok hinv
  | observe target attempt => exact observeLoop_ok hinv

/-- What a finished pump leaves. -/
def PumpPost (r : Except CallError Exit × Flags) (w : World) : Prop :=
  match r.1 with
  | .ok why => ExitOk why w
  | .error _ => True

/-- How the driver left the workflow stays true while leases are released. -/
theorem exit_carried (cfg : Config) (why : Exit) : Carried (pumpContract cfg) (ExitOk why) where
  sound := pumpContract_sound cfg
  rely := fun hr hx => ExitOk.rely hx hr
  call := by
    intro op w inp r w' hop hex hx
    obtain ⟨hkeeps, hwakes⟩ := hop.keeps
    refine ExitOk.rely hx ((exec_effect hex).rely hkeeps ?_)
    rw [hwakes]
    exact nofun
  wake := fun {op r w} hx => ExitOk.rely hx (noteWake_rely op r w)

/-- **A pump** meets its specification, whatever state it is started in. -/
theorem runWorkflow_ok (hi : CoreInv cfg w) :
    wp (pumpContract cfg) (runWorkflow cfg w.flags) PumpPost w := by
  have hfl : FlagsOk w.flags w := ⟨id, hi.abort, Nat.le_refl _⟩
  have hrun : wpJs (pumpContract cfg) (runWorkflow cfg) (fun why _ w' => ExitOk why w') anyErr
      w.flags w := by
    unfold runWorkflow
    refine wpJs_recur_bind (C := pumpContract cfg) ?_
    intro w₁ hr₁ _
    refine ⟨⟨hfl.rely hr₁, trivial⟩, ?_⟩
    intro r fl₂ w₂ hx w₃ hr₃ _
    cases r with
    | error e => trivial
    | ok why =>
      have hx₃ : ExitOk why w₃ := ExitOk.rely hx hr₃
      refine wpJs_flags_bind (C := pumpContract cfg) (wp_ite ?_ ?_)
      · exact fun _ => wp_pure (fun _ hr _ => hx₃.rely hr)
      · intro _
        refine wpJs_bind (C := pumpContract cfg) (wpJs_tryCatch (C := pumpContract cfg) (wpJs_mono
          (settleLeaseReleases_keeps (exit_carried cfg why) cfg fl₂ w₃ hx₃) ?_ ?_))
        · exact fun _ _ _ _ hx => wp_pure (fun _ hr _ => ExitOk.rely hx hr)
        · exact fun _ _ _ _ hx => wp_pure (fun _ hr _ =>
            wp_pure (fun _ hr' _ => ExitOk.rely hx (hr.trans hr')))
  refine wp_mono hrun ?_
  rintro ⟨r, fl'⟩ w' _ hpost
  cases r with
  | ok why => exact hpost
  | error e => trivial

end VibeRuntime
