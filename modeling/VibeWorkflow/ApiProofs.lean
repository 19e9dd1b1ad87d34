import VibeWorkflow.DriverProofs

/-!
# The public calls meet their guards

A public call assumes less than the pump: while it is suspended the driver may have done
anything it may do, so only what no step takes back is left (`Mono`).

* **`apiContract`** — what a public call may assume and owes.
* **`program_ok`** — every public call meets it.
-/

namespace VibeRuntime

open VibeJson VibeContract VibeRouting VibeTemplate VibeValidator VibeStore VibeAdmission VibeControl
open AsyncLogic

/-- The event of a resumption names the request it rests on. -/
def resumedEvent (h : HumanRequestRow) : WorkflowEvent :=
  wfEvent .workflowResumed [("request_id", .str h.requestId)]

/-- The guard of each call a public call makes. -/
def ApiGuard (cfg : Config) (op : Op) (w : World) : Prop :=
  match op with
  | .startDurably ev => cfg.loaded.isSome ∧ ev.type = .workflowStarted
  | .answer _ _ | .approve _ | .ensurePump | .getActiveHumanRequest => True
  | .reject _ ev => ev.type = .workflowFailed
  | .resume ev => ∃ h, w.db.human? h.requestId = some h ∧
      (h.status = .answered ∨ h.status = .approved) ∧ ev = resumedEvent h
  | .abortPump => CancelOk w
  | op => CancelGuard op w

def apiContract (cfg : Config) : Contract sig World where
  inv := CoreInv cfg
  rely := Mono
  rely_refl := Mono.refl
  rely_trans := Mono.trans
  pre := ApiGuard cfg
  exec := fun op w r w' => ∃ inp, exec op w inp = some (r, w')
  wake := noteWake
  flags := World.flags
  linv := fun _ _ _ => False
  lpost := fun _ _ _ _ _ _ => True

theorem apiContract_sound (cfg : Config) : Sound (apiContract cfg) where
  mono := id
  runs := id
  wake := fun _ _ _ => rfl
  pre := by
    intro op w h
    cases op <;> first | exact h | exact absurd h id

/-- Nothing has to be carried through a release. -/
theorem nothing_carried (cfg : Config) : Carried (apiContract cfg) (fun _ => True) where
  sound := apiContract_sound cfg
  rely := fun _ _ => trivial
  call := fun _ _ _ => trivial
  wake := fun _ => trivial

/-- What a finished public call leaves: nothing is promised. -/
def ApiPost (_ : Except CallError Unit × Flags) (_ : World) : Prop := True

section

variable {cfg : Config} {α : Type} {op : Op} {fl : Flags} {w : World}

/-- Safe with any result. -/
def apiSafe (cfg : Config) (m : Rt α) (fl : Flags) (w : World) : Prop :=
  wpJs (apiContract cfg) m (fun _ _ _ => True) anyErr fl w

theorem api_call {f : Ans op → Rt α}
    (h : ∀ w₁, Mono w w₁ → CoreInv cfg w₁ → ApiGuard cfg op w₁ ∧
      ∀ a w₂ inp, exec op w₁ inp = some (.ok a, w₂) → ∀ fl' w', Mono w₂ w' → apiSafe cfg (f a) fl' w') :
    apiSafe cfg (call op >>= f) fl w := by
  refine wpJs_await_bind (C := apiContract cfg) ?_
  intro w₁ hr₁ hi₁
  obtain ⟨hg, hpost⟩ := h w₁ hr₁ hi₁
  refine ⟨hg, ?_⟩
  rintro r w₂ ⟨inp, hex⟩ w₃ hr₃ _ w₄ hr₄ _
  have hr₃ : Mono w₂ w₃ := hr₃
  have hr₄ : Mono (noteWake op r w₃) w₄ := hr₄
  have hm : Mono w₂ w₄ := (hr₃.trans (noteWake_rely op r w₃).toMono).trans hr₄
  cases r with
  | ok a => exact hpost a w₂ inp hex _ w₄ hm
  | error e => trivial

/-- A call that is always allowed. -/
theorem api_free {f : Ans op → Rt α} (hg : ∀ w, ApiGuard cfg op w)
    (h : ∀ a fl' w', apiSafe cfg (f a) fl' w') : apiSafe cfg (call op >>= f) fl w :=
  api_call (fun w₁ _ _ => ⟨hg w₁, fun a _ _ _ fl' w' _ => h a fl' w'⟩)

theorem api_last (hg : ∀ w, ApiGuard cfg op w) : apiSafe cfg (call op) fl w :=
  wpJs_last (api_free hg (fun _ _ _ => wpJs_pure (C := apiContract cfg) (fun _ _ _ => trivial)))

theorem api_pure (a : α) : apiSafe cfg (pure a : Rt α) fl w :=
  wpJs_pure (C := apiContract cfg) (fun _ _ _ => trivial)

theorem api_fail (e : CallError) : apiSafe cfg (fail e : Rt α) fl w :=
  wpJs_throw (C := apiContract cfg) (fun _ _ _ => trivial)

theorem api_ite {c : Prop} [Decidable c] {m₁ m₂ : Rt α} (h₁ : c → apiSafe cfg m₁ fl w)
    (h₂ : ¬ c → apiSafe cfg m₂ fl w) : apiSafe cfg (if c then m₁ else m₂) fl w := by
  split
  · exact h₁ ‹c›
  · exact h₂ ‹¬ c›

theorem api_release : apiSafe cfg (settleLeaseReleases cfg) fl w :=
  wpJs_mono (settleLeaseReleases_keeps (nothing_carried cfg) cfg fl w trivial)
    (fun _ _ _ _ _ => trivial) (fun _ _ _ _ _ => trivial)

end

section

variable {cfg : Config} {fl : Flags} {w : World}

/-- Start durably, then register a pump. -/
theorem startThenPump_ok (h : cfg.loaded.isSome) :
    apiSafe cfg (do
      let _ : Unit ← call (.startDurably (wfEvent .workflowStarted []))
      call .ensurePump) fl w :=
  api_free (fun _ => ⟨h, rfl⟩) (fun _ _ _ => api_last (fun _ => trivial))

theorem startWorkflow_ok : apiSafe cfg (startWorkflow cfg) fl w := by
  unfold startWorkflow
  refine api_free (fun _ => trivial) (fun wf fl₁ w₁ => ?_)
  refine api_ite (fun _ => api_pure ()) (fun _ => ?_)
  refine api_ite (fun _ => api_last (fun _ => trivial)) (fun _ => ?_)
  refine api_ite (fun _ => api_fail _) (fun _ => ?_)
  cases hload : cfg.loaded with
  | none => exact api_fail _
  | some spec =>
    have hsome : cfg.loaded.isSome := by rw [hload]; rfl
    refine api_ite (fun _ => api_fail _) (fun _ => ?_)
    refine api_ite (fun _ => ?_) (fun _ => startThenPump_ok hsome)
    refine api_free (fun _ => trivial) (fun reply fl₂ w₂ => ?_)
    cases LeaseReply.outcome reply with
    | acquired => exact startThenPump_ok hsome
    | blocked => exact api_fail _
    | pending => exact api_fail _

theorem reconcileAndMaybeStart_ok : apiSafe cfg (reconcileAndMaybeStart cfg) fl w := by
  unfold reconcileAndMaybeStart
  refine wpJs_flags_bind (C := apiContract cfg) ?_
  refine api_ite (fun _ => api_pure ()) (fun _ => ?_)
  refine api_free (fun _ => trivial) (fun wf fl₁ w₁ => ?_)
  refine api_ite (fun _ => api_pure ()) (fun hne => ?_)
  have hsome : cfg.loaded.isSome := by
    rw [not_or] at hne
    exact Option.isSome_iff_ne_none.mpr hne.2
  refine api_free (fun _ => trivial) (fun reply fl₂ w₂ => ?_)
  cases LeaseReply.outcome reply with
  | acquired => exact startThenPump_ok hsome
  | blocked => exact api_pure ()
  | pending => exact api_pure ()

theorem recoverWorkflows_ok : apiSafe cfg recoverWorkflows fl w := by
  unfold recoverWorkflows
  refine api_free (fun _ => trivial) (fun wf fl₁ w₁ => ?_)
  exact api_ite (fun _ => api_last (fun _ => trivial)) (fun _ => api_pure ())

theorem cancelWorkflow_ok (hc : CancelReason w) : apiSafe cfg (cancelWorkflow cfg) fl w := by
  unfold cancelWorkflow
  refine api_call (fun w₁ hm₁ _ => ⟨trivial, ?_⟩)
  intro wf w₂ inp hex fl₂ w₃ hm₃
  have hc₃ : CancelReason w₃ := hm₃.cancel ((exec_effect hex).mono.cancel (hm₁.cancel hc))
  refine api_ite (fun _ => api_pure ()) (fun _ => ?_)
  refine api_call (fun w₄ hm₄ _ => ⟨hm₄.cancel hc₃, ?_⟩)
  intro _ w₅ inp₅ hex₅ fl₅ w₆ hm₆
  have hc₆ : CancelReason w₆ := hm₆.cancel ((exec_effect hex₅).mono.cancel (hm₄.cancel hc₃))
  refine api_call (fun w₇ hm₇ _ => ⟨Or.inl (hm₇.cancel hc₆), ?_⟩)
  intro _ w₈ inp₈ hex₈ fl₈ w₉ hm₉
  have hc₉ : CancelReason w₉ := hm₉.cancel ((exec_effect hex₈).mono.cancel (hm₇.cancel hc₆))
  refine wpJs_bind (C := apiContract cfg) (wpJs_mono
    (sound_performCancellation (apiContract_sound cfg) (Or.inl hc₉)) ?_ (fun _ _ _ _ h => h))
  exact fun _ _ _ _ _ => api_release

/-- The active request that was read is one of the requests. -/
theorem active_read {h : HumanRequestRow} {inp : Input} {w' : World} (hi : CoreInv cfg w)
    (hex : exec .getActiveHumanRequest w inp = some (.ok (some h), w')) :
    w'.db.human? h.requestId = some h := by
  obtain ⟨hw, heq | ⟨e, he⟩⟩ := storeRead_cases hex
  · have hact : getActiveHumanRequest w.db = some h := (Except.ok.inj heq).symm
    have hmem := List.argmax_mem hact
    rw [hw]
    exact hi.human.find (List.mem_of_mem_filter hmem)
  · exact nomatch he

theorem resumeWorkflow_ok : apiSafe cfg resumeWorkflow fl w := by
  unfold resumeWorkflow
  refine api_free (fun _ => trivial) (fun wf fl₁ w₁ => ?_)
  refine api_ite (fun _ => ?_) (fun _ => ?_)
  · refine api_call (fun w₂ _ hi₂ => ⟨trivial, ?_⟩)
    intro req w₃ inp hex fl₃ w₄ hm₄
    cases req with
    | none => exact api_pure ()
    | some h =>
      refine api_ite (fun hready => ?_) (fun _ => api_pure ())
      -- the request that was read stays as it is, because it is not pending
      have hread := active_read hi₂ hex
      have hne : h.status ≠ .pending := by
        rcases hready with hs | hs
        · rw [hs]
          exact nofun
        · rw [hs]
          exact nofun
      have hstay := hm₄.human _ _ hread hne
      refine api_call (fun w₅ hm₅ _ => ⟨⟨h, hm₅.human _ _ hstay hne, hready, rfl⟩, ?_⟩)
      exact fun _ _ _ _ _ _ _ => api_last (fun _ => trivial)
  · exact api_ite (fun _ => api_last (fun _ => trivial)) (fun _ => api_pure ())

/-- A rejection leaves the workflow ended. -/
theorem reject_terminal {id : String} {ev : WorkflowEvent} {w' : World} {inp : Input}
    (h : exec (.reject id ev) w inp = some (.ok (), w')) : w'.db.isTerminal = true := by
  rcases storeWrite_cases h with ⟨db, hdb, -, rfl⟩ | ⟨-, e, he⟩
  · show db.isTerminal = true
    unfold rejectHumanRequestAndFailWorkflow at hdb
    split at hdb
    · exact nomatch hdb
    · split at hdb
      · exact nomatch hdb
      · split at hdb
        · exact nomatch hdb
        · split at hdb
          · exact nomatch hdb
          · simp only at hdb
            split at hdb
            · rename_i hend
              cases hdb
              exact hend
            · cases hdb
              rfl
  · exact nomatch he

theorem decideApproval_ok (id : String) (approved : Bool) :
    apiSafe cfg (decideApproval cfg id approved) fl w := by
  unfold decideApproval
  refine api_ite (fun _ => api_last (fun _ => trivial)) (fun _ => ?_)
  refine api_call (fun w₁ _ _ => ⟨rfl, ?_⟩)
  intro _ w₂ inp hex fl₂ w₃ hm₃
  have hend := hm₃.isTerminal (reject_terminal hex)
  refine api_call (fun w₄ hm₄ _ => ⟨Or.inr (hm₄.isTerminal hend), ?_⟩)
  exact fun _ _ _ _ _ _ _ => api_release

/-- **Every public call** meets its guards. -/
theorem program_ok (c : ApiCall) (hc : c = .cancel → CancelReason w) :
    apiSafe cfg (c.program cfg) fl w := by
  cases c with
  | start => exact startWorkflow_ok
  | reconcile => exact reconcileAndMaybeStart_ok
  | recover => exact recoverWorkflows_ok
  | cancel => exact cancelWorkflow_ok (hc rfl)
  | resume => exact resumeWorkflow_ok
  | answer id value => exact api_last (fun _ => trivial)
  | decide id approved => exact decideApproval_ok id approved

end

end VibeRuntime
