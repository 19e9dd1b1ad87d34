import VibeWorkflow.OrphanProofs

/-!
# Every execution creates its task once

A create request may be lost on its way, arrive after a crash, or be made again by the next
process.  All requests of one execution are the same request: the context, the outputs and the
answer it is rendered from do not change while the execution is current and not completed.  So
the service, which answers the same key and the same request with the same task, creates one
task for an execution, and the counts of bound tasks agree.

* **`OneRequest`** — all requests ever made under one key are equal.
* **`tasks_exactly_once`** — one row, one task and one count, in every run.
-/

namespace VibeRuntime

open VibeJson VibeContract VibeRouting VibeTemplate VibeValidator VibeStore VibeAdmission VibeControl
open AsyncLogic

/-! ## What a request is computed from -/

section

variable {cfg : Config} {w w' : World} {k : StepKey}

/-- The outputs a prompt may use. -/
def Owned.outputs (O : Owned) : List (String × Json) :=
  (O.steps.mergeSort (fun a b => decide (a.key.round ≤ b.key.round))).filterMap completedOutput

theorem requestOf_congr (hctx : (owned w'.db).context = (owned w.db).context)
    (hout : (owned w'.db).outputs = (owned w.db).outputs)
    (hh : w'.db.human? (cfg.humanRequestId k) = w.db.human? (cfg.humanRequestId k)) :
    requestOf cfg w' k = requestOf cfg w k := by
  have hctx : w'.db.wf.context = w.db.wf.context := hctx
  have hout : (listStepExecutions w'.db).filterMap completedOutput
      = (listStepExecutions w.db).filterMap completedOutput := by
    rw [listed_outputs, listed_outputs]
    exact hout
  have hscope : scopeAt cfg w' k = scopeAt cfg w k := by
    unfold scopeAt renderScopeOf
    rw [hh, hctx, hout]
  unfold requestOf
  rw [hscope]

/-- Binding a task changes no output. -/
theorem outputs_bind (O : Owned) (k : StepKey) (taskId : String) :
    (O.bind k taskId).outputs = O.outputs := by
  have hmap : ∀ f : StepRow → StepRow, (∀ r, (f r).key = r.key) →
      (∀ r, completedOutput (f r) = completedOutput r) →
      ((O.steps.map f).mergeSort (fun a b => decide (a.key.round ≤ b.key.round))).filterMap completedOutput
        = O.outputs := by
    intro f hkey hout
    have hsort : (O.steps.map f).mergeSort (fun a b => decide (a.key.round ≤ b.key.round))
        = (O.steps.mergeSort (fun a b => decide (a.key.round ≤ b.key.round))).map f := by
      refine (List.map_mergeSort (f := f) (r := fun a b => decide (a.key.round ≤ b.key.round)) ?_).symm
      intro a _ b _
      rw [hkey, hkey]
    rw [hsort, List.filterMap_map]
    exact List.filterMap_congr (fun r _ => hout r)
  refine hmap _ (fun r => ?_) (fun r => ?_)
  · split <;> rfl
  · split <;> rfl

end

/-! ## One request a key -/

/-- A request that was made: the service has its task, or it is on its way. -/
def Issued (w : World) (req : AgentTaskCreateRequest) : Prop :=
  (∃ t ∈ w.tasks, t.request = req) ∨ req ∈ w.inFlight

/-- The requests made are those of the executions, one for each, and the current execution's is
    what its templates render to now. -/
structure OneRequest (cfg : Config) (w : World) (I : AgentTaskCreateRequest → Prop) : Prop where
  unique : ∀ req req', I req → I req' → req.idempotencyKey = req'.idempotencyKey → req = req'
  row : ∀ req, I req → ∃ r ∈ (owned w.db).steps, (stepAndRole cfg.spec r.key).isSome ∧
    req.idempotencyKey = cfg.sec r.key
  current : ∀ req row, I req → (stepAndRole cfg.spec ((owned w.db).cur cfg)).isSome →
    req.idempotencyKey = cfg.sec ((owned w.db).cur cfg) →
    (owned w.db).step? ((owned w.db).cur cfg) = some row → row.status ≠ .completed →
    requestOf cfg w ((owned w.db).cur cfg) = some req ∧ PauseOk cfg w ((owned w.db).cur cfg)

section

variable {cfg : Config} {w w' : World} {I : AgentTaskCreateRequest → Prop}

theorem OneRequest.subset {J : AgentTaskCreateRequest → Prop} (h : OneRequest cfg w I)
    (hsub : ∀ req, J req → I req) : OneRequest cfg w J where
  unique := fun req req' hr hr' => h.unique req req' (hsub req hr) (hsub req' hr')
  row := fun req hr => h.row req (hsub req hr)
  current := fun req row hr => h.current req row (hsub req hr)

/-- A justified create request is the current execution's. -/
theorem create_current {req : AgentTaskCreateRequest} (hj : Justified cfg (.createTask req) w) :
    ∃ row, (owned w.db).step? ((owned w.db).cur cfg) = some row ∧ row.status ≠ .completed ∧
      requestOf cfg w ((owned w.db).cur cfg) = some req ∧ PauseOk cfg w ((owned w.db).cur cfg) := by
  obtain ⟨k, ⟨row, hat, hlive, -⟩, -, hpause, hreq⟩ := hj
  have hcur := hat.cur
  subst hcur
  exact ⟨row, hat.row, hlive, hreq, hpause⟩

/-- **Making the current request again** is making the same one. -/
theorem OneRequest.issue (h : OneRequest cfg w I) :
    OneRequest cfg w (fun req => I req ∨ Justified cfg (.createTask req) w) where
  unique := by
    have hone : ∀ req req', I req → Justified cfg (.createTask req') w →
        req.idempotencyKey = req'.idempotencyKey → req = req' := by
      intro req req' hr hj hkey
      obtain ⟨row, hrow, hlive, hreq, -⟩ := create_current hj
      have heq := (h.current req row hr (requestOf_step hreq)
        (hkey.trans (requestOf_key hreq)) hrow hlive).1
      exact Option.some.inj (heq.symm.trans hreq)
    intro req req' hr hr' hkey
    rcases hr with hr | hj
    · rcases hr' with hr' | hj'
      · exact h.unique req req' hr hr' hkey
      · exact hone req req' hr hj' hkey
    · rcases hr' with hr' | hj'
      · exact (hone req' req hr' hj hkey.symm).symm
      · obtain ⟨_, -, -, hreq, -⟩ := create_current hj
        obtain ⟨_, -, -, hreq', -⟩ := create_current hj'
        exact Option.some.inj (hreq.symm.trans hreq')
  row := by
    rintro req (hr | hj)
    · exact h.row req hr
    · obtain ⟨row, hrow, -, hreq, -⟩ := create_current hj
      obtain ⟨hmem, hkey⟩ := Owned.step?_mem hrow
      exact ⟨row, hmem, hkey ▸ requestOf_step hreq, hkey ▸ requestOf_key hreq⟩
  current := by
    rintro req row (hr | hj) hs hkey hrow hlive
    · exact h.current req row hr hs hkey hrow hlive
    · obtain ⟨_, -, -, hreq, hpause⟩ := create_current hj
      exact ⟨hreq, hpause⟩

/-- A key names one step in one round. -/
theorem sec_inj (hv : ValidSpec cfg.rawSpec) {k k' : StepKey} (hk : (stepAndRole cfg.spec k).isSome)
    (hk' : (stepAndRole cfg.spec k').isSome) (h : cfg.sec k = cfg.sec k') : k = k' :=
  stepExecutionId_inj (stepAndRole_no_dot hv hk) (stepAndRole_no_dot hv hk') h

/-- A new current execution has no request yet. -/
theorem OneRequest.fresh (hv : ValidSpec cfg.rawSpec) (h : OneRequest cfg w I) {k : StepKey}
    {req : AgentTaskCreateRequest} (hnone : (owned w.db).step? k = none) (hr : I req)
    (hs : (stepAndRole cfg.spec k).isSome) : req.idempotencyKey ≠ cfg.sec k := by
  intro hkey
  obtain ⟨r, hmem, hrs, hrkey⟩ := h.row req hr
  exact Owned.key_ne hnone hmem (sec_inj hv hrs hs (hrkey.symm.trans hkey))

/-- The pause of an execution stays answered. -/
theorem PauseOk.effect {op : Op} {k : StepKey} (h : PauseOk cfg w k) (heff : Effect op w w') :
    PauseOk cfg w' k := by
  intro hg
  obtain ⟨row, hrow, hs⟩ := h hg
  refine ⟨row, heff.mono.human _ _ hrow ?_, hs⟩
  rcases hs with hs | hs
  · rw [hs]
    exact nofun
  · rw [hs]
    exact nofun

/-- The request of an execution whose pause is answered depends on owned data only. -/
theorem requestOf_effect (hv : ValidSpec cfg.rawSpec) (hi : CoreInv cfg w) (hi' : CoreInv cfg w')
    {op : Op} (heff : Effect op w w') {k : StepKey} (hs : (stepAndRole cfg.spec k).isSome)
    (hp : PauseOk cfg w k) (hctx : (owned w'.db).context = (owned w.db).context)
    (hout : (owned w'.db).outputs = (owned w.db).outputs) :
    requestOf cfg w' k = requestOf cfg w k := by
  refine requestOf_congr hctx hout ?_
  cases hg : gateOf cfg k with
  | none => rw [human?_ungated hv hi hs hg, human?_ungated hv hi' hs hg]
  | some g =>
    obtain ⟨row, hrow, hst⟩ := hp (by rw [hg]; rfl)
    rw [hrow]
    refine heff.mono.human _ _ hrow ?_
    rcases hst with hst | hst
    · rw [hst]
      exact nofun
    · rw [hst]
      exact nofun

/-- The current execution and its row stay, with the context and the outputs. -/
theorem OneRequest.keep (hv : ValidSpec cfg.rawSpec) (hi : CoreInv cfg w) (hi' : CoreInv cfg w')
    {op : Op} (heff : Effect op w w') (h : OneRequest cfg w I)
    (hrows : ∀ r ∈ (owned w.db).steps, ∃ r' ∈ (owned w'.db).steps, r'.key = r.key)
    (hcur : (owned w'.db).cur cfg = (owned w.db).cur cfg)
    (hctx : (owned w'.db).context = (owned w.db).context)
    (hout : (owned w'.db).outputs = (owned w.db).outputs)
    (hrow : ∀ row', (owned w'.db).step? ((owned w.db).cur cfg) = some row' →
      row'.status ≠ .completed →
      ∃ row, (owned w.db).step? ((owned w.db).cur cfg) = some row ∧ row.status ≠ .completed) :
    OneRequest cfg w' I where
  unique := h.unique
  row := by
    intro req hr
    obtain ⟨r, hmem, hs, hkey⟩ := h.row req hr
    obtain ⟨r', hmem', hk⟩ := hrows r hmem
    exact ⟨r', hmem', hk ▸ hs, hk ▸ hkey⟩
  current := by
    rw [hcur]
    intro req row' hr hs hkey hrow' hlive'
    obtain ⟨row, hrow, hlive⟩ := hrow row' hrow' hlive'
    obtain ⟨hreq, hp⟩ := h.current req row hr hs hkey hrow hlive
    exact ⟨(requestOf_effect hv hi hi' heff hs hp hctx hout).trans hreq, hp.effect heff⟩

/-- A new execution becomes current, and nobody has made its request. -/
theorem OneRequest.enter (hv : ValidSpec cfg.rawSpec) (h : OneRequest cfg w I) {k : StepKey}
    (hnone : (owned w.db).step? k = none)
    (hsteps : (owned w'.db).steps = (owned w.db).steps ++ [StepRow.fresh k])
    (hcur : (owned w'.db).cur cfg = k) : OneRequest cfg w' I where
  unique := h.unique
  row := by
    intro req hr
    obtain ⟨r, hmem, hs, hkey⟩ := h.row req hr
    exact ⟨r, hsteps ▸ List.mem_append_left _ hmem, hs, hkey⟩
  current := by
    rw [hcur]
    intro req row hr hs hkey
    exact absurd hkey (h.fresh hv hnone hr hs)

/-- The current execution is completed, so nothing is asked of its request. -/
theorem OneRequest.done (h : OneRequest cfg w I)
    (hrows : ∀ r ∈ (owned w.db).steps, ∃ r' ∈ (owned w'.db).steps, r'.key = r.key)
    (hdone : ∀ row, (owned w'.db).step? ((owned w'.db).cur cfg) = some row → row.status = .completed) :
    OneRequest cfg w' I where
  unique := h.unique
  row := by
    intro req hr
    obtain ⟨r, hmem, hs, hkey⟩ := h.row req hr
    obtain ⟨r', hmem', hk⟩ := hrows r hmem
    exact ⟨r', hmem', hk ▸ hs, hk ▸ hkey⟩
  current := fun _ row _ _ _ hrow hlive => absurd (hdone row hrow) hlive

/-- **A guarded call keeps one request a key.** -/
theorem OneRequest.call (hv : ValidSpec cfg.rawSpec) (hi : CoreInv cfg w) (hi' : CoreInv cfg w')
    {op : Op} (hg : Justified cfg op w ∨ ApiGuard cfg op w) (heff : Effect op w w')
    (h : OneRequest cfg w I) : OneRequest cfg w' I := by
  have hs := heff.owned hi.keys
  rcases hg with hj | hg
  · have hkeep := h.keep hv hi hi' heff
    have henter := @OneRequest.enter cfg w w' I hv h
    have hdone := @OneRequest.done cfg w w' I h
    generalize owned w'.db = O' at hs hkeep henter hdone
    generalize hO : owned w.db = O at hs hkeep henter hdone
    cases hs with
    | same => exact hkeep (fun r hr => ⟨r, hr, rfl⟩) rfl rfl rfl (fun row hr hl => ⟨row, hr, hl⟩)
    | @started k ev _ hnone => exact henter hnone rfl (start_cur O (hO ▸ hj.1))
    | @bound k taskId ev _ row hrow hfree =>
      refine hkeep ?_ rfl rfl (outputs_bind O k taskId) ?_
      · intro r hr
        refine ⟨_, List.mem_map_of_mem hr, ?_⟩
        split <;> rfl
      · intro row' hrow' hlive'
        have hset := O.step?_setStep k (O.cur cfg) (f := fun r => { r with taskId := some taskId })
          (fun _ => rfl)
        obtain ⟨row₀, hrow₀, rfl⟩ := Option.map_eq_some_iff.mp (hset.symm.trans hrow')
        refine ⟨row₀, hrow₀, ?_⟩
        split at hlive' <;> exact hlive'
    | @completed k output context ev _ row hrow hlive =>
      obtain ⟨t, r, ⟨_, hat, -⟩, -⟩ := hj
      have hcur : O.cur cfg = k := hO ▸ hat.cur
      refine hdone ?_ ?_
      · intro r hr
        refine ⟨_, List.mem_map_of_mem hr, ?_⟩
        split <;> rfl
      · intro row' hrow'
        have hset := O.step?_setStep k (O.cur cfg)
          (f := fun r => { r with status := .completed, output := some output }) (fun _ => rfl)
        obtain ⟨row₀, hrow₀, rfl⟩ := Option.map_eq_some_iff.mp (hset.symm.trans hrow')
        rw [if_pos ((Owned.step?_mem hrow₀).2.trans hcur)]
    | @advanced edgeEv roundEv next startedEv _ hnone =>
      obtain ⟨k, output, d, hrt, -, -, -, rfl, rfl, -⟩ := hj
      obtain ⟨row, hat, -⟩ := hrt.left
      exact henter hnone rfl (advance_cur O d (hO ▸ hat.cur))
    | stalled _ => exact hkeep (fun r hr => ⟨r, hr, rfl⟩) rfl rfl rfl (fun row hr hl => ⟨row, hr, hl⟩)
  · have heq := ApiGuard.owned hg hs
    refine h.keep hv hi hi' heff ?_ (by rw [heq]) (by rw [heq]) (by rw [heq]) ?_
    · rw [heq]
      exact fun r hr => ⟨r, hr, rfl⟩
    · rw [heq]
      exact fun row hr hl => ⟨row, hr, hl⟩

/-- A call that makes a request is a create call. -/
theorem Effect.issued {op : Op} (h : Effect op w w') {req : AgentTaskCreateRequest}
    (hr : Issued w' req) : Issued w req ∨ op = .createTask req := by
  cases h with
  | @created _ req₀ id hnew hid =>
    rcases hr with ⟨t, ht, hreq⟩ | hr
    · rcases mem_snoc.mp ht with ht | rfl
      · exact Or.inl (Or.inl ⟨t, ht, hreq⟩)
      · exact Or.inr (by rw [← hreq])
    · exact Or.inl (Or.inr hr)
  | lost =>
    rcases hr with hr | hr
    · exact Or.inl (Or.inl hr)
    · rcases mem_snoc.mp hr with hr | rfl
      · exact Or.inl (Or.inr hr)
      · exact Or.inr rfl
  | createRefused =>
    rcases hr with hr | hr
    · exact Or.inl (Or.inl hr)
    · rcases mem_snoc.mp hr with hr | rfl
      · exact Or.inl (Or.inr hr)
      · exact Or.inr rfl
  | _ => exact Or.inl hr

/-- The tasks have distinct requests. -/
theorem Effect.requests {op : Op} (h : Effect op w w') (hreq : (w.tasks.map AgentTask.request).Nodup) :
    (w'.tasks.map AgentTask.request).Nodup := by
  cases h with
  | created hnew _ => exact nodup_snoc hreq hnew
  | _ => exact hreq

/-! ## Counts -/

def isTaskCreated (e : WorkflowEvent) : Bool := decide (e.type = .stepTaskCreated)

def isBoundRow (r : StepRow) : Bool := r.taskId.isSome

/-- The count of bound tasks is the count of their rows and of their events, within the limit. -/
structure Counted (cfg : Config) (w : World) : Prop where
  rows : w.db.wf.totalTasks = (owned w.db).steps.countP isBoundRow
  events : w.db.wf.totalTasks = w.db.events.countP isTaskCreated
  limit : w.db.wf.totalTasks ≤ cfg.spec.limits.maxTasks

/-- Changing one of several rows of distinct keys so that it counts adds one. -/
theorem countP_change {rows : List StepRow} {k : StepKey} {row : StepRow} {f : StepRow → StepRow}
    {p : StepRow → Bool} (hkeys : (rows.map StepRow.key).Nodup)
    (hrow : rows.find? (fun r => r.key = k) = some row) (hold : p row = false)
    (hnew : p (f row) = true) :
    (rows.map (fun r => if r.key = k then f r else r)).countP p = rows.countP p + 1 := by
  induction rows with
  | nil => exact nomatch hrow
  | cons hd tl ih =>
    rw [List.map_cons, List.nodup_cons] at hkeys
    rw [List.map_cons, List.countP_cons, List.countP_cons]
    by_cases hk : hd.key = k
    · -- no later row has this key
      rw [List.find?_cons_of_pos (by simpa using hk)] at hrow
      cases hrow
      have htl : tl.map (fun r => if r.key = k then f r else r) = tl := by
        conv_rhs => rw [← List.map_id tl]
        refine List.map_congr_left (fun r hr => ?_)
        have hne : r.key ≠ k := fun h => hkeys.1 (by rw [hk, ← h]; exact List.mem_map_of_mem hr)
        rw [if_neg hne]
        rfl
      rw [htl, if_pos hk, if_pos hnew, if_neg (by rw [hold]; exact Bool.false_ne_true)]
    · rw [List.find?_cons_of_neg (by simpa using hk)] at hrow
      rw [ih hkeys.2 hrow, if_neg hk]
      omega

/-- Only a binding is counted, and it logs one event. -/
theorem Effect.taskEvents {op : Op} (h : Effect op w w') (hg : EventGuard op) :
    w'.db.events.countP isTaskCreated + w.db.wf.totalTasks
      = w.db.events.countP isTaskCreated + w'.db.wf.totalTasks := by
  have hother : ∀ {ev : WorkflowEvent} {t : EventType}, ev.type = t → t ≠ .stepTaskCreated →
      isTaskCreated ev = false := by
    intro ev t ht hne
    unfold isTaskCreated
    rw [ht]
    exact decide_eq_false hne
  have hlog : ∀ {db : Db} (new : List WorkflowEvent), db.events = w.db.events ++ new →
      db.wf.totalTasks = w.db.wf.totalTasks → (∀ e ∈ new, isTaskCreated e = false) →
      db.events.countP isTaskCreated + w.db.wf.totalTasks
        = w.db.events.countP isTaskCreated + db.wf.totalTasks := by
    intro db new hev htot hnew
    have hzero : new.countP isTaskCreated = 0 :=
      List.countP_eq_zero.mpr (fun e he => by rw [hnew e he]; exact Bool.false_ne_true)
    rw [hev, List.countP_append, htot, hzero]
    rfl
  have hone : ∀ {ev : WorkflowEvent} {t : EventType}, ev.type = t → t ≠ .stepTaskCreated →
      ∀ e ∈ [ev], isTaskCreated e = false := by
    intro ev t ht hne e he
    rw [List.mem_singleton.mp he]
    exact hother ht hne
  cases h with
  | started _ => exact hlog _ rfl rfl (hone hg nofun)
  | stepStarted _ => exact hlog _ rfl rfl (hone hg nofun)
  | bound _ _ =>
    show (w.db.events ++ [_]).countP _ + _ = _ + (w.db.wf.totalTasks + 1)
    rw [List.countP_append, List.countP_singleton]
    have hev : isTaskCreated _ = true := decide_eq_true hg
    rw [if_pos hev]
    omega
  | completed _ _ => exact hlog _ rfl rfl (hone hg nofun)
  | @advanced _ edgeEv roundEv _ startedEv _ _ =>
    obtain ⟨hedge, hround, hstarted⟩ := hg
    refine hlog (edgeEv :: roundEv.toList ++ [startedEv]) (List.append_assoc _ _ _) rfl ?_
    intro e he
    rcases mem_snoc.mp he with he | rfl
    · rcases List.mem_cons.mp he with rfl | he
      · exact hother hedge nofun
      · exact hother (hround e (Option.mem_toList.mp he)) nofun
    · exact hother hstarted nofun
  | @terminalized _ status edgeEv ev _ _ =>
    obtain ⟨hedge, hkind⟩ := hg
    refine hlog (edgeEv.toList ++ [ev]) (List.append_assoc _ _ _) rfl ?_
    intro e he
    rcases mem_snoc.mp he with he | rfl
    · exact hother (hedge e (Option.mem_toList.mp he)) nofun
    · rcases hkind with ⟨-, hev⟩ | ⟨-, hev⟩ | ⟨-, hev⟩ <;> exact hother hev nofun
  | @stepFailed _ _ stepEv ev _ _ _ _ _ =>
    refine hlog ([stepEv, ev]) (List.append_assoc _ _ _) rfl ?_
    intro e he
    rcases List.mem_cons.mp he with rfl | he
    · exact hother hg.1 nofun
    · exact hone hg.2 nofun e he
  | stepFailedLate _ _ _ => exact hlog _ rfl rfl (hone hg.1 nofun)
  | failedOnly _ _ _ => exact hlog _ rfl rfl (hone hg.2 nofun)
  | @cancelled _ k _ _ _ => cases k <;> exact hlog _ rfl rfl (hone hg nofun)
  | askedPaused _ _ _ => exact hlog _ rfl rfl (hone hg nofun)
  | paused _ => exact hlog _ rfl rfl (hone hg nofun)
  | rejected _ _ _ => exact hlog _ rfl rfl (hone hg nofun)
  | resumed _ => exact hlog _ rfl rfl (hone hg nofun)
  | _ => rfl

/-- A write of the pump's own data keeps the count of bound rows, within the limit. -/
theorem OwnedStep.counted {op : Op} {O' : Owned} (hj : Justified cfg op w)
    (hs : OwnedStep op (owned w.db) O') (hkeys : ((owned w.db).steps.map StepRow.key).Nodup)
    (hrows : (owned w.db).totalTasks = (owned w.db).steps.countP isBoundRow)
    (hlimit : (owned w.db).totalTasks ≤ cfg.spec.limits.maxTasks) :
    O'.totalTasks = O'.steps.countP isBoundRow ∧ O'.totalTasks ≤ cfg.spec.limits.maxTasks := by
  have hfresh : ∀ k, ((owned w.db).steps ++ [StepRow.fresh k]).countP isBoundRow
      = (owned w.db).steps.countP isBoundRow := by
    intro k
    rw [List.countP_append]
    rfl
  generalize hO : owned w.db = O at hs hkeys hrows hlimit hfresh
  cases hs with
  | same => exact ⟨hrows, hlimit⟩
  | @started k ev _ hnone => exact ⟨hrows.trans (hfresh k).symm, hlimit⟩
  | @bound k taskId ev _ row hrow hfree =>
    obtain ⟨-, hroom, -⟩ := hj
    have hroom : O.totalTasks < cfg.spec.limits.maxTasks := hO ▸ hroom
    refine ⟨?_, hroom⟩
    show O.totalTasks + 1 = (O.steps.map _).countP isBoundRow
    rw [countP_change hkeys hrow (by unfold isBoundRow; rw [hfree]; rfl) rfl, hrows]
  | @completed k output context ev _ row hrow hlive =>
    refine ⟨hrows.trans ?_, hlimit⟩
    show O.steps.countP _ = (O.steps.map _).countP _
    rw [List.countP_map]
    refine List.countP_congr (fun r _ => ?_)
    show isBoundRow r = true ↔ isBoundRow (if r.key = k then _ else r) = true
    split <;> exact Iff.rfl
  | @advanced _ _ next _ _ hnone => exact ⟨hrows.trans (hfresh next).symm, hlimit⟩
  | stalled _ => exact ⟨hrows, hlimit⟩

theorem Counted.call {op : Op} (h : Counted cfg w) (hi : CoreInv cfg w)
    (hg : Justified cfg op w ∨ ApiGuard cfg op w) (heff : Effect op w w') : Counted cfg w' := by
  have hs := heff.owned hi.keys
  have hkeys : ((owned w.db).steps.map StepRow.key).Nodup := by
    rw [owned_keys]
    exact hi.keys
  have hcount : (owned w'.db).totalTasks = (owned w'.db).steps.countP isBoundRow ∧
      (owned w'.db).totalTasks ≤ cfg.spec.limits.maxTasks := by
    rcases hg with hj | hg
    · exact hs.counted hj hkeys h.rows h.limit
    · rw [ApiGuard.owned hg hs]
      exact ⟨h.rows, h.limit⟩
  have hev := heff.taskEvents (nextOp_events hg)
  refine ⟨hcount.1, ?_, hcount.2⟩
  have := h.events
  omega

/-- **A bound task stays bound.** -/
theorem OwnedStep.bound_stays {op : Op} {O O' : Owned} (hs : OwnedStep op O O') {k : StepKey}
    {id : String} (h : ∃ r, O.step? k = some r ∧ r.taskId = some id) :
    ∃ r, O'.step? k = some r ∧ r.taskId = some id := by
  obtain ⟨r, hr, hid⟩ := h
  have hadd : ∀ row, (O.steps ++ [row]).find? (fun r => r.key = k) = some r := by
    intro row
    have hr : O.steps.find? (fun r => r.key = k) = some r := hr
    rw [List.find?_append, hr]
    rfl
  cases hs with
  | same => exact ⟨r, hr, hid⟩
  | started _ => exact ⟨r, hadd _, hid⟩
  | @bound k' taskId ev _ row hrow hfree =>
    refine ⟨r, ?_, hid⟩
    have hset := O.step?_setStep k' k (f := fun r => { r with taskId := some taskId }) (fun _ => rfl)
    refine Eq.trans hset ?_
    rw [hr, Option.map_some]
    split
    · -- the row just bound had no task
      rename_i hk
      rw [← hk, (Owned.step?_mem hr).2, hr] at hrow
      cases hrow
      rw [hfree] at hid
      exact nomatch hid
    · rfl
  | @completed k' output context ev _ row hrow hlive =>
    have hset := O.step?_setStep k' k
      (f := fun r => { r with status := .completed, output := some output }) (fun _ => rfl)
    refine ⟨_, hset.trans (by rw [hr, Option.map_some]), ?_⟩
    split <;> exact hid
  | advanced _ => exact ⟨r, hadd _, hid⟩
  | stalled _ => exact ⟨r, hr, hid⟩

end

/-! ## Runs -/

theorem TasksMove.requests {w : World} {a : Action} {tasks : List AgentTask} (h : TasksMove w a tasks)
    (hreq : (w.tasks.map AgentTask.request).Nodup) : (tasks.map AgentTask.request).Nodup := by
  cases h with
  | same => exact hreq
  | arrived _ _ hnew => exact nodup_snoc hreq hnew
  | @finished id status _ =>
    have heq : (w.finish id status).tasks.map AgentTask.request = w.tasks.map AgentTask.request := by
      show (w.tasks.map _).map AgentTask.request = _
      rw [List.map_map]
      refine List.map_congr_left (fun t _ => ?_)
      show (if t.id = id ∧ t.status = .running then { t with status := status } else t).request = _
      split <;> rfl
    rw [heq]
    exact hreq

/-- A request made after a move of the environment was made before it, or is being made. -/
theorem EnvMove.issued {cfg : Config} {s : Sys} {a : Action} {w' : World} (hm : EnvMove cfg s a w')
    {req : AgentTaskCreateRequest} (h : Issued w' req) :
    Issued s.w req ∨ Justified cfg (.createTask req) s.w := by
  rcases h with ⟨t, ht, rfl⟩ | h
  · have htasks := hm.tasks
    left
    generalize w'.tasks = tasks at htasks ht
    cases htasks with
    | same => exact Or.inl ⟨t, ht, rfl⟩
    | @arrived req id hreq _ _ =>
      rcases mem_snoc.mp ht with ht | rfl
      · exact Or.inl ⟨t, ht, rfl⟩
      · exact Or.inr hreq
    | finished _ =>
      obtain ⟨t₀, ht₀, rfl⟩ := List.mem_map.mp ht
      refine Or.inl ⟨t₀, ht₀, ?_⟩
      split <;> rfl
  · exact (hm.inFlight req h).imp Or.inr id

/-- The invariant of the requests. -/
structure OnceInv (cfg : Config) (w : World) : Prop where
  issued : OneRequest cfg w (Issued w)
  requests : (w.tasks.map AgentTask.request).Nodup
  counted : Counted cfg w

/-- A move of the environment writes nothing a request is computed from. -/
theorem OneRequest.env {cfg : Config} {s : Sys} {a : Action} {w' : World}
    {I : AgentTaskCreateRequest → Prop} (h : OneRequest cfg s.w I) (hm : EnvMove cfg s a w') :
    OneRequest cfg w' I := by
  have hreq : ∀ k, requestOf cfg w' k = requestOf cfg s.w k := by
    intro k
    unfold requestOf scopeAt
    rw [hm.db]
  refine ⟨h.unique, by rw [hm.db]; exact h.row, ?_⟩
  unfold PauseOk
  simp only [hreq, hm.db]
  exact h.current

/-- **One step keeps any set of requests**, one a key. -/
theorem oneRequest_move {cfg : Config} {s : Sys} {a : Action} {w' : World}
    {I : AgentTaskCreateRequest → Prop} (hv : ValidSpec cfg.rawSpec) (hinv : SysInv cfg s)
    (hinv' : CoreInv cfg w') (hm : Move cfg s a w') (h : OneRequest cfg s.w I) :
    OneRequest cfg w' I := by
  rcases hm.call_or_env with ⟨_, _, op, r, -, hop, hg, hex⟩ | henv
  · exact h.call hv hinv.core hinv' hg (exec_effect hex)
  · exact h.env henv

theorem onceInv_move {cfg : Config} {s : Sys} {a : Action} {w' : World} (hv : ValidSpec cfg.rawSpec)
    (hinv : SysInv cfg s) (hinv' : CoreInv cfg w') (hm : Move cfg s a w') (h : OnceInv cfg s.w) :
    OnceInv cfg w' := by
  have hone := oneRequest_move hv hinv hinv' hm h.issued.issue
  rcases hm.call_or_env with ⟨_, _, op, r, -, hop, hg, hex⟩ | henv
  · have heff := exec_effect hex
    refine ⟨?_, heff.requests h.requests, h.counted.call hinv.core hg heff⟩
    refine hone.subset ?_
    intro req hr
    refine (heff.issued hr).imp id ?_
    rintro rfl
    exact hg.elim id (fun hg => absurd hg id)
  · refine ⟨hone.subset (fun req hr => henv.issued hr), henv.tasks.requests h.requests, ?_⟩
    obtain ⟨h1, h2, h3⟩ := h.counted
    exact ⟨by rw [henv.db]; exact h1, by rw [henv.db]; exact h2, by rw [henv.db]; exact h3⟩

theorem reach_once {cfg : Config} {ok : Sys → Action → Prop} {s : Sys} (hv : ValidSpec cfg.rawSpec)
    (h : Reach cfg ok s) : OnceInv cfg s.w := by
  induction h with
  | start =>
    refine ⟨⟨?_, ?_, ?_⟩, List.nodup_nil, rfl, rfl, Nat.zero_le _⟩
    · rintro req req' (⟨t, ht, -⟩ | hr)
      · exact absurd ht List.not_mem_nil
      · exact absurd hr List.not_mem_nil
    · rintro req (⟨t, ht, -⟩ | hr)
      · exact absurd ht List.not_mem_nil
      · exact absurd hr List.not_mem_nil
    · rintro req row (⟨t, ht, -⟩ | hr)
      · exact absurd ht List.not_mem_nil
      · exact absurd hr List.not_mem_nil
  | @step s s' a hr _ hs ih =>
    have hinv := reach_inv hr
    obtain ⟨hinv', hm⟩ := step_move hinv hs
    exact onceInv_move hv hinv hinv'.core hm ih

/-- The row of an execution keeps its task from one state to a later one. -/
theorem bound_task_stays {cfg : Config} {s s' : Sys} (h : Reach cfg anyStep s)
    (hsteps : Steps cfg anyStep s s') {k : StepKey} {r : StepRow} {id : String}
    (hr : s.w.db.step? k = some r) (hid : r.taskId = some id) :
    ∃ r', s'.w.db.step? k = some r' ∧ r'.taskId = some id := by
  have hstay : ∃ r', (owned s'.w.db).step? k = some r' ∧ r'.taskId = some id := by
    refine steps_world (P := fun w => ∃ r', (owned w.db).step? k = some r' ∧ r'.taskId = some id)
      ?_ hsteps h ⟨_, owned_step?_some hr, hid⟩
    intro s₁ a w' hinv _ hm hP
    rcases hm.call_or_env with ⟨_, _, op, _, -, -, -, hex⟩ | henv
    · exact ((exec_effect hex).owned hinv.core.keys).bound_stays hP
    · rw [henv.db]
      exact hP
  obtain ⟨r', hr', hid'⟩ := hstay
  rw [owned_step?] at hr'
  obtain ⟨r₀, hr₀, rfl⟩ := Option.map_eq_some_iff.mp hr'
  exact ⟨r₀, hr₀, hid'⟩

/-- **Exactly once, whatever crashes**: in every run of a valid workflow an execution has one row
    and at most one task, each task belongs to an execution, a bound task is never replaced, and
    the task count is the number of bound rows and of `step.task_created` events, within the
    limit. -/
theorem tasks_exactly_once {cfg : Config} {spec : WorkflowSpec} (hload : cfg.loaded = some spec)
    {s : Sys} (h : Reach cfg anyStep s) :
    (s.w.db.steps.map StepRow.key).Nodup ∧
    (∀ t ∈ s.w.tasks, ∃ r ∈ s.w.db.steps, t.request.idempotencyKey = cfg.sec r.key) ∧
    (∀ k, ∀ t ∈ s.w.tasks, ∀ t' ∈ s.w.tasks, t.request.idempotencyKey = cfg.sec k →
      t'.request.idempotencyKey = cfg.sec k → t = t') ∧
    (∀ s', Steps cfg anyStep s s' → ∀ k r id, s.w.db.step? k = some r → r.taskId = some id →
      ∃ r', s'.w.db.step? k = some r' ∧ r'.taskId = some id) ∧
    s.w.db.wf.totalTasks = s.w.db.steps.countP (fun r => r.taskId.isSome) ∧
    s.w.db.wf.totalTasks = s.w.db.events.countP (fun e => decide (e.type = .stepTaskCreated)) ∧
    s.w.db.wf.totalTasks ≤ cfg.spec.limits.maxTasks := by
  have honce := reach_once (loaded_spec hload).1 h
  refine ⟨(reach_inv h).core.keys, ?_, ?_, ?_, ?_, honce.counted.events, honce.counted.limit⟩
  · intro t ht
    obtain ⟨r, hr, -, hkey⟩ := honce.issued.row t.request (Or.inl ⟨t, ht, rfl⟩)
    obtain ⟨r₀, hr₀, rfl⟩ := List.mem_map.mp hr
    exact ⟨r₀, hr₀, hkey⟩
  · intro k t ht t' ht' hk hk'
    have hreq : t.request = t'.request := honce.issued.unique t.request t'.request
      (Or.inl ⟨t, ht, rfl⟩) (Or.inl ⟨t', ht', rfl⟩) (hk.trans hk'.symm)
    exact List.inj_on_of_nodup_map honce.requests ht ht' hreq
  · intro s' hsteps k r id hr hid
    exact bound_task_stays h hsteps hr hid
  · rw [honce.counted.rows]
    show (s.w.db.steps.map maskRow).countP isBoundRow = _
    rw [List.countP_map]
    rfl

/-- A run of the one-step workflow that crashes with its create request out, and creates it again. -/
theorem recreated_once : ∃ s, Reach oneStep anyStep s ∧ s.w.tasks.length = 1 ∧
    s.w.db.wf.totalTasks = s.w.db.steps.countP (fun r => r.taskId.isSome) ∧
    s.w.db.wf.totalTasks = 1 := by
  obtain ⟨s, hs, hP⟩ := reach_exists oneStep anyStep (fun _ _ => true) (fun _ _ _ => trivial)
    (startActions ++ renderActions ++ recoverActions ++ [.wake (.call 0), .leave 0, .unfold .pump] ++
      renderActions.drop 3 ++ bindActions)
    (fun s => decide (s.w.tasks.length = 1 ∧ s.w.db.wf.totalTasks = 1))
    (by decide +kernel)
  obtain ⟨htasks, htotal⟩ := of_decide_eq_true hP
  exact ⟨s, hs, htasks, (tasks_exactly_once rfl hs).2.2.2.2.1, htotal⟩

end VibeRuntime
