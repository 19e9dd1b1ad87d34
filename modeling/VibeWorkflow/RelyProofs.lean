import VibeWorkflow.GuardProofs

/-!
# Every step keeps what the others rely on

Each effect of a call takes nothing back (`Effect.mono`), and outside the few writes only the
pump makes it also leaves what a suspended pump relies on (`Effect.rely`); the moves of the
environment do so too.

* **`Effect.mono`** — no call takes anything back.
* **`Effect.rely`** — calls that leave the pump's data alone.
* **`Effect.core`** — guarded calls keep the core invariant.
-/

namespace VibeRuntime

open VibeJson VibeContract VibeRouting VibeTemplate VibeValidator VibeStore VibeAdmission VibeControl
open AsyncLogic

/-! ## Rows -/

theorem Db.mem_setStep {db : Db} {k : StepKey} {f : StepRow → StepRow} {r : StepRow} :
    r ∈ (db.setStep k f).steps ↔ ∃ r₀ ∈ db.steps, (if r₀.key = k then f r₀ else r₀) = r := by
  show r ∈ db.steps.map _ ↔ _
  rw [List.mem_map]

/-- Rows of distinct keys are found by their keys. -/
theorem step?_of_mem_steps {db : Db} (hkeys : (db.steps.map StepRow.key).Nodup) {r : StepRow}
    (hr : r ∈ db.steps) : db.step? r.key = some r := by
  unfold Db.step?
  generalize db.steps = rows at hkeys hr
  induction rows with
  | nil => exact nomatch hr
  | cons hd tl ih =>
    rw [List.map_cons, List.nodup_cons] at hkeys
    rw [List.find?_cons]
    rcases List.mem_cons.mp hr with rfl | hmem
    · simp
    · have hne : hd.key ≠ r.key := fun h => hkeys.1 (h ▸ List.mem_map_of_mem hmem)
      simp only [hne, decide_false]
      exact ih hkeys.2 hmem

/-- Keys survive a change of rows. -/
theorem keys_setStep (db : Db) (k : StepKey) {f : StepRow → StepRow} (hf : ∀ r, (f r).key = r.key) :
    (db.setStep k f).steps.map StepRow.key = db.steps.map StepRow.key := by
  show (db.steps.map _).map StepRow.key = _
  rw [List.map_map]
  refine List.map_congr_left (fun r _ => ?_)
  show (if r.key = k then f r else r).key = r.key
  split
  · exact hf r
  · rfl

theorem keys_concat {db : Db} {k : StepKey} (hkeys : (db.steps.map StepRow.key).Nodup)
    (h : db.step? k = none) : ((db.steps ++ [StepRow.fresh k]).map StepRow.key).Nodup := by
  refine nodup_snoc hkeys (fun r hr hk => ?_)
  exact List.find?_eq_none.mp h r hr (decide_eq_true hk)

/-! ## Nothing is taken back -/

/-- The store's part of `Mono`. -/
structure DbMono (db db' : Db) : Prop where
  terminal : db.isTerminal = true → db'.wf.status = db.wf.status
  started : ∀ t, db.wf.startedAt = some t → db'.wf.startedAt = some t
  awaited : ∀ k r t, db.step? k = some r → r.resultAwaitedSince = some t →
    ∃ r', db'.step? k = some r' ∧ r'.resultAwaitedSince = some t
  human : ∀ id h, db.human? id = some h → h.status ≠ .pending → db'.human? id = some h

/-- The same row, the same executions and no response lost. -/
theorem DbMono.of_eq {db db' : Db} (hwf : db'.wf = db.wf) (hsteps : db'.steps = db.steps)
    (hhuman : ∀ id h, db.human? id = some h → h.status ≠ .pending → db'.human? id = some h) :
    DbMono db db' where
  terminal := fun _ => by rw [hwf]
  started := fun _ h => by rw [hwf]; exact h
  awaited := fun k r _ hr ht => ⟨r, by unfold Db.step? at hr ⊢; rw [hsteps]; exact hr, ht⟩
  human := hhuman

/-- A change of status of a workflow that has not ended. -/
theorem DbMono.status {db db₁ : Db} {status : WorkflowStatus} {ev : WorkflowEvent}
    (h : DbMono db db₁) (hlive : db.isTerminal = false) : DbMono db (setStatus db₁ status ev) where
  terminal := fun hend => absurd (hlive.symm.trans hend) Bool.false_ne_true
  started := h.started
  awaited := h.awaited
  human := h.human

/-- A change of the workflow row that is none of its status. -/
theorem DbMono.setWf {db db₁ : Db} {g : WorkflowRow → WorkflowRow} (h : DbMono db db₁)
    (hs : (g db₁.wf).status = db₁.wf.status) (ht : (g db₁.wf).startedAt = db₁.wf.startedAt) :
    DbMono db (db₁.setWf g) where
  terminal := fun hend => hs.trans (h.terminal hend)
  started := fun t hst => ht.trans (h.started t hst)
  awaited := h.awaited
  human := h.human

theorem DbMono.append {db db₁ : Db} {ev : WorkflowEvent} (h : DbMono db db₁) :
    DbMono db (db₁.append ev) :=
  ⟨h.terminal, h.started, h.awaited, h.human⟩

theorem DbMono.setStep {db : Db} {k : StepKey} {f : StepRow → StepRow}
    (hkey : ∀ r, (f r).key = r.key)
    (haw : ∀ r, db.step? k = some r → ∀ t, r.resultAwaitedSince = some t →
      (f r).resultAwaitedSince = some t) : DbMono db (db.setStep k f) where
  terminal := fun _ => rfl
  started := fun _ h => h
  awaited := by
    intro k' r t hr ht
    rw [Db.step?_setStep _ _ _ hkey, hr]
    refine ⟨_, rfl, ?_⟩
    have hrk := Db.step?_key hr
    show (if r.key = k then f r else r).resultAwaitedSince = some t
    split
    · rename_i hk
      refine haw r ?_ t ht
      rw [← hk, hrk]
      exact hr
    · exact ht
  human := fun _ _ h _ => h

theorem DbMono.concat {db db' : Db} {row : StepRow} (hsteps : db'.steps = db.steps ++ [row])
    (hs : db'.wf.status = db.wf.status) (ht : db'.wf.startedAt = db.wf.startedAt)
    (hh : db'.human = db.human) : DbMono db db' where
  terminal := fun _ => hs
  started := fun t h => ht.trans h
  awaited := by
    intro k r t hr hat
    refine ⟨r, ?_, hat⟩
    rw [Db.step?_concat hsteps, hr]
    rfl
  human := fun id h hid _ => by unfold Db.human? at hid ⊢; rw [hh]; exact hid

/-- Only a pending request may change. -/
theorem DbMono.setHuman {db : Db} {id : String} {f : HumanRequestRow → HumanRequestRow}
    (hid : ∀ h, (f h).requestId = h.requestId)
    (hf : ∀ h, db.human? id = some h → h.status ≠ .pending → f h = h) :
    DbMono db (db.setHuman id f) := by
  refine .of_eq rfl rfl ?_
  intro id' h hh hp
  rw [Db.human?_setHuman _ _ _ hid, hh]
  show some (if h.requestId = id then f h else h) = some h
  have hreq := (Db.human?_mem hh).2
  split
  · rename_i heq
    rw [hf h (by rw [← heq, hreq]; exact hh) hp]
  · rfl

theorem DbMono.ask (db : Db) (new : HumanRequestRow) :
    DbMono db { db with human := db.human ++ [new] } := by
  refine .of_eq rfl rfl ?_
  intro id h hh _
  show (db.human ++ [new]).find? _ = some h
  have hh : db.human.find? (fun h => h.requestId = id) = some h := hh
  rw [List.find?_append, hh]
  rfl

section

variable {w : World}

theorem Mono.write {db : Db} (h : DbMono w.db db) : Mono w (w.write db) where
  cancel := id
  terminal := h.terminal
  accepted := List.Subset.refl _
  failed := List.Subset.refl _
  log := List.Subset.refl _
  tasks := fun t ht => ⟨t, ht, rfl, rfl, fun _ => rfl⟩
  started := h.started
  awaited := fun t ⟨k, r, hr, ht⟩ => let ⟨r', hr', ht'⟩ := h.awaited k r t hr ht; ⟨k, r', hr', ht'⟩
  human := h.human
  now := Nat.le_refl _

theorem Mono.restart {db : Db} (h : DbMono w.db db) : Mono w (w.restart db) := { Mono.write h with }

/-- Worlds with the same rows and no less history. -/
theorem Mono.of_db {w' : World} (hdb : w'.db = w.db) (hcancel : CancelReason w → CancelReason w')
    (hacc : w.cancelAccepted ⊆ w'.cancelAccepted) (hfail : w.cancelFailed ⊆ w'.cancelFailed)
    (hlog : w.log ⊆ w'.log)
    (htasks : ∀ t ∈ w.tasks, ∃ t' ∈ w'.tasks, t'.id = t.id ∧ t'.request = t.request ∧
      (t.status.isTerminal = true → t'.status = t.status)) (hnow : w.now ≤ w'.now) : Mono w w' where
  cancel := hcancel
  terminal := fun _ => by rw [hdb]
  accepted := hacc
  failed := hfail
  log := hlog
  tasks := htasks
  started := fun t h => by rw [hdb]; exact h
  awaited := fun t ⟨k, r, hr, ht⟩ => ⟨k, r, by rw [hdb]; exact hr, ht⟩
  human := fun _ _ hh _ => by rw [hdb]; exact hh
  now := hnow

theorem sameTasks (w : World) : ∀ t ∈ w.tasks, ∃ t' ∈ w.tasks, t'.id = t.id ∧ t'.request = t.request ∧
    (t.status.isTerminal = true → t'.status = t.status) :=
  fun t ht => ⟨t, ht, rfl, rfl, fun _ => rfl⟩

theorem moreTasks {tasks : List AgentTask} (w : World) :
    ∀ t ∈ w.tasks, ∃ t' ∈ w.tasks ++ tasks, t'.id = t.id ∧ t'.request = t.request ∧
      (t.status.isTerminal = true → t'.status = t.status) :=
  fun t ht => ⟨t, List.mem_append_left _ ht, rfl, rfl, fun _ => rfl⟩

theorem Mono.note (w : World) (a : EnvAnswer) : Mono w (w.note a) :=
  .of_db rfl id (List.Subset.refl _) (List.Subset.refl _) (List.subset_append_left _ _)
    (sameTasks w) (Nat.le_refl _)

theorem isTerminalStatus_eq {w : World} {s : WorkflowStatus} (h : w.db.wf.status = s)
    (hs : isTerminalWorkflowStatus s = false) : w.db.isTerminal = false := by
  unfold Db.isTerminal
  rw [h]
  exact hs

theorem DbMono.failRow {db : Db} (k : StepKey) (stepEv : WorkflowEvent) (error : Json) :
    DbMono db (failRow db k stepEv error) := by
  refine .append (.setWf (.setStep ?_ ?_) rfl rfl)
  · exact fun _ => rfl
  · exact fun _ _ _ ht => ht

theorem DbMono.cancelNamed (db : Db) (k : Option StepKey) : DbMono db (cancelNamed db k) := by
  cases k with
  | none => exact .of_eq rfl rfl (fun _ _ h _ => h)
  | some k =>
    refine .setStep ?_ ?_
    · intro r
      split <;> rfl
    · intro r _ t ht
      split <;> exact ht

theorem sameHuman {db : Db} : ∀ id h, db.human? id = some h → h.status ≠ .pending →
    db.human? id = some h :=
  fun _ _ hh _ => hh

/-- Only the pending request that was found is changed. -/
theorem pending_only {db : Db} {id : String} {h : HumanRequestRow} {f : HumanRequestRow → HumanRequestRow}
    (hh : db.human? id = some h) (hp : h.status = .pending) :
    ∀ h', db.human? id = some h' → h'.status ≠ .pending → f h' = h' := by
  intro h' hh' hne
  obtain rfl := Option.some.inj (hh.symm.trans hh')
  exact absurd hp hne

/-- Rejecting again changes nothing. -/
theorem rejected_again {db : Db} {id : String} {h : HumanRequestRow} (hh : db.human? id = some h)
    (hp : h.status = .pending ∨ h.status = .rejected) : ∀ h', db.human? id = some h' →
      h'.status ≠ .pending → { h' with status := .rejected } = h' := by
  intro h' hh' hne
  obtain rfl := Option.some.inj (hh.symm.trans hh')
  rcases hp with hp | hp
  · exact absurd hp hne
  · rw [← hp]

/-- **No call takes anything back.** -/
theorem Effect.mono {op : Op} {w w' : World} (h : Effect op w w') : Mono w w' := by
  cases h with
  | same => exact Mono.refl w
  | noted ha => exact .note w _
  | looked =>
    exact .of_db rfl id (List.Subset.refl _) (List.Subset.refl _) (List.Subset.refl _)
      (sameTasks w) (Nat.le_refl _)
  | started hready =>
    refine .restart ⟨?_, ?_, fun _ r _ hr ht => ⟨r, hr, ht⟩, fun _ _ h _ => h⟩
    · intro ht
      rw [isTerminalStatus_eq hready rfl] at ht
      exact nomatch ht
    · intro t ht
      show some (w.db.wf.startedAt.getD w.now) = some t
      rw [ht]
      rfl
  | stepStarted hnone => exact .write (.concat rfl rfl rfl rfl)
  | bound hrow hfree =>
    refine .write (.append (.setWf (.setStep ?_ ?_) rfl rfl))
    · exact fun _ => rfl
    · exact fun _ _ _ ht => ht
  | completed hrow hlive =>
    refine .write (.append (.setWf (.setStep ?_ ?_) rfl rfl))
    · exact fun _ => rfl
    · exact fun _ _ _ ht => ht
  | advanced hnone hround => exact .write (.concat rfl rfl rfl rfl)
  | terminalized hne hlive => exact .write (.status (.of_eq rfl rfl sameHuman) hlive)
  | stepFailed hrow hr hlive => exact .write (.status (.failRow _ _ _) hlive)
  | stepFailedLate hrow hr hend => exact .write (.failRow _ _ _)
  | failedOnly hrow hr hlive => exact .write (.status (.of_eq rfl rfl sameHuman) hlive)
  | intended hreq hlive => exact .write (.setWf (.of_eq rfl rfl sameHuman) rfl rfl)
  | cancelled hlive => exact .write (.status (.cancelNamed _ _) hlive)
  | asked hh hrow hrun => exact .write (.ask _ _)
  | askedPaused hh hrow hrun =>
    exact .write (.status (.ask _ _) (isTerminalStatus_eq hrun rfl))
  | paused hrun => exact .write (.status (.of_eq rfl rfl sameHuman) (isTerminalStatus_eq hrun rfl))
  | answered hh hp => exact .write (.setHuman (fun _ => rfl) (pending_only hh hp))
  | approved hh hp => exact .write (.setHuman (fun _ => rfl) (pending_only hh hp))
  | rejected hh hp hlive => exact .write (.status (.setHuman (fun _ => rfl) (rejected_again hh hp)) hlive)
  | rejectedLate hh hp hend => exact .write (.setHuman (fun _ => rfl) (rejected_again hh hp))
  | resumed hs =>
    refine .restart (.status (.of_eq rfl rfl sameHuman) ?_)
    rcases hs with hs | hs
    · exact isTerminalStatus_eq hs rfl
    · exact isTerminalStatus_eq hs rfl
  | evidenced => exact .write (.of_eq rfl rfl sameHuman)
  | stalled hnew => exact .write (.of_eq rfl rfl sameHuman)
  | awaited hrow =>
    refine .write (.setStep (fun _ => rfl) ?_)
    intro r hr t ht
    rw [hrow] at hr
    cases hr
    show some (_ : Nat) = some t
    rw [ht]
    rfl
  | revisedBefore => exact .write (.setStep (fun _ => rfl) (fun _ _ _ ht => ht))
  | revisedAfter => exact .write (.setStep (fun _ => rfl) (fun _ _ _ ht => ht))
  | created hreq hid =>
    exact .of_db rfl id (List.Subset.refl _) (List.Subset.refl _) (List.Subset.refl _)
      (moreTasks w) (Nat.le_refl _)
  | lost =>
    exact .of_db rfl id (List.Subset.refl _) (List.Subset.refl _) (List.Subset.refl _)
      (sameTasks w) (Nat.le_refl _)
  | createRefused =>
    exact .of_db rfl id (List.Subset.refl _) (List.Subset.refl _) (List.subset_append_left _ _)
      (sameTasks w) (Nat.le_refl _)
  | cancelSent =>
    exact .of_db rfl id (List.subset_append_left _ _) (List.Subset.refl _) (List.Subset.refl _)
      (sameTasks w) (Nat.le_refl _)
  | cancelLost =>
    exact .of_db rfl id (List.Subset.refl _) (List.subset_append_left _ _) (List.Subset.refl _)
      (sameTasks w) (Nat.le_refl _)
  | pumped hlive =>
    exact .of_db rfl id (List.Subset.refl _) (List.Subset.refl _) (List.Subset.refl _)
      (sameTasks w) (Nat.le_refl _)
  | abort =>
    exact .of_db rfl id (List.Subset.refl _) (List.Subset.refl _) (List.Subset.refl _)
      (sameTasks w) (Nat.le_refl _)

end

/-! ## What a suspended pump relies on -/

/-- The store's part of `Rely`. -/
structure DbRely (db db' : Db) : Prop where
  owned : owned db' = owned db
  noHuman : ∀ id, db.human? id = none → db'.human? id = none

theorem DbRely.of_owned {db db' : Db} (howned : VibeRuntime.owned db' = VibeRuntime.owned db)
    (hhuman : db'.human = db.human) :
    DbRely db db' where
  owned := howned
  noHuman := fun _ hh => by unfold Db.human? at hh ⊢; rw [hhuman]; exact hh

/-- Rows that change only where the pump does not look. -/
theorem owned_setStep (db : Db) (k : StepKey) {f : StepRow → StepRow}
    (hf : ∀ r, maskRow (f r) = maskRow r) : owned (db.setStep k f) = owned db := by
  have hsteps : (db.setStep k f).steps.map maskRow = db.steps.map maskRow := by
    show (db.steps.map _).map maskRow = _
    rw [List.map_map]
    refine List.map_congr_left (fun r _ => ?_)
    show maskRow (if r.key = k then f r else r) = maskRow r
    split
    · exact hf r
    · rfl
  simp only [owned, Db.setStep_wf, Db.setStep_stall, hsteps]

theorem mask_cancelled (r : StepRow) : maskRow (if isTerminalStepStatus r.status then r
    else { r with status := .cancelled }) = maskRow r := by
  split
  · rfl
  · rename_i h
    have hne : r.status ≠ .completed := by
      intro hc
      rw [hc] at h
      exact h rfl
    simp [maskRow, hne]

theorem owned_cancelNamed (db : Db) (k : Option StepKey) : owned (cancelNamed db k) = owned db := by
  cases k with
  | none => rfl
  | some k => exact owned_setStep db k mask_cancelled

/-- Requests that change stay where they are. -/
theorem DbRely.setHuman (db : Db) (id : String) {f : HumanRequestRow → HumanRequestRow}
    (hid : ∀ h, (f h).requestId = h.requestId) : DbRely db (db.setHuman id f) where
  owned := rfl
  noHuman := by
    intro id' hh
    rw [Db.human?_setHuman _ _ _ hid, hh]
    rfl

/-- Calls that leave the pump's data alone. -/
def Op.keeps : Op → Bool
  | .getWorkflow .driveHead | .ensureStepStarted _ _ | .bindStepTaskOnce _ _ _
  | .completeStep _ _ _ _ _ | .advance _ _ _ _ | .terminalize _ _ _ | .failStepAndWorkflow _ _ _ _
  | .pause _ _ _ _ | .recordStall _ _ _ => false
  | _ => true

/-- Calls that may put the row back to `running` or register a pump. -/
def Op.wakes : Op → Bool
  | .startDurably _ | .resume _ | .ensurePump => true
  | _ => false

section

variable {w : World}

theorem Rely.write {db : Db} (hm : Mono w (w.write db)) (h : DbRely w.db db)
    (hs : w.db.wf.status ≠ .running → db.wf.status ≠ .running) : Rely w (w.write db) where
  toMono := hm
  owned := h.owned
  noHuman := h.noHuman
  notRunning := fun hne => Or.inl (hs hne)
  restarted := id
  stopped := id

/-- With a live pump, a write that puts the row back to `running` is recorded. -/
theorem Rely.restart {db : Db} (hm : Mono w (w.restart db)) (h : DbRely w.db db)
    (hlive : w.pumpLive = true) : Rely w (w.restart db) where
  toMono := hm
  owned := h.owned
  noHuman := h.noHuman
  notRunning := by
    intro hne
    by_cases hs : db.wf.status = .running
    · refine Or.inr ?_
      show (w.restarted || (w.pumpLive && decide (w.db.wf.status ≠ .running)
        && decide (db.wf.status = .running))) = true
      simp [hlive, hne, hs]
    · exact Or.inl hs
  restarted := by
    intro hr
    show (w.restarted || _) = true
    rw [hr]
    rfl
  stopped := id

/-- Worlds with the same rows. -/
theorem Rely.of_db {w' : World} (hm : Mono w w') (hdb : w'.db = w.db)
    (hr : w.restarted = true → w'.restarted = true) (hs : w.stopped = true → w'.stopped = true) :
    Rely w w' where
  toMono := hm
  owned := by rw [hdb]
  noHuman := fun _ hh => by rw [hdb]; exact hh
  notRunning := fun hne => Or.inl (by rw [hdb]; exact hne)
  restarted := hr
  stopped := hs

/-- **Calls that leave the pump's data alone** are what it relies on. -/
theorem Effect.rely {op : Op} {w w' : World} (h : Effect op w w') (hk : op.keeps = true)
    (hlive : op.wakes = true → w.pumpLive = true) : Rely w w' := by
  have hm := h.mono
  cases h with
  | same => exact Rely.refl w
  | noted ha => exact .of_db hm rfl id id
  | looked => exact nomatch hk
  | started hready => exact .restart hm (.of_owned rfl rfl) (hlive rfl)
  | stepStarted hnone => exact nomatch hk
  | bound hrow hfree => exact nomatch hk
  | completed hrow hr => exact nomatch hk
  | advanced hnone hround => exact nomatch hk
  | terminalized hne hend => exact nomatch hk
  | stepFailed hrow hr hend => exact nomatch hk
  | stepFailedLate hrow hr hend => exact nomatch hk
  | failedOnly hrow hr hend => exact nomatch hk
  | intended hreq hend => exact .write hm (.of_owned rfl rfl) id
  | @cancelled _ k _ _ hend =>
    refine .write hm (.of_owned ?_ ?_) (fun _ => nofun)
    · exact owned_cancelNamed w.db k
    · cases k <;> rfl
  | asked hh hrow hrun => exact nomatch hk
  | askedPaused hh hrow hrun => exact nomatch hk
  | paused hrun => exact nomatch hk
  | answered hh hp => exact .write hm (.setHuman _ _ (fun _ => rfl)) id
  | approved hh hp => exact .write hm (.setHuman _ _ (fun _ => rfl)) id
  | @rejected _ id _ _ hh hp hend =>
    have hrej : DbRely w.db (w.db.setHuman id fun h => { h with status := .rejected }) :=
      .setHuman _ _ (fun _ => rfl)
    exact .write hm ⟨hrej.owned, hrej.noHuman⟩ (fun _ => nofun)
  | rejectedLate hh hp hend => exact .write hm (.setHuman _ _ (fun _ => rfl)) id
  | resumed hs => exact .restart hm (.of_owned rfl rfl) (hlive rfl)
  | evidenced => exact .write hm (.of_owned rfl rfl) id
  | stalled hnew => exact nomatch hk
  | awaited hrow => exact .write hm (.of_owned (owned_setStep _ _ (fun _ => rfl)) rfl) id
  | revisedBefore => exact .write hm (.of_owned (owned_setStep _ _ (fun _ => rfl)) rfl) id
  | revisedAfter => exact .write hm (.of_owned (owned_setStep _ _ (fun _ => rfl)) rfl) id
  | created hreq hid => exact .of_db hm rfl id id
  | lost => exact .of_db hm rfl id id
  | createRefused => exact .of_db hm rfl id id
  | cancelSent => exact .of_db hm rfl id id
  | cancelLost => exact .of_db hm rfl id id
  | pumped hdead => exact absurd (hlive rfl) (by rw [hdead]; exact Bool.false_ne_true)
  | abort => exact .of_db hm rfl id id

end

/-! ## The environment's moves -/

theorem noteWake_db (op : Op) (r : Except CallError (Ans op)) (w : World) :
    noteWake op r w = w ∨ noteWake op r w = { w with stopCancel := w.stopCancel || w.stopped } := by
  unfold noteWake
  split
  · split
    · exact Or.inr rfl
    · exact Or.inl rfl
  · exact Or.inl rfl

theorem noteWake_rely (op : Op) (r : Except CallError (Ans op)) (w : World) :
    Rely w (noteWake op r w) := by
  rcases noteWake_db op r w with h | h
  · rw [h]
    exact Rely.refl w
  · rw [h]
    refine .of_db (.of_db rfl ?_ (List.Subset.refl _) (List.Subset.refl _) (List.Subset.refl _)
      (sameTasks w) (Nat.le_refl _)) rfl id id
    intro hc
    rcases hc with hc | hc
    · exact Or.inl hc
    · refine Or.inr ?_
      show (w.stopCancel || w.stopped) = true
      rw [hc]
      rfl

theorem deliver_rely {w w' : World} {req : AgentTaskCreateRequest} {new taskId : String}
    (h : w.deliver req new = some (taskId, w')) : Rely w w' := by
  rcases World.deliver_cases h with ⟨rfl, -⟩ | ⟨rfl, -⟩
  · exact Rely.refl _
  · exact .of_db (.of_db rfl id (List.Subset.refl _) (List.Subset.refl _) (List.Subset.refl _)
      (moreTasks w) (Nat.le_refl _)) rfl id id

theorem finish_rely (w : World) (taskId : String) (status : TaskStatus) :
    Rely w (w.finish taskId status) := by
  refine .of_db (.of_db rfl id (List.Subset.refl _) (List.Subset.refl _) (List.Subset.refl _)
    ?_ (Nat.le_refl _)) rfl id id
  intro t ht
  refine ⟨_, List.mem_map_of_mem ht, ?_⟩
  split
  · rename_i hrun
    refine ⟨rfl, rfl, ?_⟩
    intro hterm
    rw [hrun.2] at hterm
    exact nomatch hterm
  · exact ⟨rfl, rfl, fun _ => rfl⟩

theorem tick_rely (w : World) (ms wall : Nat) : Rely w { w with now := w.now + ms, wall := wall } :=
  .of_db (.of_db rfl id (List.Subset.refl _) (List.Subset.refl _) (List.Subset.refl _)
    (sameTasks w) (Nat.le_add_right _ _)) rfl id id

theorem shutdown_rely (w : World) : Rely w w.shutdown :=
  .of_db (.of_db rfl id (List.Subset.refl _) (List.Subset.refl _) (List.Subset.refl _)
    (sameTasks w) (Nat.le_refl _)) rfl id (fun _ => rfl)

theorem called_rely (w : World) : Rely w { w with cancelCalled := true } :=
  .of_db (.of_db rfl (fun _ => Or.inl rfl) (List.Subset.refl _) (List.Subset.refl _)
    (List.Subset.refl _) (sameTasks w) (Nat.le_refl _)) rfl id id

/-! ## The core invariant -/

/-- What the core invariant asks of a call. -/
def CoreGuard (cfg : Config) (op : Op) (w : World) : Prop :=
  match op with
  | .abortPump => CancelReason w ∨ w.db.isTerminal = true
  | .recordIntent => CancelReason w
  | .pause id k gate _ => id = cfg.humanRequestId k ∧ gateOf cfg k = some gate
  | .setRevisionBefore _ _ => Leases cfg
  | .setRevisionAfter _ _ => Leases cfg
  | _ => True

section

variable {cfg : Config} {w : World}

/-- The rows' part of the core invariant. -/
structure CoreRows (cfg : Config) (w : World) (db : Db) : Prop where
  keys : (db.steps.map StepRow.key).Nodup
  intent : db.wf.cancelRequested = true → CancelReason w
  stepEnded : ∀ r ∈ db.steps, isTerminalStepStatus r.status = true → r.status ≠ .completed →
    db.isTerminal = true
  human : HumanRows cfg db.human
  revisions : ¬ Leases cfg → ∀ r ∈ db.steps,
    r.revisionBefore = none ∧ r.revisionAfter = none

theorem CoreInv.rows (h : CoreInv cfg w) : CoreRows cfg w w.db :=
  ⟨h.keys, h.intent, h.stepEnded, h.human, h.revisions⟩

/-- Only the rows change. -/
theorem CoreRows.inv {w' : World} (h : CoreRows cfg w w'.db)
    (hcancel : CancelReason w → CancelReason w')
    (habort : w'.aborted = true → w'.stopped = true ∨ CancelReason w' ∨ w'.db.isTerminal = true) :
    CoreInv cfg w' :=
  ⟨h.keys, habort, fun hr => hcancel (h.intent hr), h.stepEnded, h.human, h.revisions⟩

theorem CoreInv.write {db : Db} (hi : CoreInv cfg w) (hm : Mono w (w.write db))
    (h : CoreRows cfg w db) : CoreInv cfg (w.write db) := by
  refine h.inv hm.cancel ?_
  intro ha
  rcases hi.abort ha with hs | hc | ht
  · exact Or.inl hs
  · exact Or.inr (Or.inl hc)
  · exact Or.inr (Or.inr (hm.isTerminal ht))

theorem CoreInv.restart {db : Db} (hi : CoreInv cfg w) (hm : Mono w (w.restart db))
    (h : CoreRows cfg w db) : CoreInv cfg (w.restart db) := by
  refine h.inv hm.cancel ?_
  intro ha
  rcases hi.abort ha with hs | hc | ht
  · exact Or.inl hs
  · exact Or.inr (Or.inl hc)
  · exact Or.inr (Or.inr (hm.isTerminal ht))

/-- The same rows, and an abort flag that is no harder to explain. -/
theorem CoreInv.of_db {w' : World} (hi : CoreInv cfg w) (hdb : w'.db = w.db)
    (hcancel : CancelReason w → CancelReason w')
    (habort : w'.aborted = true → w'.stopped = true ∨ CancelReason w' ∨ w.db.isTerminal = true) :
    CoreInv cfg w' := by
  refine CoreRows.inv (w := w) ?_ hcancel ?_
  · rw [hdb]
    exact hi.rows
  · rw [hdb]
    exact habort

theorem CoreRows.setStatus {db : Db} {status : WorkflowStatus} {ev : WorkflowEvent}
    (h : CoreRows cfg w db) (hlive : db.isTerminal = false) : CoreRows cfg w (setStatus db status ev) where
  keys := h.keys
  intent := h.intent
  stepEnded := fun r hr ht hne => by
    have := h.stepEnded r hr ht hne
    rw [hlive] at this
    exact nomatch this
  human := h.human
  revisions := h.revisions

/-- Rows change but keep their keys, do not newly fail, and have no new revisions. -/
theorem CoreRows.setStep {db : Db} {k : StepKey} {f : StepRow → StepRow} (h : CoreRows cfg w db)
    (hkey : ∀ r, (f r).key = r.key)
    (hst : ∀ r, (f r).status = r.status ∨ (f r).status = .completed ∨ db.isTerminal = true)
    (hrev : ¬ Leases cfg → ∀ r, (f r).revisionBefore = r.revisionBefore ∧
      (f r).revisionAfter = r.revisionAfter) : CoreRows cfg w (db.setStep k f) where
  keys := by
    rw [keys_setStep db k hkey]
    exact h.keys
  intent := h.intent
  stepEnded := by
    intro r hr ht hne
    obtain ⟨r₀, hr₀, rfl⟩ := Db.mem_setStep.mp hr
    split at ht
    · rename_i hk
      rw [if_pos hk] at hne
      rcases hst r₀ with hs | hs | hs
      · rw [hs] at ht hne
        exact h.stepEnded r₀ hr₀ ht hne
      · exact absurd hs hne
      · exact hs
    · rename_i hk
      rw [if_neg hk] at hne
      exact h.stepEnded r₀ hr₀ ht hne
  human := h.human
  revisions := by
    intro hl r hr
    obtain ⟨r₀, hr₀, rfl⟩ := Db.mem_setStep.mp hr
    split
    · rw [(hrev hl r₀).1, (hrev hl r₀).2]
      exact h.revisions hl r₀ hr₀
    · exact h.revisions hl r₀ hr₀

theorem CoreRows.setWf {db : Db} {g : WorkflowRow → WorkflowRow} {ev : WorkflowEvent}
    (h : CoreRows cfg w db) (hs : (g db.wf).status = db.wf.status)
    (hc : (g db.wf).cancelRequested = db.wf.cancelRequested) :
    CoreRows cfg w ((db.setWf g).append ev) where
  keys := h.keys
  intent := fun hr => h.intent (hc.symm.trans hr)
  stepEnded := fun r hr ht hne => by
    show isTerminalWorkflowStatus (g db.wf).status = true
    rw [hs]
    exact h.stepEnded r hr ht hne
  human := h.human
  revisions := h.revisions

/-- A fresh row is added. -/
theorem CoreRows.concat {db db' : Db} {k : StepKey} (h : CoreRows cfg w db)
    (hnone : db.step? k = none) (hsteps : db'.steps = db.steps ++ [StepRow.fresh k])
    (hs : db'.wf.status = db.wf.status) (hc : db'.wf.cancelRequested = db.wf.cancelRequested)
    (hh : db'.human = db.human) : CoreRows cfg w db' where
  keys := by
    rw [hsteps]
    exact keys_concat h.keys hnone
  intent := fun hr => h.intent (hc.symm.trans hr)
  stepEnded := by
    intro r hr ht hne
    have hterm : db'.isTerminal = db.isTerminal := by
      unfold Db.isTerminal
      rw [hs]
    rw [hsteps, List.mem_append, List.mem_singleton] at hr
    rcases hr with hr | rfl
    · rw [hterm]
      exact h.stepEnded r hr ht hne
    · exact nomatch ht
  human := by
    rw [hh]
    exact h.human
  revisions := by
    intro hl r hr
    rw [hsteps, List.mem_append, List.mem_singleton] at hr
    rcases hr with hr | rfl
    · exact h.revisions hl r hr
    · exact ⟨rfl, rfl⟩

/-- Requests are found by their ids. -/
theorem HumanRows.find {db : Db} (h : HumanRows cfg db.human) {row : HumanRequestRow}
    (hrow : row ∈ db.human) : db.human? row.requestId = some row := by
  cases hf : db.human? row.requestId with
  | none => exact absurd (decide_eq_true rfl) (List.find?_eq_none.mp hf row hrow)
  | some r =>
    obtain ⟨hmem, hid⟩ := Db.human?_mem hf
    rw [List.inj_on_of_nodup_map h.ids hmem hrow hid]

theorem CoreRows.setHuman {db : Db} {id : String} {f : HumanRequestRow → HumanRequestRow}
    (h : CoreRows cfg w db) (hf : ∀ r, (f r).requestId = r.requestId ∧ (f r).key = r.key ∧
      (f r).gate = r.gate) : CoreRows cfg w (db.setHuman id f) where
  keys := h.keys
  intent := h.intent
  stepEnded := h.stepEnded
  human := by
    constructor
    · have heq : (db.setHuman id f).human.map HumanRequestRow.requestId
          = db.human.map HumanRequestRow.requestId := by
        show (db.human.map _).map _ = _
        rw [List.map_map]
        refine List.map_congr_left (fun r _ => ?_)
        show (if r.requestId = id then f r else r).requestId = r.requestId
        split
        · exact (hf r).1
        · rfl
      rw [heq]
      exact h.human.ids
    · intro r hr
      obtain ⟨r₀, hr₀, rfl⟩ := List.mem_map.mp hr
      split
      · rw [(hf r₀).1, (hf r₀).2.1, (hf r₀).2.2]
        exact h.human.gate r₀ hr₀
      · exact h.human.gate r₀ hr₀
  revisions := h.revisions

theorem CoreRows.ask {db : Db} {id : String} {k : StepKey} {gate : StepPauseGate}
    (h : CoreRows cfg w db) (hnone : db.human? id = none) (hid : id = cfg.humanRequestId k)
    (hg : gateOf cfg k = some gate) (now : Nat) :
    CoreRows cfg w { db with human := db.human ++ [⟨id, k, gate, .pending, none, now⟩] } where
  keys := h.keys
  intent := h.intent
  stepEnded := h.stepEnded
  human := by
    constructor
    · refine nodup_snoc h.human.ids (fun r hr heq => ?_)
      exact List.find?_eq_none.mp hnone r hr (decide_eq_true heq)
    · intro r hr
      rcases mem_snoc.mp hr with hr | rfl
      · exact h.human.gate r hr
      · exact ⟨hid, hg⟩
  revisions := h.revisions

/-- A failing or cancelled step goes with an ending workflow. -/
theorem CoreRows.end {db db₁ : Db} {status : WorkflowStatus} {ev : WorkflowEvent}
    (h : CoreRows cfg w db) (hkeys : db₁.steps.map StepRow.key = db.steps.map StepRow.key)
    (hc : db₁.wf.cancelRequested = db.wf.cancelRequested) (hh : db₁.human = db.human)
    (hrev : ∀ r ∈ db₁.steps, ∃ r₀ ∈ db.steps, r.revisionBefore = r₀.revisionBefore ∧
      r.revisionAfter = r₀.revisionAfter)
    (hend : isTerminalWorkflowStatus status = true) : CoreRows cfg w (VibeRuntime.setStatus db₁ status ev) where
  keys := by
    show (db₁.steps.map StepRow.key).Nodup
    rw [hkeys]
    exact h.keys
  intent := fun hr => h.intent (hc.symm.trans hr)
  stepEnded := fun _ _ _ _ => hend
  human := by
    show HumanRows cfg db₁.human
    rw [hh]
    exact h.human
  revisions := by
    intro hl r hr
    obtain ⟨r₀, hr₀, hb, ha⟩ := hrev r hr
    rw [hb, ha]
    exact h.revisions hl r₀ hr₀

theorem setStep_revisions {db : Db} {k : StepKey} {f : StepRow → StepRow}
    (hf : ∀ r, (f r).revisionBefore = r.revisionBefore ∧ (f r).revisionAfter = r.revisionAfter) :
    ∀ r ∈ (db.setStep k f).steps, ∃ r₀ ∈ db.steps, r.revisionBefore = r₀.revisionBefore ∧
      r.revisionAfter = r₀.revisionAfter := by
  intro r hr
  obtain ⟨r₀, hr₀, rfl⟩ := Db.mem_setStep.mp hr
  refine ⟨r₀, hr₀, ?_⟩
  split
  · exact hf r₀
  · exact ⟨rfl, rfl⟩

theorem cancelRow_key (r : StepRow) : (if isTerminalStepStatus r.status then r
    else { r with status := .cancelled }).key = r.key := by
  split <;> rfl

theorem CoreRows.cancel {db : Db} {ev : WorkflowEvent} (h : CoreRows cfg w db) (k : Option StepKey) :
    CoreRows cfg w (VibeRuntime.setStatus (cancelNamed db k) .cancelled ev) := by
  cases k with
  | none => exact h.end rfl rfl rfl (fun r hr => ⟨r, hr, rfl, rfl⟩) rfl
  | some k =>
    refine h.end (keys_setStep db k cancelRow_key) rfl rfl (setStep_revisions ?_) rfl
    intro r
    split <;> exact ⟨rfl, rfl⟩

/-- **Guarded calls keep the core invariant.** -/
theorem Effect.core {op : Op} {w' : World} (h : Effect op w w') (hi : CoreInv cfg w)
    (hg : CoreGuard cfg op w) : CoreInv cfg w' := by
  have hm := h.mono
  have hrows := hi.rows
  cases h with
  | same => exact hi
  | noted ha => exact hi.of_db rfl id hi.abort
  | looked => exact hi.of_db rfl id hi.abort
  | started hready =>
    refine hi.restart hm ⟨hrows.keys, hrows.intent, ?_, hrows.human, hrows.revisions⟩
    intro r hr ht hne
    have := hrows.stepEnded r hr ht hne
    rw [isTerminalStatus_eq hready rfl] at this
    exact nomatch this
  | stepStarted hnone => exact hi.write hm (hrows.concat hnone rfl rfl rfl rfl)
  | bound hrow hfree =>
    refine hi.write hm (.setWf (.setStep hrows ?_ ?_ ?_) rfl rfl)
    · exact fun _ => rfl
    · exact fun _ => Or.inl rfl
    · exact fun _ _ => ⟨rfl, rfl⟩
  | completed hrow hlive =>
    refine hi.write hm (.setWf (.setStep hrows ?_ ?_ ?_) rfl rfl)
    · exact fun _ => rfl
    · exact fun _ => Or.inr (Or.inl rfl)
    · exact fun _ _ => ⟨rfl, rfl⟩
  | advanced hnone hround => exact hi.write hm (hrows.concat hnone rfl rfl rfl rfl)
  | terminalized hne hlive =>
    refine hi.write hm (.setStatus ?_ hlive)
    exact ⟨hrows.keys, hrows.intent, hrows.stepEnded, hrows.human, hrows.revisions⟩
  | stepFailed hrow hr hlive =>
    refine hi.write hm (hrows.end ?_ ?_ ?_ ?_ rfl)
    · exact keys_setStep w.db _ (f := failedRow _) (fun _ => rfl)
    · rfl
    · rfl
    · exact setStep_revisions (f := failedRow _) (fun _ => ⟨rfl, rfl⟩)
  | stepFailedLate hrow hr hend =>
    refine hi.write hm (.setWf (.setStep hrows ?_ ?_ ?_) rfl rfl)
    · exact fun _ => rfl
    · exact fun _ => Or.inr (Or.inr hend)
    · exact fun _ _ => ⟨rfl, rfl⟩
  | failedOnly hrow hr hlive => exact hi.write hm (hrows.setStatus hlive)
  | intended hreq hlive =>
    exact hi.write hm ⟨hrows.keys, fun _ => hg, hrows.stepEnded, hrows.human, hrows.revisions⟩
  | cancelled hlive => exact hi.write hm (hrows.cancel _)
  | asked hh hrow hrun => exact hi.write hm (hrows.ask hh hg.1 hg.2 _)
  | askedPaused hh hrow hrun =>
    exact hi.write hm (.setStatus (hrows.ask hh hg.1 hg.2 _) (isTerminalStatus_eq hrun rfl))
  | paused hrun => exact hi.write hm (.setStatus hrows (isTerminalStatus_eq hrun rfl))
  | answered hh hp => exact hi.write hm (.setHuman hrows (fun _ => ⟨rfl, rfl, rfl⟩))
  | approved hh hp => exact hi.write hm (.setHuman hrows (fun _ => ⟨rfl, rfl, rfl⟩))
  | rejected hh hp hlive =>
    exact hi.write hm (.setStatus (.setHuman hrows (fun _ => ⟨rfl, rfl, rfl⟩)) hlive)
  | rejectedLate hh hp hend => exact hi.write hm (.setHuman hrows (fun _ => ⟨rfl, rfl, rfl⟩))
  | resumed hs =>
    refine hi.restart hm (.setStatus hrows ?_)
    rcases hs with hs | hs
    · exact isTerminalStatus_eq hs rfl
    · exact isTerminalStatus_eq hs rfl
  | evidenced =>
    exact hi.write hm ⟨hrows.keys, hrows.intent, hrows.stepEnded, hrows.human, hrows.revisions⟩
  | stalled hnew =>
    exact hi.write hm ⟨hrows.keys, hrows.intent, hrows.stepEnded, hrows.human, hrows.revisions⟩
  | awaited hrow =>
    exact hi.write hm (.setStep hrows (fun _ => rfl) (fun _ => Or.inl rfl) (fun _ _ => ⟨rfl, rfl⟩))
  | revisedBefore =>
    refine hi.write hm (.setStep hrows (fun _ => rfl) (fun _ => Or.inl rfl) ?_)
    exact fun hl => absurd hg hl
  | revisedAfter =>
    refine hi.write hm (.setStep hrows (fun _ => rfl) (fun _ => Or.inl rfl) ?_)
    exact fun hl => absurd hg hl
  | created hreq hid => exact hi.of_db rfl id hi.abort
  | lost => exact hi.of_db rfl id hi.abort
  | createRefused => exact hi.of_db rfl id hi.abort
  | cancelSent => exact hi.of_db rfl id hi.abort
  | cancelLost => exact hi.of_db rfl id hi.abort
  | pumped hlive => exact hi.of_db rfl id nofun
  | abort => exact hi.of_db rfl id (fun _ => Or.inr hg)

end

end VibeRuntime
