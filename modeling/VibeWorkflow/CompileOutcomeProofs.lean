import VibeWorkflow.CompileKeyProofs

/-!
# What a draft is finalized with

The compiler's client waits for its task in bounded windows, and takes the first terminal read as the
answer.  The end of a task and its result are published separately: a read may see the end and not yet the
result, and the windows may run out before the end.  Both count as a missing result, and a finalized draft
is final.

* `Concluded` — a task whose outcome can no longer change;
* `OutcomeInv` — every finalized draft has the outcome of its concluded task, or was refused;
* `Timely` — a read that sees a completed task sees its result, and the last wait sees an end;
* `waits_safe`, `runCompile_concludes` — under it, what a client answers is the outcome of the task;
* **`finalized_with_outcome`** — in every timely run;
* **`pending_result_finalized`** — the read between the end and the result.
-/

namespace VibeCompiler

open VibeJson VibeContract VibeValidator VibeStore VibeAdmission AsyncLogic

/-! ## Concluded tasks -/

/-- The task has ended, and if it has completed its result is published. -/
def Concluded (t : AgentTask) : Prop :=
  t.status.isTerminal = true ∧ (t.status = .completed → t.result.isSome = true)

/-- The outcome is that of the concluded task under a key. -/
def ConcludedAs (key : String) (outcome : Outcome) (w : World) : Prop :=
  ∃ t, w.taskOf? key = some t ∧ Concluded t ∧ outcome = outcomeOf t.status t.result

/-- **What a draft may be finalized with**: the refusal of a placement that its inventory cannot enforce, or
    what its concluded task determines. -/
def Settled (cfg : Setup) (d : Draft) (p : Patch) (w : World) : Prop :=
  (p = refusalPatch ∧ ∃ agent nodeId, enforceable d.inventory agent nodeId = false) ∨
    ∃ outcome, ConcludedAs ("compile:" ++ d.draftId) outcome w ∧ p = outcomePatch cfg d.inventory outcome

structure OutcomeInv (cfg : Setup) (w : World) : Prop where
  tasks : (w.tasks.map AgentTask.taskId).Nodup
  settled : ∀ id d p, w.draft? id = some d → d.content = some p → Settled cfg d p w

section

variable {cfg : Setup} {w w' : World}

/-- A concluded task keeps its outcome. -/
theorem Concluded.grows {t t' : AgentTask} (h : Concluded t) (hg : t.Grows t') :
    Concluded t' ∧ outcomeOf t'.status t'.result = outcomeOf t.status t.result := by
  obtain ⟨hend, hresult⟩ := h
  have hstatus := hg.status hend
  by_cases hdone : t.status = .completed
  · obtain ⟨r, hr⟩ := Option.isSome_iff_exists.mp (hresult hdone)
    have hr' := hg.result r hr
    refine ⟨⟨?_, ?_⟩, ?_⟩
    · rw [hstatus]
      exact hend
    · intro _
      rw [hr']
      rfl
    · rw [hstatus, hr, hr']
  · -- a task that did not complete has its outcome whatever its result
    refine ⟨⟨?_, ?_⟩, ?_⟩
    · rw [hstatus]
      exact hend
    · intro hdone'
      exact absurd (hstatus.symm.trans hdone') hdone
    · rw [hstatus]
      cases hs : t.status with
      | running => exact absurd hend (by rw [hs]; exact Bool.false_ne_true)
      | completed => exact absurd hs hdone
      | failed => rfl
      | cancelled => rfl

theorem ConcludedAs.later {key : String} {outcome : Outcome} (h : ConcludedAs key outcome w) (hl : Later w w') :
    ConcludedAs key outcome w' := by
  obtain ⟨t, ht, hc, rfl⟩ := h
  obtain ⟨t', ht', hg⟩ := hl.taskOf key t ht
  obtain ⟨hc', hsame⟩ := hc.grows hg
  exact ⟨t', ht', hc', hsame.symm⟩

theorem Settled.later {d : Draft} {p : Patch} (h : Settled cfg d p w) (hl : Later w w') : Settled cfg d p w' := by
  rcases h with hrefused | ⟨outcome, hc, hp⟩
  · exact .inl hrefused
  · exact .inr ⟨outcome, hc.later hl, hp⟩

/-- The row of a draft has its id and inventory for good. -/
theorem Settled.grows {d d' : Draft} {p : Patch} (h : Settled cfg d p w) (hg : d.Grows d') : Settled cfg d' p w := by
  unfold Settled
  rw [hg.inventory, hg.draftId]
  exact h

/-- Drafts that keep their content keep the invariant. -/
theorem OutcomeInv.of_content (h : OutcomeInv cfg w) (hl : Later w w')
    (htasks : (w'.tasks.map AgentTask.taskId).Nodup)
    (hrows : ∀ id d' p, w'.draft? id = some d' → d'.content = some p →
      ∃ d, w.draft? id = some d ∧ d.Grows d' ∧ d.content = some p) : OutcomeInv cfg w' where
  tasks := htasks
  settled id d' p hd' hp := by
    obtain ⟨d, hd, hg, hp'⟩ := hrows id d' p hd' hp
    exact ((h.settled id d p hd hp').later hl).grows hg

theorem OutcomeInv.unchanged (h : OutcomeInv cfg w) (hl : Later w w') (hd : w'.drafts = w.drafts)
    (ht : w'.tasks.map AgentTask.taskId = w.tasks.map AgentTask.taskId) : OutcomeInv cfg w' := by
  refine h.of_content hl ?_ ?_
  · rw [ht]
    exact h.tasks
  · intro id d' p hd' hp
    have hsame : w'.draft? id = w.draft? id := by
      unfold World.draft?
      rw [hd]
    exact ⟨d', hsame.symm.trans hd', .refl d', hp⟩

/-- A change of one row that leaves the contents alone. -/
theorem OutcomeInv.setDraft (h : OutcomeInv cfg w) {id : String} {f : Draft → Draft} (hl : Later w (w.setDraft id f))
    (hgrows : ∀ d, w.draft? id = some d → d.Grows (f d)) (hf : ∀ d, (f d).draftId = d.draftId)
    (hcontent : ∀ d, (f d).content = d.content) : OutcomeInv cfg (w.setDraft id f) := by
  refine h.of_content hl h.tasks ?_
  intro id' d' p hd' hp
  rw [draft?_set hf] at hd'
  obtain ⟨d, hd, rfl⟩ := Option.map_eq_some_iff.mp hd'
  refine ⟨d, hd, ?_, ?_⟩
  · split
    · rename_i hid
      exact hgrows d (hid ▸ draft?_id hd ▸ hd)
    · exact .refl d
  · rw [← hp]
    split
    · exact (hcontent d).symm
    · rfl

end

/-- A finalize is named with what the draft may be finalized with. -/
def OutcomePre (cfg : Setup) : Op → World → Prop
  | .finalizeDraft id patch, w => ∀ d, w.draft? id = some d → Settled cfg d patch w
  | _, _ => True

/-- **Operations keep the invariant.** -/
theorem OutcomeInv.change {cfg : Setup} {op : Op} {w w' : World} (h : OutcomeInv cfg w) (hpre : OutcomePre cfg op w)
    (hc : Change w op w') : OutcomeInv cfg w' := by
  have hl := hc.later
  cases hc with
  | same => exact h
  | @draft input free =>
    refine h.of_content hl h.tasks ?_
    intro id d' p hd' hp
    rw [draft?_concat] at hd'
    rcases Option.or_eq_some_iff.mp hd' with hd' | ⟨-, hnew⟩
    · exact ⟨d', hd', .refl d', hp⟩
    · -- the new row has no content
      split at hnew
      · obtain rfl := Option.some.inj hnew
        exact nomatch hp
      · exact nomatch hnew
  | @task req id noKey free =>
    refine h.of_content hl ?_ fun id d p hd hp => ⟨d, hd, .refl d, hp⟩
    rw [List.map_append, List.nodup_append]
    refine ⟨h.tasks, List.nodup_singleton _, ?_⟩
    intro a ha b hb hab
    obtain ⟨t, ht, rfl⟩ := List.mem_map.mp ha
    rw [List.map_singleton, List.mem_singleton] at hb
    exact List.find?_eq_none.mp free t ht (decide_eq_true (hab.trans hb))
  | bind found unbound =>
    exact h.setDraft hl (fun d _ => ⟨rfl, rfl, rfl, rfl, rfl, fun _ h => h, fun _ h => h⟩) (fun _ => rfl) (fun _ => rfl)
  | @finalize id patch d found pending =>
    refine { tasks := h.tasks, settled := ?_ }
    intro id' d' p hd' hp
    have hid : ∀ d : Draft, { d with content := some patch }.draftId = d.draftId := fun _ => rfl
    rw [draft?_set hid] at hd'
    obtain ⟨d₁, hd₁, rfl⟩ := Option.map_eq_some_iff.mp hd'
    by_cases hk : d₁.draftId = id
    · rw [if_pos hk] at hp ⊢
      obtain rfl := Option.some.inj hp
      have hfound : w.draft? id = some d₁ := by
        rw [← hk, draft?_id hd₁]
        exact hd₁
      exact (hpre d₁ hfound).later hl
    · rw [if_neg hk] at hp ⊢
      exact (h.settled id' d₁ p hd₁ hp).later hl
  | workflow free => exact h.unchanged hl rfl rfl
  | @approve id workflowId d found open' =>
    refine h.setDraft hl (fun d₁ hd₁ => ⟨rfl, rfl, rfl, rfl, rfl, fun _ h => h, fun id' hid' => ?_⟩) (fun _ => rfl)
      (fun _ => rfl)
    obtain rfl := Option.some.inj (found.symm.trans hd₁)
    rw [open'] at hid'
    exact nomatch hid'
  | append free turn => exact h.unchanged hl rfl rfl
  | complete free revision => exact h.unchanged hl rfl rfl

theorem OutcomeInv.drift {cfg : Setup} {m : Move} {w w' : World} (h : OutcomeInv cfg w) (hd : Drift w m w') :
    OutcomeInv cfg w' := by
  have hl := hd.later
  cases hd with
  | @tasks _ id f grows =>
    refine h.unchanged hl rfl ?_
    show (w.tasks.map _).map AgentTask.taskId = _
    rw [List.map_map]
    refine List.map_congr_left fun t _ => ?_
    show (if t.taskId = id then f t else t).taskId = t.taskId
    split
    · exact (grows t).taskId
    · rfl
  | workflow checked free => exact h.unchanged hl rfl rfl
  | advance => exact h.unchanged hl rfl rfl
  | archive => exact h.unchanged hl rfl rfl

/-! ## Timely reads -/

/-- What a wait, the client's `i`-th, finds of its task: its result, if it finds it completed, and an end,
    if it is the last one. -/
def Seen (cfg : Setup) (i : Nat) (t : AgentTask) : Input → Prop
  | .waited _ => (t.status = .completed → t.result.isSome = true) ∧ (i + 1 = cfg.maxWaits → t.status.isTerminal = true)
  | .taskFail isTransient _ _ => isTransient = true → i + 1 ≠ cfg.maxWaits
  | _ => True

def TimelyOp (cfg : Setup) : Op → Input → World → Prop
  | .waitForTerminal id _ i, inp, w => ∀ t, w.task? id = some t → Seen cfg i t inp
  | _, _, _ => True

def outcomeGround (cfg : Setup) : Ground sig World where
  inv := OutcomeInv cfg
  rely := Later
  rely_refl := Later.refl
  rely_trans := Later.trans
  exec op w r w' := ∃ inp, exec op w inp = some (r, w') ∧ TimelyOp cfg op inp w
  flags _ := ()

/-! ## A compile by what it does with its draft -/

theorem createDraft_stored {w w' : World} {input : DraftInput} {d : Draft} (h : createDraft w input = (w', d)) :
    Stored d w' := by
  unfold createDraft at h
  split at h
  · rename_i existing hfound
    obtain ⟨rfl, rfl⟩ := Prod.mk.inj h
    exact stored_of_draft? hfound
  · rename_i hfree
    obtain ⟨rfl, rfl⟩ := Prod.mk.inj h
    have hfound : World.draft? { w with drafts := w.drafts ++ [input.row] } input.draftId = some input.row := by
      rw [draft?_concat, hfree]
      exact if_pos rfl
    exact stored_of_draft? hfound

section

variable {G : Ground sig World} {pre : Op → World → Prop}

/-- The operations of the ground are those of the store and the service, and rows are only filled in. -/
structure Faithful (G : Ground sig World) : Prop where
  exec : ∀ op w r w', G.exec op w r w' → ∃ inp, VibeCompiler.exec op w inp = some (r, w')
  rely : ∀ w w', G.rely w w' → Later w w'

/-- What a compile asks for before it has a draft. -/
def isLookupOp : Op → Bool
  | .getDraft _ | .snapshot | .createDraft _ => true
  | _ => false

/-- **A compile is safe when what it does with a stored draft is.** -/
theorem compile_safe_of_run {cfg : Setup} {req : CompileRequest} {Q : Draft → World → Prop} (hG : Faithful G)
    (hpre : ∀ op w, isLookupOp op = true → G.inv w → pre op w)
    (hrun : ∀ d, Safe (G.contract pre) (Stored d) (runCompile cfg d req) Q (fun _ _ => True))
    (hret : ∀ d w, G.inv w → Stored d w → d.content.isSome = true → Q d w) :
    Safe (G.contract pre) (fun _ => True) (compile cfg req) Q (fun _ _ => True) := by
  have hreturn : ∀ d, Safe (G.contract pre) (Stored d) (returnOrRun cfg d req) Q (fun _ _ => True) :=
    fun d => safe_ite (fun hsome => safe_pure fun w hi h => hret d w hi h hsome) fun _ => hrun d
  have hcreate : Safe (G.contract pre) (fun _ => True) (createAndRun cfg req) Q (fun _ _ => True) := by
    refine safe_bind (safe_any fun w hi => hpre _ w rfl hi) fun inventory => ?_
    refine safe_bind (Q := fun d w => Stored d w) ?_ hreturn
    refine Ground.await (G := G) (fun w hi _ => hpre _ w rfl hi) ?_ ?_
    · intro w r w' _ _ hex
      obtain ⟨inp, hexec⟩ := hG.exec _ _ _ _ hex
      have hexec : storeCall w inp (.ok (createDraft w _)) = some (r, w') := hexec
      rcases storeCall_cases hexec with ⟨d, hok, rfl⟩ | ⟨e, he, -, -⟩ | ⟨_, _, rfl, -⟩
      · exact createDraft_stored (Except.ok.inj hok)
      · exact nomatch he
      · trivial
    · intro r w w' h hl _
      cases r with
      | ok d => exact Stored.later h (hG.rely _ _ hl)
      | error e => trivial
  unfold compile
  split
  · exact safe_throw fun _ _ _ => trivial
  · split
    · exact hcreate
    · refine safe_bind (Q := fun found w => ∀ d, found = some d → Stored d w) ?_ fun found => ?_
      · refine Ground.await (G := G) (fun w hi _ => hpre _ w rfl hi) ?_ ?_
        · intro w r w' _ _ hex
          obtain ⟨inp, hexec⟩ := hG.exec _ _ _ _ hex
          have hread : storeCall w inp (.ok (w, w.draft? (req.draftId cfg))) = some (r, w') := hexec
          rcases storeRead_cases hread with ⟨rfl, rfl | ⟨_, _, rfl⟩⟩
          · exact fun d hd => stored_of_draft? hd
          · trivial
        · intro r w w' h hl _
          cases r with
          | ok found => exact fun d hd => (h d hd).later (hG.rely _ _ hl)
          | error e => trivial
      · cases found with
        | none => exact hcreate.pre fun _ _ _ => trivial
        | some d =>
          refine safe_ite (fun _ => safe_throw fun _ _ _ => trivial) fun _ => ?_
          exact (hreturn d).pre fun _ _ h => h d rfl

end

/-! ## The client -/

/-- The key's task has the id. -/
def TaskFor (key id : String) (w : World) : Prop := ∃ t, w.taskOf? key = some t ∧ t.taskId = id

section

variable {cfg : Setup} {w w' : World} {key id : String}

theorem TaskFor.later (h : TaskFor key id w) (hl : Later w w') : TaskFor key id w' := by
  obtain ⟨t, ht, hid⟩ := h
  obtain ⟨t', ht', hg⟩ := hl.taskOf key t ht
  exact ⟨t', ht', hg.taskId.trans hid⟩

/-- The id finds the key's task. -/
theorem TaskFor.lookup (h : TaskFor key id w) (hinv : OutcomeInv cfg w) {t : AgentTask} (ht : w.task? id = some t) :
    w.taskOf? key = some t := by
  obtain ⟨t₁, ht₁, hid⟩ := h
  have hid' : t.taskId = id := find_key AgentTask.taskId ht
  obtain rfl := List.inj_on_of_nodup_map hinv.tasks (List.mem_of_find?_eq_some ht₁) (List.mem_of_find?_eq_some ht)
    (hid.trans hid'.symm)
  exact ht₁

theorem createTask_answer {req : TaskRequest} {inp : Input} {taskId : String}
    (h : exec (.createTask req) w inp = some (.ok taskId, w')) : TaskFor req.idempotencyKey taskId w' := by
  simp only [exec] at h
  split at h
  · rcases deliver_cases h with ⟨rfl, ⟨t, ht, -, hid⟩ | ⟨m, he⟩⟩ | ⟨hnone, -, hid, rfl⟩
    · exact ⟨t, ht, (Except.ok.inj hid).symm⟩
    · cases he
    · obtain rfl := Except.ok.inj hid
      refine ⟨⟨_, req, .running, none⟩, ?_, rfl⟩
      refine (find_concat (fun t : AgentTask => t.request.idempotencyKey) _ _).trans ?_
      rw [show w.tasks.find? (fun t => t.request.idempotencyKey = req.idempotencyKey) = none from hnone]
      exact if_pos rfl
  · obtain ⟨he, -⟩ := Prod.mk.inj (Option.some.inj h)
    cases he
  · obtain ⟨r, -, heq⟩ := Option.map_eq_some_iff.mp h
    cases (Prod.mk.inj heq).1
  · cases h

/-- What one wait answers: the task's end with its outcome, or that it goes on while waits are left. -/
def WaitAnswer (cfg : Setup) (key id : String) (i : Nat) (r : Except CallError TerminalRead) (w : World) : Prop :=
  TaskFor key id w ∧
    match r with
    | .ok read => (read.status.isTerminal = true → ConcludedAs key (outcomeOf read.status read.result) w) ∧
        (i + 1 = cfg.maxWaits → read.status.isTerminal = true)
    | .error (.task true _) => i + 1 ≠ cfg.maxWaits
    | .error _ => True

theorem WaitAnswer.later {i : Nat} {r : Except CallError TerminalRead} (h : WaitAnswer cfg key id i r w)
    (hl : Later w w') : WaitAnswer cfg key id i r w' := by
  obtain ⟨htask, hr⟩ := h
  refine ⟨htask.later hl, ?_⟩
  cases r with
  | ok read => exact ⟨fun hend => (hr.1 hend).later hl, hr.2⟩
  | error e =>
    cases e with
    | task isTransient m => cases isTransient <;> exact hr
    | compiler c m => trivial
    | builder c m => trivial
    | store c m => trivial

/-- One timely wait. -/
theorem wait_answer {cursor : Int} {i : Nat} {r : Except CallError TerminalRead} (hinv : OutcomeInv cfg w)
    (htask : TaskFor key id w) (h : (outcomeGround cfg).exec (.waitForTerminal id cursor i) w r w') :
    WaitAnswer cfg key id i r w' := by
  obtain ⟨inp, hexec, htimely⟩ := h
  have hfound : ∃ t, w.task? id = some t := by
    obtain ⟨t, ht, hid⟩ := htask
    cases hlook : w.task? id with
    | some t' => exact ⟨t', rfl⟩
    | none => exact absurd hid (of_decide_eq_false (Bool.eq_false_iff.mpr
        (List.find?_eq_none.mp hlook t (List.mem_of_find?_eq_some ht))))
  obtain ⟨t, ht⟩ := hfound
  have hseen := htimely t ht
  simp only [exec] at hexec
  split at hexec
  · obtain ⟨t', ht', heq⟩ := Option.map_eq_some_iff.mp hexec
    obtain rfl := Option.some.inj (ht.symm.trans ht')
    obtain ⟨rfl, rfl⟩ := Prod.mk.inj heq
    exact ⟨htask, fun hend => ⟨t, htask.lookup hinv ht, ⟨hend, hseen.1⟩, rfl⟩, hseen.2⟩
  · rename_i isTransient message arrived
    obtain ⟨rfl, rfl⟩ := Prod.mk.inj (Option.some.inj hexec)
    refine ⟨htask, ?_⟩
    cases isTransient with
    | true => exact hseen rfl
    | false => trivial
  · cases hexec

/-- **The waits** answer the outcome of the concluded task. -/
theorem waits_safe (left i : Nat) (cursor : Int) (hleft : 0 < left) (hcount : i + left = cfg.maxWaits) :
    Safe ((outcomeGround cfg).contract (OutcomePre cfg)) (TaskFor key id) (waits id left i cursor)
      (ConcludedAs key) (fun _ _ => True) := by
  induction left generalizing i cursor with
  | zero => exact absurd hleft (Nat.lt_irrefl 0)
  | succ left ih =>
    have hread : Safe ((outcomeGround cfg).contract (OutcomePre cfg)) (TaskFor key id)
        (attempt (call (.waitForTerminal id cursor i))) (fun r => WaitAnswer cfg key id i r) (fun _ _ => True) := by
      refine (safe_attempt (Q := fun read => WaitAnswer cfg key id i (.ok read))
        (E := fun e => WaitAnswer cfg key id i (.error e)) ?_).conseq (fun _ _ h => h) ?_ (fun _ _ _ h => h.elim)
      · refine Ground.await (G := outcomeGround cfg) (fun _ _ _ => trivial) ?_ ?_
        · intro w r w' hinv htask hex
          have hanswer := wait_answer hinv htask hex
          cases r with
          | ok read => exact hanswer
          | error e => exact hanswer
        · intro r w w' h hl _
          cases r with
          | ok read => exact WaitAnswer.later (r := .ok read) h hl
          | error e => exact WaitAnswer.later (r := .error e) h hl
      · intro r w _ h
        cases r with
        | ok read => exact h
        | error e => exact h
    -- another wait: one is left, since this one was not the last
    have hmore : ∀ cursor', i + 1 ≠ cfg.maxWaits → Safe ((outcomeGround cfg).contract (OutcomePre cfg))
        (TaskFor key id) (waits id left (i + 1) cursor') (ConcludedAs key) (fun _ _ => True) :=
      fun cursor' hlast => ih (i + 1) cursor' (by omega) (by omega)
    refine safe_bind hread fun read => ?_
    cases read with
    | ok r =>
      refine safe_ite (fun hend => safe_pure fun w _ h => h.2.1 hend) fun hopen => ?_
      exact safe_lift (fun w _ h => fun hlast => hopen (h.2.2 hlast)) fun hlast =>
        (hmore r.nextEventId hlast).pre fun w _ h => h.1
    | error e =>
      cases e with
      | task isTransient m =>
        cases isTransient with
        | true =>
          exact safe_lift (fun w _ h => h.2) fun hlast => (hmore cursor hlast).pre fun w _ h => h.1
        | false => exact safe_throw fun _ _ _ => trivial
      | compiler c m => exact safe_throw fun _ _ _ => trivial
      | builder c m => exact safe_throw fun _ _ _ => trivial
      | store c m => exact safe_throw fun _ _ _ => trivial

/-- The client's whole compile. -/
theorem modelCompile_safe (req : TaskRequest) (hwaits : 0 < cfg.maxWaits) :
    Safe ((outcomeGround cfg).contract (OutcomePre cfg)) (fun _ => True) (modelCompile cfg req)
      (fun r => ConcludedAs req.idempotencyKey r.2) (fun _ _ => True) := by
  refine safe_bind (Q := fun taskId => TaskFor req.idempotencyKey taskId) ?_ fun taskId => ?_
  · refine Ground.await (G := outcomeGround cfg) (fun _ _ _ => trivial) ?_ ?_
    · rintro w r w' - - ⟨inp, hexec, -⟩
      cases r with
      | ok taskId => exact createTask_answer hexec
      | error e => trivial
    · intro r w w' h hl _
      cases r with
      | ok taskId => exact TaskFor.later h hl
      | error e => trivial
  · exact safe_bind (waits_safe cfg.maxWaits 0 (-1) hwaits (Nat.zero_add _)) fun outcome => safe_pure fun _ _ h => h

/-- **A run of the compiler** finalizes its draft with the outcome of its concluded task. -/
theorem runCompile_concludes (d : Draft) (req : CompileRequest) (hwaits : 0 < cfg.maxWaits) :
    Safe ((outcomeGround cfg).contract (OutcomePre cfg)) (Stored d) (runCompile cfg d req) (fun _ _ => True)
      (fun _ _ => True) := by
  -- a stored draft and an outcome of its task are what a finalize needs
  have hfinal : ∀ {P : World → Prop} {p : Patch}, (∀ w, P w → Stored d w) → (∀ w, P w → Settled cfg d p w) →
      Safe ((outcomeGround cfg).contract (OutcomePre cfg)) P (call (.finalizeDraft d.draftId p)) (fun _ _ => True)
        (fun _ _ => True) := by
    intro P p hstored hsettled
    refine Ground.await (G := outcomeGround cfg) ?_ (fun _ r _ _ _ _ => by cases r <;> trivial)
      (fun r _ _ _ _ _ => by cases r <;> trivial)
    intro w _ hP d₁ hd₁
    obtain ⟨d', hd', hg⟩ := hstored w hP
    obtain rfl := Option.some.inj (hd'.symm.trans hd₁)
    exact (hsettled w hP).grows hg
  unfold runCompile
  refine safe_ite (fun hrefused => hfinal (fun _ h => h) fun w _ => ?_) fun _ => ?_
  · refine .inl ⟨rfl, req.compilerAgent, req.compilerNodeId, ?_⟩
    simpa using hrefused
  · refine safe_bind (Q := fun r w => ConcludedAs ("compile:" ++ d.draftId) r.2 w ∧ Stored d w) ?_ fun result => ?_
    · refine ((modelCompile_safe (taskRequest d req) hwaits).frame ?_ ?_).conseq (fun _ _ h => ⟨trivial, h⟩)
        (fun _ _ _ h => h) (fun _ _ _ _ => trivial)
      · exact fun w w' h hl => h.later hl
      · rintro op w r w' h ⟨inp, hexec, -⟩
        exact h.later (exec_change hexec).later
    · obtain ⟨taskId, outcome⟩ := result
      refine safe_bind (Q := fun _ w => ConcludedAs ("compile:" ++ d.draftId) outcome w ∧ Stored d w) ?_ fun _ => ?_
      · refine Ground.await (G := outcomeGround cfg) (fun _ _ _ => trivial) ?_ ?_
        · rintro w r w' - ⟨hc, hs⟩ ⟨inp, hexec, -⟩
          have hl := (exec_change hexec).later
          cases r with
          | ok u => exact ⟨hc.later hl, hs.later hl⟩
          | error e => trivial
        · intro r w w' h hl _
          cases r with
          | ok u => exact ⟨h.1.later hl, h.2.later hl⟩
          | error e => trivial
      · exact hfinal (fun _ h => h.2) fun w h => .inr ⟨outcome, h.1, rfl⟩

end

/-! ## Runs -/

/-- **Timely steps**: a wait that finds its task completed finds the result published, and the last wait of
    a client finds an end. -/
def Timely (cfg : Setup) (w : World) : (compiler cfg).Event → Prop
  | .exec _ op inp => TimelyOp cfg op inp w
  | _ => True

theorem outcome_fits {cfg : Setup} (hwaits : 0 < cfg.maxWaits) :
    Pool.Fits (compiler cfg) (Timely cfg) (outcomeGround cfg) (fun _ => OutcomePre cfg) (fun _ _ _ => True)
      (fun _ _ _ => True) where
  flags _ := rfl
  exec c op w inp r w' hinv hok hpre hexec :=
    ⟨⟨inp, hexec, hok⟩, hinv.change hpre (exec_change hexec), (exec_change hexec).later⟩
  move w m w' hinv _ hmove := ⟨hinv.drift (move_drift hmove), (move_drift hmove).later⟩
  call w c _ _ := by
    have hfaithful : Faithful (outcomeGround cfg) := by
      refine ⟨?_, fun _ _ h => h⟩
      rintro op w r w' ⟨inp, hexec, -⟩
      exact ⟨inp, hexec⟩
    have hcompile : ∀ req, Safe ((outcomeGround cfg).contract (OutcomePre cfg)) (fun _ => True) (compile cfg req)
        (fun _ _ => True) (fun _ _ => True) := by
      intro req
      refine compile_safe_of_run hfaithful ?_ (fun d => runCompile_concludes d req hwaits) fun _ _ _ _ _ => trivial
      intro op w hop _
      cases op <;> trivial
    refine program_safe cfg (fun _ => OutcomePre cfg) (fun _ _ _ => True) hcompile ?_ ?_ c
    · intro id hash
      exact (approve_every cfg id hash).safe fun op w hop _ => by cases op <;> trivial
    · intro input
      exact sendMessage_safe cfg (fun op w hop _ => by cases op <;> trivial)
        (fun _ _ _ _ _ _ => hcompile _) input

theorem outcomeInv_empty (cfg : Setup) (agent nodeId : Option String) : OutcomeInv cfg (.empty agent nodeId) where
  tasks := List.nodup_nil
  settled _ _ _ hd := nomatch hd

/-- **A finalized draft has the outcome of its task.**  In every timely run, in every state: a finalized
    draft was refused before a task was asked for, or its task has ended, with its result published if it
    completed, and the draft has what this end and this result determine. -/
theorem finalized_with_outcome {cfg : Setup} (hwaits : 0 < cfg.maxWaits) {agent nodeId : Option String}
    {s : (compiler cfg).State} (h : (compiler cfg).Reach (Timely cfg) (.empty agent nodeId) s) {id : String} {d : Draft}
    {p : Patch} (hd : s.w.draft? id = some d) (hp : d.content = some p) :
    (p = refusalPatch ∧ ∃ agent nodeId, enforceable d.inventory agent nodeId = false) ∨
      ∃ t, s.w.taskOf? ("compile:" ++ d.draftId) = some t ∧ t.status.isTerminal = true ∧
        (t.status = .completed → t.result.isSome = true) ∧
        p = outcomePatch cfg d.inventory (outcomeOf t.status t.result) := by
  have hinv := (Pool.reach_safe (outcome_fits hwaits) (outcomeInv_empty cfg agent nodeId) h).1
  rcases hinv.settled id d p hd hp with hrefused | ⟨outcome, ⟨t, ht, ⟨hend, hresult⟩, rfl⟩, hp⟩
  · exact .inl hrefused
  · exact .inr ⟨t, ht, hend, hresult, hp⟩

/-- The text of an answer that asks for more. -/
def answerText : String := "\x7b\"schema_version\":\"1\",\"status\":\"needs_input\"\x7d"

/-- The setup that reads this text. -/
def answeringSetup : Setup :=
  { plainSetup with
    jsonParse := fun text => if text = answerText then
      some (.obj [("schema_version", .str "1"), ("status", .str "needs_input")]) else none }

def oneAgent : Inventory := ⟨[⟨"codex", none, ["default"], false, [], none⟩], ""⟩

/-- A compile up to its task, `t`. -/
def startedTask : List (compiler answeringSetup).Action :=
  [.invoke (.compile (keyedRequest "a")), .exec 0 .run, .exec 0 (.inventory oneAgent), .exec 0 .run, .exec 0 (.created "t")]

/-- The result is published before the client reads. -/
def publishedFirst : List (compiler answeringSetup).Action :=
  startedTask ++ [.exec 0 (.waited 0), .move (.finish "t" .completed), .move (.publish "t" (.available answerText)),
    .exec 0 (.waited 1), .exec 0 .run, .exec 0 .run]

def timely (w : World) (e : (compiler answeringSetup).Event) : Bool :=
  match e with
  | .exec _ (.waitForTerminal id _ i) (.waited _) =>
    (w.task? id).all fun t => (t.status ≠ .completed || t.result.isSome) && (i + 1 ≠ 40 || t.status.isTerminal)
  | .exec _ (.waitForTerminal _ _ _) (.taskFail _ _ _) => false
  | _ => true

theorem timely_sound (w : World) (e : (compiler answeringSetup).Event) (h : timely w e = true) :
    Timely answeringSetup w e := by
  cases e with
  | exec c op inp =>
    cases op with
    | waitForTerminal id cursor i =>
      intro t ht
      cases inp with
      | waited next =>
        have hall : (w.task? id).all (fun t => (t.status ≠ .completed || t.result.isSome)
          && (i + 1 ≠ 40 || t.status.isTerminal)) = true := h
        rw [ht, Option.all_some, Bool.and_eq_true, Bool.or_eq_true, Bool.or_eq_true] at hall
        obtain ⟨hresult, hlast⟩ := hall
        refine ⟨fun hdone => ?_, fun hi => ?_⟩
        · exact hresult.resolve_left fun hne => of_decide_eq_true hne hdone
        · exact hlast.resolve_left fun hne => of_decide_eq_true hne hi
      | taskFail isTransient m arrived => exact nomatch h
      | _ => trivial
    | _ => trivial
  | _ => trivial

def askedForInput (s : (compiler answeringSetup).State) : Bool :=
  s.w.drafts.any fun d => s.w.draft? d.draftId = some d ∧ d.content.any (fun p => p.compilerStatus = .needsInput)

/-- A draft that was finalized with its task's published answer. -/
theorem published_answer_finalized : ∃ (s : (compiler answeringSetup).State) (d : Draft) (p : Patch) (t : AgentTask),
    (compiler answeringSetup).Reach (Timely answeringSetup) (.empty none none) s ∧ s.w.draft? d.draftId = some d ∧
      d.content = some p ∧ p.compilerStatus = .needsInput ∧ s.w.taskOf? ("compile:" ++ d.draftId) = some t ∧
      p = outcomePatch answeringSetup d.inventory (outcomeOf t.status t.result) := by
  obtain ⟨s, hs, hasked⟩ := Pool.reach_exists (compiler answeringSetup) (Timely answeringSetup) timely timely_sound
    (.empty none none) publishedFirst askedForInput (by decide +kernel)
  obtain ⟨d, -, hboth⟩ := List.any_eq_true.mp hasked
  obtain ⟨hd, hneeds⟩ := of_decide_eq_true hboth
  obtain ⟨p, hp, hstatus⟩ := (Option.any_eq_true _ _).mp hneeds
  have hstatus := of_decide_eq_true hstatus
  rcases finalized_with_outcome (by decide) hs hd hp with ⟨rfl, -⟩ | ⟨t, ht, -, -, hsame⟩
  · exact nomatch hstatus
  · exact ⟨s, d, p, t, hs, hd, hp, hstatus, ht, hsame⟩

/-! ## A read between the end and the result -/

/-- The client reads when the task has completed and its result is not yet published. -/
def readBetween : List (compiler answeringSetup).Action :=
  startedTask ++ [.move (.finish "t" .completed), .exec 0 (.waited 0), .exec 0 .run, .exec 0 .run,
    .move (.publish "t" (.available answerText))]

def answerLost (s : (compiler answeringSetup).State) : Bool :=
  s.w.drafts.any fun d => s.w.draft? d.draftId = some d ∧
    d.content = some (outcomePatch answeringSetup d.inventory .missing) ∧
    (s.w.taskOf? ("compile:" ++ d.draftId)).any (fun t => t.status = .completed ∧ t.result = some (.available answerText))

/-- A pending result finalizes the draft as failed, and is published later. -/
theorem pending_result_finalized :
    ¬ ∀ (cfg : Setup), 0 < cfg.maxWaits → ∀ (agent nodeId : Option String) (s : (compiler cfg).State),
      (compiler cfg).Reach (fun _ _ => True) (.empty agent nodeId) s →
      ∀ id d p t r, s.w.draft? id = some d → d.content = some p → s.w.taskOf? ("compile:" ++ d.draftId) = some t →
        t.status.isTerminal = true → t.result = some r →
        p = refusalPatch ∨ p = outcomePatch cfg d.inventory (outcomeOf t.status t.result) := by
  intro hall
  obtain ⟨s, hs, hlost⟩ := Pool.reach_exists (compiler answeringSetup) (fun _ _ => True) (fun _ _ => true)
    (fun _ _ _ => trivial) (.empty none none) readBetween answerLost (by decide +kernel)
  obtain ⟨d, -, hboth⟩ := List.any_eq_true.mp hlost
  obtain ⟨hd, hp, htask⟩ := of_decide_eq_true hboth
  obtain ⟨t, ht, hdone⟩ := (Option.any_eq_true _ _).mp htask
  obtain ⟨hstatus, hresult⟩ := of_decide_eq_true hdone
  have hend : t.status.isTerminal = true := by
    rw [hstatus]
    rfl
  have hclaim := hall answeringSetup (by decide) none none s hs _ d _ t _ hd hp ht hend hresult
  -- the published answer asks for input; the draft says that it is impossible
  have hanswer : (outcomePatch answeringSetup d.inventory (.available answerText)).compilerStatus = .needsInput := rfl
  rcases hclaim with hrefused | hsame
  · have hwarnings : some ["compiler produced no authoritative result"] = refusalPatch.warnings :=
      congrArg Patch.warnings hrefused
    exact absurd hwarnings (by decide)
  · rw [hstatus, hresult] at hsame
    exact nomatch (congrArg Patch.compilerStatus hsame).trans hanswer

end VibeCompiler
