import VibeWorkflow.CompileOutcomeProofs
import VibeWorkflow.StaticRoutingProofs

/-!
# An approval binds one workflow

An approval reads the draft, compares the hash, creates the workflow under an id that the draft's id
determines, and marks the draft: four operations, any of which may be the last before a crash, and between
any two of which another approval may do the same.

* `Sound` — what a valid content holds: a spec that a direct creation would accept, its inputs and its hash;
* `ApprovalInv` — a workflow under a draft's id has the draft's spec and inputs, and a marked draft has its
  workflow;
* `approve_binds` — what a successful approval leaves;
* **`approval_binds_one`** — in every run.
-/

namespace VibeCompiler

open VibeJson VibeContract VibeValidator VibeStore VibeAdmission AsyncLogic

/-! ## The invariant -/

/-- A valid content has its spec, its inputs and its hash, and a direct creation would accept them. -/
def Sound (cfg : Setup) (p : Patch) : Prop :=
  p.valid = true → ∃ spec values provided, p.spec = some spec ∧ p.inputValues = some values ∧
    p.specHash = some (canonicalHash cfg spec) ∧ createChecks spec (some provided) = some values

/-- The draft holds a valid content of this spec and these inputs, with this hash. -/
def Holds (w : World) (draftId : String) (spec : Json) (values : List (String × Json)) (hash : String) : Prop :=
  ∃ d p, w.draft? draftId = some d ∧ d.content = some p ∧ p.valid = true ∧ p.spec = some spec ∧
    p.inputValues = some values ∧ p.specHash = some hash

structure ApprovalInv (cfg : Setup) (w : World) : Prop where
  ids : (w.workflows.map WorkflowRecord.workflowId).Nodup
  sound : ∀ id d p, w.draft? id = some d → d.content = some p → Sound cfg p
  /-- A workflow under a draft's id has the draft's spec and inputs. -/
  origin : ∀ id f, w.workflow? (workflowIdOf cfg id) = some f →
    Holds w id f.spec f.inputValues (canonicalHash cfg f.spec)
  /-- A marked draft is marked with its own workflow. -/
  marked : ∀ id d workflowId, w.draft? id = some d → d.materializedWorkflowId = some workflowId →
    workflowId = workflowIdOf cfg id ∧ (w.workflow? workflowId).isSome = true

section

variable {cfg : Setup} {w w' : World} {id hash : String} {spec : Json} {values : List (String × Json)}

theorem workflowIdOf_inj {id id' : String} (h : workflowIdOf cfg id = workflowIdOf cfg id') : id = id' := by
  have hcancel : ∀ {p a b : String}, p ++ a = p ++ b → a = b := by
    intro p a b heq
    have hlist := congrArg String.toList heq
    rw [String.toList_append, String.toList_append] at hlist
    exact String.toList_inj.mp (List.append_cancel_left hlist)
  exact hcancel (cfg.workflowDigest_inj _ _ (hcancel h))

theorem Holds.later (h : Holds w id spec values hash) (hl : Later w w') : Holds w' id spec values hash := by
  obtain ⟨d, p, hd, hp, hparts⟩ := h
  obtain ⟨d', hd', hg⟩ := hl.drafts id d hd
  exact ⟨d', p, hd', hg.content p hp, hparts⟩

/-- The content of a draft is one. -/
theorem Holds.unique {spec' : Json} {values' : List (String × Json)} {hash' : String} (h : Holds w id spec values hash)
    (h' : Holds w id spec' values' hash') : spec = spec' ∧ values = values' ∧ hash = hash' := by
  obtain ⟨d, p, hd, hp, -, hspec, hvalues, hhash⟩ := h
  obtain ⟨d', p', hd', hp', -, hspec', hvalues', hhash'⟩ := h'
  obtain rfl := Option.some.inj (hd.symm.trans hd')
  obtain rfl := Option.some.inj (hp.symm.trans hp')
  exact ⟨Option.some.inj (hspec.symm.trans hspec'), Option.some.inj (hvalues.symm.trans hvalues'),
    Option.some.inj (hhash.symm.trans hhash')⟩

/-- The hash a draft holds is its spec's. -/
theorem Holds.sound (h : Holds w id spec values hash) (hinv : ApprovalInv cfg w) :
    hash = canonicalHash cfg spec ∧ ∃ provided, createChecks spec (some provided) = some values := by
  obtain ⟨d, p, hd, hp, hvalid, hspec, hvalues, hhash⟩ := h
  obtain ⟨spec', values', provided, hspec', hvalues', hhash', hchecks⟩ := hinv.sound id d p hd hp hvalid
  obtain rfl := Option.some.inj (hspec.symm.trans hspec')
  obtain rfl := Option.some.inj (hvalues.symm.trans hvalues')
  exact ⟨Option.some.inj (hhash.symm.trans hhash'), provided, hchecks⟩

/-- A change that leaves the workflows alone, and of the drafts their contents and marks. -/
theorem ApprovalInv.of_rows (h : ApprovalInv cfg w) (hl : Later w w') (hworkflows : w'.workflows = w.workflows)
    (hsound : ∀ id d p, w'.draft? id = some d → d.content = some p → Sound cfg p)
    (hmarked : ∀ id d workflowId, w'.draft? id = some d → d.materializedWorkflowId = some workflowId →
      workflowId = workflowIdOf cfg id ∧ (w.workflow? workflowId).isSome = true) : ApprovalInv cfg w' := by
  have hsame : ∀ id, w'.workflow? id = w.workflow? id := by
    intro id
    rw [World.workflow?, World.workflow?, hworkflows]
  refine ⟨?_, hsound, ?_, ?_⟩
  · rw [hworkflows]
    exact h.ids
  · intro id f hf
    rw [hsame] at hf
    exact (h.origin id f hf).later hl
  · intro id d workflowId hd hm
    rw [hsame]
    exact hmarked id d workflowId hd hm

/-- A change of one row. -/
theorem ApprovalInv.setDraft (h : ApprovalInv cfg w) {f : Draft → Draft} (hl : Later w (w.setDraft id f))
    (hf : ∀ d, (f d).draftId = d.draftId)
    (hsound : ∀ d p, w.draft? id = some d → (f d).content = some p → Sound cfg p)
    (hmarked : ∀ d workflowId, w.draft? id = some d → (f d).materializedWorkflowId = some workflowId →
      workflowId = workflowIdOf cfg id ∧ (w.workflow? workflowId).isSome = true) : ApprovalInv cfg
        (w.setDraft id f) := by
  refine h.of_rows hl rfl ?_ ?_
  · intro id' d' p hd' hp
    rw [draft?_set hf] at hd'
    obtain ⟨d, hd, rfl⟩ := Option.map_eq_some_iff.mp hd'
    by_cases hid : d.draftId = id
    · rw [if_pos hid] at hp
      exact hsound d p (hid ▸ draft?_id hd ▸ hd) hp
    · rw [if_neg hid] at hp
      exact h.sound id' d p hd hp
  · intro id' d' workflowId hd' hm
    rw [draft?_set hf] at hd'
    obtain ⟨d, hd, rfl⟩ := Option.map_eq_some_iff.mp hd'
    by_cases hid : d.draftId = id
    · rw [if_pos hid] at hm
      have hsame : id' = id := (draft?_id hd).symm.trans hid
      rw [hsame]
      exact hmarked d workflowId (hsame ▸ hd) hm
    · rw [if_neg hid] at hm
      exact h.marked id' d workflowId hd hm

/-- A workflow under a free id, which is the id of a draft that holds it, or of none. -/
theorem ApprovalInv.addWorkflow (h : ApprovalInv cfg w) {f : WorkflowRecord} (hfree : w.workflow? f.workflowId = none)
    (horigin : ∀ id, f.workflowId = workflowIdOf cfg id → Holds w id f.spec f.inputValues (canonicalHash cfg f.spec)) :
    ApprovalInv cfg { w with workflows := w.workflows ++ [f] } := by
  have hl : Later w { w with workflows := w.workflows ++ [f] } := addWorkflow_later f
  refine ⟨?_, h.sound, ?_, ?_⟩
  · rw [List.map_append, List.nodup_append]
    refine ⟨h.ids, List.nodup_singleton _, ?_⟩
    intro a ha b hb hab
    obtain ⟨g, hg, rfl⟩ := List.mem_map.mp ha
    rw [List.map_singleton, List.mem_singleton] at hb
    exact List.find?_eq_none.mp hfree g hg (decide_eq_true (hab.trans hb))
  · intro id g hg
    rw [workflow?_concat] at hg
    rcases Option.or_eq_some_iff.mp hg with hg | ⟨-, hnew⟩
    · exact (h.origin id g hg).later hl
    · split at hnew
      · rename_i hid
        obtain rfl := Option.some.inj hnew
        exact (horigin id hid).later hl
      · exact nomatch hnew
  · intro id d workflowId hd hm
    obtain ⟨hid, hsome⟩ := h.marked id d workflowId hd hm
    obtain ⟨g, hg⟩ := Option.isSome_iff_exists.mp hsome
    refine ⟨hid, ?_⟩
    rw [workflow?_concat, hg]
    rfl

end

/-! ## One operation -/

/-- What a call may name: a finalize with a sound content, and in an approval the creation and the mark of
    the draft's own workflow. -/
def ApprovalPre (cfg : Setup) (c : ApiCall) : Op → World → Prop
  | .finalizeDraft _ patch, _ => Sound cfg patch
  | .createWorkflow workflowId spec values, w => ∃ draftId hash, c = .approve draftId hash ∧
      workflowId = workflowIdOf cfg draftId ∧ Holds w draftId spec values hash
  | .approveDraftWithWorkflow id workflowId, w => workflowId = workflowIdOf cfg id ∧
    (w.workflow? workflowId).isSome = true
  | _, _ => True

/-- **Operations keep the invariant.** -/
theorem ApprovalInv.change {cfg : Setup} {c : ApiCall} {op : Op} {w w' : World} (h : ApprovalInv cfg w)
    (hpre : ApprovalPre cfg c op w) (hc : Change w op w') : ApprovalInv cfg w' := by
  have hl := hc.later
  cases hc with
  | same => exact h
  | @draft input free =>
    -- a new row has neither a content nor a mark
    have hrow : ∀ {id d}, World.draft? { w with drafts := w.drafts ++ [input.row] } id = some d →
        w.draft? id = some d ∨ d = input.row := by
      intro id d hd
      rw [draft?_concat] at hd
      rcases Option.or_eq_some_iff.mp hd with hd | ⟨-, hnew⟩
      · exact .inl hd
      · split at hnew
        · exact .inr (Option.some.inj hnew).symm
        · exact nomatch hnew
    refine h.of_rows hl rfl ?_ ?_
    · intro id d p hd hp
      rcases hrow hd with hd | rfl
      · exact h.sound id d p hd hp
      · exact nomatch hp
    · intro id d workflowId hd hm
      rcases hrow hd with hd | rfl
      · exact h.marked id d workflowId hd hm
      · exact nomatch hm
  | task noKey free => exact h.of_rows hl rfl h.sound h.marked
  | @bind id taskId capability d found unbound =>
    exact h.setDraft hl (fun _ => rfl) (fun d p hd hp => h.sound id d p hd hp)
      fun d workflowId hd hm => h.marked id d workflowId hd hm
  | @finalize id patch d found pending =>
    refine h.setDraft hl (fun _ => rfl) ?_ fun d workflowId hd hm => h.marked id d workflowId hd hm
    intro d p _ hp
    obtain rfl := Option.some.inj hp
    exact hpre
  | @workflow id spec values context free =>
    obtain ⟨draftId, hash, -, hid, hholds⟩ := hpre
    refine h.addWorkflow free ?_
    intro id' hid'
    obtain rfl := workflowIdOf_inj (hid.symm.trans hid')
    obtain ⟨rfl, -⟩ := hholds.sound h
    exact hholds
  | @approve id workflowId d found open' =>
    refine h.setDraft hl (fun _ => rfl) (fun d p hd hp => h.sound id d p hd hp) ?_
    intro d workflowId' _ hm
    obtain rfl := Option.some.inj hm
    exact hpre
  | append free turn => exact h.of_rows hl rfl h.sound h.marked
  | complete free revision => exact h.of_rows hl rfl h.sound h.marked

/-- **Fresh ids**: the random id of a workflow that is created directly is not the digest of a draft. -/
def FreshIds (cfg : Setup) (_w : World) : (compiler cfg).Event → Prop
  | .move (.direct id _ _) => ∀ draftId, id ≠ workflowIdOf cfg draftId
  | _ => True

theorem ApprovalInv.drift {cfg : Setup} {m : Move} {w w' : World} (h : ApprovalInv cfg w)
    (hfresh : FreshIds cfg w (.move m)) (hd : Drift w m w') : ApprovalInv cfg w' := by
  have hl := hd.later
  cases hd with
  | tasks grows => exact h.of_rows hl rfl h.sound h.marked
  | workflow checked free => exact h.addWorkflow free fun id hid => absurd hid (hfresh id)
  | @advance id status context =>
    have hkeep : ∀ f : WorkflowRecord,
        (if f.workflowId = id then { f with status := status, context := context } else f).workflowId =
          f.workflowId := by
      intro f
      split <;> rfl
    have hfind : ∀ id', World.workflow? { w with workflows := w.workflows.map (fun f => if f.workflowId = id then
        { f with status := status, context := context } else f) } id' = (w.workflow? id').map _ := fun id' =>
      find_map WorkflowRecord.workflowId hkeep id'
    refine ⟨?_, h.sound, ?_, ?_⟩
    · show ((w.workflows.map _).map WorkflowRecord.workflowId).Nodup
      rw [List.map_map, show WorkflowRecord.workflowId ∘ _ = WorkflowRecord.workflowId from funext hkeep]
      exact h.ids
    · intro id' f' hf'
      rw [hfind] at hf'
      obtain ⟨f, hf, rfl⟩ := Option.map_eq_some_iff.mp hf'
      have horigin := (h.origin id' f hf).later hl
      split
      · exact horigin
      · exact horigin
    · intro id' d workflowId hd' hm
      obtain ⟨hid, hsome⟩ := h.marked id' d workflowId hd' hm
      refine ⟨hid, ?_⟩
      rw [hfind, Option.isSome_map]
      exact hsome
  | archive => exact h.of_rows hl rfl h.sound h.marked

def approvalGround (cfg : Setup) : Ground sig World where
  inv := ApprovalInv cfg
  rely := Later
  rely_refl := Later.refl
  rely_trans := Later.trans
  exec op w r w' := ∃ inp, exec op w inp = some (r, w')
  flags _ := ()

/-! ## What a draft is finalized with -/

theorem invalidPatch_sound (cfg : Setup) (status : CompilerStatus) (warnings : List String) :
    Sound cfg (invalidPatch status warnings) := fun h => nomatch h

/-- **A compile finalizes with sound contents only.** -/
theorem outcomePatch_sound (cfg : Setup) (inventory : Inventory) (outcome : Outcome) :
    Sound cfg (outcomePatch cfg inventory outcome) := by
  cases outcome with
  | available text =>
    simp only [outcomePatch]
    split
    · exact invalidPatch_sound cfg _ _
    · rename_i result _
      split
      · exact fun h => nomatch h
      · split
        · exact fun h => nomatch h
        · rename_i values hvalues
          intro _
          exact ⟨result.workflowSpec, values, result.inputValues, rfl, rfl, rfl, validateReady_admits hvalues⟩
  | missing => exact invalidPatch_sound cfg _ _
  | invalid => exact invalidPatch_sound cfg _ _
  | failed => exact invalidPatch_sound cfg _ _

section

variable {cfg : Setup}

theorem compile_approvalSafe (c : ApiCall) (req : CompileRequest) :
    Safe ((approvalGround cfg).contract (ApprovalPre cfg c)) (fun _ => True) (compile cfg req) (fun _ _ => True)
      (fun _ _ => True) := by
  have hall : Js.Every (S := sig) (fun op => ∀ w, ApprovalPre cfg c op w) (compile cfg req) := by
    refine compile_every (fun op hop w => ?_) (fun id w => invalidPatch_sound cfg _ _)
      (fun id inventory outcome w => outcomePatch_sound cfg _ _) fun id w => trivial
    cases op <;> trivial
  exact hall.safe fun op w h _ => h w

/-! ## An approval -/

/-- An operation of a call, with what later worlds keep. -/
theorem call_keeps {c : ApiCall} {op : Op} {P : World → Prop} {Q : Ans op → World → Prop}
    (hP : ∀ w w', P w → Later w w' → P w') (hpre : ∀ w, ApprovalInv cfg w → P w → ApprovalPre cfg c op w)
    (hpost : ∀ w inp a w', P w → exec op w inp = some (.ok a, w') → Q a w')
    (hQ : ∀ a w w', Q a w → Later w w' → Q a w') :
    Safe ((approvalGround cfg).contract (ApprovalPre cfg c)) P (call op) (fun a w => Q a w ∧ P w) (fun _ w => P w) := by
  refine Ground.await (G := approvalGround cfg) hpre ?_ ?_
  · rintro w r w' - hw ⟨inp, hexec⟩
    have hlater := (exec_change hexec).later
    cases r with
    | ok a => exact ⟨hpost w inp a w' hw hexec, hP w w' hw hlater⟩
    | error e => exact hP w w' hw hlater
  · intro r w w' h hl _
    cases r with
    | ok a => exact ⟨hQ a w w' h.1 hl, hP w w' h.2 hl⟩
    | error e => exact hP w w' h hl

/-- The workflow is there. -/
def Materialized (id : String) (w : World) : Prop := (w.workflow? id).isSome = true

theorem Materialized.later {id : String} {w w' : World} (h : Materialized id w) (hl : Later w w') :
    Materialized id w' := by
  obtain ⟨f, hf⟩ := Option.isSome_iff_exists.mp h
  obtain ⟨f', hf', -⟩ := hl.workflows id f hf
  exact Option.isSome_iff_exists.mpr ⟨f', hf'⟩

/-- The read of a workflow. -/
theorem getWorkflow_keeps (c : ApiCall) (id : String) {P : World → Prop} (hP : ∀ w w', P w → Later w w' → P w') :
    Safe ((approvalGround cfg).contract (ApprovalPre cfg c)) P (call (.getWorkflow id))
      (fun found w => (found.isSome = true → Materialized id w) ∧ P w) (fun _ w => P w) := by
  refine call_keeps hP (fun _ _ _ => trivial) ?_ fun found w w' h hl hsome => (h hsome).later hl
  intro w inp found w' _ hexec hsome
  have hread : storeCall w inp (.ok (w, w.workflow? id)) = some (.ok found, w') := hexec
  rcases storeRead_cases hread with ⟨rfl, hok | ⟨_, _, he⟩⟩
  · rw [Except.ok.inj hok] at hsome
    exact hsome
  · exact nomatch he

/-- **The workflow is there when it has been materialized**, by this call or by another. -/
theorem materialize_safe {draftId hash : String} {spec : Json} {values : List (String × Json)} :
    Safe ((approvalGround cfg).contract (ApprovalPre cfg (.approve draftId hash)))
      (fun w => Holds w draftId spec values hash) (materializeWorkflow (workflowIdOf cfg draftId) spec values)
      (fun _ w => Materialized (workflowIdOf cfg draftId) w ∧ Holds w draftId spec values hash) (fun _ _ => True) := by
  have hP : ∀ w w', Holds w draftId spec values hash → Later w w' → Holds w' draftId spec values hash :=
    fun _ _ h hl => h.later hl
  have hany : ∀ {α : Type} {P : World → Prop} {m : Call α} {Q : α → World → Prop} {E : CallError → World → Prop},
      Safe ((approvalGround cfg).contract (ApprovalPre cfg (.approve draftId hash))) P m Q E →
      Safe ((approvalGround cfg).contract (ApprovalPre cfg (.approve draftId hash))) P m Q (fun _ _ => True) :=
    fun h => h.conseq (fun _ _ h => h) (fun _ _ _ h => h) (fun _ _ _ _ => trivial)
  refine safe_bind (hany (getWorkflow_keeps _ _ hP)) fun found => ?_
  refine safe_ite (fun hsome => safe_pure fun w _ h => ⟨h.1 hsome, h.2⟩) fun _ => ?_
  have hcreate : Safe ((approvalGround cfg).contract (ApprovalPre cfg (.approve draftId hash)))
      (fun w => Holds w draftId spec values hash) (call (.createWorkflow (workflowIdOf cfg draftId) spec values))
      (fun _ w => Materialized (workflowIdOf cfg draftId) w ∧ Holds w draftId spec values hash)
      (fun _ w => Holds w draftId spec values hash) := by
    refine call_keeps (Q := fun _ w => Materialized (workflowIdOf cfg draftId) w) hP
      (fun w _ h => ⟨draftId, hash, rfl, rfl, h⟩) ?_ (fun _ _ _ h hl => h.later hl)
    intro w inp u w' _ hexec
    have hexec : storeCall w inp (createWorkflow w (workflowIdOf cfg draftId) spec values) = some (.ok u, w') := hexec
    rcases storeCall_cases hexec with ⟨a, hrun, -⟩ | ⟨e, -, he, -⟩ | ⟨_, _, he, -⟩
    · obtain ⟨-, context, rfl⟩ := createWorkflow_cases hrun
      show (World.workflow? _ _).isSome = true
      rw [workflow?_concat, if_pos rfl]
      cases w.workflow? (workflowIdOf cfg draftId) <;> rfl
    · exact nomatch he
    · exact nomatch he
  -- a creation that fails may have lost against another approval, so the workflow is read again
  refine safe_bind (Q := fun made w => (∀ u, made = .ok u → Materialized (workflowIdOf cfg draftId) w) ∧
    Holds w draftId spec values hash) ?_ fun made => ?_
  · refine (safe_attempt hcreate).conseq (fun _ _ h => h.2) ?_ (fun _ _ _ h => h.elim)
    intro made w _ h
    cases made with
    | ok u => exact ⟨fun _ _ => h.1, h.2⟩
    | error e => exact ⟨fun _ hok => (nomatch hok), h⟩
  · cases made with
    | ok u => exact safe_pure fun w _ h => ⟨h.1 u rfl, h.2⟩
    | error e =>
      refine safe_bind (hany ((getWorkflow_keeps _ _ hP).pre fun _ _ h => h.2)) fun again => ?_
      exact safe_ite (fun hsome => safe_pure fun w _ h => ⟨h.1 hsome, h.2⟩) fun _ => safe_throw fun _ _ _ => trivial

/-- The workflow of a draft, with the hash of its spec. -/
def Bound (cfg : Setup) (w : World) (draftId hash : String) : Prop :=
  ∃ f, w.workflow? (workflowIdOf cfg draftId) = some f ∧ canonicalHash cfg f.spec = hash

/-- The hash that a draft holds is that of its workflow. -/
theorem ApprovalInv.bound {w : World} {draftId hash : String} {spec : Json} {values : List (String × Json)}
    (h : ApprovalInv cfg w) (hmade : Materialized (workflowIdOf cfg draftId) w)
    (hholds : Holds w draftId spec values hash) :
    Bound cfg w draftId hash := by
  obtain ⟨f, hf⟩ := Option.isSome_iff_exists.mp hmade
  obtain ⟨-, -, hhash⟩ := (h.origin draftId f hf).unique hholds
  exact ⟨f, hf, hhash⟩

/-- **What a successful approval leaves**: its draft's workflow, with the hash that was inspected. -/
theorem approve_binds (draftId hash : String) :
    Safe ((approvalGround cfg).contract (ApprovalPre cfg (.approve draftId hash))) (fun _ => True)
      (approve cfg draftId hash) (fun r w => r.2 = workflowIdOf cfg draftId ∧ Bound cfg w draftId hash)
      (fun _ _ => True) := by
  have hread : Safe ((approvalGround cfg).contract (ApprovalPre cfg (.approve draftId hash))) (fun _ => True)
      (call (.getDraft draftId))
      (fun found w => (∀ d, found = some d → ∃ d', w.draft? draftId = some d' ∧ d.Grows d') ∧
        True) (fun _ _ => True) := by
    refine call_keeps (P := fun _ => True) (fun _ _ _ _ => trivial) (fun _ _ _ => trivial) ?_ ?_
    · intro w inp found w' _ hexec d hfound
      have hread : storeCall w inp (.ok (w, w.draft? draftId)) = some (.ok found, w') := hexec
      rcases storeRead_cases hread with ⟨rfl, hok | ⟨_, _, he⟩⟩
      · exact ⟨d, (Except.ok.inj hok).symm.trans hfound, .refl d⟩
      · cases he
    · intro found w w' h hl d hfound
      obtain ⟨d₁, hd₁, hg⟩ := h d hfound
      obtain ⟨d₂, hd₂, hg'⟩ := hl.drafts _ _ hd₁
      exact ⟨d₂, hd₂, hg.trans hg'⟩
  refine safe_bind (Q := fun found w => ∀ d, found = some d → ∃ d', w.draft? draftId = some d' ∧ d.Grows d')
    (hread.conseq (fun _ _ h => h) (fun _ _ _ h => h.1) (fun _ _ _ h => h)) fun found => ?_
  cases found with
  | none => exact safe_throw fun _ _ _ => trivial
  | some d =>
    dsimp only
    split
    · rename_i workflowId hmarked
      refine safe_ite (fun _ => safe_throw fun _ _ _ => trivial) fun hhash => safe_pure fun w hi h => ?_
      -- a marked draft has its workflow, which has the draft's hash
      obtain ⟨d', hd', hg⟩ := h d rfl
      have hi : ApprovalInv cfg w := hi
      obtain ⟨rfl, hmade⟩ := hi.marked draftId d' workflowId hd' (hg.workflow workflowId hmarked)
      obtain ⟨f, hf⟩ := Option.isSome_iff_exists.mp hmade
      obtain ⟨d₁, p, hd₁, hp, -, -, -, hpart⟩ := hi.origin draftId f hf
      obtain rfl := Option.some.inj (hd₁.symm.trans hd')
      obtain ⟨p', hp', hhash'⟩ := Option.bind_eq_some_iff.mp (not_not.mp hhash)
      obtain rfl := Option.some.inj ((hg.content p' hp').symm.trans hp)
      exact ⟨rfl, f, hf, Option.some.inj (hpart.symm.trans hhash')⟩
    · split
      · exact safe_throw fun _ _ _ => trivial
      · rename_i p hp
        refine safe_ite (fun _ => safe_throw fun _ _ _ => trivial) fun happrovable =>
          safe_ite (fun _ => safe_throw fun _ _ _ => trivial) fun hhash => ?_
        have hvalid : p.valid = true := by
          by_contra hinvalid
          exact happrovable (.inr (.inl (Bool.not_eq_true _ ▸ hinvalid)))
        -- the hash that was inspected is the draft's
        have hholds : ∀ w, ApprovalInv cfg w → (∀ d₁, some d = some d₁ →
          ∃ d', w.draft? draftId = some d' ∧ d₁.Grows d') →
            Holds w draftId (p.spec.getD .null) (p.inputValues.getD []) hash := by
          intro w hi h
          obtain ⟨d', hd', hg⟩ := h d rfl
          obtain ⟨spec, values, provided, hspec, hvalues, -, -⟩ := hi.sound draftId d' p hd' (hg.content p hp) hvalid
          refine ⟨d', p, hd', hg.content p hp, hvalid, ?_, ?_, not_not.mp hhash⟩
          · rw [hspec]
            rfl
          · rw [hvalues]
            rfl
        refine safe_bind (materialize_safe.pre fun w hi h => hholds w hi h) fun _ => ?_
        refine safe_bind (Q := fun _ w => Materialized (workflowIdOf cfg draftId) w ∧
            Holds w draftId (p.spec.getD .null) (p.inputValues.getD []) hash)
          ((call_keeps (Q := fun _ _ => True) ?_ ?_ (fun _ _ _ _ _ _ => trivial) (fun _ _ _ _ _ => trivial)).conseq
            (fun _ _ h => h) (fun _ _ _ h => h.2) (fun _ _ _ _ => trivial)) fun updated => ?_
        · exact fun w w' h hl => ⟨h.1.later hl, h.2.later hl⟩
        · exact fun w _ h => ⟨rfl, h.1⟩
        · exact safe_pure fun w hi h => ⟨rfl, ApprovalInv.bound hi h.1 h.2⟩

end

/-! ## Runs -/

def ApprovalPost (cfg : Setup) : ApiCall → Result → World → Prop
  | .approve draftId hash, .approved _ workflowId, w => workflowId = workflowIdOf cfg draftId ∧ Bound cfg w draftId hash
  | _, _, _ => True

theorem approval_fits (cfg : Setup) :
    Pool.Fits (compiler cfg) (FreshIds cfg) (approvalGround cfg) (ApprovalPre cfg) (ApprovalPost cfg)
      (fun _ _ _ => True) where
  flags _ := rfl
  exec c op w inp r w' hinv _ hpre hexec :=
    ⟨⟨inp, hexec⟩, ApprovalInv.change hinv hpre (exec_change hexec), (exec_change hexec).later⟩
  move w m w' hinv hok hmove := ⟨ApprovalInv.drift hinv hok (move_drift hmove), (move_drift hmove).later⟩
  call w c _ _ := by
    refine program_safe cfg (ApprovalPre cfg) (ApprovalPost cfg) ?_ ?_ ?_ c
    · exact fun req => compile_approvalSafe _ req
    · exact fun id hash => approve_binds id hash
    · intro input
      refine sendMessage_safe cfg ?_ (fun _ _ _ _ _ _ => compile_approvalSafe _ _) input
      intro op w hop _
      cases op <;> trivial

theorem approvalInv_empty (cfg : Setup) (agent nodeId : Option String) : ApprovalInv cfg (.empty agent nodeId) where
  ids := List.nodup_nil
  sound _ _ _ hd := nomatch hd
  origin _ _ hf := nomatch hf
  marked _ _ _ hd := nomatch hd

/-- A workflow that is new after a step was created ready: directly, or by an approval of the draft whose id it has,
    with the hash that this approval was given. -/
def CreatedBy (cfg : Setup) (e : (compiler cfg).Event) (f : WorkflowRecord) : Prop :=
  f.status = .ready ∧
    ((∃ spec provided, e = .move (.direct f.workflowId spec provided)) ∨
      ∃ draftId hash spec values inp, e = .exec (.approve draftId hash) (.createWorkflow f.workflowId spec values) inp ∧
        f.workflowId = workflowIdOf cfg draftId ∧ canonicalHash cfg f.spec = hash)

/-- **One workflow a draft**, in a state of a run. -/
structure BindsOne (cfg : Setup) (s : (compiler cfg).State) : Prop where
  /-- No two workflows share an id. -/
  ids : (s.w.workflows.map WorkflowRecord.workflowId).Nodup
  /-- The workflow of a draft has its spec and inputs, which a direct creation would accept. -/
  origin : ∀ draftId f, s.w.workflow? (workflowIdOf cfg draftId) = some f →
    Holds s.w draftId f.spec f.inputValues (canonicalHash cfg f.spec) ∧
      ∃ provided, createChecks f.spec (some provided) = some f.inputValues
  /-- Every successful approval of a draft returns its one workflow, with the inspected hash. -/
  approved : ∀ draftId hash d workflowId fl,
    ⟨.approve draftId hash, .ret (.ok (.approved d workflowId), fl)⟩ ∈ s.serving →
      workflowId = workflowIdOf cfg draftId ∧ Bound cfg s.w draftId hash
  created : ∀ a e s', (compiler cfg).step s a = some (e, s') → ∀ id f, s.w.workflow? id = none →
    s'.w.workflow? id = some f → CreatedBy cfg e f
  /-- Nothing that follows takes it away or changes what executes. -/
  kept : ∀ a e s', (compiler cfg).step s a = some (e, s') → ∀ id f, s.w.workflow? id = some f →
    ∃ f', s'.w.workflow? id = some f' ∧ f.Grows f'

section

variable {cfg : Setup} {s s' : (compiler cfg).State} {a : (compiler cfg).Action} {e : (compiler cfg).Event}

/-- The operation that adds a workflow. -/
theorem Change.creates {op : Op} {w w' : World} {id : String} {f : WorkflowRecord} (hc : Change w op w')
    (hold : w.workflow? id = none) (hnew : w'.workflow? id = some f) :
    ∃ context, op = .createWorkflow f.workflowId f.spec f.inputValues ∧
      f = ⟨f.workflowId, f.spec, f.inputValues, context, .ready⟩ := by
  cases hc with
  | @workflow id' spec values context free =>
    rw [workflow?_concat, hold, Option.none_or] at hnew
    split at hnew
    · obtain rfl := Option.some.inj hnew
      exact ⟨context, rfl, rfl⟩
    · exact nomatch hnew
  | _ => exact nomatch hold.symm.trans hnew

/-- The move that adds a workflow. -/
theorem Drift.creates {m : Move} {w w' : World} {id : String} {f : WorkflowRecord} (hd : Drift w m w')
    (hold : w.workflow? id = none) (hnew : w'.workflow? id = some f) :
    f.status = .ready ∧ ∃ spec provided, m = .direct f.workflowId spec provided := by
  cases hd with
  | tasks grows => exact nomatch hold.symm.trans hnew
  | @workflow id' spec provided values context checked free =>
    rw [workflow?_concat, hold, Option.none_or] at hnew
    split at hnew
    · obtain rfl := Option.some.inj hnew
      exact ⟨rfl, spec, provided, rfl⟩
    · exact nomatch hnew
  | @advance id' status context =>
    have hkeep : ∀ f : WorkflowRecord,
        (if f.workflowId = id' then { f with status := status, context := context } else f).workflowId =
          f.workflowId := by
      intro f
      split <;> rfl
    have hfind : World.workflow? { w with workflows := w.workflows.map (fun f => if f.workflowId = id' then
        { f with status := status, context := context } else f) } id =
          (w.workflow? id).map _ := find_map WorkflowRecord.workflowId hkeep id
    rw [hold] at hfind
    exact nomatch hfind.symm.trans hnew
  | archive => exact nomatch hold.symm.trans hnew

theorem step_later (h : (compiler cfg).step s a = some (e, s')) : Later s.w s'.w := by
  rcases Pool.step_cases h with ⟨c, -, hw, -⟩ | ⟨c, op, k, inp, r, i, -, -, hexec, -⟩ | ⟨m, -, hmove, -⟩ | ⟨-, hw, -⟩
  · exact hw ▸ .refl s.w
  · exact (exec_change hexec).later
  · exact (move_drift hmove).later
  · exact hw ▸ .refl s.w

theorem step_move {m : Move} {w' : World} (h : move s.w m = some w') :
    (compiler cfg).step s (.move m) = some (.move m, { s with w := w' }) := by
  have hmove : (compiler cfg).move s.w m = some w' := h
  simp only [Pool.step]
  rw [hmove]

/-- **A step that adds a workflow** is a direct creation, or an approval's. -/
theorem step_creates (hinv : ApprovalInv cfg s.w)
    (hpre : ∀ c op k, ⟨c, .call op k⟩ ∈ s.serving → ApprovalPre cfg c op s.w)
    (h : (compiler cfg).step s a = some (e, s')) {id : String} {f : WorkflowRecord} (hold : s.w.workflow? id = none)
    (hnew : s'.w.workflow? id = some f) : CreatedBy cfg e f := by
  rcases Pool.step_cases h with ⟨c, -, hw, -⟩ | ⟨c, op, k, inp, r, i, rfl, hget, hexec, -⟩ | ⟨m, rfl, hmove, -⟩ |
    ⟨-, hw, -⟩
  · rw [hw, hold] at hnew
    exact nomatch hnew
  · obtain ⟨context, rfl, hf⟩ := (exec_change hexec).creates hold hnew
    obtain ⟨draftId, hash, rfl, hid, hholds⟩ := hpre c _ k (List.mem_of_getElem? hget)
    refine ⟨congrArg WorkflowRecord.status hf, .inr ⟨draftId, hash, f.spec, f.inputValues, inp, rfl, hid, ?_⟩⟩
    exact (hholds.sound hinv).1.symm
  · obtain ⟨hready, spec, provided, rfl⟩ := (move_drift hmove).creates hold hnew
    exact ⟨hready, .inl ⟨spec, provided, rfl⟩⟩
  · rw [hw, hold] at hnew
    exact nomatch hnew

end

/-- **An approval binds exactly one workflow.**  In every run whose random ids are fresh, with calls, crashes and
    everything else at any moments: a draft has at most one workflow, created ready and not started, by an approval that
    was given the hash of its spec; it has the draft's spec and inputs, which a direct creation accepts; and every
    approval of the draft that succeeds returns it. -/
theorem approval_binds_one {cfg : Setup} {agent nodeId : Option String} {s : (compiler cfg).State}
    (h : (compiler cfg).Reach (FreshIds cfg) (.empty agent nodeId) s) : BindsOne cfg s := by
  have hinv : ApprovalInv cfg s.w := (Pool.reach_safe (approval_fits cfg) (approvalInv_empty cfg agent nodeId) h).1
  refine ⟨hinv.ids, ?_, ?_, ?_, ?_⟩
  · intro draftId f hf
    have hholds := hinv.origin draftId f hf
    exact ⟨hholds, (hholds.sound hinv).2⟩
  · intro draftId hash d workflowId fl hret
    exact Pool.reach_result (approval_fits cfg) (approvalInv_empty cfg agent nodeId) h hret
  · intro a e s' hstep id f hold hnew
    refine step_creates hinv (fun c op k hcall => ?_) hstep hold hnew
    exact Pool.reach_pre (approval_fits cfg) (approvalInv_empty cfg agent nodeId) h hcall
  · intro a e s' hstep id f hf
    exact (step_later hstep).workflows id f hf

/-! ## A workflow beside the drafts -/

/-- The compiler's answer with this spec, and the setup that reads its text. -/
def readyAnswer : Json :=
  .obj [("schema_version", .str "1"), ("status", .str "ready"), ("workflow_spec", oneStepSpec), ("input_values", .obj [])]

def readyText : String := stringify readyAnswer

def readySetup : Setup :=
  { plainSetup with jsonParse := fun text => if text = readyText then some readyAnswer else none }

/-- The compiler's agent and the role's. -/
def bothAgents : Inventory :=
  ⟨[⟨"codex", none, ["default"], false, [], none⟩, ⟨"x", none, ["default"], false, [], none⟩], ""⟩

def readyHash : String := canonicalHash readySetup oneStepSpec

def readyPatch : Patch :=
  ⟨.ready, true, some oneStepSpec, some [], some readyHash, some (buildPolicySummary oneStepSpec),
    some (canonicalHash readySetup (buildPolicySummary oneStepSpec)), some (buildPreview oneStepSpec), some (.obj []),
    some [], some []⟩

theorem trim_object (kvs : List (String × Json)) : trim (stringify (.obj kvs)) = stringify (.obj kvs) := by
  have hchars : trimChars (textChars (.obj kvs)) = textChars (.obj kvs) := by
    have htext : textChars (.obj kvs) = '\x7b' :: (textCharsFields kvs ++ ['\x7d']) := rfl
    rw [htext, trimChars, List.dropWhile_cons_of_neg (by decide), List.reverse_cons, List.reverse_append]
    show (List.dropWhile isJsSpace ('\x7d' :: ((textCharsFields kvs).reverse ++ ['\x7b']))).reverse = _
    rw [List.dropWhile_cons_of_neg (by decide), List.reverse_cons, List.reverse_append, List.reverse_reverse]
    rfl
  rw [trim, stringify, String.toList_ofList, hchars]

theorem trim_readyText : trim readyText = readyText := by
  unfold readyText readyAnswer
  exact trim_object _

theorem validate_ready : validateReady oneStepSpec (.obj []) bothAgents defaultSystemPolicy = .ok [] := by
  have hvalues : (validateReady oneStepSpec (.obj []) bothAgents defaultSystemPolicy).toOption = some [] := by
    decide +kernel
  cases h : validateReady oneStepSpec (.obj []) bothAgents defaultSystemPolicy with
  | ok values =>
    rw [h] at hvalues
    rw [Option.some.inj hvalues]
  | error issues =>
    rw [h] at hvalues
    cases hvalues

theorem read_readyText : readySetup.jsonParse readyText = some readyAnswer := by
  simp only [readySetup, if_true]

theorem parse_readyText :
    parseCompilerResult readySetup.jsonParse readyText = .ok ⟨.ready, oneStepSpec, .obj [], .obj [], [], []⟩ := by
  have hhead : ¬ readyText.toList.head? ≠ some '\x7b' := by
    rw [readyText, stringify, String.toList_ofList]
    exact fun h => h rfl
  rw [parseCompilerResult, trim_readyText, if_neg hhead, read_readyText]
  with_unfolding_all rfl

/-- What a draft is finalized with when the answer is ready and accepted. -/
theorem outcomePatch_ready {cfg : Setup} {inventory : Inventory} {text : String} {result : CompilerResult}
    {values : List (String × Json)} (hparse : parseCompilerResult cfg.jsonParse text = .ok result)
    (hready : result.status = .ready)
    (hvalid : validateReady result.workflowSpec result.inputValues inventory cfg.policy = .ok values) :
    outcomePatch cfg inventory (.available text) =
      ⟨.ready, true, some result.workflowSpec, some values, some (canonicalHash cfg result.workflowSpec),
        some (buildPolicySummary result.workflowSpec),
        some (canonicalHash cfg (buildPolicySummary result.workflowSpec)), some (buildPreview result.workflowSpec),
        some result.rationale, some result.warnings, some result.questions⟩ := by
  simp only [outcomePatch, hparse, hvalid, hready, ne_eq, not_true_eq_false, if_false]

theorem outcome_ready : outcomePatch readySetup bothAgents (.available readyText) = readyPatch :=
  outcomePatch_ready parse_readyText rfl validate_ready

/-- A draft of the keyed request, with its content. -/
def compiledDraft (content : Option Patch) : Draft :=
  ⟨keyedDraftId readySetup "k", some "k", (keyedRequest "a").fingerprint readySetup, .obj [], bothAgents,
    canonicalHash readySetup bothAgents.json, some "t", some (capabilityOf "codex" none), content, none⟩

def compiledWorld (content : Option Patch) : World :=
  { World.empty none none with
    drafts := [compiledDraft content]
    tasks := [⟨"t", taskRequest (compiledDraft none) (keyedRequest "a"), .completed, some (.available readyText)⟩] }

/-- The id of no draft's workflow starts like this one. -/
theorem fresh_f (draftId : String) : "f" ≠ workflowIdOf readySetup draftId := by
  intro hid
  have hstart := congrArg String.toList hid
  rw [workflowIdOf, String.toList_append] at hstart
  exact absurd (List.cons.inj hstart).1 (by decide)

def freshIds (_ : World) (e : (compiler readySetup).Event) : Bool :=
  match e with
  | .move (Move.direct id _ _) => id = "f"
  | _ => true

theorem freshIds_sound (w : World) (e : (compiler readySetup).Event) (h : freshIds w e = true) :
    FreshIds readySetup w e := by
  cases e with
  | move m =>
    cases m with
    | direct id spec provided =>
      obtain rfl : id = "f" := of_decide_eq_true h
      exact fresh_f
    | _ => trivial
  | _ => trivial

/-- A compile whose task answers, up to its finalize. -/
def compileToFinalize : List (compiler readySetup).Action :=
  [.invoke (.compile (keyedRequest "a")), .exec 0 .run, .exec 0 (.inventory bothAgents), .exec 0 .run,
    .exec 0 (.created "t"), .move (.finish "t" .completed), .move (.publish "t" (.available readyText)),
    .exec 0 (.waited 0), .exec 0 .run]

/-- What is left of the compile when it comes to its finalize. -/
def finalizing : (compiler readySetup).State :=
  ⟨compiledWorld none, [⟨.compile (keyedRequest "a"),
    ((call (.finalizeDraft (keyedDraftId readySetup "k") (outcomePatch readySetup bothAgents (.available readyText))) >>=
      fun d => (pure (.draft d) : Call Result)) ())⟩]⟩

theorem run_finalizing : Pool.runWhile (compiler readySetup) freshIds ⟨.empty none none, []⟩
    compileToFinalize = some finalizing := by
  with_unfolding_all rfl

theorem finalizing_reached :
    (compiler readySetup).Reach (FreshIds readySetup) (.empty none none) finalizing :=
  Pool.reach_of_runWhile freshIds_sound .start run_finalizing

/-- What is left of an approval whose draft is ready. -/
def approving (cfg : Setup) (draftId : String) (p : Patch) : Call Result := do
  let (d, workflowId) ← (do
    materializeWorkflow (workflowIdOf cfg draftId) (p.spec.getD .null) (p.inputValues.getD [])
    let updated : Draft ← call (.approveDraftWithWorkflow draftId (workflowIdOf cfg draftId))
    pure (updated, workflowIdOf cfg draftId))
  pure (.approved d workflowId)

/-- **An approval with the draft's own hash** goes on to its workflow. -/
theorem approve_ready {cfg : Setup} {draftId hash : String} {d : Draft} {p : Patch}
    (hopen : d.materializedWorkflowId = none)
    (hp : d.content = some p) (hready : p.compilerStatus = .ready) (hvalid : p.valid = true)
    (hhash : p.specHash = some hash) (hne : hash ≠ "") :
    ∃ k, ApiCall.program cfg (.approve draftId hash) () = .call (.getDraft draftId) k ∧
      k (.ok (some d)) () = approving cfg draftId p () := by
  refine ⟨_, rfl, ?_⟩
  have happrovable : ¬ (p.compilerStatus ≠ .ready ∨ p.valid = false ∨ p.specHash = none ∨ p.specHash = some "") := by
    rw [hready, hvalid, hhash]
    rintro (h | h | h | h)
    · exact h rfl
    · cases h
    · cases h
    · exact hne (Option.some.inj h)
  dsimp only [Prog.bind]
  simp only [hopen, hp]
  rw [if_neg happrovable, if_neg (not_not.mpr hhash)]
  rfl

theorem create_ready : (VibeAdmission.createWorkflow oneStepSpec []).toOption.isSome = true := by
  decide +kernel

theorem createWorkflow_ready {w : World} {id : String} {spec : Json} {values : List (String × Json)}
    {st : StoredWorkflow}
    (hst : VibeAdmission.createWorkflow spec values = .ok st) (hfree : w.workflow? id = none) :
    createWorkflow w id spec values =
      .ok ({ w with workflows := w.workflows ++ [⟨id, spec, values, st.context, .ready⟩] }, ()) := by
  unfold createWorkflow
  rw [hfree, hst]
  rfl

theorem move_direct {w : World} {id : String} {spec : Json} {provided : Option Json} {values : List (String × Json)}
    {st : StoredWorkflow} (hchecks : createChecks spec provided = some values)
    (hst : VibeAdmission.createWorkflow spec values = .ok st) (hfree : w.workflow? id = none) :
    move w (.direct id spec provided) =
      some { w with workflows := w.workflows ++ [⟨id, spec, values, st.context, .ready⟩] } := by
  simp only [move, hchecks, createWorkflow_ready hst hfree]

theorem readyHash_ne : readyHash ≠ "" := by
  intro h
  have hchars := congrArg String.toList h
  rw [readyHash, show canonicalHash readySetup oneStepSpec = stringify (canonicalize oneStepSpec) from rfl, stringify,
    String.toList_ofList] at hchars
  cases hchars

/-- A draft that was compiled and approved, a workflow that was created directly beside it, and what holds
    of them. -/
theorem approved_workflow_bound : ∃ (s : (compiler readySetup).State) (d : Draft) (workflowId : String),
    (compiler readySetup).Reach (FreshIds readySetup) (.empty none none) s ∧ (s.w.workflow? "f").isSome = true ∧
      ⟨.approve (keyedDraftId readySetup "k") readyHash, .ret (.ok (.approved d workflowId), ())⟩ ∈ s.serving ∧
      (s.w.workflow? workflowId).isSome = true ∧ BindsOne readySetup s := by
  let draftId := keyedDraftId readySetup "k"
  let workflowId := workflowIdOf readySetup draftId
  let w := compiledWorld (some readyPatch)
  let compile : (compiler readySetup).Serving :=
    ⟨.compile (keyedRequest "a"), .ret (.ok (.draft (compiledDraft (some readyPatch))), ())⟩
  obtain ⟨st, hst⟩ : ∃ st, VibeAdmission.createWorkflow oneStepSpec [] = .ok st := by
    have hok := create_ready
    cases hc : VibeAdmission.createWorkflow oneStepSpec [] with
    | ok st => exact ⟨st, rfl⟩
    | error e =>
      rw [hc] at hok
      cases hok
  obtain ⟨k, hprogram, hnext⟩ := @approve_ready readySetup draftId _
    (compiledDraft (some readyPatch)) _ rfl rfl rfl rfl rfl readyHash_ne
  let served (p : Prog sig (Except CallError Result × Unit)) : (compiler readySetup).State :=
    ⟨w, [compile, ⟨.approve draftId readyHash, p⟩]⟩
  -- the compile ends, and the approval comes in and reads its draft
  have h₁ : (compiler readySetup).Reach (FreshIds readySetup) (.empty none none) ⟨w, [compile]⟩ := by
    have hfinal := Pool.Reach.step finalizing_reached (exec_step (i := 0) .run rfl rfl) trivial
    rw [outcome_ready] at hfinal
    exact hfinal
  have h₂ : (compiler readySetup).Reach (FreshIds readySetup) (.empty none none)
    (served (.call (.getDraft draftId) k)) :=
    congrArg served hprogram ▸ Pool.Reach.step h₁ (a := .invoke (ApiCall.approve draftId readyHash)) rfl trivial
  have h₃ : (compiler readySetup).Reach (FreshIds readySetup) (.empty none none)
      (served (approving readySetup draftId readyPatch ())) := by
    have hread := Pool.Reach.step h₂ (exec_step (i := 1) .run rfl rfl) trivial
    exact congrArg served hnext ▸ hread
  -- it creates its workflow and marks the draft
  have h₄ := Pool.Reach.step h₃ (exec_step (i := 1) .run rfl rfl) trivial
  have hcreate : exec (.createWorkflow workflowId oneStepSpec []) w .run = some (.ok (),
      { w with workflows := [⟨workflowId, oneStepSpec, [], st.context, .ready⟩] }) := by
    show storeCall w .run (createWorkflow w workflowId oneStepSpec []) = _
    rw [createWorkflow_ready hst rfl]
    rfl
  have h₅ := Pool.Reach.step h₄ (exec_step (i := 1) .run rfl hcreate) trivial
  have h₆ := Pool.Reach.step h₅ (exec_step (i := 1) .run rfl rfl) trivial
  have h₇ := Pool.Reach.step h₆ (step_move (move_direct (validateReady_admits validate_ready) hst rfl)) fresh_f
  exact ⟨_, _, workflowId, h₇, rfl, List.mem_cons_of_mem _ (List.mem_cons_self ..), rfl, approval_binds_one h₇⟩

end VibeCompiler
