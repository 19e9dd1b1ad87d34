import VibeWorkflow.CompilerSystemProofs

/-!
# What the compiler's operations can do

Rows are added and filled in, and never taken back: a draft keeps its request and, once it is finalized,
its content; a task keeps its request and its end; a workflow keeps what it was created with; messages are
appended.  Every operation and every move of the surroundings stays within this.

* `storeCall_cases`, `deliver_cases` — the outcomes of an operation;
* **`Change`**, **`exec_change`**, `Drift`, `move_drift` — the writes, each by its operation or move;
* **`Change.later`**, **`Drift.later`** — one step only adds and fills in;
* `draft?_set`, `draft?_concat` — how changing and adding a row reads back.
-/

namespace VibeCompiler

open VibeJson VibeContract VibeValidator VibeStore VibeAdmission AsyncLogic

/-! ## Growth -/

/-- The later row of a draft. -/
structure Draft.Grows (d d' : Draft) : Prop where
  draftId : d'.draftId = d.draftId
  key : d'.idempotencyKey = d.idempotencyKey
  fingerprint : d'.requestFingerprint = d.requestFingerprint
  constraints : d'.constraints = d.constraints
  inventory : d'.inventory = d.inventory
  content : ∀ p, d.content = some p → d'.content = some p
  workflow : ∀ id, d.materializedWorkflowId = some id → d'.materializedWorkflowId = some id

structure AgentTask.Grows (t t' : AgentTask) : Prop where
  taskId : t'.taskId = t.taskId
  request : t'.request = t.request
  status : t.status.isTerminal = true → t'.status = t.status
  result : ∀ r, t.result = some r → t'.result = some r

/-- What a workflow executes stays; its status and context are the runtime's. -/
structure WorkflowRecord.Grows (f f' : WorkflowRecord) : Prop where
  workflowId : f'.workflowId = f.workflowId
  spec : f'.spec = f.spec
  inputValues : f'.inputValues = f.inputValues

theorem Draft.Grows.refl (d : Draft) : d.Grows d := ⟨rfl, rfl, rfl, rfl, rfl, fun _ h => h, fun _ h => h⟩

theorem Draft.Grows.trans {d₁ d₂ d₃ : Draft} (h : d₁.Grows d₂) (h' : d₂.Grows d₃) : d₁.Grows d₃ where
  draftId := h'.draftId.trans h.draftId
  key := h'.key.trans h.key
  fingerprint := h'.fingerprint.trans h.fingerprint
  constraints := h'.constraints.trans h.constraints
  inventory := h'.inventory.trans h.inventory
  content p hp := h'.content p (h.content p hp)
  workflow id hid := h'.workflow id (h.workflow id hid)

theorem AgentTask.Grows.refl (t : AgentTask) : t.Grows t := ⟨rfl, rfl, fun _ => rfl, fun _ h => h⟩

theorem AgentTask.Grows.trans {t₁ t₂ t₃ : AgentTask} (h : t₁.Grows t₂) (h' : t₂.Grows t₃) : t₁.Grows t₃ where
  taskId := h'.taskId.trans h.taskId
  request := h'.request.trans h.request
  status ht := by
    have h₂ := h.status ht
    rw [h'.status (by rw [h₂]; exact ht), h₂]
  result r hr := h'.result r (h.result r hr)

theorem WorkflowRecord.Grows.refl (f : WorkflowRecord) : f.Grows f := ⟨rfl, rfl, rfl⟩

theorem WorkflowRecord.Grows.trans {f₁ f₂ f₃ : WorkflowRecord} (h : f₁.Grows f₂) (h' : f₂.Grows f₃) : f₁.Grows f₃ where
  workflowId := h'.workflowId.trans h.workflowId
  spec := h'.spec.trans h.spec
  inputValues := h'.inputValues.trans h.inputValues

/-- **A later world.** -/
structure Later (w w' : World) : Prop where
  drafts : ∀ id d, w.draft? id = some d → ∃ d', w'.draft? id = some d' ∧ d.Grows d'
  taskOf : ∀ key t, w.taskOf? key = some t → ∃ t', w'.taskOf? key = some t' ∧ t.Grows t'
  task : ∀ id t, w.task? id = some t → ∃ t', w'.task? id = some t' ∧ t.Grows t'
  workflows : ∀ id f, w.workflow? id = some f → ∃ f', w'.workflow? id = some f' ∧ f.Grows f'
  messages : w.messages <+: w'.messages
  revision : w.session.revision ≤ w'.session.revision

theorem Later.refl (w : World) : Later w w where
  drafts _ d h := ⟨d, h, .refl d⟩
  taskOf _ t h := ⟨t, h, .refl t⟩
  task _ t h := ⟨t, h, .refl t⟩
  workflows _ f h := ⟨f, h, .refl f⟩
  messages := List.prefix_refl _
  revision := Nat.le_refl _

theorem Later.trans {w₁ w₂ w₃ : World} (h : Later w₁ w₂) (h' : Later w₂ w₃) : Later w₁ w₃ where
  drafts id d hd := by
    obtain ⟨d₂, hd₂, hg⟩ := h.drafts id d hd
    obtain ⟨d₃, hd₃, hg'⟩ := h'.drafts id d₂ hd₂
    exact ⟨d₃, hd₃, hg.trans hg'⟩
  taskOf key t ht := by
    obtain ⟨t₂, ht₂, hg⟩ := h.taskOf key t ht
    obtain ⟨t₃, ht₃, hg'⟩ := h'.taskOf key t₂ ht₂
    exact ⟨t₃, ht₃, hg.trans hg'⟩
  task id t ht := by
    obtain ⟨t₂, ht₂, hg⟩ := h.task id t ht
    obtain ⟨t₃, ht₃, hg'⟩ := h'.task id t₂ ht₂
    exact ⟨t₃, ht₃, hg.trans hg'⟩
  workflows id f hf := by
    obtain ⟨f₂, hf₂, hg⟩ := h.workflows id f hf
    obtain ⟨f₃, hf₃, hg'⟩ := h'.workflows id f₂ hf₂
    exact ⟨f₃, hf₃, hg.trans hg'⟩
  messages := h.messages.trans h'.messages
  revision := h.revision.trans h'.revision

/-! ## Rows by their keys -/

section

variable {α κ : Type} [DecidableEq κ] (key : α → κ) {rows : List α}

/-- What is found stays found when rows are changed without their keys. -/
theorem find_map {f : α → α} (hf : ∀ r, key (f r) = key r) (k : κ) :
    (rows.map f).find? (fun r => key r = k) = (rows.find? (fun r => key r = k)).map f := by
  rw [List.find?_map]
  have hp : ((fun r => decide (key r = k)) ∘ f) = fun r => decide (key r = k) := by
    funext r
    simp only [Function.comp, hf]
  rw [hp]

/-- A row added at the end is found where no earlier one is. -/
theorem find_concat (row : α) (k : κ) :
    (rows ++ [row]).find? (fun r => key r = k) =
      (rows.find? (fun r => key r = k)).or (if key row = k then some row else none) := by
  rw [List.find?_append]
  congr 1
  by_cases hk : key row = k <;> simp [hk]

theorem find_key {k : κ} {row : α} (h : rows.find? (fun r => key r = k) = some row) : key row = k := by
  have hdec := List.find?_some h
  simpa using hdec

end

section

variable {w : World} {id : String} {d : Draft}

theorem draft?_id (h : w.draft? id = some d) : d.draftId = id := find_key Draft.draftId h

theorem draft?_mem (h : w.draft? id = some d) : d ∈ w.drafts := List.mem_of_find?_eq_some h

theorem draft?_set {f : Draft → Draft} (hf : ∀ d, (f d).draftId = d.draftId) (id id' : String) :
    (w.setDraft id f).draft? id' = (w.draft? id').map (fun d => if d.draftId = id then f d else d) := by
  refine find_map Draft.draftId ?_ id'
  intro d
  split
  · exact hf d
  · rfl

/-- A changed draft reads back as it was changed. -/
theorem draft?_set_self {f : Draft → Draft} (hf : ∀ d, (f d).draftId = d.draftId) (h : w.draft? id = some d) :
    (w.setDraft id f).draft? id = some (f d) := by
  rw [draft?_set hf, h]
  exact congrArg some (if_pos (draft?_id h))

theorem draft?_concat (d : Draft) (id : String) :
    World.draft? { w with drafts := w.drafts ++ [d] } id = (w.draft? id).or (if d.draftId = id then some d else none) :=
  find_concat Draft.draftId d id

/-- A change that only fills in gives a later world. -/
theorem setDraft_later {f : Draft → Draft} (hf : ∀ d, w.draft? id = some d → d.Grows (f d))
    (hid : ∀ d, (f d).draftId = d.draftId) : Later w (w.setDraft id f) := by
  refine { Later.refl w with drafts := ?_ }
  intro id' d hd
  refine ⟨_, (draft?_set hid id id').trans (congrArg _ hd), ?_⟩
  show d.Grows (if d.draftId = id then f d else d)
  by_cases hk : d.draftId = id
  · rw [if_pos hk]
    refine hf d ?_
    rw [← hk, draft?_id hd]
    exact hd
  · rw [if_neg hk]
    exact .refl d

/-- So does a new draft. -/
theorem addDraft_later (d : Draft) : Later w { w with drafts := w.drafts ++ [d] } := by
  refine { Later.refl w with drafts := ?_ }
  intro id' d' hd'
  refine ⟨d', ?_, .refl d'⟩
  rw [draft?_concat, hd']
  rfl

end

/-! ## One operation -/

/-- A store operation is refused, runs, or fails on its own; only when it runs does the world change. -/
theorem storeCall_cases {α : Type} {w w' : World} {inp : Input} {run : Except CallError (World × α)}
    {r : Except CallError α} (h : storeCall w inp run = some (r, w')) :
    (∃ a, run = .ok (w', a) ∧ r = .ok a) ∨ (∃ e, run = .error e ∧ r = .error e ∧ w' = w) ∨
      (∃ code message, r = .error (.store code message) ∧ w' = w) := by
  unfold storeCall at h
  split at h
  · split at h
    · rename_i w₁ a
      obtain ⟨rfl, rfl⟩ := Prod.mk.inj (Option.some.inj h)
      exact .inl ⟨a, rfl, rfl⟩
    · rename_i e
      obtain ⟨rfl, rfl⟩ := Prod.mk.inj (Option.some.inj h)
      exact .inr (.inl ⟨e, rfl, rfl, rfl⟩)
  · obtain ⟨rfl, rfl⟩ := Prod.mk.inj (Option.some.inj h)
    exact .inr (.inr ⟨_, _, rfl, rfl⟩)
  · exact nomatch h

/-- A read answers what is there, or fails. -/
theorem storeRead_cases {α : Type} {w w' : World} {inp : Input} {a : α} {r : Except CallError α}
    (h : storeCall w inp (.ok (w, a)) = some (r, w')) :
    w' = w ∧ (r = .ok a ∨ ∃ code message, r = .error (.store code message)) := by
  rcases storeCall_cases h with ⟨a', hok, rfl⟩ | ⟨e, he, -, -⟩ | ⟨code, message, rfl, rfl⟩
  · obtain ⟨rfl, rfl⟩ := Prod.mk.inj (Except.ok.inj hok)
    exact ⟨rfl, .inl rfl⟩
  · exact nomatch he
  · exact ⟨rfl, .inr ⟨code, message, rfl⟩⟩

/-- A create request finds its key's task, is refused, or makes a new task. -/
theorem deliver_cases {w w' : World} {req : TaskRequest} {id : String} {r : Except CallError String}
    (h : deliver w req id = some (r, w')) :
    (w' = w ∧ ((∃ t, w.taskOf? req.idempotencyKey = some t ∧ t.request = req ∧ r = .ok t.taskId) ∨
      ∃ m, r = .error (.task false m))) ∨
    (w.taskOf? req.idempotencyKey = none ∧ w.task? id = none ∧ r = .ok id ∧
      w' = { w with tasks := w.tasks ++ [⟨id, req, .running, none⟩] }) := by
  unfold deliver at h
  split at h
  · rename_i t ht
    split at h
    · rename_i hreq
      obtain ⟨rfl, rfl⟩ := Prod.mk.inj (Option.some.inj h)
      exact .inl ⟨rfl, .inl ⟨t, ht, hreq, rfl⟩⟩
    · obtain ⟨rfl, rfl⟩ := Prod.mk.inj (Option.some.inj h)
      exact .inl ⟨rfl, .inr ⟨_, rfl⟩⟩
  · rename_i hnone
    split at h
    · exact nomatch h
    · rename_i hfree
      obtain ⟨rfl, rfl⟩ := Prod.mk.inj (Option.some.inj h)
      refine .inr ⟨hnone, ?_, rfl, rfl⟩
      simpa using hfree

/-- A new task gives a later world. -/
theorem addTask_later {w : World} (t : AgentTask) : Later w { w with tasks := w.tasks ++ [t] } := by
  have hkeep : ∀ {κ : Type} [DecidableEq κ] (key : AgentTask → κ) (k : κ) (t' : AgentTask),
      w.tasks.find? (fun t => key t = k) = some t' →
        (w.tasks ++ [t]).find? (fun t => key t = k) = some t' := by
    intro κ _ key k t' h
    rw [find_concat, h]
    rfl
  refine { Later.refl w with taskOf := ?_, task := ?_ }
  · exact fun key t' ht' => ⟨t', hkeep (fun t => t.request.idempotencyKey) key t' ht', .refl t'⟩
  · exact fun id t' ht' => ⟨t', hkeep AgentTask.taskId id t' ht', .refl t'⟩

/-- A finalize finds the draft finalized, or finalizes it. -/
theorem finalizeDraft_cases {w w' : World} {id : String} {patch : Patch} {d' : Draft}
    (h : finalizeDraft w id patch = .ok (w', d')) :
    (w' = w ∧ w.draft? id = some d' ∧ d'.content.isSome = true) ∨
    ∃ d, w.draft? id = some d ∧ d.content = none ∧ d' = { d with content := some patch } ∧
      w' = w.setDraft id (fun d => { d with content := some patch }) := by
  unfold finalizeDraft at h
  split at h
  · exact nomatch h
  · rename_i d hd
    split at h
    · rename_i hsome
      obtain ⟨rfl, rfl⟩ := Prod.mk.inj (Except.ok.inj h)
      exact .inl ⟨rfl, hd, hsome⟩
    · rename_i hnone
      obtain ⟨rfl, rfl⟩ := Prod.mk.inj (Except.ok.inj h)
      exact .inr ⟨d, hd, by simpa using hnone, rfl, rfl⟩

theorem workflow?_concat (w : World) (f : WorkflowRecord) (id : String) :
    World.workflow? { w with workflows := w.workflows ++ [f] } id =
      (w.workflow? id).or (if f.workflowId = id then some f else none) :=
  find_concat WorkflowRecord.workflowId f id

/-- A workflow is created under an id that is free, ready and not started. -/
theorem createWorkflow_cases {w w' : World} {id : String} {spec : Json} {values : List (String × Json)} {u : Unit}
    (h : createWorkflow w id spec values = .ok (w', u)) :
    w.workflow? id = none ∧ ∃ context, w' = { w with workflows := w.workflows ++ [⟨id, spec, values, context, .ready⟩] } := by
  unfold createWorkflow at h
  split at h
  · exact nomatch h
  · rename_i hfree
    split at h
    · exact nomatch h
    · rename_i st _
      obtain ⟨rfl, -⟩ := Prod.mk.inj (Except.ok.inj h)
      exact ⟨by simpa using hfree, st.context, rfl⟩

theorem addWorkflow_later {w : World} (f : WorkflowRecord) : Later w { w with workflows := w.workflows ++ [f] } := by
  refine { Later.refl w with workflows := ?_ }
  intro id f' hf'
  refine ⟨f', ?_, .refl f'⟩
  rw [workflow?_concat, hf']
  rfl

theorem approveDraft_cases {w w' : World} {id workflowId : String} {d' : Draft}
    (h : approveDraftWithWorkflow w id workflowId = .ok (w', d')) :
    (w' = w ∧ w.draft? id = some d' ∧ d'.materializedWorkflowId.isSome = true) ∨
    ∃ d, w.draft? id = some d ∧ d.materializedWorkflowId = none ∧
      d' = { d with materializedWorkflowId := some workflowId } ∧
      w' = w.setDraft id (fun d => { d with materializedWorkflowId := some workflowId }) := by
  unfold approveDraftWithWorkflow at h
  split at h
  · exact nomatch h
  · rename_i d hd
    split at h
    · rename_i hsome
      obtain ⟨rfl, rfl⟩ := Prod.mk.inj (Except.ok.inj h)
      exact .inl ⟨rfl, hd, hsome⟩
    · rename_i hnone
      obtain ⟨rfl, rfl⟩ := Prod.mk.inj (Except.ok.inj h)
      exact .inr ⟨d, hd, by simpa using hnone, rfl, rfl⟩

/-- A user message is there already, or is appended and marks its turn pending. -/
theorem appendBuilder_cases {w w' : World} {content turnKey : String} {m : Message}
    (h : appendBuilderUserMessage w content turnKey = .ok (w', m)) :
    (w' = w ∧ w.turnRow turnKey .user = some m) ∨
    (w.turnRow turnKey .user = none ∧ (w.session.pendingTurnKey = none ∨ w.session.pendingTurnKey = some turnKey) ∧
      m = ⟨.user, content, w.nextSeq, none, none, none, turnKey⟩ ∧
      w' = { w with messages := w.messages ++ [m], session := { w.session with pendingTurnKey := some turnKey } }) := by
  unfold appendBuilderUserMessage at h
  split at h
  · exact nomatch h
  · split at h
    · rename_i m' hm'
      obtain ⟨rfl, rfl⟩ := Prod.mk.inj (Except.ok.inj h)
      exact .inl ⟨rfl, hm'⟩
    · rename_i hnone
      split at h
      · exact nomatch h
      · rename_i hpending
        obtain ⟨rfl, rfl⟩ := Prod.mk.inj (Except.ok.inj h)
        refine .inr ⟨hnone, ?_, rfl, rfl⟩
        by_cases hp : w.session.pendingTurnKey = none
        · exact .inl hp
        · exact .inr (not_not.mp fun hne => hpending ⟨hp, hne⟩)

/-- What a session becomes when a turn completes. -/
def Session.completed (s : Session) (input : Completion) : Session :=
  { s with
    currentDraftId := input.currentDraftId
    currentSpecHash := input.currentSpecHash
    revision := s.revision + 1
    pendingTurnKey := none }

/-- A turn was completed before, or is completed at the revision the caller expects. -/
theorem completeBuilder_cases {w w' : World} {expected : Nat} {input : Completion} {r : Session × Message × Bool}
    (h : completeBuilderTurn w expected input = .ok (w', r)) :
    (w' = w ∧ ∃ m, w.turnRow input.turnKey .assistant = some m ∧ r = (w.session, m, true)) ∨
    (w.turnRow input.turnKey .assistant = none ∧ w.session.revision = expected ∧ ∃ m,
      m = ⟨.assistant, input.content, w.nextSeq, input.draftId, input.specHash, some input.details, input.turnKey⟩ ∧
      r = (w.session.completed input, m, false) ∧
      w' = { w with messages := w.messages ++ [m], session := w.session.completed input }) := by
  unfold completeBuilderTurn at h
  split at h
  · rename_i m hm
    obtain ⟨rfl, rfl⟩ := Prod.mk.inj (Except.ok.inj h)
    exact .inl ⟨rfl, m, hm, rfl⟩
  · rename_i hnone
    split at h
    · exact nomatch h
    · split at h
      · exact nomatch h
      · rename_i hrev
        obtain ⟨rfl, rfl⟩ := Prod.mk.inj (Except.ok.inj h)
        exact .inr ⟨hnone, not_not.mp hrev, _, rfl, rfl, rfl⟩

/-- **What an operation can do to the world**: nothing, or one write. -/
inductive Change (w : World) : Op → World → Prop
  | same {op : Op} : Change w op w
  | draft {input : DraftInput} (free : w.draft? input.draftId = none) :
      Change w (.createDraft input) { w with drafts := w.drafts ++ [input.row] }
  | task {req : TaskRequest} {id : String} (noKey : w.taskOf? req.idempotencyKey = none) (free : w.task? id = none) :
      Change w (.createTask req) { w with tasks := w.tasks ++ [⟨id, req, .running, none⟩] }
  | bind {id taskId : String} {capability : Json} {d : Draft} (found : w.draft? id = some d)
      (unbound : d.compilerTaskId = none) :
      Change w (.bindDraftCompilerTask id taskId capability)
        (w.setDraft id fun d => { d with compilerTaskId := some taskId, capability := some capability })
  | finalize {id : String} {patch : Patch} {d : Draft} (found : w.draft? id = some d) (pending : d.content = none) :
      Change w (.finalizeDraft id patch) (w.setDraft id fun d => { d with content := some patch })
  | workflow {id : String} {spec : Json} {values context : List (String × Json)} (free : w.workflow? id = none) :
      Change w (.createWorkflow id spec values)
        { w with workflows := w.workflows ++ [⟨id, spec, values, context, .ready⟩] }
  | approve {id workflowId : String} {d : Draft} (found : w.draft? id = some d)
    (open' : d.materializedWorkflowId = none) :
      Change w (.approveDraftWithWorkflow id workflowId)
        (w.setDraft id fun d => { d with materializedWorkflowId := some workflowId })
  | append {content turnKey : String} (free : w.turnRow turnKey .user = none)
      (turn : w.session.pendingTurnKey = none ∨ w.session.pendingTurnKey = some turnKey) :
      Change w (.appendBuilderUserMessage content turnKey)
        { w with
          messages := w.messages ++ [⟨.user, content, w.nextSeq, none, none, none, turnKey⟩]
          session := { w.session with pendingTurnKey := some turnKey } }
  | complete {expected : Nat} {input : Completion} (free : w.turnRow input.turnKey .assistant = none)
      (revision : w.session.revision = expected) :
      Change w (.completeBuilderTurn expected input)
        { w with
          messages := w.messages ++
            [⟨.assistant, input.content, w.nextSeq, input.draftId, input.specHash, some input.details, input.turnKey⟩]
          session := w.session.completed input }

/-- A store operation changes the world when it runs. -/
theorem storeCall_change {α : Type} {op : Op} {w w' : World} {inp : Input} {run : Except CallError (World × α)}
    {r : Except CallError α} (h : storeCall w inp run = some (r, w'))
    (hrun : ∀ w₁ a, run = .ok (w₁, a) → Change w op w₁) : Change w op w' := by
  rcases storeCall_cases h with ⟨a, hok, -⟩ | ⟨e, -, -, rfl⟩ | ⟨_, _, -, rfl⟩
  · exact hrun w' a hok
  · exact .same
  · exact .same

theorem storeRead_change {α : Type} {op : Op} {w w' : World} {inp : Input} {a : α} {r : Except CallError α}
    (h : storeCall w inp (.ok (w, a)) = some (r, w')) : Change w op w' := by
  rw [(storeRead_cases h).1]
  exact .same

theorem deliver_change {w w' : World} {req : TaskRequest} {id : String} {r : Except CallError String}
    (h : deliver w req id = some (r, w')) : Change w (.createTask req) w' := by
  rcases deliver_cases h with ⟨rfl, -⟩ | ⟨hkey, hfree, -, rfl⟩
  · exact .same
  · exact .task hkey hfree

/-- **Every operation is one such change.** -/
theorem exec_change {op : Op} {w w' : World} {inp : Input} {r : Except CallError (Ans op)}
    (h : exec op w inp = some (r, w')) : Change w op w' := by
  cases op with
  | getDraft id => exact storeRead_change (show storeCall w inp (.ok (w, w.draft? id)) = some (r, w') from h)
  | snapshot =>
    simp only [exec] at h
    split at h
    · obtain ⟨-, rfl⟩ := Prod.mk.inj (Option.some.inj h)
      exact .same
    · obtain ⟨-, rfl⟩ := Prod.mk.inj (Option.some.inj h)
      exact .same
    · exact nomatch h
  | createDraft input =>
    have h : storeCall w inp (.ok (createDraft w input)) = some (r, w') := h
    refine storeCall_change h fun w₁ a hr => ?_
    have hw := congrArg Prod.fst (Except.ok.inj hr)
    rw [← show (createDraft w input).1 = w₁ from hw]
    unfold createDraft
    split
    · exact .same
    · exact .draft ‹_›
  | createTask req =>
    simp only [exec] at h
    split at h
    · exact deliver_change h
    · obtain ⟨-, rfl⟩ := Prod.mk.inj (Option.some.inj h)
      exact .same
    · obtain ⟨r', hr', heq⟩ := Option.map_eq_some_iff.mp h
      obtain ⟨-, rfl⟩ := Prod.mk.inj heq
      exact deliver_change hr'
    · exact nomatch h
  | waitForTerminal taskId cursor i =>
    simp only [exec] at h
    split at h
    · obtain ⟨t, -, heq⟩ := Option.map_eq_some_iff.mp h
      obtain ⟨-, rfl⟩ := Prod.mk.inj heq
      exact .same
    · obtain ⟨-, rfl⟩ := Prod.mk.inj (Option.some.inj h)
      exact .same
    · exact nomatch h
  | bindDraftCompilerTask id taskId capability =>
    refine storeCall_change h fun w₁ a hr => ?_
    unfold bindDraftCompilerTask at hr
    split at hr
    · exact nomatch hr
    · rename_i d hd
      split at hr
      · exact nomatch hr
      · split at hr
        · rename_i hnone
          obtain ⟨rfl, -⟩ := Prod.mk.inj (Except.ok.inj hr)
          exact .bind hd hnone
        · obtain ⟨rfl, -⟩ := Prod.mk.inj (Except.ok.inj hr)
          exact .same
  | finalizeDraft id patch =>
    refine storeCall_change h fun w₁ a hr => ?_
    rcases finalizeDraft_cases hr with ⟨rfl, -, -⟩ | ⟨d, hd, hnone, -, rfl⟩
    · exact .same
    · exact .finalize hd hnone
  | getWorkflow id => exact storeRead_change (show storeCall w inp (.ok (w, w.workflow? id)) = some (r, w') from h)
  | createWorkflow id spec values =>
    refine storeCall_change h fun w₁ a hr => ?_
    obtain ⟨hfree, context, rfl⟩ := createWorkflow_cases hr
    exact .workflow hfree
  | approveDraftWithWorkflow id workflowId =>
    refine storeCall_change h fun w₁ a hr => ?_
    rcases approveDraft_cases hr with ⟨rfl, -, -⟩ | ⟨d, hd, hnone, -, rfl⟩
    · exact .same
    · exact .approve hd hnone
  | getBuilderSession => exact storeRead_change (show storeCall w inp (.ok (w, w.session)) = some (r, w') from h)
  | findBuilderTurn turnKey =>
    exact storeRead_change (show storeCall w inp (.ok (w, (w.turnRow turnKey .user, w.turnRow turnKey .assistant)))
      = some (r, w') from h)
  | appendBuilderUserMessage content turnKey =>
    refine storeCall_change h fun w₁ a hr => ?_
    rcases appendBuilder_cases hr with ⟨rfl, -⟩ | ⟨hfree, hturn, rfl, rfl⟩
    · exact .same
    · exact .append hfree hturn
  | listBuilderMessages => exact storeRead_change (show storeCall w inp (.ok (w, w.messages)) = some (r, w') from h)
  | completeBuilderTurn expected input =>
    refine storeCall_change h fun w₁ a hr => ?_
    rcases completeBuilder_cases hr with ⟨rfl, -⟩ | ⟨hfree, hrev, m, rfl, -, rfl⟩
    · exact .same
    · exact .complete hfree hrev

/-- **A change only adds and fills in.** -/
theorem Change.later {op : Op} {w w' : World} (h : Change w op w') : Later w w' := by
  cases h with
  | same => exact .refl _
  | draft free => exact addDraft_later _
  | task noKey free => exact addTask_later _
  | bind found unbound =>
    exact setDraft_later (fun d _ => ⟨rfl, rfl, rfl, rfl, rfl, fun _ h => h, fun _ h => h⟩) (fun _ => rfl)
  | @finalize id patch d found pending =>
    refine setDraft_later (fun d₁ hd₁ => ⟨rfl, rfl, rfl, rfl, rfl, fun p hp => ?_, fun _ h => h⟩) (fun _ => rfl)
    obtain rfl := Option.some.inj (found.symm.trans hd₁)
    rw [pending] at hp
    exact nomatch hp
  | workflow free => exact addWorkflow_later _
  | @approve id workflowId d found open' =>
    refine setDraft_later (fun d₁ hd₁ => ⟨rfl, rfl, rfl, rfl, rfl, fun _ h => h, fun id' hid' => ?_⟩) (fun _ => rfl)
    obtain rfl := Option.some.inj (found.symm.trans hd₁)
    rw [open'] at hid'
    exact nomatch hid'
  | append free turn => exact { Later.refl w with messages := List.prefix_append _ _ }
  | complete free revision => exact { Later.refl w with messages := List.prefix_append _ _, revision := Nat.le_succ _ }

/-! ## One move -/

/-- A change of tasks that only fills in gives a later world. -/
theorem setTask_later {w : World} {id : String} {f : AgentTask → AgentTask} (hf : ∀ t : AgentTask, t.Grows (f t)) :
    Later w (w.setTask id f) := by
  have hgrow : ∀ t : AgentTask, t.Grows (if t.taskId = id then f t else t) := by
    intro t
    split
    · exact hf t
    · exact .refl t
  refine { Later.refl w with taskOf := ?_, task := ?_ }
  · intro key t ht
    have hkey : ∀ t : AgentTask, (if t.taskId = id then f t else t).request.idempotencyKey = t.request.idempotencyKey :=
      fun t => by rw [(hgrow t).request]
    exact ⟨_, (find_map (fun t : AgentTask => t.request.idempotencyKey) hkey key).trans (congrArg _ ht), hgrow t⟩
  · intro id' t ht
    exact ⟨_, (find_map AgentTask.taskId (fun t => (hgrow t).taskId) id').trans (congrArg _ ht), hgrow t⟩

/-- What a move can do to the world. -/
inductive Drift (w : World) : Move → World → Prop
  | tasks {m : Move} {id : String} {f : AgentTask → AgentTask} (grows : ∀ t : AgentTask, t.Grows (f t)) :
      Drift w m (w.setTask id f)
  | workflow {id : String} {spec : Json} {provided : Option Json} {values context : List (String × Json)}
      (checked : createChecks spec provided = some values) (free : w.workflow? id = none) :
      Drift w (.direct id spec provided) { w with workflows := w.workflows ++ [⟨id, spec, values, context, .ready⟩] }
  | advance {id : String} {status : WorkflowStatus} {context : List (String × Json)} :
      Drift w (.advance id status context) { w with workflows := w.workflows.map (fun f =>
        if f.workflowId = id then { f with status := status, context := context } else f) }
  | archive : Drift w .archive { w with session := { w.session with active := false } }

theorem move_drift {w w' : World} {m : Move} (h : move w m = some w') : Drift w m w' := by
  cases m with
  | finish id status =>
    simp only [move] at h
    split at h
    · obtain rfl := Option.some.inj h
      refine .tasks fun t => ?_
      split
      · exact .refl t
      · rename_i hopen
        exact ⟨rfl, rfl, fun hend => absurd hend hopen, fun _ h => h⟩
    · exact nomatch h
  | publish id result =>
    obtain rfl := Option.some.inj h
    refine .tasks fun t => ?_
    split
    · exact .refl t
    · rename_i hnone
      exact ⟨rfl, rfl, fun _ => rfl, fun r hr => absurd (by rw [hr]; rfl) hnone⟩
  | direct id spec provided =>
    simp only [move] at h
    split at h
    · exact nomatch h
    · rename_i values hchecks
      split at h
      · rename_i hcreate
        obtain rfl := Option.some.inj h
        obtain ⟨hfree, context, rfl⟩ := createWorkflow_cases hcreate
        exact .workflow hchecks hfree
      · exact nomatch h
  | advance id status context =>
    obtain rfl := Option.some.inj h
    exact .advance
  | archive =>
    obtain rfl := Option.some.inj h
    exact .archive

/-- **One move of the surroundings only adds and fills in.** -/
theorem Drift.later {w w' : World} {m : Move} (h : Drift w m w') : Later w w' := by
  cases h with
  | tasks grows => exact setTask_later grows
  | workflow checked free => exact addWorkflow_later _
  | @advance id status context =>
    refine { Later.refl w with workflows := ?_ }
    intro id' f hf
    refine ⟨_, (find_map WorkflowRecord.workflowId ?_ id').trans (congrArg _ hf), ?_⟩
    · intro f
      split <;> rfl
    · show f.Grows (if f.workflowId = id then _ else f)
      split
      · exact ⟨rfl, rfl, rfl⟩
      · exact .refl f
  | archive => exact { Later.refl w with }

/-! ## Programs by their operations -/

/-- The reads and writes of an approval. -/
def isApprovalOp : Op → Bool
  | .getDraft _ | .getWorkflow _ | .createWorkflow _ _ _ | .approveDraftWithWorkflow _ _ => true
  | _ => false

/-- The reads and writes of a conversation, beside its compiles. -/
def isBuilderOp : Op → Bool
  | .getDraft _ | .getBuilderSession | .findBuilderTurn _ | .appendBuilderUserMessage _ _ | .listBuilderMessages
  | .completeBuilderTurn _ _ => true
  | _ => false

theorem attempt_every {α : Type} {p : Op → Prop} {m : Call α} (hm : Js.Every (S := sig) p m) :
    Js.Every (S := sig) p (attempt m) :=
  every_catch (every_bind hm fun _ => every_pure _) fun _ => every_pure _

theorem approve_every (cfg : Setup) (draftId hash : String) :
    Js.Every (S := sig) (fun op => isApprovalOp op = true) (approve cfg draftId hash) := by
  have hmaterialize : ∀ id spec values,
      Js.Every (S := sig) (fun op => isApprovalOp op = true) (materializeWorkflow id spec values) := by
    intro id spec values
    refine every_bind (every_await rfl) fun found => every_ite (every_pure _) ?_
    refine every_bind (attempt_every (every_await rfl)) fun made => ?_
    cases made with
    | ok u => exact every_pure _
    | error e => exact every_bind (every_await rfl) fun again => every_ite (every_pure _) (every_throw _)
  refine every_bind (every_await rfl) fun found => ?_
  cases found with
  | none => exact every_throw _
  | some d =>
    dsimp only
    split
    · exact every_ite (every_throw _) (every_pure _)
    · split
      · exact every_throw _
      · refine every_ite (every_throw _) (every_ite (every_throw _) ?_)
        exact every_bind (hmaterialize _ _ _) fun _ => every_bind (every_await rfl) fun _ => every_pure _

section

variable {G : Ground sig World} {pre : Op → World → Prop}

/-- An operation that is always allowed. -/
theorem safe_any {op : Op} (h : ∀ w, G.inv w → pre op w) :
    Safe (G.contract pre) (fun _ => True) (call op) (fun _ _ => True) (fun _ _ => True) :=
  safe_call (fun _ _ _ => rfl) (fun w hi _ => h w hi) (fun _ r _ _ _ _ => by cases r <;> trivial)
    (fun r _ _ _ _ _ => by cases r <;> trivial)

theorem safe_attempt {α : Type} {P : World → Prop} {m : Call α} {Q : α → World → Prop} {E : CallError → World → Prop}
    (hm : Safe (G.contract pre) P m Q E) :
    Safe (G.contract pre) P (attempt m) (fun r w => match r with | .ok a => Q a w | .error e => E e w)
      (fun _ _ => False) := by
  refine safe_catch (F := E) (safe_bind hm fun a => safe_pure fun w _ hq => hq) fun e => ?_
  exact safe_pure fun w _ he => he

/-- A conversation is safe when its compiles are and its own operations are always allowed. -/
theorem sendMessage_safe (cfg : Setup) (hb : ∀ op w, isBuilderOp op = true → G.inv w → pre op w)
    (hc : ∀ session agent turnKey content prior current, Safe (G.contract pre) (fun _ => True)
      (compile cfg (turnRequest cfg session agent turnKey content prior current)) (fun _ _ => True) (fun _ _ => True))
    (input : SendInput) :
    Safe (G.contract pre) (fun _ => True) (sendMessage cfg input) (fun _ _ => True) (fun _ _ => True) := by
  have hop : ∀ op, isBuilderOp op = true →
      Safe (G.contract pre) (fun _ => True) (call op) (fun _ _ => True) (fun _ _ => True) :=
    fun op h => safe_any fun w hi => hb op w h hi
  have hmap : ∀ {α : Type} (m : Call α) codes,
      Safe (G.contract pre) (fun _ => True) m (fun _ _ => True) (fun _ _ => True) →
      Safe (G.contract pre) (fun _ => True) (mapErrors m codes) (fun _ _ => True) (fun _ _ => True) :=
    fun m codes hm => safe_catch hm fun e => safe_throw fun _ _ _ => trivial
  have hcurrent : ∀ session, Safe (G.contract pre) (fun _ => True) (currentDraft session) (fun _ _ => True)
      (fun _ _ => True) := by
    intro session
    unfold currentDraft
    split
    · exact safe_pure fun _ _ _ => trivial
    · exact hop _ rfl
  have hturn : ∀ session agent turnKey expected own, Safe (G.contract pre) (fun _ => True)
      (runTurn cfg session agent turnKey expected own) (fun _ _ => True) (fun _ _ => True) := by
    intro session agent turnKey expected own
    refine safe_bind (hop .listBuilderMessages rfl) fun messages => safe_bind (hcurrent session) fun current => ?_
    refine safe_bind (Q := fun _ _ => True)
      ((safe_attempt (hc session agent turnKey own.content _ current)).conseq (fun _ _ h => h) (fun _ _ _ _ => trivial)
        (fun _ _ _ h => h.elim)) fun compiled => ?_
    cases compiled with
    | error e => exact safe_bind (hop (.completeBuilderTurn _ _) rfl) fun _ => safe_pure fun _ _ _ => trivial
    | ok d => exact safe_bind (hmap _ _ (hop (.completeBuilderTurn _ _) rfl)) fun _ => safe_pure fun _ _ _ => trivial
  unfold sendMessage
  split
  · exact safe_throw fun _ _ _ => trivial
  · refine safe_bind (hop .getBuilderSession rfl) fun session => safe_bind (hop (.findBuilderTurn _) rfl) fun turn => ?_
    obtain ⟨_, assistant⟩ := turn
    cases assistant with
    | some m =>
      refine safe_bind (Q := fun _ _ => True) ?_ fun _ => safe_pure fun _ _ _ => trivial
      split
      · exact safe_pure fun _ _ _ => trivial
      · exact hop (.getDraft _) rfl
    | none =>
      dsimp only
      split
      · exact safe_throw fun _ _ _ => trivial
      · exact safe_bind (hmap _ _ (hop (.appendBuilderUserMessage _ _) rfl)) fun own => hturn _ _ _ _ own

/-- The calls, by their programs. -/
theorem program_safe (cfg : Setup) (pre : ApiCall → Op → World → Prop) (Q : ApiCall → Result → World → Prop)
    (hcompile : ∀ req, Safe (G.contract (pre (.compile req))) (fun _ => True) (compile cfg req)
      (fun d => Q (.compile req) (.draft d)) (fun _ _ => True))
    (happrove : ∀ id hash, Safe (G.contract (pre (.approve id hash))) (fun _ => True) (approve cfg id hash)
      (fun r => Q (.approve id hash) (.approved r.1 r.2)) (fun _ _ => True))
    (hsend : ∀ input, Safe (G.contract (pre (.send input))) (fun _ => True) (sendMessage cfg input)
      (fun r => Q (.send input) (.turn r)) (fun _ _ => True))
    (c : ApiCall) : Safe (G.contract (pre c)) (fun _ => True) (c.program cfg) (Q c) (fun _ _ => True) := by
  cases c with
  | compile req => exact safe_bind (hcompile req) fun d => safe_pure fun _ _ h => h
  | approve id hash => exact safe_bind (happrove id hash) fun r => safe_pure fun _ _ h => h
  | send input => exact safe_bind (hsend input) fun r => safe_pure fun _ _ h => h

end

end VibeCompiler
