import VibeWorkflow.StableProofs

/-!
# The pump's contract and the rules of its calls

The pump is checked against `Justified` in the logic of asynchronous programs: every call it
makes is made for the stated reason, in the state the call takes effect in, whatever others did
while the pump was suspended.  Here are the contract, one rule for each kind of call, and the
code the pump shares with the public calls.

* **`pumpContract`** — what the pump may assume and owes, with the loops' invariants.
* **`wp_call`**, **`wp_quiet`**, **`wp_read`**, **`wp_terminalize`** — the rules.
* **`sound_performCancellation`** — a cancellation that returns leaves the workflow ended.
-/

namespace VibeRuntime

open VibeJson VibeContract VibeRouting VibeTemplate VibeValidator VibeStore VibeAdmission VibeControl
open AsyncLogic

/-! ## The contract -/

/-- What the flags a piece of code woke up with say about the world. -/
structure FlagsOk (fl : Flags) (w : World) : Prop where
  stopped : fl.stopped = true → w.stopped = true
  aborted : fl.aborted = true → fl.stopped = true ∨ CancelReason w ∨ w.db.isTerminal = true
  now : fl.now ≤ w.now

/-- What the way the driver left a workflow says about its row. -/
def ExitOk (why : Exit) (w : World) : Prop :=
  match why with
  | .shutdown => w.stopped = true
  | .notRunning | .stepEnded | .ended => w.db.wf.status ≠ .running ∨ w.restarted = true
  | .limit | .cancelled => w.db.isTerminal = true
  | .createDeadline | .createAborted | .resultAborted | .gateAborted => True

/-- A row the driver read knows when the workflow started. -/
def StartedOk (wf : WorkflowRow) (w : World) : Prop :=
  ∀ t, wf.startedAt = some t → w.db.wf.startedAt = some t

/-- A task may be requested. -/
structure CreateReady (cfg : Config) (wf : WorkflowRow) (k : StepKey)
    (req : AgentTaskCreateRequest) (w : World) : Prop where
  valid : ValidSpec cfg.rawSpec
  unbound : AtUnbound cfg w k
  room : TaskRoom cfg w
  pause : PauseOk cfg w k
  request : requestOf cfg w k = some req
  started : StartedOk wf w

/-- A cancellation is under way, or too late. -/
def CancelOk (w : World) : Prop := CancelReason w ∨ w.db.isTerminal = true

def loopInv (cfg : Config) (l : Label) (fl : Flags) (w : World) : Prop :=
  FlagsOk fl w ∧ match l with
    | .drive => True
    | .create wf k req _ => CreateReady cfg wf k req w
    | .wait wf _ _ _ => StartedOk wf w
    | .resolve k cur _ _ => AtBound cfg w k cur.taskId ∧ ResultRead w cur.taskId cur
    | .observe _ _ => True

def createPost (cfg : Config) (wf : WorkflowRow) (k : StepKey) (r : CreateOutcome) (fl : Flags)
    (w : World) : Prop :=
  match r with
  | .ok => FlagsOk fl w ∧ StartedOk wf w ∧ ∃ t, AtBound cfg w k t
  | .stop why => ExitOk why w

def waitPost (cfg : Config) (taskId : String) (r : WaitOutcome) (fl : Flags) (w : World) : Prop :=
  FlagsOk fl w ∧ match r with
    | .read r => .read r ∈ w.log ∧ r.taskId = taskId ∧ r.status.isTerminal = true
    | .shutdown => w.stopped = true
    | .deadline => deadlineExceeded cfg w.db.wf w.now = true
    | .cancel => CancelOk w

def resolvePost (taskId : String) (w₀ : World) (r : Resolved) (fl : Flags) (w : World) : Prop :=
  match r with
  | .available r => Rely w₀ w ∧ FlagsOk fl w ∧ ResultRead w taskId r ∧
      r.resultStatus = .available ∧ r.resultText.isSome
  | .handled why => ExitOk why w

/-- What a loop that returns leaves. -/
def okPost (cfg : Config) : (l : Label) → World → Ret l → Flags → World → Prop
  | .drive, _, why, _, w => ExitOk why w
  | .create wf k _ _, _, r, fl, w => createPost cfg wf k r fl w
  | .wait _ taskId _ _, w₀, r, fl, w => Rely w₀ w ∧ waitPost cfg taskId r fl w
  | .resolve _ cur _ _, w₀, r, fl, w => resolvePost cur.taskId w₀ r fl w
  | .observe _ _, w₀, _, fl, w => Rely w₀ w ∧ FlagsOk fl w

/-- The pump's contract. -/
def pumpContract (cfg : Config) : Contract sig World where
  inv := CoreInv cfg
  rely := Rely
  rely_refl := Rely.refl
  rely_trans := Rely.trans
  pre := Justified cfg
  exec := fun op w r w' => ∃ inp, exec op w inp = some (r, w')
  wake := noteWake
  flags := World.flags
  linv := loopInv cfg
  lpost := fun l _ w r fl' w' =>
    match r with
    | .ok a => okPost cfg l w a fl' w'
    | .error _ => True

/-! ## Stability -/

section

variable {cfg : Config} {w w' : World}

theorem FlagsOk.rely {fl : Flags} (h : FlagsOk fl w) (hr : Rely w w') : FlagsOk fl w' where
  stopped := fun hs => hr.stopped (h.stopped hs)
  aborted := by
    intro ha
    rcases h.aborted ha with hs | hc | ht
    · exact Or.inl hs
    · exact Or.inr (Or.inl (hr.cancel hc))
    · exact Or.inr (Or.inr (hr.isTerminal ht))
  now := Nat.le_trans h.now hr.now

theorem ExitOk.rely {x : Exit} (h : ExitOk x w) (hr : Rely w w') : ExitOk x w' := by
  have hrun : w.db.wf.status ≠ .running ∨ w.restarted = true →
      w'.db.wf.status ≠ .running ∨ w'.restarted = true := by
    intro h
    rcases h with h | h
    · exact hr.notRunning h
    · exact Or.inr (hr.restarted h)
  cases x with
  | shutdown => exact hr.stopped h
  | notRunning => exact hrun h
  | stepEnded => exact hrun h
  | ended => exact hrun h
  | limit => exact hr.isTerminal h
  | cancelled => exact hr.isTerminal h
  | createDeadline => trivial
  | createAborted => trivial
  | resultAborted => trivial
  | gateAborted => trivial

theorem StartedOk.rely {wf : WorkflowRow} (h : StartedOk wf w) (hr : Rely w w') : StartedOk wf w' :=
  fun t ht => hr.started t (h t ht)

theorem CancelOk.rely (h : CancelOk w) (hr : Rely w w') : CancelOk w' := by
  rcases h with h | h
  · exact Or.inl (hr.cancel h)
  · exact Or.inr (hr.isTerminal h)

theorem CreateReady.rely {wf : WorkflowRow} {k : StepKey} {req : AgentTaskCreateRequest}
    (h : CreateReady cfg wf k req w) (hi : CoreInv cfg w) (hr : Rely w w') :
    CreateReady cfg wf k req w' where
  valid := h.valid
  unbound := h.unbound.rely hr
  room := h.room.rely hr
  pause := h.pause.rely hr
  request := (requestOf_rely h.valid hi (requestOf_step h.request) h.pause hr).trans h.request
  started := h.started.rely hr

/-- A deadline seen on an earlier row and clock is reached. -/
theorem deadline_rely {wf : WorkflowRow} {now : Nat} (h : deadlineExceeded cfg wf now = true)
    (hs : StartedOk wf w) (hnow : now ≤ w.now) : deadlineExceeded cfg w.db.wf w.now = true := by
  unfold deadlineExceeded at h ⊢
  cases ht : wf.startedAt with
  | none =>
    rw [ht] at h
    exact nomatch h
  | some t =>
    rw [ht] at h
    rw [hs t ht]
    simp only [decide_eq_true_eq] at h ⊢
    omega

/-- The flags of a waking piece of code, seen from where it goes on. -/
theorem flagsOk_wake {op : Op} {r : Except CallError (Ans op)} (hi : CoreInv cfg w)
    (hr : Rely (noteWake op r w) w') : FlagsOk w.flags w' := by
  have hrely : Rely w w' := (noteWake_rely op r w).trans hr
  refine FlagsOk.rely ⟨id, ?_, Nat.le_refl _⟩ hrely
  exact hi.abort

end

/-! ## Rules for calls -/

/-- A transient failure of the driver's wait in a stopped process counts as a reason to cancel. -/
def WakeOk (op : Op) (r : Except CallError (Ans op)) (fl : Flags) (w : World) : Prop :=
  match op with
  | .waitForTerminal _ _ .awaitTask =>
    match r with
    | .error .transientTask => fl.stopped = true → CancelReason w
    | _ => True
  | _ => True

theorem wakeOk_wake (op : Op) (r : Except CallError (Ans op)) {w w' : World}
    (hr : Rely (noteWake op r w) w') : WakeOk op r w.flags w' := by
  unfold WakeOk
  split
  · split
    · intro hs
      refine hr.cancel (Or.inr ?_)
      show (w.stopCancel || w.stopped) = true
      have hs : w.stopped = true := hs
      rw [hs, Bool.or_true]
    · trivial
  · trivial

section

variable {cfg : Config} {α : Type} {op : Op} {Q : α → Flags → World → Prop}
  {E : CallError → Flags → World → Prop} {fl : Flags} {w : World}

/-- Every call: its guard is due where it takes effect, and the code after it sees flags that
    are true of the world it goes on in. -/
theorem wp_call {f : Ans op → Rt α}
    (h : ∀ w₁, Rely w w₁ → CoreInv cfg w₁ → Justified cfg op w₁ ∧
      ∀ r w₂ inp, exec op w₁ inp = some (r, w₂) → ∀ fl' w', Rely w₂ w' → CoreInv cfg w' →
        FlagsOk fl' w' → WakeOk op r fl' w' →
          match r with
          | .ok a => wpJs (pumpContract cfg) (f a) Q E fl' w'
          | .error e => E e fl' w') :
    wpJs (pumpContract cfg) (call op >>= f) Q E fl w := by
  refine wpJs_await_bind (C := pumpContract cfg) ?_
  intro w₁ hr₁ hi₁
  obtain ⟨hj, hpost⟩ := h w₁ hr₁ hi₁
  refine ⟨hj, ?_⟩
  rintro r w₂ ⟨inp, hex⟩ w₃ hr₃ hi₃ w₄ hr₄ hi₄
  have hr₃ : Rely w₂ w₃ := hr₃
  have hr₄ : Rely (noteWake op r w₃) w₄ := hr₄
  have hgo := hpost r w₂ inp hex _ w₄ ((hr₃.trans (noteWake_rely op r w₃)).trans hr₄) hi₄
    (flagsOk_wake hi₃ hr₄) (wakeOk_wake op r hr₄)
  cases r with
  | ok a => exact hgo
  | error e => exact hgo

/-- A call that leaves the pump's data alone. -/
theorem wp_quiet {f : Ans op → Rt α} (hk : op.keeps = true) (hw : op.wakes = false)
    (hj : ∀ w₁, Rely w w₁ → CoreInv cfg w₁ → Justified cfg op w₁)
    (h : ∀ w₁ r w₂ inp fl' w', Rely w w₁ → exec op w₁ inp = some (r, w₂) → Rely w₂ w' →
      Rely w w' → CoreInv cfg w' → FlagsOk fl' w' → WakeOk op r fl' w' →
        match r with
        | .ok a => wpJs (pumpContract cfg) (f a) Q E fl' w'
        | .error e => E e fl' w') :
    wpJs (pumpContract cfg) (call op >>= f) Q E fl w := by
  refine wp_call ?_
  intro w₁ hr₁ hi₁
  refine ⟨hj w₁ hr₁ hi₁, ?_⟩
  intro r w₂ inp hex fl' w' hr' hi' hfl hwk
  have hstep : Rely w₁ w₂ := (exec_effect hex).rely hk (fun h => by rw [hw] at h; exact nomatch h)
  exact h w₁ r w₂ inp fl' w' hr₁ hex hr' ((hr₁.trans hstep).trans hr') hi' hfl hwk

/-- A read of the store: its answer is true of a world between. -/
theorem wp_read {f : Ans op → Rt α} {v : World → Ans op}
    (hop : ∀ w inp, exec op w inp = storeRead w inp (v w)) (hj : ∀ w, Justified cfg op w)
    (h : ∀ w₁ fl' w', Rely w w₁ → CoreInv cfg w₁ → Rely w₁ w' → Rely w w' → CoreInv cfg w' →
      FlagsOk fl' w' → wpJs (pumpContract cfg) (f (v w₁)) Q E fl' w')
    (hE : ∀ e fl' w', Rely w w' → CoreInv cfg w' → FlagsOk fl' w' → E e fl' w') :
    wpJs (pumpContract cfg) (call op >>= f) Q E fl w := by
  refine wp_call ?_
  intro w₁ hr₁ hi₁
  refine ⟨hj w₁, ?_⟩
  intro r w₂ inp hex fl' w' hr' hi' hfl _
  rw [hop] at hex
  obtain ⟨rfl, hres⟩ := storeRead_cases hex
  rcases hres with rfl | ⟨e, rfl⟩
  · exact h w₂ fl' w' hr₁ hi₁ hr' (hr₁.trans hr') hi' hfl
  · exact hE (.store e) fl' w' (hr₁.trans hr') hi' hfl

/-- Returning. -/
theorem wp_pure {a : α} (h : ∀ w', Rely w w' → CoreInv cfg w' → Q a fl w') :
    wpJs (pumpContract cfg) (pure a : Rt α) Q E fl w :=
  wpJs_pure (C := pumpContract cfg) h

end

/-! ## Ending writes -/

/-- Errors end the pump; nothing is promised of them. -/
def anyErr : CallError → Flags → World → Prop := fun _ _ _ => True

theorem not_running_of_terminal {w : World} (h : w.db.isTerminal = true) :
    w.db.wf.status ≠ .running := by
  intro hs
  unfold Db.isTerminal at h
  rw [hs] at h
  exact nomatch h

theorem terminalTargetToStatus_ne (target : String) : terminalTargetToStatus target ≠ .running := by
  unfold terminalTargetToStatus
  split
  · exact nofun
  · split <;> exact nofun

theorem completionStatus_ne (d : CompletionDecision) : completionStatus d ≠ .running := by
  cases d <;> exact nofun

/-- An ended or blocked workflow, after the write. -/
theorem terminalize_status {w w' : World} {status : WorkflowStatus} {edge : Option WorkflowEvent}
    {ev : WorkflowEvent} {inp : Input}
    (h : exec (.terminalize status edge ev) w inp = some (.ok (), w')) :
    w'.db.wf.status = status ∨ w'.db.isTerminal = true := by
  rcases storeWrite_cases h with ⟨db, hdb, -, rfl⟩ | ⟨-, e, he⟩
  · cases hdb
    show (terminalizeWorkflow w.db status edge ev).wf.status = status ∨
      (terminalizeWorkflow w.db status edge ev).isTerminal = true
    unfold terminalizeWorkflow
    split
    · rename_i hor
      exact hor
    · exact Or.inl rfl
  · exact nomatch he

section

variable {cfg : Config} {α : Type} {Q : α → Flags → World → Prop} {fl : Flags} {w : World}

/-- Ending, blocking: the reason is due, and the row is left not running. -/
theorem wp_terminalize {status : WorkflowStatus} {edge : Option WorkflowEvent} {ev : WorkflowEvent}
    {f : Unit → Rt α} (hne : status ≠ .running)
    (hj : ∀ w₁, Rely w w₁ → CoreInv cfg w₁ → EndReason cfg w₁ status edge ev)
    (h : ∀ fl' w', ExitOk .ended w' → (isTerminalWorkflowStatus status = true → w'.db.isTerminal = true) →
      wpJs (pumpContract cfg) (f ()) Q anyErr fl' w') :
    wpJs (pumpContract cfg) (call (.terminalize status edge ev) >>= f) Q anyErr fl w := by
  refine wp_call ?_
  intro w₁ hr₁ hi₁
  refine ⟨hj w₁ hr₁ hi₁, ?_⟩
  intro r w₂ inp hex fl' w' hr' _ _ _
  cases r with
  | error e => trivial
  | ok a =>
    have hst := terminalize_status hex
    refine h fl' w' ?_ ?_
    · refine ExitOk.rely (Or.inl ?_) hr'
      rcases hst with hs | ht
      · rw [hs]
        exact hne
      · exact not_running_of_terminal ht
    · intro hterm
      refine hr'.isTerminal ?_
      rcases hst with hs | ht
      · unfold Db.isTerminal
        rw [hs]
        exact hterm
      · exact ht

theorem wp_failWorkflow {code : String} {info : List (String × Json)} {f : Unit → Rt α}
    (hj : ∀ w₁, Rely w w₁ → CoreInv cfg w₁ → EndReason cfg w₁ .failed none (failedEvent code info))
    (h : ∀ fl' w', ExitOk .ended w' → wpJs (pumpContract cfg) (f ()) Q anyErr fl' w') :
    wpJs (pumpContract cfg) (failWorkflow code info >>= f) Q anyErr fl w :=
  wp_terminalize nofun hj (fun fl' w' hx _ => h fl' w' hx)

theorem wp_blockWorkflow {reason : String} {info : List (String × Json)} {f : Unit → Rt α}
    (hj : ∀ w₁ ev, Rely w w₁ → CoreInv cfg w₁ → ev.type = .workflowBlocked →
      EndReason cfg w₁ .blocked none ev)
    (h : ∀ fl' w', ExitOk .ended w' → wpJs (pumpContract cfg) (f ()) Q anyErr fl' w') :
    wpJs (pumpContract cfg) (blockWorkflow reason info >>= f) Q anyErr fl w :=
  wp_terminalize nofun (fun w₁ hr hi => hj w₁ _ hr hi rfl) (fun fl' w' hx _ => h fl' w' hx)

theorem wp_failLimit {limit : String} {f : Unit → Rt α}
    (hj : ∀ w₁, Rely w w₁ → CoreInv cfg w₁ → EndReason cfg w₁ .failed none (limitEvent limit))
    (h : ∀ fl' w', ExitOk .ended w' → w'.db.isTerminal = true →
      wpJs (pumpContract cfg) (f ()) Q anyErr fl' w') :
    wpJs (pumpContract cfg) (failLimit limit >>= f) Q anyErr fl w :=
  wp_terminalize nofun hj (fun fl' w' hx ht => h fl' w' hx (ht rfl))

/-- A failed step leaves its workflow ended. -/
theorem failStep_terminal {k : StepKey} {stepEv ev : WorkflowEvent} {error : Json} {w' : World}
    {inp : Input} (h : exec (.failStepAndWorkflow k stepEv ev error) w inp = some (.ok (), w')) :
    w'.db.isTerminal = true := by
  rcases storeWrite_cases h with ⟨db, hdb, -, rfl⟩ | ⟨-, e, he⟩
  · unfold failStepAndWorkflow at hdb
    split at hdb
    · exact nomatch hdb
    · simp only at hdb
      split at hdb
      · rename_i hterm
        cases hdb
        exact hterm
      · cases hdb
        rfl
  · exact nomatch he

theorem wp_failStepOf {k : StepKey} {info : List (String × Json)} {f : Unit → Rt α}
    (hj : ∀ w₁, Rely w w₁ → CoreInv cfg w₁ → ∃ t, AtBound cfg w₁ k t ∧ FailReason cfg w₁ k t)
    (h : ∀ fl' w', ExitOk .ended w' → wpJs (pumpContract cfg) (f ()) Q anyErr fl' w') :
    wpJs (pumpContract cfg) (failStepOf k info >>= f) Q anyErr fl w := by
  refine wp_call ?_
  intro w₁ hr₁ hi₁
  refine ⟨⟨hj w₁ hr₁ hi₁, rfl, rfl⟩, ?_⟩
  intro r w₂ inp hex fl' w' hr' _ _ _
  cases r with
  | error e => trivial
  | ok a => exact h fl' w' (ExitOk.rely (Or.inl (not_running_of_terminal (failStep_terminal hex))) hr')

end

/-! ## Code the pump shares with the public calls -/

/-- The guard of the calls that cancel and release. -/
def CancelGuard (op : Op) (w : World) : Prop :=
  match op with
  | .getWorkflow .other | .getStepByKey _ | .lease _ | .backoff _ => True
  | .recordIntent => CancelReason w
  | .cancelTask _ => CancelReason w
  | .cancelStepAndWorkflow _ seen ev => CancelReason w ∧ ev.type = .workflowCancelled ∧
      ∀ t, seen = some t → t ∈ w.cancelAccepted ∨ t ∈ w.cancelFailed
  | _ => False

/-- Contracts under which that code is safe. -/
structure Sound (C : Contract sig World) : Prop where
  mono : ∀ {w w'}, C.rely w w' → Mono w w'
  runs : ∀ {op w r w'}, C.exec op w r w' → ∃ inp, exec op w inp = some (r, w')
  wake : ∀ op r w, C.wake op r w = noteWake op r w
  pre : ∀ op w, CancelGuard op w → C.pre op w

theorem pumpContract_sound (cfg : Config) : Sound (pumpContract cfg) where
  mono := fun h => Rely.toMono h
  runs := id
  wake := fun _ _ _ => rfl
  pre := by
    intro op w h
    cases op <;> first | exact h | exact absurd h id | trivial

section

variable {C : Contract sig World} {α : Type} {op : Op} {Q : α → Flags → World → Prop}
  {E : CallError → Flags → World → Prop} {fl : Flags} {w : World}

theorem sound_call (hC : Sound C) {f : Ans op → Rt α}
    (h : ∀ w₁, Mono w w₁ → CancelGuard op w₁ ∧
      ∀ r w₂ inp, exec op w₁ inp = some (r, w₂) → ∀ fl' w', Mono w₂ w' →
        match r with
        | .ok a => wpJs C (f a) Q E fl' w'
        | .error e => E e fl' w') :
    wpJs C (call op >>= f) Q E fl w := by
  refine wpJs_await_bind (C := C) ?_
  intro w₁ hr₁ _
  obtain ⟨hg, hpost⟩ := h w₁ (hC.mono hr₁)
  refine ⟨hC.pre op w₁ hg, ?_⟩
  intro r w₂ hex w₃ hr₃ _ w₄ hr₄ _
  obtain ⟨inp, hex⟩ := hC.runs hex
  have hm₄ := hC.mono hr₄
  rw [hC.wake] at hm₄
  have hgo := hpost r w₂ inp hex (C.flags w₃) w₄
    (((hC.mono hr₃).trans (noteWake_rely op r w₃).toMono).trans hm₄)
  cases r with
  | ok a => exact hgo
  | error e => exact hgo

/-- The last call of a program. -/
theorem wpJs_last {m : Rt α} (h : wpJs C (m >>= fun a => pure a) Q E fl w) : wpJs C m Q E fl w := by
  have hid : (m >>= fun a => pure a) = m := by
    funext fl
    show (m fl).bind _ = m fl
    generalize m fl = p
    induction p with
    | ret a =>
      obtain ⟨r, fl'⟩ := a
      cases r <;> rfl
    | call op k ih =>
      show Prog.call op _ = Prog.call op k
      congr 1
      funext r fl'
      exact ih r fl'
    | loop l fl₀ k ih =>
      show Prog.loop l fl₀ _ = Prog.loop l fl₀ k
      congr 1
      funext r fl'
      exact ih r fl'
  rw [hid] at h
  exact h

theorem cancelStep_terminal {k : Option StepKey} {seen : Option String} {ev : WorkflowEvent}
    {w' : World} {inp : Input}
    (h : exec (.cancelStepAndWorkflow k seen ev) w inp = some (.ok (), w')) :
    w'.db.isTerminal = true := by
  rcases storeWrite_cases h with ⟨db, hdb, -, rfl⟩ | ⟨-, e, he⟩
  · cases hdb
    show (cancelStepAndWorkflow w.db k ev).isTerminal = true
    unfold cancelStepAndWorkflow
    split
    · assumption
    · rfl
  · exact nomatch he

/-- The last write of a cancellation. -/
theorem sound_cancelStep (hC : Sound C) {k : Option StepKey} {seen : Option String}
    {ev : WorkflowEvent} (hc : CancelReason w) (hev : ev.type = .workflowCancelled)
    (hseen : ∀ t, seen = some t → t ∈ w.cancelAccepted ∨ t ∈ w.cancelFailed) :
    wpJs C (call (.cancelStepAndWorkflow k seen ev))
      (fun _ _ w' => w'.db.isTerminal = true) anyErr fl w := by
  refine wpJs_last (sound_call hC ?_)
  intro w₁ hm
  refine ⟨⟨hm.cancel hc, hev, ?_⟩, ?_⟩
  · intro t ht
    exact (hseen t ht).imp (fun h => hm.accepted h) (fun h => hm.failed h)
  · intro r w₂ inp hex fl' w' hm'
    cases r with
    | error e => trivial
    | ok a =>
      refine wpJs_pure (C := C) ?_
      intro w₃ hr₃ _
      exact (hC.mono hr₃).isTerminal (hm'.isTerminal (cancelStep_terminal hex))

/-- A cancel call is accepted or failed. -/
theorem cancelTask_seen {t : String} {w' : World} {inp : Input}
    {r : Except CallError (Ans (.cancelTask t))}
    (h : exec (.cancelTask t) w inp = some (r, w')) : t ∈ w'.cancelAccepted ∨ t ∈ w'.cancelFailed := by
  simp only [exec] at h
  split at h
  · cases h
    exact Or.inl (List.mem_append_right _ (List.mem_singleton.mpr rfl))
  · cases h
    exact Or.inr (List.mem_append_right _ (List.mem_singleton.mpr rfl))
  · cases h

/-- Cancel the task, whatever comes of it, then end the workflow. -/
theorem sound_cancelTaskThen (hC : Sound C) {k : Option StepKey} {taskId : String}
    {ev : WorkflowEvent} (hc : CancelReason w) (hev : ev.type = .workflowCancelled) :
    wpJs C (catching (call (.cancelTask taskId)) (fun _ => pure ()) >>= fun (_ : Unit) =>
        call (.cancelStepAndWorkflow k (some taskId) ev))
      (fun _ _ w' => w'.db.isTerminal = true) anyErr fl w := by
  refine wpJs_bind (C := C) (wpJs_tryCatch (C := C) (wpJs_last (sound_call hC ?_)))
  intro w₁ hm₁
  refine ⟨hm₁.cancel hc, ?_⟩
  intro r w₂ inp hex fl' w' hm'
  have hreason : CancelReason w' := hm'.cancel ((exec_effect hex).mono.cancel (hm₁.cancel hc))
  have hseen : taskId ∈ w'.cancelAccepted ∨ taskId ∈ w'.cancelFailed :=
    (cancelTask_seen hex).imp (fun h => hm'.accepted h) (fun h => hm'.failed h)
  have hgo : ∀ w₃, C.rely w' w₃ → ∀ fl₃, wpJs C (call (.cancelStepAndWorkflow k (some taskId) ev))
      (fun _ _ w' => w'.db.isTerminal = true) anyErr fl₃ w₃ := by
    intro w₃ hr₃ fl₃
    have hm₃ := hC.mono hr₃
    refine sound_cancelStep hC (hm₃.cancel hreason) hev ?_
    intro t ht
    cases ht
    exact hseen.imp (fun h => hm₃.accepted h) (fun h => hm₃.failed h)
  cases r with
  | ok a => exact wpJs_pure (C := C) (fun w₃ hr₃ _ => hgo w₃ hr₃ _)
  | error e => exact wpJs_pure (C := C) (fun w₃ hr₃ _ => hgo w₃ hr₃ _)

/-- **A cancellation** that returns leaves the workflow ended; it does nothing to one that has
    ended before. -/
theorem sound_performCancellation (hC : Sound C) (hc : CancelOk w) :
    wpJs C performCancellation (fun _ _ w' => w'.db.isTerminal = true) anyErr fl w := by
  unfold performCancellation
  refine sound_call hC ?_
  intro w₁ hm₁
  refine ⟨trivial, ?_⟩
  intro r w₂ inp hex fl₂ w' hm'
  obtain ⟨rfl, hres⟩ := storeRead_cases hex
  rcases hres with rfl | ⟨e, rfl⟩
  swap
  · trivial
  show wpJs C (if isTerminalWorkflowStatus w₂.db.wf.status = true then _ else _) _ _ _ _
  split
  · rename_i hterm
    refine wpJs_pure (C := C) ?_
    intro w₃ hr₃ _
    exact (hC.mono hr₃).isTerminal (hm'.isTerminal hterm)
  · rename_i hterm
    -- the workflow has not ended, so there is a reason
    have hreason : CancelReason w' := by
      rcases hc with hc | ht
      · exact hm'.cancel (hm₁.cancel hc)
      · exact absurd (hm₁.isTerminal ht) hterm
    refine sound_call hC ?_
    intro w₃ hm₃
    refine ⟨hm₃.cancel hreason, ?_⟩
    intro r w₄ inp₄ hex₄ fl₄ w₅ hm₅
    have hreason : CancelReason w₅ := hm₅.cancel ((exec_effect hex₄).mono.cancel (hm₃.cancel hreason))
    cases r with
    | error e => trivial
    | ok a =>
      dsimp only
      cases w₂.db.wf.currentStepId with
      | none => exact sound_cancelStep hC hreason rfl (by intros; contradiction)
      | some stepId =>
        refine sound_call hC ?_
        intro w₆ hm₆
        refine ⟨trivial, ?_⟩
        intro r w₇ inp₇ hex₇ fl₇ w₈ hm₈
        have hreason : CancelReason w₈ :=
          hm₈.cancel ((exec_effect hex₇).mono.cancel (hm₆.cancel hreason))
        cases r with
        | error e => trivial
        | ok step =>
          cases step with
          | none => exact sound_cancelStep hC hreason rfl (by intros; contradiction)
          | some row =>
            dsimp only
            cases row.taskId with
            | none => exact sound_cancelStep hC hreason rfl (by intros; contradiction)
            | some taskId => exact sound_cancelTaskThen hC hreason rfl

end

/-! ## Releasing leases -/

/-- The calls of a release. -/
inductive Releases : Op → Prop where
  | read : Releases (.getWorkflow .other)
  | lease {q : LeaseQuery} : Releases (.lease q)
  | backoff {attempt : Nat} : Releases (.backoff attempt)

theorem Releases.guard {op : Op} (h : Releases op) (w : World) : CancelGuard op w := by
  cases h <;> trivial

theorem Releases.keeps {op : Op} (h : Releases op) : op.keeps = true ∧ op.wakes = false := by
  cases h <;> exact ⟨rfl, rfl⟩

/-- A fact that neither interference nor a release takes away. -/
structure Carried (C : Contract sig World) (P : World → Prop) : Prop where
  sound : Sound C
  rely : ∀ {w w'}, C.rely w w' → P w → P w'
  call : ∀ {op w inp r w'}, Releases op → exec op w inp = some (r, w') → P w → P w'
  wake : ∀ {op r w}, P w → P (noteWake op r w)

section

variable {C : Contract sig World} {P : World → Prop} {α : Type} {op : Op}
  {Q : α → Flags → World → Prop} {E : CallError → Flags → World → Prop} {fl : Flags} {w : World}

theorem Carried.step (hC : Carried C P) {f : Ans op → Rt α} (hop : Releases op) (hP : P w)
    (h : ∀ a fl' w', P w' → wpJs C (f a) Q E fl' w') (hE : ∀ e fl' w', P w' → E e fl' w') :
    wpJs C (VibeRuntime.call op >>= f) Q E fl w := by
  refine wpJs_await_bind (C := C) ?_
  intro w₁ hr₁ _
  refine ⟨hC.sound.pre op w₁ (hop.guard w₁), ?_⟩
  intro r w₂ hex w₃ hr₃ _ w₄ hr₄ _
  obtain ⟨inp, hex⟩ := hC.sound.runs hex
  rw [hC.sound.wake] at hr₄
  have hP₄ : P w₄ := hC.rely hr₄ (hC.wake (hC.rely hr₃ (hC.call hop hex (hC.rely hr₁ hP))))
  cases r with
  | ok a => exact h a _ w₄ hP₄
  | error e => exact hE e _ w₄ hP₄

theorem Carried.done (hC : Carried C P) {a : α} (hP : P w) (hQ : ∀ w', P w' → Q a fl w') :
    wpJs C (pure a : Rt α) Q E fl w :=
  wpJs_pure (C := C) (fun w₁ hr _ => hQ w₁ (hC.rely hr hP))

/-- A program that keeps a fact, also when it fails. -/
def keepsFact (C : Contract sig World) (P : World → Prop) (m : Rt Unit) : Prop :=
  ∀ fl w, P w → wpJs C m (fun _ _ w' => P w') (fun _ _ w' => P w') fl w

theorem releaseLeaseWithRetry_keeps (hC : Carried C P) (lease : LeaseProjection)
    (left attempt : Nat) : keepsFact C P (releaseLeaseWithRetry lease left attempt) := by
  induction left generalizing attempt with
  | zero => exact fun fl w hP => hC.done hP (fun _ h => h)
  | succ left ih =>
    intro fl w hP
    refine wpJs_flags_bind (C := C) ?_
    show wpJs C (if fl.stopped = true then _ else _) _ _ _ _
    split
    · exact hC.done hP (fun _ h => h)
    · -- the two calls of an attempt, then the retry
      have hretry : ∀ (again : Bool) fl w, P w → wpJs C (if again then (do
          let _ : Unit ← call (.backoff attempt)
          releaseLeaseWithRetry lease left (attempt + 1)) else pure ())
          (fun _ _ w' => P w') (fun _ _ w' => P w') fl w := by
        intro again fl w hP
        cases again with
        | false => exact hC.done hP (fun _ h => h)
        | true => exact hC.step .backoff hP (fun _ fl w hP => ih (attempt + 1) fl w hP) (fun _ _ _ h => h)
      have hcatch : ∀ (e : CallError) fl w, P w →
          wpJs C (if e = .transientLease then pure true else pure false : Rt Bool)
            (fun again fl w => wpJs C (if again then (do
              let _ : Unit ← call (.backoff attempt)
              releaseLeaseWithRetry lease left (attempt + 1)) else pure ())
              (fun _ _ w' => P w') (fun _ _ w' => P w') fl w) (fun _ _ w' => P w') fl w := by
        intro e fl w hP
        split
        · exact hC.done hP (fun w' h => hretry true fl w' h)
        · exact hC.done hP (fun w' h => hretry false fl w' h)
      refine wpJs_bind (C := C) (wpJs_tryCatch (C := C) (hC.step .lease hP ?_ hcatch))
      intro _ fl w hP
      refine hC.step .lease hP ?_ hcatch
      exact fun _ fl w hP => hC.done hP (fun w' h => hretry false fl w' h)

theorem releaseAll_keeps (hC : Carried C P) (cfg : Config) (leases : List LeaseProjection) :
    keepsFact C P (releaseAll cfg leases) := by
  induction leases with
  | nil => exact fun fl w hP => hC.done hP (fun _ h => h)
  | cons lease rest ih =>
    intro fl w hP
    unfold releaseAll
    split
    · exact ih fl w hP
    · refine hC.step .lease hP ?_ (fun _ _ _ h => h)
      intro _ fl w hP
      refine wpJs_bind (C := C) (wpJs_mono
        (releaseLeaseWithRetry_keeps hC lease cfg.maxReleaseAttempts 0 fl w hP) ?_ ?_)
      · exact fun _ fl' w' _ h => ih fl' w' h
      · exact fun _ _ _ _ h => h

theorem settleLeaseReleases_keeps (hC : Carried C P) (cfg : Config) :
    keepsFact C P (settleLeaseReleases cfg) := by
  intro fl w hP
  unfold settleLeaseReleases
  split
  · refine hC.step .read hP ?_ (fun _ _ _ h => h)
    intro wf fl w hP
    have wf : WorkflowRow := wf
    split
    · refine hC.step .lease hP ?_ (fun _ _ _ h => h)
      exact fun reply fl w hP => releaseAll_keeps hC cfg _ fl w hP
    · exact hC.done hP (fun _ h => h)
  · exact hC.done hP (fun _ h => h)

end

end VibeRuntime
