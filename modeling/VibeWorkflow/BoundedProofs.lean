import VibeWorkflow.BegunProofs
import VibeWorkflow.PumpTurnProofs

/-!
# A run is bounded

There is one execution for each step and round at most, and each of them is completed once, so
the writes after which the driver goes back to its head run out.  With the levels of its loops
this bounds the turns of a pump whose calls are answered; a pump that has taken its last turn
has left its workflow.

* **`pump_turns_finite`** — every pump takes finitely many turns, whatever happens between them.
* **`bounded_execution`** — the bounds of a run, and what a pump leaves.
-/

namespace VibeRuntime

open VibeJson VibeContract VibeRouting VibeTemplate VibeValidator VibeStore VibeAdmission VibeControl
open AsyncLogic

/-! ## How far a workflow has come -/

def isCompletedRow (r : StepRow) : Bool := decide (r.status = .completed)

/-- Executions started and executions completed. -/
def Owned.progress (O : Owned) : Nat := O.steps.length + O.steps.countP isCompletedRow

/-- What is left of them. -/
def budget (cfg : Config) (O : Owned) : Nat :=
  2 * (cfg.spec.steps.length * roundLimit cfg) - O.progress

section

variable {cfg : Config} {rank : String → Nat} {w w' : World} {op : Op}

/-- Nothing is taken back. -/
theorem OwnedStep.progress {O O' : Owned} (hs : OwnedStep op O O')
    (hkeys : (O.steps.map StepRow.key).Nodup) : O.progress ≤ O'.progress := by
  have hlen : ∀ k, O.progress ≤ (O.steps ++ [StepRow.fresh k]).length +
      (O.steps ++ [StepRow.fresh k]).countP isCompletedRow := by
    intro k
    rw [List.length_append, List.countP_append]
    show O.steps.length + O.steps.countP isCompletedRow ≤ _
    omega
  cases hs with
  | same => exact Nat.le_refl _
  | @started k ev _ hnone => exact hlen k
  | @bound k taskId ev _ row hrow hfree =>
    show _ ≤ (O.steps.map _).length + (O.steps.map _).countP isCompletedRow
    rw [List.length_map, List.countP_map]
    refine Nat.add_le_add_left (Nat.le_of_eq (List.countP_congr (fun r _ => ?_))) _
    show isCompletedRow r = true ↔ isCompletedRow (if r.key = k then _ else r) = true
    split <;> exact Iff.rfl
  | @completed k output context ev _ row hrow hlive =>
    show _ ≤ (O.steps.map _).length + (O.steps.map _).countP isCompletedRow
    rw [List.length_map, countP_change hkeys hrow (decide_eq_false hlive) rfl]
    show O.steps.length + O.steps.countP isCompletedRow ≤ _
    omega
  | @advanced edgeEv roundEv next startedEv _ hnone => exact hlen next
  | stalled _ => exact Nat.le_refl _

theorem countP_masked (rows : List StepRow) :
    (rows.map maskRow).countP isCompletedRow = rows.countP isCompletedRow := by
  rw [List.countP_map]
  refine List.countP_congr (fun r _ => ?_)
  show isCompletedRow (maskRow r) = true ↔ isCompletedRow r = true
  unfold isCompletedRow
  rw [decide_eq_true_eq, decide_eq_true_eq]
  exact maskRow_completed r

/-- **A write after which the driver goes back to its head** is progress. -/
theorem advances_progress (hv : ValidSpec cfg.rawSpec) (hrank : Ranks cfg rank) (hi : CoreInv cfg w)
    (hp : Placed cfg rank (owned w.db)) (hop : op.advances = true) (hj : Justified cfg op w)
    {inp : Input} {r : Except CallError (Ans op)} (hr : r.isOk = true)
    (hex : exec op w inp = some (r, w')) : (owned w.db).progress < (owned w'.db).progress := by
  cases op with
  | completeStep k output revision context ev =>
    obtain ⟨t, -, ⟨row, hat, hlive, -⟩, -⟩ := hj
    obtain ⟨r₀, hr₀, hmask⟩ := hat.row?
    have hne : r₀.status ≠ .completed := by
      intro hc
      rw [← hmask] at hlive
      exact hlive ((maskRow_completed r₀).mpr hc)
    rcases storeWrite_cases hex with ⟨db, hdb, -, rfl⟩ | ⟨-, e, rfl⟩
    · unfold completeStepAndCheckpoint at hdb
      rw [hr₀] at hdb
      simp only [if_neg hne] at hdb
      split at hdb
      · exact nomatch hdb
      · split at hdb
        · exact nomatch hdb
        · cases hdb
          show (w.db.steps.map maskRow).length + (w.db.steps.map maskRow).countP isCompletedRow
            < ((w.db.steps.map _).map maskRow).length + ((w.db.steps.map _).map maskRow).countP isCompletedRow
          rw [countP_masked, countP_masked, countP_change hi.keys hr₀ (decide_eq_false hne) rfl,
            List.length_map, List.length_map, List.length_map]
          omega
    · exact nomatch hr
  | advance edgeEv roundEv next startedEv =>
    have hnone := advance_fresh hv hrank hp hj
    rcases storeWrite_cases hex with ⟨db, hdb, -, rfl⟩ | ⟨-, e, rfl⟩
    · unfold advanceWorkflow at hdb
      rw [hnone] at hdb
      simp only at hdb
      split at hdb
      · exact nomatch hdb
      · cases hdb
        show (w.db.steps.map maskRow).length + (w.db.steps.map maskRow).countP isCompletedRow
          < ((w.db.steps ++ [StepRow.fresh next]).map maskRow).length
            + ((w.db.steps ++ [StepRow.fresh next]).map maskRow).countP isCompletedRow
        rw [countP_masked, countP_masked, List.countP_append, List.length_map, List.length_map,
          List.length_append, List.length_singleton]
        omega
    · exact nomatch hr
  | _ => exact nomatch hop

/-- There is never more than that. -/
theorem progress_le (hv : ValidSpec cfg.rawSpec) (hi : CoreInv cfg w)
    (hp : Placed cfg rank (owned w.db)) :
    (owned w.db).progress ≤ 2 * (cfg.spec.steps.length * roundLimit cfg) := by
  have hkeys : ((owned w.db).steps.map StepRow.key).Nodup := by
    rw [owned_keys]
    exact hi.keys
  have hlen := hp.length_le hv hkeys
  have hcount : (owned w.db).steps.countP isCompletedRow ≤ (owned w.db).steps.length :=
    List.countP_le_length
  show (owned w.db).steps.length + (owned w.db).steps.countP isCompletedRow ≤ _
  omega

end

/-! ## Turns of a pump -/

def Action.ofPump : Action → Bool
  | .exec .pump _ | .wake .pump | .unfold .pump => true
  | _ => false

/-- A step of anybody else that leaves the process and its pump alone. -/
def besides (_ : Sys) (a : Action) : Prop := a.ofPump = false ∧ a ≠ .settle ∧ a ≠ .crash

/-- The pump's call is not answered with nothing. -/
def Answered (s : Sys) (a : Action) : Prop :=
  ∀ inp op r w', a = .exec .pump inp → s.nextOp .pump = some op → exec op s.w inp = some (r, w') →
    ¬ Idle op r

/-- Any number of steps of everybody else, and then a turn of the pump. -/
def PumpTurn (cfg : Config) (s s' : Sys) : Prop :=
  ∃ s₁ a, Steps cfg besides s s₁ ∧ a.ofPump = true ∧ Answered s₁ a ∧ step cfg s₁ a = some s'

section

variable {cfg : Config} {rank : String → Nat} {s s' : Sys} {a : Action} {t : PumpThread}

/-- What a step that is not the pump's does to it: it stays, or is gone, or a new one starts. -/
theorem other_pump (ha : a.ofPump = false) (hs : step cfg s a = some s') : s'.pump = s.pump ∨
    (s'.pump = none ∧ (a = .settle ∨ a = .crash)) ∨
    (s.pump = none ∧ ∃ w, s'.pump = some (pumpStart cfg w)) := by
  cases a with
  | exec who inp =>
    cases who with
    | pump => cases ha
    | call i =>
      simp only [step] at hs
      split at hs
      · cases hs
      · obtain ⟨r, -, rfl⟩ := Option.map_eq_some_iff.mp hs
        show (if _ then _ else s.pump) = s.pump ∨ _
        split
        · rename_i hnew
          refine Or.inr (Or.inr ⟨hnew.2, r.2, ?_⟩)
          show (if _ then _ else s.pump) = _
          rw [if_pos hnew]
        · exact Or.inl rfl
  | wake who =>
    cases who with
    | pump => cases ha
    | call i =>
      simp only [step] at hs
      split at hs
      · cases hs
      · obtain ⟨r, -, rfl⟩ := Option.map_eq_some_iff.mp hs
        exact Or.inl rfl
  | unfold who =>
    cases who with
    | pump => cases ha
    | call i =>
      simp only [step] at hs
      split at hs
      · cases hs
      · obtain ⟨r, -, rfl⟩ := Option.map_eq_some_iff.mp hs
        exact Or.inl rfl
  | settle =>
    simp only [step] at hs
    split at hs
    · cases hs
      exact Or.inr (Or.inl ⟨rfl, Or.inl rfl⟩)
    · cases hs
  | leave i =>
    simp only [step] at hs
    split at hs
    · cases hs
      exact Or.inl rfl
    · cases hs
  | deliver req id =>
    simp only [step] at hs
    split at hs
    · obtain ⟨r, -, rfl⟩ := Option.map_eq_some_iff.mp hs
      exact Or.inl rfl
    · cases hs
  | finish taskId status =>
    simp only [step] at hs
    split at hs
    · cases hs
    · cases hs
      exact Or.inl rfl
  | invoke c =>
    cases hs
    exact Or.inl rfl
  | tick ms wall =>
    cases hs
    exact Or.inl rfl
  | shutdown =>
    cases hs
    exact Or.inl rfl
  | crash =>
    cases hs
    exact Or.inr (Or.inl ⟨rfl, Or.inr rfl⟩)

/-- Everybody else leaves the pump where it is. -/
theorem besides_pump (ha : besides s a) (hp : s.pump = some t) (hs : step cfg s a = some s') :
    s'.pump = some t := by
  rcases other_pump ha.1 hs with h | ⟨-, h | h⟩ | ⟨h, -⟩
  · exact h.trans hp
  · exact absurd h ha.2.1
  · exact absurd h ha.2.2
  · rw [hp] at h
    exact nomatch h

/-- Only a call of the pump writes the pump's data. -/
theorem owned_move {w' : World} (hinv : SysInv cfg s) (ha : ∀ inp, a ≠ .exec .pump inp)
    (hm : Move cfg s a w') : owned w'.db = owned s.w.db := by
  cases hm with
  | pump _ _ _ => exact absurd rfl (ha _)
  | call _ hg hex => exact ApiGuard.owned hg ((exec_effect hex).owned hinv.core.keys)
  | wake _ => rcases noteWake_db _ _ s.w with h | h <;> rw [h]
  | invoke =>
    split <;> rfl
  | deliver _ hd => rcases World.deliver_cases hd with ⟨rfl, -⟩ | ⟨rfl, -⟩ <;> rfl
  | _ => rfl

/-- Everybody else leaves the pump's data alone. -/
theorem besides_owned (ha : besides s a) (hinv : SysInv cfg s) (hs : step cfg s a = some s') :
    owned s'.w.db = owned s.w.db := by
  refine owned_move hinv ?_ (step_move hinv hs).2
  rintro inp rfl
  exact nomatch ha.1

theorem besides_steps (h : Steps cfg besides s s') (hr : Reach cfg anyStep s) (hp : s.pump = some t) :
    Reach cfg anyStep s' ∧ s'.pump = some t ∧ owned s'.w.db = owned s.w.db := by
  induction h with
  | refl => exact ⟨hr, hp, rfl⟩
  | @step s₁ s₂ a hst ha hs ih =>
    obtain ⟨hr₁, hp₁, ho₁⟩ := ih
    exact ⟨.step hr₁ trivial hs, besides_pump ha hp₁ hs,
      (besides_owned ha (reach_inv hr₁) hs).trans ho₁⟩

/-- The thread of a pump; a settled one has returned. -/
def Sys.thread (s : Sys) : PumpThread := s.pump.getD (.run (.ret (.ok .ended, ⟨false, false, 0⟩)))

/-- Without a pump, none of its steps is possible. -/
theorem pump_there (ha : a.ofPump = true) (hs : step cfg s a = some s') : ∃ t, s.pump = some t := by
  cases hp : s.pump with
  | some t => exact ⟨t, rfl⟩
  | none =>
    cases a with
    | exec who inp => cases who <;> simp_all [step, Action.ofPump]
    | wake who => cases who <;> simp_all [step, Action.ofPump]
    | unfold who => cases who <;> simp_all [step, Action.ofPump]
    | _ => cases ha

/-- A step that is the pump's own. -/
theorem pump_step (hp : s.pump = some t) (ha : a.ofPump = true) (hs : step cfg s a = some s') :
    (∃ op k r inp, a = .exec .pump inp ∧ t = .run (.call op k) ∧ s'.pump = some (.woken op r k) ∧
      exec op s.w inp = some (r, s'.w)) ∨
    (∃ op r k fl, t = .woken op r k ∧ s'.pump = some (.run (k r fl)) ∧ owned s'.w.db = owned s.w.db) ∨
    (∃ l fl k, t = .run (.loop l fl k) ∧
      s'.pump = some (.run (unfoldLoop (body cfg) (.loop l fl k))) ∧ s'.w = s.w) := by
  cases a with
  | exec who inp =>
    cases who with
    | call i => cases ha
    | pump =>
      simp only [step, hp] at hs
      obtain ⟨⟨t', w'⟩, hthread, rfl⟩ := Option.map_eq_some_iff.mp hs
      obtain ⟨op, k, r, rfl, rfl, hex⟩ := threadExec_cases hthread
      exact Or.inl ⟨op, k, r, inp, rfl, rfl, rfl, hex⟩
  | wake who =>
    cases who with
    | call i => cases ha
    | pump =>
      simp only [step, hp] at hs
      obtain ⟨⟨t', w'⟩, hthread, rfl⟩ := Option.map_eq_some_iff.mp hs
      obtain ⟨op, r, k, rfl, rfl, rfl⟩ := threadWake_cases hthread
      refine Or.inr (Or.inl ⟨op, r, k, _, rfl, rfl, ?_⟩)
      rcases noteWake_db op r s.w with h | h
      · show owned (noteWake op r s.w).db = _
        rw [h]
      · show owned (noteWake op r s.w).db = _
        rw [h]
  | unfold who =>
    cases who with
    | call i => cases ha
    | pump =>
      simp only [step, hp] at hs
      obtain ⟨t', hthread, rfl⟩ := Option.map_eq_some_iff.mp hs
      unfold threadUnfold at hthread
      split at hthread
      · cases hthread
        exact Or.inr (Or.inr ⟨_, _, _, rfl, rfl, rfl⟩)
      · cases hthread
  | _ => cases ha

/-- **A turn of the pump** uses its budget when it goes back to the driver's head. -/
theorem pumpTurn_turn (hv : ValidSpec cfg.rawSpec) (hrank : Ranks cfg rank) (hr : Reach cfg anyStep s)
    (hp : s.pump = some t) (h : PumpTurn cfg s s') : Reach cfg anyStep s' ∧ s'.pump.isSome ∧
      Turn pumpMeter (body cfg) s.thread (budget cfg (owned s.w.db)) s'.thread
        (budget cfg (owned s'.w.db)) := by
  obtain ⟨s₁, a, hsteps, ha, hans, hs⟩ := h
  obtain ⟨hr₁, hp₁, ho₁⟩ := besides_steps hsteps hr hp
  have hthread : s.thread = t := by rw [Sys.thread, hp]; rfl
  have hr' : Reach cfg anyStep s' := .step hr₁ trivial hs
  rw [hthread, ← ho₁]
  rcases pump_step hp₁ ha hs with ⟨op, k, r, inp, rfl, rfl, hp', hex⟩ | ⟨op, r, k, fl, rfl, hp', ho'⟩ |
    ⟨l, fl, k, rfl, hp', hw'⟩
  · have hinv := reach_inv hr₁
    have hj : Justified cfg op s₁.w := (threadOk_exec (hinv.pump _ hp₁) hinv.core).1
    have hkeys : ((owned s₁.w.db).steps.map StepRow.key).Nodup := by
      rw [owned_keys]
      exact hinv.core.keys
    have hplaced := reach_placed hv hrank hr₁
    have hle := ((exec_effect hex).owned hinv.core.keys).progress hkeys
    have hthread' : s'.thread = .woken op r k := by rw [Sys.thread, hp']; rfl
    refine ⟨hr', by rw [hp']; rfl, ?_⟩
    rw [hthread']
    refine .call (Nat.sub_le_sub_left hle _) ?_
    rintro (hidle | ⟨hop, hok⟩)
    · refine absurd hidle (hans inp op r s'.w rfl ?_ hex)
      show s₁.pump.bind nextOp = some op
      rw [hp₁]
      rfl
    · have hlt := advances_progress hv hrank hinv.core hplaced hop hj hok hex
      have hmax := progress_le hv (reach_inv hr').core (reach_placed hv hrank hr')
      unfold budget
      omega
  · have hthread' : s'.thread = .run (k r fl) := by rw [Sys.thread, hp']; rfl
    refine ⟨hr', by rw [hp']; rfl, ?_⟩
    rw [hthread', ho']
    exact .wake (Nat.le_refl _)
  · have hthread' : s'.thread = .run (unfoldLoop (body cfg) (.loop l fl k)) := by
      rw [Sys.thread, hp']
      rfl
    refine ⟨hr', by rw [hp']; rfl, ?_⟩
    rw [hthread', hw']
    exact .unfold (Nat.le_refl _)

/-- The pump of a reachable system climbs from some level. -/
theorem reach_climbs (h : Reach cfg anyStep s) (hp : s.pump = some t) :
    ∃ n, threadClimbs pumpMeter t n := by
  induction h generalizing t with
  | start => exact nomatch hp
  | @step s₁ s₂ a hr _ hs ih =>
    cases hpump : a.ofPump with
    | true =>
      obtain ⟨t₁, hp₁⟩ := pump_there hpump hs
      obtain ⟨n, hn⟩ := ih hp₁
      rcases pump_step hp₁ hpump hs with ⟨op, k, r, inp, rfl, rfl, hp', hex⟩ |
        ⟨op, r, k, fl, rfl, hp', -⟩ | ⟨l, fl, k, rfl, hp', -⟩
      · cases hp.symm.trans hp'
        by_cases hmark : pumpMeter.mark op r
        · exact ⟨0, fun fl => (hn r fl).1 hmark⟩
        · exact ⟨n, fun fl => (hn r fl).2 hmark⟩
      · cases hp.symm.trans hp'
        exact ⟨n, hn fl⟩
      · cases hp.symm.trans hp'
        exact ⟨_, Climbs.unfold (bodies_climb cfg) hn⟩
    | false =>
      rcases other_pump hpump hs with h | ⟨h, -⟩ | ⟨-, w, h⟩
      · exact ih (h.symm.trans hp)
      · rw [h] at hp
        exact nomatch hp
      · cases h.symm.trans hp
        exact ⟨0, climbs_runWorkflow cfg w.flags⟩

/-- **A pump takes finitely many turns**, whatever happens between them. -/
theorem pump_turns_finite (hv : ValidSpec cfg.rawSpec) (hr : Reach cfg anyStep s)
    (hp : s.pump = some t) : Acc (fun s₂ s₁ => PumpTurn cfg s₁ s₂) s := by
  obtain ⟨rank, hrank⟩ := hv.normal_edges_rank
  -- turns of pumps that are there, in reachable systems
  let next : Sys → Sys → Prop := fun s₁ s₂ => (Reach cfg anyStep s₁ ∧ s₁.pump.isSome) ∧ PumpTurn cfg s₁ s₂
  have hnext : ∀ s₁ s₂, next s₁ s₂ → Turn pumpMeter (body cfg) s₁.thread (budget cfg (owned s₁.w.db))
      s₂.thread (budget cfg (owned s₂.w.db)) := by
    rintro s₁ s₂ ⟨⟨hr₁, hp₁⟩, hturn⟩
    obtain ⟨t₁, hp₁⟩ := Option.isSome_iff_exists.mp hp₁
    exact (pumpTurn_turn hv hrank hr₁ hp₁ hturn).2.2
  obtain ⟨n, hn⟩ := reach_climbs hr hp
  have hthread : s.thread = t := by rw [Sys.thread, hp]; rfl
  have hacc : Acc (fun s₂ s₁ => next s₁ s₂) s :=
    turns_finite (bodies_climb cfg) hnext s n (by rw [hthread]; exact hn)
  clear hn hthread
  induction hacc generalizing t with
  | intro s₁ _ ih =>
    refine ⟨s₁, fun s₂ hturn => ?_⟩
    obtain ⟨hr₂, hp₂, -⟩ := pumpTurn_turn hv hrank hr hp hturn
    obtain ⟨t₂, hp₂⟩ := Option.isSome_iff_exists.mp hp₂
    exact ih s₂ ⟨⟨hr, by rw [hp]; rfl⟩, hturn⟩ hr₂ hp₂

end

/-! ## The bounds of a run -/

/-- Every call can be answered, if only with a failure. -/
theorem exec_enabled (op : Op) (w : World) : ∃ inp, (exec op w inp).isSome = true := by
  cases op with
  | createTask req => exact ⟨.taskFail true, rfl⟩
  | waitForTerminal id cursor site =>
    refine ⟨.taskFail true, ?_⟩
    unfold exec
    cases w.task? id <;> rfl
  | cancelTask id => exact ⟨.run, rfl⟩
  | backoff attempt => exact ⟨.run, rfl⟩
  | ensurePump => exact ⟨.run, rfl⟩
  | abortPump => exact ⟨.run, rfl⟩
  | getWorkflow site => cases site <;> exact ⟨.storeFail ⟨.notFound, ""⟩, rfl⟩
  | _ => exact ⟨.storeFail ⟨.notFound, ""⟩, rfl⟩

/-- A pump that has not returned has a turn. -/
theorem pump_moves {cfg : Config} {s : Sys} {t : PumpThread} (hp : s.pump = some t) :
    (∃ r, t = .run (.ret r)) ∨ ∃ a, a.ofPump = true ∧ (step cfg s a).isSome = true := by
  cases t with
  | woken op r k =>
    refine Or.inr ⟨.wake .pump, rfl, ?_⟩
    simp [step, hp, threadWake]
  | run p =>
    cases p with
    | ret r => exact Or.inl ⟨r, rfl⟩
    | loop l fl k =>
      refine Or.inr ⟨.unfold .pump, rfl, ?_⟩
      simp [step, hp, threadUnfold]
    | call op k =>
      obtain ⟨inp, hinp⟩ := exec_enabled op s.w
      obtain ⟨⟨r, w'⟩, hex⟩ := Option.isSome_iff_exists.mp hinp
      refine Or.inr ⟨.exec .pump inp, rfl, ?_⟩
      simp [step, hp, threadExec, hex]

/-- The executions of a workflow in creation order, from one state to a later one. -/
theorem executions_grow {cfg : Config} {s s' : Sys} (hr : Reach cfg anyStep s)
    (h : Steps cfg anyStep s s') :
    s.w.db.steps.map StepRow.key <+: s'.w.db.steps.map StepRow.key := by
  refine steps_world (P := fun w => s.w.db.steps.map StepRow.key <+: w.db.steps.map StepRow.key) ?_ h hr
    (List.prefix_refl _)
  intro s₁ a w' hinv _ hm hP
  refine hP.trans ?_
  rcases hm.call_or_env with ⟨_, _, op, r, -, -, -, hex⟩ | henv
  · have hs := (exec_effect hex).owned hinv.core.keys
    rw [← owned_keys, ← owned_keys]
    generalize owned w'.db = O' at hs
    generalize owned s₁.w.db = O at hs
    cases hs with
    | same => exact List.prefix_refl _
    | started _ =>
      rw [Owned.start, List.map_append]
      exact List.prefix_append _ _
    | @bound k taskId _ _ _ _ _ =>
      exact (setStep_keys O k (f := fun r => { r with taskId := some taskId }) (fun _ => rfl)) ▸
        List.prefix_refl _
    | @completed k output _ _ _ _ _ _ =>
      exact (setStep_keys O k (f := fun r => { r with status := .completed, output := some output })
        (fun _ => rfl)) ▸ List.prefix_refl _
    | advanced _ =>
      rw [Owned.advance, List.map_append]
      exact List.prefix_append _ _
    | stalled _ => exact List.prefix_refl _
  · rw [henv.db]

/-- The statuses a pump may leave a workflow in. -/
def leftStatus (st : WorkflowStatus) : Bool :=
  isTerminalWorkflowStatus st || decide (st = .blocked) ||
    decide (st = .waitingInput ∨ st = .waitingApproval)

/-- **Execution is bounded.**  In every run of a valid spec each step has at most one execution a
    round, which stays; the round keeps to its limit; executions and tasks are bounded; an edge
    never leads to an execution that is already there.  A pump whose calls are answered takes
    finitely many turns, has one until it returns, and leaves a workflow that has ended, is
    blocked or waits for a person. -/
theorem bounded_execution {cfg : Config} {spec : WorkflowSpec} (hload : cfg.loaded = some spec)
    {s : Sys} (h : Reach cfg anyStep s) :
    (s.w.db.steps.map StepRow.key).Nodup ∧
    (∀ s', Steps cfg anyStep s s' →
      s.w.db.steps.map StepRow.key <+: s'.w.db.steps.map StepRow.key) ∧
    s.w.db.wf.currentRound ≤ max 1 (spec.limits.maxRounds.getD 0) ∧
    s.w.db.steps.length ≤ spec.steps.length * max 1 (spec.limits.maxRounds.getD 0) ∧
    s.w.db.steps.countP (fun r => r.taskId.isSome) ≤ spec.limits.maxTasks ∧
    (∀ edge round next started, s.nextOp .pump = some (.advance edge round next started) →
      s.w.db.step? next = none) ∧
    (s.pump.isSome → Acc (fun s₂ s₁ => PumpTurn cfg s₁ s₂) s) ∧
    (∀ t, s.pump = some t → (∃ r, t = .run (.ret r)) ∨
      ∃ a, a.ofPump = true ∧ (step cfg s a).isSome = true) ∧
    (∀ s', s.w.stopped = false → ¬ Strands s .settle → step cfg s .settle = some s' →
      leftStatus s'.w.db.wf.status = true) := by
  obtain ⟨hv, rfl⟩ := loaded_spec hload
  obtain ⟨rank, hrank⟩ := hv.normal_edges_rank
  have hinv := reach_inv h
  have hplaced := reach_placed hv hrank h
  have honce := reach_once hv h
  have hkeys : ((owned s.w.db).steps.map StepRow.key).Nodup := by
    rw [owned_keys]
    exact hinv.core.keys
  refine ⟨hinv.core.keys, fun s' hst => executions_grow h hst, hplaced.last, ?_, ?_, ?_, ?_,
    fun t hp => pump_moves hp, ?_⟩
  · have hlen := hplaced.length_le hv hkeys
    have hmask : (owned s.w.db).steps.length = s.w.db.steps.length := List.length_map ..
    rw [hmask] at hlen
    exact hlen
  · have hcount : s.w.db.wf.totalTasks = (s.w.db.steps.map maskRow).countP isBoundRow :=
      honce.counted.rows
    rw [List.countP_map] at hcount
    exact hcount ▸ honce.counted.limit
  · intro edge round next started hop
    have hop : s.pump.bind nextOp = some _ := hop
    obtain ⟨t, ht, hop⟩ := Option.bind_eq_some_iff.mp hop
    obtain ⟨k, rfl⟩ := nextOp_eq hop
    exact advance_fresh hv hrank hplaced (threadOk_exec (hinv.pump _ ht) hinv.core).1
  · intro hp
    obtain ⟨t, ht⟩ := Option.isSome_iff_exists.mp hp
    exact pump_turns_finite hv h ht
  · intro s' hns hok hs
    have hm := (step_move hinv hs).2
    generalize s'.w = w' at hm
    cases hm with
    | @settle r hp hpost =>
      have hne := settle_not_running hp hpost hns hok
      have hb := (reach_begun h).pump (by rw [hp]; rfl)
      show leftStatus s.w.db.wf.status = true
      unfold Begun at hb
      generalize s.w.db.wf.status = st at hne hb
      cases st with
      | draft => exact absurd rfl hb.1
      | ready => exact absurd rfl hb.2
      | running => exact absurd rfl hne
      | _ => rfl

/-- The one-step workflow at its end: one execution, one task, and its pump is left with finitely
    many turns. -/
theorem completed_bounded : ∃ s, Reach oneStep anyStep s ∧ s.w.db.wf.status = .completed ∧
    s.w.db.steps.length = 1 ∧ s.w.db.wf.currentRound ≤ 1 ∧
    Acc (fun s₂ s₁ => PumpTurn oneStep s₁ s₂) s := by
  obtain ⟨s, hs, hP⟩ := reach_exists oneStep anyStep (fun _ _ => true) (fun _ _ _ => trivial)
    (startActions ++ renderActions ++ bindActions ++ resultActions ++ routeActions)
    (fun s => decide (s.w.db.wf.status = .completed ∧ s.w.db.steps.length = 1 ∧
      s.w.db.wf.currentRound ≤ 1 ∧ s.pump.isSome = true))
    (by decide +kernel)
  obtain ⟨hst, hlen, hround, hp⟩ := of_decide_eq_true hP
  exact ⟨s, hs, hst, hlen, hround, (bounded_execution rfl hs).2.2.2.2.2.2.1 hp⟩

/-- **A pump that waits for a person** settles without a crash, with its calls answered, on a
    workflow that is neither ended nor blocked. -/
theorem waiting_settles : ∃ s s', Reach gated (fun _ a => a ≠ .crash) s ∧ s.w.stopped = false ∧
    step gated s .settle = some s' ∧ s'.pump.isSome = false ∧ s'.calls.length = 0 ∧
    s'.w.db.wf.status = .waitingInput ∧ isTerminalWorkflowStatus s'.w.db.wf.status = false ∧
    s'.w.db.wf.status ≠ .blocked := by
  obtain ⟨s, hs, hP⟩ := reach_exists gated (fun _ a => a ≠ .crash) (fun _ a => decide (a ≠ .crash))
    (fun _ _ h => of_decide_eq_true h) (startActions ++ [.unfold .pump] ++ pumpRuns 5)
    (fun s => decide (s.w.stopped = false) && (step gated s .settle).any (fun s' : Sys => decide (
      s'.pump.isSome = false ∧ s'.calls.length = 0 ∧ s'.w.db.wf.status = .waitingInput)))
    (by decide +kernel)
  rw [Bool.and_eq_true, Option.any_eq_true] at hP
  obtain ⟨hns, s', hstep, hP⟩ := hP
  obtain ⟨hpump, hcalls, hst⟩ := of_decide_eq_true hP
  exact ⟨s, s', hs, of_decide_eq_true hns, hstep, hpump, hcalls, hst, by rw [hst]; rfl, by rw [hst]; exact nofun⟩

end VibeRuntime
