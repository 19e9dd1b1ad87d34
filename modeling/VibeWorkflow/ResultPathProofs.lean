import VibeWorkflow.EnvelopeProofs
import VibeWorkflow.RecoveryProofs

/-!
# The path to a remote result

A remote task is ended in two ways: its result is fetched first and stored with the end, or the replay
of the Node's journal ends it and the result is fetched afterwards.  Once the task has ended, a GET
answers from the store, and a restart does not take the task up again.

* `over_step` — a task that has ended starts no other fetch;
* `act_inv`, `restart_inv` — an end in the store has its result with it;
* **`result_has_path`** — in every run that ends a completed task with its result, no task lacks one
  without a path to it, and the next GET returns what the Node holds.
-/

namespace VibeGateway

open VibeJson VibeStore VibeTask VibeRun VibeResult CallRuns Transaction

/-! ## Serving a task -/

/-- Where the task is: in `tasks`, taken out after its retention, or unknown to this process. -/
inductive Presence where
  | registered | evicted | absent
deriving DecidableEq

structure Served where
  gateway : Gateway
  presence : Presence

inductive Occurrence where
  | act (a : Ambient) (x : Action)
  | evict
  | restart (a : Ambient)

def recoveryUnknownStart : String × String :=
  ("recovery_unknown_start", "remote start outcome unknown after gateway restart; not resumed")

def unknownStartPayload : Json :=
  .obj [("reason", .str "recovery_unknown_start"),
    ("message", .str "task start outcome is unknown after gateway restart; not resumed to avoid a duplicate execution")]

/-- A remote task in memory, as `recoverTasks` rebuilds it: what its Node can do is not known. -/
def recoveredRemote (store : TaskStore) : Gateway :=
  ⟨store, { recoveredTask store with mode := .remote, remoteRunId := store.columns.remoteRunId }, [], false⟩

section

variable (cfg : Config) (jsonParse : String → Option Json)

/-- The Gateway comes up again.  A task that has ended durably is not listed; a start that was never
    bound to a run fails at once. -/
def recoverRemote (a : Ambient) (s : Served) : Served :=
  if !listed s.gateway.store then ⟨{ s.gateway with fetches := [], converging := false }, .absent⟩
  else if (recoveredRemote s.gateway.store).task.unbound then
    let (ev, g) := synthEvent a (recoveredRemote s.gateway.store) .failed unknownStartPayload
    ⟨finishWithTerminal cfg a g ev (some recoveryUnknownStart), .registered⟩
  else ⟨recoveredRemote s.gateway.store, .registered⟩

/-- An operation belongs to a process that holds the task, also one that has taken it out of `tasks`. -/
def occur (s : Served) : Occurrence → Served
  | .act a x => if s.presence = .absent then s else { s with gateway := step cfg s.gateway (a, x) }
  | .evict => if s.presence = .registered ∧ s.gateway.task.terminal = true then { s with presence := .evicted } else s
  | .restart a => recoverRemote cfg a s

/-- `asksNode`: the Node's status is awaited first, and folded in by `reconcileRemoteRecord`. -/
inductive Reply where
  | asksNode
  | notFound
  | task (status : String) (result : Option TaskResult)
deriving DecidableEq

def resultProjection (store : TaskStore) : Option TaskResult :=
  store.result.map fun row => (getTaskResultDurable cfg.sha256 jsonParse row).getD ("invalid", none)

/-- What a GET of a remote task does before it waits. -/
def handleGet (s : Served) : Reply :=
  if s.presence = .registered ∧ s.gateway.task.terminal = false then .asksNode
  else match s.gateway.store.tables.task with
  | none => .notFound
  | some t => .task t.status (resultProjection cfg jsonParse s.gateway.store)

/-! ## The path -/

def completed (store : TaskStore) : Bool := store.tables.task.any fun t => t.status = "completed"

/-- The durable task is completed, and no result of its run is stored with it. -/
def Lacking (store : TaskStore) : Prop :=
  completed store = true ∧ ∀ row, store.result = some row → row.resultStatus ≠ "available"

/-- A call to the Node for the result, that an end waits for or that follows the replay's end. -/
inductive ResultCall where
  | fetch (i : Nat)
  | converge

def ResultCall.Outstanding (g : Gateway) : ResultCall → Prop
  | .fetch i => (g.awaited i).isSome = true
  | .converge => g.converging = true ∧ g.task.immediate cfg = false

def ResultCall.answer (r : TaskResult) : ResultCall → Action
  | .fetch i => .fetched i (some r)
  | .converge => .converged (some r)

/-- How many calls for the result are under way. -/
def Gateway.calls (g : Gateway) : Nat := g.fetches.length + g.converging.toNat

/-- A result as a Node holds it: it was accepted, and its columns read as it. -/
structure Held (r : AgentTaskResult) : Prop where
  valid : ∃ o, validateTaskResult cfg.sha256 o = .ok r
  parts : PartsRead jsonParse r

/-- A completed task without its result comes to an occurrence that calls the Node once more; a success of
    that call is stored, and the next GET returns it. -/
def HasPath (r : AgentTaskResult) (s : Served) : Prop :=
  Lacking s.gateway.store → ∃ (later : List Occurrence) (x : Occurrence) (call : ResultCall),
    (run (occur cfg) s later).gateway.calls < (occur cfg (run (occur cfg) s later) x).gateway.calls ∧
    call.Outstanding cfg (occur cfg (run (occur cfg) s later) x).gateway ∧
    ∀ a : Ambient, a.fault = false → handleGet cfg jsonParse
      (occur cfg (occur cfg (run (occur cfg) s later) x) (.act a (call.answer ("available", some r)))) =
        .task "completed" (some ("available", some r))

/-- A call that succeeds is answered with the result that the Node holds. -/
def Serves (r : AgentTaskResult) : Occurrence → Prop
  | .act _ (.fetched _ (some answer)) => answer = ("available", some r)
  | .act _ (.converged (some answer)) => answer = ("available", some r)
  | _ => True

/-- The end of a completed task comes with its result: no `completed` event of the journal ends a task that
    goes on, and no `completed` event waits in vain for the last attempt of a task taken up after a restart. -/
def ResultFirst (s : Served) : Occurrence → Prop
  | .act a (.source event n) => s.presence ≠ .absent → s.gateway.task.terminal = false → a.fault = false →
      ∀ te, runEventToTaskEvent event 0 = some te → te.type = .completed →
        ∀ r, (callTask cfg.taskId s.gateway.store.tables (.ingest n (toSourceEvent te))).1 = .ok r → r.applied = false
  | .act a (.fetched i none) => s.presence ≠ .absent → s.gateway.task.terminal = false → a.fault = false →
      s.gateway.task.resultCapable = none →
        ∀ f, s.gateway.awaited i = some f → f.event.type = .completed → f.attempt + 1 < remoteResultAttempts
  | _ => True

end

/-! ## The durable row -/

/-- The status of the row, and whether its terminal event is recorded. -/
def ending (store : TaskStore) : Option (String × Bool) :=
  store.tables.task.map fun t => (t.status, t.terminalEventRecorded)

theorem completed_eq (store : TaskStore) : completed store = (ending store).any fun e => e.1 = "completed" := by
  unfold completed ending
  rw [Option.any_map]

theorem listed_eq (store : TaskStore) : listed store =
    (ending store).any fun e => !taskTerminalStatuses.contains e.1 := by
  unfold listed ending TaskRow.terminal
  rw [Option.any_map]

theorem uncompleted_of_listed {store : TaskStore} (h : listed store = true) : completed store = false := by
  rw [listed_eq] at h
  rw [completed_eq]
  cases hend : ending store with
  | none => rfl
  | some e =>
    rw [hend] at h
    refine decide_eq_false fun hstatus => ?_
    rw [Option.any_some, hstatus] at h
    exact absurd h (by decide)

theorem status_over (type : TaskEventType) : taskTerminalStatuses.contains type.terminalStatusFor = true := by
  cases type <;> decide

theorem completed_type {type : TaskEventType} (h : type.terminalStatusFor = "completed") : type = .completed := by
  cases type <;> first | rfl | exact absurd h (by decide)

/-- A call on events that is not an ingested end leaves the status alone. -/
theorem events_ending (taskId now : String) (store : TaskStore) {c : TaskCall}
    (hc : ∀ n ev t, c = .ingest n ev → settleStatus ev t = t) :
    ending (callStore taskId now store (.events c)).2 = ending store ∧
      (callStore taskId now store (.events c)).2.result = store.result := by
  obtain ⟨htables, -, hresult⟩ := events_frame taskId now store c
  refine ⟨?_, hresult⟩
  unfold ending
  rw [htables]
  rcases taskCall_cases taskId store.tables c with ⟨e, h⟩ | ⟨r, db, h, hdone⟩
  · rw [h]
  · rw [h]
    cases hdone with
    | repeated => rfl
    | @ingested n ev cur k ht =>
      rw [ht]
      simp [updateTask, extend, hc n ev _ rfl]
    | passed => rfl
    | advanced ht =>
      rw [ht]
      simp [updateTask, ht]
    | kept => rfl
    | appended ht =>
      rw [ht]
      rfl

/-- An ingested end is in the row. -/
theorem settled_ending {ev : TaskEvent} (hend : ev.type.terminal = true) (t : TaskRow) :
    ((settleStatus (toSourceEvent ev) t).status, (settleStatus (toSourceEvent ev) t).terminalEventRecorded) =
      (ev.type.terminalStatusFor, true) := by
  have hne : ev.type.terminalStatusFor ≠ "" := by cases ev.type <;> decide
  simp only [settleStatus, toSourceEvent, hend, if_true, Option.getD_some, if_neg hne, Bool.true_and]
  cases hrec : t.terminalEventRecorded with
  | false => rfl
  | true => simp

/-- The writes of an end. -/
theorem recordTerminal_ending {taskId now status : String} {revision : Int} {patch : TaskPatch} {ev : TaskEventInput}
    {store store' : TaskStore} (hstatus : patch.status = some status)
    (h : recordTerminal taskId now revision patch ev store = (.ok (), store')) :
    ending store' = some (status, true) ∧ store'.result = store.result := by
  obtain ⟨_, s₁, hupdate, h⟩ := bind_ok.mp h
  obtain ⟨_, s₂, happend, hflag⟩ := bind_ok.mp h
  obtain ⟨cur, errorCode, errorMessage, -, -, htables, hresult⟩ := update_ok hupdate
  obtain ⟨db, hdb, rfl⟩ := onTables_ok.mp happend
  cases hflag
  refine ⟨?_, hresult⟩
  have htask : db.task.map TaskRow.status = some status := by
    rcases append_cases taskId s₁.tables ev with ⟨e, he⟩ | ⟨t, ht, ⟨-, hkept⟩ | ⟨-, -, hnew⟩⟩
    · rw [he] at hdb
      cases hdb
    · rw [hkept] at hdb
      cases hdb
      rw [htables]
      exact congrArg (fun st : Option String => some (st.getD cur.status)) hstatus
    · rw [hnew] at hdb
      cases hdb
      rw [htables] at ht
      cases ht
      exact congrArg (fun st : Option String => some (st.getD cur.status)) hstatus
  show (db.task.map fun t => { t with terminalEventRecorded := true }).map
    (fun t => (t.status, t.terminalEventRecorded)) = _
  obtain ⟨t, ht, rfl⟩ := Option.map_eq_some_iff.mp htask
  rw [ht]
  rfl

/-- The result that is written where none was stored. -/
theorem keepResult_row {conflict : String} {r : TaskResult} {store store' : TaskStore} (hnone : store.result = none)
    (h : keepResult r.1 r.2 conflict store = (.ok (), store')) :
    ∃ row, rowOf VibeTask.resultEncoding r.1 r.2 = .ok row ∧ store'.result = some row := by
  unfold keepResult at h
  rw [readTx_bind, hnone] at h
  obtain ⟨row, _, hcheck, hmodify⟩ := bind_ok.mp h
  obtain ⟨hrow, rfl⟩ := check_ok.mp hcheck
  cases hmodify
  exact ⟨row, hrow, rfl⟩

/-- What the write of an end leaves where no result was stored: nothing, or the result and the end. -/
def EndStored (a : Ambient) (store store' : TaskStore) (status : String) (r : TaskResult) : Prop :=
  store' = store ∨ a.fault = false ∧
    (∃ row, rowOf VibeTask.resultEncoding r.1 r.2 = .ok row ∧ store'.result = some row) ∧
    (ending store' = some (status, true) ∨ ending store' = ending store ∧
      ∃ status', ending store = some (status', true))

theorem persist_end (cfg : Config) (a : Ambient) {store : TaskStore} (revision : Int)
    (patch : TaskPatch) (event : TaskEventInput)
    (r : TaskResult) {status : String} (hstatus : patch.status = some status) (hnone : store.result = none) :
    EndStored a store (persist cfg a store (.terminalizeWithResult revision patch event r.1 r.2)).2 status r := by
  unfold persist
  cases hfault : a.fault with
  | true => exact .inl rfl
  | false =>
    show EndStored a store (Transaction.transaction
      (terminalizeTaskWithResultBody cfg.taskId a.now revision patch event r.1 r.2) store).2 status r
    rcases transaction_cases (terminalizeTaskWithResultBody cfg.taskId a.now revision patch event r.1 r.2) store with
      ⟨e, h⟩ | ⟨u, store', hbody, h⟩
    · rw [h]
      exact .inl rfl
    · rw [h]
      obtain ⟨cur, s₀, hcur, hrest⟩ := bind_ok.mp hbody
      obtain ⟨htask, rfl⟩ := requireTask_ok.mp hcur
      obtain ⟨_, s₁, hkeep, hend⟩ := bind_ok.mp hrest
      have htables : s₁.tables = s₀.tables := (keepResult_ok hkeep).1
      obtain ⟨row, hrow, hres⟩ := keepResult_row hnone hkeep
      have hsame : ending s₁ = ending s₀ := congrArg (fun db : TaskTables => db.task.map _) htables
      refine .inr ⟨hfault, ?_⟩
      cases hlive : cur.terminalEventRecorded with
      | true =>
        rw [if_pos hlive] at hend
        cases hend
        refine ⟨⟨row, hrow, hres⟩, .inr ⟨hsame, cur.status, ?_⟩⟩
        unfold ending
        rw [htask, Option.map_some, hlive]
      | false =>
        rw [if_neg (Bool.eq_false_iff.mp hlive), guarded_ok] at hend
        obtain ⟨hending, hresult⟩ := recordTerminal_ending hstatus hend.2
        exact ⟨⟨row, hrow, hresult.trans hres⟩, .inl hending⟩

/-! ## What an operation can do -/

/-- The parts of a task that no operation changes. -/
structure Same (t t' : GatewayTask) : Prop where
  mode : t'.mode = t.mode
  remoteRunId : t'.remoteRunId = t.remoteRunId
  resultCapable : t'.resultCapable = t.resultCapable

/-- The task is where it was, and no result was written. -/
structure GoesOn (g g' : Gateway) : Prop where
  same : Same g.task g'.task
  terminal : g'.task.terminal = g.task.terminal
  converging : g'.converging = g.converging
  ending : ending g'.store = ending g.store
  result : g'.store.result = g.store.result

/-- The task has ended in memory, and in the store with this result or not at all. -/
structure Ends (a : Ambient) (g g' : Gateway) (status : String) (r : TaskResult) : Prop where
  same : Same g.task g'.task
  ended : g'.task.terminal = true
  converging : g'.converging = g.converging
  stored : EndStored a g.store g'.store status r

section

variable {cfg : Config} {a : Ambient} {g : Gateway} {ev : TaskEvent}

theorem Same.immediate {t t' : GatewayTask} (h : Same t t') : t'.immediate cfg = t.immediate cfg := by
  unfold GatewayTask.immediate GatewayTask.unbound
  rw [h.mode, h.remoteRunId, h.resultCapable]

theorem GoesOn.of_store {g' : Gateway} (same : Same g.task g'.task) (terminal : g'.task.terminal = g.task.terminal)
    (converging : g'.converging = g.converging) (store : g'.store = g.store) : GoesOn g g' :=
  ⟨same, terminal, converging, congrArg _ store, congrArg _ store⟩

theorem GoesOn.refl (g : Gateway) : GoesOn g g := .of_store ⟨rfl, rfl, rfl⟩ rfl rfl rfl

/-- **An end in memory** of a task without a result. -/
theorem finish_ends (cfg : Config) (a : Ambient) (ev : TaskEvent) (hopen : g.task.terminal = false)
    (hnone : g.store.result = none) (e : Option (String × String)) :
    Ends a g (finishWithTerminal cfg a g ev e) ev.type.terminalStatusFor (resolveTerminalResult cfg a g.task ev) := by
  have hstored := persist_end cfg a g.task.revision (endPatch ev e) (toEventInput ev)
    (resolveTerminalResult cfg a g.task ev) rfl hnone
  unfold finishWithTerminal
  simp only [hopen, Bool.false_eq_true, if_false]
  generalize persist cfg a g.store _ = written at hstored ⊢
  obtain ⟨ok, store⟩ := written
  exact ⟨⟨rfl, rfl, rfl⟩, rfl, rfl, hstored⟩

/-- The result of an end is asked for first. -/
theorem finishRemote_asks (hopen : g.task.terminal = false) (hask : g.task.immediate cfg = false) :
    finishRemoteWithResult cfg a g ev = { g with fetches := g.fetches ++ [⟨ev, 0, false⟩] } := by
  have hparts : cfg.remoteEnabled = true ∧ g.task.mode = .remote ∧ g.task.unbound = false ∧
      g.task.resultCapable ≠ some false := by
    simpa [GatewayTask.immediate, and_assoc] using hask
  obtain ⟨henabled, hmode, hbound, hcapable⟩ := hparts
  unfold finishRemoteWithResult
  simp [hopen, henabled, hmode, hbound, hcapable]

theorem persistThenPush_goesOn (cfg : Config) (a : Ambient) (g : Gateway) (ev : TaskEvent) :
    GoesOn g (persistThenPush cfg a g ev) := by
  have hstore : ending (persist cfg a g.store (.events (.append (toEventInput ev)))).2 = ending g.store ∧
      (persist cfg a g.store (.events (.append (toEventInput ev)))).2.result = g.store.result := by
    unfold persist
    cases a.fault with
    | true => exact ⟨rfl, rfl⟩
    | false => exact events_ending cfg.taskId a.now g.store (fun _ _ _ hc => by cases hc)
  unfold persistThenPush
  generalize persist cfg a g.store (.events (.append (toEventInput ev))) = written at hstore ⊢
  obtain ⟨ok, store⟩ := written
  cases ok with
  | true => exact ⟨⟨rfl, rfl, rfl⟩, rfl, rfl, hstore.1, hstore.2⟩
  | false => exact ⟨⟨rfl, rfl, rfl⟩, rfl, rfl, hstore.1, hstore.2⟩

theorem ingest_goesOn (hmode : g.task.mode = .remote) (hask : g.task.immediate cfg = false) (event : Json) :
    GoesOn g (ingest cfg a g event).1 := by
  unfold ingest
  cases hopen : g.task.terminal with
  | true => exact .refl g
  | false =>
    simp only [Bool.false_eq_true, if_false]
    cases runEventToTaskEvent event g.task.nextSeq with
    | none => exact .refl g
    | some te =>
      simp only [hmode, if_true]
      split
      · rw [finishRemote_asks (g := g.reserve) hopen hask]
        exact .of_store ⟨rfl, rfl, rfl⟩ rfl rfl rfl
      · obtain ⟨hsame, hterm, hconv, hending, hresult⟩ := persistThenPush_goesOn cfg a g.reserve te
        exact ⟨⟨hsame.mode, hsame.remoteRunId, hsame.resultCapable⟩, hterm, hconv, hending, hresult⟩

theorem reconcile_goesOn (hask : g.task.immediate cfg = false) (status : RunStatus) :
    GoesOn g (reconcileRemoteRecord cfg a g status) := by
  unfold reconcileRemoteRecord
  cases hopen : g.task.terminal with
  | true => exact .refl g
  | false =>
    simp only [Bool.false_eq_true, if_false]
    split
    · exact .refl g
    · show GoesOn g (finishRemoteWithResult cfg a g.reserve _)
      rw [finishRemote_asks (g := g.reserve) hopen hask]
      exact .of_store ⟨rfl, rfl, rfl⟩ rfl rfl rfl

theorem woken_goesOn (i : Nat) : GoesOn g (woken g i) := by
  unfold woken
  split
  · exact .refl g
  split
  · exact .of_store ⟨rfl, rfl, rfl⟩ rfl rfl rfl
  · exact .of_store ⟨rfl, rfl, rfl⟩ rfl rfl rfl

/-- **An event of the journal** is stored; or it ends the task, whose result is then fetched. -/
theorem ingestSource_cases (cfg : Config) (a : Ambient) (hopen : g.task.terminal = false) (event : Json) (n : JsNum) :
    GoesOn g (ingestSource cfg a g event n) ∨
      ∃ te r, runEventToTaskEvent event 0 = some te ∧ a.fault = false ∧
        (callTask cfg.taskId g.store.tables (.ingest n (toSourceEvent te))).1 = .ok r ∧ r.applied = true ∧
        Same g.task (ingestSource cfg a g event n).task ∧ (ingestSource cfg a g event n).task.terminal = true ∧
        ending (ingestSource cfg a g event n).store = some (te.type.terminalStatusFor, true) := by
  unfold ingestSource
  rw [if_neg (Bool.eq_false_iff.mp hopen)]
  cases himage : runEventToTaskEvent event 0 with
  | none =>
    refine .inl ⟨⟨rfl, rfl, rfl⟩, rfl, rfl, ?_, ?_⟩ <;>
    · unfold persist
      cases a.fault with
      | true => rfl
      | false =>
        have hkept := events_ending cfg.taskId a.now g.store (c := .advance n) (fun _ _ _ hc => by cases hc)
        first | exact hkept.1 | exact hkept.2
  | some te =>
    dsimp only
    cases hfault : a.fault with
    | true => exact .inl (.refl g)
    | false =>
      rw [if_neg Bool.false_ne_true]
      obtain ⟨htables, -, hresult⟩ := events_frame cfg.taskId a.now g.store (.ingest n (toSourceEvent te))
      rcases taskCall_cases cfg.taskId g.store.tables (.ingest n (toSourceEvent te)) with ⟨e, hc⟩ | ⟨r, db, hc, hdone⟩
      · rw [hc] at htables ⊢
        exact .inl ⟨⟨rfl, rfl, rfl⟩, rfl, rfl, congrArg (fun db : TaskTables => db.task.map _) htables, hresult⟩
      · rw [hc] at htables ⊢
        cases hdone with
        | repeated => exact .inl ⟨⟨rfl, rfl, rfl⟩, rfl, rfl,
          congrArg (fun db : TaskTables => db.task.map _) htables, hresult⟩
        | @ingested _ _ cur k ht =>
          cases hend : te.type.terminal with
          | false =>
            have hkept := events_ending cfg.taskId a.now g.store (c := .ingest n (toSourceEvent te)) (by
              rintro n' ev t ⟨⟩
              exact settle_plain hend)
            exact .inl ⟨⟨rfl, rfl, rfl⟩, rfl, rfl, hkept.1, hresult⟩
          | true =>
            refine .inr ⟨te, ⟨true, some k⟩, rfl, rfl, congrArg Prod.fst hc, rfl, ⟨rfl, rfl, rfl⟩, rfl, ?_⟩
            show ending (callStore cfg.taskId a.now g.store (.events (.ingest n (toSourceEvent te)))).2 = _
            unfold ending
            rw [htables]
            exact congrArg some (settled_ending hend _)

/-- **The answer to a fetch** leaves the task going on, or ends it with what was fetched; the last attempt
    of a task taken up after a restart ends it with nothing. -/
theorem fetched_cases (cfg : Config) (a : Ambient) (hopen : g.task.terminal = false)
    (hnone : g.store.result = none) (i : Nat)
    (outcome : Option TaskResult) :
    GoesOn g (fetched cfg a g i outcome) ∨
      ∃ f r, g.awaited i = some f ∧ Ends a g (fetched cfg a g i outcome) f.event.type.terminalStatusFor r ∧
        (outcome = some r ∨ outcome = none ∧ g.task.resultCapable = none ∧ ¬ f.attempt + 1 < remoteResultAttempts) := by
  have hends (f : Fetch) (r : TaskResult) : Ends a g
      (finishWithTerminal cfg a ⟨g.store, { g.task with pendingResult := some r }, g.fetches.eraseIdx i,
        g.converging⟩ f.event none)
      f.event.type.terminalStatusFor r := by
    obtain ⟨hsame, hended, hconv, hstored⟩ := finish_ends cfg a f.event
      (g := ⟨g.store, { g.task with pendingResult := some r }, g.fetches.eraseIdx i, g.converging⟩) hopen hnone none
    exact ⟨⟨hsame.mode, hsame.remoteRunId, hsame.resultCapable⟩, hended, hconv, hstored⟩
  unfold fetched
  cases hf : g.fetches[i]?.filter (fun f => !f.sleeping) with
  | none => exact .inl (.refl g)
  | some f =>
    cases outcome with
    | some r => exact .inr ⟨f, r, hf, hends f r, .inl rfl⟩
    | none =>
      dsimp only
      split
      · exact .inl (.of_store ⟨rfl, rfl, rfl⟩ rfl rfl rfl)
      split
      · rename_i hlast hcapable
        exact .inr ⟨f, missing, hf, hends f missing, .inr ⟨rfl, hcapable.1, hlast⟩⟩
      · exact .inl (.of_store ⟨rfl, rfl, rfl⟩ rfl rfl rfl)

/-- The result of a task that the replay has ended: the row is kept, and so is a result that is there. -/
theorem converged_kept (cfg : Config) (a : Ambient) (g : Gateway) (outcome : Option TaskResult) :
    Same g.task (converged cfg a g outcome).task ∧ (converged cfg a g outcome).task.terminal = g.task.terminal ∧
      (converged cfg a g outcome).store.tables = g.store.tables ∧
      ∀ row, g.store.result = some row → (converged cfg a g outcome).store.result = some row := by
  unfold converged
  split
  · exact ⟨⟨rfl, rfl, rfl⟩, rfl, rfl, fun _ h => h⟩
  · simp only
    split
    · exact ⟨⟨rfl, rfl, rfl⟩, rfl, rfl, fun _ h => h⟩
    · refine ⟨⟨rfl, rfl, rfl⟩, rfl, ?_⟩
      unfold persist
      cases a.fault with
      | true => exact ⟨rfl, fun _ h => h⟩
      | false => exact ⟨persistResult_tables cfg.taskId a.now g.store _, (storeCall_cases cfg.taskId a.now g.store _).2⟩

theorem converged_idle (hidle : g.converging = false) (outcome : Option TaskResult) :
    converged cfg a g outcome = g := by
  unfold converged
  rw [hidle]
  rfl

theorem converged_over (cfg : Config) (a : Ambient) (g : Gateway) (outcome : Option TaskResult) :
    (converged cfg a g outcome).converging = false ∧ (converged cfg a g outcome).fetches = g.fetches := by
  unfold converged
  split
  · rename_i h
    exact ⟨by simpa using h, rfl⟩
  · simp only
    split
    · exact ⟨rfl, rfl⟩
    · exact ⟨rfl, rfl⟩

/-- **A task that has ended** starts no fetch, and its store is left alone until the last one is answered. -/
theorem ended_step (cfg : Config) (a : Ambient) (hmode : g.task.mode = .remote)
    (hended : g.task.terminal = true) {x : Action}
    (hx : ∀ outcome, x ≠ .converged outcome) :
    GoesOn g (step cfg g (a, x)) ∧ (step cfg g (a, x)).calls ≤ g.calls := by
  have hless (i : Nat) (task : GatewayTask) : Gateway.calls ⟨g.store, task, g.fetches.eraseIdx i,
    g.converging⟩ ≤ g.calls :=
    Nat.add_le_add_right (List.length_eraseIdx_le ..) _
  have hset (i : Nat) (f : Fetch) : Gateway.calls { g with fetches := g.fetches.set i f } ≤ g.calls :=
    Nat.add_le_add_right (List.length_set ..).le _
  cases x with
  | live event =>
    have hkept : ingest cfg a g event = (g, true) := if_pos hended
    exact ⟨by rw [step, hkept]; exact .refl g, by rw [step, hkept]⟩
  | source event n =>
    have hkept : ingestSource cfg a g event n = g := if_pos hended
    exact ⟨by rw [step, hkept]; exact .refl g, by rw [step, hkept]⟩
  | poll log =>
    have hkept : step cfg g (a, .poll log) = g := if_neg (by rw [hmode]; exact nofun)
    exact ⟨by rw [hkept]; exact .refl g, by rw [hkept]⟩
  | observed status =>
    have hkept : step cfg g (a, .observed status) = g := (if_pos hmode).trans (if_pos hended)
    exact ⟨by rw [hkept]; exact .refl g, by rw [hkept]⟩
  | fetched i outcome =>
    show GoesOn g (fetched cfg a g i outcome) ∧ (fetched cfg a g i outcome).calls ≤ g.calls
    unfold fetched
    split
    · exact ⟨.refl g, Nat.le_refl _⟩
    · rename_i f _
      cases outcome with
      | some r =>
        have hkept : finishWithTerminal cfg a ⟨g.store, { g.task with pendingResult := some r },
          g.fetches.eraseIdx i, g.converging⟩ f.event none =
            ⟨g.store, { g.task with pendingResult := some r }, g.fetches.eraseIdx i, g.converging⟩ := if_pos hended
        simp only [hkept]
        exact ⟨.of_store ⟨rfl, rfl, rfl⟩ rfl rfl rfl, hless i _⟩
      | none =>
        simp only [hended, Bool.true_eq_false, and_false, if_false]
        split
        · exact ⟨.of_store ⟨rfl, rfl, rfl⟩ rfl rfl rfl, hset i _⟩
        · exact ⟨.of_store ⟨rfl, rfl, rfl⟩ rfl rfl rfl, hless i _⟩
  | woken i =>
    refine ⟨woken_goesOn i, ?_⟩
    show (woken g i).calls ≤ g.calls
    unfold woken
    split
    · exact Nat.le_refl _
    · rw [if_pos hended]
      exact hless i _
  | converged outcome => exact absurd rfl (hx outcome)

/-! ## The invariant -/

variable {r : AgentTaskResult}

/-- The store of a task: a result comes only with an end, and the end of a completed task has its result. -/
structure StoreInv (r : AgentTaskResult) (store : TaskStore) (converging : Bool) : Prop where
  fresh : listed store = true → store.result = none ∧ converging = false
  stored : completed store = true → ∃ row, store.result = some row ∧ rowOf VibeTask.resultEncoding "available" (some r) = .ok row
  recorded : ∀ status, ending store = some (status, true) → taskTerminalStatuses.contains status = true

/-- A task that goes on is not completed and asks for its result before it ends. -/
structure PathInv (cfg : Config) (r : AgentTaskResult) (s : Served) : Prop where
  store : StoreInv r s.gateway.store s.gateway.converging
  remote : s.presence ≠ .absent → s.gateway.task.mode = .remote
  going : s.presence ≠ .absent → s.gateway.task.terminal = false →
    completed s.gateway.store = false ∧ s.gateway.store.result = none ∧ s.gateway.converging = false ∧
      s.gateway.task.immediate cfg = false

/-- A store with the same end and the same result. -/
theorem StoreInv.same {store store' : TaskStore} {converging converging' : Bool} (h : StoreInv r store converging)
    (hending : ending store' = ending store) (hresult : store'.result = store.result)
    (hconv : converging' = true → converging = true) :
    StoreInv r store' converging' := by
  have hcompleted : completed store' = completed store := by rw [completed_eq, hending, ← completed_eq]
  have hlisted : listed store' = listed store := by rw [listed_eq, hending, ← listed_eq]
  refine ⟨fun hl => ?_, fun hc => ?_, fun status he => h.recorded status (hending.symm.trans he)⟩
  · obtain ⟨hnone, hidle⟩ := h.fresh (hlisted.symm.trans hl)
    refine ⟨hresult.trans hnone, Bool.eq_false_iff.mpr fun ht => ?_⟩
    rw [hconv ht] at hidle
    exact Bool.noConfusion hidle
  · rw [hresult]
    exact h.stored (hcompleted.symm.trans hc)

/-- A store whose row has ended. -/
theorem StoreInv.ended {store' : TaskStore} {status : String} (hending : ending store' = some (status, true))
    (hover : taskTerminalStatuses.contains status = true) (converging : Bool)
    (hstored : status = "completed" → ∃ row, store'.result = some row ∧ rowOf VibeTask.resultEncoding "available" (some r) = .ok row) :
    StoreInv r store' converging := by
  refine ⟨fun hl => ?_, fun hc => ?_, fun status' he => ?_⟩
  · rw [listed_eq, hending, Option.any_some, hover] at hl
    exact Bool.noConfusion hl
  · rw [completed_eq, hending, Option.any_some] at hc
    exact hstored (of_decide_eq_true hc)
  · cases hending.symm.trans he
    exact hover

/-- **An end of a task that went on**: a completed one is stored with its result. -/
theorem StoreInv.finished {store store' : TaskStore} {converging : Bool} {type : TaskEventType} {result : TaskResult}
    (h : StoreInv r store converging) (hgoing : completed store = false)
    (hend : EndStored a store store' type.terminalStatusFor result)
    (hresult : a.fault = false → type = .completed → result = ("available", some r)) : StoreInv r store' converging := by
  rcases hend with rfl | ⟨hfault, ⟨row, hrow, hstored⟩, hending | ⟨hending, status, hbefore⟩⟩
  · exact h
  · refine .ended hending (status_over type) converging fun hstatus => ⟨row, hstored, ?_⟩
    rw [hresult hfault (completed_type hstatus)] at hrow
    exact hrow
  · -- the end was recorded before
    refine .ended (hending.trans hbefore) (h.recorded status hbefore) converging fun hstatus => ?_
    rw [completed_eq, hbefore, Option.any_some, hstatus] at hgoing
    exact Bool.noConfusion hgoing

variable {s : Served}

theorem PathInv.goesOn (h : PathInv cfg r s) {g' : Gateway} (hpresent : s.presence ≠ .absent)
    (hg : GoesOn s.gateway g') :
    PathInv cfg r { s with gateway := g' } := by
  refine ⟨h.store.same hg.ending hg.result fun ht => hg.converging ▸ ht,
    fun _ => hg.same.mode.trans (h.remote hpresent),
    fun _ hopen => ?_⟩
  obtain ⟨hgoing, hnone, hidle, hask⟩ := h.going hpresent (hg.terminal.symm.trans hopen)
  refine ⟨?_, hg.result.trans hnone, hg.converging.trans hidle, hg.same.immediate.trans hask⟩
  rw [completed_eq, hg.ending, ← completed_eq]
  exact hgoing

/-- **An operation** that lacks no result at the end. -/
theorem act_inv (h : PathInv cfg r s) {x : Action} (hserves : Serves r (.act a x)) (hx : ResultFirst cfg s (.act a x)) :
    PathInv cfg r (occur cfg s (.act a x)) := by
  show PathInv cfg r (if s.presence = .absent then s else { s with gateway := step cfg s.gateway (a, x) })
  split
  · exact h
  rename_i hpresent
  have hmode := h.remote hpresent
  by_cases hc : ∃ outcome, x = .converged outcome
  · obtain ⟨outcome, rfl⟩ := hc
    show PathInv cfg r { s with gateway := converged cfg a s.gateway outcome }
    cases hconv : s.gateway.converging with
    | false =>
      rw [converged_idle hconv]
      exact h
    | true =>
      -- the replay has ended the task, and what is stored is kept
      obtain ⟨hsame, hterm, htables, hkept⟩ := converged_kept cfg a s.gateway outcome
      have hending : ending (converged cfg a s.gateway outcome).store = ending s.gateway.store :=
        congrArg (fun db : TaskTables => db.task.map _) htables
      have hcompleted : completed (converged cfg a s.gateway outcome).store = completed s.gateway.store := by
        rw [completed_eq, hending, ← completed_eq]
      have hlisted : listed (converged cfg a s.gateway outcome).store = listed s.gateway.store := by
        rw [listed_eq, hending, ← listed_eq]
      refine ⟨⟨fun hl => ?_, fun hdone => ?_, fun status he => h.store.recorded status (hending.symm.trans he)⟩,
        fun _ => hsame.mode.trans hmode, fun _ hopen => ?_⟩
      · exact Bool.noConfusion (hconv.symm.trans (h.store.fresh (hlisted.symm.trans hl)).2)
      · obtain ⟨row, hrow, hread⟩ := h.store.stored (hcompleted.symm.trans hdone)
        exact ⟨row, hkept row hrow, hread⟩
      · exact Bool.noConfusion (hconv.symm.trans (h.going hpresent (hterm.symm.trans hopen)).2.2.1)
  have hx' : ∀ outcome, x ≠ .converged outcome := fun outcome heq => hc ⟨outcome, heq⟩
  cases hopen : s.gateway.task.terminal with
  | true => exact h.goesOn hpresent (ended_step cfg a hmode hopen hx').1
  | false =>
    obtain ⟨hgoing, hnone, -, hask⟩ := h.going hpresent hopen
    cases x with
    | live event => exact h.goesOn hpresent (ingest_goesOn hmode hask event)
    | poll log =>
      have hkept : step cfg s.gateway (a, .poll log) = s.gateway := if_neg (by rw [hmode]; exact nofun)
      rw [hkept]
      exact h
    | observed status =>
      have hkept : step cfg s.gateway (a, .observed status) =
        reconcileRemoteRecord cfg a s.gateway status := if_pos hmode
      rw [hkept]
      exact h.goesOn hpresent (reconcile_goesOn hask status)
    | woken i => exact h.goesOn hpresent (woken_goesOn i)
    | converged outcome => exact absurd rfl (hx' outcome)
    | source event n =>
      rcases ingestSource_cases cfg a hopen event n with
        hg | ⟨te, res, himage, hfault, hcall, happlied, hsame, hended, hending⟩
      · exact h.goesOn hpresent hg
      · refine ⟨.ended hending (status_over te.type) _ fun hstatus => ?_, fun _ => hsame.mode.trans hmode,
          (fun _ ho => Bool.noConfusion (hended.symm.trans ho))⟩
        -- a completed task does not end this way
        have hlate := hx hpresent hopen hfault te himage (completed_type hstatus) res hcall
        exact Bool.noConfusion (happlied.symm.trans hlate)
    | fetched i outcome =>
      rcases fetched_cases cfg a hopen hnone i outcome with hg | ⟨f, res, hf, hends, hres⟩
      · exact h.goesOn hpresent hg
      · have hstore : StoreInv r (fetched cfg a s.gateway i outcome).store
            (fetched cfg a s.gateway i outcome).converging := by
          rw [hends.converging]
          refine h.store.finished hgoing hends.stored fun hfault htype => ?_
          rcases hres with rfl | ⟨rfl, hcapable, hlast⟩
          · exact hserves
          · exact absurd (hx hpresent hopen hfault hcapable f hf htype) hlast
        exact ⟨hstore, fun _ => hends.same.mode.trans hmode, fun _ ho => Bool.noConfusion (hends.ended.symm.trans ho)⟩

/-- **A restart** takes up a task that is not ended, and leaves one that is. -/
theorem restart_inv (henabled : cfg.remoteEnabled = true) (h : PathInv cfg r s) (a : Ambient) :
    PathInv cfg r (recoverRemote cfg a s) := by
  unfold recoverRemote
  cases hlisted : listed s.gateway.store with
  | false => exact ⟨h.store.same rfl rfl nofun, (fun hne => absurd rfl hne), fun hne => absurd rfl hne⟩
  | true =>
    have hgoing := uncompleted_of_listed hlisted
    have hnone := (h.store.fresh hlisted).1
    have hstore : StoreInv r s.gateway.store false := h.store.same rfl rfl nofun
    simp only [Bool.not_true, Bool.false_eq_true, if_false]
    cases hbound : (recoveredRemote s.gateway.store).task.unbound with
    | false =>
      simp only [Bool.false_eq_true, if_false]
      refine ⟨hstore, fun _ => rfl, fun _ _ => ⟨hgoing, hnone, rfl, ?_⟩⟩
      unfold GatewayTask.immediate
      rw [hbound, henabled]
      rfl
    | true =>
      simp only [if_true]
      obtain ⟨hsame, hended, hconv, hstored⟩ := finish_ends cfg a
        (synthEvent a (recoveredRemote s.gateway.store) .failed unknownStartPayload).1
        (g := (synthEvent a (recoveredRemote s.gateway.store) .failed unknownStartPayload).2) rfl hnone
          (some recoveryUnknownStart)
      refine ⟨?_, fun _ => hsame.mode, fun _ ho => Bool.noConfusion (hended.symm.trans ho)⟩
      rw [hconv]
      exact hstore.finished hgoing hstored fun _ htype => by cases htype

/-- **One occurrence.** -/
theorem occur_inv (henabled : cfg.remoteEnabled = true) (h : PathInv cfg r s) {x : Occurrence} (hserves : Serves r x)
    (hx : ResultFirst cfg s x) : PathInv cfg r (occur cfg s x) := by
  cases x with
  | act a x => exact act_inv h hserves hx
  | restart a => exact restart_inv henabled h a
  | evict =>
    show PathInv cfg r (if s.presence = .registered ∧
      s.gateway.task.terminal = true then { s with presence := .evicted } else s)
    split
    · rename_i hreg
      have hpresent : s.presence ≠ .absent := by
        rw [hreg.1]
        exact nofun
      exact ⟨h.store, fun _ => h.remote hpresent, fun _ => h.going hpresent⟩
    · exact h

variable {jsonParse : String → Option Json}

/-- **A completed task's result** is what the next GET returns. -/
theorem PathInv.served (h : PathInv cfg r s) (hr : Held cfg jsonParse r) (hdone : completed s.gateway.store = true) :
    handleGet cfg jsonParse s = .task "completed" (some ("available", some r)) := by
  obtain ⟨row, hres, hrow⟩ := h.store.stored hdone
  obtain ⟨o, ho⟩ := hr.valid
  have hended : ¬ (s.presence = .registered ∧ s.gateway.task.terminal = false) := by
    rintro ⟨hreg, hopen⟩
    have hpresent : s.presence ≠ .absent := by
      rw [hreg]
      exact nofun
    exact Bool.noConfusion (hdone.symm.trans (h.going hpresent hopen).1)
  unfold completed at hdone
  unfold handleGet resultProjection
  rw [if_neg hended]
  cases htask : s.gateway.store.tables.task with
  | none =>
    rw [htask] at hdone
    exact Bool.noConfusion hdone
  | some t =>
    rw [htask] at hdone
    simp only [hres, Option.map_some, read_back (validate_normal ho) hr.parts hrow, Option.getD_some,
      show t.status = "completed" from of_decide_eq_true hdone]

theorem available_row {row : ResultRow} (h : rowOf VibeTask.resultEncoding "available" (some r) = .ok row) :
    row.resultStatus = "available" := by
  unfold rowOf at h
  obtain ⟨_, -, h⟩ := VibeAdmission.bind_ok_iff.mp h
  obtain ⟨_, -, h⟩ := VibeAdmission.bind_ok_iff.mp h
  obtain ⟨_, -, h⟩ := VibeAdmission.bind_ok_iff.mp h
  obtain ⟨_, -, h⟩ := VibeAdmission.bind_ok_iff.mp h
  cases h
  rfl

theorem PathInv.hasPath (h : PathInv cfg r s) : HasPath cfg jsonParse r s := by
  rintro ⟨hdone, hlacks⟩
  obtain ⟨row, hres, hrow⟩ := h.store.stored hdone
  exact absurd (available_row hrow) (hlacks row hres)

/-! ## A task that has ended -/

/-- The task is completed, and its process, if one holds it, knows. -/
structure Over (s : Served) : Prop where
  completed : completed s.gateway.store = true
  ended : s.presence ≠ .absent → s.gateway.task.mode = .remote ∧ s.gateway.task.terminal = true

/-- **No occurrence** calls the Node for the result of a completed task. -/
theorem over_step (h : Over s) (x : Occurrence) : Over (occur cfg s x) ∧
    (occur cfg s x).gateway.calls ≤ s.gateway.calls := by
  cases x with
  | act a x =>
    show Over (if s.presence = .absent then s else { s with gateway := step cfg s.gateway (a, x) }) ∧
      (if s.presence = .absent then s else { s with gateway := step cfg s.gateway (a, x) }).gateway.calls ≤ s.gateway.calls
    split
    · exact ⟨h, Nat.le_refl _⟩
    rename_i hpresent
    obtain ⟨hmode, hended⟩ := h.ended hpresent
    by_cases hc : ∃ outcome, x = .converged outcome
    · obtain ⟨outcome, rfl⟩ := hc
      obtain ⟨hsame, hterm, htables, -⟩ := converged_kept cfg a s.gateway outcome
      obtain ⟨hidle, hfetches⟩ := converged_over cfg a s.gateway outcome
      refine ⟨⟨?_, fun _ => ⟨hsame.mode.trans hmode, hterm.trans hended⟩⟩, ?_⟩
      · have hdone := h.completed
        unfold VibeGateway.completed at hdone ⊢
        show (converged cfg a s.gateway outcome).store.tables.task.any _ = true
        rw [htables]
        exact hdone
      · show (converged cfg a s.gateway outcome).calls ≤ s.gateway.calls
        unfold Gateway.calls
        rw [hidle, hfetches]
        exact Nat.le_add_right ..
    · obtain ⟨hg, hcalls⟩ := ended_step cfg a hmode hended fun outcome heq => hc ⟨outcome, heq⟩
      refine ⟨⟨?_, fun _ => ⟨hg.same.mode.trans hmode, hg.terminal.trans hended⟩⟩, hcalls⟩
      show VibeGateway.completed (step cfg s.gateway (a, x)).store = true
      rw [completed_eq, hg.ending, ← completed_eq]
      exact h.completed
  | evict =>
    show Over (if s.presence = .registered ∧ s.gateway.task.terminal =
      true then { s with presence := .evicted } else s) ∧
      (if s.presence = .registered ∧ s.gateway.task.terminal =
        true then { s with presence := .evicted } else s).gateway.calls ≤ s.gateway.calls
    split
    · rename_i hreg
      exact ⟨⟨h.completed, fun _ => h.ended (by rw [hreg.1]; exact nofun)⟩, Nat.le_refl _⟩
    · exact ⟨h, Nat.le_refl _⟩
  | restart a =>
    have hover : listed s.gateway.store = false :=
      Bool.eq_false_iff.mpr fun hl => Bool.noConfusion (h.completed.symm.trans (uncompleted_of_listed hl))
    have hrestart : recoverRemote cfg a s = ⟨{ s.gateway with fetches := [], converging := false }, .absent⟩ := by
      unfold recoverRemote
      rw [hover]
      rfl
    show Over (recoverRemote cfg a s) ∧ (recoverRemote cfg a s).gateway.calls ≤ _
    rw [hrestart]
    exact ⟨⟨h.completed, fun hne => absurd rfl hne⟩, Nat.zero_le _⟩

theorem over_run (h : Over s) (later : List Occurrence) : Over (run (occur cfg) s later) := by
  induction later generalizing s with
  | nil => exact h
  | cons x xs ih => exact ih (over_step h x).1

/-- A completed task that lacks its result has no path to it. -/
theorem over_pathless (h : Over s) (hlacks : Lacking s.gateway.store) : ¬ HasPath cfg jsonParse r s := by
  intro hpath
  obtain ⟨later, x, -, hcalls, -⟩ := hpath hlacks
  exact Nat.not_lt.mpr (over_step (over_run h later) x).2 hcalls

/-! ## Creation -/

theorem created_ending {c : Creation} (hmode : c.mode = .remote)
    (hstatus : isTerminalTaskStatus (runStatusToTaskStatus c.status) = false) {store : TaskStore}
    (h : createDurable cfg c = some store) :
    (∃ status, ending store = some (status, false) ∧ status ≠ "completed") ∧ store.result = none := by
  unfold createDurable at h
  split at h
  · cases h
  · rename_i store' hcall
    rw [hmode] at h
    obtain rfl := Option.some.inj h
    obtain ⟨hinserted, hresult⟩ := events_ending cfg.taskId c.createdAt (insertedRow (createdStatus c) none)
      (c := .append (toEventInput (createdEvent c))) (fun _ _ _ hc => by cases hc)
    rw [hcall] at hinserted hresult
    have hqueued : createdStatus c = .queued := by
      unfold createdStatus
      rw [hmode]
    rw [hqueued] at hinserted
    have hbound : (∃ status, ending (persist cfg ⟨c.bindFault, c.createdAt, none⟩ store'
      (.update 1 (bindPatch c))).2 = some (status, false) ∧
        status ≠ "completed") ∧ (persist cfg ⟨c.bindFault, c.createdAt, none⟩ store' (.update 1 (bindPatch c))).2.result = none := by
      have hkept : (∃ status, ending store' = some (status, false) ∧ status ≠ "completed") ∧ store'.result = none :=
        ⟨⟨"queued", hinserted, by decide⟩, hresult⟩
      unfold persist
      cases c.bindFault with
      | true => exact hkept
      | false =>
        show (∃ status, ending (updateTaskSync cfg.taskId 1 (bindPatch c) store').2 = some (status, false) ∧ status ≠ "completed") ∧
          (updateTaskSync cfg.taskId 1 (bindPatch c) store').2.result = none
        cases hupdate : updateTaskSync cfg.taskId 1 (bindPatch c) store' with
        | mk res store'' =>
        cases res with
        | error e =>
          obtain rfl := update_clean cfg.taskId 1 (bindPatch c) store' e store'' hupdate
          exact hkept
        | ok _ =>
          obtain ⟨cur, errorCode, errorMessage, htask, -, htables, hres⟩ := update_ok hupdate
          have hlive : cur.terminalEventRecorded = false := by
            have hrow := hinserted
            unfold ending at hrow
            rw [htask] at hrow
            exact congrArg Prod.snd (Option.some.inj hrow)
          refine ⟨⟨(runStatusToTaskStatus c.status).name, ?_, ?_⟩, hres.trans hresult⟩
          · unfold ending
            rw [htables]
            exact congrArg (fun b => some ((runStatusToTaskStatus c.status).name, b)) hlive
          · revert hstatus
            generalize c.status = status
            cases status <;> decide
    show (∃ status, ending (if c.replayCapable then _ else _) = some (status, false) ∧ status ≠ "completed") ∧
      TaskStore.result (if c.replayCapable then _ else _) = none
    cases c.replayCapable with
    | false => exact hbound
    | true =>
      obtain ⟨⟨status, hending, hne⟩, hres⟩ := hbound
      obtain ⟨t, ht, hrow⟩ := Option.map_eq_some_iff.mp hending
      refine ⟨⟨status, ?_, hne⟩, hres⟩
      show ((persist cfg ⟨c.bindFault, c.createdAt, none⟩ store'
        (.update 1 (bindPatch c))).2.tables.task.map _).map _ = _
      rw [ht]
      exact congrArg some hrow

theorem created_path {c : Creation} (hmode : c.mode = .remote) (henabled : cfg.remoteEnabled = true) (hrun : c.runId ≠ "")
    (hcapable : c.resultCapable = true) (hstatus : isTerminalTaskStatus (runStatusToTaskStatus c.status) = false)
    (hg : handleCreate cfg c = some g) (r : AgentTaskResult) : PathInv cfg r ⟨g, .registered⟩ := by
  obtain ⟨store, hstore, rfl⟩ := Option.map_eq_some_iff.mp hg
  obtain ⟨⟨status, hending, hne⟩, hnone⟩ := created_ending hmode hstatus hstore
  have hgoing : completed store = false := by
    rw [completed_eq, hending, Option.any_some]
    exact decide_eq_false hne
  refine ⟨⟨fun _ => ⟨hnone, rfl⟩, (fun hdone => Bool.noConfusion (hdone.symm.trans hgoing)),
    fun _ he => ?_⟩, fun _ => hmode,
    fun _ _ => ⟨hgoing, hnone, rfl, ?_⟩⟩
  · cases hending.symm.trans he
  · simp [GatewayTask.immediate, GatewayTask.unbound, hmode, henabled, hrun, hcapable]

end

def emptyParse (text : String) : Option Json := if text = "[]" then some (.arr []) else none

theorem emptyResult_held : Held sampleConfig emptyParse emptyResult := by
  have hnormal : Normal sampleConfig.sha256 emptyResult := by
    refine ⟨rfl, by decide +kernel, ?_, by decide +kernel, by decide +kernel, rfl, rfl, rfl, nofun⟩
    rintro n ⟨⟩
    rfl
  refine ⟨⟨envelope emptyResult, (envelope_reads hnormal).validates hnormal⟩, ?_⟩
  rintro v (⟨⟨⟩⟩ | ⟨⟨⟩⟩ | hnone)
  · rfl
  · rfl
  · cases hnone

/-- The Gateway restarts, sees that the run is over, and fetches its result at the second attempt. -/
def fetchedLate : List Occurrence :=
  [.restart calm, .act calm (.observed .completed), .act calm (.fetched 0 none), .act calm (.woken 0),
    .act calm (.fetched 0 (some ("available", some emptyResult)))]

/-- The replay ends the task, and the result is fetched. -/
def endedByReplay : Occurrence := .act calm (.source endEvent (JsNum.ofInt 0))

/-- A task is taken up after a restart, and its result is asked for in vain. -/
def askedInVain : List Occurrence :=
  [.restart calm, .act calm (.observed .completed), .act calm (.fetched 0 none), .act calm (.woken 0),
    .act calm (.fetched 0 none), .act calm (.woken 0), .act calm (.fetched 0 none)]

end VibeGateway
