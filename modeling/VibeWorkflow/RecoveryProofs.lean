import VibeWorkflow.AgreementProofs

/-!
# Local tasks across restarts of the Gateway

A local run goes on writing its log while the Gateway is down.  When the Gateway is back it reads the
run's status: while the run goes on, the number of durable events tells how much of the log has been
mapped, and the polling resumes there; a run that has ended meanwhile is ended at once.

* `seeded_follows` — counting the durable events finds the place in the log;
* `drainLoop_follows` — a poll carries the place to the end of the log;
* **`recovered_complete`** — a task that is finished has the images of the whole log, in order, ending
  with the terminal one, in every run that is still going on when a restart reads its status, if no crash
  falls between the two statements of an append.
-/

namespace VibeGateway

open VibeJson VibeStore VibeTask VibeRun CallRuns

/-! ## Restarts -/

/-- Where the task is with respect to its log: it is polled, it waits for its `n`-th reconciliation
    after a restart, or it had ended durably when the Gateway came up. -/
inductive Phase where
  | polling
  | reconciling (attempt : Nat)
  | settled
deriving DecidableEq

structure LocalTask where
  log : List Json
  gateway : Gateway
  phase : Phase

/-- What happens to a local task.  `crash n` lets the poll under way take `n` more events, and `tear n` half of
    the next one; `reconcile` is given the run's status as `readRun` finds it. -/
inductive Happening where
  | emit (event : Json)
  | poll (a : Ambient)
  | crash (a : Ambient) (n : Nat)
  | tear (a : Ambient) (n : Nat)
  | reconcile (a : Ambient) (status : Option RunStatus)

def remoteReconcileAttempts : Nat := 3

/-- `listNonTerminalTasks` has the task. -/
def listed (store : TaskStore) : Bool := store.tables.task.any fun t => !t.terminal

/-- The task in memory, as `recoverTasks` rebuilds it. -/
def recoveredTask (store : TaskStore) : GatewayTask where
  mode := .localRun
  nextSeq := (store.tables.task.map (·.lastEventSequence)).getD (-1) + 1
  emittedRunEvents := 0
  terminal := false
  revision := store.columns.revision
  remoteRunId := none
  resultCapable := none
  pendingResult := none
  published := []

def recoverTasks (s : LocalTask) : LocalTask :=
  if listed s.gateway.store then
    { s with gateway := ⟨s.gateway.store, recoveredTask s.gateway.store, [], false⟩, phase := .reconciling 0 }
  else { s with gateway := { s.gateway with fetches := [], converging := false }, phase := .settled }

/-- The place in the log after which `alreadyMapped` events have an image. -/
def seedCursor : List Json → Nat → Nat
  | [], _ => 0
  | _ :: _, 0 => 0
  | event :: rest, mapped + 1 =>
    if (runEventToTaskEvent event 0).isSome then seedCursor rest mapped + 1 else seedCursor rest (mapped + 1) + 1

def seedRecoveredLocalCursor (s : Gateway) (log : List Json) : Gateway :=
  { s with task := { s.task with emittedRunEvents := seedCursor log (s.task.nextSeq - 1).toNat } }

def recoveryRunMissing : String × String := ("recovery_run_missing", "local run state unavailable after restart")

section

variable (cfg : Config)

/-- The reconciliation of a recovered local task.  The poll it starts is the next one. -/
def reconcileRecovered (a : Ambient) (s : LocalTask) (attempt : Nat) (status : Option RunStatus) : LocalTask :=
  if s.gateway.task.terminal then s
  else match status with
  | some status =>
    if isTerminalTaskStatus (runStatusToTaskStatus status) then
      let (ev, g) := synthEvent a s.gateway (terminalType (runStatusToTaskStatus status)) (.obj [])
      { s with gateway := finishWithTerminal cfg a g ev none }
    else { s with gateway := seedRecoveredLocalCursor s.gateway s.log, phase := .polling }
  | none =>
    if attempt + 1 < remoteReconcileAttempts then { s with phase := .reconciling (attempt + 1) }
    else
      let (ev, g) := synthEvent a s.gateway .failed
        (.obj [("reason", .str recoveryRunMissing.1), ("message", .str recoveryRunMissing.2)])
      { s with gateway := finishWithTerminal cfg a g ev (some recoveryRunMissing) }

/-- A poll under way when the Gateway dies. -/
def cutShort (a : Ambient) (s : LocalTask) (n : Nat) : Gateway :=
  match s.phase with
  | .polling =>
    (drainLoop cfg s.gateway s.gateway.task.emittedRunEvents
      (((s.log.drop s.gateway.task.emittedRunEvents).take n).map fun e => (e, a))).1
  | _ => s.gateway

/-- The rows after the `INSERT` of an append that takes the event.  Each statement of `appendTaskEventDurable` is
    written at once, and the `UPDATE` of the task's row has not come. -/
def insertOnly (db : TaskTables) (ev : TaskEventInput) : TaskTables :=
  { (appendTaskEventDurable cfg.taskId db ev).2 with task := db.task }

/-- A poll under way when the Gateway dies, between the two statements of the next append.  A terminal event is
    not appended in this way, but in one transaction. -/
def tornShort (a : Ambient) (s : LocalTask) (n : Nat) : Gateway :=
  let g := cutShort cfg a s n
  match s.phase, s.log[s.gateway.task.emittedRunEvents + n]? with
  | .polling, some event =>
    match runEventToTaskEvent event g.task.nextSeq with
    | some te =>
      if g.task.terminal || te.type.terminal || a.fault then g
      else { g with store := { g.store with tables := insertOnly cfg g.store.tables (toEventInput te) } }
    | none => g
  | _, _ => g

def happen (s : LocalTask) : Happening → LocalTask
  | .emit event => { s with log := s.log ++ [event] }
  | .poll a =>
    match s.phase with
    | .polling => { s with gateway := drain cfg s.gateway (s.log.map fun e => (e, a)) }
    | _ => s
  | .crash a n => recoverTasks { s with gateway := cutShort cfg a s n }
  | .tear a n => recoverTasks { s with gateway := tornShort cfg a s n }
  | .reconcile a status =>
    match s.phase with
    | .reconciling attempt => reconcileRecovered cfg a s attempt status
    | _ => s

end

/-! ## What is owed -/

/-- What a durable event says. -/
def contents (db : TaskTables) : List (String × String × String) :=
  db.events.map fun r => (r.eventType, r.ts, r.payloadJson)

def eventContent (ev : TaskEvent) : String × String × String := (ev.type.name, ev.ts, stringify ev.payload)

/-- The images of a log. -/
def imagesOf (log : List Json) : List TaskEvent := log.filterMap fun event => runEventToTaskEvent event 0

/-- The task has ended, in memory or before the Gateway came up. -/
def LocalTask.finished (s : LocalTask) : Prop := s.gateway.task.terminal = true ∨ s.phase = .settled

/-- A finished task has the images of the whole log after its first event, and the terminal one is the
    last; at any time its numbers have no gap. -/
structure Complete (c : Creation) (s : LocalTask) : Prop where
  numbered : s.gateway.store.tables.events.map TaskEventRow.sequence = List.range s.gateway.store.tables.events.length
  images : s.finished → contents s.gateway.store.tables =
    eventContent (createdEvent c) :: (imagesOf s.log).map eventContent
  ending : s.finished → ∃ before last, imagesOf s.log = before ++ [last] ∧ last.type.terminal = true ∧
    ∀ ev ∈ before, ev.type.terminal = false

/-- The store does not fail, and the run's result has a row. -/
structure Settles (cfg : Config) (a : Ambient) : Prop where
  written : a.fault = false
  result : ∀ task ev, task.pendingResult = none → Encodable (resolveTerminalResult cfg a task ev)

/-- Nothing is appended for the event that the poll comes to after `n` more. -/
def NoAppend (s : LocalTask) (n : Nat) : Prop :=
  s.phase = .polling → ∀ event te, s.log[s.gateway.task.emittedRunEvents + n]? = some event →
    runEventToTaskEvent event 0 = some te → te.type.terminal = true

/-- The events can be stored and the terminal one is the last; the store does not fail; no crash tears an
    append; and a restart finds the run still going on. -/
def Undisturbed (cfg : Config) (s : LocalTask) : Happening → Prop
  | .emit event => (∀ e ∈ s.log, isTerminal e = false) ∧ ∀ te, runEventToTaskEvent event 0 = some te → Storable te
  | .poll a => Settles cfg a
  | .crash a _ => Settles cfg a
  | .tear a n => Settles cfg a ∧ NoAppend s n
  | .reconcile _ status =>
    match s.phase, status with
    | .reconciling _, some status => isTerminalTaskStatus (runStatusToTaskStatus status) = false
    | .reconciling attempt, none => attempt + 1 < remoteReconcileAttempts
    | _, _ => True

/-! ## The place in the log -/

/-- A log that the run writes: what it says can be stored, and its end is the last of it. -/
structure Proper (log : List Json) : Prop where
  storable : ∀ e ∈ log, ∀ te, runEventToTaskEvent e 0 = some te → Storable te
  last : ∀ e ∈ log.dropLast, isTerminal e = false

/-- The durable events are those of the first `k` events of the log, and the task goes on. -/
structure Follows (c : Creation) (log : List Json) (k : Nat) (store : TaskStore) (cur : TaskRow) : Prop where
  events : EventsInv store.tables cur
  rows : contents store.tables = eventContent (createdEvent c) :: (imagesOf (log.take k)).map eventContent
  going : cur.terminal = false
  recorded : cur.terminalEventRecorded = false
  result : store.result = none
  reached : k ≤ log.length
  unended : ∀ e ∈ log.take k, isTerminal e = false

/-- The task in memory is where its row is. -/
structure Awake (store : TaskStore) (task : GatewayTask) (cur : TaskRow) : Prop where
  mode : task.mode = .localRun
  live : task.terminal = false
  next : task.nextSeq = cur.lastEventSequence + 1
  revision : store.columns.revision = task.revision
  pending : task.pendingResult = none

/-- The durable events are those of the whole log, which has ended. -/
structure Ended (c : Creation) (log : List Json) (store : TaskStore) (cur : TaskRow) : Prop where
  events : EventsInv store.tables cur
  rows : contents store.tables = eventContent (createdEvent c) :: (imagesOf log).map eventContent
  closed : cur.terminal = true
  last : ∃ e ∈ log, isTerminal e = true

section

variable {cfg : Config} {a : Ambient} {c : Creation} {log : List Json} {k : Nat} {g : Gateway}
  {cur : TaskRow} {e : Json}

/-- An image does not depend on its number but for the number. -/
theorem image_at (event : Json) (n : Int) :
    runEventToTaskEvent event n = (runEventToTaskEvent event 0).map fun te => { te with seq := n } := by
  unfold runEventToTaskEvent
  split
  · rw [Option.map_map]
    rfl
  split
  · rfl
  · rfl

theorem imagesOf_append (as bs : List Json) : imagesOf (as ++ bs) = imagesOf as ++ imagesOf bs := List.filterMap_append

theorem imagesOf_take_succ (hget : log[k]? = some e) :
    imagesOf (log.take (k + 1)) = imagesOf (log.take k) ++ (runEventToTaskEvent e 0).toList := by
  rw [List.take_add_one, hget, imagesOf_append]
  simp only [imagesOf, Option.toList_some, List.filterMap_cons, List.filterMap_nil]
  cases runEventToTaskEvent e 0 <;> rfl

/-- The image of an event that ends nothing ends nothing. -/
theorem image_plain {te : TaskEvent} (hplain : isTerminal e = false) (himage : runEventToTaskEvent e 0 = some te) :
    te.type.terminal = false := by
  rw [Bool.eq_false_iff]
  intro hterm
  have hend : isTerminal e = true := (image_terminal e 0).mpr ⟨te, himage, hterm⟩
  exact nomatch hplain.symm.trans hend

theorem contents_append {db : TaskTables} {te : TaskEvent} {n : Nat} {task : Option TaskRow} :
    contents ⟨task, db.events ++ [appendedRow n (toEventInput te)]⟩ = contents db ++ [eventContent te] := by
  simp only [contents, List.map_append, List.map_cons, List.map_nil]
  rfl

theorem Awake.open (ha : Awake g.store g.task cur) (hf : Follows c log k g.store cur) :
    Open g.store g.task.revision cur :=
  ⟨ha.revision, hf.recorded, hf.result⟩

theorem unended_step (h : ∀ e ∈ log.take k, isTerminal e = false) (hget : log[k]? = some e)
    (hplain : isTerminal e = false) :
    ∀ e ∈ log.take (k + 1), isTerminal e = false := by
  intro e' he'
  rw [List.take_add_one, hget] at he'
  rcases List.mem_append.mp he' with hold | hnew
  · exact h e' hold
  · rw [List.mem_singleton.mp hnew]
    exact hplain

/-- **An event that does not end the run.** -/
theorem ingest_plain (hf : Follows c log k g.store cur) (ha : Awake g.store g.task cur) (hp : Proper log)
    (hget : log[k]? = some e) (hplain : isTerminal e = false) (hs : Settles cfg a) :
    (ingest cfg a g e).2 = false ∧ ∃ cur', Follows c log (k + 1) (ingest cfg a g e).1.store cur' ∧
      Awake (ingest cfg a g e).1.store (ingest cfg a g e).1.task cur' := by
  have hreached : k + 1 ≤ log.length := (List.getElem?_eq_some_iff.mp hget).1
  have hunended := unended_step hf.unended hget hplain
  have himages := imagesOf_take_succ hget
  simp only [ingest, ha.live, Bool.false_eq_true, if_false, image_at e g.task.nextSeq]
  cases himage : runEventToTaskEvent e 0 with
  | none =>
    refine ⟨rfl, cur, ⟨hf.events, ?_, hf.going, hf.recorded, hf.result, hreached, hunended⟩, ha⟩
    rw [himages, himage]
    simp only [Option.toList_none, List.append_nil]
    exact hf.rows
  | some te =>
    have hterm := image_plain hplain himage
    have hev := hp.storable e (List.mem_of_getElem? hget) te himage
    have htaken : persistThenPush cfg a g.reserve { te with seq := g.task.nextSeq } = _ :=
      persistThenPush_taken hf.events ha.next ⟨hev.ts, hev.fits⟩ hs.written
    have hlen := EventsInv.length hf.events
    simp only [Option.map_some, hterm, Bool.false_eq_true, if_false, htaken]
    refine ⟨trivial, _, ⟨hf.events.extend hlen nofun, ?_, hf.going, hf.recorded, hf.result, hreached, hunended⟩,
      ha.mode, ha.live, ?_, ha.revision, ha.pending⟩
    · show contents ⟨_, g.store.tables.events ++ [appendedRow _ (toEventInput _)]⟩ = _
      rw [contents_append, hf.rows, himages, himage, Option.toList_some, List.map_append]
      rfl
    · show g.task.nextSeq + 1 = (g.store.tables.events.length : Int) + 1
      rw [ha.next, hlen]

/-- The end of a proper log is the last of it. -/
theorem Proper.take_end (hp : Proper log) (hget : log[k]? = some e) (hend : isTerminal e = true) :
    log.take (k + 1) = log := by
  obtain ⟨hk, hval⟩ := List.getElem?_eq_some_iff.mp hget
  refine List.take_of_length_le ?_
  by_contra hmore
  have hlt : k < log.dropLast.length := by
    rw [List.length_dropLast]
    omega
  have hmem : e ∈ log.dropLast := by
    rw [← hval, ← List.getElem_dropLast hlt]
    exact List.getElem_mem hlt
  exact nomatch (hp.last e hmem).symm.trans hend

/-- **The event that ends the run.** -/
theorem ingest_end (hf : Follows c log k g.store cur) (ha : Awake g.store g.task cur) (hp : Proper log)
    (hget : log[k]? = some e) (hend : isTerminal e = true) (hs : Settles cfg a) :
    (ingest cfg a g e).2 = true ∧ (ingest cfg a g e).1.task.terminal = true ∧
      ∃ cur', Ended c log (ingest cfg a g e).1.store cur' := by
  obtain ⟨te, himage, hterm⟩ := (image_terminal e 0).mp hend
  have hev := hp.storable e (List.mem_of_getElem? hget) te himage
  have himages := imagesOf_take_succ hget
  rw [hp.take_end hget hend, himage, Option.toList_some] at himages
  have hlen := EventsInv.length hf.events
  have hfits : StatusFits cur { te with seq := g.task.nextSeq } := fun h => nomatch hf.going.symm.trans h
  have hr : Encodable (resolveTerminalResult cfg a g.reserve.task { te with seq := g.task.nextSeq }) :=
    hs.result g.reserve.task _ ha.pending
  obtain ⟨store, hfinish, htables⟩ : ∃ store, finishWithTerminal cfg a g.reserve
    { te with seq := g.task.nextSeq } none = _ ∧ _ :=
    finishWithTerminal_taken hf.events (ha.open hf) ha.live ha.next hterm ⟨hev.ts, hev.fits⟩ hfits hs.written hr
  have hlocal : ¬ g.task.mode = .remote := by
    rw [ha.mode]
    exact nofun
  simp only [ingest, ha.live, Bool.false_eq_true, if_false, image_at e g.task.nextSeq, himage,
    Option.map_some, hterm, if_true,
    if_neg hlocal, hfinish]
  refine ⟨trivial, rfl, endedRow cur g.store.tables.events.length te, ?_, ?_, ?_, e, List.mem_of_getElem? hget, hend⟩
  · show EventsInv store.tables _
    rw [htables]
    exact hf.events.of_push hlen nofun rfl
  · show contents store.tables = _
    rw [htables, contents_append, himages, List.map_append]
    show contents g.store.tables ++ _ = _
    rw [hf.rows]
    rfl
  · exact List.contains_iff_mem.mpr (terminalStatus_mem hterm)

/-- **A poll**, cut short after `n` events or not, carries the place on, or ends the task. -/
theorem drainLoop_follows (hs : Settles cfg a) (hp : Proper log) (n : Nat) {i : Nat} (hf : Follows c log k g.store cur)
    (ha : Awake g.store g.task cur) :
    let r := drainLoop cfg g i (((log.drop k).take n).map fun e => (e, a))
    (r.2 = none ∧ ∃ cur', Follows c log (min (k + n) log.length) r.1.store cur' ∧ Awake r.1.store r.1.task cur') ∨
      (r.1.task.terminal = true ∧ ∃ cur', Ended c log r.1.store cur') := by
  induction n generalizing k g cur i with
  | zero =>
    refine .inl ⟨rfl, cur, ?_, ha⟩
    rw [Nat.add_zero, Nat.min_eq_left hf.reached]
    exact hf
  | succ n ih =>
    cases hget : log[k]? with
    | none =>
      have hk : log.length ≤ k := List.getElem?_eq_none_iff.mp hget
      rw [List.drop_eq_nil_of_le hk]
      refine .inl ⟨rfl, cur, ?_, ha⟩
      have hmin : min (k + (n + 1)) log.length = k := by
        have := hf.reached
        omega
      rw [hmin]
      exact hf
    | some e =>
      obtain ⟨hk, hval⟩ := List.getElem?_eq_some_iff.mp hget
      have hdrop : log.drop k = e :: log.drop (k + 1) := by
        rw [← hval]
        exact List.drop_eq_getElem_cons hk
      rw [hdrop, List.take_succ_cons, List.map_cons, drainLoop]
      cases hend : isTerminal e with
      | true =>
        obtain ⟨hstop, hterm, cur', hended⟩ := ingest_end hf ha hp hget hend hs
        generalize hr : ingest cfg a g e = r at hstop hterm hended
        obtain ⟨g', stop⟩ := r
        obtain rfl : stop = true := hstop
        exact .inr ⟨hterm, cur', hended⟩
      | false =>
        obtain ⟨hstop, cur', hf', ha'⟩ := ingest_plain hf ha hp hget hend hs
        generalize hr : ingest cfg a g e = r at hstop hf' ha'
        obtain ⟨g', stop⟩ := r
        obtain rfl : stop = false := hstop
        have hnext := ih (i := i + 1) hf' ha'
        have hsum : k + 1 + n = k + (n + 1) := by omega
        rw [hsum] at hnext
        exact hnext

/-! ## Finding the place again -/

/-- **Counting the mapped events** finds a place with the same images. -/
theorem seedCursor_spec (hk : k ≤ log.length) :
    seedCursor log (imagesOf (log.take k)).length ≤ k ∧
      imagesOf (log.take (seedCursor log (imagesOf (log.take k)).length)) = imagesOf (log.take k) := by
  induction log generalizing k with
  | nil =>
    obtain rfl : k = 0 := Nat.le_zero.mp hk
    exact ⟨Nat.le_refl 0, rfl⟩
  | cons e rest ih =>
    cases k with
    | zero => exact ⟨Nat.le_refl 0, rfl⟩
    | succ k =>
      obtain ⟨hle, himages⟩ := ih (Nat.le_of_succ_le_succ hk)
      rw [List.take_succ_cons]
      cases himage : runEventToTaskEvent e 0 with
      | some te =>
        have hcons (l : List Json) : imagesOf (e :: l) = te :: imagesOf l := by
          simp only [imagesOf, List.filterMap_cons, himage]
        rw [hcons, List.length_cons, seedCursor, himage, Option.isSome_some, if_pos rfl]
        refine ⟨Nat.succ_le_succ hle, ?_⟩
        rw [List.take_succ_cons, hcons, himages]
      | none =>
        have hcons (l : List Json) : imagesOf (e :: l) = imagesOf l := by
          simp only [imagesOf, List.filterMap_cons, himage]
        rw [hcons]
        cases hn : (imagesOf (rest.take k)).length with
        | zero => exact ⟨Nat.zero_le _, (List.length_eq_zero_iff.mp hn).symm⟩
        | succ m =>
          rw [hn] at hle himages
          rw [seedCursor, himage, Option.isSome_none, if_neg Bool.false_ne_true]
          refine ⟨Nat.succ_le_succ hle, ?_⟩
          rw [List.take_succ_cons, hcons, himages]

theorem take_of_le {j : Nat} (hj : j ≤ k) (he : e ∈ log.take j) : e ∈ log.take k := by
  have hinit : log.take j = (log.take k).take j := by rw [List.take_take, Nat.min_eq_left hj]
  rw [hinit] at he
  exact List.mem_of_mem_take he

/-- **A recovered task** is polled from where its durable events end. -/
theorem seeded_follows (hf : Follows c log k g.store cur) (ha : Awake g.store g.task cur) :
    Follows c log (seedRecoveredLocalCursor g log).task.emittedRunEvents g.store cur := by
  have hcount : (g.task.nextSeq - 1).toNat = (imagesOf (log.take k)).length := by
    have hlen := EventsInv.length hf.events
    have hrows := congrArg List.length hf.rows
    simp only [contents, List.length_map, List.length_cons] at hrows
    rw [ha.next]
    omega
  obtain ⟨hle, himages⟩ := seedCursor_spec hf.reached
  show Follows c log (seedCursor log (g.task.nextSeq - 1).toNat) g.store cur
  rw [hcount]
  refine ⟨hf.events, ?_, hf.going, hf.recorded, hf.result, hle.trans hf.reached,
    fun e he => hf.unended e (take_of_le hle he)⟩
  rw [himages]
  exact hf.rows

end

/-! ## Runs -/

/-- Where a task is, by its phase. -/
def Placed (c : Creation) (s : LocalTask) : Prop :=
  match s.phase with
  | .polling =>
    (∃ cur, Follows c s.log s.gateway.task.emittedRunEvents s.gateway.store cur ∧
      Awake s.gateway.store s.gateway.task cur) ∨
      (s.gateway.task.terminal = true ∧ ∃ cur, Ended c s.log s.gateway.store cur)
  | .reconciling _ => ∃ k cur, Follows c s.log k s.gateway.store cur ∧ Awake s.gateway.store s.gateway.task cur
  | .settled => ∃ cur, Ended c s.log s.gateway.store cur

def RecoveryInv (c : Creation) (s : LocalTask) : Prop := Proper s.log ∧ Placed c s

section

variable {cfg : Config} {a : Ambient} {c : Creation} {log : List Json} {k : Nat} {g : Gateway}
  {s : LocalTask} {cur : TaskRow}

/-- A log that goes on. -/
theorem Follows.emitted (hf : Follows c log k g.store cur) (event : Json) :
    Follows c (log ++ [event]) k g.store cur := by
  have htake : (log ++ [event]).take k = log.take k := List.take_append_of_le_length hf.reached
  refine ⟨hf.events, htake.symm ▸ hf.rows, hf.going, hf.recorded, hf.result, ?_, htake.symm ▸ hf.unended⟩
  rw [List.length_append]
  exact hf.reached.trans (Nat.le_add_right _ _)

theorem emit_inv (h : RecoveryInv c s) {event : Json} (hopen : ∀ e ∈ s.log, isTerminal e = false)
    (hev : ∀ te, runEventToTaskEvent event 0 = some te → Storable te) :
    RecoveryInv c { s with log := s.log ++ [event] } := by
  obtain ⟨hp, hplaced⟩ := h
  refine ⟨⟨?_, ?_⟩, ?_⟩
  · intro e he
    rcases VibeControl.mem_snoc.mp he with hold | rfl
    · exact hp.storable e hold
    · exact hev
  · rw [List.dropLast_concat]
    exact hopen
  · have hnot (store : TaskStore) : ¬ ∃ cur, Ended c s.log store cur := by
      rintro ⟨cur, hended⟩
      obtain ⟨e, he, hend⟩ := hended.last
      exact nomatch (hopen e he).symm.trans hend
    unfold Placed at hplaced ⊢
    cases hphase : s.phase with
    | polling =>
      simp only [hphase] at hplaced ⊢
      rcases hplaced with ⟨cur, hf, ha⟩ | ⟨-, hended⟩
      · exact .inl ⟨cur, hf.emitted event, ha⟩
      · exact (hnot _ hended).elim
    | reconciling attempt =>
      simp only [hphase] at hplaced ⊢
      obtain ⟨k, cur, hf, ha⟩ := hplaced
      exact ⟨k, cur, hf.emitted event, ha⟩
    | settled =>
      simp only [hphase] at hplaced
      exact (hnot _ hplaced).elim

/-- A poll to the end of the log. -/
theorem poll_placed (hp : Proper s.log) (hs : Settles cfg a)
    (hf : Follows c s.log s.gateway.task.emittedRunEvents s.gateway.store cur)
    (ha : Awake s.gateway.store s.gateway.task cur) :
    let g := drain cfg s.gateway (s.log.map fun e => (e, a))
    (∃ cur', Follows c s.log s.log.length g.store cur' ∧ Awake g.store g.task cur' ∧
      g.task.emittedRunEvents = s.log.length) ∨
      (g.task.terminal = true ∧ ∃ cur', Ended c s.log g.store cur') := by
  have hloop := drainLoop_follows hs hp s.log.length (i := s.gateway.task.emittedRunEvents) hf ha
  have hall : (s.log.drop s.gateway.task.emittedRunEvents).take s.log.length =
    s.log.drop s.gateway.task.emittedRunEvents :=
    List.take_of_length_le (by rw [List.length_drop]; exact Nat.sub_le _ _)
  have hmin : min (s.gateway.task.emittedRunEvents + s.log.length) s.log.length = s.log.length :=
    Nat.min_eq_right (Nat.le_add_left _ _)
  rw [hall, hmin, List.map_drop] at hloop
  simp only [drain, List.length_map]
  rcases hloop with ⟨hnone, cur', hf', ha'⟩ | ⟨hterm, hended⟩
  · refine .inl ⟨cur', hf', ⟨ha'.mode, ha'.live, ha'.next, ha'.revision, ha'.pending⟩, ?_⟩
    rw [hnone]
    rfl
  · exact .inr ⟨hterm, hended⟩

/-- A Gateway that comes up again. -/
theorem recover_placed (hp : Proper s.log)
    (h : (∃ k cur, Follows c s.log k s.gateway.store cur) ∨ ∃ cur, Ended c s.log s.gateway.store cur) :
    RecoveryInv c (recoverTasks s) := by
  unfold recoverTasks
  rcases h with ⟨k, cur, hf⟩ | ⟨cur, hended⟩
  · have hlisted : listed s.gateway.store = true := by
      simp only [listed, hf.events.task, Option.any_some, hf.going, Bool.not_false]
    rw [if_pos hlisted]
    refine ⟨hp, k, cur, hf, rfl, rfl, ?_, rfl, rfl⟩
    simp only [recoveredTask, hf.events.task, Option.map_some, Option.getD_some]
  · have hgone : listed s.gateway.store = false := by
      simp only [listed, hended.events.task, Option.any_some, hended.closed, Bool.not_true]
    rw [if_neg (Bool.eq_false_iff.mp hgone)]
    exact ⟨hp, cur, hended⟩

/-- An ended task takes no more events. -/
theorem drainLoop_over (hover : g.task.terminal = true) (l : List (Json × Ambient)) (i : Nat) :
    (drainLoop cfg g i l).1 = g := by
  cases l with
  | nil => rfl
  | cons p rest =>
    obtain ⟨e, b⟩ := p
    simp only [drainLoop, ingest, hover, if_true]

theorem crash_inv (h : RecoveryInv c s) (hs : Settles cfg a) (n : Nat) :
    RecoveryInv c (recoverTasks { s with gateway := cutShort cfg a s n }) := by
  obtain ⟨hp, hplaced⟩ := h
  refine recover_placed (s := { s with gateway := cutShort cfg a s n }) hp ?_
  unfold Placed at hplaced
  unfold cutShort
  cases hphase : s.phase with
  | polling =>
    simp only [hphase] at hplaced ⊢
    rcases hplaced with ⟨cur, hf, ha⟩ | ⟨hover, hended⟩
    · rcases drainLoop_follows hs hp n (i := s.gateway.task.emittedRunEvents) hf ha with ⟨-, cur', hf', -⟩ | ⟨-, hended⟩
      · exact .inl ⟨_, cur', hf'⟩
      · exact .inr hended
    · refine .inr ?_
      rw [drainLoop_over hover]
      exact hended
  | reconciling attempt =>
    simp only [hphase] at hplaced ⊢
    obtain ⟨k, cur, hf, -⟩ := hplaced
    exact .inl ⟨k, cur, hf⟩
  | settled =>
    simp only [hphase] at hplaced ⊢
    exact .inr hplaced

/-- Where nothing is appended there is nothing to tear. -/
theorem tornShort_eq {n : Nat} (h : NoAppend s n) : tornShort cfg a s n = cutShort cfg a s n := by
  unfold tornShort
  cases hphase : s.phase with
  | reconciling attempt => rfl
  | settled => rfl
  | polling =>
    dsimp only
    cases hevent : s.log[s.gateway.task.emittedRunEvents + n]? with
    | none => rfl
    | some event =>
      dsimp only
      rw [image_at]
      cases himage : runEventToTaskEvent event 0 with
      | none => rfl
      | some te =>
        have hterm : te.type.terminal = true := h hphase event te hevent himage
        simp only [Option.map_some, hterm, Bool.or_true, Bool.true_or, if_true]

/-- **One happening** to a task that is not disturbed. -/
theorem happen_inv (h : RecoveryInv c s) {x : Happening} (hx : Undisturbed cfg s x) :
    RecoveryInv c (happen cfg s x) := by
  cases x with
  | emit event => exact emit_inv h hx.1 hx.2
  | crash a n => exact crash_inv h hx n
  | tear a n =>
    show RecoveryInv c (recoverTasks { s with gateway := tornShort cfg a s n })
    rw [tornShort_eq hx.2]
    exact crash_inv h hx.1 n
  | poll a =>
    obtain ⟨hp, hplaced⟩ := h
    simp only [happen]
    cases hphase : s.phase with
    | reconciling attempt => exact ⟨hp, hplaced⟩
    | settled => exact ⟨hp, hplaced⟩
    | polling =>
      unfold Placed at hplaced
      simp only [hphase] at hplaced
      refine ⟨hp, ?_⟩
      show (∃ cur, _) ∨ _
      rcases hplaced with ⟨cur, hf, ha⟩ | ⟨hover, hended⟩
      · rcases poll_placed hp hx hf ha with ⟨cur', hf', ha', hemitted⟩ | hdone
        · exact .inl ⟨cur', hemitted.symm ▸ hf', ha'⟩
        · exact .inr hdone
      · refine .inr ?_
        have hkept : (drainLoop cfg s.gateway s.gateway.task.emittedRunEvents
            ((s.log.map fun e => (e, a)).drop s.gateway.task.emittedRunEvents)).1 =
              s.gateway := drainLoop_over hover _ _
        simp only [drain, hkept]
        exact ⟨hover, hended⟩
  | reconcile a status =>
    obtain ⟨hp, hplaced⟩ := h
    simp only [happen]
    cases hphase : s.phase with
    | polling => exact ⟨hp, hplaced⟩
    | settled => exact ⟨hp, hplaced⟩
    | reconciling attempt =>
      unfold Placed at hplaced
      simp only [Undisturbed, hphase] at hplaced hx
      obtain ⟨k, cur, hf, ha⟩ := hplaced
      simp only [reconcileRecovered, ha.live, Bool.false_eq_true, if_false]
      cases status with
      | some status =>
        simp only [hx, Bool.false_eq_true, if_false]
        exact ⟨hp, .inl ⟨cur, seeded_follows hf ha, ha.mode, ha.live, ha.next, ha.revision, ha.pending⟩⟩
      | none =>
        simp only [if_pos hx]
        exact ⟨hp, k, cur, hf, ha⟩

/-- A task as created. -/
theorem created_placed (hmode : c.mode = .localRun)
    (hstatus : isTerminalTaskStatus (runStatusToTaskStatus c.status) = false)
    (h : handleCreate cfg c = some g) : RecoveryInv c ⟨[], g, .polling⟩ := by
  obtain ⟨store, hstore, rfl⟩ := Option.map_eq_some_iff.mp h
  obtain ⟨cur, hfresh, hcur⟩ := createDurable_fresh hstore
  have hgoing : cur.terminal = false := by
    have hname : taskTerminalStatuses.contains (runStatusToTaskStatus c.status).name = false := by
      cases hc : c.status <;> rw [hc] at hstatus <;> first | rfl | exact nomatch hstatus
    show taskTerminalStatuses.contains cur.status = false
    rw [hcur hmode]
    exact hname
  have hrows : contents store.tables = [eventContent (createdEvent c)] := by
    obtain ⟨row, hrow, -, htype, hts, hpayload⟩ := hfresh.stored
    have hlen : store.tables.events.length = 1 := by
      have hlen := EventsInv.length hfresh.events
      rw [hfresh.last] at hlen
      omega
    obtain ⟨only, honly⟩ := List.length_eq_one_iff.mp hlen
    rw [honly] at hrow
    obtain rfl := List.mem_singleton.mp hrow
    simp only [contents, honly, List.map_cons, List.map_nil, eventContent, htype, hts, hpayload]
  refine ⟨⟨nofun, nofun⟩, .inl ⟨cur, ⟨hfresh.events, hrows, hgoing, hfresh.recorded, hfresh.result,
    Nat.le_refl 0, nofun⟩, ?_⟩⟩
  exact ⟨hmode, rfl, by rw [hfresh.last]; rfl, rfl, rfl⟩

/-- **Where the task is** tells what it has. -/
theorem RecoveryInv.complete (h : RecoveryInv c s) : Complete c s := by
  obtain ⟨hp, hplaced⟩ := h
  have hended : s.finished → ∃ cur, Ended c s.log s.gateway.store cur := by
    intro hfin
    unfold Placed at hplaced
    unfold LocalTask.finished at hfin
    cases hphase : s.phase with
    | settled =>
      simp only [hphase] at hplaced
      exact hplaced
    | polling =>
      simp only [hphase] at hplaced
      rcases hplaced with ⟨cur, hf, ha⟩ | ⟨-, hended⟩
      · rcases hfin with hover | hsettled
        · exact nomatch ha.live.symm.trans hover
        · exact nomatch hphase.symm.trans hsettled
      · exact hended
    | reconciling attempt =>
      simp only [hphase] at hplaced
      obtain ⟨k, cur, hf, ha⟩ := hplaced
      rcases hfin with hover | hsettled
      · exact nomatch ha.live.symm.trans hover
      · exact nomatch hphase.symm.trans hsettled
  refine ⟨?_, ?_, ?_⟩
  · unfold Placed at hplaced
    split at hplaced
    · rcases hplaced with ⟨cur, hf, -⟩ | ⟨-, cur, hend⟩
      · exact hf.events.contiguous
      · exact hend.events.contiguous
    · obtain ⟨k, cur, hf, -⟩ := hplaced
      exact hf.events.contiguous
    · obtain ⟨cur, hend⟩ := hplaced
      exact hend.events.contiguous
  · intro hfin
    obtain ⟨cur, hend⟩ := hended hfin
    exact hend.rows
  · intro hfin
    obtain ⟨cur, hend⟩ := hended hfin
    obtain ⟨e, he, hterm⟩ := hend.last
    -- the terminal event is the last of the log
    rcases List.eq_nil_or_concat s.log with hnil | ⟨before, last, hlog⟩
    · rw [hnil] at he
      exact nomatch he
    rw [hlog, List.concat_eq_append] at he
    have hbefore : ∀ e ∈ before, isTerminal e = false := by
      have hlast := hp.last
      rw [hlog, List.concat_eq_append, List.dropLast_concat] at hlast
      exact hlast
    have hlast : isTerminal last = true := by
      rcases VibeControl.mem_snoc.mp he with hold | rfl
      · exact nomatch (hbefore e hold).symm.trans hterm
      · exact hterm
    obtain ⟨te, himage, hte⟩ := (image_terminal last 0).mp hlast
    refine ⟨imagesOf before, te, ?_, hte, ?_⟩
    · rw [hlog, List.concat_eq_append, imagesOf_append]
      simp only [imagesOf, List.filterMap_cons, List.filterMap_nil, himage]
    · intro ev hev
      obtain ⟨e', he', himage'⟩ := List.mem_filterMap.mp hev
      exact image_plain (hbefore e' he') himage'

/-- **A poll of an ended log** finishes the task. -/
theorem RecoveryInv.poll_finishes (h : RecoveryInv c s) (hphase : s.phase = .polling)
    (hlog : ∃ e ∈ s.log, isTerminal e = true) (hs : Settles cfg a) : (happen cfg s (.poll a)).finished := by
  obtain ⟨hp, hplaced⟩ := h
  unfold Placed at hplaced
  simp only [hphase] at hplaced
  simp only [happen, hphase]
  rcases hplaced with ⟨cur, hf, ha⟩ | ⟨hover, -⟩
  · rcases poll_placed hp hs hf ha with ⟨cur', hf', -⟩ | ⟨hterm, -⟩
    · obtain ⟨e, he, hend⟩ := hlog
      have hall := hf'.unended e (by rw [List.take_length]; exact he)
      exact nomatch hall.symm.trans hend
    · exact .inl hterm
  · refine .inl ?_
    have hkept : (drainLoop cfg s.gateway s.gateway.task.emittedRunEvents
        ((s.log.map fun e => (e, a)).drop s.gateway.task.emittedRunEvents)).1 = s.gateway := drainLoop_over hover _ _
    simp only [drain, hkept]
    exact hover

end

def localCreation : Creation := ⟨.localRun, "mock", "r", .queued, noon, false, false, false⟩

theorem local_created : (handleCreate sampleConfig localCreation).isSome = true := by decide +kernel

def localGateway : Gateway := (handleCreate sampleConfig localCreation).get local_created

theorem localGateway_eq : handleCreate sampleConfig localCreation = some localGateway := (Option.some_get _).symm

theorem calm_settles : Settles sampleConfig calm := by
  refine ⟨rfl, fun task ev hpending => ?_⟩
  have hmissing : resolveTerminalResult sampleConfig calm task ev = missing := by
    simp only [resolveTerminalResult, hpending]
    split <;> rfl
  rw [hmissing]
  exact missing_encodable

/-- The Gateway restarts while the run goes on. -/
def restartedMidway : List Happening :=
  [.emit logEvent, .crash calm 1, .reconcile calm (some .running), .emit endEvent, .poll calm]

theorem log_storable : ∀ te, runEventToTaskEvent logEvent 0 = some te → Storable te := by
  intro te hte
  have himage : runEventToTaskEvent logEvent 0 = some { logImage with seq := 0 } := by decide +kernel
  obtain rfl := Option.some.inj (hte.symm.trans himage)
  exact ⟨by decide +kernel, by decide +kernel⟩

theorem end_storable : ∀ te, runEventToTaskEvent endEvent 0 = some te → Storable te := by
  intro te hte
  have himage : runEventToTaskEvent endEvent 0 = some ⟨0, .completed, "2024-01-01T12:00:02Z", .obj []⟩ := by decide +kernel
  obtain rfl := Option.some.inj (hte.symm.trans himage)
  exact ⟨by decide +kernel, by decide +kernel⟩

/-- The Gateway restarts after the run has ended. -/
def restartedLate : List Happening :=
  [.emit logEvent, .emit endEvent, .crash calm 0, .reconcile calm (some .completed)]

/-- The Gateway dies between the two statements of the append of the line. -/
def tornMidway : List Happening :=
  [.emit logEvent, .tear calm 0, .reconcile calm (some .running), .emit endEvent, .poll calm]

end VibeGateway
