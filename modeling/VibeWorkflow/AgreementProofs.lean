import VibeWorkflow.GatewayProofs

/-!
# The Gateway's memory and its store

An event takes its number in memory before it is written, and a terminal event keeps its number while
the run's result is fetched.  A number that is taken and never written is a gap that no later event
can pass.

* `step_inv` — what one operation keeps, when the number it takes is written;
* **`memory_agrees`** — the next number, the published events and the end agree with the durable rows
  in every run whose operations write the numbers they take, one at a time.
-/

namespace VibeGateway

open VibeJson VibeStore VibeTask VibeRun VibeResult CallRuns
open VibeRunResult (emptyDigest)

/-! ## Runs of a task -/

inductive Action where
  | live (event : Json)
  | source (event : Json) (sourceSeq : JsNum)
  | poll (log : List (Json × Ambient))
  | observed (status : RunStatus)
  | fetched (i : Nat) (outcome : Option TaskResult)
  | woken (i : Nat)
  | converged (outcome : Option TaskResult)

section

variable (cfg : Config)

/-- One operation, up to where it waits.  Only a local task has a log to poll, and only a remote one a
    status that is reconciled. -/
def step (s : Gateway) : Ambient × Action → Gateway
  | (a, .live event) => (ingest cfg a s event).1
  | (a, .source event sourceSeq) => ingestSource cfg a s event sourceSeq
  | (_, .poll log) => if s.task.mode = .localRun then drain cfg s log else s
  | (a, .observed status) => if s.task.mode = .remote then reconcileRemoteRecord cfg a s status else s
  | (a, .fetched i outcome) => fetched cfg a s i outcome
  | (_, .woken i) => woken s i
  | (a, .converged outcome) => converged cfg a s outcome

/-- The event is durable under the number it was published with. -/
def Stored (db : TaskTables) (ev : TaskEvent) : Prop :=
  ∃ row ∈ db.events, (row.sequence : Int) = ev.seq ∧ row.eventType = ev.type.name ∧ row.ts = ev.ts ∧
    row.payloadJson = stringify ev.payload

/-- No operation is in progress. -/
def Gateway.quiet (s : Gateway) : Prop := s.fetches = [] ∧ s.converging = false

/-- Memory and store agree. -/
structure Agree (s : Gateway) : Prop where
  next : s.quiet → ∃ cur, s.store.tables.task = some cur ∧ s.task.nextSeq = cur.lastEventSequence + 1
  stored : ∀ ev ∈ s.task.published, Stored s.store.tables ev
  ended : ∀ ev ∈ s.task.published, ev.type.terminal = true →
    ∃ cur, s.store.tables.task = some cur ∧ cur.terminal = true

/-- A task that ends without its result being fetched. -/
def GatewayTask.immediate (task : GatewayTask) : Bool :=
  !cfg.remoteEnabled || task.mode ≠ .remote || task.unbound || task.resultCapable = some false

/-- The event that takes the next number can be written, and no other number is waiting. -/
structure Takes (a : Ambient) (s : Gateway) (te : TaskEvent) : Prop where
  alone : s.fetches = []
  storable : Storable te
  status : te.type.terminal = true → ∀ cur, s.store.tables.task = some cur → StatusFits cur te
  written : te.type.terminal = false ∨ s.task.immediate cfg = true → a.fault = false
  result : te.type.terminal = true → s.task.mode = .localRun → Encodable (resolveTerminalResult cfg a s.task te)

/-- An event of the log or the stream that has an image can be written. -/
def Ingests (s : Gateway) (p : Json × Ambient) : Prop :=
  s.task.terminal = false → ∀ te, runEventToTaskEvent p.1 s.task.nextSeq = some te → Takes cfg p.2 s te

def ingestStep (s : Gateway) (p : Json × Ambient) : Gateway := (ingest cfg p.2 s p.1).1

/-- The fetch that is answered. -/
def Gateway.awaited (s : Gateway) (i : Nat) : Option Fetch := s.fetches[i]?.filter (fun f => !f.sleeping)

/-- The answer lets the waiting event be written, or leaves another attempt. -/
def Answered (a : Ambient) (task : GatewayTask) (f : Fetch) : Option TaskResult → Prop
  | some r => a.fault = false ∧ Encodable r
  | none => f.attempt + 1 < remoteResultAttempts ∨ task.resultCapable = none ∧ a.fault = false

/-- Every number that the operation takes is written, and no other one is waiting. -/
def Sound (s : Gateway) : Ambient × Action → Prop
  | (a, .live event) => Ingests cfg s (event, a)
  | (_, .poll log) => s.task.mode = .localRun → Always (ingestStep cfg) (Ingests cfg) s
    (log.drop s.task.emittedRunEvents)
  | (_, .source event _) => s.task.terminal = false → runEventToTaskEvent event 0 ≠ none → s.fetches = []
  | (a, .observed status) => s.task.mode = .remote → s.task.terminal = false →
      isTerminalTaskStatus (runStatusToTaskStatus status) = true →
      Takes cfg a s (synthEvent a s (terminalType (runStatusToTaskStatus status)) (.obj [])).1
  | (a, .fetched i outcome) => ∀ f, s.awaited i = some f → Answered a s.task f outcome
  | (_, .woken _) => True
  | (_, .converged _) => True

end

/-! ## The invariant -/

/-- The durable rows, and what was published of them. -/
structure Core (db : TaskTables) (published : List TaskEvent) (cur : TaskRow) : Prop where
  events : EventsInv db cur
  stored : ∀ ev ∈ published, Stored db ev
  ended : ∀ ev ∈ published, ev.type.terminal = true → cur.terminal = true

/-- A task that goes on: the store is where its end expects it. -/
structure Open (store : TaskStore) (revision : Int) (cur : TaskRow) : Prop where
  revision : store.columns.revision = revision
  recorded : cur.terminalEventRecorded = false
  result : store.result = none

structure GatewayInv (s : Gateway) (cur : TaskRow) : Prop extends Core s.store.tables s.task.published cur where
  next : s.task.nextSeq = cur.lastEventSequence + 1 + s.fetches.length
  single : s.fetches.length ≤ 1
  reserved : ∀ f ∈ s.fetches, f.event.seq = cur.lastEventSequence + 1 ∧ f.event.type.terminal = true ∧
    Storable f.event ∧ StatusFits cur f.event
  going : s.task.terminal = false → Open s.store s.task.revision cur ∧ s.task.pendingResult = none
  closed : s.task.terminal = true → s.fetches = []
  after : s.converging = true → s.task.terminal = true

theorem GatewayInv.agree {s : Gateway} {cur : TaskRow} (h : GatewayInv s cur) : Agree s where
  next hquiet := ⟨cur, h.events.task, by simpa [hquiet.1] using h.next⟩
  stored := h.stored
  ended ev hev hterm := ⟨cur, h.events.task, h.ended ev hev hterm⟩

section

variable {cfg : Config} {a : Ambient} {s : Gateway} {cur : TaskRow} {ev : TaskEvent}

/-- What is durable stays so when rows are added. -/
theorem Stored.append {db : TaskTables} (h : Stored db ev) {db' : TaskTables} {row : TaskEventRow}
    (hdb : db'.events = db.events ++ [row]) : Stored db' ev := by
  obtain ⟨r, hr, hrow⟩ := h
  exact ⟨r, hdb ▸ List.mem_append_left _ hr, hrow⟩

theorem stored_appended {db : TaskTables} {old : List TaskEventRow} {n : Nat} (hn : (n : Int) = ev.seq)
    (hdb : db.events = old ++ [appendedRow n (toEventInput ev)]) : Stored db ev :=
  ⟨_, hdb ▸ List.mem_append_right _ (List.mem_singleton.mpr rfl), hn, rfl, rfl, rfl⟩

theorem EventsInv.length {db : TaskTables} (h : EventsInv db cur) :
    (db.events.length : Int) = cur.lastEventSequence + 1 := by
  rw [h.last]
  omega

theorem persist_ok {store store' : TaskStore} {c : StoreCall} (hfault : a.fault = false)
    (h : callStore cfg.taskId a.now store c = (.ok (), store')) : persist cfg a store c = (true, store') := by
  unfold persist
  rw [hfault, h]
  rfl

/-- The next number, where no other one is waiting. -/
theorem GatewayInv.next_alone (h : GatewayInv s cur) (halone : s.fetches = []) :
    s.task.nextSeq = cur.lastEventSequence + 1 := by
  have hnext := h.next
  rw [halone] at hnext
  exact hnext.trans (Int.add_zero _)

/-- What publishing leaves, when the store takes the event. -/
theorem persistThenPush_taken (h : EventsInv s.store.tables cur) (hseq : ev.seq = cur.lastEventSequence + 1)
    (hev : Storable ev) (hfault : a.fault = false) :
    persistThenPush cfg a s ev = pushEvent { s with store := { s.store with
      tables := extend s.store.tables cur (appendedRow s.store.tables.events.length (toEventInput ev)) } } ev := by
  have hcall : callStore cfg.taskId a.now s.store (.events (.append (toEventInput ev))) =
      (.ok (), { s.store with tables := extend s.store.tables cur (appendedRow s.store.tables.events.length (toEventInput ev)) }) := by
    simp only [callStore, callTask, appendTaskEventDurable, event_taken cfg h hseq hev]
    rfl
  unfold persistThenPush
  rw [persist_ok hfault hcall]

/-- What an end leaves, when the store takes it. -/
theorem finishWithTerminal_taken (h : EventsInv s.store.tables cur) (ho : Open s.store s.task.revision cur)
    (hopen : s.task.terminal = false) (hseq : ev.seq = cur.lastEventSequence + 1) (hterm : ev.type.terminal = true)
    (hev : Storable ev) (hfits : StatusFits cur ev) (hfault : a.fault = false)
    (hr : Encodable (resolveTerminalResult cfg a s.task ev)) :
    ∃ store', finishWithTerminal cfg a s ev none =
        finishTask (pushEvent { s with store := store', task := { s.task with revision := store'.columns.revision } } ev) ∧
      store'.tables = ⟨some (endedRow cur s.store.tables.events.length ev),
        s.store.tables.events ++ [appendedRow s.store.tables.events.length (toEventInput ev)]⟩ := by
  obtain ⟨store', hcall, htables⟩ :=
    terminalize_taken cfg a.now h ho.recorded ho.revision ho.result hr hfits hseq hev hterm
  refine ⟨store', ?_, htables⟩
  simp only [finishWithTerminal, hopen, Bool.false_eq_true, if_false, persist_ok hfault hcall, if_true]

/-- **An event that is written** and published. -/
theorem persistThenPush_inv (h : GatewayInv s cur) (halone : s.fetches = []) (hseq : ev.seq = s.task.nextSeq)
    (hev : Storable ev) (hplain : ev.type.terminal = false) (hfault : a.fault = false) :
    GatewayInv (persistThenPush cfg a s.reserve ev) { cur with lastEventSequence := s.store.tables.events.length } := by
  have hnext : ev.seq = cur.lastEventSequence + 1 := hseq.trans (h.next_alone halone)
  have hlen := EventsInv.length h.events
  have hinv : EventsInv s.reserve.store.tables cur := h.events
  rw [persistThenPush_taken hinv hnext hev hfault]
  refine ⟨⟨?_, ?_, ?_⟩, ?_, ?_, ?_, ?_, ?_, h.after⟩
  · exact h.events.extend hlen nofun
  · intro e he
    rcases VibeControl.mem_snoc.mp he with hold | rfl
    · exact (h.stored e hold).append rfl
    · exact stored_appended (hlen.trans hnext.symm) rfl
  · intro e he hterm
    rcases VibeControl.mem_snoc.mp he with hold | rfl
    · exact h.ended e hold hterm
    · exact nomatch hplain.symm.trans hterm
  · show s.task.nextSeq + 1 = (s.store.tables.events.length : Int) + 1 + s.fetches.length
    rw [h.next, hlen]
    omega
  · exact h.single
  · intro f hf
    have hnone : f ∈ s.fetches := hf
    rw [halone] at hnone
    exact nomatch hnone
  · intro hopen
    obtain ⟨ho, hpending⟩ := h.going hopen
    exact ⟨⟨ho.revision, ho.recorded, ho.result⟩, hpending⟩
  · exact fun _ => halone

/-- **An end that is written** and published: the event has the one number that was waiting. -/
theorem finishWithTerminal_inv (h : Core s.store.tables s.task.published cur) (ho : Open s.store s.task.revision cur)
    (hopen : s.task.terminal = false) (hseq : ev.seq = cur.lastEventSequence + 1)
    (hnext : s.task.nextSeq = cur.lastEventSequence + 2) (hnone : s.fetches = []) (hterm : ev.type.terminal = true)
    (hev : Storable ev) (hfits : StatusFits cur ev) (hfault : a.fault = false)
    (hr : Encodable (resolveTerminalResult cfg a s.task ev)) :
    GatewayInv (finishWithTerminal cfg a s ev none) (endedRow cur s.store.tables.events.length ev) := by
  have hlen := EventsInv.length h.events
  obtain ⟨store', hstep, htables⟩ := finishWithTerminal_taken h.events ho hopen hseq hterm hev hfits hfault hr
  have hrows : store'.tables.events = s.store.tables.events ++
      [appendedRow s.store.tables.events.length (toEventInput ev)] := by
    rw [htables]
  rw [hstep]
  refine ⟨⟨?_, ?_, ?_⟩, ?_, ?_, ?_, nofun, fun _ => hnone, fun _ => rfl⟩
  · show EventsInv store'.tables _
    rw [htables]
    exact h.events.of_push hlen nofun rfl
  · intro e he
    rcases VibeControl.mem_snoc.mp he with hold | rfl
    · exact (h.stored e hold).append hrows
    · exact stored_appended (hlen.trans hseq.symm) hrows
  · exact fun _ _ _ => List.contains_iff_mem.mpr (terminalStatus_mem hterm)
  · show s.task.nextSeq = (s.store.tables.events.length : Int) + 1 + s.fetches.length
    rw [hnext, hlen, hnone, List.length_nil]
    omega
  · show s.fetches.length ≤ 1
    rw [hnone]
    exact Nat.zero_le 1
  · intro f hf
    have hmem : f ∈ s.fetches := hf
    rw [hnone] at hmem
    exact nomatch hmem

/-- A remote task that waits for nothing ends with a result that can be stored. -/
theorem resolved_encodable (hpending : s.task.pendingResult = none)
    (hlocal : s.task.mode = .localRun → Encodable (resolveTerminalResult cfg a s.task ev)) :
    Encodable (resolveTerminalResult cfg a s.task ev) := by
  cases hmode : s.task.mode with
  | localRun => exact hlocal hmode
  | remote =>
    have hmissing : resolveTerminalResult cfg a s.task ev = missing := by
      simp only [resolveTerminalResult, hpending, hmode]
      exact if_neg (fun h => nomatch h.2)
    rw [hmissing]
    exact missing_encodable

theorem GatewayInv.reserved_next (h : GatewayInv s cur) (halone : s.fetches = []) :
    s.reserve.task.nextSeq = cur.lastEventSequence + 2 := by
  show s.task.nextSeq + 1 = _
  rw [h.next_alone halone]
  omega

/-- **A terminal event of a local task.** -/
theorem finishLocal_inv (h : GatewayInv s cur) (hopen : s.task.terminal = false) (ht : Takes cfg a s ev)
    (hseq : ev.seq = s.task.nextSeq) (hterm : ev.type.terminal = true) (hfault : a.fault = false) :
    ∃ cur', GatewayInv (finishWithTerminal cfg a s.reserve ev none) cur' :=
  ⟨_, finishWithTerminal_inv h.toCore (h.going hopen).1 hopen (hseq.trans (h.next_alone ht.alone))
    (h.reserved_next ht.alone) ht.alone hterm ht.storable (ht.status hterm cur h.events.task) hfault
    (resolved_encodable (h.going hopen).2 (ht.result hterm))⟩

/-- **A terminal event of a remote task** ends it at once, or waits for its result. -/
theorem finishRemote_inv (h : GatewayInv s cur) (hopen : s.task.terminal = false) (ht : Takes cfg a s ev)
    (hseq : ev.seq = s.task.nextSeq) (hterm : ev.type.terminal = true) :
    ∃ cur', GatewayInv (finishRemoteWithResult cfg a s.reserve ev) cur' := by
  have hgoes : s.reserve.task.terminal = false := hopen
  unfold finishRemoteWithResult
  rw [if_neg (Bool.eq_false_iff.mp hgoes)]
  split
  · -- no result is fetched for this task
    rename_i hnow
    refine finishLocal_inv h hopen ht hseq hterm (ht.written (.inr ?_))
    show (_ || _) = true
    rw [Bool.or_eq_true]
    exact .inl hnow
  split
  · -- its Node keeps no results
    rename_i hold
    have hfault : a.fault = false := by
      refine ht.written (.inr ?_)
      show (_ || _) = true
      rw [Bool.or_eq_true]
      exact .inr (decide_eq_true hold)
    exact ⟨_, finishWithTerminal_inv h.toCore (h.going hopen).1 hopen
      (hseq.trans (h.next_alone ht.alone)) (h.reserved_next ht.alone) ht.alone hterm ht.storable
      (ht.status hterm cur h.events.task) hfault missing_encodable⟩
  · have hone : s.reserve.fetches ++ [⟨ev, 0, false⟩] = [⟨ev, 0, false⟩] := by
      show s.fetches ++ _ = _
      rw [ht.alone]
      rfl
    rw [hone]
    refine ⟨cur, h.toCore, ?_, Nat.le_refl 1, ?_, fun _ => h.going hopen, ?_, h.after⟩
    · show s.reserve.task.nextSeq = cur.lastEventSequence + 1 + 1
      rw [h.reserved_next ht.alone]
      omega
    · intro f hf
      obtain rfl := List.mem_singleton.mp hf
      exact ⟨hseq.trans (h.next_alone ht.alone), hterm, ht.storable, ht.status hterm cur h.events.task⟩
    · exact fun hover => nomatch hopen.symm.trans hover

/-- **An event of the log or the stream.** -/
theorem ingest_keeps (h : GatewayInv s cur) {event : Json} (hp : Ingests cfg s (event, a)) :
    ∃ cur', GatewayInv (ingest cfg a s event).1 cur' := by
  unfold ingest
  cases hopen : s.task.terminal with
  | true => exact ⟨cur, h⟩
  | false =>
    simp only [Bool.false_eq_true, if_false]
    cases himage : runEventToTaskEvent event s.task.nextSeq with
    | none => exact ⟨cur, h⟩
    | some te =>
      have ht := hp hopen te himage
      have hseq : te.seq = s.task.nextSeq := image_seq himage
      simp only
      split
      · rename_i hterm
        split
        · exact finishRemote_inv h hopen ht hseq hterm
        · rename_i hmode
          refine finishLocal_inv h hopen ht hseq hterm (ht.written (.inr ?_))
          simp [GatewayTask.immediate, hmode]
      · rename_i hplain
        have hplain' := Bool.eq_false_iff.mpr hplain
        exact ⟨_, persistThenPush_inv h ht.alone hseq ht.storable hplain' (ht.written (.inl hplain'))⟩

/-- **A poll** of the log. -/
theorem drainLoop_inv {i : Nat} {log : List (Json × Ambient)} (h : GatewayInv s cur)
    (hlog : Always (ingestStep cfg) (Ingests cfg) s log) : ∃ cur', GatewayInv (drainLoop cfg s i log).1 cur' := by
  induction log generalizing s cur i with
  | nil => exact ⟨cur, h⟩
  | cons p rest ih =>
    obtain ⟨event, a⟩ := p
    obtain ⟨cur', h'⟩ := ingest_keeps h hlog.1
    rw [drainLoop]
    split
    · rename_i s' hs
      rw [hs] at h'
      exact ⟨cur', h'⟩
    · rename_i s' hs
      have htail : Always (ingestStep cfg) (Ingests cfg) s' rest := by
        have hnext : ingestStep cfg s (event, a) = s' := congrArg Prod.fst hs
        exact hnext ▸ hlog.2
      rw [hs] at h'
      exact ih h' htail

theorem drain_inv {log : List (Json × Ambient)} (h : GatewayInv s cur)
    (hlog : Always (ingestStep cfg) (Ingests cfg) s (log.drop s.task.emittedRunEvents)) :
    ∃ cur', GatewayInv (drain cfg s log) cur' := by
  obtain ⟨cur', h'⟩ := drainLoop_inv (i := s.task.emittedRunEvents) h hlog
  exact ⟨cur', h'.toCore, h'.next, h'.single, h'.reserved, h'.going, h'.closed, h'.after⟩

/-! ## Source events -/

/-- A call on events leaves the row's revision and its result. -/
theorem events_frame (taskId now : String) (store : TaskStore) (c : TaskCall) :
    (callStore taskId now store (.events c)).2.tables = (callTask taskId store.tables c).2 ∧
      (callStore taskId now store (.events c)).2.columns.revision = store.columns.revision ∧
      (callStore taskId now store (.events c)).2.result = store.result := by
  have hat (before : TaskTables) (columns : TaskColumns) :
      (ingestedAt now c before columns).revision = columns.revision := by
    unfold ingestedAt
    split
    · split <;> rfl
    · rfl
  simp only [callStore]
  split
  · rename_i e db hc
    exact ⟨by rw [hc], rfl, rfl⟩
  · rename_i r db hc
    refine ⟨by rw [hc], ?_, rfl⟩
    show (if r.applied then _ else _ : TaskColumns).revision = _
    split
    · exact hat _ _
    · rfl

/-- Another row at the same events. -/
theorem GatewayInv.restored (h : GatewayInv s cur) {store : TaskStore} {cur' : TaskRow}
    (he : EventsInv store.tables cur')
    (hevents : store.tables.events = s.store.tables.events) (hstatus : cur'.status = cur.status)
    (hrecorded : cur'.terminalEventRecorded = cur.terminalEventRecorded)
    (hrev : store.columns.revision = s.store.columns.revision) (hresult : store.result = s.store.result) :
    GatewayInv { s with store := store } cur' := by
  have hlast : cur'.lastEventSequence = cur.lastEventSequence := by
    rw [he.last, h.events.last, hevents]
  have hterm : cur'.terminal = cur.terminal := congrArg taskTerminalStatuses.contains hstatus
  refine ⟨⟨he, ?_, ?_⟩, ?_, h.single, ?_, ?_, h.closed, h.after⟩
  · intro ev hev
    obtain ⟨row, hrow, hsame⟩ := h.stored ev hev
    exact ⟨row, hevents.symm ▸ hrow, hsame⟩
  · intro ev hev hend
    exact hterm.trans (h.ended ev hev hend)
  · rw [hlast]
    exact h.next
  · intro f hf
    obtain ⟨hseq, hend, hstorable, hfits⟩ := h.reserved f hf
    refine ⟨hlast.symm ▸ hseq, hend, hstorable, fun ht => ?_⟩
    rw [hstatus]
    exact hfits (hterm.symm.trans ht)
  · intro hopen
    obtain ⟨ho, hpending⟩ := h.going hopen
    exact ⟨⟨hrev.trans ho.revision, hrecorded.trans ho.recorded, hresult.trans ho.result⟩, hpending⟩

theorem settle_plain {t : TaskRow} (h : ev.type.terminal = false) : settleStatus (toSourceEvent ev) t = t := by
  simp [settleStatus, toSourceEvent, h]

theorem settle_end {t : TaskRow} (h : ev.type.terminal = true) :
    (settleStatus (toSourceEvent ev) t).terminal = true := by
  have hmem := terminalStatus_mem h
  have hstatus : (settleStatus (toSourceEvent ev) t).status = ev.type.terminalStatusFor := by
    have hne : ev.type.terminalStatusFor ≠ "" := fun heq => by simp [heq] at hmem
    simp only [settleStatus, toSourceEvent, h, if_true, Option.getD_some, if_neg hne]
    split <;> rfl
  exact List.contains_iff_mem.mpr (hstatus ▸ hmem)

/-- **A source event that is applied**: it takes the next number in the store and then in memory. -/
theorem applied_inv (h : GatewayInv s cur) (hopen : s.task.terminal = false) (halone : s.fetches = [])
    {store : TaskStore}
    {n k : Nat} (hk : (k : Int) = cur.lastEventSequence + 1)
    (hfresh : ∀ r ∈ s.store.tables.events, r.sourceSequence ≠ some (JsNum.ofInt n))
    (htables : store.tables = updateTask (extend s.store.tables cur (imageRow k n (toSourceEvent ev)))
      fun t => settleStatus (toSourceEvent ev) { t with lastRemoteEventSequence := some (n : Int) })
    (hresult : store.result = s.store.result) :
    ∃ cur', GatewayInv
      (let pushed := pushEvent { s with
          store := store
          task := { s.task with revision := store.columns.revision, nextSeq := max s.task.nextSeq ((k : Int) + 1) } }
        { ev with seq := k }
       if ev.type.terminal then { finishTask pushed with converging := pushed.task.mode = .remote } else
         pushed) cur' := by
  have hnext := h.next_alone halone
  have hevents : store.tables.events = s.store.tables.events ++ [imageRow k n (toSourceEvent ev)] := by
    rw [htables]
    rfl
  let cur' := settleStatus (toSourceEvent ev) { cur with lastEventSequence := k, lastRemoteEventSequence := some (n : Int) }
  have hlast : cur'.lastEventSequence = k := (settleStatus_last _ _).1
  have he : EventsInv store.tables cur' := by
    rw [htables]
    exact h.events.of_push hk (fun m hm => by cases hm; exact hfresh) hlast
  have hmax : max s.task.nextSeq ((k : Int) + 1) = cur'.lastEventSequence + 1 := by
    rw [hnext, hlast, hk]
    omega
  have hstored : ∀ e ∈ s.task.published ++ [{ ev with seq := (k : Int) }], Stored store.tables e := by
    intro e hmem
    rcases VibeControl.mem_snoc.mp hmem with hold | rfl
    · exact (h.stored e hold).append hevents
    · exact ⟨_, hevents ▸ List.mem_append_right _ (List.mem_singleton.mpr rfl), rfl, rfl, rfl, rfl⟩
  refine ⟨cur', ?_⟩
  cases hterm : ev.type.terminal with
  | true =>
    refine ⟨⟨he, hstored, fun _ _ _ => settle_end hterm⟩, ?_, h.single, ?_, nofun, fun _ => halone, fun _ => rfl⟩
    · show max s.task.nextSeq ((k : Int) + 1) = cur'.lastEventSequence + 1 + s.fetches.length
      rw [hmax, halone, List.length_nil]
      omega
    · intro f hf
      have hmem : f ∈ s.fetches := hf
      rw [halone] at hmem
      exact nomatch hmem
  | false =>
    have hsame : cur' = { cur with lastEventSequence := k, lastRemoteEventSequence := some (n : Int) } := settle_plain hterm
    refine ⟨⟨he, hstored, ?_⟩, ?_, h.single, ?_, ?_,
      (fun hover => nomatch hopen.symm.trans hover), h.after⟩
    · intro e hmem hend
      rw [hsame]
      rcases VibeControl.mem_snoc.mp hmem with hold | rfl
      · exact h.ended e hold hend
      · exact nomatch hterm.symm.trans hend
    · show max s.task.nextSeq ((k : Int) + 1) = cur'.lastEventSequence + 1 + s.fetches.length
      rw [hmax, halone, List.length_nil]
      omega
    · intro f hf
      have hmem : f ∈ s.fetches := hf
      rw [halone] at hmem
      exact nomatch hmem
    · intro _
      obtain ⟨ho, hpending⟩ := h.going hopen
      exact ⟨⟨rfl, hsame ▸ ho.recorded, hresult.trans ho.result⟩, hpending⟩

/-- **An event of the Node's journal.** -/
theorem ingestSource_inv (h : GatewayInv s cur) {event : Json} {n : JsNum}
    (hp : s.task.terminal = false → runEventToTaskEvent event 0 ≠ none → s.fetches = []) :
    ∃ cur', GatewayInv (ingestSource cfg a s event n) cur' := by
  unfold ingestSource
  cases hopen : s.task.terminal with
  | true => exact ⟨cur, h⟩
  | false =>
    simp only [Bool.false_eq_true, if_false]
    cases himage : runEventToTaskEvent event 0 with
    | none =>
      simp only [persist]
      split
      · exact ⟨cur, h⟩
      · obtain ⟨htables, hrev, hresult⟩ := events_frame cfg.taskId a.now s.store (.advance n)
        rcases taskCall_cases cfg.taskId s.store.tables (.advance n) with ⟨e, hc⟩ | ⟨r, db, hc, hdone⟩
        · rw [hc] at htables
          exact ⟨cur, h.restored (htables ▸ h.events) (by rw [htables]) rfl rfl hrev hresult⟩
        · rw [hc] at htables
          cases hdone with
          | passed => exact ⟨cur, h.restored (htables ▸ h.events) (by rw [htables]) rfl rfl hrev hresult⟩
          | @advanced _ cur' ht hexp =>
            obtain rfl : cur' = cur := Option.some.inj (ht.symm.trans h.events.task)
            have he : EventsInv (callStore cfg.taskId a.now s.store (.events (.advance n))).2.tables
                { cur' with lastRemoteEventSequence := some (n.mantissa.toNat : Int) } := by
              rw [htables]
              exact h.events.update _ rfl
            exact ⟨_, h.restored he (by rw [htables]; rfl) rfl rfl hrev hresult⟩
    | some te =>
      simp only
      split
      · exact ⟨cur, h⟩
      · have halone := hp hopen (by rw [himage]; exact nofun)
        obtain ⟨htables, hrev, hresult⟩ := events_frame cfg.taskId a.now s.store (.ingest n (toSourceEvent te))
        rcases taskCall_cases cfg.taskId s.store.tables (.ingest n (toSourceEvent te)) with ⟨e, hc⟩ | ⟨r, db, hc, hdone⟩
        · rw [hc] at htables
          simp only [hc]
          exact ⟨cur, h.restored (htables ▸ h.events) (by rw [htables]) rfl rfl hrev hresult⟩
        · rw [hc] at htables
          simp only [hc]
          cases hdone with
          | repeated =>
            have h' := h.restored (htables ▸ h.events) (by rw [htables]) rfl rfl hrev hresult
            refine ⟨cur, h'.toCore, h'.next, h'.single, h'.reserved, fun hgo => ?_, h'.closed, h'.after⟩
            exact ⟨⟨rfl, (h'.going hgo).1.recorded, (h'.going hgo).1.result⟩, (h'.going hgo).2⟩
          | ingested ht hacc hk hexp hfresh =>
            obtain rfl := Option.some.inj (ht.symm.trans h.events.task)
            exact applied_inv h hopen halone hk hfresh htables hresult

/-! ## The other operations -/

/-- The one fetch there is. -/
theorem GatewayInv.only (h : GatewayInv s cur) {i : Nat} {f : Fetch} (hf : s.fetches[i]? = some f) :
    i = 0 ∧ s.fetches = [f] := by
  have hsingle := h.single
  obtain ⟨hi, hget⟩ := List.getElem?_eq_some_iff.mp hf
  obtain rfl : i = 0 := by omega
  refine ⟨rfl, ?_⟩
  cases hlist : s.fetches with
  | nil =>
    rw [hlist] at hi
    exact absurd hi (Nat.lt_irrefl 0)
  | cons g gs =>
    simp only [hlist, List.getElem_cons_zero] at hget
    rw [hlist, List.length_cons] at hsingle
    rw [hget, List.length_eq_zero_iff.mp (Nat.le_zero.mp (Nat.le_of_succ_le_succ hsingle))]

theorem GatewayInv.open_of_fetch (h : GatewayInv s cur) {f : Fetch} (hf : f ∈ s.fetches) : s.task.terminal = false := by
  cases hopen : s.task.terminal with
  | false => rfl
  | true =>
    rw [h.closed hopen] at hf
    exact nomatch hf

/-- **The end of a task whose result is known.** -/
theorem finishFetched_inv (h : GatewayInv s cur) {f : Fetch} (hf : s.fetches = [f]) {r : TaskResult}
    (hfault : a.fault = false)
    (hr : Encodable r) :
    ∃ cur', GatewayInv
      (finishWithTerminal cfg a { s with fetches := [], task := { s.task with pendingResult := some r } } f.event none) cur' := by
  have hmem : f ∈ s.fetches := hf ▸ List.mem_singleton.mpr rfl
  obtain ⟨hseq, hterm, hev, hfits⟩ := h.reserved f hmem
  have hopen := h.open_of_fetch hmem
  have hnext : s.task.nextSeq = cur.lastEventSequence + 2 := by
    rw [h.next, hf, List.length_singleton]
    omega
  exact ⟨_, finishWithTerminal_inv h.toCore (h.going hopen).1 hopen hseq hnext rfl hterm hev hfits hfault hr⟩

/-- A fetch that goes on keeps its event. -/
theorem GatewayInv.refetched (h : GatewayInv s cur) {f g : Fetch} (hf : s.fetches = [f]) (hg : g.event = f.event) :
    GatewayInv { s with fetches := [g] } cur := by
  have hmem : f ∈ s.fetches := hf ▸ List.mem_singleton.mpr rfl
  have hopen := h.open_of_fetch hmem
  refine ⟨h.toCore, ?_, Nat.le_refl 1, ?_, h.going, (fun hover => nomatch hopen.symm.trans hover), h.after⟩
  · have hnext := h.next
    rw [hf] at hnext
    exact hnext
  · intro e he
    obtain rfl := List.mem_singleton.mp he
    rw [hg]
    exact h.reserved f hmem

/-- **An answer** to the fetch. -/
theorem fetched_inv (h : GatewayInv s cur) {i : Nat} {outcome : Option TaskResult}
    (hp : ∀ f, s.awaited i = some f → Answered a s.task f outcome) :
    ∃ cur', GatewayInv (fetched cfg a s i outcome) cur' := by
  unfold fetched
  cases hwait : s.fetches[i]?.filter (fun f => !f.sleeping) with
  | none => exact ⟨cur, h⟩
  | some f =>
    have hsound := hp f hwait
    obtain ⟨rfl, hone⟩ := h.only (Option.filter_eq_some_iff.mp hwait).1
    have hopen := h.open_of_fetch (hone ▸ List.mem_singleton.mpr rfl : f ∈ s.fetches)
    have herase : s.fetches.eraseIdx 0 = [] := by rw [hone]; rfl
    simp only [herase]
    cases outcome with
    | some r => exact finishFetched_inv h hone hsound.1 hsound.2
    | none =>
      simp only
      split
      · -- it sleeps before the next attempt
        rw [hone]
        exact ⟨cur, h.refetched hone rfl⟩
      · rename_i hlast
        obtain ⟨hcapable, hfault⟩ := hsound.resolve_left hlast
        rw [if_pos ⟨hcapable, hopen⟩]
        exact finishFetched_inv h hone hfault missing_encodable

theorem woken_inv (h : GatewayInv s cur) (i : Nat) : GatewayInv (woken s i) cur := by
  unfold woken
  cases hwait : s.fetches[i]?.filter (fun f => f.sleeping) with
  | none => exact h
  | some f =>
    obtain ⟨rfl, hone⟩ := h.only (Option.filter_eq_some_iff.mp hwait).1
    have hopen := h.open_of_fetch (hone ▸ List.mem_singleton.mpr rfl : f ∈ s.fetches)
    simp only [hopen, Bool.false_eq_true, if_false]
    rw [hone]
    exact h.refetched hone rfl

theorem persistResult_tables (taskId now : String) (store : TaskStore) (r : TaskResult) :
    (callStore taskId now store (.persistResult r.1 r.2)).2.tables = store.tables := by
  have hwritten := (storeCall_cases taskId now store (.persistResult r.1 r.2)).1
  generalize (callStore taskId now store (.persistResult r.1 r.2)).2.tables = db at hwritten
  cases hwritten with
  | kept => rfl
  | ended hcall => exact nomatch hcall
  | endedWith _ hcall => exact nomatch hcall

theorem converged_inv (h : GatewayInv s cur) (outcome : Option TaskResult) :
    GatewayInv (converged cfg a s outcome) cur := by
  unfold converged
  cases hconv : s.converging with
  | false => exact h
  | true =>
    have hover := h.after hconv
    -- the task has ended, so nothing is said of its revision and result
    have hkeep (store : TaskStore) (htables : store.tables = s.store.tables) (pending : Option TaskResult) :
        GatewayInv { s with store := store, task := { s.task with pendingResult := pending }, converging := false } cur := by
      refine ⟨⟨htables ▸ h.events, htables ▸ h.stored, h.ended⟩, h.next, h.single, h.reserved,
        (fun hopen => nomatch hover.symm.trans hopen), h.closed, nofun⟩
    simp only [Bool.not_true, Bool.false_eq_true, if_false]
    split
    · exact hkeep s.store rfl s.task.pendingResult
    · refine hkeep _ ?_ _
      unfold persist
      split
      · rfl
      · exact persistResult_tables cfg.taskId a.now s.store _

/-- A status that was read first. -/
theorem reconcile_inv (h : GatewayInv s cur) {status : RunStatus}
    (hp : s.task.terminal = false → isTerminalTaskStatus (runStatusToTaskStatus status) = true →
      Takes cfg a s (synthEvent a s (terminalType (runStatusToTaskStatus status)) (.obj [])).1) :
    ∃ cur', GatewayInv (reconcileRemoteRecord cfg a s status) cur' := by
  unfold reconcileRemoteRecord
  cases hopen : s.task.terminal with
  | true => exact ⟨cur, h⟩
  | false =>
    cases hterm : isTerminalTaskStatus (runStatusToTaskStatus status) with
    | false => exact ⟨cur, h⟩
    | true =>
      have htype : (terminalType (runStatusToTaskStatus status)).terminal = true := by
        cases status <;> rfl
      exact finishRemote_inv h hopen (hp hopen hterm) rfl htype

/-- **One operation.** -/
theorem step_inv (h : GatewayInv s cur) {x : Ambient × Action} (hx : Sound cfg s x) :
    ∃ cur', GatewayInv (step cfg s x) cur' := by
  obtain ⟨a, action⟩ := x
  cases action with
  | live event => exact ingest_keeps h hx
  | source event n => exact ingestSource_inv h hx
  | poll log =>
    show ∃ cur', GatewayInv (if s.task.mode = .localRun then _ else _) cur'
    split
    · rename_i hmode
      exact drain_inv h (hx hmode)
    · exact ⟨cur, h⟩
  | observed status =>
    show ∃ cur', GatewayInv (if s.task.mode = .remote then _ else _) cur'
    split
    · rename_i hmode
      exact reconcile_inv h (hx hmode)
    · exact ⟨cur, h⟩
  | fetched i outcome => exact fetched_inv h hx
  | woken i => exact ⟨cur, woken_inv h i⟩
  | converged outcome => exact ⟨cur, converged_inv h outcome⟩

/-! ## Creation -/

/-- A row with its first event, not ended and without a result. -/
structure FreshRow (store : TaskStore) (ev : TaskEvent) (cur : TaskRow) : Prop where
  events : EventsInv store.tables cur
  last : cur.lastEventSequence = 0
  recorded : cur.terminalEventRecorded = false
  result : store.result = none
  stored : Stored store.tables ev
  expected : cur.expected = 0
  unsourced : ∀ r ∈ store.tables.events, r.sourceSequence = none

/-- The first write of a creation. -/
theorem inserted_fresh {now : String} {status : TaskStatus} {store : TaskStore} (hev : ev.seq = 0)
    (h : callStore cfg.taskId now (insertedRow status none) (.events (.append (toEventInput ev))) = (.ok (), store)) :
    ∃ cur, FreshRow store ev cur ∧ cur.status = status.name := by
  have hinv : EventsInv (insertedRow status none).tables ⟨status.name, false, none, none, -1, none⟩ :=
    ⟨rfl, rfl, rfl, fun _ hr => by cases hr⟩
  obtain ⟨htables, -, hresult⟩ := events_frame cfg.taskId now (insertedRow status none) (.append (toEventInput ev))
  rw [h] at htables hresult
  have hseq : (toEventInput ev).sequence.mantissa.toNat = 0 := by
    show (ev.seq).toNat = 0
    rw [hev]
    rfl
  rcases append_cases cfg.taskId (insertedRow status none).tables (toEventInput ev) with
    ⟨e, he⟩ | ⟨cur, ht, ⟨hle, -⟩ | ⟨hnext, hfresh, hdone⟩⟩
  · simp only [callStore, callTask, appendTaskEventDurable, he] at h
    cases h
  · cases ht
    have hlt : ¬ ((0 : Nat) : Int) ≤ -1 := by decide
    rw [hseq] at hle
    exact absurd hle hlt
  · cases ht
    simp only [callTask, appendTaskEventDurable, hdone] at htables
    rw [hseq] at htables
    refine ⟨_, ⟨htables ▸ hinv.extend rfl hfresh, rfl, rfl, hresult,
      ⟨appendedRow 0 (toEventInput ev), ?_, ?_, rfl, rfl, rfl⟩, rfl, ?_⟩, rfl⟩
    · rw [htables]
      exact List.mem_append_right _ (List.mem_singleton.mpr rfl)
    · rw [hev]
      rfl
    · intro r hr
      rw [htables] at hr
      obtain rfl := List.mem_singleton.mp hr
      rfl

/-- The second write of a creation, taken or not. -/
theorem bound_fresh {store : TaskStore} (h : FreshRow store ev cur) (revision : Int) (patch : TaskPatch) :
    ∃ cur', FreshRow (persist cfg a store (.update revision patch)).2 ev cur' := by
  unfold persist
  split
  · exact ⟨cur, h⟩
  simp only [callStore]
  cases hcall : updateTaskSync cfg.taskId revision patch store with
  | mk res store' =>
  cases res with
  | error e =>
    obtain rfl := update_clean cfg.taskId revision patch store e store' hcall
    exact ⟨cur, h⟩
  | ok _ =>
    obtain ⟨cur', errorCode, errorMessage, htask, -, htables, hresult⟩ := update_ok hcall
    obtain rfl : cur' = cur := Option.some.inj (htask.symm.trans h.events.task)
    obtain ⟨row, hrow, hsame⟩ := h.stored
    refine ⟨cur'.patched (patch.status.getD cur'.status) errorCode errorMessage, ?_, h.last, h.recorded,
      hresult.trans h.result, ⟨row, ?_, hsame⟩, h.expected, ?_⟩
    · rw [htables]
      exact h.events.of_row rfl
    · rw [htables]
      exact hrow
    · rw [htables]
      exact h.unsourced

theorem replay_fresh {store : TaskStore} (h : FreshRow store ev cur) :
    ∃ cur', FreshRow { store with tables := initReplayCursor store.tables } ev cur' := by
  refine ⟨_, h.events.update _ rfl, h.last, h.recorded, h.result, h.stored, ?_, h.unsourced⟩
  have hexpected := h.expected
  unfold TaskRow.expected at hexpected ⊢
  cases hcur : cur.lastRemoteEventSequence with
  | none => rfl
  | some n => rwa [hcur] at hexpected

theorem createDurable_fresh {c : Creation} {store : TaskStore} (h : createDurable cfg c = some store) :
    ∃ cur, FreshRow store (createdEvent c) cur ∧
      (c.mode = .localRun → cur.status = (runStatusToTaskStatus c.status).name) := by
  unfold createDurable at h
  split at h
  · exact nomatch h
  · rename_i store' hcall
    obtain ⟨cur, hfresh, hstatus⟩ := inserted_fresh rfl hcall
    obtain rfl := Option.some.inj h
    cases hmode : c.mode with
    | localRun =>
      refine ⟨cur, hfresh, fun _ => ?_⟩
      rw [hstatus, createdStatus, hmode]
    | remote =>
      obtain ⟨cur', hbound⟩ := bound_fresh hfresh 1 (bindPatch c)
      show ∃ cur, FreshRow (if c.replayCapable then _ else _) (createdEvent c) cur ∧ _
      split
      · obtain ⟨cur'', hreplay⟩ := replay_fresh hbound
        exact ⟨cur'', hreplay, nofun⟩
      · exact ⟨cur', hbound, nofun⟩

/-- **A task as registered.** -/
theorem created_inv {c : Creation} (h : handleCreate cfg c = some s) : ∃ cur, GatewayInv s cur := by
  obtain ⟨store, hstore, rfl⟩ := Option.map_eq_some_iff.mp h
  obtain ⟨cur, hfresh, -⟩ := createDurable_fresh hstore
  refine ⟨cur, ⟨hfresh.events, ?_, ?_⟩, ?_, Nat.zero_le 1, nofun, ?_, nofun, nofun⟩
  · intro ev hev
    obtain rfl := List.mem_singleton.mp hev
    exact hfresh.stored
  · intro ev hev hterm
    obtain rfl := List.mem_singleton.mp hev
    exact nomatch hterm
  · rw [hfresh.last]
    rfl
  · exact fun _ => ⟨⟨rfl, hfresh.recorded, hfresh.result⟩, rfl⟩

end

/-- **Memory and store agree.**  In every run of a created task whose operations write the numbers they
    take, one at a time: between operations the next number is the one after the last durable event,
    every published event is durable under its number, and a published end is a durable one. -/
theorem memory_agrees (cfg : Config) (c : Creation) {s : Gateway} (hs : handleCreate cfg c = some s)
    {actions : List (Ambient × Action)} (h : Always (step cfg) (Sound cfg) s actions) :
    Agree (run (step cfg) s actions) := by
  obtain ⟨cur, hinv⟩ := h.inv_run (fun s => ∃ cur, GatewayInv s cur)
    (fun _ _ hi hx => by obtain ⟨cur, hi⟩ := hi; exact step_inv hi hx) (created_inv hs)
  exact hinv.agree

/-! ## Runs of one task -/

def noon : IsoTime := ⟨"2024-01-01T12:00:00Z", by decide +kernel⟩

def calm : Ambient := ⟨false, noon, none⟩

def sampleConfig : Config := ⟨"t", true, fun _ => emptyDigest⟩

/-- A task on a Node that keeps results. -/
def sampleCreation : Creation := ⟨.remote, "codex", "r", .running, noon, false, true, false⟩

theorem sample_created : (handleCreate sampleConfig sampleCreation).isSome = true := by decide +kernel

def sampleTask : Gateway := (handleCreate sampleConfig sampleCreation).get sample_created

theorem sampleTask_eq : handleCreate sampleConfig sampleCreation = some sampleTask := (Option.some_get _).symm

def logEvent : Json := .obj [("type", .str "log"), ("ts", .str "2024-01-01T12:00:01Z"), ("message", .str "hi")]

def logImage : TaskEvent := ⟨1, .outputDelta, "2024-01-01T12:00:01Z", .obj [("text", .str "hi")]⟩

def endEvent : Json :=
  .obj [("type", .str "status"), ("ts", .str "2024-01-01T12:00:02Z"), ("status", .str "completed")]

def endImage : TaskEvent := ⟨2, .completed, "2024-01-01T12:00:02Z", .obj []⟩

/-- What the Node holds for it. -/
def emptyResult : AgentTaskResult :=
  ⟨"1", "", some (JsNum.ofInt 0), "2024-01-01T12:00:02Z", emptyDigest, some (.arr []), some (.arr []), none⟩

theorem emptyResult_encodable : Encodable ("available", some emptyResult) := by
  have hrow : (rowOf VibeTask.resultEncoding "available" (some emptyResult)).toOption.isSome = true := by decide +kernel
  unfold Encodable
  cases h : rowOf VibeTask.resultEncoding "available" (some emptyResult) with
  | ok row => exact ⟨row, rfl⟩
  | error e =>
    rw [h] at hrow
    exact Bool.noConfusion hrow

/-- A line of output, and an end whose result is fetched at the second attempt. -/
def fetchedActions : List (Ambient × Action) :=
  [(calm, .live logEvent), (calm, .live endEvent), (calm, .fetched 0 none), (calm, .woken 0),
    (calm, .fetched 0 (some ("available", some emptyResult)))]

/-- The stream and the store agree at the end. -/
theorem fetched_result_agrees :
    (run (step sampleConfig) sampleTask fetchedActions).task.published =
    [createdEvent sampleCreation, logImage, endImage] ∧
      (run (step sampleConfig) sampleTask fetchedActions).store.result.isSome = true ∧
      Agree (run (step sampleConfig) sampleTask fetchedActions) := by
  refine ⟨by decide +kernel, by decide +kernel,
    memory_agrees sampleConfig sampleCreation sampleTask_eq ⟨?_, ?_, ?_, trivial, ?_, trivial⟩⟩
  · intro _ te hte
    have himage : runEventToTaskEvent logEvent sampleTask.task.nextSeq = some logImage := by decide +kernel
    obtain rfl : te = logImage := Option.some.inj (hte.symm.trans himage)
    exact ⟨by decide +kernel, ⟨by decide +kernel, by decide +kernel⟩, nofun, fun _ => rfl, nofun⟩
  · intro _ te hte
    have himage : runEventToTaskEvent endEvent (run
      (step sampleConfig) sampleTask [(calm, .live logEvent)]).task.nextSeq =
        some endImage := by decide +kernel
    obtain rfl : te = endImage := Option.some.inj (hte.symm.trans himage)
    refine ⟨by decide +kernel, ⟨by decide +kernel, by decide +kernel⟩, fun _ cur hcur hover => ?_, fun _ => rfl, nofun⟩
    -- the row has not ended
    have hopen : (run (step sampleConfig) sampleTask [(calm, .live logEvent)]).store.tables.task.any
        TaskRow.terminal = false := by
      decide +kernel
    have hrow : (run (step sampleConfig) sampleTask [(calm, .live logEvent)]).store.tables.task = some cur := hcur
    rw [hrow, Option.any_some, hover] at hopen
    exact Bool.noConfusion hopen
  · intro f hf
    have hwaits : (run (step sampleConfig) sampleTask [(calm, .live logEvent), (calm, .live endEvent)]).awaited 0 =
        some ⟨endImage, 0, false⟩ := by decide +kernel
    obtain rfl := Option.some.inj (hf.symm.trans hwaits)
    exact .inl (by decide)
  · exact fun _ _ => ⟨rfl, emptyResult_encodable⟩

/-- The same task on a Node that replays its journal. -/
def replayCreation : Creation := { sampleCreation with replayCapable := true }

theorem replay_created : (handleCreate sampleConfig replayCreation).isSome = true := by decide +kernel

def replayTask : Gateway := (handleCreate sampleConfig replayCreation).get replay_created

theorem replayTask_eq : handleCreate sampleConfig replayCreation = some replayTask := (Option.some_get _).symm

/-- A GET sees the run's end, and three attempts to fetch its result fail. -/
def resultOutage : List (Ambient × Action) :=
  [(calm, .observed .completed), (calm, .fetched 0 none), (calm, .woken 0), (calm, .fetched 0 none), (calm, .woken 0),
    (calm, .fetched 0 none)]

/-- The number of the end is taken and never written. -/
theorem result_outage_skips_number :
    ¬ ∀ (cfg : Config) (c : Creation) (s : Gateway), handleCreate cfg c = some s →
      ∀ actions, Agree (run (step cfg) s actions) := by
  intro h
  obtain ⟨cur, hcur, hnext⟩ := (h sampleConfig sampleCreation sampleTask sampleTask_eq resultOutage).next
    ⟨by decide +kernel, by decide +kernel⟩
  have hlast : (run (step sampleConfig) sampleTask resultOutage).store.tables.task.map
      (·.lastEventSequence) = some 0 := by
    decide +kernel
  have hseq : (run (step sampleConfig) sampleTask resultOutage).task.nextSeq = 2 := by decide +kernel
  have hzero : cur.lastEventSequence = 0 := by
    rw [hcur] at hlast
    exact Option.some.inj hlast
  rw [hseq, hzero] at hnext
  exact absurd hnext (by decide)

end VibeGateway
