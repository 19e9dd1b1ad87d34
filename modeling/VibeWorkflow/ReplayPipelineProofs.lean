import VibeWorkflow.AgreementProofs

/-!
# From the journal to the task

The Node journals a run's events, and the Gateway's pump has them delivered in the order of their
sequences, from the durable cursor on.  The cursor passes an event when the store has taken its image,
or when it has none; at any other event it stays, and what follows is a gap.

* `journal_rows` — what is delivered are the journal's rows;
* **`replay_consumes`** — every delivered event is consumed, and an end reaches the task, exactly when
  the image of each has a time and a size that the store admits.
-/

namespace VibeReplay

open VibeJson VibeStore VibeTask VibeRun VibeGateway CallRuns
open VibeJournal (RunTables RunInv eventRow)

/-! ## The pipeline -/

/-- The journal of a run with the events it has taken, the task, and the next sequence that the pump
    is given. -/
structure Pipeline where
  journal : RunTables
  log : List Json
  gateway : Gateway
  position : Nat

inductive Move where
  | tail (now : IsoTime) (event : Json)
  | connect
  | deliver (now : IsoTime)
  | other (a : Ambient) (action : Action)

/-- The tail hands an event to the journal. -/
def tailed (s : Pipeline) (now : IsoTime) (event : Json) : Pipeline :=
  match VibeJournal.append s.journal (journalInput now event) with
  | (.error _, journal) => { s with journal := journal }
  | (.ok _, journal) => { s with journal := journal, log := s.log ++ [event] }

/-- The cursor that the pump starts from. -/
def cursor (db : TaskTables) : Int := (db.task.bind (·.lastRemoteEventSequence)).getD (-1)

section

variable (cfg : Config)

/-- The next event of the subscription. -/
def delivered (s : Pipeline) (now : IsoTime) : Pipeline :=
  match s.log[s.position]? with
  | none => s
  | some event =>
    { s with
      gateway := ingestSource cfg ⟨false, now, none⟩ s.gateway event (JsNum.ofInt s.position)
      position := s.position + 1 }

/-- The replay pump is the one source of such a task; a GET, a cancel and the fetch of a result go on
    beside it. -/
def otherStep (g : Gateway) (a : Ambient) : Action → Gateway
  | .live _ => g
  | .source _ _ => g
  | .poll _ => g
  | action => step cfg g (a, action)

def move (s : Pipeline) : Move → Pipeline
  | .tail now event => tailed s now event
  | .connect =>
    if s.gateway.task.terminal then s else { s with position := (cursor s.gateway.store.tables + 1).toNat }
  | .deliver now => delivered cfg s now
  | .other a action => { s with gateway := otherStep cfg s.gateway a action }

/-- The store has room for the event's image, where it has one. -/
def Carried (event : Json) : Prop := ∀ te, runEventToTaskEvent event 0 = some te → Storable te

/-- The rows that an event adds to the task. -/
def imageRows (n position : Nat) (event : Json) : List TaskEventRow :=
  ((runEventToTaskEvent event 0).map fun te => imageRow n position (toSourceEvent te)).toList

/-- The event is consumed: the cursor is at it, its image is there, and an end has ended the task. -/
structure Consumed (s s' : Pipeline) (event : Json) : Prop where
  passed : cursor s'.gateway.store.tables = s.position
  rows : s'.gateway.store.tables.events =
    s.gateway.store.tables.events ++ imageRows s.gateway.store.tables.events.length s.position event
  ended : isTerminal event = true →
    s'.gateway.task.terminal = true ∧ ∃ cur, s'.gateway.store.tables.task = some cur ∧ cur.terminal = true

/-- The event that a move delivers to a task that goes on. -/
def Pipeline.next (s : Pipeline) : Move → Option Json
  | .deliver _ => if s.gateway.task.terminal then none else s.log[s.position]?
  | _ => none

end

def Pipeline.initial (g : Gateway) : Pipeline := ⟨RunTables.empty, [], g, 0⟩

/-! ## The invariant -/

/-- While the task goes on, the pump is given what the cursor expects, and no end has been given. -/
structure InStep (s : Pipeline) (cur : TaskRow) : Prop where
  events : EventsInv s.gateway.store.tables cur
  expected : cur.expected = s.position
  sources : ∀ r ∈ s.gateway.store.tables.events, ∀ n : Nat, r.sourceSequence = some (JsNum.ofInt n) → n < s.position
  unended : ∀ event ∈ s.log.take s.position, isTerminal event = false

/-- The journal's rows are those of the events it has taken. -/
structure Aligned (s : Pipeline) : Prop where
  inv : ∃ recorded, RunInv ⟨s.journal, recorded⟩
  rows : s.journal.events.map (·.payloadJson) = s.log.map stringify
  reached : s.position ≤ s.log.length

def PipelineInv (s : Pipeline) : Prop :=
  Aligned s ∧ (s.gateway.task.terminal = false → ∃ cur, InStep s cur)

section

variable {cfg : Config} {s : Pipeline} {cur : TaskRow} {event : Json} {te : TaskEvent} {now : IsoTime}

theorem isSequence_ofInt (n : Nat) : isSequence (JsNum.ofInt n) = true :=
  Bool.and_eq_true_iff.mpr ⟨rfl, decide_eq_true (Int.natCast_nonneg n)⟩

/-- A source event without an image moves the cursor. -/
theorem advance_taken {db : TaskTables} {n : Nat} (taskId : String) (htask : db.task = some cur)
    (hexp : cur.expected = n) :
    advanceSourceCursor taskId db (JsNum.ofInt n) =
      (.ok ⟨false, none⟩, updateTask db fun t => { t with lastRemoteEventSequence := some (n : Int) }) := by
  have hbelow : ¬ (n : Int) < cur.expected := by omega
  have habove : ¬ (n : Int) > cur.expected := by omega
  have hbody : advanceBody taskId n db =
      (.ok ⟨false, none⟩, updateTask db fun t => { t with lastRemoteEventSequence := some (n : Int) }) := by
    simp only [advanceBody, htask, if_neg hbelow, if_neg habove]
  have hnat : (JsNum.ofInt n).mantissa.toNat = n := Int.toNat_natCast n
  simp only [advanceSourceCursor, isSequence_ofInt, Transaction.transaction, hnat, hbody]
  rfl

/-- What `ingestSource` leaves of the durable rows. -/
theorem ingestSource_tables (cfg : Config) (now : IsoTime) {g : Gateway} (n : JsNum) (hopen : g.task.terminal = false)
    (himage : runEventToTaskEvent event 0 = some te) :
    (ingestSource cfg ⟨false, now, none⟩ g event n).store.tables =
      (callTask cfg.taskId g.store.tables (.ingest n (toSourceEvent te))).2 := by
  have hframe := (events_frame cfg.taskId now g.store (.ingest n (toSourceEvent te))).1
  simp only [ingestSource, hopen, himage, Bool.false_eq_true, if_false]
  split
  · exact hframe
  · split
    · split <;> exact hframe
    · exact hframe

/-- A source event that is applied ends the task exactly when it is terminal. -/
theorem ingestSource_terminal (now : IsoTime) {g : Gateway} {n : JsNum} {k : Nat} {db : TaskTables}
    (hopen : g.task.terminal = false)
    (himage : runEventToTaskEvent event 0 = some te)
    (hcall : callTask cfg.taskId g.store.tables (.ingest n (toSourceEvent te)) = (.ok ⟨true, some k⟩, db)) :
    (ingestSource cfg ⟨false, now, none⟩ g event n).task.terminal = te.type.terminal := by
  simp only [ingestSource, hopen, himage, hcall, Bool.false_eq_true, if_false]
  split
  · rename_i hterm
    exact hterm.symm
  · rename_i hplain
    exact (Bool.eq_false_iff.mpr hplain).symm

/-- A source event without an image leaves all but the store. -/
theorem ingestSource_advance (cfg : Config) (now : IsoTime) {g : Gateway} (n : JsNum) (hopen : g.task.terminal = false)
    (himage : runEventToTaskEvent event 0 = none) :
    (ingestSource cfg ⟨false, now, none⟩ g event n).task = g.task ∧
      (ingestSource cfg ⟨false, now, none⟩ g event n).store.tables =
        (advanceSourceCursor cfg.taskId g.store.tables n).2 := by
  have hframe := (events_frame cfg.taskId now g.store (.advance n)).1
  simp only [ingestSource, hopen, himage, Bool.false_eq_true, if_false]
  exact ⟨trivial, hframe⟩

theorem cursor_of {db : TaskTables} {t : TaskRow} {n : Nat} (htask : db.task = some t)
    (hremote : t.lastRemoteEventSequence = some (n : Int)) : cursor db = n := by
  simp only [cursor, htask, Option.bind_some, hremote, Option.getD_some]

theorem expected_of {t : TaskRow} {n : Nat} (hremote : t.lastRemoteEventSequence = some (n : Int)) :
    t.expected = ((n + 1 : Nat) : Int) := by
  simp only [TaskRow.expected, hremote, Option.getD_some]
  rfl

theorem ofInt_inj {m n : Nat} (h : JsNum.ofInt m = JsNum.ofInt n) : m = n :=
  Int.ofNat.inj (congrArg JsNum.mantissa h)

/-- One more event has been given, and it is not an end. -/
theorem unended_succ (h : ∀ e ∈ s.log.take s.position, isTerminal e = false) (hget : s.log[s.position]? = some event)
    (hplain : isTerminal event = false) : ∀ e ∈ s.log.take (s.position + 1), isTerminal e = false := by
  intro e he
  rw [List.take_add_one, hget] at he
  rcases List.mem_append.mp he with he | he
  · exact h e he
  · rw [List.mem_singleton.mp he]
    exact hplain

/-- **A delivered event that the store has room for.** -/
theorem delivered_carried (h : InStep s cur) (hopen : s.gateway.task.terminal = false)
    (hget : s.log[s.position]? = some event) (hc : Carried event) :
    Consumed s (delivered cfg s now) event ∧
      ((delivered cfg s now).gateway.task.terminal = false → ∃ cur', InStep (delivered cfg s now) cur') := by
  have hstep : delivered cfg s now = { s with
      gateway := ingestSource cfg ⟨false, now, none⟩ s.gateway event (JsNum.ofInt s.position)
      position := s.position + 1 } := by
    simp only [delivered, hget]
  have himg := image_terminal event 0
  rw [hstep]
  cases himage : runEventToTaskEvent event 0 with
  | none =>
    obtain ⟨htask, htables⟩ := ingestSource_advance cfg now (JsNum.ofInt s.position) hopen himage
    rw [advance_taken cfg.taskId h.events.task h.expected] at htables
    have hplain : isTerminal event = false := by
      rw [Bool.eq_false_iff]
      intro hterm
      obtain ⟨te, hte, -⟩ := himg.mp hterm
      exact nomatch himage.symm.trans hte
    have he := h.events.update (fun t => { t with lastRemoteEventSequence := some (s.position : Int) }) rfl
    refine ⟨⟨?_, ?_, fun hterm => nomatch hplain.symm.trans hterm⟩, 
      fun _ => ⟨{ cur with lastRemoteEventSequence := some (s.position : Int) }, ?_, expected_of rfl, ?_, ?_⟩⟩
    · rw [htables]
      exact cursor_of he.task rfl
    · rw [htables, imageRows, himage]
      exact (List.append_nil _).symm
    · rw [htables]
      exact he
    · intro r hr n hn
      rw [htables] at hr
      exact Nat.lt_succ_of_lt (h.sources r hr n hn)
    · exact unended_succ h.unended hget hplain
  | some te =>
    have hev := hc te himage
    have hnat : (JsNum.ofInt s.position).mantissa.toNat = s.position := Int.toNat_natCast s.position
    have hfresh : ∀ r ∈ s.gateway.store.tables.events,
        r.sourceSequence ≠ some (JsNum.ofInt (JsNum.ofInt s.position).mantissa.toNat) := by
      intro r hr heq
      rw [hnat] at heq
      exact absurd (h.sources r hr s.position heq) (Nat.lt_irrefl _)
    have hing : Ingestible s.gateway.store.tables cur (JsNum.ofInt s.position) (toSourceEvent te) :=
      ⟨h.events.task, isSequence_ofInt s.position, ⟨name_valid te.type, hev.ts, hev.fits⟩,
        by rw [hnat]; exact h.expected.symm, hfresh⟩
    have htaken := ingest_taken cfg.taskId h.events hing
    rw [hnat] at htaken
    have htables := ingestSource_tables cfg now (JsNum.ofInt s.position) hopen himage
    have hterm := ingestSource_terminal now hopen himage htaken
    have hinv := ingest_inv h.events hing
    rw [hnat] at hinv
    simp only [callTask, htaken] at htables
    have hremote : (cur.ingested s.gateway.store.tables.events.length s.position
      (toSourceEvent te)).lastRemoteEventSequence =
        some (s.position : Int) := (settleStatus_last _ _).2
    refine ⟨⟨?_, ?_, ?_⟩, fun hgo => ⟨_, ?_, expected_of hremote, ?_, ?_⟩⟩
    · rw [htables]
      exact cursor_of rfl hremote
    · rw [htables, imageRows, himage]
      rfl
    · intro hend
      obtain ⟨te', hte', hend'⟩ := himg.mp hend
      obtain rfl : te' = te := Option.some.inj (hte'.symm.trans himage)
      refine ⟨hterm.trans hend', cur.ingested s.gateway.store.tables.events.length s.position (toSourceEvent te'), ?_,
        settle_end hend'⟩
      rw [htables]
    · rw [htables]
      exact hinv
    · intro r hr n hn
      rw [htables] at hr
      rcases VibeControl.mem_snoc.mp hr with hold | rfl
      · exact Nat.lt_succ_of_lt (h.sources r hold n hn)
      · exact Nat.lt_succ_of_le (Nat.le_of_eq (ofInt_inj (Option.some.inj hn)).symm)
    · refine unended_succ h.unended hget ?_
      rw [Bool.eq_false_iff]
      intro hend
      obtain ⟨te', hte', hend'⟩ := himg.mp hend
      obtain rfl : te' = te := Option.some.inj (hte'.symm.trans himage)
      exact nomatch (hterm.symm.trans hgo).symm.trans hend'

/-- **A delivered event that is consumed** had a place in the store. -/
theorem carried_of_consumed (h : InStep s cur) (hopen : s.gateway.task.terminal = false)
    (hget : s.log[s.position]? = some event) (hc : Consumed s (delivered cfg s now) event) : Carried event := by
  intro te himage
  have hpassed := hc.passed
  simp only [delivered, hget] at hpassed
  rw [ingestSource_tables cfg now (JsNum.ofInt s.position) hopen himage] at hpassed
  -- a call that leaves the rows leaves the cursor before the event
  have hstuck : cursor s.gateway.store.tables ≠ s.position := by
    intro heq
    have hexp := h.expected
    unfold TaskRow.expected at hexp
    simp only [cursor, h.events.task, Option.bind_some] at heq
    omega
  rcases taskCall_cases cfg.taskId s.gateway.store.tables (.ingest (JsNum.ofInt s.position) (toSourceEvent te)) with
    ⟨e, hcall⟩ | ⟨r, db, hcall, hdone⟩
  · rw [hcall] at hpassed
    exact absurd hpassed hstuck
  · rw [hcall] at hpassed
    cases hdone with
    | repeated => exact absurd hpassed hstuck
    | ingested _ hacc => exact ⟨hacc.ts, hacc.fits⟩

/-! ## The other moves -/

theorem finishWithTerminal_ends (cfg : Config) (a : Ambient) (g : Gateway) (ev : TaskEvent)
    (err : Option (String × String)) :
    (finishWithTerminal cfg a g ev err).task.terminal = true := by
  unfold finishWithTerminal
  split
  · assumption
  · rfl

/-- A task that goes on after the end was asked for has its rows as they were. -/
theorem finishRemote_kept (cfg : Config) (a : Ambient) (g : Gateway) (ev : TaskEvent)
    (h : (finishRemoteWithResult cfg a g ev).task.terminal = false) :
    (finishRemoteWithResult cfg a g ev).store = g.store ∧ g.task.terminal = false := by
  unfold finishRemoteWithResult at h ⊢
  split at h
  · rename_i hover
    exact nomatch hover.symm.trans h
  rename_i hopen
  split at h
  · exact nomatch (finishWithTerminal_ends cfg a _ ev none).symm.trans h
  split at h
  · exact nomatch (finishWithTerminal_ends cfg a _ ev none).symm.trans h
  · rename_i hnow hold
    rw [if_neg hopen, if_neg hnow, if_neg hold]
    exact ⟨rfl, h⟩

/-- **Whatever else the Gateway does**, a task that goes on has its rows as they were. -/
theorem otherStep_kept (cfg : Config) (g : Gateway) (a : Ambient) (action : Action)
    (h : (otherStep cfg g a action).task.terminal = false) :
    (otherStep cfg g a action).store.tables = g.store.tables ∧ g.task.terminal = false := by
  cases action with
  | live => exact ⟨rfl, h⟩
  | source => exact ⟨rfl, h⟩
  | poll => exact ⟨rfl, h⟩
  | observed status =>
    simp only [otherStep, step] at h ⊢
    split at h
    · rename_i hmode
      rw [if_pos hmode]
      unfold reconcileRemoteRecord at h ⊢
      split at h
      · rename_i hover
        exact nomatch hover.symm.trans h
      rename_i hopen
      split at h
      · rename_i hstatus
        rw [if_neg hopen, if_pos hstatus]
        exact ⟨rfl, h⟩
      · rename_i hstatus
        rw [if_neg hopen, if_neg hstatus]
        obtain ⟨hstore, hgo⟩ := finishRemote_kept cfg a _ _ h
        exact ⟨congrArg TaskStore.tables hstore, hgo⟩
    · rename_i hmode
      rw [if_neg hmode]
      exact ⟨rfl, h⟩
  | fetched i outcome =>
    simp only [otherStep, step] at h ⊢
    unfold fetched at h ⊢
    split
    · rename_i hnone
      rw [hnone] at h
      exact ⟨rfl, h⟩
    · rename_i f hf
      rw [hf] at h
      cases outcome with
      | some r => exact nomatch (finishWithTerminal_ends cfg a _ f.event none).symm.trans h
      | none =>
        simp only at h ⊢
        split at h
        · rename_i hmore
          rw [if_pos hmore]
          exact ⟨rfl, h⟩
        rename_i hlast
        rw [if_neg hlast]
        split at h
        · exact nomatch (finishWithTerminal_ends cfg a _ f.event none).symm.trans h
        · rename_i hcapable
          rw [if_neg hcapable]
          exact ⟨rfl, h⟩
  | woken i =>
    simp only [otherStep, step] at h ⊢
    unfold woken at h ⊢
    split
    · rename_i hnone
      rw [hnone] at h
      exact ⟨rfl, h⟩
    · rename_i f hf
      rw [hf] at h
      simp only at h ⊢
      split
      · rename_i hover
        rw [if_pos hover] at h
        exact ⟨rfl, h⟩
      · rename_i hopen
        rw [if_neg hopen] at h
        exact ⟨rfl, h⟩
  | converged outcome =>
    simp only [otherStep, step] at h ⊢
    unfold converged at h ⊢
    split
    · rename_i hidle
      rw [if_pos hidle] at h
      exact ⟨rfl, h⟩
    · rename_i hbusy
      rw [if_neg hbusy] at h
      simp only at h ⊢
      split
      · rename_i hnone
        simp only [hnone] at h
        exact ⟨rfl, h⟩
      · rename_i r hr
        simp only [hr] at h
        refine ⟨?_, h⟩
        show (persist cfg a g.store (.persistResult r.1 r.2)).2.tables = _
        unfold persist
        split
        · rfl
        · exact persistResult_tables cfg.taskId a.now g.store r

/-- The text of a payload that the journal takes. -/
theorem validate_text {event : Json} {text : String} (h : VibeJournal.validate (journalInput now event) = .ok text) :
    text = stringify event := by
  unfold VibeJournal.validate at h
  split at h
  · exact nomatch h
  split at h
  · exact nomatch h
  · unfold VibeJournal.encodeJson at h
    split at h
    · exact nomatch h
    · exact (Except.ok.inj h).symm

/-- **One more event** at the journal. -/
theorem tailed_aligned (h : Aligned s) (now : IsoTime) (event : Json) : Aligned (tailed s now event) := by
  obtain ⟨recorded, hinv⟩ := h.inv
  have hnext : ∃ recorded, RunInv ⟨(VibeJournal.append s.journal (journalInput now event)).2, recorded⟩ :=
    hinv.after_append _
  unfold tailed
  rcases VibeJournal.append_cases s.journal (journalInput now event) with ⟨e, happend⟩ | ⟨run, text, hok, happend⟩
  · rw [happend] at hnext ⊢
    refine ⟨hnext, ?_, h.reached⟩
    rw [VibeJournal.ensureRun_events]
    exact h.rows
  · rw [happend] at hnext ⊢
    refine ⟨hnext, ?_, ?_⟩
    · simp only [VibeJournal.RunRow.extended, List.map_append, h.rows, List.map_cons, List.map_nil, eventRow,
        validate_text hok.valid]
    · rw [List.length_append]
      exact h.reached.trans (Nat.le_add_right _ _)

theorem tailed_log (s : Pipeline) (now : IsoTime) (event : Json) :
    (tailed s now event).gateway = s.gateway ∧ (tailed s now event).position = s.position ∧
      ∃ more, (tailed s now event).log = s.log ++ more := by
  unfold tailed
  split
  · exact ⟨rfl, rfl, [], (List.append_nil _).symm⟩
  · exact ⟨rfl, rfl, [event], rfl⟩

/-- **One move** in which every delivered event has a place in the store. -/
theorem move_inv (h : PipelineInv s) {m : Move} (hm : ∀ event, s.next m = some event → Carried event) :
    PipelineInv (move cfg s m) := by
  obtain ⟨halign, hstep⟩ := h
  cases m with
  | tail now event =>
    obtain ⟨hgateway, hposition, more, hlog⟩ := tailed_log s now event
    refine ⟨tailed_aligned halign now event, fun hopen => ?_⟩
    obtain ⟨cur, hin⟩ := hstep (hgateway ▸ hopen)
    refine ⟨cur, hgateway.symm ▸ hin.events, hposition.symm ▸ hin.expected, ?_, ?_⟩
    · intro r hr
      show ∀ n : Nat, _ → n < (tailed s now event).position
      rw [hposition]
      exact hin.sources r (hgateway ▸ hr)
    · show ∀ e ∈ (tailed s now event).log.take (tailed s now event).position, _
      rw [hlog, hposition, List.take_append_of_le_length halign.reached]
      exact hin.unended
  | connect =>
    simp only [move]
    split
    · exact ⟨halign, hstep⟩
    · rename_i hopen
      obtain ⟨cur, hin⟩ := hstep (Bool.eq_false_iff.mpr hopen)
      have hcursor : (cursor s.gateway.store.tables + 1).toNat = s.position := by
        have hexp := hin.expected
        simp only [cursor, hin.events.task, Option.bind_some]
        unfold TaskRow.expected at hexp
        rw [hexp]
        exact Int.toNat_natCast _
      rw [hcursor]
      exact ⟨halign, hstep⟩
  | deliver now =>
    simp only [move]
    cases hget : s.log[s.position]? with
    | none =>
      have hkept : delivered cfg s now = s := by simp only [delivered, hget]
      rw [hkept]
      exact ⟨halign, hstep⟩
    | some event =>
      have hreached : s.position + 1 ≤ s.log.length := (List.getElem?_eq_some_iff.mp hget).1
      have halign' : Aligned (delivered cfg s now) := by
        simp only [delivered, hget]
        exact ⟨halign.inv, halign.rows, hreached⟩
      refine ⟨halign', ?_⟩
      cases hopen : s.gateway.task.terminal with
      | false =>
        obtain ⟨cur, hin⟩ := hstep hopen
        have hnext : s.next (.deliver now) = some event := by simp only [Pipeline.next, hopen, hget]; rfl
        exact (delivered_carried hin hopen hget (hm event hnext)).2
      | true =>
        intro hgo
        have hover : (delivered cfg s now).gateway = s.gateway := by
          simp only [delivered, hget, ingestSource, hopen, if_true]
        rw [hover] at hgo
        exact nomatch hopen.symm.trans hgo
  | other a action =>
    refine ⟨⟨halign.inv, halign.rows, halign.reached⟩, fun hopen => ?_⟩
    obtain ⟨htables, hgo⟩ := otherStep_kept cfg s.gateway a action hopen
    obtain ⟨cur, hin⟩ := hstep hgo
    exact ⟨cur, htables.symm ▸ hin.events, hin.expected, fun r hr => hin.sources r (htables ▸ hr), hin.unended⟩

theorem next_some {m : Move} (h : s.next m = some event) :
    ∃ now, m = .deliver now ∧ s.gateway.task.terminal = false ∧ s.log[s.position]? = some event := by
  cases m with
  | tail => exact nomatch h
  | connect => exact nomatch h
  | other => exact nomatch h
  | deliver now =>
    simp only [Pipeline.next] at h
    split at h
    · exact nomatch h
    · rename_i hopen
      exact ⟨now, rfl, Bool.eq_false_iff.mpr hopen, h⟩

theorem initial_inv {c : Creation} {g : Gateway} (h : handleCreate cfg c = some g) :
    PipelineInv (Pipeline.initial g) := by
  refine ⟨⟨⟨[], RunInv.initial⟩, rfl, Nat.le_refl 0⟩, fun _ => ?_⟩
  obtain ⟨store, hstore, rfl⟩ := Option.map_eq_some_iff.mp h
  obtain ⟨cur, hfresh, -⟩ := createDurable_fresh hstore
  refine ⟨cur, hfresh.events, hfresh.expected, ?_, nofun⟩
  intro r hr n hn
  exact nomatch (hfresh.unsourced r hr).symm.trans hn

end

/-- **No poison event.**  In every run of the Node's tail, the pump and the Gateway's other operations:
    the image of every event that is delivered has a time and a size the store admits, exactly when
    every delivered event is consumed and an end ends the task.  The pump then stands right after the
    cursor for as long as the task goes on, and has been given no end. -/
theorem replay_consumes (cfg : Config) (c : Creation) {g : Gateway} (hg : handleCreate cfg c = some g)
    (moves : List Move) :
    (Always (move cfg) (fun s m => ∀ event, s.next m = some event → Carried event) (Pipeline.initial g) moves ↔
      Always (move cfg) (fun s m => ∀ event, s.next m = some event → Consumed s (move cfg s m) event)
        (Pipeline.initial g) moves) ∧
      (Always (move cfg) (fun s m => ∀ event, s.next m = some event → Carried event) (Pipeline.initial g) moves →
        PipelineInv (run (move cfg) (Pipeline.initial g) moves)) := by
  have hkeep : ∀ s m, PipelineInv s → (∀ event, s.next m = some event → Carried event) → PipelineInv (move cfg s m) :=
    fun s m hi hm => move_inv hi hm
  refine ⟨always_congr PipelineInv hkeep ?_ (initial_inv hg) moves,
    fun h => h.inv_run PipelineInv hkeep (initial_inv hg)⟩
  intro s m hi
  refine forall_congr' fun event => ?_
  constructor
  · intro hc hnext
    obtain ⟨now, rfl, hopen, hget⟩ := next_some hnext
    obtain ⟨cur, hin⟩ := hi.2 hopen
    exact (delivered_carried hin hopen hget (hc hnext)).1
  · intro hc hnext
    obtain ⟨now, rfl, hopen, hget⟩ := next_some hnext
    obtain ⟨cur, hin⟩ := hi.2 hopen
    exact carried_of_consumed hin hopen hget (hc hnext)

/-- A line of output that is journaled and delivered. -/
theorem log_consumed :
    Always (move sampleConfig) (fun s m => ∀ event, s.next m = some event → Consumed s (move sampleConfig s m) event)
      (Pipeline.initial replayTask) [.tail noon logEvent, .deliver noon] := by
  refine (replay_consumes sampleConfig replayCreation replayTask_eq [.tail noon logEvent, .deliver noon]).1.mp
    ⟨(fun _ h => nomatch h), ?_, trivial⟩
  intro event hnext te himage
  have hlog : (tailed (Pipeline.initial replayTask) noon logEvent).next (.deliver noon) =
    some logEvent := by decide +kernel
  obtain rfl : event = logEvent := Option.some.inj (hnext.symm.trans hlog)
  have hte : runEventToTaskEvent logEvent 0 = some { logImage with seq := 0 } := by decide +kernel
  obtain rfl : te = { logImage with seq := 0 } := Option.some.inj (himage.symm.trans hte)
  exact ⟨by decide +kernel, by decide +kernel⟩

/-- A line of output whose time is not in the journal's format: the journal writes its own. -/
def untimedEvent : Json := .obj [("type", .str "log"), ("ts", .str "noon"), ("message", .str "hi")]

/-- The journal takes the event and the store does not, so the cursor stays before it. -/
theorem untimed_event_blocks :
    ¬ ∀ (cfg : Config) (c : Creation) (g : Gateway), handleCreate cfg c = some g → ∀ moves,
      Always (move cfg) (fun s m => ∀ event, s.next m = some event → Consumed s (move cfg s m) event)
        (Pipeline.initial g) moves := by
  intro h
  obtain ⟨-, hdelivered, -⟩ := h sampleConfig replayCreation replayTask replayTask_eq
    [.tail noon untimedEvent, .deliver noon]
  have hpassed := (hdelivered untimedEvent (by decide +kernel)).passed
  revert hpassed
  decide +kernel

end VibeReplay
