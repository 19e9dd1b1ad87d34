import VibeWorkflow.SnapshotProofs

/-!
# The event stream of a workflow

`streamWorkflowEvents` polls the event log.  A tick reads one page of events after its cursor, then the
workflow's row, writes the events and decides whether to close.  Between the two reads, and between ticks,
events are appended and the log is cut.

* `StreamSys`, `StreamReach` — the runtime, the retained rows and one client, under every interleaving;
* `Served` — what a client has been sent: the retained events of the intervals its ticks passed;
* `LiveLog` — a workflow that has not come to an end has no event that says so;
* **`stream_delivers`** — in every run the client is served, and a tick closes exactly as it should as long
  as the newest event of an ended workflow is retained or already passed;
* **`emptied_stream_stays_open`** — a log that was cut to nothing keeps its streams open.
-/

namespace VibeRuntime

open VibeJson VibeContract VibeRouting VibeTemplate VibeValidator VibeStore VibeAdmission VibeControl
open AsyncLogic

/-! ## The stream -/

/-- A `Last-Event-ID` of digits, else `-1`. -/
def parseWorkflowCursor (header : Option String) : Int :=
  match header with
  | none => -1
  | some raw =>
    if raw.toList ≠ [] ∧ raw.toList.all Char.isDigit then
      (raw.toList.foldl (fun n c => 10 * n + (c.toNat - '0'.toNat)) 0 : Nat)
    else -1

/-- The rows of `listWorkflowEvents(workflowId, cursor)`. -/
def eventPage (rows : List EventRow) (cursor : Int) : List EventRow :=
  (rows.filter fun r => decide (cursor < r.seq)).take (clampLimit 1000)

/-- `STREAM_END_EVENTS`. -/
def isStreamEnd (e : WorkflowEvent) : Bool := isFinalEvent e || e.type == .workflowBlocked

/-- What one tick did: the rows there were when it read, and its cursor before and after. -/
structure Tick where
  before : Int
  retained : List EventRow
  after : Int

/-- One client. `origin`, `seen` and `ticks` are kept for the statements: the cursor it came with, the rows
    there were at the last read, and the ticks that are done, the latest first. -/
structure Stream where
  cursor : Int
  /-- The events of a tick that has not read the workflow's row yet. -/
  pending : Option (List EventRow)
  warnedTruncation : Bool
  closed : Bool
  sent : List EventRow
  origin : Int
  seen : List EventRow
  ticks : List Tick

def Stream.connect (header : Option String) : Stream :=
  ⟨parseWorkflowCursor header, none, false, false, [], parseWorkflowCursor header, [], []⟩

/-- The first half of a tick. -/
def Stream.read (s : Stream) (rows : List EventRow) : Stream :=
  { s with pending := some (eventPage rows s.cursor), seen := rows }

/-- The cursor once the events are written. -/
def advance (cursor : Int) (events : List EventRow) : Int := (events.getLast?.map EventRow.seq).getD cursor

/-- The columns of the workflow's row that a tick reads. -/
structure StreamRow where
  status : WorkflowStatus
  lastEventSequence : Int
  earliestRetainedSequence : Int

/-- The second half: warn, write, and close once the high-water mark is reached. -/
def Stream.finish (s : Stream) (rec : StreamRow) (events : List EventRow) : Stream :=
  let cursor := advance s.cursor events
  let endReached := events.any fun r => isStreamEnd r.event
  { s with
    cursor := cursor
    pending := none
    warnedTruncation := s.warnedTruncation ||
      decide (0 < rec.earliestRetainedSequence ∧ s.cursor + 1 < rec.earliestRetainedSequence)
    closed := (endReached || endState rec.status) && decide (rec.lastEventSequence ≤ cursor)
    sent := s.sent ++ events
    ticks := ⟨s.cursor, s.seen, cursor⟩ :: s.ticks }

/-! ## The system -/

/-- The runtime, the retained rows with their column, and a client. -/
structure StreamSys where
  sys : Sys
  rows : List EventRow
  earliest : Int
  stream : Option Stream

def StreamSys.last (st : StreamSys) : Int := st.sys.w.db.events.length - 1

def StreamSys.row (st : StreamSys) : StreamRow := ⟨st.sys.w.db.wf.status, st.last, st.earliest⟩

inductive StreamAction where
  | act (a : Action)
  | prune (keepLast : Nat)
  | connect (header : Option String)
  | read
  | finish
  /-- A read throws; the tick ends. -/
  | fail

/-- The rows the system has after a step: what the step appended stands behind what was retained. -/
def grownRows (st : StreamSys) (s' : Sys) : List EventRow :=
  st.rows ++ (eventRows s'.w.db).drop st.sys.w.db.events.length

def streamStep (cfg : Config) (st : StreamSys) : StreamAction → Option StreamSys
  | .act a => (step cfg st.sys a).map fun s' => { st with sys := s', rows := grownRows st s' }
  | .prune keepLast =>
    let log := RetainedLog.Log.prune EventRow.seq keepLast ⟨st.rows, st.last, st.earliest⟩
    some { st with rows := log.rows, earliest := log.earliest }
  | .connect header => if st.stream.isNone then some { st with stream := some (.connect header) } else none
  | .read =>
    match st.stream with
    | some s => if s.closed || s.pending.isSome then none else some { st with stream := some (s.read st.rows) }
    | none => none
  | .finish =>
    match st.stream with
    | some s => s.pending.map fun events => { st with stream := some (s.finish st.row events) }
    | none => none
  | .fail =>
    match st.stream with
    | some s => some { st with stream := some { s with pending := none } }
    | none => none

def streamStart (cfg : Config) : StreamSys := ⟨initial cfg, eventRows (initial cfg).w.db, 0, none⟩

/-- The states of all runs. -/
inductive StreamReach (cfg : Config) : StreamSys → Prop
  | start : StreamReach cfg (streamStart cfg)
  | step {st st' : StreamSys} {a : StreamAction} (run : StreamReach cfg st) (next : streamStep cfg st a = some st') :
      StreamReach cfg st'

/-! ## What a client is owed -/

/-- The rows of the interval a tick passed. -/
def Tick.rows (t : Tick) : List EventRow := t.retained.filter fun r => decide (t.before < r.seq ∧ r.seq ≤ t.after)

/-- A tick stops short of a retained row only at the end of a page. -/
def Tick.Full (t : Tick) : Prop :=
  (∀ r ∈ t.retained, t.before < r.seq → r.seq ≤ t.after) ∨ t.rows.length = 1000

/-- What the ticks delivered, in order. -/
def delivered : List Tick → List EventRow
  | [] => []
  | t :: older => delivered older ++ t.rows

/-- The ticks pass adjoining intervals, from `origin` on. -/
inductive Tiles (origin : Int) : List Tick → Int → Prop
  | nil : Tiles origin [] origin
  | cons {t : Tick} {older : List Tick} (rest : Tiles origin older t.before) (le : t.before ≤ t.after) :
      Tiles origin (t :: older) t.after

theorem Tiles.le {origin cursor : Int} {ticks : List Tick} (h : Tiles origin ticks cursor) : origin ≤ cursor := by
  induction h with
  | nil => exact le_refl _
  | cons _ hle ih => exact le_trans ih hle

/-- **A client is served**: it was sent exactly the retained events of the intervals its ticks passed, and
    these intervals are all there is between the cursor it came with and the one it has; in increasing order
    and each once; and nothing that is retained and behind the cursor is missing. -/
structure Served (db : Db) (rows : List EventRow) (s : Stream) : Prop where
  sent : s.sent = delivered s.ticks
  tiles : Tiles s.origin s.ticks s.cursor
  full : ∀ t ∈ s.ticks, t.Full
  genuine : ∀ t ∈ s.ticks, ∀ r ∈ t.retained, r ∈ eventRows db
  ordered : s.sent.Pairwise fun a b => a.seq < b.seq
  within : ∀ r ∈ s.sent, s.origin < r.seq ∧ r.seq ≤ s.cursor
  covered : ∀ r ∈ rows, s.origin < r.seq → r.seq ≤ s.cursor → r ∈ s.sent

/-- Every retained event after the client's cursor has been sent. -/
def AllSent (rows : List EventRow) (s : Stream) : Prop := ∀ r ∈ rows, s.origin < r.seq → r ∈ s.sent

/-- **The tail is lost**: the workflow has come to an end, and retention has deleted all events beyond where a
    tick gets, of which there were some. -/
def TailLost (st : StreamSys) (s : Stream) (events : List EventRow) : Prop :=
  endState st.sys.w.db.wf.status = true ∧ advance s.cursor events < st.last ∧
    ∀ r ∈ st.rows, r.seq ≤ advance s.cursor events

/-! ## A workflow that has not come to an end -/

/-- No event says that the workflow has come to an end. -/
def LiveLog (db : Db) : Prop := endState db.wf.status = false → ∀ e ∈ db.events, passed e = true

theorem LiveLog.of_same {db db' : Db} (h : LiveLog db) (hev : db'.events = db.events)
    (hst : db'.wf.status = db.wf.status) : LiveLog db' := by
  intro hlive e he
  rw [hst] at hlive
  rw [hev] at he
  exact h hlive e he

/-- The new events say nothing of an end, and the status was none before. -/
theorem LiveLog.grow {db db' : Db} (new : List WorkflowEvent) (h : LiveLog db)
    (hlive : endState db'.wf.status = false → endState db.wf.status = false) (hev : db'.events = db.events ++ new)
    (hnew : ∀ e ∈ new, passed e = true) : LiveLog db' := by
  intro hlive' e he
  rw [hev] at he
  exact (List.mem_append.mp he).elim (h (hlive hlive') e) (hnew e)

theorem LiveLog.ended {db' : Db} (hend : endState db'.wf.status = true) : LiveLog db' := by
  intro hlive
  rw [hend] at hlive
  exact nomatch hlive

/-- A guarded call keeps that. -/
theorem LiveLog.call {op : Op} {w w' : World} (h : LiveLog w.db) (hg : EventGuard op) (heff : Effect op w w') :
    LiveLog w'.db := by
  have hone : ∀ {ev : WorkflowEvent} {t : EventType}, ev.type = t → isFinalType t = false → t ≠ .workflowBlocked →
      ∀ e ∈ [ev], passed e = true := by
    intro ev t ht hf hb e he
    rw [List.mem_singleton.mp he]
    exact passed_of_type ht hf hb
  have hfrom : ∀ {st : WorkflowStatus} {p : Prop}, w.db.wf.status = st → endState st = false →
      (p → endState w.db.wf.status = false) := by
    intro st p hst hlive _
    rw [hst]
    exact hlive
  cases heff with
  | started hready => exact h.grow _ (hfrom hready rfl) rfl (hone hg rfl nofun)
  | stepStarted _ => exact h.grow _ id rfl (hone hg rfl nofun)
  | bound _ _ => exact h.grow _ id rfl (hone hg rfl nofun)
  | completed _ _ => exact h.grow _ id rfl (hone hg rfl nofun)
  | @advanced _ edgeEv roundEv _ startedEv _ _ =>
    obtain ⟨hedge, hround, hstarted⟩ := hg
    refine h.grow (edgeEv :: roundEv.toList ++ [startedEv]) id (List.append_assoc _ _ _) ?_
    intro e he
    rcases List.mem_append.mp he with he | he
    · rcases List.mem_cons.mp he with rfl | he
      · exact passed_of_type hedge rfl nofun
      · exact passed_of_type (hround e (Option.mem_toList.mp he)) rfl nofun
    · exact hone hstarted rfl nofun e he
  | @terminalized _ status edgeEv ev _ _ =>
    obtain ⟨-, ⟨rfl, -⟩ | ⟨rfl, -⟩ | ⟨rfl, -⟩⟩ := hg
    · exact .ended rfl
    · exact .ended rfl
    · exact .ended rfl
  | stepFailed _ _ _ => exact .ended rfl
  | stepFailedLate _ _ hdead => exact h.grow _ id rfl (hone hg.1 rfl nofun)
  | failedOnly _ _ _ => exact .ended rfl
  | cancelled _ => exact .ended rfl
  | askedPaused _ _ hrun => exact h.grow _ (hfrom hrun rfl) rfl (hone hg rfl nofun)
  | paused hrun => exact h.grow _ (hfrom hrun rfl) rfl (hone hg rfl nofun)
  | rejected _ _ _ => exact .ended rfl
  | resumed hwait =>
    refine h.grow _ ?_ rfl (hone hg rfl nofun)
    intro _
    rcases hwait with hst | hst <;> rw [hst] <;> rfl
  | _ => exact h.of_same rfl rfl

theorem reach_liveLog {cfg : Config} {ok : Sys → Action → Prop} {s : Sys} (h : Reach cfg ok s) : LiveLog s.w.db := by
  refine reach_world (P := fun w => LiveLog w.db) ?_ ?_ h
  · intro _ e he
    have he : e ∈ [wfEvent .workflowCreated [("name", .str cfg.spec.name)], wfEvent .workflowValidated []] := he
    simp only [List.mem_cons, List.not_mem_nil, or_false] at he
    rcases he with rfl | rfl <;> rfl
  · intro s a w' _ _ hm hP
    rcases hm.guarded with hdb | ⟨op, hg, heff⟩
    · rw [hdb]
      exact hP
    · exact hP.call hg heff

/-! ## The retained rows -/

theorem eventRows_sorted (db : Db) : (eventRows db).Pairwise fun a b => a.seq < b.seq := by
  have h := RetainedLog.span_pairwise 0 db.events.length
  rw [← eventRows_seq] at h
  exact List.pairwise_map.mp h

theorem mem_eventRows {db : Db} {r : EventRow} : r ∈ eventRows db ↔ db.events[r.sequence]? = some r.event := by
  obtain ⟨i, e⟩ := r
  simp only [eventRows, List.mem_map, Prod.exists, EventRow.mk.injEq, List.mem_zipIdx_iff_getElem?]
  constructor
  · rintro ⟨e', i', h, rfl, rfl⟩
    exact h
  · intro h
    exact ⟨e, i, h, rfl, rfl⟩

theorem seq_lt_length {db : Db} {r : EventRow} (h : r ∈ eventRows db) : r.seq < db.events.length := by
  have hlt := (List.getElem?_eq_some_iff.mp (mem_eventRows.mp h)).1
  exact Int.ofNat_lt.mpr hlt

/-- What a system keeps of its log: everything from some row on. -/
structure Kept (st : StreamSys) (k : Nat) : Prop where
  le : k ≤ st.sys.w.db.events.length
  rows : st.rows = (eventRows st.sys.w.db).drop k

theorem Kept.subset {st : StreamSys} {k : Nat} (h : Kept st k) {r : EventRow} (hr : r ∈ st.rows) :
    r ∈ eventRows st.sys.w.db := by
  rw [h.rows] at hr
  exact List.mem_of_mem_drop hr

theorem Kept.sorted {st : StreamSys} {k : Nat} (h : Kept st k) : st.rows.Pairwise fun a b => a.seq < b.seq := by
  rw [h.rows]
  exact (eventRows_sorted _).sublist (List.drop_sublist _ _)

theorem prune_rows (rows : List EventRow) (last earliest : Int) (keepLast : Nat) :
    (RetainedLog.Log.prune EventRow.seq keepLast ⟨rows, last, earliest⟩).rows = pruneEventsSync rows keepLast := by
  simp only [RetainedLog.Log.prune, pruneEventsSync]
  cases RetainedLog.boundary EventRow.seq keepLast rows <;> rfl

theorem prune_subset {rows : List EventRow} {keepLast : Nat} : pruneEventsSync rows keepLast ⊆ rows := by
  unfold pruneEventsSync
  split
  · exact List.Subset.refl _
  · intro r hr
    exact List.mem_of_mem_filter hr

/-- **Rows of a run**: the log from some row on, down to none of it. -/
theorem stream_kept {cfg : Config} {st : StreamSys} (h : StreamReach cfg st) :
    Reach cfg anyStep st.sys ∧ ∃ k, Kept st k := by
  induction h with
  | start => exact ⟨.start, 0, Nat.zero_le _, rfl⟩
  | @step st st' a _ hs ih =>
    obtain ⟨hreach, k, hk⟩ := ih
    cases a with
    | act a =>
      obtain ⟨s', hs', rfl⟩ := Option.map_eq_some_iff.mp hs
      obtain ⟨new, hnew⟩ := step_appends hreach hs'
      refine ⟨.step hreach trivial hs', k, ?_, ?_⟩
      · show k ≤ s'.w.db.events.length
        rw [hnew, List.length_append]
        exact Nat.le_trans hk.le (Nat.le_add_right _ _)
      · show grownRows st s' = _
        rw [grownRows, hk.rows]
        conv_rhs => rw [eventRows_append hnew]
        rw [List.drop_append_of_le_length (by rw [eventRows_length]; exact hk.le)]
    | prune keepLast =>
      obtain rfl := Option.some.inj hs
      refine ⟨hreach, k + (st.sys.w.db.events.length - k - keepLast), ?_, ?_⟩
      · have hle := hk.le
        show k + (st.sys.w.db.events.length - k - keepLast) ≤ st.sys.w.db.events.length
        omega
      · show (RetainedLog.Log.prune _ _ _).rows = _
        rw [prune_rows, hk.rows]
        exact prune_retained _ _ _
    | connect header =>
      simp only [streamStep] at hs
      split at hs
      · obtain rfl := Option.some.inj hs
        exact ⟨hreach, k, hk.le, hk.rows⟩
      · exact nomatch hs
    | read =>
      simp only [streamStep] at hs
      split at hs
      · split at hs
        · exact nomatch hs
        · obtain rfl := Option.some.inj hs
          exact ⟨hreach, k, hk.le, hk.rows⟩
      · exact nomatch hs
    | finish =>
      simp only [streamStep] at hs
      split at hs
      · obtain ⟨events, -, rfl⟩ := Option.map_eq_some_iff.mp hs
        exact ⟨hreach, k, hk.le, hk.rows⟩
      · exact nomatch hs
    | fail =>
      simp only [streamStep] at hs
      split at hs
      · obtain rfl := Option.some.inj hs
        exact ⟨hreach, k, hk.le, hk.rows⟩
      · exact nomatch hs

/-! ## Pages -/

/-- The first entries of an ordered list are those up to the last of them. -/
theorem take_eq_filter {l : List EventRow} (h : l.Pairwise fun a b => a.seq < b.seq) (n : Nat) {x : EventRow}
    (hx : (l.take n).getLast? = some x) : l.take n = l.filter fun r => decide (r.seq ≤ x.seq) := by
  have hsplit : (l.take n ++ l.drop n).Pairwise fun a b => a.seq < b.seq := by
    rw [List.take_append_drop]
    exact h
  obtain ⟨htake, -, hcross⟩ := List.pairwise_append.mp hsplit
  obtain ⟨init, hinit⟩ := List.getLast?_eq_some_iff.mp hx
  have hmem : x ∈ l.take n := by rw [hinit]; simp
  have hle : ∀ r ∈ l.take n, r.seq ≤ x.seq := by
    intro r hr
    rw [hinit] at hr htake
    rcases List.mem_append.mp hr with hr | hr
    · exact le_of_lt ((List.pairwise_append.mp htake).2.2 r hr x (by simp))
    · rw [List.mem_singleton.mp hr]
  conv_rhs => rw [← List.take_append_drop n l, List.filter_append]
  rw [List.filter_eq_self.mpr fun r hr => decide_eq_true (hle r hr),
    List.filter_eq_nil_iff.mpr fun r hr => by simpa using hcross x hmem r hr, List.append_nil]

/-- **A page**, of ordered rows: the rows of the interval from the cursor to where it ends, and it ends early
    only when it is full. -/
theorem eventPage_spec {rows : List EventRow} (h : rows.Pairwise fun a b => a.seq < b.seq) (cursor : Int) :
    let page := eventPage rows cursor
    let after := advance cursor page
    cursor ≤ after ∧ page = (rows.filter fun r => decide (cursor < r.seq ∧ r.seq ≤ after)) ∧
      ((∀ r ∈ rows, cursor < r.seq → r.seq ≤ after) ∨ page.length = 1000) := by
  intro page after
  have hfiltered := h.filter fun r => decide (cursor < r.seq)
  cases hlast : page.getLast? with
  | none =>
    have hpage : page = [] := List.getLast?_eq_none_iff.mp hlast
    have hafter : after = cursor := by simp [after, advance, hlast]
    have hnone : ∀ r ∈ rows, ¬ cursor < r.seq := by
      intro r hr hlt
      have htake : (rows.filter fun r => decide (cursor < r.seq)).take 1000 = [] := hpage
      have hfilter := (List.take_eq_nil_iff.mp htake).resolve_left (by decide)
      exact List.filter_eq_nil_iff.mp hfilter r hr (decide_eq_true hlt)
    refine ⟨le_of_eq hafter.symm, ?_, .inl fun r hr hlt => absurd hlt (hnone r hr)⟩
    rw [hpage]
    refine (List.filter_eq_nil_iff.mpr fun r hr => ?_).symm
    simp [hnone r hr]
  | some x =>
    have hafter : after = x.seq := by simp [after, advance, hlast]
    have hx : x ∈ page := List.mem_of_getLast? hlast
    have hlt : cursor < x.seq := by
      have := (List.mem_filter.mp (List.mem_of_mem_take hx)).2
      simpa using this
    have hpage : page = (rows.filter fun r => decide (cursor < r.seq)).filter fun r => decide (r.seq ≤ x.seq) :=
      take_eq_filter hfiltered 1000 hlast
    refine ⟨by rw [hafter]; exact le_of_lt hlt, ?_, ?_⟩
    · rw [hpage, List.filter_filter, hafter]
      refine List.filter_congr fun r _ => ?_
      simp [and_comm]
    · by_cases hlen : 1000 ≤ (rows.filter fun r => decide (cursor < r.seq)).length
      · exact .inr (List.length_take_of_le hlen)
      · left
        intro r hr hr'
        have hmem : r ∈ page := by
          show r ∈ (rows.filter fun r => decide (cursor < r.seq)).take 1000
          rw [List.take_of_length_le (by omega)]
          exact List.mem_filter.mpr ⟨hr, decide_eq_true hr'⟩
        rw [hpage] at hmem
        rw [hafter]
        simpa using (List.mem_filter.mp hmem).2

/-! ## Serving a client -/

/-- What a tick in flight relies on: the rows it saw are rows of the log, and what is retained of them since
    is among them. -/
structure Fed (db : Db) (rows : List EventRow) (s : Stream) : Prop where
  page : ∀ events, s.pending = some events → events = eventPage s.seen s.cursor
  sorted : s.seen.Pairwise fun a b => a.seq < b.seq
  genuine : ∀ r ∈ s.seen, r ∈ eventRows db
  retained : ∀ r ∈ rows, (∃ r' ∈ s.seen, r.seq ≤ r'.seq) → r ∈ s.seen
  bounded : s.cursor = s.origin ∨ s.cursor < db.events.length

/-- Events are appended, rows are cut. -/
structure Later (db : Db) (rows : List EventRow) (db' : Db) (rows' : List EventRow) : Prop where
  log : ∀ r ∈ eventRows db, r ∈ eventRows db'
  length : db.events.length ≤ db'.events.length
  rows : ∀ r ∈ rows', r ∈ rows ∨ (db.events.length : Int) ≤ r.seq

theorem Served.later {db db' : Db} {rows rows' : List EventRow} {s : Stream} (h : Served db rows s)
    (hfed : Fed db rows s)
    (hlater : Later db rows db' rows') : Served db' rows' s where
  sent := h.sent
  tiles := h.tiles
  full := h.full
  genuine := fun t ht r hr => hlater.log r (h.genuine t ht r hr)
  ordered := h.ordered
  within := h.within
  covered := by
    intro r hr horigin hcursor
    rcases hlater.rows r hr with hr | hnew
    · exact h.covered r hr horigin hcursor
    · -- a new row is behind no cursor
      rcases hfed.bounded with heq | hlt
      · omega
      · omega

theorem Fed.later {db db' : Db} {rows rows' : List EventRow} {s : Stream} (h : Fed db rows s)
    (hlater : Later db rows db' rows') : Fed db' rows' s where
  page := h.page
  sorted := h.sorted
  genuine := fun r hr => hlater.log r (h.genuine r hr)
  retained := by
    rintro r hr ⟨r', hr', hle⟩
    rcases hlater.rows r hr with hr | hnew
    · exact h.retained r hr ⟨r', hr', hle⟩
    · have hlt := seq_lt_length (h.genuine r' hr')
      omega
  bounded := by
    have hlen := hlater.length
    rcases h.bounded with heq | hlt
    · exact .inl heq
    · right
      omega

theorem served_connect (db : Db) (rows : List EventRow) (header : Option String) :
    Served db rows (.connect header) where
  sent := rfl
  tiles := .nil
  full := fun _ ht => (nomatch ht)
  genuine := fun _ ht => (nomatch ht)
  ordered := .nil
  within := fun _ hr => (nomatch hr)
  covered := by
    intro r _ horigin hcursor
    exact absurd horigin (not_lt.mpr hcursor)

theorem fed_connect (db : Db) (rows : List EventRow) (header : Option String) : Fed db rows (.connect header) where
  page := fun _ h => (nomatch h)
  sorted := .nil
  genuine := fun _ hr => (nomatch hr)
  retained := by
    rintro _ _ ⟨_, hr', _⟩
    exact nomatch hr'
  bounded := .inl rfl

theorem fed_read {st : StreamSys} {s : Stream} {k : Nat} (hk : Kept st k) (h : Fed st.sys.w.db st.rows s) :
    Fed st.sys.w.db st.rows (s.read st.rows) where
  page := fun _ hp => (Option.some.inj hp).symm
  sorted := hk.sorted
  genuine := fun _ hr => hk.subset hr
  retained := fun _ hr _ => hr
  bounded := h.bounded

/-- Where a page ends there is a row. -/
theorem advance_cases (cursor : Int) (events : List EventRow) :
    events = [] ∧ advance cursor events = cursor ∨ ∃ x ∈ events, advance cursor events = x.seq := by
  cases hlast : events.getLast? with
  | none => exact .inl ⟨List.getLast?_eq_none_iff.mp hlast, by simp [advance, hlast]⟩
  | some x => exact .inr ⟨x, List.mem_of_getLast? hlast, by simp [advance, hlast]⟩

/-- **A tick serves the client.** -/
theorem served_finish {db : Db} {rows : List EventRow} {s : Stream} {events : List EventRow} (h : Served db rows s)
    (hfed : Fed db rows s) (hpending : s.pending = some events) (rec : StreamRow) :
    Served db rows (s.finish rec events) := by
  obtain rfl := hfed.page events hpending
  obtain ⟨hle, hpage, hfull⟩ := eventPage_spec hfed.sorted s.cursor
  have hrows : (Tick.mk s.cursor s.seen (advance s.cursor (eventPage s.seen s.cursor))).rows =
    eventPage s.seen s.cursor :=
    hpage.symm
  have hmem : ∀ r ∈ eventPage s.seen s.cursor,
      r ∈ s.seen ∧ s.cursor < r.seq ∧ r.seq ≤ advance s.cursor (eventPage s.seen s.cursor) := by
    intro r hr
    rw [hpage] at hr
    obtain ⟨hseen, hint⟩ := List.mem_filter.mp hr
    exact ⟨hseen, by simpa using hint⟩
  refine ⟨?_, ?_, ?_, ?_, ?_, ?_, ?_⟩
  · show s.sent ++ eventPage s.seen s.cursor = delivered s.ticks ++ _
    rw [h.sent, hrows]
  · exact .cons h.tiles hle
  · intro t ht
    rcases List.mem_cons.mp ht with rfl | ht
    · refine hfull.imp id fun hlen => ?_
      rw [hrows]
      exact hlen
    · exact h.full t ht
  · intro t ht r hr
    rcases List.mem_cons.mp ht with rfl | ht
    · exact hfed.genuine r hr
    · exact h.genuine t ht r hr
  · refine List.pairwise_append.mpr ⟨h.ordered, ?_, ?_⟩
    · rw [hpage]
      exact hfed.sorted.filter _
    · intro a ha b hb
      exact lt_of_le_of_lt (h.within a ha).2 (hmem b hb).2.1
  · intro r hr
    rcases List.mem_append.mp hr with hr | hr
    · exact ⟨(h.within r hr).1, le_trans (h.within r hr).2 hle⟩
    · exact ⟨lt_of_le_of_lt h.tiles.le (hmem r hr).2.1, (hmem r hr).2.2⟩
  · intro r hr horigin hcursor
    by_cases hpassed : r.seq ≤ s.cursor
    · exact List.mem_append_left _ (h.covered r hr horigin hpassed)
    · -- the row lies in the interval of this tick, so it was there when the tick read
      refine List.mem_append_right _ ?_
      have hcursor : r.seq ≤ advance s.cursor (eventPage s.seen s.cursor) := hcursor
      rcases advance_cases s.cursor (eventPage s.seen s.cursor) with ⟨-, hsame⟩ | ⟨x, hx, hend⟩
      · rw [hsame] at hcursor
        exact absurd hcursor hpassed
      · have hseen := hfed.retained r hr ⟨x, (hmem x hx).1, hend ▸ hcursor⟩
        rw [hpage]
        exact List.mem_filter.mpr ⟨hseen, decide_eq_true ⟨not_le.mp hpassed, hcursor⟩⟩

theorem fed_finish {db : Db} {rows : List EventRow} {s : Stream} {events : List EventRow} (hfed : Fed db rows s)
    (hpending : s.pending = some events) (rec : StreamRow) : Fed db rows (s.finish rec events) where
  page := fun _ h => (nomatch h)
  sorted := hfed.sorted
  genuine := hfed.genuine
  retained := hfed.retained
  bounded := by
    obtain rfl := hfed.page events hpending
    show advance _ _ = s.origin ∨ advance _ _ < _
    rcases advance_cases s.cursor (eventPage s.seen s.cursor) with ⟨-, hsame⟩ | ⟨x, hx, hend⟩
    · rw [hsame]
      exact hfed.bounded
    · rw [hend]
      exact .inr (seq_lt_length (hfed.genuine x (List.mem_of_mem_filter (List.mem_of_mem_take hx))))

theorem later_act {cfg : Config} {st : StreamSys} {s' : Sys} {a : Action} (hreach : Reach cfg anyStep st.sys)
    (hs : step cfg st.sys a = some s') : Later st.sys.w.db st.rows s'.w.db (grownRows st s') := by
  obtain ⟨new, hnew⟩ := step_appends hreach hs
  refine ⟨?_, ?_, ?_⟩
  · intro r hr
    show r ∈ eventRows s'.w.db
    rw [eventRows_append hnew]
    exact List.mem_append_left _ hr
  · show _ ≤ s'.w.db.events.length
    rw [hnew, List.length_append]
    exact Nat.le_add_right _ _
  · intro r hr
    refine (List.mem_append.mp hr).imp_right fun hr => ?_
    have hseq : r.seq ∈ ((eventRows s'.w.db).drop st.sys.w.db.events.length).map EventRow.seq := List.mem_map_of_mem hr
    rw [retained_seq] at hseq
    exact (RetainedLog.mem_span.mp hseq).1

theorem later_prune (db : Db) (rows : List EventRow) (keepLast : Nat) :
    Later db rows db (pruneEventsSync rows keepLast) :=
  ⟨fun _ h => h, Nat.le_refl _, fun _ hr => .inl (prune_subset hr)⟩

/-- **In every run the client is served.** -/
theorem stream_served {cfg : Config} {st : StreamSys} (h : StreamReach cfg st) :
    ∀ s, st.stream = some s → Served st.sys.w.db st.rows s ∧ Fed st.sys.w.db st.rows s := by
  induction h with
  | start =>
    intro s hs
    exact nomatch hs
  | @step st st' a hrun hstep ih =>
    obtain ⟨hreach, k, hk⟩ := stream_kept hrun
    intro s hs
    cases a with
    | act a =>
      obtain ⟨s', hs', rfl⟩ := Option.map_eq_some_iff.mp hstep
      obtain ⟨hserved, hfed⟩ := ih s hs
      have hlater := later_act hreach hs'
      exact ⟨hserved.later hfed hlater, hfed.later hlater⟩
    | prune keepLast =>
      obtain rfl := Option.some.inj hstep
      obtain ⟨hserved, hfed⟩ := ih s hs
      have hlater := later_prune st.sys.w.db st.rows keepLast
      rw [← prune_rows _ st.last st.earliest] at hlater
      exact ⟨hserved.later hfed hlater, hfed.later hlater⟩
    | connect header =>
      simp only [streamStep] at hstep
      split at hstep
      · obtain rfl := Option.some.inj hstep
        obtain rfl := Option.some.inj hs
        exact ⟨served_connect _ _ header, fed_connect _ _ header⟩
      · exact nomatch hstep
    | read =>
      simp only [streamStep] at hstep
      split at hstep
      · rename_i s₀ hs₀
        split at hstep
        · exact nomatch hstep
        · obtain rfl := Option.some.inj hstep
          obtain rfl := Option.some.inj hs
          obtain ⟨hserved, hfed⟩ := ih s₀ hs₀
          exact ⟨⟨hserved.sent, hserved.tiles, hserved.full, hserved.genuine, hserved.ordered, hserved.within,
            hserved.covered⟩, (fed_read hk hfed : Fed st.sys.w.db st.rows (s₀.read st.rows))⟩
      · exact nomatch hstep
    | finish =>
      simp only [streamStep] at hstep
      split at hstep
      · rename_i s₀ hs₀
        obtain ⟨events, hpending, rfl⟩ := Option.map_eq_some_iff.mp hstep
        obtain rfl := Option.some.inj hs
        obtain ⟨hserved, hfed⟩ := ih s₀ hs₀
        exact ⟨served_finish hserved hfed hpending st.row, fed_finish hfed hpending st.row⟩
      · exact nomatch hstep
    | fail =>
      simp only [streamStep] at hstep
      split at hstep
      · rename_i s₀ hs₀
        obtain rfl := Option.some.inj hstep
        obtain rfl := Option.some.inj hs
        obtain ⟨h₁, h₂⟩ := ih s₀ hs₀
        exact ⟨⟨h₁.sent, h₁.tiles, h₁.full, h₁.genuine, h₁.ordered, h₁.within, h₁.covered⟩,
          ⟨fun _ h => (nomatch h), h₂.sorted, h₂.genuine, h₂.retained, h₂.bounded⟩⟩
      · exact nomatch hstep

/-! ## Closing -/

/-- An event that says the workflow has come to an end is there only when it has. -/
theorem endReached_ended {db : Db} (hlive : LiveLog db) {events : List EventRow}
    (hgenuine : ∀ r ∈ events, r ∈ eventRows db) (hend : (events.any fun r => isStreamEnd r.event) = true) :
    endState db.wf.status = true := by
  obtain ⟨r, hr, hr'⟩ := List.any_eq_true.mp hend
  cases hst : endState db.wf.status with
  | true => rfl
  | false =>
    have hmem : r.event ∈ db.events := List.mem_of_getElem? (mem_eventRows.mp (hgenuine r hr))
    have hpassed := hlive hst r.event hmem
    unfold passed at hpassed
    unfold isStreamEnd at hr'
    cases hf : isFinalEvent r.event <;> simp_all

/-- A tick closes exactly when the workflow has come to an end and the high-water mark is reached. -/
theorem finish_closed_iff {st : StreamSys} {s : Stream} {events : List EventRow} (hlive : LiveLog st.sys.w.db)
    (hgenuine : ∀ r ∈ events, r ∈ eventRows st.sys.w.db) :
    (s.finish st.row events).closed = true ↔
      endState st.sys.w.db.wf.status = true ∧ st.last ≤ advance s.cursor events := by
  show ((events.any _ || endState st.sys.w.db.wf.status) && decide (st.last ≤ advance s.cursor events)) = true ↔ _
  rw [Bool.and_eq_true, Bool.or_eq_true, decide_eq_true_eq]
  refine and_congr_left fun _ => ⟨?_, .inr⟩
  rintro (hend | hst)
  · exact endReached_ended hlive hgenuine hend
  · exact hst

/-- Once the high-water mark is reached, everything retained was sent. -/
theorem allSent_of_reached {st : StreamSys} {s : Stream} {k : Nat} (hk : Kept st k)
    (h : Served st.sys.w.db st.rows s) (hreached : st.last ≤ s.cursor) : AllSent st.rows s := by
  intro r hr horigin
  have hlt := seq_lt_length (hk.subset hr)
  have hle : r.seq ≤ st.last := Int.le_sub_one_of_lt hlt
  exact h.covered r hr horigin (le_trans hle hreached)

/-- **Delivery and closing.**  In every run, under every interleaving of writes, retention and reads: the
    client is served; a tick that closes finds the workflow terminal or blocked with every retained event
    sent; and a tick that finds this closes, unless retention took the tail of the log before it was sent. -/
theorem stream_delivers {cfg : Config} {st : StreamSys} (h : StreamReach cfg st) {s : Stream}
    (hs : st.stream = some s) :
    Served st.sys.w.db st.rows s ∧
      ∀ events, s.pending = some events →
        let s' := s.finish st.row events
        let found := endState st.sys.w.db.wf.status = true ∧ AllSent st.rows s'
        (s'.closed = true → found) ∧ ((found → s'.closed = true) ↔ ¬ TailLost st s events) := by
  obtain ⟨hreach, k, hk⟩ := stream_kept h
  obtain ⟨hserved, hfed⟩ := stream_served h s hs
  refine ⟨hserved, ?_⟩
  intro events hpending s' found
  have hserved' : Served st.sys.w.db st.rows s' := served_finish hserved hfed hpending st.row
  have hgenuine : ∀ r ∈ events, r ∈ eventRows st.sys.w.db := by
    obtain rfl := hfed.page events hpending
    exact fun r hr => hfed.genuine r (List.mem_of_mem_filter (List.mem_of_mem_take hr))
  have hclosed : s'.closed = true ↔ endState st.sys.w.db.wf.status = true ∧ st.last ≤ s'.cursor :=
    finish_closed_iff (reach_liveLog hreach) hgenuine
  refine ⟨?_, ?_, ?_⟩
  · intro hc
    obtain ⟨hend, hreached⟩ := hclosed.mp hc
    exact ⟨hend, allSent_of_reached hk hserved' hreached⟩
  · rintro hcloses ⟨hend, hshort, hcut⟩
    have hfound : found := ⟨hend, fun r hr horigin => hserved'.covered r hr horigin (hcut r hr)⟩
    exact absurd (hclosed.mp (hcloses hfound)).2 (not_le.mpr hshort)
  · rintro hkept ⟨hend, hsent⟩
    refine hclosed.mpr ⟨hend, not_lt.mp fun hshort => hkept ⟨hend, hshort, ?_⟩⟩
    intro r hr
    by_cases hafter : s.origin < r.seq
    · exact (hserved'.within r (hsent r hr hafter)).2
    · exact le_trans (not_lt.mp hafter) hserved'.tiles.le

/-! ### A log that was cut to nothing -/

/-- Without retention and without a client. -/
theorem streamReach_of_reach {cfg : Config} {s : Sys} (h : Reach cfg anyStep s) :
    StreamReach cfg ⟨s, eventRows s.w.db, 0, none⟩ := by
  induction h with
  | start => exact .start
  | @step s s' a hreach _ hs ih =>
    obtain ⟨new, hnew⟩ := step_appends hreach hs
    refine .step (a := .act a) ih ?_
    rw [eventRows_append hnew]
    simp only [streamStep, hs, Option.map_some, grownRows]

/-- Retention that keeps nothing, on a whole log. -/
theorem prune_whole (db : Db) : pruneEventsSync (eventRows db) 0 = [] := by
  have h := prune_retained db 0 0
  rw [List.drop_zero] at h
  rw [h]
  refine List.drop_eq_nil_of_le ?_
  rw [eventRows_length]
  omega

/-- The state after a client came, the log was cut to nothing and a tick read it. -/
def emptiedRead (s : Sys) (earliest : Int) : StreamSys :=
  ⟨s, [], earliest, some ((Stream.connect none).read [])⟩

theorem emptied_reach {cfg : Config} {s : Sys} (h : Reach cfg anyStep s) :
    ∃ earliest, StreamReach cfg (emptiedRead s earliest) := by
  let cut := RetainedLog.Log.prune EventRow.seq 0 ⟨eventRows s.w.db, (s.w.db.events.length : Int) - 1, 0⟩
  have hrows : cut.rows = [] := (prune_rows _ _ _ _).trans (prune_whole _)
  have hconnected : StreamReach cfg ⟨s, eventRows s.w.db, 0, some (.connect none)⟩ :=
    .step (a := .connect none) (streamReach_of_reach h) rfl
  have hcut : StreamReach cfg ⟨s, cut.rows, cut.earliest, some (.connect none)⟩ :=
    .step (a := .prune 0) hconnected rfl
  rw [hrows] at hcut
  exact ⟨cut.earliest, .step (a := .read) hcut rfl⟩

/-- A workflow is completed, its log is cut to nothing, and the tick of a client that was sent nothing finds
    no event to send and does not close. -/
theorem emptied_stream_stays_open :
    ∃ (st : StreamSys) (s : Stream), StreamReach oneStep st ∧ st.stream = some s ∧ s.pending = some [] ∧
      st.sys.w.db.wf.status = .completed ∧ AllSent st.rows (s.finish st.row []) ∧
      (s.finish st.row []).closed = false := by
  obtain ⟨s, hs, hP⟩ := reach_exists oneStep anyStep (fun _ _ => true) (fun _ _ _ => trivial)
    (startActions ++ renderActions ++ bindActions ++ resultActions ++ routeActions.dropLast)
    (fun s => decide (s.w.db.wf.status = .completed ∧ 0 < s.w.db.events.length)) (by decide +kernel)
  obtain ⟨hst, hlen⟩ := of_decide_eq_true hP
  obtain ⟨earliest, hreach⟩ := emptied_reach hs
  refine ⟨_, _, hreach, rfl, rfl, hst, fun r hr => (nomatch hr), ?_⟩
  show (endState s.w.db.wf.status && decide ((s.w.db.events.length : Int) - 1 ≤ -1)) = false
  rw [decide_eq_false (by omega), Bool.and_false]

/-- A workflow is completed, and the tick of a client that reads its whole log closes. -/
theorem read_stream_closes :
    ∃ (st : StreamSys) (s : Stream) (events : List EventRow), StreamReach oneStep st ∧ st.stream = some s ∧
      s.pending = some events ∧ events = eventRows st.sys.w.db ∧ (s.finish st.row events).closed = true := by
  obtain ⟨s, hs, hP⟩ := reach_exists oneStep anyStep (fun _ _ => true) (fun _ _ _ => trivial)
    (startActions ++ renderActions ++ bindActions ++ resultActions ++ routeActions.dropLast)
    (fun s => decide (s.w.db.wf.status = .completed ∧
      eventPage (eventRows s.w.db) (-1) = eventRows s.w.db ∧
      advance (-1) (eventRows s.w.db) = (s.w.db.events.length : Int) - 1)) (by decide +kernel)
  obtain ⟨hst, hpage, hadvance⟩ := of_decide_eq_true hP
  have hconnected : StreamReach oneStep ⟨s, eventRows s.w.db, 0, some (.connect none)⟩ :=
    .step (a := .connect none) (streamReach_of_reach hs) rfl
  have hread : StreamReach oneStep ⟨s, eventRows s.w.db, 0, some ((Stream.connect none).read (eventRows s.w.db))⟩ :=
    .step (a := .read) hconnected rfl
  have hpending : ((Stream.connect none).read (eventRows s.w.db)).pending =
    some (eventRows s.w.db) := congrArg some hpage
  have hdelivers := (stream_delivers hread rfl).2 _ hpending
  refine ⟨_, _, _, hread, rfl, hpending, rfl, hdelivers.2.mpr ?_ ⟨?_, ?_⟩⟩
  · rintro ⟨-, hshort, -⟩
    have hshort : advance (-1) (eventRows s.w.db) < (s.w.db.events.length : Int) - 1 := hshort
    omega
  · show endState s.w.db.wf.status = true
    rw [hst]
    rfl
  · exact fun r hr _ => List.mem_append_right _ hr

end VibeRuntime
