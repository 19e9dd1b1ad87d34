import VibeWorkflow.EventStreamProofs
import VibeWorkflow.RunEventProofs
import VibeWorkflow.StreamPollProofs

/-!
# Collecting the events of tasks and of workflows

A task's events are replayed from its buffer, or from the durable rows once it is out of memory, and then
pushed as they come; a workflow's are read from its log, a page at a time.  The client passes the last id it
has as `Last-Event-ID`.

* `computeSseReplay`, `handleEvents` — a task's stream;
* `serveMoments` — a workflow's stream, tick by tick;
* **`collection_exact`** — both are collected exactly, as long as ids increase and no pushed event is behind
  the caller's cursor;
* **`terminal_before_event`** — a terminal status says nothing about the terminal event.
-/

namespace VibeClient

open VibeJson Cursor
open VibeRun (TaskEvent TaskEventType)
open VibeRuntime (EventRow Stream StreamRow eventPage parseWorkflowCursor)

/-! ## Cursors in a header -/

/-- `String(opts.afterId)`, when there is one. -/
def lastEventId (afterId : Option Int) : Option String := afterId.map fun n => String.ofList (idText n)

/-- `/^\d+$/.test(raw) ? Number(raw) : null`. -/
def replayCursor (header : Option String) : Option Int :=
  match header with
  | none => none
  | some raw =>
    if raw.toList ≠ [] ∧ raw.toList.all Char.isDigit then some (Nat.ofDigitChars 10 raw.toList 0) else none

theorem idText_digits {n : Int} : (idText n ≠ [] ∧ (idText n).all Char.isDigit = true) ↔ 0 ≤ n := by
  unfold idText
  split
  · rename_i hneg
    constructor
    · exact fun h => absurd h.2 (by rw [List.all_cons]; exact Bool.false_ne_true)
    · omega
  · rename_i hpos
    constructor
    · intro _
      omega
    · exact fun _ => ⟨JsNum.digits_ne_nil _, List.all_eq_true.mpr JsNum.digits_isDigit⟩

theorem idText_value {n : Int} (h : 0 ≤ n) : (Nat.ofDigitChars 10 (idText n) 0 : Int) = n := by
  have hval : Nat.ofDigitChars 10 (JsNum.digits n.natAbs) 0 = n.natAbs := Nat.ofDigitChars_ten_toDigits
  unfold idText
  rw [if_neg (by omega), hval]
  omega

/-- A cursor is read back when it is one; without one, or with a negative one, there is none. -/
theorem replayCursor_header (afterId : Option Int) :
    replayCursor (lastEventId afterId) = if 0 ≤ afterId.getD (-1) then some (afterId.getD (-1)) else none := by
  cases afterId with
  | none => rfl
  | some n =>
    show (if (String.ofList (idText n)).toList ≠ [] ∧
      (String.ofList (idText n)).toList.all Char.isDigit then _ else none) = _
    rw [String.toList_ofList, Option.getD_some]
    by_cases hn : 0 ≤ n
    · rw [if_pos (idText_digits.mpr hn), if_pos hn, idText_value hn]
    · rw [if_neg fun h => hn (idText_digits.mp h), if_neg hn]

theorem parseWorkflowCursor_header (afterId : Option Int) :
    parseWorkflowCursor (lastEventId afterId) = max (afterId.getD (-1)) (-1) := by
  have hparse : parseWorkflowCursor (lastEventId afterId) = (replayCursor (lastEventId afterId)).getD (-1) := by
    cases afterId with
    | none => rfl
    | some n =>
      show (if _ then _ else _) = (if _ then _ else _ : Option Int).getD (-1)
      split
      · rfl
      · rfl
  rw [hparse, replayCursor_header]
  split
  · rename_i h
    rw [Option.getD_some]
    exact (max_eq_left (by omega)).symm
  · rw [Option.getD_none]
    exact (max_eq_right (by omega)).symm

/-! ## Tasks -/

def taskEventJson (taskId : String) (ev : TaskEvent) : Json :=
  .obj [("seq", .num (.ofInt ev.seq)), ("task_id", .str taskId), ("type", .str ev.type.name), ("ts", .str ev.ts),
    ("payload", ev.payload), ("contract_version", .num (.ofInt 1))]

def ofTaskEvent (taskId : String) (ev : TaskEvent) : StreamEvent := ⟨ev.seq, ev.type.name, taskEventJson taskId ev⟩

structure Replay where
  events : List TaskEvent
  truncated : Bool
  cursor : Option Int

def computeSseReplay (buffer : List TaskEvent) (lastEventIdHeader : Option String) : Replay :=
  match replayCursor lastEventIdHeader with
  | none => ⟨buffer, false, none⟩
  | some cursor =>
    ⟨buffer.filter fun e => decide (cursor < e.seq), buffer.head?.any fun e => decide (cursor + 1 < e.seq), some cursor⟩

/-- A task when a request for its events comes, and what is pushed until the client leaves. -/
structure TaskSite where
  /-- The events that are not kept any more, the oldest first. -/
  evicted : List TaskEvent
  /-- The buffer, or the durable rows of a task that is not in memory. -/
  retained : List TaskEvent
  inMemory : Bool
  historyTruncated : Bool
  /-- `earliest_retained_sequence` of the row. -/
  earliest : Int
  pushed : List TaskEvent

def TaskSite.live (site : TaskSite) : List TaskEvent := if site.inMemory then site.pushed else []

def bufferWarning : String :=
  "warning: requested Last-Event-ID predates the retained buffer; replaying from the oldest retained event"

def historyWarning : String :=
  "warning: task event history is incomplete (some events emitted while the gateway was unavailable are not retained)"

def rowsWarning : String := "warning: task event history is incomplete/truncated"

/-- `handleEvents`: what is written to a request. -/
def handleEvents (taskId : String) (header : Option String) (site : TaskSite) : List Item :=
  let replay := computeSseReplay site.retained header
  let frames (events : List TaskEvent) : List Item := events.map fun ev => .event (ofTaskEvent taskId ev)
  if site.inMemory then
    [.comment "connected"]
      ++ (if replay.truncated then [.comment bufferWarning] else [])
      ++ (if site.historyTruncated then [.comment historyWarning] else [])
      ++ frames replay.events ++ frames site.live
  else
    [.comment "connected"]
      ++ (if replay.truncated ∨ 0 < site.earliest then [.comment rowsWarning] else [])
      ++ frames replay.events

/-- `TERMINAL_TASK_EVENTS`. -/
def endsTask (type : String) : Bool := type == "task.completed" || type == "task.failed" || type == "task.cancelled"

def taskNotice : String := "predates the retained buffer"

def taskSource (taskId : String) : Source TaskSite where
  ends := endsTask
  notice := taskNotice
  serve afterId site := handleEvents taskId (lastEventId afterId) site
  before site := (site.evicted ++ site.retained).map (ofTaskEvent taskId)
  live site := site.live.map (ofTaskEvent taskId)
  whole site := site.evicted = []
  stops := Source.isTerminalStatus

theorem eventsOf_append (xs ys : List Item) : eventsOf (xs ++ ys) = eventsOf xs ++ eventsOf ys := List.filterMap_append

theorem eventsOf_frames (taskId : String) (events : List TaskEvent) :
    eventsOf (events.map fun ev => .event (ofTaskEvent taskId ev)) = events.map (ofTaskEvent taskId) := by
  induction events with
  | nil => rfl
  | cons ev events ih =>
    show ofTaskEvent taskId ev :: eventsOf (events.map fun ev => .event (ofTaskEvent taskId ev)) = _
    rw [ih]
    rfl

theorem eventsOf_comment (p : Prop) [Decidable p] (text : String) :
    eventsOf (if p then [.comment text] else []) = [] := by
  split
  · rfl
  · rfl

/-- What a request is sent: the replay, and what is pushed. -/
theorem handleEvents_events (taskId : String) (header : Option String) (site : TaskSite) :
    eventsOf (handleEvents taskId header site) =
      (computeSseReplay site.retained header).events.map (ofTaskEvent taskId) ++
        site.live.map (ofTaskEvent taskId) := by
  unfold handleEvents TaskSite.live
  split
  · simp only [eventsOf_append, eventsOf_comment, eventsOf_frames]
    rfl
  · simp only [eventsOf_append, eventsOf_comment, eventsOf_frames, List.map_nil, List.append_nil]
    rfl

theorem taskType_plain (type : TaskEventType) : type.name ≠ "" ∧ OneLine type.name := by
  cases type <;> exact ⟨by decide, oneLine_ofList (by decide)⟩

theorem warnings_line : OneLine bufferWarning ∧ OneLine historyWarning ∧ OneLine rowsWarning :=
  ⟨oneLine_ofList (by decide), oneLine_ofList (by decide), oneLine_ofList (by decide)⟩

theorem handleEvents_plain (taskId : String) (header : Option String) (site : TaskSite) :
    ∀ i ∈ handleEvents taskId header site, i.Plain := by
  have hframes : ∀ events : List TaskEvent, ∀ i ∈ events.map fun ev => Item.event (ofTaskEvent taskId ev), i.Plain := by
    intro events i hi
    obtain ⟨ev, -, rfl⟩ := List.mem_map.mp hi
    exact taskType_plain ev.type
  have happend : ∀ {xs ys : List Item}, (∀ i ∈ xs, i.Plain) → (∀ i ∈ ys, i.Plain) → ∀ i ∈ xs ++ ys, i.Plain := by
    intro xs ys hxs hys i hi
    exact (List.mem_append.mp hi).elim (hxs i) (hys i)
  have hone : ∀ text : String, OneLine text → ∀ i ∈ [Item.comment text], i.Plain := by
    intro text htext i hi
    rw [List.mem_singleton.mp hi]
    exact htext
  have hmaybe : ∀ (p : Prop) [Decidable p] (text : String), OneLine text →
      ∀ i ∈ (if p then [Item.comment text] else []), i.Plain := by
    intro p _ text htext
    split
    · exact hone text htext
    · exact fun i hi => nomatch hi
  unfold handleEvents
  split
  · refine happend (happend (happend (happend ?_ ?_) ?_) (hframes _)) (hframes _)
    · exact hone _ (oneLine_ofList (by decide))
    · exact hmaybe _ _ warnings_line.1
    · exact hmaybe _ _ warnings_line.2.1
  · refine happend (happend ?_ ?_) (hframes _)
    · exact hone _ (oneLine_ofList (by decide))
    · exact hmaybe _ _ warnings_line.2.2

theorem after_map (taskId : String) (c : Int) (log : List TaskEvent) :
    after StreamEvent.id c (log.map (ofTaskEvent taskId)) =
      (log.filter fun e => decide (c < e.seq)).map (ofTaskEvent taskId) := by
  unfold after
  rw [List.filter_map]
  rfl

/-- **A task's stream** is its log from the cursor on. -/
theorem taskSource_serves (taskId : String) : (taskSource taskId).Serves where
  plain afterId site := handleEvents_plain taskId _ site
  sent afterId site hwhole _ hnonneg hlive := by
    have hwhole : site.evicted = [] := hwhole
    have hlog : (taskSource taskId).log site = (site.retained ++ site.live).map (ofTaskEvent taskId) := by
      show (site.evicted ++ site.retained).map _ ++ site.live.map _ = _
      rw [hwhole, List.nil_append, ← List.map_append]
    have hahead : ∀ e ∈ site.live, afterId.getD (-1) < e.seq :=
      fun e he => hlive (ofTaskEvent taskId e) (List.mem_map_of_mem he)
    have hkeep : site.live.filter (fun e => decide (afterId.getD (-1) < e.seq)) = site.live :=
      List.filter_eq_self.mpr fun e he => decide_eq_true (hahead e he)
    show eventsOf (handleEvents taskId (lastEventId afterId) site) <+: _
    rw [handleEvents_events, hlog, after_map, List.filter_append, hkeep, List.map_append]
    refine (List.prefix_append_right_inj _).mpr (List.prefix_refl _) |>.trans ?_
    rw [computeSseReplay, replayCursor_header]
    by_cases hc : 0 ≤ afterId.getD (-1)
    · rw [if_pos hc]
    · -- without a cursor the whole buffer is replayed
      have hall : site.retained.filter (fun e => decide (afterId.getD (-1) < e.seq)) = site.retained := by
        refine List.filter_eq_self.mpr fun e he => decide_eq_true ?_
        have hid : 0 ≤ (ofTaskEvent taskId e).id := by
          refine hnonneg _ ?_
          rw [hlog]
          exact List.mem_map_of_mem (List.mem_append_left _ he)
        have hid : 0 ≤ e.seq := hid
        omega
      rw [if_neg hc, hall]

/-! ## Workflows -/

/-- The `event_type` of a workflow event. -/
def eventTypeName : VibeControl.EventType → String
  | .workflowCreated => "workflow.created"
  | .workflowValidated => "workflow.validated"
  | .workflowStarted => "workflow.started"
  | .workflowPaused => "workflow.paused"
  | .workflowResumed => "workflow.resumed"
  | .workflowRoundAdvanced => "workflow.round_advanced"
  | .workflowBlocked => "workflow.blocked"
  | .workflowCompleted => "workflow.completed"
  | .workflowFailed => "workflow.failed"
  | .workflowCancelled => "workflow.cancelled"
  | .stepStarted => "step.started"
  | .stepTaskCreated => "step.task_created"
  | .stepCompleted => "step.completed"
  | .stepFailed => "step.failed"
  | .edgeSelected => "edge.selected"

/-- What happens while a client is connected: a tick that reads the log and the workflow's row, or a heartbeat. -/
inductive Moment where
  | tick (rows : List EventRow) (rec : StreamRow)
  | heartbeat

/-- A stream between the client's arrival and its leaving, and the log at the end. -/
structure WorkflowSite where
  moments : List Moment
  log : List EventRow

section

variable (workflowId : String) (ts : EventRow → String)

/-- The data of `frame(e)`. -/
def workflowEventJson (r : EventRow) : Json :=
  .obj ([("workflow_id", .str workflowId), ("seq", .num (.ofInt r.seq)), ("type", .str (eventTypeName r.event.type)),
      ("ts", .str (ts r))]
    ++ (match r.event.step with
      | some k => [("step_execution_id", .str (VibeControl.stepExecutionId workflowId k))]
      | none => [])
    ++ [("payload", r.event.payload)])

def ofEventRow (r : EventRow) : StreamEvent := ⟨r.seq, eventTypeName r.event.type, workflowEventJson workflowId ts r⟩

/-- What a stream writes, from a state on. -/
def serveMoments : Stream → List Moment → List Item
  | _, [] => []
  | s, .heartbeat :: later => if s.closed then [] else .comment "keep-alive" :: serveMoments s later
  | s, .tick rows rec :: later =>
    if s.closed then []
    else
      let events := eventPage rows s.cursor
      let s' := (s.read rows).finish rec events
      (if s'.warnedTruncation = true ∧ s.warnedTruncation = false then
          [.comment ("warning: workflow event history is truncated (earliest_retained_sequence=" ++
            String.ofList (idText rec.earliestRetainedSequence) ++ ")")]
        else [])
        ++ events.map (fun r => .event (ofEventRow workflowId ts r)) ++ serveMoments s' later

/-- `WORKFLOW_END_EVENTS`. -/
def endsWorkflow (type : String) : Bool :=
  type == "workflow.completed" || type == "workflow.failed" || type == "workflow.cancelled" || type == "workflow.blocked"

def workflowSource : Source WorkflowSite where
  ends := endsWorkflow
  notice := "truncated"
  serve afterId site := .comment "connected" :: serveMoments workflowId ts (.connect (lastEventId afterId)) site.moments
  before site := site.log.map (ofEventRow workflowId ts)
  live _ := []
  whole site := ∀ rows rec, .tick rows rec ∈ site.moments → rows <+: site.log
  stops status := Source.isTerminalStatus status || status == "blocked"

end

section

variable {workflowId : String} {ts : EventRow → String}

theorem eventType_plain (type : VibeControl.EventType) : eventTypeName type ≠ "" ∧ OneLine (eventTypeName type) := by
  cases type <;> exact ⟨by decide, oneLine_ofList (by decide)⟩

theorem OneLine.append {a b : String} (ha : OneLine a) (hb : OneLine b) : OneLine (a ++ b) := by
  intro c hc
  rw [String.toList_append] at hc
  exact (List.mem_append.mp hc).elim (ha c) (hb c)

theorem oneLine_idText (n : Int) : OneLine (String.ofList (idText n)) := by
  unfold OneLine
  rw [String.toList_ofList]
  exact idText_line n

theorem truncationText_line : OneLine "warning: workflow event history is truncated (earliest_retained_sequence=" :=
  oneLine_ofList (by decide)

theorem serveMoments_plain (s : Stream) (moments : List Moment) :
    ∀ i ∈ serveMoments workflowId ts s moments, i.Plain := by
  induction moments generalizing s with
  | nil => exact fun i hi => nomatch hi
  | cons m later ih =>
    cases m with
    | heartbeat =>
      unfold serveMoments
      split
      · exact fun i hi => nomatch hi
      · intro i hi
        rcases List.mem_cons.mp hi with rfl | hi
        · exact oneLine_ofList (by decide)
        · exact ih s i hi
    | tick rows rec =>
      unfold serveMoments
      split
      · exact fun i hi => nomatch hi
      · intro i hi
        rcases List.mem_append.mp hi with hi | hi
        · rcases List.mem_append.mp hi with hi | hi
          · split at hi
            · rw [List.mem_singleton.mp hi]
              exact ((truncationText_line).append (oneLine_idText _)).append (oneLine_ofList (by decide))
            · exact nomatch hi
          · obtain ⟨r, -, rfl⟩ := List.mem_map.mp hi
            exact eventType_plain r.event.type
        · exact ih _ i hi

theorem eventsOf_rows (rows : List EventRow) :
    eventsOf (rows.map fun r => .event (ofEventRow workflowId ts r)) = rows.map (ofEventRow workflowId ts) := by
  induction rows with
  | nil => rfl
  | cons r rows ih =>
    show ofEventRow workflowId ts r :: eventsOf (rows.map fun r => .event (ofEventRow workflowId ts r)) = _
    rw [ih]
    rfl

theorem eventPage_initial {rows log : List EventRow} (h : rows <+: log) (c : Int) :
    eventPage rows c <+: after EventRow.seq c log := by
  refine (List.take_prefix _ _).trans ?_
  obtain ⟨more, rfl⟩ := h
  unfold after
  rw [List.filter_append]
  exact List.prefix_append _ _

variable (workflowId ts) in
/-- **Tick after tick** the log is written from the cursor on. -/
theorem serveMoments_events {log : List EventRow} (hinc : Increasing EventRow.seq log)
    (moments : List Moment) (s : Stream)
    (h : ∀ rows rec, .tick rows rec ∈ moments → rows <+: log) :
    eventsOf (serveMoments workflowId ts s moments) <+: (after EventRow.seq s.cursor log).map
      (ofEventRow workflowId ts) := by
  induction moments generalizing s with
  | nil => exact List.nil_prefix
  | cons m later ih =>
    have hlater : ∀ rows rec, .tick rows rec ∈ later → rows <+: log :=
      fun rows rec hm => h rows rec (List.mem_cons_of_mem _ hm)
    cases m with
    | heartbeat =>
      unfold serveMoments
      split
      · exact List.nil_prefix
      · exact ih s hlater
    | tick rows rec =>
      unfold serveMoments
      split
      · exact List.nil_prefix
      · have hpage := eventPage_initial (h rows rec List.mem_cons_self) s.cursor
        have hpolled := Polled.of_after hinc hpage
        have hcursor : ((s.read rows).finish rec (eventPage rows s.cursor)).cursor =
            advance EventRow.seq s.cursor (eventPage rows s.cursor) := by
          refine (advance_last ?_ ?_).symm
          · exact List.Pairwise.sublist (hpage.sublist.trans List.filter_sublist) hinc
          · exact fun e he => (mem_after.mp (hpage.subset he)).2
        have hrest := ih ((s.read rows).finish rec (eventPage rows s.cursor)) hlater
        rw [hcursor] at hrest
        simp only [eventsOf_append, eventsOf_comment, eventsOf_rows, List.nil_append]
        rw [after_split hinc hpolled.le, ← hpolled.rows, List.map_append]
        exact (List.prefix_append_right_inj _).mpr hrest

/-- **A workflow's stream** is its log from the cursor on. -/
theorem workflowSource_serves : (workflowSource workflowId ts).Serves where
  plain afterId site := by
    intro i hi
    rcases List.mem_cons.mp hi with rfl | hi
    · exact oneLine_ofList (by decide)
    · exact serveMoments_plain _ _ i hi
  sent afterId site hwhole hinc hnonneg _ := by
    have hlog : (workflowSource workflowId ts).log site = site.log.map (ofEventRow workflowId ts) := List.append_nil _
    have hrows : Increasing EventRow.seq site.log := by
      have hinc : (site.log.map (ofEventRow workflowId ts)).Pairwise (fun a b => a.id < b.id) := hlog ▸ hinc
      have hrows := List.pairwise_map.mp hinc
      exact hrows
    have hsent := serveMoments_events workflowId ts hrows site.moments
      (.connect (lastEventId afterId)) hwhole
    have hcursor : (Stream.connect (lastEventId afterId)).cursor = max (afterId.getD (-1)) (-1) :=
      parseWorkflowCursor_header afterId
    have hsame : after EventRow.seq (max (afterId.getD (-1)) (-1)) site.log =
        after EventRow.seq (afterId.getD (-1)) site.log := by
      refine List.filter_congr fun r _ => decide_eq_decide.mpr ?_
      have hid : 0 ≤ r.seq := Int.natCast_nonneg _
      omega
    rw [hcursor, hsame] at hsent
    have hafter : after StreamEvent.id (afterId.getD (-1)) (site.log.map (ofEventRow workflowId ts)) =
        (after EventRow.seq (afterId.getD (-1)) site.log).map (ofEventRow workflowId ts) := by
      unfold after
      rw [List.filter_map]
      rfl
    rw [hlog, hafter]
    exact hsent

end

/-! ## The two kinds of streams -/

/-- **Collection is exact**, of tasks and of workflows: for every chunking of every response, every point where a poll
    stops and every growth of the log, successive polls return the events between the first cursor and the last,
    in order and each once. -/
theorem collection_exact (taskId workflowId : String) (ts : EventRow → String) :
    (taskSource taskId).Exact ∧ (workflowSource workflowId ts).Exact :=
  ⟨Source.exact_of_serves (taskSource_serves taskId), Source.exact_of_serves workflowSource_serves⟩

/-! ## Where it is not -/

def createdEvent : TaskEvent := ⟨0, .created, "", .obj []⟩

def startedEvent : TaskEvent := ⟨1, .started, "", .obj []⟩

def completedEvent : TaskEvent := ⟨1, .completed, "", .obj []⟩

/-- A poll that receives everything in one chunk. -/
def servedWhole (afterId : Option Int) (site : TaskSite) (status : String) : Poll TaskSite :=
  ⟨site, [streamBytes (handleEvents "t" (lastEventId afterId) site)], status⟩

/-- The task has not come to its end when the time of the poll is over, and has when its status is read. -/
def endsLate : Poll TaskSite := servedWhole (some (-1)) ⟨[], [createdEvent], true, false, 0, []⟩ "completed"

/-- The caller's cursor is ahead of the task. -/
def pushedBehind : Poll TaskSite := servedWhole (some 5) ⟨[], [createdEvent], true, false, 0, [startedEvent]⟩ "running"

theorem servedWhole_poll (afterId : Option Int) (site : TaskSite) (status : String) :
    (taskSource "t").poll afterId (servedWhole afterId site status) =
      (handleEvents "t" (lastEventId afterId) site).foldl (Collected.item endsTask taskNotice) (.start afterId) :=
  collect_whole endsTask taskNotice afterId (handleEvents_plain "t" _ site) (List.append_nil _)

/-- **A terminal status says nothing about the terminal event**: a wait that ends with `terminal: true` before the
    event, which is the next one of the log; and **what is pushed is sent whatever the cursor**: a poll that
    returns an event with an id below its cursor. -/
theorem terminal_before_event :
    ((taskSource "t").Grows [] [endsLate] ([createdEvent, completedEvent].map (ofTaskEvent "t")) ∧
      (taskSource "t").whole endsLate.site ∧ (taskSource "t").Delivered (some (-1)) [endsLate] ∧
      ((taskSource "t").waitFor none [endsLate]).terminal = true ∧
      ∀ e ∈ between StreamEvent.id (-1) ((taskSource "t").waitFor none [endsLate]).cursor
        ([createdEvent, completedEvent].map (ofTaskEvent "t")), endsTask e.type = false) ∧
    ((taskSource "t").whole pushedBehind.site ∧ (taskSource "t").Delivered (some 5) [pushedBehind] ∧
      (taskSource "t").runPolls (some 5) [pushedBehind] = ([.json (taskEventJson "t" startedEvent)], 5) ∧
      between StreamEvent.id 5 5 ((taskSource "t").log pushedBehind.site) = []) := by
  have hlate := servedWhole_poll (some (-1)) endsLate.site "completed"
  have hbehind := servedWhole_poll (some 5) pushedBehind.site "running"
  have hstop : (taskSource "t").stops endsLate.status = true := by decide +kernel
  obtain ⟨hcursor, hterminal⟩ := Source.waitFor_stop none hstop
  have hcursor : ((taskSource "t").waitFor none [endsLate]).cursor = 0 :=
    hcursor.trans ((congrArg Collected.lastSeq hlate).trans (by decide +kernel))
  refine ⟨⟨⟨List.nil_prefix, ⟨[ofTaskEvent "t" completedEvent], rfl⟩⟩, rfl, ⟨?_, trivial⟩, hterminal.trans hstop, ?_⟩, rfl, ⟨?_, trivial⟩, ?_, ?_⟩
  · exact ⟨[], (List.append_nil _).trans (List.append_nil _)⟩
  · rw [hcursor]
    decide +kernel
  · exact ⟨[], (List.append_nil _).trans (List.append_nil _)⟩
  · have hevents : ((taskSource "t").poll (some 5) pushedBehind).events = [.json (taskEventJson "t" startedEvent)] :=
      (congrArg Collected.events hbehind).trans (by decide +kernel)
    have hseq : ((taskSource "t").poll (some 5) pushedBehind).lastSeq = 5 :=
      (congrArg Collected.lastSeq hbehind).trans (by decide +kernel)
    rw [Source.runPolls_one, hevents, hseq]
  · decide +kernel

end VibeClient
