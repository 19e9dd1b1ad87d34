import VibeWorkflow.JournalProofs
import VibeWorkflow.TaskResultProofs

/-!
# Run events and their images

A run's events are JSON objects, one to a line of its log.  The Node journals each with its own
input (`journalInput`), and the Gateway maps it to a task event or to nothing
(`runEventToTaskEvent`).

* **`image_terminal`** — an event is terminal exactly when its image is.
-/

namespace VibeRun

open VibeJson VibeJournal
open VibeResult (field)
open VibeTask (isIsoUtc TaskEventInput IngestSourceEvent)

/-- The `type`, `ts` and `status` of an event, where they are texts. -/
def eventType (event : Json) : String := (field event "type").getD ""

def eventTs (event : Json) : String := (field event "ts").getD ""

def eventStatus (event : Json) : String := (field event "status").getD ""

def isTerminal (event : Json) : Bool := eventType event == "status" && terminalStatuses.contains (eventStatus event)

def journalStatusOf (event : Json) : Option String :=
  if eventType event = "status" then field event "status" else none

/-- What the tail hands to the journal; `now` stands in for a time that is not ISO-8601 UTC. -/
def journalInput (now : String) (event : Json) : RunEventInput where
  type := eventType event
  timestamp := if isIsoUtc (eventTs event) then eventTs event else now
  payload := some event
  terminal := isTerminal event
  status := journalStatusOf event

/-! ## Task events -/

inductive TaskEventType where
  | created | started | outputDelta | outputCompleted | completed | failed | cancelled
deriving DecidableEq, Repr

def TaskEventType.name : TaskEventType → String
  | .created => "task.created"
  | .started => "task.started"
  | .outputDelta => "agent.output.delta"
  | .outputCompleted => "agent.output.completed"
  | .completed => "task.completed"
  | .failed => "task.failed"
  | .cancelled => "task.cancelled"

/-- `TERMINAL_EVENT_TYPES`. -/
def TaskEventType.terminal : TaskEventType → Bool
  | .completed | .failed | .cancelled => true
  | _ => false

/-- `terminalStatusFor`. -/
def TaskEventType.terminalStatusFor : TaskEventType → String
  | .completed => "completed"
  | .failed => "failed"
  | _ => "cancelled"

structure TaskEvent where
  seq : Int
  type : TaskEventType
  ts : String
  payload : Json
deriving DecidableEq

/-- The type of the image of a status event. -/
def statusImage (status : String) : Option TaskEventType :=
  if status = "running" then some .started
  else if status = "completed" then some .completed
  else if status = "failed" then some .failed
  else if status = "stopped" ∨ status = "cancelled" then some .cancelled
  else none

/-- A field that is `undefined` is dropped from the payload's text. -/
def present (name : String) : Option Json → List (String × Json)
  | some v => [(name, v)]
  | none => []

def runEventToTaskEvent (event : Json) (seq : Int) : Option TaskEvent :=
  if eventType event = "status" then
    (statusImage (eventStatus event)).map fun type => ⟨seq, type, eventTs event, .obj []⟩
  else if eventType event = "log" then
    some ⟨seq, .outputDelta, eventTs event,
      .obj (present "stream" (event.get? "stream") ++ present "text" (event.get? "message"))⟩
  else none

def toEventInput (ev : TaskEvent) : TaskEventInput :=
  ⟨JsNum.ofInt ev.seq, ev.type.name, ev.ts, some ev.payload, none⟩

/-- What the replay pump hands to the store. -/
def toSourceEvent (ev : TaskEvent) : IngestSourceEvent where
  eventType := ev.type.name
  ts := ev.ts
  payload := some ev.payload
  terminal := ev.type.terminal
  status := if ev.type.terminal then some ev.type.terminalStatusFor else none
  errorCode := none
  errorMessage := none

/-- **An event is terminal** exactly when it has an image of a terminal type. -/
theorem image_terminal (event : Json) (seq : Int) :
    isTerminal event = true ↔ ∃ ev, runEventToTaskEvent event seq = some ev ∧ ev.type.terminal = true := by
  unfold isTerminal runEventToTaskEvent
  by_cases hs : eventType event = "status"
  · simp only [hs, beq_self_eq_true, Bool.true_and, if_true, List.contains_iff_mem, terminalStatuses]
    constructor
    · intro hmem
      simp only [List.mem_cons, List.not_mem_nil, or_false] at hmem
      rcases hmem with h | h | h | h
      · exact ⟨_, by rw [h]; rfl, rfl⟩
      · exact ⟨_, by rw [h]; rfl, rfl⟩
      · exact ⟨_, by rw [h]; rfl, rfl⟩
      · exact ⟨_, by rw [h]; rfl, rfl⟩
    · rintro ⟨ev, hev, hterm⟩
      obtain ⟨type, htype, rfl⟩ := Option.map_eq_some_iff.mp hev
      unfold statusImage at htype
      split at htype
      · cases htype
        exact nomatch hterm
      split at htype
      · simp [*]
      split at htype
      · simp [*]
      split at htype
      · rename_i h
        rcases h with h | h <;> simp [h]
      · exact nomatch htype
  · have hne : (eventType event == "status") = false := beq_false_of_ne hs
    simp only [hne, Bool.false_and, if_neg hs]
    constructor
    · exact nofun
    · rintro ⟨ev, hev, hterm⟩
      split at hev
      · cases hev
        exact nomatch hterm
      · exact nomatch hev

/-- An image carries the number it is given. -/
theorem image_seq {event : Json} {seq : Int} {ev : TaskEvent}
    (h : runEventToTaskEvent event seq = some ev) : ev.seq = seq := by
  unfold runEventToTaskEvent at h
  split at h
  · obtain ⟨type, -, rfl⟩ := Option.map_eq_some_iff.mp h
    rfl
  split at h
  · cases h
    rfl
  · exact nomatch h

theorem name_valid (type : TaskEventType) : VibeTask.isTaskEventType type.name = true := by
  cases type <;> decide +kernel

theorem terminalStatus_mem {type : TaskEventType} (h : type.terminal = true) :
    type.terminalStatusFor ∈ ["completed", "failed", "cancelled"] := by
  cases type with
  | completed => simp [TaskEventType.terminalStatusFor]
  | failed => simp [TaskEventType.terminalStatusFor]
  | cancelled => simp [TaskEventType.terminalStatusFor]
  | created => exact nomatch h
  | started => exact nomatch h
  | outputDelta => exact nomatch h
  | outputCompleted => exact nomatch h

end VibeRun
