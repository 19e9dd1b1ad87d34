import VibeWorkflow.FinalityProofs
import VibeWorkflow.RetainedLogProofs

/-!
# The API's snapshot and the event log

The snapshot of a workflow that has ended reports why: the reason, and for a completed one whether
the completion was verified.  Neither is a column; `buildSnapshotView` reads them off the event log,
scanning one page of it backwards.  The page is the first one: the oldest thousand events that
retention has left.

* `EndedLog` — the log of every reachable workflow: once it has ended there is one ending event, it
  names the status the row has, and what follows it neither ends nor blocks;
* **`snapshot_reports`** — in every run, with retention at any moments, the snapshot reports what the
  ending event carries exactly when that event is on the first page, or carries nothing that the
  page does not say as well.
-/

namespace VibeRuntime

open VibeJson VibeContract VibeRouting VibeTemplate VibeValidator VibeStore VibeAdmission VibeControl
open AsyncLogic

/-! ## Event rows -/

/-- A row of `workflow_events`. -/
structure EventRow where
  sequence : Nat
  event : WorkflowEvent
deriving DecidableEq

/-- The rows of a log from which nothing was pruned: sequences count from 0. -/
def eventRows (db : Db) : List EventRow := db.events.zipIdx.map fun p => ⟨p.2, p.1⟩

def clampLimit (n : Nat) : Nat := if 0 < n then min n 10000 else 1000

/-- `WHERE sequence > ? ORDER BY sequence ASC LIMIT ?`; the rows stand in the order of their sequences. -/
def listWorkflowEvents (rows : List EventRow) (afterSequence : Int) (limit : Nat) : List WorkflowEvent :=
  ((rows.filter fun r => decide (afterSequence < (r.sequence : Int))).take (clampLimit limit)).map EventRow.event

def EventRow.seq (r : EventRow) : Int := r.sequence

/-- `pruneEventsSync`, for a `keepLast` that is a non-negative integer. -/
def pruneEventsSync (rows : List EventRow) (keepLast : Nat) : List EventRow :=
  match RetainedLog.boundary EventRow.seq keepLast rows with
  | none => rows
  | some cutoff => RetainedLog.after EventRow.seq cutoff rows

/-! ## The view -/

/-- `{ reason }` of a payload: its `reason`, else its `limit`; `null` if it is no object. -/
def payloadReason (payload : Json) : Option (Option String) :=
  match payload with
  | .obj _ | .arr _ =>
    some (match (payload.get? "reason").bind Json.str? with
      | some r => some r
      | none => ((payload.get? "limit").bind Json.str?).map ("limit_" ++ ·))
  | _ => none

/-- The loop of `reasonFromEvents`, over the events from the last one on. -/
def reasonScan : List WorkflowEvent → Option (Option String)
  | [] => none
  | e :: rest =>
    if e.type = .workflowFailed ∨ e.type = .workflowBlocked then payloadReason e.payload
    else if e.type = .workflowCompleted ∨ e.type = .workflowCancelled then none
    else reasonScan rest

def reasonFromEvents (events : List WorkflowEvent) : Option (Option String) := reasonScan events.reverse

inductive Verification where
  | verified | legacyUnverified
deriving DecidableEq, Repr

def payloadVerification (payload : Json) : Verification :=
  if payload.get? "verified" = some (.bool true) then .verified else .legacyUnverified

/-- The loop of `completionVerificationFromEvents`. -/
def verificationScan : List WorkflowEvent → Option Verification
  | [] => none
  | e :: rest => if e.type = .workflowCompleted then some (payloadVerification e.payload) else verificationScan rest

def completionVerificationFromEvents (events : List WorkflowEvent) : Option Verification :=
  verificationScan events.reverse

/-- The fields of the snapshot that are derived from the log. -/
structure SnapshotView where
  status : WorkflowStatus
  completionVerification : Option Verification
  reason : Option String
deriving DecidableEq

/-- `END_STATES`. -/
def endState : WorkflowStatus → Bool
  | .completed | .failed | .cancelled | .blocked => true
  | _ => false

/-- `reason?.reason ? { reason: reason.reason } : {}`. -/
def shownReason (reason : Option (Option String)) : Option String := reason.join.filter (· ≠ "")

/-- `buildSnapshotView`, over the workflow's row and the event rows that are retained. -/
def buildSnapshotView (db : Db) (rows : List EventRow) : SnapshotView :=
  let events := if endState db.wf.status then some (listWorkflowEvents rows (-1) 1000) else none
  { status := db.wf.status
    completionVerification :=
      if db.wf.status = .completed then events.bind completionVerificationFromEvents else none
    reason := shownReason (events.bind reasonFromEvents) }

/-! ## The log of a workflow -/

/-- An event the scans pass over. -/
def passed (e : WorkflowEvent) : Bool := !isFinalEvent e && e.type != .workflowBlocked

structure EndedLog (db : Db) : Prop where
  live : db.isTerminal = false → ∀ e ∈ db.events, isFinalEvent e = false
  ended : db.isTerminal = true → ∃ pre ev post, db.events = pre ++ ev :: post ∧
    endStatus ev.type = some db.wf.status ∧ (∀ e ∈ pre, isFinalEvent e = false) ∧ ∀ e ∈ post, passed e = true

theorem EndedLog.of_same {db db' : Db} (h : EndedLog db) (hev : db'.events = db.events)
    (hst : db'.wf.status = db.wf.status) : EndedLog db' := by
  have hend : db'.isTerminal = db.isTerminal := congrArg isTerminalWorkflowStatus hst
  constructor
  · rw [hend, hev]
    exact h.live
  · rw [hend, hev, hst]
    exact h.ended

/-- A step's write on a workflow that has ended appends events the scans pass over. -/
theorem EndedLog.late {db db' : Db} (new : List WorkflowEvent) (h : EndedLog db) (hend : db.isTerminal = true)
    (hst : db'.wf.status = db.wf.status) (hev : db'.events = db.events ++ new)
    (hnew : ∀ e ∈ new, passed e = true) : EndedLog db' := by
  have hend' : db'.isTerminal = true := (congrArg isTerminalWorkflowStatus hst).trans hend
  constructor
  · intro hlive
    rw [hend'] at hlive
    exact nomatch hlive
  · intro _
    obtain ⟨pre, ev, post, hsplit, hstatus, hpre, hpost⟩ := h.ended hend
    refine ⟨pre, ev, post ++ new, ?_, ?_, hpre, ?_⟩
    · rw [hev, hsplit, List.append_assoc, List.cons_append]
    · rw [hst]
      exact hstatus
    · intro e he
      exact (List.mem_append.mp he).elim (hpost e) (hnew e)

theorem passed_of_type {e : WorkflowEvent} {t : EventType} (h : e.type = t) (hf : isFinalType t = false)
    (hb : t ≠ .workflowBlocked) : passed e = true := by
  unfold passed isFinalEvent
  rw [h, hf]
  simpa using hb

/-- A guarded call on a workflow that has ended. -/
theorem EndedLog.callLate {op : Op} {w w' : World} (h : EndedLog w.db) (hg : EventGuard op) (heff : Effect op w w')
    (hend : w.db.isTerminal = true) : EndedLog w'.db := by
  by_cases hlate : op.writesLate w.db = true
  · have hone : ∀ {ev : WorkflowEvent} {t : EventType}, ev.type = t → isFinalType t = false → t ≠ .workflowBlocked →
        ∀ e ∈ [ev], passed e = true := by
      intro ev t ht hf hb e he
      rw [List.mem_singleton.mp he]
      exact passed_of_type ht hf hb
    have hdead : ∀ {p : Prop}, w.db.isTerminal = false → p := by
      intro p hf
      rw [hend] at hf
      exact nomatch hf
    cases heff with
    | stepStarted _ => exact h.late _ hend rfl rfl (hone hg rfl nofun)
    | bound _ _ => exact h.late _ hend rfl rfl (hone hg rfl nofun)
    | completed _ _ => exact h.late _ hend rfl rfl (hone hg rfl nofun)
    | @advanced _ edgeEv roundEv _ startedEv _ _ =>
      obtain ⟨hedge, hround, hstarted⟩ := hg
      refine h.late (edgeEv :: roundEv.toList ++ [startedEv]) hend rfl (List.append_assoc _ _ _) ?_
      intro e he
      rcases List.mem_append.mp he with he | he
      · rcases List.mem_cons.mp he with rfl | he
        · exact passed_of_type hedge rfl nofun
        · exact passed_of_type (hround e (Option.mem_toList.mp he)) rfl nofun
      · exact hone hstarted rfl nofun e he
    | stepFailed _ _ hlive => exact hdead hlive
    | stepFailedLate _ _ _ => exact h.late _ hend rfl rfl (hone hg.1 rfl nofun)
    | failedOnly _ _ hlive => exact hdead hlive
    | same => exact h
    | noted _ => exact h.of_same rfl rfl
    | looked => exact nomatch hlate
    | started _ => exact nomatch hlate
    | terminalized _ _ => exact nomatch hlate
    | cancelled _ => exact nomatch hlate
    | askedPaused _ _ _ => exact nomatch hlate
    | paused _ => exact nomatch hlate
    | rejected _ _ _ => exact nomatch hlate
    | resumed _ => exact nomatch hlate
    | _ => exact h.of_same rfl rfl
  · have hfrozen := heff.frozen hend (by simpa using hlate)
    exact h.of_same (congrArg Frozen.events hfrozen) (congrArg Frozen.status hfrozen)

/-- A write on a workflow that has not ended. -/
theorem EndedLog.live_write {db db' : Db} (h : EndedLog db) (hend : db.isTerminal = false) (hw : LiveWrite db db') :
    EndedLog db' := by
  have hold : ∀ {new : List WorkflowEvent}, (∀ e ∈ new, isFinalEvent e = false) →
      ∀ e ∈ db.events ++ new, isFinalEvent e = false :=
    fun hnew e he => (List.mem_append.mp he).elim (h.live hend e) (hnew e)
  rcases hw with ⟨new, hlive, hev, hnew⟩ | ⟨new, ev, hend', hev, hnew, hstatus⟩
  · refine ⟨fun _ => ?_, fun hend' => ?_⟩
    · rw [hev]
      exact hold hnew
    · rw [hlive] at hend'
      cases hend'
  · refine ⟨fun hlive => ?_, fun _ => ⟨_, ev, [], hev, hstatus, hold hnew, fun _ he => absurd he List.not_mem_nil⟩⟩
    rw [hend'] at hlive
    cases hlive

/-- Every move leaves the rows alone or is the effect of a guarded call. -/
theorem Move.guarded {cfg : Config} {s : Sys} {a : Action} {w' : World} (hm : Move cfg s a w') :
    w'.db = s.w.db ∨ ∃ op, EventGuard op ∧ Effect op s.w w' := by
  cases hm with
  | pump hop hj hex => exact Or.inr ⟨_, nextOp_events (Or.inl hj), exec_effect hex⟩
  | call hop hg hex => exact Or.inr ⟨_, nextOp_events (Or.inr hg), exec_effect hex⟩
  | @wake who op r hw => rcases noteWake_db op r s.w with h | h <;> exact Or.inl (by rw [h])
  | invoke => exact Or.inl (by split <;> rfl)
  | deliver hreq hd => rcases World.deliver_cases hd with ⟨rfl, -⟩ | ⟨rfl, -⟩ <;> exact Or.inl rfl
  | _ => exact Or.inl rfl

theorem endedLog_move {cfg : Config} {s : Sys} {a : Action} {w' : World} (hm : Move cfg s a w')
    (h : EndedLog s.w.db) : EndedLog w'.db := by
  rcases hm.guarded with hdb | ⟨op, hg, heff⟩
  · rw [hdb]
    exact h
  · cases hend : s.w.db.isTerminal with
    | true => exact h.callLate hg heff hend
    | false => exact h.live_write hend (heff.live_write hg hend)

/-- **The log of every reachable workflow.** -/
theorem reach_endedLog {cfg : Config} {ok : Sys → Action → Prop} {s : Sys} (h : Reach cfg ok s) :
    EndedLog s.w.db := by
  refine reach_world (P := fun w => EndedLog w.db) ?_ (fun _ _ _ _ _ hm hP => endedLog_move hm hP) h
  exact ⟨(initial_finalLog cfg).live, fun hend => (nomatch hend)⟩

/-- Events are only appended. -/
theorem step_appends {cfg : Config} {ok : Sys → Action → Prop} {s s' : Sys} {a : Action} (h : Reach cfg ok s)
    (hs : step cfg s a = some s') : ∃ new, s'.w.db.events = s.w.db.events ++ new := by
  rcases ((step_move (reach_inv h) hs).2).guarded with hdb | ⟨op, -, heff⟩
  · exact ⟨[], by rw [hdb, List.append_nil]⟩
  · exact heff.events

/-! ## Runs with retention -/

/-- A run of the system in which the event rows may be cut at any moment, down to the last one. -/
inductive StoredRun (cfg : Config) : Sys → List EventRow → Prop
  | start : StoredRun cfg (initial cfg) (eventRows (initial cfg).w.db)
  | step {s s' : Sys} {a : Action} {rows : List EventRow} (run : StoredRun cfg s rows)
      (next : step cfg s a = some s') :
      StoredRun cfg s' (rows ++ (eventRows s'.w.db).drop s.w.db.events.length)
  | prune {s : Sys} {rows : List EventRow} (keepLast : Nat) (keeps : 0 < keepLast) (run : StoredRun cfg s rows) :
      StoredRun cfg s (pruneEventsSync rows keepLast)

theorem eventRows_length (db : Db) : (eventRows db).length = db.events.length := by simp [eventRows]

theorem eventRows_event (db : Db) : (eventRows db).map EventRow.event = db.events := by
  simp only [eventRows, List.map_map]
  exact List.zipIdx_map_fst 0 db.events

theorem eventRows_seq (db : Db) : (eventRows db).map EventRow.seq = RetainedLog.span 0 db.events.length := by
  refine List.ext_getElem (by simp [eventRows, RetainedLog.span]) fun i h₁ h₂ => ?_
  simp [eventRows, RetainedLog.span, EventRow.seq]

theorem eventRows_append {db db' : Db} {new : List WorkflowEvent} (h : db'.events = db.events ++ new) :
    eventRows db' = eventRows db ++ (eventRows db').drop db.events.length := by
  have htake : (eventRows db').take db.events.length = eventRows db := by
    refine List.ext_getElem (by simp [eventRows, h]) fun i h₁ h₂ => ?_
    simp only [eventRows, h, List.getElem_take, List.getElem_map, List.getElem_zipIdx]
    have hi : i < db.events.length := by simpa [eventRows] using h₂
    rw [List.getElem_append_left hi]
  calc eventRows db' = (eventRows db').take db.events.length ++ (eventRows db').drop db.events.length :=
        (List.take_append_drop _ _).symm
    _ = _ := by rw [htake]

/-- Retained rows carry the sequences from the first one on. -/
theorem retained_seq (db : Db) (k : Nat) :
    ((eventRows db).drop k).map EventRow.seq = RetainedLog.span k ((eventRows db).drop k).length := by
  rw [List.map_drop, eventRows_seq, List.length_drop, eventRows_length]
  refine List.ext_getElem (by simp [RetainedLog.span]) fun i h₁ h₂ => ?_
  simp [RetainedLog.span]

theorem prune_retained (db : Db) (k keepLast : Nat) :
    pruneEventsSync ((eventRows db).drop k) keepLast =
      (eventRows db).drop (k + (db.events.length - k - keepLast)) := by
  have hcut := RetainedLog.cut_eq_drop (retained_seq db k) keepLast
  rw [List.drop_drop, List.length_drop, eventRows_length] at hcut
  exact hcut

/-- **The rows of a run** are those of the log from some row on, and the last one is among them. -/
theorem storedRun_rows {cfg : Config} {s : Sys} {rows : List EventRow} (h : StoredRun cfg s rows) :
    Reach cfg anyStep s ∧ ∃ k, k < s.w.db.events.length ∧ rows = (eventRows s.w.db).drop k := by
  induction h with
  | start => exact ⟨.start, 0, Nat.zero_lt_succ _, rfl⟩
  | @step s s' a rows _ hs ih =>
    obtain ⟨hreach, k, hk, rfl⟩ := ih
    obtain ⟨new, hnew⟩ := step_appends hreach hs
    refine ⟨.step hreach trivial hs, k, ?_, ?_⟩
    · rw [hnew, List.length_append]
      omega
    · conv_rhs => rw [eventRows_append hnew]
      rw [List.drop_append_of_le_length (by rw [eventRows_length]; omega)]
  | @prune s rows keepLast hkeep _ ih =>
    obtain ⟨hreach, k, hk, rfl⟩ := ih
    refine ⟨hreach, k + (s.w.db.events.length - k - keepLast), by omega, ?_⟩
    exact prune_retained s.w.db k keepLast

/-- The page the snapshot reads. -/
theorem firstPage (db : Db) (k : Nat) :
    listWorkflowEvents ((eventRows db).drop k) (-1) 1000 = (db.events.drop k).take 1000 := by
  have hall : (((eventRows db).drop k).filter fun r => decide ((-1 : Int) < (r.sequence : Int))) =
      (eventRows db).drop k := List.filter_eq_self.mpr fun r _ => decide_eq_true (by omega)
  unfold listWorkflowEvents
  rw [hall, List.map_take, List.map_drop, eventRows_event]
  rfl

/-! ## Scanning a page -/

theorem reasonScan_cons {e : WorkflowEvent} (rest : List WorkflowEvent) (h : passed e = true) :
    reasonScan (e :: rest) = reasonScan rest := by
  unfold passed isFinalEvent at h
  show (if e.type = .workflowFailed ∨ e.type = .workflowBlocked then payloadReason e.payload
    else if e.type = .workflowCompleted ∨ e.type = .workflowCancelled then none else reasonScan rest) = _
  cases htype : e.type <;> rw [htype] at h <;> first | rfl | exact nomatch h

theorem reasonScan_passed {l rest : List WorkflowEvent} (h : ∀ e ∈ l, passed e = true) :
    reasonScan (l ++ rest) = reasonScan rest := by
  induction l with
  | nil => rfl
  | cons e l ih =>
    rw [List.cons_append, reasonScan_cons _ (h e List.mem_cons_self)]
    exact ih fun e he => h e (List.mem_cons_of_mem _ he)

theorem verificationScan_open {l rest : List WorkflowEvent} (h : ∀ e ∈ l, isFinalEvent e = false) :
    verificationScan (l ++ rest) = verificationScan rest := by
  induction l with
  | nil => rfl
  | cons e l ih =>
    have hopen := h e List.mem_cons_self
    have hne : e.type ≠ .workflowCompleted := by
      intro htype
      rw [isFinalEvent_of_type htype] at hopen
      exact nomatch hopen
    show (if e.type = .workflowCompleted then some (payloadVerification e.payload)
      else verificationScan (l ++ rest)) = _
    rw [if_neg hne]
    exact ih fun e he => h e (List.mem_cons_of_mem _ he)

/-- **What an ending event carries**, by the fields of its payload: the reason of a failure is the text under
    `reason`, or where no text stands there the limit that is named under `limit`; an empty text is none. -/
def CarriesReason (ev : WorkflowEvent) (r : String) : Prop :=
  ev.type = .workflowFailed ∧ r ≠ "" ∧ (ev.payload.get? "reason" = some (.str r) ∨
    (∀ t, ev.payload.get? "reason" ≠ some (.str t)) ∧ ∃ l, ev.payload.get? "limit" = some (.str l) ∧ r = "limit_" ++ l)

/-- A completion that its payload marks as verified. -/
def CarriesVerified (ev : WorkflowEvent) : Prop :=
  ev.type = .workflowCompleted ∧ ev.payload.get? "verified" = some (.bool true)

/-- The view reports what the event carries: this reason and no other, and a completion as it was
    verified or not. -/
structure SnapshotView.Reports (v : SnapshotView) (ev : WorkflowEvent) : Prop where
  reason : ∀ r, v.reason = some r ↔ CarriesReason ev r
  verified : v.completionVerification = some .verified ↔ CarriesVerified ev
  legacy : v.completionVerification = some .legacyUnverified ↔ ev.type = .workflowCompleted ∧ ¬ CarriesVerified ev

/-- The reason that the scan finds on an ending event. -/
def carriedReason (ev : WorkflowEvent) : Option String :=
  if ev.type = .workflowFailed then shownReason (payloadReason ev.payload) else none

/-- And the verification. -/
def carriedVerification (ev : WorkflowEvent) : Option Verification :=
  if ev.type = .workflowCompleted then some (payloadVerification ev.payload) else none

/-- A field that holds a text. -/
theorem textField_iff (payload : Json) (k r : String) :
    (payload.get? k).bind Json.str? = some r ↔ payload.get? k = some (.str r) := by
  rw [Option.bind_eq_some_iff]
  constructor
  · rintro ⟨j, hj, hr⟩
    cases j <;> cases hr
    exact hj
  · exact fun h => ⟨.str r, h, rfl⟩

theorem payloadReason_iff (payload : Json) (r : String) :
    shownReason (payloadReason payload) = some r ↔ r ≠ "" ∧ (payload.get? "reason" = some (.str r) ∨
      (∀ t, payload.get? "reason" ≠ some (.str t)) ∧ ∃ l, payload.get? "limit" = some (.str l) ∧ r = "limit_" ++ l) := by
  have hshown : shownReason (payloadReason payload) = (((payload.get? "reason").bind Json.str?).or
      (((payload.get? "limit").bind Json.str?).map ("limit_" ++ ·))).filter (· ≠ "") := by
    cases payload with
    | obj kvs =>
      unfold payloadReason
      cases ((Json.obj kvs).get? "reason").bind Json.str? <;> rfl
    | _ => rfl
  rw [hshown, Option.filter_eq_some_iff, Option.or_eq_some_iff, textField_iff, Option.bind_eq_none_iff,
    Option.map_eq_some_iff, decide_eq_true_iff, and_comm]
  refine and_congr_right fun _ => or_congr_right (and_congr ?_ ?_)
  · constructor
    · intro h t ht
      cases h _ ht
    · intro h j hj
      cases j <;> first | rfl | exact absurd hj (h _)
  · exact exists_congr fun l => and_congr (textField_iff payload "limit" l) eq_comm

/-- **The scan finds what is carried.** -/
theorem carriedReason_iff (ev : WorkflowEvent) (r : String) : carriedReason ev = some r ↔ CarriesReason ev r := by
  unfold carriedReason CarriesReason
  by_cases h : ev.type = .workflowFailed
  · rw [if_pos h, payloadReason_iff, and_iff_right h]
  · rw [if_neg h]
    exact iff_of_false (fun hr => by cases hr) fun hr => h hr.1

theorem reports_iff {v : SnapshotView} {ev : WorkflowEvent} :
    v.Reports ev ↔ v.reason = carriedReason ev ∧ v.completionVerification = carriedVerification ev := by
  have hreason : (∀ r, v.reason = some r ↔ CarriesReason ev r) ↔ v.reason = carriedReason ev := by
    simp only [← carriedReason_iff]
    exact Option.ext_iff.symm
  have hverified : (v.completionVerification = some .verified ↔ CarriesVerified ev) ∧
      (v.completionVerification = some .legacyUnverified ↔ ev.type = .workflowCompleted ∧ ¬ CarriesVerified ev) ↔
      v.completionVerification = carriedVerification ev := by
    unfold CarriesVerified carriedVerification payloadVerification
    by_cases hc : ev.type = .workflowCompleted <;> by_cases hv : ev.payload.get? "verified" = some (.bool true) <;>
      rcases v.completionVerification with _ | _ | _ <;> simp [hc, hv]
  rw [← hreason, ← hverified]
  exact ⟨fun h => ⟨h.reason, h.verified, h.legacy⟩, fun h => ⟨h.1, h.2.1, h.2.2⟩⟩

theorem passed_open {e : WorkflowEvent} (h : passed e = true) : isFinalEvent e = false := by
  unfold passed at h
  simpa using (Bool.and_eq_true_iff.mp h).1

/-- A page with the ending event on it: nothing that follows hides it. -/
theorem scans_at_ending {page before after : List WorkflowEvent} {ev : WorkflowEvent} {status : WorkflowStatus}
    (hpage : page = before ++ ev :: after) (hend : endStatus ev.type = some status)
    (hafter : ∀ e ∈ after, passed e = true) :
    shownReason (reasonFromEvents page) = carriedReason ev ∧
      completionVerificationFromEvents page = if status = .completed then carriedVerification ev
        else verificationScan before.reverse := by
  have hrev : page.reverse = after.reverse ++ ev :: before.reverse := by
    rw [hpage, List.reverse_append, List.reverse_cons, List.append_assoc]
    rfl
  have hback : ∀ e ∈ after.reverse, passed e = true := fun e he => hafter e (List.mem_reverse.mp he)
  unfold reasonFromEvents completionVerificationFromEvents
  rw [hrev, reasonScan_passed hback, verificationScan_open fun e he => passed_open (hback e he)]
  unfold carriedReason carriedVerification
  constructor
  · show shownReason (if ev.type = .workflowFailed ∨ ev.type = .workflowBlocked then payloadReason ev.payload
      else if ev.type = .workflowCompleted ∨ ev.type = .workflowCancelled then none else reasonScan before.reverse) = _
    cases htype : ev.type <;> rw [htype] at hend <;> first | rfl | exact nomatch hend
  · show (if ev.type = .workflowCompleted then some (payloadVerification ev.payload)
      else verificationScan before.reverse) = _
    cases htype : ev.type <;> rw [htype] at hend <;>
      first
        | (obtain rfl := Option.some.inj hend; rfl)
        | exact nomatch hend

/-- A page without it shows no verification. -/
theorem scan_open {page : List WorkflowEvent} (h : ∀ e ∈ page, isFinalEvent e = false) :
    completionVerificationFromEvents page = none := by
  have hback : ∀ e ∈ page.reverse, isFinalEvent e = false := fun e he => h e (List.mem_reverse.mp he)
  have hscan := @verificationScan_open page.reverse [] hback
  rw [List.append_nil] at hscan
  exact hscan

/-- The reason of the last event on a page that blocked the workflow. -/
def lastBlockedReason (events : List WorkflowEvent) : Option (Option String) :=
  (events.reverse.find? fun e => e.type = .workflowBlocked).bind fun e => payloadReason e.payload

/-- A page without the ending event shows what blocked the workflow last. -/
theorem reason_open {page : List WorkflowEvent} (h : ∀ e ∈ page, isFinalEvent e = false) :
    reasonFromEvents page = lastBlockedReason page := by
  unfold reasonFromEvents lastBlockedReason
  have hback : ∀ e ∈ page.reverse, isFinalEvent e = false := fun e he => h e (List.mem_reverse.mp he)
  generalize page.reverse = l at hback
  induction l with
  | nil => rfl
  | cons e l ih =>
    have hrest := ih fun e he => hback e (List.mem_cons_of_mem _ he)
    by_cases hb : e.type = .workflowBlocked
    · rw [List.find?_cons_of_pos (by simpa using hb)]
      exact if_pos (Or.inr hb)
    · rw [List.find?_cons_of_neg (by simpa using hb), ← hrest]
      refine reasonScan_cons l ?_
      unfold passed
      rw [hback e List.mem_cons_self]
      simpa using hb

/-- The page of a split log. -/
theorem page_cases {pre post : List WorkflowEvent} {ev : WorkflowEvent} (k n : Nat) :
    (k ≤ pre.length ∧ pre.length < k + n ∧ ∃ after, ((pre ++ ev :: post).drop k).take n = pre.drop k ++ ev :: after ∧
      ∀ e ∈ after, e ∈ post) ∨
    (¬ (k ≤ pre.length ∧ pre.length < k + n) ∧ ∀ e ∈ ((pre ++ ev :: post).drop k).take n, e ∈ pre ∨ e ∈ post) := by
  by_cases hk : k ≤ pre.length
  · rw [List.drop_append_of_le_length hk]
    by_cases hn : pre.length < k + n
    · refine .inl ⟨hk, hn, post.take (n - (pre.length - k) - 1), ?_, fun e he => List.mem_of_mem_take he⟩
      rw [List.take_append, List.length_drop, List.take_of_length_le (by rw [List.length_drop]; omega)]
      obtain ⟨m, hm⟩ : ∃ m, n - (pre.length - k) = m + 1 := ⟨n - (pre.length - k) - 1, by omega⟩
      rw [hm, List.take_succ_cons]
      rfl
    · refine .inr ⟨fun h => hn h.2, fun e he => .inl ?_⟩
      rw [List.take_append_of_le_length (by rw [List.length_drop]; omega)] at he
      exact List.mem_of_mem_drop (List.mem_of_mem_take he)
  · refine .inr ⟨fun h => hk h.1, fun e he => .inr ?_⟩
    obtain ⟨m, rfl⟩ : ∃ m, k = pre.length + (m + 1) := ⟨k - pre.length - 1, by omega⟩
    rw [List.drop_append, List.drop_eq_nil_of_le (by omega), List.nil_append] at he
    have hdrop : pre.length + (m + 1) - pre.length = m + 1 := by omega
    rw [hdrop, List.drop_succ_cons] at he
    exact List.mem_of_mem_drop (List.mem_of_mem_take he)

/-- Which rows are on the first page. -/
theorem mem_page {db : Db} {k n i : Nat} {ev : WorkflowEvent} (h : db.events[i]? = some ev) :
    (⟨i, ev⟩ : EventRow) ∈ ((eventRows db).drop k).take n ↔ k ≤ i ∧ i < k + n := by
  have hrow : ∀ j, (((eventRows db).drop k).take n)[j]? =
      if j < n then db.events[k + j]?.map (fun e => ⟨k + j, e⟩) else none := by
    intro j
    rw [List.getElem?_take]
    split
    · rw [List.getElem?_drop]
      simp [eventRows, List.getElem?_zipIdx, Option.map_map, Function.comp_def]
    · rfl
  rw [List.mem_iff_getElem?]
  constructor
  · rintro ⟨j, hj⟩
    rw [hrow] at hj
    split at hj
    · obtain ⟨e, -, heq⟩ := Option.map_eq_some_iff.mp hj
      have hseq : k + j = i := congrArg EventRow.sequence heq
      omega
    · exact nomatch hj
  · rintro ⟨hk, hn⟩
    refine ⟨i - k, ?_⟩
    have hi : k + (i - k) = i := by omega
    rw [hrow, if_pos (by omega), hi, h]
    rfl

theorem carriedVerification_iff {ev : WorkflowEvent} {status : WorkflowStatus}
    (h : endStatus ev.type = some status) : none = carriedVerification ev ↔ status ≠ .completed := by
  unfold carriedVerification
  cases htype : ev.type <;> rw [htype] at h <;>
    first
      | (obtain rfl := Option.some.inj h; simp)
      | exact nomatch h

/-- **The snapshot and the log.**  In every run, whatever was pruned down to the last event, a workflow
    that has ended has one ending event, and its snapshot reports what that event carries exactly when
    its row is among the first thousand that are retained — or when it carries nothing the page would
    not show anyway: the workflow did not complete, and the last blocking event on the page (if there
    is one) gives the same reason. -/
theorem snapshot_reports {cfg : Config} {s : Sys} {rows : List EventRow} (h : StoredRun cfg s rows)
    (hend : s.w.db.isTerminal = true) :
    ∃ i ev, s.w.db.events[i]? = some ev ∧ endStatus ev.type = some s.w.db.wf.status ∧
      (∀ j e, s.w.db.events[j]? = some e → isFinalEvent e = true → j = i) ∧
      ((buildSnapshotView s.w.db rows).Reports ev ↔
        ⟨i, ev⟩ ∈ rows.take 1000 ∨
          (s.w.db.wf.status ≠ .completed ∧
            ∀ r, shownReason (lastBlockedReason ((rows.take 1000).map EventRow.event)) = some r ↔
              CarriesReason ev r)) := by
  obtain ⟨hreach, k, hk, rfl⟩ := storedRun_rows h
  obtain ⟨pre, ev, post, hsplit, hstatus, hpre, hpost⟩ := (reach_endedLog hreach).ended hend
  have hget : s.w.db.events[pre.length]? = some ev := by
    rw [hsplit, List.getElem?_append_right (Nat.le_refl _), Nat.sub_self]
    rfl
  refine ⟨pre.length, ev, hget, hstatus, ?_, ?_⟩
  · -- every other event ends nothing
    intro j e hj hfinal
    rw [hsplit] at hj
    by_contra hne
    have hother : e ∈ pre ∨ e ∈ post := by
      rcases Nat.lt_or_gt_of_ne hne with hlt | hgt
      · rw [List.getElem?_append_left hlt] at hj
        exact .inl (List.mem_of_getElem? hj)
      · rw [List.getElem?_append_right (by omega)] at hj
        obtain ⟨m, hm⟩ : ∃ m, j - pre.length = m + 1 := ⟨j - pre.length - 1, by omega⟩
        rw [hm, List.getElem?_cons_succ] at hj
        exact .inr (List.mem_of_getElem? hj)
    have hopen : isFinalEvent e = false := hother.elim (hpre e) fun he => passed_open (hpost e he)
    rw [hopen] at hfinal
    exact nomatch hfinal
  · have hends : endState s.w.db.wf.status = true := by
      unfold Db.isTerminal at hend
      cases hs : s.w.db.wf.status <;> rw [hs] at hend <;> first | rfl | exact nomatch hend
    have hpage : (((eventRows s.w.db).drop k).take 1000).map EventRow.event = (s.w.db.events.drop k).take 1000 := by
      rw [List.map_take, List.map_drop, eventRows_event]
    have hview : buildSnapshotView s.w.db ((eventRows s.w.db).drop k) =
        ⟨s.w.db.wf.status,
          if s.w.db.wf.status = .completed then completionVerificationFromEvents ((s.w.db.events.drop k).take 1000)
            else none,
          shownReason (reasonFromEvents ((s.w.db.events.drop k).take 1000))⟩ := by
      unfold buildSnapshotView
      rw [if_pos hends, firstPage]
      rfl
    rw [mem_page hget, hview, hpage]
    simp only [← carriedReason_iff, ← Option.ext_iff]
    rw [reports_iff]
    rcases @page_cases pre post ev k 1000 with
      ⟨hle, hlt, after, hat, hafter⟩ | ⟨hoff, hother⟩
    · -- the ending event is on the page
      refine iff_of_true ?_ (.inl ⟨hle, hlt⟩)
      rw [hsplit]
      obtain ⟨hreason, hver⟩ := scans_at_ending hat hstatus fun e he => hpost e (hafter e he)
      refine ⟨hreason, ?_⟩
      show (if _ then _ else none) = _
      split
      · rename_i hcompleted
        rw [hver, if_pos hcompleted]
      · rename_i hcompleted
        exact (carriedVerification_iff hstatus).mpr hcompleted
    · -- the page ends nothing
      rw [← hsplit] at hother
      have hopen : ∀ e ∈ (s.w.db.events.drop k).take 1000, isFinalEvent e = false := by
        intro e he
        exact (hother e he).elim (hpre e) fun he => passed_open (hpost e he)
      rw [or_iff_right hoff, reason_open hopen, scan_open hopen, ite_self, carriedVerification_iff hstatus]
      exact and_comm

/-- Without retention every row is there. -/
theorem storedRun_of_reach {cfg : Config} {s : Sys} (h : Reach cfg anyStep s) : StoredRun cfg s (eventRows s.w.db) := by
  induction h with
  | start => exact .start
  | @step s s' a hreach _ hs ih =>
    obtain ⟨new, hnew⟩ := step_appends hreach hs
    rw [eventRows_append hnew]
    exact .step ih hs

/-- A workflow that ran to its end is reported as a verified completion. -/
theorem completed_reported : ∃ s, StoredRun oneStep s (eventRows s.w.db) ∧ s.w.db.wf.status = .completed ∧
    ∃ (i : Nat) (ev : WorkflowEvent), s.w.db.events[i]? = some ev ∧
      (buildSnapshotView s.w.db (eventRows s.w.db)).Reports ev := by
  obtain ⟨s, hs, hP⟩ := reach_exists oneStep anyStep (fun _ _ => true) (fun _ _ _ => trivial)
    (startActions ++ renderActions ++ bindActions ++ resultActions ++ routeActions.dropLast)
    (fun s => decide (s.w.db.wf.status = .completed ∧ s.w.db.events.length ≤ 1000)) (by decide +kernel)
  obtain ⟨hst, hlen⟩ := of_decide_eq_true hP
  have hrun := storedRun_of_reach hs
  obtain ⟨i, ev, hget, -, -, hiff⟩ := snapshot_reports hrun (by unfold Db.isTerminal; rw [hst]; rfl)
  refine ⟨s, hrun, hst, i, ev, hget, hiff.mpr (.inl ?_)⟩
  have hi := (List.getElem?_eq_some_iff.mp hget).1
  exact (mem_page (k := 0) hget).mpr ⟨Nat.zero_le _, by omega⟩

end VibeRuntime
