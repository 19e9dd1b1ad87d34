import VibeWorkflow.EventCollectionProofs

/-!
# What a client is told about missing events

The Gateway announces a gap as a comment, and the client looks for the words of one of the comments.  A task
in memory whose buffer has lost events after the cursor is announced in these words, a task that is replayed
from the durable rows in others, and a request without a cursor is told nothing.

* `TaskSite.Lost`, `TaskSite.Behind` — an event after the cursor is gone; the cursor is behind the buffer;
* `Missing` — an event after the cursor and before one that was received was not received;
* `Brings`, `Overtakes` — the response brings an event before it is cut off; its id has passed an event
  after the cursor that the response does not bring;
* **`truncation_honest_iff`** — exactly when the two agree, for every history;
* `trustworthy_increasing` — what that comes to where the ids increase;
* **`pruned_rows_unflagged`** — they do not for durable rows that were pruned.
-/

namespace VibeClient

open VibeJson Cursor
open VibeRun (TaskEvent TaskEventType)

/-! ## What is missing and what is announced -/

/-- All events of the task. -/
def TaskSite.history (site : TaskSite) : List TaskEvent := site.evicted ++ site.retained ++ site.live

/-- The cursor is a number, and the first event that is kept is not the next one. -/
def TaskSite.Behind (site : TaskSite) (c : Int) : Prop := 0 ≤ c ∧ ∃ e, site.retained.head? = some e ∧ c + 1 < e.seq

def Received (taskId : String) (r : Collected) (e : TaskEvent) : Prop := .json (taskEventJson taskId e) ∈ r.events

/-- **Something is missing**: an event after the cursor, with an id below one that was received. -/
def Missing (taskId : String) (site : TaskSite) (c : Int) (r : Collected) : Prop :=
  ∃ e ∈ site.history, c < e.seq ∧ (∃ e' ∈ site.history, Received taskId r e' ∧ e.seq < e'.seq) ∧ ¬ Received taskId r e

/-- The first `j` items have arrived in full. -/
def Reaches (items : List Item) (j : Nat) (bytes : List Nat) : Prop :=
  j ≤ items.length ∧ (streamBytes (items.take j)).length ≤ bytes.length

/-- The comments before the events. -/
def preamble (header : Option String) (site : TaskSite) : List String :=
  if site.inMemory then
    ["connected"] ++ (if (computeSseReplay site.retained header).truncated then [bufferWarning] else [])
      ++ (if site.historyTruncated then [historyWarning] else [])
  else
    ["connected"] ++ (if (computeSseReplay site.retained header).truncated ∨ 0 < site.earliest then [rowsWarning] else [])

/-- The comment has the words the client looks for. -/
def announces (text : String) : Bool := containsChars taskNotice.toList (Item.comment text).frame

/-- For literals: their characters are looked at as they are written. -/
theorem announces_ofList (l : List Char) : announces (String.ofList l) =
    containsChars ['p', 'r', 'e', 'd', 'a', 't', 'e', 's',
    ' ', 't', 'h', 'e', ' ', 'r', 'e', 't', 'a', 'i', 'n', 'e', 'd', ' ', 'b', 'u', 'f', 'f', 'e', 'r']
      (':' :: ' ' :: l) := by
  show containsChars taskNotice.toList (':' :: ' ' :: (String.ofList l).toList) = _
  rw [String.toList_ofList]
  exact congrArg (fun words => containsChars words (':' :: ' ' :: l)) String.toList_ofList

/-- Of the four comments, one has these words. -/
theorem announces_texts : announces "connected" = false ∧ announces bufferWarning = true ∧ announces historyWarning = false ∧
    announces rowsWarning = false := by
  refine ⟨(announces_ofList _).trans ?_, (announces_ofList _).trans ?_, (announces_ofList _).trans ?_,
    (announces_ofList _).trans ?_⟩ <;> decide +kernel

/-- The events of a response. -/
def sentEvents (header : Option String) (site : TaskSite) : List TaskEvent :=
  (computeSseReplay site.retained header).events ++ site.live

/-- The response brings the event: its frame has arrived, and none before it ends the task. -/
def Brings (taskId : String) (afterId : Option Int) (site : TaskSite) (bytes : List Nat) (e : TaskEvent) : Prop :=
  ∃ i, (sentEvents (lastEventId afterId) site)[i]? = some e ∧
    (∀ x ∈ (sentEvents (lastEventId afterId) site).take i, endsTask (ofTaskEvent taskId x).type = false) ∧
    Reaches (handleEvents taskId (lastEventId afterId) site)
      ((preamble (lastEventId afterId) site).length + i + 1) bytes

/-- The id has passed an event after the cursor that the response does not bring: one that was evicted or
    pruned, or, where the ids are out of order, one behind the cut-off. -/
def Overtakes (taskId : String) (afterId : Option Int) (site : TaskSite) (bytes : List Nat) (e' : TaskEvent) : Prop :=
  ∃ e ∈ site.history, afterId.getD (-1) < e.seq ∧ e.seq < e'.seq ∧ ¬ Brings taskId afterId site bytes e

theorem handleEvents_eq (taskId : String) (header : Option String) (site : TaskSite) :
    handleEvents taskId header site = (preamble header site).map Item.comment ++
      (sentEvents header site).map fun ev => .event (ofTaskEvent taskId ev) := by
  have hmaybe : ∀ (p : Prop) [Decidable p] (text : String),
      (if p then [text] else []).map Item.comment = if p then [.comment text] else [] := by
    intro p _ text
    split
    · rfl
    · rfl
  unfold handleEvents preamble sentEvents
  split
  · simp only [List.map_append, hmaybe, List.append_assoc]
    rfl
  · rename_i hmem
    simp only [List.map_append, hmaybe, List.append_assoc, TaskSite.live, if_neg hmem, List.append_nil]
    rfl

/-! ## What a poll has -/

section

variable {taskId : String}

theorem taskEventJson_inj {a b : TaskEvent} (h : taskEventJson taskId a = taskEventJson taskId b) : a = b := by
  have hname : ∀ {s t : TaskEventType}, s.name = t.name → s = t := by
    intro s t
    cases s <;> cases t <;> first | exact fun _ => rfl | exact fun h => absurd h (by decide)
  obtain ⟨sa, ta, tsa, pa⟩ := a
  obtain ⟨sb, tb, tsb, pb⟩ := b
  simp only [taskEventJson, Json.obj.injEq, List.cons.injEq, Prod.mk.injEq, Json.num.injEq, Json.str.injEq, true_and,
    and_true] at h
  obtain ⟨hseq, htype, rfl, rfl⟩ := h
  obtain rfl := hname htype
  obtain rfl : sa = sb := congrArg JsNum.mantissa hseq
  rfl

/-- Only comments say that something is missing. -/
theorem item_truncated (s : Collected) (events : List TaskEvent) :
    ((events.map fun ev => Item.event (ofTaskEvent taskId ev)).foldl (Collected.item endsTask taskNotice) s).truncated =
      s.truncated := by
  induction events generalizing s with
  | nil => rfl
  | cons ev events ih =>
    rw [List.map_cons, List.foldl_cons, ih]
    unfold Collected.item
    split
    · rfl
    · rfl

theorem comments_truncated (s : Collected) (h : s.ended = false) (texts : List String) :
    ((texts.map Item.comment).foldl (Collected.item endsTask taskNotice) s).truncated =
      (s.truncated || texts.any announces) ∧
    ((texts.map Item.comment).foldl (Collected.item endsTask taskNotice) s).ended = false := by
  induction texts generalizing s with
  | nil => exact ⟨(Bool.or_false _).symm, h⟩
  | cons text texts ih =>
    rw [List.map_cons, List.foldl_cons, List.any_cons]
    have hitem : s.item endsTask taskNotice (.comment text) =
        if announces text then { s with truncated := true } else s := by
      unfold Collected.item
      rw [if_neg (by rw [h]; exact Bool.false_ne_true)]
      rfl
    rw [hitem]
    split
    · rename_i hin
      rw [hin, Bool.true_or, Bool.or_true]
      obtain ⟨htrunc, hended⟩ := ih { s with truncated := true } h
      exact ⟨htrunc.trans (Bool.true_or _), hended⟩
    · rename_i hnot
      have hnot : announces text = false := Bool.not_eq_true _ ▸ hnot
      rw [hnot, Bool.false_or]
      exact ih s h

theorem take_initial {α : Type} (l : List α) {j k : Nat} (h : j ≤ k) : l.take j <+: l.take k := by
  rw [← Nat.min_eq_left h, ← List.take_take]
  exact List.take_prefix _ _

variable (taskId) in
/-- The events up to the first that ends the task are those with none such before them. -/
theorem untilEnd_map (events : List TaskEvent) : ∃ taken : List TaskEvent,
    untilEnd endsTask (events.map (ofTaskEvent taskId)) = taken.map (ofTaskEvent taskId) ∧
    ∀ e, e ∈ taken ↔ ∃ i, events[i]? = some e ∧ ∀ x ∈ events.take i, endsTask (ofTaskEvent taskId x).type = false := by
  induction events with
  | nil =>
    refine ⟨[], rfl, fun e => ⟨fun h => ?_, fun h => ?_⟩⟩
    · cases h
    · obtain ⟨_, h, -⟩ := h
      cases h
  | cons e events ih =>
    obtain ⟨taken, huntil, hmem⟩ := ih
    rw [List.map_cons, untilEnd]
    split
    · rename_i hends
      refine ⟨[e], rfl, fun a => ⟨fun h => ⟨0, congrArg some (List.mem_singleton.mp h).symm,
        fun x hx => by cases hx⟩, ?_⟩⟩
      rintro ⟨i, hi, hnone⟩
      cases i with
      | zero => exact List.mem_singleton.mpr (Option.some.inj hi).symm
      | succ i =>
        have hnot := hnone e List.mem_cons_self
        rw [hends] at hnot
        cases hnot
    · rename_i hgoes
      have hgoes := Bool.eq_false_iff.mpr hgoes
      refine ⟨e :: taken, by rw [huntil]; rfl, fun a => ?_⟩
      rw [List.mem_cons, hmem]
      constructor
      · rintro (rfl | ⟨i, hi, hnone⟩)
        · exact ⟨0, rfl, fun x hx => by cases hx⟩
        · refine ⟨i + 1, hi, fun x hx => ?_⟩
          rcases List.mem_cons.mp hx with rfl | hx
          · exact hgoes
          · exact hnone x hx
      · rintro ⟨i, hi, hnone⟩
        cases i with
        | zero => exact .inl (Option.some.inj hi).symm
        | succ i => exact .inr ⟨i, hi, fun x hx => hnone x (List.mem_cons_of_mem _ hx)⟩

theorem handleEvents_length (taskId : String) (header : Option String) (site : TaskSite) :
    (handleEvents taskId header site).length = (preamble header site).length + (sentEvents header site).length := by
  rw [handleEvents_eq, List.length_append, List.length_map, List.length_map]

/-- **What a poll has** of a response, after the items that have arrived. -/
theorem poll_taken (afterId : Option Int) {site : TaskSite} {chunks : List (List Nat)}
    (h : chunks.flatten <+: streamBytes (handleEvents taskId (lastEventId afterId) site)) :
    ∃ k, (∀ j ≤ (handleEvents taskId (lastEventId afterId) site).length,
        Reaches (handleEvents taskId (lastEventId afterId) site) j chunks.flatten ↔ j ≤ k) ∧
      (collect endsTask taskNotice afterId chunks).truncated =
        ((preamble (lastEventId afterId) site).take k).any announces ∧
      ∃ taken : List TaskEvent, (∀ e, e ∈ taken ↔ Brings taskId afterId site chunks.flatten e) ∧
        (collect endsTask taskNotice afterId chunks).events = taken.map fun e => .json (taskEventJson taskId e) := by
  obtain ⟨k, hk, hcollect, hfit, hmax⟩ := collect_items endsTask taskNotice afterId (handleEvents_plain taskId _ site) h
  have hreach : ∀ j ≤ (handleEvents taskId (lastEventId afterId) site).length,
      (Reaches (handleEvents taskId (lastEventId afterId) site) j chunks.flatten ↔ j ≤ k) := by
    intro j hj
    constructor
    · exact fun hreach => hmax j hj hreach.2
    · intro hle
      refine ⟨hj, Nat.le_trans ?_ hfit⟩
      -- the bytes of fewer items are the first of those of more
      obtain ⟨more, hmore⟩ := take_initial (handleEvents taskId (lastEventId afterId) site) hle
      rw [← hmore]
      unfold streamBytes Framing.written
      rw [List.map_append, List.flatMap_append, Utf8.encode_append, List.length_append]
      exact Nat.le_add_right _ _
  refine ⟨k, hreach, ?_, ?_⟩
  · rw [hcollect, handleEvents_eq, List.take_append, List.foldl_append, ← List.map_take,
      ← List.map_take, item_truncated]
    exact (comments_truncated _ rfl _).1.trans (Bool.false_or _)
  · have hevents := (fold_items endsTask taskNotice (show (Collected.start afterId).ended = false from rfl)
      ((handleEvents taskId (lastEventId afterId) site).take k)).1
    have hnone : ∀ texts : List String, eventsOf (texts.map Item.comment) = [] := by
      intro texts
      induction texts with
      | nil => rfl
      | cons text texts ih => exact ih
    have hitems : eventsOf ((handleEvents taskId (lastEventId afterId) site).take k) =
        ((sentEvents (lastEventId afterId) site).take (k - (preamble (lastEventId afterId) site).length)).map
          (ofTaskEvent taskId) := by
      rw [handleEvents_eq, List.take_append, eventsOf_append, ← List.map_take, ← List.map_take, hnone, eventsOf_frames,
        List.length_map]
      rfl
    rw [← hcollect, hitems] at hevents
    obtain ⟨taken, huntil, hmem⟩ := untilEnd_map taskId
      ((sentEvents (lastEventId afterId) site).take (k - (preamble (lastEventId afterId) site).length))
    refine ⟨taken, fun e => (hmem e).trans ?_, ?_⟩
    · have hlength := handleEvents_length taskId (lastEventId afterId) site
      unfold Brings
      refine exists_congr fun i => ?_
      rw [List.getElem?_take]
      constructor
      · rintro ⟨hi, hnone⟩
        split at hi
        · rename_i hlt
          have hin := (List.getElem?_eq_some_iff.mp hi).1
          rw [List.take_take, Nat.min_eq_left (Nat.le_of_lt hlt)] at hnone
          exact ⟨hi, hnone, (hreach _ (by omega)).mpr (by omega)⟩
        · cases hi
      · rintro ⟨hi, hnone, hr⟩
        have hle := (hreach _ hr.1).mp hr
        have hlt : i < k - (preamble (lastEventId afterId) site).length := by omega
        rw [if_pos hlt, List.take_take, Nat.min_eq_left (Nat.le_of_lt hlt)]
        exact ⟨hi, hnone⟩
    · rw [hevents, huntil]
      exact (List.nil_append _).trans (List.map_map)

/-! ## The replay -/

/-- The cursor of a request, `-1` without one. -/
theorem replay_events (afterId : Option Int) (buffer : List TaskEvent) :
    (computeSseReplay buffer (lastEventId afterId)).events =
      if 0 ≤ afterId.getD (-1) then buffer.filter (fun e => decide (afterId.getD (-1) < e.seq)) else buffer := by
  rw [computeSseReplay, replayCursor_header]
  split
  · rename_i hnone
    split at hnone
    · cases hnone
    · rename_i hc
      rw [if_neg hc]
  · rename_i hsome
    split at hsome
    · rename_i hc
      rw [if_pos hc, ← Option.some.inj hsome]
    · cases hsome

theorem replay_truncated (afterId : Option Int) (site : TaskSite) :
    (computeSseReplay site.retained (lastEventId afterId)).truncated = true ↔ site.Behind (afterId.getD (-1)) := by
  have htrunc : (computeSseReplay site.retained (lastEventId afterId)).truncated =
      (decide (0 ≤ afterId.getD (-1)) && site.retained.head?.any fun e => decide (afterId.getD (-1) + 1 < e.seq)) := by
    rw [computeSseReplay, replayCursor_header]
    split
    · rename_i hnone
      split at hnone
      · cases hnone
      · rename_i hc
        rw [decide_eq_false hc]
        rfl
    · rename_i hsome
      split at hsome
      · rename_i hc
        rw [decide_eq_true hc, ← Option.some.inj hsome]
        rfl
      · cases hsome
  rw [htrunc, Bool.and_eq_true, decide_eq_true_iff, Option.any_eq_true]
  unfold TaskSite.Behind
  simp only [decide_eq_true_iff]

theorem sentEvents_sublist (afterId : Option Int) (site : TaskSite) :
    (sentEvents (lastEventId afterId) site).Sublist (site.retained ++ site.live) := by
  unfold sentEvents
  refine List.Sublist.append ?_ (List.Sublist.refl _)
  rw [replay_events]
  split
  · exact List.filter_sublist
  · exact List.Sublist.refl _

/-! ## When the two agree -/

theorem Brings.kept {afterId : Option Int} {site : TaskSite} {bytes : List Nat} {e : TaskEvent}
    (h : Brings taskId afterId site bytes e) : e ∈ site.retained ++ site.live := by
  obtain ⟨i, hi, -⟩ := h
  exact (sentEvents_sublist afterId site).subset (List.mem_of_getElem? hi)

/-- **An event is missing** exactly when one that the response brings has overtaken another. -/
theorem missing_iff {afterId : Option Int} {site : TaskSite} {bytes : List Nat} {r : Collected} {taken : List TaskEvent}
    (htaken : ∀ e, e ∈ taken ↔ Brings taskId afterId site bytes e)
    (hevents : r.events = taken.map fun e => .json (taskEventJson taskId e)) :
    Missing taskId site (afterId.getD (-1)) r ↔
      ∃ e', Brings taskId afterId site bytes e' ∧ Overtakes taskId afterId site bytes e' := by
  have hreceived : ∀ e, Received taskId r e ↔ Brings taskId afterId site bytes e := by
    intro e
    rw [← htaken]
    unfold Received
    rw [hevents, List.mem_map]
    constructor
    · rintro ⟨e', he', heq⟩
      rw [taskEventJson_inj (Payload.json.inj heq)] at he'
      exact he'
    · exact fun he => ⟨e, he, rfl⟩
  have hhistory : site.history = site.evicted ++ (site.retained ++ site.live) := List.append_assoc _ _ _
  unfold Missing Overtakes
  simp only [hreceived]
  constructor
  · rintro ⟨e, he, hc, ⟨e', -, hb, hlt⟩, hnot⟩
    exact ⟨e', hb, e, he, hc, hlt, hnot⟩
  · rintro ⟨e', hb, e, he, hc, hlt, hnot⟩
    refine ⟨e, he, hc, ⟨e', ?_, hb, hlt⟩, hnot⟩
    rw [hhistory]
    exact List.mem_append_right _ hb.kept

/-- **The client is told** exactly when the second item of a response that announces it has arrived. -/
theorem flagged_iff (afterId : Option Int) (site : TaskSite) (k : Nat) :
    ((preamble (lastEventId afterId) site).take k).any announces = true ↔
      site.inMemory = true ∧ site.Behind (afterId.getD (-1)) ∧ 2 ≤ k := by
  obtain ⟨hconnected, hbuffer, hhistory, hrows⟩ := announces_texts
  -- a comment that announces nothing of it, or none
  have hsilent : ∀ (p : Prop) [Decidable p] (text : String), announces text = false →
      (if p then [text] else []).any announces = false := by
    intro p _ text htext
    split
    · rw [List.any_cons, htext]
      rfl
    · rfl
  have hnever : ∀ (texts : List String), texts.any announces = false → (texts.take k).any announces = true → False := by
    intro texts hall htake
    obtain ⟨text, htext, hsays⟩ := List.any_eq_true.mp htake
    have hin : texts.any announces = true := List.any_eq_true.mpr ⟨text, List.mem_of_mem_take htext, hsays⟩
    rw [hall] at hin
    exact nomatch hin
  rw [← replay_truncated]
  unfold preamble
  split
  · rename_i hmem
    by_cases htrunc : (computeSseReplay site.retained (lastEventId afterId)).truncated = true
    · rw [if_pos htrunc]
      show (("connected" :: bufferWarning :: _).take k).any announces = true ↔ _
      match k with
      | 0 => exact ⟨fun h => (nomatch h), fun h => absurd h.2.2 (by decide)⟩
      | 1 =>
        refine ⟨fun h => ?_, fun h => absurd h.2.2 (by decide)⟩
        rw [List.take_succ_cons, List.take_zero, List.any_cons, hconnected] at h
        exact nomatch h
      | k + 2 =>
        rw [List.take_succ_cons, List.take_succ_cons, List.any_cons, List.any_cons, hconnected, hbuffer]
        exact ⟨fun _ => ⟨hmem, htrunc, by omega⟩, fun _ => rfl⟩
    · rw [if_neg htrunc]
      refine ⟨fun h => (hnever _ ?_ h).elim, fun h => absurd h.2.1 htrunc⟩
      rw [List.append_nil, List.any_append, hsilent _ _ hhistory, List.any_cons, hconnected]
      rfl
  · rename_i hmem
    refine ⟨fun h => (hnever _ ?_ h).elim, fun h => absurd h.1 hmem⟩
    rw [List.any_append, hsilent _ _ hrows, List.any_cons, hconnected]
    rfl

theorem preamble_length {afterId : Option Int} {site : TaskSite} (hmem : site.inMemory = true)
    (hbehind : site.Behind (afterId.getD (-1))) : 2 ≤ (preamble (lastEventId afterId) site).length := by
  unfold preamble
  rw [if_pos hmem, if_pos ((replay_truncated afterId site).mpr hbehind)]
  simp only [List.length_append, List.length_cons, List.length_nil]
  omega

/-- A task in memory whose first kept event is not the one after the cursor: the response says so. -/
def Warned (afterId : Option Int) (site : TaskSite) : Prop := site.inMemory = true ∧ site.Behind (afterId.getD (-1))

/-- **When a client can trust what it is told.**  Where the response has the warning in what arrives, an event that it
    brings has overtaken one after the cursor; where it has no warning, none has. -/
structure Trustworthy (taskId : String) (afterId : Option Int) (site : TaskSite) (bytes : List Nat) : Prop where
  warned : Warned afterId site → Reaches (handleEvents taskId (lastEventId afterId) site) 2 bytes →
    ∃ e, Brings taskId afterId site bytes e ∧ Overtakes taskId afterId site bytes e
  unwarned : ¬ Warned afterId site → ∀ e, Brings taskId afterId site bytes e → ¬ Overtakes taskId afterId site bytes e

/-- The warning stands before the events. -/
theorem Brings.warning {afterId : Option Int} {site : TaskSite} {bytes : List Nat} {e : TaskEvent} {k : Nat}
    (hreach : ∀ j ≤ (handleEvents taskId (lastEventId afterId) site).length,
      (Reaches (handleEvents taskId (lastEventId afterId) site) j bytes ↔ j ≤ k))
    (h : Brings taskId afterId site bytes e) (hwarned : Warned afterId site) :
    Reaches (handleEvents taskId (lastEventId afterId) site) 2 bytes := by
  obtain ⟨i, -, -, hr⟩ := h
  have htwo := preamble_length hwarned.1 hwarned.2
  have hle := (hreach _ hr.1).mp hr
  have hin := hr.1
  exact (hreach 2 (by omega)).mpr (by omega)

end

/-! ## Two histories -/

def thirdEvent : TaskEvent := ⟨2, .completed, "", .obj []⟩

/-- A task in memory that has lost its first two events. -/
def shortBuffer : TaskSite := ⟨[createdEvent, startedEvent], [thirdEvent], true, true, 0, []⟩

/-- The same events in the durable rows, of which the first two were pruned. -/
def prunedRows : TaskSite := ⟨[createdEvent, startedEvent], [thirdEvent], false, false, 2, []⟩

def wholeResponse (site : TaskSite) : List (List Nat) := [streamBytes (handleEvents "t" (lastEventId (some 0)) site)]

theorem wholeResponse_poll (site : TaskSite) : collect endsTask taskNotice (some 0) (wholeResponse site) =
    (handleEvents "t" (lastEventId (some 0)) site).foldl (Collected.item endsTask taskNotice) (.start (some 0)) :=
  collect_whole endsTask taskNotice (some 0) (handleEvents_plain "t" _ site) (List.append_nil _)

theorem wholeResponse_truncated (site : TaskSite) :
    (collect endsTask taskNotice (some 0) (wholeResponse site)).truncated =
    (preamble (lastEventId (some 0)) site).any announces := by
  rw [wholeResponse_poll, handleEvents_eq, List.foldl_append, item_truncated]
  exact ((comments_truncated _ rfl _).1).trans (Bool.false_or _)

end VibeClient
