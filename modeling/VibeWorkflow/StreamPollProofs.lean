import VibeWorkflow.CursorProofs
import VibeWorkflow.EventClientProofs

/-!
# Polls of an event stream

`collectEvents` reads one response until its time is over; `waitForTask` and `waitForWorkflow` repeat it,
each time from the cursor they have.  What a poll is sent depends on the cursor it came with and on the log
when it came; the log grows between and during the polls.

* `Source` — a kind of stream: how a request is served, and the log behind it;
* `runPolls`, `waitFor` — polls one after another, and the loop that stops at a status;
* **`Source.Exact`** — the events of all polls are the log's events between the two cursors;
* **`Source.exact_of_serves`** — that holds of every source that serves the log in order.
-/

namespace VibeClient

open VibeJson Cursor

/-! ## One poll -/

section

variable (ends : String → Bool)

/-- The events up to the first one that ends the stream. -/
def untilEnd : List StreamEvent → List StreamEvent
  | [] => []
  | e :: es => e :: if ends e.type then [] else untilEnd es

def payloads (es : List StreamEvent) : List Payload := es.map fun e => .json e.data

/-- The events among the items. -/
def eventsOf (items : List Item) : List StreamEvent := items.filterMap Item.event?

end

section

variable {ends : String → Bool} {notice : String}

theorem untilEnd_initial (es : List StreamEvent) : untilEnd ends es <+: es := by
  induction es with
  | nil => exact List.nil_prefix
  | cons e es ih =>
    refine List.cons_prefix_cons.mpr ⟨rfl, ?_⟩
    split
    · exact List.nil_prefix
    · exact ih

/-- What ends the stream is still taken. -/
theorem untilEnd_ends {es : List StreamEvent} {e : StreamEvent} (he : e ∈ es) (hend : ends e.type = true) :
    ∃ e' ∈ untilEnd ends es, ends e'.type = true := by
  induction es with
  | nil => exact nomatch he
  | cons d es ih =>
    by_cases hd : ends d.type = true
    · exact ⟨d, List.mem_cons_self, hd⟩
    · rcases List.mem_cons.mp he with rfl | he
      · exact absurd hend hd
      · obtain ⟨e', he', hend'⟩ := ih he
        refine ⟨e', List.mem_cons_of_mem _ ?_, hend'⟩
        rw [if_neg hd]
        exact he'

theorem item_ended {s : Collected} (h : s.ended = true) (items : List Item) :
    items.foldl (Collected.item ends notice) s = s := by
  induction items with
  | nil => rfl
  | cons i items ih =>
    have hone : s.item ends notice i = s := if_pos h
    rw [List.foldl_cons, hone, ih]

variable (ends notice) in
/-- **What a poll returns** of the items it took. -/
theorem fold_items {s : Collected} (h : s.ended = false) (items : List Item) :
    (items.foldl (Collected.item ends notice) s).events = s.events ++ payloads (untilEnd ends (eventsOf items)) ∧
      (items.foldl (Collected.item ends notice) s).lastSeq =
        advance StreamEvent.id s.lastSeq (untilEnd ends (eventsOf items)) := by
  induction items generalizing s with
  | nil => exact ⟨(List.append_nil _).symm, rfl⟩
  | cons i items ih =>
    rw [List.foldl_cons]
    cases i with
    | comment text =>
      have hsame : (s.item ends notice (.comment text)).events = s.events ∧
          (s.item ends notice (.comment text)).lastSeq = s.lastSeq ∧
          (s.item ends notice (.comment text)).ended = false := by
        unfold Collected.item
        rw [if_neg (by rw [h]; exact Bool.false_ne_true)]
        simp only
        split
        · exact ⟨rfl, rfl, h⟩
        · exact ⟨rfl, rfl, h⟩
      obtain ⟨hev, hseq, hlive⟩ := hsame
      obtain ⟨ihev, ihseq⟩ := ih hlive
      rw [ihev, ihseq, hev, hseq]
      exact ⟨rfl, rfl⟩
    | event e =>
      have hitem : s.item ends notice (.event e) =
          { s with events := s.events ++ [.json e.data], lastSeq := max s.lastSeq e.id, ended := ends e.type } := by
        unfold Collected.item
        rw [if_neg (by rw [h]; exact Bool.false_ne_true)]
      rw [hitem]
      have hevents : eventsOf (.event e :: items) = e :: eventsOf items := rfl
      rw [hevents]
      by_cases hend : ends e.type = true
      · -- the loop is left here
        rw [item_ended hend]
        have huntil : untilEnd ends (e :: eventsOf items) = [e] := by
          unfold untilEnd
          rw [if_pos hend]
        rw [huntil]
        exact ⟨rfl, rfl⟩
      · have huntil : untilEnd ends (e :: eventsOf items) = e :: untilEnd ends (eventsOf items) := by
          rw [untilEnd, if_neg hend]
        have hlive : (ends e.type) = false := Bool.not_eq_true _ ▸ hend
        obtain ⟨ihev, ihseq⟩ := @ih { s with
          events := s.events ++ [.json e.data], lastSeq := max s.lastSeq e.id, ended := ends e.type } hlive
        rw [ihev, ihseq, huntil]
        exact ⟨List.append_assoc _ _ _, rfl⟩

variable (ends notice) in
/-- **A poll** returns the first of the events it was sent, and the greatest id among them; it returns all of them
    up to the one that ends the stream if it received everything. -/
theorem collect_sent (afterId : Option Int) {items : List Item} {chunks : List (List Nat)}
    (hplain : ∀ i ∈ items, i.Plain) (h : chunks.flatten <+: streamBytes items) :
    ∃ taken, taken <+: eventsOf items ∧ (collect ends notice afterId chunks).events = payloads taken ∧
      (collect ends notice afterId chunks).lastSeq = advance StreamEvent.id (afterId.getD (-1)) taken ∧
      (chunks.flatten = streamBytes items → taken = untilEnd ends (eventsOf items)) := by
  obtain ⟨k, hk, hcollect, -, hmax⟩ := collect_items ends notice afterId hplain h
  obtain ⟨hev, hseq⟩ := fold_items ends notice (show (Collected.start afterId).ended = false from rfl) (items.take k)
  rw [hcollect]
  refine ⟨untilEnd ends (eventsOf (items.take k)), (untilEnd_initial _).trans ?_, hev, hseq, ?_⟩
  · obtain ⟨rest, hrest⟩ := List.take_prefix k items
    refine ⟨eventsOf rest, ?_⟩
    unfold eventsOf
    rw [← List.filterMap_append, hrest]
  · intro hfull
    have hlen := hmax items.length (Nat.le_refl _) (by rw [List.take_length, hfull])
    rw [List.take_of_length_le hlen]

end

/-! ## Polls one after another -/

/-- A kind of stream.  `serve` gives what is written to a request with this cursor; `before` is the log when the
    request comes, and `live` what is added to it, and sent regardless of the cursor, until the poll is over. -/
structure Source (κ : Type) where
  ends : String → Bool
  notice : String
  serve : Option Int → κ → List Item
  before : κ → List StreamEvent
  live : κ → List StreamEvent
  /-- Nothing has been deleted from the log. -/
  whole : κ → Prop
  /-- The statuses at which waiting is over. -/
  stops : String → Bool

/-- A poll: what the server was in, the bytes that arrived, and the status that was read afterwards. -/
structure Poll (κ : Type) where
  site : κ
  chunks : List (List Nat)
  status : String

namespace Source

variable {κ : Type} (S : Source κ)

def log (site : κ) : List StreamEvent := S.before site ++ S.live site

def poll (afterId : Option Int) (p : Poll κ) : Collected := collect S.ends S.notice afterId p.chunks

/-- Successive polls, each from the cursor that the one before returned. -/
def runPolls : Option Int → List (Poll κ) → List Payload × Int
  | afterId, [] => ([], afterId.getD (-1))
  | afterId, p :: ps =>
    let r := S.poll afterId p
    let rest := runPolls (some r.lastSeq) ps
    (r.events ++ rest.1, rest.2)

/-- The bytes that arrive are the first of those that are written. -/
def Delivered : Option Int → List (Poll κ) → Prop
  | _, [] => True
  | afterId, p :: ps =>
    p.chunks.flatten <+: streamBytes (S.serve afterId p.site) ∧ Delivered (some (S.poll afterId p).lastSeq) ps

/-- The last poll received all that was written to it, an event that ends the stream among it. -/
def LastEnds : Option Int → List (Poll κ) → Prop
  | _, [] => False
  | afterId, [p] =>
    p.chunks.flatten = streamBytes (S.serve afterId p.site) ∧ ∃ e ∈ eventsOf (S.serve afterId p.site),
      S.ends e.type = true
  | afterId, p :: q :: ps => LastEnds (some (S.poll afterId p).lastSeq) (q :: ps)

/-- The log only grows, from `old` on. -/
def Grows (old : List StreamEvent) : List (Poll κ) → List StreamEvent → Prop
  | [], final => old <+: final
  | p :: ps, final => old <+: S.before p.site ∧ Grows (S.log p.site) ps final

/-- The polls so far; `status` is the one that was read last. -/
structure Waited where
  cursor : Int
  events : List Payload
  truncated : Bool
  status : Option String

/-- The loop of `waitForTask` and `waitForWorkflow`, with the polls that its budget has time for. -/
def waitLoop : Waited → List (Poll κ) → Waited
  | s, [] => s
  | s, p :: ps =>
    let r := S.poll (some s.cursor) p
    let s' : Waited := ⟨r.lastSeq, s.events ++ r.events, s.truncated || r.truncated, some p.status⟩
    if S.stops p.status then s' else waitLoop s' ps

def waitFor (afterId : Option Int) (polls : List (Poll κ)) : Waited :=
  S.waitLoop ⟨afterId.getD (-1), [], false, none⟩ polls

/-- `status === 'completed' || status === 'failed' || status === 'cancelled'`. -/
def isTerminalStatus (status : String) : Bool := status == "completed" || status == "failed" || status == "cancelled"

def Waited.terminal (w : Waited) : Bool := w.status.any isTerminalStatus

/-- **Collection is exact.** -/
structure Exact : Prop where
  /-- The events of successive polls are those of the log between the two cursors; and they have an event that ends
      the stream if the last poll received one, with all that was written to it. -/
  polls : ∀ (afterId : Option Int) (polls : List (Poll κ)) (final : List StreamEvent),
    Increasing StreamEvent.id final → (∀ e ∈ final, 0 ≤ e.id) → S.Grows [] polls final →
    (∀ p ∈ polls, S.whole p.site) → (∀ p ∈ polls, ∀ e ∈ S.live p.site, afterId.getD (-1) < e.id) →
    S.Delivered afterId polls →
    (S.runPolls afterId polls).1 = payloads (between StreamEvent.id (afterId.getD (-1))
      (S.runPolls afterId polls).2 final) ∧
    (S.LastEnds afterId polls →
      ∃ e ∈ between StreamEvent.id (afterId.getD (-1)) (S.runPolls afterId polls).2 final, S.ends e.type = true)
  /-- Waiting returns what the polls it made return, and reports the status that the last one read. -/
  wait : ∀ (afterId : Option Int) (polls : List (Poll κ)), polls ≠ [] →
    ∃ used p, used <+: polls ∧ used.getLast? = some p ∧
      (S.waitFor afterId polls).events = (S.runPolls (some (afterId.getD (-1))) used).1 ∧
      (S.waitFor afterId polls).cursor = (S.runPolls (some (afterId.getD (-1))) used).2 ∧
      (S.waitFor afterId polls).terminal = isTerminalStatus p.status ∧
      (∀ q ∈ used.dropLast, S.stops q.status = false) ∧ (used = polls ∨ S.stops p.status = true)

/-- The log is served in order: what is written is the first of what comes after the cursor. -/
structure Serves : Prop where
  plain : ∀ afterId site, ∀ i ∈ S.serve afterId site, i.Plain
  /-- As long as what is sent live is ahead of the cursor. -/
  sent : ∀ (afterId : Option Int) (site : κ), S.whole site → Increasing StreamEvent.id (S.log site) →
    (∀ e ∈ S.log site, 0 ≤ e.id) → (∀ e ∈ S.live site, afterId.getD (-1) < e.id) →
    eventsOf (S.serve afterId site) <+: after StreamEvent.id (afterId.getD (-1)) (S.log site)

variable {S}

theorem Grows.final {old final : List StreamEvent} {polls : List (Poll κ)}
    (h : S.Grows old polls final) : old <+: final := by
  induction polls generalizing old with
  | nil => exact h
  | cons p ps ih => exact (h.1.trans (List.prefix_append _ _)).trans (ih h.2)

/-- What was in the log before is in it when a later poll comes. -/
theorem Grows.before {old final : List StreamEvent} {polls : List (Poll κ)} (h : S.Grows old polls final) :
    ∀ q ∈ polls, old <+: S.before q.site ∧ S.log q.site <+: final := by
  induction polls generalizing old with
  | nil => exact fun q hq => nomatch hq
  | cons p ps ih =>
    intro q hq
    rcases List.mem_cons.mp hq with rfl | hq
    · exact ⟨h.1, Grows.final h.2⟩
    · obtain ⟨hold, hfinal⟩ := ih h.2 q hq
      exact ⟨(h.1.trans (List.prefix_append _ _)).trans hold, hfinal⟩

/-- **Successive polls** read the interval between their cursors. -/
theorem Serves.polled (hS : S.Serves) {final : List StreamEvent} (hinc : Increasing StreamEvent.id final)
    (hnonneg : ∀ e ∈ final, 0 ≤ e.id) :
    ∀ (polls : List (Poll κ)) (old : List StreamEvent) (afterId : Option Int), S.Grows old polls final →
      (∀ p ∈ polls, S.whole p.site) → (∀ p ∈ polls, ∀ e ∈ S.live p.site, afterId.getD (-1) < e.id) →
      S.Delivered afterId polls →
      ∃ rows, (S.runPolls afterId polls).1 = payloads rows ∧
        Polled StreamEvent.id (afterId.getD (-1)) final rows (S.runPolls afterId polls).2 ∧
        (S.LastEnds afterId polls → ∃ e ∈ rows, S.ends e.type = true) := by
  intro polls
  induction polls with
  | nil =>
    intro old afterId _ _ _ _
    exact ⟨[], rfl, .refl _ _, fun h => h.elim⟩
  | cons p ps ih =>
    intro old afterId hgrows hwhole hlive hdelivered
    obtain ⟨-, hfinal⟩ := hgrows.before p List.mem_cons_self
    have hlog : Increasing StreamEvent.id (S.log p.site) := hinc.initial hfinal
    have hsent := hS.sent afterId p.site (hwhole p List.mem_cons_self) hlog (fun e he => hnonneg e (hfinal.subset he))
      (hlive p List.mem_cons_self)
    obtain ⟨taken, htaken, hevents, hseq, hfull⟩ :=
      collect_sent S.ends S.notice afterId (hS.plain afterId p.site) hdelivered.1
    have hone := Polled.of_after hlog (htaken.trans hsent)
    rw [← hseq] at hone
    -- the cursor is now where it was, or at an event that is in the log
    have hlive' : ∀ q ∈ ps, ∀ e ∈ S.live q.site, (some (S.poll afterId p).lastSeq).getD (-1) < e.id := by
      intro q hq e he
      rcases hone.seen with hc | ⟨e', he', hc⟩
      · exact lt_of_eq_of_lt hc (hlive q (List.mem_cons_of_mem _ hq) e he)
      · obtain ⟨hold, hqfinal⟩ := hgrows.2.before q hq
        exact lt_of_eq_of_lt hc.symm ((List.pairwise_append.mp (hinc.initial hqfinal)).2.2 e' (hold.subset he') e he)
    obtain ⟨rows, hrows, hpolled, hends⟩ := ih (S.log p.site) (some (S.poll afterId p).lastSeq) hgrows.2
      (fun q hq => hwhole q (List.mem_cons_of_mem _ hq)) hlive' hdelivered.2
    refine ⟨taken ++ rows, ?_, hone.trans hinc hfinal hpolled, ?_⟩
    · show (S.poll afterId p).events ++ (S.runPolls (some (S.poll afterId p).lastSeq) ps).1 = _
      rw [hrows, show (S.poll afterId p).events = payloads taken from hevents]
      exact (List.map_append).symm
    · intro hlast
      cases ps with
      | nil =>
        obtain ⟨hall, e, he, hend⟩ := hlast
        obtain ⟨e', he', hend'⟩ := untilEnd_ends he hend
        exact ⟨e', List.mem_append_left _ (by rw [hfull hall]; exact he'), hend'⟩
      | cons q ps =>
        obtain ⟨e, he, hend⟩ := hends hlast
        exact ⟨e, List.mem_append_right _ he, hend⟩

variable (S) in
theorem runPolls_one (afterId : Option Int) (p : Poll κ) :
    S.runPolls afterId [p] = ((S.poll afterId p).events, (S.poll afterId p).lastSeq) := by
  show ((S.poll afterId p).events ++ [], (S.poll afterId p).lastSeq) = _
  rw [List.append_nil]

/-- **The loop** makes polls until one reads a status that stops it. -/
theorem waitLoop_polls : ∀ (polls : List (Poll κ)), polls ≠ [] → ∀ s : Waited, ∃ used p, used <+: polls ∧
    used.getLast? = some p ∧ (S.waitLoop s polls).events = s.events ++ (S.runPolls (some s.cursor) used).1 ∧
    (S.waitLoop s polls).cursor = (S.runPolls (some s.cursor) used).2 ∧ (S.waitLoop s polls).status = some p.status ∧
    (∀ q ∈ used.dropLast, S.stops q.status = false) ∧ (used = polls ∨ S.stops p.status = true) := by
  intro polls
  induction polls with
  | nil => exact fun hne => absurd rfl hne
  | cons p ps ih =>
    intro _ s
    have hone := runPolls_one S (some s.cursor) p
    by_cases hstop : S.stops p.status = true
    · have hloop : S.waitLoop s (p :: ps) = ⟨(S.poll (some s.cursor) p).lastSeq,
        s.events ++ (S.poll (some s.cursor) p).events,
          s.truncated || (S.poll (some s.cursor) p).truncated, some p.status⟩ := if_pos hstop
      rw [hloop]
      refine ⟨[p], p, ⟨ps, rfl⟩, rfl, ?_, ?_, rfl, fun q hq => (nomatch hq), .inr hstop⟩
      · rw [hone]
      · rw [hone]
    · have hloop : S.waitLoop s (p :: ps) = S.waitLoop ⟨(S.poll (some s.cursor) p).lastSeq,
          s.events ++ (S.poll (some s.cursor) p).events,
          s.truncated || (S.poll (some s.cursor) p).truncated, some p.status⟩ ps := if_neg hstop
      rw [hloop]
      cases ps with
      | nil =>
        refine ⟨[p], p, List.prefix_refl _, rfl, ?_, ?_, rfl, fun q hq => (nomatch hq), .inl rfl⟩
        · rw [hone]
          rfl
        · rw [hone]
          rfl
      | cons q ps =>
        obtain ⟨used, r, hused, hlast, hevents, hcursor, hstatus, hbefore, hafter⟩ := ih (List.cons_ne_nil _ _)
          ⟨(S.poll (some s.cursor) p).lastSeq, s.events ++ (S.poll (some s.cursor) p).events,
            s.truncated || (S.poll (some s.cursor) p).truncated, some p.status⟩
        obtain ⟨u, us, rfl⟩ : ∃ u us, used = u :: us := by
          cases used with
          | nil => exact nomatch hlast
          | cons u us => exact ⟨u, us, rfl⟩
        refine ⟨p :: u :: us, r, List.cons_prefix_cons.mpr ⟨rfl, hused⟩, hlast, ?_, hcursor, hstatus, ?_, ?_⟩
        · rw [hevents, List.append_assoc]
          rfl
        · intro q' hq'
          rcases List.mem_cons.mp hq' with rfl | hq'
          · exact Bool.not_eq_true _ ▸ hstop
          · exact hbefore q' hq'
        · rcases hafter with hall | hstops
          · exact .inl (by rw [hall])
          · exact .inr hstops

/-- A wait that is over after its first poll. -/
theorem waitFor_stop (afterId : Option Int) {p : Poll κ} (h : S.stops p.status = true) :
    (S.waitFor afterId [p]).cursor = (S.poll (some (afterId.getD (-1))) p).lastSeq ∧
      (S.waitFor afterId [p]).terminal = isTerminalStatus p.status := by
  have hloop : S.waitFor afterId [p] = ⟨(S.poll (some (afterId.getD (-1))) p).lastSeq,
      [] ++ (S.poll (some (afterId.getD (-1))) p).events, false || (S.poll (some (afterId.getD (-1))) p).truncated,
      some p.status⟩ := if_pos h
  rw [hloop]
  exact ⟨rfl, rfl⟩

/-- **Every source that serves its log in order is collected exactly.** -/
theorem exact_of_serves (hS : S.Serves) : S.Exact where
  polls afterId polls final hinc hnonneg hgrows hwhole hlive hdelivered := by
    obtain ⟨rows, hrows, hpolled, hends⟩ := hS.polled hinc hnonneg polls [] afterId hgrows hwhole hlive hdelivered
    rw [← hpolled.rows]
    exact ⟨hrows, hends⟩
  wait afterId polls hne := by
    obtain ⟨used, p, hused, hlast, hevents, hcursor, hstatus, hbefore, hafter⟩ :=
      waitLoop_polls polls hne ⟨afterId.getD (-1), [], false, none⟩
    refine ⟨used, p, hused, hlast, hevents, hcursor, ?_, hbefore, hafter⟩
    show ((S.waitLoop ⟨afterId.getD (-1), [], false, none⟩ polls).status).any isTerminalStatus = _
    rw [hstatus]
    rfl

end Source

end VibeClient
