import Mathlib.Data.List.Sort
import VibeWorkflow.JournalProofs

/-!
# Replay, then live

A subscriber of a run gets the events the journal has, and then those that are appended.  The first
part is a snapshot, delivered in the call; the second part is fanned out to the subscriber's queue,
which a scheduled drain empties.  A cutoff tells the two apart.

* `SubInv` — what a subscriber has got, still gets from the snapshot and has in its queue is all it
  asked for, in order;
* **`replay_then_live`** — every subscriber that has neither overflowed nor been closed gets exactly
  the events after its cursor, in every run in which each subscription fits the replay limit and does
  not ask beyond the end of a run the journal knows.
-/

namespace VibeJournal

open CallRuns

/-- The subscriber's own state; `delivered` is what its callback has seen. -/
structure Sub where
  afterSequence : Int
  cutoff : Int
  maxQueue : Nat
  replaying : List EventRow      -- what the call has still to deliver of its snapshot
  queue : List EventRow
  draining : Bool                -- a drain is scheduled
  emptying : Bool                -- a drain is running
  overflowed : Bool
  closed : Bool
  delivered : List EventRow
deriving DecidableEq

def Sub.live (sub : Sub) : Bool := !sub.closed && !sub.overflowed

/-- `LIMIT` of `readEvents`. -/
def readLimit : Nat := 100000

/-- The events a subscriber that asks from `afterSequence` on is to get. -/
def RunTables.eventsAfter (db : RunTables) (afterSequence : Int) : List EventRow :=
  db.events.filter fun e => decide (afterSequence < e.sequence)

def readEvents (db : RunTables) (afterSequence : Int) (limit : Nat) : List EventRow :=
  ((db.eventsAfter afterSequence).insertionSort fun a b => a.sequence ≤ b.sequence).take limit

/-- Everything before the first callback: the cutoff is the run's last sequence, or the cursor of a
    run the journal does not know. -/
def subscribe (db : RunTables) (afterSequence : Int) (maxQueue : Nat) : Sub where
  afterSequence := afterSequence
  cutoff := db.run.elim afterSequence RunRow.lastSequence
  maxQueue := maxQueue
  replaying := readEvents db afterSequence readLimit
  queue := []
  draining := false
  emptying := false
  overflowed := false
  closed := false
  delivered := []

/-- One subscriber's part of `fanout`, with `overflow` and `scheduleDrain`. -/
def fanout (ev : EventRow) (sub : Sub) : Sub :=
  if sub.closed || sub.overflowed then sub
  else if (ev.sequence : Int) ≤ sub.cutoff then sub
  else if (sub.queue ++ [ev]).length > sub.maxQueue then { sub with overflowed := true, queue := [] }
  else { sub with queue := sub.queue ++ [ev], draining := true }

/-- One turn of the loop over the snapshot. -/
def replayNext (sub : Sub) : Sub :=
  match sub.replaying with
  | [] => sub
  | ev :: rest =>
    if sub.closed || sub.overflowed then { sub with replaying := [] }
    else { sub with replaying := rest, delivered := sub.delivered ++ [ev] }

/-- The scheduled callback starts; it does not start inside the call that delivers the snapshot. -/
def startDrain (sub : Sub) : Sub :=
  if sub.draining && !sub.emptying && sub.replaying.isEmpty then
    { sub with draining := false, emptying := true } else sub

/-- One turn of the drain's loop. -/
def drainNext (sub : Sub) : Sub :=
  if !sub.emptying then sub
  else match sub.queue with
  | [] => { sub with emptying := false }
  | ev :: rest =>
    if sub.closed || sub.overflowed then { sub with emptying := false }
    else { sub with queue := rest, delivered := sub.delivered ++ [ev] }

def closeSub (sub : Sub) : Sub := { sub with closed := true }

/-! ## Interleavings -/

structure FeedState where
  run : RunState
  subs : List Sub

def FeedState.initial : FeedState := ⟨RunState.initial, []⟩

/-- A journal call, a new subscriber, or a step of the subscriber with the given number. -/
inductive FeedAction where
  | call (c : JournalCall)
  | subscribe (afterSequence : Int) (maxQueue : Nat)
  | replay (i : Nat)
  | drain (i : Nat)
  | deliver (i : Nat)
  | close (i : Nat)

def feedStep (s : FeedState) : FeedAction → FeedState
  | .call c =>
    { run := journalStep s.run c
      subs := (recordedBy c (callJournal s.run.db c).1).foldl (fun subs r => subs.map (fanout r.1)) s.subs }
  | .subscribe afterSequence maxQueue => { s with subs := s.subs ++ [subscribe s.run.db afterSequence maxQueue] }
  | .replay i => { s with subs := s.subs.modify i replayNext }
  | .drain i => { s with subs := s.subs.modify i startDrain }
  | .deliver i => { s with subs := s.subs.modify i drainNext }
  | .close i => { s with subs := s.subs.modify i closeSub }

/-- What a subscriber gets: what it has seen, what remains of the snapshot and its queue are all it
    asked for, each event once and in order; and a queue that is not empty is being drained. -/
structure Delivers (db : RunTables) (sub : Sub) : Prop where
  all : sub.delivered ++ (sub.replaying ++ sub.queue) = db.eventsAfter sub.afterSequence
  increasing : (sub.delivered.map EventRow.sequence).Pairwise (· < ·)
  scheduled : sub.queue ≠ [] → sub.draining = true ∨ sub.emptying = true

/-- A subscription whose snapshot is not cut and that does not start beyond the end of a run the
    journal knows. -/
def Fits (s : FeedState) (a : FeedAction) : Prop :=
  ∀ afterSequence maxQueue, a = .subscribe afterSequence maxQueue →
    (s.run.db.eventsAfter afterSequence).length ≤ readLimit ∧
      ∀ run, s.run.db.run = some run → afterSequence ≤ run.lastSequence

/-! ## The invariant -/

/-- A live subscriber's share of the invariant. -/
structure SubInv (db : RunTables) (sub : Sub) : Prop where
  all : sub.delivered ++ (sub.replaying ++ sub.queue) = db.eventsAfter sub.afterSequence
  scheduled : sub.queue ≠ [] → sub.draining = true ∨ sub.emptying = true
  replayed : sub.emptying = true → sub.replaying = []
  next : ∀ n : Nat, db.events.length ≤ n → (sub.cutoff < n ↔ sub.afterSequence < n)

structure FeedInv (s : FeedState) : Prop where
  run : RunInv s.run
  subs : ∀ sub ∈ s.subs, sub.live = true → SubInv s.run.db sub

section

variable {s : FeedState} {db db' : RunTables} {sub : Sub}

/-- The events stand in the order of their sequences. -/
theorem events_sorted (h : RunInv s.run) : s.run.db.events.Pairwise fun a b => a.sequence < b.sequence := by
  rw [← List.pairwise_map, h.contiguous]
  exact List.pairwise_lt_range

theorem readEvents_eq (h : RunInv s.run) {afterSequence : Int}
    (hfits : (s.run.db.eventsAfter afterSequence).length ≤ readLimit) :
    readEvents s.run.db afterSequence readLimit = s.run.db.eventsAfter afterSequence := by
  have hsorted : (s.run.db.eventsAfter afterSequence).Pairwise fun a b => a.sequence ≤ b.sequence :=
    ((events_sorted h).filter _).imp le_of_lt
  rw [readEvents, hsorted.insertionSort_eq, List.take_of_length_le hfits]

/-- **A new subscriber.** -/
theorem subscribe_inv (h : RunInv s.run) {afterSequence : Int} (maxQueue : Nat)
    (hfits : (s.run.db.eventsAfter afterSequence).length ≤ readLimit)
    (hend : ∀ run, s.run.db.run = some run → afterSequence ≤ run.lastSequence) :
    SubInv s.run.db (subscribe s.run.db afterSequence maxQueue) where
  all := by
    show [] ++ (readEvents _ _ _ ++ []) = _
    rw [List.nil_append, List.append_nil, readEvents_eq h hfits]
    rfl
  scheduled := nofun
  replayed := nofun
  next := by
    intro n hn
    cases hrun : s.run.db.run with
    | none =>
      simp only [subscribe, hrun, Option.elim_none]
    | some run =>
      have hmark := h.mark run hrun
      have hle := hend run hrun
      simp only [subscribe, hrun, Option.elim_some]
      omega

/-- The step keeps a live subscriber in order, and brings none back to life. -/
structure SubStep (db : RunTables) (f : Sub → Sub) : Prop where
  live : ∀ sub, (f sub).live = true → sub.live = true
  inv : ∀ sub, sub.live = true → SubInv db sub → SubInv db (f sub)

theorem live_iff : sub.live = true ↔ (sub.closed || sub.overflowed) = false := by
  simp [Sub.live]

theorem replayNext_step (db : RunTables) : SubStep db replayNext where
  live sub h := by
    unfold replayNext at h
    split at h
    · exact h
    · split at h
      · exact h
      · exact h
  inv sub hlive h := by
    unfold replayNext
    split
    · exact h
    · rename_i ev rest hr
      rw [if_neg (by rw [live_iff.mp hlive]; exact Bool.false_ne_true)]
      refine ⟨?_, h.scheduled, fun he => ?_, h.next⟩
      · have hall := h.all
        rw [hr] at hall
        simpa using hall
      · have hnil := h.replayed he
        rw [hr] at hnil
        exact nomatch hnil

theorem startDrain_step (db : RunTables) : SubStep db startDrain where
  live sub h := by
    unfold startDrain at h
    split at h
    · exact h
    · exact h
  inv sub hlive h := by
    unfold startDrain
    split
    · rename_i hstart
      refine ⟨h.all, fun _ => .inr rfl, fun _ => ?_, h.next⟩
      simp only [Bool.and_eq_true, List.isEmpty_iff] at hstart
      exact hstart.2
    · exact h

theorem drainNext_step (db : RunTables) : SubStep db drainNext where
  live sub h := by
    unfold drainNext at h
    split at h
    · exact h
    split at h
    · exact h
    · split at h
      · exact h
      · exact h
  inv sub hlive h := by
    unfold drainNext
    split
    · exact h
    rename_i hrunning
    have hnil : sub.replaying = [] := h.replayed (by simpa using hrunning)
    split
    · rename_i hq
      exact ⟨h.all, fun hne => absurd hq hne, nofun, h.next⟩
    · rename_i ev rest hq
      rw [if_neg (by rw [live_iff.mp hlive]; exact Bool.false_ne_true)]
      refine ⟨?_, fun _ => .inr (by simpa using hrunning), h.replayed, h.next⟩
      have hall := h.all
      rw [hq, hnil] at hall
      simpa [hnil] using hall

theorem closeSub_step (db : RunTables) : SubStep db closeSub where
  live _ h := nomatch h
  inv _ _ h := ⟨h.all, h.scheduled, h.replayed, h.next⟩

/-- **An appended event** reaches every live subscriber that asks for it. -/
theorem fanout_inv (h : SubInv db sub) {ev : EventRow} {db' : RunTables} (hdb : db'.events = db.events ++ [ev])
    (hseq : ev.sequence = db.events.length) (hlive : (fanout ev sub).live = true) : SubInv db' (fanout ev sub) := by
  have hwanted := h.next ev.sequence hseq.ge
  have hafter : db'.eventsAfter sub.afterSequence =
      db.eventsAfter sub.afterSequence ++ if sub.afterSequence < ev.sequence then [ev] else [] := by
    simp only [RunTables.eventsAfter, hdb, List.filter_append, List.filter_cons, List.filter_nil]
    by_cases hlt : sub.afterSequence < ev.sequence <;> simp [hlt]
  have hnext : ∀ n : Nat, db'.events.length ≤ n → (sub.cutoff < n ↔ sub.afterSequence < n) := by
    intro n hn
    rw [hdb, List.length_append] at hn
    exact h.next n (by simp at hn; omega)
  unfold fanout at hlive ⊢
  split at hlive
  · rename_i hdead
    rw [live_iff.mp hlive] at hdead
    exact nomatch hdead
  rename_i hopen
  rw [if_neg hopen]
  split at hlive
  · rename_i hle
    rw [if_pos hle]
    refine ⟨?_, h.scheduled, h.replayed, hnext⟩
    rw [hafter, if_neg (by omega), List.append_nil]
    exact h.all
  rename_i hgt
  rw [if_neg hgt]
  split at hlive
  · exact nomatch (live_iff.mp hlive).symm.trans (by simp : ((sub.closed || true) = true))
  · rename_i hroom
    rw [if_neg hroom]
    refine ⟨?_, fun _ => .inl rfl, h.replayed, hnext⟩
    rw [hafter, if_pos (by omega), ← h.all]
    simp

theorem fanout_live {ev : EventRow} (h : (fanout ev sub).live = true) : sub.live = true := by
  unfold fanout at h
  split at h
  · exact h
  split at h
  · exact h
  split at h
  · simp [Sub.live] at h
  · exact h

/-- What a call records is the next row of the run, or nothing. -/
theorem call_records (s : RunState) (h : RunInv s) (c : JournalCall) :
    (recordedBy c (callJournal s.db c).1 = [] ∧ (journalStep s c).db.events = s.db.events) ∨
      ∃ r : Recorded, recordedBy c (callJournal s.db c).1 = [r] ∧ r.1.sequence = s.db.events.length ∧
        (journalStep s c).db.events = s.db.events ++ [r.1] := by
  obtain ⟨row, hrec, heff⟩ := journalCall_cases s.db c
  unfold journalStep
  rw [hrec]
  generalize (callJournal s.db c).2 = db' at heff
  cases heff with
  | kept => exact .inl ⟨rfl, rfl⟩
  | ensured status => exact .inl ⟨rfl, ensureRun_events s.db status⟩
  | @appended _ event run text hoff ha =>
    have hrow : run = s.row := by
      have hrun := ha.row
      rw [ensureRun_run] at hrun
      exact (Option.some.inj hrun).symm
    exact .inr ⟨_, rfl, hrow ▸ h.next, rfl⟩
  | marked => exact .inl ⟨rfl, rfl⟩
  | bound => exact .inl ⟨rfl, rfl⟩

/-- The subscribers after a step of one of them. -/
theorem modify_subs {f : Sub → Sub} {subs : List Sub} (hf : SubStep db f) (i : Nat)
    (h : ∀ sub ∈ subs, sub.live = true → SubInv db sub) :
    ∀ sub ∈ subs.modify i f, sub.live = true → SubInv db sub := by
  intro sub hsub hlive
  obtain ⟨j, hj, hget⟩ := List.getElem_of_mem hsub
  rw [List.getElem_modify] at hget
  have hj' : j < subs.length := by simpa using hj
  have hmem : subs[j] ∈ subs := List.getElem_mem hj'
  split at hget
  · subst hget
    have hbefore := hf.live _ hlive
    exact hf.inv _ hbefore (h _ hmem hbefore)
  · subst hget
    exact h _ hmem hlive

/-- **One step** keeps the invariant. -/
theorem feedStep_inv (h : FeedInv s) {a : FeedAction} (ha : Fits s a) : FeedInv (feedStep s a) := by
  cases a with
  | call c =>
    refine ⟨journalStep_inv h.run c, ?_⟩
    rcases call_records s.run h.run c with ⟨hrec, hevents⟩ | ⟨r, hrec, hseq, hevents⟩
    · intro sub hsub hlive
      simp only [feedStep, hrec, List.foldl_nil] at hsub
      obtain ⟨hall, hsched, hrep, hnext⟩ := h.subs sub hsub hlive
      refine ⟨?_, hsched, hrep, ?_⟩
      · rw [hall, RunTables.eventsAfter, RunTables.eventsAfter]
        show _ = (journalStep s.run c).db.events.filter _
        rw [hevents]
      · intro n hn
        exact hnext n (hevents ▸ hn)
    · intro sub hsub hlive
      simp only [feedStep, hrec, List.foldl_cons, List.foldl_nil, List.mem_map] at hsub
      obtain ⟨sub, hold, rfl⟩ := hsub
      exact fanout_inv (h.subs sub hold (fanout_live hlive)) hevents hseq hlive
  | subscribe afterSequence maxQueue =>
    obtain ⟨hfits, hend⟩ := ha afterSequence maxQueue rfl
    refine ⟨h.run, fun sub hsub hlive => ?_⟩
    rcases List.mem_append.mp hsub with hold | hnew
    · exact h.subs sub hold hlive
    · rw [List.mem_singleton.mp hnew]
      exact subscribe_inv h.run maxQueue hfits hend
  | replay i => exact ⟨h.run, modify_subs (replayNext_step _) i h.subs⟩
  | drain i => exact ⟨h.run, modify_subs (startDrain_step _) i h.subs⟩
  | deliver i => exact ⟨h.run, modify_subs (drainNext_step _) i h.subs⟩
  | close i => exact ⟨h.run, modify_subs (closeSub_step _) i h.subs⟩

/-- What a subscriber has seen stands in order. -/
theorem SubInv.delivers (h : RunInv s.run) (hsub : SubInv s.run.db sub) : Delivers s.run.db sub := by
  refine ⟨hsub.all, ?_, hsub.scheduled⟩
  have hsorted : (s.run.db.eventsAfter sub.afterSequence).Pairwise fun a b => a.sequence < b.sequence :=
    (events_sorted h).filter _
  rw [← hsub.all] at hsorted
  exact List.pairwise_map.mpr (List.pairwise_append.mp hsorted).1

end

/-- **Replay, then live.**  In every run whose subscriptions fit, a subscriber that has neither
    overflowed nor been closed has got, or is still to get, exactly the events after its cursor, in
    increasing order and each once. -/
theorem replay_then_live {actions : List FeedAction} (h : Always feedStep Fits FeedState.initial actions) :
    let s := run feedStep FeedState.initial actions
    ∀ sub ∈ s.subs, sub.live = true → Delivers s.run.db sub := by
  intro s sub hsub hlive
  have hinv : FeedInv s :=
    h.inv_run FeedInv (fun s a hi ha => feedStep_inv hi ha) ⟨RunInv.initial, nofun⟩
  exact (hinv.subs sub hsub hlive).delivers hinv.run

/-- Two events, a subscriber from the first one on, and a third event that its drain delivers. -/
def sampleFeed : List FeedAction :=
  [.call (.append plainLog), .call (.append plainLog), .subscribe 0 10, .replay 0, .call (.append plainLog),
    .drain 0, .deliver 0, .deliver 0]

theorem sampleFeed_delivers :
    (run feedStep FeedState.initial sampleFeed).subs.map (fun sub => sub.delivered.map EventRow.sequence) = [[1, 2]] ∧
      ∀ sub ∈ (run feedStep FeedState.initial sampleFeed).subs, sub.live = true →
        Delivers (run feedStep FeedState.initial sampleFeed).run.db sub := by
  refine ⟨by decide +kernel, replay_then_live ?_⟩
  have hother {s : FeedState} {a : FeedAction} (ha : ∀ n m, a ≠ .subscribe n m) : Fits s a :=
    fun n m heq => absurd heq (ha n m)
  refine ⟨hother nofun, hother nofun, ?_, hother nofun, hother nofun, hother nofun, hother nofun, hother nofun, trivial⟩
  rintro _ _ ⟨⟩
  have hrun : (run feedStep FeedState.initial [.call (.append plainLog), .call (.append plainLog)]).run.db.run =
      some ⟨"running", 1, 0, false, none⟩ := by decide +kernel
  refine ⟨by decide +kernel, fun run h => ?_⟩
  obtain rfl := Option.some.inj (hrun.symm.trans h)
  decide

/-- A subscriber that asks for what follows sequence 5, on a run that has one event. -/
def beyondTheEnd : List FeedAction :=
  [.call (.append plainLog), .subscribe 5 10, .call (.append plainLog), .drain 0, .deliver 0]

/-- It gets event 1. -/
theorem delivered_before_cursor :
    ¬ ∀ actions, ∀ sub ∈ (run feedStep FeedState.initial actions).subs, sub.live = true →
      Delivers (run feedStep FeedState.initial actions).run.db sub := by
  intro h
  have hsub : (run feedStep FeedState.initial beyondTheEnd).subs =
      [⟨5, 0, 10, [], [], false, true, false, false, [⟨1, "log", "2024-01-01T00:00:00Z", "null"⟩]⟩] := by decide +kernel
  have hall := (h beyondTheEnd _ (hsub ▸ List.mem_singleton.mpr rfl) rfl).all
  revert hall
  decide +kernel

end VibeJournal
