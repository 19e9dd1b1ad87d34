import VibeWorkflow.RunEventProofs
import VibeWorkflow.Utf8Proofs

/-!
# From the log file to the journal

A run writes its events to a file, one to a line, and the Node polls that file and journals what is
new.  A poll reads from its offset to the size it sees, splits what it has read into lines, and moves
the offset to that size.

* `pieces_content` — a read that begins and ends between lines gives the lines;
* **`tail_lossless`** — the journal has been handed exactly the complete lines of the file as it was
  last seen, in order and each once, and the tail has stopped only at a terminal event, in every run
  whose reads end between lines and whose idle timer does not fire before the end.
-/

namespace VibeTail

open VibeJson VibeJournal VibeRun CallRuns

/-- A line of the log, without its newline. -/
structure Line where
  text : List Char
  nonempty : text ≠ []
  single : '\n' ∉ text

/-- The bytes of the file once these lines are written. -/
def content (lines : List Line) : List Nat := Utf8.encode (lines.flatMap fun l => l.text ++ ['\n'])

/-- The lines whose newline lies within the first `size` bytes. -/
def completeLines : List Line → Nat → List Line
  | [], _ => []
  | l :: ls, size =>
    let bytes := (content [l]).length
    if bytes ≤ size then l :: completeLines ls (size - bytes) else []

/-- The journal, whether the tail has journaled a terminal event, and how many lines it has read. -/
structure Sink where
  journal : RunTables
  stopped : Bool
  count : Nat
deriving DecidableEq

def Sink.initial : Sink := ⟨RunTables.empty, false, 0⟩

/-- `observed` is the size of the file as the last poll saw it. -/
structure TailState where
  offset : Nat
  sink : Sink
  closed : Bool
  observed : Nat

def TailState.initial : TailState := ⟨0, Sink.initial, false, 0⟩

section

variable (jsonParse : String → Option Json) (clock : Nat → String)

/-- One line of a batch: a line that does not parse, and an event the journal refuses, are skipped. -/
def tailLine (k : Sink) (line : List Char) : Sink :=
  if k.stopped then k
  else
    let next := { k with count := k.count + 1 }
    match jsonParse (String.ofList line) with
    | none => next
    | some event =>
      if event = .null then next     -- a field read of `null` throws
      else match append k.journal (journalInput (clock k.count) event) with
        | (.error _, journal) => { next with journal := journal }
        | (.ok _, journal) => { next with journal := journal, stopped := isTerminal event }

/-- `buf.toString('utf8').split('\n').filter(Boolean)`. -/
def pieces (bytes : List Nat) : List (List Char) := ((Utf8.decode bytes).splitOn '\n').filter (· ≠ [])

/-- One poll of the file as it is now. -/
def flush (file : List Nat) (s : TailState) : TailState :=
  if file.length ≤ s.offset then s
  else { s with
    offset := file.length
    sink := (pieces (file.drop s.offset)).foldl (tailLine jsonParse clock) s.sink }

/-- A poll that sees the first `size` bytes of the file, or the idle timer. -/
inductive Observation where
  | poll (size : Nat)
  | idle

def tailStep (lines : List Line) (s : TailState) : Observation → TailState
  | .poll size =>
    let file := (content lines).take size
    let seen := { s with observed := max s.observed file.length }
    if s.closed || s.sink.stopped then seen else flush jsonParse clock file seen
  | .idle => { s with closed := true }

/-- The complete lines of the file as it was seen have been handed to the journal. -/
structure Handed (lines : List Line) (s : TailState) : Prop where
  journaled : s.sink = ((completeLines lines s.observed).map Line.text).foldl (tailLine jsonParse clock) Sink.initial
  stops : s.closed = true → s.sink.stopped = true

/-- The events of lines, where they parse. -/
def eventsOf (lines : List Line) : List Json := lines.filterMap fun l => jsonParse (String.ofList l.text)

/-- A log that a run writes: events the journal has a type and room for, the terminal one last. -/
structure Proper (lines : List Line) : Prop where
  parses : ∀ l ∈ lines, ∃ event, jsonParse (String.ofList l.text) = some event ∧ event ≠ .null ∧
    eventType event ∈ nodeRunEventTypes ∧ byteLen (stringify event) ≤ eventPayloadBytes
  room : lines.length ≤ eventsPerRun
  last : ∀ event ∈ eventsOf jsonParse lines.dropLast, isTerminal event = false
  clock : ∀ n, VibeTask.isIsoUtc (clock n) = true

/-- What the tail owes. -/
structure Lossless (lines : List Line) (s : TailState) : Prop where
  handed : Handed jsonParse clock lines s
  events : Proper jsonParse clock lines → s.sink.journal.events.map (fun r => (r.type, r.payloadJson)) =
    (eventsOf jsonParse (completeLines lines s.observed)).map (fun e => (eventType e, stringify e))
  ended : Proper jsonParse clock lines →
    (s.sink.stopped = true ↔ ∃ event ∈ eventsOf jsonParse (completeLines lines s.observed), isTerminal event = true)

end

/-- While the tail goes on, a read ends between two lines, and the idle timer does not fire. -/
def Whole (lines : List Line) (s : TailState) (o : Observation) : Prop :=
  s.sink.stopped = false →
    match o with
    | .poll size => ∃ k, (content lines).take size = content (lines.take k)
    | .idle => False

/-! ## Lines and bytes -/

section

variable {lines : List Line}

theorem content_append (as bs : List Line) : content (as ++ bs) = content as ++ content bs := by
  simp only [content, List.flatMap_append, Utf8.encode_append]

theorem content_cons (l : Line) (ls : List Line) : content (l :: ls) = content [l] ++ content ls :=
  content_append [l] ls

theorem content_pos (l : Line) : 0 < (content [l]).length := by
  have hsplit : content [l] = Utf8.encode l.text ++ [10] := by
    simp only [content, List.flatMap_cons, List.flatMap_nil, List.append_nil, Utf8.encode_append]
    rfl
  rw [hsplit, List.length_append]
  exact Nat.succ_pos _

/-- The lines that are split off. -/
theorem splitOn_lines (lines : List Line) :
    (lines.flatMap fun l => l.text ++ ['\n']).splitOn '\n' = lines.map Line.text ++ [[]] := by
  induction lines with
  | nil => rfl
  | cons l ls ih =>
    have hfree : ∀ c ∈ l.text, (c == '\n') = false := by
      intro c hc
      exact beq_false_of_ne fun heq => l.single (heq ▸ hc)
    rw [List.flatMap_cons, List.append_assoc, List.singleton_append, List.map_cons, List.cons_append, ← ih]
    exact List.splitOnP_append_cons_of_forall_mem hfree _ (beq_self_eq_true _) _

/-- **A read between lines** gives the lines. -/
theorem pieces_content (lines : List Line) : pieces (content lines) = lines.map Line.text := by
  rw [pieces, content, Utf8.decode_encode, splitOn_lines, List.filter_append]
  have hkeep : (lines.map Line.text).filter (· ≠ []) = lines.map Line.text := by
    rw [List.filter_eq_self]
    intro t ht
    obtain ⟨l, -, rfl⟩ := List.mem_map.mp ht
    exact decide_eq_true l.nonempty
  rw [hkeep]
  exact List.append_nil _

theorem completeLines_content (k : Nat) : completeLines lines (content (lines.take k)).length = lines.take k := by
  induction lines generalizing k with
  | nil =>
    rw [List.take_nil]
    rfl
  | cons l ls ih =>
    cases k with
    | zero =>
      have hpos := content_pos l
      simp only [List.take_zero, completeLines]
      exact if_neg (Nat.not_le.mpr hpos)
    | succ k =>
      rw [List.take_succ_cons, content_cons, List.length_append, completeLines]
      simp only [Nat.le_add_right, if_true, Nat.add_sub_cancel_left, ih]

/-- A longer file has the complete lines of a shorter one first. -/
theorem completeLines_mono {m n : Nat} (h : m ≤ n) : ∃ rest, completeLines lines n = completeLines lines m ++ rest := by
  induction lines generalizing m n with
  | nil => exact ⟨[], rfl⟩
  | cons l ls ih =>
    simp only [completeLines]
    by_cases hm : (content [l]).length ≤ m
    · obtain ⟨rest, hrest⟩ := ih (Nat.sub_le_sub_right h (content [l]).length)
      rw [if_pos hm, if_pos (hm.trans h), hrest]
      exact ⟨rest, rfl⟩
    · rw [if_neg hm]
      exact ⟨_, rfl⟩

/-- The bytes between two boundaries. -/
theorem content_between {j k : Nat} (h : (content (lines.take j)).length < (content (lines.take k)).length) :
    ∃ more, lines.take k = lines.take j ++ more ∧
      (content (lines.take k)).drop (content (lines.take j)).length = content more := by
  have hjk : j ≤ k := by
    by_contra hlt
    have hsplit : lines.take j = lines.take k ++ (lines.take j).drop k := by
      conv_lhs => rw [← List.take_append_drop k (lines.take j)]
      rw [List.take_take, Nat.min_eq_left (by omega)]
    rw [hsplit, content_append, List.length_append] at h
    omega
  have hsplit : lines.take k = lines.take j ++ (lines.take k).drop j := by
    conv_lhs => rw [← List.take_append_drop j (lines.take k)]
    rw [List.take_take, Nat.min_eq_left hjk]
  refine ⟨(lines.take k).drop j, hsplit, ?_⟩
  conv_lhs => rw [hsplit, content_append]
  exact List.drop_left

end

/-! ## Runs of the tail -/

section

variable {jsonParse : String → Option Json} {clock : Nat → String} {lines : List Line} {s : TailState}

theorem fold_stopped {k : Sink} (h : k.stopped = true) (texts : List (List Char)) :
    texts.foldl (tailLine jsonParse clock) k = k := by
  induction texts with
  | nil => rfl
  | cons t ts ih =>
    have hstep : tailLine jsonParse clock k t = k := if_pos h
    rw [List.foldl_cons, hstep, ih]

/-- While the tail goes on, its offset is the size it has seen, and lies between two lines. -/
structure TailInv (jsonParse : String → Option Json) (clock : Nat → String) (lines : List Line) (s : TailState) :
    Prop where
  handed : Handed jsonParse clock lines s
  offset : s.sink.stopped = false → s.observed = s.offset ∧ ∃ k, s.offset = (content (lines.take k)).length

theorem TailInv.initial : TailInv jsonParse clock lines TailState.initial where
  handed := by
    refine ⟨?_, nofun⟩
    have hnone : completeLines lines (content (lines.take 0)).length = lines.take 0 := completeLines_content 0
    rw [List.take_zero] at hnone
    show Sink.initial = ((completeLines lines (content []).length).map Line.text).foldl _ _
    rw [hnone]
    rfl
  offset _ := ⟨rfl, 0, rfl⟩

/-- A poll after the end changes nothing that is owed. -/
theorem Handed.seen (h : Handed jsonParse clock lines s) (hstop : s.sink.stopped = true) (size : Nat) :
    Handed jsonParse clock lines { s with observed := max s.observed size } := by
  refine ⟨?_, h.stops⟩
  obtain ⟨rest, hrest⟩ : ∃ rest, completeLines lines (max s.observed size) = completeLines lines s.observed ++ rest :=
    completeLines_mono (Nat.le_max_left _ _)
  show s.sink = ((completeLines lines (max s.observed size)).map Line.text).foldl _ _
  rw [hrest, List.map_append, List.foldl_append, ← h.journaled, fold_stopped hstop]

/-- **One observation** that is whole. -/
theorem tailStep_inv (h : TailInv jsonParse clock lines s) {o : Observation} (ho : Whole lines s o) :
    TailInv jsonParse clock lines (tailStep jsonParse clock lines s o) := by
  cases hstop : s.sink.stopped with
  | true =>
    cases o with
    | idle => exact ⟨⟨h.handed.journaled, fun _ => hstop⟩, fun hlive => nomatch hstop.symm.trans hlive⟩
    | poll size =>
      have hover : (s.closed || s.sink.stopped) = true := by rw [hstop, Bool.or_true]
      simp only [tailStep, hover, if_true]
      exact ⟨h.handed.seen hstop _, fun hlive => nomatch hstop.symm.trans hlive⟩
  | false =>
    have hgoes : s.closed = false := by
      cases hover : s.closed with
      | false => rfl
      | true => exact nomatch hstop.symm.trans (h.handed.stops hover)
    cases o with
    | idle => exact (ho hstop).elim
    | poll size =>
      obtain ⟨k, hk⟩ := ho hstop
      obtain ⟨hobs, j, hj⟩ := h.offset hstop
      have hgo : (s.closed || s.sink.stopped) = false := by rw [hgoes, hstop, Bool.or_self]
      simp only [tailStep, hgo, Bool.false_eq_true, if_false, hk, flush]
      split
      · -- nothing new: the size is no larger than what was seen
        rename_i hle
        have hmax : max s.observed (content (lines.take k)).length = s.observed :=
          Nat.max_eq_left (hobs ▸ hle)
        rw [hmax]
        exact h
      · rename_i hgt
        have hlt : (content (lines.take j)).length < (content (lines.take k)).length := by omega
        have hmax : max s.observed (content (lines.take k)).length = (content (lines.take k)).length :=
          Nat.max_eq_right (by omega)
        obtain ⟨more, hmore, hbytes⟩ := content_between hlt
        have hnext : s.sink = ((lines.take j).map Line.text).foldl (tailLine jsonParse clock) Sink.initial := by
          have hsink := h.handed.journaled
          rw [hobs, hj, completeLines_content] at hsink
          exact hsink
        rw [hmax, hj, hbytes, pieces_content]
        refine ⟨⟨?_, fun hover => nomatch hgoes.symm.trans hover⟩, fun _ => ⟨rfl, k, rfl⟩⟩
        show (more.map Line.text).foldl _ s.sink = ((completeLines lines _).map Line.text).foldl _ _
        rw [completeLines_content, hmore, List.map_append, List.foldl_append, ← hnext]

end

/-! ## What the journal has then -/

section

variable {jsonParse : String → Option Json} {clock : Nat → String} {lines : List Line}

theorem completeLines_prefix (lines : List Line) (n : Nat) : ∃ rest, lines = completeLines lines n ++ rest := by
  induction lines generalizing n with
  | nil => exact ⟨[], rfl⟩
  | cons l ls ih =>
    simp only [completeLines]
    split
    · obtain ⟨rest, hrest⟩ := ih (n - (content [l]).length)
      exact ⟨rest, congrArg (l :: ·) hrest⟩
    · exact ⟨l :: ls, rfl⟩

theorem eventsOf_append (as bs : List Line) : eventsOf jsonParse (as ++ bs) = eventsOf jsonParse as ++
    eventsOf jsonParse bs :=
  List.filterMap_append

theorem journalInput_valid {now : String} {event : Json} (htype : eventType event ∈ nodeRunEventTypes)
    (hsize : byteLen (stringify event) ≤ eventPayloadBytes) (hnow : VibeTask.isIsoUtc now = true) :
    validate (journalInput now event) = .ok (stringify event) := by
  have hts : VibeTask.isIsoUtc (journalInput now event).timestamp = true := by
    show VibeTask.isIsoUtc (if VibeTask.isIsoUtc (eventTs event) then eventTs event else now) = true
    split
    · assumption
    · exact hnow
  have htypes : nodeRunEventTypes.contains (journalInput now event).type = true := List.contains_iff_mem.mpr htype
  simp only [validate, htypes, hts, Bool.not_true, Bool.false_eq_true, if_false]
  exact if_neg (Nat.not_lt.mpr hsize)

/-- The journal after the lines of a proper log: the rows of their events, and the flag of the last. -/
structure Journaled (jsonParse : String → Option Json) (ls : List Line) (k : Sink) : Prop where
  inv : ∃ recorded, RunInv ⟨k.journal, recorded⟩
  length : k.journal.events.length = ls.length
  rows : k.journal.events.map (fun r => (r.type, r.payloadJson)) =
    (eventsOf jsonParse ls).map (fun e => (eventType e, stringify e))
  stopped : k.stopped = true ↔ ∃ event ∈ eventsOf jsonParse ls, isTerminal event = true
  flag : ∀ recorded, RunState.terminal ⟨k.journal, recorded⟩ = k.stopped

/-- **A proper log** is journaled event by event. -/
theorem fold_journaled (h : Proper jsonParse clock lines) {ls rest : List Line} (hls : lines = ls ++ rest) :
    Journaled jsonParse ls ((ls.map Line.text).foldl (tailLine jsonParse clock) Sink.initial) := by
  induction ls using List.reverseRecOn generalizing rest with
  | nil => exact ⟨⟨[], RunInv.initial⟩, rfl, rfl, ⟨nofun, by rintro ⟨e, he, -⟩; exact nomatch he⟩, fun _ => rfl⟩
  | append_singleton ls l ih =>
    have hsplit : lines = ls ++ (l :: rest) := by rw [hls, List.append_assoc, List.singleton_append]
    have hls' := ih hsplit
    obtain ⟨event, hparse, hnull, htype, hsize⟩ := h.parses l (by rw [hsplit]; simp)
    -- the terminal event is the last one, so none of the lines before this one is terminal
    have hopen : ((ls.map Line.text).foldl (tailLine jsonParse clock) Sink.initial).stopped = false := by
      rw [Bool.eq_false_iff]
      intro hstop
      obtain ⟨e, he, hend⟩ := hls'.stopped.mp hstop
      refine nomatch (h.last e ?_).symm.trans hend
      rw [hsplit, List.dropLast_append_of_ne_nil (List.cons_ne_nil l rest), eventsOf_append]
      exact List.mem_append_left _ he
    rw [List.map_append, List.foldl_append]
    generalize (ls.map Line.text).foldl (tailLine jsonParse clock) Sink.initial = k at hls' hopen
    obtain ⟨recorded, hinv⟩ := hls'.inv
    have hroom : k.journal.events.length < eventsPerRun := by
      have := h.room
      rw [hls'.length]
      rw [hsplit, List.length_append, List.length_cons] at this
      omega
    have hvalid := journalInput_valid htype hsize (h.clock k.count)
    have happend := hinv.append_ok ((hls'.flag recorded).trans hopen) hroom hvalid
    have hstep : tailLine jsonParse clock k l.text =
        ⟨(append k.journal (journalInput (clock k.count) event)).2, isTerminal event, k.count + 1⟩ := by
      simp only [tailLine, hopen, hparse, hnull, happend, Bool.false_eq_true, if_false]
    have hline : eventsOf jsonParse [l] = [event] := by
      simp only [eventsOf, List.filterMap_cons, hparse, List.filterMap_nil]
    have hquiet : ¬ ∃ e ∈ eventsOf jsonParse ls, isTerminal e = true := fun he =>
      nomatch hopen.symm.trans (hls'.stopped.mpr he)
    rw [List.map_cons, List.map_nil, List.foldl_cons, List.foldl_nil, hstep]
    refine ⟨hinv.after_append _, ?_, ?_, ?_, ?_⟩
    · rw [happend]
      simp only [RunRow.extended, List.length_append, List.length_singleton, hls'.length]
    · rw [happend, eventsOf_append, hline]
      simp only [RunRow.extended, List.map_append, hls'.rows]
      rfl
    · rw [eventsOf_append, hline]
      constructor
      · intro hend
        exact ⟨event, List.mem_append_right _ (List.mem_singleton.mpr rfl), hend⟩
      · rintro ⟨e, he, hend⟩
        rcases List.mem_append.mp he with he | he
        · exact (hquiet ⟨e, he, hend⟩).elim
        · exact List.mem_singleton.mp he ▸ hend
    · intro recorded'
      have hlive : RunState.terminal ⟨k.journal, recorded⟩ = false := (hls'.flag recorded).trans hopen
      rw [happend]
      show ((RunState.row ⟨k.journal, recorded⟩).terminalEventRecorded || isTerminal event) = isTerminal event
      rw [show (RunState.row ⟨k.journal, recorded⟩).terminalEventRecorded = false from hlive, Bool.false_or]

end

/-- **The tail loses nothing.**  In every run whose reads end between two lines and whose idle timer
    does not fire before the terminal event is journaled, the journal has been handed exactly the
    complete lines of the file as it was last seen, in order, each once, and the tail has stopped only
    after a terminal event. -/
theorem tail_lossless (jsonParse : String → Option Json) (clock : Nat → String) (lines : List Line)
    {observations : List Observation}
    (h : Always (tailStep jsonParse clock lines) (Whole lines) TailState.initial observations) :
    Lossless jsonParse clock lines (run (tailStep jsonParse clock lines) TailState.initial observations) := by
  have hinv : TailInv jsonParse clock lines (run (tailStep jsonParse clock lines) TailState.initial observations) :=
    h.inv_run (TailInv jsonParse clock lines) (fun _ _ hi ho => tailStep_inv hi ho) TailInv.initial
  generalize run (tailStep jsonParse clock lines) TailState.initial observations = s at hinv
  obtain ⟨rest, hrest⟩ := completeLines_prefix lines s.observed
  refine ⟨hinv.handed, fun hproper => ?_, fun hproper => ?_⟩
  · rw [hinv.handed.journaled]
    exact (fold_journaled hproper hrest).rows
  · rw [hinv.handed.journaled]
    exact (fold_journaled hproper hrest).stopped

/-- A log event, as its line has it. -/
def logText : String := "\x7b\"type\":\"log\"\x7d"

def logLine : Line := ⟨logText.toList, by decide +kernel, by decide +kernel⟩

/-- `JSON.parse` on that line and on its parts. -/
def parseLog (text : String) : Option Json := if text = logText then some (.obj [("type", .str "log")]) else none

def noon (_ : Nat) : String := "2024-01-01T12:00:00Z"

/-- Two lines that are read one after the other. -/
theorem two_lines_read :
    (run (tailStep parseLog noon [logLine, logLine]) TailState.initial [.poll 15,
      .poll 30]).sink.journal.events.length = 2 ∧
      Lossless parseLog noon [logLine, logLine]
        (run (tailStep parseLog noon [logLine, logLine]) TailState.initial [.poll 15, .poll 30]) := by
  refine ⟨by decide +kernel, tail_lossless parseLog noon [logLine, logLine] ?_⟩
  exact ⟨fun _ => ⟨1, by decide +kernel⟩, fun _ => ⟨2, by decide +kernel⟩, trivial⟩

/-- A read that ends inside a line loses it: the file is complete and seen, and nothing is journaled. -/
theorem line_read_in_parts_lost :
    ¬ ∀ observations, Lossless parseLog noon [logLine]
      (run (tailStep parseLog noon [logLine]) TailState.initial observations) := by
  intro h
  have hsink := (h [.poll 4, .poll 15]).handed.journaled
  revert hsink
  decide +kernel

end VibeTail
