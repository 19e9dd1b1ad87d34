import VibeWorkflow.FramingProofs
import VibeWorkflow.JsonParseProofs
import VibeWorkflow.Utf8Proofs

/-!
# A client of an event stream

The Gateway writes an event as three lines and a blank one, with the event's object as JSON; comments are
lines that start with a colon.  The client decodes each chunk, takes the complete frames off its buffer,
and keeps the payloads and the greatest id, until its time is over or an event ends the stream.

* `StreamEvent.frame`, `Item` — what is written;
* `Collected.take`, `Reader.chunk`, `collect` — what the client does with what it receives;
* `readFrame_frame` — the three lines of a frame read back;
* **`collect_items`** — whatever the chunks are and wherever they stop, the client has taken exactly the
  items that have arrived in full.
-/

namespace VibeClient

open VibeJson

/-! ## What is written -/

/-- An event of a stream. -/
structure StreamEvent where
  id : Int
  type : String
  data : Json
deriving DecidableEq

/-- `String(id)`. -/
def idText (n : Int) : List Char := if n < 0 then '-' :: JsNum.digits n.natAbs else JsNum.digits n.natAbs

/-- The lines of `sseFrame(ev)`, without the blank one. -/
def StreamEvent.frame (e : StreamEvent) : List Char :=
  "id: ".toList ++ idText e.id ++ '\n' :: ("event: ".toList ++ e.type.toList ++ '\n' ::
    ("data: ".toList ++ (stringify e.data).toList))

/-- What a stream consists of. -/
inductive Item where
  | comment (text : String)
  | event (e : StreamEvent)

def Item.frame : Item → List Char
  | .comment text => ':' :: ' ' :: text.toList
  | .event e => e.frame

def Item.event? : Item → Option StreamEvent
  | .comment _ => none
  | .event e => some e

/-- The bytes of a response. -/
def streamBytes (items : List Item) : List Nat := Utf8.encode (Framing.written '\n' (items.map Item.frame))

/-! ## What the client does -/

/-- `JSON.parse(dataLine)`, or the line as it is. -/
inductive Payload where
  | json (v : Json)
  | raw (text : String)
deriving DecidableEq

def parsePayload (data : List Char) : Payload :=
  match parse (String.ofList data) with
  | some v => .json v
  | none => .raw (String.ofList data)

/-- The lines of a frame that count, the last one of each kind. -/
structure FrameFields where
  type : List Char
  data : List Char
  id : List Char

def FrameFields.line (f : FrameFields) (line : List Char) : FrameFields :=
  if "event: ".toList.isPrefixOf line then { f with type := line.drop 7 }
  else if "data: ".toList.isPrefixOf line then { f with data := line.drop 6 }
  else if "id: ".toList.isPrefixOf line then { f with id := line.drop 4 }
  else f

def readFrame (frame : List Char) : FrameFields := (frame.splitOn '\n').foldl FrameFields.line ⟨[], [], []⟩

/-- `Number(idLine)`, for the texts of integers; an id is written in no other way. -/
def toNumber (t : List Char) : Option Int :=
  if t.head? = some '-' then
    if t.tail ≠ [] ∧ t.tail.all Char.isDigit then some (-(Nat.ofDigitChars 10 t.tail 0 : Int)) else none
  else if t.all Char.isDigit then some (Nat.ofDigitChars 10 t 0)
  else none

/-- What a poll has so far; `ended` once it left its loop at an event that ends the stream. -/
structure Collected where
  events : List Payload
  lastSeq : Int
  truncated : Bool
  ended : Bool
deriving DecidableEq

section

-- the types that end the stream, and the words of the warning that counts as truncation
variable (ends : String → Bool) (notice : String)

/-- One complete frame. -/
def Collected.take (s : Collected) (frame : List Char) : Collected :=
  if s.ended = true ∨ frame = [] then s
  else if frame.head? = some ':' then
    if containsChars notice.toList frame then { s with truncated := true } else s
  else
    let f := readFrame frame
    if f.type = [] then s
    else
      { s with
        events := s.events ++ [parsePayload f.data]
        lastSeq := match toNumber f.id with
          | some seq => max s.lastSeq seq
          | none => s.lastSeq
        ended := ends (String.ofList f.type) }

/-- The loop over `reader.read()`. -/
structure Reader where
  dec : Utf8.Decoder
  buf : List Char
  got : Collected

def Reader.chunk (s : Reader) (value : List Nat) : Reader :=
  if s.got.ended then s
  else
    let text := Utf8.decodeChunk s.dec value
    let frames := Framing.drain '\n' (s.buf ++ text.2)
    ⟨text.1, frames.2, frames.1.foldl (Collected.take ends notice) s.got⟩

/-- Before anything is read: the caller's cursor, or `-1`. -/
def Collected.start (afterId : Option Int) : Collected := ⟨[], afterId.getD (-1), false, false⟩

/-- What a poll has when its time is over or the stream has ended. -/
def collect (afterId : Option Int) (chunks : List (List Nat)) : Collected :=
  (chunks.foldl (Reader.chunk ends notice) ⟨.idle, [], .start afterId⟩).got

/-- What an item does. -/
def Collected.item (s : Collected) (i : Item) : Collected :=
  if s.ended then s
  else match i with
    | .comment text => if containsChars notice.toList (Item.comment text).frame then { s with truncated := true } else s
    | .event e => { s with events := s.events ++ [.json e.data], lastSeq := max s.lastSeq e.id, ended := ends e.type }

end

/-! ## A frame reads back -/

/-- A text on one line. -/
def OneLine (s : String) : Prop := ∀ c ∈ s.toList, c ≠ '\n'

/-- No newline among the characters, as a fact that evaluates. -/
theorem line_of_notMem {l : List Char} (h : '\n' ∉ l) : ∀ c ∈ l, c ≠ '\n' := by
  rintro c hc rfl
  exact h hc

/-- For literals: their characters are looked at as they are written. -/
theorem oneLine_ofList {l : List Char} (h : '\n' ∉ l) : OneLine (String.ofList l) := by
  unfold OneLine
  rw [String.toList_ofList]
  exact line_of_notMem h

/-- Comments are one line, and so are types, which are not empty. -/
def Item.Plain : Item → Prop
  | .comment text => OneLine text
  | .event e => e.type ≠ "" ∧ OneLine e.type

theorem escapeChar_line (c : Char) : ∀ d ∈ escapeChar c, d ≠ '\n' := by
  have hhex : ∀ n < 16, hexDigit n ≠ '\n' := by decide
  unfold escapeChar
  split
  · exact line_of_notMem (by decide)
  · split
    · exact line_of_notMem (by decide)
    · split
      · exact line_of_notMem (by decide)
      · rename_i hne
        repeat' split
        all_goals first
          | exact line_of_notMem (by decide)
          | (intro d hd
             rw [List.mem_singleton.mp hd]
             exact hne)
          | skip
        rename_i hcode
        intro d hd
        simp only [List.mem_cons, List.not_mem_nil, or_false] at hd
        rcases hd with rfl | rfl | rfl | rfl | rfl | rfl
        · decide
        · decide
        · decide
        · decide
        · exact hhex _ (by omega)
        · exact hhex _ (by omega)

theorem quoteChars_line (s : String) : ∀ c ∈ quoteChars s, c ≠ '\n' := by
  intro c hc
  rcases List.mem_cons.mp hc with rfl | hc
  · decide
  · rcases List.mem_append.mp hc with hc | hc
    · obtain ⟨d, -, hd⟩ := List.mem_flatMap.mp hc
      exact escapeChar_line d c hd
    · rw [List.mem_singleton.mp hc]
      decide

theorem numberChar_line {c : Char} (h : JsNum.isNumberChar c = true) : c ≠ '\n' := by
  rintro rfl
  exact absurd h (by decide)

mutual

/-- **A JSON text is one line.** -/
theorem textChars_line (v : Json) : ∀ c ∈ textChars v, c ≠ '\n' := by
  match v with
  | .null => exact line_of_notMem (by decide)
  | .bool true => exact line_of_notMem (by decide)
  | .bool false => exact line_of_notMem (by decide)
  | .num n => exact fun c hc => numberChar_line (n.toText_shape.2 c hc)
  | .str s => exact quoteChars_line s
  | .arr xs =>
    intro c hc
    rcases List.mem_cons.mp hc with rfl | hc
    · decide
    · rcases List.mem_append.mp hc with hc | hc
      · exact textCharsList_line xs c hc
      · rw [List.mem_singleton.mp hc]
        decide
  | .obj kvs =>
    intro c hc
    rcases List.mem_cons.mp hc with rfl | hc
    · decide
    · rcases List.mem_append.mp hc with hc | hc
      · exact textCharsFields_line kvs c hc
      · rw [List.mem_singleton.mp hc]
        decide

theorem textCharsList_line (xs : List Json) : ∀ c ∈ textCharsList xs, c ≠ '\n' := by
  match xs with
  | [] => exact fun c hc => nomatch hc
  | [x] =>
    rw [textCharsList]
    exact textChars_line x
  | x :: y :: rest =>
    rw [textCharsList]
    intro c hc
    rcases List.mem_append.mp hc with hc | hc
    · exact textChars_line x c hc
    · rcases List.mem_cons.mp hc with rfl | hc
      · decide
      · exact textCharsList_line (y :: rest) c hc

theorem textCharsFields_line (kvs : List (String × Json)) : ∀ c ∈ textCharsFields kvs, c ≠ '\n' := by
  match kvs with
  | [] => exact fun c hc => nomatch hc
  | [(k, v)] =>
    rw [textCharsFields]
    intro c hc
    rcases List.mem_append.mp hc with hc | hc
    · exact quoteChars_line k c hc
    · rcases List.mem_cons.mp hc with rfl | hc
      · decide
      · exact textChars_line v c hc
  | (k, v) :: y :: rest =>
    rw [textCharsFields]
    intro c hc
    rcases List.mem_append.mp hc with hc | hc
    · exact quoteChars_line k c hc
    · rcases List.mem_cons.mp hc with rfl | hc
      · decide
      · rcases List.mem_append.mp hc with hc | hc
        · exact textChars_line v c hc
        · rcases List.mem_cons.mp hc with rfl | hc
          · decide
          · exact textCharsFields_line (y :: rest) c hc

end

theorem stringify_line (v : Json) : OneLine (stringify v) := by
  unfold OneLine stringify
  rw [String.toList_ofList]
  exact textChars_line v

theorem idText_line (n : Int) : ∀ c ∈ idText n, c ≠ '\n' := by
  have hdigits : ∀ c ∈ JsNum.digits n.natAbs, c ≠ '\n' := fun c hc => JsNum.digit_ne (JsNum.digits_isDigit c hc) rfl
  unfold idText
  split
  · intro c hc
    rcases List.mem_cons.mp hc with rfl | hc
    · decide
    · exact hdigits c hc
  · exact hdigits

/-- An id reads back. -/
theorem toNumber_idText (n : Int) : toNumber (idText n) = some n := by
  have hval : Nat.ofDigitChars 10 (JsNum.digits n.natAbs) 0 = n.natAbs := Nat.ofDigitChars_ten_toDigits
  have hall : (JsNum.digits n.natAbs).all Char.isDigit = true := List.all_eq_true.mpr JsNum.digits_isDigit
  unfold idText
  split
  · rename_i hneg
    show (if JsNum.digits n.natAbs ≠ [] ∧ (JsNum.digits n.natAbs).all Char.isDigit then
      some (-(Nat.ofDigitChars 10 (JsNum.digits n.natAbs) 0 : Int)) else none) = _
    rw [if_pos ⟨JsNum.digits_ne_nil _, hall⟩, hval]
    exact congrArg some (by omega)
  · rename_i hpos
    have hhead : (JsNum.digits n.natAbs).head? ≠ some '-' := by
      cases hd : JsNum.digits n.natAbs with
      | nil => exact nofun
      | cons c rest =>
        intro heq
        have hc := JsNum.digits_isDigit c (by rw [hd]; exact List.mem_cons_self)
        rw [Option.some.inj heq] at hc
        exact absurd hc (by decide)
    unfold toNumber
    rw [if_neg hhead, if_pos hall, hval]
    exact congrArg some (by omega)

theorem prefixed_line (head : String) {l : List Char} (hhead : OneLine head) (hl : ∀ c ∈ l, c ≠ '\n') :
    ∀ c ∈ head.toList ++ l, c ≠ '\n' := by
  intro c hc
  rcases List.mem_append.mp hc with hc | hc
  · exact hhead c hc
  · exact hl c hc

/-- **The three lines of a frame read back.** -/
theorem readFrame_frame (e : StreamEvent) (h : OneLine e.type) :
    readFrame e.frame = ⟨e.type.toList, (stringify e.data).toList, idText e.id⟩ := by
  have hfree : ∀ {l : List Char}, (∀ c ∈ l, c ≠ '\n') → ∀ c ∈ l, (c == '\n') = false :=
    fun hl c hc => beq_false_of_ne (hl c hc)
  have hid := prefixed_line "id: " (oneLine_ofList (by decide)) (idText_line e.id)
  have htype := prefixed_line "event: " (oneLine_ofList (by decide)) h
  have hdata := prefixed_line "data: " (oneLine_ofList (by decide)) (stringify_line e.data)
  have hlines : e.frame.splitOn '\n' =
      ["id: ".toList ++ idText e.id, "event: ".toList ++ e.type.toList, "data: ".toList ++ (stringify e.data).toList] := by
    unfold StreamEvent.frame List.splitOn
    rw [List.splitOnP_append_cons_of_forall_mem (hfree hid) _ (beq_self_eq_true _),
      List.splitOnP_append_cons_of_forall_mem (hfree htype) _ (beq_self_eq_true _)]
    rw [List.splitOnP_eq_singleton (hfree hdata)]
  unfold readFrame
  rw [hlines]
  rfl

theorem parsePayload_stringify (v : Json) : parsePayload (stringify v).toList = .json v := by
  unfold parsePayload
  rw [String.ofList_toList, parse_stringify]

/-- A frame is one, whatever its text. -/
theorem Item.Plain.clean {i : Item} (h : i.Plain) : Framing.Clean '\n' i.frame := by
  cases i with
  | comment text =>
    have hline := prefixed_line ": " (oneLine_ofList (by decide)) h
    have hclean := Framing.Clean.line hline Framing.clean_nil
    rw [List.append_nil] at hclean
    exact hclean
  | event e =>
    have hid := prefixed_line "id: " (oneLine_ofList (by decide)) (idText_line e.id)
    have htype := prefixed_line "event: " (oneLine_ofList (by decide)) h.2
    have hdata := prefixed_line "data: " (oneLine_ofList (by decide)) (stringify_line e.data)
    have hthird := Framing.Clean.line hdata Framing.clean_nil
    rw [List.append_nil] at hthird
    -- no line is empty, so no two line ends meet
    exact .line hid (.newline (by decide) (.line htype (.newline (by decide) hthird)))

/-! ## What arrives -/

section

variable {ends : String → Bool} {notice : String}

/-- **A complete frame does what its item says.** -/
theorem take_frame (s : Collected) {i : Item} (h : i.Plain) : s.take ends notice i.frame = s.item ends notice i := by
  by_cases hended : s.ended = true
  · unfold Collected.take Collected.item
    rw [if_pos (.inl hended), if_pos hended]
  · unfold Collected.item
    rw [if_neg hended]
    cases i with
    | comment text =>
      have hne : ¬ (s.ended = true ∨ (Item.comment text).frame = []) := not_or.mpr ⟨hended, List.cons_ne_nil _ _⟩
      unfold Collected.take
      have hhead : (Item.comment text).frame.head? = some ':' := rfl
      rw [if_neg hne, if_pos hhead]
    | event e =>
      have hne : ¬ (s.ended = true ∨ (Item.event e).frame = []) := not_or.mpr ⟨hended, List.cons_ne_nil _ _⟩
      have hhead : ¬ (Item.event e).frame.head? = some ':' := fun heq => absurd (Option.some.inj heq) (by decide)
      have htype : ¬ e.type.toList = [] := fun hnil => h.1 (String.toList_inj.mp hnil)
      have hread : readFrame (Item.event e).frame = ⟨e.type.toList, (stringify e.data).toList, idText e.id⟩ :=
        readFrame_frame e h.2
      unfold Collected.take
      rw [if_neg hne, if_neg hhead]
      simp only [hread, if_neg htype, parsePayload_stringify, toNumber_idText, String.ofList_toList]

theorem take_ended {s : Collected} (h : s.ended = true) (frames : List (List Char)) :
    frames.foldl (Collected.take ends notice) s = s := by
  induction frames with
  | nil => rfl
  | cons f frames ih =>
    have hone : s.take ends notice f = s := if_pos (.inl h)
    rw [List.foldl_cons, hone, ih]

variable (ends notice) in
/-- What a reader has after some bytes: it took the frames of their text, and goes on where they stop. -/
structure Reading (start : Collected) (bytes : List Nat) (r : Reader) : Prop where
  split : ∃ fs rest, Framing.Split '\n' (Utf8.decodeChunk .idle bytes).2 fs rest ∧
    r.got = fs.foldl (Collected.take ends notice) start ∧ (r.got.ended = false → r.buf = rest)
  dec : r.got.ended = false → r.dec = (Utf8.decodeChunk .idle bytes).1

theorem Reading.chunk {start : Collected} {bytes : List Nat} {r : Reader}
    (h : Reading ends notice start bytes r) (value : List Nat) :
    Reading ends notice start (bytes ++ value) (r.chunk ends notice value) := by
  obtain ⟨⟨fs, rest, hsplit, hgot, hbuf⟩, hdec⟩ := h
  have htext := Utf8.decodeChunk_append .idle bytes value
  by_cases hended : r.got.ended = true
  · -- the rest is split all the same, and nothing of it is taken
    have hsame : r.chunk ends notice value = r := if_pos hended
    have hmore := hsplit.append (Framing.drain_split
      (rest ++ (Utf8.decodeChunk (Utf8.decodeChunk .idle bytes).1 value).2))
    rw [hsame]
    refine ⟨⟨_, _, by rw [htext]; exact hmore, ?_, ?_⟩, ?_⟩
    · rw [List.foldl_append, ← hgot, take_ended hended]
    · intro hlive
      rw [hended] at hlive
      exact nomatch hlive
    · intro hlive
      rw [hended] at hlive
      exact nomatch hlive
  · have hlive : r.got.ended = false := Bool.not_eq_true _ ▸ hended
    have hchunk : r.chunk ends notice value =
        ⟨(Utf8.decodeChunk r.dec value).1, (Framing.drain '\n' (r.buf ++ (Utf8.decodeChunk r.dec value).2)).2,
          (Framing.drain '\n' (r.buf ++ (Utf8.decodeChunk r.dec value).2)).1.foldl
            (Collected.take ends notice) r.got⟩ :=
      if_neg hended
    rw [hbuf hlive, hdec hlive] at hchunk
    have hmore := hsplit.append (Framing.drain_split
      (rest ++ (Utf8.decodeChunk (Utf8.decodeChunk .idle bytes).1 value).2))
    rw [hchunk]
    refine ⟨⟨_, _, by rw [htext]; exact hmore, ?_, ?_⟩, ?_⟩
    · rw [List.foldl_append, ← hgot]
    · exact fun _ => rfl
    · intro _
      rw [htext]

variable (ends notice) in
theorem reading_chunks (start : Collected) (chunks : List (List Nat)) :
    Reading ends notice start chunks.flatten
      (chunks.foldl (Reader.chunk ends notice) ⟨.idle, [], start⟩) := by
  have hrun : ∀ (chunks : List (List Nat)) (bytes : List Nat) (r : Reader),
      Reading ends notice start bytes r →
      Reading ends notice start (bytes ++ chunks.flatten)
        (chunks.foldl (Reader.chunk ends notice) r) := by
    intro chunks
    induction chunks with
    | nil =>
      intro bytes r h
      rw [List.flatten_nil, List.append_nil]
      exact h
    | cons value chunks ih =>
      intro bytes r h
      rw [List.flatten_cons, ← List.append_assoc, List.foldl_cons]
      exact ih _ _ (h.chunk value)
  exact hrun chunks [] _ ⟨⟨[], [], .rest rfl, rfl, fun _ => rfl⟩, fun _ => rfl⟩

theorem written_take (items : List Item) (k : Nat) :
    Framing.written '\n' ((items.map Item.frame).take k) <+: Framing.written '\n' (items.map Item.frame) := by
  refine ⟨Framing.written '\n' ((items.map Item.frame).drop k), ?_⟩
  unfold Framing.written
  rw [← List.flatMap_append, List.take_append_drop]

theorem fold_frames {items : List Item} (hplain : ∀ i ∈ items, i.Plain) (s : Collected) :
    (items.map Item.frame).foldl (Collected.take ends notice) s = items.foldl (Collected.item ends notice) s := by
  rw [List.foldl_map]
  induction items generalizing s with
  | nil => rfl
  | cons i items ih =>
    rw [List.foldl_cons, List.foldl_cons, take_frame s (hplain i List.mem_cons_self)]
    exact ih (fun j hj => hplain j (List.mem_cons_of_mem _ hj)) _

variable (ends notice) in
/-- **Exactly the items that have arrived**: however the bytes are cut into chunks, and wherever they stop, the
    client has taken the first `k` items, where `k` is the greatest number of items whose bytes are all there. -/
theorem collect_items (afterId : Option Int) {items : List Item} {chunks : List (List Nat)}
    (hplain : ∀ i ∈ items, i.Plain) (h : chunks.flatten <+: streamBytes items) :
    ∃ k ≤ items.length, collect ends notice afterId chunks =
        (items.take k).foldl (Collected.item ends notice) (.start afterId) ∧
      (streamBytes (items.take k)).length ≤ chunks.flatten.length ∧
      ∀ j ≤ items.length, (streamBytes (items.take j)).length ≤ chunks.flatten.length → j ≤ k := by
  obtain ⟨⟨fs, rest, hsplit, hgot, -⟩, -⟩ := reading_chunks ends notice (.start afterId) chunks
  obtain ⟨more, htext, hfit, hlongest⟩ := Utf8.decodeChunk_received h
  have hclean : ∀ f ∈ items.map Item.frame, Framing.Clean '\n' f := by
    intro f hf
    obtain ⟨i, hi, rfl⟩ := List.mem_map.mp hf
    exact (hplain i hi).clean
  obtain ⟨k, rest', hsplit', hk, hmax⟩ := Framing.split_received hclean ⟨more, htext.symm⟩
  obtain ⟨rfl, rfl⟩ := hsplit.unique hsplit'
  rw [List.length_map] at hk
  refine ⟨k, hk, ?_, ?_, ?_⟩
  · show (chunks.foldl (Reader.chunk ends notice) ⟨.idle, [], .start afterId⟩).got = _
    rw [hgot, ← List.map_take]
    exact fold_frames (fun i hi => hplain i (List.mem_of_mem_take hi)) _
  · have hwritten : Framing.written '\n' ((items.map Item.frame).take k) <+:
      (Utf8.decodeChunk .idle chunks.flatten).2 :=
      Framing.Split.written_le hsplit
    obtain ⟨tail, htail⟩ := hwritten
    refine Nat.le_trans ?_ hfit
    unfold streamBytes
    rw [List.map_take, ← htail, Utf8.encode_append, List.length_append]
    exact Nat.le_add_right _ _
  · intro j hj hlen
    refine hmax j (by rw [List.length_map]; exact hj) (hlongest _ (written_take items j) ?_)
    unfold streamBytes at hlen
    rw [List.map_take] at hlen
    exact hlen

variable (ends notice) in
/-- A response that has arrived in full. -/
theorem collect_whole (afterId : Option Int) {items : List Item} {chunks : List (List Nat)}
    (hplain : ∀ i ∈ items, i.Plain) (h : chunks.flatten = streamBytes items) :
    collect ends notice afterId chunks = items.foldl (Collected.item ends notice) (.start afterId) := by
  obtain ⟨k, -, hcollect, -, hmax⟩ := collect_items ends notice afterId hplain ⟨[], (List.append_nil _).trans h⟩
  have hall := hmax items.length (Nat.le_refl _) (by rw [List.take_length, h])
  rw [hcollect, List.take_of_length_le hall]

end

end VibeClient
