import VibeWorkflow.Utf8Proofs
import VibeWorkflow.FramingProofs
import VibeWorkflow.JsonParseProofs
import VibeWorkflow.ContractProofs

/-!
# The lines of an agent's output

`execAgent` reads an agent's stdout as it comes: each chunk is decoded on its own, added to what is left of
the last line, and split at newlines; every complete line that is not blank is handed to the adapter.  The
reference decodes the whole output at once and takes all its lines, the last one too.

* `Reader.onData`, `handed` — the handler of a chunk, and the lines handed on when the process closes;
* `handed_eq` — these are the complete lines of the chunks decoded one by one;
* **`stdout_lines_iff`** — every way to cut an output gives its lines just when its complete lines hold no
  byte that goes on with a character, and what follows the last newline is blank.
-/

namespace VibeAgentOutput

open VibeJson VibeContract

/-! ## The handler -/

/-- `!line.trim()`. -/
def blank (line : List Char) : Bool := trimChars line == []

def nonBlank (lines : List (List Char)) : List (List Char) := lines.filter fun line => !blank line

/-- `stdoutBuf`, and the lines that went to `onStdoutLine`. -/
structure Reader where
  buf : List Char
  lines : List (List Char)

def Reader.onData (r : Reader) (chunk : List Nat) : Reader :=
  let text := Utf8.decode chunk
  let lines := (r.buf ++ text).splitOn '\n'
  ⟨lines.getLast?.getD [], r.lines ++ nonBlank lines.dropLast⟩

/-- The lines that were handed on when the process closes: nothing is left to do with the buffer. -/
def handed (chunks : List (List Nat)) : List (List Char) := (chunks.foldl Reader.onData ⟨[], []⟩).lines

/-- The lines of an output that is decoded whole. -/
def outputLines (bytes : List Nat) : List (List Char) := nonBlank ((Utf8.decode bytes).splitOn '\n')

/-- The final result of the Claude adapter: what the last `result` message set. -/
def explicitFinal (lines : List (List Char)) : Option String :=
  lines.foldl (fun final line =>
    match parse (String.ofList line) with
    | none => final
    | some msg => if strField? msg "type" = some "result" then (strField? msg "result").or final else final) none

/-! ## Lines of the chunks -/

theorem nonBlank_append (as bs : List (List Char)) : nonBlank (as ++ bs) = nonBlank as ++ nonBlank bs :=
  List.filter_append as bs

/-- **The reader keeps up**: it has handed on the complete lines of what it decoded, and holds the rest. -/
theorem foldl_onData (chunks : List (List Nat)) (text : List Char) :
    chunks.foldl Reader.onData ⟨(text.splitOn '\n').getLast?.getD [], nonBlank (text.splitOn '\n').dropLast⟩ =
      ⟨((text ++ chunks.flatMap Utf8.decode).splitOn '\n').getLast?.getD [],
        nonBlank ((text ++ chunks.flatMap Utf8.decode).splitOn '\n').dropLast⟩ := by
  induction chunks generalizing text with
  | nil => rw [List.flatMap_nil, List.append_nil]; rfl
  | cons chunk chunks ih =>
    have hsplit := @Lines.splitOn_append _ _ _ '\n' text (Utf8.decode chunk)
    have hne := @List.splitOn_ne_nil _ _ '\n' ((text.splitOn '\n').getLast?.getD [] ++ Utf8.decode chunk)
    have hstep : Reader.onData ⟨(text.splitOn '\n').getLast?.getD [], nonBlank (text.splitOn '\n').dropLast⟩ chunk =
        ⟨((text ++ Utf8.decode chunk).splitOn '\n').getLast?.getD [],
          nonBlank ((text ++ Utf8.decode chunk).splitOn '\n').dropLast⟩ := by
      unfold Reader.onData
      rw [hsplit, List.getLast?_append_of_ne_nil _ hne, List.dropLast_append_of_ne_nil hne, nonBlank_append]
    rw [List.foldl_cons, hstep, ih, List.flatMap_cons, List.append_assoc]

theorem handed_eq (chunks : List (List Nat)) :
    handed chunks = nonBlank ((chunks.flatMap Utf8.decode).splitOn '\n').dropLast :=
  congrArg Reader.lines (foldl_onData chunks [])

/-! ## Blank lines -/

theorem blank_iff {line : List Char} : blank line = true ↔ ∀ c ∈ line, isJsSpace c = true := by
  unfold blank trimChars
  rw [beq_iff_eq, List.reverse_eq_nil_iff, List.dropWhile_eq_nil_iff]
  constructor
  · intro h
    refine List.dropWhile_eq_nil_iff.mp ?_
    by_contra hne
    obtain ⟨c, hc, hspace⟩ : ∃ c ∈ line.dropWhile isJsSpace, isJsSpace c = false := by
      have hhead := List.head?_dropWhile_not isJsSpace line
      cases hdrop : line.dropWhile isJsSpace with
      | nil => exact absurd hdrop hne
      | cons c rest =>
        rw [hdrop] at hhead
        exact ⟨c, List.mem_cons_self, hhead⟩
    rw [h c (List.mem_reverse.mpr hc)] at hspace
    exact nomatch hspace
  · intro h c hc
    exact h c (List.dropWhile_subset _ (List.mem_reverse.mp hc))

theorem nonBlank_concat_eq {lines : List (List Char)} {last : List Char} :
    nonBlank (lines ++ [last]) = nonBlank lines ↔ blank last = true := by
  rw [nonBlank_append]
  constructor
  · intro h
    have hnil : nonBlank [last] = [] := List.append_right_eq_self.mp h
    cases hlast : blank last with
    | true => rfl
    | false =>
      unfold nonBlank at hnil
      rw [List.filter_cons_of_pos (by rw [hlast]; rfl)] at hnil
      exact nomatch hnil
  · intro h
    unfold nonBlank
    rw [List.filter_cons_of_neg (by rw [h]; exact Bool.false_ne_true)]
    exact List.append_nil _

/-- A line whose bytes are blank one by one is blank. -/
theorem blank_decode {line : List Nat} (h : blank (line.map Utf8.byteChar) = true) :
    Utf8.decode line = line.map Utf8.byteChar := by
  refine Utf8.decode_single ?_
  have hascii : ∀ b ∈ line, (Utf8.first b).1.needed = 0 := by
    intro b hb
    have hspace := blank_iff.mp h _ (List.mem_map.mpr ⟨b, hb, rfl⟩)
    rcases Utf8.first_cases b with hone | ⟨-, -, hchar⟩
    · rw [hone]
      rfl
    · rw [hchar] at hspace
      exact nomatch hspace
  clear h
  induction line with
  | nil => exact List.isChain_nil
  | cons x line ih =>
    refine List.isChain_cons.mpr ⟨fun y _ hbegins => ?_, ih fun b hb => hascii b (List.mem_cons_of_mem _ hb)⟩
    exact hbegins.1 (hascii x List.mem_cons_self)

/-! ## Lines of the bytes -/

/-- The byte lines of an output that end in a newline. -/
def completeLines (bytes : List Nat) : List (List Nat) := (bytes.splitOn 10).dropLast

/-- What stands after the last newline. -/
def lastLine (bytes : List Nat) : List Nat := (bytes.splitOn 10).getLast?.getD []

section

variable {lines : List (List Nat)} {rest : List Nat}

theorem lines_joined (hlines : ∀ l ∈ lines, 10 ∉ l) (hrest : 10 ∉ rest) :
    completeLines (Lines.joined 10 lines rest) = lines ∧ lastLine (Lines.joined 10 lines rest) = rest := by
  unfold completeLines lastLine
  rw [Lines.splitOn_joined hlines hrest, List.dropLast_concat, List.getLast?_concat]
  exact ⟨rfl, rfl⟩

theorem decode_joined : Utf8.decode (Lines.joined 10 lines rest) =
    Lines.joined '\n' (lines.map Utf8.decode) (Utf8.decode rest) := by
  induction lines with
  | nil => rfl
  | cons l lines ih =>
    have hcons : Lines.joined 10 (l :: lines) rest = l ++ 10 :: Lines.joined 10 lines rest := by
      unfold Lines.joined
      rw [List.flatMap_cons, List.append_assoc, List.append_assoc]
      rfl
    rw [hcons, Utf8.decode_newline, ih]
    unfold Lines.joined
    rw [List.map_cons, List.flatMap_cons, List.append_assoc, List.append_assoc]
    rfl

theorem splitOn_decode (hlines : ∀ l ∈ lines, 10 ∉ l) (hrest : 10 ∉ rest) :
    (Utf8.decode (Lines.joined 10 lines rest)).splitOn '\n' = lines.map Utf8.decode ++ [Utf8.decode rest] := by
  rw [decode_joined]
  refine Lines.splitOn_joined ?_ (Utf8.decode_no_newline hrest)
  intro l hl
  obtain ⟨m, hm, rfl⟩ := List.mem_map.mp hl
  exact Utf8.decode_no_newline (hlines m hm)

theorem byteChar_newline {b : Nat} (h : Utf8.byteChar b = '\n') : b = 10 := by
  by_contra hb
  refine @Utf8.decode_no_newline [b] (fun hin => hb (List.mem_singleton.mp hin).symm) ?_
  rw [Utf8.decode_byte, h]
  exact List.mem_singleton_self _

theorem map_byteChar_no_newline {l : List Nat} (h : 10 ∉ l) : '\n' ∉ l.map Utf8.byteChar := by
  intro hin
  obtain ⟨b, hb, heq⟩ := List.mem_map.mp hin
  exact h (byteChar_newline heq ▸ hb)

theorem map_byteChar_joined : (Lines.joined 10 lines rest).map Utf8.byteChar =
    Lines.joined '\n' (lines.map fun l => l.map Utf8.byteChar) (rest.map Utf8.byteChar) := by
  unfold Lines.joined
  rw [List.map_append, List.map_flatMap, List.flatMap_map]
  refine congrArg (· ++ _) (List.flatMap_congr fun l _ => ?_)
  rw [List.map_append]
  rfl

end

/-! ## Every way to cut the output -/

/-- Byte by byte, the complete lines come out as their single bytes. -/
theorem handed_bytes {lines : List (List Nat)} {rest : List Nat} (hlines : ∀ l ∈ lines, 10 ∉ l) (hrest : 10 ∉ rest) :
    handed ((Lines.joined 10 lines rest).map fun b => [b]) = nonBlank (lines.map fun l => l.map Utf8.byteChar) := by
  have hdecode : ((Lines.joined 10 lines rest).map fun b => [b]).flatMap Utf8.decode =
      (Lines.joined 10 lines rest).map Utf8.byteChar := by
    rw [List.flatMap_map]
    simp only [Utf8.decode_byte]
    exact List.flatMap_pure_eq_map Utf8.byteChar _
  rw [handed_eq, hdecode, map_byteChar_joined, Lines.splitOn_joined _ (map_byteChar_no_newline hrest),
    List.dropLast_concat]
  intro l hl
  obtain ⟨m, hm, rfl⟩ := List.mem_map.mp hl
  exact map_byteChar_no_newline (hlines m hm)

theorem length_nonBlank_le (lines : List (List Nat)) :
    (nonBlank (lines.map Utf8.decode)).length ≤ (nonBlank (lines.map fun l => l.map Utf8.byteChar)).length := by
  induction lines with
  | nil => exact Nat.le_refl 0
  | cons l lines ih =>
    unfold nonBlank at ih ⊢
    rw [List.map_cons, List.map_cons, List.filter_cons, List.filter_cons]
    cases hbytes : blank (l.map Utf8.byteChar) with
    | true =>
      rw [blank_decode hbytes, hbytes]
      exact ih
    | false =>
      split
      · exact Nat.succ_le_succ ih
      · exact Nat.le_succ_of_le ih

/-- Lines that come out right byte by byte are single bytes.  No line is blank byte by byte that is not so
    decoded, so a line too many is never made up for. -/
theorem single_of_nonBlank {lines : List (List Nat)}
    (h : nonBlank (lines.map fun l => l.map Utf8.byteChar) = nonBlank (lines.map Utf8.decode)) :
    ∀ l ∈ lines, Utf8.Single l := by
  induction lines with
  | nil => intro l hl; exact nomatch hl
  | cons l lines ih =>
    have hboth : Utf8.decode l = l.map Utf8.byteChar ∧
        nonBlank (lines.map fun l => l.map Utf8.byteChar) = nonBlank (lines.map Utf8.decode) := by
      have hlen := length_nonBlank_le lines
      unfold nonBlank at h hlen ⊢
      rw [List.map_cons, List.map_cons, List.filter_cons, List.filter_cons] at h
      cases hbytes : blank (l.map Utf8.byteChar) with
      | true =>
        rw [blank_decode hbytes, hbytes] at h
        exact ⟨blank_decode hbytes, h⟩
      | false =>
        rw [if_pos (by rw [hbytes]; rfl)] at h
        split at h
        · obtain ⟨hhead, htail⟩ := List.cons.inj h
          exact ⟨hhead.symm, htail⟩
        · have hlong := congrArg List.length h
          rw [List.length_cons] at hlong
          omega
    intro m hm
    rcases List.mem_cons.mp hm with rfl | hm
    · exact Utf8.single_of_decode hboth.1
    · exact ih hboth.2 m hm

theorem single_joined {lines : List (List Nat)} (h : ∀ l ∈ lines, Utf8.Single l) :
    Utf8.Single (lines.flatMap fun l => l ++ [10]) := by
  -- a newline neither begins a character nor goes on with one
  have hbefore : ∀ x, ¬ Utf8.Begins x 10 := by
    rintro x ⟨hneeded, hlower, -⟩
    obtain ⟨hlow, -⟩ := (Utf8.first_minimal x).resolve_left hneeded
    omega
  have hafter : ∀ y, ¬ Utf8.Begins 10 y := fun y hy => hy.1 rfl
  have hline : ∀ l, Utf8.Single l → Utf8.Single (l ++ [10]) := by
    intro l hl
    refine List.isChain_append.mpr ⟨hl, List.isChain_singleton _, ?_⟩
    intro x _ y hy
    obtain rfl : 10 = y := Option.some.inj hy
    exact hbefore x
  induction lines with
  | nil => exact List.isChain_nil
  | cons l lines ih =>
    rw [List.flatMap_cons]
    refine List.isChain_append.mpr ⟨hline l (h l List.mem_cons_self),
      ih fun m hm => h m (List.mem_cons_of_mem _ hm), ?_⟩
    intro x hx y _
    rw [List.getLast?_concat] at hx
    obtain rfl : 10 = x := Option.some.inj hx
    exact hafter y

/-- Single bytes up to a newline decode alike however they are cut, and what follows adds no newline. -/
theorem decode_chunks {complete rest : List Nat} (hend : complete = [] ∨ ∃ before, complete = before ++ [10])
    (hsingle : Utf8.Single complete) (hrest : 10 ∉ rest) (chunks : List (List Nat))
    (h : chunks.flatten = complete ++ rest) :
    ∃ more, chunks.flatMap Utf8.decode = complete.map Utf8.byteChar ++ more ∧ '\n' ∉ more := by
  induction chunks generalizing complete with
  | nil =>
    obtain ⟨rfl, -⟩ := List.append_eq_nil_iff.mp (show [] = complete ++ rest from h).symm
    exact ⟨[], rfl, List.not_mem_nil⟩
  | cons chunk chunks ih =>
    rw [List.flatten_cons] at h
    rcases List.append_eq_append_iff.mp h with ⟨tail, hcomplete, hchunks⟩ | ⟨tail, hchunk, hrest'⟩
    · -- the chunk lies within the complete lines
      obtain ⟨hfirst, hlast, -⟩ := List.isChain_append.mp (hcomplete ▸ hsingle)
      have htail : tail = [] ∨ ∃ before, tail = before ++ [10] := by
        rcases List.eq_nil_or_concat tail with rfl | ⟨before, b, rfl⟩
        · exact .inl rfl
        · right
          rcases hend with hnil | ⟨all, hall⟩
          · rw [hnil] at hcomplete
            exact absurd hcomplete.symm (by simp)
          · rw [hall, List.concat_eq_append, ← List.append_assoc] at hcomplete
            have hb := (List.append_inj' hcomplete rfl).2
            exact ⟨before, by rw [List.concat_eq_append, ← hb]⟩
      obtain ⟨more, hmore, hfree⟩ := ih htail hlast hchunks
      refine ⟨more, ?_, hfree⟩
      rw [List.flatMap_cons, hmore, Utf8.decode_single hfirst, hcomplete, List.map_append, List.append_assoc]
    · -- the chunk reaches beyond them
      have hfree : 10 ∉ tail ∧ 10 ∉ chunks.flatten := by
        rw [hrest', List.mem_append, not_or] at hrest
        exact hrest
      refine ⟨Utf8.decode tail ++ chunks.flatMap Utf8.decode, ?_, ?_⟩
      · rw [List.flatMap_cons, hchunk, ← List.append_assoc, ← Utf8.decode_single hsingle]
        refine congrArg (· ++ _) ?_
        rcases hend with rfl | ⟨before, rfl⟩
        · rfl
        · rw [List.append_assoc, List.singleton_append, Utf8.decode_newline, Utf8.decode_newline, List.append_assoc]
          rfl
      · rw [List.mem_append, not_or]
        refine ⟨Utf8.decode_no_newline hfree.1, ?_⟩
        intro hin
        obtain ⟨c, hc, hin⟩ := List.mem_flatMap.mp hin
        exact Utf8.decode_no_newline (fun h10 => hfree.2 (List.mem_flatten.mpr ⟨c, hc, h10⟩)) hin

/-- An output that decodes alike in its chunks and whole. -/
def Aligned (chunks : List (List Nat)) : Prop := chunks.flatMap Utf8.decode = Utf8.decode chunks.flatten

/-- **STDOUT LINES**: every way to cut an output into chunks hands on the lines of the output just when no
    byte of its complete lines goes on with a character and what follows the last newline is blank.  For one
    way that cuts no character the last line alone decides. -/
theorem stdout_lines_iff (bytes : List Nat) :
    ((∀ chunks, chunks.flatten = bytes → handed chunks = outputLines bytes) ↔
      (∀ line ∈ completeLines bytes, Utf8.Single line) ∧ blank (Utf8.decode (lastLine bytes)) = true) ∧
    ∀ chunks, chunks.flatten = bytes → Aligned chunks →
      (handed chunks = outputLines bytes ↔ blank (Utf8.decode (lastLine bytes)) = true) := by
  obtain ⟨lines, rest, hlines, hrest, rfl⟩ := @Lines.exists_joined _ 10 bytes
  obtain ⟨hcomplete, hlast⟩ := lines_joined hlines hrest
  have houtput : outputLines (Lines.joined 10 lines rest) = nonBlank (lines.map Utf8.decode ++ [Utf8.decode rest]) :=
    congrArg nonBlank (splitOn_decode hlines hrest)
  have haligned : ∀ chunks, chunks.flatten = Lines.joined 10 lines rest → Aligned chunks →
      handed chunks = nonBlank (lines.map Utf8.decode) := by
    intro chunks hchunks halign
    rw [handed_eq, halign, hchunks, splitOn_decode hlines hrest, List.dropLast_concat]
  rw [hcomplete, hlast, houtput]
  refine ⟨⟨?_, ?_⟩, ?_⟩
  · intro hall
    -- the output in one chunk shows the last line, its bytes one by one show the others
    have hwhole := hall [Lines.joined 10 lines rest] (List.append_nil _)
    rw [haligned _ (List.append_nil _) (by unfold Aligned; rw [List.flatMap_singleton, List.flatten_singleton])] at hwhole
    have hblank := nonBlank_concat_eq.mp hwhole.symm
    have hbytes := hall ((Lines.joined 10 lines rest).map fun b => [b])
      (by rw [← List.flatMap_def]; exact List.flatMap_singleton' _)
    rw [handed_bytes hlines hrest, nonBlank_concat_eq.mpr hblank] at hbytes
    exact ⟨single_of_nonBlank hbytes, hblank⟩
  · rintro ⟨hsingle, hblank⟩ chunks hchunks
    have hend : (lines.flatMap fun l => l ++ [10]) = [] ∨
        ∃ before, (lines.flatMap fun l => l ++ [10]) = before ++ [10] := by
      rcases List.eq_nil_or_concat lines with rfl | ⟨init, l, rfl⟩
      · exact .inl rfl
      · right
        refine ⟨(init.flatMap fun l => l ++ [10]) ++ l, ?_⟩
        rw [List.concat_eq_append, List.flatMap_append, List.append_assoc, List.flatMap_singleton]
    obtain ⟨more, hmore, hfree⟩ := decode_chunks hend (single_joined hsingle) hrest chunks hchunks
    have hsplit : (chunks.flatMap Utf8.decode).splitOn '\n' = (lines.map fun l => l.map Utf8.byteChar) ++ [more] := by
      have hjoined := @map_byteChar_joined lines []
      unfold Lines.joined at hjoined
      rw [List.append_nil, List.map_nil, List.append_nil] at hjoined
      rw [hmore, hjoined]
      refine Lines.splitOn_joined ?_ hfree
      intro l hl
      obtain ⟨m, hm, rfl⟩ := List.mem_map.mp hl
      exact map_byteChar_no_newline (hlines m hm)
    rw [handed_eq, hsplit, List.dropLast_concat, nonBlank_concat_eq.mpr hblank]
    refine congrArg nonBlank (List.map_congr_left fun l hl => ?_)
    exact (Utf8.decode_single (hsingle l hl)).symm
  · intro chunks hchunks halign
    rw [haligned chunks hchunks halign, eq_comm]
    exact nonBlank_concat_eq

/-- `{"type":"result","result":"ok"}`, as a process may print it last. -/
def resultLine : String := "\x7b\"type\":\"result\",\"result\":\"ok\"\x7d"

/-- Without a newline at its end the authoritative result is never handed on. -/
theorem last_result_lost :
    handed [Utf8.encode resultLine.toList] = [] ∧
      outputLines (Utf8.encode resultLine.toList) = [resultLine.toList] ∧
      explicitFinal (handed [Utf8.encode resultLine.toList]) = none ∧
      explicitFinal (outputLines (Utf8.encode resultLine.toList)) = some "ok" := by
  have hsplit : resultLine.toList.splitOn '\n' = [resultLine.toList] := List.splitOn_eq_singleton (by decide +kernel)
  have hhanded : handed [Utf8.encode resultLine.toList] = [] := by
    rw [handed_eq, List.flatMap_singleton, Utf8.decode_encode, hsplit]
    rfl
  have houtput : outputLines (Utf8.encode resultLine.toList) = [resultLine.toList] := by
    unfold outputLines
    rw [Utf8.decode_encode, hsplit]
    have hblank : blank resultLine.toList = false := by decide +kernel
    unfold nonBlank
    rw [List.filter_cons_of_pos (by rw [hblank]; rfl)]
    rfl
  refine ⟨hhanded, houtput, ?_, ?_⟩
  · rw [hhanded]
    rfl
  · rw [houtput]
    decide +kernel

end VibeAgentOutput
