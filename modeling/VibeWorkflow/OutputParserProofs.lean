import VibeWorkflow.PolicyProofs
import VibeWorkflow.JsonParseProofs
import Mathlib.Data.List.Infix

/-!
# The language of the output parser

`parseSingleJsonObject` takes a text for one JSON object, bare or in a single fence.  This file states
the language it is meant to accept, and says on which texts it does.

* `InLanguage` — the trimmed text, or the content of the one fence it is, reads as a JSON object;
* `fenceBody_some`, `Fence.read` — the fence recognizer against the shape of a fence;
* **`output_language_iff`** — the parser accepts the language, and returns the object, on every text
  but a bare object with three backticks in it.
-/

namespace VibeOutput

open VibeJson VibeRuntime

/-! ## The language -/

def LineEnd (l : List Char) : Prop := l = ['\n'] ∨ l = ['\r', '\n']

/-- A text that is one fence: the marker, `json` or nothing, blanks, the content on lines of its own,
    and the marker again. -/
def Fence (text content : List Char) : Prop :=
  ∃ lang blanks first last : List Char, (lang = [] ∨ lang = "json".toList) ∧
    (∀ c ∈ blanks, (c == ' ' || c == '\t') = true) ∧ LineEnd first ∧ LineEnd last ∧
    text = fenceMarker ++ lang ++ blanks ++ first ++ content ++ last ++ fenceMarker

/-- `raw` stands for the object `v`. -/
def InLanguage (raw : String) (v : Json) : Prop :=
  v.isObj = true ∧ (parse (trim raw) = some v ∨
    ∃ content, Fence (trimChars raw.toList) content ∧ parse (String.ofList (trimChars content)) = some v)

/-- A bare object with the marker somewhere in it. -/
def MarkerInside (raw : String) : Prop :=
  ∃ v, v.isObj = true ∧ parse (trim raw) = some v ∧ containsChars fenceMarker (trimChars raw.toList) = true

/-! ## Trimming -/

theorem trimChars_eq (cs : List Char) : trimChars cs = (cs.dropWhile isJsSpace).rdropWhile isJsSpace := rfl

/-- A trimmed text does not begin with a space. -/
theorem trimChars_head {cs rest : List Char} {c : Char} (h : trimChars cs = c :: rest) : isJsSpace c = false := by
  obtain ⟨more, hmore⟩ := List.rdropWhile_prefix isJsSpace (cs.dropWhile isJsSpace)
  rw [← trimChars_eq, h] at hmore
  have hhead := List.head?_dropWhile_not isJsSpace cs
  rw [← hmore] at hhead
  exact hhead

/-- A text that neither begins nor ends with a space is trimmed. -/
theorem trimChars_self {cs : List Char} {c d : Char} (hhead : cs.head? = some c) (hlast : cs.getLast? = some d)
    (hc : isJsSpace c = false) (hd : isJsSpace d = false) : trimChars cs = cs := by
  obtain ⟨rest, rfl⟩ : ∃ rest, cs = c :: rest := by
    cases cs with
    | nil => exact nomatch hhead
    | cons x rest => exact ⟨rest, by rw [Option.some.inj hhead]⟩
  rw [trimChars_eq, List.dropWhile_cons_of_neg (by rw [hc]; exact Bool.false_ne_true)]
  refine List.rdropWhile_eq_self_iff.mpr ?_
  intro hne
  rw [List.getLast?_eq_getLast_of_ne_nil hne] at hlast
  rw [Option.some.inj hlast, hd]
  exact Bool.false_ne_true

/-- A space at the end is trimmed away. -/
theorem trimChars_concat {c : Char} (hc : isJsSpace c = true) (cs : List Char) :
    trimChars (cs ++ [c]) = trimChars cs := by
  rw [trimChars_eq, trimChars_eq]
  by_cases hall : ∀ x ∈ cs, isJsSpace x = true
  · rw [List.dropWhile_append_of_pos hall, List.dropWhile_eq_nil_iff.mpr hall, List.dropWhile_cons_of_pos hc]
    rfl
  · have hdrop : (cs ++ [c]).dropWhile isJsSpace = cs.dropWhile isJsSpace ++ [c] := by
      rw [List.dropWhile_append, if_neg]
      rw [List.isEmpty_iff, List.dropWhile_eq_nil_iff]
      exact hall
    rw [hdrop, List.rdropWhile_concat_pos isJsSpace _ _ hc]

/-! ## The fence recognizer -/

theorem dropStart_append (pat rest : List Char) : dropStart pat (pat ++ rest) = some rest := by
  unfold dropStart
  rw [if_pos (List.isPrefixOf_iff_prefix.mpr (List.prefix_append _ _)), List.drop_left]

theorem dropStart_some {pat cs rest : List Char} (h : dropStart pat cs = some rest) : cs = pat ++ rest := by
  unfold dropStart at h
  split at h
  · rename_i hpre
    obtain ⟨t, rfl⟩ := List.isPrefixOf_iff_prefix.mp hpre
    rw [List.drop_left] at h
    rw [Option.some.inj h]
  · exact nomatch h

theorem dropNewline_append {first : List Char} (h : LineEnd first) (rest : List Char) :
    dropNewline (first ++ rest) = some rest := by
  rcases h with rfl | rfl <;> rfl

theorem dropNewline_some {cs rest : List Char} (h : dropNewline cs = some rest) :
    ∃ first, LineEnd first ∧ cs = first ++ rest := by
  unfold dropNewline at h
  split at h
  · rw [Option.some.inj h]
    exact ⟨['\n'], .inl rfl, rfl⟩
  · rw [Option.some.inj h]
    exact ⟨['\r', '\n'], .inr rfl, rfl⟩
  · exact nomatch h

/-- The closing line, read from the end. -/
theorem closing_read {last : List Char} (h : LineEnd last) (content : List Char) :
    ∃ body, (match last.reverse ++ content.reverse with
      | '\n' :: '\r' :: body => some body.reverse
      | '\n' :: body => some body.reverse
      | _ => none) = some body ∧ trimChars body = trimChars content := by
  rcases h with rfl | rfl
  · -- a carriage return at the end of the content is taken for part of the line end
    cases hrev : content.reverse with
    | nil => exact ⟨[], rfl, by rw [List.reverse_eq_nil_iff.mp hrev]⟩
    | cons c rest =>
      have hcontent : content = rest.reverse ++ [c] := by
        rw [← List.reverse_reverse content, hrev, List.reverse_cons]
      by_cases hc : c = '\r'
      · subst hc
        exact ⟨rest.reverse, rfl, by rw [hcontent, trimChars_concat (by decide)]⟩
      · refine ⟨(c :: rest).reverse, ?_, by rw [List.reverse_cons, hcontent]⟩
        show (match '\n' :: c :: rest with
          | '\n' :: '\r' :: body => some body.reverse
          | '\n' :: body => some body.reverse
          | _ => none) = _
        split
        · rename_i heq
          exact absurd (List.cons.inj (List.cons.inj heq).2).1 hc
        · rename_i heq
          rw [(List.cons.inj heq).2]
        · rename_i hne
          exact absurd rfl (hne _)
  · exact ⟨content, by rw [List.reverse_cons, List.reverse_singleton]; simp, rfl⟩

/-- The body the recognizer finds is the content of a fence. -/
theorem fenceBody_some {text body : List Char} (h : fenceBody text = some body) : Fence text body := by
  unfold fenceBody at h
  obtain ⟨afterMark, hmark, h⟩ := Option.bind_eq_some_iff.mp h
  obtain ⟨lang, afterLang, hlang, heq, hafter⟩ : ∃ lang afterLang, (lang = [] ∨ lang = "json".toList) ∧
      (dropStart "json".toList afterMark).getD afterMark = afterLang ∧ afterMark = lang ++ afterLang := by
    cases hjson : dropStart "json".toList afterMark with
    | none => exact ⟨[], afterMark, .inl rfl, rfl, rfl⟩
    | some t => exact ⟨"json".toList, t, .inr rfl, rfl, dropStart_some hjson⟩
  dsimp only at h
  rw [heq] at h
  obtain ⟨rest, hnewline, h⟩ := Option.bind_eq_some_iff.mp h
  obtain ⟨beforeMark, hclose, h⟩ := Option.bind_eq_some_iff.mp h
  obtain ⟨first, hfirst, hline⟩ := dropNewline_some hnewline
  obtain ⟨last, hlast, hbody⟩ : ∃ last, LineEnd last ∧ rest = body ++ last ++ fenceMarker := by
    have hrest : rest = beforeMark.reverse ++ fenceMarker := by
      rw [← List.reverse_reverse rest, dropStart_some hclose, List.reverse_append]
      rfl
    split at h
    · refine ⟨['\r', '\n'], .inr rfl, ?_⟩
      rw [hrest, ← Option.some.inj h]
      simp
    · refine ⟨['\n'], .inl rfl, ?_⟩
      rw [hrest, ← Option.some.inj h]
      simp
    · exact nomatch h
  refine ⟨lang, afterLang.takeWhile fun c => c == ' ' || c == '\t', first, last, hlang, ?_, hfirst, hlast, ?_⟩
  · intro c hc
    exact @List.mem_takeWhile_imp _ (fun c => c == ' ' || c == '\t') _ _ hc
  · have hblanks := @List.takeWhile_append_dropWhile _ (fun c => c == ' ' || c == '\t') afterLang
    rw [hline, hbody] at hblanks
    have htext := dropStart_some hmark
    rw [hafter] at htext
    simp only [List.append_assoc] at hblanks ⊢
    rw [hblanks]
    exact htext

/-- The recognizer finds the content of every fence, up to the space around it. -/
theorem Fence.read {text content : List Char} (h : Fence text content) :
    ∃ body, fenceBody text = some body ∧ trimChars body = trimChars content := by
  obtain ⟨lang, blanks, first, last, hlang, hblanks, hfirst, hlast, rfl⟩ := h
  obtain ⟨body, hbody, htrim⟩ := closing_read hlast content
  refine ⟨body, ?_, htrim⟩
  have hdrop : ∀ rest : List Char, (blanks ++ (first ++ rest)).dropWhile
      (fun c => c == ' ' || c == '\t') = first ++ rest := by
    intro rest
    rw [List.dropWhile_append_of_pos hblanks]
    rcases hfirst with rfl | rfl <;> rfl
  have hafter : ∀ rest : List Char, (dropStart "json".toList (lang ++ (blanks ++ (first ++ rest)))).getD
      (lang ++ (blanks ++ (first ++ rest))) = blanks ++ (first ++ rest) := by
    intro rest
    rcases hlang with rfl | rfl
    · -- without the language the next character is a blank or a line end, never a letter
      have hnone : dropStart "json".toList (blanks ++ (first ++ rest)) = none := by
        unfold dropStart
        rw [if_neg]
        intro hpre
        obtain ⟨t, ht⟩ := List.isPrefixOf_iff_prefix.mp hpre
        have hj := congrArg List.head? ht
        cases blanks with
        | nil => rcases hfirst with rfl | rfl <;> exact nomatch Option.some.inj hj
        | cons b bs =>
          obtain rfl : 'j' = b := Option.some.inj hj
          exact nomatch hblanks 'j' List.mem_cons_self
      rw [List.nil_append, hnone]
      rfl
    · rw [dropStart_append]
      rfl
  unfold fenceBody
  simp only [List.append_assoc]
  rw [dropStart_append]
  show (dropNewline _).bind _ = some body
  rw [hafter, hdrop, dropNewline_append hfirst]
  show (dropStart fenceMarker (content ++ (last ++ fenceMarker)).reverse).bind _ = some body
  rw [List.reverse_append, List.reverse_append, List.append_assoc]
  show (dropStart fenceMarker (fenceMarker ++ (last.reverse ++ content.reverse))).bind _ = some body
  rw [dropStart_append]
  exact hbody

/-! ## Objects -/

theorem isJsonSpace_isJsSpace {c : Char} (h : isJsSpace c = false) : isJsonSpace c = false := by
  unfold isJsonSpace
  simp only [Bool.or_eq_false_iff, beq_eq_false_iff_ne]
  refine ⟨⟨⟨?_, ?_⟩, ?_⟩, ?_⟩ <;> rintro rfl <;> exact nomatch h

/-- What reads as an object begins with its brace. -/
theorem readValue_obj {n : Nat} {t rest : List Char} {v : Json} (h : readValue n t = some (v, rest))
    (hobj : v.isObj = true) : (skipSpace t).head? = some '\x7b' := by
  cases n with
  | zero => cases h
  | succ n =>
    rw [readValue] at h
    split at h
    · cases h
    · rename_i c more heq
      rw [heq]
      by_cases hbrace : c = '\x7b'
      · rw [hbrace]
        rfl
      · -- every other first character leads to another kind of value
        exfalso
        have hword : ∀ (w : String) (j : Json), j.isObj = false → readWord w j (c :: more) ≠ some (v, rest) := by
          intro w j hj hw
          unfold readWord at hw
          split at hw
          · rw [(Prod.mk.inj (Option.some.inj hw)).1, hobj] at hj
            cases hj
          · cases hw
        split at h
        · obtain ⟨s, -, hs⟩ := Option.map_eq_some_iff.mp h
          rw [← (Prod.mk.inj hs).1] at hobj
          cases hobj
        · split at h
          · split at h
            · rw [← (Prod.mk.inj (Option.some.inj h)).1] at hobj
              cases hobj
            · obtain ⟨xs, -, hxs⟩ := Option.map_eq_some_iff.mp h
              rw [← (Prod.mk.inj hxs).1] at hobj
              cases hobj
          · split at h
            · exact hword "null" .null rfl h
            · split at h
              · exact hword "true" (.bool true) rfl h
              · split at h
                · exact hword "false" (.bool false) rfl h
                · obtain ⟨x, -, hx⟩ := Option.map_eq_some_iff.mp h
                  rw [← (Prod.mk.inj hx).1] at hobj
                  cases hobj

theorem parse_obj_head {cs : List Char} {v : Json} (h : parse (String.ofList (trimChars cs)) = some v)
    (hobj : v.isObj = true) : (trimChars cs).head? = some '\x7b' := by
  unfold parse at h
  rw [String.toList_ofList] at h
  obtain ⟨⟨w, rest⟩, hread, h⟩ := Option.bind_eq_some_iff.mp h
  split at h
  · obtain rfl : w = v := Option.some.inj h
    have hhead := readValue_obj hread hobj
    cases htrim : trimChars cs with
    | nil =>
      rw [htrim] at hhead
      exact nomatch hhead
    | cons c more =>
      rw [htrim, skipSpace_cons (isJsonSpace_isJsSpace (trimChars_head htrim))] at hhead
      exact hhead
  · exact nomatch h

/-- Reading a trimmed text as an object takes no more than `JSON.parse` giving one. -/
theorem readObject_ok {cs : List Char} {v : Json} :
    readObject parse (trimChars cs) = .ok v ↔ v.isObj = true ∧ parse (String.ofList (trimChars cs)) = some v := by
  constructor
  · intro h
    unfold readObject at h
    split at h
    · exact nomatch h
    · split at h
      · exact nomatch h
      · rename_i w hw
        split at h
        · rename_i hobj
          rw [← Except.ok.inj h]
          exact ⟨hobj, hw⟩
        · exact nomatch h
  · rintro ⟨hobj, hparse⟩
    unfold readObject
    rw [if_neg (not_not.mpr (parse_obj_head hparse hobj)), hparse]
    exact if_pos hobj

theorem unfence_bare {text : List Char} (hstart : text.head? ≠ some '\x60')
    (hfree : containsChars fenceMarker text = false) : unfence text = .ok text := by
  unfold unfence
  rw [if_neg, if_neg (by rw [hfree]; exact Bool.false_ne_true)]
  intro hpre
  obtain ⟨t, rfl⟩ := List.isPrefixOf_iff_prefix.mp hpre
  exact hstart rfl

theorem Fence.head {text content : List Char} (h : Fence text content) : fenceMarker.isPrefixOf text = true := by
  obtain ⟨lang, blanks, first, last, -, -, -, -, rfl⟩ := h
  simp only [List.append_assoc]
  exact List.isPrefixOf_iff_prefix.mpr (List.prefix_append _ _)

/-- **What the parser accepts**: a fenced object, or a bare one that is free of the marker. -/
theorem parseSingleJsonObject_ok {raw : String} {maxBytes : Nat} (hfits : byteLen raw ≤ maxBytes) {v : Json} :
    parseSingleJsonObject parse raw maxBytes = .ok v ↔ v.isObj = true ∧
      (parse (trim raw) = some v ∧ containsChars fenceMarker (trimChars raw.toList) = false ∨
        ∃ content, Fence (trimChars raw.toList) content ∧ parse (String.ofList (trimChars content)) = some v) := by
  have hparser : parseSingleJsonObject parse raw maxBytes =
      if trimChars raw.toList = [] then .error ⟨.outputEmpty, "output is empty"⟩
      else (unfence (trimChars raw.toList)).bind (readObject parse) := if_neg (Nat.not_lt.mpr hfits)
  rw [hparser]
  constructor
  · intro h
    split at h
    · exact nomatch h
    · cases hun : unfence (trimChars raw.toList) with
      | error failure =>
        rw [hun] at h
        exact nomatch h
      | ok text =>
        rw [hun] at h
        have hread : readObject parse text = .ok v := h
        unfold unfence at hun
        split at hun
        · split at hun
          · rename_i body hbody
            rw [← Except.ok.inj hun] at hread
            obtain ⟨hobj, hparse⟩ := readObject_ok.mp hread
            exact ⟨hobj, .inr ⟨body, fenceBody_some hbody, hparse⟩⟩
          · exact nomatch hun
        · split at hun
          · exact nomatch hun
          · rename_i hfree
            rw [← Except.ok.inj hun] at hread
            obtain ⟨hobj, hparse⟩ := readObject_ok.mp hread
            exact ⟨hobj, .inl ⟨hparse, Bool.eq_false_iff.mpr hfree⟩⟩
  · rintro ⟨hobj, ⟨hparse, hfree⟩ | ⟨content, hfence, hparse⟩⟩
    · have hhead := parse_obj_head hparse hobj
      rw [if_neg, unfence_bare _ hfree]
      · show readObject parse (trimChars raw.toList) = .ok v
        exact readObject_ok.mpr ⟨hobj, hparse⟩
      · rw [hhead]
        exact fun h => nomatch Option.some.inj h
      · intro hnil
        rw [hnil] at hhead
        exact nomatch hhead
    · obtain ⟨body, hbody, htrim⟩ := hfence.read
      have hun : unfence (trimChars raw.toList) = .ok (trimChars body) := by
        unfold unfence
        rw [if_pos hfence.head, hbody]
      rw [if_neg, hun]
      · show readObject parse (trimChars body) = .ok v
        rw [← htrim] at hparse
        exact readObject_ok.mpr ⟨hobj, hparse⟩
      · intro hnil
        have := hfence.head
        rw [hnil] at this
        exact nomatch this

/-! ## Encoded objects -/

theorem trimChars_stringify {v : Json} (hobj : v.isObj = true) :
    trimChars (stringify v).toList = (stringify v).toList := by
  cases v with
  | obj kvs =>
    rw [stringify, String.toList_ofList]
    refine @trimChars_self _ '\x7b' '\x7d' rfl ?_ (by decide) (by decide)
    show ('\x7b' :: (textCharsFields kvs ++ ['\x7d'])).getLast? = _
    rw [← List.cons_append, List.getLast?_concat]
  | _ => cases hobj

/-- An encoded object in a fence, with or without its language. -/
def fenced (lang : List Char) (v : Json) : String :=
  String.ofList (fenceMarker ++ lang ++ ['\n'] ++ (stringify v).toList ++ ['\n'] ++ fenceMarker)

theorem fenced_fence {lang : List Char} (hlang : lang = [] ∨ lang = "json".toList) (v : Json) :
    Fence (trimChars (fenced lang v).toList) (stringify v).toList := by
  have htrim : trimChars (fenced lang v).toList = (fenced lang v).toList := by
    rw [fenced, String.toList_ofList]
    refine @trimChars_self _ '\x60' '\x60' ?_ ?_ (by decide) (by decide)
    · simp only [List.append_assoc]
      rfl
    · rw [List.getLast?_append]
      rfl
  rw [htrim, fenced, String.toList_ofList]
  refine ⟨lang, [], ['\n'], ['\n'], hlang, ?_, .inl rfl, .inl rfl, ?_⟩
  · intro c hc
    exact nomatch hc
  · rw [List.append_nil]

/-- **THE PARSER'S LANGUAGE**: on a text within the bound the parser gives exactly the objects of its
    language unless the text is a bare object with three backticks in it.  So an encoded object is read
    back bare just when it is free of them, and in a fence always. -/
theorem output_language_iff (raw : String) (maxBytes : Nat) (hfits : byteLen raw ≤ maxBytes) :
    ((∀ v, parseSingleJsonObject parse raw maxBytes = .ok v ↔ InLanguage raw v) ↔ ¬ MarkerInside raw) ∧
    (∀ v, v.isObj = true → raw = stringify v →
      (parseSingleJsonObject parse raw maxBytes = .ok v ↔ containsChars fenceMarker raw.toList = false)) ∧
    ∀ v lang, v.isObj = true → (lang = [] ∨ lang = "json".toList) → raw = fenced lang v →
      parseSingleJsonObject parse raw maxBytes = .ok v := by
  refine ⟨⟨?_, ?_⟩, ?_, ?_⟩
  · rintro hexact ⟨v, hobj, hparse, hinside⟩
    obtain ⟨-, hcase⟩ := (parseSingleJsonObject_ok hfits).mp ((hexact v).mpr ⟨hobj, .inl hparse⟩)
    rcases hcase with ⟨-, hfree⟩ | ⟨content, hfence, -⟩
    · rw [hfree] at hinside
      exact nomatch hinside
    · -- an object begins with its brace, a fence with its marker
      have hbrace := parse_obj_head hparse hobj
      obtain ⟨t, ht⟩ := List.isPrefixOf_iff_prefix.mp hfence.head
      rw [← ht] at hbrace
      exact nomatch Option.some.inj hbrace
  · intro hnot v
    rw [parseSingleJsonObject_ok hfits]
    unfold InLanguage
    refine and_congr_right fun hobj => or_congr_left' fun _ => ?_
    refine and_iff_left_of_imp fun hparse => ?_
    refine Bool.eq_false_iff.mpr fun hinside => ?_
    exact hnot ⟨v, hobj, hparse, hinside⟩
  · rintro v hobj rfl
    have htrim := trimChars_stringify hobj
    have hparse : parse (trim (stringify v)) = some v := by
      rw [trim, htrim, String.ofList_toList, parse_stringify]
    rw [parseSingleJsonObject_ok hfits, htrim]
    constructor
    · rintro ⟨-, ⟨-, hfree⟩ | ⟨content, hfence, -⟩⟩
      · exact hfree
      · have hbrace := parse_obj_head hparse hobj
        obtain ⟨t, ht⟩ := List.isPrefixOf_iff_prefix.mp hfence.head
        rw [htrim, ← ht] at hbrace
        exact nomatch Option.some.inj hbrace
    · intro hfree
      exact ⟨hobj, .inl ⟨hparse, hfree⟩⟩
  · rintro v lang hobj hlang rfl
    refine (parseSingleJsonObject_ok hfits).mpr ⟨hobj, .inr ⟨_, fenced_fence hlang v, ?_⟩⟩
    rw [trimChars_stringify hobj, String.ofList_toList, parse_stringify]

/-- `{"a":"```"}`. -/
def backticks : Json := .obj [("a", .str "\x60\x60\x60")]

/-- In a fence the same object is read. -/
theorem backticks_fenced_read :
    byteLen (fenced "json".toList backticks) ≤ 256 ∧
      parseSingleJsonObject parse (fenced "json".toList backticks) 256 = .ok backticks := by
  have hfits : byteLen (fenced "json".toList backticks) ≤ 256 := by decide +kernel
  exact ⟨hfits, (output_language_iff _ 256 hfits).2.2 backticks _ rfl (.inr rfl) rfl⟩

/-- Bare, it is refused. -/
theorem backticks_bare_refused :
    ¬ ∀ v, parseSingleJsonObject parse (stringify backticks) 256 = .ok v ↔ InLanguage (stringify backticks) v := by
  intro hexact
  have htrim := trimChars_stringify (show backticks.isObj = true from rfl)
  have hin : InLanguage (stringify backticks) backticks :=
    ⟨rfl, .inl (by rw [trim, htrim, String.ofList_toList, parse_stringify])⟩
  have hread := (hexact backticks).mpr hin
  have hrefused : parseSingleJsonObject parse (stringify backticks) 256 =
      .error (notJson "output mixes prose/fences with JSON") := by decide +kernel
  rw [hrefused] at hread
  exact nomatch hread

end VibeOutput
