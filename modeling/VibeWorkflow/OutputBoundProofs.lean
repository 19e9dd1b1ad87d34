import VibeWorkflow.JsonProofs
import VibeWorkflow.SerializationProofs
import VibeWorkflow.Utf16LengthProofs

/-!
# The bound on agent output

`extractAgentOutputText` puts the agent's output together from the events of its task, up to a number of
bytes.  It counts in bytes and cuts in code units.

* `OutputBounded` — the text fits, it is a beginning of the whole output, and `truncated` says whether it is
  a proper one;
* `collect_settles` — what the loop returns, by the first text that goes over the limit;
* **`output_bounded_iff`** — the output is bounded just when that text is cut well.
-/

namespace VibeOutput

open VibeJson Utf16

/-! ## The events -/

/-- A property as it is read: it is not there, it is a string, or it is something else. -/
inductive Property where
  | undefined
  | string (s : Units)
  | other
deriving DecidableEq

/-- A payload that is no object has no properties. -/
structure OutputPayload where
  stream : Property
  text : Property

structure RuntimeTaskEvent where
  type : Option String
  payload : Option OutputPayload

structure AgentOutput where
  text : Units
  truncated : Bool
deriving DecidableEq

/-- The text of a completed-output bookend. -/
def completedText (e : RuntimeTaskEvent) : Option Units :=
  if e.type = some "agent.output.completed" then
    match e.payload with
    | some ⟨_, .string t⟩ => some t
    | _ => none
  else none

def isStdout (stream : Property) : Bool := stream == .undefined || stream == .string (encode "stdout".toList)

/-- The text of a delta that the loop does not pass by: stderr and logs are not output. -/
def stdoutText (e : RuntimeTaskEvent) : Option Units :=
  if e.type ≠ some "agent.output.delta" then none
  else
    match e.payload with
    | some ⟨stream, .string t⟩ => if isStdout stream then some t else none
    | _ => none

def boundText (t : Units) (maxBytes : Nat) : AgentOutput :=
  if byteLength t ≤ maxBytes then ⟨t, false⟩ else ⟨t.take maxBytes, true⟩

/-- The loop over the deltas, with the output so far. -/
def collect (maxBytes : Nat) (out : Units) : List RuntimeTaskEvent → AgentOutput
  | [] => ⟨out, false⟩
  | e :: events =>
    match stdoutText e with
    | none => collect maxBytes out events
    | some t =>
      if byteLength out + byteLength t > maxBytes then ⟨out ++ t.take (maxBytes - byteLength out), true⟩
      else collect maxBytes (out ++ t) events

def extractAgentOutputText (events : List RuntimeTaskEvent) (maxBytes : Nat) : AgentOutput :=
  -- the last bookend wins
  match events.reverse.findSome? completedText with
  | some t => boundText t maxBytes
  | none => collect maxBytes [] events

/-! ## What the output should be -/

/-- The texts the output is made of: the bookend's alone, or each delta's. -/
def outputTexts (events : List RuntimeTaskEvent) : List Units :=
  match events.reverse.findSome? completedText with
  | some t => [t]
  | none => events.filterMap stdoutText

def fullText (events : List RuntimeTaskEvent) : Units := (outputTexts events).flatten

structure OutputBounded (events : List RuntimeTaskEvent) (maxBytes : Nat) (output : AgentOutput) : Prop where
  fits : byteLength output.text ≤ maxBytes
  beginning : output.text <+: fullText events
  marked : output.truncated = true ↔ output.text ≠ fullText events

/-- The loop over texts. -/
def collectTexts (maxBytes : Nat) (out : Units) : List Units → AgentOutput
  | [] => ⟨out, false⟩
  | t :: texts =>
    if byteLength out + byteLength t > maxBytes then ⟨out ++ t.take (maxBytes - byteLength out), true⟩
    else collectTexts maxBytes (out ++ t) texts

theorem collect_texts (maxBytes : Nat) (out : Units) (events : List RuntimeTaskEvent) :
    collect maxBytes out events = collectTexts maxBytes out (events.filterMap stdoutText) := by
  induction events generalizing out with
  | nil => rfl
  | cons e events ih =>
    rw [collect, List.filterMap_cons]
    cases stdoutText e with
    | none => exact ih out
    | some t =>
      dsimp only
      rw [collectTexts, ih]

/-- A bookend is cut as a single delta is. -/
theorem boundText_texts (t : Units) (maxBytes : Nat) : boundText t maxBytes = collectTexts maxBytes [] [t] := by
  have hempty : byteLength [] = 0 := rfl
  rw [boundText, collectTexts, collectTexts, hempty, Nat.zero_add, Nat.sub_zero, List.nil_append, List.nil_append]
  by_cases h : byteLength t ≤ maxBytes
  · rw [if_pos h, if_neg (Nat.not_lt.mpr h)]
  · rw [if_neg h, if_pos (Nat.lt_of_not_le h)]

theorem extract_texts (events : List RuntimeTaskEvent) (maxBytes : Nat) :
    extractAgentOutputText events maxBytes = collectTexts maxBytes [] (outputTexts events) := by
  rw [extractAgentOutputText, outputTexts]
  cases events.reverse.findSome? completedText with
  | none => exact collect_texts maxBytes [] events
  | some t => exact boundText_texts t maxBytes

/-! ## The first text that goes over -/

/-- Each text fits behind those before it, by the loop's count. -/
def AllFit (maxBytes : Nat) (texts : List Units) : Prop :=
  ∀ a u b, texts = a ++ u :: b → byteLength a.flatten + byteLength u ≤ maxBytes

/-- The limit is crossed at `t`. -/
structure FirstOver (maxBytes : Nat) (before : List Units) (t : Units) : Prop where
  fit : AllFit maxBytes before
  crossed : maxBytes < byteLength before.flatten + byteLength t

/-- What is left for the text that goes over. -/
def room (maxBytes : Nat) (before : List Units) : Nat := maxBytes - byteLength before.flatten

/-- The piece that is kept of it is ASCII; or its first unit makes a pair with the unit before it, the others
    take one byte less than there is room, and there is something that is not kept. -/
def CutWell (maxBytes : Nat) (before : List Units) (t : Units) (after : List Units) : Prop :=
  let kept := t.take (room maxBytes before)
  if joins before.flatten kept then
    1 + byteLength kept.tail ≤ room maxBytes before ∧ (room maxBytes before < t.length ∨ after.flatten ≠ [])
  else isAscii kept = true

theorem AllFit.nil (maxBytes : Nat) : AllFit maxBytes [] := by
  intro a u b h
  exact absurd h.symm (List.append_ne_nil_of_right_ne_nil a (List.cons_ne_nil u b))

theorem AllFit.push {maxBytes : Nat} {before : List Units} {t : Units} (h : AllFit maxBytes before)
    (ht : byteLength before.flatten + byteLength t ≤ maxBytes) : AllFit maxBytes (before ++ [t]) := by
  intro a u b hsplit
  rcases List.append_eq_append_iff.mp hsplit with ⟨c, rfl, hc⟩ | ⟨c, rfl, hc⟩
  · cases c with
    | nil =>
      obtain ⟨rfl, -⟩ := List.cons.inj hc
      rwa [List.append_nil]
    | cons x c =>
      -- the split is behind the last text
      obtain ⟨-, hnil⟩ := List.cons.inj hc
      exact absurd hnil.symm (List.append_ne_nil_of_right_ne_nil c (List.cons_ne_nil u b))
  · cases c with
    | nil =>
      obtain ⟨rfl, -⟩ := List.cons.inj hc
      rwa [List.append_nil] at ht
    | cons x c =>
      obtain ⟨rfl, -⟩ := List.cons.inj hc
      exact h a u c rfl

/-- The texts before the limit fit, however they meet. -/
theorem AllFit.fits {maxBytes : Nat} {texts : List Units} (h : AllFit maxBytes texts) :
    byteLength texts.flatten ≤ maxBytes := by
  rcases List.eq_nil_or_concat texts with rfl | ⟨front, t, rfl⟩
  · exact Nat.zero_le maxBytes
  · rw [List.concat_eq_append] at h ⊢
    rw [List.flatten_append, List.flatten_singleton]
    exact Nat.le_trans (byteLength_append_le _ _) (h front t [] rfl)

/-- There is one crossing. -/
theorem FirstOver.unique {maxBytes : Nat} {before before' after after' : List Units} {t t' : Units}
    (h : FirstOver maxBytes before t) (h' : FirstOver maxBytes before' t')
    (heq : before ++ t :: after = before' ++ t' :: after') : before = before' ∧ t = t' ∧ after = after' := by
  have hfirst : ∀ {a b : List Units} {u : Units} {c}, FirstOver maxBytes a u → b = a ++ u :: c → ¬ AllFit maxBytes b :=
    fun hover hb hfit => absurd (hfit _ _ _ hb) (Nat.not_le.mpr hover.crossed)
  rcases List.append_eq_append_iff.mp heq with ⟨c, hbefore, hc⟩ | ⟨c, hbefore, hc⟩
  · cases c with
    | nil =>
      obtain ⟨rfl, rfl⟩ := List.cons.inj hc
      rw [List.append_nil] at hbefore
      exact ⟨hbefore.symm, rfl, rfl⟩
    | cons x c =>
      obtain ⟨rfl, -⟩ := List.cons.inj hc
      exact absurd h'.fit (hfirst h hbefore)
  · cases c with
    | nil =>
      obtain ⟨rfl, rfl⟩ := List.cons.inj hc
      rw [List.append_nil] at hbefore
      exact ⟨hbefore, rfl, rfl⟩
    | cons x c =>
      obtain ⟨rfl, -⟩ := List.cons.inj hc
      exact absurd h.fit (hfirst h' hbefore)

/-- **The loop.**  Either all texts fit and it returns them, or it cuts the first one that goes over. -/
theorem collect_settles (maxBytes : Nat) (before texts : List Units) (hfit : AllFit maxBytes before) :
    (AllFit maxBytes (before ++ texts) ∧
      collectTexts maxBytes before.flatten texts = ⟨(before ++ texts).flatten, false⟩) ∨
    ∃ front t after, before ++ texts = front ++ t :: after ∧ FirstOver maxBytes front t ∧
      collectTexts maxBytes before.flatten texts = ⟨front.flatten ++ t.take (room maxBytes front), true⟩ := by
  induction texts generalizing before with
  | nil =>
    rw [List.append_nil]
    exact .inl ⟨hfit, rfl⟩
  | cons t texts ih =>
    rw [collectTexts]
    by_cases hover : byteLength before.flatten + byteLength t > maxBytes
    · rw [if_pos hover]
      exact .inr ⟨before, t, texts, rfl, ⟨hfit, hover⟩, rfl⟩
    · rw [if_neg hover]
      have hstep := ih (before ++ [t]) (hfit.push (Nat.not_lt.mp hover))
      rw [List.append_assoc, List.singleton_append, List.flatten_append, List.flatten_singleton] at hstep
      exact hstep

/-! ## The cut -/

section

variable {maxBytes : Nat} {before after : List Units} {t : Units}

/-- What is kept fits, just when the cut is good. -/
theorem FirstOver.cutWell_iff (h : FirstOver maxBytes before t) :
    byteLength (before.flatten ++ t.take (room maxBytes before)) ≤ maxBytes ∧
      before.flatten ++ t.take (room maxBytes before) ≠ before.flatten ++ (t ++ after.flatten) ↔
    CutWell maxBytes before t after := by
  have hbefore := h.fit.fits
  have hcrossed := h.crossed
  have hmeet := byteLength_append before.flatten (t.take (room maxBytes before))
  have hroom : room maxBytes before = maxBytes - byteLength before.flatten := rfl
  -- a piece with nothing missing is the text and all behind it
  have hproper : before.flatten ++ t.take (room maxBytes before) ≠ before.flatten ++ (t ++ after.flatten) ↔
      room maxBytes before < t.length ∨ after.flatten ≠ [] := by
    rw [ne_eq, List.append_right_inj]
    constructor
    · intro hne
      by_contra hall
      obtain ⟨hlong, hafter⟩ := not_or.mp hall
      rw [List.take_of_length_le (Nat.not_lt.mp hlong), not_not.mp hafter, List.append_nil] at hne
      exact hne rfl
    · rintro hmore heq
      have hlength := congrArg List.length heq
      rw [List.length_take, List.length_append] at hlength
      rcases hmore with hlong | hafter
      · omega
      · have hpos := List.length_pos_iff.mpr hafter
        omega
  rw [hproper, CutWell]
  by_cases hjoin : joins before.flatten (t.take (room maxBytes before)) = true
  · rw [if_pos hjoin] at hmeet ⊢
    have hlow : ∃ u rest, t.take (room maxBytes before) = u :: rest ∧ isLow u = true := by
      cases hkept : t.take (room maxBytes before) with
      | nil =>
        rw [hkept, joins_nil_right] at hjoin
        exact nomatch hjoin
      | cons u rest =>
        rw [hkept] at hjoin
        exact ⟨u, rest, rfl, (Bool.and_eq_true_iff.mp hjoin).2⟩
    obtain ⟨u, rest, hkept, hu⟩ := hlow
    have hbytes := byteLength_low hu rest
    rw [hkept] at hmeet ⊢
    rw [hbytes] at hmeet
    show _ ↔ 1 + byteLength rest ≤ _ ∧ _
    refine and_congr_left fun _ => ?_
    omega
  · rw [if_neg hjoin, Nat.add_zero] at hmeet
    rw [if_neg hjoin, ← byteLength_le_length_iff, hmeet, List.length_take]
    have hunits := length_le_byteLength (t.take (room maxBytes before))
    rw [List.length_take] at hunits
    by_cases hlong : room maxBytes before < t.length
    · rw [Nat.min_eq_left (Nat.le_of_lt hlong)] at hunits ⊢
      constructor
      · rintro ⟨hfits, -⟩
        omega
      · intro hfits
        exact ⟨by omega, .inl hlong⟩
    · -- a text that is no longer than the room crosses the limit in bytes
      rw [List.take_of_length_le (Nat.not_lt.mp hlong)] at hunits ⊢
      have htext := length_le_byteLength t
      constructor
      · rintro ⟨hfits, -⟩
        omega
      · intro hfits
        omega

end

/-- **The bound.**  The output fits, is a beginning of the whole and is marked as it should be, just when the first text
    that goes over the limit, if there is one, is cut well. -/
theorem output_bounded_iff (events : List RuntimeTaskEvent) (maxBytes : Nat) :
    OutputBounded events maxBytes (extractAgentOutputText events maxBytes) ↔
    ∀ before t after, outputTexts events = before ++ t :: after → FirstOver maxBytes before t →
      CutWell maxBytes before t after := by
  rw [extract_texts]
  rcases collect_settles maxBytes [] (outputTexts events) (AllFit.nil maxBytes) with
    ⟨hfit, hresult⟩ | ⟨front, t, after, hsplit, hover, hresult⟩
  · rw [List.nil_append] at hfit hresult
    rw [show ([] : Units) = ([] : List Units).flatten from rfl, hresult]
    constructor
    · intro _ before t after hsplit hover
      exact absurd (hfit before t after hsplit) (Nat.not_le.mpr hover.crossed)
    · intro _
      exact ⟨hfit.fits, List.prefix_refl _, ⟨fun h => (nomatch h), fun h => absurd rfl h⟩⟩
  · rw [List.nil_append] at hsplit
    have hwhole : fullText events = front.flatten ++ (t ++ after.flatten) := by
      rw [fullText, hsplit, List.flatten_append, List.flatten_cons]
    have hcut : _ ↔ CutWell maxBytes front t after := hover.cutWell_iff
    rw [show ([] : Units) = ([] : List Units).flatten from rfl, hresult]
    constructor
    · intro hbounded before' t' after' hsplit' hover'
      obtain ⟨rfl, rfl, rfl⟩ := hover.unique hover' (hsplit ▸ hsplit')
      have hne := hbounded.marked.mp rfl
      rw [hwhole] at hne
      exact hcut.mp ⟨hbounded.fits, hne⟩
    · intro hwell
      obtain ⟨hfits, hne⟩ := hcut.mpr (hwell front t after hsplit hover)
      refine ⟨hfits, ?_, ⟨fun _ => hwhole ▸ hne, fun _ => rfl⟩⟩
      rw [hwhole]
      exact (List.prefix_append_right_inj _).mpr ((List.take_prefix _ _).trans (List.prefix_append _ _))

/-- A first piece of one byte, and one of two letters with two bytes each. -/
def accentedDeltas : List RuntimeTaskEvent :=
  [⟨some "agent.output.delta", some ⟨.undefined, .string [0x61]⟩⟩,
   ⟨some "agent.output.delta", some ⟨.string (encode "stdout".toList), .string [0xE9, 0xE9]⟩⟩]

/-- A limit of three bytes lets five through. -/
theorem accented_overruns : ¬ OutputBounded accentedDeltas 3 (extractAgentOutputText accentedDeltas 3) := by
  intro h
  have hfits : byteLength (extractAgentOutputText accentedDeltas 3).text ≤ 3 := h.fits
  exact absurd hfits (by decide)

end VibeOutput
