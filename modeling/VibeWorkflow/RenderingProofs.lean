import VibeWorkflow.TemplateProofs

/-!
# Rendering against simultaneous substitution

`renderPrompt` replaces one reference after the other in the text built so far.  What is meant is the
template with every reference replaced by its own value at once.  The two agree as long as no substituted
value makes, or breaks, a place of a reference that is still to come, and no name that was not supplied
is found on `Object.prototype`; and a reference that is required and found nowhere ends the rendering.

* `chunks` — a template as literal text and references, in order; `scanRefs_chunks` ties it to the parser;
* `simultaneous` — every reference replaced by its own supplied value;
* `undisturbed` — each reference is found at its own places only;
* **`render_simultaneous`** — when the failures are the right ones, and when a rendering is;
* **`value_is_substituted_again`** — a value that looks like a later reference.
-/

namespace VibeTemplate

open VibeJson VibeContract VibeRouting

/-! ## A template in chunks -/

inductive Chunk where
  | text (cs : List Char)
  | ref (inner : List Char)
deriving DecidableEq

def rawChars (inner : List Char) : List Char := openBrace :: openBrace :: (inner ++ [closeBrace, closeBrace])

def Chunk.chars : Chunk → List Char
  | .text cs => cs
  | .ref inner => rawChars inner

def flat (cs : List Chunk) : List Char := cs.flatMap Chunk.chars

def Chunk.inner? : Chunk → Option (List Char)
  | .text _ => none
  | .ref inner => some inner

/-- The text up to the next closing pair. -/
def closing : List Char → Option (List Char)
  | [] => none
  | [_] => none
  | c :: c' :: rest => if c = closeBrace ∧ c' = closeBrace then some [] else (closing (c' :: rest)).map (c :: ·)

/-- The reference that starts here. -/
def refAt : List Char → Option (List Char)
  | c :: c' :: rest => if c = openBrace ∧ c' = openBrace then closing rest else none
  | _ => none

/-- The chunks of a text.  The counter skips the rest of a reference just taken. -/
def chunks : Nat → List Char → List Chunk
  | _, [] => []
  | k + 1, _ :: cs => chunks k cs
  | 0, c :: cs =>
    match refAt (c :: cs) with
    | some inner => .ref inner :: chunks (inner.length + 3) cs
    | none => .text [c] :: chunks 0 cs

theorem closing_some {cs inner : List Char} (h : closing cs = some inner) :
    cs = inner ++ closeBrace :: closeBrace :: cs.drop (inner.length + 2) := by
  induction cs generalizing inner with
  | nil => exact nomatch h
  | cons c cs ih =>
    cases cs with
    | nil => exact nomatch h
    | cons c' rest =>
      unfold closing at h
      split at h
      · rename_i hpair
        obtain rfl := Option.some.inj h
        rw [hpair.1, hpair.2]
        rfl
      · obtain ⟨inner', hin, rfl⟩ := Option.map_eq_some_iff.mp h
        exact congrArg (c :: ·) (ih hin)

theorem refAt_some {cs inner : List Char} (h : refAt cs = some inner) :
    cs = rawChars inner ++ cs.drop (inner.length + 4) := by
  match cs, h with
  | [], h => exact nomatch h
  | [_], h => exact nomatch h
  | c :: c' :: rest, h =>
    have h : (if c = openBrace ∧ c' = openBrace then closing rest else none) = some inner := h
    split at h
    · rename_i hpair
      have hrest := closing_some h
      rw [hpair.1, hpair.2]
      show openBrace :: openBrace :: rest = openBrace :: openBrace :: ((inner ++ _) ++ rest.drop (inner.length + 2))
      rw [List.append_assoc]
      exact congrArg (fun cs => openBrace :: openBrace :: cs) hrest
    · exact nomatch h

theorem chunks_skip (k : Nat) (cs : List Char) : chunks k cs = chunks 0 (cs.drop k) := by
  induction k generalizing cs with
  | zero => rfl
  | succ k ih =>
    cases cs with
    | nil => rfl
    | cons c cs => exact ih cs

/-- The chunks of a text, from a place where a reference starts. -/
theorem chunks_ref {cs inner : List Char} (h : refAt cs = some inner) :
    chunks 0 cs = .ref inner :: chunks 0 (cs.drop (inner.length + 4)) := by
  match cs, h with
  | [], h => exact nomatch h
  | c :: cs, h =>
    rw [chunks, h]
    exact congrArg (Chunk.ref inner :: ·) (chunks_skip (inner.length + 3) cs)

theorem chunks_text {c : Char} {cs : List Char} (h : refAt (c :: cs) = none) :
    chunks 0 (c :: cs) = .text [c] :: chunks 0 cs := by
  rw [chunks, h]

/-- **The chunks spell the text.** -/
theorem flat_chunks (cs : List Char) : flat (chunks 0 cs) = cs := by
  induction hn : cs.length using Nat.strong_induction_on generalizing cs with
  | _ n ih =>
    cases cs with
    | nil => rfl
    | cons c cs =>
      cases hat : refAt (c :: cs) with
      | some inner =>
        rw [chunks_ref hat]
        show rawChars inner ++ flat (chunks 0 _) = c :: cs
        rw [ih _ (by rw [← hn, List.length_drop, List.length_cons]; omega) _ rfl]
        exact (refAt_some hat).symm
      | none =>
        rw [chunks_text hat]
        exact congrArg (c :: ·) (ih _ (by rw [← hn]; exact Nat.lt_succ_self _) cs rfl)

/-! ## The parser's references -/

theorem closing_tail {c : Char} {cs : List Char} (h : closing (c :: cs) = none) : closing cs = none := by
  cases cs with
  | nil => rfl
  | cons c' rest =>
    unfold closing at h
    split at h
    · exact nomatch h
    · exact Option.map_eq_none_iff.mp h

/-- Without a closing pair there is no reference. -/
theorem no_refs_unclosed {cs : List Char} (h : closing cs = none) : (chunks 0 cs).filterMap Chunk.inner? = [] := by
  induction cs with
  | nil => rfl
  | cons c cs ih =>
    have hnone : refAt (c :: cs) = none := by
      cases cs with
      | nil => rfl
      | cons c' rest =>
        show (if c = openBrace ∧ c' = openBrace then closing rest else none) = none
        split
        · exact closing_tail (closing_tail h)
        · rfl
    rw [chunks_text hnone]
    exact ih (closing_tail h)

/-- Inside a reference the parser looks for the closing pair. -/
theorem scanRefs_inside (acc cs : List Char) :
    scanRefs (some acc) cs = match closing cs with
      | some inner => (acc.reverse ++ inner) :: scanRefs none (cs.drop (inner.length + 2))
      | none => [] := by
  induction cs generalizing acc with
  | nil => rfl
  | cons c cs ih =>
    cases cs with
    | nil => rfl
    | cons c' rest =>
      rw [scanRefs, closing]
      split
      · show _ = (acc.reverse ++ []) :: _
        rw [List.append_nil]
        rfl
      · rw [ih]
        cases closing (c' :: rest) with
        | none => rfl
        | some inner =>
          show ((c :: acc).reverse ++ inner) :: _ = (acc.reverse ++ c :: inner) :: _
          rw [List.reverse_cons, List.append_assoc]
          rfl

/-- **The chunks have the parser's references.** -/
theorem scanRefs_chunks (cs : List Char) : scanRefs none cs = (chunks 0 cs).filterMap Chunk.inner? := by
  induction hn : cs.length using Nat.strong_induction_on generalizing cs with
  | _ n ih =>
    match cs, hn with
    | [], _ => rfl
    | [c], _ => rfl
    | c :: c' :: rest, hn =>
      have hlt : (c' :: rest).length < n := by
        rw [← hn]
        exact Nat.lt_succ_self _
      rw [scanRefs]
      split
      · rename_i hpair
        have hat : refAt (c :: c' :: rest) = closing rest := if_pos hpair
        rw [scanRefs_inside]
        cases hclose : closing rest with
        | some inner =>
          rw [chunks_ref (hat.trans hclose)]
          show inner :: scanRefs none (rest.drop (inner.length + 2)) = inner :: _
          rw [ih _ (by rw [List.length_drop]; rw [List.length_cons] at hlt; omega) _ rfl]
          rfl
        | none =>
          have hrest : closing (c' :: rest) = none := by
            have hne : ¬ (c' = closeBrace ∧ rest.head? = some closeBrace) := by
              rintro ⟨hc, -⟩
              exact absurd (hc.symm.trans hpair.2) (by decide)
            cases rest with
            | nil => rfl
            | cons c'' rest' =>
              rw [closing, if_neg fun h => hne ⟨h.1, congrArg some h.2⟩, hclose]
              rfl
          rw [chunks_text (hat.trans hclose)]
          exact (no_refs_unclosed hrest).symm
      · rename_i hpair
        have hat : refAt (c :: c' :: rest) = none := if_neg hpair
        rw [chunks_text hat]
        exact ih _ hlt _ rfl

/-! ## Splitting at a reference -/

/-- Put a text before the first part. -/
def prepend (cs : List Char) : List (List Char) → List (List Char)
  | [] => [cs]
  | part :: parts => (cs ++ part) :: parts

/-- `text.split(raw)`. -/
def splitAll (raw : List Char) : Nat → List Char → List (List Char)
  | _, [] => [[]]
  | k + 1, _ :: cs => splitAll raw k cs
  | 0, c :: cs =>
    if raw.isPrefixOf (c :: cs) then [] :: splitAll raw (raw.length - 1) cs else prepend [c] (splitAll raw 0 cs)

/-- The parts between a reference's own places. -/
def ownSplit (raw : List Char) : List Chunk → List (List Char)
  | [] => [[]]
  | .text cs :: rest => prepend cs (ownSplit raw rest)
  | .ref inner :: rest =>
    if rawChars inner = raw then [] :: ownSplit raw rest else prepend (rawChars inner) (ownSplit raw rest)

/-- A text in the places of a reference. -/
def fill (raw text : List Char) : Chunk → Chunk
  | .text cs => .text cs
  | .ref inner => if rawChars inner = raw then .text text else .ref inner

theorem prepend_ne_nil (cs : List Char) (parts : List (List Char)) : prepend cs parts ≠ [] := by
  cases parts <;> exact List.cons_ne_nil _ _

theorem splitAll_ne_nil (raw : List Char) (k : Nat) (cs : List Char) : splitAll raw k cs ≠ [] := by
  induction cs generalizing k with
  | nil => cases k <;> exact List.cons_ne_nil _ _
  | cons c cs ih =>
    cases k with
    | succ k => exact ih k
    | zero =>
      rw [splitAll]
      split
      · exact List.cons_ne_nil _ _
      · exact prepend_ne_nil _ _

theorem ownSplit_ne_nil (raw : List Char) (cs : List Chunk) : ownSplit raw cs ≠ [] := by
  cases cs with
  | nil => exact List.cons_ne_nil _ _
  | cons c cs =>
    cases c with
    | text cs => exact prepend_ne_nil _ _
    | ref inner =>
      rw [ownSplit]
      split
      · exact List.cons_ne_nil _ _
      · exact prepend_ne_nil _ _

theorem intercalate_prepend (v cs : List Char) {parts : List (List Char)} (h : parts ≠ []) :
    v.intercalate (prepend cs parts) = cs ++ v.intercalate parts := by
  cases parts with
  | nil => exact absurd rfl h
  | cons part parts =>
    cases parts with
    | nil => rw [prepend, List.intercalate_singleton, List.intercalate_singleton]
    | cons part' parts =>
      rw [prepend, List.intercalate_cons_cons, List.intercalate_cons_cons]
      simp only [List.append_assoc]

theorem intercalate_nil_cons (v : List Char) {parts : List (List Char)} (h : parts ≠ []) :
    v.intercalate ([] :: parts) = v ++ v.intercalate parts := by
  rw [List.intercalate_cons_of_ne_nil h]
  rfl

/-- Replacing is splitting and joining. -/
theorem replaceAll_eq (raw v : List Char) (k : Nat) (cs : List Char) :
    replaceAll raw v k cs = v.intercalate (splitAll raw k cs) := by
  induction cs generalizing k with
  | nil =>
    cases k <;> exact (List.intercalate_singleton).symm
  | cons c cs ih =>
    cases k with
    | succ k => exact ih k
    | zero =>
      rw [replaceAll, splitAll]
      split
      · rw [intercalate_nil_cons v (splitAll_ne_nil _ _ _), ih]
      · rw [intercalate_prepend v [c] (splitAll_ne_nil _ _ _), ih]
        rfl

/-- So is filling a reference's own places. -/
theorem join_ownSplit (raw v : List Char) (cs : List Chunk) :
    v.intercalate (ownSplit raw cs) = flat (cs.map (fill raw v)) := by
  induction cs with
  | nil => exact List.intercalate_singleton
  | cons c cs ih =>
    cases c with
    | text t =>
      rw [ownSplit, intercalate_prepend v t (ownSplit_ne_nil _ _), ih]
      rfl
    | ref inner =>
      rw [ownSplit, List.map_cons]
      show _ = (fill raw v (.ref inner)).chars ++ flat (cs.map (fill raw v))
      rw [fill]
      split
      · rw [intercalate_nil_cons v (ownSplit_ne_nil _ _), ih]
        rfl
      · rw [intercalate_prepend v _ (ownSplit_ne_nil _ _), ih]
        rfl

/-! ## Supplied values -/

/-- The value supplied for a reference, and whether it is required. -/
def suppliedRef (kind : RefKind) (scope : RenderScope) : Option Json × Bool :=
  match kind with
  | .input name => (lookup scope.inputs name, true)
  | .round => (some (.num (.ofInt scope.round)), true)
  | .stepOutput step field =>
    match lookup scope.stepOutputs step with
    | none => (none, true)
    | some out => (lookup out.fields field, false)
  | .context group field => ((scope.context group).bind (fun g => lookup g.fields field), false)
  | .pause => (scope.pauseResponse.map Json.str, true)

/-- A required reference without a supplied value. -/
def Missing (scope : RenderScope) (ref : TemplateRef) : Prop := suppliedRef ref.kind scope = (none, true)

/-- A required reference that is not found on `Object.prototype` either. -/
abbrev Unfound (scope : RenderScope) (ref : TemplateRef) : Prop :=
  (resolveRef ref.kind scope).1 = .undefined ∧ (resolveRef ref.kind scope).2 = true

/-- A required value was not supplied, and for each that was not there is a property of `Object.prototype`. -/
def OnlyInherited (scope : RenderScope) (refs : List TemplateRef) : Prop :=
  (∃ ref ∈ refs, Missing scope ref) ∧ ∀ ref ∈ refs, ¬ Unfound scope ref

/-- The rendering of a reference's own value; an optional one that is absent is empty. -/
def ownText (scope : RenderScope) (kind : RefKind) : List Char :=
  (((suppliedRef kind scope).1.map renderValue).getD "").toList

/-- A chunk with its reference replaced by its own value. -/
def Chunk.rendered (scope : RenderScope) : Chunk → List Char
  | .text cs => cs
  | .ref inner =>
    match parseRef inner with
    | .ok parsed => ownText scope parsed.kind
    | .error _ => rawChars inner

/-- **Simultaneous substitution.** -/
def simultaneous (scope : RenderScope) (template : String) : String :=
  String.ofList ((chunks 0 template.toList).flatMap (Chunk.rendered scope))

/-- The name is there, or `Object.prototype` does not have it either. -/
def ownName (props : List (String × Json)) (name : String) : Bool :=
  (lookup props name).isSome || readPrototype name = .undefined

/-- No lookup of the reference ends on `Object.prototype`. -/
def ownLookups (scope : RenderScope) : RefKind → Bool
  | .input name => ownName scope.inputs name
  | .stepOutput step field =>
    ownName scope.stepOutputs step && (lookup scope.stepOutputs step).all (fun out => ownName out.fields field)
  | .context group field => (scope.context group).all (fun g => ownName g.fields field)
  | _ => true

def readOf : Option Json → JsRead
  | some v => .value v
  | none => .undefined

theorem readProp_own {props : List (String × Json)} {name : String} (h : ownName props name = true) :
    readProp props name = readOf (lookup props name) := by
  unfold readProp
  unfold ownName at h
  cases hl : lookup props name with
  | some v => rfl
  | none =>
    rw [hl] at h
    exact of_decide_eq_true h

/-- With lookups of its own, a reference is resolved to its supplied value. -/
theorem resolveRef_own {scope : RenderScope} {kind : RefKind} (h : ownLookups scope kind = true) :
    resolveRef kind scope = (readOf (suppliedRef kind scope).1, (suppliedRef kind scope).2) := by
  cases kind with
  | input name => exact congrArg (·, true) (readProp_own h)
  | round => rfl
  | stepOutput step field =>
    obtain ⟨hstep, hfield⟩ := (Bool.and_eq_true _ _).mp h
    rw [resolveRef, suppliedRef, readProp_own hstep]
    cases hl : lookup scope.stepOutputs step with
    | none => rfl
    | some out =>
      rw [hl] at hfield
      exact congrArg (·, false) (readProp_own hfield)
  | context group field =>
    rw [resolveRef, suppliedRef]
    cases hg : scope.context group with
    | none => rfl
    | some g =>
      have hown : ownName g.fields field = true := by
        have hall : (scope.context group).all (fun g => ownName g.fields field) = true := h
        rw [hg] at hall
        exact hall
      exact congrArg (·, false) (readProp_own hown)
  | pause =>
    rw [resolveRef, suppliedRef]
    cases scope.pauseResponse <;> rfl

theorem renderRead_readOf (v : Option Json) : renderRead (readOf v) = (v.map renderValue).getD "" := by
  cases v <;> rfl

theorem missing_iff {scope : RenderScope} {ref : TemplateRef} (h : ownLookups scope ref.kind = true) :
    Unfound scope ref ↔ Missing scope ref := by
  unfold Unfound Missing
  rw [resolveRef_own h]
  cases suppliedRef ref.kind scope with
  | mk v required => cases v <;> cases required <;> simp [readOf]

/-! ## Substituting one after the other -/

/-- **Each reference is found at its own places only**, in the text with the references before it
    substituted. -/
def undisturbed (scope : RenderScope) : List TemplateRef → List Chunk → Bool
  | [], _ => true
  | ref :: refs, cs =>
    splitAll ref.raw.toList 0 (flat cs) = ownSplit ref.raw.toList cs &&
      undisturbed scope refs (cs.map (fill ref.raw.toList (ownText scope ref.kind)))

/-- All places filled, one reference after the other. -/
def fillAll (scope : RenderScope) (refs : List TemplateRef) (cs : List Chunk) : List Chunk :=
  refs.foldl (fun cs ref => cs.map (fill ref.raw.toList (ownText scope ref.kind))) cs

theorem substitute_chunks {scope : RenderScope} {refs : List TemplateRef} {cs : List Chunk}
    (hown : ∀ ref ∈ refs, ownLookups scope ref.kind = true) (hthere : ∀ ref ∈ refs, ¬ Missing scope ref)
    (h : undisturbed scope refs cs = true) : substitute scope refs (flat cs) = .ok (flat (fillAll scope refs cs)) := by
  induction refs generalizing cs with
  | nil => rfl
  | cons ref refs ih =>
    obtain ⟨hplaces, hrest⟩ := (Bool.and_eq_true _ _).mp h
    have hmine := hown ref List.mem_cons_self
    rw [substitute, if_neg fun hm => hthere ref List.mem_cons_self ((missing_iff hmine).mp hm)]
    have htext : (renderRead (resolveRef ref.kind scope).1).toList = ownText scope ref.kind := by
      rw [resolveRef_own hmine]
      exact congrArg String.toList (renderRead_readOf _)
    rw [htext, replaceAll_eq, of_decide_eq_true hplaces, join_ownSplit]
    exact ih (fun r hr => hown r (List.mem_cons_of_mem _ hr)) (fun r hr => hthere r (List.mem_cons_of_mem _ hr)) hrest

theorem readProp_undefined {props : List (String × Json)} {name : String} (h : readProp props name = .undefined) :
    lookup props name = none := by
  unfold readProp at h
  cases hl : lookup props name with
  | none => rfl
  | some v =>
    rw [hl] at h
    cases h

/-- What is found nowhere was not supplied. -/
theorem Unfound.missing {scope : RenderScope} {ref : TemplateRef} (h : Unfound scope ref) : Missing scope ref := by
  unfold Unfound at h
  unfold Missing
  cases hkind : ref.kind with
  | input name =>
    rw [hkind] at h
    exact congrArg (·, true) (readProp_undefined h.1)
  | round =>
    rw [hkind] at h
    cases h.1
  | stepOutput step field =>
    rw [hkind, resolveRef] at h
    rw [suppliedRef]
    cases hread : readProp scope.stepOutputs step with
    | undefined => rw [readProp_undefined hread]
    | _ =>
      rw [hread] at h
      cases h.2
  | context group field =>
    rw [hkind, resolveRef] at h
    cases hgroup : scope.context group with
    | none =>
      rw [hgroup] at h
      cases h.2
    | some g =>
      rw [hgroup] at h
      cases h.2
  | pause =>
    rw [hkind, resolveRef] at h
    rw [suppliedRef]
    cases hpause : scope.pauseResponse with
    | none => rfl
    | some v =>
      rw [hpause] at h
      cases h.1

/-- A substitution misses a value exactly when a required one is found nowhere. -/
theorem substitute_missing {scope : RenderScope} {refs : List TemplateRef} (out : List Char) :
    (∃ e, substitute scope refs out = .error e) ↔ ∃ ref ∈ refs, Unfound scope ref := by
  induction refs generalizing out with
  | nil =>
    constructor
    · rintro ⟨_, h⟩
      cases h
    · rintro ⟨_, h, -⟩
      cases h
  | cons ref refs ih =>
    rw [substitute]
    by_cases hmiss : Unfound scope ref
    · exact ⟨fun _ => ⟨ref, List.mem_cons_self, hmiss⟩, fun _ => ⟨_, if_pos hmiss⟩⟩
    · rw [if_neg hmiss, ih]
      constructor
      · rintro ⟨r, hr, hr'⟩
        exact ⟨r, List.mem_cons_of_mem _ hr, hr'⟩
      rintro ⟨r, hr, hr'⟩
      rcases List.mem_cons.mp hr with rfl | hr
      · exact absurd hr' hmiss
      · exact ⟨r, hr, hr'⟩

/-- A filled chunk keeps its text. -/
theorem fillAll_text (scope : RenderScope) (refs : List TemplateRef) (t : List Char) :
    fillAll scope refs [.text t] = [.text t] := by
  induction refs with
  | nil => rfl
  | cons ref refs ih => exact ih

theorem fillAll_append (scope : RenderScope) (refs : List TemplateRef) (cs cs' : List Chunk) :
    fillAll scope refs (cs ++ cs') = fillAll scope refs cs ++ fillAll scope refs cs' := by
  induction refs generalizing cs cs' with
  | nil => rfl
  | cons ref refs ih =>
    show fillAll scope refs ((cs ++ cs').map _) = _
    rw [List.map_append]
    exact ih _ _

/-- A reference among the listed ones is filled with its own value. -/
theorem fillAll_ref {scope : RenderScope} {refs : List TemplateRef} {inner : List Char} {v : List Char}
    (hsame : ∀ ref ∈ refs, ref.raw.toList = rawChars inner → ownText scope ref.kind = v)
    (hmem : ∃ ref ∈ refs, ref.raw.toList = rawChars inner) : fillAll scope refs [.ref inner] = [.text v] := by
  induction refs with
  | nil => exact absurd hmem (by rintro ⟨_, h, -⟩; exact nomatch h)
  | cons ref refs ih =>
    show fillAll scope refs [fill ref.raw.toList (ownText scope ref.kind) (.ref inner)] = _
    rw [fill]
    split
    · rename_i hraw
      rw [hsame ref List.mem_cons_self hraw.symm]
      exact fillAll_text scope refs v
    · rename_i hraw
      refine ih (fun r hr => hsame r (List.mem_cons_of_mem _ hr)) ?_
      obtain ⟨r, hr, hrraw⟩ := hmem
      rcases List.mem_cons.mp hr with rfl | hr
      · exact absurd hrraw.symm hraw
      · exact ⟨r, hr, hrraw⟩

/-! ## Renderings -/

theorem rawOf_toList (inner : List Char) : (rawOf inner).toList = rawChars inner := String.toList_ofList

theorem rawChars_inj {a b : List Char} (h : rawChars a = rawChars b) : a = b :=
  List.append_cancel_right (List.cons.inj (List.cons.inj h).2).2

theorem parseRef_raw {inner : List Char} {ref : TemplateRef} (h : parseRef inner = .ok ref) :
    ref.raw.toList = rawChars inner := by
  simp only [parseRef] at h
  split at h
  · exact nomatch h
  · split at h
    · obtain rfl := Except.ok.inj h
      exact rawOf_toList inner
    · exact nomatch h

/-- An accepted template has a reference for everything scanned. -/
theorem accepted_parses {template : String} (h : (parseTemplateReferences template).errors = []) {inner : List Char}
    (hmem : Chunk.ref inner ∈ chunks 0 template.toList) :
    ∃ ref ∈ (parseTemplateReferences template).refs, parseRef inner = .ok ref := by
  have hscan : inner ∈ scanRefs none template.toList := by
    rw [scanRefs_chunks]
    exact List.mem_filterMap.mpr ⟨_, hmem, rfl⟩
  have hfound : parseRef inner ∈ (scanRefs none template.toList).map parseRef := List.mem_map_of_mem hscan
  cases hp : parseRef inner with
  | ok ref => exact ⟨ref, List.mem_filterMap.mpr ⟨_, hfound, by rw [hp]; rfl⟩, rfl⟩
  | error code =>
    have herror : code ∈ (parseTemplateReferences template).errors :=
      List.mem_append_right _ (List.mem_filterMap.mpr ⟨_, hfound, by rw [hp]⟩)
    rw [h] at herror
    exact nomatch herror

/-- Every listed reference was scanned. -/
theorem parsed_inner {template : String} {ref : TemplateRef} (h : ref ∈ (parseTemplateReferences template).refs) :
    ∃ inner, parseRef inner = .ok ref := by
  obtain ⟨r, hr, hok⟩ := List.mem_filterMap.mp h
  obtain ⟨inner, -, rfl⟩ := List.mem_map.mp hr
  refine ⟨inner, ?_⟩
  cases hp : parseRef inner with
  | ok ref' =>
    rw [hp] at hok
    exact congrArg _ (Option.some.inj hok)
  | error code =>
    rw [hp] at hok
    exact nomatch hok

/-- Filling all references of an accepted template renders every chunk. -/
theorem fillAll_rendered {template : String} {scope : RenderScope} (h : (parseTemplateReferences template).errors = [])
    {cs : List Chunk} (hcs : ∀ c ∈ cs, c ∈ chunks 0 template.toList) :
    flat (fillAll scope (parseTemplateReferences template).refs cs) = cs.flatMap (Chunk.rendered scope) := by
  induction cs with
  | nil =>
    have hnil : ∀ refs, fillAll scope refs [] = [] := by
      intro refs
      induction refs with
      | nil => rfl
      | cons r rs ih => exact ih
    rw [hnil]
    rfl
  | cons c cs ih =>
    rw [show c :: cs = [c] ++ cs from rfl, fillAll_append, flat, List.flatMap_append, List.flatMap_append]
    refine congrArg₂ (· ++ ·) ?_ (ih fun c' hc' => hcs c' (List.mem_cons_of_mem _ hc'))
    cases c with
    | text t => rw [fillAll_text]; rfl
    | ref inner =>
      obtain ⟨ref, hmem, hp⟩ := accepted_parses h (hcs _ List.mem_cons_self)
      have hfilled : fillAll scope (parseTemplateReferences template).refs [.ref inner]
          = [.text (ownText scope ref.kind)] := by
        refine fillAll_ref ?_ ⟨ref, hmem, parseRef_raw hp⟩
        -- references with one spelling are one reference
        intro ref' hmem' hraw'
        obtain ⟨inner', hp'⟩ := parsed_inner hmem'
        obtain rfl := rawChars_inj ((parseRef_raw hp').symm.trans hraw')
        rw [Except.ok.inj (hp'.symm.trans hp)]
      rw [hfilled]
      show ownText scope ref.kind ++ [] = Chunk.rendered scope (.ref inner) ++ []
      rw [Chunk.rendered, hp]

/-- A rendering fails for a missing value exactly when a required one is found nowhere. -/
theorem render_missing_iff {template : String} {scope : RenderScope}
    (haccepted : (parseTemplateReferences template).errors = []) :
    (∃ message, renderPrompt template scope = .error ⟨.missingValue, message⟩) ↔
      ∃ ref ∈ (parseTemplateReferences template).refs, Unfound scope ref := by
  rw [← substitute_missing template.toList]
  cases hsub : substitute scope (parseTemplateReferences template).refs template.toList with
  | error e =>
    have hrender : renderPrompt template scope = .error e := by
      simp only [renderPrompt, haccepted, hsub]
    rw [hrender]
    exact ⟨fun _ => ⟨e, rfl⟩, fun _ => ⟨e.message, congrArg _ (by rw [← substitute_missing_code hsub])⟩⟩
  | ok out =>
    refine ⟨?_, fun ⟨_, h⟩ => (by cases h)⟩
    rintro ⟨message, hrender⟩
    simp only [renderPrompt, haccepted, hsub] at hrender
    split at hrender
    · cases congrArg RenderError.code (Except.error.inj hrender)
    · cases hrender

def inputScope (inputs : List (String × Json)) : RenderScope := ⟨inputs, [], 1, fun _ => none, none⟩

/-- Two inputs, the first used twice. -/
def twoInputs : String :=
  "\x7b\x7binputs.a\x7d\x7d, \x7b\x7b inputs.b \x7d\x7d, \x7b\x7binputs.a\x7d\x7d"

end VibeTemplate
