import VibeWorkflow.ValidSpecProofs

/-!
# Storage bounds and field-name checks

The control store serializes what it is given and refuses it past a byte bound or when it
carries a credential-like field name.  `encodeJson`, `boundString`, `assertNoForbiddenFields` and
`assertValidContext` are its checks; every durable write of a workflow goes through them.

* **`byteLen_le_utf16`** — a text has at most three bytes for each UTF-16 unit.
* **`jsonText_le`** — quoting a text for JSON at most multiplies its units by six.
* **`noForbiddenFields_flat`** — scalars and arrays of strings carry no field names.
-/

namespace VibeStore

open VibeJson VibeContract VibeRouting VibeValidator

/-! ## Byte lengths -/

theorem byteLen_ofList (cs : List Char) :
    byteLen (String.ofList cs) = (cs.map Char.utf8Size).sum := by
  induction cs with
  | nil => rfl
  | cons c cs ih =>
    have happ : String.ofList (c :: cs) = String.ofList [c] ++ String.ofList cs := by
      rw [← String.ofList_append]
      rfl
    have hone : (String.ofList [c]).utf8ByteSize = c.utf8Size := String.utf8ByteSize_singleton
    rw [byteLen] at ih ⊢
    rw [happ, String.utf8ByteSize_append, ih, hone, List.map_cons, List.sum_cons]

theorem byteLen_eq (s : String) : byteLen s = (s.toList.map Char.utf8Size).sum := by
  rw [← byteLen_ofList, String.ofList_toList]

/-- The UTF-16 units of one character. -/
def units (c : Char) : Nat := if c.toNat < 0x10000 then 1 else 2

theorem utf16Length_eq (s : String) : utf16Length s = (s.toList.map units).sum := rfl

/-- A character takes at most three bytes for each of its UTF-16 units. -/
theorem utf8Size_le_units (c : Char) : c.utf8Size ≤ 3 * units c := by
  have hval : c.val.toNat = c.toNat := rfl
  simp only [Char.utf8Size, units, UInt32.le_iff_toNat_le, UInt32.toNat_ofNatLT, hval]
  by_cases hlo : c.toNat < 0x10000
  · rw [if_pos hlo]
    split
    · omega
    · split
      · omega
      · rw [if_pos (by omega)]
  · rw [if_neg hlo]
    split
    · omega
    · split
      · omega
      · split <;> omega

/-- A pointwise bound on characters bounds the sums. -/
theorem sum_map_le {α : Type} {f g : α → Nat} {k : Nat} (h : ∀ c, f c ≤ k * g c) (cs : List α) :
    (cs.map f).sum ≤ k * (cs.map g).sum := by
  induction cs with
  | nil => exact Nat.zero_le _
  | cons c cs ih =>
    have hc := h c
    simp only [List.map_cons, List.sum_cons, Nat.mul_add]
    omega

/-- **A text has at most three bytes for each UTF-16 unit.** -/
theorem byteLen_le_utf16 (s : String) : byteLen s ≤ 3 * utf16Length s := by
  rw [byteLen_eq, utf16Length_eq]
  exact sum_map_le utf8Size_le_units s.toList

/-- The bytes of a character list. -/
def charBytes (cs : List Char) : Nat := (cs.map Char.utf8Size).sum

@[simp] theorem charBytes_nil : charBytes [] = 0 := rfl

@[simp] theorem charBytes_cons (c : Char) (cs : List Char) :
    charBytes (c :: cs) = c.utf8Size + charBytes cs := rfl

@[simp] theorem charBytes_append (a b : List Char) :
    charBytes (a ++ b) = charBytes a + charBytes b := by
  simp [charBytes]

/-- An escaped character takes at most six bytes for each of its UTF-16 units. -/
theorem escapeChar_le_units (c : Char) : charBytes (escapeChar c) ≤ 6 * units c := by
  have hpos : 1 ≤ units c := by
    unfold units
    split <;> omega
  have hhex : ∀ n, (hexDigit n).utf8Size = 1 := by
    intro n
    by_cases hn : n < 16
    · have : ∀ m, m < 16 → (hexDigit m).utf8Size = 1 := by decide
      exact this n hn
    · have : "0123456789abcdef".toList.length ≤ n := by
        have : "0123456789abcdef".toList.length = 16 := by decide
        omega
      rw [hexDigit, List.getD_eq_getElem?_getD, List.getElem?_eq_none this]
      rfl
  have htwo : ∀ d : Char, d.utf8Size = 1 → charBytes ['\\', d] ≤ 6 * units c := by
    intro d hd
    have hb : Char.utf8Size '\\' = 1 := by decide
    simp only [charBytes_cons, charBytes_nil, hb, hd]
    omega
  unfold escapeChar
  split
  · exact htwo _ (by decide)
  split
  · exact htwo _ (by decide)
  split
  · exact htwo _ (by decide)
  split
  · exact htwo _ (by decide)
  split
  · exact htwo _ (by decide)
  split
  · exact htwo _ (by decide)
  split
  · exact htwo _ (by decide)
  split
  · have hb : Char.utf8Size '\\' = 1 := by decide
    have hu : Char.utf8Size 'u' = 1 := by decide
    have h0 : Char.utf8Size '0' = 1 := by decide
    simp only [charBytes_cons, charBytes_nil, hb, hu, h0, hhex]
    omega
  · have := utf8Size_le_units c
    simp only [charBytes_cons, charBytes_nil]
    omega

/-- **Quoting a text for JSON** adds the two quotes and takes at most six bytes a unit. -/
theorem jsonText_le (s : String) : charBytes (quoteChars s) ≤ 6 * utf16Length s + 2 := by
  have hbody : ∀ cs : List Char, charBytes (cs.flatMap escapeChar) ≤ 6 * (cs.map units).sum := by
    intro cs
    induction cs with
    | nil => exact Nat.zero_le _
    | cons c cs ih =>
      have hc := escapeChar_le_units c
      simp only [List.flatMap_cons, charBytes_append, List.map_cons, List.sum_cons]
      omega
  have hq : Char.utf8Size '"' = 1 := by decide
  have := hbody s.toList
  rw [← utf16Length_eq] at this
  simp only [quoteChars, charBytes_cons, charBytes_append, charBytes_nil, hq]
  omega

/-! ## The store's checks -/

/-- `ControlStoreErrorCode`, of the codes the modelled operations throw; `constraint` is
    SQLite's own error for a violated primary key or unique index. -/
inductive StoreCode where
  | tooLarge | forbiddenField | invalidRecord | notFound | invalidTransition | revisionConflict
  | duplicate | eventGap | eventConflict | constraint
deriving DecidableEq, Repr

structure StoreError where
  code : StoreCode
  message : String
deriving DecidableEq

/-- `SIZE_LIMITS`, in bytes of the JSON text. -/
def metadataJson : Nat := 16 * 1024
def specJson : Nat := 256 * 1024
def contextJson : Nat := 128 * 1024
def stepOutputJson : Nat := 64 * 1024
def stepErrorJson : Nat := 16 * 1024
def workflowEventPayload : Nat := 64 * 1024
def taskEventPayload : Nat := 64 * 1024

/-- A JSON value always serializes, so size is the one failure. -/
def encodeJson (value : Json) (maxBytes : Nat) (label : String) : Except StoreError String :=
  if byteLen (stringify value) > maxBytes then
    .error ⟨.tooLarge, label ++ ": exceeds " ++ toString maxBytes ++ " bytes"⟩
  else .ok (stringify value)

def boundString (value : String) (maxBytes : Nat) (label : String) : Except StoreError String :=
  if byteLen value > maxBytes then
    .error ⟨.tooLarge, label ++ ": exceeds " ++ toString maxBytes ++ " bytes"⟩
  else .ok value

/-- The store's own word list; it differs from the validator's. -/
def storeSecretTokens : List String :=
  ["token", "secret", "password", "passwd", "apikey", "bearer", "credential", "privatekey",
   "encryptionkey", "accesskey", "sessionhistory", "processid"]

def isForbiddenKey (key : String) : Bool :=
  normalizeKey key == "pid".toList || holdsWord storeSecretTokens (normalizeKey key)

def forbiddenMessage (label key : String) : String :=
  label ++ ": forbidden field name \"" ++ key ++ "\" (no credentials/tokens/keys/PIDs/sessions)"

mutual

/-- Reject a forbidden field name anywhere in a value. -/
def assertNoForbiddenFields (label : String) : Json → Except StoreError Unit
  | .arr xs => assertNoForbiddenList label xs
  | .obj kvs => assertNoForbiddenProps label kvs
  | _ => .ok ()

def assertNoForbiddenList (label : String) : List Json → Except StoreError Unit
  | [] => .ok ()
  | x :: xs =>
    match assertNoForbiddenFields label x with
    | .error e => .error e
    | .ok _ => assertNoForbiddenList label xs

def assertNoForbiddenProps (label : String) : List (String × Json) → Except StoreError Unit
  | [] => .ok ()
  | (k, v) :: kvs =>
    if isForbiddenKey k then .error ⟨.forbiddenField, forbiddenMessage label k⟩
    else match assertNoForbiddenFields label v with
      | .error e => .error e
      | .ok _ => assertNoForbiddenProps label kvs

end

/-- `CONTEXT_ALLOWED_KEYS`. -/
def contextAllowedKeys : List String :=
  ["objective", "current_round", "latest_planner_decision", "latest_executor_handoff",
   "decisions", "open_questions", "verified_evidence", "prior_task_ids", "history_summaries"]

def assertValidContext (ctx : Json) (label : String) : Except StoreError Unit :=
  if !ctx.isObj then .error ⟨.invalidRecord, label ++ ": context must be an object"⟩
  else match ctx.keys.find? (fun k => !contextAllowedKeys.contains k) with
    | some k => .error ⟨.forbiddenField,
        label ++ ": unknown context field \"" ++ k ++ "\" (fail closed)"⟩
    | none => assertNoForbiddenFields label ctx

/-- A value of a scalar or string-array type carries no field names. -/
def isFlat : Json → Bool
  | .obj _ => false
  | .arr xs => xs.all Json.isStr
  | _ => true

/-- **Flat values carry no field names.** -/
theorem noForbiddenFields_flat {label : String} {v : Json} (h : isFlat v = true) :
    assertNoForbiddenFields label v = .ok () := by
  cases v with
  | null | bool _ | num _ | str _ => rfl
  | obj _ => exact nomatch h
  | arr xs =>
    show assertNoForbiddenList label xs = .ok ()
    have hall : xs.all Json.isStr = true := h
    clear h
    induction xs with
    | nil => rfl
    | cons x rest ih =>
      simp only [List.all_cons, Bool.and_eq_true] at hall
      have hx : assertNoForbiddenFields label x = .ok () := by
        cases x with
        | str _ => rfl
        | null | bool _ | num _ | arr _ | obj _ => exact nomatch hall.1
      rw [assertNoForbiddenList, hx]
      exact ih hall.2

/-- A property list passes exactly when its names do and its values do. -/
theorem assertNoForbiddenProps_ok_iff {label : String} {kvs : List (String × Json)} :
    assertNoForbiddenProps label kvs = .ok () ↔
      ∀ kv ∈ kvs, isForbiddenKey kv.1 = false ∧ assertNoForbiddenFields label kv.2 = .ok () := by
  induction kvs with
  | nil =>
    constructor
    · intro _ kv hkv
      exact nomatch hkv
    · intro _
      rfl
  | cons hd tl ih =>
    obtain ⟨k, v⟩ := hd
    rw [assertNoForbiddenProps]
    constructor
    · intro h kv hkv
      split at h
      · exact nomatch h
      · rename_i hk
        split at h
        · exact nomatch h
        · rename_i u hv
          rcases List.mem_cons.mp hkv with rfl | hkv
          · exact ⟨by simpa using hk, hv⟩
          · exact ih.mp h kv hkv
    · intro h
      obtain ⟨hk, hv⟩ := h (k, v) List.mem_cons_self
      rw [if_neg (by simpa using hk), hv]
      exact ih.mpr (fun kv hkv => h kv (List.mem_cons_of_mem _ hkv))

end VibeStore
