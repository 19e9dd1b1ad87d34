import VibeWorkflow.CompilerStepProofs

/-!
# One compile a key

A keyed compile looks its draft up, compares the fingerprint it finds with its own, and otherwise creates
the draft or takes the one that is there by now.  The comparison is made after the lookup only: a call that
missed the lookup takes whatever draft a concurrent call has created meanwhile.

* `KeyInv`, `KeyPre` — one draft a key, prompts of the draft's own request, and what a call may touch;
* `runCompile_safe`, `compile_safe` — a call that was not diverted drives the draft of its own request;
* `compile_throws`, `compile_compares` — the errors of a compile, and what a lookup does with a draft of
  another request;
* **`compiles_drive_own_drafts`** — in every run in which no creation finds a draft of another request;
* **`late_create_takes_foreign_draft`** — two calls that both missed the lookup.
-/

namespace VibeCompiler

open VibeJson VibeContract VibeValidator VibeStore VibeAdmission AsyncLogic

/-- The text asks for the draft's request: it is the prompt of a request with the draft's fingerprint,
    under the draft's constraints and inventory. -/
def Prompted (cfg : Setup) (d : Draft) (text : String) : Prop :=
  ∃ nlRequest constraints, fingerprint cfg nlRequest constraints = d.requestFingerprint ∧
    text = buildCompilerPrompt nlRequest d.constraints d.inventory

structure KeyInv (cfg : Setup) (w : World) : Prop where
  nodup : (w.drafts.map Draft.draftId).Nodup
  keyed : ∀ d ∈ w.drafts, ∀ key, d.idempotencyKey = some key → d.draftId = keyedDraftId cfg key
  prompted : ∀ t ∈ w.tasks, ∃ d, w.draft? d.draftId = some d ∧ t.request.idempotencyKey = "compile:" ++ d.draftId ∧
    Prompted cfg d t.request.text

/-- The fingerprint of a call that compiles a request of its own. -/
def ApiCall.own (cfg : Setup) : ApiCall → Option String
  | .compile req => some (req.fingerprint cfg)
  | _ => none

/-- The draft is the one that the call is for. -/
def Owned (own : Option String) (d : Draft) : Prop := ∀ fp, own = some fp → d.requestFingerprint = fp

/-- What a call may do: create its own draft, ask for its own prompt, and write to its own draft. -/
def KeyPre (cfg : Setup) (own : Option String) : Op → World → Prop
  | .createDraft input, _ => ∀ key, input.idempotencyKey = some key → input.draftId = keyedDraftId cfg key
  | .createTask req, w => ∃ d, w.draft? d.draftId = some d ∧ req.idempotencyKey = "compile:" ++ d.draftId ∧
      Prompted cfg d req.text ∧ Owned own d
  | .bindDraftCompilerTask id _ _, w => ∃ d, w.draft? id = some d ∧ Owned own d
  | .finalizeDraft id _, w => ∃ d, w.draft? id = some d ∧ Owned own d
  | _, _ => True

/-- A creation that finds a draft finds one of the same request. -/
def Undiverted : Op → World → Prop
  | .createDraft input, w => ∀ d, w.draft? input.draftId = some d → d.requestFingerprint = input.requestFingerprint
  | _, _ => True

def keyGround (cfg : Setup) : Ground sig World where
  inv := KeyInv cfg
  rely := Later
  rely_refl := Later.refl
  rely_trans := Later.trans
  exec op w r w' := (∃ inp, exec op w inp = some (r, w')) ∧ Undiverted op w
  flags _ := ()

/-! ## The invariant -/

section

variable {cfg : Setup} {w w' : World}

theorem Prompted.grows {d d' : Draft} {text : String} (h : Prompted cfg d text) (hg : d.Grows d') :
    Prompted cfg d' text := by
  obtain ⟨nlRequest, constraints, hfp, htext⟩ := h
  refine ⟨nlRequest, constraints, hfp.trans hg.fingerprint.symm, ?_⟩
  rw [hg.constraints, hg.inventory]
  exact htext

/-- A task keeps its draft in a later world. -/
theorem prompted_later {t : AgentTask} (hl : Later w w')
    (h : ∃ d, w.draft? d.draftId = some d ∧ t.request.idempotencyKey = "compile:" ++ d.draftId ∧ Prompted cfg d t.request.text) :
    ∃ d, w'.draft? d.draftId = some d ∧ t.request.idempotencyKey = "compile:" ++ d.draftId ∧ Prompted cfg d t.request.text := by
  obtain ⟨d, hd, hkey, hp⟩ := h
  obtain ⟨d', hd', hg⟩ := hl.drafts _ d hd
  refine ⟨d', ?_, ?_, hp.grows hg⟩
  · rw [hg.draftId]
    exact hd'
  · rw [hg.draftId]
    exact hkey

/-- Drafts that keep their ids and keys, and tasks that keep their requests, keep the invariant. -/
theorem KeyInv.of_same (h : KeyInv cfg w) (hl : Later w w')
    (hids : w'.drafts.map Draft.draftId = w.drafts.map Draft.draftId)
    (hrows : ∀ d' ∈ w'.drafts, ∃ d ∈ w.drafts, d'.draftId = d.draftId ∧ d'.idempotencyKey = d.idempotencyKey)
    (htasks : ∀ t' ∈ w'.tasks, ∃ t ∈ w.tasks, t'.request = t.request) : KeyInv cfg w' where
  nodup := by
    rw [hids]
    exact h.nodup
  keyed d' hd' key hkey := by
    obtain ⟨d, hd, hid, hk⟩ := hrows d' hd'
    rw [hid]
    exact h.keyed d hd key (hk.symm.trans hkey)
  prompted t' ht' := by
    obtain ⟨t, ht, hreq⟩ := htasks t' ht'
    have hp := prompted_later hl (h.prompted t ht)
    rw [hreq]
    exact hp

theorem KeyInv.unchanged (h : KeyInv cfg w) (hl : Later w w') (hd : w'.drafts = w.drafts) (ht : w'.tasks = w.tasks) :
    KeyInv cfg w' := by
  refine h.of_same hl (by rw [hd]) ?_ ?_
  · rw [hd]
    exact fun d hd => ⟨d, hd, rfl, rfl⟩
  · rw [ht]
    exact fun t ht => ⟨t, ht, rfl⟩

theorem KeyInv.setDraft (h : KeyInv cfg w) {id : String} {f : Draft → Draft} (hl : Later w (w.setDraft id f))
    (hf : ∀ d, (f d).draftId = d.draftId ∧ (f d).idempotencyKey = d.idempotencyKey) : KeyInv cfg (w.setDraft id f) := by
  have hrow : ∀ d, (if d.draftId = id then f d else d).draftId = d.draftId ∧
      (if d.draftId = id then f d else d).idempotencyKey = d.idempotencyKey := by
    intro d
    split
    · exact hf d
    · exact ⟨rfl, rfl⟩
  refine h.of_same hl ?_ ?_ fun t ht => ⟨t, ht, rfl⟩
  · show (w.drafts.map _).map Draft.draftId = _
    rw [List.map_map]
    exact List.map_congr_left fun d _ => (hrow d).1
  · intro d' hd'
    obtain ⟨d, hd, rfl⟩ := List.mem_map.mp hd'
    exact ⟨d, hd, (hrow d).1, (hrow d).2⟩

theorem KeyInv.setTask (h : KeyInv cfg w) {id : String} {f : AgentTask → AgentTask}
    (hf : ∀ t : AgentTask, t.Grows (f t)) :
    KeyInv cfg (w.setTask id f) := by
  refine h.of_same (setTask_later hf) rfl (fun d hd => ⟨d, hd, rfl, rfl⟩) ?_
  intro t' ht'
  obtain ⟨t, ht, rfl⟩ := List.mem_map.mp ht'
  refine ⟨t, ht, ?_⟩
  split
  · exact (hf t).request
  · rfl

/-- A new draft under a free id. -/
theorem KeyInv.addDraft (h : KeyInv cfg w) {input : DraftInput} (hfree : w.draft? input.draftId = none)
    (hkey : ∀ key, input.idempotencyKey = some key → input.draftId = keyedDraftId cfg key) :
    KeyInv cfg { w with drafts := w.drafts ++ [input.row] } where
  nodup := by
    rw [List.map_append, List.nodup_append]
    refine ⟨h.nodup, List.nodup_singleton _, ?_⟩
    intro a ha b hb hab
    obtain ⟨d, hd, rfl⟩ := List.mem_map.mp ha
    rw [List.map_singleton, List.mem_singleton] at hb
    exact List.find?_eq_none.mp hfree d hd (decide_eq_true (hab.trans hb))
  keyed d hd key hk := by
    rcases List.mem_append.mp hd with hd | hd
    · exact h.keyed d hd key hk
    · rw [List.mem_singleton.mp hd] at hk ⊢
      exact hkey key hk
  prompted t ht := prompted_later (addDraft_later _) (h.prompted t ht)

end

/-- **Operations keep the invariant.** -/
theorem KeyInv.change {cfg : Setup} {own : Option String} {op : Op} {w w' : World} (h : KeyInv cfg w)
    (hpre : KeyPre cfg own op w) (hc : Change w op w') : KeyInv cfg w' := by
  have hl := hc.later
  cases hc with
  | same => exact h
  | draft free => exact h.addDraft free hpre
  | task noKey free =>
    obtain ⟨d, hd, hkey, hp, -⟩ := hpre
    refine { h with prompted := ?_ }
    intro t ht
    rcases List.mem_append.mp ht with ht | ht
    · exact h.prompted t ht
    · rw [List.mem_singleton.mp ht]
      exact ⟨d, hd, hkey, hp⟩
  | bind found unbound => exact h.setDraft hl fun _ => ⟨rfl, rfl⟩
  | finalize found pending => exact h.setDraft hl fun _ => ⟨rfl, rfl⟩
  | workflow free => exact h.unchanged hl rfl rfl
  | approve found open' => exact h.setDraft hl fun _ => ⟨rfl, rfl⟩
  | append free turn => exact h.unchanged hl rfl rfl
  | complete free revision => exact h.unchanged hl rfl rfl

theorem KeyInv.drift {cfg : Setup} {m : Move} {w w' : World} (h : KeyInv cfg w) (hd : Drift w m w') :
    KeyInv cfg w' := by
  have hl := hd.later
  cases hd with
  | tasks grows => exact h.setTask grows
  | workflow checked free => exact h.unchanged hl rfl rfl
  | advance => exact h.unchanged hl rfl rfl
  | archive => exact h.unchanged hl rfl rfl

/-! ## A compile -/

/-- The draft is stored, perhaps with more filled in. -/
def Stored (d : Draft) (w : World) : Prop := ∃ d', w.draft? d.draftId = some d' ∧ d.Grows d'

theorem Stored.later {d : Draft} {w w' : World} (h : Stored d w) (hl : Later w w') : Stored d w' := by
  obtain ⟨d₁, hd₁, hg₁⟩ := h
  obtain ⟨d₂, hd₂, hg₂⟩ := hl.drafts _ d₁ hd₁
  exact ⟨d₂, hd₂, hg₁.trans hg₂⟩

theorem stored_of_draft? {id : String} {d : Draft} {w : World} (h : w.draft? id = some d) : Stored d w := by
  refine ⟨d, ?_, .refl d⟩
  rw [draft?_id h]
  exact h

section

variable {cfg : Setup} {own : Option String} {req : CompileRequest}

/-- What a call knows of the draft it returns. -/
def Returned (cfg : Setup) (req : CompileRequest) (d : Draft) (w : World) : Prop :=
  d.requestFingerprint = req.fingerprint cfg ∧ Stored d w

theorem Returned.later {d : Draft} {w w' : World} (h : Returned cfg req d w) (hl : Later w w') :
    Returned cfg req d w' :=
  ⟨h.1, h.2.later hl⟩

/-- A finalize answers a row of the draft. -/
theorem finalizeDraft_stored {w w' : World} {id : String} {patch : Patch} {d' : Draft}
    (h : finalizeDraft w id patch = .ok (w', d')) :
    ∃ d, w.draft? id = some d ∧ d.Grows d' ∧ w'.draft? id = some d' := by
  rcases finalizeDraft_cases h with ⟨rfl, hd, -⟩ | ⟨d, hd, hnone, rfl, rfl⟩
  · exact ⟨d', hd, .refl d', hd⟩
  · refine ⟨d, hd, ⟨rfl, rfl, rfl, rfl, rfl, fun p hp => ?_, fun _ h => h⟩, ?_⟩
    · rw [hnone] at hp
      exact nomatch hp
    · exact draft?_set_self (f := fun d => { d with content := some patch }) (fun _ => rfl) hd

/-- Finalizing the draft of one's own request. -/
theorem finalize_safe (d : Draft) (patch : Patch) (hown : ∀ fp, own = some fp → req.fingerprint cfg = fp)
    (hfp : d.requestFingerprint = req.fingerprint cfg) :
    Safe ((keyGround cfg).contract (KeyPre cfg own)) (Stored d) (call (.finalizeDraft d.draftId patch))
      (Returned cfg req) (fun _ _ => True) := by
  refine Ground.await (G := keyGround cfg) ?_ ?_ ?_
  · rintro w - ⟨d', hd', hg⟩
    exact ⟨d', hd', fun fp h => (hg.fingerprint.trans hfp).trans (hown fp h)⟩
  · rintro w r w' - ⟨d', hd', hg⟩ ⟨⟨inp, hexec⟩, -⟩
    rcases storeCall_cases hexec with ⟨a, hok, rfl⟩ | ⟨e, -, rfl, -⟩ | ⟨_, _, rfl, -⟩
    · obtain ⟨d₁, hd₁, hg₁, hd₂⟩ := finalizeDraft_stored hok
      obtain rfl := Option.some.inj (hd'.symm.trans hd₁)
      exact ⟨(hg₁.fingerprint.trans hg.fingerprint).trans hfp, stored_of_draft? hd₂⟩
    · trivial
    · trivial
  · intro r w w' h hl _
    cases r with
    | ok a => exact Returned.later h hl
    | error e => trivial

/-- The waits of the client touch nothing. -/
theorem waits_every (taskId : String) (left i : Nat) (cursor : Int) :
    Js.Every (S := sig) (fun op => ∃ taskId cursor i, op = .waitForTerminal taskId cursor i)
      (waits taskId left i cursor) := by
  induction left generalizing i cursor with
  | zero => exact every_pure _
  | succ left ih =>
    refine every_bind (attempt_every (every_await ⟨taskId, cursor, i, rfl⟩)) fun read => ?_
    cases read with
    | ok r => exact every_ite (every_pure _) (ih _ _)
    | error e =>
      cases e with
      | task isTransient m =>
        cases isTransient with
        | true => exact ih _ _
        | false => exact every_throw _
      | compiler c m => exact every_throw _
      | builder c m => exact every_throw _
      | store c m => exact every_throw _

theorem runCompile_safe (d : Draft) (hown : ∀ fp, own = some fp → req.fingerprint cfg = fp)
    (hfp : d.requestFingerprint = req.fingerprint cfg) :
    Safe ((keyGround cfg).contract (KeyPre cfg own)) (Stored d) (runCompile cfg d req) (Returned cfg req)
      (fun _ _ => True) := by
  -- others and the call itself leave the draft stored
  have hrely : ∀ w w', Stored d w → (keyGround cfg).rely w w' → (keyGround cfg).inv w' → Stored d w' :=
    fun w w' h hl _ => h.later hl
  have hafter : ∀ {op : Op} {w w' : World} {r : Except CallError (Ans op)}, Stored d w →
      (keyGround cfg).exec op w r w' → Stored d w' := by
    rintro op w w' r h ⟨⟨inp, hexec⟩, -⟩
    exact h.later (exec_change hexec).later
  have hstep : ∀ {op : Op}, (∀ w, Stored d w → KeyPre cfg own op w) →
      Safe ((keyGround cfg).contract (KeyPre cfg own)) (Stored d) (call op) (fun _ => Stored d) (fun _ _ => True) := by
    intro op hpre
    refine Ground.await (G := keyGround cfg) (fun w _ h => hpre w h) (fun w r w' _ h hex => ?_) ?_
    · cases r with
      | ok a => exact hafter h hex
      | error e => trivial
    · intro r w w' h hl _
      cases r with
      | ok a => exact Stored.later h hl
      | error e => trivial
  unfold runCompile
  refine safe_ite (fun _ => finalize_safe d _ hown hfp) fun _ => ?_
  have hmodel : Safe ((keyGround cfg).contract (KeyPre cfg own)) (Stored d) (modelCompile cfg (taskRequest d req))
      (fun _ => Stored d) (fun _ _ => True) := by
    refine safe_bind (hstep ?_) fun taskId => ?_
    · -- the prompt is that of the stored draft
      rintro w ⟨d', hd', hg⟩
      refine ⟨d', ?_, ?_, ⟨req.nlRequest, req.given, ?_, ?_⟩, fun fp h => ?_⟩
      · rw [hg.draftId]
        exact hd'
      · rw [hg.draftId]
        rfl
      · exact (hg.fingerprint.trans hfp).symm
      · rw [hg.constraints, hg.inventory]
        rfl
      · exact (hg.fingerprint.trans hfp).trans (hown fp h)
    · refine safe_bind ?_ fun outcome => safe_pure fun w _ h => h
      refine Safe.conseq ((waits_every taskId cfg.maxWaits 0 (-1)).keeps ?_ hrely ?_) (fun _ _ h => h)
        (fun _ _ _ h => h) (fun _ _ _ _ => trivial)
      · rintro op w ⟨_, _, _, rfl⟩ -
        trivial
      · exact fun op w r w' _ _ h hex => hafter h hex
  refine safe_bind hmodel fun result => ?_
  obtain ⟨taskId, outcome⟩ := result
  refine safe_bind (hstep ?_) fun _ => finalize_safe d _ hown hfp
  rintro w ⟨d', hd', hg⟩
  exact ⟨d', hd', fun fp h => (hg.fingerprint.trans hfp).trans (hown fp h)⟩

theorem returnOrRun_safe (d : Draft) (hown : ∀ fp, own = some fp → req.fingerprint cfg = fp)
    (hfp : d.requestFingerprint = req.fingerprint cfg) :
    Safe ((keyGround cfg).contract (KeyPre cfg own)) (Stored d) (returnOrRun cfg d req) (Returned cfg req)
      (fun _ _ => True) :=
  safe_ite (fun _ => safe_pure fun _ _ h => ⟨hfp, h⟩) fun _ => runCompile_safe d hown hfp

/-- A creation answers a draft of the same request. -/
theorem createDraft_answer {w w' : World} {input : DraftInput} {r : Except CallError Draft}
    (h : (keyGround cfg).exec (.createDraft input) w r w') :
    @answered sig World (.createDraft input)
      (fun d w => d.requestFingerprint = input.requestFingerprint ∧ Stored d w) (fun _ _ => True) r w' := by
  obtain ⟨⟨inp, hexec⟩, hsame⟩ := h
  have hrun : storeCall w inp (.ok (createDraft w input)) = some (r, w') := hexec
  rcases storeCall_cases hrun with ⟨d, hok, rfl⟩ | ⟨e, he, -, -⟩ | ⟨_, _, rfl, -⟩
  · have hpair := Except.ok.inj hok
    unfold createDraft at hpair
    split at hpair
    · rename_i existing hfound
      obtain ⟨rfl, rfl⟩ := Prod.mk.inj hpair
      exact ⟨hsame existing hfound, stored_of_draft? hfound⟩
    · rename_i hfree
      obtain ⟨rfl, rfl⟩ := Prod.mk.inj hpair
      have hfound : World.draft? { w with drafts := w.drafts ++ [input.row] } input.draftId = some input.row := by
        rw [draft?_concat, hfree]
        exact if_pos rfl
      exact ⟨rfl, stored_of_draft? hfound⟩
  · exact nomatch he
  · trivial

theorem createAndRun_safe (hown : ∀ fp, own = some fp → req.fingerprint cfg = fp) :
    Safe ((keyGround cfg).contract (KeyPre cfg own)) (fun _ => True) (createAndRun cfg req) (Returned cfg req)
      (fun _ _ => True) := by
  refine safe_bind (safe_any fun _ _ => trivial) fun inventory => ?_
  refine safe_bind (Q := fun d w => d.requestFingerprint = req.fingerprint cfg ∧ Stored d w) ?_ fun d => ?_
  · refine Ground.await (G := keyGround cfg) ?_ (fun w r w' _ _ hex => createDraft_answer hex) ?_
    · intro w _ _ key hkey
      show req.draftId cfg = _
      unfold CompileRequest.draftId
      rw [show req.idempotencyKey = some key from hkey]
    · intro r w w' h hl _
      cases r with
      | ok d => exact ⟨h.1, h.2.later hl⟩
      | error e => trivial
  · exact safe_lift (fun _ _ h => h.1) fun hfp => (returnOrRun_safe d hown hfp).pre fun _ _ h => h.2

/-- **A compile** returns the draft of its own request. -/
theorem compile_safe (hown : ∀ fp, own = some fp → req.fingerprint cfg = fp) :
    Safe ((keyGround cfg).contract (KeyPre cfg own)) (fun _ => True) (compile cfg req) (Returned cfg req)
      (fun _ _ => True) := by
  unfold compile
  split
  · exact safe_throw fun _ _ _ => trivial
  · split
    · exact createAndRun_safe hown
    · refine safe_bind (Q := fun found w => ∀ d, found = some d → Stored d w) ?_ fun found => ?_
      · refine Ground.await (G := keyGround cfg) (fun _ _ _ => trivial) ?_ ?_
        · rintro w r w' - - ⟨⟨inp, hexec⟩, -⟩
          have hread : storeCall w inp (.ok (w, w.draft? (req.draftId cfg))) = some (r, w') := hexec
          rcases storeRead_cases hread with ⟨rfl, rfl | ⟨_, _, rfl⟩⟩
          · exact fun d hd => stored_of_draft? hd
          · trivial
        · intro r w w' h hl _
          cases r with
          | ok found => exact fun d hd => (h d hd).later hl
          | error e => trivial
      · cases found with
        | none => exact (createAndRun_safe hown).pre fun _ _ _ => trivial
        | some d =>
          refine safe_ite (fun _ => safe_throw fun _ _ _ => trivial) fun hfp => ?_
          exact (returnOrRun_safe d hown (not_not.mp hfp)).pre fun _ _ h => h d rfl

end

/-! ## What a compile fails with -/

/-- The errors of the store and of the task service. -/
def CallError.Operational : CallError → Prop
  | .store _ _ | .task _ _ => True
  | .compiler _ _ | .builder _ _ => False

/-- What a compile may fail with: its request is refused, its key belongs to another request, or an
    operation failed. -/
def Failure (req : CompileRequest) (e : CallError) : Prop :=
  checkRequest req = some e ∨ e = conflict ∨ e.Operational

theorem deliver_error {w w' : World} {req : TaskRequest} {id : String} {e : CallError}
    (h : deliver w req id = some (.error e, w')) : e.Operational := by
  rcases deliver_cases h with ⟨-, ⟨t, -, -, hr⟩ | ⟨m, hr⟩⟩ | ⟨-, -, hr, -⟩
  · cases hr
  · cases hr
    trivial
  · cases hr

/-- **An operation fails with an error of its own.** -/
theorem exec_error {op : Op} {w w' : World} {inp : Input} {e : CallError}
    (h : exec op w inp = some (.error e, w')) : e.Operational := by
  have hstore : ∀ {α : Type} {run : Except CallError (World × α)}, (∀ x, run = .error x → x.Operational) →
      storeCall w inp run = some (.error e, w') → e.Operational := by
    intro α run hrun hcall
    rcases storeCall_cases hcall with ⟨a, -, hr⟩ | ⟨x, hx, hr, -⟩ | ⟨code, message, hr, -⟩
    · cases hr
    · cases hr
      exact hrun e hx
    · cases hr
      trivial
  -- what only reads, or cannot be refused
  have hplain : ∀ {α : Type} (p : World × α), storeCall w inp (.ok p) = some (.error e, w') → e.Operational :=
    fun p => hstore fun x hx => by cases hx
  cases op with
  | getDraft id => exact hplain (w, w.draft? id) h
  | snapshot => cases inp <;> first | (cases h; trivial) | cases h
  | createDraft input => exact hplain (createDraft w input) h
  | createTask req =>
    cases inp with
    | created id => exact deliver_error h
    | taskFail isTransient message arrived =>
      cases arrived with
      | none =>
        cases h
        trivial
      | some id =>
        obtain ⟨r, -, hr⟩ := Option.map_eq_some_iff.mp h
        cases hr
        trivial
    | _ => cases h
  | waitForTerminal taskId cursor i =>
    cases inp with
    | waited next =>
      obtain ⟨t, -, hr⟩ := Option.map_eq_some_iff.mp h
      cases hr
    | taskFail isTransient message arrived =>
      cases h
      trivial
    | _ => cases h
  | bindDraftCompilerTask id taskId capability =>
    refine hstore (fun x hx => ?_) h
    unfold bindDraftCompilerTask at hx
    split at hx
    · cases hx
      trivial
    · split at hx
      · cases hx
        trivial
      · split at hx <;> cases hx
  | finalizeDraft id patch =>
    refine hstore (fun x hx => ?_) h
    unfold finalizeDraft at hx
    split at hx
    · cases hx
      trivial
    · split at hx <;> cases hx
  | getWorkflow id => exact hplain (w, w.workflow? id) h
  | createWorkflow id spec inputValues =>
    refine hstore (fun x hx => ?_) h
    unfold createWorkflow at hx
    split at hx
    · cases hx
      trivial
    · split at hx <;> cases hx
      trivial
  | approveDraftWithWorkflow id workflowId =>
    refine hstore (fun x hx => ?_) h
    unfold approveDraftWithWorkflow at hx
    split at hx
    · cases hx
      trivial
    · split at hx <;> cases hx
  | getBuilderSession => exact hplain (w, w.session) h
  | findBuilderTurn turnKey => exact hplain (w, (w.turnRow turnKey .user, w.turnRow turnKey .assistant)) h
  | appendBuilderUserMessage content turnKey =>
    refine hstore (fun x hx => ?_) h
    unfold appendBuilderUserMessage at hx
    split at hx
    · cases hx
      trivial
    · split at hx
      · cases hx
      · split at hx <;> cases hx
        trivial
  | listBuilderMessages => exact hplain (w, w.messages) h
  | completeBuilderTurn expectedRevision input =>
    refine hstore (fun x hx => ?_) h
    unfold completeBuilderTurn at hx
    split at hx
    · cases hx
    · split at hx
      · cases hx
        trivial
      · split at hx <;> cases hx
        trivial

section

variable {cfg : Setup} {req : CompileRequest}

/-- A failure that was caught is one that the program would have ended with. -/
theorem attempt_ends {α : Type} {e : CallError → Prop} {m : Call α} (hm : Js.Throws (S := sig) e m) :
    Js.Ends (S := sig) e (fun r => ∃ r', r = .ok r' ∧ ∀ x, r' = .error x → e x) (attempt m) := by
  refine ends_catch (L := fun r => (∃ a, r = .ok (.ok a)) ∨ ∃ x, r = .error x ∧ e x) ?_ ?_ ?_
  · exact ends_bind hm (fun a _ _ => .inl ⟨a, rfl⟩) fun x hx => .inr ⟨x, rfl, hx x rfl⟩
  · rintro a (⟨a', ha⟩ | ⟨x, hx, -⟩)
    · exact ⟨a, rfl, fun x hx => by rw [Except.ok.inj ha] at hx; cases hx⟩
    · cases hx
  · rintro x (⟨a, ha⟩ | ⟨y, hy, hex⟩)
    · cases ha
    · cases hy
      exact fun _ => ⟨_, rfl, fun z hz => by cases hz; exact hex⟩

/-- The waits of the client fail with what an operation failed with. -/
theorem waits_throws (taskId : String) (left i : Nat) (cursor : Int) :
    Js.Throws (S := sig) (Failure req) (waits taskId left i cursor) := by
  induction left generalizing i cursor with
  | zero => exact throws_pure _
  | succ left ih =>
    refine ends_bind (attempt_ends (throws_await _)) (fun read hread => ?_) fun x hx => ?_
    · obtain ⟨r, hr, hfail⟩ := hread
      cases hr
      cases read with
      | ok r => exact throws_ite (throws_pure _) (ih _ _)
      | error x =>
        have hx := hfail x rfl
        cases x with
        | task isTransient m =>
          cases isTransient with
          | true => exact ih _ _
          | false => exact throws_throw hx
        | compiler c m => exact throws_throw hx
        | builder c m => exact throws_throw hx
        | store c m => exact throws_throw hx
    · obtain ⟨r, hr, -⟩ := hx
      cases hr

theorem returnOrRun_throws (d : Draft) : Js.Throws (S := sig) (Failure req) (returnOrRun cfg d req) := by
  refine throws_ite (throws_pure _) (throws_ite (throws_await _) ?_)
  refine throws_bind (throws_bind (throws_await _) fun taskId => ?_) fun result => ?_
  · exact throws_bind (waits_throws taskId _ 0 (-1)) fun outcome => throws_pure _
  · exact throws_bind (throws_await _) fun _ => throws_await _

theorem createAndRun_throws : Js.Throws (S := sig) (Failure req) (createAndRun cfg req) :=
  throws_bind (throws_await _) fun _ => throws_bind (throws_await _) returnOrRun_throws

/-- **A compile fails** as its request, its key or an operation does. -/
theorem compile_throws : Js.Throws (S := sig) (Failure req) (compile cfg req) := by
  unfold compile
  split
  · rename_i e he
    exact throws_throw (.inl he)
  · split
    · exact createAndRun_throws
    · refine throws_bind (throws_await _) fun found => ?_
      cases found with
      | none => exact createAndRun_throws
      | some d => exact throws_ite (throws_throw (.inr (.inl rfl))) (returnOrRun_throws d)

/-- The operations of a compile beside its lookup and its finalize. -/
def isDriveOp : Op → Bool
  | .snapshot | .createDraft _ | .createTask _ | .waitForTerminal _ _ _ | .bindDraftCompilerTask _ _ _ => true
  | _ => false

section

variable {p : Op → Prop} (hop : ∀ op, isDriveOp op = true → p op) (hrefuse : ∀ id, p (.finalizeDraft id refusalPatch))
  (hfinal : ∀ id inventory outcome, p (.finalizeDraft id (outcomePatch cfg inventory outcome)))

include hop hrefuse hfinal

theorem returnOrRun_every (d : Draft) : Js.Every (S := sig) p (returnOrRun cfg d req) := by
  refine every_ite (every_pure _) (every_ite (every_await (hrefuse _)) (every_bind ?_ ?_))
  · refine every_bind (every_await (hop _ rfl)) fun taskId => every_bind ?_ fun outcome => every_pure _
    refine (waits_every taskId _ 0 (-1)).mono ?_
    rintro op ⟨_, _, _, rfl⟩
    exact hop _ rfl
  · rintro ⟨taskId, outcome⟩
    exact every_bind (every_await (hop _ rfl)) fun _ => every_await (hfinal _ _ _)

theorem createAndRun_every : Js.Every (S := sig) p (createAndRun cfg req) :=
  every_bind (every_await (hop _ rfl)) fun _ => every_bind (every_await (hop _ rfl))
    (returnOrRun_every hop hrefuse hfinal)

/-- The operations of a compile, by the drafts it finalizes with. -/
theorem compile_every (hget : ∀ id, p (.getDraft id)) : Js.Every (S := sig) p (compile cfg req) := by
  unfold compile
  split
  · exact every_throw _
  · split
    · exact createAndRun_every hop hrefuse hfinal
    · refine every_bind (every_await (hget _)) fun found => ?_
      cases found with
      | none => exact createAndRun_every hop hrefuse hfinal
      | some d => exact every_ite (every_throw _) (returnOrRun_every hop hrefuse hfinal d)

end

/-- Whatever a program still looks up, it ends with the conflict when it is given a draft of another
    request. -/
def Compares (cfg : Setup) (req : CompileRequest) : Prog sig (Except CallError Result × Unit) → Prop
  | .ret _ => True
  | .call (.getDraft _) k => (∀ d : Draft, d.requestFingerprint ≠ req.fingerprint cfg →
      k (.ok (some d)) () = .ret (.error conflict, ())) ∧ ∀ r, Compares cfg req (k r ())
  | .call _ k => ∀ r, Compares cfg req (k r ())
  | .loop _ _ _ => False

/-- Nothing to look up. -/
theorem compares_of_every {m : Prog sig (Except CallError Result × Unit)}
    (h : m.Every fun op => ∀ id, op ≠ Op.getDraft id) : Compares cfg req m := by
  induction m with
  | ret r => trivial
  | call op k ih =>
    cases op with
    | getDraft id => exact absurd rfl (h.1 id)
    | _ => exact fun r => ih r () (h.2 r ())
  | loop l fl k => exact h.elim

/-- What is left of a compile after a call of it came in. -/
theorem compile_compares (fl : Unit) : Compares cfg req (ApiCall.program cfg (.compile req) fl) := by
  have hdrive : ∀ op, isDriveOp op = true → ∀ id, op ≠ .getDraft id := by
    rintro op hop id rfl
    exact Bool.false_ne_true hop
  have hreturn : ∀ (m : Call Draft), Js.Every (S := sig) (fun op => ∀ id, op ≠ .getDraft id) m →
      Compares cfg req ((m >>= fun d => (pure (.draft d) : Call Result)) ()) :=
    fun m hm => compares_of_every (every_bind hm (fun _ => every_pure _) ())
  have hcreate := hreturn _ (@createAndRun_every cfg req _ hdrive (fun _ _ h => by cases h)
    fun _ _ _ _ h => by cases h)
  show Compares cfg req ((compile cfg req >>= fun d => (pure (.draft d) : Call Result)) ())
  unfold compile
  split
  · exact trivial
  · split
    · exact hcreate
    · refine ⟨fun d hd => ?_, fun r => ?_⟩
      · show ((if d.requestFingerprint ≠ req.fingerprint cfg then fail conflict else returnOrRun cfg d req) >>=
          fun d => (pure (.draft d) : Call Result)) () = _
        rw [if_pos hd]
        rfl
      · cases r with
        | error e => exact trivial
        | ok found =>
          cases found with
          | none => exact hcreate
          | some d => exact hreturn _ (every_ite (every_throw _)
              (returnOrRun_every hdrive (fun _ _ h => by cases h) (fun _ _ _ _ h => by cases h) d))

end

/-! ## Runs -/

/-- No creation finds a draft of another request. -/
def NotDiverted (cfg : Setup) (w : World) : (compiler cfg).Event → Prop
  | .exec _ op _ => Undiverted op w
  | _ => True

/-- What a call leaves: a compile that returned has the stored draft of its own request. -/
def KeyPost (cfg : Setup) : ApiCall → Result → World → Prop
  | .compile req, r, w => ∃ d, r = .draft d ∧ Returned cfg req d w
  | _, _, _ => True

theorem key_fits (cfg : Setup) :
    Pool.Fits (compiler cfg) (NotDiverted cfg) (keyGround cfg) (fun c => KeyPre cfg (c.own cfg)) (KeyPost cfg)
      (fun _ _ _ => True) where
  flags _ := rfl
  exec c op w inp r w' hinv hok hpre hexec :=
    ⟨⟨⟨inp, hexec⟩, hok⟩, hinv.change hpre (exec_change hexec), (exec_change hexec).later⟩
  move w m w' hinv _ hmove := ⟨hinv.drift (move_drift hmove), (move_drift hmove).later⟩
  call w c _ _ := by
    refine program_safe cfg (fun c => KeyPre cfg (c.own cfg)) (KeyPost cfg) ?_ ?_ ?_ c
    · intro req
      exact (compile_safe fun _ h => Option.some.inj h).conseq (fun _ _ h => h) (fun d _ _ h => ⟨d, rfl, h⟩)
        (fun _ _ _ h => h)
    · intro id hash
      exact (approve_every cfg id hash).safe fun op w hop _ => by cases op <;> trivial
    · intro input
      refine sendMessage_safe cfg (fun op w hop _ => by cases op <;> trivial) ?_ input
      intro session agent turnKey content prior current
      have hnone : ∀ fp, (none : Option String) = some fp →
          (turnRequest cfg session agent turnKey content prior current).fingerprint cfg = fp := fun fp h => nomatch h
      exact (compile_safe hnone).conseq (fun _ _ h => h) (fun _ _ _ _ => trivial) (fun _ _ _ _ => trivial)

/-- No drafts, no tasks, no workflows, and a new session. -/
def World.empty (agent nodeId : Option String) : World :=
  ⟨[], [], [], ⟨true, none, none, 1, agent, nodeId, none⟩, []⟩

theorem keyInv_empty (cfg : Setup) (agent nodeId : Option String) : KeyInv cfg (.empty agent nodeId) where
  nodup := List.nodup_nil
  keyed _ hd := nomatch hd
  prompted _ ht := nomatch ht

/-- The drafts an operation of a compile is about: the one it writes to, or the one its task is for. -/
def Op.drives : Op → String → Prop
  | .createTask req, id => req.idempotencyKey = "compile:" ++ id
  | .bindDraftCompilerTask id' _ _, id => id' = id
  | .finalizeDraft id' _, id => id' = id
  | _, _ => False

theorem compile_key_inj {a b : String} (h : "compile:" ++ a = "compile:" ++ b) : a = b := by
  have hl := congrArg String.toList h
  rw [String.toList_append, String.toList_append] at hl
  exact String.toList_inj.mp (List.append_cancel_left hl)

/-- What is left of the compiles that are served. -/
def CompileLeft (I : CompileRequest → Prog sig (Except CallError Result × Unit) → Prop) :
    ApiCall → Prog sig (Except CallError Result × Unit) → Prop
  | .compile req, m => I req m
  | _, _ => True

theorem reach_compares {cfg : Setup} {ok : World → (compiler cfg).Event → Prop} {w₀ : World}
    {s : (compiler cfg).State} (h : (compiler cfg).Reach ok w₀ s) :
    ∀ t ∈ s.serving, CompileLeft (Compares cfg) t.call t.prog := by
  refine Pool.reach_left (I := CompileLeft (Compares cfg)) ?_ ?_ h
  · rintro (req | ⟨id, hash⟩ | input) fl
    · exact compile_compares fl
    · trivial
    · trivial
  · rintro (req | ⟨id, hash⟩ | input) op k w inp r w' fl hI -
    · cases op with
      | getDraft id => exact hI.2 r
      | _ => exact hI r
    · trivial
    · trivial

theorem reach_throws {cfg : Setup} {ok : World → (compiler cfg).Event → Prop} {w₀ : World}
    {s : (compiler cfg).State} (h : (compiler cfg).Reach ok w₀ s) :
    ∀ t ∈ s.serving, CompileLeft (fun req m => m.Ends (Failure req) fun r => ∀ e, r = .error e → Failure req e)
      t.call t.prog := by
  refine Pool.reach_left ?_ ?_ h
  · rintro (req | ⟨id, hash⟩ | input) fl
    · exact throws_bind compile_throws (fun _ => throws_pure _) fl
    · trivial
    · trivial
  · rintro (req | ⟨id, hash⟩ | input) op k w inp r w' fl hI hexec
    · refine hI r fl fun e he => ?_
      rw [he] at hexec
      exact .inr (.inr (exec_error hexec))
    · trivial
    · trivial

/-- An operation of the process. -/
theorem exec_step {cfg : Setup} {s : (compiler cfg).State} {i : Nat} {c : ApiCall} {op : Op}
    {k : Except CallError (Ans op) → Unit → Prog sig (Except CallError Result × Unit)}
    {r : Except CallError (Ans op)} {w' : World}
    (inp : Input) (hget : s.serving[i]? = some ⟨c, .call op k⟩)
    (hexec : exec op s.w inp = some (r, w')) :
    (compiler cfg).step s (.exec i inp) = some (.exec c op inp, ⟨w', s.serving.set i ⟨c, k r ()⟩⟩) := by
  simp only [Pool.step, hget]
  rw [show (compiler cfg).exec op s.w inp = some (r, w') from hexec]
  rfl

/-- **One compile a key.**  In every run in which no creation finds a draft of another request, with calls,
    crashes and everything else at any moments: a compile that returned has the stored draft of its own
    request, a compile only drives such a draft, a key has at most one draft, and the task of a draft was
    created with the prompt of that draft's request.  A lookup that finds a draft of another request ends the
    call with `idempotency_conflict`; a call fails in no other way than that, with a refused request, or with
    the error of an operation. -/
theorem compiles_drive_own_drafts {cfg : Setup} {agent nodeId : Option String} {s : (compiler cfg).State}
    (h : (compiler cfg).Reach (NotDiverted cfg) (.empty agent nodeId) s) :
    (∀ req r, ⟨.compile req, .ret (.ok r, ())⟩ ∈ s.serving → ∃ d d', r = .draft d ∧
      d.requestFingerprint = req.fingerprint cfg ∧ s.w.draft? d.draftId = some d' ∧
      d'.requestFingerprint = req.fingerprint cfg) ∧
    (∀ req op k id, ⟨.compile req, .call op k⟩ ∈ s.serving → Op.drives op id →
      ∃ d, s.w.draft? id = some d ∧ d.requestFingerprint = req.fingerprint cfg) ∧
    (∀ d ∈ s.w.drafts, ∀ d' ∈ s.w.drafts, ∀ key, d.idempotencyKey = some key → d'.idempotencyKey = some key → d = d') ∧
    (∀ t ∈ s.w.tasks, ∀ d ∈ s.w.drafts, t.request.idempotencyKey = "compile:" ++ d.draftId →
      Prompted cfg d t.request.text) ∧
    (∀ req id k i d e s', s.serving[i]? = some ⟨.compile req, .call (.getDraft id) k⟩ → s.w.draft? id = some d →
      d.requestFingerprint ≠ req.fingerprint cfg → (compiler cfg).step s (.exec i .run) = some (e, s') →
      s'.serving[i]? = some ⟨.compile req, .ret (.error conflict, ())⟩) ∧
    (∀ req e, ⟨.compile req, .ret (.error e, ())⟩ ∈ s.serving → Failure req e) := by
  have hinv := (Pool.reach_safe (key_fits cfg) (keyInv_empty cfg agent nodeId) h).1
  -- rows with one id are one row
  have hunique : ∀ d ∈ s.w.drafts, ∀ d' ∈ s.w.drafts, d.draftId = d'.draftId → d = d' :=
    fun d hd d' hd' hid => List.inj_on_of_nodup_map hinv.nodup hd hd' hid
  refine ⟨?_, ?_, ?_, ?_, ?_, ?_⟩
  · intro req r hret
    obtain ⟨d, rfl, hfp, d', hd', hg⟩ := Pool.reach_result (key_fits cfg) (keyInv_empty cfg agent nodeId) h hret
    exact ⟨d, d', rfl, hfp, hd', hg.fingerprint.trans hfp⟩
  · intro req op k id hcall hdrives
    have hpre := Pool.reach_pre (key_fits cfg) (keyInv_empty cfg agent nodeId) h hcall
    cases op with
    | createTask treq =>
      obtain ⟨d, hd, hkey, -, hown⟩ := hpre
      obtain rfl := compile_key_inj (hkey.symm.trans hdrives)
      exact ⟨d, hd, hown _ rfl⟩
    | bindDraftCompilerTask id' taskId capability =>
      obtain rfl : id' = id := hdrives
      obtain ⟨d, hd, hown⟩ := hpre
      exact ⟨d, hd, hown _ rfl⟩
    | finalizeDraft id' patch =>
      obtain rfl : id' = id := hdrives
      obtain ⟨d, hd, hown⟩ := hpre
      exact ⟨d, hd, hown _ rfl⟩
    | _ => exact hdrives.elim
  · intro d hd d' hd' key hkey hkey'
    refine hunique d hd d' hd' ?_
    rw [hinv.keyed d hd key hkey, hinv.keyed d' hd' key hkey']
  · intro t ht d hd hkey
    obtain ⟨d', hd', hkey', hp⟩ := hinv.prompted t ht
    obtain rfl := hunique d hd d' (draft?_mem hd') (compile_key_inj (hkey.symm.trans hkey'))
    exact hp
  · intro req id k i d e s' hget hd hfp hstep
    have hanswer := (reach_compares h _ (List.mem_of_getElem? hget)).1 d hfp
    have hexec : exec (.getDraft id) s.w .run = some (.ok (some d), s.w) := by
      rw [← hd]
      rfl
    rw [exec_step _ hget hexec] at hstep
    obtain ⟨-, rfl⟩ := Prod.mk.inj (Option.some.inj hstep)
    show (s.serving.set i ⟨.compile req, k (.ok (some d)) ()⟩)[i]? = _
    rw [List.getElem?_set_self (List.getElem?_eq_some_iff.mp hget).1, hanswer]
    rfl
  · intro req e hret
    exact reach_throws h _ hret e rfl

/-- Digests that spell their texts out. -/
def plainSetup : Setup where
  digest := id
  draftDigest := id
  workflowDigest := id
  jsonParse := fun _ => none
  policy := defaultSystemPolicy
  maxWaits := 40
  sessionId := "bs_1"
  draftDigest_inj := fun _ _ h => h
  workflowDigest_inj := fun _ _ h => h

def keyedRequest (text : String) : CompileRequest := ⟨text, none, "codex", none, some "k", ""⟩

def noAgents : Inventory := ⟨[], ""⟩

def undiverted (w : World) (op : Op) : Bool :=
  match op with
  | .createDraft input => (w.draft? input.draftId).all fun d => d.requestFingerprint = input.requestFingerprint
  | _ => true

def notDiverted (w : World) (e : (compiler plainSetup).Event) : Bool :=
  match e with
  | .exec _ op _ => undiverted w op
  | _ => true

theorem notDiverted_sound (w : World) (e : (compiler plainSetup).Event) (h : notDiverted w e = true) :
    NotDiverted plainSetup w e := by
  cases e with
  | exec c op inp =>
    cases op with
    | createDraft input =>
      intro d hd
      have hall : (w.draft? input.draftId).all (fun d => decide
        (d.requestFingerprint = input.requestFingerprint)) = true := h
      rw [hd] at hall
      exact of_decide_eq_true hall
    | _ => trivial
  | _ => trivial

/-- Two calls with one request: the second takes the first one's draft. -/
def retryCreate : List (compiler plainSetup).Action :=
  [.invoke (.compile (keyedRequest "a")), .exec 0 .run, .exec 0 (.inventory noAgents), .exec 0 .run, .exec 0 .run,
    .invoke (.compile (keyedRequest "a")), .exec 1 .run]

def returnedDraft (s : (compiler plainSetup).State) : Bool :=
  s.serving.any fun t => match t with
    | ⟨.compile _, .ret (.ok (.draft _), _)⟩ => true
    | _ => false

/-- A compile that returned, and the stored draft of its request. -/
theorem retried_compile_own_draft : ∃ (s : (compiler plainSetup).State) (req : CompileRequest) (d d' : Draft),
    (compiler plainSetup).Reach (NotDiverted plainSetup) (.empty none none) s ∧
      ⟨.compile req, .ret (.ok (.draft d), ())⟩ ∈ s.serving ∧ s.w.draft? d.draftId = some d' ∧
      d'.requestFingerprint = req.fingerprint plainSetup := by
  obtain ⟨s, hs, hreturned⟩ := Pool.reach_exists (compiler plainSetup) (NotDiverted plainSetup) notDiverted
    notDiverted_sound (.empty none none) retryCreate returnedDraft (by decide +kernel)
  obtain ⟨t, ht, hret⟩ := List.any_eq_true.mp hreturned
  split at hret
  · rename_i req d fl
    obtain ⟨d₁, d', hd₁, -, hd', hfp⟩ := (compiles_drive_own_drafts hs).1 req (.draft d) ht
    obtain rfl := Result.draft.inj hd₁
    exact ⟨s, req, d, d', hs, ht, hd', hfp⟩
  · exact nomatch hret

/-! ## Two calls that missed the lookup -/

/-- Both miss the lookup; the first creates the draft and finalizes it; the second is given that draft. -/
def lateCreate : List (compiler plainSetup).Action :=
  [.invoke (.compile (keyedRequest "a")), .invoke (.compile (keyedRequest "b")), .exec 0 .run, .exec 1 .run,
    .exec 0 (.inventory noAgents), .exec 1 (.inventory noAgents), .exec 0 .run, .exec 0 .run, .exec 1 .run]

def foreignDraft (s : (compiler plainSetup).State) : Bool :=
  s.serving.any fun t => match t with
    | ⟨.compile req, .ret (.ok (.draft d), _)⟩ => d.requestFingerprint ≠ req.fingerprint plainSetup
    | _ => false

/-- A compile can return the draft of another request. -/
theorem late_create_takes_foreign_draft :
    ¬ ∀ (cfg : Setup) (agent nodeId : Option String) (s : (compiler cfg).State),
      (compiler cfg).Reach (fun _ _ => True) (.empty agent nodeId) s →
      ∀ req r, ⟨.compile req, .ret (.ok r, ())⟩ ∈ s.serving → ∃ d, r = .draft d ∧
        d.requestFingerprint = req.fingerprint cfg := by
  intro hall
  obtain ⟨s, hs, hforeign⟩ := Pool.reach_exists (compiler plainSetup) (fun _ _ => True) (fun _ _ => true)
    (fun _ _ _ => trivial) (.empty none none) lateCreate foreignDraft (by decide +kernel)
  obtain ⟨t, ht, hbad⟩ := List.any_eq_true.mp hforeign
  split at hbad
  · rename_i req d fl
    obtain ⟨d', hd', hfp⟩ := hall plainSetup none none s hs req (.draft d) ht
    obtain rfl := Result.draft.inj hd'
    exact of_decide_eq_true hbad hfp
  · exact nomatch hbad

end VibeCompiler
