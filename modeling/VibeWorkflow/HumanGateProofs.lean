import VibeWorkflow.ExactlyOnceProofs

/-!
# Human gates

A gated execution asks once and waits.  While its request is pending or rejected the execution is
the current one, has no task, and no other request is made; so a create request is made only
after the response, and a rejection leaves nothing that could still create a task.  A resumption
rests on the latest request as the call read it.

* **`Effect.requests_cases`** — what a call may do to the requests.
* **`GateInv`** — open requests belong to the current, unbound execution; made requests have passed.
* **`human_gates_hold`** — what every interleaving keeps.
* **`gates_bounded`** — three runs that bound the statement.
-/

namespace VibeRuntime

open VibeJson VibeContract VibeRouting VibeTemplate VibeValidator VibeStore VibeAdmission VibeControl
open AsyncLogic

/-! ## Requests and responses -/

/-- A request whose execution may not go on. -/
def Unanswered (h : HumanRequestRow) : Prop := h.status = .pending ∨ h.status = .rejected

/-- The response a gate asks for. -/
def responseTo (gate : StepPauseGate) : HumanStatus :=
  match gate.kind with
  | .input => .answered
  | .approval => .approved

/-- A response is of the kind its gate asks for, and only an answer carries a value. -/
structure ResponseOk (h : HumanRequestRow) : Prop where
  passed : h.status = .answered ∨ h.status = .approved → h.status = responseTo h.gate
  value : ∀ v, h.responseValue = some v → h.status = .answered

/-- What a call may do to the requests. -/
inductive RequestsStep (op : Op) (db db' : Db) : Prop where
  | same (h : db'.human = db.human)
  | asked {id : String} {k : StepKey} {gate : StepPauseGate} {ev : WorkflowEvent}
      (hop : op = .pause id k gate ev) (hnone : db.human? id = none)
      {now : Nat} (h : db'.human = db.human ++ [⟨id, k, gate, .pending, none, now⟩])
  | responded {id : String} {row : HumanRequestRow} {f : HumanRequestRow → HumanRequestRow}
      (hrow : db.human? id = some row) (hpend : row.status = .pending)
      (h : db'.human = (db.setHuman id f).human)
      (hid : ∀ r, (f r).requestId = r.requestId ∧ (f r).key = r.key ∧ (f r).gate = r.gate)
      (hok : ResponseOk row → ResponseOk (f row)) (hdone : (f row).status ≠ .pending)
      (hend : (f row).status = .rejected → db'.isTerminal = true ∧
        (db.isTerminal = false → db'.wf.status = .failed))
      (hvalue : ∀ v, (f row).responseValue = some v → row.responseValue = some v ∨ op = .answer id v)

section

variable {cfg : Config} {w w' : World} {op : Op}

/-- Rejecting again leaves the requests as they are. -/
theorem setHuman_rejected {db : Db} (hh : HumanRows cfg db.human) {id : String} {row : HumanRequestRow}
    (hrow : db.human? id = some row) (hs : row.status = .rejected) :
    (db.setHuman id (fun h => { h with status := .rejected })).human = db.human := by
  show db.human.map _ = db.human
  conv_rhs => rw [← List.map_id db.human]
  refine List.map_congr_left (fun r hr => ?_)
  show (if r.requestId = id then { r with status := .rejected } else r) = r
  split
  · rename_i hid
    have hfound := hh.find hr
    rw [hid, hrow] at hfound
    obtain rfl := Option.some.inj hfound
    rw [← hs]
  · rfl

/-- **All a call can do to the requests.** -/
theorem Effect.requests_cases (h : Effect op w w') (hi : CoreInv cfg w) :
    RequestsStep op w.db w'.db := by
  cases h with
  | @cancelled _ k _ _ _ => cases k <;> exact .same rfl
  | asked hnone _ _ => exact .asked rfl hnone rfl
  | askedPaused hnone _ _ => exact .asked rfl hnone rfl
  | @answered _ id value row hrow hp hkind =>
    refine .responded hrow hp rfl (fun _ => ⟨rfl, rfl, rfl⟩) (fun _ => ?_) nofun nofun ?_
    · refine ⟨fun _ => ?_, fun _ _ => rfl⟩
      show HumanStatus.answered = responseTo row.gate
      rw [responseTo, hkind]
    · intro v hv
      exact Or.inr (by rw [Option.some.inj hv])
  | @approved _ id row hrow hp hkind =>
    refine .responded hrow hp rfl (fun _ => ⟨rfl, rfl, rfl⟩) (fun hok => ?_) nofun nofun
      (fun v hv => Or.inl hv)
    refine ⟨fun _ => ?_, fun v hv => ?_⟩
    · show HumanStatus.approved = responseTo row.gate
      rw [responseTo, hkind]
    · have := hok.value v hv
      rw [hp] at this
      exact nomatch this
  | @rejected _ id ev row hrow hp hlive hkind =>
    rcases hp with hp | hp
    · refine .responded hrow hp rfl (fun _ => ⟨rfl, rfl, rfl⟩) (fun hok => ?_) nofun
        (fun _ => ⟨rfl, fun _ => rfl⟩) (fun v hv => Or.inl hv)
      refine ⟨fun hs => hs.elim nofun nofun, fun v hv => ?_⟩
      have := hok.value v hv
      rw [hp] at this
      exact nomatch this
    · exact .same (setHuman_rejected hi.human hrow hp)
  | @rejectedLate _ id ev row hrow hp hend hkind =>
    rcases hp with hp | hp
    · refine .responded hrow hp rfl (fun _ => ⟨rfl, rfl, rfl⟩) (fun hok => ?_) nofun
        (fun _ => ⟨hend, fun hl => absurd (hl.symm.trans hend) Bool.false_ne_true⟩) (fun v hv => Or.inl hv)
      refine ⟨fun hs => hs.elim nofun nofun, fun v hv => ?_⟩
      have := hok.value v hv
      rw [hp] at this
      exact nomatch this
    · exact .same (setHuman_rejected hi.human hrow hp)
  | _ => exact .same rfl

/-- A row of the requests after a call is an old one, the one just asked, or the response. -/
theorem RequestsStep.mem {db db' : Db} (hs : RequestsStep op db db') (hh : HumanRows cfg db.human)
    {h : HumanRequestRow} (hmem : h ∈ db'.human) :
    h ∈ db.human ∨ (∃ id k gate ev, op = .pause id k gate ev ∧ db.human? id = none ∧
        db'.human = db.human ++ [h] ∧ ∃ now, h = ⟨id, k, gate, .pending, none, now⟩) ∨
      ∃ row ∈ db.human, row.status = .pending ∧ h.status ≠ .pending ∧ (ResponseOk row → ResponseOk h) ∧
        h.key = row.key ∧ h.gate = row.gate ∧
        (h.status = .rejected → db'.isTerminal = true) ∧
        ∀ v, h.responseValue = some v → row.responseValue = some v ∨ op = .answer row.requestId v := by
  cases hs with
  | same heq => exact Or.inl (heq ▸ hmem)
  | @asked id k gate ev hop hnone now heq =>
    rw [heq] at hmem
    rcases mem_snoc.mp hmem with hold | rfl
    · exact Or.inl hold
    · exact Or.inr (Or.inl ⟨id, k, gate, ev, hop, hnone, heq, now, rfl⟩)
  | @responded id row f hrow hpend heq hid hok hdone hend hvalue =>
    rw [heq] at hmem
    obtain ⟨r, hr, rfl⟩ := List.mem_map.mp hmem
    split
    · rename_i hrid
      have hfound := hh.find hr
      rw [hrid, hrow] at hfound
      obtain rfl := Option.some.inj hfound
      refine Or.inr (Or.inr ⟨row, hr, hpend, hdone, hok, (hid row).2.1, (hid row).2.2,
        fun hs => (hend hs).1, ?_⟩)
      rw [hrid]
      exact hvalue
    · exact Or.inl hr

end

/-! ## The invariant -/

structure GateInv (cfg : Config) (w : World) : Prop where
  responses : ∀ h ∈ w.db.human, ResponseOk h
  waits : ∀ h ∈ w.db.human, Unanswered h → AtUnbound cfg w h.key ∧ w.db.human.getLast? = some h
  rejected : ∀ h ∈ w.db.human, h.status = .rejected → w.db.isTerminal = true
  done : ∀ r ∈ (owned w.db).steps, r.status = .completed → r.taskId.isSome
  passed : ∀ req, Issued w req → ∀ k, (stepAndRole cfg.spec k).isSome →
    req.idempotencyKey = cfg.sec k → PauseOk cfg w k

section

variable {cfg : Config} {w w' : World} {op : Op}

/-- An unanswered request holds its execution back. -/
theorem unanswered_blocks (hi : CoreInv cfg w) {h : HumanRequestRow} (hmem : h ∈ w.db.human)
    (hopen : Unanswered h) : ¬ PauseOk cfg w h.key := by
  intro hp
  obtain ⟨hid, hgate⟩ := hi.human.gate h hmem
  obtain ⟨row, hrow, hst⟩ := hp (by rw [hgate]; rfl)
  rw [← hid, hi.human.find hmem] at hrow
  obtain rfl := Option.some.inj hrow
  rcases hopen with ho | ho <;> rcases hst with hs | hs <;> exact nomatch ho.symm.trans hs

theorem gated_step {k : StepKey} {gate : StepPauseGate} (h : gateOf cfg k = some gate) :
    (stepAndRole cfg.spec k).isSome :=
  gateOf_step (by rw [h]; rfl)

/-- An execution that is held back stays current and unbound, whatever the pump writes. -/
theorem held_stays {k : StepKey} {O' : Owned} (hj : Justified cfg op w)
    (hs : OwnedStep op (owned w.db) O') (hu : AtUnbound cfg w k)
    (hheld : ∀ t ∈ w.tasks, t.request.idempotencyKey ≠ cfg.sec k) :
    O'.cur cfg = k ∧ ∃ row, O'.step? k = some row ∧ row.status ≠ .completed ∧ row.taskId = none := by
  obtain ⟨row, ⟨hcur, hrow⟩, hlive, hfree⟩ := hu
  -- the pump is at this execution, so each write below is about its row
  generalize hO : owned w.db = O at hs hcur hrow
  cases hs with
  | same => exact ⟨hcur, row, hrow, hlive, hfree⟩
  | @started k' ev _ hnone =>
    obtain rfl : k' = k := hj.1.symm.trans (hO ▸ hcur)
    exact absurd (hnone.symm.trans hrow) nofun
  | @bound k' taskId ev _ row' hrow' hfree' =>
    obtain ⟨⟨row₁, hat, -⟩, -, ⟨t, ht, -, hkey⟩, -⟩ := hj
    obtain rfl : k' = k := hat.cur.symm.trans (hO ▸ hcur)
    exact absurd hkey (hheld t ht)
  | @completed k' output context ev _ row' hrow' hlive' =>
    obtain ⟨t, r, ⟨row₁, hat, -, hbound⟩, -⟩ := hj
    obtain rfl : k' = k := hat.cur.symm.trans (hO ▸ hcur)
    obtain rfl : row₁ = row := Option.some.inj (hat.row.symm.trans (hO ▸ hrow))
    exact absurd (hfree.symm.trans hbound) nofun
  | @advanced edgeEv roundEv next startedEv _ hnone =>
    obtain ⟨k', output, d, hrt, -⟩ := hj
    obtain ⟨row₁, hat, hdone, -⟩ := hrt.left
    obtain rfl : k' = k := hat.cur.symm.trans (hO ▸ hcur)
    obtain rfl : row₁ = row := Option.some.inj (hat.row.symm.trans (hO ▸ hrow))
    exact absurd hdone hlive
  | stalled _ => exact ⟨hcur, row, hrow, hlive, hfree⟩

/-- The current execution is held back by its own request only: no second one is open. -/
theorem GateInv.only (hi : CoreInv cfg w) (h : GateInv cfg w) {k : StepKey} (hu : AtUnbound cfg w k)
    (hnone : w.db.human? (cfg.humanRequestId k) = none) :
    ∀ r ∈ w.db.human, ¬ Unanswered r := by
  intro r hr hopen
  obtain ⟨⟨_, hat, -⟩, -⟩ := h.waits r hr hopen
  obtain ⟨_, hat', -⟩ := hu
  obtain ⟨hid, -⟩ := hi.human.gate r hr
  have hkey : r.key = k := hat.cur.symm.trans hat'.cur
  rw [hkey] at hid
  have hfound := hi.human.find hr
  rw [hid, hnone] at hfound
  exact nomatch hfound

/-- Nothing was requested for an execution that is held back. -/
theorem GateInv.held (hi : CoreInv cfg w) (h : GateInv cfg w) {r : HumanRequestRow}
    (hr : r ∈ w.db.human) (hopen : Unanswered r) {req : AgentTaskCreateRequest} (hreq : Issued w req) :
    req.idempotencyKey ≠ cfg.sec r.key := by
  intro hkey
  have hstep := gated_step (hi.human.gate r hr).2
  exact unanswered_blocks hi hr hopen (h.passed req hreq r.key hstep hkey)

/-- The last request of a list with one changed row. -/
theorem getLast_setHuman {db db' : Db} {id : String} {f : HumanRequestRow → HumanRequestRow}
    (heq : db'.human = (db.setHuman id f).human) {r : HumanRequestRow}
    (hlast : db.human.getLast? = some r) (hne : r.requestId ≠ id) : db'.human.getLast? = some r := by
  rw [heq]
  show (db.human.map _).getLast? = some r
  rw [List.getLast?_map, hlast, Option.map_some, if_neg hne]

/-- **A guarded call keeps open requests with the current, unbound execution.** -/
theorem GateInv.waits_call (hi : CoreInv cfg w) (h : GateInv cfg w)
    (hg : Justified cfg op w ∨ ApiGuard cfg op w) (heff : Effect op w w') :
    ∀ r ∈ w'.db.human, Unanswered r → AtUnbound cfg w' r.key ∧ w'.db.human.getLast? = some r := by
  have hstays : ∀ r ∈ w.db.human, Unanswered r → AtUnbound cfg w' r.key := by
    intro r hr hopen
    have hu := (h.waits r hr hopen).1
    have hs := heff.owned hi.keys
    rcases hg with hj | hg
    · obtain ⟨hcur, row, hrow, hlive, hfree⟩ := held_stays hj hs hu
        (fun t ht => h.held hi hr hopen (Or.inl ⟨t, ht, rfl⟩))
      exact ⟨row, ⟨hcur, hrow⟩, hlive, hfree⟩
    · have heq := ApiGuard.owned hg hs
      obtain ⟨row, ⟨hcur, hrow⟩, hlive, hfree⟩ := hu
      exact ⟨row, ⟨heq ▸ hcur, heq ▸ hrow⟩, hlive, hfree⟩
  have hsame : w'.db.human = w.db.human → ∀ r ∈ w'.db.human, Unanswered r →
      AtUnbound cfg w' r.key ∧ w'.db.human.getLast? = some r := by
    intro heq r hr hopen
    rw [heq] at hr ⊢
    exact ⟨hstays r hr hopen, (h.waits r hr hopen).2⟩
  cases heff.requests_cases hi with
  | same heq => exact hsame heq
  | @asked rid k gate ev hop hnone now heq =>
    subst hop
    obtain ⟨hgate, hid, -, hu⟩ : Justified cfg (.pause rid k gate ev) w :=
      hg.elim id (fun hg => absurd hg id)
    have honly := h.only hi hu (hid ▸ hnone)
    intro r hr hopen
    rw [heq] at hr ⊢
    rcases mem_snoc.mp hr with hold | rfl
    · exact absurd hopen (honly r hold)
    · refine ⟨?_, List.getLast?_concat⟩
      have howned : owned w'.db = owned w.db := by
        have hs := heff.owned hi.keys
        generalize owned w'.db = O' at hs
        cases hs
        rfl
      obtain ⟨row, ⟨hcur, hrow⟩, hlive, hfree⟩ := hu
      exact ⟨row, ⟨howned ▸ hcur, howned ▸ hrow⟩, hlive, hfree⟩
  | @responded rid row f hrow hpend heq hf hok hdone hend hvalue =>
    obtain ⟨hmem, hrid⟩ := Db.human?_mem hrow
    have hlast := (h.waits row hmem (Or.inl hpend)).2
    intro r hr hopen
    rw [heq] at hr
    obtain ⟨r₀, hr₀, rfl⟩ := List.mem_map.mp hr
    by_cases hid₀ : r₀.requestId = rid
    · -- the request that has just been responded to, by a rejection
      rw [if_pos hid₀]
      have hfound := hi.human.find hr₀
      rw [hid₀, hrow] at hfound
      obtain rfl := Option.some.inj hfound
      rw [(hf row).2.1]
      refine ⟨hstays row hmem (Or.inl hpend), ?_⟩
      rw [heq]
      show (w.db.human.map _).getLast? = _
      rw [List.getLast?_map, hlast, Option.map_some, if_pos hrid]
    · rw [if_neg hid₀] at hopen ⊢
      exact ⟨hstays r₀ hr₀ hopen, getLast_setHuman heq (h.waits r₀ hr₀ hopen).2 hid₀⟩

/-- A completed execution had a task. -/
theorem done_step {O' : Owned} (hj : Justified cfg op w) (hs : OwnedStep op (owned w.db) O')
    (hkeys : ((owned w.db).steps.map StepRow.key).Nodup)
    (h : ∀ r ∈ (owned w.db).steps, r.status = .completed → r.taskId.isSome) :
    ∀ r ∈ O'.steps, r.status = .completed → r.taskId.isSome := by
  have hfresh : ∀ k, ∀ r ∈ (owned w.db).steps ++ [StepRow.fresh k], r.status = .completed →
      r.taskId.isSome := by
    intro k r hr hc
    rcases mem_snoc.mp hr with hr | rfl
    · exact h r hr hc
    · exact nomatch hc
  generalize hO : owned w.db = O at hs h hfresh hkeys
  cases hs with
  | same => exact h
  | @started k _ _ _ => exact hfresh k
  | bound _ _ =>
    intro r hr hc
    obtain ⟨r₀, hr₀, rfl⟩ := Owned.mem_setStep.mp hr
    split
    · rfl
    · rename_i hk
      rw [if_neg hk] at hc
      exact h r₀ hr₀ hc
  | @completed k output context ev _ row hrow hlive =>
    obtain ⟨t, _, ⟨row₁, hat, -, hbound⟩, -⟩ := hj
    intro r hr hc
    obtain ⟨r₀, hr₀, rfl⟩ := Owned.mem_setStep.mp hr
    by_cases hk : r₀.key = k
    · rw [if_pos hk]
      obtain ⟨hmem, hkey⟩ := Owned.step?_mem (hO ▸ hat.row)
      obtain rfl := List.inj_on_of_nodup_map hkeys hr₀ hmem (hk.trans hkey.symm)
      show r₀.taskId.isSome
      rw [hbound]
      rfl
    · rw [if_neg hk] at hc ⊢
      exact h r₀ hr₀ hc
  | @advanced _ _ next _ _ _ => exact hfresh next
  | stalled _ => exact h

/-- A create request that is justified has passed its gate. -/
theorem create_passed (hv : ValidSpec cfg.rawSpec) {req : AgentTaskCreateRequest}
    (hj : Justified cfg (.createTask req) w) {k : StepKey} (hk : (stepAndRole cfg.spec k).isSome)
    (hkey : req.idempotencyKey = cfg.sec k) : PauseOk cfg w k := by
  obtain ⟨k', -, -, hp, hreq⟩ := hj
  have heq := sec_inj hv (requestOf_step hreq) hk ((requestOf_key hreq).symm.trans hkey)
  exact heq ▸ hp

/-- **A guarded call keeps the gates.** -/
theorem GateInv.call (hv : ValidSpec cfg.rawSpec) (hi : CoreInv cfg w) (h : GateInv cfg w)
    (hg : Justified cfg op w ∨ ApiGuard cfg op w) (heff : Effect op w w') : GateInv cfg w' where
  responses := by
    intro r hr
    rcases (heff.requests_cases hi).mem hi.human hr with hold | ⟨_, _, _, _, -, -, -, _, rfl⟩ |
      ⟨row, hrow, -, -, hok, -⟩
    · exact h.responses r hold
    · exact ⟨fun hs => hs.elim nofun nofun, nofun⟩
    · exact hok (h.responses row hrow)
  waits := h.waits_call hi hg heff
  rejected := by
    intro r hr hs
    rcases (heff.requests_cases hi).mem hi.human hr with hold | ⟨_, _, _, _, -, -, -, _, rfl⟩ |
      ⟨row, hrow, -, -, -, -, -, hend, -⟩
    · exact heff.mono.isTerminal (h.rejected r hold hs)
    · exact nomatch hs
    · exact hend hs
  done := by
    have hs := heff.owned hi.keys
    rcases hg with hj | hg
    · refine done_step hj hs ?_ h.done
      rw [owned_keys]
      exact hi.keys
    · rw [ApiGuard.owned hg hs]
      exact h.done
  passed := by
    intro req hreq k hk hkey
    rcases heff.issued hreq with hold | rfl
    · exact (h.passed req hold k hk hkey).effect heff
    · have hj := hg.elim id (fun hg => absurd hg id)
      exact (create_passed hv hj hk hkey).effect heff

theorem gateInv_move {s : Sys} {a : Action} (hv : ValidSpec cfg.rawSpec) (hinv : SysInv cfg s)
    (hm : Move cfg s a w') (h : GateInv cfg s.w) : GateInv cfg w' := by
  rcases hm.call_or_env with ⟨_, _, op, r, -, hop, hg, hex⟩ | henv
  · exact h.call hv hinv.core hg (exec_effect hex)
  · obtain ⟨h1, h2, h3, h4, h5⟩ := h
    refine ⟨henv.db ▸ h1, ?_, henv.db ▸ h3, henv.db ▸ h4, ?_⟩
    · intro r hr hopen
      rw [henv.db] at hr
      obtain ⟨⟨row, ⟨hcur, hrow⟩, hrest⟩, hlast⟩ := h2 r hr hopen
      refine ⟨⟨row, ⟨?_, ?_⟩, hrest⟩, ?_⟩
      · rw [henv.db]
        exact hcur
      · rw [henv.db]
        exact hrow
      · rw [henv.db]
        exact hlast
    · intro req hreq k hk hkey
      have hp : PauseOk cfg s.w k := by
        rcases henv.issued hreq with hold | hj
        · exact h5 req hold k hk hkey
        · exact create_passed hv hj hk hkey
      unfold PauseOk
      rw [henv.db]
      exact hp

end

/-- **In every run** the gates hold. -/
theorem reach_gates {cfg : Config} {ok : Sys → Action → Prop} {s : Sys} (hv : ValidSpec cfg.rawSpec)
    (h : Reach cfg ok s) : GateInv cfg s.w := by
  have hstart : GateInv cfg (initial cfg).w := by
    refine ⟨fun _ hr => absurd hr List.not_mem_nil, fun _ hr => absurd hr List.not_mem_nil,
      fun _ hr => absurd hr List.not_mem_nil, fun _ hr => absurd hr List.not_mem_nil, ?_⟩
    rintro req (⟨t, ht, -⟩ | hr)
    · exact absurd ht List.not_mem_nil
    · exact absurd hr List.not_mem_nil
  exact reach_world hstart (fun _ _ _ hinv _ hm hP => gateInv_move hv hinv hm hP) h

/-! ## After a rejection -/

section

variable {cfg : Config} {s s' : Sys} {a : Action}

/-- **With a rejected request no task is created**: the pump is held back, and what is still on
    its way belongs to executions that have their tasks. -/
theorem rejected_no_task (hv : ValidSpec cfg.rawSpec) (hr : Reach cfg anyStep s) {r : HumanRequestRow}
    (hmem : r ∈ s.w.db.human) (hrej : r.status = .rejected) (hstep : step cfg s a = some s') :
    s'.w.tasks.map AgentTask.request = s.w.tasks.map AgentTask.request := by
  have hinv := reach_inv hr
  have hgate := reach_gates hv hr
  have hrows := (reach_tasks hr).rows
  have hone := (reach_once hv hr).issued
  obtain ⟨⟨row, hat, -⟩, -⟩ := hgate.waits r hmem (Or.inr hrej)
  rcases (step_move hinv hstep).2.call_or_env with ⟨_, _, op, _, -, -, hg, hex⟩ | henv
  · rcases (exec_effect hex).tasks with heq | ⟨req, tid, rfl, -, -⟩
    · rw [heq]
    · obtain ⟨k, ⟨_, hat', -⟩, -, hp, -⟩ : Justified cfg (.createTask req) s.w :=
        hg.elim id (fun hg => absurd hg id)
      obtain rfl : k = r.key := hat'.cur.symm.trans hat.cur
      exact absurd hp (unanswered_blocks hinv.core hmem (Or.inr hrej))
  · have htasks := henv.tasks
    generalize s'.w.tasks = tasks at htasks
    cases htasks with
    | same => rfl
    | @arrived req id hreq _ hnew =>
      obtain ⟨r₀, hr₀, -, hkey⟩ := hone.row req (Or.inr hreq)
      by_cases hk : r₀.key = (owned s.w.db).cur cfg
      · rw [hat.cur] at hk
        rw [hk] at hkey
        exact absurd hkey (hgate.held hinv.core hmem (Or.inr hrej) (Or.inr hreq))
      · -- an earlier execution has its task, so its request is not new
        obtain ⟨taskId, hid⟩ := Option.isSome_iff_exists.mp
          (hgate.done r₀ hr₀ (hrows.past r₀ hr₀ hk))
        obtain ⟨t, ht, -, htkey, -⟩ := hrows.bound r₀ hr₀ taskId hid
        have heq : t.request = req := hone.unique t.request req (Or.inl ⟨t, ht, rfl⟩) (Or.inr hreq)
          (htkey.trans hkey.symm)
        exact absurd heq (hnew t ht)
    | @finished id status _ =>
      show (s.w.tasks.map _).map AgentTask.request = _
      rw [List.map_map]
      refine List.map_congr_left (fun t _ => ?_)
      show (if t.id = id ∧ t.status = .running then { t with status := status } else t).request = _
      split <;> rfl

/-- A response stays, from one state to every later one. -/
theorem response_stays (hr : Reach cfg anyStep s) (hsteps : Steps cfg anyStep s s') {id : String}
    {h : HumanRequestRow} (hh : s.w.db.human? id = some h) (hp : h.status ≠ .pending) :
    s'.w.db.human? id = some h := by
  refine steps_world (P := fun w => w.db.human? id = some h) ?_ hsteps hr hh
  intro s₁ a w' hinv _ hm hP
  rcases hm.call_or_env with ⟨_, _, op, _, -, -, -, hex⟩ | henv
  · exact (exec_effect hex).mono.human _ _ hP hp
  · exact henv.mono.human _ _ hP hp

theorem rejected_stays (hv : ValidSpec cfg.rawSpec) (hr : Reach cfg anyStep s)
    (hsteps : Steps cfg anyStep s s') {r : HumanRequestRow} (hmem : r ∈ s.w.db.human)
    (hrej : r.status = .rejected) : s'.w.db.wf.status = s.w.db.wf.status ∧
      s'.w.tasks.map AgentTask.request = s.w.tasks.map AgentTask.request := by
  have hne : r.status ≠ .pending := by
    rw [hrej]
    exact nofun
  have hfind := (reach_inv hr).core.human.find hmem
  have hend := (reach_gates hv hr).rejected r hmem hrej
  induction hsteps with
  | refl => exact ⟨rfl, rfl⟩
  | @step s₁ s₂ a hst _ hstep ih =>
    have hr₁ := hst.reach hr
    have hmem₁ := (Db.human?_mem (response_stays hr hst hfind hne)).1
    have hend₁ : s₁.w.db.isTerminal = true := by
      unfold Db.isTerminal
      rw [ih.1]
      exact hend
    refine ⟨Eq.trans ?_ ih.1, (rejected_no_task hv hr₁ hmem₁ hrej hstep).trans ih.2⟩
    rcases (step_move (reach_inv hr₁) hstep).2.call_or_env with ⟨_, _, _, _, -, -, -, hex⟩ | henv
    · exact (exec_effect hex).mono.terminal hend₁
    · exact henv.mono.terminal hend₁

/-- A rejection fails a workflow that has not ended. -/
theorem rejection_fails (hr : Reach cfg anyStep s) (hstep : step cfg s a = some s') {id : String}
    {h h' : HumanRequestRow} (hh : s.w.db.human? id = some h) (hne : h.status ≠ .rejected)
    (hh' : s'.w.db.human? id = some h') (hrej : h'.status = .rejected)
    (hlive : s.w.db.isTerminal = false) : s'.w.db.wf.status = .failed := by
  have hinv := reach_inv hr
  rcases (step_move hinv hstep).2.call_or_env with ⟨_, _, op, _, -, -, -, hex⟩ | henv
  · cases (exec_effect hex).requests_cases hinv.core with
    | same heq =>
      unfold Db.human? at hh hh'
      rw [heq, hh] at hh'
      cases hh'
      exact absurd hrej hne
    | @asked rid k gate ev _ hnone now heq =>
      unfold Db.human? at hh hh'
      rw [heq, List.find?_append, hh] at hh'
      cases hh'
      exact absurd hrej hne
    | @responded rid row f hrow hpend heq hf hok hdone hend hvalue =>
      have hset := Db.human?_setHuman s.w.db rid id (fun r => (hf r).1)
      have hfound : s'.w.db.human? id = (s.w.db.setHuman rid f).human? id := by
        unfold Db.human?
        rw [heq]
      rw [hfound, hset, hh, Option.map_some] at hh'
      by_cases hid : h.requestId = rid
      · rw [if_pos hid] at hh'
        cases hh'
        have hsame : h = row := by
          have hfind := hinv.core.human.find (Db.human?_mem hh).1
          rw [hid, hrow] at hfind
          exact (Option.some.inj hfind).symm
        rw [hsame] at hrej
        exact (hend hrej).2 hlive
      · rw [if_neg hid] at hh'
        cases hh'
        exact absurd hrej hne
  · rw [henv.db, hh] at hh'
    cases hh'
    exact absurd hrej hne

/-- The wall clock has given the requests times in the order of their creation. -/
def TimesFollow (db : Db) : Prop := db.human.Pairwise fun a b => a.createdAt < b.createdAt

/-- While the current execution's own request is pending it is the active one, if the clock was not set back. -/
theorem pending_is_active (hv : ValidSpec cfg.rawSpec) (hr : Reach cfg anyStep s) {id : String}
    {p : HumanRequestRow} (hp : s.w.db.human? id = some p) (hpend : p.status = .pending)
    (htimes : TimesFollow s.w.db) : getActiveHumanRequest s.w.db = some p := by
  have hlast := ((reach_gates hv hr).waits p (Db.human?_mem hp).1 (Or.inl hpend)).2
  obtain ⟨front, hfront⟩ := List.getLast?_eq_some_iff.mp hlast
  have hbefore : ∀ h ∈ front, h.createdAt < p.createdAt := by
    unfold TimesFollow at htimes
    rw [hfront, List.pairwise_append] at htimes
    exact fun h hh => htimes.2.2 h hh p List.mem_cons_self
  have hkept : p ∈ s.w.db.human.filter (fun h => h.status ≠ .rejected) := by
    refine List.mem_filter.mpr ⟨(Db.human?_mem hp).1, ?_⟩
    rw [hpend]
    decide
  unfold getActiveHumanRequest
  cases hact : (s.w.db.human.filter (fun h => h.status ≠ .rejected)).argmax HumanRequestRow.createdAt with
  | none =>
    rw [List.argmax_eq_none.mp hact] at hkept
    exact absurd hkept List.not_mem_nil
  | some h =>
    -- the row is not earlier than `p`, and every row but `p` is
    have hle : p.createdAt ≤ h.createdAt := List.le_of_mem_argmax hkept hact
    have hrow : h ∈ front ++ [p] := hfront ▸ List.mem_of_mem_filter (List.argmax_mem hact)
    rcases mem_snoc.mp hrow with hmem | rfl
    · exact absurd (hbefore h hmem) (Nat.not_lt.mpr hle)
    · rfl

end

/-! ## Every interleaving -/

/-- **Human gates hold** in every run: a task of a gated execution is there only with the
    execution's own response of the right kind; a response never changes; a rejection fails a
    workflow that has not ended, and a workflow with a rejected request has ended, keeps its status
    and creates no further task; and a resumption rests on an answered or approved request, which
    is not an older one while the current execution's own is pending, unless that one was made
    after the resumption looked or with the clock set back. -/
theorem human_gates_hold {cfg : Config} {spec : WorkflowSpec} (hload : cfg.loaded = some spec)
    {s : Sys} (h : Reach cfg anyStep s) :
    (∀ k gate, gateOf cfg k = some gate → ∀ t ∈ s.w.tasks, t.request.idempotencyKey = cfg.sec k →
      ∃ r, s.w.db.human? (cfg.humanRequestId k) = some r ∧ r.key = k ∧ r.status = responseTo gate) ∧
    (∀ s', Steps cfg anyStep s s' → ∀ id r, s.w.db.human? id = some r → r.status ≠ .pending →
      s'.w.db.human? id = some r) ∧
    (∀ a s', step cfg s a = some s' → ∀ id r r', s.w.db.human? id = some r → r.status ≠ .rejected →
      s'.w.db.human? id = some r' → r'.status = .rejected → s.w.db.isTerminal = false →
      s'.w.db.wf.status = .failed) ∧
    (∀ r ∈ s.w.db.human, r.status = .rejected → s.w.db.isTerminal = true ∧
      ∀ s', Steps cfg anyStep s s' → s'.w.db.wf.status = s.w.db.wf.status ∧
        s'.w.tasks.map AgentTask.request = s.w.tasks.map AgentTask.request) ∧
    (∀ i ev, s.nextOp (.call i) = some (.resume ev) →
      ∃ r, s.w.db.human? r.requestId = some r ∧ (r.status = .answered ∨ r.status = .approved) ∧
        ev = resumedEvent r ∧ (TimesFollow s.w.db → getActiveHumanRequest s.w.db = some r →
          ∀ p, s.w.db.human? (cfg.humanRequestId (currentKey cfg.spec s.w.db.wf)) = some p →
            p.status ≠ .pending)) := by
  have hv := (loaded_spec hload).1
  have hinv := reach_inv h
  have hgate := reach_gates hv h
  refine ⟨?_, fun s' hsteps id r => response_stays h hsteps, ?_, ?_, ?_⟩
  · intro k gate hg t ht hkey
    obtain ⟨r, hr, hst⟩ := hgate.passed t.request (Or.inl ⟨t, ht, rfl⟩) k (gated_step hg) hkey
      (by rw [hg]; rfl)
    obtain ⟨hmem, hid⟩ := Db.human?_mem hr
    obtain ⟨hown, hrg⟩ := hinv.core.human.gate r hmem
    have hk : r.key = k := sec_inj hv (gated_step hrg) (gated_step hg)
      (cfg.digest_inj ((String.append_right_inj "hr_").mp (hown.symm.trans hid)))
    refine ⟨r, hr, hk, ?_⟩
    rw [hk, hg] at hrg
    rw [Option.some.inj hrg]
    exact (hgate.responses r hmem).passed hst
  · intro a s' hstep id r r' hr hne hr' hrej hlive
    exact rejection_fails h hstep hr hne hr' hrej hlive
  · intro r hr hrej
    exact ⟨hgate.rejected r hr hrej, fun s' hsteps => rejected_stays hv h hsteps hr hrej⟩
  · intro i ev hop
    have hg : ApiGuard cfg (.resume ev) s.w := by
      rcases nextOp_guard hinv hop with hj | hg
      · exact absurd hj id
      · exact hg
    obtain ⟨r, hr, hready, hev⟩ := hg
    refine ⟨r, hr, hready, hev, ?_⟩
    intro htimes hact p hp hpend
    rw [pending_is_active hv h hp hpend htimes] at hact
    obtain rfl := Option.some.inj hact
    rcases hready with hs | hs <;> exact nomatch hpend.symm.trans hs

/-! ## A gated workflow -/

def gatedStep (id template kind : String) (choices : List String) : Json :=
  .obj [("id", .str id), ("type", .str "agent_task"), ("agent_role", .str "r"),
    ("prompt_template", .str template), ("output_schema", .str "s"),
    ("pause_before", .obj [("kind", .str kind), ("prompt", .str "?"),
      ("choices", .arr (choices.map Json.str))])]

/-- A step that asks `yes` or `no` and uses the answer, then a step that asks for an approval. -/
def gatedSpec : Json :=
  .obj [("version", .str "1"), ("name", .str "w"), ("entry_step", .str "a"),
    ("agents", oneRole), ("output_schemas", enumSchemas), ("limits", smallLimits []),
    ("steps", .arr [gatedStep "a" "go \x7b\x7b pause.response \x7d\x7d" "input" ["yes", "no"],
      gatedStep "b" "go" "approval" []]),
    ("edges", .arr [plainEdge "a" "b", plainEdge "b" "$complete"]), statusPolicy]

theorem gatedSpec_loaded : some (WorkflowSpec.ofJson gatedSpec) = loadSpec gatedSpec := by
  have hv : (validateWorkflowSpec gatedSpec).valid = true := by decide +kernel
  unfold loadSpec
  rw [if_pos hv]

def gated : Config :=
  { oneStep with
    rawSpec := gatedSpec
    loaded := some (WorkflowSpec.ofJson gatedSpec)
    loaded_eq := gatedSpec_loaded }

def pumpRuns (n : Nat) : List Action := (List.replicate n [.exec .pump .run, .wake .pump]).flatten

def callRuns (i n : Nat) : List Action :=
  (List.replicate n [.exec (.call i) .run, .wake (.call i)]).flatten

/-- The first step asks and the workflow waits. -/
def askActions : List Action := startActions ++ [.unfold .pump] ++ pumpRuns 5 ++ [.settle]

def answerActions (value : String) : List Action :=
  [.invoke (.answer (gated.humanRequestId ⟨"a", 1⟩) value)] ++ callRuns 0 1 ++ [.leave 0]

/-- Two resumptions look at the answered request, and the first of them resumes. -/
def resumeActions : List Action :=
  [.invoke .resume, .invoke .resume] ++ callRuns 0 2 ++ callRuns 1 2 ++ callRuns 0 2 ++ [.leave 0]

/-- The resumed pump passes the gate and creates and binds the task. -/
def answeredTaskActions : List Action := [.unfold .pump] ++ pumpRuns 6 ++ [.unfold .pump] ++ bindActions

/-- The first step completes; the second one asks, and the workflow waits again. -/
def askAgainActions : List Action :=
  resultActions ++ [.unfold .pump] ++ pumpRuns 3 ++ [.unfold .pump] ++ pumpRuns 4 ++ [.settle]

def secondGateActions : List Action :=
  askActions ++ answerActions "yes" ++ resumeActions ++ answeredTaskActions ++ askAgainActions

/-- The same with the wall clock set back between the two requests. -/
def setBackActions : List Action :=
  [.tick 0 5] ++ askActions ++ answerActions "yes" ++ resumeActions ++ answeredTaskActions ++
    [.tick 0 1] ++ askAgainActions

/-- A task of the gated step, with the answer its gate asked for. -/
theorem answered_task : ∃ s, Reach gated anyStep s ∧ s.w.tasks.length = 1 ∧
    ∀ t ∈ s.w.tasks, t.request.idempotencyKey = gated.sec ⟨"a", 1⟩ →
      ∃ r, s.w.db.human? (gated.humanRequestId ⟨"a", 1⟩) = some r ∧ r.status = .answered := by
  obtain ⟨s, hs, hP⟩ := reach_exists gated anyStep (fun _ _ => true) (fun _ _ _ => trivial)
    (askActions ++ answerActions "yes" ++ resumeActions ++ answeredTaskActions)
    (fun s => decide (s.w.tasks.length = 1)) (by decide +kernel)
  refine ⟨s, hs, of_decide_eq_true hP, ?_⟩
  intro t ht hkey
  obtain ⟨r, hr, -, hst⟩ := (human_gates_hold rfl hs).1 ⟨"a", 1⟩ ⟨.input, "?", some ["yes", "no"]⟩
    (by decide +kernel) t ht hkey
  exact ⟨r, hr, hst⟩

/-- Three runs that bound the statement.  A cancelled workflow whose pending approval is rejected
    stays cancelled; a resumption that looked at the first answer takes effect when the second
    step's own request is pending; and with the clock set back the first answer is still the active
    request then. -/
theorem gates_bounded :
    (∃ s, Reach gated anyStep s ∧ s.w.db.wf.status = .cancelled ∧
      ∃ r ∈ s.w.db.human, r.status = .rejected) ∧
    (∃ s s', Reach gated anyStep s ∧ step gated s (.exec (.call 0) .run) = some s' ∧
      s.nextOp (.call 0) = some (.resume (wfEvent .workflowResumed
        [("request_id", .str (gated.humanRequestId ⟨"a", 1⟩))])) ∧
      s.w.db.wf.status = .waitingApproval ∧ s'.w.db.wf.status = .running ∧
      currentKey gated.spec s.w.db.wf = ⟨"b", 1⟩ ∧
      ∃ p, s.w.db.human? (gated.humanRequestId ⟨"b", 1⟩) = some p ∧ p.status = .pending) ∧
    ∃ s, Reach gated anyStep s ∧
      s.nextOp (.call 0) = some (.resume (wfEvent .workflowResumed
        [("request_id", .str (gated.humanRequestId ⟨"a", 1⟩))])) ∧
      (getActiveHumanRequest s.w.db).map HumanRequestRow.requestId = some (gated.humanRequestId ⟨"a", 1⟩) ∧
      currentKey gated.spec s.w.db.wf = ⟨"b", 1⟩ ∧
      (s.w.db.human? (gated.humanRequestId ⟨"b", 1⟩)).map HumanRequestRow.status = some .pending := by
  refine ⟨?_, ?_, ?_⟩
  · obtain ⟨s, hs, hP⟩ := reach_exists gated anyStep (fun _ _ => true) (fun _ _ _ => trivial)
      (secondGateActions ++ [.invoke .cancel] ++ callRuns 1 7 ++
        [.invoke (.decide (gated.humanRequestId ⟨"b", 1⟩) false)] ++ callRuns 2 1)
      (fun s => decide (s.w.db.wf.status = .cancelled ∧ ∃ r ∈ s.w.db.human, r.status = .rejected))
      (by decide +kernel)
    exact ⟨s, hs, of_decide_eq_true hP⟩
  · obtain ⟨s, hs, hP⟩ := reach_exists gated anyStep (fun _ _ => true) (fun _ _ _ => trivial)
      secondGateActions
      (fun s => (step gated s (.exec (.call 0) .run)).any (fun s' : Sys => decide (
        s.nextOp (.call 0) = some (.resume (wfEvent .workflowResumed
          [("request_id", .str (gated.humanRequestId ⟨"a", 1⟩))])) ∧
        s.w.db.wf.status = .waitingApproval ∧ s'.w.db.wf.status = .running ∧
        currentKey gated.spec s.w.db.wf = ⟨"b", 1⟩ ∧
        ((s.w.db.human? (gated.humanRequestId ⟨"b", 1⟩)).any (fun p : HumanRequestRow => decide (p.status = .pending))) = true)))
      (by decide +kernel)
    obtain ⟨s', hstep, hP⟩ := (Option.any_eq_true _ _).mp hP
    obtain ⟨hop, hwait, hrun, hcur, hown⟩ := of_decide_eq_true hP
    obtain ⟨p, hp, hpend⟩ := (Option.any_eq_true _ _).mp hown
    exact ⟨s, s', hs, hstep, hop, hwait, hrun, hcur, p, hp, of_decide_eq_true hpend⟩
  · obtain ⟨s, hs, hP⟩ := reach_exists gated anyStep (fun _ _ => true) (fun _ _ _ => trivial)
      setBackActions
      (fun s => decide (
        s.nextOp (.call 0) = some (.resume (wfEvent .workflowResumed
          [("request_id", .str (gated.humanRequestId ⟨"a", 1⟩))])) ∧
        (getActiveHumanRequest s.w.db).map HumanRequestRow.requestId = some (gated.humanRequestId ⟨"a", 1⟩) ∧
        currentKey gated.spec s.w.db.wf = ⟨"b", 1⟩ ∧
        (s.w.db.human? (gated.humanRequestId ⟨"b", 1⟩)).map HumanRequestRow.status = some .pending))
      (by decide +kernel)
    exact ⟨s, hs, of_decide_eq_true hP⟩

end VibeRuntime
