import VibeWorkflow.HumanGateProofs

/-!
# Declared choices and recorded answers

An input gate may declare the answers it allows.  The choices are checked with the spec, stored
with the request and shown to the caller, but no layer compares an answer with them: the answer
is recorded as given and rendered into the agent's prompt.  So the recorded answers are declared
choices in exactly the runs in which every answer that is recorded was one.

* **`answers_chosen`** — runs whose answers are choices record and render choices only.
* **`undeclared_answer`** — a run that records and renders another answer.
-/

namespace VibeRuntime

open VibeJson VibeContract VibeRouting VibeTemplate VibeValidator VibeStore VibeAdmission VibeControl
open AsyncLogic

/-- The value is one of the gate's declared choices, if the gate declares any. -/
def AmongChoices (gate : StepPauseGate) (value : String) : Prop :=
  ∀ choices, gate.choices = some choices → choices ≠ [] → value ∈ choices

instance (gate : StepPauseGate) (value : String) : Decidable (AmongChoices gate value) :=
  match h : gate.choices with
  | none => isTrue (fun _ hc => nomatch h.symm.trans hc)
  | some choices =>
    decidable_of_iff (choices ≠ [] → value ∈ choices) ⟨fun hm cs hc hne => by
      obtain rfl := Option.some.inj (h.symm.trans hc)
      exact hm hne, fun hm hne => hm choices h hne⟩

/-- Every answer that is about to be recorded on a pending input request is among its choices. -/
def choiceOk (s : Sys) (a : Action) : Prop :=
  ∀ who id value h, a = .exec who .run → s.nextOp who = some (.answer id value) →
    s.w.db.human? id = some h → h.status = .pending → h.gate.kind = .input →
    AmongChoices h.gate value

/-- The recorded answers are choices. -/
def Chosen (db : Db) : Prop :=
  ∀ h ∈ db.human, h.gate.kind = .input → ∀ v, h.responseValue = some v → AmongChoices h.gate v

section

variable {cfg : Config} {s : Sys} {a : Action} {w' : World}

theorem chosen_move (hinv : SysInv cfg s) (hok : choiceOk s a) (hm : Move cfg s a w')
    (h : Chosen s.w.db) : Chosen w'.db := by
  rcases hm.call_or_env with ⟨who, inp, op, res, rfl, hop, -, hex⟩ | henv
  · intro r hr hkind v hv
    have heff := exec_effect hex
    rcases (heff.requests_cases hinv.core).mem hinv.core.human hr with hold |
      ⟨_, _, _, _, -, -, -, _, rfl⟩ | ⟨row, hrow, hpend, -, -, -, hgate, -, hvalue⟩
    · exact h r hold hkind v hv
    · exact nomatch hv
    · rw [hgate] at hkind ⊢
      rcases hvalue v hv with hsame | rfl
      · exact h row hrow hkind v hsame
      · -- a store call that is refused records nothing, so this one ran
        by_cases hinp : inp = .run
        · subst hinp
          exact hok who row.requestId v row rfl hop (hinv.core.human.find hrow) hpend hkind
        · have hdb := exec_refused hex hinp
          rw [hdb] at hr
          exact hgate ▸ h r hr (hgate ▸ hkind) v hv
  · rw [henv.db]
    exact h

end

/-- **Answers that are choices stay choices**: in every run whose recorded answers are among the
    declared choices, so is every recorded answer, every response a template of the gated
    execution can render, and with it every response in a prompt that is about to be sent. -/
theorem answers_chosen {cfg : Config} {spec : WorkflowSpec} (hload : cfg.loaded = some spec)
    {s : Sys} (h : Reach cfg choiceOk s) :
    Chosen s.w.db ∧
    (∀ k gate, gateOf cfg k = some gate → ∀ v, (scopeAt cfg s.w k).pauseResponse = some v →
      AmongChoices gate v) ∧
    ∀ who req, s.nextOp who = some (.createTask req) → ∃ k, requestOf cfg s.w k = some req ∧
      ∀ gate, gateOf cfg k = some gate → ∀ v, (scopeAt cfg s.w k).pauseResponse = some v →
        AmongChoices gate v := by
  have hv := (loaded_spec hload).1
  have hinv := reach_inv h
  have hchosen : Chosen s.w.db := by
    refine reach_world (P := fun w => Chosen w.db) ?_ ?_ h
    · exact fun _ hr => absurd hr List.not_mem_nil
    · exact fun _ _ _ hinv hok hm hP => chosen_move hinv hok hm hP
  have hscope : ∀ k gate, gateOf cfg k = some gate → ∀ v, (scopeAt cfg s.w k).pauseResponse = some v →
      AmongChoices gate v := by
    intro k gate hg v hresp
    obtain ⟨r, hr, hval⟩ := Option.bind_eq_some_iff.mp hresp
    obtain ⟨hmem, hid⟩ := Db.human?_mem hr
    obtain ⟨hown, hrg⟩ := hinv.core.human.gate r hmem
    have hk : r.key = k := sec_inj hv (gated_step hrg) (gated_step hg)
      (cfg.digest_inj ((String.append_right_inj "hr_").mp (hown.symm.trans hid)))
    rw [hk, hg] at hrg
    rw [Option.some.inj hrg]
    split at hval
    · rename_i hkind
      exact hchosen r hmem hkind.1 v hval
    · exact nomatch hval
  refine ⟨hchosen, hscope, ?_⟩
  intro who req hop
  rcases nextOp_guard hinv hop with ⟨k, -, -, -, hreq⟩ | hg
  · exact ⟨k, hreq, hscope k⟩
  · exact absurd hg id

/-- The pending answer of a call that is about to be recorded. -/
def pendingAnswer (s : Sys) (who : Who) : Option (HumanRequestRow × String) :=
  match s.nextOp who with
  | some (.answer id value) =>
    ((s.w.db.human? id).filter (fun h => h.status = .pending ∧ h.gate.kind = .input)).map (·, value)
  | _ => none

/-- `choiceOk`, decided. -/
def choiceGood (s : Sys) : Action → Bool
  | .exec who .run => (pendingAnswer s who).all (fun p => decide (AmongChoices p.1.gate p.2))
  | _ => true

theorem choiceGood_ok (s : Sys) (a : Action) (h : choiceGood s a = true) : choiceOk s a := by
  rintro who id value row rfl hop hrow hpend hkind
  have hp : pendingAnswer s who = some (row, value) := by
    simp [pendingAnswer, hop, hrow, hpend, hkind, Option.filter]
  simp only [choiceGood, hp, Option.all_some, decide_eq_true_eq] at h
  exact h

/-- A run in which the answer is one of the two declared ones. -/
theorem declared_answer : ∃ s, Reach gated choiceOk s ∧
    (s.w.db.human.map HumanRequestRow.responseValue) = [some "yes"] ∧ Chosen s.w.db := by
  obtain ⟨s, hs, hP⟩ := reach_exists gated choiceOk choiceGood choiceGood_ok
    (askActions ++ answerActions "yes")
    (fun s => decide ((s.w.db.human.map HumanRequestRow.responseValue) = [some "yes"]))
    (by decide +kernel)
  exact ⟨s, hs, of_decide_eq_true hP, (answers_chosen rfl hs).1⟩

/-- The gate declares `yes` and `no`; the answer `maybe` is recorded, and the task the service
    gets asks its agent to `go maybe`. -/
theorem undeclared_answer : ∃ s, Reach gated anyStep s ∧ ¬ Chosen s.w.db ∧
    s.w.tasks.map (fun t => t.request.text) = ["go maybe"] := by
  obtain ⟨s, hs, hP⟩ := reach_exists gated anyStep (fun _ _ => true) (fun _ _ _ => trivial)
    (askActions ++ answerActions "maybe" ++ resumeActions ++ answeredTaskActions)
    (fun s => decide ((∃ h ∈ s.w.db.human, h.gate = ⟨.input, "?", some ["yes", "no"]⟩ ∧
      h.responseValue = some "maybe") ∧ s.w.tasks.map (fun t => t.request.text) = ["go maybe"]))
    (by decide +kernel)
  obtain ⟨⟨r, hr, hgate, hval⟩, htext⟩ := of_decide_eq_true hP
  refine ⟨s, hs, ?_, htext⟩
  intro hchosen
  have := hchosen r hr (by rw [hgate]) "maybe" hval ["yes", "no"] (by rw [hgate]) nofun
  exact absurd this (by decide)

end VibeRuntime
