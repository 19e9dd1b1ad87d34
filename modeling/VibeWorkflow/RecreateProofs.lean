import VibeWorkflow.ExactlyOnceProofs
import VibeWorkflow.CreateRequestProofs
import VibeWorkflow.IdempotencyProofs
import VibeWorkflow.ShutdownProofs

/-!
# A request made again is the same request

A pump that starts again renders the prompt of the current execution once more, from durable data that
has moved on since: other executions have outputs, questions have answers, leases have revisions.  The
service compares the fingerprint of what it is sent with the one it kept under the same key.

* `startTaskBody` — the body the task client posts for a request;
* `requestFingerprint` — the fingerprint the service computes for it;
* `Builds` — the pump has built the request of an execution;
* **`recreated_request_same`** — whenever the pump builds the request of an execution again, it is the
  request it was, so it is never refused as a conflict.
-/

namespace VibeRuntime

open VibeJson VibeContract VibeRouting VibeTemplate VibeValidator VibeStore VibeControl
open VibeRequest VibeIdempotency
open AsyncLogic

/-! ## What the service is sent -/

/-- A text property, left out when the text is empty. -/
def textField (name : String) (s : Option String) : List (String × Json) :=
  match s with
  | some v => if v = "" then [] else [(name, .str v)]
  | none => []

/-- An object property, left out when it has no properties of its own. -/
def objectField (name : String) (kvs : List (String × Json)) : List (String × Json) :=
  if kvs.isEmpty then [] else [(name, .obj kvs)]

/-- What `createTask` of the task client posts. -/
def startTaskBody (req : AgentTaskCreateRequest) : Json :=
  .obj ([("agent", .str req.agent)] ++ textField "node_id" req.nodeId ++
    [("input", .obj [("text", .str req.text)])] ++
    objectField "workspace" (textField "workspace_key" req.workspaceKey) ++
    objectField "execution" (textField "permission_mode" req.permissionMode ++
      (if req.workspaceWrite then [("workspace_write", .bool true)] else [])) ++
    [("metadata", req.metadata), ("idempotency_key", .str req.idempotencyKey)] ++
    textField "workspace_lease_id" req.workspaceLeaseId ++
    (req.verify.map (fun v => ("verify", v))).toList)

/-- The fingerprint of a request, if its body is accepted. -/
def requestFingerprint (sha256 : String → String) (req : AgentTaskCreateRequest) : Except String String :=
  (validateCreateTaskRequest (.ofJson (startTaskBody req))).map (computeRequestFingerprint sha256)

/-! ## Building a request -/

/-- The pump has built the request of an execution: it is about to enter the create loop with it, or it
    has made the create call for it. -/
def Builds (cfg : Config) (s : Sys) (k : StepKey) (req : AgentTaskCreateRequest) : Prop :=
  (∃ wf attempt fl kont, s.pump = some (.run (.loop (.create wf k req attempt) fl kont))) ∨
    (s.nextOp .pump = some (.createTask req) ∧ (owned s.w.db).cur cfg = k)

section

variable {cfg : Config} {s s' : Sys} {k : StepKey} {req req' : AgentTaskCreateRequest}

/-- What is built is what the current execution's templates render to. -/
theorem Builds.justified (h : Builds cfg s k req) (hinv : SysInv cfg s) :
    Justified cfg (.createTask req) s.w ∧ (owned s.w.db).cur cfg = k := by
  rcases h with ⟨wf, attempt, fl, kont, hp⟩ | ⟨hop, hcur⟩
  · -- the invariant of the create loop
    obtain ⟨⟨-, hready⟩, -⟩ := hinv.pump _ hp s.w (Rely.refl s.w) hinv.core
    obtain ⟨row, hat, -⟩ := hready.unbound
    exact ⟨⟨k, hready.unbound, hready.room, hready.pause, hready.request⟩, hat.cur⟩
  · obtain ⟨t, ht, hop⟩ := Option.bind_eq_some_iff.mp hop
    obtain ⟨kont, rfl⟩ := nextOp_eq hop
    exact ⟨(threadOk_exec (hinv.pump _ ht) hinv.core).1, hcur⟩

/-- A justified request is under the key of the current execution. -/
theorem justified_key (hj : Justified cfg (.createTask req) s.w) :
    req.idempotencyKey = cfg.sec ((owned s.w.db).cur cfg) := by
  obtain ⟨_, -, -, hreq, -⟩ := create_current hj
  exact requestOf_key hreq

/-- The requests known at a state stay the only ones under their keys. -/
theorem steps_oneRequest {I : AgentTaskCreateRequest → Prop} (hv : ValidSpec cfg.rawSpec)
    (hr : Reach cfg anyStep s) (hsteps : Steps cfg anyStep s s') (h : OneRequest cfg s.w I) :
    OneRequest cfg s'.w I := by
  induction hsteps with
  | refl => exact h
  | @step s₁ s₂ a hst _ hstep ih =>
    have hinv := reach_inv (hst.reach hr)
    obtain ⟨hinv', hm⟩ := step_move hinv hstep
    exact oneRequest_move hv hinv hinv'.core hm ih

end

/-! ## Building it again -/

section

variable {cfg : Config} {s s' : Sys} {k : StepKey} {req req' : AgentTaskCreateRequest}

/-- A request built again is the one built before. -/
theorem builds_again (hv : ValidSpec cfg.rawSpec) (h : Reach cfg anyStep s)
    (hsteps : Steps cfg anyStep s s') (hb : Builds cfg s k req) (hb' : Builds cfg s' k req') :
    req' = req := by
  obtain ⟨hj, hcur⟩ := hb.justified (reach_inv h)
  obtain ⟨hj', hcur'⟩ := hb'.justified (reach_inv (hsteps.reach h))
  -- from `s` on, the request built there is the only one under its key
  have hone := (steps_oneRequest hv h hsteps (reach_once hv h).issued.issue).issue
  refine hone.unique req' req (Or.inr hj') (Or.inl (Or.inr hj)) ?_
  rw [justified_key hj', justified_key hj, hcur', hcur]

/-- The service knows no other request under the key of one that is built. -/
theorem builds_issued (hv : ValidSpec cfg.rawSpec) (h : Reach cfg anyStep s) (hb : Builds cfg s k req)
    {r : AgentTaskCreateRequest} (hr : Issued s.w r) (hkey : r.idempotencyKey = cfg.sec k) : r = req := by
  obtain ⟨hj, hcur⟩ := hb.justified (reach_inv h)
  refine (reach_once hv h).issued.issue.unique r req (Or.inl hr) (Or.inr hj) ?_
  rw [hkey, justified_key hj, hcur]

/-- **A request made again is the same request**: whenever the pump builds the request of an execution a
    second time, whatever happened since, both have the same key and the same fingerprint.  A row the
    service keeps for any request made under that key has this fingerprint, so it answers with its task
    and not with a conflict. -/
theorem recreated_request_same {spec : WorkflowSpec} (hload : cfg.loaded = some spec)
    (h : Reach cfg anyStep s) (hsteps : Steps cfg anyStep s s') (hb : Builds cfg s k req)
    (hb' : Builds cfg s' k req') :
    req.idempotencyKey = cfg.sec k ∧ req'.idempotencyKey = cfg.sec k ∧
    (∀ sha256, requestFingerprint sha256 req' = requestFingerprint sha256 req) ∧
    ∀ sha256 r (row : StoredTask) fp fp', Issued s'.w r → r.idempotencyKey = cfg.sec k →
      requestFingerprint sha256 r = .ok fp → row.requestFingerprint = some fp →
      requestFingerprint sha256 req' = .ok fp' → resolveExisting fp' row = .ok (row, false) := by
  have hv := (loaded_spec hload).1
  have hkey : ∀ {s : Sys} {req : AgentTaskCreateRequest}, Reach cfg anyStep s → Builds cfg s k req →
      req.idempotencyKey = cfg.sec k := by
    intro s req hr hb
    obtain ⟨hj, hcur⟩ := hb.justified (reach_inv hr)
    rw [justified_key hj, hcur]
  have hreach' := hsteps.reach h
  refine ⟨hkey h hb, hkey hreach' hb', ?_, ?_⟩
  · intro sha256
    rw [builds_again hv h hsteps hb hb']
  · intro sha256 r row fp fp' hr hrkey hfp hrow hfp'
    have hsame := builds_issued hv hreach' hb' hr hrkey
    subst hsame
    have heq : fp = fp' := Except.ok.inj (hfp.symm.trans hfp')
    unfold resolveExisting
    rw [if_neg (fun hne => hne (by rw [hrow, heq]))]

/-- An executed sequence of checked actions leads from a state to a later one. -/
theorem steps_of_runWhile {ok : Sys → Action → Prop} {good : Sys → Action → Bool}
    (hgood : ∀ s a, good s a = true → ok s a) {s₀ s s' : Sys} {as : List Action}
    (hs : Steps cfg ok s₀ s) (h : runWhile cfg good s as = some s') : Steps cfg ok s₀ s' := by
  induction as generalizing s with
  | nil =>
    cases h
    exact hs
  | cons a as ih =>
    unfold runWhile at h
    split at h
    · rename_i hg
      split at h
      · rename_i s₁ hstep
        exact ih (.step hs (hgood s a hg) hstep) h
      · exact nomatch h
    · exact nomatch h

/-- A checked run that leads to a state with a property and on to one with another. -/
theorem steps_exists (cfg : Config) (ok : Sys → Action → Prop) (good : Sys → Action → Bool)
    (hgood : ∀ s a, good s a = true → ok s a) (as as' : List Action) (P P' : Sys → Bool)
    (h : (runWhile cfg good (initial cfg) as).any (fun s => P s && (runWhile cfg good s as').any P') = true) :
    ∃ s s', Reach cfg ok s ∧ Steps cfg ok s s' ∧ P s = true ∧ P' s' = true := by
  obtain ⟨s, hs, hP⟩ := Option.any_eq_true _ _ |>.mp h
  rw [Bool.and_eq_true] at hP
  obtain ⟨s', hs', hP'⟩ := Option.any_eq_true _ _ |>.mp hP.2
  exact ⟨s, s', reach_of_runWhile hgood .start hs, steps_of_runWhile hgood .refl hs', hP.1, hP'⟩

end

/-- The pump of the one-step workflow is at its create call. -/
def creating (s : Sys) : Bool :=
  decide (s.nextOp .pump = (requestOf oneStep (initial oneStep).w ⟨"a", 1⟩).map .createTask ∧
    (owned s.w.db).cur oneStep = ⟨"a", 1⟩)

theorem creating_builds {s : Sys} {req : AgentTaskCreateRequest}
    (hreq : requestOf oneStep (initial oneStep).w ⟨"a", 1⟩ = some req) (h : creating s = true) :
    Builds oneStep s ⟨"a", 1⟩ req := by
  obtain ⟨hop, hcur⟩ := of_decide_eq_true h
  rw [hreq] at hop
  exact Or.inr ⟨hop, hcur⟩

/-- The process crashes with its create call out, and the next one builds the request again. -/
theorem rebuilt_after_crash : ∃ s s' req, Reach oneStep anyStep s ∧ Steps oneStep anyStep s s' ∧
    Builds oneStep s ⟨"a", 1⟩ req ∧ Builds oneStep s' ⟨"a", 1⟩ req ∧ s'.w.inFlight = [req] ∧
    req.idempotencyKey = "wf.a.r1.a1" := by
  obtain ⟨req, hreq⟩ := Option.isSome_iff_exists.mp
    (by decide +kernel : (requestOf oneStep (initial oneStep).w ⟨"a", 1⟩).isSome = true)
  obtain ⟨s, s', hs, hss, hP, hP'⟩ := steps_exists oneStep anyStep (fun _ _ => true)
    (fun _ _ _ => trivial) (startActions ++ renderActions)
    (recoverActions ++ [.wake (.call 0), .leave 0, .unfold .pump] ++ renderActions.drop 3) creating
    (fun s => creating s && decide (s.w.inFlight = (requestOf oneStep (initial oneStep).w ⟨"a", 1⟩).toList))
    (by decide +kernel)
  have hb := creating_builds hreq hP
  rw [Bool.and_eq_true] at hP'
  have hb' := creating_builds hreq hP'.1
  have hout := of_decide_eq_true hP'.2
  rw [hreq] at hout
  exact ⟨s, s', req, hs, hss, hb, hb', hout, (recreated_request_same rfl hs hss hb hb').1⟩

end VibeRuntime
