import VibeWorkflow.ApiProofs

/-!
# What can happen in a run

Every thread of a reachable system is safe under the others, so every step of every run is one
of the moves below: a call with its guard, a thread waking up, or a move of the environment.
Properties of runs are proved by a case analysis on `Move`, without looking at programs again.

* **`SysInv`** — every thread is safe where it stands.
* **`step_move`** — a step of a system with safe threads is a move, and its threads stay safe.
* **`reach_inv`** — every reachable system has safe threads.
-/

namespace VibeRuntime

open VibeJson VibeContract VibeRouting VibeTemplate VibeValidator VibeStore VibeAdmission VibeControl
open AsyncLogic

/-! ## Moves -/

/-- The call a thread is about to make. -/
def nextOp {α : Type} (t : Thread sig α) : Option Op :=
  match t with
  | .run (.call op _) => some op
  | _ => none

/-- The answer a thread is about to wake up with. -/
def answerOf {α : Type} (t : Thread sig α) : Option (Σ op : Op, Except CallError (Ans op)) :=
  match t with
  | .woken op r _ => some ⟨op, r⟩
  | _ => none

def Sys.answerOf (s : Sys) : Who → Option (Σ op : Op, Except CallError (Ans op))
  | .pump => s.pump.bind VibeRuntime.answerOf
  | .call i => s.calls[i]?.bind VibeRuntime.answerOf

def Sys.nextOp (s : Sys) : Who → Option Op
  | .pump => s.pump.bind VibeRuntime.nextOp
  | .call i => s.calls[i]?.bind VibeRuntime.nextOp

/-- A step of a system, as far as the world goes. -/
inductive Move (cfg : Config) (s : Sys) : Action → World → Prop where
  | pump {op : Op} {inp : Input} {r : Except CallError (Ans op)} {w' : World}
      (hop : s.nextOp .pump = some op) (hj : Justified cfg op s.w)
      (hex : exec op s.w inp = some (r, w')) : Move cfg s (.exec .pump inp) w'
  | call {i : Nat} {op : Op} {inp : Input} {r : Except CallError (Ans op)} {w' : World}
      (hop : s.nextOp (.call i) = some op) (hg : ApiGuard cfg op s.w)
      (hex : exec op s.w inp = some (r, w')) : Move cfg s (.exec (.call i) inp) w'
  | wake {who : Who} {op : Op} {r : Except CallError (Ans op)}
      (hw : s.answerOf who = some ⟨op, r⟩) :
      Move cfg s (.wake who) (noteWake op r s.w)
  | unfold {who : Who} : Move cfg s (.unfold who) s.w
  | settle {r : Except CallError Exit × Flags} (hp : s.pump = some (.run (.ret r)))
      (hpost : PumpPost r s.w) : Move cfg s .settle s.w.settle
  | leave {i : Nat} : Move cfg s (.leave i) s.w
  | invoke {c : ApiCall} :
      Move cfg s (.invoke c) (if c = .cancel then { s.w with cancelCalled := true } else s.w)
  | deliver {req : AgentTaskCreateRequest} {id taskId : String} {w' : World}
      (hreq : req ∈ s.w.inFlight) (hd : s.w.deliver req id = some (taskId, w')) :
      Move cfg s (.deliver req id) w'
  | finish {taskId : String} {status : TaskStatus} (hs : status ≠ .running) :
      Move cfg s (.finish taskId status) (s.w.finish taskId status)
  | tick {ms wall : Nat} : Move cfg s (.tick ms wall) { s.w with now := s.w.now + ms, wall := wall }
  | shutdown : Move cfg s .shutdown s.w.shutdown
  | crash {pending : List AgentTaskCreateRequest}
      (hp : ∀ req ∈ pending, Justified cfg (.createTask req) s.w) :
      Move cfg s .crash (s.w.crash pending)

/-- Every thread is safe where it stands. -/
structure SysInv (cfg : Config) (s : Sys) : Prop where
  core : CoreInv cfg s.w
  live : s.w.pumpLive = s.pump.isSome
  pump : ∀ t, s.pump = some t → threadOk (pumpContract cfg) PumpPost t s.w
  calls : ∀ t ∈ s.calls, threadOk (apiContract cfg) ApiPost t s.w

/-! ## Guards and the core invariant -/

section

variable {cfg : Config} {op : Op} {w : World}

theorem Justified.core (h : Justified cfg op w) : CoreGuard cfg op w := by
  cases op <;> first | exact h | trivial | skip
  case pause id k gate ev =>
      obtain ⟨hg, hid, -⟩ := h
      exact ⟨hid, hg⟩

theorem ApiGuard.core (h : ApiGuard cfg op w) : CoreGuard cfg op w := by
  cases op <;> first | exact h | trivial

/-- A public call leaves alone what a live pump relies on. -/
theorem ApiGuard.keeps (h : ApiGuard cfg op w) : op.keeps = true := by
  cases op <;> first | rfl | exact absurd h id | skip
  case getWorkflow site =>
      cases site with
      | driveHead => exact absurd h id
      | other => rfl

end

/-! ## Moves of the environment keep the core invariant -/

section

variable {cfg : Config} {w : World}

theorem noteWake_core (hi : CoreInv cfg w) (op : Op) (r : Except CallError (Ans op)) :
    CoreInv cfg (noteWake op r w) := by
  rcases noteWake_db op r w with h | h
  · rw [h]
    exact hi
  · have hm := (noteWake_rely op r w).toMono
    rw [h] at hm ⊢
    refine hi.of_db rfl hm.cancel (fun ha => ?_)
    exact (hi.abort ha).imp id (fun h => h.imp hm.cancel id)

theorem deliver_core {req : AgentTaskCreateRequest} {new taskId : String} {w' : World}
    (hi : CoreInv cfg w) (h : w.deliver req new = some (taskId, w')) : CoreInv cfg w' := by
  rcases World.deliver_cases h with ⟨rfl, -⟩ | ⟨rfl, -⟩
  · exact hi
  · exact hi.of_db rfl id hi.abort

theorem shutdown_core (hi : CoreInv cfg w) : CoreInv cfg w.shutdown :=
  hi.of_db rfl id (fun _ => Or.inl rfl)

theorem called_core (hi : CoreInv cfg w) : CoreInv cfg { w with cancelCalled := true } :=
  hi.of_db rfl (fun _ => Or.inl rfl) (fun _ => Or.inr (Or.inl (Or.inl rfl)))

theorem crash_core (hi : CoreInv cfg w) (pending : List AgentTaskCreateRequest) :
    CoreInv cfg (w.crash pending) :=
  hi.of_db rfl id nofun

theorem settle_core (hi : CoreInv cfg w) : CoreInv cfg w.settle :=
  hi.of_db rfl id nofun

theorem initial_core (cfg : Config) : CoreInv cfg (initial cfg).w where
  keys := List.nodup_nil
  abort := nofun
  intent := nofun
  stepEnded := fun _ hr => nomatch hr
  human := ⟨List.nodup_nil, fun _ hh => nomatch hh⟩
  revisions := fun _ _ hr => nomatch hr

end

/-! ## One step -/

section

variable {cfg : Config} {s : Sys}

theorem nextOp_eq {α : Type} {t : Thread sig α} {op : Op} (h : nextOp t = some op) :
    ∃ k, t = .run (.call op k) := by
  unfold nextOp at h
  split at h
  · cases h
    exact ⟨_, rfl⟩
  · exact nomatch h

/-- The threads of a system that only its surroundings changed. -/
theorem SysInv.env {w' : World} (h : SysInv cfg s) (hr : Rely s.w w') (hi : CoreInv cfg w')
    (hlive : w'.pumpLive = s.w.pumpLive) : SysInv cfg { s with w := w' } where
  core := hi
  live := hlive.trans h.live
  pump := fun t ht => threadOk_rely (h.pump t ht) hr
  calls := fun t ht => threadOk_rely (h.calls t ht) hr.toMono

/-- What a thread's call comes to. -/
theorem threadExec_cases {α : Type} {t t' : Thread sig α} {w w' : World} {inp : Input}
    (h : threadExec t w inp = some (t', w')) :
    ∃ op k r, t = .run (.call op k) ∧ t' = .woken op r k ∧ exec op w inp = some (r, w') := by
  unfold threadExec at h
  split at h
  · rename_i op k
    split at h
    · rename_i r w₁ hex
      cases h
      exact ⟨op, k, r, rfl, rfl, hex⟩
    · exact nomatch h
  · exact nomatch h

theorem threadWake_cases {α : Type} {t t' : Thread sig α} {w w' : World}
    (h : threadWake t w = some (t', w')) :
    ∃ op r k, t = .woken op r k ∧ t' = .run (k r w.flags) ∧ w' = noteWake op r w := by
  unfold threadWake at h
  split at h
  · cases h
    exact ⟨_, _, _, rfl, rfl, rfl⟩
  · exact nomatch h

theorem threadUnfold_cases {α : Type} {t t' : Thread sig α} (h : threadUnfold cfg t = some t') :
    ∃ p, t = .run p ∧ t' = .run (unfoldLoop (body cfg) p) := by
  unfold threadUnfold at h
  split at h
  · cases h
    exact ⟨_, rfl, rfl⟩
  · exact nomatch h

theorem apiBodies_ok (cfg : Config) : BodiesOk (apiContract cfg) (body cfg) :=
  fun _ _ _ _ hinv => absurd hinv id

end

/-- A call of the pump. -/
theorem step_pumpExec {cfg : Config} {s s' : Sys} {inp : Input} (h : SysInv cfg s)
    (hs : step cfg s (.exec .pump inp) = some s') :
    SysInv cfg s' ∧ Move cfg s (.exec .pump inp) s'.w := by
  simp only [step] at hs
  split at hs
  · exact nomatch hs
  · rename_i t ht
    rw [Option.map_eq_some_iff] at hs
    obtain ⟨⟨t', w'⟩, hthread, rfl⟩ := hs
    obtain ⟨op, k, r, rfl, rfl, hex⟩ := threadExec_cases hthread
    obtain ⟨hj, hpost⟩ := threadOk_exec (h.pump _ ht) h.core
    have heff := exec_effect hex
    have hnew : threadOk (pumpContract cfg) PumpPost (.woken op r k) w' := hpost r w' ⟨inp, hex⟩
    refine ⟨⟨heff.core h.core (Justified.core hj), ?_, ?_, ?_⟩, ?_⟩
    · have hlive : w'.pumpLive = s.w.pumpLive := by
        cases heff <;> first | rfl | exact absurd hj id
      exact hlive.trans (h.live.trans (by rw [ht]; rfl))
    · intro t₁ ht₁
      cases ht₁
      exact hnew
    · exact fun t₁ ht₁ => threadOk_rely (h.calls t₁ ht₁) heff.mono
    · refine .pump ?_ hj hex
      show s.pump.bind nextOp = some op
      rw [ht]
      rfl

/-- A pump that a public call registered is safe, and so is one that was there. -/
theorem spawn_pump {cfg : Config} {s : Sys} {w' : World} {c : List CallThread} {op : Op}
    (h : SysInv cfg s) (hg : ApiGuard cfg op s.w) (heff : Effect op s.w w') :
    (s.spawn cfg w' c).w.pumpLive = (s.spawn cfg w' c).pump.isSome ∧
      ∀ t, (s.spawn cfg w' c).pump = some t → threadOk (pumpContract cfg) PumpPost t w' := by
  have hcore := heff.core h.core (ApiGuard.core hg)
  cases hp : s.pump with
  | some t =>
    -- a live pump relies on nobody registering another
    have hlive : s.w.pumpLive = true := by
      rw [h.live, hp]
      rfl
    have hkeep : w'.pumpLive = true := by
      cases heff <;> first | exact hlive | rfl
    have hspawn : (s.spawn cfg w' c).pump = some t := by
      simp [Sys.spawn, hp]
    refine ⟨?_, ?_⟩
    · rw [hspawn]
      exact hkeep
    · intro t₁ ht₁
      rw [hspawn] at ht₁
      cases ht₁
      exact threadOk_rely (h.pump t hp) (heff.rely (ApiGuard.keeps hg) (fun _ => hlive))
  | none =>
    by_cases hlive : w'.pumpLive = true
    · have hspawn : (s.spawn cfg w' c).pump = some (pumpStart cfg w') := by
        simp [Sys.spawn, hp, hlive]
      refine ⟨?_, ?_⟩
      · rw [hspawn]
        exact hlive
      · intro t₁ ht₁
        rw [hspawn] at ht₁
        cases ht₁
        exact runWorkflow_ok hcore
    · have hspawn : (s.spawn cfg w' c).pump = none := by
        simp [Sys.spawn, hp, hlive]
      refine ⟨?_, ?_⟩
      · rw [hspawn]
        exact Bool.eq_false_iff.mpr hlive
      · intro t₁ ht₁
        rw [hspawn] at ht₁
        exact nomatch ht₁

/-- A call of a public call. -/
theorem step_callExec {cfg : Config} {s s' : Sys} {i : Nat} {inp : Input} (h : SysInv cfg s)
    (hs : step cfg s (.exec (.call i) inp) = some s') :
    SysInv cfg s' ∧ Move cfg s (.exec (.call i) inp) s'.w := by
  simp only [step] at hs
  split at hs
  · exact nomatch hs
  · rename_i t ht
    rw [Option.map_eq_some_iff] at hs
    obtain ⟨⟨t', w'⟩, hthread, rfl⟩ := hs
    obtain ⟨op, k, r, rfl, rfl, hex⟩ := threadExec_cases hthread
    have hmem := List.mem_of_getElem? ht
    obtain ⟨hg, hpost⟩ := threadOk_exec (h.calls _ hmem) h.core
    have heff := exec_effect hex
    have hnew : threadOk (apiContract cfg) ApiPost (.woken op r k) w' := hpost r w' ⟨inp, hex⟩
    obtain ⟨hlive, hpump⟩ := spawn_pump (c := s.calls.set i (.woken op r k)) h hg heff
    refine ⟨⟨heff.core h.core (ApiGuard.core hg), hlive, hpump, ?_⟩, ?_⟩
    · intro t₁ ht₁
      rcases List.mem_or_eq_of_mem_set ht₁ with ht₁ | rfl
      · exact threadOk_rely (h.calls t₁ ht₁) heff.mono
      · exact hnew
    · refine .call ?_ hg hex
      show s.calls[i]?.bind nextOp = some op
      rw [ht]
      rfl

theorem step_wake {cfg : Config} {s s' : Sys} {who : Who} (h : SysInv cfg s)
    (hs : step cfg s (.wake who) = some s') : SysInv cfg s' ∧ Move cfg s (.wake who) s'.w := by
  have hlive : ∀ (op : Op) (r : Except CallError (Ans op)),
      (noteWake op r s.w).pumpLive = s.w.pumpLive := by
    intro op r
    rcases noteWake_db op r s.w with h | h <;> rw [h]
  cases who with
  | pump =>
    simp only [step] at hs
    split at hs
    · exact nomatch hs
    · rename_i t ht
      rw [Option.map_eq_some_iff] at hs
      obtain ⟨⟨t', w'⟩, hthread, rfl⟩ := hs
      obtain ⟨op, r, k, rfl, rfl, rfl⟩ := threadWake_cases hthread
      refine ⟨⟨noteWake_core h.core op r, ?_, ?_, ?_⟩, .wake ?_⟩
      rotate_right
      · show s.pump.bind answerOf = some ⟨op, r⟩
        rw [ht]
        rfl
      · exact (hlive op r).trans (h.live.trans (by rw [ht]; rfl))
      · intro t₁ ht₁
        cases ht₁
        exact threadOk_wake (h.pump _ ht) h.core
      · exact fun t₁ ht₁ => threadOk_rely (h.calls t₁ ht₁) (noteWake_rely op r s.w).toMono
  | call i =>
    simp only [step] at hs
    split at hs
    · exact nomatch hs
    · rename_i t ht
      rw [Option.map_eq_some_iff] at hs
      obtain ⟨⟨t', w'⟩, hthread, rfl⟩ := hs
      obtain ⟨op, r, k, rfl, rfl, rfl⟩ := threadWake_cases hthread
      have hmem := List.mem_of_getElem? ht
      refine ⟨⟨noteWake_core h.core op r, (hlive op r).trans h.live, ?_, ?_⟩, .wake ?_⟩
      rotate_right
      · show s.calls[i]?.bind answerOf = some ⟨op, r⟩
        rw [ht]
        rfl
      · exact fun t₁ ht₁ => threadOk_rely (h.pump t₁ ht₁) (noteWake_rely op r s.w)
      · intro t₁ ht₁
        rcases List.mem_or_eq_of_mem_set ht₁ with ht₁ | rfl
        · exact threadOk_rely (h.calls t₁ ht₁) (noteWake_rely op r s.w).toMono
        · exact threadOk_wake (h.calls _ hmem) h.core

theorem step_unfold {cfg : Config} {s s' : Sys} {who : Who} (h : SysInv cfg s)
    (hs : step cfg s (.unfold who) = some s') : SysInv cfg s' ∧ Move cfg s (.unfold who) s'.w := by
  cases who with
  | pump =>
    simp only [step] at hs
    split at hs
    · exact nomatch hs
    · rename_i t ht
      rw [Option.map_eq_some_iff] at hs
      obtain ⟨t', hthread, rfl⟩ := hs
      obtain ⟨p, rfl, rfl⟩ := threadUnfold_cases hthread
      refine ⟨⟨h.core, h.live.trans (by rw [ht]; rfl), ?_, h.calls⟩, .unfold⟩
      intro t₁ ht₁
      cases ht₁
      exact threadOk_unfold (bodies_ok cfg) (h.pump _ ht)
  | call i =>
    simp only [step] at hs
    split at hs
    · exact nomatch hs
    · rename_i t ht
      rw [Option.map_eq_some_iff] at hs
      obtain ⟨t', hthread, rfl⟩ := hs
      obtain ⟨p, rfl, rfl⟩ := threadUnfold_cases hthread
      refine ⟨⟨h.core, h.live, h.pump, ?_⟩, .unfold⟩
      intro t₁ ht₁
      rcases List.mem_or_eq_of_mem_set ht₁ with ht₁ | rfl
      · exact h.calls t₁ ht₁
      · exact threadOk_unfold (apiBodies_ok cfg) (h.calls _ (List.mem_of_getElem? ht))

/-- A create request that is still out was made with its guard. -/
theorem pendingCreate_justified {cfg : Config} {s : Sys} {req : AgentTaskCreateRequest}
    (h : SysInv cfg s)
    (hreq : req ∈ s.pump.toList.flatMap pendingCreate ++ s.calls.flatMap pendingCreate) :
    Justified cfg (.createTask req) s.w := by
  have hpending : ∀ {α : Type} {t : Thread sig α}, req ∈ pendingCreate t →
      ∃ k, t = .run (.call (.createTask req) k) := by
    intro α t hmem
    unfold pendingCreate at hmem
    split at hmem
    · rw [List.mem_singleton] at hmem
      subst hmem
      exact ⟨_, rfl⟩
    · exact nomatch hmem
  rcases List.mem_append.mp hreq with hmem | hmem
  · obtain ⟨t, ht, hmem⟩ := List.mem_flatMap.mp hmem
    obtain ⟨k, rfl⟩ := hpending hmem
    exact (threadOk_exec (h.pump _ (Option.mem_toList.mp ht)) h.core).1
  · obtain ⟨t, ht, hmem⟩ := List.mem_flatMap.mp hmem
    obtain ⟨k, rfl⟩ := hpending hmem
    have hfalse : ApiGuard cfg (.createTask req) s.w := (threadOk_exec (h.calls _ ht) h.core).1
    exact hfalse.elim

/-- **Every step is a move**, and leaves every thread safe. -/
theorem step_move {cfg : Config} {s s' : Sys} {a : Action} (h : SysInv cfg s)
    (hs : step cfg s a = some s') : SysInv cfg s' ∧ Move cfg s a s'.w := by
  cases a with
  | exec who inp =>
    cases who with
    | pump => exact step_pumpExec h hs
    | call i => exact step_callExec h hs
  | wake who => exact step_wake h hs
  | unfold who => exact step_unfold h hs
  | settle =>
    simp only [step] at hs
    split at hs
    · rename_i r hp
      cases hs
      refine ⟨⟨settle_core h.core, rfl, fun _ ht => absurd ht (Option.some_ne_none _).symm, ?_⟩,
        .settle hp (threadOk_ret (h.pump _ hp) h.core)⟩
      intro t ht
      exact threadOk_rely (h.calls t ht) (.of_db rfl id (List.Subset.refl _) (List.Subset.refl _)
        (List.Subset.refl _) (sameTasks _) (Nat.le_refl _))
    · exact nomatch hs
  | leave i =>
    simp only [step] at hs
    split at hs
    · cases hs
      refine ⟨⟨h.core, h.live, h.pump, ?_⟩, .leave⟩
      exact fun t ht => h.calls t (List.mem_of_mem_eraseIdx ht)
    · exact nomatch hs
  | invoke c =>
    simp only [step] at hs
    cases hs
    refine ⟨?_, .invoke⟩
    have hcalled : Rely s.w (if c = .cancel then { s.w with cancelCalled := true } else s.w) := by
      split
      · exact called_rely s.w
      · exact Rely.refl s.w
    have hcore : CoreInv cfg (if c = .cancel then { s.w with cancelCalled := true } else s.w) := by
      split
      · exact called_core h.core
      · exact h.core
    refine ⟨hcore, ?_, ?_, ?_⟩
    · refine Eq.trans ?_ h.live
      split <;> rfl
    · exact fun t ht => threadOk_rely (h.pump t ht) hcalled
    · intro t ht
      rcases List.mem_append.mp ht with ht | ht
      · exact threadOk_rely (h.calls t ht) hcalled.toMono
      · rw [List.mem_singleton.mp ht]
        refine wp_mono (program_ok c ?_) (fun _ _ _ _ => trivial)
        rintro rfl
        exact Or.inl rfl
  | deliver req id =>
    simp only [step] at hs
    split at hs
    · rename_i hreq
      rw [Option.map_eq_some_iff] at hs
      obtain ⟨⟨taskId, w'⟩, hd, rfl⟩ := hs
      refine ⟨h.env (deliver_rely hd) (deliver_core h.core hd) ?_, .deliver hreq hd⟩
      rcases World.deliver_cases hd with ⟨rfl, -⟩ | ⟨rfl, -⟩ <;> rfl
    · exact nomatch hs
  | finish taskId status =>
    simp only [step] at hs
    split at hs
    · exact nomatch hs
    · rename_i hne
      cases hs
      exact ⟨h.env (finish_rely _ _ _) (h.core.of_db rfl id h.core.abort) rfl, .finish hne⟩
  | tick ms =>
    simp only [step] at hs
    cases hs
    exact ⟨h.env (tick_rely _ _ _) (h.core.of_db rfl id h.core.abort) rfl, .tick⟩
  | shutdown =>
    simp only [step] at hs
    cases hs
    exact ⟨h.env (shutdown_rely _) (shutdown_core h.core) rfl, .shutdown⟩
  | crash =>
    simp only [step] at hs
    cases hs
    refine ⟨⟨crash_core h.core _, rfl, fun _ ht => absurd ht (Option.some_ne_none _).symm,
      fun _ ht => absurd ht List.not_mem_nil⟩, .crash ?_⟩
    exact fun req hreq => pendingCreate_justified h hreq

/-! ## Runs -/

theorem initial_inv (cfg : Config) : SysInv cfg (initial cfg) where
  core := initial_core cfg
  live := rfl
  pump := fun _ ht => absurd ht (Option.some_ne_none _).symm
  calls := fun _ ht => absurd ht List.not_mem_nil

/-- **Every thread of every reachable system is safe where it stands.** -/
theorem reach_inv {cfg : Config} {ok : Sys → Action → Prop} {s : Sys} (h : Reach cfg ok s) :
    SysInv cfg s := by
  induction h with
  | start => exact initial_inv cfg
  | step _ _ hs ih => exact (step_move ih hs).1

/-- Properties of worlds that hold at the start and are kept by every allowed move hold in
    every reachable state. -/
theorem reach_world {cfg : Config} {ok : Sys → Action → Prop} {P : World → Prop}
    (hstart : P (initial cfg).w)
    (hmove : ∀ s a w', SysInv cfg s → ok s a → Move cfg s a w' → P s.w → P w') {s : Sys}
    (h : Reach cfg ok s) : P s.w := by
  induction h with
  | start => exact hstart
  | @step s s' a hr hok hs ih =>
    have hinv := reach_inv hr
    exact hmove s a s'.w hinv hok (step_move hinv hs).2 ih

/-! ## From one state to a later one -/

/-- The states that allowed steps lead to from a given one. -/
inductive Steps (cfg : Config) (ok : Sys → Action → Prop) (s : Sys) : Sys → Prop where
  | refl : Steps cfg ok s s
  | step {s₁ s₂ : Sys} {a : Action} : Steps cfg ok s s₁ → ok s₁ a → step cfg s₁ a = some s₂ →
      Steps cfg ok s s₂

theorem Steps.reach {cfg : Config} {ok : Sys → Action → Prop} {s s' : Sys} (h : Steps cfg ok s s')
    (hs : Reach cfg ok s) : Reach cfg ok s' := by
  induction h with
  | refl => exact hs
  | step _ hok hstep ih => exact .step ih hok hstep

/-- A property of worlds that every allowed move keeps is kept from one state to a later one. -/
theorem steps_world {cfg : Config} {ok : Sys → Action → Prop} {P : World → Prop}
    (hmove : ∀ s a w', SysInv cfg s → ok s a → Move cfg s a w' → P s.w → P w') {s s' : Sys}
    (h : Steps cfg ok s s') (hs : Reach cfg ok s) (hP : P s.w) : P s'.w := by
  induction h with
  | refl => exact hP
  | @step s₁ s₂ a hst hok hstep ih =>
    have hinv := reach_inv (hst.reach hs)
    exact hmove s₁ a s₂.w hinv hok (step_move hinv hstep).2 ih

/-- A sequence of actions whose steps are checked. -/
def runWhile (cfg : Config) (good : Sys → Action → Bool) : Sys → List Action → Option Sys
  | s, [] => some s
  | s, a :: as =>
    if good s a then
      match step cfg s a with
      | some s' => runWhile cfg good s' as
      | none => none
    else none

/-- An executed sequence of checked actions is a run. -/
theorem reach_of_runWhile {cfg : Config} {ok : Sys → Action → Prop} {good : Sys → Action → Bool}
    (hgood : ∀ s a, good s a = true → ok s a) {s s' : Sys} {as : List Action} (hs : Reach cfg ok s)
    (h : runWhile cfg good s as = some s') : Reach cfg ok s' := by
  induction as generalizing s with
  | nil =>
    cases h
    exact hs
  | cons a as ih =>
    unfold runWhile at h
    split at h
    · rename_i hg
      split at h
      · rename_i s₁ hstep
        exact ih (.step hs (hgood s a hg) hstep) h
      · exact nomatch h
    · exact nomatch h

/-- A checked run that leads to a state with a property. -/
theorem reach_exists (cfg : Config) (ok : Sys → Action → Prop) (good : Sys → Action → Bool)
    (hgood : ∀ s a, good s a = true → ok s a) (as : List Action) (P : Sys → Bool)
    (h : (runWhile cfg good (initial cfg) as).any P = true) :
    ∃ s, Reach cfg ok s ∧ P s = true := by
  rw [Option.any_eq_true] at h
  obtain ⟨s, hs, hP⟩ := h
  exact ⟨s, reach_of_runWhile hgood .start hs, hP⟩

/-! ## A small workflow -/

theorem oneStepSpec_loaded : some (WorkflowSpec.ofJson oneStepSpec) = loadSpec oneStepSpec := by
  have hv : (validateWorkflowSpec oneStepSpec).valid = true := by decide +kernel
  unfold loadSpec
  rw [if_pos hv]

/-- The configuration of that workflow, with the one result text its agent gives. -/
def oneStep : Config where
  workflowId := "wf"
  rawSpec := oneStepSpec
  loaded := some (WorkflowSpec.ofJson oneStepSpec)
  loaded_eq := oneStepSpec_loaded
  inputs := []
  leaseClient := false
  jsonParse := fun text =>
    if text = "\x7b\"k\":\"x\"\x7d" then some (.obj [("k", .str "x")]) else none
  digest := id
  digest_inj := fun _ _ h => h
  filesHash := fun files => " ".intercalate files
  resultIngestionDeadlineMs := 60000
  maxReleaseAttempts := 3

/-- The calls of a start, up to its registered pump. -/
def startActions : List Action :=
  [.invoke .start, .exec (.call 0) .run, .wake (.call 0), .exec (.call 0) .run, .wake (.call 0),
    .exec (.call 0) .run, .wake (.call 0), .leave 0]

/-- The pump's calls up to its create call. -/
def renderActions : List Action :=
  [.unfold .pump, .exec .pump .run, .wake .pump, .exec .pump .run, .wake .pump, .exec .pump .run,
    .wake .pump, .exec .pump .run, .wake .pump, .exec .pump .run, .wake .pump, .exec .pump .run,
    .wake .pump, .unfold .pump]

/-- The pump's calls from its create call up to its wait. -/
def bindActions : List Action :=
  [.exec .pump (.created "t"), .wake .pump, .exec .pump .run, .wake .pump, .exec .pump .run,
    .wake .pump, .unfold .pump]

/-- The task completes with a valid result, and the pump stores it. -/
def resultActions : List Action :=
  [.finish "t" .completed, .exec .pump (.waited true .available (some "\x7b\"k\":\"x\"\x7d") 1),
    .wake .pump, .exec .pump .run, .wake .pump, .unfold .pump, .exec .pump .run, .wake .pump,
    .exec .pump .run, .wake .pump]

/-- The pump takes a completed step to its evidence, reads it as given, and records it. -/
def evidenceActions (status : Input) : List Action :=
  [.unfold .pump, .exec .pump .run, .wake .pump, .exec .pump .run, .wake .pump, .exec .pump status,
    .wake .pump, .exec .pump (.taskResult none), .wake .pump, .exec .pump .run, .wake .pump]

/-- The pump routes the completed step to the end, on its task's status. -/
def routeActions : List Action :=
  evidenceActions (.taskRow (some "completed")) ++ [.exec .pump .run, .wake .pump]

end VibeRuntime
