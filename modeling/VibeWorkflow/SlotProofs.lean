import VibeWorkflow.CallRunProofs
import VibeWorkflow.KeyedMapProofs

/-!
# Active-task slots

The Gateway admits a create while registered and reserved tasks are below its maximum.  A create holds a
reservation from its admission until its task is registered or it fails; the handler gives it back by hand
on every exit.  Two exits get it wrong: the prompt file is written outside any `try`, so a failed write
keeps the reservation for good; and when a local create that lost the race for its key cannot read the
winner, the `catch` around it gives the reservation back a second time.

* `Slots.enter`, `Slots.nodes`, `Slots.started` — `handleCreate`, cut at its awaits;
* `Slots.finishTask` — `finishTask` with the eviction of old tasks;
* `SlotInv` — the two counters count;
* **`slots_accounted`** — every run in which neither exit is taken.
-/

namespace VibeSlots

open KeyedMap CallRuns

/-! ## Requests and nodes -/

structure Config where
  maxActive : Nat
  maxRetained : Nat
  remoteEnabled : Bool
  persist : Bool
  localAgents : List String

structure Request where
  nodeId : Option String
  agent : String
  workspaceLeaseId : Option String
  workspacePath : Option String
  idempotencyKey : Option String

/-- `Boolean(s)` of an optional text. -/
def given (s : Option String) : Bool := s.any (fun t => t ≠ "")

def Request.isRemote (r : Request) : Bool :=
  given r.nodeId && r.nodeId ≠ some "local" && r.nodeId ≠ some "auto"

/-- What the look-up of the key found; a failed one counts as nothing. -/
inductive Existing where
  | absent
  | same
  | different
deriving DecidableEq

/-- The exits before the reservation. -/
def refusedEarly (cfg : Config) (r : Request) (existing : Existing) : Bool :=
  (r.isRemote && !cfg.remoteEnabled) ||
  (!r.isRemote && !cfg.localAgents.contains r.agent) ||
  (given r.workspaceLeaseId && !r.isRemote) ||
  (given r.workspacePath && !r.isRemote) ||
  (given r.idempotencyKey && (!cfg.persist || existing ≠ .absent))

structure RemoteNode where
  nodeId : String
  online : Bool
  agents : Option (List String)
  encryptionPublicKey : Option String
  capabilities : Option (List String)

def RemoteNode.capable (n : RemoteNode) (capability : String) : Bool :=
  n.capabilities.any (fun cs => cs.contains capability)

/-- The preflight of a remote create over the relay's list of nodes. -/
def preflight (nodes : List RemoteNode) (r : Request) : Bool :=
  match nodes.find? (fun n => some n.nodeId = r.nodeId) with
  | none => false
  | some n => n.online && n.agents.any (fun as => as.contains r.agent) && given n.encryptionPublicKey &&
      (!given r.workspaceLeaseId || n.capable "workspace_lease_v1") &&
      (!given r.workspacePath || n.capable "cwd")

/-- What `persistCreate` did: it threw, found that another create won the key, or created the task. -/
inductive Created where
  | failed
  | lost
  | created
deriving DecidableEq

/-! ## The Gateway -/

/-- Where a create with a reservation is: it waits for the list of nodes, for the remote start of a task it
    has stored, or for a start after which it registers the started run. -/
inductive Phase where
  | preflight (req : Request)
  | remoteStart (taskId : String)
  | start (req : Request)

structure Slots where
  active : Int
  pending : Int
  /-- Registered tasks, and whether each is terminal. -/
  tasks : List (String × Bool)
  completedOrder : List String
  creates : List (Nat × Phase)

namespace Slots

def release (s : Slots) : Slots := { s with pending := s.pending - 1 }

def leave (s : Slots) (i : Nat) : Slots := { s with creates := delete s.creates i }

def await (s : Slots) (i : Nat) (p : Phase) : Slots := { s with creates := set s.creates i p }

/-- The reservation becomes a registered task. -/
def register (s : Slots) (taskId : String) : Slots :=
  { s with tasks := set s.tasks taskId false, pending := s.pending - 1, active := s.active + 1 }

/-- A create up to its first await. -/
def enter (cfg : Config) (s : Slots) (i : Nat) (req : Request) (existing : Existing) (written : Bool) : Slots :=
  if refusedEarly cfg req existing then s
  else if s.active + s.pending ≥ cfg.maxActive then s
  else
    let s := { s with pending := s.pending + 1 }
    if req.isRemote then s.await i (.preflight req)
    else if !written then s  -- `fs.writeFileSync` throws out of the handler
    else s.await i (.start req)

/-- The list of nodes has come, or has failed to. -/
def nodes (cfg : Config) (s : Slots) (i : Nat) (req : Request) (list : Option (List RemoteNode))
    (written : Bool) (create : Created) (taskId : String) : Slots :=
  let s := s.leave i
  match list with
  | none => s.release
  | some list =>
    if !preflight list req then s.release
    else if !written then s
    else if cfg.persist then
      match create with
      | .failed | .lost => s.release
      | .created => s.await i (.remoteStart taskId)
    else s.await i (.start req)

/-- The remote start of a stored task has succeeded or failed. -/
def remoteStarted (s : Slots) (i : Nat) (taskId : String) (ok : Bool) : Slots :=
  if ok then (s.leave i).register taskId else (s.leave i).release

/-- A start has returned the id of its run, or failed.  A create that lost its key reads the winner inside
    the `try` whose `catch` releases. -/
def started (cfg : Config) (s : Slots) (i : Nat) (run : Option String) (create : Created) (reread : Bool) : Slots :=
  let s := s.leave i
  match run with
  | none => s.release
  | some id =>
    if cfg.persist then
      match create with
      | .failed => s.release
      | .lost => if reread then s.release else s.release.release
      | .created => s.register id
    else s.register id

/-- `evictIfNeeded`, over at most the tasks that are there to evict. -/
def evict (maxRetained : Nat) : List String → List (String × Bool) → List (String × Bool) × List String
  | [], tasks => (tasks, [])
  | victim :: order, tasks =>
    if maxRetained < order.length + 1 then
      evict maxRetained order (if get tasks victim = some true then delete tasks victim else tasks)
    else (tasks, victim :: order)

def finishTask (cfg : Config) (s : Slots) (taskId : String) : Slots :=
  match get s.tasks taskId with
  | some false =>
    let kept := evict cfg.maxRetained (s.completedOrder ++ [taskId]) (set s.tasks taskId true)
    { s with active := s.active - 1, tasks := kept.1, completedOrder := kept.2 }
  | _ => s

end Slots

/-! ## Runs -/

/-- What happens next, with the outcome of each step that may fail. -/
inductive Event where
  | enter (i : Nat) (req : Request) (existing : Existing) (written : Bool)
  | nodes (i : Nat) (list : Option (List RemoteNode)) (written : Bool) (create : Created) (taskId : String)
  | started (i : Nat) (run : Option String) (create : Created) (reread : Bool)
  | finish (taskId : String)

def Slots.step (cfg : Config) (s : Slots) : Event → Slots
  | .enter i req existing written =>
    if (get s.creates i).isSome then s else s.enter cfg i req existing written
  | .nodes i list written create taskId =>
    match get s.creates i with
    | some (.preflight req) => s.nodes cfg i req list written create taskId
    | _ => s
  | .started i run create reread =>
    match get s.creates i with
    | some (.remoteStart taskId) => s.remoteStarted i taskId run.isSome
    | some (.start _) => s.started cfg i run create reread
    | _ => s
  | .finish taskId => s.finishTask cfg taskId

/-- The tasks a restarted Gateway has registered again. -/
def Slots.initial (recovered : List String) : Slots :=
  { active := recovered.length, pending := 0, tasks := recovered.map (fun id => (id, false)),
    completedOrder := [], creates := [] }

/-! ## The counters count -/

/-- The registered tasks that are not terminal. -/
def running (tasks : List (String × Bool)) : Nat := (tasks.filter (fun p => !p.2)).length

/-- `active` counts the registered tasks that run, `pending` the creates that hold a reservation. -/
structure SlotInv (s : Slots) : Prop where
  tasks : Unique s.tasks
  creates : Unique s.creates
  active : s.active = running s.tasks
  pending : s.pending = s.creates.length

theorem running_new {tasks : List (String × Bool)} {id : String} (h : get tasks id = none) :
    running (set tasks id false) = running tasks + 1 := by
  unfold running
  rw [set_new h, List.filter_append, List.length_append]
  rfl

theorem running_done {tasks : List (String × Bool)} {id : String} (h : get tasks id = some false) :
    running (set tasks id true) + 1 = running tasks := by
  induction tasks with
  | nil => exact nomatch h
  | cons p tasks ih =>
    obtain ⟨q, b⟩ := p
    unfold running at ih ⊢
    rw [KeyedMap.get] at h
    rw [KeyedMap.set]
    split at h
    · rename_i hq
      cases h
      rw [if_pos hq]
      rfl
    · rename_i hq
      rw [if_neg hq]
      cases b with
      | true => exact ih h
      | false =>
        show (List.filter _ (set tasks id true)).length + 1 + 1 = (List.filter _ tasks).length + 1
        rw [ih h]

/-- Evicting a terminal task leaves the running ones. -/
theorem running_delete {tasks : List (String × Bool)} {id : String} (hu : Unique tasks)
    (h : get tasks id = some true) : running (delete tasks id) = running tasks := by
  unfold running delete
  rw [List.filter_filter]
  congr 1
  refine List.filter_congr fun p hp => ?_
  by_cases hid : p.1 = id
  · have hget := get_of_mem hu (show (p.1, p.2) ∈ tasks from hp)
    rw [hid, h] at hget
    rw [← Option.some.inj hget]
    rfl
  · rw [decide_eq_true hid, Bool.and_true]

theorem evict_spec (maxRetained : Nat) (order : List String) {tasks : List (String × Bool)} (hu : Unique tasks) :
    Unique (Slots.evict maxRetained order tasks).1 ∧
      running (Slots.evict maxRetained order tasks).1 = running tasks := by
  induction order generalizing tasks with
  | nil => exact ⟨hu, rfl⟩
  | cons victim order ih =>
    rw [Slots.evict]
    split
    · by_cases hv : get tasks victim = some true
      · rw [if_pos hv]
        obtain ⟨hu', hr⟩ := ih (hu.filter _ : Unique (delete tasks victim))
        exact ⟨hu', hr.trans (running_delete hu hv)⟩
      · rw [if_neg hv]
        exact ih hu
    · exact ⟨hu, rfl⟩

/-! ## One step -/

/-- The two exits are not taken, and no run comes with the id of a registered task. -/
def Slots.Sound (s : Slots) : Event → Prop
  | .enter _ _ _ written => written = true
  | .nodes _ _ written _ _ => written = true
  | .started i run create reread => (create = .lost → reread = true) ∧
      match get s.creates i with
      | some (.remoteStart taskId) => get s.tasks taskId = none
      | some (.start _) => ∀ id, run = some id → get s.tasks id = none
      | _ => True
  | .finish _ => True

namespace SlotInv

variable {cfg : Config} {s : Slots} {i : Nat}

/-- A create gives up its place and its reservation. -/
theorem leave_release (h : SlotInv s) {p : Phase} (hp : get s.creates i = some p) :
    SlotInv (s.leave i).release := by
  refine ⟨h.tasks, h.creates.filter _, h.active, ?_⟩
  show s.pending - 1 = (delete s.creates i).length
  rw [h.pending, ← length_delete h.creates hp]
  omega

/-- A create goes on to its next await. -/
theorem leave_await (h : SlotInv s) {p : Phase} (hp : get s.creates i = some p) (q : Phase) :
    SlotInv ((s.leave i).await i q) := by
  have hgone : get (delete s.creates i) i = none := by
    rw [get_delete, if_pos rfl]
  refine ⟨h.tasks, Unique.set (h.creates.filter _) i q, h.active, ?_⟩
  show s.pending = (set (delete s.creates i) i q).length
  rw [set_new hgone, List.length_append, List.length_singleton, h.pending, ← length_delete h.creates hp]

/-- A create becomes a registered task. -/
theorem leave_register (h : SlotInv s) {p : Phase} (hp : get s.creates i = some p) {id : String}
    (hnew : get s.tasks id = none) : SlotInv ((s.leave i).register id) := by
  refine ⟨h.tasks.set id false, h.creates.filter _, ?_, ?_⟩
  · show s.active + 1 = running (set s.tasks id false)
    rw [running_new hnew, h.active]
    omega
  · show s.pending - 1 = (delete s.creates i).length
    rw [h.pending, ← length_delete h.creates hp]
    omega

theorem enter (h : SlotInv s) (hi : get s.creates i = none) (req : Request) (existing : Existing) :
    SlotInv (s.enter cfg i req existing true) := by
  have hplace : ∀ q, SlotInv (({ s with pending := s.pending + 1 } : Slots).await i q) := by
    intro q
    refine ⟨h.tasks, h.creates.set i q, h.active, ?_⟩
    show s.pending + 1 = (set s.creates i q).length
    rw [set_new hi, List.length_append, List.length_singleton, h.pending]
    omega
  unfold Slots.enter
  split
  · exact h
  split
  · exact h
  dsimp only
  split
  · exact hplace _
  · exact hplace _

theorem nodes (h : SlotInv s) {req : Request} (hp : get s.creates i = some (.preflight req))
    (list : Option (List RemoteNode)) (create : Created) (taskId : String) :
    SlotInv (s.nodes cfg i req list true create taskId) := by
  unfold Slots.nodes
  dsimp only
  split
  · exact h.leave_release hp
  split
  · exact h.leave_release hp
  rw [if_neg (by decide)]
  split
  · split
    · exact h.leave_release hp
    · exact h.leave_release hp
    · exact h.leave_await hp _
  · exact h.leave_await hp _

theorem started (h : SlotInv s) {req : Request} (hp : get s.creates i = some (.start req)) {run : Option String}
    {create : Created} {reread : Bool} (hread : create = .lost → reread = true)
    (hnew : ∀ id, run = some id → get s.tasks id = none) :
    SlotInv (s.started cfg i run create reread) := by
  unfold Slots.started
  dsimp only
  split
  · exact h.leave_release hp
  rename_i id
  split
  · split
    · exact h.leave_release hp
    · rw [if_pos (hread rfl)]
      exact h.leave_release hp
    · exact h.leave_register hp (hnew id rfl)
  · exact h.leave_register hp (hnew id rfl)

theorem finishTask (h : SlotInv s) (taskId : String) : SlotInv (s.finishTask cfg taskId) := by
  unfold Slots.finishTask
  split
  · rename_i hrun
    obtain ⟨hu, hr⟩ := evict_spec cfg.maxRetained (s.completedOrder ++ [taskId]) (h.tasks.set taskId true)
    refine ⟨hu, h.creates, ?_, h.pending⟩
    show s.active - 1 = running (Slots.evict _ _ _).1
    rw [hr, h.active, ← running_done hrun]
    omega
  · exact h

/-- **Every sound step keeps it.** -/
theorem step (h : SlotInv s) {e : Event} (hs : s.Sound e) : SlotInv (s.step cfg e) := by
  unfold Slots.step
  cases e with
  | enter i req existing written =>
    dsimp only
    split
    · exact h
    · rename_i hi
      cases (hs : written = true)
      exact h.enter (Option.not_isSome_iff_eq_none.mp hi) req existing
  | nodes i list written create taskId =>
    dsimp only
    split
    · rename_i req hp
      cases (hs : written = true)
      exact h.nodes hp list create taskId
    · exact h
  | started i run create reread =>
    obtain ⟨hread, hnew⟩ := hs
    dsimp only
    split
    · rename_i taskId hp
      rw [hp] at hnew
      unfold Slots.remoteStarted
      split
      · exact h.leave_register hp hnew
      · exact h.leave_release hp
    · rename_i req hp
      rw [hp] at hnew
      exact h.started hp hread hnew
    · exact h
  | finish taskId => exact h.finishTask taskId

theorem initial {recovered : List String} (hr : recovered.Nodup) : SlotInv (Slots.initial recovered) := by
  refine ⟨?_, List.nodup_nil, ?_, rfl⟩
  · show ((recovered.map fun id => (id, false)).map Prod.fst).Nodup
    rw [List.map_map]
    exact (List.map_id' recovered).symm ▸ hr
  · show (recovered.length : Int) = running (recovered.map fun id => (id, false))
    unfold running
    rw [List.filter_eq_self.mpr (fun p hp => ?_), List.length_map]
    obtain ⟨id, -, rfl⟩ := List.mem_map.mp hp
    rfl

end SlotInv

/-! ## Every run -/

/-- A create is admitted only below the maximum. -/
theorem admit_within (cfg : Config) (s : Slots) {i : Nat} {req : Request} {existing : Existing} {written : Bool}
    (h : (s.step cfg (.enter i req existing written)).pending = s.pending + 1) :
    (s.step cfg (.enter i req existing written)).active +
      (s.step cfg (.enter i req existing written)).pending ≤ cfg.maxActive := by
  have hkept : s.pending ≠ s.pending + 1 := by omega
  have hactive : (s.step cfg (.enter i req existing written)).active = s.active := by
    unfold Slots.step Slots.enter Slots.await
    dsimp only
    split
    · rfl
    split
    · rfl
    split
    · rfl
    split
    · rfl
    split <;> rfl
  rw [hactive, h]
  unfold Slots.step Slots.enter at h
  dsimp only at h
  split at h
  · exact absurd h hkept
  split at h
  · exact absurd h hkept
  split at h
  · exact absurd h hkept
  · omega

/-- **Slots are accounted for** in every run in which every prompt file is written, every create that lost its
    key can read the winner, and started runs have new ids: the active count is the number of registered tasks
    that are not terminal, the reservation is the number of creates in progress, and a create is admitted only
    within the maximum. -/
theorem slots_accounted (cfg : Config) (recovered : List String) (hr : recovered.Nodup) (events : List Event)
    (hall : Always (Slots.step cfg) Slots.Sound (Slots.initial recovered) events) :
    let s := run (Slots.step cfg) (Slots.initial recovered) events
    s.active = running s.tasks ∧ s.pending = s.creates.length ∧ (s.creates = [] → s.pending = 0) ∧
    ∀ i req existing written,
      (s.step cfg (.enter i req existing written)).pending = s.pending + 1 →
      (s.step cfg (.enter i req existing written)).active +
        (s.step cfg (.enter i req existing written)).pending ≤ cfg.maxActive := by
  intro s
  have h : SlotInv s := hall.inv_run SlotInv (fun s e h hs => h.step hs) (SlotInv.initial hr)
  refine ⟨h.active, h.pending, fun hnone => ?_, fun _ _ _ _ => admit_within cfg s⟩
  rw [h.pending, hnone]
  rfl

/-- A Gateway with one slot. -/
def oneSlot : Config :=
  { maxActive := 1, maxRetained := 10, remoteEnabled := false, persist := true, localAgents := ["mock"] }

def localRequest (key : Option String) : Request :=
  { nodeId := none, agent := "mock", workspaceLeaseId := none, workspacePath := none, idempotencyKey := key }

/-- A local create that registers and ends, and one that loses its key. -/
theorem slots_accounted_local :
    let s := run (Slots.step oneSlot) (Slots.initial [])
      [.enter 0 (localRequest none) .absent true, .started 0 (some "run_a") .created true, .finish "run_a",
        .enter 1 (localRequest (some "k")) .absent true, .started 1 (some "run_b") .lost true]
    s.active = running s.tasks ∧ s.creates = [] ∧ s.pending = 0 := by
  have h := slots_accounted oneSlot [] List.nodup_nil
    [.enter 0 (localRequest none) .absent true, .started 0 (some "run_a") .created true, .finish "run_a",
      .enter 1 (localRequest (some "k")) .absent true, .started 1 (some "run_b") .lost true]
    ⟨rfl, ⟨(fun _ => rfl), fun id _ => rfl⟩, trivial, rfl, ⟨(fun _ => rfl), by
      intro id hid
      cases hid
      decide +kernel⟩, trivial⟩
  exact ⟨h.1, by decide +kernel, h.2.2.1 (by decide +kernel)⟩

/-- A prompt file that cannot be written keeps its reservation for good: with one slot, no create is admitted
    any more though nothing runs. -/
theorem unwritten_prompt_keeps_slot :
    let s := (Slots.initial []).step oneSlot (.enter 0 (localRequest none) .absent false)
    s.creates = [] ∧ s.pending = 1 ∧
      (s.step oneSlot (.enter 1 (localRequest none) .absent true)).creates = [] := by
  decide +kernel

end VibeSlots
