import VibeWorkflow.ContractProofs
import VibeWorkflow.NodeLeaseProofs
import VibeWorkflow.PageProofs

/-!
# What recovery finds

After a restart `recoverWorkflows` scans the store: running workflows get a pump, leases that terminal
workflows still hold are released, and ready workflows with an unconfirmed lease are reconciled.  The
workflows are read through a query that returns at most a thousand rows, and only the first page is read.

* `listWorkflows`, `listReleasableWorkspaceLeases` — the queries;
* `recoverWorkflows` — the scan, with every write it makes and any answers of the Nodes;
* **`recovery_complete_iff`** — the scan is complete exactly when nothing it should find is beyond a page;
* **`many_running_missed`** — a store with one running workflow too many.
-/

namespace VibeRecoverScan

open VibeContract VibeNode Paging

/-! ## The store -/

structure WorkflowRow where
  workflowId : String
  createdAt : String
  status : WorkflowStatus
deriving DecidableEq

structure LeaseProjection where
  workspaceLeaseId : String
  workflowId : String
  nodeId : String
  workspaceKey : String
  status : LeaseStatus
deriving DecidableEq

/-- The two tables recovery reads, with their primary keys. -/
structure Store where
  workflows : List WorkflowRow
  leases : List LeaseProjection
  workflowIds : (workflows.map (·.workflowId)).Nodup
  leaseIds : (leases.map (·.workspaceLeaseId)).Nodup

/-- `clampLimit(undefined)`. -/
def defaultLimit : Nat := 1000

/-- `ORDER BY created_at ASC, workflow_id ASC`. -/
def listKey (w : WorkflowRow) : String ×ₗ String := toLex (w.createdAt, w.workflowId)

/-- `listWorkflows({ status })`, with the default page. -/
def listWorkflows (rows : List WorkflowRow) (status : WorkflowStatus) : List WorkflowRow :=
  selectPage listKey defaultLimit (rows.filter fun w => w.status = status)

/-- `ORDER BY node_id ASC, workspace_key ASC`. -/
def leaseKey (l : LeaseProjection) : String ×ₗ String := toLex (l.nodeId, l.workspaceKey)

/-- The workflow of the lease has ended. -/
def ownerEnded (workflows : List WorkflowRow) (l : LeaseProjection) : Bool :=
  workflows.any fun w => w.workflowId = l.workflowId && isTerminalWorkflowStatus w.status

/-- `listReleasableWorkspaceLeases`: no limit. -/
def listReleasableWorkspaceLeases (workflows : List WorkflowRow) (leases : List LeaseProjection) :
    List LeaseProjection :=
  (leases.filter fun l => l.status.inForce && ownerEnded workflows l).insertionSort fun a b => leaseKey a ≤ leaseKey b

def setStatus (leases : List LeaseProjection) (leaseId : String) (status : LeaseStatus) : List LeaseProjection :=
  leases.map fun l => if l.workspaceLeaseId = leaseId && l.status ≠ .released then { l with status } else l

/-- `requestWorkspaceLeaseRelease` and `markWorkspaceLeaseReleased`; `none` is `not_found`. -/
def updateLease (leases : List LeaseProjection) (leaseId : String) (status : LeaseStatus) :
    Option (List LeaseProjection) :=
  if leases.any (fun l => l.workspaceLeaseId = leaseId) then some (setStatus leases leaseId status) else none

/-! ## The runtime -/

inductive ReleaseAnswer where
  | released
  | transient
  | fatal
deriving DecidableEq

/-- A runtime when `recoverWorkflows` is called: its configuration, the pumps and timers it has, and what the
    Nodes will answer to its release requests, in order. -/
structure Runtime where
  leaseClient : Bool
  stopped : Bool
  maxReleaseAttempts : Nat
  pumps : List String
  timers : List String
  answers : Nat → ReleaseAnswer

/-- What recovery changes: the lease table, the requests sent, the pumps and the timers. -/
structure Scan where
  leases : List LeaseProjection
  requests : List (String × String)
  pumps : List String
  timers : List String

/-- `ensurePump`: one pump per workflow. -/
def ensurePump (s : Scan) (workflowId : String) : Scan :=
  if s.pumps.contains workflowId then s else { s with pumps := s.pumps ++ [workflowId] }

/-- `scheduleLeaseReconcile`: one timer per workflow. -/
def scheduleLeaseReconcile (rt : Runtime) (s : Scan) (workflowId : String) : Scan :=
  if rt.stopped || s.timers.contains workflowId then s else { s with timers := s.timers ++ [workflowId] }

/-- The loop of `releaseLeaseWithRetry`. -/
def releaseAttempts (rt : Runtime) (l : LeaseProjection) : Nat → Scan → Scan
  | 0, s => s
  | attempts + 1, s =>
    if rt.stopped then s
    else
      let sent := { s with requests := s.requests ++ [(l.nodeId, l.workspaceLeaseId)] }
      match rt.answers s.requests.length with
      | .released => { sent with leases := (updateLease s.leases l.workspaceLeaseId .released).getD s.leases }
      | .transient => releaseAttempts rt l attempts sent
      | .fatal => sent

/-- `recoverLeaseReleases`: a write that throws ends it, and the caller goes on. -/
def releaseEach (rt : Runtime) : List LeaseProjection → Scan → Scan
  | [], s => s
  | l :: pending, s =>
    match updateLease s.leases l.workspaceLeaseId .releaseRequested with
    | none => s
    | some leases => releaseEach rt pending (releaseAttempts rt l rt.maxReleaseAttempts { s with leases })

def recoverLeaseReleases (rt : Runtime) (workflows : List WorkflowRow) (s : Scan) : Scan :=
  if rt.leaseClient then releaseEach rt (listReleasableWorkspaceLeases workflows s.leases) s else s

def hasAcquiring (leases : List LeaseProjection) (workflowId : String) : Bool :=
  leases.any fun l => l.workflowId = workflowId && l.status = .acquiring

def reconcileReady (rt : Runtime) (workflows : List WorkflowRow) (s : Scan) : Scan :=
  if rt.leaseClient then
    (listWorkflows workflows .ready).foldl
      (fun s w => if hasAcquiring s.leases w.workflowId then scheduleLeaseReconcile rt s w.workflowId else s) s
  else s

/-- **`recoverWorkflows`**. -/
def recoverWorkflows (rt : Runtime) (store : Store) : Scan :=
  let s : Scan := ⟨store.leases, [], rt.pumps, rt.timers⟩
  let s := ((listWorkflows store.workflows .running).map (·.workflowId)).foldl ensurePump s
  let s := recoverLeaseReleases rt store.workflows s
  reconcileReady rt store.workflows s

/-! ## Completeness -/

/-- **Recovery is complete**: every running workflow has a pump, every ready workflow with an unconfirmed
    lease a reconciliation, and every lease an ended workflow holds was asked to be released. -/
structure Complete (store : Store) (s : Scan) : Prop where
  pumped : ∀ w ∈ store.workflows, w.status = .running → w.workflowId ∈ s.pumps
  reconciled : ∀ w ∈ store.workflows, w.status = .ready → hasAcquiring store.leases w.workflowId = true →
    w.workflowId ∈ s.timers
  released : ∀ l ∈ store.leases, l.status.inForce = true → ownerEnded store.workflows l = true →
    (l.nodeId, l.workspaceLeaseId) ∈ s.requests

/-- The place of a workflow among those of its status. -/
def place (store : Store) (w : WorkflowRow) : Nat :=
  rank listKey (store.workflows.filter fun v => v.status = w.status) w

/-- **Nothing is beyond a page**: the running workflows, and the ready ones with an unconfirmed lease, are
    among the first thousand of their status unless they are attended to already; and where there are leases
    to attend to, the runtime has a lease client, tries, and is not shut down. -/
structure WithinPages (rt : Runtime) (store : Store) : Prop where
  running : ∀ w ∈ store.workflows, w.status = .running → w.workflowId ∈ rt.pumps ∨ place store w < defaultLimit
  ready : ∀ w ∈ store.workflows, w.status = .ready → hasAcquiring store.leases w.workflowId = true →
    w.workflowId ∈ rt.timers ∨ rt.leaseClient = true ∧ rt.stopped = false ∧ place store w < defaultLimit
  held : ∀ l ∈ store.leases, l.status.inForce = true → ownerEnded store.workflows l = true →
    rt.leaseClient = true ∧ rt.stopped = false ∧ 0 < rt.maxReleaseAttempts

/-! ### The query -/

theorem listKey_nodup (store : Store) (p : WorkflowRow → Bool) : ((store.workflows.filter p).map listKey).Nodup := by
  have hids : ((store.workflows.filter p).map (·.workflowId)).Nodup :=
    store.workflowIds.sublist (List.filter_sublist.map _)
  refine List.Nodup.of_map (fun k => (ofLex k).2) ?_
  rw [List.map_map]
  exact hids

theorem mem_listWorkflows_iff (store : Store) {w : WorkflowRow} (hw : w ∈ store.workflows) :
    w ∈ listWorkflows store.workflows w.status ↔ place store w < defaultLimit :=
  mem_selectPage_iff (listKey_nodup store _) (List.mem_filter.mpr ⟨hw, by simp⟩) _

theorem mem_of_listed {rows : List WorkflowRow} {status : WorkflowStatus} {w : WorkflowRow}
    (h : w ∈ listWorkflows rows status) : w ∈ rows ∧ w.status = status := by
  obtain ⟨hw, hstatus⟩ := List.mem_filter.mp (mem_of_mem_selectPage h)
  exact ⟨hw, by simpa using hstatus⟩

/-- Rows are told apart by their ids. -/
theorem Store.row_unique (store : Store) {v w : WorkflowRow} (hv : v ∈ store.workflows) (hw : w ∈ store.workflows)
    (h : v.workflowId = w.workflowId) : v = w :=
  List.inj_on_of_nodup_map store.workflowIds hv hw h

theorem listed_id_iff (store : Store) {w : WorkflowRow} (hw : w ∈ store.workflows) :
    w.workflowId ∈ (listWorkflows store.workflows w.status).map (·.workflowId) ↔ place store w < defaultLimit := by
  rw [← mem_listWorkflows_iff store hw, List.mem_map]
  constructor
  · rintro ⟨v, hv, hid⟩
    obtain rfl := store.row_unique (mem_of_listed hv).1 hw hid
    exact hv
  · intro h
    exact ⟨w, h, rfl⟩

/-! ### Pumps -/

theorem mem_ensurePump {s : Scan} {x id : String} : x ∈ (ensurePump s id).pumps ↔ x ∈ s.pumps ∨ x = id := by
  unfold ensurePump
  split
  · rename_i h
    constructor
    · exact .inl
    · rintro (hx | rfl)
      · exact hx
      · simpa using h
  · simp

theorem mem_foldl_ensurePump {x : String} : ∀ (ids : List String) (s : Scan),
    x ∈ (ids.foldl ensurePump s).pumps ↔ x ∈ s.pumps ∨ x ∈ ids := by
  intro ids
  induction ids with
  | nil => simp
  | cons id ids ih =>
    intro s
    rw [List.foldl_cons, ih, mem_ensurePump, List.mem_cons, or_assoc]

/-- Pumps leave everything else as it was. -/
theorem foldl_ensurePump_frame : ∀ (ids : List String) (s : Scan),
    (ids.foldl ensurePump s).leases = s.leases ∧ (ids.foldl ensurePump s).requests = s.requests ∧
      (ids.foldl ensurePump s).timers = s.timers := by
  intro ids
  induction ids with
  | nil => exact fun s => ⟨rfl, rfl, rfl⟩
  | cons id ids ih =>
    intro s
    rw [List.foldl_cons]
    have hstep : (ensurePump s id).leases = s.leases ∧ (ensurePump s id).requests = s.requests ∧
        (ensurePump s id).timers = s.timers := by
      unfold ensurePump
      split <;> exact ⟨rfl, rfl, rfl⟩
    obtain ⟨h₁, h₂, h₃⟩ := ih (ensurePump s id)
    exact ⟨h₁.trans hstep.1, h₂.trans hstep.2.1, h₃.trans hstep.2.2⟩

/-! ### Releases -/

/-- No lease with this id belongs to the workflow. -/
def Foreign (leases : List LeaseProjection) (leaseId workflowId : String) : Prop :=
  ∀ l ∈ leases, l.workspaceLeaseId = leaseId → l.workflowId ≠ workflowId

/-- The leases are those of `before`, but for the statuses of leases foreign to the workflows in `spared`. -/
structure Settled (spared : String → Prop) (before after : List LeaseProjection) : Prop where
  ids : after.map (·.workspaceLeaseId) = before.map (·.workspaceLeaseId)
  foreign : ∀ id workflowId, Foreign before id workflowId → Foreign after id workflowId
  acquiring : ∀ workflowId, spared workflowId → hasAcquiring after workflowId = hasAcquiring before workflowId

theorem Settled.refl (spared : String → Prop) (leases : List LeaseProjection) : Settled spared leases leases :=
  ⟨rfl, fun _ _ h => h, fun _ _ => rfl⟩

theorem Settled.trans {spared : String → Prop} {a b c : List LeaseProjection} (h : Settled spared a b)
    (h' : Settled spared b c) : Settled spared a c :=
  ⟨h'.ids.trans h.ids, fun id w hf => h'.foreign id w (h.foreign id w hf),
    fun w hw => (h'.acquiring w hw).trans (h.acquiring w hw)⟩

theorem setStatus_settled {spared : String → Prop} {leases : List LeaseProjection} {id : String} {status : LeaseStatus}
    (hforeign : ∀ w, spared w → Foreign leases id w) : Settled spared leases (setStatus leases id status) := by
  refine ⟨?_, ?_, ?_⟩
  · rw [setStatus, List.map_map]
    refine List.map_congr_left fun l _ => ?_
    simp only [Function.comp]
    split <;> rfl
  · intro id' w hf l hl hid
    obtain ⟨l', hl', rfl⟩ := List.mem_map.mp hl
    split at hid
    · rename_i hcond
      rw [if_pos hcond]
      exact hf l' hl' hid
    · rename_i hcond
      rw [if_neg hcond]
      exact hf l' hl' hid
  · intro w hw
    rw [hasAcquiring, hasAcquiring, setStatus, List.any_map]
    refine Bool.eq_iff_iff.mpr ?_
    simp only [List.any_eq_true, Function.comp]
    refine exists_congr fun l => and_congr_right fun hl => ?_
    split
    · rename_i hcond
      have hid : l.workspaceLeaseId = id := by simp_all
      simp [hforeign w hw l hl hid]
    · rfl

theorem updateLease_of_mem {leases : List LeaseProjection} {id : String} {status : LeaseStatus}
    (h : id ∈ leases.map (·.workspaceLeaseId)) : updateLease leases id status = some (setStatus leases id status) := by
  obtain ⟨l, hl, rfl⟩ := List.mem_map.mp h
  exact if_pos (List.any_eq_true.mpr ⟨l, hl, by simp⟩)

/-- What one lease's release leaves alone, and what it asks for. -/
structure Released (rt : Runtime) (spared : String → Prop) (s s' : Scan) : Prop where
  settled : Settled spared s.leases s'.leases
  pumps : s'.pumps = s.pumps
  timers : s'.timers = s.timers
  requests : s.requests ⊆ s'.requests
  quiet : rt.stopped = true ∨ rt.maxReleaseAttempts = 0 → s'.requests = s.requests

theorem Released.refl (rt : Runtime) (spared : String → Prop) (s : Scan) : Released rt spared s s :=
  ⟨.refl _ _, rfl, rfl, List.Subset.refl _, fun _ => rfl⟩

theorem Released.trans {rt : Runtime} {spared : String → Prop} {a b c : Scan} (h : Released rt spared a b)
    (h' : Released rt spared b c) : Released rt spared a c :=
  ⟨h.settled.trans h'.settled, h'.pumps.trans h.pumps, h'.timers.trans h.timers,
    fun _ hx => h'.requests (h.requests hx), fun hq => (h'.quiet hq).trans (h.quiet hq)⟩

theorem releaseAttempts_released {rt : Runtime} {spared : String → Prop} {l : LeaseProjection} :
    ∀ (attempts : Nat) (s : Scan), (∀ w, spared w → Foreign s.leases l.workspaceLeaseId w) →
      Settled spared s.leases (releaseAttempts rt l attempts s).leases ∧
      (releaseAttempts rt l attempts s).pumps = s.pumps ∧ (releaseAttempts rt l attempts s).timers = s.timers ∧
      s.requests ⊆ (releaseAttempts rt l attempts s).requests ∧
      (rt.stopped = true ∨ attempts = 0 → (releaseAttempts rt l attempts s).requests = s.requests) ∧
      (rt.stopped = false → 0 < attempts →
        (l.nodeId, l.workspaceLeaseId) ∈ (releaseAttempts rt l attempts s).requests) := by
  intro attempts
  induction attempts with
  | zero =>
    intro s _
    exact ⟨.refl _ _, rfl, rfl, List.Subset.refl _, fun _ => rfl, fun _ h => absurd h (by decide)⟩
  | succ attempts ih =>
    intro s hforeign
    rw [releaseAttempts]
    split
    · rename_i hstop
      exact ⟨.refl _ _, rfl, rfl, List.Subset.refl _, fun _ => rfl, fun h => absurd (h.symm.trans hstop) (by decide)⟩
    · rename_i hstop
      have hloud : ¬ (rt.stopped = true ∨ attempts + 1 = 0) := by
        rintro (h | h)
        · exact hstop h
        · exact nomatch h
      have hsent : s.requests ⊆ s.requests ++ [(l.nodeId, l.workspaceLeaseId)] := List.subset_append_left _ _
      have hmem : (l.nodeId, l.workspaceLeaseId) ∈ s.requests ++ [(l.nodeId, l.workspaceLeaseId)] :=
        List.mem_append_right _ List.mem_cons_self
      simp only
      split
      · refine ⟨?_, rfl, rfl, hsent, fun h => absurd h hloud, fun _ _ => hmem⟩
        show Settled spared s.leases ((updateLease s.leases l.workspaceLeaseId .released).getD s.leases)
        unfold updateLease
        split
        · exact setStatus_settled hforeign
        · exact .refl _ _
      · obtain ⟨h₁, h₂, h₃, h₄, -, -⟩ := ih { s with requests := s.requests ++ [(l.nodeId, l.workspaceLeaseId)] } hforeign
        exact ⟨h₁, h₂, h₃, fun _ hx => h₄ (hsent hx), fun h => absurd h hloud, fun _ _ => h₄ hmem⟩
      · exact ⟨.refl _ _, rfl, rfl, hsent, fun h => absurd h hloud, fun _ _ => hmem⟩

/-- **The release loop**: every lease on the list is asked for, whatever the Nodes answer. -/
theorem releaseEach_released {rt : Runtime} {spared : String → Prop} : ∀ (pending : List LeaseProjection) (s : Scan),
    (∀ l ∈ pending, l.workspaceLeaseId ∈ s.leases.map (·.workspaceLeaseId)) →
    (∀ l ∈ pending, ∀ w, spared w → Foreign s.leases l.workspaceLeaseId w) →
    Released rt spared s (releaseEach rt pending s) ∧
      (rt.stopped = false → 0 < rt.maxReleaseAttempts →
        ∀ l ∈ pending, (l.nodeId, l.workspaceLeaseId) ∈ (releaseEach rt pending s).requests) := by
  intro pending
  induction pending with
  | nil =>
    intro s _ _
    exact ⟨.refl _ _ _, fun _ _ l hl => nomatch hl⟩
  | cons l pending ih =>
    intro s hids hforeign
    rw [releaseEach, updateLease_of_mem (hids l List.mem_cons_self)]
    simp only
    have hrequested : Settled spared s.leases (setStatus s.leases l.workspaceLeaseId .releaseRequested) :=
      setStatus_settled (hforeign l List.mem_cons_self)
    obtain ⟨h₁, h₂, h₃, h₄, h₅, h₆⟩ := @releaseAttempts_released rt spared l rt.maxReleaseAttempts
      { s with leases := setStatus s.leases l.workspaceLeaseId .releaseRequested }
      (fun w hw => hrequested.foreign _ _ (hforeign l List.mem_cons_self w hw))
    generalize hs' : releaseAttempts rt l rt.maxReleaseAttempts
      { s with leases := setStatus s.leases l.workspaceLeaseId .releaseRequested } = s' at h₁ h₂ h₃ h₄ h₅ h₆
    have hall : Settled spared s.leases s'.leases := hrequested.trans h₁
    have hfirst : Released rt spared s s' := ⟨hall, h₂, h₃, h₄, h₅⟩
    obtain ⟨hrest, hasked⟩ := ih s'
      (fun l' hl' => by rw [hall.ids]; exact hids l' (List.mem_cons_of_mem _ hl'))
      (fun l' hl' w hw => hall.foreign _ _ (hforeign l' (List.mem_cons_of_mem _ hl') w hw))
    refine ⟨hfirst.trans hrest, ?_⟩
    intro hstop hmax l' hl'
    rcases List.mem_cons.mp hl' with rfl | hl'
    · exact hrest.requests (h₆ hstop hmax)
    · exact hasked hstop hmax l' hl'

/-! ### Reconciliations -/

theorem mem_schedule {rt : Runtime} {s : Scan} {x id : String} :
    x ∈ (scheduleLeaseReconcile rt s id).timers ↔ x ∈ s.timers ∨ rt.stopped = false ∧ x = id := by
  unfold scheduleLeaseReconcile
  cases hstop : rt.stopped with
  | true => simp
  | false =>
    simp only [Bool.false_or]
    split
    · rename_i h
      constructor
      · exact .inl
      · rintro (hx | ⟨-, rfl⟩)
        · exact hx
        · simpa using h
    · simp

theorem schedule_frame (rt : Runtime) (s : Scan) (id : String) :
    (scheduleLeaseReconcile rt s id).leases = s.leases ∧ (scheduleLeaseReconcile rt s id).pumps = s.pumps ∧
      (scheduleLeaseReconcile rt s id).requests = s.requests := by
  unfold scheduleLeaseReconcile
  split <;> exact ⟨rfl, rfl, rfl⟩

/-- One row of the scan of ready workflows. -/
def reconcileRow (rt : Runtime) (s : Scan) (w : WorkflowRow) : Scan :=
  if hasAcquiring s.leases w.workflowId then scheduleLeaseReconcile rt s w.workflowId else s

theorem reconcileRows_spec (rt : Runtime) : ∀ (rows : List WorkflowRow) (s : Scan),
    (rows.foldl (reconcileRow rt) s).leases = s.leases ∧ (rows.foldl (reconcileRow rt) s).pumps = s.pumps ∧
    (rows.foldl (reconcileRow rt) s).requests = s.requests ∧
    ∀ x, x ∈ (rows.foldl (reconcileRow rt) s).timers ↔
      x ∈ s.timers ∨ rt.stopped = false ∧ hasAcquiring s.leases x = true ∧ x ∈ rows.map (·.workflowId) := by
  intro rows
  induction rows with
  | nil =>
    intro s
    refine ⟨rfl, rfl, rfl, fun x => ?_⟩
    simp
  | cons w rows ih =>
    intro s
    rw [List.foldl_cons]
    obtain ⟨h₁, h₂, h₃, h₄⟩ := ih (reconcileRow rt s w)
    have hframe : (reconcileRow rt s w).leases = s.leases ∧ (reconcileRow rt s w).pumps = s.pumps ∧
        (reconcileRow rt s w).requests = s.requests := by
      unfold reconcileRow
      split
      · exact schedule_frame rt s _
      · exact ⟨rfl, rfl, rfl⟩
    refine ⟨h₁.trans hframe.1, h₂.trans hframe.2.1, h₃.trans hframe.2.2, fun x => ?_⟩
    rw [h₄, hframe.1, List.map_cons, List.mem_cons]
    unfold reconcileRow
    split
    · rename_i hacq
      rw [mem_schedule]
      constructor
      · rintro ((hx | ⟨hstop, rfl⟩) | ⟨hstop, hx, hrest⟩)
        · exact .inl hx
        · exact .inr ⟨hstop, hacq, .inl rfl⟩
        · exact .inr ⟨hstop, hx, .inr hrest⟩
      · rintro (hx | ⟨hstop, hx, rfl | hrest⟩)
        · exact .inl (.inl hx)
        · exact .inl (.inr ⟨hstop, rfl⟩)
        · exact .inr ⟨hstop, hx, hrest⟩
    · rename_i hacq
      constructor
      · rintro (hx | ⟨hstop, hx, hrest⟩)
        · exact .inl hx
        · exact .inr ⟨hstop, hx, .inr hrest⟩
      · rintro (hx | ⟨hstop, hx, rfl | hrest⟩)
        · exact .inl hx
        · exact absurd hx hacq
        · exact .inr ⟨hstop, hx, hrest⟩

/-! ### The whole scan -/

/-- The state after the pumps were started. -/
def pumped (rt : Runtime) (store : Store) : Scan :=
  ((listWorkflows store.workflows .running).map (·.workflowId)).foldl ensurePump ⟨store.leases, [], rt.pumps, rt.timers⟩

theorem pumped_frame (rt : Runtime) (store : Store) :
    (pumped rt store).leases = store.leases ∧ (pumped rt store).requests = [] ∧ (pumped rt store).timers = rt.timers :=
  foldl_ensurePump_frame _ _

theorem recoverWorkflows_eq (rt : Runtime) (store : Store) :
    recoverWorkflows rt store = reconcileReady rt store.workflows
      (recoverLeaseReleases rt store.workflows (pumped rt store)) :=
  rfl

/-- A workflow that has not ended. -/
def Live (store : Store) (workflowId : String) : Prop :=
  ∃ w ∈ store.workflows, w.workflowId = workflowId ∧ isTerminalWorkflowStatus w.status = false

theorem mem_releasable {workflows : List WorkflowRow} {leases : List LeaseProjection} {l : LeaseProjection} :
    l ∈ listReleasableWorkspaceLeases workflows leases ↔
      l ∈ leases ∧ l.status.inForce = true ∧ ownerEnded workflows l = true := by
  rw [listReleasableWorkspaceLeases, List.mem_insertionSort, List.mem_filter, Bool.and_eq_true]

/-- A lease to be released belongs to no workflow that has not ended. -/
theorem releasable_foreign {store : Store} {l : LeaseProjection}
    (hl : l ∈ listReleasableWorkspaceLeases store.workflows store.leases) {id : String} (hlive : Live store id) :
    Foreign store.leases l.workspaceLeaseId id := by
  obtain ⟨hmem, -, hended⟩ := mem_releasable.mp hl
  intro l' hl' hid hw
  obtain rfl : l' = l := List.inj_on_of_nodup_map store.leaseIds hl' hmem hid
  obtain ⟨w, hwm, hw'⟩ := List.any_eq_true.mp hended
  simp only [Bool.and_eq_true, decide_eq_true_eq] at hw'
  obtain ⟨v, hv, hvid, hlive⟩ := hlive
  obtain rfl := store.row_unique hwm hv (hw'.1.trans (hw.trans hvid.symm))
  rw [hw'.2] at hlive
  exact nomatch hlive

/-- The releases, from the state the pumps leave. -/
theorem releases_spec (rt : Runtime) (store : Store) :
    Released rt (Live store) (pumped rt store) (recoverLeaseReleases rt store.workflows (pumped rt store)) ∧
      (rt.leaseClient = false → (recoverLeaseReleases rt store.workflows (pumped rt store)).requests = []) ∧
      (rt.leaseClient = true → rt.stopped = false → 0 < rt.maxReleaseAttempts →
        ∀ l ∈ listReleasableWorkspaceLeases store.workflows store.leases,
          (l.nodeId, l.workspaceLeaseId) ∈ (recoverLeaseReleases rt store.workflows (pumped rt store)).requests) := by
  obtain ⟨hleases, hrequests, -⟩ := pumped_frame rt store
  cases hclient : rt.leaseClient with
  | false =>
    simp only [recoverLeaseReleases, hclient, Bool.false_eq_true, if_false]
    exact ⟨.refl _ _ _, fun _ => hrequests, fun h => (nomatch h)⟩
  | true =>
    simp only [recoverLeaseReleases, hclient, if_true]
    rw [hleases]
    have hspec := @releaseEach_released rt (Live store) (listReleasableWorkspaceLeases store.workflows store.leases)
      (pumped rt store) ?_ ?_
    · exact ⟨hspec.1, fun h => (nomatch h), fun _ hstop hmax l hl => hspec.2 hstop hmax l hl⟩
    · intro l hl
      rw [hleases]
      exact List.mem_map_of_mem (mem_releasable.mp hl).1
    · intro l hl id hlive
      rw [hleases]
      exact releasable_foreign hl hlive

/-- The reconciliations: pumps and requests stay, and the timers are those of the page. -/
theorem reconcileReady_spec (rt : Runtime) (workflows : List WorkflowRow) (s : Scan) :
    (reconcileReady rt workflows s).pumps = s.pumps ∧ (reconcileReady rt workflows s).requests = s.requests ∧
    ∀ x, x ∈ (reconcileReady rt workflows s).timers ↔
      x ∈ s.timers ∨ rt.leaseClient = true ∧ rt.stopped = false ∧ hasAcquiring s.leases x = true ∧
        x ∈ (listWorkflows workflows .ready).map (·.workflowId) := by
  cases hclient : rt.leaseClient with
  | false =>
    have hskip : reconcileReady rt workflows s = s := by
      simp only [reconcileReady, hclient, Bool.false_eq_true, if_false]
    rw [hskip]
    exact ⟨rfl, rfl, fun x => by simp⟩
  | true =>
    have hscan : reconcileReady rt workflows s = (listWorkflows workflows .ready).foldl (reconcileRow rt) s := by
      simp only [reconcileReady, hclient, if_true]
      rfl
    rw [hscan]
    obtain ⟨-, h₂, h₃, h₄⟩ := reconcileRows_spec rt (listWorkflows workflows .ready) s
    exact ⟨h₂, h₃, fun x => (h₄ x).trans (by simp)⟩

theorem mem_pumps_iff (rt : Runtime) (store : Store) (x : String) :
    x ∈ (recoverWorkflows rt store).pumps ↔
      x ∈ rt.pumps ∨ x ∈ (listWorkflows store.workflows .running).map (·.workflowId) := by
  rw [recoverWorkflows_eq, (reconcileReady_spec rt _ _).1, (releases_spec rt store).1.pumps]
  exact mem_foldl_ensurePump _ _

/-- The timers of the whole scan; a workflow that has not ended keeps its unconfirmed leases until then. -/
theorem mem_timers_iff (rt : Runtime) (store : Store) {x : String} (hlive : Live store x) :
    x ∈ (recoverWorkflows rt store).timers ↔
      x ∈ rt.timers ∨ rt.leaseClient = true ∧ rt.stopped = false ∧ hasAcquiring store.leases x = true ∧
        x ∈ (listWorkflows store.workflows .ready).map (·.workflowId) := by
  obtain ⟨hleases, -, htimers⟩ := pumped_frame rt store
  have hrel := (releases_spec rt store).1
  rw [recoverWorkflows_eq, (reconcileReady_spec rt _ _).2.2, hrel.timers, htimers,
    hrel.settled.acquiring x hlive, hleases]

/-- **Recovery is complete exactly when nothing it looks for is beyond a page**, for every store and every
    runtime. -/
theorem recovery_complete_iff (rt : Runtime) (store : Store) :
    Complete store (recoverWorkflows rt store) ↔ WithinPages rt store := by
  have hlive : ∀ w ∈ store.workflows, w.status = .ready → Live store w.workflowId := by
    intro w hw hstatus
    exact ⟨w, hw, rfl, by rw [hstatus]; rfl⟩
  have hrequests : (recoverWorkflows rt store).requests
      = (recoverLeaseReleases rt store.workflows (pumped rt store)).requests := by
    rw [recoverWorkflows_eq, (reconcileReady_spec rt _ _).2.1]
  have hempty := (pumped_frame rt store).2.1
  obtain ⟨hrel, hnone, hall⟩ := releases_spec rt store
  constructor
  · rintro ⟨hpumped, hreconciled, hreleased⟩
    refine ⟨?_, ?_, ?_⟩
    · intro w hw hstatus
      rcases (mem_pumps_iff rt store _).mp (hpumped w hw hstatus) with h | h
      · exact .inl h
      · rw [← hstatus] at h
        exact .inr ((listed_id_iff store hw).mp h)
    · intro w hw hstatus hacq
      rcases (mem_timers_iff rt store (hlive w hw hstatus)).mp (hreconciled w hw hstatus hacq) with h | ⟨hc, hs, -, h⟩
      · exact .inl h
      · rw [← hstatus] at h
        exact .inr ⟨hc, hs, (listed_id_iff store hw).mp h⟩
    · intro l hl hforce hended
      have hreq := hreleased l hl hforce hended
      rw [hrequests] at hreq
      refine ⟨?_, ?_, ?_⟩
      · cases hclient : rt.leaseClient with
        | true => rfl
        | false =>
          rw [hnone hclient] at hreq
          exact nomatch hreq
      · cases hstop : rt.stopped with
        | false => rfl
        | true =>
          rw [hrel.quiet (.inl hstop), hempty] at hreq
          exact nomatch hreq
      · refine Nat.pos_of_ne_zero fun hzero => ?_
        rw [hrel.quiet (.inr hzero), hempty] at hreq
        exact nomatch hreq
  · rintro ⟨hrunning, hready, hheld⟩
    refine ⟨?_, ?_, ?_⟩
    · intro w hw hstatus
      refine (mem_pumps_iff rt store _).mpr ((hrunning w hw hstatus).imp_right fun hplace => ?_)
      have hid := (listed_id_iff store hw).mpr hplace
      rwa [hstatus] at hid
    · intro w hw hstatus hacq
      refine (mem_timers_iff rt store (hlive w hw hstatus)).mpr ?_
      rcases hready w hw hstatus hacq with h | ⟨hc, hs, hplace⟩
      · exact .inl h
      · have hid := (listed_id_iff store hw).mpr hplace
        rw [hstatus] at hid
        exact .inr ⟨hc, hs, hacq, hid⟩
    · intro l hl hforce hended
      obtain ⟨hc, hs, hm⟩ := hheld l hl hforce hended
      rw [hrequests]
      exact hall hc hs hm l (mem_releasable.mpr ⟨hl, hforce, hended⟩)

/-! ### A full store -/

def serial (n : Nat) : String := String.ofList (List.replicate n 'w')

theorem serial_inj {m n : Nat} (h : serial m = serial n) : m = n := by
  have hlen := congrArg (fun s => s.toList.length) h
  simpa [serial] using hlen

/-- `n` running workflows. -/
def manyRunning (n : Nat) : Store where
  workflows := (List.range n).map fun i => ⟨serial i, "2024-01-01T00:00:00.000Z", .running⟩
  leases := []
  workflowIds := by
    rw [List.map_map]
    exact List.nodup_range.map fun _ _ h => serial_inj h
  leaseIds := List.nodup_nil

/-- A runtime after a restart, with a lease client. -/
def restarted : Runtime := ⟨true, false, 8, [], [], fun _ => .released⟩

theorem not_complete_of_many {n : Nat} (hn : defaultLimit < n) :
    ¬ Complete (manyRunning n) (recoverWorkflows restarted (manyRunning n)) := by
  intro h
  have hsub : (List.range n).map serial ⊆ (listWorkflows (manyRunning n).workflows .running).map (·.workflowId) := by
    intro x hx
    obtain ⟨i, hi, rfl⟩ := List.mem_map.mp hx
    have hpump := h.pumped ⟨serial i, "2024-01-01T00:00:00.000Z", .running⟩ (List.mem_map_of_mem hi) rfl
    rcases (mem_pumps_iff restarted (manyRunning n) _).mp hpump with hx | hx
    · exact nomatch hx
    · exact hx
  have hnodup : ((List.range n).map serial).Nodup := List.nodup_range.map fun _ _ h => serial_inj h
  have hle := (hnodup.subperm hsub).length_le
  have hpage : (listWorkflows (manyRunning n).workflows .running).length ≤ defaultLimit := length_selectPage_le _ _
  simp only [List.length_map, List.length_range] at hle
  omega

/-- With a thousand running workflows and one more, one of them gets no pump. -/
theorem many_running_missed : ¬ Complete (manyRunning 1001) (recoverWorkflows restarted (manyRunning 1001)) :=
  not_complete_of_many (by decide)

end VibeRecoverScan
