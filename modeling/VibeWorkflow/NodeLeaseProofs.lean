import VibeWorkflow.StoreProofs

/-!
# The Node's lease authority

A Node keeps one SQLite journal: the runs it has seen, each with the lease it was bound to,
and the workspace leases it has granted. This file models the journal's lease operations and
the request handler in front of them.

* `acquire_cases`, `release_cases` — all that a successful call does to the two tables;
* `JournalInv` — lease ids are unique and derived from their row, run ids are unique, and at
  most one lease is in force per workspace; every operation keeps it;
* `validate_ok` — what the run-start gate has checked when it lets a run through.
-/

namespace VibeNode

/-! ## Rows -/

inductive LeaseStatus where
  | acquiring
  | active
  | releaseRequested
  | released
  | conflict
deriving DecidableEq, Repr

/-- `ACTIVE_LEASE`, and the predicate of the partial unique index `idx_ws_lease_active`. -/
def LeaseStatus.inForce : LeaseStatus → Bool
  | .acquiring | .active | .releaseRequested => true
  | .released | .conflict => false

/-- A lease id is the digest of `(workflow_id, node_id, workspace_key)`, which the model takes
    to be the triple itself; a request may also present any `other` text. -/
inductive LeaseId where
  | derived (workflowId nodeId workspaceKey : String)
  | other (text : String)
deriving DecidableEq, Repr

def workspaceLeaseId (workflowId nodeId workspaceKey : String) : LeaseId :=
  .derived workflowId nodeId workspaceKey

/-- A row of `workspace_leases`; a revision is the JSON text the column holds. -/
structure LeaseRow where
  leaseId : LeaseId
  workflowId : String
  nodeId : String
  workspaceKey : String
  status : LeaseStatus
  baseRevision : String
  currentRevision : String
deriving DecidableEq, Repr

/-- A row of `runs`: what release protection and event capture read. -/
structure RunRow where
  remoteRunId : String
  lastSequence : Int
  terminalEventRecorded : Bool
  leaseId : Option LeaseId
deriving DecidableEq, Repr

structure Journal where
  runs : List RunRow
  leases : List LeaseRow
deriving DecidableEq, Repr

def Journal.empty : Journal := ⟨[], []⟩

inductive LeaseCode where
  | conflict
  | unavailable
  | invalid
  | released
  | required
  | inUse
  | unsupported
deriving DecidableEq, Repr

def LeaseCode.text : LeaseCode → String
  | .conflict => "workspace_lease_conflict"
  | .unavailable => "workspace_lease_unavailable"
  | .invalid => "workspace_lease_invalid"
  | .released => "workspace_lease_released"
  | .required => "workspace_lease_required"
  | .inUse => "workspace_lease_in_use"
  | .unsupported => "workspace_lease_unsupported"

structure LeaseError where
  code : LeaseCode
  message : String
deriving DecidableEq, Repr

/-! ## The journal's operations -/

namespace Journal

def leaseRow (j : Journal) (leaseId : LeaseId) : Option LeaseRow :=
  j.leases.find? fun r => r.leaseId == leaseId

def activeLeaseRow (j : Journal) (nodeId workspaceKey : String) : Option LeaseRow :=
  j.leases.find? fun r => r.nodeId == nodeId && r.workspaceKey == workspaceKey && r.status.inForce

def runRow (j : Journal) (remoteRunId : String) : Option RunRow :=
  j.runs.find? fun r => r.remoteRunId == remoteRunId

def ensureRun (j : Journal) (remoteRunId : String) : Journal :=
  match j.runRow remoteRunId with
  | some _ => j
  | none => { j with runs := j.runs ++ [⟨remoteRunId, -1, false, none⟩] }

/-- `UPDATE workspace_leases … WHERE workspace_lease_id = ?`. -/
def setLease (j : Journal) (leaseId : LeaseId) (f : LeaseRow → LeaseRow) : Journal :=
  { j with leases := j.leases.map fun r => if r.leaseId = leaseId then f r else r }

/-- `UPDATE runs … WHERE remote_run_id = ?`. -/
def setRun (j : Journal) (remoteRunId : String) (f : RunRow → RunRow) : Journal :=
  { j with runs := j.runs.map fun r => if r.remoteRunId = remoteRunId then f r else r }

/-- The row a released lease becomes when its own workflow takes it again. -/
def reactivated (revision : String) (r : LeaseRow) : LeaseRow :=
  { r with status := .active, baseRevision := revision, currentRevision := revision }

/-- `acquireWorkspaceLease`: the row granted, and whether this call granted it. -/
def acquireWorkspaceLease (j : Journal) (workflowId nodeId workspaceKey baseRevision : String) :
    Except LeaseError ((LeaseRow × Bool) × Journal) :=
  let leaseId := workspaceLeaseId workflowId nodeId workspaceKey
  let granted : LeaseRow := ⟨leaseId, workflowId, nodeId, workspaceKey, .active, baseRevision, baseRevision⟩
  let other := j.activeLeaseRow nodeId workspaceKey
  let heldByOther := other.any fun r => r.leaseId != leaseId
  let conflict : LeaseError := ⟨.conflict, "workspace is exclusively leased by another workflow"⟩
  match j.leaseRow leaseId with
  | some own =>
    if own.status.inForce then .ok ((own, false), j)
    else if heldByOther then .error conflict
    else .ok ((reactivated baseRevision own, true), j.setLease leaseId (reactivated baseRevision))
  | none =>
    if heldByOther then .error conflict
    else .ok ((granted, true), { j with leases := j.leases ++ [granted] })

/-- `isLeaseInUse`: a run bound to the lease has no terminal event yet. -/
def isLeaseInUse (j : Journal) (leaseId : LeaseId) : Bool :=
  j.runs.any fun r => r.leaseId == some leaseId && !r.terminalEventRecorded

def releaseWorkspaceLease (j : Journal) (leaseId : LeaseId) : Except LeaseError (LeaseRow × Journal) :=
  match j.leaseRow leaseId with
  | none => .error ⟨.invalid, "no such lease"⟩
  | some r =>
    if r.status = .released then .ok (r, j)
    else if j.isLeaseInUse leaseId then .error ⟨.inUse, "a non-terminal run is still bound to this lease"⟩
    else .ok ({ r with status := .released }, j.setLease leaseId fun r => { r with status := .released })

/-- `bindRunToLease`: immutable once set. A throw rolls back the row `ensureRun` added. -/
def bindRunToLease (j : Journal) (remoteRunId : String) (leaseId : LeaseId) : Except LeaseError Journal :=
  let j' := j.ensureRun remoteRunId
  match (j'.runRow remoteRunId).bind (·.leaseId) with
  | some bound =>
    if bound ≠ leaseId then .error ⟨.conflict, "run is already bound to a different lease"⟩
    else .ok j'
  | none => .ok (j'.setRun remoteRunId fun r => { r with leaseId := some leaseId })

/-- `validateWorkspaceLeaseForRun`, the run-start gate. -/
def validateWorkspaceLeaseForRun (j : Journal) (nodeId workspaceKey : String) (presented : Option LeaseId) :
    Except LeaseError Unit :=
  match presented, j.activeLeaseRow nodeId workspaceKey with
  | some leaseId, none =>
    if (j.leaseRow leaseId).any fun r => r.status == .released then
      .error ⟨.released, "presented lease is released"⟩
    else .error ⟨.invalid, "presented lease is not active for this workspace"⟩
  | some leaseId, some active =>
    if leaseId ≠ active.leaseId then .error ⟨.invalid, "presented lease does not match the workspace lease"⟩
    else .ok ()
  | none, some _ => .error ⟨.required, "workspace is leased; a run must present the matching lease"⟩
  | none, none => .ok ()

/-- `append`: the next event of a run, `none` where the run already ended or is full. -/
def append (limit : Int) (j : Journal) (remoteRunId : String) (terminal : Bool) : Option Journal :=
  let j' := j.ensureRun remoteRunId
  (j'.runRow remoteRunId).bind fun run =>
    if run.terminalEventRecorded || decide (limit ≤ run.lastSequence + 1) then none
    else some (j'.setRun remoteRunId fun r =>
      { r with lastSequence := r.lastSequence + 1, terminalEventRecorded := r.terminalEventRecorded || terminal })

end Journal

/-! ## `handleWorkspaceLeaseRequest` -/

inductive LeaseRequest where
  | acquire (workflowId workspaceKey : String)
  | get (leaseId : LeaseId)
  | release (leaseId : LeaseId)
deriving DecidableEq, Repr

/-- What the two filesystem probes of an acquire gave: whether the key resolves inside the
    workspace root, and the base revision (`none` where the observer threw). -/
structure LeaseProbe where
  contained : String → Bool
  observe : Option String

inductive LeaseAck where
  | granted (lease : LeaseRow) (created : Bool)
  | lease (row : LeaseRow)
  | refused (error : String) (code : String)
deriving DecidableEq, Repr

def refuse (e : LeaseError) : LeaseAck := .refused "workspace lease operation failed" e.code.text

/-- The handler is total: one acknowledgement per request, and the journal it leaves. A node
    whose journal did not open has no authority to ask. -/
def handleWorkspaceLeaseRequest (nodeId : String) (probe : LeaseProbe) (authority : Option Journal) :
    LeaseRequest → LeaseAck × Option Journal
  | req =>
    match authority with
    | none => (.refused "node cannot enforce workspace leases" "workspace_lease_unavailable", none)
    | some j =>
      match req with
      | .acquire workflowId workspaceKey =>
        if !probe.contained workspaceKey then (.refused "invalid workspace key" "workspace_lease_invalid", some j)
        else match probe.observe with
        | none => (.refused "internal error" "internal_error", some j)
        | some base =>
          match j.acquireWorkspaceLease workflowId nodeId workspaceKey base with
          | .error e => (refuse e, some j)
          | .ok ((row, created), j') => (.granted row created, some j')
      | .get leaseId =>
        match j.leaseRow leaseId with
        | some row => (.lease row, some j)
        | none => (.refused "no such lease" "workspace_lease_invalid", some j)
      | .release leaseId =>
        match j.releaseWorkspaceLease leaseId with
        | .error e => (refuse e, some j)
        | .ok (row, j') => (.lease row, some j')

/-! ## Leases in force -/

/-- The lease is in force on the workspace. -/
def Holds (j : Journal) (nodeId workspaceKey : String) (leaseId : LeaseId) : Prop :=
  ∃ r ∈ j.leases, r.leaseId = leaseId ∧ r.nodeId = nodeId ∧ r.workspaceKey = workspaceKey ∧ r.status.inForce

structure JournalInv (j : Journal) : Prop where
  leaseIds : (j.leases.map (·.leaseId)).Nodup
  derived : ∀ r ∈ j.leases, r.leaseId = workspaceLeaseId r.workflowId r.nodeId r.workspaceKey
  runIds : (j.runs.map (·.remoteRunId)).Nodup
  exclusive : ∀ {nodeId workspaceKey : String} {a b : LeaseId},
    Holds j nodeId workspaceKey a → Holds j nodeId workspaceKey b → a = b

theorem JournalInv.empty : JournalInv Journal.empty where
  leaseIds := List.nodup_nil
  derived := by intro r hr; exact nomatch hr
  runIds := List.nodup_nil
  exclusive := by rintro _ _ _ _ ⟨r, hr, _⟩; exact nomatch hr

namespace Journal

theorem leaseRow_some {j : Journal} {leaseId : LeaseId} {r : LeaseRow} (h : j.leaseRow leaseId = some r) :
    r ∈ j.leases ∧ r.leaseId = leaseId :=
  ⟨List.mem_of_find?_eq_some h, by simpa using List.find?_some h⟩

theorem leaseRow_none {j : Journal} {leaseId : LeaseId} (h : j.leaseRow leaseId = none) :
    ∀ r ∈ j.leases, r.leaseId ≠ leaseId := by
  intro r hr
  simpa using List.find?_eq_none.mp h r hr

theorem runRow_some {j : Journal} {runId : String} {r : RunRow} (h : j.runRow runId = some r) :
    r ∈ j.runs ∧ r.remoteRunId = runId :=
  ⟨List.mem_of_find?_eq_some h, by simpa using List.find?_some h⟩

theorem runRow_none {j : Journal} {runId : String} (h : j.runRow runId = none) :
    ∀ r ∈ j.runs, r.remoteRunId ≠ runId := by
  intro r hr
  simpa using List.find?_eq_none.mp h r hr

theorem activeLeaseRow_some {j : Journal} {nodeId key : String} {r : LeaseRow}
    (h : j.activeLeaseRow nodeId key = some r) : Holds j nodeId key r.leaseId := by
  have hp := List.find?_some h
  simp only [Bool.and_eq_true, beq_iff_eq] at hp
  exact ⟨r, List.mem_of_find?_eq_some h, rfl, hp.1.1, hp.1.2, hp.2⟩

theorem activeLeaseRow_none {j : Journal} {nodeId key : String}
    (h : j.activeLeaseRow nodeId key = none) (leaseId : LeaseId) : ¬ Holds j nodeId key leaseId := by
  rintro ⟨r, hr, -, hnode, hkey, hforce⟩
  have := List.find?_eq_none.mp h r hr
  simp [hnode, hkey, hforce] at this

end Journal

/-- Ids tell the rows of the lease table apart. -/
theorem JournalInv.row_eq {j : Journal} (h : JournalInv j) {r r' : LeaseRow}
    (hr : r ∈ j.leases) (hr' : r' ∈ j.leases) (hid : r.leaseId = r'.leaseId) : r = r' :=
  List.inj_on_of_nodup_map h.leaseIds hr hr' hid

/-! ## What each operation does -/

/-- How a write to one row of the lease table changes what is in force. -/
theorem holds_setLease {j : Journal} {leaseId : LeaseId} {f : LeaseRow → LeaseRow}
    (hf : ∀ r, (f r).leaseId = r.leaseId ∧ (f r).nodeId = r.nodeId ∧ (f r).workspaceKey = r.workspaceKey)
    {node key : String} {l : LeaseId} :
    Holds (j.setLease leaseId f) node key l ↔
      ∃ r ∈ j.leases, r.leaseId = l ∧ r.nodeId = node ∧ r.workspaceKey = key ∧
        (if l = leaseId then (f r).status.inForce else r.status.inForce) := by
  constructor
  · rintro ⟨r', hr', rfl, rfl, rfl, hforce⟩
    obtain ⟨r, hr, rfl⟩ := List.mem_map.mp hr'
    by_cases hid : r.leaseId = leaseId
    · rw [if_pos hid] at hforce ⊢
      refine ⟨r, hr, (hf r).1.symm, (hf r).2.1.symm, (hf r).2.2.symm, ?_⟩
      rw [(hf r).1, if_pos hid]
      exact hforce
    · rw [if_neg hid] at hforce ⊢
      exact ⟨r, hr, rfl, rfl, rfl, by rw [if_neg hid]; exact hforce⟩
  · rintro ⟨r, hr, rfl, rfl, rfl, hforce⟩
    by_cases hid : r.leaseId = leaseId
    · rw [if_pos hid] at hforce
      exact ⟨f r, List.mem_map.mpr ⟨r, hr, by rw [if_pos hid]⟩, (hf r).1, (hf r).2.1, (hf r).2.2, hforce⟩
    · rw [if_neg hid] at hforce
      exact ⟨r, List.mem_map.mpr ⟨r, hr, by rw [if_neg hid]⟩, rfl, rfl, rfl, hforce⟩

/-- A write that keeps ids and identity columns keeps the row invariants. -/
theorem JournalInv.setLease {j : Journal} (h : JournalInv j) {leaseId : LeaseId} {f : LeaseRow → LeaseRow}
    (hf : ∀ r, (f r).leaseId = r.leaseId ∧ (f r).workflowId = r.workflowId ∧ (f r).nodeId = r.nodeId ∧
      (f r).workspaceKey = r.workspaceKey)
    (hex : ∀ {node key : String} {a b : LeaseId}, Holds (j.setLease leaseId f) node key a →
      Holds (j.setLease leaseId f) node key b → a = b) : JournalInv (j.setLease leaseId f) where
  leaseIds := by
    have hids : (j.setLease leaseId f).leases.map (·.leaseId) = j.leases.map (·.leaseId) := by
      simp only [Journal.setLease, List.map_map]
      refine List.map_congr_left fun r _ => ?_
      by_cases hid : r.leaseId = leaseId
      · simp [hid, (hf r).1]
      · simp [hid]
    rw [hids]
    exact h.leaseIds
  derived := by
    intro r' hr'
    obtain ⟨r, hr, rfl⟩ := List.mem_map.mp hr'
    by_cases hid : r.leaseId = leaseId
    · simp only [if_pos hid, hf r]
      exact h.derived r hr
    · simp only [if_neg hid]
      exact h.derived r hr
  runIds := h.runIds
  exclusive := hex

theorem JournalInv.addLease {j : Journal} (h : JournalInv j) {row : LeaseRow}
    (hd : row.leaseId = workspaceLeaseId row.workflowId row.nodeId row.workspaceKey)
    (hnew : ∀ r ∈ j.leases, r.leaseId ≠ row.leaseId)
    (hfree : ∀ l, ¬ Holds j row.nodeId row.workspaceKey l) :
    JournalInv { j with leases := j.leases ++ [row] } where
  leaseIds := by
    simp only [List.map_append, List.map_cons, List.map_nil]
    refine List.Nodup.append h.leaseIds (List.nodup_singleton _) ?_
    rintro x hx hx'
    obtain ⟨r, hr, rfl⟩ := List.mem_map.mp hx
    exact hnew r hr (List.mem_singleton.mp hx')
  derived := by
    intro r hr
    rcases List.mem_append.mp hr with hr | hr
    · exact h.derived r hr
    · rw [List.mem_singleton.mp hr]
      exact hd
  runIds := h.runIds
  exclusive := by
    rintro node key a b ⟨r, hr, rfl, rfl, rfl, hf⟩ ⟨r', hr', rfl, hnode, hkey, hf'⟩
    rcases List.mem_append.mp hr with hr | hr <;> rcases List.mem_append.mp hr' with hr' | hr'
    · exact h.exclusive ⟨r, hr, rfl, rfl, rfl, hf⟩ ⟨r', hr', rfl, hnode, hkey, hf'⟩
    · rw [List.mem_singleton.mp hr'] at hnode hkey
      exact absurd ⟨r, hr, rfl, hnode.symm, hkey.symm, hf⟩ (hfree _)
    · rw [List.mem_singleton.mp hr] at hnode hkey
      exact absurd ⟨r', hr', rfl, hnode, hkey, hf'⟩ (hfree _)
    · rw [List.mem_singleton.mp hr, List.mem_singleton.mp hr']

theorem holds_addLease {j : Journal} {row : LeaseRow} (hforce : row.status.inForce = true)
    {node key : String} {l : LeaseId} :
    Holds { j with leases := j.leases ++ [row] } node key l ↔
      Holds j node key l ∨ (row.leaseId = l ∧ row.nodeId = node ∧ row.workspaceKey = key) := by
  constructor
  · rintro ⟨r, hr, hl, hn, hk, hf⟩
    rcases List.mem_append.mp hr with hr | hr
    · exact .inl ⟨r, hr, hl, hn, hk, hf⟩
    · rw [List.mem_singleton.mp hr] at hl hn hk
      exact .inr ⟨hl, hn, hk⟩
  · rintro (⟨r, hr, h⟩ | ⟨hl, hn, hk⟩)
    · exact ⟨r, List.mem_append_left _ hr, h⟩
    · exact ⟨row, List.mem_append_right _ (List.mem_singleton_self _), hl, hn, hk, hforce⟩

/-- No lease is in force on a workspace whose only candidate is a row that is not. -/
theorem free_of_own {j : Journal} {node key : String} {leaseId : LeaseId}
    (hown : ∀ r ∈ j.leases, r.leaseId = leaseId → r.status.inForce = false)
    (hother : (j.activeLeaseRow node key).any (fun r => r.leaseId != leaseId) = false) (l : LeaseId) :
    ¬ Holds j node key l := by
  intro hh
  match hact : j.activeLeaseRow node key with
  | none => exact Journal.activeLeaseRow_none hact l hh
  | some r =>
    have hid : r.leaseId = leaseId := by simpa [hact] using hother
    obtain ⟨r', hr', hl, -, -, hf⟩ := Journal.activeLeaseRow_some hact
    rw [hown r' hr' (hl.trans hid)] at hf
    exact nomatch hf

/-- All a granted acquire does: the workflow's own lease was in force and nothing changes, or
    the workspace was free and the lease is in force from now on. -/
theorem acquire_cases {j j' : Journal} (h : JournalInv j) {workflow node key base : String}
    {row : LeaseRow} {created : Bool}
    (hacq : j.acquireWorkspaceLease workflow node key base = .ok ((row, created), j')) :
    row.leaseId = workspaceLeaseId workflow node key ∧ row.workflowId = workflow ∧ j'.runs = j.runs ∧
    JournalInv j' ∧
    ((created = false ∧ j' = j ∧ Holds j node key (workspaceLeaseId workflow node key)) ∨
     (created = true ∧ row.status = .active ∧ (∀ l, ¬ Holds j node key l) ∧
      ∀ n k l, Holds j' n k l ↔
        Holds j n k l ∨ (n = node ∧ k = key ∧ l = workspaceLeaseId workflow node key))) := by
  unfold Journal.acquireWorkspaceLease at hacq
  match hown : j.leaseRow (workspaceLeaseId workflow node key) with
  | some own =>
    obtain ⟨hmem, hid⟩ := Journal.leaseRow_some hown
    have hcols : own.workflowId = workflow ∧ own.nodeId = node ∧ own.workspaceKey = key := by
      have hd := (h.derived own hmem).symm.trans hid
      simpa [workspaceLeaseId] using hd
    simp only [hown] at hacq
    split at hacq
    · rename_i hforce
      cases hacq
      exact ⟨hid, hcols.1, rfl, h, .inl ⟨rfl, rfl, row, hmem, hid, hcols.2.1, hcols.2.2, hforce⟩⟩
    · rename_i hforce
      split at hacq
      · exact nomatch hacq
      · rename_i hother
        cases hacq
        have hfree := free_of_own
          (fun r hr hr' => by rw [h.row_eq hr hmem (hr'.trans hid.symm)]; simpa using hforce)
          (by simpa using hother)
        have hiff : ∀ n k l, Holds (j.setLease (workspaceLeaseId workflow node key) (Journal.reactivated base)) n k l ↔
            Holds j n k l ∨ (n = node ∧ k = key ∧ l = workspaceLeaseId workflow node key) := by
          intro n k l
          rw [holds_setLease (f := Journal.reactivated base) (fun r => ⟨rfl, rfl, rfl⟩)]
          constructor
          · rintro ⟨r, hr, rfl, rfl, rfl, hf⟩
            by_cases hl : r.leaseId = workspaceLeaseId workflow node key
            · obtain rfl := h.row_eq hr hmem (hl.trans hid.symm)
              exact .inr ⟨hcols.2.1, hcols.2.2, hl⟩
            · rw [if_neg hl] at hf
              exact .inl ⟨r, hr, rfl, rfl, rfl, hf⟩
          · rintro (⟨r, hr, rfl, rfl, rfl, hf⟩ | ⟨rfl, rfl, rfl⟩)
            · refine ⟨r, hr, rfl, rfl, rfl, ?_⟩
              split
              · rfl
              · exact hf
            · exact ⟨own, hmem, hid, hcols.2.1, hcols.2.2, by rw [if_pos rfl]; rfl⟩
        refine ⟨hid, hcols.1, rfl, h.setLease (fun r => ⟨rfl, rfl, rfl, rfl⟩) ?_, .inr ⟨rfl, rfl, hfree, hiff⟩⟩
        intro n k a b ha hb
        rcases (hiff n k a).mp ha with ha | ⟨rfl, rfl, rfl⟩ <;> rcases (hiff _ _ b).mp hb with hb | ⟨hn, hk, rfl⟩
        · exact h.exclusive ha hb
        · exact absurd (hn ▸ hk ▸ ha) (hfree a)
        · exact absurd hb (hfree b)
        · rfl
  | none =>
    simp only [hown] at hacq
    split at hacq
    · exact nomatch hacq
    · rename_i hother
      cases hacq
      have hnone := Journal.leaseRow_none hown
      have hfree := free_of_own (fun r hr hr' => absurd hr' (hnone r hr)) (by simpa using hother)
      refine ⟨rfl, rfl, rfl, h.addLease rfl hnone hfree, .inr ⟨rfl, rfl, hfree, ?_⟩⟩
      intro n k l
      rw [holds_addLease rfl]
      constructor
      · rintro (hl | ⟨rfl, rfl, rfl⟩)
        · exact .inl hl
        · exact .inr ⟨rfl, rfl, rfl⟩
      · rintro (hl | ⟨rfl, rfl, rfl⟩)
        · exact .inl hl
        · exact .inr ⟨rfl, rfl, rfl⟩

/-- All a release does: the lease is in force nowhere afterwards, every other lease is as it
    was, and a lease that was still in force had no run in use. -/
theorem release_cases {j j' : Journal} (h : JournalInv j) {leaseId : LeaseId} {row : LeaseRow}
    (hrel : j.releaseWorkspaceLease leaseId = .ok (row, j')) :
    j'.runs = j.runs ∧ JournalInv j' ∧
    (∀ n k l, Holds j' n k l ↔ Holds j n k l ∧ l ≠ leaseId) ∧
    ((∃ n k, Holds j n k leaseId) → j.isLeaseInUse leaseId = false) := by
  unfold Journal.releaseWorkspaceLease at hrel
  match hrow : j.leaseRow leaseId with
  | none => rw [hrow] at hrel; exact nomatch hrel
  | some r =>
    obtain ⟨hmem, hid⟩ := Journal.leaseRow_some hrow
    simp only [hrow] at hrel
    split at hrel
    · rename_i hreleased
      cases hrel
      have hoff : ∀ n k, ¬ Holds j n k leaseId := by
        rintro n k ⟨r', hr', hl, -, -, hf⟩
        rw [h.row_eq hr' hmem (hl.trans hid.symm), hreleased] at hf
        exact nomatch hf
      refine ⟨rfl, h, fun n k l => ⟨fun hl => ⟨hl, ?_⟩, And.left⟩, fun ⟨n, k, hk⟩ => absurd hk (hoff n k)⟩
      rintro rfl
      exact hoff n k hl
    · split at hrel
      · exact nomatch hrel
      · rename_i huse
        cases hrel
        have hiff : ∀ n k l, Holds (j.setLease leaseId fun r => { r with status := .released }) n k l ↔
            Holds j n k l ∧ l ≠ leaseId := by
          intro n k l
          rw [holds_setLease (f := fun r => { r with status := .released }) (fun r => ⟨rfl, rfl, rfl⟩)]
          constructor
          · rintro ⟨r', hr', rfl, rfl, rfl, hf⟩
            by_cases hl : r'.leaseId = leaseId
            · rw [if_pos hl] at hf
              exact nomatch hf
            · rw [if_neg hl] at hf
              exact ⟨⟨r', hr', rfl, rfl, rfl, hf⟩, hl⟩
          · rintro ⟨⟨r', hr', rfl, rfl, rfl, hf⟩, hl⟩
            exact ⟨r', hr', rfl, rfl, rfl, by rw [if_neg hl]; exact hf⟩
        refine ⟨rfl, h.setLease (fun r => ⟨rfl, rfl, rfl, rfl⟩) ?_, hiff, fun _ => by simpa using huse⟩
        intro n k a b ha hb
        exact h.exclusive ((hiff n k a).mp ha).1 ((hiff n k b).mp hb).1

/-! ## Rows of the lease table -/

/-- A write to one lease leaves the rows of the others. -/
theorem mem_setLease {j : Journal} {leaseId : LeaseId} {f : LeaseRow → LeaseRow}
    (hf : ∀ r, (f r).leaseId = r.leaseId) {r : LeaseRow} (hr : r.leaseId ≠ leaseId) :
    r ∈ (j.setLease leaseId f).leases ↔ r ∈ j.leases := by
  constructor
  · intro h
    obtain ⟨r', hr', heq⟩ := List.mem_map.mp h
    by_cases hid : r'.leaseId = leaseId
    · rw [if_pos hid] at heq
      exact absurd (heq ▸ (hf r').trans hid) hr
    · rw [if_neg hid] at heq
      exact heq ▸ hr'
  · intro h
    exact List.mem_map.mpr ⟨r, h, if_neg hr⟩

/-- A granted lease is in the table and in force, and no other row has changed. -/
theorem acquire_rows {j j' : Journal} {workflow node key base : String} {row : LeaseRow} {created : Bool}
    (hacq : j.acquireWorkspaceLease workflow node key base = .ok ((row, created), j')) :
    row ∈ j'.leases ∧ row.status.inForce = true ∧ (row.status = .active ∨ row ∈ j.leases) ∧
    ∀ r, r.leaseId ≠ workspaceLeaseId workflow node key → (r ∈ j'.leases ↔ r ∈ j.leases) := by
  unfold Journal.acquireWorkspaceLease at hacq
  match hown : j.leaseRow (workspaceLeaseId workflow node key) with
  | some own =>
    obtain ⟨hmem, hid⟩ := Journal.leaseRow_some hown
    simp only [hown] at hacq
    split at hacq
    · rename_i hforce
      cases hacq
      exact ⟨hmem, hforce, .inr hmem, fun _ _ => Iff.rfl⟩
    · split at hacq
      · exact nomatch hacq
      · cases hacq
        exact ⟨List.mem_map.mpr ⟨own, hmem, if_pos hid⟩, rfl, .inl rfl,
          fun _ hr => mem_setLease (f := Journal.reactivated base) (fun _ => rfl) hr⟩
  | none =>
    simp only [hown] at hacq
    split at hacq
    · exact nomatch hacq
    · cases hacq
      refine ⟨List.mem_append_right _ (List.mem_singleton_self _), rfl, .inl rfl, fun r hr => ?_⟩
      rw [List.mem_append]
      refine ⟨fun h => h.resolve_right fun h' => hr ?_, .inl⟩
      rw [List.mem_singleton.mp h']

/-- A released lease has a row that says so, and no other row has changed. -/
theorem release_rows {j j' : Journal} (h : JournalInv j) {leaseId : LeaseId} {row : LeaseRow}
    (hrel : j.releaseWorkspaceLease leaseId = .ok (row, j')) :
    (∃ r ∈ j'.leases, r.leaseId = leaseId ∧ r.status = .released) ∧
    (∀ r ∈ j'.leases, r.leaseId = leaseId → r.status = .released) ∧
    ∀ r, r.leaseId ≠ leaseId → (r ∈ j'.leases ↔ r ∈ j.leases) := by
  unfold Journal.releaseWorkspaceLease at hrel
  match hrow : j.leaseRow leaseId with
  | none => rw [hrow] at hrel; exact nomatch hrel
  | some own =>
    obtain ⟨hmem, hid⟩ := Journal.leaseRow_some hrow
    simp only [hrow] at hrel
    split at hrel
    · rename_i hreleased
      cases hrel
      refine ⟨⟨row, hmem, hid, hreleased⟩, fun r hr hr' => ?_, fun _ _ => Iff.rfl⟩
      rw [h.row_eq hr hmem (hr'.trans hid.symm)]
      exact hreleased
    · split at hrel
      · exact nomatch hrel
      · cases hrel
        refine ⟨⟨{ own with status := .released }, List.mem_map.mpr ⟨own, hmem, if_pos hid⟩, hid, rfl⟩, ?_,
          fun _ hr => mem_setLease (f := fun r => { r with status := .released }) (fun _ => rfl) hr⟩
        intro r hr hr'
        obtain ⟨r', -, heq⟩ := List.mem_map.mp hr
        by_cases hid' : r'.leaseId = leaseId
        · rw [if_pos hid'] at heq
          rw [← heq]
        · rw [if_neg hid'] at heq
          exact absurd (heq ▸ hr') hid'

/-- A write to the row of a run that is not there writes nothing. -/
theorem Journal.map_absent {j : Journal} {runId : String} (h : j.runRow runId = none) (f : RunRow → RunRow) :
    j.runs.map (fun r => if r.remoteRunId = runId then f r else r) = j.runs := by
  conv_rhs => rw [← List.map_id j.runs]
  refine List.map_congr_left fun r hr => ?_
  rw [if_neg (Journal.runRow_none h r hr)]
  rfl

theorem Journal.runRow_ensureRun {j : Journal} {runId : String} (h : j.runRow runId = none) :
    (j.ensureRun runId).runRow runId = some ⟨runId, -1, false, none⟩ := by
  have hfind : j.runs.find? (fun r => r.remoteRunId == runId) = none := h
  simp [Journal.ensureRun, Journal.runRow, List.find?_append, hfind]

/-- All a bind can do: nothing, where the run carries the lease already; write the lease to the
    run's row; or add that row. -/
theorem bind_cases {j j' : Journal} {runId : String} {leaseId : LeaseId}
    (h : j.bindRunToLease runId leaseId = .ok j') :
    (∃ row, j.runRow runId = some row ∧ row.leaseId = some leaseId ∧ j' = j) ∨
    (∃ row, j.runRow runId = some row ∧ row.leaseId = none ∧
      j' = j.setRun runId fun r => { r with leaseId := some leaseId }) ∨
    (j.runRow runId = none ∧ j' = { j with runs := j.runs ++ [⟨runId, -1, false, some leaseId⟩] }) := by
  match hrow : j.runRow runId with
  | some row =>
    simp only [Journal.bindRunToLease, Journal.ensureRun, hrow, Option.bind_some] at h
    cases hl : row.leaseId with
    | some bound =>
      simp only [hl] at h
      split at h
      · exact nomatch h
      · rename_i hb
        cases h
        exact .inl ⟨row, rfl, by rw [hl, not_not.mp hb], rfl⟩
    | none =>
      simp only [hl] at h
      cases h
      exact .inr (.inl ⟨row, rfl, hl, rfl⟩)
  | none =>
    simp only [Journal.bindRunToLease, Journal.runRow_ensureRun hrow, Option.bind_some] at h
    cases h
    refine .inr (.inr ⟨rfl, ?_⟩)
    simp only [Journal.setRun, Journal.ensureRun, hrow, List.map_append, Journal.map_absent hrow,
      List.map_cons, List.map_nil, if_pos]

theorem bind_refused {j : Journal} {runId : String} {leaseId : LeaseId} {e : LeaseError}
    (h : j.bindRunToLease runId leaseId = .error e) :
    ∃ row bound, j.runRow runId = some row ∧ row.leaseId = some bound ∧ bound ≠ leaseId := by
  match hrow : j.runRow runId with
  | some row =>
    simp only [Journal.bindRunToLease, Journal.ensureRun, hrow, Option.bind_some] at h
    cases hl : row.leaseId with
    | some bound =>
      simp only [hl] at h
      split at h
      · rename_i hb
        exact ⟨row, bound, rfl, hl, hb⟩
      · exact nomatch h
    | none => simp only [hl] at h; exact nomatch h
  | none =>
    simp only [Journal.bindRunToLease, Journal.runRow_ensureRun hrow, Option.bind_some] at h
    exact nomatch h

/-- What the run-start gate has checked when it lets a run through. -/
structure GatePassed (j : Journal) (node key : String) (presented : Option LeaseId) : Prop where
  leased : ∀ l, presented = some l → Holds j node key l
  unleased : presented = none → ∀ l, ¬ Holds j node key l

theorem validate_ok {j : Journal} {node key : String} {presented : Option LeaseId}
    (hv : j.validateWorkspaceLeaseForRun node key presented = .ok ()) : GatePassed j node key presented := by
  unfold Journal.validateWorkspaceLeaseForRun at hv
  split at hv
  · split at hv <;> exact nomatch hv
  · rename_i leaseId active hact
    split at hv
    · exact nomatch hv
    · rename_i hid
      refine ⟨?_, fun h => (nomatch h)⟩
      rintro l ⟨⟩
      rw [not_not.mp hid]
      exact Journal.activeLeaseRow_some hact
  · exact nomatch hv
  · rename_i hact
    exact ⟨fun l h => (nomatch h), fun _ => Journal.activeLeaseRow_none hact⟩

end VibeNode
