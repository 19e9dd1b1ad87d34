import VibeWorkflow.NodeLeaseProofs

/-!
# Starting a run under a lease

`handleRunStart` admits a run, records it, binds it to the lease it presented and starts a
backend. The handler has no interleaving inside: the backend's `start` returns at once and its
continuation runs before any other message. Whatever throws is answered `ok:false` by the
caller's `catch`, with nothing undone.

* `admitRun_ok` — what an admitted run has passed;
* `failed_start_frees_lease` — a failed start leaves its lease free exactly when it fails before
  the bind takes effect;
* `start_failure_holds_lease` — a backend that throws leaves the lease unreleasable.
-/

namespace VibeNode

open VibeAdmission (bind_ok_iff)

/-! ## `handleRunStart` -/

/-- `RunStartMsg`, as far as the start path reads it. -/
structure RunStart where
  agent : String
  cwd : Option String
  workspaceKey : Option String
  workspaceWrite : Bool
  leaseId : Option LeaseId
  promptContent : Option String
deriving DecidableEq, Repr

structure RunRecord where
  runId : String
  sessionId : String
  agent : String
  status : String
  workspacePath : String
  workspaceKey : String
  leaseId : Option LeaseId
  workspaceWrite : Bool
deriving DecidableEq, Repr

/-- What `resolveAllowedCwd` and `resolveContainedWorkspace` answer. -/
inductive Resolution where
  | resolved (path : String)
  | denied (code message : String)
deriving DecidableEq, Repr

/-- `updateRun` reads the record back, and exits the process where the file is gone. -/
inductive UpdateOutcome where
  | written
  | throws (message : String)
  | exits
deriving DecidableEq, Repr

/-- What the process and its filesystem do during one start. A fault is the message of the
    exception thrown at that point; `bindFault` is the one the code swallows. -/
structure StartEnv where
  supportedAgents : List String
  runId : String
  resolveAllowedCwd : String → Resolution
  resolveContainedWorkspace : String → Except String Resolution
  gateFault : Option String
  mkdirFault : Option String
  promptFault : Option String
  recordFault : Option String
  bindFault : Bool
  backendStart : Except String String
  update : UpdateOutcome

inductive StartAck where
  | started (record : RunRecord)
  | failed (error code : String)
deriving DecidableEq, Repr

/-- The caller's `catch`: an exception is answered with its message. -/
def thrown (message : String) : StartAck := .failed message "internal_error"

/-- A statement that may throw. -/
def attempt (fault : Option String) : Except StartAck Unit :=
  match fault with
  | some message => .error (thrown message)
  | none => .ok ()

/-- A statement that runs under a condition. -/
def attemptIf (cond : Bool) (fault : Option String) : Except StartAck Unit :=
  if cond then attempt fault else .ok ()

/-- `msg.workspace_lease_id ?? null`, tested for truth wherever it is read: the empty text
    presents no lease. -/
def presentedLeaseId (msg : RunStart) : Option LeaseId :=
  msg.leaseId.filter fun l => l ≠ .other ""

def checkAgent (env : StartEnv) (msg : RunStart) : Except StartAck Unit :=
  if env.supportedAgents.contains msg.agent then .ok ()
  else .error (.failed ("Agent not supported: " ++ msg.agent ++ ". Supported: " ++
    ", ".intercalate env.supportedAgents ++ ".") "agent_not_supported")

/-- The two mutually exclusive workspace models: the key and the path of the run. -/
def resolveWorkspace (env : StartEnv) (msg : RunStart) : Except StartAck (String × String) :=
  match msg.cwd with
  | some cwd =>
    if msg.workspaceKey.isSome || msg.workspaceWrite || (presentedLeaseId msg).isSome then
      .error (.failed "cwd is mutually exclusive with workspace_key, workspace_write, and workspace_lease_id"
        "cwd_not_allowed")
    else match env.resolveAllowedCwd cwd with
    | .denied code message => .error (.failed message code)
    | .resolved path => .ok (env.runId, path)
  | none =>
    let key := msg.workspaceKey.getD env.runId
    match env.resolveContainedWorkspace key with
    | .error message => .error (thrown message)
    | .ok (.denied code message) => .error (.failed message code)
    | .ok (.resolved path) => .ok (key, path)

/-- The lease gate; a node without a journal cannot enforce a presented lease. -/
def checkLease (nodeId : String) (env : StartEnv) (authority : Option Journal) (msg : RunStart)
    (workspaceKey : String) : Except StartAck Unit :=
  match authority with
  | none =>
    if (presentedLeaseId msg).isSome then
      .error (.failed "this node cannot enforce workspace leases" LeaseCode.unsupported.text)
    else .ok ()
  | some j => do
    attempt env.gateFault
    match j.validateWorkspaceLeaseForRun nodeId workspaceKey (presentedLeaseId msg) with
    | .error e => .error (.failed "workspace lease check failed" e.code.text)
    | .ok () => .ok ()

/-- `handleRunStart` up to `writeRun`: the record of an admitted run. The journal is only read. -/
def admitRun (nodeId : String) (env : StartEnv) (authority : Option Journal) (msg : RunStart) :
    Except StartAck RunRecord := do
  checkAgent env msg
  let ws ← resolveWorkspace env msg
  checkLease nodeId env authority msg ws.1
  attemptIf msg.cwd.isNone env.mkdirFault
  attemptIf msg.promptContent.isSome env.promptFault
  attempt env.recordFault
  .ok ⟨env.runId, "", msg.agent, "queued", ws.2, ws.1, presentedLeaseId msg, msg.workspaceWrite⟩

/-- The best-effort bind: an exception is swallowed. -/
def bindRun (bindFault : Bool) (authority : Option Journal) (record : RunRecord) : Option Journal :=
  match authority, record.leaseId with
  | some j, some leaseId =>
    if bindFault then some j
    else match j.bindRunToLease record.runId leaseId with
    | .ok j' => some j'
    | .error _ => some j
  | authority, _ => authority

/-- What a start leaves: its answer (`none` where the process exited), the journal, the run
    whose backend is up, and whether the node follows that run's events. -/
structure StartResult where
  ack : Option StartAck
  journal : Option Journal
  live : Option RunRecord
  tailed : Bool

def handleRunStart (nodeId : String) (env : StartEnv) (authority : Option Journal) (msg : RunStart) :
    StartResult :=
  match admitRun nodeId env authority msg with
  | .error ack => ⟨some ack, authority, none, false⟩
  | .ok record =>
    let journal := bindRun env.bindFault authority record
    match env.backendStart with
    | .error message => ⟨some (thrown message), journal, none, false⟩
    | .ok sessionId =>
      match env.update with
      | .throws message => ⟨some (thrown message), journal, some record, false⟩
      | .exits => ⟨none, journal, some record, false⟩
      | .written =>
        let running := { record with sessionId := sessionId, status := "running" }
        ⟨some (.started running), journal, some running, true⟩

/-! ## What an admitted run has passed -/

theorem attempt_ok {fault : Option String} : attempt fault = .ok () ↔ fault = none := by
  cases fault <;> simp [attempt]

theorem attemptIf_ok {cond : Bool} {fault : Option String} :
    attemptIf cond fault = .ok () ↔ (cond = true → fault = none) := by
  cases cond <;> simp [attemptIf, attempt_ok]

theorem checkAgent_ok {env : StartEnv} {msg : RunStart} :
    checkAgent env msg = .ok () ↔ msg.agent ∈ env.supportedAgents := by
  unfold checkAgent
  split <;> simp_all

/-- Everything a run has passed when its record is written. -/
structure Admitted (nodeId : String) (env : StartEnv) (authority : Option Journal) (msg : RunStart)
    (record : RunRecord) : Prop where
  agent : msg.agent ∈ env.supportedAgents
  workspace : resolveWorkspace env msg = .ok (record.workspaceKey, record.workspacePath)
  lease : checkLease nodeId env authority msg record.workspaceKey = .ok ()
  mkdir : msg.cwd.isNone = true → env.mkdirFault = none
  prompt : msg.promptContent.isSome = true → env.promptFault = none
  written : env.recordFault = none
  identity : record = ⟨env.runId, "", msg.agent, "queued", record.workspacePath, record.workspaceKey,
    presentedLeaseId msg, msg.workspaceWrite⟩

theorem admitRun_ok {nodeId : String} {env : StartEnv} {authority : Option Journal} {msg : RunStart}
    {record : RunRecord} :
    admitRun nodeId env authority msg = .ok record ↔ Admitted nodeId env authority msg record := by
  constructor
  · intro h
    obtain ⟨_, hagent, h⟩ := bind_ok_iff.mp h
    obtain ⟨ws, hws, h⟩ := bind_ok_iff.mp h
    obtain ⟨_, hlease, h⟩ := bind_ok_iff.mp h
    obtain ⟨_, hmkdir, h⟩ := bind_ok_iff.mp h
    obtain ⟨_, hprompt, h⟩ := bind_ok_iff.mp h
    obtain ⟨_, hrecord, h⟩ := bind_ok_iff.mp h
    cases h
    exact ⟨checkAgent_ok.mp hagent, hws, hlease, attemptIf_ok.mp hmkdir, attemptIf_ok.mp hprompt,
      attempt_ok.mp hrecord, rfl⟩
  · rintro ⟨hagent, hws, hlease, hmkdir, hprompt, hrecord, hid⟩
    simp only [admitRun, checkAgent_ok.mpr hagent, hws, hlease, attemptIf_ok.mpr hmkdir,
      attemptIf_ok.mpr hprompt, attempt_ok.mpr hrecord, bind, Except.bind]
    rw [← hid]

/-! ## A failed start and its lease -/

/-- The run keeps the lease in use. -/
def UsedBy (j : Journal) (runId : String) (leaseId : LeaseId) : Prop :=
  ∃ r ∈ j.runs, r.remoteRunId = runId ∧ r.leaseId = some leaseId ∧ r.terminalEventRecorded = false

/-- A release of the lease would succeed now. -/
def Releasable (j : Journal) (leaseId : LeaseId) : Prop :=
  ∃ row j', j.releaseWorkspaceLease leaseId = .ok (row, j')

/-- **A failed start does not hold the lease**: if the node answers `ok:false`, the start has not
    put the lease in use by its run, and a release that would have succeeded still does. -/
def FailedStartFreesLease (nodeId : String) (env : StartEnv) (j : Journal) (msg : RunStart)
    (leaseId : LeaseId) : Prop :=
  let res := handleRunStart nodeId env (some j) msg
  (∃ error code, res.ack = some (.failed error code)) →
  ∃ j', res.journal = some j' ∧ (UsedBy j' env.runId leaseId → UsedBy j env.runId leaseId) ∧
    (Releasable j leaseId → Releasable j' leaseId)

/-- The request passes every check before the bind, and the bind takes effect: the journal
    writes it, and has no row of that run which is bound or ended already. -/
structure ReachesBind (nodeId : String) (env : StartEnv) (j : Journal) (msg : RunStart)
    (leaseId : LeaseId) : Prop where
  agent : msg.agent ∈ env.supportedAgents
  scratch : msg.cwd = none
  contained : ∃ path, env.resolveContainedWorkspace (msg.workspaceKey.getD env.runId) = .ok (.resolved path)
  gate : j.validateWorkspaceLeaseForRun nodeId (msg.workspaceKey.getD env.runId) (some leaseId) = .ok ()
  gateFault : env.gateFault = none
  mkdirFault : env.mkdirFault = none
  promptFault : msg.promptContent.isSome = true → env.promptFault = none
  recordFault : env.recordFault = none
  bindFault : env.bindFault = false
  unclaimed : ∀ row, j.runRow env.runId = some row → row.leaseId = none ∧ row.terminalEventRecorded = false

/-- The backend does not start, or the record of the started run cannot be written. -/
def LateFailure (env : StartEnv) : Prop :=
  (∃ message, env.backendStart = .error message) ∨
  (∃ sessionId message, env.backendStart = .ok sessionId ∧ env.update = .throws message)

theorem resolveWorkspace_leased {env : StartEnv} {msg : RunStart} {leaseId : LeaseId} {key path : String}
    (hl : presentedLeaseId msg = some leaseId) :
    resolveWorkspace env msg = .ok (key, path) ↔
      msg.cwd = none ∧ key = msg.workspaceKey.getD env.runId ∧
        env.resolveContainedWorkspace key = .ok (.resolved path) := by
  unfold resolveWorkspace
  cases hcwd : msg.cwd with
  | some cwd => simp [hl]
  | none =>
    simp only
    constructor
    · intro h
      split at h
      · exact nomatch h
      · exact nomatch h
      · rename_i hres
        cases h
        exact ⟨trivial, rfl, hres⟩
    · rintro ⟨-, rfl, hres⟩
      rw [hres]

theorem checkLease_leased {nodeId : String} {env : StartEnv} {j : Journal} {msg : RunStart} {key : String} :
    checkLease nodeId env (some j) msg key = .ok () ↔
      env.gateFault = none ∧ j.validateWorkspaceLeaseForRun nodeId key (presentedLeaseId msg) = .ok () := by
  unfold checkLease
  simp only [bind_ok_iff]
  constructor
  · rintro ⟨_, hfault, h⟩
    split at h
    · exact nomatch h
    · rename_i hv
      exact ⟨attempt_ok.mp hfault, hv⟩
  · rintro ⟨hfault, hv⟩
    exact ⟨(), attempt_ok.mpr hfault, by rw [hv]⟩

/-- An admitted run that presented a lease has passed the checks of `ReachesBind`. -/
theorem Admitted.checks {nodeId : String} {env : StartEnv} {j : Journal} {msg : RunStart} {leaseId : LeaseId}
    {record : RunRecord} (hl : presentedLeaseId msg = some leaseId)
    (h : Admitted nodeId env (some j) msg record) (hbind : env.bindFault = false)
    (hrow : ∀ row, j.runRow env.runId = some row → row.leaseId = none ∧ row.terminalEventRecorded = false) :
    ReachesBind nodeId env j msg leaseId := by
  obtain ⟨hcwd, hkey, hres⟩ := (resolveWorkspace_leased hl).mp h.workspace
  obtain ⟨hgf, hv⟩ := checkLease_leased.mp h.lease
  rw [hkey] at hres hv
  rw [hl] at hv
  exact ⟨h.agent, hcwd, ⟨_, hres⟩, hv, hgf, h.mkdir (by rw [hcwd]; rfl), h.prompt, h.written, hbind, hrow⟩

theorem ReachesBind.admitted {nodeId : String} {env : StartEnv} {j : Journal} {msg : RunStart} {leaseId : LeaseId}
    (hl : presentedLeaseId msg = some leaseId) (h : ReachesBind nodeId env j msg leaseId) :
    ∃ record, admitRun nodeId env (some j) msg = .ok record ∧ record.runId = env.runId ∧
      record.leaseId = some leaseId := by
  obtain ⟨path, hres⟩ := h.contained
  refine ⟨⟨env.runId, "", msg.agent, "queued", path, msg.workspaceKey.getD env.runId, presentedLeaseId msg,
    msg.workspaceWrite⟩, admitRun_ok.mpr ?_, rfl, hl⟩
  refine ⟨h.agent, (resolveWorkspace_leased hl).mpr ⟨h.scratch, rfl, hres⟩, ?_, fun _ => h.mkdirFault,
    h.promptFault, h.recordFault, rfl⟩
  rw [checkLease_leased, hl]
  exact ⟨h.gateFault, h.gate⟩

/-- Where the run was unknown to the journal, or known but neither bound nor ended, the bind
    puts the lease in use by it. -/
theorem bind_uses {j : Journal} {runId : String} (leaseId : LeaseId)
    (hrow : ∀ row, j.runRow runId = some row → row.leaseId = none ∧ row.terminalEventRecorded = false) :
    ∃ j', j.bindRunToLease runId leaseId = .ok j' ∧ UsedBy j' runId leaseId := by
  cases hb : j.bindRunToLease runId leaseId with
  | error e =>
    obtain ⟨row, bound, hr, hl, -⟩ := bind_refused hb
    rw [(hrow row hr).1] at hl
    exact nomatch hl
  | ok j' =>
    refine ⟨j', rfl, ?_⟩
    rcases bind_cases hb with ⟨row, hr, hl, -⟩ | ⟨row, hr, -, rfl⟩ | ⟨-, rfl⟩
    · rw [(hrow row hr).1] at hl
      exact nomatch hl
    · obtain ⟨hmem, hid⟩ := Journal.runRow_some hr
      refine ⟨{ row with leaseId := some leaseId }, List.mem_map.mpr ⟨row, hmem, by rw [if_pos hid]⟩, hid, rfl, ?_⟩
      exact (hrow row hr).2
    · exact ⟨_, List.mem_append_right _ (List.mem_singleton_self _), rfl, rfl, rfl⟩

/-- Otherwise the bind leaves every row that is in use as it was. -/
theorem bind_keeps_use {j j' : Journal} (hj : JournalInv j) {runId : String} {leaseId : LeaseId} {row : RunRow}
    (hb : j.bindRunToLease runId leaseId = .ok j') (hrow : j.runRow runId = some row)
    (hclaimed : ¬ (row.leaseId = none ∧ row.terminalEventRecorded = false)) :
    j'.leases = j.leases ∧ ∀ r ∈ j'.runs, r.terminalEventRecorded = false → r ∈ j.runs := by
  rcases bind_cases hb with ⟨_, -, -, rfl⟩ | ⟨row', hr, hl, rfl⟩ | ⟨hr, -⟩
  · exact ⟨rfl, fun r hr _ => hr⟩
  · refine ⟨rfl, ?_⟩
    intro r' hr' hterm
    obtain ⟨r, hr2, rfl⟩ := List.mem_map.mp hr'
    by_cases hid : r.remoteRunId = runId
    · -- the written row is the run's own, which had ended
      obtain rfl : row' = row := Option.some.inj (hr.symm.trans hrow)
      obtain ⟨hmem, hid'⟩ := Journal.runRow_some hr
      obtain rfl := List.inj_on_of_nodup_map hj.runIds hr2 hmem (hid.trans hid'.symm)
      rw [if_pos hid] at hterm
      exact absurd ⟨hl, hterm⟩ hclaimed
    · rw [if_neg hid]
      exact hr2
  · rw [hrow] at hr
    exact nomatch hr

/-- A release reads the lease's row and whether some run that has not ended is bound to it. -/
theorem Releasable.mono {j j' : Journal} {leaseId : LeaseId} (hleases : j'.leases = j.leases)
    (hruns : ∀ r ∈ j'.runs, r.terminalEventRecorded = false → r ∈ j.runs)
    (h : Releasable j leaseId) : Releasable j' leaseId := by
  obtain ⟨row, j'', hrel⟩ := h
  have hrow : j'.leaseRow leaseId = j.leaseRow leaseId := by unfold Journal.leaseRow; rw [hleases]
  have huse : j'.isLeaseInUse leaseId = true → j.isLeaseInUse leaseId = true := by
    simp only [Journal.isLeaseInUse, List.any_eq_true, Bool.and_eq_true, Bool.not_eq_true']
    rintro ⟨r, hr, hb, hterm⟩
    exact ⟨r, hruns r hr hterm, hb, hterm⟩
  unfold Releasable Journal.releaseWorkspaceLease at *
  rw [hrow]
  cases hl : j.leaseRow leaseId with
  | none => rw [hl] at hrel; exact nomatch hrel
  | some r =>
    simp only [hl] at hrel ⊢
    split
    · exact ⟨_, _, rfl⟩
    · rename_i hst
      rw [if_neg hst] at hrel
      split
      · rename_i hin
        rw [if_pos (huse hin)] at hrel
        exact nomatch hrel
      · exact ⟨_, _, rfl⟩

/-- A start whose bind adds no use leaves the lease as free as it was. -/
theorem frees_of_kept {nodeId : String} {env : StartEnv} {j : Journal} {msg : RunStart} {leaseId : LeaseId}
    (j' : Journal) (hres : (handleRunStart nodeId env (some j) msg).journal = some j') (hleases : j'.leases = j.leases)
    (hruns : ∀ r ∈ j'.runs, r.terminalEventRecorded = false → r ∈ j.runs) :
    FailedStartFreesLease nodeId env j msg leaseId := by
  intro _
  refine ⟨j', hres, ?_, Releasable.mono hleases hruns⟩
  rintro ⟨r, hr, hid, hl, hterm⟩
  exact ⟨r, hruns r hr hterm, hid, hl, hterm⟩

theorem start_journal {nodeId : String} {env : StartEnv} {authority : Option Journal} {msg : RunStart}
    {record : RunRecord} (hadm : admitRun nodeId env authority msg = .ok record) :
    (handleRunStart nodeId env authority msg).journal = bindRun env.bindFault authority record := by
  unfold handleRunStart
  rw [hadm]
  cases env.backendStart with
  | error message => rfl
  | ok sessionId => cases env.update <;> rfl

/-- An answer `ok:false` to an admitted run comes from a late failure. -/
theorem failed_late {nodeId : String} {env : StartEnv} {authority : Option Journal} {msg : RunStart}
    {record : RunRecord} (hadm : admitRun nodeId env authority msg = .ok record) :
    (∃ error code, (handleRunStart nodeId env authority msg).ack = some (.failed error code)) ↔ LateFailure env := by
  unfold handleRunStart LateFailure
  rw [hadm]
  cases env.backendStart with
  | error message => simp [thrown]
  | ok sessionId => cases env.update <;> simp [thrown]

/-- **When a failed start frees its lease**: exactly when it did not fail between a bind that took
    effect and the acknowledgement. -/
theorem failed_start_frees_lease (nodeId : String) (env : StartEnv) (j : Journal) (msg : RunStart)
    (leaseId : LeaseId) (hj : JournalInv j) (hl : presentedLeaseId msg = some leaseId) :
    FailedStartFreesLease nodeId env j msg leaseId ↔
      ¬ (ReachesBind nodeId env j msg leaseId ∧ LateFailure env) := by
  constructor
  · rintro hfrees ⟨hreach, hlate⟩
    obtain ⟨record, hadm, hid, hrl⟩ := hreach.admitted hl
    obtain ⟨j', hbind, hused⟩ := bind_uses leaseId hreach.unclaimed
    have hres : (handleRunStart nodeId env (some j) msg).journal = some j' := by
      rw [start_journal hadm]
      simp [bindRun, hrl, hreach.bindFault, hid, hbind]
    obtain ⟨j'', hres', hkeep, -⟩ := hfrees ((failed_late hadm).mpr hlate)
    obtain rfl : j' = j'' := Option.some.inj (hres.symm.trans hres')
    -- before the start the run's row, if there was one, carried no lease
    obtain ⟨r, hr, hrid, hrlease, -⟩ := hkeep hused
    match hrow : j.runRow env.runId with
    | none => exact Journal.runRow_none hrow r hr hrid
    | some row =>
      obtain ⟨hmem, hid'⟩ := Journal.runRow_some hrow
      obtain rfl := List.inj_on_of_nodup_map hj.runIds hr hmem (hrid.trans hid'.symm)
      rw [(hreach.unclaimed r hrow).1] at hrlease
      exact nomatch hrlease
  · intro hnot
    cases hadm : admitRun nodeId env (some j) msg with
    | error ack =>
      refine frees_of_kept j ?_ rfl (fun r hr _ => hr)
      unfold handleRunStart
      rw [hadm]
    | ok record =>
      have hok := admitRun_ok.mp hadm
      have hrid : record.runId = env.runId := by rw [hok.identity]
      have hrl : record.leaseId = some leaseId := by rw [hok.identity]; exact hl
      by_cases hlate : LateFailure env
      · have hnr : ¬ ReachesBind nodeId env j msg leaseId := fun hr => hnot ⟨hr, hlate⟩
        cases hbf : env.bindFault with
        | true =>
          refine frees_of_kept j ?_ rfl (fun r hr _ => hr)
          rw [start_journal hadm]
          simp [bindRun, hrl, hbf]
        | false =>
          cases hb : j.bindRunToLease env.runId leaseId with
          | error e =>
            refine frees_of_kept j ?_ rfl (fun r hr _ => hr)
            rw [start_journal hadm]
            simp [bindRun, hrl, hbf, hrid, hb]
          | ok j' =>
            obtain ⟨row, hrow, hclaimed⟩ : ∃ row, j.runRow env.runId = some row ∧
                ¬ (row.leaseId = none ∧ row.terminalEventRecorded = false) := by
              by_contra hno
              refine hnr (hok.checks hl hbf fun row hrow => ?_)
              by_contra hc
              exact hno ⟨row, hrow, hc⟩
            obtain ⟨hleases, hruns⟩ := bind_keeps_use hj hb hrow hclaimed
            refine frees_of_kept j' ?_ hleases hruns
            rw [start_journal hadm]
            simp [bindRun, hrl, hbf, hrid, hb]
      · intro hfail
        exact absurd ((failed_late hadm).mp hfail) hlate

/-! ### A sample node -/

/-- A node that supports one agent, has room on disk and starts backends. -/
def sampleEnv (runId : String) : StartEnv where
  supportedAgents := ["codex"]
  runId := runId
  resolveAllowedCwd := fun path => .resolved path
  resolveContainedWorkspace := fun key => .ok (.resolved ("/ws/" ++ key))
  gateFault := none
  mkdirFault := none
  promptFault := none
  recordFault := none
  bindFault := false
  backendStart := .ok "4711"
  update := .written

/-- Workflow `wf` leases the workspace `repo`. -/
def leasedJournal : Journal :=
  ⟨[], [⟨workspaceLeaseId "wf" "node" "repo", "wf", "node", "repo", .active, "r0", "r0"⟩]⟩

theorem leasedJournal_inv : JournalInv leasedJournal where
  leaseIds := by decide
  derived := by decide
  runIds := List.nodup_nil
  exclusive := by
    rintro node key a b ⟨r, hr, rfl, -, -, -⟩ ⟨r', hr', rfl, -, -, -⟩
    rw [List.mem_singleton.mp hr, List.mem_singleton.mp hr']

/-- A run for agent `agent` in `repo` under the workflow's lease. -/
def leasedStart (agent : String) : RunStart :=
  ⟨agent, none, some "repo", false, some (workspaceLeaseId "wf" "node" "repo"), none⟩

theorem unsupported_agent_frees :
    (handleRunStart "node" (sampleEnv "run_1") (some leasedJournal) (leasedStart "gpt")).ack =
      some (.failed "Agent not supported: gpt. Supported: codex." "agent_not_supported") ∧
    FailedStartFreesLease "node" (sampleEnv "run_1") leasedJournal (leasedStart "gpt")
      (workspaceLeaseId "wf" "node" "repo") := by
  refine ⟨by decide, (failed_start_frees_lease "node" (sampleEnv "run_1") leasedJournal (leasedStart "gpt")
    (workspaceLeaseId "wf" "node" "repo") leasedJournal_inv rfl).mpr ?_⟩
  rintro ⟨hreach, -⟩
  exact absurd hreach.agent (by decide)

/-- The backend's `start` throws: the answer is `ok:false`, no process runs, and yet the lease,
    releasable before, is now refused as in use by the run that never started. -/
theorem start_failure_holds_lease :
    let env := { sampleEnv "run_1" with backendStart := .error "spawn ENOMEM" }
    let leaseId := workspaceLeaseId "wf" "node" "repo"
    let res := handleRunStart "node" env (some leasedJournal) (leasedStart "codex")
    res.ack = some (.failed "spawn ENOMEM" "internal_error") ∧ res.live = none ∧
    (leasedJournal.releaseWorkspaceLease leaseId).toOption.isSome = true ∧
    (res.journal.map fun j => j.releaseWorkspaceLease leaseId) =
      some (.error ⟨.inUse, "a non-terminal run is still bound to this lease"⟩) ∧
    ¬ FailedStartFreesLease "node" env leasedJournal (leasedStart "codex") leaseId := by
  refine ⟨by decide, by decide, by decide, by decide, ?_⟩
  intro hfrees
  obtain ⟨j', hj', hkeep, -⟩ := hfrees ⟨"spawn ENOMEM", "internal_error", by decide⟩
  obtain rfl : Journal.mk [⟨"run_1", -1, false, some (workspaceLeaseId "wf" "node" "repo")⟩] leasedJournal.leases = j' :=
    Option.some.inj ((by decide : some (Journal.mk _ _) = _).trans hj')
  obtain ⟨r, hr, -⟩ := hkeep ⟨_, List.mem_singleton_self _, rfl, rfl, rfl⟩
  exact nomatch hr

end VibeNode
