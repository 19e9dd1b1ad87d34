import VibeWorkflow.RunStartProofs

/-!
# Mutual exclusion in a Node's workspaces

The Node as a state machine: its journal file, the backends it has started, the event logs it
follows, and whether the daemon is up with its journal open. Steps are the lease requests, run
starts, binds, the end of a backend, journaled events, and the daemon's stops and restarts.

* `step_journal` — every step keeps the journal's invariants, so at most one lease is in force
  per workspace whatever happens;
* `NodeInv` — a live run under a lease is bound and its lease is in force; a live run without
  one is in a workspace that is not leased;
* `node_excludes` — the invariant holds along every run in which a lease is only granted over
  an idle workspace and the start path could read and write the journal;
* `acquire_over_running` — the Node grants a lease over a workspace where an unleased run works.
-/

namespace VibeNode

/-! ## The Node -/

/-- A backend the Node has started. `ended` once its log holds its terminal event. -/
structure NodeRun where
  record : RunRecord
  ended : Bool
deriving DecidableEq, Repr

structure Node where
  journal : Journal
  /-- `nodeJournal !== undefined`: the daemon has the file open. -/
  isOpen : Bool
  up : Bool
  runs : List NodeRun
  /-- The runs whose event log `tailRunEvents` follows. -/
  tailed : List String
deriving DecidableEq, Repr

def Node.initial : Node := ⟨Journal.empty, false, false, [], []⟩

/-- The journal as the handlers see it. -/
def Node.authority (n : Node) : Option Journal := if n.isOpen then some n.journal else none

inductive NodeAct where
  | lease (probe : LeaseProbe) (req : LeaseRequest)
  | start (env : StartEnv) (msg : RunStart)
  | bind (runId : String) (leaseId : LeaseId)
  | ends (runId : String)
  | event (runId : String) (terminal : Bool)
  | idle (runId : String)
  | stop
  | exit
  | restart (opens : Bool)

/-- `JOURNAL_LIMITS.events_per_run`. -/
def eventsPerRun : Int := 200000

/-- The state after a start: the journal it wrote, the run whose backend is up, and whether its
    log is followed. A process that exited follows nothing. -/
def Node.afterStart (n : Node) (res : StartResult) : Node :=
  let runs := n.runs ++ (res.live.map fun record => ⟨record, false⟩).toList
  let journal := res.journal.getD n.journal
  match res.ack with
  | none => { n with journal := journal, runs := runs, isOpen := false, up := false, tailed := [] }
  | some _ =>
    { n with
      journal := journal
      runs := runs
      tailed := if res.tailed then n.tailed ++ (res.live.map (·.runId)).toList else n.tailed }

/-- `generateRunId` gives an id that no run and no journal row has. -/
def Node.fresh (n : Node) (runId : String) : Bool :=
  n.runs.all (fun r => r.record.runId != runId) && (n.journal.runRow runId).isNone

def Node.step (nodeId : String) (n : Node) : NodeAct → Option Node
  | .lease probe req =>
    if !n.up then none
    else some { n with journal := (handleWorkspaceLeaseRequest nodeId probe n.authority req).2.getD n.journal }
  | .start env msg =>
    if !n.up || !n.fresh env.runId then none
    else some (n.afterStart (handleRunStart nodeId env n.authority msg))
  | .bind runId leaseId =>
    if !n.up || !n.isOpen then none
    else match n.journal.bindRunToLease runId leaseId with
    | .ok j => some { n with journal := j }
    | .error _ => some n
  | .ends runId =>
    some { n with runs := n.runs.map fun r => if r.record.runId = runId then { r with ended := true } else r }
  | .event runId terminal =>
    -- a terminal event is in the log only once the backend has written it
    if !n.up || !n.tailed.contains runId ||
        (terminal && n.runs.any fun r => r.record.runId == runId && !r.ended) then none
    else
      let tailed := if terminal then n.tailed.erase runId else n.tailed
      if n.isOpen then
        match n.journal.append eventsPerRun runId terminal with
        | some j => some { n with journal := j, tailed := tailed }
        | none => some n
      else some { n with tailed := tailed }
  | .idle runId => some { n with tailed := n.tailed.erase runId }
  | .stop => some { n with isOpen := false }
  | .exit => some { n with isOpen := false, up := false, tailed := [] }
  | .restart opens => some { n with isOpen := opens, up := true, tailed := [] }

/-- The nodes some run reaches whose steps all satisfy `ok`. -/
inductive NodeReach (nodeId : String) (ok : Node → NodeAct → Prop) : Node → Prop where
  | initial : NodeReach nodeId ok Node.initial
  | step {n n' : Node} {a : NodeAct} :
      NodeReach nodeId ok n → ok n a → n.step nodeId a = some n' → NodeReach nodeId ok n'

/-! ## The journal along a run -/

theorem JournalInv.setRun {j : Journal} (h : JournalInv j) {runId : String} {f : RunRow → RunRow}
    (hf : ∀ r, (f r).remoteRunId = r.remoteRunId) : JournalInv (j.setRun runId f) where
  leaseIds := h.leaseIds
  derived := h.derived
  runIds := by
    have hids : (j.setRun runId f).runs.map (·.remoteRunId) = j.runs.map (·.remoteRunId) := by
      simp only [Journal.setRun, List.map_map]
      refine List.map_congr_left fun r _ => ?_
      by_cases hid : r.remoteRunId = runId
      · simp [hid, hf r]
      · simp [hid]
    rw [hids]
    exact h.runIds
  exclusive := h.exclusive

theorem JournalInv.addRun {j : Journal} (h : JournalInv j) {row : RunRow}
    (hnew : j.runRow row.remoteRunId = none) : JournalInv { j with runs := j.runs ++ [row] } where
  leaseIds := h.leaseIds
  derived := h.derived
  runIds := by
    simp only [List.map_append, List.map_cons, List.map_nil]
    refine List.Nodup.append h.runIds (List.nodup_singleton _) ?_
    rintro x hx hx'
    obtain ⟨r, hr, rfl⟩ := List.mem_map.mp hx
    exact Journal.runRow_none hnew r hr (List.mem_singleton.mp hx')
  exclusive := h.exclusive

theorem JournalInv.ensureRun {j : Journal} (h : JournalInv j) (runId : String) :
    JournalInv (j.ensureRun runId) := by
  unfold Journal.ensureRun
  split
  · exact h
  · rename_i hnone
    exact h.addRun hnone

theorem JournalInv.bind {j j' : Journal} (h : JournalInv j) {runId : String} {leaseId : LeaseId}
    (hb : j.bindRunToLease runId leaseId = .ok j') : JournalInv j' := by
  rcases bind_cases hb with ⟨_, -, -, rfl⟩ | ⟨_, -, -, rfl⟩ | ⟨hnone, rfl⟩
  · exact h
  · exact h.setRun fun _ => rfl
  · exact h.addRun hnone

theorem bind_leases {j j' : Journal} {runId : String} {leaseId : LeaseId}
    (hb : j.bindRunToLease runId leaseId = .ok j') : j'.leases = j.leases := by
  rcases bind_cases hb with ⟨_, -, -, rfl⟩ | ⟨_, -, -, rfl⟩ | ⟨-, rfl⟩ <;> rfl

/-- All an append does: one event on the run's row, which `ensureRun` may have added. -/
theorem append_cases {limit : Int} {j j' : Journal} {runId : String} {terminal : Bool}
    (h : j.append limit runId terminal = some j') :
    j' = (j.ensureRun runId).setRun runId fun r =>
      { r with lastSequence := r.lastSequence + 1, terminalEventRecorded := r.terminalEventRecorded || terminal } := by
  unfold Journal.append at h
  obtain ⟨run, -, h⟩ := Option.bind_eq_some_iff.mp h
  split at h
  · exact nomatch h
  · exact (Option.some.inj h).symm

theorem ensureRun_leases (j : Journal) (runId : String) : (j.ensureRun runId).leases = j.leases := by
  unfold Journal.ensureRun
  split <;> rfl

/-- `Holds` only reads the lease table. -/
theorem holds_congr {j j' : Journal} (h : j'.leases = j.leases) {node key : String} {l : LeaseId} :
    Holds j' node key l ↔ Holds j node key l := by
  unfold Holds
  rw [h]

theorem bindRun_leases {fault : Bool} {authority : Option Journal} {record : RunRecord} {j' : Journal}
    (h : bindRun fault authority record = some j') : ∃ j, authority = some j ∧ j'.leases = j.leases ∧
      (JournalInv j → JournalInv j') := by
  unfold bindRun at h
  split at h
  · rename_i j leaseId _
    refine ⟨j, rfl, ?_⟩
    split at h
    · cases h; exact ⟨rfl, id⟩
    · split at h
      · rename_i hb
        cases h
        exact ⟨bind_leases hb, fun hj => hj.bind hb⟩
      · cases h; exact ⟨rfl, id⟩
  · exact ⟨j', h, rfl, id⟩

/-- All a lease request can do to the journal: nothing, a granted acquire, or a release. -/
theorem leaseRequest_cases (nodeId : String) (probe : LeaseProbe) (j : Journal) (req : LeaseRequest) :
    ∃ j', (handleWorkspaceLeaseRequest nodeId probe (some j) req).2 = some j' ∧
      (j' = j ∨
       (∃ workflowId key base granted, req = .acquire workflowId key ∧
          j.acquireWorkspaceLease workflowId nodeId key base = .ok (granted, j')) ∨
       (∃ leaseId row, req = .release leaseId ∧ j.releaseWorkspaceLease leaseId = .ok (row, j'))) := by
  cases req with
  | acquire workflowId key =>
    simp only [handleWorkspaceLeaseRequest]
    split
    · exact ⟨j, rfl, .inl rfl⟩
    · split
      · exact ⟨j, rfl, .inl rfl⟩
      · split
        · exact ⟨j, rfl, .inl rfl⟩
        · rename_i hacq
          exact ⟨_, rfl, .inr (.inl ⟨_, _, _, _, rfl, hacq⟩)⟩
  | get leaseId =>
    simp only [handleWorkspaceLeaseRequest]
    split <;> exact ⟨j, rfl, .inl rfl⟩
  | release leaseId =>
    simp only [handleWorkspaceLeaseRequest]
    split
    · exact ⟨j, rfl, .inl rfl⟩
    · rename_i hrel
      exact ⟨_, rfl, .inr (.inr ⟨_, _, rfl, hrel⟩)⟩

/-- A start writes at most one run's binding. -/
theorem start_journal_cases {nodeId : String} {env : StartEnv} {authority : Option Journal} {msg : RunStart}
    {j' : Journal} (h : (handleRunStart nodeId env authority msg).journal = some j') :
    ∃ j, authority = some j ∧ j'.leases = j.leases ∧ (JournalInv j → JournalInv j') := by
  cases hadm : admitRun nodeId env authority msg with
  | error ack =>
    have hres : (handleRunStart nodeId env authority msg).journal = authority := by
      unfold handleRunStart
      rw [hadm]
    exact ⟨j', hres.symm.trans h, rfl, id⟩
  | ok record => exact bindRun_leases ((start_journal hadm).symm.trans h)

theorem Node.authority_some {n : Node} {j : Journal} (h : n.authority = some j) : n.isOpen = true ∧ j = n.journal := by
  unfold Node.authority at h
  split at h
  · rename_i hopen
    exact ⟨hopen, (Option.some.inj h).symm⟩
  · exact nomatch h

theorem afterStart_journal (n : Node) (res : StartResult) :
    (n.afterStart res).journal = res.journal.getD n.journal := by
  unfold Node.afterStart
  cases res.ack <;> rfl

theorem afterStart_runs (n : Node) (res : StartResult) :
    (n.afterStart res).runs = n.runs ++ (res.live.map fun record => ⟨record, false⟩).toList := by
  unfold Node.afterStart
  cases res.ack <;> rfl

/-- Every step keeps the journal's own invariants. -/
theorem step_journal {nodeId : String} {n n' : Node} {a : NodeAct} (h : JournalInv n.journal)
    (hs : n.step nodeId a = some n') : JournalInv n'.journal := by
  cases a with
  | lease probe req =>
    simp only [Node.step] at hs
    split at hs
    · exact nomatch hs
    · cases hs
      show JournalInv ((handleWorkspaceLeaseRequest nodeId probe n.authority req).2.getD n.journal)
      cases hauth : n.authority with
      | none => simpa [handleWorkspaceLeaseRequest] using h
      | some j =>
        obtain ⟨-, rfl⟩ := Node.authority_some hauth
        obtain ⟨j', hj', hcase⟩ := leaseRequest_cases nodeId probe n.journal req
        rw [hj']
        rcases hcase with rfl | ⟨_, _, _, _, -, hacq⟩ | ⟨_, _, -, hrel⟩
        · exact h
        · exact (acquire_cases h hacq).2.2.2.1
        · exact (release_cases h hrel).2.1
  | start env msg =>
    simp only [Node.step] at hs
    split at hs
    · exact nomatch hs
    · cases hs
      rw [afterStart_journal]
      cases hj : (handleRunStart nodeId env n.authority msg).journal with
      | none => exact h
      | some j' =>
        obtain ⟨j, hauth, -, hinv⟩ := start_journal_cases hj
        obtain ⟨-, rfl⟩ := Node.authority_some hauth
        exact hinv h
  | bind runId leaseId =>
    simp only [Node.step] at hs
    split at hs
    · exact nomatch hs
    · split at hs
      · rename_i hb
        cases hs
        exact h.bind hb
      · cases hs
        exact h
  | event runId terminal =>
    simp only [Node.step] at hs
    split at hs
    · exact nomatch hs
    · split at hs
      · split at hs
        · rename_i happ
          cases hs
          rw [append_cases happ]
          exact (h.ensureRun runId).setRun fun _ => rfl
        · cases hs
          exact h
      · cases hs
        exact h
  | ends runId => cases hs; exact h
  | idle runId => cases hs; exact h
  | stop => cases hs; exact h
  | exit => cases hs; exact h
  | restart opens => cases hs; exact h

theorem reach_journal {nodeId : String} {ok : Node → NodeAct → Prop} {n : Node} (h : NodeReach nodeId ok n) :
    JournalInv n.journal := by
  induction h with
  | initial => exact JournalInv.empty
  | step _ _ hs ih => exact step_journal ih hs

/-! ## Live runs and the leases in force -/

/-- A live run under a lease is bound to it and the lease is in force on its workspace; a live
    run without one is in a workspace that no lease is in force on. -/
structure NodeInv (nodeId : String) (n : Node) : Prop where
  bound : ∀ run ∈ n.runs, run.ended = false → ∀ l, run.record.leaseId = some l →
    UsedBy n.journal run.record.runId l
  leased : ∀ run ∈ n.runs, run.ended = false → ∀ l, run.record.leaseId = some l →
    Holds n.journal nodeId run.record.workspaceKey l
  unleased : ∀ run ∈ n.runs, run.ended = false → run.record.leaseId = none →
    ∀ l, ¬ Holds n.journal nodeId run.record.workspaceKey l

/-- The workspace key `handleRunStart` uses. -/
def startKey (env : StartEnv) (msg : RunStart) : String :=
  match msg.cwd with
  | some _ => env.runId
  | none => msg.workspaceKey.getD env.runId

/-- The step does not reach one of the gaps: a lease newly granted covers no live run, and a
    start either finds the journal open and can write its binding, or needs neither. -/
def Orderly (nodeId : String) (n : Node) : NodeAct → Prop
  | .lease _ (.acquire workflowId key) =>
    Holds n.journal nodeId key (workspaceLeaseId workflowId nodeId key) ∨
      ∀ run ∈ n.runs, run.ended = false → run.record.workspaceKey ≠ key
  | .start env msg =>
    (n.isOpen = true ∨ ∀ l, ¬ Holds n.journal nodeId (startKey env msg) l) ∧
      ((presentedLeaseId msg).isSome = true → env.bindFault = false)
  | _ => True

theorem UsedBy.inUse {j : Journal} {runId : String} {l : LeaseId} (h : UsedBy j runId l) :
    j.isLeaseInUse l = true := by
  obtain ⟨r, hr, -, hl, hterm⟩ := h
  exact List.any_eq_true.mpr ⟨r, hr, by simp [hl, hterm]⟩

theorem UsedBy.bind {j j' : Journal} (hj : JournalInv j) {runId runId' : String} {l l' : LeaseId}
    (hb : j.bindRunToLease runId' l' = .ok j') (h : UsedBy j runId l) : UsedBy j' runId l := by
  obtain ⟨r, hr, hid, hl, hterm⟩ := h
  rcases bind_cases hb with ⟨_, -, -, rfl⟩ | ⟨row, hrow, hnone, rfl⟩ | ⟨-, rfl⟩
  · exact ⟨r, hr, hid, hl, hterm⟩
  · refine ⟨r, List.mem_map.mpr ⟨r, hr, if_neg ?_⟩, hid, hl, hterm⟩
    intro hid'
    obtain ⟨hmem, hrid⟩ := Journal.runRow_some hrow
    rw [List.inj_on_of_nodup_map hj.runIds hr hmem (hid'.trans hrid.symm), hnone] at hl
    exact nomatch hl
  · exact ⟨r, List.mem_append_left _ hr, hid, hl, hterm⟩

theorem UsedBy.append {limit : Int} {j j' : Journal} {runId runId' : String} {l : LeaseId} {terminal : Bool}
    (happ : j.append limit runId' terminal = some j') (hkeep : runId = runId' → terminal = false)
    (h : UsedBy j runId l) : UsedBy j' runId l := by
  obtain ⟨r, hr, hid, hl, hterm⟩ := h
  have hr' : r ∈ (j.ensureRun runId').runs := by
    unfold Journal.ensureRun
    split
    · exact hr
    · exact List.mem_append_left _ hr
  rw [append_cases happ]
  refine ⟨_, List.mem_map.mpr ⟨r, hr', rfl⟩, ?_⟩
  by_cases hsame : r.remoteRunId = runId'
  · rw [if_pos hsame]
    refine ⟨hid, hl, ?_⟩
    show (r.terminalEventRecorded || terminal) = false
    rw [hterm, hkeep (hid.symm.trans hsame)]
    rfl
  · rw [if_neg hsame]
    exact ⟨hid, hl, hterm⟩

/-- A step that keeps the runs, what is in force and who uses what keeps the invariant. -/
theorem NodeInv.frame {nodeId : String} {n n' : Node} (h : NodeInv nodeId n) (hruns : n'.runs = n.runs)
    (hholds : ∀ key l, Holds n'.journal nodeId key l ↔ Holds n.journal nodeId key l)
    (hused : ∀ run ∈ n.runs, run.ended = false → ∀ l, UsedBy n.journal run.record.runId l →
      UsedBy n'.journal run.record.runId l) : NodeInv nodeId n' := by
  constructor
  · intro run hrun hlive l hl
    rw [hruns] at hrun
    exact hused run hrun hlive l (h.bound run hrun hlive l hl)
  · intro run hrun hlive l hl
    rw [hruns] at hrun
    exact (hholds _ l).mpr (h.leased run hrun hlive l hl)
  · intro run hrun hlive hl l hh
    rw [hruns] at hrun
    exact h.unleased run hrun hlive hl l ((hholds _ l).mp hh)

/-- A started run is the admitted one, with its session filled in. -/
theorem start_live {nodeId : String} {env : StartEnv} {authority : Option Journal} {msg : RunStart} {r : RunRecord}
    (h : (handleRunStart nodeId env authority msg).live = some r) :
    ∃ record, admitRun nodeId env authority msg = .ok record ∧ r.runId = record.runId ∧
      r.workspaceKey = record.workspaceKey ∧ r.leaseId = record.leaseId := by
  unfold handleRunStart at h
  cases hadm : admitRun nodeId env authority msg with
  | error ack => rw [hadm] at h; exact nomatch h
  | ok record =>
    rw [hadm] at h
    refine ⟨record, rfl, ?_⟩
    cases hstart : env.backendStart with
    | error message => simp only [hstart] at h; exact nomatch h
    | ok sessionId =>
      cases hup : env.update with
      | written => simp only [hstart, hup] at h; cases h; exact ⟨rfl, rfl, rfl⟩
      | throws message => simp only [hstart, hup] at h; cases h; exact ⟨rfl, rfl, rfl⟩
      | exits => simp only [hstart, hup] at h; cases h; exact ⟨rfl, rfl, rfl⟩

theorem admitted_key {nodeId : String} {env : StartEnv} {authority : Option Journal} {msg : RunStart}
    {record : RunRecord} (h : Admitted nodeId env authority msg record) : record.workspaceKey = startKey env msg := by
  have hws := h.workspace
  unfold resolveWorkspace at hws
  unfold startKey
  cases hcwd : msg.cwd with
  | some cwd =>
    simp only [hcwd] at hws
    split at hws
    · exact nomatch hws
    · split at hws
      · exact nomatch hws
      · exact (congrArg Prod.fst (Except.ok.inj hws)).symm
  | none =>
    simp only [hcwd] at hws
    split at hws
    · exact nomatch hws
    · exact nomatch hws
    · exact (congrArg Prod.fst (Except.ok.inj hws)).symm

/-- What the gate established for an admitted run, over the journal before the bind. -/
theorem Admitted.gate {nodeId : String} {env : StartEnv} {n : Node} {msg : RunStart} {record : RunRecord}
    (h : Admitted nodeId env n.authority msg record)
    (hopen : n.isOpen = true ∨ ∀ l, ¬ Holds n.journal nodeId (startKey env msg) l) :
    GatePassed n.journal nodeId record.workspaceKey (presentedLeaseId msg) ∧
      ((presentedLeaseId msg).isSome = true → n.authority = some n.journal) := by
  have hlease := h.lease
  cases hauth : n.authority with
  | some j =>
    obtain ⟨hisOpen, rfl⟩ := Node.authority_some hauth
    rw [hauth, checkLease_leased] at hlease
    exact ⟨validate_ok hlease.2, fun _ => rfl⟩
  | none =>
    have hnone : presentedLeaseId msg = none := by
      rw [hauth] at hlease
      unfold checkLease at hlease
      simpa using hlease
    have hclosed : n.isOpen = false := by
      unfold Node.authority at hauth
      simpa using hauth
    rw [hnone, admitted_key h]
    refine ⟨⟨fun l hl => (nomatch hl), fun _ => ?_⟩, fun hl => (nomatch hl)⟩
    rcases hopen with hopen | hfree
    · rw [hclosed] at hopen
      exact nomatch hopen
    · exact hfree

/-- What a start leaves in the journal: the leases of before, and every use of one. -/
theorem start_keeps {n : Node} (hj : JournalInv n.journal) (nodeId : String) (env : StartEnv) (msg : RunStart) :
    ((handleRunStart nodeId env n.authority msg).journal.getD n.journal).leases = n.journal.leases ∧
    ∀ runId l, UsedBy n.journal runId l →
      UsedBy ((handleRunStart nodeId env n.authority msg).journal.getD n.journal) runId l := by
  have hsame : n.authority.getD n.journal = n.journal := by
    unfold Node.authority
    split <;> rfl
  cases hadm : admitRun nodeId env n.authority msg with
  | error ack =>
    have hres : (handleRunStart nodeId env n.authority msg).journal = n.authority := by
      unfold handleRunStart
      rw [hadm]
    rw [hres, hsame]
    exact ⟨rfl, fun _ _ hu => hu⟩
  | ok record =>
    rw [start_journal hadm]
    unfold bindRun
    split
    · rename_i j l hauth hrl
      obtain ⟨-, rfl⟩ := Node.authority_some hauth
      split
      · exact ⟨rfl, fun _ _ hu => hu⟩
      · split
        · rename_i hb
          exact ⟨bind_leases hb, fun _ _ hu => hu.bind hj hb⟩
        · exact ⟨rfl, fun _ _ hu => hu⟩
    · rw [hsame]
      exact ⟨rfl, fun _ _ hu => hu⟩

/-- The binding of a started run under a lease is in the journal. -/
theorem start_binds {nodeId : String} {n : Node} {env : StartEnv} {msg : RunStart} {record : RunRecord} {l : LeaseId}
    (hadm : admitRun nodeId env n.authority msg = .ok record) (hauth : n.authority = some n.journal)
    (hrow : n.journal.runRow env.runId = none) (hbind : env.bindFault = false) (hl : presentedLeaseId msg = some l) :
    UsedBy ((handleRunStart nodeId env n.authority msg).journal.getD n.journal) record.runId l := by
  have hid : record.runId = env.runId ∧ record.leaseId = some l := by
    rw [(admitRun_ok.mp hadm).identity]
    exact ⟨rfl, hl⟩
  have hclaim : ∀ row, n.journal.runRow env.runId = some row →
      row.leaseId = none ∧ row.terminalEventRecorded = false := by
    intro row hr
    rw [hrow] at hr
    exact nomatch hr
  obtain ⟨j', hb, hused⟩ := bind_uses l hclaim
  rw [start_journal hadm, hauth]
  simpa [bindRun, hid.2, hbind, hid.1, hb] using hused

/-- The invariant survives a start that could read and write the journal. -/
theorem start_inv {nodeId : String} {n : Node} {env : StartEnv} {msg : RunStart} (hj : JournalInv n.journal)
    (h : NodeInv nodeId n) (hfresh : n.fresh env.runId = true)
    (hopen : n.isOpen = true ∨ ∀ l, ¬ Holds n.journal nodeId (startKey env msg) l)
    (hbind : (presentedLeaseId msg).isSome = true → env.bindFault = false) :
    NodeInv nodeId (n.afterStart (handleRunStart nodeId env n.authority msg)) := by
  obtain ⟨hleases, hused⟩ := start_keeps hj nodeId env msg
  have hnorow : n.journal.runRow env.runId = none := by
    simpa using (Bool.and_eq_true_iff.mp hfresh).2
  -- every run of the new state is an old one or the one just admitted
  have hmem : ∀ run ∈ (n.afterStart (handleRunStart nodeId env n.authority msg)).runs, run ∈ n.runs ∨
      ∃ record, admitRun nodeId env n.authority msg = .ok record ∧ run.record.runId = record.runId ∧
        run.record.workspaceKey = record.workspaceKey ∧ run.record.leaseId = presentedLeaseId msg := by
    intro run hrun
    rw [afterStart_runs] at hrun
    rcases List.mem_append.mp hrun with hrun | hrun
    · exact .inl hrun
    · obtain ⟨r, hlive, rfl⟩ := Option.map_eq_some_iff.mp (Option.mem_toList.mp hrun)
      obtain ⟨record, hadm, hid, hkey, hl⟩ := start_live hlive
      exact .inr ⟨record, hadm, hid, hkey, hl.trans (by rw [(admitRun_ok.mp hadm).identity])⟩
  constructor
  · intro run hrun hlive l hl
    rw [afterStart_journal]
    rcases hmem run hrun with hold | ⟨record, hadm, hid, -, hrl⟩
    · exact hused _ l (h.bound run hold hlive l hl)
    · have hp : presentedLeaseId msg = some l := hrl.symm.trans hl
      have hsome : (presentedLeaseId msg).isSome = true := by rw [hp]; rfl
      rw [hid]
      exact start_binds hadm (((admitRun_ok.mp hadm).gate hopen).2 hsome) hnorow (hbind hsome) hp
  · intro run hrun hlive l hl
    rw [afterStart_journal, holds_congr hleases]
    rcases hmem run hrun with hold | ⟨record, hadm, -, hkey, hrl⟩
    · exact h.leased run hold hlive l hl
    · rw [hkey]
      exact ((admitRun_ok.mp hadm).gate hopen).1.leased l (hrl.symm.trans hl)
  · intro run hrun hlive hl l
    rw [afterStart_journal, holds_congr hleases]
    rcases hmem run hrun with hold | ⟨record, hadm, -, hkey, hrl⟩
    · exact h.unleased run hold hlive hl l
    · rw [hkey]
      exact ((admitRun_ok.mp hadm).gate hopen).1.unleased (hrl.symm.trans hl) l

/-- A granted acquire keeps the invariant where it covers no live run. -/
theorem acquire_inv {nodeId workflowId key base : String} {n : Node} {granted : LeaseRow × Bool} {j' : Journal}
    (hj : JournalInv n.journal) (h : NodeInv nodeId n)
    (hacq : n.journal.acquireWorkspaceLease workflowId nodeId key base = .ok (granted, j'))
    (hidle : Holds n.journal nodeId key (workspaceLeaseId workflowId nodeId key) ∨
      ∀ run ∈ n.runs, run.ended = false → run.record.workspaceKey ≠ key) :
    NodeInv nodeId { n with journal := j' } := by
  obtain ⟨-, -, hruns, -, hcase⟩ := acquire_cases hj hacq
  rcases hcase with ⟨-, rfl, -⟩ | ⟨-, -, hfree, hiff⟩
  · exact h
  · rcases hidle with hheld | hidle
    · exact absurd hheld (hfree _)
    · constructor
      · intro run hrun hlive l hl
        obtain ⟨r, hr, hrest⟩ := h.bound run hrun hlive l hl
        exact ⟨r, by rw [hruns]; exact hr, hrest⟩
      · intro run hrun hlive l hl
        exact (hiff _ _ _).mpr (.inl (h.leased run hrun hlive l hl))
      · intro run hrun hlive hl l hh
        rcases (hiff _ _ _).mp hh with hh | ⟨-, hkey, -⟩
        · exact h.unleased run hrun hlive hl l hh
        · exact hidle run hrun hlive hkey

/-- A release never takes the lease of a live run: the run is bound and keeps it in use. -/
theorem release_inv {nodeId : String} {n : Node} {leaseId : LeaseId} {row : LeaseRow} {j' : Journal}
    (hj : JournalInv n.journal) (h : NodeInv nodeId n)
    (hrel : n.journal.releaseWorkspaceLease leaseId = .ok (row, j')) : NodeInv nodeId { n with journal := j' } := by
  obtain ⟨hruns, -, hiff, hfree⟩ := release_cases hj hrel
  constructor
  · intro run hrun hlive l hl
    obtain ⟨r, hr, hrest⟩ := h.bound run hrun hlive l hl
    exact ⟨r, by rw [hruns]; exact hr, hrest⟩
  · intro run hrun hlive l hl
    have hheld := h.leased run hrun hlive l hl
    refine (hiff _ _ _).mpr ⟨hheld, ?_⟩
    rintro rfl
    have hused := (h.bound run hrun hlive l hl).inUse
    rw [hfree ⟨_, _, hheld⟩] at hused
    exact nomatch hused
  · intro run hrun hlive hl l hh
    exact h.unleased run hrun hlive hl l ((hiff _ _ _).mp hh).1

/-- One orderly step keeps the invariant. -/
theorem step_inv {nodeId : String} {n n' : Node} {a : NodeAct} (hj : JournalInv n.journal) (h : NodeInv nodeId n)
    (hok : Orderly nodeId n a) (hs : n.step nodeId a = some n') : NodeInv nodeId n' := by
  cases a with
  | lease probe req =>
    simp only [Node.step] at hs
    split at hs
    · exact nomatch hs
    · cases hs
      cases hauth : n.authority with
      | none => simpa [handleWorkspaceLeaseRequest] using h
      | some j =>
        obtain ⟨-, rfl⟩ := Node.authority_some hauth
        obtain ⟨j', hj', hcase⟩ := leaseRequest_cases nodeId probe n.journal req
        rw [hj']
        rcases hcase with rfl | ⟨_, _, _, _, rfl, hacq⟩ | ⟨_, _, rfl, hrel⟩
        · exact h
        · exact acquire_inv hj h hacq hok
        · exact release_inv hj h hrel
  | start env msg =>
    simp only [Node.step] at hs
    split at hs
    · exact nomatch hs
    · rename_i hguard
      cases hs
      have hfresh : n.up = true ∧ n.fresh env.runId = true := by simpa using hguard
      exact start_inv hj h hfresh.2 hok.1 hok.2
  | bind runId leaseId =>
    simp only [Node.step] at hs
    split at hs
    · exact nomatch hs
    · split at hs
      · rename_i hb
        cases hs
        exact h.frame rfl (fun _ _ => holds_congr (bind_leases hb)) fun _ _ _ _ hu => hu.bind hj hb
      · cases hs
        exact h
  | ends runId =>
    cases hs
    -- a run that is live afterwards was live before, with the same record
    have hold : ∀ run ∈ n.runs.map (fun r => if r.record.runId = runId then { r with ended := true } else r),
        run.ended = false → run ∈ n.runs := by
      intro run hrun hlive
      obtain ⟨r, hr, rfl⟩ := List.mem_map.mp hrun
      by_cases hid : r.record.runId = runId
      · rw [if_pos hid] at hlive
        exact nomatch hlive
      · rw [if_neg hid]
        exact hr
    exact ⟨fun run hrun hlive => h.bound run (hold run hrun hlive) hlive,
      fun run hrun hlive => h.leased run (hold run hrun hlive) hlive,
      fun run hrun hlive => h.unleased run (hold run hrun hlive) hlive⟩
  | event runId terminal =>
    simp only [Node.step] at hs
    split at hs
    · exact nomatch hs
    · rename_i hguard
      split at hs
      · split at hs
        · rename_i happ
          cases hs
          refine h.frame rfl (fun _ _ => holds_congr ?_) fun run hrun hlive l hu => hu.append happ ?_
          · rw [append_cases happ]
            exact ensureRun_leases n.journal runId
          · intro hid
            cases terminal with
            | false => rfl
            | true =>
              have hany : n.runs.any (fun r => r.record.runId == runId && !r.ended) = true :=
                List.any_eq_true.mpr ⟨run, hrun, by simp [hid, hlive]⟩
              simp [hany] at hguard
        · cases hs
          exact h
      · cases hs
        exact h.frame rfl (fun _ _ => Iff.rfl) fun _ _ _ _ hu => hu
  | idle runId => cases hs; exact h.frame rfl (fun _ _ => Iff.rfl) fun _ _ _ _ hu => hu
  | stop => cases hs; exact h.frame rfl (fun _ _ => Iff.rfl) fun _ _ _ _ hu => hu
  | exit => cases hs; exact h.frame rfl (fun _ _ => Iff.rfl) fun _ _ _ _ hu => hu
  | restart opens => cases hs; exact h.frame rfl (fun _ _ => Iff.rfl) fun _ _ _ _ hu => hu

theorem reach_inv {nodeId : String} {n : Node} (h : NodeReach nodeId (Orderly nodeId) n) : NodeInv nodeId n := by
  induction h with
  | initial =>
    exact ⟨fun run hrun => (nomatch hrun), fun run hrun => (nomatch hrun), fun run hrun => (nomatch hrun)⟩
  | step hr hok hs ih => exact step_inv (reach_journal hr) ih hok hs

/-! ## Exclusion -/

/-- At most one lease is in force on a workspace. -/
def OneLease (n : Node) : Prop :=
  ∀ r ∈ n.journal.leases, ∀ r' ∈ n.journal.leases, r.status.inForce = true → r'.status.inForce = true →
    r.nodeId = r'.nodeId → r.workspaceKey = r'.workspaceKey → r = r'

/-- While a live run works in a workspace under the lease in force there, every live run in that
    workspace has that lease. -/
def RunsExcluded (nodeId : String) (n : Node) : Prop :=
  ∀ run ∈ n.runs, run.ended = false → ∀ l, run.record.leaseId = some l →
    Holds n.journal nodeId run.record.workspaceKey l →
    ∀ other ∈ n.runs, other.ended = false → other.record.workspaceKey = run.record.workspaceKey →
      other.record.leaseId = some l

theorem oneLease_of_inv {n : Node} (h : JournalInv n.journal) : OneLease n := by
  intro r hr r' hr' hf hf' hnode hkey
  exact h.row_eq hr hr'
    (h.exclusive ⟨r, hr, rfl, rfl, rfl, hf⟩ ⟨r', hr', rfl, hnode.symm, hkey.symm, hf'⟩)

/-- **Mutual exclusion on a Node.** In every run at most one lease is in force per workspace. And
    in every run that grants leases over idle workspaces only and never starts a run past an
    unreadable or unwritable journal, a leased workspace holds no live run without its lease. -/
theorem node_excludes (nodeId : String) (n : Node) :
    (NodeReach nodeId (fun _ _ => True) n → OneLease n) ∧
    (NodeReach nodeId (Orderly nodeId) n → RunsExcluded nodeId n) := by
  constructor
  · intro h
    exact oneLease_of_inv (reach_journal h)
  · intro h run _ _ l _ hheld other hother hlive hkey
    have hinv := reach_inv h
    rw [← hkey] at hheld
    cases hl : other.record.leaseId with
    | none => exact absurd hheld (hinv.unleased other hother hlive hl l)
    | some l' =>
      rw [(reach_journal h).exclusive (hinv.leased other hother hlive l' hl) hheld]

/-! ### Sample runs -/

/-- The probes of a workspace that resolves and is observed. -/
def sampleProbe : LeaseProbe := ⟨fun _ => true, some "r0"⟩

/-- A run of agent `codex` in `repo`, under the given lease. -/
def startIn (leaseId : Option LeaseId) : RunStart := ⟨"codex", none, some "repo", false, leaseId, none⟩

def repoLease : LeaseId := workspaceLeaseId "wf" "node" "repo"

/-- The daemon comes up and workflow `wf` leases `repo`, which is idle. -/
def leasedNode : Node :=
  { Node.initial with journal := leasedJournal, isOpen := true, up := true }

theorem leasedNode_reached : NodeReach "node" (Orderly "node") leasedNode := by
  have hup : NodeReach "node" (Orderly "node") { Node.initial with isOpen := true, up := true } :=
    .step .initial (a := .restart true) trivial rfl
  exact .step hup (a := .lease sampleProbe (.acquire "wf" "repo")) (.inr fun run hrun => (nomatch hrun)) (by decide)

/-- A run of the workflow in its leased workspace, alone there. -/
theorem leased_run_alone :
    ∃ n, NodeReach "node" (Orderly "node") n ∧
      (n.runs.any fun r => !r.ended && r.record.leaseId == some repoLease) = true ∧
      OneLease n ∧ RunsExcluded "node" n := by
  have hrun : NodeReach "node" (Orderly "node")
      (leasedNode.afterStart (handleRunStart "node" (sampleEnv "run_1") (some leasedJournal) (startIn (some repoLease)))) :=
    .step leasedNode_reached (a := .start (sampleEnv "run_1") (startIn (some repoLease)))
      ⟨.inl rfl, fun _ => rfl⟩ (by decide)
  exact ⟨_, hrun, by decide, oneLease_of_inv (reach_journal hrun), (node_excludes "node" _).2 hrun⟩

/-- The node with an unleased run at work in `repo`. -/
def busyNode : Node :=
  { Node.initial with isOpen := true, up := true, tailed := ["run_0"]
                      runs := [⟨⟨"run_0", "4711", "codex", "running", "/ws/repo", "repo", none, false⟩, false⟩] }

/-- The Node grants a lease over a workspace where an unleased run works, and then admits a run
    under that lease: both are live in the workspace. -/
theorem acquire_over_running :
    ¬ ∀ n, NodeReach "node" (fun _ _ => True) n → RunsExcluded "node" n := by
  intro hall
  have hup : NodeReach "node" (fun _ _ => True) { Node.initial with isOpen := true, up := true } :=
    .step .initial (a := .restart true) trivial rfl
  have hbusy : NodeReach "node" (fun _ _ => True) busyNode :=
    .step hup (a := .start (sampleEnv "run_0") (startIn none)) trivial (by decide)
  have hleased : NodeReach "node" (fun _ _ => True) { busyNode with journal := leasedJournal } :=
    .step hbusy (a := .lease sampleProbe (.acquire "wf" "repo")) trivial (by decide)
  have hboth : NodeReach "node" (fun _ _ => True) _ :=
    .step hleased (a := .start (sampleEnv "run_1") (startIn (some repoLease))) trivial rfl
  have hexcl := hall _ hboth
    ⟨⟨"run_1", "4711", "codex", "running", "/ws/repo", "repo", some repoLease, false⟩, false⟩ (by decide) rfl repoLease rfl
    ⟨_, List.mem_singleton_self _, rfl, rfl, rfl, rfl⟩
    ⟨⟨"run_0", "4711", "codex", "running", "/ws/repo", "repo", none, false⟩, false⟩ (by decide) rfl rfl
  exact nomatch hexcl

end VibeNode
