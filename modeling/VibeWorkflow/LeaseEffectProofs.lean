import VibeWorkflow.LeaseRuntimeProofs

/-!
# What lease calls do

One statement for each call of the lease code: what it may answer, which rows of the Nodes' lease
tables and of the workflow's projections it changes, and that it changes nothing else.

* **`acquire_effect`**, **`release_effect`**, **`get_effect`** — a request to a Node, whatever becomes
  of its acknowledgement.
* **`foreign_effect`** — a Node's other moves leave this workflow's leases.
* **`exec_frame`** — the parts of the world a call leaves alone.
-/

namespace VibeNode

/-- Only lease requests write the lease table. -/
theorem step_leases {nodeId : String} {n n' : Node} {a : NodeAct} (hs : n.step nodeId a = some n')
    (hreq : ∀ probe req, a ≠ .lease probe req) : n'.journal.leases = n.journal.leases := by
  cases a with
  | lease probe req => exact absurd rfl (hreq probe req)
  | start env msg =>
    simp only [Node.step] at hs
    split at hs
    · cases hs
    · cases hs
      rw [afterStart_journal]
      cases hj : (handleRunStart nodeId env n.authority msg).journal with
      | none => rfl
      | some j' =>
        obtain ⟨j, hauth, hl, -⟩ := start_journal_cases hj
        obtain ⟨-, rfl⟩ := Node.authority_some hauth
        exact hl
  | bind runId leaseId =>
    simp only [Node.step] at hs
    split at hs
    · cases hs
    · split at hs
      · rename_i hb
        cases hs
        exact bind_leases hb
      · cases hs
        rfl
  | event runId terminal =>
    simp only [Node.step] at hs
    split at hs
    · cases hs
    · split at hs
      · split at hs
        · rename_i happ
          cases hs
          show _ = n.journal.leases
          rw [append_cases happ]
          exact ensureRun_leases n.journal runId
        · cases hs
          rfl
      · cases hs
        rfl
  | ends runId => cases hs; rfl
  | idle runId => cases hs; rfl
  | stop => cases hs; rfl
  | exit => cases hs; rfl
  | restart opens => cases hs; rfl

end VibeNode

namespace VibeLease

open VibeJson VibeContract VibeTemplate VibeValidator VibeStore VibeAdmission VibeControl VibeNode
open AsyncLogic
open VibeRuntime (AcquireOutcome Config)

/-! ## Leases at the Nodes -/

/-- The rows a Node has for leases. -/
def World.rows (w : World) (node : String) : List LeaseRow := (w.nodes node).journal.leases

/-- The lease is in force at the Node. -/
def Live (w : World) (node : String) (id : LeaseId) : Prop :=
  ∃ r ∈ w.rows node, r.leaseId = id ∧ r.status.inForce = true

/-- The Node has released the lease. -/
def Released (w : World) (node : String) (id : LeaseId) : Prop :=
  ∃ r ∈ w.rows node, r.leaseId = id ∧ r.status = .released

/-- What every Node keeps of its lease table. -/
structure NodesInv (w : World) : Prop where
  journal : ∀ node, JournalInv (w.nodes node).journal
  plain : ∀ node, ∀ r ∈ w.rows node, r.status = .active ∨ r.status = .released
  home : ∀ node, ∀ r ∈ w.rows node, r.nodeId = node

/-- Only rows of one lease at one Node may have changed. -/
def Others (w w' : World) (node : String) (id : LeaseId) : Prop :=
  ∀ n r, (n = node → r.leaseId ≠ id) → (r ∈ w'.rows n ↔ r ∈ w.rows n)

/-- No row has changed. -/
def SameRows (w w' : World) : Prop := ∀ n, w'.rows n = w.rows n

section

variable {w w' : World} {node : String} {id : LeaseId}

theorem Released.not_live (hi : NodesInv w) (h : Released w node id) : ¬ Live w node id := by
  obtain ⟨r, hr, hid, hs⟩ := h
  rintro ⟨r', hr', hid', hf⟩
  rw [(hi.journal node).row_eq hr' hr (hid'.trans hid.symm), hs] at hf
  exact nomatch hf

theorem SameRows.live (h : SameRows w w') : Live w' node id ↔ Live w node id := by
  unfold Live
  rw [h node]

theorem SameRows.released (h : SameRows w w') : Released w' node id ↔ Released w node id := by
  unfold Released
  rw [h node]

theorem SameRows.others (h : SameRows w w') : Others w w' node id := by
  intro n r _
  rw [h n]

theorem Others.live (h : Others w w' node id) {n : String} {l : LeaseId} (hne : n = node → l ≠ id) :
    Live w' n l ↔ Live w n l := by
  constructor
  · rintro ⟨r, hr, rfl, hf⟩
    exact ⟨r, (h n r hne).mp hr, rfl, hf⟩
  · rintro ⟨r, hr, rfl, hf⟩
    exact ⟨r, (h n r hne).mpr hr, rfl, hf⟩

/-- A lease of this workflow in force has an active row in its name. -/
theorem Live.row {cfg : Config} {t : Target} (hi : NodesInv w) (h : Live w t.nodeId (t.leaseId cfg)) :
    ∃ r ∈ w.rows t.nodeId, r.leaseId = t.leaseId cfg ∧ r.status = .active ∧
      r.workflowId = cfg.workflowId ∧ r.workspaceKey = t.workspaceKey := by
  obtain ⟨r, hr, hid, hf⟩ := h
  have hd := ((hi.journal t.nodeId).derived r hr).symm.trans hid
  simp only [Target.leaseId, workspaceLeaseId, LeaseId.derived.injEq] at hd
  refine ⟨r, hr, hid, ?_, hd.1, hd.2.2⟩
  rcases hi.plain t.nodeId r hr with hs | hs
  · exact hs
  · rw [hs] at hf
    cases hf

end

/-! ## Changing one Node -/

section

variable {w : World} {node : String} {n' : Node}

theorem rows_setNode_self : (w.setNode node n').rows node = n'.journal.leases := by
  show (Function.update w.nodes node n' node).journal.leases = _
  rw [Function.update_self]

theorem rows_setNode_ne {n : String} (h : n ≠ node) : (w.setNode node n').rows n = w.rows n := by
  show (Function.update w.nodes node n' n).journal.leases = _
  rw [Function.update_of_ne h]
  rfl

/-- A Node whose table is as it was. -/
theorem sameRows_setNode (h : n'.journal.leases = w.rows node) : SameRows w (w.setNode node n') := by
  intro n
  by_cases hn : n = node
  · subst hn
    rw [rows_setNode_self, h]
  · rw [rows_setNode_ne hn]

theorem others_setNode {id : LeaseId}
    (h : ∀ r, r.leaseId ≠ id → (r ∈ n'.journal.leases ↔ r ∈ w.rows node)) :
    Others w (w.setNode node n') node id := by
  intro n r hne
  by_cases hn : n = node
  · subst hn
    rw [rows_setNode_self]
    exact h r (hne rfl)
  · rw [rows_setNode_ne hn]

theorem NodesInv.setNode (hi : NodesInv w) (hj : JournalInv n'.journal)
    (hrows : ∀ r ∈ n'.journal.leases, r ∈ w.rows node ∨ (r.status = .active ∨ r.status = .released) ∧ r.nodeId = node) :
    NodesInv (w.setNode node n') := by
  have hof : ∀ n, ∀ r ∈ (w.setNode node n').rows n,
      (r.status = .active ∨ r.status = .released) ∧ r.nodeId = n := by
    intro n r hr
    by_cases hn : n = node
    · subst hn
      rw [rows_setNode_self] at hr
      rcases hrows r hr with h | h
      · exact ⟨hi.plain n r h, hi.home n r h⟩
      · exact h
    · rw [rows_setNode_ne hn] at hr
      exact ⟨hi.plain n r hr, hi.home n r hr⟩
  refine ⟨fun n => ?_, fun n r hr => (hof n r hr).1, fun n r hr => (hof n r hr).2⟩
  by_cases hn : n = node
  · subst hn
    show JournalInv (Function.update w.nodes n n' n).journal
    rw [Function.update_self]
    exact hj
  · show JournalInv (Function.update w.nodes node n' n).journal
    rw [Function.update_of_ne hn]
    exact hi.journal n

theorem NodesInv.unchanged (hi : NodesInv w) (h : n'.journal = (w.nodes node).journal) :
    NodesInv (w.setNode node n') := by
  refine hi.setNode (h ▸ hi.journal node) (fun r hr => .inl ?_)
  rw [h] at hr
  exact hr

/-- A grant or a release writes one lease of the Node. -/
theorem NodesInv.granted {workflow key base : String} {granted : LeaseRow × Bool} {m : Node} (hi : NodesInv w)
    (h : (w.nodes node).journal.acquireWorkspaceLease workflow node key base = .ok (granted, m.journal)) :
    NodesInv (w.setNode node m) ∧ Others w (w.setNode node m) node (workspaceLeaseId workflow node key) ∧
      granted.1 ∈ (w.setNode node m).rows node ∧ granted.1.leaseId = workspaceLeaseId workflow node key ∧
      granted.1.status.inForce = true := by
  obtain ⟨hid, -, -, hj, -⟩ := acquire_cases (hi.journal node) h
  obtain ⟨hmem, hforce, hplain, hother⟩ := acquire_rows h
  refine ⟨hi.setNode hj ?_, others_setNode hother, ?_, hid, hforce⟩
  · intro r hr
    by_cases hr' : r.leaseId = workspaceLeaseId workflow node key
    · have heq : r = granted.1 := hj.row_eq hr hmem (hr'.trans hid.symm)
      have hd := (hj.derived r hr).symm.trans hr'
      simp only [workspaceLeaseId, LeaseId.derived.injEq] at hd
      subst heq
      rcases hplain with hs | hold
      · exact .inr ⟨.inl hs, hd.2.1⟩
      · exact .inl hold
    · exact .inl ((hother r hr').mp hr)
  · rw [rows_setNode_self]
    exact hmem

theorem NodesInv.gaveUp {id : LeaseId} {row : LeaseRow} {m : Node} (hi : NodesInv w)
    (h : (w.nodes node).journal.releaseWorkspaceLease id = .ok (row, m.journal)) :
    NodesInv (w.setNode node m) ∧ Others w (w.setNode node m) node id ∧
      Released (w.setNode node m) node id := by
  obtain ⟨-, hj, -, -⟩ := release_cases (hi.journal node) h
  obtain ⟨⟨r, hr, hid, hs⟩, hall, hother⟩ := release_rows (hi.journal node) h
  refine ⟨hi.setNode hj ?_, others_setNode hother, ⟨r, by rw [rows_setNode_self]; exact hr, hid, hs⟩⟩
  intro r' hr'
  by_cases hid' : r'.leaseId = id
  · refine .inr ⟨.inr (hall r' hr' hid'), ?_⟩
    -- the only row of the lease was in this Node's table before
    obtain ⟨own, hmem, hown⟩ : ∃ own ∈ w.rows node, own.leaseId = id := by
      unfold Journal.releaseWorkspaceLease at h
      cases hrow : (w.nodes node).journal.leaseRow id with
      | none =>
        rw [hrow] at h
        exact nomatch h
      | some own => exact ⟨own, Journal.leaseRow_some hrow⟩
    have hd := (hj.derived r' hr').symm.trans hid'
    rw [← hown, (hi.journal node).derived own hmem] at hd
    simp only [workspaceLeaseId, LeaseId.derived.injEq] at hd
    rw [hd.2.1, hi.home node own hmem]
  · exact .inl ((hother r' hid').mp hr')

end

/-! ## Requests -/

/-- The Node once it has handled a request. -/
def afterRequest (n : Node) (node : String) (probe : LeaseProbe) (req : LeaseRequest) : Node :=
  { n with journal := (handleWorkspaceLeaseRequest node probe n.authority req).2.getD n.journal }

/-- An acquire is refused, or the journal grants it. -/
theorem handle_acquire (n : Node) (node : String) (probe : LeaseProbe) (workflow key : String) :
    let res := handleWorkspaceLeaseRequest node probe n.authority (.acquire workflow key)
    (res.2.getD n.journal = n.journal ∧ ∃ code, unwrapLease res.1 = .error code) ∨
      ∃ granted base, n.journal.acquireWorkspaceLease workflow node key base = .ok (granted, res.2.getD n.journal) ∧
        unwrapLease res.1 = .ok granted.1 := by
  cases hauth : n.authority with
  | none => exact .inl ⟨rfl, _, rfl⟩
  | some j =>
    obtain ⟨-, rfl⟩ := Node.authority_some hauth
    simp only [handleWorkspaceLeaseRequest]
    split
    · exact .inl ⟨rfl, _, rfl⟩
    · split
      · exact .inl ⟨rfl, _, rfl⟩
      · split
        · exact .inl ⟨rfl, _, rfl⟩
        · rename_i hacq
          exact .inr ⟨_, _, hacq, rfl⟩

/-- A release is refused, or the journal makes it. -/
theorem handle_release (n : Node) (node : String) (probe : LeaseProbe) (id : LeaseId) :
    let res := handleWorkspaceLeaseRequest node probe n.authority (.release id)
    (res.2.getD n.journal = n.journal ∧ ∃ code, unwrapLease res.1 = .error code) ∨
      ∃ row, n.journal.releaseWorkspaceLease id = .ok (row, res.2.getD n.journal) ∧
        unwrapLease res.1 = .ok row := by
  cases hauth : n.authority with
  | none => exact .inl ⟨rfl, _, rfl⟩
  | some j =>
    obtain ⟨-, rfl⟩ := Node.authority_some hauth
    simp only [handleWorkspaceLeaseRequest]
    split
    · exact .inl ⟨rfl, _, rfl⟩
    · rename_i hrel
      exact .inr ⟨_, hrel, rfl⟩

/-- A read gives the row the journal has. -/
theorem handle_get (n : Node) (node : String) (probe : LeaseProbe) (id : LeaseId) :
    let res := handleWorkspaceLeaseRequest node probe n.authority (.get id)
    res.2.getD n.journal = n.journal ∧
      ∀ row, unwrapLease res.1 = .ok row → row ∈ n.journal.leases ∧ row.leaseId = id := by
  cases hauth : n.authority with
  | none => exact ⟨rfl, fun _ h => by cases h⟩
  | some j =>
    obtain ⟨-, rfl⟩ := Node.authority_some hauth
    simp only [handleWorkspaceLeaseRequest]
    split
    · rename_i row hrow
      refine ⟨rfl, ?_⟩
      rintro row' ⟨⟩
      exact Journal.leaseRow_some hrow
    · exact ⟨rfl, fun _ h => by cases h⟩

section

variable {w w' : World} {node : String} {req : LeaseRequest} {d : Delivery} {res : Except String LeaseRow}

/-- A remote call fails with the world as it was, or its Node has handled it. -/
theorem remote_cases (h : w.remote node req d = some (res, w')) :
    ((∃ code, res = .error code) ∧ w' = w) ∨
    ∃ probe, w' = w.setNode node (afterRequest (w.nodes node) node probe req) ∧
      ((∃ code, res = .error code) ∨
        res = unwrapLease (handleWorkspaceLeaseRequest node probe (w.nodes node).authority req).1) := by
  cases d with
  | refused code =>
    cases h
    exact .inl ⟨⟨code, rfl⟩, rfl⟩
  | acked probe =>
    obtain ⟨⟨ack, w₁⟩, hreq, heq⟩ := Option.map_eq_some_iff.mp h
    cases heq
    simp only [World.request] at hreq
    split at hreq
    · cases hreq
      exact .inr ⟨probe, rfl, .inr rfl⟩
    · exact nomatch hreq
  | lost probe =>
    obtain ⟨⟨ack, w₁⟩, hreq, heq⟩ := Option.map_eq_some_iff.mp h
    cases heq
    simp only [World.request] at hreq
    split at hreq
    · cases hreq
      exact .inr ⟨probe, rfl, .inl ⟨_, rfl⟩⟩
    · exact nomatch hreq

/-- What a request may have done to the world outside the Nodes: nothing. -/
def NodesOnly (w w' : World) : Prop := ∃ nodes, w' = { w with nodes := nodes }

theorem NodesOnly.refl (w : World) : NodesOnly w w := ⟨_, rfl⟩

theorem nodesOnly_setNode (w : World) (node : String) (n : Node) : NodesOnly w (w.setNode node n) := ⟨_, rfl⟩

/-- **An acquire**, whatever becomes of its acknowledgement: at most its own lease comes into force,
    and a lease it returns is in force in this workflow's name. -/
theorem acquire_effect {workflow key : String} (hi : NodesInv w)
    (h : w.remote node (.acquire workflow key) d = some (res, w')) :
    NodesOnly w w' ∧ NodesInv w' ∧ Others w w' node (workspaceLeaseId workflow node key) ∧
      (Live w node (workspaceLeaseId workflow node key) → Live w' node (workspaceLeaseId workflow node key)) ∧
      ∀ row, res = .ok row → row.leaseId = workspaceLeaseId workflow node key ∧
        Live w' node (workspaceLeaseId workflow node key) := by
  rcases remote_cases h with ⟨⟨code, rfl⟩, rfl⟩ | ⟨probe, rfl, hres⟩
  · exact ⟨NodesOnly.refl w', hi, (fun _ _ _ => Iff.rfl), id, nofun⟩
  · refine ⟨nodesOnly_setNode _ _ _, ?_⟩
    rcases handle_acquire (w.nodes node) node probe workflow key with ⟨hj, code, hack⟩ | ⟨granted, base, hacq, hack⟩
    · have hsame : SameRows w (w.setNode node (afterRequest (w.nodes node) node probe (.acquire workflow key))) :=
        sameRows_setNode (congrArg Journal.leases hj)
      refine ⟨hi.unchanged hj, hsame.others, hsame.live.mpr, ?_⟩
      rintro row rfl
      rcases hres with ⟨_, hc⟩ | hc
      · exact nomatch hc
      · rw [hack] at hc
        exact nomatch hc
    · obtain ⟨hi', hothers, hmem, hid, hforce⟩ := hi.granted
        (m := afterRequest (w.nodes node) node probe (.acquire workflow key)) hacq
      refine ⟨hi', hothers, fun _ => ⟨_, hmem, hid, hforce⟩, ?_⟩
      rintro row rfl
      rcases hres with ⟨_, hc⟩ | hc
      · exact nomatch hc
      · rw [hack] at hc
        cases hc
        exact ⟨hid, _, hmem, hid, hforce⟩

/-- **A release**, whatever becomes of its acknowledgement: at most its own lease goes out of force,
    and it is released where the call succeeds. -/
theorem release_effect {id : LeaseId} (hi : NodesInv w)
    (h : w.remote node (.release id) d = some (res, w')) :
    NodesOnly w w' ∧ NodesInv w' ∧ Others w w' node id ∧ (Live w' node id → Live w node id) ∧
      (Released w node id → Released w' node id) ∧ ∀ row, res = .ok row → Released w' node id := by
  rcases remote_cases h with ⟨⟨code, rfl⟩, rfl⟩ | ⟨probe, rfl, hres⟩
  · exact ⟨NodesOnly.refl w', hi, (fun _ _ _ => Iff.rfl), fun h => h, fun h => h, nofun⟩
  · refine ⟨nodesOnly_setNode _ _ _, ?_⟩
    rcases handle_release (w.nodes node) node probe id with ⟨hj, code, hack⟩ | ⟨row, hrel, hack⟩
    · have hsame : SameRows w (w.setNode node (afterRequest (w.nodes node) node probe (.release id))) :=
        sameRows_setNode (congrArg Journal.leases hj)
      refine ⟨hi.unchanged hj, hsame.others, hsame.live.mp, hsame.released.mpr, ?_⟩
      rintro row rfl
      rcases hres with ⟨_, hc⟩ | hc
      · exact nomatch hc
      · rw [hack] at hc
        exact nomatch hc
    · obtain ⟨hi', hothers, hgone⟩ := hi.gaveUp
        (m := afterRequest (w.nodes node) node probe (.release id)) hrel
      exact ⟨hi', hothers, fun hl => absurd hl (hgone.not_live hi'), fun _ => hgone, fun _ _ => hgone⟩

/-- **A read** changes no lease and tells the row the Node has. -/
theorem get_effect {id : LeaseId} (hi : NodesInv w) (h : w.remote node (.get id) d = some (res, w')) :
    NodesOnly w w' ∧ NodesInv w' ∧ SameRows w w' ∧
      ∀ row, res = .ok row → row ∈ w'.rows node ∧ row.leaseId = id := by
  rcases remote_cases h with ⟨⟨code, rfl⟩, rfl⟩ | ⟨probe, rfl, hres⟩
  · exact ⟨NodesOnly.refl w', hi, (fun _ => rfl), nofun⟩
  · obtain ⟨hj, hrow⟩ := handle_get (w.nodes node) node probe id
    refine ⟨nodesOnly_setNode _ _ _, ?_⟩
    have hsame : SameRows w (w.setNode node (afterRequest (w.nodes node) node probe (.get id))) :=
      sameRows_setNode (congrArg Journal.leases hj)
    refine ⟨hi.unchanged hj, hsame, ?_⟩
    rintro row rfl
    rcases hres with ⟨_, hc⟩ | hc
    · exact nomatch hc
    · rw [hsame node]
      exact hrow row hc.symm

end

/-! ## The Nodes' other moves -/

/-- No row of this workflow has changed. -/
def OwnRows (cfg : Config) (w w' : World) : Prop :=
  ∀ n r, r.workflowId = cfg.workflowId → (r ∈ w'.rows n ↔ r ∈ w.rows n)

theorem OwnRows.live {cfg : Config} {w w' : World} (h : OwnRows cfg w w') (hi : NodesInv w) (hi' : NodesInv w')
    (n node key : String) :
    Live w' n (workspaceLeaseId cfg.workflowId node key) ↔ Live w n (workspaceLeaseId cfg.workflowId node key) := by
  have hown : ∀ {v : World}, NodesInv v → ∀ r ∈ v.rows n,
      r.leaseId = workspaceLeaseId cfg.workflowId node key → r.workflowId = cfg.workflowId := by
    intro v hv r hr hid
    have hd := ((hv.journal n).derived r hr).symm.trans hid
    simp only [workspaceLeaseId, LeaseId.derived.injEq] at hd
    exact hd.1
  constructor
  · rintro ⟨r, hr, hid, hf⟩
    exact ⟨r, (h n r (hown hi' r hr hid)).mp hr, hid, hf⟩
  · rintro ⟨r, hr, hid, hf⟩
    exact ⟨r, (h n r (hown hi r hr hid)).mpr hr, hid, hf⟩

/-- A change that leaves the rows of one lease leaves a workflow it does not belong to. -/
theorem Others.own {cfg : Config} {w w' : World} {node : String} {id : LeaseId} (h : Others w w' node id)
    (hi : NodesInv w) (hi' : NodesInv w') (hid : ∀ n k, id ≠ workspaceLeaseId cfg.workflowId n k) :
    OwnRows cfg w w' := by
  intro n r hr
  by_cases hmem : r ∈ w.rows n
  · have hd := (hi.journal n).derived r hmem
    rw [hr] at hd
    exact h n r (fun _ heq => hid _ _ (heq.symm.trans hd))
  · refine ⟨fun hmem' => ?_, fun hmem' => absurd hmem' hmem⟩
    have hd := (hi'.journal n).derived r hmem'
    rw [hr] at hd
    exact (h n r (fun _ heq => hid _ _ (heq.symm.trans hd))).mp hmem'

/-- **A Node's other moves leave this workflow's leases.** -/
theorem foreign_effect {cfg : Config} {w : World} {node : String} {act : NodeAct} {n' : Node} (hi : NodesInv w)
    (hf : foreign cfg act = true) (hs : (w.nodes node).step node act = some n') :
    NodesInv (w.setNode node n') ∧ OwnRows cfg w (w.setNode node n') := by
  have hsame : n'.journal.leases = w.rows node →
      NodesInv (w.setNode node n') ∧ OwnRows cfg w (w.setNode node n') := by
    intro hl
    refine ⟨hi.setNode (step_journal (hi.journal node) hs) (fun r hr => .inl (hl ▸ hr)), ?_⟩
    intro n r _
    rw [sameRows_setNode hl n]
  cases act with
  | lease probe req =>
    simp only [Node.step] at hs
    split at hs
    · cases hs
    · cases hs
      cases req with
      | acquire workflow key =>
        rcases handle_acquire (w.nodes node) node probe workflow key with ⟨hj, -⟩ | ⟨granted, base, hacq, -⟩
        · exact hsame (congrArg Journal.leases hj)
        · obtain ⟨hi', hothers, -⟩ := hi.granted
            (m := afterRequest (w.nodes node) node probe (.acquire workflow key)) hacq
          refine ⟨hi', hothers.own hi hi' ?_⟩
          intro n k heq
          simp only [workspaceLeaseId, LeaseId.derived.injEq] at heq
          exact of_decide_eq_true hf heq.1
      | get id =>
        exact hsame (congrArg Journal.leases (handle_get (w.nodes node) node probe id).1)
      | release id =>
        rcases handle_release (w.nodes node) node probe id with ⟨hj, -⟩ | ⟨row, hrel, -⟩
        · exact hsame (congrArg Journal.leases hj)
        · obtain ⟨hi', hothers, -⟩ := hi.gaveUp
            (m := afterRequest (w.nodes node) node probe (.release id)) hrel
          refine ⟨hi', hothers.own hi hi' ?_⟩
          rintro n k rfl
          exact of_decide_eq_true hf rfl
  | start env msg => exact hsame (step_leases hs (fun _ _ h => by cases h))
  | bind runId leaseId => exact hsame (step_leases hs (fun _ _ h => by cases h))
  | ends runId => exact hsame (step_leases hs (fun _ _ h => by cases h))
  | event runId terminal => exact hsame (step_leases hs (fun _ _ h => by cases h))
  | idle runId => exact hsame (step_leases hs (fun _ _ h => by cases h))
  | stop => exact hsame (step_leases hs (fun _ _ h => by cases h))
  | exit => exact hsame (step_leases hs (fun _ _ h => by cases h))
  | restart opens => exact hsame (step_leases hs (fun _ _ h => by cases h))

/-! ## The projections -/

section

variable {rows rows' : List Projection} {id l : LeaseId} {f : Projection → Projection}

theorem leaseRow_set (hf : ∀ p, (f p).leaseId = p.leaseId) :
    leaseRow (setLeaseRow rows id f) l = if l = id then (leaseRow rows l).map f else leaseRow rows l := by
  induction rows with
  | nil => simp [leaseRow, setLeaseRow]
  | cons p rest ih =>
    have hhead : (if p.leaseId = id then f p else p).leaseId = p.leaseId := by
      split
      · exact hf p
      · rfl
    by_cases hp : p.leaseId = l
    · have hhit : leaseRow (p :: rest) l = some p := List.find?_cons_of_pos (by simpa using hp)
      have hhit' : leaseRow (setLeaseRow (p :: rest) id f) l = some (if p.leaseId = id then f p else p) :=
        List.find?_cons_of_pos (by simpa [hhead] using hp)
      rw [hhit, hhit', ← hp]
      split <;> rfl
    · have hmiss : leaseRow (p :: rest) l = leaseRow rest l := List.find?_cons_of_neg (by simpa using hp)
      have hmiss' : leaseRow (setLeaseRow (p :: rest) id f) l = leaseRow (setLeaseRow rest id f) l :=
        List.find?_cons_of_neg (by simpa [hhead] using hp)
      rw [hmiss, hmiss']
      exact ih

/-- An intent adds a row where there is none. -/
theorem leaseRow_intent (cfg : Config) (rows : List Projection) (t : Target) (l : LeaseId) :
    leaseRow (recordWorkspaceLeaseIntent cfg rows t) l =
      (leaseRow rows l).or (if l = t.leaseId cfg then
        some ⟨t.leaseId cfg, t.nodeId, t.workspaceKey, .acquiring, none, none, none⟩ else none) := by
  unfold recordWorkspaceLeaseIntent
  cases hrow : leaseRow rows (t.leaseId cfg) with
  | some p =>
    by_cases hl : l = t.leaseId cfg
    · rw [hl, hrow]
      rfl
    · rw [if_neg hl, Option.or_none]
  | none =>
    show List.find? _ (rows ++ _) = _
    rw [List.find?_append]
    congr 1
    by_cases hl : l = t.leaseId cfg
    · simp [hl]
    · simp [hl, Ne.symm hl]

theorem updateLease_ok (h : updateLease rows id f = .ok rows') :
    rows' = setLeaseRow rows id f ∧ (leaseRow rows id).isSome = true := by
  unfold updateLease at h
  cases hrow : leaseRow rows id with
  | none =>
    rw [hrow] at h
    exact nomatch h
  | some p =>
    rw [hrow] at h
    cases h
    exact ⟨rfl, rfl⟩

end

/-- The projection of a lease has this status. -/
def Reads (w : World) (id : LeaseId) (st : LeaseStatus) : Prop :=
  ∃ p, leaseRow w.leases id = some p ∧ p.status = st

/-- What an update makes of the statuses. -/
theorem reads_update {w : World} {rows' : List Projection} {id : LeaseId} {f : Projection → Projection}
    (h : updateLease w.leases id f = .ok rows') (hf : ∀ p, (f p).leaseId = p.leaseId) {l : LeaseId}
    {st : LeaseStatus} :
    Reads { w with leases := rows' } l st ↔
      if l = id then ∃ p, leaseRow w.leases l = some p ∧ (f p).status = st else Reads w l st := by
  obtain ⟨rfl, -⟩ := updateLease_ok h
  show (∃ p, leaseRow (setLeaseRow w.leases id f) l = some p ∧ p.status = st) ↔ _
  rw [leaseRow_set hf]
  by_cases hl : l = id
  · rw [if_pos hl, if_pos hl]
    constructor
    · rintro ⟨p, hp, rfl⟩
      obtain ⟨q, hq, rfl⟩ := Option.map_eq_some_iff.mp hp
      exact ⟨q, hq, rfl⟩
    · rintro ⟨q, hq, rfl⟩
      exact ⟨f q, by rw [hq]; rfl, rfl⟩
  · rw [if_neg hl, if_neg hl]
    rfl

/-! ## Calls -/

section

variable {cfg : Config} {w w' : World} {inp : Input}

theorem storeCall_cases {α : Type} {run : Except StoreError (World × α)} {r : Except CallError α}
    (h : storeCall w inp run = some (r, w')) :
    ((∃ e, r = .error (.store e)) ∧ w' = w) ∨ ∃ a, run = .ok (w', a) ∧ r = .ok a := by
  cases inp with
  | run =>
    cases run with
    | ok v =>
      cases h
      exact .inr ⟨_, rfl, rfl⟩
    | error e =>
      cases h
      exact .inl ⟨⟨e, rfl⟩, rfl⟩
  | storeFail e =>
    cases h
    exact .inl ⟨⟨e, rfl⟩, rfl⟩
  | node d => exact nomatch h

theorem storeWrite_cases {rows : Except StoreError (List Projection)} {r : Except CallError Unit}
    (h : storeWrite w inp rows = some (r, w')) :
    ((∃ e, r = .error (.store e)) ∧ w' = w) ∨ ∃ rows', rows = .ok rows' ∧
      w' = { w with leases := rows' } ∧ r = .ok () := by
  rcases storeCall_cases h with h | ⟨a, hrun, hr⟩
  · exact .inl h
  · cases rows with
    | error e => exact nomatch hrun
    | ok rows' =>
      cases hrun
      exact .inr ⟨rows', rfl, rfl, hr⟩

theorem remoteCall_cases {α : Type} {node : String} {req : LeaseRequest}
    {answer : Except String LeaseRow → Except CallError α} {r : Except CallError α}
    (h : remoteCall w inp node req answer = some (r, w')) :
    ∃ d res, inp = .node d ∧ w.remote node req d = some (res, w') ∧ r = answer res := by
  cases inp with
  | node d =>
    obtain ⟨⟨res, w₁⟩, hrem, heq⟩ := Option.map_eq_some_iff.mp h
    cases heq
    exact ⟨d, res, rfl, hrem, rfl⟩
  | run => exact nomatch h
  | storeFail e => exact nomatch h

theorem leaseAnswer_ok {res : Except String LeaseRow} {row : LeaseRow} (h : leaseAnswer res = .ok row) :
    res = .ok row := by
  cases res with
  | ok row' =>
    cases h
    rfl
  | error e => exact nomatch h

/-- **All a call may do to the world.** -/
inductive Effect (cfg : Config) (w : World) : Op → World → Prop where
  | none {op : Op} : Effect cfg w op w
  | intent {t : Target} :
      Effect cfg w (.recordIntent t) { w with leases := recordWorkspaceLeaseIntent cfg w.leases t }
  | active {id : LeaseId} {base current : String} {rows : List Projection}
      (h : markWorkspaceLeaseActive w.leases id base current = .ok rows) :
      Effect cfg w (.markActive id base current) { w with leases := rows }
  | reason {id : LeaseId} {text : String} {rows : List Projection}
      (h : setWorkspaceLeaseAcquireReason w.leases id text = .ok rows) :
      Effect cfg w (.setReason id text) { w with leases := rows }
  | requested {id : LeaseId} {rows : List Projection}
      (h : requestWorkspaceLeaseRelease w.leases id = .ok rows) :
      Effect cfg w (.requestRelease id) { w with leases := rows }
  | marked {id : LeaseId} {site : ReleaseSite} {rows : List Projection}
      (h : markWorkspaceLeaseReleased w.leases id = .ok rows) :
      Effect cfg w (.markReleased id site) ({ w with leases := rows }.marked site)
  | started (h : w.status = .ready) : Effect cfg w .startDurably { w with status := .running }
  | cancelled : Effect cfg w .cancel { w with status := cancelStatus w.status }
  | acquired {t : Target} {d : Delivery} {res : Except String LeaseRow} {w' : World}
      (h : w.remote t.nodeId (.acquire cfg.workflowId t.workspaceKey) d = some (res, w')) :
      Effect cfg w (.acquire t) w'
  | read {t : Target} {d : Delivery} {res : Except String LeaseRow} {w' : World}
      (h : w.remote t.nodeId (.get (t.leaseId cfg)) d = some (res, w')) : Effect cfg w (.get t) w'
  | released {node : String} {id : LeaseId} {site : ReleaseSite} {d : Delivery}
      {res : Except String LeaseRow} {w' : World} (h : w.remote node (.release id) d = some (res, w')) :
      Effect cfg w (.release node id site) (w'.released id site)
  | joined (h : w.leaseWork = .none) :
      Effect cfg w .joinLeaseWork { w with leaseWork := some w.outcomes.length }

theorem Effect.write {op : Op} {rows : Except StoreError (List Projection)} {r : Except CallError Unit}
    (h : storeWrite w inp rows = some (r, w'))
    (hok : ∀ rows', rows = .ok rows' → Effect cfg w op { w with leases := rows' }) : Effect cfg w op w' := by
  rcases storeWrite_cases h with ⟨-, rfl⟩ | ⟨rows', hrows, rfl, -⟩
  · exact .none
  · exact hok rows' hrows

theorem exec_effect {op : Op} {r : Except CallError (Ans op)} (h : exec cfg op w inp = some (r, w')) :
    Effect cfg w op w' := by
  cases op with
  | getWorkflow | getProjection | listProjections | listReleasable =>
    simp only [exec] at h
    rcases storeCall_cases h with ⟨-, rfl⟩ | ⟨a, hrun, -⟩
    · exact .none
    · cases hrun
      exact .none
  | recordIntent t =>
    simp only [exec] at h
    refine Effect.write h (fun rows' hr => ?_)
    cases hr
    exact .intent
  | markActive id base current =>
    simp only [exec] at h
    exact Effect.write h (fun _ hr => .active hr)
  | setReason id text =>
    simp only [exec] at h
    exact Effect.write h (fun _ hr => .reason hr)
  | requestRelease id =>
    simp only [exec] at h
    exact Effect.write h (fun _ hr => .requested hr)
  | markReleased id site =>
    simp only [exec] at h
    rcases storeCall_cases h with ⟨-, rfl⟩ | ⟨a, hrun, -⟩
    · exact .none
    · cases hm : markWorkspaceLeaseReleased w.leases id with
      | error e =>
        rw [hm] at hrun
        exact nomatch hrun
      | ok rows =>
        rw [hm] at hrun
        cases hrun
        exact .marked hm
  | startDurably =>
    simp only [exec] at h
    rcases storeCall_cases h with ⟨-, rfl⟩ | ⟨a, hrun, -⟩
    · exact .none
    · unfold startDurably at hrun
      split at hrun
      · cases hrun
        exact .none
      · split at hrun
        · exact nomatch hrun
        · rename_i hready
          cases hrun
          exact .started (not_not.mp hready)
  | cancel =>
    simp only [exec] at h
    rcases storeCall_cases h with ⟨-, rfl⟩ | ⟨a, hrun, -⟩
    · exact .none
    · cases hrun
      exact .cancelled
  | acquire t =>
    simp only [exec] at h
    obtain ⟨d, res, -, hrem, -⟩ := remoteCall_cases h
    exact .acquired hrem
  | get t =>
    simp only [exec] at h
    obtain ⟨d, res, -, hrem, -⟩ := remoteCall_cases h
    exact .read hrem
  | release node id site =>
    simp only [exec] at h
    obtain ⟨⟨r₁, w₁⟩, hcall, heq⟩ := Option.map_eq_some_iff.mp h
    cases heq
    obtain ⟨d, res, -, hrem, -⟩ := remoteCall_cases hcall
    exact .released hrem
  | backoff n =>
    cases inp with
    | run =>
      cases h
      exact .none
    | storeFail e => exact nomatch h
    | node d => exact nomatch h
  | joinLeaseWork =>
    cases inp with
    | run =>
      cases hw : w.leaseWork with
      | some ticket =>
        simp only [exec, hw] at h
        cases h
        exact .none
      | none =>
        simp only [exec, hw] at h
        cases h
        exact .joined hw
    | storeFail e => exact nomatch h
    | node d => exact nomatch h
  | awaitLeaseWork ticket =>
    cases inp with
    | run =>
      obtain ⟨r', -, heq⟩ := Option.map_eq_some_iff.mp h
      cases heq
      exact .none
    | storeFail e => exact nomatch h
    | node d => exact nomatch h

end

end VibeLease
