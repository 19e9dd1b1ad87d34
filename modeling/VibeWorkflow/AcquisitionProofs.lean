import VibeWorkflow.LeaseProtocolProofs
import VibeWorkflow.StaticRoutingProofs

/-!
# All leases or none

A workflow starts only once every workspace it needs is leased, and an attempt that cannot have them
all gives back what it had.  Both hold as long as a rollback that has released a lease at its Node
also gets to mark the projection: a process that dies between the two, or a mark that fails, leaves a
projection that says `active` for a lease the Node has released, and the next attempt believes it.

* **`AcquireInv`** — while the workflow is `ready`, a projection that says `active` is right, except
  for the lease a rollback is giving back.
* **`acquireEach_safe`** — the loop over the targets ends with all of them active, or with those it
  had activated out of force.
* **`all_or_nothing`** — both, over every run.
-/

namespace VibeLease

open VibeJson VibeContract VibeTemplate VibeValidator VibeStore VibeAdmission VibeControl VibeNode
open AsyncLogic
open VibeRuntime (AcquireOutcome Config loadSpec)

/-! ## What is claimed -/

/-- The workspaces a workflow must hold to run. -/
def requiredTargets (cfg : Config) : List Target :=
  match cfg.loaded with
  | none => []
  | some spec =>
    match resolveWorkspaceTargets cfg spec with
    | .error _ => []
    | .ok targets => targets

/-- Every projection says `active`. -/
def Held (cfg : Config) (w : World) : Prop :=
  ∀ t ∈ requiredTargets cfg, Reads w (t.leaseId cfg) .active

/-- Release calls succeed, and neither a failed mark nor a crash parts a rollback's release from its
    mark. -/
def acquisitionTerms (cfg : Config) : Terms where
  call op w inp :=
    match op with
    | .release node id site =>
      match exec cfg (.release node id site) w inp with
      | some (.error _, _) => false
      | _ => true
    | .markReleased _ .rollback =>
      match inp with
      | .storeFail _ => false
      | _ => true
    | _ => true
  crash w := w.rollingBack.isNone

/-- Release calls succeed, and nothing else is asked of the run. -/
def releasesSucceed (cfg : Config) : Terms where
  call op w inp :=
    match op with
    | .release node id site =>
      match exec cfg (.release node id site) w inp with
      | some (.error _, _) => false
      | _ => true
    | _ => true
  crash _ := true

/-! ## The invariant and the division of labour -/

structure AcquireInv (cfg : Config) (w : World) : Prop where
  nodes : NodesInv w
  sound : w.status = .ready → ∀ t : Target, Reads w (t.leaseId cfg) .active →
    w.rollingBack ≠ some (t.leaseId cfg) → Live w t.nodeId (t.leaseId cfg)
  rolling : w.rollingBack.isSome = true → w.status = .ready → ¬ Held cfg w
  idle : w.leaseWork = none → w.rollingBack = none
  outcomes : ∀ r ∈ w.outcomes, r = .ok .acquired → w.status = .ready → Held cfg w

/-- What the attempt relies on: the table is its own while the workflow is `ready`, nobody else
    takes a lease, and nobody releases one before the end. -/
structure AttemptRely (cfg : Config) (w w' : World) : Prop where
  status : w'.status = .ready → w.status = .ready
  table : w'.status = .ready → w'.leases = w.leases
  rows : ∀ id, (leaseRow w.leases id).isSome = true → (leaseRow w'.leases id).isSome = true
  live : ∀ t : Target, Live w' t.nodeId (t.leaseId cfg) → Live w t.nodeId (t.leaseId cfg)
  kept : w'.status = .ready → ∀ t : Target, Live w t.nodeId (t.leaseId cfg) → Live w' t.nodeId (t.leaseId cfg)
  rolling : w'.rollingBack = w.rollingBack
  work : w.leaseWork.isSome = true → w'.leaseWork.isSome = true

/-- What a call relies on: an end is final, and a complete set stays complete until the start. -/
structure CallRely (cfg : Config) (w w' : World) : Prop where
  status : w'.status = .ready → w.status = .ready
  ended : isTerminalWorkflowStatus w.status = true → isTerminalWorkflowStatus w'.status = true
  held : w'.status = .ready → Held cfg w → Held cfg w'

/-- What the attempt's calls find when they take effect. -/
def AttemptPre (cfg : Config) (op : Op) (w : World) : Prop :=
  match op with
  | .getProjection _ | .recordIntent _ | .setReason _ _ | .acquire _ | .get _ => True
  | .markActive id _ _ => w.rollingBack = none ∧
      ∀ t : Target, t.leaseId cfg = id → w.status = .ready → Live w t.nodeId id
  | .release _ _ .rollback => w.rollingBack = none ∧ w.leaseWork.isSome = true ∧
      (w.status = .ready → ¬ Held cfg w)
  | .markReleased id .rollback => w.rollingBack = some id ∧ (w.status = .ready → ¬ Held cfg w)
  | _ => False

/-- What the public calls find when they take effect. -/
def CallPre (cfg : Config) (op : Op) (w : World) : Prop :=
  match op with
  | .getWorkflow | .listProjections | .listReleasable | .cancel | .backoff _ | .awaitLeaseWork _ => True
  | .joinLeaseWork => cfg.leaseClient = true
  | .startDurably => w.status = .ready → Held cfg w
  | .requestRelease _ | .release _ _ .retry | .markReleased _ .retry =>
    isTerminalWorkflowStatus w.status = true
  | _ => False

/-- What an attempt leaves. -/
structure AttemptDone (cfg : Config) (a : Attempt) (w : World) : Prop where
  idle : w.rollingBack = none
  all : a.outcome = .acquired → w.status = .ready → Held cfg w
  nothing : a.outcome ≠ .acquired →
    (∃ t rest, requiredTargets cfg = a.activated ++ t :: rest) ∧
      ∀ t ∈ a.activated, ¬ Live w t.nodeId (t.leaseId cfg)

theorem AttemptRely.refl (cfg : Config) (w : World) : AttemptRely cfg w w :=
  ⟨id, fun _ => rfl, fun _ h => h, fun _ h => h, fun _ _ h => h, rfl, id⟩

theorem AttemptRely.trans {cfg : Config} {a b c : World} (h : AttemptRely cfg a b) (h' : AttemptRely cfg b c) :
    AttemptRely cfg a c where
  status hs := h.status (h'.status hs)
  table hs := (h'.table hs).trans (h.table (h'.status hs))
  rows id hr := h'.rows id (h.rows id hr)
  live t hl := h.live t (h'.live t hl)
  kept hs t hl := h'.kept hs t (h.kept (h'.status hs) t hl)
  rolling := h'.rolling.trans h.rolling
  work hw := h'.work (h.work hw)

theorem CallRely.refl (cfg : Config) (w : World) : CallRely cfg w w := ⟨id, id, fun _ h => h⟩

theorem CallRely.trans {cfg : Config} {a b c : World} (h : CallRely cfg a b) (h' : CallRely cfg b c) :
    CallRely cfg a c where
  status hs := h.status (h'.status hs)
  ended he := h'.ended (h.ended he)
  held hs hh := h'.held hs (h.held (h'.status hs) hh)

def acquisition (cfg : Config) : Protocol cfg (acquisitionTerms cfg) where
  inv := AcquireInv cfg
  attemptRely := AttemptRely cfg
  attemptRely_refl := AttemptRely.refl cfg
  attemptRely_trans := AttemptRely.trans
  callRely := CallRely cfg
  callRely_refl := CallRely.refl cfg
  callRely_trans := CallRely.trans
  attemptPre := AttemptPre cfg
  callPre := CallPre cfg
  done := AttemptDone cfg
  threw := fun w => w.rollingBack = none

/-! ## What the calls keep -/

/-- A change of the table that keeps every `active`. -/
def Keeps (w w' : World) : Prop := ∀ l, Reads w l .active → Reads w' l .active

section

variable {cfg : Config} {w w' : World}

theorem Held.keeps (h : Held cfg w) (hk : Keeps w w') : Held cfg w' :=
  fun t ht => hk _ (h t ht)

/-- The intent of a lease changes no status there is. -/
theorem reads_intent {t : Target} {l : LeaseId} :
    Reads { w with leases := recordWorkspaceLeaseIntent cfg w.leases t } l .active ↔ Reads w l .active := by
  show (∃ p, leaseRow (recordWorkspaceLeaseIntent cfg w.leases t) l = some p ∧ p.status = .active) ↔ _
  rw [leaseRow_intent]
  cases hrow : leaseRow w.leases l with
  | some p =>
    show (∃ q, some p = some q ∧ _) ↔ Reads w l .active
    unfold Reads
    rw [hrow]
  | none =>
    constructor
    · rintro ⟨p, hp, hs⟩
      split at hp
      · cases hp
        exact nomatch hs
      · exact nomatch hp
    · rintro ⟨p, hp, -⟩
      rw [hrow] at hp
      exact nomatch hp

theorem reads_reason {id l : LeaseId} {text : String} {rows : List Projection}
    (h : setWorkspaceLeaseAcquireReason w.leases id text = .ok rows) :
    Reads { w with leases := rows } l .active ↔ Reads w l .active := by
  rw [reads_update h (fun _ => rfl)]
  split
  · exact Iff.rfl
  · exact Iff.rfl

/-- Marking a lease active. -/
theorem reads_active {id l : LeaseId} {base current : String} {rows : List Projection}
    (h : markWorkspaceLeaseActive w.leases id base current = .ok rows) :
    Reads { w with leases := rows } l .active ↔ l = id ∨ Reads w l .active := by
  rw [reads_update h (fun _ => rfl)]
  by_cases hl : l = id
  · rw [if_pos hl]
    obtain ⟨p, hp⟩ := Option.isSome_iff_exists.mp (updateLease_ok h).2
    exact ⟨fun _ => .inl hl, fun _ => ⟨p, hl ▸ hp, rfl⟩⟩
  · rw [if_neg hl]
    exact ⟨.inr, fun h => h.resolve_left hl⟩

/-- Marking a lease released. -/
theorem reads_released {id l : LeaseId} {rows : List Projection}
    (h : markWorkspaceLeaseReleased w.leases id = .ok rows) :
    Reads { w with leases := rows } l .active ↔ l ≠ id ∧ Reads w l .active := by
  rw [reads_update h (fun _ => rfl)]
  by_cases hl : l = id
  · rw [if_pos hl]
    refine ⟨?_, fun h => absurd hl h.1⟩
    rintro ⟨_, _, hs⟩
    exact nomatch hs
  · rw [if_neg hl]
    exact ⟨fun h => ⟨hl, h⟩, And.right⟩

/-- A change of the table that changes no `active`. -/
theorem AcquireInv.quiet {rows : List Projection} (hi : AcquireInv cfg w)
    (hiff : ∀ l, Reads { w with leases := rows } l .active ↔ Reads w l .active) :
    AcquireInv cfg { w with leases := rows } ∧ CallRely cfg w { w with leases := rows } := by
  have hheld : Held cfg { w with leases := rows } ↔ Held cfg w :=
    forall₂_congr (fun t _ => hiff (t.leaseId cfg))
  refine ⟨⟨⟨hi.nodes.journal, hi.nodes.plain, hi.nodes.home⟩, ?_, ?_, hi.idle, ?_⟩, id, id, fun _ h => hheld.mpr h⟩
  · intro hs t ht hne
    exact hi.sound hs t ((hiff _).mp ht) hne
  · intro hr hs hh
    exact hi.rolling hr hs (hheld.mp hh)
  · intro r hr ho hs
    exact hheld.mpr (hi.outcomes r hr ho hs)

/-- A change of the Nodes that puts no lease of this workflow out of force. -/
theorem AcquireInv.granted {nodes : String → Node} (hi : AcquireInv cfg w)
    (hn : NodesInv { w with nodes := nodes })
    (hl : ∀ t : Target, Live w t.nodeId (t.leaseId cfg) → Live { w with nodes := nodes } t.nodeId (t.leaseId cfg)) :
    AcquireInv cfg { w with nodes := nodes } ∧ CallRely cfg w { w with nodes := nodes } :=
  ⟨⟨hn, fun hs t ht hne => hl t (hi.sound hs t ht hne), hi.rolling, hi.idle, hi.outcomes⟩, id, id, fun _ h => h⟩

/-- A workflow that is not `ready` has nothing to lose. -/
theorem AcquireInv.late (hn : NodesInv w') (hs : w'.status ≠ .ready)
    (hw : w'.leaseWork = none → w'.rollingBack = none) : AcquireInv cfg w' where
  nodes := hn
  sound h := absurd h hs
  rolling _ h := absurd h hs
  idle := hw
  outcomes _ _ _ h := absurd h hs

theorem CallRely.late (hs : w'.status ≠ .ready)
    (he : isTerminalWorkflowStatus w.status = true → isTerminalWorkflowStatus w'.status = true) :
    CallRely cfg w w' :=
  ⟨fun h => absurd h hs, he, fun h => absurd h hs⟩

theorem terminal_ne_ready {st : WorkflowStatus} (h : isTerminalWorkflowStatus st = true) : st ≠ .ready := by
  rintro rfl
  exact nomatch h

/-- **The attempt's calls** keep the invariant and what the public calls rely on. -/
theorem attempt_keeps {op : Op} (hi : AcquireInv cfg w) (hpre : AttemptPre cfg op w) (he : Effect cfg w op w') :
    AcquireInv cfg w' ∧ CallRely cfg w w' := by
  cases he with
  | none => exact ⟨hi, CallRely.refl cfg w⟩
  | intent => exact hi.quiet (fun _ => reads_intent)
  | reason h => exact hi.quiet (fun _ => reads_reason h)
  | @active id base current rows h =>
    obtain ⟨hidle, hlive⟩ := hpre
    have hheld : Held cfg w → Held cfg { w with leases := rows } :=
      fun hh => hh.keeps (fun l hl => (reads_active h).mpr (.inr hl))
    refine ⟨⟨⟨hi.nodes.journal, hi.nodes.plain, hi.nodes.home⟩, ?_, ?_, hi.idle, ?_⟩, fun h => h, fun h => h,
      fun _ => hheld⟩
    · intro hs t ht hne
      rcases (reads_active h).mp ht with heq | hold
      · exact heq ▸ hlive t heq hs
      · exact hi.sound hs t hold hne
    · intro hr
      have hsome : w.rollingBack.isSome = true := hr
      rw [hidle] at hsome
      exact nomatch hsome
    · intro r hr ho hs
      exact hheld (hi.outcomes r hr ho hs)
  | @marked id site rows h =>
    cases site with
    | retry => exact absurd hpre (fun h => h)
    | rollback =>
      obtain ⟨hroll, hlacks⟩ := hpre
      refine ⟨⟨⟨hi.nodes.journal, hi.nodes.plain, hi.nodes.home⟩, ?_, nofun, fun _ => rfl, ?_⟩, fun h => h, fun h => h,
        fun hs hh => absurd hh (hlacks hs)⟩
      · intro hs t ht _
        obtain ⟨hne, hold⟩ := (reads_released h).mp ht
        refine hi.sound hs t hold ?_
        rw [hroll]
        intro heq
        exact hne (Option.some.inj heq).symm
      · intro r hr ho hs
        exact absurd (hi.outcomes r hr ho hs) (hlacks hs)
  | @acquired t d res w' h =>
    obtain ⟨⟨nodes, rfl⟩, hn, hothers, hkeep, -⟩ := acquire_effect hi.nodes h
    refine hi.granted hn (fun t' hl => ?_)
    by_cases heq : t'.nodeId = t.nodeId ∧ t'.leaseId cfg = t.leaseId cfg
    · rw [heq.1, heq.2] at hl ⊢
      exact hkeep hl
    · exact (hothers.live (fun hnode hid => heq ⟨hnode, hid⟩)).mpr hl
  | read h =>
    obtain ⟨⟨nodes, rfl⟩, hn, hsame, -⟩ := get_effect hi.nodes h
    exact hi.granted hn (fun _ hl => hsame.live.mpr hl)
  | @released node id site d res w' h =>
    cases site with
    | retry => exact absurd hpre (fun h => h)
    | rollback =>
      obtain ⟨hidle, hwork, hlacks⟩ := hpre
      obtain ⟨⟨nodes, rfl⟩, hn, hothers, -, -, -⟩ := release_effect hi.nodes h
      refine ⟨⟨⟨hn.journal, hn.plain, hn.home⟩, ?_, fun _ => hlacks, ?_, hi.outcomes⟩, fun h => h,
        fun h => h, fun _ h => h⟩
      · intro hs t ht hne
        have hid : t.leaseId cfg ≠ id := fun heq => hne (congrArg some heq.symm)
        refine (hothers.live (fun _ => hid)).mpr (hi.sound hs t ht ?_)
        rw [hidle]
        exact nofun
      · intro hnone
        have hnone' : w.leaseWork = none := hnone
        rw [hnone'] at hwork
        exact nomatch hwork
  | started => exact absurd hpre (fun h => h)
  | cancelled => exact absurd hpre (fun h => h)
  | requested => exact absurd hpre (fun h => h)
  | joined => exact absurd hpre (fun h => h)

/-- A change that leaves the attempt its table and its leases. -/
theorem AttemptRely.late (hs : w'.status ≠ .ready)
    (hrows : ∀ l, (leaseRow w.leases l).isSome = true → (leaseRow w'.leases l).isSome = true)
    (hl : ∀ t : Target, Live w' t.nodeId (t.leaseId cfg) → Live w t.nodeId (t.leaseId cfg))
    (hr : w'.rollingBack = w.rollingBack) (hw : w'.leaseWork = w.leaseWork) : AttemptRely cfg w w' where
  status h := absurd h hs
  table h := absurd h hs
  rows := hrows
  live := hl
  kept h := absurd h hs
  rolling := hr
  work h := by
    rw [hw]
    exact h

/-- An update keeps the rows there are. -/
theorem isSome_update {rows rows' : List Projection} {id : LeaseId} {f : Projection → Projection}
    (h : updateLease rows id f = .ok rows') (hf : ∀ p, (f p).leaseId = p.leaseId) (l : LeaseId) :
    (leaseRow rows l).isSome = true → (leaseRow rows' l).isSome = true := by
  obtain ⟨rfl, -⟩ := updateLease_ok h
  rw [leaseRow_set hf]
  split
  · rw [Option.isSome_map]
    exact fun h => h
  · exact fun h => h

theorem cancelStatus_ne_ready (st : WorkflowStatus) : cancelStatus st ≠ .ready := by
  unfold cancelStatus
  split
  · rename_i h
    exact terminal_ne_ready h
  · exact nofun

theorem cancelStatus_ended {st : WorkflowStatus} (h : isTerminalWorkflowStatus st = true) :
    isTerminalWorkflowStatus (cancelStatus st) = true := by
  unfold cancelStatus
  rw [if_pos h]
  exact h

/-- **The public calls** keep the invariant and what the others rely on. -/
theorem call_keeps {op : Op} (hi : AcquireInv cfg w) (hpre : CallPre cfg op w) (he : Effect cfg w op w') :
    AcquireInv cfg w' ∧ AttemptRely cfg w w' ∧ CallRely cfg w w' := by
  cases he with
  | none => exact ⟨hi, AttemptRely.refl cfg w, CallRely.refl cfg w⟩
  | @requested id rows h =>
    have hs : w.status ≠ .ready := terminal_ne_ready hpre
    refine ⟨AcquireInv.late ⟨hi.nodes.journal, hi.nodes.plain, hi.nodes.home⟩ hs hi.idle,
      AttemptRely.late hs (isSome_update h ?_) (fun _ hl => hl) rfl rfl, CallRely.late hs (fun h => h)⟩
    intro p
    split <;> rfl
  | @marked id site rows h =>
    cases site with
    | rollback => exact absurd hpre (fun h => h)
    | retry =>
      have hs : w.status ≠ .ready := terminal_ne_ready hpre
      exact ⟨AcquireInv.late ⟨hi.nodes.journal, hi.nodes.plain, hi.nodes.home⟩ hs hi.idle,
        AttemptRely.late hs (isSome_update h (fun _ => rfl)) (fun _ hl => hl) rfl rfl,
        CallRely.late hs (fun h => h)⟩
  | started h =>
    refine ⟨AcquireInv.late ⟨hi.nodes.journal, hi.nodes.plain, hi.nodes.home⟩ nofun hi.idle,
      AttemptRely.late nofun (fun _ hr => hr) (fun _ hl => hl) rfl rfl, CallRely.late nofun ?_⟩
    intro ht
    exact absurd h (terminal_ne_ready ht)
  | cancelled =>
    have hs := cancelStatus_ne_ready w.status
    exact ⟨AcquireInv.late ⟨hi.nodes.journal, hi.nodes.plain, hi.nodes.home⟩ hs hi.idle,
      AttemptRely.late hs (fun _ hr => hr) (fun _ hl => hl) rfl rfl, CallRely.late hs cancelStatus_ended⟩
  | @released node id site d res w' h =>
    cases site with
    | rollback => exact absurd hpre (fun h => h)
    | retry =>
      have hs : w.status ≠ .ready := terminal_ne_ready hpre
      obtain ⟨⟨nodes, rfl⟩, hn, hothers, hback, -, -⟩ := release_effect hi.nodes h
      refine ⟨AcquireInv.late hn hs hi.idle, AttemptRely.late hs (fun _ hr => hr) (fun t hl => ?_) rfl rfl,
        CallRely.late hs (fun h => h)⟩
      by_cases heq : t.nodeId = node ∧ t.leaseId cfg = id
      · rw [heq.1, heq.2] at hl ⊢
        exact hback hl
      · exact (hothers.live (fun hnode hid => heq ⟨hnode, hid⟩)).mp hl
  | joined h =>
    refine ⟨⟨⟨hi.nodes.journal, hi.nodes.plain, hi.nodes.home⟩, hi.sound, hi.rolling, nofun, hi.outcomes⟩,
      ⟨fun h => h, fun _ => rfl, fun _ h => h, fun _ h => h, fun _ _ h => h, rfl, fun _ => rfl⟩,
      fun h => h, fun h => h, fun _ h => h⟩
  | intent => exact absurd hpre (fun h => h)
  | active => exact absurd hpre (fun h => h)
  | reason => exact absurd hpre (fun h => h)
  | acquired => exact absurd hpre (fun h => h)
  | read => exact absurd hpre (fun h => h)

/-- The driver, the Nodes' other moves and a shutdown. -/
theorem env_keeps (hi : AcquireInv cfg w) (he : EnvMove cfg w w') :
    AcquireInv cfg w' ∧ AttemptRely cfg w w' ∧ CallRely cfg w w' := by
  cases he with
  | @drive status h =>
    simp only [drivable, Bool.and_eq_true, decide_eq_true_eq, Bool.not_eq_true'] at h
    obtain ⟨⟨-, hlive⟩, hs⟩ := h
    refine ⟨AcquireInv.late ⟨hi.nodes.journal, hi.nodes.plain, hi.nodes.home⟩ hs hi.idle,
      AttemptRely.late hs (fun _ hr => hr) (fun _ hl => hl) rfl rfl, CallRely.late hs ?_⟩
    rw [hlive]
    exact nofun
  | node hf h =>
    obtain ⟨hn, hown⟩ := foreign_effect hi.nodes hf h
    have hlive := fun t : Target => hown.live hi.nodes hn t.nodeId t.nodeId t.workspaceKey
    refine ⟨⟨hn, fun hs t ht hne => (hlive t).mpr (hi.sound hs t ht hne), hi.rolling, hi.idle, hi.outcomes⟩,
      ⟨fun h => h, fun _ => rfl, fun _ h => h, fun t hl => (hlive t).mp hl, fun _ t hl => (hlive t).mpr hl, rfl,
        fun h => h⟩, fun h => h, fun h => h, fun _ h => h⟩
  | stop =>
    exact ⟨⟨⟨hi.nodes.journal, hi.nodes.plain, hi.nodes.home⟩, hi.sound, hi.rolling, hi.idle, hi.outcomes⟩,
      ⟨fun h => h, fun _ => rfl, fun _ h => h, fun _ h => h, fun _ _ h => h, rfl, fun h => h⟩,
      fun h => h, fun h => h, fun _ h => h⟩

/-- An attempt that settles hands its outcome to its callers. -/
theorem settle_keeps {r : Except CallError Attempt × Flags} (hi : AcquireInv cfg w)
    (hpost : (acquisition cfg).attemptPost r w) :
    AcquireInv cfg (w.settle r.1) ∧ CallRely cfg w (w.settle r.1) := by
  have hidle : w.rollingBack = none := by
    obtain ⟨⟨e⟩ | ⟨a⟩, fl⟩ := r
    · exact hpost
    · exact (hpost : AttemptDone cfg a w).idle
  refine ⟨⟨⟨hi.nodes.journal, hi.nodes.plain, hi.nodes.home⟩, hi.sound, hi.rolling, fun _ => hidle, ?_⟩, fun h => h,
    fun h => h, fun _ h => h⟩
  intro o ho heq hs
  rcases List.mem_append.mp ho with ho | ho
  · exact hi.outcomes o ho heq hs
  · rw [List.mem_singleton.mp ho] at heq
    obtain ⟨⟨e⟩ | ⟨a⟩, fl⟩ := r
    · exact nomatch heq
    · exact (hpost : AttemptDone cfg a w).all (Except.ok.inj heq) hs

theorem crash_keeps (hi : AcquireInv cfg w) (h : w.rollingBack.isNone = true) : AcquireInv cfg w.crash where
  nodes := ⟨hi.nodes.journal, hi.nodes.plain, hi.nodes.home⟩
  sound hs t ht _ := by
    refine hi.sound hs t ht ?_
    rw [Option.isNone_iff_eq_none.mp h]
    exact nofun
  rolling := nofun
  idle _ := rfl
  outcomes := nofun

theorem initial_nodes : NodesInv initial.w where
  journal _ := JournalInv.empty
  plain _ _ hr := nomatch hr
  home _ _ hr := nomatch hr

theorem initial_acquire (cfg : Config) : AcquireInv cfg initial.w where
  nodes := initial_nodes
  sound _ _ ht := by
    obtain ⟨p, hp, -⟩ := ht
    exact nomatch hp
  rolling := nofun
  idle _ := rfl
  outcomes := nofun

end

/-! ## What the attempt knows -/

/-- The attempt is in flight and between rollbacks. -/
def Idle (w : World) : Prop := w.leaseWork.isSome = true ∧ w.rollingBack = none

/-- Within the loop: the targets so far have their rows and are active. -/
structure Mid (cfg : Config) (activated : List Target) (w : World) : Prop where
  idle : Idle w
  rows : ∀ t ∈ activated, (leaseRow w.leases (t.leaseId cfg)).isSome = true
  got : w.status = .ready → ∀ t ∈ activated, Reads w (t.leaseId cfg) .active

/-- While one more is sought: it is not active yet. -/
structure Seek (cfg : Config) (activated : List Target) (t : Target) (w : World) : Prop
    extends Mid cfg activated w where
  lacks : w.status = .ready → ¬ Reads w (t.leaseId cfg) .active

/-- What the search for one target tells. -/
structure Sought (cfg : Config) (activated : List Target) (t : Target) (o : TargetOutcome) (w : World) : Prop
    extends Mid cfg activated w where
  row : o = .active → (leaseRow w.leases (t.leaseId cfg)).isSome = true
  active : o = .active → w.status = .ready → Reads w (t.leaseId cfg) .active
  lacks : o ≠ .active → w.status = .ready → ¬ Reads w (t.leaseId cfg) .active

/-- The table, as far as the attempt's knowledge goes, is as it was. -/
structure Quiet (w w' : World) : Prop where
  status : w'.status = w.status
  work : w'.leaseWork = w.leaseWork
  rolling : w'.rollingBack = w.rollingBack
  same : ∀ l, Reads w' l .active ↔ Reads w l .active
  rows : ∀ l, (leaseRow w.leases l).isSome = true → (leaseRow w'.leases l).isSome = true

section

variable {cfg : Config} {w w' : World} {activated : List Target} {t : Target}

theorem reads_congr (h : w'.leases = w.leases) {l : LeaseId} {st : LeaseStatus} : Reads w' l st ↔ Reads w l st := by
  unfold Reads
  rw [h]

theorem Idle.rely (h : Idle w) (hr : AttemptRely cfg w w') : Idle w' :=
  ⟨hr.work h.1, hr.rolling.trans h.2⟩

theorem Mid.rely (h : Mid cfg activated w) (hr : AttemptRely cfg w w') : Mid cfg activated w' :=
  ⟨h.idle.rely hr, fun t ht => hr.rows _ (h.rows t ht),
    fun hs t ht => (reads_congr (hr.table hs)).mpr (h.got (hr.status hs) t ht)⟩

theorem Seek.rely (h : Seek cfg activated t w) (hr : AttemptRely cfg w w') : Seek cfg activated t w' :=
  ⟨h.toMid.rely hr, fun hs hn => h.lacks (hr.status hs) ((reads_congr (hr.table hs)).mp hn)⟩

theorem Sought.rely {o : TargetOutcome} (h : Sought cfg activated t o w) (hr : AttemptRely cfg w w') :
    Sought cfg activated t o w' :=
  ⟨h.toMid.rely hr, fun ho => hr.rows _ (h.row ho),
    fun ho hs => (reads_congr (hr.table hs)).mpr (h.active ho (hr.status hs)),
    fun ho hs hn => h.lacks ho (hr.status hs) ((reads_congr (hr.table hs)).mp hn)⟩

theorem Mid.quiet (h : Mid cfg activated w) (hq : Quiet w w') : Mid cfg activated w' :=
  ⟨⟨by rw [hq.work]; exact h.idle.1, hq.rolling.trans h.idle.2⟩, fun t ht => hq.rows _ (h.rows t ht),
    fun hs t ht => (hq.same _).mpr (h.got (hq.status ▸ hs) t ht)⟩

theorem Seek.quiet (h : Seek cfg activated t w) (hq : Quiet w w') : Seek cfg activated t w' :=
  ⟨h.toMid.quiet hq, fun hs hn => h.lacks (hq.status ▸ hs) ((hq.same _).mp hn)⟩

theorem Seek.sought (h : Seek cfg activated t w) {o : TargetOutcome} (ho : o ≠ .active) :
    Sought cfg activated t o w :=
  ⟨h.toMid, fun h' => absurd h' ho, fun h' => absurd h' ho, fun _ => h.lacks⟩

/-- The calls of the search that make nothing active. -/
def Op.isSearch : Op → Bool
  | .getProjection _ | .recordIntent _ | .setReason _ _ | .acquire _ | .get _ => true
  | _ => false

theorem search_quiet {op : Op} (hop : op.isSearch = true) (hn : NodesInv w) (he : Effect cfg w op w') : Quiet w w' := by
  cases he with
  | none => exact ⟨rfl, rfl, rfl, fun _ => Iff.rfl, fun _ h => h⟩
  | intent =>
    refine ⟨rfl, rfl, rfl, fun _ => reads_intent, fun l h => ?_⟩
    show (leaseRow (recordWorkspaceLeaseIntent _ _ _) l).isSome = true
    rw [leaseRow_intent]
    obtain ⟨p, hp⟩ := Option.isSome_iff_exists.mp h
    rw [hp]
    rfl
  | reason h => exact ⟨rfl, rfl, rfl, fun _ => reads_reason h, isSome_update h (fun _ => rfl)⟩
  | acquired h =>
    obtain ⟨⟨nodes, rfl⟩, -⟩ := acquire_effect hn h
    exact ⟨rfl, rfl, rfl, fun _ => Iff.rfl, fun _ h => h⟩
  | read h =>
    obtain ⟨⟨nodes, rfl⟩, -⟩ := get_effect hn h
    exact ⟨rfl, rfl, rfl, fun _ => Iff.rfl, fun _ h => h⟩
  | active => exact nomatch hop
  | requested => exact nomatch hop
  | marked => exact nomatch hop
  | started => exact nomatch hop
  | cancelled => exact nomatch hop
  | released => exact nomatch hop
  | joined => exact nomatch hop

theorem search_pre {op : Op} (hop : op.isSearch = true) : AttemptPre cfg op w := by
  cases op <;> trivial

end

/-! ## The search for one lease -/

section

variable {cfg : Config} {activated : List Target} {t : Target}

/-- A triple over the attempt's contract. -/
abbrev Does (cfg : Config) {α : Type} (P : World → Prop) (m : Lt α) (Q : α → World → Prop)
    (E : CallError → World → Prop) : Prop :=
  Safe (acquisition cfg).attemptContract P m Q E

theorem allowed_effect {op : Op} {w w' : World} {r : Except CallError (Ans op)} {T : Terms}
    (h : allowed cfg T op w r w') : Effect cfg w op w' := by
  obtain ⟨inp, -, hex⟩ := h
  exact exec_effect hex

/-- A call of the search, where nothing but the search's knowledge matters. -/
theorem does_search {op : Op} (hop : op.isSearch = true) :
    Does cfg (Seek cfg activated t) (call op) (fun _ => Seek cfg activated t) (fun _ => Seek cfg activated t) := by
  refine safe_call (fun _ _ _ => rfl) (fun _ _ _ => search_pre hop) ?_ ?_
  · intro w r w' hi hs hex
    have := hs.quiet (search_quiet hop hi.nodes (allowed_effect hex))
    cases r <;> exact this
  · intro r w w' h hr _
    cases r <;> exact h.rely hr

theorem does_setLeaseReason {id : LeaseId} {reason : String} {E : CallError → World → Prop} :
    Does cfg (Seek cfg activated t) (setLeaseReason id reason) (fun _ => Seek cfg activated t) E :=
  safe_catch (does_search rfl) (fun _ => safe_pure (fun _ _ h => h))

/-- An outcome short of `active`, with its reason. -/
theorem does_refusal {id : LeaseId} {reason : String} {o : TargetOutcome} (ho : o ≠ .active)
    {E : CallError → World → Prop} :
    Does cfg (Seek cfg activated t) (do setLeaseReason id reason; pure o) (Sought cfg activated t) E :=
  safe_bind does_setLeaseReason (fun _ => safe_pure (fun _ _ h => h.sought ho))

/-- Marking the lease the Node has granted. -/
theorem does_markActive {base current : String} :
    Does cfg (fun w => Seek cfg activated t w ∧ (w.status = .ready → Live w t.nodeId (t.leaseId cfg)))
      (call (.markActive (t.leaseId cfg) base current))
      (fun _ => Sought cfg activated t .active) (fun _ => Seek cfg activated t) := by
  refine safe_call (fun _ _ _ => rfl) ?_ ?_ ?_
  · rintro w - ⟨hs, hl⟩
    refine ⟨hs.idle.2, fun t' heq hst => ?_⟩
    simp only [Target.leaseId, workspaceLeaseId, LeaseId.derived.injEq] at heq
    rw [heq.2.1]
    exact hl hst
  · rintro w r w' hi ⟨hs, -⟩ ⟨inp, -, hex⟩
    simp only [exec] at hex
    rcases storeWrite_cases hex with ⟨⟨e, rfl⟩, rfl⟩ | ⟨rows, hrows, rfl, rfl⟩
    · exact hs
    · have hsome := isSome_update hrows (fun _ => rfl)
      refine ⟨⟨hs.idle, fun t' ht' => hsome _ (hs.rows t' ht'), fun hst t' ht' => ?_⟩, fun _ => ?_, fun _ _ => ?_,
        fun h => absurd rfl h⟩
      · exact (reads_active hrows).mpr (.inr (hs.got hst t' ht'))
      · exact hsome _ (updateLease_ok hrows).2
      · exact (reads_active hrows).mpr (.inl rfl)
  · intro r w w' h hr _
    cases r with
    | ok _ => exact (h : Sought cfg activated t .active w).rely hr
    | error _ => exact (h : Seek cfg activated t w).rely hr

/-- **Asking the Node after a lost acknowledgement.** -/
theorem does_reconcileAmbiguousAcquire {E : CallError → World → Prop} :
    Does cfg (Seek cfg activated t) (reconcileAmbiguousAcquire cfg t) (Sought cfg activated t) E := by
  refine safe_catch (F := fun _ => Seek cfg activated t) (safe_bind (Q := fun lease w => Seek cfg activated t w ∧
    ∀ l, lease = some l → l.leaseId = t.leaseId cfg ∧
      (l.status = .active → w.status = .ready → Live w t.nodeId (t.leaseId cfg))) ?_ ?_)
    (fun _ => does_refusal (o := .pending) (by rintro ⟨⟩))
  · refine safe_call (fun _ _ _ => rfl) (fun _ _ _ => trivial) ?_ ?_
    · rintro w r w' hi hs ⟨inp, -, hex⟩
      have hs' := hs.quiet (search_quiet rfl hi.nodes (exec_effect hex))
      simp only [exec] at hex
      obtain ⟨d, res, -, hrem, rfl⟩ := remoteCall_cases hex
      obtain ⟨-, -, -, hrow⟩ := get_effect hi.nodes hrem
      cases res with
      | ok row =>
        obtain ⟨hmem, hid⟩ := hrow row rfl
        refine ⟨hs', ?_⟩
        rintro l ⟨⟩
        exact ⟨hid, fun hact _ => ⟨row, hmem, hid, by rw [hact]; rfl⟩⟩
      | error code =>
        by_cases hc : code = "workspace_lease_invalid"
        · rw [show getAnswer (.error code) = .ok none from if_pos hc]
          exact ⟨hs', (by intros; contradiction)⟩
        · rw [show getAnswer (.error code) = .error (rethrow code) from if_neg hc]
          exact hs'
    · intro r w w' h hr _
      cases r with
      | ok lease =>
        obtain ⟨hs, hl⟩ : Seek cfg activated t w ∧ ∀ l, lease = some l → _ := h
        exact ⟨hs.rely hr, fun l hl' => ⟨(hl l hl').1, fun hact hst =>
          hr.kept hst t ((hl l hl').2 hact (hr.status hst))⟩⟩
      | error _ => exact (h : Seek cfg activated t w).rely hr
  · intro lease
    cases lease with
    | none => exact (does_refusal (o := .pending) (by rintro ⟨⟩)).pre (fun _ _ h => h.1)
    | some l =>
      refine safe_ite (fun hact => ?_) (fun _ => ?_)
      · -- the Node names the lease that was asked for
        refine safe_lift (φ := l.leaseId = t.leaseId cfg) (fun w _ h => (h.2 l rfl).1) (fun hid => ?_)
        rw [hid]
        refine safe_bind (Q := fun _ => Sought cfg activated t .active) ?_ (fun _ => safe_pure (fun _ _ h => h))
        exact does_markActive.pre (fun w _ h => ⟨h.1, (h.2 l rfl).2 hact.1⟩)
      · exact (does_refusal (o := .pending) (by rintro ⟨⟩)).pre (fun _ _ h => h.1)

/-- **The search for one lease**: it is active, or it is known not to be. -/
theorem does_reconcileOneLease :
    Does cfg (Mid cfg activated) (reconcileOneLease cfg t) (Sought cfg activated t) (fun _ => Idle) := by
  refine safe_bind (Q := fun proj w => Mid cfg activated w ∧
      (proj.any (fun p => p.status = .active) = true → (leaseRow w.leases (t.leaseId cfg)).isSome = true ∧
        (w.status = .ready → Reads w (t.leaseId cfg) .active)) ∧
      (proj.any (fun p => p.status = .active) = false → w.status = .ready → ¬ Reads w (t.leaseId cfg) .active)) ?_ ?_
  · refine safe_call (fun _ _ _ => rfl) (fun _ _ _ => trivial) ?_ ?_
    · rintro w r w' hi hm ⟨inp, -, hex⟩
      simp only [exec] at hex
      rcases storeCall_cases hex with ⟨⟨e, rfl⟩, rfl⟩ | ⟨proj, hrun, rfl⟩
      · exact hm.idle
      · cases hrun
        refine ⟨hm, fun hact => ?_, fun hact _ hreads => ?_⟩
        · cases hrow : leaseRow w.leases (t.leaseId cfg) with
          | none =>
            rw [hrow] at hact
            cases hact
          | some p =>
            rw [hrow] at hact
            exact ⟨rfl, fun _ => ⟨p, hrow, of_decide_eq_true hact⟩⟩
        · obtain ⟨p, hp, hst⟩ := hreads
          rw [hp] at hact
          exact of_decide_eq_false hact hst
    · intro r w w' h hr _
      cases r with
      | ok proj =>
        obtain ⟨hm, hyes, hno⟩ : Mid cfg activated w ∧ _ ∧ _ := h
        exact ⟨hm.rely hr, fun ha => ⟨hr.rows _ (hyes ha).1, fun hst =>
            (reads_congr (hr.table hst)).mpr ((hyes ha).2 (hr.status hst))⟩,
          fun ha hst hn => hno ha (hr.status hst) ((reads_congr (hr.table hst)).mp hn)⟩
      | error _ => exact (h : Idle w).rely hr
  · intro proj
    refine safe_ite (fun hact => ?_) (fun hact => ?_)
    · exact safe_pure (fun w _ h => ⟨h.1, fun _ => (h.2.1 hact).1, fun _ => (h.2.1 hact).2, fun h' => absurd rfl h'⟩)
    · refine safe_bind (Q := fun _ => Seek cfg activated t) ?_ (fun _ => ?_)
      · have hintent : Does cfg (Seek cfg activated t) (call (.recordIntent t)) (fun _ => Seek cfg activated t)
            (fun _ => Seek cfg activated t) := does_search rfl
        refine hintent.conseq (fun w _ h => ?_) (fun _ _ _ h => h) (fun _ _ _ h => h.idle)
        exact ⟨h.1, h.2.2 (by simpa using hact)⟩
      · refine safe_catch (F := fun _ => Seek cfg activated t) (safe_bind (Q := fun lease w => (Seek cfg activated t w ∧
          (w.status = .ready → Live w t.nodeId (t.leaseId cfg))) ∧ lease.leaseId = t.leaseId cfg) ?_ ?_) ?_
        · refine safe_call (fun _ _ _ => rfl) (fun _ _ _ => trivial) ?_ ?_
          · rintro w r w' hi hs ⟨inp, -, hex⟩
            have hs' := hs.quiet (search_quiet rfl hi.nodes (exec_effect hex))
            simp only [exec] at hex
            obtain ⟨d, res, -, hrem, rfl⟩ := remoteCall_cases hex
            obtain ⟨-, -, -, -, hrow⟩ := acquire_effect hi.nodes hrem
            cases res with
            | ok row =>
              obtain ⟨hid, hlive⟩ := hrow row rfl
              exact ⟨⟨hs', fun _ => hlive⟩, hid⟩
            | error code => exact hs'
          · intro r w w' h hr _
            cases r with
            | ok row =>
              obtain ⟨⟨hs, hl⟩, hid⟩ : (Seek cfg activated t w ∧ _) ∧ _ := h
              exact ⟨⟨hs.rely hr, fun hst => hr.kept hst t (hl (hr.status hst))⟩, hid⟩
            | error _ => exact (h : Seek cfg activated t w).rely hr
        · intro lease
          refine safe_lift (φ := lease.leaseId = t.leaseId cfg) (fun _ _ h => h.2) (fun hid => ?_)
          rw [hid]
          exact safe_bind (Q := fun _ => Sought cfg activated t .active) (does_markActive.pre (fun _ _ h => h.1))
            (fun _ => safe_pure (fun _ _ h => h))
        · intro e
          cases e with
          | lease code => exact does_refusal (o := .blocked) (by rintro ⟨⟩)
          | transientLease => exact does_reconcileAmbiguousAcquire
          | store e => exact safe_throw (fun _ _ h => h.idle)
          | runtime code => exact safe_throw (fun _ _ h => h.idle)

end

/-! ## Giving back -/

/-- During a rollback: some targets are given back, some are left. -/
structure Giving (cfg : Config) (gone left : List Target) (w : World) : Prop where
  idle : Idle w
  lacks : w.status = .ready → ¬ Held cfg w
  rows : ∀ t ∈ left, (leaseRow w.leases (t.leaseId cfg)).isSome = true
  gone : ∀ t ∈ gone, ¬ Live w t.nodeId (t.leaseId cfg)

/-- Between a release and its mark. -/
structure Given (cfg : Config) (gone : List Target) (t : Target) (rest : List Target) (w : World) : Prop where
  work : w.leaseWork.isSome = true
  rolling : w.rollingBack = some (t.leaseId cfg)
  lacks : w.status = .ready → ¬ Held cfg w
  rows : ∀ t' ∈ t :: rest, (leaseRow w.leases (t'.leaseId cfg)).isSome = true
  gone : ∀ t' ∈ gone ++ [t], ¬ Live w t'.nodeId (t'.leaseId cfg)

section

variable {cfg : Config} {w w' : World} {gone rest : List Target} {t : Target}

theorem held_congr (h : w'.leases = w.leases) : Held cfg w' ↔ Held cfg w :=
  forall₂_congr (fun _ _ => reads_congr h)

theorem Giving.rely (h : Giving cfg gone rest w) (hr : AttemptRely cfg w w') : Giving cfg gone rest w' :=
  ⟨h.idle.rely hr, fun hs hh => h.lacks (hr.status hs) ((held_congr (hr.table hs)).mp hh),
    fun t ht => hr.rows _ (h.rows t ht), fun t ht hl => h.gone t ht (hr.live t hl)⟩

theorem Given.rely (h : Given cfg gone t rest w) (hr : AttemptRely cfg w w') : Given cfg gone t rest w' :=
  ⟨hr.work h.work, hr.rolling.trans h.rolling,
    fun hs hh => h.lacks (hr.status hs) ((held_congr (hr.table hs)).mp hh),
    fun t ht => hr.rows _ (h.rows t ht), fun t ht hl => h.gone t ht (hr.live t hl)⟩

/-- Releasing a lease, which the terms let succeed. -/
theorem does_giveBack :
    Does cfg (Giving cfg gone (t :: rest)) (call (.release t.nodeId (t.leaseId cfg) .rollback))
      (fun _ => Given cfg gone t rest) (fun _ _ => False) := by
  refine safe_call (fun _ _ _ => rfl) (fun w _ h => ⟨h.idle.2, h.idle.1, h.lacks⟩) ?_ ?_
  · rintro w r w' hi hg ⟨inp, hterm, hex⟩
    cases r with
    | error e =>
      simp only [acquisitionTerms, hex] at hterm
      exact nomatch hterm
    | ok row =>
      simp only [exec] at hex
      obtain ⟨⟨r₁, w₁⟩, hcall, heq⟩ := Option.map_eq_some_iff.mp hex
      cases heq
      obtain ⟨d, res, -, hrem, hans⟩ := remoteCall_cases hcall
      obtain ⟨⟨nodes, rfl⟩, hn, hothers, hback, -, hok⟩ := release_effect hi.nodes hrem
      have hout := (hok row (leaseAnswer_ok hans.symm)).not_live hn
      refine ⟨hg.idle.1, rfl, hg.lacks, hg.rows, fun t' ht' hl => ?_⟩
      by_cases heq : t'.nodeId = t.nodeId ∧ t'.leaseId cfg = t.leaseId cfg
      · rw [heq.1, heq.2] at hl
        exact hout hl
      · rcases List.mem_append.mp ht' with ht' | ht'
        · exact hg.gone t' ht' ((hothers.live (fun hnode hid => heq ⟨hnode, hid⟩)).mp hl)
        · exact heq ⟨by rw [List.mem_singleton.mp ht'], by rw [List.mem_singleton.mp ht']⟩
  · intro r w w' h hr _
    cases r with
    | ok _ => exact (h : Given cfg gone t rest w).rely hr
    | error _ => exact h

/-- Marking its row, which the terms let succeed. -/
theorem does_markGiven :
    Does cfg (Given cfg gone t rest) (call (.markReleased (t.leaseId cfg) .rollback))
      (fun _ => Giving cfg (gone ++ [t]) rest) (fun _ _ => False) := by
  refine safe_call (fun _ _ _ => rfl) (fun w _ h => ⟨h.rolling, h.lacks⟩) ?_ ?_
  · rintro w r w' hi hg ⟨inp, hterm, hex⟩
    cases inp with
    | storeFail e => exact nomatch hterm
    | node d => exact nomatch hex
    | run =>
      obtain ⟨p, hp⟩ := Option.isSome_iff_exists.mp (hg.rows t List.mem_cons_self)
      have hrows : markWorkspaceLeaseReleased w.leases (t.leaseId cfg)
          = .ok (setLeaseRow w.leases (t.leaseId cfg) (fun p => { p with status := .released })) := by
        unfold markWorkspaceLeaseReleased updateLease
        rw [hp]
      simp only [exec, hrows] at hex
      cases hex
      refine ⟨⟨hg.work, rfl⟩, fun hs hh => hg.lacks hs ?_, fun t' ht' => ?_, hg.gone⟩
      · intro t' ht'
        exact ((reads_released hrows).mp (hh t' ht')).2
      · exact isSome_update hrows (fun _ => rfl) _ (hg.rows t' (List.mem_cons_of_mem _ ht'))
  · intro r w w' h hr _
    cases r with
    | ok _ => exact (h : Giving cfg (gone ++ [t]) rest w).rely hr
    | error _ => exact h

/-- **A rollback** puts every lease it is given out of force. -/
theorem does_rollbackAcquired (left : List Target) {E : CallError → World → Prop} :
    ∀ gone, Does cfg (Giving cfg gone left) (rollbackAcquired cfg left)
      (fun _ w => Idle w ∧ ∀ t ∈ gone ++ left, ¬ Live w t.nodeId (t.leaseId cfg)) E := by
  induction left with
  | nil =>
    intro gone
    exact safe_pure (fun w _ h => ⟨h.idle, by rw [List.append_nil]; exact h.gone⟩)
  | cons t rest ih =>
    intro gone
    refine safe_bind (Q := fun _ => Given cfg gone t rest) ?_ (fun _ => ?_)
    · exact safe_catch (F := fun _ _ => False) (safe_bind does_giveBack (fun _ => safe_pure (fun _ _ h => h)))
        (fun _ => safe_pure (fun _ _ h => h.elim))
    · refine safe_bind (Q := fun _ => Giving cfg (gone ++ [t]) rest) ?_ (fun _ => ?_)
      · exact safe_catch (F := fun _ _ => False) does_markGiven (fun _ => safe_pure (fun _ _ h => h.elim))
      · refine (ih (gone ++ [t])).conseq (fun _ _ h => h) (fun _ w _ h => ?_) (fun _ _ _ h => h)
        rw [List.append_assoc] at h
        exact h

end

/-! ## The attempt -/

section

variable {cfg : Config}

/-- A set that lacks one target is not complete. -/
theorem Sought.giving {activated rest : List Target} {t : Target} {o : TargetOutcome} {w : World}
    (hreq : requiredTargets cfg = activated ++ t :: rest) (ho : o ≠ .active)
    (h : Sought cfg activated t o w) : Giving cfg [] activated w :=
  ⟨h.idle, fun hs hh => h.lacks ho hs (hh t (by rw [hreq]; simp)), h.rows, nofun⟩

/-- The loop gives up on one target. -/
theorem does_giveUp {activated rest : List Target} {t : Target} {o : TargetOutcome} {out : AcquireOutcome}
    (hreq : requiredTargets cfg = activated ++ t :: rest) (ho : o ≠ .active) (hout : out ≠ .acquired) :
    Does cfg (Sought cfg activated t o) (do rollbackAcquired cfg activated; pure (Attempt.mk out activated))
      (AttemptDone cfg) (fun _ w => w.rollingBack = none) := by
  refine safe_bind ((does_rollbackAcquired activated []).pre (fun w _ h => h.giving hreq ho)) (fun _ => safe_pure ?_)
  rintro w - ⟨hidle, hgone⟩
  exact ⟨hidle.2, fun h => absurd h hout, fun _ => ⟨⟨t, rest, hreq⟩, hgone⟩⟩

/-- **The loop over the targets** ends with all of them active, or with those it had out of force. -/
theorem acquireEach_safe (targets : List Target) :
    ∀ activated, requiredTargets cfg = activated ++ targets →
      Does cfg (Mid cfg activated) (acquireEach cfg activated targets) (AttemptDone cfg)
        (fun _ w => w.rollingBack = none) := by
  induction targets with
  | nil =>
    intro activated hreq
    refine safe_pure (fun w _ h => ⟨h.idle.2, fun _ hs t ht => ?_, fun hne => absurd rfl hne⟩)
    rw [hreq, List.append_nil] at ht
    exact h.got hs t ht
  | cons t rest ih =>
    intro activated hreq
    refine safe_bind (does_reconcileOneLease.conseq (fun _ _ h => h) (fun _ _ _ h => h) (fun _ _ _ h => h.2)) ?_
    intro o
    cases o with
    | active =>
      refine (ih (activated ++ [t]) (by rw [hreq]; simp)).pre (fun w _ h => ?_)
      refine ⟨h.idle, fun t' ht' => ?_, fun hs t' ht' => ?_⟩
      · rcases List.mem_append.mp ht' with ht' | ht'
        · exact h.rows t' ht'
        · rw [List.mem_singleton.mp ht']
          exact h.row rfl
      · rcases List.mem_append.mp ht' with ht' | ht'
        · exact h.got hs t' ht'
        · rw [List.mem_singleton.mp ht']
          exact h.active rfl hs
    | pending => exact does_giveUp (o := .pending) hreq nofun nofun
    | blocked => exact does_giveUp (o := .blocked) hreq nofun nofun

theorem spawn_safe {w : World} (hi : AcquireInv cfg w) (hclient : cfg.leaseClient = true) (hnone : w.leaseWork = none) :
    threadOk (acquisition cfg).attemptContract (acquisition cfg).attemptPost
      (attemptStart cfg { w with leaseWork := some w.outcomes.length })
      { w with leaseWork := some w.outcomes.length } := by
  have hidle : Idle { w with leaseWork := some w.outcomes.length } := ⟨rfl, hi.idle hnone⟩
  cases hload : cfg.loaded with
  | none =>
    simp only [attemptStart, hload]
    intro w₁ hr _
    exact (hidle.rely hr).2
  | some spec =>
    simp only [attemptStart, hload]
    have hkept : Kept (acquisition cfg).attemptContract (Mid cfg []) { w with leaseWork := some w.outcomes.length } :=
      fun w₁ hr _ => Mid.rely ⟨hidle, nofun, fun _ => nofun⟩ hr
    refine Safe.thread (P := Mid cfg []) ?_ hkept
    unfold doAcquireOrReconcile
    rw [if_pos hclient]
    split
    · exact safe_throw (fun w' _ h => h.idle.2)
    · rename_i targets htargets
      refine acquireEach_safe targets [] ?_
      simp only [requiredTargets, hload, htargets, List.nil_append]

end

/-! ## The public calls -/

/-- The workflow has ended. -/
def Ended (w : World) : Prop := isTerminalWorkflowStatus w.status = true

section

variable {cfg : Config}

/-- A triple over the calls' contract. -/
abbrev Calls (cfg : Config) {α : Type} (P : World → Prop) (m : Lt α) (Q : α → World → Prop)
    (E : CallError → World → Prop) : Prop :=
  Safe (acquisition cfg).callContract P m Q E

/-- A call made after the end. -/
theorem calls_ended {op : Op} (hpre : ∀ w, Ended w → CallPre cfg op w) :
    Calls cfg Ended (call op) (fun _ => Ended) (fun _ => Ended) := by
  refine safe_call (fun _ _ _ => rfl) (fun w _ h => hpre w h) ?_ ?_
  · intro w r w' hi h hex
    have hend : Ended w' := (call_keeps hi (hpre w h) (allowed_effect hex)).2.2.ended h
    cases r <;> exact hend
  · intro r w w' h hr _
    cases r <;> exact hr.ended h

/-- A call of which nothing is learnt. -/
theorem calls_any {op : Op} {P : World → Prop} (hpre : ∀ w, P w → CallPre cfg op w) :
    Calls cfg P (call op) (fun _ _ => True) (fun _ _ => True) := by
  refine safe_call (fun _ _ _ => rfl) (fun w _ h => hpre w h) ?_ ?_
  · intro w r w' _ _ _
    cases r <;> trivial
  · intro r w w' _ _ _
    cases r <;> trivial

theorem calls_releaseLeaseWithRetry (p : Projection) (left : Nat) :
    ∀ attempt, Calls cfg Ended (releaseLeaseWithRetry p left attempt) (fun _ => Ended) (fun _ => Ended) := by
  induction left with
  | zero => exact fun _ => safe_pure (fun _ _ h => h)
  | succ left ih =>
    intro attempt
    refine safe_flags (fun fl => ?_)
    refine safe_ite (fun _ => ?_) (fun _ => ?_)
    · exact safe_pure (fun _ _ h => h)
    · refine safe_bind (Q := fun _ => Ended) ?_ (fun again => ?_)
      · refine safe_catch (F := fun _ => Ended) ?_ (fun _ => safe_pure (fun _ _ h => h))
        refine safe_bind (calls_ended (fun _ h => h)) (fun _ => ?_)
        exact safe_bind (calls_ended (fun _ h => h)) (fun _ => safe_pure (fun _ _ h => h))
      · refine safe_ite (fun _ => ?_) (fun _ => ?_)
        · exact safe_bind (calls_ended (fun _ _ => trivial)) (fun _ => ih (attempt + 1))
        · exact safe_pure (fun _ _ h => h)

theorem calls_releaseEach (rows : List Projection) :
    Calls cfg Ended (releaseEach cfg rows) (fun _ => Ended) (fun _ => Ended) := by
  induction rows with
  | nil => exact safe_pure (fun _ _ h => h)
  | cons p rest ih =>
    refine safe_ite (fun _ => ?_) (fun _ => ?_)
    · exact ih
    · refine safe_bind (calls_ended (fun _ h => h)) (fun _ => ?_)
      exact safe_bind (calls_releaseLeaseWithRetry p cfg.maxReleaseAttempts 0) (fun _ => ih)

/-- Reading the row tells of an end. -/
theorem calls_getWorkflow :
    Calls cfg (fun _ => True) (call .getWorkflow)
      (fun st w => isTerminalWorkflowStatus st = true → Ended w) (fun _ _ => True) := by
  refine safe_call (fun _ _ _ => rfl) (fun _ _ _ => trivial) ?_ ?_
  · rintro w r w' - - ⟨inp, -, hex⟩
    simp only [exec] at hex
    rcases storeCall_cases hex with ⟨⟨e, rfl⟩, rfl⟩ | ⟨st, hrun, rfl⟩
    · trivial
    · cases hrun
      exact fun h => h
  · intro r w w' h hr _
    cases r with
    | ok st => exact fun ht => hr.ended ((h : isTerminalWorkflowStatus st = true → Ended w) ht)
    | error e => trivial

theorem calls_settleLeaseReleases :
    Calls cfg (fun _ => True) (settleLeaseReleases cfg) (fun _ _ => True) (fun _ _ => True) := by
  unfold settleLeaseReleases
  split
  · refine safe_bind calls_getWorkflow (fun st => ?_)
    refine safe_ite (fun hterm => ?_) (fun _ => ?_)
    · refine Safe.pre (P := Ended) ?_ (fun w _ h => h hterm)
      refine safe_bind (Q := fun _ => Ended) ?_ (fun rows => ?_)
      · have hlist : Calls cfg Ended (call .listProjections) (fun _ => Ended) (fun _ => Ended) :=
          calls_ended (fun _ _ => trivial)
        exact hlist.conseq (fun _ _ h => h) (fun _ _ _ h => h) (fun _ _ _ _ => trivial)
      · exact (calls_releaseEach rows).conseq (fun _ _ h => h) (fun _ _ _ _ => trivial) (fun _ _ _ _ => trivial)
    · exact safe_pure (fun _ _ _ => trivial)
  · exact safe_pure (fun _ _ _ => trivial)

/-- A lease is listed for release only after the end. -/
theorem calls_recoverLeaseReleases :
    Calls cfg (fun _ => True) (recoverLeaseReleases cfg) (fun _ _ => True) (fun _ _ => True) := by
  unfold recoverLeaseReleases
  split
  · refine safe_bind (Q := fun rows w => rows ≠ [] → Ended w) ?_ (fun rows => ?_)
    · refine safe_call (fun _ _ _ => rfl) (fun _ _ _ => trivial) ?_ ?_
      · rintro w r w' - - ⟨inp, -, hex⟩
        simp only [exec] at hex
        rcases storeCall_cases hex with ⟨⟨e, rfl⟩, rfl⟩ | ⟨rows, hrun, rfl⟩
        · trivial
        · cases hrun
          intro hne
          by_contra hlive
          exact hne (if_neg hlive)
      · intro r w w' h hr _
        cases r with
        | ok rows => exact fun hne => hr.ended ((h : rows ≠ [] → Ended w) hne)
        | error e => trivial
    · cases rows with
      | nil => exact safe_pure (fun _ _ _ => trivial)
      | cons p rest =>
        exact (calls_releaseEach (p :: rest)).conseq (fun w _ h => h (by rintro ⟨⟩)) (fun _ _ _ _ => trivial)
          (fun _ _ _ _ => trivial)
  · exact safe_pure (fun _ _ _ => trivial)

/-- A shared attempt that acquired everything has done so for each of its callers. -/
theorem calls_acquireOrReconcileLeases {P : World → Prop} (hclient : cfg.leaseClient = true) :
    Calls cfg P acquireOrReconcileLeases
      (fun o w => o = .acquired → w.status = .ready → Held cfg w) (fun _ _ => True) := by
  refine safe_bind (Q := fun _ _ => True) (calls_any (fun _ _ => hclient)) (fun ticket => ?_)
  refine safe_call (fun _ _ _ => rfl) (fun _ _ _ => trivial) ?_ ?_
  · rintro w r w' hi - ⟨inp, -, hex⟩
    cases inp with
    | storeFail e => exact nomatch hex
    | node d => exact nomatch hex
    | run =>
      simp only [exec] at hex
      obtain ⟨o, ho, heq⟩ := Option.map_eq_some_iff.mp hex
      cases heq
      cases r with
      | ok out => exact fun h hs => hi.outcomes _ (List.mem_of_getElem? ho) (congrArg Except.ok h) hs
      | error e => trivial
  · intro r w w' h hr _
    cases r with
    | ok o =>
      intro ho hs
      exact hr.held hs ((h : o = .acquired → w.status = .ready → Held cfg w) ho (hr.status hs))
    | error e => trivial

theorem calls_startWorkflow :
    Calls cfg (fun _ => True) (startWorkflow cfg) (fun _ _ => True) (fun _ _ => True) := by
  refine safe_bind (Q := fun _ _ => True) (calls_any (fun _ _ => trivial)) (fun st => ?_)
  refine safe_ite (fun _ => safe_pure (fun _ _ _ => trivial)) (fun _ => ?_)
  refine safe_ite (fun _ => safe_throw (fun _ _ _ => trivial)) (fun _ => ?_)
  split
  · exact safe_throw (fun _ _ _ => trivial)
  · rename_i spec hload
    refine safe_ite (fun _ => safe_throw (fun _ _ _ => trivial)) (fun hbound => ?_)
    refine safe_ite (fun hclient => ?_) (fun hclient => ?_)
    · refine safe_bind (calls_acquireOrReconcileLeases hclient) (fun o => ?_)
      cases o with
      | acquired => exact calls_any (fun w h => h rfl)
      | pending => exact safe_throw (fun _ _ _ => trivial)
      | blocked => exact safe_throw (fun _ _ _ => trivial)
    · -- without a lease client only a workflow without workspaces starts
      have hnone : requiredTargets cfg = [] := by
        simp only [hclient, Bool.not_false, Bool.and_true, workspaceBound] at hbound
        simp only [requiredTargets, hload]
        cases hres : resolveWorkspaceTargets cfg spec with
        | error e => rfl
        | ok targets =>
          rw [hres] at hbound
          simpa using hbound
      refine calls_any (fun w _ _ t ht => ?_)
      rw [hnone] at ht
      cases ht

theorem calls_reconcileAndMaybeStart :
    Calls cfg (fun _ => True) (reconcileAndMaybeStart cfg) (fun _ _ => True) (fun _ _ => True) := by
  refine safe_flags (fun fl => ?_)
  refine safe_ite (fun _ => ?_) (fun hgo => ?_)
  · exact safe_pure (fun _ _ _ => trivial)
  · have hclient : cfg.leaseClient = true := by
      cases hc : cfg.leaseClient with
      | true => rfl
      | false =>
        rw [hc] at hgo
        exact absurd (Bool.or_true _) hgo
    refine safe_bind (calls_any (fun _ _ => trivial)) (fun st => ?_)
    refine safe_ite (fun _ => ?_) (fun _ => ?_)
    · exact safe_pure (fun _ _ _ => trivial)
    · refine safe_bind (calls_acquireOrReconcileLeases hclient) (fun o => ?_)
      cases o with
      | acquired => exact calls_any (fun w h => h rfl)
      | pending => exact safe_pure (fun _ _ _ => trivial)
      | blocked => exact safe_pure (fun _ _ _ => trivial)

theorem calls_cancelWorkflow :
    Calls cfg (fun _ => True) (cancelWorkflow cfg) (fun _ _ => True) (fun _ _ => True) := by
  refine safe_bind (calls_any (fun _ _ => trivial)) (fun st => ?_)
  refine safe_ite (fun _ => ?_) (fun _ => ?_)
  · exact safe_pure (fun _ _ _ => trivial)
  · exact safe_bind (calls_any (fun _ _ => trivial)) (fun _ => calls_settleLeaseReleases)

theorem calls_program (c : LeaseCall) :
    Calls cfg (fun _ => True) (c.program cfg) (fun _ _ => True) (fun _ _ => True) := by
  cases c with
  | start => exact calls_startWorkflow
  | reconcile => exact calls_reconcileAndMaybeStart
  | cancel => exact calls_cancelWorkflow
  | recover => exact safe_catch calls_recoverLeaseReleases (fun _ => safe_pure (fun _ _ _ => trivial))
  | afterDrive =>
    refine safe_flags (fun fl => ?_)
    refine safe_ite (fun _ => ?_) (fun _ => ?_)
    · exact safe_pure (fun _ _ _ => trivial)
    · exact calls_settleLeaseReleases

theorem acquisition_sound (cfg : Config) : (acquisition cfg).Sound where
  init := initial_acquire cfg
  attempt_step hi hpre _ hex := attempt_keeps hi hpre (exec_effect hex)
  attempt_alone _ h := h
  call_step hi hpre _ hex := call_keeps hi hpre (exec_effect hex)
  env := env_keeps
  settle := settle_keeps
  crash := crash_keeps
  spawn := spawn_safe
  programs c _ _ _ := (calls_program c).thread (fun _ _ _ => trivial)

end

/-! ## All or nothing -/

section

variable {cfg : Config} {s s' : Sys}

/-- The lease is active at its Node in this workflow's name. -/
def OwnLease (cfg : Config) (w : World) (t : Target) : Prop :=
  ∃ row ∈ w.rows t.nodeId, row.leaseId = t.leaseId cfg ∧ row.status = .active ∧
    row.workflowId = cfg.workflowId ∧ row.workspaceKey = t.workspaceKey

/-- Only the durable start takes a `ready` workflow to `running`. -/
theorem effect_starts {op : Op} {w w' : World} (hn : NodesInv w) (he : Effect cfg w op w')
    (hready : w.status = .ready) (hrun : w'.status = .running) :
    op = .startDurably ∧ w' = { w with status := .running } := by
  have hsame : w'.status = w.status → op = .startDurably ∧ w' = { w with status := .running } := by
    intro h
    rw [hready, hrun] at h
    exact nomatch h
  cases he with
  | started => exact ⟨rfl, rfl⟩
  | cancelled =>
    have hc : cancelStatus w.status = .running := hrun
    rw [hready] at hc
    exact nomatch hc
  | acquired hrem =>
    obtain ⟨⟨nodes, rfl⟩, -⟩ := acquire_effect hn hrem
    exact hsame rfl
  | read hrem =>
    obtain ⟨⟨nodes, rfl⟩, -⟩ := get_effect hn hrem
    exact hsame rfl
  | @released _ _ site _ _ _ hrem =>
    obtain ⟨⟨nodes, rfl⟩, -⟩ := release_effect hn hrem
    cases site <;> exact hsame rfl
  | @marked _ site _ _ => cases site <;> exact hsame rfl
  | _ => exact hsame rfl

/-- A step that takes a `ready` workflow to `running` finds every lease active. -/
theorem start_has_all {a : Action} (h : (acquisition cfg).Safe s) (hs : step cfg s a = some s')
    (hready : s.w.status = .ready) (hrun : s'.w.status = .running) :
    ∀ t ∈ requiredTargets cfg, OwnLease cfg s'.w t := by
  have hi : AcquireInv cfg s.w := h.inv
  generalize hw : s'.w = w' at hrun ⊢
  have hm := step_move hs
  rw [hw] at hm
  cases hm with
  | @exec who inp op r _ hop hex =>
    obtain ⟨rfl, rfl⟩ := effect_starts hi.nodes (exec_effect hex) hready hrun
    cases who with
    | attempt => exact absurd (h.attemptPre hop) (fun h => h)
    | call i =>
      have hheld : Held cfg s.w := (h.callPre hop : CallPre cfg .startDurably s.w) hready
      have hidle : s.w.rollingBack = none := by
        cases hroll : s.w.rollingBack with
        | none => rfl
        | some id => exact absurd hheld (hi.rolling (by rw [hroll]; rfl) hready)
      intro t ht
      refine Live.row ⟨hi.nodes.journal, hi.nodes.plain, hi.nodes.home⟩ (hi.sound hready t (hheld t ht) ?_)
      rw [hidle]
      exact nofun
  | env he =>
    cases he with
    | drive hd =>
      rw [hready] at hd
      exact nomatch hd
    | node => exact nomatch hready.symm.trans hrun
    | stop => exact nomatch hready.symm.trans hrun
  | same => exact nomatch hready.symm.trans hrun
  | settle => exact nomatch hready.symm.trans hrun
  | crash => exact nomatch hready.symm.trans hrun

/-- **All leases or none.**  In every run whose release calls succeed and whose rollbacks get to mark
    what they release: a workflow goes from `ready` to `running` only with every required lease active
    at its Node in its name, and an attempt that ends short of that has put every target it had
    activated, all those before the one it stopped at, out of force. -/
theorem all_or_nothing (cfg : Config) (s : Sys) (h : Reach cfg (acquisitionTerms cfg).ok s) :
    (∀ a s', step cfg s a = some s' → s.w.status = .ready → s'.w.status = .running →
      ∀ t ∈ requiredTargets cfg, OwnLease cfg s'.w t) ∧
    (∀ a fl, s.attempt = some (.run (.ret (.ok a, fl))) → a.outcome ≠ .acquired →
      (∃ t rest, requiredTargets cfg = a.activated ++ t :: rest) ∧
        ∀ t ∈ a.activated, ¬ Live s.w t.nodeId (t.leaseId cfg)) := by
  have hsafe := (acquisition_sound cfg).reach h
  refine ⟨fun a s' hs hready hrun => start_has_all hsafe hs hready hrun, ?_⟩
  intro a fl hret hne
  have hdone : AttemptDone cfg a s.w := threadOk_ret (hsafe.attempt _ hret) hsafe.inv
  exact hdone.nothing hne

end

/-! ## A workflow with two workspaces -/

def boundStep (id role : String) : Json :=
  .obj [("id", .str id), ("type", .str "agent_task"), ("agent_role", .str role),
    ("prompt_template", .str "go"), ("output_schema", .str "s"), ("workspace_key_template", .str "repo")]

/-- A step on Node `n1`, then a step on Node `n2`. -/
def twoNodesSpec : Json :=
  .obj [("version", .str "1"), ("name", .str "w"), ("entry_step", .str "a"),
    ("agents", .obj [("r1", .obj [("agent", .str "x"), ("node_id", .str "n1")]),
      ("r2", .obj [("agent", .str "x"), ("node_id", .str "n2")])]),
    ("output_schemas", enumSchemas), ("limits", smallLimits []),
    ("steps", .arr [boundStep "a" "r1", boundStep "b" "r2"]),
    ("edges", .arr [plainEdge "a" "b", plainEdge "b" "$complete"]), statusPolicy]

theorem twoNodesSpec_loaded : some (WorkflowSpec.ofJson twoNodesSpec) = loadSpec twoNodesSpec := by
  have hv : (validateWorkflowSpec twoNodesSpec).valid = true := by decide +kernel
  unfold loadSpec
  rw [if_pos hv]

def twoNodes : Config where
  workflowId := "wf"
  rawSpec := twoNodesSpec
  loaded := some (WorkflowSpec.ofJson twoNodesSpec)
  loaded_eq := twoNodesSpec_loaded
  inputs := []
  leaseClient := true
  jsonParse := fun _ => none
  digest := id
  digest_inj := fun _ _ h => h
  filesHash := fun files => " ".intercalate files
  resultIngestionDeadlineMs := 60000
  maxReleaseAttempts := 3

def firstTarget : Target := ⟨"n1", "repo"⟩

def secondTarget : Target := ⟨"n2", "repo"⟩

/-- A call is answered and its caller goes on. -/
def answers (who : Who) (inp : Input) : List Action := [.exec who inp, .wake who]

def storeAnswers (who : Who) (n : Nat) : List Action := (List.replicate n (answers who .run)).flatten

def nodeAnswers (who : Who) : List Action := answers who (.node (.acked sampleProbe))

/-- Both Nodes come up. -/
def nodesUp : List Action := [.node "n1" (.restart true), .node "n2" (.restart true)]

/-- Another workflow takes the second workspace, and gives it back. -/
def otherTakes : List Action := [.node "n2" (.lease sampleProbe (.acquire "other" "repo"))]

def otherLeaves : List Action :=
  [.node "n2" (.lease sampleProbe (.release (workspaceLeaseId "other" "n2" "repo")))]

/-- A start that begins an attempt. -/
def startAttempt : List Action := [.invoke .start] ++ storeAnswers (.call 0) 2

/-- The attempt acquires a target it does not hold. -/
def acquireAction : List Action :=
  storeAnswers .attempt 2 ++ nodeAnswers .attempt ++ storeAnswers .attempt 1

/-- The attempt's end, up to the durable start of its caller. -/
def attemptEnds : List Action := [.settle] ++ storeAnswers (.call 0) 1

/-- The second target is taken: the first one is released at its Node. -/
def rollbackActions : List Action :=
  startAttempt ++ acquireAction ++ acquireAction ++ nodeAnswers .attempt

/-- The attempt has ended blocked, with the first lease activated. -/
def blockedAttempt (s : Sys) : Bool :=
  match s.attempt with
  | some (.run (.ret (.ok a, _))) => decide (a = ⟨.blocked, [firstTarget]⟩)
  | _ => false

/-- Both leases are granted, and the start takes effect with both. -/
theorem both_leases_held :
    (requiredTargets twoNodes).length = 2 ∧
      ∃ s s', Reach twoNodes (acquisitionTerms twoNodes).ok s ∧ step twoNodes s (.exec (.call 0) .run) = some s' ∧
        s.w.status = .ready ∧ s'.w.status = .running ∧
        (∀ t ∈ requiredTargets twoNodes, OwnLease twoNodes s'.w t) ∧
        ∃ s₁ a fl, Reach twoNodes (acquisitionTerms twoNodes).ok s₁ ∧ s₁.attempt = some (.run (.ret (.ok a, fl))) ∧
          a = ⟨.blocked, [firstTarget]⟩ ∧ ¬ Live s₁.w firstTarget.nodeId (firstTarget.leaseId twoNodes) := by
  refine ⟨by decide +kernel, ?_⟩
  obtain ⟨s, hs, hP⟩ := reach_exists twoNodes (acquisitionTerms twoNodes)
    (nodesUp ++ startAttempt ++ acquireAction ++ acquireAction ++ attemptEnds)
    (fun s : Sys => decide (s.w.status = .ready) &&
      (step twoNodes s (.exec (.call 0) .run)).any (fun s' : Sys => decide (s'.w.status = .running)))
    (by decide +kernel)
  obtain ⟨s₁, hs₁, hP₁⟩ := reach_exists twoNodes (acquisitionTerms twoNodes)
    (nodesUp ++ otherTakes ++ rollbackActions ++ storeAnswers .attempt 1)
    blockedAttempt (by decide +kernel)
  simp only [Bool.and_eq_true, decide_eq_true_eq, Option.any_eq_true] at hP
  obtain ⟨hready, s', hstep, hrun⟩ := hP
  refine ⟨s, s', hs, hstep, hready, hrun, (all_or_nothing twoNodes s hs).1 _ s' hstep hready hrun, ?_⟩
  unfold blockedAttempt at hP₁
  split at hP₁
  · rename_i a fl hret
    obtain rfl := of_decide_eq_true hP₁
    exact ⟨s₁, _, fl, hs₁, hret, rfl, ((all_or_nothing twoNodes s₁ hs₁).2 _ fl hret (by rintro ⟨⟩)).2 _
      (List.mem_singleton_self _)⟩
  · cases hP₁

/-- A process dies after its rollback has released the first lease and before the projection is
    marked.  The next start takes the projection's word for that lease: the workflow runs without it. -/
theorem started_without_lease :
    ¬ ∀ (cfg : Config) (s : Sys), Reach cfg (releasesSucceed cfg).ok s →
      ∀ a s', step cfg s a = some s' → s.w.status = .ready → s'.w.status = .running →
        ∀ t ∈ requiredTargets cfg, OwnLease cfg s'.w t := by
  intro hall
  obtain ⟨s, hs, hP⟩ := reach_exists twoNodes (releasesSucceed twoNodes)
    (nodesUp ++ otherTakes ++ rollbackActions ++ [.crash] ++ otherLeaves ++
      startAttempt ++ storeAnswers .attempt 1 ++ acquireAction ++ attemptEnds)
    (fun s : Sys => decide (s.w.status = .ready) &&
      (step twoNodes s (.exec (.call 0) .run)).any (fun s' : Sys => decide (s'.w.status = .running) &&
        (s'.w.rows "n1").all (fun r => decide (r.status = .released))))
    (by decide +kernel)
  simp only [Bool.and_eq_true, decide_eq_true_eq, Option.any_eq_true, List.all_eq_true] at hP
  obtain ⟨hready, s', hstep, hrun, hreleased⟩ := hP
  obtain ⟨row, hrow, -, hactive, -⟩ :=
    hall twoNodes s hs _ s' hstep hready hrun firstTarget (by decide +kernel)
  rw [hreleased row hrow] at hactive
  exact nomatch hactive

end VibeLease
