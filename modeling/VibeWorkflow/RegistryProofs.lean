import VibeWorkflow.RelayServerProofs

/-!
# The registry of online nodes

A socket remembers one node id, the registry maps ids to sockets, and a closing socket takes out the
entry of the id it remembers.  A socket that registers a second id, one whose registration is refused
after an earlier one was taken, and one that registers a falsy id leave an entry behind when they close.

* `Keeps` — what every case but three leaves alone;
* **`dispatch_keeps`** — that it does;
* `Tied` — an entry's socket remembers the entry's id: the invariant;
* **`registry_live`** — the registry in every run, and where a run goes wrong.
-/

namespace VibeRelayServer

open VibeJson KeyedMap CallRuns

/-! ## What most frames leave alone -/

/-- What only pairing, registration and heartbeats change. -/
structure Keeps (s s' : Relay) : Prop where
  registry : s'.registry = s.registry
  conns : s'.conns = s.conns
  nodeIds : s'.nodeIds = s.nodeIds
  paired : s'.pairedIdentities = s.pairedIdentities
  registered : s'.registered = s.registered
  sockets : s'.sockets = s.sockets
  down : s'.down = s.down

namespace Keeps

variable {s s' s'' : Relay}

theorem refl (s : Relay) : Keeps s s := ⟨rfl, rfl, rfl, rfl, rfl, rfl, rfl⟩

theorem trans (h : Keeps s s') (h' : Keeps s' s'') : Keeps s s'' :=
  ⟨h'.registry.trans h.registry, h'.conns.trans h.conns, h'.nodeIds.trans h.nodeIds,
    h'.paired.trans h.paired, h'.registered.trans h.registered, h'.sockets.trans h.sockets,
    h'.down.trans h.down⟩

end Keeps

variable {cfg : Config} {s : Relay} {ws now : Nat} {f : Frame}

theorem sendMsg_keeps (s : Relay) (ws : Nat) (msg : Json) : Keeps s (s.sendMsg ws msg) := by
  unfold Relay.sendMsg
  split
  · exact ⟨rfl, rfl, rfl, rfl, rfl, rfl, rfl⟩
  · exact Keeps.refl s

theorem fanOut_keeps (s : Relay) (subs : List Nat) (msg : Json) : Keeps s (s.fanOut subs msg) := by
  induction subs generalizing s with
  | nil => exact Keeps.refl s
  | cons ws subs ih => exact (sendMsg_keeps s ws msg).trans (ih _)

theorem refuse_keeps (s : Relay) (t : Pending) (k : Key) (ws : Nat) (about : Val) (reply : String → Json) :
    Keeps s (s.refuse t k ws about reply).relay := by
  unfold Relay.refuse
  split
  · exact Keeps.refl s
  · exact (sendMsg_keeps s ws _).trans ⟨rfl, rfl, rfl, rfl, rfl, rfl, rfl⟩

theorem waiting_keeps (s : Relay) (t : Pending) (ws : Nat) (f : Frame) (c : Case) :
    Keeps s { s.setPending t (f.val "req_id").key ws with
      requests := s.requests ++ [((f.val "req_id").key, c, ws)] } :=
  ⟨rfl, rfl, rfl, rfl, rfl, rfl, rfl⟩

theorem requestNode_keeps (s : Relay) (t : Pending) (ws : Nat) (f : Frame) (c : Case) (target : String)
    (reply : String → Json) : Keeps s (s.requestNode t ws f c target reply).relay := by
  unfold Relay.requestNode
  dsimp only
  refine (waiting_keeps s t ws f c).trans ?_
  split
  · exact refuse_keeps _ _ _ _ _ _
  · exact sendMsg_keeps _ _ _

theorem requestOwner_keeps (s : Relay) (t : Pending) (ws : Nat) (f : Frame) (c : Case)
    (reply : String → String → Json) : Keeps s (s.requestOwner t ws f c reply).relay := by
  unfold Relay.requestOwner
  dsimp only
  refine (waiting_keeps s t ws f c).trans ?_
  split
  · exact refuse_keeps _ _ _ _ _ _
  · split
    · exact refuse_keeps _ _ _ _ _ _
    · exact sendMsg_keeps _ _ _

theorem answer_keeps (s : Relay) (t : Pending) (f : Frame) (c : Case) : Keeps s (s.answer t f c) := by
  unfold Relay.answer
  dsimp only
  split
  · exact Keeps.refl s
  · exact (sendMsg_keeps s _ f.json).trans ⟨rfl, rfl, rfl, rfl, rfl, rfl, rfl⟩

theorem subscribe_keeps (s : Relay) (ws now : Nat) (f : Frame) : Keeps s (s.subscribe cfg ws now f) := by
  unfold Relay.subscribe
  dsimp only
  split
  · refine Keeps.trans ?_ (sendMsg_keeps _ _ _)
    refine Keeps.trans ?_ (sendMsg_keeps _ _ _)
    exact ⟨rfl, rfl, rfl, rfl, rfl, rfl, rfl⟩
  · refine Keeps.trans ?_ (sendMsg_keeps _ _ _)
    exact ⟨rfl, rfl, rfl, rfl, rfl, rfl, rfl⟩

theorem replay_keeps (s : Relay) (f : Frame) : Keeps s (s.replay f) := by
  unfold Relay.replay
  split
  · exact Keeps.refl s
  · exact sendMsg_keeps _ _ _

theorem openTerminal_keeps (s : Relay) (ws now : Nat) (f : Frame) :
    Keeps s (s.openTerminal cfg ws now f).relay := by
  unfold Relay.openTerminal
  have hsub : Keeps s { s with
      terminalSubscribers := subscribed s.terminalSubscribers (f.val "session_id").key ws } :=
    ⟨rfl, rfl, rfl, rfl, rfl, rfl, rfl⟩
  refine hsub.trans ?_
  dsimp only
  split
  · exact sendMsg_keeps _ _ _
  · split
    · exact Keeps.refl _
    · exact sendMsg_keeps _ _ _

theorem unsupported_keeps (s : Relay) (ws now : Nat) (f : Frame) :
    Keeps s (s.unsupported cfg ws now f).relay := by
  unfold Relay.unsupported
  split
  · split
    · exact Keeps.refl s
    · dsimp only
      split
      · exact Keeps.refl s
      · exact sendMsg_keeps _ _ _
  · exact Keeps.refl s

theorem recordOwner_keeps (s : Relay) (f : Frame) : Keeps s (s.recordOwner f) := by
  unfold Relay.recordOwner
  split
  · exact ⟨rfl, rfl, rfl, rfl, rfl, rfl, rfl⟩
  · exact Keeps.refl s

/-- **Every case but three** leaves registry, sockets and pairings alone. -/
theorem dispatch_keeps (cfg : Config) (s : Relay) (ws now : Nat) (f : Frame)
    (hpair : f.case ≠ .nodePairRequest) (hreg : f.case ≠ .nodeRegister) (hbeat : f.case ≠ .nodeHeartbeat) :
    Keeps s (s.dispatch cfg ws now f).relay := by
  unfold Relay.dispatch
  split
  case h_8 h => exact absurd h hpair
  case h_9 h => exact absurd h hreg
  case h_10 h => exact absurd h hbeat
  case h_7 => exact Keeps.refl s
  case h_11 => exact sendMsg_keeps _ _ _
  case h_12 => exact subscribe_keeps s ws now f
  case h_14 => exact replay_keeps s f
  case h_15 => exact openTerminal_keeps s ws now f
  case h_16 =>
    split
    · exact Keeps.refl s
    · exact sendMsg_keeps _ _ _
  case h_23 => exact (answer_keeps s _ f _).trans (recordOwner_keeps _ f)
  case h_34 => exact unsupported_keeps s ws now f
  all_goals first
    | exact requestNode_keeps s _ ws f _ _ _
    | exact requestOwner_keeps s _ ws f _ _
    | exact answer_keeps s _ f _
    | exact fanOut_keeps s _ _

/-! ## The cases that write the registry -/

/-- A pairing overwrites what the id was paired with. -/
theorem pairRequest_cases (cfg : Config) (s : Relay) (ws now : Nat) (f : Frame) :
    Keeps s (s.pairRequest cfg ws now f).relay ∨
    ∃ identity, f.json.get? "identity" = some identity ∧
      Keeps { s with pairedIdentities := set s.pairedIdentities (f.inner "identity" "id").key identity }
        (s.pairRequest cfg ws now f).relay := by
  unfold Relay.pairRequest
  split
  · exact Or.inl (Keeps.refl s)
  · exact Or.inl (Keeps.refl s)
  · rename_i identity _ h
    exact Or.inr ⟨identity, h, sendMsg_keeps _ _ _⟩

/-- A heartbeat renews an entry in place. -/
theorem heartbeat_registry (cfg : Config) (s : Relay) (ws now : Nat) (f : Frame) :
    Keeps { s with registry := (s.heartbeat cfg ws now f).registry } (s.heartbeat cfg ws now f) ∧
    ((s.heartbeat cfg ws now f).registry = s.registry ∨
      ∃ e e', get s.registry (f.val "node_id").key = some e ∧ e'.ws = e.ws ∧
        (s.heartbeat cfg ws now f).registry = set s.registry (f.val "node_id").key e') := by
  unfold Relay.heartbeat
  dsimp only
  rw [(sendMsg_keeps _ _ _).registry]
  split
  · exact ⟨sendMsg_keeps _ _ _, Or.inl rfl⟩
  · rename_i e he
    exact ⟨sendMsg_keeps _ _ _, Or.inr ⟨e, { e with
      lastHeartbeatAt := now
      node := putField e.node "active_runs" (f.json.get? "active_runs") }, he, rfl, rfl⟩⟩

/-- A property that can be read further: it is neither absent nor `null`. -/
def Frame.Has (f : Frame) (name : String) : Prop := f.json.get? name ≠ none ∧ f.json.get? name ≠ some .null

theorem register_no_node (h : ¬ f.Has "node") : s.register cfg ws now f = .threw s := by
  unfold Frame.Has at h
  unfold Relay.register
  cases hn : f.json.get? "node" with
  | none => rfl
  | some node =>
    cases node with
    | null => rfl
    | _ => exact absurd ⟨by simp [hn], by simp [hn]⟩ h

/-- **What a registration does**, by the answer of the checks. -/
theorem register_cases (hn : f.Has "node") :
    (s.admits cfg f = none ∧ s.register cfg ws now f =
      .threw { s with nodeIds := Function.update s.nodeIds ws (f.inner "node" "node_id") }) ∨
    (∃ s', s.admits cfg f = some false ∧ s.register cfg ws now f = .returned s' ∧
      Keeps { s with nodeIds := Function.update s.nodeIds ws Val.null } s') ∨
    (∃ s' e, s.admits cfg f = some true ∧ s.register cfg ws now f = .returned s' ∧ e.ws = ws ∧
      Keeps { s with
        nodeIds := Function.update s.nodeIds ws (f.inner "node" "node_id")
        registry := set s.registry (f.inner "node" "node_id").key e
        registered := set s.registered (f.inner "node" "node_id").key ws } s') := by
  unfold Relay.register
  split
  · rename_i h
    exact absurd h hn.1
  · rename_i h
    exact absurd h hn.2
  · dsimp only
    split
    · rename_i h
      exact Or.inl ⟨h, rfl⟩
    · rename_i h
      exact Or.inr (Or.inl ⟨_, h, rfl, sendMsg_keeps _ _ _⟩)
    · rename_i h
      exact Or.inr (Or.inr ⟨_, _, h, rfl, rfl, sendMsg_keeps _ _ _⟩)

/-- **What a frame does to registry and pairings**: nothing, a pairing, a heartbeat, or a registration
    that throws, is refused or is taken. -/
theorem dispatch_cases (cfg : Config) (s : Relay) (ws now : Nat) (f : Frame) :
    Keeps s (s.dispatch cfg ws now f).relay ∨
    (∃ identity, f.case = .nodePairRequest ∧ f.json.get? "identity" = some identity ∧
      Keeps { s with pairedIdentities := set s.pairedIdentities (f.inner "identity" "id").key identity }
        (s.dispatch cfg ws now f).relay) ∨
    (∃ k e e', get s.registry k = some e ∧ e'.ws = e.ws ∧
      Keeps { s with registry := set s.registry k e' } (s.dispatch cfg ws now f).relay) ∨
    (f.case = .nodeRegister ∧ f.Has "node" ∧ s.admits cfg f = none ∧ s.dispatch cfg ws now f =
      .threw { s with nodeIds := Function.update s.nodeIds ws (f.inner "node" "node_id") }) ∨
    (∃ s', f.case = .nodeRegister ∧ f.Has "node" ∧ s.admits cfg f = some false ∧
      s.dispatch cfg ws now f = .returned s' ∧
      Keeps { s with nodeIds := Function.update s.nodeIds ws Val.null } s') ∨
    (∃ s' e, f.case = .nodeRegister ∧ f.Has "node" ∧ s.admits cfg f = some true ∧
      s.dispatch cfg ws now f = .returned s' ∧ e.ws = ws ∧
      Keeps { s with
        nodeIds := Function.update s.nodeIds ws (f.inner "node" "node_id")
        registry := set s.registry (f.inner "node" "node_id").key e
        registered := set s.registered (f.inner "node" "node_id").key ws } s') := by
  by_cases hreg : f.case = .nodeRegister
  · have hd : s.dispatch cfg ws now f = s.register cfg ws now f := by
      unfold Relay.dispatch
      rw [hreg]
    rw [hd]
    by_cases hn : f.Has "node"
    · rcases register_cases hn with ⟨ha, hr⟩ | ⟨s', ha, hr, hk⟩ | ⟨s', e, ha, hr, hws, hk⟩
      · exact Or.inr (Or.inr (Or.inr (Or.inl ⟨hreg, hn, ha, hr⟩)))
      · exact Or.inr (Or.inr (Or.inr (Or.inr (Or.inl ⟨s', hreg, hn, ha, hr, hk⟩))))
      · exact Or.inr (Or.inr (Or.inr (Or.inr (Or.inr ⟨s', e, hreg, hn, ha, hr, hws, hk⟩))))
    · rw [register_no_node hn]
      exact Or.inl (Keeps.refl s)
  by_cases hbeat : f.case = .nodeHeartbeat
  · have hd : s.dispatch cfg ws now f = .returned (s.heartbeat cfg ws now f) := by
      unfold Relay.dispatch
      rw [hbeat]
    rw [hd]
    obtain ⟨hk, hsame | ⟨e, e', he, hws, hset⟩⟩ := heartbeat_registry cfg s ws now f
    · rw [hsame] at hk
      exact Or.inl hk
    · rw [hset] at hk
      exact Or.inr (Or.inr (Or.inl ⟨_, e, e', he, hws, hk⟩))
  by_cases hpair : f.case = .nodePairRequest
  · have hd : s.dispatch cfg ws now f = s.pairRequest cfg ws now f := by
      unfold Relay.dispatch
      rw [hpair]
    rw [hd]
    rcases pairRequest_cases cfg s ws now f with hk | ⟨identity, hi, hk⟩
    · exact Or.inl hk
    · exact Or.inr (Or.inl ⟨identity, hpair, hi, hk⟩)
  · exact Or.inl (dispatch_keeps cfg s ws now f hpair hreg hbeat)

/-- No frame opens or closes a socket, or takes the process down by itself. -/
theorem dispatch_conns (cfg : Config) (s : Relay) (ws now : Nat) (f : Frame) :
    (s.dispatch cfg ws now f).relay.conns = s.conns ∧ (s.dispatch cfg ws now f).relay.down = s.down := by
  rcases dispatch_cases cfg s ws now f with hk | ⟨identity, -, -, hk⟩ | ⟨k, e, e', -, -, hk⟩ | ⟨-, -, -, hd⟩ |
    ⟨s'', -, -, -, hd, hk⟩ | ⟨s'', e, -, -, -, hd, -, hk⟩
  · exact ⟨hk.conns, hk.down⟩
  · exact ⟨hk.conns, hk.down⟩
  · exact ⟨hk.conns, hk.down⟩
  · rw [hd]
    exact ⟨rfl, rfl⟩
  · rw [hd]
    exact ⟨hk.conns, hk.down⟩
  · rw [hd]
    exact ⟨hk.conns, hk.down⟩

/-! ## Closing -/

theorem closeRef_keeps (now : Nat) (s : Relay) (ref : Key × Nat × Val) : Keeps s (s.closeRef cfg now ref) := by
  unfold Relay.closeRef
  dsimp only
  split
  · exact ⟨rfl, rfl, rfl, rfl, rfl, rfl, rfl⟩
  · exact (sendMsg_keeps s _ _).trans ⟨rfl, rfl, rfl, rfl, rfl, rfl, rfl⟩

theorem closeRefs_keeps (now : Nat) (refs : List (Key × Nat × Val)) (s : Relay) :
    Keeps s (refs.foldl (Relay.closeRef cfg now) s) := by
  induction refs generalizing s with
  | nil => exact Keeps.refl s
  | cons r refs ih => exact (closeRef_keeps now s r).trans (ih _)

/-- A closing socket is gone, and with it the entry of the id it remembers, if that is its own. -/
theorem close_keeps (cfg : Config) (s : Relay) (ws now : Nat) :
    Keeps { s with
      conns := s.conns.filter (fun w => w ≠ ws)
      registry := if (s.nodeIds ws).truthy && (get s.registry (s.nodeIds ws).key).any (fun e : Entry => e.ws = ws)
        then delete s.registry (s.nodeIds ws).key else s.registry } (s.close cfg ws now) := by
  unfold Relay.close
  dsimp only
  refine Keeps.trans (Keeps.trans ?_ (closeRefs_keeps now _ _)) ⟨rfl, rfl, rfl, rfl, rfl, rfl, rfl⟩
  exact ⟨rfl, rfl, rfl, rfl, rfl, rfl, rfl⟩

/-- Every entry that is not the closing socket's own stays. -/
theorem close_spares (hu : Unique s.registry) {p : Key × Entry} (hp : p ∈ s.registry) (hws : p.2.ws ≠ ws) :
    p ∈ (s.close cfg ws now).registry := by
  rw [(close_keeps cfg s ws now).registry]
  dsimp only
  split
  · rename_i h
    obtain ⟨-, h⟩ := Bool.and_eq_true_iff.mp h
    refine mem_delete.mpr ⟨hp, fun hk => hws ?_⟩
    rw [← hk, get_of_mem hu hp] at h
    exact of_decide_eq_true h
  · exact hp

/-! ## Runs -/

/-- One entry for an id, with the socket of the id's last accepted registration. -/
structure Current (s : Relay) : Prop where
  unique : Unique s.registry
  last : ∀ p ∈ s.registry, get s.registered p.1 = some p.2.ws

/-- The socket of an entry is open and remembers the entry's id. -/
structure Tied (s : Relay) : Prop where
  live : ∀ p ∈ s.registry, p.2.ws ∈ s.conns
  remembers : s.down = false → ∀ p ∈ s.registry, (s.nodeIds p.2.ws).truthy = true ∧ (s.nodeIds p.2.ws).key = p.1

/-- A registration that keeps the socket's memory true: one taken is for a truthy id, and the socket has
    no entry for another; one refused is from a socket with no entry. -/
def Relay.Steady (cfg : Config) (s : Relay) (ws : Nat) (f : Frame) : Prop :=
  match s.admits cfg f with
  | none => True
  | some false => ∀ p ∈ s.registry, p.2.ws ≠ ws
  | some true => (f.inner "node" "node_id").truthy = true ∧
      ∀ p ∈ s.registry, p.2.ws = ws → p.1 = (f.inner "node" "node_id").key

/-- The condition on one event: a registration the relay reads is steady. -/
def Relay.SteadyStep (cfg : Config) (s : Relay) : Event → Prop
  | .message ws _ (some j) => s.down = false → ws ∈ s.conns → Frame.case ⟨s.frames, j⟩ = .nodeRegister →
      Frame.Has ⟨s.frames, j⟩ "node" → s.Steady cfg ws ⟨s.frames, j⟩
  | _ => True

namespace Current

variable {s' : Relay}

theorem keeps (h : Current s) (hk : Keeps s s') : Current s' :=
  ⟨hk.registry ▸ h.unique, by rw [hk.registry, hk.registered]; exact h.last⟩

theorem paired (h : Current s) (ps : List (Key × Json)) : Current { s with pairedIdentities := ps } :=
  ⟨h.unique, h.last⟩

theorem heartbeat (h : Current s) {k : Key} {e e' : Entry} (he : get s.registry k = some e) (hws : e'.ws = e.ws) :
    Current { s with registry := set s.registry k e' } := by
  refine ⟨h.unique.set k e', fun p hp => ?_⟩
  rcases mem_set hp with rfl | hp
  · show get s.registered k = some e'.ws
    rw [hws]
    exact h.last _ (get_mem he)
  · exact h.last p hp

theorem register (h : Current s) {k : Key} {e : Entry} (hws : e.ws = ws) (ids : Nat → Val) :
    Current { s with
      nodeIds := ids
      registry := set s.registry k e
      registered := set s.registered k ws } := by
  refine ⟨h.unique.set k e, fun p hp => ?_⟩
  show get (set s.registered k ws) p.1 = some p.2.ws
  rw [get_set]
  rcases mem_set_of_unique h.unique hp with rfl | ⟨hp, hne⟩
  · rw [if_pos rfl, hws]
  · rw [if_neg (Ne.symm hne)]
    exact h.last p hp

theorem dispatch (h : Current s) (cfg : Config) (ws now : Nat) (f : Frame) :
    Current (s.dispatch cfg ws now f).relay := by
  rcases dispatch_cases cfg s ws now f with hk | ⟨identity, -, -, hk⟩ | ⟨k, e, e', he, hws, hk⟩ | ⟨-, -, -, hd⟩ |
    ⟨s', -, -, -, hd, hk⟩ | ⟨s', e, -, -, -, hd, hws, hk⟩
  · exact h.keeps hk
  · exact (h.paired _).keeps hk
  · exact (h.heartbeat he hws).keeps hk
  · rw [hd]
    exact ⟨h.unique, h.last⟩
  · rw [hd]
    exact keeps (s := { s with nodeIds := Function.update s.nodeIds ws Val.null }) ⟨h.unique, h.last⟩ hk
  · rw [hd]
    exact (h.register hws _).keeps hk

theorem close (h : Current s) (cfg : Config) (ws now : Nat) : Current (s.close cfg ws now) := by
  refine keeps ?_ (close_keeps cfg s ws now)
  by_cases hdel : ((s.nodeIds ws).truthy &&
      (get s.registry (s.nodeIds ws).key).any (fun e : Entry => e.ws = ws)) = true
  · rw [if_pos hdel]
    exact ⟨h.unique.filter _, fun p hp => h.last p (mem_delete.mp hp).1⟩
  · rw [if_neg hdel]
    exact ⟨h.unique, h.last⟩

theorem received (h : Current s) (cfg : Config) (ws now : Nat) (j : Json) :
    Current (s.received cfg ws now j).relay :=
  dispatch (s := { s with frames := s.frames + 1 }) ⟨h.unique, h.last⟩ cfg ws now _

/-- **Every event keeps it.** -/
theorem step (h : Current s) (cfg : Config) (ev : Event) : Current (s.step cfg ev) := by
  rcases step_cases cfg s ev with he | ⟨-, -, he⟩ | ⟨ws, now, j, s', -, -, -, ho, he⟩ |
    ⟨ws, now, j, s', -, -, -, ho, he⟩ | ⟨ws, now, -, -, -, he⟩ | ⟨ws, now, -, -, -, he⟩
  · rw [he]
    exact h
  · rw [he]
    exact ⟨h.unique, h.last⟩
  · have hr := h.received cfg ws now j
    rw [ho] at hr
    rw [he]
    exact hr
  · have hr := h.received cfg ws now j
    rw [ho] at hr
    rw [he]
    exact ⟨hr.unique, hr.last⟩
  · rw [he]
    exact ⟨h.unique, h.last⟩
  · rw [he]
    exact h.close cfg ws now

end Current

namespace Tied

variable {s' : Relay}

theorem keeps (h : Tied s) (hk : Keeps s s') : Tied s' := by
  constructor
  · rw [hk.registry, hk.conns]
    exact h.live
  · rw [hk.down, hk.registry, hk.nodeIds]
    exact h.remembers

theorem paired (h : Tied s) (ps : List (Key × Json)) : Tied { s with pairedIdentities := ps } :=
  ⟨h.live, h.remembers⟩

theorem heartbeat (h : Tied s) {k : Key} {e e' : Entry} (he : get s.registry k = some e) (hws : e'.ws = e.ws) :
    Tied { s with registry := set s.registry k e' } := by
  constructor
  · intro p hp
    rcases mem_set hp with rfl | hp
    · show e'.ws ∈ s.conns
      rw [hws]
      exact h.live _ (get_mem he)
    · exact h.live p hp
  · intro hd p hp
    rcases mem_set hp with rfl | hp
    · show (s.nodeIds e'.ws).truthy = true ∧ (s.nodeIds e'.ws).key = k
      rw [hws]
      exact h.remembers hd _ (get_mem he)
    · exact h.remembers hd p hp

/-- A socket with no entry may forget its id. -/
theorem refused (h : Tied s) (hnone : ∀ p ∈ s.registry, p.2.ws ≠ ws) :
    Tied { s with nodeIds := Function.update s.nodeIds ws Val.null } := by
  refine ⟨h.live, fun hd p hp => ?_⟩
  show (Function.update s.nodeIds ws Val.null p.2.ws).truthy = true ∧
    (Function.update s.nodeIds ws Val.null p.2.ws).key = p.1
  rw [Function.update_of_ne (hnone p hp)]
  exact h.remembers hd p hp

theorem taken (h : Tied s) (hc : Current s) {id : Val} {e : Entry} (hws : ws ∈ s.conns) (he : e.ws = ws)
    (ht : id.truthy = true) (hother : ∀ p ∈ s.registry, p.2.ws = ws → p.1 = id.key) :
    Tied { s with
      nodeIds := Function.update s.nodeIds ws id
      registry := set s.registry id.key e
      registered := set s.registered id.key ws } := by
  constructor
  · intro p hp
    rcases mem_set hp with rfl | hp
    · exact he ▸ hws
    · exact h.live p hp
  · intro hd p hp
    show (Function.update s.nodeIds ws id p.2.ws).truthy = true ∧
      (Function.update s.nodeIds ws id p.2.ws).key = p.1
    rcases mem_set_of_unique hc.unique hp with rfl | ⟨hp, hne⟩
    · rw [he, Function.update_self]
      exact ⟨ht, rfl⟩
    · have hnot : p.2.ws ≠ ws := fun hw => hne (hother p hp hw)
      rw [Function.update_of_ne hnot]
      exact h.remembers hd p hp

/-- A frame that returns keeps it, if it is not an unsteady registration. -/
theorem dispatch (h : Tied s) (hc : Current s) (hws : ws ∈ s.conns)
    (hsteady : f.case = .nodeRegister → f.Has "node" → s.Steady cfg ws f)
    (ho : s.dispatch cfg ws now f = .returned s') : Tied s' := by
  rcases dispatch_cases cfg s ws now f with hk | ⟨identity, -, -, hk⟩ | ⟨k, e, e', he, hws', hk⟩ | ⟨-, -, -, hd⟩ |
    ⟨s'', hcase, hn, ha, hd, hk⟩ | ⟨s'', e, hcase, hn, ha, hd, hws', hk⟩
  · rw [ho] at hk
    exact h.keeps hk
  · rw [ho] at hk
    exact (h.paired _).keeps hk
  · rw [ho] at hk
    exact (h.heartbeat he hws').keeps hk
  · exact nomatch hd.symm.trans ho
  · cases hd.symm.trans ho
    have hst := hsteady hcase hn
    unfold Relay.Steady at hst
    rw [ha] at hst
    exact (h.refused hst).keeps hk
  · cases hd.symm.trans ho
    have hst := hsteady hcase hn
    unfold Relay.Steady at hst
    rw [ha] at hst
    exact (h.taken hc hws hws' hst.1 hst.2).keeps hk

/-- A frame that throws changes no entry's socket and closes none. -/
theorem dispatch_threw (h : Tied s) (ho : s.dispatch cfg ws now f = .threw s') :
    ∀ p ∈ s'.registry, p.2.ws ∈ s'.conns := by
  rcases dispatch_cases cfg s ws now f with hk | ⟨identity, -, -, hk⟩ | ⟨k, e, e', he, hws', hk⟩ | ⟨-, -, -, hd⟩ |
    ⟨s'', -, -, -, hd, -⟩ | ⟨s'', e, -, -, -, hd, -, -⟩
  · rw [ho] at hk
    exact (h.keeps hk).live
  · rw [ho] at hk
    exact ((h.paired _).keeps hk).live
  · rw [ho] at hk
    exact ((h.heartbeat he hws').keeps hk).live
  · cases hd.symm.trans ho
    exact h.live
  · exact nomatch hd.symm.trans ho
  · exact nomatch hd.symm.trans ho

/-- A closing socket takes every entry of its own with it. -/
theorem close (h : Tied s) (hc : Current s) (hd : s.down = false) (cfg : Config) (ws now : Nat) :
    Tied (s.close cfg ws now) := by
  refine keeps ?_ (close_keeps cfg s ws now)
  have hgone : ∀ p ∈ (if (s.nodeIds ws).truthy &&
      (get s.registry (s.nodeIds ws).key).any (fun e : Entry => e.ws = ws)
      then delete s.registry (s.nodeIds ws).key else s.registry), p ∈ s.registry ∧ p.2.ws ≠ ws := by
    intro p hp
    split at hp
    · rename_i hdel
      refine ⟨(mem_delete.mp hp).1, fun hw => (mem_delete.mp hp).2 ?_⟩
      rw [← hw]
      exact (h.remembers hd p (mem_delete.mp hp).1).2.symm
    · rename_i hdel
      refine ⟨hp, fun hw => hdel ?_⟩
      obtain ⟨ht, hk⟩ := h.remembers hd p hp
      rw [hw] at ht hk
      rw [ht, hk, get_of_mem hc.unique hp, Bool.true_and]
      exact decide_eq_true hw
  refine ⟨fun p hp => ?_, fun hd p hp => h.remembers hd p (hgone p hp).1⟩
  exact List.mem_filter.mpr ⟨h.live p (hgone p hp).1, decide_eq_true (hgone p hp).2⟩

/-- **Every event that meets the condition keeps it.** -/
theorem step (h : Tied s) (hc : Current s) {ev : Event} (hsteady : s.SteadyStep cfg ev) :
    Tied (s.step cfg ev) := by
  have hframes : Tied { s with frames := s.frames + 1 } := ⟨h.live, h.remembers⟩
  have hcframes : Current { s with frames := s.frames + 1 } := ⟨hc.unique, hc.last⟩
  rcases step_cases cfg s ev with he | ⟨-, -, he⟩ | ⟨ws, now, j, s', hd, hws, rfl, ho, he⟩ |
    ⟨ws, now, j, s', -, -, -, ho, he⟩ | ⟨ws, now, -, -, -, he⟩ | ⟨ws, now, hd, -, -, he⟩
  · rw [he]
    exact h
  · rw [he]
    exact ⟨fun p hp => List.mem_append_left _ (h.live p hp), h.remembers⟩
  · rw [he]
    exact hframes.dispatch hcframes hws (hsteady hd hws) ho
  · have hlive := hframes.dispatch_threw ho
    rw [he]
    exact ⟨hlive, fun hd => nomatch hd⟩
  · rw [he]
    exact ⟨h.live, fun hd => nomatch hd⟩
  · rw [he]
    exact h.close hc hd cfg ws now

end Tied

/-! ## Where the memory is lost -/

/-- An entry stays when the closing socket does not remember its id. -/
theorem close_leaves {p : Key × Entry} (hp : p ∈ s.registry)
    (hforgot : (s.nodeIds ws).truthy = true → p.1 ≠ (s.nodeIds ws).key) :
    p ∈ (s.close cfg ws now).registry := by
  rw [(close_keeps cfg s ws now).registry]
  dsimp only
  split
  · rename_i h
    exact mem_delete.mpr ⟨hp, hforgot (Bool.and_eq_true_iff.mp h).1⟩
  · exact hp

theorem close_not_mem : ws ∉ (s.close cfg ws now).conns := by
  rw [(close_keeps cfg s ws now).conns]
  intro h
  exact absurd rfl (of_decide_eq_true (List.mem_filter.mp h).2)

/-- **An unsteady registration strands an entry**: it is answered, and once its socket closes the registry
    holds an entry of a closed socket. -/
theorem unsteady_strands (hc : Current s) (hcase : f.case = .nodeRegister) (hn : f.Has "node")
    (hns : ¬ s.Steady cfg ws f) :
    ∃ s', s.dispatch cfg ws now f = .returned s' ∧
      ∀ later, ∃ p ∈ (s'.close cfg ws later).registry, p.2.ws ∉ (s'.close cfg ws later).conns := by
  have hd : s.dispatch cfg ws now f = s.register cfg ws now f := by
    unfold Relay.dispatch
    rw [hcase]
  unfold Relay.Steady at hns
  rcases register_cases hn with ⟨ha, -⟩ | ⟨s', ha, hr, hk⟩ | ⟨s', e, ha, hr, hws, hk⟩
  · rw [ha] at hns
    exact absurd trivial hns
  · rw [ha] at hns
    refine ⟨s', hd.trans hr, fun later => ?_⟩
    obtain ⟨p, hp, hpw⟩ : ∃ p ∈ s.registry, p.2.ws = ws := by
      by_contra hno
      exact hns fun p hp hw => hno ⟨p, hp, hw⟩
    have hforgot : (s'.nodeIds ws).truthy = false := by
      rw [hk.nodeIds]
      show (Function.update s.nodeIds ws Val.null ws).truthy = false
      rw [Function.update_self]
      rfl
    refine ⟨p, close_leaves (hk.registry ▸ hp) (fun ht => ?_), hpw ▸ close_not_mem⟩
    exact absurd (hforgot.symm.trans ht) Bool.false_ne_true
  · rw [ha] at hns
    refine ⟨s', hd.trans hr, fun later => ?_⟩
    have hid : s'.nodeIds ws = f.inner "node" "node_id" := by
      rw [hk.nodeIds]
      exact Function.update_self ..
    by_cases ht : (f.inner "node" "node_id").truthy = true
    · obtain ⟨p, hp, hpw, hne⟩ : ∃ p ∈ s.registry, p.2.ws = ws ∧ p.1 ≠ (f.inner "node" "node_id").key := by
        by_contra hno
        refine hns ⟨ht, fun p hp hw => ?_⟩
        by_contra hne
        exact hno ⟨p, hp, hw, hne⟩
      have hget : get s'.registry p.1 = some p.2 := by
        rw [hk.registry]
        show get (set s.registry _ e) p.1 = some p.2
        rw [get_set, if_neg (Ne.symm hne)]
        exact get_of_mem hc.unique hp
      exact ⟨p, close_leaves (get_mem hget) (fun _ => hid ▸ hne), hpw ▸ close_not_mem⟩
    · have hget : get s'.registry (f.inner "node" "node_id").key = some e := by
        rw [hk.registry]
        show get (set s.registry _ e) _ = some e
        rw [get_set, if_pos rfl]
      refine ⟨(_, e), close_leaves (get_mem hget) (fun ht' => ?_), ?_⟩
      · rw [hid] at ht'
        exact absurd ht' ht
      · show e.ws ∉ _
        rw [hws]
        exact close_not_mem

/-! ## The registry in every run -/

theorem current_run (cfg : Config) (events : List Event) :
    Current (run (Relay.step cfg) Relay.initial events) := by
  have hall : Always (Relay.step cfg) (fun _ _ => True) Relay.initial events :=
    always_of_forall (fun _ _ => trivial) _ _
  exact hall.inv_run Current (fun s ev h _ => h.step cfg ev) ⟨List.nodup_nil, fun p hp => nomatch hp⟩

/-- **The registry.**  In every run an entry's socket is the one of the id's last accepted registration, and
    a closing socket removes no entry of another.  In a run of steady registrations every entry's socket is
    open; and a registration that is not steady, in a state such a run reaches, is answered and leaves an
    entry of a closed socket once its own socket closes. -/
theorem registry_live (cfg : Config) (events : List Event) :
    let s := run (Relay.step cfg) Relay.initial events
    (∀ p ∈ s.registry, get s.registered p.1 = some p.2.ws) ∧
    (∀ ws now, ∀ p ∈ s.registry, p.2.ws ≠ ws → p ∈ (s.step cfg (.close ws now)).registry) ∧
    (Always (Relay.step cfg) (Relay.SteadyStep cfg) Relay.initial events →
      (∀ p ∈ s.registry, p.2.ws ∈ s.conns) ∧
      ∀ ws now later j, ¬ s.SteadyStep cfg (.message ws now (some j)) →
        let s' := (s.step cfg (.message ws now (some j))).step cfg (.close ws later)
        ∃ p ∈ s'.registry, p.2.ws ∉ s'.conns) := by
  intro s
  have hc : Current s := current_run cfg events
  refine ⟨hc.last, fun ws now p hp hw => ?_, fun hall => ⟨?_, ?_⟩⟩
  · rcases step_cases cfg s (.close ws now) with he | ⟨-, he, -⟩ | ⟨_, _, _, _, -, -, he, -⟩ |
      ⟨_, _, _, _, -, -, he, -⟩ | ⟨_, _, -, -, he, -⟩ | ⟨w, n, -, -, hev, he⟩
    · rw [he]
      exact hp
    · exact nomatch he
    · exact nomatch he
    · exact nomatch he
    · exact nomatch he
    · cases hev
      rw [he]
      exact close_spares hc.unique hp hw
  · have htied : Current s ∧ Tied s := hall.inv_run (fun s => Current s ∧ Tied s)
      (fun s ev h hst => ⟨h.1.step cfg ev, h.2.step h.1 hst⟩)
      ⟨⟨List.nodup_nil, (fun p hp => nomatch hp)⟩, ⟨(fun p hp => nomatch hp), (fun _ p hp => nomatch hp)⟩⟩
    exact htied.2.live
  · intro ws now later j hns
    have hns : s.down = false ∧ ws ∈ s.conns ∧ Frame.case ⟨s.frames, j⟩ = .nodeRegister ∧
        Frame.Has ⟨s.frames, j⟩ "node" ∧ ¬ s.Steady cfg ws ⟨s.frames, j⟩ := by
      unfold Relay.SteadyStep at hns
      simpa only [Classical.not_imp] using hns
    obtain ⟨hdown, hws, hcase, hn, hns⟩ := hns
    have hcf : Current { s with frames := s.frames + 1 } := ⟨hc.unique, hc.last⟩
    obtain ⟨s', hd, hst⟩ := unsteady_strands hcf hcase hn hns
    have hj : j ≠ .null := by
      rintro rfl
      exact nomatch hcase
    obtain ⟨hconns, hd'⟩ := dispatch_conns cfg { s with frames := s.frames + 1 } ws now ⟨s.frames, j⟩
    rw [hd] at hconns hd'
    dsimp only [Outcome.relay] at hconns hd'
    rw [step_message hdown hws hj hd, step_close (hd'.trans hdown) (hconns ▸ hws)]
    exact hst later

/-- A relay that asks for no pairing. -/
def openRelay : Config :=
  { requirePairing := false, staleMs := 15000, isoTime := fun _ => "", keyOk := fun _ => false,
    verify := fun _ _ _ => false }

def registerFrame (id : String) : Option Json :=
  some (.obj [("kind", .str "plaintext"), ("from", .str id), ("type", .str "node_register"),
    ("node", .obj [("node_id", .str id)])])

/-- A node that comes back on a second socket before the first one closes. -/
theorem registry_live_reconnect :
    let s := run (Relay.step openRelay) Relay.initial
      [.connect, .message 0 0 (registerFrame "a"), .connect, .message 1 1 (registerFrame "a"), .close 0 2]
    s.registry.length = 1 ∧ ∀ p ∈ s.registry, p.2.ws ∈ s.conns := by
  refine ⟨by decide +kernel, ((registry_live openRelay _).2.2 ?_).1⟩
  refine ⟨trivial, ?_, trivial, ?_, trivial, trivial⟩
  · exact fun _ _ _ _ => ⟨by decide +kernel, by decide +kernel⟩
  · exact fun _ _ _ _ => ⟨by decide +kernel, by decide +kernel⟩

/-- A socket that registers two ids and closes leaves the first one in the registry. -/
theorem registry_dead_entry :
    let s := run (Relay.step openRelay) Relay.initial
      [.connect, .message 0 0 (registerFrame "a"), .message 0 1 (registerFrame "b"), .close 0 2]
    ∃ p ∈ s.registry, p.2.ws ∉ s.conns := by
  decide +kernel

end VibeRelayServer
