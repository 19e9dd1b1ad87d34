import VibeWorkflow.RegistryProofs

/-!
# Pairing and registration

With `requirePairing` a registration is taken only when its envelope verifies under the signing key the
id is paired with.  A pairing request is itself checked by nothing and overwrites the key, so the first
key is pinned exactly as long as nobody pairs the id with another one.

* `KeepsKey` — the condition on one event;
* `Pinned` — the id's identity still has the first signing key;
* **`pairing_pins`** — what a socket must have sent to become registered as the id.
-/

namespace VibeRelayServer

open VibeJson VibeRunResult KeyedMap CallRuns

variable {cfg : Config} {s : Relay} {ws now : Nat} {f : Frame} {k : Key} {signingKey : Option Json}

/-- A socket that is registered under an id and was not before. -/
def BecomesRegistered (s s' : Relay) (k : Key) (ws : Nat) : Prop :=
  (get s'.registry k).map Entry.ws = some ws ∧ (get s.registry k).map Entry.ws ≠ some ws

theorem BecomesRegistered.entries {s' : Relay} (h : BecomesRegistered s s' k ws) :
    (∃ e, get s'.registry k = some e ∧ e.ws = ws) ∧ ∀ e, get s.registry k = some e → e.ws ≠ ws :=
  ⟨Option.map_eq_some_iff.mp h.1, fun e he hw => h.2 (Option.map_eq_some_iff.mpr ⟨e, he, hw⟩)⟩

/-- The envelope's signature is one the holder of a key made of the envelope without it. -/
def SignedEnvelope (Signed : Option Json → String → Prop) (signingKey : Option Json) (envelope : Json) : Prop :=
  (envelope.get? "signature").bind (fun s => s.get? "alg") = some (.str "Ed25519") ∧
  Signed signingKey (canonicalize (.obj (envelope.fields.filter (fun p => p.1 ≠ "signature"))))

/-- No identity with another signing key is paired with the id.  A falsy identity admits nobody. -/
def KeepsKey (k : Key) (signingKey : Option Json) (s : Relay) : Event → Prop
  | .message _ _ (some j) => Frame.case ⟨s.frames, j⟩ = .nodePairRequest →
      (Frame.inner ⟨s.frames, j⟩ "identity" "id").key = k →
      ∀ identity, j.get? "identity" = some identity → truthy identity = true →
        identity.get? "signing_public_key" = signingKey
  | _ => True

/-- What the id is paired with has the signing key, or admits nobody. -/
def Pinned (k : Key) (signingKey : Option Json) (s : Relay) : Prop :=
  ∃ identity, get s.pairedIdentities k = some identity ∧
    (truthy identity = true → identity.get? "signing_public_key" = signingKey)

/-! ## The pin is kept -/

theorem Pinned.keeps {s' : Relay} (h : Pinned k signingKey s) (hk : s'.pairedIdentities = s.pairedIdentities) :
    Pinned k signingKey s' := by
  unfold Pinned
  rw [hk]
  exact h

theorem Pinned.dispatch (h : Pinned k signingKey s)
    (hkey : f.case = .nodePairRequest → (f.inner "identity" "id").key = k →
      ∀ identity, f.json.get? "identity" = some identity → truthy identity = true →
        identity.get? "signing_public_key" = signingKey) :
    Pinned k signingKey (s.dispatch cfg ws now f).relay := by
  rcases dispatch_cases cfg s ws now f with hk | ⟨identity, hcase, hi, hk⟩ | ⟨_, _, _, -, -, hk⟩ | ⟨-, -, -, hd⟩ |
    ⟨s', -, -, -, hd, hk⟩ | ⟨s', _, -, -, -, hd, -, hk⟩
  · exact h.keeps hk.paired
  · obtain ⟨first, hfirst, hpin⟩ := h
    unfold Pinned
    rw [hk.paired]
    show ∃ identity', get (set s.pairedIdentities _ identity) k = some identity' ∧ _
    rw [get_set]
    by_cases hid : (f.inner "identity" "id").key = k
    · rw [if_pos hid]
      exact ⟨identity, rfl, hkey hcase hid identity hi⟩
    · rw [if_neg hid]
      exact ⟨first, hfirst, hpin⟩
  · exact h.keeps hk.paired
  · rw [hd]
    exact h
  · rw [hd]
    exact h.keeps hk.paired
  · rw [hd]
    exact h.keeps hk.paired

theorem Pinned.step (h : Pinned k signingKey s) {ev : Event} (hkey : KeepsKey k signingKey s ev) :
    Pinned k signingKey (s.step cfg ev) := by
  rcases step_cases cfg s ev with he | ⟨-, -, he⟩ | ⟨ws, now, j, s', -, -, rfl, ho, he⟩ |
    ⟨ws, now, j, s', -, -, rfl, ho, he⟩ | ⟨ws, now, -, -, -, he⟩ | ⟨ws, now, -, -, -, he⟩
  · rw [he]
    exact h
  · rw [he]
    exact h
  · have hp : Pinned k signingKey (s.received cfg ws now j).relay :=
      Pinned.dispatch (s := { s with frames := s.frames + 1 }) h hkey
    rw [ho] at hp
    rw [he]
    exact hp
  · have hp : Pinned k signingKey (s.received cfg ws now j).relay :=
      Pinned.dispatch (s := { s with frames := s.frames + 1 }) h hkey
    rw [ho] at hp
    rw [he]
    exact hp
  · rw [he]
    exact h
  · rw [he]
    exact h.keeps (close_keeps cfg s ws now).paired

/-! ## What a registration takes -/

/-- An admitted frame verifies under the pinned key. -/
theorem admits_verified (hreq : cfg.requirePairing = true) (h : Pinned k signingKey s)
    (hid : (f.inner "node" "node_id").key = k) (ha : s.admits cfg f = some true) :
    verifyEnvelope cfg signingKey f.json = some true := by
  obtain ⟨identity, hget, hpin⟩ := h
  unfold Relay.admits at ha
  rw [hreq, Bool.not_true, if_neg Bool.false_ne_true, hid, hget] at ha
  cases ht : truthy identity with
  | false =>
    rw [Option.filter_some_neg (by simp [ht])] at ha
    exact nomatch ha
  | true =>
    rw [Option.filter_some_pos ht] at ha
    dsimp only at ha
    rw [hpin ht] at ha
    split at ha
    · exact nomatch ha
    · exact ha

theorem verified_signed {Signed : Option Json → String → Prop}
    (hsig : ∀ key text signature, cfg.verify key text signature = true → Signed key text) {envelope : Json}
    (h : verifyEnvelope cfg signingKey envelope = some true) : SignedEnvelope Signed signingKey envelope := by
  unfold verifyEnvelope at h
  dsimp only at h
  split at h
  · exact nomatch h
  · split at h
    · exact nomatch h
    · rename_i halg
      split at h
      · exact nomatch h
      · exact ⟨not_not.mp halg, hsig _ _ _ (Option.some.inj h)⟩

/-- A frame that brings an entry under an id is an admitted registration of the id by the entry's socket. -/
theorem dispatch_becomes {w : Nat}
    (h : BecomesRegistered s (s.dispatch cfg ws now f).relay k w) :
    ws = w ∧ f.case = .nodeRegister ∧ (f.inner "node" "node_id").key = k ∧ s.admits cfg f = some true := by
  obtain ⟨⟨e, he, hew⟩, hold⟩ := h.entries
  rcases dispatch_cases cfg s ws now f with hk | ⟨identity, -, -, hk⟩ | ⟨q, e₀, e', he₀, hws, hk⟩ | ⟨-, -, -, hd⟩ |
    ⟨s', -, -, -, hd, hk⟩ | ⟨s', e', hcase, -, ha, hd, hws, hk⟩
  · rw [hk.registry] at he
    exact absurd hew (hold e he)
  · rw [hk.registry] at he
    exact absurd hew (hold e he)
  · rw [hk.registry] at he
    dsimp only at he
    rw [get_set] at he
    split at he
    · rename_i hq
      cases he
      exact absurd (hws.symm.trans hew) (hold e₀ (hq ▸ he₀))
    · exact absurd hew (hold e he)
  · rw [hd] at he
    exact absurd hew (hold e he)
  · rw [hd] at he
    dsimp only [Outcome.relay] at he
    rw [hk.registry] at he
    exact absurd hew (hold e he)
  · rw [hd] at he
    dsimp only [Outcome.relay] at he
    rw [hk.registry] at he
    dsimp only at he
    rw [get_set] at he
    split at he
    · rename_i hq
      cases he
      exact ⟨hws.symm.trans hew, hcase, hq, ha⟩
    · exact absurd hew (hold e he)

/-- A closing socket brings no entry. -/
theorem close_becomes {w : Nat} : ¬ BecomesRegistered s (s.close cfg ws now) k w := by
  intro h
  obtain ⟨⟨e, he, hew⟩, hold⟩ := h.entries
  rw [(close_keeps cfg s ws now).registry] at he
  dsimp only at he
  split at he
  · rw [get_delete] at he
    split at he
    · cases he
    · exact hold e he hew
  · exact hold e he hew

theorem not_becomes {w : Nat} {s' : Relay} (h : s'.registry = s.registry) : ¬ BecomesRegistered s s' k w :=
  fun hb => hb.2 (h ▸ hb.1)

/-- One event: whoever becomes registered has sent an envelope that verifies. -/
theorem step_becomes (hreq : cfg.requirePairing = true) (h : Pinned k signingKey s) {ev : Event} {w : Nat}
    (hb : BecomesRegistered s (s.step cfg ev) k w) :
    ∃ now j, ev = .message w now (some j) ∧ Frame.case ⟨s.frames, j⟩ = .nodeRegister ∧
      (Frame.inner ⟨s.frames, j⟩ "node" "node_id").key = k ∧
      verifyEnvelope cfg signingKey j = some true := by
  have hframe : ∀ ws now j, BecomesRegistered s (s.received cfg ws now j).relay k w →
      ws = w ∧ Frame.case ⟨s.frames, j⟩ = .nodeRegister ∧
        (Frame.inner ⟨s.frames, j⟩ "node" "node_id").key = k ∧ verifyEnvelope cfg signingKey j = some true := by
    intro ws now j hbj
    obtain ⟨hws, hcase, hid, ha⟩ := dispatch_becomes (s := { s with frames := s.frames + 1 }) hbj
    exact ⟨hws, hcase, hid, admits_verified (s := { s with frames := s.frames + 1 }) hreq h hid ha⟩
  rcases step_cases cfg s ev with he | ⟨-, -, he⟩ | ⟨ws, now, j, s', -, -, rfl, ho, he⟩ |
    ⟨ws, now, j, s', -, -, rfl, ho, he⟩ | ⟨ws, now, -, -, -, he⟩ | ⟨ws, now, -, -, -, he⟩
  · exact absurd (he ▸ hb) (not_becomes rfl)
  · exact absurd (he ▸ hb) (not_becomes rfl)
  · rw [he] at hb
    obtain ⟨rfl, hrest⟩ := hframe ws now j (ho ▸ hb)
    exact ⟨now, j, rfl, hrest⟩
  · rw [he] at hb
    obtain ⟨rfl, hrest⟩ := hframe ws now j (ho ▸ hb)
    exact ⟨now, j, rfl, hrest⟩
  · exact absurd (he ▸ hb) (not_becomes rfl)
  · exact absurd (he ▸ hb) close_becomes

/-- **Pairing pins the identity** while no other key is paired with the id: whoever becomes registered as it
    has sent a `node_register` envelope for the id, signed with the first key. -/
theorem pairing_pins (cfg : Config) (hreq : cfg.requirePairing = true) (Signed : Option Json → String → Prop)
    (hsig : ∀ key text signature, cfg.verify key text signature = true → Signed key text)
    (s : Relay) (k : Key) (identity : Json) (hpaired : get s.pairedIdentities k = some identity)
    (events : List Event)
    (hall : Always (Relay.step cfg) (KeepsKey k (identity.get? "signing_public_key")) s events) :
    Always (Relay.step cfg) (fun s ev => ∀ w, BecomesRegistered s (s.step cfg ev) k w →
      ∃ now j, ev = .message w now (some j) ∧ Frame.case ⟨s.frames, j⟩ = .nodeRegister ∧
        (Frame.inner ⟨s.frames, j⟩ "node" "node_id").key = k ∧
        SignedEnvelope Signed (identity.get? "signing_public_key") j) s events := by
  refine hall.imp (Pinned k (identity.get? "signing_public_key")) (fun s ev h hkey => h.step hkey) ?_
    ⟨identity, hpaired, fun _ => rfl⟩
  intro s ev h _ w hb
  obtain ⟨now, j, rfl, hcase, hid, hv⟩ := step_becomes hreq h hb
  exact ⟨now, j, rfl, hcase, hid, verified_signed hsig hv⟩

/-! ## A relay that asks for pairing -/

/-- A relay at which only one key has signed anything. -/
def pairedRelay (signer : String) : Config :=
  { requirePairing := true, staleMs := 15000, isoTime := fun _ => "",
    keyOk := fun key => key.isSome
    verify := fun key _ signature =>
      decide (key = some (.str signer)) && decide (signature = some (.str "signed")) }

theorem pairedRelay_sound (signer : String) (key : Option Json) (text : String) (signature : Option Json)
    (h : (pairedRelay signer).verify key text signature = true) : key = some (.str signer) :=
  of_decide_eq_true (Bool.and_eq_true_iff.mp h).1

def pairFrame (id key : String) : Option Json :=
  some (.obj [("kind", .str "plaintext"), ("from", .str id), ("type", .str "node_pair_request"),
    ("identity", .obj [("id", .str id), ("signing_public_key", .str key)])])

def signedFrame (id : String) : Json :=
  .obj [("type", .str "node_register"), ("node", .obj [("node_id", .str id)]),
    ("signature", .obj [("alg", .str "Ed25519"), ("value", .str "signed")])]

/-- A node paired with its key registers with it. -/
theorem pairing_pins_signer :
    let cfg := pairedRelay "K1"
    let s := run (Relay.step cfg) Relay.initial [.connect, .message 0 0 (pairFrame "a" "K1")]
    BecomesRegistered s (s.step cfg (.message 0 1 (some (signedFrame "a")))) (.str "a") 0 ∧
      SignedEnvelope (fun key _ => key = some (.str "K1")) (some (.str "K1")) (signedFrame "a") := by
  intro cfg s
  have hb : BecomesRegistered s (s.step cfg (.message 0 1 (some (signedFrame "a")))) (.str "a") 0 :=
    ⟨by decide +kernel, by decide +kernel⟩
  refine ⟨hb, ?_⟩
  have hpins := pairing_pins cfg rfl (fun key _ => key = some (.str "K1")) (pairedRelay_sound "K1") s (.str "a")
    (.obj [("id", .str "a"), ("signing_public_key", .str "K1")]) (by decide +kernel)
    [.message 0 1 (some (signedFrame "a"))]
    ⟨fun hcase => absurd hcase (by decide +kernel), trivial⟩
  obtain ⟨now, j, hev, -, -, hsigned⟩ := hpins.1 0 hb
  cases hev
  exact hsigned

/-- **Anyone may pair the id again**: a second socket pairs it with its own key and registers with that. -/
theorem pairing_overwritten :
    let cfg := pairedRelay "K2"
    let first := run (Relay.step cfg) Relay.initial [.connect, .message 0 0 (pairFrame "a" "K1")]
    let s := run (Relay.step cfg) first [.connect, .message 1 1 (pairFrame "a" "K2")]
    get first.pairedIdentities (.str "a") = some (.obj [("id", .str "a"), ("signing_public_key", .str "K1")]) ∧
    (∀ key text signature, cfg.verify key text signature = true → key = some (.str "K2")) ∧
    BecomesRegistered s (s.step cfg (.message 1 2 (some (signedFrame "a")))) (.str "a") 1 ∧
    ¬ SignedEnvelope (fun key _ => key = some (.str "K2")) (some (.str "K1")) (signedFrame "a") := by
  refine ⟨by decide +kernel, pairedRelay_sound "K2", ⟨by decide +kernel, by decide +kernel⟩, ?_⟩
  rintro ⟨-, hkey⟩
  exact absurd hkey (by decide +kernel)

end VibeRelayServer
