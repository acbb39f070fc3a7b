import P2pTunnler.ListenerSound

/-!
# What a record does to the candidates

How the addresses of a record are merged with those advertised before, and
which control extensions cost a record its addresses.
-/

namespace P2pTunnler

open Finset (insertUpTo Enumerates)

/-! ## Merging with the known addresses -/

/-- The addresses that `no_clear` may keep from the set advertised before. -/
def ConnectionFlags.retained (flags : ConnectionFlags) (advertised : Finset SocketAddr) : Finset SocketAddr :=
  advertised.filter fun addr => !flags.filterIpv6 || addr.ip.isIpv4

theorem toFinset_retainedKnownConnections {known : List SocketAddr} {advertised : Finset SocketAddr}
    (h : Enumerates known advertised) (flags : ConnectionFlags) :
    (retainedKnownConnections known flags.filterIpv6).toFinset = flags.retained advertised := by
  ext a
  simp [retainedKnownConnections, ConnectionFlags.retained, h.mem]

section
variable {κ : Type} {P : Endpoint κ}

theorem listener_advertised {s s' : ListenerState} {d : Delivery} {m : Message}
    (h : P.listener.step s d = some (s', some m)) :
    Enumerates d.knownOrder s.connections.advertised ∧
      s'.connections.advertised = P.flags.updatedPeers m d.knownOrder := by
  rcases listener_step_cases h with ⟨ho, _⟩ | ⟨m', ho, _, hk, _, rfl⟩
  · cases ho
  · cases ho
    exact ⟨hk, CandidateSet.refresh_advertised _ _⟩

theorem recordPeers_subset_updatedPeers (flags : ConnectionFlags) (m : Message) (known : List SocketAddr) :
    (flags.recordPeers m).toFinset ⊆ flags.updatedPeers m known := by
  unfold ConnectionFlags.updatedPeers
  split
  · exact Finset.subset_insertUpTo _ _ _
  · exact Finset.Subset.refl _

theorem updatedPeers_of_noClear {flags : ConnectionFlags} (hn : flags.noClear = true) (m : Message)
    (known : List SocketAddr) : flags.updatedPeers m known =
      insertUpTo maxRemoteCandidates (flags.recordPeers m).toFinset
        (retainedKnownConnections known flags.filterIpv6) := by
  unfold ConnectionFlags.updatedPeers
  rw [hn]; rfl

/-- **The merge of a record.** Without `no_clear` the advertised set is that
of the record. With it, the record comes first, and of the addresses known
before as many stay as the cap leaves room for. -/
theorem merge_exact {s s' : ListenerState} {d : Delivery} {m : Message}
    (h : P.listener.step s d = some (s', some m)) :
    (P.flags.noClear = false → s'.connections.advertised = (P.flags.recordPeers m).toFinset) ∧
    (P.flags.noClear = true →
      (P.flags.recordPeers m).toFinset ⊆ s'.connections.advertised ∧
      s'.connections.advertised ⊆
        (P.flags.recordPeers m).toFinset ∪ P.flags.retained s.connections.advertised ∧
      (((P.flags.recordPeers m).toFinset ∪ P.flags.retained s.connections.advertised).card ≤ 64 →
        s'.connections.advertised =
          (P.flags.recordPeers m).toFinset ∪ P.flags.retained s.connections.advertised) ∧
      (64 < ((P.flags.recordPeers m).toFinset ∪ P.flags.retained s.connections.advertised).card →
        s'.connections.advertised.card = 64)) ∧
    s'.connections.advertised.card ≤ 64 ∧ (P.flags.recordPeers m).toFinset ⊆ s'.connections.advertised ∧
    (P.flags.noClear = true → ∀ a ∈ P.flags.retained s.connections.advertised,
      a ∉ s'.connections.advertised → s'.connections.advertised.card = 64) := by
  obtain ⟨hk, hadv⟩ := listener_advertised h
  have hret := toFinset_retainedKnownConnections hk P.flags
  have hsub := recordPeers_subset_updatedPeers P.flags m d.knownOrder
  have hmerge : P.flags.noClear = true →
      P.flags.updatedPeers m d.knownOrder ⊆
        (P.flags.recordPeers m).toFinset ∪ P.flags.retained s.connections.advertised ∧
      (((P.flags.recordPeers m).toFinset ∪ P.flags.retained s.connections.advertised).card ≤ 64 →
        P.flags.updatedPeers m d.knownOrder =
          (P.flags.recordPeers m).toFinset ∪ P.flags.retained s.connections.advertised) ∧
      (64 < ((P.flags.recordPeers m).toFinset ∪ P.flags.retained s.connections.advertised).card →
        (P.flags.updatedPeers m d.knownOrder).card = 64) := by
    intro hn
    rw [updatedPeers_of_noClear hn, ← hret]
    refine ⟨Finset.insertUpTo_subset _ _ _, Finset.insertUpTo_eq_union _, fun hlt => ?_⟩
    exact Finset.card_insertUpTo_eq _ (P.flags.card_recordPeers m) (Nat.le_of_lt hlt)
  rw [hadv]
  refine ⟨fun hc => P.flags.updatedPeers_of_clear hc m _, fun hn => ⟨hsub, hmerge hn⟩,
    P.flags.card_updatedPeers m _, hsub, ?_⟩
  intro hn a ha hlost
  obtain ⟨_, hfits, hfull⟩ := hmerge hn
  apply hfull
  by_contra hle
  rw [hfits (Nat.le_of_not_lt hle)] at hlost
  exact hlost (Finset.mem_union_right _ ha)

end

/-- One address known, and a record with another. -/
def mergeBefore : ListenerState := ⟨none, ⟨{.testNet 1 10000}, ∅, Nat.zero_le _⟩, .new (.fill 7)⟩

def mergeDelivery : Delivery :=
  ⟨sampleValue sampleNewText, secs 250, [.testNet 1 10000], [.testNet 2 10000, .testNet 1 10000], 0⟩

theorem mergeDelivery_merged : ∃ s', (sampleEndpoint ⟨true, true⟩).listener.step mergeBefore mergeDelivery =
      some (s', some sampleNew) ∧ s'.connections.advertised = {.testNet 1 10000, .testNet 2 10000} := by
  have haccepted : ((sampleEndpoint ⟨true, true⟩).listener.step mergeBefore mergeDelivery).map Prod.snd =
      some (some sampleNew) := by
    decide +kernel
  obtain ⟨⟨s', o⟩, hstep, ho⟩ := Option.map_eq_some_iff.mp haccepted
  obtain rfl : o = some sampleNew := ho
  refine ⟨s', hstep, ?_⟩
  rw [((merge_exact hstep).2.1 rfl).2.2.1 (by decide +kernel)]
  decide +kernel

/-! ## The control extension -/

/-- The token that a `control` member offers: that of an object with one `probe_token`, a string of 16 bytes. -/
def Encodings.offeredToken (E : Encodings) : Option Json → Option Token
  | some (.object members) =>
    match Json.field members "probe_token" with
    | some (some (.string token)) => E.decodeToken token
    | _ => none
  | _ => none

/-- The extensions that serde reads as no `Control`, or as one that offers what it should. -/
def Encodings.readableControl (E : Encodings) : Option Json → Bool
  | none => true
  | some .null => true
  | some (.object members) =>
    match Json.field members "probe_token" with
    | some (some (.string _)) => true
    | _ => false
  -- the array form of a struct offers a token where an object was asked for
  | some (.array [.string token]) => (E.decodeToken token).isNone
  | _ => false

/-- The record is read with its timestamp and addresses, and with the token of its extension. -/
def Encodings.KeepsCandidates (E : Encodings) (plaintext : Bytes) (timestamp : Int) (addrs : List SocketAddr)
    (control : Option Json) : Prop :=
  ∃ m, E.parseDhtMessage plaintext = some m ∧ m.timestamp = timestamp ∧ m.ipAddrList = addrs ∧
    E.remoteToken m = E.offeredToken control

section
variable {E : Encodings}

-- what serde makes of a `control` member, absent or not
def Json.controlOf : Option Json → Option (Option Control)
  | none => some none
  | some v => v.toOptionControl

theorem messageOf_eq {t l : Json} {timestamp : Int} {addrs : List SocketAddr} (ht : E.systemTime t = some timestamp)
    (hl : E.addrList l = some addrs) (control : Option Json) :
    E.messageOf t l control = (Json.controlOf control).map fun c => ⟨timestamp, addrs, c⟩ := by
  unfold Encodings.messageOf
  rw [ht, hl]
  cases control with
  | none => rfl
  | some v => cases h : v.toOptionControl <;> simp [Json.controlOf, h]

/-- The token under which serde leaves an extension. -/
theorem controlOf_token (control : Option Json) :
    (∃ c, Json.controlOf control = some c ∧ c.bind (fun control => E.decodeToken control.probeToken) =
      E.offeredToken control) ↔ E.readableControl control = true := by
  cases control with
  | none => simp [Json.controlOf, Encodings.offeredToken, Encodings.readableControl]
  | some v =>
    cases v with
    | null => simp [Json.controlOf, Json.toOptionControl, Encodings.offeredToken, Encodings.readableControl]
    | object members =>
      simp only [Json.controlOf, Json.toOptionControl, Json.toControl, Encodings.offeredToken,
        Encodings.readableControl]
      rcases Json.field members "probe_token" with _ | _ | v
      · simp
      · simp
      · cases v <;> simp [Json.toStr]
    | array items =>
      rcases items with _ | ⟨v, _ | ⟨w, items⟩⟩
      · simp [Json.controlOf, Json.toOptionControl, Json.toControl, Encodings.readableControl]
      · cases v <;>
          simp [Json.controlOf, Json.toOptionControl, Json.toControl, Json.toStr, Encodings.offeredToken,
            Encodings.readableControl]
      · simp [Json.controlOf, Json.toOptionControl, Json.toControl, Encodings.readableControl]
    | bool b => simp [Json.controlOf, Json.toOptionControl, Json.toControl, Encodings.readableControl]
    | number n e => simp [Json.controlOf, Json.toOptionControl, Json.toControl, Encodings.readableControl]
    | string s => simp [Json.controlOf, Json.toOptionControl, Json.toControl, Encodings.readableControl]

/-- **A control extension costs the candidates** exactly when serde does not
read it as absent or as an object with a string: the timestamp and the
addresses are then lost with it. -/
theorem keepsCandidates_iff {plaintext : Bytes} {members : List (String × Json)}
    (hjson : E.jsonParse plaintext = some (.object members)) {t l : Json} {control : Option Json}
    (htime : Json.field members "timestamp" = some (some t))
    (hlist : Json.field members "ip_addr_list" = some (some l))
    (hcontrol : Json.field members "control" = some control) {timestamp : Int} {addrs : List SocketAddr}
    (ht : E.systemTime t = some timestamp) (hl : E.addrList l = some addrs) :
    E.KeepsCandidates plaintext timestamp addrs control ↔ E.readableControl control = true := by
  have hparse : E.parseDhtMessage plaintext =
      (Json.controlOf control).map fun c => (⟨timestamp, addrs, c⟩ : Message) := by
    unfold Encodings.parseDhtMessage Encodings.message
    rw [hjson]
    simp only [Option.bind_some, htime, hlist, hcontrol]
    exact messageOf_eq ht hl control
  rw [← controlOf_token]
  unfold Encodings.KeepsCandidates
  rw [hparse]
  constructor
  · rintro ⟨m, hm, _, _, htok⟩
    obtain ⟨c, hc, rfl⟩ := Option.map_eq_some_iff.mp hm
    exact ⟨c, hc, htok⟩
  · rintro ⟨c, hc, htok⟩
    exact ⟨⟨timestamp, addrs, c⟩, by rw [hc]; rfl, rfl, rfl, htok⟩

end

theorem sampleNew_keepsCandidates :
    sampleEnc.KeepsCandidates sampleNewText (secs 200) [.testNet 2 10000]
      (some (.object [("probe_token", .string "BQUFBQUFBQUFBQUFBQUFBQ==")])) :=
  (keepsCandidates_iff (E := sampleEnc) (t := sampleTime 200) (l := .array [.string "192.0.2.2:10000"])
    rfl rfl rfl rfl rfl rfl).mpr rfl

/-- The text `{"timestamp":{"secs_since_epoch":100,"nanos_since_epoch":0},
"ip_addr_list":["192.0.2.1:10000"],"control":{}}`. -/
def emptyControlText : Bytes := [
    123, 34, 116, 105, 109, 101, 115, 116, 97, 109, 112, 34, 58, 123, 34, 115, 101, 99, 115, 95, 115, 105, 110,
    99, 101, 95, 101, 112, 111, 99, 104, 34, 58, 49, 48, 48, 44, 34, 110, 97, 110, 111, 115, 95, 115, 105, 110,
    99, 101, 95, 101, 112, 111, 99, 104, 34, 58, 48, 125, 44, 34, 105, 112, 95, 97, 100, 100, 114, 95, 108,
    105, 115, 116, 34, 58, 91, 34, 49, 57, 50, 46, 48, 46, 50, 46, 49, 58, 49, 48, 48, 48, 48, 34, 93, 44, 34,
    99, 111, 110, 116, 114, 111, 108, 34, 58, 123, 125, 125]

def emptyControlMembers : List (String × Json) :=
  [("timestamp", sampleTime 100), ("ip_addr_list", .array [.string "192.0.2.1:10000"]), ("control", .object [])]

def emptyControlEnc : Encodings :=
  { sampleEnc with
    jsonParse b := if b = emptyControlText then some (.object emptyControlMembers) else sampleEnc.jsonParse b }

/-- A record whose `control` is an empty object is refused as a whole. -/
theorem emptyControl_refused : ¬ ∀ (plaintext : Bytes) (members : List (String × Json)) (t l : Json)
    (control : Option Json) (timestamp : Int) (addrs : List SocketAddr),
    emptyControlEnc.jsonParse plaintext = some (.object members) →
    Json.field members "timestamp" = some (some t) → Json.field members "ip_addr_list" = some (some l) →
    Json.field members "control" = some control → emptyControlEnc.systemTime t = some timestamp →
    emptyControlEnc.addrList l = some addrs → emptyControlEnc.KeepsCandidates plaintext timestamp addrs control := by
  intro h
  obtain ⟨m, hm, _⟩ := h emptyControlText emptyControlMembers _ _ (some (.object [])) (secs 100)
    [.testNet 1 10000] (by simp [emptyControlEnc]) rfl rfl rfl rfl rfl
  have hnone : emptyControlEnc.parseDhtMessage emptyControlText = none := by decide +kernel
  rw [hnone] at hm
  cases hm

end P2pTunnler
