import P2pTunnler.Record
import P2pTunnler.Transport
import P2pTunnler.ProbeLemmas

/-!
# Publishing and receiving candidates

`candidates.rs`. The listener handles one DHT value at a time; the wall
clock, the monotonic clock and the orders in which hash sets are walked come
with the value.
-/

namespace P2pTunnler

open Finset (insertUpTo Enumerates)

def maxDhtMessageAge : Nat := secs (10 * 60)
def maxDhtFutureSkew : Nat := secs (5 * 60)
def maxRemoteCandidates : Nat := 64

def dhtKey (publisher subscriber : PublicKey) : Bytes := publisher.toList ++ subscriber.toList

def isUsablePeerAddr (addr : SocketAddr) : Bool :=
  !addr.ip.isLoopback && !addr.ip.isUnspecified && !addr.ip.isMulticast && 1024 < addr.port

def retainedKnownConnections (known : List SocketAddr) (onlyIpv4 : Bool) : List SocketAddr :=
  known.filter fun addr => !onlyIpv4 || addr.ip.isIpv4

def isFreshDhtTimestamp (timestamp now : Int) : Bool :=
  match systemDurationSince timestamp now with
  | some futureSkew => futureSkew ≤ maxDhtFutureSkew
  | none => (systemDurationSince now timestamp).any fun age => age ≤ maxDhtMessageAge

theorem isFreshDhtTimestamp_iff (t now : Int) :
    isFreshDhtTimestamp t now = true ↔ now - maxDhtMessageAge ≤ t ∧ t ≤ now + maxDhtFutureSkew := by
  unfold isFreshDhtTimestamp systemDurationSince
  by_cases h : now ≤ t
  · simp only [h, if_true, decide_eq_true_eq]
    omega
  · have h' : t ≤ now := by omega
    simp only [h, if_false, h', if_true, Option.any_some, decide_eq_true_eq]
    omega

/-! ## Configuration -/

structure ConnectionFlags where
  filterIpv6 : Bool
  noClear : Bool

/-- One local key and one remote key, with the crates both DHT tasks use. -/
structure Endpoint (κ : Type) where
  enc : Encodings
  box : SalsaBox κ
  privateKey : SecretKey
  remoteKey : PublicKey
  flags : ConnectionFlags

namespace ConnectionFlags

variable (flags : ConnectionFlags)

-- the filtered address list of a record
def recordPeers (m : Message) : List SocketAddr :=
  ((m.ipAddrList.filter fun addr => !flags.filterIpv6 || addr.ip.isIpv4).filter isUsablePeerAddr).take
    maxRemoteCandidates

-- `known` is the order in which the advertised set is walked
def updatedPeers (m : Message) (known : List SocketAddr) : Finset SocketAddr :=
  if flags.noClear then
    insertUpTo maxRemoteCandidates (flags.recordPeers m).toFinset (retainedKnownConnections known flags.filterIpv6)
  else (flags.recordPeers m).toFinset

theorem length_recordPeers (m : Message) : (flags.recordPeers m).length ≤ maxRemoteCandidates :=
  List.length_take_le _ _

theorem mem_recordPeers {m : Message} {a : SocketAddr} (h : a ∈ flags.recordPeers m) :
    a ∈ m.ipAddrList ∧ (flags.filterIpv6 = true → a.isIpv4 = true) ∧ isUsablePeerAddr a = true := by
  have h := List.mem_of_mem_take h
  simp only [List.mem_filter, Bool.or_eq_true, Bool.not_eq_true'] at h
  refine ⟨h.1.1, fun hf => ?_, h.2⟩
  rcases h.1.2 with h4 | h4
  · rw [hf] at h4; cases h4
  · exact h4

theorem card_recordPeers (m : Message) : (flags.recordPeers m).toFinset.card ≤ maxRemoteCandidates :=
  Nat.le_trans (List.toFinset_card_le _) (flags.length_recordPeers m)

theorem card_updatedPeers (m : Message) (known : List SocketAddr) :
    (flags.updatedPeers m known).card ≤ maxRemoteCandidates := by
  unfold updatedPeers
  split
  · exact Finset.card_insertUpTo_le _ (flags.card_recordPeers m)
  · exact flags.card_recordPeers m

theorem updatedPeers_of_clear (h : flags.noClear = false) (m : Message) (known : List SocketAddr) :
    flags.updatedPeers m known = (flags.recordPeers m).toFinset := by
  unfold updatedPeers
  rw [h]; rfl

theorem mem_updatedPeers {m : Message} {known : List SocketAddr} {a : SocketAddr}
    (h : a ∈ flags.updatedPeers m known) :
    a ∈ flags.recordPeers m ∨
      flags.noClear = true ∧ a ∈ known ∧ (flags.filterIpv6 = true → a.isIpv4 = true) := by
  unfold updatedPeers at h
  split at h
  · rename_i hn
    have h := Finset.insertUpTo_subset _ _ _ h
    rw [Finset.mem_union, List.mem_toFinset, List.mem_toFinset] at h
    rcases h with h | h
    · exact .inl h
    · unfold retainedKnownConnections at h
      simp only [List.mem_filter, Bool.or_eq_true, Bool.not_eq_true'] at h
      refine .inr ⟨hn, h.1, fun hf => ?_⟩
      rcases h.2 with h4 | h4
      · rw [hf] at h4; cases h4
      · exact h4
  · exact .inl (List.mem_toFinset.mp h)

end ConnectionFlags

namespace Endpoint

variable {κ : Type} (P : Endpoint κ)

def localKey : PublicKey := P.box.publicKey P.privateKey

def crypto : κ := P.box.new P.remoteKey P.privateKey

/-! ## The publisher -/

def record (localToken : Token) (addresses : List SocketAddr) (now : Int) : Message :=
  ⟨now, addresses, some ⟨P.enc.base64Encode localToken.toList⟩⟩

-- the value that one round of `publish_candidates` puts under `dhtKey localKey remoteKey`
def publish (localToken : Token) (addresses : List SocketAddr) (now : Int) (nonce : Nonce) : Option Bytes :=
  (P.enc.jsonBytes (P.record localToken addresses now)).bind fun plaintext =>
    CryptoBox.encryptWithNonce P.box P.crypto plaintext nonce

/-! ## The listener -/

def decode (value : Bytes) : Option Message :=
  (CryptoBox.decrypt P.box P.crypto value).bind P.enc.parseDhtMessage

-- the four points at which `listen_for_peer_candidates` gives up on a value
def receive (lastTimestamp : Option Int) (value : Bytes) (now : Int) : Option Message :=
  match CryptoBox.decrypt P.box P.crypto value with
  | none => none
  | some plaintext =>
    match P.enc.parseDhtMessage plaintext with
    | none => none
    | some message =>
      if !isFreshDhtTimestamp message.timestamp now then none
      else if lastTimestamp.any fun last => message.timestamp ≤ last then none
      else some message

theorem receive_eq_some {last : Option Int} {value : Bytes} {now : Int} {m : Message} :
    P.receive last value now = some m ↔
      P.decode value = some m ∧ isFreshDhtTimestamp m.timestamp now = true ∧ ∀ l, last = some l → l < m.timestamp := by
  have hlast : ∀ t : Int, (last.any fun l => decide (t ≤ l)) = false ↔ ∀ l, last = some l → l < t := by
    intro t
    cases last with
    | none => simp
    | some l => simp
  unfold receive decode
  cases CryptoBox.decrypt P.box P.crypto value with
  | none => simp
  | some plaintext =>
    simp only [Option.bind_some]
    cases P.enc.parseDhtMessage plaintext with
    | none => simp
    | some m' =>
      simp only [Option.some.injEq]
      by_cases hf : isFreshDhtTimestamp m'.timestamp now = true
      · by_cases hl : (last.any fun l => decide (m'.timestamp ≤ l)) = true
        · simp only [hf, hl, Bool.not_true, Bool.false_eq_true, if_false, if_true, reduceCtorEq, false_iff]
          intro ⟨he, _, hn⟩
          subst he
          rw [(hlast _).mpr hn] at hl; cases hl
        · simp only [hf, hl, Bool.not_true, Bool.false_eq_true, if_false, Option.some.injEq]
          refine ⟨fun he => ?_, fun h => h.1⟩
          subst he
          exact ⟨rfl, hf, (hlast _).mp (by simpa using hl)⟩
      · simp only [hf, Bool.not_false, if_true, reduceCtorEq, false_iff]
        intro ⟨he, hf', _⟩
        subst he
        exact hf hf'

end Endpoint

structure ListenerState where
  lastTimestamp : Option Int
  connections : CandidateSet
  probes : ProbeState

structure Delivery where
  value : Bytes
  now : Int
  knownOrder : List SocketAddr
  updatedOrder : List SocketAddr
  instant : Nat

def CandidateSet.refresh (c : CandidateSet) (updated : Finset SocketAddr) : CandidateSet :=
  if c.advertised ≠ updated then c.replaceAdvertised updated else c

@[simp] theorem CandidateSet.refresh_advertised (c : CandidateSet) (s : Finset SocketAddr) :
    (c.refresh s).advertised = s := by
  unfold refresh
  split
  · rfl
  · rename_i h; exact not_not.mp h

/-- One value, handled to the end; the output is the accepted record. -/
def Endpoint.listener {κ : Type} (P : Endpoint κ) : Machine ListenerState Delivery (Option Message) where
  step s d :=
    match P.receive s.lastTimestamp d.value d.now with
    | none => some (s, none)
    | some message =>
      let updated := P.flags.updatedPeers message d.knownOrder
      if Enumerates d.knownOrder s.connections.advertised ∧ Enumerates d.updatedOrder updated then
        some (⟨some message.timestamp, s.connections.refresh updated,
          s.probes.updateRemote (P.enc.remoteToken message) d.updatedOrder d.instant⟩, some message)
      else none

/-! ## A concrete endpoint -/

def sampleKey (b : UInt8) : Octets 32 := ⟨List.replicate 32 b, by simp⟩

def sampleNonce (b : UInt8) : Nonce := ⟨List.replicate 24 b, by simp⟩

def sampleEndpoint (flags : ConnectionFlags) : Endpoint (Octets 64) :=
  ⟨sampleEnc, sampleBox, sampleKey 1, sampleKey 2, flags⟩

def sampleValue (plaintext : Bytes) : Bytes :=
  (CryptoBox.encryptWithNonce sampleBox (sampleEndpoint ⟨false, false⟩).crypto plaintext
    (sampleNonce 0)).getD []

def ListenerState.new (localToken : Token) : ListenerState := ⟨none, default, .new localToken⟩

end P2pTunnler
