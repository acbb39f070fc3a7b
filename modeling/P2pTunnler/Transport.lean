import P2pTunnler.Net
import Mathlib.Data.Finset.Card

/-!
# The candidate set and the bounded queues

`CandidateSet` of `transport.rs` and `try_send` of `utils.rs`. The advertised
addresses come from DHT records, the peer-reflexive ones from sources that
presented the run token; only the second set has its bound built in.
-/

namespace P2pTunnler

def maxPeerReflexiveCandidates : Nat := 64
def udpQueueCapacity : Nat := 256

abbrev Datagram := Bytes × SocketAddr

/-- A full queue drops the message and answers `false`. -/
def trySend {α : Type} (queue : List α) (message : α) : List α × Bool :=
  if queue.length < udpQueueCapacity then (queue ++ [message], true) else (queue, false)

inductive InternetPacketKind
  | probe
  | stun
  | data
  | drop
  deriving DecidableEq

structure CandidateSet where
  advertised : Finset SocketAddr
  peerReflexive : Finset SocketAddr
  bounded : peerReflexive.card ≤ maxPeerReflexiveCandidates

namespace CandidateSet

instance : Inhabited CandidateSet := ⟨∅, ∅, Nat.zero_le _⟩

def contains (c : CandidateSet) (address : SocketAddr) : Bool :=
  decide (address ∈ c.advertised) || decide (address ∈ c.peerReflexive)

-- the two lists are the orders in which the two sets are walked
def addresses (c : CandidateSet) (advertised peerReflexive : List SocketAddr) : List SocketAddr :=
  advertised ++ peerReflexive.filter fun address => address ∉ c.advertised

def replaceAdvertised (c : CandidateSet) (addresses : Finset SocketAddr) : CandidateSet :=
  { c with advertised := addresses }

def addPeerReflexive (c : CandidateSet) (address : SocketAddr) : CandidateSet × Bool :=
  if h : c.contains address ∨ c.peerReflexive.card = maxPeerReflexiveCandidates then (c, false)
  else ({ c with
    peerReflexive := insert address c.peerReflexive
    bounded := by
      have := Finset.card_insert_le address c.peerReflexive
      have := c.bounded
      omega }, decide (address ∉ c.peerReflexive))

@[simp] theorem contains_iff (c : CandidateSet) (a : SocketAddr) :
    c.contains a = true ↔ a ∈ c.advertised ∨ a ∈ c.peerReflexive := by
  simp [contains]

@[simp] theorem replaceAdvertised_advertised (c : CandidateSet) (s : Finset SocketAddr) :
    (c.replaceAdvertised s).advertised = s := rfl

@[simp] theorem replaceAdvertised_peerReflexive (c : CandidateSet) (s : Finset SocketAddr) :
    (c.replaceAdvertised s).peerReflexive = c.peerReflexive := rfl

@[simp] theorem addPeerReflexive_advertised (c : CandidateSet) (a : SocketAddr) :
    (c.addPeerReflexive a).1.advertised = c.advertised := by
  unfold addPeerReflexive; split <;> rfl

theorem addPeerReflexive_peerReflexive (c : CandidateSet) (a : SocketAddr) :
    (c.addPeerReflexive a).1.peerReflexive =
      if c.contains a ∨ c.peerReflexive.card = maxPeerReflexiveCandidates then c.peerReflexive
      else insert a c.peerReflexive := by
  unfold addPeerReflexive; split <;> simp_all

theorem mem_addPeerReflexive {c : CandidateSet} {a x : SocketAddr}
    (h : x ∈ (c.addPeerReflexive a).1.peerReflexive) : x = a ∨ x ∈ c.peerReflexive := by
  rw [addPeerReflexive_peerReflexive] at h
  split at h
  · exact .inr h
  · exact Finset.mem_insert.mp h

theorem peerReflexive_subset_add (c : CandidateSet) (a : SocketAddr) :
    c.peerReflexive ⊆ (c.addPeerReflexive a).1.peerReflexive := by
  rw [addPeerReflexive_peerReflexive]
  split
  · exact Finset.Subset.refl _
  · exact Finset.subset_insert _ _

theorem mem_addresses {c : CandidateSet} {l₁ l₂ : List SocketAddr} (h₁ : ∀ a, a ∈ l₁ → a ∈ c.advertised)
    (h₂ : ∀ a, a ∈ l₂ → a ∈ c.peerReflexive) {a : SocketAddr} (h : a ∈ c.addresses l₁ l₂) :
    c.contains a = true := by
  rw [contains_iff]
  rcases List.mem_append.mp h with h | h
  · exact .inl (h₁ a h)
  · exact .inr (h₂ a (List.mem_of_mem_filter h))

end CandidateSet

end P2pTunnler
