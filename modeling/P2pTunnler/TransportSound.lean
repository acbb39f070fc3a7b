import P2pTunnler.Transport

/-!
# Refreshes and admissions in any order

A DHT refresh replaces the advertised set and a presented token extends the
peer-reflexive one. `retained_iff` says when an admitted source survives.
-/

namespace P2pTunnler

inductive CandidateOp
  | replaceAdvertised (addresses : Finset SocketAddr)
  | addPeerReflexive (address : SocketAddr)

namespace CandidateSet

def apply (c : CandidateSet) : CandidateOp → CandidateSet
  | .replaceAdvertised addresses => c.replaceAdvertised addresses
  | .addPeerReflexive address => (c.addPeerReflexive address).1

def applyAll (c : CandidateSet) (ops : List CandidateOp) : CandidateSet := ops.foldl apply c

theorem peerReflexive_subset_apply (c : CandidateSet) (op : CandidateOp) :
    c.peerReflexive ⊆ (c.apply op).peerReflexive := by
  cases op with
  | replaceAdvertised s => exact Finset.Subset.refl _
  | addPeerReflexive a => exact peerReflexive_subset_add c a

theorem peerReflexive_subset_applyAll (c : CandidateSet) (ops : List CandidateOp) :
    c.peerReflexive ⊆ (c.applyAll ops).peerReflexive := by
  induction ops generalizing c with
  | nil => exact Finset.Subset.refl _
  | cons op ops ih => exact (peerReflexive_subset_apply c op).trans (ih (c.apply op))

/-- While `s` is advertised it is never admitted, so only the refreshes decide whether it stays. -/
theorem contains_prefixes_of_advertised {s : SocketAddr} : ∀ (ops : List CandidateOp) (c : CandidateSet),
    s ∈ c.advertised → s ∉ c.peerReflexive →
    ((∀ pre, pre <+: ops → (c.applyAll pre).contains s = true) ↔
      ∀ set, CandidateOp.replaceAdvertised set ∈ ops → s ∈ set)
  | [], c, hs, _ => by
    simp [applyAll, hs]
  | op :: ops, c, hs, hn => by
    have hsplit : (∀ pre, pre <+: op :: ops → (c.applyAll pre).contains s = true) ↔
        ∀ pre, pre <+: ops → ((c.apply op).applyAll pre).contains s = true := by
      refine ⟨fun h pre hp => h (op :: pre) (List.cons_prefix_cons.mpr ⟨rfl, hp⟩), fun h pre hp => ?_⟩
      cases pre with
      | nil => simp [applyAll, hs]
      | cons x pre =>
        obtain ⟨rfl, hp'⟩ := List.cons_prefix_cons.mp hp
        exact h pre hp'
    rw [hsplit]
    cases op with
    | addPeerReflexive a =>
      have hn' : s ∉ (c.addPeerReflexive a).1.peerReflexive := by
        intro h
        rcases mem_addPeerReflexive h with rfl | h
        · rw [addPeerReflexive_peerReflexive, if_pos (by simp [hs])] at h; exact hn h
        · exact hn h
      have := contains_prefixes_of_advertised ops (c.apply (.addPeerReflexive a))
        (by simpa [apply] using hs) hn'
      rw [this]; simp
    | replaceAdvertised set =>
      by_cases hset : s ∈ set
      · have := contains_prefixes_of_advertised ops (c.apply (.replaceAdvertised set)) hset hn
        rw [this]; simp [hset]
      · refine ⟨fun h => ?_, fun h => absurd (h set (by simp)) hset⟩
        have := h [] (List.nil_prefix)
        simp [applyAll, apply, hset, hn] at this

theorem addPeerReflexive_admits {c : CandidateSet} {s : SocketAddr}
    (hc : c.peerReflexive.card < maxPeerReflexiveCandidates)
    (hs : s ∉ c.advertised ∨ s ∈ c.peerReflexive) : s ∈ (c.addPeerReflexive s).1.peerReflexive := by
  by_cases hp : s ∈ c.peerReflexive
  · exact peerReflexive_subset_add c s hp
  · have ha : s ∉ c.advertised := hs.resolve_right hp
    rw [addPeerReflexive_peerReflexive, if_neg]
    · exact Finset.mem_insert_self _ _
    · simp only [contains_iff, ha, hp, or_self, false_or]
      omega

/-- **Peer-reflexive retention.** After an admission with room, `s` stays a
candidate through all later operations exactly when it was not merely
advertised at that moment, or every later refresh advertises it again. -/
theorem retained_iff (pre post : List CandidateOp) (s : SocketAddr)
    (hroom : ((default : CandidateSet).applyAll pre).peerReflexive.card < maxPeerReflexiveCandidates) :
    (∀ mid, mid <+: post →
        (((default : CandidateSet).applyAll (pre ++ [.addPeerReflexive s])).applyAll mid).contains s = true) ↔
      (s ∉ ((default : CandidateSet).applyAll pre).advertised ∨
        s ∈ ((default : CandidateSet).applyAll pre).peerReflexive ∨
        ∀ set, CandidateOp.replaceAdvertised set ∈ post → s ∈ set) := by
  have happ : (default : CandidateSet).applyAll (pre ++ [.addPeerReflexive s]) =
      (((default : CandidateSet).applyAll pre).addPeerReflexive s).1 := by
    simp [applyAll, apply]
  rw [happ]
  generalize (default : CandidateSet).applyAll pre = c at hroom
  by_cases hs : s ∉ c.advertised ∨ s ∈ c.peerReflexive
  · -- admitted: the peer-reflexive set only grows
    have hin := addPeerReflexive_admits hroom hs
    refine ⟨fun _ => by tauto, fun _ mid _ => ?_⟩
    rw [contains_iff]
    exact .inr (peerReflexive_subset_applyAll _ mid hin)
  · have ha : s ∈ c.advertised := by tauto
    have hp : s ∉ c.peerReflexive := by tauto
    have hkeep : (c.addPeerReflexive s).1.peerReflexive = c.peerReflexive := by
      rw [addPeerReflexive_peerReflexive, if_pos (by simp [ha])]
    rw [contains_prefixes_of_advertised post _ (by simpa using ha) (by rw [hkeep]; exact hp)]
    simp [ha, hp]

theorem retained_after_refresh :
    ((default : CandidateSet).applyAll [.addPeerReflexive (.testNet 1 10000)]).peerReflexive.card = 1 ∧
      ∀ mid, mid <+: [CandidateOp.replaceAdvertised {.testNet 2 10001}, .replaceAdvertised ∅] →
        (((default : CandidateSet).applyAll ([.addPeerReflexive (.testNet 1 10000)] ++
          [.addPeerReflexive (.testNet 3 10002)])).applyAll mid).contains (.testNet 3 10002) = true :=
  ⟨by decide, (retained_iff [.addPeerReflexive (.testNet 1 10000)] _ (.testNet 3 10002) (by decide)).mpr
    (.inl (by decide))⟩

/-- An address that is advertised when it presents the token is not
recorded, and the next refresh loses it. -/
theorem advertised_admission_lost :
    ¬ ∀ (pre post : List CandidateOp) (s : SocketAddr),
      ((default : CandidateSet).applyAll pre).peerReflexive.card < maxPeerReflexiveCandidates →
      ∀ mid, mid <+: post →
        (((default : CandidateSet).applyAll (pre ++ [.addPeerReflexive s])).applyAll mid).contains s = true := by
  intro h
  have := h [.replaceAdvertised {.testNet 1 10000}] [.replaceAdvertised ∅] (.testNet 1 10000) (by decide)
    [.replaceAdvertised ∅] (List.prefix_refl _)
  revert this
  decide

end CandidateSet

end P2pTunnler
