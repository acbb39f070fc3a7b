import P2pTunnler.Candidates
import Mathlib.Data.List.Nodup

/-!
# Runs of the DHT listener

Accepted records have increasing timestamps, a rejected value changes
nothing, and records that are all fresh leave the state of the newest one in
whatever order they arrive.
-/

namespace P2pTunnler

open Finset (Enumerates)

abbrev ListenerEntry := Machine.Entry ListenerState Delivery (Option Message)

def accepted (tr : List ListenerEntry) : List Message := tr.filterMap (·.out)

theorem accepted_append (a b : List ListenerEntry) : accepted (a ++ b) = accepted a ++ accepted b :=
  List.filterMap_append

section
variable {κ : Type} {P : Endpoint κ}

/-! ## One value -/

theorem listener_step_cases {s s' : ListenerState} {d : Delivery} {o : Option Message}
    (h : P.listener.step s d = some (s', o)) :
    (o = none ∧ s' = s ∧ P.receive s.lastTimestamp d.value d.now = none) ∨
    (∃ m, o = some m ∧ P.receive s.lastTimestamp d.value d.now = some m ∧
      Enumerates d.knownOrder s.connections.advertised ∧
      Enumerates d.updatedOrder (P.flags.updatedPeers m d.knownOrder) ∧
      s' = ⟨some m.timestamp, s.connections.refresh (P.flags.updatedPeers m d.knownOrder),
        s.probes.updateRemote (P.enc.remoteToken m) d.updatedOrder d.instant⟩) := by
  unfold Endpoint.listener at h
  simp only at h
  split at h
  · rename_i hrec
    simp only [Option.some.injEq, Prod.mk.injEq] at h
    exact .inl ⟨h.2.symm, h.1.symm, hrec⟩
  · rename_i m hrec
    split at h
    · rename_i hord
      simp only [Option.some.injEq, Prod.mk.injEq] at h
      exact .inr ⟨m, h.2.symm, hrec, hord.1, hord.2, h.1.symm⟩
    · cases h

theorem exists_enumeration (s : Finset SocketAddr) : ∃ l, Enumerates l s :=
  ⟨s.toList, s.nodup_toList, s.toList_toFinset⟩

/-- The listener is never stuck: every value has a step, whatever the clocks show. -/
theorem listener_enabled (s : ListenerState) (value : Bytes) (now : Int) (instant : Nat) :
    ∃ known updated r, P.listener.step s ⟨value, now, known, updated, instant⟩ = some r := by
  cases h : P.receive s.lastTimestamp value now with
  | none => exact ⟨[], [], (s, none), by unfold Endpoint.listener; simp only [h]⟩
  | some m =>
    obtain ⟨known, hk⟩ := exists_enumeration s.connections.advertised
    obtain ⟨updated, hu⟩ := exists_enumeration (P.flags.updatedPeers m known)
    exact ⟨known, updated, _, by unfold Endpoint.listener; simp only [h]; rw [if_pos ⟨hk, hu⟩]⟩

/-- The addresses that get a probe path from a record. -/
theorem selected_of_enumerates {order : List SocketAddr} {s : Finset SocketAddr} (h : Enumerates order s)
    (hs : s.card ≤ maxProbePaths) : ProbeState.selected order = s := by
  have hu : (∅ : Finset SocketAddr) ∪ order.toFinset = s := by rw [Finset.empty_union, h.2]
  unfold ProbeState.selected
  rw [Finset.insertUpTo_eq_union order (by rw [hu]; exact hs), hu]

theorem updateRemote_keys (st : ProbeState) (token : Option Token) {order : List SocketAddr}
    {s : Finset SocketAddr} (h : Enumerates order s) (hs : s.card ≤ maxProbePaths) (now : Nat) :
    (st.updateRemote token order now).paths.keys = if token = none then ∅ else s := by
  ext a
  rw [FinTable.mem_keys, ProbeState.updateRemote_lookup, selected_of_enumerates h hs]
  by_cases ht : token = none
  · simp [ht]
  · by_cases ha : a ∈ s
    · simp only [ht, ha, not_true_eq_false, or_self, if_false]
      split <;> simp
    · simp [ht, ha]

/-! ## Replay safety -/

structure ReplayInv (tr : List ListenerEntry) (s : ListenerState) : Prop where
  increasing : (accepted tr).Pairwise fun m m' => m.timestamp < m'.timestamp
  last : ∀ m ∈ accepted tr, ∃ l, s.lastTimestamp = some l ∧ m.timestamp ≤ l
  origin : ∀ l, s.lastTimestamp = some l → ∃ m ∈ accepted tr, m.timestamp = l

theorem ReplayInv.newer_iff {tr : List ListenerEntry} {s : ListenerState} (hI : ReplayInv tr s) (t : Int) :
    (∀ l, s.lastTimestamp = some l → l < t) ↔ ∀ m ∈ accepted tr, m.timestamp < t := by
  refine ⟨fun h m hm => ?_, fun h l hl => ?_⟩
  · obtain ⟨l, hl, hle⟩ := hI.last m hm
    exact Int.lt_of_le_of_lt hle (h l hl)
  · obtain ⟨m, hm, rfl⟩ := hI.origin l hl
    exact h m hm

theorem replayInv_step {tr : List ListenerEntry} {s s' : ListenerState} {d : Delivery} {o : Option Message}
    (hI : ReplayInv tr s) (hst : P.listener.step s d = some (s', o)) : ReplayInv (tr ++ [⟨s, d, o, s'⟩]) s' := by
  rcases listener_step_cases hst with ⟨rfl, rfl, _⟩ | ⟨m, rfl, hrec, _, _, rfl⟩
  · have hacc : accepted (tr ++ [⟨s', d, none, s'⟩]) = accepted tr := by simp [accepted]
    exact ⟨hacc ▸ hI.increasing, hacc ▸ hI.last, hacc ▸ hI.origin⟩
  · have hnew := (hI.newer_iff m.timestamp).mp (P.receive_eq_some.mp hrec).2.2
    refine ⟨?_, ?_, ?_⟩
    · rw [accepted_append, List.pairwise_append]
      refine ⟨hI.increasing, by simp [accepted], fun x hx y hy => ?_⟩
      obtain rfl : y = m := by simpa [accepted] using hy
      exact hnew x hx
    · intro x hx
      rw [accepted_append, List.mem_append] at hx
      rcases hx with hx | hx
      · exact ⟨_, rfl, Int.le_of_lt (hnew x hx)⟩
      · obtain rfl : x = m := by simpa [accepted] using hx
        exact ⟨_, rfl, Int.le_refl _⟩
    · intro l hl
      refine ⟨m, ?_, Option.some.inj hl⟩
      rw [accepted_append]
      simp [accepted]

theorem replayInv_run {tr : List ListenerEntry} {s₀ s : ListenerState} (h0 : s₀.lastTimestamp = none)
    (hr : P.listener.Run s₀ tr s) : ReplayInv tr s := by
  refine hr.history (C := fun _ => True) (P := ReplayInv) ?_ ?_ (fun _ _ => trivial)
  · refine ⟨List.Pairwise.nil, fun m hm => (by cases hm), fun l hl => ?_⟩
    rw [h0] at hl; cases hl
  · exact fun tr s d o s' _ hI hst _ => replayInv_step hI hst

/-- **Replay safety and atomic rejection.** A value is accepted exactly when
it decodes to a record in the freshness window that is newer than all
records accepted before, and otherwise leaves the whole state as it was. -/
theorem replay_safe {tr : List ListenerEntry} {s₀ s : ListenerState} (h0 : s₀.lastTimestamp = none)
    (hr : P.listener.Run s₀ tr s) :
    (accepted tr).Pairwise (fun m m' => m.timestamp < m'.timestamp) ∧ (accepted tr).Nodup ∧
    ∀ a en b, tr = a ++ en :: b →
      (∀ m, en.out = some m ↔ P.decode en.event.value = some m ∧
        en.event.now - secs 600 ≤ m.timestamp ∧ m.timestamp ≤ en.event.now + secs 300 ∧
        ∀ m' ∈ accepted a, m'.timestamp < m.timestamp) ∧
      (en.out = none → en.post = en.pre) := by
  have hinc := (replayInv_run h0 hr).increasing
  refine ⟨hinc, hinc.imp fun h he => by rw [he] at h; exact Int.lt_irrefl _ h, ?_⟩
  intro a en b htr
  rw [htr] at hr
  obtain ⟨hpre, hst⟩ := hr.split
  have hI := replayInv_run h0 hpre
  have hiff : ∀ m, P.receive en.pre.lastTimestamp en.event.value en.event.now = some m ↔
      P.decode en.event.value = some m ∧ en.event.now - secs 600 ≤ m.timestamp ∧
        m.timestamp ≤ en.event.now + secs 300 ∧ ∀ m' ∈ accepted a, m'.timestamp < m.timestamp := by
    intro m
    rw [P.receive_eq_some, hI.newer_iff, isFreshDhtTimestamp_iff, and_assoc]
    rfl
  rcases listener_step_cases hst with ⟨ho, hs, hrec⟩ | ⟨m, ho, hrec, _, _⟩
  · refine ⟨fun m => ?_, fun _ => hs⟩
    rw [← hiff, ho, hrec]
  · refine ⟨fun m' => ?_, fun hn => by rw [ho] at hn; cases hn⟩
    rw [← hiff, ho, hrec]

/-- The old record, a broken value, the new record, and a replay of the old one. -/
def sampleDeliveries : List Delivery :=
  [⟨sampleValue sampleOldText, secs 150, [], [.testNet 1 10000], 0⟩,
    ⟨[1, 2, 3], secs 160, [], [], 0⟩,
    ⟨sampleValue sampleNewText, secs 250, [.testNet 1 10000], [.testNet 2 10000], 0⟩,
    ⟨sampleValue sampleOldText, secs 260, [], [], 0⟩]

theorem sampleDeliveries_runs :
    ((sampleEndpoint ⟨false, false⟩).listener.exec (.new (.fill 7)) sampleDeliveries).isSome = true := by decide +kernel

theorem sampleDeliveries_safe : ∃ tr s,
    (sampleEndpoint ⟨false, false⟩).listener.Run (.new (.fill 7)) tr s ∧ accepted tr = [sampleOld, sampleNew] ∧
      (accepted tr).Pairwise (fun m m' => m.timestamp < m'.timestamp) :=
  ⟨_, _, Machine.run_of_exec sampleDeliveries_runs, by decide +kernel,
    (replay_safe rfl (Machine.run_of_exec sampleDeliveries_runs)).1⟩

/-! ## Last writer wins -/

/-- The advertised set, the remote token and the probed addresses that a record asks for. -/
structure Reflects (P : Endpoint κ) (m : Message) (s : ListenerState) : Prop where
  advertised : s.connections.advertised = (P.flags.recordPeers m).toFinset
  remoteToken : s.probes.remoteToken = P.enc.remoteToken m
  paths : s.probes.paths.keys =
    if P.enc.remoteToken m = none then ∅ else (P.flags.recordPeers m).toFinset

theorem listener_reflects (hclear : P.flags.noClear = false) {s s' : ListenerState} {d : Delivery} {m : Message}
    (hst : P.listener.step s d = some (s', some m)) : s'.lastTimestamp = some m.timestamp ∧ Reflects P m s' := by
  rcases listener_step_cases hst with ⟨ho, _⟩ | ⟨m', ho, _, _, hord, rfl⟩
  · cases ho
  · cases ho
    rw [P.flags.updatedPeers_of_clear hclear] at hord ⊢
    refine ⟨rfl, by simp, by simp, ?_⟩
    exact updateRemote_keys _ _ hord (P.flags.card_recordPeers m) _

-- a value is one of the records, fresh when it is handled, or it is noise
def Offers (P : Endpoint κ) (records : List Message) (d : Delivery) : Prop :=
  ∀ m, P.decode d.value = some m →
    (m ∈ records ∧ isFreshDhtTimestamp m.timestamp d.now = true) ∨
      (m ∉ records ∧ isFreshDhtTimestamp m.timestamp d.now = false)

structure NewestInv (P : Endpoint κ) (records : List Message) (s₀ : ListenerState) (tr : List ListenerEntry)
    (s : ListenerState) : Prop where
  newest : (s = s₀ ∧ ∀ en ∈ tr, ∀ m ∈ records, P.decode en.event.value ≠ some m) ∨
    ∃ m ∈ records, s.lastTimestamp = some m.timestamp ∧ Reflects P m s ∧
      ∀ en ∈ tr, ∀ m' ∈ records, P.decode en.event.value = some m' → m'.timestamp ≤ m.timestamp

theorem newestInv_step (hclear : P.flags.noClear = false) {records : List Message} {s₀ s s' : ListenerState}
    (h0 : s₀.lastTimestamp = none) {tr : List ListenerEntry} {d : Delivery} {o : Option Message}
    (hI : NewestInv P records s₀ tr s) (hst : P.listener.step s d = some (s', o)) (hd : Offers P records d) :
    NewestInv P records s₀ (tr ++ [⟨s, d, o, s'⟩]) s' := by
  rcases listener_step_cases hst with ⟨ho, hs, hrec⟩ | ⟨m, ho, hrec, _, _⟩
  · -- a record that is refused is not newer than the last one
    subst hs
    have hold : ∀ m ∈ records, P.decode d.value = some m → ∃ l, s'.lastTimestamp = some l ∧ m.timestamp ≤ l := by
      intro m hm hdec
      by_contra hno
      have hfresh : isFreshDhtTimestamp m.timestamp d.now = true := by
        rcases hd m hdec with h | h
        · exact h.2
        · exact absurd hm h.1
      have hr : P.receive s'.lastTimestamp d.value d.now = some m :=
        P.receive_eq_some.mpr ⟨hdec, hfresh, fun l hl => by
          by_contra hle
          exact hno ⟨l, hl, by omega⟩⟩
      rw [hrec] at hr; cases hr
    refine ⟨?_⟩
    rcases hI.newest with ⟨rfl, hnone⟩ | ⟨m, hm, hl, hrefl, hmax⟩
    · refine .inl ⟨rfl, fun en hen m hm => ?_⟩
      rcases List.mem_append.mp hen with hen | hen
      · exact hnone en hen m hm
      · obtain rfl := List.mem_singleton.mp hen
        intro hdec
        obtain ⟨l, hl, _⟩ := hold m hm hdec
        rw [h0] at hl; cases hl
    · refine .inr ⟨m, hm, hl, hrefl, fun en hen m' hm' hdec => ?_⟩
      rcases List.mem_append.mp hen with hen | hen
      · exact hmax en hen m' hm' hdec
      · obtain rfl := List.mem_singleton.mp hen
        obtain ⟨l, hl', hle⟩ := hold m' hm' hdec
        rw [hl] at hl'; cases hl'
        exact hle
  · subst ho
    obtain ⟨hdec, hfresh, hnew⟩ := P.receive_eq_some.mp hrec
    have hm : m ∈ records := by
      rcases hd m hdec with h | h
      · exact h.1
      · rw [hfresh] at h; cases h.2
    obtain ⟨hl, hrefl⟩ := listener_reflects hclear hst
    refine ⟨.inr ⟨m, hm, hl, hrefl, fun en hen m' hm' hdec' => ?_⟩⟩
    rcases List.mem_append.mp hen with hen | hen
    · rcases hI.newest with ⟨_, hnone⟩ | ⟨m₀, _, hl₀, _, hmax⟩
      · exact absurd hdec' (hnone en hen m' hm')
      · have h1 := hmax en hen m' hm' hdec'
        have h2 := hnew _ hl₀
        omega
    · obtain rfl := List.mem_singleton.mp hen
      rw [hdec] at hdec'; cases hdec'
      exact Int.le_refl _

theorem newestInv_run (hclear : P.flags.noClear = false) {records : List Message} {s₀ s : ListenerState}
    (h0 : s₀.lastTimestamp = none) {tr : List ListenerEntry} (hr : P.listener.Run s₀ tr s)
    (hd : ∀ en ∈ tr, Offers P records en.event) : NewestInv P records s₀ tr s :=
  hr.history (C := fun en => Offers P records en.event) (P := NewestInv P records s₀)
    ⟨.inl ⟨rfl, fun _ hen => (by cases hen)⟩⟩
    (fun _ _ _ _ _ _ hI hst hc => newestInv_step hclear h0 hI hst hc) hd

/-- After every record has been offered, the newest one is in force. -/
theorem newest_in_force (hclear : P.flags.noClear = false) {records : List Message} {s₀ s : ListenerState}
    (h0 : s₀.lastTimestamp = none) {tr : List ListenerEntry} (hr : P.listener.Run s₀ tr s)
    (hd : ∀ en ∈ tr, Offers P records en.event)
    (hall : ∀ m ∈ records, ∃ en ∈ tr, P.decode en.event.value = some m) :
    (records = [] ∧ s = s₀) ∨ ∃ m ∈ records, Reflects P m s ∧ ∀ m' ∈ records, m'.timestamp ≤ m.timestamp := by
  rcases (newestInv_run hclear h0 hr hd).newest with ⟨hs, hnone⟩ | ⟨m, hm, _, hrefl, hmax⟩
  · refine .inl ⟨List.eq_nil_iff_forall_not_mem.mpr fun m hm => ?_, hs⟩
    obtain ⟨en, hen, hdec⟩ := hall m hm
    exact hnone en hen m hm hdec
  · refine .inr ⟨m, hm, hrefl, fun m' hm' => ?_⟩
    obtain ⟨en, hen, hdec⟩ := hall m' hm'
    exact hmax en hen m' hm' hdec

/-- **Last writer wins.** Any two sequences that offer the same fresh
records, with whatever noise between them, end with the same advertised set,
remote token and probed addresses: those of the newest record. -/
theorem last_writer_wins (hclear : P.flags.noClear = false) {records : List Message}
    (hdist : (records.map (·.timestamp)).Nodup) {s₀ s₁ s₂ : ListenerState}
    (h0 : s₀.lastTimestamp = none) {tr₁ tr₂ : List ListenerEntry}
    (hr₁ : P.listener.Run s₀ tr₁ s₁) (hr₂ : P.listener.Run s₀ tr₂ s₂)
    (hd₁ : ∀ en ∈ tr₁, Offers P records en.event) (hd₂ : ∀ en ∈ tr₂, Offers P records en.event)
    (hall₁ : ∀ m ∈ records, ∃ en ∈ tr₁, P.decode en.event.value = some m)
    (hall₂ : ∀ m ∈ records, ∃ en ∈ tr₂, P.decode en.event.value = some m) :
    (s₁.connections.advertised = s₂.connections.advertised ∧ s₁.probes.remoteToken = s₂.probes.remoteToken ∧
      s₁.probes.paths.keys = s₂.probes.paths.keys) ∧
    ∀ m ∈ records, (∀ m' ∈ records, m'.timestamp ≤ m.timestamp) → Reflects P m s₁ ∧ Reflects P m s₂ := by
  have huniq : ∀ m ∈ records, ∀ m' ∈ records, m.timestamp = m'.timestamp → m = m' := by
    intro m hm m' hm' ht
    exact List.inj_on_of_nodup_map hdist hm hm' ht
  rcases newest_in_force hclear h0 hr₁ hd₁ hall₁ with ⟨hnil, rfl⟩ | ⟨m₁, hm₁, hf₁, hmax₁⟩
  · rcases newest_in_force hclear h0 hr₂ hd₂ hall₂ with ⟨_, rfl⟩ | ⟨m₂, hm₂, _⟩
    · refine ⟨⟨rfl, rfl, rfl⟩, fun m hm => ?_⟩
      rw [hnil] at hm; cases hm
    · rw [hnil] at hm₂; cases hm₂
  · rcases newest_in_force hclear h0 hr₂ hd₂ hall₂ with ⟨hnil, _⟩ | ⟨m₂, hm₂, hf₂, hmax₂⟩
    · rw [hnil] at hm₁; cases hm₁
    · have hle := hmax₁ m₂ hm₂
      have hge := hmax₂ m₁ hm₁
      obtain rfl := huniq m₁ hm₁ m₂ hm₂ (by omega)
      refine ⟨⟨by rw [hf₁.advertised, hf₂.advertised], by rw [hf₁.remoteToken, hf₂.remoteToken],
        by rw [hf₁.paths, hf₂.paths]⟩, fun m hm hmax => ?_⟩
      have h1 := hmax m₁ hm₁
      have h2 := hmax₁ m hm
      obtain rfl := huniq m hm m₁ hm₁ (by omega)
      exact ⟨hf₁, hf₂⟩

end

theorem offers_of_decode {κ : Type} {P : Endpoint κ} {records : List Message} {d : Delivery} {m : Message}
    (hdec : P.decode d.value = some m) (hm : m ∈ records)
    (hf : isFreshDhtTimestamp m.timestamp d.now = true) : Offers P records d := by
  intro m' hdec'
  rw [hdec] at hdec'; cases hdec'
  exact .inl ⟨hm, hf⟩

def sampleReversed : List Delivery :=
  [⟨sampleValue sampleNewText, secs 250, [], [.testNet 2 10000], 0⟩,
    ⟨sampleValue sampleOldText, secs 260, [], [], 0⟩]

theorem sampleReversed_runs :
    ((sampleEndpoint ⟨false, false⟩).listener.exec (.new (.fill 7)) sampleReversed).isSome = true := by decide +kernel

theorem sample_offers {d : Delivery} (hd : d ∈ sampleDeliveries ∨ d ∈ sampleReversed) :
    Offers (sampleEndpoint ⟨false, false⟩) [sampleOld, sampleNew] d := by
  simp only [sampleDeliveries, sampleReversed, List.mem_cons, List.not_mem_nil, or_false] at hd
  rcases hd with (rfl | rfl | rfl | rfl) | (rfl | rfl)
  · exact offers_of_decode (m := sampleOld) (by decide +kernel) (by decide +kernel) (by decide +kernel)
  · intro m hm
    have hnone : (sampleEndpoint ⟨false, false⟩).decode [1, 2, 3] = none := by decide +kernel
    rw [hnone] at hm; cases hm
  · exact offers_of_decode (m := sampleNew) (by decide +kernel) (by decide +kernel) (by decide +kernel)
  · exact offers_of_decode (m := sampleOld) (by decide +kernel) (by decide +kernel) (by decide +kernel)
  · exact offers_of_decode (m := sampleNew) (by decide +kernel) (by decide +kernel) (by decide +kernel)
  · exact offers_of_decode (m := sampleOld) (by decide +kernel) (by decide +kernel) (by decide +kernel)

theorem sample_last_writer_wins : ∃ tr₁ s₁ tr₂ s₂,
    (sampleEndpoint ⟨false, false⟩).listener.Run (.new (.fill 7)) tr₁ s₁ ∧
    (sampleEndpoint ⟨false, false⟩).listener.Run (.new (.fill 7)) tr₂ s₂ ∧
    tr₁.length ≠ tr₂.length ∧ s₁.connections.advertised = s₂.connections.advertised ∧
    Reflects (sampleEndpoint ⟨false, false⟩) sampleNew s₁ := by
  have hwins := last_writer_wins (P := sampleEndpoint ⟨false, false⟩) rfl
    (by decide +kernel : ([sampleOld, sampleNew].map (·.timestamp)).Nodup) rfl
    (Machine.run_of_exec sampleDeliveries_runs) (Machine.run_of_exec sampleReversed_runs)
    (fun en hen => sample_offers (.inl (Machine.event_mem_of_exec _ hen)))
    (fun en hen => sample_offers (.inr (Machine.event_mem_of_exec _ hen)))
    (by decide +kernel) (by decide +kernel)
  exact ⟨_, _, _, _, Machine.run_of_exec sampleDeliveries_runs, Machine.run_of_exec sampleReversed_runs,
    by decide +kernel, hwins.1.1, (hwins.2 sampleNew (by decide +kernel) (by decide +kernel)).1⟩

end P2pTunnler
