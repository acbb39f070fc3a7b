import P2pTunnler.GatingSound
import P2pTunnler.PathsSound

/-!
# Where a connection sends

Addresses enter a connection through records and through sources that present
the run token. What holds of every address that records bring in holds of the
advertised set, of the probe paths and of the due frames in every state; the
loopback fan-out and the echoes also depend on the other door.
-/

namespace P2pTunnler

open Finset (Enumerates)

/-! ## What records bring in -/

def ListenerTask.Confined {κ : Type} (P : Endpoint κ) (Q : SocketAddr → Prop) : ListenerTask → Prop
  | waiting => True
  | reading m => ∀ a ∈ P.flags.recordPeers m, Q a
  | replacing _ updated => ∀ a ∈ updated, Q a
  | updating _ updated => ∀ a ∈ updated, Q a

structure RecordConfined {κ : Type} (P : Endpoint κ) (Q : SocketAddr → Prop) (s : ConnState) : Prop where
  advertised : ∀ a ∈ s.connections.advertised, Q a
  listener : s.listener.Confined P Q
  paths : ∀ a ∈ s.probes.paths.keys, Q a
  scheduler : ∀ d ∈ s.scheduler, Q d.2

/-- The record that a step accepts lists only `Q` addresses. -/
def Brings {κ : Type} (P : Endpoint κ) (Q : SocketAddr → Prop) (s : ConnState) (e : ConnEvent) : Prop :=
  ∀ value now m, e = .listener (.value value now) → P.receive s.lastTimestamp value now = some m →
    ∀ a ∈ P.flags.recordPeers m, Q a

section
variable {κ : Type} {P : Endpoint κ} {Q : SocketAddr → Prop} {tok : Token} {tr : List ConnEntry}
  {s s' : ConnState} {o : ConnOut}

theorem mem_updateRemote_keys {st : ProbeState} {token : Option Token} {order : List SocketAddr} {now : Nat}
    {a : SocketAddr} (h : a ∈ (st.updateRemote token order now).paths.keys) : a ∈ order := by
  rw [FinTable.mem_keys, ProbeState.updateRemote_lookup] at h
  by_cases hc : token = none ∨ a ∉ ProbeState.selected order
  · rw [if_pos hc] at h; cases h
  · have hsel := not_not.mp (not_or.mp hc).2
    have hsub := Finset.insertUpTo_subset _ _ _ hsel
    simpa using hsub

theorem recordConfined_listener {e : ListenerEvent} (hI : RecordConfined P Q s)
    (h : listenerStep P s e = some (s', o)) (hacc : Brings P Q s (.listener e)) : RecordConfined P Q s' := by
  have hl := hI.listener
  rcases listenerStep_cases h with ⟨_, _, _, rfl, _⟩ | ⟨value, now, m, rfl, _, hrec, _, rfl⟩ |
    ⟨known, m, _, hm, hk, _, rfl⟩ | ⟨m, u, _, hm, _, _, rfl⟩ | ⟨order, instant, m, u, _, hm, hord, _, rfl⟩
  · exact hI
  · exact { hI with listener := hacc value now m rfl hrec }
  · rw [hm] at hl
    have hupd : ∀ a ∈ P.flags.updatedPeers m known, Q a := by
      intro a ha
      rcases P.flags.mem_updatedPeers ha with ha | ⟨_, ha, _⟩
      · exact hl a ha
      · exact hI.advertised a (hk.mem.mp ha)
    refine { hI with listener := ?_ }
    show ListenerTask.Confined P Q (if _ then _ else _)
    split
    · exact hupd
    · exact hupd
  · rw [hm] at hl
    exact { hI with advertised := hl, listener := hl }
  · rw [hm] at hl
    refine { hI with listener := trivial, paths := fun a ha => ?_ }
    exact hl a (hord.mem.mp (mem_updateRemote_keys ha))

theorem recordConfined_step {e : ConnEvent} (hI : RecordConfined P Q s)
    (h : (connection P).step s e = some (s', o)) (hacc : Brings P Q s e) : RecordConfined P Q s' := by
  cases e with
  | listener e => exact recordConfined_listener hI h hacc
  | handler e =>
    rcases handlerStep_cases h with ⟨_, _, _, _, _, _, rfl⟩ | ⟨now, jitter, p, a, _, _, _, rfl⟩ |
      ⟨p, a, _, _, _, _, rfl⟩ | ⟨_, _, _, he⟩
    · exact { hI with }
    · exact { hI with paths := fun x hx => hI.paths x (ProbeState.packetAction_keys _ _ _ _ _ ▸ hx) }
    · exact { hI with advertised := fun x hx => hI.advertised x (CandidateSet.addPeerReflexive_advertised _ _ ▸ hx) }
    · cases he; exact { hI with }
  | inbound e =>
    rcases inboundStep_cases h with ⟨_, _, _, _, _, _, rfl⟩ | ⟨_, _, _, _, rfl⟩ | ⟨rfl, _⟩ | ⟨_, _, _, _, _, _, rfl⟩ <;>
      exact { hI with }
  | loopback e =>
    rcases loopbackStep_cases h with ⟨_, _, _, _, _, rfl⟩ | ⟨_, _, _, _, _, _, _, rfl⟩ | ⟨_, _, _, _, he⟩
    · exact { hI with }
    · exact { hI with }
    · cases he; exact { hI with }
  | scheduler e =>
    rcases schedulerStep_cases h with ⟨now, order, jitter, _, _, rfl⟩ | ⟨d, rest, hs, he⟩
    · refine { hI with paths := fun x hx => hI.paths x (ProbeState.dueFrames_keys ▸ hx), scheduler := fun d hd => ?_ }
      obtain ⟨_, _, _, _, hp, _⟩ := ProbeState.mem_dueFrames (f := d.1) (s := d.2) hd
      exact hI.paths d.2 (FinTable.mem_keys_of_lookup hp)
    · cases he
      exact { hI with scheduler := fun x hx => hI.scheduler x (by rw [hs]; exact List.mem_cons_of_mem _ hx) }
  | socket e =>
    rcases socketStep_cases h with ⟨_, _, _, _, _, _, _, _, rfl⟩ | ⟨_, _, _, rfl⟩ | ⟨_, _, _, _, _, rfl⟩ |
      ⟨_, _, _, _, _, _, rfl⟩ <;>
      exact { hI with }

theorem recordConfined_new : RecordConfined P Q (.new tok) :=
  ⟨fun a ha => absurd ha (Finset.notMem_empty a), trivial, fun a ha => absurd ha (Finset.notMem_empty a), nofun⟩

theorem recordConfined_run (hr : (connection P).Run (.new tok) tr s)
    (hacc : ∀ en ∈ tr, Brings P Q en.pre en.event) : RecordConfined P Q s :=
  hr.invariant (C := fun en => Brings P Q en.pre en.event)
    recordConfined_new (fun _ _ _ _ hI hst hc => recordConfined_step hI hst hc) hacc

/-! ## No unusable destination from a record -/

/-- An IPv4-mapped address whose IPv4 address is loopback, unspecified or multicast. -/
def mappedUnusable : SocketAddr → Bool
  | .v4 _ _ => false
  | .v6 ip _ _ _ => ip.toIpv4Mapped.any fun ip => ip.isLoopback || ip.isUnspecified || ip.isMulticast

/-- A value that the listener accepts lists no such address. -/
def mapsUsable (P : Endpoint κ) (en : ConnEntry) : Bool :=
  match en.event with
  | .listener (.value value now) =>
    (P.receive en.pre.lastTimestamp value now).all fun m => (P.flags.recordPeers m).all fun a => !mappedUnusable a
  | _ => true

/-- Every advertised or probed address is usable as the socket sees it. -/
def UsableDestinations (s : ConnState) : Prop :=
  (∀ a ∈ s.connections.advertised, isUsablePeerAddr (normalizeIpv4MappedSource a) = true) ∧
    ∀ a ∈ s.probes.paths.keys, isUsablePeerAddr (normalizeIpv4MappedSource a) = true

theorem usable_normalized {a : SocketAddr} (h : isUsablePeerAddr a = true) (hm : mappedUnusable a = false) :
    isUsablePeerAddr (normalizeIpv4MappedSource a) = true := by
  cases a with
  | v4 ip port => exact h
  | v6 ip port f sc =>
    simp only [normalizeIpv4MappedSource]
    split
    · exact h
    · rename_i ip' hip
      simp only [mappedUnusable, hip, Option.any_some, Bool.or_eq_false_iff] at hm
      simp only [isUsablePeerAddr, Bool.and_eq_true, Bool.not_eq_true', decide_eq_true_eq] at h ⊢
      exact ⟨⟨⟨hm.1.1, hm.1.2⟩, hm.2⟩, h.2⟩

/-- **No unusable destination from a record**, as long as no record lists the
IPv4-mapped form of a loopback, unspecified or multicast address. -/
theorem usable_destinations (hr : (connection P).Run (.new tok) tr s) (hC : ∀ en ∈ tr, mapsUsable P en = true) :
    UsableDestinations s := by
  have hI : RecordConfined P (fun a => isUsablePeerAddr (normalizeIpv4MappedSource a) = true) s := by
    refine recordConfined_run hr fun en hen value now m he hrec a ha => ?_
    have hm := hC en hen
    simp only [mapsUsable, he, hrec, Option.all_some] at hm
    have ha' := List.all_eq_true.mp hm a ha
    exact usable_normalized (P.flags.mem_recordPeers ha).2.2 (by simpa using ha')
  exact ⟨hI.advertised, hI.paths⟩

theorem sampleTraffic_usable : ∃ tr s, (connection (sampleEndpoint ⟨false, false⟩)).Run (.new (.fill 7)) tr s ∧
    s.connections.advertised = {.testNet 1 10000} ∧ UsableDestinations s :=
  ⟨_, _, Machine.run_of_exec sampleTraffic_runs, by decide +kernel,
    usable_destinations (Machine.run_of_exec sampleTraffic_runs) (List.all_eq_true.mp (by decide +kernel))⟩

def mappedTraffic : List ConnEvent :=
  [.listener (.value (sampleValue sampleMappedText) (secs 150)), .listener (.read []), .listener .replace]

theorem mappedTraffic_runs :
    ((connection (sampleEndpoint ⟨false, false⟩)).exec (.new (.fill 7)) mappedTraffic).isSome = true := by
  decide +kernel

/-- A record may advertise the loopback address in its IPv4-mapped form. -/
theorem mapped_loopback_advertised : ¬ ∀ tr s,
    (connection (sampleEndpoint ⟨false, false⟩)).Run (.new (.fill 7)) tr s → UsableDestinations s := by
  intro h
  have hall := h _ _ (Machine.run_of_exec mappedTraffic_runs)
  have := hall.1 mappedLoopback (by decide +kernel)
  exact absurd this (by decide)

/-! ## Send and receive symmetry -/

def Ipv4Addr.toIpv6Mapped (ip : Ipv4Addr) : Ipv6Addr :=
  ⟨⟨List.replicate 10 0 ++ [0xff, 0xff] ++ ip.octets.toList, by simp⟩⟩

/-- The source addresses that a dual-stack socket may report for the endpoint
that `a` denotes, with the flow label and the scope id taken as zero. -/
def Reports (raw : SocketAddr) : SocketAddr → Prop
  | .v4 ip port => raw = .v4 ip port ∨ raw = .v6 ip.toIpv6Mapped port 0 0
  | .v6 ip port _ _ =>
    match ip.toIpv4Mapped with
    | some ip => raw = .v4 ip port ∨ raw = .v6 ip.toIpv6Mapped port 0 0
    | none => raw = .v6 ip port 0 0

/-- Spelled as the receive boundary spells it: not IPv4-mapped, and without a flow label or a scope id. -/
def isCanonical : SocketAddr → Bool
  | .v4 _ _ => true
  | .v6 ip _ flowinfo scopeId => ip.toIpv4Mapped.isNone && flowinfo == 0 && scopeId == 0

/-- A value that the listener accepts lists only such addresses. -/
def listsCanonical (P : Endpoint κ) (en : ConnEntry) : Bool :=
  match en.event with
  | .listener (.value value now) =>
    (P.receive en.pre.lastTimestamp value now).all fun m => (P.flags.recordPeers m).all isCanonical
  | _ => true

/-- What comes from the endpoint of an advertised address comes from a
candidate, and acknowledges the probe that waits for it. -/
def Symmetric (s : ConnState) : Prop :=
  ∀ a ∈ s.connections.advertised, ∀ raw, Reports raw a →
    s.connections.contains (normalizeIpv4MappedSource raw) = true ∧
    ∀ t path now jitter, s.probes.remoteToken = some t → t ≠ s.probes.localToken →
      s.probes.paths.lookup a = some path → path.outstanding.isSome = true →
      (s.probes.packetAction (frame t) (normalizeIpv4MappedSource raw) now jitter).2 = .acknowledged

@[simp] theorem toIpv4Mapped_toIpv6Mapped (ip : Ipv4Addr) : ip.toIpv6Mapped.toIpv4Mapped = some ip := by
  have htake : ip.toIpv6Mapped.octets.toList.take 12 = List.replicate 10 0 ++ [0xff, 0xff] := rfl
  unfold Ipv6Addr.toIpv4Mapped
  rw [if_pos htake]
  rfl

/-- Only a canonical address is what all its sources are rewritten to. -/
theorem normalized_iff {a : SocketAddr} :
    (∀ raw, Reports raw a → normalizeIpv4MappedSource raw = a) ↔ isCanonical a = true := by
  cases a with
  | v4 ip port =>
    refine ⟨fun _ => rfl, fun _ raw hraw => ?_⟩
    rcases hraw with rfl | rfl
    · rfl
    · simp [normalizeIpv4MappedSource, SocketAddr.new]
  | v6 ip port flowinfo scopeId =>
    cases hm : ip.toIpv4Mapped with
    | some ip' =>
      constructor
      · intro h
        have hv4 := h (.v4 ip' port) (by simp [Reports, hm])
        cases hv4
      · intro h
        simp [isCanonical, hm] at h
    | none =>
      have hself : normalizeIpv4MappedSource (.v6 ip port 0 0) = .v6 ip port 0 0 := by
        simp [normalizeIpv4MappedSource, hm]
      constructor
      · intro h
        have hzero := hself.symm.trans (h (.v6 ip port 0 0) (by simp [Reports, hm]))
        cases hzero
        simp [isCanonical, hm]
      · intro h raw hraw
        simp only [Reports, hm] at hraw
        simp only [isCanonical, hm, Option.isNone_none, Bool.true_and, Bool.and_eq_true, beq_iff_eq] at h
        rw [hraw, hself, h.1, h.2]

/-- **Send and receive symmetry**, as long as every record spells its addresses as the receive boundary does. -/
theorem candidates_symmetric (hr : (connection P).Run (.new tok) tr s) (hC : ∀ en ∈ tr, listsCanonical P en = true) :
    Symmetric s := by
  have hI : RecordConfined P (fun a => isCanonical a = true) s := by
    refine recordConfined_run hr fun en hen value now m he hrec a ha => ?_
    have hm := hC en hen
    simp only [listsCanonical, he, hrec, Option.all_some] at hm
    exact List.all_eq_true.mp hm a ha
  intro a ha raw hraw
  rw [normalized_iff.mpr (hI.advertised a ha) raw hraw]
  refine ⟨(s.connections.contains_iff a).mpr (.inl ha), ?_⟩
  intro t path now jitter ht hne hp ho
  exact ProbeState.packetAction_acknowledges ht hne hp ho now jitter

theorem sampleRecords_symmetric : ∃ tr s, (connection (sampleEndpoint ⟨false, false⟩)).Run (.new (.fill 7)) tr s ∧
    s.connections.advertised = {.testNet 2 10000} ∧
    (s.probes.paths.lookup (.testNet 2 10000)).any (·.outstanding.isSome) = true ∧ Symmetric s :=
  ⟨_, _, Machine.run_of_exec sampleRecords_runs, by decide +kernel, by decide +kernel,
    candidates_symmetric (Machine.run_of_exec sampleRecords_runs) (List.all_eq_true.mp (by decide +kernel))⟩

/-- What the endpoint of an IPv4-mapped candidate sends comes from no candidate. -/
theorem mapped_candidate_deaf : ¬ ∀ tr s,
    (connection (sampleEndpoint ⟨false, false⟩)).Run (.new (.fill 7)) tr s → Symmetric s := by
  intro h
  have hall := h _ _ (Machine.run_of_exec mappedTraffic_runs)
  have hraw : Reports (.v4 (.new 127 0 0 1) 5000) mappedLoopback := .inl rfl
  have := (hall mappedLoopback (by decide +kernel) _ hraw).1
  revert this
  decide +kernel

/-! ## IPv4-only confinement -/

def HandlerTask.Confined (Q : SocketAddr → Prop) : HandlerTask → Prop
  | admitting _ source => Q source
  | echoing _ source => Q source
  | _ => True

def LoopbackTask.Confined (Q : SocketAddr → Prop) : LoopbackTask → Prop
  | sending _ peers => ∀ a ∈ peers, Q a
  | _ => True

structure SendConfined (P : Endpoint κ) (s : ConnState) : Prop where
  records : RecordConfined P (fun a => a.isIpv4 = true) s
  peerReflexive : ∀ a ∈ s.connections.peerReflexive, a.isIpv4 = true
  handler : s.handler.Confined fun a => a.isIpv4 = true
  loopback : s.loopback.Confined fun a => a.isIpv4 = true

/-- A source that presents the run token is IPv4, or is turned away because the reply table is full. -/
def presentsIpv4 (en : ConnEntry) : Bool :=
  match en.event, en.pre.handler with
  | .handler (.act now _), .acting packet source =>
    decide (packet ≠ frame en.pre.probes.localToken) || source.isIpv4 ||
      decide (maxReplySources ≤ (en.pre.probes.recentReplies now).size ∧
        source ∉ (en.pre.probes.recentReplies now).keys)
  | _, _ => true

/-- The candidates of the final state and every datagram offered to the Internet socket are IPv4. -/
def Ipv4Confined (tr : List ConnEntry) (s : ConnState) : Prop :=
  (∀ l₁ l₂, Enumerates l₁ s.connections.advertised → Enumerates l₂ s.connections.peerReflexive →
    ∀ a ∈ s.connections.addresses l₁ l₂, a.isIpv4 = true) ∧
  ∀ en ∈ tr, ∀ origin d queued, en.out = .offered origin d queued → origin ≠ .stun → d.2.isIpv4 = true

theorem SendConfined.contains (hI : SendConfined P s) {a : SocketAddr} (h : s.connections.contains a = true) :
    a.isIpv4 = true := by
  rcases (s.connections.contains_iff a).mp h with h | h
  · exact hI.records.advertised a h
  · exact hI.peerReflexive a h

theorem SendConfined.addresses (hI : SendConfined P s) {l₁ l₂ : List SocketAddr}
    (h₁ : Enumerates l₁ s.connections.advertised) (h₂ : Enumerates l₂ s.connections.peerReflexive) {a : SocketAddr}
    (ha : a ∈ s.connections.addresses l₁ l₂) : a.isIpv4 = true :=
  hI.contains (CandidateSet.mem_addresses (fun _ h => h₁.mem.mp h) (fun _ h => h₂.mem.mp h) ha)

theorem sendConfined_handler {e : HandlerEvent} (hI : SendConfined P s)
    (hrec : RecordConfined P (fun a => a.isIpv4 = true) s') (h : handlerStep s e = some (s', o))
    (hC : presentsIpv4 ⟨s, .handler e, o, s'⟩ = true) : SendConfined P s' := by
  have hh := hI.handler
  rcases handlerStep_cases h with ⟨_, _, _, _, _, _, rfl⟩ | ⟨now, jitter, p, a, rfl, ha, _, rfl⟩ |
    ⟨p, a, _, ha, _, _, rfl⟩ | ⟨p, a, _, he⟩
  · exact { hI with records := hrec, handler := trivial }
  · refine { hI with records := hrec, handler := ?_ }
    show HandlerTask.Confined _ (if _ then _ else _)
    split
    · rename_i hact
      simp only [presentsIpv4, ha] at hC
      rcases s.probes.packetAction_cases p a now jitter with ⟨hd, _⟩ | ⟨_, hp, _, hroom, _⟩ | ⟨hd, _⟩
      · rw [hact] at hd; cases hd
      · simp only [hp, ne_eq, not_true_eq_false, decide_false, Bool.false_or, Bool.or_eq_true,
          decide_eq_true_eq] at hC
        rcases hC with hC | ⟨hfull, _⟩
        · exact hC
        · exact absurd hroom (Nat.not_lt.mpr hfull)
      · rw [hact] at hd; cases hd
    · trivial
  · rw [ha] at hh
    refine { hI with records := hrec, handler := hh, peerReflexive := fun x hx => ?_ }
    rcases CandidateSet.mem_addPeerReflexive hx with rfl | hx
    · exact hh
    · exact hI.peerReflexive x hx
  · cases he
    exact { hI with records := hrec, handler := trivial }

theorem sendConfined_step (hf : P.flags.filterIpv6 = true) {e : ConnEvent} (hI : SendConfined P s)
    (h : (connection P).step s e = some (s', o)) (hC : presentsIpv4 ⟨s, e, o, s'⟩ = true) : SendConfined P s' := by
  have hrec : RecordConfined P (fun a => a.isIpv4 = true) s' :=
    recordConfined_step hI.records h fun _ _ m _ _ a ha => (P.flags.mem_recordPeers ha).2.1 hf
  cases e with
  | handler e => exact sendConfined_handler hI hrec h hC
  | listener e =>
    rcases listenerStep_cases h with ⟨_, _, _, rfl, _⟩ | ⟨_, _, _, _, _, _, _, rfl⟩ | ⟨_, _, _, _, _, _, rfl⟩ |
      ⟨_, _, _, _, _, _, rfl⟩ | ⟨_, _, _, _, _, _, _, _, rfl⟩ <;> exact { hI with records := hrec }
  | inbound e =>
    rcases inboundStep_cases h with ⟨_, _, _, _, _, _, rfl⟩ | ⟨_, _, _, _, rfl⟩ | ⟨rfl, _⟩ | ⟨_, _, _, _, _, _, rfl⟩ <;>
      exact { hI with records := hrec }
  | loopback e =>
    rcases loopbackStep_cases h with ⟨_, _, lb, hlb, _, rfl⟩ | ⟨_, _, _, _, h₁, h₂, _, rfl⟩ | ⟨p, a, rest, hs, he⟩
    · refine { hI with records := hrec, loopback := ?_ }
      cases lb with
      | sending p peers => exact absurd rfl (hlb p peers)
      | _ => trivial
    · exact { hI with records := hrec, loopback := fun a ha => hI.addresses h₁ h₂ ha }
    · have hl := hI.loopback
      rw [hs] at hl
      cases he
      exact { hI with records := hrec, loopback := fun x hx => hl x (List.mem_cons_of_mem _ hx) }
  | scheduler e =>
    rcases schedulerStep_cases h with ⟨_, _, _, _, _, rfl⟩ | ⟨_, _, _, he⟩
    · exact { hI with records := hrec }
    · cases he; exact { hI with records := hrec }
  | socket e =>
    rcases socketStep_cases h with ⟨_, _, _, _, _, _, _, _, rfl⟩ | ⟨_, _, _, rfl⟩ | ⟨_, _, _, _, _, rfl⟩ |
      ⟨_, _, _, _, _, _, rfl⟩ <;>
      exact { hI with records := hrec }

theorem sendConfined_run (hf : P.flags.filterIpv6 = true) (hr : (connection P).Run (.new tok) tr s)
    (hC : ∀ en ∈ tr, presentsIpv4 en = true) : SendConfined P s :=
  hr.invariant (C := fun en => presentsIpv4 en = true)
    ⟨recordConfined_new, fun a ha => absurd ha (Finset.notMem_empty a), trivial, trivial⟩
    (fun _ _ _ _ hI hst hc => sendConfined_step hf hI hst hc) hC

theorem SendConfined.offered (hI : SendConfined P s) {e : ConnEvent} {origin : Origin} {d : Datagram} {q : Bool}
    (h : (connection P).step s e = some (s', .offered origin d q)) (hne : origin ≠ .stun) : d.2.isIpv4 = true := by
  obtain ⟨rfl, hh⟩ | ⟨rfl, peers, hl⟩ | ⟨rfl, rest, hs⟩ | rfl := offered_cases h
  · have hsource := hI.handler
    rw [hh] at hsource
    exact hsource
  · have hpeers := hI.loopback
    rw [hl] at hpeers
    exact hpeers d.2 List.mem_cons_self
  · refine hI.records.scheduler d ?_
    rw [hs]
    exact List.mem_cons_self
  · exact absurd rfl hne

/-- **IPv4-only confinement of sending**, as long as only IPv4 sources get through with the run token. -/
theorem ipv4_confined (hf : P.flags.filterIpv6 = true) (hr : (connection P).Run (.new tok) tr s)
    (hC : ∀ en ∈ tr, presentsIpv4 en = true) : Ipv4Confined tr s := by
  refine ⟨fun l₁ l₂ h₁ h₂ a ha => (sendConfined_run hf hr hC).addresses h₁ h₂ ha, ?_⟩
  intro en hen origin d q hout hne
  obtain ⟨a, b, rfl⟩ := List.append_of_mem hen
  obtain ⟨hpre, hst⟩ := hr.split
  rw [hout] at hst
  exact (sendConfined_run hf hpre fun x hx => hC x (List.mem_append_left _ hx)).offered hst hne

end

def presentToken (source : SocketAddr) : List ConnEvent :=
  [.socket (.receive (frame (.fill 7), source)), .socket .recv, .socket .route, .handler .recv,
    .handler (.act 0 id), .handler .addSource, .handler .echo]

theorem presentToken_runs (source : SocketAddr) (h : source = .testNet 1 10000 ∨ source = .ipv6Source) :
    ((connection (sampleEndpoint ⟨true, false⟩)).exec (.new (.fill 7)) (presentToken source)).isSome = true := by
  rcases h with rfl | rfl <;> decide +kernel

theorem presentToken_confined : ∃ tr s, (connection (sampleEndpoint ⟨true, false⟩)).Run (.new (.fill 7)) tr s ∧
    s.connections.peerReflexive = {.testNet 1 10000} ∧ Ipv4Confined tr s :=
  ⟨_, _, Machine.run_of_exec (presentToken_runs _ (.inl rfl)), by decide +kernel,
    ipv4_confined rfl (Machine.run_of_exec (presentToken_runs _ (.inl rfl))) (List.all_eq_true.mp (by decide +kernel))⟩

/-- An IPv6 source that presents the run token becomes a candidate although `filter_ipv6` is set. -/
theorem ipv6_source_admitted : ¬ ∀ tr s, (connection (sampleEndpoint ⟨true, false⟩)).Run (.new (.fill 7)) tr s →
    Ipv4Confined tr s := by
  intro h
  have hall := h _ _ (Machine.run_of_exec (presentToken_runs _ (.inr rfl)))
  have := hall.1 [] [.ipv6Source] (by decide +kernel) (by decide +kernel) .ipv6Source (by decide +kernel)
  exact absurd this (by decide)

end P2pTunnler
