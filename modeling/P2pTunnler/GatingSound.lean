import P2pTunnler.ServiceLemmas

/-!
# Inbound gating

A datagram reaches the local WireGuard endpoint only from a source that was
in the record installed last, or that had presented the run token, when the
datagram was checked. Three invariants over the trace, whatever the
interleaving: where packets come from, where the advertised addresses come
from, and what the inbound task has checked.
-/

namespace P2pTunnler

open Finset (Enumerates)
open Machine (Since since_snoc)

/-! ## The past of a connection -/

def Arrived (tr : List ConnEntry) (packet : Bytes) (source : SocketAddr) : Prop :=
  ∃ en ∈ tr, ∃ raw, en.event = .socket (.receive (packet, raw)) ∧ normalizeIpv4MappedSource raw = source

def Accepted (tr : List ConnEntry) (m : Message) : Prop := ∃ en ∈ tr, en.out = .accepted m

/-- `m` is the record of the last `replace_advertised`. -/
def Installed (tr : List ConnEntry) (m : Message) : Prop :=
  Since (fun en => en.out = .replaced m) (fun en => ∀ m', en.out ≠ .replaced m') tr

/-- The record in force lists the source; with `no_clear`, some accepted record does. -/
def Listed {κ : Type} (P : Endpoint κ) (tr : List ConnEntry) (source : SocketAddr) : Prop :=
  ∃ m, Accepted tr m ∧ (P.flags.noClear = false → Installed tr m) ∧ source ∈ P.flags.recordPeers m

/-- The sources that may pass: those listed, and those that delivered the run token. -/
def Gate {κ : Type} (P : Endpoint κ) (tok : Token) (tr : List ConnEntry) (source : SocketAddr) : Prop :=
  Listed P tr source ∨ Arrived tr (frame tok) source

section
variable {tr : List ConnEntry} {en : ConnEntry}

theorem Arrived.snoc {p : Bytes} {a : SocketAddr} (h : Arrived tr p a) : Arrived (tr ++ [en]) p a := by
  obtain ⟨e, he, raw⟩ := h
  exact ⟨e, List.mem_append_left _ he, raw⟩

theorem Accepted.snoc {m : Message} (h : Accepted tr m) : Accepted (tr ++ [en]) m := by
  obtain ⟨e, he, ho⟩ := h
  exact ⟨e, List.mem_append_left _ he, ho⟩

theorem Installed.snoc {m : Message} (h : Installed tr m) (hen : ∀ m', en.out ≠ .replaced m') :
    Installed (tr ++ [en]) m := since_snoc.mpr (.inr ⟨hen, h⟩)

theorem Listed.snoc {κ : Type} {P : Endpoint κ} {a : SocketAddr} (h : Listed P tr a)
    (hen : ∀ m, en.out ≠ .replaced m) : Listed P (tr ++ [en]) a := by
  obtain ⟨m, hm, hinst, hp⟩ := h
  exact ⟨m, hm.snoc, fun hn => (hinst hn).snoc hen, hp⟩

theorem mem_trySend {α : Type} {q : List α} {d x : α} (h : x ∈ (trySend q d).1) : x = d ∨ x ∈ q := by
  unfold trySend at h
  split at h
  · rcases List.mem_append.mp h with h | h
    · exact .inr h
    · exact .inl (List.mem_singleton.mp h)
  · exact .inr h

theorem internetPacketKind_data {p : Bytes} (h : internetPacketKind p = .ok .data) : classify p = false := by
  unfold internetPacketKind at h
  split at h
  · split at h <;> cases h
  · rename_i hc
    exact Bool.eq_false_iff.mpr hc

end

/-! ## Where packets come from -/

def HandlerTask.From (tok : Token) (tr : List ConnEntry) : HandlerTask → Prop
  | waiting => True
  | acting packet source => Arrived tr packet source
  | admitting packet source => packet = frame tok ∧ Arrived tr packet source
  | echoing packet source => packet = frame tok ∧ Arrived tr packet source

def RouterTask.From (tr : List ConnEntry) : RouterTask → Prop
  | waiting => True
  | routing packet source => ∃ en ∈ tr, en.event = .socket (.receive (packet, source))

def InboundTask.From (tr : List ConnEntry) : InboundTask → Prop
  | waiting => True
  | checking packet source => Arrived tr packet source ∧ classify packet = false
  | delivering packet source => Arrived tr packet source ∧ classify packet = false

structure PacketInv (tok : Token) (tr : List ConnEntry) (s : ConnState) : Prop where
  localToken : s.probes.localToken = tok
  fromInternet : ∀ d ∈ s.fromInternet, ∃ en ∈ tr, en.event = .socket (.receive d)
  fromProbes : ∀ d ∈ s.fromProbes, Arrived tr d.1 d.2
  fromPeers : ∀ d ∈ s.fromPeers, Arrived tr d.1 d.2 ∧ classify d.1 = false
  router : s.router.From tr
  handler : s.handler.From tok tr
  inbound : s.inbound.From tr
  peerReflexive : ∀ a ∈ s.connections.peerReflexive, Arrived tr (frame tok) a

section
variable {tok : Token} {tr : List ConnEntry} {s s' : ConnState} {o : ConnOut}

theorem HandlerTask.From.snoc {t : HandlerTask} (h : t.From tok tr) {en : ConnEntry} : t.From tok (tr ++ [en]) := by
  cases t with
  | waiting => trivial
  | acting p a => exact Arrived.snoc h
  | admitting p a => exact ⟨h.1, h.2.snoc⟩
  | echoing p a => exact ⟨h.1, h.2.snoc⟩

theorem RouterTask.From.snoc {t : RouterTask} (h : t.From tr) {en : ConnEntry} : t.From (tr ++ [en]) := by
  cases t with
  | waiting => trivial
  | routing p a =>
    obtain ⟨e, he, hev⟩ := h
    exact ⟨e, List.mem_append_left _ he, hev⟩

theorem InboundTask.From.snoc {t : InboundTask} (h : t.From tr) {en : ConnEntry} : t.From (tr ++ [en]) := by
  cases t with
  | waiting => trivial
  | checking p a => exact ⟨h.1.snoc, h.2⟩
  | delivering p a => exact ⟨h.1.snoc, h.2⟩

theorem PacketInv.snoc (hI : PacketInv tok tr s) {en : ConnEntry} : PacketInv tok (tr ++ [en]) s where
  localToken := hI.localToken
  fromInternet d hd := by
    obtain ⟨e, he, hev⟩ := hI.fromInternet d hd
    exact ⟨e, List.mem_append_left _ he, hev⟩
  fromProbes d hd := (hI.fromProbes d hd).snoc
  fromPeers d hd := ⟨(hI.fromPeers d hd).1.snoc, (hI.fromPeers d hd).2⟩
  router := hI.router.snoc
  handler := hI.handler.snoc
  inbound := hI.inbound.snoc
  peerReflexive a ha := (hI.peerReflexive a ha).snoc

theorem packetInv_handler {e : HandlerEvent} (hI : PacketInv tok tr s) (h : handlerStep s e = some (s', o)) :
    PacketInv tok tr s' := by
  rcases handlerStep_cases h with ⟨p, a, rest, _, hq, _, rfl⟩ | ⟨now, jitter, p, a, _, ha, _, rfl⟩ |
    ⟨p, a, _, ha, _, _, rfl⟩ | ⟨p, a, ha, he⟩
  · have hd := hI.fromProbes (p, a) (by rw [hq]; exact List.mem_cons_self)
    exact { hI with
      fromProbes := fun d hd => hI.fromProbes d (by rw [hq]; exact List.mem_cons_of_mem _ hd)
      handler := hd }
  · have hfrom := hI.handler
    rw [ha] at hfrom
    have htok := (s.probes.packetAction_tokens p a now jitter).1
    have hpk : (s.probes.packetAction p a now jitter).2 = .echoAndAdmit → p = frame s.probes.localToken := by
      intro hact
      rcases s.probes.packetAction_cases p a now jitter with ⟨hd, -⟩ | ⟨-, hp, -⟩ | ⟨hd, -⟩
      · cases hd.symm.trans hact
      · exact hp
      · cases hd.symm.trans hact
    refine { hI with localToken := htok.trans hI.localToken, handler := ?_ }
    show HandlerTask.From tok tr (if _ then _ else _)
    split
    · rename_i hact
      exact ⟨hI.localToken ▸ hpk hact, hfrom⟩
    · trivial
  · have hfrom := hI.handler
    rw [ha] at hfrom
    refine { hI with handler := hfrom, peerReflexive := fun x hx => ?_ }
    rcases CandidateSet.mem_addPeerReflexive hx with rfl | hx
    · exact hfrom.1 ▸ hfrom.2
    · exact hI.peerReflexive x hx
  · cases he
    exact { hI with handler := trivial }

theorem packetInv_inbound {e : InboundEvent} (hI : PacketInv tok tr s) (h : inboundStep s e = some (s', o)) :
    PacketInv tok tr s' := by
  rcases inboundStep_cases h with ⟨p, a, rest, _, hq, _, rfl⟩ | ⟨p, a, hc, _, rfl⟩ | ⟨rfl, _⟩ | ⟨p, a, wg, _, _, _, rfl⟩
  · have hd := hI.fromPeers (p, a) (by rw [hq]; exact List.mem_cons_self)
    exact { hI with
      fromPeers := fun d hd => hI.fromPeers d (by rw [hq]; exact List.mem_cons_of_mem _ hd)
      inbound := hd }
  · have hfrom := hI.inbound
    rw [hc] at hfrom
    refine { hI with inbound := ?_ }
    show InboundTask.From tr (if _ then _ else _)
    split
    · exact hfrom
    · trivial
  · exact { hI with inbound := trivial }
  · exact { hI with inbound := trivial }

theorem packetInv_socket {e : SocketEvent} (hI : PacketInv tok tr s) (h : socketStep s e = some (s', o)) :
    PacketInv tok (tr ++ [⟨s, .socket e, o, s'⟩]) s' := by
  rcases socketStep_cases h with ⟨_, _, _, _, _, _, _, _, rfl⟩ | ⟨d, rfl, _, rfl⟩ | ⟨p, a, rest, hq, _, rfl⟩ |
    ⟨p, a, kind, hr, hk, _, rfl⟩
  · exact { hI.snoc with }
  · refine { hI.snoc with fromInternet := fun x hx => ?_ }
    rcases mem_trySend hx with rfl | hx
    · exact ⟨_, List.mem_append_right _ (List.mem_singleton.mpr rfl), rfl⟩
    · exact hI.snoc.fromInternet x hx
  · exact { hI.snoc with
      fromInternet := fun x hx => hI.snoc.fromInternet x (by rw [hq]; exact List.mem_cons_of_mem _ hx)
      router := hI.snoc.fromInternet (p, a) (by rw [hq]; exact List.mem_cons_self) }
  · have hfrom := hI.router
    rw [hr] at hfrom
    obtain ⟨en, hen, hev⟩ := hfrom
    have harr : Arrived tr p (normalizeIpv4MappedSource a) := ⟨en, hen, a, hev, rfl⟩
    refine { hI.snoc with fromProbes := fun x hx => ?_, fromPeers := fun x hx => ?_, router := trivial }
    · simp only at hx
      split at hx
      · rcases mem_trySend hx with rfl | hx
        · exact harr.snoc
        · exact hI.snoc.fromProbes x hx
      · exact hI.snoc.fromProbes x hx
    · simp only at hx
      split at hx
      · rename_i hdata
        rcases mem_trySend hx with rfl | hx
        · exact ⟨harr.snoc, internetPacketKind_data (hdata ▸ hk)⟩
        · exact hI.snoc.fromPeers x hx
      · exact hI.snoc.fromPeers x hx

variable {κ : Type} {P : Endpoint κ}

theorem packetInv_step {e : ConnEvent} (hI : PacketInv tok tr s) (h : (connection P).step s e = some (s', o)) :
    PacketInv tok (tr ++ [⟨s, e, o, s'⟩]) s' := by
  cases e with
  | listener e =>
    rcases listenerStep_cases h with ⟨_, _, _, rfl, _⟩ | ⟨_, _, _, _, _, _, _, rfl⟩ | ⟨_, _, _, _, _, _, rfl⟩ |
      ⟨_, _, _, _, _, _, rfl⟩ | ⟨order, instant, m, u, _, _, _, _, rfl⟩
    · exact hI.snoc
    · exact { hI.snoc with }
    · exact { hI.snoc with }
    · exact { hI.snoc with }
    · exact { hI.snoc with localToken := (s.probes.updateRemote_localToken _ _ _).trans hI.localToken }
  | handler e => exact (packetInv_handler hI h).snoc
  | inbound e => exact (packetInv_inbound hI h).snoc
  | loopback e =>
    rcases loopbackStep_cases h with ⟨_, _, _, _, _, rfl⟩ | ⟨_, _, _, _, _, _, _, rfl⟩ | ⟨_, _, _, _, he⟩
    · exact { hI.snoc with }
    · exact { hI.snoc with }
    · cases he; exact { hI.snoc with }
  | scheduler e =>
    rcases schedulerStep_cases h with ⟨now, order, jitter, _, _, rfl⟩ | ⟨_, _, _, he⟩
    · exact { hI.snoc with localToken := ProbeState.dueFrames_localToken.trans hI.localToken }
    · cases he; exact { hI.snoc with }
  | socket e => exact packetInv_socket hI h

theorem packetInv_run (hr : (connection P).Run (.new tok) tr s) : PacketInv tok tr s := by
  refine hr.history (C := fun _ => True) (P := PacketInv tok) ?_
    (fun _ _ _ _ _ _ hI hst _ => packetInv_step hI hst) (fun _ _ => trivial)
  exact ⟨rfl, nofun, nofun, nofun, trivial, trivial, trivial, fun a ha => absurd ha (Finset.notMem_empty a)⟩

end

/-! ## Where the advertised addresses come from -/

section
variable {κ : Type} {P : Endpoint κ} {tok : Token} {tr : List ConnEntry} {s s' : ConnState} {o : ConnOut}

def ListenerTask.From (P : Endpoint κ) (tr : List ConnEntry) : ListenerTask → Prop
  | waiting => True
  | reading m => Accepted tr m
  | replacing m updated => Accepted tr m ∧ ∀ a ∈ updated, a ∈ P.flags.recordPeers m ∨
      P.flags.noClear = true ∧ ∃ m', Accepted tr m' ∧ a ∈ P.flags.recordPeers m'
  | updating m _ => Accepted tr m

structure RecordInv (P : Endpoint κ) (tr : List ConnEntry) (s : ConnState) : Prop where
  listener : s.listener.From P tr
  advertised : ∀ a ∈ s.connections.advertised, Listed P tr a

theorem ListenerTask.From.snoc {t : ListenerTask} (h : t.From P tr) {en : ConnEntry} : t.From P (tr ++ [en]) := by
  cases t with
  | waiting => trivial
  | reading m => exact Accepted.snoc h
  | replacing m u =>
    refine ⟨h.1.snoc, fun a ha => (h.2 a ha).imp_right fun ⟨hn, m', hm, hp⟩ => ⟨hn, m', hm.snoc, hp⟩⟩
  | updating m u => exact Accepted.snoc h

theorem recordInv_listener {e : ListenerEvent} (hI : RecordInv P tr s) (h : listenerStep P s e = some (s', o)) :
    RecordInv P (tr ++ [⟨s, .listener e, o, s'⟩]) s' := by
  rcases listenerStep_cases h with ⟨_, _, _, rfl, rfl⟩ | ⟨value, now, m, _, _, _, rfl, rfl⟩ |
    ⟨known, m, _, hm, hk, rfl, rfl⟩ | ⟨m, u, _, hm, _, rfl, rfl⟩ | ⟨order, instant, m, u, _, hm, _, rfl, rfl⟩
  · exact ⟨hI.listener.snoc, fun a ha => (hI.advertised a ha).snoc nofun⟩
  · exact ⟨⟨_, List.mem_append_right _ (List.mem_singleton.mpr rfl), rfl⟩,
      fun a ha => (hI.advertised a ha).snoc nofun⟩
  · have hacc := hI.listener
    rw [hm] at hacc
    refine ⟨?_, fun a ha => (hI.advertised a ha).snoc nofun⟩
    show ListenerTask.From P _ (if _ then _ else _)
    split
    · refine ⟨Accepted.snoc hacc, fun a ha => ?_⟩
      rcases P.flags.mem_updatedPeers ha with ha | ⟨hn, ha, _⟩
      · exact .inl ha
      · obtain ⟨m', hm', _, hp⟩ := hI.advertised a (hk.mem.mp ha)
        exact .inr ⟨hn, m', hm'.snoc, hp⟩
    · exact Accepted.snoc hacc
  · have hfrom := hI.listener
    rw [hm] at hfrom
    refine ⟨hfrom.1.snoc, fun a ha => ?_⟩
    rcases hfrom.2 a ha with hp | ⟨hn, m', hm', hp⟩
    · exact ⟨m, hfrom.1.snoc, fun _ => since_snoc.mpr (.inl rfl), hp⟩
    · exact ⟨m', hm'.snoc, fun hn' => (by rw [hn] at hn'; cases hn'), hp⟩
  · exact ⟨trivial, fun a ha => (hI.advertised a ha).snoc nofun⟩

theorem recordInv_step {e : ConnEvent} (hI : RecordInv P tr s) (h : (connection P).step s e = some (s', o)) :
    RecordInv P (tr ++ [⟨s, e, o, s'⟩]) s' := by
  rcases (connection_owns h).1 with ⟨e, rfl⟩ | ⟨ho, hl, ha⟩
  · exact recordInv_listener hI h
  · refine ⟨hl ▸ hI.listener.snoc, fun a hadv => (hI.advertised a (ha ▸ hadv)).snoc fun m hm => ?_⟩
    rw [show o = .replaced m from hm] at ho; cases ho

theorem recordInv_run (hr : (connection P).Run (.new tok) tr s) : RecordInv P tr s := by
  refine hr.history (C := fun _ => True) (P := RecordInv P) ?_
    (fun _ _ _ _ _ _ hI hst _ => recordInv_step hI hst) (fun _ _ => trivial)
  exact ⟨trivial, fun a ha => absurd ha (Finset.notMem_empty a)⟩

/-! ## What the inbound task has checked -/

/-- The last check was of this datagram, and its source could pass then. -/
def Checked (P : Endpoint κ) (tok : Token) (tr : List ConnEntry) (packet : Bytes) (source : SocketAddr) : Prop :=
  ∃ a c b, tr = a ++ c :: b ∧ c.out = .checked packet source ∧ (∀ x ∈ b, ∀ p' a', x.out ≠ .checked p' a') ∧
    Arrived a packet source ∧ Gate P tok a source

theorem Checked.snoc {p : Bytes} {a : SocketAddr} (h : Checked P tok tr p a) {en : ConnEntry}
    (hen : ∀ p' a', en.out ≠ .checked p' a') : Checked P tok (tr ++ [en]) p a := by
  obtain ⟨t, c, b, rfl, hc, hb, hg⟩ := h
  refine ⟨t, c, b ++ [en], by simp, hc, fun x hx => ?_, hg⟩
  rcases List.mem_append.mp hx with hx | hx
  · exact hb x hx
  · rw [List.mem_singleton.mp hx]; exact hen

theorem gate_of_contains (hr : (connection P).Run (.new tok) tr s) {a : SocketAddr}
    (h : s.connections.contains a = true) : Gate P tok tr a := by
  rcases (s.connections.contains_iff a).mp h with h | h
  · exact .inl ((recordInv_run hr).advertised a h)
  · exact .inr ((packetInv_run hr).peerReflexive a h)

def InboundInv (P : Endpoint κ) (tok : Token) (tr : List ConnEntry) (s : ConnState) : Prop :=
  ∀ p a, s.inbound = .delivering p a → Checked P tok tr p a

theorem inboundInv_step {e : ConnEvent} (hr : (connection P).Run (.new tok) tr s) (hI : InboundInv P tok tr s)
    (h : (connection P).step s e = some (s', o)) : InboundInv P tok (tr ++ [⟨s, e, o, s'⟩]) s' := by
  intro p a hd
  rcases (connection_owns h).2.2 with ⟨e, rfl⟩ | ⟨ho, hin⟩
  · rcases inboundStep_cases h with ⟨_, _, _, _, _, _, rfl⟩ | ⟨p', a', hc, rfl, rfl⟩ | ⟨rfl, _⟩ |
      ⟨_, _, _, _, _, _, rfl⟩
    · cases hd
    · simp only at hd
      split at hd
      · rename_i hcon
        cases hd
        have hfrom := (packetInv_run hr).inbound
        rw [hc] at hfrom
        exact ⟨tr, _, [], rfl, rfl, fun x hx => (by cases hx), hfrom.1, gate_of_contains hr hcon⟩
      · cases hd
    · cases hd
    · cases hd
  · refine (hI p a (hin ▸ hd)).snoc fun p' a' hx => ?_
    rw [show o = .checked p' a' from hx] at ho; cases ho

theorem inboundInv_run (hr : (connection P).Run (.new tok) tr s) : InboundInv P tok tr s := by
  refine hr.history (C := fun _ => True) (P := InboundInv P tok) ?_
    (fun _ _ _ _ _ hr hI hst _ => inboundInv_step hr hI hst) (fun _ _ => trivial)
  exact fun _ _ h => (by cases h)

/-- Every forwarded datagram is no control frame and passed its check when its source could pass. -/
def Gated (P : Endpoint κ) (tok : Token) (tr : List ConnEntry) : Prop :=
  ∀ a en b, tr = a ++ en :: b → ∀ packet source wireguard queued,
    en.out = .forwarded packet source wireguard queued → ¬ magic <+: packet ∧ Checked P tok a packet source

/-- **Inbound gating**, whatever the interleaving of the tasks. -/
theorem inbound_gated (hr : (connection P).Run (.new tok) tr s) : Gated P tok tr := by
  intro a en b htr packet source wireguard queued hout
  rw [htr] at hr
  obtain ⟨hpre, hst⟩ := hr.split
  rw [hout] at hst
  rcases (connection_owns hst).2.2 with ⟨e, he⟩ | ⟨ho, _⟩
  · rw [he] at hst
    rcases inboundStep_cases hst with ⟨_, _, _, _, _, ho, _⟩ | ⟨_, _, _, ho, _⟩ | ⟨_, ho⟩ | ⟨_, _, _, hd, _, ho, _⟩
    · cases ho
    · cases ho
    · cases ho
    · cases ho
      have hfrom := (packetInv_run hpre).inbound
      rw [hd] at hfrom
      refine ⟨fun hm => ?_, inboundInv_run hpre _ _ hd⟩
      rw [← classify_iff, hfrom.2] at hm; cases hm
  · cases ho

end

/-! ## A datagram that passes -/

/-- A record, a loopback datagram that shows where WireGuard is, and a datagram from the peer. -/
def sampleTraffic : List ConnEvent :=
  [.listener (.value (sampleValue sampleOldText) (secs 150)),
    .listener (.read []),
    .listener .replace,
    .listener (.update [.testNet 1 10000] 0),
    .socket (.receiveLocal ([1, 0, 0, 0], .v4 (.new 127 0 0 1) 51820)),
    .loopback .recv,
    .loopback .compare,
    .loopback .set,
    .socket (.receive ([2, 0, 0, 0], .testNet 1 10000)),
    .socket .recv,
    .socket .route,
    .inbound .recv,
    .inbound .check,
    .inbound .deliver]

def forwards (en : ConnEntry) : Bool :=
  match en.out with
  | .forwarded _ _ _ queued => queued
  | _ => false

theorem sampleTraffic_runs :
    ((connection (sampleEndpoint ⟨false, false⟩)).exec (.new (.fill 7)) sampleTraffic).isSome = true := by
  decide +kernel

theorem sampleTraffic_gated : ∃ tr s, (connection (sampleEndpoint ⟨false, false⟩)).Run (.new (.fill 7)) tr s ∧
    tr.any forwards = true ∧ Gated (sampleEndpoint ⟨false, false⟩) (.fill 7) tr :=
  ⟨_, _, Machine.run_of_exec sampleTraffic_runs, by decide +kernel,
    inbound_gated (Machine.run_of_exec sampleTraffic_runs)⟩

end P2pTunnler
