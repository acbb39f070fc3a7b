import P2pTunnler.Service
import P2pTunnler.ListenerSound

/-!
# What each task of a connection does

One inversion lemma per task: the events it can take, what they need and the
state they lead to. The listener of `Candidates` is the listener of a
connection that nobody interrupts.
-/

namespace P2pTunnler

open Finset (Enumerates)

section
variable {s s' : ConnState} {o : ConnOut}

theorem listenerStep_cases {κ : Type} {P : Endpoint κ} {e : ListenerEvent} (h : listenerStep P s e = some (s', o)) :
    (∃ value now, e = .value value now ∧ s' = s ∧ o = .silent) ∨
    (∃ value now m, e = .value value now ∧ s.listener = .waiting ∧
      P.receive s.lastTimestamp value now = some m ∧ o = .accepted m ∧
      s' = { s with lastTimestamp := some m.timestamp, listener := .reading m }) ∨
    (∃ knownOrder m, e = .read knownOrder ∧ s.listener = .reading m ∧
      Enumerates knownOrder s.connections.advertised ∧ o = .silent ∧
      s' = { s with listener :=
        if s.connections.advertised ≠ P.flags.updatedPeers m knownOrder
        then .replacing m (P.flags.updatedPeers m knownOrder)
        else .updating m (P.flags.updatedPeers m knownOrder) }) ∨
    (∃ m updated, e = .replace ∧ s.listener = .replacing m updated ∧ s.writable = true ∧ o = .replaced m ∧
      s' = { s with connections := s.connections.replaceAdvertised updated, listener := .updating m updated }) ∨
    (∃ order instant m updated, e = .update order instant ∧ s.listener = .updating m updated ∧
      Enumerates order updated ∧ o = .updated m ∧
      s' = { s with probes := s.probes.updateRemote (P.enc.remoteToken m) order instant, listener := .waiting }) := by
  cases e with
  | value value now =>
    simp only [listenerStep] at h
    split at h
    · rename_i hw
      split at h
      · cases h; exact .inl ⟨value, now, rfl, rfl, rfl⟩
      · rename_i m hm
        cases h; exact .inr (.inl ⟨value, now, m, rfl, hw, hm, rfl, rfl⟩)
    · cases h
  | read knownOrder =>
    simp only [listenerStep] at h
    split at h
    · rename_i m hm
      split at h
      · rename_i hord
        cases h; exact .inr (.inr (.inl ⟨knownOrder, m, rfl, hm, hord, rfl, rfl⟩))
      · cases h
    · cases h
  | replace =>
    simp only [listenerStep] at h
    split at h
    · rename_i m updated hm
      split at h
      · rename_i hw
        cases h; exact .inr (.inr (.inr (.inl ⟨m, updated, rfl, hm, hw, rfl, rfl⟩)))
      · cases h
    · cases h
  | update order instant =>
    simp only [listenerStep] at h
    split at h
    · rename_i m updated hm
      split at h
      · rename_i hord
        cases h; exact .inr (.inr (.inr (.inr ⟨order, instant, m, updated, rfl, hm, hord, rfl, rfl⟩)))
      · cases h
    · cases h

theorem handlerStep_cases {e : HandlerEvent} (h : handlerStep s e = some (s', o)) :
    (∃ packet source rest, s.handler = .waiting ∧ s.fromProbes = (packet, source) :: rest ∧ o = .silent ∧
      s' = { s with fromProbes := rest, handler := .acting packet source }) ∨
    (∃ now jitter packet source, e = .act now jitter ∧ s.handler = .acting packet source ∧ o = .silent ∧
      s' = { s with
        probes := (s.probes.packetAction packet source now jitter).1
        handler := if (s.probes.packetAction packet source now jitter).2 = .echoAndAdmit
          then .admitting packet source else .waiting }) ∨
    (∃ packet source, e = .addSource ∧ s.handler = .admitting packet source ∧ s.writable = true ∧ o = .silent ∧
      s' = { s with
        connections := (s.connections.addPeerReflexive source).1
        handler := .echoing packet source }) ∨
    (∃ packet source, s.handler = .echoing packet source ∧
      (s', o) = { s with handler := .waiting }.offer .echo (packet, source)) := by
  cases e with
  | recv =>
    simp only [handlerStep] at h
    split at h
    · rename_i packet source rest hw hq
      cases h; exact .inl ⟨packet, source, rest, hw, hq, rfl, rfl⟩
    · cases h
  | act now jitter =>
    simp only [handlerStep] at h
    split at h
    · rename_i packet source ha
      cases h; exact .inr (.inl ⟨now, jitter, packet, source, rfl, ha, rfl, rfl⟩)
    · cases h
  | addSource =>
    simp only [handlerStep] at h
    split at h
    · rename_i packet source ha
      split at h
      · rename_i hw
        cases h; exact .inr (.inr (.inl ⟨packet, source, rfl, ha, hw, rfl, rfl⟩))
      · cases h
    · cases h
  | echo =>
    simp only [handlerStep] at h
    split at h
    · rename_i packet source ha
      exact .inr (.inr (.inr ⟨packet, source, ha, (Option.some.inj h).symm⟩))
    · cases h

theorem inboundStep_cases {e : InboundEvent} (h : inboundStep s e = some (s', o)) :
    (∃ packet source rest, s.inbound = .waiting ∧ s.fromPeers = (packet, source) :: rest ∧ o = .silent ∧
      s' = { s with fromPeers := rest, inbound := .checking packet source }) ∨
    (∃ packet source, s.inbound = .checking packet source ∧ o = .checked packet source ∧
      s' = { s with inbound :=
        if s.connections.contains source then .delivering packet source else .waiting }) ∨
    (s' = { s with inbound := .waiting } ∧ o = .silent) ∨
    (∃ packet source wireguard, s.inbound = .delivering packet source ∧ s.localPeer = some wireguard ∧
      o = .forwarded packet source wireguard (trySend s.toLocal (packet, wireguard)).2 ∧
      s' = { s with toLocal := (trySend s.toLocal (packet, wireguard)).1, inbound := .waiting }) := by
  cases e with
  | recv =>
    simp only [inboundStep] at h
    split at h
    · rename_i packet source rest hw hq
      cases h; exact .inl ⟨packet, source, rest, hw, hq, rfl, rfl⟩
    · cases h
  | check =>
    simp only [inboundStep] at h
    split at h
    · rename_i packet source hc
      cases h; exact .inr (.inl ⟨packet, source, hc, rfl, rfl⟩)
    · cases h
  | deliver =>
    simp only [inboundStep] at h
    split at h
    · rename_i packet source hd
      split at h
      · cases h; exact .inr (.inr (.inl ⟨rfl, rfl⟩))
      · rename_i wireguard hw
        cases h; exact .inr (.inr (.inr ⟨packet, source, wireguard, hd, hw, rfl, rfl⟩))
    · cases h

theorem loopbackStep_exact {e : LoopbackEvent} (h : loopbackStep s e = some (s', o)) :
    (∃ packet wireguard rest, e = .recv ∧ s.loopback = .waiting ∧ s.fromLocal = (packet, wireguard) :: rest ∧
      o = .silent ∧ s' = { s with fromLocal := rest, loopback := .comparing packet wireguard }) ∨
    (∃ packet wireguard, e = .compare ∧ s.loopback = .comparing packet wireguard ∧ o = .silent ∧
      s' = { s with
        loopback := if s.localPeer ≠ some wireguard then .setting packet wireguard else .locking packet }) ∨
    (∃ packet wireguard, e = .set ∧ s.loopback = .setting packet wireguard ∧ o = .silent ∧
      s' = { s with localPeer := some wireguard, loopback := .locking packet }) ∨
    (∃ packet advertised peerReflexive, e = .lock advertised peerReflexive ∧ s.loopback = .locking packet ∧
      Enumerates advertised s.connections.advertised ∧ Enumerates peerReflexive s.connections.peerReflexive ∧
      o = .silent ∧
      s' = { s with loopback := .sending packet (s.connections.addresses advertised peerReflexive) }) ∨
    (∃ packet peer peers, e = .send ∧ s.loopback = .sending packet (peer :: peers) ∧
      (s', o) = { s with loopback := .sending packet peers }.offer .loopback (packet, peer)) ∨
    (∃ packet, e = .send ∧ s.loopback = .sending packet [] ∧ o = .silent ∧ s' = { s with loopback := .waiting }) := by
  cases e with
  | recv =>
    simp only [loopbackStep] at h
    split at h
    · rename_i packet wireguard rest hl hq
      cases h; exact .inl ⟨packet, wireguard, rest, rfl, hl, hq, rfl, rfl⟩
    · cases h
  | compare =>
    simp only [loopbackStep] at h
    split at h
    · rename_i packet wireguard hl
      cases h; exact .inr (.inl ⟨packet, wireguard, rfl, hl, rfl, rfl⟩)
    · cases h
  | set =>
    simp only [loopbackStep] at h
    split at h
    · rename_i packet wireguard hl
      cases h; exact .inr (.inr (.inl ⟨packet, wireguard, rfl, hl, rfl, rfl⟩))
    · cases h
  | lock advertised peerReflexive =>
    simp only [loopbackStep] at h
    split at h
    · rename_i packet hl
      split at h
      · rename_i hord
        cases h; exact .inr (.inr (.inr (.inl ⟨packet, _, _, rfl, hl, hord.1, hord.2, rfl, rfl⟩)))
      · cases h
    · cases h
  | send =>
    simp only [loopbackStep] at h
    split at h
    · rename_i packet peer peers hl
      exact .inr (.inr (.inr (.inr (.inl ⟨packet, peer, peers, rfl, hl, (Option.some.inj h).symm⟩))))
    · rename_i packet hl
      cases h; exact .inr (.inr (.inr (.inr (.inr ⟨packet, rfl, hl, rfl, rfl⟩))))
    · cases h

/-- The forwarder takes the lock, offers one copy, or does something that no lock and no candidate has a part in. -/
theorem loopbackStep_cases {e : LoopbackEvent} (h : loopbackStep s e = some (s', o)) :
    (∃ fromLocal localPeer loopback, (∀ packet peers, loopback ≠ .sending packet peers) ∧ o = .silent ∧
      s' = { s with fromLocal := fromLocal, localPeer := localPeer, loopback := loopback }) ∨
    (∃ packet advertised peerReflexive, s.loopback = .locking packet ∧
      Enumerates advertised s.connections.advertised ∧ Enumerates peerReflexive s.connections.peerReflexive ∧
      o = .silent ∧
      s' = { s with loopback := .sending packet (s.connections.addresses advertised peerReflexive) }) ∨
    (∃ packet peer peers, s.loopback = .sending packet (peer :: peers) ∧
      (s', o) = { s with loopback := .sending packet peers }.offer .loopback (packet, peer)) := by
  rcases loopbackStep_exact h with ⟨packet, wireguard, rest, _, _, _, ho, hs⟩ | ⟨packet, wireguard, _, _, ho, hs⟩ |
    ⟨packet, wireguard, _, _, ho, hs⟩ | ⟨packet, l₁, l₂, _, hl, h₁, h₂, ho, hs⟩ | ⟨packet, peer, peers, _, hl, he⟩ |
    ⟨packet, _, _, ho, hs⟩
  · exact .inl ⟨_, s.localPeer, _, by simp, ho, hs⟩
  · refine .inl ⟨s.fromLocal, s.localPeer, _, ?_, ho, hs⟩
    intro packet' peers
    split <;> simp
  · exact .inl ⟨s.fromLocal, _, _, by simp, ho, hs⟩
  · exact .inr (.inl ⟨packet, l₁, l₂, hl, h₁, h₂, ho, hs⟩)
  · exact .inr (.inr ⟨packet, peer, peers, hl, he⟩)
  · exact .inl ⟨s.fromLocal, s.localPeer, _, by simp, ho, hs⟩

theorem schedulerStep_cases {e : SchedulerEvent} (h : schedulerStep s e = some (s', o)) :
    (∃ now order jitter, Enumerates order s.probes.paths.keys ∧ o = .silent ∧
      s' = { s with
        probes := (s.probes.dueFrames now order jitter).1
        scheduler := (s.probes.dueFrames now order jitter).2 }) ∨
    (∃ d rest, s.scheduler = d :: rest ∧ (s', o) = { s with scheduler := rest }.offer .due d) := by
  cases e with
  | tick now order jitter =>
    simp only [schedulerStep] at h
    split at h
    · rename_i hord
      cases h; exact .inl ⟨now, order, jitter, hord.2, rfl, rfl⟩
    · cases h
  | send =>
    simp only [schedulerStep] at h
    split at h
    · cases h
    · rename_i d rest hs
      exact .inr ⟨d, rest, hs, (Option.some.inj h).symm⟩

theorem socketStep_exact {e : SocketEvent} (h : socketStep s e = some (s', o)) :
    (∃ d, e = .receive d ∧ o = .silent ∧ s' = { s with fromInternet := (trySend s.fromInternet d).1 }) ∨
    (∃ packet source rest, e = .recv ∧ s.router = .waiting ∧ s.fromInternet = (packet, source) :: rest ∧
      o = .silent ∧ s' = { s with fromInternet := rest, router := .routing packet source }) ∨
    (∃ packet source kind, e = .route ∧ s.router = .routing packet source ∧
      internetPacketKind packet = .ok kind ∧ o = .silent ∧
      s' = { s with
        router := .waiting
        fromProbes := if kind = .probe then (trySend s.fromProbes (packet, normalizeIpv4MappedSource source)).1
          else s.fromProbes
        fromStun := if kind = .stun then (trySend s.fromStun (packet, normalizeIpv4MappedSource source)).1
          else s.fromStun
        fromPeers := if kind = .data then (trySend s.fromPeers (packet, normalizeIpv4MappedSource source)).1
          else s.fromPeers }) ∨
    (∃ se toInternet task, e = .send se ∧ senderStep s.toInternet s.internetSender se = some (toInternet, .ok task) ∧
      o = .silent ∧ s' = { s with toInternet := toInternet, internetSender := task }) ∨
    (∃ d, e = .receiveLocal d ∧ o = .silent ∧ s' = { s with fromLocal := (trySend s.fromLocal d).1 }) ∨
    (∃ se toLocal task, e = .sendLocal se ∧ senderStep s.toLocal s.localSender se = some (toLocal, .ok task) ∧
      o = .silent ∧ s' = { s with toLocal := toLocal, localSender := task }) ∨
    (∃ id stunServer stun d, e = .stunRequest id stunServer ∧ s.stun = .idle ∧
      (s', o) = { s with stun := stun }.offer .stun d) ∨
    (∃ id stunServer d rest, e = .stunRecv ∧ s.stun = .awaiting id stunServer ∧ s.fromStun = d :: rest ∧ o = .silent ∧
      s' = { s with
        fromStun := rest
        stun := if (awaitTurn id stunServer d).isSome then .idle else .awaiting id stunServer }) ∨
    (∃ id stunServer, e = .stunTimeout ∧ s.stun = .awaiting id stunServer ∧ o = .silent ∧
      s' = { s with stun := .idle }) := by
  cases e with
  | receive d => cases h; exact .inl ⟨d, rfl, rfl, rfl⟩
  | recv =>
    simp only [socketStep] at h
    split at h
    · rename_i packet source rest hr hq
      cases h; exact .inr (.inl ⟨packet, source, rest, rfl, hr, hq, rfl, rfl⟩)
    · cases h
  | route =>
    simp only [socketStep] at h
    split at h
    · rename_i packet source hr
      split at h
      · cases h
      all_goals
        rename_i hk
        cases h
        exact .inr (.inr (.inl ⟨packet, source, _, rfl, hr, hk, rfl, rfl⟩))
    · cases h
  | send se =>
    simp only [socketStep] at h
    split at h
    · rename_i toInternet task hs
      cases h; exact .inr (.inr (.inr (.inl ⟨se, toInternet, task, rfl, hs, rfl, rfl⟩)))
    · cases h
  | receiveLocal d => cases h; exact .inr (.inr (.inr (.inr (.inl ⟨d, rfl, rfl, rfl⟩))))
  | sendLocal se =>
    simp only [socketStep] at h
    split at h
    · rename_i toLocal task hs
      cases h; exact .inr (.inr (.inr (.inr (.inr (.inl ⟨se, toLocal, task, rfl, hs, rfl, rfl⟩)))))
    · cases h
  | stunRequest id stunServer =>
    simp only [socketStep] at h
    split at h
    · rename_i hi _
      exact .inr (.inr (.inr (.inr (.inr (.inr (.inl
        ⟨id, stunServer, _, _, rfl, hi, (Option.some.inj h).symm⟩))))))
    · cases h
  | stunRecv =>
    simp only [socketStep] at h
    split at h
    · rename_i id stunServer d rest hs hq
      cases h
      exact .inr (.inr (.inr (.inr (.inr (.inr (.inr (.inl ⟨id, stunServer, d, rest, rfl, hs, hq, rfl, rfl⟩)))))))
    · cases h
  | stunTimeout =>
    simp only [socketStep] at h
    split at h
    · rename_i id stunServer hs
      cases h
      exact .inr (.inr (.inr (.inr (.inr (.inr (.inr (.inr ⟨id, stunServer, rfl, hs, rfl, rfl⟩)))))))
    · cases h

/-- An arrival, a turn of the router, or something that no task but a socket's and the lookup sees. -/
theorem socketStep_cases {e : SocketEvent} (h : socketStep s e = some (s', o)) :
    (∃ toInternet internetSender fromLocal toLocal localSender fromStun stun,
      (o = .silent ∨ ∃ d q, o = .offered .stun d q) ∧
      s' = { s with
        toInternet := toInternet
        internetSender := internetSender
        fromLocal := fromLocal
        toLocal := toLocal
        localSender := localSender
        fromStun := fromStun
        stun := stun }) ∨
    (∃ d, e = .receive d ∧ o = .silent ∧ s' = { s with fromInternet := (trySend s.fromInternet d).1 }) ∨
    (∃ packet source rest, s.fromInternet = (packet, source) :: rest ∧ o = .silent ∧
      s' = { s with fromInternet := rest, router := .routing packet source }) ∨
    (∃ packet source kind, s.router = .routing packet source ∧ internetPacketKind packet = .ok kind ∧ o = .silent ∧
      s' = { s with
        router := .waiting
        fromProbes := if kind = .probe then (trySend s.fromProbes (packet, normalizeIpv4MappedSource source)).1
          else s.fromProbes
        fromStun := if kind = .stun then (trySend s.fromStun (packet, normalizeIpv4MappedSource source)).1
          else s.fromStun
        fromPeers := if kind = .data then (trySend s.fromPeers (packet, normalizeIpv4MappedSource source)).1
          else s.fromPeers }) := by
  rcases socketStep_exact h with ⟨d, he, ho, hs⟩ | ⟨packet, source, rest, _, _, hq, ho, hs⟩ |
    ⟨packet, source, kind, _, hr, hk, ho, hs⟩ | ⟨_, _, _, _, _, ho, hs⟩ | ⟨_, _, ho, hs⟩ | ⟨_, _, _, _, _, ho, hs⟩ |
    ⟨_, _, _, d, _, _, he⟩ | ⟨_, _, _, _, _, _, _, ho, hs⟩ | ⟨_, _, _, _, ho, hs⟩
  · exact .inr (.inl ⟨d, he, ho, hs⟩)
  · exact .inr (.inr (.inl ⟨packet, source, rest, hq, ho, hs⟩))
  · exact .inr (.inr (.inr ⟨packet, source, kind, hr, hk, ho, hs⟩))
  · exact .inl ⟨_, _, _, s.toLocal, s.localSender, _, _, .inl ho, hs⟩
  · exact .inl ⟨_, _, _, s.toLocal, s.localSender, _, _, .inl ho, hs⟩
  · exact .inl ⟨s.toInternet, s.internetSender, _, _, _, _, _, .inl ho, hs⟩
  · obtain ⟨hs, ho⟩ := Prod.mk.inj he
    exact .inl ⟨_, _, _, s.toLocal, s.localSender, s.fromStun, _, .inr ⟨d, _, ho⟩, hs⟩
  · exact .inl ⟨s.toInternet, s.internetSender, _, s.toLocal, s.localSender, _, _, .inl ho, hs⟩
  · exact .inl ⟨s.toInternet, s.internetSender, _, s.toLocal, s.localSender, s.fromStun, _, .inl ho, hs⟩

end

/-! ## Who shows what -/

/-- Where each datagram for the Internet comes from: the frame its echo answers,
the next candidate of a loopback packet, or the next frame of a tick. -/
theorem offered_cases {κ : Type} {P : Endpoint κ} {s s' : ConnState} {e : ConnEvent} {origin : Origin} {d : Datagram}
    {q : Bool} (h : (connection P).step s e = some (s', .offered origin d q)) :
    (origin = .echo ∧ s.handler = .echoing d.1 d.2) ∨
    (origin = .loopback ∧ ∃ peers, s.loopback = .sending d.1 (d.2 :: peers)) ∨
    (origin = .due ∧ ∃ rest, s.scheduler = d :: rest) ∨
    origin = .stun := by
  cases e with
  | listener e =>
    rcases listenerStep_cases h with ⟨_, _, _, _, ho⟩ | ⟨_, _, _, _, _, _, ho, _⟩ | ⟨_, _, _, _, _, ho, _⟩ |
      ⟨_, _, _, _, _, ho, _⟩ | ⟨_, _, _, _, _, _, _, ho, _⟩ <;> cases ho
  | handler e =>
    rcases handlerStep_cases h with ⟨_, _, _, _, _, ho, _⟩ | ⟨_, _, _, _, _, _, ho, _⟩ | ⟨_, _, _, _, _, ho, _⟩ |
      ⟨packet, source, hh, he⟩
    · cases ho
    · cases ho
    · cases ho
    · cases he; exact .inl ⟨rfl, hh⟩
  | inbound e =>
    rcases inboundStep_cases h with ⟨_, _, _, _, _, ho, _⟩ | ⟨_, _, _, ho, _⟩ | ⟨_, ho⟩ | ⟨_, _, _, _, _, ho, _⟩ <;>
      cases ho
  | loopback e =>
    rcases loopbackStep_cases h with ⟨_, _, _, _, ho, _⟩ | ⟨_, _, _, _, _, _, ho, _⟩ | ⟨packet, peer, peers, hl, he⟩
    · cases ho
    · cases ho
    · cases he; exact .inr (.inl ⟨rfl, peers, hl⟩)
  | scheduler e =>
    rcases schedulerStep_cases h with ⟨_, _, _, _, ho, _⟩ | ⟨d, rest, hs, he⟩
    · cases ho
    · cases he; exact .inr (.inr (.inl ⟨rfl, rest, hs⟩))
  | socket e =>
    rcases socketStep_cases h with ⟨_, _, _, _, _, _, _, ho | ⟨_, _, ho⟩, _⟩ | ⟨_, _, ho, _⟩ | ⟨_, _, _, _, ho, _⟩ |
      ⟨_, _, _, _, _, ho, _⟩
    · cases ho
    · cases ho; exact .inr (.inr (.inr rfl))
    · cases ho
    · cases ho
    · cases ho

def ConnOut.ofListener : ConnOut → Bool
  | .accepted _ => true
  | .replaced _ => true
  | .updated _ => true
  | _ => false

def ConnOut.ofInbound : ConnOut → Bool
  | .checked _ _ => true
  | .forwarded _ _ _ _ => true
  | _ => false

/-- Only the listener touches the advertised set, only the handler the
peer-reflexive one, and only they and the inbound task show what is theirs. -/
theorem connection_owns {κ : Type} {P : Endpoint κ} {s s' : ConnState} {e : ConnEvent} {o : ConnOut}
    (h : (connection P).step s e = some (s', o)) :
    ((∃ e', e = .listener e') ∨
      (o.ofListener = false ∧ s'.listener = s.listener ∧ s'.connections.advertised = s.connections.advertised)) ∧
    ((∃ e', e = .handler e') ∨
      (s'.handler = s.handler ∧ s'.connections.peerReflexive = s.connections.peerReflexive)) ∧
    ((∃ e', e = .inbound e') ∨ (o.ofInbound = false ∧ s'.inbound = s.inbound)) := by
  cases e with
  | listener e =>
    refine ⟨.inl ⟨e, rfl⟩, .inr ?_, .inr ?_⟩ <;>
      rcases listenerStep_cases h with ⟨_, _, _, rfl, rfl⟩ | ⟨_, _, _, _, _, _, rfl, rfl⟩ | ⟨_, _, _, _, _, rfl, rfl⟩ |
        ⟨_, _, _, _, _, rfl, rfl⟩ | ⟨_, _, _, _, _, _, _, rfl, rfl⟩ <;> exact ⟨rfl, rfl⟩
  | handler e =>
    refine ⟨.inr ?_, .inl ⟨e, rfl⟩, .inr ?_⟩ <;>
      rcases handlerStep_cases h with ⟨_, _, _, _, _, rfl, rfl⟩ | ⟨_, _, _, _, _, _, rfl, rfl⟩ |
        ⟨_, _, _, _, _, rfl, rfl⟩ | ⟨_, _, _, he⟩
    · exact ⟨rfl, rfl, rfl⟩
    · exact ⟨rfl, rfl, rfl⟩
    · exact ⟨rfl, rfl, CandidateSet.addPeerReflexive_advertised _ _⟩
    · cases he; exact ⟨rfl, rfl, rfl⟩
    · exact ⟨rfl, rfl⟩
    · exact ⟨rfl, rfl⟩
    · exact ⟨rfl, rfl⟩
    · cases he; exact ⟨rfl, rfl⟩
  | inbound e =>
    rcases inboundStep_cases h with ⟨_, _, _, _, _, rfl, rfl⟩ | ⟨_, _, _, rfl, rfl⟩ | ⟨rfl, rfl⟩ |
      ⟨_, _, _, _, _, rfl, rfl⟩ <;> exact ⟨.inr ⟨rfl, rfl, rfl⟩, .inr ⟨rfl, rfl⟩, .inl ⟨e, rfl⟩⟩
  | loopback e =>
    rcases loopbackStep_cases h with ⟨_, _, _, _, rfl, rfl⟩ | ⟨_, _, _, _, _, _, rfl, rfl⟩ | ⟨_, _, _, _, he⟩
    · exact ⟨.inr ⟨rfl, rfl, rfl⟩, .inr ⟨rfl, rfl⟩, .inr ⟨rfl, rfl⟩⟩
    · exact ⟨.inr ⟨rfl, rfl, rfl⟩, .inr ⟨rfl, rfl⟩, .inr ⟨rfl, rfl⟩⟩
    · cases he; exact ⟨.inr ⟨rfl, rfl, rfl⟩, .inr ⟨rfl, rfl⟩, .inr ⟨rfl, rfl⟩⟩
  | scheduler e =>
    rcases schedulerStep_cases h with ⟨_, _, _, _, rfl, rfl⟩ | ⟨_, _, _, he⟩
    · exact ⟨.inr ⟨rfl, rfl, rfl⟩, .inr ⟨rfl, rfl⟩, .inr ⟨rfl, rfl⟩⟩
    · cases he; exact ⟨.inr ⟨rfl, rfl, rfl⟩, .inr ⟨rfl, rfl⟩, .inr ⟨rfl, rfl⟩⟩
  | socket e =>
    rcases socketStep_cases h with ⟨_, _, _, _, _, _, _, rfl | ⟨_, _, rfl⟩, rfl⟩ | ⟨_, _, rfl, rfl⟩ |
      ⟨_, _, _, _, rfl, rfl⟩ | ⟨_, _, _, _, _, rfl, rfl⟩ <;> exact ⟨.inr ⟨rfl, rfl, rfl⟩, .inr ⟨rfl, rfl⟩, .inr ⟨rfl, rfl⟩⟩

/-! ## The probe controller of a connection -/

/-- A step of a connection is a step of its probe controller or leaves it
alone, and only the listener updates the remote token and the paths. -/
theorem connection_probes {κ : Type} {P : Endpoint κ} {s s' : ConnState} {e : ConnEvent} {o : ConnOut}
    (h : (connection P).step s e = some (s', o)) :
    s'.probes = s.probes ∨ ∃ op out, probeController.step s.probes op = some (s'.probes, out) ∧
      ((∃ e', e = .listener e') ∨ ∀ token cands now, op ≠ .updateRemote token cands now) := by
  cases e with
  | listener e =>
    rcases listenerStep_cases h with ⟨_, _, _, rfl, _⟩ | ⟨_, _, _, _, _, _, _, rfl⟩ | ⟨_, _, _, _, _, _, rfl⟩ |
      ⟨_, _, _, _, _, _, rfl⟩ | ⟨order, instant, m, _, _, _, _, _, rfl⟩
    · exact .inl rfl
    · exact .inl rfl
    · exact .inl rfl
    · exact .inl rfl
    · exact .inr ⟨.updateRemote (P.enc.remoteToken m) order instant, .updated, rfl, .inl ⟨e, rfl⟩⟩
  | handler e =>
    rcases handlerStep_cases h with ⟨_, _, _, _, _, _, rfl⟩ | ⟨now, jitter, p, a, _, _, _, rfl⟩ |
      ⟨_, _, _, _, _, _, rfl⟩ | ⟨_, _, _, he⟩
    · exact .inl rfl
    · refine .inr ⟨.packetAction p a now jitter, _, rfl, .inr ?_⟩
      intro token cands now he
      cases he
    · exact .inl rfl
    · cases he; exact .inl rfl
  | inbound e =>
    rcases inboundStep_cases h with ⟨_, _, _, _, _, _, rfl⟩ | ⟨_, _, _, _, rfl⟩ | ⟨rfl, _⟩ | ⟨_, _, _, _, _, _, rfl⟩ <;>
      exact .inl rfl
  | loopback e =>
    rcases loopbackStep_cases h with ⟨_, _, _, _, _, rfl⟩ | ⟨_, _, _, _, _, _, _, rfl⟩ | ⟨_, _, _, _, he⟩
    · exact .inl rfl
    · exact .inl rfl
    · cases he; exact .inl rfl
  | scheduler e =>
    rcases schedulerStep_cases h with ⟨now, order, jitter, hord, _, rfl⟩ | ⟨_, _, _, he⟩
    · refine .inr ⟨.dueFrames now order jitter, .frames (s.probes.dueFrames now order jitter).2, ?_, .inr ?_⟩
      · simp only [probeController]
        rw [if_pos hord]
      · intro token cands now he
        cases he
    · cases he; exact .inl rfl
  | socket e =>
    rcases socketStep_cases h with ⟨_, _, _, _, _, _, _, _, rfl⟩ | ⟨_, _, _, rfl⟩ | ⟨_, _, _, _, _, rfl⟩ |
      ⟨_, _, _, _, _, _, rfl⟩ <;> exact .inl rfl

theorem connection_paths {κ : Type} {P : Endpoint κ} {s s' : ConnState} {e : ConnEvent} {o : ConnOut}
    (h : (connection P).step s e = some (s', o)) :
    (∃ e', e = .listener e') ∨
      (s'.probes.paths.keys = s.probes.paths.keys ∧ s'.probes.remoteToken = s.probes.remoteToken) := by
  rcases connection_probes h with hp | ⟨op, out, hst, he | hop⟩
  · rw [hp]; exact .inr ⟨rfl, rfl⟩
  · exact .inl he
  · exact .inr (probeController_keys hst hop)

/-- The probe controller inside a connection runs as the controller alone does. -/
theorem probes_simulated {κ : Type} {P : Endpoint κ} {tok : Token} {tr : List ConnEntry} {s : ConnState}
    (hr : (connection P).Run (.new tok) tr s) : ∃ ptr, probeController.Run (.new tok) ptr s.probes := by
  induction hr with
  | nil => exact ⟨[], .nil⟩
  | snoc _ hst ih =>
    obtain ⟨ptr, hp⟩ := ih
    rcases connection_probes hst with hsame | ⟨op, out, hop, _⟩
    · rw [hsame]; exact ⟨ptr, hp⟩
    · exact ⟨_, hp.snoc hop⟩

/-! ## The uninterrupted listener -/

def ConnState.listenerState (s : ConnState) : ListenerState := ⟨s.lastTimestamp, s.connections, s.probes⟩

section
variable {κ : Type} {P : Endpoint κ} {s : ConnState} {d : Delivery} {l : ListenerState}

theorem connection_read {m : Message} {known : List SocketAddr} (hl : s.listener = .reading m)
    (hk : Enumerates known s.connections.advertised) :
    (connection P).step s (.listener (.read known)) = some ({ s with
      listener := if s.connections.advertised ≠ P.flags.updatedPeers m known
        then .replacing m (P.flags.updatedPeers m known)
        else .updating m (P.flags.updatedPeers m known) }, .silent) := by
  simp only [connection, listenerStep, hl]
  rw [if_pos hk]

theorem connection_replace {m : Message} {u : Finset SocketAddr} (hl : s.listener = .replacing m u)
    (hw : s.writable = true) :
    (connection P).step s (.listener .replace) =
      some ({ s with connections := s.connections.replaceAdvertised u, listener := .updating m u }, .replaced m) := by
  simp only [connection, listenerStep, hl]
  rw [if_pos hw]

theorem connection_update {m : Message} {u : Finset SocketAddr} {order : List SocketAddr} (instant : Nat)
    (hl : s.listener = .updating m u) (ho : Enumerates order u) :
    (connection P).step s (.listener (.update order instant)) =
      some ({ s with probes := s.probes.updateRemote (P.enc.remoteToken m) order instant, listener := .waiting },
        .updated m) := by
  simp only [connection, listenerStep, hl]
  rw [if_pos ho]

/-- A value handled to the end in one go is a run in which only the connection's listener moves. -/
theorem listener_simulated (hw : s.listener = .waiting) (hwr : s.writable = true) {o : Option Message}
    (h : P.listener.step s.listenerState d = some (l, o)) :
    ∃ tr, (connection P).Run s tr { s with
        lastTimestamp := l.lastTimestamp
        connections := l.connections
        probes := l.probes
        listener := .waiting } ∧
      ∀ en ∈ tr, ∃ e, en.event = .listener e := by
  rcases listener_step_cases h with ⟨_, rfl, hrec⟩ | ⟨m, _, hrec, hknown, hupd, rfl⟩
  · have hrec : P.receive s.lastTimestamp d.value d.now = none := hrec
    have h₁ : (connection P).step s (.listener (.value d.value d.now)) = some (s, .silent) := by
      simp only [connection, listenerStep, hw, hrec]
    rw [← hw]
    exact ⟨_, .cons h₁ .nil, by simp⟩
  · have hrec : P.receive s.lastTimestamp d.value d.now = some m := hrec
    have h₁ : (connection P).step s (.listener (.value d.value d.now)) =
        some ({ s with lastTimestamp := some m.timestamp, listener := .reading m }, .accepted m) := by
      simp only [connection, listenerStep, hw, hrec]
    have h₂ := connection_read (P := P) (s := { s with lastTimestamp := some m.timestamp, listener := .reading m })
      rfl hknown
    by_cases hc : s.connections.advertised = P.flags.updatedPeers m d.knownOrder
    · have hset : s.listenerState.connections.refresh (P.flags.updatedPeers m d.knownOrder) = s.connections :=
        if_neg (not_not.mpr hc)
      rw [if_neg (not_not.mpr hc)] at h₂
      rw [hset]
      exact ⟨_, .cons h₁ (.cons h₂ (.cons (connection_update d.instant rfl hupd) .nil)), by simp⟩
    · have hset : s.listenerState.connections.refresh (P.flags.updatedPeers m d.knownOrder) =
          s.connections.replaceAdvertised (P.flags.updatedPeers m d.knownOrder) := if_pos hc
      rw [if_pos hc] at h₂
      rw [hset]
      exact ⟨_, .cons h₁ (.cons h₂ (.cons (connection_replace rfl hwr)
        (.cons (connection_update d.instant rfl hupd) .nil))), by simp⟩

end

end P2pTunnler
