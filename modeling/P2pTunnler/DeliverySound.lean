import P2pTunnler.ProgressSound

/-!
# Without overflow nothing is lost

Queues drop when they are full, and only then. From a connection at rest to
the next rest, as long as no more arrives than a queue holds, every datagram
goes the whole way: inbound up to the check of its source and from there to
WireGuard, outbound to every candidate of the moment at which the forwarder
takes the lock.
-/

namespace P2pTunnler

open Finset (Enumerates)

theorem trySend_room {α : Type} {q : List α} (h : q.length < udpQueueCapacity) (d : α) :
    trySend q d = (q ++ [d], true) := by
  simp [trySend, h]

section
variable {κ : Type} {P : Endpoint κ} {tok : Token} {tr : List ConnEntry} {s₀ s s' : ConnState} {e : ConnEvent} {o : ConnOut}

/-! ## Rest -/

/-- Every task waits, and no sender for the network: nothing is under way. -/
structure ConnState.Quiet (s : ConnState) : Prop extends s.Parked where
  internetSender : s.internetSender = .waiting
  localSender : s.localSender = .waiting

theorem parked_waiting {task : SenderTask} {queue : List Datagram} (hp : task.Parked queue) (hw : task = .waiting) :
    task.held ++ queue = [] := by
  subst hw
  rcases hp with ⟨_, rfl⟩ | ⟨_, _, ht⟩
  · rfl
  · cases ht

theorem ConnState.Quiet.outLine (hq : s.Quiet) : s.outLine = [] := parked_waiting hq.toInternet hq.internetSender

theorem ConnState.Quiet.localLine (hq : s.Quiet) : s.localLine = [] := parked_waiting hq.toLocal hq.localSender

theorem waiting_of_work {task : SenderTask} (hw : task.work = 0) (hh : task.held = []) : task = .waiting := by
  cases task with
  | waiting => rfl
  | sending => cases hw
  | sleeping => cases hh

theorem quiet_of_work (h : s.work = 0) (hi : s.internetSender.held = []) (hl : s.localSender.held = []) : s.Quiet := by
  simp only [ConnState.work, Nat.add_eq_zero_iff, Nat.mul_eq_zero, List.length_eq_zero_iff, OfNat.ofNat_ne_zero,
    false_or, Nat.add_eq_zero_iff, and_false] at h
  obtain ⟨⟨⟨⟨⟨⟨⟨⟨⟨⟨⟨⟨⟨⟨hlis, hhan⟩, hinb⟩, hloop⟩, hrou⟩, hsi⟩, hsl⟩, h₁⟩, h₂⟩, h₃⟩, h₄⟩, h₅⟩, h₆⟩, h₇⟩, h₈⟩ := h
  have hwi := waiting_of_work hsi hi
  have hwl := waiting_of_work hsl hl
  refine { listener := ?_, handler := ?_, inbound := ?_, loopback := ?_, router := ?_, scheduler := h₁
           fromInternet := h₂, fromProbes := h₃, fromPeers := h₅, fromLocal := h₇, toInternet := .inl ⟨hwi, h₆⟩
           toLocal := .inl ⟨hwl, h₈⟩, fromStun := .inr h₄, internetSender := hwi, localSender := hwl }
  · cases hl : s.listener with
    | waiting => rfl
    | _ => simp [hl, ListenerTask.work] at hlis
  · cases hl : s.handler with
    | waiting => rfl
    | _ => simp [hl, HandlerTask.work] at hhan
  · cases hl : s.inbound with
    | waiting => rfl
    | _ => simp [hl, InboundTask.work] at hinb
  · cases hl : s.loopback with
    | waiting => rfl
    | _ => simp [hl, LoopbackTask.work] at hloop
  · cases hl : s.router with
    | waiting => rfl
    | _ => simp [hl, RouterTask.work] at hrou

/-! ## Inbound -/

def checks (en : ConnEntry) : List Datagram :=
  match en.out with
  | .checked packet source => [(packet, source)]
  | _ => []

/-- The payload, if its source is a candidate when it is checked. -/
def passes (en : ConnEntry) : List Bytes :=
  match en.out with
  | .checked packet source => if en.pre.connections.contains source then [packet] else []
  | _ => []

def InboundTask.unchecked : InboundTask → List Datagram
  | checking packet source => [(packet, source)]
  | _ => []

def InboundTask.passed : InboundTask → List Bytes
  | delivering packet _ => [packet]
  | _ => []

namespace ConnState

variable (s : ConnState)

def inFlight : Nat :=
  s.fromInternet.length + s.router.held.length + s.fromPeers.length + s.inbound.held.length + s.toLocal.length

def uncheckedLine : List Datagram :=
  s.inbound.unchecked ++ (s.fromPeers ++ routedData (s.router.held ++ s.fromInternet))

end ConnState

/-- A step that loses nothing inbound before the check. -/
structure InboundKept (en : ConnEntry) : Prop where
  size : en.post.inFlight ≤ en.pre.inFlight + (received en).length
  checked : checks en ++ en.post.uncheckedLine = en.pre.uncheckedLine ++ routedData (received en)

theorem inboundKept_inbound {e : InboundEvent} (h : inboundStep s e = some (s', o)) :
    InboundKept ⟨s, .inbound e, o, s'⟩ := by
  cases e with
  | recv =>
    simp only [inboundStep] at h
    split at h
    · rename_i packet source rest hw hq
      cases h
      constructor
      · simp only [ConnState.inFlight, hw, hq, InboundTask.held, received, List.length_cons, List.length_nil]
        omega
      · simp [ConnState.uncheckedLine, hw, hq, InboundTask.unchecked, received, checks, routedData]
    · cases h
  | check =>
    simp only [inboundStep] at h
    split at h
    · rename_i packet source hc
      cases h
      by_cases hcon : s.connections.contains source = true
      · constructor
        · simp [ConnState.inFlight, hc, hcon, InboundTask.held, received]
        · simp [ConnState.uncheckedLine, hc, hcon, InboundTask.unchecked, received, checks, routedData]
      · constructor
        · simp [ConnState.inFlight, hc, hcon, InboundTask.held, received]
        · simp [ConnState.uncheckedLine, hc, hcon, InboundTask.unchecked, received, checks, routedData]
    · cases h
  | deliver =>
    simp only [inboundStep] at h
    split at h
    · rename_i packet source hd
      split at h
      · cases h
        constructor
        · simp [ConnState.inFlight, hd, InboundTask.held, received]
        · simp [ConnState.uncheckedLine, hd, InboundTask.unchecked, received, checks, routedData]
      · rename_i wireguard _
        cases h
        have hlen := length_trySend_le s.toLocal (packet, wireguard)
        constructor
        · simp only [ConnState.inFlight, hd, InboundTask.held, received, List.length_nil, List.length_singleton]
          omega
        · simp [ConnState.uncheckedLine, hd, InboundTask.unchecked, received, checks, routedData]
    · cases h

/-- A step of a task that the line does not pass. -/
theorem InboundKept.aside (hi : s'.inbound = s.inbound) (hp : s'.fromPeers = s.fromPeers) (hr : s'.router = s.router)
    (hf : s'.fromInternet = s.fromInternet) (ht : s'.toLocal.length ≤ s.toLocal.length)
    (hrec : received ⟨s, e, o, s'⟩ = []) (ho : o.ofInbound = false) : InboundKept ⟨s, e, o, s'⟩ := by
  have hc : checks ⟨s, e, o, s'⟩ = [] := by
    cases o with
    | checked => cases ho
    | _ => rfl
  constructor
  · simp only [ConnState.inFlight, hi, hp, hr, hf]
    omega
  · simp [ConnState.uncheckedLine, hi, hp, hr, hf, hrec, hc, routedData]

theorem inboundKept_route {packet : Bytes} {source : SocketAddr} {kind : InternetPacketKind}
    {probes stun : List Datagram} (hn : s.inFlight ≤ udpQueueCapacity) (hr : s.router = .routing packet source)
    (hk : internetPacketKind packet = .ok kind) :
    InboundKept ⟨s, .socket .route, .silent, { s with
      router := .waiting
      fromProbes := probes
      fromStun := stun
      fromPeers := if kind = .data then (trySend s.fromPeers (packet, normalizeIpv4MappedSource source)).1
        else s.fromPeers }⟩ := by
  have hlt : s.fromPeers.length < udpQueueCapacity := by
    simp only [ConnState.inFlight, hr, RouterTask.held, List.length_singleton] at hn
    omega
  by_cases hd : kind = .data
  · subst hd
    constructor
    · simp only [ConnState.inFlight, hr, RouterTask.held, trySend_room hlt, received, if_true, List.length_append,
        List.length_nil, List.length_singleton]
      omega
    · simp [ConnState.uncheckedLine, hr, RouterTask.held, trySend_room hlt, routedData_cons, hk, checks, received]
      simp [routedData]
  · constructor
    · simp [ConnState.inFlight, hr, RouterTask.held, hd, received]
    · simp [ConnState.uncheckedLine, hr, RouterTask.held, hd, routedData_cons, hk, checks, received]
      simp [routedData]

theorem inboundKept_socket {e : SocketEvent}
    (hn : s.inFlight + (received ⟨s, .socket e, o, s'⟩).length ≤ udpQueueCapacity)
    (h : socketStep s e = some (s', o)) : InboundKept ⟨s, .socket e, o, s'⟩ := by
  rcases socketStep_exact h with ⟨d, rfl, rfl, rfl⟩ | ⟨packet, source, rest, rfl, hr, hq, rfl, rfl⟩ |
    ⟨packet, source, kind, rfl, hr, hk, rfl, rfl⟩ | ⟨_, _, _, rfl, _, rfl, rfl⟩ | ⟨_, rfl, rfl, rfl⟩ |
    ⟨_, _, _, rfl, hst, rfl, rfl⟩ | ⟨_, _, _, _, rfl, _, he⟩ | ⟨_, _, _, _, rfl, _, _, rfl, rfl⟩ | ⟨_, _, rfl, _, rfl, rfl⟩
  · have hlt : s.fromInternet.length < udpQueueCapacity := by
      simp only [ConnState.inFlight, received, List.length_singleton] at hn
      omega
    constructor
    · simp only [ConnState.inFlight, trySend_room hlt, received, List.length_append, List.length_singleton]
      omega
    · simp [ConnState.uncheckedLine, trySend_room hlt, routedData_append, checks, received]
  · constructor
    · simp only [ConnState.inFlight, hr, hq, RouterTask.held, received, List.length_cons, List.length_nil]
      omega
    · simp [ConnState.uncheckedLine, hr, hq, RouterTask.held, checks, received, routedData]
  · exact inboundKept_route hn hr hk
  · exact .aside rfl rfl rfl rfl (le_refl _) rfl rfl
  · exact .aside rfl rfl rfl rfl (le_refl _) rfl rfl
  · exact .aside rfl rfl rfl rfl (length_senderStep (le_refl _) hst) rfl rfl
  · cases he
    exact .aside rfl rfl rfl rfl (le_refl _) rfl rfl
  · exact .aside rfl rfl rfl rfl (le_refl _) rfl rfl
  · exact .aside rfl rfl rfl rfl (le_refl _) rfl rfl

theorem received_nil (hs : ∀ e', e ≠ .socket e') : received ⟨s, e, o, s'⟩ = [] := by
  cases e with
  | socket e' => exact absurd rfl (hs e')
  | _ => rfl

theorem queuedLocal_nil (ho : o.ofInbound = false) : queuedLocal ⟨s, e, o, s'⟩ = [] := by
  cases o with
  | forwarded => cases ho
  | _ => rfl

theorem inboundKept_step (hn : s.inFlight + (received ⟨s, e, o, s'⟩).length ≤ udpQueueCapacity)
    (h : (connection P).step s e = some (s', o)) : InboundKept ⟨s, e, o, s'⟩ := by
  by_cases hi : ∃ e', e = .inbound e'
  · obtain ⟨e', rfl⟩ := hi
    exact inboundKept_inbound h
  by_cases hs : ∃ e', e = .socket e'
  · obtain ⟨e', rfl⟩ := hs
    exact inboundKept_socket hn h
  · have hns : ∀ e', e ≠ .socket e' := fun e' he => hs ⟨e', he⟩
    obtain ⟨ho, -⟩ := (connection_owns h).2.2.resolve_left hi
    obtain ⟨h₁, h₂⟩ := (lines_kept h hns).1.resolve_left hi
    obtain ⟨h₃, h₄, -⟩ := sockets_kept h hns
    have ht := (queues_step h hns).2
    rw [queuedLocal_nil ho, List.append_nil] at ht
    exact .aside h₁ h₂ h₄ h₃ (by rw [ht]) (received_nil hns) ho

/-- From a rest on: what is in flight has arrived, and all that arrived is checked or on its way. -/
structure InboundSince (tr : List ConnEntry) (s : ConnState) : Prop where
  size : s.inFlight ≤ (tr.flatMap received).length
  checked : tr.flatMap checks ++ s.uncheckedLine = routedData (tr.flatMap received)

theorem inboundSince_run (hq : s₀.Quiet) (hr : (connection P).Run s₀ tr s)
    (hn : (tr.flatMap received).length ≤ udpQueueCapacity) : InboundSince tr s := by
  induction hr with
  | nil =>
    have hl := hq.localLine
    rw [ConnState.localLine, List.append_eq_nil_iff] at hl
    constructor
    · simp [ConnState.inFlight, hq.fromInternet, hq.router, hq.fromPeers, hq.inbound, hl.2, RouterTask.held,
        InboundTask.held]
    · simp [ConnState.uncheckedLine, hq.fromInternet, hq.router, hq.fromPeers, hq.inbound, InboundTask.unchecked,
        RouterTask.held, routedData]
  | @snoc tr s e o s' _ hst ih =>
    rw [List.flatMap_append, List.flatMap_singleton, List.length_append] at hn
    obtain ⟨hsize, hchecked⟩ := ih (Nat.le_trans (Nat.le_add_right _ _) hn)
    obtain ⟨ksize, kchecked⟩ := inboundKept_step (Nat.le_trans (Nat.add_le_add_right hsize _) hn) hst
    constructor
    · rw [List.flatMap_append, List.flatMap_singleton, List.length_append]
      exact Nat.le_trans ksize (Nat.add_le_add_right hsize _)
    · rw [List.flatMap_append, List.flatMap_append, List.flatMap_singleton, List.flatMap_singleton, List.append_assoc,
        kchecked, ← List.append_assoc, hchecked, routedData_append]

/-! ## To WireGuard -/

theorem localPeer_step (hp : s.localPeer.isSome = true) (h : (connection P).step s e = some (s', o)) :
    s'.localPeer.isSome = true := by
  cases e with
  | listener e =>
    rcases listenerStep_cases h with ⟨_, _, _, rfl, _⟩ | ⟨_, _, _, _, _, _, _, rfl⟩ | ⟨_, _, _, _, _, _, rfl⟩ |
      ⟨_, _, _, _, _, _, rfl⟩ | ⟨_, _, _, _, _, _, _, _, rfl⟩ <;> exact hp
  | handler e =>
    rcases handlerStep_cases h with ⟨_, _, _, _, _, _, rfl⟩ | ⟨_, _, _, _, _, _, _, rfl⟩ | ⟨_, _, _, _, _, _, rfl⟩ |
      ⟨_, _, _, he⟩
    · exact hp
    · exact hp
    · exact hp
    · cases he; exact hp
  | inbound e =>
    rcases inboundStep_cases h with ⟨_, _, _, _, _, _, rfl⟩ | ⟨_, _, _, _, rfl⟩ | ⟨rfl, _⟩ | ⟨_, _, _, _, _, _, rfl⟩ <;>
      exact hp
  | loopback e =>
    rcases loopbackStep_exact h with ⟨_, _, _, _, _, _, _, rfl⟩ | ⟨_, _, _, _, _, rfl⟩ | ⟨_, _, _, _, _, rfl⟩ |
      ⟨_, _, _, _, _, _, _, _, rfl⟩ | ⟨_, _, _, _, _, he⟩ | ⟨_, _, _, _, rfl⟩
    · exact hp
    · exact hp
    · rfl
    · exact hp
    · cases he; exact hp
    · exact hp
  | scheduler e =>
    rcases schedulerStep_cases h with ⟨_, _, _, _, _, rfl⟩ | ⟨_, _, _, he⟩
    · exact hp
    · cases he; exact hp
  | socket e =>
    rcases socketStep_cases h with ⟨_, _, _, _, _, _, _, _, rfl⟩ | ⟨_, _, _, rfl⟩ | ⟨_, _, _, _, _, rfl⟩ |
      ⟨_, _, _, _, _, _, rfl⟩ <;> exact hp

/-- With WireGuard's address known, a payload that passes gets into the queue of the loopback socket. -/
theorem passed_inbound {e : InboundEvent} (hp : s.localPeer.isSome = true) (hn : s.inFlight ≤ udpQueueCapacity)
    (h : inboundStep s e = some (s', o)) :
    (queuedLocal ⟨s, .inbound e, o, s'⟩).map Prod.fst ++ s'.inbound.passed =
      s.inbound.passed ++ passes ⟨s, .inbound e, o, s'⟩ := by
  cases e with
  | recv =>
    simp only [inboundStep] at h
    split at h
    · rename_i hw _
      cases h
      simp [queuedLocal, passes, hw, InboundTask.passed]
    · cases h
  | check =>
    simp only [inboundStep] at h
    split at h
    · rename_i packet source hc
      cases h
      by_cases hcon : s.connections.contains source = true
      · simp [queuedLocal, passes, hc, hcon, InboundTask.passed]
      · simp [queuedLocal, passes, hc, hcon, InboundTask.passed]
    · cases h
  | deliver =>
    simp only [inboundStep] at h
    split at h
    · rename_i packet source hd
      split at h
      · rename_i hnone
        rw [hnone] at hp
        cases hp
      · rename_i wireguard _
        have hlt : s.toLocal.length < udpQueueCapacity := by
          simp only [ConnState.inFlight, hd, InboundTask.held, List.length_singleton] at hn
          omega
        rw [trySend_room hlt] at h
        cases h
        simp [queuedLocal, passes, hd, InboundTask.passed]
    · cases h

theorem passed_step (hp : s.localPeer.isSome = true) (hn : s.inFlight ≤ udpQueueCapacity)
    (h : (connection P).step s e = some (s', o)) :
    (queuedLocal ⟨s, e, o, s'⟩).map Prod.fst ++ s'.inbound.passed = s.inbound.passed ++ passes ⟨s, e, o, s'⟩ := by
  by_cases hi : ∃ e', e = .inbound e'
  · obtain ⟨e', rfl⟩ := hi
    exact passed_inbound hp hn h
  · obtain ⟨ho, hkept⟩ := (connection_owns h).2.2.resolve_left hi
    have hpass : passes ⟨s, e, o, s'⟩ = [] := by
      cases o with
      | checked => cases ho
      | _ => rfl
    rw [queuedLocal_nil ho, hpass, hkept]
    simp

theorem passed_run (hq : s₀.Quiet) (hp : s₀.localPeer.isSome = true) (hr : (connection P).Run s₀ tr s)
    (hn : (tr.flatMap received).length ≤ udpQueueCapacity) :
    s.localPeer.isSome = true ∧ (tr.flatMap queuedLocal).map Prod.fst ++ s.inbound.passed = tr.flatMap passes := by
  induction hr with
  | nil => exact ⟨hp, by simp [hq.inbound, InboundTask.passed]⟩
  | @snoc tr s e o s' hpre hst ih =>
    rw [List.flatMap_append, List.flatMap_singleton, List.length_append] at hn
    have hn' : (tr.flatMap received).length ≤ udpQueueCapacity := Nat.le_trans (Nat.le_add_right _ _) hn
    obtain ⟨hp, hpassed⟩ := ih hn'
    have hsize := Nat.le_trans (inboundSince_run hq hpre hn').size hn'
    refine ⟨localPeer_step hp hst, ?_⟩
    rw [List.flatMap_append, List.flatMap_append, List.flatMap_singleton, List.flatMap_singleton, List.map_append,
      List.append_assoc, passed_step hp hsize hst, ← List.append_assoc, hpassed]

theorem checked_rest (h : InboundSince tr s) (hq : s.Quiet) : tr.flatMap checks = routedData (tr.flatMap received) := by
  simpa [ConnState.uncheckedLine, hq.inbound, hq.router, hq.fromPeers, hq.fromInternet, InboundTask.unchecked,
    RouterTask.held, routedData] using h.checked

theorem passed_rest (hq₀ : s₀.Quiet) (hp : s₀.localPeer.isSome = true) (hr : (connection P).Run s₀ tr s)
    (hn : (tr.flatMap received).length ≤ udpQueueCapacity) (hq : s.Quiet) :
    (tr.flatMap sentLocal).map Prod.fst = tr.flatMap passes := by
  have hsent := hr.line_eq (L := ConnState.localLine) (T := sentLocal) (A := queuedLocal) hq₀.localLine
    fun _ _ _ _ hst => (queues_ledger hst).2
  have hpassed : (tr.flatMap queuedLocal).map Prod.fst = tr.flatMap passes := by
    simpa [hq.inbound, InboundTask.passed] using (passed_run hq₀ hp hr hn).2
  rw [hq.localLine, List.append_nil] at hsent
  rw [hsent, hpassed]

/-- **Without overflow nothing is lost inbound.** Between two states of rest
with at most 256 arrivals in between, every data datagram is checked once, in
order of arrival; and if WireGuard's address is known at the first, the
payloads of those that pass are exactly what WireGuard gets, in that order. -/
theorem inbound_complete (hq₀ : s₀.Quiet) (hr : (connection P).Run s₀ tr s)
    (hn : (tr.flatMap received).length ≤ udpQueueCapacity) (hq : s.Quiet) :
    tr.flatMap checks = routedData (tr.flatMap received) ∧
      (s₀.localPeer.isSome = true → (tr.flatMap sentLocal).map Prod.fst = tr.flatMap passes) :=
  ⟨checked_rest (inboundSince_run hq₀ hr hn) hq, fun hp => passed_rest hq₀ hp hr hn hq⟩

/-! ## Outbound -/

def locks (en : ConnEntry) : List Bytes :=
  match en.event, en.pre.loopback with
  | .loopback (.lock _ _), .locking packet => [packet]
  | _, _ => []

/-- The payload, if the address is a candidate when the forwarder takes the lock. -/
def locksFor (peer : SocketAddr) (en : ConnEntry) : List Bytes :=
  if en.pre.connections.contains peer then locks en else []

def offers (en : ConnEntry) : List Datagram :=
  match en.out with
  | .offered _ d _ => [d]
  | _ => []

def LoopbackTask.unlocked : LoopbackTask → List Bytes
  | comparing packet _ => [packet]
  | setting packet _ => [packet]
  | locking packet => [packet]
  | _ => []

def LoopbackTask.fanning (peer : SocketAddr) : LoopbackTask → List Bytes
  | sending packet peers => (peers.filter (· = peer)).map fun _ => packet
  | _ => []

theorem fanning_lock {c : CandidateSet} {l₁ l₂ : List SocketAddr} (h₁ : Enumerates l₁ c.advertised)
    (h₂ : Enumerates l₂ c.peerReflexive) (packet : Bytes) (peer : SocketAddr) :
    (LoopbackTask.sending packet (c.addresses l₁ l₂)).fanning peer = if c.contains peer then [packet] else [] := by
  have hcount := List.Nodup.count (CandidateSet.nodup_addresses h₁ h₂) (a := peer)
  rw [LoopbackTask.fanning, List.filter_eq, List.map_replicate, hcount]
  by_cases hc : c.contains peer = true
  · simp [hc, (CandidateSet.mem_addresses_iff h₁ h₂ peer).mpr hc]
  · simp [hc, mt (CandidateSet.mem_addresses_iff h₁ h₂ peer).mp hc]

def ConnState.unlockedLine (s : ConnState) : List Bytes := s.loopback.unlocked ++ s.fromLocal.map Prod.fst

/-- A step that loses nothing outbound. -/
structure OutboundKept (en : ConnEntry) : Prop where
  locked : locks en ++ en.post.unlockedLine = en.pre.unlockedLine ++ receivedLocal en
  fanned : ∀ peer, fannedTo peer en ++ en.post.loopback.fanning peer = en.pre.loopback.fanning peer ++ locksFor peer en
  sent : sent en ++ en.post.outLine = en.pre.outLine ++ offers en

theorem offered_queued {origin : Origin} {d : Datagram} {q : Bool}
    (h : (connection P).step s e = some (s', .offered origin d q)) : q = (trySend s.toInternet d).2 := by
  cases e with
  | listener e =>
    rcases listenerStep_cases h with ⟨_, _, _, _, ho⟩ | ⟨_, _, _, _, _, _, ho, _⟩ | ⟨_, _, _, _, _, ho, _⟩ |
      ⟨_, _, _, _, _, ho, _⟩ | ⟨_, _, _, _, _, _, _, ho, _⟩ <;> cases ho
  | handler e =>
    rcases handlerStep_cases h with ⟨_, _, _, _, _, ho, _⟩ | ⟨_, _, _, _, _, _, ho, _⟩ | ⟨_, _, _, _, _, ho, _⟩ |
      ⟨_, _, _, he⟩
    · cases ho
    · cases ho
    · cases ho
    · cases he; rfl
  | inbound e =>
    rcases inboundStep_cases h with ⟨_, _, _, _, _, ho, _⟩ | ⟨_, _, _, ho, _⟩ | ⟨_, ho⟩ | ⟨_, _, _, _, _, ho, _⟩ <;>
      cases ho
  | loopback e =>
    rcases loopbackStep_cases h with ⟨_, _, _, _, ho, _⟩ | ⟨_, _, _, _, _, _, ho, _⟩ | ⟨_, _, _, _, he⟩
    · cases ho
    · cases ho
    · cases he; rfl
  | scheduler e =>
    rcases schedulerStep_cases h with ⟨_, _, _, _, ho, _⟩ | ⟨_, _, _, he⟩
    · cases ho
    · cases he; rfl
  | socket e =>
    rcases socketStep_exact h with ⟨_, _, ho, _⟩ | ⟨_, _, _, _, _, _, ho, _⟩ | ⟨_, _, _, _, _, _, ho, _⟩ |
      ⟨_, _, _, _, _, ho, _⟩ | ⟨_, _, ho, _⟩ | ⟨_, _, _, _, _, ho, _⟩ | ⟨_, _, _, _, _, _, he⟩ |
      ⟨_, _, _, _, _, _, _, ho, _⟩ | ⟨_, _, _, _, ho, _⟩
    · cases ho
    · cases ho
    · cases ho
    · cases ho
    · cases ho
    · cases ho
    · cases he; rfl
    · cases ho
    · cases ho

theorem queued_eq_offers (hn : s.toInternet.length + (offers ⟨s, e, o, s'⟩).length ≤ udpQueueCapacity)
    (h : (connection P).step s e = some (s', o)) : queued ⟨s, e, o, s'⟩ = offers ⟨s, e, o, s'⟩ := by
  cases o with
  | offered origin d q =>
    have hq := offered_queued h
    have hlt : s.toInternet.length < udpQueueCapacity := hn
    rw [trySend_room hlt] at hq
    subst hq
    rfl
  | _ => rfl

theorem outboundKept_loopback {e : LoopbackEvent} (h : loopbackStep s e = some (s', o)) :
    locks ⟨s, .loopback e, o, s'⟩ ++ s'.unlockedLine = s.unlockedLine ∧
      ∀ peer, fannedTo peer ⟨s, .loopback e, o, s'⟩ ++ s'.loopback.fanning peer =
        s.loopback.fanning peer ++ locksFor peer ⟨s, .loopback e, o, s'⟩ := by
  rcases loopbackStep_exact h with ⟨packet, wireguard, rest, rfl, hl, hq, rfl, rfl⟩ |
    ⟨packet, wireguard, rfl, hl, rfl, rfl⟩ | ⟨packet, wireguard, rfl, hl, rfl, rfl⟩ |
    ⟨packet, l₁, l₂, rfl, hl, h₁, h₂, rfl, rfl⟩ | ⟨packet, next, peers, rfl, hl, he⟩ | ⟨packet, rfl, hl, rfl, rfl⟩
  · constructor
    · simp [ConnState.unlockedLine, locks, hl, hq, LoopbackTask.unlocked]
    · simp [fannedTo, locksFor, locks, hl, LoopbackTask.fanning]
  · constructor
    · by_cases hw : s.localPeer = some wireguard <;>
        simp [ConnState.unlockedLine, locks, hl, hw, LoopbackTask.unlocked]
    · by_cases hw : s.localPeer = some wireguard <;>
        simp [fannedTo, locksFor, locks, hl, hw, LoopbackTask.fanning]
  · constructor
    · simp [ConnState.unlockedLine, locks, hl, LoopbackTask.unlocked]
    · simp [fannedTo, locksFor, locks, hl, LoopbackTask.fanning]
  · constructor
    · simp [ConnState.unlockedLine, locks, hl, LoopbackTask.unlocked]
    · intro peer
      rw [fanning_lock h₁ h₂]
      simp [fannedTo, locksFor, locks, hl, LoopbackTask.fanning]
  · obtain ⟨rfl, rfl⟩ := Prod.mk.inj he
    constructor
    · simp [ConnState.unlockedLine, locks, hl, LoopbackTask.unlocked]
    · intro peer
      by_cases hn : next = peer <;>
        simp [fannedTo, locksFor, locks, hl, hn, LoopbackTask.fanning]
  · constructor
    · simp [ConnState.unlockedLine, locks, hl, LoopbackTask.unlocked]
    · simp [fannedTo, locksFor, locks, hl, LoopbackTask.fanning]

theorem fromLocal_kept {e : SocketEvent} (hn : s.fromLocal.length + (receivedLocal ⟨s, .socket e, o, s'⟩).length ≤
    udpQueueCapacity) (h : socketStep s e = some (s', o)) :
    s'.fromLocal.map Prod.fst = s.fromLocal.map Prod.fst ++ receivedLocal ⟨s, .socket e, o, s'⟩ := by
  rcases socketStep_exact h with ⟨_, rfl, _, rfl⟩ | ⟨_, _, _, rfl, _, _, _, rfl⟩ | ⟨_, _, _, rfl, _, _, _, rfl⟩ |
    ⟨_, _, _, rfl, _, _, rfl⟩ | ⟨d, rfl, _, rfl⟩ | ⟨_, _, _, rfl, _, _, rfl⟩ | ⟨_, _, _, _, rfl, _, he⟩ |
    ⟨_, _, _, _, rfl, _, _, _, rfl⟩ | ⟨_, _, rfl, _, _, rfl⟩
  · exact (List.append_nil _).symm
  · exact (List.append_nil _).symm
  · exact (List.append_nil _).symm
  · exact (List.append_nil _).symm
  · have hlt : s.fromLocal.length < udpQueueCapacity := hn
    simp [trySend_room hlt, receivedLocal]
  · exact (List.append_nil _).symm
  · cases he
    exact (List.append_nil _).symm
  · exact (List.append_nil _).symm
  · exact (List.append_nil _).symm

theorem outboundKept_step (hl : s.fromLocal.length + (receivedLocal ⟨s, e, o, s'⟩).length ≤ udpQueueCapacity)
    (hn : s.toInternet.length + (offers ⟨s, e, o, s'⟩).length ≤ udpQueueCapacity)
    (h : (connection P).step s e = some (s', o)) : OutboundKept ⟨s, e, o, s'⟩ := by
  have hsent := (queues_ledger h).1
  rw [queued_eq_offers hn h] at hsent
  by_cases hlo : ∃ e', e = .loopback e'
  · obtain ⟨e', rfl⟩ := hlo
    obtain ⟨hlocked, hfanned⟩ := outboundKept_loopback h
    exact ⟨hlocked.trans (List.append_nil _).symm, hfanned, hsent⟩
  · obtain ⟨hkept, hf, -⟩ := (connection_spares h).resolve_left hlo
    have hlocks : locks ⟨s, e, o, s'⟩ = [] := by
      cases e with
      | loopback e' => exact absurd ⟨e', rfl⟩ hlo
      | _ => rfl
    have hfan : ∀ peer, fannedTo peer ⟨s, e, o, s'⟩ = [] := by
      intro peer
      unfold fannedTo
      split
      · rename_i ho
        rw [fannedBy, ho] at hf
        cases hf
      · rfl
    refine ⟨?_, ?_, hsent⟩
    · rw [hlocks, List.nil_append, ConnState.unlockedLine, ConnState.unlockedLine, hkept, List.append_assoc]
      congr 1
      by_cases hs : ∃ e', e = .socket e'
      · obtain ⟨e', rfl⟩ := hs
        exact fromLocal_kept hl h
      · rw [(lines_kept h fun e' he => hs ⟨e', he⟩).2.resolve_left hlo]
        cases e with
        | socket e' => exact absurd ⟨e', rfl⟩ hs
        | _ => exact (List.append_nil _).symm
    · intro peer
      simp [hfan, locksFor, hlocks, hkept]

/-- From a rest on: nothing that came from WireGuard is missing. -/
structure OutboundSince (tr : List ConnEntry) (s : ConnState) : Prop where
  locked : tr.flatMap locks ++ s.unlockedLine = tr.flatMap receivedLocal
  fanned : ∀ peer, tr.flatMap (fannedTo peer) ++ s.loopback.fanning peer = tr.flatMap (locksFor peer)
  sent : tr.flatMap sent ++ s.outLine = tr.flatMap offers

theorem OutboundSince.fromLocal (h : OutboundSince tr s) : s.fromLocal.length ≤ (tr.flatMap receivedLocal).length := by
  rw [← h.locked, ConnState.unlockedLine, List.length_append, List.length_append, List.length_map]
  omega

theorem OutboundSince.toInternet (h : OutboundSince tr s) : s.toInternet.length ≤ (tr.flatMap offers).length := by
  rw [← h.sent, ConnState.outLine, List.length_append, List.length_append]
  omega

theorem outboundSince_run (hq : s₀.Quiet) (hr : (connection P).Run s₀ tr s)
    (hl : (tr.flatMap receivedLocal).length ≤ udpQueueCapacity) (hn : (tr.flatMap offers).length ≤ udpQueueCapacity) :
    OutboundSince tr s := by
  induction hr with
  | nil =>
    refine ⟨?_, ?_, ?_⟩
    · simp [ConnState.unlockedLine, hq.loopback, hq.fromLocal, LoopbackTask.unlocked]
    · simp [hq.loopback, LoopbackTask.fanning]
    · simp [hq.outLine]
  | @snoc tr s e o s' _ hst ih =>
    rw [List.flatMap_append, List.flatMap_singleton, List.length_append] at hl hn
    have hI := ih (Nat.le_trans (Nat.le_add_right _ _) hl) (Nat.le_trans (Nat.le_add_right _ _) hn)
    obtain ⟨klocked, kfanned, ksent⟩ := outboundKept_step (Nat.le_trans (Nat.add_le_add_right hI.fromLocal _) hl)
      (Nat.le_trans (Nat.add_le_add_right hI.toInternet _) hn) hst
    refine ⟨?_, ?_, ?_⟩
    · rw [List.flatMap_append, List.flatMap_append, List.flatMap_singleton, List.flatMap_singleton, List.append_assoc,
        klocked, ← List.append_assoc, hI.locked]
    · intro peer
      rw [List.flatMap_append, List.flatMap_append, List.flatMap_singleton, List.flatMap_singleton, List.append_assoc,
        kfanned, ← List.append_assoc, hI.fanned]
    · rw [List.flatMap_append, List.flatMap_append, List.flatMap_singleton, List.flatMap_singleton, List.append_assoc,
        ksent, ← List.append_assoc, hI.sent]

theorem outbound_rest (h : OutboundSince tr s) (hq : s.Quiet) :
    tr.flatMap locks = tr.flatMap receivedLocal ∧
      (∀ peer, tr.flatMap (fannedTo peer) = tr.flatMap (locksFor peer)) ∧ tr.flatMap sent = tr.flatMap offers := by
  refine ⟨?_, ?_, ?_⟩
  · simpa [ConnState.unlockedLine, hq.loopback, hq.fromLocal, LoopbackTask.unlocked] using h.locked
  · intro peer
    simpa [hq.loopback, LoopbackTask.fanning] using h.fanned peer
  · simpa [hq.outLine] using h.sent

/-- **Without overflow nothing is lost outbound.** Between two states of rest
with at most 256 datagrams from WireGuard and 256 for the Internet in between,
each payload goes once, in order, to every address that was a candidate when
the forwarder took the lock for it, and all that was offered to the Internet
socket is sent. -/
theorem outbound_complete (hq₀ : s₀.Quiet) (hr : (connection P).Run s₀ tr s)
    (hl : (tr.flatMap receivedLocal).length ≤ udpQueueCapacity) (hn : (tr.flatMap offers).length ≤ udpQueueCapacity)
    (hq : s.Quiet) :
    tr.flatMap locks = tr.flatMap receivedLocal ∧
      (∀ peer, tr.flatMap (fannedTo peer) = tr.flatMap (locksFor peer)) ∧ tr.flatMap sent = tr.flatMap offers :=
  outbound_rest (outboundSince_run hq₀ hr hl hn) hq

end

/-- The fan-out of `sampleFanout`, and everything on its way. -/
def sampleRest : List ConnEvent :=
  sampleFanout ++ [.handler .echo, .socket (.send .recv), .socket (.send (.sendTo 0 (.ok 4))), .socket (.send .recv),
    .socket (.send (.sendTo 0 (.ok 4))), .socket (.send .recv), .socket (.send (.sendTo 0 (.ok 20)))]

theorem sampleRest_runs :
    ((connection (sampleEndpoint ⟨false, false⟩)).exec (.new (.fill 7)) sampleRest).isSome = true := by
  decide +kernel

theorem sampleRest_complete : ∃ tr s, (connection (sampleEndpoint ⟨false, false⟩)).Run (.new (.fill 7)) tr s ∧
    tr.flatMap receivedLocal = [[1, 0, 0, 0]] ∧ tr.flatMap (fannedTo (.testNet 3 10000)) = [[1, 0, 0, 0]] ∧
    tr.flatMap locks = tr.flatMap receivedLocal ∧ tr.flatMap sent = tr.flatMap offers := by
  obtain ⟨hlocked, -, hsent⟩ := outbound_complete (quiet_of_work (by decide) rfl rfl)
    (Machine.run_of_exec sampleRest_runs) (by decide +kernel) (by decide +kernel)
    (quiet_of_work (by decide +kernel) (by decide +kernel) (by decide +kernel))
  exact ⟨_, _, Machine.run_of_exec sampleRest_runs, by decide +kernel, by decide +kernel, hlocked, hsent⟩

def sampleRested : ConnState :=
  (((connection (sampleEndpoint ⟨false, false⟩)).exec (.new (.fill 7)) sampleRest).get sampleRest_runs).2

/-- A datagram of a candidate and one of a stranger. -/
def sampleArrivals : List ConnEvent :=
  [.socket (.receive ([2, 0, 0, 0], .testNet 1 10000)), .socket (.receive ([4, 0, 0, 0], .testNet 9 10000)),
    .socket .recv, .socket .route, .inbound .recv, .socket .recv, .socket .route, .inbound .check, .inbound .deliver,
    .inbound .recv, .inbound .check, .socket (.sendLocal .recv), .socket (.sendLocal (.sendTo 0 (.ok 4)))]

theorem sampleArrivals_runs :
    ((connection (sampleEndpoint ⟨false, false⟩)).exec sampleRested sampleArrivals).isSome = true := by
  decide +kernel

theorem sampleRested_quiet : sampleRested.Quiet :=
  quiet_of_work (by decide +kernel) (by decide +kernel) (by decide +kernel)

theorem sampleArrivals_complete : ∃ tr s, (connection (sampleEndpoint ⟨false, false⟩)).Run sampleRested tr s ∧
    tr.flatMap sentLocal = [([2, 0, 0, 0], .v4 (.new 127 0 0 1) 51820)] ∧
    tr.flatMap checks = routedData (tr.flatMap received) ∧ (tr.flatMap sentLocal).map Prod.fst = tr.flatMap passes := by
  obtain ⟨hchecks, hpasses⟩ := inbound_complete sampleRested_quiet (Machine.run_of_exec sampleArrivals_runs)
    (by decide +kernel) (quiet_of_work (by decide +kernel) (by decide +kernel) (by decide +kernel))
  exact ⟨_, _, Machine.run_of_exec sampleArrivals_runs, by decide +kernel, hchecks, hpasses (by decide +kernel)⟩

end P2pTunnler
