import P2pTunnler.FlowSound
import P2pTunnler.RouterSound
import P2pTunnler.Lib.Settle

/-!
# Bounded memory and progress

Whatever arrives, a connection keeps a bounded number of datagrams. Between
two arrivals it has a bounded number of steps to take, in whatever order its
tasks run, and it stops only when every task waits for its next datagram, for
an arrival or for a timer: no task waits for a lock that is never given back.
-/

namespace P2pTunnler

open Finset (Enumerates)

/-! ## Memory -/

/-- The longest fan-out of one loopback datagram. -/
def maxFanout : Nat := maxRemoteCandidates + maxPeerReflexiveCandidates

structure ConnState.Bounded (s : ConnState) : Prop where
  fromInternet : s.fromInternet.length ≤ udpQueueCapacity
  fromProbes : s.fromProbes.length ≤ udpQueueCapacity
  fromStun : s.fromStun.length ≤ udpQueueCapacity
  fromPeers : s.fromPeers.length ≤ udpQueueCapacity
  toInternet : s.toInternet.length ≤ udpQueueCapacity
  fromLocal : s.fromLocal.length ≤ udpQueueCapacity
  toLocal : s.toLocal.length ≤ udpQueueCapacity
  scheduler : s.scheduler.length ≤ maxProbePaths
  sending : ∀ packet peers, s.loopback = .sending packet peers → peers.length ≤ maxFanout

theorem length_trySend {α : Type} {q : List α} (h : q.length ≤ udpQueueCapacity) (d : α) :
    (trySend q d).1.length ≤ udpQueueCapacity := by
  unfold trySend
  split
  · rw [List.length_append, List.length_singleton]
    omega
  · exact h

theorem length_tail_le {α : Type} {q rest : List α} {d : α} {n : Nat} (h : q.length ≤ n) (hq : q = d :: rest) :
    rest.length ≤ n := by
  rw [hq, List.length_cons] at h
  omega

section
variable {κ : Type} {P : Endpoint κ} {tok : Token} {tr : List ConnEntry} {s s' : ConnState} {o : ConnOut}

theorem bounded_new (tok : Token) : (ConnState.new tok).Bounded := by
  refine ⟨?_, ?_, ?_, ?_, ?_, ?_, ?_, ?_, ?_⟩
  all_goals first | exact Nat.zero_le _ | skip
  intro packet peers h
  cases h

theorem ConnState.Bounded.offer {s₀ : ConnState} (hB : s₀.Bounded) {origin : Origin} {d : Datagram}
    (h : (s', o) = s₀.offer origin d) : s'.Bounded := by
  cases h
  exact { hB with toInternet := length_trySend hB.toInternet d }

theorem length_dueFrames_le (st : ProbeState) (now : Nat) {order : List SocketAddr}
    (jitter : SocketAddr → Nat → Nat) (ho : Enumerates order st.paths.keys) :
    (st.dueFrames now order jitter).2.length ≤ st.paths.size := by
  unfold ProbeState.dueFrames FinTable.size
  split
  · exact Nat.zero_le _
  · rw [← ho.length]
    exact List.length_filterMap_le _ _

theorem length_senderStep {queue queue' : List Datagram} {task task' : SenderTask} {e : SenderEvent} {n : Nat}
    (hq : queue.length ≤ n) (h : senderStep queue task e = some (queue', .ok task')) : queue'.length ≤ n := by
  rcases senderStep_cases h with ⟨d, _, _, rfl, _⟩ | ⟨_, _, _, _, rfl, _⟩ | ⟨_, _, _, _, _, _, rfl, _⟩ |
    ⟨_, _, _, _, _, _, rfl, _⟩
  · exact length_tail_le hq rfl
  · exact hq
  · exact hq
  · exact hq

theorem bounded_socket {e : SocketEvent} (hB : s.Bounded) (h : socketStep s e = some (s', o)) : s'.Bounded := by
  rcases socketStep_exact h with ⟨d, _, _, rfl⟩ | ⟨_, _, _, _, _, hq, _, rfl⟩ |
    ⟨packet, source, kind, _, _, _, _, rfl⟩ | ⟨_, _, _, _, hst, _, rfl⟩ | ⟨d, _, _, rfl⟩ | ⟨_, _, _, _, hst, _, rfl⟩ | ⟨_, _, stun, _, _, _, he⟩ |
    ⟨_, _, _, _, _, _, hq, _, rfl⟩ | ⟨_, _, _, _, _, rfl⟩
  · exact { hB with fromInternet := length_trySend hB.fromInternet d }
  · exact { hB with fromInternet := length_tail_le hB.fromInternet hq }
  · have hkind : ∀ (k : InternetPacketKind) {q : List Datagram}, q.length ≤ udpQueueCapacity →
        (if kind = k then (trySend q (packet, normalizeIpv4MappedSource source)).1 else q).length ≤
          udpQueueCapacity := by
      intro k q hle
      split
      · exact length_trySend hle _
      · exact hle
    exact { hB with
      fromProbes := hkind .probe hB.fromProbes
      fromStun := hkind .stun hB.fromStun
      fromPeers := hkind .data hB.fromPeers }
  · exact { hB with toInternet := length_senderStep hB.toInternet hst }
  · exact { hB with fromLocal := length_trySend hB.fromLocal d }
  · exact { hB with toLocal := length_senderStep hB.toLocal hst }
  · have hasked : { s with stun := stun }.Bounded := { hB with }
    exact hasked.offer he
  · exact { hB with fromStun := length_tail_le hB.fromStun hq }
  · exact { hB with }

theorem bounded_loopback {e : LoopbackEvent} (hB : s.Bounded)
    (ha : s.connections.advertised.card ≤ maxRemoteCandidates) (h : loopbackStep s e = some (s', o)) :
    s'.Bounded := by
  rcases loopbackStep_exact h with ⟨packet, wireguard, rest, _, _, hq, _, rfl⟩ | ⟨packet, wireguard, _, _, _, rfl⟩ |
    ⟨packet, wireguard, _, _, _, rfl⟩ | ⟨packet, l₁, l₂, _, _, h₁, h₂, _, rfl⟩ | ⟨packet, peer, peers, _, hl, he⟩ |
    ⟨packet, _, _, _, rfl⟩
  · refine { hB with fromLocal := length_tail_le hB.fromLocal hq, sending := ?_ }
    intro packet peers h
    cases h
  · refine { hB with sending := ?_ }
    intro packet peers h
    dsimp only at h
    split at h <;> cases h
  · refine { hB with sending := ?_ }
    intro packet peers h
    cases h
  · refine { hB with sending := ?_ }
    intro packet peers h
    cases h
    exact Nat.le_trans (CandidateSet.length_addresses h₁ h₂) (Nat.add_le_add ha s.connections.bounded)
  · have hsending : { s with loopback := .sending packet peers }.Bounded := by
      refine { hB with sending := ?_ }
      intro packet' peers' h
      cases h
      exact length_tail_le (hB.sending _ _ hl) rfl
    exact hsending.offer he
  · refine { hB with sending := ?_ }
    intro packet peers h
    cases h

theorem bounded_step {e : ConnEvent} (hB : s.Bounded) (hp : s.probes.paths.size ≤ maxProbePaths)
    (ha : s.connections.advertised.card ≤ maxRemoteCandidates) (h : (connection P).step s e = some (s', o)) :
    s'.Bounded := by
  cases e with
  | listener e =>
    rcases listenerStep_cases h with ⟨_, _, _, rfl, _⟩ | ⟨_, _, _, _, _, _, _, rfl⟩ | ⟨_, _, _, _, _, _, rfl⟩ |
      ⟨_, _, _, _, _, _, rfl⟩ | ⟨_, _, _, _, _, _, _, _, rfl⟩ <;> exact { hB with }
  | handler e =>
    rcases handlerStep_cases h with ⟨_, _, _, _, hq, _, rfl⟩ | ⟨_, _, _, _, _, _, _, rfl⟩ | ⟨_, _, _, _, _, _, rfl⟩ |
      ⟨_, _, _, he⟩
    · exact { hB with fromProbes := length_tail_le hB.fromProbes hq }
    · exact { hB with }
    · exact { hB with }
    · have hwaiting : { s with handler := .waiting }.Bounded := { hB with }
      exact hwaiting.offer he
  | inbound e =>
    rcases inboundStep_cases h with ⟨_, _, _, _, hq, _, rfl⟩ | ⟨_, _, _, _, rfl⟩ | ⟨rfl, _⟩ | ⟨_, _, _, _, _, _, rfl⟩
    · exact { hB with fromPeers := length_tail_le hB.fromPeers hq }
    · exact { hB with }
    · exact { hB with }
    · exact { hB with toLocal := length_trySend hB.toLocal _ }
  | loopback e => exact bounded_loopback hB ha h
  | scheduler e =>
    rcases schedulerStep_cases h with ⟨now, order, jitter, ho, _, rfl⟩ | ⟨d, rest, hq, he⟩
    · exact { hB with scheduler := Nat.le_trans (length_dueFrames_le s.probes now jitter ho) hp }
    · have hrest : { s with scheduler := rest }.Bounded := { hB with scheduler := length_tail_le hB.scheduler hq }
      exact hrest.offer he
  | socket e => exact bounded_socket hB h

theorem bounded_run (hr : (connection P).Run (.new tok) tr s) : s.Bounded := by
  refine hr.history (C := fun _ => True) (P := fun _ s => s.Bounded) (bounded_new tok) ?_ (fun _ _ => trivial)
  intro tr s e o s' hpre hB hst _
  exact bounded_step hB (pathsInv_run hpre).size (fanoutInv_run hpre).bounded hst

def HandlerTask.retained : HandlerTask → Nat
  | waiting => 0
  | _ => 1

def LoopbackTask.retained : LoopbackTask → Nat
  | waiting => 0
  | sending _ peers => peers.length + 1
  | _ => 1

/-- Datagrams that are queued or held by a task; one that goes to several
addresses counts for each that is left. -/
def ConnState.retained (s : ConnState) : Nat :=
  s.fromInternet.length + s.fromProbes.length + s.fromStun.length + s.fromPeers.length + s.toInternet.length +
    s.fromLocal.length + s.toLocal.length + s.scheduler.length + s.router.held.length + s.internetSender.held.length +
    s.localSender.held.length + s.inbound.held.length + s.handler.retained + s.loopback.retained

/-- **Memory is bounded**, whatever arrives and in whatever order the tasks
run: the datagrams that a connection keeps, the addresses it sends to and the
paths it probes. -/
theorem memory_bounded (hr : (connection P).Run (.new tok) tr s) :
    s.retained ≤ 7 * udpQueueCapacity + maxProbePaths + 6 + maxFanout ∧
      s.connections.advertised.card + s.connections.peerReflexive.card ≤ maxFanout ∧
      s.probes.paths.size ≤ maxProbePaths := by
  have hB := bounded_run hr
  refine ⟨?_, Nat.add_le_add (fanoutInv_run hr).bounded s.connections.bounded, (pathsInv_run hr).size⟩
  have hrou : s.router.held.length ≤ 1 := by
    cases s.router <;> simp [RouterTask.held]
  have hint := s.internetSender.length_held
  have hloc := s.localSender.length_held
  have hinb : s.inbound.held.length ≤ 1 := by
    cases s.inbound <;> simp [InboundTask.held]
  have hhan : s.handler.retained ≤ 1 := by
    cases s.handler <;> simp [HandlerTask.retained]
  have hloop : s.loopback.retained ≤ maxFanout + 1 := by
    cases hl : s.loopback with
    | sending packet peers => exact Nat.succ_le_succ (hB.sending packet peers hl)
    | _ => simp [LoopbackTask.retained]
  have h₁ := hB.fromInternet
  have h₂ := hB.fromProbes
  have h₃ := hB.fromStun
  have h₄ := hB.fromPeers
  have h₅ := hB.toInternet
  have h₆ := hB.fromLocal
  have h₇ := hB.toLocal
  have h₈ := hB.scheduler
  unfold ConnState.retained
  omega

/-! ## Work -/

def ConnEvent.internal : ConnEvent → Bool
  | .listener (.value _ _) => false
  | .scheduler (.tick _ _ _) => false
  | .socket (.receive _) => false
  | .socket (.send (.wake _)) => false
  | .socket (.receiveLocal _) => false
  | .socket (.sendLocal (.wake _)) => false
  | .socket (.stunRequest _ _) => false
  | .socket .stunTimeout => false
  | _ => true

def RouterTask.work : RouterTask → Nat
  | waiting => 0
  | routing _ _ => 7

-- a sleeping task needs the clock
def SenderTask.work : SenderTask → Nat
  | sending _ => 1
  | _ => 0

def ListenerTask.work : ListenerTask → Nat
  | waiting => 0
  | updating _ _ => 1
  | replacing _ _ => 2
  | reading _ => 3

def HandlerTask.work : HandlerTask → Nat
  | waiting => 0
  | echoing _ _ => 3
  | admitting _ _ => 4
  | acting _ _ => 5

def InboundTask.work : InboundTask → Nat
  | waiting => 0
  | delivering _ _ => 3
  | checking _ _ => 4

def LoopbackTask.work : LoopbackTask → Nat
  | waiting => 0
  | sending _ peers => 3 * peers.length + 1
  | locking _ => 3 * maxFanout + 2
  | setting _ _ => 3 * maxFanout + 3
  | comparing _ _ => 3 * maxFanout + 4

/-- How many steps the tasks can take before they need an arrival: a datagram
counts for all the tasks it may still pass through. -/
def ConnState.work (s : ConnState) : Nat :=
  s.listener.work + s.handler.work + s.inbound.work + s.loopback.work + s.router.work + s.internetSender.work +
    s.localSender.work + 3 * s.scheduler.length + 8 * s.fromInternet.length + 6 * s.fromProbes.length +
    s.fromStun.length + 5 * s.fromPeers.length + 2 * s.toInternet.length + (3 * maxFanout + 5) * s.fromLocal.length +
    2 * s.toLocal.length

theorem length_trySend_le {α : Type} (q : List α) (d : α) : (trySend q d).1.length ≤ q.length + 1 := by
  unfold trySend
  split
  · rw [List.length_append, List.length_singleton]
  · exact Nat.le_succ _

theorem work_offer {s₀ : ConnState} {origin : Origin} {d : Datagram} (h : (s', o) = s₀.offer origin d) :
    s'.work ≤ s₀.work + 2 := by
  cases h
  have := length_trySend_le s₀.toInternet d
  simp only [ConnState.work]
  omega

theorem work_senderStep {queue queue' : List Datagram} {task task' : SenderTask} {e : SenderEvent}
    (he : ∀ now, e ≠ .wake now) (h : senderStep queue task e = some (queue', .ok task')) :
    task'.work + 2 * queue'.length < task.work + 2 * queue.length := by
  rcases senderStep_cases h with ⟨d, _, rfl, rfl, rfl⟩ | ⟨d, _, _, rfl, rfl, rfl⟩ | ⟨d, _, _, _, _, rfl, rfl, rfl⟩ |
    ⟨_, now, _, rfl, _⟩
  · simp only [SenderTask.work, List.length_cons]
    omega
  · simp only [SenderTask.work]
    omega
  · simp only [SenderTask.work]
    omega
  · exact absurd rfl (he now)

/-- A datagram that is routed joins at most one of the three queues. -/
theorem work_routed (s : ConnState) (kind : InternetPacketKind) (d : Datagram) :
    6 * (if kind = .probe then (trySend s.fromProbes d).1 else s.fromProbes).length +
        (if kind = .stun then (trySend s.fromStun d).1 else s.fromStun).length +
        5 * (if kind = .data then (trySend s.fromPeers d).1 else s.fromPeers).length ≤
      6 * s.fromProbes.length + s.fromStun.length + 5 * s.fromPeers.length + 6 := by
  have hp := length_trySend_le s.fromProbes d
  have hs := length_trySend_le s.fromStun d
  have hd := length_trySend_le s.fromPeers d
  cases kind <;> simp only [if_true, if_false, reduceCtorEq] <;> omega

theorem work_socket {e : SocketEvent} (hi : (ConnEvent.socket e).internal = true)
    (h : socketStep s e = some (s', o)) : s'.work < s.work := by
  rcases socketStep_exact h with ⟨d, rfl, _⟩ | ⟨packet, source, rest, rfl, hr, hq, _, rfl⟩ |
    ⟨packet, source, kind, rfl, hr, _, _, rfl⟩ | ⟨se, _, _, rfl, hst, _, rfl⟩ | ⟨d, rfl, _⟩ |
    ⟨se, _, _, rfl, hst, _, rfl⟩ | ⟨_, _, _, _, rfl, _⟩ | ⟨_, _, _, _, rfl, _, hq, _, rfl⟩ | ⟨_, _, rfl, _⟩
  · cases hi
  · simp only [ConnState.work, hr, hq, RouterTask.work, List.length_cons]
    omega
  · have hrouted := work_routed s kind (packet, normalizeIpv4MappedSource source)
    simp only [ConnState.work, hr, RouterTask.work]
    omega
  · have := work_senderStep (e := se) (fun now he => by subst he; cases hi) hst
    simp only [ConnState.work]
    omega
  · cases hi
  · have := work_senderStep (e := se) (fun now he => by subst he; cases hi) hst
    simp only [ConnState.work]
    omega
  · cases hi
  · simp only [ConnState.work, hq, List.length_cons]
    omega
  · cases hi

theorem work_loopback {e : LoopbackEvent} (ha : s.connections.advertised.card ≤ maxRemoteCandidates)
    (h : loopbackStep s e = some (s', o)) : s'.work < s.work := by
  rcases loopbackStep_exact h with ⟨packet, wireguard, rest, _, hl, hq, _, rfl⟩ | ⟨packet, wireguard, _, hl, _, rfl⟩ |
    ⟨packet, wireguard, _, hl, _, rfl⟩ | ⟨packet, l₁, l₂, _, hl, h₁, h₂, _, rfl⟩ | ⟨packet, peer, peers, _, hl, he⟩ |
    ⟨packet, _, hl, _, rfl⟩
  · simp only [ConnState.work, hl, hq, LoopbackTask.work, List.length_cons, Nat.mul_add]
    omega
  · simp only [ConnState.work, hl]
    split <;> simp only [LoopbackTask.work] <;> omega
  · simp only [ConnState.work, hl, LoopbackTask.work]
    omega
  · have hlen : (s.connections.addresses l₁ l₂).length ≤ maxFanout :=
      Nat.le_trans (CandidateSet.length_addresses h₁ h₂) (Nat.add_le_add ha s.connections.bounded)
    simp only [ConnState.work, hl, LoopbackTask.work]
    omega
  · refine Nat.lt_of_le_of_lt (work_offer he) ?_
    simp only [ConnState.work, hl, LoopbackTask.work, List.length_cons]
    omega
  · simp only [ConnState.work, hl, LoopbackTask.work, List.length_nil]
    omega

theorem work_inbound {e : InboundEvent} (h : inboundStep s e = some (s', o)) : s'.work < s.work := by
  cases e with
  | recv =>
    simp only [inboundStep] at h
    split at h
    · rename_i packet source rest hl hq
      cases h
      simp only [ConnState.work, hl, hq, InboundTask.work, List.length_cons]
      omega
    · cases h
  | check =>
    simp only [inboundStep] at h
    split at h
    · rename_i packet source hl
      cases h
      simp only [ConnState.work, hl]
      split <;> simp only [InboundTask.work] <;> omega
    · cases h
  | deliver =>
    simp only [inboundStep] at h
    split at h
    · rename_i packet source hl
      split at h
      · cases h
        simp only [ConnState.work, hl, InboundTask.work]
        omega
      · rename_i wireguard _
        cases h
        have := length_trySend_le s.toLocal (packet, wireguard)
        simp only [ConnState.work, hl, InboundTask.work]
        omega
    · cases h

/-- Each step of a task uses up work; only arrivals and the clock bring some. -/
theorem work_step {e : ConnEvent} (hi : e.internal = true)
    (ha : s.connections.advertised.card ≤ maxRemoteCandidates) (h : (connection P).step s e = some (s', o)) :
    s'.work < s.work := by
  cases e with
  | listener e =>
    rcases listenerStep_cases h with ⟨_, _, rfl, _⟩ | ⟨_, _, _, rfl, _⟩ | ⟨_, m, _, hl, _, _, rfl⟩ |
      ⟨m, _, _, hl, _, _, rfl⟩ | ⟨_, _, m, _, _, hl, _, _, rfl⟩
    · cases hi
    · cases hi
    · simp only [ConnState.work, hl]
      split <;> simp only [ListenerTask.work] <;> omega
    · simp only [ConnState.work, hl, ListenerTask.work]
      omega
    · simp only [ConnState.work, hl, ListenerTask.work]
      omega
  | handler e =>
    rcases handlerStep_cases h with ⟨_, _, _, hl, hq, _, rfl⟩ | ⟨_, _, _, _, _, hl, _, rfl⟩ |
      ⟨_, _, _, hl, _, _, rfl⟩ | ⟨_, _, hl, he⟩
    · simp only [ConnState.work, hl, hq, HandlerTask.work, List.length_cons]
      omega
    · simp only [ConnState.work, hl]
      split <;> simp only [HandlerTask.work] <;> omega
    · simp only [ConnState.work, hl, HandlerTask.work]
      omega
    · refine Nat.lt_of_le_of_lt (work_offer he) ?_
      simp only [ConnState.work, hl, HandlerTask.work]
      omega
  | inbound e => exact work_inbound h
  | loopback e => exact work_loopback ha h
  | scheduler e =>
    cases e with
    | tick => cases hi
    | send =>
      simp only [connection, schedulerStep] at h
      split at h
      · cases h
      · rename_i d rest hq
        refine Nat.lt_of_le_of_lt (work_offer (Option.some.inj h).symm) ?_
        simp only [ConnState.work, hq, List.length_cons]
        omega
  | socket e => exact work_socket hi h

/-- The work of a connection whose queues are all full. -/
def maxWork : Nat :=
  (3 + 5 + 4 + (3 * maxFanout + 4) + 7 + 1 + 1) + 3 * maxProbePaths +
    (8 + 6 + 1 + 5 + 2 + (3 * maxFanout + 5) + 2) * udpQueueCapacity

theorem work_le (hB : s.Bounded) : s.work ≤ maxWork := by
  have hlis : s.listener.work ≤ 3 := by
    cases s.listener <;> simp [ListenerTask.work]
  have hhan : s.handler.work ≤ 5 := by
    cases s.handler <;> simp [HandlerTask.work]
  have hinb : s.inbound.work ≤ 4 := by
    cases s.inbound <;> simp [InboundTask.work]
  have hrou : s.router.work ≤ 7 := by
    cases s.router <;> simp [RouterTask.work]
  have hint : s.internetSender.work ≤ 1 := by
    cases s.internetSender <;> simp [SenderTask.work]
  have hloc : s.localSender.work ≤ 1 := by
    cases s.localSender <;> simp [SenderTask.work]
  have hloop : s.loopback.work ≤ 3 * maxFanout + 4 := by
    cases hl : s.loopback with
    | sending packet peers =>
      have := hB.sending packet peers hl
      simp only [LoopbackTask.work]
      omega
    | _ => simp only [LoopbackTask.work]; omega
  have hlocal : (3 * maxFanout + 5) * s.fromLocal.length ≤ (3 * maxFanout + 5) * udpQueueCapacity :=
    Nat.mul_le_mul_left _ hB.fromLocal
  have h₁ := hB.fromInternet
  have h₂ := hB.fromProbes
  have h₃ := hB.fromStun
  have h₄ := hB.fromPeers
  have h₅ := hB.toInternet
  have h₆ := hB.toLocal
  have h₇ := hB.scheduler
  simp only [ConnState.work, maxWork, Nat.add_mul _ _ udpQueueCapacity] at hlocal ⊢
  omega

/-! ## Rest -/

/-- A sender that waits for its next datagram, or for the network. -/
def SenderTask.Parked (task : SenderTask) (queue : List Datagram) : Prop :=
  (task = .waiting ∧ queue = []) ∨ ∃ d deadline, task = .sleeping d deadline

/-- Every task waits for an arrival or for the clock. Only a sender that sleeps
leaves its queue alone, and a lookup that is not under way. -/
structure ConnState.Parked (s : ConnState) : Prop where
  listener : s.listener = .waiting
  handler : s.handler = .waiting
  inbound : s.inbound = .waiting
  loopback : s.loopback = .waiting
  router : s.router = .waiting
  scheduler : s.scheduler = []
  fromInternet : s.fromInternet = []
  fromProbes : s.fromProbes = []
  fromPeers : s.fromPeers = []
  fromLocal : s.fromLocal = []
  toInternet : s.internetSender.Parked s.toInternet
  toLocal : s.localSender.Parked s.toLocal
  fromStun : s.stun = .idle ∨ s.fromStun = []

def Blocked (P : Endpoint κ) (s : ConnState) : Prop :=
  ∀ e : ConnEvent, e.internal = true → (connection P).step s e = none

theorem blocked_loopback (hb : Blocked P s) : s.loopback = .waiting := by
  cases hl : s.loopback with
  | waiting => rfl
  | comparing packet wireguard =>
    have := hb (.loopback .compare) rfl
    simp [connection, loopbackStep, hl] at this
  | setting packet wireguard =>
    have := hb (.loopback .set) rfl
    simp [connection, loopbackStep, hl] at this
  | locking packet =>
    obtain ⟨l₁, h₁⟩ := exists_enumeration s.connections.advertised
    obtain ⟨l₂, h₂⟩ := exists_enumeration s.connections.peerReflexive
    have := hb (.loopback (.lock l₁ l₂)) rfl
    simp [connection, loopbackStep, hl, h₁, h₂] at this
  | sending packet peers =>
    have := hb (.loopback .send) rfl
    cases peers <;> simp [connection, loopbackStep, hl] at this

-- the one lock that is kept over several steps is the forwarder's, and a forwarder that holds it can go on
theorem blocked_writable (hb : Blocked P s) : s.writable = true := by
  rw [ConnState.writable, blocked_loopback hb]

theorem blocked_listener (hb : Blocked P s) : s.listener = .waiting := by
  cases hl : s.listener with
  | waiting => rfl
  | reading m =>
    obtain ⟨known, hk⟩ := exists_enumeration s.connections.advertised
    have := hb (.listener (.read known)) rfl
    rw [connection_read hl hk] at this
    cases this
  | replacing m updated =>
    have := hb (.listener .replace) rfl
    rw [connection_replace hl (blocked_writable hb)] at this
    cases this
  | updating m updated =>
    obtain ⟨order, ho⟩ := exists_enumeration updated
    have := hb (.listener (.update order 0)) rfl
    rw [connection_update 0 hl ho] at this
    cases this

theorem blocked_handler (hb : Blocked P s) : s.handler = .waiting := by
  cases hl : s.handler with
  | waiting => rfl
  | acting packet source =>
    have := hb (.handler (.act 0 id)) rfl
    simp [connection, handlerStep, hl] at this
  | admitting packet source =>
    have := hb (.handler .addSource) rfl
    simp [connection, handlerStep, hl, blocked_writable hb] at this
  | echoing packet source =>
    have := hb (.handler .echo) rfl
    simp [connection, handlerStep, hl] at this

theorem blocked_inbound (hb : Blocked P s) : s.inbound = .waiting := by
  cases hl : s.inbound with
  | waiting => rfl
  | checking packet source =>
    have := hb (.inbound .check) rfl
    simp [connection, inboundStep, hl] at this
  | delivering packet source =>
    have := hb (.inbound .deliver) rfl
    cases hp : s.localPeer <;> simp [connection, inboundStep, hl, hp] at this

theorem blocked_router (hb : Blocked P s) : s.router = .waiting := by
  cases hr : s.router with
  | waiting => rfl
  | routing packet source =>
    have := hb (.socket .route) rfl
    simp only [connection, socketStep, hr, internetPacketKind_eq] at this
    split at this
    all_goals simp_all

-- a task that holds a datagram can always be told that it is sent
theorem parked_of_stuck {queue : List Datagram} {task : SenderTask}
    (hs : ∀ e, (∀ now, e ≠ .wake now) → ∀ queue' task', senderStep queue task e ≠ some (queue', .ok task')) :
    task.Parked queue := by
  cases task with
  | waiting =>
    cases queue with
    | nil => exact .inl ⟨rfl, rfl⟩
    | cons d rest => exact absurd rfl (hs .recv (by simp) rest (.sending d))
  | sending d =>
    refine absurd ?_ (hs (.sendTo 0 (.ok d.1.length)) (by simp) queue .waiting)
    simp [senderStep, SenderTask.answered]
  | sleeping d deadline => exact .inr ⟨d, deadline, rfl⟩

theorem internal_sender {e : SenderEvent} (he : ∀ now, e ≠ .wake now) :
    (ConnEvent.socket (.send e)).internal = true ∧ (ConnEvent.socket (.sendLocal e)).internal = true := by
  cases e with
  | wake now => exact absurd rfl (he now)
  | _ => exact ⟨rfl, rfl⟩

theorem blocked_parked (hb : Blocked P s) : s.Parked where
  listener := blocked_listener hb
  handler := blocked_handler hb
  inbound := blocked_inbound hb
  loopback := blocked_loopback hb
  router := blocked_router hb
  scheduler := by
    have := hb (.scheduler .send) rfl
    cases hq : s.scheduler with
    | nil => rfl
    | cons d rest => simp [connection, schedulerStep, hq] at this
  fromInternet := by
    have := hb (.socket .recv) rfl
    cases hq : s.fromInternet with
    | nil => rfl
    | cons d rest => simp [connection, socketStep, hq, blocked_router hb] at this
  fromProbes := by
    have := hb (.handler .recv) rfl
    cases hq : s.fromProbes with
    | nil => rfl
    | cons d rest => simp [connection, handlerStep, hq, blocked_handler hb] at this
  fromPeers := by
    have := hb (.inbound .recv) rfl
    cases hq : s.fromPeers with
    | nil => rfl
    | cons d rest => simp [connection, inboundStep, hq, blocked_inbound hb] at this
  fromLocal := by
    have := hb (.loopback .recv) rfl
    cases hq : s.fromLocal with
    | nil => rfl
    | cons d rest => simp [connection, loopbackStep, hq, blocked_loopback hb] at this
  toInternet := by
    apply parked_of_stuck
    intro e he queue' task' hst
    have := hb (.socket (.send e)) (internal_sender he).1
    simp [connection, socketStep, hst] at this
  toLocal := by
    apply parked_of_stuck
    intro e he queue' task' hst
    have := hb (.socket (.sendLocal e)) (internal_sender he).2
    simp [connection, socketStep, hst] at this
  fromStun := by
    have := hb (.socket .stunRecv) rfl
    cases hst : s.stun with
    | idle => exact .inl rfl
    | awaiting id stunServer =>
      cases hq : s.fromStun with
      | nil => exact .inr rfl
      | cons d rest => simp [connection, socketStep, hst, hq] at this

theorem senderStep_parked {queue queue' : List Datagram} {task task' : SenderTask} {e : SenderEvent}
    (hp : task.Parked queue) (h : senderStep queue task e = some (queue', .ok task')) : ∃ now, e = .wake now := by
  rcases senderStep_cases h with ⟨_, _, rfl, rfl, _⟩ | ⟨_, _, _, rfl, _⟩ | ⟨_, _, _, _, _, rfl, _⟩ | ⟨_, now, _, he, _⟩
  · rcases hp with ⟨_, hq⟩ | ⟨_, _, ht⟩
    · cases hq
    · cases ht
  · rcases hp with ⟨ht, _⟩ | ⟨_, _, ht⟩ <;> cases ht
  · rcases hp with ⟨ht, _⟩ | ⟨_, _, ht⟩ <;> cases ht
  · exact ⟨now, he⟩

theorem parked_socket (hp : s.Parked) {e : SocketEvent} (hi : (ConnEvent.socket e).internal = true) :
    socketStep s e ≠ some (s', o) := by
  intro h
  rcases socketStep_exact h with ⟨_, rfl, _⟩ | ⟨_, _, _, _, _, hq, _⟩ | ⟨_, _, _, _, hr, _⟩ | ⟨se, _, _, rfl, hst, _⟩ |
    ⟨_, rfl, _⟩ | ⟨se, _, _, rfl, hst, _⟩ | ⟨_, _, _, _, rfl, _⟩ | ⟨_, _, _, _, _, hs, hq, _⟩ | ⟨_, _, rfl, _⟩
  · cases hi
  · rw [hp.fromInternet] at hq
    cases hq
  · rw [hp.router] at hr
    cases hr
  · obtain ⟨now, rfl⟩ := senderStep_parked hp.toInternet hst
    cases hi
  · cases hi
  · obtain ⟨now, rfl⟩ := senderStep_parked hp.toLocal hst
    cases hi
  · cases hi
  · rcases hp.fromStun with hidle | hnil
    · rw [hidle] at hs
      cases hs
    · rw [hnil] at hq
      cases hq
  · cases hi

theorem parked_blocked (hp : s.Parked) : Blocked P s := by
  intro e hi
  cases e with
  | listener e => cases e <;> simp [connection, listenerStep, hp.listener, ConnEvent.internal] at hi ⊢
  | handler e => cases e <;> simp [connection, handlerStep, hp.handler, hp.fromProbes]
  | inbound e => cases e <;> simp [connection, inboundStep, hp.inbound, hp.fromPeers]
  | loopback e => cases e <;> simp [connection, loopbackStep, hp.loopback, hp.fromLocal]
  | scheduler e => cases e <;> simp [connection, schedulerStep, hp.scheduler, ConnEvent.internal] at hi ⊢
  | socket e =>
    cases hst : (connection P).step s (.socket e) with
    | none => rfl
    | some r => exact absurd hst (parked_socket hp hi)

/-- **A connection always settles.** From every state that a run reaches,
however its tasks are scheduled, it takes at most `maxWork` steps without an
arrival, a tick or another timer; it cannot go on exactly when all its tasks
wait for one of these; and such a state can be reached. -/
theorem settles (hr : (connection P).Run (.new tok) tr s) :
    (∀ tr' s', (connection P).Run s tr' s' → (∀ en ∈ tr', en.event.internal = true) →
      tr'.length ≤ maxWork ∧ (Blocked P s' ↔ s'.Parked)) ∧
    ∃ tr' s', (connection P).Run s tr' s' ∧ (∀ en ∈ tr', en.event.internal = true) ∧ s'.Parked := by
  have hdrop : ∀ s e o s', (∃ tr, (connection P).Run (.new tok) tr s) → e.internal = true →
      (connection P).step s e = some (s', o) →
      (∃ tr, (connection P).Run (.new tok) tr s') ∧ s'.work < s.work := by
    intro s e o s' ⟨tr, hr⟩ hi hst
    exact ⟨⟨_, hr.snoc hst⟩, work_step hi (fanoutInv_run hr).bounded hst⟩
  constructor
  · intro tr' s' hr' hi
    obtain ⟨-, hlen⟩ := hr'.length_add_le hdrop ⟨tr, hr⟩ hi
    have hle := work_le (bounded_run hr)
    exact ⟨by omega, blocked_parked, parked_blocked⟩
  · obtain ⟨tr', s', hr', hi, hb⟩ := Machine.exists_settled hdrop ⟨tr, hr⟩
    exact ⟨tr', s', hr', hi, blocked_parked hb⟩

example : maxWork = 106329 := by decide

end

theorem sampleFanout_bounded : ∃ tr s, (connection (sampleEndpoint ⟨false, false⟩)).Run (.new (.fill 7)) tr s ∧
    0 < s.retained ∧ s.retained ≤ 7 * udpQueueCapacity + maxProbePaths + 6 + maxFanout :=
  ⟨_, _, Machine.run_of_exec sampleFanout_runs, by decide +kernel,
    (memory_bounded (Machine.run_of_exec sampleFanout_runs)).1⟩

-- two datagrams are queued, and the sender task has taken none
theorem sampleFanout_settles : ∃ tr s, (connection (sampleEndpoint ⟨false, false⟩)).Run (.new (.fill 7)) tr s ∧
    ¬Blocked (sampleEndpoint ⟨false, false⟩) s ∧
    ∃ tr' s', (connection (sampleEndpoint ⟨false, false⟩)).Run s tr' s' ∧ tr'.length ≤ maxWork ∧
      Blocked (sampleEndpoint ⟨false, false⟩) s' := by
  obtain ⟨h₁, tr', s', hr', hi, hp⟩ := settles (Machine.run_of_exec sampleFanout_runs)
  refine ⟨_, _, Machine.run_of_exec sampleFanout_runs, ?_, tr', s', hr', (h₁ tr' s' hr' hi).1,
    (h₁ tr' s' hr' hi).2.mpr hp⟩
  intro hb
  have hp₀ := (h₁ [] _ .nil (by simp)).2.mp hb
  rcases hp₀.toInternet with ⟨-, hq⟩ | ⟨d, deadline, ht⟩
  · exact absurd hq (by decide +kernel)
  · have hheld : _ = 1 := congrArg (fun task : SenderTask => task.held.length) ht
    exact absurd hheld (by decide +kernel)

end P2pTunnler
