import P2pTunnler.FanoutSound
import P2pTunnler.GatingSound
import P2pTunnler.Lib.Line

/-!
# Datagrams keep their order

A connection moves datagrams through queues that may drop but never reorder:
what a task has not passed on yet, followed by what is still queued, is
always a sublist of what came in. Inbound that is one line of queues, from
the Internet socket to the loopback socket; outbound there is one line for
each destination.
-/

namespace P2pTunnler

open scoped List

/-! ## Queues -/

theorem trySend_sublist {α : Type} (q : List α) (d : α) : (trySend q d).1 <+ q ++ [d] := by
  unfold trySend
  split
  · exact List.Sublist.refl _
  · exact List.sublist_append_left _ _

theorem trySend_eq {α : Type} (q : List α) (d : α) : (trySend q d).1 = q ++ if (trySend q d).2 then [d] else [] := by
  unfold trySend
  split <;> simp

/-! ## Who touches which queue -/

section
variable {κ : Type} {P : Endpoint κ} {tok : Token} {tr : List ConnEntry} {s s' : ConnState} {e : ConnEvent} {o : ConnOut}

def received (en : ConnEntry) : List Datagram :=
  match en.event with
  | .socket (.receive d) => [d]
  | _ => []

def forwarded (en : ConnEntry) : List Datagram :=
  match en.out with
  | .forwarded packet source _ _ => [(packet, source)]
  | _ => []

/-- Only the sockets, the router and the lookup touch what is theirs. -/
theorem sockets_kept (h : (connection P).step s e = some (s', o)) (hs : ∀ e', e ≠ .socket e') :
    s'.fromInternet = s.fromInternet ∧ s'.router = s.router ∧ s'.internetSender = s.internetSender ∧
      s'.localSender = s.localSender ∧ s'.stun = s.stun := by
  cases e with
  | socket e => exact absurd rfl (hs e)
  | listener e =>
    rcases listenerStep_cases h with ⟨_, _, _, rfl, _⟩ | ⟨_, _, _, _, _, _, _, rfl⟩ | ⟨_, _, _, _, _, _, rfl⟩ |
      ⟨_, _, _, _, _, _, rfl⟩ | ⟨_, _, _, _, _, _, _, _, rfl⟩ <;> exact ⟨rfl, rfl, rfl, rfl, rfl⟩
  | handler e =>
    rcases handlerStep_cases h with ⟨_, _, _, _, _, _, rfl⟩ | ⟨_, _, _, _, _, _, _, rfl⟩ | ⟨_, _, _, _, _, _, rfl⟩ |
      ⟨_, _, _, he⟩
    · exact ⟨rfl, rfl, rfl, rfl, rfl⟩
    · exact ⟨rfl, rfl, rfl, rfl, rfl⟩
    · exact ⟨rfl, rfl, rfl, rfl, rfl⟩
    · cases he; exact ⟨rfl, rfl, rfl, rfl, rfl⟩
  | inbound e =>
    rcases inboundStep_cases h with ⟨_, _, _, _, _, _, rfl⟩ | ⟨_, _, _, _, rfl⟩ | ⟨rfl, _⟩ |
      ⟨_, _, _, _, _, _, rfl⟩ <;> exact ⟨rfl, rfl, rfl, rfl, rfl⟩
  | loopback e =>
    rcases loopbackStep_cases h with ⟨_, _, _, _, _, rfl⟩ | ⟨_, _, _, _, _, _, _, rfl⟩ | ⟨_, _, _, _, he⟩
    · exact ⟨rfl, rfl, rfl, rfl, rfl⟩
    · exact ⟨rfl, rfl, rfl, rfl, rfl⟩
    · cases he; exact ⟨rfl, rfl, rfl, rfl, rfl⟩
  | scheduler e =>
    rcases schedulerStep_cases h with ⟨_, _, _, _, _, rfl⟩ | ⟨_, _, _, he⟩
    · exact ⟨rfl, rfl, rfl, rfl, rfl⟩
    · cases he; exact ⟨rfl, rfl, rfl, rfl, rfl⟩

/-- A task that is no socket touches the line it serves and no other. -/
theorem lines_kept (h : (connection P).step s e = some (s', o)) (hs : ∀ e', e ≠ .socket e') :
    ((∃ e', e = .inbound e') ∨ (s'.inbound = s.inbound ∧ s'.fromPeers = s.fromPeers)) ∧
    ((∃ e', e = .loopback e') ∨ s'.fromLocal = s.fromLocal) := by
  cases e with
  | socket e => exact absurd rfl (hs e)
  | listener e =>
    rcases listenerStep_cases h with ⟨_, _, _, rfl, _⟩ | ⟨_, _, _, _, _, _, _, rfl⟩ | ⟨_, _, _, _, _, _, rfl⟩ |
      ⟨_, _, _, _, _, _, rfl⟩ | ⟨_, _, _, _, _, _, _, _, rfl⟩ <;> exact ⟨.inr ⟨rfl, rfl⟩, .inr rfl⟩
  | handler e =>
    rcases handlerStep_cases h with ⟨_, _, _, _, _, _, rfl⟩ | ⟨_, _, _, _, _, _, _, rfl⟩ | ⟨_, _, _, _, _, _, rfl⟩ |
      ⟨_, _, _, he⟩
    · exact ⟨.inr ⟨rfl, rfl⟩, .inr rfl⟩
    · exact ⟨.inr ⟨rfl, rfl⟩, .inr rfl⟩
    · exact ⟨.inr ⟨rfl, rfl⟩, .inr rfl⟩
    · cases he; exact ⟨.inr ⟨rfl, rfl⟩, .inr rfl⟩
  | inbound e =>
    rcases inboundStep_cases h with ⟨_, _, _, _, _, _, rfl⟩ | ⟨_, _, _, _, rfl⟩ | ⟨rfl, _⟩ |
      ⟨_, _, _, _, _, _, rfl⟩ <;> exact ⟨.inl ⟨e, rfl⟩, .inr rfl⟩
  | loopback e =>
    rcases loopbackStep_cases h with ⟨_, _, _, _, _, rfl⟩ | ⟨_, _, _, _, _, _, _, rfl⟩ | ⟨_, _, _, _, he⟩
    · exact ⟨.inr ⟨rfl, rfl⟩, .inl ⟨e, rfl⟩⟩
    · exact ⟨.inr ⟨rfl, rfl⟩, .inl ⟨e, rfl⟩⟩
    · cases he; exact ⟨.inr ⟨rfl, rfl⟩, .inl ⟨e, rfl⟩⟩
  | scheduler e =>
    rcases schedulerStep_cases h with ⟨_, _, _, _, _, rfl⟩ | ⟨_, _, _, he⟩
    · exact ⟨.inr ⟨rfl, rfl⟩, .inr rfl⟩
    · cases he; exact ⟨.inr ⟨rfl, rfl⟩, .inr rfl⟩

/-! ## Inbound -/

-- what the router makes of the datagrams of the Internet socket for the inbound task
def routedData (q : List Datagram) : List Datagram :=
  (q.filter fun d => decide (internetPacketKind d.1 = .ok .data)).map fun d => (d.1, normalizeIpv4MappedSource d.2)

def InboundTask.held : InboundTask → List Datagram
  | waiting => []
  | checking packet source => [(packet, source)]
  | delivering packet source => [(packet, source)]

def RouterTask.held : RouterTask → List Datagram
  | waiting => []
  | routing packet source => [(packet, source)]

def ConnState.inboundLine (s : ConnState) : List Datagram :=
  s.inbound.held ++ (s.fromPeers ++ routedData (s.router.held ++ s.fromInternet))

theorem routedData_append (q q' : List Datagram) : routedData (q ++ q') = routedData q ++ routedData q' := by
  simp [routedData]

theorem routedData_sublist {q q' : List Datagram} (h : q <+ q') : routedData q <+ routedData q' :=
  (h.filter _).map _

theorem routedData_cons (packet : Bytes) (source : SocketAddr) (q : List Datagram) :
    routedData ((packet, source) :: q) =
      (if internetPacketKind packet = .ok .data then [(packet, normalizeIpv4MappedSource source)] else []) ++
        routedData q := by
  unfold routedData
  by_cases h : internetPacketKind packet = .ok .data
  · simp [h]
  · simp [h]

/-- A step of the inbound task passes on the datagram it holds, takes the next one or drops it. -/
theorem inboundLine_inbound {e : InboundEvent} (h : inboundStep s e = some (s', o)) :
    forwarded ⟨s, .inbound e, o, s'⟩ ++ s'.inboundLine <+ s.inboundLine := by
  unfold ConnState.inboundLine
  rcases inboundStep_cases h with ⟨packet, source, rest, hw, hq, rfl, rfl⟩ | ⟨packet, source, hc, rfl, rfl⟩ |
    ⟨rfl, rfl⟩ | ⟨packet, source, wireguard, hd, _, rfl, rfl⟩
  · rw [hw, hq]
    exact List.Sublist.refl _
  · rw [hc]
    show InboundTask.held (if _ then _ else _) ++ (s.fromPeers ++ routedData (s.router.held ++ s.fromInternet)) <+ _
    apply List.Sublist.append_right
    split
    · exact List.Sublist.refl _
    · exact List.nil_sublist _
  · exact List.sublist_append_right _ _
  · rw [hd]
    exact List.Sublist.refl _

theorem inboundLine_socket {e : SocketEvent} (h : socketStep s e = some (s', o)) :
    s'.inboundLine <+ s.inboundLine ++ routedData (received ⟨s, .socket e, o, s'⟩) := by
  unfold ConnState.inboundLine
  rcases socketStep_exact h with ⟨d, rfl, _, rfl⟩ | ⟨packet, source, rest, rfl, hr, hq, _, rfl⟩ |
    ⟨packet, source, kind, rfl, hr, hk, _, rfl⟩ | ⟨_, _, _, _, _, _, rfl⟩ | ⟨_, _, _, rfl⟩ | ⟨_, _, _, _, _, _, rfl⟩ |
    ⟨_, _, _, _, _, _, he⟩ | ⟨_, _, _, _, _, _, _, _, rfl⟩ | ⟨_, _, _, _, _, rfl⟩
  · rw [List.append_assoc, List.append_assoc]
    refine (List.Sublist.refl _).append ((List.Sublist.refl _).append ?_)
    rw [← routedData_append, List.append_assoc]
    exact routedData_sublist ((List.Sublist.refl _).append (trySend_sublist _ _))
  · -- the router takes what it found at the front of the queue
    rw [hr, hq]
    exact List.sublist_append_left _ _
  · refine List.Sublist.trans ?_ (List.sublist_append_left _ _)
    refine (List.Sublist.refl _).append ?_
    rw [hr]
    show _ ++ routedData s.fromInternet <+ s.fromPeers ++ routedData ((packet, source) :: s.fromInternet)
    rw [routedData_cons, hk, ← List.append_assoc]
    refine List.Sublist.append_right ?_ _
    by_cases hd : kind = .data
    · simp only [hd, if_true]
      exact trySend_sublist _ _
    · simp [hd]
  · exact List.sublist_append_left _ _
  · exact List.sublist_append_left _ _
  · exact List.sublist_append_left _ _
  · cases he
    exact List.sublist_append_left _ _
  · exact List.sublist_append_left _ _
  · exact List.sublist_append_left _ _

theorem inboundLine_step (h : (connection P).step s e = some (s', o)) :
    forwarded ⟨s, e, o, s'⟩ ++ s'.inboundLine <+ s.inboundLine ++ routedData (received ⟨s, e, o, s'⟩) := by
  by_cases hi : ∃ e', e = .inbound e'
  · obtain ⟨e', rfl⟩ := hi
    exact List.Sublist.trans (inboundLine_inbound h) (List.sublist_append_left _ _)
  · have ho := (connection_owns h).2.2.resolve_left hi
    have hf : forwarded ⟨s, e, o, s'⟩ = [] := by
      cases o with
      | forwarded => cases ho.1
      | _ => rfl
    rw [hf, List.nil_append]
    by_cases hs : ∃ e', e = .socket e'
    · obtain ⟨e', rfl⟩ := hs
      exact inboundLine_socket h
    · have hns : ∀ e', e ≠ .socket e' := fun e' he => hs ⟨e', he⟩
      obtain ⟨h₁, h₂⟩ := (lines_kept h hns).1.resolve_left hi
      obtain ⟨h₃, h₄, -⟩ := sockets_kept h hns
      rw [ConnState.inboundLine, h₁, h₂, h₃, h₄]
      exact List.sublist_append_left _ _

theorem routedData_flatMap (f : ConnEntry → List Datagram) :
    routedData (tr.flatMap f) = tr.flatMap fun en => routedData (f en) := by
  simp [routedData, List.filter_flatMap, List.map_flatMap]

/-! ## The queues of the two sockets -/

/-- What left the loopback socket in this step. -/
def sentLocal (en : ConnEntry) : List Datagram := en.pre.localSender.leaving en.post.localSender

def queuedLocal (en : ConnEntry) : List Datagram :=
  match en.out with
  | .forwarded packet _ wireguard true => [(packet, wireguard)]
  | _ => []

/-- What left the Internet socket in this step. -/
def sent (en : ConnEntry) : List Datagram := en.pre.internetSender.leaving en.post.internetSender

def queued (en : ConnEntry) : List Datagram :=
  match en.out with
  | .offered _ d true => [d]
  | _ => []

theorem offer_toInternet {s₀ : ConnState} {origin : Origin} {d : Datagram} (h : (s', o) = s₀.offer origin d) :
    s'.toInternet = s₀.toInternet ++ queued ⟨s, e, o, s'⟩ ∧ s'.toLocal = s₀.toLocal ∧ queuedLocal ⟨s, e, o, s'⟩ = [] := by
  cases h
  refine ⟨?_, rfl, rfl⟩
  show (trySend s₀.toInternet d).1 = _
  rw [trySend_eq]
  cases (trySend s₀.toInternet d).2 <;> simp [queued]

theorem offer_senders {s₀ : ConnState} {origin : Origin} {d : Datagram} (h : (s', o) = s₀.offer origin d) :
    s'.internetSender = s₀.internetSender ∧ s'.localSender = s₀.localSender := by
  cases h
  exact ⟨rfl, rfl⟩

/-- What each task but the sockets does to the queues of the sockets. -/
theorem queues_step (h : (connection P).step s e = some (s', o)) (hs : ∀ e', e ≠ .socket e') :
    s'.toInternet = s.toInternet ++ queued ⟨s, e, o, s'⟩ ∧ s'.toLocal = s.toLocal ++ queuedLocal ⟨s, e, o, s'⟩ := by
  have hoffer : ∀ {s₀ : ConnState} {origin d}, (s', o) = s₀.offer origin d → s₀.toInternet = s.toInternet →
      s₀.toLocal = s.toLocal →
      s'.toInternet = s.toInternet ++ queued ⟨s, e, o, s'⟩ ∧ s'.toLocal = s.toLocal ++ queuedLocal ⟨s, e, o, s'⟩ := by
    intro s₀ origin d ho h₁ h₂
    obtain ⟨hi, hl, hq⟩ := offer_toInternet (s := s) (e := e) ho
    rw [hi, hl, hq, h₁, h₂, List.append_nil]
    exact ⟨rfl, rfl⟩
  cases e with
  | socket e => exact absurd rfl (hs e)
  | listener e =>
    rcases listenerStep_cases h with ⟨_, _, _, rfl, rfl⟩ | ⟨_, _, _, _, _, _, rfl, rfl⟩ | ⟨_, _, _, _, _, rfl, rfl⟩ |
      ⟨_, _, _, _, _, rfl, rfl⟩ | ⟨_, _, _, _, _, _, _, rfl, rfl⟩ <;>
        exact ⟨(List.append_nil _).symm, (List.append_nil _).symm⟩
  | handler e =>
    rcases handlerStep_cases h with ⟨_, _, _, _, _, rfl, rfl⟩ | ⟨_, _, _, _, _, _, rfl, rfl⟩ |
      ⟨_, _, _, _, _, rfl, rfl⟩ | ⟨_, _, _, he⟩
    · exact ⟨(List.append_nil _).symm, (List.append_nil _).symm⟩
    · exact ⟨(List.append_nil _).symm, (List.append_nil _).symm⟩
    · exact ⟨(List.append_nil _).symm, (List.append_nil _).symm⟩
    · exact hoffer he rfl rfl
  | inbound e =>
    rcases inboundStep_cases h with ⟨_, _, _, _, _, rfl, rfl⟩ | ⟨_, _, _, rfl, rfl⟩ | ⟨rfl, rfl⟩ |
      ⟨packet, source, wireguard, _, _, rfl, rfl⟩
    · exact ⟨(List.append_nil _).symm, (List.append_nil _).symm⟩
    · exact ⟨(List.append_nil _).symm, (List.append_nil _).symm⟩
    · exact ⟨(List.append_nil _).symm, (List.append_nil _).symm⟩
    · refine ⟨(List.append_nil _).symm, ?_⟩
      show (trySend s.toLocal (packet, wireguard)).1 = _
      rw [trySend_eq]
      cases (trySend s.toLocal (packet, wireguard)).2 <;> simp [queuedLocal]
  | loopback e =>
    rcases loopbackStep_cases h with ⟨_, _, _, _, rfl, rfl⟩ | ⟨_, _, _, _, _, _, rfl, rfl⟩ | ⟨_, _, _, _, he⟩
    · exact ⟨(List.append_nil _).symm, (List.append_nil _).symm⟩
    · exact ⟨(List.append_nil _).symm, (List.append_nil _).symm⟩
    · exact hoffer he rfl rfl
  | scheduler e =>
    rcases schedulerStep_cases h with ⟨_, _, _, _, rfl, rfl⟩ | ⟨_, _, _, he⟩
    · exact ⟨(List.append_nil _).symm, (List.append_nil _).symm⟩
    · exact hoffer he rfl rfl

namespace ConnState

variable (s : ConnState)

/-- What the Internet socket has accepted and not sent. -/
def outLine : List Datagram := s.internetSender.held ++ s.toInternet

def localLine : List Datagram := s.localSender.held ++ s.toLocal

end ConnState

@[simp] theorem SenderTask.leaving_self (t : SenderTask) : t.leaving t = [] := by
  cases t <;> rfl

theorem queues_socket {e : SocketEvent} (h : socketStep s e = some (s', o)) :
    sent ⟨s, .socket e, o, s'⟩ ++ s'.outLine = s.outLine ++ queued ⟨s, .socket e, o, s'⟩ ∧
      sentLocal ⟨s, .socket e, o, s'⟩ ++ s'.localLine = s.localLine ++ queuedLocal ⟨s, .socket e, o, s'⟩ := by
  rcases socketStep_exact h with ⟨_, _, rfl, rfl⟩ | ⟨_, _, _, _, _, _, rfl, rfl⟩ | ⟨_, _, _, _, _, _, rfl, rfl⟩ |
    ⟨_, _, _, _, hst, rfl, rfl⟩ | ⟨_, _, rfl, rfl⟩ | ⟨_, _, _, _, hst, rfl, rfl⟩ | ⟨id, server, _, _, rfl, _, he⟩ |
    ⟨_, _, _, _, _, _, _, rfl, rfl⟩ | ⟨_, _, _, _, rfl, rfl⟩
  · simp [sent, sentLocal, ConnState.outLine, ConnState.localLine, queued, queuedLocal]
  · simp [sent, sentLocal, ConnState.outLine, ConnState.localLine, queued, queuedLocal]
  · simp [sent, sentLocal, ConnState.outLine, ConnState.localLine, queued, queuedLocal]
  · simpa [sent, sentLocal, ConnState.outLine, ConnState.localLine, queued, queuedLocal] using senderStep_ledger hst
  · simp [sent, sentLocal, ConnState.outLine, ConnState.localLine, queued, queuedLocal]
  · simpa [sent, sentLocal, ConnState.outLine, ConnState.localLine, queued, queuedLocal] using senderStep_ledger hst
  · obtain ⟨hi, hl, hq⟩ := offer_toInternet (s := s) (e := .socket (.stunRequest id server)) he
    obtain ⟨hti, htl⟩ := offer_senders he
    simp [sent, sentLocal, ConnState.outLine, ConnState.localLine, hi, hl, hq, hti, htl]
  · simp [sent, sentLocal, ConnState.outLine, ConnState.localLine, queued, queuedLocal]
  · simp [sent, sentLocal, ConnState.outLine, ConnState.localLine, queued, queuedLocal]

theorem queues_ledger (h : (connection P).step s e = some (s', o)) :
    sent ⟨s, e, o, s'⟩ ++ s'.outLine = s.outLine ++ queued ⟨s, e, o, s'⟩ ∧
      sentLocal ⟨s, e, o, s'⟩ ++ s'.localLine = s.localLine ++ queuedLocal ⟨s, e, o, s'⟩ := by
  by_cases hs : ∃ e', e = .socket e'
  · obtain ⟨e', rfl⟩ := hs
    exact queues_socket h
  · have hns : ∀ e', e ≠ .socket e' := fun e' he => hs ⟨e', he⟩
    obtain ⟨hi, hl⟩ := queues_step h hns
    obtain ⟨-, -, hti, htl, -⟩ := sockets_kept h hns
    simp [sent, sentLocal, ConnState.outLine, ConnState.localLine, hi, hl, hti, htl]

theorem queuedLocal_sublist (en : ConnEntry) :
    (queuedLocal en).map Prod.fst <+ (forwarded en).map Prod.fst := by
  obtain ⟨s, e, o, s'⟩ := en
  cases o with
  | forwarded packet source wireguard queued => cases queued <;> simp [queuedLocal, forwarded]
  | _ => exact List.nil_sublist _

theorem flatMap_sublist {α β : Type} {f g : α → List β} (h : ∀ x, f x <+ g x) (l : List α) :
    l.flatMap f <+ l.flatMap g := by
  induction l with
  | nil => exact List.Sublist.refl _
  | cons x l ih =>
    rw [List.flatMap_cons, List.flatMap_cons]
    exact (h x).append ih

/-- **Inbound datagrams are not invented, repeated or reordered.** What is
forwarded is a sublist of the data that arrived, source by source, and what
the loopback socket sends is, in payloads, a sublist of that. -/
theorem inbound_in_order (hr : (connection P).Run (.new tok) tr s) :
    tr.flatMap forwarded <+ routedData (tr.flatMap received) ∧
      (tr.flatMap sentLocal).map Prod.fst <+ (tr.flatMap forwarded).map Prod.fst := by
  constructor
  · rw [routedData_flatMap]
    have hl := hr.line_sublist (L := ConnState.inboundLine) (T := forwarded)
      (A := fun en => routedData (received en)) rfl fun _ _ _ _ hst => inboundLine_step hst
    exact List.Sublist.trans (List.sublist_append_left _ _) hl
  · have hl := hr.line_eq (L := ConnState.localLine) (T := sentLocal) (A := queuedLocal) rfl
      fun _ _ _ _ hst => (queues_ledger hst).2
    rw [List.map_flatMap, List.map_flatMap]
    refine List.Sublist.trans ?_ (flatMap_sublist queuedLocal_sublist tr)
    rw [← List.map_flatMap, ← List.map_flatMap, ← hl, List.map_append]
    exact List.sublist_append_left _ _

theorem sampleTraffic_in_order : ∃ tr s, (connection (sampleEndpoint ⟨false, false⟩)).Run (.new (.fill 7)) tr s ∧
    tr.flatMap forwarded = [([2, 0, 0, 0], .testNet 1 10000)] ∧
    tr.flatMap forwarded <+ routedData (tr.flatMap received) :=
  ⟨_, _, Machine.run_of_exec sampleTraffic_runs, by decide +kernel,
    (inbound_in_order (Machine.run_of_exec sampleTraffic_runs)).1⟩

/-! ## Outbound -/

def receivedLocal (en : ConnEntry) : List Bytes :=
  match en.event with
  | .socket (.receiveLocal d) => [d.1]
  | _ => []

/-- The payload that a step of the loopback forwarder offers to `peer`. -/
def fannedTo (peer : SocketAddr) (en : ConnEntry) : List Bytes :=
  match en.out with
  | .offered .loopback d _ => if d.2 = peer then [d.1] else []
  | _ => []

def LoopbackTask.heldFor (peer : SocketAddr) : LoopbackTask → List Bytes
  | waiting => []
  | comparing packet _ => [packet]
  | setting packet _ => [packet]
  | locking packet => [packet]
  | sending packet peers => (peers.filter (· = peer)).map fun _ => packet

def ConnState.outboundLine (peer : SocketAddr) (s : ConnState) : List Bytes :=
  s.loopback.heldFor peer ++ s.fromLocal.map Prod.fst

theorem heldFor_sending {packet : Bytes} {peers : List SocketAddr} (h : peers.Nodup) (peer : SocketAddr) :
    (LoopbackTask.sending packet peers).heldFor peer <+ [packet] := by
  have hlen : (peers.filter (· = peer)).length ≤ 1 := by
    rw [← List.countP_eq_length_filter]
    exact List.nodup_iff_count_le_one.mp h peer
  show (peers.filter (· = peer)).map (fun _ => packet) <+ List.replicate 1 packet
  rw [List.map_const', List.replicate_sublist_replicate]
  exact hlen

theorem outboundLine_loopback (peer : SocketAddr) {e : LoopbackEvent} (h : loopbackStep s e = some (s', o)) :
    fannedTo peer ⟨s, .loopback e, o, s'⟩ ++ s'.outboundLine peer <+ s.outboundLine peer := by
  unfold ConnState.outboundLine
  rcases loopbackStep_exact h with ⟨packet, wireguard, rest, rfl, hl, hq, rfl, rfl⟩ |
    ⟨packet, wireguard, rfl, hl, rfl, rfl⟩ | ⟨packet, wireguard, rfl, hl, rfl, rfl⟩ |
    ⟨packet, l₁, l₂, rfl, hl, h₁, h₂, rfl, rfl⟩ | ⟨packet, next, peers, rfl, hl, he⟩ | ⟨packet, rfl, hl, rfl, rfl⟩
  · rw [hl, hq]
    exact List.Sublist.refl _
  · rw [hl]
    show LoopbackTask.heldFor peer (if _ then _ else _) ++ s.fromLocal.map Prod.fst <+ _
    split
    · exact List.Sublist.refl _
    · exact List.Sublist.refl _
  · rw [hl]
    exact List.Sublist.refl _
  · rw [hl]
    show (LoopbackTask.sending packet (s.connections.addresses l₁ l₂)).heldFor peer ++ s.fromLocal.map Prod.fst <+ _
    apply List.Sublist.append_right
    exact heldFor_sending (CandidateSet.nodup_addresses h₁ h₂) peer
  · obtain ⟨rfl, rfl⟩ := Prod.mk.inj he
    rw [hl, ← List.append_assoc]
    apply List.Sublist.append_right
    by_cases hn : next = peer
    · simp [fannedTo, LoopbackTask.heldFor, hn]
    · simp [fannedTo, LoopbackTask.heldFor, hn]
  · rw [hl]
    exact List.Sublist.refl _

theorem fromLocal_socket {e : SocketEvent} (h : socketStep s e = some (s', o)) :
    s'.fromLocal.map Prod.fst <+ s.fromLocal.map Prod.fst ++ receivedLocal ⟨s, .socket e, o, s'⟩ := by
  rcases socketStep_exact h with ⟨_, _, _, rfl⟩ | ⟨_, _, _, _, _, _, _, rfl⟩ | ⟨_, _, _, _, _, _, _, rfl⟩ |
    ⟨_, _, _, _, _, _, rfl⟩ | ⟨d, rfl, _, rfl⟩ | ⟨_, _, _, _, _, _, rfl⟩ | ⟨_, _, _, _, _, _, he⟩ |
    ⟨_, _, _, _, _, _, _, _, rfl⟩ | ⟨_, _, _, _, _, rfl⟩
  · exact List.sublist_append_left _ _
  · exact List.sublist_append_left _ _
  · exact List.sublist_append_left _ _
  · exact List.sublist_append_left _ _
  · show (trySend s.fromLocal d).1.map Prod.fst <+ s.fromLocal.map Prod.fst ++ [d].map Prod.fst
    rw [← List.map_append]
    exact (trySend_sublist _ _).map _
  · exact List.sublist_append_left _ _
  · obtain ⟨rfl, rfl⟩ := Prod.mk.inj he
    exact List.sublist_append_left _ _
  · exact List.sublist_append_left _ _
  · exact List.sublist_append_left _ _

theorem outboundLine_step (peer : SocketAddr) (h : (connection P).step s e = some (s', o)) :
    fannedTo peer ⟨s, e, o, s'⟩ ++ s'.outboundLine peer <+ s.outboundLine peer ++ receivedLocal ⟨s, e, o, s'⟩ := by
  by_cases hlo : ∃ e', e = .loopback e'
  · obtain ⟨e', rfl⟩ := hlo
    exact List.Sublist.trans (outboundLine_loopback peer h) (List.sublist_append_left _ _)
  · obtain ⟨hl, hf, _⟩ := (connection_spares h).resolve_left hlo
    have hnone : fannedTo peer ⟨s, e, o, s'⟩ = [] := by
      unfold fannedTo
      split
      · rename_i d q ho
        rw [fannedBy, ho] at hf
        cases hf
      · rfl
    rw [hnone, List.nil_append, ConnState.outboundLine, ConnState.outboundLine, hl, List.append_assoc]
    refine (List.Sublist.refl _).append ?_
    by_cases hs : ∃ e', e = .socket e'
    · obtain ⟨e', rfl⟩ := hs
      exact fromLocal_socket h
    · rw [(lines_kept h fun e' he => hs ⟨e', he⟩).2.resolve_left hlo]
      exact List.sublist_append_left _ _

/-- **Outbound datagrams are not invented, repeated or reordered** on their
way to any one peer, and what the Internet socket has sent, the datagram that
its sender task holds and the queue are exactly what the queue had room for,
in order. -/
theorem outbound_in_order (hr : (connection P).Run (.new tok) tr s) :
    (∀ peer, tr.flatMap (fannedTo peer) <+ tr.flatMap receivedLocal) ∧
      tr.flatMap sent ++ (s.internetSender.held ++ s.toInternet) = tr.flatMap queued := by
  constructor
  · intro peer
    have hl := hr.line_sublist (L := ConnState.outboundLine peer) (T := fannedTo peer) (A := receivedLocal) rfl
      fun _ _ _ _ hst => outboundLine_step peer hst
    exact List.Sublist.trans (List.sublist_append_left _ _) hl
  · exact hr.line_eq (L := ConnState.outLine) (T := sent) (A := queued) rfl
      fun _ _ _ _ hst => (queues_ledger hst).1

theorem sampleFanout_in_order : ∃ tr s, (connection (sampleEndpoint ⟨false, false⟩)).Run (.new (.fill 7)) tr s ∧
    tr.flatMap queued = [([1, 0, 0, 0], .testNet 1 10000), ([1, 0, 0, 0], .testNet 3 10000)] ∧
    (∀ peer, tr.flatMap (fannedTo peer) <+ tr.flatMap receivedLocal) ∧
    tr.flatMap sent ++ (s.internetSender.held ++ s.toInternet) = tr.flatMap queued := by
  obtain ⟨h₁, h₂⟩ := outbound_in_order (Machine.run_of_exec sampleFanout_runs)
  exact ⟨_, _, Machine.run_of_exec sampleFanout_runs, by decide +kernel, h₁, h₂⟩

end

end P2pTunnler
