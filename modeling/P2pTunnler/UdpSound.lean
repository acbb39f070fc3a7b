import P2pTunnler.UdpSocket
import P2pTunnler.ProgressSound

/-!
# A socket sends what it accepts

The send queue drops, the sender task does not: it sends what was admitted,
once and in order, and keeps a datagram that the network cannot take. While it
keeps one, nothing else leaves the socket.
-/

namespace P2pTunnler

open Machine (Since since_snoc)
open scoped List

/-! ## One step -/

/-- The events of the sending half; the others leave it alone. -/
def UdpEvent.sends : UdpEvent → Bool
  | trySend _ => true
  | recv => true
  | sendTo _ => true
  | wake => true
  | _ => false

def admitted (en : UdpEntry) : List Datagram :=
  match en.out with
  | .tried d (.ok true) => [d]
  | _ => []

def emitted (en : UdpEntry) : List Datagram :=
  match en.out with
  | .sent d => [d]
  | _ => []

def arrived (en : UdpEntry) : List Datagram :=
  match en.out with
  | .received d => [d]
  | _ => []

def delivered (en : UdpEntry) : List Datagram :=
  match en.out with
  | .taken d => [d]
  | _ => []

section
variable {s s' : UdpState} {e : UdpEvent} {o : UdpOut} {tr : List UdpEntry}

theorem udpSocket_aside (h : udpSocket.step s e = some (s', o)) (he : e.sends = false) :
    (s'.toSocket = s.toSocket ∧ s'.sender = s.sender ∧ s.now ≤ s'.now) ∧
      (admitted ⟨s, e, o, s'⟩ = [] ∧ emitted ⟨s, e, o, s'⟩ = [] ∧ ∀ d, o ≠ .retained d) ∧
      delivered ⟨s, e, o, s'⟩ ++ s'.fromSocket <+ s.fromSocket ++ arrived ⟨s, e, o, s'⟩ := by
  cases e with
  | trySend => cases he
  | recv => cases he
  | sendTo => cases he
  | wake => cases he
  | cloneSender =>
    simp only [udpSocket] at h
    split at h
    · cases h; simp [admitted, emitted, delivered, arrived]
    · cases h
  | dropSender =>
    simp only [udpSocket] at h
    split at h
    · cases h; simp [admitted, emitted, delivered, arrived]
    · cases h
  | elapse d =>
    cases h
    simp [admitted, emitted, delivered, arrived]
  | recvFrom answer =>
    simp only [udpSocket] at h
    split at h
    · split at h
      · cases h; simp [admitted, emitted, delivered, arrived]
      · split at h
        · cases h; simp [admitted, emitted, delivered, arrived]
        · rename_i hq
          cases h
          refine ⟨⟨rfl, rfl, le_refl _⟩, ⟨rfl, rfl, nofun⟩, ?_⟩
          unfold trySendTo at hq
          split at hq
          · cases hq
          · cases hq
            exact trySend_sublist _ _
    · cases h
  | take =>
    simp only [udpSocket] at h
    split at h
    · rename_i hq
      split at h
      · cases h; simp [admitted, emitted, delivered, arrived, hq]
      · cases h
    · cases h
  | dropConsumer =>
    simp only [udpSocket] at h
    split at h
    · cases h; simp [admitted, emitted, delivered, arrived]
    · cases h

/-- A turn of the sender task: a step that it survives, or its end. -/
theorem senderTurn_cases {se : SenderEvent} (h : s.senderTurn se = some (s', o)) :
    ∃ task, s.sender = .running task ∧
      ((∃ queue task', senderStep s.toSocket task se = some (queue, .ok task') ∧ o = UdpState.shown task task' ∧
          s' = { s with toSocket := queue, sender := .running task' }) ∨
        ∃ queue text, senderStep s.toSocket task se = some (queue, .error text) ∧ o = .silent ∧
          s' = s.endSender (.error text)) := by
  simp only [UdpState.senderTurn] at h
  split at h
  · cases h
  · rename_i task hs
    refine ⟨task, hs, ?_⟩
    split at h
    · cases h
    · rename_i queue text hst
      cases h
      exact .inr ⟨queue, text, hst, rfl, rfl⟩
    · rename_i queue task' hst
      cases h
      exact .inl ⟨queue, task', hst, rfl, rfl⟩

theorem senderStep_error {queue queue' : List Datagram} {task : SenderTask} {se : SenderEvent} {text : String}
    (h : senderStep queue task se = some (queue', .error text)) :
    ∃ d now answer, se = .sendTo now answer ∧ task = .sending d := by
  cases se with
  | recv =>
    simp only [senderStep] at h
    split at h <;> cases h
  | sendTo now answer =>
    simp only [senderStep] at h
    split at h
    · rename_i d
      exact ⟨d, now, answer, rfl, rfl⟩
    · cases h
  | wake now =>
    simp only [senderStep] at h
    split at h
    · split at h <;> cases h
    · cases h

theorem sendTo_cases {answer : Except IoError Nat} (h : udpSocket.step s (.sendTo answer) = some (s', o)) :
    ∃ d, s.sender = .running (.sending d) ∧
      ((answer = .ok d.1.length ∧ o = .sent d ∧ s' = { s with sender := .running .waiting }) ∨
        (∃ error, answer = .error error ∧ shouldRetryUdpSend error = true ∧ o = .retained d ∧
          s' = { s with sender := .running (.sleeping d (s.now + networkUnreachableRetryDelay)) }) ∨
        ∃ text, o = .silent ∧ s' = s.endSender (.error text)) := by
  obtain ⟨task, hs, ⟨queue, task', hst, rfl, rfl⟩ | ⟨queue, text, hst, rfl, rfl⟩⟩ := senderTurn_cases h
  · rcases senderStep_cases hst with ⟨_, he, _⟩ | ⟨d, now, he, rfl, rfl, rfl⟩ | ⟨d, now, error, he, hr, rfl, rfl, rfl⟩ |
      ⟨_, _, _, he, _⟩
    · cases he
    · cases he
      exact ⟨d, hs, .inl ⟨rfl, rfl, rfl⟩⟩
    · cases he
      exact ⟨d, hs, .inr (.inl ⟨error, rfl, hr, rfl, rfl⟩)⟩
    · cases he
  · obtain ⟨d, _, _, _, rfl⟩ := senderStep_error hst
    exact ⟨d, hs, .inr (.inr ⟨text, rfl, rfl⟩)⟩

/-- What the sending half does. -/
theorem udpSocket_cases (h : udpSocket.step s e = some (s', o)) (he : e.sends = true) :
    (∃ d, e = .trySend d ∧ s.closed = true ∧ o = .tried d (.error "UDP task stopped") ∧ s' = s) ∨
    (∃ d, e = .trySend d ∧ s.closed = false ∧ o = .tried d (.ok (trySend s.toSocket d).2) ∧
      s' = { s with toSocket := (trySend s.toSocket d).1 }) ∨
    (∃ d rest, e = .recv ∧ s.sender = .running .waiting ∧ s.toSocket = d :: rest ∧ o = .silent ∧
      s' = { s with toSocket := rest, sender := .running (.sending d) }) ∨
    (e = .recv ∧ s.sender = .running .waiting ∧ s.toSocket = [] ∧ s.senders = 0 ∧ o = .silent ∧
      s' = s.endSender (.ok ())) ∨
    (∃ answer, e = .sendTo answer ∧ udpSocket.step s (.sendTo answer) = some (s', o)) ∨
    (∃ d deadline, e = .wake ∧ s.sender = .running (.sleeping d deadline) ∧ deadline ≤ s.now ∧ o = .silent ∧
      s' = { s with sender := .running (.sending d) }) := by
  cases e with
  | trySend d =>
    simp only [udpSocket, trySendTo] at h
    split at h
    · by_cases hc : s.closed = true
      · simp only [hc, if_true] at h
        cases h
        exact .inl ⟨d, rfl, hc, rfl, rfl⟩
      · simp only [hc] at h
        cases h
        exact .inr (.inl ⟨d, rfl, by simpa using hc, rfl, rfl⟩)
    · cases h
  | recv =>
    simp only [udpSocket] at h
    split at h
    · rename_i hs hq
      split at h
      · rename_i h0
        cases h
        exact .inr (.inr (.inr (.inl ⟨rfl, hs, hq, h0, rfl, rfl⟩)))
      · cases h
    · obtain ⟨task, hs, ⟨queue, task', hst, rfl, rfl⟩ | ⟨_, _, hst, _⟩⟩ := senderTurn_cases h
      · rcases senderStep_cases hst with ⟨d, _, rfl, hq, rfl⟩ | ⟨_, _, he, _⟩ | ⟨_, _, _, he, _⟩ | ⟨_, _, _, he, _⟩
        · exact .inr (.inr (.inl ⟨d, queue, rfl, hs, hq, rfl, rfl⟩))
        · cases he
        · cases he
        · cases he
      · obtain ⟨_, _, _, he, _⟩ := senderStep_error hst
        cases he
  | sendTo answer => exact .inr (.inr (.inr (.inr (.inl ⟨answer, rfl, h⟩))))
  | wake =>
    obtain ⟨task, hs, ⟨queue, task', hst, rfl, rfl⟩ | ⟨_, _, hst, _⟩⟩ := senderTurn_cases h
    · rcases senderStep_cases hst with ⟨_, he, _⟩ | ⟨_, _, he, _⟩ | ⟨_, _, _, he, _⟩ | ⟨d, _, deadline, he, rfl, hd, rfl, rfl⟩
      · cases he
      · cases he
      · cases he
      · cases he
        exact .inr (.inr (.inr (.inr (.inr ⟨d, deadline, rfl, hs, hd, rfl, rfl⟩))))
    · obtain ⟨_, _, _, he, _⟩ := senderStep_error hst
      cases he
  | _ => cases he

/-! ## What was admitted -/

def UdpSender.held : UdpSender → List Datagram
  | running task => task.held
  | ended _ => []

def UdpSender.failed : UdpSender → Prop
  | ended (.error _) => True
  | _ => False

def UdpState.outLine (s : UdpState) : List Datagram := s.sender.held ++ s.toSocket

/-- All that was admitted: sent, on its way, or lost with the task. -/
structure Carried (tr : List UdpEntry) (s : UdpState) (lost : List Datagram) : Prop where
  ledger : tr.flatMap emitted ++ s.outLine ++ lost = tr.flatMap admitted
  queue : s.toSocket.length ≤ udpQueueCapacity
  few : lost.length ≤ udpQueueCapacity + 1
  failed : lost ≠ [] → s.sender.failed

theorem UdpSender.length_held (t : UdpSender) : t.held.length ≤ 1 := by
  cases t with
  | running task => exact task.length_held
  | ended result => simp [held]

theorem Carried.aside {lost : List Datagram} (hC : Carried tr s lost) (h : udpSocket.step s e = some (s', o))
    (he : e.sends = false) : Carried (tr ++ [⟨s, e, o, s'⟩]) s' lost := by
  obtain ⟨⟨hq, hs, -⟩, ⟨ha, hm, -⟩, -⟩ := udpSocket_aside h he
  refine ⟨?_, hq ▸ hC.queue, hC.few, fun hl => hs ▸ hC.failed hl⟩
  simpa [UdpState.outLine, hq, hs, ha, hm] using hC.ledger

/-- A step that moves a datagram along the line: nothing is lost, so the task has not failed. -/
theorem Carried.moved (hC : Carried tr s []) (hq : s'.toSocket.length ≤ udpQueueCapacity)
    (hl : emitted ⟨s, e, o, s'⟩ ++ s'.outLine = s.outLine ++ admitted ⟨s, e, o, s'⟩) :
    Carried (tr ++ [⟨s, e, o, s'⟩]) s' [] := by
  refine ⟨?_, hq, Nat.zero_le _, fun h => absurd rfl h⟩
  have hled := hC.ledger
  simp only [List.append_nil] at hled
  rw [List.append_nil, List.flatMap_append, List.flatMap_append, List.flatMap_singleton, List.flatMap_singleton,
    List.append_assoc, hl, ← List.append_assoc, hled]

theorem Carried.eq_nil {lost : List Datagram} (hC : Carried tr s lost) (hf : ¬s.sender.failed) : lost = [] := by
  by_contra hl
  exact hf (hC.failed hl)

theorem not_failed_of_open (hc : s.closed = false) : ¬s.sender.failed := by
  intro hf
  cases hs : s.sender with
  | ended result => simp [UdpState.closed, hs] at hc
  | _ => rw [hs] at hf; exact hf

theorem Carried.sendTo {answer : Except IoError Nat} (hC : Carried tr s [])
    (h : udpSocket.step s (.sendTo answer) = some (s', o)) :
    ∃ lost, Carried (tr ++ [⟨s, .sendTo answer, o, s'⟩]) s' lost := by
  obtain ⟨d, hs, ⟨-, rfl, rfl⟩ | ⟨error, -, -, rfl, rfl⟩ | ⟨text, rfl, rfl⟩⟩ := sendTo_cases h
  · refine ⟨[], hC.moved hC.queue ?_⟩
    simp [emitted, admitted, UdpState.outLine, UdpSender.held, SenderTask.held, hs]
  · refine ⟨[], hC.moved hC.queue ?_⟩
    simp [emitted, admitted, UdpState.outLine, UdpSender.held, SenderTask.held, hs]
  · -- the datagram in hand and the queue go with the task
    refine ⟨s.outLine, ?_, Nat.zero_le _, ?_, fun _ => trivial⟩
    · simpa [emitted, admitted, UdpState.outLine, UdpSender.held, SenderTask.held, UdpState.endSender] using hC.ledger
    · have hlen := s.sender.length_held
      have hq := hC.queue
      rw [UdpState.outLine, List.length_append]
      omega

theorem Carried.step {lost : List Datagram} (hC : Carried tr s lost) (h : udpSocket.step s e = some (s', o)) :
    ∃ lost', Carried (tr ++ [⟨s, e, o, s'⟩]) s' lost' := by
  by_cases he : e.sends = true
  · rcases udpSocket_cases h he with ⟨d, rfl, _, rfl, rfl⟩ | ⟨d, rfl, hc, rfl, rfl⟩ |
      ⟨d, rest, rfl, hs, hq, rfl, rfl⟩ | ⟨rfl, hs, hq, _, rfl, rfl⟩ | ⟨answer, rfl, h⟩ | ⟨d, deadline, rfl, hs, _, rfl, rfl⟩
    · refine ⟨lost, ?_, hC.queue, hC.few, hC.failed⟩
      simpa [emitted, admitted] using hC.ledger
    · obtain rfl := hC.eq_nil (not_failed_of_open hc)
      refine ⟨[], hC.moved (length_trySend hC.queue d) ?_⟩
      show s.sender.held ++ (trySend s.toSocket d).1 = _
      rw [trySend_eq, UdpState.outLine, List.append_assoc]
      cases (trySend s.toSocket d).2 <;> rfl
    · obtain rfl := hC.eq_nil (by simp [hs, UdpSender.failed])
      have hlen := hC.queue
      rw [hq, List.length_cons] at hlen
      refine ⟨[], hC.moved (Nat.le_of_succ_le hlen) ?_⟩
      simp [emitted, admitted, UdpState.outLine, UdpSender.held, SenderTask.held, hs, hq]
    · obtain rfl := hC.eq_nil (by simp [hs, UdpSender.failed])
      refine ⟨[], hC.moved (Nat.zero_le _) ?_⟩
      simp [emitted, admitted, UdpState.outLine, UdpState.endSender, UdpSender.held, SenderTask.held, hs, hq]
    · obtain ⟨d, hs, -⟩ := sendTo_cases h
      obtain rfl := hC.eq_nil (by simp [hs, UdpSender.failed])
      exact hC.sendTo h
    · obtain rfl := hC.eq_nil (by simp [hs, UdpSender.failed])
      refine ⟨[], hC.moved hC.queue ?_⟩
      simp [emitted, admitted, UdpState.outLine, UdpSender.held, SenderTask.held, hs]
  · exact ⟨lost, hC.aside h (by simpa using he)⟩

theorem carried_new : Carried [] UdpState.new [] := ⟨rfl, Nat.zero_le _, Nat.zero_le _, fun h => absurd rfl h⟩

theorem exists_carried (hr : udpSocket.Run .new tr s) : ∃ lost, Carried tr s lost := by
  apply hr.history (C := fun _ => True) (P := fun tr s => ∃ lost, Carried tr s lost) ⟨[], carried_new⟩
  · intro tr s e o s' _ ⟨lost, hC⟩ h _
    exact hC.step h
  · exact fun _ _ => trivial

/-! ## What was received -/

theorem fromSocket_sends (h : udpSocket.step s e = some (s', o)) (he : e.sends = true) :
    s'.fromSocket = s.fromSocket ∧ arrived ⟨s, e, o, s'⟩ = [] ∧ delivered ⟨s, e, o, s'⟩ = [] := by
  rcases udpSocket_cases h he with ⟨d, rfl, _, rfl, rfl⟩ | ⟨d, rfl, _, rfl, rfl⟩ | ⟨d, rest, rfl, _, _, rfl, rfl⟩ |
    ⟨rfl, _, _, _, rfl, rfl⟩ | ⟨answer, rfl, h⟩ | ⟨d, deadline, rfl, _, _, rfl, rfl⟩
  · exact ⟨rfl, rfl, rfl⟩
  · exact ⟨rfl, rfl, rfl⟩
  · exact ⟨rfl, rfl, rfl⟩
  · exact ⟨rfl, rfl, rfl⟩
  · obtain ⟨d, -, ⟨-, rfl, rfl⟩ | ⟨error, -, -, rfl, rfl⟩ | ⟨text, rfl, rfl⟩⟩ := sendTo_cases h <;>
      exact ⟨rfl, rfl, rfl⟩
  · exact ⟨rfl, rfl, rfl⟩

theorem fromSocket_line (h : udpSocket.step s e = some (s', o)) :
    delivered ⟨s, e, o, s'⟩ ++ s'.fromSocket <+ s.fromSocket ++ arrived ⟨s, e, o, s'⟩ := by
  by_cases he : e.sends = true
  · obtain ⟨hf, ha, hd⟩ := fromSocket_sends h he
    simp [hf, ha, hd]
  · exact (udpSocket_aside h (by simpa using he)).2.2

/-- **A socket sends what it accepts, once and in order.** What was accepted
and has not left is the datagram in hand and the queue, at most 257 of them;
all that can be lost is that, and only with a task that fails. What a
consumer takes is a sublist of what arrived. -/
theorem socket_in_order (hr : udpSocket.Run .new tr s) :
    (∃ lost, tr.flatMap emitted ++ s.outLine ++ lost = tr.flatMap admitted ∧
      s.outLine.length ≤ udpQueueCapacity + 1 ∧ lost.length ≤ udpQueueCapacity + 1 ∧
      (lost ≠ [] → s.sender.failed)) ∧
    tr.flatMap delivered ++ s.fromSocket <+ tr.flatMap arrived := by
  constructor
  · obtain ⟨lost, hC⟩ := exists_carried hr
    refine ⟨lost, hC.ledger, ?_, hC.few, hC.failed⟩
    have hlen := s.sender.length_held
    have hq := hC.queue
    rw [UdpState.outLine, List.length_append]
    omega
  · exact hr.line_sublist (L := UdpState.fromSocket) (T := delivered) (A := arrived) rfl
      fun _ _ _ _ hst => fromSocket_line hst

/-! ## An unreachable network -/

def unreachable : IoError := ⟨.networkUnreachable, "network is unreachable"⟩

def refused : IoError := ⟨.permissionDenied, "permission denied"⟩

/-- Two datagrams are accepted; the first is retained once and then sent, the
second meets an error that is not retried. -/
def sampleSends : List UdpEvent :=
  [.trySend ([1], .testNet 1 10000), .trySend ([2], .testNet 3 10000), .recv, .sendTo (.error unreachable),
    .elapse (secs 60), .wake, .sendTo (.ok 1), .recv, .sendTo (.error refused)]

theorem sampleSends_runs : (udpSocket.exec .new sampleSends).isSome = true := by decide +kernel

theorem sampleSends_in_order : ∃ tr s, udpSocket.Run .new tr s ∧
    tr.flatMap admitted = [([1], .testNet 1 10000), ([2], .testNet 3 10000)] ∧
    tr.flatMap emitted = [([1], .testNet 1 10000)] ∧
    ∃ lost, tr.flatMap emitted ++ s.outLine ++ lost = tr.flatMap admitted ∧ (lost ≠ [] → s.sender.failed) := by
  obtain ⟨⟨lost, hl, -, -, hf⟩, -⟩ := socket_in_order (Machine.run_of_exec sampleSends_runs)
  exact ⟨_, _, Machine.run_of_exec sampleSends_runs, by decide +kernel, by decide +kernel, lost, hl, hf⟩

/-! ## Holding on -/

def unattempted (en : UdpEntry) : Prop := ∀ answer, en.event ≠ .sendTo answer

/-- The task sleeps on `d`, which it failed to send at `t`, or has slept enough. -/
def UdpState.HoldsSince (d : Datagram) (t : Nat) (s : UdpState) : Prop :=
  s.sender = .running (.sleeping d (t + networkUnreachableRetryDelay)) ∨
    s.sender = .running (.sending d) ∧ t + networkUnreachableRetryDelay ≤ s.now

theorem holdsSince_step {d : Datagram} {t : Nat} (hH : s.HoldsSince d t) (h : udpSocket.step s e = some (s', o))
    (hu : unattempted ⟨s, e, o, s'⟩) : s'.HoldsSince d t := by
  by_cases he : e.sends = true
  · rcases udpSocket_cases h he with ⟨d', rfl, _, _, rfl⟩ | ⟨d', rfl, _, _, rfl⟩ | ⟨d', rest, _, hw, _⟩ | ⟨_, hw, _⟩ |
      ⟨answer, rfl, _⟩ | ⟨d', deadline, rfl, hs, hd, _, rfl⟩
    · exact hH
    · exact hH
    · rcases hH with hs | ⟨hs, _⟩ <;> simp [hs] at hw
    · rcases hH with hs | ⟨hs, _⟩ <;> simp [hs] at hw
    · exact absurd rfl (hu answer)
    · rcases hH with hs' | ⟨hs', _⟩
      · obtain ⟨rfl, rfl⟩ := SenderTask.sleeping.inj (UdpSender.running.inj (hs'.symm.trans hs))
        exact .inr ⟨rfl, hd⟩
      · simp [hs'] at hs
  · obtain ⟨⟨-, hs, hn⟩, -⟩ := udpSocket_aside h (by simpa using he)
    rcases hH with hs' | ⟨hs', ht⟩
    · exact .inl (hs.trans hs')
    · exact .inr ⟨hs.trans hs', ht.trans hn⟩

theorem retained_inv {d : Datagram} (h : udpSocket.step s e = some (s', .retained d)) : s'.HoldsSince d s.now := by
  by_cases he : e.sends = true
  · rcases udpSocket_cases h he with ⟨_, _, _, ho, _⟩ | ⟨_, _, _, ho, _⟩ | ⟨_, _, _, _, _, ho, _⟩ | ⟨_, _, _, _, ho, _⟩ |
      ⟨answer, rfl, h⟩ | ⟨_, _, _, _, _, ho, _⟩
    · cases ho
    · cases ho
    · cases ho
    · cases ho
    · obtain ⟨d', -, ⟨-, ho, -⟩ | ⟨error, -, -, ho, rfl⟩ | ⟨text, ho, -⟩⟩ := sendTo_cases h
      · cases ho
      · cases ho; exact .inl rfl
      · cases ho
    · cases ho
  · exact absurd rfl ((udpSocket_aside h (by simpa using he)).2.1.2.2 d)

theorem holdsSince_run {d : Datagram} {t : Nat} (hr : udpSocket.Run .new tr s)
    (hs : Since (fun en => en.out = .retained d ∧ en.pre.now = t) unattempted tr) : s.HoldsSince d t := by
  induction hr with
  | nil => obtain ⟨a, x, b, h, -⟩ := hs; simp at h
  | snoc hr hst ih =>
    rcases since_snoc.mp hs with ⟨rfl, rfl⟩ | ⟨hu, hs⟩
    · exact retained_inv hst
    · exact holdsSince_step (ih hs) hst hu

/-! ## Draining -/

theorem drain : ∀ (q : List Datagram) {s : UdpState}, s.sender = .running .waiting → s.toSocket = q →
    ∃ tr s', udpSocket.Run s tr s' ∧ (∀ en ∈ tr, ∀ d, en.event ≠ .trySend d) ∧ tr.flatMap emitted = q
  | [], s, _, _ => ⟨[], s, .nil, by simp, rfl⟩
  | d :: q, s, hs, hq => by
    obtain ⟨tr, s', hr, hn, he⟩ := drain q (s := { s with toSocket := q, sender := .running .waiting }) rfl rfl
    have h₂ : udpSocket.step { s with toSocket := q, sender := .running (.sending d) } (.sendTo (.ok d.1.length)) =
        some ({ s with toSocket := q, sender := .running .waiting }, .sent d) := by
      simp [udpSocket, UdpState.senderTurn, UdpState.shown, senderStep, SenderTask.answered]
    have h₁ : udpSocket.step s .recv = some ({ s with toSocket := q, sender := .running (.sending d) }, .silent) := by
      simp [udpSocket, UdpState.senderTurn, UdpState.shown, senderStep, hs, hq]
    refine ⟨_, s', .cons h₁ (.cons h₂ hr), ?_, ?_⟩
    · simpa using hn
    · simp [emitted, he]

theorem drain_sending {d : Datagram} (hs : s.sender = .running (.sending d)) :
    ∃ tr s', udpSocket.Run s tr s' ∧ (∀ en ∈ tr, ∀ d, en.event ≠ .trySend d) ∧ tr.flatMap emitted = s.outLine := by
  obtain ⟨tr, s', hr, hn, he⟩ := drain s.toSocket (s := { s with sender := .running .waiting }) rfl rfl
  have h : udpSocket.step s (.sendTo (.ok d.1.length)) = some ({ s with sender := .running .waiting }, .sent d) := by
    simp [udpSocket, UdpState.senderTurn, UdpState.shown, senderStep, SenderTask.answered, hs]
  refine ⟨_, s', .cons h hr, ?_, ?_⟩
  · simpa using hn
  · simp [emitted, he, UdpState.outLine, UdpSender.held, SenderTask.held, hs]

theorem drain_sleeping {d : Datagram} {deadline : Nat} (hs : s.sender = .running (.sleeping d deadline)) :
    ∃ tr s', udpSocket.Run s tr s' ∧ (∀ en ∈ tr, ∀ d, en.event ≠ .trySend d) ∧ tr.flatMap emitted = s.outLine := by
  obtain ⟨tr, s', hr, hn, he⟩ := drain_sending
    (s := { s with now := s.now + deadline, sender := .running (.sending d) }) rfl
  have h₂ : udpSocket.step { s with now := s.now + deadline } .wake =
      some ({ s with now := s.now + deadline, sender := .running (.sending d) }, .silent) := by
    simp [udpSocket, UdpState.senderTurn, UdpState.shown, senderStep, SenderTask.answered, hs]
  refine ⟨_, s', .cons (e := .elapse deadline) rfl (.cons h₂ hr), ?_, ?_⟩
  · simpa using hn
  · simp [emitted, he, UdpState.outLine, UdpSender.held, SenderTask.held, hs]

theorem exists_drained (hc : s.closed = false) :
    ∃ tr s', udpSocket.Run s tr s' ∧ (∀ en ∈ tr, ∀ d, en.event ≠ .trySend d) ∧ tr.flatMap emitted = s.outLine := by
  cases hs : s.sender with
  | running task =>
    cases task with
    | waiting =>
      obtain ⟨tr, s', hr, hn, he⟩ := drain s.toSocket hs rfl
      exact ⟨tr, s', hr, hn, by rw [he, UdpState.outLine, hs]; rfl⟩
    | sending d => exact drain_sending hs
    | sleeping d deadline => exact drain_sleeping hs
  | ended result => simp [UdpState.closed, hs] at hc

/-- **A datagram that the network cannot take blocks the socket, and is not
lost.** From the failed attempt at `t` on, it is the first on the line, and
the next attempt is for it, no earlier than 60 s later. A socket whose
task has not ended can still send all that it accepted, in that order. -/
theorem retains_until_sent (hr : udpSocket.Run .new tr s) :
    (∀ d t, Since (fun en => en.out = .retained d ∧ en.pre.now = t) unattempted tr →
      (∃ rest, s.outLine = d :: rest) ∧
      ∀ answer s' o, udpSocket.step s (.sendTo answer) = some (s', o) →
        s.sender = .running (.sending d) ∧ t + networkUnreachableRetryDelay ≤ s.now) ∧
    (s.closed = false → ∃ tr' s', udpSocket.Run s tr' s' ∧ (∀ en ∈ tr', ∀ d, en.event ≠ .trySend d) ∧
      (tr ++ tr').flatMap emitted = tr.flatMap admitted) := by
  constructor
  · intro d t hs
    have hH := holdsSince_run hr hs
    constructor
    · rcases hH with hs | ⟨hs, _⟩
      · exact ⟨s.toSocket, by rw [UdpState.outLine, hs]; rfl⟩
      · exact ⟨s.toSocket, by rw [UdpState.outLine, hs]; rfl⟩
    · intro answer s' o h
      obtain ⟨d', hd, -⟩ := sendTo_cases h
      rcases hH with hs | ⟨hs, ht⟩
      · simp [hs] at hd
      · exact ⟨hs, ht⟩
  · intro hc
    obtain ⟨tr', s', hr', hn, he⟩ := exists_drained hc
    obtain ⟨lost, hC⟩ := exists_carried hr
    obtain rfl := hC.eq_nil (not_failed_of_open hc)
    refine ⟨tr', s', hr', hn, ?_⟩
    have hled := hC.ledger
    rw [List.append_nil] at hled
    rw [List.flatMap_append, he, hled]

/-- The two are accepted, the first is retained, and the second waits behind it. -/
theorem sampleHold_runs : (udpSocket.exec .new (sampleSends.take 6)).isSome = true := by decide +kernel

theorem sampleHold_since : Since (fun en => en.out = .retained ([1], .testNet 1 10000) ∧ en.pre.now = 0) unattempted
    ((udpSocket.exec .new (sampleSends.take 6)).get sampleHold_runs).1 := by
  refine ⟨_, _, _, (List.take_append_drop 3 _).symm, ⟨rfl, rfl⟩, ?_⟩
  intro en hen answer he
  have hmem : en.event ∈ [.elapse (secs 60), .wake] := List.mem_map_of_mem (f := (·.event)) hen
  simp [he] at hmem

theorem sampleHold_retains : ∃ tr s, udpSocket.Run .new tr s ∧
    s.outLine = [([1], .testNet 1 10000), ([2], .testNet 3 10000)] ∧
    (∀ answer s' o, udpSocket.step s (.sendTo answer) = some (s', o) →
      s.sender = .running (.sending ([1], .testNet 1 10000))) ∧
    ∃ tr' s', udpSocket.Run s tr' s' ∧ (tr ++ tr').flatMap emitted = tr.flatMap admitted := by
  obtain ⟨h₁, h₂⟩ := retains_until_sent (Machine.run_of_exec sampleHold_runs)
  obtain ⟨tr', s', hr', -, he⟩ := h₂ (by decide +kernel)
  refine ⟨_, _, Machine.run_of_exec sampleHold_runs, by decide +kernel, ?_, tr', s', hr', he⟩
  intro answer s' o h
  exact ((h₁ _ _ sampleHold_since).2 answer s' o h).1

end

end P2pTunnler
