import P2pTunnler.Transport
import P2pTunnler.Lib.Machine

/-!
# A UDP socket and its two tasks

`split_udp_socket` of `utils.rs`: a sender and a receiver task, each behind a
bounded queue. What the system answers is an input. The sender task is a
machine of its own, so that a connection can run one for each of its sockets.
-/

namespace P2pTunnler

def networkUnreachableRetryDelay : Nat := secs 60

-- of `std::io`, the kinds that the source and its tests name
inductive SendErrorKind
  | networkUnreachable
  | permissionDenied
  | other
  deriving DecidableEq

structure IoError where
  kind : SendErrorKind
  text : String
  deriving DecidableEq

def shouldRetryUdpSend (error : IoError) : Bool := error.kind = .networkUnreachable

/-! ## The sender task -/

inductive SenderTask
  | waiting
  | sending (d : Datagram)
  | sleeping (d : Datagram) (deadline : Nat)

namespace SenderTask

-- what the loop does next after `send_to`; an error ends the task
def answered (d : Datagram) (now : Nat) : Except IoError Nat → Except String SenderTask
  | .ok n =>
    if n = d.1.length then .ok .waiting
    else .error s!"UDP socket sent {n} bytes of a {d.1.length}-byte datagram"
  | .error error =>
    if shouldRetryUdpSend error then .ok (.sleeping d (now + networkUnreachableRetryDelay)) else .error error.text

end SenderTask

inductive SenderEvent
  | recv
  | sendTo (now : Nat) (answer : Except IoError Nat)
  | wake (now : Nat)

/-- The queue and the task after a step, or the error that the task ends with. -/
def senderStep (queue : List Datagram) (task : SenderTask) :
    SenderEvent → Option (List Datagram × Except String SenderTask)
  | .recv =>
    match task, queue with
    | .waiting, d :: rest => some (rest, .ok (.sending d))
    | _, _ => none
  | .sendTo now answer =>
    match task with
    | .sending d => some (queue, SenderTask.answered d now answer)
    | _ => none
  | .wake now =>
    match task with
    | .sleeping d deadline => if deadline ≤ now then some (queue, .ok (.sending d)) else none
    | _ => none

namespace SenderTask

def held : SenderTask → List Datagram
  | waiting => []
  | sending d => [d]
  | sleeping d _ => [d]

theorem length_held (t : SenderTask) : t.held.length ≤ 1 := by
  cases t <;> simp [held]

/-- The datagram that leaves the socket when a task goes from one to the other. -/
def leaving : SenderTask → SenderTask → List Datagram
  | sending d, waiting => [d]
  | _, _ => []

end SenderTask

/-- A sender task takes the next datagram, sends the one it holds, keeps it or takes it up again. -/
theorem senderStep_cases {queue queue' : List Datagram} {task task' : SenderTask} {e : SenderEvent}
    (h : senderStep queue task e = some (queue', .ok task')) :
    (∃ d, e = .recv ∧ task = .waiting ∧ queue = d :: queue' ∧ task' = .sending d) ∨
    (∃ d now, e = .sendTo now (.ok d.1.length) ∧ task = .sending d ∧ queue' = queue ∧ task' = .waiting) ∨
    (∃ d now error, e = .sendTo now (.error error) ∧ shouldRetryUdpSend error = true ∧ task = .sending d ∧
      queue' = queue ∧ task' = .sleeping d (now + networkUnreachableRetryDelay)) ∨
    (∃ d now deadline, e = .wake now ∧ task = .sleeping d deadline ∧ deadline ≤ now ∧ queue' = queue ∧
      task' = .sending d) := by
  cases e with
  | recv =>
    simp only [senderStep] at h
    split at h
    · rename_i d rest
      cases h
      exact .inl ⟨d, rfl, rfl, rfl, rfl⟩
    · cases h
  | sendTo now answer =>
    simp only [senderStep] at h
    split at h
    · rename_i d
      obtain ⟨rfl, ha⟩ := Prod.mk.inj (Option.some.inj h)
      cases answer with
      | ok n =>
        simp only [SenderTask.answered] at ha
        split at ha
        · rename_i hn
          cases ha
          exact .inr (.inl ⟨d, now, by rw [hn], rfl, rfl, rfl⟩)
        · cases ha
      | error error =>
        simp only [SenderTask.answered] at ha
        split at ha
        · rename_i hr
          cases ha
          exact .inr (.inr (.inl ⟨d, now, error, rfl, hr, rfl, rfl, rfl⟩))
        · cases ha
    · cases h
  | wake now =>
    simp only [senderStep] at h
    split at h
    · rename_i d deadline
      split at h
      · rename_i hd
        cases h
        exact .inr (.inr (.inr ⟨d, now, deadline, rfl, rfl, hd, rfl, rfl⟩))
      · cases h
    · cases h

/-- A sender task loses nothing and changes no order. -/
theorem senderStep_ledger {queue queue' : List Datagram} {task task' : SenderTask} {e : SenderEvent}
    (h : senderStep queue task e = some (queue', .ok task')) :
    task.leaving task' ++ (task'.held ++ queue') = task.held ++ queue := by
  rcases senderStep_cases h with ⟨d, _, rfl, rfl, rfl⟩ | ⟨d, _, _, rfl, rfl, rfl⟩ | ⟨d, _, _, _, _, rfl, rfl, rfl⟩ |
    ⟨d, _, _, _, rfl, _, rfl, rfl⟩ <;> rfl

/-! ## The socket -/

inductive UdpSender
  | running (task : SenderTask)
  | ended (result : Except String Unit)

structure UdpState where
  now : Nat
  toSocket : List Datagram
  -- the clones of the sending half that are still there
  senders : Nat
  sender : UdpSender
  fromSocket : List Datagram
  -- the receiving half is still there
  consumer : Bool
  -- the error the receiver task ended with
  receiver : Option String

def UdpState.new : UdpState := ⟨0, [], 1, .running .waiting, [], true, none⟩

inductive UdpEvent
  | trySend (d : Datagram)
  | cloneSender
  | dropSender
  | recv
  | sendTo (answer : Except IoError Nat)
  | wake
  | elapse (d : Nat)
  | recvFrom (answer : Except IoError Datagram)
  | take
  | dropConsumer

inductive UdpOut
  | silent
  | tried (d : Datagram) (result : Except String Bool)
  | sent (d : Datagram)
  | retained (d : Datagram)
  | received (d : Datagram)
  | taken (d : Datagram)

abbrev UdpEntry := Machine.Entry UdpState UdpEvent UdpOut

namespace UdpState

variable (s : UdpState)

-- the queue goes with the task
def endSender (result : Except String Unit) : UdpState := { s with toSocket := [], sender := .ended result }

def closed : Bool :=
  match s.sender with
  | .ended _ => true
  | _ => false

-- what a step of the sender task shows
def shown : SenderTask → SenderTask → UdpOut
  | .sending d, .waiting => .sent d
  | .sending d, .sleeping _ _ => .retained d
  | _, _ => .silent

def senderTurn (e : SenderEvent) : Option (UdpState × UdpOut) :=
  match s.sender with
  | .ended _ => none
  | .running task =>
    match senderStep s.toSocket task e with
    | none => none
    | some (_, .error text) => some (s.endSender (.error text), .silent)
    | some (queue, .ok task') => some ({ s with toSocket := queue, sender := .running task' }, shown task task')

end UdpState

-- `utils::try_send` on a channel whose other end may be gone
def trySendTo (closed : Bool) (queue : List Datagram) (d : Datagram) : List Datagram × Except String Bool :=
  if closed then (queue, .error "UDP task stopped") else ((trySend queue d).1, .ok (trySend queue d).2)

def udpSocket : Machine UdpState UdpEvent UdpOut where
  step s
    | .trySend d =>
      if 0 < s.senders then
        some ({ s with toSocket := (trySendTo s.closed s.toSocket d).1 }, .tried d (trySendTo s.closed s.toSocket d).2)
      else none
    | .cloneSender => if 0 < s.senders then some ({ s with senders := s.senders + 1 }, .silent) else none
    | .dropSender => if 0 < s.senders then some ({ s with senders := s.senders - 1 }, .silent) else none
    | .recv =>
      match s.sender, s.toSocket with
      | .running .waiting, [] => if s.senders = 0 then some (s.endSender (.ok ()), .silent) else none
      | _, _ => s.senderTurn .recv
    | .sendTo answer => s.senderTurn (.sendTo s.now answer)
    | .wake => s.senderTurn (.wake s.now)
    | .elapse d => some ({ s with now := s.now + d }, .silent)
    | .recvFrom answer =>
      match s.receiver with
      | none =>
        match answer with
        | .error error => some ({ s with receiver := some error.text }, .silent)
        | .ok d =>
          match trySendTo (!s.consumer) s.fromSocket d with
          | (_, .error error) => some ({ s with receiver := some error }, .silent)
          | (queue, .ok _) => some ({ s with fromSocket := queue }, .received d)
      | some _ => none
    | .take =>
      match s.fromSocket with
      | d :: rest => if s.consumer then some ({ s with fromSocket := rest }, .taken d) else none
      | [] => none
    | .dropConsumer => if s.consumer then some ({ s with consumer := false, fromSocket := [] }, .silent) else none

end P2pTunnler
