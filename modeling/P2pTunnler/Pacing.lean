import P2pTunnler.Gather
import P2pTunnler.Mapping
import P2pTunnler.Lib.Watch

/-!
# A mapping and the rounds that advertise it

`request_nat_mapping`, the worker it starts, and the rounds of
`lookup_public_address` with `wait_for_next_stun_attempt` between them. The
worker tells over a watch channel that its mapping is gone, and then goes
itself; the wait ends early for the first and must not spin on the second.
-/

namespace P2pTunnler

/-- `request_nat_mapping` and then `lookup_public_address`, at their await points. -/
inductive LookupTask
  | requesting
  | looking
  -- `timeout(delay, mapping.changed())`
  | watching (delay deadline : Nat)
  | sleeping (deadline : Nat)
  | returned
  deriving DecidableEq

structure PacedState where
  now : Nat
  worker : WorkerState
  active : Watch Bool
  -- the version that the receiver in the mapping has seen
  seen : Nat
  natMapping : Option SocketAddr
  task : LookupTask

def PacedState.new : PacedState := ⟨0, .new, .channel true, 0, none, .requesting⟩

inductive PacedEvent
  | worker (e : WorkerEvent)
  -- no mapping is asked for, or there is no worker to ask
  | unmapped
  -- the worker has returned, and its end of the channel is dropped
  | exit
  | lookup (r : Round)
  | poll
  | wake
  | elapse (d : Nat)

inductive PacedOut
  | silent
  | effects (es : List Effect)
  | broadcast (addresses : List SocketAddr)

abbrev PacedEntry := Machine.Entry PacedState PacedEvent PacedOut

/-- The STUN server answered in this round. -/
def Round.answered (r : Round) : Bool := r.server.any fun server => (r.answer server).isOk

def Round.delay (r : Round) : Nat := if r.answered then secs 60 else secs 15

def StunLookup.next (lookup : StunLookup) : LookupTask := if lookup.runOnce then .returned else .looking

namespace PacedState

variable (lookup : StunLookup) (s : PacedState)

def waitForNextStunAttempt (delay : Nat) : LookupTask :=
  if s.natMapping.isSome then .watching delay (s.now + delay) else .sleeping (s.now + delay)

-- `is_active` is read when the answer of the server is there, and the list goes out in the same step: what the
-- worker, a thread of its own, reports in between counts as reported after it
def round (r : Round) : Option (List SocketAddr) :=
  { lookup with natMapping := s.natMapping }.lookupPublicAddress { r with active := s.active.value }

def workerStep (e : WorkerEvent) : Option (PacedState × PacedOut) :=
  match (mappingWorker lookup.localPort).step s.worker e with
  | none => none
  | some (worker, effects) =>
    match e with
    -- a mapping for port 0 is never requested
    | .start _ =>
      if s.task = .requesting ∧ lookup.localPort ≠ 0 then some ({ s with worker := worker }, .effects effects) else none
    | .send _ =>
      match effects with
      | [.sent (.ok (externalAddr, _))] =>
        some ({ s with worker := worker, natMapping := some externalAddr, task := .looking }, .effects effects)
      | [.sent (.error _)] => some ({ s with worker := worker, task := .looking }, .effects effects)
      | _ => some ({ s with worker := worker }, .effects effects)
    | .elapse _ => none
    -- the mapping goes with the task that owns it
    | .shutdown => if s.task = .returned then some ({ s with worker := worker }, .effects effects) else none
    | .timeout (.error _) =>
      some ({ s with worker := worker, active := s.active.sendReplace false }, .effects effects)
    | .timeout (.ok _) => some ({ s with worker := worker }, .effects effects)

end PacedState

def paced (lookup : StunLookup) : Machine PacedState PacedEvent PacedOut where
  step s
    | .worker e => s.workerStep lookup e
    | .unmapped =>
      match s.task, s.worker.phase with
      | .requesting, .starting => some ({ s with task := .looking }, .silent)
      | _, _ => none
    | .exit =>
      match s.worker.phase with
      | .returned => if 0 < s.active.senders then some ({ s with active := s.active.drop }, .silent) else none
      | _ => none
    | .lookup r =>
      match s.task with
      | .looking =>
        match s.round lookup r with
        | none => some ({ s with task := .returned }, .silent)
        | some addresses => some ({ s with task := s.waitForNextStunAttempt r.delay }, .broadcast addresses)
      | _ => none
    | .poll =>
      match s.task with
      | .watching delay deadline =>
        match s.active.poll s.seen with
        | .changed seen => some ({ s with seen := seen, task := lookup.next }, .silent)
        | .closed => some ({ s with task := .sleeping (s.now + delay) }, .silent)
        | .pending => if deadline ≤ s.now then some ({ s with task := lookup.next }, .silent) else none
      | _ => none
    | .wake =>
      match s.task with
      | .sleeping deadline => if deadline ≤ s.now then some ({ s with task := lookup.next }, .silent) else none
      | _ => none
    | .elapse d =>
      match s.worker.phase with
      | .waiting _ _ _ =>
        match (mappingWorker lookup.localPort).step s.worker (.elapse d) with
        | none => none
        | some (worker, _) => some ({ s with now := s.now + d, worker := worker }, .silent)
      | _ => some ({ s with now := s.now + d }, .silent)

end P2pTunnler
