import P2pTunnler.Candidates
import P2pTunnler.Stun.Lookup
import P2pTunnler.UdpSocket

/-!
# One connection

The tasks that `setup_connection` starts for a peer, as one machine. A step
is what one task does between two points at which it can be suspended: the
runtime is multi-threaded, so every interleaving of these steps is a run.
A lock that a task keeps over several steps blocks the writers meanwhile; a
channel is a queue that drops what does not fit. A run goes on as long as
none of the tasks has ended.
-/

namespace P2pTunnler

open Finset (Enumerates)

-- the closure that `setup_connection` gives to `split_internet_receiver`
def internetPacketKind (packet : Bytes) : Except Fault InternetPacketKind :=
  if classify packet then
    if packet.length = frameLen then .ok .probe else .ok .drop
  else if 20 < packet.length then do
    let word ← slice packet 4 12
    return if word = BigEndian.be64 cookieWord then .stun else .data
  else .ok .data

/-! ## Where each task can be suspended -/

inductive ListenerTask
  | waiting
  | reading (m : Message)
  | replacing (m : Message) (updated : Finset SocketAddr)
  | updating (m : Message) (updated : Finset SocketAddr)

inductive HandlerTask
  | waiting
  | acting (packet : Bytes) (source : SocketAddr)
  | admitting (packet : Bytes) (source : SocketAddr)
  | echoing (packet : Bytes) (source : SocketAddr)

inductive InboundTask
  | waiting
  | checking (packet : Bytes) (source : SocketAddr)
  | delivering (packet : Bytes) (source : SocketAddr)

inductive LoopbackTask
  | waiting
  | comparing (packet : Bytes) (wireguard : SocketAddr)
  | setting (packet : Bytes) (wireguard : SocketAddr)
  | locking (packet : Bytes)
  -- holds the read guard of the candidate set
  | sending (packet : Bytes) (peers : List SocketAddr)

inductive RouterTask
  | waiting
  | routing (packet : Bytes) (source : SocketAddr)

-- between two lookups there is nobody who reads `fromStun`
inductive StunTask
  | idle
  | awaiting (id : UInt64) (stunServer : SocketAddr)

structure ConnState where
  connections : CandidateSet
  probes : ProbeState
  localPeer : Option SocketAddr
  lastTimestamp : Option Int
  fromInternet : List Datagram
  fromProbes : List Datagram
  fromStun : List Datagram
  fromPeers : List Datagram
  toInternet : List Datagram
  fromLocal : List Datagram
  toLocal : List Datagram
  router : RouterTask
  internetSender : SenderTask
  localSender : SenderTask
  stun : StunTask
  listener : ListenerTask
  handler : HandlerTask
  inbound : InboundTask
  loopback : LoopbackTask
  -- the frames of a tick that are not sent yet
  scheduler : List Datagram

def ConnState.new (localToken : Token) : ConnState where
  connections := default
  probes := .new localToken
  localPeer := none
  lastTimestamp := none
  fromInternet := []
  fromProbes := []
  fromStun := []
  fromPeers := []
  toInternet := []
  fromLocal := []
  toLocal := []
  router := .waiting
  internetSender := .waiting
  localSender := .waiting
  stun := .idle
  listener := .waiting
  handler := .waiting
  inbound := .waiting
  loopback := .waiting
  scheduler := []

inductive Origin
  | loopback
  | due
  | echo
  | stun
  deriving DecidableEq

/-- What a step shows: a record taken, installed or handed to the prober, and datagrams on their way. -/
inductive ConnOut
  | silent
  | accepted (m : Message)
  | replaced (m : Message)
  | updated (m : Message)
  | checked (packet : Bytes) (source : SocketAddr)
  | offered (origin : Origin) (d : Datagram) (queued : Bool)
  | forwarded (packet : Bytes) (source wireguard : SocketAddr) (queued : Bool)

namespace ConnState

-- `connections.write()` waits for the reader that holds its guard
def writable (s : ConnState) : Bool :=
  match s.loopback with
  | .sending _ _ => false
  | _ => true

def offer (s : ConnState) (origin : Origin) (d : Datagram) : ConnState × ConnOut :=
  ({ s with toInternet := (trySend s.toInternet d).1 }, .offered origin d (trySend s.toInternet d).2)

end ConnState

/-! ## `listen_for_peer_candidates` -/

inductive ListenerEvent
  | value (value : Bytes) (now : Int)
  | read (knownOrder : List SocketAddr)
  | replace
  | update (order : List SocketAddr) (instant : Nat)

def listenerStep {κ : Type} (P : Endpoint κ) (s : ConnState) : ListenerEvent → Option (ConnState × ConnOut)
  | .value value now =>
    match s.listener with
    | .waiting =>
      match P.receive s.lastTimestamp value now with
      | none => some (s, .silent)
      | some m => some ({ s with lastTimestamp := some m.timestamp, listener := .reading m }, .accepted m)
    | _ => none
  | .read knownOrder =>
    match s.listener with
    | .reading m =>
      let updated := P.flags.updatedPeers m knownOrder
      let changed := s.connections.advertised ≠ updated
      if Enumerates knownOrder s.connections.advertised then
        some ({ s with listener := if changed then .replacing m updated else .updating m updated }, .silent)
      else none
    | _ => none
  | .replace =>
    match s.listener with
    | .replacing m updated =>
      if s.writable then
        some ({ s with connections := s.connections.replaceAdvertised updated, listener := .updating m updated },
          .replaced m)
      else none
    | _ => none
  | .update order instant =>
    match s.listener with
    | .updating m updated =>
      if Enumerates order updated then
        some ({ s with probes := s.probes.updateRemote (P.enc.remoteToken m) order instant, listener := .waiting },
          .updated m)
      else none
    | _ => none

/-! ## `handle_packets` -/

inductive HandlerEvent
  | recv
  | act (now : Nat) (jitter : Nat → Nat)
  | addSource
  | echo

def handlerStep (s : ConnState) : HandlerEvent → Option (ConnState × ConnOut)
  | .recv =>
    match s.handler, s.fromProbes with
    | .waiting, (packet, source) :: rest =>
      some ({ s with fromProbes := rest, handler := .acting packet source }, .silent)
    | _, _ => none
  | .act now jitter =>
    match s.handler with
    | .acting packet source =>
      let (probes, action) := s.probes.packetAction packet source now jitter
      some ({ s with
        probes := probes
        handler := if action = .echoAndAdmit then .admitting packet source else .waiting }, .silent)
    | _ => none
  | .addSource =>
    match s.handler with
    | .admitting packet source =>
      if s.writable then
        some ({ s with
          connections := (s.connections.addPeerReflexive source).1
          handler := .echoing packet source }, .silent)
      else none
    | _ => none
  | .echo =>
    match s.handler with
    | .echoing packet source => some ({ s with handler := .waiting }.offer .echo (packet, source))
    | _ => none

/-! ## `forward_inbound_traffic` -/

inductive InboundEvent
  | recv
  | check
  | deliver

def inboundStep (s : ConnState) : InboundEvent → Option (ConnState × ConnOut)
  | .recv =>
    match s.inbound, s.fromPeers with
    | .waiting, (packet, source) :: rest =>
      some ({ s with fromPeers := rest, inbound := .checking packet source }, .silent)
    | _, _ => none
  | .check =>
    match s.inbound with
    | .checking packet source =>
      some ({ s with inbound := if s.connections.contains source then .delivering packet source else .waiting },
        .checked packet source)
    | _ => none
  | .deliver =>
    match s.inbound with
    | .delivering packet source =>
      match s.localPeer with
      | none => some ({ s with inbound := .waiting }, .silent)
      | some wireguard =>
        let (toLocal, queued) := trySend s.toLocal (packet, wireguard)
        some ({ s with toLocal := toLocal, inbound := .waiting }, .forwarded packet source wireguard queued)
    | _ => none

/-! ## `bind_loopback_and_forward` -/

inductive LoopbackEvent
  | recv
  | compare
  | set
  | lock (advertised peerReflexive : List SocketAddr)
  | send

def loopbackStep (s : ConnState) : LoopbackEvent → Option (ConnState × ConnOut)
  | .recv =>
    match s.loopback, s.fromLocal with
    | .waiting, (packet, wireguard) :: rest =>
      some ({ s with fromLocal := rest, loopback := .comparing packet wireguard }, .silent)
    | _, _ => none
  | .compare =>
    match s.loopback with
    | .comparing packet wireguard =>
      some ({ s with
        loopback := if s.localPeer ≠ some wireguard then .setting packet wireguard else .locking packet }, .silent)
    | _ => none
  | .set =>
    match s.loopback with
    | .setting packet wireguard => some ({ s with localPeer := some wireguard, loopback := .locking packet }, .silent)
    | _ => none
  | .lock advertised peerReflexive =>
    match s.loopback with
    | .locking packet =>
      if Enumerates advertised s.connections.advertised ∧ Enumerates peerReflexive s.connections.peerReflexive then
        some ({ s with loopback := .sending packet (s.connections.addresses advertised peerReflexive) }, .silent)
      else none
    | _ => none
  | .send =>
    match s.loopback with
    | .sending packet (peer :: peers) =>
      some ({ s with loopback := .sending packet peers }.offer .loopback (packet, peer))
    | .sending _ [] => some ({ s with loopback := .waiting }, .silent)
    | _ => none

/-! ## `schedule_probes` -/

inductive SchedulerEvent
  | tick (now : Nat) (order : List SocketAddr) (jitter : SocketAddr → Nat → Nat)
  | send

def schedulerStep (s : ConnState) : SchedulerEvent → Option (ConnState × ConnOut)
  | .tick now order jitter =>
    if s.scheduler = [] ∧ Enumerates order s.probes.paths.keys then
      let (probes, frames) := s.probes.dueFrames now order jitter
      some ({ s with probes := probes, scheduler := frames }, .silent)
    else none
  | .send =>
    match s.scheduler with
    | [] => none
    | d :: rest => some ({ s with scheduler := rest }.offer .due d)

/-! ## The sockets, the receive router and the STUN lookup -/

inductive SocketEvent
  | receive (d : Datagram)
  -- `split_internet_receiver`
  | recv
  | route
  | send (e : SenderEvent)
  | receiveLocal (d : Datagram)
  | sendLocal (e : SenderEvent)
  -- `send_request`
  | stunRequest (id : UInt64) (stunServer : SocketAddr)
  | stunRecv
  | stunTimeout

def socketStep (s : ConnState) : SocketEvent → Option (ConnState × ConnOut)
  | .receive d => some ({ s with fromInternet := (trySend s.fromInternet d).1 }, .silent)
  | .recv =>
    match s.router, s.fromInternet with
    | .waiting, (packet, source) :: rest =>
      some ({ s with fromInternet := rest, router := .routing packet source }, .silent)
    | _, _ => none
  | .route =>
    match s.router with
    | .routing packet source =>
      let d := (packet, normalizeIpv4MappedSource source)
      match internetPacketKind packet with
      | .error _ => none
      | .ok .probe => some ({ s with router := .waiting, fromProbes := (trySend s.fromProbes d).1 }, .silent)
      | .ok .stun => some ({ s with router := .waiting, fromStun := (trySend s.fromStun d).1 }, .silent)
      | .ok .data => some ({ s with router := .waiting, fromPeers := (trySend s.fromPeers d).1 }, .silent)
      | .ok .drop => some ({ s with router := .waiting }, .silent)
    | .waiting => none
  | .send e =>
    match senderStep s.toInternet s.internetSender e with
    | some (toInternet, .ok task) => some ({ s with toInternet := toInternet, internetSender := task }, .silent)
    | _ => none
  | .receiveLocal d => some ({ s with fromLocal := (trySend s.fromLocal d).1 }, .silent)
  | .sendLocal e =>
    match senderStep s.toLocal s.localSender e with
    | some (toLocal, .ok task) => some ({ s with toLocal := toLocal, localSender := task }, .silent)
    | _ => none
  | .stunRequest id stunServer =>
    match s.stun, StunCodec.encode id (.bind default) [] with
    | .idle, (.ok (), buf) =>
      let queued := (trySend s.toInternet (buf, stunServer)).2
      some ({ s with stun := if queued then .awaiting id stunServer else .idle }.offer .stun (buf, stunServer))
    | _, _ => none
  | .stunRecv =>
    match s.stun, s.fromStun with
    | .awaiting id stunServer, d :: rest =>
      some ({ s with
        fromStun := rest
        stun := if (awaitTurn id stunServer d).isSome then .idle else .awaiting id stunServer }, .silent)
    | _, _ => none
  | .stunTimeout =>
    match s.stun with
    | .awaiting _ _ => some ({ s with stun := .idle }, .silent)
    | .idle => none

/-! ## The connection -/

inductive ConnEvent
  | listener (e : ListenerEvent)
  | handler (e : HandlerEvent)
  | inbound (e : InboundEvent)
  | loopback (e : LoopbackEvent)
  | scheduler (e : SchedulerEvent)
  | socket (e : SocketEvent)

abbrev ConnEntry := Machine.Entry ConnState ConnEvent ConnOut

def connection {κ : Type} (P : Endpoint κ) : Machine ConnState ConnEvent ConnOut where
  step s
    | .listener e => listenerStep P s e
    | .handler e => handlerStep s e
    | .inbound e => inboundStep s e
    | .loopback e => loopbackStep s e
    | .scheduler e => schedulerStep s e
    | .socket e => socketStep s e

end P2pTunnler
