import P2pTunnler.Routes
import P2pTunnler.Lib.Machine

/-!
# The router mapping worker

`mapping_worker` of `nat.rs` and everything it calls. What the system, the
gateway and the owner of the mapping do is an input; the calls themselves take
no time, and the timer of `recv_timeout` is exact. An error is its whole
`anyhow` chain, printed.
-/

namespace P2pTunnler

def mappingLifetimeSeconds : UInt32 := 7200
def mappingRenewalMinimum : Nat := secs 60

inductive Method
  | pcp
  | natPmp
  | upnpIgd
  deriving DecidableEq

/-! ## What the outside answers -/

inductive PortMappingType
  | pcp (externalIp : IpAddr)
  | natPmp
  deriving DecidableEq

-- of `crab_nat`
structure PortMapping where
  mappingType : PortMappingType
  externalPort : UInt16
  lifetime : UInt32
  deriving DecidableEq

structure PortMappingOptions where
  externalPort : Option UInt16
  lifetimeSeconds : Option UInt32

/-- The system calls of one `default_ipv4_gateway_and_client`. -/
structure Host where
  routeTable : Except String (List Char)
  bind : Except String Unit
  connect : SocketAddr → Except String Unit
  localAddr : Except String IpAddr

/-- What the worker meets before it has a mapping to hand out. -/
structure RouterAnswers where
  host : Host
  runtime : Except String Unit
  newMapping : Ipv4Addr → Ipv4Addr → UInt16 → PortMappingOptions → Except String PortMapping
  natPmpMapping : Ipv4Addr → UInt16 → PortMappingOptions → Except String PortMapping
  externalAddress : Ipv4Addr → Except String Ipv4Addr
  upnpHost : Host
  searchGateway : Except String Unit
  getAnyAddress : SocketAddr → UInt32 → String → Except String SocketAddr

-- `Context::context`, as `{:#}` prints it
def context {α : Type} (text : String) : Except String α → Except String α
  | .ok a => .ok a
  | .error e => .error (text ++ ": " ++ e)

-- `crab_nat::GATEWAY_PORT`
def gatewayPort : UInt16 := 5351

def defaultIpv4GatewayAndClient (host : Host) : Except String (Ipv4Addr × Ipv4Addr) := do
  let routeTable ←
    context "Failed to read /proc/net/route while discovering the IPv4 gateway" host.routeTable
  match parseDefaultIpv4Gateway routeTable with
  | none => .error "No default IPv4 gateway was found in /proc/net/route"
  | some gateway =>
    host.bind
    host.connect (.new (.v4 gateway) gatewayPort)
    match ← host.localAddr with
    | .v4 client => .ok (gateway, client)
    | .v6 _ => .error "The default route did not select an IPv4 address"

/-! ## Creating a mapping -/

/-- A mapping on the router: a worker asks for at most one of each method. -/
structure MappingId where
  method : Method
  externalPort : UInt16
  deriving DecidableEq

/-- What becomes of mappings on the router, and what the worker sends. -/
inductive Effect
  | granted (id : MappingId)
  | removalRequested (id : MappingId)
  | renewalFailed (id : MappingId)
  | sent (result : Except String (SocketAddr × Method))

def PortMapping.method (mapping : PortMapping) : Method :=
  match mapping.mappingType with
  | .pcp _ => .pcp
  | .natPmp => .natPmp

def PortMapping.id (mapping : PortMapping) : MappingId := ⟨mapping.method, mapping.externalPort⟩

/-- A PCP error does not prove that NAT-PMP is unavailable. -/
def requestMapping (a : RouterAnswers) (gateway client : Ipv4Addr) (port : UInt16) : Except String PortMapping :=
  let options : PortMappingOptions := ⟨some port, some mappingLifetimeSeconds⟩
  match a.newMapping gateway client port options with
  | .ok mapping => .ok mapping
  | .error _ => a.natPmpMapping gateway port options

def externalIp (a : RouterAnswers) (gateway : Ipv4Addr) (mapping : PortMapping) : Except String IpAddr :=
  match mapping.mappingType with
  | .pcp externalIp => .ok externalIp
  | .natPmp => (a.externalAddress gateway).map .v4

def tryPcpNatpmp (a : RouterAnswers) (port : UInt16) :
    Except String (SocketAddr × Method × PortMapping) × List Effect :=
  match defaultIpv4GatewayAndClient a.host with
  | .error e => (.error e, [])
  | .ok (gateway, client) =>
    match context "Failed to initialize the PCP/NAT-PMP runtime" a.runtime with
    | .error e => (.error e, [])
    | .ok () =>
      match requestMapping a gateway client port with
      | .error e => (.error e, [])
      | .ok mapping =>
        match externalIp a gateway mapping with
        -- `?` drops the mapping, not its lease
        | .error e => (.error e, [.granted mapping.id])
        | .ok ip => (.ok (.new ip mapping.externalPort, mapping.method, mapping), [.granted mapping.id])

def tryUpnpIgd (a : RouterAnswers) (port : UInt16) : Except String (SocketAddr × SocketAddr) × List Effect :=
  match defaultIpv4GatewayAndClient a.upnpHost with
  | .error e => (.error e, [])
  | .ok (_, client) =>
    let localAddr := SocketAddr.new (.v4 client) port
    match context "UPnP IGD discovery failed" a.searchGateway with
    | .error e => (.error e, [])
    | .ok () =>
      match context "UPnP IGD port mapping failed"
          (a.getAnyAddress localAddr mappingLifetimeSeconds "p2p-tunnler") with
      | .error e => (.error e, [])
      | .ok externalAddr => (.ok (externalAddr, localAddr), [.granted ⟨.upnpIgd, externalAddr.port⟩])

/-! ## The worker -/

/-- The mapping a worker holds, with what its renewal needs. -/
inductive Lease
  | pcpNatPmp (mapping : PortMapping)
  | upnpIgd (externalPort : UInt16) (localAddr : SocketAddr)

namespace Lease

def id : Lease → MappingId
  | pcpNatPmp mapping => mapping.id
  | upnpIgd externalPort _ => ⟨.upnpIgd, externalPort⟩

def renewalDelay : Lease → Nat
  | pcpNatPmp mapping => max (secs (mapping.lifetime.toNat / 2)) mappingRenewalMinimum
  | upnpIgd _ _ => secs (mappingLifetimeSeconds.toNat / 2)

-- only PCP and NAT-PMP renewals come with a lifetime of the router's choice
def renewed (lifetime : UInt32) : Lease → Lease
  | pcpNatPmp mapping => pcpNatPmp { mapping with lifetime := lifetime }
  | upnpIgd externalPort localAddr => upnpIgd externalPort localAddr

end Lease

inductive WorkerPhase
  | starting
  | sending (externalAddr : SocketAddr) (method : Method) (lease : Lease)
  | failing (error : String)
  | waiting (lease : Lease) (grantedAt deadline : Nat)
  | returned

structure WorkerState where
  phase : WorkerPhase
  now : Nat
  -- what `Mapping::is_active` reads
  active : Bool

def WorkerState.new : WorkerState := ⟨.starting, 0, true⟩

inductive WorkerEvent
  | start (a : RouterAnswers)
  -- `sender.send`, and whether there still is a receiver
  | send (delivered : Bool)
  | elapse (d : Nat)
  -- the mapping was dropped
  | shutdown
  -- the timer, and what the renewal it starts answers
  | timeout (renewal : Except String UInt32)

abbrev WorkerEntry := Machine.Entry WorkerState WorkerEvent (List Effect)

/-- The two attempts and the phase they lead to. -/
def acquire (a : RouterAnswers) (port : UInt16) : WorkerPhase × List Effect :=
  match tryPcpNatpmp a port with
  | (.ok (externalAddr, method, mapping), effects) => (.sending externalAddr method (.pcpNatPmp mapping), effects)
  | (.error pcpError, effects) =>
    match tryUpnpIgd a port with
    | (.ok (externalAddr, localAddr), effects') =>
      (.sending externalAddr .upnpIgd (.upnpIgd externalAddr.port localAddr), effects ++ effects')
    | (.error upnpError, effects') =>
      (.failing ("No PCP/NAT-PMP or UPnP IGD mapping was available; PCP/NAT-PMP: " ++ pcpError ++ "; UPnP IGD: " ++
        upnpError), effects ++ effects')

def mappingWorker (port : UInt16) : Machine WorkerState WorkerEvent (List Effect) where
  step s
    | .start a =>
      match s.phase with
      | .starting => some ({ s with phase := (acquire a port).1 }, (acquire a port).2)
      | _ => none
    | .send delivered =>
      match s.phase with
      | .sending externalAddr method lease =>
        if delivered then
          some ({ s with phase := .waiting lease s.now (s.now + lease.renewalDelay) },
            [.sent (.ok (externalAddr, method))])
        else some ({ s with phase := .returned }, [.removalRequested lease.id])
      | .failing error => some ({ s with phase := .returned }, if delivered then [.sent (.error error)] else [])
      | _ => none
    | .elapse d =>
      match s.phase with
      | .waiting _ _ deadline => if s.now + d ≤ deadline then some ({ s with now := s.now + d }, []) else none
      | _ => none
    | .shutdown =>
      match s.phase with
      | .waiting lease _ _ => some ({ s with phase := .returned }, [.removalRequested lease.id])
      | _ => none
    | .timeout renewal =>
      match s.phase with
      | .waiting lease _ deadline =>
        if s.now = deadline then
          match renewal with
          | .error _ => some ({ s with phase := .returned, active := false }, [.renewalFailed lease.id])
          | .ok lifetime =>
            let lease := lease.renewed lifetime
            some ({ s with phase := .waiting lease s.now (s.now + lease.renewalDelay) }, [])
        else none
      | _ => none

end P2pTunnler
