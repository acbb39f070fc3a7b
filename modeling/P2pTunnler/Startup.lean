import P2pTunnler.Keygen
import P2pTunnler.Mapping
import P2pTunnler.Lib.Watch

/-!
# Starting and supervising the service

`service.rs`, with `TaskMonitor` and `spawn` of `utils.rs`. The connections
are set up concurrently, each peer after the other; a task may end at any
time, also while others are still being set up. An error is its whole `anyhow`
chain, printed.
-/

namespace P2pTunnler

/-! ## Configuration -/

structure Peer where
  localPort : UInt16
  publicKey : String
  name : Option String
  deriving DecidableEq

structure P2PConnection where
  secretKey : String
  peers : List Peer

/-- Of the command, what start-up reads itself. -/
structure RunCommand where
  outPort : UInt16
  natMap : Bool
  connections : List P2PConnection

-- of `base64`: the result and, if there is none, the error text
structure KeyTexts where
  enc : Encodings
  decodeError : String → String

namespace KeyTexts

variable (K : KeyTexts)

def decodeBase64Key (value : String) : Except String (Octets 32) :=
  match K.enc.base64Decode value with
  | none => .error s!"Base64 decode error: {K.decodeError value}"
  | some bytes =>
    match Octets.tryFrom 32 bytes with
    | none => .error s!"Invalid length: expected 32, got {bytes.length}"
    | some key => .ok key

def secretKey (value : String) : Except String SecretKey := K.decodeBase64Key value

def publicKey (value : String) : Except String PublicKey := K.decodeBase64Key value

def parsePeerKey (peer : Peer) (peerIndex : Nat) : Except String PublicKey :=
  let name := peer.name.getD "unnamed"
  (K.publicKey peer.publicKey).mapError fun error =>
    s!"Failed to parse public key for peer {peerIndex} ({name}): {error}"

def validatePeers (peerIndex : Nat) : List Peer → Except String Unit
  | [] => .ok ()
  | peer :: peers =>
    match K.parsePeerKey peer peerIndex with
    | .error error => .error error
    | .ok _ => validatePeers (peerIndex + 1) peers

def validateConnections (connectionIndex : Nat) : List P2PConnection → Except String Unit
  | [] => .ok ()
  | connection :: connections =>
    match K.secretKey connection.secretKey with
    | .error error => .error s!"Failed to parse secret key for connection {connectionIndex}: {error}"
    | .ok _ =>
      match K.validatePeers 0 connection.peers with
      | .error error => .error error
      | .ok () => validateConnections (connectionIndex + 1) connections

end KeyTexts

def RunCommand.peerCount (command : RunCommand) : Nat := (command.connections.map fun c => c.peers.length).sum

-- the head of `run`, before anything is started
def RunCommand.validate (K : KeyTexts) (command : RunCommand) : Except String Unit :=
  match K.validateConnections 0 command.connections with
  | .error error => .error error
  | .ok () =>
    if command.peerCount = 0 then .error "No peers configured"
    else if command.outPort ≠ 0 ∧ 1 < command.peerCount then
      .error "--out-port supports one peer at a time; use the default ephemeral port or run separate processes"
    else .ok ()

/-! ## Supervision -/

structure TaskFailure where
  task : String
  error : String
  deriving DecidableEq

def reportFailure (failures : Watch (Option TaskFailure)) (task error : String) : Watch (Option TaskFailure) :=
  failures.sendIfModified fun failure => if failure.isSome then (failure, false) else (some ⟨task, error⟩, true)

/-- How a future ends, seen from `catch_unwind`. -/
inductive Outcome
  | ok
  | error (error : String)
  | panic
  deriving DecidableEq

-- what `spawn` reports
def Outcome.text : Outcome → String
  | ok => "task ended unexpectedly"
  | error e => e
  | panic => "task panicked"

/-! ## Setting up -/

/-- What `setup_connection` does between two points at which it can fail or be suspended. -/
inductive SetupStep
  | parseSecretKey (secretKey : String)
  | parsePeerKey (peer : Peer) (peerIndex : Nat)
  | openInternetSocket (requestedPort : UInt16)
  | requestNatMapping
  | bindLoopback (localPort : UInt16)
  | spawn (task : String)
  deriving DecidableEq

def splitUdpSocket : List SetupStep := [.spawn "UDP socket receiver", .spawn "UDP socket sender"]

def RunCommand.setupPeer (command : RunCommand) (peer : Peer) (peerIndex : Nat) : List SetupStep :=
  [.parsePeerKey peer peerIndex, .openInternetSocket command.outPort] ++ splitUdpSocket ++
    [.spawn "internet UDP receive routing"] ++ (if command.natMap then [.requestNatMapping] else []) ++
    [.spawn "STUN candidate gathering", .bindLoopback peer.localPort] ++ splitUdpSocket ++
    [.spawn "loopback UDP forwarding", .spawn "control UDP handler", .spawn "control probe scheduler",
      .spawn "inbound UDP forwarding", .spawn "DHT address publishing", .spawn "DHT address listening"]

def RunCommand.setupPeers (command : RunCommand) (peerIndex : Nat) : List Peer → List SetupStep
  | [] => []
  | peer :: peers => command.setupPeer peer peerIndex ++ command.setupPeers (peerIndex + 1) peers

def RunCommand.setupConnection (command : RunCommand) (connection : P2PConnection) : List SetupStep :=
  .parseSecretKey connection.secretKey :: command.setupPeers 0 connection.peers

/-- A `setup_connection` that has begun: what is left to do, or the error it returned. -/
structure Setup where
  steps : List SetupStep
  failed : Option String
  deriving DecidableEq

def RunCommand.setups (command : RunCommand) : List Setup :=
  command.connections.map fun connection => ⟨command.setupConnection connection, none⟩

def Setup.done (setup : Setup) : Bool := setup.steps.isEmpty || setup.failed.isSome

inductive ServicePhase
  | starting
  | startingDht
  | settingUp (setups : List Setup)
  | supervising
  | returned (error : String)
  deriving DecidableEq

structure ServiceState where
  phase : ServicePhase
  failures : Watch (Option TaskFailure)
  seen : Nat
  -- every task that was spawned, and whether it still runs
  tasks : List (String × Bool)

def ServiceState.new : ServiceState := ⟨.starting, .channel none, 0, []⟩

inductive ServiceEvent
  | validate
  | startDht (answer : Except String Unit)
  -- the next step of one `setup_connection`, and what the system answers if the step asks it
  | setup (n : Nat) (answer : Except String Unit)
  | collect
  | finish (n : Nat) (outcome : Outcome)
  | poll

inductive ServiceOut
  | silent
  -- a socket, a mapping, the DHT or a task
  | acted

abbrev ServiceEntry := Machine.Entry ServiceState ServiceEvent ServiceOut

namespace ServiceState

variable (s : ServiceState)

-- the task takes a clone of the monitor with it
def spawn (task : String) : ServiceState :=
  { s with tasks := s.tasks ++ [(task, true)], failures := s.failures.clone }

def finish (n : Nat) (task : String) (outcome : Outcome) : ServiceState :=
  { s with
    tasks := s.tasks.set n (task, false)
    failures := (reportFailure s.failures task outcome.text).drop }

def setSetup (setups : List Setup) (n : Nat) (setup : Setup) : ServiceState :=
  { s with phase := .settingUp (setups.set n setup) }

def setupStep (K : KeyTexts) (setups : List Setup) (n : Nat) (answer : Except String Unit) (rest : List SetupStep) :
    SetupStep → ServiceState × ServiceOut
  | .parseSecretKey secretKey =>
    match K.secretKey secretKey with
    | .error error => (s.setSetup setups n ⟨rest, some s!"Failed to parse own secret key: {error}"⟩, .silent)
    | .ok _ => (s.setSetup setups n ⟨rest, none⟩, .silent)
  | .parsePeerKey peer peerIndex =>
    match K.parsePeerKey peer peerIndex with
    | .error error => (s.setSetup setups n ⟨rest, some error⟩, .silent)
    | .ok _ => (s.setSetup setups n ⟨rest, none⟩, .silent)
  | .openInternetSocket _ | .bindLoopback _ =>
    match answer with
    | .error error => (s.setSetup setups n ⟨rest, some error⟩, .acted)
    | .ok () => (s.setSetup setups n ⟨rest, none⟩, .acted)
  -- without a mapping the connection does with STUN
  | .requestNatMapping => (s.setSetup setups n ⟨rest, none⟩, .acted)
  | .spawn task => ((s.spawn task).setSetup setups n ⟨rest, none⟩, .acted)

end ServiceState

def unknownFailure : TaskFailure := ⟨"unknown task", "failure notification did not include a reason"⟩

def TaskFailure.text (failure : TaskFailure) : String :=
  s!"Background task stopped: {failure.task}: {failure.error}"

/-- `service::run`. -/
def service (K : KeyTexts) (command : RunCommand) : Machine ServiceState ServiceEvent ServiceOut where
  step s
    | .validate =>
      match s.phase with
      | .starting =>
        match command.validate K with
        | .error error => some ({ s with phase := .returned error }, .silent)
        | .ok () => some ({ s with phase := .startingDht }, .silent)
      | _ => none
    | .startDht answer =>
      match s.phase with
      | .startingDht =>
        match context "Initializing DHT failed" answer with
        | .error error => some ({ s with phase := .returned error }, .acted)
        | .ok () => some ({ s.spawn "OpenDHT tick loop" with phase := .settingUp command.setups }, .acted)
      | _ => none
    | .setup n answer =>
      match s.phase with
      | .settingUp setups =>
        match setups[n]? with
        | some ⟨step :: rest, none⟩ => some (s.setupStep K setups n answer rest step)
        | _ => none
      | _ => none
    | .collect =>
      match s.phase with
      | .settingUp setups =>
        if setups.all Setup.done then
          match setups.findSome? Setup.failed with
          | some error => some ({ s with phase := .returned error }, .silent)
          | none => some ({ s with phase := .supervising }, .silent)
        else none
      | _ => none
    | .finish n outcome =>
      match s.tasks[n]? with
      | some (task, true) => some (s.finish n task outcome, .silent)
      | _ => none
    | .poll =>
      match s.phase with
      | .supervising =>
        match s.failures.poll s.seen with
        | .pending => none
        | .closed => some ({ s with phase := .returned "Task supervision stopped unexpectedly: channel closed" }, .silent)
        | .changed seen =>
          let failure := s.failures.value.getD unknownFailure
          some ({ s with phase := .returned failure.text, seen := seen }, .silent)
      | _ => none

end P2pTunnler
