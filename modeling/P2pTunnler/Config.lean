import P2pTunnler.Startup
import P2pTunnler.Dht

/-!
# The configuration of a host

`config.rs`: a key of a tunnel file is given in the file itself or, after
`file:`, by the path of another file. What the YAML reader makes of a tunnel
file is an input.
-/

namespace P2pTunnler

open Files (FileSystem)

-- `str::from_utf8`
def textOf (contents : Bytes) : Option String := String.fromUTF8? ⟨contents.toArray⟩

-- `str::strip_prefix`
def stripPrefix (start text : String) : Option String := (start.toList.isPrefixOf? text.toList).map String.ofList

/-- The files of a host, which of them may be read, and what the system says of a path that cannot be. -/
structure Disk (π : Type) where
  fs : FileSystem π
  readable : String → Bool
  errorText : String → String

namespace Disk

variable {π : Type} (D : Disk π)

-- `fs::read_to_string`
def readToString (path : String) : Except String String :=
  if D.readable path then
    match (Files.read D.fs path).bind textOf with
    | some text => .ok text
    | none => .error (D.errorText path)
  else .error (D.errorText path)

def transformFileToString (data : String) : Except String String :=
  match stripPrefix "file:" data with
  | some path => context s!"Failed to open and read key file, at path {path}" (D.readToString path)
  | none => .ok data

def transformPeers : List Peer → Except String (List Peer)
  | [] => .ok []
  | peer :: peers =>
    match D.transformFileToString peer.publicKey with
    | .error error => .error error
    | .ok publicKey => (transformPeers peers).map ({ peer with publicKey := publicKey } :: ·)

/-- One round of the loop of `CliConfig::new`. -/
def loadConnection : Except String P2PConnection → Except String P2PConnection
  | .error error => .error error
  | .ok connection =>
    match D.transformFileToString connection.secretKey with
    | .error error => .error error
    | .ok secretKey => (D.transformPeers connection.peers).map (⟨secretKey, ·⟩)

def loadConnections : List (Except String P2PConnection) → Except String (List P2PConnection)
  | [] => .ok []
  | tunnel :: tunnels =>
    match D.loadConnection tunnel with
    | .error error => .error error
    | .ok connection => (loadConnections tunnels).map (connection :: ·)

end Disk

/-- A host and the arguments of its `run` command. -/
structure Installation (π : Type) where
  disk : Disk π
  tunnels : List (Except String P2PConnection)
  outPort : UInt16
  natMap : Bool
  flags : ConnectionFlags

-- `CliConfig::new`
def Installation.load {π : Type} (host : Installation π) : Except String RunCommand :=
  (host.disk.loadConnections host.tunnels).map (⟨host.outPort, host.natMap, ·⟩)

/-! ## The ends of the tunnels -/

namespace KeyTexts

variable (K : KeyTexts) (flags : ConnectionFlags)

def setupPeers (privateKey : SecretKey) (peerIndex : Nat) : List Peer → Except String (List Party)
  | [] => .ok []
  | peer :: peers =>
    match K.parsePeerKey peer peerIndex with
    | .error error => .error error
    | .ok remoteKey => (setupPeers privateKey (peerIndex + 1) peers).map (⟨privateKey, remoteKey, flags⟩ :: ·)

/-- The keys with which `setup_connection` starts the publisher and the listener of each peer. -/
def setupConnection (connection : P2PConnection) : Except String (List Party) :=
  match K.secretKey connection.secretKey with
  | .error error => .error s!"Failed to parse own secret key: {error}"
  | .ok privateKey => K.setupPeers flags privateKey 0 connection.peers

end KeyTexts

end P2pTunnler
