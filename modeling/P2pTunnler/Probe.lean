import P2pTunnler.Net
import P2pTunnler.Lib.FinTable
import P2pTunnler.Lib.Machine

/-!
# Control-plane path probes

`ProbeController` of `probe.rs`. The mutex makes each operation one step on
`State`; the clock reading, the jitter drawn and the order in which a hash
table is walked are inputs of the step.
-/

namespace P2pTunnler

open Finset (insertUpTo Enumerates)

abbrev Token := Octets 16

def magic : Bytes := [0x50, 0x32, 0x50, 0x43]

def frameLen : Nat := 20
def maxProbePaths : Nat := 64
def maxReplySources : Nat := 256
def replyInterval : Nat := secs 1
def ackTimeout : Nat := secs 3

def Token.fill (b : UInt8) : Token := ⟨List.replicate 16 b, by simp⟩

/-! ## Frames -/

def classify (packet : Bytes) : Bool := magic.isPrefixOf packet

def parseFrame (packet : Bytes) : Option Token :=
  if packet.length ≠ frameLen || !magic.isPrefixOf packet then none
  else Octets.tryFrom 16 (packet.drop 4)

def frame (token : Token) : Bytes := magic ++ token.toList

/-! ## State -/

structure Path where
  nextProbe : Nat
  outstanding : Option Nat
  verified : Bool
  fastStage : UInt8
  lastControlResponse : Option Nat
  deriving DecidableEq

structure ProbeState where
  localToken : Token
  remoteToken : Option Token
  paths : FinTable SocketAddr Path
  replySources : FinTable SocketAddr Nat

inductive PacketAction
  | echoAndAdmit
  | acknowledged
  | drop
  deriving DecidableEq

def ProbeState.new (localToken : Token) : ProbeState := ⟨localToken, none, .empty, .empty⟩

def Path.new (now : Nat) : Path := ⟨now, none, false, 0, none⟩

namespace ProbeState

def selected (candidates : List SocketAddr) : Finset SocketAddr := insertUpTo maxProbePaths ∅ candidates

def updateRemote (state : ProbeState) (token : Option Token) (candidates : List SocketAddr) (now : Nat) :
    ProbeState :=
  let state := if state.remoteToken ≠ token then { state with paths := .empty, remoteToken := token } else state
  match state.remoteToken with
  | none => { state with paths := .empty }
  | some _ =>
    let selected := selected candidates
    let paths := state.paths.retain fun address _ => address ∈ selected
    { state with paths := paths.orInsertAll selected (.new now) }

def recentReplies (state : ProbeState) (now : Nat) : FinTable SocketAddr Nat :=
  state.replySources.retain fun _ last => durationSince now last < replyInterval

def packetAction (state : ProbeState) (packet : Bytes) (source : SocketAddr) (now : Nat)
    (jitter : Nat → Nat) : ProbeState × PacketAction :=
  match parseFrame packet with
  | none => (state, .drop)
  | some token =>
    let state := { state with replySources := state.recentReplies now }
    if token = state.localToken then
      if maxReplySources ≤ state.replySources.size ∧ source ∉ state.replySources.keys then (state, .drop)
      else
        let previous := state.replySources.lookup source
        let state := { state with replySources := state.replySources.insert source now }
        if previous.any fun last => durationSince now last < replyInterval then (state, .drop)
        else (state, .echoAndAdmit)
    else if state.remoteToken ≠ some token then (state, .drop)
    else
      match state.paths.lookup source with
      | none => (state, .drop)
      | some path =>
        if path.outstanding.isNone then (state, .drop)
        else
          let path := { path with
            outstanding := none
            verified := true
            fastStage := 0
            nextProbe := now + jitter (secs 15)
            lastControlResponse := some now }
          ({ state with paths := state.paths.insert source path }, .acknowledged)

end ProbeState

def Path.timedOut (path : Path) (now : Nat) : Bool :=
  path.verified && path.outstanding.any fun sent => ackTimeout ≤ durationSince now sent

def Path.demote (path : Path) (now : Nat) : Path :=
  { path with verified := false, fastStage := 0, outstanding := none, nextProbe := now }

def saturatingSucc (n : UInt8) : UInt8 := if n = 255 then 255 else n + 1

/-- The body of the `due_frames` loop: the path after it, and whether a frame is due. -/
def Path.poll (path : Path) (now : Nat) (jitter : Nat → Nat) : Path × Bool :=
  let path := if path.timedOut now then path.demote now else path
  if now < path.nextProbe then (path, false)
  else
    let path := { path with outstanding := some now }
    if path.verified then ({ path with nextProbe := now + jitter (secs 15) }, true)
    else
      let delay :=
        if path.fastStage = 0 then secs 1
        else if path.fastStage = 1 then secs 2
        else jitter (secs 5)
      ({ path with fastStage := saturatingSucc path.fastStage, nextProbe := now + delay }, true)

namespace ProbeState

/-- `order` is the order in which the path table is walked. -/
def dueFrames (state : ProbeState) (now : Nat) (order : List SocketAddr)
    (jitter : SocketAddr → Nat → Nat) : ProbeState × List (Bytes × SocketAddr) :=
  match state.remoteToken with
  | none => (state, [])
  | some remoteToken =>
    ({ state with paths := state.paths.mapVal fun address path => (path.poll now (jitter address)).1 },
      order.filterMap fun address =>
        if (state.paths.lookup address).any fun path => (path.poll now (jitter address)).2
        then some (frame remoteToken, address) else none)

end ProbeState

/-! ## The controller as a machine -/

inductive ProbeOp
  | updateRemote (token : Option Token) (candidates : List SocketAddr) (now : Nat)
  | packetAction (packet : Bytes) (source : SocketAddr) (now : Nat) (jitter : Nat → Nat)
  | dueFrames (now : Nat) (order : List SocketAddr) (jitter : SocketAddr → Nat → Nat)

inductive ProbeOut
  | updated
  | action (a : PacketAction)
  | frames (fs : List (Bytes × SocketAddr))
  deriving DecidableEq

def probeController : Machine ProbeState ProbeOp ProbeOut where
  step state
    | .updateRemote token candidates now => some (state.updateRemote token candidates now, .updated)
    | .packetAction packet source now jitter =>
      let (state', a) := state.packetAction packet source now jitter
      some (state', .action a)
    | .dueFrames now order jitter =>
      if Enumerates order state.paths.keys then
        let (state', fs) := state.dueFrames now order jitter
        some (state', .frames fs)
      else none

end P2pTunnler
