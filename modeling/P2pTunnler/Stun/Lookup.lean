import P2pTunnler.Transport
import P2pTunnler.Stun.Encode

/-!
# STUN lookups

`send_request` of `stun/mod.rs`. The datagrams that arrive before the
deadline are a list; the wait ends early at the first one that decodes or
fails to.
-/

namespace P2pTunnler

open StunCodec (decodeConst)

inductive LookupError
  | fault (f : Fault)
  | message (text : String)
  deriving DecidableEq

def isExpectedStunSource (source stunServer : SocketAddr) : Bool := normalizeIpv4MappedSource source = stunServer

def timedOut : LookupError := .message "Failed to get stun response"

-- what the loop at the end of `send_request` makes of a datagram; `none` goes round again
def awaitTurn (id : UInt64) (stunServer : SocketAddr) (d : Datagram) : Option (Except LookupError Response) :=
  if !isExpectedStunSource d.2 stunServer then none
  else
    match decodeConst id d.1 with
    | .error e => some (.error (.fault e))
    | .ok (some response) => some (.ok response)
    | .ok none => none

def awaitResponse (id : UInt64) (stunServer : SocketAddr) : List Datagram → Except LookupError Response
  | [] => .error timedOut
  | d :: received =>
    match awaitTurn id stunServer d with
    | some result => result
    | none => awaitResponse id stunServer received

/-- `queue` is the send queue, and comes back with the request in it. -/
def sendRequest (id : UInt64) (queue : List Datagram) (stunServer : SocketAddr) (req : Request)
    (received : List Datagram) : Except LookupError Response × List Datagram :=
  match StunCodec.encode id req [] with
  | (.error e, _) => (.error (.fault e), queue)
  | (.ok (), buf) =>
    let (queue, queued) := trySend queue (buf, stunServer)
    if !queued then (.error (.message "STUN request dropped because the UDP send queue is full"), queue)
    else (awaitResponse id stunServer received, queue)

def Stun.lookupPublicAddress (id : UInt64) (queue : List Datagram) (stunServer : SocketAddr)
    (received : List Datagram) : Except LookupError SocketAddr × List Datagram :=
  match sendRequest id queue stunServer (.bind default) received with
  | (.error e, queue) => (.error e, queue)
  | (.ok (.bind response), queue) => (.ok response.mappedAddress, queue)

end P2pTunnler
