import P2pTunnler.Stun.Codec

/-!
# Encoding STUN requests

`StunCodec::encode`, `BindRequest::encode` and `Attribute::encode` of
`stun/codec.rs`. A buffer that the source writes to is passed through, so a
failure shows what it leaves in the buffer.
-/

namespace P2pTunnler

open BigEndian (be16 be32 be64)

structure BindRequest where
  responseAddress : Option SocketAddr
  changeRequest : ChangeRequest
  username : Option Bytes
  deriving DecidableEq

instance : Inhabited BindRequest := ⟨⟨none, .none, none⟩⟩

inductive Request
  | bind (r : BindRequest)
  | sharedSecret

namespace StunType

def bindingRequest : UInt16 := 0x0001
def username : UInt16 := 0x0006

end StunType

/-! ## Attributes -/

namespace Attribute

def encodeChangeRequest : ChangeRequest → Bytes
  | .none => []
  | .ip => be32 0x20
  | .port => be32 0x40
  | .ipAndPort => be32 0x60

def encodeAddress : SocketAddr → Except Fault Bytes
  | .v4 ip port => .ok ([0x00, 0x01] ++ be16 port ++ ip.octets.toList)
  | .v6 _ _ _ _ => .error (.error .invalidInput "STUN does not support IPv6")

-- a user name is padded before its length is taken
def encodeUsername (u : Bytes) : Bytes := u ++ List.replicate ((4 - u.length % 4) % 4) 0

def opaqueValue : Attribute → Except Fault (UInt16 × Bytes)
  | mappedAddress a => do return (StunType.mappedAddress, ← encodeAddress a)
  | responseAddress a => do return (StunType.responseAddress, ← encodeAddress a)
  | changedAddress a => do return (StunType.changedAddress, ← encodeAddress a)
  | sourceAddress a => do return (StunType.sourceAddress, ← encodeAddress a)
  | reflectedFrom a => do return (StunType.reflectedFrom, ← encodeAddress a)
  | messageIntegrity h => .ok (StunType.messageIntegrity, h.toList)
  | username u => .ok (StunType.username, encodeUsername u)
  | changeRequest r => .ok (StunType.changeRequest, encodeChangeRequest r)
  | unknownOptional => .error (.error .invalidInput "cannot encode an unknown STUN attribute")

def encode (a : Attribute) (buf : Bytes) : Except Fault Unit × Bytes :=
  match a.opaqueValue with
  | .error e => (.error e, buf)
  | .ok (typ, value) =>
    if 65536 ≤ value.length then (.error (.error .invalidInput "STUN attribute is too large"), buf)
    else (.ok (), buf ++ be16 typ ++ be16 (UInt16.ofNat value.length) ++ value)

-- `?` gives up a local buffer together with the error
def written : Except Fault Unit × Bytes → Except Fault Bytes
  | (.ok (), buf) => .ok buf
  | (.error e, _) => .error e

end Attribute

/-! ## Requests -/

def BindRequest.encode (r : BindRequest) : Except Fault Bytes := do
  let buf ← (match r.responseAddress with
    | some a => Attribute.written (Attribute.encode (.responseAddress a) [])
    | none => .ok [])
  let buf ← (if r.changeRequest ≠ .none then
      Attribute.written (Attribute.encode (.changeRequest r.changeRequest) buf)
    else .ok buf)
  match r.username with
  | some u => Attribute.written (Attribute.encode (.username u) buf)
  | none => .ok buf

namespace StunCodec

def encodeMessage : Request → Except Fault (UInt16 × Bytes)
  | .bind r => do
    let m ← r.encode
    if 65536 ≤ m.length then .error (.error .invalidInput "STUN request is too large")
    else return (StunType.bindingRequest, m)
  | .sharedSecret => .error (.error .invalidInput "shared-secret STUN requests are not supported")

def encode (transId : UInt64) (req : Request) (buf : Bytes) : Except Fault Unit × Bytes :=
  match encodeMessage req with
  | .error e => (.error e, buf)
  | .ok (typ, m) =>
    (.ok (), buf ++ be16 typ ++ be16 (UInt16.ofNat m.length) ++ be64 cookieWord ++ be64 transId ++ m)

theorem encode_default (transId : UInt64) (buf : Bytes) : encode transId (.bind default) buf =
    (.ok (), buf ++ be16 StunType.bindingRequest ++ be16 0 ++ be64 cookieWord ++ be64 transId) := by
  have h : encodeMessage (.bind default) = .ok (StunType.bindingRequest, []) := rfl
  simp [encode, h]

end StunCodec

end P2pTunnler
