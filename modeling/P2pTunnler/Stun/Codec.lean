import P2pTunnler.Net
import P2pTunnler.Lib.BigEndian

/-!
# Decoding STUN responses

`StunCodec::decode_const` and `Attribute::read` of `stun/codec.rs`. Every
index, slice, copy and unchecked addition of the source is one that can panic
here, and `usize` is that of a 64-bit target.
-/

namespace P2pTunnler

open BigEndian (u16 u64 be16 be64)

def magicCookie : UInt32 := 0x2112A442

-- `(MAGIC_COOKIE as u64) << 32`
def cookieWord : UInt64 := magicCookie.toUInt64 <<< 32

inductive ChangeRequest
  | none
  | ip
  | port
  | ipAndPort
  deriving DecidableEq

inductive Attribute
  | mappedAddress (a : SocketAddr)
  | responseAddress (a : SocketAddr)
  | changedAddress (a : SocketAddr)
  | sourceAddress (a : SocketAddr)
  | reflectedFrom (a : SocketAddr)
  | changeRequest (r : ChangeRequest)
  | messageIntegrity (h : Octets 20)
  | username (u : Bytes)
  | unknownOptional
  deriving DecidableEq

structure BindResponse where
  mappedAddress : SocketAddr
  sourceAddress : Option SocketAddr
  changedAddress : Option SocketAddr
  reflectedFrom : Option SocketAddr
  deriving DecidableEq

inductive Response
  | bind (r : BindResponse)
  deriving DecidableEq

namespace StunType

def bindingResponse : UInt16 := 0x0101
def bindingError : UInt16 := 0x0111
def sharedSecretResponse : UInt16 := 0x0102
def sharedSecretError : UInt16 := 0x0112

def mappedAddress : UInt16 := 0x0001
def xorMappedAddress : UInt16 := 0x0020
def responseAddress : UInt16 := 0x0002
def changeRequest : UInt16 := 0x0003
def sourceAddress : UInt16 := 0x0004
def changedAddress : UInt16 := 0x0005
def messageIntegrity : UInt16 := 0x0008
def reflectedFrom : UInt16 := 0x000b

end StunType

/-! ## Bytes that may be missing -/

def byteAt (bytes : Bytes) (i : Nat) : Except Fault UInt8 :=
  match bytes[i]? with
  | some b => .ok b
  | none => .error .panic

def copyFromSlice (n : Nat) (bytes : Bytes) : Except Fault (Octets n) :=
  if h : bytes.length = n then .ok ⟨bytes, h⟩ else .error .panic

def checkedAdd (a b : Nat) : Option Nat := if a + b < 2 ^ 64 then some (a + b) else none

-- `a + b` on `usize`
def plainAdd (a b : Nat) : Except Fault Nat :=
  match checkedAdd a b with
  | some c => .ok c
  | none => .error .panic

def okOr {α : Type} (o : Option α) (e : Fault) : Except Fault α :=
  match o with
  | some a => .ok a
  | none => .error e

structure Cursor where
  buf : Bytes
  pos : Nat

namespace Cursor

def new (buf : Bytes) : Cursor := ⟨buf, 0⟩

def rest (c : Cursor) : Bytes := c.buf.drop c.pos

def readExact (c : Cursor) (n : Nat) : Except Fault (Bytes × Cursor) :=
  if n ≤ c.rest.length then .ok (c.rest.take n, { c with pos := c.pos + n })
  else .error (.error .unexpectedEof "failed to fill whole buffer")

def readU16 (c : Cursor) : Except Fault (UInt16 × Cursor) := do
  let (bytes, c) ← c.readExact 2
  return (u16 bytes, c)

def readU64 (c : Cursor) : Except Fault (UInt64 × Cursor) := do
  let (bytes, c) ← c.readExact 8
  return (u64 bytes, c)

theorem readU16_pos {c c' : Cursor} {x : UInt16} (h : c.readU16 = .ok (x, c')) : c' = { c with pos := c.pos + 2 } := by
  obtain ⟨⟨bytes, d⟩, hd, he⟩ := bind_eq_ok.mp h
  unfold readExact at hd
  split at hd
  · cases hd; cases he; rfl
  · cases hd

end Cursor

/-! ## Attributes -/

namespace Attribute

-- the loop that fills `address` from `index` on
def xorFrom (value xorKey : Bytes) (index : Nat) : Nat → Except Fault Bytes
  | 0 => .ok []
  | n + 1 => do
    let offset ← plainAdd index 4
    let v ← byteAt value offset
    let k ← byteAt xorKey index
    let address ← xorFrom value xorKey (index + 1) n
    return (v ^^^ k) :: address

def readXorAddress (value : Bytes) (xorKey : Octets 16) : Except Fault SocketAddr :=
  if value.length < 4 then .error (.error .unexpectedEof "STUN XOR-MAPPED-ADDRESS is too short")
  else do
    let high ← byteAt value 2
    let low ← byteAt value 3
    let keyHigh ← byteAt xorKey.toList 0
    let keyLow ← byteAt xorKey.toList 1
    let port := u16 [high, low] ^^^ u16 [keyHigh, keyLow]
    let family ← byteAt value 1
    if family = 0x01 ∧ value.length = 8 then
      let address ← copyFromSlice 4 (← xorFrom value xorKey.toList 0 4)
      return .new (.v4 ⟨address⟩) port
    else if family = 0x02 ∧ value.length = 20 then
      let address ← copyFromSlice 16 (← xorFrom value xorKey.toList 0 16)
      return .new (.v6 ⟨address⟩) port
    else if family = 0x01 ∨ family = 0x02 then
      .error (.error .invalidData "STUN XOR-MAPPED-ADDRESS has an invalid length")
    else .error (.error .invalidData "Invalid STUN address family")

def readAddress (value : Bytes) : Except Fault SocketAddr :=
  if value.length < 4 then .error (.error .unexpectedEof "STUN address attribute is too short")
  else do
    let high ← byteAt value 2
    let low ← byteAt value 3
    let port := u16 [high, low]
    let family ← byteAt value 1
    if family = 0x01 ∧ value.length = 8 then
      let a ← byteAt value 4
      let b ← byteAt value 5
      let c ← byteAt value 6
      let d ← byteAt value 7
      return .new (.v4 (.new a b c d)) port
    else if family = 0x02 ∧ value.length = 20 then
      let address ← copyFromSlice 16 (← slice value 4 value.length)
      return .new (.v6 ⟨address⟩) port
    else if family = 0x01 ∨ family = 0x02 then
      .error (.error .invalidData "STUN address attribute has an invalid length")
    else .error (.error .invalidData "Invalid address family")

def readChangeRequest (value : Bytes) : Except Fault ChangeRequest :=
  match value with
  | [first, second, third, fourth] =>
    let value := BigEndian.toNat [first, second, third, fourth]
    if value = 0x20 then .ok .ip
    else if value = 0x40 then .ok .port
    else if value = 0x60 then .ok .ipAndPort
    else .error (.error .invalidData "CHANGE_REQUEST not understood")
  | _ => .error (.error .invalidData "STUN change-request attribute has an invalid length")

-- the match at the end of `Attribute::read`
def ofValue (typ : UInt16) (value : Bytes) (xorKey : Octets 16) : Except Fault Attribute :=
  if typ = StunType.xorMappedAddress then return .mappedAddress (← readXorAddress value xorKey)
  else if typ = StunType.mappedAddress then return .mappedAddress (← readAddress value)
  else if typ = StunType.responseAddress then return .responseAddress (← readAddress value)
  else if typ = StunType.changedAddress then return .changedAddress (← readAddress value)
  else if typ = StunType.sourceAddress then return .sourceAddress (← readAddress value)
  else if typ = StunType.reflectedFrom then return .reflectedFrom (← readAddress value)
  else if typ = StunType.messageIntegrity then
    if value.length ≠ 20 then
      .error (.error .invalidData "STUN message-integrity attribute has an invalid length")
    else return .messageIntegrity (← copyFromSlice 20 value)
  else if typ = StunType.changeRequest then return .changeRequest (← readChangeRequest value)
  else if typ ≤ 0x7fff then .error (.error .invalidData "Unknown mandatory field")
  else .ok .unknownOptional

def read (c : Cursor) (xorKey : Octets 16) : Except Fault (Attribute × Cursor) := do
  let invalidLength := Fault.error .invalidData "Invalid STUN attribute length"
  let (typ, c) ← c.readU16
  let (len, c) ← c.readU16
  let length := len.toNat
  -- `& !3` clears the low two bits
  let paddedLength ← okOr ((checkedAdd length 3).map fun length => length / 4 * 4) invalidLength
  let start := c.pos
  let stop ← okOr (checkedAdd start length) invalidLength
  let paddedEnd ← okOr (checkedAdd start paddedLength) invalidLength
  if c.buf.length < paddedEnd then
    .error (.error .unexpectedEof "STUN attribute exceeds the message body")
  else
    let value ← slice c.buf start stop
    let attr ← ofValue typ value xorKey
    return (attr, { c with pos := paddedEnd })

/-- A successful read leaves the cursor inside the buffer, at least four bytes further. -/
theorem read_advances {c c' : Cursor} {xorKey : Octets 16} {attr : Attribute}
    (h : read c xorKey = .ok (attr, c')) : c'.buf = c.buf ∧ c.pos + 4 ≤ c'.pos ∧ c'.pos ≤ c.buf.length := by
  obtain ⟨⟨typ, c₁⟩, h₁, h⟩ := bind_eq_ok.mp h
  obtain ⟨⟨len, c₂⟩, h₂, h⟩ := bind_eq_ok.mp h
  obtain ⟨paddedLength, _, h⟩ := bind_eq_ok.mp h
  obtain ⟨stop, _, h⟩ := bind_eq_ok.mp h
  obtain ⟨paddedEnd, hpad, h⟩ := bind_eq_ok.mp h
  obtain rfl := Cursor.readU16_pos h₁
  obtain rfl := Cursor.readU16_pos h₂
  have hend : c.pos + 4 ≤ paddedEnd := by
    unfold checkedAdd at hpad
    split at hpad
    · cases hpad; exact Nat.le_add_right _ _
    · cases hpad
  simp only at h
  split at h
  · cases h
  · rename_i hle
    obtain ⟨value, _, h⟩ := bind_eq_ok.mp h
    obtain ⟨a, _, h⟩ := bind_eq_ok.mp h
    cases h
    exact ⟨rfl, hend, Nat.le_of_not_lt hle⟩

end Attribute

/-! ## Responses -/

namespace StunCodec

-- the four variables of `read_binding_response`
structure Addresses where
  mapped : Option SocketAddr
  source : Option SocketAddr
  changed : Option SocketAddr
  reflected : Option SocketAddr

def unknownMandatory : Fault := .error .invalidData "Unknown mandatory attribute!"

-- `get_or_insert` keeps an address that is already there
def Addresses.insert (acc : Addresses) : Attribute → Except Fault Addresses
  | .mappedAddress s => .ok { acc with mapped := acc.mapped.or (some s) }
  | .sourceAddress s => .ok { acc with source := acc.source.or (some s) }
  | .changedAddress s => .ok { acc with changed := acc.changed.or (some s) }
  | .reflectedFrom s => .ok { acc with reflected := acc.reflected.or (some s) }
  | .messageIntegrity _ => .ok acc
  | .unknownOptional => .ok acc
  | .responseAddress _ => .error unknownMandatory
  | .changeRequest _ => .error unknownMandatory
  | .username _ => .error unknownMandatory

def readAttributes (c : Cursor) (xorKey : Octets 16) (acc : Addresses) : Except Fault Addresses :=
  if c.pos < c.buf.length then
    match _hread : Attribute.read c xorKey with
    | .ok (attr, c') =>
      match acc.insert attr with
      | .ok acc' => readAttributes c' xorKey acc'
      | .error e => .error e
    | .error .panic => .error .panic
    | .error (.error _ _) => .error unknownMandatory
  else .ok acc
termination_by c.buf.length - c.pos
decreasing_by
  have hadv := Attribute.read_advances _hread
  rw [hadv.1]
  omega

def readBindingResponse (c : Cursor) (xorKey : Octets 16) : Except Fault BindResponse := do
  let acc ← readAttributes c xorKey ⟨none, none, none, none⟩
  let mapped ← okOr acc.mapped (.error .invalidData "MappedAddress missing!")
  return ⟨mapped, acc.source, acc.changed, acc.reflected⟩

structure Header where
  msgType : UInt16
  messageLength : Nat
  transId1 : UInt64
  transId2 : UInt64

-- the four reads at the start of `decode_const`
def readHeader (msg : Bytes) : Except Fault Header := do
  let c := Cursor.new msg
  let (msgType, c) ← c.readU16
  let (messageLength, c) ← c.readU16
  let (transId1, c) ← c.readU64
  let (transId2, _) ← c.readU64
  return ⟨msgType, messageLength.toNat, transId1, transId2⟩

-- the two halves of `xor_key`
def fillXorKey (transId1 transId2 : UInt64) : Except Fault (Octets 16) := do
  let first ← copyFromSlice 8 (be64 transId1)
  let second ← copyFromSlice 8 (be64 transId2)
  return ⟨first.toList ++ second.toList, by simp⟩

def decodeConst (expectedId : UInt64) (msg : Bytes) : Except Fault (Option Response) := do
  let ⟨msgType, messageLength, transId1, transId2⟩ ← readHeader msg
  if transId2 ≠ expectedId then .ok none
  else if transId1 ≠ cookieWord then .error (.error .invalidData "Invalid transaction ID!")
  else
    let messageEnd ← okOr (checkedAdd 20 messageLength) (.error .invalidData "Invalid STUN message length")
    if msg.length ≠ messageEnd then
      .error (.error .invalidData "STUN message length does not match the datagram")
    else
      let xorKey ← fillXorKey transId1 transId2
      let body := Cursor.new (← slice msg 20 msg.length)
      if msgType = StunType.bindingResponse then
        return some (.bind (← readBindingResponse body xorKey))
      else if msgType = StunType.bindingError then
        .error (.error .invalidData "BINDING_ERROR unimplemented")
      else if msgType = StunType.sharedSecretResponse then
        .error (.error .invalidData "SHARED_SECRET_RESPONSE unimplemented")
      else if msgType = StunType.sharedSecretError then
        .error (.error .invalidData "SHARED_SECRET_ERROR unimplemented")
      else .error (.error .invalidData "Unknown message type!")

end StunCodec

end P2pTunnler
