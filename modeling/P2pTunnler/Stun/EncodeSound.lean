import P2pTunnler.Stun.CodecSound
import P2pTunnler.Stun.Encode

/-!
# What the encoder writes

A request is the header and its attributes, each with the length of its
value, and is refused as a whole when it does not fit or names an IPv6
address. An attribute that is written is read back.
-/

namespace P2pTunnler

open BigEndian (be16 be32 be64)

/-! ## One attribute -/

-- type, length and value
def tlvBytes (t : UInt16 × Bytes) : Bytes := be16 t.1 ++ be16 (UInt16.ofNat t.2.length) ++ t.2

namespace Attribute

/-- The address of an attribute that is nothing else. -/
def address? : Attribute → Option SocketAddr
  | mappedAddress a => some a
  | responseAddress a => some a
  | changedAddress a => some a
  | sourceAddress a => some a
  | reflectedFrom a => some a
  | _ => none

theorem encode_of_ok {a : Attribute} {typ : UInt16} {value : Bytes} (h : a.opaqueValue = .ok (typ, value))
    (hlen : value.length < 65536) (buf : Bytes) : a.encode buf = (.ok (), buf ++ tlvBytes (typ, value)) := by
  unfold encode tlvBytes
  rw [h]
  simp only [if_neg (Nat.not_le.mpr hlen), List.append_assoc]

theorem encode_of_error {a : Attribute} {e : Fault} (h : a.opaqueValue = .error e) (buf : Bytes) :
    a.encode buf = (.error e, buf) := by
  unfold encode
  rw [h]

theorem encode_of_large {a : Attribute} {typ : UInt16} {value : Bytes} (h : a.opaqueValue = .ok (typ, value))
    (hlen : 65536 ≤ value.length) (buf : Bytes) :
    a.encode buf = (.error (.error .invalidInput "STUN attribute is too large"), buf) := by
  unfold encode
  rw [h]
  simp only [if_pos hlen]

theorem encodeAddress_v4 (ip : Ipv4Addr) (port : UInt16) :
    encodeAddress (.v4 ip port) = .ok (addressValue 0 (.v4 ip) port) := rfl

theorem opaqueValue_ipv6 {a : Attribute} {s : SocketAddr} (ha : a.address? = some s) (hs : s.isIpv4 = false) :
    a.opaqueValue = .error (.error .invalidInput "STUN does not support IPv6") := by
  cases s with
  | v4 ip port => cases hs
  | v6 ip port f sc => cases a <;> cases ha <;> rfl

/-! ## Reading back -/

/-- The attributes that the encoder writes and the decoder knows: IPv4 addresses, requests to change and hashes. -/
def exchanged : Attribute → Bool
  | mappedAddress a => a.isIpv4
  | responseAddress a => a.isIpv4
  | changedAddress a => a.isIpv4
  | sourceAddress a => a.isIpv4
  | reflectedFrom a => a.isIpv4
  | changeRequest r => r ≠ .none
  | messageIntegrity _ => true
  | username _ => false
  | unknownOptional => false

/-- The bytes that an attribute is written as. -/
def encoding (a : Attribute) : Bytes := (a.encode []).2

/-- `n` calls of `Attribute::read`. -/
def readMany (xorKey : Octets 16) : Nat → Cursor → Except Fault (List Attribute × Cursor)
  | 0, c => .ok ([], c)
  | n + 1, c => do
    let (a, c) ← read c xorKey
    let (attrs, c) ← readMany xorKey n c
    return (a :: attrs, c)

/-- Writing goes through, without padding, and the decoder knows the value. -/
structure RoundTrips (a : Attribute) (key : Octets 16) (typ : UInt16) (value : Bytes) : Prop where
  written : a.opaqueValue = .ok (typ, value)
  length_lt : value.length < 65536
  aligned : value.length % 4 = 0
  readBack : ofValue typ value key = .ok a

theorem roundTrips_address (mk : SocketAddr → Attribute) {typ : UInt16} {key : Octets 16} {ip : Ipv4Addr}
    {port : UInt16} (hw : (mk (.v4 ip port)).opaqueValue = (encodeAddress (.v4 ip port)).map fun v => (typ, v))
    (hr : ∀ v, ofValue typ v key = (readAddress v).map mk) :
    RoundTrips (mk (.v4 ip port)) key typ (addressValue 0 (.v4 ip) port) := by
  have hlen : (addressValue 0 (.v4 ip) port).length = 8 := by simp [addressValue, IpAddr.octets]
  refine ⟨?_, by rw [hlen]; decide, by rw [hlen], ?_⟩
  · rw [hw, encodeAddress_v4]; rfl
  · rw [hr, readAddress_value]; rfl

theorem readChangeRequest_encode {r : ChangeRequest} (h : r ≠ .none) :
    readChangeRequest (encodeChangeRequest r) = .ok r := by
  cases r with
  | none => exact absurd rfl h
  | ip => decide
  | port => decide
  | ipAndPort => decide

theorem exchanged_roundTrips {a : Attribute} (h : a.exchanged = true) (key : Octets 16) :
    ∃ typ value, RoundTrips a key typ value := by
  cases a with
  | mappedAddress s =>
    cases s with
    | v4 ip port => exact ⟨_, _, roundTrips_address mappedAddress rfl fun _ => rfl⟩
    | v6 ip port f sc => cases h
  | responseAddress s =>
    cases s with
    | v4 ip port => exact ⟨_, _, roundTrips_address responseAddress rfl fun _ => rfl⟩
    | v6 ip port f sc => cases h
  | changedAddress s =>
    cases s with
    | v4 ip port => exact ⟨_, _, roundTrips_address changedAddress rfl fun _ => rfl⟩
    | v6 ip port f sc => cases h
  | sourceAddress s =>
    cases s with
    | v4 ip port => exact ⟨_, _, roundTrips_address sourceAddress rfl fun _ => rfl⟩
    | v6 ip port f sc => cases h
  | reflectedFrom s =>
    cases s with
    | v4 ip port => exact ⟨_, _, roundTrips_address reflectedFrom rfl fun _ => rfl⟩
    | v6 ip port f sc => cases h
  | changeRequest r =>
    have hr : r ≠ .none := by simpa [exchanged] using h
    have hlen : (encodeChangeRequest r).length = 4 := by
      cases r with
      | none => exact absurd rfl hr
      | _ => rfl
    refine ⟨StunType.changeRequest, encodeChangeRequest r, rfl, by rw [hlen]; decide, by rw [hlen], ?_⟩
    have hof : ofValue StunType.changeRequest (encodeChangeRequest r) key =
        (readChangeRequest (encodeChangeRequest r)).map changeRequest := rfl
    rw [hof, readChangeRequest_encode hr]
    rfl
  | messageIntegrity hash =>
    refine ⟨StunType.messageIntegrity, hash.toList, rfl, by simp, by simp, ?_⟩
    exact ResponseAttr.ofValue_value key (.messageIntegrity hash)
  | username u => cases h
  | unknownOptional => cases h

/-- One attribute is read off the front of the buffer. -/
theorem read_encoding {a : Attribute} (h : a.exchanged = true) (key : Octets 16) {c : Cursor} {tail : Bytes}
    (hbuf : c.buf.length < 2 ^ 64) (hr : c.rest = a.encoding ++ tail) :
    read c key = .ok (a, { c with pos := c.pos + a.encoding.length }) ∧
      ({ c with pos := c.pos + a.encoding.length } : Cursor).rest = tail := by
  obtain ⟨typ, value, hrt⟩ := exchanged_roundTrips h key
  have henc : a.encoding = tlvBytes (typ, value) := by
    rw [encoding, encode_of_ok hrt.written hrt.length_lt, List.nil_append]
  have hrest : ({ c with pos := c.pos + a.encoding.length } : Cursor).rest = tail := by
    rw [Cursor.rest_add, hr, List.drop_left]
  refine ⟨?_, hrest⟩
  refine read_complete hbuf typ value [] hrt.length_lt (by rw [hrt.aligned]; rfl) hrt.readBack ?_ ?_
  · rw [hrest, hr, henc, List.append_nil]; rfl
  · rw [henc]
    simp [tlvBytes]
    omega

theorem readMany_rest (key : Octets 16) {attrs : List Attribute} (h : ∀ a ∈ attrs, a.exchanged = true) {c : Cursor}
    (tail : Bytes) (hbuf : c.buf.length < 2 ^ 64) (hr : c.rest = attrs.flatMap encoding ++ tail) :
    readMany key attrs.length c = .ok (attrs, { c with pos := c.pos + (attrs.flatMap encoding).length }) := by
  induction attrs generalizing c with
  | nil => rfl
  | cons a attrs ih =>
    rw [List.flatMap_cons, List.append_assoc] at hr
    obtain ⟨hread, hrest⟩ := read_encoding (h a (by simp)) key hbuf hr
    have hmany := ih (fun x hx => h x (List.mem_cons_of_mem _ hx))
      (c := { c with pos := c.pos + a.encoding.length }) hbuf hrest
    rw [List.length_cons, readMany, hread]
    simp only [bind, Except.bind, hmany, List.flatMap_cons, List.length_append, Nat.add_assoc]
    rfl

/-- **Reading undoes writing.** Every list of exchanged attributes is
written without an error and read back from the concatenation, to its end;
an IPv6 address is refused before anything is written. -/
theorem readMany_encoding (key : Octets 16) {attrs : List Attribute} (h : ∀ a ∈ attrs, a.exchanged = true)
    (hlen : (attrs.flatMap encoding).length < 2 ^ 64) :
    (∀ a ∈ attrs, ∀ buf, a.encode buf = (.ok (), buf ++ a.encoding)) ∧
    readMany key attrs.length (.new (attrs.flatMap encoding)) =
      .ok (attrs, ⟨attrs.flatMap encoding, (attrs.flatMap encoding).length⟩) ∧
    ∀ (a : Attribute) s, a.address? = some s → s.isIpv4 = false → ∀ buf,
      (∃ e, (a.encode buf).1 = .error e) ∧ (a.encode buf).2 = buf := by
  refine ⟨?_, ?_, ?_⟩
  · intro a ha buf
    obtain ⟨typ, value, hrt⟩ := exchanged_roundTrips (h a ha) key
    rw [encoding, encode_of_ok hrt.written hrt.length_lt, encode_of_ok hrt.written hrt.length_lt, List.nil_append]
  · have hread := readMany_rest key h (c := .new (attrs.flatMap encoding)) [] hlen
      (List.append_nil _).symm
    rw [hread]
    simp [Cursor.new]
  · intro a s ha hs buf
    rw [encode_of_error (opaqueValue_ipv6 ha hs)]
    exact ⟨⟨_, rfl⟩, rfl⟩

def sampleAttributes : List Attribute :=
  [.responseAddress (.testNet 1 10000), .changeRequest .ipAndPort, .messageIntegrity ⟨List.replicate 20 7, rfl⟩]

theorem sampleAttributes_read : sampleAttributes.length = 3 ∧
    readMany (responseKey 5) 3 (.new (sampleAttributes.flatMap encoding)) =
      .ok (sampleAttributes, ⟨sampleAttributes.flatMap encoding, (sampleAttributes.flatMap encoding).length⟩) :=
  have hexchanged : ∀ a ∈ sampleAttributes, a.exchanged = true := by decide
  ⟨rfl, (readMany_encoding (responseKey 5) hexchanged (by decide)).2.1⟩

end Attribute

/-! ## Requests -/

namespace BindRequest

def addressPart : Option SocketAddr → List (UInt16 × Bytes)
  | some (.v4 ip port) => [(0x0002, [0x00, 0x01] ++ be16 port ++ ip.octets.toList)]
  | _ => []

def changePart : ChangeRequest → List (UInt16 × Bytes)
  | .none => []
  | .ip => [(0x0003, [0, 0, 0, 0x20])]
  | .port => [(0x0003, [0, 0, 0, 0x40])]
  | .ipAndPort => [(0x0003, [0, 0, 0, 0x60])]

-- rounded up to a multiple of four
def paddedLength (n : Nat) : Nat := (n + 3) / 4 * 4

def usernamePart : Option Bytes → List (UInt16 × Bytes)
  | some u => [(0x0006, u ++ List.replicate (paddedLength u.length - u.length) 0)]
  | none => []

/-- The attributes of a request in their order, as types and values. -/
def attributes (r : BindRequest) : List (UInt16 × Bytes) :=
  addressPart r.responseAddress ++ changePart r.changeRequest ++ usernamePart r.username

def bodyLength (r : BindRequest) : Nat :=
  (if r.responseAddress.isSome then 12 else 0) + (if r.changeRequest ≠ .none then 8 else 0) +
    match r.username with
    | some u => 4 + paddedLength u.length
    | none => 0

def namesIpv6 (r : BindRequest) : Bool := r.responseAddress.any fun a => !a.isIpv4

theorem written_address (a : SocketAddr) : Attribute.written (Attribute.encode (.responseAddress a) []) =
    if a.isIpv4 then .ok ((addressPart (some a)).flatMap tlvBytes)
    else .error (.error .invalidInput "STUN does not support IPv6") := by
  cases a with
  | v4 ip port =>
    have hvalue : (Attribute.responseAddress (.v4 ip port)).opaqueValue =
        .ok (StunType.responseAddress, addressValue 0 (.v4 ip) port) := rfl
    rw [Attribute.encode_of_ok hvalue (by simp [addressValue, IpAddr.octets])]
    simp [Attribute.written, addressPart]
    rfl
  | v6 ip port f sc => rfl

theorem written_changeRequest (r : ChangeRequest) (buf : Bytes) :
    (if r ≠ .none then Attribute.written (Attribute.encode (.changeRequest r) buf) else .ok buf) =
      .ok (buf ++ (changePart r).flatMap tlvBytes) := by
  cases r with
  | none => simp [changePart]
  | _ =>
    rw [if_pos (by decide), Attribute.encode_of_ok rfl (by decide)]
    simp [Attribute.written, changePart]
    rfl

theorem encodeUsername_eq (u : Bytes) :
    Attribute.encodeUsername u = u ++ List.replicate (paddedLength u.length - u.length) 0 := by
  have hpad : (4 - u.length % 4) % 4 = paddedLength u.length - u.length := by
    unfold paddedLength
    omega
  rw [Attribute.encodeUsername, hpad]

theorem length_username (u : Bytes) :
    (u ++ List.replicate (paddedLength u.length - u.length) 0).length = paddedLength u.length := by
  have hle : u.length ≤ paddedLength u.length := by
    unfold paddedLength
    omega
  rw [List.length_append, List.length_replicate]
  omega

theorem written_username (u buf : Bytes) : Attribute.written (Attribute.encode (.username u) buf) =
    if paddedLength u.length < 65536 then .ok (buf ++ (usernamePart (some u)).flatMap tlvBytes)
    else .error (.error .invalidInput "STUN attribute is too large") := by
  have hvalue : (Attribute.username u).opaqueValue =
      .ok (StunType.username, u ++ List.replicate (paddedLength u.length - u.length) 0) := by
    rw [Attribute.opaqueValue, encodeUsername_eq]
  by_cases hfits : paddedLength u.length < 65536
  · rw [if_pos hfits, Attribute.encode_of_ok hvalue (by rw [length_username]; exact hfits)]
    simp [Attribute.written, usernamePart]
    rfl
  · rw [if_neg hfits, Attribute.encode_of_large hvalue (by rw [length_username]; exact Nat.le_of_not_lt hfits)]
    rfl

/-- The part of `BindRequest::encode` after the address. -/
theorem encode_rest (r : BindRequest) (buf m : Bytes) :
    (do
      let buf ← (if r.changeRequest ≠ .none then
          Attribute.written (Attribute.encode (.changeRequest r.changeRequest) buf)
        else .ok buf)
      match r.username with
      | some u => Attribute.written (Attribute.encode (.username u) buf)
      | none => .ok buf : Except Fault Bytes) = .ok m ↔
    (∀ u, r.username = some u → paddedLength u.length < 65536) ∧
      m = buf ++ (changePart r.changeRequest ++ usernamePart r.username).flatMap tlvBytes := by
  simp only [bind, Except.bind, written_changeRequest]
  cases r.username with
  | none => simp [usernamePart, eq_comm]
  | some u =>
    simp only [written_username, Option.some.injEq, forall_eq']
    by_cases hfits : paddedLength u.length < 65536
    · simp [hfits, eq_comm]
    · simp [hfits]

/-- The body of a request, unless it names an IPv6 address or its user name is too long for an attribute. -/
theorem encode_eq_ok {r : BindRequest} {m : Bytes} : r.encode = .ok m ↔
    r.namesIpv6 = false ∧ (∀ u, r.username = some u → paddedLength u.length < 65536) ∧
      m = r.attributes.flatMap tlvBytes := by
  unfold encode namesIpv6 attributes
  rw [List.append_assoc, List.flatMap_append]
  cases r.responseAddress with
  | none => exact (encode_rest r [] m).trans (by simp [addressPart])
  | some a =>
    simp only [written_address]
    cases a with
    | v4 ip port => exact (encode_rest r _ m).trans (by simp)
    | v6 ip port f sc => simp [bind, Except.bind]

theorem length_attributes {r : BindRequest} (h : r.namesIpv6 = false) :
    (r.attributes.flatMap tlvBytes).length = r.bodyLength := by
  have haddress : ((addressPart r.responseAddress).flatMap tlvBytes).length =
      if r.responseAddress.isSome then 12 else 0 := by
    cases ha : r.responseAddress with
    | none => rfl
    | some a =>
      cases a with
      | v4 ip port => simp [addressPart, tlvBytes]
      | v6 ip port f sc => rw [namesIpv6, ha] at h; cases h
  have hchange : ((changePart r.changeRequest).flatMap tlvBytes).length =
      if r.changeRequest ≠ .none then 8 else 0 := by
    cases r.changeRequest <;> rfl
  have husername : ((usernamePart r.username).flatMap tlvBytes).length =
      match r.username with
      | some u => 4 + paddedLength u.length
      | none => 0 := by
    cases r.username with
    | none => rfl
    | some u =>
      rw [usernamePart, List.flatMap_singleton, tlvBytes, List.length_append, length_username]
      rfl
  rw [attributes, List.flatMap_append, List.flatMap_append, List.length_append, List.length_append, haddress, hchange,
    husername]
  rfl

theorem bodyLength_aligned (r : BindRequest) : r.bodyLength % 4 = 0 := by
  unfold bodyLength paddedLength
  cases r.username with
  | none => simp only; split <;> split <;> omega
  | some u => simp only; split <;> split <;> omega

theorem nameFits_of_bodyLength {r : BindRequest} (h : r.bodyLength ≤ 65535) {u : Bytes} (hu : r.username = some u) :
    paddedLength u.length < 65536 := by
  unfold bodyLength at h
  rw [hu] at h
  simp only at h
  omega

theorem length_attribute_le {r : BindRequest} (h : r.namesIpv6 = false) {t : UInt16 × Bytes} (ht : t ∈ r.attributes) :
    t.2.length ≤ r.bodyLength := by
  obtain ⟨a, b, hab⟩ := List.append_of_mem ht
  rw [← length_attributes h, hab]
  simp only [List.flatMap_append, List.flatMap_cons, List.length_append, tlvBytes]
  omega

end BindRequest

namespace StunCodec

theorem encodeMessage_eq_ok {r : BindRequest} {message : UInt16 × Bytes} :
    encodeMessage (.bind r) = .ok message ↔ r.namesIpv6 = false ∧ r.bodyLength ≤ 65535 ∧
      message = (StunType.bindingRequest, r.attributes.flatMap tlvBytes) := by
  rw [encodeMessage, bind_eq_ok]
  constructor
  · rintro ⟨m, hm, hmessage⟩
    obtain ⟨hv6, _, rfl⟩ := BindRequest.encode_eq_ok.mp hm
    rw [BindRequest.length_attributes hv6] at hmessage
    split at hmessage
    · cases hmessage
    · rename_i hlt
      cases hmessage
      exact ⟨hv6, by omega, rfl⟩
  · rintro ⟨hv6, hle, rfl⟩
    refine ⟨_, BindRequest.encode_eq_ok.mpr ⟨hv6, fun u hu => BindRequest.nameFits_of_bodyLength hle hu, rfl⟩, ?_⟩
    rw [BindRequest.length_attributes hv6, if_neg (by omega)]
    rfl

theorem encode_eq_ok {id : UInt64} {r : BindRequest} {buf : Bytes} :
    (encode id (.bind r) buf).1 = .ok () ↔ r.namesIpv6 = false ∧ r.bodyLength ≤ 65535 := by
  unfold encode
  cases hm : encodeMessage (.bind r) with
  | error e =>
    constructor
    · intro h
      cases h
    · rintro ⟨hv6, hle⟩
      rw [encodeMessage_eq_ok.mpr ⟨hv6, hle, rfl⟩] at hm
      cases hm
  | ok message =>
    obtain ⟨hv6, hle, _⟩ := encodeMessage_eq_ok.mp hm
    exact ⟨fun _ => ⟨hv6, hle⟩, fun _ => rfl⟩

theorem encode_written (id : UInt64) {r : BindRequest} (buf : Bytes) (hv6 : r.namesIpv6 = false)
    (hle : r.bodyLength ≤ 65535) : (encode id (.bind r) buf).2 =
      buf ++ ([0x00, 0x01] ++ be16 (UInt16.ofNat r.bodyLength) ++ stunCookie ++ be64 id ++
        r.attributes.flatMap tlvBytes) := by
  unfold encode
  rw [encodeMessage_eq_ok.mpr ⟨hv6, hle, rfl⟩]
  simp only [BindRequest.length_attributes hv6, List.append_assoc]
  rfl

theorem encode_refused {id : UInt64} {req : Request} {buf : Bytes} (h : (encode id req buf).1 ≠ .ok ()) :
    (encode id req buf).2 = buf := by
  unfold encode at h ⊢
  cases hm : encodeMessage req with
  | error e => rfl
  | ok m => rw [hm] at h; exact absurd rfl h

/-- **Requests are well formed.** The encoder refuses exactly the requests
that name an IPv6 address or do not fit, and leaves the buffer alone; what it
appends otherwise is the header with the length of the body, and the
attributes with the lengths of their values. -/
theorem encode_exact (id : UInt64) (buf : Bytes) :
    (∀ r : BindRequest,
      ((encode id (.bind r) buf).1 = .ok () ↔
        (∀ a, r.responseAddress = some a → a.isIpv4 = true) ∧ r.bodyLength ≤ 65535) ∧
      ((encode id (.bind r) buf).1 = .ok () →
        (encode id (.bind r) buf).2 =
          buf ++ ([0x00, 0x01] ++ be16 (UInt16.ofNat r.bodyLength) ++ stunCookie ++ be64 id ++
            r.attributes.flatMap tlvBytes) ∧
        (encode id (.bind r) buf).2.length = buf.length + 20 + r.bodyLength ∧
        (UInt16.ofNat r.bodyLength).toNat = r.bodyLength ∧ r.bodyLength % 4 = 0 ∧
        ∀ t ∈ r.attributes, (UInt16.ofNat t.2.length).toNat = t.2.length) ∧
      ((encode id (.bind r) buf).1 ≠ .ok () → (encode id (.bind r) buf).2 = buf)) ∧
    (encode id .sharedSecret buf).1 ≠ .ok () ∧ (encode id .sharedSecret buf).2 = buf := by
  refine ⟨fun r => ⟨?_, ?_, encode_refused⟩, nofun, rfl⟩
  · rw [encode_eq_ok, BindRequest.namesIpv6]
    cases r.responseAddress <;> simp
  · intro hok
    obtain ⟨hv6, hle⟩ := encode_eq_ok.mp hok
    have hwritten := encode_written id buf hv6 hle
    refine ⟨hwritten, ?_, ?_, r.bodyLength_aligned, ?_⟩
    · rw [hwritten]
      simp only [List.length_append, BindRequest.length_attributes hv6, BigEndian.length_be16, BigEndian.length_be64]
      simp [stunCookie]
      omega
    · rw [UInt16.toNat_ofNat', Nat.mod_eq_of_lt (by omega)]
    · intro t ht
      have := BindRequest.length_attribute_le hv6 ht
      rw [UInt16.toNat_ofNat', Nat.mod_eq_of_lt (by omega)]

end StunCodec

end P2pTunnler
