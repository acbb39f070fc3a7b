import P2pTunnler.Stun.Codec

/-!
# The decoder accepts exactly the STUN grammar

What a binding response may hold, as syntax with its bytes; and that
`decode_const` accepts exactly the bytes of such a response, whatever its
padding and its reserved bytes hold, and returns the first address of each
kind.
-/

namespace P2pTunnler

open BigEndian (u16 u64 be16 be64 u16_eq_iff u64_eq_iff)

/-! ## Grammar -/

def IpAddr.family : IpAddr → UInt8
  | v4 _ => 1
  | v6 _ => 2

def IpAddr.octets : IpAddr → Bytes
  | v4 ip => ip.octets.toList
  | v6 ip => ip.octets.toList

inductive AddressKind
  | mapped
  | xorMapped
  | source
  | changed
  | reflectedFrom
  deriving DecidableEq

inductive ResponseAttr
  | address (kind : AddressKind) (reserved : UInt8) (ip : IpAddr) (port : UInt16)
  | messageIntegrity (hash : Octets 20)
  | optional (typ : UInt16) (value : Bytes) (htyp : 0x8000 ≤ typ) (hlen : value.length < 65536)

def addressValue (reserved : UInt8) (ip : IpAddr) (port : UInt16) : Bytes :=
  reserved :: ip.family :: (be16 port ++ ip.octets)

def xorBytes (key bytes : Bytes) : Bytes := List.zipWith (· ^^^ ·) bytes key

def xorAddressValue (key : Octets 16) (reserved : UInt8) (ip : IpAddr) (port : UInt16) : Bytes :=
  reserved :: ip.family :: (be16 (port ^^^ u16 (key.toList.take 2)) ++ xorBytes key.toList ip.octets)

def AddressKind.typ : AddressKind → UInt16
  | mapped => StunType.mappedAddress
  | xorMapped => StunType.xorMappedAddress
  | source => StunType.sourceAddress
  | changed => StunType.changedAddress
  | reflectedFrom => StunType.reflectedFrom

namespace ResponseAttr

def typ : ResponseAttr → UInt16
  | address kind _ _ _ => kind.typ
  | messageIntegrity _ => StunType.messageIntegrity
  | optional typ _ _ _ => typ

def value (key : Octets 16) : ResponseAttr → Bytes
  | address .xorMapped reserved ip port => xorAddressValue key reserved ip port
  | address _ reserved ip port => addressValue reserved ip port
  | messageIntegrity hash => hash.toList
  | optional _ value _ _ => value

def length : ResponseAttr → Nat
  | address _ _ ip _ => 4 + ip.octets.length
  | messageIntegrity _ => 20
  | optional _ value _ _ => value.length

/-- The address of an attribute whose kind is one of `kinds`. -/
def addressOf (kinds : List AddressKind) : ResponseAttr → Option SocketAddr
  | address kind _ ip port => if kind ∈ kinds then some (.new ip port) else none
  | _ => none

end ResponseAttr

/-- An attribute, padded with arbitrary bytes to a multiple of four. -/
structure Tlv where
  attr : ResponseAttr
  padding : Bytes
  aligned : padding.length = (4 - attr.length % 4) % 4

def Tlv.bytes (key : Octets 16) (t : Tlv) : Bytes :=
  be16 t.attr.typ ++ be16 (UInt16.ofNat t.attr.length) ++ t.attr.value key ++ t.padding

def stunCookie : Bytes := [0x21, 0x12, 0xA4, 0x42, 0, 0, 0, 0]

def responseKey (id : UInt64) : Octets 16 := ⟨stunCookie ++ be64 id, by simp [stunCookie]⟩

/-- `msg` is the binding response with transaction `id` and attributes `ts`. -/
def IsBindResponse (id : UInt64) (ts : List Tlv) (msg : Bytes) : Prop :=
  ∃ len : UInt16, len.toNat = (ts.flatMap (Tlv.bytes (responseKey id))).length ∧
    msg = [0x01, 0x01] ++ be16 len ++ stunCookie ++ be64 id ++ ts.flatMap (Tlv.bytes (responseKey id))

def firstAddress (kinds : List AddressKind) (ts : List Tlv) : Option SocketAddr :=
  ts.findSome? fun t => t.attr.addressOf kinds

@[simp] theorem length_xorBytes (key : Octets 16) (ip : IpAddr) :
    (xorBytes key.toList ip.octets).length = ip.octets.length := by
  cases ip <;> simp [xorBytes, IpAddr.octets]

theorem ResponseAttr.length_value (key : Octets 16) (a : ResponseAttr) : (a.value key).length = a.length := by
  cases a with
  | address kind reserved ip port =>
    cases kind <;> simp [value, length, addressValue, xorAddressValue] <;> omega
  | messageIntegrity hash => simp [value, length]
  | optional typ v _ _ => rfl

theorem ResponseAttr.length_lt (a : ResponseAttr) : a.length < 65536 := by
  cases a with
  | address kind reserved ip port => cases ip <;> simp [length, IpAddr.octets]
  | messageIntegrity hash => simp [length]
  | optional typ v _ hlen => exact hlen

/-! ## Reading from a cursor -/

namespace Cursor

theorem rest_add (c : Cursor) (n : Nat) : ({ c with pos := c.pos + n } : Cursor).rest = c.rest.drop n := by
  simp [rest, List.drop_drop]

theorem readExact_eq_ok {c c' : Cursor} {n : Nat} {b : Bytes} :
    c.readExact n = .ok (b, c') ↔ b.length = n ∧ c.rest = b ++ c'.rest ∧ c' = { c with pos := c.pos + n } := by
  unfold readExact
  refine ⟨fun h => ?_, fun ⟨hl, hr, hc⟩ => ?_⟩
  · split at h
    · rename_i hn
      cases h
      exact ⟨by rw [List.length_take]; omega, by rw [rest_add, List.take_append_drop], rfl⟩
    · cases h
  · have hn : n ≤ c.rest.length := by rw [hr, List.length_append]; omega
    rw [if_pos hn, hc, hr, ← hl, List.take_left]

-- a word of `n` bytes, with the two conversions that undo each other on it
theorem readWord_eq_ok {α : Type} {n : Nat} {ofBytes : Bytes → α} {toBytes : α → Bytes}
    (hlen : ∀ x, (toBytes x).length = n) (hiff : ∀ {b : Bytes}, b.length = n → ∀ {x}, ofBytes b = x ↔ b = toBytes x)
    {c c' : Cursor} {x : α} :
    (do let (b, d) ← c.readExact n; return (ofBytes b, d) : Except Fault (α × Cursor)) = .ok (x, c') ↔
      c.rest = toBytes x ++ c'.rest ∧ c' = { c with pos := c.pos + n } := by
  rw [bind_eq_ok]
  refine ⟨fun ⟨⟨b, d⟩, hb, he⟩ => ?_, fun ⟨hr, hc⟩ => ?_⟩
  · cases he
    obtain ⟨hl, hr, hc⟩ := readExact_eq_ok.mp hb
    rw [← (hiff hl).mp rfl]
    exact ⟨hr, hc⟩
  · refine ⟨(toBytes x, c'), readExact_eq_ok.mpr ⟨hlen x, hr, hc⟩, ?_⟩
    show Except.ok (ofBytes (toBytes x), c') = _
    rw [(hiff (hlen x)).mpr rfl]

theorem readU16_eq_ok {c c' : Cursor} {x : UInt16} :
    c.readU16 = .ok (x, c') ↔ c.rest = be16 x ++ c'.rest ∧ c' = { c with pos := c.pos + 2 } :=
  readWord_eq_ok BigEndian.length_be16 u16_eq_iff

theorem readU64_eq_ok {c c' : Cursor} {x : UInt64} :
    c.readU64 = .ok (x, c') ↔ c.rest = be64 x ++ c'.rest ∧ c' = { c with pos := c.pos + 8 } :=
  readWord_eq_ok BigEndian.length_be64 u64_eq_iff

end Cursor

/-! ## Addresses -/

namespace Attribute

theorem byteAt_of_lt {bytes : Bytes} {i : Nat} (h : i < bytes.length) : byteAt bytes i = .ok bytes[i] := by
  unfold byteAt
  rw [List.getElem?_eq_getElem h]

theorem checkedAdd_eq_some {a b c : Nat} : checkedAdd a b = some c ↔ a + b < 2 ^ 64 ∧ c = a + b := by
  unfold checkedAdd
  split <;> simp_all [eq_comm]

theorem plainAdd_of_lt {a b : Nat} (h : a + b < 2 ^ 64) : plainAdd a b = .ok (a + b) := by
  rw [plainAdd, checkedAdd_eq_some.mpr ⟨h, rfl⟩]

theorem copyFromSlice_toList {n : Nat} (v : Octets n) : copyFromSlice n v.toList = .ok v := by
  unfold copyFromSlice
  rw [dif_pos v.length_toList]

theorem xorBytes_xorBytes {key bytes : Bytes} (h : bytes.length ≤ key.length) :
    xorBytes key (xorBytes key bytes) = bytes := by
  unfold xorBytes
  induction bytes generalizing key with
  | nil => simp
  | cons b bytes ih =>
    cases key with
    | nil => simp at h
    | cons k key =>
      rw [List.zipWith_cons_cons, List.zipWith_cons_cons, ih (by simpa using h), UInt8.xor_assoc, UInt8.xor_self,
        UInt8.xor_zero]

/-- The loop stays inside `value` and `key` and XORs what it passes. -/
theorem xorFrom_eq {value key : Bytes} {index n : Nat} (hv : index + n + 4 ≤ value.length)
    (hk : index + n ≤ key.length) (hw : index + n + 4 < 2 ^ 64) :
    xorFrom value key index n = .ok (xorBytes (key.drop index) ((value.drop (index + 4)).take n)) := by
  induction n generalizing index with
  | zero => simp [xorFrom, xorBytes]
  | succ n ih =>
    have hi : index + 4 < value.length := by omega
    have hj : index < key.length := by omega
    rw [xorFrom, plainAdd_of_lt (by omega), byteAt_of_lt hj, ih (by omega) (by omega) (by omega),
      List.drop_eq_getElem_cons hi, List.drop_eq_getElem_cons hj]
    simp only [bind, Except.bind, byteAt_of_lt hi]
    show Except.ok _ = Except.ok _
    rw [List.take_succ_cons, xorBytes, xorBytes, List.zipWith_cons_cons]

theorem be16_pair (x : UInt16) : ∃ h l, be16 x = [h, l] ∧ u16 [h, l] = x :=
  ⟨_, _, rfl, (u16_eq_iff rfl).mpr rfl⟩

theorem exists_of_length_four {l : Bytes} (h : l.length = 4) : ∃ a b c d, l = [a, b, c, d] := by
  rcases l with _ | ⟨a, _ | ⟨b, _ | ⟨c, _ | ⟨d, _ | ⟨e, l⟩⟩⟩⟩⟩ <;> simp at h
  exact ⟨a, b, c, d, rfl⟩

theorem family_cases {f : UInt8} {rest : Bytes} (h : (f = 1 ∧ rest.length = 4) ∨ (f = 2 ∧ rest.length = 16)) :
    ∃ ip : IpAddr, f = ip.family ∧ rest = ip.octets := by
  rcases h with ⟨rfl, h⟩ | ⟨rfl, h⟩
  · exact ⟨.v4 ⟨⟨rest, h⟩⟩, rfl, rfl⟩
  · exact ⟨.v6 ⟨⟨rest, h⟩⟩, rfl, rfl⟩

theorem readAddress_value (reserved : UInt8) (ip : IpAddr) (port : UInt16) :
    readAddress (addressValue reserved ip port) = .ok (.new ip port) := by
  obtain ⟨p, q, hpq, rfl⟩ := be16_pair port
  unfold readAddress addressValue
  rw [hpq]
  cases ip with
  | v4 ip =>
    obtain ⟨⟨l, hl⟩⟩ := ip
    obtain ⟨a, b, c, d, rfl⟩ := exists_of_length_four hl
    rfl
  | v6 ip =>
    obtain ⟨v⟩ := ip
    have hs : slice (reserved :: 2 :: p :: q :: v.toList) 4 20 = .ok v.toList := by
      unfold slice
      rw [if_pos (by simp)]
      show Except.ok (v.toList.take 16) = _
      rw [List.take_of_length_le (by simp)]
    simp only [IpAddr.family, IpAddr.octets, byteAt, List.cons_append, List.nil_append, List.length_cons,
      v.length_toList, List.getElem?_cons_succ, List.getElem?_cons_zero, bind, Except.bind]
    rw [if_neg (by decide), if_neg (by decide), if_pos ⟨trivial, trivial⟩, hs]
    simp only [copyFromSlice_toList]
    rfl

theorem readAddress_eq_ok {value : Bytes} {a : SocketAddr} :
    readAddress value = .ok a ↔ ∃ reserved ip port, value = addressValue reserved ip port ∧ a = .new ip port := by
  refine ⟨fun h => ?_, fun ⟨reserved, ip, port, hv, ha⟩ => by rw [hv, ha, readAddress_value]⟩
  rcases value with _ | ⟨r, _ | ⟨f, _ | ⟨p, _ | ⟨q, rest⟩⟩⟩⟩
  · cases h
  · cases h
  · cases h
  · cases h
  · by_cases hf : (f = 1 ∧ rest.length = 4) ∨ (f = 2 ∧ rest.length = 16)
    · obtain ⟨ip, rfl, rfl⟩ := family_cases hf
      have hv : r :: ip.family :: p :: q :: ip.octets = addressValue r ip (u16 [p, q]) := by
        unfold addressValue
        rw [← (u16_eq_iff rfl).mp (rfl : u16 [p, q] = u16 [p, q])]
        rfl
      rw [hv, readAddress_value] at h
      cases h
      exact ⟨r, ip, _, hv, rfl⟩
    · simp only [not_or] at hf
      unfold readAddress at h
      rw [if_neg (by simp)] at h
      simp only [byteAt, List.getElem?_cons_succ, List.getElem?_cons_zero, bind, Except.bind, List.length_cons,
        Nat.reduceEqDiff, hf.1, hf.2, if_false] at h
      split at h <;> cases h

theorem xorBytes_octets (key : Octets 16) {n : Nat} (v : Octets n) (h : n ≤ 16) :
    xorBytes key.toList (xorBytes key.toList v.toList) = v.toList :=
  xorBytes_xorBytes (by simpa using h)

theorem xorFrom_octets (key : Octets 16) {n : Nat} (v : Octets n) (h : n ≤ 16) (r f p q : UInt8) :
    xorFrom (r :: f :: p :: q :: xorBytes key.toList v.toList) key.toList 0 n = .ok v.toList := by
  have hlen : (xorBytes key.toList v.toList).length = n := by simp [xorBytes, h]
  rw [xorFrom_eq (by simp [hlen]) (by simpa using h) (by omega)]
  show Except.ok (xorBytes key.toList ((xorBytes key.toList v.toList).take n)) = _
  rw [List.take_of_length_le (by simp [hlen]), xorBytes_octets key v h]

theorem key_pair (key : Octets 16) : ∃ k l, byteAt key.toList 0 = .ok k ∧ byteAt key.toList 1 = .ok l ∧
    key.toList.take 2 = [k, l] := by
  obtain ⟨ks, hks⟩ := key
  rcases ks with _ | ⟨k, _ | ⟨l, ks⟩⟩ <;> simp at hks
  exact ⟨k, l, rfl, rfl, rfl⟩

-- `read_xor_address` with the port and the family read
theorem readXorAddress_cons (key : Octets 16) (r f p q : UInt8) (rest : Bytes) :
    readXorAddress (r :: f :: p :: q :: rest) key =
      let port := u16 [p, q] ^^^ u16 (key.toList.take 2)
      if f = 1 ∧ rest.length = 4 then do
        let address ← copyFromSlice 4 (← xorFrom (r :: f :: p :: q :: rest) key.toList 0 4)
        return .new (.v4 ⟨address⟩) port
      else if f = 2 ∧ rest.length = 16 then do
        let address ← copyFromSlice 16 (← xorFrom (r :: f :: p :: q :: rest) key.toList 0 16)
        return .new (.v6 ⟨address⟩) port
      else if f = 1 ∨ f = 2 then .error (.error .invalidData "STUN XOR-MAPPED-ADDRESS has an invalid length")
      else .error (.error .invalidData "Invalid STUN address family") := by
  obtain ⟨k, l, hk, hl, ht⟩ := key_pair key
  unfold readXorAddress
  rw [if_neg (by simp), hk, hl, ht]
  simp only [List.length_cons, Nat.reduceEqDiff]
  rfl

theorem readXorAddress_value (key : Octets 16) (reserved : UInt8) (ip : IpAddr) (port : UInt16) :
    readXorAddress (xorAddressValue key reserved ip port) key = .ok (.new ip port) := by
  obtain ⟨p, q, hpq, hport⟩ := be16_pair (port ^^^ u16 (key.toList.take 2))
  have hback : u16 [p, q] ^^^ u16 (key.toList.take 2) = port := by
    rw [hport, UInt16.xor_assoc, UInt16.xor_self, UInt16.xor_zero]
  unfold xorAddressValue
  rw [hpq]
  show readXorAddress (reserved :: ip.family :: p :: q :: xorBytes key.toList ip.octets) key = _
  rw [readXorAddress_cons, hback]
  cases ip with
  | v4 ip =>
    have hl : (xorBytes key.toList (IpAddr.v4 ip).octets).length = 4 := by
      rw [length_xorBytes]; exact ip.octets.length_toList
    simp only
    rw [if_pos ⟨rfl, hl⟩]
    simp only [IpAddr.octets]
    rw [xorFrom_octets key ip.octets (by decide)]
    simp only [bind, Except.bind, copyFromSlice_toList]
    rfl
  | v6 ip =>
    have hl : (xorBytes key.toList (IpAddr.v6 ip).octets).length = 16 := by
      rw [length_xorBytes]; exact ip.octets.length_toList
    simp only
    rw [if_neg (fun hf => by rw [hl] at hf; exact absurd hf.2 (by decide)), if_pos ⟨rfl, hl⟩]
    simp only [IpAddr.octets]
    rw [xorFrom_octets key ip.octets (by decide)]
    simp only [bind, Except.bind, copyFromSlice_toList]
    rfl

theorem readXorAddress_eq_ok {value : Bytes} {key : Octets 16} {a : SocketAddr} :
    readXorAddress value key = .ok a ↔
      ∃ reserved ip port, value = xorAddressValue key reserved ip port ∧ a = .new ip port := by
  refine ⟨fun h => ?_, fun ⟨reserved, ip, port, hv, ha⟩ => by rw [hv, ha, readXorAddress_value]⟩
  rcases value with _ | ⟨r, _ | ⟨f, _ | ⟨p, _ | ⟨q, rest⟩⟩⟩⟩
  · cases h
  · cases h
  · cases h
  · cases h
  · by_cases hf : (f = 1 ∧ rest.length = 4) ∨ (f = 2 ∧ rest.length = 16)
    · have hf' : (f = 1 ∧ (xorBytes key.toList rest).length = 4) ∨
          (f = 2 ∧ (xorBytes key.toList rest).length = 16) := by
        refine hf.imp (And.imp_right fun hl => ?_) (And.imp_right fun hl => ?_) <;> simp [xorBytes, hl]
      obtain ⟨ip, rfl, hip⟩ := family_cases hf'
      have hle : rest.length ≤ key.toList.length := by
        rw [key.length_toList]
        rcases hf with hf | hf <;> omega
      have hv : r :: ip.family :: p :: q :: rest =
          xorAddressValue key r ip (u16 [p, q] ^^^ u16 (key.toList.take 2)) := by
        unfold xorAddressValue
        rw [UInt16.xor_assoc, UInt16.xor_self, UInt16.xor_zero,
          ← (u16_eq_iff rfl).mp (rfl : u16 [p, q] = u16 [p, q]), ← hip, xorBytes_xorBytes hle]
        rfl
      rw [hv, readXorAddress_value] at h
      cases h
      exact ⟨r, ip, _, hv, rfl⟩
    · simp only [not_or] at hf
      rw [readXorAddress_cons] at h
      simp only [hf.1, hf.2, if_false] at h
      split at h <;> cases h

end Attribute

/-! ## One attribute -/

open StunCodec (Addresses)

def AddressKind.attribute (a : SocketAddr) : AddressKind → Attribute
  | mapped => .mappedAddress a
  | xorMapped => .mappedAddress a
  | source => .sourceAddress a
  | changed => .changedAddress a
  | reflectedFrom => .reflectedFrom a

namespace ResponseAttr

def toAttribute : ResponseAttr → Attribute
  | address kind _ ip port => kind.attribute (.new ip port)
  | messageIntegrity hash => .messageIntegrity hash
  | optional _ _ _ _ => .unknownOptional

def addTo (a : ResponseAttr) (acc : Addresses) : Addresses :=
  ⟨acc.mapped.or (a.addressOf [.mapped, .xorMapped]), acc.source.or (a.addressOf [.source]),
    acc.changed.or (a.addressOf [.changed]), acc.reflected.or (a.addressOf [.reflectedFrom])⟩

theorem insert_toAttribute (a : ResponseAttr) (acc : Addresses) : acc.insert a.toAttribute = .ok (a.addTo acc) := by
  cases a with
  | address kind reserved ip port =>
    cases kind <;> simp [toAttribute, AddressKind.attribute, Addresses.insert, addTo, addressOf]
  | messageIntegrity hash => simp [toAttribute, Addresses.insert, addTo, addressOf]
  | optional typ value _ _ => simp [toAttribute, Addresses.insert, addTo, addressOf]

theorem ofValue_value (key : Octets 16) (a : ResponseAttr) :
    Attribute.ofValue a.typ (a.value key) key = .ok a.toAttribute := by
  cases a with
  | address kind reserved ip port =>
    cases kind <;>
      simp [Attribute.ofValue, typ, value, toAttribute, AddressKind.typ, AddressKind.attribute, StunType.mappedAddress,
        StunType.xorMappedAddress, StunType.sourceAddress, StunType.changedAddress, StunType.reflectedFrom,
        StunType.responseAddress, Attribute.readAddress_value, Attribute.readXorAddress_value]
  | messageIntegrity hash =>
    simp [Attribute.ofValue, typ, value, toAttribute, StunType.mappedAddress, StunType.messageIntegrity,
      StunType.xorMappedAddress, StunType.sourceAddress, StunType.changedAddress, StunType.reflectedFrom,
      StunType.responseAddress, Attribute.copyFromSlice_toList]
  | optional t v htyp _ =>
    have hne : ∀ u : UInt16, u < 0x8000 → t ≠ u := fun u hu he => absurd htyp (by rw [he]; exact UInt16.not_le.mpr hu)
    have hle : ¬ t ≤ 0x7fff := fun hle => absurd htyp (UInt16.not_le.mpr (UInt16.lt_of_le_of_lt hle (by decide)))
    unfold Attribute.ofValue
    simp only [typ, value, toAttribute, hle, if_false, hne StunType.xorMappedAddress (by decide),
      hne StunType.mappedAddress (by decide), hne StunType.responseAddress (by decide),
      hne StunType.changedAddress (by decide), hne StunType.sourceAddress (by decide),
      hne StunType.reflectedFrom (by decide), hne StunType.messageIntegrity (by decide),
      hne StunType.changeRequest (by decide)]

theorem exists_of_readAddress {key : Octets 16} {v : Bytes} {attr : Attribute} (kind : AddressKind)
    (hk : kind ≠ .xorMapped)
    (h : (do return kind.attribute (← Attribute.readAddress v) : Except Fault Attribute) = .ok attr) :
    ∃ a : ResponseAttr, a.typ = kind.typ ∧ a.value key = v ∧ a.toAttribute = attr := by
  obtain ⟨s, hs, he⟩ := bind_eq_ok.mp h
  cases he
  obtain ⟨r, ip, port, rfl, rfl⟩ := Attribute.readAddress_eq_ok.mp hs
  refine ⟨.address kind r ip port, rfl, ?_, rfl⟩
  cases kind with
  | xorMapped => exact absurd rfl hk
  | _ => rfl

/-- A value that is read and does not stop the loop is the value of an attribute of the grammar. -/
theorem exists_of_ofValue {key : Octets 16} {t : UInt16} {v : Bytes} {attr : Attribute} {acc acc' : Addresses}
    (hv : v.length < 65536) (h : Attribute.ofValue t v key = .ok attr) (hins : acc.insert attr = .ok acc') :
    ∃ a : ResponseAttr, a.typ = t ∧ a.value key = v ∧ a.toAttribute = attr := by
  unfold Attribute.ofValue at h
  by_cases hxor : t = StunType.xorMappedAddress
  · rw [if_pos hxor] at h
    obtain ⟨s, hs, he⟩ := bind_eq_ok.mp h
    cases he
    obtain ⟨r, ip, port, rfl, rfl⟩ := Attribute.readXorAddress_eq_ok.mp hs
    exact ⟨.address .xorMapped r ip port, hxor.symm, rfl, rfl⟩
  rw [if_neg hxor] at h
  by_cases hmapped : t = StunType.mappedAddress
  · rw [if_pos hmapped] at h
    exact hmapped ▸ exists_of_readAddress .mapped nofun h
  rw [if_neg hmapped] at h
  by_cases hresp : t = StunType.responseAddress
  · -- RESPONSE-ADDRESS stops the loop
    rw [if_pos hresp] at h
    obtain ⟨s, _, he⟩ := bind_eq_ok.mp h
    cases he; cases hins
  rw [if_neg hresp] at h
  by_cases hchanged : t = StunType.changedAddress
  · rw [if_pos hchanged] at h
    exact hchanged ▸ exists_of_readAddress .changed nofun h
  rw [if_neg hchanged] at h
  by_cases hsource : t = StunType.sourceAddress
  · rw [if_pos hsource] at h
    exact hsource ▸ exists_of_readAddress .source nofun h
  rw [if_neg hsource] at h
  by_cases hrefl : t = StunType.reflectedFrom
  · rw [if_pos hrefl] at h
    exact hrefl ▸ exists_of_readAddress .reflectedFrom nofun h
  rw [if_neg hrefl] at h
  by_cases hint : t = StunType.messageIntegrity
  · rw [if_pos hint] at h
    by_cases hl : v.length ≠ 20
    · rw [if_pos hl] at h; cases h
    · rw [if_neg hl] at h
      obtain ⟨hash, hh, he⟩ := bind_eq_ok.mp h
      cases he
      rw [copyFromSlice, dif_pos (not_not.mp hl)] at hh
      cases hh
      exact ⟨.messageIntegrity _, hint.symm, rfl, rfl⟩
  rw [if_neg hint] at h
  by_cases hchange : t = StunType.changeRequest
  · -- so does CHANGE-REQUEST
    rw [if_pos hchange] at h
    obtain ⟨r, _, he⟩ := bind_eq_ok.mp h
    cases he; cases hins
  rw [if_neg hchange] at h
  by_cases hle : t ≤ 0x7fff
  · rw [if_pos hle] at h; cases h
  · rw [if_neg hle] at h
    cases h
    have htyp : (0x8000 : UInt16) ≤ t := by
      have := UInt16.not_le.mp hle
      exact UInt16.le_iff_toNat_le.mpr (Nat.succ_le_of_lt (UInt16.lt_iff_toNat_lt.mp this))
    exact ⟨.optional t v htyp hv, rfl, rfl, rfl⟩

end ResponseAttr

/-! ## The attribute loop -/

namespace Attribute

theorem okOr_eq_ok {α : Type} {o : Option α} {e : Fault} {a : α} : okOr o e = .ok a ↔ o = some a := by
  cases o <;> simp [okOr]

theorem slice_eq_ok {bytes b : Bytes} {start stop : Nat} :
    slice bytes start stop = .ok b ↔
      start ≤ stop ∧ stop ≤ bytes.length ∧ b = (bytes.drop start).take (stop - start) := by
  unfold slice
  rw [List.drop_take]
  split <;> simp_all [eq_comm]

theorem padded_eq (n : Nat) : (n + 3) / 4 * 4 = n + (4 - n % 4) % 4 := by omega

/-- `Attribute::read` takes one type, length, value and padding off the rest of the buffer. -/
theorem read_sound {c c' : Cursor} {key : Octets 16} {attr : Attribute} (h : read c key = .ok (attr, c')) :
    ∃ typ value padding, value.length < 65536 ∧ padding.length = (4 - value.length % 4) % 4 ∧
      ofValue typ value key = .ok attr ∧
      c.rest = be16 typ ++ be16 (UInt16.ofNat value.length) ++ value ++ padding ++ c'.rest := by
  obtain ⟨⟨typ, c₁⟩, h₁, h⟩ := bind_eq_ok.mp h
  obtain ⟨⟨len, c₂⟩, h₂, h⟩ := bind_eq_ok.mp h
  obtain ⟨paddedLength, hpl, h⟩ := bind_eq_ok.mp h
  obtain ⟨stop, hstop, h⟩ := bind_eq_ok.mp h
  obtain ⟨paddedEnd, hpad, h⟩ := bind_eq_ok.mp h
  obtain ⟨hr₁, _⟩ := Cursor.readU16_eq_ok.mp h₁
  obtain ⟨hr₂, _⟩ := Cursor.readU16_eq_ok.mp h₂
  obtain ⟨l, hl, rfl⟩ := Option.map_eq_some_iff.mp (okOr_eq_ok.mp hpl)
  obtain ⟨_, rfl⟩ := checkedAdd_eq_some.mp hl
  obtain ⟨_, rfl⟩ := checkedAdd_eq_some.mp (okOr_eq_ok.mp hstop)
  obtain ⟨_, rfl⟩ := checkedAdd_eq_some.mp (okOr_eq_ok.mp hpad)
  split at h
  · cases h
  · rename_i hend
    obtain ⟨value, hv, h⟩ := bind_eq_ok.mp h
    obtain ⟨a, ha, h⟩ := bind_eq_ok.mp h
    cases h
    obtain ⟨_, _, hv⟩ := slice_eq_ok.mp hv
    rw [Nat.add_sub_cancel_left] at hv
    rw [padded_eq] at hend ⊢
    have hlen : value.length = len.toNat := by
      rw [hv, List.length_take, List.length_drop]; omega
    have hrest : c₂.rest = value ++ ((c₂.rest.drop len.toNat).take ((4 - len.toNat % 4) % 4) ++
        c₂.rest.drop (len.toNat + (4 - len.toNat % 4) % 4)) := by
      rw [← List.drop_drop, List.take_append_drop, hv]
      exact (List.take_append_drop _ _).symm
    refine ⟨typ, value, (c₂.rest.drop len.toNat).take ((4 - len.toNat % 4) % 4), ?_, ?_, ha, ?_⟩
    · rw [hlen]; exact len.toNat_lt
    · rw [List.length_take, List.length_drop, hlen, Cursor.rest, List.length_drop]; omega
    · rw [hlen, UInt16.ofNat_toNat, hr₁, hr₂]
      simp only [List.append_assoc, List.append_cancel_left_eq]
      rw [Cursor.rest_add]
      exact hrest

theorem read_complete {c c' : Cursor} (hbuf : c.buf.length < 2 ^ 64) {key : Octets 16} {attr : Attribute}
    (typ : UInt16) (value padding : Bytes) (hv : value.length < 65536)
    (hp : padding.length = (4 - value.length % 4) % 4) (ha : ofValue typ value key = .ok attr)
    (hr : c.rest = be16 typ ++ be16 (UInt16.ofNat value.length) ++ value ++ padding ++ c'.rest)
    (hc : c' = { c with pos := c.pos + 4 + value.length + padding.length }) : read c key = .ok (attr, c') := by
  have hlen : (UInt16.ofNat value.length).toNat = value.length := by
    rw [UInt16.toNat_ofNat', Nat.mod_eq_of_lt hv]
  have hroom : c.pos + 4 + value.length + padding.length ≤ c.buf.length := by
    have := congrArg List.length hr
    simp only [Cursor.rest, List.length_drop, List.length_append, BigEndian.length_be16] at this
    omega
  simp only [List.append_assoc] at hr
  have h₁ : c.readU16 = .ok (typ, { c with pos := c.pos + 2 }) :=
    Cursor.readU16_eq_ok.mpr ⟨by rw [Cursor.rest_add, hr]; rfl, rfl⟩
  have h₂ : ({ c with pos := c.pos + 2 } : Cursor).readU16 =
      .ok (UInt16.ofNat value.length, { c with pos := c.pos + 4 }) := by
    refine Cursor.readU16_eq_ok.mpr ⟨?_, rfl⟩
    rw [Cursor.rest_add, Cursor.rest_add, hr]
    rfl
  have hs : slice c.buf (c.pos + 4) (c.pos + 4 + value.length) = .ok value := by
    refine slice_eq_ok.mpr ⟨by omega, by omega, ?_⟩
    rw [Nat.add_sub_cancel_left, ← List.drop_drop]
    show value = (c.rest.drop 4).take value.length
    rw [hr]
    exact List.take_left.symm
  have hpad : c.pos + 4 + (value.length + 3) / 4 * 4 = c.pos + 4 + value.length + padding.length := by
    rw [padded_eq, hp]; omega
  have hc₁ : checkedAdd value.length 3 = some (value.length + 3) := checkedAdd_eq_some.mpr ⟨by omega, rfl⟩
  have hc₂ : checkedAdd (c.pos + 4) value.length = some (c.pos + 4 + value.length) :=
    checkedAdd_eq_some.mpr ⟨by omega, rfl⟩
  have hc₃ : checkedAdd (c.pos + 4) ((value.length + 3) / 4 * 4) = some (c.pos + 4 + value.length + padding.length) :=
    checkedAdd_eq_some.mpr ⟨by omega, hpad.symm⟩
  unfold read
  simp only [h₁, h₂, hlen, bind, Except.bind, hc₁, Option.map_some, okOr, hc₂, hc₃]
  rw [if_neg (by omega), hs]
  simp only [ha, hc]
  rfl

end Attribute

namespace StunCodec

theorem rest_eq_nil {c : Cursor} : c.rest = [] ↔ ¬ c.pos < c.buf.length := by
  rw [Cursor.rest, List.drop_eq_nil_iff, Nat.not_lt]

theorem readAttributes_step {c : Cursor} (hpos : c.pos < c.buf.length) {key : Octets 16} {acc acc'' : Addresses} :
    readAttributes c key acc = .ok acc'' ↔
      ∃ attr c' acc', Attribute.read c key = .ok (attr, c') ∧ acc.insert attr = .ok acc' ∧
        readAttributes c' key acc' = .ok acc'' := by
  rw [readAttributes, if_pos hpos]
  split
  · rename_i attr c' hread
    rw [hread]
    cases hins : acc.insert attr with
    | ok acc' =>
      constructor
      · intro h
        exact ⟨attr, c', acc', rfl, hins, h⟩
      · rintro ⟨_, _, _, hr, hi, h⟩
        cases hr
        rw [hins] at hi; cases hi
        exact h
    | error e =>
      constructor
      · intro h; cases h
      · rintro ⟨_, _, _, hr, hi, _⟩
        cases hr
        rw [hins] at hi; cases hi
  · rename_i hread
    rw [hread]
    constructor
    · intro h; cases h
    · rintro ⟨_, _, _, hr, _⟩; cases hr
  · rename_i hread
    rw [hread]
    constructor
    · intro h; cases h
    · rintro ⟨_, _, _, hr, _⟩; cases hr

theorem readAttributes_sound {key : Octets 16} (n : Nat) : ∀ {c : Cursor} {acc acc' : Addresses},
    c.buf.length - c.pos = n → readAttributes c key acc = .ok acc' →
    ∃ ts : List Tlv, c.rest = ts.flatMap (Tlv.bytes key) ∧ acc' = ts.foldl (fun acc t => t.attr.addTo acc) acc := by
  induction n using Nat.strongRecOn with
  | _ n ih =>
    intro c acc acc' hn h
    by_cases hpos : c.pos < c.buf.length
    · obtain ⟨attr, c', acc₁, hread, hins, hloop⟩ := (readAttributes_step hpos).mp h
      obtain ⟨hb, hadv, hle⟩ := Attribute.read_advances hread
      obtain ⟨typ, value, padding, hv, hp, hval, hrest⟩ := Attribute.read_sound hread
      obtain ⟨a, rfl, rfl, rfl⟩ := ResponseAttr.exists_of_ofValue hv hval hins
      rw [a.length_value] at hp hrest
      rw [a.insert_toAttribute] at hins
      cases hins
      obtain ⟨ts, hts, hacc⟩ := ih (c'.buf.length - c'.pos) (by rw [hb]; omega) rfl hloop
      refine ⟨⟨a, padding, hp⟩ :: ts, ?_, hacc⟩
      rw [hrest, hts]
      simp [Tlv.bytes]
    · rw [readAttributes, if_neg hpos] at h
      cases h
      exact ⟨[], rest_eq_nil.mpr hpos, rfl⟩

theorem readAttributes_complete {key : Octets 16} (ts : List Tlv) : ∀ {c : Cursor} {acc : Addresses},
    c.buf.length < 2 ^ 64 → c.rest = ts.flatMap (Tlv.bytes key) →
    readAttributes c key acc = .ok (ts.foldl (fun acc t => t.attr.addTo acc) acc) := by
  induction ts with
  | nil =>
    intro c acc _ hr
    rw [readAttributes, if_neg (rest_eq_nil.mp hr)]
    rfl
  | cons t ts ih =>
    intro c acc hbuf hr
    rw [List.flatMap_cons] at hr
    have hpos : c.pos < c.buf.length := by
      by_contra hno
      rw [rest_eq_nil.mpr hno] at hr
      have := congrArg List.length hr
      simp [Tlv.bytes] at this
      omega
    have hlen := t.attr.length_value key
    have hrest : ({ c with pos := c.pos + (4 + t.attr.length + t.padding.length) } : Cursor).rest =
        ts.flatMap (Tlv.bytes key) := by
      rw [Cursor.rest_add, hr]
      exact List.drop_left' (by simp [Tlv.bytes, hlen]; omega)
    refine (readAttributes_step hpos).mpr ⟨t.attr.toAttribute, _, t.attr.addTo acc, ?_, t.attr.insert_toAttribute acc,
      ih (c := { c with pos := c.pos + (4 + t.attr.length + t.padding.length) }) hbuf hrest⟩
    refine Attribute.read_complete hbuf t.attr.typ (t.attr.value key) t.padding ?_ ?_ (t.attr.ofValue_value key) ?_ ?_
    · rw [hlen]; exact t.attr.length_lt
    · rw [hlen]; exact t.aligned
    · rw [hr, hrest, hlen]; rfl
    · rw [hlen]; simp only [Cursor.mk.injEq, true_and]; omega

/-! ## The first address of each kind -/

theorem firstAddress_cons (kinds : List AddressKind) (t : Tlv) (ts : List Tlv) :
    firstAddress kinds (t :: ts) = (t.attr.addressOf kinds).or (firstAddress kinds ts) := by
  unfold firstAddress
  rw [List.findSome?_cons]
  cases t.attr.addressOf kinds <;> rfl

theorem foldl_addTo (ts : List Tlv) (acc : Addresses) :
    ts.foldl (fun acc t => t.attr.addTo acc) acc =
      ⟨acc.mapped.or (firstAddress [.mapped, .xorMapped] ts), acc.source.or (firstAddress [.source] ts),
        acc.changed.or (firstAddress [.changed] ts), acc.reflected.or (firstAddress [.reflectedFrom] ts)⟩ := by
  induction ts generalizing acc with
  | nil => simp [firstAddress]
  | cons t ts ih =>
    rw [List.foldl_cons, ih]
    simp only [ResponseAttr.addTo, firstAddress_cons, Option.or_assoc]

theorem readBindingResponse_eq_ok {c : Cursor} (hbuf : c.buf.length < 2 ^ 64) {key : Octets 16} {r : BindResponse} :
    readBindingResponse c key = .ok r ↔ ∃ ts : List Tlv, c.rest = ts.flatMap (Tlv.bytes key) ∧
      firstAddress [.mapped, .xorMapped] ts = some r.mappedAddress ∧
      firstAddress [.source] ts = r.sourceAddress ∧ firstAddress [.changed] ts = r.changedAddress ∧
      firstAddress [.reflectedFrom] ts = r.reflectedFrom := by
  unfold readBindingResponse
  refine ⟨fun h => ?_, fun ⟨ts, hts, hm, hs, hc, hf⟩ => ?_⟩
  · obtain ⟨acc, hacc, h⟩ := bind_eq_ok.mp h
    obtain ⟨mapped, hm, h⟩ := bind_eq_ok.mp h
    cases h
    obtain ⟨ts, hts, rfl⟩ := readAttributes_sound _ rfl hacc
    rw [foldl_addTo] at hm
    exact ⟨ts, hts, Attribute.okOr_eq_ok.mp hm, by rw [foldl_addTo]; rfl, by rw [foldl_addTo]; rfl,
      by rw [foldl_addTo]; rfl⟩
  · rw [readAttributes_complete ts hbuf hts, foldl_addTo, hm, hs, hc, hf]
    rfl

/-! ## Whole messages -/

theorem be64_cookieWord : be64 cookieWord = stunCookie := by decide

theorem be16_bindingResponse : be16 StunType.bindingResponse = [0x01, 0x01] := by decide

theorem readHeader_eq_ok {msg : Bytes} {hd : Header} :
    readHeader msg = .ok hd ↔ ∃ len body, hd.messageLength = len.toNat ∧
      msg = be16 hd.msgType ++ be16 len ++ be64 hd.transId1 ++ be64 hd.transId2 ++ body := by
  unfold readHeader
  refine ⟨fun h => ?_, fun ⟨len, body, hlen, hmsg⟩ => ?_⟩
  · obtain ⟨⟨typ, c₁⟩, h₁, h⟩ := bind_eq_ok.mp h
    obtain ⟨⟨len, c₂⟩, h₂, h⟩ := bind_eq_ok.mp h
    obtain ⟨⟨id₁, c₃⟩, h₃, h⟩ := bind_eq_ok.mp h
    obtain ⟨⟨id₂, c₄⟩, h₄, h⟩ := bind_eq_ok.mp h
    cases h
    have hr := (Cursor.readU16_eq_ok.mp h₁).1
    rw [(Cursor.readU16_eq_ok.mp h₂).1, (Cursor.readU64_eq_ok.mp h₃).1, (Cursor.readU64_eq_ok.mp h₄).1] at hr
    refine ⟨len, c₄.rest, rfl, ?_⟩
    simp only [List.append_assoc]
    exact hr
  · simp only [List.append_assoc] at hmsg
    have h₁ : (Cursor.new msg).readU16 = .ok (hd.msgType, ⟨msg, 2⟩) :=
      Cursor.readU16_eq_ok.mpr ⟨by rw [hmsg]; rfl, rfl⟩
    have h₂ : (⟨msg, 2⟩ : Cursor).readU16 = .ok (len, ⟨msg, 4⟩) :=
      Cursor.readU16_eq_ok.mpr ⟨by rw [hmsg]; rfl, rfl⟩
    have h₃ : (⟨msg, 4⟩ : Cursor).readU64 = .ok (hd.transId1, ⟨msg, 12⟩) :=
      Cursor.readU64_eq_ok.mpr ⟨by rw [hmsg]; rfl, rfl⟩
    have h₄ : (⟨msg, 12⟩ : Cursor).readU64 = .ok (hd.transId2, ⟨msg, 20⟩) :=
      Cursor.readU64_eq_ok.mpr ⟨by rw [hmsg]; rfl, rfl⟩
    simp only [bind, Except.bind, h₁, h₂, h₃, h₄, ← hlen]
    rfl

theorem slice_body {header body msg : Bytes} (hmsg : msg = header ++ body) (hh : header.length = 20) :
    slice msg 20 msg.length = .ok body := by
  have hlen : msg.length = 20 + body.length := by rw [hmsg, List.length_append, hh]
  refine Attribute.slice_eq_ok.mpr ⟨by omega, Nat.le_refl _, ?_⟩
  rw [hmsg, List.drop_left' hh, List.take_of_length_le]
  rw [← hmsg]
  omega

theorem fillXorKey_eq (id₁ id₂ : UInt64) : fillXorKey id₁ id₂ = .ok ⟨be64 id₁ ++ be64 id₂, by simp⟩ := by
  have hcopy (x : UInt64) : copyFromSlice 8 (be64 x) = .ok ⟨be64 x, by simp⟩ :=
    Attribute.copyFromSlice_toList ⟨be64 x, by simp⟩
  rw [fillXorKey, hcopy, hcopy]
  rfl

/-- `decode_const` on a datagram that holds a whole header. -/
theorem decodeConst_header (expected : UInt64) {typ len : UInt16} {id₁ id₂ : UInt64} {body msg : Bytes}
    (hmsg : msg = be16 typ ++ be16 len ++ be64 id₁ ++ be64 id₂ ++ body) :
    decodeConst expected msg =
      if id₂ ≠ expected then .ok none
      else if id₁ ≠ cookieWord then .error (.error .invalidData "Invalid transaction ID!")
      else if body.length ≠ len.toNat then
        .error (.error .invalidData "STUN message length does not match the datagram")
      else if typ = StunType.bindingResponse then do
        return some (.bind (← readBindingResponse (.new body) ⟨be64 id₁ ++ be64 id₂, by simp⟩))
      else if typ = StunType.bindingError then .error (.error .invalidData "BINDING_ERROR unimplemented")
      else if typ = StunType.sharedSecretResponse then
        .error (.error .invalidData "SHARED_SECRET_RESPONSE unimplemented")
      else if typ = StunType.sharedSecretError then
        .error (.error .invalidData "SHARED_SECRET_ERROR unimplemented")
      else .error (.error .invalidData "Unknown message type!") := by
  have hhead : readHeader msg = .ok ⟨typ, len.toNat, id₁, id₂⟩ := readHeader_eq_ok.mpr ⟨len, body, rfl, hmsg⟩
  have hadd : checkedAdd 20 len.toNat = some (20 + len.toNat) := by
    have := len.toNat_lt
    exact Attribute.checkedAdd_eq_some.mpr ⟨by omega, rfl⟩
  have hlen : msg.length = 20 + body.length := by rw [hmsg]; simp; omega
  have hneq : msg.length ≠ 20 + len.toNat ↔ body.length ≠ len.toNat := by omega
  have hbody := slice_body hmsg (by simp)
  unfold decodeConst
  rw [hhead]
  simp only [bind, Except.bind, hadd, okOr, hbody, fillXorKey_eq, hneq]

/-- What a datagram with an answer in it looks like. -/
theorem decodeConst_eq_some {id : UInt64} {msg : Bytes} {resp : Response} (h : decodeConst id msg = .ok (some resp)) :
    ∃ len body r, msg = be16 StunType.bindingResponse ++ be16 len ++ be64 cookieWord ++ be64 id ++ body ∧
      body.length = len.toNat ∧ readBindingResponse (.new body) ⟨be64 cookieWord ++ be64 id, by simp⟩ = .ok r ∧
      resp = .bind r := by
  obtain ⟨⟨typ, _, id₁, id₂⟩, hhead, _⟩ := bind_eq_ok.mp h
  obtain ⟨len, body, _, hmsg⟩ := readHeader_eq_ok.mp hhead
  rw [decodeConst_header id hmsg] at h
  by_cases hid : id₂ ≠ id
  · rw [if_pos hid] at h; cases h
  rw [if_neg hid] at h
  by_cases hcookie : id₁ ≠ cookieWord
  · rw [if_pos hcookie] at h; cases h
  rw [if_neg hcookie] at h
  by_cases hlen : body.length ≠ len.toNat
  · rw [if_pos hlen] at h; cases h
  rw [if_neg hlen] at h
  by_cases htyp : typ = StunType.bindingResponse
  · rw [if_pos htyp] at h
    obtain rfl := not_not.mp hid
    obtain rfl := not_not.mp hcookie
    subst htyp
    obtain ⟨r, hr, h⟩ := bind_eq_ok.mp h
    cases h
    exact ⟨len, body, r, hmsg, not_not.mp hlen, hr, rfl⟩
  · rw [if_neg htyp] at h
    split at h
    · cases h
    split at h
    · cases h
    split at h <;> cases h

/-- **The decoder accepts exactly the grammar.** -/
theorem decodeConst_eq_bind (id : UInt64) (msg : Bytes) (r : BindResponse) :
    decodeConst id msg = .ok (some (.bind r)) ↔ ∃ ts : List Tlv, IsBindResponse id ts msg ∧
      firstAddress [.mapped, .xorMapped] ts = some r.mappedAddress ∧
      firstAddress [.source] ts = r.sourceAddress ∧ firstAddress [.changed] ts = r.changedAddress ∧
      firstAddress [.reflectedFrom] ts = r.reflectedFrom := by
  have hkey : ∀ h, (⟨be64 cookieWord ++ be64 id, h⟩ : Octets 16) = responseKey id := by
    intro h
    refine Octets.ext ?_
    show be64 cookieWord ++ be64 id = stunCookie ++ be64 id
    rw [be64_cookieWord]
  refine ⟨fun h => ?_, fun ⟨ts, ⟨len, hlen, hmsg⟩, hfirst⟩ => ?_⟩
  · obtain ⟨len, body, r', hmsg, hlen, hr, he⟩ := decodeConst_eq_some h
    cases he
    rw [hkey] at hr
    have hbuf : body.length < 2 ^ 64 := by
      have := len.toNat_lt
      omega
    obtain ⟨ts, hts, hfirst⟩ := (readBindingResponse_eq_ok hbuf).mp hr
    have hts : body = ts.flatMap (Tlv.bytes (responseKey id)) := hts
    refine ⟨ts, ⟨len, by rw [← hts]; exact hlen.symm, ?_⟩, hfirst⟩
    simp only [hmsg, ← hts, be64_cookieWord, be16_bindingResponse]
  · have hmsg' : msg = be16 StunType.bindingResponse ++ be16 len ++ be64 cookieWord ++ be64 id ++
        ts.flatMap (Tlv.bytes (responseKey id)) := by
      rw [be64_cookieWord, be16_bindingResponse]; exact hmsg
    have hbuf : (ts.flatMap (Tlv.bytes (responseKey id))).length < 2 ^ 64 := by
      have := len.toNat_lt
      omega
    have hr := (readBindingResponse_eq_ok (c := .new (ts.flatMap (Tlv.bytes (responseKey id)))) hbuf).mpr
      ⟨ts, rfl, hfirst⟩
    rw [decodeConst_header id hmsg', if_neg (by simp), if_neg (by simp), if_neg (by simp [hlen]), if_pos rfl, hkey, hr]
    rfl

end StunCodec

end P2pTunnler
