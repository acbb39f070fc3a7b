import P2pTunnler.Probe

/-!
# DHT records

`message.rs` and `crypto.rs`. The JSON text, the Base64 alphabet, the cipher
and the key agreement belong to third-party crates and are parameters; what
serde derives for `Message` and the layout of an encrypted value are not.
-/

namespace P2pTunnler

/-! ## Messages -/

structure Control where
  probeToken : String
  deriving DecidableEq

structure Message where
  timestamp : Int
  ipAddrList : List SocketAddr
  control : Option Control
  deriving DecidableEq

inductive Json
  | null
  | bool (b : Bool)
  | number (mantissa : Int) (exponent : Nat)
  | string (s : String)
  | array (items : List Json)
  | object (members : List (String × Json))

/-- The text and scalar encodings of `serde_json`, `serde` and `base64`. -/
structure Encodings where
  jsonParse : Bytes → Option Json
  jsonBytes : Message → Option Bytes
  systemTime : Json → Option Int
  socketAddr : Json → Option SocketAddr
  base64Encode : Bytes → String
  base64Decode : String → Option Bytes

namespace Json

-- a known field that occurs twice is an error, a missing one is `some none`
def field (members : List (String × Json)) (name : String) : Option (Option Json) :=
  match members.filter fun m => m.1 == name with
  | [] => some none
  | [m] => some (some m.2)
  | _ => none

def toStr : Json → Option String
  | string s => some s
  | _ => none

def toControl : Json → Option Control
  | object members =>
    match field members "probe_token" with
    | some (some v) => v.toStr.map Control.mk
    | _ => none
  | array [v] => v.toStr.map Control.mk
  | _ => none

def toOptionControl : Json → Option (Option Control)
  | null => some none
  | v => v.toControl.map some

end Json

namespace Encodings

variable (E : Encodings)

def addrList : Json → Option (List SocketAddr)
  | .array items => items.mapM E.socketAddr
  | _ => none

def messageOf (timestamp ipAddrList : Json) (control : Option Json) : Option Message := do
  let t ← E.systemTime timestamp
  let l ← E.addrList ipAddrList
  let c ← match control with
    | none => some none
    | some v => v.toOptionControl
  return ⟨t, l, c⟩

-- unknown members are ignored; a struct may also come as the array of its fields
def message : Json → Option Message
  | .object members =>
    match Json.field members "timestamp", Json.field members "ip_addr_list", Json.field members "control" with
    | some (some t), some (some l), some c => E.messageOf t l c
    | _, _, _ => none
  | .array [t, l, c] => E.messageOf t l (some c)
  | _ => none

def parseDhtMessage (plaintext : Bytes) : Option Message := (E.jsonParse plaintext).bind E.message

def decodeToken (token : String) : Option Token := (E.base64Decode token).bind (Octets.tryFrom 16)

def remoteToken (m : Message) : Option Token := m.control.bind fun control => E.decodeToken control.probeToken

end Encodings

/-! ## Encryption -/

abbrev PublicKey := Octets 32
abbrev SecretKey := Octets 32
abbrev Nonce := Octets 24

/-- `crypto_box`: key agreement and the authenticated cipher under a shared key `κ`. -/
structure SalsaBox (κ : Type) where
  publicKey : SecretKey → PublicKey
  new : PublicKey → SecretKey → κ
  encrypt : κ → Nonce → Bytes → Option Bytes
  decrypt : κ → Nonce → Bytes → Option Bytes

structure SalsaBox.Lawful {κ : Type} (B : SalsaBox κ) : Prop where
  agree : ∀ a b, B.new (B.publicKey b) a = B.new (B.publicKey a) b
  decrypt_iff : ∀ k n c p, B.decrypt k n c = some p ↔ B.encrypt k n p = some c
  key_unique : ∀ k k' n p p' c, B.encrypt k n p = some c → B.encrypt k' n p' = some c → k = k'

def nonceBytes : Nat := 24

namespace CryptoBox

section
variable {κ : Type} (B : SalsaBox κ)

def encryptWithNonce (k : κ) (plaintext : Bytes) (nonce : Nonce) : Option Bytes :=
  (B.encrypt k nonce plaintext).map fun ciphertext => nonce.toList ++ ciphertext

def decrypt (k : κ) (value : Bytes) : Option Bytes :=
  if h : value.length < nonceBytes then none
  else
    B.decrypt k ⟨value.take nonceBytes, by rw [List.length_take]; exact Nat.min_eq_left (Nat.le_of_not_lt h)⟩
      (value.drop nonceBytes)

variable {B}

theorem decrypt_append (k : κ) (nonce : Nonce) (c : Bytes) :
    decrypt B k (nonce.toList ++ c) = B.decrypt k nonce c := by
  have ht : (nonce.toList ++ c).take nonceBytes = nonce.toList := by
    rw [List.take_append_of_le_length (by simp [nonceBytes]), List.take_of_length_le (by simp [nonceBytes])]
  have hd : (nonce.toList ++ c).drop nonceBytes = c := by
    rw [List.drop_append, List.drop_eq_nil_of_le (by simp [nonceBytes])]; simp [nonceBytes]
  unfold decrypt
  rw [dif_neg (by simp [nonceBytes]), hd]
  congr 1
  exact Octets.ext ht

/-- An encrypted value decrypts under the key it was encrypted with and under no other. -/
theorem decrypt_encrypted (hB : B.Lawful) {k k' : κ} {p p' value : Bytes} {nonce : Nonce}
    (he : encryptWithNonce B k p nonce = some value) : decrypt B k' value = some p' ↔ k' = k ∧ p' = p := by
  obtain ⟨c, hc, rfl⟩ := Option.map_eq_some_iff.mp he
  rw [decrypt_append]
  constructor
  · intro hd
    obtain rfl := hB.key_unique k' k nonce p' p c ((hB.decrypt_iff _ _ _ _).mp hd) hc
    rw [(hB.decrypt_iff _ _ _ _).mpr hc] at hd
    exact ⟨rfl, (Option.some.inj hd).symm⟩
  · rintro ⟨rfl, rfl⟩
    exact (hB.decrypt_iff _ _ _ _).mpr hc

end

end CryptoBox

/-! ## A concrete instance

Four records with their JSON texts, and a cipher that tags the plaintext
with the shared key.
-/

def sampleOld : Message := ⟨secs 100, [.testNet 1 10000], none⟩

def sampleFirst : Message := ⟨secs 190, [], some ⟨"BQUFBQUFBQUFBQUFBQUFBQ=="⟩⟩

def sampleNew : Message := ⟨secs 200, [.testNet 2 10000], some ⟨"BQUFBQUFBQUFBQUFBQUFBQ=="⟩⟩

-- `[::ffff:127.0.0.1]:5000`
def mappedLoopback : SocketAddr := .v6 ⟨⟨List.replicate 10 0 ++ [0xff, 0xff, 127, 0, 0, 1], rfl⟩⟩ 5000 0 0

def sampleMapped : Message := ⟨secs 100, [mappedLoopback], none⟩

/-- The text `{"timestamp":{"secs_since_epoch":100,"nanos_since_epoch":0},
"ip_addr_list":["192.0.2.1:10000"]}`. -/
def sampleOldText : Bytes := [
    123, 34, 116, 105, 109, 101, 115, 116, 97, 109, 112, 34, 58, 123, 34, 115, 101, 99, 115, 95, 115, 105, 110, 99,
    101, 95, 101, 112, 111, 99, 104, 34, 58, 49, 48, 48, 44, 34, 110, 97, 110, 111, 115, 95, 115, 105, 110, 99, 101,
    95, 101, 112, 111, 99, 104, 34, 58, 48, 125, 44, 34, 105, 112, 95, 97, 100, 100, 114, 95, 108, 105, 115, 116,
    34, 58, 91, 34, 49, 57, 50, 46, 48, 46, 50, 46, 49, 58, 49, 48, 48, 48, 48, 34, 93, 125]

/-- The text `{"timestamp":{"secs_since_epoch":200,"nanos_since_epoch":0},
"ip_addr_list":["192.0.2.2:10000"],"control":{"probe_token":"BQUFBQUFBQUFBQUFBQUFBQ=="}}`. -/
def sampleNewText : Bytes := [
    123, 34, 116, 105, 109, 101, 115, 116, 97, 109, 112, 34, 58, 123, 34, 115, 101, 99, 115, 95, 115, 105, 110, 99,
    101, 95, 101, 112, 111, 99, 104, 34, 58, 50, 48, 48, 44, 34, 110, 97, 110, 111, 115, 95, 115, 105, 110, 99, 101,
    95, 101, 112, 111, 99, 104, 34, 58, 48, 125, 44, 34, 105, 112, 95, 97, 100, 100, 114, 95, 108, 105, 115, 116,
    34, 58, 91, 34, 49, 57, 50, 46, 48, 46, 50, 46, 50, 58, 49, 48, 48, 48, 48, 34, 93, 44, 34, 99, 111, 110, 116,
    114, 111, 108, 34, 58, 123, 34, 112, 114, 111, 98, 101, 95, 116, 111, 107, 101, 110, 34, 58, 34, 66, 81, 85, 70,
    66, 81, 85, 70, 66, 81, 85, 70, 66, 81, 85, 70, 66, 81, 85, 70, 66, 81, 61, 61, 34, 125, 125]

/-- The text `{"timestamp":{"secs_since_epoch":190,"nanos_since_epoch":0},
"ip_addr_list":[],"control":{"probe_token":"BQUFBQUFBQUFBQUFBQUFBQ=="}}`. -/
def sampleFirstText : Bytes := [
    123, 34, 116, 105, 109, 101, 115, 116, 97, 109, 112, 34, 58, 123, 34, 115, 101, 99, 115, 95, 115, 105, 110,
    99, 101, 95, 101, 112, 111, 99, 104, 34, 58, 49, 57, 48, 44, 34, 110, 97, 110, 111, 115, 95, 115, 105, 110,
    99, 101, 95, 101, 112, 111, 99, 104, 34, 58, 48, 125, 44, 34, 105, 112, 95, 97, 100, 100, 114, 95, 108, 105,
    115, 116, 34, 58, 91, 93, 44, 34, 99, 111, 110, 116, 114, 111, 108, 34, 58, 123, 34, 112, 114, 111, 98, 101,
    95, 116, 111, 107, 101, 110, 34, 58, 34, 66, 81, 85, 70, 66, 81, 85, 70, 66, 81, 85, 70, 66, 81, 85, 70, 66,
    81, 85, 70, 66, 81, 61, 61, 34, 125, 125]

/-- The text `{"timestamp":{"secs_since_epoch":100,"nanos_since_epoch":0},
"ip_addr_list":["[::ffff:127.0.0.1]:5000"]}`. -/
def sampleMappedText : Bytes := [
    123, 34, 116, 105, 109, 101, 115, 116, 97, 109, 112, 34, 58, 123, 34, 115, 101, 99, 115, 95, 115, 105, 110,
    99, 101, 95, 101, 112, 111, 99, 104, 34, 58, 49, 48, 48, 44, 34, 110, 97, 110, 111, 115, 95, 115, 105, 110,
    99, 101, 95, 101, 112, 111, 99, 104, 34, 58, 48, 125, 44, 34, 105, 112, 95, 97, 100, 100, 114, 95, 108, 105,
    115, 116, 34, 58, 91, 34, 91, 58, 58, 102, 102, 102, 102, 58, 49, 50, 55, 46, 48, 46, 48, 46, 49, 93, 58,
    53, 48, 48, 48, 34, 93, 125]

def sampleTime (secs : Int) : Json :=
  .object [("secs_since_epoch", .number secs 0), ("nanos_since_epoch", .number 0 0)]

def sampleEnc : Encodings where
  jsonParse b :=
    if b = sampleOldText then
      some (.object [("timestamp", sampleTime 100), ("ip_addr_list", .array [.string "192.0.2.1:10000"])])
    else if b = sampleNewText then
      some (.object [("timestamp", sampleTime 200), ("ip_addr_list", .array [.string "192.0.2.2:10000"]),
        ("control", .object [("probe_token", .string "BQUFBQUFBQUFBQUFBQUFBQ==")])])
    else if b = sampleFirstText then
      some (.object [("timestamp", sampleTime 190), ("ip_addr_list", .array []),
        ("control", .object [("probe_token", .string "BQUFBQUFBQUFBQUFBQUFBQ==")])])
    else if b = sampleMappedText then
      some (.object [("timestamp", sampleTime 100), ("ip_addr_list", .array [.string "[::ffff:127.0.0.1]:5000"])])
    else none
  jsonBytes m :=
    if m = sampleOld then some sampleOldText
    else if m = sampleNew then some sampleNewText
    else if m = sampleFirst then some sampleFirstText
    else if m = sampleMapped then some sampleMappedText
    else none
  systemTime
    | .object [("secs_since_epoch", .number s 0), ("nanos_since_epoch", .number n 0)] => some (s * 1000000000 + n)
    | _ => none
  socketAddr
    | .string "192.0.2.1:10000" => some (.testNet 1 10000)
    | .string "192.0.2.2:10000" => some (.testNet 2 10000)
    | .string "[::ffff:127.0.0.1]:5000" => some mappedLoopback
    | _ => none
  base64Encode b := if b = List.replicate 16 5 then "BQUFBQUFBQUFBQUFBQUFBQ==" else ""
  base64Decode s := if s == "BQUFBQUFBQUFBQUFBQUFBQ==" then some (List.replicate 16 5) else none

def sampleBox : SalsaBox (Octets 64) where
  publicKey s := s
  new p s := ⟨if p.toList ≤ s.toList then p.toList ++ s.toList else s.toList ++ p.toList, by split <;> simp⟩
  encrypt k _ p := some (k.toList ++ p)
  decrypt k _ c := if c.take 64 = k.toList then some (c.drop 64) else none

theorem sampleBox_new (p s : Octets 32) : (sampleBox.new p s).toList =
    if p.toList ≤ s.toList then p.toList ++ s.toList else s.toList ++ p.toList := rfl

theorem sampleBox_lawful : sampleBox.Lawful where
  agree a b := by
    refine Octets.ext ?_
    rw [sampleBox_new, sampleBox_new]
    show (if b.toList ≤ a.toList then b.toList ++ a.toList else a.toList ++ b.toList) =
      if a.toList ≤ b.toList then a.toList ++ b.toList else b.toList ++ a.toList
    by_cases h : b.toList ≤ a.toList
    · by_cases h' : a.toList ≤ b.toList
      · rw [List.le_antisymm h h']
      · rw [if_pos h, if_neg h']
    · rw [if_neg h, if_pos ((List.le_total _ _).resolve_left h)]
  decrypt_iff k n c p := by
    show (if c.take 64 = k.toList then some (c.drop 64) else none) = some p ↔ some (k.toList ++ p) = some c
    rw [Option.some.injEq]
    refine ⟨fun h => ?_, fun h => ?_⟩
    · split at h
      · rename_i ht
        rw [← ht, ← Option.some.inj h, List.take_append_drop]
      · cases h
    · subst h
      have ht : (k.toList ++ p).take 64 = k.toList := by
        rw [List.take_append_of_le_length (by simp), List.take_of_length_le (by simp)]
      rw [if_pos ht, List.drop_append, List.drop_eq_nil_of_le (by simp)]
      simp
  key_unique k k' n p p' c h h' := by
    have he : k.toList ++ p = k'.toList ++ p' := by rw [Option.some.inj h, Option.some.inj h']
    exact Octets.ext (List.append_inj he (by simp)).1

end P2pTunnler
