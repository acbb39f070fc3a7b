import P2pTunnler.Config
import P2pTunnler.StartupSound
import Mathlib.Data.List.Forall2

/-!
# From generated keys to tunnels

The keys that `generate` leaves in two files come out of the configurations
that cite them unchanged, on every host that has a copy of the file; so two
hosts that cite each other's keys are the two ends of one tunnel.
-/

namespace P2pTunnler

open Files (FileSystem)

theorem exists_related {α β : Type} {R : α → β → Prop} {l : List α} {l' : List β} (h : List.Forall₂ R l l') {a : α}
    (ha : a ∈ l) : ∃ b ∈ l', R a b := by
  obtain ⟨n, hn, rfl⟩ := List.getElem_of_mem ha
  have hn' : n < l'.length := h.length_eq ▸ hn
  exact ⟨l'[n], List.getElem_mem hn', h.get hn hn'⟩

/-! ## Texts and files -/

theorem textOf_textBytes (text : String) : textOf (textBytes text) = some text := by
  have hvalid : text.toUTF8.IsValidUTF8 := text.isValidUTF8
  show String.fromUTF8? text.toUTF8 = some text
  rw [String.fromUTF8?, dif_pos hvalid]
  exact congrArg some (String.toByteArray_inj.mp rfl)

theorem isPrefixOf?_append (l r : List Char) : l.isPrefixOf? (l ++ r) = some r := by
  induction l with
  | nil => rfl
  | cons c l ih => simp [List.isPrefixOf?, ih]

theorem stripPrefix_append (start text : String) : stripPrefix start (start ++ text) = some text := by
  simp [stripPrefix, isPrefixOf?_append]

section
variable {π ρ : Type}

/-- The text stands for what the file at `path` holds in `fs`: it is that text, or it names a copy. -/
inductive Disk.Cites (D : Disk π) (fs : FileSystem ρ) (path : String) : String → Prop
  | inline {text : String} (hn : stripPrefix "file:" text = none) (hr : Files.read fs path = some (textBytes text)) :
    Cites D fs path text
  | file {copy : String} (hp : D.readable copy = true) (hr : Files.read D.fs copy = Files.read fs path) :
    Cites D fs path ("file:" ++ copy)

theorem Disk.Cites.loads {D : Disk π} {fs : FileSystem ρ} {path data text : String} (h : D.Cites fs path data)
    (hf : Files.read fs path = some (textBytes text)) : D.transformFileToString data = .ok text := by
  cases h with
  | inline hn hr =>
    have hbytes := Option.some.inj (hr.symm.trans hf)
    rw [textBytes_inj hbytes] at hn ⊢
    simp only [Disk.transformFileToString, hn]
  | file hp hr =>
    rw [hf] at hr
    simp only [Disk.transformFileToString, stripPrefix_append, Disk.readToString, hp, if_true, hr, Option.bind_some,
      textOf_textBytes, context]

end

/-! ## Generated keys -/

/-- A pair of keys that `generate` wrote to two files. -/
structure StoredPair {κ : Type} (ρ : Type) [DecidableEq ρ] (E : Encodings) (B : SalsaBox κ) where
  key : SecretKey
  flags : GenFlags
  os : Outcomes
  before : FileSystem ρ
  after : FileSystem ρ
  out : Bytes
  path : String
  publicPath : String
  path_eq : flags.path = some path
  publicPath_eq : flags.publicPath = some publicPath
  apart : ¬before.SameFile publicPath path
  generated : generate E B key flags os before = (.ok (), after, out)

section
variable {κ π ρ : Type} [DecidableEq ρ] {K : KeyTexts} {B : SalsaBox κ}

theorem StoredPair.stored (g : StoredPair ρ K.enc B) (hb : ∀ b, K.enc.base64Decode (K.enc.base64Encode b) = some b) :
    StoresPair K.enc B g.key g.flags g.before g.after := by
  have hfs := generate_files g.generated g.path_eq g.publicPath_eq
  rw [write_two g.apart] at hfs
  exact storesPair_twoFiles hb g.path_eq g.publicPath_eq g.apart hfs

theorem decodeBase64Key_ok (hb : ∀ b, K.enc.base64Decode (K.enc.base64Encode b) = some b) (key : Octets 32) :
    K.decodeBase64Key (K.enc.base64Encode key.toList) = .ok key := by
  have ht : Octets.tryFrom 32 key.toList = some key := Octets.tryFrom_eq_some.mpr rfl
  simp only [KeyTexts.decodeBase64Key, hb, ht]

/-! ## Loading -/

variable {ι : Type} (pairs : ι → StoredPair ρ K.enc B)

def PeerCites (D : Disk π) (peer : Peer) (j : ι) : Prop := D.Cites (pairs j).after (pairs j).publicPath peer.publicKey

/-- A tunnel file for the secret key of one pair and the public keys of some. -/
def TunnelCites (D : Disk π) (tunnel : Except String P2PConnection) (keys : ι × List ι) : Prop :=
  ∃ c, tunnel = .ok c ∧ D.Cites (pairs keys.1).after (pairs keys.1).path c.secretKey ∧
    List.Forall₂ (PeerCites pairs D) c.peers keys.2

def PeerHolds (peer : Peer) (j : ι) : Prop := peer.publicKey = K.enc.publicKeyText (B.publicKey (pairs j).key)

def ConnectionHolds (c : P2PConnection) (keys : ι × List ι) : Prop :=
  c.secretKey = K.enc.base64Encode (pairs keys.1).key.toList ∧ List.Forall₂ (PeerHolds pairs) c.peers keys.2

variable {pairs} {D : Disk π} (hb : ∀ b, K.enc.base64Decode (K.enc.base64Encode b) = some b)

include hb

theorem transformPeers_ok {peers : List Peer} {js : List ι} (h : List.Forall₂ (PeerCites pairs D) peers js) :
    ∃ peers', D.transformPeers peers = .ok peers' ∧ List.Forall₂ (PeerHolds pairs) peers' js := by
  induction h with
  | nil => exact ⟨[], rfl, .nil⟩
  | @cons peer j peers js hpeer _ ih =>
    obtain ⟨peers', hok, hholds⟩ := ih
    have hstored := ((pairs j).stored hb).pub _ (pairs j).publicPath_eq
    have hload := hpeer.loads (Files.read_file hstored)
    refine ⟨{ peer with publicKey := K.enc.publicKeyText (B.publicKey (pairs j).key) } :: peers', ?_, .cons rfl hholds⟩
    simp only [Disk.transformPeers, hload, hok, Except.map]

theorem loadConnection_ok {tunnel : Except String P2PConnection} {keys : ι × List ι}
    (h : TunnelCites pairs D tunnel keys) : ∃ c, D.loadConnection tunnel = .ok c ∧ ConnectionHolds pairs c keys := by
  obtain ⟨c, rfl, hsecret, hpeers⟩ := h
  obtain ⟨peers, hok, hholds⟩ := transformPeers_ok hb hpeers
  have hstored := ((pairs keys.1).stored hb).secret _ (pairs keys.1).path_eq
  have hload := hsecret.loads (Files.read_file hstored)
  refine ⟨⟨K.enc.base64Encode (pairs keys.1).key.toList, peers⟩, ?_, rfl, hholds⟩
  simp only [Disk.loadConnection, hload, hok, Except.map]

theorem loadConnections_ok {tunnels : List (Except String P2PConnection)} {keys : List (ι × List ι)}
    (h : List.Forall₂ (TunnelCites pairs D) tunnels keys) :
    ∃ connections, D.loadConnections tunnels = .ok connections ∧
      List.Forall₂ (ConnectionHolds pairs) connections keys := by
  induction h with
  | nil => exact ⟨[], rfl, .nil⟩
  | cons ht _ ih =>
    obtain ⟨c, hc, hholds⟩ := loadConnection_ok hb ht
    obtain ⟨connections, hok, hall⟩ := ih
    refine ⟨c :: connections, ?_, .cons hholds hall⟩
    simp only [Disk.loadConnections, hc, hok, Except.map]

/-! ## Setting up -/

theorem PeerHolds.parses {peer : Peer} {j : ι} (h : PeerHolds pairs peer j) (k : Nat) :
    K.parsePeerKey peer k = .ok (B.publicKey (pairs j).key) := by
  have hkey : K.publicKey peer.publicKey = .ok (B.publicKey (pairs j).key) := by
    rw [h]
    exact decodeBase64Key_ok hb _
  simp only [KeyTexts.parsePeerKey, hkey, Except.mapError]

theorem setupPeers_ok {peers : List Peer} {js : List ι} (h : List.Forall₂ (PeerHolds pairs) peers js)
    (flags : ConnectionFlags) (key : SecretKey) (k : Nat) :
    K.setupPeers flags key k peers = .ok (js.map fun j => ⟨key, B.publicKey (pairs j).key, flags⟩) := by
  induction h generalizing k with
  | nil => rfl
  | cons hpeer _ ih => simp only [KeyTexts.setupPeers, hpeer.parses hb, ih, Except.map, List.map_cons]

theorem ConnectionHolds.setup {c : P2PConnection} {keys : ι × List ι} (h : ConnectionHolds pairs c keys)
    (flags : ConnectionFlags) :
    K.setupConnection flags c =
      .ok (keys.2.map fun j => ⟨(pairs keys.1).key, B.publicKey (pairs j).key, flags⟩) := by
  have hkey : K.secretKey c.secretKey = .ok (pairs keys.1).key := by
    rw [h.1]
    exact decodeBase64Key_ok hb _
  simp only [KeyTexts.setupConnection, hkey]
  exact setupPeers_ok hb h.2 flags _ 0

theorem ConnectionHolds.valid {c : P2PConnection} {keys : ι × List ι} (h : ConnectionHolds pairs c keys) :
    (∃ key, K.secretKey c.secretKey = .ok key) ∧ ∀ peer ∈ c.peers, ∃ key, K.publicKey peer.publicKey = .ok key := by
  refine ⟨⟨(pairs keys.1).key, ?_⟩, ?_⟩
  · rw [h.1]
    exact decodeBase64Key_ok hb _
  · intro peer hpeer
    obtain ⟨j, -, hholds⟩ := exists_related h.2 hpeer
    exact parsePeerKey_ok.mp ⟨_, hholds.parses hb 0⟩

omit hb in
theorem peerCount_eq {command : RunCommand} {keys : List (ι × List ι)}
    (h : List.Forall₂ (ConnectionHolds pairs) command.connections keys) :
    command.peerCount = (keys.map fun k => k.2.length).sum := by
  obtain ⟨outPort, natMap, connections⟩ := command
  simp only [RunCommand.peerCount] at h ⊢
  induction h with
  | nil => rfl
  | cons hc _ ih => simp [hc.2.length_eq, ih]

/-! ## Two hosts -/

/-- The host accepts its configuration and starts the publisher and the listener of the end `p`. -/
def Installation.Starts (K : KeyTexts) (host : Installation π) (p : Party) : Prop :=
  ∃ command, host.load = .ok command ∧ command.validate K = .ok () ∧
    ∃ c ∈ command.connections, ∃ parties, K.setupConnection host.flags c = .ok parties ∧ p ∈ parties

/-- The tunnel files cite the stored pairs `keys`, and an outgoing port is not given to two peers. -/
structure Installation.Configured (pairs : ι → StoredPair ρ K.enc B) (host : Installation π) (keys : List (ι × List ι)) :
    Prop where
  cites : List.Forall₂ (TunnelCites pairs host.disk) host.tunnels keys
  onePort : host.outPort = 0 ∨ (keys.map fun k => k.2.length).sum ≤ 1

variable {host : Installation π} {keys : List (ι × List ι)}

theorem Installation.Configured.starts (h : host.Configured pairs keys) {p : Party} :
    host.Starts K p ↔
      ∃ k ∈ keys, ∃ j ∈ k.2, p = ⟨(pairs k.1).key, B.publicKey (pairs j).key, host.flags⟩ := by
  obtain ⟨connections, hload, hholds⟩ := loadConnections_ok hb h.cites
  have hcommand : host.load = .ok ⟨host.outPort, host.natMap, connections⟩ := by
    rw [Installation.load, hload, Except.map]
  constructor
  · rintro ⟨command, hc, -, c, hmem, parties, hsetup, hp⟩
    rw [hcommand] at hc
    cases hc
    obtain ⟨k, hk, hck⟩ := exists_related hholds hmem
    rw [hck.setup hb] at hsetup
    cases hsetup
    obtain ⟨j, hj, rfl⟩ := List.mem_map.mp hp
    exact ⟨k, hk, j, hj, rfl⟩
  · rintro ⟨k, hk, j, hj, rfl⟩
    obtain ⟨c, hmem, hck⟩ : ∃ c ∈ connections, ConnectionHolds pairs c k :=
      exists_related (List.Forall₂.flip hholds) hk
    refine ⟨_, hcommand, validate_ok.mpr ?_, c, hmem, _, hck.setup hb _, List.mem_map.mpr ⟨j, hj, rfl⟩⟩
    have hcount := @peerCount_eq κ ρ _ K B ι pairs ⟨host.outPort, host.natMap, connections⟩ keys hholds
    have hvalid : ∀ c ∈ connections, (∃ key, K.secretKey c.secretKey = .ok key) ∧
        ∀ peer ∈ c.peers, ∃ key, K.publicKey peer.publicKey = .ok key := by
      intro c hc
      obtain ⟨k, -, hck⟩ := exists_related hholds hc
      exact hck.valid hb
    refine ⟨fun c hc => (hvalid c hc).1, fun c hc => (hvalid c hc).2, ?_, ?_⟩
    · rw [hcount]
      exact List.sum_pos_iff_exists_pos_nat.mpr ⟨_, List.mem_map.mpr ⟨k, hk, rfl⟩, List.length_pos_of_mem hj⟩
    · rw [hcount]
      exact h.onePort

/-- Of two ends of one tunnel, the listener of one reads what the publisher of the other puts, where it puts it. -/
def Party.Reads (E : Encodings) (B : SalsaBox κ) (q p : Party) : Prop :=
  dhtKey q.remoteKey (q.endpoint E B).localKey = dhtKey (p.endpoint E B).localKey p.remoteKey ∧
    ∀ localToken addresses now nonce value, (p.endpoint E B).publish localToken addresses now nonce = some value →
      (q.endpoint E B).decode value =
        (E.jsonBytes ((p.endpoint E B).record localToken addresses now)).bind E.parseDhtMessage

omit hb in
theorem Party.PeerOf.reads {E : Encodings} {p q : Party} (hB : B.Lawful) (h : p.PeerOf B q) : q.Reads E B p := by
  constructor
  · show dhtKey q.remoteKey (B.publicKey q.privateKey) = dhtKey (B.publicKey p.privateKey) p.remoteKey
    rw [h.1, h.2]
  · intro localToken addresses now nonce value hput
    obtain ⟨plaintext, hjson, henc⟩ := Option.bind_eq_some_iff.mp hput
    have hdec := (CryptoBox.decrypt_encrypted hB henc).mpr ⟨(h.sharedKey_eq hB).symm, rfl⟩
    show (CryptoBox.decrypt B (q.sharedKey B) value).bind E.parseDhtMessage = _
    rw [hdec]
    exact congrArg (Option.bind · E.parseDhtMessage) hjson.symm

variable {π' : Type} {host' : Installation π'} {keys' : List (ι × List ι)}

/-- **Generated keys connect.** Hosts that cite stored pairs, as texts or as
copies of the files, accept their configurations and start exactly the ends
that these describe; and where each of two hosts cites a key of the other,
both have an end of one tunnel, and each reads what the other publishes. -/
theorem cited_keys_connect (hB : B.Lawful) (h : host.Configured pairs keys) (h' : host'.Configured pairs keys') :
    (∀ p, host.Starts K p ↔
      ∃ k ∈ keys, ∃ j ∈ k.2, p = ⟨(pairs k.1).key, B.publicKey (pairs j).key, host.flags⟩) ∧
    ∀ i j, (∃ js, (i, js) ∈ keys ∧ j ∈ js) → (∃ is, (j, is) ∈ keys' ∧ i ∈ is) →
      ∃ p q, host.Starts K p ∧ host'.Starts K q ∧ p.PeerOf B q ∧ q.Reads K.enc B p ∧ p.Reads K.enc B q := by
  refine ⟨fun p => h.starts hb, ?_⟩
  rintro i j ⟨js, hjs, hj⟩ ⟨is, his, hi⟩
  have hp := (h.starts hb).mpr ⟨_, hjs, j, hj, rfl⟩
  have hq := (h'.starts hb).mpr ⟨_, his, i, hi, rfl⟩
  refine ⟨_, _, hp, hq, ⟨rfl, rfl⟩, ?_, ?_⟩
  · apply Party.PeerOf.reads hB
    exact ⟨rfl, rfl⟩
  · apply Party.PeerOf.reads hB
    exact ⟨rfl, rfl⟩

end

/-! ### Two hosts with a key each -/

def oneKey : SecretKey := ⟨List.replicate 32 1, by simp⟩

-- its X25519 public key
def onePublic : PublicKey :=
  ⟨[164, 224, 146, 146, 182, 81, 194, 120, 185, 119, 44, 86, 159, 95, 169, 187, 19, 217, 6, 180, 106, 182, 140, 157,
    249, 220, 43, 68, 9, 248, 162, 9], rfl⟩

def oneKeyText : String := "AQEBAQEBAQEBAQEBAQEBAQEBAQEBAQEBAQEBAQEBAQE="

def onePublicText : String := "pOCSkrZRwni5dyxWn1+puxPZBrRqtoyd+dwrRAn4ogk="

def pairPublic (s : SecretKey) : PublicKey := if s = oneKey then onePublic else zeroBox.publicKey s

def pairBox : SalsaBox (Octets 64) :=
  { sampleBox with publicKey := pairPublic, new := fun p s => sampleBox.new p (pairPublic s) }

theorem pairBox_lawful : pairBox.Lawful where
  agree a b := sampleBox_lawful.agree (pairPublic a) (pairPublic b)
  decrypt_iff := sampleBox_lawful.decrypt_iff
  key_unique := sampleBox_lawful.key_unique

def pairEnc : Encodings := { zeroEnc with
  base64Encode b :=
    if b = oneKey.toList then oneKeyText
    else if b = onePublic.toList then onePublicText
    else zeroEnc.base64Encode b
  base64Decode s :=
    if s = oneKeyText then some oneKey.toList
    else if s = onePublicText then some onePublic.toList
    else zeroEnc.base64Decode s }

theorem zeroEnc_ne {text : String} (hh : text.toList.head? ≠ some '!') (hz : zeroKeyText ≠ text)
    (hp : zeroPublicText ≠ text) (b : Bytes) : zeroEnc.base64Encode b ≠ text := by
  simp only [zeroEnc]
  split
  · exact hz
  · split
    · exact hp
    · exact ofList_cons_ne hh

theorem pairEnc_decode (b : Bytes) : pairEnc.base64Decode (pairEnc.base64Encode b) = some b := by
  by_cases hk : b = oneKey.toList
  · subst hk
    decide
  · by_cases hp : b = onePublic.toList
    · subst hp
      decide
    · have h₁ : zeroEnc.base64Encode b ≠ oneKeyText := zeroEnc_ne (by decide) (by decide) (by decide) b
      have h₂ : zeroEnc.base64Encode b ≠ onePublicText := zeroEnc_ne (by decide) (by decide) (by decide) b
      simp only [pairEnc, if_neg hk, if_neg hp, if_neg h₁, if_neg h₂]
      exact zeroEnc_decode b

def pairStored : Bool → StoredPair String pairEnc pairBox
  | false => ⟨zeroKey, overrideFlags "a" none, permissive, emptyDisk, _, _, "a", "a.pub", rfl, rfl, by decide, rfl⟩
  | true => ⟨oneKey, overrideFlags "b" none, permissive, emptyDisk, _, _, "b", "b.pub", rfl, rfl, by decide, rfl⟩

-- the first host got a copy of the public key file of the second, which got the text
def pairHost : Bool → Installation String
  | false => ⟨⟨⟨id, fun p => if p = "b.pub" then (pairStored true).after.nodes p else (pairStored false).after.nodes p⟩,
      fun _ => true, fun _ => "No such file or directory (os error 2)"⟩,
      [.ok ⟨"file:a", [⟨51820, "file:b.pub", none⟩]⟩], 0, false, ⟨false, false⟩⟩
  | true => ⟨⟨(pairStored true).after, fun _ => true, fun _ => "No such file or directory (os error 2)"⟩,
      [.ok ⟨"file:b", [⟨51820, zeroPublicText, none⟩]⟩], 0, false, ⟨false, false⟩⟩

def pairKeys : KeyTexts := ⟨pairEnc, fun _ => "Invalid padding"⟩

theorem pairHost_configured (i : Bool) : (pairHost i).Configured (K := pairKeys) pairStored [(i, [!i])] := by
  cases i with
  | false =>
    refine ⟨.cons ⟨_, rfl, ?_, .cons ?_ .nil⟩ .nil, .inl rfl⟩
    · exact @Disk.Cites.file _ _ _ _ _ "a" rfl rfl
    · exact @Disk.Cites.file _ _ _ _ _ "b.pub" rfl rfl
  | true =>
    refine ⟨.cons ⟨_, rfl, ?_, .cons ?_ .nil⟩ .nil, .inl rfl⟩
    · exact @Disk.Cites.file _ _ _ _ _ "b" rfl rfl
    · exact .inline (by decide) rfl

theorem pairHost_connects : ∃ p q, (pairHost false).Starts pairKeys p ∧ (pairHost true).Starts pairKeys q ∧
    p.PeerOf pairBox q ∧ q.Reads pairEnc pairBox p ∧ p.Reads pairEnc pairBox q :=
  (cited_keys_connect pairEnc_decode pairBox_lawful (pairHost_configured false) (pairHost_configured true)).2 false true
    ⟨[true], by simp, by simp⟩ ⟨[false], by simp, by simp⟩

end P2pTunnler
