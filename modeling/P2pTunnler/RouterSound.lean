import P2pTunnler.Service
import P2pTunnler.Stun.CodecSound

/-!
# The receive router and the parsers behind it

The router looks at a prefix, a length and the STUN cookie; the parsers read
the whole datagram. What one of them takes is what the other lets through.
-/

namespace P2pTunnler

open BigEndian (u16 u64 be16 be64 u16_eq_iff u64_eq_iff)
open StunCodec (decodeConst)

/-! ## What the classifier looks at -/

/-- The cookie where a STUN message has it, in a datagram longer than a header. -/
def CookieShaped (packet : Bytes) : Prop := 20 < packet.length ∧ (packet.drop 4).take 8 = be64 cookieWord

instance (packet : Bytes) : Decidable (CookieShaped packet) := inferInstanceAs (Decidable (_ ∧ _))

theorem internetPacketKind_eq (packet : Bytes) : internetPacketKind packet = .ok
    (if magic <+: packet then if packet.length = frameLen then .probe else .drop
      else if CookieShaped packet then .stun else .data) := by
  unfold internetPacketKind
  by_cases hm : magic <+: packet
  · rw [if_pos ((classify_iff packet).mpr hm), if_pos hm]
    by_cases hl : packet.length = frameLen
    · rw [if_pos hl, if_pos hl]
    · rw [if_neg hl, if_neg hl]
  · rw [if_neg fun h => hm ((classify_iff packet).mp h), if_neg hm]
    by_cases hl : 20 < packet.length
    · have hs : slice packet 4 12 = .ok ((packet.drop 4).take 8) :=
        Attribute.slice_eq_ok.mpr ⟨by omega, by omega, rfl⟩
      rw [if_pos hl, hs]
      by_cases hc : (packet.drop 4).take 8 = be64 cookieWord
      · rw [if_pos ⟨hl, hc⟩]
        simp only [bind, Except.bind, hc, if_true]
        rfl
      · rw [if_neg fun h => hc h.2]
        simp only [bind, Except.bind, hc, if_false]
        rfl
    · rw [if_neg hl, if_neg fun h => hl h.1]

theorem internetPacketKind_probe {packet : Bytes} :
    internetPacketKind packet = .ok .probe ↔ magic <+: packet ∧ packet.length = frameLen := by
  rw [internetPacketKind_eq]
  by_cases hm : magic <+: packet
  · by_cases hl : packet.length = frameLen <;> simp [hm, hl]
  · by_cases hc : CookieShaped packet <;> simp [hm, hc]

theorem internetPacketKind_stun {packet : Bytes} :
    internetPacketKind packet = .ok .stun ↔ ¬ magic <+: packet ∧ CookieShaped packet := by
  rw [internetPacketKind_eq]
  by_cases hm : magic <+: packet
  · by_cases hl : packet.length = frameLen <;> simp [hm, hl]
  · by_cases hc : CookieShaped packet <;> simp [hm, hc]

/-! ## STUN -/

/-- Bytes 12 to 20, where a STUN message has the id of its request. -/
def transactionId (packet : Bytes) : Bytes := (packet.drop 12).take 8

theorem header_split (packet : Bytes) : packet = packet.take 2 ++ (packet.drop 2).take 2 ++ (packet.drop 4).take 8 ++
    transactionId packet ++ packet.drop 20 := by
  have h₁ := List.take_append_drop 2 packet
  have h₂ := List.take_append_drop 2 (packet.drop 2)
  have h₃ := List.take_append_drop 8 (packet.drop 4)
  have h₄ := List.take_append_drop 8 (packet.drop 12)
  rw [List.drop_drop] at h₂ h₃ h₄
  simp only [transactionId, List.append_assoc, h₄, h₃, h₂, h₁]

/-- A datagram that the router takes for STUN holds a whole header. -/
theorem CookieShaped.header {packet : Bytes} (h : CookieShaped packet) : ∃ typ len id body,
    packet = be16 typ ++ be16 len ++ be64 cookieWord ++ be64 id ++ body ∧ transactionId packet = be64 id := by
  obtain ⟨hl, hc⟩ := h
  have htyp := (u16_eq_iff (l := packet.take 2) (by rw [List.length_take]; omega)).mp rfl
  have hlen := (u16_eq_iff (l := (packet.drop 2).take 2) (by rw [List.length_take, List.length_drop]; omega)).mp rfl
  have hid := (u64_eq_iff (l := transactionId packet)
    (by rw [transactionId, List.length_take, List.length_drop]; omega)).mp rfl
  refine ⟨u16 (packet.take 2), u16 ((packet.drop 2).take 2), u64 (transactionId packet), packet.drop 20, ?_, hid⟩
  rw [← htyp, ← hlen, ← hid, ← hc]
  exact header_split packet

/-- The decoder passes over a STUN datagram exactly when it answers another request. -/
theorem CookieShaped.decodeConst_eq_none {packet : Bytes} (h : CookieShaped packet) (id : UInt64) :
    decodeConst id packet = .ok none ↔ transactionId packet ≠ be64 id := by
  obtain ⟨typ, len, id₂, body, hp, hid⟩ := h.header
  have hinj : be64 id₂ ≠ be64 id ↔ id₂ ≠ id := by
    rw [ne_eq, ← u64_eq_iff (BigEndian.length_be64 id₂), (u64_eq_iff (BigEndian.length_be64 id₂)).mpr rfl]
  rw [StunCodec.decodeConst_header id hp, hid, hinj]
  by_cases hne : id₂ ≠ id
  · rw [if_pos hne]
    exact iff_of_true rfl hne
  · rw [if_neg hne, if_neg (not_not.mpr rfl)]
    refine iff_of_false (fun h => ?_) hne
    split at h
    · cases h
    split at h
    · obtain ⟨r, _, h⟩ := bind_eq_ok.mp h
      cases h
    split at h
    · cases h
    split at h
    · cases h
    split at h <;> cases h

theorem decodeConst_cookieShaped {id : UInt64} {packet : Bytes} {r : Response}
    (h : decodeConst id packet = .ok (some r)) : ¬ magic <+: packet ∧ CookieShaped packet := by
  obtain ⟨len, body, r, hp, hlen, hr, _⟩ := StunCodec.decodeConst_eq_some h
  have hbuf : body.length < 2 ^ 64 := by
    have := len.toNat_lt
    omega
  -- a response without attributes has no mapped address
  have hne : body ≠ [] := by
    rintro rfl
    obtain ⟨ts, hts, hm, _⟩ := (StunCodec.readBindingResponse_eq_ok hbuf).mp hr
    cases ts with
    | nil => cases hm
    | cons t ts =>
      have hl := congrArg List.length hts
      simp [Tlv.bytes, Cursor.rest, Cursor.new] at hl
      omega
  refine ⟨fun hm => ?_, ?_, ?_⟩
  · obtain ⟨q, hq⟩ := hm
    rw [hp, StunCodec.be16_bindingResponse] at hq
    have := congrArg List.head? hq
    exact absurd this (by simp [magic])
  · have := List.length_pos_iff.mpr hne
    rw [hp]
    simp only [List.length_append, BigEndian.length_be16, BigEndian.length_be64]
    omega
  · have hp' : packet = (be16 StunType.bindingResponse ++ be16 len) ++ (be64 cookieWord ++ (be64 id ++ body)) := by
      rw [hp]; simp only [List.append_assoc]
    rw [hp', List.drop_left' (by simp), List.take_left' (by simp)]

/-! ## Agreement -/

/-- **Router and parsers agree.** What the STUN decoder answers is routed to
it, what is routed to it is another request's or is decoded in earnest, and
the probe handler gets exactly the frames. The router never panics. -/
theorem router_agrees (p : Bytes) :
    (∀ id r, decodeConst id p = .ok (some r) → internetPacketKind p = .ok .stun) ∧
    (internetPacketKind p = .ok .probe ↔ ∃ t, parseFrame p = some t) ∧
    (∀ t, parseFrame p = some t → p = frame t) ∧
    (∀ t, internetPacketKind (frame t) = .ok .probe ∧ parseFrame (frame t) = some t) ∧
    (internetPacketKind p = .ok .stun → ∀ id, be64 id ≠ transactionId p → decodeConst id p = .ok none) ∧
    ∃ kind, internetPacketKind p = .ok kind := by
  have hframe : ∀ t, internetPacketKind (frame t) = .ok .probe := fun t =>
    internetPacketKind_probe.mpr ⟨⟨t.toList, rfl⟩, length_frame t⟩
  refine ⟨fun id r h => internetPacketKind_stun.mpr (decodeConst_cookieShaped h), ⟨fun h => ?_, fun ⟨t, ht⟩ => ?_⟩,
    fun t ht => parseFrame_eq_some.mp ht, fun t => ⟨hframe t, parseFrame_eq_some.mpr rfl⟩, fun h id hid => ?_,
    ⟨_, internetPacketKind_eq p⟩⟩
  · obtain ⟨⟨q, rfl⟩, hl⟩ := internetPacketKind_probe.mp h
    have hq : q.length = 16 := by
      rw [List.length_append] at hl
      exact Nat.add_left_cancel hl
    exact ⟨⟨q, hq⟩, parseFrame_eq_some.mpr rfl⟩
  · rw [parseFrame_eq_some.mp ht]
    exact hframe t
  · exact ((internetPacketKind_stun.mp h).2.decodeConst_eq_none id).mpr (Ne.symm hid)

/-! ## WireGuard -/

/-- The first four bytes are a message type of WireGuard: 1, 2, 3 or 4, little-endian. -/
def IsWireGuard (packet : Bytes) : Prop := ∃ t ∈ [(1 : UInt8), 2, 3, 4], [t, 0, 0, 0] <+: packet

theorem IsWireGuard.not_magic {packet : Bytes} (h : IsWireGuard packet) : ¬ magic <+: packet := by
  obtain ⟨t, ht, q, rfl⟩ := h
  rintro ⟨q', hq⟩
  have := congrArg List.head? hq
  simp only [magic, List.cons_append, List.head?_cons, Option.some.injEq] at this
  subst this
  exact absurd ht (by decide)

/-- **WireGuard datagrams are forwarded**, all but those that have the STUN cookie and four zeros
where a data message has its receiver and its counter. -/
theorem wireguard_routed {packet : Bytes} (hw : IsWireGuard packet) :
    internetPacketKind packet = .ok (if CookieShaped packet then .stun else .data) ∧
    ∀ (s : ConnState) (source : SocketAddr), s.router = .routing packet source → ¬ CookieShaped packet →
      socketStep s .route = some ({ s with
        router := .waiting
        fromPeers := (trySend s.fromPeers (packet, normalizeIpv4MappedSource source)).1 }, .silent) := by
  have hkind : internetPacketKind packet = .ok (if CookieShaped packet then .stun else .data) := by
    rw [internetPacketKind_eq, if_neg hw.not_magic]
  refine ⟨hkind, fun s source hs hc => ?_⟩
  rw [if_neg hc] at hkind
  simp only [socketStep, hs, hkind]

/-- A keep-alive: type, receiver index, counter and the authentication tag. -/
def keepAlive (receiver counter : Bytes) : Bytes := [4, 0, 0, 0] ++ receiver ++ counter ++ List.replicate 16 0

theorem keepAlive_routed :
    internetPacketKind (keepAlive [1, 2, 3, 4] (List.replicate 8 0)) =
      .ok (if CookieShaped (keepAlive [1, 2, 3, 4] (List.replicate 8 0)) then .stun else .data) ∧
    ¬ CookieShaped (keepAlive [1, 2, 3, 4] (List.replicate 8 0)) :=
  ⟨(wireguard_routed ⟨4, by decide, ⟨_, rfl⟩⟩).1, by decide⟩

/-- The first data message to the receiver whose index is the cookie goes to the STUN lookup. -/
theorem cookie_receiver_diverted : ¬ ∀ packet, IsWireGuard packet → internetPacketKind packet = .ok .data := by
  intro h
  have := h (keepAlive [0x21, 0x12, 0xA4, 0x42] (List.replicate 8 0)) ⟨4, by decide, ⟨_, rfl⟩⟩
  revert this
  decide

end P2pTunnler
