import P2pTunnler.RouterSound
import P2pTunnler.Stun.Lookup

/-!
# Who decides a STUN lookup

The router gives a lookup the datagrams that carry the cookie, whoever sends
them. Only the server can answer, and only the request that is waiting.
-/

namespace P2pTunnler

open BigEndian (be64)
open StunCodec (decodeConst)

/-! ## Answers -/

/-- A datagram of the server that carries the id of the request. -/
def Answers (id : UInt64) (stunServer : SocketAddr) (d : Datagram) : Prop :=
  normalizeIpv4MappedSource d.2 = stunServer ∧ transactionId d.1 = be64 id

instance (id : UInt64) (stunServer : SocketAddr) (d : Datagram) : Decidable (Answers id stunServer d) :=
  inferInstanceAs (Decidable (_ ∧ _))

-- what the first answer makes of a lookup, by its bytes alone
def decided (id : UInt64) : List Bytes → Except LookupError (Option Response)
  | [] => .error timedOut
  | buf :: _ => (decodeConst id buf).mapError .fault

section
variable {id : UInt64} {server : SocketAddr}

theorem awaitResponse_skip {d : Datagram} (hs : internetPacketKind d.1 = .ok .stun) (ha : ¬ Answers id server d)
    (received : List Datagram) : awaitResponse id server (d :: received) = awaitResponse id server received := by
  rw [awaitResponse, awaitTurn]
  by_cases hsrc : normalizeIpv4MappedSource d.2 = server
  · -- from the server, so it answers another request
    have hid : transactionId d.1 ≠ be64 id := fun h => ha ⟨hsrc, h⟩
    have hnone := ((internetPacketKind_stun.mp hs).2.decodeConst_eq_none id).mpr hid
    simp [isExpectedStunSource, hsrc, hnone]
  · simp [isExpectedStunSource, hsrc]

theorem awaitResponse_answer {d : Datagram} (hs : internetPacketKind d.1 = .ok .stun) (ha : Answers id server d)
    (received : List Datagram) :
    (awaitResponse id server (d :: received)).map some = (decodeConst id d.1).mapError .fault := by
  obtain ⟨hsrc, hid⟩ := ha
  have hne : decodeConst id d.1 ≠ .ok none := fun h =>
    ((internetPacketKind_stun.mp hs).2.decodeConst_eq_none id).mp h hid
  rw [awaitResponse, awaitTurn]
  simp only [isExpectedStunSource, hsrc, decide_true, Bool.not_true, Bool.false_eq_true, if_false]
  cases hd : decodeConst id d.1 with
  | error e => rfl
  | ok r =>
    cases r with
    | none => exact absurd hd hne
    | some r => rfl

/-- The wait sees the answers and nothing else. -/
theorem awaitResponse_decided (id : UInt64) (server : SocketAddr) : ∀ {received : List Datagram},
    (∀ d ∈ received, internetPacketKind d.1 = .ok .stun) →
    (awaitResponse id server received).map some =
      decided id ((received.filter fun d => Answers id server d).map Prod.fst)
  | [], _ => rfl
  | d :: received, hstun => by
    have hs := hstun d (by simp)
    by_cases ha : Answers id server d
    · rw [awaitResponse_answer hs ha, List.filter_cons_of_pos (by simpa using ha)]
      rfl
    · rw [awaitResponse_skip hs ha, List.filter_cons_of_neg (by simpa using ha)]
      exact awaitResponse_decided id server fun d hd => hstun d (List.mem_cons_of_mem _ hd)

theorem map_some_injective {ε α : Type} {x y : Except ε α} (h : x.map some = y.map some) : x = y := by
  cases x with
  | error e => cases y with
    | error e' => cases h; rfl
    | ok b => cases h
  | ok a => cases y with
    | error e' => cases h
    | ok b => cases h; rfl

theorem awaitResponse_of_none {received : List Datagram} (hstun : ∀ d ∈ received, internetPacketKind d.1 = .ok .stun)
    (hf : received.find? (fun d => Answers id server d) = none) :
    awaitResponse id server received = .error timedOut := by
  have hdec := awaitResponse_decided id server hstun
  rw [← List.head?_filter, List.head?_eq_none_iff] at hf
  rw [hf] at hdec
  exact map_some_injective hdec

theorem awaitResponse_of_some {received : List Datagram} (hstun : ∀ d ∈ received, internetPacketKind d.1 = .ok .stun)
    {d : Datagram} (hf : received.find? (fun d => Answers id server d) = some d) :
    (awaitResponse id server received).map some = (decodeConst id d.1).mapError .fault := by
  have hdec := awaitResponse_decided id server hstun
  rw [← List.head?_filter, List.head?_eq_some_iff] at hf
  obtain ⟨rest, hf⟩ := hf
  rw [hf] at hdec
  exact hdec

theorem sendRequest_sent {req : Request} {queue : List Datagram} (hreq : (StunCodec.encode id req []).1 = .ok ())
    (hq : queue.length < udpQueueCapacity) (received : List Datagram) :
    (sendRequest id queue server req received).1 = awaitResponse id server received := by
  unfold sendRequest
  rcases he : StunCodec.encode id req [] with ⟨r, buf⟩
  rw [he] at hreq
  obtain rfl : r = .ok () := hreq
  simp [trySend, hq]

/-- The address that a lookup finds is the mapped address of the first answer. -/
theorem lookupPublicAddress_eq_ok {queue received : List Datagram}
    (hstun : ∀ d ∈ received, internetPacketKind d.1 = .ok .stun) {address : SocketAddr} :
    (Stun.lookupPublicAddress id queue server received).1 = .ok address ↔
      queue.length < udpQueueCapacity ∧ ∃ d response, received.find? (fun d => Answers id server d) = some d ∧
        decodeConst id d.1 = .ok (some (.bind response)) ∧ response.mappedAddress = address := by
  have hmapped : (Stun.lookupPublicAddress id queue server received).1 = .ok address ↔
      ∃ response, (sendRequest id queue server (.bind default) received).1 = .ok (.bind response) ∧
        response.mappedAddress = address := by
    unfold Stun.lookupPublicAddress
    rcases hs : sendRequest id queue server (.bind default) received with ⟨r, q⟩
    cases r with
    | error e => simp
    | ok r => cases r; simp
  rw [hmapped]
  by_cases hq : queue.length < udpQueueCapacity
  · have hreq : (StunCodec.encode id (.bind default) []).1 = .ok () := by rw [StunCodec.encode_default]
    rw [sendRequest_sent hreq hq]
    cases hf : received.find? (fun d => Answers id server d) with
    | none => simp [awaitResponse_of_none hstun hf]
    | some d =>
      have hdec := awaitResponse_of_some hstun hf
      have hiff : ∀ response, awaitResponse id server received = .ok (.bind response) ↔
          decodeConst id d.1 = .ok (some (.bind response)) := by
        intro response
        constructor
        · intro h
          rw [h] at hdec
          cases hd : decodeConst id d.1 with
          | error e => rw [hd] at hdec; cases hdec
          | ok r => rw [hd] at hdec; cases hdec; rfl
        · intro h
          rw [h] at hdec
          exact map_some_injective hdec
      simp [hiff, hq]
  · have hfull : (sendRequest id queue server (.bind default) received).1 =
        .error (.message "STUN request dropped because the UDP send queue is full") := by
      unfold sendRequest
      rw [StunCodec.encode_default]
      simp [trySend, hq]
    simp [hfull, hq]

end

/-- **Off-path datagrams do not decide a lookup.** The result is what the
first datagram of the server with the id of the request decodes to, an error
included, and the timeout without one; so two sequences with the same answers
give the same result. -/
theorem sendRequest_confined {id : UInt64} {queue : List Datagram} {server : SocketAddr} {req : Request}
    {received : List Datagram} (hstun : ∀ d ∈ received, internetPacketKind d.1 = .ok .stun) :
    ((StunCodec.encode id req []).1 = .ok () → queue.length < udpQueueCapacity →
      (received.find? (fun d => Answers id server d) = none →
        (sendRequest id queue server req received).1 = .error timedOut) ∧
      ∀ d, received.find? (fun d => Answers id server d) = some d →
        (sendRequest id queue server req received).1.map some = (decodeConst id d.1).mapError .fault) ∧
    ∀ received', (∀ d ∈ received', internetPacketKind d.1 = .ok .stun) →
      (received'.filter fun d => Answers id server d).map Prod.fst =
        (received.filter fun d => Answers id server d).map Prod.fst →
      sendRequest id queue server req received' = sendRequest id queue server req received := by
  constructor
  · intro hreq hq
    rw [sendRequest_sent hreq hq]
    exact ⟨awaitResponse_of_none hstun, fun d hf => awaitResponse_of_some hstun hf⟩
  · intro received' hstun' heq
    have hwait : awaitResponse id server received' = awaitResponse id server received :=
      map_some_injective (by rw [awaitResponse_decided id server hstun', awaitResponse_decided id server hstun, heq])
    unfold sendRequest
    rw [hwait]

/-! ## A lookup under fire -/

def stunServer : SocketAddr := .testNet 1 3478

-- an answer with the mapped address 192.0.2.7:40000
def stunAnswer (id : UInt64) : Bytes :=
  BigEndian.be16 StunType.bindingResponse ++ BigEndian.be16 12 ++ be64 cookieWord ++ be64 id ++
    BigEndian.be16 StunType.mappedAddress ++ BigEndian.be16 8 ++ [0, 1, 0x9C, 0x40, 192, 0, 2, 7]

-- a foreign source, a stale id, and a message that would not decode if it were read
def stunNoise : List Datagram :=
  [(stunAnswer 5, .testNet 2 3478), (stunAnswer 4, stunServer), ((stunAnswer 4).dropLast, stunServer)]

theorem stunNoise_ignored :
    (sendRequest 5 [] stunServer (.bind default) (stunNoise ++ [(stunAnswer 5, stunServer)])).1.map some =
      (decodeConst 5 (stunAnswer 5)).mapError .fault ∧
    sendRequest 5 [] stunServer (.bind default) [(stunAnswer 5, stunServer)] =
      sendRequest 5 [] stunServer (.bind default) (stunNoise ++ [(stunAnswer 5, stunServer)]) := by
  have hstun : ∀ d ∈ stunNoise ++ [(stunAnswer 5, stunServer)], internetPacketKind d.1 = .ok .stun := by decide
  obtain ⟨hfirst, hsame⟩ := @sendRequest_confined 5 [] stunServer (.bind default) _ hstun
  exact ⟨(hfirst (by decide) (by decide)).2 (stunAnswer 5, stunServer) (by decide), hsame _ (by decide) (by decide)⟩

end P2pTunnler
