import P2pTunnler.DeliverySound
import P2pTunnler.TunnelSound

/-!
# The tunnel is transparent

Two connections that know each other's address. What WireGuard hands to one
of them is what WireGuard gets from the other, in the same order, whatever
probes, echoes and STUN requests go along the same way; what the network
loses in between is all that can be missing.
-/

namespace P2pTunnler

open scoped List

def isData (packet : Bytes) : Bool := decide (internetPacketKind packet = .ok .data)

theorem isData_frame (t : Token) : isData (frame t) = false := by
  have hk : internetPacketKind (frame t) = .ok .probe := internetPacketKind_probe.mpr ⟨⟨t.toList, rfl⟩, length_frame t⟩
  rw [isData, hk]
  rfl

section
variable {κ : Type} {P : Endpoint κ} {tok : Token} {tr : List ConnEntry} {s₀ s s' : ConnState} {e : ConnEvent} {o : ConnOut}
  {a b raw : SocketAddr}

/-- From rest to rest. -/
structure Rests (P : Endpoint κ) (s₀ : ConnState) (tr : List ConnEntry) (s : ConnState) : Prop where
  run : (connection P).Run s₀ tr s
  quiet₀ : s₀.Quiet
  quiet : s.Quiet

/-- From rest to rest, with room for everything that goes out. -/
structure Fits (P : Endpoint κ) (s₀ : ConnState) (tr : List ConnEntry) (s : ConnState) : Prop
    extends Rests P s₀ tr s where
  fromLocal : (tr.flatMap receivedLocal).length ≤ udpQueueCapacity
  toInternet : (tr.flatMap offers).length ≤ udpQueueCapacity

/-! ## The sending end -/

def outTo (b : SocketAddr) (en : ConnEntry) : List Bytes := ((offers en).filter fun d => d.2 = b).map Prod.fst

/-- Besides what comes from WireGuard, only frames go to a peer. -/
theorem outTo_data (hr : (connection P).Run (.new tok) tr s) (h : (connection P).step s e = some (s', o))
    (hstun : ∀ d q, o = .offered .stun d q → d.2 ≠ b) :
    (outTo b ⟨s, e, o, s'⟩).filter isData = (fannedTo b ⟨s, e, o, s'⟩).filter isData := by
  cases o with
  | offered origin d q =>
    by_cases hb : d.2 = b
    · have hframe : origin ≠ .loopback → isData d.1 = false := by
        intro hne
        obtain ⟨rfl, hh⟩ | ⟨rfl, -⟩ | ⟨rfl, rest, hs⟩ | rfl := offered_cases h
        · have hfrom := (packetInv_run hr).handler
          rw [hh] at hfrom
          rw [hfrom.1]
          exact isData_frame tok
        · exact absurd rfl hne
        · obtain ⟨t, ht, -⟩ := (knownInv_run hr).scheduler d (by rw [hs]; exact List.mem_cons_self)
          rw [ht]
          exact isData_frame t
        · exact absurd hb (hstun d q rfl)
      cases origin with
      | loopback => simp [outTo, offers, fannedTo, hb]
      | _ =>
        have hd := hframe (by simp)
        simp [outTo, offers, fannedTo, hb, hd]
    · cases origin <;> simp [outTo, offers, fannedTo, hb]
  | _ => rfl

theorem outTo_run {pre : List ConnEntry} (h₀ : (connection P).Run (.new tok) pre s₀) (hr : (connection P).Run s₀ tr s)
    (hstun : ∀ en ∈ tr, ∀ d q, en.out = .offered .stun d q → d.2 ≠ b) :
    (tr.flatMap (outTo b)).filter isData = (tr.flatMap (fannedTo b)).filter isData := by
  induction hr with
  | nil => rfl
  | snoc hr hst ih =>
    simp only [List.flatMap_append, List.flatMap_singleton, List.filter_append]
    rw [ih fun en hen => hstun en (List.mem_append_left _ hen),
      outTo_data (h₀.append hr) hst (hstun _ (List.mem_append_right _ (List.mem_singleton_self _)))]

theorem outTo_flatMap (tr : List ConnEntry) :
    ((tr.flatMap offers).filter fun d => d.2 = b).map Prod.fst = tr.flatMap (outTo b) := by
  rw [List.filter_flatMap, List.map_flatMap]
  rfl

theorem locksFor_eq (hb : ∀ en ∈ tr, en.pre.connections.contains b = true) :
    tr.flatMap (locksFor b) = tr.flatMap locks := by
  apply List.flatMap_congr
  intro en hen
  rw [locksFor, if_pos (hb en hen)]

/-- What leaves for a peer that stays a candidate is, frames apart, what WireGuard sent. -/
theorem Fits.sends {pre : List ConnEntry} (h₀ : (connection P).Run (.new tok) pre s₀) (hR : Fits P s₀ tr s)
    (hdata : ∀ p ∈ tr.flatMap receivedLocal, internetPacketKind p = .ok .data)
    (hb : ∀ en ∈ tr, en.pre.connections.contains b = true)
    (hstun : ∀ en ∈ tr, ∀ d q, en.out = .offered .stun d q → d.2 ≠ b) :
    (((tr.flatMap sent).filter fun d => d.2 = b).map Prod.fst).filter isData = tr.flatMap receivedLocal := by
  obtain ⟨hlocks, hfan, hsent⟩ := outbound_rest (outboundSince_run hR.quiet₀ hR.run hR.fromLocal hR.toInternet) hR.quiet
  rw [hsent, outTo_flatMap, outTo_run h₀ hR.run hstun, hfan, locksFor_eq hb, hlocks, List.filter_eq_self]
  intro p hp
  exact decide_eq_true (hdata p hp)

/-! ## The receiving end -/

theorem map_routedData (q : List Datagram) : (routedData q).map Prod.fst = (q.map Prod.fst).filter isData := by
  rw [routedData, List.map_map, List.filter_map]
  rfl

/-- Everything that is checked comes from a candidate. -/
theorem passes_eq (ha : ∀ en ∈ tr, en.pre.connections.contains a = true) (hsrc : ∀ d ∈ tr.flatMap checks, d.2 = a) :
    tr.flatMap passes = (tr.flatMap checks).map Prod.fst := by
  rw [List.map_flatMap]
  apply List.flatMap_congr
  intro en hen
  have hin : ∀ d ∈ checks en, d.2 = a := fun d hd => hsrc d (List.mem_flatMap.mpr ⟨en, hen, hd⟩)
  obtain ⟨s₁, e, o, s₂⟩ := en
  cases o with
  | checked packet source =>
    have hs : source = a := hin (packet, source) (List.mem_singleton_self _)
    have hcon := ha _ hen
    simp only [passes, checks, hs, hcon, if_true, List.map_singleton]
  | _ => rfl

/-- WireGuard gets the data that arrives from an address that stays a candidate. -/
theorem Rests.delivers (hR : Rests P s₀ tr s) (hp : s₀.localPeer.isSome = true)
    (hn : (tr.flatMap received).length ≤ udpQueueCapacity) (ha : ∀ en ∈ tr, en.pre.connections.contains a = true)
    (hsrc : ∀ d ∈ tr.flatMap received, normalizeIpv4MappedSource d.2 = a) :
    (tr.flatMap sentLocal).map Prod.fst = ((tr.flatMap received).map Prod.fst).filter isData := by
  have hchecks := checked_rest (inboundSince_run hR.quiet₀ hR.run hn) hR.quiet
  have hpasses := passed_rest hR.quiet₀ hp hR.run hn hR.quiet
  have hfrom : ∀ d ∈ tr.flatMap checks, d.2 = a := by
    intro d hd
    rw [hchecks, routedData] at hd
    obtain ⟨d', hd', rfl⟩ := List.mem_map.mp hd
    exact hsrc d' (List.mem_of_mem_filter hd')
  rw [hpasses, passes_eq ha hfrom, hchecks, map_routedData]

end

/-! ## Both ends -/

section
variable {κ : Type} {P Q : Endpoint κ} {tok : Token} {pre tr tr' : List ConnEntry} {s₀ s t₀ t : ConnState}
  {a b raw : SocketAddr}

/-- **The tunnel is transparent.** One end goes from rest to rest with room for
everything, while the other end stays its candidate `b`, and the other way
round for `a`. All that WireGuard sends is data to the router, no STUN server
is at `b`, and the far end knows where its WireGuard is. Of what the first
sends to `b`, the network hands some to the other end, from `a`, in order, and
nothing else. Then WireGuard gets a sublist of the payloads that WireGuard
sent, and all of them when the network loses none. -/
theorem transparent (h₀ : (connection P).Run (.new tok) pre s₀) (hR : Fits P s₀ tr s)
    (hdata : ∀ p ∈ tr.flatMap receivedLocal, internetPacketKind p = .ok .data)
    (hb : ∀ en ∈ tr, en.pre.connections.contains b = true)
    (hstun : ∀ en ∈ tr, ∀ d q, en.out = .offered .stun d q → d.2 ≠ b)
    (hR' : Rests Q t₀ tr' t) (hp : t₀.localPeer.isSome = true)
    (ha : ∀ en ∈ tr', en.pre.connections.contains a = true) (hraw : normalizeIpv4MappedSource raw = a)
    (hnet : tr'.flatMap received <+ ((tr.flatMap sent).filter fun d => d.2 = b).map fun d => (d.1, raw)) :
    (tr'.flatMap sentLocal).map Prod.fst <+ tr.flatMap receivedLocal ∧
      (tr'.flatMap received = ((tr.flatMap sent).filter fun d => d.2 = b).map (fun d => (d.1, raw)) →
        (tr'.flatMap sentLocal).map Prod.fst = tr.flatMap receivedLocal) := by
  have hn : (tr'.flatMap received).length ≤ udpQueueCapacity := by
    refine Nat.le_trans hnet.length_le ?_
    rw [List.length_map]
    refine Nat.le_trans (List.length_filter_le _ _) ?_
    rw [(outbound_rest (outboundSince_run hR.quiet₀ hR.run hR.fromLocal hR.toInternet) hR.quiet).2.2]
    exact hR.toInternet
  have hsrc : ∀ d ∈ tr'.flatMap received, normalizeIpv4MappedSource d.2 = a := by
    intro d hd
    obtain ⟨d', -, rfl⟩ := List.mem_map.mp (hnet.mem hd)
    exact hraw
  have hmap : ((tr.flatMap sent).filter fun d => d.2 = b).map Prod.fst =
      (((tr.flatMap sent).filter fun d => d.2 = b).map fun d => (d.1, raw)).map Prod.fst := by
    rw [List.map_map]
    rfl
  rw [hR'.delivers hp hn ha hsrc, ← hR.sends h₀ hdata hb hstun, hmap]
  constructor
  · exact (hnet.map _).filter _
  · intro heq
    rw [heq]

end

/-- A datagram of WireGuard goes to both candidates of a connection at rest. -/
def sampleDeparture : List ConnEvent :=
  [.socket (.receiveLocal ([1, 0, 0, 0], .v4 (.new 127 0 0 1) 51820)), .loopback .recv, .loopback .compare,
    .loopback (.lock [.testNet 1 10000] [.testNet 3 10000]), .loopback .send, .loopback .send, .loopback .send,
    .socket (.send .recv), .socket (.send (.sendTo 0 (.ok 4))), .socket (.send .recv),
    .socket (.send (.sendTo 0 (.ok 4)))]

/-- The copy for 192.0.2.1, at the other end. -/
def sampleArrival : List ConnEvent :=
  [.socket (.receive ([1, 0, 0, 0], .testNet 3 10000)), .socket .recv, .socket .route, .inbound .recv, .inbound .check,
    .inbound .deliver, .socket (.sendLocal .recv), .socket (.sendLocal (.sendTo 0 (.ok 4)))]

theorem sampleDeparture_runs :
    ((connection (sampleEndpoint ⟨false, false⟩)).exec sampleRested sampleDeparture).isSome = true := by
  decide +kernel

theorem sampleArrival_runs :
    ((connection (sampleEndpoint ⟨false, false⟩)).exec sampleRested sampleArrival).isSome = true := by
  decide +kernel

theorem sampleDeparture_fits : Fits (sampleEndpoint ⟨false, false⟩) sampleRested
    (((connection (sampleEndpoint ⟨false, false⟩)).exec sampleRested sampleDeparture).get sampleDeparture_runs).1
    (((connection (sampleEndpoint ⟨false, false⟩)).exec sampleRested sampleDeparture).get sampleDeparture_runs).2 where
  run := Machine.run_of_exec sampleDeparture_runs
  quiet₀ := sampleRested_quiet
  quiet := quiet_of_work (by decide +kernel) (by decide +kernel) (by decide +kernel)
  fromLocal := by decide +kernel
  toInternet := by decide +kernel

theorem sampleArrival_rests : Rests (sampleEndpoint ⟨false, false⟩) sampleRested
    (((connection (sampleEndpoint ⟨false, false⟩)).exec sampleRested sampleArrival).get sampleArrival_runs).1
    (((connection (sampleEndpoint ⟨false, false⟩)).exec sampleRested sampleArrival).get sampleArrival_runs).2 where
  run := Machine.run_of_exec sampleArrival_runs
  quiet₀ := sampleRested_quiet
  quiet := quiet_of_work (by decide +kernel) (by decide +kernel) (by decide +kernel)

def ConnOut.isStunRequest : ConnOut → Bool
  | offered .stun _ _ => true
  | _ => false

theorem sampleDeparture_transparent : ∃ tr s tr' t, Fits (sampleEndpoint ⟨false, false⟩) sampleRested tr s ∧
    Rests (sampleEndpoint ⟨false, false⟩) sampleRested tr' t ∧ tr.flatMap receivedLocal = [[1, 0, 0, 0]] ∧
    (tr'.flatMap sentLocal).map Prod.fst = tr.flatMap receivedLocal := by
  have hstun : (((connection (sampleEndpoint ⟨false, false⟩)).exec sampleRested sampleDeparture).get
      sampleDeparture_runs).1.all (fun en => !en.out.isStunRequest) = true := by decide +kernel
  have hnet : (((connection (sampleEndpoint ⟨false, false⟩)).exec sampleRested sampleArrival).get
      sampleArrival_runs).1.flatMap received =
      (((((connection (sampleEndpoint ⟨false, false⟩)).exec sampleRested sampleDeparture).get
        sampleDeparture_runs).1.flatMap sent).filter fun d => d.2 = .testNet 1 10000).map
        fun d => (d.1, .testNet 3 10000) := by decide +kernel
  refine ⟨_, _, _, _, sampleDeparture_fits, sampleArrival_rests, by decide +kernel, ?_⟩
  refine (transparent (b := .testNet 1 10000) (a := .testNet 3 10000) (Machine.run_of_exec sampleRest_runs)
    sampleDeparture_fits (by decide +kernel) (List.all_eq_true.mp (by decide +kernel)) ?_ sampleArrival_rests
    (by decide +kernel) (List.all_eq_true.mp (by decide +kernel)) (by decide) (hnet ▸ List.Sublist.refl _)).2 hnet
  intro en hen d q ho
  have := List.all_eq_true.mp hstun en hen
  rw [ho] at this
  cases this

end P2pTunnler
