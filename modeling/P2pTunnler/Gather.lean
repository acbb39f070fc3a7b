import P2pTunnler.Stun.LookupSound

/-!
# Gathering and publishing local candidates

`lookup_public_address` and `publish_candidates` of `candidates.rs`, with the
broadcast channel between them. The channel holds one list and forgets the
older one when it is full; the publisher then notices that it missed a list.
-/

namespace P2pTunnler

open StunCodec (decodeConst)

/-- The configuration of `lookup_public_address`; of the router mapping, its external address. -/
structure StunLookup where
  localPort : UInt16
  gatherIpv6 : Bool
  natMapping : Option SocketAddr
  runOnce : Bool

/-- What one round of the loop meets. `servers` and `localIpv6` are `none` when the system call fails. -/
structure Round where
  servers : Option (List SocketAddr)
  localIpv6 : Option (Option IpAddr)
  id : UInt64
  queue : List Datagram
  received : List Datagram
  routed : ∀ d ∈ received, internetPacketKind d.1 = .ok .stun
  -- whether the router mapping is active
  active : Bool

namespace Round

variable (r : Round)

def server : Option SocketAddr := r.servers.bind (·.find? SocketAddr.isIpv4)

-- what comes of the STUN request of this round
def answer (server : SocketAddr) : Except LookupError SocketAddr :=
  (Stun.lookupPublicAddress r.id r.queue server r.received).1

end Round

def localIpv6Candidate (localIpv6 : Option IpAddr) (localPort : UInt16) (gatherIpv6 : Bool) : Option SocketAddr :=
  (if gatherIpv6 then localIpv6 else none).map fun ip => .new ip localPort

namespace StunLookup

variable (lookup : StunLookup)

-- what the answer of the STUN server adds to the candidates
def publicCandidates (address : SocketAddr) (active : Bool) : List SocketAddr :=
  match lookup.natMapping with
  | none => [address]
  | some externalAddr =>
    if !active then [address]
    else if externalAddr.ip = address.ip then [externalAddr, address]
    else [address]

/-- One round: the list it broadcasts, or `none` when it ends the task with an error. -/
def lookupPublicAddress (r : Round) : Option (List SocketAddr) := do
  let server ← r.server
  let localIpv6 ← if lookup.gatherIpv6 then r.localIpv6 else some none
  let addresses := (localIpv6Candidate localIpv6 lookup.localPort lookup.gatherIpv6).toList
  match r.answer server with
  | .ok address => return addresses ++ lookup.publicCandidates address r.active
  | .error _ => return addresses

end StunLookup

/-! ## The two tasks and their channel -/

inductive PublisherTask
  | putting
  | waiting
  | stopped
  deriving DecidableEq

structure GatherState where
  -- `lookup_public_address` has not returned
  running : Bool
  channel : Option (List SocketAddr)
  overflowed : Bool
  publisher : PublisherTask
  addresses : List SocketAddr

def GatherState.new : GatherState := ⟨true, none, false, .putting, []⟩

inductive GatherEvent
  | lookup (r : Round)
  | put (now : Int) (nonce : Nonce)
  | receive
  | timeout

inductive GatherOut
  | silent
  | broadcast (addresses : List SocketAddr)
  | put (m : Message) (value : Bytes)

abbrev GatherEntry := Machine.Entry GatherState GatherEvent GatherOut

section
variable {κ : Type} (P : Endpoint κ) (localToken : Token) (lookup : StunLookup)

def gathering : Machine GatherState GatherEvent GatherOut where
  step s
    | .lookup r =>
      if s.running then
        match lookup.lookupPublicAddress r with
        | none => some ({ s with running := false }, .silent)
        | some addresses =>
          some ({ s with
            running := !lookup.runOnce
            channel := some addresses
            overflowed := s.overflowed || s.channel.isSome }, .broadcast addresses)
      else none
    | .put now nonce =>
      match s.publisher with
      | .putting =>
        (P.publish localToken s.addresses now nonce).map fun value =>
          ({ s with publisher := .waiting }, .put (P.record localToken s.addresses now) value)
      | _ => none
    | .receive =>
      match s.publisher with
      | .waiting =>
        if s.overflowed then some ({ s with overflowed := false, publisher := .putting }, .silent)
        else
          match s.channel with
          | some addresses =>
            some ({ s with channel := none, addresses := addresses, publisher := .putting }, .silent)
          | none => if s.running then none else some ({ s with publisher := .stopped }, .silent)
      | _ => none
    | .timeout =>
      match s.publisher with
      | .waiting =>
        if s.running ∧ s.channel = none ∧ s.overflowed = false then
          some ({ s with publisher := .putting }, .silent)
        else none
      | _ => none

end

/-! ## IPv4-only publication -/

def AllIpv4 (addresses : List SocketAddr) : Prop := ∀ a ∈ addresses, a.isIpv4 = true

instance (addresses : List SocketAddr) : Decidable (AllIpv4 addresses) :=
  inferInstanceAs (Decidable (∀ a ∈ addresses, a.isIpv4 = true))

/-- The first answer to the request of a round, if the request goes out, maps to an IPv4 address. -/
def Round.answeredIpv4 (r : Round) : Bool :=
  match r.server with
  | none => true
  | some server =>
    decide (udpQueueCapacity ≤ r.queue.length) ||
      match r.received.find? fun d => Answers r.id server d with
      | none => true
      | some d =>
        match decodeConst r.id d.1 with
        | .ok (some (.bind response)) => response.mappedAddress.isIpv4
        | _ => true

def GatherEvent.answeredIpv4 : GatherEvent → Bool
  | .lookup r => r.answeredIpv4
  | _ => true

/-- The list that is broadcast, or the record that is encrypted, has IPv4 addresses only. -/
def GatherOut.Ipv4 : GatherOut → Prop
  | silent => True
  | broadcast addresses => AllIpv4 addresses
  | put m _ => AllIpv4 m.ipAddrList

instance : (o : GatherOut) → Decidable o.Ipv4
  | .silent => .isTrue trivial
  | .broadcast addresses => inferInstanceAs (Decidable (AllIpv4 addresses))
  | .put m _ => inferInstanceAs (Decidable (AllIpv4 m.ipAddrList))

def PublishesIpv4 (tr : List GatherEntry) : Prop := ∀ en ∈ tr, en.out.Ipv4

instance (tr : List GatherEntry) : Decidable (PublishesIpv4 tr) :=
  inferInstanceAs (Decidable (∀ en ∈ tr, en.out.Ipv4))

theorem isIpv4_congr {a b : SocketAddr} (h : a.ip = b.ip) : a.isIpv4 = b.isIpv4 := by
  unfold SocketAddr.isIpv4
  rw [h]

theorem allIpv4_publicCandidates (lookup : StunLookup) (address : SocketAddr) (active : Bool) :
    AllIpv4 (lookup.publicCandidates address active) ↔ address.isIpv4 = true := by
  have hone : AllIpv4 [address] ↔ address.isIpv4 = true := by simp [AllIpv4]
  unfold StunLookup.publicCandidates
  split
  · exact hone
  · split
    · exact hone
    · split
      · rename_i hip
        simp [AllIpv4, isIpv4_congr hip]
      · exact hone

theorem answeredIpv4_iff {r : Round} {server : SocketAddr} (hs : r.server = some server) :
    r.answeredIpv4 = true ↔ ∀ address, r.answer server = .ok address → address.isIpv4 = true := by
  simp only [Round.answer, lookupPublicAddress_eq_ok r.routed]
  unfold Round.answeredIpv4
  rw [hs]
  simp only [Bool.or_eq_true, decide_eq_true_eq]
  constructor
  · rintro h address ⟨hq, d, response, hf, hd, rfl⟩
    rw [hf] at h
    simp only [hd] at h
    exact h.resolve_left (Nat.not_le.mpr hq)
  · intro h
    by_cases hq : r.queue.length < udpQueueCapacity
    · refine .inr ?_
      split
      · rfl
      · rename_i d hf
        split
        · rename_i response hd
          exact h _ ⟨hq, d, response, hf, hd, rfl⟩
        · rfl
    · exact .inl (Nat.le_of_not_lt hq)

/-- Without the local IPv6 address, a round broadcasts IPv4 addresses exactly when it is answered with one. -/
theorem allIpv4_lookupPublicAddress {lookup : StunLookup} (hg : lookup.gatherIpv6 = false) {r : Round}
    {addresses : List SocketAddr} (h : lookup.lookupPublicAddress r = some addresses) :
    AllIpv4 addresses ↔ r.answeredIpv4 = true := by
  unfold StunLookup.lookupPublicAddress localIpv6Candidate at h
  simp only [hg, Bool.false_eq_true, if_false, Option.map_none, Option.toList_none, List.nil_append, bind,
    Option.bind_some] at h
  obtain ⟨server, hserver, h⟩ := Option.bind_eq_some_iff.mp h
  rw [answeredIpv4_iff hserver]
  split at h
  · rename_i address hok
    cases h
    rw [allIpv4_publicCandidates, hok]
    simp
  · rename_i e herr
    cases h
    rw [herr]
    simp [AllIpv4]

theorem answeredIpv4_of_none {lookup : StunLookup} (hg : lookup.gatherIpv6 = false) {r : Round}
    (h : lookup.lookupPublicAddress r = none) : r.answeredIpv4 = true := by
  unfold Round.answeredIpv4
  cases hs : r.server with
  | none => rfl
  | some server =>
    -- with a server, the round broadcasts whatever comes of the lookup
    unfold StunLookup.lookupPublicAddress at h
    simp only [hg, hs, bind, Option.bind_some, Bool.false_eq_true, if_false] at h
    split at h <;> cases h

section
variable {κ : Type} {P : Endpoint κ} {localToken : Token} {lookup : StunLookup} {s s' : GatherState}
  {e : GatherEvent} {o : GatherOut}

theorem gathering_cases (h : (gathering P localToken lookup).step s e = some (s', o)) :
    (∃ r, e = .lookup r ∧ lookup.lookupPublicAddress r = none ∧ o = .silent ∧ s' = { s with running := false }) ∨
    (∃ r addresses, e = .lookup r ∧ lookup.lookupPublicAddress r = some addresses ∧ o = .broadcast addresses ∧
      s' = { s with
        running := !lookup.runOnce
        channel := some addresses
        overflowed := s.overflowed || s.channel.isSome }) ∨
    (∃ now nonce value, e = .put now nonce ∧ P.publish localToken s.addresses now nonce = some value ∧
      o = .put (P.record localToken s.addresses now) value ∧ s' = { s with publisher := .waiting }) ∨
    (∃ addresses, e = .receive ∧ s.channel = some addresses ∧ o = .silent ∧
      s' = { s with channel := none, addresses := addresses, publisher := .putting }) ∨
    ((e = .receive ∨ e = .timeout) ∧ o = .silent ∧
      ∃ overflowed publisher, s' = { s with overflowed := overflowed, publisher := publisher }) := by
  cases e with
  | lookup r =>
    simp only [gathering] at h
    split at h
    · split at h
      · rename_i hr
        cases h; exact .inl ⟨r, rfl, hr, rfl, rfl⟩
      · rename_i addresses hr
        cases h; exact .inr (.inl ⟨r, addresses, rfl, hr, rfl, rfl⟩)
    · cases h
  | put now nonce =>
    simp only [gathering] at h
    split at h
    · obtain ⟨value, hv, he⟩ := Option.map_eq_some_iff.mp h
      cases he
      exact .inr (.inr (.inl ⟨now, nonce, value, rfl, hv, rfl, rfl⟩))
    · cases h
  | receive =>
    simp only [gathering] at h
    split at h
    · split at h
      · cases h; exact .inr (.inr (.inr (.inr ⟨.inl rfl, rfl, _, _, rfl⟩)))
      split at h
      · rename_i addresses hc
        cases h; exact .inr (.inr (.inr (.inl ⟨addresses, rfl, hc, rfl, rfl⟩)))
      split at h
      · cases h
      · cases h; exact .inr (.inr (.inr (.inr ⟨.inl rfl, rfl, _, _, rfl⟩)))
    · cases h
  | timeout =>
    simp only [gathering] at h
    split at h
    · split at h
      · cases h; exact .inr (.inr (.inr (.inr ⟨.inr rfl, rfl, _, _, rfl⟩)))
      · cases h
    · cases h

/-- The lists on their way to a record. -/
structure GatheredIpv4 (s : GatherState) : Prop where
  channel : ∀ addresses, s.channel = some addresses → AllIpv4 addresses
  addresses : AllIpv4 s.addresses

theorem gatheredIpv4_step (hg : lookup.gatherIpv6 = false) (hI : GatheredIpv4 s)
    (h : (gathering P localToken lookup).step s e = some (s', o)) (hans : e.answeredIpv4 = true) :
    GatheredIpv4 s' := by
  rcases gathering_cases h with ⟨r, rfl, _, _, rfl⟩ | ⟨r, addresses, rfl, hr, _, rfl⟩ | ⟨_, _, _, _, _, _, rfl⟩ |
    ⟨addresses, _, hc, _, rfl⟩ | ⟨_, _, _, _, rfl⟩
  · exact { hI with }
  · refine ⟨fun a ha => ?_, hI.addresses⟩
    cases ha
    exact (allIpv4_lookupPublicAddress hg hr).mpr hans
  · exact { hI with }
  · exact ⟨fun a ha => (by cases ha), hI.channel addresses hc⟩
  · exact { hI with }

theorem gatheredIpv4_run (hg : lookup.gatherIpv6 = false) {tr : List GatherEntry}
    (hr : (gathering P localToken lookup).Run .new tr s) (hans : ∀ en ∈ tr, en.event.answeredIpv4 = true) :
    GatheredIpv4 s := by
  refine hr.invariant (C := fun en => en.event.answeredIpv4 = true) ⟨?_, ?_⟩
    (fun _ _ _ _ hI hst hc => gatheredIpv4_step hg hI hst hc) hans
  · intro addresses h
    cases h
  · intro a h
    cases h

/-- **IPv4-only publication.** Without the local IPv6 address, a run
publishes IPv4 addresses only, in its broadcasts and in its records, exactly
when every lookup that is answered is answered with an IPv4 address. -/
theorem publishes_ipv4_iff (hg : lookup.gatherIpv6 = false) {tr : List GatherEntry}
    (hr : (gathering P localToken lookup).Run .new tr s) :
    PublishesIpv4 tr ↔ ∀ en ∈ tr, en.event.answeredIpv4 = true := by
  constructor
  · intro hpub en hen
    have hout := hpub en hen
    obtain ⟨a, b, rfl⟩ := List.append_of_mem hen
    rcases gathering_cases hr.split.2 with ⟨r, he, hnone, _⟩ | ⟨r, addresses, he, hr', ho, _⟩ | ⟨_, _, _, he, _⟩ |
      ⟨_, he, _⟩ | ⟨he | he, _⟩
    · rw [he]
      exact answeredIpv4_of_none hg hnone
    · rw [ho] at hout
      rw [he]
      exact (allIpv4_lookupPublicAddress hg hr').mp hout
    · rw [he]; rfl
    · rw [he]; rfl
    · rw [he]; rfl
    · rw [he]; rfl
  · intro hans en hen
    have hev := hans en hen
    obtain ⟨a, b, rfl⟩ := List.append_of_mem hen
    obtain ⟨hpre, hst⟩ := hr.split
    have hI := gatheredIpv4_run hg hpre fun x hx => hans x (List.mem_append_left _ hx)
    rcases gathering_cases hst with ⟨_, _, _, ho, _⟩ | ⟨r, addresses, he, hr', ho, _⟩ | ⟨_, _, _, _, _, ho, _⟩ |
      ⟨_, _, _, ho, _⟩ | ⟨_, ho, _⟩
    · rw [ho]; trivial
    · rw [he] at hev
      rw [ho]
      exact (allIpv4_lookupPublicAddress hg hr').mpr hev
    · rw [ho]; exact hI.addresses
    · rw [ho]; trivial
    · rw [ho]; trivial

end

/-! ## A lookup and two records -/

-- an answer whose attribute has the family, the port 10000 and the given octets
def stunAnswerOf (id : UInt64) (family : UInt8) (octets : Bytes) : Bytes :=
  BigEndian.be16 StunType.bindingResponse ++ BigEndian.be16 (UInt16.ofNat (8 + octets.length)) ++
    BigEndian.be64 cookieWord ++ BigEndian.be64 id ++ BigEndian.be16 StunType.mappedAddress ++
    BigEndian.be16 (UInt16.ofNat (4 + octets.length)) ++ [0, family, 0x27, 0x10] ++ octets

def ipv4Round : Round where
  servers := some [.ipv6Source, stunServer]
  localIpv6 := some none
  id := 5
  queue := []
  received := [(stunAnswerOf 5 1 [192, 0, 2, 2], stunServer)]
  routed := by decide
  active := false

-- the server says that the request came from 2001:db8::1
def ipv6Round : Round where
  servers := some [stunServer]
  localIpv6 := some none
  id := 5
  queue := []
  received := [(stunAnswerOf 5 2 [0x20, 0x01, 0x0d, 0xb8, 0, 0, 0, 0, 0, 0, 0, 0, 0, 0, 0, 1], stunServer)]
  routed := by decide
  active := false

def ipv4Lookup : StunLookup := ⟨10000, false, none, false⟩

def sampleGathering (r : Round) : List GatherEvent :=
  [.put (secs 190) (sampleNonce 0), .lookup r, .receive, .put (secs 200) (sampleNonce 0)]

theorem sampleGathering_runs :
    ((gathering (sampleEndpoint ⟨true, false⟩) (.fill 5) ipv4Lookup).exec .new (sampleGathering ipv4Round)).isSome =
      true := by
  decide +kernel

theorem sampleGathering_ipv4 : ∃ tr s,
    (gathering (sampleEndpoint ⟨true, false⟩) (.fill 5) ipv4Lookup).Run .new tr s ∧
    s.addresses = [.testNet 2 10000] ∧ PublishesIpv4 tr :=
  ⟨_, _, Machine.run_of_exec sampleGathering_runs, by decide +kernel,
    (publishes_ipv4_iff rfl (Machine.run_of_exec sampleGathering_runs)).mpr
      (List.all_eq_true.mp (by decide +kernel))⟩

theorem ipv6Round_runs :
    ((gathering (sampleEndpoint ⟨true, false⟩) (.fill 5) ipv4Lookup).exec .new [.lookup ipv6Round]).isSome = true := by
  decide +kernel

/-- A STUN server that answers with an IPv6 address gets it published although IPv6 is not gathered. -/
theorem ipv6_answer_published : ¬ ∀ tr s,
    (gathering (sampleEndpoint ⟨true, false⟩) (.fill 5) ipv4Lookup).Run .new tr s → PublishesIpv4 tr := by
  intro h
  have hpub := h _ _ (Machine.run_of_exec ipv6Round_runs)
  exact absurd hpub (by decide +kernel)

end P2pTunnler
