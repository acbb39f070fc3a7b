import P2pTunnler.Tunnel
import P2pTunnler.ConfineSound
import P2pTunnler.FanoutSound

/-!
# Every peer address has an origin

A connection sends to, and forwards from, addresses that the gatherer at the
other end of the connection found, or the one at its own end when the DHT
plays a record back to it, and addresses that presented its run token. Every
frame that it probes with carries a run token of one of these two ends.
-/

namespace P2pTunnler

/-! ## One connection -/

section
variable {κ : Type} {P : Endpoint κ} {tok : Token} {tr : List ConnEntry} {s s' : ConnState} {e : ConnEvent} {o : ConnOut}

/-- Some accepted record lists the address. -/
def Advertised (P : Endpoint κ) (tr : List ConnEntry) (a : SocketAddr) : Prop :=
  ∃ m, Accepted tr m ∧ a ∈ P.flags.recordPeers m

def Known (P : Endpoint κ) (tok : Token) (tr : List ConnEntry) (a : SocketAddr) : Prop :=
  Advertised P tr a ∨ Arrived tr (frame tok) a

def TokenFrom (P : Endpoint κ) (tr : List ConnEntry) (t : Token) : Prop :=
  ∃ m, Accepted tr m ∧ P.enc.remoteToken m = some t

theorem Known.snoc {a : SocketAddr} (h : Known P tok tr a) {en : ConnEntry} : Known P tok (tr ++ [en]) a := by
  rcases h with ⟨m, hm, ha⟩ | h
  · exact .inl ⟨m, hm.snoc, ha⟩
  · exact .inr h.snoc

theorem TokenFrom.snoc {t : Token} (h : TokenFrom P tr t) {en : ConnEntry} : TokenFrom P (tr ++ [en]) t := by
  obtain ⟨m, hm, ht⟩ := h
  exact ⟨m, hm.snoc, ht⟩

theorem known_of_contains (hr : (connection P).Run (.new tok) tr s) {a : SocketAddr}
    (h : s.connections.contains a = true) : Known P tok tr a := by
  rcases gate_of_contains hr h with ⟨m, hm, _, ha⟩ | h
  · exact .inl ⟨m, hm, ha⟩
  · exact .inr h

structure KnownInv (P : Endpoint κ) (tok : Token) (tr : List ConnEntry) (s : ConnState) : Prop where
  remoteToken : ∀ t, s.probes.remoteToken = some t → TokenFrom P tr t
  scheduler : ∀ d ∈ s.scheduler, ∃ t, d.1 = frame t ∧ TokenFrom P tr t
  loopback : s.loopback.Confined (Known P tok tr)

theorem LoopbackTask.Confined.snoc {t : LoopbackTask} (h : t.Confined (Known P tok tr)) {en : ConnEntry} :
    t.Confined (Known P tok (tr ++ [en])) := by
  cases t with
  | sending p peers => exact fun a ha => (h a ha).snoc
  | _ => trivial

theorem knownInv_loopback {e : LoopbackEvent} (hr : (connection P).Run (.new tok) tr s)
    (hl : s.loopback.Confined (Known P tok tr)) (h : loopbackStep s e = some (s', o)) :
    s'.loopback.Confined (Known P tok tr) := by
  rcases loopbackStep_cases h with ⟨_, _, lb, hlb, _, rfl⟩ | ⟨_, l₁, l₂, _, h₁, h₂, _, rfl⟩ | ⟨p, a, rest, hs, he⟩
  · cases lb with
    | sending p peers => exact absurd rfl (hlb p peers)
    | _ => trivial
  · intro a ha
    exact known_of_contains hr (CandidateSet.mem_addresses (fun _ h => h₁.mem.mp h) (fun _ h => h₂.mem.mp h) ha)
  · rw [hs] at hl
    cases he
    exact fun x hx => hl x (List.mem_cons_of_mem _ hx)

theorem scheduler_kept (h : (connection P).step s e = some (s', o)) :
    (∃ e', e = .scheduler e') ∨ s'.scheduler = s.scheduler := by
  cases e with
  | scheduler e => exact .inl ⟨e, rfl⟩
  | listener e =>
    rcases listenerStep_cases h with ⟨_, _, _, rfl, _⟩ | ⟨_, _, _, _, _, _, _, rfl⟩ | ⟨_, _, _, _, _, _, rfl⟩ |
      ⟨_, _, _, _, _, _, rfl⟩ | ⟨_, _, _, _, _, _, _, _, rfl⟩ <;> exact .inr rfl
  | handler e =>
    rcases handlerStep_cases h with ⟨_, _, _, _, _, _, rfl⟩ | ⟨_, _, _, _, _, _, _, rfl⟩ | ⟨_, _, _, _, _, _, rfl⟩ |
      ⟨_, _, _, he⟩
    · exact .inr rfl
    · exact .inr rfl
    · exact .inr rfl
    · cases he; exact .inr rfl
  | inbound e =>
    rcases inboundStep_cases h with ⟨_, _, _, _, _, _, rfl⟩ | ⟨_, _, _, _, rfl⟩ | ⟨rfl, _⟩ | ⟨_, _, _, _, _, _, rfl⟩ <;>
      exact .inr rfl
  | loopback e =>
    rcases loopbackStep_cases h with ⟨_, _, _, _, _, rfl⟩ | ⟨_, _, _, _, _, _, _, rfl⟩ | ⟨_, _, _, _, he⟩
    · exact .inr rfl
    · exact .inr rfl
    · cases he; exact .inr rfl
  | socket e =>
    rcases socketStep_cases h with ⟨_, _, _, _, _, _, _, _, rfl⟩ | ⟨_, _, _, rfl⟩ | ⟨_, _, _, _, _, rfl⟩ |
      ⟨_, _, _, _, _, _, rfl⟩ <;>
      exact .inr rfl

theorem remoteToken_step (hr : (connection P).Run (.new tok) tr s)
    (hI : ∀ t, s.probes.remoteToken = some t → TokenFrom P tr t) (h : (connection P).step s e = some (s', o)) :
    ∀ t, s'.probes.remoteToken = some t → TokenFrom P tr t := by
  rcases connection_paths h with ⟨e', rfl⟩ | ⟨_, ht⟩
  · rcases listenerStep_cases h with ⟨_, _, _, rfl, _⟩ | ⟨_, _, _, _, _, _, _, rfl⟩ | ⟨_, _, _, _, _, _, rfl⟩ |
      ⟨_, _, _, _, _, _, rfl⟩ | ⟨_, _, m, _, _, hl, _, _, rfl⟩
    · exact hI
    · exact hI
    · exact hI
    · exact hI
    · intro t ht
      have hacc := (recordInv_run hr).listener
      rw [hl] at hacc
      rw [ProbeState.updateRemote_remoteToken] at ht
      exact ⟨m, hacc, ht⟩
  · rw [ht]
    exact hI

theorem knownInv_step (hr : (connection P).Run (.new tok) tr s) (hI : KnownInv P tok tr s)
    (h : (connection P).step s e = some (s', o)) : KnownInv P tok (tr ++ [⟨s, e, o, s'⟩]) s' where
  remoteToken t ht := (remoteToken_step hr hI.remoteToken h t ht).snoc
  scheduler d hd := by
    have hfrom : ∃ t, d.1 = frame t ∧ TokenFrom P tr t := by
      rcases scheduler_kept h with ⟨e', rfl⟩ | hs
      · rcases schedulerStep_cases h with ⟨now, order, jitter, _, _, rfl⟩ | ⟨d', rest, hs, he⟩
        · obtain ⟨t, _, ht, hf, _⟩ := ProbeState.mem_dueFrames (f := d.1) (s := d.2) hd
          exact ⟨t, hf, hI.remoteToken t ht⟩
        · cases he
          exact hI.scheduler d (by rw [hs]; exact List.mem_cons_of_mem _ hd)
      · exact hI.scheduler d (hs ▸ hd)
    obtain ⟨t, hf, ht⟩ := hfrom
    exact ⟨t, hf, ht.snoc⟩
  loopback := by
    rcases connection_spares h with ⟨e', rfl⟩ | ⟨hl, _⟩
    · exact (knownInv_loopback hr hI.loopback h).snoc
    · rw [hl]
      exact hI.loopback.snoc

theorem knownInv_new : KnownInv P tok [] (.new tok) where
  remoteToken t ht := by cases ht
  scheduler d hd := by cases hd
  loopback := trivial

theorem knownInv_run (hr : (connection P).Run (.new tok) tr s) : KnownInv P tok tr s := by
  refine hr.history (C := fun _ => True) (P := KnownInv P tok) knownInv_new ?_ (fun _ _ => trivial)
  intro tr s e o s' hpre hI hst _
  exact knownInv_step hpre hI hst

-- every record that a run takes over is one that it shows as accepted
theorem brings_accepted (hr : (connection P).Run (.new tok) tr s) :
    ∀ en ∈ tr, Brings P (Advertised P tr) en.pre en.event := by
  intro en hen value now m he hrec a ha
  obtain ⟨b, c, rfl⟩ := List.append_of_mem hen
  refine ⟨m, ⟨en, hen, ?_⟩, ha⟩
  have hst := hr.split.2
  rw [he] at hst
  simp only [connection, listenerStep, hrec] at hst
  split at hst
  · exact (Prod.mk.inj (Option.some.inj hst)).2.symm
  · cases hst

/-- Where a connection sends, and what it probes with. -/
theorem offered_known (hr : (connection P).Run (.new tok) tr s) {origin : Origin} {d : Datagram} {q : Bool}
    (h : (connection P).step s e = some (s', .offered origin d q)) (hne : origin ≠ .stun) :
    Known P tok tr d.2 ∧ (origin = .due → Advertised P tr d.2 ∧ ∃ t, d.1 = frame t ∧ TokenFrom P tr t) := by
  obtain ⟨rfl, hh⟩ | ⟨rfl, peers, hl⟩ | ⟨rfl, rest, hs⟩ | rfl := offered_cases h
  · have hfrom := (packetInv_run hr).handler
    rw [hh] at hfrom
    refine ⟨.inr (hfrom.1 ▸ hfrom.2), ?_⟩
    intro hd
    cases hd
  · have hpeers := (knownInv_run hr).loopback
    rw [hl] at hpeers
    refine ⟨hpeers d.2 List.mem_cons_self, ?_⟩
    intro hd
    cases hd
  · have hmem : d ∈ s.scheduler := by rw [hs]; exact List.mem_cons_self
    have hadv := (recordConfined_run hr (brings_accepted hr)).scheduler d hmem
    exact ⟨.inl hadv, fun _ => ⟨hadv, (knownInv_run hr).scheduler d hmem⟩⟩
  · exact absurd rfl hne

theorem forwarded_known (hr : (connection P).Run (.new tok) tr s) {packet : Bytes} {source wireguard : SocketAddr}
    {q : Bool} (h : (connection P).step s e = some (s', .forwarded packet source wireguard q)) :
    Known P tok tr source := by
  rcases (connection_owns h).2.2 with ⟨e', rfl⟩ | ⟨ho, _⟩
  · rcases inboundStep_cases h with ⟨_, _, _, _, _, ho, _⟩ | ⟨_, _, _, ho, _⟩ | ⟨_, ho⟩ | ⟨_, _, _, hd, _, ho, _⟩
    · cases ho
    · cases ho
    · cases ho
    · cases ho
      obtain ⟨a, c, b, rfl, _, _, _, hg⟩ := inboundInv_run hr _ _ hd
      rcases hg with ⟨m, ⟨x, hx, hxo⟩, _, ha⟩ | ⟨x, hx, hxo⟩
      · exact .inl ⟨m, ⟨x, List.mem_append_left _ hx, hxo⟩, ha⟩
      · exact .inr ⟨x, List.mem_append_left _ hx, hxo⟩
  · cases ho

end

/-! ## Many connections -/

-- the text form of an IPv6 address has no place for the flow label
def SocketAddr.unlabelled : SocketAddr → SocketAddr
  | v4 ip port => v4 ip port
  | v6 ip port _ scopeId => v6 ip port 0 scopeId

/-- What the encodings write they read back, up to flow labels; of the tokens, those in use. -/
structure Encodings.RoundTrips {ι : Type} (E : Encodings) (tok : ι → Token) : Prop where
  json : ∀ m b, E.jsonBytes m = some b →
    E.parseDhtMessage b = some { m with ipAddrList := m.ipAddrList.map SocketAddr.unlabelled }
  base64 : ∀ i, E.base64Decode (E.base64Encode (tok i).toList) = some (tok i).toList

section
variable {ι : Type} {κ : Type} {E : Encodings} {B : SalsaBox κ} {parties : ι → Party} {tok : ι → Token}
  {lookups : ι → StunLookup} {tr : List (TunnelEntry ι)} {s s' : TunnelState ι}

/-- The gatherer of `j` found the address. -/
def Gathered (tr : List (TunnelEntry ι)) (j : ι) (a : SocketAddr) : Prop :=
  ∃ en ∈ tr, ∃ e addresses, en.event = .gather j e ∧ en.out = .gather (.broadcast addresses) ∧
    ∃ x ∈ addresses, x.unlabelled = a

/-- `i` received its own run token from the address. -/
def Presented (tok : ι → Token) (tr : List (TunnelEntry ι)) (i : ι) (a : SocketAddr) : Prop :=
  ∃ en ∈ tr, ∃ raw, en.event = .conn i (.socket (.receive (frame (tok i), raw))) ∧ normalizeIpv4MappedSource raw = a

/-- `j` is the other end of the connection `i`, or the same end. -/
def Shares (B : SalsaBox κ) (parties : ι → Party) (j i : ι) : Prop :=
  (parties j).PeerOf B (parties i) ∨ (parties j).SameEnd B (parties i)

theorem Gathered.append {a : List (TunnelEntry ι)} {j : ι} {x : SocketAddr} (h : Gathered a j x)
    (b : List (TunnelEntry ι)) : Gathered (a ++ b) j x := by
  obtain ⟨en, hen, hx⟩ := h
  exact ⟨en, List.mem_append_left _ hen, hx⟩

variable [DecidableEq ι]

theorem addresses_broadcast {P : Endpoint κ} {t : Token} {lookup : StunLookup} {gtr : List GatherEntry}
    {g : GatherState} (hr : (gathering P t lookup).Run .new gtr g) {a : SocketAddr} (ha : a ∈ g.addresses) :
    ∃ en ∈ gtr, ∃ addresses, en.out = .broadcast addresses ∧ a ∈ addresses := by
  have hmem : g.addresses ∈ gtr.flatMap adopted := by
    rw [(newest_run hr).2] at ha ⊢
    rcases List.eq_nil_or_concat (gtr.flatMap adopted) with hnil | ⟨l, x, hl⟩
    · rw [hnil] at ha
      cases ha
    · rw [hl]
      simp
  obtain ⟨en, hen, hb⟩ := List.mem_flatMap.mp ((adopted_sublist hr).mem hmem)
  refine ⟨en, hen, g.addresses, ?_, ha⟩
  unfold broadcasts at hb
  split at hb
  · rename_i addresses ho
    rw [ho, List.mem_singleton.mp hb]
  · cases hb

theorem connOf_eq_some {i : ι} {en : TunnelEntry ι} {c : ConnEntry} (h : connOf i en = some c) :
    en.event = .conn i c.event ∧ en.out = .conn c.out := by
  unfold connOf at h
  split at h
  · rename_i j e o he ho
    split at h
    · rename_i hj
      cases h
      exact ⟨hj ▸ he, ho⟩
    · cases h
  · cases h

theorem gatherOf_eq_some {i : ι} {en : TunnelEntry ι} {g : GatherEntry} (h : gatherOf i en = some g) :
    en.event = .gather i g.event ∧ en.out = .gather g.out := by
  unfold gatherOf at h
  split at h
  · rename_i j e o he ho
    split at h
    · rename_i hj
      cases h
      exact ⟨hj ▸ he, ho⟩
    · cases h
  · cases h

theorem gathered_addresses (hr : (tunnel E B parties tok lookups).Run (.new tok) tr s) {j : ι} {a : SocketAddr}
    (ha : a ∈ (s.gathers j).addresses) : Gathered tr j a.unlabelled := by
  obtain ⟨g, hg, addresses, ho, hmem⟩ := addresses_broadcast (gather_run j hr) ha
  obtain ⟨en, hen, he⟩ := List.mem_filterMap.mp hg
  obtain ⟨hev, hout⟩ := gatherOf_eq_some he
  exact ⟨en, hen, g.event, addresses, hev, by rw [hout, ho], a, hmem, rfl⟩

/-- A value on the DHT is the record of its publisher, with addresses that its gatherer found. -/
structure PutInv (E : Encodings) (B : SalsaBox κ) (parties : ι → Party) (tok : ι → Token) (tr : List (TunnelEntry ι))
    (p : Publication ι) : Prop where
  produced : Produced E B parties p
  token : p.message.control = some ⟨E.base64Encode (tok p.publisher).toList⟩
  gathered : ∀ x ∈ p.message.ipAddrList, Gathered tr p.publisher x.unlabelled

omit [DecidableEq ι] in
theorem PutInv.append {p : Publication ι} (h : PutInv E B parties tok tr p) (b : List (TunnelEntry ι)) :
    PutInv E B parties tok (tr ++ b) p :=
  ⟨h.produced, h.token, fun x hx => (h.gathered x hx).append b⟩

theorem putInv_put (hr : (tunnel E B parties tok lookups).Run (.new tok) tr s) {i : ι} {e : GatherEvent} {g : GatherState}
    {o : GatherOut} (h : (gathering ((parties i).endpoint E B) (tok i) (lookups i)).step (s.gathers i) e = some (g, o))
    {p : Publication ι} (hp : p ∈ o.publication E B parties i) : PutInv E B parties tok tr p := by
  rcases gathering_cases h with ⟨_, _, _, rfl, _⟩ | ⟨_, _, _, _, rfl, _⟩ | ⟨now, nonce, value, _, hpub, rfl, _⟩ |
    ⟨_, _, _, rfl, _⟩ | ⟨_, rfl, _⟩
  · cases hp
  · cases hp
  · obtain rfl := List.mem_singleton.mp hp
    obtain ⟨plaintext, hj, henc⟩ := Option.bind_eq_some_iff.mp hpub
    exact ⟨⟨plaintext, nonce, hj, henc⟩, rfl, fun x hx => gathered_addresses hr hx⟩
  · cases hp
  · cases hp

theorem putInv_run (hr : (tunnel E B parties tok lookups).Run (.new tok) tr s) :
    ∀ p ∈ s.puts, PutInv E B parties tok tr p := by
  refine hr.history (C := fun _ => True) (P := fun tr s => ∀ p ∈ s.puts, PutInv E B parties tok tr p) ?_ ?_
    (fun _ _ => trivial)
  · intro p hp
    cases hp
  · intro tr s e o s' hpre hI hst _ p hp
    rcases tunnel_cases hst with ⟨_, _, _, _, _, _, _, _, rfl⟩ | ⟨i, ge, g, go, _, hg, _, rfl⟩
    · exact (hI p hp).append _
    · rcases List.mem_append.mp hp with hp | hp
      · exact (hI p hp).append _
      · exact (putInv_put hpre hg hp).append _

/-- What a listener accepts is the record of an end that shares its key. -/
theorem deliverable_traced (hB : B.Lawful) (hE : E.RoundTrips tok) (hsep : KeysSeparate B parties)
    (hr : (tunnel E B parties tok lookups).Run (.new tok) tr s) {i : ι} {value : Bytes} {now : Int} {m : Message}
    (hd : s.deliverable E B parties i (.listener (.value value now)) = true)
    (hm : ((parties i).endpoint E B).decode value = some m) :
    ∃ j, Shares B parties j i ∧ (∀ x ∈ m.ipAddrList, Gathered tr j x) ∧ E.remoteToken m = some (tok j) := by
  simp only [TunnelState.deliverable, Bool.or_eq_true, List.any_eq_true, decide_eq_true_eq] at hd
  rcases hd with hnone | ⟨p, hp, rfl⟩
  · obtain ⟨plaintext, hdec, _⟩ := Option.bind_eq_some_iff.mp hm
    rw [show CryptoBox.decrypt B ((parties i).endpoint E B).crypto value = some plaintext from hdec] at hnone
    cases hnone
  · have hI := putInv_run hr p hp
    obtain ⟨hkey, hparse⟩ := (decode_produced hB hI.produced).mp hm
    obtain ⟨plaintext, hj, hparse⟩ := Option.bind_eq_some_iff.mp hparse
    rw [hE.json _ _ hj] at hparse
    cases hparse
    refine ⟨p.publisher, hsep _ _ hkey, ?_, ?_⟩
    · intro x hx
      obtain ⟨y, hy, rfl⟩ := List.mem_map.mp hx
      exact hI.gathered y hy
    · have htok : Octets.tryFrom 16 (tok p.publisher).toList = some (tok p.publisher) := Octets.tryFrom_eq_some.mpr rfl
      simp only [Encodings.remoteToken, hI.token, Option.bind_some, Encodings.decodeToken, hE.base64, htok]

theorem accepted_traced (hB : B.Lawful) (hE : E.RoundTrips tok) (hsep : KeysSeparate B parties)
    (hr : (tunnel E B parties tok lookups).Run (.new tok) tr s) {i : ι} {m : Message}
    (hm : Accepted (tr.filterMap (connOf i)) m) :
    ∃ j, Shares B parties j i ∧ (∀ x ∈ m.ipAddrList, Gathered tr j x) ∧ E.remoteToken m = some (tok j) := by
  obtain ⟨c, hc, hout⟩ := hm
  obtain ⟨en, hen, he⟩ := List.mem_filterMap.mp hc
  obtain ⟨hev, ho⟩ := connOf_eq_some he
  obtain ⟨a, b, rfl⟩ := List.append_of_mem hen
  obtain ⟨hpre, hst⟩ := hr.split
  rw [hev, ho, hout] at hst
  rcases tunnel_cases hst with ⟨k, ce, _, co, hk, hd, hstep, hco, _⟩ | ⟨_, _, _, _, hk, _⟩
  · cases hk
    cases hco
    rcases (connection_owns hstep).1 with ⟨le, hle⟩ | ⟨ho, _⟩
    · rw [hle] at hstep hd
      rcases listenerStep_cases hstep with ⟨_, _, _, _, ho⟩ | ⟨value, now, m', rfl, _, hrec, ho, _⟩ |
        ⟨_, _, _, _, _, ho, _⟩ | ⟨_, _, _, _, _, ho, _⟩ | ⟨_, _, _, _, _, _, _, ho, _⟩
      · cases ho
      · cases ho
        obtain ⟨j, hs, hg, ht⟩ := deliverable_traced hB hE hsep hpre hd ((Endpoint.receive_eq_some _).mp hrec).1
        exact ⟨j, hs, fun x hx => (hg x hx).append _, ht⟩
      · cases ho
      · cases ho
      · cases ho
    · cases ho
  · cases hk

/-! ## The traffic of a connection -/

/-- Where an address may come from that `i` exchanges datagrams with. -/
def Traced (B : SalsaBox κ) (parties : ι → Party) (tok : ι → Token) (tr : List (TunnelEntry ι)) (i : ι) (a : SocketAddr) :
    Prop :=
  (∃ j, Shares B parties j i ∧ Gathered tr j a ∧ isUsablePeerAddr a = true) ∨ Presented tok tr i a

theorem advertised_traced (hB : B.Lawful) (hE : E.RoundTrips tok) (hsep : KeysSeparate B parties)
    (hr : (tunnel E B parties tok lookups).Run (.new tok) tr s) {i : ι} {a : SocketAddr}
    (ha : Advertised ((parties i).endpoint E B) (tr.filterMap (connOf i)) a) :
    ∃ j, Shares B parties j i ∧ Gathered tr j a ∧ isUsablePeerAddr a = true := by
  obtain ⟨m, hm, hp⟩ := ha
  obtain ⟨j, hs, hg, _⟩ := accepted_traced hB hE hsep hr hm
  obtain ⟨hlist, _, husable⟩ := ConnectionFlags.mem_recordPeers _ hp
  exact ⟨j, hs, hg a hlist, husable⟩

theorem known_traced (hB : B.Lawful) (hE : E.RoundTrips tok) (hsep : KeysSeparate B parties)
    (hr : (tunnel E B parties tok lookups).Run (.new tok) tr s) {i : ι} {a : SocketAddr}
    (ha : Known ((parties i).endpoint E B) (tok i) (tr.filterMap (connOf i)) a) : Traced B parties tok tr i a := by
  rcases ha with ha | ⟨c, hc, raw, hev, hraw⟩
  · exact .inl (advertised_traced hB hE hsep hr ha)
  · obtain ⟨en, hen, he⟩ := List.mem_filterMap.mp hc
    refine .inr ⟨en, hen, raw, ?_, hraw⟩
    rw [(connOf_eq_some he).1, hev]

/-- **Every peer address has an origin.** Whatever the DHT replays and
whatever arrives on the sockets, each datagram that a connection sends, STUN
requests apart, goes to a traced address, each one that it forwards to
WireGuard comes from one, and it probes only gathered addresses, with the
token of an end that shares its key. -/
theorem traffic_traced (hB : B.Lawful) (hE : E.RoundTrips tok) (hsep : KeysSeparate B parties)
    (hr : (tunnel E B parties tok lookups).Run (.new tok) tr s) {a b : List (TunnelEntry ι)} {en : TunnelEntry ι} {i : ι}
    {e : ConnEvent} (htr : tr = a ++ en :: b) (hev : en.event = .conn i e) :
    (∀ origin d q, en.out = .conn (.offered origin d q) → origin ≠ .stun →
      Traced B parties tok a i d.2 ∧
      (origin = .due → (∃ j, Shares B parties j i ∧ Gathered a j d.2 ∧ isUsablePeerAddr d.2 = true) ∧
        ∃ j, Shares B parties j i ∧ d.1 = frame (tok j))) ∧
    ∀ packet source wireguard q, en.out = .conn (.forwarded packet source wireguard q) →
      Traced B parties tok a i source := by
  rw [htr] at hr
  obtain ⟨hpre, hst⟩ := hr.split
  rw [hev] at hst
  rcases tunnel_cases hst with ⟨k, ce, c, co, hk, _, hstep, hco, _⟩ | ⟨_, _, _, _, hk, _⟩
  · cases hk
    have hconn := conn_run i hpre
    constructor
    · intro origin d q hout hne
      rw [hco] at hout
      cases hout
      obtain ⟨hknown, hdue⟩ := offered_known hconn hstep hne
      refine ⟨known_traced hB hE hsep hpre hknown, ?_⟩
      intro ho
      obtain ⟨hadv, t, hf, m, hm, ht⟩ := hdue ho
      obtain ⟨j, hs, _, htok⟩ := accepted_traced hB hE hsep hpre hm
      have htj : t = tok j := by
        rw [show E.remoteToken m = some t from ht] at htok
        exact Option.some.inj htok
      exact ⟨advertised_traced hB hE hsep hpre hadv, j, hs, htj ▸ hf⟩
    · intro packet source wireguard q hout
      rw [hco] at hout
      cases hout
      exact known_traced hB hE hsep hpre (forwarded_known hconn hstep)
  · cases hk

end

/-! ## A record and a datagram that follows it -/

def pairValue : Bytes :=
  (((pairParties false).endpoint sampleEnc sampleBox).publish (.fill 5) [.testNet 2 10000] (secs 200)
    (sampleNonce 0)).getD []

/-- One host looks its address up and publishes it; the other takes the record over and forwards a datagram. -/
def pairTunnel : List (TunnelEvent Bool) :=
  [.gather false (.put (secs 190) (sampleNonce 0)),
    .gather false (.lookup ipv4Round),
    .gather false .receive,
    .gather false (.put (secs 200) (sampleNonce 0)),
    .conn true (.listener (.value pairValue (secs 250))),
    .conn true (.listener (.read [])),
    .conn true (.listener .replace),
    .conn true (.listener (.update [.testNet 2 10000] 0)),
    .conn true (.socket (.receiveLocal ([1, 0, 0, 0], .v4 (.new 127 0 0 1) 51820))),
    .conn true (.loopback .recv),
    .conn true (.loopback .compare),
    .conn true (.loopback .set),
    .conn true (.loopback (.lock [.testNet 2 10000] [])),
    .conn true (.loopback .send)]

theorem pairTunnel_runs :
    ((tunnel sampleEnc sampleBox pairParties (fun _ => .fill 5) fun _ => ipv4Lookup).exec (.new fun _ => .fill 5)
      pairTunnel).isSome = true := by
  decide +kernel

theorem sampleEnc_roundTrips : sampleEnc.RoundTrips fun _ : Bool => .fill 5 where
  json m b h := by
    simp only [sampleEnc] at h
    split at h
    · rename_i hm
      cases h; rw [hm]; decide +kernel
    split at h
    · rename_i hm
      cases h; rw [hm]; decide +kernel
    split at h
    · rename_i hm
      cases h; rw [hm]; decide +kernel
    split at h
    · rename_i hm
      cases h; rw [hm]; decide +kernel
    · cases h
  base64 _ := by decide +kernel

def offersTo (a : SocketAddr) (en : TunnelEntry Bool) : Bool :=
  match en.event, en.out with
  | .conn true _, .conn (.offered .loopback d _) => d.2 = a
  | _, _ => false

theorem pairTunnel_traced : ∃ tr s,
    (tunnel sampleEnc sampleBox pairParties (fun _ => .fill 5) fun _ => ipv4Lookup).Run (.new fun _ => .fill 5) tr s ∧
    ∃ a en b, tr = a ++ en :: b ∧ offersTo (.testNet 2 10000) en = true ∧
      Traced sampleBox pairParties (fun _ => .fill 5) a true (.testNet 2 10000) := by
  have hrun := Machine.run_of_exec pairTunnel_runs
  refine ⟨_, _, hrun, ?_⟩
  have hany : ((tunnel sampleEnc sampleBox pairParties (fun _ => .fill 5) fun _ => ipv4Lookup).exec
      (.new fun _ => .fill 5) pairTunnel).get pairTunnel_runs |>.1.any (offersTo (.testNet 2 10000)) := by
    decide +kernel
  obtain ⟨en, hen, hoff⟩ := List.any_eq_true.mp hany
  obtain ⟨a, b, htr⟩ := List.append_of_mem hen
  refine ⟨a, en, b, htr, hoff, ?_⟩
  unfold offersTo at hoff
  split at hoff
  · rename_i e d q hev hout
    have htraced := (traffic_traced sampleBox_lawful sampleEnc_roundTrips pairParties_separate hrun htr hev).1
      .loopback d q hout nofun
    rw [of_decide_eq_true hoff] at htraced
    exact htraced.1
  · cases hoff

end P2pTunnler
