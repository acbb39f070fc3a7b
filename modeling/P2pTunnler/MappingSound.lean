import P2pTunnler.Mapping
import P2pTunnler.RoutesSound
import Mathlib.Data.List.Induction

/-!
# Leases are returned and renewed

A worker accounts for every mapping it was granted, except one that NAT-PMP
granted just before the query for the external address failed. A mapping is
renewed in time unless its lifetime is not longer than the shortest delay
between renewals.
-/

namespace P2pTunnler

/-! ## Steps -/

inductive WorkerStep (port : UInt16) (s : WorkerState) : WorkerEvent → List Effect → WorkerState → Prop
  | start (a : RouterAnswers) : s.phase = .starting →
    WorkerStep port s (.start a) (acquire a port).2 { s with phase := (acquire a port).1 }
  | deliver {externalAddr method lease} : s.phase = .sending externalAddr method lease →
    WorkerStep port s (.send true) [.sent (.ok (externalAddr, method))]
      { s with phase := .waiting lease s.now (s.now + lease.renewalDelay) }
  | abandon {externalAddr method lease} : s.phase = .sending externalAddr method lease →
    WorkerStep port s (.send false) [.removalRequested lease.id] { s with phase := .returned }
  | fail {error} (delivered : Bool) : s.phase = .failing error →
    WorkerStep port s (.send delivered) (if delivered then [.sent (.error error)] else []) { s with phase := .returned }
  | elapse {lease grantedAt deadline} (d : Nat) : s.phase = .waiting lease grantedAt deadline → s.now + d ≤ deadline →
    WorkerStep port s (.elapse d) [] { s with now := s.now + d }
  | shutdown {lease grantedAt deadline} : s.phase = .waiting lease grantedAt deadline →
    WorkerStep port s .shutdown [.removalRequested lease.id] { s with phase := .returned }
  | expire {lease grantedAt} (e : String) : s.phase = .waiting lease grantedAt s.now →
    WorkerStep port s (.timeout (.error e)) [.renewalFailed lease.id] { s with phase := .returned, active := false }
  | renew {lease grantedAt} (lifetime : UInt32) : s.phase = .waiting lease grantedAt s.now →
    WorkerStep port s (.timeout (.ok lifetime)) []
      { s with phase := .waiting (lease.renewed lifetime) s.now (s.now + (lease.renewed lifetime).renewalDelay) }

section
variable {port : UInt16} {s s' : WorkerState} {e : WorkerEvent} {o : List Effect} {tr : List WorkerEntry}

theorem workerStep_of_step (h : (mappingWorker port).step s e = some (s', o)) : WorkerStep port s e o s' := by
  cases e with
  | start a =>
    dsimp only [mappingWorker] at h
    split at h
    · rename_i hp
      cases h
      exact .start a hp
    · cases h
  | send delivered =>
    dsimp only [mappingWorker] at h
    split at h
    · rename_i hp
      cases delivered with
      | false =>
        cases h
        exact .abandon hp
      | true =>
        cases h
        exact .deliver hp
    · rename_i hp
      cases h
      exact .fail delivered hp
    · cases h
  | elapse d =>
    dsimp only [mappingWorker] at h
    split at h
    · rename_i hp
      split at h
      · rename_i hd
        cases h
        exact .elapse d hp hd
      · cases h
    · cases h
  | shutdown =>
    dsimp only [mappingWorker] at h
    split at h
    · rename_i hp
      cases h
      exact .shutdown hp
    · cases h
  | timeout renewal =>
    dsimp only [mappingWorker] at h
    split at h
    · rename_i hp
      split at h
      · rename_i hd
        subst hd
        cases renewal with
        | error e =>
          cases h
          exact .expire e hp
        | ok lifetime =>
          cases h
          exact .renew lifetime hp
      · cases h
    · cases h

theorem step_of_workerStep (h : WorkerStep port s e o s') : (mappingWorker port).step s e = some (s', o) := by
  cases h with
  | start a hp => simp only [mappingWorker, hp]
  | deliver hp => simp only [mappingWorker, hp, if_true]
  | abandon hp => simp only [mappingWorker, hp, Bool.false_eq_true, if_false]
  | fail delivered hp => simp only [mappingWorker, hp]
  | elapse d hp hd => simp only [mappingWorker, hp, hd, if_true]
  | shutdown hp => simp only [mappingWorker, hp]
  | expire e hp => simp only [mappingWorker, hp, if_true]
  | renew lifetime hp => simp only [mappingWorker, hp, if_true]

end

/-! ## Accounting for mappings -/

def effects (tr : List WorkerEntry) : List Effect := tr.flatMap (·.out)

/-- Every mapping the router granted has been asked to go, or could not be renewed. -/
def Accounted (tr : List WorkerEntry) : Prop :=
  ∀ id, .granted id ∈ effects tr → .removalRequested id ∈ effects tr ∨ .renewalFailed id ∈ effects tr

/-- PCP or NAT-PMP grants `mapping` at `gateway`. -/
def Grants (port : UInt16) (a : RouterAnswers) (gateway : Ipv4Addr) (mapping : PortMapping) : Prop :=
  ∃ client, defaultIpv4GatewayAndClient a.host = .ok (gateway, client) ∧ a.runtime = .ok () ∧
    requestMapping a gateway client port = .ok mapping

/-- NAT-PMP grants a mapping, and then does not tell the external address. -/
def Strands (port : UInt16) (a : RouterAnswers) : Prop :=
  ∃ gateway mapping e, Grants port a gateway mapping ∧ mapping.mappingType = .natPmp ∧
    a.externalAddress gateway = .error e

namespace Effect

@[simp] def granted? : Effect → Option MappingId
  | granted id => some id
  | _ => none

@[simp] def settled? : Effect → Option MappingId
  | removalRequested id => some id
  | renewalFailed id => some id
  | _ => none

theorem mem_granted {id : MappingId} {es : List Effect} : id ∈ es.filterMap granted? ↔ .granted id ∈ es := by
  rw [List.mem_filterMap]
  constructor
  · rintro ⟨x, hx, h⟩
    cases x <;> cases h
    exact hx
  · intro h
    exact ⟨_, h, rfl⟩

theorem mem_settled {id : MappingId} {es : List Effect} :
    id ∈ es.filterMap settled? ↔ .removalRequested id ∈ es ∨ .renewalFailed id ∈ es := by
  rw [List.mem_filterMap]
  constructor
  · rintro ⟨x, hx, h⟩
    cases x <;> cases h
    · exact .inl hx
    · exact .inr hx
  · rintro (h | h)
    · exact ⟨_, h, rfl⟩
    · exact ⟨_, h, rfl⟩

end Effect

@[simp] def WorkerPhase.held : WorkerPhase → List MappingId
  | .sending _ _ lease => [lease.id]
  | .waiting lease _ _ => [lease.id]
  | _ => []

@[simp] theorem Lease.id_renewed (lease : Lease) (lifetime : UInt32) : (lease.renewed lifetime).id = lease.id := by
  cases lease <;> rfl

section
variable {port : UInt16} {a : RouterAnswers} {gateway : Ipv4Addr} {mapping : PortMapping}

theorem Grants.unique {gateway' : Ipv4Addr} {mapping' : PortMapping} (h : Grants port a gateway mapping)
    (h' : Grants port a gateway' mapping') : gateway = gateway' ∧ mapping = mapping' := by
  obtain ⟨client, hh, -, hm⟩ := h
  obtain ⟨client', hh', -, hm'⟩ := h'
  obtain ⟨rfl, rfl⟩ := Prod.mk.inj (Except.ok.inj (hh.symm.trans hh'))
  exact ⟨rfl, Except.ok.inj (hm.symm.trans hm')⟩

theorem tryPcpNatpmp_refused (h : ∀ gateway mapping, ¬Grants port a gateway mapping) :
    ∃ e, tryPcpNatpmp a port = (.error e, []) := by
  cases hh : defaultIpv4GatewayAndClient a.host with
  | error e => exact ⟨e, by simp [tryPcpNatpmp, hh]⟩
  | ok r =>
    obtain ⟨gateway, client⟩ := r
    cases hr : a.runtime with
    | error e => exact ⟨_, by simp only [tryPcpNatpmp, hh, hr, context]; rfl⟩
    | ok u =>
      cases hm : requestMapping a gateway client port with
      | error e => exact ⟨e, by simp [tryPcpNatpmp, hh, hr, context, hm]⟩
      | ok mapping => exact absurd ⟨client, hh, hr, hm⟩ (h gateway mapping)

theorem tryPcpNatpmp_stranded (h : Grants port a gateway mapping) {e : String}
    (hx : externalIp a gateway mapping = .error e) : tryPcpNatpmp a port = (.error e, [.granted mapping.id]) := by
  obtain ⟨client, hh, hr, hm⟩ := h
  simp [tryPcpNatpmp, hh, hr, context, hm, hx]

theorem tryPcpNatpmp_ok (h : Grants port a gateway mapping) {ip : IpAddr} (hx : externalIp a gateway mapping = .ok ip) :
    tryPcpNatpmp a port = (.ok (.new ip mapping.externalPort, mapping.method, mapping), [.granted mapping.id]) := by
  obtain ⟨client, hh, hr, hm⟩ := h
  simp [tryPcpNatpmp, hh, hr, context, hm, hx]

theorem externalIp_error_iff : (∃ e, externalIp a gateway mapping = .error e) ↔
    mapping.mappingType = .natPmp ∧ ∃ e, a.externalAddress gateway = .error e := by
  cases hm : mapping.mappingType with
  | pcp ip => simp [externalIp, hm]
  | natPmp => cases hx : a.externalAddress gateway <;> simp [externalIp, hm, hx, Except.map]

theorem tryPcpNatpmp_cases (a : RouterAnswers) (port : UInt16) :
    (¬Strands port a ∧ ∃ e, tryPcpNatpmp a port = (.error e, [])) ∨
    (Strands port a ∧ ∃ e, ∃ mapping : PortMapping, mapping.method = .natPmp ∧
      tryPcpNatpmp a port = (.error e, [.granted mapping.id])) ∨
    (¬Strands port a ∧ ∃ addr, ∃ mapping : PortMapping,
      tryPcpNatpmp a port = (.ok (addr, mapping.method, mapping), [.granted mapping.id])) := by
  by_cases hg : ∃ gateway mapping, Grants port a gateway mapping
  · obtain ⟨gateway, mapping, hg⟩ := hg
    cases hx : externalIp a gateway mapping with
    | error e =>
      obtain ⟨hm, e', he'⟩ := externalIp_error_iff.mp ⟨e, hx⟩
      have hs : Strands port a := ⟨gateway, mapping, e', hg, hm, he'⟩
      exact .inr (.inl ⟨hs, e, mapping, by simp [PortMapping.method, hm], tryPcpNatpmp_stranded hg hx⟩)
    | ok ip =>
      refine .inr (.inr ⟨?_, _, mapping, tryPcpNatpmp_ok hg hx⟩)
      rintro ⟨gateway', mapping', e, hg', hm, he⟩
      obtain ⟨rfl, rfl⟩ := hg.unique hg'
      obtain ⟨e', he'⟩ := externalIp_error_iff.mpr ⟨hm, e, he⟩
      rw [hx] at he'
      cases he'
  · have hs : ¬Strands port a := fun ⟨gateway, mapping, _, h, _⟩ => hg ⟨gateway, mapping, h⟩
    exact .inl ⟨hs, tryPcpNatpmp_refused fun gateway mapping h => hg ⟨gateway, mapping, h⟩⟩

/-- The mapping that is left behind when the first attempt fails. -/
def stranded (port : UInt16) (a : RouterAnswers) : List MappingId :=
  match tryPcpNatpmp a port with
  | (.ok _, _) => []
  | (.error _, effects) => effects.filterMap Effect.granted?

theorem stranded_eq_nil_iff : stranded port a = [] ↔ ¬Strands port a := by
  rcases tryPcpNatpmp_cases a port with ⟨hs, e, hp⟩ | ⟨hs, e, mapping, -, hp⟩ | ⟨hs, addr, mapping, hp⟩
  · simp [stranded, hp, hs]
  · simp [stranded, hp, hs]
  · simp [stranded, hp, hs]

theorem tryUpnpIgd_cases (a : RouterAnswers) (port : UInt16) :
    (∃ e, tryUpnpIgd a port = (.error e, [])) ∨
    ∃ addr localAddr, tryUpnpIgd a port = (.ok (addr, localAddr), [.granted ⟨.upnpIgd, addr.port⟩]) := by
  rw [tryUpnpIgd]
  split
  · exact .inl ⟨_, rfl⟩
  · dsimp only
    split
    · exact .inl ⟨_, rfl⟩
    · split
      · exact .inl ⟨_, rfl⟩
      · exact .inr ⟨_, _, rfl⟩

theorem acquire_phase (a : RouterAnswers) (port : UInt16) :
    (∃ addr method lease, (acquire a port).1 = .sending addr method lease) ∨
    ∃ e, (acquire a port).1 = .failing e := by
  rcases tryPcpNatpmp_cases a port with ⟨-, e, hp⟩ | ⟨-, e, mapping, -, hp⟩ | ⟨-, addr, mapping, hp⟩
  · rcases tryUpnpIgd_cases a port with ⟨e', hu⟩ | ⟨addr, localAddr, hu⟩ <;> simp [acquire, hp, hu]
  · rcases tryUpnpIgd_cases a port with ⟨e', hu⟩ | ⟨addr, localAddr, hu⟩ <;> simp [acquire, hp, hu]
  · simp [acquire, hp]

/-- The worker holds what it was granted, but for what is stranded. -/
theorem acquire_balance (a : RouterAnswers) (port : UInt16) :
    (acquire a port).2.filterMap Effect.granted? = stranded port a ++ (acquire a port).1.held ∧
    (acquire a port).2.filterMap Effect.settled? = [] ∧
    ∀ id ∈ stranded port a, id ∉ (acquire a port).1.held := by
  rcases tryPcpNatpmp_cases a port with ⟨-, e, hp⟩ | ⟨-, e, mapping, hm, hp⟩ | ⟨-, addr, mapping, hp⟩
  · rcases tryUpnpIgd_cases a port with ⟨e', hu⟩ | ⟨addr, localAddr, hu⟩
    · simp [acquire, stranded, hp, hu]
    · simp [acquire, stranded, hp, hu, Lease.id]
  · have hne (p : UInt16) : mapping.id ≠ ⟨.upnpIgd, p⟩ := by simp [PortMapping.id, hm]
    rcases tryUpnpIgd_cases a port with ⟨e', hu⟩ | ⟨addr, localAddr, hu⟩
    · simp [acquire, stranded, hp, hu]
    · simp [acquire, stranded, hp, hu, Lease.id, hne]
  · simp [acquire, stranded, hp, Lease.id]

end

section
variable {port : UInt16} {s s' : WorkerState} {e : WorkerEvent} {o : List Effect} {tr : List WorkerEntry}

theorem WorkerStep.keeps (h : WorkerStep port s e o s') (hs : s.phase ≠ .starting) :
    s'.phase ≠ .starting ∧ (∀ a, e ≠ .start a) ∧ o.filterMap Effect.granted? = [] ∧
      o.filterMap Effect.settled? ++ s'.phase.held = s.phase.held := by
  cases h with
  | start a hp => exact absurd hp hs
  | deliver hp => simp [hp]
  | abandon hp => simp [hp]
  | fail delivered hp => cases delivered <;> simp [hp]
  | elapse d hp => simp [hp]
  | shutdown hp => simp [hp]
  | expire e hp => simp [hp]
  | renew lifetime hp => simp [hp]

/-- What a worker that was started with `a` was granted is settled, held or stranded. -/
structure Balance (port : UInt16) (a : RouterAnswers) (tr : List WorkerEntry) (s : WorkerState) : Prop where
  started : s.phase ≠ .starting
  start : ∃ en ∈ tr, en.event = .start a
  unique : ∀ en ∈ tr, ∀ a', en.event = .start a' → a' = a
  granted : (effects tr).filterMap Effect.granted? =
    stranded port a ++ ((effects tr).filterMap Effect.settled? ++ s.phase.held)
  apart : ∀ id ∈ stranded port a, id ∉ (effects tr).filterMap Effect.settled? ++ s.phase.held

theorem effects_snoc (tr : List WorkerEntry) (en : WorkerEntry) : effects (tr ++ [en]) = effects tr ++ en.out := by
  simp [effects]

theorem Balance.step {a : RouterAnswers} (hb : Balance port a tr s) (h : WorkerStep port s e o s') :
    Balance port a (tr ++ [⟨s, e, o, s'⟩]) s' := by
  obtain ⟨hs', he, hg, hh⟩ := h.keeps hb.started
  have hsettled : (effects (tr ++ [⟨s, e, o, s'⟩])).filterMap Effect.settled? ++ s'.phase.held =
      (effects tr).filterMap Effect.settled? ++ s.phase.held := by
    rw [effects_snoc, List.filterMap_append, List.append_assoc, hh]
  obtain ⟨en, hen, hev⟩ := hb.start
  refine ⟨hs', ⟨en, List.mem_append_left _ hen, hev⟩, fun en' hen' a' hev' => ?_, ?_, ?_⟩
  · rcases List.mem_append.mp hen' with hen' | hen'
    · exact hb.unique en' hen' a' hev'
    · rw [List.mem_singleton.mp hen'] at hev'
      exact absurd hev' (he a')
  · rw [hsettled, effects_snoc, List.filterMap_append, hg, List.append_nil]
    exact hb.granted
  · rw [hsettled]
    exact hb.apart

theorem Balance.ofStart (a : RouterAnswers) (port : UInt16) (s : WorkerState) :
    Balance port a [⟨s, .start a, (acquire a port).2, { s with phase := (acquire a port).1 }⟩]
      { s with phase := (acquire a port).1 } := by
  obtain ⟨hg, hs, ha⟩ := acquire_balance a port
  have hp : (acquire a port).1 ≠ .starting := by
    rcases acquire_phase a port with ⟨addr, method, lease, hq⟩ | ⟨e, hq⟩ <;> simp [hq]
  have he : effects [⟨s, .start a, (acquire a port).2, { s with phase := (acquire a port).1 }⟩] =
      (acquire a port).2 := by
    simp [effects]
  refine ⟨hp, ⟨_, List.mem_singleton_self _, rfl⟩, fun en hen a' hev => ?_, ?_, ?_⟩
  · rw [List.mem_singleton.mp hen] at hev
    exact (WorkerEvent.start.inj hev).symm
  · rw [he, hg, hs, List.nil_append]
  · rw [he, hs, List.nil_append]
    exact ha

theorem balance_of_run (hr : (mappingWorker port).Run .new tr s) :
    s.phase = .starting ∧ tr = [] ∨ ∃ a, Balance port a tr s := by
  apply hr.history (C := fun _ => True) (P := fun tr s => s.phase = .starting ∧ tr = [] ∨ ∃ a, Balance port a tr s)
  · exact .inl ⟨rfl, rfl⟩
  · intro tr s e o s' _ ih hst _
    have h := workerStep_of_step hst
    rcases ih with ⟨hp, rfl⟩ | ⟨a, hb⟩
    · cases h with
      | start a _ => exact .inr ⟨a, .ofStart a port s⟩
      | deliver hp' | abandon hp' | fail _ hp' | elapse _ hp' | shutdown hp' | expire _ hp' | renew _ hp' =>
        rw [hp] at hp'
        cases hp'
    · exact .inr ⟨a, hb.step h⟩
  · exact fun _ _ => trivial

/-- A worker that has returned leaves a mapping behind exactly when it stranded one. -/
theorem accounted_iff (hr : (mappingWorker port).Run .new tr s) (hs : s.phase = .returned) :
    Accounted tr ↔ ∀ en ∈ tr, ∀ a, en.event = .start a → ¬Strands port a := by
  obtain ⟨hp, -⟩ | ⟨a, hb⟩ := balance_of_run hr
  · rw [hs] at hp
    cases hp
  have hg := hb.granted
  have ha := hb.apart
  simp only [hs, WorkerPhase.held, List.append_nil] at hg ha
  constructor
  · intro h en hen a' hev
    rw [hb.unique en hen a' hev, ← stranded_eq_nil_iff, List.eq_nil_iff_forall_not_mem]
    intro id hid
    apply ha id hid
    apply Effect.mem_settled.mpr
    apply h
    apply Effect.mem_granted.mp
    rw [hg]
    exact List.mem_append_left _ hid
  · intro h id hid
    obtain ⟨en, hen, hev⟩ := hb.start
    rw [stranded_eq_nil_iff.mpr (h en hen a hev), List.nil_append] at hg
    apply Effect.mem_settled.mp
    rw [← hg]
    exact Effect.mem_granted.mpr hid

end

def homeHost : Host where
  routeTable := .ok (Text.unlines [routeHeader, homeRoute.render])
  bind := .ok ()
  connect _ := .ok ()
  localAddr := .ok (.v4 (.new 192 168 1 20))

def pcpRouter (lifetime : UInt32) : RouterAnswers where
  host := homeHost
  runtime := .ok ()
  newMapping _ _ port _ := .ok ⟨.pcp (.v4 (.new 203 0 113 7)), port, lifetime⟩
  natPmpMapping _ _ _ := .error "not asked"
  externalAddress _ := .error "not asked"
  upnpHost := homeHost
  searchGateway := .error "not asked"
  getAnyAddress _ _ _ := .error "not asked"

-- NAT-PMP grants a mapping and then goes silent; there is no UPnP
def silentRouter : RouterAnswers where
  host := homeHost
  runtime := .ok ()
  newMapping _ _ _ _ := .error "unsupported version"
  natPmpMapping _ port _ := .ok ⟨.natPmp, port, 7200⟩
  externalAddress _ := .error "timed out"
  upnpHost := homeHost
  searchGateway := .error "timed out"
  getAnyAddress _ _ _ := .error "not asked"

theorem defaultIpv4GatewayAndClient_ok {host : Host} {text : List Char} {gateway client : Ipv4Addr}
    (ht : host.routeTable = .ok text) (hp : parseDefaultIpv4Gateway text = some gateway) (hb : host.bind = .ok ())
    (hc : host.connect (.new (.v4 gateway) gatewayPort) = .ok ()) (hl : host.localAddr = .ok (.v4 client)) :
    defaultIpv4GatewayAndClient host = .ok (gateway, client) := by
  simp only [defaultIpv4GatewayAndClient, ht, context, bind, Except.bind, hp, hb, hc, hl]

theorem homeHost_gateway :
    defaultIpv4GatewayAndClient homeHost = .ok (.new 192 168 1 1, .new 192 168 1 20) := by
  apply defaultIpv4GatewayAndClient_ok rfl _ rfl rfl rfl
  exact parseDefaultIpv4Gateway_table [] rfl homeRoute_isDefault.2.2

theorem acquire_pcpRouter (lifetime : UInt32) (port : UInt16) :
    acquire (pcpRouter lifetime) port =
      (.sending (.v4 (.new 203 0 113 7) port) .pcp (.pcpNatPmp ⟨.pcp (.v4 (.new 203 0 113 7)), port, lifetime⟩),
        [.granted ⟨.pcp, port⟩]) := by
  have hg : Grants port (pcpRouter lifetime) (.new 192 168 1 1) ⟨.pcp (.v4 (.new 203 0 113 7)), port, lifetime⟩ :=
    ⟨_, homeHost_gateway, rfl, rfl⟩
  rw [acquire, tryPcpNatpmp_ok hg rfl]
  rfl

theorem acquire_silentRouter (port : UInt16) :
    acquire silentRouter port =
      (.failing ("No PCP/NAT-PMP or UPnP IGD mapping was available; " ++
        "PCP/NAT-PMP: timed out; UPnP IGD: UPnP IGD discovery failed: timed out"), [.granted ⟨.natPmp, port⟩]) := by
  have hg : Grants port silentRouter (.new 192 168 1 1) ⟨.natPmp, port, 7200⟩ := ⟨_, homeHost_gateway, rfl, rfl⟩
  have hu : tryUpnpIgd silentRouter port = (.error "UPnP IGD discovery failed: timed out", []) := by
    have hh : defaultIpv4GatewayAndClient silentRouter.upnpHost = _ := homeHost_gateway
    rw [tryUpnpIgd, hh]
    rfl
  rw [acquire, tryPcpNatpmp_stranded hg rfl, hu]
  rfl

section
variable {a : RouterAnswers} {port : UInt16} {addr : SocketAddr} {method : Method} {lease : Lease} {es : List Effect}

def handedOut (a : RouterAnswers) (addr : SocketAddr) (method : Method) (lease : Lease) (es : List Effect) :
    List WorkerEntry :=
  [⟨.new, .start a, es, ⟨.sending addr method lease, 0, true⟩⟩,
    ⟨⟨.sending addr method lease, 0, true⟩, .send true, [.sent (.ok (addr, method))],
      ⟨.waiting lease 0 (0 + lease.renewalDelay), 0, true⟩⟩]

theorem run_handedOut (h : acquire a port = (.sending addr method lease, es)) :
    (mappingWorker port).Run .new (handedOut a addr method lease es)
      ⟨.waiting lease 0 (0 + lease.renewalDelay), 0, true⟩ := by
  have hst : (mappingWorker port).step .new (.start a) = _ := step_of_workerStep (.start a rfl)
  rw [h] at hst
  exact (Machine.Run.nil.snoc hst).snoc rfl

theorem run_removed (h : acquire a port = (.sending addr method lease, es)) :
    (mappingWorker port).Run .new
      (handedOut a addr method lease es ++ [⟨⟨.waiting lease 0 (0 + lease.renewalDelay), 0, true⟩, .shutdown,
        [.removalRequested lease.id], ⟨.returned, 0, true⟩⟩]) ⟨.returned, 0, true⟩ :=
  (run_handedOut h).snoc rfl

theorem run_failed {e : String} (h : acquire a port = (.failing e, es)) :
    (mappingWorker port).Run .new [⟨.new, .start a, es, ⟨.failing e, 0, true⟩⟩,
      ⟨⟨.failing e, 0, true⟩, .send true, [.sent (.error e)], ⟨.returned, 0, true⟩⟩] ⟨.returned, 0, true⟩ := by
  have hst : (mappingWorker port).step .new (.start a) = _ := step_of_workerStep (.start a rfl)
  rw [h] at hst
  exact (Machine.Run.nil.snoc hst).snoc rfl

end

theorem not_strands_pcpRouter (port : UInt16) (lifetime : UInt32) : ¬Strands port (pcpRouter lifetime) := by
  rintro ⟨gateway, mapping, e, ⟨client, -, -, hm⟩, ht, -⟩
  cases hm
  cases ht

theorem pcpRouter_accounted : ∃ tr s, (mappingWorker 5000).Run .new tr s ∧ s.phase = .returned ∧
    .granted ⟨.pcp, 5000⟩ ∈ effects tr ∧ Accounted tr := by
  have hr := run_removed (acquire_pcpRouter 7200 5000)
  refine ⟨_, _, hr, rfl, by simp [effects, handedOut], (accounted_iff hr rfl).mpr ?_⟩
  intro en hen a ha
  obtain rfl : a = pcpRouter 7200 := by
    simp only [handedOut, List.cons_append, List.nil_append, List.mem_cons, List.not_mem_nil, or_false] at hen
    rcases hen with rfl | rfl | rfl
    · exact (WorkerEvent.start.inj ha).symm
    · cases ha
    · cases ha
  exact not_strands_pcpRouter 5000 7200

-- the `?` after the failed query drops the mapping that NAT-PMP had just granted
theorem silentRouter_leaks : ∃ tr s, (mappingWorker 5000).Run .new tr s ∧
    tr.map (·.event) = [.start silentRouter, .send true] ∧ s.phase = .returned ∧
    .granted ⟨.natPmp, 5000⟩ ∈ effects tr ∧ ¬Accounted tr := by
  have hr := run_failed (acquire_silentRouter 5000)
  refine ⟨_, _, hr, rfl, rfl, by simp [effects], fun h => ?_⟩
  have hs := h ⟨.natPmp, 5000⟩ (by simp [effects])
  simp [effects] at hs

/-! ## Renewal in time -/

/-- How long the router keeps the mapping after it was last granted. -/
def Lease.lifetime : Lease → Nat
  | pcpNatPmp mapping => secs mapping.lifetime.toNat
  | upnpIgd _ _ => secs mappingLifetimeSeconds.toNat

/-- While the mapping is said to be active it has not expired, and after a
failed renewal it is not said to be active. -/
structure Truthful (tr : List WorkerEntry) (s : WorkerState) : Prop where
  unexpired : ∀ lease grantedAt deadline, s.phase = .waiting lease grantedAt deadline → s.active = true →
    s.now - grantedAt < lease.lifetime
  failed : ∀ id, .renewalFailed id ∈ effects tr → s.active = false

def grantedLifetime (en : WorkerEntry) : Option UInt32 :=
  match en.event, en.post.phase with
  | .start _, .sending _ _ (.pcpNatPmp mapping) => some mapping.lifetime
  | .timeout _, .waiting (.pcpNatPmp mapping) _ _ => some mapping.lifetime
  | _, _ => none

def Lease.outlasts : Lease → Prop
  | pcpNatPmp mapping => 60 < mapping.lifetime.toNat
  | upnpIgd _ _ => True

theorem Lease.renewalDelay_lt {lease : Lease} (h : lease.outlasts) : lease.renewalDelay < lease.lifetime := by
  cases lease with
  | upnpIgd externalPort localAddr =>
    show secs 3600 < secs 7200
    decide
  | pcpNatPmp mapping =>
    have hl : 60 < mapping.lifetime.toNat := h
    simp only [Lease.renewalDelay, Lease.lifetime, mappingRenewalMinimum, secs]
    omega

/-- The timer of a lease that outlasts it is set for the delay and has not run past it. -/
def Timely (s : WorkerState) : Prop :=
  match s.phase with
  | .sending _ _ lease => lease.outlasts
  | .waiting lease grantedAt deadline =>
    lease.outlasts ∧ deadline = grantedAt + lease.renewalDelay ∧ s.now ≤ deadline
  | _ => True

section
variable {port : UInt16} {s s' : WorkerState} {e : WorkerEvent} {o : List Effect} {tr : List WorkerEntry}

theorem Timely.step (ht : Timely s) (h : WorkerStep port s e o s')
    (hl : ∀ l, grantedLifetime ⟨s, e, o, s'⟩ = some l → 60 < l.toNat) : Timely s' := by
  cases h with
  | start a hp =>
    rcases acquire_phase a port with ⟨addr, method, lease, hq⟩ | ⟨e, hq⟩
    · simp only [Timely, hq]
      cases lease with
      | pcpNatPmp mapping => exact hl _ (by simp [grantedLifetime, hq])
      | upnpIgd externalPort localAddr => trivial
    · simp only [Timely, hq]
  | deliver hp =>
    simp only [Timely, hp] at ht
    exact ⟨ht, rfl, Nat.le_add_right _ _⟩
  | abandon hp => trivial
  | fail delivered hp => trivial
  | elapse d hp hd =>
    simp only [Timely, hp] at ht ⊢
    exact ⟨ht.1, ht.2.1, hd⟩
  | shutdown hp => trivial
  | expire err hp => trivial
  | @renew lease grantedAt lifetime hp =>
    refine ⟨?_, rfl, Nat.le_add_right _ _⟩
    cases lease with
    | pcpNatPmp mapping => exact hl _ rfl
    | upnpIgd externalPort localAddr => trivial

theorem Timely.unexpired (ht : Timely s) {lease : Lease} {grantedAt deadline : Nat}
    (hp : s.phase = .waiting lease grantedAt deadline) : s.now - grantedAt < lease.lifetime := by
  simp only [Timely, hp] at ht
  obtain ⟨ho, rfl, hd⟩ := ht
  have := Lease.renewalDelay_lt ho
  omega

def lifetimes (tr : List WorkerEntry) : List UInt32 := tr.filterMap grantedLifetime

theorem timely_of_run (hr : (mappingWorker port).Run .new tr s) (hl : ∀ l ∈ lifetimes tr, 60 < l.toNat) : Timely s := by
  apply hr.invariant (C := fun en => ∀ l, grantedLifetime en = some l → 60 < l.toNat)
  · trivial
  · intro s e o s' ht hst hc
    exact ht.step (workerStep_of_step hst) hc
  · intro en hen l hel
    exact hl l (List.mem_filterMap.mpr ⟨en, hen, hel⟩)

theorem WorkerStep.not_returned (h : WorkerStep port s e o s') : s.phase ≠ .returned := by
  intro hs
  cases h with
  | start _ hp | deliver hp | abandon hp | fail _ hp | elapse _ hp | shutdown hp | expire _ hp | renew _ hp =>
    rw [hs] at hp
    cases hp

theorem WorkerStep.renewalFailed (h : WorkerStep port s e o s') {id : MappingId} (ho : .renewalFailed id ∈ o) :
    s'.phase = .returned ∧ s'.active = false := by
  cases h with
  | start a hp =>
    have hs := Effect.mem_settled.mpr (.inr ho)
    rw [(acquire_balance a port).2.1] at hs
    cases hs
  | fail delivered hp => cases delivered <;> simp at ho
  | expire err hp => exact ⟨rfl, rfl⟩
  | deliver hp | abandon hp | elapse _ hp | shutdown hp | renew _ hp => simp at ho

-- a failed renewal is the worker's last step
theorem active_of_run (hr : (mappingWorker port).Run .new tr s) :
    (∀ id, .renewalFailed id ∉ effects tr) ∨ s.phase = .returned ∧ s.active = false := by
  apply hr.history (C := fun _ => True)
    (P := fun tr s => (∀ id, .renewalFailed id ∉ effects tr) ∨ s.phase = .returned ∧ s.active = false)
  · exact .inl fun id h => by cases h
  · intro tr s e o s' _ ih hst _
    have h := workerStep_of_step hst
    rcases ih with hn | ⟨hp, -⟩
    · by_cases ho : ∃ id, .renewalFailed id ∈ o
      · obtain ⟨id, ho⟩ := ho
        exact .inr (h.renewalFailed ho)
      · refine .inl fun id hid => ?_
        rw [effects_snoc] at hid
        rcases List.mem_append.mp hid with hid | hid
        · exact hn id hid
        · exact ho ⟨id, hid⟩
    · exact absurd hp h.not_returned
  · exact fun _ _ => trivial

theorem truthful_of_run (hr : (mappingWorker port).Run .new tr s) (hl : ∀ l ∈ lifetimes tr, 60 < l.toNat) :
    Truthful tr s where
  unexpired _ _ _ hp _ := (timely_of_run hr hl).unexpired hp
  failed id hid := by
    rcases active_of_run hr with hn | ⟨-, ha⟩
    · exact absurd hid (hn id)
    · exact ha

/-! ### Every sequence of lifetimes has its run -/

theorem lifetimes_snoc (tr : List WorkerEntry) (en : WorkerEntry) :
    lifetimes (tr ++ [en]) = lifetimes tr ++ (grantedLifetime en).toList := by
  cases h : grantedLifetime en <;> simp [lifetimes, h]

/-- A run in which the router has granted `ls`, the last one `l`, just now. -/
def GrantedNow (tr : List WorkerEntry) (s : WorkerState) (ls : List UInt32) (l : UInt32) : Prop :=
  lifetimes tr = ls ∧ s.active = true ∧ ∃ mapping deadline, mapping.lifetime = l ∧
    s.phase = .waiting (.pcpNatPmp mapping) s.now deadline ∧
    deadline = s.now + (Lease.pcpNatPmp mapping).renewalDelay

theorem run_wait {ls : List UInt32} {l : UInt32} (hr : (mappingWorker 5000).Run .new tr s) (hg : GrantedNow tr s ls l) :
    ∃ tr' s', (mappingWorker 5000).Run .new tr' s' ∧ lifetimes tr' = ls ∧ s'.active = true ∧ ∃ mapping grantedAt,
      mapping.lifetime = l ∧ s'.phase = .waiting (.pcpNatPmp mapping) grantedAt s'.now ∧
      s'.now = grantedAt + (Lease.pcpNatPmp mapping).renewalDelay := by
  obtain ⟨rfl, ha, mapping, deadline, hl, hp, rfl⟩ := hg
  have hst : (mappingWorker 5000).step s (.elapse (Lease.pcpNatPmp mapping).renewalDelay) = _ :=
    step_of_workerStep (.elapse _ hp (Nat.le_refl _))
  refine ⟨_, _, hr.snoc hst, ?_, ha, mapping, s.now, hl, hp, rfl⟩
  rw [lifetimes_snoc]
  simp [grantedLifetime]

theorem run_renew {ls : List UInt32} {l : UInt32} (l' : UInt32) (hr : (mappingWorker 5000).Run .new tr s)
    (hg : GrantedNow tr s ls l) :
    ∃ tr' s', (mappingWorker 5000).Run .new tr' s' ∧ GrantedNow tr' s' (ls ++ [l']) l' := by
  obtain ⟨tr', s', hr', hls, ha, mapping, grantedAt, -, hp, -⟩ := run_wait hr hg
  have hst : (mappingWorker 5000).step s' (.timeout (.ok l')) = _ := step_of_workerStep (.renew l' hp)
  refine ⟨_, _, hr'.snoc hst, ?_, ha, { mapping with lifetime := l' }, _, rfl, rfl, rfl⟩
  rw [lifetimes_snoc, hls]
  rfl

theorem run_granted (ls : List UInt32) (l : UInt32) :
    ∃ tr s, (mappingWorker 5000).Run .new tr s ∧ GrantedNow tr s (ls ++ [l]) l := by
  induction ls using List.reverseRecOn generalizing l with
  | nil =>
    exact ⟨_, _, run_handedOut (acquire_pcpRouter l 5000), rfl, rfl, _, _, rfl, rfl, rfl⟩
  | append_singleton ls l' ih =>
    obtain ⟨tr, s, hr, hg⟩ := ih l'
    exact run_renew l hr hg

/-- Exactly the sequences of lifetimes above the shortest delay keep every instant truthful. -/
theorem truthful_iff (ls : List UInt32) :
    (∀ port tr s, (mappingWorker port).Run .new tr s → lifetimes tr <+: ls → Truthful tr s) ↔
      ∀ l ∈ ls, 60 < l.toNat := by
  constructor
  · intro h l hl
    obtain ⟨pre, post, rfl⟩ := List.append_of_mem hl
    obtain ⟨tr, s, hr, hg⟩ := run_granted pre l
    obtain ⟨tr', s', hr', hls, ha, mapping, grantedAt, rfl, hp, hn⟩ := run_wait hr hg
    have hpre : lifetimes tr' <+: pre ++ mapping.lifetime :: post := by
      rw [hls]
      exact ⟨post, by simp⟩
    have hx := (h 5000 tr' s' hr' hpre).unexpired _ _ _ hp ha
    rw [hn, Nat.add_sub_cancel_left] at hx
    simp only [Lease.renewalDelay, Lease.lifetime, mappingRenewalMinimum, secs] at hx
    omega
  · intro h port tr s hr hpre
    exact truthful_of_run hr fun l hl => h l (hpre.subset hl)

end

-- a lease of 30 seconds, 45 seconds later: the timer stands at a minute
theorem shortLease_expired : ∃ tr s, (mappingWorker 5000).Run .new tr s ∧
    tr.map (·.event) = [.start (pcpRouter 30), .send true, .elapse (secs 45)] ∧
    s = ⟨.waiting (.pcpNatPmp ⟨.pcp (.v4 (.new 203 0 113 7)), 5000, 30⟩) 0 (secs 60), secs 45, true⟩ ∧
    ¬Truthful tr s := by
  have hst : (mappingWorker 5000).step
      ⟨.waiting (.pcpNatPmp ⟨.pcp (.v4 (.new 203 0 113 7)), 5000, 30⟩) 0 (secs 60), 0, true⟩ (.elapse (secs 45)) =
      some (⟨.waiting (.pcpNatPmp ⟨.pcp (.v4 (.new 203 0 113 7)), 5000, 30⟩) 0 (secs 60), secs 45, true⟩, []) := by
    rfl
  refine ⟨_, _, (run_handedOut (acquire_pcpRouter 30 5000)).snoc hst, rfl, rfl, fun h => ?_⟩
  have hx : secs 45 - 0 < secs 30 := h.unexpired _ _ _ rfl rfl
  revert hx
  decide

end P2pTunnler
