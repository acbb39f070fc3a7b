import P2pTunnler.PathsSound

/-!
# Admissions and the loopback fan-out

The listener reads the advertised set, lets go of the lock and replaces the
set later, while the probe handler adds sources to the other set and the
loopback forwarder walks both. Whatever the interleaving, no admission is
lost, and a loopback datagram goes to the candidates of one moment, to each
of them once.
-/

namespace P2pTunnler

open Machine (Since since_snoc)
open Finset (Enumerates)

/-! ## The addresses of a candidate set -/

namespace CandidateSet

variable {c : CandidateSet} {l₁ l₂ : List SocketAddr} (h₁ : Enumerates l₁ c.advertised)
  (h₂ : Enumerates l₂ c.peerReflexive)

include h₁ h₂

theorem mem_addresses_iff (a : SocketAddr) : a ∈ c.addresses l₁ l₂ ↔ c.contains a = true := by
  unfold addresses
  rw [contains_iff, List.mem_append, List.mem_filter, h₁.mem, h₂.mem, decide_eq_true_eq]
  tauto

theorem nodup_addresses : (c.addresses l₁ l₂).Nodup := by
  unfold addresses
  refine List.nodup_append'.mpr ⟨h₁.1, h₂.1.filter _, ?_⟩
  intro a ha hb
  obtain ⟨_, hn⟩ := List.mem_filter.mp hb
  rw [decide_eq_true_eq] at hn
  exact hn (h₁.mem.mp ha)

theorem length_addresses : (c.addresses l₁ l₂).length ≤ c.advertised.card + c.peerReflexive.card := by
  unfold addresses
  rw [List.length_append, h₁.length, ← h₂.length]
  exact Nat.add_le_add_left (List.length_filter_le _ _) _

end CandidateSet

section
variable {κ : Type} {P : Endpoint κ} {tok : Token} {tr : List ConnEntry} {s s' : ConnState} {e : ConnEvent}
  {o : ConnOut}

/-! ## The two sets -/

theorem peerReflexive_grows (h : (connection P).step s e = some (s', o)) :
    s.connections.peerReflexive ⊆ s'.connections.peerReflexive := by
  rcases (connection_owns h).2.1 with ⟨e', rfl⟩ | ⟨_, hp⟩
  · rcases handlerStep_cases h with ⟨_, _, _, _, _, _, rfl⟩ | ⟨_, _, _, _, _, _, _, rfl⟩ | ⟨_, a, _, _, _, _, rfl⟩ |
      ⟨_, _, _, he⟩
    · exact Finset.Subset.refl _
    · exact Finset.Subset.refl _
    · exact CandidateSet.peerReflexive_subset_add s.connections a
    · cases he; exact Finset.Subset.refl _
  · rw [hp]

theorem peerReflexive_mono (hr : (connection P).Run (.new tok) tr s) :
    ∀ en ∈ tr, en.pre.connections.peerReflexive ⊆ en.post.connections.peerReflexive ∧
      en.post.connections.peerReflexive ⊆ s.connections.peerReflexive := by
  induction hr with
  | nil => intro en hen; cases hen
  | @snoc tr s e o s' _ hst ih =>
    have hgrow := peerReflexive_grows hst
    intro en hen
    rcases List.mem_append.mp hen with hen | hen
    · exact ⟨(ih en hen).1, (ih en hen).2.trans hgrow⟩
    · rw [List.mem_singleton.mp hen]
      exact ⟨hgrow, Finset.Subset.refl _⟩

/-- The last read of the listener was for the record `m`, and walked the advertised set in the order `known`. -/
def ReadFor (m : Message) (known : List SocketAddr) (tr : List ConnEntry) : Prop :=
  Since (fun en => en.event = .listener (.read known) ∧ en.pre.listener = .reading m ∧
      Enumerates known en.pre.connections.advertised)
    (fun en => ∀ k, en.event ≠ .listener (.read k)) tr

theorem ReadFor.snoc {m : Message} {known : List SocketAddr} (h : ReadFor m known tr) {en : ConnEntry}
    (hen : ∀ k, en.event ≠ .listener (.read k)) : ReadFor m known (tr ++ [en]) := since_snoc.mpr (.inr ⟨hen, h⟩)

/-- The set that the listener is about to install, or has installed, is the one that it computed from its read. -/
def ListenerTask.Computed (P : Endpoint κ) (tr : List ConnEntry) : ListenerTask → Prop
  | replacing m updated => ∃ known, ReadFor m known tr ∧ updated = P.flags.updatedPeers m known
  | updating m updated => ∃ known, ReadFor m known tr ∧ updated = P.flags.updatedPeers m known
  | _ => True

structure FanoutInv (P : Endpoint κ) (tr : List ConnEntry) (s : ConnState) : Prop where
  bounded : s.connections.advertised.card ≤ maxRemoteCandidates
  computed : s.listener.Computed P tr

theorem ListenerTask.Computed.snoc {t : ListenerTask} (h : t.Computed P tr) {en : ConnEntry}
    (hen : ∀ k, en.event ≠ .listener (.read k)) : t.Computed P (tr ++ [en]) := by
  cases t with
  | waiting => trivial
  | reading m => trivial
  | replacing m u =>
    obtain ⟨known, hk, hu⟩ := h
    exact ⟨known, hk.snoc hen, hu⟩
  | updating m u =>
    obtain ⟨known, hk, hu⟩ := h
    exact ⟨known, hk.snoc hen, hu⟩

theorem fanoutInv_listener {e : ListenerEvent} (hI : FanoutInv P tr s)
    (hinst : s.listener.Installs s.connections.advertised) (h : listenerStep P s e = some (s', o)) :
    FanoutInv P (tr ++ [⟨s, .listener e, o, s'⟩]) s' := by
  have hsnoc : (∀ k, e ≠ .read k) → s.listener.Computed P (tr ++ [⟨s, .listener e, o, s'⟩]) := by
    intro hne
    refine hI.computed.snoc ?_
    intro k hk
    cases hk
    exact hne k rfl
  rcases listenerStep_cases h with ⟨value, now, rfl, rfl, rfl⟩ | ⟨_, _, m, _, _, _, _, rfl⟩ |
    ⟨known, m, rfl, hl, hk, rfl, rfl⟩ | ⟨m, u, rfl, hl, _, rfl, rfl⟩ | ⟨_, _, _, _, _, _, _, _, rfl⟩
  · refine ⟨hI.bounded, hsnoc ?_⟩
    intro k hk
    cases hk
  · exact ⟨hI.bounded, trivial⟩
  · refine ⟨hI.bounded, ?_⟩
    show ListenerTask.Computed P _ (if _ then _ else _)
    split
    · exact ⟨known, since_snoc.mpr (.inl ⟨rfl, hl, hk⟩), rfl⟩
    · exact ⟨known, since_snoc.mpr (.inl ⟨rfl, hl, hk⟩), rfl⟩
  · have hc := hsnoc (by intro k hk; cases hk)
    rw [hl] at hinst hc
    exact ⟨hinst, hc⟩
  · exact ⟨hI.bounded, trivial⟩

theorem fanoutInv_new (tok : Token) : FanoutInv P [] (.new tok) := ⟨Nat.zero_le _, trivial⟩

theorem fanoutInv_run (hr : (connection P).Run (.new tok) tr s) : FanoutInv P tr s := by
  refine hr.history (C := fun _ => True) (P := FanoutInv P) (fanoutInv_new tok) ?_ (fun _ _ => trivial)
  intro tr s e o s' hpre hI hst _
  by_cases hlis : ∃ e', e = .listener e'
  · obtain ⟨e', rfl⟩ := hlis
    exact fanoutInv_listener hI (pathsInv_run hpre).installs hst
  · obtain ⟨_, hl, ha⟩ := (connection_owns hst).1.resolve_left hlis
    refine ⟨by rw [ha]; exact hI.bounded, ?_⟩
    rw [hl]
    refine hI.computed.snoc ?_
    intro k hk
    exact hlis ⟨_, hk⟩

/-! ## The fan-out -/

/-- The datagram that a step of the loopback forwarder offers to the Internet socket. -/
def fannedBy (en : ConnEntry) : Option Datagram :=
  match en.out with
  | .offered .loopback d _ => some d
  | _ => none

def fanned (tr : List ConnEntry) : List Datagram := tr.filterMap fannedBy

theorem fanned_snoc (tr : List ConnEntry) (en : ConnEntry) :
    fanned (tr ++ [en]) = fanned tr ++ (fannedBy en).toList := by
  unfold fanned
  rw [List.filterMap_append, List.filterMap_cons, List.filterMap_nil]
  cases fannedBy en <;> rfl

/-- The other tasks leave the forwarder alone, and the candidates too while it holds its guard. -/
theorem connection_spares (h : (connection P).step s e = some (s', o)) :
    (∃ e', e = .loopback e') ∨
      (s'.loopback = s.loopback ∧ fannedBy ⟨s, e, o, s'⟩ = none ∧
        (s.writable = false → s'.connections = s.connections)) := by
  cases e with
  | loopback e => exact .inl ⟨e, rfl⟩
  | listener e =>
    rcases listenerStep_cases h with ⟨_, _, _, rfl, rfl⟩ | ⟨_, _, _, _, _, _, rfl, rfl⟩ | ⟨_, _, _, _, _, rfl, rfl⟩ |
      ⟨_, _, _, _, hw, rfl, rfl⟩ | ⟨_, _, _, _, _, _, _, rfl, rfl⟩
    · exact .inr ⟨rfl, rfl, fun _ => rfl⟩
    · exact .inr ⟨rfl, rfl, fun _ => rfl⟩
    · exact .inr ⟨rfl, rfl, fun _ => rfl⟩
    · refine .inr ⟨rfl, rfl, fun hn => ?_⟩
      rw [hn] at hw; cases hw
    · exact .inr ⟨rfl, rfl, fun _ => rfl⟩
  | handler e =>
    rcases handlerStep_cases h with ⟨_, _, _, _, _, rfl, rfl⟩ | ⟨_, _, _, _, _, _, rfl, rfl⟩ |
      ⟨_, _, _, _, hw, rfl, rfl⟩ | ⟨_, _, _, he⟩
    · exact .inr ⟨rfl, rfl, fun _ => rfl⟩
    · exact .inr ⟨rfl, rfl, fun _ => rfl⟩
    · refine .inr ⟨rfl, rfl, fun hn => ?_⟩
      rw [hn] at hw; cases hw
    · cases he; exact .inr ⟨rfl, rfl, fun _ => rfl⟩
  | inbound e =>
    rcases inboundStep_cases h with ⟨_, _, _, _, _, rfl, rfl⟩ | ⟨_, _, _, rfl, rfl⟩ | ⟨rfl, rfl⟩ |
      ⟨_, _, _, _, _, rfl, rfl⟩ <;> exact .inr ⟨rfl, rfl, fun _ => rfl⟩
  | scheduler e =>
    rcases schedulerStep_cases h with ⟨_, _, _, _, rfl, rfl⟩ | ⟨_, _, _, he⟩
    · exact .inr ⟨rfl, rfl, fun _ => rfl⟩
    · cases he; exact .inr ⟨rfl, rfl, fun _ => rfl⟩
  | socket e =>
    rcases socketStep_cases h with ⟨_, _, _, _, _, _, _, rfl | ⟨_, _, rfl⟩, rfl⟩ | ⟨_, _, rfl, rfl⟩ |
      ⟨_, _, _, _, rfl, rfl⟩ | ⟨_, _, _, _, _, rfl, rfl⟩ <;> exact .inr ⟨rfl, rfl, fun _ => rfl⟩

/-- The forwarder has a datagram and has not walked the candidates yet. -/
def LoopbackTask.Holds (packet : Bytes) : LoopbackTask → Prop
  | comparing p _ => p = packet
  | setting p _ => p = packet
  | locking p => p = packet
  | _ => False

/-- How far a loopback datagram has got in the steps `m` since it was
received: it has been offered to no one, or, in order, to the candidates of
one moment of `m` except for those that are left. The candidates are still
those of that moment while some are left, and the forwarder only waits for
the next datagram when none are. -/
def Fanned (packet : Bytes) (m : List ConnEntry) (s : ConnState) : Prop :=
  (fanned m = [] ∧ s.loopback.Holds packet) ∨
  ∃ x ∈ m, ∃ advertised peerReflexive left,
    Enumerates advertised x.pre.connections.advertised ∧ Enumerates peerReflexive x.pre.connections.peerReflexive ∧
    fanned m ++ left.map (packet, ·) = (x.pre.connections.addresses advertised peerReflexive).map (packet, ·) ∧
    (s.loopback = .sending packet left ∧ s.connections = x.pre.connections ∨ left = [] ∧ s.loopback = .waiting)

theorem Fanned.spared {packet : Bytes} {m : List ConnEntry} (hF : Fanned packet m s) {en : ConnEntry}
    (hl : s'.loopback = s.loopback) (hf : fannedBy en = none)
    (hc : s.writable = false → s'.connections = s.connections) : Fanned packet (m ++ [en]) s' := by
  have hsame : fanned (m ++ [en]) = fanned m := by rw [fanned_snoc, hf, Option.toList_none, List.append_nil]
  rcases hF with ⟨hnone, hh⟩ | ⟨x, hx, l₁, l₂, left, h₁, h₂, heq, hend⟩
  · exact .inl ⟨by rw [hsame]; exact hnone, by rw [hl]; exact hh⟩
  · refine .inr ⟨x, List.mem_append_left _ hx, l₁, l₂, left, h₁, h₂, by rw [hsame]; exact heq, ?_⟩
    rw [hl]
    rcases hend with ⟨hs, hconn⟩ | hend
    · have hw : s.writable = false := by unfold ConnState.writable; rw [hs]
      exact .inl ⟨hs, (hc hw).trans hconn⟩
    · exact .inr hend

/-- A forwarder with a datagram that it has not started to send has offered it to no one. -/
theorem Fanned.pending {packet : Bytes} {m : List ConnEntry} (hF : Fanned packet m s)
    (hs : ∀ p left, s.loopback ≠ .sending p left) (hw : s.loopback ≠ .waiting) :
    fanned m = [] ∧ s.loopback.Holds packet := by
  rcases hF with hh | ⟨_, _, _, _, left, _, _, _, ⟨hl, _⟩ | ⟨_, hl⟩⟩
  · exact hh
  · exact absurd hl (hs packet left)
  · exact absurd hl hw

/-- A forwarder in the middle of its walk has offered the datagram to all but those that are left. -/
theorem Fanned.walked {packet : Bytes} {m : List ConnEntry} (hF : Fanned packet m s) {p : Bytes}
    {left : List SocketAddr} (hl : s.loopback = .sending p left) : p = packet ∧ ∃ x ∈ m, ∃ advertised peerReflexive,
      Enumerates advertised x.pre.connections.advertised ∧ Enumerates peerReflexive x.pre.connections.peerReflexive ∧
      fanned m ++ left.map (packet, ·) = (x.pre.connections.addresses advertised peerReflexive).map (packet, ·) ∧
      s.connections = x.pre.connections := by
  rcases hF with ⟨_, hh⟩ | ⟨x, hx, l₁, l₂, _, h₁, h₂, heq, ⟨hs, hconn⟩ | ⟨_, hs⟩⟩
  · rw [hl] at hh; cases hh
  · rw [hl] at hs
    cases hs
    exact ⟨rfl, x, hx, l₁, l₂, h₁, h₂, heq, hconn⟩
  · rw [hl] at hs; cases hs

theorem Fanned.loopback {packet : Bytes} {m : List ConnEntry} (hF : Fanned packet m s) {e : LoopbackEvent}
    (hne : e ≠ .recv) (h : loopbackStep s e = some (s', o)) :
    Fanned packet (m ++ [⟨s, .loopback e, o, s'⟩]) s' := by
  have hsilent : o = .silent → fanned (m ++ [⟨s, .loopback e, o, s'⟩]) = fanned m := by
    rintro rfl
    rw [fanned_snoc]
    exact List.append_nil _
  cases e with
  | recv => exact absurd rfl hne
  | compare =>
    simp only [loopbackStep] at h
    split at h
    · rename_i p w hl
      cases h
      obtain ⟨hnone, hh⟩ := hF.pending (by simp [hl]) (by simp [hl])
      rw [hl] at hh
      refine .inl ⟨by rw [hsilent rfl]; exact hnone, ?_⟩
      show LoopbackTask.Holds packet (if _ then _ else _)
      split
      · exact hh
      · exact hh
    · cases h
  | set =>
    simp only [loopbackStep] at h
    split at h
    · rename_i p w hl
      cases h
      obtain ⟨hnone, hh⟩ := hF.pending (by simp [hl]) (by simp [hl])
      rw [hl] at hh
      exact .inl ⟨by rw [hsilent rfl]; exact hnone, hh⟩
    · cases h
  | lock l₁ l₂ =>
    simp only [loopbackStep] at h
    split at h
    · rename_i p hl
      split at h
      · rename_i hord
        cases h
        obtain ⟨hnone, hh⟩ := hF.pending (by simp [hl]) (by simp [hl])
        rw [hl] at hh
        obtain rfl : p = packet := hh
        refine .inr ⟨_, List.mem_append_right _ (List.mem_singleton.mpr rfl), l₁, l₂, _, hord.1, hord.2, ?_,
          .inl ⟨rfl, rfl⟩⟩
        rw [hsilent rfl, hnone]
        rfl
      · cases h
    · cases h
  | send =>
    simp only [loopbackStep] at h
    split at h
    · rename_i p peer peers hl
      obtain ⟨rfl, rfl⟩ := Prod.mk.inj (Option.some.inj h)
      obtain ⟨rfl, x, hx, l₁, l₂, h₁, h₂, heq, hconn⟩ := hF.walked hl
      refine .inr ⟨x, List.mem_append_left _ hx, l₁, l₂, peers, h₁, h₂, ?_, .inl ⟨rfl, hconn⟩⟩
      rw [← heq, fanned_snoc, List.map_cons]
      exact List.append_assoc _ _ _
    · rename_i p hl
      cases h
      obtain ⟨rfl, x, hx, l₁, l₂, h₁, h₂, heq, _⟩ := hF.walked hl
      exact .inr ⟨x, List.mem_append_left _ hx, l₁, l₂, [], h₁, h₂, by rw [hsilent rfl]; exact heq, .inr ⟨rfl, rfl⟩⟩
    · cases h

theorem fanned_run (hr : (connection P).Run (.new tok) tr s) {a m : List ConnEntry} {en : ConnEntry}
    (htr : tr = a ++ en :: m) (hev : en.event = .loopback .recv) {packet : Bytes} {wireguard : SocketAddr}
    {rest : List Datagram} (hq : en.pre.fromLocal = (packet, wireguard) :: rest)
    (hm : ∀ x ∈ m, x.event ≠ .loopback .recv) : Fanned packet m s := by
  induction hr generalizing m with
  | nil => simp at htr
  | @snoc tr s e o s' hr hst ih =>
    rcases List.eq_nil_or_concat m with rfl | ⟨m', x, rfl⟩
    · obtain ⟨-, he⟩ := List.append_inj' htr rfl
      obtain rfl : en = ⟨s, e, o, s'⟩ := by simpa using he.symm
      simp only at hev hq
      subst hev
      refine .inl ⟨rfl, ?_⟩
      simp only [connection, loopbackStep, hq] at hst
      split at hst
      · rename_i hq'
        cases hq'
        cases hst
        rfl
      · cases hst
    · rw [List.concat_eq_append] at htr hm ⊢
      rw [← List.cons_append, ← List.append_assoc] at htr
      obtain ⟨rfl, he⟩ := List.append_inj' htr rfl
      obtain rfl : x = ⟨s, e, o, s'⟩ := by simpa using he.symm
      have hF := ih rfl fun y hy => hm y (by simp [hy])
      rcases connection_spares hst with ⟨e', rfl⟩ | ⟨hl, hf, hc⟩
      · refine hF.loopback ?_ hst
        rintro rfl
        exact hm ⟨s, .loopback .recv, o, s'⟩ (by simp) rfl
      · exact hF.spared hl hf hc

/-- **No lost admission and exact fan-out.** The peer-reflexive set only
grows, a replacement leaves it alone, and a record that has been handled to
the end leaves the set that was computed at its read. Both sets have at most
64 elements, the addresses are the contained ones, each once, and a loopback
datagram is offered to them in turn. -/
theorem fanout_exact (hr : (connection P).Run (.new tok) tr s) :
    (∀ en ∈ tr, en.pre.connections.peerReflexive ⊆ en.post.connections.peerReflexive ∧
      en.post.connections.peerReflexive ⊆ s.connections.peerReflexive) ∧
    (∀ en ∈ tr, ∀ m, en.out = .replaced m →
      en.post.connections.peerReflexive = en.pre.connections.peerReflexive) ∧
    (∀ (a : List ConnEntry) (en : ConnEntry) (b : List ConnEntry) (m : Message), tr = a ++ en :: b →
      en.out = .updated m →
      ∃ known, ReadFor m known a ∧ en.post.connections.advertised = P.flags.updatedPeers m known) ∧
    (s.connections.advertised.card ≤ 64 ∧ s.connections.peerReflexive.card ≤ 64) ∧
    (∀ advertised peerReflexive, Enumerates advertised s.connections.advertised →
      Enumerates peerReflexive s.connections.peerReflexive →
      (s.connections.addresses advertised peerReflexive).Nodup ∧
      (∀ x, x ∈ s.connections.addresses advertised peerReflexive ↔ s.connections.contains x = true) ∧
      (s.connections.addresses advertised peerReflexive).length ≤ 128) ∧
    ∀ (a : List ConnEntry) (en : ConnEntry) (m : List ConnEntry) (packet : Bytes) (wireguard : SocketAddr)
      (rest : List Datagram), tr = a ++ en :: m → en.event = .loopback .recv →
      en.pre.fromLocal = (packet, wireguard) :: rest → (∀ x ∈ m, x.event ≠ .loopback .recv) →
      Fanned packet m s := by
  have hadv := (fanoutInv_run hr).bounded
  have hrefl := s.connections.bounded
  refine ⟨peerReflexive_mono hr, ?_, ?_, ⟨hadv, hrefl⟩, ?_, ?_⟩
  · intro en hen m hout
    obtain ⟨a, b, rfl⟩ := List.append_of_mem hen
    have hst := hr.split.2
    rw [hout] at hst
    rcases (connection_owns hst).1 with ⟨e, he⟩ | ⟨ho, _⟩
    · rcases (connection_owns hst).2.1 with ⟨e', he'⟩ | ⟨_, hp⟩
      · rw [he] at he'; cases he'
      · exact hp
    · cases ho
  · intro a en b m htr hout
    rw [htr] at hr
    obtain ⟨hpre, hst⟩ := hr.split
    rw [hout] at hst
    obtain ⟨order, instant, u, hl, _, hpost⟩ := updated_entry hst
    have hinst := (pathsInv_run hpre).installs
    have hcomp := (fanoutInv_run hpre).computed
    rw [hl] at hinst hcomp
    obtain ⟨known, hread, hu⟩ := hcomp
    exact ⟨known, hread, by rw [hpost, ← hu]; exact hinst.1⟩
  · intro l₁ l₂ h₁ h₂
    refine ⟨CandidateSet.nodup_addresses h₁ h₂, CandidateSet.mem_addresses_iff h₁ h₂, ?_⟩
    exact Nat.le_trans (CandidateSet.length_addresses h₁ h₂) (Nat.add_le_add hadv hrefl)
  · intro a en m packet wireguard rest htr hev hq hm
    exact fanned_run hr htr hev hq hm

end

/-- A source is admitted between the read and the replacement, and a loopback datagram goes out to both. -/
def sampleFanout : List ConnEvent :=
  [.listener (.value (sampleValue sampleOldText) (secs 150)),
    .listener (.read []),
    .socket (.receive (frame (.fill 7), .testNet 3 10000)),
    .socket .recv,
    .socket .route,
    .handler .recv,
    .handler (.act 0 id),
    .handler .addSource,
    .listener .replace,
    .listener (.update [.testNet 1 10000] 0),
    .socket (.receiveLocal ([1, 0, 0, 0], .v4 (.new 127 0 0 1) 51820)),
    .loopback .recv,
    .loopback .compare,
    .loopback .set,
    .loopback (.lock [.testNet 1 10000] [.testNet 3 10000]),
    .loopback .send,
    .loopback .send,
    .loopback .send]

theorem sampleFanout_runs :
    ((connection (sampleEndpoint ⟨false, false⟩)).exec (.new (.fill 7)) sampleFanout).isSome = true := by
  decide +kernel

theorem sampleFanout_exact : ∃ tr s, (connection (sampleEndpoint ⟨false, false⟩)).Run (.new (.fill 7)) tr s ∧
    fanned tr = [([1, 0, 0, 0], .testNet 1 10000), ([1, 0, 0, 0], .testNet 3 10000)] ∧
    ∀ en ∈ tr, en.post.connections.peerReflexive ⊆ s.connections.peerReflexive :=
  ⟨_, _, Machine.run_of_exec sampleFanout_runs, by decide +kernel,
    fun en hen => ((fanout_exact (Machine.run_of_exec sampleFanout_runs)).1 en hen).2⟩

/-! ## Echoes and candidates -/

/-- The step in which the handler tries to add the source of a probe to the candidates. -/
def AddsSource (source : SocketAddr) (en : ConnEntry) : Prop :=
  en.event = .handler .addSource ∧ ∃ packet, en.pre.handler = .admitting packet source

def AddsNoRoom (source : SocketAddr) (en : ConnEntry) : Prop :=
  AddsSource source en ∧ en.pre.connections.contains source = false ∧
    en.pre.connections.peerReflexive.card = maxPeerReflexiveCandidates

def AddsAdvertised (source : SocketAddr) (en : ConnEntry) : Prop :=
  AddsSource source en ∧ source ∈ en.pre.connections.advertised ∧ source ∉ en.pre.connections.peerReflexive

def Replaces (en : ConnEntry) : Prop := ∃ m, en.out = .replaced m

def NoHandler (en : ConnEntry) : Prop := ∀ e, en.event ≠ .handler e

/-- Where a source stands between its admission and its echo. -/
def Admitted (source : SocketAddr) (tr : List ConnEntry) (s : ConnState) : Prop :=
  source ∈ s.connections.peerReflexive ∨ Since (AddsNoRoom source) NoHandler tr ∨
    Since (AddsAdvertised source) NoHandler tr ∧ (source ∈ s.connections.advertised ∨ Since Replaces NoHandler tr)

def EchoInv (tr : List ConnEntry) (s : ConnState) : Prop :=
  ∀ packet source, s.handler = .echoing packet source → Admitted source tr s

section
variable {κ : Type} {P : Endpoint κ} {tok : Token} {tr : List ConnEntry} {s s' : ConnState} {e : ConnEvent}
  {o : ConnOut}

/-- The advertised set changes only in a step that shows a replacement. -/
theorem advertised_kept (h : (connection P).step s e = some (s', o)) :
    s'.connections.advertised = s.connections.advertised ∨ ∃ m, o = .replaced m := by
  rcases (connection_owns h).1 with ⟨e', rfl⟩ | ⟨_, _, ha⟩
  · rcases listenerStep_cases h with ⟨_, _, _, rfl, _⟩ | ⟨_, _, _, _, _, _, _, rfl⟩ | ⟨_, _, _, _, _, _, rfl⟩ |
      ⟨m, _, _, _, _, ho, _⟩ | ⟨_, _, _, _, _, _, _, _, rfl⟩
    · exact .inl rfl
    · exact .inl rfl
    · exact .inl rfl
    · exact .inr ⟨m, ho⟩
    · exact .inl rfl
  · exact .inl ha

theorem Admitted.step {source : SocketAddr} (hA : Admitted source tr s)
    (h : (connection P).step s e = some (s', o)) (hne : ∀ e', e ≠ .handler e') :
    Admitted source (tr ++ [⟨s, e, o, s'⟩]) s' := by
  have hno : NoHandler ⟨s, e, o, s'⟩ := hne
  rcases hA with hp | hf | ⟨ha, hadv⟩
  · exact .inl (peerReflexive_grows h hp)
  · exact .inr (.inl (since_snoc.mpr (.inr ⟨hno, hf⟩)))
  · refine .inr (.inr ⟨since_snoc.mpr (.inr ⟨hno, ha⟩), ?_⟩)
    rcases hadv with hadv | hrep
    · rcases advertised_kept h with hk | hm
      · exact .inl (hk ▸ hadv)
      · exact .inr (since_snoc.mpr (.inl hm))
    · exact .inr (since_snoc.mpr (.inr ⟨hno, hrep⟩))

/-- What the attempt to add a source comes to. -/
theorem admitted_addSource {packet : Bytes} {source : SocketAddr} {en : ConnEntry}
    (hen : en.event = .handler .addSource) (hh : en.pre.handler = .admitting packet source)
    (hc : s'.connections = (en.pre.connections.addPeerReflexive source).1) : Admitted source (tr ++ [en]) s' := by
  have hadds : AddsSource source en := ⟨hen, packet, hh⟩
  by_cases hp : source ∈ en.pre.connections.peerReflexive
  · exact .inl (by rw [hc]; exact CandidateSet.peerReflexive_subset_add _ _ hp)
  by_cases ha : source ∈ en.pre.connections.advertised
  · exact .inr (.inr ⟨since_snoc.mpr (.inl ⟨hadds, ha, hp⟩), .inl (by rw [hc]; simpa using ha)⟩)
  by_cases hfull : en.pre.connections.peerReflexive.card = maxPeerReflexiveCandidates
  · refine .inr (.inl (since_snoc.mpr (.inl ⟨hadds, ?_, hfull⟩)))
    rw [Bool.eq_false_iff, ne_eq, CandidateSet.contains_iff]
    tauto
  · refine .inl ?_
    have hlt := Nat.lt_of_le_of_ne en.pre.connections.bounded hfull
    rw [hc, CandidateSet.addPeerReflexive_peerReflexive, if_neg]
    · exact Finset.mem_insert_self _ _
    · rw [CandidateSet.contains_iff]
      tauto

theorem echoInv_step (hI : EchoInv tr s) (h : (connection P).step s e = some (s', o)) :
    EchoInv (tr ++ [⟨s, e, o, s'⟩]) s' := by
  intro packet source hecho
  by_cases hh : ∃ e', e = .handler e'
  · obtain ⟨e', rfl⟩ := hh
    rcases handlerStep_cases h with ⟨_, _, _, _, _, _, rfl⟩ | ⟨_, _, _, _, _, _, _, rfl⟩ |
      ⟨p, a, rfl, ha, _, _, rfl⟩ | ⟨_, _, _, he⟩
    · cases hecho
    · simp only at hecho
      split at hecho <;> cases hecho
    · cases hecho
      exact admitted_addSource rfl ha rfl
    · obtain ⟨rfl, _⟩ := Prod.mk.inj he
      cases hecho
  · obtain ⟨hsame, _⟩ := (connection_owns h).2.1.resolve_left hh
    rw [hsame] at hecho
    refine (hI packet source hecho).step h ?_
    intro e' he
    exact hh ⟨e', he⟩

theorem echoInv_run (hr : (connection P).Run (.new tok) tr s) : EchoInv tr s := by
  refine hr.history (C := fun _ => True) (P := EchoInv) ?_ (fun _ _ _ _ _ _ hI hst _ => echoInv_step hI hst)
    (fun _ _ => trivial)
  intro packet source h
  cases h

theorem echoing_of_offered {d : Datagram} {q : Bool} (h : (connection P).step s e = some (s', .offered .echo d q)) :
    s.handler = .echoing d.1 d.2 := by
  rcases offered_cases h with ⟨_, hh⟩ | ⟨ho, _⟩ | ⟨ho, _⟩ | ho
  · exact hh
  all_goals cases ho

/-- What is known of the source of an echo: it is a candidate, or its
admission found no room among the peer-reflexive candidates, or it was in the
advertised set only and that set was replaced before the echo. -/
def EchoesAccepted (tr : List ConnEntry) : Prop :=
  ∀ a en b, tr = a ++ en :: b → ∀ d queued, en.out = .offered .echo d queued →
    en.pre.connections.contains d.2 = true ∨ Since (AddsNoRoom d.2) NoHandler a ∨
      (Since (AddsAdvertised d.2) NoHandler a ∧ Since Replaces NoHandler a)

/-- **An echoed source is an accepted one**, or its admission was turned away. -/
theorem echo_accepted (hr : (connection P).Run (.new tok) tr s) : EchoesAccepted tr := by
  intro a en b htr d queued hout
  rw [htr] at hr
  obtain ⟨hpre, hst⟩ := hr.split
  rw [hout] at hst
  rw [CandidateSet.contains_iff]
  rcases echoInv_run hpre _ _ (echoing_of_offered hst) with hp | hfull | ⟨hadds, hadv | hrep⟩
  · exact .inl (.inr hp)
  · exact .inr (.inl hfull)
  · exact .inl (.inl hadv)
  · exact .inr (.inr ⟨hadds, hrep⟩)

end

/-- The probe of the `k`-th source, a second after the one before. -/
def presentAt (k : Nat) : List ConnEvent :=
  [.socket (.receive (frame (.fill 7), .testNet (UInt8.ofNat k) 10000)), .socket .recv, .socket .route,
    .handler .recv, .handler (.act (secs k) id), .handler .addSource, .handler .echo]

def crowd (n : Nat) : List ConnEvent := (List.range n).flatMap presentAt

def echoesCandidate (en : ConnEntry) : Bool :=
  match en.out with
  | .offered .echo d _ => en.pre.connections.contains d.2
  | _ => true

theorem crowd_runs : ((connection (sampleEndpoint ⟨false, false⟩)).exec (.new (.fill 7)) (crowd 1)).isSome = true := by
  decide +kernel

theorem crowd_accepted : ∃ tr s, (connection (sampleEndpoint ⟨false, false⟩)).Run (.new (.fill 7)) tr s ∧
    s.toInternet = [(frame (.fill 7), .testNet 0 10000)] ∧ EchoesAccepted tr :=
  ⟨_, _, Machine.run_of_exec crowd_runs, by decide +kernel, echo_accepted (Machine.run_of_exec crowd_runs)⟩

/-- The advertised address of the first record presents the run token, and the second record comes before its echo. -/
def overtaken : List ConnEvent :=
  [.listener (.value (sampleValue sampleOldText) (secs 150)),
    .listener (.read []),
    .listener .replace,
    .listener (.update [.testNet 1 10000] 0),
    .socket (.receive (frame (.fill 7), .testNet 1 10000)),
    .socket .recv,
    .socket .route,
    .handler .recv,
    .handler (.act 0 id),
    .handler .addSource,
    .listener (.value (sampleValue sampleNewText) (secs 205)),
    .listener (.read [.testNet 1 10000]),
    .listener .replace,
    .handler .echo]

theorem violates_of_exec {events : List ConnEvent} {Q : ConnEntry → Bool}
    (h : ((connection (sampleEndpoint ⟨false, false⟩)).exec (.new (.fill 7)) events).map
      (fun r => r.1.all Q && !r.1.all echoesCandidate) = some true) :
    ¬ ∀ tr s, (connection (sampleEndpoint ⟨false, false⟩)).Run (.new (.fill 7)) tr s → (∀ en ∈ tr, Q en = true) →
      ∀ en ∈ tr, ∀ d queued, en.out = .offered .echo d queued → en.pre.connections.contains d.2 = true := by
  obtain ⟨⟨tr, s⟩, hexec, hboth⟩ := Option.map_eq_some_iff.mp h
  rw [Bool.and_eq_true, Bool.not_eq_true'] at hboth
  intro hall
  have hcand : tr.all echoesCandidate = true := by
    refine List.all_eq_true.mpr fun en hen => ?_
    unfold echoesCandidate
    split
    · rename_i d q hout
      exact hall tr s (Machine.exec_run hexec) (List.all_eq_true.mp hboth.1) en hen d q hout
    · rfl
  rw [hcand] at hboth
  cases hboth.2

/-- The 65th source that presents the run token is echoed and is no
candidate, without any replacement; and so is, with room for it, a source
whose advertised set is replaced between its admission and its echo. -/
theorem crowd_echoed :
    (¬ ∀ tr s, (connection (sampleEndpoint ⟨false, false⟩)).Run (.new (.fill 7)) tr s →
      (∀ en ∈ tr, (!en.out.ofListener) = true) →
      ∀ en ∈ tr, ∀ d queued, en.out = .offered .echo d queued → en.pre.connections.contains d.2 = true) ∧
    ¬ ∀ tr s, (connection (sampleEndpoint ⟨false, false⟩)).Run (.new (.fill 7)) tr s →
      (∀ en ∈ tr, decide (en.pre.connections.peerReflexive.card < maxPeerReflexiveCandidates) = true) →
      ∀ en ∈ tr, ∀ d queued, en.out = .offered .echo d queued → en.pre.connections.contains d.2 = true := by
  have hcrowd : ((connection (sampleEndpoint ⟨false, false⟩)).exec (.new (.fill 7)) (crowd 65)).map
      (fun r => r.1.all (fun en => !en.out.ofListener) && !r.1.all echoesCandidate) = some true := by
    decide +kernel
  have hovertaken : ((connection (sampleEndpoint ⟨false, false⟩)).exec (.new (.fill 7)) overtaken).map
      (fun r => r.1.all (fun en => decide (en.pre.connections.peerReflexive.card < maxPeerReflexiveCandidates)) &&
        !r.1.all echoesCandidate) = some true := by
    decide +kernel
  exact ⟨violates_of_exec hcrowd, violates_of_exec hovertaken⟩

end P2pTunnler
