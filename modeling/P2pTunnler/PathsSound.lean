import P2pTunnler.ServiceLemmas
import P2pTunnler.ProbeSound

/-!
# Probe paths and advertised candidates

The listener keeps two tables, the advertised set and the probe paths, and
writes them in separate steps. Whenever it has finished with a record they
agree, and in between the paths are those of the record before.
-/

namespace P2pTunnler

open Machine (Since since_snoc)
open Finset (Enumerates)

/-- `a` was advertised when the record that was accepted last came in. -/
def AdvertisedBefore (a : SocketAddr) (tr : List ConnEntry) : Prop :=
  Since (fun en => (∃ m, en.out = .accepted m) ∧ a ∈ en.pre.connections.advertised)
    (fun en => ∀ m, en.out ≠ .accepted m) tr

theorem AdvertisedBefore.of_snoc {a : SocketAddr} {tr : List ConnEntry} {en : ConnEntry}
    (h : AdvertisedBefore a (tr ++ [en])) (hen : ∀ m, en.out ≠ .accepted m) : AdvertisedBefore a tr := by
  rcases since_snoc.mp h with ⟨⟨m, hm⟩, _⟩ | ⟨_, h⟩
  · exact absurd hm (hen m)
  · exact h

/-- How far the listener has got with the sets of a record. -/
def ListenerTask.Installs (advertised : Finset SocketAddr) : ListenerTask → Prop
  | waiting => True
  | reading _ => True
  | replacing _ updated => updated.card ≤ maxRemoteCandidates
  | updating _ updated => advertised = updated ∧ updated.card ≤ maxRemoteCandidates

structure PathsInv (tr : List ConnEntry) (s : ConnState) : Prop where
  size : s.probes.paths.size ≤ maxProbePaths
  installs : s.listener.Installs s.connections.advertised
  agree : (∀ m u, s.listener ≠ .updating m u) → s.probes.remoteToken ≠ none →
    s.probes.paths.keys = s.connections.advertised
  before : s.listener ≠ .waiting → s.probes.remoteToken ≠ none →
    ∀ a, AdvertisedBefore a tr → a ∈ s.probes.paths.keys

theorem pathsInv_new (tok : Token) : PathsInv [] (.new tok) where
  size := Nat.zero_le _
  installs := trivial
  agree _ h := absurd rfl h
  before h := absurd rfl h

section
variable {κ : Type} {P : Endpoint κ} {tr : List ConnEntry} {s s' : ConnState} {o : ConnOut}

/-- A step that leaves the listener, the advertised set, the keys and the token alone. -/
theorem PathsInv.frame (hI : PathsInv tr s) {en : ConnEntry} (hl : s'.listener = s.listener)
    (ha : s'.connections.advertised = s.connections.advertised)
    (hk : s'.probes.paths.keys = s.probes.paths.keys) (ht : s'.probes.remoteToken = s.probes.remoteToken)
    (hen : ∀ m, en.out ≠ .accepted m) : PathsInv (tr ++ [en]) s' where
  size := by rw [FinTable.size, hk]; exact hI.size
  installs := by rw [hl, ha]; exact hI.installs
  agree := by rw [hl, ht, hk, ha]; exact hI.agree
  before := by
    rw [hl, ht, hk]
    intro hw hr a hb
    exact hI.before hw hr a (hb.of_snoc hen)

theorem pathsInv_listener {e : ListenerEvent} (hI : PathsInv tr s) (h : listenerStep P s e = some (s', o)) :
    PathsInv (tr ++ [⟨s, .listener e, o, s'⟩]) s' := by
  have hinst := hI.installs
  rcases listenerStep_cases h with ⟨_, _, _, rfl, rfl⟩ | ⟨value, now, m, _, hl, _, rfl, rfl⟩ |
    ⟨known, m, _, hl, hk, rfl, rfl⟩ | ⟨m, u, _, hl, _, rfl, rfl⟩ | ⟨order, instant, m, u, _, hl, hord, rfl, rfl⟩
  · refine hI.frame rfl rfl rfl rfl ?_
    intro m hm
    cases hm
  · -- the paths agree with the set that is advertised when the record comes in
    have hagree := hI.agree (by rw [hl]; intro m u hc; cases hc)
    refine ⟨hI.size, trivial, fun _ => hagree, fun _ hr a hb => ?_⟩
    rw [hagree hr]
    rcases since_snoc.mp hb with ⟨_, ha⟩ | ⟨hno, _⟩
    · exact ha
    · exact absurd rfl (hno m)
  · have hcard := P.flags.card_updatedPeers m known
    have hagree := hI.agree (by rw [hl]; intro m u hc; cases hc)
    refine ⟨hI.size, ?_, fun _ => hagree, fun _ hr a hb => ?_⟩
    · show ListenerTask.Installs _ (if _ then _ else _)
      split
      · exact hcard
      · rename_i hsame
        exact ⟨not_not.mp hsame, hcard⟩
    · refine hI.before (by rw [hl]; intro hc; cases hc) hr a (hb.of_snoc ?_)
      intro m hm
      cases hm
  · rw [hl] at hinst
    refine ⟨hI.size, ⟨rfl, hinst⟩, fun hn => absurd rfl (hn m u), fun _ hr a hb => ?_⟩
    refine hI.before (by rw [hl]; intro hc; cases hc) hr a (hb.of_snoc ?_)
    intro m hm
    cases hm
  · rw [hl] at hinst
    obtain ⟨hadv, hcard⟩ := hinst
    have hkeys := updateRemote_keys s.probes (P.enc.remoteToken m) hord hcard instant
    refine ⟨?_, trivial, fun _ hr => ?_, fun hc => absurd rfl hc⟩
    · show (s.probes.updateRemote (P.enc.remoteToken m) order instant).paths.keys.card ≤ maxProbePaths
      rw [hkeys]
      split
      · exact Nat.zero_le _
      · exact hcard
    · show (s.probes.updateRemote (P.enc.remoteToken m) order instant).paths.keys = s.connections.advertised
      rw [ProbeState.updateRemote_remoteToken] at hr
      rw [hkeys, if_neg hr, hadv]

theorem pathsInv_step {e : ConnEvent} (hI : PathsInv tr s) (h : (connection P).step s e = some (s', o)) :
    PathsInv (tr ++ [⟨s, e, o, s'⟩]) s' := by
  rcases (connection_owns h).1 with ⟨e', rfl⟩ | ⟨ho, hl, ha⟩
  · exact pathsInv_listener hI h
  rcases connection_paths h with ⟨e', rfl⟩ | ⟨hk, ht⟩
  · exact pathsInv_listener hI h
  · refine hI.frame hl ha hk ht ?_
    rintro m rfl
    cases ho

theorem pathsInv_run {tok : Token} (hr : (connection P).Run (.new tok) tr s) : PathsInv tr s :=
  hr.history (C := fun _ => True) (P := PathsInv) (pathsInv_new tok)
    (fun _ _ _ _ _ _ hI hst _ => pathsInv_step hI hst) (fun _ _ => trivial)

theorem updated_entry {e : ConnEvent} {m : Message} (h : (connection P).step s e = some (s', .updated m)) :
    ∃ order instant u, s.listener = .updating m u ∧ Enumerates order u ∧
      s' = { s with probes := s.probes.updateRemote (P.enc.remoteToken m) order instant, listener := .waiting } := by
  rcases (connection_owns h).1 with ⟨e', rfl⟩ | ⟨ho, _⟩
  · rcases listenerStep_cases h with ⟨_, _, _, _, ho⟩ | ⟨_, _, _, _, _, _, ho, _⟩ | ⟨_, _, _, _, _, ho, _⟩ |
      ⟨_, _, _, _, _, ho, _⟩ | ⟨order, instant, m', u, _, hl, hord, ho, hs⟩
    · cases ho
    · cases ho
    · cases ho
    · cases ho
    · cases ho
      exact ⟨order, instant, u, hl, hord, hs⟩
  · cases ho

/-- **Paths and candidates agree.** There are no paths without a remote token
and never more than 64. A record that has been handled to the end leaves the
paths of exactly the advertised addresses, or none if its token does not
decode; under the token that was there before, an address that was advertised
before and after keeps its path. Nothing else in the listener touches the
prober, and its own token and reply table stay as they are. -/
theorem paths_agree {tok : Token} (hr : (connection P).Run (.new tok) tr s) :
    (s.probes.remoteToken = none → s.probes.paths.keys = ∅) ∧ s.probes.paths.size ≤ 64 ∧
    ∀ (a : List ConnEntry) (en : ConnEntry) (b : List ConnEntry), tr = a ++ en :: b →
      (∀ m, en.out = .updated m →
        en.post.probes.remoteToken = P.enc.remoteToken m ∧
        en.post.probes.paths.keys =
          (if P.enc.remoteToken m = none then ∅ else en.post.connections.advertised) ∧
        (∀ t, P.enc.remoteToken m = some t → en.pre.probes.remoteToken = some t → ∀ x, AdvertisedBefore x a →
          x ∈ en.post.connections.advertised →
          ∃ path, en.pre.probes.paths.lookup x = some path ∧ en.post.probes.paths.lookup x = some path) ∧
        en.post.probes.localToken = en.pre.probes.localToken ∧
        en.post.probes.replySources = en.pre.probes.replySources) ∧
      ∀ e, en.event = .listener e → (∀ m, en.out ≠ .updated m) → en.post.probes = en.pre.probes := by
  have hnone : s.probes.remoteToken = none → s.probes.paths.keys = ∅ := by
    intro ht
    obtain ⟨ptr, hp⟩ := probes_simulated hr
    rw [Finset.eq_empty_iff_forall_notMem]
    intro x hx
    refine (probeInv_run hp x).token ?_ ht
    rw [ne_eq, FinTable.lookup_eq_none]
    exact not_not.mpr hx
  refine ⟨hnone, (pathsInv_run hr).size, ?_⟩
  intro a en b htr
  rw [htr] at hr
  obtain ⟨hpre, hst⟩ := hr.split
  have hI := pathsInv_run hpre
  constructor
  · intro m hout
    rw [hout] at hst
    obtain ⟨order, instant, u, hl, hord, hpost⟩ := updated_entry hst
    have hinst := hI.installs
    rw [hl] at hinst
    obtain ⟨hadv, hcard⟩ := hinst
    have hkeys := updateRemote_keys en.pre.probes (P.enc.remoteToken m) hord hcard instant
    rw [hpost]
    refine ⟨ProbeState.updateRemote_remoteToken _ _ _ _, by rw [hadv]; exact hkeys, ?_,
      ProbeState.updateRemote_localToken _ _ _ _, ProbeState.updateRemote_replySources _ _ _ _⟩
    intro t ht hsame x hb hx
    have hmem := hI.before (by rw [hl]; intro hc; cases hc) (by rw [hsame]; simp) x hb
    obtain ⟨path, hp⟩ := FinTable.exists_lookup hmem
    refine ⟨path, hp, ?_⟩
    have hsel : x ∈ ProbeState.selected order := by
      rw [selected_of_enumerates hord hcard, ← hadv]
      exact hx
    rw [ProbeState.updateRemote_lookup, if_neg (by simp [ht, hsel]), if_pos (by rw [hsame, ht]), hp]
    rfl
  · intro e hev hout
    rw [hev] at hst
    rcases listenerStep_cases hst with ⟨_, _, _, hs, _⟩ | ⟨_, _, _, _, _, _, _, hs⟩ | ⟨_, _, _, _, _, _, hs⟩ |
      ⟨_, _, _, _, _, _, hs⟩ | ⟨_, _, m, _, _, _, _, ho, _⟩
    · rw [hs]
    · rw [hs]
    · rw [hs]
    · rw [hs]
    · exact absurd ho (hout m)

end

/-- Two records with the same token, and a probe to the candidate of the second. -/
def sampleRecords : List ConnEvent :=
  [.listener (.value (sampleValue sampleFirstText) (secs 195)),
    .listener (.read []),
    .listener (.update [] 0),
    .listener (.value (sampleValue sampleNewText) (secs 205)),
    .listener (.read []),
    .listener .replace,
    .listener (.update [.testNet 2 10000] 0),
    .scheduler (.tick 0 [.testNet 2 10000] fun _ d => d)]

theorem sampleRecords_runs :
    ((connection (sampleEndpoint ⟨false, false⟩)).exec (.new (.fill 7)) sampleRecords).isSome = true := by
  decide +kernel

theorem sampleRecords_agree : ∃ tr s, (connection (sampleEndpoint ⟨false, false⟩)).Run (.new (.fill 7)) tr s ∧
    s.probes.paths.keys = {.testNet 2 10000} ∧ s.connections.advertised = {.testNet 2 10000} ∧
    s.probes.paths.size ≤ 64 :=
  ⟨_, _, Machine.run_of_exec sampleRecords_runs, by decide +kernel, by decide +kernel,
    (paths_agree (Machine.run_of_exec sampleRecords_runs)).2.1⟩

end P2pTunnler
