import P2pTunnler.Pacing
import P2pTunnler.MappingSound
import P2pTunnler.Lib.Settle

/-!
# Rounds are paced, and a lost mapping is noticed

A round follows another after fifteen seconds at the least, except once in
the life of a task: when the worker says that its mapping is gone. From then
on the candidates are those of a task that never had a mapping.
-/

namespace P2pTunnler

open Machine (Since since_snoc)

/-! ## Steps -/

/-- The worker has a result and has not sent it. -/
def WorkerPhase.pending : WorkerPhase → Bool
  | sending _ _ _ => true
  | failing _ => true
  | _ => false

/-- The mapping that the worker hands over. -/
def handed (en : PacedEntry) : Option SocketAddr :=
  match en.event, en.out with
  | .worker (.send _), .effects [.sent (.ok (externalAddr, _))] => some externalAddr
  | _, _ => none

/-- The worker says that its mapping is gone. -/
def expires (en : PacedEntry) : Bool :=
  match en.event with
  | .worker (.timeout (.error _)) => true
  | _ => false

inductive PacedStep (lookup : StunLookup) (s : PacedState) : PacedEvent → PacedOut → PacedState → Prop
  | aside {e es} (w : WorkerState) : expires ⟨s, .worker e, .effects es, { s with worker := w }⟩ = false →
    handed ⟨s, .worker e, .effects es, { s with worker := w }⟩ = none → (w.phase.pending = true → s.task = .requesting) →
    (s.worker.phase = .returned → w.phase = .returned) →
    PacedStep lookup s (.worker e) (.effects es) { s with worker := w }
  | mapped {externalAddr method lease} (w : WorkerState) : s.worker.phase = .sending externalAddr method lease →
    w.phase.pending = false →
    PacedStep lookup s (.worker (.send true)) (.effects [.sent (.ok (externalAddr, method))])
      { s with worker := w, natMapping := some externalAddr, task := .looking }
  | refused {error} (w : WorkerState) : s.worker.phase = .failing error → w.phase = .returned →
    PacedStep lookup s (.worker (.send true)) (.effects [.sent (.error error)])
      { s with worker := w, task := .looking }
  | expire {lease grantedAt deadline} (error : String) : s.worker.phase = .waiting lease grantedAt deadline →
    PacedStep lookup s (.worker (.timeout (.error error))) (.effects [.renewalFailed lease.id])
      { s with worker := { s.worker with phase := .returned, active := false }, active := s.active.sendReplace false }
  | unmapped : s.task = .requesting → s.worker.phase = .starting →
    PacedStep lookup s .unmapped .silent { s with task := .looking }
  | exit : PacedStep lookup s .exit .silent { s with active := s.active.drop }
  | fail {r} : s.task = .looking → s.round lookup r = none →
    PacedStep lookup s (.lookup r) .silent { s with task := .returned }
  | round {r addresses} : s.task = .looking → s.round lookup r = some addresses →
    PacedStep lookup s (.lookup r) (.broadcast addresses) { s with task := s.waitForNextStunAttempt r.delay }
  | changed {delay deadline} : s.task = .watching delay deadline → s.active.version ≠ s.seen →
    PacedStep lookup s .poll .silent { s with seen := s.active.version, task := lookup.next }
  | closed {delay deadline} : s.task = .watching delay deadline → s.active.version = s.seen →
    PacedStep lookup s .poll .silent { s with task := .sleeping (s.now + delay) }
  | elapsed {delay deadline} : s.task = .watching delay deadline → s.active.version = s.seen → deadline ≤ s.now →
    PacedStep lookup s .poll .silent { s with task := lookup.next }
  | wake {deadline} : s.task = .sleeping deadline → deadline ≤ s.now →
    PacedStep lookup s .wake .silent { s with task := lookup.next }
  | elapse (d : Nat) (w : WorkerState) : w.phase = s.worker.phase →
    PacedStep lookup s (.elapse d) .silent { s with now := s.now + d, worker := w }

section
variable {lookup : StunLookup} {s s' : PacedState} {e : PacedEvent} {o : PacedOut} {tr : List PacedEntry}

theorem workerStep_cases {e : WorkerEvent} (h : s.workerStep lookup e = some (s', o)) :
    PacedStep lookup s (.worker e) o s' := by
  unfold PacedState.workerStep at h
  split at h
  · cases h
  · rename_i w es hw
    cases workerStep_of_step hw with
    | start a hp =>
      simp only at h
      split at h
      · rename_i hreq
        cases h
        exact .aside _ rfl rfl (fun _ => hreq.1) (fun hr => absurd (hp.symm.trans hr) nofun)
      · cases h
    | deliver hp =>
      cases h
      exact .mapped _ hp rfl
    | abandon hp =>
      cases h
      exact .aside _ rfl rfl nofun fun _ => rfl
    | fail delivered hp =>
      cases delivered with
      | false =>
        cases h
        exact .aside _ rfl rfl nofun fun _ => rfl
      | true =>
        cases h
        exact .refused _ hp rfl
    | elapse d hp hd => cases h
    | shutdown hp =>
      simp only at h
      split at h
      · cases h
        exact .aside _ rfl rfl nofun fun _ => rfl
      · cases h
    | expire error hp =>
      cases h
      exact .expire error hp
    | renew lifetime hp =>
      cases h
      exact .aside _ rfl rfl nofun fun hr => absurd (hp.symm.trans hr) nofun

theorem paced_cases (h : (paced lookup).step s e = some (s', o)) : PacedStep lookup s e o s' := by
  cases e with
  | worker e => exact workerStep_cases h
  | unmapped =>
    simp only [paced] at h
    split at h
    · rename_i ht hp
      cases h
      exact .unmapped ht hp
    · cases h
  | exit =>
    simp only [paced] at h
    split at h
    · split at h
      · cases h
        exact .exit
      · cases h
    · cases h
  | lookup r =>
    simp only [paced] at h
    split at h
    · rename_i ht
      split at h
      · rename_i hr
        cases h
        exact .fail ht hr
      · rename_i hr
        cases h
        exact .round ht hr
    · cases h
  | poll =>
    simp only [paced] at h
    split at h
    · rename_i ht
      split at h
      · rename_i hp
        obtain ⟨hv, rfl⟩ := Watch.poll_eq_changed.mp hp
        cases h
        exact .changed ht hv
      · rename_i hp
        cases h
        exact .closed ht (Watch.version_of_poll_ne hp nofun)
      · rename_i hp
        split at h
        · rename_i hd
          cases h
          exact .elapsed ht (Watch.version_of_poll_ne hp nofun) hd
        · cases h
    · cases h
  | wake =>
    simp only [paced] at h
    split at h
    · rename_i ht
      split at h
      · rename_i hd
        cases h
        exact .wake ht hd
      · cases h
    · cases h
  | elapse d =>
    simp only [paced] at h
    split at h
    · split at h
      · cases h
      · rename_i hw
        cases h
        cases workerStep_of_step hw with
        | elapse d hp hd => exact .elapse d _ rfl
    · cases h
      exact .elapse d _ rfl

/-! ## The channel -/

/-- What the channel and the mapping say of the past. -/
structure Watched (tr : List PacedEntry) (s : PacedState) : Prop where
  version : s.active.version = if tr.any expires then 1 else 0
  value : s.active.value = !tr.any expires
  mapping : s.natMapping = (tr.filterMap handed).getLast?
  seen : s.seen ≤ s.active.version
  gone : tr.any expires = true → s.worker.phase = .returned
  asked : s.worker.phase.pending = true → s.task = .requesting
  delay : ∀ delay deadline, s.task = .watching delay deadline → secs 15 ≤ delay

theorem watched_new : Watched [] PacedState.new := ⟨rfl, rfl, rfl, le_refl _, nofun, nofun, nofun⟩

theorem le_delay (r : Round) : secs 15 ≤ r.delay := by
  unfold Round.delay
  split
  · decide
  · exact le_refl _

theorem next_ne_watching {delay deadline : Nat} : lookup.next ≠ .watching delay deadline := by
  unfold StunLookup.next
  split <;> nofun

/-- Steps that neither lose a mapping nor hand one over. -/
theorem Watched.keep (hW : Watched tr s) (hx : expires ⟨s, e, o, s'⟩ = false) (hh : handed ⟨s, e, o, s'⟩ = none)
    (hv : s'.active.version = s.active.version) (hval : s'.active.value = s.active.value)
    (hn : s'.natMapping = s.natMapping) (hseen : s'.seen ≤ s'.active.version)
    (hgone : s.worker.phase = .returned → s'.worker.phase = .returned)
    (hasked : s'.worker.phase.pending = true → s'.task = .requesting)
    (hdelay : ∀ delay deadline, s'.task = .watching delay deadline → secs 15 ≤ delay) :
    Watched (tr ++ [⟨s, e, o, s'⟩]) s' := by
  have hany : List.any (tr ++ [⟨s, e, o, s'⟩]) expires = tr.any expires := by simp [hx]
  refine ⟨?_, ?_, ?_, hseen, ?_, hasked, hdelay⟩
  · rw [hv, hany]; exact hW.version
  · rw [hval, hany]; exact hW.value
  · rw [hn, List.filterMap_append, List.filterMap_cons_none hh]
    simpa using hW.mapping
  · rw [hany]
    exact fun h => hgone (hW.gone h)

theorem Watched.not_expired (hW : Watched tr s) (hp : s.worker.phase ≠ .returned) : tr.any expires = false := by
  by_contra hx
  exact hp (hW.gone (by simpa using hx))

theorem Watched.step (hW : Watched tr s) (h : (paced lookup).step s e = some (s', o)) :
    Watched (tr ++ [⟨s, e, o, s'⟩]) s' := by
  have hbusy : ∀ {task task' : LookupTask}, s.task = task → task ≠ .requesting →
      s.worker.phase.pending = true → task' = .requesting :=
    fun ht hne hp => absurd (ht.symm.trans (hW.asked hp)) hne
  cases paced_cases h with
  | aside w hx hh hp hr => exact hW.keep hx hh rfl rfl rfl hW.seen hr hp hW.delay
  | mapped w hp hw =>
    have hany := hW.not_expired (by rw [hp]; nofun)
    refine ⟨?_, ?_, ?_, hW.seen, ?_, ?_, nofun⟩
    · simpa [expires] using hW.version
    · simpa [expires] using hW.value
    · simp [handed]
    · simp [hany, expires]
    · simp [hw]
  | refused w hp hw =>
    exact hW.keep rfl rfl rfl rfl rfl hW.seen (fun _ => hw) (by simp [hw, WorkerPhase.pending]) nofun
  | expire error hp =>
    have hany := hW.not_expired (by rw [hp]; nofun)
    have hv : s.active.version = 0 := by rw [hW.version, hany]; rfl
    refine ⟨?_, ?_, ?_, ?_, fun _ => rfl, nofun, hW.delay⟩
    · simp [expires, Watch.sendReplace, hv]
    · simp [expires, Watch.sendReplace]
    · simpa [handed] using hW.mapping
    · exact Nat.le_succ_of_le hW.seen
  | unmapped ht hp => exact hW.keep rfl rfl rfl rfl rfl hW.seen id (by simp [hp, WorkerPhase.pending]) nofun
  | exit => exact hW.keep rfl rfl rfl rfl rfl hW.seen id hW.asked hW.delay
  | fail ht hr => exact hW.keep rfl rfl rfl rfl rfl hW.seen id (hbusy ht nofun) nofun
  | round ht hr =>
    refine hW.keep rfl rfl rfl rfl rfl hW.seen id (hbusy ht nofun) ?_
    intro delay deadline hd
    unfold PacedState.waitForNextStunAttempt at hd
    split at hd
    · cases hd
      exact le_delay _
    · cases hd
  | changed ht hv =>
    exact hW.keep rfl rfl rfl rfl rfl (le_refl _) id (hbusy ht nofun) fun _ _ hn => absurd hn next_ne_watching
  | closed ht hv =>
    refine hW.keep rfl rfl rfl rfl rfl hW.seen id (hbusy ht nofun) ?_
    intro delay deadline hd
    cases hd
  | elapsed ht hv hd =>
    exact hW.keep rfl rfl rfl rfl rfl hW.seen id (hbusy ht nofun) fun _ _ hn => absurd hn next_ne_watching
  | wake ht hd => exact hW.keep rfl rfl rfl rfl rfl hW.seen id (hbusy ht nofun) fun _ _ hn => absurd hn next_ne_watching
  | elapse d w hp =>
    exact hW.keep rfl rfl rfl rfl rfl hW.seen (fun hr => hp.trans hr) (fun hq => hW.asked (hp ▸ hq)) hW.delay

theorem watched_run (hr : (paced lookup).Run .new tr s) : Watched tr s := by
  induction hr with
  | nil => exact watched_new
  | snoc _ hst ih => exact ih.step hst

/-! ## Pacing -/

def PacedOut.isBroadcast : PacedOut → Bool
  | broadcast _ => true
  | _ => false

/-- How many rounds have come to their end. -/
def rounds (tr : List PacedEntry) : Nat := tr.countP fun en => en.out.isBroadcast

theorem rounds_quiet {en : PacedEntry} (h : en.out.isBroadcast = false) : rounds (tr ++ [en]) = rounds tr := by
  simp [rounds, List.countP_append, h]

theorem rounds_broadcast {en : PacedEntry} (h : en.out.isBroadcast = true) : rounds (tr ++ [en]) = rounds tr + 1 := by
  simp [rounds, List.countP_append, h]

def LookupTask.due : LookupTask → Nat
  | watching _ deadline => deadline
  | sleeping deadline => deadline
  | _ => 0

/-- Rounds are paid for: fifteen seconds of waiting for each, or a new version in the channel. -/
structure Paid (s₀ : PacedState) (tr : List PacedEntry) (s : PacedState) : Prop where
  ended : secs 15 * rounds tr + s₀.now + secs 15 * s₀.seen ≤ secs 15 * s.seen + s.now + secs 15
  due : secs 15 * rounds tr + s₀.now + secs 15 * s₀.seen ≤ secs 15 * s.seen + max s.task.due s.now

theorem due_next : lookup.next.due = 0 := by
  unfold StunLookup.next
  split <;> rfl

theorem due_wait (delay : Nat) : (s.waitForNextStunAttempt delay).due = s.now + delay := by
  unfold PacedState.waitForNextStunAttempt
  split <;> rfl

theorem Paid.quiet {s₀ : PacedState} (hP : Paid s₀ tr s) (ho : o.isBroadcast = false) (hs : s'.seen = s.seen)
    (hn : s.now ≤ s'.now) (hd : max s.task.due s.now ≤ max s'.task.due s'.now) :
    Paid s₀ (tr ++ [⟨s, e, o, s'⟩]) s' := by
  obtain ⟨hended, hdue⟩ := hP
  refine ⟨?_, ?_⟩
  · rw [rounds_quiet ho, hs]; omega
  · rw [rounds_quiet ho, hs]; omega

theorem Paid.step {s₀ : PacedState} {a : List PacedEntry} (hP : Paid s₀ tr s) (hW : Watched a s)
    (h : (paced lookup).step s e = some (s', o)) : Paid s₀ (tr ++ [⟨s, e, o, s'⟩]) s' := by
  have hmul : ∀ m, secs 15 * (m + 1) = secs 15 * m + secs 15 := fun m => Nat.mul_succ (secs 15) m
  cases paced_cases h with
  | aside w => exact hP.quiet rfl rfl (le_refl _) (le_refl _)
  | mapped w hp hw =>
    have ht := hW.asked (by rw [hp]; rfl)
    exact hP.quiet rfl rfl (le_refl _) (by rw [ht]; exact le_refl _)
  | refused w hp hw =>
    have ht := hW.asked (by rw [hp]; rfl)
    exact hP.quiet rfl rfl (le_refl _) (by rw [ht]; exact le_refl _)
  | expire error hp => exact hP.quiet rfl rfl (le_refl _) (le_refl _)
  | unmapped ht hp => exact hP.quiet rfl rfl (le_refl _) (by rw [ht]; exact le_refl _)
  | exit => exact hP.quiet rfl rfl (le_refl _) (le_refl _)
  | fail ht hr => exact hP.quiet rfl rfl (le_refl _) (by rw [ht]; exact le_refl _)
  | @round r addresses ht hr =>
    -- the round before has been waited for, and this one is paid by the wait it begins
    have hle := le_delay r
    have hdue := hP.due
    simp only [ht, LookupTask.due, Nat.zero_max] at hdue
    refine ⟨?_, ?_⟩
    · rw [rounds_broadcast rfl, hmul]; dsimp only; omega
    · rw [rounds_broadcast rfl, hmul, due_wait]; dsimp only; omega
  | changed ht hv =>
    have hlt : s.seen + 1 ≤ s.active.version := Nat.lt_of_le_of_ne hW.seen hv.symm
    have hpay := Nat.mul_le_mul_left (secs 15) hlt
    have hended := hP.ended
    rw [hmul] at hpay
    refine ⟨?_, ?_⟩
    · rw [rounds_quiet rfl]; dsimp only; omega
    · rw [rounds_quiet rfl, due_next, Nat.zero_max]; dsimp only; omega
  | @closed delay deadline ht hv =>
    have hle := hW.delay _ _ ht
    have hended := hP.ended
    refine ⟨?_, ?_⟩
    · rw [rounds_quiet rfl]; exact hended
    · rw [rounds_quiet rfl, LookupTask.due]; dsimp only; omega
  | elapsed ht hv hd =>
    exact hP.quiet rfl rfl (le_refl _) (by rw [ht, due_next, LookupTask.due, Nat.max_eq_right hd, Nat.zero_max])
  | wake ht hd =>
    exact hP.quiet rfl rfl (le_refl _) (by rw [ht, due_next, LookupTask.due, Nat.max_eq_right hd, Nat.zero_max])
  | elapse d w hp =>
    exact hP.quiet rfl rfl (Nat.le_add_right _ _) (max_le_max (le_refl _) (Nat.le_add_right _ _))

theorem paid_run {s₀ : PacedState} {a : List PacedEntry} (h₀ : (paced lookup).Run .new a s₀)
    (hr : (paced lookup).Run s₀ tr s) : Paid s₀ tr s := by
  induction hr with
  | nil =>
    refine ⟨?_, ?_⟩
    · rw [rounds, List.countP_nil]; omega
    · rw [rounds, List.countP_nil]; omega
  | snoc hr hst ih => exact ih.step (watched_run (h₀.append hr)) hst

/-- **Rounds are paced.** Between any two moments of a run, rounds end at
most once every fifteen seconds, the first one apart, and one more when a
renewal has failed: a channel that is closed does not make the task spin. -/
theorem rounds_paced {s₀ : PacedState} {a : List PacedEntry} (h₀ : (paced lookup).Run .new a s₀)
    (hr : (paced lookup).Run s₀ tr s) :
    secs 15 * rounds tr + s₀.now ≤ s.now + secs 15 + if (a ++ tr).any expires then secs 15 else 0 := by
  have hW := watched_run (h₀.append hr)
  have hP := (paid_run h₀ hr).ended
  have hseen := Nat.mul_le_mul_left (secs 15) hW.seen
  rw [hW.version] at hseen
  split at hseen
  · rename_i hx
    rw [if_pos hx]
    omega
  · rename_i hx
    rw [if_neg hx]
    omega

/-! ## A mapping that is gone -/

theorem lookupPublicAddress_inactive (lookup : StunLookup) (r : Round) (active : Bool) :
    lookup.lookupPublicAddress { r with active := false } =
      { lookup with natMapping := none }.lookupPublicAddress { r with active := active } := by
  have hpub : ∀ address, lookup.publicCandidates address false = [address] := by
    intro address
    unfold StunLookup.publicCandidates
    split <;> rfl
  simp only [StunLookup.lookupPublicAddress, hpub]
  rfl

/-- The mapping that a task may still advertise. -/
def liveMapping (tr : List PacedEntry) : Option SocketAddr :=
  if tr.any expires then none else (tr.filterMap handed).getLast?

theorem round_live (hW : Watched tr s) (r : Round) :
    s.round lookup r =
      { lookup with natMapping := liveMapping tr }.lookupPublicAddress { r with active := true } := by
  unfold PacedState.round liveMapping
  rw [hW.value, hW.mapping]
  cases tr.any expires with
  | false => rfl
  | true =>
    exact lookupPublicAddress_inactive { lookup with natMapping := _ } r true

theorem round_of_broadcast {r : Round} {addresses : List SocketAddr}
    (h : (paced lookup).step s (.lookup r) = some (s', .broadcast addresses)) : s.round lookup r = some addresses := by
  cases paced_cases h with
  | round ht hround => exact hround

/-- The task has not looked at the channel since the worker gave up. -/
theorem unseen_since (hr : (paced lookup).Run .new tr s)
    (hs : Since (fun en => expires en = true) (fun en => en.event ≠ .poll) tr) : s.seen = 0 ∧ s.active.version = 1 := by
  have hW := watched_run hr
  constructor
  · induction hr with
    | nil => obtain ⟨a, x, b, h, -⟩ := hs; simp at h
    | @snoc tr s e o s' hr hst ih =>
      have hW' := watched_run hr
      rcases since_snoc.mp hs with hx | ⟨hne, hs⟩
      · cases paced_cases hst with
        | expire error hp =>
          have hle := hW'.seen
          rw [hW'.version, hW'.not_expired (by rw [hp]; nofun)] at hle
          exact Nat.le_zero.mp hle
        | aside w hx' => exact absurd (hx.symm.trans hx') nofun
        | _ => cases hx
      · have := ih hs hW'
        cases paced_cases hst with
        | changed => exact absurd rfl hne
        | closed => exact absurd rfl hne
        | elapsed => exact absurd rfl hne
        | _ => exact this
  · obtain ⟨a, x, b, rfl, hx, -⟩ := hs
    rw [hW.version, if_pos (by simp [hx])]

/-- **A lost mapping is noticed once and never advertised again.** Every list
that is broadcast has the mapping that was handed over, if the server's answer
matches it, until the worker reports that it is gone; from then on it is as if
there had been no mapping. A round counts as of its look at the status flag:
the list of one that has looked can go out just after the report. The first
wait after the report ends at once. -/
theorem lost_mapping_withdrawn (hr : (paced lookup).Run .new tr s) :
    (∀ a en b r addresses, tr = a ++ en :: b → en.event = .lookup r → en.out = .broadcast addresses →
      { lookup with natMapping := liveMapping a }.lookupPublicAddress { r with active := true } = some addresses) ∧
    (Since (fun en => expires en = true) (fun en => en.event ≠ .poll) tr →
      ∀ delay deadline, s.task = .watching delay deadline →
        (paced lookup).step s .poll = some ({ s with seen := 1, task := lookup.next }, .silent)) := by
  constructor
  · intro a en b r addresses htr he ho
    rw [htr] at hr
    obtain ⟨hpre, hst⟩ := hr.split
    rw [he, ho] at hst
    rw [← round_live (watched_run hpre)]
    exact round_of_broadcast hst
  · intro hs delay deadline ht
    obtain ⟨hseen, hv⟩ := unseen_since hr hs
    simp only [paced, ht]
    rw [Watch.poll_changed (by rw [hv, hseen]; nofun), hv]

end

/-! ## A run -/

def mappedLookup : StunLookup := ⟨5000, false, none, false⟩

def homeRound : Round :=
  { ipv4Round with received := [(stunAnswerOf 5 1 [203, 0, 113, 7], stunServer)], routed := by decide }

-- a PCP mapping of 203.0.113.7:5000 has been granted
def sampleGranted : PacedState :=
  { PacedState.new with
    worker := ⟨.sending (.v4 (.new 203 0 113 7) 5000) .pcp
      (.pcpNatPmp ⟨.pcp (.v4 (.new 203 0 113 7)), 5000, 7200⟩), 0, true⟩ }

theorem sampleGranted_step : (paced mappedLookup).step .new (.worker (.start (pcpRouter 7200))) =
    some (sampleGranted, .effects [.granted ⟨.pcp, 5000⟩]) := by
  have hst : (mappingWorker mappedLookup.localPort).step PacedState.new.worker (.start (pcpRouter 7200)) = _ :=
    step_of_workerStep (.start _ rfl)
  rw [acquire_pcpRouter] at hst
  simp only [paced, PacedState.workerStep, hst]
  rfl

/-- Two rounds with the mapping; the renewal fails; a third round at once, and the wait after it is a sleep. -/
def sampleLoss : List PacedEvent :=
  [.worker (.send true), .lookup homeRound, .elapse (secs 3600), .poll, .lookup homeRound,
    .worker (.timeout (.error "timed out")), .poll, .lookup homeRound, .exit, .poll]

theorem sampleHour_runs : ((paced mappedLookup).exec sampleGranted (sampleLoss.take 4)).isSome = true := by
  decide +kernel

-- the mapping has been held for an hour, and its second round is about to end
def sampleHour : List PacedEntry × PacedState :=
  ((paced mappedLookup).exec sampleGranted (sampleLoss.take 4)).get sampleHour_runs

theorem sampleHour_continues : ((paced mappedLookup).exec sampleHour.2 (sampleLoss.drop 4)).isSome = true := by
  decide +kernel

/-- After an hour two rounds end at the same moment: the bound is met. -/
theorem sampleLoss_paced : ∃ s₀ tr s, (paced mappedLookup).Run s₀ tr s ∧ rounds tr = 2 ∧ s.now = s₀.now ∧
    secs 15 * rounds tr + s₀.now ≤ s.now + secs 15 + secs 15 := by
  have h₀ : (paced mappedLookup).Run .new _ sampleHour.2 := .cons sampleGranted_step
    (Machine.run_of_exec sampleHour_runs)
  have hr := Machine.run_of_exec sampleHour_continues
  refine ⟨_, _, _, hr, by decide +kernel, by decide +kernel, ?_⟩
  exact (rounds_paced h₀ hr).trans (by decide +kernel)

theorem sampleLost_runs : ((paced mappedLookup).exec sampleGranted (sampleLoss.take 7)).isSome = true := by
  decide +kernel

-- the renewal has failed, and the third round is about to end
def sampleLost : List PacedEntry × PacedState :=
  ((paced mappedLookup).exec sampleGranted (sampleLoss.take 7)).get sampleLost_runs

theorem sampleLost_broadcasts : (paced mappedLookup).step sampleLost.2 (.lookup homeRound) =
    some ({ sampleLost.2 with task := sampleLost.2.waitForNextStunAttempt homeRound.delay },
      .broadcast [.v4 (.new 203 0 113 7) 10000]) := by
  have ht : sampleLost.2.task = .looking := by decide +kernel
  have hround : sampleLost.2.round mappedLookup homeRound = some [.v4 (.new 203 0 113 7) 10000] := by decide +kernel
  simp only [paced, ht, hround]

/-- The third round leaves the mapping out, which had been handed over. -/
theorem sampleLoss_withdrawn : ∃ tr s, (paced mappedLookup).Run .new tr s ∧
    ∃ a en b r, tr = a ++ en :: b ∧ en.event = .lookup r ∧ a.filterMap handed = [.v4 (.new 203 0 113 7) 5000] ∧
      liveMapping a = none ∧
      { mappedLookup with natMapping := liveMapping a }.lookupPublicAddress { r with active := true } =
        some [.v4 (.new 203 0 113 7) 10000] := by
  have h₀ : (paced mappedLookup).Run .new _ sampleLost.2 := .cons sampleGranted_step
    (Machine.run_of_exec sampleLost_runs)
  refine ⟨_, _, h₀.snoc sampleLost_broadcasts, _, _, [], homeRound, rfl, rfl, by decide +kernel, by decide +kernel,
    ?_⟩
  exact (lost_mapping_withdrawn (h₀.snoc sampleLost_broadcasts)).1 _ _ [] homeRound _ rfl rfl rfl

end P2pTunnler
