import P2pTunnler.Startup
import P2pTunnler.KeygenSound
import Mathlib.Algebra.BigOperators.Ring.List

/-!
# What `service::run` returns

Nothing is touched before the whole configuration is known to be good, and a
key that was good then is good when it is used. After that only the system
can stop the set-up; and once it is over, the service runs until some task
ends, and returns the failure that was reported first.
-/

namespace P2pTunnler

/-! ## Validation -/

structure RunCommand.Valid (K : KeyTexts) (command : RunCommand) : Prop where
  secretKeys : ∀ c ∈ command.connections, ∃ key, K.secretKey c.secretKey = .ok key
  publicKeys : ∀ c ∈ command.connections, ∀ peer ∈ c.peers, ∃ key, K.publicKey peer.publicKey = .ok key
  somePeer : 0 < command.peerCount
  onePort : command.outPort = 0 ∨ command.peerCount ≤ 1

section
variable {K : KeyTexts}

theorem parsePeerKey_ok {peer : Peer} {k : Nat} :
    (∃ key, K.parsePeerKey peer k = .ok key) ↔ ∃ key, K.publicKey peer.publicKey = .ok key := by
  unfold KeyTexts.parsePeerKey
  cases K.publicKey peer.publicKey <;> simp [Except.mapError]

theorem validatePeers_ok {peers : List Peer} {k : Nat} :
    K.validatePeers k peers = .ok () ↔ ∀ peer ∈ peers, ∃ key, K.publicKey peer.publicKey = .ok key := by
  induction peers generalizing k with
  | nil => simp [KeyTexts.validatePeers]
  | cons peer peers ih =>
    rw [KeyTexts.validatePeers, List.forall_mem_cons, ← parsePeerKey_ok (k := k)]
    cases K.parsePeerKey peer k with
    | error e => simp
    | ok key => simp [ih]

theorem validateConnections_ok {connections : List P2PConnection} {i : Nat} :
    K.validateConnections i connections = .ok () ↔ ∀ c ∈ connections, (∃ key, K.secretKey c.secretKey = .ok key) ∧
      ∀ peer ∈ c.peers, ∃ key, K.publicKey peer.publicKey = .ok key := by
  induction connections generalizing i with
  | nil => simp [KeyTexts.validateConnections]
  | cons c connections ih =>
    rw [KeyTexts.validateConnections, List.forall_mem_cons, ← validatePeers_ok (k := 0)]
    cases K.secretKey c.secretKey with
    | error e => simp
    | ok key =>
      cases K.validatePeers 0 c.peers with
      | error e => simp
      | ok u => simp [ih]

theorem validate_ok {command : RunCommand} : command.validate K = .ok () ↔ command.Valid K := by
  unfold RunCommand.validate
  have hkeys := @validateConnections_ok K command.connections 0
  cases hv : K.validateConnections 0 command.connections with
  | error e =>
    simp only [reduceCtorEq, false_iff]
    intro h
    rw [hkeys.mpr fun c hc => ⟨h.secretKeys c hc, h.publicKeys c hc⟩] at hv
    cases hv
  | ok u =>
    have hall := hkeys.mp hv
    simp only
    split
    · rename_i hzero
      simp only [reduceCtorEq, false_iff]
      intro h
      exact absurd hzero (Nat.ne_of_gt h.somePeer)
    · rename_i hpos
      split
      · rename_i hport
        simp only [reduceCtorEq, false_iff]
        intro h
        rcases h.onePort with h0 | h1
        · exact hport.1 h0
        · exact Nat.not_lt.mpr h1 hport.2
      · rename_i hport
        simp only [true_iff]
        refine ⟨fun c hc => (hall c hc).1, fun c hc => (hall c hc).2, Nat.pos_of_ne_zero hpos, ?_⟩
        by_cases h0 : command.outPort = 0
        · exact .inl h0
        · exact .inr (Nat.le_of_not_lt fun h1 => hport ⟨h0, h1⟩)

/-! ## Set-up steps -/

def SetupStep.Parses (K : KeyTexts) : SetupStep → Prop
  | parseSecretKey secretKey => ∃ key, K.secretKey secretKey = .ok key
  | parsePeerKey peer _ => ∃ key, K.publicKey peer.publicKey = .ok key
  | _ => True

def SetupStep.spawns : SetupStep → Nat
  | spawn _ => 1
  | _ => 0

def spawnCount (steps : List SetupStep) : Nat := (steps.map SetupStep.spawns).sum

variable {command : RunCommand}

theorem setupPeers_parses {peers : List Peer} {k : Nat} (h : ∀ peer ∈ peers, ∃ key, K.publicKey peer.publicKey = .ok key) :
    ∀ step ∈ command.setupPeers k peers, step.Parses K := by
  induction peers generalizing k with
  | nil => exact nofun
  | cons peer peers ih =>
    intro step hstep
    rcases List.mem_append.mp hstep with hstep | hstep
    · have hpeer := h peer (by simp)
      simp only [RunCommand.setupPeer, splitUdpSocket, List.mem_append, List.mem_cons, List.not_mem_nil, or_false] at hstep
      cases step with
      | parseSecretKey => simp at hstep
      | parsePeerKey p k' =>
        have : p = peer := by
          split at hstep <;> simp at hstep <;> exact hstep.1
        rw [this]
        exact hpeer
      | _ => trivial
    · exact ih (fun p hp => h p (by simp [hp])) step hstep

theorem setupConnection_parses (hv : command.Valid K) {c : P2PConnection} (hc : c ∈ command.connections) :
    ∀ step ∈ command.setupConnection c, step.Parses K := by
  intro step hstep
  rcases List.mem_cons.mp hstep with rfl | hstep
  · exact hv.secretKeys c hc
  · exact setupPeers_parses (hv.publicKeys c hc) step hstep

theorem spawnCount_append (a b : List SetupStep) : spawnCount (a ++ b) = spawnCount a + spawnCount b := by
  simp [spawnCount]

theorem spawnCount_setupPeers (peers : List Peer) (k : Nat) :
    spawnCount (command.setupPeers k peers) = 12 * peers.length := by
  induction peers generalizing k with
  | nil => rfl
  | cons peer peers ih =>
    have hone : spawnCount (command.setupPeer peer k) = 12 := by
      unfold RunCommand.setupPeer
      split <;> rfl
    rw [RunCommand.setupPeers, spawnCount_append, hone, ih, List.length_cons]
    omega

/-! ## One step -/

variable {s s' : ServiceState} {e : ServiceEvent} {o : ServiceOut} {tr : List ServiceEntry}

theorem service_cases (h : (service K command).step s e = some (s', o)) :
    (∃ error, e = .validate ∧ s.phase = .starting ∧ command.validate K = .error error ∧ o = .silent ∧
      s' = { s with phase := .returned error }) ∨
    (e = .validate ∧ s.phase = .starting ∧ command.Valid K ∧ o = .silent ∧ s' = { s with phase := .startingDht }) ∨
    (∃ error, e = .startDht (.error error) ∧ s.phase = .startingDht ∧ o = .acted ∧
      s' = { s with phase := .returned ("Initializing DHT failed" ++ ": " ++ error) }) ∨
    (s.phase = .startingDht ∧ o = .acted ∧ (∀ n outcome, e ≠ .finish n outcome) ∧
      s' = { s.spawn "OpenDHT tick loop" with phase := .settingUp command.setups }) ∨
    (∃ n answer setups step rest, e = .setup n answer ∧ s.phase = .settingUp setups ∧
      setups[n]? = some ⟨step :: rest, none⟩ ∧ (s', o) = s.setupStep K setups n answer rest step) ∨
    (∃ setups, e = .collect ∧ s.phase = .settingUp setups ∧ setups.all Setup.done = true ∧ o = .silent ∧
      ((∃ error, setups.findSome? Setup.failed = some error ∧ s' = { s with phase := .returned error }) ∨
        setups.findSome? Setup.failed = none ∧ s' = { s with phase := .supervising })) ∨
    (∃ n outcome task, e = .finish n outcome ∧ s.tasks[n]? = some (task, true) ∧ o = .silent ∧
      s' = s.finish n task outcome) ∨
    (e = .poll ∧ s.phase = .supervising ∧ o = .silent ∧
      ((s.failures.poll s.seen = .closed ∧
          s' = { s with phase := .returned "Task supervision stopped unexpectedly: channel closed" }) ∨
        ∃ seen, s.failures.poll s.seen = .changed seen ∧
          s' = { s with phase := .returned (s.failures.value.getD unknownFailure).text, seen := seen })) := by
  cases e with
  | validate =>
    simp only [service] at h
    split at h
    · rename_i hp
      split at h
      · rename_i error hv
        cases h; exact .inl ⟨error, rfl, hp, hv, rfl, rfl⟩
      · rename_i hv
        cases h; exact .inr (.inl ⟨rfl, hp, validate_ok.mp hv, rfl, rfl⟩)
    · cases h
  | startDht answer =>
    simp only [service] at h
    split at h
    · rename_i hp
      cases answer with
      | error error => cases h; exact .inr (.inr (.inl ⟨error, rfl, hp, rfl, rfl⟩))
      | ok u => cases h; exact .inr (.inr (.inr (.inl ⟨hp, rfl, nofun, rfl⟩)))
    · cases h
  | setup n answer =>
    simp only [service] at h
    split at h
    · rename_i setups hp
      split at h
      · rename_i step rest hn
        exact .inr (.inr (.inr (.inr (.inl ⟨n, answer, setups, step, rest, rfl, hp, hn, (Option.some.inj h).symm⟩))))
      · cases h
    · cases h
  | collect =>
    simp only [service] at h
    split at h
    · rename_i setups hp
      split at h
      · rename_i hd
        refine .inr (.inr (.inr (.inr (.inr (.inl ⟨setups, rfl, hp, hd, ?_⟩)))))
        split at h
        · rename_i error hf
          cases h; exact ⟨rfl, .inl ⟨error, hf, rfl⟩⟩
        · rename_i hf
          cases h; exact ⟨rfl, .inr ⟨hf, rfl⟩⟩
      · cases h
    · cases h
  | finish n outcome =>
    simp only [service] at h
    split at h
    · rename_i task hn
      cases h; exact .inr (.inr (.inr (.inr (.inr (.inr (.inl ⟨n, outcome, task, rfl, hn, rfl, rfl⟩))))))
    · cases h
  | poll =>
    simp only [service] at h
    split at h
    · rename_i hp
      refine .inr (.inr (.inr (.inr (.inr (.inr (.inr ⟨rfl, hp, ?_⟩))))))
      split at h
      · cases h
      · rename_i hc
        cases h; exact ⟨rfl, .inl ⟨hc, rfl⟩⟩
      · rename_i seen hc
        cases h; exact ⟨rfl, .inr ⟨seen, hc, rfl⟩⟩
    · cases h

/-- A step whose keys parse can fail only where the system answers. -/
theorem setupStep_cases {setups : List Setup} {n : Nat} {answer : Except String Unit} {step : SetupStep}
    {rest : List SetupStep} (hp : step.Parses K) (h : (s', o) = s.setupStep K setups n answer rest step) :
    (s' = s.setSetup setups n ⟨rest, none⟩ ∧ step.spawns = 0) ∨
    (∃ task, s' = (s.spawn task).setSetup setups n ⟨rest, none⟩ ∧ step.spawns = 1) ∨
    (∃ error, answer = .error error ∧ o = .acted ∧ s' = s.setSetup setups n ⟨rest, some error⟩ ∧ step.spawns = 0) := by
  cases step with
  | parseSecretKey secretKey =>
    obtain ⟨key, hk⟩ := hp
    simp only [ServiceState.setupStep, hk] at h
    cases h; exact .inl ⟨rfl, rfl⟩
  | parsePeerKey peer k =>
    obtain ⟨key, hk⟩ := (parsePeerKey_ok (k := k)).mpr hp
    simp only [ServiceState.setupStep, hk] at h
    cases h; exact .inl ⟨rfl, rfl⟩
  | requestNatMapping => cases h; exact .inl ⟨rfl, rfl⟩
  | spawn task => cases h; exact .inr (.inl ⟨task, rfl, rfl⟩)
  | openInternetSocket port =>
    cases answer with
    | error error => cases h; exact .inr (.inr ⟨error, rfl, rfl, rfl, rfl⟩)
    | ok u => cases h; exact .inl ⟨rfl, rfl⟩
  | bindLoopback port =>
    cases answer with
    | error error => cases h; exact .inr (.inr ⟨error, rfl, rfl, rfl, rfl⟩)
    | ok u => cases h; exact .inl ⟨rfl, rfl⟩

/-! ## The failure channel -/

def failureOf (en : ServiceEntry) : Option TaskFailure :=
  match en.event with
  | .finish n outcome => en.pre.tasks[n]?.map fun t => ⟨t.1, outcome.text⟩
  | _ => none

/-- The failure of the task that ended first. -/
def firstFailure (tr : List ServiceEntry) : Option TaskFailure := (tr.filterMap failureOf).head?

theorem firstFailure_snoc (tr : List ServiceEntry) (en : ServiceEntry) :
    firstFailure (tr ++ [en]) = (firstFailure tr).or (failureOf en) := by
  unfold firstFailure
  rw [List.filterMap_append, List.head?_append]
  cases hf : failureOf en <;> simp [hf]

theorem reportFailure_value (w : Watch (Option TaskFailure)) (task error : String) :
    (reportFailure w task error).value = w.value.or (some ⟨task, error⟩) ∧
      (reportFailure w task error).version = w.version + (if w.value.isSome then 0 else 1) ∧
      (reportFailure w task error).senders = w.senders := by
  unfold reportFailure Watch.sendIfModified
  cases w.value <;> simp

structure WatchInv (tr : List ServiceEntry) (s : ServiceState) : Prop where
  value : s.failures.value = firstFailure tr
  version : s.failures.version = if (firstFailure tr).isSome then 1 else 0
  senders : s.failures.senders = 1 + s.tasks.countP (·.2)
  seen : (∀ error, s.phase ≠ .returned error) → s.seen = 0

theorem WatchInv.kept (hI : WatchInv tr s) {en : ServiceEntry} (hen : failureOf en = none)
    (hf : s'.failures = s.failures) (ht : s'.tasks = s.tasks)
    (hs : (∀ error, s'.phase ≠ .returned error) → s'.seen = 0) : WatchInv (tr ++ [en]) s' := by
  refine ⟨?_, ?_, ?_, hs⟩
  all_goals rw [hf]
  · rw [firstFailure_snoc, hen, Option.or_none]
    exact hI.value
  · rw [firstFailure_snoc, hen, Option.or_none]
    exact hI.version
  · rw [ht]
    exact hI.senders

theorem WatchInv.spawned (hI : WatchInv tr s) {en : ServiceEntry} (hen : failureOf en = none) (task : String)
    {phase : ServicePhase} (hs : s.seen = 0) : WatchInv (tr ++ [en]) { s.spawn task with phase := phase } := by
  refine ⟨?_, ?_, ?_, fun _ => hs⟩
  · rw [firstFailure_snoc, hen, Option.or_none]
    exact hI.value
  · rw [firstFailure_snoc, hen, Option.or_none]
    exact hI.version
  · show s.failures.senders + 1 = 1 + (s.tasks ++ [(task, true)]).countP (·.2)
    rw [hI.senders, List.countP_append]
    rfl

theorem WatchInv.finished (hI : WatchInv tr s) {n : Nat} {outcome : Outcome} {task : String}
    (hn : s.tasks[n]? = some (task, true)) {o : ServiceOut} :
    WatchInv (tr ++ [⟨s, .finish n outcome, o, s.finish n task outcome⟩]) (s.finish n task outcome) := by
  obtain ⟨hv, hver, hsend⟩ := reportFailure_value s.failures task outcome.text
  have hfail : failureOf ⟨s, .finish n outcome, o, s.finish n task outcome⟩ = some ⟨task, outcome.text⟩ := by
    simp [failureOf, hn]
  refine ⟨?_, ?_, ?_, hI.seen⟩
  · show (reportFailure s.failures task outcome.text).value = _
    rw [firstFailure_snoc, hfail, hv, hI.value]
  · show (reportFailure s.failures task outcome.text).version = _
    rw [firstFailure_snoc, hfail, hver, hI.version, hI.value]
    cases firstFailure tr <;> simp
  · show (reportFailure s.failures task outcome.text).senders - 1 = 1 + (s.tasks.set n (task, false)).countP (·.2)
    obtain ⟨hlt, hget⟩ := List.getElem?_eq_some_iff.mp hn
    have hpos : 0 < s.tasks.countP (·.2) := List.countP_pos_iff.mpr ⟨_, List.mem_of_getElem? hn, rfl⟩
    rw [hsend, hI.senders, List.countP_set hlt, hget]
    simp
    omega

theorem watchInv_step (hI : WatchInv tr s) (h : (service K command).step s e = some (s', o)) :
    WatchInv (tr ++ [⟨s, e, o, s'⟩]) s' := by
  have hseen : ∀ {phase}, s.phase = phase → (∀ error, phase ≠ .returned error) → s.seen = 0 := by
    intro phase hp hne
    exact hI.seen (hp ▸ hne)
  rcases service_cases h with ⟨error, rfl, hp, _, rfl, rfl⟩ | ⟨rfl, hp, _, rfl, rfl⟩ | ⟨error, rfl, hp, rfl, rfl⟩ |
    ⟨hp, rfl, hne, rfl⟩ | ⟨n, answer, setups, step, rest, rfl, hp, _, he⟩ | ⟨setups, rfl, hp, _, rfl, hs'⟩ |
    ⟨n, outcome, task, rfl, hn, rfl, rfl⟩ | ⟨rfl, hp, rfl, hs'⟩
  · exact hI.kept rfl rfl rfl (fun hne => absurd rfl (hne error))
  · exact hI.kept rfl rfl rfl (fun _ => hseen hp nofun)
  · exact hI.kept rfl rfl rfl (fun hne => absurd rfl (hne _))
  · refine hI.spawned ?_ _ (hseen hp nofun)
    cases e with
    | finish n outcome => exact absurd rfl (hne n outcome)
    | _ => rfl
  · have hs0 := hseen hp nofun
    cases step with
    | spawn task =>
      cases he
      exact hI.spawned rfl task hs0
    | parseSecretKey secretKey =>
      simp only [ServiceState.setupStep] at he
      split at he <;> cases he <;> exact hI.kept rfl rfl rfl (fun _ => hs0)
    | parsePeerKey peer k =>
      simp only [ServiceState.setupStep] at he
      split at he <;> cases he <;> exact hI.kept rfl rfl rfl (fun _ => hs0)
    | requestNatMapping => cases he; exact hI.kept rfl rfl rfl (fun _ => hs0)
    | openInternetSocket port => cases answer <;> cases he <;> exact hI.kept rfl rfl rfl (fun _ => hs0)
    | bindLoopback port => cases answer <;> cases he <;> exact hI.kept rfl rfl rfl (fun _ => hs0)
  · rcases hs' with ⟨error, _, rfl⟩ | ⟨_, rfl⟩
    · exact hI.kept rfl rfl rfl (fun hne => absurd rfl (hne error))
    · exact hI.kept rfl rfl rfl (fun _ => hseen hp nofun)
  · exact hI.finished hn
  · rcases hs' with ⟨_, rfl⟩ | ⟨seen, _, rfl⟩
    · exact hI.kept rfl rfl rfl (fun hne => absurd rfl (hne _))
    · exact hI.kept rfl rfl rfl (fun hne => absurd rfl (hne _))

theorem watchInv_run (hr : (service K command).Run .new tr s) : WatchInv tr s :=
  hr.history (C := fun _ => True) (P := WatchInv) ⟨rfl, rfl, rfl, fun _ => rfl⟩
    (fun _ _ _ _ _ _ hI hst _ => watchInv_step hI hst) (fun _ _ => trivial)

/-- While the service supervises, it can go on exactly when some task has ended, with what ended first. -/
theorem poll_first (hI : WatchInv tr s) (hp : s.phase = .supervising) :
    s.failures.poll s.seen = if (firstFailure tr).isSome then .changed 1 else .pending := by
  have hs0 : s.seen = 0 := hI.seen (hp ▸ nofun)
  have hv := hI.version
  split
  · rename_i hf
    rw [if_pos hf] at hv
    rw [Watch.poll_changed (by omega), hv]
  · rename_i hf
    rw [if_neg hf] at hv
    have hsend := hI.senders
    exact Watch.poll_pending (by omega) (by omega)

/-! ## The phases -/

/-- The error comes from a refused configuration, before anything was touched;
from the system; or from the task that ended first. -/
def Explained (K : KeyTexts) (command : RunCommand) (tr : List ServiceEntry) (error : String) : Prop :=
  (command.validate K = .error error ∧ ∀ en ∈ tr, en.out = .silent) ∨
  (∃ en ∈ tr, ∃ answer, en.event = .startDht (.error answer) ∧ error = "Initializing DHT failed" ++ ": " ++ answer) ∨
  (∃ en ∈ tr, ∃ n, en.event = .setup n (.error error) ∧ en.out = .acted) ∨
  ∃ failure, firstFailure tr = some failure ∧ error = failure.text

structure SetupsInv (K : KeyTexts) (command : RunCommand) (tr : List ServiceEntry) (s : ServiceState)
    (setups : List Setup) : Prop where
  valid : command.Valid K
  parses : ∀ x ∈ setups, ∀ step ∈ x.steps, step.Parses K
  failed : ∀ x ∈ setups, ∀ error, x.failed = some error →
    ∃ en ∈ tr, ∃ n, en.event = .setup n (.error error) ∧ en.out = .acted
  count : s.tasks.length + (setups.map fun x => spawnCount x.steps).sum = 1 + 12 * command.peerCount

/-- What is known in each phase. -/
def PhaseInv (K : KeyTexts) (command : RunCommand) (tr : List ServiceEntry) (s : ServiceState) : Prop :=
  match s.phase with
  | .starting => s.tasks = [] ∧ ∀ en ∈ tr, en.out = .silent
  | .startingDht => command.Valid K ∧ s.tasks = []
  | .settingUp setups => SetupsInv K command tr s setups
  | .supervising => command.Valid K ∧ s.tasks.length = 1 + 12 * command.peerCount
  | .returned error => Explained K command tr error

theorem sum_set {α : Type} {l : List α} {n : Nat} {x : α} (h : l[n]? = some x) (f : α → Nat) (y : α) :
    ((l.set n y).map f).sum + f x = (l.map f).sum + f y := by
  induction l generalizing n with
  | nil => cases h
  | cons a l ih =>
    cases n with
    | zero =>
      cases h
      simp only [List.set_cons_zero, List.map_cons, List.sum_cons]
      omega
    | succ n =>
      have := ih (n := n) h
      simp only [List.set_cons_succ, List.map_cons, List.sum_cons]
      omega

theorem Explained.snoc {error : String} (h : Explained K command tr error) {en : ServiceEntry} (ho : en.out = .silent) :
    Explained K command (tr ++ [en]) error := by
  rcases h with ⟨hv, hout⟩ | ⟨x, hx, h⟩ | ⟨x, hx, h⟩ | ⟨failure, hf, he⟩
  · refine .inl ⟨hv, ?_⟩
    intro x hx
    rcases List.mem_append.mp hx with hx | hx
    · exact hout x hx
    · rw [List.mem_singleton.mp hx]
      exact ho
  · exact .inr (.inl ⟨x, List.mem_append_left _ hx, h⟩)
  · exact .inr (.inr (.inl ⟨x, List.mem_append_left _ hx, h⟩))
  · refine .inr (.inr (.inr ⟨failure, ?_, he⟩))
    rw [firstFailure_snoc, hf]
    rfl

theorem setupsInv_start (hv : command.Valid K) (ht : s.tasks = []) (en : ServiceEntry) :
    SetupsInv K command (tr ++ [en]) { s.spawn "OpenDHT tick loop" with phase := .settingUp command.setups }
      command.setups where
  valid := hv
  parses x hx := by
    obtain ⟨c, hc, rfl⟩ := List.mem_map.mp hx
    exact setupConnection_parses hv hc
  failed x hx error he := by
    obtain ⟨c, _, rfl⟩ := List.mem_map.mp hx
    cases he
  count := by
    have hone : ∀ c, spawnCount (command.setupConnection c) = 12 * c.peers.length := by
      intro c
      show 0 + spawnCount (command.setupPeers 0 c.peers) = _
      rw [spawnCount_setupPeers, Nat.zero_add]
    have hsum : ((command.setups).map fun x => spawnCount x.steps).sum = 12 * command.peerCount := by
      rw [RunCommand.setups, List.map_map, RunCommand.peerCount, ← List.sum_map_mul_left]
      exact congrArg List.sum (List.map_congr_left fun c _ => hone c)
    show (s.tasks ++ [("OpenDHT tick loop", true)]).length + _ = _
    rw [hsum, ht]
    rfl

theorem SetupsInv.set {setups : List Setup} (hI : SetupsInv K command tr s setups) {n : Nat} {step : SetupStep}
    {rest : List SetupStep} (hn : setups[n]? = some ⟨step :: rest, none⟩) {failed : Option String} {en : ServiceEntry}
    (hf : ∀ error, failed = some error → ∃ n, en.event = .setup n (.error error) ∧ en.out = .acted)
    (ht : s'.tasks.length = s.tasks.length + step.spawns) :
    SetupsInv K command (tr ++ [en]) s' (setups.set n ⟨rest, failed⟩) where
  valid := hI.valid
  parses x hx st hst := by
    rcases List.mem_or_eq_of_mem_set hx with hx | rfl
    · exact hI.parses x hx st hst
    · exact hI.parses _ (List.mem_of_getElem? hn) st (List.mem_cons_of_mem _ hst)
  failed x hx error he := by
    rcases List.mem_or_eq_of_mem_set hx with hx | rfl
    · obtain ⟨y, hy, h⟩ := hI.failed x hx error he
      exact ⟨y, List.mem_append_left _ hy, h⟩
    · exact ⟨en, List.mem_append_right _ (List.mem_singleton.mpr rfl), hf error he⟩
  count := by
    have hsum := sum_set hn (fun x => spawnCount x.steps) ⟨rest, failed⟩
    have hcons : spawnCount (step :: rest) = step.spawns + spawnCount rest := rfl
    have := hI.count
    simp only [hcons] at hsum
    omega

theorem phaseInv_setup {setups : List Setup} (hI : SetupsInv K command tr s setups) {n : Nat}
    {answer : Except String Unit} {step : SetupStep} {rest : List SetupStep} (hn : setups[n]? = some ⟨step :: rest, none⟩)
    (h : (s', o) = s.setupStep K setups n answer rest step) :
    PhaseInv K command (tr ++ [⟨s, .setup n answer, o, s'⟩]) s' := by
  have hp := hI.parses _ (List.mem_of_getElem? hn) step (List.mem_cons_self)
  rcases setupStep_cases hp h with ⟨rfl, hs⟩ | ⟨task, rfl, hs⟩ | ⟨error, rfl, rfl, rfl, hs⟩
  · refine hI.set hn nofun ?_
    rw [hs]
    rfl
  · refine hI.set hn nofun ?_
    rw [hs]
    exact List.length_append
  · refine hI.set hn ?_ ?_
    · intro error' he
      cases he
      exact ⟨n, rfl, rfl⟩
    · rw [hs]
      rfl

theorem phaseInv_collect {setups : List Setup} (hI : SetupsInv K command tr s setups)
    (hd : setups.all Setup.done = true) (en : ServiceEntry) :
    (∀ error, setups.findSome? Setup.failed = some error →
      PhaseInv K command (tr ++ [en]) { s with phase := .returned error }) ∧
    (setups.findSome? Setup.failed = none → PhaseInv K command (tr ++ [en]) { s with phase := .supervising }) := by
  constructor
  · intro error hf
    obtain ⟨x, hx, he⟩ := List.exists_of_findSome?_eq_some hf
    obtain ⟨y, hy, h⟩ := hI.failed x hx error he
    exact .inr (.inr (.inl ⟨y, List.mem_append_left _ hy, h⟩))
  · intro hf
    refine ⟨hI.valid, ?_⟩
    have hzero : (setups.map fun x => spawnCount x.steps).sum = 0 := by
      refine List.sum_eq_zero ?_
      intro k hk
      obtain ⟨x, hx, rfl⟩ := List.mem_map.mp hk
      have hdone := List.all_eq_true.mp hd x hx
      rw [Setup.done, List.findSome?_eq_none_iff.mp hf x hx, Option.isSome_none, Bool.or_false, List.isEmpty_iff] at hdone
      rw [hdone]
      rfl
    have := hI.count
    show s.tasks.length = _
    omega

-- a task that ends leaves the phase as it is
theorem phaseInv_finish (hI : PhaseInv K command tr s) {n : Nat} {task : String} {outcome : Outcome}
    (hn : s.tasks[n]? = some (task, true)) {en : ServiceEntry} (ho : en.out = .silent) :
    PhaseInv K command (tr ++ [en]) (s.finish n task outcome) := by
  have hp' : (s.finish n task outcome).phase = s.phase := rfl
  have hlen : (s.finish n task outcome).tasks.length = s.tasks.length := List.length_set
  cases hp : s.phase with
  | starting =>
    simp only [PhaseInv, hp] at hI
    rw [hI.1] at hn
    cases hn
  | startingDht =>
    simp only [PhaseInv, hp] at hI
    rw [hI.2] at hn
    cases hn
  | settingUp setups =>
    simp only [PhaseInv, hp', hp] at hI ⊢
    refine { hI with failed := ?_, count := ?_ }
    · intro x hx error he
      obtain ⟨y, hy, h⟩ := hI.failed x hx error he
      exact ⟨y, List.mem_append_left _ hy, h⟩
    · rw [hlen]
      exact hI.count
  | supervising =>
    simp only [PhaseInv, hp', hp] at hI ⊢
    exact ⟨hI.1, hlen.trans hI.2⟩
  | returned error =>
    simp only [PhaseInv, hp', hp] at hI ⊢
    exact hI.snoc ho

theorem phaseInv_step (hW : WatchInv tr s) (hI : PhaseInv K command tr s)
    (h : (service K command).step s e = some (s', o)) : PhaseInv K command (tr ++ [⟨s, e, o, s'⟩]) s' := by
  rcases service_cases h with ⟨error, rfl, hp, hv, rfl, rfl⟩ | ⟨rfl, hp, hv, rfl, rfl⟩ | ⟨error, rfl, hp, rfl, rfl⟩ |
    ⟨hp, rfl, hne, rfl⟩ | ⟨n, answer, setups, step, rest, rfl, hp, hn, he⟩ | ⟨setups, rfl, hp, hd, rfl, hs'⟩ |
    ⟨n, outcome, task, rfl, hn, rfl, rfl⟩ | ⟨rfl, hp, rfl, hs'⟩
  all_goals try (simp only [PhaseInv, hp] at hI)
  · exact Explained.snoc (.inl ⟨hv, hI.2⟩) rfl
  · exact ⟨hv, hI.1⟩
  · exact .inr (.inl ⟨_, List.mem_append_right _ (List.mem_singleton.mpr rfl), error, rfl, rfl⟩)
  · exact setupsInv_start hI.1 hI.2 _
  · exact phaseInv_setup hI hn he
  · obtain ⟨hret, hsup⟩ := phaseInv_collect hI hd ⟨s, .collect, .silent, s'⟩
    rcases hs' with ⟨error, hf, rfl⟩ | ⟨hf, rfl⟩
    · exact hret error hf
    · exact hsup hf
  · exact phaseInv_finish hI hn rfl
  · have hpoll := poll_first hW hp
    rcases hs' with ⟨hc, _⟩ | ⟨seen, hc, rfl⟩
    · rw [hc] at hpoll
      split at hpoll <;> cases hpoll
    · rw [hc] at hpoll
      split at hpoll
      · rename_i hf
        obtain ⟨failure, hf⟩ := Option.isSome_iff_exists.mp hf
        refine Explained.snoc (.inr (.inr (.inr ⟨failure, hf, ?_⟩))) rfl
        rw [hW.value, hf]
        rfl
      · cases hpoll

theorem phaseInv_run (hr : (service K command).Run .new tr s) : PhaseInv K command tr s := by
  have hnew : PhaseInv K command [] .new := by
    refine ⟨rfl, ?_⟩
    intro en hen
    cases hen
  refine hr.history (C := fun _ => True) (P := PhaseInv K command) hnew ?_ (fun _ _ => trivial)
  intro tr s e o s' hpre hI hst _
  exact phaseInv_step (watchInv_run hpre) hI hst

theorem acted_valid (hI : PhaseInv K command tr s) (h : (service K command).step s e = some (s', .acted)) :
    command.Valid K := by
  rcases service_cases h with ⟨_, _, _, _, ho, _⟩ | ⟨_, _, hv, _⟩ | ⟨_, _, hp, _⟩ | ⟨hp, _⟩ | ⟨_, _, setups, _, _, _, hp, _⟩ |
    ⟨_, _, _, _, ho, _⟩ | ⟨_, _, _, _, _, ho, _⟩ | ⟨_, _, ho, _⟩
  · cases ho
  · exact hv
  · simp only [PhaseInv, hp] at hI
    exact hI.1
  · simp only [PhaseInv, hp] at hI
    exact hI.1
  · simp only [PhaseInv, hp] at hI
    exact hI.valid
  · cases ho
  · cases ho
  · cases ho

/-- **The service returns the first failure.** Sockets, mappings, the DHT and
tasks are touched only under a valid configuration; every error that `run`
returns is explained; and while it supervises, all of its tasks have been
started and it returns exactly when one of them has ended, whatever the order
in which set-up and tasks proceed. -/
theorem returns_first_failure (hr : (service K command).Run .new tr s) :
    (∀ en ∈ tr, en.out = .acted → command.Valid K) ∧
    (∀ error, s.phase = .returned error → Explained K command tr error) ∧
    (s.phase = .supervising → s.tasks.length = 1 + 12 * command.peerCount ∧
      ((∃ r, (service K command).step s .poll = some r) ↔ ∃ failure, firstFailure tr = some failure)) := by
  have hI := phaseInv_run hr
  refine ⟨?_, ?_, ?_⟩
  · intro en hen ho
    obtain ⟨a, b, rfl⟩ := List.append_of_mem hen
    obtain ⟨hpre, hst⟩ := hr.split
    rw [ho] at hst
    exact acted_valid (phaseInv_run hpre) hst
  · intro error hp
    simp only [PhaseInv, hp] at hI
    exact hI
  · intro hp
    have hpoll := poll_first (watchInv_run hr) hp
    simp only [PhaseInv, hp] at hI
    refine ⟨hI.2, ?_⟩
    simp only [service, hp, hpoll]
    cases firstFailure tr <;> simp

end

/-! ## A service whose task ends -/

-- the text of the key of zeros is the only one that decodes
def zeroTexts : KeyTexts :=
  ⟨{ sampleEnc with base64Decode := fun s => if s = zeroKeyText then some zeroKey.toList else none }, fun _ => "Invalid padding"⟩

def sampleCommand : RunCommand := ⟨0, true, [⟨zeroKeyText, [⟨51820, zeroKeyText, none⟩]⟩]⟩

/-- The set-up goes through, then the receive router panics and the scheduler ends. -/
def sampleService : List ServiceEvent :=
  [.validate, .startDht (.ok ())] ++ List.replicate 17 (.setup 0 (.ok ())) ++
    [.collect, .finish 3 .panic, .finish 9 .ok, .poll]

theorem sampleService_runs : ((service zeroTexts sampleCommand).exec .new sampleService).isSome = true := by
  decide +kernel

theorem sampleService_returns : ∃ tr s, (service zeroTexts sampleCommand).Run .new tr s ∧
    s.phase = .returned "Background task stopped: internet UDP receive routing: task panicked" ∧
    Explained zeroTexts sampleCommand tr "Background task stopped: internet UDP receive routing: task panicked" := by
  have hrun := Machine.run_of_exec sampleService_runs
  have hp : (((service zeroTexts sampleCommand).exec .new sampleService).get sampleService_runs).2.phase =
      .returned "Background task stopped: internet UDP receive routing: task panicked" := by
    decide +kernel
  exact ⟨_, _, hrun, hp, (returns_first_failure hrun).2.1 _ hp⟩

end P2pTunnler
