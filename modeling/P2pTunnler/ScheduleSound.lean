import P2pTunnler.ProbeSound

/-!
# The probe schedule

A path is in one of three phases, and the history of its address alone says
in which: what was sent to it, when it was acknowledged, and which delays
were drawn. `schedule_refined` says that the four fields of `Path` carry out
this schedule: a call of `due_frames` sends a frame exactly when the phase
makes one due.
-/

namespace P2pTunnler

open Finset (Enumerates)

/-! ## The abstract schedule -/

inductive Phase
  -- `frames` frames since the creation or the last demotion
  | unverified (frames since delay : Nat)
  | acknowledged (at_ delay : Nat)
  -- verified, and waiting for the answer to a probe
  | unanswered (sent : Nat)
  deriving DecidableEq

namespace Phase

def start (now : Nat) : Phase := unverified 0 now 0

def due (now : Nat) : Phase → Bool
  | unverified _ since delay => since + delay ≤ now
  | acknowledged at_ delay => at_ + delay ≤ now
  | unanswered sent => sent + ackTimeout ≤ now

-- the wait after a frame of an unverified path that had `frames` frames before it
def retryDelay (frames : Nat) (jitter : Nat → Nat) : Nat :=
  if frames = 0 then secs 1 else if frames = 1 then secs 2 else jitter (secs 5)

/-- A probe without an answer demotes its path, and the frame that is sent is the first of a new phase. -/
def emitted (now : Nat) (jitter : Nat → Nat) : Phase → Phase
  | unverified frames _ _ => unverified (frames + 1) now (retryDelay frames jitter)
  | acknowledged _ _ => unanswered now
  | unanswered _ => unverified 1 now (retryDelay 0 jitter)

/-- The waits of the schedule: none, 1 s, 2 s, then 4.5 s to 5.5 s, and 13.5 s to 16.5 s after an answer. -/
def Timed : Phase → Prop
  | unverified frames _ delay =>
    (frames = 0 → delay = 0) ∧ (frames = 1 → delay = secs 1) ∧ (frames = 2 → delay = secs 2) ∧
      (3 ≤ frames → secs 9 ≤ 2 * delay ∧ 2 * delay ≤ secs 11)
  | acknowledged _ delay => secs 27 ≤ 2 * delay ∧ 2 * delay ≤ secs 33
  | unanswered _ => True

end Phase

/-- The phase of `s` after a step, from what the step was asked and answered. -/
def phaseStep (s : SocketAddr) (phase : Option Phase) (en : ProbeEntry) : Option Phase :=
  match en.event with
  | .updateRemote token candidates now =>
    if token = none ∨ s ∉ ProbeState.selected candidates then none
    else if en.pre.remoteToken = token then some (phase.getD (.start now)) else some (.start now)
  | .packetAction _ source now jitter =>
    if source = s ∧ en.out = .action .acknowledged then phase.map fun _ => .acknowledged now (jitter (secs 15))
    else phase
  | .dueFrames now _ jitter => if framesTo s en = 0 then phase else phase.map (.emitted now (jitter s))

def phaseOf (s : SocketAddr) (tr : List ProbeEntry) : Option Phase := tr.foldl (phaseStep s) none

theorem phaseOf_snoc (s : SocketAddr) (tr : List ProbeEntry) (en : ProbeEntry) :
    phaseOf s (tr ++ [en]) = phaseStep s (phaseOf s tr) en := by
  simp [phaseOf]

/-- A step that keeps the path, hears no answer from it and sends it nothing. -/
def Quiet (s : SocketAddr) (en : ProbeEntry) : Prop :=
  (∀ token candidates now, en.event = .updateRemote token candidates now →
    token ≠ none ∧ en.pre.remoteToken = token ∧ s ∈ ProbeState.selected candidates) ∧
  ¬ AckFor s en ∧ framesTo s en = 0

theorem phaseStep_quiet {s : SocketAddr} {en : ProbeEntry} (h : Quiet s en) (phase : Phase) :
    phaseStep s (some phase) en = some phase := by
  obtain ⟨hup, hack, hquiet⟩ := h
  unfold phaseStep
  split
  · rename_i hev
    obtain ⟨htok, hsame, hsel⟩ := hup _ _ _ hev
    rw [if_neg (by tauto), if_pos hsame, Option.getD_some]
  · rename_i hev
    rw [if_neg]
    rintro ⟨rfl, hout⟩
    exact hack ⟨_, _, _, hev, hout⟩
  · rw [if_pos hquiet]

theorem phaseOf_quiet {s : SocketAddr} {phase : Phase} : ∀ {a : List ProbeEntry} (m : List ProbeEntry),
    phaseOf s a = some phase → (∀ en ∈ m, Quiet s en) → phaseOf s (a ++ m) = some phase
  | a, [], ha, _ => by rw [List.append_nil, ha]
  | a, en :: m, ha, h => by
    rw [List.append_cons]
    refine phaseOf_quiet m ?_ fun x hx => h x (List.mem_cons_of_mem _ hx)
    rw [phaseOf_snoc, ha, phaseStep_quiet (h en (by simp))]

/-! ## What a path stores -/

/-- The assumption on the source's randomness: ten percent either way. -/
def InRange (jitter : Nat → Nat) : Prop := ∀ d, 9 * d ≤ 10 * jitter d ∧ 10 * jitter d ≤ 11 * d

def ProbeOp.Jittered : ProbeOp → Prop
  | .updateRemote _ _ _ => True
  | .packetAction _ _ _ jitter => InRange jitter
  | .dueFrames _ _ jitter => ∀ address, InRange (jitter address)

/-- The fields of a path that is in the phase. -/
def Phase.Stored (path : Path) : Phase → Prop
  | .unverified frames since delay =>
    path.verified = false ∧ path.fastStage.toNat = min frames 255 ∧ path.nextProbe = since + delay
  | .acknowledged at_ delay => path.verified = true ∧ path.outstanding = none ∧ path.nextProbe = at_ + delay
  | .unanswered sent =>
    path.verified = true ∧ path.outstanding = some sent ∧ sent + ackTimeout ≤ path.nextProbe

theorem toNat_saturatingSucc {x : UInt8} {n : Nat} (h : x.toNat = min n 255) :
    (saturatingSucc x).toNat = min (n + 1) 255 := by
  unfold saturatingSucc
  by_cases hx : x = 255
  · rw [if_pos hx]
    subst hx
    have h255 : (255 : UInt8).toNat = 255 := rfl
    omega
  · have hlt : x.toNat < 255 := by
      have := x.toNat_lt
      have hne : x.toNat ≠ 255 := fun he => hx (UInt8.toNat_inj.mp he)
      omega
    rw [if_neg hx, UInt8.toNat_add, show (1 : UInt8).toNat = 1 from rfl, Nat.mod_eq_of_lt (by omega)]
    omega

section
variable {path : Path} {now : Nat} {jitter : Nat → Nat} {phase : Phase}

theorem Phase.Stored.timedOut (h : phase.Stored path) :
    path.timedOut now = true ↔ ∃ sent, phase = .unanswered sent ∧ sent + ackTimeout ≤ now := by
  rw [Path.timedOut_iff]
  cases phase with
  | unverified frames since delay =>
    refine ⟨fun ⟨hv, _⟩ => ?_, fun ⟨_, he, _⟩ => (by cases he)⟩
    rw [h.1] at hv; cases hv
  | acknowledged at_ delay =>
    refine ⟨fun ⟨_, sent, ho, _⟩ => ?_, fun ⟨_, he, _⟩ => (by cases he)⟩
    rw [h.2.1] at ho; cases ho
  | unanswered sent =>
    refine ⟨fun ⟨_, sent', ho, hle⟩ => ?_, fun ⟨sent', he, hle⟩ => ?_⟩
    · rw [h.2.1] at ho; cases ho
      exact ⟨sent, rfl, hle⟩
    · cases he
      exact ⟨h.1, sent, h.2.1, hle⟩

theorem Path.poll_timedOut (ht : path.timedOut now = true) : path.poll now jitter =
    ({ path with
      verified := false
      outstanding := some now
      fastStage := 1
      nextProbe := now + Phase.retryDelay 0 jitter }, true) := by
  unfold Path.poll Phase.retryDelay
  simp only [ht, if_true, Path.demote, Nat.lt_irrefl, if_false, Bool.false_eq_true]
  rfl

theorem Path.poll_verified (ht : path.timedOut now = false) (hv : path.verified = true)
    (hn : path.nextProbe ≤ now) : path.poll now jitter =
    ({ path with outstanding := some now, nextProbe := now + jitter (secs 15) }, true) := by
  unfold Path.poll
  simp only [ht, Bool.false_eq_true, if_false, Nat.not_lt.mpr hn, hv, if_true]

theorem Path.poll_unverified (hv : path.verified = false) (hn : path.nextProbe ≤ now) : path.poll now jitter =
    ({ path with
      outstanding := some now
      fastStage := saturatingSucc path.fastStage
      nextProbe := now + Phase.retryDelay path.fastStage.toNat jitter }, true) := by
  have ht : path.timedOut now = false := by unfold Path.timedOut; rw [hv]; rfl
  have hdelay : (if path.fastStage = 0 then secs 1 else if path.fastStage = 1 then secs 2 else jitter (secs 5)) =
      Phase.retryDelay path.fastStage.toNat jitter := by
    unfold Phase.retryDelay
    simp only [← UInt8.toNat_inj]
    rfl
  unfold Path.poll
  simp only [ht, Bool.false_eq_true, if_false, Nat.not_lt.mpr hn, hv]
  rw [hdelay]

theorem retryDelay_min (frames : Nat) : Phase.retryDelay (min frames 255) jitter = Phase.retryDelay frames jitter := by
  unfold Phase.retryDelay
  have h₀ : min frames 255 = 0 ↔ frames = 0 := by omega
  have h₁ : min frames 255 = 1 ↔ frames = 1 := by omega
  simp only [h₀, h₁]

/-- One path of a call of `due_frames`: it is sent to exactly when its phase is due, and stores the next phase. -/
theorem Phase.Stored.poll (h : phase.Stored path) (hj : InRange jitter) (now : Nat) :
    ((path.poll now jitter).2 = phase.due now) ∧
      (phase.due now = true → (phase.emitted now jitter).Stored (path.poll now jitter).1) := by
  cases hd : phase.due now with
  | false =>
    refine ⟨?_, fun h => (by cases h)⟩
    have hto : path.timedOut now = false := by
      rw [Bool.eq_false_iff, ne_eq, h.timedOut]
      rintro ⟨sent, rfl, hle⟩
      simp [due, hle] at hd
    have hn : now < path.nextProbe := by
      cases phase with
      | unverified frames since delay =>
        rw [h.2.2]
        simpa [due] using hd
      | acknowledged at_ delay =>
        rw [h.2.2]
        simpa [due] using hd
      | unanswered sent =>
        have hlt : now < sent + ackTimeout := by simpa [due] using hd
        exact Nat.lt_of_lt_of_le hlt h.2.2
    unfold Path.poll
    simp only [hto, Bool.false_eq_true, if_false, hn, if_true]
  | true =>
    simp only [forall_const]
    cases phase with
    | unverified frames since delay =>
      obtain ⟨hv, hstage, hnext⟩ := h
      have hn : path.nextProbe ≤ now := by rw [hnext]; simpa [due] using hd
      rw [Path.poll_unverified hv hn]
      refine ⟨rfl, hv, toNat_saturatingSucc hstage, ?_⟩
      rw [hstage, retryDelay_min]
    | acknowledged at_ delay =>
      have hto : path.timedOut now = false := by
        rw [Bool.eq_false_iff, ne_eq, h.timedOut]
        rintro ⟨sent, he, _⟩
        cases he
      obtain ⟨hv, ho, hnext⟩ := h
      have hn : path.nextProbe ≤ now := by rw [hnext]; simpa [due] using hd
      rw [Path.poll_verified hto hv hn]
      refine ⟨rfl, hv, rfl, ?_⟩
      -- the answer is awaited for less long than the next probe
      have hlow := (hj (secs 15)).1
      have h15 : secs 15 = 5 * ackTimeout := by decide
      show now + ackTimeout ≤ now + jitter (secs 15)
      omega
    | unanswered sent =>
      have hto : path.timedOut now = true := h.timedOut.mpr ⟨sent, rfl, by simpa [due] using hd⟩
      rw [Path.poll_timedOut hto]
      exact ⟨rfl, rfl, rfl, rfl⟩

end

/-! ## How many frames a call sends -/

theorem dueFrames_destinations {st : ProbeState} {t : Token} (ht : st.remoteToken = some t) {now : Nat}
    {jitter : SocketAddr → Nat → Nat} (order : List SocketAddr) :
    (st.dueFrames now order jitter).2.map Prod.snd =
      order.filter fun a => (st.paths.lookup a).any fun path => (path.poll now (jitter a)).2 := by
  unfold ProbeState.dueFrames
  rw [ht]
  simp only
  induction order with
  | nil => rfl
  | cons a order ih =>
    by_cases hd : ((st.paths.lookup a).any fun path => (path.poll now (jitter a)).2) = true
    · rw [List.filterMap_cons, if_pos hd, List.filter_cons, if_pos hd]
      simp only [List.map_cons, ih]
    · rw [List.filterMap_cons, if_neg hd, List.filter_cons, if_neg hd]
      exact ih

section
variable {st : ProbeState} {s : SocketAddr} {now : Nat} {order : List SocketAddr}
  {jitter : SocketAddr → Nat → Nat} (htok : st.paths.lookup s ≠ none → st.remoteToken ≠ none)

include htok

theorem dueFrames_path (now : Nat) (order : List SocketAddr) (jitter : SocketAddr → Nat → Nat) :
    (st.dueFrames now order jitter).1.paths.lookup s =
      (st.paths.lookup s).map fun path => (path.poll now (jitter s)).1 := by
  cases hrt : st.remoteToken with
  | some t => exact ProbeState.dueFrames_lookup hrt s
  | none =>
    have hp : st.paths.lookup s = none := by
      by_contra hp
      exact htok hp hrt
    rw [hp, Option.map_none, FinTable.lookup_eq_none, ProbeState.dueFrames_keys, ← FinTable.lookup_eq_none, hp]

/-- A call sends one frame to an address whose path is polled as due, and none to the others. -/
theorem framesTo_dueFrames (ho : Enumerates order st.paths.keys) {en : ProbeEntry}
    (hout : en.out = .frames (st.dueFrames now order jitter).2) :
    framesTo s en = if (st.paths.lookup s).any fun path => (path.poll now (jitter s)).2 then 1 else 0 := by
  have hcount : framesTo s en = ((st.dueFrames now order jitter).2.map Prod.snd).count s := by
    unfold framesTo
    rw [hout, List.count, List.countP_map]
    rfl
  rw [hcount]
  by_cases hd : ((st.paths.lookup s).any fun path => (path.poll now (jitter s)).2) = true
  · obtain ⟨path, hp, _⟩ := Option.any_eq_true _ _ |>.mp hd
    obtain ⟨t, hrt⟩ := Option.ne_none_iff_exists'.mp (htok (by rw [hp]; simp))
    have hmem : s ∈ order := ho.mem.mpr (FinTable.mem_keys_of_lookup hp)
    rw [if_pos hd, dueFrames_destinations hrt]
    exact List.count_eq_one_of_mem (ho.1.filter _) (List.mem_filter.mpr ⟨hmem, hd⟩)
  · rw [if_neg hd, List.count_eq_zero]
    intro hmem
    obtain ⟨⟨f, _⟩, hf, rfl⟩ := List.mem_map.mp hmem
    obtain ⟨_, path, _, _, hp, hdue⟩ := ProbeState.mem_dueFrames hf
    rw [hp, Option.any_some] at hd
    exact hd hdue

end

/-! ## Runs -/

/-- The path of an address stores the phase that its history gives. -/
def ScheduleInv (s : SocketAddr) (tr : List ProbeEntry) (st : ProbeState) : Prop :=
  Option.Rel (fun path phase => phase.Stored path ∧ phase.Timed) (st.paths.lookup s) (phaseOf s tr)

theorem scheduleInv_new (tok : Token) (s : SocketAddr) : ScheduleInv s [] (.new tok) := .none

section
variable {s : SocketAddr} {tr : List ProbeEntry} {st : ProbeState} {en : ProbeEntry}

theorem stored_start (now : Nat) : (Phase.start now).Stored (.new now) ∧ (Phase.start now).Timed :=
  ⟨⟨rfl, rfl, rfl⟩, by simp [Phase.start, Phase.Timed]⟩

theorem timed_emitted {phase : Phase} {now : Nat} {jitter : Nat → Nat} (hj : InRange jitter) :
    (phase.emitted now jitter).Timed := by
  have h5 := hj (secs 5)
  have hunit : secs 9 = 9 * secs 1 ∧ secs 11 = 11 * secs 1 ∧ secs 5 = 5 * secs 1 := by decide
  have hretry : ∀ frames, (Phase.unverified (frames + 1) now (Phase.retryDelay frames jitter)).Timed := by
    intro frames
    unfold Phase.Timed Phase.retryDelay
    refine ⟨fun h => by omega, fun h => ?_, fun h => ?_, fun h => ?_⟩
    · rw [if_pos (by omega)]
    · rw [if_neg (by omega), if_pos (by omega)]
    · rw [if_neg (by omega), if_neg (by omega)]
      omega
  cases phase with
  | unverified frames since delay => exact hretry frames
  | acknowledged at_ delay => trivial
  | unanswered sent => exact hretry 0

theorem scheduleInv_updateRemote (hI : ScheduleInv s tr st) {token : Option Token} {cands : List SocketAddr}
    {now : Nat} (he : en = ⟨st, .updateRemote token cands now, .updated, st.updateRemote token cands now⟩) :
    ScheduleInv s (tr ++ [en]) (st.updateRemote token cands now) := by
  have hstep : phaseStep s (phaseOf s tr) en =
      if token = none ∨ s ∉ ProbeState.selected cands then none
      else if st.remoteToken = token then some ((phaseOf s tr).getD (.start now)) else some (.start now) := by
    rw [he]; rfl
  unfold ScheduleInv at hI ⊢
  rw [phaseOf_snoc, hstep, ProbeState.updateRemote_lookup]
  by_cases hsel : token = none ∨ s ∉ ProbeState.selected cands
  · rw [if_pos hsel, if_pos hsel]
    exact .none
  · rw [if_neg hsel, if_neg hsel]
    by_cases hsame : st.remoteToken = token
    · rw [if_pos hsame, if_pos hsame]
      refine .some ?_
      generalize st.paths.lookup s = path at hI
      generalize phaseOf s tr = phase at hI
      cases hI with
      | some h => exact h
      | none => exact stored_start now
    · rw [if_neg hsame, if_neg hsame]
      exact .some (stored_start now)

theorem scheduleInv_packetAction (hI : ScheduleInv s tr st) {packet : Bytes} {source : SocketAddr} {now : Nat}
    {jitter : Nat → Nat} (hj : InRange jitter)
    (he : en = ⟨st, .packetAction packet source now jitter,
      .action (st.packetAction packet source now jitter).2, (st.packetAction packet source now jitter).1⟩) :
    ScheduleInv s (tr ++ [en]) (st.packetAction packet source now jitter).1 := by
  have hstep : phaseStep s (phaseOf s tr) en =
      if source = s ∧ ProbeOut.action (st.packetAction packet source now jitter).2 = .action .acknowledged
      then (phaseOf s tr).map fun _ => .acknowledged now (jitter (secs 15)) else phaseOf s tr := by
    rw [he]; rfl
  unfold ScheduleInv at hI ⊢
  rw [phaseOf_snoc, hstep]
  rcases st.packetAction_cases packet source now jitter with ⟨ha, rs, hst⟩ | ⟨ha, -, -, -, hst⟩ |
    ⟨ha, t, path, -, -, -, hpath, -, hst⟩
  · rw [if_neg (by simp [ha]), hst]; exact hI
  · rw [if_neg (by simp [ha]), hst]; exact hI
  · rw [hst, FinTable.lookup_insert]
    by_cases hs : source = s
    · rw [if_pos hs.symm, if_pos ⟨hs, by rw [ha]⟩]
      rw [← hs, hpath] at hI
      cases hphase : phaseOf source tr with
      | none => rw [hphase] at hI; cases hI
      | some phase =>
        rw [← hs, hphase, Option.map_some]
        refine .some ⟨⟨rfl, rfl, rfl⟩, ?_⟩
        have h15 := hj (secs 15)
        have hunit : secs 27 = 27 * secs 1 ∧ secs 33 = 33 * secs 1 ∧ secs 15 = 15 * secs 1 := by decide
        unfold Phase.Timed
        omega
    · rw [if_neg (Ne.symm hs), if_neg fun h => hs h.1]
      exact hI

theorem scheduleInv_dueFrames (hI : ScheduleInv s tr st)
    (htok : st.paths.lookup s ≠ none → st.remoteToken ≠ none) {now : Nat} {order : List SocketAddr}
    {jitter : SocketAddr → Nat → Nat} (hj : InRange (jitter s)) (ho : Enumerates order st.paths.keys)
    (he : en = ⟨st, .dueFrames now order jitter, .frames (st.dueFrames now order jitter).2,
      (st.dueFrames now order jitter).1⟩) :
    ScheduleInv s (tr ++ [en]) (st.dueFrames now order jitter).1 := by
  have hstep : phaseStep s (phaseOf s tr) en =
      if framesTo s en = 0 then phaseOf s tr else (phaseOf s tr).map (.emitted now (jitter s)) := by
    rw [he]; rfl
  have hout : en.out = .frames (st.dueFrames now order jitter).2 := by rw [he]
  have hcount := framesTo_dueFrames htok ho hout
  unfold ScheduleInv at hI ⊢
  rw [phaseOf_snoc, hstep, dueFrames_path htok]
  generalize phaseOf s tr = phase at hI
  cases hp : st.paths.lookup s with
  | none =>
    rw [hp] at hI hcount
    have hzero : framesTo s en = 0 := hcount
    rw [if_pos hzero]
    exact hI
  | some path =>
    rw [hp] at hI hcount
    cases hI with
    | @some _ phase h =>
    obtain ⟨hdue, hnext⟩ := h.1.poll hj now
    rw [Option.any_some, hdue] at hcount
    cases hd : phase.due now with
    | false =>
      have hzero : framesTo s en = 0 := by rw [hcount, hd]; rfl
      rw [if_pos hzero, Option.map_some, (Path.poll_idle (hdue.trans hd)).1]
      exact .some h
    | true =>
      have hone : framesTo s en ≠ 0 := by rw [hcount, hd]; decide
      rw [if_neg hone, Option.map_some, Option.map_some]
      exact .some ⟨hnext hd, timed_emitted hj⟩

end

theorem scheduleInv_run {tok : Token} {tr : List ProbeEntry} {st : ProbeState}
    (hr : probeController.Run (.new tok) tr st) (hj : ∀ en ∈ tr, en.event.Jittered) (s : SocketAddr) :
    ScheduleInv s tr st := by
  refine hr.history (C := fun en => en.event.Jittered) (P := ScheduleInv s) (scheduleInv_new tok s) ?_ hj
  intro tr st e o st' hpre hI hst hjit
  rcases probeController_cases hst with ⟨token, cands, now, rfl, rfl, rfl⟩ |
    ⟨packet, source, now, jitter, rfl, rfl, rfl⟩ | ⟨now, order, jitter, rfl, ho, rfl, rfl⟩
  · exact scheduleInv_updateRemote hI rfl
  · exact scheduleInv_packetAction hI hjit rfl
  · exact scheduleInv_dueFrames hI (probeInv_run hpre s).token (hjit s) ho rfl

def VerifiedAt (s : SocketAddr) (st : ProbeState) : Prop := ∃ path, st.paths.lookup s = some path ∧ path.verified = true

section
variable {tr : List ProbeEntry} {en : ProbeEntry} {now : Nat}
  {order : List SocketAddr} {jitter : SocketAddr → Nat → Nat}

theorem dueFrames_entry (hst : probeController.step en.pre en.event = some (en.post, en.out))
    (hev : en.event = .dueFrames now order jitter) :
    Enumerates order en.pre.paths.keys ∧ en.out = .frames (en.pre.dueFrames now order jitter).2 ∧
      en.post = (en.pre.dueFrames now order jitter).1 := by
  rw [hev] at hst
  rcases probeController_cases hst with ⟨_, _, _, he, _⟩ | ⟨_, _, _, _, he, _⟩ | ⟨_, _, _, he, ho, hout, hpost⟩
  · cases he
  · cases he
  · cases he
    exact ⟨ho, hout, hpost⟩

/-- What one call of `due_frames` does to an address in a phase. -/
theorem ScheduleInv.dueFrames {s : SocketAddr} (hI : ScheduleInv s tr en.pre)
    (htok : en.pre.paths.lookup s ≠ none → en.pre.remoteToken ≠ none) (hj : InRange (jitter s))
    (hst : probeController.step en.pre en.event = some (en.post, en.out))
    (hev : en.event = .dueFrames now order jitter) :
    framesTo s en = (if (phaseOf s tr).any (·.due now) then 1 else 0) ∧
    (VerifiedAt s en.pre ∧ ¬ VerifiedAt s en.post ↔
      ∃ sent, phaseOf s tr = some (.unanswered sent) ∧ sent + ackTimeout ≤ now) := by
  obtain ⟨ho, hout, hpost⟩ := dueFrames_entry hst hev
  have hcount := framesTo_dueFrames htok ho hout
  have hlook := dueFrames_path htok now order jitter
  unfold ScheduleInv at hI
  unfold VerifiedAt
  rw [hpost, hlook]
  generalize phaseOf s tr = phase at hI
  cases hp : en.pre.paths.lookup s with
  | none =>
    rw [hp] at hI hcount
    cases hI
    refine ⟨hcount, iff_of_false ?_ ?_⟩
    · rintro ⟨⟨path, h, _⟩, _⟩
      cases h
    · rintro ⟨sent, h, _⟩
      cases h
  | some path =>
    rw [hp] at hI hcount
    cases hI with
    | @some _ phase h =>
    obtain ⟨hdue, _⟩ := h.1.poll hj now
    refine ⟨by rw [hcount, Option.any_some, Option.any_some, hdue], ?_⟩
    have hunans : (∃ sent, some phase = some (.unanswered sent) ∧ sent + ackTimeout ≤ now) ↔
        path.timedOut now = true := by
      rw [h.1.timedOut]; simp
    rw [hunans]
    simp only [Option.map_some, Option.some.injEq, exists_eq_left']
    cases hd : (path.poll now (jitter s)).2 with
    | false =>
      obtain ⟨hsame, hto, _⟩ := Path.poll_idle hd
      rw [hsame, hto]
      simp
    | true =>
      rw [(Path.poll_due hd).2]
      constructor
      · rintro ⟨hv, hn⟩
        simpa [hv] using hn
      · intro hto
        exact ⟨((Path.timedOut_iff _ _).mp hto).1, by simp [hto]⟩

end

/-- **Probe schedule.** An address has a path exactly when its history gives
it a phase. A call of `due_frames` sends it one frame, of the current remote
token, when its phase is due, and none otherwise; it demotes the path exactly
when a probe of the verified path went unanswered for the timeout. A phase
has the waits of the table, and lasts as long as nothing is sent to the
address or heard from it: the frame goes out at the first call that is late
enough. -/
theorem schedule_refined {tok : Token} {tr : List ProbeEntry} {st : ProbeState}
    (hr : probeController.Run (.new tok) tr st) (hj : ∀ en ∈ tr, en.event.Jittered) (s : SocketAddr) :
    (∀ a en b, tr = a ++ en :: b →
      (s ∈ en.pre.paths.keys ↔ (phaseOf s a).isSome = true) ∧
      ∀ now order jitter, en.event = .dueFrames now order jitter →
        framesTo s en = (if (phaseOf s a).any (·.due now) then 1 else 0) ∧
        (∀ f, Emits f s en → ∃ t, en.pre.remoteToken = some t ∧ f = frame t) ∧
        (VerifiedAt s en.pre ∧ ¬ VerifiedAt s en.post ↔
          ∃ sent, phaseOf s a = some (.unanswered sent) ∧ sent + ackTimeout ≤ now)) ∧
    ∀ a m en b phase, tr = a ++ m ++ en :: b → phaseOf s a = some phase → (∀ x ∈ m, Quiet s x) →
      phase.Timed ∧ ∀ now order jitter, en.event = .dueFrames now order jitter →
        framesTo s en = if phase.due now then 1 else 0 := by
  have hcall : ∀ a en b now order jitter, tr = a ++ en :: b → en.event = .dueFrames now order jitter →
      framesTo s en = (if (phaseOf s a).any (·.due now) then 1 else 0) ∧
      (VerifiedAt s en.pre ∧ ¬ VerifiedAt s en.post ↔
        ∃ sent, phaseOf s a = some (.unanswered sent) ∧ sent + ackTimeout ≤ now) := by
    intro a en b now order jitter htr hev
    have hjit := hj en (by rw [htr]; simp)
    rw [hev] at hjit
    rw [htr] at hr hj
    obtain ⟨hpre, hst⟩ := hr.split
    have hI := scheduleInv_run hpre (fun x hx => hj x (List.mem_append_left _ hx)) s
    exact hI.dueFrames (probeInv_run hpre s).token (hjit s) hst hev
  refine ⟨fun a en b htr => ⟨?_, fun now order jitter hev => ?_⟩, fun a m en b phase htr hphase hm => ⟨?_, ?_⟩⟩
  · rw [htr] at hr hj
    have hI := scheduleInv_run hr.split.1 (fun x hx => hj x (List.mem_append_left _ hx)) s
    rw [FinTable.mem_keys]
    unfold ScheduleInv at hI
    generalize en.pre.paths.lookup s = path at hI ⊢
    generalize phaseOf s a = phase at hI ⊢
    cases hI <;> simp
  · obtain ⟨hcount, hdem⟩ := hcall a en b now order jitter htr hev
    refine ⟨hcount, fun f ⟨fs, hfs, hmem⟩ => ?_, hdem⟩
    rw [htr] at hr
    obtain ⟨_, hout, _⟩ := dueFrames_entry hr.split.2 hev
    rw [hout] at hfs
    cases hfs
    obtain ⟨t, _, ht, hf, _⟩ := ProbeState.mem_dueFrames hmem
    exact ⟨t, ht, hf⟩
  · rw [htr, List.append_assoc] at hr hj
    obtain ⟨st', hpre⟩ := hr.of_append
    have hI := scheduleInv_run hpre (fun x hx => hj x (List.mem_append_left _ hx)) s
    unfold ScheduleInv at hI
    rw [hphase] at hI
    generalize st'.paths.lookup s = path at hI
    cases hI with
    | some h => exact h.2
  · intro now order jitter hev
    have := (hcall (a ++ m) en b now order jitter htr hev).1
    rw [phaseOf_quiet m hphase hm] at this
    simpa using this

/-- A path that is probed three times, acknowledged, probed again and demoted. -/
def probeLife : List ProbeOp :=
  [.updateRemote (some (.fill 5)) [.testNet 10 12345] 0,
    .dueFrames 0 [.testNet 10 12345] (fun _ d => d),
    .dueFrames (secs 1) [.testNet 10 12345] (fun _ d => d),
    .dueFrames (secs 3) [.testNet 10 12345] (fun _ d => d),
    .packetAction (frame (.fill 5)) (.testNet 10 12345) (secs 4) id,
    .dueFrames (secs 19) [.testNet 10 12345] (fun _ d => d),
    .dueFrames (secs 22) [.testNet 10 12345] (fun _ d => d)]

theorem probeLife_runs : (probeController.exec (.new (.fill 7)) probeLife).isSome = true := by decide

theorem inRange_id : InRange id := fun d => ⟨by simp only [id]; omega, by simp only [id]; omega⟩

theorem probeLife_jittered : ∀ e ∈ probeLife, e.Jittered := by
  have hid : ∀ _ : SocketAddr, InRange fun d => d := fun _ => inRange_id
  simp only [probeLife, List.forall_mem_cons, List.not_mem_nil, false_implies, implies_true, and_true]
  exact ⟨trivial, hid, hid, hid, inRange_id, hid, hid⟩

theorem probeLife_scheduled : ∃ tr st, probeController.Run (.new (.fill 7)) tr st ∧
    (∀ en ∈ tr, en.event.Jittered) ∧
    tr.map (framesTo (.testNet 10 12345)) = [0, 1, 1, 1, 0, 1, 1] ∧
    phaseOf (.testNet 10 12345) tr = some (.unverified 1 (secs 22) (secs 1)) ∧
    ∀ a en b, tr = a ++ en :: b →
      (.testNet 10 12345 ∈ en.pre.paths.keys ↔ (phaseOf (.testNet 10 12345) a).isSome = true) := by
  have hr := Machine.run_of_exec probeLife_runs
  have hj : ∀ en ∈ ((probeController.exec (.new (.fill 7)) probeLife).get probeLife_runs).1, en.event.Jittered :=
    fun en hen => probeLife_jittered _ (Machine.event_mem_of_exec probeLife_runs hen)
  exact ⟨_, _, hr, hj, by decide, by decide, fun a en b htr => ((schedule_refined hr hj _).1 a en b htr).1⟩

end P2pTunnler
