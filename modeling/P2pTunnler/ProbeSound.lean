import P2pTunnler.ProbeLemmas
import Mathlib.Algebra.GroupWithZero.Nat

/-!
# Acknowledgements answer probes

A history invariant for one address: an outstanding probe is an emission
that nothing has consumed since, and a verified path has been acknowledged
since it was created or last demoted. No step needs a monotone clock.
-/

namespace P2pTunnler

open Machine (Since since_snoc)
open Finset (Enumerates)

abbrev ProbeEntry := Machine.Entry ProbeState ProbeOp ProbeOut

/-! ## What a step did to an address -/

def AckFor (s : SocketAddr) (en : ProbeEntry) : Prop :=
  ∃ packet now jitter, en.event = .packetAction packet s now jitter ∧ en.out = .action .acknowledged

def Emits (f : Bytes) (s : SocketAddr) (en : ProbeEntry) : Prop :=
  ∃ fs, en.out = .frames fs ∧ (f, s) ∈ fs

-- every `update_remote` in the step keeps the token and selects `s`
def KeepsPath (s : SocketAddr) (en : ProbeEntry) : Prop :=
  ∀ token cands now, en.event = .updateRemote token cands now →
    en.pre.remoteToken = token ∧ s ∈ ProbeState.selected cands

def Creates (s : SocketAddr) (en : ProbeEntry) : Prop :=
  ∃ token cands now, en.event = .updateRemote token cands now ∧ s ∈ en.post.paths.keys ∧
    (s ∉ en.pre.paths.keys ∨ en.pre.remoteToken ≠ token)

def Demotes (s : SocketAddr) (en : ProbeEntry) : Prop :=
  ∃ now order jitter path sent, en.event = .dueFrames now order jitter ∧ en.pre.paths.lookup s = some path ∧
    path.verified = true ∧ path.outstanding = some sent ∧ sent + ackTimeout ≤ now

def ackCount (s : SocketAddr) (tr : List ProbeEntry) : Nat :=
  tr.countP fun en =>
    match en.event with
    | .packetAction _ source _ _ => source == s && en.out == .action .acknowledged
    | _ => false

def framesTo (s : SocketAddr) (en : ProbeEntry) : Nat :=
  match en.out with
  | .frames fs => fs.countP fun f => f.2 == s
  | _ => 0

def emitCount (s : SocketAddr) (tr : List ProbeEntry) : Nat := (tr.map (framesTo s)).sum

/-! ## The invariant -/

def Unanswered (t : Token) (s : SocketAddr) (tr : List ProbeEntry) : Prop :=
  Since (Emits (frame t) s) (fun en => ¬ AckFor s en ∧ KeepsPath s en) tr

def VerifiedSince (s : SocketAddr) (tr : List ProbeEntry) : Prop :=
  Since (AckFor s) (fun en => ¬ Creates s en ∧ ¬ Demotes s en) tr

structure ProbeInv (tok : Token) (s : SocketAddr) (tr : List ProbeEntry) (st : ProbeState) : Prop where
  localToken : st.localToken = tok
  token : st.paths.lookup s ≠ none → st.remoteToken ≠ none
  outstanding : ∀ path t, st.paths.lookup s = some path → path.outstanding.isSome = true →
    st.remoteToken = some t → Unanswered t s tr
  verified : ∀ path, st.paths.lookup s = some path → (path.verified = true ↔ VerifiedSince s tr)
  count : ackCount s tr + (if (st.paths.lookup s).any (·.outstanding.isSome) then 1 else 0) ≤ emitCount s tr

theorem probeInv_new (tok : Token) (s : SocketAddr) : ProbeInv tok s [] (.new tok) where
  localToken := rfl
  token h := absurd rfl h
  outstanding path t h := by cases h
  verified path h := by cases h
  count := Nat.le_refl _

theorem ackCount_snoc (s : SocketAddr) (tr : List ProbeEntry) (en : ProbeEntry) :
    ackCount s (tr ++ [en]) = ackCount s tr + ackCount s [en] := List.countP_append

theorem emitCount_snoc (s : SocketAddr) (tr : List ProbeEntry) (en : ProbeEntry) :
    emitCount s (tr ++ [en]) = emitCount s tr + framesTo s en := by
  simp [emitCount]

theorem ackCount_of_not {s : SocketAddr} {en : ProbeEntry} (h : ¬ AckFor s en) : ackCount s [en] = 0 := by
  obtain ⟨pre, event, out, post⟩ := en
  unfold ackCount
  rw [List.countP_singleton]
  cases event with
  | packetAction packet source now jitter =>
    rw [if_neg]
    intro hc
    simp only [Bool.and_eq_true, beq_iff_eq] at hc
    obtain ⟨rfl, rfl⟩ := hc
    exact h ⟨packet, now, jitter, rfl, rfl⟩
  | updateRemote _ _ _ => rfl
  | dueFrames _ _ _ => rfl

theorem ackCount_single_le (s : SocketAddr) (en : ProbeEntry) : ackCount s [en] ≤ 1 :=
  List.countP_le_length

theorem framesTo_pos {f : Bytes} {s : SocketAddr} {en : ProbeEntry} (h : Emits f s en) : 1 ≤ framesTo s en := by
  obtain ⟨fs, ho, hm⟩ := h
  unfold framesTo
  rw [ho]
  exact List.countP_pos_iff.mpr ⟨_, hm, by simp⟩

/-! ## One step -/

section
variable {tok : Token} {s : SocketAddr} {tr : List ProbeEntry} {st st' : ProbeState} {en : ProbeEntry}

/-- A step that leaves the path alone and is none of the events the history speaks of. -/
theorem ProbeInv.frame (hI : ProbeInv tok s tr st) (hl : st'.localToken = st.localToken)
    (ht : st'.remoteToken = st.remoteToken) (hp : st'.paths.lookup s = st.paths.lookup s)
    (hack : ¬ AckFor s en) (hkeep : KeepsPath s en) (hcre : ¬ Creates s en) (hdem : ¬ Demotes s en) :
    ProbeInv tok s (tr ++ [en]) st' := by
  refine ⟨hl.trans hI.localToken, ?_, ?_, ?_, ?_⟩
  · rw [hp, ht]; exact hI.token
  · intro path t hpath ho hrt
    rw [hp] at hpath
    rw [ht] at hrt
    exact since_snoc.mpr (.inr ⟨⟨hack, hkeep⟩, hI.outstanding path t hpath ho hrt⟩)
  · intro path hpath
    rw [hp] at hpath
    rw [hI.verified path hpath]
    refine ⟨fun hv => since_snoc.mpr (.inr ⟨⟨hcre, hdem⟩, hv⟩), fun hv => ?_⟩
    rcases since_snoc.mp hv with hv | hv
    · exact absurd hv hack
    · exact hv.2
  · have := hI.count
    rw [hp, ackCount_snoc, emitCount_snoc, ackCount_of_not hack]
    omega

/-- A step after which the address has no path, or one just created. -/
theorem ProbeInv.reset (hI : ProbeInv tok s tr st) (hl : st'.localToken = st.localToken)
    (ht : st'.paths.lookup s ≠ none → st'.remoteToken ≠ none) (hack : ¬ AckFor s en)
    (hp : ∀ path, st'.paths.lookup s = some path →
      path.outstanding = none ∧ path.verified = false ∧ Creates s en) :
    ProbeInv tok s (tr ++ [en]) st' := by
  refine ⟨hl.trans hI.localToken, ht, ?_, ?_, ?_⟩
  · intro path t hpath ho
    rw [(hp path hpath).1] at ho; cases ho
  · intro path hpath
    obtain ⟨_, hv, hc⟩ := hp path hpath
    rw [hv]
    refine ⟨fun h => (by cases h), fun h => ?_⟩
    rcases since_snoc.mp h with h | h
    · exact absurd h hack
    · exact absurd hc h.1.1
  · have hnone : (st'.paths.lookup s).any (·.outstanding.isSome) = false := by
      cases hpath : st'.paths.lookup s with
      | none => rfl
      | some path => rw [Option.any_some, (hp path hpath).1]; rfl
    have := hI.count
    rw [hnone, ackCount_snoc, emitCount_snoc, ackCount_of_not hack]
    simp only [Bool.false_eq_true, if_false]
    omega

theorem probeInv_updateRemote (hI : ProbeInv tok s tr st) {token : Option Token} {cands : List SocketAddr}
    {now : Nat} (he : en = ⟨st, .updateRemote token cands now, .updated, st.updateRemote token cands now⟩) :
    ProbeInv tok s (tr ++ [en]) (st.updateRemote token cands now) := by
  have hlook := ProbeState.updateRemote_lookup st token cands now s
  have hl := ProbeState.updateRemote_localToken st token cands now
  have hack : ¬ AckFor s en := by
    intro ⟨_, _, _, hev, _⟩; rw [he] at hev; cases hev
  by_cases hold : (token ≠ none ∧ s ∈ ProbeState.selected cands) ∧ st.remoteToken = token ∧ s ∈ st.paths.keys
  · -- the same token and a selected address: the path is kept as it was
    obtain ⟨⟨htok, hsel⟩, hsame, hmem⟩ := hold
    obtain ⟨path, hpath⟩ := FinTable.exists_lookup hmem
    have hkept : (st.updateRemote token cands now).paths.lookup s = st.paths.lookup s := by
      rw [hlook, if_neg (by tauto), if_pos hsame, hpath]; rfl
    refine hI.frame hl (by simp [hsame]) hkept hack ?_ ?_ ?_
    · intro token' cands' now' hev
      rw [he] at hev; cases hev; rw [he]
      exact ⟨hsame, hsel⟩
    · intro ⟨token', cands', now', hev, _, hc⟩
      rw [he] at hev hc; cases hev
      rcases hc with hc | hc
      · exact hc hmem
      · exact hc hsame
    · intro ⟨_, _, _, _, _, hev, _⟩; rw [he] at hev; cases hev
  · refine hI.reset hl ?_ hack ?_
    · intro hne htok
      rw [ProbeState.updateRemote_remoteToken] at htok
      rw [hlook, if_pos (.inl htok)] at hne
      exact hne rfl
    · intro path hpath
      have hmem := FinTable.mem_keys_of_lookup hpath
      rw [hlook] at hpath
      split at hpath
      · cases hpath
      rename_i hsel
      have hnew : path = .new now ∧ (s ∉ st.paths.keys ∨ st.remoteToken ≠ token) := by
        split at hpath
        · rename_i hsame
          have hnot : s ∉ st.paths.keys := fun hm => hold ⟨by tauto, hsame, hm⟩
          rw [FinTable.lookup_eq_none.mpr hnot] at hpath
          exact ⟨(Option.some.inj hpath).symm, .inl hnot⟩
        · rename_i hdiff
          exact ⟨(Option.some.inj hpath).symm, .inr hdiff⟩
      refine ⟨by rw [hnew.1]; rfl, by rw [hnew.1]; rfl, ?_⟩
      rw [he]
      exact ⟨token, cands, now, rfl, hmem, hnew.2⟩

theorem probeInv_packetAction (hI : ProbeInv tok s tr st) {packet : Bytes} {source : SocketAddr} {now : Nat}
    {jitter : Nat → Nat}
    (he : en = ⟨st, .packetAction packet source now jitter,
      .action (st.packetAction packet source now jitter).2, (st.packetAction packet source now jitter).1⟩) :
    ProbeInv tok s (tr ++ [en]) (st.packetAction packet source now jitter).1 := by
  have hkeep : KeepsPath s en := by
    intro _ _ _ hev; rw [he] at hev; cases hev
  have hcre : ¬ Creates s en := by
    intro ⟨_, _, _, hev, _⟩; rw [he] at hev; cases hev
  have hdem : ¬ Demotes s en := by
    intro ⟨_, _, _, _, _, hev, _⟩; rw [he] at hev; cases hev
  have hother : (st.packetAction packet source now jitter).2 ≠ .acknowledged ∨ source ≠ s → ¬ AckFor s en := by
    intro h ⟨_, _, _, hev, hout⟩
    rw [he] at hev hout; cases hev
    rcases h with h | h
    · exact h (ProbeOut.action.inj hout)
    · exact h rfl
  rcases st.packetAction_cases packet source now jitter with ⟨ha, rs, hst⟩ | ⟨ha, -, -, -, hst⟩ |
    ⟨ha, t, path, hpk, hne, hrt, hpath, hout, hst⟩
  · exact hI.frame (by rw [hst]) (by rw [hst]) (by rw [hst]) (hother (by simp [ha])) hkeep hcre hdem
  · exact hI.frame (by rw [hst]) (by rw [hst]) (by rw [hst]) (hother (by simp [ha])) hkeep hcre hdem
  by_cases hs : source = s
  · -- the acknowledgement of this path consumes its outstanding probe
    subst hs
    have hack : AckFor source en := by rw [he]; exact ⟨packet, now, jitter, rfl, by rw [ha]⟩
    refine ⟨by rw [hst]; exact hI.localToken, by rw [hst]; simp [hrt], ?_, ?_, ?_⟩
    · intro path' t' hp' ho
      rw [hst, FinTable.lookup_insert, if_pos rfl] at hp'
      cases hp'; cases ho
    · intro path' hp'
      rw [hst, FinTable.lookup_insert, if_pos rfl] at hp'
      cases hp'
      exact ⟨fun _ => since_snoc.mpr (.inl hack), fun _ => rfl⟩
    · have hc := hI.count
      rw [hpath, Option.any_some, if_pos hout] at hc
      have := ackCount_single_le source en
      rw [hst, FinTable.lookup_insert, if_pos rfl, ackCount_snoc, emitCount_snoc]
      simp only [Option.any_some, Option.isSome_none, Bool.false_eq_true, if_false]
      omega
  · refine hI.frame (by rw [hst]) (by rw [hst]) ?_ (hother (.inr hs)) hkeep hcre hdem
    rw [hst, FinTable.lookup_insert, if_neg (Ne.symm hs)]

theorem probeInv_dueFrames (hI : ProbeInv tok s tr st) {now : Nat} {order : List SocketAddr}
    {jitter : SocketAddr → Nat → Nat} (ho : Enumerates order st.paths.keys)
    (he : en = ⟨st, .dueFrames now order jitter, .frames (st.dueFrames now order jitter).2,
      (st.dueFrames now order jitter).1⟩) :
    ProbeInv tok s (tr ++ [en]) (st.dueFrames now order jitter).1 := by
  have hack : ¬ AckFor s en := by
    intro ⟨_, _, _, hev, _⟩; rw [he] at hev; cases hev
  have hkeep : KeepsPath s en := by
    intro _ _ _ hev; rw [he] at hev; cases hev
  have hcre : ¬ Creates s en := by
    intro ⟨_, _, _, hev, _⟩; rw [he] at hev; cases hev
  have hdem : Demotes s en ↔ ∃ path, st.paths.lookup s = some path ∧ path.timedOut now = true := by
    simp only [Path.timedOut_iff]
    refine ⟨fun ⟨_, _, _, path, sent, hev, hp, hv, hs, hn⟩ => ?_, fun ⟨path, hp, hv, sent, hs, hn⟩ => ?_⟩
    · rw [he] at hev hp; cases hev
      exact ⟨path, hp, hv, sent, hs, hn⟩
    · rw [he]; exact ⟨now, order, jitter, path, sent, rfl, hp, hv, hs, hn⟩
  have hl := @ProbeState.dueFrames_localToken st now order jitter
  have ht := @ProbeState.dueFrames_remoteToken st now order jitter
  cases hp : st.paths.lookup s with
  | none =>
    have hgone : (st.dueFrames now order jitter).1.paths.lookup s = st.paths.lookup s := by
      rw [hp, FinTable.lookup_eq_none, ProbeState.dueFrames_keys, ← FinTable.lookup_eq_none, hp]
    refine hI.frame hl ht hgone hack hkeep hcre ?_
    rw [hdem]; intro ⟨_, hp', _⟩; rw [hp] at hp'; cases hp'
  | some path =>
    obtain ⟨t, hrt⟩ := Option.ne_none_iff_exists'.mp (hI.token (by rw [hp]; simp))
    have hlook := @ProbeState.dueFrames_lookup st now order jitter t hrt s
    rw [hp, Option.map_some] at hlook
    cases hd : (path.poll now (jitter s)).2 with
    | false =>
      obtain ⟨hsame, hto, _⟩ := Path.poll_idle hd
      refine hI.frame hl ht (by rw [hlook, hsame, hp]) hack hkeep hcre ?_
      rw [hdem]; intro ⟨path', hp', hto'⟩
      rw [hp] at hp'; cases hp'
      rw [hto] at hto'; cases hto'
    | true =>
      obtain ⟨hout, hver⟩ := Path.poll_due hd
      have hem : Emits (frame t) s en := by
        rw [he]; exact ⟨_, rfl, ProbeState.dueFrames_emits hrt ho hp hd⟩
      refine ⟨hl.trans hI.localToken, fun _ => by rw [ht, hrt]; simp, ?_, ?_, ?_⟩
      · intro path' t' _ _ hrt'
        rw [ht, hrt] at hrt'; cases hrt'
        exact since_snoc.mpr (.inl hem)
      · intro path' hp'
        rw [hlook] at hp'; cases hp'
        rw [hver, Bool.and_eq_true, hI.verified path hp]
        refine ⟨fun ⟨hv, hto⟩ => since_snoc.mpr (.inr ⟨⟨hcre, ?_⟩, hv⟩), fun hv => ?_⟩
        · rw [hdem]; intro ⟨path', hp', hto'⟩
          rw [hp] at hp'; cases hp'
          simp [hto'] at hto
        · rcases since_snoc.mp hv with hv | ⟨⟨_, hnd⟩, hv⟩
          · exact absurd hv hack
          · refine ⟨hv, ?_⟩
            rw [Bool.not_eq_true', Bool.eq_false_iff]
            intro hto; exact hnd (hdem.mpr ⟨path, hp, hto⟩)
      · have hc := hI.count
        have := framesTo_pos hem
        rw [hlook, ackCount_snoc, emitCount_snoc, ackCount_of_not hack]
        simp only [Option.any_some, hout, Option.isSome_some, if_true]
        omega

end

/-! ## Runs -/

theorem probeInv_run {tok : Token} {tr : List ProbeEntry} {st : ProbeState}
    (hr : probeController.Run (.new tok) tr st) (s : SocketAddr) : ProbeInv tok s tr st := by
  refine hr.history (C := fun _ => True) (P := ProbeInv tok s) (probeInv_new tok s) ?_ (fun _ _ => trivial)
  intro tr st e o st' _ hI hst _
  rcases probeController_cases hst with ⟨token, cands, now, rfl, rfl, rfl⟩ |
    ⟨packet, source, now, jitter, rfl, rfl, rfl⟩ | ⟨now, order, jitter, rfl, ho, rfl, rfl⟩
  · exact probeInv_updateRemote hI rfl
  · exact probeInv_packetAction hI rfl
  · exact probeInv_dueFrames hI ho rfl

/-- **Acknowledgement soundness.** An acknowledgement carries the current
remote token, which is not the local one, and answers an emission to its
exact source that nothing has consumed since; acknowledgements never
outnumber emissions; and a path is verified exactly when it has been
acknowledged since its creation and its last demotion. -/
theorem acknowledged_sound {tok : Token} {tr : List ProbeEntry} {st : ProbeState}
    (hr : probeController.Run (.new tok) tr st) :
    (∀ a en b packet s now jitter, tr = a ++ en :: b → en.event = .packetAction packet s now jitter →
      en.out = .action .acknowledged →
      ∃ t, packet = frame t ∧ en.pre.remoteToken = some t ∧ t ≠ tok ∧
        Since (Emits (frame t) s) (fun x => ¬ AckFor s x ∧ KeepsPath s x) a) ∧
    (∀ s, ackCount s tr ≤ emitCount s tr) ∧
    (∀ s path, st.paths.lookup s = some path →
      (path.verified = true ↔ Since (AckFor s) (fun x => ¬ Creates s x ∧ ¬ Demotes s x) tr)) := by
  refine ⟨?_, fun s => Nat.le_trans (Nat.le_add_right _ _) (probeInv_run hr s).count,
    fun s path hp => (probeInv_run hr s).verified path hp⟩
  intro a en b packet s now jitter htr hev hout
  rw [htr] at hr
  obtain ⟨hpre, hst⟩ := hr.split
  have hI := probeInv_run hpre s
  rw [hev, hout] at hst
  simp only [probeController, Option.some.injEq, Prod.mk.injEq, ProbeOut.action.injEq] at hst
  rcases en.pre.packetAction_cases packet s now jitter with ⟨ha, _⟩ | ⟨ha, _⟩ |
    ⟨_, t, path, hpk, hne, hrt, hpath, ho, _⟩
  · rw [ha] at hst; cases hst.2
  · rw [ha] at hst; cases hst.2
  · exact ⟨t, hpk, hrt, by rw [← hI.localToken]; exact hne, hI.outstanding path t hpath ho hrt⟩

/-- A probe, its acknowledgement, and a second answer that comes too late. -/
def probeExchange : List ProbeOp :=
  [.updateRemote (some (.fill 5)) [.testNet 10 12345] 0,
    .dueFrames 0 [.testNet 10 12345] (fun _ d => d),
    .packetAction (frame (.fill 5)) (.testNet 10 12345) (secs 1) id,
    .packetAction (frame (.fill 5)) (.testNet 10 12345) (secs 2) id]

theorem probeExchange_runs : (probeController.exec (.new (.fill 7)) probeExchange).isSome = true := by decide

theorem probeExchange_sound : ∃ tr st, probeController.Run (.new (.fill 7)) tr st ∧
    ackCount (.testNet 10 12345) tr = 1 ∧ ackCount (.testNet 10 12345) tr ≤ emitCount (.testNet 10 12345) tr :=
  ⟨_, _, Machine.run_of_exec probeExchange_runs, by decide,
    (acknowledged_sound (Machine.run_of_exec probeExchange_runs)).2.1 _⟩

end P2pTunnler
