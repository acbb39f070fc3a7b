import P2pTunnler.Probe

/-!
# What each probe operation does

One inversion lemma for `packet_action`, and lookups after `update_remote`
and `due_frames`. Everything about runs of the controller is derived from
these, never from the definitions.
-/

namespace P2pTunnler

open Finset (insertUpTo Enumerates)

/-! ## Frames -/

@[simp] theorem length_frame (t : Token) : (frame t).length = frameLen := by
  simp [frame, magic, frameLen]

theorem classify_iff (p : Bytes) : classify p = true ↔ magic <+: p := List.isPrefixOf_iff_prefix

theorem parseFrame_eq_some {p : Bytes} {t : Token} : parseFrame p = some t ↔ p = frame t := by
  unfold parseFrame
  by_cases h : p.length = frameLen ∧ magic <+: p
  · obtain ⟨hl, q, rfl⟩ := h
    have hp : magic.isPrefixOf (magic ++ q) = true := List.isPrefixOf_iff_prefix.mpr ⟨q, rfl⟩
    have hd : (magic ++ q).drop 4 = q := rfl
    simp only [hl, hp, hd, ne_eq, not_true_eq_false, decide_false, Bool.not_true, Bool.or_false,
      Bool.false_eq_true, if_false, Octets.tryFrom_eq_some, frame, List.append_cancel_left_eq]
    exact eq_comm
  · have hc : (decide (p.length ≠ frameLen) || !magic.isPrefixOf p) = true := by
      by_cases hl : p.length = frameLen
      · have hm : magic.isPrefixOf p = false := by
          rw [Bool.eq_false_iff, ne_eq, List.isPrefixOf_iff_prefix]
          intro hm; exact h ⟨hl, hm⟩
        simp [hm]
      · simp [hl]
    rw [if_pos hc]
    refine ⟨fun hn => (by cases hn), fun hf => ?_⟩
    subst hf
    exact absurd ⟨length_frame t, _, rfl⟩ h

theorem frame_injective {t u : Token} (h : frame t = frame u) : t = u :=
  Option.some.inj ((parseFrame_eq_some.mpr rfl).symm.trans (parseFrame_eq_some.mpr h))

namespace ProbeState

/-! ## `update_remote` -/

section
variable (st : ProbeState) (token : Option Token) (cands : List SocketAddr) (now : Nat)

@[simp] theorem updateRemote_remoteToken : (st.updateRemote token cands now).remoteToken = token := by
  unfold updateRemote
  by_cases h : st.remoteToken = token
  · subst h
    simp only [ne_eq, not_true_eq_false, if_false]
    split <;> rfl
  · simp only [ne_eq, h, not_false_eq_true, if_true]
    split <;> rfl

@[simp] theorem updateRemote_localToken : (st.updateRemote token cands now).localToken = st.localToken := by
  unfold updateRemote
  by_cases h : st.remoteToken = token
  · simp only [ne_eq, h, not_true_eq_false, if_false]
    split <;> rfl
  · simp only [ne_eq, h, not_false_eq_true, if_true]
    split <;> rfl

@[simp] theorem updateRemote_replySources :
    (st.updateRemote token cands now).replySources = st.replySources := by
  unfold updateRemote
  by_cases h : st.remoteToken = token
  · simp only [ne_eq, h, not_true_eq_false, if_false]
    split <;> rfl
  · simp only [ne_eq, h, not_false_eq_true, if_true]
    split <;> rfl

/-- A path is kept under the same token, created otherwise, and only for a selected candidate. -/
theorem updateRemote_lookup (s : SocketAddr) :
    (st.updateRemote token cands now).paths.lookup s =
      if token = none ∨ s ∉ selected cands then none
      else if st.remoteToken = token then some ((st.paths.lookup s).getD (.new now)) else some (.new now) := by
  unfold updateRemote
  by_cases h : st.remoteToken = token
  · subst h
    cases hr : st.remoteToken with
    | none => simp [hr]
    | some t =>
      by_cases hs : s ∈ selected cands
      · cases hp : st.paths.lookup s <;> simp [hr, hs, hp, Option.filter]
      · cases hp : st.paths.lookup s <;> simp [hr, hs, hp, Option.filter]
  · cases token with
    | none => simp [h]
    | some t => by_cases hs : s ∈ selected cands <;> simp [h, hs]

end

/-! ## `packet_action` -/

/-- What `packet_action` can do: drop the packet, echo the run token, or
take the remote token from a probed source as an acknowledgement. -/
theorem packetAction_cases (st : ProbeState) (packet : Bytes) (source : SocketAddr) (now : Nat)
    (jitter : Nat → Nat) :
    ((st.packetAction packet source now jitter).2 = .drop ∧
      ∃ rs, (st.packetAction packet source now jitter).1 = { st with replySources := rs }) ∨
    ((st.packetAction packet source now jitter).2 = .echoAndAdmit ∧ packet = frame st.localToken ∧
      source ∉ (st.recentReplies now).keys ∧ (st.recentReplies now).size < maxReplySources ∧
      (st.packetAction packet source now jitter).1 =
        { st with replySources := (st.recentReplies now).insert source now }) ∨
    ((st.packetAction packet source now jitter).2 = .acknowledged ∧ ∃ t path, packet = frame t ∧
      t ≠ st.localToken ∧ st.remoteToken = some t ∧ st.paths.lookup source = some path ∧
      path.outstanding.isSome = true ∧
      (st.packetAction packet source now jitter).1 =
        { st with
          replySources := st.recentReplies now
          paths := st.paths.insert source { path with
            outstanding := none
            verified := true
            fastStage := 0
            nextProbe := now + jitter (secs 15)
            lastControlResponse := some now } }) := by
  unfold packetAction
  cases hp : parseFrame packet with
  | none => exact .inl ⟨rfl, st.replySources, rfl⟩
  | some t =>
    have hpk := parseFrame_eq_some.mp hp
    simp only
    by_cases ht : t = st.localToken
    · rw [if_pos ht]
      split
      · exact .inl ⟨rfl, _, rfl⟩
      · rename_i hfull
        by_cases hin : source ∈ (st.recentReplies now).keys
        · -- an entry that survived the pruning is younger than the interval
          obtain ⟨last, hl⟩ := FinTable.exists_lookup hin
          have hyoung : ((st.recentReplies now).lookup source).any
              (fun last => decide (durationSince now last < replyInterval)) = true := by
            rw [hl, Option.any_some]
            unfold recentReplies at hl
            rw [FinTable.lookup_retain, Option.filter_eq_some_iff] at hl
            exact hl.2
          rw [if_pos hyoung]
          exact .inl ⟨rfl, _, rfl⟩
        · have hnone := FinTable.lookup_eq_none.mpr hin
          rw [hnone, if_neg (by simp)]
          refine .inr (.inl ⟨rfl, ht ▸ hpk, hin, ?_, rfl⟩)
          by_contra hlt
          exact hfull ⟨Nat.le_of_not_lt hlt, hin⟩
    · rw [if_neg ht]
      by_cases hr : st.remoteToken = some t
      · rw [if_neg (by simp [hr])]
        cases hl : st.paths.lookup source with
        | none => exact .inl ⟨rfl, _, rfl⟩
        | some path =>
          simp only
          split
          · exact .inl ⟨rfl, _, rfl⟩
          · rename_i ho
            refine .inr (.inr ⟨rfl, t, path, hpk, ht, hr, rfl, ?_, rfl⟩)
            simpa [Option.isSome_iff_ne_none] using ho
      · rw [if_pos (by simpa using hr)]
        exact .inl ⟨rfl, _, rfl⟩

/-- The remote token from a probed source is an acknowledgement. -/
theorem packetAction_acknowledges {st : ProbeState} {t : Token} {source : SocketAddr} {path : Path}
    (hr : st.remoteToken = some t) (hne : t ≠ st.localToken) (hp : st.paths.lookup source = some path)
    (ho : path.outstanding.isSome = true) (now : Nat) (jitter : Nat → Nat) :
    (st.packetAction (frame t) source now jitter).2 = .acknowledged := by
  have hparse : parseFrame (frame t) = some t := parseFrame_eq_some.mpr rfl
  have hsome : ¬ path.outstanding.isNone = true := by
    rw [Option.isNone_iff_eq_none]
    intro hnone
    rw [hnone] at ho; cases ho
  unfold packetAction
  simp only [hparse]
  rw [if_neg hne, if_neg (by simp [hr])]
  simp only [hp]
  rw [if_neg hsome]

theorem packetAction_keys (st : ProbeState) (p : Bytes) (a : SocketAddr) (now : Nat) (jitter : Nat → Nat) :
    (st.packetAction p a now jitter).1.paths.keys = st.paths.keys := by
  rcases st.packetAction_cases p a now jitter with ⟨_, rs, hst⟩ | ⟨_, _, _, _, hst⟩ | ⟨_, t, path, _, _, _, hl, _, hst⟩
  · rw [hst]
  · rw [hst]
  · rw [hst]
    exact Finset.insert_eq_of_mem (FinTable.mem_keys_of_lookup hl)

theorem packetAction_tokens (st : ProbeState) (p : Bytes) (a : SocketAddr) (now : Nat) (jitter : Nat → Nat) :
    (st.packetAction p a now jitter).1.localToken = st.localToken ∧
      (st.packetAction p a now jitter).1.remoteToken = st.remoteToken := by
  rcases st.packetAction_cases p a now jitter with ⟨_, _, hst⟩ | ⟨_, _, _, _, hst⟩ | ⟨_, _, _, _, _, _, _, _, hst⟩
  all_goals
    rw [hst]
    exact ⟨rfl, rfl⟩

/-- What becomes of the reply table: a frame prunes it, and the run token is
recorded in it when the source is there already or the table has room. -/
theorem packetAction_replySources (st : ProbeState) (packet : Bytes) (source : SocketAddr) (now : Nat)
    (jitter : Nat → Nat) :
    (st.packetAction packet source now jitter).1.replySources = st.replySources ∨
    (st.packetAction packet source now jitter).1.replySources = st.recentReplies now ∨
    ((st.packetAction packet source now jitter).1.replySources = (st.recentReplies now).insert source now ∧
      packet = frame st.localToken ∧
      (source ∈ (st.recentReplies now).keys ∨ (st.recentReplies now).size < maxReplySources)) := by
  unfold packetAction
  cases hp : parseFrame packet with
  | none => exact .inl rfl
  | some t =>
    have hpk := parseFrame_eq_some.mp hp
    simp only
    by_cases ht : t = st.localToken
    · rw [if_pos ht]
      rw [ht] at hpk
      by_cases hfull : maxReplySources ≤ (st.recentReplies now).size ∧ source ∉ (st.recentReplies now).keys
      · rw [if_pos hfull]
        exact .inr (.inl rfl)
      · rw [if_neg hfull]
        have hroom : source ∈ (st.recentReplies now).keys ∨ (st.recentReplies now).size < maxReplySources := by
          by_contra hc
          rw [not_or] at hc
          exact hfull ⟨Nat.le_of_not_lt hc.2, hc.1⟩
        split
        · exact .inr (.inr ⟨rfl, hpk, hroom⟩)
        · exact .inr (.inr ⟨rfl, hpk, hroom⟩)
    · rw [if_neg ht]
      split
      · exact .inr (.inl rfl)
      split
      · exact .inr (.inl rfl)
      split
      · exact .inr (.inl rfl)
      · exact .inr (.inl rfl)

theorem recentReplies_lookup {st : ProbeState} {now : Nat} {s : SocketAddr} {last : Nat} :
    (st.recentReplies now).lookup s = some last ↔
      st.replySources.lookup s = some last ∧ now < last + replyInterval := by
  have hpos : 0 < replyInterval := by decide
  unfold recentReplies durationSince
  rw [FinTable.lookup_retain, Option.filter_eq_some_iff, decide_eq_true_eq]
  refine and_congr_right fun _ => ?_
  omega

/-- The run token is recorded whether or not it is answered, as long as the
source is in the pruned table or the table has room; it is answered when the
source is not in it. -/
theorem packetAction_run (st : ProbeState) (source : SocketAddr) (now : Nat) (jitter : Nat → Nat) :
    st.packetAction (frame st.localToken) source now jitter =
      if source ∈ (st.recentReplies now).keys then
        ({ st with replySources := (st.recentReplies now).insert source now }, .drop)
      else if (st.recentReplies now).size < maxReplySources then
        ({ st with replySources := (st.recentReplies now).insert source now }, .echoAndAdmit)
      else ({ st with replySources := st.recentReplies now }, .drop) := by
  have hparse : parseFrame (frame st.localToken) = some st.localToken := parseFrame_eq_some.mpr rfl
  unfold packetAction
  simp only [hparse, if_true]
  by_cases hin : source ∈ (st.recentReplies now).keys
  · obtain ⟨last, hl⟩ := FinTable.exists_lookup hin
    have hyoung : durationSince now last < replyInterval := by
      have := (recentReplies_lookup.mp hl).2
      have hpos : 0 < replyInterval := by decide
      unfold durationSince
      omega
    simp [hin, hl, hyoung]
  · have hnone := FinTable.lookup_eq_none.mpr hin
    by_cases hroom : (st.recentReplies now).size < maxReplySources
    · simp [hin, hnone, hroom, Nat.not_le.mpr hroom]
    · simp [hin, hroom, Nat.le_of_not_lt hroom]

theorem size_recentReplies_le (st : ProbeState) (now : Nat) :
    (st.recentReplies now).size ≤ st.replySources.size := Finset.card_filter_le _ _

end ProbeState

/-! ## `due_frames` -/

theorem Path.poll_idle {path : Path} {now : Nat} {jitter : Nat → Nat}
    (h : (path.poll now jitter).2 = false) :
    (path.poll now jitter).1 = path ∧ path.timedOut now = false ∧ now < path.nextProbe := by
  unfold Path.poll at h ⊢
  by_cases ht : path.timedOut now = true
  · -- a demotion sets `next_probe` to `now`, so the path is due at once
    simp only [ht, if_true, Path.demote, Nat.lt_irrefl, if_false, Bool.false_eq_true] at h
    cases h
  · simp only [ht, if_false, Bool.false_eq_true] at h ⊢
    by_cases hn : now < path.nextProbe
    · simp [hn]
    · simp only [hn, if_false] at h
      split at h <;> cases h

theorem Path.poll_due {path : Path} {now : Nat} {jitter : Nat → Nat}
    (h : (path.poll now jitter).2 = true) :
    (path.poll now jitter).1.outstanding = some now ∧
      (path.poll now jitter).1.verified = (path.verified && !path.timedOut now) := by
  unfold Path.poll at h ⊢
  by_cases ht : path.timedOut now = true
  · simp [ht, Path.demote]
  · simp only [ht, if_false, Bool.false_eq_true] at h ⊢
    by_cases hn : now < path.nextProbe
    · simp [hn] at h
    · simp only [hn, if_false]
      cases path.verified <;> simp

theorem Path.timedOut_iff (path : Path) (now : Nat) :
    path.timedOut now = true ↔
      path.verified = true ∧ ∃ sent, path.outstanding = some sent ∧ sent + ackTimeout ≤ now := by
  have hpos : 0 < ackTimeout := by decide
  unfold Path.timedOut durationSince
  rw [Bool.and_eq_true, Option.any_eq_true]
  refine and_congr_right fun _ => exists_congr fun sent => and_congr_right fun _ => ?_
  rw [decide_eq_true_eq]
  omega

namespace ProbeState

section
variable {st : ProbeState} {now : Nat} {order : List SocketAddr} {jitter : SocketAddr → Nat → Nat}

@[simp] theorem dueFrames_remoteToken : (st.dueFrames now order jitter).1.remoteToken = st.remoteToken := by
  unfold dueFrames; split <;> rfl

@[simp] theorem dueFrames_localToken : (st.dueFrames now order jitter).1.localToken = st.localToken := by
  unfold dueFrames; split <;> rfl

@[simp] theorem dueFrames_replySources : (st.dueFrames now order jitter).1.replySources = st.replySources := by
  unfold dueFrames; split <;> rfl

theorem dueFrames_keys : (st.dueFrames now order jitter).1.paths.keys = st.paths.keys := by
  unfold dueFrames; split <;> rfl

theorem dueFrames_lookup {t : Token} (ht : st.remoteToken = some t) (s : SocketAddr) :
    (st.dueFrames now order jitter).1.paths.lookup s =
      (st.paths.lookup s).map fun path => (path.poll now (jitter s)).1 := by
  unfold dueFrames
  rw [ht]; rfl

theorem mem_dueFrames {f : Bytes} {s : SocketAddr} (h : (f, s) ∈ (st.dueFrames now order jitter).2) :
    ∃ t path, st.remoteToken = some t ∧ f = frame t ∧ st.paths.lookup s = some path ∧
      (path.poll now (jitter s)).2 = true := by
  unfold dueFrames at h
  split at h
  · cases h
  · rename_i t ht
    obtain ⟨a, _, he⟩ := List.mem_filterMap.mp h
    split at he
    · rename_i hd
      obtain ⟨path, hp, hdue⟩ := Option.any_eq_true _ _ |>.mp hd
      simp only [Option.some.injEq, Prod.mk.injEq] at he
      obtain ⟨rfl, rfl⟩ := he
      exact ⟨t, path, ht, rfl, hp, hdue⟩
    · cases he

theorem dueFrames_emits {t : Token} (ht : st.remoteToken = some t) (ho : Enumerates order st.paths.keys)
    {s : SocketAddr} {path : Path} (hp : st.paths.lookup s = some path)
    (hd : (path.poll now (jitter s)).2 = true) : (frame t, s) ∈ (st.dueFrames now order jitter).2 := by
  unfold dueFrames
  rw [ht]
  refine List.mem_filterMap.mpr ⟨s, ho.mem.mpr (FinTable.mem_keys_of_lookup hp), ?_⟩
  rw [hp, Option.any_some, if_pos hd]

end

end ProbeState

/-! ## One step of the controller -/

theorem probeController_cases {st st' : ProbeState} {e : ProbeOp} {o : ProbeOut}
    (h : probeController.step st e = some (st', o)) :
    (∃ token cands now, e = .updateRemote token cands now ∧ o = .updated ∧
      st' = st.updateRemote token cands now) ∨
    (∃ packet source now jitter, e = .packetAction packet source now jitter ∧
      o = .action (st.packetAction packet source now jitter).2 ∧
      st' = (st.packetAction packet source now jitter).1) ∨
    (∃ now order jitter, e = .dueFrames now order jitter ∧ Enumerates order st.paths.keys ∧
      o = .frames (st.dueFrames now order jitter).2 ∧ st' = (st.dueFrames now order jitter).1) := by
  cases e with
  | updateRemote token cands now =>
    simp only [probeController, Option.some.injEq, Prod.mk.injEq] at h
    exact .inl ⟨token, cands, now, rfl, h.2.symm, h.1.symm⟩
  | packetAction packet source now jitter =>
    simp only [probeController, Option.some.injEq, Prod.mk.injEq] at h
    exact .inr (.inl ⟨packet, source, now, jitter, rfl, h.2.symm, h.1.symm⟩)
  | dueFrames now order jitter =>
    simp only [probeController] at h
    split at h
    · rename_i ho
      simp only [Option.some.injEq, Prod.mk.injEq] at h
      exact .inr (.inr ⟨now, order, jitter, rfl, ho, h.2.symm, h.1.symm⟩)
    · cases h

/-- Only `update_remote` creates and removes paths. -/
theorem probeController_keys {st st' : ProbeState} {e : ProbeOp} {o : ProbeOut}
    (h : probeController.step st e = some (st', o)) (he : ∀ token cands now, e ≠ .updateRemote token cands now) :
    st'.paths.keys = st.paths.keys ∧ st'.remoteToken = st.remoteToken := by
  rcases probeController_cases h with ⟨token, cands, now, hev, _⟩ | ⟨packet, source, now, jitter, _, _, rfl⟩ |
    ⟨now, order, jitter, _, _, _, rfl⟩
  · exact absurd hev (he token cands now)
  · exact ⟨st.packetAction_keys packet source now jitter, (st.packetAction_tokens packet source now jitter).2⟩
  · exact ⟨ProbeState.dueFrames_keys, ProbeState.dueFrames_remoteToken⟩

end P2pTunnler
