import P2pTunnler.ProbeSound

/-!
# How often a probe is echoed

The reply table keeps every echo that is younger than the interval, under
its source. So a source that is echoed again waited for its last echo to
leave the table, and the echoes of a short window are all in it at once.
-/

namespace P2pTunnler

def ProbeOp.now : ProbeOp → Nat
  | .updateRemote _ _ now => now
  | .packetAction _ _ now _ => now
  | .dueFrames now _ _ => now

/-- Source and time of the echo that a step answers, if it answers one. -/
def echoOf (en : ProbeEntry) : Option (SocketAddr × Nat) :=
  match en.event, en.out with
  | .packetAction _ source now _, .action .echoAndAdmit => some (source, now)
  | _, _ => none

def echoes (tr : List ProbeEntry) : List (SocketAddr × Nat) := tr.filterMap echoOf

/-- A clock that never goes back. -/
def Clocked (tr : List ProbeEntry) : Prop := tr.Pairwise fun x y => x.event.now ≤ y.event.now

instance (tr : List ProbeEntry) : Decidable (Clocked tr) := inferInstanceAs (Decidable (List.Pairwise _ _))

theorem echoes_snoc (tr : List ProbeEntry) (en : ProbeEntry) :
    echoes (tr ++ [en]) = echoes tr ++ (echoOf en).toList := by
  unfold echoes
  rw [List.filterMap_append, List.filterMap_cons, List.filterMap_nil]
  cases echoOf en <;> rfl

theorem echoOf_eq_some {en : ProbeEntry} {s : SocketAddr} {t : Nat} : echoOf en = some (s, t) ↔
    ∃ packet jitter, en.event = .packetAction packet s t jitter ∧ en.out = .action .echoAndAdmit := by
  obtain ⟨pre, event, out, post⟩ := en
  constructor
  · intro h
    unfold echoOf at h
    split at h
    · rename_i hev hout
      cases h; exact ⟨_, _, hev, hout⟩
    · cases h
  · rintro ⟨packet, jitter, rfl, rfl⟩
    rfl

theorem mem_echoes {tr : List ProbeEntry} {e : SocketAddr × Nat} (h : e ∈ echoes tr) :
    ∃ x ∈ tr, x.event.now = e.2 := by
  obtain ⟨x, hx, he⟩ := List.mem_filterMap.mp h
  obtain ⟨packet, jitter, hev, _⟩ := echoOf_eq_some.mp he
  exact ⟨x, hx, by rw [hev]; rfl⟩

/-! ## What the table remembers -/

/-- The table has an entry of `s` not older than `t`. -/
def Remembers (st : ProbeState) (s : SocketAddr) (t : Nat) : Prop :=
  ∃ last, st.replySources.lookup s = some last ∧ t ≤ last

section
variable {st st' : ProbeState} {e : ProbeOp} {o : ProbeOut}

theorem Remembers.recent {s : SocketAddr} {t now : Nat} (h : Remembers st s t) (hn : now < t + replyInterval) :
    s ∈ (st.recentReplies now).keys := by
  obtain ⟨last, hl, ht⟩ := h
  exact FinTable.mem_keys_of_lookup (ProbeState.recentReplies_lookup.mpr ⟨hl, by omega⟩)

/-- A step forgets an entry only once the interval has passed. -/
theorem Remembers.step {s : SocketAddr} {t : Nat} (hst : probeController.step st e = some (st', o))
    (h : Remembers st s t) (ht : t ≤ e.now) : Remembers st' s t ∨ t + replyInterval ≤ e.now := by
  by_cases hold : t + replyInterval ≤ e.now
  · exact .inr hold
  refine .inl ?_
  obtain ⟨last, hl, hle⟩ := h
  rcases probeController_cases hst with ⟨token, cands, now, rfl, -, rfl⟩ |
    ⟨packet, source, now, jitter, rfl, -, rfl⟩ | ⟨now, order, jitter, rfl, -, -, rfl⟩
  · exact ⟨last, by rw [ProbeState.updateRemote_replySources]; exact hl, hle⟩
  · simp only [ProbeOp.now] at ht hold
    have hkept : (st.recentReplies now).lookup s = some last :=
      ProbeState.recentReplies_lookup.mpr ⟨hl, by omega⟩
    rcases st.packetAction_replySources packet source now jitter with hr | hr | ⟨hr, _, _⟩
    · exact ⟨last, by rw [hr]; exact hl, hle⟩
    · exact ⟨last, by rw [hr]; exact hkept, hle⟩
    · by_cases hs : s = source
      · exact ⟨now, by rw [hr, FinTable.lookup_insert, if_pos hs], ht⟩
      · exact ⟨last, by rw [hr, FinTable.lookup_insert, if_neg hs]; exact hkept, hle⟩
  · exact ⟨last, by rw [ProbeState.dueFrames_replySources]; exact hl, hle⟩

theorem size_replySources_step (hst : probeController.step st e = some (st', o))
    (h : st.replySources.size ≤ maxReplySources) : st'.replySources.size ≤ maxReplySources := by
  rcases probeController_cases hst with ⟨token, cands, now, rfl, -, rfl⟩ |
    ⟨packet, source, now, jitter, rfl, -, rfl⟩ | ⟨now, order, jitter, rfl, -, -, rfl⟩
  · rw [ProbeState.updateRemote_replySources]; exact h
  · have hrecent := Nat.le_trans (st.size_recentReplies_le now) h
    rcases st.packetAction_replySources packet source now jitter with hr | hr | ⟨hr, _, hroom⟩
    · rw [hr]; exact h
    · rw [hr]; exact hrecent
    · rw [hr]
      rcases hroom with hin | hlt
      · rw [FinTable.size, FinTable.keys_insert, Finset.insert_eq_of_mem hin]; exact hrecent
      · exact Nat.le_trans (Finset.card_insert_le _ _) hlt
  · rw [ProbeState.dueFrames_replySources]; exact h

/-- An echo answers the run token, from a source that is not in the pruned table, which has room. -/
theorem echo_step {en : ProbeEntry} {s : SocketAddr} {t : Nat}
    (hst : probeController.step en.pre en.event = some (en.post, en.out)) (he : echoOf en = some (s, t)) :
    (∃ packet jitter, en.event = .packetAction packet s t jitter ∧ packet = frame en.pre.localToken) ∧
      s ∉ (en.pre.recentReplies t).keys ∧ (en.pre.recentReplies t).size < maxReplySources ∧
      Remembers en.post s t := by
  obtain ⟨packet, jitter, hev, hout⟩ := echoOf_eq_some.mp he
  rw [hev, hout] at hst
  simp only [probeController, Option.some.injEq, Prod.mk.injEq, ProbeOut.action.injEq] at hst
  rcases en.pre.packetAction_cases packet s t jitter with ⟨ha, _⟩ | ⟨_, hpk, hnot, hlt, hpost⟩ | ⟨ha, _⟩
  · rw [ha] at hst; cases hst.2
  · refine ⟨⟨packet, jitter, hev, hpk⟩, hnot, hlt, t, ?_, Nat.le_refl _⟩
    rw [← hst.1, hpost, FinTable.lookup_insert, if_pos rfl]
  · rw [ha] at hst; cases hst.2

end

/-! ## Runs -/

/-- The echoes of the window from `lo` to `hi`, both included. -/
def echoesIn (lo hi : Nat) (tr : List ProbeEntry) : List (SocketAddr × Nat) :=
  (echoes tr).filter fun e => lo ≤ e.2 ∧ e.2 ≤ hi

structure ReplyInv (tr : List ProbeEntry) (st : ProbeState) : Prop where
  remembered : ∀ e ∈ echoes tr, Remembers st e.1 e.2 ∨ ∃ x ∈ tr, e.2 + replyInterval ≤ x.event.now
  apart : (echoes tr).Pairwise fun e f => e.1 = f.1 → e.2 + replyInterval ≤ f.2
  window : ∀ lo hi, hi < lo + replyInterval → (echoesIn lo hi tr).length ≤ maxReplySources
  size : st.replySources.size ≤ maxReplySources

theorem replyInv_new (tok : Token) : ReplyInv [] (.new tok) where
  remembered e he := by cases he
  apart := .nil
  window _ _ _ := Nat.zero_le _
  size := Nat.zero_le _

section
variable {tr : List ProbeEntry} {st st' : ProbeState} {e : ProbeOp} {o : ProbeOut} {now : Nat}

/-- An echo that the interval has not outlived is still in the pruned table. -/
theorem ReplyInv.recent (hI : ReplyInv tr st) (hnow : ∀ x ∈ tr, x.event.now ≤ now) {f : SocketAddr × Nat}
    (hf : f ∈ echoes tr) (hy : now < f.2 + replyInterval) : f.1 ∈ (st.recentReplies now).keys := by
  rcases hI.remembered f hf with hm | ⟨x, hx, hold⟩
  · exact hm.recent hy
  · have := hnow x hx
    omega

/-- The echoes of a short window have different sources. -/
theorem ReplyInv.sources_nodup (hI : ReplyInv tr st) {lo hi : Nat} (hw : hi < lo + replyInterval) :
    ((echoesIn lo hi tr).map Prod.fst).Nodup := by
  rw [List.Nodup, List.pairwise_map]
  unfold echoesIn
  rw [List.pairwise_filter]
  refine hI.apart.imp ?_
  intro f g h hf hg heq
  simp only [decide_eq_true_eq] at hf hg
  have := h heq
  omega

/-- With room in the pruned table, one more echo fits into every short window that reaches `now`. -/
theorem ReplyInv.window_lt (hI : ReplyInv tr st) {lo hi : Nat} (hnow : ∀ x ∈ tr, x.event.now ≤ now)
    (hw : hi < lo + replyInterval) (hin : now ≤ hi) (hlt : (st.recentReplies now).size < maxReplySources) :
    (echoesIn lo hi tr).length < maxReplySources := by
  have hsub : ((echoesIn lo hi tr).map Prod.fst).toFinset ⊆ (st.recentReplies now).keys := by
    intro s hs
    obtain ⟨f, hf, rfl⟩ := List.mem_map.mp (List.mem_toFinset.mp hs)
    obtain ⟨hmem, hwin⟩ := List.mem_filter.mp hf
    simp only [decide_eq_true_eq] at hwin
    exact hI.recent hnow hmem (by omega)
  calc (echoesIn lo hi tr).length = ((echoesIn lo hi tr).map Prod.fst).toFinset.card := by
        rw [List.toFinset_card_of_nodup (hI.sources_nodup hw), List.length_map]
    _ ≤ (st.recentReplies now).size := Finset.card_le_card hsub
    _ < maxReplySources := hlt

theorem ReplyInv.kept (hI : ReplyInv tr st) (hst : probeController.step st e = some (st', o))
    (hnow : ∀ x ∈ tr, x.event.now ≤ e.now) {f : SocketAddr × Nat} (hf : f ∈ echoes tr) :
    Remembers st' f.1 f.2 ∨ ∃ x ∈ tr ++ [⟨st, e, o, st'⟩], f.2 + replyInterval ≤ x.event.now := by
  rcases hI.remembered f hf with hm | ⟨x, hx, hold⟩
  · obtain ⟨y, hy, hyt⟩ := mem_echoes hf
    rcases hm.step hst (hyt ▸ hnow y hy) with hm' | hold
    · exact .inl hm'
    · exact .inr ⟨⟨st, e, o, st'⟩, by simp, hold⟩
  · exact .inr ⟨x, by simp [hx], hold⟩

theorem ReplyInv.quiet (hI : ReplyInv tr st) (hst : probeController.step st e = some (st', o))
    (hnow : ∀ x ∈ tr, x.event.now ≤ e.now) (he : echoOf ⟨st, e, o, st'⟩ = none) :
    ReplyInv (tr ++ [⟨st, e, o, st'⟩]) st' := by
  have hsame : echoes (tr ++ [⟨st, e, o, st'⟩]) = echoes tr := by
    rw [echoes_snoc, he, Option.toList_none, List.append_nil]
  refine ⟨?_, ?_, ?_, size_replySources_step hst hI.size⟩
  · rw [hsame]
    intro f hf
    exact hI.kept hst hnow hf
  · rw [hsame]; exact hI.apart
  · intro lo hi hw
    unfold echoesIn
    rw [hsame]
    exact hI.window lo hi hw

theorem ReplyInv.echo (hI : ReplyInv tr st) (hst : probeController.step st e = some (st', o))
    (hnow : ∀ x ∈ tr, x.event.now ≤ e.now) {s : SocketAddr} {t : Nat} (he : echoOf ⟨st, e, o, st'⟩ = some (s, t)) :
    ReplyInv (tr ++ [⟨st, e, o, st'⟩]) st' := by
  obtain ⟨⟨packet, jitter, hev, _⟩, hnot, hlt, hrem⟩ := echo_step hst he
  obtain rfl : t = e.now := by rw [show e = _ from hev]; rfl
  have hsnoc : echoes (tr ++ [⟨st, e, o, st'⟩]) = echoes tr ++ [(s, e.now)] := by rw [echoes_snoc, he]; rfl
  refine ⟨?_, ?_, ?_, size_replySources_step hst hI.size⟩
  · rw [hsnoc]
    intro f hf
    rcases List.mem_append.mp hf with hf | hf
    · exact hI.kept hst hnow hf
    · rw [List.mem_singleton.mp hf]
      exact .inl hrem
  · rw [hsnoc, List.pairwise_append]
    refine ⟨hI.apart, List.pairwise_singleton _ _, ?_⟩
    intro f hf g hg heq
    obtain rfl : g = (s, e.now) := List.mem_singleton.mp hg
    obtain rfl : f.1 = s := heq
    -- younger than the interval, it would still be in the table
    by_contra hyoung
    exact hnot (hI.recent hnow hf (Nat.lt_of_not_le hyoung))
  · intro lo hi hw
    by_cases hin : lo ≤ e.now ∧ e.now ≤ hi
    · have hfit := hI.window_lt hnow hw hin.2 hlt
      unfold echoesIn at hfit ⊢
      rw [hsnoc, List.filter_append, List.filter_cons_of_pos (by simpa using hin), List.filter_nil,
        List.length_append, List.length_singleton]
      exact hfit
    · unfold echoesIn
      rw [hsnoc, List.filter_append, List.filter_cons_of_neg (by simpa using hin), List.filter_nil, List.append_nil]
      exact hI.window lo hi hw

end

theorem replyInv_run {tok : Token} {tr : List ProbeEntry} {st : ProbeState}
    (hr : probeController.Run (.new tok) tr st) (hc : Clocked tr) : ReplyInv tr st := by
  induction hr with
  | nil => exact replyInv_new tok
  | @snoc tr st e o st' hr hst ih =>
    obtain ⟨hpre, -, hlast⟩ := List.pairwise_append.mp hc
    have hnow : ∀ x ∈ tr, x.event.now ≤ e.now := fun x hx => hlast x hx ⟨st, e, o, st'⟩ (by simp)
    cases he : echoOf ⟨st, e, o, st'⟩ with
    | none => exact (ih hpre).quiet hst hnow he
    | some f => exact (ih hpre).echo hst hnow he

/-- **Reflection bound.** Two echoes to one source are an interval apart, a
shorter window has at most 256 echoes over all sources, the reply table never
holds more than 256 of them, and only the run token is echoed. -/
theorem reflection_bounded {tok : Token} {tr : List ProbeEntry} {st : ProbeState}
    (hr : probeController.Run (.new tok) tr st) (hc : Clocked tr) :
    ((echoes tr).Pairwise fun e f => e.1 = f.1 → e.2 + replyInterval ≤ f.2) ∧
    (∀ lo hi, hi < lo + replyInterval →
      ((echoes tr).filter fun e => lo ≤ e.2 ∧ e.2 ≤ hi).length ≤ maxReplySources) ∧
    (st.replySources.size ≤ maxReplySources ∧ ∀ en ∈ tr, en.pre.replySources.size ≤ maxReplySources) ∧
    ∀ en ∈ tr, ∀ packet s now jitter, en.event = .packetAction packet s now jitter →
      en.out = .action .echoAndAdmit → packet = frame tok ∧ packet.length = frameLen := by
  have hI := replyInv_run hr hc
  refine ⟨hI.apart, hI.window, ⟨hI.size, ?_⟩, ?_⟩
  · intro en hen
    obtain ⟨a, b, rfl⟩ := List.append_of_mem hen
    exact (replyInv_run hr.split.1 (List.pairwise_append.mp hc).1).size
  · intro en hen packet s now jitter hev hout
    obtain ⟨a, b, rfl⟩ := List.append_of_mem hen
    obtain ⟨hpre, hst⟩ := hr.split
    obtain ⟨⟨packet', jitter', hev', hpk⟩, _⟩ := echo_step hst (echoOf_eq_some.mpr ⟨packet, jitter, hev, hout⟩)
    obtain rfl : packet' = packet := by rw [hev] at hev'; cases hev'; rfl
    rw [(probeInv_run hpre s).localToken] at hpk
    exact ⟨hpk, by rw [hpk]; exact length_frame tok⟩

/-- Two sources, one of them too early the second time. -/
def reflection : List ProbeOp :=
  [.packetAction (frame (.fill 7)) (.testNet 1 10000) 0 id,
    .packetAction (frame (.fill 7)) (.testNet 2 10000) 1 id,
    .packetAction (frame (.fill 7)) (.testNet 1 10000) (secs 1 - 1) id,
    .packetAction (frame (.fill 7)) (.testNet 2 10000) (secs 1 + 1) id]

theorem reflection_runs : (probeController.exec (.new (.fill 7)) reflection).isSome = true := by decide

theorem reflection_apart : ∃ tr st, probeController.Run (.new (.fill 7)) tr st ∧ Clocked tr ∧
    echoes tr = [(.testNet 1 10000, 0), (.testNet 2 10000, 1), (.testNet 2 10000, secs 1 + 1)] ∧
    (echoes tr).Pairwise fun e f => e.1 = f.1 → e.2 + replyInterval ≤ f.2 :=
  ⟨_, _, Machine.run_of_exec reflection_runs, by decide, by decide,
    (reflection_bounded (Machine.run_of_exec reflection_runs) (by decide)).1⟩

/-! ## Who is answered

A frame that the rate limit drops is recorded like one that is answered, so
it puts off the next answer too.
-/

/-- The step drops the run token from `s` because `s` has an entry younger than the interval. -/
def Suppresses (s : SocketAddr) (en : ProbeEntry) : Prop :=
  ∃ jitter, en.event = .packetAction (frame en.pre.localToken) s en.event.now jitter ∧
    s ∈ (en.pre.recentReplies en.event.now).keys

/-- The step records `s` in the reply table. -/
def Records (s : SocketAddr) (en : ProbeEntry) : Prop := echoOf en = some (s, en.event.now) ∨ Suppresses s en

structure StampInv (tr : List ProbeEntry) (st : ProbeState) : Prop where
  origin : ∀ s last, st.replySources.lookup s = some last → ∃ x ∈ tr, x.event.now = last ∧ Records s x
  kept : ∀ s, ∀ x ∈ tr, Suppresses s x →
    Remembers st s x.event.now ∨ ∃ y ∈ tr, x.event.now + replyInterval ≤ y.event.now

section
variable {tr : List ProbeEntry} {st st' : ProbeState} {e : ProbeOp} {o : ProbeOut}

theorem Suppresses.remembers {s : SocketAddr} (hst : probeController.step st e = some (st', o))
    (h : Suppresses s ⟨st, e, o, st'⟩) : Remembers st' s e.now := by
  obtain ⟨jitter, hev, hin⟩ := h
  simp only at hev hin
  rw [hev] at hst
  simp only [probeController, st.packetAction_run, hin, if_true, Option.some.injEq, Prod.mk.injEq] at hst
  refine ⟨e.now, ?_, Nat.le_refl _⟩
  rw [← hst.1, FinTable.lookup_insert, if_pos rfl]

/-- An entry that is new after a step is recorded by it. -/
theorem recorded_step {s : SocketAddr} {last : Nat} (hst : probeController.step st e = some (st', o))
    (hl : st'.replySources.lookup s = some last) :
    st.replySources.lookup s = some last ∨ last = e.now ∧ Records s ⟨st, e, o, st'⟩ := by
  rcases probeController_cases hst with ⟨token, cands, now, rfl, -, rfl⟩ |
    ⟨packet, source, now, jitter, rfl, rfl, rfl⟩ | ⟨now, order, jitter, rfl, -, -, rfl⟩
  · rw [ProbeState.updateRemote_replySources] at hl
    exact .inl hl
  · rcases st.packetAction_replySources packet source now jitter with hr | hr | ⟨hr, hpk, hroom⟩
    · rw [hr] at hl
      exact .inl hl
    · rw [hr] at hl
      exact .inl (ProbeState.recentReplies_lookup.mp hl).1
    · rw [hr, FinTable.lookup_insert] at hl
      by_cases hs : s = source
      · subst hs
        rw [if_pos rfl] at hl
        refine .inr ⟨(Option.some.inj hl).symm, ?_⟩
        by_cases hin : s ∈ (st.recentReplies now).keys
        · exact .inr ⟨jitter, by rw [hpk]; rfl, hin⟩
        · have hlt := hroom.resolve_left hin
          refine .inl (echoOf_eq_some.mpr ⟨packet, jitter, rfl, ?_⟩)
          simp [hpk, st.packetAction_run, hin, hlt]
      · rw [if_neg hs] at hl
        exact .inl (ProbeState.recentReplies_lookup.mp hl).1
  · rw [ProbeState.dueFrames_replySources] at hl
    exact .inl hl

theorem stampInv_step (hI : StampInv tr st) (hst : probeController.step st e = some (st', o))
    (hnow : ∀ x ∈ tr, x.event.now ≤ e.now) : StampInv (tr ++ [⟨st, e, o, st'⟩]) st' := by
  constructor
  · intro s last hl
    rcases recorded_step hst hl with hold | ⟨rfl, hrec⟩
    · obtain ⟨x, hx, hxl, hrec⟩ := hI.origin s last hold
      exact ⟨x, List.mem_append_left _ hx, hxl, hrec⟩
    · exact ⟨_, List.mem_append_right _ (List.mem_singleton.mpr rfl), rfl, hrec⟩
  · intro s x hx hsup
    rcases List.mem_append.mp hx with hx | hx
    · rcases hI.kept s x hx hsup with hm | ⟨y, hy, hold⟩
      · rcases hm.step hst (hnow x hx) with hm' | hold
        · exact .inl hm'
        · exact .inr ⟨_, List.mem_append_right _ (List.mem_singleton.mpr rfl), hold⟩
      · exact .inr ⟨y, List.mem_append_left _ hy, hold⟩
    · rw [List.mem_singleton] at hx
      subst hx
      exact .inl (hsup.remembers hst)

end

theorem stampInv_run {tok : Token} {tr : List ProbeEntry} {st : ProbeState}
    (hr : probeController.Run (.new tok) tr st) (hc : Clocked tr) : StampInv tr st := by
  induction hr with
  | nil => exact ⟨fun _ _ h => (by cases h), fun _ _ h => (by cases h)⟩
  | @snoc tr st e o st' hr hst ih =>
    obtain ⟨hpre, -, hlast⟩ := List.pairwise_append.mp hc
    apply stampInv_step (ih hpre) hst
    intro x hx
    exact hlast x hx ⟨st, e, o, st'⟩ (by simp)

/-- The run token comes from `s` at `t`, with no echo to `s` in the last
interval and fewer than 256 other sources recorded in it. -/
structure Deserves (a : List ProbeEntry) (en : ProbeEntry) (s : SocketAddr) (t : Nat) : Prop where
  received : ∃ jitter, en.event = .packetAction (frame en.pre.localToken) s t jitter
  quiet : ∀ e ∈ echoes a, e.1 = s → e.2 + replyInterval ≤ t
  room : ((en.pre.recentReplies t).keys.erase s).card < maxReplySources

/-- Every frame that deserves an answer gets one. -/
def NeverStarves (tr : List ProbeEntry) : Prop :=
  ∀ a en b s t, tr = a ++ en :: b → Deserves a en s t → en.out = .action .echoAndAdmit

/-- A source is in the pruned table exactly if an earlier frame of it was
dropped by the rate limit in the last interval, when none was echoed in it. -/
theorem StampInv.recent_iff {a : List ProbeEntry} {st : ProbeState} (hI : StampInv a st) {s : SocketAddr} {t : Nat}
    (hnow : ∀ x ∈ a, x.event.now ≤ t) (hquiet : ∀ e ∈ echoes a, e.1 = s → e.2 + replyInterval ≤ t) :
    s ∉ (st.recentReplies t).keys ↔ ∀ x ∈ a, Suppresses s x → x.event.now + replyInterval ≤ t := by
  constructor
  · intro hnot x hx hsup
    rcases hI.kept s x hx hsup with hm | ⟨y, hy, hold⟩
    · by_contra hyoung
      exact hnot (hm.recent (Nat.lt_of_not_le hyoung))
    · exact Nat.le_trans hold (hnow y hy)
  · intro hold hin
    obtain ⟨last, hl⟩ := FinTable.exists_lookup hin
    obtain ⟨hlast, hyoung⟩ := ProbeState.recentReplies_lookup.mp hl
    obtain ⟨x, hx, rfl, hecho | hsup⟩ := hI.origin s last hlast
    · have hmem : (s, x.event.now) ∈ echoes a := List.mem_filterMap.mpr ⟨x, hx, hecho⟩
      have := hquiet _ hmem rfl
      omega
    · have := hold x hx hsup
      omega

/-- **Who is starved.** In every run, a frame that deserves an answer gets
one exactly if no earlier frame of its source was itself dropped by the rate
limit within the last interval. -/
theorem answered_iff {tok : Token} {tr : List ProbeEntry} {st : ProbeState}
    (hr : probeController.Run (.new tok) tr st) (hc : Clocked tr) {a b : List ProbeEntry} {en : ProbeEntry}
    (htr : tr = a ++ en :: b) {s : SocketAddr} {t : Nat} (h : Deserves a en s t) :
    en.out = .action .echoAndAdmit ↔ ∀ x ∈ a, Suppresses s x → x.event.now + replyInterval ≤ t := by
  subst htr
  obtain ⟨hpre, hst⟩ := hr.split
  obtain ⟨hca, -, hafter⟩ := List.pairwise_append.mp hc
  obtain ⟨jitter, hev⟩ := h.received
  have hnow : ∀ x ∈ a, x.event.now ≤ t := by
    intro x hx
    have := hafter x hx en (by simp)
    rw [hev] at this
    exact this
  rw [← (stampInv_run hpre hca).recent_iff hnow h.quiet]
  rw [hev] at hst
  simp only [probeController, en.pre.packetAction_run, Option.some.injEq, Prod.mk.injEq] at hst
  rw [← hst.2]
  by_cases hin : s ∈ (en.pre.recentReplies t).keys
  · simp [hin]
  · have hroom : (en.pre.recentReplies t).size < maxReplySources := by
      have := h.room
      rw [Finset.erase_eq_of_notMem hin] at this
      exact this
    simp [hin, hroom]

/-- The run token from one source, in the state `st`. -/
def knock (st : ProbeState) (now : Nat) : ProbeEntry :=
  ⟨st, .packetAction (frame (.fill 7)) (.testNet 1 10000) now id,
    .action (st.packetAction (frame (.fill 7)) (.testNet 1 10000) now id).2,
    (st.packetAction (frame (.fill 7)) (.testNet 1 10000) now id).1⟩

theorem run_knock {tr : List ProbeEntry} {st : ProbeState} (hr : probeController.Run (.new (.fill 7)) tr st)
    (now : Nat) : probeController.Run (.new (.fill 7)) (tr ++ [knock st now]) (knock st now).post := .snoc hr rfl

def firstKnock : ProbeEntry := knock (.new (.fill 7)) 0

def secondKnock (now : Nat) : ProbeEntry := knock firstKnock.post now

theorem secondKnock_answered : Deserves [firstKnock] (secondKnock 1200000000) (.testNet 1 10000) 1200000000 ∧
    (secondKnock 1200000000).out = .action .echoAndAdmit := by
  have hd : Deserves [firstKnock] (secondKnock 1200000000) (.testNet 1 10000) 1200000000 :=
    ⟨⟨id, rfl⟩, by decide, by decide⟩
  refine ⟨hd, (answered_iff (run_knock (run_knock .nil 0) 1200000000) (by decide) rfl hd).mpr ?_⟩
  intro x hx _
  rw [List.mem_singleton.mp hx]
  decide

/-- A source that asked in between is not answered although its last answer is more than an interval ago. -/
theorem knocks_starved :
    ¬ ∀ tr st, probeController.Run (.new (.fill 7)) tr st → Clocked tr → NeverStarves tr := by
  intro h
  have hall := h _ _ (run_knock (run_knock (run_knock .nil 0) 600000000) 1200000000) (by decide)
  have hecho := hall _ _ [] (.testNet 1 10000) 1200000000 rfl ⟨⟨id, rfl⟩, by decide, by decide⟩
  revert hecho
  decide

end P2pTunnler
