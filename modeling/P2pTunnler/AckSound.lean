import P2pTunnler.HandshakeSound
import P2pTunnler.ScheduleSound
import Mathlib.Data.Finset.Lattice.Fold

/-!
# A round trip verifies its path

Once a probe has left on a path, the path has a probe under way or is
verified, however the schedule, lost frames and later records go on, as long
as the records keep the token and the address. So the first frame that comes
back verifies it; and no run ends up in a state from which this cannot happen.
-/

namespace P2pTunnler

open Finset (Enumerates)
open Machine (Since)
open ProbeState (selected)

/-! ## A probed path -/

/-- A probe is under way on the path to `a`, or the path is verified. -/
structure Probed (t : Token) (a : SocketAddr) (st : ProbeState) : Prop where
  remote : st.remoteToken = some t
  path : ∃ path, st.paths.lookup a = some path ∧ (path.outstanding.isSome = true ∨ path.verified = true)

section
variable {t : Token} {a : SocketAddr} {st : ProbeState} {now : Nat} {order : List SocketAddr}
  {jitter : SocketAddr → Nat → Nat}

theorem poll_of_due {path : Path} {j : Nat → Nat} (h : path.nextProbe ≤ now) : (path.poll now j).2 = true := by
  by_contra hidle
  have := (Path.poll_idle (Bool.eq_false_iff.mpr hidle)).2.2
  omega

theorem probed_of_due (ht : st.remoteToken = some t) {path : Path} (hp : st.paths.lookup a = some path)
    (hd : (path.poll now (jitter a)).2 = true) : Probed t a (st.dueFrames now order jitter).1 where
  remote := by rw [ProbeState.dueFrames_remoteToken, ht]
  path := by
    refine ⟨(path.poll now (jitter a)).1, ?_, .inl ?_⟩
    · rw [ProbeState.dueFrames_lookup ht, hp]
      rfl
    · rw [(Path.poll_due hd).1]
      rfl

theorem Probed.dueFrames (h : Probed t a st) : Probed t a (st.dueFrames now order jitter).1 := by
  obtain ⟨path, hp, hstate⟩ := h.path
  cases hd : (path.poll now (jitter a)).2 with
  | true => exact probed_of_due h.remote hp hd
  | false =>
    refine ⟨by rw [ProbeState.dueFrames_remoteToken, h.remote], path, ?_, hstate⟩
    rw [ProbeState.dueFrames_lookup h.remote, hp, Option.map_some, (Path.poll_idle hd).1]

theorem Probed.packetAction (h : Probed t a st) (packet : Bytes) (source : SocketAddr) (now : Nat) (j : Nat → Nat) :
    Probed t a (st.packetAction packet source now j).1 := by
  refine ⟨by rw [(st.packetAction_tokens _ _ _ _).2, h.remote], ?_⟩
  rcases st.packetAction_cases packet source now j with ⟨-, rs, he⟩ | ⟨-, -, -, -, he⟩ |
    ⟨-, u, path, -, -, -, -, -, he⟩
  · rw [he]
    exact h.path
  · rw [he]
    exact h.path
  · rw [he]
    simp only [FinTable.lookup_insert]
    by_cases ha : a = source
    · rw [if_pos ha]
      exact ⟨_, rfl, .inr rfl⟩
    · rw [if_neg ha]
      exact h.path

theorem Probed.updateRemote (h : Probed t a st) {cands : List SocketAddr} (ha : a ∈ selected cands) (now : Nat) :
    Probed t a (st.updateRemote (some t) cands now) := by
  obtain ⟨path, hp, hstate⟩ := h.path
  refine ⟨ProbeState.updateRemote_remoteToken _ _ _ _, path, ?_, hstate⟩
  rw [ProbeState.updateRemote_lookup]
  simp [ha, h.remote, hp]

/-- The remote token from a probed address leaves the path verified. -/
theorem Probed.verified (h : Probed t a st) (hne : t ≠ st.localToken) (now : Nat) (j : Nat → Nat) :
    VerifiedAt a (st.packetAction (frame t) a now j).1 := by
  obtain ⟨path, hp, hstate⟩ := h.path
  rcases st.packetAction_cases (frame t) a now j with ⟨hdrop, rs, he⟩ | ⟨-, hf, -⟩ | ⟨-, u, path', -, -, -, -, -, he⟩
  · -- dropped because no probe is under way: the path was verified before
    have hnone : path.outstanding.isSome = false := by
      by_contra ho
      rw [st.packetAction_acknowledges h.remote hne hp (Bool.eq_true_of_not_eq_false ho)] at hdrop
      cases hdrop
    rw [he]
    exact ⟨path, hp, hstate.resolve_left (by simp [hnone])⟩
  · exact absurd (frame_injective hf) hne
  · rw [he]
    exact ⟨_, (FinTable.lookup_insert _ _ _ _).trans (if_pos rfl), rfl⟩

end

/-! ## The network -/

section
variable {ι : Type} [DecidableEq ι] {addr : ι → SocketAddr} {tok : ι → Token} {peer : ι → ι} {st st' : NetState ι}
  {e : NetEvent ι} {o : Option PacketAction} {tr : List (NetEntry ι)} {i : ι} {t : Token} {a : SocketAddr}

/-- `i` sends a probe to `a`. -/
def ProbesTo (i : ι) (a : SocketAddr) (en : NetEntry ι) : Prop := ∃ f, EmitsFrame en f ∧ f.src = i ∧ f.dst = a

/-- A record that comes in names the token `t` and the address `a` again. -/
def RetainsPath (i : ι) (t : Token) (a : SocketAddr) (en : NetEntry ι) : Prop :=
  ∀ token cands now, en.event = .updateRemote i token cands now → token = some t ∧ a ∈ selected cands

theorem Probed.net (h : Probed t a (st.ctl i)) (hst : (network addr).step st e = some (st', o))
    (hk : RetainsPath i t a ⟨st, e, o, st'⟩) : Probed t a (st'.ctl i) := by
  rcases network_cases hst with ⟨j, token, cands, now, rfl, rfl, rfl⟩ | ⟨j, now, order, jitter, rfl, -, rfl, rfl⟩ |
    ⟨n, j, now, jitter, f, rfl, -, -, rfl, rfl⟩ | ⟨n, rfl, rfl, rfl⟩
  · by_cases hj : i = j
    · subst hj
      obtain ⟨rfl, ha⟩ := hk token cands now rfl
      rw [NetState.send_same]
      exact h.updateRemote ha now
    · rwa [NetState.send_other hj]
  · by_cases hj : i = j
    · subst hj
      rw [NetState.send_same]
      exact h.dueFrames
    · rwa [NetState.send_other hj]
  · by_cases hj : i = j
    · subst hj
      rw [NetState.send_same]
      exact h.packetAction _ _ _ _
    · rwa [NetState.send_other hj]
  · exact h

theorem probed_of_emits (hst : (network addr).step st e = some (st', o)) (hp : ProbesTo i a ⟨st, e, o, st'⟩) :
    ∃ t, (st.ctl i).remoteToken = some t ∧ Probed t a (st'.ctl i) := by
  obtain ⟨f, ⟨now, order, jitter, hev, hmem⟩, rfl, rfl⟩ := hp
  obtain ⟨t, path, ht, -, hl, hd⟩ := ProbeState.mem_dueFrames hmem
  refine ⟨t, ht, ?_⟩
  rcases network_cases hst with ⟨_, _, _, _, he, _⟩ | ⟨j, now', order', jitter', he, -, -, rfl⟩ |
    ⟨_, _, _, _, _, he, _⟩ | ⟨_, he, _⟩
  · cases he.symm.trans hev
  · cases he.symm.trans hev
    rw [NetState.send_same]
    exact probed_of_due ht hl hd
  · cases he.symm.trans hev
  · cases he.symm.trans hev

/-- Since the probe, records have kept its path. -/
theorem probed_since (hadr : Function.Injective addr) (htok : Function.Injective tok) (hself : ∀ i, peer i ≠ i)
    (hr : (network addr).Run (NetState.new tok) tr st) (hC : ∀ en ∈ tr, Paired tok peer en)
    (hs : Since (ProbesTo i a) (RetainsPath i (tok (peer i)) a) tr) : Probed (tok (peer i)) a (st.ctl i) := by
  induction hr with
  | nil =>
    obtain ⟨x, y, z, he, -⟩ := hs
    simp at he
  | snoc hr hst ih =>
    have hC' := fun en hen => hC en (List.mem_append_left _ hen)
    rcases Machine.since_snoc.mp hs with hp | ⟨hk, hs⟩
    · obtain ⟨t, ht, hprobed⟩ := probed_of_emits hst hp
      rwa [(flightInv_run hadr htok hself hr hC').2.remote _ _ ht] at hprobed
    · exact (ih hC' hs).net hst hk

/-! ## Completing a handshake -/

omit [DecidableEq ι] in
theorem exists_reply_bound (st : ProbeState) : ∃ T, ∀ now, T ≤ now → (st.recentReplies now).keys = ∅ := by
  refine ⟨st.replySources.keys.sup (fun s => (st.replySources.lookup s).getD 0 + replyInterval), ?_⟩
  intro now hT
  refine Finset.eq_empty_of_forall_notMem fun s hs => ?_
  obtain ⟨last, hl⟩ := FinTable.exists_lookup hs
  obtain ⟨hlast, hlt⟩ := ProbeState.recentReplies_lookup.mp hl
  have hle := Finset.le_sup (f := fun s => (st.replySources.lookup s).getD 0 + replyInterval)
    (FinTable.mem_keys_of_lookup hlast)
  simp only [hlast, Option.getD_some] at hle
  omega

theorem exists_probe {path : Path} {now : Nat} (ht : (st.ctl i).remoteToken = some t)
    (hl : (st.ctl i).paths.lookup a = some path) (hnow : path.nextProbe ≤ now) (jitter : SocketAddr → Nat → Nat) :
    ∃ order, ∃ n : Nat, ∃ st', (network addr).step st (.dueFrames i now order jitter) = some (st', none) ∧
      st'.inFlight[n]? = some ⟨i, a, frame t, .due⟩ ∧ Probed t a (st'.ctl i) ∧
      (st'.ctl i).localToken = (st.ctl i).localToken ∧ ∀ j, j ≠ i → st'.ctl j = st.ctl j := by
  let order := (st.ctl i).paths.keys.toList
  have ho : Enumerates order (st.ctl i).paths.keys := ⟨Finset.nodup_toList _, Finset.toList_toFinset _⟩
  have hdue : (path.poll now (jitter a)).2 = true := poll_of_due hnow
  have hmem := ProbeState.dueFrames_emits ht ho hl hdue
  have hflight : (⟨i, a, frame t, .due⟩ : SentFrame ι) ∈ st.inFlight ++
      ((st.ctl i).dueFrames now order jitter).2.map fun f => ⟨i, f.2, f.1, .due⟩ :=
    List.mem_append_right _ (List.mem_map.mpr ⟨_, hmem, rfl⟩)
  obtain ⟨n, hn⟩ := List.mem_iff_getElem?.mp hflight
  refine ⟨order, n, _, by simp only [network, if_pos ho]; rfl, hn, ?_, ?_, fun j hj => NetState.send_other hj _ _ _⟩
  · rw [NetState.send_same]
    exact probed_of_due ht hl hdue
  · rw [NetState.send_same, ProbeState.dueFrames_localToken]

/-- The peer echoes a probe when its reply table has nothing recent. -/
theorem exists_echo {j : ι} {f : SentFrame ι} {n now : Nat} (hf : st.inFlight[n]? = some f)
    (hd : f.dst = addr j) (hp : f.packet = frame (st.ctl j).localToken)
    (hidle : ((st.ctl j).recentReplies now).keys = ∅) (jitter : Nat → Nat) :
    ∃ m : Nat, ∃ st', (network addr).step st (.deliver n j now jitter) = some (st', some .echoAndAdmit) ∧
      st'.inFlight[m]? = some ⟨j, addr f.src, f.packet, .echo⟩ ∧ ∀ k, k ≠ j → st'.ctl k = st.ctl k := by
  have hroom : ((st.ctl j).recentReplies now).size < maxReplySources := by
    rw [FinTable.size, hidle]
    decide
  have haction := (st.ctl j).packetAction_run (addr f.src) now jitter
  rw [if_neg (by rw [hidle]; simp), if_pos hroom, ← hp] at haction
  let ctl := { st.ctl j with replySources := ((st.ctl j).recentReplies now).insert (addr f.src) now }
  refine ⟨st.inFlight.length, st.send j ctl [⟨j, addr f.src, f.packet, .echo⟩], ?_, by simp [NetState.send],
    fun k hk => NetState.send_other hk _ _ _⟩
  simp only [network, hf, if_pos hd, NetState.deliver, haction]
  rfl

theorem deliver_step {f : SentFrame ι} {n : Nat} (hf : st.inFlight[n]? = some f) (hd : f.dst = addr i) (now : Nat)
    (jitter : Nat → Nat) : ∃ st' o, (network addr).step st (.deliver n i now jitter) = some (st', o) ∧
      st'.ctl i = ((st.ctl i).packetAction f.packet (addr f.src) now jitter).1 := by
  simp only [network, hf, if_pos hd]
  refine ⟨_, _, rfl, ?_⟩
  unfold NetState.deliver
  rcases (st.ctl i).packetAction_cases f.packet (addr f.src) now jitter with ⟨ha, -⟩ | ⟨ha, -⟩ | ⟨ha, -⟩ <;>
    simp [ha]

/-- A probe at `now₁`, its echo at `now₂` and the return of the echo at `now₃` are enough. -/
def Completes (addr : ι → SocketAddr) (peer : ι → ι) (st : NetState ι) (i : ι) (now₁ now₂ now₃ : Nat) : Prop :=
  ∀ jitter₁ jitter₂ jitter₃, ∃ order n m tr st', (network addr).Run st tr st' ∧
    tr.map Machine.Entry.event =
      [.dueFrames i now₁ order jitter₁, .deliver n (peer i) now₂ jitter₂, .deliver m i now₃ jitter₃] ∧
    VerifiedAt (addr (peer i)) (st'.ctl i)

theorem exists_completes (hself : peer i ≠ i) (hloc : ∀ i, (st.ctl i).localToken = tok i)
    (htok : Function.Injective tok) (ht : (st.ctl i).remoteToken = some (tok (peer i)))
    (ha : addr (peer i) ∈ (st.ctl i).paths.keys) :
    ∃ T, ∀ now₁ now₂ now₃, T ≤ now₁ → T ≤ now₂ → Completes addr peer st i now₁ now₂ now₃ := by
  obtain ⟨path, hl⟩ := FinTable.exists_lookup ha
  obtain ⟨R, hR⟩ := exists_reply_bound (st.ctl (peer i))
  refine ⟨max path.nextProbe R, ?_⟩
  intro now₁ now₂ now₃ h₁ h₂ jitter₁ jitter₂ jitter₃
  obtain ⟨order, n, st₁, hst₁, hn, hprobed, hlocal, hother⟩ :=
    exists_probe ht hl (Nat.le_trans (Nat.le_max_left _ _) h₁) jitter₁
  have hpeer : st₁.ctl (peer i) = st.ctl (peer i) := hother _ hself
  have hidle : ((st₁.ctl (peer i)).recentReplies now₂).keys = ∅ := by
    rw [hpeer]
    exact hR now₂ (Nat.le_trans (Nat.le_max_right _ _) h₂)
  obtain ⟨m, st₂, hst₂, hm, hkept⟩ := exists_echo hn rfl (by rw [hpeer, hloc]) hidle jitter₂
  obtain ⟨st₃, o, hst₃, hctl⟩ := deliver_step hm rfl now₃ jitter₃
  refine ⟨order, n, m, _, st₃, .snoc (.snoc (.snoc .nil hst₁) hst₂) hst₃, rfl, ?_⟩
  rw [hctl, hkept i hself.symm]
  apply hprobed.verified
  rw [hlocal, hloc]
  intro he
  exact hself (htok he)

/-- **A round trip verifies its path, and can always be made.** When `i` has
sent a probe to its peer and the records since then have kept the path, the
frame that comes back from the peer leaves the path verified, whatever else
has happened. And once `i` knows the token and the address of its peer, a
probe, its echo and the return of the echo are enough, from some moment on,
whatever the run has been. -/
theorem round_trip_verifies (hadr : Function.Injective addr) (htok : Function.Injective tok)
    (hself : ∀ i, peer i ≠ i) (hr : (network addr).Run (NetState.new tok) tr st)
    (hC : ∀ en ∈ tr, Paired tok peer en) (i : ι) :
    (∀ x en y n now jitter f, tr = x ++ en :: y →
      Since (ProbesTo i (addr (peer i))) (RetainsPath i (tok (peer i)) (addr (peer i))) x →
      en.event = .deliver n i now jitter → en.pre.inFlight[n]? = some f → f.src = peer i →
      f.packet = frame (tok (peer i)) → VerifiedAt (addr (peer i)) (en.post.ctl i)) ∧
    ((st.ctl i).remoteToken = some (tok (peer i)) → addr (peer i) ∈ (st.ctl i).paths.keys →
      ∃ T, ∀ now₁ now₂ now₃, T ≤ now₁ → T ≤ now₂ → Completes addr peer st i now₁ now₂ now₃) := by
  constructor
  · intro x en y n now jitter f htr hs he hf hsrc hpk
    rw [htr] at hr
    obtain ⟨hpre, hst⟩ := hr.split
    have hC' := fun e he => hC e (htr ▸ List.mem_append_left _ he)
    have hprobed := probed_since hadr htok hself hpre hC' hs
    have hloc := (flightInv_run hadr htok hself hpre hC').1.localToken i
    rw [he] at hst
    rcases network_cases hst with ⟨_, _, _, _, hk, _⟩ | ⟨_, _, _, _, hk, _⟩ | ⟨_, _, _, _, f', hk, hf', -, -, hpost⟩ |
      ⟨_, hk, _⟩
    · cases hk
    · cases hk
    · cases hk
      obtain rfl : f = f' := Option.some.inj (hf.symm.trans hf')
      rw [hpost, NetState.send_same, hpk, hsrc]
      apply hprobed.verified
      rw [hloc]
      intro h
      exact hself i (htok h)
    · cases hk
  · exact exists_completes (hself i) (flightInv_run hadr htok hself hr hC).1.localToken htok

end

/-- The probe is the second step, and no record comes in after it. -/
theorem pairExchange_since :
    Since (ProbesTo true (pairAddr false)) (RetainsPath true (pairTok false) (pairAddr false))
      ((((network pairAddr).exec (NetState.new pairTok) pairExchange).get pairExchange_runs).1.take 3) := by
  refine ⟨_, _, _, (List.take_append_drop 1 _).symm, ?_, ?_⟩
  · exact ⟨⟨true, pairAddr false, frame (pairTok false), .due⟩, ⟨0, _, _, rfl, by decide⟩, rfl, rfl⟩
  · intro en hen token cands now he
    have hmem : en.event ∈ [NetEvent.deliver 0 false 0 id] := List.mem_map_of_mem (f := (·.event)) hen
    simp [he] at hmem

theorem pairExchange_completes : ∃ tr st, (network pairAddr).Run (NetState.new pairTok) tr st ∧
    VerifiedAt (pairAddr false) (st.ctl true) ∧
    ∃ T, ∀ now₁ now₂ now₃, T ≤ now₁ → T ≤ now₂ → Completes pairAddr not st true now₁ now₂ now₃ := by
  obtain ⟨h₁, h₂⟩ := round_trip_verifies (by decide) (by decide) (by decide) (Machine.run_of_exec pairExchange_runs)
    (fun _ hen => pairExchange_paired hen) true
  refine ⟨_, _, Machine.run_of_exec pairExchange_runs, ?_, h₂ (by decide) (by decide)⟩
  exact h₁ _ _ [] 1 0 id _ (List.take_append_drop 3 _).symm pairExchange_since rfl rfl rfl rfl

end P2pTunnler
