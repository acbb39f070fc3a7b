import P2pTunnler.Network
import P2pTunnler.ProbeSound
import P2pTunnler.Lib.Project

/-!
# A verified path is a round trip

Controllers in pairs: each one is told the token of its peer and of nobody
else. A path to another controller that is verified leads to the peer: the
peer has received a probe on it and has echoed it, and the echo has come back.
-/

namespace P2pTunnler

open Finset (Enumerates)

section
variable {ι : Type} [DecidableEq ι] {addr : ι → SocketAddr} {tok : ι → Token} {st st' : NetState ι}
  {e : NetEvent ι} {o : Option PacketAction} {tr : List (NetEntry ι)}

@[simp] theorem NetState.send_same (st : NetState ι) (i : ι) (ctl : ProbeState) (frames : List (SentFrame ι)) :
    (st.send i ctl frames).ctl i = ctl := by
  simp [NetState.send]

theorem NetState.send_other {i j : ι} (h : i ≠ j) (st : NetState ι) (ctl : ProbeState) (frames : List (SentFrame ι)) :
    (st.send j ctl frames).ctl i = st.ctl i := by
  simp [NetState.send, h]

theorem network_cases (h : (network addr).step st e = some (st', o)) :
    (∃ i token cands now, e = .updateRemote i token cands now ∧ o = none ∧
      st' = st.send i ((st.ctl i).updateRemote token cands now) []) ∨
    (∃ i now order jitter, e = .dueFrames i now order jitter ∧ Enumerates order (st.ctl i).paths.keys ∧ o = none ∧
      st' = st.send i ((st.ctl i).dueFrames now order jitter).1
        (((st.ctl i).dueFrames now order jitter).2.map fun f => ⟨i, f.2, f.1, .due⟩)) ∨
    (∃ n i now jitter f, e = .deliver n i now jitter ∧ st.inFlight[n]? = some f ∧ f.dst = addr i ∧
      o = some ((st.ctl i).packetAction f.packet (addr f.src) now jitter).2 ∧
      st' = st.send i ((st.ctl i).packetAction f.packet (addr f.src) now jitter).1
        (if ((st.ctl i).packetAction f.packet (addr f.src) now jitter).2 = .echoAndAdmit
          then [⟨i, addr f.src, f.packet, .echo⟩] else [])) ∨
    (∃ n, e = .lose n ∧ o = none ∧ st' = { st with inFlight := st.inFlight.eraseIdx n }) := by
  cases e with
  | updateRemote i token cands now =>
    cases h
    exact .inl ⟨i, token, cands, now, rfl, rfl, rfl⟩
  | dueFrames i now order jitter =>
    simp only [network] at h
    split at h
    · rename_i ho
      cases h
      exact .inr (.inl ⟨i, now, order, jitter, rfl, ho, rfl, rfl⟩)
    · cases h
  | deliver n i now jitter =>
    simp only [network] at h
    split at h
    · cases h
    · rename_i f hf
      split at h
      · rename_i hd
        cases h
        refine .inr (.inr (.inl ⟨n, i, now, jitter, f, rfl, hf, hd, ?_, ?_⟩))
        all_goals
          unfold NetState.deliver
          rcases (st.ctl i).packetAction_cases f.packet (addr f.src) now jitter with ⟨ha, _⟩ | ⟨ha, _⟩ | ⟨ha, _⟩ <;>
            simp [ha]
      · cases h
  | lose n =>
    cases h
    exact .inr (.inr (.inr ⟨n, rfl, rfl, rfl⟩))

/-! ## Where frames come from -/

/-- `due_frames` of its sender emitted the frame. -/
def EmitsFrame (en : NetEntry ι) (f : SentFrame ι) : Prop :=
  ∃ now order jitter, en.event = .dueFrames f.src now order jitter ∧
    (f.packet, f.dst) ∈ ((en.pre.ctl f.src).dueFrames now order jitter).2

/-- `i` was handed the frame `f` and took the action. -/
def Takes (addr : ι → SocketAddr) (en : NetEntry ι) (i : ι) (f : SentFrame ι) (action : PacketAction) : Prop :=
  ∃ n now jitter, en.event = .deliver n i now jitter ∧ en.pre.inFlight[n]? = some f ∧ f.dst = addr i ∧
    en.out = some action

/-- `j` has echoed a probe that `i` sent to it. -/
def Echoed (addr : ι → SocketAddr) (tr : List (NetEntry ι)) (i j : ι) (packet : Bytes) : Prop :=
  ∃ a en b g, tr = a ++ en :: b ∧ Takes addr en j g .echoAndAdmit ∧ g.src = i ∧ g.packet = packet ∧
    ∃ em ∈ a, EmitsFrame em g

omit [DecidableEq ι] in
theorem Echoed.snoc {i j : ι} {packet : Bytes} (h : Echoed addr tr i j packet) (en : NetEntry ι) :
    Echoed addr (tr ++ [en]) i j packet := by
  obtain ⟨a, x, b, g, rfl, hx⟩ := h
  exact ⟨a, x, b ++ [en], g, by simp, hx⟩

/-- Every update that a run makes names the token of the peer, or none. -/
def Paired (tok : ι → Token) (peer : ι → ι) (en : NetEntry ι) : Prop :=
  ∀ i token cands now, en.event = .updateRemote i token cands now → ∀ t, token = some t → t = tok (peer i)

structure FlightInv (addr : ι → SocketAddr) (tok : ι → Token) (peer : ι → ι) (tr : List (NetEntry ι)) (st : NetState ι) :
    Prop where
  remote : ∀ i t, (st.ctl i).remoteToken = some t → t = tok (peer i)
  due : ∀ f ∈ st.inFlight, f.kind = .due → f.packet = frame (tok (peer f.src)) ∧ ∃ em ∈ tr, EmitsFrame em f
  echo : ∀ f ∈ st.inFlight, f.kind = .echo → ∃ i, f.dst = addr i ∧ Echoed addr tr i f.src f.packet

section
variable {peer : ι → ι} (hadr : Function.Injective addr) (htok : Function.Injective tok) (hself : ∀ i, peer i ≠ i)

omit [DecidableEq ι] in
theorem flightInv_new : FlightInv addr tok peer [] (NetState.new tok) where
  remote i t h := by cases h
  due f hf := by cases hf
  echo f hf := by cases hf

/-- Changing one controller and sending frames from it. -/
theorem FlightInv.send (hI : FlightInv addr tok peer tr st) {en : NetEntry ι} {i : ι} {ctl : ProbeState}
    {frames : List (SentFrame ι)} (hr : ∀ t, ctl.remoteToken = some t → t = tok (peer i))
    (hd : ∀ f ∈ frames, f.kind = .due → f.packet = frame (tok (peer f.src)) ∧ ∃ em ∈ tr ++ [en], EmitsFrame em f)
    (he : ∀ f ∈ frames, f.kind = .echo → ∃ i, f.dst = addr i ∧ Echoed addr (tr ++ [en]) i f.src f.packet) :
    FlightInv addr tok peer (tr ++ [en]) (st.send i ctl frames) where
  remote j t h := by
    by_cases hj : j = i
    · subst hj
      exact hr t (by simpa [NetState.send] using h)
    · exact hI.remote j t (by simpa [NetState.send, hj] using h)
  due f hf hk := by
    rcases List.mem_append.mp hf with hf | hf
    · obtain ⟨hp, em, hem, h⟩ := hI.due f hf hk
      exact ⟨hp, em, List.mem_append_left _ hem, h⟩
    · exact hd f hf hk
  echo f hf hk := by
    rcases List.mem_append.mp hf with hf | hf
    · obtain ⟨i, hi, h⟩ := hI.echo f hf hk
      exact ⟨i, hi, h.snoc en⟩
    · exact he f hf hk

include htok in
theorem flightInv_step (hN : NetInv addr tok st) (hI : FlightInv addr tok peer tr st)
    (h : (network addr).step st e = some (st', o)) (hC : Paired tok peer ⟨st, e, o, st'⟩) :
    FlightInv addr tok peer (tr ++ [⟨st, e, o, st'⟩]) st' := by
  rcases network_cases h with ⟨i, token, cands, now, rfl, rfl, rfl⟩ | ⟨i, now, order, jitter, rfl, _, rfl, rfl⟩ |
    ⟨n, i, now, jitter, f, rfl, hf, hdst, rfl, rfl⟩ | ⟨n, rfl, rfl, rfl⟩
  · refine hI.send ?_ (fun f hf => by cases hf) (fun f hf => by cases hf)
    intro t ht
    rw [ProbeState.updateRemote_remoteToken] at ht
    exact hC i token cands now rfl t ht
  · refine hI.send ?_ ?_ ?_
    · rw [ProbeState.dueFrames_remoteToken]
      exact hI.remote i
    · intro f hf _
      obtain ⟨d, hd, rfl⟩ := List.mem_map.mp hf
      obtain ⟨t, _, ht, hp, _⟩ := ProbeState.mem_dueFrames (f := d.1) (s := d.2) hd
      refine ⟨by rw [← hI.remote i t ht]; exact hp, _, List.mem_append_right _ (List.mem_singleton.mpr rfl), ?_⟩
      exact ⟨now, order, jitter, rfl, hd⟩
    · intro f hf hk
      obtain ⟨d, _, rfl⟩ := List.mem_map.mp hf
      cases hk
  · have hmem := List.mem_of_getElem? hf
    refine hI.send ?_ ?_ ?_
    · rw [((st.ctl i).packetAction_tokens _ _ _ _).2]
      exact hI.remote i
    · intro g hg hk
      split at hg
      · obtain rfl := List.mem_singleton.mp hg
        cases hk
      · cases hg
    · intro g hg _
      split at hg
      · rename_i ha
        obtain rfl := List.mem_singleton.mp hg
        rcases (st.ctl i).packetAction_cases f.packet (addr f.src) now jitter with ⟨hd, _⟩ | ⟨_, hp, _⟩ | ⟨hd, _⟩
        · rw [ha] at hd; cases hd
        · -- what is echoed is a probe of somebody else
          rw [hN.localToken i] at hp
          obtain ⟨hdue, _⟩ := hN.echoed htok hmem hdst hp
          obtain ⟨_, em, hem, hemits⟩ := hI.due f hmem hdue
          exact ⟨f.src, rfl, tr, _, [], f, rfl, ⟨n, now, jitter, rfl, hf, hdst, by rw [ha]⟩, rfl, rfl, em, hem, hemits⟩
        · rw [ha] at hd; cases hd
      · cases hg
  · refine ⟨hI.remote, ?_, ?_⟩
    · intro f hf hk
      obtain ⟨hp, em, hem, h⟩ := hI.due f (List.mem_of_mem_eraseIdx hf) hk
      exact ⟨hp, em, List.mem_append_left _ hem, h⟩
    · intro f hf hk
      obtain ⟨i, hi, h⟩ := hI.echo f (List.mem_of_mem_eraseIdx hf) hk
      exact ⟨i, hi, h.snoc _⟩

include hadr htok hself in
theorem flightInv_run (hr : (network addr).Run (NetState.new tok) tr st) (hC : ∀ en ∈ tr, Paired tok peer en) :
    NetInv addr tok st ∧ FlightInv addr tok peer tr st := by
  refine hr.history (C := Paired tok peer) (P := fun tr st => NetInv addr tok st ∧ FlightInv addr tok peer tr st)
    ⟨netInv_new, flightInv_new⟩ ?_ hC
  intro tr st e o st' _ ⟨hN, hI⟩ hst hc
  refine ⟨netInv_step hadr htok hN hst ?_, flightInv_step htok hN hI hst hc⟩
  intro i token cands now he ht
  exact hself i (htok (hc i token cands now he _ ht)).symm

/-! ## Round trips -/

/-- In this order: `i` probes its peer, the peer echoes that probe, and `i`
takes the echo as an acknowledgement. -/
def RoundTrip (addr : ι → SocketAddr) (tok : ι → Token) (peer : ι → ι) (tr : List (NetEntry ι)) (i : ι) : Prop :=
  ∃ a en b f, tr = a ++ en :: b ∧ Takes addr en i f .acknowledged ∧ f.src = peer i ∧ f.kind = .echo ∧
    f.packet = frame (tok (peer i)) ∧ Echoed addr a i (peer i) f.packet

include hadr htok hself in
theorem acknowledged_cases (hpeer : Function.Injective peer) (hr : (network addr).Run (NetState.new tok) tr st)
    (hC : ∀ en ∈ tr, Paired tok peer en) {en : NetEntry ι} (hen : en ∈ tr) {i : ι} {f : SentFrame ι}
    (ht : Takes addr en i f .acknowledged) : f.src = i ∨ f.src = peer i ∧ RoundTrip addr tok peer tr i := by
  obtain ⟨a, b, rfl⟩ := List.append_of_mem hen
  obtain ⟨hpre, hst⟩ := hr.split
  obtain ⟨hN, hI⟩ := flightInv_run hadr htok hself hpre fun x hx => hC x (List.mem_append_left _ hx)
  obtain ⟨n, now, jitter, hev, hf, hdst, hout⟩ := id ht
  rw [hev, hout] at hst
  rcases network_cases hst with ⟨_, _, _, _, he, _⟩ | ⟨_, _, _, _, he, _⟩ | ⟨n', i', now', jitter', f', he, hf', _, ho, _⟩ |
    ⟨_, he, _⟩
  · cases he
  · cases he
  · cases he
    rw [hf] at hf'
    cases hf'
    rcases (en.pre.ctl i).packetAction_cases f.packet (addr f.src) now jitter with ⟨ha, _⟩ | ⟨ha, _⟩ |
      ⟨_, t, _, hp, _, hrt, _⟩
    · rw [ha] at ho; cases ho
    · rw [ha] at ho; cases ho
    · have hmem := List.mem_of_getElem? hf
      have hpk : f.packet = frame (tok (peer i)) := by rw [hp, hI.remote i t hrt]
      cases hk : f.kind with
      | due =>
        have hsrc := (hI.due f hmem hk).1
        rw [hpk] at hsrc
        exact .inl (hpeer (htok (frame_injective hsrc))).symm
      | echo =>
        have hsrc := hN.echo f hmem hk
        rw [hpk] at hsrc
        have hsrc : peer i = f.src := htok (frame_injective hsrc)
        obtain ⟨j, hj, hecho⟩ := hI.echo f hmem hk
        have hji : j = i := hadr (hj.symm.trans hdst)
        rw [hji, ← hsrc] at hecho
        exact .inr ⟨hsrc.symm, a, en, b, f, rfl, ht, hsrc.symm, hk, hpk, hecho⟩
  · cases he

end

/-! ## Each controller on its own -/

def ctlOf (addr : ι → SocketAddr) (i : ι) (en : NetEntry ι) : Option ProbeEntry :=
  match en.event with
  | .updateRemote j token cands now =>
    if j = i then some ⟨en.pre.ctl i, .updateRemote token cands now, .updated, en.post.ctl i⟩ else none
  | .dueFrames j now order jitter =>
    if j = i then
      some ⟨en.pre.ctl i, .dueFrames now order jitter, .frames ((en.pre.ctl i).dueFrames now order jitter).2, en.post.ctl i⟩
    else none
  | .deliver n j now jitter =>
    if j = i then
      en.pre.inFlight[n]?.map fun f => ⟨en.pre.ctl i, .packetAction f.packet (addr f.src) now jitter,
        .action ((en.pre.ctl i).packetAction f.packet (addr f.src) now jitter).2, en.post.ctl i⟩
    else none
  | .lose _ => none

theorem ctl_run (i : ι) (hr : (network addr).Run (NetState.new tok) tr st) :
    probeController.Run (.new (tok i)) (tr.filterMap (ctlOf addr i)) (st.ctl i) := by
  refine hr.project (fun st => st.ctl i) (ctlOf addr i) ?_
  intro st e o st' hst
  rcases network_cases hst with ⟨j, token, cands, now, rfl, rfl, rfl⟩ | ⟨j, now, order, jitter, rfl, hord, rfl, rfl⟩ |
    ⟨n, j, now, jitter, f, rfl, hf, hdst, rfl, rfl⟩ | ⟨n, rfl, rfl, rfl⟩
  · by_cases hj : j = i
    · subst hj
      exact .inr ⟨.updateRemote token cands now, .updated, by simp [ctlOf], by simp [probeController, NetState.send]⟩
    · exact .inl ⟨by simp [ctlOf, hj], NetState.send_other (Ne.symm hj) _ _ _⟩
  · by_cases hj : j = i
    · subst hj
      refine .inr ⟨.dueFrames now order jitter, .frames ((st.ctl j).dueFrames now order jitter).2, by simp [ctlOf], ?_⟩
      simp [probeController, NetState.send, hord]
    · exact .inl ⟨by simp [ctlOf, hj], NetState.send_other (Ne.symm hj) _ _ _⟩
  · by_cases hj : j = i
    · subst hj
      refine .inr ⟨.packetAction f.packet (addr f.src) now jitter, _, by simp [ctlOf, hf]; rfl, ?_⟩
      simp [probeController, NetState.send]
    · exact .inl ⟨by simp [ctlOf, hj], NetState.send_other (Ne.symm hj) _ _ _⟩
  · exact .inl ⟨rfl, rfl⟩

theorem takes_of_ackFor {en : NetEntry ι} {c : ProbeEntry} {i : ι} {a : SocketAddr}
    (hst : (network addr).step en.pre en.event = some (en.post, en.out)) (hc : ctlOf addr i en = some c)
    (hack : AckFor a c) : ∃ f, Takes addr en i f .acknowledged ∧ addr f.src = a := by
  obtain ⟨packet, now, jitter, hev, hout⟩ := hack
  unfold ctlOf at hc
  rcases network_cases hst with ⟨j, _, _, _, he, _⟩ | ⟨j, _, _, _, he, _⟩ | ⟨n, j, _, _, f, he, hf, hdst, ho, _⟩ |
    ⟨n, he, _⟩
  · simp only [he] at hc
    split at hc <;> cases hc
    cases hev
  · simp only [he] at hc
    split at hc <;> cases hc
    cases hev
  · simp only [he, hf, Option.map_some] at hc
    split at hc
    · rename_i hj
      cases hc
      cases hev
      subst hj
      refine ⟨f, ⟨n, now, jitter, he, hf, hdst, ?_⟩, rfl⟩
      rw [ho]
      exact congrArg some (ProbeOut.action.inj hout)
    · cases hc
  · simp only [he] at hc
    cases hc

/-- **A verified path is a round trip.** Whatever the network does with the
frames, a path of `i` to an address that is not its own is verified only if
the address is that of its peer, the peer has echoed a probe of `i`, and `i`
has taken that echo. -/
theorem verified_round_trip {peer : ι → ι} (hadr : Function.Injective addr) (htok : Function.Injective tok)
    (hpeer : Function.Injective peer) (hself : ∀ i, peer i ≠ i)
    (hr : (network addr).Run (NetState.new tok) tr st) (hC : ∀ en ∈ tr, Paired tok peer en) {i : ι} {a : SocketAddr}
    {path : Path} (hp : (st.ctl i).paths.lookup a = some path) (hv : path.verified = true) (ha : a ≠ addr i) :
    a = addr (peer i) ∧ RoundTrip addr tok peer tr i := by
  obtain ⟨x, c, y, hx, hack, _⟩ := ((probeInv_run (ctl_run i hr) a).verified path hp).mp hv
  have hc : c ∈ tr.filterMap (ctlOf addr i) := by rw [hx]; simp
  obtain ⟨en, hen, hc⟩ := List.mem_filterMap.mp hc
  obtain ⟨u, v, huv⟩ := List.append_of_mem hen
  have hst := (huv ▸ hr).split.2
  obtain ⟨f, htakes, haddr⟩ := takes_of_ackFor hst hc hack
  rcases acknowledged_cases hadr htok hself hpeer hr hC hen htakes with hsrc | ⟨hsrc, hrt⟩
  · rw [hsrc] at haddr
    exact absurd haddr.symm ha
  · rw [hsrc] at haddr
    exact ⟨haddr.symm, hrt⟩

end

/-! ## Two controllers -/

theorem pairExchange_paired {en : NetEntry Bool}
    (hen : en ∈ (((network pairAddr).exec (NetState.new pairTok) pairExchange).get pairExchange_runs).1) :
    Paired pairTok not en := by
  intro i token cands now hev t ht
  have hmem := Machine.event_mem_of_exec pairExchange_runs hen
  rw [hev] at hmem
  simp only [pairExchange, List.mem_cons, NetEvent.updateRemote.injEq, reduceCtorEq, List.not_mem_nil, or_false]
    at hmem
  obtain ⟨rfl, rfl, _⟩ := hmem
  cases ht
  rfl

theorem pairExchange_round_trip : ∃ tr st, (network pairAddr).Run (NetState.new pairTok) tr st ∧
    ((st.ctl true).paths.lookup (.testNet 2 10000)).any (·.verified) = true ∧ RoundTrip pairAddr pairTok not tr true := by
  refine ⟨_, _, Machine.run_of_exec pairExchange_runs, by decide, ?_⟩
  have hv : ∃ path, ((((network pairAddr).exec (NetState.new pairTok) pairExchange).get pairExchange_runs).2.ctl
      true).paths.lookup (.testNet 2 10000) = some path ∧ path.verified = true :=
    (Option.any_eq_true _ _).mp (by decide)
  obtain ⟨path, hp, hv⟩ := hv
  exact (verified_round_trip (by decide) (by decide) (by decide) (by decide) (Machine.run_of_exec pairExchange_runs)
    (fun _ hen => pairExchange_paired hen) hp hv (by decide)).2

end P2pTunnler
