import P2pTunnler.ProbeLemmas
import Mathlib.Logic.Function.Basic

/-!
# A network of probe controllers

Each controller answers the frames delivered to its address and sends the
frames that are due. A frame in flight may be delivered late, out of order,
twice or never, and to its own sender. A network in which nobody is given its
own token as the remote one never echoes an echo.
-/

namespace P2pTunnler

open Finset (Enumerates)

inductive FrameKind
  | due
  | echo
  deriving DecidableEq

structure SentFrame (ι : Type) where
  src : ι
  dst : SocketAddr
  packet : Bytes
  kind : FrameKind

structure NetState (ι : Type) where
  ctl : ι → ProbeState
  inFlight : List (SentFrame ι)

inductive NetEvent (ι : Type)
  | updateRemote (i : ι) (token : Option Token) (candidates : List SocketAddr) (now : Nat)
  | dueFrames (i : ι) (now : Nat) (order : List SocketAddr) (jitter : SocketAddr → Nat → Nat)
  | deliver (n : Nat) (i : ι) (now : Nat) (jitter : Nat → Nat)
  | lose (n : Nat)

section
variable {ι : Type} [DecidableEq ι] (addr : ι → SocketAddr) (tok : ι → Token)

def NetState.new : NetState ι := ⟨fun i => .new (tok i), []⟩

def NetState.send (st : NetState ι) (i : ι) (ctl : ProbeState) (frames : List (SentFrame ι)) : NetState ι :=
  ⟨Function.update st.ctl i ctl, st.inFlight ++ frames⟩

-- `handle_packets` at `i`: the packet that was received goes back to its source
def NetState.deliver (st : NetState ι) (f : SentFrame ι) (i : ι) (now : Nat) (jitter : Nat → Nat) :
    NetState ι × PacketAction :=
  let (ctl, action) := (st.ctl i).packetAction f.packet (addr f.src) now jitter
  match action with
  | .echoAndAdmit => (st.send i ctl [⟨i, addr f.src, f.packet, .echo⟩], action)
  | _ => (st.send i ctl [], action)

def network : Machine (NetState ι) (NetEvent ι) (Option PacketAction) where
  step st
    | .updateRemote i token candidates now =>
      some (st.send i ((st.ctl i).updateRemote token candidates now) [], none)
    | .dueFrames i now order jitter =>
      if Enumerates order (st.ctl i).paths.keys then
        let (ctl, frames) := (st.ctl i).dueFrames now order jitter
        some (st.send i ctl (frames.map fun f => ⟨i, f.2, f.1, .due⟩), none)
      else none
    | .deliver n i now jitter =>
      match st.inFlight[n]? with
      | none => none
      | some f =>
        if f.dst = addr i then
          let (st', action) := st.deliver addr f i now jitter
          some (st', some action)
        else none
    | .lose n => some ({ st with inFlight := st.inFlight.eraseIdx n }, none)

abbrev NetEntry (ι : Type) := Machine.Entry (NetState ι) (NetEvent ι) (Option PacketAction)

/-- Whatever is echoed was emitted by `due_frames`, and does not carry the
echoing controller's own remote token. -/
def NoPingPong (tr : List (NetEntry ι)) : Prop :=
  ∀ en ∈ tr, ∀ n i now jitter f, en.event = .deliver n i now jitter → en.pre.inFlight[n]? = some f →
    en.out = some .echoAndAdmit →
    f.kind = .due ∧ ∀ t, (en.pre.ctl i).remoteToken = some t → f.packet ≠ frame t

structure NetInv (st : NetState ι) : Prop where
  localToken : ∀ i, (st.ctl i).localToken = tok i
  remoteToken : ∀ i, (st.ctl i).remoteToken ≠ some (tok i)
  echo : ∀ f ∈ st.inFlight, f.kind = .echo → f.packet = frame (tok f.src)
  notSelf : ∀ f ∈ st.inFlight, f.packet = frame (tok f.src) → f.dst ≠ addr f.src

variable {addr tok}

omit [DecidableEq ι] in
theorem netInv_new : NetInv addr tok (NetState.new tok) where
  localToken _ := rfl
  remoteToken _ h := by cases h
  echo f hf := by cases hf
  notSelf f hf := by cases hf

/-- Changing one controller and sending frames from it. -/
theorem NetInv.send {st : NetState ι} (hI : NetInv addr tok st) {i : ι} {ctl : ProbeState}
    {frames : List (SentFrame ι)} (hl : ctl.localToken = tok i) (hr : ctl.remoteToken ≠ some (tok i))
    (he : ∀ f ∈ frames, f.kind = .echo → f.packet = frame (tok f.src))
    (hn : ∀ f ∈ frames, f.packet = frame (tok f.src) → f.dst ≠ addr f.src) :
    NetInv addr tok (st.send i ctl frames) := by
  refine ⟨fun j => ?_, fun j => ?_, fun f hf => ?_, fun f hf => ?_⟩
  · by_cases hj : j = i
    · subst hj; simpa [NetState.send] using hl
    · simpa [NetState.send, hj] using hI.localToken j
  · by_cases hj : j = i
    · subst hj; simpa [NetState.send] using hr
    · simpa [NetState.send, hj] using hI.remoteToken j
  · rcases List.mem_append.mp hf with hf | hf
    · exact hI.echo f hf
    · exact he f hf
  · rcases List.mem_append.mp hf with hf | hf
    · exact hI.notSelf f hf
    · exact hn f hf

omit [DecidableEq ι] in
/-- A frame that is echoed was not sent by the controller that echoes it. -/
theorem NetInv.echoed (htok : Function.Injective tok) {st : NetState ι} (hI : NetInv addr tok st)
    {f : SentFrame ι} (hf : f ∈ st.inFlight) {i : ι} (hdst : f.dst = addr i) (hp : f.packet = frame (tok i)) :
    f.kind = .due ∧ f.src ≠ i := by
  have hsrc : f.src ≠ i := by
    intro h
    subst h
    exact hI.notSelf f hf hp hdst
  refine ⟨?_, hsrc⟩
  cases hk : f.kind with
  | due => rfl
  | echo =>
    have := hI.echo f hf hk
    rw [hp] at this
    exact absurd (htok (frame_injective this)).symm hsrc

section
variable (hadr : Function.Injective addr) (htok : Function.Injective tok)
include hadr htok

theorem netInv_step {st st' : NetState ι} {e : NetEvent ι} {o : Option PacketAction} (hI : NetInv addr tok st)
    (hst : (network addr).step st e = some (st', o))
    (hC : ∀ i token cands now, e = .updateRemote i token cands now → token ≠ some (tok i)) :
    NetInv addr tok st' := by
  cases e with
  | updateRemote i token cands now =>
    simp only [network, Option.some.injEq, Prod.mk.injEq] at hst
    obtain ⟨rfl, _⟩ := hst
    refine hI.send (by simpa using hI.localToken i) (by simpa using hC i token cands now rfl) ?_ ?_
    all_goals intro f hf; cases hf
  | dueFrames i now order jitter =>
    simp only [network] at hst
    split at hst
    · simp only [Option.some.injEq, Prod.mk.injEq] at hst
      obtain ⟨rfl, _⟩ := hst
      refine hI.send (by simpa using hI.localToken i) (by simpa using hI.remoteToken i) ?_ ?_
      · intro f hf hk
        obtain ⟨g, _, rfl⟩ := List.mem_map.mp hf
        cases hk
      · -- a due frame carries the remote token, which is not the sender's own
        intro f hf hp
        obtain ⟨g, hg, rfl⟩ := List.mem_map.mp hf
        obtain ⟨t, _, ht, hgf, _⟩ := ProbeState.mem_dueFrames hg
        have : t = tok i := frame_injective (hgf.symm.trans hp)
        exact absurd (this ▸ ht) (hI.remoteToken i)
    · cases hst
  | deliver n i now jitter =>
    simp only [network] at hst
    split at hst
    · cases hst
    rename_i f hf
    have hmem := List.mem_of_getElem? hf
    split at hst
    · rename_i hdst
      simp only [Option.some.injEq, Prod.mk.injEq] at hst
      obtain ⟨rfl, _⟩ := hst
      obtain ⟨hl, hr⟩ := (st.ctl i).packetAction_tokens f.packet (addr f.src) now jitter
      have hl' := hl.trans (hI.localToken i)
      have hr' := hr ▸ hI.remoteToken i
      unfold NetState.deliver
      rcases (st.ctl i).packetAction_cases f.packet (addr f.src) now jitter with ⟨ha, _⟩ | ⟨ha, hp, _⟩ | ⟨ha, _⟩
      · simp only [ha]
        exact hI.send hl' hr' (fun f hf => by cases hf) (fun f hf => by cases hf)
      · rw [hI.localToken i] at hp
        obtain ⟨_, hsrc⟩ := hI.echoed htok hmem hdst hp
        simp only [ha]
        refine hI.send hl' hr' ?_ ?_
        · intro g hg _
          obtain rfl := List.mem_singleton.mp hg
          exact hp
        · intro g hg _
          obtain rfl := List.mem_singleton.mp hg
          exact fun h => hsrc (hadr h)
      · simp only [ha]
        exact hI.send hl' hr' (fun f hf => by cases hf) (fun f hf => by cases hf)
    · cases hst
  | lose n =>
    simp only [network, Option.some.injEq, Prod.mk.injEq] at hst
    obtain ⟨rfl, _⟩ := hst
    exact ⟨hI.localToken, hI.remoteToken, fun f hf => hI.echo f (List.mem_of_mem_eraseIdx hf),
      fun f hf => hI.notSelf f (List.mem_of_mem_eraseIdx hf)⟩

/-- **No ping-pong**, as long as no record makes a controller's own token its remote token. -/
theorem no_ping_pong {tr : List (NetEntry ι)} {st : NetState ι}
    (hr : (network addr).Run (NetState.new tok) tr st)
    (hC : ∀ en ∈ tr, ∀ i token cands now, en.event = .updateRemote i token cands now → token ≠ some (tok i)) :
    NoPingPong tr := by
  intro en hen n i now jitter f hev hf hout
  obtain ⟨a, b, rfl⟩ := List.append_of_mem hen
  obtain ⟨hpre, hst⟩ := hr.split
  have hI : NetInv addr tok en.pre := hpre.invariant
    (C := fun en => ∀ i token cands now, en.event = .updateRemote i token cands now → token ≠ some (tok i))
    netInv_new (fun _ _ _ _ hI hst hc => netInv_step hadr htok hI hst hc)
    (fun x hx => hC x (List.mem_append_left _ hx))
  rw [hev, hout] at hst
  simp only [network, hf] at hst
  split at hst
  · rename_i hdst
    simp only [Option.some.injEq, Prod.mk.injEq] at hst
    have ha : ((en.pre.ctl i).packetAction f.packet (addr f.src) now jitter).2 = .echoAndAdmit := by
      have h2 := hst.2
      unfold NetState.deliver at h2
      simp only at h2
      split at h2 <;> simpa using h2
    rcases (en.pre.ctl i).packetAction_cases f.packet (addr f.src) now jitter with ⟨h, _⟩ | ⟨_, hp, _⟩ | ⟨h, _⟩
    · rw [ha] at h; cases h
    · rw [hI.localToken i] at hp
      refine ⟨(hI.echoed htok (List.mem_of_getElem? hf) hdst hp).1, fun t ht hpt => ?_⟩
      have : tok i = t := frame_injective (hp.symm.trans hpt)
      exact hI.remoteToken i (this ▸ ht)
    · rw [ha] at h; cases h
  · cases hst

end

end

/-! ## Two controllers, and one that is told to probe itself -/

def pairAddr (i : Bool) : SocketAddr := .testNet (if i then 1 else 2) 10000

def pairTok (i : Bool) : Token := .fill (if i then 1 else 2)

def pairExchange : List (NetEvent Bool) :=
  [.updateRemote true (some (.fill 2)) [.testNet 2 10000] 0,
    .dueFrames true 0 [.testNet 2 10000] (fun _ d => d),
    .deliver 0 false 0 id,
    .deliver 1 true 0 id]

theorem pairExchange_runs : ((network pairAddr).exec (NetState.new pairTok) pairExchange).isSome = true := by
  decide

theorem pairExchange_no_ping_pong : ∃ tr st, (network pairAddr).Run (NetState.new pairTok) tr st ∧
    tr.map (·.out) = [none, none, some .echoAndAdmit, some .acknowledged] ∧ NoPingPong tr := by
  refine ⟨_, _, Machine.run_of_exec pairExchange_runs, by decide,
    no_ping_pong (by decide) (by decide) (Machine.run_of_exec pairExchange_runs) ?_⟩
  intro en hen i token cands now hev
  have hmem := Machine.event_mem_of_exec pairExchange_runs hen
  rw [hev] at hmem
  simp only [pairExchange, List.mem_cons, NetEvent.updateRemote.injEq, reduceCtorEq, List.not_mem_nil, or_false]
    at hmem
  obtain ⟨rfl, rfl, _⟩ := hmem
  decide

/-- The record gives the controller its own token and its own address; the echo is a second late. -/
def selfExchange : List (NetEvent Unit) :=
  [.updateRemote () (some (.fill 7)) [.testNet 1 10000] 0,
    .dueFrames () 0 [.testNet 1 10000] (fun _ d => d),
    .deliver 0 () 0 id,
    .lose 0,
    .deliver 0 () (secs 1) id]

theorem selfExchange_runs :
    ((network fun _ : Unit => .testNet 1 10000).exec (NetState.new fun _ => .fill 7) selfExchange).isSome = true := by
  decide

/-- A controller told to probe itself with its own token echoes its echo. -/
theorem self_probe_ping_pong :
    ¬ ∀ tr st, (network fun _ : Unit => .testNet 1 10000).Run (NetState.new fun _ => .fill 7) tr st →
      NoPingPong tr := by
  intro h
  have hall := h _ _ (Machine.run_of_exec selfExchange_runs)
  have hmem := List.getElem_mem (l := (((network fun _ : Unit => .testNet 1 10000).exec
    (NetState.new fun _ => .fill 7) selfExchange).get selfExchange_runs).1) (n := 4) (by decide)
  have := hall _ hmem 0 () (secs 1) id ⟨(), .testNet 1 10000, frame (.fill 7), .echo⟩ rfl rfl rfl
  exact absurd this.1 (by decide)

end P2pTunnler
