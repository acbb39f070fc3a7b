import P2pTunnler.Dht
import P2pTunnler.GatherSound
import P2pTunnler.GatingSound
import P2pTunnler.Lib.Project

/-!
# Connections and their gatherers over an untrusted DHT

Any number of configured connections, each with all its tasks. What the
publishers put stays on the DHT for everybody to read; the DHT hands to a
listener whatever it likes, but nobody without the shared key of a connection
can make a value that decrypts under it. What arrives on the sockets is
arbitrary.
-/

namespace P2pTunnler

structure TunnelState (ι : Type) where
  conns : ι → ConnState
  gathers : ι → GatherState
  puts : List (Publication ι)

inductive TunnelEvent (ι : Type)
  | conn (i : ι) (e : ConnEvent)
  | gather (i : ι) (e : GatherEvent)

inductive TunnelOut
  | conn (o : ConnOut)
  | gather (o : GatherOut)

abbrev TunnelEntry (ι : Type) := Machine.Entry (TunnelState ι) (TunnelEvent ι) TunnelOut

section
variable {ι : Type} [DecidableEq ι] {κ : Type} (E : Encodings) (B : SalsaBox κ) (parties : ι → Party) (tok : ι → Token)
  (lookups : ι → StunLookup)

def TunnelState.new : TunnelState ι := ⟨fun i => .new (tok i), fun _ => .new, []⟩

/-- Only a value that was put decrypts. -/
def TunnelState.deliverable (s : TunnelState ι) (i : ι) : ConnEvent → Bool
  | .listener (.value value _) =>
    (CryptoBox.decrypt B ((parties i).endpoint E B).crypto value).isNone || s.puts.any fun p => p.value = value
  | _ => true

def GatherOut.publication (i : ι) : GatherOut → List (Publication ι)
  | put m value =>
    let P := (parties i).endpoint E B
    [⟨i, dhtKey P.localKey P.remoteKey, m, value⟩]
  | _ => []

def tunnel : Machine (TunnelState ι) (TunnelEvent ι) TunnelOut where
  step s
    | .conn i e =>
      if s.deliverable E B parties i e then
        ((connection ((parties i).endpoint E B)).step (s.conns i) e).map fun r =>
          ({ s with conns := Function.update s.conns i r.1 }, .conn r.2)
      else none
    | .gather i e =>
      ((gathering ((parties i).endpoint E B) (tok i) (lookups i)).step (s.gathers i) e).map fun r =>
        ({ s with
          gathers := Function.update s.gathers i r.1
          puts := s.puts ++ r.2.publication E B parties i }, .gather r.2)

/-! ## The parts -/

def connOf (i : ι) (en : TunnelEntry ι) : Option ConnEntry :=
  match en.event, en.out with
  | .conn j e, .conn o => if j = i then some ⟨en.pre.conns i, e, o, en.post.conns i⟩ else none
  | _, _ => none

def gatherOf (i : ι) (en : TunnelEntry ι) : Option GatherEntry :=
  match en.event, en.out with
  | .gather j e, .gather o => if j = i then some ⟨en.pre.gathers i, e, o, en.post.gathers i⟩ else none
  | _, _ => none

variable {E B parties tok lookups} {s s' : TunnelState ι} {e : TunnelEvent ι} {o : TunnelOut} {tr : List (TunnelEntry ι)}

theorem tunnel_cases (h : (tunnel E B parties tok lookups).step s e = some (s', o)) :
    (∃ i ce c co, e = .conn i ce ∧ s.deliverable E B parties i ce = true ∧
      (connection ((parties i).endpoint E B)).step (s.conns i) ce = some (c, co) ∧ o = .conn co ∧
      s' = { s with conns := Function.update s.conns i c }) ∨
    (∃ i ge g go, e = .gather i ge ∧
      (gathering ((parties i).endpoint E B) (tok i) (lookups i)).step (s.gathers i) ge = some (g, go) ∧
      o = .gather go ∧
      s' = { s with
        gathers := Function.update s.gathers i g
        puts := s.puts ++ go.publication E B parties i }) := by
  cases e with
  | conn i ce =>
    simp only [tunnel] at h
    split at h
    · rename_i hd
      obtain ⟨⟨c, co⟩, hst, he⟩ := Option.map_eq_some_iff.mp h
      cases he
      exact .inl ⟨i, ce, c, co, rfl, hd, hst, rfl, rfl⟩
    · cases h
  | gather i ge =>
    simp only [tunnel] at h
    obtain ⟨⟨g, go⟩, hst, he⟩ := Option.map_eq_some_iff.mp h
    cases he
    exact .inr ⟨i, ge, g, go, rfl, hst, rfl, rfl⟩

theorem conn_run (i : ι) (hr : (tunnel E B parties tok lookups).Run (.new tok) tr s) :
    (connection ((parties i).endpoint E B)).Run (.new (tok i)) (tr.filterMap (connOf i)) (s.conns i) := by
  refine hr.project (fun s => s.conns i) (connOf i) ?_
  intro s e o s' hst
  rcases tunnel_cases hst with ⟨j, ce, c, co, rfl, _, hc, rfl, rfl⟩ | ⟨j, ge, g, go, rfl, _, rfl, rfl⟩
  · by_cases hj : j = i
    · subst hj
      exact .inr ⟨ce, co, by simp [connOf], by simpa using hc⟩
    · exact .inl ⟨by simp [connOf, hj], by simp [Ne.symm hj]⟩
  · exact .inl ⟨rfl, rfl⟩

theorem gather_run (i : ι) (hr : (tunnel E B parties tok lookups).Run (.new tok) tr s) :
    (gathering ((parties i).endpoint E B) (tok i) (lookups i)).Run .new (tr.filterMap (gatherOf i)) (s.gathers i) := by
  refine hr.project (fun s => s.gathers i) (gatherOf i) ?_
  intro s e o s' hst
  rcases tunnel_cases hst with ⟨j, ce, c, co, rfl, _, _, rfl, rfl⟩ | ⟨j, ge, g, go, rfl, hg, rfl, rfl⟩
  · exact .inl ⟨rfl, rfl⟩
  · by_cases hj : j = i
    · subst hj
      exact .inr ⟨ge, go, by simp [gatherOf], by simpa using hg⟩
    · exact .inl ⟨by simp [gatherOf, hj], by simp [Ne.symm hj]⟩

end

end P2pTunnler
