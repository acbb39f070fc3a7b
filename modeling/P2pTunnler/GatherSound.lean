import P2pTunnler.Gather
import P2pTunnler.Lib.Line

/-!
# The newest candidates are published

The channel between the two tasks forgets lists, but never the newest one,
and never brings an older list back. A record carries the list that was taken
from the channel last; an idle publisher has taken the newest.
-/

namespace P2pTunnler

open scoped List

def broadcasts (en : GatherEntry) : List (List SocketAddr) :=
  match en.out with
  | .broadcast addresses => [addresses]
  | _ => []

/-- The list that a step takes from the channel. -/
def adopted (en : GatherEntry) : List (List SocketAddr) :=
  match en.pre.channel, en.post.channel with
  | some addresses, none => [addresses]
  | _, _ => []

section
variable {κ : Type} {P : Endpoint κ} {localToken : Token} {lookup : StunLookup} {s s' : GatherState}
  {e : GatherEvent} {o : GatherOut} {tr : List GatherEntry}

theorem channel_step (h : (gathering P localToken lookup).step s e = some (s', o)) :
    adopted ⟨s, e, o, s'⟩ ++ s'.channel.toList <+ s.channel.toList ++ broadcasts ⟨s, e, o, s'⟩ := by
  rcases gathering_cases h with ⟨r, _, _, rfl, rfl⟩ | ⟨r, addresses, _, _, rfl, rfl⟩ | ⟨_, _, _, _, _, rfl, rfl⟩ |
    ⟨addresses, _, hc, rfl, rfl⟩ | ⟨_, rfl, _, _, rfl⟩
  · cases hc : s.channel <;> simp [adopted, broadcasts, hc]
  · -- the list that was in the channel is forgotten
    have hnone : adopted ⟨s, e, .broadcast addresses, { s with
        running := !lookup.runOnce
        channel := some addresses
        overflowed := s.overflowed || s.channel.isSome }⟩ = [] := by
      cases hc : s.channel <;> simp [adopted, hc]
    rw [hnone]
    exact List.sublist_append_right _ _
  · cases hc : s.channel <;> simp [adopted, broadcasts, hc]
  · simp [adopted, broadcasts, hc]
  · cases hc : s.channel <;> simp [adopted, broadcasts, hc]

/-- The newest list is in the channel, or the publisher has it. -/
theorem newest_step (h : (gathering P localToken lookup).step s e = some (s', o)) :
    s'.channel.getD s'.addresses =
      (broadcasts ⟨s, e, o, s'⟩).getLastD (s.channel.getD s.addresses) := by
  rcases gathering_cases h with ⟨r, _, _, rfl, rfl⟩ | ⟨r, addresses, _, _, rfl, rfl⟩ | ⟨_, _, _, _, _, rfl, rfl⟩ |
    ⟨addresses, _, hc, rfl, rfl⟩ | ⟨_, rfl, _, _, rfl⟩
  · rfl
  · rfl
  · rfl
  · simp [broadcasts, hc]
  · rfl

theorem addresses_step (h : (gathering P localToken lookup).step s e = some (s', o)) :
    s'.addresses = (adopted ⟨s, e, o, s'⟩).getLastD s.addresses := by
  rcases gathering_cases h with ⟨r, _, _, rfl, rfl⟩ | ⟨r, addresses, _, _, rfl, rfl⟩ | ⟨_, _, _, _, _, rfl, rfl⟩ |
    ⟨addresses, _, hc, rfl, rfl⟩ | ⟨_, rfl, _, _, rfl⟩
  · cases hc : s.channel <;> simp [adopted, hc]
  · cases hc : s.channel <;> simp [adopted, hc]
  · cases hc : s.channel <;> simp [adopted, hc]
  · simp [adopted, hc]
  · cases hc : s.channel <;> simp [adopted, hc]

theorem getLastD_append {α : Type} (l l' : List α) (d : α) : (l ++ l').getLastD d = l'.getLastD (l.getLastD d) := by
  rcases List.eq_nil_or_concat l' with rfl | ⟨l'', x, rfl⟩
  · simp
  · rw [List.concat_eq_append, ← List.append_assoc]
    simp

theorem newest_run (hr : (gathering P localToken lookup).Run .new tr s) :
    s.channel.getD s.addresses = (tr.flatMap broadcasts).getLastD [] ∧
      s.addresses = (tr.flatMap adopted).getLastD [] := by
  induction hr with
  | nil => exact ⟨rfl, rfl⟩
  | snoc _ hst ih =>
    rw [newest_step hst, addresses_step hst, ih.1, ih.2]
    simp only [List.flatMap_append, List.flatMap_singleton, getLastD_append, and_self]

theorem adopted_sublist (hr : (gathering P localToken lookup).Run .new tr s) :
    tr.flatMap adopted <+ tr.flatMap broadcasts := by
  have hl := hr.line_sublist (L := fun s => s.channel.toList) (T := adopted) (A := broadcasts) rfl
    fun _ _ _ _ hst => channel_step hst
  exact List.Sublist.trans (List.sublist_append_left _ _) hl

theorem timeout_step (h : (gathering P localToken lookup).step s .timeout = some (s', o)) : s.channel = none := by
  simp only [gathering] at h
  split at h
  · split at h
    · rename_i hc
      exact hc.2.1
    · cases h
  · cases h

/-- **The newest candidates are published.** The lists that the publisher
takes over are among those broadcast, in that order; every record carries the
last of them; and when the publisher finds nothing new, within a minute or at
the end of the run, that is the list broadcast last. -/
theorem publishes_newest (hr : (gathering P localToken lookup).Run .new tr s) :
    tr.flatMap adopted <+ tr.flatMap broadcasts ∧
    (∀ a en b, tr = a ++ en :: b →
      (∀ m value, en.out = .put m value → m.ipAddrList = (a.flatMap adopted).getLastD []) ∧
      (en.event = .timeout → (a.flatMap adopted).getLastD [] = (a.flatMap broadcasts).getLastD [])) ∧
    (s.channel = none → s.addresses = (tr.flatMap broadcasts).getLastD []) := by
  have hidle : ∀ {tr s}, (gathering P localToken lookup).Run .new tr s → s.channel = none →
      s.addresses = (tr.flatMap broadcasts).getLastD [] := by
    intro tr s hr hc
    have := (newest_run hr).1
    rwa [hc] at this
  refine ⟨adopted_sublist hr, ?_, hidle hr⟩
  intro a en b htr
  rw [htr] at hr
  obtain ⟨hpre, hst⟩ := hr.split
  constructor
  · intro m value hout
    rw [← (newest_run hpre).2]
    rcases gathering_cases hst with ⟨_, _, _, ho, _⟩ | ⟨_, _, _, _, ho, _⟩ | ⟨_, _, _, _, _, ho, _⟩ |
      ⟨_, _, _, ho, _⟩ | ⟨_, ho, _⟩
    all_goals rw [hout] at ho; cases ho
    rfl
  · intro he
    rw [he] at hst
    rw [← (newest_run hpre).2]
    exact hidle hpre (timeout_step hst)

end

/-- Two rounds before the publisher looks: it misses the first list, publishes the old one and then the second. -/
def sampleOverflow : List GatherEvent :=
  [.put (secs 190) (sampleNonce 0), .lookup { ipv4Round with received := [], routed := by simp }, .lookup ipv4Round,
    .receive, .put (secs 190) (sampleNonce 0), .receive, .put (secs 200) (sampleNonce 0)]

theorem sampleOverflow_runs :
    ((gathering (sampleEndpoint ⟨true, false⟩) (.fill 5) ipv4Lookup).exec .new sampleOverflow).isSome = true := by
  decide +kernel

theorem sampleOverflow_newest : ∃ tr s,
    (gathering (sampleEndpoint ⟨true, false⟩) (.fill 5) ipv4Lookup).Run .new tr s ∧
    tr.flatMap broadcasts = [[], [.testNet 2 10000]] ∧ tr.flatMap adopted = [[.testNet 2 10000]] ∧
    s.addresses = (tr.flatMap broadcasts).getLastD [] :=
  ⟨_, _, Machine.run_of_exec sampleOverflow_runs, by decide +kernel, by decide +kernel,
    (publishes_newest (Machine.run_of_exec sampleOverflow_runs)).2.2 (by decide +kernel)⟩

end P2pTunnler
