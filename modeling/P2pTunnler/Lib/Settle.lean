import P2pTunnler.Lib.Machine

/-!
# Settling

The events of a class `C` use up a measure `m`, as long as an invariant `I`
holds. Then a run of such events is never longer than the measure it starts
from, and some run of them leads to a state in which none is possible.
-/

universe u v w

namespace Machine

variable {σ : Type u} {ε : Type v} {ω : Type w} {M : Machine σ ε ω} {s₀ s s' : σ} {tr : List (Entry σ ε ω)}
  {I : σ → Prop} {C : ε → Prop} {m : σ → Nat}

theorem Run.append {tr' : List (Entry σ ε ω)} (h : M.Run s₀ tr s) (h' : M.Run s tr' s') :
    M.Run s₀ (tr ++ tr') s' := by
  induction h' with
  | nil => simpa using h
  | snoc _ hst ih =>
    rw [← List.append_assoc]
    exact .snoc ih hst

theorem Run.length_add_le
    (hm : ∀ s e o s', I s → C e → M.step s e = some (s', o) → I s' ∧ m s' < m s)
    (h0 : I s₀) (hr : M.Run s₀ tr s) (hC : ∀ en ∈ tr, C en.event) : I s ∧ tr.length + m s ≤ m s₀ := by
  induction hr with
  | nil => exact ⟨h0, by simp⟩
  | snoc _ hst ih =>
    obtain ⟨hI, hle⟩ := ih fun en hen => hC en (List.mem_append_left _ hen)
    obtain ⟨hI', hlt⟩ := hm _ _ _ _ hI (hC _ (List.mem_append_right _ (List.mem_singleton_self _))) hst
    refine ⟨hI', ?_⟩
    rw [List.length_append, List.length_singleton]
    omega

theorem exists_settled
    (hm : ∀ s e o s', I s → C e → M.step s e = some (s', o) → I s' ∧ m s' < m s) (h0 : I s₀) :
    ∃ tr s, M.Run s₀ tr s ∧ (∀ en ∈ tr, C en.event) ∧ ∀ e, C e → M.step s e = none := by
  induction hn : m s₀ using Nat.strongRecOn generalizing s₀ with
  | _ n ih =>
    by_cases hstop : ∀ e, C e → M.step s₀ e = none
    · exact ⟨[], s₀, .nil, by simp, hstop⟩
    · push Not at hstop
      obtain ⟨e, he, hne⟩ := hstop
      obtain ⟨⟨s₁, o⟩, hst⟩ := Option.ne_none_iff_exists'.mp hne
      obtain ⟨hI, hlt⟩ := hm _ _ _ _ h0 he hst
      obtain ⟨tr, s, hr, hC, hs⟩ := ih (m s₁) (hn ▸ hlt) hI rfl
      refine ⟨_, s, .cons hst hr, ?_, hs⟩
      intro en hen
      rcases List.mem_cons.mp hen with rfl | hen
      · exact he
      · exact hC en hen

end Machine
