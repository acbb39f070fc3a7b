import P2pTunnler.Lib.Machine

/-!
# Lines

Each step of a machine takes things `T` from the front of a line `L` and adds
things `A` at its end. When what is taken and what is left is what was there
and what is added, then over a whole run what was taken and what is left is
what was added; and when a step may drop, it is a sublist of it.
-/

universe u v w x

namespace Machine

open scoped List

variable {σ : Type u} {ε : Type v} {ω : Type w} {α : Type x} {M : Machine σ ε ω} {s₀ s : σ}
  {tr : List (Entry σ ε ω)} {L : σ → List α} {T A : Entry σ ε ω → List α}

theorem Run.line_sublist (h0 : L s₀ = [])
    (hs : ∀ s e o s', M.step s e = some (s', o) → T ⟨s, e, o, s'⟩ ++ L s' <+ L s ++ A ⟨s, e, o, s'⟩)
    (hr : M.Run s₀ tr s) : tr.flatMap T ++ L s <+ tr.flatMap A := by
  induction hr with
  | nil => simp [h0]
  | snoc _ hst ih =>
    rw [List.flatMap_append, List.flatMap_append, List.flatMap_singleton, List.flatMap_singleton, List.append_assoc]
    refine List.Sublist.trans ((List.Sublist.refl _).append (hs _ _ _ _ hst)) ?_
    rw [← List.append_assoc]
    exact ih.append (List.Sublist.refl _)

theorem Run.line_eq (h0 : L s₀ = [])
    (hs : ∀ s e o s', M.step s e = some (s', o) → T ⟨s, e, o, s'⟩ ++ L s' = L s ++ A ⟨s, e, o, s'⟩)
    (hr : M.Run s₀ tr s) : tr.flatMap T ++ L s = tr.flatMap A := by
  induction hr with
  | nil => simp [h0]
  | snoc _ hst ih =>
    rw [List.flatMap_append, List.flatMap_append, List.flatMap_singleton, List.flatMap_singleton, List.append_assoc,
      hs _ _ _ _ hst, ← List.append_assoc, ih]

end Machine
