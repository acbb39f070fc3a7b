import P2pTunnler.Lib.Machine

/-!
# Parts and abstractions of a machine

A machine made of parts: a step moves one part or leaves it alone. `f` picks
the state of a part and `g` what an entry shows of it. A run of the whole is
then, for each part, a run of that part. More generally, a step may be a step
of an abstract machine or none, and a relation may keep up with both traces.
-/

universe u v w

namespace Machine

variable {σ σ' : Type u} {ε ε' : Type v} {ω ω' : Type w} {M : Machine σ ε ω} {N : Machine σ' ε' ω'} {s₀ s : σ}
  {tr : List (Entry σ ε ω)}

theorem Run.project (f : σ → σ') (g : Entry σ ε ω → Option (Entry σ' ε' ω'))
    (hs : ∀ s e o s', M.step s e = some (s', o) → (g ⟨s, e, o, s'⟩ = none ∧ f s' = f s) ∨
      ∃ e' o', g ⟨s, e, o, s'⟩ = some ⟨f s, e', o', f s'⟩ ∧ N.step (f s) e' = some (f s', o'))
    (hr : M.Run s₀ tr s) : N.Run (f s₀) (tr.filterMap g) (f s) := by
  induction hr with
  | nil => exact .nil
  | snoc _ hst ih =>
    rw [List.filterMap_append]
    rcases hs _ _ _ _ hst with ⟨hg, hf⟩ | ⟨e', o', hg, hstep⟩
    · rw [hf, List.filterMap_cons_none hg, List.filterMap_nil, List.append_nil]
      exact ih
    · rw [List.filterMap_cons_some hg, List.filterMap_nil]
      exact .snoc ih hstep

theorem Run.simulate {R : List (Entry σ ε ω) → σ → List (Entry σ' ε' ω') → σ' → Prop} {t₀ : σ'} (h₀ : R [] s₀ [] t₀)
    (hs : ∀ {tr s tr' t e o s'}, R tr s tr' t → M.step s e = some (s', o) → R (tr ++ [⟨s, e, o, s'⟩]) s' tr' t ∨
      ∃ e' o' t', N.step t e' = some (t', o') ∧ R (tr ++ [⟨s, e, o, s'⟩]) s' (tr' ++ [⟨t, e', o', t'⟩]) t')
    (hr : M.Run s₀ tr s) : ∃ tr' t, N.Run t₀ tr' t ∧ R tr s tr' t := by
  induction hr with
  | nil => exact ⟨[], t₀, .nil, h₀⟩
  | snoc _ hst ih =>
    obtain ⟨tr', t, hr', hR⟩ := ih
    rcases hs hR hst with hR' | ⟨e', o', t', hstep, hR'⟩
    · exact ⟨tr', t, hr', hR'⟩
    · exact ⟨_, t', hr'.snoc hstep, hR'⟩

end Machine
