import Mathlib.Data.List.Basic

/-!
# Machines, runs and past-time properties

A machine steps on events and answers each with an output. A run keeps its
whole trace, so a property of the past is a property of a list: `Since P Q`
says that `P` happened and only `Q` steps came after it.
-/

universe u v w

structure Machine (σ : Type u) (ε : Type v) (ω : Type w) where
  step : σ → ε → Option (σ × ω)

namespace Machine

structure Entry (σ : Type u) (ε : Type v) (ω : Type w) where
  pre : σ
  event : ε
  out : ω
  post : σ

variable {σ : Type u} {ε : Type v} {ω : Type w}

/-- `M.Run s₀ tr s`: the steps `tr`, oldest first, lead from `s₀` to `s`. -/
inductive Run (M : Machine σ ε ω) (s₀ : σ) : List (Entry σ ε ω) → σ → Prop
  | nil : Run M s₀ [] s₀
  | snoc {tr s e o s'} : Run M s₀ tr s → M.step s e = some (s', o) → Run M s₀ (tr ++ [⟨s, e, o, s'⟩]) s'

def exec (M : Machine σ ε ω) (s : σ) : List ε → Option (List (Entry σ ε ω) × σ)
  | [] => some ([], s)
  | e :: es =>
    match M.step s e with
    | none => none
    | some (s', o) => (M.exec s' es).map fun r => (⟨s, e, o, s'⟩ :: r.1, r.2)

variable {M : Machine σ ε ω} {s₀ s s' : σ} {tr : List (Entry σ ε ω)}

theorem Run.cons {e : ε} {o : ω} (h : M.step s₀ e = some (s', o)) (hr : M.Run s' tr s) :
    M.Run s₀ (⟨s₀, e, o, s'⟩ :: tr) s := by
  induction hr with
  | nil => exact .snoc .nil h
  | snoc _ hs ih => rw [← List.cons_append]; exact .snoc ih hs

theorem exec_run : ∀ {es : List ε} {s₀ : σ} {tr : List (Entry σ ε ω)} {s : σ},
    M.exec s₀ es = some (tr, s) → M.Run s₀ tr s
  | [], s₀, tr, s, h => by
    simp only [exec, Option.some.injEq, Prod.mk.injEq] at h
    obtain ⟨rfl, rfl⟩ := h; exact .nil
  | e :: es, s₀, tr, s, h => by
    simp only [exec] at h
    split at h
    · cases h
    · rename_i s' o hs
      obtain ⟨⟨tr', t⟩, hx, he⟩ := Option.map_eq_some_iff.mp h
      simp only [Prod.mk.injEq] at he
      obtain ⟨rfl, rfl⟩ := he
      exact Run.cons hs (exec_run hx)

theorem exec_events : ∀ {es : List ε} {s₀ : σ} {tr : List (Entry σ ε ω)} {s : σ},
    M.exec s₀ es = some (tr, s) → tr.map (·.event) = es
  | [], s₀, tr, s, h => by
    simp only [exec, Option.some.injEq, Prod.mk.injEq] at h
    obtain ⟨rfl, _⟩ := h; rfl
  | e :: es, s₀, tr, s, h => by
    simp only [exec] at h
    split at h
    · cases h
    · obtain ⟨⟨tr', t⟩, hx, he⟩ := Option.map_eq_some_iff.mp h
      simp only [Prod.mk.injEq] at he
      obtain ⟨rfl, _⟩ := he
      rw [List.map_cons, exec_events hx]

theorem event_mem_of_exec {es : List ε} (h : (M.exec s₀ es).isSome = true) {en : Entry σ ε ω}
    (hen : en ∈ ((M.exec s₀ es).get h).1) : en.event ∈ es := by
  have hev := exec_events (Option.some_get h).symm
  rw [← hev]
  exact List.mem_map_of_mem hen

theorem run_of_exec {es : List ε} (h : (M.exec s₀ es).isSome = true) :
    M.Run s₀ ((M.exec s₀ es).get h).1 ((M.exec s₀ es).get h).2 :=
  exec_run (Option.some_get h).symm

/-! ## Invariants of runs -/

/-- A property of the trace and the state it leads to, kept by every step
that `C` allows, holds of every run made of such steps. -/
theorem Run.history {C : Entry σ ε ω → Prop} {P : List (Entry σ ε ω) → σ → Prop} (h0 : P [] s₀)
    (hs : ∀ tr s e o s', M.Run s₀ tr s → P tr s → M.step s e = some (s', o) → C ⟨s, e, o, s'⟩ →
      P (tr ++ [⟨s, e, o, s'⟩]) s')
    (hr : M.Run s₀ tr s) (hC : ∀ en ∈ tr, C en) : P tr s := by
  induction hr with
  | nil => exact h0
  | snoc hr hst ih =>
    exact hs _ _ _ _ _ hr (ih fun en hen => hC en (List.mem_append_left _ hen)) hst (hC _ (by simp))

theorem Run.invariant {C : Entry σ ε ω → Prop} {P : σ → Prop} (h0 : P s₀)
    (hs : ∀ s e o s', P s → M.step s e = some (s', o) → C ⟨s, e, o, s'⟩ → P s')
    (hr : M.Run s₀ tr s) (hC : ∀ en ∈ tr, C en) : P s :=
  hr.history (P := fun _ s => P s) h0 (fun _ _ _ _ _ _ hP hst hc => hs _ _ _ _ hP hst hc) hC

theorem Run.split {a b : List (Entry σ ε ω)} {en : Entry σ ε ω} (hr : M.Run s₀ (a ++ en :: b) s) :
    M.Run s₀ a en.pre ∧ M.step en.pre en.event = some (en.post, en.out) := by
  generalize ht : a ++ en :: b = t at hr
  induction hr generalizing b with
  | nil => simp at ht
  | @snoc tr s e o s' hr hst ih =>
    rcases List.eq_nil_or_concat b with rfl | ⟨b', x, rfl⟩
    · obtain ⟨rfl, he⟩ := List.append_inj' ht rfl
      obtain rfl : en = ⟨s, e, o, s'⟩ := by simpa using he
      exact ⟨hr, hst⟩
    · rw [List.concat_eq_append, ← List.cons_append, ← List.append_assoc] at ht
      exact ih (List.append_inj' ht rfl).1

theorem Run.of_append {a b : List (Entry σ ε ω)} (hr : M.Run s₀ (a ++ b) s) : ∃ s', M.Run s₀ a s' := by
  cases b with
  | nil => rw [List.append_nil] at hr; exact ⟨s, hr⟩
  | cons en b => exact ⟨en.pre, hr.split.1⟩

/-! ## Past-time properties -/

/-- `P` happened, and every step after it was a `Q`. -/
def Since {α : Type u} (P Q : α → Prop) (tr : List α) : Prop :=
  ∃ a x b, tr = a ++ x :: b ∧ P x ∧ ∀ y ∈ b, Q y

theorem since_snoc {α : Type u} {P Q : α → Prop} {tr : List α} {x : α} :
    Since P Q (tr ++ [x]) ↔ P x ∨ Q x ∧ Since P Q tr := by
  constructor
  · rintro ⟨a, y, b, h, hP, hQ⟩
    rcases List.eq_nil_or_concat b with rfl | ⟨b', z, rfl⟩
    · obtain ⟨-, he⟩ := List.append_inj' h rfl
      obtain rfl : x = y := by simpa using he
      exact .inl hP
    · rw [List.concat_eq_append] at h hQ
      rw [← List.cons_append, ← List.append_assoc] at h
      obtain ⟨rfl, he⟩ := List.append_inj' h rfl
      obtain rfl : x = z := by simpa using he
      exact .inr ⟨hQ x (by simp), a, y, b', rfl, hP, fun w hw => hQ w (by simp [hw])⟩
  · rintro (hP | ⟨hQ, a, y, b, rfl, hP, hb⟩)
    · exact ⟨tr, x, [], rfl, hP, by simp⟩
    · refine ⟨a, y, b ++ [x], by simp, hP, fun w hw => ?_⟩
      rcases List.mem_append.mp hw with hw | hw
      · exact hb w hw
      · rw [List.mem_singleton.mp hw]; exact hQ

end Machine
