import Mathlib.Data.Finset.Card

/-!
# Finite tables and capped sets

A hash table as a function with a finite key set. Iteration order is never
part of the value: an operation whose result depends on it takes the order
as a list.
-/

universe u v

structure FinTable (α : Type u) (β : Type v) where
  lookup : α → Option β
  keys : Finset α
  mem_keys : ∀ a, a ∈ keys ↔ (lookup a).isSome

namespace FinTable

variable {α : Type u} {β : Type v}

theorem mem_keys_of_lookup {t : FinTable α β} {a : α} {b : β} (h : t.lookup a = some b) : a ∈ t.keys := by
  rw [t.mem_keys, h]; rfl

theorem exists_lookup {t : FinTable α β} {a : α} (h : a ∈ t.keys) : ∃ b, t.lookup a = some b :=
  Option.isSome_iff_exists.mp ((t.mem_keys a).mp h)

theorem lookup_eq_none {t : FinTable α β} {a : α} : t.lookup a = none ↔ a ∉ t.keys := by
  rw [t.mem_keys]; simp

@[ext] theorem ext {t₁ t₂ : FinTable α β} (h : ∀ a, t₁.lookup a = t₂.lookup a) : t₁ = t₂ := by
  obtain ⟨l₁, k₁, m₁⟩ := t₁
  obtain ⟨l₂, k₂, m₂⟩ := t₂
  obtain rfl : l₁ = l₂ := funext h
  obtain rfl : k₁ = k₂ := Finset.ext fun a => by rw [m₁, m₂]
  rfl

def size (t : FinTable α β) : Nat := t.keys.card

def empty : FinTable α β := ⟨fun _ => none, ∅, by simp⟩

@[simp] theorem lookup_empty (a : α) : (empty : FinTable α β).lookup a = none := rfl

@[simp] theorem keys_empty : (empty : FinTable α β).keys = ∅ := rfl

def retain (p : α → β → Bool) (t : FinTable α β) : FinTable α β where
  lookup a := (t.lookup a).filter (p a)
  keys := t.keys.filter fun a => (t.lookup a).any (p a)
  mem_keys a := by
    rw [Finset.mem_filter, t.mem_keys]
    cases t.lookup a <;> simp [Option.filter]

@[simp] theorem lookup_retain (p : α → β → Bool) (t : FinTable α β) (a : α) :
    (t.retain p).lookup a = (t.lookup a).filter (p a) := rfl

section
variable [DecidableEq α]

def insert (t : FinTable α β) (a : α) (b : β) : FinTable α β where
  lookup x := if x = a then some b else t.lookup x
  keys := Insert.insert a t.keys
  mem_keys x := by
    rw [Finset.mem_insert, t.mem_keys]
    by_cases h : x = a <;> simp [h]

@[simp] theorem lookup_insert (t : FinTable α β) (a : α) (b : β) (x : α) :
    (t.insert a b).lookup x = if x = a then some b else t.lookup x := rfl

@[simp] theorem keys_insert (t : FinTable α β) (a : α) (b : β) :
    (t.insert a b).keys = Insert.insert a t.keys := rfl

def orInsertAll (t : FinTable α β) (s : Finset α) (b : β) : FinTable α β where
  lookup x := if x ∈ s then some ((t.lookup x).getD b) else t.lookup x
  keys := t.keys ∪ s
  mem_keys x := by
    rw [Finset.mem_union, t.mem_keys]
    by_cases h : x ∈ s <;> simp [h]

@[simp] theorem lookup_orInsertAll (t : FinTable α β) (s : Finset α) (b : β) (x : α) :
    (t.orInsertAll s b).lookup x = if x ∈ s then some ((t.lookup x).getD b) else t.lookup x := rfl

@[simp] theorem keys_orInsertAll (t : FinTable α β) (s : Finset α) (b : β) :
    (t.orInsertAll s b).keys = t.keys ∪ s := rfl

end

def mapVal (f : α → β → β) (t : FinTable α β) : FinTable α β where
  lookup a := (t.lookup a).map (f a)
  keys := t.keys
  mem_keys a := by rw [t.mem_keys]; simp

@[simp] theorem lookup_mapVal (f : α → β → β) (t : FinTable α β) (a : α) :
    (t.mapVal f).lookup a = (t.lookup a).map (f a) := rfl

@[simp] theorem keys_mapVal (f : α → β → β) (t : FinTable α β) : (t.mapVal f).keys = t.keys := rfl

end FinTable

/-! ## Iteration orders and capped insertion -/

namespace Finset

variable {α : Type u} [DecidableEq α]

/-- `l` lists the elements of `s`, each once: one of the orders a hash set may iterate in. -/
def Enumerates (l : List α) (s : Finset α) : Prop := l.Nodup ∧ l.toFinset = s

instance (l : List α) (s : Finset α) : Decidable (Enumerates l s) :=
  inferInstanceAs (Decidable (_ ∧ _))

theorem Enumerates.mem {l : List α} {s : Finset α} (h : Enumerates l s) {a : α} : a ∈ l ↔ a ∈ s := by
  rw [← h.2, List.mem_toFinset]

theorem Enumerates.length {l : List α} {s : Finset α} (h : Enumerates l s) : l.length = s.card := by
  rw [← h.2, List.toFinset_card_of_nodup h.1]

def insertUpTo (n : Nat) : Finset α → List α → Finset α
  | s, [] => s
  | s, a :: l => if s.card = n then s else insertUpTo n (insert a s) l

theorem subset_insertUpTo (n : Nat) : ∀ (l : List α) (s : Finset α), s ⊆ insertUpTo n s l
  | [], _ => Subset.refl _
  | a :: l, s => by
    rw [insertUpTo]
    split
    · exact Subset.refl _
    · exact (subset_insert a s).trans (subset_insertUpTo n l _)

theorem insertUpTo_subset (n : Nat) : ∀ (l : List α) (s : Finset α), insertUpTo n s l ⊆ s ∪ l.toFinset
  | [], s => by simp [insertUpTo]
  | a :: l, s => by
    rw [insertUpTo]
    split
    · exact subset_union_left
    · refine (insertUpTo_subset n l _).trans fun x hx => ?_
      simp only [mem_union, mem_insert, List.mem_toFinset, List.mem_cons] at hx ⊢
      tauto

theorem card_insertUpTo_le {n : Nat} : ∀ (l : List α) {s : Finset α}, s.card ≤ n → (insertUpTo n s l).card ≤ n
  | [], _, h => h
  | a :: l, s, h => by
    rw [insertUpTo]
    split
    · exact h
    · refine card_insertUpTo_le l ?_
      have := card_insert_le a s
      omega

theorem union_toFinset_cons (s : Finset α) (a : α) (l : List α) :
    s ∪ (a :: l).toFinset = insert a s ∪ l.toFinset := by
  ext x
  simp only [mem_union, mem_insert, List.mem_toFinset, List.mem_cons]
  tauto

theorem insertUpTo_eq_union {n : Nat} : ∀ (l : List α) {s : Finset α}, (s ∪ l.toFinset).card ≤ n →
    insertUpTo n s l = s ∪ l.toFinset
  | [], s, _ => by simp [insertUpTo]
  | a :: l, s, h => by
    rw [insertUpTo]
    split
    · rename_i hn
      exact eq_of_subset_of_card_le subset_union_left (hn ▸ h)
    · rw [union_toFinset_cons] at h ⊢
      exact insertUpTo_eq_union l h

/-- Insertion goes on until the cap is reached, if there is enough to insert. -/
theorem card_insertUpTo_eq {n : Nat} : ∀ (l : List α) {s : Finset α}, s.card ≤ n → n ≤ (s ∪ l.toFinset).card →
    (insertUpTo n s l).card = n
  | [], s, hs, h => by
    rw [List.toFinset_nil, union_empty] at h
    exact Nat.le_antisymm hs h
  | a :: l, s, hs, h => by
    rw [insertUpTo]
    split
    · assumption
    · rename_i hn
      have := card_insert_le a s
      rw [union_toFinset_cons] at h
      exact card_insertUpTo_eq l (by omega) h

end Finset
