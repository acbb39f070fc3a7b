import Mathlib.Data.Option.Basic

/-!
# Watch channels

A channel that keeps only the last value that was sent. Each send makes a new
version; a receiver remembers the version it has seen and waits for another
one, or for the last sender to go. A value that came before that is still seen.
-/

universe u

structure Watch (α : Type u) where
  value : α
  version : Nat
  senders : Nat

namespace Watch

variable {α : Type u}

inductive Poll
  | pending
  | closed
  -- the version that is seen from now on
  | changed (seen : Nat)
  deriving DecidableEq

def channel (init : α) : Watch α := ⟨init, 0, 1⟩

def clone (w : Watch α) : Watch α := { w with senders := w.senders + 1 }

def drop (w : Watch α) : Watch α := { w with senders := w.senders - 1 }

/-- `modify` changes the value and says whether the receivers are to know. -/
def sendIfModified (w : Watch α) (modify : α → α × Bool) : Watch α :=
  if (modify w.value).2 then { w with value := (modify w.value).1, version := w.version + 1 }
  else { w with value := (modify w.value).1 }

def sendReplace (w : Watch α) (value : α) : Watch α := { w with value := value, version := w.version + 1 }

def poll (w : Watch α) (seen : Nat) : Poll :=
  if w.version ≠ seen then .changed w.version
  else if w.senders = 0 then .closed
  else .pending

theorem poll_changed {w : Watch α} {seen : Nat} (h : w.version ≠ seen) : w.poll seen = .changed w.version := if_pos h

theorem poll_pending {w : Watch α} {seen : Nat} (hv : w.version = seen) (hs : 0 < w.senders) :
    w.poll seen = .pending := by
  rw [poll, if_neg (not_not.mpr hv), if_neg (Nat.ne_of_gt hs)]

theorem poll_closed {w : Watch α} {seen : Nat} (hv : w.version = seen) (hs : w.senders = 0) :
    w.poll seen = .closed := by
  rw [poll, if_neg (not_not.mpr hv), if_pos hs]

theorem poll_eq_changed {w : Watch α} {seen seen' : Nat} :
    w.poll seen = .changed seen' ↔ w.version ≠ seen ∧ w.version = seen' := by
  by_cases hv : w.version = seen
  · by_cases hs : w.senders = 0
    · simp [poll_closed hv hs, hv]
    · simp [poll_pending hv (Nat.pos_of_ne_zero hs), hv]
  · simp [poll_changed hv, hv]

theorem version_of_poll_ne {w : Watch α} {seen : Nat} {p : Poll} (hp : w.poll seen = p)
    (hne : ∀ seen', p ≠ .changed seen') : w.version = seen := by
  by_contra hv
  rw [poll_changed hv] at hp
  exact hne _ hp.symm

end Watch
