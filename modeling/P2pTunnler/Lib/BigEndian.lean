import Mathlib.Data.List.Basic
import Mathlib.Tactic.Ring

/-!
# Big-endian numbers

Numbers of a fixed number of bytes, most significant byte first. Reading and
writing undo each other on every byte string of the width and on every number
that fits.
-/

namespace BigEndian

def toNat : List UInt8 → Nat
  | [] => 0
  | b :: l => b.toNat * 256 ^ l.length + toNat l

def bytes : Nat → Nat → List UInt8
  | 0, _ => []
  | w + 1, n => UInt8.ofNat (n / 256 ^ w) :: bytes w n

@[simp] theorem length_bytes (w n : Nat) : (bytes w n).length = w := by
  induction w with
  | zero => rfl
  | succ w ih => rw [bytes, List.length_cons, ih]

theorem toNat_lt (l : List UInt8) : toNat l < 256 ^ l.length := by
  induction l with
  | nil => exact Nat.one_pos
  | cons b l ih =>
    have hb : b.toNat + 1 ≤ 256 := b.toNat_lt
    calc toNat (b :: l) < b.toNat * 256 ^ l.length + 256 ^ l.length := Nat.add_lt_add_left ih _
      _ = (b.toNat + 1) * 256 ^ l.length := by ring
      _ ≤ 256 * 256 ^ l.length := Nat.mul_le_mul_right _ hb
      _ = 256 ^ (b :: l).length := by rw [List.length_cons]; ring

-- only the low `w` bytes of a number are written
theorem bytes_mul_add (w a n : Nat) : bytes w (a * 256 ^ w + n) = bytes w n := by
  induction w generalizing a with
  | zero => rfl
  | succ w ih =>
    have he : a * 256 ^ (w + 1) + n = (a * 256) * 256 ^ w + n := by ring
    have hd : ((a * 256) * 256 ^ w + n) / 256 ^ w = a * 256 + n / 256 ^ w := by
      rw [Nat.add_comm, Nat.add_mul_div_right _ _ (Nat.pow_pos (by decide)), Nat.add_comm]
    rw [bytes, bytes, he, ih, hd]
    congr 1
    refine UInt8.toNat_inj.mp ?_
    rw [UInt8.toNat_ofNat', UInt8.toNat_ofNat', Nat.mul_add_mod_self_right]

theorem bytes_toNat (l : List UInt8) : bytes l.length (toNat l) = l := by
  induction l with
  | nil => rfl
  | cons b l ih =>
    have hd : (b.toNat * 256 ^ l.length + toNat l) / 256 ^ l.length = b.toNat := by
      rw [Nat.add_comm, Nat.add_mul_div_right _ _ (Nat.pow_pos (by decide)), Nat.div_eq_of_lt (toNat_lt l),
        Nat.zero_add]
    rw [List.length_cons, bytes, toNat, hd, bytes_mul_add, ih, UInt8.ofNat_toNat]

theorem toNat_bytes {w n : Nat} (h : n < 256 ^ w) : toNat (bytes w n) = n := by
  induction w generalizing n with
  | zero => rw [bytes, toNat]; omega
  | succ w ih =>
    have hq : n / 256 ^ w < 256 := Nat.div_lt_of_lt_mul (by rw [Nat.pow_succ] at h; exact h)
    have hr : bytes w n = bytes w (n % 256 ^ w) := by
      conv_lhs => rw [← Nat.div_add_mod' n (256 ^ w)]
      exact bytes_mul_add _ _ _
    rw [bytes, toNat, length_bytes, hr, ih (Nat.mod_lt _ (Nat.pow_pos (by decide))), UInt8.toNat_ofNat',
      Nat.mod_eq_of_lt hq, Nat.div_add_mod']

/-- Reading gives `n` exactly on the bytes that writing `n` gives. -/
theorem toNat_eq_iff {l : List UInt8} {n : Nat} (h : n < 256 ^ l.length) :
    toNat l = n ↔ l = bytes l.length n := by
  refine ⟨fun he => ?_, fun he => ?_⟩
  · rw [← he, bytes_toNat]
  · rw [he, toNat_bytes h]

/-! ## The widths of machine integers -/

def u16 (l : List UInt8) : UInt16 := UInt16.ofNat (toNat l)

def be16 (x : UInt16) : List UInt8 := bytes 2 x.toNat

def be32 (x : UInt32) : List UInt8 := bytes 4 x.toNat

def u64 (l : List UInt8) : UInt64 := UInt64.ofNat (toNat l)

def be64 (x : UInt64) : List UInt8 := bytes 8 x.toNat

@[simp] theorem length_be16 (x : UInt16) : (be16 x).length = 2 := length_bytes _ _

@[simp] theorem length_be64 (x : UInt64) : (be64 x).length = 8 := length_bytes _ _

theorem u16_eq_iff {l : List UInt8} (h : l.length = 2) {x : UInt16} : u16 l = x ↔ l = be16 x := by
  have hx : x.toNat < 256 ^ l.length := by rw [h]; exact x.toNat_lt
  have hl : toNat l < 2 ^ 16 := by have := toNat_lt l; rw [h] at this; exact this
  rw [u16, be16, ← UInt16.toNat_inj, UInt16.toNat_ofNat', Nat.mod_eq_of_lt hl, toNat_eq_iff hx, h]

theorem u64_eq_iff {l : List UInt8} (h : l.length = 8) {x : UInt64} : u64 l = x ↔ l = be64 x := by
  have hx : x.toNat < 256 ^ l.length := by rw [h]; exact x.toNat_lt
  have hl : toNat l < 2 ^ 64 := by have := toNat_lt l; rw [h] at this; exact this
  rw [u64, be64, ← UInt64.toNat_inj, UInt64.toNat_ofNat', Nat.mod_eq_of_lt hl, toNat_eq_iff hx, h]

end BigEndian
