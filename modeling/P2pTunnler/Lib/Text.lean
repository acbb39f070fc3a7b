import Mathlib.Data.List.Basic
import Mathlib.Tactic.Ring

/-!
# Lines, words and numerals

A text is its list of characters. Lines end at a newline, words are what
stands between white space, and a numeral is read in a radix, below a bound.
-/

namespace Text

/-! ## Lines -/

def stripCarriageReturn (line : List Char) : List Char :=
  if line.getLast? = some '\r' then line.dropLast else line

/-- Each line without its `\n` or `\r\n`; what follows the last newline is a line if it is not empty. -/
def lines (text : List Char) : List (List Char) :=
  (text.splitOn '\n').dropLast.map stripCarriageReturn ++ ((text.splitOn '\n').getLast?.filter (· ≠ [])).toList

def unlines (ls : List (List Char)) : List Char := ls.flatMap (· ++ ['\n'])

theorem splitOn_unlines {ls : List (List Char)} (h : ∀ l ∈ ls, '\n' ∉ l) : (unlines ls).splitOn '\n' = ls ++ [[]] := by
  induction ls with
  | nil => rfl
  | cons l ls ih =>
    have hl : '\n' ∉ l := h l (by simp)
    have hls : ∀ l ∈ ls, '\n' ∉ l := fun l' hl' => h l' (by simp [hl'])
    have he : unlines (l :: ls) = l ++ '\n' :: unlines ls := by simp [unlines]
    rw [he, List.splitOn_append_cons_self_of_not_mem hl, ih hls, List.cons_append]

theorem lines_unlines {ls : List (List Char)} (h : ∀ l ∈ ls, '\n' ∉ l) :
    lines (unlines ls) = ls.map stripCarriageReturn := by
  simp [lines, splitOn_unlines h]

/-! ## Words -/

section
variable {α : Type} {p : α → Bool}

theorem not_mem_intercalate {c x : α} (hx : x ≠ c) {ws : List (List α)} (h : ∀ w ∈ ws, x ∉ w) :
    x ∉ [c].intercalate ws := by
  induction ws with
  | nil => simp
  | cons w ws ih =>
    have hw : x ∉ w := h w (by simp)
    cases ws with
    | nil => simpa using hw
    | cons v vs =>
      have hvs := ih fun w' hw' => h w' (by simp [hw'])
      rw [List.intercalate_cons_cons]
      simp [hw, hx, hvs]

def words [DecidableEq α] (p : α → Bool) (l : List α) : List (List α) := (l.splitOnP p).filter (· ≠ [])

variable [DecidableEq α]

theorem words_append_cons (a b : List α) {c : α} (h : p c = true) : words p (a ++ c :: b) = words p a ++ words p b := by
  rw [words, List.splitOnP_append_cons a b h, List.filter_append]
  rfl

theorem words_of_forall {w : List α} (hne : w ≠ []) (h : ∀ c ∈ w, p c = false) : words p w = [w] := by
  rw [words, List.splitOnP_eq_singleton h]
  simp [hne]

theorem words_intercalate {c : α} (hc : p c = true) {ws : List (List α)}
    (h : ∀ w ∈ ws, w ≠ [] ∧ ∀ x ∈ w, p x = false) : words p ([c].intercalate ws) = ws := by
  induction ws with
  | nil => simp [words]
  | cons w ws ih =>
    have hw := words_of_forall (h w (by simp)).1 (h w (by simp)).2
    cases ws with
    | nil => simpa using hw
    | cons v vs =>
      rw [List.intercalate_cons_cons, List.append_assoc, List.singleton_append, words_append_cons _ _ hc, hw,
        ih fun w' hw' => h w' (by simp [hw'])]
      rfl

end

theorem words_stripCarriageReturn {p : Char → Bool} (h : p '\r' = true) (line : List Char) :
    words p (stripCarriageReturn line) = words p line := by
  rw [stripCarriageReturn]
  split
  · rename_i hr
    obtain ⟨l, rfl⟩ := List.getLast?_eq_some_iff.mp hr
    rw [List.dropLast_concat, words_append_cons _ _ h]
    simp [words]
  · rfl

/-! ## Numerals -/

def toDigit (radix : Nat) (c : Char) : Option Nat :=
  let d? : Option Nat :=
    if '0' ≤ c ∧ c ≤ '9' then some (c.toNat - '0'.toNat)
    else if 'a' ≤ c ∧ c ≤ 'z' then some (c.toNat - 'a'.toNat + 10)
    else if 'A' ≤ c ∧ c ≤ 'Z' then some (c.toNat - 'A'.toNat + 10)
    else none
  d?.filter (· < radix)

-- every step is checked against the bound
def readDigits (bound radix : Nat) : Nat → List Char → Option Nat
  | acc, [] => some acc
  | acc, c :: cs =>
    match toDigit radix c with
    | none => none
    | some d => if acc * radix + d < bound then readDigits bound radix (acc * radix + d) cs else none

/-- An unsigned number below `bound`: digits in `radix`, after a `+` or not. -/
def fromStrRadix (bound radix : Nat) : List Char → Option Nat
  | [] => none
  | ['+'] => none
  | '+' :: ds => readDigits bound radix 0 ds
  | ds => readDigits bound radix 0 ds

-- upper-case hexadecimal
def hexDigit (d : Nat) : Char := (Nat.digitChar d).toUpper

def hex : Nat → Nat → List Char
  | 0, _ => []
  | w + 1, n => hexDigit (n / 16 ^ w % 16) :: hex w n

@[simp] theorem length_hex (w n : Nat) : (hex w n).length = w := by
  induction w with
  | zero => rfl
  | succ w ih => rw [hex, List.length_cons, ih]

theorem toDigit_hexDigit {d : Nat} (h : d < 16) : toDigit 16 (hexDigit d) = some d := by
  revert h d
  decide

theorem readDigits_hex {bound : Nat} {w acc n : Nat} (hb : acc * 16 ^ w + n % 16 ^ w < bound) :
    readDigits bound 16 acc (hex w n) = some (acc * 16 ^ w + n % 16 ^ w) := by
  induction w generalizing acc with
  | zero => simp [hex, readDigits, Nat.mod_one]
  | succ w ih =>
    have hd : n / 16 ^ w % 16 < 16 := Nat.mod_lt _ (by decide)
    have hsplit : n % 16 ^ (w + 1) = n / 16 ^ w % 16 * 16 ^ w + n % 16 ^ w := by
      rw [Nat.pow_succ, Nat.mod_mul, Nat.mul_comm (n / 16 ^ w % 16), Nat.add_comm]
    have hacc : acc * 16 ^ (w + 1) + n % 16 ^ (w + 1) = (acc * 16 + n / 16 ^ w % 16) * 16 ^ w + n % 16 ^ w := by
      rw [hsplit]
      ring
    rw [hacc] at hb ⊢
    have hstep : acc * 16 + n / 16 ^ w % 16 < bound := by
      apply Nat.lt_of_le_of_lt _ hb
      apply Nat.le_trans _ (Nat.le_add_right _ _)
      exact Nat.le_mul_of_pos_right _ (Nat.pow_pos (by decide))
    rw [hex, readDigits, toDigit_hexDigit hd]
    simp only [if_pos hstep]
    exact ih hb

theorem fromStrRadix_cons {bound radix : Nat} {c : Char} (h : c ≠ '+') (cs : List Char) :
    fromStrRadix bound radix (c :: cs) = readDigits bound radix 0 (c :: cs) := by
  unfold fromStrRadix
  split <;> simp_all

theorem hexDigit_ne_plus {d : Nat} (h : d < 16) : hexDigit d ≠ '+' := by
  revert h d
  decide

theorem fromStrRadix_hex {bound w n : Nat} (hw : 0 < w) (hn : n < 16 ^ w) (hb : n < bound) :
    fromStrRadix bound 16 (hex w n) = some n := by
  obtain ⟨w, rfl⟩ := Nat.exists_eq_succ_of_ne_zero hw.ne'
  have hr : readDigits bound 16 0 (hex (w + 1) n) = some n := by
    rw [readDigits_hex] <;> rw [Nat.zero_mul, Nat.zero_add, Nat.mod_eq_of_lt hn]
    exact hb
  rw [← hr]
  exact fromStrRadix_cons (hexDigit_ne_plus (Nat.mod_lt _ (by decide))) _

end Text
