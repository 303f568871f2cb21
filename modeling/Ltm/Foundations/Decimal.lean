import Mathlib.Algebra.Ring.Int.Defs
import Mathlib.Algebra.Ring.Nat
import Mathlib.Data.List.Basic

/-! # Decimal integers

`print` writes an integer in decimal, `scan` reads one from the start of a text: it skips blanks, takes
a sign, and stops at the first character that is not a digit. A text that begins with a printed
integer is read as that integer (`scan_print_append`).
-/

namespace Ltm.Decimal
set_option autoImplicit false
set_option maxHeartbeats 250000

/-- Space, and the characters from tabulator to carriage return. -/
def isSpace (c : Char) : Bool := c.toNat = 32 || (9 ≤ c.toNat && c.toNat ≤ 13)

def print (n : Int) : List Char :=
  if n < 0 then '-' :: Nat.toDigits 10 n.natAbs else Nat.toDigits 10 n.natAbs

/-- The number that the digits at the start of the text are; `0` if there are none. -/
def digits (l : List Char) : ℕ := Nat.ofDigitChars 10 (l.takeWhile Char.isDigit) 0

def signed : List Char → Int
  | [] => 0
  | c :: l => if c = '-' then -(digits l : Int) else if c = '+' then digits l else digits (c :: l)

def scan (l : List Char) : Int := signed (l.dropWhile isSpace)

variable {c : Char} {l rest : List Char} {n : Int} {k : ℕ}

theorem not_isSpace_of_isDigit (h : c.isDigit = true) : isSpace c = false := by
  simp only [Char.isDigit, Bool.and_eq_true, decide_eq_true_eq] at h
  have hle : 48 ≤ c.toNat := h.1
  simp only [isSpace, Bool.or_eq_false_iff, decide_eq_false_iff_not, Bool.and_eq_false_imp,
    decide_eq_true_eq]
  omega

theorem digits_append (hl : ∀ c ∈ l, c.isDigit = true) (hrest : ∀ c ∈ rest.head?, c.isDigit = false) :
    digits (l ++ rest) = Nat.ofDigitChars 10 l 0 := by
  have hstop : rest.takeWhile Char.isDigit = [] := by
    cases rest with
    | nil => rfl
    | cons c rest => simp [hrest c rfl]
  rw [digits, List.takeWhile_append_of_pos hl, hstop, List.append_nil]

theorem isDigit_of_mem_toDigits (n : ℕ) : ∀ c ∈ Nat.toDigits 10 n, c.isDigit = true :=
  fun _ hc => Nat.isDigit_of_mem_toDigits (by decide) (by decide) hc

theorem digits_toDigits_append (n : ℕ) (hrest : ∀ c ∈ rest.head?, c.isDigit = false) :
    digits (Nat.toDigits 10 n ++ rest) = n := by
  rw [digits_append (isDigit_of_mem_toDigits n) hrest, Nat.ofDigitChars_ten_toDigits]

/-- A text that begins with a digit has no sign. -/
theorem signed_of_isDigit (h : c.isDigit = true) : signed (c :: l) = digits (c :: l) := by
  have hminus : c ≠ '-' := by
    rintro rfl
    exact absurd h (by decide)
  have hplus : c ≠ '+' := by
    rintro rfl
    exact absurd h (by decide)
  rw [signed, if_neg hminus, if_neg hplus]

theorem scan_print_append (n : Int) (hrest : ∀ c ∈ rest.head?, c.isDigit = false) :
    scan (print n ++ rest) = n := by
  unfold print scan
  by_cases hn : n < 0
  · rw [if_pos hn, List.cons_append, List.dropWhile_cons_of_neg (by decide), signed, if_pos rfl,
      digits_toDigits_append n.natAbs hrest]
    omega
  · rw [if_neg hn]
    obtain ⟨c, l, hcl⟩ := List.exists_cons_of_ne_nil (Nat.toDigits_ne_nil (n := n.natAbs) (b := 10))
    have hc : c.isDigit = true := isDigit_of_mem_toDigits n.natAbs c (by simp [hcl])
    have hread := digits_toDigits_append n.natAbs hrest
    rw [hcl, List.cons_append] at hread ⊢
    rw [List.dropWhile_cons_of_neg (by simp [not_isSpace_of_isDigit hc]), signed_of_isDigit hc, hread]
    omega

theorem scan_print (n : Int) : scan (print n) = n := by
  have h := @scan_print_append [] n (by simp)
  rwa [List.append_nil] at h

/-- The integers that `k + 1` characters have room for. -/
theorem length_print_le_iff (hk : 0 < k) :
    (print n).length ≤ k + 1 ↔ -((10 ^ k : ℕ) : Int) < n ∧ n < ((10 ^ (k + 1) : ℕ) : Int) := by
  have hpow : 10 ^ k < 10 ^ (k + 1) := Nat.pow_lt_pow_right (by decide) (Nat.lt_succ_self k)
  unfold print
  by_cases hn : n < 0
  · rw [if_pos hn, List.length_cons, Nat.add_le_add_iff_right, Nat.length_toDigits_le_iff (by decide) hk]
    omega
  · rw [if_neg hn, Nat.length_toDigits_le_iff (by decide) (Nat.succ_pos k)]
    omega

end Ltm.Decimal
