import Mathlib.Tactic.Ring
import Mathlib.Algebra.Order.Ring.Int

/-! # Multiply with carry

One step of a multiply-with-carry generator with multiplier `a` in base `b`: the low digit of `x` times
`a`, plus the carry, which is the rest of `x`. On the integers the numbers strictly between `0` and
`a * b` are kept (`next_pos`, `next_lt`), and `0` is reached from no other number that is not too far
below it (`next_eq_zero_iff`).
-/

namespace Ltm.MultiplyCarry
set_option autoImplicit false
set_option maxHeartbeats 250000

def next (a b x : Int) : Int := a * (x % b) + x / b

variable {a b x : Int}

theorem next_zero (a b : Int) : next a b 0 = 0 := by simp [next]

theorem next_pos (ha : 0 < a) (hb : 0 < b) (hx : 0 < x) : 0 < next a b x := by
  have hlow : 0 ≤ x % b := Int.emod_nonneg x hb.ne'
  have hcarry : 0 ≤ x / b := Int.ediv_nonneg hx.le hb.le
  have hsplit : b * (x / b) + x % b = x := Int.mul_ediv_add_emod x b
  unfold next
  rcases hlow.eq_or_lt with h0 | hpos
  · -- without a low digit all of `x` is carry
    have hne : x / b ≠ 0 := fun e => by simp [e, ← h0] at hsplit; omega
    rw [← h0, mul_zero]
    omega
  · have := mul_pos ha hpos
    omega

theorem next_lt (ha : 0 < a) (hb : 0 < b) (hx : x < a * b) : next a b x < a * b := by
  have hlow : x % b ≤ b - 1 := by
    have := Int.emod_lt_of_pos x hb
    omega
  have hcarry : x / b < a := Int.ediv_lt_of_lt_mul hb hx
  calc next a b x < a * (b - 1) + a :=
        add_lt_add_of_le_of_lt (mul_le_mul_of_nonneg_left hlow ha.le) hcarry
    _ = a * b := by ring

/-- The carry of a number from `b - a * b` on is more than `-a`, and a low digit that is not zero weighs
at least `a`. -/
theorem next_eq_zero_iff (ha : 0 < a) (hb : 0 < b) (hx : b - a * b ≤ x) :
    next a b x = 0 ↔ x = 0 := by
  refine ⟨fun h => ?_, fun h => by rw [h, next_zero]⟩
  have hlow : 0 ≤ x % b := Int.emod_nonneg x hb.ne'
  have hcarry : 1 - a ≤ x / b := by
    refine Int.le_ediv_of_mul_le hb ?_
    calc (1 - a) * b = b - a * b := by ring
      _ ≤ x := hx
  have hsplit : b * (x / b) + x % b = x := Int.mul_ediv_add_emod x b
  unfold next at h
  rcases hlow.eq_or_lt with h0 | hpos
  · rw [← h0, mul_zero, zero_add] at h
    rw [← hsplit, h, ← h0]
    simp
  · have : a * 1 ≤ a * (x % b) := mul_le_mul_of_nonneg_left hpos ha.le
    omega

end Ltm.MultiplyCarry
