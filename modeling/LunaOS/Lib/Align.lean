import Mathlib.Algebra.Order.Floor.Div
import Mathlib.Data.Nat.Bitwise
import Mathlib.Order.Bounds.Basic

/-!
Rounding to a power of two with a bit mask, as programs on fixed-width words do
it: clearing the low `k` bits of a `w`-bit number is rounding it down. Rounding
up gives the least multiple that is not below, whatever the number is rounded to.
-/
namespace Align

theorem land_high_mask {n w k : Nat} (hn : n < 2 ^ w) (hk : k ≤ w) :
    n &&& (2 ^ w - 2 ^ k) = n / 2 ^ k * 2 ^ k := by
  have pos : 1 ≤ 2 ^ k := Nat.one_le_two_pow
  have le : 2 ^ k ≤ 2 ^ w := Nat.pow_le_pow_right (by decide) hk
  have mask : 2 ^ w - 2 ^ k = 2 ^ w - ((2 ^ k - 1) + 1) := by omega
  apply Nat.eq_of_testBit_eq
  intro i
  rw [Nat.testBit_and, mask, Nat.testBit_two_pow_sub_succ (by omega),
    Nat.testBit_two_pow_sub_one, Nat.testBit_mul_two_pow, Nat.testBit_div_two_pow]
  by_cases low : i < k
  · simp [low]
  · have back : i - k + k = i := by omega
    by_cases inside : i < w
    · simp [low, inside, back, show k ≤ i by omega]
    · have zero : n.testBit i = false := Nat.testBit_lt_two_pow
        (Nat.lt_of_lt_of_le hn (Nat.pow_le_pow_right (by decide) (by omega)))
      simp [inside, back, zero]

/-- Adding `2 ^ k - 1` first rounds up, as long as the sum stays in the word. -/
theorem land_round_up {n w k : Nat} (hn : n + (2 ^ k - 1) < 2 ^ w) (hk : k ≤ w) :
    (n + (2 ^ k - 1)) &&& (2 ^ w - 2 ^ k) = (n + (2 ^ k - 1)) / 2 ^ k * 2 ^ k :=
  land_high_mask hn hk

/-- The quotient that is rounded up counts the least multiple that is not below. -/
theorem isLeast_ceilDiv_mul {d : Nat} (pos : 0 < d) (n : Nat) :
    IsLeast {m | d ∣ m ∧ n ≤ m} (n ⌈/⌉ d * d) := by
  constructor
  · refine ⟨Nat.dvd_mul_left d _, ?_⟩
    rw [Nat.mul_comm]
    exact (ceilDiv_le_iff_le_mul pos).mp le_rfl
  · rintro m ⟨⟨q, rfl⟩, above⟩
    rw [Nat.mul_comm]
    exact Nat.mul_le_mul_left d ((ceilDiv_le_iff_le_mul pos).mpr above)

theorem isLeast_round_up (n k : Nat) :
    IsLeast {m | 2 ^ k ∣ m ∧ n ≤ m} ((n + (2 ^ k - 1)) / 2 ^ k * 2 ^ k) := by
  have quotient : n ⌈/⌉ 2 ^ k = (n + (2 ^ k - 1)) / 2 ^ k := by
    rw [Nat.ceilDiv_eq_add_pred_div, Nat.add_sub_assoc Nat.one_le_two_pow]
  rw [← quotient]
  exact isLeast_ceilDiv_mul Nat.one_le_two_pow n

end Align
