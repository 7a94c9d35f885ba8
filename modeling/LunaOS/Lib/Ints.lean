import Mathlib.Algebra.Order.Ring.Int

/-!
The value of an `int` expression, where the exact result of its last operation fits.
-/
namespace Ints

/-- An `int` holds this number. -/
def InRange (n : Int) : Prop :=
  -2147483648 ≤ n ∧ n < 2147483648

instance (n : Int) : Decidable (InRange n) :=
  inferInstanceAs (Decidable (_ ∧ _))

theorem inRange_toInt (a : Int32) : InRange a.toInt :=
  ⟨a.le_toInt, a.toInt_lt⟩

theorem InRange.of_mul {n s : Int} (pos : 1 ≤ s) (h : InRange (n * s)) : InRange n := by
  obtain ⟨low, high⟩ := h
  cases Int.le_total 0 n with
  | inl nonneg =>
      have : n ≤ n * s := le_mul_of_one_le_right nonneg pos
      exact ⟨by omega, by omega⟩
  | inr nonpos =>
      have : -n ≤ -n * s := le_mul_of_one_le_right (by omega) pos
      rw [Int.neg_mul] at this
      exact ⟨by omega, by omega⟩

theorem bmod_fits {n : Int} (low : -2147483648 ≤ n) (high : n < 2147483648) :
    n.bmod (2 ^ 32) = n := by
  rw [Int.bmod_eq_of_le]
  · omega
  · omega

variable {a b : Int32} {m n : Int}

theorem toInt_add (ha : a.toInt = m) (hb : b.toInt = n) (low : -2147483648 ≤ m + n)
    (high : m + n < 2147483648) : (a + b).toInt = m + n := by
  rw [Int32.toInt_add, ha, hb, bmod_fits low high]

theorem toInt_sub (ha : a.toInt = m) (hb : b.toInt = n) (low : -2147483648 ≤ m - n)
    (high : m - n < 2147483648) : (a - b).toInt = m - n := by
  rw [Int32.toInt_sub, ha, hb, bmod_fits low high]

theorem toInt_mul (ha : a.toInt = m) (hb : b.toInt = n) (low : -2147483648 ≤ m * n)
    (high : m * n < 2147483648) : (a * b).toInt = m * n := by
  rw [Int32.toInt_mul, ha, hb, bmod_fits low high]

/-- Rounding toward zero is rounding down for what is not negative. -/
theorem toInt_div (ha : a.toInt = m) (nonneg : 0 ≤ m) (pos : 0 < b.toInt) :
    (a / b).toInt = m / b.toInt := by
  have apart : b ≠ -1 := by
    rintro rfl
    exact absurd pos (by decide)
  rw [Int32.toInt_div_of_ne_right a b apart, ha, Int.tdiv_eq_ediv_of_nonneg nonneg]

/-- Rounding toward zero is half a unit away at most. -/
theorem tdiv_two (n : Int) : n - 1 ≤ 2 * n.tdiv 2 ∧ 2 * n.tdiv 2 ≤ n + 1 := by
  cases Int.le_total 0 n with
  | inl nonneg =>
      rw [Int.tdiv_eq_ediv_of_nonneg nonneg]
      omega
  | inr nonpos =>
      have minus : n.tdiv 2 = -((-n) / 2) := by
        rw [← Int.tdiv_eq_ediv_of_nonneg (by omega), Int.neg_tdiv, Int.neg_neg]
      omega

theorem toInt_half {b : Int32} (ha : a.toInt = m) (hb : b = 2) : (a / b).toInt = m.tdiv 2 := by
  subst hb
  rw [Int32.toInt_div_of_ne_right a 2 (by decide), ha]
  rfl

theorem toInt_mod (ha : a.toInt = m) (nonneg : 0 ≤ m) : (a % b).toInt = m % b.toInt := by
  rw [Int32.toInt_mod, ha, Int.tmod_eq_emod_of_nonneg nonneg]

theorem toInt_ofNat {i : Nat} (small : i < 2147483648) : (Int32.ofNat i).toInt = i :=
  Int32.toInt_ofNat_of_lt small

/-! Unsigned numbers that become an `int`, and back. -/

theorem toInt_toInt32 (x : UInt32) : x.toInt32.toInt = (x.toNat : Int).bmod (2 ^ 32) :=
  BitVec.toInt_eq_toNat_bmod x.toBitVec

theorem toInt_toInt32_of_lt {x : UInt32} (small : x.toNat < 2147483648) :
    x.toInt32.toInt = x.toNat := by
  rw [toInt_toInt32]
  exact bmod_fits (by omega) (by omega)

theorem toNat_toUInt32 (ha : a.toInt = m) (nonneg : 0 ≤ m) : (a.toUInt32.toNat : Int) = m := by
  rw [Int32.toNat_toUInt32_of_le (Int32.le_iff_toInt_le.mpr (by rw [ha]; exact nonneg)),
    Int32.toNatClampNeg, ha, Int.toNat_of_nonneg nonneg]

theorem toNat_toUInt32_of_neg (ha : a.toInt = m) (neg : m < 0) :
    (a.toUInt32.toNat : Int) = 4294967296 + m := by
  have back : a.toInt = (a.toUInt32.toNat : Int).bmod (2 ^ 32) := toInt_toInt32 a.toUInt32
  rw [ha, Int.bmod_def] at back
  have below := a.toUInt32.toNat_lt
  split at back <;> omega

end Ints
