import Mathlib.Algebra.Order.Group.Nat

/-!
Repeating timers. A timer that is set to a start and an interval fires at the start and
then again every interval. `due` counts the firings that have their time before a
horizon; without an interval there is only the first.
-/
namespace Timers

def due (start interval horizon : Nat) : Nat :=
  if horizon ≤ start then 0
  else if interval = 0 then 1 else (horizon - start - 1) / interval + 1

variable {start interval horizon : Nat}

/-- Firing `j` has its time `j` intervals after the start. -/
theorem lt_due_iff (pos : 0 < interval) (j : Nat) :
    j < due start interval horizon ↔ start + j * interval < horizon := by
  unfold due
  split
  · rename_i early
    exact iff_of_false (Nat.not_lt_zero j) (by omega)
  · rename_i late
    rw [if_neg pos.ne', Nat.lt_succ_iff, Nat.le_div_iff_mul_le pos]
    omega

theorem due_eq_zero_iff : due start interval horizon = 0 ↔ horizon ≤ start := by
  unfold due
  split
  · rename_i early
    exact iff_of_true rfl early
  · rename_i late
    refine iff_of_false ?_ late
    split
    · exact Nat.one_ne_zero
    · exact Nat.succ_ne_zero _

theorem due_le_one_iff (pos : 0 < interval) :
    due start interval horizon ≤ 1 ↔ horizon ≤ start + interval := by
  rw [← Nat.not_lt, lt_due_iff pos, Nat.one_mul, Nat.not_lt]

end Timers
