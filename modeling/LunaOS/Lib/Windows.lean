import Mathlib.Data.Fin.Tuple.Basic
import Mathlib.Order.CompletePartialOrder
import Mathlib.Order.Interval.Set.Disjoint
import Mathlib.Tactic.Ring

/-!
Windows of a fixed stride. A table places entry `i` at address `(i + 1) * stride`
and lets it extend over its own size. Whether two windows overlap is a question
about one size and one distance; the lemmas say when a whole table of windows
stays apart as entries come and go.
-/
namespace Windows

variable {n : Nat} {β : Type} (stride : Nat) (size : β → Nat)

/-- The addresses of an entry of size `extent` at index `i`. -/
def place (i extent : Nat) : Set Nat :=
  Set.Ico ((i + 1) * stride) ((i + 1) * stride + extent)

def window (m : Fin n → Option β) (i : Fin n) : Set Nat :=
  match m i with
  | some b => place stride i.val (size b)
  | none => ∅

def Apart (m : Fin n → Option β) : Prop :=
  ∀ i j, i ≠ j → Disjoint (window stride size m i) (window stride size m j)

/-- An entry of size `extent` put at `i` keeps clear of every entry of `m`. -/
def Fits (m : Fin n → Option β) (i : Fin n) (extent : Nat) : Prop :=
  ∀ j b, m j = some b →
    (j < i → size b ≤ (i.val - j.val) * stride ∨ extent = 0) ∧
    (i < j → extent ≤ (j.val - i.val) * stride ∨ size b = 0)

variable {stride size}

theorem place_disjoint_iff {i j : Nat} (lt : i < j) (pos : 0 < stride) (a b : Nat) :
    Disjoint (place stride i a) (place stride j b) ↔ a ≤ (j - i) * stride ∨ b = 0 := by
  obtain ⟨d, rfl⟩ := Nat.exists_eq_add_of_lt lt
  have gap : (i + d + 1 + 1) * stride = (i + 1) * stride + (d + 1) * stride := by ring
  have dist : (i + d + 1 - i) * stride = (d + 1) * stride := by
    rw [show i + d + 1 - i = d + 1 by omega]
  have far : 0 < (d + 1) * stride := Nat.mul_pos (Nat.succ_pos d) pos
  rw [place, place, Set.Ico_disjoint_Ico, gap, dist]
  omega

theorem window_some {m : Fin n → Option β} {i : Fin n} {b : β} (h : m i = some b) :
    window stride size m i = place stride i.val (size b) := by
  simp [window, h]

theorem window_none {m : Fin n → Option β} {i : Fin n} (h : m i = none) :
    window stride size m i = ∅ := by
  simp [window, h]

/-- Dropping entries cannot make windows overlap. -/
theorem Apart.drop {m m' : Fin n → Option β} (apart : Apart stride size m)
    (kept : ∀ i, m' i = none ∨ m' i = m i) : Apart stride size m' := by
  have sub (i : Fin n) : window stride size m' i ⊆ window stride size m i := by
    rcases kept i with gone | same
    · rw [window_none gone]
      exact Set.empty_subset _
    · rw [window, window, same]
  intro i j differ
  exact Set.disjoint_of_subset (sub i) (sub j) (apart i j differ)

theorem fits_iff_disjoint (pos : 0 < stride) {m : Fin n → Option β} {i : Fin n}
    (free : m i = none) (extent : Nat) :
    Fits stride size m i extent ↔
      ∀ j, j ≠ i → Disjoint (place stride i.val extent) (window stride size m j) := by
  constructor
  · intro fits j differ
    cases hj : m j with
    | none => rw [window_none hj]; exact Set.disjoint_empty _
    | some b =>
        obtain ⟨below, above⟩ := fits j b hj
        rw [window_some hj]
        rcases lt_or_gt_of_ne differ with lt | lt
        · exact ((place_disjoint_iff lt pos _ _).mpr (below lt)).symm
        · exact (place_disjoint_iff lt pos _ _).mpr (above lt)
  · intro disjoint j b hj
    have differ : j ≠ i := by rintro rfl; rw [free] at hj; cases hj
    have apart := disjoint j differ
    rw [window_some hj] at apart
    exact ⟨fun lt => (place_disjoint_iff lt pos _ _).mp apart.symm,
      fun lt => (place_disjoint_iff lt pos _ _).mp apart⟩

/-- A new entry keeps the windows apart exactly when it fits between the others. -/
theorem Apart.update_iff (pos : 0 < stride) {m : Fin n → Option β} {i : Fin n}
    (apart : Apart stride size m) (free : m i = none) (b : β) :
    Apart stride size (Function.update m i (some b)) ↔ Fits stride size m i (size b) := by
  have here : window stride size (Function.update m i (some b)) i =
      place stride i.val (size b) := window_some (Function.update_self ..)
  have there (j : Fin n) (differ : j ≠ i) :
      window stride size (Function.update m i (some b)) j = window stride size m j := by
    rw [window, Function.update_of_ne differ, window]
  rw [fits_iff_disjoint pos free]
  constructor
  · intro all j differ
    have pair := all i j differ.symm
    rwa [here, there j differ] at pair
  · intro fits j k differ
    by_cases hj : j = i
    · subst hj
      rw [here, there k differ.symm]
      exact fits k differ.symm
    · by_cases hk : k = i
      · subst hk
        rw [here, there j hj]
        exact (fits j hj).symm
      · rw [there j hj, there k hk]
        exact apart j k differ

end Windows
