import Mathlib.Data.Fin.Tuple.Basic
import Mathlib.Logic.Function.Basic
import Mathlib.Order.Bounds.Basic

/-!
A fixed table of slots, read as a finite partial map. A program stores a record
in every slot, free or not; `view` says what an occupied record stands for. The
lowest free slot is stated as a least element and connected to the left-to-right
scan that programs use to find it.
-/
namespace Slots

variable {n : Nat} {α β : Type}

/-- The finite map that a table of records stands for. -/
def contents (view : α → Option β) (table : Fin n → α) : Fin n → Option β :=
  fun i => view (table i)

def LowestFree (m : Fin n → Option β) (i : Fin n) : Prop :=
  IsLeast {j | m j = none} i

def Full (m : Fin n → Option β) : Prop :=
  ∀ i, m i ≠ none

theorem scan_eq_some_iff {m : Fin n → Option β} {free : Fin n → Bool}
    (reads : ∀ i, free i = true ↔ m i = none) (i : Fin n) :
    Fin.find? free = some i ↔ LowestFree m i := by
  rw [Fin.find?_eq_some_iff]
  constructor
  · rintro ⟨hi, below⟩
    refine ⟨(reads i).mp hi, ?_⟩
    intro j hj
    by_contra lt
    have busy := below j (not_le.mp lt)
    rw [(reads j).mpr hj] at busy
    cases busy
  · rintro ⟨hi, least⟩
    refine ⟨(reads i).mpr hi, ?_⟩
    intro j lt
    by_contra busy
    have hj : m j = none := (reads j).mp (by simpa using busy)
    exact absurd (least hj) (not_le.mpr lt)

theorem scan_eq_none_iff {m : Fin n → Option β} {free : Fin n → Bool}
    (reads : ∀ i, free i = true ↔ m i = none) :
    Fin.find? free = none ↔ Full m := by
  rw [Fin.find?_eq_none_iff]
  refine forall_congr' fun i => ?_
  rw [← Bool.not_eq_true, reads i]

theorem contents_update (view : α → Option β) (table : Fin n → α) (i : Fin n) (a : α) :
    contents view (Function.update table i a) =
      Function.update (contents view table) i (view a) := by
  funext j
  by_cases h : j = i
  · subst h; simp [contents]
  · simp [contents, h]

/-- A reader that sees no difference in the changed slot sees none in the table. -/
theorem read_update_of_eq {ι α β : Type} [DecidableEq ι] (read : α → β) {table : ι → α} {i : ι}
    {a : α} (same : read a = read (table i)) (j : ι) :
    read (Function.update table i a j) = read (table j) := by
  by_cases here : j = i
  · rw [here, Function.update_self, same]
  · rw [Function.update_of_ne here]

/-- Rewriting the unread part of a slot does not change the map. -/
theorem contents_update_of_view (view : α → Option β) (table : Fin n → α) (i : Fin n)
    (a : α) (h : view a = view (table i)) :
    contents view (Function.update table i a) = contents view table := by
  funext j
  exact read_update_of_eq view h j

end Slots
