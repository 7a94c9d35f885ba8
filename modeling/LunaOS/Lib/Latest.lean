import Mathlib.Data.List.Basic
import Mathlib.Order.Lattice

/-!
Tables in which a later entry of a key hides the earlier ones. Entries are numbered in the
order in which they were made and listed with the latest first, so a lookup finds the entry
of the key that has the highest number.
-/
namespace Latest

universe u v
variable {Key : Type u} {α : Type v} [DecidableEq Key] [LinearOrder α]

theorem lookup_eq_some_iff {table : List (Key × α)}
    (sorted : table.Pairwise fun p q => q.2 < p.2) (k : Key) (a : α) :
    table.lookup k = some a ↔ (k, a) ∈ table ∧ ∀ b, (k, b) ∈ table → b ≤ a := by
  induction table with
  | nil => simp
  | cons p table ih =>
      obtain ⟨k', a'⟩ := p
      obtain ⟨below, sorted⟩ := List.pairwise_cons.mp sorted
      by_cases here : k = k'
      · subst here
        rw [List.lookup_cons_self, Option.some.injEq]
        constructor
        · rintro rfl
          refine ⟨List.mem_cons_self, fun b held => ?_⟩
          cases List.mem_cons.mp held with
          | inl same => exact le_of_eq (Prod.mk.inj same).2
          | inr later => exact le_of_lt (below _ later)
        · rintro ⟨held, top⟩
          cases List.mem_cons.mp held with
          | inl same => exact (Prod.mk.inj same).2.symm
          | inr later =>
              exact absurd (below _ later) (not_lt.mpr (top a' List.mem_cons_self))
      · have other (b : α) : (k, b) ∈ (k', a') :: table ↔ (k, b) ∈ table := by
          rw [List.mem_cons, or_iff_right]
          exact fun same => here (Prod.mk.inj same).1
        rw [List.lookup_cons, beq_eq_false_iff_ne.mpr here]
        simp only [other]
        exact ih sorted

end Latest
