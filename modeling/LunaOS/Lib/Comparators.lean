import Mathlib.Order.Lattice
import Mathlib.Data.Int.Order.Basic

/-!
Sorting with a comparator that answers with an integer below, at or above zero. What a sort
does is only said for a comparator that is consistent on the elements, and one that compares
by a key of a linear order is.
-/
namespace Comparators

universe u v
variable {α : Type u} {κ : Type v}

/-- The comparator is a total preorder on the elements with `p`. -/
structure ConsistentOn (cmp : α → α → Int) (p : α → Prop) : Prop where
  swap : ∀ {a b}, p a → p b → (cmp b a).sign = -(cmp a b).sign
  trans : ∀ {a b c}, p a → p b → p c → cmp a b ≤ 0 → cmp b c ≤ 0 → cmp a c ≤ 0

theorem ConsistentOn.mono {cmp : α → α → Int} {p q : α → Prop} (consistent : ConsistentOn cmp p)
    (weaker : ∀ a, q a → p a) : ConsistentOn cmp q where
  swap ha hb := consistent.swap (weaker _ ha) (weaker _ hb)
  trans ha hb hc := consistent.trans (weaker _ ha) (weaker _ hb) (weaker _ hc)

/-- Of two elements one is not above the other. -/
theorem ConsistentOn.total {cmp : α → α → Int} {p : α → Prop} (consistent : ConsistentOn cmp p)
    {a b : α} (ha : p a) (hb : p b) : cmp a b ≤ 0 ∨ cmp b a ≤ 0 := by
  cases Int.le_total (cmp a b) 0 with
  | inl below => exact Or.inl below
  | inr above =>
      right
      have swapped := consistent.swap ha hb
      rw [← Int.sign_nonpos_iff, swapped]
      have nonneg := Int.sign_nonneg_iff.mpr above
      omega

/-- The comparator answers by the order of a key, on the elements with `p`. -/
def ByKey [LT κ] (cmp : α → α → Int) (key : α → κ) (p : α → Prop) : Prop :=
  ∀ a b, p a → p b → (cmp a b < 0 ↔ key a < key b) ∧ (0 < cmp a b ↔ key b < key a)

section
variable [LinearOrder κ] {cmp : α → α → Int} {key : α → κ} {p : α → Prop}

theorem ByKey.le_iff (by_key : ByKey cmp key p) {a b : α} (ha : p a) (hb : p b) :
    cmp a b ≤ 0 ↔ key a ≤ key b := by
  rw [← Int.not_lt, (by_key a b ha hb).2, not_lt]

theorem ByKey.consistentOn (by_key : ByKey cmp key p) : ConsistentOn cmp p where
  swap {a b} ha hb := by
    obtain ⟨below, above⟩ := by_key a b ha hb
    obtain ⟨below', above'⟩ := by_key b a hb ha
    rcases lt_trichotomy (key a) (key b) with lt | eq | gt
    · rw [Int.sign_eq_neg_one_of_neg (below.mpr lt), Int.sign_eq_one_of_pos (above'.mpr lt)]
      rfl
    · have zero : cmp a b = 0 := by
        have := (not_congr below).mpr eq.not_lt
        have := (not_congr above).mpr eq.not_gt
        omega
      have zero' : cmp b a = 0 := by
        have := (not_congr below').mpr eq.not_gt
        have := (not_congr above').mpr eq.not_lt
        omega
      rw [zero, zero']
      rfl
    · rw [Int.sign_eq_one_of_pos (above.mpr gt), Int.sign_eq_neg_one_of_neg (below'.mpr gt)]
  trans ha hb hc ab bc :=
    (by_key.le_iff ha hc).mpr
      (((by_key.le_iff ha hb).mp ab).trans ((by_key.le_iff hb hc).mp bc))

end

/-- A sort. It sorts what its comparator is consistent on, and sees the elements through the
comparator alone. -/
structure Sorter where
  sort : {α : Type} → (α → α → Int) → List α → List α
  perm : ∀ {α : Type} {cmp : α → α → Int} {l : List α}, ConsistentOn cmp (· ∈ l) →
    (sort cmp l).Perm l
  sorted : ∀ {α : Type} {cmp : α → α → Int} {l : List α}, ConsistentOn cmp (· ∈ l) →
    (sort cmp l).Pairwise fun a b => cmp a b ≤ 0
  map : ∀ {α β : Type} {cmp : α → α → Int} {cmp' : β → β → Int} (f : α → β) {l : List α},
    (∀ a ∈ l, ∀ b ∈ l, cmp a b = cmp' (f a) (f b)) → (sort cmp l).map f = sort cmp' (l.map f)

/-- A merge sort asks for an order of all of the type, so the list is sorted with the proofs
that its elements are in it. -/
theorem mergeSort_sorted {cmp : α → α → Int} {l : List α} (consistent : ConsistentOn cmp (· ∈ l)) :
    (l.mergeSort fun a b => decide (cmp a b ≤ 0)).Pairwise fun a b => cmp a b ≤ 0 := by
  let le : { a // a ∈ l } → { a // a ∈ l } → Bool := fun a b => decide (cmp a b ≤ 0)
  have attached : (l.attach.mergeSort le).Pairwise (fun a b => le a b) := by
    refine List.pairwise_mergeSort ?_ ?_ l.attach
    · intro a b c ab bc
      exact decide_eq_true
        (consistent.trans a.2 b.2 c.2 (of_decide_eq_true ab) (of_decide_eq_true bc))
    · intro a b
      rw [Bool.or_eq_true, decide_eq_true_iff, decide_eq_true_iff]
      exact consistent.total a.2 b.2
  have forgotten : (l.attach.mergeSort le).map Subtype.val =
      l.mergeSort fun a b => decide (cmp a b ≤ 0) := by
    rw [List.map_mergeSort (s := fun a b => decide (cmp a b ≤ 0)) fun a _ b _ => rfl,
      List.attach_map_subtype_val]
  rw [← forgotten, List.pairwise_map]
  exact attached.imp of_decide_eq_true

def mergeSorter : Sorter where
  sort cmp l := l.mergeSort fun a b => decide (cmp a b ≤ 0)
  perm _ := List.mergeSort_perm ..
  sorted := mergeSort_sorted
  map f _ same := List.map_mergeSort fun a ha b hb => by rw [same a ha b hb]

end Comparators
