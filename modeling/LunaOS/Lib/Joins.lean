import Mathlib.Data.Finset.Basic

/-!
Many inputs that drive one output. Each input is on or off and drives at most one
output; an output should be on exactly while an input that drives it is. A relay that
passes every turn of an input on to its output is right when inputs are turned on, and
when the last one of an output is turned off.
-/
namespace Joins

universe u v
variable {Input : Type u} {Output : Type v}

/-- Each output is on exactly while one of its inputs is. -/
def Joined (drives : Input → Option Output) (on : Finset Input) (out : Output → Prop) : Prop :=
  ∀ k, out k ↔ ∃ i ∈ on, drives i = some k

variable [DecidableEq Input]

/-- The inputs that are on after `i` is turned on or off. -/
def turned (on : Finset Input) (i : Input) (b : Bool) : Finset Input :=
  if b then insert i on else on.erase i

/-- No other input of the same output is on when `i` is turned off. -/
def OffLast (drives : Input → Option Output) (on : Finset Input) (i : Input) (b : Bool) : Prop :=
  b = false → ∀ k, drives i = some k → ∀ j ∈ on, drives j = some k → j = i

instance [DecidableEq Output] (drives : Input → Option Output) (on : Finset Input) (i : Input)
    (b : Bool) : Decidable (OffLast drives on i b) :=
  decidable_of_iff (b = false → ∀ k ∈ drives i, ∀ j ∈ on, drives j = some k → j = i) Iff.rfl

variable {drives : Input → Option Output} {on : Finset Input} {out out' : Output → Prop}

/-- An input that does not drive the output says nothing of it. -/
theorem driven_turned_of_ne {i : Input} {k : Output} (other : drives i ≠ some k) (b : Bool) :
    (∃ j ∈ turned on i b, drives j = some k) ↔ ∃ j ∈ on, drives j = some k := by
  refine exists_congr fun j => and_congr_left fun driven => ?_
  have ne : j ≠ i := by
    rintro rfl
    exact other driven
  cases b with
  | true => exact Finset.mem_insert.trans (or_iff_right ne)
  | false => exact Finset.mem_erase.trans (and_iff_right ne)

/-- A relay that passes a turn on keeps the outputs right exactly when an input that
is turned off is the last of its output. -/
theorem joined_turned_iff (joined : Joined drives on out) (i : Input) (b : Bool)
    (relayed : ∀ k, drives i = some k → (out' k ↔ b = true))
    (kept : ∀ k, drives i ≠ some k → (out' k ↔ out k)) :
    Joined drives (turned on i b) out' ↔ OffLast drives on i b := by
  constructor
  · rintro after rfl k driven j here same
    by_contra other
    have on_still : out' k :=
      (after k).mpr ⟨j, Finset.mem_erase.mpr ⟨other, here⟩, same⟩
    exact Bool.false_ne_true ((relayed k driven).mp on_still)
  · intro last k
    by_cases driven : drives i = some k
    · rw [relayed k driven]
      cases b with
      | true => exact iff_of_true rfl ⟨i, Finset.mem_insert_self i on, driven⟩
      | false =>
          refine iff_of_false Bool.false_ne_true ?_
          rintro ⟨j, here, same⟩
          obtain ⟨other, here⟩ := Finset.mem_erase.mp here
          exact other (last rfl k driven j here same)
    · rw [kept k driven, joined k, driven_turned_of_ne driven]

end Joins
