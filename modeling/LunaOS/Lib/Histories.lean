import Mathlib.Data.List.Basic

/-!
Laws of a history, the list of what has happened in its order. A law of the past
relates every entry to the entries before it; it holds of a longer history when it
holds of the shorter one and of each new entry. Most laws ask what has happened
since something else did, which the last entry decides or leaves as it was.
-/
namespace Histories

universe u
variable {Entry : Type u} {Law : List Entry → Entry → Prop}

/-- Every entry obeys the law, given the entries before it. -/
def Always (Law : List Entry → Entry → Prop) (h : List Entry) : Prop :=
  ∀ before x after, h = before ++ x :: after → Law before x

theorem always_nil : Always Law [] := by
  intro before x after split
  simp at split

theorem always_append (h out : List Entry) :
    Always Law (h ++ out) ↔
      Always Law h ∧ Always (fun before x => Law (h ++ before) x) out := by
  constructor
  · intro all
    refine ⟨?_, ?_⟩
    · rintro before x after rfl
      exact all before x (after ++ out) (by rw [List.append_assoc, List.cons_append])
    · rintro before x after rfl
      exact all (h ++ before) x after (by rw [List.append_assoc])
  · intro ⟨old, new⟩ before x after split
    rcases List.append_eq_append_iff.mp split with ⟨mid, rfl, rest⟩ | ⟨mid, rfl, rest⟩
    · exact new mid x after rest
    · cases mid with
      | nil =>
          have here := new [] x after rest.symm
          rwa [List.append_nil, List.append_nil] at here
      | cons y mid =>
          obtain ⟨rfl, rfl⟩ := List.cons.inj rest
          exact old before x mid rfl

theorem always_concat (h : List Entry) (x : Entry) :
    Always Law (h ++ [x]) ↔ Always Law h ∧ Law h x := by
  rw [always_append]
  refine and_congr_right fun _ => ?_
  constructor
  · intro all
    exact List.append_nil h ▸ all [] x [] rfl
  · intro here before y after split
    obtain ⟨rfl, rfl, rfl⟩ : before = [] ∧ y = x ∧ after = [] := by
      cases before with
      | nil =>
          obtain ⟨same, rest⟩ := List.cons.inj split
          exact ⟨rfl, same.symm, rest.symm⟩
      | cons z before =>
          have rest := (List.cons.inj split).2
          simp at rest
    rw [List.append_nil]
    exact here

/-- The law is no concern of the new entries. -/
theorem always_append_free {h out : List Entry} (free : ∀ x ∈ out, ∀ before, Law before x) :
    Always Law (h ++ out) ↔ Always Law h := by
  rw [always_append]
  refine and_iff_left fun before x after split => free x ?_ _
  rw [split]
  exact List.mem_append_right before List.mem_cons_self

variable {p q : Entry → Prop}

/-- An entry meets `p`, and none after it meets `q`. -/
def Since (p q : Entry → Prop) : List Entry → Prop
  | [] => False
  | x :: h => (p x ∧ ∀ y ∈ h, ¬ q y) ∨ Since p q h

instance [DecidablePred p] [DecidablePred q] : DecidablePred (Since p q) := by
  intro h
  induction h with
  | nil => exact instDecidableFalse
  | cons x h ih => exact instDecidableOr

theorem since_concat (h : List Entry) (x : Entry) :
    Since p q (h ++ [x]) ↔ p x ∨ (¬ q x ∧ Since p q h) := by
  induction h with
  | nil => simp [Since]
  | cons y h ih =>
      simp only [List.cons_append, Since, ih, List.mem_append, List.mem_singleton]
      grind

/-- Nothing that meets `p` or `q` leaves it as it was. -/
theorem since_concat_other {x : Entry} (not_p : ¬ p x) (not_q : ¬ q x) (h : List Entry) :
    Since p q (h ++ [x]) ↔ Since p q h := by
  rw [since_concat]
  simp [not_p, not_q]

theorem since_append_others {h out : List Entry} (others : ∀ x ∈ out, ¬ p x ∧ ¬ q x) :
    Since p q (h ++ out) ↔ Since p q h := by
  induction out generalizing h with
  | nil => rw [List.append_nil]
  | cons x out ih =>
      obtain ⟨not_p, not_q⟩ := others x List.mem_cons_self
      rw [List.append_cons, ih fun y hy => others y (List.mem_cons_of_mem x hy)]
      exact since_concat_other not_p not_q h

end Histories
