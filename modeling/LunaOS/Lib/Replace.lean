import Mathlib.Algebra.Order.Group.Nat
import Mathlib.Data.List.Infix

/-!
Replacing text. A rule puts its new text for each occurrence of its old one, from the left,
where an occurrence begins after the end of the one before. A rule whose new text has the old
one in it, and is longer, comes to rest only on a text in which it has nothing to replace.
-/
namespace Replace

universe u
variable {α : Type u} [DecidableEq α]

/-- `skip` elements are left of the occurrence that was replaced last. -/
def replaceFrom (old new : List α) : Nat → List α → List α
  | _, [] => []
  | skip + 1, _ :: rest => replaceFrom old new skip rest
  | 0, a :: rest =>
      if old <+: a :: rest then new ++ replaceFrom old new (old.length - 1) rest
      else a :: replaceFrom old new 0 rest

/-- For an `old` that is not empty. -/
def replace (old new text : List α) : List α :=
  replaceFrom old new 0 text

variable {old new : List α}

theorem replaceFrom_of_not_infix {text : List α} (none : ¬ old <:+: text) :
    replaceFrom old new 0 text = text := by
  induction text with
  | nil => rfl
  | cons a rest ih =>
      rw [replaceFrom, if_neg fun here => none here.isInfix,
        ih fun later => none (later.trans (List.suffix_cons a rest).isInfix)]

theorem infix_replaceFrom (room : old ≠ []) {skip : Nat} {text : List α}
    (held : old <:+: text.drop skip) : new <:+: replaceFrom old new skip text := by
  fun_induction replaceFrom old new skip text with
  | case1 skip =>
      rw [List.drop_nil] at held
      exact absurd (List.infix_nil.mp held) room
  | case2 skip a rest ih => exact ih held
  | case3 a rest here ih => exact (List.prefix_append new _).isInfix
  | case4 a rest other ih =>
      have later : old <:+: rest := (List.infix_cons_iff.mp held).resolve_left other
      exact (ih later).trans (List.suffix_cons a _).isInfix

theorem length_le_replaceFrom (room : old ≠ []) (longer : old.length ≤ new.length) (skip : Nat)
    (text : List α) : text.length ≤ (replaceFrom old new skip text).length + skip := by
  have pos := List.length_pos_of_ne_nil room
  fun_induction replaceFrom old new skip text with
  | case1 skip => exact Nat.zero_le _
  | case2 skip a rest ih =>
      rw [List.length_cons]
      omega
  | case3 a rest here ih =>
      rw [List.length_append, List.length_cons]
      omega
  | case4 a rest other ih =>
      rw [List.length_cons, List.length_cons]
      omega

theorem length_lt_replaceFrom (room : old ≠ []) (longer : old.length < new.length) {skip : Nat}
    {text : List α} (held : old <:+: text.drop skip) :
    text.length < (replaceFrom old new skip text).length + skip := by
  have pos := List.length_pos_of_ne_nil room
  fun_induction replaceFrom old new skip text with
  | case1 skip =>
      rw [List.drop_nil] at held
      exact absurd (List.infix_nil.mp held) room
  | case2 skip a rest ih =>
      have later := ih held
      rw [List.length_cons]
      omega
  | case3 a rest here ih =>
      have kept := length_le_replaceFrom room longer.le (old.length - 1) rest
      rw [List.length_append, List.length_cons]
      omega
  | case4 a rest other ih =>
      have later := ih ((List.infix_cons_iff.mp held).resolve_left other)
      rw [List.length_cons, List.length_cons]
      omega

/-- A rule that makes texts longer and leaves itself something to do. -/
structure Rule (α : Type u) where
  old : List α
  new : List α
  room : old ≠ []
  again : old <:+: new
  longer : old.length < new.length

def Rule.apply (r : Rule α) (text : List α) : List α :=
  replace r.old r.new text

namespace Rule

variable (r : Rule α) {text : List α}

theorem apply_of_not_infix (none : ¬ r.old <:+: text) : r.apply text = text :=
  replaceFrom_of_not_infix none

theorem infix_apply (held : r.old <:+: text) : r.old <:+: r.apply text :=
  r.again.trans (infix_replaceFrom r.room held)

theorem length_le_apply (text : List α) : text.length ≤ (r.apply text).length :=
  length_le_replaceFrom r.room r.longer.le 0 text

theorem length_lt_apply (held : r.old <:+: text) : text.length < (r.apply text).length := by
  have here : r.old <:+: text.drop 0 := held
  exact length_lt_replaceFrom r.room r.longer here

end Rule

/-- The rules one after the other. -/
def rewrite (rules : List (Rule α)) (text : List α) : List α :=
  rules.foldl (fun text r => r.apply text) text

/-- No rule has something to replace. -/
def AtRest (rules : List (Rule α)) (text : List α) : Prop :=
  ∀ r ∈ rules, ¬ r.old <:+: text

variable {rules : List (Rule α)} {text : List α}

theorem rewrite_of_atRest (rest : AtRest rules text) : rewrite rules text = text := by
  induction rules with
  | nil => rfl
  | cons r rules ih =>
      obtain ⟨first, others⟩ := List.forall_mem_cons.mp rest
      rw [rewrite, List.foldl_cons, r.apply_of_not_infix first]
      exact ih others

theorem length_le_rewrite (rules : List (Rule α)) (text : List α) :
    text.length ≤ (rewrite rules text).length := by
  induction rules generalizing text with
  | nil => exact Nat.le_refl _
  | cons r rules ih => exact (r.length_le_apply text).trans (ih (r.apply text))

/-- A text that is not at rest becomes longer. -/
theorem length_lt_rewrite (busy : ¬ AtRest rules text) :
    text.length < (rewrite rules text).length := by
  induction rules generalizing text with
  | nil => exact absurd (fun r held => by cases held) busy
  | cons r rules ih =>
      by_cases here : r.old <:+: text
      · exact (r.length_lt_apply here).trans_le (length_le_rewrite rules (r.apply text))
      · have others : ¬ AtRest rules text :=
          fun rest => busy (List.forall_mem_cons.mpr ⟨here, rest⟩)
        rw [rewrite, List.foldl_cons, r.apply_of_not_infix here]
        exact ih others

/-- A text that is not at rest does not come to rest: what the last rule with something to
replace puts is left for it. -/
theorem not_atRest_rewrite (busy : ¬ AtRest rules text) :
    ¬ AtRest rules (rewrite rules text) := by
  induction rules generalizing text with
  | nil => exact absurd (fun r held => by cases held) busy
  | cons r rules ih =>
      intro rest
      obtain ⟨first, others⟩ := List.forall_mem_cons.mp rest
      rw [rewrite, List.foldl_cons] at first others
      have still : AtRest rules (r.apply text) := not_not.mp fun moving => ih moving others
      have same : rules.foldl (fun text r => r.apply text) (r.apply text) = r.apply text :=
        rewrite_of_atRest still
      rw [same] at first
      by_cases here : r.old <:+: text
      · exact first (r.infix_apply here)
      · rw [r.apply_of_not_infix here] at still
        exact busy (List.forall_mem_cons.mpr ⟨here, still⟩)

/-- A second rewriting changes nothing exactly when the first had nothing to replace. -/
theorem rewrite_rewrite_iff (rules : List (Rule α)) (text : List α) :
    rewrite rules (rewrite rules text) = rewrite rules text ↔ AtRest rules text := by
  constructor
  · intro same
    by_contra busy
    have longer := length_lt_rewrite (not_atRest_rewrite busy)
    rw [same] at longer
    exact Nat.lt_irrefl _ longer
  · intro rest
    rw [rewrite_of_atRest rest, rewrite_of_atRest rest]

end Replace
