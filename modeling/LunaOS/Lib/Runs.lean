import Mathlib.Data.List.Basic
import Mathlib.Data.Option.Basic

/-!
Runs of a partial step function over a list of actions. The library names no
program: a model supplies its own `step`, where `none` means that the action is
not enabled in the state. Besides the usual invariant rule it has the rule for
an exact guard, which turns a one-step equivalence into an equivalence over
every state a run visits and every step it takes.
-/
namespace Runs

universe u v
variable {State : Type u} {Action : Type v}

/-- The state a list of actions leads to; `none` once an action is not enabled. -/
def run (step : State → Action → Option State) : State → List Action → Option State
  | s, [] => some s
  | s, a :: as => (step s a).bind fun s' => run step s' as

/-- The state `s'` is reached somewhere along the actions `as`. -/
def Visits (step : State → Action → Option State) (s : State) (as : List Action)
    (s' : State) : Prop :=
  ∃ before after, as = before ++ after ∧ run step s before = some s'

/-- The enabled action `a` is performed in state `s'` somewhere along `as`. -/
def Takes (step : State → Action → Option State) (s : State) (as : List Action)
    (s' : State) (a : Action) : Prop :=
  ∃ before after, as = before ++ a :: after ∧ run step s before = some s' ∧
    (step s' a).isSome

variable {step : State → Action → Option State}

@[simp] theorem run_cons (s : State) (a : Action) (as : List Action) :
    run step s (a :: as) = (step s a).bind fun s' => run step s' as := rfl

theorem run_append (s : State) (as bs : List Action) :
    run step s (as ++ bs) = (run step s as).bind fun s' => run step s' bs := by
  induction as generalizing s with
  | nil => rfl
  | cons a as ih =>
      rw [List.cons_append, run_cons, run_cons, Option.bind_assoc]
      simp only [ih]

theorem visits_nil (s s' : State) : Visits step s [] s' ↔ s' = s := by
  constructor
  · rintro ⟨before, after, split, reached⟩
    obtain ⟨rfl, rfl⟩ := List.append_eq_nil_iff.mp split.symm
    exact (Option.some.inj reached).symm
  · rintro rfl
    exact ⟨[], [], rfl, rfl⟩

theorem visits_cons (s s' : State) (a : Action) (as : List Action) :
    Visits step s (a :: as) s' ↔
      s' = s ∨ ∃ t, step s a = some t ∧ Visits step t as s' := by
  constructor
  · rintro ⟨before, after, split, reached⟩
    cases before with
    | nil => exact Or.inl (Option.some.inj reached).symm
    | cons b before =>
        obtain ⟨rfl, rfl⟩ := List.cons.inj split
        obtain ⟨t, ht, rest⟩ := Option.bind_eq_some_iff.mp reached
        exact Or.inr ⟨t, ht, before, after, rfl, rest⟩
  · rintro (rfl | ⟨t, ht, before, after, rfl, reached⟩)
    · exact ⟨[], a :: as, rfl, rfl⟩
    · exact ⟨a :: before, after, rfl, by simp [ht, reached]⟩

theorem takes_nil (s s' : State) (a : Action) : ¬ Takes step s [] s' a := by
  rintro ⟨before, after, split, _⟩
  simp at split

theorem takes_cons (s s' : State) (a b : Action) (as : List Action) :
    Takes step s (a :: as) s' b ↔
      (s' = s ∧ b = a ∧ (step s a).isSome) ∨
        ∃ t, step s a = some t ∧ Takes step t as s' b := by
  constructor
  · rintro ⟨before, after, split, reached, enabled⟩
    cases before with
    | nil =>
        obtain ⟨rfl, rfl⟩ := List.cons.inj split
        obtain rfl := Option.some.inj reached
        exact Or.inl ⟨rfl, rfl, enabled⟩
    | cons c before =>
        obtain ⟨rfl, rfl⟩ := List.cons.inj split
        obtain ⟨t, ht, rest⟩ := Option.bind_eq_some_iff.mp reached
        exact Or.inr ⟨t, ht, before, after, rfl, rest, enabled⟩
  · rintro (⟨rfl, rfl, enabled⟩ | ⟨t, ht, before, after, rfl, reached, enabled⟩)
    · exact ⟨[], as, rfl, rfl, enabled⟩
    · exact ⟨a :: before, after, rfl, by simp [ht, reached], enabled⟩

theorem visits_of_run {s s' : State} {as : List Action} (h : run step s as = some s') :
    Visits step s as s' :=
  ⟨as, [], (List.append_nil as).symm, h⟩

theorem visits_of_takes {s s' : State} {a : Action} {as : List Action}
    (h : Takes step s as s' a) : Visits step s as s' := by
  obtain ⟨before, after, split, reached, _⟩ := h
  exact ⟨before, a :: after, split, reached⟩

theorem takes_append_left {s s' : State} {a : Action} {as : List Action} (bs : List Action)
    (h : Takes step s as s' a) : Takes step s (as ++ bs) s' a := by
  obtain ⟨before, after, rfl, reached, enabled⟩ := h
  exact ⟨before, after ++ bs, by rw [List.append_assoc, List.cons_append], reached, enabled⟩

theorem takes_append_right {s t s' : State} {a : Action} {as bs : List Action}
    (ran : run step s as = some t) (h : Takes step t bs s' a) :
    Takes step s (as ++ bs) s' a := by
  obtain ⟨before, after, rfl, reached, enabled⟩ := h
  refine ⟨as ++ before, after, (List.append_assoc ..).symm, ?_, enabled⟩
  rw [run_append, ran]
  exact reached

theorem mem_of_takes {s s' : State} {a : Action} {as : List Action} (h : Takes step s as s' a) :
    a ∈ as := by
  obtain ⟨before, after, rfl, _, _⟩ := h
  exact List.mem_append_right _ List.mem_cons_self

/-- An invariant of every step is an invariant of every run. -/
theorem run_invariant {Inv : State → Prop}
    (preserved : ∀ s a s', Inv s → step s a = some s' → Inv s')
    {s s' : State} {as : List Action} (init : Inv s) (h : run step s as = some s') :
    Inv s' := by
  induction as generalizing s with
  | nil => exact Option.some.inj h ▸ init
  | cons a as ih =>
      obtain ⟨t, ht, rest⟩ := Option.bind_eq_some_iff.mp h
      exact ih (preserved s a t init ht) rest

/-- So is one of the steps that meet `C`, where all of them do. -/
theorem run_invariant_of {Inv : State → Prop} {C : Action → Prop}
    (preserved : ∀ s a s', Inv s → C a → step s a = some s' → Inv s')
    {s s' : State} {as : List Action} (init : Inv s) (h : run step s as = some s')
    (meets : ∀ a ∈ as, C a) : Inv s' := by
  induction as generalizing s with
  | nil => exact Option.some.inj h ▸ init
  | cons a as ih =>
      obtain ⟨t, ht, rest⟩ := Option.bind_eq_some_iff.mp h
      obtain ⟨here, later⟩ := List.forall_mem_cons.mp meets
      exact ih (preserved s a t init here ht) rest later

/-- And where `C` reads the state in which a step is taken. -/
theorem run_invariant_takes {Inv : State → Prop} {C : State → Action → Prop}
    (preserved : ∀ s a s', Inv s → C s a → step s a = some s' → Inv s')
    {s s' : State} {as : List Action} (init : Inv s) (h : run step s as = some s')
    (meets : ∀ t a, Takes step s as t a → C t a) : Inv s' := by
  induction as generalizing s with
  | nil => exact Option.some.inj h ▸ init
  | cons a as ih =>
      obtain ⟨t, ht, rest⟩ := Option.bind_eq_some_iff.mp h
      have here : C s a := meets s a
        ((takes_cons s s a a as).mpr (Or.inl ⟨rfl, rfl, by rw [ht]; rfl⟩))
      refine ih (preserved s a t init here ht) rest fun u b later => ?_
      exact meets u b ((takes_cons s u a b as).mpr (Or.inr ⟨t, ht, later⟩))

/-- Then it holds wherever a step is taken. -/
theorem invariant_of_takes {Inv : State → Prop} {C : State → Action → Prop}
    (preserved : ∀ s a s', Inv s → C s a → step s a = some s' → Inv s')
    {s s' : State} {a : Action} {as : List Action} (init : Inv s)
    (meets : ∀ t a, Takes step s as t a → C t a) (taken : Takes step s as s' a) : Inv s' := by
  obtain ⟨before, after, rfl, reached, _⟩ := taken
  refine run_invariant_takes preserved init reached fun t b earlier => ?_
  exact meets t b (takes_append_left (a :: after) earlier)

theorem run_map {Input : Type v} (f : Input → Action) (s : State) (as : List Input) :
    run step s (as.map f) = run (fun s a => step s (f a)) s as := by
  induction as generalizing s with
  | nil => rfl
  | cons a as ih => simp only [List.map_cons, run_cons, ih]

/-- Where a good state stays good under the actions that meet `C` and turns bad under
the others, and a bad one stays bad, a run ends good exactly when `C` held throughout. -/
theorem run_good_or_bad {Good Bad : State → Prop} {C : Action → Prop}
    (good : ∀ s a s', Good s → step s a = some s' → (C a → Good s') ∧ (¬ C a → Bad s'))
    (bad : ∀ s a s', Bad s → step s a = some s' → Bad s')
    {s s' : State} {as : List Action} (init : Good s) (h : run step s as = some s') :
    ((∀ a ∈ as, C a) → Good s') ∧ (¬ (∀ a ∈ as, C a) → Bad s') := by
  induction as generalizing s with
  | nil =>
      obtain rfl := Option.some.inj h
      exact ⟨fun _ => init, fun broken => absurd nofun broken⟩
  | cons a as ih =>
      obtain ⟨t, ht, rest⟩ := Option.bind_eq_some_iff.mp h
      obtain ⟨kept, fell⟩ := good s a t init ht
      rw [List.forall_mem_cons]
      by_cases met : C a
      · obtain ⟨all, some_not⟩ := ih (kept met) rest
        exact ⟨fun both => all both.2, fun broken => some_not fun every => broken ⟨met, every⟩⟩
      · exact ⟨fun both => absurd both.1 met, fun _ => run_invariant bad (fell met) rest⟩

/-- Where every allowed action is enabled and keeps the invariant, a run of allowed
actions has a final state. -/
theorem run_exists {Inv : State → Prop} {Allowed : Action → Prop}
    (progress : ∀ s a, Inv s → Allowed a → ∃ s', step s a = some s' ∧ Inv s')
    {s : State} {as : List Action} (init : Inv s) (allowed : ∀ a ∈ as, Allowed a) :
    ∃ s', run step s as = some s' ∧ Inv s' := by
  induction as generalizing s with
  | nil => exact ⟨s, rfl, init⟩
  | cons a as ih =>
      obtain ⟨t, ht, next⟩ := progress s a init (allowed a List.mem_cons_self)
      obtain ⟨s', rest, final⟩ := ih next fun b hb => allowed b (List.mem_cons_of_mem a hb)
      exact ⟨s', by rw [run_cons, ht]; exact rest, final⟩

/-- Exact guards. Where the guard `C` decides, one step at a time, whether the
property `P` survives, a run keeps `P` in every state it visits exactly when
every step it takes meets `C`. The invariant may rely on both. -/
theorem visits_iff_takes (Inv P : State → Prop) (C : State → Action → Prop)
    (preserved : ∀ s a s', Inv s → P s → C s a → step s a = some s' → Inv s')
    (exact_step : ∀ s a s', Inv s → P s → step s a = some s' → (P s' ↔ C s a))
    {s : State} (init : Inv s) (start : P s) (as : List Action) :
    (∀ s', Visits step s as s' → P s') ↔ (∀ s' a, Takes step s as s' a → C s' a) := by
  induction as generalizing s with
  | nil =>
      constructor
      · intro _ s' a taken
        exact absurd taken (takes_nil s s' a)
      · intro _ s' visited
        exact (visits_nil s s').mp visited ▸ start
  | cons a as ih =>
      cases ha : step s a with
      | none => simp [visits_cons, takes_cons, ha, start]
      | some t =>
          have here := exact_step s a t init start ha
          constructor
          · intro all
            have guard : C s a := here.mp
              (all t ((visits_cons s t a as).mpr (Or.inr ⟨t, ha, [], as, rfl, rfl⟩)))
            have rest := (ih (preserved s a t init start guard ha) (here.mpr guard)).mp
              fun s' visited => all s' ((visits_cons s s' a as).mpr (Or.inr ⟨t, ha, visited⟩))
            intro s' b taken
            rcases (takes_cons s s' a b as).mp taken with ⟨rfl, rfl, _⟩ | ⟨t', ht', later⟩
            · exact guard
            · obtain rfl := Option.some.inj (ha.symm.trans ht')
              exact rest s' b later
          · intro all
            have guard : C s a := all s a
              ((takes_cons s s a a as).mpr (Or.inl ⟨rfl, rfl, by simp [ha]⟩))
            have rest := (ih (preserved s a t init start guard ha) (here.mpr guard)).mpr
              fun s' b later => all s' b ((takes_cons s s' a b as).mpr (Or.inr ⟨t, ha, later⟩))
            intro s' visited
            rcases (visits_cons s s' a as).mp visited with rfl | ⟨t', ht', later⟩
            · exact start
            · obtain rfl := Option.some.inj (ha.symm.trans ht')
              exact rest s' later

/-- How many of the steps that a run takes count, up to the first that is not enabled. -/
def tally (step : State → Action → Option State) (C : State → Action → Prop)
    [∀ s a, Decidable (C s a)] : State → List Action → Nat
  | _, [] => 0
  | s, a :: as =>
      match step s a with
      | some s' => (if C s a then 1 else 0) + tally step C s' as
      | none => 0

/-- Where a measure goes up by one in the steps that count and stays in the others, a
bound holds in every state a run visits exactly when it holds of the whole tally. -/
theorem visits_le_iff_tally {Inv : State → Prop} {C : State → Action → Prop}
    [∀ s a, Decidable (C s a)] {m : State → Nat}
    (counts : ∀ s a s', Inv s → step s a = some s' →
      Inv s' ∧ m s' = m s + if C s a then 1 else 0)
    {s : State} (init : Inv s) (as : List Action) (bound : Nat) :
    (∀ s', Visits step s as s' → m s' ≤ bound) ↔ m s + tally step C s as ≤ bound := by
  induction as generalizing s with
  | nil =>
      simp only [visits_nil, tally, Nat.add_zero]
      exact ⟨fun all => all s rfl, fun here s' same => same ▸ here⟩
  | cons a as ih =>
      cases taken : step s a with
      | none =>
          simp only [visits_cons, tally, taken, reduceCtorEq, false_and, exists_false,
            or_false, Nat.add_zero]
          exact ⟨fun all => all s rfl, fun here s' same => same ▸ here⟩
      | some t =>
          obtain ⟨next, more⟩ := counts s a t init taken
          have later := ih next
          rw [more, Nat.add_assoc] at later
          simp only [visits_cons, tally, taken, Option.some.injEq, ← later]
          constructor
          · intro all s' visited
            exact all s' (Or.inr ⟨t, rfl, visited⟩)
          · rintro all s' (rfl | ⟨t', rfl, visited⟩)
            · have first := all t ⟨[], as, rfl, rfl⟩
              omega
            · exact all s' visited

/-- Every step that a run takes meets `C`, by running it. -/
def allTaken (step : State → Action → Option State) (C : State → Action → Prop)
    [∀ s a, Decidable (C s a)] : State → List Action → Bool
  | _, [] => true
  | s, a :: as => decide (C s a) && (step s a).all fun s' => allTaken step C s' as

theorem takes_of_allTaken {C : State → Action → Prop} [∀ s a, Decidable (C s a)] {s : State}
    {as : List Action} (all : allTaken step C s as = true) {s' : State} {a : Action}
    (taken : Takes step s as s' a) : C s' a := by
  induction as generalizing s with
  | nil => exact absurd taken (takes_nil s s' a)
  | cons b as ih =>
      obtain ⟨here, later⟩ := Bool.and_eq_true_iff.mp all
      rcases (takes_cons s s' b a as).mp taken with ⟨rfl, rfl, _⟩ | ⟨t, ht, taken⟩
      · exact of_decide_eq_true here
      · rw [ht] at later
        exact ih later taken

end Runs
