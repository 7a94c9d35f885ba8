import LunaOS.Lib.Runs

/-!
A note kept beside a program. A property of whole histories, such as what the last
successful call was, becomes a property of states once a note of the history runs
along. The note reads the program and never steers it: a watched run is a run.
-/
namespace Monitors
open Runs

universe u v w
variable {State : Type u} {Action : Type v} {Note : Type w}

/-- One step of the program with its note brought up to date. -/
def watch (step : State → Action → Option State) (note : State → Action → Note → Note) :
    State × Note → Action → Option (State × Note) :=
  fun p a => (step p.1 a).map fun s => (s, note p.1 a p.2)

variable {step : State → Action → Option State} {note : State → Action → Note → Note}

theorem watch_eq_some_iff (s s' : State) (o o' : Note) (a : Action) :
    watch step note (s, o) a = some (s', o') ↔ step s a = some s' ∧ note s a o = o' := by
  simp only [watch, Option.map_eq_some_iff, Prod.mk.injEq]
  constructor
  · rintro ⟨t, ht, rfl, rfl⟩
    exact ⟨ht, rfl⟩
  · rintro ⟨ht, rfl⟩
    exact ⟨s', ht, rfl, rfl⟩

/-- The note steers nothing. -/
theorem run_watch (p : State × Note) (as : List Action) :
    (run (watch step note) p as).map Prod.fst = run step p.1 as := by
  induction as generalizing p with
  | nil => rfl
  | cons a as ih =>
      cases taken : step p.1 a with
      | none => simp [run_cons, watch, taken]
      | some s => simp [run_cons, watch, taken, ih]

/-- Every state of a run is a state of the watched run. -/
theorem watched_of_visits (o : Note) {s s' : State} {as : List Action}
    (h : Visits step s as s') : ∃ o', Visits (watch step note) (s, o) as (s', o') := by
  obtain ⟨before, after, split, reached⟩ := h
  have mapped : (run (watch step note) (s, o) before).map Prod.fst = some s' :=
    (run_watch (s, o) before).trans reached
  obtain ⟨⟨t, o'⟩, watched, rfl⟩ := Option.map_eq_some_iff.mp mapped
  exact ⟨o', before, after, split, watched⟩

/-- An invariant of the program with its note holds in every state of a watched run. -/
theorem visits_invariant {Inv : State → Note → Prop}
    (preserved : ∀ s o a s', Inv s o → step s a = some s' → Inv s' (note s a o))
    {s s' : State} {o o' : Note} {as : List Action} (init : Inv s o)
    (h : Visits (watch step note) (s, o) as (s', o')) : Inv s' o' := by
  obtain ⟨before, _, _, reached⟩ := h
  have kept : ∀ (p : State × Note) a p', Inv p.1 p.2 →
      watch step note p a = some p' → Inv p'.1 p'.2 := by
    rintro ⟨s, o⟩ a ⟨s', o'⟩ inv taken
    obtain ⟨went, rfl⟩ := (watch_eq_some_iff s s' o o' a).mp taken
    exact preserved s o a s' inv went
  exact Runs.run_invariant kept (s := (s, o)) init reached

/-- The rule for exact guards, for a property of a state and its note. -/
theorem visits_iff_takes (Inv P : State → Note → Prop) (C : State → Note → Action → Prop)
    (preserved : ∀ s o a s', Inv s o → P s o → C s o a → step s a = some s' →
      Inv s' (note s a o))
    (exact_step : ∀ s o a s', Inv s o → P s o → step s a = some s' →
      (P s' (note s a o) ↔ C s o a))
    {s : State} {o : Note} (init : Inv s o) (start : P s o) (as : List Action) :
    (∀ s' o', Visits (watch step note) (s, o) as (s', o') → P s' o') ↔
      ∀ s' o' a, Takes (watch step note) (s, o) as (s', o') a → C s' o' a := by
  have kept : ∀ (p : State × Note) a p', Inv p.1 p.2 → P p.1 p.2 → C p.1 p.2 a →
      watch step note p a = some p' → Inv p'.1 p'.2 := by
    rintro ⟨s, o⟩ a ⟨s', o'⟩ inv now guard taken
    obtain ⟨went, rfl⟩ := (watch_eq_some_iff s s' o o' a).mp taken
    exact preserved s o a s' inv now guard went
  have decided : ∀ (p : State × Note) a p', Inv p.1 p.2 → P p.1 p.2 →
      watch step note p a = some p' → (P p'.1 p'.2 ↔ C p.1 p.2 a) := by
    rintro ⟨s, o⟩ a ⟨s', o'⟩ inv now taken
    obtain ⟨went, rfl⟩ := (watch_eq_some_iff s s' o o' a).mp taken
    exact exact_step s o a s' inv now went
  have rule := Runs.visits_iff_takes (fun p : State × Note => Inv p.1 p.2)
    (fun p => P p.1 p.2) (fun p => C p.1 p.2) kept decided (s := (s, o)) init start as
  simpa only [Prod.forall] using rule

end Monitors
