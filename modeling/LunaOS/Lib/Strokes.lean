import LunaOS.Lib.Histories

/-!
Streams of presses and releases of keys. A key is held in a stream when it was
pressed and not released since; a stream is paired when every release in it finds
its key held.
-/
namespace Strokes
open Histories

universe u
variable {κ : Type u}

/-- The key pressed (`true`) or released. -/
abbrev Stroke (κ : Type u) := κ × Bool

/-- A press of the key, and no release of it after. -/
def Held (h : List (Stroke κ)) (k : κ) : Prop :=
  Since (· = (k, true)) (· = (k, false)) h

def Paired (h : List (Stroke κ)) : Prop :=
  Always (fun before x => x.2 = false → Held before x.1) h

theorem not_held_nil (k : κ) : ¬ Held [] k :=
  id

theorem held_press (h : List (Stroke κ)) (k : κ) : Held (h ++ [(k, true)]) k :=
  (since_concat h _).mpr (Or.inl rfl)

theorem not_held_release (h : List (Stroke κ)) (k : κ) : ¬ Held (h ++ [(k, false)]) k := by
  rw [Held, since_concat]
  simp

/-- The stroke of another key changes nothing. -/
theorem held_other (h : List (Stroke κ)) {k k' : κ} (b : Bool) (other : k' ≠ k) :
    Held (h ++ [(k', b)]) k ↔ Held h k :=
  since_concat_other (by simp [other]) (by simp [other]) h

theorem paired_nil : Paired ([] : List (Stroke κ)) :=
  always_nil

theorem paired_press (h : List (Stroke κ)) (k : κ) : Paired (h ++ [(k, true)]) ↔ Paired h := by
  rw [Paired, always_concat]
  exact and_iff_left nofun

theorem paired_release (h : List (Stroke κ)) (k : κ) :
    Paired (h ++ [(k, false)]) ↔ Paired h ∧ Held h k := by
  rw [Paired, always_concat]
  exact and_congr_right fun _ => ⟨fun held => held rfl, fun held _ => held⟩

end Strokes
