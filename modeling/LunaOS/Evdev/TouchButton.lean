import LunaOS.Evdev.Contacts

/-!
BTN_TOUCH. The switch of one contact is written as if it were the only one, so with
several fingers down the button is released by the first lift. It tells whether any
contact is down exactly as long as no contact is lifted before another.
-/
namespace LunaOS.Evdev
open Runs Monitors

namespace Contacts
variable {v : HidValue} {o : Contacts}

/-- A switch that lifts the selected contact comes when no other contact is down. -/
def LiftsLast (o : Contacts) (v : HidValue) : Prop :=
  v.IsTipSwitch → v.val = 0 → ∀ c ∈ o.down, c = o.selected

theorem switched_of_lift (lift : v.val = 0) : o.switched v = o.down.erase o.selected :=
  if_pos lift

theorem switched_of_press (press : v.val ≠ 0) : o.switched v = insert o.selected o.down :=
  if_neg press

theorem switched_eq_empty_iff (lift : v.val = 0) :
    o.switched v = ∅ ↔ ∀ c ∈ o.down, c = o.selected := by
  rw [switched_of_lift lift, Finset.erase_eq_empty_iff, ← Finset.subset_singleton_iff]
  exact ⟨fun sub c here => Finset.mem_singleton.mp (sub here),
    fun only c here => Finset.mem_singleton.mpr (only c here)⟩

end Contacts

namespace EvdevDevice
variable {dev dev' : EvdevDevice} {v : HidValue} {o : Contacts}

/-- The last BTN_TOUCH is 1 while a contact is down, and 0 or not yet written while
none is. -/
structure TellsTouch (dev : EvdevDevice) (o : Contacts) : Prop where
  touched : o.down.Nonempty → dev.lastTouch = some 1
  released : o.down = ∅ → dev.lastTouch = none ∨ dev.lastTouch = some 0

theorem tellsTouch_press_iff (button : dev.lastTouch = some 1) :
    dev.TellsTouch o ↔ o.down.Nonempty := by
  constructor
  · intro tells
    by_contra none_down
    have up := tells.released (Finset.not_nonempty_iff_eq_empty.mp none_down)
    rw [button] at up
    exact absurd up (by decide)
  · exact fun down => ⟨fun _ => button, fun up => absurd up down.ne_empty⟩

theorem tellsTouch_lift_iff (button : dev.lastTouch = some 0) :
    dev.TellsTouch o ↔ o.down = ∅ := by
  constructor
  · intro tells
    by_contra some_down
    have down := tells.touched (Finset.nonempty_iff_ne_empty.mpr some_down)
    rw [button] at down
    exact absurd down (by decide)
  · exact fun up => ⟨fun down => absurd up down.ne_empty, fun _ => Or.inr button⟩

/-- The exact guard of one callback. -/
theorem tellsTouch_step_iff (pad : dev.IsTrackpad) (tells : dev.TellsTouch o)
    (taken : dev.hidValueCallback v = some dev') :
    dev'.TellsTouch (o.note dev v) ↔ o.LiftsLast v := by
  have button := (callback_moves pad taken).button
  by_cases tip : v.IsTipSwitch
  · have down : (o.note dev v).down = o.switched v := by rw [Contacts.note_of_tip tip]
    rw [if_pos tip, pressed] at button
    by_cases lift : v.val = 0
    · rw [if_pos lift] at button
      rw [tellsTouch_lift_iff button, down, Contacts.switched_eq_empty_iff lift]
      exact ⟨fun last _ _ => last, fun last => last tip lift⟩
    · rw [if_neg lift] at button
      rw [tellsTouch_press_iff button, down, Contacts.switched_of_press lift]
      exact ⟨fun _ _ lifted => absurd lifted lift, fun _ => Finset.insert_nonempty _ _⟩
  · have down : (o.note dev v).down = o.down := Contacts.down_note_of_no_tip tip
    rw [if_neg tip] at button
    refine ⟨fun _ h => absurd h tip, fun _ => ⟨?_, ?_⟩⟩
    · rw [down, button]
      exact tells.touched
    · rw [down, button]
      exact tells.released

/-- Along every sequence of callbacks of a trackpad, BTN_TOUCH tells after each of them
whether a contact is down, exactly when no contact is lifted before another. -/
theorem touch_button_iff (u : Int32) (values : List HidValue) :
    (∀ dev o, Visits (watch hidValueCallback Contacts.note)
        (deviceAdded pageDigitizer.toInt32 u, {}) values (dev, o) → dev.TellsTouch o) ↔
      ∀ dev o v, Takes (watch hidValueCallback Contacts.note)
        (deviceAdded pageDigitizer.toInt32 u, {}) values (dev, o) v → o.LiftsLast v := by
  have start : (deviceAdded pageDigitizer.toInt32 u).TellsTouch {} :=
    ⟨fun down => absurd rfl down.ne_empty, fun _ => Or.inl rfl⟩
  exact Monitors.visits_iff_takes (fun dev _ => dev.IsTrackpad) TellsTouch
    (fun _ o v => o.LiftsLast v)
    (fun _ _ v _ pad _ _ taken => (callback_moves (v := v) pad taken).trackpad)
    (fun _ _ v _ pad tells taken => tellsTouch_step_iff (v := v) pad tells taken)
    (deviceAdded_isTrackpad u) start values

/-- Two fingers down, one lifted: the button is released. -/
theorem first_lift_releases_button :
    ∃ dev o, run (watch hidValueCallback Contacts.note)
        (deviceAdded pageDigitizer.toInt32 0, {})
        [⟨pageDigitizer, usageContactIdentifier, 0⟩, ⟨pageDigitizer, usageTipSwitch, 1⟩,
          ⟨pageDigitizer, usageContactIdentifier, 1⟩, ⟨pageDigitizer, usageTipSwitch, 1⟩,
          ⟨pageDigitizer, usageTipSwitch, 0⟩] = some (dev, o) ∧
      some 0 ∈ o.down ∧ dev.lastTouch = some 0 :=
  ⟨_, _, rfl, by decide, by decide⟩

end EvdevDevice
end LunaOS.Evdev
