import LunaOS.Evdev.Device
import LunaOS.Lib.Frames
import LunaOS.Lib.Runs

/-!
The event stream of a device. Every branch of the callback but one writes whole
frames; the pointer branch writes a motion and no SYN_REPORT. The stream is thus
in complete frames after every callback exactly when the device is no pointer or
no value it is given is a motion.
-/
namespace LunaOS.Evdev
open Frames

def IsSyn (e : InputEvent) : Prop :=
  e.type = evSyn

/-- A value that the pointer branch translates to an EV_REL event. -/
def HidValue.IsMotion (v : HidValue) : Prop :=
  v.usagePage = pageGenericDesktop ∧
    (v.usage = usageX ∨ v.usage = usageY ∨ v.usage = usageWheel)

namespace EvdevDevice

/-- `dev'` is `dev` after it has written `out`, whatever its contacts have become. -/
structure Emits (dev dev' : EvdevDevice) (out : List InputEvent) : Prop where
  isPointer : dev'.isPointer = dev.isPointer
  isTouch : dev'.isTouch = dev.isTouch
  written : dev'.written = dev.written ++ out

/-- `dev'` is `dev` after it has written whole frames. -/
def EmitsFrames (dev dev' : EvdevDevice) : Prop :=
  ∃ out, Emits dev dev' out ∧ Complete IsSyn out

variable {dev dev' dev'' : EvdevDevice} {v : HidValue}

theorem emits_nothing (dev : EvdevDevice) : Emits dev dev [] :=
  ⟨rfl, rfl, (List.append_nil _).symm⟩

theorem emits_writeEvent (dev : EvdevDevice) (type code : UInt16) (value : Int32) :
    Emits dev (dev.writeEvent type code value) [⟨type, code, value⟩] :=
  ⟨rfl, rfl, rfl⟩

theorem Emits.trans {out out' : List InputEvent} (h : Emits dev dev' out)
    (h' : Emits dev' dev'' out') : Emits dev dev'' (out ++ out') where
  isPointer := h'.isPointer.trans h.isPointer
  isTouch := h'.isTouch.trans h.isTouch
  written := by rw [h'.written, h.written, List.append_assoc]

theorem emitsFrames_refl (dev : EvdevDevice) : EmitsFrames dev dev :=
  ⟨[], emits_nothing dev, complete_nil⟩

theorem EmitsFrames.trans (h : EmitsFrames dev dev') (h' : EmitsFrames dev' dev'') :
    EmitsFrames dev dev'' := by
  obtain ⟨out, emits, complete⟩ := h
  obtain ⟨out', emits', complete'⟩ := h'
  exact ⟨out ++ out', emits.trans emits', complete.append complete'⟩

/-- Events that are no SYN_REPORT become a frame once the device is synchronised. -/
theorem Emits.sync {out : List InputEvent} (h : Emits dev dev' out)
    (body : ∀ e ∈ out, ¬ IsSyn e) : EmitsFrames dev dev'.syncEvent := by
  have mark : Emits dev' dev'.syncEvent [⟨evSyn, 0, 0⟩] := ⟨rfl, rfl, rfl⟩
  exact ⟨_, h.trans mark, Frame.complete ⟨out, _, rfl, body, rfl⟩⟩

theorem not_isSyn {type code : UInt16} {value : Int32} (h : type ≠ evSyn) :
    ∀ e ∈ [(⟨type, code, value⟩ : InputEvent)], ¬ IsSyn e := by
  intro e he
  rw [List.mem_singleton.mp he]
  exact h

/-! What the branches write. -/

theorem keyboard_emitsFrames (dev : EvdevDevice) (v : HidValue) :
    EmitsFrames dev (dev.keyboard v) := by
  unfold keyboard
  split
  · dsimp only
    split
    · exact (emits_writeEvent dev evKey _ _).sync (not_isSyn (by decide))
    · exact emitsFrames_refl dev
  · exact emitsFrames_refl dev

theorem globe_emitsFrames (dev : EvdevDevice) (v : HidValue) :
    EmitsFrames dev (dev.globe v) := by
  unfold globe
  split
  · exact (emits_writeEvent dev evKey _ _).sync (not_isSyn (by decide))
  · exact emitsFrames_refl dev

theorem button_emitsFrames (dev : EvdevDevice) (v : HidValue) :
    EmitsFrames dev (dev.button v) := by
  unfold button
  split
  · exact (emits_writeEvent dev evKey _ _).sync (not_isSyn (by decide))
  · exact emitsFrames_refl dev

theorem contact_emits (taken : dev.contact v = some dev') :
    ∃ out, Emits dev dev' out ∧ ∀ e ∈ out, ¬ IsSyn e := by
  have two (code code' : UInt16) (value : Int32) :
      ∀ e ∈ [(⟨evAbs, code, value⟩ : InputEvent)] ++ [⟨evAbs, code', value⟩], ¬ IsSyn e := by
    intro e he
    cases List.mem_append.mp he with
    | inl first => exact not_isSyn (by decide) e first
    | inr second => exact not_isSyn (by decide) e second
  unfold contact at taken
  split at taken
  · obtain rfl := Option.some.inj taken
    exact ⟨_, emits_writeEvent dev evKey _ _, not_isSyn (by decide)⟩
  · split at taken
    · obtain ⟨xs, _, rfl⟩ := Option.map_eq_some_iff.mp taken
      exact ⟨_, ⟨rfl, rfl, List.append_assoc ..⟩, two absMtPositionX absX _⟩
    · split at taken
      · obtain ⟨ys, _, rfl⟩ := Option.map_eq_some_iff.mp taken
        exact ⟨_, ⟨rfl, rfl, List.append_assoc ..⟩, two absMtPositionY absY _⟩
      · split at taken
        · obtain rfl := Option.some.inj taken
          exact ⟨_, ⟨rfl, rfl, rfl⟩, not_isSyn (by decide)⟩
        · obtain rfl := Option.some.inj taken
          exact ⟨[], emits_nothing dev, by intro e he; cases he⟩

theorem touch_emitsFrames (taken : dev.touch v = some dev') : EmitsFrames dev dev' := by
  unfold touch at taken
  split at taken
  · obtain ⟨mid, moved, rfl⟩ := Option.map_eq_some_iff.mp taken
    obtain ⟨out, emits, body⟩ := contact_emits moved
    exact emits.sync body
  · obtain rfl := Option.some.inj taken
    exact emitsFrames_refl dev

/-- The pointer branch writes one motion or nothing. -/
theorem pointer_cases (dev : EvdevDevice) (v : HidValue) :
    (dev.isPointer = true ∧ v.IsMotion ∧ ∃ code, dev.pointer v =
        dev.writeEvent evRel code v.val.toInt32) ∨
      (¬ (dev.isPointer = true ∧ v.IsMotion) ∧ dev.pointer v = dev) := by
  unfold pointer HidValue.IsMotion
  split
  · rename_i here
    split
    · rename_i x
      exact Or.inl ⟨here.2, ⟨here.1, Or.inl x⟩, relX, rfl⟩
    · split
      · rename_i y
        exact Or.inl ⟨here.2, ⟨here.1, Or.inr (Or.inl y)⟩, relY, rfl⟩
      · split
        · rename_i wheel
          exact Or.inl ⟨here.2, ⟨here.1, Or.inr (Or.inr wheel)⟩, relWheel, rfl⟩
        · rename_i not_x not_y not_wheel
          refine Or.inr ⟨?_, rfl⟩
          rintro ⟨_, _, x | y | wheel⟩
          · exact not_x x
          · exact not_y y
          · exact not_wheel wheel
  · rename_i elsewhere
    exact Or.inr ⟨fun here => elsewhere ⟨here.2.1, here.1⟩, rfl⟩

/-- A value of the generic desktop page meets the pointer branch only. -/
theorem callback_desktop (dev : EvdevDevice) (page : v.usagePage = pageGenericDesktop) :
    dev.hidValueCallback v = some (dev.pointer v) := by
  have keys : pageGenericDesktop ≠ pageKeyboardOrKeypad := by decide
  have vendor : pageGenericDesktop ≠ pageAppleVendorKeyboard := by decide
  have buttons : pageGenericDesktop ≠ pageButton := by decide
  have digitizer : pageGenericDesktop ≠ pageDigitizer := by decide
  simp only [hidValueCallback, keyboard, globe, button, touch, page, keys, vendor, buttons,
    digitizer, false_and, if_false]

theorem callback_emitsFrames (calm : ¬ (dev.isPointer = true ∧ v.IsMotion))
    (taken : dev.hidValueCallback v = some dev') : EmitsFrames dev dev' := by
  have keys := keyboard_emitsFrames dev v
  have globes := keys.trans (globe_emitsFrames (dev.keyboard v) v)
  have still : ((dev.keyboard v).globe v).pointer v = (dev.keyboard v).globe v := by
    obtain ⟨out, emits, _⟩ := globes
    cases pointer_cases ((dev.keyboard v).globe v) v with
    | inl moves => exact absurd ⟨emits.isPointer ▸ moves.1, moves.2.1⟩ calm
    | inr rests => exact rests.2
  rw [hidValueCallback, still] at taken
  exact globes.trans ((button_emitsFrames _ v).trans (touch_emitsFrames taken))

/-- A motion leaves its event without a SYN_REPORT. -/
theorem callback_motion (moves : dev.isPointer = true ∧ v.IsMotion) :
    ∃ code, dev.hidValueCallback v = some (dev.writeEvent evRel code v.val.toInt32) := by
  rw [callback_desktop dev moves.2.1]
  cases pointer_cases dev v with
  | inl motion =>
      obtain ⟨code, writes⟩ := motion.2.2
      exact ⟨code, congrArg some writes⟩
  | inr rests => exact absurd moves rests.1

theorem complete_callback_iff (complete : Complete IsSyn dev.written)
    (taken : dev.hidValueCallback v = some dev') :
    Complete IsSyn dev'.written ↔ ¬ (dev.isPointer = true ∧ v.IsMotion) := by
  constructor
  · intro after moves
    obtain ⟨code, writes⟩ := callback_motion moves
    obtain rfl := Option.some.inj (writes.symm.trans taken)
    exact not_complete_append (by simp) (not_isSyn (by decide)) after
  · intro calm
    obtain ⟨out, emits, frames⟩ := callback_emitsFrames calm taken
    rw [emits.written]
    exact complete.append frames

/-- The kind of a device never changes. -/
theorem callback_kind (taken : dev.hidValueCallback v = some dev') :
    dev'.isPointer = dev.isPointer ∧ dev'.isTouch = dev.isTouch := by
  by_cases moves : dev.isPointer = true ∧ v.IsMotion
  · obtain ⟨code, writes⟩ := callback_motion moves
    obtain rfl := Option.some.inj (writes.symm.trans taken)
    exact ⟨rfl, rfl⟩
  · obtain ⟨out, emits, _⟩ := callback_emitsFrames moves taken
    exact ⟨emits.isPointer, emits.isTouch⟩

/-- A callback for a device without contacts always returns. -/
theorem callback_returns (dev : EvdevDevice) (v : HidValue) (untouched : dev.isTouch = false) :
    ∃ dev', dev.hidValueCallback v = some dev' := by
  by_cases moves : dev.isPointer = true ∧ v.IsMotion
  · obtain ⟨code, writes⟩ := callback_motion moves
    exact ⟨_, writes⟩
  · obtain ⟨out, emits, _⟩ :=
      (keyboard_emitsFrames dev v).trans (globe_emitsFrames (dev.keyboard v) v)
    have pointed : (((dev.keyboard v).globe v).pointer v).isTouch = dev.isTouch := by
      cases pointer_cases ((dev.keyboard v).globe v) v with
      | inl moves =>
          obtain ⟨code, writes⟩ := moves.2.2
          rw [writes]
          exact emits.isTouch
      | inr rests =>
          rw [rests.2]
          exact emits.isTouch
    obtain ⟨out', emits', _⟩ :=
      button_emitsFrames (((dev.keyboard v).globe v).pointer v) v
    have same := emits'.isTouch.trans (pointed.trans untouched)
    refine ⟨(((dev.keyboard v).globe v).pointer v).button v, ?_⟩
    simp only [hidValueCallback, touch, same, Bool.false_eq_true, and_false, if_false]

/-! Runs of callbacks. -/

theorem run_kind {values : List HidValue}
    (reached : Runs.run hidValueCallback dev values = some dev') :
    dev'.isPointer = dev.isPointer ∧ dev'.isTouch = dev.isTouch := by
  let Kind (d : EvdevDevice) : Prop := d.isPointer = dev.isPointer ∧ d.isTouch = dev.isTouch
  have kept (d : EvdevDevice) (v : HidValue) (d' : EvdevDevice) (h : Kind d)
      (taken : d.hidValueCallback v = some d') : Kind d' :=
    ⟨(callback_kind taken).1.trans h.1, (callback_kind taken).2.trans h.2⟩
  exact Runs.run_invariant kept ⟨rfl, rfl⟩ reached

theorem run_returns (values : List HidValue) (untouched : dev.isTouch = false) :
    ∃ dev', Runs.run hidValueCallback dev values = some dev' := by
  have progress : ∀ (dev : EvdevDevice) (v : HidValue), dev.isTouch = false → True →
      ∃ next, hidValueCallback dev v = some next ∧ next.isTouch = false := by
    intro dev v untouched _
    obtain ⟨next, taken⟩ := callback_returns dev v untouched
    exact ⟨next, taken, (callback_kind taken).2.trans untouched⟩
  obtain ⟨dev', ran, _⟩ := Runs.run_exists progress untouched fun v _ => (trivial : True)
  exact ⟨dev', ran⟩

/-- A pointer registered by `device_added` has no contacts. -/
theorem deviceAdded_untouched {up u : Int32} (h : (deviceAdded up u).isPointer = true) :
    (deviceAdded up u).isTouch = false := by
  have page : up = pageGenericDesktop.toInt32 := by
    simp only [deviceAdded, Bool.and_eq_true, beq_iff_eq] at h
    exact h.1
  change (up == pageDigitizer.toInt32) = false
  rw [page]
  decide

/-- The callbacks that a run takes meet no motion on a pointer exactly when the
values have none. -/
theorem takes_calm_iff (up u : Int32) (values : List HidValue) :
    (∀ dev v, Runs.Takes hidValueCallback (deviceAdded up u) values dev v →
        ¬ (dev.isPointer = true ∧ v.IsMotion)) ↔
      ((deviceAdded up u).isPointer = true → ∀ v ∈ values, ¬ v.IsMotion) := by
  constructor
  · intro calm kind v given motion
    have untouched := deviceAdded_untouched kind
    obtain ⟨before, after, rfl⟩ := List.append_of_mem given
    obtain ⟨dev, reached⟩ := run_returns before untouched
    have same := run_kind reached
    obtain ⟨next, taken⟩ := callback_returns dev v (same.2.trans untouched)
    refine calm dev v ⟨before, after, rfl, reached, by rw [taken]; rfl⟩ ?_
    exact ⟨same.1.trans kind, motion⟩
  · intro calm dev v ⟨before, after, split, reached, _⟩ moves
    have kind : (deviceAdded up u).isPointer = true := (run_kind reached).1.symm.trans moves.1
    exact calm kind v (split ▸ List.mem_append_right before List.mem_cons_self) moves.2

/-- After every callback the stream is in complete frames, exactly when the device
is no pointer or none of its values is a motion. -/
theorem stream_complete_iff (up u : Int32) (values : List HidValue) :
    (∀ dev, Runs.Visits hidValueCallback (deviceAdded up u) values dev →
        Complete IsSyn dev.written) ↔
      ((deviceAdded up u).isPointer = true → ∀ v ∈ values, ¬ v.IsMotion) := by
  rw [← takes_calm_iff]
  refine Runs.visits_iff_takes (fun _ => True) (fun dev : EvdevDevice => Complete IsSyn dev.written)
    (fun (dev : EvdevDevice) v => ¬ (dev.isPointer = true ∧ v.IsMotion)) ?_ ?_ trivial ?_ values
  · intro dev v dev' _ _ _ _
    trivial
  · intro dev v dev' _ complete taken
    exact complete_callback_iff complete taken
  · exact complete_nil

/-- One move of a mouse to the right leaves REL_X without a SYN_REPORT. -/
theorem mouse_move_incomplete :
    ∃ dev, Runs.Visits hidValueCallback
      (deviceAdded pageGenericDesktop.toInt32 usageMouse.toInt32)
      [⟨pageGenericDesktop, usageX, 5⟩] dev ∧
      dev.written = [⟨evRel, relX, 5⟩] ∧ ¬ Complete IsSyn dev.written := by
  refine ⟨_, Runs.visits_of_run rfl, by decide, ?_⟩
  exact not_complete_append (by decide) (not_isSyn (by decide))

end EvdevDevice
end LunaOS.Evdev
