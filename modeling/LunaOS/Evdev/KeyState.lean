import LunaOS.Evdev.Stream
import LunaOS.Lib.Joins
import LunaOS.Lib.Monitors

/-!
Keys and buttons. The callback passes every value of a control on to the code it
translates the control to, as if no other control had that code. Several have: the
Globe key and the left Meta key, and all buttons from the third up. A reader of the
stream is right about every code exactly as long as a control is only let go when it is
the last one of its code that is held.
-/
namespace LunaOS.Evdev
open Runs Monitors Joins

/-- The control that a value is of: its usage page and usage. -/
def HidValue.control (v : HidValue) : UInt32 × UInt32 :=
  (v.usagePage, v.usage)

def HidValue.isOn (v : HidValue) : Bool :=
  v.val != 0

def buttonCode (usage : UInt32) : UInt16 :=
  if usage = 1 then btnLeft else if usage = 2 then btnRight else btnMiddle

namespace EvdevDevice
variable {dev dev' : EvdevDevice} {v : HidValue} {on : Finset (UInt32 × UInt32)}

/-- The code that the bridge translates a control of the device to. -/
def keyOf (dev : EvdevDevice) (c : UInt32 × UInt32) : Option UInt16 :=
  if c.1 = pageKeyboardOrKeypad then
    if dev.isKeyboard = true ∧ hidToLinuxKey c.2 ≠ keyUnknown then some (hidToLinuxKey c.2)
    else none
  else if c.1 = pageAppleVendorKeyboard then
    if c.2 = usageGlobe then some keyLeftMeta else none
  else if c.1 = pageButton then
    if dev.isPointer = true then some (buttonCode c.2) else none
  else none

theorem keyOf_keyboard (dev : EvdevDevice) (page : v.usagePage = pageKeyboardOrKeypad) :
    dev.keyOf v.control =
      if dev.isKeyboard = true ∧ hidToLinuxKey v.usage ≠ keyUnknown then
        some (hidToLinuxKey v.usage)
      else none :=
  if_pos page

theorem keyOf_vendor (dev : EvdevDevice) (page : v.usagePage = pageAppleVendorKeyboard) :
    dev.keyOf v.control = if v.usage = usageGlobe then some keyLeftMeta else none := by
  have keys : v.usagePage ≠ pageKeyboardOrKeypad := by
    rw [page]
    decide
  exact (if_neg keys).trans (if_pos page)

theorem keyOf_button (dev : EvdevDevice) (page : v.usagePage = pageButton) :
    dev.keyOf v.control = if dev.isPointer = true then some (buttonCode v.usage) else none := by
  have keys : v.usagePage ≠ pageKeyboardOrKeypad := by
    rw [page]
    decide
  have vendor : v.usagePage ≠ pageAppleVendorKeyboard := by
    rw [page]
    decide
  exact (if_neg keys).trans ((if_neg vendor).trans (if_pos page))

/-- What a reader of the stream makes of a code: the value of its last EV_KEY. -/
def keyDown (dev : EvdevDevice) (code : UInt16) : Bool :=
  dev.written.foldl
    (fun down e => if e.type = evKey ∧ e.code = code then e.value != 0 else down) false

@[simp] theorem keyDown_writeEvent (dev : EvdevDevice) (type key code : UInt16)
    (value : Int32) : (dev.writeEvent type key value).keyDown code =
      if type = evKey ∧ key = code then value != 0 else dev.keyDown code := by
  simp only [keyDown, writeEvent, List.foldl_append, List.foldl_cons, List.foldl_nil]

@[simp] theorem keyDown_syncEvent (dev : EvdevDevice) (code : UInt16) :
    dev.syncEvent.keyDown code = dev.keyDown code := by
  rw [syncEvent, keyDown_writeEvent, if_neg (fun h => absurd h.1 (by decide))]

/-- `dev'` is `dev` after `key`, if any, has been written with the value `down`. -/
structure Presses (dev dev' : EvdevDevice) (key : Option UInt16) (down : Bool) : Prop where
  isKeyboard : dev'.isKeyboard = dev.isKeyboard
  isPointer : dev'.isPointer = dev.isPointer
  isTouch : dev'.isTouch = dev.isTouch
  keyDown : ∀ code, dev'.keyDown code = if key = some code then down else dev.keyDown code

theorem presses_nothing (dev : EvdevDevice) (down : Bool) : Presses dev dev none down :=
  ⟨rfl, rfl, rfl, fun _ => (if_neg nofun).symm⟩

theorem pressed_bne_zero (val : Int64) : (pressed val != 0) = (val != 0) := by
  unfold pressed
  split
  · rename_i zero
    rw [zero]
    rfl
  · rename_i nonzero
    exact (bne_iff_ne.mpr nonzero).symm

theorem presses_key (dev : EvdevDevice) (key : UInt16) (v : HidValue) :
    Presses dev (dev.writeEvent evKey key (pressed v.val)).syncEvent (some key) v.isOn := by
  refine ⟨rfl, rfl, rfl, fun code => ?_⟩
  simp only [keyDown_syncEvent, keyDown_writeEvent, pressed_bne_zero, true_and,
    Option.some.injEq]
  rfl

/-! What the branches press. A value meets the branches of its own page only. -/

theorem keyboard_presses (dev : EvdevDevice) (page : v.usagePage = pageKeyboardOrKeypad) :
    Presses dev (dev.keyboard v) (dev.keyOf v.control) v.isOn := by
  rw [keyOf_keyboard dev page, keyboard]
  by_cases kind : dev.isKeyboard = true
  · rw [if_pos (c := _ ∧ _) ⟨page, kind⟩]
    by_cases known : hidToLinuxKey v.usage = keyUnknown
    · rw [if_neg fun h => h known, if_neg fun h => h.2 known]
      exact presses_nothing dev v.isOn
    · rw [if_pos known, if_pos ⟨kind, known⟩]
      exact presses_key dev _ v
  · rw [if_neg fun h => kind h.2, if_neg fun h => kind h.1]
    exact presses_nothing dev v.isOn

theorem globe_presses (dev : EvdevDevice) (page : v.usagePage = pageAppleVendorKeyboard) :
    Presses dev (dev.globe v) (dev.keyOf v.control) v.isOn := by
  rw [keyOf_vendor dev page, globe]
  by_cases usage : v.usage = usageGlobe
  · rw [if_pos ⟨page, usage⟩, if_pos usage]
    exact presses_key dev keyLeftMeta v
  · rw [if_neg fun h => usage h.2, if_neg usage]
    exact presses_nothing dev v.isOn

theorem button_presses (dev : EvdevDevice) (page : v.usagePage = pageButton) :
    Presses dev (dev.button v) (dev.keyOf v.control) v.isOn := by
  rw [keyOf_button dev page, button]
  by_cases kind : dev.isPointer = true
  · rw [if_pos ⟨page, kind⟩, if_pos kind]
    exact presses_key dev (buttonCode v.usage) v
  · rw [if_neg fun h => kind h.2, if_neg kind]
    exact presses_nothing dev v.isOn

theorem pointer_presses (dev : EvdevDevice) (v : HidValue) :
    Presses dev (dev.pointer v) none v.isOn := by
  cases pointer_cases dev v with
  | inl moves =>
      obtain ⟨code, writes⟩ := moves.2.2
      rw [writes]
      refine ⟨rfl, rfl, rfl, fun key => ?_⟩
      rw [keyDown_writeEvent, if_neg (fun h => absurd h.1 (by decide)), if_neg nofun]
  | inr rests =>
      rw [rests.2]
      exact presses_nothing dev v.isOn

/-- The one key or button that a callback of a device without contacts can write is
that of the value's control. -/
theorem callback_presses (untouched : dev.isTouch = false)
    (taken : dev.hidValueCallback v = some dev') :
    Presses dev dev' (dev.keyOf v.control) v.isOn := by
  have no_touch (d : EvdevDevice) (same : d.isTouch = dev.isTouch) : d.touch v = some d :=
    if_neg fun h => Bool.false_ne_true (untouched.symm.trans (same.symm.trans h.2))
  by_cases keys : v.usagePage = pageKeyboardOrKeypad
  · have presses := keyboard_presses dev keys
    have here : dev.hidValueCallback v = some (dev.keyboard v) := by
      rw [← no_touch (dev.keyboard v) presses.isTouch]
      simp +decide only [hidValueCallback, globe, pointer, button, keys, false_and, if_false]
    obtain rfl := Option.some.inj (here.symm.trans taken)
    exact presses
  by_cases vendor : v.usagePage = pageAppleVendorKeyboard
  · have presses := globe_presses dev vendor
    have here : dev.hidValueCallback v = some (dev.globe v) := by
      rw [← no_touch (dev.globe v) presses.isTouch]
      simp +decide only [hidValueCallback, keyboard, pointer, button, vendor, false_and, if_false]
    obtain rfl := Option.some.inj (here.symm.trans taken)
    exact presses
  by_cases buttons : v.usagePage = pageButton
  · have presses := button_presses dev buttons
    have here : dev.hidValueCallback v = some (dev.button v) := by
      rw [← no_touch (dev.button v) presses.isTouch]
      simp +decide only [hidValueCallback, keyboard, globe, pointer, buttons, false_and,
        if_false]
    obtain rfl := Option.some.inj (here.symm.trans taken)
    exact presses
  have none : dev.keyOf v.control = none := by
    simp only [keyOf, HidValue.control, keys, vendor, buttons, if_false]
  have presses := pointer_presses dev v
  have here : dev.hidValueCallback v = some (dev.pointer v) := by
    rw [← no_touch (dev.pointer v) presses.isTouch]
    simp only [hidValueCallback, keyboard, globe, button, keys, vendor, buttons, false_and,
      if_false]
  obtain rfl := Option.some.inj (here.symm.trans taken)
  rw [none]
  exact presses

/-! Runs of callbacks, beside the controls whose latest value is not zero. -/

def heldNote (_ : EvdevDevice) (v : HidValue) (on : Finset (UInt32 × UInt32)) :
    Finset (UInt32 × UInt32) :=
  turned on v.control v.isOn

/-- Every code is down for a reader exactly while a control of it is held. -/
def TellsKeys (dev : EvdevDevice) (on : Finset (UInt32 × UInt32)) : Prop :=
  Joined dev.keyOf on fun code => dev.keyDown code = true

/-- The exact guard of one callback. -/
theorem tellsKeys_step_iff (untouched : dev.isTouch = false) (tells : dev.TellsKeys on)
    (taken : dev.hidValueCallback v = some dev') :
    dev'.TellsKeys (heldNote dev v on) ↔ OffLast dev.keyOf on v.control v.isOn := by
  have presses := callback_presses untouched taken
  have same : dev'.keyOf = dev.keyOf := by
    funext c
    rw [keyOf, keyOf, presses.isKeyboard, presses.isPointer]
  rw [TellsKeys, same]
  refine joined_turned_iff tells v.control v.isOn ?_ ?_
  · intro code driven
    rw [presses.keyDown, if_pos driven]
  · intro code other
    rw [presses.keyDown, if_neg other]

/-- A keyboard registered by `device_added` has no contacts either. -/
theorem deviceAdded_without_contacts {up u : Int32}
    (kind : (deviceAdded up u).isKeyboard = true ∨ (deviceAdded up u).isPointer = true) :
    (deviceAdded up u).isTouch = false := by
  have page : up = pageGenericDesktop.toInt32 := by
    simp only [deviceAdded, Bool.and_eq_true, beq_iff_eq] at kind
    exact kind.elim And.left And.left
  change (up == pageDigitizer.toInt32) = false
  rw [page]
  decide

theorem deviceAdded_tellsKeys (up u : Int32) : (deviceAdded up u).TellsKeys ∅ :=
  fun _ => iff_of_false Bool.false_ne_true fun ⟨_, here, _⟩ => absurd here (Finset.notMem_empty _)

/-- Along every sequence of values of a keyboard or pointer a reader is right about every
code after each callback, exactly when no control is let go while another one of its code
is held. -/
theorem key_state_iff (up u : Int32) (values : List HidValue)
    (kind : (deviceAdded up u).isKeyboard = true ∨ (deviceAdded up u).isPointer = true) :
    (∀ dev on, Visits (watch hidValueCallback heldNote) (deviceAdded up u, ∅) values (dev, on) →
        dev.TellsKeys on) ↔
      ∀ dev on v, Takes (watch hidValueCallback heldNote) (deviceAdded up u, ∅) values (dev, on) v →
        OffLast dev.keyOf on v.control v.isOn := by
  refine Monitors.visits_iff_takes (fun dev _ => dev.isTouch = false) TellsKeys
    (fun dev on v => OffLast dev.keyOf on v.control v.isOn) ?_ ?_
    (deviceAdded_without_contacts kind) (deviceAdded_tellsKeys up u) values
  · intro dev on v dev' untouched _ _ taken
    exact (callback_kind taken).2.trans untouched
  · intro dev on v dev' untouched tells taken
    exact tellsKeys_step_iff untouched tells taken

/-- The left Meta key, pressed and let go, and then the Globe key. -/
def metaThenGlobe : List HidValue :=
  [⟨pageKeyboardOrKeypad, 0xE3, 1⟩, ⟨pageKeyboardOrKeypad, 0xE3, 0⟩,
    ⟨pageAppleVendorKeyboard, usageGlobe, 1⟩]

theorem key_state_iff_keyboard :
    (deviceAdded pageGenericDesktop.toInt32 usageKeyboard.toInt32).isKeyboard = true ∧
      (deviceAdded pageGenericDesktop.toInt32 usageKeyboard.toInt32).keyOf
          (pageKeyboardOrKeypad, 0xE3) =
        (deviceAdded pageGenericDesktop.toInt32 usageKeyboard.toInt32).keyOf
          (pageAppleVendorKeyboard, usageGlobe) ∧
      ∀ dev on, Visits (watch hidValueCallback heldNote)
        (deviceAdded pageGenericDesktop.toInt32 usageKeyboard.toInt32, ∅) metaThenGlobe
        (dev, on) → dev.TellsKeys on := by
  have last : allTaken (watch hidValueCallback heldNote)
      (fun p v => OffLast p.1.keyOf p.2 v.control v.isOn)
      (deviceAdded pageGenericDesktop.toInt32 usageKeyboard.toInt32, ∅) metaThenGlobe = true := by
    decide +kernel
  have right := key_state_iff pageGenericDesktop.toInt32 usageKeyboard.toInt32 metaThenGlobe
    (Or.inl (by decide))
  exact ⟨by decide, by decide, right.mpr fun _ _ _ taken => takes_of_allTaken last taken⟩

/-- The left Meta key is held, the Globe key is pressed and let go: Meta is up. -/
theorem globe_releases_meta :
    ∃ dev on, run (watch hidValueCallback heldNote)
        (deviceAdded pageGenericDesktop.toInt32 usageKeyboard.toInt32, ∅)
        [⟨pageKeyboardOrKeypad, 0xE3, 1⟩, ⟨pageAppleVendorKeyboard, usageGlobe, 1⟩,
          ⟨pageAppleVendorKeyboard, usageGlobe, 0⟩] = some (dev, on) ∧
      (pageKeyboardOrKeypad, 0xE3) ∈ on ∧ dev.keyDown keyLeftMeta = false ∧
      ¬ dev.TellsKeys on := by
  refine ⟨_, _, rfl, by decide, by decide, fun tells => ?_⟩
  have held := (tells keyLeftMeta).mpr ⟨(pageKeyboardOrKeypad, 0xE3), by decide, by decide⟩
  exact absurd held (by decide)

end EvdevDevice
end LunaOS.Evdev
