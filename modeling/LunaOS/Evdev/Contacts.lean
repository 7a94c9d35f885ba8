import Mathlib.Data.Finset.Card
import LunaOS.Evdev.Touch
import LunaOS.Lib.Monitors

/-!
The contacts of a trackpad. The bridge keeps no contacts: it selects a slot for an
identifier and writes what it is told of the switch. Which contacts are down, and
the slots that were selected when they went down, are notes beside the device. A
contact is named by the identifier that was given last, and the first one may come
before any identifier. The slot of an identifier is its remainder by ten, that of
C: a negative identifier leaves the arrays, and two identifiers that differ by a
multiple of ten meet in one slot.
-/
namespace LunaOS.Evdev
open Runs Monitors

/-- The value is the identifier of a contact. -/
def HidValue.SelectsContact (v : HidValue) : Prop :=
  v.usagePage = pageDigitizer ∧ v.usage = usageContactIdentifier

/-- The value is the switch of the selected contact. -/
def HidValue.IsTipSwitch (v : HidValue) : Prop :=
  v.usagePage = pageDigitizer ∧ v.usage = usageTipSwitch

instance (v : HidValue) : Decidable v.SelectsContact :=
  inferInstanceAs (Decidable (_ ∧ _))

instance (v : HidValue) : Decidable v.IsTipSwitch :=
  inferInstanceAs (Decidable (_ ∧ _))

theorem HidValue.not_selects_of_tip {v : HidValue} (tip : v.IsTipSwitch) :
    ¬ v.SelectsContact :=
  fun contact => absurd (tip.2.symm.trans contact.2) (by decide)

/-- A ContactIdentifier, as the `int` the callback makes of it. -/
def identifier (val : Int64) : Int :=
  val.toInt32.toInt

/-- The contacts whose latest TipSwitch is not 0, each with the slot that was
selected then. -/
structure Contacts where
  selected : Option Int64 := none
  down : Finset (Option Int64) := ∅
  slot : Option Int64 → Int32 := fun _ => 0

namespace Contacts

def switched (o : Contacts) (v : HidValue) : Finset (Option Int64) :=
  if v.val = 0 then o.down.erase o.selected else insert o.selected o.down

def note (dev : EvdevDevice) (v : HidValue) (o : Contacts) : Contacts :=
  if v.IsTipSwitch then
    { o with
      down := o.switched v
      slot := Function.update o.slot o.selected dev.mtSlot }
  else if v.SelectsContact then { o with selected := some v.val }
  else o

/-- Identifiers that are down together, at most ten contacts being down, do not share
a slot. -/
def SlotsApart (o : Contacts) : Prop :=
  o.down.card ≤ 10 → ∀ i j : Int64, some i ∈ o.down → some j ∈ o.down → i ≠ j →
    o.slot (some i) ≠ o.slot (some j)

/-- No two identifiers differ by a multiple of ten, if there are at most ten contacts. -/
def Incongruent (down : Finset (Option Int64)) : Prop :=
  down.card ≤ 10 → ∀ i j : Int64, some i ∈ down → some j ∈ down → i ≠ j →
    ¬ 10 ∣ identifier i - identifier j

/-- An identifier is given only where it is not negative or a multiple of ten, and a
switch leaves only incongruent identifiers down. -/
def Separates (o : Contacts) (v : HidValue) : Prop :=
  (v.SelectsContact → 0 ≤ identifier v.val ∨ 10 ∣ identifier v.val) ∧
    (v.IsTipSwitch → Incongruent (o.switched v))

variable {dev : EvdevDevice} {v : HidValue} {o : Contacts}

theorem note_of_tip (tip : v.IsTipSwitch) :
    note dev v o =
      { o with
        down := o.switched v
        slot := Function.update o.slot o.selected dev.mtSlot } :=
  if_pos tip

theorem note_of_contact (contact : v.SelectsContact) :
    note dev v o = { o with selected := some v.val } := by
  rw [note, if_neg fun tip => HidValue.not_selects_of_tip tip contact, if_pos contact]

theorem note_of_other (no_tip : ¬ v.IsTipSwitch) (no_contact : ¬ v.SelectsContact) :
    note dev v o = o := by
  rw [note, if_neg no_tip, if_neg no_contact]

theorem down_note_of_no_tip (no_tip : ¬ v.IsTipSwitch) : (o.note dev v).down = o.down := by
  unfold note
  rw [if_neg no_tip]
  split <;> rfl

theorem mem_of_mem_switched {c : Option Int64} (h : c ∈ o.switched v) (other : c ≠ o.selected) :
    c ∈ o.down := by
  unfold switched at h
  split at h
  · exact Finset.mem_of_mem_erase h
  · exact Finset.mem_of_mem_insert_of_ne h other

end Contacts

/-! The slot of an identifier. -/

def slotOf (val : Int64) : Int32 :=
  val.toInt32 % 10

theorem toInt_slotOf (val : Int64) : (slotOf val).toInt = (identifier val).tmod 10 :=
  Int32.toInt_mod _ _

theorem slotOf_inside_iff (val : Int64) :
    (0 ≤ (slotOf val).toInt ∧ (slotOf val).toInt < 10) ↔
      0 ≤ identifier val ∨ 10 ∣ identifier val := by
  rw [toInt_slotOf, Int.tmod_eq_emod]
  split <;> omega

theorem slotOf_eq_iff {i j : Int64} (first : 0 ≤ identifier i ∨ 10 ∣ identifier i)
    (second : 0 ≤ identifier j ∨ 10 ∣ identifier j) :
    slotOf i = slotOf j ↔ 10 ∣ identifier i - identifier j := by
  have remainder {n : Int} (fits : 0 ≤ n ∨ 10 ∣ n) : n.tmod 10 = n % 10 := by
    rw [Int.tmod_eq_emod, if_pos fits]
    exact Int.sub_zero _
  rw [← Int32.toInt_inj, toInt_slotOf, toInt_slotOf, remainder first, remainder second]
  omega

namespace EvdevDevice
variable {dev dev' : EvdevDevice} {v : HidValue}

/-! What a callback of a trackpad can do. -/

def lastTouch (dev : EvdevDevice) : Option Int32 :=
  dev.written.foldl
    (fun last e => if e.type = evKey ∧ e.code = btnTouch then some e.value else last) none

@[simp] theorem lastTouch_writeEvent (dev : EvdevDevice) (type code : UInt16) (value : Int32) :
    (dev.writeEvent type code value).lastTouch =
      if type = evKey ∧ code = btnTouch then some value else dev.lastTouch := by
  simp only [lastTouch, writeEvent, List.foldl_append, List.foldl_cons, List.foldl_nil]

@[simp] theorem lastTouch_syncEvent (dev : EvdevDevice) :
    dev.syncEvent.lastTouch = dev.lastTouch := by
  rw [syncEvent, lastTouch_writeEvent, if_neg (by decide)]

/-- A device whose primary usage page is Digitizer. -/
structure IsTrackpad (dev : EvdevDevice) : Prop where
  keyboard : dev.isKeyboard = false
  pointer : dev.isPointer = false
  touch : dev.isTouch = true

theorem deviceAdded_isTrackpad (u : Int32) : (deviceAdded pageDigitizer.toInt32 u).IsTrackpad :=
  ⟨rfl, rfl, rfl⟩

structure Moves (dev : EvdevDevice) (v : HidValue) (dev' : EvdevDevice) : Prop where
  trackpad : dev'.IsTrackpad
  slot : dev'.mtSlot = if v.SelectsContact then slotOf v.val else dev.mtSlot
  button : dev'.lastTouch = if v.IsTipSwitch then some (pressed v.val) else dev.lastTouch

theorem globe_moves (pad : dev.IsTrackpad) (v : HidValue) :
    (dev.globe v).IsTrackpad ∧ (dev.globe v).mtSlot = dev.mtSlot ∧
      (dev.globe v).lastTouch = dev.lastTouch := by
  unfold globe
  split
  · refine ⟨⟨pad.keyboard, pad.pointer, pad.touch⟩, rfl, ?_⟩
    rw [lastTouch_syncEvent, lastTouch_writeEvent, if_neg (by decide)]
  · exact ⟨pad, rfl, rfl⟩

/-- The keyboard, pointer and button branches are not a trackpad's. -/
theorem callback_of_trackpad (pad : dev.IsTrackpad) (v : HidValue) :
    dev.hidValueCallback v = (dev.globe v).touch v := by
  have no_keys : dev.keyboard v = dev :=
    if_neg fun h => Bool.false_ne_true (pad.keyboard.symm.trans h.2)
  have still := (globe_moves pad v).1
  have no_motion : (dev.globe v).pointer v = dev.globe v :=
    if_neg fun h => Bool.false_ne_true (still.pointer.symm.trans h.2)
  have no_button : (dev.globe v).button v = dev.globe v :=
    if_neg fun h => Bool.false_ne_true (still.pointer.symm.trans h.2)
  rw [hidValueCallback, no_keys, no_motion, no_button]

theorem Moves.of_still (pad : dev'.IsTrackpad) (slot : dev'.mtSlot = dev.mtSlot)
    (button : dev'.lastTouch = dev.lastTouch) (no_tip : ¬ v.IsTipSwitch)
    (no_contact : ¬ v.SelectsContact) : Moves dev v dev' where
  trackpad := pad
  slot := by rw [if_neg no_contact, slot]
  button := by rw [if_neg no_tip, button]

theorem contact_moves (pad : dev.IsTrackpad) (page : v.usagePage = pageDigitizer)
    (taken : dev.contact v = some dev') : Moves dev v dev' := by
  have same (d : EvdevDevice) (keyboard : d.isKeyboard = dev.isKeyboard)
      (pointer : d.isPointer = dev.isPointer) (touch : d.isTouch = dev.isTouch) :
      d.IsTrackpad :=
    ⟨keyboard.trans pad.keyboard, pointer.trans pad.pointer, touch.trans pad.touch⟩
  unfold contact at taken
  split at taken
  · rename_i tip
    obtain rfl := Option.some.inj taken
    refine ⟨same _ rfl rfl rfl, ?_, ?_⟩
    · rw [if_neg (HidValue.not_selects_of_tip ⟨page, tip⟩)]
      rfl
    · rw [lastTouch_writeEvent, if_pos ⟨rfl, rfl⟩, if_pos ⟨page, tip⟩]
  · rename_i no_tip
    split at taken
    · rename_i x
      obtain ⟨xs, _, rfl⟩ := Option.map_eq_some_iff.mp taken
      refine .of_still (same _ rfl rfl rfl) rfl ?_ (fun h => no_tip h.2) ?_
      · simp only [lastTouch_writeEvent]
        rfl
      · exact fun h => absurd (x.symm.trans h.2) (by decide)
    · split at taken
      · rename_i y
        obtain ⟨ys, _, rfl⟩ := Option.map_eq_some_iff.mp taken
        refine .of_still (same _ rfl rfl rfl) rfl ?_ (fun h => no_tip h.2) ?_
        · simp only [lastTouch_writeEvent]
          rfl
        · exact fun h => absurd (y.symm.trans h.2) (by decide)
      · split at taken
        · rename_i contact
          obtain rfl := Option.some.inj taken
          refine ⟨same _ rfl rfl rfl, ?_, ?_⟩
          · rw [if_pos ⟨page, contact⟩]
            rfl
          · rw [lastTouch_writeEvent, if_neg (by decide), if_neg fun h => no_tip h.2]
            rfl
        · rename_i no_contact
          obtain rfl := Option.some.inj taken
          exact .of_still pad rfl rfl (fun h => no_tip h.2) fun h => no_contact h.2

/-- One callback of a trackpad, for the slot that is selected and for BTN_TOUCH. -/
theorem callback_moves (pad : dev.IsTrackpad) (taken : dev.hidValueCallback v = some dev') :
    Moves dev v dev' := by
  rw [callback_of_trackpad pad, touch] at taken
  obtain ⟨still, slot, button⟩ := globe_moves pad v
  split at taken
  · rename_i here
    obtain ⟨mid, moved, rfl⟩ := Option.map_eq_some_iff.mp taken
    have moves := contact_moves still here.1 moved
    refine ⟨⟨moves.trackpad.keyboard, moves.trackpad.pointer, moves.trackpad.touch⟩, ?_, ?_⟩
    · exact moves.slot.trans (by rw [slot])
    · rw [lastTouch_syncEvent, moves.button, button]
  · rename_i other
    obtain rfl := Option.some.inj taken
    have elsewhere : v.usagePage ≠ pageDigitizer := fun page => other ⟨page, still.touch⟩
    exact .of_still still slot button (fun h => elsewhere h.1) fun h => elsewhere h.1

theorem contact_isSome (inside : dev.SlotInside) (v : HidValue) : (dev.contact v).isSome := by
  unfold contact
  split
  · rfl
  · split
    · obtain ⟨_, _, written⟩ := mtWrite_inside dev.mtX v.val.toInt32 inside
      rw [Option.isSome_map, written]
      rfl
    · split
      · obtain ⟨_, _, written⟩ := mtWrite_inside dev.mtY v.val.toInt32 inside
        rw [Option.isSome_map, written]
        rfl
      · split <;> rfl

/-- Where the selected slot is inside the arrays, no value is written outside them. -/
theorem callback_isSome (inside : dev.SlotInside) (v : HidValue) :
    (dev.hidValueCallback v).isSome := by
  obtain ⟨_, before⟩ := before_touch_reports dev v
  unfold hidValueCallback touch
  split
  · rw [Option.isSome_map]
    exact contact_isSome (before.inside inside) v
  · rfl

/-- The slot is inside the arrays, whatever comes next is, and the contacts that are
down have slots of their own. -/
structure KeepsApart (dev : EvdevDevice) (o : Contacts) : Prop where
  inside : dev.SlotInside
  accesses : ∀ v, (dev.hidValueCallback v).isSome
  apart : o.SlotsApart

/-- Every identifier given so far has a slot inside the arrays, and the slots that are
noted are those of the identifiers. -/
structure Tracks (dev : EvdevDevice) (o : Contacts) : Prop where
  trackpad : dev.IsTrackpad
  selected : ∀ i, o.selected = some i →
    dev.mtSlot = slotOf i ∧ (0 ≤ identifier i ∨ 10 ∣ identifier i)
  down : ∀ i, some i ∈ o.down →
    o.slot (some i) = slotOf i ∧ (0 ≤ identifier i ∨ 10 ∣ identifier i)

variable {o : Contacts}

theorem Tracks.slotsApart_iff (tracks : Tracks dev o) :
    o.SlotsApart ↔ Contacts.Incongruent o.down := by
  have differ {i j : Int64} (first : some i ∈ o.down) (second : some j ∈ o.down) :
      o.slot (some i) ≠ o.slot (some j) ↔ ¬ 10 ∣ identifier i - identifier j := by
    obtain ⟨slot, fits⟩ := tracks.down i first
    obtain ⟨slot', fits'⟩ := tracks.down j second
    rw [slot, slot', ne_eq, slotOf_eq_iff fits fits']
  constructor
  · exact fun apart few i j first second ne => (differ first second).mp
      (apart few i j first second ne)
  · exact fun apart few i j first second ne => (differ first second).mpr
      (apart few i j first second ne)

theorem Tracks.callback (tracks : Tracks dev o) (taken : dev.hidValueCallback v = some dev')
    (valid : v.SelectsContact → 0 ≤ identifier v.val ∨ 10 ∣ identifier v.val) :
    Tracks dev' (o.note dev v) := by
  have moves := callback_moves tracks.trackpad taken
  by_cases tip : v.IsTipSwitch
  · have slot : dev'.mtSlot = dev.mtSlot :=
      moves.slot.trans (if_neg (HidValue.not_selects_of_tip tip))
    rw [Contacts.note_of_tip tip]
    refine ⟨moves.trackpad, fun i here => ?_, fun i here => ?_⟩
    · rw [slot]
      exact tracks.selected i here
    · dsimp only
      by_cases now : some i = o.selected
      · rw [now, Function.update_self]
        exact tracks.selected i now.symm
      · rw [Function.update_of_ne now]
        exact tracks.down i (Contacts.mem_of_mem_switched here now)
  · by_cases contact : v.SelectsContact
    · have slot : dev'.mtSlot = slotOf v.val := moves.slot.trans (if_pos contact)
      rw [Contacts.note_of_contact contact]
      refine ⟨moves.trackpad, fun i here => ?_, tracks.down⟩
      obtain rfl := Option.some.inj here
      exact ⟨slot, valid contact⟩
    · have slot : dev'.mtSlot = dev.mtSlot := moves.slot.trans (if_neg contact)
      rw [Contacts.note_of_other tip contact]
      exact ⟨moves.trackpad, fun i here => slot ▸ tracks.selected i here, tracks.down⟩

theorem slotInside_iff (pad : dev.IsTrackpad) (inside : dev.SlotInside)
    (taken : dev.hidValueCallback v = some dev') :
    dev'.SlotInside ↔
      (v.SelectsContact → 0 ≤ identifier v.val ∨ 10 ∣ identifier v.val) := by
  have moves := callback_moves pad taken
  by_cases contact : v.SelectsContact
  · have slot : dev'.mtSlot = slotOf v.val := moves.slot.trans (if_pos contact)
    rw [SlotInside, slot, slotOf_inside_iff]
    exact ⟨fun fits _ => fits, fun fits => fits contact⟩
  · have slot : dev'.mtSlot = dev.mtSlot := moves.slot.trans (if_neg contact)
    rw [SlotInside, slot]
    exact ⟨fun _ h => absurd h contact, fun _ => inside⟩

theorem incongruent_note_iff (apart : Contacts.Incongruent o.down) :
    Contacts.Incongruent (o.note dev v).down ↔
      (v.IsTipSwitch → Contacts.Incongruent (o.switched v)) := by
  by_cases tip : v.IsTipSwitch
  · rw [Contacts.note_of_tip tip]
    exact ⟨fun after _ => after, fun after => after tip⟩
  · rw [Contacts.down_note_of_no_tip tip]
    exact ⟨fun _ h => absurd h tip, fun _ => apart⟩

/-- The exact guard of one callback. -/
theorem keepsApart_step_iff (tracks : Tracks dev o) (keeps : KeepsApart dev o)
    (taken : dev.hidValueCallback v = some dev') :
    KeepsApart dev' (o.note dev v) ↔ o.Separates v := by
  have within := slotInside_iff tracks.trackpad keeps.inside taken
  have spread : Contacts.Incongruent (o.note dev v).down ↔ _ :=
    incongruent_note_iff (tracks.slotsApart_iff.mp keeps.apart)
  constructor
  · rintro ⟨inside, _, apart⟩
    have next := tracks.callback taken (within.mp inside)
    exact ⟨within.mp inside, spread.mp (next.slotsApart_iff.mp apart)⟩
  · rintro ⟨valid, after⟩
    have next := tracks.callback taken valid
    have inside := within.mpr valid
    exact ⟨inside, callback_isSome inside, next.slotsApart_iff.mpr (spread.mpr after)⟩

/-- Along every sequence of callbacks of a trackpad, every access to the arrays is
inside them and contacts that are down together have slots of their own, exactly
when no identifier is negative without being a multiple of ten and no switch leaves
two identifiers down that differ by a multiple of ten. -/
theorem contacts_apart_iff (u : Int32) (values : List HidValue) :
    (∀ dev o, Visits (watch hidValueCallback Contacts.note)
        (deviceAdded pageDigitizer.toInt32 u, {}) values (dev, o) → KeepsApart dev o) ↔
      ∀ dev o v, Takes (watch hidValueCallback Contacts.note)
        (deviceAdded pageDigitizer.toInt32 u, {}) values (dev, o) v → o.Separates v := by
  have tracks : Tracks (deviceAdded pageDigitizer.toInt32 u) {} :=
    ⟨deviceAdded_isTrackpad u, nofun, fun i h => absurd h (Finset.notMem_empty _)⟩
  have inside : (deviceAdded pageDigitizer.toInt32 u).SlotInside :=
    slot_inside (show (0 : Int) ≤ (0 : Int32).toInt by decide)
  have start : KeepsApart (deviceAdded pageDigitizer.toInt32 u) {} :=
    ⟨inside, callback_isSome inside, fun _ i _ h => absurd h (Finset.notMem_empty _)⟩
  exact Monitors.visits_iff_takes Tracks KeepsApart (fun _ o v => o.Separates v)
    (fun _ _ v _ now _ guard taken => now.callback (v := v) taken guard.1)
    (fun _ _ v _ now keeps taken => keepsApart_step_iff (v := v) now keeps taken)
    tracks start values

/-- The identifier -1 selects slot -1, and the position that follows is written in front
of the array. The identifiers 1 and 11, down together, share slot 1. -/
theorem negative_contact_leaves_arrays :
    (∃ dev, run hidValueCallback (deviceAdded pageDigitizer.toInt32 0)
        [⟨pageDigitizer, usageContactIdentifier, -1⟩] = some dev ∧
      ¬ dev.SlotInside ∧ dev.hidValueCallback ⟨pageDigitizer, usageX, 40⟩ = none) ∧
    ∃ dev o, run (watch hidValueCallback Contacts.note)
        (deviceAdded pageDigitizer.toInt32 0, {})
        [⟨pageDigitizer, usageContactIdentifier, 1⟩, ⟨pageDigitizer, usageTipSwitch, 1⟩,
          ⟨pageDigitizer, usageContactIdentifier, 11⟩, ⟨pageDigitizer, usageTipSwitch, 1⟩] =
          some (dev, o) ∧ ¬ o.SlotsApart := by
  refine ⟨⟨_, rfl, fun inside => absurd inside.1 (by decide), by decide⟩, _, _, rfl, ?_⟩
  intro apart
  exact apart (by decide) 1 11 (by decide) (by decide) (by decide) (by decide)

end EvdevDevice
end LunaOS.Evdev
