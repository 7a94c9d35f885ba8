import Mathlib.Data.Int.Order.Basic
import LunaOS.Evdev.Device
import LunaOS.Lib.Replay
import LunaOS.Lib.Runs

/-!
The multi-touch stream. A reader of the evdev slot protocol sees only the events
of the pipe; the slot that a position belongs to is the one selected last,
perhaps many callbacks ago. It keeps up with the arrays of the bridge as long as
every contact identifier is no negative number, so that every slot is inside
them.
-/
namespace LunaOS.Evdev
open Replay

/-- A reader of the slot protocol. It knows nothing of the ten slots of the bridge. -/
structure SlotReader where
  slot : Int := 0
  x : Int → Int32 := fun _ => 0
  y : Int → Int32 := fun _ => 0

/-- ABS_MT_SLOT selects a slot, ABS_MT_POSITION_X and Y move the selected slot. -/
def SlotReader.read (r : SlotReader) (e : InputEvent) : SlotReader :=
  if e.type ≠ evAbs then r
  else if e.code = absMtSlot then { r with slot := e.value.toInt }
  else if e.code = absMtPositionX then { r with x := Function.update r.x r.slot e.value }
  else if e.code = absMtPositionY then { r with y := Function.update r.y r.slot e.value }
  else r

/-- The value is a contact identifier that is negative as an `int`. -/
def HidValue.IsNegativeContact (v : HidValue) : Prop :=
  v.usagePage = pageDigitizer ∧ v.usage = usageContactIdentifier ∧ v.val.toInt32.toInt < 0

instance (v : HidValue) : Decidable v.IsNegativeContact :=
  inferInstanceAs (Decidable (_ ∧ _ ∧ _))

namespace EvdevDevice

structure Agrees (dev : EvdevDevice) (r : SlotReader) : Prop where
  slot : r.slot = dev.mtSlot.toInt
  x : ∀ i : Fin 10, r.x i = dev.mtX i
  y : ∀ i : Fin 10, r.y i = dev.mtY i

def SlotInside (dev : EvdevDevice) : Prop :=
  0 ≤ dev.mtSlot.toInt ∧ dev.mtSlot.toInt < 10

/-- `dev'` is `dev` after it has written `out`, with the contacts to match. -/
structure Reports (dev dev' : EvdevDevice) (out : List InputEvent) : Prop where
  written : dev'.written = dev.written ++ out
  carries : Carries Agrees SlotReader.read dev dev' out
  inside : dev.SlotInside → dev'.SlotInside

variable {dev dev' dev'' : EvdevDevice} {v : HidValue}

theorem reports_nothing (dev : EvdevDevice) : Reports dev dev [] :=
  ⟨(List.append_nil _).symm, fun _ h => h, id⟩

theorem Reports.trans {out out' : List InputEvent} (h : Reports dev dev' out)
    (h' : Reports dev' dev'' out') : Reports dev dev'' (out ++ out') where
  written := by rw [h'.written, h.written, List.append_assoc]
  carries := h.carries.trans h'.carries
  inside := fun inside => h'.inside (h.inside inside)

/-- An event of another type or code says nothing of the contacts. -/
theorem reports_writeEvent (dev : EvdevDevice) {type code : UInt16} (value : Int32)
    (silent : ∀ r : SlotReader, r.read ⟨type, code, value⟩ = r) :
    Reports dev (dev.writeEvent type code value) [⟨type, code, value⟩] where
  written := rfl
  carries := by
    intro r agrees
    rw [List.foldl_cons, List.foldl_nil, silent]
    exact ⟨agrees.slot, agrees.x, agrees.y⟩
  inside := id

theorem read_of_type_ne {type code : UInt16} {value : Int32} (other : type ≠ evAbs)
    (r : SlotReader) : r.read ⟨type, code, value⟩ = r := by
  simp only [SlotReader.read, if_pos other]

theorem read_of_code_ne {code : UInt16} {value : Int32} (not_slot : code ≠ absMtSlot)
    (not_x : code ≠ absMtPositionX) (not_y : code ≠ absMtPositionY) (r : SlotReader) :
    r.read ⟨evAbs, code, value⟩ = r := by
  simp only [SlotReader.read, if_neg not_slot, if_neg not_x, if_neg not_y, ne_eq,
    not_true_eq_false, if_false]

theorem reports_key (dev : EvdevDevice) (code : UInt16) (value : Int32) :
    ∃ out, Reports dev (dev.writeEvent evKey code value).syncEvent out :=
  ⟨_, (reports_writeEvent dev value (read_of_type_ne (by decide))).trans
    (reports_writeEvent _ 0 (read_of_type_ne (by decide)))⟩

/-! The branches that leave the contacts alone. -/

theorem keyboard_reports (dev : EvdevDevice) (v : HidValue) :
    ∃ out, Reports dev (dev.keyboard v) out := by
  unfold keyboard
  split
  · dsimp only
    split
    · exact reports_key dev _ _
    · exact ⟨[], reports_nothing dev⟩
  · exact ⟨[], reports_nothing dev⟩

theorem globe_reports (dev : EvdevDevice) (v : HidValue) :
    ∃ out, Reports dev (dev.globe v) out := by
  unfold globe
  split
  · exact reports_key dev _ _
  · exact ⟨[], reports_nothing dev⟩

theorem pointer_reports (dev : EvdevDevice) (v : HidValue) :
    ∃ out, Reports dev (dev.pointer v) out := by
  have motion (code : UInt16) :
      ∃ out, Reports dev (dev.writeEvent evRel code v.val.toInt32) out :=
    ⟨_, reports_writeEvent dev _ (read_of_type_ne (by decide))⟩
  unfold pointer
  split
  · split
    · exact motion relX
    · split
      · exact motion relY
      · split
        · exact motion relWheel
        · exact ⟨[], reports_nothing dev⟩
  · exact ⟨[], reports_nothing dev⟩

theorem button_reports (dev : EvdevDevice) (v : HidValue) :
    ∃ out, Reports dev (dev.button v) out := by
  unfold button
  split
  · exact reports_key dev _ _
  · exact ⟨[], reports_nothing dev⟩

/-! The branch that moves the contacts. -/

theorem mtWrite_inside (a : Fin 10 → Int32) {slot : Int32} (x : Int32)
    (inside : 0 ≤ slot.toInt ∧ slot.toInt < 10) :
    ∃ i : Fin 10, (i : Int) = slot.toInt ∧ mtWrite a slot x = some (Function.update a i x) :=
  ⟨⟨slot.toInt.toNat, by omega⟩, Int.toNat_of_nonneg inside.1, dif_pos inside⟩

/-- Moving the selected slot of the reader moves the same entry of the array. -/
theorem update_agrees {a : Fin 10 → Int32} {read : Int → Int32} {i : Fin 10} {slot : Int}
    (here : (i : Int) = slot) (value : Int32) (same : ∀ j : Fin 10, read j = a j)
    (j : Fin 10) : Function.update read slot value j = Function.update a i value j := by
  by_cases e : j = i
  · subst e
    rw [here, Function.update_self, Function.update_self]
  · have apart : (j : Int) ≠ slot := by
      rw [← here]
      exact fun eq => e (Fin.ext (Int.ofNat.inj eq))
    rw [Function.update_of_ne apart, Function.update_of_ne e, same]

theorem reports_x (inside : dev.SlotInside) (value : Int32) :
    ∃ xs, mtWrite dev.mtX dev.mtSlot value = some xs ∧
      Reports dev ({ dev with mtX := xs }.writeEvent evAbs absMtPositionX value)
        [⟨evAbs, absMtPositionX, value⟩] := by
  obtain ⟨i, here, written⟩ := mtWrite_inside dev.mtX value inside
  refine ⟨_, written, rfl, ?_, id⟩
  intro r agrees
  exact ⟨agrees.slot, update_agrees (here.trans agrees.slot.symm) value agrees.x, agrees.y⟩

theorem reports_y (inside : dev.SlotInside) (value : Int32) :
    ∃ ys, mtWrite dev.mtY dev.mtSlot value = some ys ∧
      Reports dev ({ dev with mtY := ys }.writeEvent evAbs absMtPositionY value)
        [⟨evAbs, absMtPositionY, value⟩] := by
  obtain ⟨i, here, written⟩ := mtWrite_inside dev.mtY value inside
  refine ⟨_, written, rfl, ?_, id⟩
  intro r agrees
  exact ⟨agrees.slot, agrees.x, update_agrees (here.trans agrees.slot.symm) value agrees.y⟩

/-- A contact identifier that is not negative selects a slot inside the arrays. -/
theorem slot_inside {n : Int32} (nonneg : 0 ≤ n.toInt) :
    0 ≤ (n % 10).toInt ∧ (n % 10).toInt < 10 := by
  have rest : (n % 10).toInt = n.toInt % 10 := by
    rw [Int32.toInt_mod]
    exact Int.tmod_eq_emod_of_nonneg nonneg
  rw [rest]
  omega

theorem reports_slot (dev : EvdevDevice) {n : Int32} (nonneg : 0 ≤ n.toInt) :
    Reports dev ({ dev with mtSlot := n % 10 }.writeEvent evAbs absMtSlot (n % 10))
      [⟨evAbs, absMtSlot, n % 10⟩] where
  written := rfl
  carries := fun _ agrees => ⟨rfl, agrees.x, agrees.y⟩
  inside := fun _ => slot_inside nonneg

theorem contact_reports (inside : dev.SlotInside) (page : v.usagePage = pageDigitizer)
    (valid : ¬ v.IsNegativeContact) :
    ∃ dev' out, dev.contact v = some dev' ∧ Reports dev dev' out := by
  unfold contact
  split
  · exact ⟨_, _, rfl, reports_writeEvent dev _ (read_of_type_ne (by decide))⟩
  · split
    · obtain ⟨xs, written, reports⟩ := reports_x inside v.val.toInt32
      refine ⟨_, _, congrArg (Option.map _) written, reports.trans (reports_writeEvent _ _ ?_)⟩
      exact read_of_code_ne (by decide) (by decide) (by decide)
    · split
      · obtain ⟨ys, written, reports⟩ := reports_y inside v.val.toInt32
        refine ⟨_, _, congrArg (Option.map _) written, reports.trans (reports_writeEvent _ _ ?_)⟩
        exact read_of_code_ne (by decide) (by decide) (by decide)
      · split
        · rename_i identifier
          have nonneg : 0 ≤ v.val.toInt32.toInt :=
            Int.not_lt.mp fun negative => valid ⟨page, identifier, negative⟩
          exact ⟨_, _, rfl, reports_slot dev nonneg⟩
        · exact ⟨dev, [], rfl, reports_nothing dev⟩

theorem touch_reports (inside : dev.SlotInside) (valid : ¬ v.IsNegativeContact) :
    ∃ dev' out, dev.touch v = some dev' ∧ Reports dev dev' out := by
  unfold touch
  split
  · rename_i here
    obtain ⟨mid, out, moved, reports⟩ := contact_reports inside here.1 valid
    refine ⟨_, _, congrArg (Option.map _) moved, reports.trans (reports_writeEvent mid 0 ?_)⟩
    exact read_of_type_ne (by decide)
  · exact ⟨dev, [], rfl, reports_nothing dev⟩

/-- The branches before the touch branch. -/
theorem before_touch_reports (dev : EvdevDevice) (v : HidValue) :
    ∃ out, Reports dev ((((dev.keyboard v).globe v).pointer v).button v) out := by
  obtain ⟨_, keys⟩ := keyboard_reports dev v
  obtain ⟨_, globes⟩ := globe_reports (dev.keyboard v) v
  obtain ⟨_, motions⟩ := pointer_reports ((dev.keyboard v).globe v) v
  obtain ⟨_, buttons⟩ := button_reports (((dev.keyboard v).globe v).pointer v) v
  exact ⟨_, ((keys.trans globes).trans motions).trans buttons⟩

/-- One callback returns, and what it writes tells the reader what it does to the
contacts. -/
theorem callback_reports (inside : dev.SlotInside) (valid : ¬ v.IsNegativeContact) :
    ∃ dev' out, dev.hidValueCallback v = some dev' ∧ Reports dev dev' out := by
  obtain ⟨_, before⟩ := before_touch_reports dev v
  obtain ⟨dev', out, moved, touches⟩ := touch_reports (before.inside inside) valid
  exact ⟨dev', _, moved, before.trans touches⟩

/-- Whatever values a device is given, none of them a negative contact identifier,
the slot protocol read from its pipe is the bridge's own picture of the contacts. -/
theorem slots_read_back (up u : Int32) (values : List HidValue)
    (valid : ∀ v ∈ values, ¬ v.IsNegativeContact) :
    ∃ dev, Runs.run hidValueCallback (deviceAdded up u) values = some dev ∧
      (dev.written.foldl SlotReader.read {}).slot = dev.mtSlot.toInt ∧
      ∀ i : Fin 10, (dev.written.foldl SlotReader.read {}).x i = dev.mtX i ∧
        (dev.written.foldl SlotReader.read {}).y i = dev.mtY i := by
  let Inv (dev : EvdevDevice) : Prop :=
    dev.SlotInside ∧ Follows Agrees written SlotReader.read {} dev
  have progress (dev : EvdevDevice) (v : HidValue) (inv : Inv dev)
      (allowed : ¬ v.IsNegativeContact) :
      ∃ dev', dev.hidValueCallback v = some dev' ∧ Inv dev' := by
    obtain ⟨inside, follows⟩ := inv
    obtain ⟨dev', out, taken, reports⟩ := callback_reports inside allowed
    exact ⟨dev', taken, reports.inside inside,
      follows.extend reports.written reports.carries⟩
  have first : (deviceAdded up u).SlotInside :=
    slot_inside (show (0 : Int) ≤ (0 : Int32).toInt by decide)
  have start : Inv (deviceAdded up u) :=
    ⟨first, rfl, fun _ => rfl, fun _ => rfl⟩
  obtain ⟨dev, reached, _, agrees⟩ := Runs.run_exists progress start valid
  exact ⟨dev, reached, agrees.slot, fun i => ⟨agrees.x i, agrees.y i⟩⟩

/-- Two fingers of a trackpad, the second identified by 13. -/
theorem slots_read_back_two_fingers :
    ∃ dev, Runs.run hidValueCallback (deviceAdded pageDigitizer.toInt32 0)
        [⟨pageDigitizer, usageContactIdentifier, 1⟩, ⟨pageDigitizer, usageX, 40⟩,
          ⟨pageDigitizer, usageContactIdentifier, 13⟩, ⟨pageDigitizer, usageY, 70⟩] = some dev ∧
      (dev.written.foldl SlotReader.read {}).slot = dev.mtSlot.toInt ∧
      ∀ i : Fin 10, (dev.written.foldl SlotReader.read {}).x i = dev.mtX i ∧
        (dev.written.foldl SlotReader.read {}).y i = dev.mtY i :=
  slots_read_back pageDigitizer.toInt32 0 _ (by decide)

end EvdevDevice
end LunaOS.Evdev
