import Mathlib.Logic.Function.Basic

/-!
The HID bridge `evdev-bridge/darwin-evdev-bridge.c`: one device, the values that
`hid_value_callback` is given for it and the events it writes to the device's
pipe. The event codes are those of `linux-input-event-codes.h`. An access to the
contact arrays outside their bounds is undefined; the callback then has no result.
Every write to the pipe succeeds. Left out: the time stamps, the product id, the
pipe descriptors and `/dev/input` nodes, and `mt_contact`, which nothing reads.
-/
namespace LunaOS.Evdev

structure InputEvent where
  type : UInt16
  code : UInt16
  value : Int32
  deriving DecidableEq

def evSyn : UInt16 := 0x00
def evKey : UInt16 := 0x01
def evRel : UInt16 := 0x02
def evAbs : UInt16 := 0x03

def relX : UInt16 := 0x00
def relY : UInt16 := 0x01
def relWheel : UInt16 := 0x08

def absX : UInt16 := 0x00
def absY : UInt16 := 0x01
def absMtSlot : UInt16 := 0x2f
def absMtPositionX : UInt16 := 0x35
def absMtPositionY : UInt16 := 0x36

def btnLeft : UInt16 := 0x110
def btnRight : UInt16 := 0x111
def btnMiddle : UInt16 := 0x112
def btnTouch : UInt16 := 0x14a

def keyUnknown : UInt16 := 0
def keyLeftMeta : UInt16 := 125

/-! Usage pages and usages of the HID tables. -/

def pageGenericDesktop : UInt32 := 0x01
def pageKeyboardOrKeypad : UInt32 := 0x07
def pageButton : UInt32 := 0x09
def pageDigitizer : UInt32 := 0x0D
def pageAppleVendorKeyboard : UInt32 := 0xFF01

def usagePointer : UInt32 := 0x01
def usageMouse : UInt32 := 0x02
def usageKeyboard : UInt32 := 0x06
def usageX : UInt32 := 0x30
def usageY : UInt32 := 0x31
def usageWheel : UInt32 := 0x38
def usageTipSwitch : UInt32 := 0x42
def usageContactIdentifier : UInt32 := 0x51
def usageGlobe : UInt32 := 0x0003

/-- A value of one element; `val` is a `CFIndex`. -/
structure HidValue where
  usagePage : UInt32
  usage : UInt32
  val : Int64

/-- A device, with the events written to its pipe so far. -/
structure EvdevDevice where
  isKeyboard : Bool
  isPointer : Bool
  isTouch : Bool
  mtX : Fin 10 → Int32 := fun _ => 0
  mtY : Fin 10 → Int32 := fun _ => 0
  mtSlot : Int32 := 0
  written : List InputEvent := []

/-- `hid_keyboard_map`, without the entries that are zero. -/
def hidKeyboardMap : List (UInt32 × UInt16) :=
  [(0x04, 30), (0x05, 48), (0x06, 46), (0x07, 32),
    (0x08, 18), (0x09, 33), (0x0A, 34), (0x0B, 35),
    (0x0C, 23), (0x0D, 36), (0x0E, 37), (0x0F, 38),
    (0x10, 50), (0x11, 49), (0x12, 24), (0x13, 25),
    (0x14, 16), (0x15, 19), (0x16, 31), (0x17, 20),
    (0x18, 22), (0x19, 47), (0x1A, 17), (0x1B, 45),
    (0x1C, 21), (0x1D, 44),
    (0x1E, 2), (0x1F, 3), (0x20, 4), (0x21, 5),
    (0x22, 6), (0x23, 7), (0x24, 8), (0x25, 9),
    (0x26, 10), (0x27, 11),
    (0x28, 28), (0x29, 1), (0x2A, 14),
    (0x2B, 15), (0x2C, 57), (0x2D, 12),
    (0x2E, 13), (0x2F, 26), (0x30, 27),
    (0x31, 43), (0x33, 39), (0x34, 40),
    (0x35, 41), (0x36, 51), (0x37, 52),
    (0x38, 53), (0x39, 58),
    (0x3A, 59), (0x3B, 60), (0x3C, 61), (0x3D, 62),
    (0x3E, 63), (0x3F, 64), (0x40, 65), (0x41, 66),
    (0x42, 67), (0x43, 68), (0x44, 87), (0x45, 88),
    (0x4F, 106), (0x50, 105), (0x51, 108),
    (0x52, 103),
    (0x4A, 102), (0x4D, 107),
    (0x4B, 104), (0x4E, 109),
    (0x4C, 111),
    (0xE0, 29), (0xE1, 42), (0xE2, 56),
    (0xE3, 125),
    (0xE4, 97), (0xE5, 54), (0xE6, 100),
    (0xE7, 126)]

def hidToLinuxKey (usage : UInt32) : UInt16 :=
  if usage < 256 then (hidKeyboardMap.lookup usage).getD 0 else keyUnknown

def pressed (val : Int64) : Int32 :=
  if val = 0 then 0 else 1

namespace EvdevDevice

def writeEvent (dev : EvdevDevice) (type code : UInt16) (value : Int32) : EvdevDevice :=
  { dev with written := dev.written ++ [⟨type, code, value⟩] }

def syncEvent (dev : EvdevDevice) : EvdevDevice :=
  dev.writeEvent evSyn 0 0

/-! The branches of `hid_value_callback`, in their order. -/

def keyboard (dev : EvdevDevice) (v : HidValue) : EvdevDevice :=
  if v.usagePage = pageKeyboardOrKeypad ∧ dev.isKeyboard = true then
    let key := hidToLinuxKey v.usage
    if key ≠ keyUnknown then (dev.writeEvent evKey key (pressed v.val)).syncEvent else dev
  else dev

def globe (dev : EvdevDevice) (v : HidValue) : EvdevDevice :=
  if v.usagePage = pageAppleVendorKeyboard ∧ v.usage = usageGlobe then
    (dev.writeEvent evKey keyLeftMeta (pressed v.val)).syncEvent
  else dev

def pointer (dev : EvdevDevice) (v : HidValue) : EvdevDevice :=
  if v.usagePage = pageGenericDesktop ∧ dev.isPointer = true then
    if v.usage = usageX then dev.writeEvent evRel relX v.val.toInt32
    else if v.usage = usageY then dev.writeEvent evRel relY v.val.toInt32
    else if v.usage = usageWheel then dev.writeEvent evRel relWheel v.val.toInt32
    else dev
  else dev

def button (dev : EvdevDevice) (v : HidValue) : EvdevDevice :=
  if v.usagePage = pageButton ∧ dev.isPointer = true then
    let btn := if v.usage = 1 then btnLeft else if v.usage = 2 then btnRight else btnMiddle
    (dev.writeEvent evKey btn (pressed v.val)).syncEvent
  else dev

/-- `a[slot] = x`, undefined outside the array. -/
def mtWrite (a : Fin 10 → Int32) (slot x : Int32) : Option (Fin 10 → Int32) :=
  if h : 0 ≤ slot.toInt ∧ slot.toInt < 10 then
    some (Function.update a ⟨slot.toInt.toNat, by omega⟩ x)
  else none

/-- The switch of the touch branch. -/
def contact (dev : EvdevDevice) (v : HidValue) : Option EvdevDevice :=
  if v.usage = usageTipSwitch then some (dev.writeEvent evKey btnTouch (pressed v.val))
  else if v.usage = usageX then
    (mtWrite dev.mtX dev.mtSlot v.val.toInt32).map fun xs =>
      ({ dev with mtX := xs }.writeEvent evAbs absMtPositionX v.val.toInt32).writeEvent
        evAbs absX v.val.toInt32
  else if v.usage = usageY then
    (mtWrite dev.mtY dev.mtSlot v.val.toInt32).map fun ys =>
      ({ dev with mtY := ys }.writeEvent evAbs absMtPositionY v.val.toInt32).writeEvent
        evAbs absY v.val.toInt32
  else if v.usage = usageContactIdentifier then
    let slot := v.val.toInt32 % 10
    some ({ dev with mtSlot := slot }.writeEvent evAbs absMtSlot slot)
  else some dev

def touch (dev : EvdevDevice) (v : HidValue) : Option EvdevDevice :=
  if v.usagePage = pageDigitizer ∧ dev.isTouch = true then (dev.contact v).map syncEvent
  else some dev

def hidValueCallback (dev : EvdevDevice) (v : HidValue) : Option EvdevDevice :=
  ((((dev.keyboard v).globe v).pointer v).button v).touch v

/-- The device that `device_added` registers, from its primary usage page and
usage. -/
def deviceAdded (up u : Int32) : EvdevDevice :=
  { isKeyboard := up == pageGenericDesktop.toInt32 && u == usageKeyboard.toInt32
    isPointer := up == pageGenericDesktop.toInt32 &&
      (u == usageMouse.toInt32 || u == usagePointer.toInt32)
    isTouch := up == pageDigitizer.toInt32 }

end EvdevDevice
end LunaOS.Evdev
