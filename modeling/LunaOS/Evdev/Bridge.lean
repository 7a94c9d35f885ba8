import Mathlib.Data.List.Induction
import LunaOS.Evdev.Stream
import LunaOS.Lib.Codecs

/-!
The bridge as a whole. One thread runs `device_added` and `hid_value_callback`, which writes
each event as a `struct input_event` to the pipe of its device and waits in `write` while the
pipe is full; the bytes enter the pipe in whatever portions the kernel takes them. Readers
take any number of bytes at any time. No write fails: the bridge holds both ends of every
pipe. Left out: the product id, whose four bytes `device_added` overwrites where they leave
the field, the `/dev/input` path and the log.
-/
namespace LunaOS.Evdev

structure Timeval where
  sec : Int64
  usec : Int32

def timeval : Codec Timeval :=
  (Codec.i64.member Codec.i32).close.iso (fun t => (t.sec, t.usec)) (fun p => ⟨p.1, p.2⟩)
    fun _ => rfl

/-- An event with its time. -/
structure Record where
  time : Timeval
  event : InputEvent

def inputEvent : Codec Record :=
  (((timeval.member Codec.u16).member Codec.u16).member Codec.i32).close.iso
    (fun r => (((r.time, r.event.type), r.event.code), r.event.value))
    (fun p => ⟨p.1.1.1, p.1.1.2, p.1.2, p.2⟩) fun _ => rfl

theorem inputEvent_size : inputEvent.size = 24 := rfl

theorem inputEvent_fits (r : Record) : inputEvent.Fits r :=
  ⟨⟨⟨⟨Codec.i64_fits _, Codec.i32_fits _⟩, Codec.u16_fits _⟩, Codec.u16_fits _⟩,
    Codec.i32_fits _⟩

def maxDevices : Nat := 32

/-- An entry of `g_devices` and its pipe, with the bytes that readers have taken from it. -/
structure Node where
  dev : EvdevDevice
  pipe : List UInt8 := []
  taken : List UInt8 := []

/-- The devices below `g_device_count`, and where the thread is: in a callback of the device
`slot`, with `rest` of a `write` to its pipe and the events `todo` still to be written. -/
structure Bridge where
  nodes : List Node := []
  slot : Nat := 0
  rest : List UInt8 := []
  todo : List InputEvent := []

namespace Bridge

inductive Action
  /-- `device_added`, whose `pipe` may fail -/
  | added (up u : Int32) (piped : Bool)
  /-- `hid_value_callback` for a device -/
  | value (slot : Nat) (v : HidValue)
  /-- `write_event` calls `write`; the gaps of its `ev` hold `junk` -/
  | write (time : Timeval) (junk : Nat → UInt8)
  /-- the kernel moves `n` bytes of the `write` into the pipe -/
  | transfer (n : Nat)
  /-- a reader takes `n` bytes -/
  | read (slot n : Nat)

def Idle (b : Bridge) : Prop :=
  b.rest = [] ∧ b.todo = []

instance (b : Bridge) : Decidable b.Idle :=
  inferInstanceAs (Decidable (_ ∧ _))

def step (capacity : Nat) (b : Bridge) : Action → Option Bridge
  | .added up u piped =>
      if b.Idle then
        if maxDevices ≤ b.nodes.length ∨ piped = false then some b
        else some { b with nodes := b.nodes ++ [{ dev := .deviceAdded up u }] }
      else none
  | .value i v =>
      if b.Idle then
        b.nodes[i]?.bind fun node => (node.dev.hidValueCallback v).map fun dev =>
          { b with
            nodes := b.nodes.set i { node with dev := dev }
            slot := i
            todo := dev.written.drop node.dev.written.length }
      else none
  | .write time junk =>
      match b.rest, b.todo with
      | [], event :: todo =>
          some { b with rest := inputEvent.encode junk ⟨time, event⟩, todo := todo }
      | _, _ => none
  | .transfer n =>
      b.nodes[b.slot]?.bind fun node =>
        if 0 < n ∧ n ≤ b.rest.length ∧ node.pipe.length + n ≤ capacity then
          some { b with
            nodes := b.nodes.set b.slot { node with pipe := node.pipe ++ b.rest.take n }
            rest := b.rest.drop n }
        else none
  | .read i n =>
      b.nodes[i]?.bind fun node =>
        if 0 < n ∧ n ≤ node.pipe.length then
          some { b with
            nodes := b.nodes.set i
              { node with pipe := node.pipe.drop n, taken := node.taken ++ node.pipe.take n } }
        else none

/-- The primary usage page and usage of a device that is added and has its pipe. -/
def Action.adds : Action → Option (Int32 × Int32)
  | .added up u true => some (up, u)
  | _ => none

/-- The value that an action gives to the callback of a device. -/
def Action.gives (i : Nat) : Action → Option HidValue
  | .value j v => if j = i then some v else none
  | _ => none

/-- What the actions registered, in the order of `g_devices`. -/
def registered (acts : List Action) : List (Int32 × Int32) :=
  (acts.filterMap Action.adds).take maxDevices

def valuesOf (i : Nat) (acts : List Action) : List HidValue :=
  acts.filterMap (Action.gives i)

end Bridge

/-! What one callback writes. -/

namespace EvdevDevice

def Writes (dev dev' : EvdevDevice) (n : Nat) : Prop :=
  ∃ out, dev'.written = dev.written ++ out ∧ out.length ≤ n

variable {dev dev' dev'' : EvdevDevice} {v : HidValue} {m n : Nat}

theorem writes_nothing (dev : EvdevDevice) (n : Nat) : Writes dev dev n :=
  ⟨[], (List.append_nil _).symm, Nat.zero_le n⟩

theorem writes_writeEvent (dev : EvdevDevice) (type code : UInt16) (value : Int32) :
    Writes dev (dev.writeEvent type code value) 1 :=
  ⟨_, rfl, le_rfl⟩

theorem Writes.trans (h : Writes dev dev' m) (h' : Writes dev' dev'' n) :
    Writes dev dev'' (m + n) := by
  obtain ⟨out, written, length⟩ := h
  obtain ⟨out', written', length'⟩ := h'
  refine ⟨out ++ out', by rw [written', written, List.append_assoc], ?_⟩
  rw [List.length_append]
  exact Nat.add_le_add length length'

theorem Writes.mono (h : Writes dev dev' m) (le : m ≤ n) : Writes dev dev' n := by
  obtain ⟨out, written, length⟩ := h
  exact ⟨out, written, length.trans le⟩

theorem Writes.sync (h : Writes dev dev' m) : Writes dev dev'.syncEvent (m + 1) :=
  h.trans (writes_writeEvent dev' evSyn 0 0)

/-- The events that a branch can write for a page. -/
def share (v : HidValue) (page : UInt32) (n : Nat) : Nat :=
  if v.usagePage = page then n else 0

theorem writes_page {page : UInt32} (elsewhere : v.usagePage ≠ page → dev' = dev)
    (there : v.usagePage = page → Writes dev dev' n) : Writes dev dev' (share v page n) := by
  unfold share
  split
  · rename_i here
    exact there here
  · rename_i other
    rw [elsewhere other]
    exact writes_nothing dev 0

theorem keyboard_writes (dev : EvdevDevice) (v : HidValue) :
    Writes dev (dev.keyboard v) (share v pageKeyboardOrKeypad 2) := by
  refine writes_page (fun other => if_neg fun h => other h.1) fun _ => ?_
  unfold keyboard
  split
  · dsimp only
    split
    · exact (writes_writeEvent dev _ _ _).sync
    · exact writes_nothing dev 2
  · exact writes_nothing dev 2

theorem globe_writes (dev : EvdevDevice) (v : HidValue) :
    Writes dev (dev.globe v) (share v pageAppleVendorKeyboard 2) := by
  refine writes_page (fun other => if_neg fun h => other h.1) fun _ => ?_
  unfold globe
  split
  · exact (writes_writeEvent dev _ _ _).sync
  · exact writes_nothing dev 2

theorem pointer_writes (dev : EvdevDevice) (v : HidValue) :
    Writes dev (dev.pointer v) (share v pageGenericDesktop 1) := by
  refine writes_page (fun other => if_neg fun h => other h.1) fun _ => ?_
  cases pointer_cases dev v with
  | inl moves =>
      obtain ⟨code, writes⟩ := moves.2.2
      rw [writes]
      exact writes_writeEvent dev _ _ _
  | inr rests =>
      rw [rests.2]
      exact writes_nothing dev 1

theorem button_writes (dev : EvdevDevice) (v : HidValue) :
    Writes dev (dev.button v) (share v pageButton 2) := by
  refine writes_page (fun other => if_neg fun h => other h.1) fun _ => ?_
  unfold button
  split
  · exact (writes_writeEvent dev _ _ _).sync
  · exact writes_nothing dev 2

theorem contact_writes (taken : dev.contact v = some dev') : Writes dev dev' 2 := by
  unfold contact at taken
  split at taken
  · obtain rfl := Option.some.inj taken
    exact (writes_writeEvent dev _ _ _).mono (by decide)
  · split at taken
    · obtain ⟨xs, _, rfl⟩ := Option.map_eq_some_iff.mp taken
      exact ⟨_, List.append_assoc .., le_rfl⟩
    · split at taken
      · obtain ⟨ys, _, rfl⟩ := Option.map_eq_some_iff.mp taken
        exact ⟨_, List.append_assoc .., le_rfl⟩
      · split at taken
        · obtain rfl := Option.some.inj taken
          exact ⟨_, rfl, Nat.le_succ 1⟩
        · obtain rfl := Option.some.inj taken
          exact writes_nothing dev 2

theorem touch_writes (taken : dev.touch v = some dev') :
    Writes dev dev' (share v pageDigitizer 3) := by
  unfold touch at taken
  split at taken
  · rename_i here
    obtain ⟨mid, moved, rfl⟩ := Option.map_eq_some_iff.mp taken
    rw [share, if_pos here.1]
    exact (contact_writes moved).sync
  · obtain rfl := Option.some.inj taken
    exact writes_nothing dev _

/-- A value meets the branch of one page only, which writes three events at most. -/
theorem callback_writes (taken : dev.hidValueCallback v = some dev') : Writes dev dev' 3 := by
  have all := (keyboard_writes dev v).trans ((globe_writes _ v).trans
    ((pointer_writes _ v).trans ((button_writes _ v).trans (touch_writes taken))))
  refine all.mono ?_
  unfold share
  by_cases keys : v.usagePage = pageKeyboardOrKeypad
  · simp +decide only [keys, if_true, if_false]
  by_cases vendor : v.usagePage = pageAppleVendorKeyboard
  · simp +decide only [vendor, if_true, if_false]
  by_cases desktop : v.usagePage = pageGenericDesktop
  · simp +decide only [desktop, if_true, if_false]
  by_cases buttons : v.usagePage = pageButton
  · simp +decide only [buttons, if_true, if_false]
  simp only [keys, vendor, desktop, buttons, if_false]
  split <;> decide

end EvdevDevice
namespace Bridge
open EvdevDevice

variable {capacity : Nat} {b b' : Bridge} {node : Node} {i : Nat}

/-! What the actions can do. -/

theorem step_added {up u : Int32} {piped : Bool}
    (taken : b.step capacity (.added up u piped) = some b') :
    b.Idle ∧ (b' = b ∧ (maxDevices ≤ b.nodes.length ∨ piped = false) ∨
      b' = { b with nodes := b.nodes ++ [{ dev := .deviceAdded up u }] } ∧
        b.nodes.length < maxDevices ∧ piped = true) := by
  simp only [step, Option.ite_none_right_eq_some] at taken
  obtain ⟨idle, rest⟩ := taken
  refine ⟨idle, ?_⟩
  split at rest
  · rename_i kept
    exact Or.inl ⟨(Option.some.inj rest).symm, kept⟩
  · rename_i room
    rw [not_or, not_le, Bool.not_eq_false] at room
    exact Or.inr ⟨(Option.some.inj rest).symm, room⟩

theorem step_value {v : HidValue} (taken : b.step capacity (.value i v) = some b') :
    b.Idle ∧ ∃ node dev, b.nodes[i]? = some node ∧ node.dev.hidValueCallback v = some dev ∧
      b' = { b with
        nodes := b.nodes.set i { node with dev := dev }
        slot := i
        todo := dev.written.drop node.dev.written.length } := by
  simp only [step, Option.ite_none_right_eq_some] at taken
  obtain ⟨idle, rest⟩ := taken
  obtain ⟨node, here, rest⟩ := Option.bind_eq_some_iff.mp rest
  obtain ⟨dev, called, done⟩ := Option.map_eq_some_iff.mp rest
  exact ⟨idle, node, dev, here, called, done.symm⟩

theorem step_write {time : Timeval} {junk : Nat → UInt8}
    (taken : b.step capacity (.write time junk) = some b') :
    b.rest = [] ∧ ∃ event todo, b.todo = event :: todo ∧
      b' = { b with rest := inputEvent.encode junk ⟨time, event⟩, todo := todo } := by
  simp only [step] at taken
  split at taken
  · rename_i event todo rest more
    exact ⟨rest, event, todo, more, (Option.some.inj taken).symm⟩
  · cases taken

theorem step_transfer {n : Nat} (taken : b.step capacity (.transfer n) = some b') :
    0 < n ∧ n ≤ b.rest.length ∧ ∃ node, b.nodes[b.slot]? = some node ∧
      node.pipe.length + n ≤ capacity ∧
      b' = { b with
        nodes := b.nodes.set b.slot { node with pipe := node.pipe ++ b.rest.take n }
        rest := b.rest.drop n } := by
  obtain ⟨node, here, rest⟩ := Option.bind_eq_some_iff.mp taken
  obtain ⟨⟨pos, most, room⟩, done⟩ := Option.ite_none_right_eq_some.mp rest
  exact ⟨pos, most, node, here, room, (Option.some.inj done).symm⟩

theorem step_read {n : Nat} (taken : b.step capacity (.read i n) = some b') :
    ∃ node, b.nodes[i]? = some node ∧ n ≤ node.pipe.length ∧
      b' = { b with
        nodes := b.nodes.set i
          { node with pipe := node.pipe.drop n, taken := node.taken ++ node.pipe.take n } } := by
  obtain ⟨node, here, rest⟩ := Option.bind_eq_some_iff.mp taken
  obtain ⟨⟨_, most⟩, done⟩ := Option.ite_none_right_eq_some.mp rest
  exact ⟨node, here, most, (Option.some.inj done).symm⟩

/-- The part of a `write` that is on its way to the pipe of a device. -/
def restOf (b : Bridge) (i : Nat) : List UInt8 :=
  if i = b.slot then b.rest else []

/-- The events of a device that its callback has still to write. -/
def todoOf (b : Bridge) (i : Nat) : List InputEvent :=
  if i = b.slot then b.todo else []

/-- What was read, what is in the pipe and what is on its way are records, one for each
event of the device that is not still to be written. -/
def Flows (b : Bridge) (i : Nat) (node : Node) : Prop :=
  ∃ records, inputEvent.Encodes (node.taken ++ node.pipe ++ b.restOf i) records ∧
    records.map Record.event ++ b.todoOf i = node.dev.written

structure Sound (capacity : Nat) (b : Bridge) : Prop where
  flows : ∀ (i : Nat) (node : Node), b.nodes[i]? = some node → Flows b i node
  bounded : ∀ (i : Nat) (node : Node), b.nodes[i]? = some node → node.pipe.length ≤ capacity
  placed : ¬ b.Idle → b.slot < b.nodes.length

theorem Idle.restOf (idle : b.Idle) (i : Nat) : b.restOf i = [] := by
  rw [Bridge.restOf, idle.1, ite_self]

theorem Idle.todoOf (idle : b.Idle) (i : Nat) : b.todoOf i = [] := by
  rw [Bridge.todoOf, idle.2, ite_self]

theorem set_cases {nodes : List Node} {new : Node} {j : Nat}
    (here : (nodes.set i new)[j]? = some node) :
    j = i ∧ node = new ∨ j ≠ i ∧ nodes[j]? = some node := by
  rw [List.getElem?_set] at here
  split at here
  · rename_i same
    obtain ⟨_, new⟩ := Option.ite_none_right_eq_some.mp here
    exact Or.inl ⟨same.symm, (Option.some.inj new).symm⟩
  · rename_i other
    exact Or.inr ⟨fun same => other same.symm, here⟩

theorem Sound.added {up u : Int32} {piped : Bool} (h : Sound capacity b)
    (taken : b.step capacity (.added up u piped) = some b') : Sound capacity b' := by
  obtain ⟨idle, ⟨rfl, _⟩ | ⟨rfl, _⟩⟩ := step_added taken
  · exact h
  have here (i : Nat) (node : Node)
      (there : (b.nodes ++ [{ dev := .deviceAdded up u }])[i]? = some node) :
      b.nodes[i]? = some node ∨ node = { dev := .deviceAdded up u } := by
    rw [List.getElem?_append] at there
    split at there
    · exact Or.inl there
    · exact Or.inr (List.mem_singleton.mp (List.mem_of_getElem? there))
  refine ⟨?_, ?_, fun busy => absurd idle busy⟩
  · intro i node there
    cases here i node there with
    | inl old => exact h.flows i node old
    | inr new =>
        have still : Idle { b with nodes := b.nodes ++ [{ dev := .deviceAdded up u }] } := idle
        subst new
        refine ⟨[], ?_, by rw [still.todoOf]; rfl⟩
        rw [still.restOf]
        exact .nil
  · intro i node there
    cases here i node there with
    | inl old => exact h.bounded i node old
    | inr new => exact new ▸ Nat.zero_le _

theorem Sound.value {v : HidValue} (h : Sound capacity b)
    (taken : b.step capacity (.value i v) = some b') : Sound capacity b' := by
  obtain ⟨idle, node, dev, here, called, rfl⟩ := step_value taken
  obtain ⟨out, written, _⟩ := callback_writes called
  refine ⟨?_, ?_, fun _ => ?_⟩
  · intro j node' there
    cases set_cases there with
    | inl same =>
        obtain ⟨rfl, rfl⟩ := same
        obtain ⟨records, encodes, events⟩ := h.flows j node here
        rw [idle.restOf] at encodes
        rw [idle.todoOf, List.append_nil] at events
        refine ⟨records, ?_, ?_⟩
        · rw [restOf, idle.1, ite_self]
          exact encodes
        · rw [todoOf, if_pos rfl, written, List.drop_left, events]
    | inr other =>
        obtain ⟨records, encodes, events⟩ := h.flows j node' other.2
        rw [idle.restOf] at encodes
        rw [idle.todoOf] at events
        refine ⟨records, ?_, ?_⟩
        · rw [restOf, if_neg other.1]
          exact encodes
        · rw [todoOf, if_neg other.1]
          exact events
  · intro j node' there
    cases set_cases there with
    | inl same =>
        obtain ⟨rfl, rfl⟩ := same
        exact h.bounded j node here
    | inr other => exact h.bounded j node' other.2
  · rw [List.length_set]
    exact (List.getElem?_eq_some_iff.mp here).1

theorem Sound.write {time : Timeval} {junk : Nat → UInt8} (h : Sound capacity b)
    (taken : b.step capacity (.write time junk) = some b') : Sound capacity b' := by
  obtain ⟨none, event, todo, more, rfl⟩ := step_write taken
  refine ⟨?_, h.bounded, fun _ => h.placed fun idle => ?_⟩
  · intro i node here
    obtain ⟨records, encodes, events⟩ := h.flows i node here
    by_cases same : i = b.slot
    · rw [restOf, if_pos same, none, List.append_nil] at encodes
      rw [todoOf, if_pos same, more] at events
      refine ⟨records ++ [⟨time, event⟩], ?_, ?_⟩
      · rw [restOf, if_pos same]
        exact encodes.concat junk _ (inputEvent_fits _)
      · rw [todoOf, if_pos same, List.map_append, List.append_assoc]
        exact events
    · rw [restOf, if_neg same] at encodes
      rw [todoOf, if_neg same] at events
      refine ⟨records, ?_, ?_⟩
      · rw [restOf, if_neg same]
        exact encodes
      · rw [todoOf, if_neg same]
        exact events
  · exact absurd (more.symm.trans idle.2) nofun

theorem Sound.transfer {n : Nat} (h : Sound capacity b)
    (taken : b.step capacity (.transfer n) = some b') : Sound capacity b' := by
  obtain ⟨pos, most, node, here, room, rfl⟩ := step_transfer taken
  refine ⟨?_, ?_, fun _ => ?_⟩
  · intro j node' there
    cases set_cases there with
    | inl same =>
        obtain ⟨rfl, rfl⟩ := same
        obtain ⟨records, encodes, events⟩ := h.flows b.slot node here
        refine ⟨records, ?_, events⟩
        rw [restOf, if_pos rfl] at encodes ⊢
        rw [List.append_assoc node.taken, List.append_assoc node.pipe, List.take_append_drop,
          ← List.append_assoc]
        exact encodes
    | inr other =>
        obtain ⟨records, encodes, events⟩ := h.flows j node' other.2
        refine ⟨records, ?_, events⟩
        rw [restOf, if_neg other.1] at encodes ⊢
        exact encodes
  · intro j node' there
    cases set_cases there with
    | inl same =>
        obtain ⟨rfl, rfl⟩ := same
        rw [List.length_append, List.length_take_of_le most]
        exact room
    | inr other => exact h.bounded j node' other.2
  · rw [List.length_set]
    exact (List.getElem?_eq_some_iff.mp here).1

theorem Sound.read {n : Nat} (h : Sound capacity b)
    (taken : b.step capacity (.read i n) = some b') : Sound capacity b' := by
  obtain ⟨node, here, most, rfl⟩ := step_read taken
  refine ⟨?_, ?_, fun busy => ?_⟩
  · intro j node' there
    cases set_cases there with
    | inl same =>
        obtain ⟨rfl, rfl⟩ := same
        obtain ⟨records, encodes, events⟩ := h.flows j node here
        refine ⟨records, ?_, events⟩
        rw [List.append_assoc node.taken, List.take_append_drop]
        exact encodes
    | inr other => exact h.flows j node' other.2
  · intro j node' there
    cases set_cases there with
    | inl same =>
        obtain ⟨rfl, rfl⟩ := same
        rw [List.length_drop]
        exact (Nat.sub_le _ _).trans (h.bounded j node here)
    | inr other => exact h.bounded j node' other.2
  · rw [List.length_set]
    exact h.placed busy

theorem sound_step {a : Action} (h : Sound capacity b) (taken : b.step capacity a = some b') :
    Sound capacity b' := by
  cases a with
  | added up u piped => exact h.added taken
  | value i v => exact h.value taken
  | write time junk => exact h.write taken
  | transfer n => exact h.transfer taken
  | read i n => exact h.read taken

theorem sound_run {acts : List Action} (ran : Runs.run (step capacity) {} acts = some b) :
    Sound capacity b := by
  have start : Sound capacity {} := ⟨nofun, nofun, fun busy => absurd ⟨rfl, rfl⟩ busy⟩
  exact Runs.run_invariant (fun _ _ _ h taken => sound_step h taken) start ran

/-- The devices are those registered, each where the values given to it have left it. -/
structure Told (acts : List Action) (b : Bridge) : Prop where
  count : b.nodes.length = (registered acts).length
  devices : ∀ (i : Nat) (node : Node), b.nodes[i]? = some node →
    ∃ up u, (registered acts)[i]? = some (up, u) ∧
      Runs.run hidValueCallback (deviceAdded up u) (valuesOf i acts) = some node.dev
  later : ∀ i, b.nodes.length ≤ i → valuesOf i acts = []

variable {acts : List Action}

/-- An action that registers nothing and gives no value. -/
def Action.Internal : Action → Prop
  | .added _ _ _ | .value _ _ => False
  | .write _ _ | .transfer _ | .read _ _ => True

theorem registered_append {a : Action} (none : a.adds = none) :
    registered (acts ++ [a]) = registered acts := by
  rw [registered, List.filterMap_append, List.filterMap_cons_none none, List.filterMap_nil,
    List.append_nil, registered]

theorem valuesOf_append {a : Action} (none : a.gives i = none) :
    valuesOf i (acts ++ [a]) = valuesOf i acts := by
  rw [valuesOf, List.filterMap_append, List.filterMap_cons_none none, List.filterMap_nil,
    List.append_nil, valuesOf]

theorem valuesOf_append_other {j : Nat} (other : j ≠ i) (v : HidValue) :
    valuesOf i (acts ++ [.value j v]) = valuesOf i acts :=
  valuesOf_append (if_neg other)

theorem valuesOf_append_value (v : HidValue) :
    valuesOf i (acts ++ [.value i v]) = valuesOf i acts ++ [v] := by
  have given : (Action.value i v).gives i = some v := if_pos rfl
  rw [valuesOf, List.filterMap_append, List.filterMap_cons_some given,
    List.filterMap_nil, valuesOf]

/-- What an internal action leaves of a device. -/
theorem step_internal {a : Action} (internal : a.Internal)
    (taken : b.step capacity a = some b') (here : b.nodes[i]? = some node) :
    ∃ node', b'.nodes[i]? = some node' ∧ node'.dev = node.dev ∧
      node.taken.length ≤ node'.taken.length ∧
      ((∀ n, a ≠ .read i n) → node'.taken = node.taken) := by
  have inside := (List.getElem?_eq_some_iff.mp here).1
  cases a with
  | added up u piped => exact internal.elim
  | value j v => exact internal.elim
  | write time junk =>
      obtain ⟨_, _, _, _, rfl⟩ := step_write taken
      exact ⟨node, here, rfl, le_rfl, fun _ => rfl⟩
  | transfer n =>
      obtain ⟨_, _, old, there, _, rfl⟩ := step_transfer taken
      by_cases same : b.slot = i
      · rw [same] at there ⊢
        obtain rfl := Option.some.inj (there.symm.trans here)
        exact ⟨_, List.getElem?_set_self inside, rfl, le_rfl, fun _ => rfl⟩
      · exact ⟨node, (List.getElem?_set_ne same).trans here, rfl, le_rfl, fun _ => rfl⟩
  | read j n =>
      obtain ⟨old, there, _, rfl⟩ := step_read taken
      by_cases same : j = i
      · rw [same] at there ⊢
        obtain rfl := Option.some.inj (there.symm.trans here)
        refine ⟨_, List.getElem?_set_self inside, rfl, ?_, fun unread => absurd rfl (unread n)⟩
        rw [List.length_append]
        exact Nat.le_add_right _ _
      · exact ⟨node, (List.getElem?_set_ne same).trans here, rfl, le_rfl, fun _ => rfl⟩

theorem internal_length {a : Action} (internal : a.Internal)
    (taken : b.step capacity a = some b') : b'.nodes.length = b.nodes.length := by
  cases a with
  | added up u piped => exact internal.elim
  | value j v => exact internal.elim
  | write time junk =>
      obtain ⟨_, _, _, _, rfl⟩ := step_write taken
      rfl
  | transfer n =>
      obtain ⟨_, _, _, _, _, rfl⟩ := step_transfer taken
      exact List.length_set
  | read j n =>
      obtain ⟨_, _, _, rfl⟩ := step_read taken
      exact List.length_set

/-- A device after an internal action is the one before it. -/
theorem before_internal {a : Action} (internal : a.Internal)
    (taken : b.step capacity a = some b') {node' : Node} (there : b'.nodes[i]? = some node') :
    ∃ node, b.nodes[i]? = some node ∧ node'.dev = node.dev ∧
      node.taken.length ≤ node'.taken.length := by
  have inside := (List.getElem?_eq_some_iff.mp there).1
  rw [internal_length internal taken] at inside
  have here := List.getElem?_eq_getElem inside
  obtain ⟨new, same, dev, grown, _⟩ := step_internal internal taken here
  obtain rfl := Option.some.inj (same.symm.trans there)
  exact ⟨_, here, dev, grown⟩

theorem Told.of_internal {a : Action} (h : Told acts b) (internal : a.Internal)
    (taken : b.step capacity a = some b') : Told (acts ++ [a]) b' := by
  have names : registered (acts ++ [a]) = registered acts := by
    refine registered_append ?_
    cases a with
    | added up u piped => exact internal.elim
    | _ => rfl
  have values (i : Nat) : valuesOf i (acts ++ [a]) = valuesOf i acts := by
    refine valuesOf_append ?_
    cases a with
    | value j v => exact internal.elim
    | _ => rfl
  have length := internal_length internal taken
  refine ⟨by rw [length, names, h.count], fun i node there => ?_, fun i beyond => ?_⟩
  · obtain ⟨old, here, dev, _⟩ := before_internal internal taken there
    rw [names, values, dev]
    exact h.devices i old here
  · rw [values]
    exact h.later i (length ▸ beyond)

theorem registered_append_full (full : maxDevices ≤ (registered acts).length) (a : Action) :
    registered (acts ++ [a]) = registered acts := by
  rw [registered, List.length_take, Nat.le_min] at full
  rw [registered, List.filterMap_append, List.take_append_of_le_length full.2, registered]

theorem registered_append_room (room : (registered acts).length < maxDevices) (up u : Int32) :
    registered (acts ++ [.added up u true]) = registered acts ++ [(up, u)] := by
  have few : (acts.filterMap Action.adds).length < maxDevices := by
    rw [registered, List.length_take, min_lt_iff] at room
    exact room.resolve_left (Nat.lt_irrefl _)
  have adds : (Action.added up u true).adds = some (up, u) := rfl
  rw [registered, registered, List.filterMap_append, List.filterMap_cons_some adds,
    List.filterMap_nil, List.take_of_length_le few.le, List.take_of_length_le]
  rw [List.length_append]
  exact few

theorem Told.added {up u : Int32} {piped : Bool} (h : Told acts b)
    (taken : b.step capacity (.added up u piped) = some b') :
    Told (acts ++ [.added up u piped]) b' := by
  have values (i : Nat) : valuesOf i (acts ++ [.added up u piped]) = valuesOf i acts :=
    valuesOf_append rfl
  obtain ⟨_, ⟨rfl, kept⟩ | ⟨rfl, room, rfl⟩⟩ := step_added taken
  · have names : registered (acts ++ [.added up u piped]) = registered acts := by
      cases kept with
      | inl full => exact registered_append_full (h.count ▸ full) _
      | inr failed => exact registered_append (by rw [failed]; rfl)
    refine ⟨by rw [names, h.count], fun i node here => ?_, fun i beyond => ?_⟩
    · rw [names, values]
      exact h.devices i node here
    · rw [values]
      exact h.later i beyond
  · have names := registered_append_room (h.count ▸ room) up u
    refine ⟨?_, fun i node here => ?_, fun i beyond => ?_⟩
    · rw [names, List.length_append, List.length_append, h.count]
      rfl
    · rw [names, values]
      by_cases old : i < b.nodes.length
      · rw [List.getElem?_append_left old] at here
        obtain ⟨up', u', name, told⟩ := h.devices i node here
        refine ⟨up', u', ?_, told⟩
        rw [List.getElem?_append_left (h.count ▸ old), name]
      · have last : i = b.nodes.length := by
          have inside := (List.getElem?_eq_some_iff.mp here).1
          rw [List.length_append, List.length_singleton] at inside
          omega
        rw [last, List.getElem?_concat_length] at here
        obtain rfl := Option.some.inj here
        refine ⟨up, u, ?_, ?_⟩
        · rw [last, h.count, List.getElem?_concat_length]
        · rw [h.later i last.ge]
          rfl
    · rw [values]
      rw [List.length_append] at beyond
      exact h.later i (Nat.le_of_add_right_le beyond)

theorem Told.value {j : Nat} {v : HidValue} (h : Told acts b)
    (taken : b.step capacity (.value j v) = some b') : Told (acts ++ [.value j v]) b' := by
  obtain ⟨_, node, dev, here, called, rfl⟩ := step_value taken
  have names : registered (acts ++ [.value j v]) = registered acts := registered_append rfl
  have inside := (List.getElem?_eq_some_iff.mp here).1
  refine ⟨by rw [names, List.length_set, h.count], fun i node' there => ?_, fun i beyond => ?_⟩
  · rw [names]
    cases set_cases there with
    | inl same =>
        obtain ⟨rfl, rfl⟩ := same
        obtain ⟨up, u, name, told⟩ := h.devices i node here
        refine ⟨up, u, name, ?_⟩
        rw [valuesOf_append_value, Runs.run_append, told, Option.bind_some, Runs.run_cons, called]
        rfl
    | inr other =>
        rw [valuesOf_append_other other.1.symm]
        exact h.devices i node' other.2
  · rw [List.length_set] at beyond
    rw [valuesOf_append_other (inside.trans_le beyond).ne]
    exact h.later i beyond

theorem told_run (ran : Runs.run (step capacity) {} acts = some b) : Told acts b := by
  induction acts using List.reverseRecOn generalizing b with
  | nil =>
      obtain rfl := Option.some.inj ran
      exact ⟨rfl, nofun, fun _ _ => rfl⟩
  | append_singleton acts a ih =>
      rw [Runs.run_append] at ran
      obtain ⟨before, reached, last⟩ := Option.bind_eq_some_iff.mp ran
      obtain ⟨after, taken, done⟩ := Option.bind_eq_some_iff.mp last
      obtain rfl := Option.some.inj done
      have h := ih reached
      cases a with
      | added up u piped => exact h.added taken
      | value i v => exact h.value taken
      | write time junk => exact h.of_internal trivial taken
      | transfer n => exact h.of_internal trivial taken
      | read i n => exact h.of_internal trivial taken

/-- Readers of a pipe get the events of its device, in order, whole and none lost: the
records that are complete in what was read are the first that the values given to this
device translate to, and all of them once the thread is idle and the pipe empty. -/
theorem events_delivered (ran : Runs.run (step capacity) {} acts = some b)
    (here : b.nodes[i]? = some node) :
    ∃ up u dev, (registered acts)[i]? = some (up, u) ∧
      Runs.run hidValueCallback (deviceAdded up u) (valuesOf i acts) = some dev ∧
      (inputEvent.readAll node.taken).map Record.event =
        dev.written.take (node.taken.length / 24) ∧
      (b.Idle → node.pipe = [] →
        (inputEvent.readAll node.taken).map Record.event = dev.written) := by
  obtain ⟨up, u, name, told⟩ := (told_run ran).devices i node here
  obtain ⟨records, encodes, events⟩ := (sound_run ran).flows i node here
  refine ⟨up, u, node.dev, name, told, ?_, fun idle empty => ?_⟩
  · have whole : node.taken.length / 24 ≤ records.length := by
      have total := encodes.length_eq
      rw [inputEvent_size, List.length_append, List.length_append] at total
      omega
    have front : (node.taken ++ node.pipe ++ b.restOf i).take node.taken.length = node.taken := by
      rw [List.append_assoc, List.take_left]
    have read := encodes.readAll_take (by decide) node.taken.length
    rw [front, inputEvent_size] at read
    rw [read, ← events, List.take_append_of_le_length (by rwa [List.length_map]), List.map_take]
  · rw [empty, idle.restOf, List.append_nil, List.append_nil] at encodes
    rw [idle.todoOf, List.append_nil] at events
    have none : ([] : List UInt8).length < inputEvent.size := by decide
    have read := encodes.readAll_append none
    rw [List.append_nil] at read
    rw [read, events]

/-- A keyboard and a mouse: the reader of the keyboard has one record and a part of the
next while the bridge is still in the callback. -/
def keyAndMotion : List Action :=
  [.added 1 6 true, .added 1 2 true, .value 1 ⟨pageGenericDesktop, usageX, 7⟩,
    .write ⟨1, 2⟩ fun _ => 0, .transfer 24, .value 0 ⟨pageKeyboardOrKeypad, 0x04, 1⟩,
    .write ⟨1, 3⟩ fun _ => 9, .transfer 10, .transfer 14, .write ⟨1, 3⟩ fun _ => 0,
    .transfer 5, .read 0 28]

theorem events_delivered_keyboard :
    ∃ b node, Runs.run (step 64) {} keyAndMotion = some b ∧ b.nodes[0]? = some node ∧
      ∃ up u dev, (registered keyAndMotion)[0]? = some (up, u) ∧
        Runs.run hidValueCallback (deviceAdded up u) (valuesOf 0 keyAndMotion) = some dev ∧
        (inputEvent.readAll node.taken).map Record.event =
          dev.written.take (node.taken.length / 24) ∧
        (b.Idle → node.pipe = [] →
          (inputEvent.readAll node.taken).map Record.event = dev.written) := by
  have ran : Runs.run (step 64) {} keyAndMotion = some _ := rfl
  exact ⟨_, _, ran, rfl, events_delivered ran rfl⟩

/-! A pipe that nobody reads. -/

theorem Flows.weight (h : Flows b i node) :
    node.taken.length + node.pipe.length + (b.restOf i).length + 24 * (b.todoOf i).length =
      24 * node.dev.written.length := by
  obtain ⟨records, encodes, events⟩ := h
  have total := encodes.length_eq
  rw [inputEvent_size, List.length_append, List.length_append] at total
  rw [← events, List.length_append, List.length_map, total]
  omega

/-- The device has more events than its pipe and its readers have room for. -/
def Overrun (capacity : Nat) (node : Node) : Prop :=
  capacity + node.taken.length < 24 * node.dev.written.length

theorem Overrun.busy (ahead : Overrun capacity node) (h : Sound capacity b)
    (here : b.nodes[i]? = some node) : ¬ b.Idle := by
  intro idle
  have weight := (h.flows i node here).weight
  have bounded := h.bounded i node here
  unfold Overrun at ahead
  rw [idle.restOf, idle.todoOf, List.length_nil, List.length_nil] at weight
  omega

theorem internal_of_busy {a : Action} (busy : ¬ b.Idle)
    (taken : b.step capacity a = some b') : a.Internal := by
  cases a with
  | added up u piped => exact busy (step_added taken).1
  | value i v => exact busy (step_value taken).1
  | write time junk => trivial
  | transfer n => trivial
  | read i n => trivial

theorem overrun_stops {more : List Action} (h : Sound capacity b)
    (here : b.nodes[i]? = some node) (ahead : Overrun capacity node)
    (unread : ∀ n, .read i n ∉ more) (ran : Runs.run (step capacity) b more = some b') :
    ∀ a ∈ more, a.Internal := by
  induction more generalizing b node with
  | nil => exact nofun
  | cons a more ih =>
      obtain ⟨next, taken, rest⟩ := Option.bind_eq_some_iff.mp ran
      have internal := internal_of_busy (ahead.busy h here) taken
      obtain ⟨node', there, dev, _, same⟩ := step_internal internal taken here
      have kept := same fun n eq => unread n (eq ▸ List.mem_cons_self)
      have still : Overrun capacity node' := by
        rw [Overrun, dev, kept]
        exact ahead
      refine List.forall_mem_cons.mpr ⟨internal, ?_⟩
      exact ih (sound_step h taken) there still
        (fun n later => unread n (List.mem_cons_of_mem a later)) rest

/-- At most the events of one callback are beyond what the pipe and the readers hold. -/
def Ahead (capacity : Nat) (b : Bridge) : Prop :=
  ∀ (i : Nat) (node : Node), b.nodes[i]? = some node →
    24 * node.dev.written.length ≤ capacity + node.taken.length + 72

theorem ahead_step {a : Action} (sound : Sound capacity b) (h : Ahead capacity b)
    (taken : b.step capacity a = some b') : Ahead capacity b' := by
  have quiet (internal : a.Internal) : Ahead capacity b' := by
    intro i node there
    obtain ⟨old, here, dev, grown⟩ := before_internal internal taken there
    have least := h i old here
    rw [dev]
    omega
  cases a with
  | added up u piped =>
      intro i node there
      obtain ⟨_, ⟨rfl, _⟩ | ⟨rfl, _⟩⟩ := step_added taken
      · exact h i node there
      · cases List.mem_append.mp (List.mem_of_getElem? there) with
        | inl old =>
            obtain ⟨j, here⟩ := List.mem_iff_getElem?.mp old
            exact h j node here
        | inr new =>
            rw [List.mem_singleton.mp new]
            exact Nat.zero_le _
  | value j v =>
      intro i node there
      obtain ⟨idle, old, dev, here, called, rfl⟩ := step_value taken
      cases set_cases there with
      | inl same =>
          obtain ⟨rfl, rfl⟩ := same
          obtain ⟨out, written, few⟩ := callback_writes called
          have weight := (sound.flows i old here).weight
          have bounded := sound.bounded i old here
          rw [idle.restOf, idle.todoOf, List.length_nil, List.length_nil] at weight
          change 24 * dev.written.length ≤ capacity + old.taken.length + 72
          rw [written, List.length_append]
          omega
      | inr other => exact h i node other.2
  | write time junk => exact quiet trivial
  | transfer n => exact quiet trivial
  | read i n => exact quiet trivial

theorem ahead_run (ran : Runs.run (step capacity) {} acts = some b) : Ahead capacity b := by
  have start : Sound capacity {} ∧ Ahead capacity {} :=
    ⟨⟨nofun, nofun, fun busy => absurd ⟨rfl, rfl⟩ busy⟩, nofun⟩
  have kept (b : Bridge) (a : Action) (b' : Bridge) (h : Sound capacity b ∧ Ahead capacity b)
      (taken : b.step capacity a = some b') : Sound capacity b' ∧ Ahead capacity b' :=
    ⟨sound_step h.1 taken, ahead_step h.1 h.2 taken⟩
  exact (Runs.run_invariant kept start ran).2

/-- One device that nobody reads stops the bridge: it gets no more than a callback ahead of
its pipe and its readers, and from then on, until it is read, no device of the bridge gets
a value and none is added. -/
theorem unread_device_stops_bridge (ran : Runs.run (step capacity) {} acts = some b)
    (here : b.nodes[i]? = some node) :
    24 * node.dev.written.length ≤ capacity + node.taken.length + 72 ∧
      (capacity + node.taken.length < 24 * node.dev.written.length →
        ∀ more b', Runs.run (step capacity) b more = some b' → (∀ n, .read i n ∉ more) →
          ∀ a ∈ more, a.Internal) :=
  ⟨ahead_run ran i node here, fun ahead _ _ later unread =>
    overrun_stops (sound_run ran) here ahead unread later⟩

/-- A key that was pressed goes beyond a pipe of one record. -/
def keyUnread : List Action :=
  [.added 1 6 true, .value 0 ⟨pageKeyboardOrKeypad, 0x04, 1⟩]

theorem unread_device_stops_bridge_keyboard :
    ∃ b node, Runs.run (step 24) {} keyUnread = some b ∧ b.nodes[0]? = some node ∧
      24 * node.dev.written.length ≤ 24 + node.taken.length + 72 ∧
      (24 + node.taken.length < 24 * node.dev.written.length →
        ∀ more b', Runs.run (step 24) b more = some b' → (∀ n, .read 0 n ∉ more) →
          ∀ a ∈ more, a.Internal) := by
  have ran : Runs.run (step 24) {} keyUnread = some _ := rfl
  exact ⟨_, _, ran, rfl, unread_device_stops_bridge ran rfl⟩

/-! A pipe that is read. -/

/-- What the callback has still to do, counted in bytes. -/
def work (b : Bridge) : Nat :=
  25 * b.todo.length + b.rest.length

/-- An action of the callback or a reader of its device. -/
def Action.Draining (slot : Nat) : Action → Prop
  | .write _ _ | .transfer _ => True
  | .read i _ => i = slot
  | .added _ _ _ | .value _ _ => False

/-- The bridge after a byte of the `write` has entered the pipe. -/
def push (b : Bridge) (node : Node) : Bridge :=
  { b with
    nodes := b.nodes.set b.slot { node with pipe := node.pipe ++ b.rest.take 1 }
    rest := b.rest.drop 1 }

theorem step_push (here : b.nodes[b.slot]? = some node) (left : 0 < b.rest.length)
    (room : node.pipe.length < capacity) :
    b.step capacity (.transfer 1) = some (b.push node) := by
  rw [step, here]
  exact if_pos ⟨Nat.one_pos, left, room⟩

theorem push_work (left : 0 < b.rest.length) : (b.push node).work < b.work := by
  unfold work push
  dsimp only
  rw [List.length_drop]
  omega

/-- A node after a byte of its pipe is read. -/
def pulled (node : Node) : Node :=
  { node with pipe := node.pipe.drop 1, taken := node.taken ++ node.pipe.take 1 }

/-- The bridge after a byte of the pipe of its callback is read. -/
def pull (b : Bridge) (node : Node) : Bridge :=
  { b with nodes := b.nodes.set b.slot (pulled node) }

theorem step_pull (here : b.nodes[b.slot]? = some node) (full : 0 < node.pipe.length) :
    b.step capacity (.read b.slot 1) = some (b.pull node) := by
  rw [step, here]
  exact if_pos ⟨Nat.one_pos, full⟩

/-- A busy thread gets on, if need be after a byte of its pipe is read. -/
theorem busy_moves (pos : 0 < capacity) (h : Sound capacity b) (busy : ¬ b.Idle) :
    ∃ more b', Runs.run (step capacity) b more = some b' ∧ b'.slot = b.slot ∧
      b'.work < b.work ∧ ∀ a ∈ more, a.Draining b.slot := by
  obtain ⟨node, here⟩ : ∃ node, b.nodes[b.slot]? = some node :=
    ⟨_, List.getElem?_eq_getElem (h.placed busy)⟩
  cases rest : b.rest with
  | nil =>
      cases todo : b.todo with
      | nil => exact absurd ⟨rest, todo⟩ busy
      | cons event todo' =>
          refine ⟨[.write ⟨0, 0⟩ fun _ => 0],
            { b with rest := inputEvent.encode (fun _ => 0) ⟨⟨0, 0⟩, event⟩, todo := todo' },
            ?_, rfl, ?_, List.forall_mem_singleton.mpr trivial⟩
          · rw [Runs.run_cons, step, rest, todo]
            rfl
          · simp only [work, rest, todo, inputEvent.length_encode, inputEvent_size,
              List.length_cons, List.length_nil]
            omega
  | cons byte more =>
      have left : 0 < b.rest.length := by
        rw [rest]
        exact Nat.succ_pos _
      by_cases room : node.pipe.length < capacity
      · refine ⟨[.transfer 1], b.push node, ?_, rfl, push_work left,
          List.forall_mem_singleton.mpr trivial⟩
        rw [Runs.run_cons, step_push here left room]
        rfl
      · have bounded := h.bounded _ node here
        have there : (b.pull node).nodes[b.slot]? = some (pulled node) :=
          List.getElem?_set_self (h.placed busy)
        have freed : (pulled node).pipe.length < capacity := by
          rw [pulled, List.length_drop]
          omega
        refine ⟨[.read b.slot 1, .transfer 1], (b.pull node).push (pulled node), ?_, rfl,
          push_work (b := b.pull node) left,
          List.forall_mem_cons.mpr ⟨rfl, List.forall_mem_singleton.mpr trivial⟩⟩
        rw [Runs.run_cons, step_pull here (by omega), Option.bind_some, Runs.run_cons,
          step_push there left freed]
        rfl

theorem Sound.finishes (pos : 0 < capacity) (h : Sound capacity b) :
    ∃ more b', Runs.run (step capacity) b more = some b' ∧ b'.Idle ∧
      ∀ a ∈ more, a.Draining b.slot := by
  induction size : b.work using Nat.strong_induction_on generalizing b with
  | _ n ih =>
      by_cases idle : b.Idle
      · exact ⟨[], b, rfl, idle, nofun⟩
      obtain ⟨first, mid, ran, same, less, draining⟩ := busy_moves pos h idle
      have sound := Runs.run_invariant (fun _ _ _ h taken => sound_step h taken) h ran
      obtain ⟨more, b', later, idle', draining'⟩ := ih mid.work (size ▸ less) sound rfl
      refine ⟨first ++ more, b', ?_, idle', ?_⟩
      · rw [Runs.run_append, ran]
        exact later
      · exact List.forall_mem_append.mpr ⟨draining, same ▸ draining'⟩

/-- Readers of the one device are enough to get the thread out of every callback. -/
theorem read_device_finishes (pos : 0 < capacity)
    (ran : Runs.run (step capacity) {} acts = some b) :
    ∃ more b', Runs.run (step capacity) b more = some b' ∧ b'.Idle ∧
      ∀ a ∈ more, a.Draining b.slot :=
  (sound_run ran).finishes pos

theorem read_device_finishes_keyboard :
    ∃ b, Runs.run (step 24) {} keyUnread = some b ∧
      ∃ more b', Runs.run (step 24) b more = some b' ∧ b'.Idle ∧
        ∀ a ∈ more, a.Draining b.slot := by
  have ran : Runs.run (step 24) {} keyUnread = some _ := rfl
  exact ⟨_, ran, read_device_finishes (by decide) ran⟩

end Bridge
end LunaOS.Evdev
