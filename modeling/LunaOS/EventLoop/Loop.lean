import LunaOS.Lib.Histories
import LunaOS.Lib.Ledger
import LunaOS.Lib.Runs
import LunaOS.Lib.Slots
import Mathlib.Data.Fin.Tuple.Basic

/-!
The Wayland event loop `libwayland-darwin/wayland-darwin-event-loop.c`: its array
of sources, the dispatch sources that it makes of them and the write events of its
kqueue. Functions and user data are addresses, dispatch sources are numbered in the
order of their creation. A firing is one step, and so is one turn of the loop of
`wl_event_loop_dispatch`; the environment may fire any block it was given, at any
time and in any order. `history` records what happened, and no step reads it.

Left out: the queue, the self-pipe, and what `kevent` does with a bad descriptor.
-/
namespace LunaOS.EventLoop

abbrev maxSources : Nat := 256

def wlEventReadable : UInt32 := 0x01
def wlEventWritable : UInt32 := 0x02
def wlEventHangup : UInt32 := 0x04
def wlEventError : UInt32 := 0x08

/-- `struct wl_event_source`, as `calloc` leaves it. -/
structure Source where
  fd : Int32 := 0
  mask : UInt32 := 0
  fdFunc : UInt64 := 0
  timerFunc : UInt64 := 0
  data : UInt64 := 0
  dispatchSrc : Option Nat := none
  isTimer : Bool := false
  cancelled : Bool := false

/-- An event handler block, with what it captures; a read block passes its own copy
of the arguments of `wl_event_loop_add_fd`. -/
inductive Block where
  | read (src : Fin maxSources) (func : UInt64) (fd : Int32) (data : UInt64)
  | timer (src : Fin maxSources) (func data : UInt64)

structure TimerSetting where
  start : UInt64
  interval : UInt64
  leeway : UInt64

/-- What the program has done to its dispatch sources. -/
structure Gcd where
  handler : Nat → Option Block := fun _ => none
  ledger : Ledger := Ledger.empty
  cancelled : List Nat := []
  resumed : List Nat := []
  timer : Nat → Option TimerSetting := fun _ => none

namespace Gcd

/-- `dispatch_source_create` and `dispatch_source_set_event_handler`. -/
def create (g : Gcd) (block : Block) : Gcd :=
  { g with
    handler := Function.update g.handler g.ledger.allocated (some block)
    ledger := g.ledger.acquire }

def resume (g : Gcd) (k : Nat) : Gcd :=
  { g with resumed := k :: g.resumed }

def setTimer (g : Gcd) (k : Nat) (t : TimerSetting) : Gcd :=
  { g with timer := Function.update g.timer k (some t) }

/-- `dispatch_source_cancel` and then `dispatch_release`. -/
def drop (g : Gcd) (k : Nat) : Gcd :=
  { g with cancelled := k :: g.cancelled, ledger := g.ledger.release k }

end Gcd

inductive Registration where
  | fd (fd : Int32) (mask : UInt32) (func data : UInt64)
  | timer (func data : UInt64)
  deriving DecidableEq

inductive Callback where
  | fd (source : Fin maxSources) (func : UInt64) (fd : Int32) (mask : UInt32) (data : UInt64)
  | timer (source : Fin maxSources) (func data : UInt64)
  deriving DecidableEq

def Callback.source : Callback → Fin maxSources
  | .fd source _ _ _ _ => source
  | .timer source _ _ => source

inductive Happening where
  | added (i : Fin maxSources) (r : Registration)
  | removed (i : Fin maxSources)
  | ran (c : Callback)
  deriving DecidableEq

/-- An entry of the array that `kevent` fills. -/
structure Kevent where
  udata : Option (Fin maxSources)
  write : Bool
  eof : Bool
  error : Bool

/-- `struct wl_event_loop`. `kqueue` lists the registrations for write events, the
latest first. -/
structure Loop where
  sources : Fin maxSources → Source := fun _ => {}
  sourceCount : Nat := 0
  gcd : Gcd := {}
  kqueue : List (Int32 × Fin maxSources) := []
  destroyed : Bool := false
  history : List Happening := []

namespace Loop

def create : Loop := {}

def record (s : Loop) (h : Happening) : Loop :=
  { s with history := s.history ++ [h] }

def setSource (s : Loop) (i : Fin maxSources) (src : Source) : Loop :=
  { s with sources := Function.update s.sources i src }

/-- `wl_event_loop_add_fd`, with the source it returns. -/
def addFd (s : Loop) (fd : Int32) (mask : UInt32) (func data : UInt64) :
    Loop × Option (Fin maxSources) :=
  if h : s.sourceCount < maxSources then
    let i : Fin maxSources := ⟨s.sourceCount, h⟩
    let src := { s.sources i with fd := fd, mask := mask, fdFunc := func, data := data }
    let s' := { s.record (.added i (.fd fd mask func data)) with
      sourceCount := s.sourceCount + 1 }
    if mask &&& wlEventReadable ≠ 0 then
      let k := s.gcd.ledger.allocated
      ({ s'.setSource i { src with dispatchSrc := some k } with
          gcd := (s.gcd.create (.read i func fd data)).resume k }, some i)
    else if mask &&& wlEventWritable ≠ 0 then
      ({ s'.setSource i src with kqueue := (fd, i) :: s.kqueue }, some i)
    else (s'.setSource i src, some i)
  else (s, none)

/-- `wl_event_loop_add_timer`, with the source it returns. -/
def addTimer (s : Loop) (func data : UInt64) : Loop × Option (Fin maxSources) :=
  if h : s.sourceCount < maxSources then
    let i : Fin maxSources := ⟨s.sourceCount, h⟩
    let src := { s.sources i with isTimer := true, timerFunc := func, data := data }
    let s' := { s.record (.added i (.timer func data)) with sourceCount := s.sourceCount + 1 }
    ({ s'.setSource i { src with dispatchSrc := some s.gcd.ledger.allocated } with
        gcd := s.gcd.create (.timer i func data) }, some i)
  else (s, none)

/-- `wl_event_source_timer_update` at the time `now`, with the value it returns. -/
def timerUpdate (s : Loop) (i : Fin maxSources) (ms : Int32) (now : UInt64) : Loop × Int :=
  match (s.sources i).dispatchSrc with
  | none => (s, -1)
  | some k =>
      let interval := ms.toInt64.toUInt64 * 1000000
      let gcd := s.gcd.setTimer k
        { start := now + interval, interval := interval, leeway := interval / 10 }
      if 0 < ms ∧ (s.sources i).cancelled = false then ({ s with gcd := gcd.resume k }, 0)
      else ({ s with gcd := gcd }, 0)

def remove (s : Loop) (i : Fin maxSources) : Loop :=
  let src := { s.sources i with cancelled := true }
  match src.dispatchSrc with
  | some k => { s.setSource i { src with dispatchSrc := none } with gcd := s.gcd.drop k }
  | none => s.setSource i src

def fire (s : Loop) : Block → Loop
  | .read i func fd data =>
      if (s.sources i).cancelled then s
      else s.record (.ran (.fd i func fd wlEventReadable data))
  | .timer i func data =>
      if (s.sources i).cancelled then s else s.record (.ran (.timer i func data))

/-- The cancel handler block of a read source; a timer has none. -/
def cancelHandler (s : Loop) : Block → Loop
  | .read i _ _ _ => s.setSource i { s.sources i with cancelled := true }
  | .timer _ _ _ => s

/-- One turn of the loop of `wl_event_loop_dispatch`. -/
def dispatchOne (s : Loop) (ev : Kevent) : Loop :=
  match ev.udata with
  | none => s
  | some i =>
      let src := s.sources i
      if src.cancelled then s
      else
        let mask := (if ev.write then wlEventWritable else 0) |||
          (if ev.eof then wlEventHangup else 0) ||| (if ev.error then wlEventError else 0)
        if mask ≠ 0 ∧ src.fdFunc ≠ 0 then
          s.record (.ran (.fd i src.fdFunc src.fd mask src.data))
        else s

/-- The dispatch sources that the slots in use hold, in the order of the slots. -/
def heldSource (s : Loop) (i : Fin maxSources) : Option Nat :=
  if i.val < s.sourceCount then (s.sources i).dispatchSrc else none

/-- The loop of `wl_event_loop_destroy`. -/
def destroy (s : Loop) : Loop :=
  { s with
    gcd := ((List.finRange maxSources).filterMap s.heldSource).foldl Gcd.drop s.gcd }

/-- A call of the program or a turn of the environment. -/
inductive Event where
  | addFd (fd : Int32) (mask : UInt32) (func data : UInt64)
  | addTimer (func data : UInt64)
  | timerUpdate (i : Fin maxSources) (ms : Int32) (now : UInt64)
  | remove (i : Fin maxSources)
  | fire (k : Nat)
  | cancelHandler (k : Nat)
  | kevent (ev : Kevent)
  | destroy

/-- A source that a caller passes was returned by an add. `kevent` returns what was
registered with it at some time, however long ago. A removal and a destruction are noted
as calls, whatever they do. -/
def step (s : Loop) (e : Event) : Option Loop :=
  if s.destroyed then none
  else match e with
  | .addFd fd mask func data => some (s.addFd fd mask func data).1
  | .addTimer func data => some (s.addTimer func data).1
  | .timerUpdate i ms now =>
      if i.val < s.sourceCount then some (s.timerUpdate i ms now).1 else none
  | .remove i =>
      if i.val < s.sourceCount then some ((s.record (.removed i)).remove i) else none
  | .fire k => (s.gcd.handler k).map s.fire
  | .cancelHandler k => if k ∈ s.gcd.cancelled then (s.gcd.handler k).map s.cancelHandler else none
  | .kevent ev =>
      if ev.udata.all fun i => s.kqueue.any (·.2 = i) then some (s.dispatchOne ev) else none
  | .destroy => some { s.destroy with destroyed := true }

/-- The state after each event, with what the event could count on. -/
inductive Taken (s : Loop) : Event → Loop → Prop
  | addFd (fd : Int32) (mask : UInt32) (func data : UInt64) :
      Taken s (.addFd fd mask func data) (s.addFd fd mask func data).1
  | addTimer (func data : UInt64) : Taken s (.addTimer func data) (s.addTimer func data).1
  | timerUpdate (i : Fin maxSources) (ms : Int32) (now : UInt64) (used : i.val < s.sourceCount) :
      Taken s (.timerUpdate i ms now) (s.timerUpdate i ms now).1
  | remove (i : Fin maxSources) (used : i.val < s.sourceCount) :
      Taken s (.remove i) ((s.record (.removed i)).remove i)
  | fire (k : Nat) (b : Block) (given : s.gcd.handler k = some b) : Taken s (.fire k) (s.fire b)
  | cancelHandler (k : Nat) (b : Block) (gone : k ∈ s.gcd.cancelled)
      (given : s.gcd.handler k = some b) : Taken s (.cancelHandler k) (s.cancelHandler b)
  | kevent (ev : Kevent) (known : ∀ i, ev.udata = some i → ∃ fd, (fd, i) ∈ s.kqueue) :
      Taken s (.kevent ev) (s.dispatchOne ev)
  | destroy : Taken s .destroy { s.destroy with destroyed := true }

theorem step_spec {s s' : Loop} {e : Event} (next : s.step e = some s') :
    s.destroyed = false ∧ s.Taken e s' := by
  unfold step at next
  obtain ⟨alive, next⟩ := Option.ite_none_left_eq_some.mp next
  refine ⟨Bool.eq_false_of_not_eq_true alive, ?_⟩
  cases e with
  | addFd fd mask func data => exact Option.some.inj next ▸ .addFd fd mask func data
  | addTimer func data => exact Option.some.inj next ▸ .addTimer func data
  | timerUpdate i ms now =>
      obtain ⟨used, next⟩ := Option.ite_none_right_eq_some.mp next
      exact Option.some.inj next ▸ .timerUpdate i ms now used
  | remove i =>
      obtain ⟨used, next⟩ := Option.ite_none_right_eq_some.mp next
      exact Option.some.inj next ▸ .remove i used
  | fire k =>
      obtain ⟨b, given, next⟩ := Option.map_eq_some_iff.mp next
      exact next ▸ .fire k b given
  | cancelHandler k =>
      obtain ⟨gone, next⟩ := Option.ite_none_right_eq_some.mp next
      obtain ⟨b, given, next⟩ := Option.map_eq_some_iff.mp next
      exact next ▸ .cancelHandler k b gone given
  | kevent ev =>
      obtain ⟨known, next⟩ := Option.ite_none_right_eq_some.mp next
      refine Option.some.inj next ▸ .kevent ev ?_
      intro i udata
      rw [udata] at known
      obtain ⟨⟨fd, j⟩, entry, same⟩ := List.any_eq_true.mp known
      obtain rfl := of_decide_eq_true same
      exact ⟨fd, entry⟩
  | destroy => exact Option.some.inj next ▸ .destroy

/-- The next free slot is given away; those in use stay. -/
theorem source_of_used {s s' : Loop} {i j : Fin maxSources} {src : Source}
    (new : i.val = s.sourceCount) (sources : s'.sources = Function.update s.sources i src)
    (used : j.val < s.sourceCount) : s'.sources j = s.sources j := by
  rw [sources, Function.update_of_ne]
  rintro rfl
  omega

theorem fire_cases (s : Loop) (b : Block) :
    s.fire b = s ∨ ∃ c, s.fire b = s.record (.ran c) := by
  cases b <;> simp only [fire] <;> split
  · exact Or.inl rfl
  · exact Or.inr ⟨_, rfl⟩
  · exact Or.inl rfl
  · exact Or.inr ⟨_, rfl⟩

theorem dispatchOne_cases (s : Loop) (ev : Kevent) :
    s.dispatchOne ev = s ∨ ∃ c, s.dispatchOne ev = s.record (.ran c) := by
  unfold dispatchOne
  cases ev.udata with
  | none => exact Or.inl rfl
  | some i =>
      dsimp only
      generalize (_ ||| _ : UInt32) = mask
      split
      · exact Or.inl rfl
      · split
        · exact Or.inr ⟨_, rfl⟩
        · exact Or.inl rfl

end Loop
end LunaOS.EventLoop
