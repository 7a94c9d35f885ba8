import LunaOS.Lib.Ledger
import LunaOS.Lib.Rings
import LunaOS.Lib.Runs

/-!
The compositor `compositor/src/main.c`: its views, outputs and keyboards, and of
wlroots the objects that it puts listeners on, the children of the scene root and
the seat. Objects are numbered in the order of their creation; a view and its scene
node take the number of their xdg surface, an output that of its `wlr_output`. A
signal that belongs to one object lists the views or outputs whose listener is
linked into it; the two signals of a keyboard are kept link by link. A step returns
`none` where the event cannot happen and where a handler follows a null pointer or
a pointer to a freed view.

Left out: rendering, the motion of the pointer, key maps and seat capabilities. The
answer of `view_at` is part of the button event.
-/
namespace LunaOS.Compositor

/-! Views. -/

inductive Role where
  | none
  | toplevel
  | popup
  deriving DecidableEq

/-- `struct wlr_xdg_surface` and its toplevel; `activated` is what
`wlr_xdg_toplevel_set_activated` was last called with. -/
structure XdgSurface where
  surface : Nat
  role : Role
  activated : Bool := false
  title : Option String := Option.none
  appId : Option String := Option.none
  destroySignal : List Nat := []

/-- `struct wlr_surface`, with the xdg surface that it has a role for. -/
structure Surface where
  xdgSurface : Option Nat := Option.none
  mapSignal : List Nat := []
  unmapSignal : List Nat := []

structure View where
  xdgSurface : Nat
  sceneNode : Nat
  mapped : Bool := false
  toplevelHandle : Option Nat := Option.none

/-- `struct wlr_foreign_toplevel_handle_v1`. -/
structure ToplevelHandle where
  title : Option String
  appId : Option String

/-- In `views` the links of `none` are the head `server.views` and those of `some v`
the member `link` of view `v`. The children of the scene root stand in `scene` from
the bottom to the top. `recent` is the view last passed through the body of
`focus_view`; no step reads it. -/
structure Windows where
  views : Rings.Heap (Option Nat) := Rings.init (fun _ => {}) none
  view : Nat → Option View := fun _ => none
  xdgSurface : Nat → Option XdgSurface := fun _ => none
  surface : Nat → Option Surface := fun _ => some {}
  created : Nat := 0
  scene : List Nat := []
  handles : Ledger := Ledger.empty
  handle : Nat → Option ToplevelHandle := fun _ => none
  recent : Option Nat := none

namespace Windows

def setView (ws : Windows) (v : Nat) (view : View) : Windows :=
  { ws with view := Function.update ws.view v (some view) }

def setActivated (ws : Windows) (n : Nat) (activated : Bool) : Windows :=
  { ws with
    xdgSurface := Function.update ws.xdgSurface n
      ((ws.xdgSurface n).map fun xdg => { xdg with activated := activated }) }

/-- `wlr_xdg_surface_try_from_wlr_surface`. -/
def tryFromSurface (ws : Windows) (w : Nat) : Option Nat :=
  (ws.surface w).bind (·.xdgSurface)

/-- The part of `focus_view` about the surface that had the focus. -/
def deactivate (ws : Windows) (prevSurface : Option Nat) : Windows :=
  match prevSurface.bind ws.tryFromSurface with
  | none => ws
  | some prevXdg =>
      if (ws.xdgSurface prevXdg).any (·.role = .toplevel) then ws.setActivated prevXdg false
      else ws

/-- The part of `focus_view` about the view that gets the focus. -/
def raise (ws : Windows) (v : Nat) (view : View) : Option Windows :=
  (Rings.remove ws.views (some v)).bind fun links =>
    (Rings.insert links none (some v)).map fun links =>
      { ws.setActivated view.xdgSurface true with
        scene := ws.scene.erase view.sceneNode ++ [view.sceneNode]
        views := links
        recent := some v }

/-- The end of `view_map`: the view gets a foreign toplevel handle. -/
def createHandle (ws : Windows) (v : Nat) (title appId : Option String) : Windows :=
  let k := ws.handles.allocated
  { ws with
    handles := ws.handles.acquire
    handle := Function.update ws.handle k (some ⟨title, appId⟩)
    view := Function.update ws.view v
      ((ws.view v).map fun view => { view with toplevelHandle := some k }) }

def viewUnmap (ws : Windows) (v : Nat) : Option Windows :=
  (ws.view v).map fun view =>
    match view.toplevelHandle with
    | some k =>
        { ws.setView v { view with mapped := false, toplevelHandle := none } with
          handles := ws.handles.release k
          handle := Function.update ws.handle k none }
    | none => ws.setView v { view with mapped := false }

def viewDestroy (ws : Windows) (v : Nat) : Option Windows :=
  (ws.view v).bind fun _ =>
    (Rings.remove ws.views (some v)).map fun links =>
      { ws with views := links, view := Function.update ws.view v none }

def serverNewXdgSurface (ws : Windows) (n : Nat) : Option Windows :=
  (ws.xdgSurface n).bind fun xdg =>
    if xdg.role = .toplevel then
      (ws.surface xdg.surface).bind fun surface =>
        (Rings.insert ws.views none (some n)).map fun links =>
          { ws with
            view := Function.update ws.view n (some { xdgSurface := n, sceneNode := n })
            scene := ws.scene ++ [n]
            surface := Function.update ws.surface xdg.surface
              (some { surface with
                mapSignal := surface.mapSignal ++ [n]
                unmapSignal := surface.unmapSignal ++ [n] })
            xdgSurface := Function.update ws.xdgSurface n
              (some { xdg with destroySignal := xdg.destroySignal ++ [n] })
            views := links }
    else some ws

/-- A client gives the surface `w` a role; a surface has one xdg surface at a time. -/
def createXdgSurface (ws : Windows) (w : Nat) (role : Role) : Option Windows :=
  (ws.surface w).bind fun surface =>
    if surface.xdgSurface.isNone then
      some
        { ws with
          created := ws.created + 1
          xdgSurface := Function.update ws.xdgSurface ws.created
            (some { surface := w, role := role })
          surface := Function.update ws.surface w
            (some { surface with xdgSurface := some ws.created }) }
    else none

def newXdgSurface (ws : Windows) (w : Nat) (role : Role) : Option Windows :=
  (ws.createXdgSurface w role).bind fun ws' => ws'.serverNewXdgSurface ws.created

/-- What wlroots drops with an xdg surface; its `wl_surface` stays. -/
def dropXdgSurface (ws : Windows) (n : Nat) (xdg : XdgSurface) : Windows :=
  { ws with
    scene := ws.scene.erase n
    xdgSurface := Function.update ws.xdgSurface n none
    surface := Function.update ws.surface xdg.surface
      ((ws.surface xdg.surface).map fun surface => { surface with xdgSurface := none }) }

def xdgDestroy (ws : Windows) (n : Nat) : Option Windows :=
  (ws.xdgSurface n).bind fun xdg =>
    (xdg.destroySignal.foldlM viewDestroy ws).map fun ws => ws.dropXdgSurface n xdg

def roleDestroy (ws : Windows) : Option Nat → Option Windows
  | some n => ws.xdgDestroy n
  | none => some ws

/-- A `wl_surface` is destroyed; its xdg surface goes first. -/
def surfaceDestroy (ws : Windows) (w : Nat) : Option Windows :=
  (ws.surface w).bind fun surface =>
    (ws.roleDestroy surface.xdgSurface).map fun ws =>
      { ws with surface := Function.update ws.surface w none }

def setTitle (ws : Windows) (n : Nat) (title appId : Option String) : Option Windows :=
  (ws.xdgSurface n).map fun xdg =>
    { ws with
      xdgSurface := Function.update ws.xdgSurface n
        (some { xdg with title := title, appId := appId }) }

def firstView (ws : Windows) : Option Nat :=
  (ws.views none).next.join

end Windows

/-! Outputs. -/

structure Mode where
  width : Nat
  height : Nat
  refresh : Nat

structure WlrOutput where
  scale : Rat
  modes : List Mode
  mode : Option Mode
  enabled : Bool
  frameSignal : List Nat

structure Output where
  wlrOutput : Nat

/-- In `outputs` the links of `none` are the head `server.outputs`. -/
structure Outputs where
  outputs : Rings.Heap (Option Nat) := Rings.init (fun _ => {}) none
  output : Nat → Option Output := fun _ => none
  wlrOutput : Nat → Option WlrOutput := fun _ => none
  created : Nat := 0
  outputScale : Int := 1

namespace Outputs

/-- `server_new_output` for a new `wlr_output`. -/
def serverNewOutput (os : Outputs) (scale : Rat) (modes : List Mode) : Option Outputs :=
  (Rings.insert os.outputs none (some os.created)).map fun links =>
    { outputs := links
      output := Function.update os.output os.created (some { wlrOutput := os.created })
      wlrOutput := Function.update os.wlrOutput os.created
        (some
          { scale := scale
            modes := modes
            mode := modes.getLast?
            enabled := true
            frameSignal := [os.created] })
      created := os.created + 1
      outputScale := if 1 < scale then scale.floor else os.outputScale }

/-- A `wlr_output` is destroyed; the compositor put no listener on that signal. -/
def destroy (os : Outputs) (o : Nat) : Option Outputs :=
  (os.wlrOutput o).map fun _ => { os with wlrOutput := Function.update os.wlrOutput o none }

end Outputs

/-! Keyboards and the seat. -/

structure KeyEvent where
  timeMsec : UInt32
  keycode : UInt32
  pressed : Bool
  deriving DecidableEq

/-- What the xkb state of a keyboard says: the keysyms of a keycode and the
modifiers. -/
structure XkbState where
  syms : UInt32 → List UInt32
  modifiers : UInt32

def wlrModifierShift : UInt32 := 0x01
def wlrModifierLogo : UInt32 := 0x40
def xkbKeyq : UInt32 := 0x71
def xkbKeyt : UInt32 := 0x74
def xkbKeyE : UInt32 := 0x45

/-- A node of the key or of the modifiers signals: the head of a keyboard's list or
the listener of the server. -/
inductive Port where
  | signal (keyboard : Nat)
  | listener
  deriving DecidableEq

/-- The signals of a keyboard are initialised when wlroots makes it. -/
def freshSignals : Rings.Heap Port
  | .signal k => ⟨some (.signal k), some (.signal k)⟩
  | .listener => {}

structure Keyboards where
  attached : List Nat := []
  keySignals : Rings.Heap Port := freshSignals
  modifiersSignals : Rings.Heap Port := freshSignals

/-- A key event that went to the seat, with the seat's keyboard at that time. -/
structure Forwarded where
  keyboard : Nat
  event : KeyEvent
  deriving DecidableEq

/-- `struct wlr_seat`; `keys` and `modifiers` record what was forwarded. -/
structure Seat where
  keyboard : Option Nat := none
  focusedSurface : Option Nat := none
  keys : List Forwarded := []
  modifiers : List Nat := []

/-- The end of `focus_view`: with a keyboard, `wlr_seat_keyboard_notify_enter`. -/
def Seat.enter (seat : Seat) (surface : Nat) : Seat :=
  if seat.keyboard.isSome then { seat with focusedSurface := some surface } else seat

def Seat.surfaceDestroyed (seat : Seat) (w : Nat) : Seat :=
  if seat.focusedSurface = some w then { seat with focusedSurface := none } else seat

/-- `struct luna_server`; `closed` lists the xdg surfaces that were sent close, and
`terminals` counts the forks. -/
structure Server where
  windows : Windows := {}
  outputs : Outputs := {}
  keyboards : Keyboards := {}
  seat : Seat := {}
  closed : List Nat := []
  terminals : Nat := 0
  running : Bool := true

namespace Server

def start : Server := {}

def focusView (s : Server) (v surface : Nat) : Option Server :=
  (s.windows.view v).bind fun view =>
    let prevSurface := s.seat.focusedSurface
    if prevSurface = some surface then some s
    else
      ((s.windows.deactivate prevSurface).raise v view).map fun ws =>
        { s with windows := ws, seat := s.seat.enter surface }

def viewMap (s : Server) (v : Nat) : Option Server :=
  (s.windows.view v).bind fun view =>
    (s.windows.xdgSurface view.xdgSurface).bind fun xdg =>
      let s := { s with windows := s.windows.setView v { view with mapped := true } }
      (s.focusView v xdg.surface).map fun s =>
        { s with windows := s.windows.createHandle v xdg.title xdg.appId }

/-- Super+Q. -/
def closeFirst (s : Server) (v : Nat) : Server :=
  match s.windows.view v with
  | some view => if view.mapped then { s with closed := s.closed ++ [view.xdgSurface] } else s
  | none => s

/-- One turn of the loop over the keysyms, with the flag `handled`. -/
def shortcut (modifiers : UInt32) : Server × Bool → UInt32 → Server × Bool
  | (s, handled), sym =>
      if sym = xkbKeyq then
        match s.windows.firstView with
        | some v => (s.closeFirst v, true)
        | none => (s, handled)
      else if sym = xkbKeyt then ({ s with terminals := s.terminals + 1 }, true)
      else if sym = xkbKeyE then
        if modifiers &&& wlrModifierShift ≠ 0 then ({ s with running := false }, true)
        else (s, handled)
      else (s, handled)

/-- The shortcuts of a key event, with the flag `handled`. -/
def shortcuts (s : Server) (xkb : XkbState) (event : KeyEvent) : Server × Bool :=
  let syms := xkb.syms (event.keycode + 8)
  if event.pressed ∧ xkb.modifiers &&& wlrModifierLogo ≠ 0 then
    syms.foldl (shortcut xkb.modifiers) (s, false)
  else (s, false)

/-- `wlr_seat_set_keyboard` and `wlr_seat_keyboard_notify_key`. -/
def forwardKey (s : Server) (kb : Nat) (event : KeyEvent) : Server :=
  { s with
    seat := { s.seat with keyboard := some kb, keys := s.seat.keys ++ [⟨kb, event⟩] } }

/-- `handle_keyboard_key` once the keyboard is found. -/
def keyOf (s : Server) (kb : Nat) (xkb : XkbState) (event : KeyEvent) : Server :=
  let (s, handled) := s.shortcuts xkb event
  if handled then s else s.forwardKey kb event

def handleKeyboardKey (s : Server) (xkb : Nat → XkbState) (event : KeyEvent) : Server :=
  match s.seat.keyboard with
  | none => s
  | some kb => s.keyOf kb (xkb kb) event

/-- `handle_keyboard_modifiers` once the keyboard is found. -/
def modifiersOf (s : Server) (kb : Nat) : Server :=
  { s with
    seat := { s.seat with keyboard := some kb, modifiers := s.seat.modifiers ++ [kb] } }

def handleKeyboardModifiers (s : Server) : Server :=
  match s.seat.keyboard with
  | none => s
  | some kb => s.modifiersOf kb

/-- The keyboard branch of `server_new_input`. -/
def attachKeyboard (s : Server) (k : Nat) : Option Server :=
  (Rings.insertLast s.keyboards.keySignals (.signal k) .listener).bind fun keySignals =>
    (Rings.insertLast s.keyboards.modifiersSignals (.signal k) .listener).map
      fun modifiersSignals =>
        { s with
          keyboards := ⟨s.keyboards.attached ++ [k], keySignals, modifiersSignals⟩
          seat := { s.seat with keyboard := some k } }

/-- The type of a new input device, with the number of a keyboard. -/
inductive Device where
  | keyboard (k : Nat)
  | pointer
  | other

/-- An event of the compositor, or a turn of a client or a device. The map and unmap
signals of a surface reach one listener at a time. -/
inductive Event where
  | newOutput (scale : Rat) (modes : List Mode)
  | outputDestroy (o : Nat)
  | newXdgSurface (w : Nat) (role : Role)
  | setTitle (n : Nat) (title appId : Option String)
  | map (w v : Nat)
  | unmap (w v : Nat)
  | xdgDestroy (n : Nat)
  | surfaceDestroy (w : Nat)
  | button (pressed : Bool) (hit : Option (Nat × Nat))
  | seatFocus (surface : Option Nat)
  | newInput (device : Device)
  | key (k : Nat) (xkb : Nat → XkbState) (event : KeyEvent)
  | modifiers (k : Nat)

def step (s : Server) : Event → Option Server
  | .newOutput scale modes =>
      (s.outputs.serverNewOutput scale modes).map fun os => { s with outputs := os }
  | .outputDestroy o => (s.outputs.destroy o).map fun os => { s with outputs := os }
  | .newXdgSurface w role =>
      (s.windows.newXdgSurface w role).map fun ws => { s with windows := ws }
  | .setTitle n title appId =>
      (s.windows.setTitle n title appId).map fun ws => { s with windows := ws }
  | .map w v =>
      if (s.windows.surface w).any (v ∈ ·.mapSignal) then s.viewMap v else none
  | .unmap w v =>
      if (s.windows.surface w).any (v ∈ ·.unmapSignal) then
        (s.windows.viewUnmap v).map fun ws => { s with windows := ws }
      else none
  | .xdgDestroy n => (s.windows.xdgDestroy n).map fun ws => { s with windows := ws }
  | .surfaceDestroy w =>
      (s.windows.surfaceDestroy w).map fun ws =>
        { s with windows := ws, seat := s.seat.surfaceDestroyed w }
  | .button pressed hit =>
      match hit with
      | some (v, surface) =>
          if (s.windows.surface surface).isNone then none
          else if pressed then s.focusView v surface
          else some s
      | none => some s
  | .seatFocus surface =>
      if surface.all fun w => (s.windows.surface w).isSome then
        some { s with seat := { s.seat with focusedSurface := surface } }
      else none
  | .newInput (.keyboard k) => if k ∈ s.keyboards.attached then none else s.attachKeyboard k
  | .newInput _ => some s
  | .key k xkb event =>
      if k ∈ s.keyboards.attached then some (s.handleKeyboardKey xkb event) else none
  | .modifiers k =>
      if k ∈ s.keyboards.attached then some s.handleKeyboardModifiers else none

/-- The state after each event, with what the event found. -/
inductive Taken (s : Server) : Event → Server → Prop
  | newOutput (scale : Rat) (modes : List Mode) (os : Outputs)
      (made : s.outputs.serverNewOutput scale modes = some os) :
      Taken s (.newOutput scale modes) { s with outputs := os }
  | outputDestroy (o : Nat) (os : Outputs) (destroyed : s.outputs.destroy o = some os) :
      Taken s (.outputDestroy o) { s with outputs := os }
  | newXdgSurface (w : Nat) (role : Role) (ws : Windows)
      (made : s.windows.newXdgSurface w role = some ws) :
      Taken s (.newXdgSurface w role) { s with windows := ws }
  | setTitle (n : Nat) (title appId : Option String) (ws : Windows)
      (titled : s.windows.setTitle n title appId = some ws) :
      Taken s (.setTitle n title appId) { s with windows := ws }
  | map (w v : Nat) (s' : Server) (mapped : s.viewMap v = some s') : Taken s (.map w v) s'
  | unmap (w v : Nat) (ws : Windows) (unmapped : s.windows.viewUnmap v = some ws) :
      Taken s (.unmap w v) { s with windows := ws }
  | xdgDestroy (n : Nat) (ws : Windows) (destroyed : s.windows.xdgDestroy n = some ws) :
      Taken s (.xdgDestroy n) { s with windows := ws }
  | surfaceDestroy (w : Nat) (ws : Windows) (destroyed : s.windows.surfaceDestroy w = some ws) :
      Taken s (.surfaceDestroy w) { s with windows := ws, seat := s.seat.surfaceDestroyed w }
  | pressed (v surface : Nat) (s' : Server) (focused : s.focusView v surface = some s') :
      Taken s (.button true (some (v, surface))) s'
  | missed (pressed : Bool) : Taken s (.button pressed none) s
  | released (hit : Nat × Nat) : Taken s (.button false (some hit)) s
  | seatFocus (surface : Option Nat) :
      Taken s (.seatFocus surface) { s with seat := { s.seat with focusedSurface := surface } }
  | keyboard (k : Nat) (s' : Server) (new : k ∉ s.keyboards.attached)
      (attaches : s.attachKeyboard k = some s') : Taken s (.newInput (.keyboard k)) s'
  | pointer : Taken s (.newInput .pointer) s
  | other : Taken s (.newInput .other) s
  | key (k : Nat) (xkb : Nat → XkbState) (event : KeyEvent)
      (known : k ∈ s.keyboards.attached) :
      Taken s (.key k xkb event) (s.handleKeyboardKey xkb event)
  | modifiers (k : Nat) : Taken s (.modifiers k) s.handleKeyboardModifiers

theorem step_taken {s s' : Server} {e : Event} (next : s.step e = some s') : s.Taken e s' := by
  cases e with
  | newOutput scale modes =>
      obtain ⟨os, made, rfl⟩ := Option.map_eq_some_iff.mp next
      exact .newOutput scale modes os made
  | outputDestroy o =>
      obtain ⟨os, destroyed, rfl⟩ := Option.map_eq_some_iff.mp next
      exact .outputDestroy o os destroyed
  | newXdgSurface w role =>
      obtain ⟨ws, made, rfl⟩ := Option.map_eq_some_iff.mp next
      exact .newXdgSurface w role ws made
  | setTitle n title appId =>
      obtain ⟨ws, titled, rfl⟩ := Option.map_eq_some_iff.mp next
      exact .setTitle n title appId ws titled
  | map w v => exact .map w v s' (Option.ite_none_right_eq_some.mp next).2
  | unmap w v =>
      have next := (Option.ite_none_right_eq_some.mp next).2
      obtain ⟨ws, unmapped, rfl⟩ := Option.map_eq_some_iff.mp next
      exact .unmap w v ws unmapped
  | xdgDestroy n =>
      obtain ⟨ws, destroyed, rfl⟩ := Option.map_eq_some_iff.mp next
      exact .xdgDestroy n ws destroyed
  | surfaceDestroy w =>
      obtain ⟨ws, destroyed, rfl⟩ := Option.map_eq_some_iff.mp next
      exact .surfaceDestroy w ws destroyed
  | button pressed hit =>
      cases hit with
      | none => exact Option.some.inj next ▸ .missed pressed
      | some place =>
          have next := (Option.ite_none_left_eq_some.mp next).2
          cases pressed with
          | true => exact .pressed place.1 place.2 s' next
          | false => exact Option.some.inj next ▸ .released place
  | seatFocus surface =>
      exact Option.some.inj (Option.ite_none_right_eq_some.mp next).2 ▸ .seatFocus surface
  | newInput device =>
      cases device with
      | keyboard k =>
          obtain ⟨new, attaches⟩ := Option.ite_none_left_eq_some.mp next
          exact .keyboard k s' new attaches
      | pointer => exact Option.some.inj next ▸ .pointer
      | other => exact Option.some.inj next ▸ .other
  | key k xkb event =>
      obtain ⟨known, next⟩ := Option.ite_none_right_eq_some.mp next
      exact Option.some.inj next ▸ .key k xkb event known
  | modifiers k =>
      exact Option.some.inj (Option.ite_none_right_eq_some.mp next).2 ▸ .modifiers k

/-! A key acts on nothing but the seat and what its shortcuts start. -/

structure Agrees (s s' : Server) : Prop where
  windows : s'.windows = s.windows
  outputs : s'.outputs = s.outputs
  keyboards : s'.keyboards = s.keyboards
  seat : s'.seat = s.seat

theorem Agrees.trans {s t u : Server} (h : s.Agrees t) (h' : t.Agrees u) : s.Agrees u where
  windows := h'.windows.trans h.windows
  outputs := h'.outputs.trans h.outputs
  keyboards := h'.keyboards.trans h.keyboards
  seat := h'.seat.trans h.seat

theorem closeFirst_agrees (s : Server) (v : Nat) : s.Agrees (s.closeFirst v) := by
  unfold closeFirst
  split
  · split <;> exact ⟨rfl, rfl, rfl, rfl⟩
  · exact ⟨rfl, rfl, rfl, rfl⟩

theorem shortcut_agrees (modifiers : UInt32) (p : Server × Bool) (sym : UInt32) :
    p.1.Agrees (shortcut modifiers p sym).1 := by
  obtain ⟨s, handled⟩ := p
  simp only [shortcut]
  split
  · split
    · exact closeFirst_agrees _ _
    · exact ⟨rfl, rfl, rfl, rfl⟩
  · split
    · exact ⟨rfl, rfl, rfl, rfl⟩
    · split
      · split <;> exact ⟨rfl, rfl, rfl, rfl⟩
      · exact ⟨rfl, rfl, rfl, rfl⟩

theorem shortcuts_agree (s : Server) (xkb : XkbState) (event : KeyEvent) :
    s.Agrees (s.shortcuts xkb event).1 := by
  have folded (syms : List UInt32) (p : Server × Bool) :
      p.1.Agrees (syms.foldl (shortcut xkb.modifiers) p).1 := by
    induction syms generalizing p with
    | nil => exact ⟨rfl, rfl, rfl, rfl⟩
    | cons sym syms ih => exact (shortcut_agrees xkb.modifiers p sym).trans (ih _)
  simp only [shortcuts]
  split
  · exact folded _ (s, false)
  · exact ⟨rfl, rfl, rfl, rfl⟩

theorem keyOf_of_handled {s : Server} {xkb : XkbState} {event : KeyEvent} (kb : Nat)
    (handled : (s.shortcuts xkb event).2 = true) :
    s.keyOf kb xkb event = (s.shortcuts xkb event).1 := by
  simp only [keyOf, handled, if_true]

theorem keyOf_of_not_handled {s : Server} {xkb : XkbState} {event : KeyEvent} (kb : Nat)
    (handled : (s.shortcuts xkb event).2 = false) :
    s.keyOf kb xkb event = (s.shortcuts xkb event).1.forwardKey kb event := by
  simp only [keyOf, handled, Bool.false_eq_true, if_false]

theorem keyOf_windows (s : Server) (kb : Nat) (xkb : XkbState) (event : KeyEvent) :
    (s.keyOf kb xkb event).windows = s.windows := by
  have agrees := s.shortcuts_agree xkb event
  cases handled : (s.shortcuts xkb event).2 with
  | true => rw [keyOf_of_handled kb handled, agrees.windows]
  | false =>
      rw [keyOf_of_not_handled kb handled]
      exact agrees.windows

theorem keyOf_outputs (s : Server) (kb : Nat) (xkb : XkbState) (event : KeyEvent) :
    (s.keyOf kb xkb event).outputs = s.outputs := by
  have agrees := s.shortcuts_agree xkb event
  cases handled : (s.shortcuts xkb event).2 with
  | true => rw [keyOf_of_handled kb handled, agrees.outputs]
  | false =>
      rw [keyOf_of_not_handled kb handled]
      exact agrees.outputs

end Server
end LunaOS.Compositor
