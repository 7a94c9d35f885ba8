import LunaOS.Lib.Runs
import LunaOS.Shell.Surfaces

/-!
The shell's own program, `luna-shell-main.c`: the outputs that it knows, the first
panels and wallpapers, and its event loop. It destroys no layer surface, so `surfaces`
lists those that it created, in order. The shared memory of a surface may fail whenever
the environment likes; then nothing is created. One turn of the loop over the outputs,
and one of the event loop, is a step.

Left out: the seat and the keyboard, which only toggle a flag that nothing reads, the
name of an output, the clock string, which is not drawn, and the pixels of the gradient.
-/
namespace LunaOS.Shell

abbrev defaultScale : Int32 := 2

abbrev panelHLogical : Int32 := 36

abbrev wlOutputModeCurrent : UInt32 := 1

/-- The proxies of the outputs are numbered in the order of their binding. -/
structure LunaOutput where
  wlOutput : Nat
  width : Int32 := 0
  height : Int32 := 0
  scale : Int32 := defaultScale

inductive Layer where
  | background
  | top
  deriving DecidableEq

structure Anchor where
  top : Bool
  bottom : Bool
  left : Bool
  right : Bool

structure Fill where
  x : Int32
  y : Int32
  w : Int32
  h : Int32
  color : UInt32

/-- A layer surface as its first commit makes it. -/
structure LayerSurface where
  output : Nat
  layer : Layer
  nameSpace : String
  anchor : Anchor
  size : Option (UInt32 × UInt32)
  exclusiveZone : Int32
  poolSize : Int32
  bufferWidth : Int32
  bufferHeight : Int32
  stride : Int32
  bufferScale : Int32
  fills : List Fill

/-- How `create_shm_file` and `mmap` turn out. -/
structure ShmOutcome where
  fd : Int32
  mapped : Bool

def ShmOutcome.Succeeds (o : ShmOutcome) : Prop :=
  0 ≤ o.fd ∧ o.mapped = true

instance (o : ShmOutcome) : Decidable o.Succeeds :=
  inferInstanceAs (Decidable (_ ∧ _))

namespace LunaOutput

def cPanelBg : UInt32 := 0xE6101010

def cAccent : UInt32 := 0xFF4A90D9

def panel (out : LunaOutput) : LayerSurface :=
  let physH := panelHLogical * out.scale
  let physW := out.width
  let stride := physW * 4
  { output := out.wlOutput
    layer := .top
    nameSpace := "luna-panel"
    anchor := { top := true, bottom := false, left := true, right := true }
    size := some (0, panelHLogical.toUInt32)
    exclusiveZone := panelHLogical
    poolSize := (Surface.toSize (stride * physH)).toInt64.toInt32
    bufferWidth := physW
    bufferHeight := physH
    stride := stride
    bufferScale := out.scale
    fills :=
      [⟨0, 0, physW, physH, cPanelBg⟩, ⟨0, physH - out.scale, physW, out.scale, cAccent⟩,
        ⟨0, 0, 100 * out.scale, physH, 0x22FFFFFF⟩] }

def wallpaper (out : LunaOutput) : LayerSurface :=
  let stride := out.width * 4
  { output := out.wlOutput
    layer := .background
    nameSpace := "luna-wallpaper"
    anchor := { top := true, bottom := true, left := true, right := true }
    size := none
    exclusiveZone := -1
    poolSize := (Surface.toSize (stride * out.height)).toInt64.toInt32
    bufferWidth := out.width
    bufferHeight := out.height
    stride := stride
    bufferScale := out.scale
    fills := [] }

end LunaOutput

/-- Where `main` is: in the two roundtrips, in the loop over the outputs it found, in the
event loop (which the end of the other leads to), or past it. -/
inductive MainPhase where
  | announcing (roundtrips : Nat)
  | running (todo : List Nat)
  | exited

structure LunaShell where
  compositor : Bool := false
  shm : Bool := false
  layerShell : Bool := false
  outputs : List LunaOutput := []
  lastSec : Int64 := 0
  phase : MainPhase := .announcing 2
  surfaces : List LayerSurface := []

inductive WlEvent where
  | globalCompositor
  | globalShm
  | globalLayerShell
  | globalOutput
  | outputMode (wlOutput : Nat) (flags : UInt32) (w h : Int32)
  | outputScale (wlOutput : Nat) (f : Int32)

inductive MainStep where
  | roundtrip (events : List WlEvent)
  | first (events : List WlEvent) (wallpaper panel : ShmOutcome)
  | dispatch (events : List WlEvent) (now : Int64) (panels : Nat → ShmOutcome)
  | dispatchFailed

namespace LunaShell

def updateOutput (s : LunaShell) (wlOutput : Nat) (f : LunaOutput → LunaOutput) : LunaShell :=
  { s with outputs := s.outputs.map fun out => if out.wlOutput = wlOutput then f out else out }

def handleEvent (s : LunaShell) : WlEvent → LunaShell
  | .globalCompositor => { s with compositor := true }
  | .globalShm => { s with shm := true }
  | .globalLayerShell => { s with layerShell := true }
  | .globalOutput => { s with outputs := { wlOutput := s.outputs.length } :: s.outputs }
  | .outputMode wlOutput flags w h =>
      if flags &&& wlOutputModeCurrent ≠ 0 then
        s.updateOutput wlOutput fun out => { out with width := w, height := h }
      else s
  | .outputScale wlOutput f => s.updateOutput wlOutput fun out => { out with scale := f }

def handleEvents (s : LunaShell) (events : List WlEvent) : LunaShell :=
  events.foldl handleEvent s

def createPanelForOutput (s : LunaShell) (out : LunaOutput) (o : ShmOutcome) : LunaShell :=
  if o.Succeeds then { s with surfaces := s.surfaces ++ [out.panel] } else s

def createWallpaperForOutput (s : LunaShell) (out : LunaOutput) (o : ShmOutcome) : LunaShell :=
  if o.Succeeds then { s with surfaces := s.surfaces ++ [out.wallpaper] } else s

/-- The body of the loop over the outputs. -/
def createFirst (s : LunaShell) (out : LunaOutput) (wallpaper panel : ShmOutcome) : LunaShell :=
  if 0 < out.width then
    (s.createWallpaperForOutput out wallpaper).createPanelForOutput out panel
  else s

/-- What the event loop does once a second. -/
def redrawPanels (s : LunaShell) (panels : Nat → ShmOutcome) : LunaShell :=
  s.outputs.foldl (fun s out =>
    if 0 < out.width then s.createPanelForOutput out (panels out.wlOutput) else s) s

def step (s : LunaShell) (a : MainStep) : Option LunaShell :=
  match s.phase, a with
  | .announcing (n + 2), .roundtrip events =>
      some { s.handleEvents events with phase := .announcing (n + 1) }
  | .announcing 1, .roundtrip events =>
      let s := s.handleEvents events
      if s.compositor && s.shm && s.layerShell then
        some { s with phase := .running (s.outputs.map LunaOutput.wlOutput) }
      else some { s with phase := .exited }
  | .running (n :: todo), .first events wallpaper panel =>
      let s := s.handleEvents events
      (s.outputs.find? fun out => out.wlOutput = n).map fun out =>
        { s.createFirst out wallpaper panel with phase := .running todo }
  | .running [], .dispatch events now panels =>
      let s := s.handleEvents events
      if now ≠ s.lastSec then some ({ s with lastSec := now }.redrawPanels panels) else some s
  | .running [], .dispatchFailed => some { s with phase := .exited }
  | _, _ => none

end LunaShell
end LunaOS.Shell
