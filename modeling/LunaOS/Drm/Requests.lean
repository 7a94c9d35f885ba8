import Mathlib.Logic.Function.Basic

/-!
The ioctl arguments of the DRM kext, `drm-shim/kern/IODRMShim.cpp`, field by
field. User pointers are addresses. The kernel copies an argument in before the
handler and out after it, so a call carries its argument by value and a reply
returns it; the command number is the constructor of `Data`. What the handler
gets from IOKit during the call (an allocation, a display surface) is part of
the call, so every outcome is an input of the model.
-/
namespace LunaOS.Drm

structure DrmVersion where
  versionMajor : Int
  versionMinor : Int
  versionPatchlevel : Int
  nameLen : UInt64
  name : UInt64
  dateLen : UInt64
  date : UInt64
  descLen : UInt64
  desc : UInt64

structure DrmGemClose where
  handle : UInt32
  pad : UInt32

structure DrmModeCardRes where
  fbIdPtr : UInt64
  crtcIdPtr : UInt64
  connectorIdPtr : UInt64
  encoderIdPtr : UInt64
  countFbs : UInt32
  countCrtcs : UInt32
  countConnectors : UInt32
  countEncoders : UInt32
  minWidth : UInt32
  maxWidth : UInt32
  minHeight : UInt32
  maxHeight : UInt32

structure DrmModeInfo where
  clock : UInt32 := 0
  hdisplay : UInt16 := 0
  hsyncStart : UInt16 := 0
  hsyncEnd : UInt16 := 0
  htotal : UInt16 := 0
  hskew : UInt16 := 0
  vdisplay : UInt16 := 0
  vsyncStart : UInt16 := 0
  vsyncEnd : UInt16 := 0
  vtotal : UInt16 := 0
  vscan : UInt16 := 0
  vrefresh : UInt32 := 0
  flags : UInt32 := 0
  type : UInt32 := 0
  name : String := ""

structure DrmModeCrtc where
  setConnectorsPtr : UInt64 := 0
  countConnectors : UInt32 := 0
  crtcId : UInt32 := 0
  fbId : UInt32 := 0
  x : UInt32 := 0
  y : UInt32 := 0
  gammaSize : UInt32 := 0
  modeValid : UInt32 := 0
  mode : DrmModeInfo := {}

structure DrmModeFbCmd where
  fbId : UInt32
  width : UInt32
  height : UInt32
  pitch : UInt32
  bpp : UInt32
  depth : UInt32
  handle : UInt32

structure DrmModeCreateDumb where
  height : UInt32
  width : UInt32
  bpp : UInt32
  flags : UInt32 := 0
  handle : UInt32 := 0
  pitch : UInt32 := 0
  size : UInt64 := 0

structure DrmModeMapDumb where
  handle : UInt32
  pad : UInt32 := 0
  offset : UInt64 := 0

structure DrmModeDestroyDumb where
  handle : UInt32

structure DrmModeGetConnector where
  encodersPtr : UInt64
  modesPtr : UInt64
  propsPtr : UInt64
  propValuesPtr : UInt64
  countModes : UInt32
  countProps : UInt32
  countEncoders : UInt32
  encoderId : UInt32
  connectorId : UInt32
  connectorType : UInt32
  connectorTypeId : UInt32
  connection : UInt32
  mmWidth : UInt32
  mmHeight : UInt32
  subpixel : UInt32
  pad : UInt32

structure DrmModeGetEncoder where
  encoderId : UInt32
  encoderType : UInt32
  crtcId : UInt32
  possibleCrtcs : UInt32
  possibleClones : UInt32

/-- The command of a `drm_ioctl` call with the argument it points to. -/
inductive Data where
  | version (v : DrmVersion)
  | getResources (res : DrmModeCardRes)
  | getConnector (conn : DrmModeGetConnector)
  | getEncoder (enc : DrmModeGetEncoder)
  | getCrtc (crtc : DrmModeCrtc)
  | setCrtc (req : DrmModeCrtc)
  | addFb (fb : DrmModeFbCmd)
  | createDumb (req : DrmModeCreateDumb)
  | mapDumb (req : DrmModeMapDumb)
  | destroyDumb (req : DrmModeDestroyDumb)
  | gemClose (req : DrmGemClose)
  | other (cmd : UInt64)

/-- The return values of the handlers; `success` is 0. -/
inductive Errno where
  | success
  | enxio
  | eio
  | einval
  | enomem
  | enotty
  deriving DecidableEq

structure Mapping where
  virtAddr : UInt64
  physAddr : UInt64

/-- What `IOMobileFramebufferGetLayerDefaultSurface` hands out. -/
structure DisplaySurface where
  stride : UInt64
  height : UInt32

/-- One call: its argument, and how the allocation and the surface lookup that
it may make turn out (`none` is a failure). -/
structure Call where
  data : Data
  mem : Option Mapping := none
  surface : Option DisplaySurface := none

/-- A `copyout` to the address `dst` of the caller. -/
inductive Copyout where
  | text (dst : UInt64) (s : String)
  | word (dst : UInt64) (w : UInt32)
  | mode (dst : UInt64) (m : DrmModeInfo)

/-- One `bcopy` of the blit loop: byte offsets into buffer and display. -/
structure RowCopy where
  src : UInt32
  dst : UInt64
  len : UInt32

structure Reply where
  errno : Errno
  data : Data
  copyouts : List Copyout := []
  rows : List RowCopy := []

end LunaOS.Drm
