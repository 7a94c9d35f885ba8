import Mathlib.Data.Fin.Tuple.Basic
import LunaOS.Drm.Requests
import LunaOS.Lib.Ledger
import LunaOS.Lib.Runs

/-!
The DRM kext `IODRMShimArm64`: its object state, the ioctl handlers and their
dispatch, translated from `drm-shim/kern/IODRMShim.cpp` with `MAX_DUMB_BOs` read
as 256. The handlers that touch the table hold `fLock` throughout, so a call is
one step. Memory descriptors are numbered in the order of their allocation; the
ledger records the allocations and the releases and nothing reads it.

Left out: the registration with cdevsw and devfs, logging, `fNextHandle` and
`iosurface_id`, which no handler reads, and the contents of the buffers.
-/
namespace LunaOS.Drm

abbrev maxDumbBOs : Nat := 256

structure DumbBO where
  handle : UInt32 := 0
  width : UInt32 := 0
  height : UInt32 := 0
  pitch : UInt32 := 0
  bpp : UInt32 := 0
  size : UInt64 := 0
  mem : Option Nat := none
  physAddr : UInt64 := 0
  virtAddr : UInt64 := 0
  inUse : Bool := false

structure IODRMShim where
  fMobileFramebuffer : Bool
  fDisplayWidth : UInt32
  fDisplayHeight : UInt32
  fBOs : Fin maxDumbBOs → DumbBO
  fCurrentFbId : UInt32
  gShim : Bool
  ledger : Ledger

/-- What `start` finds: the display service and the outcome of `probeDisplay`. -/
structure Provider where
  mobileFramebuffer : Bool
  probeDisplay : Option (UInt32 × UInt32)

namespace IODRMShim

/-- `start`: IOKit zeroes a new object and `bzero` clears the table. -/
def start (p : Provider) : IODRMShim :=
  let size := match p.mobileFramebuffer, p.probeDisplay with
    | true, some size => size
    | _, _ => (1920, 1080)
  { fMobileFramebuffer := p.mobileFramebuffer
    fDisplayWidth := size.1
    fDisplayHeight := size.2
    fBOs := fun _ => {}
    fCurrentFbId := 0
    gShim := true
    ledger := Ledger.empty }

def slot (handle : UInt32) : Fin maxDumbBOs :=
  Fin.ofNat maxDumbBOs (handle.toNat - 1)

def handleOf (i : Fin maxDumbBOs) : UInt32 :=
  UInt32.ofNat (i.val + 1)

def setBO (s : IODRMShim) (i : Fin maxDumbBOs) (bo : DumbBO) : IODRMShim :=
  { s with fBOs := Function.update s.fBOs i bo }

def findBO (s : IODRMShim) (handle : UInt32) : Option (Fin maxDumbBOs) :=
  if handle.toNat = 0 ∨ handle.toNat > maxDumbBOs then none
  else if (s.fBOs (slot handle)).inUse then some (slot handle) else none

/-- The loop of `allocHandle`: the first slot that is not in use. -/
def freeSlot (s : IODRMShim) : Option (Fin maxDumbBOs) :=
  Fin.find? fun i => !(s.fBOs i).inUse

def allocHandle (s : IODRMShim) : UInt32 :=
  match s.freeSlot with
  | some i => handleOf i
  | none => 0

/-- The rows that the loop of `blitToDisplay` copies. The source offset is a
32-bit product, the destination offset a 64-bit one. -/
def blitRows (bo : DumbBO) (surface : DisplaySurface) : List RowCopy :=
  let copyH := if bo.height < surface.height then bo.height else surface.height
  let copyWBytes :=
    if bo.pitch.toUInt64 < surface.stride then bo.pitch else surface.stride.toUInt32
  (List.range copyH.toNat).map fun y =>
    { src := UInt32.ofNat y * bo.pitch
      dst := UInt64.ofNat y * surface.stride
      len := copyWBytes }

/-- The outcome of a blit; `none` is `kIOReturnError`. -/
def blitToDisplay (s : IODRMShim) (bo : DumbBO) (surface : Option DisplaySurface) :
    Option (List RowCopy) :=
  if !s.fMobileFramebuffer then some []
  else surface.map (blitRows bo)

def ioctlSetcrtc (s : IODRMShim) (req : DrmModeCrtc) (surface : Option DisplaySurface) :
    IODRMShim × Reply :=
  if req.fbId = 0 then (s, { errno := .success, data := .setCrtc req })
  else match s.findBO req.fbId with
    | none => (s, { errno := .einval, data := .setCrtc req })
    | some i =>
        let s' := { s with fCurrentFbId := req.fbId }
        match s.blitToDisplay (s.fBOs i) surface with
        | some rows => (s', { errno := .success, data := .setCrtc req, rows := rows })
        | none => (s', { errno := .eio, data := .setCrtc req })

/-- The pitch of `ioctl_create_dumb`: two 32-bit roundings of a 32-bit product. -/
def dumbPitch (width bpp : UInt32) : UInt32 :=
  let pitch := (width * bpp + 7) / 8
  (pitch + 63) &&& ~~~63

def dumbBpp (bpp : UInt32) : UInt32 :=
  if bpp ≠ 0 then bpp else 32

/-- The slot as `ioctl_create_dumb` fills it before it asks for memory. -/
def fillBO (bo : DumbBO) (handle : UInt32) (req : DrmModeCreateDumb) : DumbBO :=
  let pitch := dumbPitch req.width (dumbBpp req.bpp)
  { bo with
    handle := handle
    width := req.width
    height := req.height
    bpp := dumbBpp req.bpp
    pitch := pitch
    size := pitch.toUInt64 * req.height.toUInt64
    inUse := true }

def ioctlCreateDumb (s : IODRMShim) (req : DrmModeCreateDumb) (mem : Option Mapping) :
    IODRMShim × Reply :=
  let handle := s.allocHandle
  if handle = 0 then (s, { errno := .enomem, data := .createDumb req })
  else
    let bo := fillBO (s.fBOs (slot handle)) handle req
    match mem with
    | none =>
        (s.setBO (slot handle) { bo with mem := none, inUse := false },
          { errno := .enomem, data := .createDumb req })
    | some m =>
        ({ s.setBO (slot handle)
            { bo with
              mem := some s.ledger.allocated
              virtAddr := m.virtAddr
              physAddr := m.physAddr } with
            ledger := s.ledger.acquire },
          { errno := .success
            data := .createDumb
              { req with handle := handle, pitch := bo.pitch, size := bo.size } })

def ioctlMapDumb (s : IODRMShim) (req : DrmModeMapDumb) : Reply :=
  match s.findBO req.handle with
  | none => { errno := .einval, data := .mapDumb req }
  | some _ =>
      { errno := .success
        data := .mapDumb { req with offset := req.handle.toUInt64 <<< 22 } }

def driverName : String := "iomobilefb-drm"

def driverDesc : String := "LunaOS IOMobileFramebuffer DRM shim (arm64)"

/-- `sizeof` of a character array that a string literal initialises. -/
def sizeofText (s : String) : UInt64 :=
  UInt64.ofNat (s.length + 1)

def ioctlVersion (v : DrmVersion) : Reply :=
  { errno := .success
    data := .version { v with
      versionMajor := 1
      versionMinor := 0
      versionPatchlevel := 0
      nameLen := sizeofText driverName
      descLen := sizeofText driverDesc }
    copyouts :=
      (if v.name ≠ 0 ∧ v.nameLen ≥ sizeofText driverName then
        [.text v.name driverName] else []) ++
      (if v.desc ≠ 0 ∧ v.descLen ≥ sizeofText driverDesc then
        [.text v.desc driverDesc] else []) }

def ioctlGetresources (s : IODRMShim) (res : DrmModeCardRes) : Reply :=
  { errno := .success
    data := .getResources { res with
      countCrtcs := 1
      countConnectors := 1
      countEncoders := 1
      countFbs := 0
      minWidth := 1
      maxWidth := s.fDisplayWidth
      minHeight := 1
      maxHeight := s.fDisplayHeight }
    copyouts :=
      (if res.crtcIdPtr ≠ 0 ∧ res.countCrtcs ≥ 1 then [.word res.crtcIdPtr 1] else []) ++
      (if res.connectorIdPtr ≠ 0 ∧ res.countConnectors ≥ 1 then
        [.word res.connectorIdPtr 1] else []) ++
      (if res.encoderIdPtr ≠ 0 ∧ res.countEncoders ≥ 1 then
        [.word res.encoderIdPtr 1] else []) }

def nativeMode (s : IODRMShim) : DrmModeInfo :=
  { hdisplay := s.fDisplayWidth.toUInt16
    vdisplay := s.fDisplayHeight.toUInt16
    vrefresh := 60
    clock := s.fDisplayWidth * s.fDisplayHeight * 60 / 1000
    flags := 0
    type := (1 : UInt32) <<< 3 ||| (1 : UInt32) <<< 0
    name := s!"{s.fDisplayWidth}x{s.fDisplayHeight}" }

def ioctlGetconnector (s : IODRMShim) (conn : DrmModeGetConnector) : Reply :=
  let conn' := { conn with
    connection := 1
    encoderId := 1
    connectorType := 14
    connectorTypeId := 1
    mmWidth := s.fDisplayWidth * 25400 / 220
    mmHeight := s.fDisplayHeight * 25400 / 220
    subpixel := 1
    countModes := 1 }
  if conn.countModes = 0 then { errno := .success, data := .getConnector conn' }
  else
    { errno := .success
      data := .getConnector conn'
      copyouts := [.mode conn.modesPtr s.nativeMode] }

def ioctlGetencoder (enc : DrmModeGetEncoder) : Reply :=
  { errno := .success
    data := .getEncoder { enc with encoderType := 2, crtcId := 1, possibleCrtcs := 1 } }

def ioctlGetcrtc (s : IODRMShim) (crtc : DrmModeCrtc) : Reply :=
  { errno := .success
    data := .getCrtc { crtc with
      fbId := s.fCurrentFbId
      modeValid := 1
      mode := { crtc.mode with
        hdisplay := s.fDisplayWidth.toUInt16
        vdisplay := s.fDisplayHeight.toUInt16
        vrefresh := 60 } } }

def ioctlAddfb (fb : DrmModeFbCmd) : Reply :=
  { errno := .success, data := .addFb { fb with fbId := fb.handle } }

/-- The table update of `ioctl_gem_close`. -/
def closeBO (s : IODRMShim) (handle : UInt32) : IODRMShim :=
  match s.findBO handle with
  | none => s
  | some i =>
      let bo := s.fBOs i
      match bo.mem with
      | some d =>
          { s.setBO i { bo with mem := none, inUse := false } with
            ledger := s.ledger.release d }
      | none => s.setBO i { bo with inUse := false }

def ioctlGemClose (s : IODRMShim) (req : DrmGemClose) : IODRMShim × Reply :=
  (s.closeBO req.handle, { errno := .success, data := .gemClose req })

/-- `ioctl_destroy_dumb` passes its argument to `ioctl_gem_close`, which reads
the first word as the handle. -/
def ioctlDestroyDumb (s : IODRMShim) (req : DrmModeDestroyDumb) : IODRMShim × Reply :=
  ((s.ioctlGemClose { handle := req.handle, pad := 0 }).1,
    { errno := .success, data := .destroyDumb req })

def drmIoctl (s : IODRMShim) (c : Call) : IODRMShim × Reply :=
  if !s.gShim then (s, { errno := .enxio, data := c.data })
  else match c.data with
    | .version v => (s, ioctlVersion v)
    | .getResources res => (s, s.ioctlGetresources res)
    | .getConnector conn => (s, s.ioctlGetconnector conn)
    | .getEncoder enc => (s, ioctlGetencoder enc)
    | .getCrtc crtc => (s, s.ioctlGetcrtc crtc)
    | .setCrtc req => s.ioctlSetcrtc req c.surface
    | .addFb fb => (s, ioctlAddfb fb)
    | .createDumb req => s.ioctlCreateDumb req c.mem
    | .mapDumb req => (s, s.ioctlMapDumb req)
    | .destroyDumb req => s.ioctlDestroyDumb req
    | .gemClose req => s.ioctlGemClose req
    | .other cmd => (s, { errno := .enotty, data := .other cmd })

/-- `stop` releases the descriptors of the slots in use and clears `gShim`. -/
def stop (s : IODRMShim) : IODRMShim :=
  { s with
    gShim := false
    ledger := s.ledger.releaseHeld
      (fun i => if (s.fBOs i).inUse then (s.fBOs i).mem else none)
      (List.finRange maxDumbBOs) }

/-- One `drm_ioctl` call as a step of the kext; every call is possible in every
state. -/
def step (s : IODRMShim) (c : Call) : Option IODRMShim :=
  some (s.drmIoctl c).1

end IODRMShim
end LunaOS.Drm
