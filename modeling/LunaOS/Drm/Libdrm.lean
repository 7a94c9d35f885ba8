import LunaOS.Drm.Pitch
import LunaOS.Lib.Dialogues

/-!
The library over the device, `drm-shim/user/libdrm-darwin.c`. A function is a dialogue
with the kext, one ioctl after the other; what it returns to its caller is one of the
forms of `Returned`, where `success` is 0 and any other code its negation. The arrays of
`drmModeGetResources` and `drmModeGetConnector` are where the host allocator put them, an
address that is part of the call, and what they hold is what the kext copied there.

Left out: the messages on stderr, `drmOpen`, `drmClose` and `mmap`, the functions that
free, an ioctl that fails before it reaches the kext, and a null record of
`drmModeGetResources` or `drmModeGetConnector`, which is written to all the same.
-/
namespace LunaOS.Libdrm
open Drm Dialogues

def drmIoctlModeRmfb : UInt64 := 0xC00464AF

/-- `DRM_IOCTL_PRIME_HANDLE_TO_FD`, with the structure of the library's header. -/
def drmIoctlPrimeHandleToFd : UInt64 := 0xC010642D

def drmIoctlPrimeFdToHandle : UInt64 := 0xC010642E

def drmCapDumbBuffer : UInt64 := 0x1
def drmCapPrime : UInt64 := 0x5
def drmCapTimestampMonotonic : UInt64 := 0x6
def drmCapAddfb2Modifiers : UInt64 := 0x10
def drmPrimeCapExport : UInt64 := 0x2

/-- The fields of `drmModeRes` that are set; a null pointer is `none`. -/
structure DrmModeRes where
  countCrtcs : Int32
  countConnectors : Int32
  countEncoders : Int32
  crtcs : Option (List UInt32)
  connectors : Option (List UInt32)
  encoders : Option (List UInt32)
  minWidth : UInt32
  maxWidth : UInt32
  minHeight : UInt32
  maxHeight : UInt32

/-- The fields of `drmModeConnector` that are set. -/
structure DrmModeConnector where
  connectorId : UInt32
  encoderId : UInt32
  connectorType : UInt32
  connection : UInt32
  mmWidth : UInt32
  mmHeight : UInt32
  countModes : Int32
  modes : Option (List DrmModeInfo)

/-- The fields of `drmModeEncoder` that are set. -/
structure DrmModeEncoder where
  encoderId : UInt32
  encoderType : UInt32
  crtcId : UInt32
  possibleCrtcs : UInt32

/-- The fields of `drmModeCrtc` that are set. -/
structure DrmModeCrtcInfo where
  crtcId : UInt32
  bufferId : UInt32
  modeValid : Int32
  mode : DrmModeInfo

/-- Where `calloc` put the three arrays of `drmModeGetResources`; 0 where it failed. -/
structure ResArrays where
  crtcs : UInt64
  connectors : UInt64
  encoders : UInt64

inductive Returned where
  | code (errno : Errno)
  | buffer (b : Except Errno DumbBuffer)
  | offset (o : Except Errno UInt64)
  | framebuffer (id : Except Errno UInt32)
  | cap (errno : Errno) (value : UInt64)
  | version (errno : Errno) (ver : DrmVersion) (texts : List Copyout)
  | resources (r : Option DrmModeRes)
  | connector (c : Option DrmModeConnector)
  | encoder (e : Option DrmModeEncoder)
  | crtc (c : Option DrmModeCrtcInfo)

abbrev Program : Type := Dialogue Call Reply Returned

/-- `ioctl(..) < 0 ? -errno : 0`. -/
def ioctlCode (c : Call) : Program :=
  .ask c fun r => .done (.code r.errno)

/-! Version and capabilities. -/

def drmGetVersion (ver : DrmVersion) : Program :=
  .ask ⟨.version ver, none, none⟩ fun r =>
    match r.data with
    | .version ver => .done (.version r.errno ver r.copyouts)
    | _ => .done (.version r.errno ver r.copyouts)

def drmGetCap (capability : UInt64) : Program :=
  if capability = drmCapDumbBuffer then .done (.cap .success 1)
  else if capability = drmCapPrime then .done (.cap .success drmPrimeCapExport)
  else if capability = drmCapTimestampMonotonic then .done (.cap .success 1)
  else if capability = drmCapAddfb2Modifiers then .done (.cap .success 0)
  else .done (.cap .einval 0)

/-! Dumb buffers. -/

/-- `drmModeCreateDumbBuffer`, where the kext may get `mem` for the buffer. -/
def createDumbBuffer (width height bpp flags : UInt32) (mem : Option Mapping) : Program :=
  .ask ⟨.createDumb (createDumbRequest width height bpp flags), mem, none⟩ fun r =>
    .done (.buffer (createdBuffer r))

def mappedOffset (r : Reply) : Except Errno UInt64 :=
  match r.errno, r.data with
  | .success, .mapDumb req => .ok req.offset
  | errno, _ => .error errno

def drmModeMapDumbBuffer (handle : UInt32) : Program :=
  .ask ⟨.mapDumb { handle := handle }, none, none⟩ fun r => .done (.offset (mappedOffset r))

def drmModeDestroyDumbBuffer (handle : UInt32) : Program :=
  ioctlCode ⟨.destroyDumb { handle := handle }, none, none⟩

def drmCloseBufferHandle (handle : UInt32) : Program :=
  ioctlCode ⟨.gemClose { handle := handle, pad := 0 }, none, none⟩

/-! Sharing: the commands have no handler, so that there is nothing to read. -/

def drmPrimeHandleToFd (_handle _flags : UInt32) : Program :=
  ioctlCode ⟨.other drmIoctlPrimeHandleToFd, none, none⟩

def drmPrimeFdToHandle (_primeFd : Int32) : Program :=
  ioctlCode ⟨.other drmIoctlPrimeFdToHandle, none, none⟩

/-! Resources. -/

/-- A copy to the array of `count` words at `addr`. -/
def putWord (addr : UInt64) (count : UInt32) (a : List UInt32) : Copyout → List UInt32
  | .word dst w =>
      if (dst - addr).toNat < 4 * count.toNat then a.set ((dst - addr).toNat / 4) w else a
  | _ => a

/-- An array of `count` words at `addr`, zeroed by `calloc`, after the copies to it. -/
def wordsAt (addr : UInt64) (count : UInt32) (outs : List Copyout) : List UInt32 :=
  outs.foldl (putWord addr count) (List.replicate count.toNat 0)

/-- The pointer that `calloc` returned, if it was called, with what it points to in the
end. -/
def array (addr : UInt64) (count : UInt32) (outs : List Copyout) : Option (List UInt32) :=
  if count > 0 ∧ addr ≠ 0 then some (wordsAt addr count outs) else none

/-- `res` with the pointers of the arrays that are needed. -/
def withArrays (res : DrmModeCardRes) (at' : ResArrays) : DrmModeCardRes :=
  { res with
    crtcIdPtr := if res.countCrtcs > 0 then at'.crtcs else res.crtcIdPtr
    connectorIdPtr := if res.countConnectors > 0 then at'.connectors else res.connectorIdPtr
    encoderIdPtr := if res.countEncoders > 0 then at'.encoders else res.encoderIdPtr }

/-- The record that is returned: the counts are those of the first ioctl, the arrays what
the second one left in them. -/
def resourcesOf (res : DrmModeCardRes) (at' : ResArrays) (outs : List Copyout) : DrmModeRes :=
  { countCrtcs := res.countCrtcs.toInt32
    countConnectors := res.countConnectors.toInt32
    countEncoders := res.countEncoders.toInt32
    crtcs := array at'.crtcs res.countCrtcs outs
    connectors := array at'.connectors res.countConnectors outs
    encoders := array at'.encoders res.countEncoders outs
    minWidth := res.minWidth
    maxWidth := res.maxWidth
    minHeight := res.minHeight
    maxHeight := res.maxHeight }

def noResources : DrmModeCardRes :=
  ⟨0, 0, 0, 0, 0, 0, 0, 0, 0, 0, 0, 0⟩

def drmModeGetResources (at' : ResArrays) : Program :=
  .ask ⟨.getResources noResources, none, none⟩ fun r =>
    match r.errno, r.data with
    | .success, .getResources res =>
        .ask ⟨.getResources (withArrays res at'), none, none⟩ fun r' =>
          .done (.resources (some (resourcesOf res at' r'.copyouts)))
    | _, _ => .done (.resources none)

/-! Connectors, encoders and the CRTC. -/

def modeSize : Nat := 68

def modesAt (addr : UInt64) (count : UInt32) (outs : List Copyout) : List DrmModeInfo :=
  outs.foldl
    (fun a out => match out with
      | .mode dst m =>
          if (dst - addr).toNat < modeSize * count.toNat then
            a.set ((dst - addr).toNat / modeSize) m
          else a
      | _ => a)
    (List.replicate count.toNat {})

def connectorRequest (id : UInt32) : DrmModeGetConnector :=
  ⟨0, 0, 0, 0, 0, 0, 0, 0, id, 0, 0, 0, 0, 0, 0, 0⟩

/-- The record from the first reply, with the modes and the encoder of the last one. -/
def connectorOf (id : UInt32) (first last : DrmModeGetConnector)
    (modes : Option (List DrmModeInfo)) : DrmModeConnector :=
  { connectorId := id
    encoderId := last.encoderId
    connectorType := first.connectorType
    connection := first.connection
    mmWidth := first.mmWidth
    mmHeight := first.mmHeight
    countModes := first.countModes.toInt32
    modes := modes }

/-- `drmModeGetConnector`, where `calloc` put the modes at `addr`. -/
def drmModeGetConnector (id : UInt32) (addr : UInt64) : Program :=
  .ask ⟨.getConnector (connectorRequest id), none, none⟩ fun r =>
    match r.errno, r.data with
    | .success, .getConnector req =>
        if req.countModes > 0 then
          .ask ⟨.getConnector { req with modesPtr := addr }, none, none⟩ fun r' =>
            let modes :=
              if addr ≠ 0 then some (modesAt addr req.countModes r'.copyouts) else none
            match r'.data with
            | .getConnector last => .done (.connector (some (connectorOf id req last modes)))
            | _ => .done (.connector (some (connectorOf id req req modes)))
        else .done (.connector (some (connectorOf id req req none)))
    | _, _ => .done (.connector none)

def drmModeGetEncoder (id : UInt32) : Program :=
  .ask ⟨.getEncoder ⟨id, 0, 0, 0, 0⟩, none, none⟩ fun r =>
    match r.errno, r.data with
    | .success, .getEncoder req =>
        .done (.encoder (some ⟨id, req.encoderType, req.crtcId, req.possibleCrtcs⟩))
    | _, _ => .done (.encoder none)

def drmModeGetCrtc (id : UInt32) : Program :=
  .ask ⟨.getCrtc { crtcId := id }, none, none⟩ fun r =>
    match r.errno, r.data with
    | .success, .getCrtc req =>
        .done (.crtc (some ⟨id, req.fbId, req.modeValid.toInt32, req.mode⟩))
    | _, _ => .done (.crtc none)

/-- `drmModeSetCrtc`, where the kext may get the display surface. -/
def drmModeSetCrtc (crtcId fbId x y : UInt32) (connectors : UInt64) (count : Int32)
    (mode : Option DrmModeInfo) (surface : Option DisplaySurface) : Program :=
  ioctlCode
    ⟨.setCrtc
      { crtcId := crtcId
        fbId := fbId
        x := x
        y := y
        setConnectorsPtr := connectors
        countConnectors := count.toUInt32
        modeValid := if mode.isSome then 1 else 0
        mode := mode.getD {} }, none, surface⟩

/-! Framebuffers. -/

def addedFb (r : Reply) : Except Errno UInt32 :=
  match r.errno, r.data with
  | .success, .addFb req => .ok req.fbId
  | errno, _ => .error errno

def drmModeAddFb (width height : UInt32) (depth bpp : UInt8) (pitch boHandle : UInt32) :
    Program :=
  .ask ⟨.addFb ⟨0, width, height, pitch, bpp.toUInt32, depth.toUInt32, boHandle⟩, none, none⟩
    fun r => .done (.framebuffer (addedFb r))

def drmModeRmFb (_bufId : UInt32) : Program :=
  ioctlCode ⟨.other drmIoctlModeRmfb, none, none⟩

/-- A call of the library, with what the kext and the allocator get during it. -/
inductive Api where
  | getVersion (ver : DrmVersion)
  | getCap (capability : UInt64)
  | createDumbBuffer (width height bpp flags : UInt32) (mem : Option Mapping)
  | mapDumbBuffer (handle : UInt32)
  | destroyDumbBuffer (handle : UInt32)
  | closeBufferHandle (handle : UInt32)
  | primeHandleToFd (handle flags : UInt32)
  | primeFdToHandle (primeFd : Int32)
  | getResources (at' : ResArrays)
  | getConnector (id : UInt32) (addr : UInt64)
  | getEncoder (id : UInt32)
  | getCrtc (id : UInt32)
  | setCrtc (crtcId fbId x y : UInt32) (connectors : UInt64) (count : Int32)
      (mode : Option DrmModeInfo) (surface : Option DisplaySurface)
  | addFb (width height : UInt32) (depth bpp : UInt8) (pitch boHandle : UInt32)
  | rmFb (bufId : UInt32)

def program : Api → Program
  | .getVersion ver => drmGetVersion ver
  | .getCap capability => drmGetCap capability
  | .createDumbBuffer width height bpp flags mem => createDumbBuffer width height bpp flags mem
  | .mapDumbBuffer handle => drmModeMapDumbBuffer handle
  | .destroyDumbBuffer handle => drmModeDestroyDumbBuffer handle
  | .closeBufferHandle handle => drmCloseBufferHandle handle
  | .primeHandleToFd handle flags => drmPrimeHandleToFd handle flags
  | .primeFdToHandle primeFd => drmPrimeFdToHandle primeFd
  | .getResources at' => drmModeGetResources at'
  | .getConnector id addr => drmModeGetConnector id addr
  | .getEncoder id => drmModeGetEncoder id
  | .getCrtc id => drmModeGetCrtc id
  | .setCrtc crtcId fbId x y connectors count mode surface =>
      drmModeSetCrtc crtcId fbId x y connectors count mode surface
  | .addFb width height depth bpp pitch boHandle =>
      drmModeAddFb width height depth bpp pitch boHandle
  | .rmFb bufId => drmModeRmFb bufId

end LunaOS.Libdrm
