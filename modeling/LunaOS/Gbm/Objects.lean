import LunaOS.Drm.Refinement
import LunaOS.Gbm.Bo
import LunaOS.Lib.Custody
import Mathlib.Data.Fin.VecNotation

/-!
One client of the GBM library that calls its functions one after the other,
`graphics/include/darwin-gbm.c`. The system behind it is the kext and the client's
address space; `ops` lists what `mmap` and `munmap` did to that. An ioctl may fail
before it reaches the kext, an allocation in the kext and an `mmap` whenever the system
likes. A client destroys an object that it has, so each at most once; the two buffer
objects of a surface are destroyed with it.

Left out: the host allocator, which succeeds, user data, the device record and what the
getters return.
-/
namespace LunaOS.Gbm
open Drm Custody

/-- A mapping, as `munmap` takes it. -/
abbrev Mapped : Type := UInt64 × UInt64

/-- `struct gbm_bo` with its field `map`; no mapping is at address 0. -/
structure HostBo extends GbmBo where
  map : Option UInt64 := none

def HostBo.mapped (bo : HostBo) : Option Mapped :=
  bo.map.map fun addr => (addr, bo.size)

/-- `struct gbm_surface`. `front` is -1 until the first lock. -/
structure GbmSurface where
  width : UInt32
  height : UInt32
  format : UInt32
  flags : UInt32
  bos : Fin 2 → HostBo
  front : Option (Fin 2) := none
  locked : Bool := false

/-- The two buffer objects of a surface. -/
def GbmSurface.pair (s : GbmSurface) : List HostBo :=
  [s.bos 0, s.bos 1]

namespace GbmSurface

def lockFrontBuffer (s : GbmSurface) : GbmSurface × Fin 2 :=
  let back := s.front.elim 0 fun front => 1 - front
  ({ s with front := some back, locked := true }, back)

def releaseBuffer (s : GbmSurface) (_b : Fin 2) : GbmSurface :=
  { s with locked := false }

def hasFreeBuffers (s : GbmSurface) : Bool :=
  !s.locked

end GbmSurface

abbrev gbmBoUseScanout : UInt32 := 1

abbrev gbmBoUseRendering : UInt32 := 4

/-- How the two ioctls of `alloc_bo` turn out: whether they reach the kext, and what
the kext gets when it asks for memory. -/
structure AllocOutcome where
  createReaches : Bool := true
  mem : Option Mapping
  mapReaches : Bool := true

structure Kernel where
  shim : IODRMShim
  ops : List (Op Mapped) := []

namespace Kernel

def ioctl (k : Kernel) (data : Data) (mem : Option Mapping) : Kernel × Reply :=
  ({ k with shim := (k.shim.drmIoctl ⟨data, mem, none⟩).1 },
    (k.shim.drmIoctl ⟨data, mem, none⟩).2)

def allocBo (k : Kernel) (w h fmt flags : UInt32) (o : AllocOutcome) :
    Kernel × Option HostBo :=
  if !o.createReaches then (k, none)
  else
    let r := k.ioctl (.createDumb (allocRequest w h fmt)) o.mem
    match r.2.errno, r.2.data with
    | .success, .createDumb req =>
        let bo := boCreated w h fmt flags req
        if !o.mapReaches then (r.1, some { bo with map := none })
        else
          let m := r.1.ioctl (.mapDumb { handle := bo.gemHandle }) none
          (m.1, some { boMapped bo m.2 with map := none })
    | _, _ => (r.1, none)

def gbmBoCreate (k : Kernel) (w h fmt flags : UInt32) (o : AllocOutcome) :
    Kernel × Option HostBo :=
  k.allocBo w h fmt flags o

def gbmBoCreateWithModifiers (k : Kernel) (w h fmt : UInt32) (o : AllocOutcome) :
    Kernel × Option HostBo :=
  k.allocBo w h fmt gbmBoUseRendering o

def gbmBoCreateWithModifiers2 (k : Kernel) (w h fmt _fl : UInt32) (o : AllocOutcome) :
    Kernel × Option HostBo :=
  k.gbmBoCreateWithModifiers w h fmt o

def munmap (k : Kernel) (m : Mapped) : Kernel :=
  { k with ops := k.ops ++ [.release m] }

def gbmBoDestroy (k : Kernel) (bo : HostBo) : Kernel :=
  let k := match bo.mapped with
    | some m => k.munmap m
    | none => k
  let k := (k.ioctl (.destroyDumb { handle := bo.gemHandle }) none).1
  (k.ioctl (.gemClose { handle := bo.gemHandle, pad := 0 }) none).1

/-- `gbm_bo_map`; `result` is what `mmap` returns if it is called. A length of 0 is
refused, and what is mapped already is not returned again. -/
def gbmBoMap (k : Kernel) (bo : HostBo) (result : Option UInt64) : Option (Kernel × HostBo) :=
  match bo.map, result with
  | some _, _ => some (k, bo)
  | none, none => some (k, bo)
  | none, some addr =>
      if addr ≠ 0 ∧ bo.size ≠ 0 ∧ ¬ Custody.Owned k.ops (addr, bo.size) then
        some ({ k with ops := k.ops ++ [.acquire (addr, bo.size)] },
          { bo with map := some addr })
      else none

def gbmSurfaceCreate (k : Kernel) (w h fmt fl : UInt32) (o : Fin 2 → AllocOutcome) :
    Kernel × Option GbmSurface :=
  let first := k.allocBo w h fmt fl (o 0)
  match first.2 with
  | none => (first.1, none)
  | some bo =>
      let second := first.1.allocBo w h fmt fl (o 1)
      match second.2 with
      | none => (second.1.gbmBoDestroy bo, none)
      | some bo' =>
          (second.1, some
            { width := w, height := h, format := fmt, flags := fl, bos := ![bo, bo'] })

def gbmSurfaceCreateWithModifiers (k : Kernel) (w h fmt : UInt32)
    (o : Fin 2 → AllocOutcome) : Kernel × Option GbmSurface :=
  k.gbmSurfaceCreate w h fmt (gbmBoUseRendering ||| gbmBoUseScanout) o

def gbmSurfaceCreateWithModifiers2 (k : Kernel) (w h fmt _fl : UInt32)
    (o : Fin 2 → AllocOutcome) : Kernel × Option GbmSurface :=
  k.gbmSurfaceCreateWithModifiers w h fmt o

def gbmSurfaceDestroy (k : Kernel) (s : GbmSurface) : Kernel :=
  (k.gbmBoDestroy (s.bos 0)).gbmBoDestroy (s.bos 1)

end Kernel

/-- The client: the buffer objects and the surfaces that it has. -/
structure Host where
  kernel : Kernel
  bos : List HostBo := []
  surfaces : List GbmSurface := []

/-- A call of the client; objects are named by their place in its lists. -/
inductive GbmCall where
  | boCreate (w h fmt flags : UInt32) (o : AllocOutcome)
  | boCreateWithModifiers (w h fmt : UInt32) (o : AllocOutcome)
  | boCreateWithModifiers2 (w h fmt fl : UInt32) (o : AllocOutcome)
  | boMap (n : Nat) (result : Option UInt64)
  | surfaceBoMap (n : Nat) (side : Fin 2) (result : Option UInt64)
  | boDestroy (n : Nat)
  | surfaceCreate (w h fmt fl : UInt32) (o : Fin 2 → AllocOutcome)
  | surfaceCreateWithModifiers (w h fmt : UInt32) (o : Fin 2 → AllocOutcome)
  | surfaceCreateWithModifiers2 (w h fmt fl : UInt32) (o : Fin 2 → AllocOutcome)
  | surfaceDestroy (n : Nat)

namespace Host

def start (p : Provider) : Host :=
  { kernel := { shim := IODRMShim.start p } }

/-- The client keeps a buffer object that it was given. -/
def keepBo (s : Host) (r : Kernel × Option HostBo) : Host :=
  { s with kernel := r.1, bos := r.2.toList ++ s.bos }

def keepSurface (s : Host) (r : Kernel × Option GbmSurface) : Host :=
  { s with kernel := r.1, surfaces := r.2.toList ++ s.surfaces }

def step (s : Host) : GbmCall → Option Host
  | .boCreate w h fmt flags o => some (s.keepBo (s.kernel.gbmBoCreate w h fmt flags o))
  | .boCreateWithModifiers w h fmt o =>
      some (s.keepBo (s.kernel.gbmBoCreateWithModifiers w h fmt o))
  | .boCreateWithModifiers2 w h fmt fl o =>
      some (s.keepBo (s.kernel.gbmBoCreateWithModifiers2 w h fmt fl o))
  | .boMap n result =>
      s.bos[n]?.bind fun bo => (s.kernel.gbmBoMap bo result).map fun r =>
        { s with kernel := r.1, bos := s.bos.set n r.2 }
  | .surfaceBoMap n side result =>
      s.surfaces[n]?.bind fun surface =>
        (s.kernel.gbmBoMap (surface.bos side) result).map fun r =>
          { s with
            kernel := r.1
            surfaces := s.surfaces.set n
              { surface with bos := Function.update surface.bos side r.2 } }
  | .boDestroy n =>
      s.bos[n]?.map fun bo =>
        { s with kernel := s.kernel.gbmBoDestroy bo, bos := s.bos.eraseIdx n }
  | .surfaceCreate w h fmt fl o =>
      some (s.keepSurface (s.kernel.gbmSurfaceCreate w h fmt fl o))
  | .surfaceCreateWithModifiers w h fmt o =>
      some (s.keepSurface (s.kernel.gbmSurfaceCreateWithModifiers w h fmt o))
  | .surfaceCreateWithModifiers2 w h fmt fl o =>
      some (s.keepSurface (s.kernel.gbmSurfaceCreateWithModifiers2 w h fmt fl o))
  | .surfaceDestroy n =>
      s.surfaces[n]?.map fun surface =>
        { s with
          kernel := s.kernel.gbmSurfaceDestroy surface
          surfaces := s.surfaces.eraseIdx n }

/-- The buffer objects that are not destroyed, the two of each surface among them. -/
def outstanding (s : Host) : List HostBo :=
  s.bos ++ s.surfaces.flatMap GbmSurface.pair

end Host
end LunaOS.Gbm
