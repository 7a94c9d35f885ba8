import LunaOS.Drm.Shim

/-!
Buffer objects of the GBM library, `graphics/include/darwin-gbm.c`. A GBM
function is a sequence of ioctls with computations between them; each piece is a
definition of its own, so that one client can be followed alone or the ioctls of
several clients can be interleaved. User data and the host allocator are left
out.
-/
namespace LunaOS.Gbm
open Drm

structure GbmBo where
  width : UInt32
  height : UInt32
  stride : UInt32 := 0
  format : UInt32
  flags : UInt32
  modifier : UInt64 := 0
  gemHandle : UInt32 := 0
  mapOffset : UInt64 := 0
  size : UInt64 := 0

/-- `fmt_bpp`: both arms of the source answer 32. -/
def fmtBpp (_fmt : UInt32) : UInt32 := 32

def alignUp (x a : UInt32) : UInt32 :=
  (x + a - 1) &&& ~~~(a - 1)

/-- The CREATE_DUMB request of `alloc_bo`. -/
def allocRequest (w h fmt : UInt32) : DrmModeCreateDumb :=
  { width := w
    height := h
    bpp := fmtBpp fmt
    pitch := alignUp ((w * fmtBpp fmt + 7) / 8) 64 }

/-- The buffer object after CREATE_DUMB has answered `req`. -/
def boCreated (w h fmt flags : UInt32) (req : DrmModeCreateDumb) : GbmBo :=
  { width := w
    height := h
    format := fmt
    flags := flags
    gemHandle := req.handle
    stride := req.pitch
    size := req.size }

/-- The buffer object after the MAP_DUMB of `alloc_bo`, which may fail. -/
def boMapped (bo : GbmBo) (r : Reply) : GbmBo :=
  match r.errno, r.data with
  | .success, .mapDumb mreq => { bo with mapOffset := mreq.offset }
  | _, _ => bo

@[simp] theorem boMapped_gemHandle (bo : GbmBo) (r : Reply) :
    (boMapped bo r).gemHandle = bo.gemHandle := by
  unfold boMapped
  split <;> rfl

@[simp] theorem boMapped_stride (bo : GbmBo) (r : Reply) :
    (boMapped bo r).stride = bo.stride := by
  unfold boMapped
  split <;> rfl

end LunaOS.Gbm
