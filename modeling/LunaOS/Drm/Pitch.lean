import LunaOS.Drm.Geometry
import LunaOS.Gbm.Objects
import Mathlib.GroupTheory.GroupAction.Ring

/-!
The pitch as it is computed outside of the kext: by libdrm
(`drm-shim/user/libdrm-darwin.c`), by the GBM library and by the patch to the DRM
backend of wlroots. Each rounds the bits of a row up to bytes, and these to 64,
in 32-bit words of its own. The library's pitch goes to the kext with the
request, and the kext answers with the one that it computes.
-/
namespace LunaOS

namespace Libdrm
open Drm

def pitchAlign : UInt32 := 64

def alignUp (x a : UInt32) : UInt32 :=
  (x + a - 1) &&& ~~~(a - 1)

def createDumbRequest (width height bpp flags : UInt32) : DrmModeCreateDumb :=
  let bpp := if bpp ≠ 0 then bpp else 32
  let rawPitch := (width * bpp + 7) / 8
  { height := height
    width := width
    bpp := bpp
    flags := flags
    pitch := alignUp rawPitch pitchAlign }

/-- What `drmModeCreateDumbBuffer` stores for its caller. -/
structure DumbBuffer where
  handle : UInt32
  pitch : UInt32
  size : UInt64

/-- What the reply to the request leaves, or the error that is returned for it. -/
def createdBuffer (r : Reply) : Except Errno DumbBuffer :=
  match r.errno, r.data with
  | .success, .createDumb req => .ok ⟨req.handle, req.pitch, req.size⟩
  | errno, _ => .error errno

/-- `drmModeCreateDumbBuffer` on the kext, which may get memory for the buffer. -/
def drmModeCreateDumbBuffer (s : IODRMShim) (width height bpp flags : UInt32)
    (mem : Option Mapping) : IODRMShim × Except Errno DumbBuffer :=
  let r := s.drmIoctl ⟨.createDumb (createDumbRequest width height bpp flags), mem, none⟩
  (r.1, createdBuffer r.2)

theorem createdBuffer_ok {r : Reply} {b : DumbBuffer} (ok : createdBuffer r = .ok b) :
    ∃ out, r.errno = .success ∧ r.data = .createDumb out ∧ b.pitch = out.pitch := by
  unfold createdBuffer at ok
  split at ok
  next out errno data =>
      cases ok
      exact ⟨out, errno, data, rfl⟩
  next => cases ok

end Libdrm

/-- `darwin_align_pitch` of the patched backend. -/
def darwinAlignPitch (width bpp : UInt32) : UInt32 :=
  let pitch := (width * bpp + 7) / 8
  (pitch + 63) &&& ~~~63

theorem darwinAlignPitch_eq (width bpp : UInt32) :
    darwinAlignPitch width bpp = Drm.IODRMShim.dumbPitch width bpp :=
  rfl

/-- With a constant to round to, the macro is the mask of the others. -/
theorem alignUp_pitchAlign (x : UInt32) :
    Libdrm.alignUp x Libdrm.pitchAlign = (x + 63) &&& ~~~63 := by
  have mask : ~~~(Libdrm.pitchAlign - 1) = ~~~63 := rfl
  have sum : x + Libdrm.pitchAlign - 1 = x + 63 := by
    rw [UInt32.sub_eq_add_neg, UInt32.add_assoc]
    rfl
  rw [Libdrm.alignUp, mask, sum]

namespace Drm.IODRMShim
variable {s : IODRMShim} {req : DrmModeCreateDumb} {mem : Option Mapping}

/-- The pitch is in the slot before the memory is asked for, and stays there if there is none. -/
theorem ioctlCreateDumb_pitch (room : s.allocHandle ≠ 0) (req : DrmModeCreateDumb)
    (mem : Option Mapping) :
    ((s.ioctlCreateDumb req mem).1.fBOs (slot s.allocHandle)).pitch =
      dumbPitch req.width (dumbBpp req.bpp) := by
  rw [ioctlCreateDumb, if_neg room]
  cases mem with
  | none => simp [fillBO]
  | some m => simp [fillBO]

/-- The answer to a request, attached or not, has the pitch that the kext computes. -/
theorem createDumb_reply_pitch {surface : Option DisplaySurface} {out : DrmModeCreateDumb}
    (ok : (s.drmIoctl ⟨.createDumb req, mem, surface⟩).2.errno = .success)
    (data : (s.drmIoctl ⟨.createDumb req, mem, surface⟩).2.data = .createDumb out) :
    out.pitch = dumbPitch req.width (dumbBpp req.bpp) := by
  cases attached : s.gShim with
  | false => simp [drmIoctl, attached] at ok
  | true =>
      rw [drmIoctl_createDumb attached] at ok data
      by_cases room : s.allocHandle = 0
      · rw [ioctlCreateDumb_full room] at ok
        cases ok
      · rw [ioctlCreateDumb, if_neg room] at ok data
        cases mem with
        | none => cases ok
        | some m =>
            obtain rfl := Data.createDumb.inj data
            rfl

/-- What is sent with the default in place of 0 is taken as it is. -/
theorem dumbBpp_dumbBpp (bpp : UInt32) : dumbBpp (dumbBpp bpp) = dumbBpp bpp := by
  by_cases zero : bpp = 0
  · rw [zero]
    rfl
  · have same : dumbBpp bpp = bpp := if_pos zero
    rw [same, same]

/-- Below the word limit neither rounding wraps, nor does the mask. -/
theorem isLeast_dumbPitch {width bpp : UInt32} (small : width.toNat * bpp.toNat + 7 < 2 ^ 32) :
    IsLeast {m | 64 ∣ m ∧ width.toNat * bpp.toNat ⌈/⌉ 8 ≤ m} (dumbPitch width bpp).toNat := by
  have bytes : width.toNat * bpp.toNat ⌈/⌉ 8 = (width.toNat * bpp.toNat + 7) / 8 :=
    Nat.ceilDiv_eq_add_pred_div ..
  rw [toNat_dumbPitch, Nat.mod_eq_of_lt small, bytes]
  exact Align.isLeast_round_up _ 6

end Drm.IODRMShim

/-! The copies. -/

open Drm IODRMShim

theorem Libdrm.createDumbRequest_pitch (width height bpp flags : UInt32) :
    (createDumbRequest width height bpp flags).pitch = dumbPitch width (dumbBpp bpp) :=
  alignUp_pitchAlign _

/-- The GBM library has the same macro. -/
theorem Gbm.allocRequest_pitch (w h fmt : UInt32) :
    (allocRequest w h fmt).pitch = darwinAlignPitch w 32 :=
  alignUp_pitchAlign _

/-- A buffer that libdrm returns has the pitch that was asked for. -/
theorem Libdrm.drmModeCreateDumbBuffer_pitch {s : IODRMShim} {width height bpp flags : UInt32}
    {mem : Option Mapping} {b : DumbBuffer}
    (ok : (drmModeCreateDumbBuffer s width height bpp flags mem).2 = .ok b) :
    b.pitch = (createDumbRequest width height bpp flags).pitch := by
  obtain ⟨out, errno, data, pitch⟩ := createdBuffer_ok ok
  rw [pitch, createDumbRequest_pitch, createDumb_reply_pitch errno data]
  exact congrArg _ (dumbBpp_dumbBpp bpp)

/-- An object comes from an answer to CREATE_DUMB; MAP_DUMB adds no more than the offset. -/
theorem Gbm.Kernel.allocBo_made {k : Kernel} {w h fmt flags : UInt32} {o : AllocOutcome}
    {bo : HostBo} (made : (k.allocBo w h fmt flags o).2 = some bo) :
    ∃ out,
      (k.shim.drmIoctl ⟨.createDumb (allocRequest w h fmt), o.mem, none⟩).2.errno = .success ∧
      (k.shim.drmIoctl ⟨.createDumb (allocRequest w h fmt), o.mem, none⟩).2.data =
        .createDumb out ∧
      bo.stride = out.pitch := by
  unfold allocBo at made
  cases reach : o.createReaches with
  | false => simp [reach] at made
  | true =>
      simp only [reach, Bool.not_true, Bool.false_eq_true, if_false, Kernel.ioctl] at made
      generalize k.shim.drmIoctl ⟨.createDumb (allocRequest w h fmt), o.mem, none⟩ = r
        at made ⊢
      split at made
      next out errno data =>
          refine ⟨out, errno, data, ?_⟩
          cases asked : o.mapReaches with
          | false =>
              simp only [asked, Bool.not_false, if_true] at made
              cases made
              rfl
          | true =>
              simp only [asked, Bool.not_true, Bool.false_eq_true, if_false] at made
              cases made
              exact boMapped_stride _ _
      next => cases made

/-- A buffer object of the GBM library has the pitch that was asked for, too. -/
theorem Gbm.Kernel.allocBo_stride {k : Kernel} {w h fmt flags : UInt32} {o : AllocOutcome}
    {bo : HostBo} (made : (k.allocBo w h fmt flags o).2 = some bo) :
    bo.stride = (allocRequest w h fmt).pitch := by
  obtain ⟨out, errno, data, stride⟩ := allocBo_made made
  rw [stride, allocRequest_pitch, createDumb_reply_pitch errno data]
  rfl

/-- For a depth that is not 0 the kext, libdrm and the backend compute one word, at
32 bits the GBM library too; below the word limit it is the least multiple of 64
that is not below the bytes of a row. What the libraries return is that word. -/
theorem pitch_copies_agree (width bpp : UInt32) (nonzero : bpp ≠ 0) :
    (∀ (s : IODRMShim) (req : DrmModeCreateDumb) (mem : Option Mapping),
      req.width = width → req.bpp = bpp → s.allocHandle ≠ 0 →
      ((s.ioctlCreateDumb req mem).1.fBOs (slot s.allocHandle)).pitch =
        darwinAlignPitch width bpp) ∧
    (∀ height flags,
      (Libdrm.createDumbRequest width height bpp flags).pitch = darwinAlignPitch width bpp ∧
      ∀ s mem b, (Libdrm.drmModeCreateDumbBuffer s width height bpp flags mem).2 = .ok b →
        b.pitch = darwinAlignPitch width bpp) ∧
    (bpp = 32 → ∀ h fmt,
      (Gbm.allocRequest width h fmt).pitch = darwinAlignPitch width bpp ∧
      ∀ (k : Gbm.Kernel) flags o bo, (k.allocBo width h fmt flags o).2 = some bo →
        bo.stride = darwinAlignPitch width bpp) ∧
    (width.toNat * bpp.toNat + 7 < 2 ^ 32 →
      IsLeast {m | 64 ∣ m ∧ width.toNat * bpp.toNat ⌈/⌉ 8 ≤ m}
        (darwinAlignPitch width bpp).toNat) := by
  have given : dumbBpp bpp = bpp := if_pos nonzero
  refine ⟨?_, ?_, ?_, ?_⟩
  · intro s req mem atWidth atBpp room
    rw [ioctlCreateDumb_pitch room, atWidth, atBpp, given, darwinAlignPitch_eq]
  · intro height flags
    have asked : (Libdrm.createDumbRequest width height bpp flags).pitch =
        darwinAlignPitch width bpp := by
      rw [Libdrm.createDumbRequest_pitch, given, darwinAlignPitch_eq]
    refine ⟨asked, ?_⟩
    intro s mem b ok
    exact (Libdrm.drmModeCreateDumbBuffer_pitch ok).trans asked
  · intro depth h fmt
    have asked : (Gbm.allocRequest width h fmt).pitch = darwinAlignPitch width bpp := by
      rw [Gbm.allocRequest_pitch, depth]
    refine ⟨asked, ?_⟩
    intro k flags o bo made
    exact (Gbm.Kernel.allocBo_stride made).trans asked
  · intro small
    rw [darwinAlignPitch_eq]
    exact isLeast_dumbPitch small

/-- A row of 1366 pixels takes 5464 bytes; the kext has no memory for the buffer. -/
theorem pitch_copies_agree_panel :
    (((start ⟨false, none⟩).ioctlCreateDumb { width := 1366, height := 768, bpp := 32 }
      none).1.fBOs (slot (start ⟨false, none⟩).allocHandle)).pitch = 5504 ∧
    (Libdrm.createDumbRequest 1366 768 32 0).pitch = 5504 ∧
    (Gbm.allocRequest 1366 768 0).pitch = 5504 ∧
    IsLeast {m | 64 ∣ m ∧ 5464 ≤ m} 5504 := by
  have word : darwinAlignPitch 1366 32 = 5504 := by decide
  have bytes : (1366 : UInt32).toNat * (32 : UInt32).toNat ⌈/⌉ 8 = 5464 := by decide
  obtain ⟨kext, libdrm, gbm, least⟩ := pitch_copies_agree 1366 32 (by decide)
  rw [word] at kext
  rw [word, bytes] at least
  refine ⟨?_, (libdrm 768 0).1.trans word, (gbm rfl 768 0).1.trans word, least (by decide)⟩
  apply kext
  · rfl
  · rfl
  · rw [allocHandle_first rfl]
    decide

end LunaOS
