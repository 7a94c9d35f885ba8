import LunaOS.Drm.Refinement
import LunaOS.Lib.Align

/-!
The geometry that CREATE_DUMB computes. The pitch is a 32-bit product rounded
twice, the size a 64-bit product that cannot wrap. Over the integers the rows
fit exactly when the bit count of a row, with the 7 of the first rounding, stays
below the word limit; from there on the product wraps and the pitch is short.
-/
namespace LunaOS.Drm
open Slots

theorem toNat_dumbPitch (width bpp : UInt32) :
    (IODRMShim.dumbPitch width bpp).toNat =
      ((width.toNat * bpp.toNat + 7) % 2 ^ 32 / 8 + 63) / 64 * 64 := by
  have mask : (~~~63 : UInt32).toNat = 2 ^ 32 - 2 ^ 6 := by decide
  have raw : ((width * bpp + 7) / 8 + 63).toNat =
      (width.toNat * bpp.toNat + 7) % 2 ^ 32 / 8 + (2 ^ 6 - 1) := by
    simp only [UInt32.toNat_add, UInt32.toNat_div, UInt32.toNat_mul, UInt32.toNat_ofNat,
      Nat.reduceMod, Nat.reducePow]
    omega
  simp only [IODRMShim.dumbPitch, UInt32.toNat_and, mask, raw]
  exact Align.land_round_up (by omega) (by decide)

theorem toNat_dumbBpp (bpp : UInt32) :
    (IODRMShim.dumbBpp bpp).toNat = if bpp = 0 then 32 else bpp.toNat := by
  by_cases h : bpp = 0 <;> simp [IODRMShim.dumbBpp, h]

theorem toNat_size (pitch height : UInt32) :
    (pitch.toUInt64 * height.toUInt64).toNat = pitch.toNat * height.toNat := by
  have small : pitch.toNat * height.toNat < 2 ^ 32 * 2 ^ 32 :=
    Nat.mul_lt_mul'' pitch.toNat_lt height.toNat_lt
  rw [UInt64.toNat_mul, UInt32.toNat_toUInt64, UInt32.toNat_toUInt64]
  exact Nat.mod_eq_of_lt small

/-- A row of `bits` bits fits the rounded pitch exactly below the word limit. -/
theorem row_fits_iff (bits : Nat) :
    bits ≤ 8 * (((bits + 7) % 2 ^ 32 / 8 + 63) / 64 * 64) ↔ bits + 7 < 2 ^ 32 := by
  omega

def rowBits (req : DrmModeCreateDumb) : Nat :=
  req.width.toNat * (if req.bpp = 0 then 32 else req.bpp.toNat)

/-- The reply `out` to `req` describes a buffer that holds the image, and the
live slot of its handle in `s` records the same geometry. -/
structure HoldsImage (s : IODRMShim) (req out : DrmModeCreateDumb) : Prop where
  aligned : 64 ∣ out.pitch.toNat
  row : rowBits req ≤ 8 * out.pitch.toNat
  size_eq : out.size.toNat = out.pitch.toNat * req.height.toNat
  size_ge : req.height.toNat * ((rowBits req + 7) / 8) ≤ out.size.toNat
  recorded : ∃ i, s.findBO out.handle = some i ∧
    (s.fBOs i).pitch = out.pitch ∧ (s.fBOs i).size = out.size

namespace IODRMShim
variable {s : IODRMShim}

theorem createdBO_pitch (s : IODRMShim) (i : Fin maxDumbBOs) (req : DrmModeCreateDumb)
    (m : Mapping) : (s.createdBO i req m).pitch.toNat =
      ((rowBits req + 7) % 2 ^ 32 / 8 + 63) / 64 * 64 := by
  simp only [createdBO, fillBO, toNat_dumbPitch, toNat_dumbBpp, rowBits]

theorem createdBO_size (s : IODRMShim) (i : Fin maxDumbBOs) (req : DrmModeCreateDumb)
    (m : Mapping) : (s.createdBO i req m).size.toNat =
      (s.createdBO i req m).pitch.toNat * req.height.toNat := by
  simp only [createdBO, fillBO, toNat_size]

theorem createdBO_holdsImage_iff (s : IODRMShim) (i : Fin maxDumbBOs)
    (req : DrmModeCreateDumb) (m : Mapping) :
    HoldsImage { s.setBO i (s.createdBO i req m) with ledger := s.ledger.acquire } req
        { req with
          handle := handleOf i
          pitch := (s.createdBO i req m).pitch
          size := (s.createdBO i req m).size } ↔
      rowBits req + 7 < 2 ^ 32 := by
  have pitch := createdBO_pitch s i req m
  constructor
  · intro holds
    have row := holds.row
    rw [pitch] at row
    exact (row_fits_iff (rowBits req)).mp row
  · intro small
    have row : rowBits req ≤ 8 * (s.createdBO i req m).pitch.toNat := by
      rw [pitch]
      exact (row_fits_iff (rowBits req)).mpr small
    refine ⟨?_, row, createdBO_size s i req m, ?_, i, ?_, ?_, ?_⟩
    · rw [pitch]
      exact Nat.dvd_mul_left 64 _
    · rw [createdBO_size, Nat.mul_comm]
      exact Nat.mul_le_mul_right _ (by omega)
    · exact findBO_handleOf (by simp [createdBO, fillBO])
    · simp
    · simp

/-- In every reachable state, a CREATE_DUMB that returns 0 reports a buffer that
holds the image if and only if the bits of a row, plus 7, stay below 2^32. -/
theorem createDumb_holdsImage_iff (p : Provider) (calls : List Call)
    (req : DrmModeCreateDumb) (mem : Option Mapping) (surface : Option DisplaySurface)
    (ok : (((start p).runCalls calls).drmIoctl
      ⟨.createDumb req, mem, surface⟩).2.errno = .success) :
    (∃ out,
      (((start p).runCalls calls).drmIoctl ⟨.createDumb req, mem, surface⟩).2.data =
        .createDumb out ∧
      HoldsImage (((start p).runCalls calls).drmIoctl
        ⟨.createDumb req, mem, surface⟩).1 req out) ↔
      req.width.toNat * (if req.bpp = 0 then 32 else req.bpp.toNat) + 7 < 2 ^ 32 := by
  have h : ((start p).runCalls calls).TableExact := tableExact_runCalls p calls
  generalize (start p).runCalls calls = s at h ok ⊢
  rw [drmIoctl_createDumb h.attached] at ok ⊢
  obtain ⟨i, m, _, alloc, rfl⟩ := createDumb_success h ok
  rw [ioctlCreateDumb_created alloc, ← rowBits, ← createdBO_holdsImage_iff s i req m]
  constructor
  · rintro ⟨out, data, holds⟩
    obtain rfl := Data.createDumb.inj data
    exact holds
  · intro holds
    exact ⟨_, rfl, holds⟩

theorem createDumb_holdsImage_screen :
    ∃ out,
      (((start ⟨false, none⟩).runCalls []).drmIoctl
        ⟨.createDumb { width := 1920, height := 1080, bpp := 0 }, some ⟨0, 0⟩, none⟩).2.data =
          .createDumb out ∧
      HoldsImage (((start ⟨false, none⟩).runCalls []).drmIoctl
        ⟨.createDumb { width := 1920, height := 1080, bpp := 0 }, some ⟨0, 0⟩, none⟩).1
        { width := 1920, height := 1080, bpp := 0 } out :=
  (createDumb_holdsImage_iff ⟨false, none⟩ [] { width := 1920, height := 1080, bpp := 0 }
    (some ⟨0, 0⟩) none (by
      rw [runCalls, List.foldl_nil, drmIoctl_createDumb rfl,
        ioctlCreateDumb_created (allocHandle_first rfl)])).mpr
    (by decide)

/-- A row of 2^27 + 16 pixels of 32 bits wraps to 512 bits: the call returns 0
with a pitch of 64 bytes where the image needs 536870976. -/
theorem createDumb_short_pitch :
    ((start ⟨false, none⟩).drmIoctl
      ⟨.createDumb { width := 134217744, height := 1, bpp := 32 }, some ⟨0, 0⟩, none⟩).2.errno =
        .success ∧
    ∃ out,
      ((start ⟨false, none⟩).drmIoctl
        ⟨.createDumb { width := 134217744, height := 1, bpp := 32 }, some ⟨0, 0⟩, none⟩).2.data =
          .createDumb out ∧
      out.pitch = 64 ∧ out.size = 64 ∧
      ¬ HoldsImage ((start ⟨false, none⟩).drmIoctl
        ⟨.createDumb { width := 134217744, height := 1, bpp := 32 }, some ⟨0, 0⟩, none⟩).1
        { width := 134217744, height := 1, bpp := 32 } out := by
  rw [drmIoctl_createDumb rfl, ioctlCreateDumb_created (allocHandle_first rfl)]
  refine ⟨rfl, _, rfl, by decide, by decide, ?_⟩
  rw [createdBO_holdsImage_iff]
  decide

end IODRMShim
end LunaOS.Drm
