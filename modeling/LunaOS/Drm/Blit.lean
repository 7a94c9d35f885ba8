import LunaOS.Drm.Framebuffers
import LunaOS.Drm.Geometry
import LunaOS.Lib.Copies

/-!
What the blit loop does to memory. Rows and bytes are clipped each on its own. A source
offset is a 32-bit product, which does not wrap because the buffer is no larger than the
physical mask allows; a destination offset is a 64-bit one and stays in the surface. So
the loop copies the overlap of two rectangles and nothing else.
-/
namespace LunaOS.Drm
open Copies

def RowCopy.bcopy (src dst : UInt64) (r : RowCopy) : Copy UInt64 :=
  Copies.bcopy (src + r.src.toUInt64) (dst + r.dst) r.len.toUInt64

namespace IODRMShim
variable {s s' : IODRMShim}

/-! The size that a live slot records. -/

def Sized (s : IODRMShim) : Prop :=
  ∀ i, (s.fBOs i).inUse = true →
    (s.fBOs i).size.toNat = (s.fBOs i).pitch.toNat * (s.fBOs i).height.toNat

theorem sized_start (p : Provider) : (start p).Sized := by
  intro i used
  simp [start] at used

theorem Sized.setBO (sized : s.Sized) (i : Fin maxDumbBOs) (bo : DumbBO) (l : Ledger)
    (own : bo.inUse = true → bo.size.toNat = bo.pitch.toNat * bo.height.toNat) :
    ({ s.setBO i bo with ledger := l } : IODRMShim).Sized := by
  intro j
  by_cases e : j = i
  · subst e
    simpa using own
  · simpa [e] using sized j

theorem Sized.createDumb (sized : s.Sized) (h : s.TableExact) (req : DrmModeCreateDumb)
    (mem : Option Mapping) : (s.ioctlCreateDumb req mem).1.Sized := by
  rcases h.allocHandle_cases with ⟨_, none_free⟩ | ⟨i, _, alloc⟩
  · rw [ioctlCreateDumb_full none_free]
    exact sized
  · cases mem with
    | none =>
        rw [ioctlCreateDumb_refused alloc]
        exact sized.setBO i _ s.ledger (by simp [refusedBO])
    | some m =>
        rw [ioctlCreateDumb_created alloc]
        refine sized.setBO i _ s.ledger.acquire fun _ => ?_
        exact toNat_size _ _

theorem Sized.closeBO (sized : s.Sized) (h : s.TableExact) (handle : UInt32) :
    (s.closeBO handle).Sized := by
  cases found : s.findBO handle with
  | none =>
      rw [closeBO_absent found]
      exact sized
  | some i =>
      obtain ⟨d, held⟩ := h.found_mem found
      rw [closeBO_found found held]
      exact sized.setBO i _ _ (by simp)

theorem sized_step (h : s.TableExact) (sized : s.Sized) (c : Call)
    (taken : step s c = some s') : s'.Sized := by
  cases step_table h taken with
  | kept _ fb => exact sized
  | created _ req => exact sized.createDumb h req c.mem
  | closed handle _ => exact sized.closeBO h handle

theorem reached_sized {p : Provider} {calls : List Call}
    (reached : Runs.run step (start p) calls = some s) : s.TableExact ∧ s.Sized := by
  have both : ∀ s c s', s.TableExact ∧ s.Sized → step s c = some s' →
      s'.TableExact ∧ s'.Sized := by
    rintro s c s' ⟨h, sized⟩ taken
    exact ⟨tableExact_step s c s' h taken, sized_step h sized c taken⟩
  exact Runs.run_invariant both ⟨tableExact_start p, sized_start p⟩ reached

/-! One row. -/

def blitRow (bo : DumbBO) (surface : DisplaySurface) (y : Nat) : RowCopy :=
  { src := UInt32.ofNat y * bo.pitch
    dst := UInt64.ofNat y * surface.stride
    len := if bo.pitch.toUInt64 < surface.stride then bo.pitch else surface.stride.toUInt32 }

theorem mem_blitRows (bo : DumbBO) (surface : DisplaySurface) (r : RowCopy) :
    r ∈ blitRows bo surface ↔
      ∃ y < min bo.height.toNat surface.height.toNat, r = blitRow bo surface y := by
  have rows : (if bo.height < surface.height then bo.height else surface.height).toNat =
      min bo.height.toNat surface.height.toNat := by
    simp only [UInt32.lt_iff_toNat_lt]
    split <;> omega
  simp only [blitRows, List.mem_map, List.mem_range, rows, blitRow, eq_comm]

theorem toNat_blitRow_len (bo : DumbBO) (surface : DisplaySurface) (y : Nat) :
    (blitRow bo surface y).len.toUInt64.toNat =
      min bo.pitch.toNat surface.stride.toNat := by
  have small : bo.pitch.toNat < 2 ^ 32 := bo.pitch.toNat_lt
  simp only [blitRow, UInt64.lt_iff_toNat_lt, UInt32.toNat_toUInt64]
  split
  · omega
  · rw [UInt64.toNat_toUInt32]
    omega

/-- A source offset that stays in a buffer of at most 4 GiB does not wrap. -/
theorem blitRow_src {bo : DumbBO} {surface : DisplaySurface} {y : Nat} {buffer : Region}
    (below : y * bo.pitch.toNat < 2 ^ 32) :
    buffer.base + (blitRow bo surface y).src.toUInt64 = buffer.byte (y * bo.pitch.toNat) := by
  have exact_src : (blitRow bo surface y).src.toUInt64 = UInt64.ofNat (y * bo.pitch.toNat) := by
    apply UInt64.toNat_inj.mp
    simp only [blitRow, UInt32.toNat_toUInt64, UInt32.toNat_mul, UInt32.toNat_ofNat',
      UInt64.toNat_ofNat', Nat.mod_mul_mod]
    omega
  rw [exact_src, Region.byte]

theorem blitRow_dst {bo : DumbBO} {surface : DisplaySurface} {y : Nat} {display : Region} :
    display.base + (blitRow bo surface y).dst = display.byte (y * surface.stride.toNat) := by
  rw [Region.byte, UInt64.ofNat_mul, UInt64.ofNat_toNat, blitRow]

/-- A row copies the bytes of the overlap and nothing else. -/
theorem blitRow_bcopy_iff {bo : DumbBO} {surface : DisplaySurface} {y : Nat}
    {buffer display : Region} (below : y * bo.pitch.toNat < 2 ^ 32) (a b : UInt64) :
    (blitRow bo surface y).bcopy buffer.base display.base a = some b ↔
      ∃ x < min bo.pitch.toNat surface.stride.toNat,
        a = display.byte (y * surface.stride.toNat + x) ∧
          b = buffer.byte (y * bo.pitch.toNat + x) := by
  rw [RowCopy.bcopy, blitRow_src below, blitRow_dst, bcopy_eq_some_iff, toNat_blitRow_len]

/-! All rows. -/

def afterBlit (m : UInt64 → UInt8) (src dst : UInt64) (rows : List RowCopy) : UInt64 → UInt8 :=
  performAll m (rows.map (RowCopy.bcopy src dst))

/-- Byte `x` of row `y` is in the buffer and on the display. -/
def Overlap (bo : DumbBO) (surface : DisplaySurface) (y x : Nat) : Prop :=
  y < min bo.height.toNat surface.height.toNat ∧ x < min bo.pitch.toNat surface.stride.toNat

/-- The blocks of memory behind a live buffer and a display surface. -/
structure Backs (bo : DumbBO) (surface : DisplaySurface) (buffer display : Region) :
    Prop where
  buffer_base : buffer.base = bo.virtAddr
  buffer_size : buffer.size = bo.pitch.toNat * bo.height.toNat
  display_size : display.size = surface.stride.toNat * surface.height.toNat
  apart : buffer.Apart display

variable {bo : DumbBO} {surface : DisplaySurface} {buffer display : Region} {x y : Nat}

theorem Overlap.in_buffer (inside : Overlap bo surface y x)
    (backs : Backs bo surface buffer display) : y * bo.pitch.toNat + x < buffer.size := by
  rw [backs.buffer_size]
  exact row_lt (lt_min_iff.mp inside.1).1 (lt_min_iff.mp inside.2).1

theorem Overlap.in_display (inside : Overlap bo surface y x)
    (backs : Backs bo surface buffer display) :
    y * surface.stride.toNat + x < display.size := by
  rw [backs.display_size]
  exact row_lt (lt_min_iff.mp inside.1).2 (lt_min_iff.mp inside.2).2

theorem row_below (row : y < bo.height.toNat)
    (mask : bo.pitch.toNat * bo.height.toNat ≤ 2 ^ 32) : y * bo.pitch.toNat < 2 ^ 32 := by
  rcases Nat.eq_zero_or_pos bo.pitch.toNat with empty | positive
  · simp [empty]
  · have last := row_lt row positive
    omega

/-- The accesses of the loop, in coordinates. -/
theorem access_iff (mask : bo.pitch.toNat * bo.height.toNat ≤ 2 ^ 32) (a b : UInt64) :
    (∃ r ∈ blitRows bo surface, r.bcopy buffer.base display.base a = some b) ↔
      ∃ y x, Overlap bo surface y x ∧ a = display.byte (y * surface.stride.toNat + x) ∧
        b = buffer.byte (y * bo.pitch.toNat + x) := by
  simp only [mem_blitRows, Overlap]
  constructor
  · rintro ⟨_, ⟨y, row, rfl⟩, access⟩
    have below := row_below (lt_min_iff.mp row).1 mask
    obtain ⟨x, col, places⟩ := (blitRow_bcopy_iff below a b).mp access
    exact ⟨y, x, ⟨row, col⟩, places⟩
  · rintro ⟨y, x, ⟨row, col⟩, places⟩
    have below := row_below (lt_min_iff.mp row).1 mask
    exact ⟨_, ⟨y, row, rfl⟩, (blitRow_bcopy_iff below a b).mpr ⟨x, col, places⟩⟩

/-- Every byte that is read lies in the buffer, every byte written in the surface. -/
theorem access_inside (backs : Backs bo surface buffer display)
    (mask : bo.pitch.toNat * bo.height.toNat ≤ 2 ^ 32) {r : RowCopy}
    (mem : r ∈ blitRows bo surface) {a b : UInt64}
    (access : r.bcopy buffer.base display.base a = some b) :
    buffer.Contains b ∧ display.Contains a := by
  obtain ⟨y, x, inside, rfl, rfl⟩ := (access_iff mask a b).mp ⟨r, mem, access⟩
  exact ⟨⟨_, inside.in_buffer backs, rfl⟩, ⟨_, inside.in_display backs, rfl⟩⟩

theorem rows_readsKept (backs : Backs bo surface buffer display)
    (mask : bo.pitch.toNat * bo.height.toNat ≤ 2 ^ 32) :
    ReadsKept ((blitRows bo surface).map (RowCopy.bcopy buffer.base display.base)) := by
  simp only [ReadsKept, List.forall_mem_map]
  intro r mem a b access r' mem'
  by_contra written
  obtain ⟨b', access'⟩ := Option.ne_none_iff_exists'.mp written
  exact backs.apart b (access_inside backs mask mem access).1
    (access_inside backs mask mem' access').2

theorem rows_agree (backs : Backs bo surface buffer display)
    (mask : bo.pitch.toNat * bo.height.toNat ≤ 2 ^ 32) :
    Agree ((blitRows bo surface).map (RowCopy.bcopy buffer.base display.base)) := by
  simp only [Agree, List.forall_mem_map]
  intro r mem r' mem' a b b' access access'
  obtain ⟨y, x, inside, place, rfl⟩ := (access_iff mask a b).mp ⟨r, mem, access⟩
  obtain ⟨y', x', inside', place', rfl⟩ := (access_iff mask a b').mp ⟨r', mem', access'⟩
  have same := display.byte_injective (inside.in_display backs) (inside'.in_display backs)
    (place.symm.trans place')
  obtain ⟨rfl, rfl⟩ := row_injective (lt_min_iff.mp inside.2).2 (lt_min_iff.mp inside'.2).2 same
  rfl

theorem afterBlit_overlap (backs : Backs bo surface buffer display)
    (mask : bo.pitch.toNat * bo.height.toNat ≤ 2 ^ 32) (m : UInt64 → UInt8)
    (inside : Overlap bo surface y x) :
    afterBlit m buffer.base display.base (blitRows bo surface)
        (display.byte (y * surface.stride.toNat + x)) =
      m (buffer.byte (y * bo.pitch.toNat + x)) := by
  obtain ⟨r, mem, access⟩ := (access_iff mask
    (display.byte (y * surface.stride.toNat + x)) (buffer.byte (y * bo.pitch.toNat + x))).mpr
    ⟨y, x, inside, rfl, rfl⟩
  exact performAll_written (rows_readsKept backs mask) (rows_agree backs mask)
    (List.mem_map_of_mem mem) access

theorem afterBlit_other (mask : bo.pitch.toNat * bo.height.toNat ≤ 2 ^ 32)
    (m : UInt64 → UInt8) {a : UInt64}
    (outside : ∀ y x, Overlap bo surface y x →
      a ≠ display.byte (y * surface.stride.toNat + x)) :
    afterBlit m buffer.base display.base (blitRows bo surface) a = m a := by
  refine performAll_other ?_
  rw [List.forall_mem_map]
  intro r mem
  by_contra written
  obtain ⟨b, access⟩ := Option.ne_none_iff_exists'.mp written
  obtain ⟨y, x, inside, place, _⟩ := (access_iff mask a b).mp ⟨r, mem, access⟩
  exact outside y x inside place

/-- The blit of a live buffer of a reachable kext copies the overlap of buffer and
surface, byte for byte, changes no other byte, reads only the buffer and writes only
the surface. -/
theorem blitToDisplay_copies_overlap {p : Provider} {calls : List Call} {handle : UInt32}
    {i : Fin maxDumbBOs} (surface : DisplaySurface) (buffer display : Region)
    (m : UInt64 → UInt8) (reached : Runs.run step (start p) calls = some s)
    (live : s.findBO handle = some i) (attached : s.fMobileFramebuffer = true)
    (buffer_base : buffer.base = (s.fBOs i).virtAddr)
    (buffer_size : buffer.size = (s.fBOs i).size.toNat)
    (mask : (s.fBOs i).size.toNat ≤ 2 ^ 32)
    (display_size : display.size = surface.stride.toNat * surface.height.toNat)
    (apart : buffer.Apart display) :
    let bo := s.fBOs i
    let h := min bo.height.toNat surface.height.toNat
    let n := min bo.pitch.toNat surface.stride.toNat
    ∃ rows, s.blitToDisplay bo (some surface) = some rows ∧
      (∀ y < h, ∀ x < n,
        afterBlit m bo.virtAddr display.base rows
            (display.byte (y * surface.stride.toNat + x)) =
          m (buffer.byte (y * bo.pitch.toNat + x))) ∧
      (∀ a, (∀ y < h, ∀ x < n, a ≠ display.byte (y * surface.stride.toNat + x)) →
        afterBlit m bo.virtAddr display.base rows a = m a) ∧
      ∀ r ∈ rows, ∀ a b, r.bcopy bo.virtAddr display.base a = some b →
        buffer.Contains b ∧ display.Contains a := by
  obtain ⟨_, sized⟩ := reached_sized reached
  have size := sized i ((findBO_eq_some_iff s handle i).mp live).2
  rw [size] at buffer_size mask
  have backs : Backs (s.fBOs i) surface buffer display :=
    ⟨buffer_base, buffer_size, display_size, apart⟩
  intro bo h n
  refine ⟨blitRows bo surface, by simp [blitToDisplay, attached], ?_⟩
  rw [← buffer_base]
  refine ⟨?_, ?_, ?_⟩
  · intro y row x col
    exact afterBlit_overlap backs mask m ⟨row, col⟩
  · intro a outside
    exact afterBlit_other mask m fun y x inside => outside y inside.1 x inside.2
  · intro r mem a b access
    exact access_inside backs mask mem access

/-- Two rows of 256 bytes on a surface that shows one row of 128. -/
theorem blitToDisplay_copies_clipped :
    ∃ s rows, Runs.run step (start ⟨true, none⟩)
        [⟨.createDumb { width := 64, height := 2, bpp := 32 }, some ⟨4096, 0⟩, none⟩] = some s ∧
      s.blitToDisplay (s.fBOs 0) (some ⟨128, 1⟩) = some rows ∧
      afterBlit UInt64.toUInt8 4096 32768 rows 32773 = 5 ∧
      afterBlit UInt64.toUInt8 4096 32768 rows 32896 = 128 := by
  let calls : List Call :=
    [⟨.createDumb { width := 64, height := 2, bpp := 32 }, some ⟨4096, 0⟩, none⟩]
  let buffer : Region := ⟨4096, 512, by decide⟩
  let display : Region := ⟨32768, 128, by decide⟩
  have apart : buffer.Apart display := by
    rintro a ⟨k, inside, rfl⟩ ⟨k', inside', same⟩
    have eq := congrArg UInt64.toNat same
    rw [buffer.toNat_byte inside, display.toNat_byte inside'] at eq
    have low : buffer.base.toNat = 4096 := rfl
    have high : display.base.toNat = 32768 := rfl
    have short : k < 512 := inside
    omega
  have table : (((start ⟨true, none⟩).runCalls calls).fBOs 0).virtAddr = 4096 ∧
      (((start ⟨true, none⟩).runCalls calls).fBOs 0).size.toNat = 512 ∧
      (((start ⟨true, none⟩).runCalls calls).fBOs 0).height.toNat = 2 ∧
      (((start ⟨true, none⟩).runCalls calls).fBOs 0).pitch.toNat = 256 := by decide +kernel
  have live : ((start ⟨true, none⟩).runCalls calls).findBO 1 = some 0 := by decide +kernel
  have attached : ((start ⟨true, none⟩).runCalls calls).fMobileFramebuffer = true := by
    decide +kernel
  have backed : display.size = (128 : UInt64).toNat * (1 : UInt32).toNat := by decide
  obtain ⟨base, size, height, pitch⟩ := table
  have mask : (((start ⟨true, none⟩).runCalls calls).fBOs 0).size.toNat ≤ 2 ^ 32 := by
    rw [size]
    decide
  obtain ⟨rows, shown, copied, others, _⟩ := blitToDisplay_copies_overlap ⟨128, 1⟩ buffer display
    UInt64.toUInt8 (run_step _ calls) live attached base.symm size.symm mask backed apart
  rw [base, height, pitch] at copied
  rw [base, height, pitch] at others
  refine ⟨(start ⟨true, none⟩).runCalls calls, rows, run_step _ calls, shown, ?_, ?_⟩
  · have place : display.byte (0 * (128 : UInt64).toNat + 5) = 32773 := by decide
    have value : (buffer.byte (0 * 256 + 5)).toUInt8 = 5 := by decide
    rw [← place, ← value]
    exact copied 0 (by decide) 5 (by decide)
  · refine others 32896 ?_
    intro y row x col same
    obtain rfl : y = 0 := Nat.lt_one_iff.mp (lt_min_iff.mp row).2
    have short : x < display.size := (lt_min_iff.mp col).2
    have eq := congrArg UInt64.toNat same
    rw [Nat.zero_mul, Nat.zero_add, display.toNat_byte short] at eq
    have high : display.base.toNat = 32768 := rfl
    have here : (32896 : UInt64).toNat = 32896 := rfl
    have below : x < 128 := short
    omega

end IODRMShim
end LunaOS.Drm
