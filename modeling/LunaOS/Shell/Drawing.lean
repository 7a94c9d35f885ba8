import LunaOS.Lib.Ints
import LunaOS.Lib.Rects
import LunaOS.Shell.Main

/-!
What the drawing functions of the shell write. `fill` does no clipping, and the stub that
stands for text draws a box for each byte with it.
-/
namespace LunaOS.Shell
open Rects

namespace Fill

/-- The columns and rows that the loops of `fill` visit. -/
def area (f : Fill) : Finset (Int × Int) :=
  interval f.x.toInt (f.x + f.w).toInt ×ˢ interval f.y.toInt (f.y + f.h).toInt

/-- The indices `px[r * stride_px + col]` that are written. An index that overflows is outside of
every mapping, as it is here. -/
def writes (stridePx : Int32) (f : Fill) : Finset Int :=
  f.area.image (index stridePx.toInt)

structure At (f : Fill) (x y w h : Int) : Prop where
  left : f.x.toInt = x
  right : (f.x + f.w).toInt = x + w
  top : f.y.toInt = y
  bottom : (f.y + f.h).toInt = y + h

variable {f : Fill} {x y w h : Int}

theorem At.area_eq (sides : f.At x y w h) : f.area = rect x y w h := by
  rw [area, sides.left, sides.right, sides.top, sides.bottom, rect]

theorem at_mk {i j m n : Int32} (c : UInt32) (hx : i.toInt = x) (hy : j.toInt = y)
    (hw : m.toInt = w) (hh : n.toInt = h) (right : -2147483648 ≤ x + w ∧ x + w < 2147483648)
    (bottom : -2147483648 ≤ y + h ∧ y + h < 2147483648) : (Fill.mk i j m n c).At x y w h where
  left := hx
  right := Ints.toInt_add hx hw right.1 right.2
  top := hy
  bottom := Ints.toInt_add hy hh bottom.1 bottom.2

theorem forall_writes_iff {stridePx : Int32} {stride : Int} (row : stridePx.toInt = stride)
    {P : Int → Prop} :
    (∀ i ∈ f.writes stridePx, P i) ↔ ∀ p ∈ f.area, P (index stride p) := by
  rw [writes, row, Finset.forall_mem_image]

end Fill

/-! The stub for text. -/

def glyphs (x y : Int32) (n : Nat) (color : UInt32) (fsize : Int32) : List Fill :=
  (List.range n).map fun i =>
    ⟨x + Int32.ofNat i * (fsize / 2), y + fsize / 4, fsize / 2 - 1, fsize / 2, color⟩

def drawTextStub (x y : Int32) (text : List UInt8) (color : UInt32) (fsize : Int32) :
    List Fill :=
  glyphs x y text.length color fsize

def ltext (x y : Int32) (text : List UInt8) (color : UInt32) (fs : Int32) : List Fill :=
  glyphs x y (min text.length 30) color fs

section
variable {x y fsize : Int32} {n : Nat} {X Y F : Int}

structure TextAt (x y fsize : Int32) (n : Nat) (X Y F : Int) : Prop where
  left : x.toInt = X
  top : y.toInt = Y
  size : fsize.toInt = F
  nonneg : 0 ≤ F
  width : n * (F / 2) < 2147483648
  columns : -2147483648 < X ∧ X + n * (F / 2) < 2147483648
  rows : -2147483648 ≤ Y ∧ Y + F < 2147483648

theorem box_le {i : Nat} (held : i < n) {q : Int} (nonneg : 0 ≤ q) :
    0 ≤ (i : Int) * q ∧ (i : Int) * q + q ≤ n * q := by
  have next : ((i : Int) + 1) * q ≤ n * q :=
    Int.mul_le_mul_of_nonneg_right (by omega) nonneg
  rw [Int.add_mul, Int.one_mul] at next
  exact ⟨Int.mul_nonneg (by omega) nonneg, next⟩

/-- The box of byte `i`. -/
theorem TextAt.glyph (text : TextAt x y fsize n X Y F) (color : UInt32) {i : Nat} (held : i < n)
    (short : n < 2147483648) :
    (Fill.mk (x + Int32.ofNat i * (fsize / 2)) (y + fsize / 4) (fsize / 2 - 1) (fsize / 2)
      color).At (X + i * (F / 2)) (Y + F / 4) (F / 2 - 1) (F / 2) := by
  obtain ⟨left, top, size, nonneg, width, columns, rows⟩ := text
  have half : (fsize / 2).toInt = F / 2 := by
    rw [Ints.toInt_div size nonneg (by decide)]
    rfl
  have quarter : (fsize / 4).toInt = F / 4 := by
    rw [Ints.toInt_div size nonneg (by decide)]
    rfl
  have ⟨before, step⟩ := box_le held (q := F / 2) (by omega)
  have counter : (Int32.ofNat i).toInt = i := Int32.toInt_ofNat_of_lt (by omega)
  refine Fill.at_mk color (Ints.toInt_add left (Ints.toInt_mul counter half ?_ ?_) ?_ ?_)
    (Ints.toInt_add top quarter ?_ ?_) (Ints.toInt_sub half rfl ?_ ?_) half ⟨?_, ?_⟩ ⟨?_, ?_⟩ <;>
    omega

theorem mem_glyphs {color : UInt32} {f : Fill} : f ∈ glyphs x y n color fsize ↔
    ∃ i < n, ⟨x + Int32.ofNat i * (fsize / 2), y + fsize / 4, fsize / 2 - 1, fsize / 2, color⟩ =
      f := by
  simp only [glyphs, List.mem_map, List.mem_range]

/-- A text is inside a buffer exactly when its first and its last box are, or none of them has
a pixel. -/
theorem TextAt.inside_iff (text : TextAt x y fsize n X Y F) (short : n < 2147483648)
    (color : UInt32) (W H : Int) :
    (∀ f ∈ glyphs x y n color fsize, f.area ⊆ rect 0 0 W H) ↔
      (4 ≤ F → 0 < n →
        (0 ≤ X ∧ X + n * (F / 2) - 1 ≤ W) ∧ 0 ≤ Y + F / 4 ∧ Y + F / 4 + F / 2 ≤ H) := by
  constructor
  · intro inside large some_byte
    have within {i : Nat} (held : i < n) := by
      have box := inside _ (mem_glyphs.mpr ⟨i, held, rfl⟩)
      rw [(text.glyph color held short).area_eq, rect_subset_iff (by omega) (by omega)] at box
      exact box
    have first := within some_byte
    have last := within (Nat.sub_lt some_byte Nat.one_pos)
    have count : ((n - 1 : Nat) : Int) = n - 1 := by omega
    rw [count, Int.sub_mul, Int.one_mul] at last
    rw [Int.ofNat_zero, Int.zero_mul] at first
    omega
  · intro inside f drawn
    obtain ⟨i, held, rfl⟩ := mem_glyphs.mp drawn
    rw [(text.glyph color held short).area_eq]
    by_cases large : 4 ≤ F
    · have ⟨⟨left, right⟩, above, below⟩ := inside large (Nat.zero_lt_of_lt held)
      have ⟨before, step⟩ := box_le held (q := F / 2) (by omega)
      exact rect_subset (by omega) (by omega) (by omega) (by omega)
    · rw [rect_eq_empty (Or.inl (by omega))]
      exact Finset.empty_subset _

/-- Row by row, a text is in a buffer exactly when the first pixel of its first box and the last
one of its last box are. -/
theorem TextAt.index_iff (text : TextAt x y fsize n X Y F) (short : n < 2147483648)
    (color : UInt32) {stride size : Int} (nonneg : 0 ≤ stride) :
    (∀ f ∈ glyphs x y n color fsize, ∀ p ∈ f.area,
        0 ≤ index stride p ∧ index stride p < size) ↔
      (4 ≤ F → 0 < n → 0 ≤ index stride (X, Y + F / 4) ∧
        index stride (X + n * (F / 2) - 2, Y + F / 4 + F / 2 - 1) < size) := by
  constructor
  · intro inside large some_byte
    have within {i : Nat} (held : i < n) := by
      have box := inside _ (mem_glyphs.mpr ⟨i, held, rfl⟩)
      rw [(text.glyph color held short).area_eq,
        index_mem_iff nonneg (by omega) (by omega)] at box
      exact box
    have first := (within some_byte).1
    have last := (within (Nat.sub_lt some_byte Nat.one_pos)).2
    have count : ((n - 1 : Nat) : Int) = n - 1 := by omega
    have right : X + (n - 1) * (F / 2) + (F / 2 - 1) - 1 = X + n * (F / 2) - 2 := by
      rw [Int.sub_mul, Int.one_mul]
      omega
    rw [count, right] at last
    rw [Int.ofNat_zero, Int.zero_mul, Int.add_zero] at first
    exact ⟨first, last⟩
  · intro inside f drawn
    obtain ⟨i, held, rfl⟩ := mem_glyphs.mp drawn
    rw [(text.glyph color held short).area_eq]
    by_cases large : 4 ≤ F
    · have ⟨first, last⟩ := inside large (Nat.zero_lt_of_lt held)
      have ⟨before, step⟩ := box_le held (q := F / 2) (by omega)
      rw [index_mem_iff nonneg (by omega) (by omega)]
      constructor
      · exact first.trans (index_mono nonneg (by dsimp only; omega) (by dsimp only; omega))
      · refine lt_of_le_of_lt (index_mono nonneg ?_ ?_) last <;> dsimp only <;> omega
    · rw [rect_eq_empty (Or.inl (by omega))]
      exact fun p held => absurd held (Finset.notMem_empty p)

end
end LunaOS.Shell
