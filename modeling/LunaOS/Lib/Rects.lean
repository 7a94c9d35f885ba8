import Mathlib.Data.Finset.Prod
import Mathlib.Tactic.Linarith

/-!
Rectangles of pixels, as a column and a row each. One that has a pixel is inside another when
its corners are; and laid out row by row, all of its pixels are between those of two corners,
whatever the length of a row is.
-/
namespace Rects
open Finset

def interval (a b : Int) : Finset Int :=
  (range (b - a).toNat).image fun k : Nat => a + k

theorem mem_interval {a b c : Int} : c ∈ interval a b ↔ a ≤ c ∧ c < b := by
  rw [interval, mem_image]
  constructor
  · rintro ⟨k, inside, rfl⟩
    rw [mem_range] at inside
    omega
  · rintro ⟨above, below⟩
    exact ⟨(c - a).toNat, mem_range.mpr (by omega), by omega⟩

def rect (x y w h : Int) : Finset (Int × Int) :=
  interval x (x + w) ×ˢ interval y (y + h)

theorem mem_rect {x y w h : Int} {p : Int × Int} :
    p ∈ rect x y w h ↔ (x ≤ p.1 ∧ p.1 < x + w) ∧ y ≤ p.2 ∧ p.2 < y + h := by
  rw [rect, mem_product, mem_interval, mem_interval]

theorem rect_eq_empty {x y w h : Int} (none : w ≤ 0 ∨ h ≤ 0) : rect x y w h = ∅ := by
  refine eq_empty_of_forall_notMem fun p held => ?_
  rw [mem_rect] at held
  omega

theorem rect_subset {x y w h x' y' w' h' : Int} (left : x' ≤ x) (right : x + w ≤ x' + w')
    (above : y' ≤ y) (below : y + h ≤ y' + h') : rect x y w h ⊆ rect x' y' w' h' := by
  intro p held
  rw [mem_rect] at held ⊢
  omega

/-- A rectangle with a pixel is inside another exactly when its sides are. -/
theorem rect_subset_iff {x y w h x' y' w' h' : Int} (wide : 0 < w) (high : 0 < h) :
    rect x y w h ⊆ rect x' y' w' h' ↔
      (x' ≤ x ∧ x + w ≤ x' + w') ∧ y' ≤ y ∧ y + h ≤ y' + h' := by
  constructor
  · intro inside
    have first : (x, y) ∈ rect x y w h := mem_rect.mpr (by dsimp only; omega)
    have last : (x + w - 1, y + h - 1) ∈ rect x y w h := mem_rect.mpr (by dsimp only; omega)
    have first := mem_rect.mp (inside first)
    have last := mem_rect.mp (inside last)
    dsimp only at first last
    omega
  · rintro ⟨⟨left, right⟩, above, below⟩
    exact rect_subset left right above below

theorem disjoint_of_columns {x y w h x' y' w' h' : Int} (apart : x + w ≤ x') :
    Disjoint (rect x y w h) (rect x' y' w' h') := by
  refine disjoint_left.mpr fun p held held' => ?_
  rw [mem_rect] at held held'
  omega

theorem disjoint_of_rows {x y w h x' y' w' h' : Int} (apart : y + h ≤ y') :
    Disjoint (rect x y w h) (rect x' y' w' h') := by
  refine disjoint_left.mpr fun p held held' => ?_
  rw [mem_rect] at held held'
  omega

/-- The pixels in rows of length `stride`. -/
def index (stride : Int) (p : Int × Int) : Int :=
  p.2 * stride + p.1

theorem index_mono {stride : Int} (nonneg : 0 ≤ stride) {p q : Int × Int} (columns : p.1 ≤ q.1)
    (rows : p.2 ≤ q.2) : index stride p ≤ index stride q :=
  Int.add_le_add (Int.mul_le_mul_of_nonneg_right rows nonneg) columns

/-- A pixel left of a row is in one above it, as long as there are enough. -/
theorem index_nonneg {stride x y : Int} (pos : 1 ≤ stride) (nonneg : 0 ≤ y) (near : -x ≤ y) :
    0 ≤ index stride (x, y) := by
  have rows : y ≤ y * stride := le_mul_of_one_le_right nonneg pos
  change 0 ≤ y * stride + x
  omega

/-- A pixel right of a row is in one below it, as long as there are enough. -/
theorem index_lt {stride height x y b : Int} (nonneg : 0 ≤ stride) (rows : y + b ≤ height)
    (near : x < b * stride) : index stride (x, y) < stride * height := by
  have scaled := Int.mul_le_mul_of_nonneg_right rows nonneg
  rw [Int.add_mul, Int.mul_comm height] at scaled
  change y * stride + x < stride * height
  omega

/-- A pixel in the last `b` rows is in the buffer when it is not right of all of them. -/
theorem index_lt_iff (stride height x b : Int) :
    index stride (x, height - b) < stride * height ↔ x < b * stride := by
  rw [index, Int.sub_mul, Int.mul_comm height]
  dsimp only
  omega

/-- The first and the last pixel of a rectangle bound the others. -/
theorem index_mem_iff {stride size x y w h : Int} (nonneg : 0 ≤ stride) (wide : 0 < w)
    (high : 0 < h) :
    (∀ p ∈ rect x y w h, 0 ≤ index stride p ∧ index stride p < size) ↔
      0 ≤ index stride (x, y) ∧ index stride (x + w - 1, y + h - 1) < size := by
  constructor
  · intro inside
    refine ⟨(inside (x, y) ?_).1, (inside (x + w - 1, y + h - 1) ?_).2⟩ <;>
      exact mem_rect.mpr (by dsimp only; omega)
  · rintro ⟨first, last⟩ p held
    rw [mem_rect] at held
    constructor
    · exact first.trans (index_mono nonneg held.1.1 held.2.1)
    · refine lt_of_le_of_lt (index_mono nonneg ?_ ?_) last
      · exact Int.le_sub_one_of_lt held.1.2
      · exact Int.le_sub_one_of_lt held.2.2

/-- The pixels of a rectangle inside the buffer are in the buffer. -/
theorem index_mem_of_subset {width height x y w h : Int}
    (inside : rect x y w h ⊆ rect 0 0 width height) :
    ∀ p ∈ rect x y w h, 0 ≤ index width p ∧ index width p < width * height := by
  intro p held
  have held := mem_rect.mp (inside held)
  rw [Int.zero_add, Int.zero_add] at held
  have row : p.2 + 1 ≤ height := by omega
  have rows : 0 ≤ width := by omega
  have below : (p.2 + 1) * width ≤ height * width := Int.mul_le_mul_of_nonneg_right row rows
  have above : 0 ≤ p.2 * width := Int.mul_nonneg held.2.1 rows
  rw [Int.add_mul, Int.one_mul, Int.mul_comm height] at below
  constructor <;> unfold index <;> omega

end Rects
