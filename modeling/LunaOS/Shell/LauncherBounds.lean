import LunaOS.Shell.Pixels

/-!
Which launchers are drawn inside their mapping. The sizes must not overflow on the way; then the
title, the hint and the ends of the icons and names decide. Where a cell is as wide as the space
between the margins there is one column, and its icons may be wider than the launcher; where the
margins leave no space, the columns overflow unless a cell is at most one pixel wide.
-/
namespace LunaOS.Shell
open Ints Rects

structure GridFits (w sc icon : Int) : Prop where
  divisor : icon ≠ -24
  columns : -23 < icon → 64 ≤ w
  low : -2147483648 ≤ icon * sc
  bottom : (icon + 108) * sc < 2147483648
  left : icon < -24 → w * sc - (icon + 24) * sc < 2147483648

def Columns (w icon : Int) (cols : Nat) : Prop :=
  0 < icon + 24 ∧ cols * (icon + 24) + 64 ≤ w ∨ cols = 1 ∧ (0 < icon + 24 → w < icon + 88)

namespace LauncherGrid
variable {iconSize : Int32} {w : UInt32} {icon sc : Int}

theorem cols_of_fits (hicon : iconSize.toInt = icon) (sc_pos : 1 ≤ sc)
    (row : 4 * (w.toNat * sc) < 2147483648) (fits : GridFits w.toNat sc icon) :
    ∃ cols : Nat, (configure iconSize w).cols.toInt = cols ∧ Columns w.toNat icon cols := by
  have divisor := fits.divisor
  have columns := fits.columns
  have small := icon_small sc_pos fits.bottom
  have width : (w.toNat : Int) ≤ w.toNat * sc := le_mul_of_one_le_right (by omega) sc_pos
  by_cases narrow_cell : icon < -24 ∨ icon = -23 ∧ w.toNat < 64
  · exact ⟨1, cols_of_narrow_cell hicon narrow_cell, Or.inr ⟨rfl, by omega⟩⟩
  · have cell_pos : 0 < icon + 24 := by omega
    rw [cols_of_margins hicon cell_pos (by omega) (by omega) (by omega)]
    cases Int.lt_or_le ((w.toNat - 64) / (icon + 24)) 1 with
    | inl none =>
        have narrow := (Int.ediv_lt_iff_lt_mul cell_pos).mp none
        exact ⟨1, Int.max_eq_left none.le, Or.inr ⟨rfl, by omega⟩⟩
    | inr some_column =>
        have less : (w.toNat - 64) / (icon + 24) * (icon + 24) ≤ w.toNat - 64 :=
          Int.ediv_mul_le _ (by omega)
        have cast := Int.toNat_of_nonneg (by omega : 0 ≤ (w.toNat - 64) / (icon + 24))
        refine ⟨_, (Int.max_eq_right some_column).trans cast.symm, Or.inl ⟨cell_pos, ?_⟩⟩
        rw [cast]
        omega

theorem defined_iff (hicon : iconSize.toInt = icon) (sc_pos : 1 ≤ sc)
    (row : 4 * (w.toNat * sc) < 2147483648) :
    (configure iconSize w).Defined w.toNat sc ↔ GridFits w.toNat sc icon := by
  have size : (configure iconSize w).iconSize.toInt = icon := hicon
  have width : 0 ≤ w.toNat * sc := Int.mul_nonneg (by omega) (by omega)
  constructor
  · rintro ⟨divisor, low, bottom, grid, left⟩
    rw [size] at divisor low bottom grid left
    have small := icon_small sc_pos bottom
    refine ⟨divisor, fun cell => ?_, low, bottom, fun narrow_cell => ?_⟩
    · by_contra narrow
      have overflow := cols_overflow hicon (by omega) small (by omega : w.toNat < 64)
      have product := (grid.of_mul sc_pos).2
      omega
    · rw [cols_of_narrow_cell hicon (Or.inl narrow_cell), Int.one_mul] at left
      exact left.2
  · intro fits
    have cell : (icon + 24) * sc = icon * sc + 24 * sc := Int.add_mul ..
    have bottom : (icon + 108) * sc = icon * sc + 108 * sc := Int.add_mul ..
    have below := fits.bottom
    have low := fits.low
    have left := fits.left
    have divisor := fits.divisor
    obtain ⟨cols, hcols, shape⟩ := cols_of_fits hicon sc_pos row fits
    have taken : InRange (cols * (icon + 24) * sc) ∧
        InRange (w.toNat * sc - cols * (icon + 24) * sc) := by
      rcases shape with ⟨cell_pos, wide⟩ | ⟨rfl, narrow⟩
      · have margins := Int.mul_le_mul_of_nonneg_right wide (by omega : 0 ≤ sc)
        have some_cell : 0 ≤ (cols : Int) * (icon + 24) := Int.mul_nonneg (by omega) cell_pos.le
        have nonneg := Int.mul_nonneg some_cell (by omega : 0 ≤ sc)
        rw [Int.add_mul] at margins
        exact ⟨⟨by omega, by omega⟩, by omega, by omega⟩
      · rw [Int.natCast_one, Int.one_mul]
        cases lt_or_gt_of_ne divisor with
        | inl negative =>
            have less : (icon + 24) * sc ≤ 0 := mul_nonpos_of_nonpos_of_nonneg (by omega) (by omega)
            have left := left negative
            exact ⟨⟨by omega, by omega⟩, by omega, by omega⟩
        | inr positive =>
            have more : 0 ≤ (icon + 24) * sc := Int.mul_nonneg (by omega) (by omega)
            exact ⟨⟨by omega, by omega⟩, by omega, by omega⟩
    rw [← hcols] at taken
    exact
      { divisor := size ▸ divisor
        icon := size ▸ low
        bottom := size ▸ below
        grid := size ▸ taken.1
        left := size ▸ taken.2 }

end LauncherGrid

namespace Surface
variable {l : Surface} {g : LauncherGrid} {w h sc icon X Y : Int} {cols : Nat}

/-! The title and the hint. -/

section
variable {W H I : Int}

/-- The hint is centred for more boxes than it has. -/
theorem hint_last_iff (sc_pos : 1 ≤ sc) (w_pos : 1 ≤ w) {q : Int} (hq : 11 * sc / 2 = q) :
    index (w * sc) ((w * sc - 26 * q).tdiv 2 + 21 * q - 2, H - 20 * sc + 11 * sc / 4 + q - 1) <
      w * sc * H ↔ 4 ≤ w * sc ∨ w = 3 := by
  have near := tdiv_two (w * sc - 26 * q)
  obtain ⟨m, hm⟩ : ∃ m, 20 * sc - 11 * sc / 4 - q = m := ⟨_, rfl⟩
  have row : H - 20 * sc + 11 * sc / 4 + q - 1 = H - (m + 1) := by omega
  rw [row, index_lt_iff, Int.add_mul, Int.one_mul]
  constructor
  · intro last
    by_contra! tiny
    obtain ⟨narrow, other⟩ := tiny
    -- One column at scale 1, 2 or 3, or two at scale 1.
    have columns : w ≤ w * sc := le_mul_of_one_le_right (by omega) sc_pos
    have rows : sc ≤ w * sc := le_mul_of_one_le_left (by omega) w_pos
    obtain rfl | rfl : w = 1 ∨ w = 2 := by omega
    · obtain rfl | rfl | rfl : sc = 1 ∨ sc = 2 ∨ sc = 3 := by omega
      all_goals omega
    · obtain rfl : sc = 1 := by omega
      omega
  · intro wide
    cases Int.lt_or_le (w * sc) 4 with
    | inl small =>
        obtain rfl : w = 3 := by omega
        obtain rfl : sc = 1 := by omega
        omega
    | inr large =>
        have scaled : m * 4 ≤ m * (w * sc) := Int.mul_le_mul_of_nonneg_left large (by omega)
        omega

/-- Three rows are enough for the columns left of the launcher. -/
theorem title_first (sc_pos : 1 ≤ sc) (wide : 3 ≤ W) :
    0 ≤ index W ((W - 84 * sc).tdiv 2, 20 * sc + 14 * sc / 4) := by
  have near := tdiv_two (W - 84 * sc)
  have scaled : (20 * sc + 14 * sc / 4) * 3 ≤ (20 * sc + 14 * sc / 4) * W :=
    Int.mul_le_mul_of_nonneg_left wide (by omega)
  change 0 ≤ (20 * sc + 14 * sc / 4) * W + (W - 84 * sc).tdiv 2
  omega

/-- Where the title is inside, the rows from it to the hint are. -/
theorem hint_first (sc_pos : 1 ≤ sc) (wide : 3 ≤ W) {q : Int} (hq : 11 * sc / 2 = q)
    (title : index W ((W - 84 * sc).tdiv 2 + 84 * sc - 2, 20 * sc + 14 * sc / 4 + 7 * sc - 1) <
      W * H) :
    0 ≤ index W ((W - 26 * q).tdiv 2, H - 20 * sc + 11 * sc / 4) := by
  have near := tdiv_two (W - 84 * sc)
  have near' := tdiv_two (W - 26 * q)
  obtain ⟨r, hr⟩ : ∃ r, 20 * sc + 14 * sc / 4 + 7 * sc - 1 = r := ⟨_, rfl⟩
  obtain ⟨m, hm⟩ : ∃ m, 20 * sc - 11 * sc / 4 = m := ⟨_, rfl⟩
  have row : H - 20 * sc + 11 * sc / 4 = H - m := by omega
  have scaled : (r - m) * 3 ≤ (r - m) * W := Int.mul_le_mul_of_nonneg_left wide (by omega)
  rw [hr] at title
  rw [row]
  change r * W + _ < _ at title
  change 0 ≤ (H - m) * W + _
  rw [Int.sub_mul, Int.mul_comm H]
  rw [Int.sub_mul r m W] at scaled
  omega

/-! Places in a row that fits: `W` is the width, `H` the height and `I` an icon, in pixels. -/

/-- The box of an initial is above the end of its cell, by more rows than it is left or right of
the launcher. -/
theorem initial_mapped (sc_pos : 1 ≤ sc) (wide : 1 ≤ W) (low : -36 * sc ≤ I) (top : 72 * sc ≤ Y)
    (bottom : Y + I + 36 * sc ≤ H) (left : -(50 * sc) ≤ X + (I + 4 * sc).tdiv 2)
    (right : X + (I + 4 * sc).tdiv 2 + 10 * sc ≤ W + 1) :
    0 ≤ index W (X + (I + 4 * sc).tdiv 2, Y + (I - 14 * sc).tdiv 2 + 7 * sc) ∧
      index W (X + (I + 4 * sc).tdiv 2 + 14 * sc - 2,
        Y + (I - 14 * sc).tdiv 2 + 7 * sc + 14 * sc - 1) < W * H := by
  have down := tdiv_two (I - 14 * sc)
  refine ⟨index_nonneg wide (by omega) (by omega), ?_⟩
  have scaled : 4 * sc * 1 ≤ 4 * sc * W := Int.mul_le_mul_of_nonneg_left wide (by omega)
  refine index_lt (b := 4 * sc + 1) (by omega) (by omega) ?_
  rw [Int.add_mul, Int.one_mul]
  omega

theorem name_first (sc_pos : 1 ≤ sc) (wide : 1 ≤ W) (low : -36 * sc ≤ I) (top : 72 * sc ≤ Y)
    (left : -X ≤ I + 72 * sc) : 0 ≤ index W (X, Y + I + 4 * sc + 11 * sc / 4) :=
  index_nonneg wide (by omega) (by omega)

/-- A name ends in the rows below its cell where the launcher is not narrower than its margins. -/
theorem name_last {q n : Int} (sc_pos : 1 ≤ sc) (margins : 64 * sc ≤ W)
    (bottom : Y + I + 36 * sc ≤ H) (right : X ≤ W) (hq : 11 * sc / 2 = q) (few : n ≤ 30) :
    index W (X + n * q - 2, Y + I + 4 * sc + 11 * sc / 4 + q - 1) < W * H := by
  have width : n * q ≤ 30 * q := Int.mul_le_mul_of_nonneg_right few (by omega)
  exact index_lt (b := 24) (by omega) (by omega) (by omega)

/-- The names of the program's own entries do wherever the hint is inside. -/
theorem builtin_name_last {q n : Int} (sc_pos : 1 ≤ sc) (wide : 3 ≤ W) (low : -36 * sc ≤ I)
    (bottom : Y + I + 36 * sc ≤ H) (right : 2 * X ≤ W - I - 24 * sc + 1) (hq : 11 * sc / 2 = q)
    (few : n ≤ 11) : index W (X + n * q - 2, Y + I + 4 * sc + 11 * sc / 4 + q - 1) < W * H := by
  have width : n * q ≤ 11 * q := Int.mul_le_mul_of_nonneg_right few (by omega)
  obtain ⟨m, hm⟩ : ∃ m, 32 * sc - 11 * sc / 4 - q = m := ⟨_, rfl⟩
  have scaled : m * 3 ≤ m * W := Int.mul_le_mul_of_nonneg_left wide (by omega)
  refine index_lt (b := m + 1) (by omega) (by omega) ?_
  rw [Int.add_mul, Int.one_mul]
  omega

end

/-! The entries. -/

def columnLeft (w sc icon : Int) : Int :=
  (w * sc - (icon + 24) * sc).tdiv 2

def lastTop (h sc icon : Int) : Int :=
  (72 + (gridRows h icon - 1) * (icon + 36)) * sc

/-- There is room for what is drawn, up to pixels that are in the row before or behind. -/
structure LauncherRoom (w h sc icon : Int) : Prop where
  hint : 4 ≤ w * sc ∨ w = 3
  title : index (w * sc) ((w * sc - 84 * sc).tdiv 2 + 84 * sc - 2,
    20 * sc + 14 * sc / 4 + 7 * sc - 1) < w * sc * (h * sc)
  rows : icon + 108 ≤ h → -36 ≤ icon
  wide_icon : icon + 108 ≤ h → 0 < icon → w < icon + 88 →
    0 ≤ index (w * sc) (columnLeft w sc icon + 12 * sc, 72 * sc) ∧
      index (w * sc) (columnLeft w sc icon + 12 * sc + icon * sc - 1,
        lastTop h sc icon + icon * sc - 1) < w * sc * (h * sc)
  name : icon + 108 ≤ h → w < 64 → icon = -36 ∨ 5 ≤ gridRows h icon →
    index (w * sc) (columnLeft w sc icon + 30 * (11 * sc / 2) - 2,
      lastTop h sc icon + icon * sc + 4 * sc + 11 * sc / 4 + 11 * sc / 2 - 1) < w * sc * (h * sc)

theorem columnLeft_mem (w sc icon : Int) :
    w * sc - icon * sc - 24 * sc - 1 ≤ 2 * columnLeft w sc icon ∧
      2 * columnLeft w sc icon ≤ w * sc - icon * sc - 24 * sc + 1 := by
  have cell : (icon + 24) * sc = icon * sc + 24 * sc := Int.add_mul ..
  have near := tdiv_two (w * sc - (icon + 24) * sc)
  rw [columnLeft]
  omega

structure Place (w h sc icon : Int) (k : Nat) (X Y : Int) : Prop where
  top : 72 * sc ≤ Y
  bottom : Y + icon * sc + 36 * sc ≤ h * sc
  columns : (64 ≤ w ∧ 32 * sc ≤ X ∧ X + (icon * sc + 24 * sc) + 32 * sc ≤ w * sc) ∨
    X = columnLeft w sc icon ∧ (0 < icon + 24 → w < icon + 88) ∧ Y ≤ lastTop h sc icon ∧
      (icon = -36 ∨ k < gridRows h icon)

theorem Place.near {k : Nat} (place : Place w h sc icon k X Y) (laid : l.Laid g w h sc icon cols)
    (tiny : sc < 32768) (low : -36 ≤ icon) : Near sc icon X Y := by
  have sc_pos := laid.sc_pos
  have row := laid.row
  have rows := laid.rows
  obtain ⟨top, bottom, columns⟩ := place
  obtain ⟨_, _, _, _, small_cell⟩ := laid.toInt_cell
  have scaled : -36 * sc ≤ icon * sc := Int.mul_le_mul_of_nonneg_right low (by omega)
  have wide := laid.wide
  have left := columnLeft_mem w sc icon
  rcases columns with ⟨_, inside⟩ | ⟨rfl, _⟩ <;> constructor <;> omega

namespace Laid

theorem toInt_one_column (laid : l.Laid g w h sc icon 1) {i : Nat} (small : i < 2147483648) :
    (l.launcherCx g (Int32.ofNat i)).toInt = columnLeft w sc icon := by
  have zero : ((0 : Nat) : Int) * (icon + 24) * sc = 0 := by
    rw [Int.natCast_zero, Int.zero_mul, Int.zero_mul]
  have one : gridLeft w sc icon 1 = columnLeft w sc icon := by
    rw [gridLeft, columnLeft, Int.natCast_one, Int.one_mul]
  have left := laid.toInt_launcherGx ▸ inRange_toInt (l.launcherGx g)
  have column := laid.toInt_column small (Nat.mod_one i)
  rw [zero, Int.add_zero, one] at column
  rw [one] at left
  exact column ⟨by decide, by decide⟩ left

/-- Rows without a height are at the top, or above it. -/
theorem flat_row (laid : l.Laid g w h sc icon 1) (flat : icon ≤ -36) {i : Nat}
    (small : i < 2147483648) (placed : -2147483648 ≤ (i * (icon + 36) + (icon + 36)) * sc) :
    (l.launcherCy g (Int32.ofNat i)).toInt = (72 + i * (icon + 36)) * sc ∧
      (l.EndsBelow g (Int32.ofNat i) ↔ h < 72 + (i * (icon + 36) + (icon + 36))) := by
  have sc_pos := laid.sc_pos
  have small_sc := laid.small
  have nonpos : i * (icon + 36) * sc ≤ 0 :=
    mul_nonpos_of_nonpos_of_nonneg (mul_nonpos_of_nonneg_of_nonpos (by omega) (by omega)) (by omega)
  have step : (icon + 36) * sc ≤ 0 := mul_nonpos_of_nonpos_of_nonneg (by omega) (by omega)
  have head : (72 + i * (icon + 36)) * sc = 72 * sc + i * (icon + 36) * sc := Int.add_mul ..
  have total : (72 + (i * (icon + 36) + (icon + 36))) * sc =
      72 * sc + (i * (icon + 36) + (icon + 36)) * sc := Int.add_mul ..
  rw [Int.add_mul (i * (icon + 36))] at placed total
  have row := laid.toInt_row small (Nat.div_one i) ⟨by omega, by omega⟩ ⟨by omega, by omega⟩
    ⟨by omega, by omega⟩
  refine ⟨row.1, ?_⟩
  rw [EndsBelow, Int32.lt_iff_toInt_lt, laid.height, row.2, Int.mul_lt_mul_right (by omega)]

/-- The first row is not below the launcher when something is drawn. -/
theorem row_of_flat_item (laid : l.Laid g w h sc icon 1) (flat : icon ≤ -36) {hoverIdx : Int32}
    {apps : List LunaApp} {item : LauncherItem}
    (held : item ∈ (l.drawLauncher g hoverIdx apps).items) : icon + 108 ≤ h := by
  obtain ⟨k, found⟩ := List.mem_iff_getElem?.mp held
  rw [drawLauncher, getElem?_launcherItems_shown] at found
  have first := (Option.ite_none_right_eq_some.mp found).1 0 (Nat.zero_lt_succ k)
  obtain ⟨_, _, _, low, _⟩ := laid.toInt_cell
  have sc_pos := laid.sc_pos
  have cell : (icon + 36) * sc = icon * sc + 36 * sc := Int.add_mul ..
  have placed : -2147483648 ≤ (((0 : Nat) : Int) * (icon + 36) + (icon + 36)) * sc := by
    rw [Int.natCast_zero, Int.zero_mul, Int.zero_add]
    omega
  rw [Nat.zero_add, (laid.flat_row flat (by decide) placed).2] at first
  omega

end Laid

section
variable {k : Nat}

theorem top_le_lastTop (row_pos : 0 < icon + 36) (sc_pos : 1 ≤ sc) (drawn : k < gridRows h icon) :
    (72 + k * (icon + 36)) * sc ≤ lastTop h sc icon := by
  have rows : (k : Int) * (icon + 36) ≤ (gridRows h icon - 1) * (icon + 36) :=
    Int.mul_le_mul_of_nonneg_right (by omega) row_pos.le
  exact Int.mul_le_mul_of_nonneg_right (by omega) (by omega)

theorem lastTop_flat (h sc : Int) : lastTop h sc (-36) = 72 * sc := by
  rw [lastTop]
  omega

/-- The rows of one column. -/
theorem place_of_row (laid : l.Laid g w h sc icon 1) (narrow : 0 < icon + 24 → w < icon + 88)
    (row : icon + 108 ≤ h) (small : k < 2147483648)
    (inside : icon = -36 ∨ -36 < icon ∧ k < gridRows h icon) :
    (l.launcherCx g (Int32.ofNat k)).toInt = columnLeft w sc icon ∧
      (l.launcherCy g (Int32.ofNat k)).toInt = (72 + k * (icon + 36)) * sc ∧
      ¬ l.EndsBelow g (Int32.ofNat k) ∧
      Place w h sc icon k (columnLeft w sc icon) ((72 + k * (icon + 36)) * sc) := by
  have sc_pos := laid.sc_pos
  refine ⟨laid.toInt_one_column small, ?_⟩
  rcases inside with rfl | ⟨row_pos, drawn⟩
  · obtain ⟨hy, below⟩ := laid.flat_row le_rfl small (by omega)
    have rows : 72 * sc ≤ h * sc := Int.mul_le_mul_of_nonneg_right (by omega) (by omega)
    have last := lastTop_flat h sc
    rw [below]
    exact ⟨hy, by omega, by omega, by omega, Or.inr ⟨rfl, narrow, by omega, Or.inl rfl⟩⟩
  · have row_pos : 0 < icon + 36 := by omega
    have drawn' : k / 1 < gridRows h icon := (Nat.div_one k).symm ▸ drawn
    have hy := (laid.toInt_launcherCy row_pos small drawn'.le).1
    obtain ⟨top, bottom⟩ := laid.row_inside row_pos drawn
    rw [Nat.div_one] at hy
    rw [laid.endsBelow_iff row_pos small drawn'.le]
    exact ⟨hy, not_not.mpr drawn', top, by omega, Or.inr ⟨rfl, narrow,
      top_le_lastTop row_pos sc_pos drawn, Or.inr drawn⟩⟩

/-- An entry that is drawn has a place in a row that fits. -/
theorem place_of_item (laid : l.Laid g w h sc icon cols) (low : -36 ≤ icon)
    (shape : Columns w icon cols) {hoverIdx : Int32} {apps : List LunaApp}
    (count : apps.length + 4 < 2147483648) {item : LauncherItem}
    (held : (l.drawLauncher g hoverIdx apps).items[k]? = some item) :
    icon + 108 ≤ h ∧ (∃ app, (builtinApps ++ apps)[k]? = some app ∧
        l.launcherItem g hoverIdx (Int32.ofNat k) app = item) ∧
      Place w h sc icon k (l.launcherCx g (Int32.ofNat k)).toInt
        (l.launcherCy g (Int32.ofNat k)).toInt := by
  cases Int.lt_or_le (-36) icon with
  | inl row_pos =>
      obtain ⟨drawn, small, listed⟩ := laid.entry_of_item (by omega) count held
      have rows := (lt_gridRows_iff (by omega) _).mp drawn
      have above := (laid.row_small (by omega) drawn.le).1
      refine ⟨by omega, listed, ?_⟩
      rcases shape with ⟨cell_pos, wide⟩ | ⟨rfl, narrow⟩
      · obtain ⟨⟨hx, hy⟩, inside, top, bottom⟩ :=
          laid.place_inside cell_pos wide small drawn rfl rfl
        have some_column : 0 ≤ (cols : Int) * (icon + 24) := Int.mul_nonneg (by omega) (by omega)
        rw [hx, hy]
        exact ⟨top, by omega, Or.inl ⟨by omega, inside⟩⟩
      · obtain ⟨hx, hy, _, place⟩ := place_of_row laid narrow (by omega) small
          (Or.inr ⟨row_pos, Nat.div_one k ▸ drawn⟩)
        rwa [hx, hy]
  | inr flat =>
      obtain rfl : icon = -36 := by omega
      obtain ⟨rfl, narrow⟩ := shape.resolve_left (by omega)
      have row := laid.row_of_flat_item flat (List.mem_of_getElem? held)
      rw [drawLauncher, getElem?_launcherItems_shown] at held
      obtain ⟨-, found⟩ := Option.ite_none_right_eq_some.mp held
      obtain ⟨app, listed, same⟩ := Option.map_eq_some_iff.mp found
      have short := (List.getElem?_eq_some_iff.mp listed).1
      rw [List.length_append, show builtinApps.length = 4 from rfl] at short
      rw [Nat.zero_add] at same
      obtain ⟨hx, hy, _, place⟩ := place_of_row laid narrow row (k := k) (by omega) (Or.inl rfl)
      rw [hx, hy]
      exact ⟨row, ⟨app, listed, same⟩, place⟩

end

theorem three_le_width (w_pos : 1 ≤ w) (sc_pos : 1 ≤ sc) (hint : 4 ≤ w * sc ∨ w = 3) :
    3 ≤ w * sc := by
  have columns : w ≤ w * sc := le_mul_of_one_le_right (by omega) sc_pos
  omega

/-- A name of the program's own is short. -/
theorem builtin_or_short {apps : List LunaApp} {k : Nat} {app : LunaApp}
    (listed : (builtinApps ++ apps)[k]? = some app) : 4 ≤ k ∨ app.name.length ≤ 11 := by
  cases Nat.lt_or_ge k 4 with
  | inl own =>
      have short : ∀ app ∈ builtinApps, app.name.length ≤ 11 := by decide
      rw [List.getElem?_append_left own] at listed
      exact Or.inr (short app (List.mem_of_getElem? listed))
  | inr other => exact Or.inl other

section
variable {i : Int32} {k : Nat}

theorem Place.icon_ends (place : Place w h sc icon k X Y) (sc_pos : 1 ≤ sc) (w_pos : 1 ≤ w * sc)
    (room : LauncherRoom w h sc icon) (row : icon + 108 ≤ h) (icon_pos : 0 < icon) :
    0 ≤ index (w * sc) (X + 12 * sc, Y) ∧
      index (w * sc) (X + 12 * sc + icon * sc - 1, Y + icon * sc - 1) < w * sc * (h * sc) := by
  have some_pixel : 0 < icon * sc := Int.mul_pos icon_pos (by omega)
  obtain ⟨top, bottom, ⟨_, inside⟩ | ⟨rfl, narrow, above, _⟩⟩ := place
  · exact ⟨index_nonneg w_pos (by omega) (by omega),
      index_lt (b := 1) (by omega) (by omega) (by omega)⟩
  · obtain ⟨first, last⟩ := room.wide_icon row icon_pos (narrow (by omega))
    have wide : 0 ≤ w * sc := by omega
    refine ⟨first.trans (index_mono wide le_rfl top), lt_of_le_of_lt ?_ last⟩
    exact index_mono wide le_rfl (by dsimp only; omega)

theorem Place.initial_ends (place : Place w h sc icon k X Y) (sc_pos : 1 ≤ sc)
    (w_pos : 1 ≤ w * sc) (low : -36 * sc ≤ icon * sc) :
    0 ≤ index (w * sc) (X + (icon * sc + 4 * sc).tdiv 2,
        Y + (icon * sc - 14 * sc).tdiv 2 + 7 * sc) ∧
      index (w * sc) (X + (icon * sc + 4 * sc).tdiv 2 + 14 * sc - 2,
        Y + (icon * sc - 14 * sc).tdiv 2 + 7 * sc + 14 * sc - 1) < w * sc * (h * sc) := by
  have left := columnLeft_mem w sc icon
  have across := tdiv_two (icon * sc + 4 * sc)
  obtain ⟨top, bottom, ⟨_, inside⟩ | ⟨rfl, _⟩⟩ := place <;>
    exact initial_mapped sc_pos w_pos low top bottom (by omega) (by omega)

/-- The end of a name. Only in a launcher that is narrower than its margins is it out of reach of
the rows below. -/
theorem Place.name_last (place : Place w h sc icon k X Y) (sc_pos : 1 ≤ sc) (w_pos : 1 ≤ w)
    (room : LauncherRoom w h sc icon) (row : icon + 108 ≤ h) {n : Nat} (few : n ≤ 30)
    (short : 4 ≤ k ∨ n ≤ 11) :
    index (w * sc) (X + n * (11 * sc / 2) - 2,
      Y + icon * sc + 4 * sc + 11 * sc / 4 + 11 * sc / 2 - 1) < w * sc * (h * sc) := by
  have low : -36 * sc ≤ icon * sc := Int.mul_le_mul_of_nonneg_right (room.rows row) (by omega)
  have wide := three_le_width w_pos sc_pos room.hint
  have left := columnLeft_mem w sc icon
  obtain ⟨top, bottom, place⟩ := place
  cases Int.lt_or_le w 64 with
  | inl narrow =>
      obtain ⟨rfl, _, above, rows⟩ := place.resolve_left (by omega)
      cases short with
      | inl other =>
          have last := room.name row narrow (rows.imp_right fun inside => by omega)
          have width : n * (11 * sc / 2) ≤ 30 * (11 * sc / 2) :=
            Int.mul_le_mul_of_nonneg_right (by omega) (by omega)
          refine lt_of_le_of_lt (index_mono (by omega) ?_ ?_) last <;> dsimp only <;> omega
      | inr short => exact builtin_name_last sc_pos wide low bottom (by omega) rfl (by omega)
  | inr margins =>
      have scaled := Int.mul_le_mul_of_nonneg_right margins (by omega : 0 ≤ sc)
      rcases place with ⟨_, inside⟩ | ⟨rfl, _⟩ <;>
        exact Surface.name_last sc_pos scaled bottom (by omega) rfl (by omega)

/-- What is drawn for an entry in a row that fits. -/
theorem Place.mapped (place : Place w h sc icon k X Y) (laid : l.Laid g w h sc icon cols)
    (tiny : sc < 32768) (row : icon + 108 ≤ h) (room : LauncherRoom w h sc icon)
    (hx : (l.launcherCx g i).toInt = X) (hy : (l.launcherCy g i).toInt = Y) (hoverIdx : Int32)
    {apps : List LunaApp} {app : LunaApp} (listed : (builtinApps ++ apps)[k]? = some app) :
    Mapped (w * sc) (w * sc * (h * sc)) (l.launcherItem g hoverIdx i app).icon ∧
      (∀ f ∈ (l.launcherItem g hoverIdx i app).initial,
        Mapped (w * sc) (w * sc * (h * sc)) f) ∧
      ∀ f ∈ (l.launcherItem g hoverIdx i app).name, Mapped (w * sc) (w * sc * (h * sc)) f := by
  have low := room.rows row
  have near := place.near laid tiny low
  have sc_pos := laid.sc_pos
  have scaled : -36 * sc ≤ icon * sc := Int.mul_le_mul_of_nonneg_right low (by omega)
  have wide := three_le_width laid.w_pos sc_pos room.hint
  have left := columnLeft_mem w sc icon
  rw [laid.icon_iff tiny hx hy near, laid.initial_iff tiny hx hy near low,
    laid.name_iff tiny hx hy near]
  refine ⟨place.icon_ends sc_pos (by omega) room row,
    fun _ => place.initial_ends sc_pos (by omega) scaled, fun _ => ⟨?_, ?_⟩⟩
  · obtain ⟨top, _, ⟨_, inside⟩ | ⟨rfl, _⟩⟩ := place <;>
      exact name_first sc_pos (by omega) scaled top (by omega)
  · exact place.name_last sc_pos laid.w_pos room row (by omega)
      ((builtin_or_short listed).imp_right fun short => by omega)

end

def AllMapped (l : Surface) (g : LauncherGrid) (w h sc : Int) : Prop :=
  ∀ (hoverIdx : Int32) (apps : List LunaApp), apps.length + 4 < 2147483648 →
    ∀ f ∈ (l.drawLauncher g hoverIdx apps).fills, Mapped (w * sc) (w * sc * (h * sc)) f

namespace Laid

theorem mapped_of_room (laid : l.Laid g w h sc icon cols) (tiny : sc < 32768)
    (shape : Columns w icon cols) (room : LauncherRoom w h sc icon) : l.AllMapped g w h sc := by
  intro hoverIdx apps count
  have sc_pos := laid.sc_pos
  have wide := three_le_width laid.w_pos sc_pos room.hint
  rw [LauncherDrawing.forall_fills_iff]
  refine ⟨⟨laid.background_mapped _, ?_⟩, fun item held => ?_, ?_⟩
  · exact (laid.title_iff tiny _ _).mpr ⟨title_first sc_pos wide, room.title⟩
  · obtain ⟨k, found⟩ := List.mem_iff_getElem?.mp held
    have low : -36 ≤ icon := by
      by_contra! flat
      obtain ⟨rfl, _⟩ := shape.resolve_left (by omega)
      have low := room.rows (laid.row_of_flat_item (by omega) held)
      omega
    obtain ⟨row, ⟨app, listed, rfl⟩, place⟩ := place_of_item laid low shape count found
    exact place.mapped laid tiny row room rfl rfl hoverIdx listed
  · exact (laid.hint_iff tiny _ _).mpr ⟨hint_first sc_pos wide rfl room.title,
      (hint_last_iff sc_pos laid.w_pos rfl).mpr room.hint⟩

end Laid

/-! What the launchers that are inside need. -/

def longApp : LunaApp where
  name := List.replicate 30 97

theorem entry_exists (k : Nat) :
    ∃ app, (builtinApps ++ List.replicate (k + 1) longApp)[k]? = some app ∧
      0 < app.name.length ∧ (4 ≤ k → 30 ≤ app.name.length) := by
  cases Nat.lt_or_ge k 4 with
  | inl own =>
      have named : ∀ app ∈ builtinApps, 0 < app.name.length := by decide
      have listed := List.getElem?_eq_getElem (l := builtinApps) own
      rw [List.getElem?_append_left own]
      exact ⟨_, listed, named _ (List.mem_of_getElem? listed), by omega⟩
  | inr other =>
      refine ⟨longApp, ?_, by decide, fun _ => by decide⟩
      rw [List.getElem?_append_right other, List.getElem?_replicate, if_pos]
      exact (Nat.sub_le ..).trans_lt (Nat.lt_succ_self k)

/-- An entry can be drawn in each row that fits. -/
theorem AllMapped.item (all : l.AllMapped g w h sc) {k : Nat} (small : k + 5 < 2147483648)
    (shown : ∀ j < k + 1, ¬ l.EndsBelow g (Int32.ofNat j)) :
    ∃ app : LunaApp, 0 < app.name.length ∧ (4 ≤ k → 30 ≤ app.name.length) ∧
      Mapped (w * sc) (w * sc * (h * sc)) (l.launcherItem g (-1) (Int32.ofNat k) app).icon ∧
      ∀ f ∈ (l.launcherItem g (-1) (Int32.ofNat k) app).name,
        Mapped (w * sc) (w * sc * (h * sc)) f := by
  obtain ⟨app, listed, named, long⟩ := entry_exists k
  have mapped := all (-1) (List.replicate (k + 1) longApp) (by rw [List.length_replicate]; omega)
  rw [LauncherDrawing.forall_fills_iff] at mapped
  have held : (l.drawLauncher g (-1) (List.replicate (k + 1) longApp)).items[k]? =
      some (l.launcherItem g (-1) (Int32.ofNat k) app) := by
    rw [drawLauncher, getElem?_launcherItems_shown, listed, Nat.zero_add, if_pos]
    · rfl
    · simpa only [Nat.zero_add] using shown
  obtain ⟨icon, _, name⟩ := mapped.2.1 _ (List.mem_of_getElem? held)
  exact ⟨app, named, long, icon, name⟩

/-- The name of an entry that is drawn above the first one begins in the mapping. -/
theorem AllMapped.flat_name (all : l.AllMapped g w h sc) (laid : l.Laid g w h sc icon 1)
    (tiny : sc < 32768) (row : icon + 108 ≤ h) (flat : icon < -36) {k : Nat}
    (small : k + 5 < 2147483648) (placed : -1073741824 ≤ k * (icon + 36) * sc)
    (top : -2147483648 ≤ k * (icon + 36) * sc + icon * sc) :
    0 ≤ index (w * sc) (columnLeft w sc icon,
      (72 + k * (icon + 36)) * sc + icon * sc + 4 * sc + 11 * sc / 4) := by
  have sc_pos := laid.sc_pos
  have width := laid.row
  have wide := laid.le_wide
  have w_pos := laid.w_pos
  have above : icon * sc ≤ -37 * sc := Int.mul_le_mul_of_nonneg_right (by omega) (by omega)
  have cell (m : Int) : (m + (icon + 36)) * sc = m * sc + (icon * sc + 36 * sc) := by
    rw [Int.add_mul, Int.add_mul]
  have higher {j : Nat} (le : j < k + 1) : k * (icon + 36) * sc ≤ j * (icon + 36) * sc :=
    Int.mul_le_mul_of_nonneg_right
      (Int.mul_le_mul_of_nonpos_right (by omega) (by omega)) (by omega)
  have shown (j : Nat) (le : j < k + 1) : ¬ l.EndsBelow g (Int32.ofNat j) := by
    have below := higher le
    have start : (j : Int) * (icon + 36) ≤ 0 := mul_nonpos_of_nonneg_of_nonpos (by omega) (by omega)
    rw [(laid.flat_row flat.le (by omega) (by rw [cell]; omega)).2]
    omega
  have hy := (laid.flat_row flat.le (i := k) (by omega) (by rw [cell]; omega)).1
  have start := higher (Nat.zero_lt_succ k)
  rw [Int.natCast_zero, Int.zero_mul, Int.zero_mul] at start
  have head : (72 + k * (icon + 36)) * sc = 72 * sc + k * (icon + 36) * sc := Int.add_mul ..
  have left := columnLeft_mem w sc icon
  have grid := laid.left.2
  rw [Int.natCast_one, Int.one_mul, Int.add_mul] at grid
  have near : Near sc icon (columnLeft w sc icon) ((72 + k * (icon + 36)) * sc) := by
    constructor <;> omega
  obtain ⟨app, named, _, _, name⟩ := all.item small shown
  rw [laid.name_iff tiny (laid.toInt_one_column (by omega)) hy near] at name
  exact (name named).1

/-- So far above the launcher there is no pixel of it. -/
theorem above_first (sc_pos : 1 ≤ sc) {W I v : Int} (wide : 1 ≤ W)
    (left : 2 * X ≤ W - I - 24 * sc + 1) (high : 2 * v + I + 136 * sc ≤ 0)
    (nonpos : I + 36 * sc ≤ 0) :
    index W (X, 72 * sc + v + I + 4 * sc + 11 * sc / 4) < 0 := by
  obtain ⟨r, hr⟩ : ∃ r, 72 * sc + v + I + 4 * sc + 11 * sc / 4 = r := ⟨_, rfl⟩
  have scaled : (r + 1) * W ≤ (r + 1) * 1 := Int.mul_le_mul_of_nonpos_left (by omega) wide
  rw [hr]
  change r * W + X < 0
  rw [Int.add_mul] at scaled
  omega

theorem AllMapped.low (all : l.AllMapped g w h sc) (laid : l.Laid g w h sc icon 1)
    (tiny : sc < 32768) (row : icon + 108 ≤ h) : -36 ≤ icon := by
  by_contra! flat
  have sc_pos := laid.sc_pos
  have wide := laid.le_wide
  have w_pos := laid.w_pos
  have left := (columnLeft_mem w sc icon).2
  have above : icon * sc ≤ -37 * sc := Int.mul_le_mul_of_nonneg_right (by omega) (by omega)
  have head (m : Int) : (72 + m) * sc = 72 * sc + m * sc := Int.add_mul ..
  cases Int.lt_or_le (-200) icon with
  | inl near =>
      -- The 161st entry is far enough above, and there is no overflow on the way to it.
      have deep : -200 * sc ≤ icon * sc := Int.mul_le_mul_of_nonneg_right (by omega) (by omega)
      have rows : ((160 : Nat) : Int) * (icon + 36) * sc = 160 * (icon * sc) + 5760 * sc := by
        rw [Int.mul_assoc, Int.add_mul]
        omega
      have first := all.flat_name laid tiny row flat (k := 160) (by decide) (by omega) (by omega)
      rw [head, rows] at first
      exact absurd first (Int.not_le.mpr (above_first sc_pos (by omega) left (by omega) (by omega)))
  | inr far =>
      -- The name of the first entry is, below an icon of a negative height.
      have deep : icon * sc ≤ -200 * sc := Int.mul_le_mul_of_nonneg_right far (by omega)
      obtain ⟨_, _, _, low, _⟩ := laid.toInt_cell
      have rows : ((0 : Nat) : Int) * (icon + 36) * sc = 0 := by
        rw [Int.natCast_zero, Int.zero_mul, Int.zero_mul]
      have first := all.flat_name laid tiny row flat (k := 0) (by decide) (by omega) (by omega)
      rw [head, rows] at first
      exact absurd first (Int.not_le.mpr (above_first sc_pos (by omega) left (by omega) (by omega)))

/-- The icon of an entry in a row that fits, and a name that is cut off. -/
theorem AllMapped.place (all : l.AllMapped g w h sc) (laid : l.Laid g w h sc icon 1)
    (tiny : sc < 32768) (low : -36 ≤ icon) (narrow : 0 < icon + 24 → w < icon + 88)
    (row : icon + 108 ≤ h) {k : Nat} (small : k + 5 < 2147483648)
    (inside : icon = -36 ∨ -36 < icon ∧ k < gridRows h icon) :
    (0 < icon → 0 ≤ index (w * sc) (columnLeft w sc icon + 12 * sc, (72 + k * (icon + 36)) * sc) ∧
        index (w * sc) (columnLeft w sc icon + 12 * sc + icon * sc - 1,
          (72 + k * (icon + 36)) * sc + icon * sc - 1) < w * sc * (h * sc)) ∧
      (4 ≤ k → index (w * sc) (columnLeft w sc icon + 30 * (11 * sc / 2) - 2,
        (72 + k * (icon + 36)) * sc + icon * sc + 4 * sc + 11 * sc / 4 + 11 * sc / 2 - 1) <
          w * sc * (h * sc)) := by
  have fits {j : Nat} (le : j < k + 1) := place_of_row laid narrow row (k := j) (by omega)
    (inside.imp_right fun ⟨row_pos, drawn⟩ => ⟨row_pos, by omega⟩)
  obtain ⟨hx, hy, _, place⟩ := fits (Nat.lt_succ_self k)
  obtain ⟨app, named, long, icon, name⟩ := all.item small fun j le => (fits le).2.2.1
  have near := place.near laid tiny low
  rw [laid.icon_iff tiny hx hy near] at icon
  rw [laid.name_iff tiny hx hy near] at name
  refine ⟨icon, fun other => ?_⟩
  have last := (name named).2
  rwa [Nat.min_eq_right (long other)] at last

/-- The last row that fits. -/
theorem last_row (laid : l.Laid g w h sc icon cols) (row_pos : -36 < icon) (row : icon + 108 ≤ h) :
    ∃ k, gridRows h icon = k + 1 ∧ k + 5 < 2147483648 ∧
      (72 + k * (icon + 36)) * sc = lastTop h sc icon := by
  have first : 0 < gridRows h icon := (lt_gridRows_iff (by omega) 0).mpr (by omega)
  obtain ⟨k, hk⟩ : ∃ k, gridRows h icon = k + 1 :=
    Nat.exists_eq_add_one.mpr first
  have inside : k < gridRows h icon := by omega
  have last := (lt_gridRows_iff (by omega) k).mp inside
  have each : (k : Int) ≤ k * (icon + 36) := le_mul_of_one_le_right (by omega) (by omega)
  have high : h ≤ h * sc := le_mul_of_one_le_right laid.h_nonneg laid.sc_pos
  have rows := laid.rows
  refine ⟨k, hk, by omega, ?_⟩
  rw [lastTop, hk, Int.natCast_succ, Int.add_sub_cancel]

theorem AllMapped.room (all : l.AllMapped g w h sc) (laid : l.Laid g w h sc icon cols)
    (tiny : sc < 32768) (margins : -23 < icon → 64 ≤ w) (shape : Columns w icon cols) :
    LauncherRoom w h sc icon := by
  have drawn := all (-1) [] (by decide)
  rw [LauncherDrawing.forall_fills_iff] at drawn
  obtain ⟨⟨_, title⟩, _, hint⟩ := drawn
  have title := (laid.title_iff tiny _ _).mp title
  have hint := (laid.hint_iff tiny _ _).mp hint
  have some_column := laid.cols_pos
  have wide_cell (cell_pos : 0 < icon + 24) : icon + 24 ≤ cols * (icon + 24) :=
    le_mul_of_one_le_left cell_pos.le (by omega)
  have rows (row : icon + 108 ≤ h) : -36 ≤ icon := by
    by_contra! flat
    obtain ⟨rfl, _⟩ := shape.resolve_left (by omega)
    exact absurd (all.low laid tiny row) (by omega)
  refine ⟨(hint_last_iff laid.sc_pos laid.w_pos rfl).mp hint.2, title.2, rows, ?_, ?_⟩
  · intro row icon_pos narrow
    have cell := wide_cell (by omega)
    obtain ⟨rfl, one⟩ := shape.resolve_left (by omega)
    obtain ⟨k, hk, small, last⟩ := last_row laid (by omega) row
    have place {j : Nat} (le : j ≤ k) := (all.place laid tiny (by omega) one row (k := j)
      (by omega) (Or.inr ⟨by omega, by omega⟩)).1 icon_pos
    have first := (place (Nat.zero_le k)).1
    rw [Int.natCast_zero, Int.zero_mul, Int.add_zero] at first
    exact ⟨first, last ▸ (place le_rfl).2⟩
  · intro row narrow inside
    have low := rows row
    obtain ⟨rfl, one⟩ := shape.resolve_left (by omega)
    cases Int.lt_or_eq_of_le low with
    | inl row_pos =>
        obtain ⟨k, hk, small, last⟩ := last_row laid row_pos row
        have place := all.place laid tiny low one row small (Or.inr ⟨row_pos, by omega⟩)
        exact last ▸ place.2 (by omega)
    | inr flat =>
        subst flat
        have place := all.place laid tiny low one row (k := 4) (by decide) (Or.inl rfl)
        have top : (72 + ((4 : Nat) : Int) * (-36 + 36)) * sc = lastTop h sc (-36) := by
          rw [lastTop_flat]
          omega
        exact top ▸ place.2 le_rfl

/-! A configure. -/

/-- Each pixel that is drawn after a configure is written to the mapping. -/
def LauncherStaysInside (s : Surface) (c : Configure) (iconSize : Int32) : Prop :=
  let l := s.llSized c
  let g := LauncherGrid.configure iconSize c.w
  c.Fits l.scale.toInt ∧ g.Defined c.w.toNat l.scale.toInt ∧
    ∀ (hoverIdx : Int32) (apps : List LunaApp), apps.length + 4 < 2147483648 →
      ∀ f ∈ (l.drawLauncher g hoverIdx apps).fills, ∀ i ∈ f.writes (l.stride / 4),
        0 ≤ i ∧ i < c.w.toNat * l.scale.toInt * (c.h.toNat * l.scale.toInt)

/-- A launcher with a row has a scale that is far from an overflow. -/
theorem scale_lt {c : Configure} (fits : c.Fits sc) (w_pos : 1 ≤ c.w.toNat)
    (h_pos : 1 ≤ c.h.toNat) (sc_pos : 1 ≤ sc) : sc < 32768 := by
  have columns : sc ≤ c.w.toNat * sc := le_mul_of_one_le_left (by omega) (by omega)
  have rows : sc ≤ c.h.toNat * sc := le_mul_of_one_le_left (by omega) (by omega)
  have square : sc * sc ≤ c.w.toNat * sc * (c.h.toNat * sc) :=
    mul_le_mul columns rows (by omega) (by omega)
  have pixels := fits.2
  rw [Int.mul_assoc 4] at pixels
  by_contra large
  have : 32768 * 32768 ≤ sc * sc := mul_le_mul (by omega) (by omega) (by omega) (by omega)
  omega

theorem toInt_llSized_stride {s : Surface} {c : Configure} (hsc : (s.llAccept c).scale.toInt = sc)
    (sc_pos : 1 ≤ sc) (fits : c.Fits sc) : ((s.llSized c).stride / 4).toInt = c.w.toNat * sc := by
  have row := fits.1
  have columns : (c.w.toNat : Int) ≤ c.w.toNat * sc := le_mul_of_one_le_right (by omega) sc_pos
  have width : (c.w * (s.llAccept c).scale.toUInt32).toInt32.toInt = c.w.toNat * sc := by
    rw [UInt32.toInt32_mul]
    exact toInt_mul (toInt_toInt32_of_lt (by omega)) hsc (by omega) (by omega)
  have bytes : (s.llSized c).stride.toInt = c.w.toNat * sc * 4 :=
    toInt_mul width rfl (by omega) (by omega)
  rw [toInt_div bytes (by omega) (by decide)]
  exact Int.mul_ediv_cancel _ (by decide)

theorem launcherStaysInside_iff (s : Surface) (c : Configure) (iconSize : Int32)
    (w_pos : 1 ≤ c.w.toNat) (h_pos : 1 ≤ c.h.toNat) :
    s.LauncherStaysInside c iconSize ↔
      c.Fits (s.llAccept c).scale.toInt ∧
        GridFits c.w.toNat (s.llAccept c).scale.toInt iconSize.toInt ∧
        LauncherRoom c.w.toNat c.h.toNat (s.llAccept c).scale.toInt iconSize.toInt := by
  obtain ⟨sc, hsc⟩ : ∃ sc, (s.llAccept c).scale.toInt = sc := ⟨_, rfl⟩
  have sc_pos : 1 ≤ sc := hsc ▸ one_le_llAccept_scale s c
  have scale : (s.llSized c).scale.toInt = sc := hsc
  simp only [LauncherStaysInside, hsc, scale]
  refine and_congr_right fun fits => ?_
  rw [LauncherGrid.defined_iff rfl sc_pos fits.1]
  refine and_congr_right fun grid => ?_
  have tiny := scale_lt fits w_pos h_pos sc_pos
  have defined := (LauncherGrid.defined_iff rfl sc_pos fits.1).mpr grid
  obtain ⟨cols, hcols, shape⟩ := LauncherGrid.cols_of_fits rfl sc_pos fits.1 grid
  have accepted := laid_of_defined (s := s) w_pos (by rwa [hsc]) (by omega) (by rwa [hsc])
  rw [hsc, hcols, Int.toNat_natCast] at accepted
  have laid : (s.llSized c).Laid (LauncherGrid.configure iconSize c.w) c.w.toNat c.h.toNat sc
      iconSize.toInt cols := { accepted with }
  simp only [Fill.forall_writes_iff (toInt_llSized_stride hsc sc_pos fits)]
  exact ⟨fun all => AllMapped.room all laid tiny grid.columns shape,
    fun room => laid.mapped_of_room tiny shape room⟩

/-- The first panel of an output stays inside exactly when its button does. A launcher does when
its grid is defined and it has room; and what the configure leaves is this launcher. -/
theorem pixels_stay_inside_iff (out : LunaOutput) (wide : 1 ≤ out.width.toInt)
    (scaled : 1 ≤ out.scale.toInt) (s : Surface) (c : Configure) (iconSize : Int32)
    (w_pos : 1 ≤ c.w.toNat) (h_pos : 1 ≤ c.h.toNat) :
    (out.PanelStaysInside ↔ out.PanelFits ∧ 100 * out.scale.toInt ≤ out.width.toInt) ∧
      (s.LauncherStaysInside c iconSize ↔
        c.Fits (s.llAccept c).scale.toInt ∧
          GridFits c.w.toNat (s.llAccept c).scale.toInt iconSize.toInt ∧
          LauncherRoom c.w.toNat c.h.toNat (s.llAccept c).scale.toInt iconSize.toInt) ∧
      ∀ l', s.llConfigure c = some l' → l'.sides = (s.llSized c).sides ∧
        l'.drawLauncher = (s.llSized c).drawLauncher := by
  refine ⟨LunaOutput.panelStaysInside_iff wide scaled,
    launcherStaysInside_iff s c iconSize w_pos h_pos, fun l' next => ?_⟩
  have same := llConfigure_sides next
  refine ⟨same, ?_⟩
  funext g hoverIdx apps
  exact drawLauncher_congr same g hoverIdx apps

theorem pixels_stay_inside_iff_retina :
    let out : LunaOutput := { wlOutput := 0, width := 2880, height := 1800 }
    out.PanelStaysInside ∧ LauncherStaysInside {} (configureRetina 300 420) 64 := by
  intro out
  obtain ⟨panel, launcher, _⟩ := pixels_stay_inside_iff out (by decide) (by decide) {}
    (configureRetina 300 420) 64 (by decide) (by decide)
  refine ⟨panel.mpr ⟨by unfold LunaOutput.PanelFits; decide, by decide⟩, launcher.mpr ⟨?_, ?_, ?_⟩⟩
  · unfold Configure.Fits
    decide
  · exact ⟨by decide, by decide, by decide, by decide, by decide⟩
  · exact ⟨by decide, by decide, fun _ => by decide, fun _ _ narrow => absurd narrow (by decide),
      fun _ narrow => absurd narrow (by decide)⟩

/-- A panel of 50 columns has a button of 100, and the title ends below a launcher of 24 rows. -/
theorem pixels_outside :
    let out : LunaOutput := { wlOutput := 0, width := 50, height := 50, scale := 1 }
    (out.PanelFits ∧ ¬ out.PanelStaysInside) ∧
      GridFits 300 2 64 ∧ ¬ LauncherStaysInside {} (configureRetina 300 24) 64 := by
  intro out
  refine ⟨⟨by unfold LunaOutput.PanelFits; decide, fun inside => ?_⟩,
    ⟨by decide, by decide, by decide, by decide, by decide⟩, fun inside => ?_⟩
  · have button := ((LunaOutput.panelStaysInside_iff (by decide) (by decide)).mp inside).2
    exact absurd button (by decide)
  · have room := ((launcherStaysInside_iff _ _ _ (by decide) (by decide)).mp inside).2.2
    exact absurd room.title (by decide)

end Surface
end LunaOS.Shell
