import LunaOS.Shell.LauncherDrawing

/-!
The grid of the launcher. Where it is wide enough for a cell next to its margins, the icons that
are drawn are those whose row fits, and their cells do not touch. The columns are counted in
logical pixels and the cells are placed in scaled ones, which comes to the same.
-/
namespace LunaOS.Shell
open Ints Rects

/-- The products of a configure at the scale `sc` fit an `int`. -/
def Configure.Fits (c : Configure) (sc : Int) : Prop :=
  4 * (c.w.toNat * sc) < 2147483648 ∧
    4 * (c.w.toNat * sc) * (c.h.toNat * sc) < 2147483648

namespace Surface
variable {l : Surface} {g : LauncherGrid} {w h sc icon gx : Int} {cols : Nat}

structure Laid (l : Surface) (g : LauncherGrid) (w h sc icon : Int) (cols : Nat) : Prop where
  width : (l.width * l.scale).toInt = w * sc
  height : (l.height * l.scale).toInt = h * sc
  scale : l.scale.toInt = sc
  iconSize : g.iconSize.toInt = icon
  cellW : g.cellW.toInt = icon + 24
  cellH : g.cellH.toInt = icon + 36
  columns : g.cols.toInt = cols
  w_pos : 1 ≤ w
  h_nonneg : 0 ≤ h
  sc_pos : 1 ≤ sc
  cols_pos : 1 ≤ cols
  row : 4 * (w * sc) < 2147483648
  rows : h * sc < 536870912
  small : 108 * sc < 2147483648
  cell_low : -2147483648 ≤ icon * sc
  cell : (icon + 108) * sc < 2147483648
  grid : InRange (cols * (icon + 24) * sc)
  left : InRange (w * sc - cols * (icon + 24) * sc)

def gridRows (h icon : Int) : Nat :=
  ((h - 72) / (icon + 36)).toNat

theorem lt_gridRows_iff (row_pos : 0 < icon + 36) (r : Nat) :
    r < gridRows h icon ↔ 72 + (r * (icon + 36) + (icon + 36)) ≤ h := by
  have step : ((r : Int) + 1) * (icon + 36) = r * (icon + 36) + (icon + 36) := by
    rw [Int.add_mul, Int.one_mul]
  rw [gridRows, Int.lt_toNat, ← Int.add_one_le_iff, Int.le_ediv_iff_mul_le row_pos, step]
  omega

/-- A place in a row of cells leaves its cell to the ones behind. -/
theorem place_next {a b : Nat} (before : a < b) {m s : Int} (m_nonneg : 0 ≤ m)
    (s_nonneg : 0 ≤ s) : (a : Int) * m * s + m * s ≤ b * m * s := by
  have next : ((a : Int) + 1) * m ≤ b * m :=
    Int.mul_le_mul_of_nonneg_right (by omega) m_nonneg
  have scaled := Int.mul_le_mul_of_nonneg_right next s_nonneg
  rwa [Int.add_mul, Int.one_mul, Int.add_mul] at scaled

namespace Laid

theorem le_wide (laid : l.Laid g w h sc icon cols) : w ≤ w * sc :=
  le_mul_of_one_le_right (zero_le_one.trans laid.w_pos) laid.sc_pos

theorem wide (laid : l.Laid g w h sc icon cols) : 0 ≤ w * sc :=
  (zero_le_one.trans laid.w_pos).trans laid.le_wide

theorem high (laid : l.Laid g w h sc icon cols) : 0 ≤ h * sc :=
  Int.mul_nonneg laid.h_nonneg (zero_le_one.trans laid.sc_pos)

/-- The sizes of a cell and of an icon. -/
theorem toInt_cell (laid : l.Laid g w h sc icon cols) :
    (g.cellW * l.scale).toInt = icon * sc + 24 * sc ∧
      (g.cellH * l.scale).toInt = icon * sc + 36 * sc ∧
      (g.iconSize * l.scale).toInt = icon * sc ∧
      -2147483648 ≤ icon * sc ∧ icon * sc + 108 * sc < 2147483648 := by
  have sc_pos := laid.sc_pos
  have low := laid.cell_low
  have cell := laid.cell
  have width : (icon + 24) * sc = icon * sc + 24 * sc := Int.add_mul ..
  have height : (icon + 36) * sc = icon * sc + 36 * sc := Int.add_mul ..
  have bottom : (icon + 108) * sc = icon * sc + 108 * sc := Int.add_mul ..
  refine ⟨?_, ?_, Ints.toInt_mul laid.iconSize laid.scale low (by omega), low, by omega⟩
  · rw [← width]
    exact Ints.toInt_mul laid.cellW laid.scale (by omega) (by omega)
  · rw [← height]
    exact Ints.toInt_mul laid.cellH laid.scale (by omega) (by omega)

/-- The top of a row and the end of its cells, where they do not overflow. -/
theorem toInt_row (laid : l.Laid g w h sc icon cols) {i r : Nat} (small : i < 2147483648)
    (row : i / cols = r) (placed : InRange (r * (icon + 36) * sc))
    (top : InRange ((72 + r * (icon + 36)) * sc))
    (bottom : InRange ((72 + (r * (icon + 36) + (icon + 36))) * sc)) :
    (l.launcherCy g (Int32.ofNat i)).toInt = (72 + r * (icon + 36)) * sc ∧
      (l.launcherCy g (Int32.ofNat i) + g.cellH * l.scale).toInt =
        (72 + (r * (icon + 36) + (icon + 36))) * sc := by
  obtain ⟨_, cell_h, _⟩ := laid.toInt_cell
  have quotient : (Int32.ofNat i / g.cols).toInt = r := by
    have cols_pos : 0 < g.cols.toInt := by
      rw [laid.columns]
      exact Int.natCast_pos.mpr laid.cols_pos
    rw [Ints.toInt_div (Ints.toInt_ofNat small) (by omega) cols_pos, laid.columns, ← row]
    exact (Int.natCast_ediv i cols).symm
  have one := placed.of_mul laid.sc_pos
  have head : (72 + r * (icon + 36)) * sc = 72 * sc + r * (icon + 36) * sc := Int.add_mul ..
  have total : (72 + (r * (icon + 36) + (icon + 36))) * sc =
      72 * sc + r * (icon + 36) * sc + (icon * sc + 36 * sc) := by
    rw [Int.add_mul, Int.add_mul, Int.add_mul icon, Int.add_assoc]
  have sc_pos := laid.sc_pos
  have sc_small := laid.small
  have gy : (72 * l.scale).toInt = 72 * sc := Ints.toInt_mul rfl laid.scale (by omega) (by omega)
  rw [head] at top ⊢
  rw [total] at bottom ⊢
  have below : (Int32.ofNat i / g.cols * g.cellH * l.scale).toInt = r * (icon + 36) * sc :=
    Ints.toInt_mul (Ints.toInt_mul quotient laid.cellH one.1 one.2) laid.scale placed.1 placed.2
  have cy : (l.launcherCy g (Int32.ofNat i)).toInt = 72 * sc + r * (icon + 36) * sc :=
    Ints.toInt_add gy below top.1 top.2
  exact ⟨cy, Ints.toInt_add cy cell_h bottom.1 bottom.2⟩

/-- A row that fits, or the one behind, is placed without an overflow. -/
theorem row_small (laid : l.Laid g w h sc icon cols) (row_pos : 0 < icon + 36) {r : Nat}
    (near : r ≤ gridRows h icon) :
    0 ≤ (r : Int) * (icon + 36) ∧ r * (icon + 36) ≤ r * (icon + 36) * sc ∧
      (72 + (r * (icon + 36) + (icon + 36))) * sc < 2147483648 := by
  have sc_pos := laid.sc_pos
  have nonneg : 0 ≤ (r : Int) * (icon + 36) := Int.mul_nonneg (by omega) (by omega)
  refine ⟨nonneg, le_mul_of_one_le_right nonneg sc_pos, ?_⟩
  cases r with
  | zero =>
      have cell := laid.cell
      rw [Int.natCast_zero, Int.zero_mul, Int.zero_add, ← Int.add_assoc, Int.add_comm 72,
        Int.add_assoc]
      exact cell
  | succ r =>
      have fits := (lt_gridRows_iff row_pos r).mp near
      have next : ((r + 1 : Nat) : Int) * (icon + 36) = r * (icon + 36) + (icon + 36) := by
        rw [Int.natCast_succ, Int.add_mul, Int.one_mul]
      have above : 0 ≤ (r : Int) * (icon + 36) := Int.mul_nonneg (by omega) (by omega)
      have twice : (72 + ((r + 1 : Nat) * (icon + 36) + (icon + 36))) * sc ≤ 2 * h * sc :=
        Int.mul_le_mul_of_nonneg_right (by omega) (by omega)
      have rows := laid.rows
      rw [Int.mul_assoc] at twice
      omega

theorem toInt_launcherCy (laid : l.Laid g w h sc icon cols) (row_pos : 0 < icon + 36) {i : Nat}
    (small : i < 2147483648) (near : i / cols ≤ gridRows h icon) :
    (l.launcherCy g (Int32.ofNat i)).toInt = (72 + (i / cols : Nat) * (icon + 36)) * sc ∧
      (l.launcherCy g (Int32.ofNat i) + g.cellH * l.scale).toInt =
        (72 + ((i / cols : Nat) * (icon + 36) + (icon + 36))) * sc := by
  have sc_pos := laid.sc_pos
  obtain ⟨nonneg, scaled, fits⟩ := laid.row_small row_pos near
  obtain ⟨r, hr⟩ : ∃ r : Nat, i / cols = r := ⟨_, rfl⟩
  rw [hr] at nonneg scaled fits ⊢
  have one_cell : 0 ≤ (icon + 36) * sc := Int.mul_nonneg (by omega) (by omega)
  have total : (72 + (r * (icon + 36) + (icon + 36))) * sc =
      72 * sc + (r * (icon + 36) * sc + (icon + 36) * sc) := by
    rw [Int.add_mul, Int.add_mul]
  have head : (72 + r * (icon + 36)) * sc = 72 * sc + r * (icon + 36) * sc := Int.add_mul ..
  exact laid.toInt_row small hr ⟨by omega, by omega⟩ ⟨by omega, by omega⟩ ⟨by omega, fits⟩

theorem endsBelow_iff (laid : l.Laid g w h sc icon cols) (row_pos : 0 < icon + 36) {i : Nat}
    (small : i < 2147483648) (near : i / cols ≤ gridRows h icon) :
    l.EndsBelow g (Int32.ofNat i) ↔ ¬ i / cols < gridRows h icon := by
  rw [EndsBelow, Int32.lt_iff_toInt_lt, laid.height,
    (laid.toInt_launcherCy row_pos small near).2,
    Int.mul_lt_mul_right (by have := laid.sc_pos; omega), lt_gridRows_iff row_pos]
  omega

/-- The entries that are drawn are those of the rows that there is room for. -/
theorem getElem?_items (laid : l.Laid g w h sc icon cols) (row_pos : 0 < icon + 36)
    (hoverIdx : Int32) {apps : List LunaApp} (count : apps.length + 4 < 2147483648) (k : Nat) :
    (l.drawLauncher g hoverIdx apps).items[k]? =
      if k < cols * gridRows h icon then
        (builtinApps ++ apps)[k]?.map (l.launcherItem g hoverIdx (Int32.ofNat k))
      else none := by
  have cols_pos : 0 < cols := laid.cols_pos
  have length : (builtinApps ++ apps).length = apps.length + 4 := by
    rw [List.length_append, Nat.add_comm]
    rfl
  obtain ⟨n, hn⟩ : ∃ n, n = min (apps.length + 4) (cols * gridRows h icon) := ⟨_, rfl⟩
  have row {j : Nat} (before : j < cols * gridRows h icon) : j / cols < gridRows h icon :=
    Nat.div_lt_of_lt_mul before
  have loop := getElem?_launcherItems l g hoverIdx (n := n) 0 (builtinApps ++ apps) ?_ ?_ k
  · rw [Nat.zero_add] at loop
    refine loop.trans ?_
    by_cases listed : k < apps.length + 4
    · have same : k < n ↔ k < cols * gridRows h icon := by omega
      simp only [same]
    · rw [List.getElem?_eq_none (by omega), Option.map_none, ite_self, ite_self]
  · intro j before
    have shown : j / cols < gridRows h icon := row (by omega)
    rw [Nat.zero_add, laid.endsBelow_iff row_pos (by omega) shown.le]
    exact not_not.mpr shown
  · intro more
    have last : n / cols = gridRows h icon := by
      have : n = cols * gridRows h icon := by omega
      rw [this, Nat.mul_div_cancel_left _ cols_pos]
    rw [Nat.zero_add, laid.endsBelow_iff row_pos (by omega) last.le, last]
    exact Nat.lt_irrefl _

/-- What is drawn stands for an entry in a row that fits. -/
theorem entry_of_item (laid : l.Laid g w h sc icon cols) (row_pos : 0 < icon + 36)
    {hoverIdx : Int32} {apps : List LunaApp} (count : apps.length + 4 < 2147483648) {k : Nat}
    {item : LauncherItem}
    (held : (l.drawLauncher g hoverIdx apps).items[k]? = some item) :
    k / cols < gridRows h icon ∧ k < 2147483648 ∧
      ∃ app, (builtinApps ++ apps)[k]? = some app ∧
        l.launcherItem g hoverIdx (Int32.ofNat k) app = item := by
  rw [laid.getElem?_items row_pos hoverIdx count] at held
  obtain ⟨before, found⟩ := Option.ite_none_right_eq_some.mp held
  obtain ⟨app, listed, same⟩ := Option.map_eq_some_iff.mp found
  have short := (List.getElem?_eq_some_iff.mp listed).1
  rw [List.length_append, show builtinApps.length = 4 from rfl] at short
  exact ⟨Nat.div_lt_of_lt_mul before, by omega, app, listed, same⟩

/-! The columns. -/

def gridLeft (w sc icon : Int) (cols : Nat) : Int :=
  (w * sc - cols * (icon + 24) * sc).tdiv 2

theorem toInt_launcherGx (laid : l.Laid g w h sc icon cols) :
    (l.launcherGx g).toInt = gridLeft w sc icon cols := by
  have one := laid.grid.of_mul laid.sc_pos
  have taken : (g.cols * g.cellW * l.scale).toInt = cols * (icon + 24) * sc :=
    Ints.toInt_mul (Ints.toInt_mul laid.columns laid.cellW one.1 one.2) laid.scale laid.grid.1
      laid.grid.2
  exact Ints.toInt_half (Ints.toInt_sub laid.width taken laid.left.1 laid.left.2) rfl

theorem toInt_column (laid : l.Laid g w h sc icon cols) {i c : Nat} (small : i < 2147483648)
    (column : i % cols = c) (placed : InRange (c * (icon + 24) * sc))
    (inside : InRange (gridLeft w sc icon cols + c * (icon + 24) * sc)) :
    (l.launcherCx g (Int32.ofNat i)).toInt =
      gridLeft w sc icon cols + c * (icon + 24) * sc := by
  have one := placed.of_mul laid.sc_pos
  have remainder : (Int32.ofNat i % g.cols).toInt = c := by
    rw [Ints.toInt_mod (Ints.toInt_ofNat small) (by omega), laid.columns, ← column]
    exact (Int.natCast_emod i cols).symm
  have shift : (Int32.ofNat i % g.cols * g.cellW * l.scale).toInt = c * (icon + 24) * sc :=
    Ints.toInt_mul (Ints.toInt_mul remainder laid.cellW one.1 one.2) laid.scale placed.1 placed.2
  exact Ints.toInt_add laid.toInt_launcherGx shift inside.1 inside.2

/-! A launcher that is wide enough for its columns. -/

theorem gridLeft_mem (laid : l.Laid g w h sc icon cols) (cell_pos : 0 < icon + 24)
    (wide : cols * (icon + 24) + 64 ≤ w) :
    0 ≤ cols * (icon + 24) * sc ∧ 32 * sc ≤ gridLeft w sc icon cols ∧
      gridLeft w sc icon cols + cols * (icon + 24) * sc + 32 * sc ≤ w * sc := by
  have sc_pos := laid.sc_pos
  have margins : (cols * (icon + 24) + 64) * sc ≤ w * sc :=
    Int.mul_le_mul_of_nonneg_right wide (by omega)
  have nonneg : 0 ≤ (cols : Int) * (icon + 24) := Int.mul_nonneg (by omega) (by omega)
  have above : 0 ≤ cols * (icon + 24) * sc := Int.mul_nonneg nonneg (by omega)
  rw [Int.add_mul] at margins
  rw [gridLeft, Int.tdiv_eq_ediv_of_nonneg (by omega)]
  omega

theorem gridLeft_eq (laid : l.Laid g w h sc icon cols) (cell_pos : 0 < icon + 24)
    (wide : cols * (icon + 24) + 64 ≤ w) :
    gridLeft w sc icon cols = (w * sc - cols * (icon + 24) * sc) / 2 := by
  obtain ⟨_, left, right⟩ := laid.gridLeft_mem cell_pos wide
  have sc_pos := laid.sc_pos
  exact Int.tdiv_eq_ediv_of_nonneg (by omega)

/-- A column and the one behind it are inside the grid. -/
theorem column_small (laid : l.Laid g w h sc icon cols) (cell_pos : 0 < icon + 24) {c : Nat}
    (inside : c < cols) :
    0 ≤ c * (icon + 24) * sc ∧
      c * (icon + 24) * sc + (icon + 24) * sc ≤ cols * (icon + 24) * sc := by
  have sc_pos := laid.sc_pos
  have nonneg : 0 ≤ (c : Int) * (icon + 24) := Int.mul_nonneg (by omega) (by omega)
  exact ⟨Int.mul_nonneg nonneg (by omega), place_next inside (by omega) (by omega)⟩

theorem toInt_launcherCx (laid : l.Laid g w h sc icon cols) (cell_pos : 0 < icon + 24)
    (wide : cols * (icon + 24) + 64 ≤ w) {i : Nat} (small : i < 2147483648) :
    (l.launcherCx g (Int32.ofNat i)).toInt =
      gridLeft w sc icon cols + (i % cols : Nat) * (icon + 24) * sc := by
  have sc_pos := laid.sc_pos
  have row := laid.row
  obtain ⟨above, left, right⟩ := laid.gridLeft_mem cell_pos wide
  obtain ⟨nonneg, within⟩ := laid.column_small cell_pos (Nat.mod_lt i laid.cols_pos)
  have cell : 0 ≤ (icon + 24) * sc := Int.mul_nonneg (by omega) (by omega)
  exact laid.toInt_column small rfl ⟨by omega, by omega⟩ ⟨by omega, by omega⟩

end Laid

def cellFill (l : Surface) (g : LauncherGrid) (item : LauncherItem) : Fill :=
  ⟨item.cx, item.cy, g.cellW * l.scale, g.cellH * l.scale, 0⟩

namespace Laid

/-- The top of a row that fits. -/
theorem row_inside (laid : l.Laid g w h sc icon cols) (row_pos : 0 < icon + 36) {r : Nat}
    (drawn : r < gridRows h icon) :
    72 * sc ≤ (72 + r * (icon + 36)) * sc ∧
      (72 + r * (icon + 36)) * sc + (icon * sc + 36 * sc) ≤ h * sc := by
  have sc_pos := laid.sc_pos
  have above := (laid.row_small row_pos drawn.le).1
  have fits := Int.mul_le_mul_of_nonneg_right ((lt_gridRows_iff row_pos _).mp drawn)
    (by omega : 0 ≤ sc)
  rw [← Int.add_assoc, Int.add_mul, Int.add_mul icon 36] at fits
  exact ⟨Int.mul_le_mul_of_nonneg_right (by omega) (by omega), fits⟩

/-- The place of a cell that is drawn. -/
theorem place_inside (laid : l.Laid g w h sc icon cols) (cell_pos : 0 < icon + 24)
    (wide : cols * (icon + 24) + 64 ≤ w) {k : Nat} (small : k < 2147483648)
    (drawn : k / cols < gridRows h icon) {x y : Int}
    (hx : gridLeft w sc icon cols + (k % cols : Nat) * (icon + 24) * sc = x)
    (hy : (72 + (k / cols : Nat) * (icon + 36)) * sc = y) :
    ((l.launcherCx g (Int32.ofNat k)).toInt = x ∧ (l.launcherCy g (Int32.ofNat k)).toInt = y) ∧
      (32 * sc ≤ x ∧ x + (icon * sc + 24 * sc) + 32 * sc ≤ w * sc) ∧
      72 * sc ≤ y ∧ y + (icon * sc + 36 * sc) ≤ h * sc := by
  have row_pos : 0 < icon + 36 := by omega
  obtain ⟨above, left, right⟩ := laid.gridLeft_mem cell_pos wide
  obtain ⟨before, within⟩ := laid.column_small cell_pos (Nat.mod_lt k laid.cols_pos)
  have cell_width : (icon + 24) * sc = icon * sc + 24 * sc := Int.add_mul ..
  have inside := laid.row_inside row_pos drawn
  rw [hy] at inside
  exact ⟨⟨(laid.toInt_launcherCx cell_pos wide small).trans hx,
    (laid.toInt_launcherCy row_pos small drawn.le).1.trans hy⟩, ⟨by omega, by omega⟩, inside⟩

/-- A cell that is drawn, as a place in the grid, with its icon in it. -/
theorem cell_at (laid : l.Laid g w h sc icon cols) (icon_pos : 1 ≤ icon)
    (wide : cols * (icon + 24) + 64 ≤ w) (hoverIdx : Int32) (app : LunaApp) {k : Nat}
    (small : k < 2147483648) (drawn : k / cols < gridRows h icon) {x y : Int}
    (hx : gridLeft w sc icon cols + (k % cols : Nat) * (icon + 24) * sc = x)
    (hy : (72 + (k / cols : Nat) * (icon + 36)) * sc = y) :
    (l.cellFill g (l.launcherItem g hoverIdx (Int32.ofNat k) app)).At x y
        (icon * sc + 24 * sc) (icon * sc + 36 * sc) ∧
      (l.launcherItem g hoverIdx (Int32.ofNat k) app).icon.At (x + 12 * sc) y (icon * sc)
        (icon * sc) ∧
      (0 ≤ x ∧ x + (icon * sc + 24 * sc) ≤ w * sc) ∧
      0 ≤ y ∧ y + (icon * sc + 36 * sc) ≤ h * sc := by
  have sc_pos := laid.sc_pos
  have row := laid.row
  have rows := laid.rows
  obtain ⟨cell_w, cell_h, icon_size, low, small_cell⟩ := laid.toInt_cell
  have some_pixel : sc ≤ icon * sc := le_mul_of_one_le_left (by omega) icon_pos
  obtain ⟨⟨cx, cy⟩, ⟨left, right⟩, top, bottom⟩ :=
    laid.place_inside (by omega) wide small drawn hx hy
  have margin : ((g.cellW * l.scale - g.iconSize * l.scale) / 2).toInt = 12 * sc := by
    have twice := Ints.toInt_sub cell_w icon_size (by omega) (by omega)
    rw [Ints.toInt_div twice (by omega) (by decide)]
    change (icon * sc + 24 * sc - icon * sc) / 2 = 12 * sc
    omega
  refine ⟨Fill.at_mk 0 cx cy cell_w cell_h ⟨by omega, by omega⟩ ⟨by omega, by omega⟩, ?_,
    ⟨by omega, by omega⟩, by omega, bottom⟩
  exact Fill.at_mk _ (Ints.toInt_add cx margin (by omega) (by omega)) cy icon_size icon_size
    ⟨by omega, by omega⟩ ⟨by omega, by omega⟩

/-- Two places in the grid do not overlap. -/
theorem disjoint_cells (laid : l.Laid g w h sc icon cols) (icon_pos : 1 ≤ icon)
    (wide : cols * (icon + 24) + 64 ≤ w) (hoverIdx : Int32) (app app' : LunaApp) {k k' : Nat}
    (small : k < 2147483648) (small' : k' < 2147483648) (drawn : k / cols < gridRows h icon)
    (drawn' : k' / cols < gridRows h icon) (before : k < k') :
    Disjoint (l.cellFill g (l.launcherItem g hoverIdx (Int32.ofNat k) app)).area
      (l.cellFill g (l.launcherItem g hoverIdx (Int32.ofNat k') app')).area := by
  have sides := (laid.cell_at icon_pos wide hoverIdx app small drawn rfl rfl).1
  have sides' := (laid.cell_at icon_pos wide hoverIdx app' small' drawn' rfl rfl).1
  rw [sides.area_eq, sides'.area_eq]
  have sc_pos := laid.sc_pos
  have width : (icon + 24) * sc = icon * sc + 24 * sc := Int.add_mul ..
  have height : (icon + 36) * sc = icon * sc + 36 * sc := Int.add_mul ..
  cases Nat.eq_or_lt_of_le (Nat.div_le_div_right (c := cols) before.le) with
  | inl same =>
      have left : k % cols < k' % cols := by
        have whole := Nat.div_add_mod k cols
        have whole' := Nat.div_add_mod k' cols
        rw [same] at whole
        omega
      have apart := place_next left (m := icon + 24) (s := sc) (by omega) (by omega)
      exact disjoint_of_columns (by omega)
  | inr above =>
      have apart := place_next above (m := icon + 36) (s := sc) (by omega) (by omega)
      refine disjoint_of_rows ?_
      rw [Int.add_mul, Int.add_mul 72]
      omega

end Laid

end Surface

namespace LauncherGrid
variable {iconSize : Int32} {w : UInt32} {icon : Int}

/-- Neither `ll_configure` nor `launcher_render` divides by zero or overflows on the way to the
first cell, which is undefined. -/
structure Defined (g : LauncherGrid) (w sc : Int) : Prop where
  divisor : g.iconSize.toInt ≠ -24
  icon : -2147483648 ≤ g.iconSize.toInt * sc
  bottom : (g.iconSize.toInt + 108) * sc < 2147483648
  grid : InRange (g.cols.toInt * (g.iconSize.toInt + 24) * sc)
  left : InRange (w * sc - g.cols.toInt * (g.iconSize.toInt + 24) * sc)

theorem icon_small {sc : Int} (sc_pos : 1 ≤ sc) (bottom : (icon + 108) * sc < 2147483648) :
    icon + 108 < 2147483648 := by
  cases Int.le_total 0 (icon + 108) with
  | inl nonneg => exact lt_of_le_of_lt (le_mul_of_one_le_right nonneg sc_pos) bottom
  | inr negative => omega

theorem toInt_cols (iconSize : Int32) {w : UInt32} {divisor quotient : Nat}
    (hd : (iconSize + 24).toUInt32.toNat = divisor)
    (hq : (4294967232 + w.toNat) % 4294967296 / divisor = quotient) :
    (configure iconSize w).cols.toInt = max 1 ((quotient : Int).bmod (2 ^ 32)) := by
  have value : ((w - 64) / (iconSize + 24).toUInt32).toInt32.toInt =
      (quotient : Int).bmod (2 ^ 32) := by
    rw [Ints.toInt_toInt32, UInt32.toNat_div, UInt32.toNat_sub, hd, ← hq]
    rfl
  have one : (1 : Int32).toInt = 1 := rfl
  simp only [configure, Int32.lt_iff_toInt_lt, value, one]
  split
  next none =>
      rw [Int.max_eq_left none.le]
      rfl
  next some_column =>
      rw [Int.max_eq_right (Int.not_lt.mp some_column)]
      exact value

theorem one_le_cols (iconSize : Int32) (w : UInt32) : 1 ≤ (configure iconSize w).cols.toInt := by
  rw [toInt_cols iconSize rfl rfl]
  exact Int.le_max_left ..

/-- The divisor of a cell with a width. -/
theorem toNat_divisor (hicon : iconSize.toInt = icon) (cell_pos : 0 < icon + 24)
    (small : icon + 36 < 2147483648) : ((iconSize + 24).toUInt32.toNat : Int) = icon + 24 :=
  Ints.toNat_toUInt32 (Ints.toInt_add hicon rfl (by omega) (by omega)) (by omega)

/-- Above the margins the columns are counted as they are meant. -/
theorem cols_of_margins (hicon : iconSize.toInt = icon) (cell_pos : 0 < icon + 24)
    (small : icon + 36 < 2147483648) (margins : 64 ≤ w.toNat) (narrow : w.toNat < 2147483648) :
    (configure iconSize w).cols.toInt = max 1 ((w.toNat - 64) / (icon + 24)) := by
  obtain ⟨q, hq⟩ : ∃ q, (w.toNat - 64) / (iconSize + 24).toUInt32.toNat = q := ⟨_, rfl⟩
  have difference : (4294967232 + w.toNat) % 4294967296 = w.toNat - 64 := by omega
  have less : q ≤ w.toNat - 64 := hq ▸ Nat.div_le_self ..
  have cast : ((w.toNat - 64 : Nat) : Int) = w.toNat - 64 := by omega
  rw [toInt_cols iconSize rfl (by rw [difference, hq]), bmod_fits (by omega) (by omega), ← hq,
    Int.natCast_ediv, cast, toNat_divisor hicon cell_pos small]

/-- Below them the difference wraps, to what no `int` product reaches. -/
theorem cols_overflow (hicon : iconSize.toInt = icon) (cell : 2 ≤ icon + 24)
    (small : icon + 108 < 2147483648) (narrow : w.toNat < 64) :
    2147483648 ≤ (configure iconSize w).cols.toInt * (icon + 24) := by
  have divisor := toNat_divisor hicon (by omega) (by omega)
  obtain ⟨m, hm⟩ : ∃ m, (iconSize + 24).toUInt32.toNat = m := ⟨_, rfl⟩
  obtain ⟨q, hq⟩ : ∃ q, (4294967232 + w.toNat) % 4294967296 / m = q := ⟨_, rfl⟩
  rw [hm] at divisor
  have at_most : q < 2147483648 := hq ▸ Nat.div_lt_of_lt_mul (by omega)
  have whole := Nat.div_add_mod ((4294967232 + w.toNat) % 4294967296) m
  have rest := Nat.mod_lt ((4294967232 + w.toNat) % 4294967296) (by omega : 0 < m)
  rw [hq] at whole
  have product : 2147483648 ≤ q * m := by
    rw [Nat.mul_comm]
    omega
  have scaled : (q : Int) * m ≤ max 1 (q : Int) * m :=
    Int.mul_le_mul_of_nonneg_right (Int.le_max_right ..) (by omega)
  rw [toInt_cols iconSize hm hq, bmod_fits (by omega) (by omega), ← divisor]
  exact le_trans (by exact_mod_cast product) scaled

/-- A cell without a width is one column. -/
theorem cols_of_narrow_cell (hicon : iconSize.toInt = icon)
    (narrow_cell : icon < -24 ∨ icon = -23 ∧ w.toNat < 64) :
    (configure iconSize w).cols.toInt = 1 := by
  have low := iconSize.le_toInt
  have width : (iconSize + 24).toInt = icon + 24 :=
    Ints.toInt_add hicon rfl (by omega) (by omega)
  obtain ⟨m, hm⟩ : ∃ m, (iconSize + 24).toUInt32.toNat = m := ⟨_, rfl⟩
  obtain ⟨q, hq⟩ : ∃ q, (4294967232 + w.toNat) % 4294967296 / m = q := ⟨_, rfl⟩
  rw [toInt_cols iconSize hm hq]
  obtain negative | ⟨one, below⟩ := narrow_cell
  · have large := Ints.toNat_toUInt32_of_neg width (by omega)
    rw [hm] at large
    have few : q < 2 := hq ▸ Nat.div_lt_of_lt_mul (by omega)
    rw [bmod_fits (by omega) (by omega), Int.max_eq_left (by omega)]
  · have unit := Ints.toNat_toUInt32 width (by omega)
    rw [hm] at unit
    have wrapped : q = 4294967232 + w.toNat := by
      rw [← hq, show m = 1 by omega, Nat.div_one]
      omega
    rw [Int.max_eq_left]
    rw [Int.bmod_def]
    split <;> omega

/-- The columns fit next to the margins where one cell does. -/
theorem cols_wide (hicon : iconSize.toInt = icon) (icon_pos : 1 ≤ icon)
    (wide : 64 + (icon + 24) ≤ w.toNat) (narrow : w.toNat < 2147483648) :
    (configure iconSize w).cols.toInt = (w.toNat - 64) / (icon + 24) ∧
      (configure iconSize w).cols.toInt * (icon + 24) + 64 ≤ w.toNat := by
  have some_column : 1 ≤ (w.toNat - 64) / (icon + 24) := by
    rw [Int.le_ediv_iff_mul_le (by omega)]
    omega
  have less : (w.toNat - 64) / (icon + 24) * (icon + 24) ≤ w.toNat - 64 :=
    Int.ediv_mul_le _ (by omega)
  rw [cols_of_margins hicon (by omega) (by omega) (by omega) narrow,
    Int.max_eq_right some_column]
  exact ⟨rfl, by omega⟩

theorem defined_of_wide {sc : Int} (hicon : iconSize.toInt = icon) (icon_pos : 1 ≤ icon)
    (wide : 64 + (icon + 24) ≤ w.toNat) (sc_pos : 1 ≤ sc)
    (row : 4 * (w.toNat * sc) < 2147483648) :
    (configure iconSize w).Defined w.toNat sc := by
  have width : (w.toNat : Int) ≤ w.toNat * sc := le_mul_of_one_le_right (by omega) sc_pos
  have inside := (cols_wide hicon icon_pos wide (by omega)).2
  have some_column := one_le_cols iconSize w
  obtain ⟨cols, hcols⟩ : ∃ cols, (configure iconSize w).cols.toInt = cols := ⟨_, rfl⟩
  rw [hcols] at inside some_column
  have size : (configure iconSize w).iconSize.toInt = icon := hicon
  have twice := Int.mul_le_mul_of_nonneg_right
    (by omega : icon + 108 ≤ 2 * w.toNat) (by omega : 0 ≤ sc)
  have some_pixel : 0 ≤ icon * sc := Int.mul_nonneg (by omega) (by omega)
  have taken : 0 ≤ cols * (icon + 24) * sc :=
    Int.mul_nonneg (Int.mul_nonneg (by omega) (by omega)) (by omega)
  have scaled := Int.mul_le_mul_of_nonneg_right inside (by omega : 0 ≤ sc)
  rw [Int.mul_assoc] at twice
  rw [Int.add_mul] at scaled
  constructor <;> simp only [size, hcols, InRange] <;> omega

end LauncherGrid

namespace Surface

theorem one_le_llAccept_scale (s : Surface) (c : Configure) :
    1 ≤ (s.llAccept c).scale.toInt := by
  simp only [llAccept]
  split
  next => decide
  next large =>
      rw [Int32.lt_iff_toInt_lt] at large
      exact Int.not_lt.mp large

/-- A configure whose sizes and grid do not overflow. -/
theorem laid_of_defined {s : Surface} {c : Configure} {iconSize : Int32} (w_pos : 1 ≤ c.w.toNat)
    (fits : c.Fits (s.llAccept c).scale.toInt)
    (small : 108 * (s.llAccept c).scale.toInt < 2147483648)
    (defined : (LauncherGrid.configure iconSize c.w).Defined c.w.toNat
      (s.llAccept c).scale.toInt) :
    (s.llAccept c).Laid (LauncherGrid.configure iconSize c.w) c.w.toNat c.h.toNat
      (s.llAccept c).scale.toInt iconSize.toInt
      (LauncherGrid.configure iconSize c.w).cols.toInt.toNat := by
  obtain ⟨sc, hsc⟩ : ∃ sc, (s.llAccept c).scale.toInt = sc := ⟨_, rfl⟩
  have sc_pos : 1 ≤ sc := hsc ▸ one_le_llAccept_scale s c
  rw [hsc] at fits small defined ⊢
  obtain ⟨row, pixels⟩ := fits
  obtain ⟨-, icon, bottom, grid, left⟩ := defined
  have some_column := LauncherGrid.one_le_cols iconSize c.w
  have cols : ((LauncherGrid.configure iconSize c.w).cols.toInt.toNat : Int) =
      (LauncherGrid.configure iconSize c.w).cols.toInt := Int.toNat_of_nonneg (by omega)
  have columns : (c.w.toNat : Int) ≤ c.w.toNat * sc := le_mul_of_one_le_right (by omega) sc_pos
  have height : 0 ≤ c.h.toNat * sc := Int.mul_nonneg (by omega) (by omega)
  have one_column : 1 * (c.h.toNat * sc) ≤ c.w.toNat * sc * (c.h.toNat * sc) :=
    Int.mul_le_mul_of_nonneg_right (by omega) height
  have rows : (c.h.toNat : Int) ≤ c.h.toNat * sc := le_mul_of_one_le_right (by omega) sc_pos
  rw [Int.mul_assoc] at pixels
  have width : (s.llAccept c).width.toInt = c.w.toNat := Ints.toInt_toInt32_of_lt (by omega)
  have height' : (s.llAccept c).height.toInt = c.h.toNat := Ints.toInt_toInt32_of_lt (by omega)
  have low := iconSize.le_toInt
  have high : iconSize.toInt + 108 < 2147483648 := LauncherGrid.icon_small sc_pos bottom
  exact
    { width := Ints.toInt_mul width hsc (by omega) (by omega)
      height := Ints.toInt_mul height' hsc (by omega) (by omega)
      scale := hsc
      iconSize := rfl
      cellW := Ints.toInt_add rfl rfl (by omega) (by omega)
      cellH := Ints.toInt_add rfl rfl (by omega) (by omega)
      columns := cols.symm
      w_pos := by omega
      h_nonneg := by omega
      sc_pos := sc_pos
      cols_pos := by omega
      row := row
      rows := by omega
      small := small
      cell_low := icon
      cell := bottom
      grid := cols.symm ▸ grid
      left := cols.symm ▸ left }

/-- The numbers do not depend on the pixels. -/
theorem Laid.of_pixels {l : Surface} {g : LauncherGrid} {w h sc icon : Int} {cols : Nat}
    (laid : l.Laid g w h sc icon cols) (px : Pixels) :
    { l with pixels := px : Surface }.Laid g w h sc icon cols :=
  { laid with }

/-- From a width of a column and the margins on, the columns are those that fit. -/
theorem laid_of_wide {s : Surface} {c : Configure} {iconSize : Int32} (px : Pixels)
    (icon_pos : 1 ≤ iconSize.toInt) (wide : 64 + (iconSize.toInt + 24) ≤ c.w.toNat)
    (fits : c.Fits (s.llAccept c).scale.toInt) :
    let cols := (LauncherGrid.configure iconSize c.w).cols.toInt.toNat
    { s.llAccept c with pixels := px : Surface }.Laid (LauncherGrid.configure iconSize c.w)
        c.w.toNat c.h.toNat (s.llAccept c).scale.toInt iconSize.toInt cols ∧
      (cols : Int) = (c.w.toNat - 64) / (iconSize.toInt + 24) ∧
      cols * (iconSize.toInt + 24) + 64 ≤ c.w.toNat := by
  obtain ⟨sc, hsc⟩ : ∃ sc, (s.llAccept c).scale.toInt = sc := ⟨_, rfl⟩
  have sc_pos : 1 ≤ sc := hsc ▸ one_le_llAccept_scale s c
  rw [hsc] at fits ⊢
  have row := fits.1
  have width : (c.w.toNat : Int) ≤ c.w.toNat * sc := le_mul_of_one_le_right (by omega) sc_pos
  have defined := LauncherGrid.defined_of_wide rfl icon_pos wide sc_pos row
  have small : 108 * sc < 2147483648 := by
    have := Int.mul_le_mul_of_nonneg_right (by omega : 108 ≤ iconSize.toInt + 108)
      (by omega : 0 ≤ sc)
    have bottom : (iconSize.toInt + 108) * sc < 2147483648 := defined.bottom
    omega
  subst hsc
  have some_column := LauncherGrid.one_le_cols iconSize c.w
  have cols := LauncherGrid.cols_wide rfl icon_pos wide (by omega)
  refine ⟨(laid_of_defined (by omega) fits small defined).of_pixels px, ?_⟩
  rwa [Int.toNat_of_nonneg (by omega)]

theorem length_items {l : Surface} {g : LauncherGrid} {w h sc icon : Int} {cols : Nat}
    (laid : l.Laid g w h sc icon cols) (row_pos : 0 < icon + 36) (hoverIdx : Int32)
    {apps : List LunaApp} (count : apps.length + 4 < 2147483648) :
    (l.drawLauncher g hoverIdx apps).items.length =
      min (builtinApps ++ apps).length (cols * gridRows h icon) := by
  have found := laid.getElem?_items row_pos hoverIdx count
  apply Nat.le_antisymm
  · rw [← List.getElem?_eq_none_iff, found]
    split
    · rw [List.getElem?_eq_none (by omega)]
      rfl
    · rfl
  · by_contra short
    have missing := List.getElem?_eq_none_iff.mpr
      (Nat.le_refl (l.drawLauncher g hoverIdx apps).items.length)
    rw [found, if_pos (by omega), List.getElem?_eq_getElem (by omega)] at missing
    cases missing

theorem mem_fills_icon {d : LauncherDrawing} {item : LauncherItem} (drawn : item ∈ d.items) :
    item.icon ∈ d.fills := by
  have all : ∀ f ∈ d.fills, f ∈ d.fills := fun _ held => held
  exact (((LauncherDrawing.forall_fills_iff d).mp all).2.1 item drawn).1

/-- The launcher draws the icons of the entries that its rows have room for. Each is a square
at its place and inside its cell, and the cells are inside the launcher and apart. -/
theorem launcher_grid (s : Surface) (c : Configure) (px : Pixels) (iconSize hoverIdx : Int32)
    (apps : List LunaApp) (mapped : px ≠ .null) (icon_pos : 1 ≤ iconSize.toInt)
    (wide : 64 + (iconSize.toInt + 24) ≤ c.w.toNat)
    (fits : c.Fits (s.llAccept c).scale.toInt) (count : apps.length + 4 < 2147483648) :
    let l : Surface := { s.llAccept c with pixels := px }
    let g := LauncherGrid.configure iconSize c.w
    let sc := l.scale.toInt
    let cols := (c.w.toNat - 64) / (iconSize.toInt + 24)
    let rows := max 0 ((c.h.toNat - 72) / (iconSize.toInt + 36))
    let gx := (c.w.toNat * sc - cols * (iconSize.toInt + 24) * sc) / 2
    ∃ d, l.lunaLauncherRender g hoverIdx apps = some d ∧
      (d.items.length : Int) = min ((builtinApps ++ apps).length : Int) (cols * rows) ∧
      (∀ (k : Nat) (item : LauncherItem), d.items[k]? = some item →
        (builtinApps ++ apps)[k]?.map (l.launcherItem g hoverIdx (Int32.ofNat k)) = some item ∧
          item.icon ∈ d.fills ∧
          item.icon.area = rect (gx + k % cols * (iconSize.toInt + 24) * sc + 12 * sc)
            ((72 + k / cols * (iconSize.toInt + 36)) * sc) (iconSize.toInt * sc)
            (iconSize.toInt * sc) ∧
          item.icon.area ⊆ (l.cellFill g item).area ∧
          (l.cellFill g item).area ⊆ rect 0 0 (c.w.toNat * sc) (c.h.toNat * sc)) ∧
      d.items.Pairwise fun a b => Disjoint (l.cellFill g a).area (l.cellFill g b).area := by
  intro l g sc cols rows gx
  have sc_pos : 1 ≤ sc := one_le_llAccept_scale s c
  obtain ⟨(laid : l.Laid g _ _ sc _ g.cols.toInt.toNat), cols_eq, inside⟩ :=
    laid_of_wide px icon_pos wide fits
  have row_pos : 0 < iconSize.toInt + 36 := by omega
  have ready : l.lunaLauncherRender g hoverIdx apps = some (l.drawLauncher g hoverIdx apps) :=
    if_neg (by simpa [l, llAccept] using mapped)
  refine ⟨_, ready, ?_, fun k item held => ?_, List.pairwise_iff_getElem.mpr ?_⟩
  · have length := length_items laid row_pos hoverIdx count
    have gridRows_eq : (gridRows c.h.toNat iconSize.toInt : Int) = rows := by
      rw [gridRows, Int.toNat_eq_max, max_comm]
    rw [length, Nat.cast_min, Nat.cast_mul, cols_eq, gridRows_eq]
  · have shown := mem_fills_icon (List.mem_of_getElem? held)
    obtain ⟨drawn, small, app, listed, rfl⟩ := laid.entry_of_item row_pos count held
    obtain ⟨sides, icon, ⟨left, right⟩, above, below⟩ :=
      laid.cell_at icon_pos inside hoverIdx app small drawn rfl rfl
    have place := icon.area_eq
    rw [laid.gridLeft_eq (by omega) inside, Int.natCast_emod, Int.natCast_ediv, cols_eq] at place
    rw [listed]
    refine ⟨rfl, shown, place, ?_, ?_⟩
    · rw [sides.area_eq, icon.area_eq]
      exact rect_subset (by omega) (by omega) (by omega) (by omega)
    · rw [sides.area_eq]
      exact rect_subset left (right.trans_eq (Int.zero_add _).symm) above
        (below.trans_eq (Int.zero_add _).symm)
  · intro j k hj hk before
    obtain ⟨drawn, small, app, _, same⟩ :=
      laid.entry_of_item row_pos count (List.getElem?_eq_getElem hj)
    obtain ⟨drawn', small', app', _, same'⟩ :=
      laid.entry_of_item row_pos count (List.getElem?_eq_getElem hk)
    have apart :=
      laid.disjoint_cells icon_pos inside hoverIdx app app' small small' drawn drawn' before
    rwa [same, same'] at apart

def configureRetina (w h : UInt32) : Configure where
  serial := 1
  w := w
  h := h
  scale := 2
  alloc := { shmFd := 3, addr := some 4096, pool := 1, buffer := 1 }
  drawn := true

theorem launcher_grid_retina :
    let l : Surface := { Surface.llAccept {} (configureRetina 300 420) with pixels := .mapped 4096 }
    let g := LauncherGrid.configure 64 300
    ∃ d, l.lunaLauncherRender g (-1) [] = some d ∧ d.items.length = 4 ∧
      (∀ item, d.items[1]? = some item →
        item.icon ∈ d.fills ∧ item.icon.area = rect 324 144 128 128) ∧
      d.items.Pairwise fun a b => Disjoint (l.cellFill g a).area (l.cellFill g b).area := by
  obtain ⟨d, drawn, length, places, apart⟩ :=
    launcher_grid {} (configureRetina 300 420) (.mapped 4096) 64 (-1) [] (by decide) (by decide)
      (by decide) (by unfold Configure.Fits; decide) (by decide)
  refine ⟨d, drawn, Int.ofNat_inj.mp (length.trans (by decide)), fun item held => ?_, apart⟩
  obtain ⟨_, shown, place, _⟩ := places 1 item held
  refine ⟨shown, place.trans ?_⟩
  congr 1

end Surface
end LunaOS.Shell
