import LunaOS.Shell.LauncherGrid

/-!
The pixels that are written, against the size of the mapping. The shell's panel stays inside
when its button is not wider than the output. The launcher bleeds from a row into the next
without harm, so that the first and the last pixel of an element decide: here they are in terms
of the place of the element.
-/
namespace LunaOS.Shell
open Ints Rects
open Seatd (bytes)

/-! The panel of the shell. -/

namespace LunaOutput
variable {out : LunaOutput}

/-- `create_panel_for_output` computes its sizes without an overflow, which is undefined. -/
def PanelFits (out : LunaOutput) : Prop :=
  4 * out.width.toInt * (36 * out.scale.toInt) < 2147483648

/-- Each pixel is written to the mapping. -/
def PanelStaysInside (out : LunaOutput) : Prop :=
  out.PanelFits ∧ ∀ f ∈ out.panel.fills, ∀ i ∈ f.writes out.width,
    0 ≤ i ∧ i < out.width.toInt * (36 * out.scale.toInt)

theorem panelStaysInside_iff (w_pos : 1 ≤ out.width.toInt) (sc_pos : 1 ≤ out.scale.toInt) :
    out.PanelStaysInside ↔ out.PanelFits ∧ 100 * out.scale.toInt ≤ out.width.toInt := by
  refine and_congr_right fun fits => ?_
  obtain ⟨w, hw⟩ : ∃ w, out.width.toInt = w := ⟨_, rfl⟩
  obtain ⟨sc, hsc⟩ : ∃ sc, out.scale.toInt = sc := ⟨_, rfl⟩
  rw [PanelFits, hw, hsc] at fits
  rw [hw] at w_pos
  rw [hsc] at sc_pos
  have rows : 4 * 1 * (36 * sc) ≤ 4 * w * (36 * sc) :=
    Int.mul_le_mul_of_nonneg_right (by omega) (by omega)
  have columns : 4 * w * (36 * 1) ≤ 4 * w * (36 * sc) :=
    Int.mul_le_mul_of_nonneg_left (by omega) (by omega)
  have physH : (panelHLogical * out.scale).toInt = 36 * sc :=
    toInt_mul rfl hsc (by omega) (by omega)
  have top : (panelHLogical * out.scale - out.scale).toInt = 36 * sc - sc :=
    toInt_sub physH hsc (by omega) (by omega)
  have button : (100 * out.scale).toInt = 100 * sc := toInt_mul rfl hsc (by omega) (by omega)
  have background := Fill.at_mk (x := 0) (y := 0) (i := 0) (j := 0) cPanelBg rfl rfl hw physH
    ⟨by omega, by omega⟩ ⟨by omega, by omega⟩
  have border := Fill.at_mk (x := 0) (i := 0) cAccent rfl top hw hsc
    ⟨by omega, by omega⟩ ⟨by omega, by omega⟩
  have launcher := Fill.at_mk (x := 0) (y := 0) (i := 0) (j := 0) 0x22FFFFFF rfl rfl button physH
    ⟨by omega, by omega⟩ ⟨by omega, by omega⟩
  rw [hw, hsc]
  simp only [panel, List.forall_mem_cons, List.not_mem_nil, false_implies, implies_true, and_true,
    Fill.forall_writes_iff hw, background.area_eq, border.area_eq, launcher.area_eq]
  have inside : ∀ p ∈ rect 0 0 w (36 * sc), 0 ≤ index w p ∧ index w p < w * (36 * sc) :=
    index_mem_of_subset (le_refl _)
  have below : ∀ p ∈ rect 0 (36 * sc - sc) w sc, 0 ≤ index w p ∧ index w p < w * (36 * sc) :=
    index_mem_of_subset (rect_subset le_rfl le_rfl (by omega) (by omega))
  rw [and_iff_right inside, and_iff_right below, index_mem_iff (by omega) (by omega) (by omega)]
  have first : 0 ≤ index w (0, 0) := index_nonneg w_pos le_rfl (by omega)
  rw [and_iff_right first, Int.zero_add, Int.zero_add, index_lt_iff, Int.one_mul]
  omega

end LunaOutput

/-! The launcher. -/

namespace Surface

def Mapped (stride size : Int) (f : Fill) : Prop :=
  ∀ p ∈ f.area, 0 ≤ index stride p ∧ index stride p < size

variable {l : Surface} {g : LauncherGrid} {w h sc icon X Y : Int} {cols : Nat} {i : Int32}

theorem mapped_iff {f : Fill} {x y w' h' stride size : Int} (sides : f.At x y w' h')
    (nonneg : 0 ≤ stride) :
    Mapped stride size f ↔ (0 < w' → 0 < h' →
      0 ≤ index stride (x, y) ∧ index stride (x + w' - 1, y + h' - 1) < size) := by
  rw [Mapped, sides.area_eq]
  by_cases some_pixel : 0 < w' ∧ 0 < h'
  · rw [index_mem_iff nonneg some_pixel.1 some_pixel.2]
    exact ⟨fun ends _ _ => ends, fun ends => ends some_pixel.1 some_pixel.2⟩
  · rw [rect_eq_empty (by omega)]
    refine iff_of_true (fun p held => absurd held (Finset.notMem_empty p)) fun wide high => ?_
    exact absurd ⟨wide, high⟩ some_pixel

/-- The ends of a text that is drawn. -/
theorem text_iff {x y fsize : Int32} {n : Nat} {F stride size : Int}
    (text : TextAt x y fsize n X Y F) (some_byte : 0 < n) (short : n < 2147483648) (large : 4 ≤ F)
    (nonneg : 0 ≤ stride) (color : UInt32) :
    (∀ f ∈ glyphs x y n color fsize, Mapped stride size f) ↔
      0 ≤ index stride (X, Y + F / 4) ∧
        index stride (X + n * (F / 2) - 2, Y + F / 4 + F / 2 - 1) < size :=
  (text.index_iff short color nonneg).trans
    ⟨fun ends => ends large some_byte, fun ends _ _ => ends⟩

namespace Laid

theorem background_mapped (laid : l.Laid g w h sc icon cols) (color : UInt32) :
    Mapped (w * sc) (w * sc * (h * sc)) ⟨0, 0, l.width * l.scale, l.height * l.scale, color⟩ := by
  have row := laid.row
  have rows := laid.rows
  have sc_pos := laid.sc_pos
  have wide := laid.wide
  have high := laid.high
  have sides := Fill.at_mk (x := 0) (y := 0) (i := 0) (j := 0) color rfl rfl laid.width laid.height
    ⟨by omega, by omega⟩ ⟨by omega, by omega⟩
  rw [Mapped, sides.area_eq]
  exact index_mem_of_subset (le_refl (rect 0 0 (w * sc) (h * sc)))

/-- Twelve boxes in the middle of the launcher. -/
theorem title_iff (laid : l.Laid g w h sc icon cols) (tiny : sc < 32768) (size : Int)
    (color : UInt32) :
    (∀ f ∈ ltext ((l.width * l.scale - 12 * (14 * l.scale / 2)) / 2) (20 * l.scale)
        (bytes "Applications") color (14 * l.scale), Mapped (w * sc) size f) ↔
      0 ≤ index (w * sc) ((w * sc - 84 * sc).tdiv 2, 20 * sc + 14 * sc / 4) ∧
        index (w * sc) ((w * sc - 84 * sc).tdiv 2 + 84 * sc - 2,
          20 * sc + 14 * sc / 4 + 7 * sc - 1) < size := by
  have row := laid.row
  have sc_pos := laid.sc_pos
  have wide := laid.wide
  have font : (14 * l.scale).toInt = 14 * sc := toInt_mul rfl laid.scale (by omega) (by omega)
  have half : (14 * l.scale / 2).toInt = 7 * sc := by
    rw [toInt_div font (by omega) (by decide)]
    change 14 * sc / 2 = 7 * sc
    omega
  have text : (12 * (14 * l.scale / 2)).toInt = 12 * (7 * sc) :=
    toInt_mul rfl half (by omega) (by omega)
  have near := tdiv_two (w * sc - 12 * (7 * sc))
  have at_title : TextAt ((l.width * l.scale - 12 * (14 * l.scale / 2)) / 2) (20 * l.scale)
      (14 * l.scale) 12 ((w * sc - 12 * (7 * sc)).tdiv 2) (20 * sc) (14 * sc) :=
    { left := toInt_half (toInt_sub laid.width text (by omega) (by omega)) rfl
      top := toInt_mul rfl laid.scale (by omega) (by omega)
      size := font
      nonneg := by omega
      width := by omega
      columns := by omega
      rows := by omega }
  refine (text_iff at_title (by decide) (by decide) (by omega) wide color).trans ?_
  have columns : ((12 : Nat) : Int) * (14 * sc / 2) = 84 * sc := by omega
  have rows : 14 * sc / 2 = 7 * sc := by omega
  have left : 12 * (7 * sc) = 84 * sc := by omega
  rw [columns, rows, left]

/-- Twenty-one boxes at the bottom, where there is room for twenty-six of them. -/
theorem hint_iff (laid : l.Laid g w h sc icon cols) (tiny : sc < 32768) (size : Int)
    (color : UInt32) :
    (∀ f ∈ ltext ((l.width * l.scale - 26 * (11 * l.scale / 2)) / 2)
        (l.height * l.scale - 20 * l.scale) (bytes "Super or Esc to close") color (11 * l.scale),
        Mapped (w * sc) size f) ↔
      0 ≤ index (w * sc) ((w * sc - 26 * (11 * sc / 2)).tdiv 2,
          h * sc - 20 * sc + 11 * sc / 4) ∧
        index (w * sc) ((w * sc - 26 * (11 * sc / 2)).tdiv 2 + 21 * (11 * sc / 2) - 2,
          h * sc - 20 * sc + 11 * sc / 4 + 11 * sc / 2 - 1) < size := by
  have row := laid.row
  have rows := laid.rows
  have sc_pos := laid.sc_pos
  have wide := laid.wide
  have high := laid.high
  have font : (11 * l.scale).toInt = 11 * sc := toInt_mul rfl laid.scale (by omega) (by omega)
  have margin : (20 * l.scale).toInt = 20 * sc := toInt_mul rfl laid.scale (by omega) (by omega)
  have half : (11 * l.scale / 2).toInt = 11 * sc / 2 := by
    rw [toInt_div font (by omega) (by decide)]
    rfl
  have text : (26 * (11 * l.scale / 2)).toInt = 26 * (11 * sc / 2) :=
    toInt_mul rfl half (by omega) (by omega)
  have near := tdiv_two (w * sc - 26 * (11 * sc / 2))
  have at_hint : TextAt ((l.width * l.scale - 26 * (11 * l.scale / 2)) / 2)
      (l.height * l.scale - 20 * l.scale) (11 * l.scale) 21
      ((w * sc - 26 * (11 * sc / 2)).tdiv 2) (h * sc - 20 * sc) (11 * sc) :=
    { left := toInt_half (toInt_sub laid.width text (by omega) (by omega)) rfl
      top := toInt_sub laid.height margin (by omega) (by omega)
      size := font
      nonneg := by omega
      width := by omega
      columns := by omega
      rows := by omega }
  exact text_iff at_hint (by decide) (by decide) (by omega) wide color

end Laid

structure Near (sc icon X Y : Int) : Prop where
  left : -1073741824 ≤ X
  right : X ≤ 1073741824
  top : -1073741824 ≤ Y
  bottom : Y ≤ 1073741824
  icon_left : -2147483648 ≤ X + icon * sc
  icon_top : -2147483648 ≤ Y + icon * sc
  cell_right : X + icon * sc + 24 * sc < 2147483648
  cell_bottom : Y + icon * sc + 36 * sc < 2147483648

namespace Laid
variable {size : Int}

theorem icon_iff (laid : l.Laid g w h sc icon cols) (tiny : sc < 32768)
    (hx : (l.launcherCx g i).toInt = X) (hy : (l.launcherCy g i).toInt = Y)
    (near : Near sc icon X Y) (hoverIdx : Int32) (app : LunaApp) :
    Mapped (w * sc) size (l.launcherItem g hoverIdx i app).icon ↔ (0 < icon →
      0 ≤ index (w * sc) (X + 12 * sc, Y) ∧
        index (w * sc) (X + 12 * sc + icon * sc - 1, Y + icon * sc - 1) < size) := by
  have sc_pos := laid.sc_pos
  have wide := laid.wide
  obtain ⟨left, right, top, bottom, icon_left, icon_top, cell_right, cell_bottom⟩ := near
  obtain ⟨cell_w, cell_h, icon_size, low, small_cell⟩ := laid.toInt_cell
  have margin : ((g.cellW * l.scale - g.iconSize * l.scale) / 2).toInt = 12 * sc := by
    have twice := toInt_sub cell_w icon_size (by omega) (by omega)
    rw [toInt_div twice (by omega) (by decide)]
    change (icon * sc + 24 * sc - icon * sc) / 2 = 12 * sc
    omega
  have sides : (l.launcherItem g hoverIdx i app).icon.At (X + 12 * sc) Y (icon * sc)
      (icon * sc) :=
    Fill.at_mk _ (toInt_add hx margin (by omega) (by omega)) hy icon_size icon_size
      ⟨by omega, by omega⟩ ⟨by omega, by omega⟩
  have some_pixel : 0 < icon * sc ↔ 0 < icon := mul_pos_iff_of_pos_right (by omega)
  rw [mapped_iff sides wide, some_pixel]
  exact ⟨fun ends pos => ends pos pos, fun ends pos _ => ends pos⟩

/-- The box of the initial. -/
theorem initial_iff (laid : l.Laid g w h sc icon cols) (tiny : sc < 32768)
    (hx : (l.launcherCx g i).toInt = X) (hy : (l.launcherCy g i).toInt = Y)
    (near : Near sc icon X Y) (low : -36 ≤ icon) (hoverIdx : Int32) (app : LunaApp) :
    (∀ f ∈ (l.launcherItem g hoverIdx i app).initial, Mapped (w * sc) size f) ↔
      (0 < app.name.length →
        0 ≤ index (w * sc) (X + (icon * sc + 4 * sc).tdiv 2,
            Y + (icon * sc - 14 * sc).tdiv 2 + 7 * sc) ∧
          index (w * sc) (X + (icon * sc + 4 * sc).tdiv 2 + 14 * sc - 2,
            Y + (icon * sc - 14 * sc).tdiv 2 + 7 * sc + 14 * sc - 1) < size) := by
  have sc_pos := laid.sc_pos
  have wide := laid.wide
  have scaled : -36 * sc ≤ icon * sc := Int.mul_le_mul_of_nonneg_right low (by omega)
  obtain ⟨left, right, top, bottom, icon_left, icon_top, cell_right, cell_bottom⟩ := near
  obtain ⟨cell_w, cell_h, icon_size, _, small_cell⟩ := laid.toInt_cell
  cases name : app.name with
  | nil => simp [launcherItem, name, ltext, glyphs]
  | cons a rest =>
      have font : (14 * l.scale).toInt = 14 * sc := toInt_mul rfl laid.scale (by omega) (by omega)
      have large : (14 * l.scale * 2).toInt = 14 * sc * 2 :=
        toInt_mul font rfl (by omega) (by omega)
      have box : (20 * l.scale).toInt = 20 * sc := toInt_mul rfl laid.scale (by omega) (by omega)
      have across := tdiv_two (icon * sc + 24 * sc - 20 * sc)
      have down := tdiv_two (icon * sc - 14 * sc)
      have hx' : (l.launcherCx g i + (g.cellW * l.scale - 20 * l.scale) / 2).toInt =
          X + (icon * sc + 24 * sc - 20 * sc).tdiv 2 :=
        toInt_add hx (toInt_half (toInt_sub cell_w box (by omega) (by omega)) rfl) (by omega)
          (by omega)
      have hy' : (l.launcherCy g i + (g.iconSize * l.scale - 14 * l.scale) / 2).toInt =
          Y + (icon * sc - 14 * sc).tdiv 2 :=
        toInt_add hy (toInt_half (toInt_sub icon_size font (by omega) (by omega)) rfl) (by omega)
          (by omega)
      have at_initial : TextAt (l.launcherCx g i + (g.cellW * l.scale - 20 * l.scale) / 2)
          (l.launcherCy g i + (g.iconSize * l.scale - 14 * l.scale) / 2) (14 * l.scale * 2) 1
          (X + (icon * sc + 24 * sc - 20 * sc).tdiv 2) (Y + (icon * sc - 14 * sc).tdiv 2)
          (14 * sc * 2) :=
        { left := hx'
          top := hy'
          size := large
          nonneg := by omega
          width := by omega
          columns := by omega
          rows := by omega }
      have drawn : (l.launcherItem g hoverIdx i app).initial =
          glyphs (l.launcherCx g i + (g.cellW * l.scale - 20 * l.scale) / 2)
            (l.launcherCy g i + (g.iconSize * l.scale - 14 * l.scale) / 2) 1 0xFFFFFFFF
            (14 * l.scale * 2) := by
        simp [launcherItem, ltext, name]
      have columns : ((1 : Nat) : Int) * (14 * sc * 2 / 2) = 14 * sc := by omega
      have quarter : 14 * sc * 2 / 4 = 7 * sc := by omega
      have half : 14 * sc * 2 / 2 = 14 * sc := by omega
      have offset : icon * sc + 24 * sc - 20 * sc = icon * sc + 4 * sc := by omega
      rw [drawn, text_iff at_initial (by decide) (by decide) (by omega) wide, columns, quarter,
        half, offset]
      exact ⟨fun ends _ => ends, fun ends => ends (Nat.zero_lt_succ _)⟩

/-- The boxes of the name, which end after thirty. -/
theorem name_iff (laid : l.Laid g w h sc icon cols) (tiny : sc < 32768)
    (hx : (l.launcherCx g i).toInt = X) (hy : (l.launcherCy g i).toInt = Y)
    (near : Near sc icon X Y) (hoverIdx : Int32) (app : LunaApp) :
    (∀ f ∈ (l.launcherItem g hoverIdx i app).name, Mapped (w * sc) size f) ↔
      (0 < app.name.length →
        0 ≤ index (w * sc) (X, Y + icon * sc + 4 * sc + 11 * sc / 4) ∧
          index (w * sc) (X + (min app.name.length 30 : Nat) * (11 * sc / 2) - 2,
            Y + icon * sc + 4 * sc + 11 * sc / 4 + 11 * sc / 2 - 1) < size) := by
  have sc_pos := laid.sc_pos
  have wide := laid.wide
  obtain ⟨left, right, top, bottom, icon_left, icon_top, cell_right, cell_bottom⟩ := near
  obtain ⟨cell_w, cell_h, icon_size, _, small_cell⟩ := laid.toInt_cell
  by_cases named : 0 < app.name.length
  · obtain ⟨n, hn⟩ : ∃ n, min app.name.length 30 = n := ⟨_, rfl⟩
    have font : (11 * l.scale).toInt = 11 * sc := toInt_mul rfl laid.scale (by omega) (by omega)
    have gap : (4 * l.scale).toInt = 4 * sc := toInt_mul rfl laid.scale (by omega) (by omega)
    have width : 0 ≤ n * (11 * sc / 2) ∧ n * (11 * sc / 2) ≤ 30 * (11 * sc / 2) :=
      ⟨Int.mul_nonneg (by omega) (by omega),
        Int.mul_le_mul_of_nonneg_right (by omega) (by omega)⟩
    have at_name : TextAt (l.launcherCx g i) (l.launcherCy g i + g.iconSize * l.scale + 4 * l.scale)
        (11 * l.scale) n X (Y + icon * sc + 4 * sc) (11 * sc) :=
      { left := hx
        top := toInt_add (toInt_add hy icon_size (by omega) (by omega)) gap (by omega) (by omega)
        size := font
        nonneg := by omega
        width := by omega
        columns := by omega
        rows := by omega }
    have drawn : (l.launcherItem g hoverIdx i app).name =
        glyphs (l.launcherCx g i) (l.launcherCy g i + g.iconSize * l.scale + 4 * l.scale) n
          0xFFDDDDDD (11 * l.scale) := by
      rw [← hn]
      rfl
    rw [drawn, text_iff at_name (by omega) (by omega) (by omega) wide, hn]
    exact ⟨fun ends _ => ends, fun ends => ends named⟩
  · have empty : app.name = [] := List.eq_nil_of_length_eq_zero (by omega)
    simp [launcherItem, empty, ltext, glyphs]

end Laid

end Surface
end LunaOS.Shell
