import LunaOS.Shell.PanelDrawing

/-!
When the panel draws only inside itself. Nothing in `luna_panel_render` looks at the width of
the panel but the background, the border and the clock, so the launcher, the windows and every
text need a panel that is wide enough for them.
-/
namespace LunaOS.Shell
open CStrings Rects
open Seatd (bytes)

namespace Surface
variable {p : Surface} {cfg : PanelConfig} {clk : Chars 32} {toplevels : List LunaToplevel}

/-- Each rectangle is inside the buffer, in a panel whose sizes are defined. -/
def DrawsInside (p : Surface) (d : PanelDrawing) : Prop :=
  p.SizesFit ∧ ∀ f ∈ d.fills, f.area ⊆ rect 0 0 p.physW.toInt p.physH.toInt

/-- The panel is large enough for what is drawn; `fs` is the font size in pixels. -/
structure HasRoom (w h sc fs : Int) (toplevels : List LunaToplevel) (clk : CString) : Prop where
  border : 0 < h
  launcher : 8 < h → 88 ≤ w
  name : 4 ≤ fs → 16 * sc + 4 * (fs / 2) - 1 ≤ w * sc
  separator : 16 < h → 97 ≤ w
  window : ∀ (i : Nat) (tl : LunaToplevel), i < 32 → toplevels[i]? = some tl →
    (8 < h → 244 + 144 * i ≤ w) ∧
      (4 ≤ fs → 0 < tl.label.1.length →
        (112 + 144 * i) * sc + tl.label.1.length * (fs / 2) - 1 ≤ w * sc)
  clock : 4 ≤ fs → 0 < clk.1.length → clk.1.length * (fs / 2) + 24 ≤ w

structure Sized (p : Surface) (cfg : PanelConfig) (w h sc fs : Int) : Prop where
  width : p.physW.toInt = w * sc
  height : p.physH.toInt = h * sc
  scale : p.scale.toInt = sc
  font : (cfg.fontSize * p.scale).toInt = fs
  w_pos : 1 ≤ w
  h_nonneg : 0 ≤ h
  sc_pos : 1 ≤ sc
  fs_nonneg : 0 ≤ fs
  fs_le : fs ≤ h * sc
  row : 4 * (w * sc) < 2147483648
  rows : h * sc < 2147483648
  pixels : 4 * (w * sc) * (h * sc) < 2147483648

namespace Sized
variable {w h sc fs : Int}

/-- A panel with a row has a scale that is far from an overflow. -/
theorem sc_lt (sized : p.Sized cfg w h sc fs) (row : 0 < h) :
    sc < 32768 ∧ sc ≤ h * sc ∧ h * sc < 536870912 :=
  scale_lt_of_pixels sized.w_pos row sized.sc_pos sized.pixels

/-- So has one where the four letters of the launcher are inside a font. -/
theorem fs_lt (sized : p.Sized cfg w h sc fs) (row : 0 < h)
    (name : 4 ≤ fs → 16 * sc + 4 * (fs / 2) - 1 ≤ w * sc) :
    fs < 32768 ∧ fs * sc < 33554432 := by
  have sc_pos := sized.sc_pos
  obtain ⟨sc_small, -, tall⟩ := sized.sc_lt row
  by_cases drawn : 4 ≤ fs
  · have pixels := sized.pixels
    have fs_le := sized.fs_le
    have name := name drawn
    have first : (16 * sc) * fs ≤ w * sc * (h * sc) :=
      mul_le_mul (by omega) fs_le (by omega) (by omega)
    have second : fs * fs ≤ w * sc * (h * sc) :=
      mul_le_mul (by omega) fs_le (by omega) (by omega)
    rw [Int.mul_assoc 4] at pixels
    rw [Int.mul_assoc, Int.mul_comm sc] at first
    refine ⟨?_, by omega⟩
    by_contra large
    have : 32768 * 32768 ≤ fs * fs := mul_le_mul (by omega) (by omega) (by omega) (by omega)
    omega
  · have : fs * sc ≤ 4 * sc := Int.mul_le_mul_of_nonneg_right (by omega) (by omega)
    omega

theorem toInt_scaled (sized : p.Sized cfg w h sc fs) (row : 0 < h) {k : Int} (low : 0 ≤ k)
    (high : k ≤ 10000) :
    0 ≤ k * sc ∧ k * sc ≤ 10000 * sc ∧ (Int32.ofInt k * p.scale).toInt = k * sc := by
  have sc_pos := sized.sc_pos
  have sc_small := (sized.sc_lt row).1
  have above : 0 ≤ k * sc := Int.mul_nonneg low (by omega)
  have below : k * sc ≤ 10000 * sc := Int.mul_le_mul_of_nonneg_right high (by omega)
  refine ⟨above, below, Ints.toInt_mul ?_ sized.scale (by omega) (by omega)⟩
  exact Int32.toInt_ofInt_of_le (by omega) (by omega)

/-- A block that starts `b` rows from both of the edges. -/
theorem block_inside_iff (sized : p.Sized cfg w h sc fs) (row : 0 < h) {a b k : Int}
    {x : Int32} (color : UInt32) (hx : x.toInt = a * sc) (a_nonneg : 0 ≤ a) (k_pos : 0 < k)
    (b_pos : 0 < b) (b_small : b ≤ 8) (small : a + k ≤ 10000) :
    (Fill.mk x (Int32.ofInt b * p.scale) (Int32.ofInt k * p.scale)
      (p.physH - Int32.ofInt (2 * b) * p.scale) color).area ⊆ rect 0 0 (w * sc) (h * sc) ↔
        (2 * b < h → a + k ≤ w) := by
  have sc_pos := sized.sc_pos
  obtain ⟨sc_small, rows, tall⟩ := sized.sc_lt row
  obtain ⟨top, top_le, hy⟩ := sized.toInt_scaled row (k := b) (by omega) (by omega)
  obtain ⟨wide, wide_le, hw⟩ := sized.toInt_scaled row (k := k) (by omega) (by omega)
  obtain ⟨edges, edges_le, he⟩ := sized.toInt_scaled row (k := 2 * b) (by omega) (by omega)
  obtain ⟨right, right_le, -⟩ := sized.toInt_scaled row (k := a + k) (by omega) small
  have left : 0 ≤ a * sc := Int.mul_nonneg a_nonneg (by omega)
  rw [Int.add_mul] at right right_le
  have hh : (p.physH - Int32.ofInt (2 * b) * p.scale).toInt = h * sc - 2 * b * sc :=
    Ints.toInt_sub sized.height he (by omega) (by omega)
  have sides := Fill.at_mk color hx hy hw hh ⟨by omega, by omega⟩ ⟨by omega, by omega⟩
  rw [sides.area_eq]
  have double : 2 * b * sc = 2 * (b * sc) := Int.mul_assoc 2 b sc
  by_cases high : 2 * b < h
  · have some_row : 2 * b * sc < h * sc := Int.mul_lt_mul_of_pos_right high (by omega)
    have some_column : 0 < k * sc := Int.mul_pos k_pos (by omega)
    rw [rect_subset_iff some_column (by omega), Int.zero_add, Int.zero_add, ← Int.add_mul,
      mul_le_mul_iff_of_pos_right (by omega : 0 < sc)]
    constructor
    · exact fun inside _ => inside.1.2
    · intro inside
      exact ⟨⟨left, inside high⟩, top, by omega⟩
  · have no_row : h * sc ≤ 2 * b * sc := Int.mul_le_mul_of_nonneg_right (by omega) (by omega)
    rw [rect_eq_empty (Or.inr (by omega))]
    exact iff_of_true (Finset.empty_subset _) fun high' => absurd high' high

/-- A text in the middle of the panel is inside when its ends are. -/
theorem text_inside_iff (sized : p.Sized cfg w h sc fs) {x : Int32} {X : Int} {n : Nat}
    (color : UInt32) (hx : x.toInt = X) (low : -2147483648 < X)
    (width : n * (fs / 2) < 2147483648) (high : X + n * (fs / 2) < 2147483648)
    (short : n < 2147483648) :
    (∀ f ∈ glyphs x ((p.physH - cfg.fontSize * p.scale) / 2) n color (cfg.fontSize * p.scale),
        f.area ⊆ rect 0 0 (w * sc) (h * sc)) ↔
      (4 ≤ fs → 0 < n → 0 ≤ X ∧ X + n * (fs / 2) - 1 ≤ w * sc) := by
  have fs_nonneg := sized.fs_nonneg
  have fs_le := sized.fs_le
  have rows := sized.rows
  have left : (p.physH - cfg.fontSize * p.scale).toInt = h * sc - fs :=
    Ints.toInt_sub sized.height sized.font (by omega) (by omega)
  have top : ((p.physH - cfg.fontSize * p.scale) / 2).toInt = (h * sc - fs) / 2 :=
    Ints.toInt_div left (by omega) (by decide)
  have text : TextAt x ((p.physH - cfg.fontSize * p.scale) / 2) (cfg.fontSize * p.scale) n X
      ((h * sc - fs) / 2) fs :=
    ⟨hx, top, sized.font, fs_nonneg, width, ⟨low, high⟩, by omega, by omega⟩
  rw [text.inside_iff short]
  refine forall₂_congr fun drawn some_byte => and_iff_left ?_
  constructor <;> omega

theorem background_inside (sized : p.Sized cfg w h sc fs) (color : UInt32) :
    (Fill.mk 0 0 p.physW p.physH color).area ⊆ rect 0 0 (w * sc) (h * sc) := by
  have row := sized.row
  have rows := sized.rows
  have columns : 0 ≤ w * sc := Int.mul_nonneg (by have := sized.w_pos; omega)
    (by have := sized.sc_pos; omega)
  have height : 0 ≤ h * sc := le_trans sized.fs_nonneg sized.fs_le
  have sides := Fill.at_mk (x := 0) (y := 0) (i := 0) (j := 0) color rfl rfl sized.width
    sized.height ⟨by omega, by omega⟩ ⟨by omega, by omega⟩
  rw [sides.area_eq]

/-- The border is drawn above a panel without rows. -/
theorem border_inside_iff (sized : p.Sized cfg w h sc fs) (color : UInt32) :
    (Fill.mk 0 (p.physH - p.scale) p.physW p.scale color).area ⊆ rect 0 0 (w * sc) (h * sc) ↔
      0 < h := by
  have row := sized.row
  have rows := sized.rows
  have sc_pos := sized.sc_pos
  have columns : sc ≤ w * sc := le_mul_of_one_le_left (by omega) sized.w_pos
  have height : 0 ≤ h * sc := le_trans sized.fs_nonneg sized.fs_le
  have top : (p.physH - p.scale).toInt = h * sc - sc :=
    Ints.toInt_sub sized.height sized.scale (by omega) (by omega)
  have sides := Fill.at_mk (x := 0) (i := 0) color rfl top sized.width sized.scale
    ⟨by omega, by omega⟩ ⟨by omega, by omega⟩
  rw [sides.area_eq, rect_subset_iff (by omega) (by omega)]
  constructor
  · intro inside
    by_contra none
    have empty : h = 0 := by
      have := sized.h_nonneg
      omega
    rw [empty] at inside
    omega
  · intro some_row
    have := sized.sc_lt some_row
    omega

/-- What is drawn for a window. -/
theorem item_inside_iff (sized : p.Sized cfg w h sc fs) (row : 0 < h) (small : fs < 32768)
    {i : Nat} (drawn : i < 32) (tl : LunaToplevel) :
    ((p.panelItem cfg (p.windowX i) tl).button.area ⊆ rect 0 0 (w * sc) (h * sc) ∧
      ∀ f ∈ (p.panelItem cfg (p.windowX i) tl).label, f.area ⊆ rect 0 0 (w * sc) (h * sc)) ↔
    (8 < h → 244 + 144 * i ≤ w) ∧
      (4 ≤ fs → 0 < tl.label.1.length →
        (112 + 144 * i) * sc + tl.label.1.length * (fs / 2) - 1 ≤ w * sc) := by
  have sc_small := (sized.sc_lt row).1
  have fs_nonneg := sized.fs_nonneg
  obtain ⟨_, x_le, hx⟩ := sized.toInt_scaled row (k := 104 + 144 * i) (by omega) (by omega)
  obtain ⟨_, _, h8⟩ := sized.toInt_scaled row (k := 8) (by omega) (by omega)
  have shift : (112 + 144 * (i : Int)) * sc = (104 + 144 * i) * sc + 8 * sc := by
    rw [← Int.add_mul]
    congr 1
    omega
  have label_x : (p.windowX i + 8 * p.scale).toInt = (112 + 144 * (i : Int)) * sc := by
    rw [shift]
    exact Ints.toInt_add hx h8 (by omega) (by omega)
  have length : tl.label.1.length < 256 := tl.length_label_lt
  have width : 0 ≤ tl.label.1.length * (fs / 2) ∧ tl.label.1.length * (fs / 2) ≤ 256 * (fs / 2) :=
    ⟨Int.mul_nonneg (by omega) (by omega), Int.mul_le_mul_of_nonneg_right (by omega) (by omega)⟩
  have button := sized.block_inside_iff row (b := 4) (k := 140) tl.bg hx (by omega) (by decide)
    (by decide) (by decide) (by omega)
  have label := sized.text_inside_iff (n := tl.label.1.length) cfg.panelFgColor label_x (by omega)
    (by omega) (by omega) (by omega)
  refine and_congr (button.trans ?_) (label.trans ?_)
  · rw [show (104 : Int) + 144 * i + 140 = 244 + 144 * i by omega]
    rfl
  · refine forall₂_congr fun drawn some_byte => and_iff_right ?_
    omega

theorem launcher_inside_iff (sized : p.Sized cfg w h sc fs) (row : 0 < h) (color : UInt32) :
    (Fill.mk (8 * p.scale) (4 * p.scale) (80 * p.scale) (p.physH - 8 * p.scale) color).area ⊆
      rect 0 0 (w * sc) (h * sc) ↔ (8 < h → 88 ≤ w) := by
  obtain ⟨_, _, hx⟩ := sized.toInt_scaled row (k := 8) (by decide) (by decide)
  exact sized.block_inside_iff row (b := 4) (k := 80) color hx (by decide) (by decide) (by decide)
    (by decide) (by decide)

theorem separator_inside_iff (sized : p.Sized cfg w h sc fs) (row : 0 < h) (color : UInt32) :
    (Fill.mk (8 * p.scale + (80 * p.scale + 8 * p.scale)) (8 * p.scale) p.scale
      (p.physH - 16 * p.scale) color).area ⊆ rect 0 0 (w * sc) (h * sc) ↔
        (16 < h → 97 ≤ w) := by
  have x : 8 * p.scale + (80 * p.scale + 8 * p.scale) = Int32.ofInt 96 * p.scale := by
    have : Int32.ofInt 96 = 96 := rfl
    grind
  have one : Fill.mk (8 * p.scale + (80 * p.scale + 8 * p.scale)) (8 * p.scale) p.scale
      (p.physH - 16 * p.scale) color = Fill.mk (Int32.ofInt 96 * p.scale)
        (Int32.ofInt 8 * p.scale) (Int32.ofInt 1 * p.scale)
        (p.physH - Int32.ofInt (2 * 8) * p.scale) color := by
    rw [x, show Int32.ofInt 1 * p.scale = p.scale from Int32.one_mul p.scale]
    rfl
  obtain ⟨_, _, hx⟩ := sized.toInt_scaled row (k := 96) (by decide) (by decide)
  rw [one]
  exact sized.block_inside_iff row color hx (by decide) (by decide) (by decide) (by decide)
    (by decide)

theorem name_inside_iff (sized : p.Sized cfg w h sc fs) (row : 0 < h) (color : UInt32) :
    (∀ f ∈ drawTextStub (8 * p.scale + 8 * p.scale) ((p.physH - cfg.fontSize * p.scale) / 2)
        (bytes "Luna") color (cfg.fontSize * p.scale), f.area ⊆ rect 0 0 (w * sc) (h * sc)) ↔
      (4 ≤ fs → 16 * sc + 4 * (fs / 2) - 1 ≤ w * sc) := by
  have fs_nonneg := sized.fs_nonneg
  have fs_le := sized.fs_le
  obtain ⟨sc_small, _, tall⟩ := sized.sc_lt row
  obtain ⟨_, _, h8⟩ := sized.toInt_scaled row (k := 8) (by decide) (by decide)
  have hx : (8 * p.scale + 8 * p.scale).toInt = 8 * sc + 8 * sc :=
    Ints.toInt_add h8 h8 (by omega) (by omega)
  have inside := sized.text_inside_iff (n := 4) color hx (by omega) (by omega) (by omega)
    (by decide)
  refine Iff.trans ?_ (inside.trans ?_)
  · exact iff_of_eq rfl
  · constructor
    · intro name drawn
      have := name drawn (by decide)
      omega
    · intro name drawn _
      have := name drawn
      omega

/-- The width of a clock with `n` letters. -/
theorem toInt_clockWidth (sized : p.Sized cfg w h sc fs) (row : 0 < h) (small : fs < 32768)
    (small' : fs * sc < 33554432) {n : Nat} (short : n < 32) :
    0 ≤ n * (fs / 2) ∧ n * (fs / 2) ≤ n * (fs / 2) * sc ∧
      (n * (fs / 2) + 16) * sc < 1073741824 ∧
      ((Int32.ofNat n * (cfg.fontSize * p.scale / 2) + 16) * p.scale).toInt =
        (n * (fs / 2) + 16) * sc := by
  have fs_nonneg := sized.fs_nonneg
  have sc_pos := sized.sc_pos
  have sc_small := (sized.sc_lt row).1
  obtain ⟨q, hq⟩ : ∃ q, fs / 2 = q := ⟨_, rfl⟩
  have half : (cfg.fontSize * p.scale / 2).toInt = q := by
    rw [Ints.toInt_div sized.font fs_nonneg (by decide), ← hq]
    rfl
  rw [hq]
  have nonneg : 0 ≤ n * q := Int.mul_nonneg (by omega) (by omega)
  have text : (n : Int) * q ≤ 32 * q := Int.mul_le_mul_of_nonneg_right (by omega) (by omega)
  have glyph : q * 2 * sc ≤ fs * sc := Int.mul_le_mul_of_nonneg_right (by omega) (by omega)
  have width : (n * q + 16) * sc ≤ (q * 2 * 16 + 16) * sc :=
    Int.mul_le_mul_of_nonneg_right (by omega) (by omega)
  have bound : (q * 2 * 16 + 16) * sc = q * 2 * sc * 16 + 16 * sc := by
    rw [Int.add_mul, Int.mul_right_comm]
  have above : 0 ≤ (n * q + 16) * sc := Int.mul_nonneg (by omega) (by omega)
  have count : (Int32.ofNat n).toInt = n := Int32.toInt_ofNat_of_lt (by omega)
  have letters : (Int32.ofNat n * (cfg.fontSize * p.scale / 2) + 16).toInt = n * q + 16 :=
    Ints.toInt_add (Ints.toInt_mul count half (by omega) (by omega)) rfl (by omega) (by omega)
  refine ⟨nonneg, le_mul_of_one_le_right nonneg sc_pos, by omega, ?_⟩
  exact Ints.toInt_mul letters sized.scale (by omega) (by omega)

theorem clock_inside_iff (sized : p.Sized cfg w h sc fs) (row : 0 < h) (small : fs < 32768)
    (small' : fs * sc < 33554432) (clk : CString) (short : clk.1.length < 32) (color : UInt32) :
    (∀ f ∈ drawTextStub (p.physW - (Int32.ofNat clk.1.length *
          (cfg.fontSize * p.scale / 2) + 16) * p.scale - 8 * p.scale)
        ((p.physH - cfg.fontSize * p.scale) / 2) clk.1 color (cfg.fontSize * p.scale),
        f.area ⊆ rect 0 0 (w * sc) (h * sc)) ↔
      (4 ≤ fs → 0 < clk.1.length → clk.1.length * (fs / 2) + 24 ≤ w) := by
  have sc_pos := sized.sc_pos
  have sc_small := (sized.sc_lt row).1
  have columns := sized.row
  have wide : 0 ≤ w * sc := Int.mul_nonneg (by have := sized.w_pos; omega) (by omega)
  obtain ⟨nonneg, stretched, below, cw⟩ := sized.toInt_clockWidth row small small' short
  have h8 : (8 * p.scale).toInt = 8 * sc :=
    (sized.toInt_scaled row (k := 8) (by decide) (by decide)).2.2
  have above : 0 ≤ (clk.1.length * (fs / 2) + 16) * sc := Int.mul_nonneg (by omega) (by omega)
  have left := Ints.toInt_sub sized.width cw (by omega) (by omega)
  have hx := Ints.toInt_sub left h8 (by omega) (by omega)
  have margin : (clk.1.length * (fs / 2) + 24) * sc =
      (clk.1.length * (fs / 2) + 16) * sc + 8 * sc := by
    rw [← Int.add_mul]
    congr 1
    omega
  have letters : (clk.1.length * (fs / 2) + 16) * sc = clk.1.length * (fs / 2) * sc + 16 * sc :=
    Int.add_mul ..
  have inside := sized.text_inside_iff (n := clk.1.length) color hx (by omega) (by omega)
    (by omega) (by omega)
  refine inside.trans (forall₂_congr fun drawn some_byte => ?_)
  have scaled : clk.1.length * (fs / 2) + 24 ≤ w ↔
      (clk.1.length * (fs / 2) + 24) * sc ≤ w * sc :=
    (mul_le_mul_iff_of_pos_right (by omega)).symm
  rw [scaled, margin]
  omega

end Sized

theorem forall_items_iff {P : PanelItem → Prop} :
    (∀ item ∈ (p.drawPanel cfg toplevels clk).items, P item) ↔
      ∀ (i : Nat) (tl : LunaToplevel), i < 32 → toplevels[i]? = some tl →
        P (p.panelItem cfg (p.windowX i) tl) := by
  simp only [List.mem_iff_getElem?, getElem?_items]
  constructor
  · intro all i tl drawn listed
    exact all _ ⟨i, by rw [if_pos drawn, listed, Option.map_some]⟩
  · rintro all item ⟨i, found⟩
    obtain ⟨drawn, found⟩ := Option.ite_none_right_eq_some.mp found
    obtain ⟨tl, listed, rfl⟩ := Option.map_eq_some_iff.mp found
    exact all i tl drawn listed

/-- The panel is drawn inside itself exactly when it has room. -/
theorem Sized.fills_inside_iff {w h sc fs : Int} (sized : p.Sized cfg w h sc fs) :
    (∀ f ∈ (p.drawPanel cfg toplevels clk).fills, f.area ⊆ rect 0 0 (w * sc) (h * sc)) ↔
      HasRoom w h sc fs toplevels clk.text := by
  rw [PanelDrawing.forall_fills_iff, forall_items_iff]
  constructor
  · rintro ⟨⟨_, border, launcher, name⟩, ⟨separator, items⟩, clock⟩
    have row := (sized.border_inside_iff _).mp border
    have name := (sized.name_inside_iff row _).mp name
    obtain ⟨small, small'⟩ := sized.fs_lt row name
    exact
      { border := row
        launcher := (sized.launcher_inside_iff row _).mp launcher
        name := name
        separator := (sized.separator_inside_iff row _).mp separator
        window := fun i tl drawn listed =>
          (sized.item_inside_iff row small drawn tl).mp (items i tl drawn listed)
        clock :=
          (sized.clock_inside_iff row small small' clk.text clk.length_text_lt _).mp clock }
  · intro room
    have row := room.border
    obtain ⟨small, small'⟩ := sized.fs_lt row room.name
    refine ⟨⟨sized.background_inside _, (sized.border_inside_iff _).mpr row,
      (sized.launcher_inside_iff row _).mpr room.launcher,
      (sized.name_inside_iff row _).mpr room.name⟩,
      ⟨(sized.separator_inside_iff row _).mpr room.separator, fun i tl drawn listed => ?_⟩,
      (sized.clock_inside_iff row small small' clk.text clk.length_text_lt _).mpr room.clock⟩
    exact (sized.item_inside_iff row small drawn tl).mpr (room.window i tl drawn listed)

/-- A configure with defined sizes, and a font that is not larger than the panel. -/
theorem sized_lsAccept {s : Surface} {c : Configure} (fits : (s.lsAccept c).SizesFit)
    (wide : 1 ≤ c.w.toInt32.toInt) (high : c.h.toInt32 = cfg.panelHeight)
    (font : 0 ≤ cfg.fontSize.toInt) (font_le : cfg.fontSize ≤ cfg.panelHeight) :
    (s.lsAccept c).Sized cfg c.w.toInt32.toInt c.h.toInt32.toInt (s.lsAccept c).scale.toInt
      (cfg.fontSize.toInt * (s.lsAccept c).scale.toInt) := by
  obtain ⟨row, rows, pixels⟩ := fits
  have sc_pos : 1 ≤ (s.lsAccept c).scale.toInt := by
    simp only [lsAccept]
    split
    next pos => exact Int32.lt_iff_toInt_lt.mp pos
    next => decide
  have font_le : cfg.fontSize.toInt ≤ c.h.toInt32.toInt := by
    rw [high]
    exact Int32.le_iff_toInt_le.mp font_le
  have width : 0 ≤ c.w.toInt32.toInt * (s.lsAccept c).scale.toInt :=
    Int.mul_nonneg (by omega) (by omega)
  have height : 0 ≤ c.h.toInt32.toInt * (s.lsAccept c).scale.toInt :=
    Int.mul_nonneg (by omega) (by omega)
  have size : 0 ≤ cfg.fontSize.toInt * (s.lsAccept c).scale.toInt :=
    Int.mul_nonneg font (by omega)
  have size_le : cfg.fontSize.toInt * (s.lsAccept c).scale.toInt ≤
      c.h.toInt32.toInt * (s.lsAccept c).scale.toInt :=
    Int.mul_le_mul_of_nonneg_right font_le (by omega)
  change 4 * (c.w.toInt32.toInt * (s.lsAccept c).scale.toInt) < 2147483648 at row
  change c.h.toInt32.toInt * (s.lsAccept c).scale.toInt < 2147483648 at rows
  exact
    { width := Ints.toInt_mul rfl rfl (by omega) (by omega)
      height := Ints.toInt_mul rfl rfl (by omega) (by omega)
      scale := rfl
      font := Ints.toInt_mul rfl rfl (by omega) (by omega)
      w_pos := wide
      h_nonneg := by omega
      sc_pos := sc_pos
      fs_nonneg := size
      fs_le := size_le
      row := row
      rows := rows
      pixels := pixels }

/-- The panel that `ls_configure` draws, where `px` is what `create_shm` left. -/
def mapped (p : Surface) (px : Pixels) : Surface :=
  { p with configured := true, pixels := px }

theorem hasRoom_iff {s : Surface} {c : Configure} (px : Pixels) (fits : (s.lsAccept c).SizesFit)
    (wide : 1 ≤ c.w.toInt32.toInt) (high : c.h.toInt32 = cfg.panelHeight)
    (font : 0 ≤ cfg.fontSize.toInt) (font_le : cfg.fontSize ≤ cfg.panelHeight) :
    ((s.lsAccept c).mapped px).DrawsInside
        (((s.lsAccept c).mapped px).drawPanel cfg toplevels clk) ↔
      HasRoom c.w.toInt32.toInt c.h.toInt32.toInt (s.lsAccept c).scale.toInt
        (cfg.fontSize.toInt * (s.lsAccept c).scale.toInt) toplevels clk.text := by
  have sized : ((s.lsAccept c).mapped px).Sized cfg _ _ _ _ :=
    { sized_lsAccept fits wide high font font_le with }
  rw [DrawsInside, sized.width, sized.height]
  exact (and_iff_right fits).trans sized.fills_inside_iff

/-- After a configure, the panel draws only inside itself exactly when its sizes are defined and
it has room for what it draws. -/
theorem panel_draws_inside_iff (s : Surface) (c : Configure) (px : Pixels) (cfg : PanelConfig)
    (toplevels : List LunaToplevel) (clk : Chars 32) (mapped : px ≠ .null)
    (wide : 1 ≤ c.w.toInt32.toInt) (high : c.h.toInt32 = cfg.panelHeight)
    (font : 0 ≤ cfg.fontSize.toInt) (font_le : cfg.fontSize ≤ cfg.panelHeight) :
    ∃ d, ((s.lsAccept c).mapped px).lunaPanelRender cfg toplevels clk = some d ∧
      (((s.lsAccept c).mapped px).DrawsInside d ↔
        (s.lsAccept c).SizesFit ∧
          HasRoom c.w.toInt32.toInt c.h.toInt32.toInt (s.lsAccept c).scale.toInt
            (cfg.fontSize.toInt * (s.lsAccept c).scale.toInt) toplevels clk.text) :=
  ⟨_, lunaPanelRender_ready rfl mapped cfg toplevels clk,
    fun inside => ⟨inside.1, (hasRoom_iff px inside.1 wide high font font_le).mp inside⟩,
    fun ⟨fits, room⟩ => (hasRoom_iff px fits wide high font font_le).mpr room⟩

def configureWidth (w : UInt32) : Configure where
  serial := 1
  w := w
  h := 36
  scale := 1
  alloc := { shmFd := 3, addr := some 4096, pool := 1, buffer := 1 }
  drawn := true

theorem panel_draws_inside_iff_one_window :
    let p := (Surface.lsAccept {} (configureWidth 800)).mapped (.mapped 4096)
    ∃ d, p.lunaPanelRender .plain [.untitled] (Chars.zero 32 (by decide)) = some d ∧
      p.DrawsInside d := by
  obtain ⟨d, drawn, inside_iff⟩ := panel_draws_inside_iff {} (configureWidth 800) (.mapped 4096)
    .plain [.untitled] (Chars.zero 32 (by decide)) (by decide) (by decide) rfl (by decide)
    (by decide)
  refine ⟨d, drawn, inside_iff.mpr
    ⟨by decide, by decide, fun _ => by decide, fun _ => by decide, fun _ => by decide, ?_, ?_⟩⟩
  · rintro (_ | i) tl _ listed
    · obtain rfl := Option.some.inj listed
      exact ⟨fun _ => by decide, fun _ some_byte => absurd some_byte (by decide +kernel)⟩
    · cases listed
  · exact fun _ some_byte => absurd some_byte (by decide +kernel)

/-- The button of the fifth window ends 20 pixels right of a panel of 800. -/
theorem fifth_window_outside :
    let p := (Surface.lsAccept {} (configureWidth 800)).mapped (.mapped 4096)
    ∃ d, p.lunaPanelRender .plain (List.replicate 5 .untitled) (Chars.zero 32 (by decide)) =
        some d ∧
      (d.items[4]?.map fun item => (item.button.x + item.button.w).toInt) = some 820 ∧
      p.physW.toInt = 800 ∧ ¬ p.DrawsInside d := by
  refine ⟨_, lunaPanelRender_ready rfl (by decide) _ _ _, by decide +kernel, by decide,
    fun inside => ?_⟩
  have room :=
    (hasRoom_iff (.mapped 4096) inside.1 (by decide) rfl (by decide) (by decide)).mp inside
  exact absurd ((room.window 4 .untitled (by decide) rfl).1 (by decide)) (by decide)

end Surface
end LunaOS.Shell
