import LunaOS.Lib.CStrings
import LunaOS.Seatd.Message
import LunaOS.Shell.Drawing

/-!
`luna_panel_render`: the fills in the order in which they are made, and the zones that it
leaves for the pointer. A window is drawn at an `x` that the loop carries along, and its zone
is found back from the scaled values by division.
-/
namespace LunaOS.Shell
open CStrings
open Seatd (bytes)

/-- The part of `struct luna_shell_config` that the panel reads. -/
structure PanelConfig where
  panelHeight : Int32
  fontSize : Int32
  panelBgColor : UInt32
  panelFgColor : UInt32
  panelAccentColor : UInt32

/-- The part of `struct luna_toplevel` that the panel reads. -/
structure LunaToplevel where
  title : Chars 256
  appId : Chars 128
  activated : Bool

def PanelConfig.plain : PanelConfig where
  panelHeight := 36
  fontSize := 13
  panelBgColor := 0xE6101010
  panelFgColor := 0xFFEEEEEE
  panelAccentColor := 0xFF4A90D9

namespace LunaToplevel

def untitled : LunaToplevel where
  title := Chars.zero 256 (Nat.zero_lt_succ _)
  appId := Chars.zero 128 (Nat.zero_lt_succ _)
  activated := false

/-- `tl->title[0] ? tl->title : tl->app_id`. -/
def label (tl : LunaToplevel) : CString :=
  if tl.title.text.1 ≠ [] then tl.title.text else tl.appId.text

theorem length_label_lt (tl : LunaToplevel) : tl.label.1.length < 256 := by
  rw [label]
  split
  · exact tl.title.length_text_lt
  · exact tl.appId.length_text_lt.trans (by decide)

def bg (tl : LunaToplevel) : UInt32 :=
  if tl.activated then 0x33FFFFFF else 0x11FFFFFF

end LunaToplevel

structure Zone where
  x : Int32
  w : Int32
  deriving DecidableEq

/-- What one turn of the loop over the windows draws and keeps. -/
structure PanelItem where
  button : Fill
  label : List Fill
  zone : Zone

structure PanelDrawing where
  background : Fill
  border : Fill
  launcher : Fill
  name : List Fill
  separator : Fill
  items : List PanelItem
  clock : List Fill
  zoneLauncher : Zone

namespace PanelDrawing

def fills (d : PanelDrawing) : List Fill :=
  d.background :: d.border :: d.launcher :: d.name ++
    d.separator :: d.items.flatMap (fun item => item.button :: item.label) ++ d.clock

theorem forall_fills_iff {P : Fill → Prop} (d : PanelDrawing) :
    (∀ f ∈ d.fills, P f) ↔ (P d.background ∧ P d.border ∧ P d.launcher ∧ ∀ f ∈ d.name, P f) ∧
      (P d.separator ∧ ∀ item ∈ d.items, P item.button ∧ ∀ f ∈ item.label, P f) ∧
      ∀ f ∈ d.clock, P f := by
  simp only [fills, List.forall_mem_append, List.forall_mem_cons, List.forall_mem_flatMap,
    List.cons_append, and_assoc]

/-- `zone_toplevels`, up to `zone_toplevel_count`. -/
def zoneToplevels (d : PanelDrawing) : List Zone :=
  d.items.map PanelItem.zone

end PanelDrawing

namespace Surface

/-- The body of the loop. -/
def panelItem (p : Surface) (cfg : PanelConfig) (x : Int32) (tl : LunaToplevel) : PanelItem :=
  let sc := p.scale
  let fsize := cfg.fontSize * sc
  { button := ⟨x, 4 * sc, 140 * sc, p.physH - 8 * sc, tl.bg⟩
    label := drawTextStub (x + 8 * sc) ((p.physH - fsize) / 2) tl.label.1 cfg.panelFgColor fsize
    zone := ⟨x / sc, 140 * sc / sc⟩ }

/-- The loop over the windows, `zone_toplevel_count` of which are drawn. -/
def panelItems (p : Surface) (cfg : PanelConfig) :
    Nat → Int32 → List LunaToplevel → List PanelItem
  | _, _, [] => []
  | count, x, tl :: rest =>
      if 32 ≤ count then []
      else p.panelItem cfg x tl ::
        p.panelItems cfg (count + 1) (x + (140 * p.scale + 4 * p.scale)) rest

/-- What `luna_panel_render` draws; `clk` is what `strftime` leaves. -/
def drawPanel (p : Surface) (cfg : PanelConfig) (toplevels : List LunaToplevel)
    (clk : Chars 32) : PanelDrawing :=
  let pw := p.physW
  let ph := p.physH
  let sc := p.scale
  let fsize := cfg.fontSize * sc
  let x := 8 * sc
  let lw := 80 * sc
  let next := x + (lw + 8 * sc)
  let cw := (Int32.ofNat clk.text.1.length * (fsize / 2) + 16) * sc
  { background := ⟨0, 0, pw, ph, cfg.panelBgColor⟩
    border := ⟨0, ph - sc, pw, sc, cfg.panelAccentColor⟩
    launcher := ⟨x, 4 * sc, lw, ph - 8 * sc, 0x224A90D9⟩
    name := drawTextStub (x + 8 * sc) ((ph - fsize) / 2) (bytes "Luna") cfg.panelFgColor fsize
    separator := ⟨next, 8 * sc, sc, ph - 16 * sc, 0x33FFFFFF⟩
    items := p.panelItems cfg 0 (next + 8 * sc) toplevels
    clock := drawTextStub (pw - cw - 8 * sc) ((ph - fsize) / 2) clk.text.1 cfg.panelFgColor fsize
    zoneLauncher := ⟨x / sc, lw / sc⟩ }

def lunaPanelRender (p : Surface) (cfg : PanelConfig) (toplevels : List LunaToplevel)
    (clk : Chars 32) : Option PanelDrawing :=
  if !p.configured || p.pixels = .null then none else some (p.drawPanel cfg toplevels clk)

theorem lunaPanelRender_ready {p : Surface} (configured : p.configured = true)
    (mapped : p.pixels ≠ .null) (cfg : PanelConfig) (toplevels : List LunaToplevel)
    (clk : Chars 32) :
    p.lunaPanelRender cfg toplevels clk = some (p.drawPanel cfg toplevels clk) :=
  if_neg (by simp [configured, mapped])

/-- `ls_configure` computes the sizes of the buffer without an overflow, which is undefined. -/
def SizesFit (p : Surface) : Prop :=
  4 * (p.width.toInt * p.scale.toInt) < 2147483648 ∧
    p.height.toInt * p.scale.toInt < 2147483648 ∧
    4 * (p.width.toInt * p.scale.toInt) * (p.height.toInt * p.scale.toInt) < 2147483648

instance (p : Surface) : Decidable p.SizesFit :=
  inferInstanceAs (Decidable (_ ∧ _ ∧ _))

/-- A buffer with a pixel has a scale that is far from an overflow. -/
theorem scale_lt_of_pixels {w h sc : Int} (w_pos : 1 ≤ w) (h_pos : 1 ≤ h) (sc_pos : 1 ≤ sc)
    (pixels : 4 * (w * sc) * (h * sc) < 2147483648) :
    sc < 32768 ∧ sc ≤ h * sc ∧ h * sc < 536870912 := by
  have columns : sc ≤ w * sc := le_mul_of_one_le_left (by omega) w_pos
  have rows : sc ≤ h * sc := le_mul_of_one_le_left (by omega) h_pos
  have tall : 1 * (h * sc) ≤ w * sc * (h * sc) :=
    Int.mul_le_mul_of_nonneg_right (by omega) (by omega)
  have square : sc * sc ≤ w * sc * (h * sc) := mul_le_mul columns rows (by omega) (by omega)
  rw [Int.mul_assoc 4] at pixels
  refine ⟨?_, rows, by omega⟩
  by_contra large
  have : 32768 * 32768 ≤ sc * sc := mul_le_mul (by omega) (by omega) (by omega) (by omega)
  omega

def windowX (p : Surface) (i : Nat) : Int32 :=
  Int32.ofInt (104 + 144 * i) * p.scale

theorem windowX_eq (p : Surface) (i : Nat) :
    p.windowX i = (104 + 144 * Int32.ofInt i) * p.scale := by
  rw [windowX, Int32.ofInt_add, Int32.ofInt_mul]
  rfl

theorem windowX_zero (p : Surface) :
    8 * p.scale + (80 * p.scale + 8 * p.scale) + 8 * p.scale = p.windowX 0 := by
  rw [windowX_eq]
  have : Int32.ofInt (0 : Nat) = 0 := rfl
  grind

theorem windowX_succ (p : Surface) (i : Nat) :
    p.windowX i + (140 * p.scale + 4 * p.scale) = p.windowX (i + 1) := by
  rw [windowX_eq, windowX_eq, Int.natCast_succ, Int32.ofInt_add]
  have : Int32.ofInt 1 = 1 := rfl
  grind

theorem length_panelItems (p : Surface) (cfg : PanelConfig) (count : Nat) (x : Int32)
    (tls : List LunaToplevel) :
    (p.panelItems cfg count x tls).length = min (32 - count) tls.length := by
  induction tls generalizing count x with
  | nil => exact (Nat.min_zero _).symm
  | cons tl rest ih =>
      rw [panelItems]
      split
      next full => rw [Nat.sub_eq_zero_of_le full, Nat.zero_min, List.length_nil]
      next more =>
          rw [List.length_cons, ih, List.length_cons]
          omega

/-- The loop draws the first 32 windows, in their order. -/
theorem getElem?_panelItems (p : Surface) (cfg : PanelConfig) (count : Nat)
    (tls : List LunaToplevel) (i : Nat) :
    (p.panelItems cfg count (p.windowX count) tls)[i]? =
      if count + i < 32 then tls[i]?.map (p.panelItem cfg (p.windowX (count + i))) else none := by
  induction tls generalizing count i with
  | nil => simp [panelItems]
  | cons tl rest ih =>
      rw [panelItems]
      by_cases full : 32 ≤ count
      · rw [if_pos full, if_neg (by omega)]
        rfl
      · rw [if_neg full, windowX_succ]
        cases i with
        | zero =>
            rw [if_pos (by omega)]
            rfl
        | succ i =>
            rw [List.getElem?_cons_succ, ih, List.getElem?_cons_succ, Nat.add_right_comm,
              Nat.add_assoc count]

theorem getElem?_items (p : Surface) (cfg : PanelConfig) (toplevels : List LunaToplevel)
    (clk : Chars 32) (i : Nat) :
    (p.drawPanel cfg toplevels clk).items[i]? =
      if i < 32 then toplevels[i]?.map (p.panelItem cfg (p.windowX i)) else none := by
  have loop := getElem?_panelItems p cfg 0 toplevels i
  rw [← windowX_zero, Nat.zero_add] at loop
  exact loop

end Surface
end LunaOS.Shell
