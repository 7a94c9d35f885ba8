import LunaOS.Shell.PanelDrawing

/-!
The zones of the panel against its drawing. The `x` of a window is a multiple of the scale, so
dividing loses nothing as long as the 32nd window is drawn without an overflow. A buffer whose
sizes are defined has a scale that is far from one.
-/
namespace LunaOS.Shell
open CStrings Rects

namespace Zone

def span (z : Zone) : Finset Int :=
  interval z.x.toInt (z.x.toInt + z.w.toInt)

theorem disjoint_span {z z' : Zone} (apart : z.x.toInt + z.w.toInt ≤ z'.x.toInt) :
    Disjoint z.span z'.span := by
  rw [span, span, Finset.disjoint_left]
  intro c held held'
  rw [mem_interval] at held held'
  omega

end Zone

namespace Surface
variable {p : Surface} {cfg : PanelConfig} {clk : Chars 32} {toplevels : List LunaToplevel}

def windowZone (p : Surface) (i : Nat) : Zone where
  x := p.windowX i / p.scale
  w := 140 * p.scale / p.scale

theorem getElem?_zoneToplevels (p : Surface) (cfg : PanelConfig) (toplevels : List LunaToplevel)
    (clk : Chars 32) (i : Nat) :
    (p.drawPanel cfg toplevels clk).zoneToplevels[i]? =
      if i < 32 then toplevels[i]?.map fun _ => p.windowZone i else none := by
  rw [PanelDrawing.zoneToplevels, List.getElem?_map, getElem?_items]
  split
  · rw [Option.map_map]
    rfl
  · rfl

/-- What is kept for the pointer is what was drawn. -/
structure ZonesMatch (p : Surface) (cfg : PanelConfig) (toplevels : List LunaToplevel)
    (d : PanelDrawing) : Prop where
  count : d.zoneToplevels.length = min 32 toplevels.length
  button : ∀ (i : Nat) tl, i < 32 → toplevels[i]? = some tl →
    ∃ item, d.items[i]? = some item ∧ item = p.panelItem cfg item.button.x tl ∧
      item.button ∈ d.fills ∧ item.zone.x.toInt = 104 + 144 * i ∧ item.zone.w.toInt = 140 ∧
      item.zone.x.toInt * p.scale.toInt = item.button.x.toInt ∧
      item.zone.w.toInt * p.scale.toInt = item.button.w.toInt
  increasing : d.zoneToplevels.Pairwise fun z z' => z.x < z'.x
  apart : d.zoneToplevels.Pairwise fun z z' => Disjoint z.span z'.span
  launcher : ∀ z ∈ d.zoneToplevels, Disjoint z.span d.zoneLauncher.span

theorem mem_fills_button {d : PanelDrawing} {item : PanelItem} (drawn : item ∈ d.items) :
    item.button ∈ d.fills := by
  have all : ∀ f ∈ d.fills, f ∈ d.fills := fun _ held => held
  exact ((d.forall_fills_iff.mp all).2.1.2 item drawn).1

theorem length_zoneToplevels (p : Surface) (cfg : PanelConfig) (toplevels : List LunaToplevel)
    (clk : Chars 32) :
    (p.drawPanel cfg toplevels clk).zoneToplevels.length = min 32 toplevels.length := by
  rw [PanelDrawing.zoneToplevels, List.length_map]
  exact length_panelItems p cfg 0 _ toplevels

theorem toInt_scaled (pos : 0 < p.scale.toInt) {k : Int} (nonneg : 0 ≤ k)
    (fits : k * p.scale.toInt < 2147483648) :
    (Int32.ofInt k * p.scale).toInt = k * p.scale.toInt ∧
      (Int32.ofInt k * p.scale / p.scale).toInt = k := by
  have above : 0 ≤ k * p.scale.toInt := Int.mul_nonneg nonneg pos.le
  have value : (Int32.ofInt k * p.scale).toInt = k * p.scale.toInt := by
    rw [Int32.toInt_mul, Int32.toInt_ofInt, Int.bmod_mul_bmod]
    exact Ints.bmod_fits (by omega) fits
  refine ⟨value, ?_⟩
  rw [Ints.toInt_div value above pos, Int.mul_ediv_cancel k pos.ne']

theorem toInt_windowZone (pos : 0 < p.scale.toInt) (wide : 140 * p.scale.toInt < 2147483648)
    {i : Nat} (fits : (104 + 144 * i) * p.scale.toInt < 2147483648) :
    (p.windowZone i).x.toInt = 104 + 144 * i ∧ (p.windowZone i).w.toInt = 140 :=
  ⟨(toInt_scaled pos (by omega) fits).2, (toInt_scaled pos (k := 140) (by decide) wide).2⟩

theorem toInt_zoneLauncher (cfg : PanelConfig) (toplevels : List LunaToplevel) (clk : Chars 32)
    (pos : 0 < p.scale.toInt) (wide : 140 * p.scale.toInt < 2147483648) :
    (p.drawPanel cfg toplevels clk).zoneLauncher.x.toInt = 8 ∧
      (p.drawPanel cfg toplevels clk).zoneLauncher.w.toInt = 80 :=
  ⟨(toInt_scaled pos (k := 8) (by decide) (by omega)).2,
    (toInt_scaled pos (k := 80) (by decide) (by omega)).2⟩

/-- The 32nd window is drawn at 4568 logical pixels. -/
theorem zonesMatch_of_scaled (pos : 0 < p.scale.toInt)
    (scaled : ∀ k : Int, k ≤ 4568 → k * p.scale.toInt < 2147483648) :
    p.ZonesMatch cfg toplevels (p.drawPanel cfg toplevels clk) := by
  have length := length_zoneToplevels p cfg toplevels clk
  have zone (i : Nat) (held : i < (p.drawPanel cfg toplevels clk).zoneToplevels.length) :
      (p.drawPanel cfg toplevels clk).zoneToplevels[i].x.toInt = 104 + 144 * i ∧
        (p.drawPanel cfg toplevels clk).zoneToplevels[i].w.toInt = 140 := by
    have found := getElem?_zoneToplevels p cfg toplevels clk i
    rw [List.getElem?_eq_getElem held, if_pos (by omega),
      List.getElem?_eq_getElem (by omega : i < toplevels.length), Option.map_some,
      Option.some_inj] at found
    rw [found]
    exact toInt_windowZone pos (scaled 140 (by decide)) (scaled _ (by omega))
  refine ⟨length, ?_, ?_, ?_, ?_⟩
  · intro i tl drawn listed
    have short : i < toplevels.length := (List.getElem?_eq_some_iff.mp listed).1
    obtain ⟨value, quotient⟩ := toInt_scaled pos (by omega : 0 ≤ 104 + 144 * (i : Int))
      (scaled _ (by omega))
    obtain ⟨value', quotient'⟩ := toInt_scaled pos (by decide) (scaled 140 (by decide))
    have found : (p.drawPanel cfg toplevels clk).items[i]? =
        some (p.panelItem cfg (p.windowX i) tl) := by
      rw [getElem?_items, if_pos drawn, listed]
      rfl
    refine ⟨_, found, rfl, mem_fills_button (List.mem_of_getElem? found), quotient, quotient',
      ?_, ?_⟩
    · exact (congrArg (· * p.scale.toInt) quotient).trans value.symm
    · exact (congrArg (· * p.scale.toInt) quotient').trans value'.symm
  · rw [List.pairwise_iff_getElem]
    intro i j hi hj before
    rw [Int32.lt_iff_toInt_lt, (zone i hi).1, (zone j hj).1]
    omega
  · rw [List.pairwise_iff_getElem]
    intro i j hi hj before
    apply Zone.disjoint_span
    rw [(zone i hi).1, (zone i hi).2, (zone j hj).1]
    omega
  · intro z held
    obtain ⟨i, hi, rfl⟩ := List.mem_iff_getElem.mp held
    obtain ⟨x, w⟩ := toInt_zoneLauncher cfg toplevels clk pos (scaled 140 (by decide))
    apply (Zone.disjoint_span _).symm
    rw [x, w, (zone i hi).1]
    omega

/-- A panel that is drawn keeps for the pointer what it has drawn, at every scale that its
buffer can have and for every list of windows. -/
theorem zones_match (p : Surface) (cfg : PanelConfig) (toplevels : List LunaToplevel)
    (clk : Chars 32) (configured : p.configured = true) (mapped : p.pixels ≠ .null)
    (wide : 1 ≤ p.width.toInt) (high : 1 ≤ p.height.toInt) (pos : 1 ≤ p.scale.toInt)
    (fits : p.SizesFit) :
    ∃ d, p.lunaPanelRender cfg toplevels clk = some d ∧ p.ZonesMatch cfg toplevels d := by
  have small : p.scale.toInt < 32768 := (scale_lt_of_pixels wide high pos fits.2.2).1
  refine ⟨_, lunaPanelRender_ready configured mapped cfg toplevels clk, ?_⟩
  refine zonesMatch_of_scaled pos fun k le => ?_
  have : k * p.scale.toInt ≤ 4568 * p.scale.toInt := Int.mul_le_mul_of_nonneg_right le (by omega)
  omega

/-- Three windows on a Retina panel. -/
theorem zones_match_retina :
    let p : Surface :=
      { width := 800, height := 36, scale := 2, physW := 1600, physH := 72,
        pixels := .mapped 4096, configured := true }
    ∃ d, p.lunaPanelRender .plain (List.replicate 3 .untitled) (Chars.zero 32 (by decide)) =
        some d ∧ d.zoneToplevels.length = 3 ∧
      p.ZonesMatch .plain (List.replicate 3 .untitled) d := by
  obtain ⟨d, drawn, matching⟩ := zones_match
    { width := 800, height := 36, scale := 2, physW := 1600, physH := 72,
      pixels := .mapped 4096, configured := true }
    .plain (List.replicate 3 .untitled) (Chars.zero 32 (by decide)) rfl (by decide) (by decide)
    (by decide) (by decide) (by decide)
  exact ⟨d, drawn, matching.count, matching⟩

end Surface
end LunaOS.Shell
