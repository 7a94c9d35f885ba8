import LunaOS.Shell.DesktopEntry
import LunaOS.Shell.Drawing

/-!
`launcher_render`, and the columns that `ll_configure` computes for it. The columns are a
quotient of unsigned numbers: below a width of 64 the difference wraps, and the launcher
takes all of its icons to be in one row.
-/
namespace LunaOS.Shell
open Seatd (bytes)

def builtinApps : List LunaApp :=
  [{ name := bytes "Terminal", exec := bytes "foot", iconName := bytes "terminal",
     category := bytes "System", accentColor := 0xFF2D8CFF },
   { name := bytes "Files", exec := bytes "luna-files", iconName := bytes "file-manager",
     category := bytes "Files", accentColor := 0xFF4CAF50 },
   { name := bytes "Text Editor", exec := bytes "luna-editor", iconName := bytes "text-editor",
     category := bytes "Utility", accentColor := 0xFFFF9800 },
   { name := bytes "Settings", exec := bytes "luna-settings", iconName := bytes "preferences",
     category := bytes "System", accentColor := 0xFF607D8B }]

/-- The fields of `struct luna_launcher` that are computed with the size. -/
structure LauncherGrid where
  iconSize : Int32
  cellW : Int32
  cellH : Int32
  cols : Int32

/-- `ll_configure`, between the scale and the buffer. -/
def LauncherGrid.configure (iconSize : Int32) (w : UInt32) : LauncherGrid :=
  let cellW := iconSize + 24
  let cols := ((w - 64) / cellW.toUInt32).toInt32
  { iconSize := iconSize
    cellW := cellW
    cellH := iconSize + 36
    cols := if cols < 1 then 1 else cols }

/-- The accent of the icon under the pointer, each channel of which wraps. -/
def hovered (bg : UInt32) : UInt32 :=
  let r := ((bg >>> 16) &&& 0xFF).toUInt8 + 30
  let g := ((bg >>> 8) &&& 0xFF).toUInt8 + 30
  let b := (bg &&& 0xFF).toUInt8 + 30
  (0xFF000000 : UInt32) ||| (r.toUInt32 <<< 16) ||| (g.toUInt32 <<< 8) ||| b.toUInt32

/-- What one turn of the loop draws, and the place of its cell. -/
structure LauncherItem where
  cx : Int32
  cy : Int32
  icon : Fill
  initial : List Fill
  name : List Fill

structure LauncherDrawing where
  background : Fill
  title : List Fill
  items : List LauncherItem
  hint : List Fill

namespace LauncherDrawing

def fills (d : LauncherDrawing) : List Fill :=
  d.background :: d.title ++
    d.items.flatMap (fun item => item.icon :: (item.initial ++ item.name)) ++ d.hint

theorem forall_fills_iff {P : Fill → Prop} (d : LauncherDrawing) :
    (∀ f ∈ d.fills, P f) ↔ (P d.background ∧ ∀ f ∈ d.title, P f) ∧
      (∀ item ∈ d.items,
        P item.icon ∧ (∀ f ∈ item.initial, P f) ∧ ∀ f ∈ item.name, P f) ∧
      ∀ f ∈ d.hint, P f := by
  simp only [fills, List.forall_mem_append, List.forall_mem_cons, List.forall_mem_flatMap,
    List.cons_append, and_assoc]

end LauncherDrawing

namespace Surface

def launcherGx (l : Surface) (g : LauncherGrid) : Int32 :=
  (l.width * l.scale - g.cols * g.cellW * l.scale) / 2

def launcherCx (l : Surface) (g : LauncherGrid) (i : Int32) : Int32 :=
  l.launcherGx g + i % g.cols * g.cellW * l.scale

def launcherCy (l : Surface) (g : LauncherGrid) (i : Int32) : Int32 :=
  72 * l.scale + i / g.cols * g.cellH * l.scale

def EndsBelow (l : Surface) (g : LauncherGrid) (i : Int32) : Prop :=
  l.height * l.scale < l.launcherCy g i + g.cellH * l.scale

instance (l : Surface) (g : LauncherGrid) (i : Int32) : Decidable (l.EndsBelow g i) :=
  inferInstanceAs (Decidable (_ < _))

/-- The body of the loop, behind its `break`. -/
def launcherItem (l : Surface) (g : LauncherGrid) (hoverIdx i : Int32) (app : LunaApp) :
    LauncherItem :=
  let sc := l.scale
  let fsize := 14 * sc
  let cx := l.launcherCx g i
  let cy := l.launcherCy g i
  let is := g.iconSize * sc
  let bg := if hoverIdx = i then hovered app.accentColor else app.accentColor
  { cx := cx
    cy := cy
    icon := ⟨cx + (g.cellW * sc - is) / 2, cy, is, is, bg⟩
    initial := ltext (cx + (g.cellW * sc - 20 * sc) / 2) (cy + (is - fsize) / 2)
      (app.name.take 1) 0xFFFFFFFF (fsize * 2)
    name := ltext cx (cy + is + 4 * sc) app.name 0xFFDDDDDD (11 * sc) }

/-- The loop over the entries, up to the first one that is below the launcher. -/
def launcherItems (l : Surface) (g : LauncherGrid) (hoverIdx : Int32) :
    Nat → List LunaApp → List LauncherItem
  | _, [] => []
  | i, app :: rest =>
      if l.EndsBelow g (Int32.ofNat i) then []
      else l.launcherItem g hoverIdx (Int32.ofNat i) app ::
        l.launcherItems g hoverIdx (i + 1) rest

/-- What `launcher_render` draws; `apps` are those of the shell. -/
def drawLauncher (l : Surface) (g : LauncherGrid) (hoverIdx : Int32) (apps : List LunaApp) :
    LauncherDrawing :=
  let w := l.width * l.scale
  let h := l.height * l.scale
  let sc := l.scale
  let fsize := 14 * sc
  { background := ⟨0, 0, w, h, 0xE6050510⟩
    title := ltext ((w - 12 * (fsize / 2)) / 2) (20 * sc) (bytes "Applications") 0xFFEEEEEE fsize
    items := l.launcherItems g hoverIdx 0 (builtinApps ++ apps)
    hint := ltext ((w - 26 * (11 * sc / 2)) / 2) (h - 20 * sc) (bytes "Super or Esc to close")
      0x55EEEEEE (11 * sc) }

/-- `launcher_render`. -/
def lunaLauncherRender (l : Surface) (g : LauncherGrid) (hoverIdx : Int32) (apps : List LunaApp) :
    Option LauncherDrawing :=
  if !l.configured || l.pixels = .null then none else some (l.drawLauncher g hoverIdx apps)

/-- The loop draws an entry when neither it nor one before it is below. -/
theorem getElem?_launcherItems_shown (l : Surface) (g : LauncherGrid) (hoverIdx : Int32) (i : Nat)
    (apps : List LunaApp) (k : Nat) :
    (l.launcherItems g hoverIdx i apps)[k]? =
      if ∀ j < k + 1, ¬ l.EndsBelow g (Int32.ofNat (i + j)) then
        apps[k]?.map (l.launcherItem g hoverIdx (Int32.ofNat (i + k)))
      else none := by
  induction apps generalizing i k with
  | nil => simp [launcherItems]
  | cons app rest ih =>
      rw [launcherItems]
      by_cases below : l.EndsBelow g (Int32.ofNat i)
      · rw [if_pos below, if_neg fun shown => shown 0 (Nat.zero_lt_succ k) below]
        rfl
      · rw [if_neg below]
        cases k with
        | zero =>
            rw [if_pos]
            · rfl
            · intro j first
              obtain rfl : j = 0 := by omega
              exact below
        | succ k =>
            have next (j : Nat) : i + 1 + j = i + (j + 1) := by omega
            simp only [List.getElem?_cons_succ, ih (i + 1), next]
            refine if_congr ?_ rfl rfl
            rw [Nat.forall_lt_succ_left (n := k + 1)]
            exact (and_iff_right below).symm

/-- The loop draws the first `n` entries when these are the ones that are not below. -/
theorem getElem?_launcherItems (l : Surface) (g : LauncherGrid) (hoverIdx : Int32) {n : Nat}
    (i : Nat) (apps : List LunaApp)
    (shown : ∀ j < n, ¬ l.EndsBelow g (Int32.ofNat (i + j)))
    (ends : n < apps.length → l.EndsBelow g (Int32.ofNat (i + n))) (k : Nat) :
    (l.launcherItems g hoverIdx i apps)[k]? =
      if k < n then apps[k]?.map (l.launcherItem g hoverIdx (Int32.ofNat (i + k))) else none := by
  rw [getElem?_launcherItems_shown]
  by_cases before : k < n
  · rw [if_pos before, if_pos fun j near => shown j (by omega)]
  · rw [if_neg before]
    by_cases more : n < apps.length
    · exact if_neg fun all => all n (by omega) (ends more)
    · rw [List.getElem?_eq_none (by omega), Option.map_none, ite_self]

/-! What `ll_configure` leaves for it. -/

/-- The launcher as `ll_configure` makes it, but for the resources. -/
def llSized (s : Surface) (c : Configure) : Surface :=
  (s.llAccept c).setStride (c.w * (s.llAccept c).scale.toUInt32).toInt32
    (c.h * (s.llAccept c).scale.toUInt32).toInt32

def sides (s : Surface) : Int32 × Int32 × Int32 × Int32 × UInt64 :=
  (s.width, s.height, s.scale, s.stride, s.size)

section
variable {s s' : Surface} {c : Configure}

theorem render_sides (s : Surface) (drawn : Bool) (pw ph : Int32) :
    (s.render drawn pw ph).sides = s.sides := by
  have draw : (s.draw drawn).sides = s.sides := by
    unfold Surface.draw
    split <;> rfl
  unfold render present
  split
  · rfl
  · rw [← draw]
    split
    · rfl
    · simp only [sides, commit, attach, call]

theorem releaseOld_sides (s : Surface) : s.releaseOld.sides = s.sides := by
  unfold releaseOld
  split
  · rfl
  · simp only [sides, releaseAll, call]

theorem allocate_sides {pw ph : Int32} {a : Allocation} (next : s.allocate pw ph a = some s') :
    s'.sides = (s.setStride pw ph).sides := by
  obtain ⟨s₁, s₂, s₃, opened, mapping, pooled, buffered⟩ := allocate_cases next
  obtain ⟨_, rfl⟩ := createBuffer_cases buffered
  obtain ⟨_, rfl⟩ := createPool_cases pooled
  obtain ⟨_, rfl⟩ := shmOpen_cases opened
  obtain ⟨_, rfl⟩ | ⟨_, _, _, _, rfl⟩ := mmap_cases mapping <;> simp only [sides, call]

theorem llConfigure_sides (next : s.llConfigure c = some s') :
    s'.sides = (s.llSized c).sides := by
  obtain ⟨s₁, allocated, same⟩ := Option.bind_eq_some_iff.mp next
  obtain rfl := Option.some.inj same
  have released := releaseOld_sides (s.llAccept c)
  simp only [sides, Prod.mk.injEq] at released
  obtain ⟨width, height, scale, _⟩ := released
  have sized : s₁.sides = (s.llSized c).sides := by
    rw [allocate_sides allocated]
    simp only [llSized, sides, setStride, width, height, scale]
  rw [← sized]
  split
  · exact render_sides ..
  · rfl

theorem drawLauncher_congr (same : s'.sides = s.sides) (g : LauncherGrid) (hoverIdx : Int32)
    (apps : List LunaApp) :
    s'.drawLauncher g hoverIdx apps = s.drawLauncher g hoverIdx apps := by
  simp only [sides, Prod.mk.injEq] at same
  obtain ⟨width, height, scale, _⟩ := same
  have left : s'.launcherGx g = s.launcherGx g := by simp only [launcherGx, width, scale]
  have cx (i : Int32) : s'.launcherCx g i = s.launcherCx g i := by
    simp only [launcherCx, left, scale]
  have cy (i : Int32) : s'.launcherCy g i = s.launcherCy g i := by simp only [launcherCy, scale]
  have item : s'.launcherItem g hoverIdx = s.launcherItem g hoverIdx := by
    funext i app
    simp only [launcherItem, cx, cy, scale]
  have below (i : Int32) : s'.EndsBelow g i ↔ s.EndsBelow g i := by
    simp only [EndsBelow, height, scale, cy]
  have items (i : Nat) (apps : List LunaApp) :
      s'.launcherItems g hoverIdx i apps = s.launcherItems g hoverIdx i apps := by
    induction apps generalizing i with
    | nil => rfl
    | cons app rest ih => simp only [launcherItems, below, item, ih]
  simp only [drawLauncher, items, width, height, scale]

end

end Surface
end LunaOS.Shell
