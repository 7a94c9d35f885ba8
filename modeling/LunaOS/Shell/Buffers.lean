import Mathlib.Logic.Function.Basic
import LunaOS.Lib.Ints
import LunaOS.Shell.Handshake
import LunaOS.Shell.Main
import LunaOS.Shell.Ownership

/-!
The buffers that the shell commits, against the scale that it sets for them. A module scales
its logical size up, so that the scale divides both sides as long as no product overflows. The
shell's own program takes the size of the mode as it is, which a scale need not divide.
-/
namespace LunaOS.Shell
open Custody Ints

structure CommittedBuffer where
  width : Int32
  height : Int32
  stride : Int32
  poolSize : Int32
  scale : Int32
  deriving DecidableEq

namespace CommittedBuffer

/-- The scale divides both sides, and the rows are all of the pool, over the integers. -/
def FitsScale (b : CommittedBuffer) : Prop :=
  (b.scale.toInt ∣ b.width.toInt ∧ b.scale.toInt ∣ b.height.toInt) ∧
    b.stride.toInt * b.height.toInt = b.poolSize.toInt

instance (b : CommittedBuffer) : Decidable b.FitsScale :=
  inferInstanceAs (Decidable ((_ ∧ _) ∧ _))

/-- What each place makes of its size in pixels. -/
def ofSize (pw ph scale : Int32) : CommittedBuffer :=
  ⟨pw, ph, pw * 4, pw * 4 * ph, scale⟩

theorem ofSize_fitsScale_iff {pw ph scale : Int32} {w h sc : Int} (hw : pw.toInt = w)
    (hh : ph.toInt = h) (hs : scale.toInt = sc) (row : InRange (4 * w)) :
    (ofSize pw ph scale).FitsScale ↔ (sc ∣ w ∧ sc ∣ h) ∧ InRange (4 * w * h) := by
  have stride : (pw * 4).toInt = 4 * w := by
    rw [Int.mul_comm 4]
    exact toInt_mul hw rfl (by have := row.1; omega) (by have := row.2; omega)
  rw [FitsScale, ofSize, hw, hh, hs, stride]
  refine and_congr_right fun _ => ⟨fun exact => ?_, fun fits => ?_⟩
  · rw [exact]
    exact inRange_toInt _
  · exact (toInt_mul stride hh fits.1 fits.2).symm

end CommittedBuffer

/-- The size of a pool is a `size_t` on the way from one `int` to the other. -/
theorem Surface.toInt32_toSize (n : Int32) : (Surface.toSize n).toInt64.toInt32 = n := by
  simp [Surface.toSize]

/-! The shell's own program. -/

def LayerSurface.buffer (surf : LayerSurface) : CommittedBuffer :=
  ⟨surf.bufferWidth, surf.bufferHeight, surf.stride, surf.poolSize, surf.bufferScale⟩

namespace LunaOutput
variable {out : LunaOutput}

/-- No product before that of the pool overflows, which is undefined. -/
def PanelDefined (out : LunaOutput) : Prop :=
  InRange (36 * out.scale.toInt) ∧ InRange (4 * out.width.toInt)

theorem panel_buffer (out : LunaOutput) :
    out.panel.buffer = .ofSize out.width (panelHLogical * out.scale) out.scale := by
  rw [LayerSurface.buffer, panel, Surface.toInt32_toSize]
  rfl

theorem wallpaper_buffer (out : LunaOutput) :
    out.wallpaper.buffer = .ofSize out.width out.height out.scale := by
  rw [LayerSurface.buffer, wallpaper, Surface.toInt32_toSize]
  rfl

/-- The height of the panel is scaled, and its width is that of the mode. -/
theorem panel_fits_iff (wide : 1 ≤ out.width.toInt) (scaled : 1 ≤ out.scale.toInt) :
    out.PanelDefined ∧ out.panel.buffer.FitsScale ↔
      out.scale.toInt ∣ out.width.toInt ∧
        InRange (4 * out.width.toInt * (36 * out.scale.toInt)) := by
  have fits_iff (defined : out.PanelDefined) : out.panel.buffer.FitsScale ↔
      (out.scale.toInt ∣ out.width.toInt ∧ out.scale.toInt ∣ 36 * out.scale.toInt) ∧
        InRange (4 * out.width.toInt * (36 * out.scale.toInt)) := by
    rw [panel_buffer]
    exact CommittedBuffer.ofSize_fitsScale_iff rfl (toInt_mul rfl rfl defined.1.1 defined.1.2) rfl
      defined.2
  have rows : out.scale.toInt ∣ 36 * out.scale.toInt := Int.dvd_mul_left ..
  constructor
  · rintro ⟨defined, fits⟩
    obtain ⟨⟨columns, _⟩, pool⟩ := (fits_iff defined).mp fits
    exact ⟨columns, pool⟩
  · rintro ⟨columns, pool⟩
    have one_column : 4 * 1 * (36 * out.scale.toInt) ≤
        4 * out.width.toInt * (36 * out.scale.toInt) :=
      Int.mul_le_mul_of_nonneg_right (by omega) (by omega)
    have one_row : 4 * out.width.toInt * (36 * 1) ≤
        4 * out.width.toInt * (36 * out.scale.toInt) :=
      Int.mul_le_mul_of_nonneg_left (by omega) (by omega)
    have below := pool.2
    have defined : out.PanelDefined := ⟨⟨by omega, by omega⟩, by omega, by omega⟩
    exact ⟨defined, (fits_iff defined).mpr ⟨⟨columns, rows⟩, pool⟩⟩

/-- Neither side of the wallpaper is scaled. -/
theorem wallpaper_fits_iff (out : LunaOutput) :
    InRange (4 * out.width.toInt) ∧ out.wallpaper.buffer.FitsScale ↔
      (out.scale.toInt ∣ out.width.toInt ∧ out.scale.toInt ∣ out.height.toInt) ∧
        InRange (4 * out.width.toInt) ∧ InRange (4 * out.width.toInt * out.height.toInt) := by
  rw [and_left_comm, wallpaper_buffer]
  exact and_congr_right fun row => CommittedBuffer.ofSize_fitsScale_iff rfl rfl rfl row

end LunaOutput

/-! What a configure makes. -/

namespace Configure

/-- The scale that a module sets: what it reads, unless that is less than 1. -/
def unit (c : Configure) : Int32 :=
  if 0 < c.scale then c.scale else 1

def Defined (c : Configure) : Prop :=
  InRange (4 * (c.w.toInt32.toInt * c.unit.toInt)) ∧ InRange (c.h.toInt32.toInt * c.unit.toInt)

def SizesFit (c : Configure) : Prop :=
  c.Defined ∧
    InRange (4 * (c.w.toInt32.toInt * c.unit.toInt) * (c.h.toInt32.toInt * c.unit.toInt))

instance (c : Configure) : Decidable c.SizesFit :=
  inferInstanceAs (Decidable ((_ ∧ _) ∧ _))

def buffer (c : Configure) : CommittedBuffer :=
  .ofSize (c.w.toInt32 * c.unit) (c.h.toInt32 * c.unit) c.unit

theorem buffer_fits_iff (c : Configure) : c.Defined ∧ c.buffer.FitsScale ↔ c.SizesFit := by
  refine and_congr_right fun ⟨row, rows⟩ => ?_
  have hw := toInt_mul (a := c.w.toInt32) (b := c.unit) rfl rfl (by have := row.1; omega)
    (by have := row.2; omega)
  have hh := toInt_mul (a := c.h.toInt32) (b := c.unit) rfl rfl rows.1 rows.2
  refine (CommittedBuffer.ofSize_fitsScale_iff hw hh rfl row).trans (and_iff_right ?_)
  exact ⟨Int.dvd_mul_left .., Int.dvd_mul_left ..⟩

theorem llAccept_scale (l : Surface) (c : Configure) : (l.llAccept c).scale = c.unit := by
  simp only [Surface.llAccept, unit]
  have same : c.scale < 1 ↔ ¬ 0 < c.scale := by
    rw [Int32.lt_iff_toInt_lt, Int32.lt_iff_toInt_lt]
    change c.scale.toInt < 1 ↔ ¬ 0 < c.scale.toInt
    omega
  simp only [same, ite_not]

theorem toInt32_mul (x : UInt32) (c : Configure) :
    (x * c.unit.toUInt32).toInt32 = x.toInt32 * c.unit := by
  rw [UInt32.toInt32_mul]
  rfl

end Configure

/-! What the compositor is told. -/

/-- The pools and the buffers by their proxies, the scale, and the buffers that were committed. -/
structure Told where
  pools : Nat → Int32 := fun _ => 0
  buffers : Nat → CommittedBuffer := fun _ => .ofSize 0 0 1
  scale : Int32 := 1
  commits : List CommittedBuffer := []

def Told.hear (t : Told) : Call → Told
  | .createPool pool _ size => { t with pools := Function.update t.pools pool size }
  | .createBuffer buffer (some pool) w h stride =>
      { t with buffers := Function.update t.buffers buffer ⟨w, h, stride, t.pools pool, 1⟩ }
  | .setBufferScale scale => { t with scale := scale }
  | .commit (some (some buffer)) =>
      { t with commits := t.commits ++ [{ t.buffers buffer with scale := t.scale }] }
  | _ => t

namespace Surface
variable {s s' t : Surface} {b : CommittedBuffer} {pw ph : Int32} {a : Allocation}

def told (s : Surface) : Told :=
  s.calls.foldl Told.hear {}

theorem told_call (s : Surface) (c : Call) : (s.call c).told = s.told.hear c := by
  simp [told, call]

def Holding (s : Surface) (b : CommittedBuffer) : Prop :=
  ∃ k, s.buffer = some k ∧ { s.told.buffers k with scale := s.scale } = b

theorem Holding.of_same (held : s.Holding b) (told : s'.told = s.told)
    (buffer : s'.buffer = s.buffer) (scale : s'.scale = s.scale) : s'.Holding b := by
  rw [Holding, told, buffer, scale]
  exact held

/-- Between `s` and `s'` the compositor is told nothing, and the sizes stay. -/
structure Untold (s s' : Surface) : Prop where
  told : s'.told = s.told
  scale : s'.scale = s.scale
  stride : s'.stride = s.stride
  size : s'.size = s.size
  physW : s'.physW = s.physW
  physH : s'.physH = s.physH

theorem Untold.trans (first : Untold s t) (second : Untold t s') : Untold s s' :=
  ⟨second.told.trans first.told, second.scale.trans first.scale,
    second.stride.trans first.stride, second.size.trans first.size,
    second.physW.trans first.physW, second.physH.trans first.physH⟩

theorem releaseOld_untold (s : Surface) : Untold s s.releaseOld := by
  unfold releaseOld
  split
  · exact ⟨rfl, rfl, rfl, rfl, rfl, rfl⟩
  · constructor
    case told => simp only [releaseAll, told_call, Told.hear]
    all_goals simp only [releaseAll, call]

theorem opened_untold {result : Int32} (next : s.shmOpen result = some s') : Untold s s' := by
  obtain ⟨_, rfl⟩ := shmOpen_cases next
  exact ⟨told_call s (.shmOpen result), rfl, rfl, rfl, rfl, rfl⟩

theorem mmap_untold {addr : Option UInt64} (next : s.mmap addr = some s') :
    Untold s s' ∧ s'.pixels ≠ .null := by
  obtain ⟨_, rfl⟩ | ⟨m, _, _, _, rfl⟩ := mmap_cases next
  · exact ⟨⟨told_call s (.mmap s.shmFd s.size .failed), rfl, rfl, rfl, rfl, rfl⟩, nofun⟩
  · exact ⟨⟨told_call s (.mmap s.shmFd s.size (.mapped m)), rfl, rfl, rfl, rfl, rfl⟩, nofun⟩

theorem draw_told (s : Surface) (drawn : Bool) :
    (s.draw drawn).told = s.told ∧ (s.draw drawn).scale = s.scale := by
  unfold draw
  split
  · exact ⟨told_call s (.write s.pixels s.size), rfl⟩
  · exact ⟨rfl, rfl⟩

theorem Holding.draw (held : s.Holding b) (drawn : Bool) : (s.draw drawn).Holding b :=
  held.of_same (draw_told s drawn).1 (draw_buffer s drawn) (draw_told s drawn).2

theorem attach_told (s : Surface) (buffer : Option Nat) : (s.attach buffer).told = s.told :=
  told_call s (.attach buffer)

theorem commit_told (s : Surface) : s.commit.told = s.told.hear (.commit s.pending) :=
  told_call s (.commit s.pending)

/-- What a module that goes on presents is the buffer that it holds. -/
theorem present_told (live : s.faulted = false) (held : s.Holding b) (pw ph : Int32) :
    (s.present pw ph).told.commits = s.told.commits ++ [b] ∧ (s.present pw ph).Holding b := by
  obtain ⟨k, buffer, rfl⟩ := held
  have presented : s.present pw ph =
      (((s.attach s.buffer).call (.damageBuffer pw ph)).call (.setBufferScale s.scale)).commit :=
    if_neg (ne_true_of_eq_false live)
  have told : (s.present pw ph).told =
      { s.told with
        scale := s.scale
        commits := s.told.commits ++ [{ s.told.buffers k with scale := s.scale }] } := by
    rw [presented, commit_told, told_call, told_call, attach_told, buffer]
    simp only [Told.hear, attach, call]
  refine ⟨by rw [told], k, (present_kept s pw ph).1.trans buffer, ?_⟩
  rw [told, presented]
  simp only [commit, attach, call]

theorem createPool_told {pool : Nat} (next : s.createPool pool = some s') :
    s'.told =
        { s.told with
          pools := Function.update s.told.pools pool s.size.toInt64.toInt32 } ∧
      s'.shmPool = some pool ∧ s'.stride = s.stride ∧ s'.scale = s.scale ∧
      s'.pixels = s.pixels ∧ s'.physW = s.physW ∧ s'.physH = s.physH := by
  obtain ⟨_, rfl⟩ := createPool_cases next
  exact ⟨told_call s (.createPool pool s.shmFd s.size.toInt64.toInt32), rfl, rfl, rfl, rfl, rfl,
    rfl⟩

theorem createBuffer_told {pool buffer : Nat} (pooled : s.shmPool = some pool)
    (next : s.createBuffer buffer pw ph = some s') :
    s'.told =
        { s.told with
          buffers := Function.update s.told.buffers buffer
            ⟨pw, ph, s.stride, s.told.pools pool, 1⟩ } ∧
      s'.buffer = some buffer ∧ s'.scale = s.scale ∧ s'.pixels = s.pixels := by
  obtain ⟨_, rfl⟩ := createBuffer_cases next
  rw [pooled]
  exact ⟨told_call s (.createBuffer buffer (some pool) pw ph s.stride), rfl, rfl, rfl⟩

/-- A pool of the size that the buffer needs, and the buffer. -/
theorem created {pool buffer : Nat} (stride : s.stride = pw * 4)
    (size : s.size = toSize (pw * 4 * ph)) (pooled : s.createPool pool = some t)
    (buffered : t.createBuffer buffer pw ph = some s') :
    s'.Holding (.ofSize pw ph s.scale) ∧ s'.told.commits = s.told.commits ∧
      s'.pixels = s.pixels := by
  obtain ⟨told, shmPool, stride', scale, pixels, _⟩ := createPool_told pooled
  obtain ⟨told', buffer', scale', pixels'⟩ := createBuffer_told shmPool buffered
  refine ⟨⟨buffer, buffer', ?_⟩, by rw [told', told], pixels'.trans pixels⟩
  rw [told', told, scale', scale, stride', stride, size, toInt32_toSize]
  simp only [Function.update_self, CommittedBuffer.ofSize]

/-- An allocation makes a buffer whether its calls succeed or not. -/
theorem allocate_told (next : s.allocate pw ph a = some s') :
    s'.Holding (.ofSize pw ph s.scale) ∧ s'.told.commits = s.told.commits ∧
      s'.pixels ≠ .null := by
  obtain ⟨s₁, s₂, s₃, opened, mapping, pooled, buffered⟩ := allocate_cases next
  obtain ⟨mapped, pixels⟩ := mmap_untold mapping
  have same := (opened_untold opened).trans mapped
  obtain ⟨held, commits, still⟩ := created same.stride same.size pooled buffered
  rw [same.scale] at held
  rw [same.told] at commits
  exact ⟨held, commits, still ▸ pixels⟩

/-- `create_shm` makes one where they do. -/
theorem createShm_told {p p' : Surface} (succeeds : a.Succeeds)
    (next : p.createShm a = some p') :
    p'.Holding (.ofSize p.physW p.physH p.scale) ∧ p'.told.commits = p.told.commits ∧
      p'.pixels ≠ .null := by
  obtain ⟨p₁, opened, rest⟩ := createShm_cases next
  obtain ⟨refused, _⟩ | ⟨_, p₂, mapping, rest⟩ := rest
  · obtain ⟨_, rfl⟩ := shmOpen_cases opened
    exact absurd refused (Int32.not_lt.mpr succeeds.1)
  · obtain ⟨mapped, pixels⟩ := mmap_untold mapping
    have same := (opened_untold opened).trans mapped
    obtain ⟨unmapped, _⟩ | ⟨_, p₃, pooled, buffered⟩ := rest
    · obtain ⟨missing, _⟩ | ⟨addr, _, _, _, rfl⟩ := mmap_cases mapping
      · exact absurd succeeds.2 (by rw [missing]; nofun)
      · cases unmapped
    · obtain ⟨_, _, _, _, _, physW, physH⟩ := createPool_told pooled
      rw [physW, physH, same.physW, same.physH] at buffered
      obtain ⟨held, commits, still⟩ := created same.stride same.size pooled buffered
      rw [same.scale] at held
      rw [same.told] at commits
      exact ⟨held, commits, still ▸ pixels⟩

/-- It makes none where they do not. -/
theorem createShm_fails_told {p p' : Surface} (fails : ¬ a.Succeeds)
    (next : p.createShm a = some p') : p'.told = p.told := by
  obtain ⟨p₁, opened, rest⟩ := createShm_cases next
  have same := opened_untold opened
  obtain ⟨_, rfl⟩ | ⟨_, p₂, mapping, rest⟩ := rest
  · exact same.told
  · have same := same.trans (mmap_untold mapping).1
    obtain ⟨_, rfl⟩ | ⟨mapped, _⟩ := rest
    · exact (told_call p₂ (.close p₂.shmFd)).trans same.told
    · obtain rfl := not_mapped_of_fails fails opened mapping
      exact absurd rfl mapped

/-! A step. -/

def Commits (s s' : Surface) (b : CommittedBuffer) : Prop :=
  s'.Holding b ∧
    s'.told.commits = if s'.faulted = true then s.told.commits else s.told.commits ++ [b]

theorem present_commits (held : s.Holding b) (pw ph : Int32) :
    Commits s (s.present pw ph) b := by
  rw [Commits, (present_same s pw ph).faulted]
  cases live : s.faulted with
  | true =>
      rw [present, if_pos live]
      exact ⟨held, rfl⟩
  | false =>
      obtain ⟨commits, holds⟩ := present_told live held pw ph
      exact ⟨holds, commits⟩

theorem draw_present_commits (held : s.Holding b) (drawn : Bool) (pw ph : Int32) :
    Commits s ((s.draw drawn).present pw ph) b := by
  have commits := present_commits (held.draw drawn) pw ph
  rwa [Commits, (draw_told s drawn).1] at commits

theorem render_commits (held : s.Holding b) (configured : s.configured = true)
    (pixels : s.pixels ≠ .null) (drawn : Bool) (pw ph : Int32) :
    Commits s (s.render drawn pw ph) b := by
  rw [render, if_neg (by simp [configured, pixels])]
  exact draw_present_commits held drawn pw ph

/-- What is committed has the property `P`, and so has what is held. -/
structure Faithful (P : CommittedBuffer → Prop) (s : Surface) : Prop where
  commits : ∀ b ∈ s.told.commits, P b
  pending : s.pending = none
  holds : s.faulted = false → s.pixels ≠ .null → ∃ b, s.Holding b ∧ P b

variable {P : CommittedBuffer → Prop}

theorem Faithful.of_commits (h : ∀ b ∈ s.told.commits, P b) (committed : Commits s s' b)
    (meets : P b) (pending : s'.pending = none) : Faithful P s' := by
  obtain ⟨held, commits⟩ := committed
  refine ⟨fun d mem => ?_, pending, fun _ _ => ⟨b, held, meets⟩⟩
  rw [commits] at mem
  split at mem
  · exact h d mem
  · obtain before | rfl := List.mem_append.mp mem |>.imp_right List.mem_singleton.mp
    · exact h d before
    · exact meets

theorem Faithful.render (h : Faithful P s) (live : s.faulted = false) (drawn : Bool)
    (pw ph : Int32) : Faithful P (s.render drawn pw ph) := by
  by_cases bare : (!s.configured || s.pixels = .null) = true
  · rw [Surface.render, if_pos bare]
    exact h
  · obtain ⟨b, held, meets⟩ := h.holds live (by simp_all)
    refine .of_commits h.commits ?_ meets ((render_kept s drawn pw ph).2.2.2 h.pending)
    rw [Surface.render, if_neg bare]
    exact draw_present_commits held drawn pw ph

/-- What is not told and not drawn leaves the buffer alone. -/
theorem Faithful.of_same (h : Faithful P s) (live : s.faulted = false) (told : s'.told = s.told)
    (pending : s'.pending = none) (pixels : s'.pixels = s.pixels) (buffer : s'.buffer = s.buffer)
    (scale : s'.scale = s.scale) : Faithful P s' := by
  refine ⟨by rw [told]; exact h.commits, pending, fun _ mapped => ?_⟩
  rw [pixels] at mapped
  obtain ⟨b, held, meets⟩ := h.holds live mapped
  exact ⟨b, held.of_same told buffer scale, meets⟩

theorem Commits.after (committed : Commits t s' b) (same : t.told.commits = s.told.commits) :
    Commits s s' b := by
  rwa [Commits, same] at committed

section
variable {p p' l l' wp wp' : Surface} {c : Configure}

theorem lsConfigure_pending (next : p.lsConfigure c = some p') (settled : p.pending = none) :
    p'.pending = none := by
  obtain ⟨p₁, shm, next⟩ := Option.bind_eq_some_iff.mp next
  obtain rfl := Option.some.inj next
  have quiet := (releaseOld_quiet (p.lsAccept c)).trans (createShm_quiet shm)
  exact (render_kept _ _ _ _).2.2.2 (quiet.pending.trans settled)

/-- `ls_configure`, where `create_shm` succeeds. -/
theorem lsConfigure_commits (succeeds : c.alloc.Succeeds) (next : p.lsConfigure c = some p') :
    Commits p p' c.buffer := by
  obtain ⟨p₁, shm, next⟩ := Option.bind_eq_some_iff.mp next
  obtain rfl := Option.some.inj next
  have same := releaseOld_untold (p.lsAccept c)
  obtain ⟨held, commits, pixels⟩ := createShm_told succeeds shm
  rw [same.scale, same.physW, same.physH] at held
  have held : Holding { p₁ with configured := true } c.buffer := held
  refine (render_commits held rfl pixels c.drawn p₁.physW p₁.physH).after (commits.trans ?_)
  rw [same.told]
  exact congrArg Told.commits (told_call p (.ackConfigure c.serial))

/-- `ll_configure`, up to the drawing of a launcher that is shown. -/
theorem llConfigure_told (next : l.llConfigure c = some l') :
    ∃ l₁ : Surface, l₁.Holding c.buffer ∧ l₁.told.commits = l.told.commits ∧
      l₁.configured = true ∧ l₁.pixels ≠ .null ∧ l₁.pending = l.pending ∧
        l' = if l.visible = true then l₁.launcherRender c.drawn else l₁ := by
  obtain ⟨l₁, allocated, next⟩ := Option.bind_eq_some_iff.mp next
  have same := releaseOld_untold (l.llAccept c)
  have quiet := (releaseOld_quiet (l.llAccept c)).trans (allocate_quiet allocated)
  obtain ⟨held, commits, pixels⟩ := allocate_told allocated
  rw [same.scale, Configure.llAccept_scale, Configure.toInt32_mul, Configure.toInt32_mul] at held
  refine ⟨l₁, held, commits.trans ?_, quiet.configured, pixels, quiet.pending, ?_⟩
  · rw [same.told]
    exact congrArg Told.commits (told_call l (.ackConfigure c.serial))
  · have visible : l₁.visible = l.visible := quiet.visible
    rw [← visible]
    exact (Option.some.inj next).symm

theorem llConfigure_commits (visible : l.visible = true) (next : l.llConfigure c = some l') :
    Commits l l' c.buffer := by
  obtain ⟨l₁, held, commits, configured, pixels, _, rfl⟩ := llConfigure_told next
  rw [if_pos visible]
  exact (render_commits held configured pixels c.drawn _ _).after commits

/-- `wp_configure`. -/
theorem wpConfigure_commits (next : wp.wpConfigure c = some wp') : Commits wp wp' c.buffer := by
  obtain ⟨wp₁, allocated, next⟩ := Option.bind_eq_some_iff.mp next
  obtain rfl := Option.some.inj next
  have same := releaseOld_untold (wp.wpAccept c)
  obtain ⟨held, commits, _⟩ := allocate_told allocated
  have unit : (wp.wpAccept c).scale = c.unit := rfl
  rw [same.scale, unit, Configure.toInt32_mul, Configure.toInt32_mul] at held
  refine (draw_present_commits held _ _ _).after (commits.trans ?_)
  rw [same.told]
  exact congrArg Told.commits (told_call wp (.ackConfigure c.serial))

/-! The runs. -/

/-- What is drawn without a mapping is the last of it. -/
theorem Unmapped.render (h : s.Unmapped) (configured : s.configured = true)
    (pixels : s.pixels ≠ .null) (pw ph : Int32) :
    (s.render true pw ph).faulted = true ∧ (s.render true pw ph).told = s.told := by
  have ends : (s.draw true).faulted = true := decide_eq_true (h s.pixels s.size)
  rw [Surface.render, if_neg (by simp [configured, pixels]), present, if_pos ends]
  exact ⟨ends, (draw_told s true).1⟩

/-- `ls_configure`, where `create_shm` fails and nobody looks. -/
theorem lsConfigure_fails (memory : Bare p ∨ Backed p) (fails : ¬ c.alloc.Succeeds)
    (drawn : c.drawn = true) (next : p.lsConfigure c = some p') :
    p'.told.commits = p.told.commits ∧ (p'.faulted = false → Bare p') := by
  have whole := next
  obtain ⟨p₁, shm, next⟩ := Option.bind_eq_some_iff.mp next
  obtain ⟨holds, live⟩ := released (memory.imp (lsAccept_same p c).bare (lsAccept_same p c).backed)
  have told : p₁.told.commits = p.told.commits := by
    rw [createShm_fails_told fails shm, (releaseOld_untold _).told]
    exact congrArg Told.commits (told_call p (.ackConfigure c.serial))
  have goes (unmapped : p₁.Unmapped) (pixels : p₁.pixels ≠ .null) :
      p'.told.commits = p.told.commits ∧ (p'.faulted = false → Bare p') := by
    have dead : Unmapped { p₁ with configured := true } := unmapped
    obtain ⟨ended, same⟩ := dead.render rfl pixels p₁.physW p₁.physH
    obtain rfl := Option.some.inj next
    rw [drawn]
    refine ⟨(congrArg Told.commits same).trans told, fun alive => ?_⟩
    exact absurd alive (ne_false_of_eq_true ended)
  by_cases refused : c.alloc.shmFd = -1
  · obtain ⟨ops, pixels, _⟩ := createShm_refused refused shm
    rw [releaseOld_pixels] at pixels
    obtain bare | backed := memory
    · have null : p₁.pixels = .null := pixels.trans bare.pixels
      refine ⟨?_, fun _ => (lsConfigure_refused_bare bare refused whole).1⟩
      obtain rfl := Option.some.inj next
      rw [panelRender, Surface.render, if_pos (by simp [null])]
      exact told
    · obtain ⟨addr, mapped⟩ := backed.pixels
      refine goes (unmapped_of_holds (ops ▸ holds)) ?_
      rw [pixels]
      simp only [lsAccept, call, mapped, ne_eq, reduceCtorEq, not_false_eq_true]
  · obtain ⟨unmapped, pixels, _⟩ := createShm_unmapped holds refused fails shm
    exact goes unmapped (by rw [pixels]; decide)

/-- A panel whose allocations succeed, or fail with something to draw. -/
theorem panelStep_faithful {e : PanelEvent}
    (h : Faithful P p ∧ (p.faulted = false → Bare p ∨ Backed p))
    (meets : ∀ c, e = .configure c → P c.buffer ∧ (c.alloc.Succeeds ∨ c.drawn = true))
    (next : p.panelStep e = some p') :
    Faithful P p' ∧ (p'.faulted = false → Bare p' ∨ Backed p') := by
  obtain ⟨faithful, memory⟩ := h
  obtain ⟨_, rfl⟩ | ⟨live, ran⟩ := whileAlive_cases next
  · exact ⟨faithful, memory⟩
  cases e with
  | configure c =>
      obtain ⟨fits, served⟩ := meets c rfl
      have pending := lsConfigure_pending ran faithful.pending
      by_cases succeeds : c.alloc.Succeeds
      · have committed := lsConfigure_commits succeeds ran
        exact ⟨.of_commits faithful.commits committed fits pending,
          fun _ => Or.inr (lsConfigure_succeeds (memory live) succeeds ran)⟩
      · obtain ⟨commits, bare⟩ :=
          lsConfigure_fails (memory live) succeeds (served.resolve_left succeeds) ran
        refine ⟨⟨commits ▸ faithful.commits, pending, fun alive pixels => ?_⟩,
          fun alive => Or.inl (bare alive)⟩
        exact absurd (bare alive).pixels pixels
  | render drawn =>
      obtain rfl := Option.some.inj ran
      refine ⟨faithful.render live drawn p.physW p.physH, fun _ => ?_⟩
      obtain bare | backed := memory live
      · rw [panelRender, render_bare bare]
        exact Or.inl bare
      · exact Or.inr (render_backed backed drawn p.physW p.physH)

theorem launcherStep_faithful {e : LauncherEvent} (h : Faithful P l)
    (meets : ∀ c, e = .configure c → P c.buffer) (next : l.launcherStep e = some l') :
    Faithful P l' := by
  obtain ⟨_, rfl⟩ | ⟨live, ran⟩ := whileAlive_cases next
  · exact h
  cases e with
  | configure c =>
      obtain ⟨l₁, held, commits, configured, pixels, pending, rfl⟩ := llConfigure_told ran
      have kept : Faithful P l₁ :=
        ⟨commits ▸ h.commits, pending.trans h.pending, fun _ _ => ⟨_, held, meets c rfl⟩⟩
      split
      · have committed := render_commits held configured pixels c.drawn (l₁.width * l₁.scale)
          (l₁.height * l₁.scale)
        refine .of_commits kept.commits committed (meets c rfl) ?_
        exact (render_kept _ _ _ _).2.2.2 kept.pending
      · exact kept
  | «show» drawn =>
      obtain rfl := Option.some.inj ran
      unfold launcherShow
      split
      · exact h
      · have told : ({ l with visible := true } : Surface).commit.told = l.told := by
          rw [commit_told]
          change l.told.hear (.commit l.pending) = l.told
          rw [h.pending]
          rfl
        have kept := h.of_same live told rfl rfl rfl rfl
        exact kept.render live drawn _ _
  | hide =>
      obtain rfl := Option.some.inj ran
      unfold launcherHide
      split
      · exact h
      · have told : (({ l with visible := false } : Surface).attach none).commit.told = l.told := by
          rw [commit_told, attach_told]
          rfl
        refine h.of_same live told ?_ ?_ ?_ ?_ <;> simp only [commit, attach, call]

theorem wallpaperStep_faithful (h : Faithful P wp) (meets : P c.buffer)
    (next : wp.wallpaperStep c = some wp') : Faithful P wp' := by
  obtain ⟨_, rfl⟩ | ⟨_, ran⟩ := whileAlive_cases next
  · exact h
  refine .of_commits h.commits (wpConfigure_commits ran) meets ?_
  obtain ⟨wp₁, allocated, ran⟩ := Option.bind_eq_some_iff.mp ran
  obtain rfl := Option.some.inj ran
  have quiet := (releaseOld_quiet (wp.wpAccept c)).trans
    ((allocate_quiet allocated).trans
      (draw_quiet wp₁ (0 < wp₁.width * wp₁.scale ∧ 0 < wp₁.height * wp₁.scale)))
  exact (present_kept _ _ _).2.2.2 (quiet.pending.trans h.pending)

end

/-- At each place, the buffer fits its scale exactly when no size overflows and the scale divides
what it did not scale. The modules commit the buffers of their configures, and no others. -/
theorem buffers_fit_iff (out : LunaOutput) (wide : 1 ≤ out.width.toInt)
    (scaled : 1 ≤ out.scale.toInt) (c : Configure) :
    (out.PanelDefined ∧ out.panel.buffer.FitsScale ↔
      out.scale.toInt ∣ out.width.toInt ∧
        InRange (4 * out.width.toInt * (36 * out.scale.toInt))) ∧
    (InRange (4 * out.width.toInt) ∧ out.wallpaper.buffer.FitsScale ↔
      (out.scale.toInt ∣ out.width.toInt ∧ out.scale.toInt ∣ out.height.toInt) ∧
        InRange (4 * out.width.toInt) ∧ InRange (4 * out.width.toInt * out.height.toInt)) ∧
    (c.Defined ∧ c.buffer.FitsScale ↔ c.SizesFit) ∧
    (∀ p p', c.alloc.Succeeds → p.lsConfigure c = some p' → Commits p p' c.buffer) ∧
    (∀ l l', l.visible = true → l.llConfigure c = some l' → Commits l l' c.buffer) ∧
    (∀ wp wp', wp.wpConfigure c = some wp' → Commits wp wp' c.buffer) ∧
    (∀ panelHeight scale es p,
      Runs.run panelStep (panelCreate panelHeight scale) es = some p →
      (∀ c, .configure c ∈ es → c.SizesFit ∧ (c.alloc.Succeeds ∨ c.drawn = true)) →
      ∀ b ∈ p.told.commits, b.FitsScale) ∧
    (∀ es l, Runs.run launcherStep launcherCreate es = some l →
      (∀ c, .configure c ∈ es → c.SizesFit) → ∀ b ∈ l.told.commits, b.FitsScale) ∧
    ∀ cs wp, Runs.run wallpaperStep wallpaperCreate cs = some wp →
      (∀ c ∈ cs, c.SizesFit) → ∀ b ∈ wp.told.commits, b.FitsScale := by
  refine ⟨LunaOutput.panel_fits_iff wide scaled, LunaOutput.wallpaper_fits_iff out,
    c.buffer_fits_iff, fun p p' => lsConfigure_commits, fun l l' => llConfigure_commits,
    fun wp wp' => wpConfigure_commits, fun panelHeight scale es p ran meets => ?_,
    fun es l ran meets => ?_, fun cs wp ran meets => ?_⟩
  · have fresh : Faithful CommittedBuffer.FitsScale (panelCreate panelHeight scale) :=
      ⟨nofun, rfl, fun _ pixels => absurd rfl pixels⟩
    have bare : Bare (panelCreate panelHeight scale) := ⟨rfl, rfl, rfl, holds_nil, rfl⟩
    refine (Runs.run_invariant_of (C := fun e => ∀ c, e = .configure c →
      c.buffer.FitsScale ∧ (c.alloc.Succeeds ∨ c.drawn = true))
      (fun _ _ _ h met next => panelStep_faithful h met next)
      ⟨fresh, fun _ => Or.inl bare⟩ ran ?_).1.commits
    rintro _ mem c rfl
    exact (meets c mem).imp_left fun fits => (c.buffer_fits_iff.mpr fits).2
  · have fresh : Faithful CommittedBuffer.FitsScale launcherCreate :=
      ⟨nofun, rfl, fun _ pixels => absurd rfl pixels⟩
    refine (Runs.run_invariant_of (C := fun e => ∀ c, e = .configure c → c.buffer.FitsScale)
      (fun _ _ _ h met next => launcherStep_faithful h met next) fresh ran ?_).commits
    rintro _ mem c rfl
    exact (c.buffer_fits_iff.mpr (meets c mem)).2
  · have fresh : Faithful CommittedBuffer.FitsScale wallpaperCreate :=
      ⟨nofun, rfl, fun _ pixels => absurd rfl pixels⟩
    refine (Runs.run_invariant_of (C := fun c => c.buffer.FitsScale)
      (fun _ _ _ h met next => wallpaperStep_faithful h met next) fresh ran ?_).commits
    exact fun c mem => (c.buffer_fits_iff.mpr (meets c mem)).2

theorem buffers_fit_iff_retina :
    let out : LunaOutput := { wlOutput := 0, width := 2880, height := 1800 }
    let c := Configure.small ⟨5, some 4096, 1, 2⟩
    (out.panel.buffer.FitsScale ∧ out.wallpaper.buffer.FitsScale) ∧
      (∃ p, Runs.run panelStep (panelCreate 32 2) [.configure c] = some p ∧
        ∀ b ∈ p.told.commits, b.FitsScale) ∧
      (∃ l, Runs.run launcherStep launcherCreate [.configure c, .show true] = some l ∧
        ∀ b ∈ l.told.commits, b.FitsScale) ∧
      ∃ wp, Runs.run wallpaperStep wallpaperCreate [c] = some wp ∧
        ∀ b ∈ wp.told.commits, b.FitsScale := by
  intro out c
  obtain ⟨top, background, _, _, _, _, panel, launcher, wallpaper⟩ :=
    buffers_fit_iff out (by decide) (by decide) c
  have fits : c.SizesFit := by decide
  refine ⟨⟨(top.mpr (by decide)).2, (background.mpr (by decide)).2⟩, ?_, ?_, ?_⟩
  · obtain ⟨p, ran⟩ := Option.isSome_iff_exists.mp (show (Runs.run panelStep (panelCreate 32 2)
      [.configure c]).isSome = true by decide +kernel)
    refine ⟨p, ran, panel 32 2 _ p ran fun d mem => ?_⟩
    obtain rfl := PanelEvent.configure.inj (List.mem_singleton.mp mem)
    exact ⟨fits, Or.inr rfl⟩
  · obtain ⟨l, ran⟩ := Option.isSome_iff_exists.mp (show (Runs.run launcherStep launcherCreate
      [.configure c, .show true]).isSome = true by decide +kernel)
    refine ⟨l, ran, launcher _ l ran fun d mem => ?_⟩
    obtain same | other := List.mem_cons.mp mem
    · obtain rfl := LauncherEvent.configure.inj same
      exact fits
    · exact absurd (List.mem_singleton.mp other) nofun
  · obtain ⟨wp, ran⟩ := Option.isSome_iff_exists.mp (show (Runs.run wallpaperStep wallpaperCreate
      [c]).isSome = true by decide +kernel)
    exact ⟨wp, ran, wallpaper _ wp ran fun d mem => List.mem_singleton.mp mem ▸ fits⟩

/-- 1366 columns are not a multiple of 3, and 16384 by 16384 pixels of scale 2 take 0 bytes. -/
theorem buffers_unfit :
    let out : LunaOutput := { wlOutput := 0, width := 1366, height := 768, scale := 3 }
    let c := { Configure.small ⟨5, some 4096, 1, 2⟩ with w := 16384, h := 16384, scale := 2 }
    (¬ out.panel.buffer.FitsScale ∧ ¬ out.wallpaper.buffer.FitsScale) ∧
      ¬ c.buffer.FitsScale := by
  decide

end Surface
end LunaOS.Shell
