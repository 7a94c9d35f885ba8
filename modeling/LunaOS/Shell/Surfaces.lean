import LunaOS.Lib.Custody
import LunaOS.Lib.Runs

/-!
The layer surfaces of the shell's modules: the panel of `luna-panel.c`, the launcher
and the wallpaper of `luna-launcher-wallpaper.c`. The three records share their
fields; `visible` is the launcher's alone, and of `phys_w` and `phys_h` only the panel
keeps a copy. `calls` lists what a module asked of the kernel and of the compositor,
in order, with what it received. A `shm_open` or `mmap` may fail whenever the
environment likes; one that succeeds returns what the module does not hold already.
A product of two `int` wraps, as on the target.

Left out: what is drawn (only whether it is a pixel at all), `shm_unlink` and
`ftruncate`, whose results nobody reads, and the record of the shell.
-/
namespace LunaOS.Shell
open Custody

/-- The field `pixels`: what `calloc` leaves, `MAP_FAILED`, or an address. -/
inductive Pixels where
  | null
  | failed
  | mapped (addr : UInt64)
  deriving DecidableEq

/-- What a module acquires and has to release. A `wl_shm_pool` or a `wl_buffer` is a
proxy pointer, which may be null where it is destroyed. -/
inductive Resource where
  | fd (fd : Int32)
  | region (pixels : Pixels) (size : UInt64)
  | pool (pool : Option Nat)
  | buffer (buffer : Option Nat)
  deriving DecidableEq

inductive Call where
  | shmOpen (result : Int32)
  | mmap (fd : Int32) (size : UInt64) (result : Pixels)
  | createPool (pool : Nat) (fd size : Int32)
  | createBuffer (buffer : Nat) (pool : Option Nat) (width height stride : Int32)
  | munmap (pixels : Pixels) (size : UInt64)
  | destroyBuffer (buffer : Option Nat)
  | destroyPool (pool : Option Nat)
  | close (fd : Int32)
  | write (pixels : Pixels) (size : UInt64)
  | ackConfigure (serial : UInt32)
  | attach (buffer : Option Nat)
  | damageBuffer (width height : Int32)
  | setBufferScale (scale : Int32)
  | commit (attached : Option (Option Nat))
  deriving DecidableEq

def Call.op : Call → Option (Op Resource)
  | .shmOpen result => if 0 ≤ result then some (.acquire (.fd result)) else none
  | .mmap _ size (.mapped addr) => some (.acquire (.region (.mapped addr) size))
  | .createPool pool _ _ => some (.acquire (.pool (some pool)))
  | .createBuffer buffer _ _ _ _ => some (.acquire (.buffer (some buffer)))
  | .munmap pixels size => some (.release (.region pixels size))
  | .destroyBuffer buffer => some (.release (.buffer buffer))
  | .destroyPool pool => some (.release (.pool pool))
  | .close fd => some (.release (.fd fd))
  | .write pixels size => some (.use (.region pixels size))
  | _ => none

/-- The record of a module. `pending` is the buffer attached since the last commit;
after `faulted` the process is gone. -/
structure Surface where
  shmPool : Option Nat := none
  buffer : Option Nat := none
  pixels : Pixels := .null
  width : Int32 := 0
  height : Int32 := 0
  physW : Int32 := 0
  physH : Int32 := 0
  scale : Int32 := 0
  stride : Int32 := 0
  size : UInt64 := 0
  shmFd : Int32 := 0
  configured : Bool := false
  visible : Bool := false
  pending : Option (Option Nat) := none
  calls : List Call := []
  faulted : Bool := false

/-- What the environment returns to the calls of one allocation. -/
structure Allocation where
  shmFd : Int32
  addr : Option UInt64
  pool : Nat
  buffer : Nat

def Allocation.Succeeds (a : Allocation) : Prop :=
  0 ≤ a.shmFd ∧ a.addr.isSome

instance (a : Allocation) : Decidable a.Succeeds :=
  inferInstanceAs (Decidable (_ ∧ _))

/-- A configure event, with the scale that the module reads of its output or of the
configuration; `drawn` says whether the drawing that follows has a pixel. -/
structure Configure where
  serial : UInt32
  w : UInt32
  h : UInt32
  scale : Int32
  alloc : Allocation
  drawn : Bool

def Configure.small (alloc : Allocation) : Configure :=
  { serial := 1, w := 8, h := 8, scale := 1, alloc := alloc, drawn := true }

namespace Surface

def ops (s : Surface) : List (Op Resource) :=
  s.calls.filterMap Call.op

def call (s : Surface) (c : Call) : Surface :=
  { s with calls := s.calls ++ [c] }

/-- `(size_t)` of an `int`. -/
def toSize (n : Int32) : UInt64 :=
  n.toInt64.toUInt64

def shmOpen (s : Surface) (result : Int32) : Option Surface :=
  if result = -1 ∨ (0 ≤ result ∧ ¬ Owned s.ops (.fd result)) then
    some { s.call (.shmOpen result) with shmFd := result }
  else none

/-- `mmap`, which fails for a bad descriptor and for a length of 0. -/
def mmap (s : Surface) : Option UInt64 → Option Surface
  | none => some { s.call (.mmap s.shmFd s.size .failed) with pixels := .failed }
  | some addr =>
      if 0 ≤ s.shmFd ∧ s.size ≠ 0 ∧ ¬ Owned s.ops (.region (.mapped addr) s.size) then
        some { s.call (.mmap s.shmFd s.size (.mapped addr)) with pixels := .mapped addr }
      else none

/-- `wl_shm_create_pool`, with the size as an `int32_t`. -/
def createPool (s : Surface) (pool : Nat) : Option Surface :=
  if ¬ Owned s.ops (.pool (some pool)) then
    some { s.call (.createPool pool s.shmFd s.size.toInt64.toInt32) with shmPool := some pool }
  else none

def createBuffer (s : Surface) (buffer : Nat) (pw ph : Int32) : Option Surface :=
  if ¬ Owned s.ops (.buffer (some buffer)) then
    some { s.call (.createBuffer buffer s.shmPool pw ph s.stride) with buffer := some buffer }
  else none

def attach (s : Surface) (buffer : Option Nat) : Surface :=
  { s.call (.attach buffer) with pending := some buffer }

def commit (s : Surface) : Surface :=
  { s.call (.commit s.pending) with pending := none }

/-- What a render function writes; the first pixel outside of a mapping is its last. -/
def draw (s : Surface) (drawn : Bool) : Surface :=
  if drawn then
    { s.call (.write s.pixels s.size) with
      faulted := ¬ Owned s.ops (.region s.pixels s.size) }
  else s

/-- Where every drawing ends. -/
def present (s : Surface) (pw ph : Int32) : Surface :=
  if s.faulted then s else
    (((s.attach s.buffer).call (.damageBuffer pw ph)).call (.setBufferScale s.scale)).commit

/-- The body of `luna_panel_render` and of `launcher_render`. -/
def render (s : Surface) (drawn : Bool) (pw ph : Int32) : Surface :=
  if !s.configured || s.pixels = .null then s else (s.draw drawn).present pw ph

/-- What each `configure` does with the buffer of the one before. -/
def releaseAll (s : Surface) : Surface :=
  (((s.call (.munmap s.pixels s.size)).call (.destroyBuffer s.buffer)).call
    (.destroyPool s.shmPool)).call (.close s.shmFd)

def releaseOld (s : Surface) : Surface :=
  if s.pixels = .null then s else s.releaseAll

def setStride (s : Surface) (pw ph : Int32) : Surface :=
  { s with stride := pw * 4, size := toSize (pw * 4 * ph) }

/-- The allocation of the launcher and of the wallpaper, which reads no result. -/
def allocate (s : Surface) (pw ph : Int32) (a : Allocation) : Option Surface := do
  let s ← (s.setStride pw ph).shmOpen a.shmFd
  let s ← s.mmap a.addr
  let s ← s.createPool a.pool
  s.createBuffer a.buffer pw ph

/-- The common body of the three `destroy` functions. -/
def destroy (s : Surface) : Surface :=
  if s.faulted then s else
    let s := if s.pixels = .null then s else s.call (.munmap s.pixels s.size)
    let s := if s.buffer = none then s else s.call (.destroyBuffer s.buffer)
    let s := if s.shmPool = none then s else s.call (.destroyPool s.shmPool)
    if s.shmFd < 0 then s else s.call (.close s.shmFd)

/-! The panel. -/

def createShm (p : Surface) (a : Allocation) : Option Surface := do
  let p ← (p.setStride p.physW p.physH).shmOpen a.shmFd
  if p.shmFd < 0 then return p
  let p ← p.mmap a.addr
  if p.pixels = .failed then return p.call (.close p.shmFd)
  let p ← p.createPool a.pool
  p.createBuffer a.buffer p.physW p.physH

def panelRender (p : Surface) (drawn : Bool) : Surface :=
  p.render drawn p.physW p.physH

/-- `ls_configure`, before it turns to the buffer. -/
def lsAccept (p : Surface) (c : Configure) : Surface :=
  let scale := if 0 < c.scale then c.scale else 1
  { p.call (.ackConfigure c.serial) with
    width := c.w.toInt32
    height := c.h.toInt32
    scale := scale
    physW := c.w.toInt32 * scale
    physH := c.h.toInt32 * scale }

def lsConfigure (p : Surface) (c : Configure) : Option Surface := do
  let p ← (p.lsAccept c).releaseOld.createShm c.alloc
  return { p with configured := true }.panelRender c.drawn

/-- `luna_panel_create`, up to its commit. -/
def panelCreate (panelHeight scale : Int32) : Surface :=
  { height := panelHeight, scale := if 0 < scale then scale else 1 : Surface }.commit

def panelDestroy (p : Surface) : Surface :=
  p.destroy

/-! The launcher. -/

def launcherRender (l : Surface) (drawn : Bool) : Surface :=
  l.render drawn (l.width * l.scale) (l.height * l.scale)

def llAccept (l : Surface) (c : Configure) : Surface :=
  { l.call (.ackConfigure c.serial) with
    width := c.w.toInt32
    height := c.h.toInt32
    configured := true
    scale := if c.scale < 1 then 1 else c.scale }

def llConfigure (l : Surface) (c : Configure) : Option Surface := do
  let l := l.llAccept c
  let pw := (c.w * l.scale.toUInt32).toInt32
  let ph := (c.h * l.scale.toUInt32).toInt32
  let l ← l.releaseOld.allocate pw ph c.alloc
  return if l.visible then l.launcherRender c.drawn else l

def launcherShow (l : Surface) (drawn : Bool) : Surface :=
  if l.visible then l else { l with visible := true }.commit.launcherRender drawn

def launcherHide (l : Surface) : Surface :=
  if !l.visible then l else ({ l with visible := false }.attach none).commit

/-- `luna_launcher_create`, which commits nothing. -/
def launcherCreate : Surface :=
  { shmFd := -1 }

def launcherDestroy (l : Surface) : Surface :=
  l.destroy

/-! The wallpaper. -/

def wpRenderGradient (wp : Surface) : Surface :=
  wp.draw (0 < wp.width * wp.scale ∧ 0 < wp.height * wp.scale)

def wpAccept (wp : Surface) (c : Configure) : Surface :=
  { wp.call (.ackConfigure c.serial) with
    width := c.w.toInt32
    height := c.h.toInt32
    scale := if 0 < c.scale then c.scale else 1 }

def wpConfigure (wp : Surface) (c : Configure) : Option Surface := do
  let wp := wp.wpAccept c
  let pw := (c.w * wp.scale.toUInt32).toInt32
  let ph := (c.h * wp.scale.toUInt32).toInt32
  let wp ← wp.releaseOld.allocate pw ph c.alloc
  return { wp.wpRenderGradient.present pw ph with configured := true }

/-- `luna_wallpaper_create`, up to its commit. -/
def wallpaperCreate : Surface :=
  { shmFd := -1 : Surface }.commit

def wallpaperDestroy (wp : Surface) : Surface :=
  wp.destroy

end Surface

inductive PanelEvent where
  | configure (c : Configure)
  | render (drawn : Bool)

inductive LauncherEvent where
  | configure (c : Configure)
  | «show» (drawn : Bool)
  | hide

namespace Surface

/-- After a fault there is no more to do. -/
def whileAlive (s : Surface) (next : Option Surface) : Option Surface :=
  if s.faulted then some s else next

def panelStep (p : Surface) (e : PanelEvent) : Option Surface :=
  p.whileAlive <| match e with
    | .configure c => p.lsConfigure c
    | .render drawn => some (p.panelRender drawn)

def launcherStep (l : Surface) (e : LauncherEvent) : Option Surface :=
  l.whileAlive <| match e with
    | .configure c => l.llConfigure c
    | .show drawn => some (l.launcherShow drawn)
    | .hide => some l.launcherHide

def wallpaperStep (wp : Surface) (c : Configure) : Option Surface :=
  wp.whileAlive (wp.wpConfigure c)

variable {s s' t : Surface}

theorem ops_call (s : Surface) (c : Call) : (s.call c).ops = s.ops ++ c.op.toList := by
  rw [ops, call, List.filterMap_append]
  cases here : c.op <;> simp [here, ops]

theorem whileAlive_cases {next : Option Surface} (ran : s.whileAlive next = some s') :
    (s.faulted = true ∧ s' = s) ∨ (s.faulted = false ∧ next = some s') := by
  cases live : s.faulted with
  | true =>
      rw [whileAlive, if_pos live] at ran
      exact Or.inl ⟨rfl, (Option.some.inj ran).symm⟩
  | false =>
      rw [whileAlive, if_neg (ne_true_of_eq_false live)] at ran
      exact Or.inr ⟨rfl, ran⟩

theorem shmOpen_cases {result : Int32} (next : s.shmOpen result = some s') :
    (result = -1 ∨ 0 ≤ result ∧ ¬ Owned s.ops (.fd result)) ∧
      s' = { s.call (.shmOpen result) with shmFd := result } := by
  obtain ⟨enabled, same⟩ := Option.ite_none_right_eq_some.mp next
  exact ⟨enabled, (Option.some.inj same).symm⟩

theorem mmap_cases {addr : Option UInt64} (next : s.mmap addr = some s') :
    (addr = none ∧
        s' = { s.call (.mmap s.shmFd s.size .failed) with pixels := .failed }) ∨
      ∃ a, addr = some a ∧ 0 ≤ s.shmFd ∧ ¬ Owned s.ops (.region (.mapped a) s.size) ∧
        s' = { s.call (.mmap s.shmFd s.size (.mapped a)) with pixels := .mapped a } := by
  cases addr with
  | none => exact Or.inl ⟨rfl, (Option.some.inj next).symm⟩
  | some a =>
      obtain ⟨⟨descriptor, _, free⟩, same⟩ := Option.ite_none_right_eq_some.mp next
      exact Or.inr ⟨a, rfl, descriptor, free, (Option.some.inj same).symm⟩

theorem createPool_cases {pool : Nat} (next : s.createPool pool = some s') :
    ¬ Owned s.ops (.pool (some pool)) ∧
      s' = { s.call (.createPool pool s.shmFd s.size.toInt64.toInt32) with
        shmPool := some pool } := by
  obtain ⟨free, same⟩ := Option.ite_none_right_eq_some.mp next
  exact ⟨free, (Option.some.inj same).symm⟩

theorem createBuffer_cases {buffer : Nat} {pw ph : Int32}
    (next : s.createBuffer buffer pw ph = some s') :
    ¬ Owned s.ops (.buffer (some buffer)) ∧
      s' = { s.call (.createBuffer buffer s.shmPool pw ph s.stride) with
        buffer := some buffer } := by
  obtain ⟨free, same⟩ := Option.ite_none_right_eq_some.mp next
  exact ⟨free, (Option.some.inj same).symm⟩

/-- The stages of an allocation that reads no result. -/
theorem allocate_cases {pw ph : Int32} {a : Allocation} (next : s.allocate pw ph a = some s') :
    ∃ s₁ s₂ s₃, (s.setStride pw ph).shmOpen a.shmFd = some s₁ ∧
      s₁.mmap a.addr = some s₂ ∧ s₂.createPool a.pool = some s₃ ∧
      s₃.createBuffer a.buffer pw ph = some s' := by
  obtain ⟨s₁, opened, next⟩ := Option.bind_eq_some_iff.mp next
  obtain ⟨s₂, mapping, next⟩ := Option.bind_eq_some_iff.mp next
  obtain ⟨s₃, pooled, next⟩ := Option.bind_eq_some_iff.mp next
  exact ⟨s₁, s₂, s₃, opened, mapping, pooled, next⟩

/-- `create_shm` goes on only as far as its calls succeed. -/
theorem createShm_cases {p p' : Surface} {a : Allocation} (next : p.createShm a = some p') :
    ∃ p₁, (p.setStride p.physW p.physH).shmOpen a.shmFd = some p₁ ∧
      ((p₁.shmFd < 0 ∧ p' = p₁) ∨
        ¬ p₁.shmFd < 0 ∧ ∃ p₂, p₁.mmap a.addr = some p₂ ∧
          ((p₂.pixels = .failed ∧ p' = p₂.call (.close p₂.shmFd)) ∨
            p₂.pixels ≠ .failed ∧ ∃ p₃, p₂.createPool a.pool = some p₃ ∧
              p₃.createBuffer a.buffer p₃.physW p₃.physH = some p')) := by
  obtain ⟨p₁, opened, next⟩ := Option.bind_eq_some_iff.mp next
  refine ⟨p₁, opened, ?_⟩
  by_cases refused : p₁.shmFd < 0
  · rw [if_pos refused] at next
    exact Or.inl ⟨refused, (Option.some.inj next).symm⟩
  · rw [if_neg refused] at next
    refine Or.inr ⟨refused, ?_⟩
    obtain ⟨p₂, mapping, next⟩ := Option.bind_eq_some_iff.mp next
    refine ⟨p₂, mapping, ?_⟩
    by_cases unmapped : p₂.pixels = .failed
    · rw [if_pos unmapped] at next
      exact Or.inl ⟨unmapped, (Option.some.inj next).symm⟩
    · rw [if_neg unmapped] at next
      obtain ⟨p₃, pooled, next⟩ := Option.bind_eq_some_iff.mp next
      exact Or.inr ⟨unmapped, p₃, pooled, next⟩

end Surface

def Call.quiet : Call → Bool
  | .ackConfigure _ => false
  | .commit _ => false
  | _ => true

/-- `s'` comes after `s` and quiet calls. -/
structure Surface.Quiet (s s' : Surface) : Prop where
  calls : ∃ out, s'.calls = s.calls ++ out ∧ ∀ c ∈ out, c.quiet = true
  pending : s'.pending = s.pending
  configured : s'.configured = s.configured
  visible : s'.visible = s.visible

namespace Surface

variable {s s' t : Surface}

theorem Quiet.trans (first : Quiet s t) (second : Quiet t s') : Quiet s s' := by
  obtain ⟨out, calls, quiet⟩ := first.calls
  obtain ⟨out', calls', quiet'⟩ := second.calls
  refine ⟨⟨out ++ out', by rw [calls', calls, List.append_assoc], fun c mem => ?_⟩,
    second.pending.trans first.pending, second.configured.trans first.configured,
    second.visible.trans first.visible⟩
  exact (List.mem_append.mp mem).elim (quiet c) (quiet' c)

theorem quiet_of_same (calls : s'.calls = s.calls) (pending : s'.pending = s.pending)
    (configured : s'.configured = s.configured) (visible : s'.visible = s.visible) :
    Quiet s s' :=
  ⟨⟨[], by rw [calls, List.append_nil], nofun⟩, pending, configured, visible⟩

theorem Quiet.refl (s : Surface) : Quiet s s :=
  quiet_of_same rfl rfl rfl rfl

theorem quiet_call (s : Surface) {c : Call} (quiet : c.quiet = true) : Quiet s (s.call c) :=
  ⟨⟨[c], rfl, fun _ mem => List.mem_singleton.mp mem ▸ quiet⟩, rfl, rfl, rfl⟩

/-- A call that is made only where its argument is there. -/
theorem quiet_unless (s : Surface) (c : Call) (quiet : c.quiet = true) (absent : Prop)
    [Decidable absent] : Quiet s (if absent then s else s.call c) := by
  split
  · exact Quiet.refl s
  · exact quiet_call s quiet

theorem setStride_quiet (s : Surface) (pw ph : Int32) : Quiet s (s.setStride pw ph) :=
  quiet_of_same rfl rfl rfl rfl

theorem shmOpen_quiet {result : Int32} (next : s.shmOpen result = some s') : Quiet s s' := by
  obtain ⟨_, rfl⟩ := shmOpen_cases next
  exact (quiet_call s rfl).trans (quiet_of_same rfl rfl rfl rfl)

theorem mmap_quiet {addr : Option UInt64} (next : s.mmap addr = some s') : Quiet s s' := by
  obtain ⟨_, rfl⟩ | ⟨a, _, _, _, rfl⟩ := mmap_cases next
  · exact (quiet_call s rfl).trans (quiet_of_same rfl rfl rfl rfl)
  · exact (quiet_call s rfl).trans (quiet_of_same rfl rfl rfl rfl)

theorem createPool_quiet {pool : Nat} (next : s.createPool pool = some s') : Quiet s s' := by
  obtain ⟨_, rfl⟩ := createPool_cases next
  exact (quiet_call s rfl).trans (quiet_of_same rfl rfl rfl rfl)

theorem createBuffer_quiet {buffer : Nat} {pw ph : Int32}
    (next : s.createBuffer buffer pw ph = some s') : Quiet s s' := by
  obtain ⟨_, rfl⟩ := createBuffer_cases next
  exact (quiet_call s rfl).trans (quiet_of_same rfl rfl rfl rfl)

theorem allocate_quiet {pw ph : Int32} {a : Allocation} (next : s.allocate pw ph a = some s') :
    Quiet s s' := by
  obtain ⟨s₁, s₂, s₃, opened, mapping, pooled, buffered⟩ := allocate_cases next
  have sized : Quiet s s₁ := (setStride_quiet s pw ph).trans (shmOpen_quiet opened)
  exact sized.trans ((mmap_quiet mapping).trans
    ((createPool_quiet pooled).trans (createBuffer_quiet buffered)))

theorem createShm_quiet {p p' : Surface} {a : Allocation} (next : p.createShm a = some p') :
    Quiet p p' := by
  obtain ⟨p₁, opened, rest⟩ := createShm_cases next
  have sized : Quiet p p₁ := (setStride_quiet p _ _).trans (shmOpen_quiet opened)
  obtain ⟨_, rfl⟩ | ⟨_, p₂, mapping, ⟨_, rfl⟩ | ⟨_, p₃, pooled, buffered⟩⟩ := rest
  · exact sized
  · exact sized.trans ((mmap_quiet mapping).trans (quiet_call p₂ rfl))
  · exact sized.trans ((mmap_quiet mapping).trans
      ((createPool_quiet pooled).trans (createBuffer_quiet buffered)))

theorem releaseAll_quiet (s : Surface) :
    Quiet (s.call (.munmap s.pixels s.size)) s.releaseAll :=
  (quiet_call _ rfl).trans ((quiet_call _ rfl).trans (quiet_call _ rfl))

theorem releaseOld_quiet (s : Surface) : Quiet s s.releaseOld := by
  unfold releaseOld
  split
  · exact Quiet.refl s
  · exact (quiet_call s rfl).trans (releaseAll_quiet s)

/-- After its `munmap` the destroy makes quiet calls only. -/
theorem destroy_quiet (live : s.faulted = false) :
    Quiet (if s.pixels = .null then s else s.call (.munmap s.pixels s.size)) s.destroy := by
  rw [destroy, if_neg (ne_true_of_eq_false live)]
  exact (quiet_unless _ _ rfl _).trans ((quiet_unless _ _ rfl _).trans (quiet_unless _ _ rfl _))

theorem draw_quiet (s : Surface) (drawn : Bool) : Quiet s (s.draw drawn) := by
  unfold draw
  split
  · exact (quiet_call s rfl).trans (quiet_of_same rfl rfl rfl rfl)
  · exact Quiet.refl s

end Surface

end LunaOS.Shell
