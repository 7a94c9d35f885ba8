import LunaOS.Drm.Geometry
import LunaOS.Lib.Windows

/-!
The mmap windows of the live buffers. MAP_DUMB hands out the handle shifted by
22 bits, so windows are 4 MiB apart whatever the size of the buffers; a client
chooses the size. The windows of a run stay apart exactly when every buffer it
creates fits, by its own size and by those already live, between its
neighbours.
-/
namespace LunaOS.Drm

def Buffer.bytes (b : Buffer) : Nat :=
  b.size.toNat

namespace IODRMShim
variable {s : IODRMShim}

/-- The distance of the offsets of neighbouring handles. -/
def mapStride : Nat := 2 ^ 22

/-- The file offsets of the live buffer in slot `i`: from the offset MAP_DUMB
returns, over the size CREATE_DUMB returned and the slot records. -/
def mapWindow (s : IODRMShim) (i : Fin maxDumbBOs) : Set Nat :=
  { x | ∃ b out, s.contents i = some b ∧
    (s.ioctlMapDumb { handle := handleOf i }).errno = .success ∧
    (s.ioctlMapDumb { handle := handleOf i }).data = .mapDumb out ∧
    out.offset.toNat ≤ x ∧ x < out.offset.toNat + b.bytes }

def WindowsApart (s : IODRMShim) : Prop :=
  ∀ i j, i ≠ j → Disjoint (s.mapWindow i) (s.mapWindow j)

def requestSize (req : DrmModeCreateDumb) : Nat :=
  ((rowBits req + 7) % 2 ^ 32 / 8 + 63) / 64 * 64 * req.height.toNat

/-- A CREATE_DUMB that gets memory keeps its window, at the least free handle,
clear of the windows of the buffers that are live. -/
def WindowFits (s : IODRMShim) (c : Call) : Prop :=
  match c.data with
  | .createDumb req => c.mem ≠ none → ∀ i, Slots.LowestFree s.contents i →
      Windows.Fits mapStride Buffer.bytes s.contents i (requestSize req)
  | _ => True

theorem toNat_mapOffset (i : Fin maxDumbBOs) :
    ((handleOf i).toUInt64 <<< 22).toNat = (i.val + 1) * mapStride := by
  have hi : i.val < 256 := i.isLt
  simp only [UInt64.toNat_shiftLeft, UInt32.toNat_toUInt64, toNat_handleOf, mapStride,
    Nat.shiftLeft_eq, UInt64.toNat_ofNat, Nat.reduceMod, Nat.reducePow]
  omega

theorem mapWindow_eq (h : s.TableExact) (i : Fin maxDumbBOs) :
    s.mapWindow i = Windows.window mapStride Buffer.bytes s.contents i := by
  cases hi : s.contents i with
  | none =>
      rw [Windows.window_none hi]
      ext x
      simp [mapWindow, hi]
  | some b =>
      have used : (s.fBOs i).inUse = true := by
        have idle := h.contents_eq_none_iff i
        simpa [hi] using idle
      rw [Windows.window_some hi]
      ext x
      simp only [mapWindow, Set.mem_ofPred_eq, ioctlMapDumb, findBO_handleOf used, hi,
        Windows.place, Set.mem_Ico]
      constructor
      · rintro ⟨b', out, same, _, data, lower, upper⟩
        obtain rfl := Option.some.inj same
        obtain rfl := Data.mapDumb.inj data
        rw [toNat_mapOffset] at lower upper
        exact ⟨lower, upper⟩
      · rintro ⟨lower, upper⟩
        refine ⟨b, _, rfl, trivial, rfl, ?_, ?_⟩
        · rwa [toNat_mapOffset]
        · rwa [toNat_mapOffset]

theorem windowsApart_iff (h : s.TableExact) :
    s.WindowsApart ↔
      Windows.Apart mapStride Buffer.bytes s.contents := by
  simp only [WindowsApart, Windows.Apart, mapWindow_eq h]

theorem createdBO_buffer (s : IODRMShim) (i : Fin maxDumbBOs) (req : DrmModeCreateDumb)
    (m : Mapping) :
    ∃ b, (s.createdBO i req m).buffer = some b ∧ b.bytes = requestSize req := by
  refine ⟨_, rfl, ?_⟩
  rw [Buffer.bytes, createdBO_size, createdBO_pitch, requestSize]

theorem createDumb_windowsApart_iff (h : s.TableExact) (apart : s.WindowsApart)
    (req : DrmModeCreateDumb) (mem : Option Mapping) (surface : Option DisplaySurface) :
    (s.ioctlCreateDumb req mem).1.WindowsApart ↔
      s.WindowFits ⟨.createDumb req, mem, surface⟩ := by
  rw [windowsApart_iff h] at apart
  rw [windowsApart_iff (h.ioctlCreateDumb req mem)]
  obtain ⟨refused, _⟩ := createDumb_spec h req mem surface
  by_cases fails : Slots.Full s.contents ∨ mem = none
  · rw [(refused fails).2.2]
    refine iff_of_true apart ?_
    intro given i free
    rcases fails with full | no_memory
    · exact absurd free.1 (full i)
    · exact absurd no_memory given
  · obtain ⟨room, given⟩ := not_or.mp fails
    obtain ⟨m, rfl⟩ := Option.ne_none_iff_exists'.mp given
    rcases h.allocHandle_cases with ⟨full, _⟩ | ⟨i, free, alloc⟩
    · exact absurd full room
    · obtain ⟨b, buffer, size⟩ := createdBO_buffer s i req m
      rw [ioctlCreateDumb_created alloc, contents_setBO, buffer,
        apart.update_iff (by decide) free.1 b, size]
      constructor
      · intro fits _ j free'
        obtain rfl := free.unique free'
        exact fits
      · intro fits
        exact fits given i free

/-- One call keeps the windows apart exactly when its own window fits. -/
theorem step_windowsApart_iff (h : s.TableExact) (apart : s.WindowsApart) (c : Call) :
    (s.drmIoctl c).1.WindowsApart ↔ s.WindowFits c := by
  have closes (handle : UInt32) : (s.closeBO handle).WindowsApart := by
    rw [windowsApart_iff (h.closeBO handle), contents_closeBO h]
    refine ((windowsApart_iff h).mp apart).drop fun i => ?_
    by_cases e : handle = handleOf i <;> simp [BufferMap.remove, e]
  obtain ⟨data, mem, surface⟩ := c
  cases data with
  | createDumb req =>
      rw [drmIoctl_createDumb h.attached]
      exact createDumb_windowsApart_iff h apart req mem surface
  | destroyDumb req =>
      refine iff_of_true ?_ trivial
      simpa [IODRMShim.drmIoctl, h.attached, ioctlDestroyDumb, ioctlGemClose] using
        closes req.handle
  | gemClose req =>
      refine iff_of_true ?_ trivial
      simpa [IODRMShim.drmIoctl, h.attached, ioctlGemClose] using closes req.handle
  | setCrtc req =>
      refine iff_of_true ?_ trivial
      obtain ⟨fb, table⟩ := ioctlSetcrtc_table s req surface
      rw [drmIoctl_setCrtc h.attached, table, windowsApart_iff (h.setCurrent fb)]
      exact (windowsApart_iff h).mp apart
  | version _ | getResources _ | getConnector _ | getEncoder _ | getCrtc _ | addFb _
  | mapDumb _ | other _ =>
      refine iff_of_true ?_ trivial
      simpa [IODRMShim.drmIoctl, h.attached] using apart

/-- Along every run from `start`, the windows of the live buffers are pairwise
disjoint in every state if and only if the window of every buffer that the run
creates fits between those already there. -/
theorem windows_apart_iff_fit (p : Provider) (calls : List Call) :
    (∀ s, Runs.Visits step (start p) calls s → s.WindowsApart) ↔
      (∀ s c, Runs.Takes step (start p) calls s c → s.WindowFits c) := by
  refine Runs.visits_iff_takes TableExact WindowsApart WindowFits ?_ ?_
    (tableExact_start p) ?_ calls
  · intro s c s' h _ _ taken
    exact tableExact_step s c s' h taken
  · intro s c s' h apart taken
    obtain rfl := Option.some.inj taken
    exact step_windowsApart_iff h apart c
  · rw [windowsApart_iff (tableExact_start p)]
    intro i j _
    rw [Windows.window_none rfl]
    exact Set.empty_disjoint _

/-- The first buffer of a kext goes to the first slot, with the requested size. -/
theorem first_create (p : Provider) (req : DrmModeCreateDumb) (m : Mapping) :
    ∃ b : Buffer, b.bytes = requestSize req ∧
      ((start p).drmIoctl ⟨.createDumb req, some m, none⟩).1.contents =
        Function.update (fun _ => none) 0 (some b) := by
  obtain ⟨b, buffer, size⟩ := createdBO_buffer (start p) 0 req m
  refine ⟨b, size, ?_⟩
  rw [drmIoctl_createDumb rfl, ioctlCreateDumb_created (allocHandle_first rfl),
    contents_setBO, buffer]
  rfl

theorem lowestFree_second (b : Buffer) :
    Slots.LowestFree (Function.update (fun _ => none) 0 (some b) : BufferMap) 1 := by
  refine ⟨by simp, ?_⟩
  intro j free
  by_contra below
  have lt : j.val < 1 := Fin.lt_def.mp (not_le.mp below)
  obtain rfl : j = 0 := Fin.ext (Nat.lt_one_iff.mp lt)
  simp at free

/-- Two 1920x1080 buffers of 8294400 bytes get offsets 4194304 apart. -/
theorem screens_overlap :
    ∃ s, Runs.Visits step (start ⟨false, none⟩)
      [⟨.createDumb { width := 1920, height := 1080, bpp := 32 }, some ⟨0, 0⟩, none⟩,
        ⟨.createDumb { width := 1920, height := 1080, bpp := 32 }, some ⟨0, 0⟩, none⟩] s ∧
      ¬ s.WindowsApart := by
  refine ⟨_, Runs.visits_of_run (run_step _ _), ?_⟩
  simp only [runCalls, List.foldl_cons, List.foldl_nil]
  have exact1 := (tableExact_start ⟨false, none⟩).drmIoctl
    ⟨.createDumb { width := 1920, height := 1080, bpp := 32 }, some ⟨0, 0⟩, none⟩
  obtain ⟨b, size, one⟩ := first_create ⟨false, none⟩
    { width := 1920, height := 1080, bpp := 32 } ⟨0, 0⟩
  have big : b.bytes = 8294400 := by rw [size]; decide
  generalize ((start ⟨false, none⟩).drmIoctl _).1 = s at exact1 one
  have apart : s.WindowsApart := by
    rw [windowsApart_iff exact1, one]
    have empty : Windows.Apart mapStride Buffer.bytes
        (fun _ : Fin maxDumbBOs => none) := by
      intro i j _
      rw [Windows.window_none rfl]
      exact Set.empty_disjoint _
    rw [empty.update_iff (by decide) rfl]
    intro j b' hj
    cases hj
  rw [step_windowsApart_iff exact1 apart]
  intro fits
  have free := one ▸ lowestFree_second b
  obtain ⟨below, _⟩ := fits (by simp) 1 free 0 b (by simp [one])
  rcases below (by decide) with small | zero
  · have bound : b.bytes ≤ 4194304 := small
    omega
  · exact absurd zero (by decide)

end IODRMShim
end LunaOS.Drm
