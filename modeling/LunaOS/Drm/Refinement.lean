import LunaOS.Drm.Table

/-!
The kext refines the buffer map. Each handler that writes the table has one
equation for every outcome; the invariant and the map step are read off these
equations, and a run of calls from `start` keeps both. `stop` then closes the
ledger: every descriptor the kext ever allocated is released exactly once.
-/
namespace LunaOS.Drm
open Slots

namespace IODRMShim
variable {s : IODRMShim}

@[simp] theorem setBO_fBOs (s : IODRMShim) (i : Fin maxDumbBOs) (bo : DumbBO) :
    (s.setBO i bo).fBOs = Function.update s.fBOs i bo := rfl

/-- The record of a slot whose allocation failed. -/
def refusedBO (s : IODRMShim) (i : Fin maxDumbBOs) (req : DrmModeCreateDumb) : DumbBO :=
  { fillBO (s.fBOs i) (handleOf i) req with mem := none, inUse := false }

/-- The record of a slot whose allocation succeeded. -/
def createdBO (s : IODRMShim) (i : Fin maxDumbBOs) (req : DrmModeCreateDumb)
    (m : Mapping) : DumbBO :=
  { fillBO (s.fBOs i) (handleOf i) req with
    mem := some s.ledger.allocated
    virtAddr := m.virtAddr
    physAddr := m.physAddr }

theorem ioctlCreateDumb_full (h : s.allocHandle = 0) (req : DrmModeCreateDumb)
    (mem : Option Mapping) :
    s.ioctlCreateDumb req mem = (s, { errno := .enomem, data := .createDumb req }) := by
  simp [ioctlCreateDumb, h]

theorem ioctlCreateDumb_refused {i : Fin maxDumbBOs} (h : s.allocHandle = handleOf i)
    (req : DrmModeCreateDumb) :
    s.ioctlCreateDumb req none =
      (s.setBO i (s.refusedBO i req), { errno := .enomem, data := .createDumb req }) := by
  simp [ioctlCreateDumb, h, handleOf_ne_zero, refusedBO]

theorem ioctlCreateDumb_created {i : Fin maxDumbBOs} (h : s.allocHandle = handleOf i)
    (req : DrmModeCreateDumb) (m : Mapping) :
    s.ioctlCreateDumb req (some m) =
      ({ s.setBO i (s.createdBO i req m) with ledger := s.ledger.acquire },
        { errno := .success
          data := .createDumb { req with
            handle := handleOf i
            pitch := (s.createdBO i req m).pitch
            size := (s.createdBO i req m).size } }) := by
  simp [ioctlCreateDumb, h, handleOf_ne_zero, createdBO]

theorem drmIoctl_createDumb (attached : s.gShim = true) (req : DrmModeCreateDumb)
    (mem : Option Mapping) (surface : Option DisplaySurface) :
    s.drmIoctl ⟨.createDumb req, mem, surface⟩ = s.ioctlCreateDumb req mem := by
  simp [drmIoctl, attached]

theorem drmIoctl_setCrtc (attached : s.gShim = true) (req : DrmModeCrtc)
    (mem : Option Mapping) (surface : Option DisplaySurface) :
    s.drmIoctl ⟨.setCrtc req, mem, surface⟩ = s.ioctlSetcrtc req surface := by
  simp [drmIoctl, attached]

theorem drmIoctl_gemClose (attached : s.gShim = true) (req : DrmGemClose)
    (mem : Option Mapping) (surface : Option DisplaySurface) :
    s.drmIoctl ⟨.gemClose req, mem, surface⟩ = s.ioctlGemClose req := by
  simp [drmIoctl, attached]

theorem closeBO_absent {handle : UInt32} (h : s.findBO handle = none) :
    s.closeBO handle = s := by
  simp [closeBO, h]

theorem closeBO_found {handle : UInt32} {i : Fin maxDumbBOs} {d : Nat}
    (h : s.findBO handle = some i) (held : (s.fBOs i).mem = some d) :
    s.closeBO handle =
      { s.setBO i { s.fBOs i with mem := none, inUse := false } with
        ledger := s.ledger.release d } := by
  simp [closeBO, h, held]

theorem ioctlSetcrtc_table (s : IODRMShim) (req : DrmModeCrtc)
    (surface : Option DisplaySurface) :
    ∃ fb, (s.ioctlSetcrtc req surface).1 = { s with fCurrentFbId := fb } := by
  unfold ioctlSetcrtc
  split
  · exact ⟨s.fCurrentFbId, rfl⟩
  · split
    · exact ⟨s.fCurrentFbId, rfl⟩
    · split <;> exact ⟨req.fbId, rfl⟩

/-! The invariant is kept. -/

theorem TableExact.update (h : s.TableExact) (i : Fin maxDumbBOs) (bo : DumbBO)
    (l : Ledger) (used : bo.inUse = true ↔ bo.mem ≠ none)
    (named : bo.inUse = true → bo.handle = handleOf i)
    (balanced : l.Balanced (Function.update (fun j => (s.fBOs j).mem) i bo.mem)) :
    ({ s.setBO i bo with ledger := l } : IODRMShim).TableExact where
  attached := h.attached
  inUse_iff := by
    intro j
    by_cases e : j = i
    · subst e; simpa using used
    · simpa [e] using h.inUse_iff j
  handle_eq := by
    intro j
    by_cases e : j = i
    · subst e; simpa using named
    · simpa [e] using h.handle_eq j
  balanced := by
    have held : (fun j => (Function.update s.fBOs i bo j).mem) =
        Function.update (fun j => (s.fBOs j).mem) i bo.mem := by
      funext j
      by_cases e : j = i
      · subst e; simp
      · simp [e]
    simpa only [setBO_fBOs, held] using balanced

theorem TableExact.free_mem (h : s.TableExact) {i : Fin maxDumbBOs}
    (free : LowestFree s.contents i) : (s.fBOs i).mem = none := by
  have idle := (h.contents_eq_none_iff i).mp free.1
  by_contra held
  rw [(h.inUse_iff i).mpr held] at idle
  cases idle

theorem TableExact.refused (h : s.TableExact) {i : Fin maxDumbBOs}
    (free : LowestFree s.contents i) (req : DrmModeCreateDumb) :
    (s.setBO i (s.refusedBO i req)).TableExact := by
  refine h.update i (s.refusedBO i req) s.ledger ?_ ?_ ?_
  · simp [refusedBO]
  · simp [refusedBO]
  · have same : Function.update (fun j => (s.fBOs j).mem) i (s.refusedBO i req).mem =
        fun j => (s.fBOs j).mem := by
      rw [show (s.refusedBO i req).mem = (s.fBOs i).mem from (h.free_mem free).symm]
      exact Function.update_eq_self i fun j => (s.fBOs j).mem
    simpa only [same] using h.balanced

theorem TableExact.created (h : s.TableExact) {i : Fin maxDumbBOs}
    (free : LowestFree s.contents i) (req : DrmModeCreateDumb) (m : Mapping) :
    ({ s.setBO i (s.createdBO i req m) with ledger := s.ledger.acquire } :
      IODRMShim).TableExact := by
  refine h.update i (s.createdBO i req m) s.ledger.acquire ?_ ?_ ?_
  · simp [createdBO, fillBO]
  · simp [createdBO, fillBO]
  · exact h.balanced.acquire (h.free_mem free)

theorem TableExact.found_mem (h : s.TableExact) {handle : UInt32} {i : Fin maxDumbBOs}
    (found : s.findBO handle = some i) : ∃ d, (s.fBOs i).mem = some d := by
  have used := ((findBO_eq_some_iff s handle i).mp found).2
  exact Option.ne_none_iff_exists'.mp ((h.inUse_iff i).mp used)

theorem TableExact.closeBO (h : s.TableExact) (handle : UInt32) :
    (s.closeBO handle).TableExact := by
  cases found : s.findBO handle with
  | none => simpa only [closeBO_absent found] using h
  | some i =>
      obtain ⟨d, held⟩ := h.found_mem found
      rw [closeBO_found found held]
      refine h.update i _ (s.ledger.release d) ?_ ?_ (h.balanced.release held)
      · simp
      · simp

theorem TableExact.ioctlCreateDumb (h : s.TableExact) (req : DrmModeCreateDumb)
    (mem : Option Mapping) : (s.ioctlCreateDumb req mem).1.TableExact := by
  rcases h.allocHandle_cases with ⟨_, none_free⟩ | ⟨i, free, alloc⟩
  · simpa only [ioctlCreateDumb_full none_free] using h
  · cases mem with
    | none => simpa only [ioctlCreateDumb_refused alloc] using h.refused free req
    | some m => simpa only [ioctlCreateDumb_created alloc] using h.created free req m

/-- The displayed handle is no part of the table. -/
theorem TableExact.setCurrent (h : s.TableExact) (fb : UInt32) :
    ({ s with fCurrentFbId := fb } : IODRMShim).TableExact :=
  ⟨h.attached, h.inUse_iff, h.handle_eq, h.balanced⟩

theorem TableExact.drmIoctl (h : s.TableExact) (c : Call) :
    (s.drmIoctl c).1.TableExact := by
  unfold IODRMShim.drmIoctl
  simp only [h.attached, Bool.not_true, Bool.false_eq_true, if_false]
  cases c.data with
  | createDumb req => exact h.ioctlCreateDumb req c.mem
  | destroyDumb req => exact h.closeBO req.handle
  | gemClose req => exact h.closeBO req.handle
  | setCrtc req =>
      obtain ⟨fb, table⟩ := ioctlSetcrtc_table s req c.surface
      simpa only [table] using h.setCurrent fb
  | version _ | getResources _ | getConnector _ | getEncoder _ | getCrtc _ | addFb _
  | mapDumb _ | other _ => exact h

/-! Every call is a step of the map. -/

theorem contents_setBO (s : IODRMShim) (i : Fin maxDumbBOs) (bo : DumbBO) (l : Ledger) :
    ({ s.setBO i bo with ledger := l } : IODRMShim).contents =
      Function.update s.contents i bo.buffer :=
  Slots.contents_update DumbBO.buffer s.fBOs i bo

theorem contents_closeBO (h : s.TableExact) (handle : UInt32) :
    (s.closeBO handle).contents = s.contents.remove handle := by
  cases found : s.findBO handle with
  | none =>
      have dead : ¬ s.contents.Live handle := by
        rw [h.live_iff, found]
        simp
      rw [closeBO_absent found, BufferMap.remove_of_not_live dead]
  | some i =>
      obtain ⟨d, held⟩ := h.found_mem found
      obtain ⟨rfl, _⟩ := (findBO_eq_some_iff s handle i).mp found
      rw [closeBO_found found held, contents_setBO]
      funext j
      by_cases e : j = i
      · subst e; simp [BufferMap.remove, DumbBO.buffer]
      · have other : handleOf i ≠ handleOf j := fun same => e (handleOf_injective same).symm
        simp [BufferMap.remove, e, other]

theorem createDumb_spec (h : s.TableExact) (req : DrmModeCreateDumb) (mem : Option Mapping)
    (surface : Option DisplaySurface) :
    s.contents.Spec ⟨.createDumb req, mem, surface⟩ (s.ioctlCreateDumb req mem).2
      (s.ioctlCreateDumb req mem).1.contents := by
  rcases h.allocHandle_cases with ⟨full, none_free⟩ | ⟨i, free, alloc⟩
  · rw [ioctlCreateDumb_full none_free]
    exact ⟨fun _ => ⟨rfl, rfl, rfl⟩, fun _ room => absurd full room⟩
  · have room : ¬ Full s.contents := fun full => full i free.1
    cases mem with
    | none =>
        rw [ioctlCreateDumb_refused alloc]
        refine ⟨fun _ => ⟨rfl, rfl, ?_⟩, fun _ _ no_memory => by cases no_memory⟩
        exact Slots.contents_update_of_view DumbBO.buffer s.fBOs i _ free.1.symm
    | some m =>
        rw [ioctlCreateDumb_created alloc]
        refine ⟨fun failed => (failed.elim room (by simp)).elim, ?_⟩
        intro a _ given
        obtain rfl := Option.some.inj given
        refine ⟨i, _, free, contents_setBO s i _ _, rfl, rfl, rfl, rfl, rfl, rfl⟩

/-- A CREATE_DUMB that returns 0 took a free slot and an allocation. -/
theorem createDumb_success (h : s.TableExact) {req : DrmModeCreateDumb}
    {mem : Option Mapping} (ok : (s.ioctlCreateDumb req mem).2.errno = .success) :
    ∃ i m, LowestFree s.contents i ∧ s.allocHandle = handleOf i ∧ mem = some m := by
  rcases h.allocHandle_cases with ⟨_, none_free⟩ | ⟨i, free, alloc⟩
  · rw [ioctlCreateDumb_full none_free] at ok
    cases ok
  · cases mem with
    | none =>
        rw [ioctlCreateDumb_refused alloc] at ok
        cases ok
    | some m => exact ⟨i, m, free, alloc, rfl⟩

/-- A close touches neither the displayed handle nor the count of allocations. -/
theorem closeBO_frame (s : IODRMShim) (handle : UInt32) :
    (s.closeBO handle).fCurrentFbId = s.fCurrentFbId ∧
      (s.closeBO handle).ledger.allocated = s.ledger.allocated := by
  unfold closeBO
  split
  · exact ⟨rfl, rfl⟩
  · dsimp only
    split <;> exact ⟨rfl, rfl⟩

theorem mapDumb_spec (h : s.TableExact) (req : DrmModeMapDumb) :
    (s.ioctlMapDumb req).errno = .success ↔ s.contents.Live req.handle := by
  rw [h.live_iff, ioctlMapDumb]
  cases s.findBO req.handle <;> simp

theorem setcrtc_spec (h : s.TableExact) (req : DrmModeCrtc)
    (surface : Option DisplaySurface) (shown : req.fbId ≠ 0) :
    (s.ioctlSetcrtc req surface).2.errno = .einval ↔ ¬ s.contents.Live req.fbId := by
  rw [h.live_iff, ioctlSetcrtc, if_neg shown]
  cases s.findBO req.fbId with
  | none => simp
  | some i => cases blit : s.blitToDisplay (s.fBOs i) surface <;> simp [blit]

theorem drmIoctl_spec (h : s.TableExact) (c : Call) :
    s.contents.Spec c (s.drmIoctl c).2 (s.drmIoctl c).1.contents := by
  obtain ⟨data, mem, surface⟩ := c
  unfold IODRMShim.drmIoctl
  simp only [h.attached, Bool.not_true, Bool.false_eq_true, if_false]
  cases data with
  | createDumb req => exact createDumb_spec h req mem surface
  | destroyDumb req => exact ⟨rfl, contents_closeBO h req.handle⟩
  | gemClose req => exact ⟨rfl, contents_closeBO h req.handle⟩
  | mapDumb req => exact ⟨mapDumb_spec h req, rfl⟩
  | setCrtc req =>
      obtain ⟨fb, table⟩ := ioctlSetcrtc_table s req surface
      exact ⟨setcrtc_spec h req surface, by simp only [table]; rfl⟩
  | version _ | getResources _ | getConnector _ | getEncoder _ | getCrtc _ | addFb _
  | other _ => rfl

/-! Runs from `start`. -/

def runCalls (s : IODRMShim) (calls : List Call) : IODRMShim :=
  calls.foldl (fun s c => (s.drmIoctl c).1) s

theorem run_step (s : IODRMShim) (calls : List Call) :
    Runs.run step s calls = some (s.runCalls calls) := by
  induction calls generalizing s with
  | nil => rfl
  | cons c calls ih => exact ih (s.drmIoctl c).1

theorem tableExact_step (s : IODRMShim) (c : Call) (s' : IODRMShim) (h : s.TableExact)
    (taken : step s c = some s') : s'.TableExact :=
  Option.some.inj taken ▸ h.drmIoctl c

theorem tableExact_runCalls (p : Provider) (calls : List Call) :
    ((start p).runCalls calls).TableExact :=
  Runs.run_invariant tableExact_step (tableExact_start p) (run_step (start p) calls)

theorem TableExact.stop_closes (h : s.TableExact) :
    s.stop.ledger.released.Nodup ∧
      ∀ d, d ∈ s.stop.ledger.released ↔ d < s.ledger.allocated := by
  have held : (fun i => if (s.fBOs i).inUse then (s.fBOs i).mem else none) =
      fun i => (s.fBOs i).mem := by
    funext i
    have used := h.inUse_iff i
    cases hu : (s.fBOs i).inUse <;> simp_all
  simp only [stop, held]
  exact h.balanced.releaseHeld (List.nodup_finRange _) List.mem_finRange

/-- After any calls from `start`, the table is an exact picture of a finite map
and the next call is a step of that map. The ledger part says that a descriptor
not yet released sits in exactly one slot, so none is overwritten unreleased,
and that none is released twice, `stop` included. -/
theorem dumb_table_refines_map (p : Provider) (calls : List Call) :
    let s := (start p).runCalls calls
    (start p).contents = (fun _ => none) ∧
      (∀ c, s.contents.Spec c (s.drmIoctl c).2 (s.drmIoctl c).1.contents) ∧
      (∀ i, (s.fBOs i).inUse = true ↔
        ∃ d, (s.fBOs i).mem = some d ∧ s.ledger.Live d) ∧
      (∀ i, (s.fBOs i).inUse = true → (s.fBOs i).handle.toNat = i.val + 1) ∧
      (∀ d, s.ledger.Live d → ∃! i, (s.fBOs i).mem = some d) ∧
      s.ledger.released.Nodup ∧
      s.stop.ledger.released.Nodup ∧
      (∀ d, d ∈ s.stop.ledger.released ↔ d < s.ledger.allocated) := by
  intro s
  have h : s.TableExact := tableExact_runCalls p calls
  refine ⟨rfl, drmIoctl_spec h, h.inUse_iff_live, ?_, ?_, h.balanced.once,
    h.stop_closes.1, h.stop_closes.2⟩
  · intro i used
    rw [h.handle_eq i used, toNat_handleOf]
  · intro d live
    obtain ⟨i, hi⟩ := h.balanced.kept d live
    exact ⟨i, hi, fun j hj => h.balanced.unique j i d hj hi⟩

end IODRMShim
end LunaOS.Drm
