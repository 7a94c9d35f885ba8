import LunaOS.Drm.Refinement

/-!
What GETCRTC reports. SETCRTC only ever stores a handle that is live at that
moment, but a close does not look at `fCurrentFbId`. So the report stays true
along a run exactly when no call of the run closes the handle that is being
displayed.
-/
namespace LunaOS.Drm
namespace IODRMShim
variable {s : IODRMShim}

/-- GETCRTC reports 0 or the handle of a buffer that is live now. -/
def ReportsLive (s : IODRMShim) : Prop :=
  ∀ crtc out, (s.ioctlGetcrtc crtc).data = .getCrtc out →
    out.fbId = 0 ∨ s.contents.Live out.fbId

def SparesCurrent (s : IODRMShim) (c : Call) : Prop :=
  match c.data with
  | .destroyDumb req => req.handle = s.fCurrentFbId → req.handle = 0
  | .gemClose req => req.handle = s.fCurrentFbId → req.handle = 0
  | _ => True

theorem reportsLive_iff (s : IODRMShim) :
    s.ReportsLive ↔ s.fCurrentFbId = 0 ∨ s.contents.Live s.fCurrentFbId := by
  constructor
  · intro h
    exact h {} _ rfl
  · intro h crtc out data
    obtain rfl := Data.getCrtc.inj data
    exact h

theorem ioctlCreateDumb_fCurrentFbId (s : IODRMShim) (req : DrmModeCreateDumb)
    (mem : Option Mapping) :
    (s.ioctlCreateDumb req mem).1.fCurrentFbId = s.fCurrentFbId := by
  unfold ioctlCreateDumb
  dsimp only
  split
  · rfl
  · split <;> rfl

theorem createDumb_keeps_live (h : s.TableExact) (req : DrmModeCreateDumb)
    (mem : Option Mapping) {handle : UInt32} (live : s.contents.Live handle) :
    (s.ioctlCreateDumb req mem).1.contents.Live handle := by
  obtain ⟨refused, created⟩ := createDumb_spec h req mem none
  by_cases fails : Slots.Full s.contents ∨ mem = none
  · rw [(refused fails).2.2]
    exact live
  · obtain ⟨room, given⟩ := not_or.mp fails
    obtain ⟨a, ha⟩ := Option.ne_none_iff_exists'.mp given
    obtain ⟨i, b, _, added, _⟩ := created a room ha
    rw [added]
    exact BufferMap.live_update_of_live live i b

theorem closeBO_reportsLive_iff (h : s.TableExact) (now : s.ReportsLive) (handle : UInt32) :
    (s.closeBO handle).ReportsLive ↔ (handle = s.fCurrentFbId → handle = 0) := by
  rw [reportsLive_iff] at now ⊢
  rw [(closeBO_frame s handle).1, contents_closeBO h, BufferMap.live_remove_iff]
  constructor
  · rintro (off | ⟨_, differs⟩) rfl
    · exact off
    · exact absurd rfl differs
  · intro spares
    rcases now with off | live
    · exact Or.inl off
    · by_cases e : handle = s.fCurrentFbId
      · exact Or.inl (e ▸ spares e)
      · exact Or.inr ⟨live, fun same => e same.symm⟩

theorem setcrtc_reportsLive (h : s.TableExact) (now : s.ReportsLive) (req : DrmModeCrtc)
    (surface : Option DisplaySurface) : (s.ioctlSetcrtc req surface).1.ReportsLive := by
  unfold ioctlSetcrtc
  split
  · exact now
  · cases found : s.findBO req.fbId with
    | none => exact now
    | some i =>
        have live : s.contents.Live req.fbId := (h.live_iff req.fbId).mpr ⟨i, found⟩
        dsimp only
        split <;> exact (reportsLive_iff _).mpr (Or.inr live)

/-- One call keeps the report true exactly when it spares the displayed buffer. -/
theorem step_reportsLive_iff (h : s.TableExact) (now : s.ReportsLive) (c : Call) :
    (s.drmIoctl c).1.ReportsLive ↔ s.SparesCurrent c := by
  obtain ⟨data, mem, surface⟩ := c
  unfold IODRMShim.drmIoctl SparesCurrent
  simp only [h.attached, Bool.not_true, Bool.false_eq_true, if_false]
  cases data with
  | destroyDumb req => exact closeBO_reportsLive_iff h now req.handle
  | gemClose req => exact closeBO_reportsLive_iff h now req.handle
  | setCrtc req => exact iff_of_true (setcrtc_reportsLive h now req surface) trivial
  | createDumb req =>
      refine iff_of_true ?_ trivial
      rw [reportsLive_iff] at now ⊢
      rw [ioctlCreateDumb_fCurrentFbId]
      exact now.imp_right (createDumb_keeps_live h req mem)
  | version _ | getResources _ | getConnector _ | getEncoder _ | getCrtc _ | addFb _
  | mapDumb _ | other _ => exact iff_of_true now trivial

/-- Along every run from `start`, GETCRTC reports 0 or a live handle in every
state if and only if no call closes the handle that is being displayed. -/
theorem getcrtc_live_iff_spared (p : Provider) (calls : List Call) :
    (∀ s, Runs.Visits step (start p) calls s → s.ReportsLive) ↔
      (∀ s c, Runs.Takes step (start p) calls s c → s.SparesCurrent c) := by
  refine Runs.visits_iff_takes TableExact ReportsLive SparesCurrent ?_ ?_
    (tableExact_start p) ?_ calls
  · intro s c s' h _ _ taken
    exact tableExact_step s c s' h taken
  · intro s c s' h now taken
    obtain rfl := Option.some.inj taken
    exact step_reportsLive_iff h now c
  · exact (reportsLive_iff _).mpr (Or.inl rfl)

/-- Showing a live buffer with no display service attached always succeeds. -/
theorem ioctlSetcrtc_shows {i : Fin maxDumbBOs} (used : (s.fBOs i).inUse = true)
    (qemu : s.fMobileFramebuffer = false) (surface : Option DisplaySurface) :
    s.ioctlSetcrtc { fbId := handleOf i } surface =
      ({ s with fCurrentFbId := handleOf i },
        { errno := .success, data := .setCrtc { fbId := handleOf i } }) := by
  simp [ioctlSetcrtc, handleOf_ne_zero, findBO_handleOf used, blitToDisplay, qemu]

/-- Create, display and close the first buffer: GETCRTC still reports its handle
although no buffer is live. -/
theorem getcrtc_reports_closed :
    ∃ s, Runs.Visits step (start ⟨false, none⟩)
      [⟨.createDumb { width := 64, height := 1, bpp := 32 }, some ⟨0, 0⟩, none⟩,
        ⟨.setCrtc { fbId := handleOf 0 }, none, none⟩,
        ⟨.gemClose { handle := handleOf 0, pad := 0 }, none, none⟩] s ∧
      s.fCurrentFbId = handleOf 0 ∧ ¬ s.ReportsLive := by
  have exact1 := tableExact_runCalls ⟨false, none⟩
    [⟨.createDumb { width := 64, height := 1, bpp := 32 }, some ⟨0, 0⟩, none⟩]
  simp only [runCalls, List.foldl_cons, List.foldl_nil] at exact1
  rw [drmIoctl_createDumb rfl, ioctlCreateDumb_created (allocHandle_first rfl)] at exact1
  refine ⟨_, Runs.visits_of_run (run_step _ _), ?_⟩
  simp only [runCalls, List.foldl_cons, List.foldl_nil]
  rw [drmIoctl_createDumb rfl, ioctlCreateDumb_created (allocHandle_first rfl),
    drmIoctl_setCrtc rfl, ioctlSetcrtc_shows (by simp [createdBO, fillBO]) rfl,
    drmIoctl_gemClose rfl]
  have exact2 := exact1.setCurrent (handleOf 0)
  refine ⟨(closeBO_frame _ _).1, ?_⟩
  rw [ioctlGemClose, closeBO_reportsLive_iff exact2]
  · intro spares
    exact handleOf_ne_zero 0 (spares rfl)
  · exact (reportsLive_iff _).mpr
      (Or.inr ((exact2.live_iff _).mpr ⟨0, findBO_handleOf (by simp [createdBO, fillBO])⟩))

end IODRMShim
end LunaOS.Drm
