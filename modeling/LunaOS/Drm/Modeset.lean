import LunaOS.Drm.Crtc
import LunaOS.Lib.Monitors

/-!
What GETCRTC says of the modesets. SETCRTC has four exits. Two of them forget the
report: the one that disables the display leaves the old framebuffer in place, and a
failed blit records the new one although the call returns EIO.
-/
namespace LunaOS.Drm
namespace IODRMShim
open Monitors
variable {s s' : IODRMShim}

/-- The fb_id of the last SETCRTC that returned 0. -/
def lastModeset (s : IODRMShim) (c : Call) (last : UInt32) : UInt32 :=
  match c.data with
  | .setCrtc req => if (s.drmIoctl c).2.errno = .success then req.fbId else last
  | _ => last

def Reports (s : IODRMShim) (fb : UInt32) : Prop :=
  ∀ crtc out, (s.ioctlGetcrtc crtc).data = .getCrtc out → out.fbId = fb

/-- A SETCRTC disables only what is off already, and meets no blit failure with a
live buffer that is not the one displayed. -/
def KeepsReport (s : IODRMShim) (c : Call) : Prop :=
  match c.data with
  | .setCrtc req =>
      (req.fbId = 0 → s.fCurrentFbId = 0) ∧
        ((s.findBO req.fbId).isSome → s.fMobileFramebuffer = true → c.surface = none →
          req.fbId = s.fCurrentFbId)
  | _ => True

theorem reports_iff (s : IODRMShim) (fb : UInt32) : s.Reports fb ↔ s.fCurrentFbId = fb := by
  constructor
  · intro h
    exact h {} _ rfl
  · intro h crtc out data
    obtain rfl := Data.getCrtc.inj data
    exact h

theorem blitToDisplay_eq_none_iff (s : IODRMShim) (bo : DumbBO)
    (surface : Option DisplaySurface) :
    s.blitToDisplay bo surface = none ↔ s.fMobileFramebuffer = true ∧ surface = none := by
  unfold blitToDisplay
  cases s.fMobileFramebuffer <;> simp

theorem findBO_zero (s : IODRMShim) : s.findBO 0 = none := by
  simp [findBO]

/-! The exits of SETCRTC. -/

theorem ioctlSetcrtc_disabled {req : DrmModeCrtc} (off : req.fbId = 0)
    (surface : Option DisplaySurface) :
    s.ioctlSetcrtc req surface = (s, { errno := .success, data := .setCrtc req }) := by
  simp [ioctlSetcrtc, off]

theorem ioctlSetcrtc_unknown {req : DrmModeCrtc} (on : req.fbId ≠ 0)
    (absent : s.findBO req.fbId = none) (surface : Option DisplaySurface) :
    s.ioctlSetcrtc req surface = (s, { errno := .einval, data := .setCrtc req }) := by
  simp [ioctlSetcrtc, on, absent]

theorem ioctlSetcrtc_failed {req : DrmModeCrtc} {i : Fin maxDumbBOs}
    {surface : Option DisplaySurface} (on : req.fbId ≠ 0) (found : s.findBO req.fbId = some i)
    (blit : s.blitToDisplay (s.fBOs i) surface = none) :
    s.ioctlSetcrtc req surface =
      ({ s with fCurrentFbId := req.fbId }, { errno := .eio, data := .setCrtc req }) := by
  simp [ioctlSetcrtc, on, found, blit]

theorem ioctlSetcrtc_shown {req : DrmModeCrtc} {i : Fin maxDumbBOs}
    {surface : Option DisplaySurface} {rows : List RowCopy} (on : req.fbId ≠ 0)
    (found : s.findBO req.fbId = some i)
    (blit : s.blitToDisplay (s.fBOs i) surface = some rows) :
    s.ioctlSetcrtc req surface =
      ({ s with fCurrentFbId := req.fbId },
        { errno := .success, data := .setCrtc req, rows := rows }) := by
  simp [ioctlSetcrtc, on, found, blit]

/-- No other call touches what GETCRTC reports. -/
theorem drmIoctl_fCurrentFbId {c : Call} (other : ∀ req, c.data ≠ .setCrtc req) :
    (s.drmIoctl c).1.fCurrentFbId = s.fCurrentFbId := by
  obtain ⟨data, mem, surface⟩ := c
  unfold IODRMShim.drmIoctl
  split
  · rfl
  · cases data with
    | setCrtc req => exact (other req rfl).elim
    | createDumb req => rw [ioctlCreateDumb_fCurrentFbId]
    | destroyDumb req => exact (closeBO_frame s req.handle).1
    | gemClose req => exact (closeBO_frame s req.handle).1
    | version _ | getResources _ | getConnector _ | getEncoder _ | getCrtc _ | addFb _
    | mapDumb _ | other _ => rfl

theorem setCrtc_reports_iff (h : s.TableExact) {last : UInt32} (now : s.Reports last)
    (req : DrmModeCrtc) (mem : Option Mapping) (surface : Option DisplaySurface) :
    (s.drmIoctl ⟨.setCrtc req, mem, surface⟩).1.Reports
        (s.lastModeset ⟨.setCrtc req, mem, surface⟩ last) ↔
      s.KeepsReport ⟨.setCrtc req, mem, surface⟩ := by
  rw [reports_iff] at now ⊢
  simp only [lastModeset, KeepsReport, drmIoctl_setCrtc h.attached]
  by_cases off : req.fbId = 0
  · simp [ioctlSetcrtc_disabled off, off, findBO_zero]
  · cases found : s.findBO req.fbId with
    | none => simp [ioctlSetcrtc_unknown off found, off, now]
    | some i =>
        cases blit : s.blitToDisplay (s.fBOs i) surface with
        | none =>
            obtain ⟨display, rfl⟩ := (blitToDisplay_eq_none_iff s _ surface).mp blit
            simp [ioctlSetcrtc_failed off found blit, off, display, now]
        | some rows =>
            have given : s.fMobileFramebuffer = true → surface ≠ none := by
              intro display none_given
              simp [blitToDisplay, display, none_given] at blit
            simp only [ioctlSetcrtc_shown off found blit, if_true]
            refine iff_of_true trivial ⟨fun zero => absurd zero off, fun _ display failed => ?_⟩
            exact absurd failed (given display)

/-- One call keeps the report exact exactly when it meets neither of the two exits. -/
theorem step_reports_iff (h : s.TableExact) {last : UInt32} (now : s.Reports last) (c : Call)
    (taken : step s c = some s') : s'.Reports (s.lastModeset c last) ↔ s.KeepsReport c := by
  obtain rfl := Option.some.inj taken
  obtain ⟨data, mem, surface⟩ := c
  cases data with
  | setCrtc req => exact setCrtc_reports_iff h now req mem surface
  | createDumb _ | destroyDumb _ | gemClose _ | version _ | getResources _ | getConnector _
  | getEncoder _ | getCrtc _ | addFb _ | mapDumb _ | other _ =>
      refine iff_of_true ?_ trivial
      rw [reports_iff] at now ⊢
      exact (drmIoctl_fCurrentFbId fun _ e => by cases e).trans now

/-- Along every run from `start`, GETCRTC reports the last SETCRTC that returned 0 in
every state if and only if no SETCRTC of the run disables a display that is on, or
meets a blit failure with another live buffer than the one displayed. -/
theorem getcrtc_reports_last_iff (p : Provider) (calls : List Call) :
    (∀ s last, Runs.Visits (watch step lastModeset) (start p, 0) calls (s, last) →
        s.Reports last) ↔
      ∀ s last c, Runs.Takes (watch step lastModeset) (start p, 0) calls (s, last) c →
        s.KeepsReport c := by
  refine Monitors.visits_iff_takes (fun s _ => s.TableExact) Reports
    (fun s _ c => s.KeepsReport c) ?_ ?_ (tableExact_start p) ?_ calls
  · intro s _ c s' h _ _ taken
    exact tableExact_step s c s' h taken
  · intro s last c s' h now taken
    exact step_reports_iff h now c taken
  · exact (reports_iff _ 0).mpr rfl

/-- Show the first buffer and disable the display: both calls return 0, and GETCRTC
still reports the buffer. -/
theorem getcrtc_reports_disabled :
    ∃ s last, Runs.Visits (watch step lastModeset) (start ⟨false, none⟩, 0)
      [⟨.createDumb { width := 64, height := 1, bpp := 32 }, some ⟨0, 0⟩, none⟩,
        ⟨.setCrtc { fbId := 1 }, none, none⟩,
        ⟨.setCrtc { fbId := 0 }, none, none⟩] (s, last) ∧ ¬ s.Reports last := by
  let calls : List Call :=
    [⟨.createDumb { width := 64, height := 1, bpp := 32 }, some ⟨0, 0⟩, none⟩,
      ⟨.setCrtc { fbId := 1 }, none, none⟩,
      ⟨.setCrtc { fbId := 0 }, none, none⟩]
  have ends : (Runs.run (watch step lastModeset) (start ⟨false, none⟩, 0) calls).any
      (fun w => w.1.fCurrentFbId ≠ w.2) = true := by decide +kernel
  obtain ⟨⟨s, last⟩, reached, wrong⟩ := (Option.any_eq_true _ _).mp ends
  refine ⟨s, last, Runs.visits_of_run reached, ?_⟩
  rw [reports_iff]
  exact of_decide_eq_true wrong

end IODRMShim
end LunaOS.Drm
