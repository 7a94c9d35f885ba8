import LunaOS.Drm.Modeset

/-!
Framebuffer ids are handles. ADDFB stores nothing, so an id means whatever its handle
means when SETCRTC looks it up. A handle keeps its buffer until it is closed, and the
descriptor that a close releases never comes back: after a close in between, an id
that SETCRTC still takes shows another buffer.
-/
namespace LunaOS.Drm

def Call.Closes (handle : UInt32) (c : Call) : Prop :=
  match c.data with
  | .destroyDumb req => req.handle = handle
  | .gemClose req => req.handle = handle
  | _ => False

namespace IODRMShim
variable {s s' : IODRMShim}

/-- The descriptor of the buffer that a handle names. -/
def namedBuffer (s : IODRMShim) (handle : UInt32) : Option Nat :=
  (s.findBO handle).bind fun i => (s.fBOs i).mem

/-- A SETCRTC copies the rows of a slot with the buffer `d`, and no others. -/
def Hands (s : IODRMShim) (req : DrmModeCrtc) (mem : Option Mapping)
    (surface : Option DisplaySurface) (d : Nat) : Prop :=
  ∃ i, (s.fBOs i).mem = some d ∧
    s.blitToDisplay (s.fBOs i) surface = some (s.drmIoctl ⟨.setCrtc req, mem, surface⟩).2.rows

theorem namedBuffer_found {fb : UInt32} {i : Fin maxDumbBOs} (found : s.findBO fb = some i) :
    s.namedBuffer fb = (s.fBOs i).mem := by
  simp [namedBuffer, found]

def Keeps (i : Fin maxDumbBOs) (d : Nat) (s : IODRMShim) : Prop :=
  s.TableExact ∧ (s.fBOs i).mem = some d

/-- The descriptor `d` was released. -/
def Lost (d : Nat) (s : IODRMShim) : Prop :=
  s.TableExact ∧ d ∈ s.ledger.released

theorem Keeps.named {i : Fin maxDumbBOs} {d : Nat} (keeps : s.Keeps i d) :
    s.namedBuffer (handleOf i) = some d := by
  obtain ⟨h, held⟩ := keeps
  have used : (s.fBOs i).inUse = true := (h.inUse_iff i).mpr (by simp [held])
  rw [namedBuffer_found (findBO_handleOf used), held]

theorem Lost.not_named {d : Nat} (lost : s.Lost d) (fb : UInt32) :
    s.namedBuffer fb ≠ some d := by
  obtain ⟨h, gone⟩ := lost
  intro named
  obtain ⟨i, _, held⟩ := Option.bind_eq_some_iff.mp named
  exact (h.balanced.live i d held).2 gone

/-! One call. -/

/-- What a call does to the table. -/
inductive TableStep (s : IODRMShim) (c : Call) : IODRMShim → Prop where
  | kept (spares : ∀ handle, ¬ c.Closes handle) (fb : UInt32) :
      TableStep s c { s with fCurrentFbId := fb }
  | created (spares : ∀ handle, ¬ c.Closes handle) (req : DrmModeCreateDumb) :
      TableStep s c (s.ioctlCreateDumb req c.mem).1
  | closed (handle : UInt32) (closes : ∀ other, c.Closes other ↔ handle = other) :
      TableStep s c (s.closeBO handle)

theorem step_table (h : s.TableExact) {c : Call} (taken : step s c = some s') :
    TableStep s c s' := by
  obtain rfl := Option.some.inj taken
  obtain ⟨data, mem, surface⟩ := c
  unfold IODRMShim.drmIoctl
  simp only [h.attached, Bool.not_true, Bool.false_eq_true, if_false]
  cases data with
  | createDumb req => exact .created (fun _ => id) req
  | destroyDumb req => exact .closed req.handle fun _ => Iff.rfl
  | gemClose req => exact .closed req.handle fun _ => Iff.rfl
  | setCrtc req =>
      obtain ⟨fb, same⟩ := ioctlSetcrtc_table s req surface
      dsimp only
      rw [same]
      exact .kept (fun _ => id) fb
  | version _ | getResources _ | getConnector _ | getEncoder _ | getCrtc _ | addFb _
  | mapDumb _ | other _ => exact .kept (fun _ => id) s.fCurrentFbId

theorem closeBO_released (h : s.TableExact) (handle : UInt32) {d : Nat}
    (gone : d ∈ s.ledger.released) : d ∈ (s.closeBO handle).ledger.released := by
  cases found : s.findBO handle with
  | none => rwa [closeBO_absent found]
  | some i =>
      obtain ⟨d', held⟩ := h.found_mem found
      rw [closeBO_found found held]
      exact List.mem_cons_of_mem d' gone

theorem createDumb_released (h : s.TableExact) (req : DrmModeCreateDumb)
    (mem : Option Mapping) :
    (s.ioctlCreateDumb req mem).1.ledger.released = s.ledger.released := by
  rcases h.allocHandle_cases with ⟨_, none_free⟩ | ⟨i, _, alloc⟩
  · rw [ioctlCreateDumb_full none_free]
  · cases mem with
    | none => rw [ioctlCreateDumb_refused alloc]; rfl
    | some m => rw [ioctlCreateDumb_created alloc]; rfl

theorem createDumb_mem (h : s.TableExact) {i : Fin maxDumbBOs} {d : Nat}
    (held : (s.fBOs i).mem = some d) (req : DrmModeCreateDumb) (mem : Option Mapping) :
    ((s.ioctlCreateDumb req mem).1.fBOs i).mem = some d := by
  rcases h.allocHandle_cases with ⟨_, none_free⟩ | ⟨j, free, alloc⟩
  · rw [ioctlCreateDumb_full none_free]
    exact held
  · have other : i ≠ j := by
      rintro rfl
      rw [h.free_mem free] at held
      cases held
    cases mem with
    | none =>
        rw [ioctlCreateDumb_refused alloc, setBO_fBOs, Function.update_of_ne other]
        exact held
    | some m =>
        rw [ioctlCreateDumb_created alloc]
        simpa only [setBO_fBOs, Function.update_of_ne other] using held

theorem closeBO_mem (h : s.TableExact) {i : Fin maxDumbBOs} {d : Nat}
    (held : (s.fBOs i).mem = some d) {handle : UInt32} (other : handle ≠ handleOf i) :
    ((s.closeBO handle).fBOs i).mem = some d := by
  cases found : s.findBO handle with
  | none => rwa [closeBO_absent found]
  | some j =>
      obtain ⟨d', held'⟩ := h.found_mem found
      have apart : i ≠ j := by
        rintro rfl
        exact other ((findBO_eq_some_iff s handle i).mp found).1
      simpa [closeBO_found found held', apart] using held

theorem closeBO_own (h : s.TableExact) {i : Fin maxDumbBOs} {d : Nat}
    (held : (s.fBOs i).mem = some d) :
    d ∈ (s.closeBO (handleOf i)).ledger.released := by
  have used : (s.fBOs i).inUse = true := (h.inUse_iff i).mpr (by simp [held])
  rw [closeBO_found (findBO_handleOf used) held]
  exact List.mem_cons_self

theorem keeps_step {i : Fin maxDumbBOs} {d : Nat} (keeps : s.Keeps i d) (c : Call)
    (taken : step s c = some s') :
    (¬ c.Closes (handleOf i) → s'.Keeps i d) ∧ (¬ ¬ c.Closes (handleOf i) → s'.Lost d) := by
  obtain ⟨h, held⟩ := keeps
  have table := tableExact_step s c s' h taken
  cases step_table h taken with
  | kept spares fb =>
      exact ⟨fun _ => ⟨table, held⟩, fun closed => absurd (spares (handleOf i)) closed⟩
  | created spares req =>
      refine ⟨fun _ => ⟨table, createDumb_mem h held req c.mem⟩, fun closed => ?_⟩
      exact absurd (spares (handleOf i)) closed
  | closed handle closes =>
      rw [closes]
      refine ⟨fun other => ⟨table, closeBO_mem h held other⟩, fun own => ⟨table, ?_⟩⟩
      exact not_not.mp own ▸ closeBO_own h held

/-- A released descriptor stays released. -/
theorem lost_step {d : Nat} (lost : s.Lost d) (c : Call) (taken : step s c = some s') :
    s'.Lost d := by
  obtain ⟨h, gone⟩ := lost
  refine ⟨tableExact_step s c s' h taken, ?_⟩
  cases step_table h taken with
  | kept _ fb => exact gone
  | created _ req => rwa [createDumb_released h]
  | closed handle _ => exact closeBO_released h handle gone

/-- ADDFB answers with the handle and stores nothing. -/
theorem drmIoctl_addFb (attached : s.gShim = true) (fb : DrmModeFbCmd)
    (mem : Option Mapping) (surface : Option DisplaySurface) :
    (s.drmIoctl ⟨.addFb fb, mem, surface⟩).2.data = .addFb { fb with fbId := fb.handle } := by
  simp [IODRMShim.drmIoctl, attached, ioctlAddfb]

/-- A SETCRTC that returns 0 and does not disable the display hands over the buffer that
its id names. -/
theorem setCrtc_hands (h : s.TableExact) {req : DrmModeCrtc} {mem : Option Mapping}
    {surface : Option DisplaySurface} (on : req.fbId ≠ 0)
    (shown : (s.drmIoctl ⟨.setCrtc req, mem, surface⟩).2.errno = .success) :
    ∃ d, s.namedBuffer req.fbId = some d ∧ s.Hands req mem surface d := by
  cases found : s.findBO req.fbId with
  | none =>
      rw [drmIoctl_setCrtc h.attached, ioctlSetcrtc_unknown on found] at shown
      cases shown
  | some i =>
      obtain ⟨d, held⟩ := h.found_mem found
      refine ⟨d, (namedBuffer_found found).trans held, i, held, ?_⟩
      cases blit : s.blitToDisplay (s.fBOs i) surface with
      | none =>
          rw [drmIoctl_setCrtc h.attached, ioctlSetcrtc_failed on found blit] at shown
          cases shown
      | some rows => rw [drmIoctl_setCrtc h.attached, ioctlSetcrtc_shown on found blit]

/-- From a state in which a handle has its buffer, a run leaves it that buffer exactly
when no call of the run closes the handle. -/
theorem named_iff_not_closed {i : Fin maxDumbBOs} {d : Nat} (keeps : s.Keeps i d)
    {calls : List Call} (reached : Runs.run step s calls = some s') :
    s'.namedBuffer (handleOf i) = some d ↔ ∀ c ∈ calls, ¬ c.Closes (handleOf i) := by
  obtain ⟨kept, lost⟩ := Runs.run_good_or_bad (fun _ c _ keeps taken => keeps_step keeps c taken)
    (fun _ c _ lost taken => lost_step lost c taken) keeps reached
  constructor
  · intro named
    by_contra closed
    exact (lost closed).not_named (handleOf i) named
  · intro spared
    exact (kept spared).named

/-- Along every run from `start`: after an ADDFB on a live handle, a SETCRTC of the id
that returns 0 copies the rows of a buffer, and that is the buffer that the handle named
at the ADDFB if and only if no call in between closed the handle. -/
theorem setcrtc_shows_added_iff (p : Provider) {s t : IODRMShim} {before between : List Call}
    {fb out : DrmModeFbCmd} {req : DrmModeCrtc} {mem mem' : Option Mapping}
    {surface surface' : Option DisplaySurface}
    (reached : Runs.run step (start p) before = some s) (live : s.contents.Live fb.handle)
    (added : (s.drmIoctl ⟨.addFb fb, mem, surface⟩).2.data = .addFb out)
    (later : Runs.run step s (⟨.addFb fb, mem, surface⟩ :: between) = some t)
    (named : req.fbId = out.fbId)
    (shown : (t.drmIoctl ⟨.setCrtc req, mem', surface'⟩).2.errno = .success) :
    ∃ d, t.Hands req mem' surface' d ∧ t.namedBuffer req.fbId = some d ∧
      (s.namedBuffer fb.handle = some d ↔ ∀ c ∈ between, ¬ c.Closes fb.handle) := by
  have h : s.TableExact := Runs.run_invariant tableExact_step (tableExact_start p) reached
  obtain ⟨i, found⟩ := (h.live_iff fb.handle).mp live
  obtain ⟨d, held⟩ := h.found_mem found
  have own := ((findBO_eq_some_iff s fb.handle i).mp found).1
  have same_id : out.fbId = fb.handle := by
    rw [drmIoctl_addFb h.attached, Data.addFb.injEq] at added
    rw [← added]
  have on : req.fbId ≠ 0 := by
    rw [named, same_id, own]
    exact handleOf_ne_zero i
  have table : t.TableExact := Runs.run_invariant tableExact_step h later
  obtain ⟨d', names, hands⟩ := setCrtc_hands table on shown
  refine ⟨d', hands, names, ?_⟩
  have kept := named_iff_not_closed ⟨h, held⟩ later
  rw [← own, ← same_id, ← named, names, named, same_id, List.forall_mem_cons] at kept
  rw [namedBuffer_found found, held, eq_comm, kept]
  exact and_iff_right id

/-- A second buffer comes and goes between ADDFB and SETCRTC; the first is shown. -/
theorem setcrtc_shows_added_first :
    ∃ s t : IODRMShim,
      Runs.run step (start ⟨true, some (64, 2)⟩)
        [⟨.createDumb { width := 64, height := 1, bpp := 32 }, some ⟨0, 0⟩, none⟩] = some s ∧
      Runs.run step s
        [⟨.addFb ⟨0, 64, 1, 256, 32, 24, 1⟩, none, none⟩,
          ⟨.createDumb { width := 64, height := 2, bpp := 32 }, some ⟨0, 0⟩, none⟩,
          ⟨.gemClose ⟨2, 0⟩, none, none⟩] = some t ∧
      ∃ d, t.Hands { fbId := 1 } none (some ⟨256, 2⟩) d ∧ s.namedBuffer 1 = some d := by
  let before : List Call :=
    [⟨.createDumb { width := 64, height := 1, bpp := 32 }, some ⟨0, 0⟩, none⟩]
  let fb : DrmModeFbCmd := ⟨0, 64, 1, 256, 32, 24, 1⟩
  let req : DrmModeCrtc := { fbId := 1 }
  have h : ((start ⟨true, some (64, 2)⟩).runCalls before).TableExact := tableExact_runCalls _ _
  have live : ((start ⟨true, some (64, 2)⟩).runCalls before).contents.Live fb.handle :=
    (h.live_iff 1).mpr ⟨0, by decide +kernel⟩
  have named : req.fbId = fb.handle := rfl
  let between : List Call :=
    [⟨.createDumb { width := 64, height := 2, bpp := 32 }, some ⟨0, 0⟩, none⟩,
      ⟨.gemClose ⟨2, 0⟩, none, none⟩]
  have shown : ((((start ⟨true, some (64, 2)⟩).runCalls before).runCalls
      (⟨.addFb fb, none, none⟩ :: between)).drmIoctl
        ⟨.setCrtc req, none, some ⟨256, 2⟩⟩).2.errno = .success := by decide +kernel
  obtain ⟨d, hands, _, same⟩ := setcrtc_shows_added_iff ⟨true, some (64, 2)⟩ (run_step _ before)
    live (drmIoctl_addFb h.attached fb none none) (run_step _ _) named shown
  exact ⟨_, _, run_step _ _, run_step _ _, d, hands, same.mpr (by simp [Call.Closes, between, fb])⟩

/-- The handle is closed and created again between ADDFB and SETCRTC: the call returns
0 and copies the two rows of the second buffer under the id of the first, which had one. -/
theorem setcrtc_shows_other_buffer :
    ∃ s t : IODRMShim,
      Runs.run step (start ⟨true, some (64, 2)⟩)
        [⟨.createDumb { width := 64, height := 1, bpp := 32 }, some ⟨0, 0⟩, none⟩] = some s ∧
      s.contents.Live 1 ∧
      (s.drmIoctl ⟨.addFb ⟨0, 64, 1, 256, 32, 24, 1⟩, none, none⟩).2.data =
        .addFb ⟨1, 64, 1, 256, 32, 24, 1⟩ ∧
      Runs.run step s
        [⟨.addFb ⟨0, 64, 1, 256, 32, 24, 1⟩, none, none⟩,
          ⟨.gemClose ⟨1, 0⟩, none, none⟩,
          ⟨.createDumb { width := 64, height := 2, bpp := 32 }, some ⟨0, 0⟩, none⟩] = some t ∧
      (t.drmIoctl ⟨.setCrtc { fbId := 1 }, none, some ⟨256, 2⟩⟩).2.errno = .success ∧
      (t.drmIoctl ⟨.setCrtc { fbId := 1 }, none, some ⟨256, 2⟩⟩).2.rows.map (·.src) =
        [0, 256] ∧
      ∃ d, t.Hands { fbId := 1 } none (some ⟨256, 2⟩) d ∧ s.namedBuffer 1 ≠ some d := by
  let before : List Call :=
    [⟨.createDumb { width := 64, height := 1, bpp := 32 }, some ⟨0, 0⟩, none⟩]
  let later : List Call :=
    [⟨.addFb ⟨0, 64, 1, 256, 32, 24, 1⟩, none, none⟩,
      ⟨.gemClose ⟨1, 0⟩, none, none⟩,
      ⟨.createDumb { width := 64, height := 2, bpp := 32 }, some ⟨0, 0⟩, none⟩]
  have h := tableExact_runCalls ⟨true, some (64, 2)⟩ before
  have table := Runs.run_invariant tableExact_step h (run_step _ later)
  have shown : ((((start ⟨true, some (64, 2)⟩).runCalls before).runCalls later).drmIoctl
      ⟨.setCrtc { fbId := 1 }, none, some ⟨256, 2⟩⟩).2.errno = .success := by decide +kernel
  obtain ⟨d, names, hands⟩ := setCrtc_hands table (by decide) shown
  have added := drmIoctl_addFb h.attached ⟨0, 64, 1, 256, 32, 24, 1⟩ none none
  have live := (h.live_iff 1).mpr ⟨0, by decide +kernel⟩
  refine ⟨_, _, run_step _ before, live, added, run_step _ later, shown, ?_, d, hands, ?_⟩
  · decide +kernel
  · rw [← names]
    decide +kernel

end IODRMShim
end LunaOS.Drm
