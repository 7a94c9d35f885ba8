import LunaOS.Shell.Surfaces

/-!
The mapping handshake of wlr-layer-shell. A commit with a null buffer attached unmaps
the surface, and a buffer may be committed again only after a configure that came
since. The panel and the wallpaper attach in answer to a configure. The launcher
keeps `configured` when it hides, so that its next show attaches at once.
-/
namespace LunaOS.Shell
open Custody Histories

namespace Call

def acks : Call → Bool
  | .ackConfigure _ => true
  | _ => false

def unmaps : Call → Bool
  | .commit (some none) => true
  | _ => false

end Call

/-- A configure was acked since the surface was created or last unmapped. -/
def Ready (calls : List Call) : Prop :=
  Since (·.acks = true) (·.unmaps = true) calls

instance (calls : List Call) : Decidable (Ready calls) :=
  inferInstanceAs (Decidable (Since _ _ calls))

def Handshake (calls : List Call) : Prop :=
  Always (fun before c => ∀ b, c = .commit (some (some b)) → Ready before) calls

theorem handshake_nil : Handshake [] :=
  always_nil

theorem ready_ack (calls : List Call) (serial : UInt32) :
    Ready (calls ++ [.ackConfigure serial]) :=
  (since_concat calls _).mpr (Or.inl rfl)

theorem handshake_ack (calls : List Call) (serial : UInt32) :
    Handshake (calls ++ [.ackConfigure serial]) ↔ Handshake calls :=
  (always_concat calls _).trans (and_iff_left nofun)

theorem ready_quiet {calls out : List Call} (quiet : ∀ c ∈ out, c.quiet = true) :
    Ready (calls ++ out) ↔ Ready calls := by
  refine since_append_others fun c mem => ?_
  have silent := quiet c mem
  cases c with
  | ackConfigure serial => cases silent
  | commit attached => cases silent
  | _ => exact ⟨nofun, nofun⟩

theorem handshake_quiet {calls out : List Call} (quiet : ∀ c ∈ out, c.quiet = true) :
    Handshake (calls ++ out) ↔ Handshake calls := by
  refine always_append_free fun c mem before b same => ?_
  have silent := quiet c mem
  rw [same] at silent
  cases silent

theorem ready_commit (calls : List Call) (attached : Option (Option Nat)) :
    Ready (calls ++ [.commit attached]) ↔ attached ≠ some none ∧ Ready calls := by
  refine (since_concat calls _).trans ?_
  obtain _ | _ | b := attached <;> simp [Ready, Call.acks, Call.unmaps]

theorem handshake_commit (calls : List Call) (attached : Option (Option Nat)) :
    Handshake (calls ++ [.commit attached]) ↔
      Handshake calls ∧ ∀ b, attached = some (some b) → Ready calls := by
  refine (always_concat calls _).trans (and_congr_right fun _ => ?_)
  simp only [Call.commit.injEq]

namespace Surface

variable {s s' p p' l l' wp wp' : Surface} {c : Configure}

theorem Quiet.ready (quiet : Quiet s s') : Ready s'.calls ↔ Ready s.calls := by
  obtain ⟨out, calls, silent⟩ := quiet.calls
  rw [calls, ready_quiet silent]

theorem Quiet.handshake (quiet : Quiet s s') : Handshake s'.calls ↔ Handshake s.calls := by
  obtain ⟨out, calls, silent⟩ := quiet.calls
  rw [calls, handshake_quiet silent]

/-- What holds between two events: the rule was kept, and nothing waits for a commit. -/
structure Settled (s : Surface) : Prop where
  handshake : Handshake s.calls
  pending : s.pending = none

theorem Settled.quiet (h : Settled s) (quiet : Quiet s s') : Settled s' :=
  ⟨quiet.handshake.mpr h.handshake, quiet.pending.trans h.pending⟩

/-- A commit without an attach maps nothing and unmaps nothing. -/
theorem Settled.commit (h : Settled s) : Settled s.commit := by
  refine ⟨(handshake_commit _ _).mpr ⟨h.handshake, fun b attached => ?_⟩, rfl⟩
  rw [h.pending] at attached
  cases attached

theorem ready_commit_settled (h : Settled s) : Ready s.commit.calls ↔ Ready s.calls := by
  refine (ready_commit _ _).trans (and_iff_right ?_)
  rw [h.pending]
  nofun

/-- Hiding attaches null and commits it. -/
theorem Settled.unmap (h : Settled s) : Settled (s.attach none).commit := by
  have attached : Handshake (s.attach none).calls :=
    (handshake_quiet (List.forall_mem_singleton.mpr rfl)).mpr h.handshake
  exact ⟨(handshake_commit _ _).mpr ⟨attached, nofun⟩, rfl⟩

/-- The calls of a present before its commit. -/
theorem presents_quietly (s : Surface) (pw ph : Int32) :
    ∀ c ∈ [Call.attach s.buffer, .damageBuffer pw ph, .setBufferScale s.scale],
      c.quiet = true := by
  simp [Call.quiet]

theorem present_calls (live : s.faulted = false) (pw ph : Int32) :
    (s.present pw ph).calls =
      s.calls ++ [.attach s.buffer, .damageBuffer pw ph, .setBufferScale s.scale] ++
        [.commit (some s.buffer)] := by
  simp [present, live, attach, commit, call]

theorem handshake_present (live : s.faulted = false) (pw ph : Int32) :
    Handshake (s.present pw ph).calls ↔
      Handshake s.calls ∧ ∀ b, s.buffer = some b → Ready s.calls := by
  have quiet := presents_quietly s pw ph
  rw [present_calls live, handshake_commit, handshake_quiet quiet, ready_quiet quiet]
  simp only [Option.some.injEq]

theorem ready_present (live : s.faulted = false) (pw ph : Int32) :
    Ready (s.present pw ph).calls ↔ s.buffer ≠ none ∧ Ready s.calls := by
  have quiet := presents_quietly s pw ph
  rw [present_calls live, ready_commit, ready_quiet quiet]
  simp only [ne_eq, Option.some.injEq]

def Prepared (s : Surface) : Prop :=
  ∀ b, s.buffer = some b → Ready s.calls

theorem Settled.present (h : Settled s) (prepared : s.Prepared) (pw ph : Int32) :
    Settled (s.present pw ph) ∧ (s.present pw ph).Prepared := by
  cases live : s.faulted with
  | true =>
      rw [Surface.present, if_pos live]
      exact ⟨h, prepared⟩
  | false =>
      have same : (s.present pw ph).buffer = s.buffer := by
        simp [Surface.present, live, Surface.attach, Surface.commit, Surface.call]
      have none_pending : (s.present pw ph).pending = none := by
        simp [Surface.present, live, Surface.commit]
      refine ⟨⟨(handshake_present live pw ph).mpr ⟨h.handshake, prepared⟩, none_pending⟩,
        fun b held => ?_⟩
      rw [same] at held
      have buffered : s.buffer ≠ none := by
        rw [held]
        exact Option.some_ne_none b
      exact (ready_present live pw ph).mpr ⟨buffered, prepared b held⟩

theorem draw_buffer (s : Surface) (drawn : Bool) : (s.draw drawn).buffer = s.buffer := by
  unfold draw
  split <;> rfl

theorem Prepared.draw (h : s.Prepared) (drawn : Bool) : (s.draw drawn).Prepared := by
  intro b held
  rw [draw_buffer] at held
  exact (draw_quiet s drawn).ready.mpr (h b held)

theorem Settled.render (h : Settled s) (prepared : s.Prepared) (drawn : Bool) (pw ph : Int32) :
    Settled (s.render drawn pw ph) ∧ (s.render drawn pw ph).Prepared := by
  unfold Surface.render
  split
  · exact ⟨h, prepared⟩
  · exact (h.quiet (draw_quiet s drawn)).present (prepared.draw drawn) pw ph

/-- What follows the ack of a configure, up to the drawing. -/
theorem accepted {serial : UInt32} (h : Settled p) (quiet : Quiet s s')
    (calls : s.calls = p.calls ++ [.ackConfigure serial]) (pending : s.pending = p.pending) :
    Settled s' ∧ Ready s'.calls := by
  have acked : Settled s := by
    refine ⟨?_, pending.trans h.pending⟩
    rw [calls]
    exact (handshake_ack _ _).mpr h.handshake
  refine ⟨acked.quiet quiet, quiet.ready.mpr ?_⟩
  rw [calls]
  exact ready_ack _ _

/-! The panel. -/

theorem panelCreate_settled (panelHeight scale : Int32) :
    Settled (panelCreate panelHeight scale) ∧ (panelCreate panelHeight scale).Prepared := by
  have start : Settled
      { height := panelHeight, scale := if 0 < scale then scale else 1 : Surface } :=
    ⟨handshake_nil, rfl⟩
  exact ⟨start.commit, nofun⟩

theorem lsConfigure_settled (h : Settled p) (next : p.lsConfigure c = some p') :
    Settled p' ∧ p'.Prepared := by
  obtain ⟨p₁, shm, next⟩ := Option.bind_eq_some_iff.mp next
  obtain rfl := Option.some.inj next
  have quiet := (releaseOld_quiet (p.lsAccept c)).trans (createShm_quiet shm)
  obtain ⟨settled, ready⟩ := accepted h quiet rfl rfl
  have configured : Settled { p₁ with configured := true } := ⟨settled.handshake, settled.pending⟩
  exact configured.render (fun _ _ => ready) _ _ _

theorem panelStep_settled {e : PanelEvent} (h : Settled p ∧ p.Prepared)
    (next : p.panelStep e = some p') : Settled p' ∧ p'.Prepared := by
  obtain ⟨_, rfl⟩ | ⟨_, handled⟩ := whileAlive_cases next
  · exact h
  · cases e with
    | configure c => exact lsConfigure_settled h.1 handled
    | render drawn =>
        obtain rfl := Option.some.inj handled
        exact h.1.render h.2 _ _ _

/-! The wallpaper. -/

theorem wpConfigure_settled (h : Settled wp) (next : wp.wpConfigure c = some wp') :
    Settled wp' := by
  obtain ⟨wp₁, allocated, next⟩ := Option.bind_eq_some_iff.mp next
  obtain rfl := Option.some.inj next
  have quiet := (releaseOld_quiet (wp.wpAccept c)).trans (allocate_quiet allocated)
  obtain ⟨settled, ready⟩ := accepted h quiet rfl rfl
  have prepared : wp₁.Prepared := fun _ _ => ready
  have drawn : Settled wp₁.wpRenderGradient := settled.quiet (draw_quiet wp₁ _)
  obtain ⟨presented, _⟩ := drawn.present (prepared.draw _)
    (c.w * (wp.wpAccept c).scale.toUInt32).toInt32 (c.h * (wp.wpAccept c).scale.toUInt32).toInt32
  exact ⟨presented.handshake, presented.pending⟩

theorem wallpaperStep_settled (h : Settled wp) (next : wp.wallpaperStep c = some wp') :
    Settled wp' := by
  obtain ⟨_, rfl⟩ | ⟨_, handled⟩ := whileAlive_cases next
  · exact h
  · exact wpConfigure_settled h handled

/-! The launcher. -/

/-- A configured launcher has a buffer, and its `pixels` is no longer null. -/
def Furnished (l : Surface) : Prop :=
  l.configured = true → l.buffer ≠ none ∧ l.pixels ≠ .null

def Faults (s : Surface) (drawn : Bool) : Prop :=
  drawn = true ∧ ¬ Owned s.ops (.region s.pixels s.size)

theorem faults_commit (s : Surface) (drawn : Bool) : s.commit.Faults drawn ↔ s.Faults drawn := by
  have ops : s.commit.ops = s.ops := (ops_call s (.commit s.pending)).trans (List.append_nil _)
  unfold Faults
  rw [ops]
  rfl

theorem draw_faulted (live : s.faulted = false) (drawn : Bool) :
    (s.draw drawn).faulted = true ↔ s.Faults drawn := by
  cases drawn <;> simp [draw, Faults, live]

theorem allocate_furnished {pw ph : Int32} {a : Allocation} (next : s.allocate pw ph a = some s') :
    s'.buffer ≠ none ∧ s'.pixels ≠ .null := by
  obtain ⟨s₁, s₂, s₃, opened, mapping, pooled, buffered⟩ := allocate_cases next
  obtain ⟨_, rfl⟩ := createBuffer_cases buffered
  obtain ⟨_, rfl⟩ := createPool_cases pooled
  obtain ⟨_, rfl⟩ | ⟨addr, _, _, _, rfl⟩ := mmap_cases mapping
  · exact ⟨nofun, nofun⟩
  · exact ⟨nofun, nofun⟩

/-- A drawing that gets to its end commits the buffer it has. -/
theorem handshake_render (h : Settled s) (live : s.faulted = false) (furnished : s.Furnished)
    (drawn : Bool) (pw ph : Int32) :
    Handshake (s.render drawn pw ph).calls ↔
      s.configured = false ∨ s.Faults drawn ∨ Ready s.calls := by
  cases here : s.configured with
  | false =>
      have kept : s.render drawn pw ph = s := by
        rw [render, here]
        rfl
      rw [kept]
      exact iff_of_true h.handshake (Or.inl rfl)
  | true =>
      obtain ⟨held, backed⟩ := furnished here
      have draws : s.render drawn pw ph = (s.draw drawn).present pw ph := by
        rw [render, if_neg]
        simp [here, backed]
      rw [draws]
      have settled := h.quiet (draw_quiet s drawn)
      by_cases faults : s.Faults drawn
      · have ended := (draw_faulted live drawn).mpr faults
        rw [present, if_pos ended]
        exact iff_of_true settled.handshake (Or.inr (Or.inl faults))
      · have goes_on := Bool.eq_false_iff.mpr (mt (draw_faulted live drawn).mp faults)
        rw [handshake_present goes_on, and_iff_right settled.handshake, draw_buffer,
          (draw_quiet s drawn).ready]
        obtain ⟨b, buffer⟩ := Option.ne_none_iff_exists'.mp held
        rw [buffer]
        simp [faults]

theorem draw_pixels (s : Surface) (drawn : Bool) : (s.draw drawn).pixels = s.pixels := by
  unfold draw
  split <;> rfl

theorem present_kept (s : Surface) (pw ph : Int32) :
    (s.present pw ph).buffer = s.buffer ∧ (s.present pw ph).pixels = s.pixels ∧
      (s.present pw ph).configured = s.configured ∧
      (s.pending = none → (s.present pw ph).pending = none) := by
  by_cases ended : s.faulted = true
  · rw [present, if_pos ended]
    exact ⟨rfl, rfl, rfl, id⟩
  · rw [present, if_neg ended]
    simp only [commit, attach, call, true_and, implies_true]

/-- What a render leaves alone. -/
theorem render_kept (s : Surface) (drawn : Bool) (pw ph : Int32) :
    (s.render drawn pw ph).buffer = s.buffer ∧ (s.render drawn pw ph).pixels = s.pixels ∧
      (s.render drawn pw ph).configured = s.configured ∧
      (s.pending = none → (s.render drawn pw ph).pending = none) := by
  by_cases bare : (!s.configured || s.pixels = .null) = true
  · rw [render, if_pos bare]
    exact ⟨rfl, rfl, rfl, id⟩
  · rw [render, if_neg bare]
    have quiet := draw_quiet s drawn
    obtain ⟨buffer, pixels, configured, pending⟩ := present_kept (s.draw drawn) pw ph
    exact ⟨buffer.trans (draw_buffer s drawn), pixels.trans (draw_pixels s drawn),
      configured.trans quiet.configured, fun settled => pending (quiet.pending.trans settled)⟩

theorem Furnished.render (h : s.Furnished) (drawn : Bool) (pw ph : Int32) :
    (s.render drawn pw ph).Furnished := by
  obtain ⟨buffer, pixels, configured, _⟩ := render_kept s drawn pw ph
  unfold Furnished
  rw [buffer, pixels, configured]
  exact h

theorem llConfigure_settled (h : Settled l) (next : l.llConfigure c = some l') :
    Settled l' ∧ l'.Furnished := by
  obtain ⟨l₁, allocated, next⟩ := Option.bind_eq_some_iff.mp next
  obtain rfl := Option.some.inj next
  have quiet := (releaseOld_quiet (l.llAccept c)).trans (allocate_quiet allocated)
  obtain ⟨settled, ready⟩ := accepted h quiet rfl rfl
  have furnished : l₁.Furnished := fun _ => allocate_furnished allocated
  split
  · exact ⟨(settled.render (fun _ _ => ready) _ _ _).1, furnished.render _ _ _⟩
  · exact ⟨settled, furnished⟩

/-- Where the launcher is shown while it is hidden, configured and able to draw, a
configure came since it was last hidden. -/
def ShowsWhenReady (l : Surface) : LauncherEvent → Prop
  | .show drawn =>
      l.faulted = true ∨ l.visible = true ∨ l.configured = false ∨ l.Faults drawn ∨ Ready l.calls
  | _ => True

instance (s : Surface) (drawn : Bool) : Decidable (s.Faults drawn) :=
  inferInstanceAs (Decidable (_ ∧ _))

theorem launcherShow_settled (h : Settled l) (live : l.faulted = false) (furnished : l.Furnished)
    (drawn : Bool) :
    (l.launcherShow drawn).pending = none ∧ (l.launcherShow drawn).Furnished ∧
      (Handshake (l.launcherShow drawn).calls ↔ l.ShowsWhenReady (.show drawn)) := by
  unfold launcherShow
  cases shown : l.visible with
  | true => exact ⟨h.pending, furnished, iff_of_true h.handshake (Or.inr (Or.inl shown))⟩
  | false =>
      have raised : Settled { l with visible := true } := ⟨h.handshake, h.pending⟩
      have settled := raised.commit
      have kept : Furnished { l with visible := true }.commit := furnished
      refine ⟨(render_kept _ _ _ _).2.2.2 settled.pending, kept.render _ _ _, ?_⟩
      refine (handshake_render settled live kept _ _ _).trans ?_
      rw [ready_commit_settled raised, faults_commit]
      simp only [ShowsWhenReady, live, shown, Bool.false_eq_true, false_or]
      rfl

theorem launcherHide_settled (h : Settled l) (furnished : l.Furnished) :
    Settled l.launcherHide ∧ l.launcherHide.Furnished := by
  unfold launcherHide
  split
  · exact ⟨h, furnished⟩
  · have lowered : Settled { l with visible := false } := ⟨h.handshake, h.pending⟩
    exact ⟨lowered.unmap, furnished⟩

/-- One event of the launcher keeps the rule exactly when it meets the condition. -/
theorem launcherStep_settled {e : LauncherEvent} (h : Settled l) (furnished : l.Furnished)
    (next : l.launcherStep e = some l') :
    l'.pending = none ∧ l'.Furnished ∧ (Handshake l'.calls ↔ l.ShowsWhenReady e) := by
  obtain ⟨ended, rfl⟩ | ⟨live, handled⟩ := whileAlive_cases next
  · refine ⟨h.pending, furnished, iff_of_true h.handshake ?_⟩
    cases e with
    | «show» drawn => exact Or.inl ended
    | configure c | hide => trivial
  · cases e with
    | configure c =>
        obtain ⟨settled, kept⟩ := llConfigure_settled h handled
        exact ⟨settled.pending, kept, iff_of_true settled.handshake trivial⟩
    | «show» drawn =>
        obtain rfl := Option.some.inj handled
        exact launcherShow_settled h live furnished drawn
    | hide =>
        obtain rfl := Option.some.inj handled
        obtain ⟨settled, kept⟩ := launcherHide_settled h furnished
        exact ⟨settled.pending, kept, iff_of_true settled.handshake trivial⟩

/-- The panel and the wallpaper keep the rule in every run, the launcher exactly in the
runs that show it only after a configure that came since it was hidden. -/
theorem handshake_kept_iff (panelHeight scale : Int32) (panelEvents : List PanelEvent)
    (wallpaperEvents : List Configure) (launcherEvents : List LauncherEvent) :
    (∀ p, Runs.run panelStep (panelCreate panelHeight scale) panelEvents = some p →
        Handshake p.calls) ∧
      (∀ wp, Runs.run wallpaperStep wallpaperCreate wallpaperEvents = some wp →
        Handshake wp.calls) ∧
      ((∀ l, Runs.Visits launcherStep launcherCreate launcherEvents l → Handshake l.calls) ↔
        ∀ l e, Runs.Takes launcherStep launcherCreate launcherEvents l e →
          l.ShowsWhenReady e) := by
  refine ⟨fun p ran => ?_, fun wp ran => ?_, ?_⟩
  · have settled := Runs.run_invariant (fun _ _ _ h next => panelStep_settled h next)
      (panelCreate_settled panelHeight scale) ran
    exact settled.1.handshake
  · have bare : Settled { shmFd := -1 : Surface } := ⟨handshake_nil, rfl⟩
    have start : Settled wallpaperCreate := bare.commit
    have settled := Runs.run_invariant (fun _ _ _ h next => wallpaperStep_settled h next) start ran
    exact settled.handshake
  · have start : launcherCreate.pending = none ∧ launcherCreate.Furnished := ⟨rfl, nofun⟩
    refine Runs.visits_iff_takes (fun l => l.pending = none ∧ l.Furnished)
      (fun l => Handshake l.calls) ShowsWhenReady ?_ ?_ start handshake_nil launcherEvents
    · intro l e l' ⟨pending, furnished⟩ kept _ next
      obtain ⟨pending', furnished', _⟩ := launcherStep_settled ⟨kept, pending⟩ furnished next
      exact ⟨pending', furnished'⟩
    · intro l e l' ⟨pending, furnished⟩ kept next
      exact (launcherStep_settled ⟨kept, pending⟩ furnished next).2.2

/-- Shown, hidden and shown again: the second show commits a buffer that no configure
allows. -/
theorem shown_again_without_configure :
    ∃ l, Runs.Visits launcherStep launcherCreate
        [.show true, .configure (.small ⟨5, some 4096, 1, 2⟩), .hide, .show true] l ∧
      ¬ Handshake l.calls := by
  have ends : (Runs.run launcherStep launcherCreate
      [.show true, .configure (.small ⟨5, some 4096, 1, 2⟩), .hide, .show true]).any
      (fun l => l.calls.getLast? = some (.commit (some (some 2))) ∧
        ¬ Ready l.calls.dropLast) = true := by
    decide +kernel
  obtain ⟨l, ran, stream⟩ := Option.any_eq_true _ _ |>.mp ends
  obtain ⟨last, late⟩ := of_decide_eq_true stream
  refine ⟨l, Runs.visits_of_run ran, fun kept => late ?_⟩
  have split := List.dropLast_append_getLast? _ last
  exact kept l.calls.dropLast _ [] split.symm 2 rfl

end Surface
end LunaOS.Shell
