import LunaOS.Shell.Main
import Mathlib.Data.List.Nodup

/-!
The panels of the shell. The function that redraws the clock is the one that creates a
panel: it asks for a new layer surface and keeps no record of the old one. So every turn
of the event loop in a new second adds a panel to each output that has a size, and an
output keeps one panel exactly as long as no step adds to one that is there.
-/
namespace LunaOS.Shell

def LayerSurface.isPanel (n : Nat) (ls : LayerSurface) : Bool :=
  ls.nameSpace = "luna-panel" && ls.output = n

/-- A positive exclusive zone takes its strip from the output. -/
def LayerSurface.reserves (n : Nat) (ls : LayerSurface) : Bool :=
  0 < ls.exclusiveZone && ls.output = n

namespace LunaShell
variable {s s' : LunaShell}

def panelCount (s : LunaShell) (n : Nat) : Nat :=
  s.surfaces.countP (LayerSurface.isPanel n)

def zoneCount (s : LunaShell) (n : Nat) : Nat :=
  s.surfaces.countP (LayerSurface.reserves n)

/-- Every output has at most one panel, and at most one strip is taken from it. -/
def OnePanel (s : LunaShell) : Prop :=
  ∀ n, s.panelCount n ≤ 1 ∧ s.zoneCount n ≤ 1

def MakesPanel (s : LunaShell) (a : MainStep) (n : Nat) : Prop :=
  match a with
  | .first events _ panel =>
      (∃ todo, s.phase = .running (n :: todo)) ∧ panel.Succeeds ∧
        ∃ out ∈ (s.handleEvents events).outputs, out.wlOutput = n ∧ 0 < out.width
  | .dispatch events now panels =>
      now ≠ s.lastSec ∧ (panels n).Succeeds ∧
        ∃ out ∈ (s.handleEvents events).outputs, out.wlOutput = n ∧ 0 < out.width
  | _ => False

instance decidableTurn (n : Nat) :
    (phase : MainPhase) → Decidable (∃ todo, phase = .running (n :: todo))
  | .running (m :: todo) =>
      decidable_of_iff (m = n)
        ⟨fun same => ⟨todo, by rw [same]⟩, fun ⟨_, same⟩ => by cases same; rfl⟩
  | .running [] | .announcing _ | .exited => isFalse fun ⟨_, same⟩ => by cases same

instance decidableMakesPanel (n : Nat) (s : LunaShell) :
    (a : MainStep) → Decidable (s.MakesPanel a n)
  | .first .. | .dispatch .. => inferInstanceAs (Decidable (_ ∧ _ ∧ _))
  | .roundtrip _ | .dispatchFailed => inferInstanceAs (Decidable False)

/-- How many steps of a run create a panel for output `n`. -/
def panelTurns (n : Nat) (s : LunaShell) (steps : List MainStep) : Nat :=
  Runs.tally step (fun s a => s.MakesPanel a n) s steps

def MakesFirst (s : LunaShell) (a : MainStep) : Prop :=
  ∀ n, s.MakesPanel a n → s.panelCount n = 0

/-- The outputs are named by the order of their binding, the last one first, and a
surface takes a strip when it is a panel. -/
structure Tidy (s : LunaShell) : Prop where
  names : s.outputs.map LunaOutput.wlOutput = (List.range s.outputs.length).reverse
  zones : ∀ ls ∈ s.surfaces, ∀ n, ls.reserves n = ls.isPanel n

theorem tidy_start : Tidy {} where
  names := rfl
  zones := fun _ mem => absurd mem List.not_mem_nil

theorem Tidy.distinct (h : s.Tidy) : (s.outputs.map LunaOutput.wlOutput).Nodup := by
  rw [h.names]
  exact List.nodup_reverse.mpr List.nodup_range

theorem Tidy.zoneCount_eq (h : s.Tidy) (n : Nat) : s.zoneCount n = s.panelCount n :=
  List.countP_congr fun ls mem => by rw [h.zones ls mem n]

theorem Tidy.onePanel_iff (h : s.Tidy) : s.OnePanel ↔ ∀ n, s.panelCount n ≤ 1 := by
  refine forall_congr' fun n => ?_
  rw [h.zoneCount_eq n]
  exact and_self_iff

/-! Events. -/

/-- An event of the compositor changes what is known of the outputs and nothing else. -/
structure KeepsSurfaces (s s' : LunaShell) : Prop where
  surfaces : s'.surfaces = s.surfaces
  lastSec : s'.lastSec = s.lastSec
  phase : s'.phase = s.phase
  tidy : s.Tidy → s'.Tidy

theorem updateOutput_keeps (s : LunaShell) (n : Nat) {f : LunaOutput → LunaOutput}
    (same : ∀ out, (f out).wlOutput = out.wlOutput) : KeepsSurfaces s (s.updateOutput n f) := by
  refine ⟨rfl, rfl, rfl, fun h => ⟨?_, h.zones⟩⟩
  have names : (s.updateOutput n f).outputs.map LunaOutput.wlOutput =
      s.outputs.map LunaOutput.wlOutput := by
    rw [updateOutput, List.map_map]
    refine List.map_congr_left fun out _ => ?_
    simp only [Function.comp]
    split
    · exact same out
    · rfl
  rw [names, h.names, updateOutput, List.length_map]

theorem handleEvent_keeps (s : LunaShell) (e : WlEvent) : KeepsSurfaces s (s.handleEvent e) := by
  cases e with
  | globalCompositor | globalShm | globalLayerShell => exact ⟨rfl, rfl, rfl, fun h => ⟨h.1, h.2⟩⟩
  | globalOutput =>
      refine ⟨rfl, rfl, rfl, fun h => ⟨?_, h.zones⟩⟩
      simp only [handleEvent, List.map_cons, List.length_cons, List.range_succ,
        List.reverse_append, List.reverse_singleton, h.names, List.singleton_append]
  | outputMode n flags w ht =>
      simp only [handleEvent]
      split
      · exact updateOutput_keeps s n fun _ => rfl
      · exact ⟨rfl, rfl, rfl, id⟩
  | outputScale n f => exact updateOutput_keeps s n fun _ => rfl

theorem handleEvents_keeps (s : LunaShell) (events : List WlEvent) :
    KeepsSurfaces s (s.handleEvents events) := by
  induction events generalizing s with
  | nil => exact ⟨rfl, rfl, rfl, id⟩
  | cons e events ih =>
      have head := handleEvent_keeps s e
      have rest := ih (s.handleEvent e)
      exact ⟨rest.surfaces.trans head.surfaces, rest.lastSec.trans head.lastSec,
        rest.phase.trans head.phase, fun h => rest.tidy (head.tidy h)⟩

/-! What is created. -/

theorem panel_isPanel (out : LunaOutput) (n : Nat) :
    out.panel.isPanel n = decide (out.wlOutput = n) := by
  rw [LayerSurface.isPanel, show out.panel.nameSpace = "luna-panel" from rfl,
    decide_eq_true rfl, Bool.true_and]
  rfl

theorem wallpaper_isPanel (out : LunaOutput) (n : Nat) : out.wallpaper.isPanel n = false := by
  simp [LayerSurface.isPanel, LunaOutput.wallpaper]

theorem Tidy.append (h : s.Tidy) {new : LayerSurface}
    (zone : ∀ n, new.reserves n = new.isPanel n) :
    ({ s with surfaces := s.surfaces ++ [new] } : LunaShell).Tidy where
  names := h.names
  zones := by
    intro ls mem n
    cases List.mem_append.mp mem with
    | inl old => exact h.zones ls old n
    | inr added =>
        obtain rfl := List.mem_singleton.mp added
        exact zone n

theorem Tidy.createPanel (h : s.Tidy) (out : LunaOutput) (o : ShmOutcome) :
    (s.createPanelForOutput out o).Tidy := by
  unfold createPanelForOutput
  split
  · apply h.append
    intro n
    rw [panel_isPanel]
    rfl
  · exact h

theorem Tidy.createWallpaper (h : s.Tidy) (out : LunaOutput) (o : ShmOutcome) :
    (s.createWallpaperForOutput out o).Tidy := by
  unfold createWallpaperForOutput
  split
  · apply h.append
    intro n
    rw [wallpaper_isPanel]
    rfl
  · exact h

theorem createPanel_count (s : LunaShell) (out : LunaOutput) (o : ShmOutcome) (n : Nat) :
    (s.createPanelForOutput out o).panelCount n =
      s.panelCount n + if o.Succeeds ∧ out.wlOutput = n then 1 else 0 := by
  unfold createPanelForOutput
  by_cases ok : o.Succeeds
  · rw [if_pos ok, panelCount, List.countP_append, List.countP_singleton, panel_isPanel]
    simp [panelCount, ok]
  · rw [if_neg ok]
    simp [ok]

theorem createWallpaper_count (s : LunaShell) (out : LunaOutput) (o : ShmOutcome) (n : Nat) :
    (s.createWallpaperForOutput out o).panelCount n = s.panelCount n := by
  unfold createWallpaperForOutput
  split
  · rw [panelCount, List.countP_append, List.countP_singleton, wallpaper_isPanel]
    rfl
  · rfl

theorem createFirst_tidy (h : s.Tidy) (out : LunaOutput) (wallpaper panel : ShmOutcome) :
    (s.createFirst out wallpaper panel).Tidy := by
  unfold createFirst
  split
  · exact (h.createWallpaper out wallpaper).createPanel out panel
  · exact h

theorem createFirst_count (s : LunaShell) (out : LunaOutput) (wallpaper panel : ShmOutcome)
    (n : Nat) :
    (s.createFirst out wallpaper panel).panelCount n =
      s.panelCount n +
        if panel.Succeeds ∧ out.wlOutput = n ∧ 0 < out.width then 1 else 0 := by
  unfold createFirst
  by_cases sized : 0 < out.width
  · rw [if_pos sized, createPanel_count, createWallpaper_count]
    simp [sized]
  · rw [if_neg sized]
    simp [sized]

def redraw (panels : Nat → ShmOutcome) (s : LunaShell) (out : LunaOutput) : LunaShell :=
  if 0 < out.width then s.createPanelForOutput out (panels out.wlOutput) else s

theorem redraw_count (panels : Nat → ShmOutcome) (s : LunaShell) (out : LunaOutput) (n : Nat) :
    (redraw panels s out).panelCount n =
      s.panelCount n +
        if (panels n).Succeeds ∧ out.wlOutput = n ∧ 0 < out.width then 1 else 0 := by
  unfold redraw
  by_cases sized : 0 < out.width
  · rw [if_pos sized, createPanel_count]
    by_cases named : out.wlOutput = n
    · simp [named, sized]
    · simp [named]
  · rw [if_neg sized]
    simp [sized]

theorem redraws_tidy (h : s.Tidy) (panels : Nat → ShmOutcome) (outs : List LunaOutput) :
    (outs.foldl (redraw panels) s).Tidy := by
  induction outs generalizing s with
  | nil => exact h
  | cons out outs ih =>
      refine ih ?_
      unfold redraw
      split
      · exact h.createPanel out _
      · exact h

/-- A redraw adds one panel to each output that has a size and gets memory. -/
theorem redraws_count (panels : Nat → ShmOutcome) (s : LunaShell) {outs : List LunaOutput}
    (distinct : (outs.map LunaOutput.wlOutput).Nodup) (n : Nat) :
    (outs.foldl (redraw panels) s).panelCount n =
      s.panelCount n +
        if (panels n).Succeeds ∧ ∃ out ∈ outs, out.wlOutput = n ∧ 0 < out.width then 1 else 0 := by
  induction outs generalizing s with
  | nil => simp
  | cons out outs ih =>
      obtain ⟨own, rest⟩ := List.nodup_cons.mp distinct
      rw [List.foldl_cons, ih _ rest, redraw_count]
      by_cases named : out.wlOutput = n
      · have once : ¬ ∃ out ∈ outs, out.wlOutput = n ∧ 0 < out.width := by
          rintro ⟨other, mem, same, _⟩
          exact own (named ▸ same ▸ List.mem_map_of_mem mem)
        simp [named, once]
      · simp [named]

/-! One step. -/

/-- The count goes up by one where a panel is made, and nowhere else. -/
def Counts (s s' : LunaShell) (a : MainStep) : Prop :=
  ∀ n, (s.MakesPanel a n → s'.panelCount n = s.panelCount n + 1) ∧
    (¬ s.MakesPanel a n → s'.panelCount n = s.panelCount n)

theorem counts_of {a : MainStep} {n : Nat} {q : Prop} [Decidable q]
    (count : s'.panelCount n = s.panelCount n + if q then 1 else 0)
    (made : s.MakesPanel a n ↔ q) :
    (s.MakesPanel a n → s'.panelCount n = s.panelCount n + 1) ∧
      (¬ s.MakesPanel a n → s'.panelCount n = s.panelCount n) := by
  rw [made]
  constructor
  · intro yes
    rw [count, if_pos yes]
  · intro no
    rw [count, if_neg no, Nat.add_zero]

theorem counts_none {a : MainStep} (none_made : ∀ n, ¬ s.MakesPanel a n)
    (same : s'.surfaces = s.surfaces) : Counts s s' a :=
  fun n => ⟨fun made => absurd made (none_made n), fun _ => by rw [panelCount, same, panelCount]⟩

theorem first_counts {n : Nat} {todo : List Nat} (phase : s.phase = .running (n :: todo))
    (h : s.Tidy) {events : List WlEvent} {wallpaper panel : ShmOutcome}
    (taken : s.step (.first events wallpaper panel) = some s') :
    s'.Tidy ∧ Counts s s' (.first events wallpaper panel) := by
  have keeps := handleEvents_keeps s events
  simp only [step, phase] at taken
  obtain ⟨out, found, rfl⟩ := Option.map_eq_some_iff.mp taken
  have mem := List.mem_of_find?_eq_some found
  have named : out.wlOutput = n := by simpa using List.find?_some found
  have tidy := createFirst_tidy (keeps.tidy h) out wallpaper panel
  refine ⟨⟨tidy.names, tidy.zones⟩, fun m => ?_⟩
  have count := createFirst_count (s.handleEvents events) out wallpaper panel m
  have before : (s.handleEvents events).panelCount m = s.panelCount m := by
    rw [panelCount, keeps.surfaces, panelCount]
  rw [before] at count
  refine counts_of count ?_
  constructor
  · rintro ⟨⟨todo', here⟩, ok, other, mem', named', sized⟩
    have first : m = n := by
      rw [phase, MainPhase.running.injEq, List.cons.injEq] at here
      exact here.1.symm
    have same : other = out :=
      List.inj_on_of_nodup_map (keeps.tidy h).distinct mem' mem
        (named'.trans (first.trans named.symm))
    exact ⟨ok, same ▸ named', same ▸ sized⟩
  · rintro ⟨ok, rfl, sized⟩
    exact ⟨⟨todo, named ▸ phase⟩, ok, out, mem, rfl, sized⟩

theorem dispatch_counts (phase : s.phase = .running []) (h : s.Tidy) {events : List WlEvent}
    {now : Int64} {panels : Nat → ShmOutcome}
    (taken : s.step (.dispatch events now panels) = some s') :
    s'.Tidy ∧ Counts s s' (.dispatch events now panels) := by
  have keeps := handleEvents_keeps s events
  have tidy := keeps.tidy h
  simp only [step, phase, keeps.lastSec] at taken
  by_cases later : now ≠ s.lastSec
  · rw [if_pos later] at taken
    obtain rfl := Option.some.inj taken
    have stamped : LunaShell.Tidy { s.handleEvents events with lastSec := now } :=
      ⟨tidy.names, tidy.zones⟩
    refine ⟨redraws_tidy stamped panels _, fun m => ?_⟩
    have count := redraws_count panels { s.handleEvents events with lastSec := now }
      tidy.distinct m
    have before : LunaShell.panelCount { s.handleEvents events with lastSec := now } m =
        s.panelCount m := by
      rw [panelCount, keeps.surfaces, panelCount]
    rw [before] at count
    exact counts_of count (and_iff_right later)
  · rw [if_neg later] at taken
    obtain rfl := Option.some.inj taken
    exact ⟨tidy, counts_none (fun n made => later made.1) keeps.surfaces⟩

theorem roundtrip_counts (h : s.Tidy) {events : List WlEvent}
    (taken : s.step (.roundtrip events) = some s') :
    s'.Tidy ∧ Counts s s' (.roundtrip events) := by
  have keeps := handleEvents_keeps s events
  have tidy := keeps.tidy h
  have nothing : ∀ n, ¬ s.MakesPanel (.roundtrip events) n := fun _ => id
  cases phase : s.phase with
  | announcing left =>
      match left with
      | 0 => simp [step, phase] at taken
      | 1 =>
          simp only [step, phase] at taken
          split at taken <;> obtain rfl := Option.some.inj taken <;>
            exact ⟨⟨tidy.names, tidy.zones⟩, counts_none nothing keeps.surfaces⟩
      | n + 2 =>
          simp only [step, phase] at taken
          obtain rfl := Option.some.inj taken
          exact ⟨⟨tidy.names, tidy.zones⟩, counts_none nothing keeps.surfaces⟩
  | running todo => simp [step, phase] at taken
  | exited => simp [step, phase] at taken

theorem step_counts (h : s.Tidy) {a : MainStep} (taken : s.step a = some s') :
    s'.Tidy ∧ Counts s s' a := by
  cases a with
  | roundtrip events => exact roundtrip_counts h taken
  | first events wallpaper panel =>
      match phase : s.phase with
      | .running (n :: todo) => exact first_counts phase h taken
      | .running [] | .announcing _ | .exited => simp [step, phase] at taken
  | dispatch events now panels =>
      match phase : s.phase with
      | .running [] => exact dispatch_counts phase h taken
      | .running (n :: todo) | .announcing _ | .exited => simp [step, phase] at taken
  | dispatchFailed =>
      match phase : s.phase with
      | .running [] =>
          simp only [step, phase] at taken
          obtain rfl := Option.some.inj taken
          exact ⟨⟨h.names, h.zones⟩, counts_none (fun _ => id) rfl⟩
      | .running (n :: todo) | .announcing _ | .exited => simp [step, phase] at taken

theorem step_panelCount (n : Nat) (s : LunaShell) (a : MainStep) (s' : LunaShell) (h : s.Tidy)
    (taken : s.step a = some s') :
    s'.Tidy ∧ s'.panelCount n = s.panelCount n + if s.MakesPanel a n then 1 else 0 := by
  obtain ⟨tidy, counts⟩ := step_counts h taken
  refine ⟨tidy, ?_⟩
  by_cases made : s.MakesPanel a n
  · rw [if_pos made]
    exact (counts n).1 made
  · rw [if_neg made]
    exact (counts n).2 made

/-- A step leaves every output with one panel at most exactly when it makes a panel only
where there is none. -/
theorem step_onePanel_iff (h : s.Tidy) (now : s.OnePanel) {a : MainStep}
    (taken : s.step a = some s') : s'.OnePanel ↔ s.MakesFirst a := by
  obtain ⟨tidy, counts⟩ := step_counts h taken
  rw [tidy.onePanel_iff]
  constructor
  · intro one n made
    have more := (counts n).1 made
    have bound := one n
    omega
  · intro firsts n
    by_cases made : s.MakesPanel a n
    · have more := (counts n).1 made
      have first := firsts n made
      omega
    · rw [(counts n).2 made]
      exact (now n).1

/-- No output gets a second panel exactly when none has two turns that create one. -/
theorem onePanel_iff_turns (steps : List MainStep) :
    (∀ s, Runs.Visits step {} steps s → s.OnePanel) ↔ ∀ n, panelTurns n {} steps ≤ 1 := by
  have each (n : Nat) := Runs.visits_le_iff_tally (step_panelCount n) tidy_start steps 1
  have empty (n : Nat) : panelCount {} n = 0 := rfl
  simp only [empty, Nat.zero_add] at each
  have tidy (s : LunaShell) (visited : Runs.Visits step {} steps s) : s.Tidy := by
    obtain ⟨before, _, _, reached⟩ := visited
    exact Runs.run_invariant (fun _ _ _ h taken => (step_counts h taken).1) tidy_start reached
  constructor
  · intro one n
    exact (each n).mp fun s visited => (one s visited n).1
  · intro few s visited
    exact (tidy s visited).onePanel_iff.mpr fun n => (each n).mpr (few n) s visited

/-- In every run of the shell each output has at most one panel, and at most one
exclusive zone, in every state if and only if no step of the run creates a panel for an
output that has one, and so if and only if each output has at most one turn in the run
that creates a panel for it. -/
theorem one_panel_iff (steps : List MainStep) :
    ((∀ s, Runs.Visits step {} steps s → s.OnePanel) ↔
      ∀ s a, Runs.Takes step {} steps s a → s.MakesFirst a) ∧
    ((∀ s, Runs.Visits step {} steps s → s.OnePanel) ↔ ∀ n, panelTurns n {} steps ≤ 1) := by
  refine ⟨Runs.visits_iff_takes Tidy OnePanel MakesFirst ?_ ?_ tidy_start ?_ steps,
    onePanel_iff_turns steps⟩
  · intro s a s' h _ _ taken
    exact (step_counts h taken).1
  · intro s a s' h now taken
    exact step_onePanel_iff h now taken
  · intro n
    exact ⟨Nat.zero_le 1, Nat.zero_le 1⟩

/-- One output gets its first panel, and a second one in the first turn of the loop. -/
theorem second_panel_after_dispatch :
    ∃ s, Runs.Visits step {}
      [.roundtrip [.globalCompositor, .globalShm, .globalLayerShell, .globalOutput],
        .roundtrip [.outputMode 0 1 1920 1080], .first [] ⟨3, true⟩ ⟨4, true⟩,
        .dispatch [] 1 fun _ => ⟨4, true⟩] s ∧ ¬ s.OnePanel := by
  let steps : List MainStep :=
    [.roundtrip [.globalCompositor, .globalShm, .globalLayerShell, .globalOutput],
      .roundtrip [.outputMode 0 1 1920 1080], .first [] ⟨3, true⟩ ⟨4, true⟩,
      .dispatch [] 1 fun _ => ⟨4, true⟩]
  have ends : (Runs.run step {} steps).any (fun s => s.panelCount 0 = 2) = true := by
    decide +kernel
  obtain ⟨s, reached, two⟩ := (Option.any_eq_true _ _).mp ends
  refine ⟨s, Runs.visits_of_run reached, fun one => ?_⟩
  have bound := (one 0).1
  have count : s.panelCount 0 = 2 := of_decide_eq_true two
  omega

end LunaShell
end LunaOS.Shell
