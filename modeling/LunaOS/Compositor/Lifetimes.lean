import LunaOS.Compositor.Stacking

/-!
Objects that outlive one another. `view_destroy` unlinks a view from `server.views`
and frees it, but leaves its `map` and `unmap` listeners in the signals of the
`wl_surface`; nothing listens to the destruction of a `wlr_output`, so its
`luna_output` stays in `server.outputs`. All other lifecycle orders are sound.
-/
namespace LunaOS.Compositor
open Rings

def Surface.listeners (surface : Surface) : List Nat :=
  surface.mapSignal ++ surface.unmapSignal

namespace Windows

/-- Only live views listen to a living surface. -/
def ListenersLive (ws : Windows) : Prop :=
  ∀ w surface, ws.surface w = some surface → ∀ v ∈ surface.listeners, (ws.view v).isSome

/-- A view listens to the surface of its toplevel and to no other. -/
structure Listening (ws : Windows) : Prop where
  linked : ∀ n xdg surface, ws.xdgSurface n = some xdg → xdg.role = .toplevel →
    ws.surface xdg.surface = some surface → n ∈ surface.listeners
  placed : ∀ w surface v, ws.surface w = some surface → v ∈ surface.listeners →
    v < ws.created ∧ ∀ xdg, ws.xdgSurface v = some xdg → xdg.surface = w

variable {ws ws' : Windows}

theorem listening_start : Listening {} where
  linked := by intro n xdg surface held; cases held
  placed := by
    intro w surface v held listens
    obtain rfl := Option.some.inj held
    cases listens

theorem Listening.congr (h : ws.Listening) (same : SameObjects ws ws') : ws'.Listening where
  linked := by
    intro n x' surface here role on
    obtain ⟨x, there, place⟩ := exists_of_map_eq (same.xdg n) here
    rw [same.surface, ← show x.surface = x'.surface from congrArg (·.1) place] at on
    exact h.linked n x surface there ((congrArg (·.2.1) place).trans role) on
  placed := by
    intro w surface v on listens
    obtain ⟨old, placed⟩ := h.placed w surface v (same.surface ▸ on) listens
    refine ⟨same.created ▸ old, fun x' here => ?_⟩
    obtain ⟨x, there, place⟩ := exists_of_map_eq (same.xdg v) here
    exact (congrArg (·.1) place).symm.trans (placed x there)

theorem ListenersLive.congr (live : ws.ListenersLive) (same : SameObjects ws ws') :
    ws'.ListenersLive := by
  intro w surface on v listens
  exact (same.isSome_iff v).mpr (live w surface (same.surface ▸ on) v listens)

/-! A new xdg surface. -/

/-- The listeners of a surface after the announcement: the new view joins those of
its own surface. -/
theorem Announced.listeners {w : Nat} {role : Role} {surface : Surface}
    (a : Announced ws ws' w role surface) {w' : Nat} {surface' : Surface}
    (on : ws'.surface w' = some surface') {v : Nat} :
    v ∈ surface'.listeners ↔ (role = .toplevel ∧ w' = w ∧ v = ws.created) ∨
      ∃ old, ws.surface w' = some old ∧ v ∈ old.listeners := by
  rw [a.surface] at on
  by_cases e : w' = w
  · rw [e, Function.update_self] at on
    obtain rfl := Option.some.inj on
    rw [e, a.free.1]
    by_cases toplevel : role = .toplevel
    · simp only [Surface.listeners, toplevel, if_true, List.mem_append, List.mem_singleton,
        true_and, Option.some.injEq, exists_eq_left']
      grind
    · simp [Surface.listeners, toplevel]
  · rw [Function.update_of_ne e] at on
    simp [e, on]

theorem Announced.listening {w : Nat} {role : Role} {surface : Surface}
    (a : Announced ws ws' w role surface) (h : ws.Consistent) (listening : ws.Listening) :
    ws'.Listening where
  linked := by
    intro n xdg sf held toplevel on
    rw [a.listeners on]
    rw [a.xdgSurface] at held
    by_cases e : n = ws.created
    · rw [e, Function.update_self] at held
      obtain rfl := Option.some.inj held
      exact Or.inl ⟨toplevel, rfl, e⟩
    · rw [Function.update_of_ne e] at held
      obtain ⟨old, there, _⟩ := h.role n xdg held
      exact Or.inr ⟨old, there, listening.linked n xdg old held toplevel there⟩
  placed := by
    intro w' sf v on listens
    rw [a.created, a.xdgSurface]
    rcases (a.listeners on).mp listens with ⟨_, rfl, rfl⟩ | ⟨old, there, listens⟩
    · refine ⟨Nat.lt_succ_self _, fun xdg held => ?_⟩
      rw [Function.update_self] at held
      obtain rfl := Option.some.inj held
      rfl
    · obtain ⟨lt, placed⟩ := listening.placed w' old v there listens
      refine ⟨Nat.lt_succ_of_lt lt, fun xdg held => ?_⟩
      rw [Function.update_of_ne (by omega)] at held
      exact placed xdg held

theorem Announced.listenersLive {w : Nat} {role : Role} {surface : Surface}
    (a : Announced ws ws' w role surface) (live : ws.ListenersLive) : ws'.ListenersLive := by
  intro w' sf on v listens
  rw [a.view]
  rcases (a.listeners on).mp listens with ⟨toplevel, rfl, rfl⟩ | ⟨old, there, listens⟩
  · rw [if_pos toplevel, Function.update_self]
    rfl
  · have before := live w' old there v listens
    split
    · by_cases e : v = ws.created
      · rw [e, Function.update_self]
        rfl
      · rwa [Function.update_of_ne e]
    · exact before

/-! An xdg surface or a surface is destroyed. -/

theorem Destroyed.surface_some {n : Nat} {xdg : XdgSurface} (d : Destroyed ws ws' n xdg)
    {w : Nat} {surface' : Surface} (on : ws'.surface w = some surface') :
    ∃ surface, ws.surface w = some surface ∧ surface'.listeners = surface.listeners := by
  rw [d.surface] at on
  by_cases e : w = xdg.surface
  · rw [e, Function.update_self] at on
    obtain ⟨surface, there, rfl⟩ := Option.map_eq_some_iff.mp on
    exact ⟨surface, e ▸ there, rfl⟩
  · rw [Function.update_of_ne e] at on
    exact ⟨surface', on, rfl⟩

theorem Destroyed.xdg_some {n m : Nat} {xdg x : XdgSurface} (d : Destroyed ws ws' n xdg)
    (held : ws'.xdgSurface m = some x) : m ≠ n ∧ ws.xdgSurface m = some x := by
  rw [d.xdgSurface] at held
  by_cases e : m = n
  · rw [e, Function.update_self] at held
    cases held
  · rw [Function.update_of_ne e] at held
    exact ⟨e, held⟩

theorem Destroyed.listening {n : Nat} {xdg : XdgSurface} (d : Destroyed ws ws' n xdg)
    (listening : ws.Listening) : ws'.Listening where
  linked := by
    intro m x surface' held toplevel on
    obtain ⟨surface, there, same⟩ := d.surface_some on
    rw [same]
    exact listening.linked m x surface (d.xdg_some held).2 toplevel there
  placed := by
    intro w surface' v on listens
    obtain ⟨surface, there, same⟩ := d.surface_some on
    obtain ⟨lt, placed⟩ := listening.placed w surface v there (same ▸ listens)
    exact ⟨d.created ▸ lt, fun x held => placed x (d.xdg_some held).2⟩

theorem Destroyed.view_ne {n v : Nat} {xdg : XdgSurface} (d : Destroyed ws ws' n xdg)
    (other : v ≠ n) : ws'.view v = ws.view v := by
  rw [d.view, Function.update_of_ne other]

/-- The freed view of a toplevel keeps listening to its surface. -/
theorem Destroyed.listenersLive_iff {n : Nat} {xdg : XdgSurface} (d : Destroyed ws ws' n xdg)
    (h : ws.Consistent) (listening : ws.Listening) (live : ws.ListenersLive) :
    ws'.ListenersLive ↔ ¬ ws.Toplevel n := by
  constructor
  · rintro live' ⟨xdg', held, toplevel⟩
    obtain rfl := Option.some.inj (d.was.symm.trans held)
    obtain ⟨surface, on, _⟩ := h.role n xdg held
    have listens := listening.linked n xdg surface held toplevel on
    have gone := live' xdg.surface { surface with xdgSurface := none }
      (by rw [d.surface, Function.update_self, on]; rfl) n listens
    rw [d.view, Function.update_self] at gone
    cases gone
  · intro other w surface' on v listens
    obtain ⟨surface, there, same⟩ := d.surface_some on
    have before := live w surface there v (same ▸ listens)
    rw [d.view_ne]
    · exact before
    · rintro rfl
      exact other ((h.toplevel v).mp before)

theorem Listening.dropSurface (h : ws.Listening) (w : Nat) :
    { ws with surface := Function.update ws.surface w none }.Listening := by
  have kept {w' : Nat} {surface : Surface}
      (on : Function.update ws.surface w none w' = some surface) :
      w' ≠ w ∧ ws.surface w' = some surface := by
    by_cases e : w' = w
    · rw [e, Function.update_self] at on
      cases on
    · rw [Function.update_of_ne e] at on
      exact ⟨e, on⟩
  constructor
  · intro n xdg surface held toplevel on
    exact h.linked n xdg surface held toplevel (kept on).2
  · intro w' surface v on listens
    exact h.placed w' surface v (kept on).2 listens

theorem Consistent.surfaceDestroy_listening (h : ws.Consistent) (listening : ws.Listening)
    {w : Nat} (next : ws.surfaceDestroy w = some ws') : ws'.Listening := by
  obtain ⟨mid, before, _, rfl⟩ := h.surfaceDestroy_cases next
  rcases before with rfl | ⟨n, xdg, d, _⟩
  · exact listening.dropSurface w
  · exact (d.listening listening).dropSurface w

/-- With its surface a view loses the only signals that it listens to. -/
theorem Consistent.surfaceDestroy_listenersLive (h : ws.Consistent) (listening : ws.Listening)
    (live : ws.ListenersLive) {w : Nat} (next : ws.surfaceDestroy w = some ws') :
    ws'.ListenersLive := by
  obtain ⟨mid, before, _, rfl⟩ := h.surfaceDestroy_cases next
  intro w' surface' on v listens
  change Function.update mid.surface w none w' = some surface' at on
  change (mid.view v).isSome
  have other : w' ≠ w := by
    rintro rfl
    rw [Function.update_self] at on
    cases on
  rw [Function.update_of_ne other] at on
  rcases before with rfl | ⟨n, xdg, d, placed⟩
  · exact live w' surface' on v listens
  · obtain ⟨surface, there, same⟩ := d.surface_some on
    rw [same] at listens
    rw [d.view_ne]
    · exact live w' surface there v listens
    · rintro rfl
      exact other (((listening.placed w' surface v there listens).2 xdg d.was).symm.trans placed)

end Windows
namespace Outputs

/-- The list of outputs, the latest first; nothing is ever taken out of it. -/
structure Listed (os : Outputs) : Prop where
  ring : Ring os.outputs (none :: (List.range os.created).reverse.map some)
  output : ∀ o, o < os.created → os.output o = some { wlrOutput := o }
  wlrOutput : ∀ o wlr, os.wlrOutput o = some wlr → o < os.created ∧ wlr.frameSignal = [o]

def AllAlive (os : Outputs) : Prop :=
  ∀ o, o < os.created → (os.wlrOutput o).isSome

variable {os os' : Outputs}

theorem listed_start : Listed {} where
  ring := ring_init _ none
  output := by intro o new; exact absurd new (Nat.not_lt_zero o)
  wlrOutput := by intro o wlr held; cases held

theorem Listed.mem_iff (h : os.Listed) (o : Nat) :
    Linked os.outputs none (some o) ↔ o < os.created := by
  have listed : some o ∈ (List.range os.created).reverse.map some ↔ o < os.created := by simp
  constructor
  · intro linked
    have member := h.ring.linked_mem List.mem_cons_self linked
    exact listed.mp ((List.mem_cons.mp member).resolve_left nofun)
  · intro old
    exact h.ring.linked_of_mem (listed.mpr old)

theorem Listed.serverNewOutput (h : os.Listed) {scale : Rat} {modes : List Mode}
    (next : os.serverNewOutput scale modes = some os') : os'.Listed := by
  have unlisted : some os.created ∉ none :: (List.range os.created).reverse.map some := by simp
  obtain ⟨links, inserted, ring⟩ := h.ring.insertHead unlisted
  rw [Outputs.serverNewOutput, inserted, Option.map_some] at next
  obtain rfl := Option.some.inj next
  refine ⟨?_, ?_, ?_⟩
  · rw [List.range_succ, List.reverse_append]
    exact ring
  · intro o old
    change Function.update os.output os.created _ o = _
    by_cases e : o = os.created
    · rw [e, Function.update_self]
    · rw [Function.update_of_ne e]
      exact h.output o (Nat.lt_of_le_of_ne (Nat.le_of_lt_succ old) e)
  · intro o wlr held
    change Function.update os.wlrOutput os.created _ o = _ at held
    by_cases e : o = os.created
    · rw [e, Function.update_self] at held
      obtain rfl := Option.some.inj held
      exact ⟨e ▸ Nat.lt_succ_self _, by rw [e]⟩
    · rw [Function.update_of_ne e] at held
      obtain ⟨lt, signal⟩ := h.wlrOutput o wlr held
      exact ⟨Nat.lt_succ_of_lt lt, signal⟩

theorem serverNewOutput_allAlive (alive : os.AllAlive) {scale : Rat} {modes : List Mode}
    (next : os.serverNewOutput scale modes = some os') : os'.AllAlive := by
  obtain ⟨links, _, rfl⟩ := Option.map_eq_some_iff.mp next
  intro o old
  change (Function.update os.wlrOutput os.created _ o).isSome
  by_cases e : o = os.created
  · rw [e, Function.update_self]
    rfl
  · rw [Function.update_of_ne e]
    exact alive o (Nat.lt_of_le_of_ne (Nat.le_of_lt_succ old) e)

theorem Listed.destroy (h : os.Listed) {o : Nat} (next : os.destroy o = some os') :
    os'.Listed ∧ ¬ os'.AllAlive := by
  obtain ⟨wlr, held, rfl⟩ := Option.map_eq_some_iff.mp next
  refine ⟨⟨h.ring, h.output, ?_⟩, ?_⟩
  · intro o' wlr' held'
    change Function.update os.wlrOutput o none o' = _ at held'
    by_cases e : o' = o
    · rw [e, Function.update_self] at held'
      cases held'
    · rw [Function.update_of_ne e] at held'
      exact h.wlrOutput o' wlr' held'
  · intro alive
    have gone := alive o (h.wlrOutput o wlr held).1
    change (Function.update os.wlrOutput o none o).isSome at gone
    rw [Function.update_self] at gone
    cases gone

end Outputs

namespace Server
open Windows

/-- Every list element and every listener of a surviving object belongs to something
that is still there. -/
structure NothingDangles (s : Server) : Prop where
  views : ∀ v, Linked s.windows.views none (some v) → ∃ view, s.windows.view v = some view ∧
    (s.windows.xdgSurface view.xdgSurface).isSome
  outputs : ∀ o, Linked s.outputs.outputs none (some o) →
    ∃ output, s.outputs.output o = some output ∧ (s.outputs.wlrOutput output.wlrOutput).isSome
  surfaceListeners : s.windows.ListenersLive
  xdgListeners : ∀ n xdg, s.windows.xdgSurface n = some xdg →
    ∀ v ∈ xdg.destroySignal, (s.windows.view v).isSome
  outputListeners : ∀ o wlr, s.outputs.wlrOutput o = some wlr →
    ∀ p ∈ wlr.frameSignal, (s.outputs.output p).isSome

structure Lives (s : Server) : Prop where
  consistent : s.windows.Consistent
  listening : s.windows.Listening
  outputs : s.outputs.Listed

variable {s s' : Server}

/-- What remains to be shown of the lists and the listeners. -/
theorem Lives.nothingDangles_iff (h : s.Lives) :
    s.NothingDangles ↔ s.windows.ListenersLive ∧ s.outputs.AllAlive := by
  constructor
  · intro intact
    refine ⟨intact.surfaceListeners, fun o old => ?_⟩
    obtain ⟨output, held, alive⟩ := intact.outputs o ((h.outputs.mem_iff o).mpr old)
    obtain rfl := Option.some.inj (held.symm.trans (h.outputs.output o old))
    exact alive
  · rintro ⟨listeners, outputs⟩
    refine ⟨?_, ?_, listeners, ?_, ?_⟩
    · intro v linked
      have member := h.consistent.ring.linked_mem List.mem_cons_self linked
      have some_view : (s.windows.view v).isSome := by
        rw [← h.consistent.listed v]
        simpa using member
      obtain ⟨view, held⟩ := Option.isSome_iff_exists.mp some_view
      obtain ⟨xdg, live, _⟩ := (h.consistent.toplevel v).mp some_view
      refine ⟨view, held, ?_⟩
      rw [(Prod.mk.inj (h.consistent.place v view held)).1, live]
      rfl
    · intro o linked
      have old := (h.outputs.mem_iff o).mp linked
      exact ⟨_, h.outputs.output o old, outputs o old⟩
    · intro n xdg held v listens
      rw [h.consistent.listener n xdg held] at listens
      split at listens
      · rename_i toplevel
        obtain rfl := List.mem_singleton.mp listens
        exact (h.consistent.toplevel v).mpr ⟨xdg, held, toplevel⟩
      · cases listens
    · intro o wlr held p listens
      obtain ⟨lt, signal⟩ := h.outputs.wlrOutput o wlr held
      rw [signal] at listens
      obtain rfl := List.mem_singleton.mp listens
      rw [h.outputs.output p lt]
      rfl

/-- No output is destroyed, and no toplevel without its surface. -/
def SparesObjects (s : Server) : Event → Prop
  | .outputDestroy _ => False
  | .xdgDestroy n => ¬ s.windows.Toplevel n
  | _ => True

/-- Mapping a view, with the focus and the handle, touches no object. -/
theorem mapped_sameObjects {v : Nat} {view : View} {xdg : XdgSurface} {mid : Server}
    (held : s.windows.view v = some view)
    (focused : { s with windows := s.windows.setView v { view with mapped := true } }.focusView
      v xdg.surface = some mid)
    (windows : s'.windows = mid.windows.createHandle v xdg.title xdg.appId) :
    SameObjects s.windows s'.windows := by
  have marked : SameObjects s.windows (s.windows.setView v { view with mapped := true }) :=
    sameObjects_setView held rfl
  rw [windows]
  exact (marked.trans (focusView_sameObjects focused)).trans (sameObjects_createHandle v _ _)

theorem step_lives (h : s.Lives) {e : Event} (next : s.step e = some s') : s'.Lives := by
  refine ⟨step_consistent h.consistent next, ?_, ?_⟩
  · cases outcome h.consistent next with
    | idle _ _ windows _ | newOutput _ _ _ windows _ | outputDestroyed _ _ windows _ =>
        exact windows ▸ h.listening
    | announced _ _ _ _ windows _ => exact windows.listening h.consistent h.listening
    | titled _ _ _ _ windows _ => exact h.listening.congr (sameObjects_setTitle windows)
    | mapped _ _ _ _ _ _ held _ focused windows _ =>
        exact h.listening.congr (mapped_sameObjects held focused windows)
    | unmapped _ _ _ windows _ => exact h.listening.congr (sameObjects_viewUnmap windows)
    | destroyed _ _ _ windows _ => exact windows.listening h.listening
    | surfaceDestroyed _ _ windows _ =>
        exact h.consistent.surfaceDestroy_listening h.listening windows
    | clicked _ _ _ focused _ => exact h.listening.congr (focusView_sameObjects focused)
  · cases outcome h.consistent next with
    | newOutput _ _ _ _ outputs => exact h.outputs.serverNewOutput outputs
    | outputDestroyed _ _ _ outputs => exact (h.outputs.destroy outputs).1
    | idle _ _ _ outputs | announced _ _ _ _ _ outputs | titled _ _ _ _ _ outputs
    | mapped _ _ _ _ _ _ _ _ _ _ outputs | unmapped _ _ _ _ outputs
    | destroyed _ _ _ _ outputs | surfaceDestroyed _ _ _ outputs | clicked _ _ _ _ outputs =>
        exact outputs ▸ h.outputs

/-- A step leaves nothing dangling exactly when it spares the objects. -/
theorem nothingDangles_step_iff (h : s.Lives) (intact : s.NothingDangles) {e : Event}
    (next : s.step e = some s') : s'.NothingDangles ↔ s.SparesObjects e := by
  obtain ⟨live, alive⟩ := h.nothingDangles_iff.mp intact
  rw [(step_lives h next).nothingDangles_iff]
  have kept (spares : s.SparesObjects e) (live' : s'.windows.ListenersLive)
      (alive' : s'.outputs.AllAlive) :
      s'.windows.ListenersLive ∧ s'.outputs.AllAlive ↔ s.SparesObjects e :=
    ⟨fun _ => spares, fun _ => ⟨live', alive'⟩⟩
  cases outcome h.consistent next with
  | idle input _ windows outputs =>
      refine kept ?_ (windows ▸ live) (outputs ▸ alive)
      cases e <;> trivial
  | newOutput _ _ event windows outputs =>
      exact kept (by rw [event]; trivial) (windows ▸ live)
        (Outputs.serverNewOutput_allAlive alive outputs)
  | outputDestroyed _ event windows outputs =>
      rw [event]
      exact ⟨fun both => (h.outputs.destroy outputs).2 both.2, False.elim⟩
  | announced _ _ _ event windows outputs =>
      exact kept (by rw [event]; trivial) (windows.listenersLive live) (outputs ▸ alive)
  | titled _ _ _ event windows outputs =>
      exact kept (by rw [event]; trivial) (live.congr (sameObjects_setTitle windows))
        (outputs ▸ alive)
  | mapped _ _ _ _ event _ held _ focused windows outputs =>
      exact kept (by rw [event]; trivial) (live.congr (mapped_sameObjects held focused windows))
        (outputs ▸ alive)
  | unmapped _ _ event windows outputs =>
      exact kept (by rw [event]; trivial) (live.congr (sameObjects_viewUnmap windows))
        (outputs ▸ alive)
  | destroyed n xdg event windows outputs =>
      rw [event, windows.listenersLive_iff h.consistent h.listening live]
      exact and_iff_left (outputs ▸ alive)
  | surfaceDestroyed _ event windows outputs =>
      exact kept (by rw [event]; trivial)
        (h.consistent.surfaceDestroy_listenersLive h.listening live windows) (outputs ▸ alive)
  | clicked _ _ event focused outputs =>
      exact kept (by rw [event]; trivial) (live.congr (focusView_sameObjects focused))
        (outputs ▸ alive)

/-- In every state of a run nothing dangles exactly when every event of the run
spares the objects. -/
theorem nothing_dangles_iff_spares_objects (events : List Event) :
    (∀ s, Runs.Visits step start events s → s.NothingDangles) ↔
      ∀ s e, Runs.Takes step start events s e → s.SparesObjects e := by
  have lives : start.Lives := ⟨consistent_start, listening_start, Outputs.listed_start⟩
  refine Runs.visits_iff_takes Lives NothingDangles SparesObjects ?_ ?_ lives ?_ events
  · exact fun s e s' h _ _ next => step_lives h next
  · exact fun s e s' h intact next => nothingDangles_step_iff h intact next
  · refine lives.nothingDangles_iff.mpr ⟨?_, ?_⟩
    · rintro w surface on v listens
      obtain rfl := Option.some.inj on
      cases listens
    · intro o old
      exact absurd old (Nat.not_lt_zero o)

theorem run_lives {events : List Event} (ran : Runs.run step start events = some s) :
    s.Lives :=
  Runs.run_invariant (fun _ _ _ h next => step_lives h next)
    ⟨consistent_start, listening_start, Outputs.listed_start⟩ ran

/-- A toplevel is destroyed and its surface lives on; an output is destroyed. -/
theorem dangling_view_and_output :
    (∃ s, Runs.Visits step start [.newXdgSurface 7 .toplevel, .xdgDestroy 0] s ∧
      ¬ s.NothingDangles) ∧
    ∃ s, Runs.Visits step start [.newOutput 2 [], .outputDestroy 0] s ∧
      ¬ s.NothingDangles := by
  refine ⟨?_, ?_⟩
  · have ends : (Runs.run step start [.newXdgSurface 7 .toplevel, .xdgDestroy 0]).any (fun s =>
        (s.windows.surface 7).any fun surface =>
          surface.listeners.contains 0 && (s.windows.view 0).isNone) = true := by
      decide +kernel
    obtain ⟨s, ran, held⟩ := Option.any_eq_true _ _ |>.mp ends
    obtain ⟨surface, on, both⟩ := Option.any_eq_true _ _ |>.mp held
    obtain ⟨listens, freed⟩ := Bool.and_eq_true_iff.mp both
    refine ⟨s, Runs.visits_of_run ran, fun intact => ?_⟩
    have live := intact.surfaceListeners 7 surface on 0 (List.contains_iff_mem.mp listens)
    rw [Option.isNone_iff_eq_none.mp freed] at live
    cases live
  · have ends : (Runs.run step start [.newOutput 2 [], .outputDestroy 0]).any (fun s =>
        decide (0 < s.outputs.created) && (s.outputs.wlrOutput 0).isNone) = true := by
      decide +kernel
    obtain ⟨s, ran, both⟩ := Option.any_eq_true _ _ |>.mp ends
    obtain ⟨old, gone⟩ := Bool.and_eq_true_iff.mp both
    refine ⟨s, Runs.visits_of_run ran, fun intact => ?_⟩
    have alive := ((run_lives ran).nothingDangles_iff.mp intact).2 0 (of_decide_eq_true old)
    rw [Option.isNone_iff_eq_none.mp gone] at alive
    cases alive

end Server
end LunaOS.Compositor
