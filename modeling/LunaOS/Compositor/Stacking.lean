import LunaOS.Compositor.Windows

/-!
The compositor's list of windows is its stacking order. What one event does to the
windows and to the outputs is said once, as the outcomes of a step; the order
follows for every run from the operations on the windows.
-/
namespace LunaOS.Compositor
open Rings

namespace Server
open Windows

variable {s s' : Server}

/-! What an event does to the windows and to the outputs. -/

/-- The call of `focus_view` that an event leads to, if any. -/
def focusCall (s : Server) : Event → Option (Nat × Nat)
  | .map _ v =>
      (s.windows.view v).bind fun view =>
        (s.windows.xdgSurface view.xdgSurface).map fun xdg => (v, xdg.surface)
  | .button true hit => hit
  | _ => none

def Event.Input : Event → Prop
  | .button _ _ | .seatFocus _ | .newInput _ | .key _ _ _ | .modifiers _ => True
  | _ => False

inductive Outcome (s s' : Server) (e : Event) : Prop
  | idle (input : e.Input) (call : s.focusCall e = none) (windows : s'.windows = s.windows)
      (outputs : s'.outputs = s.outputs)
  | newOutput (scale : Rat) (modes : List Mode) (event : e = .newOutput scale modes)
      (windows : s'.windows = s.windows)
      (outputs : s.outputs.serverNewOutput scale modes = some s'.outputs)
  | outputDestroyed (o : Nat) (event : e = .outputDestroy o)
      (windows : s'.windows = s.windows) (outputs : s.outputs.destroy o = some s'.outputs)
  | announced (w : Nat) (role : Role) (surface : Surface) (event : e = .newXdgSurface w role)
      (windows : Announced s.windows s'.windows w role surface) (outputs : s'.outputs = s.outputs)
  | titled (n : Nat) (title appId : Option String) (event : e = .setTitle n title appId)
      (windows : s.windows.setTitle n title appId = some s'.windows)
      (outputs : s'.outputs = s.outputs)
  | mapped (w v : Nat) (view : View) (xdg : XdgSurface) (event : e = .map w v) (mid : Server)
      (held : s.windows.view v = some view)
      (live : s.windows.xdgSurface view.xdgSurface = some xdg)
      (focused : { s with windows := s.windows.setView v { view with mapped := true } }.focusView
        v xdg.surface = some mid)
      (windows : s'.windows = mid.windows.createHandle v xdg.title xdg.appId)
      (outputs : s'.outputs = s.outputs)
  | unmapped (w v : Nat) (event : e = .unmap w v)
      (windows : s.windows.viewUnmap v = some s'.windows) (outputs : s'.outputs = s.outputs)
  | destroyed (n : Nat) (xdg : XdgSurface) (event : e = .xdgDestroy n)
      (windows : Destroyed s.windows s'.windows n xdg) (outputs : s'.outputs = s.outputs)
  | surfaceDestroyed (w : Nat) (event : e = .surfaceDestroy w)
      (windows : s.windows.surfaceDestroy w = some s'.windows) (outputs : s'.outputs = s.outputs)
  | clicked (v surface : Nat) (event : e = .button true (some (v, surface)))
      (focused : s.focusView v surface = some s') (outputs : s'.outputs = s.outputs)

/-- `focus_view` returns early, or its body runs. -/
theorem focusView_cases {v surface : Nat} (next : s.focusView v surface = some s') :
    ∃ view, s.windows.view v = some view ∧
      ((s.seat.focusedSurface = some surface ∧ s' = s) ∨
        (s.seat.focusedSurface ≠ some surface ∧ s'.outputs = s.outputs ∧
          (s.windows.deactivate s.seat.focusedSurface).raise v view = some s'.windows)) := by
  obtain ⟨view, held, next⟩ := Option.bind_eq_some_iff.mp next
  refine ⟨view, held, ?_⟩
  dsimp only at next
  split at next
  · rename_i same
    exact Or.inl ⟨same, (Option.some.inj next).symm⟩
  · rename_i other
    obtain ⟨ws, raised, rfl⟩ := Option.map_eq_some_iff.mp next
    exact Or.inr ⟨other, rfl, raised⟩

theorem focusView_outputs {v surface : Nat} (next : s.focusView v surface = some s') :
    s'.outputs = s.outputs := by
  obtain ⟨_, _, ⟨_, rfl⟩ | ⟨_, same, _⟩⟩ := focusView_cases next
  · rfl
  · exact same

theorem outcome (h : s.windows.Consistent) {e : Event} (next : s.step e = some s') :
    Outcome s s' e := by
  cases step_taken next with
  | newOutput scale modes os made => exact .newOutput scale modes rfl rfl made
  | outputDestroy o os destroyed => exact .outputDestroyed o rfl rfl destroyed
  | newXdgSurface w role ws made =>
      obtain ⟨surface, announced⟩ := h.newXdgSurface made
      exact .announced w role surface rfl announced rfl
  | setTitle n title appId ws titled => exact .titled n title appId rfl titled rfl
  | map w v _ mapped =>
      obtain ⟨view, held, mapped⟩ := Option.bind_eq_some_iff.mp mapped
      obtain ⟨xdg, live, mapped⟩ := Option.bind_eq_some_iff.mp mapped
      obtain ⟨mid, focused, rfl⟩ := Option.map_eq_some_iff.mp mapped
      have outputs := focusView_outputs focused
      exact .mapped w v view xdg rfl mid held live focused rfl outputs
  | unmap w v ws unmapped => exact .unmapped w v rfl unmapped rfl
  | xdgDestroy n ws destroyed =>
      obtain ⟨xdg, live, _⟩ := Option.bind_eq_some_iff.mp destroyed
      obtain ⟨ws', same, gone⟩ := h.xdgDestroy live
      obtain rfl := Option.some.inj (same.symm.trans destroyed)
      exact .destroyed n xdg rfl gone rfl
  | surfaceDestroy w ws destroyed => exact .surfaceDestroyed w rfl destroyed rfl
  | pressed v surface _ focused => exact .clicked v surface rfl focused (focusView_outputs focused)
  | missed pressed => exact .idle trivial (by cases pressed <;> rfl) rfl rfl
  | released | seatFocus | pointer | other => exact .idle trivial rfl rfl rfl
  | keyboard k _ new attaches =>
      obtain ⟨_, _, attaches⟩ := Option.bind_eq_some_iff.mp attaches
      obtain ⟨_, _, rfl⟩ := Option.map_eq_some_iff.mp attaches
      exact .idle trivial rfl rfl rfl
  | key k xkb event known =>
      unfold handleKeyboardKey
      split
      · exact .idle trivial rfl rfl rfl
      · exact .idle trivial rfl (keyOf_windows _ _ _ _) (keyOf_outputs _ _ _ _)
  | modifiers k =>
      unfold handleKeyboardModifiers
      split <;> exact .idle trivial rfl rfl rfl

theorem focusView_sameObjects {v surface : Nat} (next : s.focusView v surface = some s') :
    SameObjects s.windows s'.windows := by
  obtain ⟨_, _, ⟨_, rfl⟩ | ⟨_, _, raised⟩⟩ := focusView_cases next
  · exact .refl s'.windows
  · exact (sameObjects_deactivate s.seat.focusedSurface).trans (sameObjects_raise raised)

theorem focusView_consistent (h : s.windows.Consistent) {v surface : Nat}
    (next : s.focusView v surface = some s') : s'.windows.Consistent := by
  obtain ⟨view, held, ⟨_, rfl⟩ | ⟨_, _, raised⟩⟩ := focusView_cases next
  · exact h
  · have still : (s.windows.deactivate s.seat.focusedSurface).view v = some view := by
      rw [deactivate_view]
      exact held
    obtain ⟨ws, same, consistent⟩ := (h.deactivate s.seat.focusedSurface).raise still
    exact Option.some.inj (same.symm.trans raised) ▸ consistent

theorem step_consistent (h : s.windows.Consistent) {e : Event} (next : s.step e = some s') :
    s'.windows.Consistent := by
  cases outcome h next with
  | idle _ _ windows _ | newOutput _ _ _ windows _ | outputDestroyed _ _ windows _ =>
      exact windows ▸ h
  | announced _ _ _ _ windows _ => exact windows.consistent h
  | titled _ _ _ _ windows _ => exact h.setTitle windows
  | mapped _ v view xdg _ mid held _ focused windows _ =>
      have ready : (s.windows.setView v { view with mapped := true }).Consistent :=
        h.setView held rfl
      rw [windows]
      exact (focusView_consistent ready focused).createHandle v xdg.title xdg.appId
  | unmapped _ _ _ windows _ => exact h.viewUnmap windows
  | destroyed _ _ _ windows _ => exact windows.consistent h
  | surfaceDestroyed _ _ windows _ => exact h.surfaceDestroy windows
  | clicked _ _ _ focused _ => exact focusView_consistent h focused

theorem run_consistent {events : List Event} (ran : Runs.run step start events = some s) :
    s.windows.Consistent :=
  Runs.run_invariant (fun _ _ _ h next => step_consistent h next) consistent_start ran

/-- In every reachable state `server.views` lists the live toplevels' views, each
once, and their scene nodes are the children of the scene root from the top down. -/
theorem views_list_stacking_order (events : List Event)
    (ran : Runs.run step start events = some s) :
    ∃ order : List Nat, Ring s.windows.views (none :: order.map some) ∧ order.Nodup ∧
      (∀ v, v ∈ order ↔ s.windows.Toplevel v) ∧
      order.map (fun v => (s.windows.view v).map (·.sceneNode)) =
        s.windows.scene.reverse.map some := by
  have h := run_consistent ran
  refine ⟨s.windows.scene.reverse, h.ring, List.nodup_reverse.mpr h.nodup, ?_, ?_⟩
  · intro v
    rw [List.mem_reverse, h.listed, h.toplevel]
  · refine List.map_congr_left fun v member => ?_
    have some_view := (h.listed v).mp (List.mem_reverse.mp member)
    obtain ⟨view, held⟩ := Option.isSome_iff_exists.mp some_view
    rw [held, Option.map_some]
    exact congrArg some (Prod.mk.inj (h.place v view held)).2

theorem views_list_stacking_order_two_windows :
    ∃ s, Runs.run step start
        [.newXdgSurface 7 .toplevel, .newXdgSurface 8 .toplevel, .map 7 0, .map 8 1,
          .button true (some (0, 7)), .xdgDestroy 1, .newXdgSurface 8 .toplevel] = some s ∧
      ∃ order : List Nat, Ring s.windows.views (none :: order.map some) ∧ order.Nodup ∧
        (∀ v, v ∈ order ↔ s.windows.Toplevel v) ∧
        order.map (fun v => (s.windows.view v).map (·.sceneNode)) =
          s.windows.scene.reverse.map some := by
  have runs : (Runs.run step start
      [.newXdgSurface 7 .toplevel, .newXdgSurface 8 .toplevel, .map 7 0, .map 8 1,
        .button true (some (0, 7)), .xdgDestroy 1, .newXdgSurface 8 .toplevel]).isSome = true := by
    decide +kernel
  obtain ⟨s, ran⟩ := Option.isSome_iff_exists.mp runs
  exact ⟨s, ran, views_list_stacking_order _ ran⟩

end Server
end LunaOS.Compositor
