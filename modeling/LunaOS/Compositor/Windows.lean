import LunaOS.Compositor.Server
import LunaOS.Lib.Slots

/-!
The views, their xdg surfaces and their scene nodes. Every live toplevel has one
view, an xdg surface and its `wl_surface` name each other, and `server.views` lists
the views as their nodes stand in the scene from the top to the bottom. Each
operation on the windows keeps that, and those that make or destroy an object are
described by what they leave.
-/
namespace LunaOS.Compositor
open Rings

def View.place (view : View) : Nat × Nat :=
  (view.xdgSurface, view.sceneNode)

def XdgSurface.place (xdg : XdgSurface) : Nat × Role × List Nat :=
  (xdg.surface, xdg.role, xdg.destroySignal)

theorem exists_of_map_eq {α β : Type} {f : α → β} {o o' : Option α} {a' : α}
    (same : o'.map f = o.map f) (here : o' = some a') : ∃ a, o = some a ∧ f a = f a' := by
  rw [here, Option.map_some] at same
  exact Option.map_eq_some_iff.mp same.symm

/-- Changing an entry where `f` does not look changes nothing for `f`. -/
theorem map_update_map {α β : Type} (f : α → β) (g : α → α) (same : ∀ a, f (g a) = f a)
    (o : Nat → Option α) (n m : Nat) :
    (Function.update o n ((o n).map g) m).map f = (o m).map f := by
  refine Slots.read_update_of_eq (Option.map f) ?_ m
  cases o n with
  | none => rfl
  | some a => exact congrArg some (same a)

theorem map_update_some {α β : Type} (f : α → β) {o : Nat → Option α} {n : Nat} {old new : α}
    (held : o n = some old) (same : f new = f old) (m : Nat) :
    (Function.update o n (some new) m).map f = (o m).map f := by
  refine Slots.read_update_of_eq (Option.map f) ?_ m
  rw [held]
  exact congrArg some same

theorem update_none_eq_some_iff {α : Type} (o : Nat → Option α) (n m : Nat) (a : α) :
    Function.update o n none m = some a ↔ m ≠ n ∧ o m = some a := by
  by_cases e : m = n
  · rw [e, Function.update_self]
    exact ⟨nofun, fun both => absurd rfl both.1⟩
  · rw [Function.update_of_ne e]
    exact ⟨fun here => ⟨e, here⟩, fun both => both.2⟩

theorem update_some_eq_some_iff {α : Type} (o : Nat → Option α) (n m : Nat) (a b : α) :
    Function.update o n (some b) m = some a ↔ (m = n ∧ a = b) ∨ m ≠ n ∧ o m = some a := by
  by_cases e : m = n
  · rw [e, Function.update_self, Option.some.injEq]
    simp [eq_comm]
  · rw [Function.update_of_ne e]
    simp [e]

namespace Windows

def Toplevel (ws : Windows) (n : Nat) : Prop :=
  ∃ xdg, ws.xdgSurface n = some xdg ∧ xdg.role = .toplevel

structure Consistent (ws : Windows) : Prop where
  ring : Ring ws.views (none :: ws.scene.reverse.map some)
  listed : ∀ v, v ∈ ws.scene ↔ (ws.view v).isSome
  toplevel : ∀ v, (ws.view v).isSome ↔ ws.Toplevel v
  place : ∀ v view, ws.view v = some view → view.place = (v, v)
  fresh : ∀ n, ws.created ≤ n → ws.xdgSurface n = none
  listener : ∀ n xdg, ws.xdgSurface n = some xdg →
    xdg.destroySignal = if xdg.role = .toplevel then [n] else []
  role : ∀ n xdg, ws.xdgSurface n = some xdg →
    ∃ surface, ws.surface xdg.surface = some surface ∧ surface.xdgSurface = some n
  owner : ∀ w surface n, ws.surface w = some surface → surface.xdgSurface = some n →
    ∃ xdg, ws.xdgSurface n = some xdg ∧ xdg.surface = w

variable {ws ws' : Windows}

theorem Consistent.nodup (h : ws.Consistent) : ws.scene.Nodup := by
  have nodup := (List.nodup_cons.mp h.ring.1).2
  exact List.nodup_reverse.mp (List.Nodup.of_map some nodup)

theorem consistent_start : Consistent {} where
  ring := ring_init _ none
  listed := by intro v; exact ⟨nofun, nofun⟩
  toplevel := by intro v; exact ⟨nofun, nofun⟩
  place := by intro v view held; cases held
  fresh := by intro n _; rfl
  listener := by intro n xdg held; cases held
  role := by intro n xdg held; cases held
  owner := by
    rintro w surface n held owns
    obtain rfl := Option.some.inj held
    cases owns

/-! What changes none of the objects. -/

structure SameObjects (ws ws' : Windows) : Prop where
  view : ∀ v, (ws'.view v).map View.place = (ws.view v).map View.place
  xdg : ∀ n, (ws'.xdgSurface n).map XdgSurface.place = (ws.xdgSurface n).map XdgSurface.place
  surface : ws'.surface = ws.surface
  created : ws'.created = ws.created

theorem SameObjects.refl (ws : Windows) : SameObjects ws ws :=
  ⟨fun _ => rfl, fun _ => rfl, rfl, rfl⟩

theorem SameObjects.trans {ws'' : Windows} (same : SameObjects ws ws')
    (next : SameObjects ws' ws'') : SameObjects ws ws'' where
  view := fun v => (next.view v).trans (same.view v)
  xdg := fun n => (next.xdg n).trans (same.xdg n)
  surface := next.surface.trans same.surface
  created := next.created.trans same.created

theorem SameObjects.isSome_iff (same : SameObjects ws ws') (v : Nat) :
    (ws'.view v).isSome ↔ (ws.view v).isSome := by
  rw [← Option.isSome_map, same.view v, Option.isSome_map]

theorem sameObjects_setActivated (n : Nat) (b : Bool) : SameObjects ws (ws.setActivated n b) where
  view := fun _ => rfl
  xdg := map_update_map XdgSurface.place (fun xdg => { xdg with activated := b }) (fun _ => rfl) _ n
  surface := rfl
  created := rfl

theorem sameObjects_deactivate (prev : Option Nat) : SameObjects ws (ws.deactivate prev) := by
  unfold Windows.deactivate
  split
  · exact .refl ws
  · split
    · exact sameObjects_setActivated _ _
    · exact .refl ws

theorem sameObjects_raise {v : Nat} {view : View} (raised : ws.raise v view = some ws') :
    SameObjects ws ws' := by
  obtain ⟨_, _, raised⟩ := Option.bind_eq_some_iff.mp raised
  obtain ⟨_, _, rfl⟩ := Option.map_eq_some_iff.mp raised
  have same : SameObjects ws (ws.setActivated view.xdgSurface true) :=
    sameObjects_setActivated _ _
  exact ⟨same.view, same.xdg, same.surface, same.created⟩

theorem sameObjects_setView {v : Nat} {view new : View} (held : ws.view v = some view)
    (same : new.place = view.place) : SameObjects ws (ws.setView v new) :=
  ⟨map_update_some View.place held same, fun _ => rfl, rfl, rfl⟩

theorem sameObjects_createHandle (v : Nat) (title appId : Option String) :
    SameObjects ws (ws.createHandle v title appId) where
  view := map_update_map View.place
    (fun view => { view with toplevelHandle := some ws.handles.allocated }) (fun _ => rfl) _ v
  xdg := fun _ => rfl
  surface := rfl
  created := rfl

theorem sameObjects_viewUnmap {v : Nat} (next : ws.viewUnmap v = some ws') :
    SameObjects ws ws' := by
  obtain ⟨view, held, rfl⟩ := Option.map_eq_some_iff.mp next
  split
  · exact ⟨map_update_some View.place held rfl, fun _ => rfl, rfl, rfl⟩
  · exact sameObjects_setView held rfl

theorem sameObjects_setTitle {n : Nat} {title appId : Option String}
    (next : ws.setTitle n title appId = some ws') : SameObjects ws ws' := by
  obtain ⟨xdg, held, rfl⟩ := Option.map_eq_some_iff.mp next
  exact ⟨fun _ => rfl, map_update_some XdgSurface.place held rfl, rfl, rfl⟩

theorem Consistent.congr (h : ws.Consistent) (same : SameObjects ws ws')
    (views : ws'.views = ws.views) (scene : ws'.scene = ws.scene) : ws'.Consistent := by
  have toplevel (v : Nat) : ws'.Toplevel v ↔ ws.Toplevel v := by
    constructor
    · rintro ⟨x', here, role⟩
      obtain ⟨x, there, place⟩ := exists_of_map_eq (same.xdg v) here
      exact ⟨x, there, (congrArg (·.2.1) place).trans role⟩
    · rintro ⟨x, here, role⟩
      obtain ⟨x', there, place⟩ := exists_of_map_eq (same.xdg v).symm here
      exact ⟨x', there, (congrArg (·.2.1) place).trans role⟩
  refine ⟨?_, ?_, ?_, ?_, ?_, ?_, ?_, ?_⟩
  · rw [views, scene]
    exact h.ring
  · intro v
    rw [scene, h.listed v, same.isSome_iff v]
  · intro v
    rw [same.isSome_iff v, toplevel v, h.toplevel v]
  · intro v view' here
    obtain ⟨old, there, place⟩ := exists_of_map_eq (same.view v) here
    exact place ▸ h.place v old there
  · intro n new
    have none := h.fresh n (same.created ▸ new)
    have here := same.xdg n
    rwa [none, Option.map_none, Option.map_eq_none_iff] at here
  · intro n x' here
    obtain ⟨x, there, place⟩ := exists_of_map_eq (same.xdg n) here
    have linked := h.listener n x there
    rwa [show x.destroySignal = x'.destroySignal from congrArg (·.2.2) place,
      show x.role = x'.role from congrArg (·.2.1) place] at linked
  · intro n x' here
    obtain ⟨x, there, place⟩ := exists_of_map_eq (same.xdg n) here
    rw [same.surface, ← show x.surface = x'.surface from congrArg (·.1) place]
    exact h.role n x there
  · intro w sf n held owns
    obtain ⟨x, there, on⟩ := h.owner w sf n (same.surface ▸ held) owns
    obtain ⟨x', here, place⟩ := exists_of_map_eq (same.xdg n).symm there
    exact ⟨x', here, (congrArg (·.1) place).trans on⟩

theorem Consistent.setActivated (h : ws.Consistent) (n : Nat) (b : Bool) :
    (ws.setActivated n b).Consistent :=
  h.congr (sameObjects_setActivated n b) rfl rfl

theorem deactivate_view (prev : Option Nat) : (ws.deactivate prev).view = ws.view := by
  unfold Windows.deactivate
  split
  · rfl
  · split <;> rfl

theorem Consistent.deactivate (h : ws.Consistent) (prev : Option Nat) :
    (ws.deactivate prev).Consistent := by
  unfold Windows.deactivate
  split
  · exact h
  · split
    · exact h.setActivated _ _
    · exact h

theorem Consistent.setView (h : ws.Consistent) {v : Nat} {view new : View}
    (held : ws.view v = some view) (same : new.place = view.place) :
    (ws.setView v new).Consistent :=
  h.congr (sameObjects_setView held same) rfl rfl

theorem Consistent.createHandle (h : ws.Consistent) (v : Nat) (title appId : Option String) :
    (ws.createHandle v title appId).Consistent :=
  h.congr (sameObjects_createHandle v title appId) rfl rfl

theorem Consistent.viewUnmap (h : ws.Consistent) {v : Nat} (next : ws.viewUnmap v = some ws') :
    ws'.Consistent := by
  have same := sameObjects_viewUnmap next
  obtain ⟨view, held, rfl⟩ := Option.map_eq_some_iff.mp next
  refine h.congr same ?_ ?_ <;> split <;> rfl

theorem Consistent.setTitle (h : ws.Consistent) {n : Nat} {title appId : Option String}
    (next : ws.setTitle n title appId = some ws') : ws'.Consistent := by
  have same := sameObjects_setTitle next
  obtain ⟨xdg, held, rfl⟩ := Option.map_eq_some_iff.mp next
  exact h.congr same rfl rfl

/-! A view is raised. -/

/-- The list without one of its views. -/
theorem Consistent.ring_remove (h : ws.Consistent) {v : Nat} (member : v ∈ ws.scene) :
    ∃ links, Rings.remove ws.views (some v) = some links ∧
      Ring links (none :: (ws.scene.erase v).reverse.map some) := by
  obtain ⟨P, Q, split⟩ := List.append_of_mem member
  have once : v ∉ P := by
    have nodup := h.nodup
    rw [split] at nodup
    grind
  have ring := h.ring
  rw [split, List.reverse_append, List.reverse_cons, List.append_assoc, List.map_append] at ring
  obtain ⟨links, removed, ring'⟩ := ring.removeMember
  refine ⟨links, removed, ?_⟩
  rw [split, List.erase_append_right _ once, List.erase_cons_head, List.reverse_append,
    List.map_append]
  exact ring'

theorem Consistent.raise (h : ws.Consistent) {v : Nat} {view : View}
    (held : ws.view v = some view) : ∃ ws', ws.raise v view = some ws' ∧ ws'.Consistent := by
  obtain ⟨on, node⟩ := Prod.mk.inj (h.place v view held)
  have member : v ∈ ws.scene := (h.listed v).mpr (by rw [held]; rfl)
  obtain ⟨links, removed, ring⟩ := h.ring_remove member
  have gone : some v ∉ none :: (ws.scene.erase v).reverse.map some := by
    simp [h.nodup.not_mem_erase]
  obtain ⟨links', inserted, ring'⟩ := ring.insertHead gone
  refine ⟨_, by rw [Windows.raise, removed, Option.bind_some, inserted, Option.map_some], ?_⟩
  refine { h.setActivated view.xdgSurface true with ring := ?_, listed := ?_ }
  · change Ring links'
      (none :: (ws.scene.erase view.sceneNode ++ [view.sceneNode]).reverse.map some)
    rw [node, List.reverse_append]
    exact ring'
  · intro u
    change u ∈ ws.scene.erase view.sceneNode ++ [view.sceneNode] ↔ (ws.view u).isSome
    rw [node, ← h.listed u, List.mem_append, List.mem_singleton, h.nodup.mem_erase_iff]
    constructor
    · rintro (⟨_, here⟩ | rfl)
      · exact here
      · exact member
    · intro here
      by_cases same : u = v
      · exact Or.inr same
      · exact Or.inl ⟨same, here⟩

/-! An xdg surface is destroyed. -/

structure Destroyed (ws ws' : Windows) (n : Nat) (xdg : XdgSurface) : Prop where
  was : ws.xdgSurface n = some xdg
  ring : Ring ws'.views (none :: (ws.scene.erase n).reverse.map some)
  view : ws'.view = Function.update ws.view n none
  scene : ws'.scene = ws.scene.erase n
  xdgSurface : ws'.xdgSurface = Function.update ws.xdgSurface n none
  surface : ws'.surface = Function.update ws.surface xdg.surface
    ((ws.surface xdg.surface).map fun surface => { surface with xdgSurface := none })
  created : ws'.created = ws.created
  recent : ws'.recent = ws.recent

theorem Consistent.xdgDestroy (h : ws.Consistent) {n : Nat} {xdg : XdgSurface}
    (held : ws.xdgSurface n = some xdg) :
    ∃ ws', ws.xdgDestroy n = some ws' ∧ Destroyed ws ws' n xdg := by
  have listener := h.listener n xdg held
  by_cases toplevel : xdg.role = .toplevel
  · have some_view := (h.toplevel n).mpr ⟨xdg, held, toplevel⟩
    obtain ⟨view, seen⟩ := Option.isSome_iff_exists.mp some_view
    obtain ⟨links, removed, ring⟩ := h.ring_remove ((h.listed n).mpr some_view)
    rw [if_pos toplevel] at listener
    let left : Windows := { ws with views := links, view := Function.update ws.view n none }
    have destroyed : [n].foldlM viewDestroy ws = some left := by
      simp only [List.foldlM_cons, List.foldlM_nil, viewDestroy, seen, removed, Option.bind_some,
        Option.map_some]
      rfl
    refine ⟨left.dropXdgSurface n xdg, ?_, ⟨held, ring, rfl, rfl, rfl, rfl, rfl, rfl⟩⟩
    rw [Windows.xdgDestroy, held, Option.bind_some, listener, destroyed, Option.map_some]
  · have no_view : ws.view n = none := by
      rw [← Option.not_isSome_iff_eq_none, h.toplevel n]
      rintro ⟨xdg', held', toplevel'⟩
      obtain rfl := Option.some.inj (held.symm.trans held')
      exact toplevel toplevel'
    have unlisted : n ∉ ws.scene := by
      rw [h.listed n, no_view]
      exact nofun
    rw [if_neg toplevel] at listener
    refine ⟨ws.dropXdgSurface n xdg, ?_, ⟨held, ?_, ?_, rfl, rfl, rfl, rfl, rfl⟩⟩
    · rw [Windows.xdgDestroy, held, Option.bind_some, listener]
      rfl
    · rw [List.erase_of_not_mem unlisted]
      exact h.ring
    · rw [← no_view]
      exact (Function.update_eq_self n ws.view).symm

section
variable {n : Nat} {xdg : XdgSurface}

theorem Destroyed.xdg_iff (d : Destroyed ws ws' n xdg) (m : Nat) (x : XdgSurface) :
    ws'.xdgSurface m = some x ↔ m ≠ n ∧ ws.xdgSurface m = some x := by
  rw [d.xdgSurface, update_none_eq_some_iff]

theorem Destroyed.view_iff (d : Destroyed ws ws' n xdg) (v : Nat) (view : View) :
    ws'.view v = some view ↔ v ≠ n ∧ ws.view v = some view := by
  rw [d.view, update_none_eq_some_iff]

/-- The surfaces of the xdg surfaces that are left still name them. -/
theorem Destroyed.holder (d : Destroyed ws ws' n xdg) (h : ws.Consistent) (m : Nat)
    (x : XdgSurface) (here : ws'.xdgSurface m = some x) :
    ∃ surface, ws'.surface x.surface = some surface ∧ surface.xdgSurface = some m := by
  obtain ⟨surface, on, owns⟩ := h.role n xdg d.was
  obtain ⟨other, there⟩ := (d.xdg_iff m x).mp here
  obtain ⟨surface', on', owns'⟩ := h.role m x there
  refine ⟨surface', ?_, owns'⟩
  rw [d.surface, Function.update_of_ne]
  · exact on'
  · intro same
    rw [same, on] at on'
    obtain rfl := Option.some.inj on'
    exact other (Option.some.inj (owns'.symm.trans owns))

/-- No surface names the xdg surface that is gone. -/
theorem Destroyed.owner (d : Destroyed ws ws' n xdg) (h : ws.Consistent) (w : Nat)
    (sf : Surface) (m : Nat) (here : ws'.surface w = some sf) (owner : sf.xdgSurface = some m) :
    ∃ x, ws'.xdgSurface m = some x ∧ x.surface = w := by
  obtain ⟨surface, on, _⟩ := h.role n xdg d.was
  rw [d.surface] at here
  by_cases e : w = xdg.surface
  · rw [e, Function.update_self, on] at here
    obtain rfl := Option.some.inj here
    cases owner
  · rw [Function.update_of_ne e] at here
    obtain ⟨x, there, placed⟩ := h.owner w sf m here owner
    refine ⟨x, (d.xdg_iff m x).mpr ⟨?_, there⟩, placed⟩
    rintro rfl
    obtain rfl := Option.some.inj (d.was.symm.trans there)
    exact e placed.symm

theorem Destroyed.consistent (d : Destroyed ws ws' n xdg) (h : ws.Consistent) :
    ws'.Consistent := by
  have some_iff (v : Nat) : (ws'.view v).isSome ↔ v ≠ n ∧ (ws.view v).isSome := by
    simp only [Option.isSome_iff_exists, d.view_iff, exists_and_left]
  refine ⟨?_, ?_, ?_, ?_, ?_, ?_, d.holder h, d.owner h⟩
  · rw [d.scene]
    exact d.ring
  · intro v
    rw [d.scene, h.nodup.mem_erase_iff, h.listed v, some_iff]
  · intro v
    simp only [some_iff, h.toplevel v, Toplevel, d.xdg_iff, and_assoc, exists_and_left]
  · intro v view here
    exact h.place v view ((d.view_iff v view).mp here).2
  · intro m new
    rw [d.xdgSurface]
    by_cases e : m = n
    · rw [e, Function.update_self]
    · rw [Function.update_of_ne e]
      exact h.fresh m (d.created ▸ new)
  · intro m x here
    exact h.listener m x ((d.xdg_iff m x).mp here).2

end

/-! A surface is destroyed. -/

theorem Consistent.dropSurface (h : ws.Consistent) {w : Nat}
    (free : ∀ surface, ws.surface w = some surface → surface.xdgSurface = none) :
    { ws with surface := Function.update ws.surface w none }.Consistent := by
  refine { h with role := ?_, owner := ?_ }
  · intro n xdg held
    obtain ⟨surface, on, owns⟩ := h.role n xdg held
    refine ⟨surface, ?_, owns⟩
    change Function.update ws.surface w none xdg.surface = some surface
    rw [Function.update_of_ne]
    · exact on
    · rintro rfl
      exact absurd owns (by rw [free surface on]; exact nofun)
  · intro w' surface n held owns
    change Function.update ws.surface w none w' = some surface at held
    by_cases e : w' = w
    · rw [e, Function.update_self] at held
      cases held
    · rw [Function.update_of_ne e] at held
      exact h.owner w' surface n held owns

/-- First the xdg surface goes, if there is one, then the surface. -/
theorem Consistent.surfaceDestroy_cases (h : ws.Consistent) {w : Nat}
    (next : ws.surfaceDestroy w = some ws') :
    ∃ mid, (mid = ws ∨ ∃ n xdg, Destroyed ws mid n xdg ∧ xdg.surface = w) ∧
      (∀ surface, mid.surface w = some surface → surface.xdgSurface = none) ∧
      ws' = { mid with surface := Function.update mid.surface w none } := by
  obtain ⟨surface, held, next⟩ := Option.bind_eq_some_iff.mp next
  cases owns : surface.xdgSurface with
  | none =>
      rw [owns] at next
      refine ⟨ws, Or.inl rfl, ?_, (Option.some.inj next).symm⟩
      intro surface' held'
      exact Option.some.inj (held.symm.trans held') ▸ owns
  | some n =>
      obtain ⟨xdg, live, on⟩ := h.owner w surface n held owns
      obtain ⟨mid, destroyed, d⟩ := h.xdgDestroy live
      rw [owns, roleDestroy, destroyed] at next
      refine ⟨mid, Or.inr ⟨n, xdg, d, on⟩, ?_, (Option.some.inj next).symm⟩
      intro surface' held'
      rw [d.surface, on, Function.update_self, held] at held'
      exact Option.some.inj held' ▸ rfl

theorem Consistent.surfaceDestroy (h : ws.Consistent) {w : Nat}
    (next : ws.surfaceDestroy w = some ws') : ws'.Consistent := by
  obtain ⟨mid, before, free, rfl⟩ := h.surfaceDestroy_cases next
  rcases before with rfl | ⟨n, xdg, d, _⟩
  · exact h.dropSurface free
  · exact (d.consistent h).dropSurface free

/-! A new xdg surface. -/

/-- What `server_new_xdg_surface` leaves of a new xdg surface on the surface `w`. -/
structure Announced (ws ws' : Windows) (w : Nat) (role : Role) (surface : Surface) : Prop where
  free : ws.surface w = some surface ∧ surface.xdgSurface = none
  ring : Ring ws'.views (none :: ws'.scene.reverse.map some)
  view : ws'.view = if role = .toplevel then
    Function.update ws.view ws.created (some { xdgSurface := ws.created, sceneNode := ws.created })
    else ws.view
  scene : ws'.scene = if role = .toplevel then ws.scene ++ [ws.created] else ws.scene
  xdgSurface : ws'.xdgSurface = Function.update ws.xdgSurface ws.created
    (some
      { surface := w
        role := role
        destroySignal := if role = .toplevel then [ws.created] else [] })
  surface : ws'.surface = Function.update ws.surface w
    (some
      { xdgSurface := some ws.created
        mapSignal :=
          if role = .toplevel then surface.mapSignal ++ [ws.created] else surface.mapSignal
        unmapSignal :=
          if role = .toplevel then surface.unmapSignal ++ [ws.created] else surface.unmapSignal })
  created : ws'.created = ws.created + 1
  recent : ws'.recent = ws.recent

theorem Consistent.view_fresh (h : ws.Consistent) : ws.view ws.created = none := by
  rw [← Option.not_isSome_iff_eq_none, h.toplevel]
  rintro ⟨xdg, held, _⟩
  rw [h.fresh _ (Nat.le_refl _)] at held
  cases held

theorem Consistent.newXdgSurface (h : ws.Consistent) {w : Nat} {role : Role}
    (next : ws.newXdgSurface w role = some ws') :
    ∃ surface, Announced ws ws' w role surface := by
  obtain ⟨ws₁, made, next⟩ := Option.bind_eq_some_iff.mp next
  obtain ⟨surface, held, made⟩ := Option.bind_eq_some_iff.mp made
  obtain ⟨free, made⟩ := Option.ite_none_right_eq_some.mp made
  obtain rfl := Option.some.inj made
  refine ⟨surface, ?_⟩
  simp only [serverNewXdgSurface, Function.update_self, Option.bind_some] at next
  by_cases toplevel : role = .toplevel
  · have unlisted : some ws.created ∉ none :: ws.scene.reverse.map some := by
      simp [h.listed, h.view_fresh]
    obtain ⟨links, inserted, ring⟩ := h.ring.insertHead unlisted
    rw [if_pos toplevel, inserted, Option.map_some] at next
    obtain rfl := Option.some.inj next
    refine ⟨⟨held, Option.isNone_iff_eq_none.mp free⟩, ?_, ?_, ?_, ?_, ?_, rfl, rfl⟩
    · rw [List.reverse_append]
      exact ring
    · rw [if_pos toplevel]
    · rw [if_pos toplevel]
    · rw [if_pos toplevel]
      exact Function.update_idem _ _ _
    · rw [if_pos toplevel, if_pos toplevel]
      exact Function.update_idem _ _ _
  · rw [if_neg toplevel] at next
    obtain rfl := Option.some.inj next
    refine ⟨⟨held, Option.isNone_iff_eq_none.mp free⟩, h.ring, ?_, ?_, ?_, ?_, rfl, rfl⟩
    · rw [if_neg toplevel]
    · rw [if_neg toplevel]
    · rw [if_neg toplevel]
    · rw [if_neg toplevel, if_neg toplevel]

theorem Consistent.ne_created (h : ws.Consistent) {m : Nat} {x : XdgSurface}
    (live : ws.xdgSurface m = some x) : m ≠ ws.created := by
  rintro rfl
  rw [h.fresh _ (Nat.le_refl _)] at live
  cases live

section
variable {w : Nat} {role : Role} {surface : Surface}

theorem Announced.xdg_iff (a : Announced ws ws' w role surface) (m : Nat) (x : XdgSurface) :
    ws'.xdgSurface m = some x ↔
      (m = ws.created ∧ x =
        { surface := w
          role := role
          destroySignal := if role = .toplevel then [ws.created] else [] }) ∨
      m ≠ ws.created ∧ ws.xdgSurface m = some x := by
  rw [a.xdgSurface, update_some_eq_some_iff]

theorem Announced.view_iff (a : Announced ws ws' w role surface) (h : ws.Consistent) (v : Nat)
    (view : View) :
    ws'.view v = some view ↔
      (role = .toplevel ∧ v = ws.created ∧
        view = { xdgSurface := ws.created, sceneNode := ws.created }) ∨
      ws.view v = some view := by
  rw [a.view]
  by_cases toplevel : role = .toplevel
  · rw [if_pos toplevel, update_some_eq_some_iff]
    by_cases e : v = ws.created
    · simp [e, toplevel, h.view_fresh]
    · simp [e]
  · rw [if_neg toplevel]
    simp [toplevel]

theorem Announced.listed (a : Announced ws ws' w role surface) (h : ws.Consistent) (v : Nat) :
    v ∈ ws'.scene ↔ (ws'.view v).isSome := by
  rw [a.scene, Option.isSome_iff_exists]
  simp only [a.view_iff h, exists_or, ← Option.isSome_iff_exists, ← h.listed v, exists_and_left,
    exists_eq, and_true]
  by_cases toplevel : role = .toplevel
  · simp [toplevel, or_comm]
  · simp [toplevel]

/-- The new xdg surface has a view when it is a toplevel, like every other. -/
theorem Announced.toplevel (a : Announced ws ws' w role surface) (h : ws.Consistent) (v : Nat) :
    (ws'.view v).isSome ↔ ws'.Toplevel v := by
  have kept : (∃ xdg, (v ≠ ws.created ∧ ws.xdgSurface v = some xdg) ∧ xdg.role = .toplevel) ↔
      ws.Toplevel v := by
    constructor
    · rintro ⟨xdg, ⟨_, live⟩, toplevel⟩
      exact ⟨xdg, live, toplevel⟩
    · rintro ⟨xdg, live, toplevel⟩
      exact ⟨xdg, ⟨h.ne_created live, live⟩, toplevel⟩
  rw [Option.isSome_iff_exists]
  simp only [Toplevel, a.view_iff h, a.xdg_iff, or_and_right, exists_or,
    ← Option.isSome_iff_exists, h.toplevel v, kept]
  refine or_congr_left ?_
  constructor
  · rintro ⟨_, toplevel, rfl, _⟩
    exact ⟨_, ⟨rfl, rfl⟩, toplevel⟩
  · rintro ⟨_, ⟨rfl, rfl⟩, toplevel⟩
    exact ⟨_, toplevel, rfl, rfl⟩

theorem Announced.holder (a : Announced ws ws' w role surface) (h : ws.Consistent) (m : Nat)
    (x : XdgSurface) (here : ws'.xdgSurface m = some x) :
    ∃ surface, ws'.surface x.surface = some surface ∧ surface.xdgSurface = some m := by
  rcases (a.xdg_iff m x).mp here with ⟨rfl, rfl⟩ | ⟨_, old⟩
  · exact ⟨_, by rw [a.surface, Function.update_self], rfl⟩
  · obtain ⟨surface', on, owns⟩ := h.role m x old
    refine ⟨surface', ?_, owns⟩
    rw [a.surface, Function.update_of_ne]
    · exact on
    · rintro rfl
      obtain rfl := Option.some.inj (on.symm.trans a.free.1)
      rw [a.free.2] at owns
      cases owns

theorem Announced.owner (a : Announced ws ws' w role surface) (h : ws.Consistent) (w' : Nat)
    (surface' : Surface) (m : Nat) (held : ws'.surface w' = some surface')
    (owns : surface'.xdgSurface = some m) : ∃ x, ws'.xdgSurface m = some x ∧ x.surface = w' := by
  rw [a.surface] at held
  by_cases e : w' = w
  · rw [e, Function.update_self] at held
    obtain rfl := Option.some.inj held
    obtain rfl := Option.some.inj owns
    exact ⟨_, (a.xdg_iff _ _).mpr (Or.inl ⟨rfl, rfl⟩), e.symm⟩
  · rw [Function.update_of_ne e] at held
    obtain ⟨x, live, on⟩ := h.owner w' surface' m held owns
    exact ⟨x, (a.xdg_iff m x).mpr (Or.inr ⟨h.ne_created live, live⟩), on⟩

theorem Announced.consistent (a : Announced ws ws' w role surface) (h : ws.Consistent) :
    ws'.Consistent := by
  refine ⟨a.ring, a.listed h, a.toplevel h, ?_, ?_, ?_, a.holder h, a.owner h⟩
  · intro v view here
    rcases (a.view_iff h v view).mp here with ⟨_, rfl, rfl⟩ | old
    · rfl
    · exact h.place v view old
  · intro m new
    rw [a.created] at new
    rw [a.xdgSurface, Function.update_of_ne (by omega)]
    exact h.fresh m (by omega)
  · intro m x here
    rcases (a.xdg_iff m x).mp here with ⟨rfl, rfl⟩ | ⟨_, old⟩
    · rfl
    · exact h.listener m x old

end

end Windows

end LunaOS.Compositor
