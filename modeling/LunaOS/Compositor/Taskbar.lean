import LunaOS.Compositor.Activation
import LunaOS.Lib.Monitors

/-!
The handles that the panel sees. wlroots maps and unmaps a surface in turn, and unmaps it
before it goes. Under that discipline a view has a foreign toplevel handle exactly while it
is mapped, and the ledger of the handles is balanced by the views: each handle is kept by
the one view it was made for, or was destroyed once.
-/
namespace LunaOS.Compositor
open Runs

namespace Windows

def handleOf (ws : Windows) (v : Nat) : Option Nat :=
  (ws.view v).bind (·.toplevelHandle)

/-- `shown` tells which views are on the screen, `maker` which view a handle was made for. -/
structure Mirrors (ws : Windows) (shown : Nat → Bool) (maker : Nat → Option Nat) : Prop where
  balanced : ws.handles.Balanced ws.handleOf
  view : ∀ v view, ws.view v = some view →
    view.mapped = shown v ∧ view.toplevelHandle.isSome = shown v
  gone : ∀ v, ws.view v = none → shown v = false
  made : ∀ v k, ws.handleOf v = some k → maker k = some v
  all : ∀ k < ws.handles.allocated, (maker k).isSome

variable {ws ws' : Windows} {shown : Nat → Bool} {maker : Nat → Option Nat}

theorem handleOf_congr (view : ws'.view = ws.view) : ws'.handleOf = ws.handleOf := by
  funext v
  rw [handleOf, handleOf, view]

theorem Mirrors.congr (h : ws.Mirrors shown maker) (view : ws'.view = ws.view)
    (handles : ws'.handles = ws.handles) : ws'.Mirrors shown maker where
  balanced := by
    rw [handles, handleOf_congr view]
    exact h.balanced
  view := by
    rw [view]
    exact h.view
  gone := by
    rw [view]
    exact h.gone
  made := by
    rw [handleOf_congr view]
    exact h.made
  all := by
    rw [handles]
    exact h.all

/-- A view that is not on the screen has no handle. -/
theorem Mirrors.handleOf_hidden (h : ws.Mirrors shown maker) {v : Nat}
    (hidden : shown v = false) : ws.handleOf v = none := by
  unfold handleOf
  cases held : ws.view v with
  | none => rfl
  | some view =>
      have none := (h.view v view held).2.trans hidden
      exact Option.isNone_iff_eq_none.mp (by simpa using none)

theorem handleOf_update (view : Nat → Option View) (v : Nat) (new : Option View)
    (replaced : ws'.view = Function.update view v new) :
    ws'.handleOf =
      Function.update (fun u => (view u).bind (·.toplevelHandle)) v
        (new.bind (·.toplevelHandle)) := by
  funext u
  rw [handleOf, replaced]
  by_cases e : u = v
  · rw [e, Function.update_self, Function.update_self]
  · rw [Function.update_of_ne e, Function.update_of_ne e]

/-- A view that is not on the screen comes, goes or is replaced by one without a handle. -/
theorem Mirrors.replace (h : ws.Mirrors shown maker) {v : Nat} {new : Option View}
    (hidden : shown v = false) (replaced : ws'.view = Function.update ws.view v new)
    (bare : ∀ view, new = some view → view.mapped = false ∧ view.toplevelHandle = none)
    (handles : ws'.handles = ws.handles) : ws'.Mirrors shown maker := by
  have same : ws'.handleOf = ws.handleOf := by
    rw [handleOf_update ws.view v new replaced]
    have none : new.bind (·.toplevelHandle) = ws.handleOf v := by
      rw [h.handleOf_hidden hidden]
      cases new with
      | none => rfl
      | some view => exact (bare view rfl).2
    rw [none]
    exact Function.update_eq_self v ws.handleOf
  refine ⟨?_, ?_, ?_, ?_, ?_⟩
  · rw [handles, same]
    exact h.balanced
  · intro u view held
    rw [replaced] at held
    by_cases e : u = v
    · rw [e, Function.update_self] at held
      obtain ⟨unmapped, none⟩ := bare view held
      rw [e, hidden, unmapped, none]
      exact ⟨rfl, rfl⟩
    · rw [Function.update_of_ne e] at held
      exact h.view u view held
  · intro u none
    by_cases e : u = v
    · exact e ▸ hidden
    · rw [replaced, Function.update_of_ne e] at none
      exact h.gone u none
  · rw [same]
    exact h.made
  · rw [handles]
    exact h.all

/-- A view that is replaced shows itself, the others are as they were. -/
theorem Mirrors.view_update (h : ws.Mirrors shown maker) {v : Nat} {new : View} {b : Bool}
    (replaced : ws'.view = Function.update ws.view v (some new)) (mapped : new.mapped = b)
    (handle : new.toplevelHandle.isSome = b) (u : Nat) (view : View)
    (held : ws'.view u = some view) :
    view.mapped = Function.update shown v b u ∧
      view.toplevelHandle.isSome = Function.update shown v b u := by
  rw [replaced] at held
  by_cases e : u = v
  · rw [e, Function.update_self] at held ⊢
    obtain rfl := Option.some.inj held
    exact ⟨mapped, handle⟩
  · rw [Function.update_of_ne e] at held ⊢
    exact h.view u view held

theorem Mirrors.gone_update (h : ws.Mirrors shown maker) {v : Nat} {new : View} {b : Bool}
    (replaced : ws'.view = Function.update ws.view v (some new)) (u : Nat)
    (none : ws'.view u = none) : Function.update shown v b u = false := by
  rw [replaced] at none
  by_cases e : u = v
  · rw [e, Function.update_self] at none
    cases none
  · rw [Function.update_of_ne e] at none ⊢
    exact h.gone u none

/-- A view goes on the screen and gets a new handle. -/
theorem Mirrors.show (h : ws.Mirrors shown maker) {v : Nat} (view : View)
    (hidden : shown v = false) (replaced : ws'.view = Function.update ws.view v
      (some { view with mapped := true, toplevelHandle := some ws.handles.allocated }))
    (handles : ws'.handles = ws.handles.acquire) :
    ws'.Mirrors (Function.update shown v true)
      (Function.update maker ws.handles.allocated (some v)) := by
  have handleOf := handleOf_update ws.view v _ replaced
  refine ⟨?_, h.view_update replaced rfl rfl, h.gone_update replaced, ?_, ?_⟩
  · rw [handles, handleOf]
    exact h.balanced.acquire (h.handleOf_hidden hidden)
  · intro u k keeps
    rw [handleOf] at keeps
    by_cases e : u = v
    · rw [e, Function.update_self] at keeps
      obtain rfl := Option.some.inj keeps
      rw [e, Function.update_self]
    · rw [Function.update_of_ne e] at keeps
      have old := (h.balanced.live u k keeps).1
      rw [Function.update_of_ne (Nat.ne_of_lt old)]
      exact h.made u k keeps
  · intro k lt
    rw [handles] at lt
    by_cases e : k = ws.handles.allocated
    · rw [e, Function.update_self]
      rfl
    · rw [Function.update_of_ne e]
      exact h.all k (Nat.lt_of_le_of_ne (Nat.le_of_lt_succ lt) e)

/-- A view leaves the screen, and its handle is destroyed. -/
theorem Mirrors.viewUnmap (h : ws.Mirrors shown maker) {v : Nat} (visible : shown v = true)
    (next : ws.viewUnmap v = some ws') : ws'.Mirrors (Function.update shown v false) maker := by
  obtain ⟨view, held, next⟩ := Option.map_eq_some_iff.mp next
  obtain ⟨k, keeps⟩ := Option.isSome_iff_exists.mp ((h.view v view held).2.trans visible)
  rw [keeps] at next
  obtain ⟨replaced, handles⟩ : ws'.view = Function.update ws.view v
      (some { view with mapped := false, toplevelHandle := none }) ∧
        ws'.handles = ws.handles.release k := by
    rw [← next]
    exact ⟨rfl, rfl⟩
  have kept : ws.handleOf v = some k := by rw [handleOf, held]; exact keeps
  have handleOf := handleOf_update ws.view v _ replaced
  refine ⟨?_, h.view_update replaced rfl rfl, h.gone_update replaced, ?_, ?_⟩
  · rw [handles, handleOf]
    exact h.balanced.release kept
  · intro u j keeps'
    rw [handleOf] at keeps'
    by_cases e : u = v
    · rw [e, Function.update_self] at keeps'
      cases keeps'
    · rw [Function.update_of_ne e] at keeps'
      exact h.made u j keeps'
  · rw [handles]
    exact h.all

/-! What leaves the handles alone. -/

end Windows

namespace Server
open Windows Monitors

variable {s s' : Server}

/-- What is remembered of the events: the views on the screen, and for whom each handle was
made. -/
structure Lifecycle where
  shown : Nat → Bool := fun _ => false
  maker : Nat → Option Nat := fun _ => none

/-- wlroots maps what is unmapped and unmaps what is mapped, and destroys a toplevel only
after it has unmapped it. -/
def Lifecycle.allows (s : Server) (o : Lifecycle) : Event → Bool
  | .map _ v => !o.shown v
  | .unmap _ v => o.shown v
  | .xdgDestroy n => !o.shown n
  | .surfaceDestroy w => ((s.windows.surface w).bind (·.xdgSurface)).all fun n => !o.shown n
  | _ => true

def Lifecycle.note (s : Server) (e : Event) (o : Lifecycle) : Lifecycle :=
  match e with
  | .map _ v =>
      { shown := Function.update o.shown v true
        maker := Function.update o.maker s.windows.handles.allocated (some v) }
  | .unmap _ v => { o with shown := Function.update o.shown v false }
  | _ => o

end Server
end LunaOS.Compositor
