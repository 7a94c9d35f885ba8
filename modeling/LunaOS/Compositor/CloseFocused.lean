import LunaOS.Compositor.Stacking

/-!
Super+Q. The shortcut closes the first view of `server.views`, which need not be the one
whose surface has the keyboard focus: a new toplevel is put in front of the list before it is
mapped, and the focus moves without `focus_view` where wlroots moves it, where a click names
the main surface of another view, and where the early return of `focus_view` leaves the list
as it is. The exact guard is on these events.
-/
namespace LunaOS.Compositor
open Rings Runs

def View.front (view : View) : Nat × Bool :=
  (view.xdgSurface, view.mapped)

namespace Windows

def MappedOn (ws : Windows) (v w : Nat) : Prop :=
  ∃ view xdg, ws.view v = some view ∧ view.mapped = true ∧
    ws.xdgSurface view.xdgSurface = some xdg ∧ xdg.surface = w

variable {ws ws' : Windows}

/-- A surface is the main surface of one view at most. -/
theorem Consistent.mappedOn_unique (h : ws.Consistent) {u v w : Nat} (on : ws.MappedOn u w)
    (on' : ws.MappedOn v w) : u = v := by
  obtain ⟨view, xdg, held, _, live, rfl⟩ := on
  obtain ⟨view', xdg', held', _, live', same⟩ := on'
  rw [(Prod.mk.inj (h.place u view held)).1] at live
  rw [(Prod.mk.inj (h.place v view' held')).1] at live'
  obtain ⟨surface, there, owns⟩ := h.role u xdg live
  obtain ⟨surface', there', owns'⟩ := h.role v xdg' live'
  rw [same, there] at there'
  obtain rfl := Option.some.inj there'
  exact Option.some.inj (owns.symm.trans owns')

/-- The first view is the one whose node is on top. -/
theorem Consistent.firstView_eq (h : ws.Consistent) : ws.firstView = ws.scene.getLast? := by
  rw [firstView, h.ring.head_next]
  cases top : ws.scene.getLast? with
  | none =>
      rw [List.getLast?_eq_none_iff.mp top]
      rfl
  | some v =>
      obtain ⟨below, split⟩ := List.getLast?_eq_some_iff.mp top
      rw [split, List.reverse_append]
      rfl

/-! What the operations do to the mapped views. -/

structure SameFront (ws ws' : Windows) : Prop where
  view : ∀ v, (ws'.view v).map View.front = (ws.view v).map View.front
  xdg : ∀ n, (ws'.xdgSurface n).map XdgSurface.surface =
    (ws.xdgSurface n).map XdgSurface.surface

theorem SameFront.symm (same : SameFront ws ws') : SameFront ws' ws where
  view := fun v => (same.view v).symm
  xdg := fun n => (same.xdg n).symm

theorem SameFront.trans {ws'' : Windows} (same : SameFront ws ws') (next : SameFront ws' ws'') :
    SameFront ws ws'' where
  view := fun v => (next.view v).trans (same.view v)
  xdg := fun n => (next.xdg n).trans (same.xdg n)

theorem SameFront.mappedOn (same : SameFront ws ws') {v w : Nat} (on : ws'.MappedOn v w) :
    ws.MappedOn v w := by
  obtain ⟨view', xdg', held', mapped, live', rfl⟩ := on
  obtain ⟨view, held, front⟩ := exists_of_map_eq (same.view v) held'
  obtain ⟨on, flag⟩ := Prod.mk.inj front
  obtain ⟨xdg, live, placed⟩ := exists_of_map_eq (same.xdg _) live'
  exact ⟨view, xdg, held, flag.trans mapped, by rw [on]; exact live, placed⟩

theorem SameFront.mappedOn_iff (same : SameFront ws ws') {v w : Nat} :
    ws'.MappedOn v w ↔ ws.MappedOn v w :=
  ⟨same.mappedOn, same.symm.mappedOn⟩

theorem sameFront_setActivated (n : Nat) (b : Bool) : SameFront ws (ws.setActivated n b) where
  view := fun _ => rfl
  xdg := map_update_map XdgSurface.surface (fun xdg => { xdg with activated := b })
    (fun _ => rfl) _ n

theorem sameFront_deactivate (prev : Option Nat) : SameFront ws (ws.deactivate prev) := by
  unfold Windows.deactivate
  split
  · exact ⟨fun _ => rfl, fun _ => rfl⟩
  · split
    · exact sameFront_setActivated _ _
    · exact ⟨fun _ => rfl, fun _ => rfl⟩

theorem sameFront_raise {v : Nat} {view : View} (raised : ws.raise v view = some ws') :
    SameFront ws ws' := by
  obtain ⟨_, _, raised⟩ := Option.bind_eq_some_iff.mp raised
  obtain ⟨_, _, rfl⟩ := Option.map_eq_some_iff.mp raised
  have same : SameFront ws (ws.setActivated view.xdgSurface true) := sameFront_setActivated _ _
  exact ⟨same.view, same.xdg⟩

theorem sameFront_createHandle (v : Nat) (title appId : Option String) :
    SameFront ws (ws.createHandle v title appId) where
  view := map_update_map View.front
    (fun view => { view with toplevelHandle := some ws.handles.allocated }) (fun _ => rfl) _ v
  xdg := fun _ => rfl

theorem sameFront_setTitle {n : Nat} {title appId : Option String}
    (next : ws.setTitle n title appId = some ws') : SameFront ws ws' := by
  obtain ⟨xdg, held, rfl⟩ := Option.map_eq_some_iff.mp next
  exact ⟨fun _ => rfl, map_update_some XdgSurface.surface held rfl⟩

theorem Announced.mappedOn_iff {w : Nat} {role : Role} {surface : Surface}
    (a : Announced ws ws' w role surface) (h : ws.Consistent) {v w' : Nat} :
    ws'.MappedOn v w' ↔ ws.MappedOn v w' := by
  constructor
  · rintro ⟨view, xdg, held, mapped, live, on⟩
    rcases (a.view_iff h v view).mp held with ⟨_, _, rfl⟩ | old
    · cases mapped
    · refine ⟨view, xdg, old, mapped, ?_, on⟩
      rcases (a.xdg_iff _ xdg).mp live with ⟨new, _⟩ | ⟨_, live⟩
      · have same : v = ws.created := (Prod.mk.inj (h.place v view old)).1.symm.trans new
        rw [same, h.view_fresh] at old
        cases old
      · exact live
  · rintro ⟨view, xdg, held, mapped, live, on⟩
    exact ⟨view, xdg, (a.view_iff h v view).mpr (Or.inr held), mapped,
      (a.xdg_iff _ xdg).mpr (Or.inr ⟨h.ne_created live, live⟩), on⟩

theorem Destroyed.mappedOn {n : Nat} {xdg : XdgSurface} (d : Destroyed ws ws' n xdg) {v w : Nat}
    (on : ws'.MappedOn v w) : v ≠ n ∧ ws.MappedOn v w := by
  obtain ⟨view, x, held, mapped, live, on⟩ := on
  obtain ⟨other, old⟩ := (d.view_iff v view).mp held
  exact ⟨other, view, x, old, mapped, ((d.xdg_iff _ x).mp live).2, on⟩

theorem viewUnmap_mappedOn {u v w : Nat} (next : ws.viewUnmap v = some ws')
    (on : ws'.MappedOn u w) : ws.MappedOn u w := by
  obtain ⟨view, held, rfl⟩ := Option.map_eq_some_iff.mp next
  have other {new : View} (unmapped : new.mapped = false)
      (on : (ws.setView v new).MappedOn u w) : ws.MappedOn u w := by
    obtain ⟨view', xdg, here, mapped, live, on⟩ := on
    change Function.update ws.view v (some new) u = some view' at here
    by_cases e : u = v
    · rw [e, Function.update_self] at here
      obtain rfl := Option.some.inj here
      exact absurd (unmapped.symm.trans mapped) Bool.false_ne_true
    · rw [Function.update_of_ne e] at here
      exact ⟨view', xdg, here, mapped, live, on⟩
  split at on
  · exact other rfl on
  · exact other rfl on

/-- Marking a view as mapped maps it on its own surface. -/
theorem setView_mappedOn {v : Nat} {view : View} (held : ws.view v = some view) {u w : Nat} :
    (ws.setView v { view with mapped := true }).MappedOn u w ↔ ws.MappedOn u w ∨
      u = v ∧ ∃ xdg, ws.xdgSurface view.xdgSurface = some xdg ∧ xdg.surface = w := by
  unfold MappedOn
  change (∃ view' xdg, Function.update ws.view v _ u = some view' ∧ _) ↔ _
  by_cases e : u = v
  · subst e
    simp only [Function.update_self, Option.some.injEq, true_and]
    constructor
    · rintro ⟨_, xdg, rfl, _, live, on⟩
      exact Or.inr ⟨xdg, live, on⟩
    · rintro (⟨view', xdg, held', _, live, on⟩ | ⟨xdg, live, on⟩)
      · obtain rfl := Option.some.inj (held.symm.trans held')
        exact ⟨_, xdg, rfl, rfl, live, on⟩
      · exact ⟨_, xdg, rfl, rfl, live, on⟩
  · rw [Function.update_of_ne e]
    simp [e, setView]

/-! What the operations do to the first view. -/

theorem Announced.firstView {w : Nat} {role : Role} {surface : Surface}
    (a : Announced ws ws' w role surface) (h : ws.Consistent) :
    ws'.firstView = if role = .toplevel then some ws.created else ws.firstView := by
  rw [(a.consistent h).firstView_eq, h.firstView_eq, a.scene]
  split
  · exact List.getLast?_concat
  · rfl

theorem Destroyed.firstView {n v : Nat} {xdg : XdgSurface} (d : Destroyed ws ws' n xdg)
    (h : ws.Consistent) (other : v ≠ n) (first : ws.firstView = some v) :
    ws'.firstView = some v := by
  rw [h.firstView_eq] at first
  obtain ⟨below, split⟩ := List.getLast?_eq_some_iff.mp first
  rw [(d.consistent h).firstView_eq, d.scene, split]
  by_cases member : n ∈ below
  · rw [List.erase_append_left _ member]
    exact List.getLast?_concat
  · rw [List.erase_append_right _ member, List.erase_of_not_mem (by simpa using Ne.symm other)]
    exact List.getLast?_concat

theorem raise_firstView (h : ws.Consistent) {v : Nat} {view : View}
    (held : ws.view v = some view) (raised : ws.raise v view = some ws') :
    ws'.firstView = some v := by
  obtain ⟨_, same, consistent⟩ := h.raise held
  obtain rfl := Option.some.inj (same.symm.trans raised)
  rw [consistent.firstView_eq]
  obtain ⟨_, _, raised⟩ := Option.bind_eq_some_iff.mp raised
  obtain ⟨_, _, rfl⟩ := Option.map_eq_some_iff.mp raised
  rw [← (Prod.mk.inj (h.place v view held)).2]
  exact List.getLast?_concat

theorem viewUnmap_firstView {v : Nat} (next : ws.viewUnmap v = some ws') :
    ws'.firstView = ws.firstView := by
  obtain ⟨view, held, rfl⟩ := Option.map_eq_some_iff.mp next
  split <;> rfl

theorem setTitle_firstView {n : Nat} {title appId : Option String}
    (next : ws.setTitle n title appId = some ws') : ws'.firstView = ws.firstView := by
  obtain ⟨xdg, held, rfl⟩ := Option.map_eq_some_iff.mp next
  rfl

end Windows

namespace Server
open Windows

variable {s s' : Server}

/-- Super+Q as a key event: the only keysym of the key is q. -/
structure SuperQ (xkb : Nat → XkbState) (event : KeyEvent) : Prop where
  pressed : event.pressed = true
  logo : ∀ kb, (xkb kb).modifiers &&& wlrModifierLogo ≠ 0
  syms : ∀ kb, (xkb kb).syms (event.keycode + 8) = [xkbKeyq]

/-- With a keyboard attached, Super+Q closes the mapped window that has the focus and
no other. -/
def ClosesFocused (s : Server) : Prop :=
  s.seat.keyboard.isSome → ∀ v view xdg, s.windows.view v = some view → view.mapped = true →
    s.windows.xdgSurface view.xdgSurface = some xdg → s.seat.focusedSurface = some xdg.surface →
      ∀ xkb event, SuperQ xkb event →
        (s.handleKeyboardKey xkb event).closed = s.closed ++ [view.xdgSurface]

/-- A mapped view on `w` is the first of the list. -/
def FirstOn (s : Server) (w : Nat) : Prop :=
  ∀ v, s.windows.MappedOn v w → s.windows.firstView = some v

def FocusFirst (s : Server) : Prop :=
  s.seat.keyboard.isSome → ∀ w, s.seat.focusedSurface = some w → s.FirstOn w

theorem superQ_closed {xkb : Nat → XkbState} {event : KeyEvent} (q : SuperQ xkb event)
    (keyboard : s.seat.keyboard.isSome) :
    (s.handleKeyboardKey xkb event).closed =
      (s.windows.firstView.elim s fun v => s.closeFirst v).closed := by
  obtain ⟨kb, attached⟩ := Option.isSome_iff_exists.mp keyboard
  simp only [handleKeyboardKey, attached, keyOf, shortcuts, q.pressed, q.logo kb, q.syms kb,
    ne_eq, not_false_eq_true, and_self, if_true, List.foldl_cons, List.foldl_nil, shortcut]
  cases s.windows.firstView with
  | none => rfl
  | some v => rfl

theorem closesFocused_iff (h : s.windows.Consistent) : s.ClosesFocused ↔ s.FocusFirst := by
  constructor
  · rintro closes keyboard w focus v ⟨view, xdg, held, mapped, live, rfl⟩
    have q : SuperQ (fun _ => ⟨fun _ => [xkbKeyq], wlrModifierLogo⟩) ⟨0, 0, true⟩ :=
      ⟨rfl, fun _ => by decide, fun _ => rfl⟩
    have closed := closes keyboard v view xdg held mapped live focus _ _ q
    rw [superQ_closed q keyboard] at closed
    cases first : s.windows.firstView with
    | none =>
        rw [first] at closed
        simp at closed
    | some u =>
        rw [first] at closed
        simp only [Option.elim_some, closeFirst] at closed
        split at closed
        · rename_i view' held'
          split at closed
          · have same := List.singleton_inj.mp (List.append_cancel_left closed)
            rw [(Prod.mk.inj (h.place u view' held')).1,
              (Prod.mk.inj (h.place v view held)).1] at same
            rw [same]
          · simp at closed
        · simp at closed
  · intro first keyboard v view xdg held mapped live focus xkb event q
    rw [superQ_closed q keyboard,
      first keyboard xdg.surface focus v ⟨view, xdg, held, mapped, live, rfl⟩]
    simp only [Option.elim_some, closeFirst, held, mapped, if_true]

/-- No toplevel is created while a mapped window has the focus; the mapped window that the
focus goes to without `focus_view`, or that `focus_view` returns early for, is the first; and
a click that moves the focus does not name the main surface of another mapped window. -/
def KeepsFocusFirst (s : Server) : Event → Prop
  | .newXdgSurface _ role => role = .toplevel → s.seat.keyboard.isSome →
      ∀ w, s.seat.focusedSurface = some w → ∀ v, ¬ s.windows.MappedOn v w
  | .map _ v => s.seat.keyboard.isSome → ∀ view xdg, s.windows.view v = some view →
      s.windows.xdgSurface view.xdgSurface = some xdg →
        s.seat.focusedSurface = some xdg.surface → s.windows.firstView = some v
  | .button true (some (v, surface)) => s.seat.keyboard.isSome →
      s.seat.focusedSurface ≠ some surface → ∀ u, s.windows.MappedOn u surface → u = v
  | .seatFocus (some w) => s.seat.keyboard.isSome → s.FirstOn w
  | .newInput (.keyboard _) => ∀ w, s.seat.focusedSurface = some w → s.FirstOn w
  | _ => True

/-- The same seat, or one that lost its focus, with the same first view and no new mapped
views. -/
theorem FocusFirst.of_less (first : s.FocusFirst)
    (keyboard : s'.seat.keyboard.isSome → s.seat.keyboard.isSome)
    (focus : ∀ w, s'.seat.focusedSurface = some w → s.seat.focusedSurface = some w)
    (mapped : ∀ v w, s'.windows.MappedOn v w → s.windows.MappedOn v w)
    (firstView : ∀ v w, s'.windows.MappedOn v w → s.windows.firstView = some v →
      s'.windows.firstView = some v) : s'.FocusFirst :=
  fun attached w focused v on =>
    firstView v w on (first (keyboard attached) w (focus w focused) v (mapped v w on))

theorem FocusFirst.of_windows (first : s.FocusFirst) (windows : s'.windows = s.windows)
    (keyboard : s'.seat.keyboard.isSome → s.seat.keyboard.isSome)
    (focus : s'.seat.focusedSurface = s.seat.focusedSurface) : s'.FocusFirst := by
  refine first.of_less keyboard (fun w focused => focus.symm.trans focused) ?_ ?_ <;> rw [windows]
  · exact fun _ _ on => on
  · exact fun _ _ _ same => same

/-- The body of `focus_view` makes the view the first. -/
theorem focusView_late (h : s.windows.Consistent) {v surface : Nat}
    (next : s.focusView v surface = some s') (late : s.seat.focusedSurface ≠ some surface) :
    s'.FocusFirst ↔
      (s.seat.keyboard.isSome → ∀ u, s.windows.MappedOn u surface → u = v) := by
  obtain ⟨view, held, next⟩ := Option.bind_eq_some_iff.mp next
  obtain ⟨ws, raised, rfl⟩ := Option.map_eq_some_iff.mp ((if_neg late).symm.trans next)
  have still : (s.windows.deactivate s.seat.focusedSurface).view v = some view := by
    rw [deactivate_view]
    exact held
  have firstView := raise_firstView (h.deactivate _) still raised
  have same : SameFront s.windows ws := (sameFront_deactivate _).trans (sameFront_raise raised)
  by_cases keyboard : s.seat.keyboard.isSome = true
  · have entered : s.seat.enter surface = { s.seat with focusedSurface := some surface } :=
      if_pos keyboard
    unfold FocusFirst FirstOn
    simp only [entered, keyboard, firstView, Option.some.injEq, forall_eq', same.mappedOn_iff,
      true_imp_iff, eq_comm]
  · have kept : s.seat.enter surface = s.seat := if_neg keyboard
    refine iff_of_true (fun attached => absurd ?_ keyboard) fun attached => absurd attached keyboard
    rwa [← kept]

theorem focusView_early {v surface : Nat} (next : s.focusView v surface = some s')
    (early : s.seat.focusedSurface = some surface) : s' = s := by
  obtain ⟨view, _, next⟩ := Option.bind_eq_some_iff.mp next
  exact (Option.some.inj ((if_pos early).symm.trans next)).symm

theorem clicked_focusFirst_iff (h : s.windows.Consistent) (first : s.FocusFirst)
    {v surface : Nat} (next : s.focusView v surface = some s') :
    s'.FocusFirst ↔ s.KeepsFocusFirst (.button true (some (v, surface))) := by
  by_cases early : s.seat.focusedSurface = some surface
  · rw [focusView_early next early]
    exact iff_of_true first fun _ late => absurd early late
  · rw [focusView_late h next early]
    exact ⟨fun only keyboard _ => only keyboard, fun only keyboard => only keyboard early⟩

theorem mapped_focusFirst_iff (h : s.windows.Consistent) (w : Nat) {v : Nat}
    (next : s.viewMap v = some s') : s'.FocusFirst ↔ s.KeepsFocusFirst (.map w v) := by
  obtain ⟨view, held, next⟩ := Option.bind_eq_some_iff.mp next
  obtain ⟨xdg, live, next⟩ := Option.bind_eq_some_iff.mp next
  obtain ⟨mid, focused, rfl⟩ := Option.map_eq_some_iff.mp next
  let marked : Server := { s with windows := s.windows.setView v { view with mapped := true } }
  have h' : marked.windows.Consistent := h.setView held rfl
  have here : marked.windows.MappedOn v xdg.surface :=
    (setView_mappedOn held).mpr (Or.inr ⟨rfl, xdg, live, rfl⟩)
  have guard : s.KeepsFocusFirst (.map w v) ↔ (s.seat.keyboard.isSome →
      s.seat.focusedSurface = some xdg.surface → s.windows.firstView = some v) := by
    constructor
    · exact fun keeps keyboard => keeps keyboard view xdg held live
    · intro keeps keyboard view' xdg' held' live'
      obtain rfl := Option.some.inj (held.symm.trans held')
      obtain rfl := Option.some.inj (live.symm.trans live')
      exact keeps keyboard
  have handled : Server.FocusFirst
      { mid with windows := mid.windows.createHandle v xdg.title xdg.appId } ↔
        mid.FocusFirst := by
    have same : SameFront mid.windows (mid.windows.createHandle v xdg.title xdg.appId) :=
      sameFront_createHandle v xdg.title xdg.appId
    unfold FocusFirst FirstOn
    simp only [same.mappedOn_iff]
    rfl
  rw [handled, guard]
  by_cases early : s.seat.focusedSurface = some xdg.surface
  · rw [focusView_early focused early]
    constructor
    · exact fun after keyboard _ => after keyboard xdg.surface early v here
    · intro keeps keyboard w' focus u on
      obtain rfl := Option.some.inj (early.symm.trans focus)
      rw [h'.mappedOn_unique on here]
      exact keeps keyboard early
  · rw [focusView_late h' focused early]
    exact iff_of_true (fun _ u on => h'.mappedOn_unique on here)
      fun _ focus => absurd focus early

theorem FocusFirst.handleKeyboardKey (first : s.FocusFirst) (xkb : Nat → XkbState)
    (event : KeyEvent) : (s.handleKeyboardKey xkb event).FocusFirst := by
  unfold Server.handleKeyboardKey
  cases attached : s.seat.keyboard with
  | none => exact first
  | some kb =>
      have agrees := s.shortcuts_agree (xkb kb) event
      dsimp only
      refine first.of_windows (keyOf_windows ..) (fun _ => by rw [attached]; rfl) ?_
      cases handled : (s.shortcuts (xkb kb) event).2 with
      | true => rw [keyOf_of_handled kb handled, agrees.seat]
      | false =>
          rw [keyOf_of_not_handled kb handled]
          change (s.shortcuts (xkb kb) event).1.seat.focusedSurface = _
          rw [agrees.seat]

/-- A new toplevel is put before every window. -/
theorem announced_focusFirst_iff (h : s.windows.Consistent) (first : s.FocusFirst) {w : Nat}
    {role : Role} {surface : Surface} {ws : Windows} (a : Announced s.windows ws w role surface) :
    FocusFirst { s with windows := ws } ↔ s.KeepsFocusFirst (.newXdgSurface w role) := by
  have firstView := a.firstView h
  by_cases toplevel : role = .toplevel
  · rw [if_pos toplevel] at firstView
    constructor
    · intro after _ keyboard w' focus v on
      have same := after keyboard w' focus v ((a.mappedOn_iff h).mpr on)
      obtain rfl := Option.some.inj (firstView.symm.trans same)
      obtain ⟨view, _, held, _⟩ := on
      rw [h.view_fresh] at held
      cases held
    · intro keeps keyboard w' focus v on
      exact absurd ((a.mappedOn_iff h).mp on) (keeps toplevel keyboard w' focus v)
  · rw [if_neg toplevel] at firstView
    refine iff_of_true ?_ fun same => absurd same toplevel
    exact first.of_less id (fun _ => id) (fun _ _ on => (a.mappedOn_iff h).mp on)
      fun _ _ _ same => firstView.trans same

theorem FocusFirst.destroyed (first : s.FocusFirst) (h : s.windows.Consistent) {ws : Windows}
    {n : Nat} {xdg : XdgSurface} (d : Destroyed s.windows ws n xdg) :
    FocusFirst { s with windows := ws } :=
  first.of_less id (fun _ => id) (fun _ _ on => (d.mappedOn on).2)
    fun _ _ on same => d.firstView h (d.mappedOn on).1 same

/-- The seat loses the focus with the surface that has it. -/
theorem FocusFirst.surfaceDestroyed (first : s.FocusFirst) (w : Nat) :
    FocusFirst { s with seat := s.seat.surfaceDestroyed w } := by
  have keyboard : (s.seat.surfaceDestroyed w).keyboard = s.seat.keyboard := by
    unfold Seat.surfaceDestroyed
    split <;> rfl
  refine first.of_less (fun attached => keyboard ▸ attached) ?_ (fun _ _ => id)
    fun _ _ _ same => same
  intro w' focused
  change (s.seat.surfaceDestroyed w).focusedSurface = some w' at focused
  unfold Seat.surfaceDestroyed at focused
  split at focused
  · cases focused
  · exact focused

theorem FocusFirst.handleKeyboardModifiers (first : s.FocusFirst) :
    s.handleKeyboardModifiers.FocusFirst := by
  unfold Server.handleKeyboardModifiers
  cases attached : s.seat.keyboard with
  | none => exact first
  | some kb => exact first.of_windows rfl (fun _ => by rw [attached]; rfl) rfl

/-- The exact guard of one event. -/
theorem focusFirst_step_iff (h : s.windows.Consistent) (first : s.FocusFirst) {e : Event}
    (next : s.step e = some s') : s'.FocusFirst ↔ s.KeepsFocusFirst e := by
  cases step_taken next with
  | newOutput scale modes os _ | outputDestroy o os _ =>
      exact iff_of_true (first.of_windows rfl id rfl) trivial
  | newXdgSurface w role ws made =>
      obtain ⟨surface, a⟩ := h.newXdgSurface made
      exact announced_focusFirst_iff h first a
  | setTitle n title appId ws titled =>
      refine iff_of_true ?_ trivial
      exact first.of_less id (fun _ => id) (fun _ _ => (sameFront_setTitle titled).mappedOn)
        fun _ _ _ same => (setTitle_firstView titled).trans same
  | map w v _ mapped => exact mapped_focusFirst_iff h w mapped
  | unmap w v ws unmapped =>
      refine iff_of_true ?_ trivial
      exact first.of_less id (fun _ => id) (fun _ _ => viewUnmap_mappedOn unmapped)
        fun _ _ _ same => (viewUnmap_firstView unmapped).trans same
  | xdgDestroy n ws destroyed =>
      obtain ⟨xdg, live, _⟩ := Option.bind_eq_some_iff.mp destroyed
      obtain ⟨ws', same, d⟩ := h.xdgDestroy live
      obtain rfl := Option.some.inj (same.symm.trans destroyed)
      exact iff_of_true (first.destroyed h d) trivial
  | surfaceDestroy w ws destroyed =>
      obtain ⟨mid, before, _, rfl⟩ := h.surfaceDestroy_cases destroyed
      have gone : FocusFirst { s with windows := mid } := by
        rcases before with rfl | ⟨n, xdg, d, _⟩
        · exact first
        · exact first.destroyed h d
      exact iff_of_true (gone.surfaceDestroyed w) trivial
  | pressed v surface _ focused => exact clicked_focusFirst_iff h first focused
  | missed pressed => exact iff_of_true first (by cases pressed <;> trivial)
  | released | pointer | other => exact iff_of_true first trivial
  | seatFocus surface =>
      cases surface with
      | none => exact iff_of_true (fun _ _ focus => absurd focus nofun) trivial
      | some w =>
          constructor
          · exact fun after keyboard => after keyboard w rfl
          · intro keeps keyboard w' focus
            exact Option.some.inj focus ▸ keeps keyboard
  | keyboard k _ new attaches =>
      obtain ⟨_, _, attaches⟩ := Option.bind_eq_some_iff.mp attaches
      obtain ⟨_, _, rfl⟩ := Option.map_eq_some_iff.mp attaches
      exact ⟨fun after => after rfl, fun keeps _ => keeps⟩
  | key k xkb event known => exact iff_of_true (first.handleKeyboardKey xkb event) trivial
  | modifiers k => exact iff_of_true first.handleKeyboardModifiers trivial

/-- In every state of a run Super+Q closes the mapped window that has the focus and no
other, exactly when every event of the run keeps that window first. -/
theorem super_q_closes_focused_iff (events : List Event) :
    (∀ s, Visits step start events s → s.ClosesFocused) ↔
      ∀ s e, Takes step start events s e → s.KeepsFocusFirst e := by
  refine Runs.visits_iff_takes (fun s => s.windows.Consistent) ClosesFocused KeepsFocusFirst
    ?_ ?_ consistent_start ?_ events
  · exact fun s e s' h _ _ next => step_consistent h next
  · intro s e s' h closes next
    rw [closesFocused_iff (step_consistent h next)]
    exact focusFirst_step_iff h ((closesFocused_iff h).mp closes) next
  · exact fun keyboard => absurd keyboard (by decide)

/-- A window is mapped, and a second toplevel created but not mapped: Super+Q closes
nothing. -/
theorem super_q_closes_nothing :
    ∃ s, Visits step start
        [.newInput (.keyboard 0), .newXdgSurface 7 .toplevel, .map 7 0,
          .newXdgSurface 8 .toplevel] s ∧
      s.seat.focusedSurface = some 7 ∧ s.windows.MappedOn 0 7 ∧ ¬ s.ClosesFocused := by
  have ends : (run step start
      [.newInput (.keyboard 0), .newXdgSurface 7 .toplevel, .map 7 0,
        .newXdgSurface 8 .toplevel]).any (fun s =>
          s.seat.keyboard.isSome && s.seat.focusedSurface = some 7 &&
            (s.windows.view 0).any (fun view => view.mapped &&
              (s.windows.xdgSurface view.xdgSurface).any (·.surface = 7)) &&
            s.windows.firstView = some 1) = true := by
    decide +kernel
  obtain ⟨s, reached, all⟩ := Option.any_eq_true _ _ |>.mp ends
  simp only [Bool.and_eq_true, decide_eq_true_eq] at all
  obtain ⟨⟨⟨keyboard, focus⟩, shown⟩, first⟩ := all
  obtain ⟨view, held, shown⟩ := Option.any_eq_true _ _ |>.mp shown
  obtain ⟨mapped, shown⟩ := Bool.and_eq_true_iff.mp shown
  obtain ⟨xdg, live, on⟩ := Option.any_eq_true _ _ |>.mp shown
  have here : s.windows.MappedOn 0 7 := ⟨view, xdg, held, mapped, live, of_decide_eq_true on⟩
  refine ⟨s, visits_of_run reached, focus, here, fun closes => ?_⟩
  have top := (closesFocused_iff (run_consistent reached)).mp closes keyboard 7 focus 0 here
  exact absurd (first.symm.trans top) (by decide)

end Server
end LunaOS.Compositor
