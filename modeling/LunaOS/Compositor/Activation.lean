import LunaOS.Compositor.Stacking

/-!
Which toplevels are activated. `focus_view` deactivates the toplevel of the surface
that has the keyboard focus, not the one it activated last: these differ when there
was no keyboard, or when the focus went to a subsurface. The exact guard is on the
calls that pass the early return.
-/
namespace LunaOS.Compositor

namespace Windows

def Activated (ws : Windows) (v : Nat) : Prop :=
  ∃ view xdg, ws.view v = some view ∧ ws.xdgSurface view.xdgSurface = some xdg ∧
    xdg.activated = true

/-- Only the view last passed through the body of `focus_view` may be activated. -/
def OneActivated (ws : Windows) : Prop :=
  ∀ v, ws.Activated v → ws.recent = some v

/-- That view, while it lives, is activated. -/
def RecentActivated (ws : Windows) : Prop :=
  ∀ u, ws.recent = some u → u < ws.created ∧ ((ws.view u).isSome → ws.Activated u)

variable {ws ws' : Windows}

/-! What does not touch the activation. -/

structure SameActivation (ws ws' : Windows) : Prop where
  view : ∀ v, (ws'.view v).map View.place = (ws.view v).map View.place
  xdg : ∀ n, (ws'.xdgSurface n).map XdgSurface.activated =
    (ws.xdgSurface n).map XdgSurface.activated
  recent : ws'.recent = ws.recent
  created : ws'.created = ws.created

theorem SameActivation.symm (same : SameActivation ws ws') : SameActivation ws' ws where
  view := fun v => (same.view v).symm
  xdg := fun n => (same.xdg n).symm
  recent := same.recent.symm
  created := same.created.symm

theorem SameActivation.activated (same : SameActivation ws ws') {v : Nat}
    (active : ws'.Activated v) : ws.Activated v := by
  obtain ⟨view', xdg', held', live', active⟩ := active
  obtain ⟨view, held, place⟩ := exists_of_map_eq (same.view v) held'
  obtain ⟨on, _⟩ := Prod.mk.inj place
  obtain ⟨xdg, live, flag⟩ := exists_of_map_eq (same.xdg _) live'
  exact ⟨view, xdg, held, by rw [on]; exact live, flag.trans active⟩

theorem SameActivation.isSome_iff (same : SameActivation ws ws') (v : Nat) :
    (ws'.view v).isSome ↔ (ws.view v).isSome := by
  rw [← Option.isSome_map, same.view v, Option.isSome_map]

theorem SameActivation.oneActivated_iff (same : SameActivation ws ws') :
    ws'.OneActivated ↔ ws.OneActivated := by
  constructor
  · intro one v active
    exact same.recent ▸ one v (same.symm.activated active)
  · intro one v active
    exact same.recent ▸ one v (same.activated active)

theorem SameActivation.recentActivated (same : SameActivation ws ws')
    (h : ws.RecentActivated) : ws'.RecentActivated := by
  intro u recent
  obtain ⟨old, active⟩ := h u (same.recent ▸ recent)
  exact ⟨same.created ▸ old, fun live => same.symm.activated (active ((same.isSome_iff u).mp live))⟩

theorem SameActivation.of_sameObjects (same : SameObjects ws ws')
    (xdg : ∀ n, (ws'.xdgSurface n).map XdgSurface.activated =
      (ws.xdgSurface n).map XdgSurface.activated)
    (recent : ws'.recent = ws.recent) : SameActivation ws ws' :=
  ⟨same.view, xdg, recent, same.created⟩

theorem sameActivation_setView {v : Nat} {view new : View} (held : ws.view v = some view)
    (same : new.place = view.place) : SameActivation ws (ws.setView v new) :=
  .of_sameObjects (sameObjects_setView held same) (fun _ => rfl) rfl

theorem sameActivation_createHandle (v : Nat) (title appId : Option String) :
    SameActivation ws (ws.createHandle v title appId) :=
  .of_sameObjects (sameObjects_createHandle v title appId) (fun _ => rfl) rfl

theorem sameActivation_viewUnmap {v : Nat} (next : ws.viewUnmap v = some ws') :
    SameActivation ws ws' := by
  have same := sameObjects_viewUnmap next
  obtain ⟨view, held, rfl⟩ := Option.map_eq_some_iff.mp next
  refine .of_sameObjects same (fun n => ?_) ?_ <;> split <;> rfl

theorem sameActivation_setTitle {n : Nat} {title appId : Option String}
    (next : ws.setTitle n title appId = some ws') : SameActivation ws ws' := by
  have same := sameObjects_setTitle next
  obtain ⟨xdg, held, rfl⟩ := Option.map_eq_some_iff.mp next
  exact .of_sameObjects same (map_update_some _ held rfl) rfl

/-! Objects come and go. -/

theorem Announced.activated {w : Nat} {role : Role} {surface : Surface}
    (a : Announced ws ws' w role surface) (h : ws.Consistent) {v : Nat} :
    ws'.Activated v ↔ ws.Activated v := by
  have old (view : View) (held : ws.view v = some view) : v ≠ ws.created := by
    rintro rfl
    rw [h.view_fresh] at held
    cases held
  constructor
  · rintro ⟨view, xdg, held, live, active⟩
    have on := (Prod.mk.inj ((a.consistent h).place v view held)).1
    rw [on, a.xdgSurface] at live
    by_cases e : v = ws.created
    · rw [e, Function.update_self] at live
      obtain rfl := Option.some.inj live
      cases active
    · rw [Function.update_of_ne e] at live
      have held' : ws.view v = some view := by
        rw [a.view] at held
        split at held
        · rwa [Function.update_of_ne e] at held
        · exact held
      exact ⟨view, xdg, held', by rw [on]; exact live, active⟩
  · rintro ⟨view, xdg, held, live, active⟩
    have on := (Prod.mk.inj (h.place v view held)).1
    have e := old view held
    refine ⟨view, xdg, ?_, ?_, active⟩
    · rw [a.view]
      split
      · rwa [Function.update_of_ne e]
      · exact held
    · rw [on] at live ⊢
      rwa [a.xdgSurface, Function.update_of_ne e]

theorem Destroyed.activated {n : Nat} {xdg : XdgSurface} (d : Destroyed ws ws' n xdg)
    (h : ws.Consistent) {v : Nat} : ws'.Activated v ↔ v ≠ n ∧ ws.Activated v := by
  unfold Activated
  rw [d.view, d.xdgSurface]
  by_cases e : v = n
  · rw [e, Function.update_self]
    simp
  · rw [Function.update_of_ne e]
    constructor
    · rintro ⟨view, xdg, held, live, active⟩
      have on := (Prod.mk.inj (h.place v view held)).1
      rw [on, Function.update_of_ne e, ← on] at live
      exact ⟨e, view, xdg, held, live, active⟩
    · rintro ⟨_, view, xdg, held, live, active⟩
      have on := (Prod.mk.inj (h.place v view held)).1
      rw [on] at live
      exact ⟨view, xdg, held, by rwa [on, Function.update_of_ne e], active⟩

theorem Announced.recentActivated {w : Nat} {role : Role} {surface : Surface}
    (a : Announced ws ws' w role surface) (h : ws.Consistent) (recent : ws.RecentActivated) :
    ws'.RecentActivated := by
  intro u last
  obtain ⟨old, active⟩ := recent u (a.recent ▸ last)
  refine ⟨by rw [a.created]; omega, fun live => (a.activated h).mpr (active ?_)⟩
  rw [a.view] at live
  split at live
  · rwa [Function.update_of_ne (by omega)] at live
  · exact live

theorem Destroyed.recentActivated {n : Nat} {xdg : XdgSurface}
    (d : Destroyed ws ws' n xdg) (h : ws.Consistent) (recent : ws.RecentActivated) :
    ws'.RecentActivated := by
  intro u last
  obtain ⟨old, active⟩ := recent u (d.recent ▸ last)
  refine ⟨d.created ▸ old, fun live => (d.activated h).mpr ?_⟩
  rw [d.view] at live
  by_cases e : u = n
  · rw [e, Function.update_self] at live
    cases live
  · rw [Function.update_of_ne e] at live
    exact ⟨e, active live⟩

theorem Destroyed.oneActivated {n : Nat} {xdg : XdgSurface}
    (d : Destroyed ws ws' n xdg) (h : ws.Consistent) (one : ws.OneActivated) :
    ws'.OneActivated := by
  intro v active
  rw [d.recent]
  exact one v ((d.activated h).mp active).2

/-! The focus moves. -/

theorem setActivated_activated (h : ws.Consistent) {n : Nat} {b : Bool} {v : Nat} :
    (ws.setActivated n b).Activated v ↔
      if v = n then (ws.view v).isSome ∧ b = true else ws.Activated v := by
  unfold Activated
  simp only [setActivated]
  by_cases e : v = n
  · rw [if_pos e]
    constructor
    · rintro ⟨view, xdg, held, live, active⟩
      have on := (Prod.mk.inj (h.place v view held)).1
      rw [on, e, Function.update_self] at live
      obtain ⟨_, _, rfl⟩ := Option.map_eq_some_iff.mp live
      exact ⟨by rw [held]; rfl, active⟩
    · rintro ⟨some_view, rfl⟩
      obtain ⟨view, held⟩ := Option.isSome_iff_exists.mp some_view
      obtain ⟨xdg, live, _⟩ := (h.toplevel v).mp some_view
      have on := (Prod.mk.inj (h.place v view held)).1
      refine ⟨view, { xdg with activated := true }, held, ?_, rfl⟩
      rw [on, ← e, Function.update_self, live]
      rfl
  · rw [if_neg e]
    have elsewhere (view : View) (held : ws.view v = some view) : view.xdgSurface ≠ n := by
      rw [(Prod.mk.inj (h.place v view held)).1]
      exact e
    constructor
    · rintro ⟨view, xdg, held, live, active⟩
      rw [Function.update_of_ne (elsewhere view held)] at live
      exact ⟨view, xdg, held, live, active⟩
    · rintro ⟨view, xdg, held, live, active⟩
      refine ⟨view, xdg, held, ?_, active⟩
      rwa [Function.update_of_ne (elsewhere view held)]

theorem Activated.isSome {v : Nat} (active : ws.Activated v) : (ws.view v).isSome := by
  obtain ⟨view, _, held, _⟩ := active
  rw [held]
  rfl

theorem deactivate_activated (h : ws.Consistent) (prev : Option Nat) {v : Nat} :
    (ws.deactivate prev).Activated v ↔
      ws.Activated v ∧ prev.bind ws.tryFromSurface ≠ some v := by
  unfold Windows.deactivate
  cases found : prev.bind ws.tryFromSurface with
  | none => simp
  | some p =>
      dsimp only
      split
      · rw [setActivated_activated h]
        by_cases e : v = p
        · simp [e]
        · rw [if_neg e]
          simp [Ne.symm e]
      · rename_i other
        refine (and_iff_left_of_imp fun active same => other ?_).symm
        obtain rfl := Option.some.inj same
        obtain ⟨xdg, live, toplevel⟩ := (h.toplevel p).mp active.isSome
        rw [live]
        exact decide_eq_true toplevel

theorem raise_spec {v : Nat} {view : View} (raised : ws.raise v view = some ws') :
    ws'.view = ws.view ∧
      ws'.xdgSurface = (ws.setActivated view.xdgSurface true).xdgSurface ∧
      ws'.recent = some v ∧ ws'.created = ws.created := by
  obtain ⟨_, _, raised⟩ := Option.bind_eq_some_iff.mp raised
  obtain ⟨_, _, rfl⟩ := Option.map_eq_some_iff.mp raised
  exact ⟨rfl, rfl, rfl, rfl⟩

theorem raise_activated (h : ws.Consistent) {v : Nat} {view : View}
    (held : ws.view v = some view) (raised : ws.raise v view = some ws') {u : Nat} :
    ws'.Activated u ↔ u = v ∨ ws.Activated u := by
  obtain ⟨views, xdgs, _, _⟩ := raise_spec raised
  have same : ws'.Activated u ↔ (ws.setActivated view.xdgSurface true).Activated u := by
    unfold Activated
    rw [views, xdgs]
    rfl
  rw [same, setActivated_activated h, (Prod.mk.inj (h.place v view held)).1]
  by_cases e : u = v
  · rw [if_pos e, e, held]
    simp
  · rw [if_neg e]
    simp [e]

end Windows

namespace Server
open Windows

variable {s s' : Server}

/-- A call of `focus_view` returns early, or the view that went through its body last
is gone, is the same one, or has the keyboard focus on its main surface. -/
def LeavesOne (s : Server) (v surface : Nat) : Prop :=
  s.seat.focusedSurface = some surface ∨
    ∀ u, s.windows.recent = some u → (s.windows.view u).isSome →
      u = v ∨ s.seat.focusedSurface.bind s.windows.tryFromSurface = some u

def FocusLeavesOne (s : Server) (e : Event) : Prop :=
  ∀ v surface, s.focusCall e = some (v, surface) → s.LeavesOne v surface

structure Tracked (s : Server) : Prop where
  consistent : s.windows.Consistent
  recent : s.windows.RecentActivated

theorem deactivate_frame (ws : Windows) (prev : Option Nat) :
    (ws.deactivate prev).recent = ws.recent ∧ (ws.deactivate prev).created = ws.created := by
  unfold Windows.deactivate
  split
  · exact ⟨rfl, rfl⟩
  · split <;> exact ⟨rfl, rfl⟩

/-- What the body of `focus_view` leaves activated. -/
theorem focusView_activated (h : s.windows.Consistent) {v : Nat} {view : View} {ws : Windows}
    (held : s.windows.view v = some view)
    (raised : (s.windows.deactivate s.seat.focusedSurface).raise v view = some ws) (u : Nat) :
    ws.Activated u ↔ u = v ∨ s.windows.Activated u ∧
      s.seat.focusedSurface.bind s.windows.tryFromSurface ≠ some u := by
  have still : (s.windows.deactivate s.seat.focusedSurface).view v = some view := by
    rw [deactivate_view]
    exact held
  rw [raise_activated (h.deactivate _) still raised, deactivate_activated h]

theorem focusView_recentActivated (h : s.Tracked) {v surface : Nat}
    (next : s.focusView v surface = some s') : s'.windows.RecentActivated := by
  obtain ⟨view, held, ⟨_, rfl⟩ | ⟨_, _, raised⟩⟩ := focusView_cases next
  · exact h.recent
  · obtain ⟨_, _, recent, created⟩ := raise_spec raised
    intro u last
    obtain rfl := Option.some.inj (last.symm.trans recent)
    refine ⟨?_, fun _ => ?_⟩
    · rw [created, (deactivate_frame ..).2]
      by_contra new
      obtain ⟨xdg, live, _⟩ := (h.consistent.toplevel u).mp (by rw [held]; rfl)
      rw [h.consistent.fresh u (Nat.le_of_not_lt new)] at live
      cases live
    · exact (focusView_activated h.consistent held raised u).mpr (Or.inl rfl)

theorem focusView_oneActivated_iff (h : s.Tracked) (one : s.windows.OneActivated)
    {v surface : Nat} (next : s.focusView v surface = some s') :
    s'.windows.OneActivated ↔ s.LeavesOne v surface := by
  obtain ⟨view, held, ⟨early, rfl⟩ | ⟨late, _, raised⟩⟩ := focusView_cases next
  · exact ⟨fun _ => Or.inl early, fun _ => one⟩
  · obtain ⟨_, _, recent, _⟩ := raise_spec raised
    have after := focusView_activated h.consistent held raised
    constructor
    · intro kept
      refine Or.inr fun u last live => ?_
      by_contra neither
      obtain ⟨other, unfocused⟩ := not_or.mp neither
      have active := (after u).mpr (Or.inr ⟨(h.recent u last).2 live, unfocused⟩)
      exact other (Option.some.inj ((kept u active).symm.trans recent))
    · rintro (early | leaves) u active
      · exact absurd early late
      · rw [recent]
        rcases (after u).mp active with rfl | ⟨before, unfocused⟩
        · rfl
        · rcases leaves u (one u before) before.isSome with rfl | focused
          · rfl
          · exact absurd focused unfocused

/-! One step, and runs. -/

/-- `view_map` after it has set `mapped`, and the focus that it moves. -/
theorem mapped_focus (h : s.Tracked) {v : Nat} (surface : Nat) {view : View}
    (held : s.windows.view v = some view) :
    let marked := { s with windows := s.windows.setView v { view with mapped := true } }
    marked.Tracked ∧ (marked.windows.OneActivated ↔ s.windows.OneActivated) ∧
      (marked.LeavesOne v surface ↔ s.LeavesOne v surface) := by
  have same : SameActivation s.windows (s.windows.setView v { view with mapped := true }) :=
    sameActivation_setView held rfl
  refine ⟨⟨h.consistent.setView held rfl, same.recentActivated h.recent⟩,
    same.oneActivated_iff, ?_⟩
  unfold LeavesOne
  refine or_congr_right (forall_congr' fun u => ?_)
  refine imp_congr_right fun _ => imp_congr_left ?_
  exact same.isSome_iff u

theorem step_tracked (h : s.Tracked) {e : Event} (next : s.step e = some s') : s'.Tracked := by
  refine ⟨step_consistent h.consistent next, ?_⟩
  cases outcome h.consistent next with
  | idle _ _ windows _ | newOutput _ _ _ windows _ | outputDestroyed _ _ windows _ =>
      exact windows ▸ h.recent
  | announced _ _ _ _ windows _ => exact windows.recentActivated h.consistent h.recent
  | titled _ _ _ _ windows _ => exact (sameActivation_setTitle windows).recentActivated h.recent
  | mapped _ v view xdg _ mid held _ focused windows _ =>
      have marked := (mapped_focus h xdg.surface held).1
      rw [windows]
      exact (sameActivation_createHandle v _ _).recentActivated
        (focusView_recentActivated marked focused)
  | unmapped _ _ _ windows _ => exact (sameActivation_viewUnmap windows).recentActivated h.recent
  | destroyed _ _ _ windows _ => exact windows.recentActivated h.consistent h.recent
  | surfaceDestroyed _ _ windows _ =>
      obtain ⟨mid, before, _, same⟩ := h.consistent.surfaceDestroy_cases windows
      rw [same]
      change mid.RecentActivated
      rcases before with rfl | ⟨n, xdg, d, _⟩
      · exact h.recent
      · exact d.recentActivated h.consistent h.recent
  | clicked _ _ _ focused _ => exact focusView_recentActivated h focused

/-- One activated window stays one exactly when the event meets the guard. -/
theorem oneActivated_step_iff (h : s.Tracked) (one : s.windows.OneActivated) {e : Event}
    (next : s.step e = some s') : s'.windows.OneActivated ↔ s.FocusLeavesOne e := by
  have kept (quiet : s.focusCall e = none) (still : s'.windows.OneActivated) :
      s'.windows.OneActivated ↔ s.FocusLeavesOne e := by
    refine ⟨fun _ v surface call => ?_, fun _ => still⟩
    rw [quiet] at call
    cases call
  have calls {v surface : Nat} (call : s.focusCall e = some (v, surface)) :
      s.FocusLeavesOne e ↔ s.LeavesOne v surface := by
    constructor
    · exact fun all => all v surface call
    · intro here v' surface' call'
      obtain ⟨rfl, rfl⟩ := Prod.mk.inj (Option.some.inj (call.symm.trans call'))
      exact here
  cases outcome h.consistent next with
  | idle _ quiet windows _ => exact kept quiet (windows ▸ one)
  | newOutput _ _ event windows _ => exact kept (by rw [event]; rfl) (windows ▸ one)
  | outputDestroyed _ event windows _ => exact kept (by rw [event]; rfl) (windows ▸ one)
  | announced _ _ _ event windows _ =>
      refine kept (by rw [event]; rfl) fun v active => ?_
      rw [windows.recent]
      exact one v ((windows.activated h.consistent).mp active)
  | titled _ _ _ event windows _ =>
      exact kept (by rw [event]; rfl) ((sameActivation_setTitle windows).oneActivated_iff.mpr one)
  | mapped _ v view xdg event mid held live focused windows _ =>
      obtain ⟨marked, same, leaves⟩ := mapped_focus h xdg.surface held
      have call : s.focusCall e = some (v, xdg.surface) := by
        rw [event, focusCall, held, Option.bind_some, live, Option.map_some]
      rw [calls call, ← leaves, windows, (sameActivation_createHandle v _ _).oneActivated_iff]
      exact focusView_oneActivated_iff marked (same.mpr one) focused
  | unmapped _ _ event windows _ =>
      exact kept (by rw [event]; rfl) ((sameActivation_viewUnmap windows).oneActivated_iff.mpr one)
  | destroyed _ _ event windows _ =>
      exact kept (by rw [event]; rfl) (windows.oneActivated h.consistent one)
  | surfaceDestroyed _ event windows _ =>
      refine kept (by rw [event]; rfl) ?_
      obtain ⟨mid, before, _, same⟩ := h.consistent.surfaceDestroy_cases windows
      rw [same]
      change mid.OneActivated
      rcases before with rfl | ⟨n, xdg, d, _⟩
      · exact one
      · exact d.oneActivated h.consistent one
  | clicked v surface event focused _ =>
      have call : s.focusCall e = some (v, surface) := by rw [event]; rfl
      rw [calls call]
      exact focusView_oneActivated_iff h one focused

/-- In every state of a run only the view focused last is activated, exactly when
every call of `focus_view` along the run leaves one. -/
theorem one_activated_iff_focus_leaves_one (events : List Event) :
    (∀ s, Runs.Visits step start events s → s.windows.OneActivated) ↔
      ∀ s e, Runs.Takes step start events s e → s.FocusLeavesOne e := by
  refine Runs.visits_iff_takes Tracked (fun s => s.windows.OneActivated) FocusLeavesOne
    ?_ ?_ ⟨consistent_start, ?_⟩ ?_ events
  · exact fun s e s' h _ _ next => step_tracked h next
  · exact fun s e s' h one next => oneActivated_step_iff h one next
  · intro u last
    cases last
  · rintro v ⟨view, _, held, _⟩
    cases held

/-- Two windows are mapped before there is a keyboard. -/
theorem two_activated_without_keyboard :
    ∃ s, Runs.Visits step start
        [.newXdgSurface 7 .toplevel, .newXdgSurface 8 .toplevel, .map 7 0, .map 8 1] s ∧
      s.windows.Activated 0 ∧ s.windows.Activated 1 := by
  let active (s : Server) (v : Nat) : Bool :=
    (s.windows.view v).any fun view =>
      (s.windows.xdgSurface view.xdgSurface).any (·.activated)
  have ends : (Runs.run step start [.newXdgSurface 7 .toplevel, .newXdgSurface 8 .toplevel,
      .map 7 0, .map 8 1]).any (fun s => active s 0 && active s 1) = true := by
    decide +kernel
  have activated (s : Server) (v : Nat) (flag : active s v = true) : s.windows.Activated v := by
    obtain ⟨view, held, flag⟩ := Option.any_eq_true _ _ |>.mp flag
    obtain ⟨xdg, live, flag⟩ := Option.any_eq_true _ _ |>.mp flag
    exact ⟨view, xdg, held, live, flag⟩
  obtain ⟨s, reached, both⟩ := Option.any_eq_true _ _ |>.mp ends
  obtain ⟨first, second⟩ := Bool.and_eq_true_iff.mp both
  exact ⟨s, Runs.visits_of_run reached, activated s 0 first, activated s 1 second⟩

end Server
end LunaOS.Compositor
