import LunaOS.Compositor.Stacking

/-!
`view_at` and the scene that it searches. Nodes are numbered in the order of their creation,
the root of the scene is node 0, and what `wlr_scene_node_at` finds at a point is an input.
The loop of `view_at` climbs to the first node that carries a view in its `data`, which would
be right if the tree of each view carried it. No function of the compositor ever writes that
field, so the search never ends at a view, and neither a click nor a motion of the pointer
reaches a window.
-/
namespace LunaOS.Compositor
open Runs

/-- `enum wlr_scene_node_type`; a buffer node may be that of a surface. -/
inductive NodeType where
  | tree
  | rect
  | buffer (surface : Option Nat)
  deriving DecidableEq

/-- `struct wlr_scene_node` with the number `n`; a parent is older than its children. -/
structure SceneNode (n : Nat) where
  type : NodeType
  parent : Option (Fin n)
  data : Option Nat := none

abbrev Scene := (n : Nat) → Option (SceneNode n)

namespace Scene

/-- `wlr_scene_create`: the root alone. -/
def create : Scene :=
  Function.update (fun _ => none) 0 (some { type := .tree, parent := none })

def parent (scene : Scene) (n : Nat) : Option (Fin n) :=
  (scene n).bind (·.parent)

def data (scene : Scene) (n : Nat) : Option Nat :=
  (scene n).bind (·.data)

/-- The loop of `view_at` through the parents of the node `n`. -/
def climb (scene : Scene) (n : Nat) : Option Nat :=
  match scene.parent n with
  | none => none
  | some p =>
      match scene.data p with
      | some view => some view
      | none => climb scene p
termination_by n
decreasing_by exact p.isLt

/-- The view that `view_at` returns and the surface that it stores, where
`wlr_scene_node_at` found the node `hit`. -/
def viewAt (scene : Scene) (hit : Option Nat) : Option Nat × Option Nat :=
  match hit with
  | none => (none, none)
  | some n =>
      match (scene n).map SceneNode.type with
      | some (NodeType.buffer (some surface)) => (scene.climb n, some surface)
      | _ => (none, none)

/-- The node `n` is `t` or in the tree `t`. -/
def under (scene : Scene) (t n : Nat) : Bool :=
  n = t || match scene.parent n with
    | none => false
    | some p => under scene t p
termination_by n
decreasing_by exact p.isLt

def below (scene : Scene) (t n : Nat) : Bool :=
  (scene.parent n).any fun p : Fin n => scene.under t p.val

def remove (scene : Scene) (t : Nat) : Scene :=
  fun n => if scene.under t n then none else scene n

theorem under_eq (scene : Scene) (t n : Nat) :
    scene.under t n = (decide (n = t) || scene.below t n) := by
  rw [under, below]
  cases scene.parent n <;> rfl

theorem below_iff {scene : Scene} {n : Nat} {p : Fin n} (above : scene.parent n = some p)
    (t : Nat) : scene.below t n ↔ p = t ∨ scene.below t p := by
  rw [below, above, Option.any_some, under_eq, Bool.or_eq_true, decide_eq_true_eq]

theorem climb_of_parent {scene : Scene} {n : Nat} {p : Fin n} (above : scene.parent n = some p) :
    scene.climb n = (scene.data p).or (scene.climb p) := by
  rw [climb, above]
  dsimp only
  cases scene.data p <;> rfl

theorem climb_eq_none_iff (scene : Scene) (n : Nat) :
    scene.climb n = none ↔ ∀ t, scene.below t n → scene.data t = none := by
  induction n using Nat.strong_induction_on with
  | _ n ih =>
      cases above : scene.parent n with
      | none =>
          rw [climb, above]
          refine iff_of_true rfl fun t inside => ?_
          rw [below, above] at inside
          cases inside
      | some p =>
          rw [climb_of_parent above, Option.or_eq_none_iff, ih p p.isLt]
          constructor
          · rintro ⟨first, rest⟩ t inside
            rcases (below_iff above t).mp inside with rfl | inside
            · exact first
            · exact rest t inside
          · intro bare
            exact ⟨bare p ((below_iff above p).mpr (Or.inl rfl)),
              fun t inside => bare t ((below_iff above t).mpr (Or.inr inside))⟩

/-- No node carries data, and the parent of a node is there. -/
structure Bare (scene : Scene) : Prop where
  data : ∀ n node, scene n = some node → node.data = none
  parent : ∀ n p, scene.parent n = some p → (scene p).isSome

variable {scene : Scene}

theorem Bare.climb (h : scene.Bare) (n : Nat) : scene.climb n = none := by
  refine (climb_eq_none_iff scene n).mpr fun t _ => ?_
  rw [Scene.data, Option.bind_eq_none_iff]
  exact h.data t

theorem Bare.viewAt (h : scene.Bare) (hit : Option Nat) : (scene.viewAt hit).1 = none := by
  unfold Scene.viewAt
  split
  · rfl
  · split
    · exact h.climb _
    · rfl

theorem bare_create : create.Bare := by
  have lone {n : Nat} (node : SceneNode n) (here : create n = some node) :
      node.parent = none ∧ node.data = none := by
    unfold create at here
    by_cases e : n = 0
    · subst e
      rw [Function.update_self] at here
      exact Option.some.inj here ▸ ⟨rfl, rfl⟩
    · rw [Function.update_of_ne e] at here
      cases here
  refine ⟨fun n node here => (lone node here).2, fun n p above => ?_⟩
  obtain ⟨node, here, above⟩ := Option.bind_eq_some_iff.mp above
  rw [(lone node here).1] at above
  cases above

theorem Bare.remove (h : scene.Bare) (t : Nat) : (scene.remove t).Bare where
  data := by
    intro n node here
    exact h.data n node (Option.ite_none_left_eq_some.mp here).2
  parent := by
    intro n p above
    obtain ⟨node, here, above⟩ := Option.bind_eq_some_iff.mp above
    obtain ⟨outside, here⟩ := Option.ite_none_left_eq_some.mp here
    have there : scene.parent n = some p := by rw [Scene.parent, here, Option.bind_some, above]
    rw [under_eq, below, there, Option.any_some, Bool.or_eq_true, not_or] at outside
    rw [Scene.remove, if_neg outside.2]
    exact h.parent n p there

theorem isSome_add {m : Nat} (live : (scene m).isSome) (n : Nat) (node : SceneNode n) :
    (Function.update scene n (some node) m).isSome := by
  by_cases e : m = n
  · subst e
    rw [Function.update_self]
    rfl
  · rw [Function.update_of_ne e]
    exact live

/-- A new node is put into a tree that is there. -/
theorem Bare.add (h : scene.Bare) {n : Nat} (type : NodeType) (p : Fin n)
    (there : (scene p).isSome) :
    Scene.Bare (Function.update scene n (some { type := type, parent := some p })) where
  data := by
    intro m node here
    by_cases e : m = n
    · subst e
      rw [Function.update_self] at here
      exact Option.some.inj here ▸ rfl
    · rw [Function.update_of_ne e] at here
      exact h.data m node here
  parent := by
    intro m q above
    refine isSome_add ?_ n _
    by_cases e : m = n
    · subst e
      rw [Scene.parent, Function.update_self] at above
      exact Option.some.inj above ▸ there
    · rw [Scene.parent, Function.update_of_ne e] at above
      exact h.parent m q above

end Scene

/-- The compositor with its scene; `last` is the newest node, `tree v` the node of the tree
that was created for the view `v`, and `pointer` the surface that has the pointer. -/
structure Desktop where
  server : Server := Server.start
  scene : Scene := .create
  last : Nat := 0
  tree : Nat → Option Nat := fun _ => none
  pointer : Option Nat := none

namespace Desktop

def start : Desktop := {}

def grow (d : Desktop) (v : Nat) : Desktop :=
  { d with
    scene := Function.update d.scene (d.last + 1) (some { type := .tree, parent := some 0 })
    last := d.last + 1
    tree := Function.update d.tree v (some (d.last + 1)) }

/-- wlroots destroys the tree of an xdg surface with it. -/
def fell (d : Desktop) (v : Nat) : Desktop :=
  match d.tree v with
  | some t => { d with scene := d.scene.remove t, tree := Function.update d.tree v none }
  | none => d

/-- What an event of the compositor does to the scene and the pointer. -/
def follow (d : Desktop) : Server.Event → Desktop
  | .newXdgSurface _ role => if role = .toplevel then d.grow d.server.windows.created else d
  | .xdgDestroy n => d.fell n
  | .surfaceDestroy w =>
      { (d.server.windows.tryFromSurface w).elim d d.fell with
        pointer := if d.pointer = some w then none else d.pointer }
  | _ => d

/-- The view and the surface under the pointer, as the handlers of the cursor have them. -/
def target (d : Desktop) (hit : Option Nat) : Option (Nat × Nat) :=
  (d.scene.viewAt hit).1.bind fun view => (d.scene.viewAt hit).2.map fun surface => (view, surface)

/-- An event other than a button; a button or a motion with the node at the cursor; or
wlroots adds a node to a tree of an xdg surface or removes one from it. -/
inductive Turn where
  | event (e : Server.Event)
  | button (pressed : Bool) (hit : Option Nat)
  | motion (hit : Option Nat)
  | attach (parent : Nat) (type : NodeType)
  | detach (n : Nat)

def step (d : Desktop) : Turn → Option Desktop
  | .event (.button _ _) => none
  | .event e => (d.server.step e).map fun s => { d.follow e with server := s }
  | .button pressed hit =>
      (d.server.step (.button pressed (d.target hit))).map fun s => { d with server := s }
  | .motion hit => some { d with pointer := (d.target hit).map (·.2) }
  | .attach p type =>
      if h : p < d.last + 1 then
        if p ≠ 0 ∧ (d.scene p).map (·.type) = some .tree then
          some
            { d with
              scene := Function.update d.scene (d.last + 1)
                (some { type := type, parent := some ⟨p, h⟩ })
              last := d.last + 1 }
        else none
      else none
  | .detach n =>
      if (d.scene.parent n).any (·.val ≠ 0) then some { d with scene := d.scene.remove n }
      else none

/-! What a turn does. -/

inductive Outcome (d d' : Desktop) : Prop
  | followed (e : Server.Event) (s : Server) (stepped : d.server.step e = some s)
      (same : d' = { d.follow e with server := s })
  | moved (hit : Option Nat) (same : d' = { d with pointer := (d.target hit).map (·.2) })
  | attached (p : Fin (d.last + 1)) (type : NodeType) (there : (d.scene p).isSome)
      (same : d' =
        { d with
          scene := Function.update d.scene (d.last + 1) (some { type := type, parent := some p })
          last := d.last + 1 })
  | detached (n : Nat) (inner : n ≠ 0) (same : d' = { d with scene := d.scene.remove n })

theorem outcome {d d' : Desktop} {turn : Turn} (next : d.step turn = some d') :
    Outcome d d' := by
  cases turn with
  | event e =>
      cases e with
      | button pressed hit => cases next
      | _ =>
          obtain ⟨s, stepped, rfl⟩ := Option.map_eq_some_iff.mp next
          exact .followed _ s stepped rfl
  | button pressed hit =>
      obtain ⟨s, stepped, rfl⟩ := Option.map_eq_some_iff.mp next
      exact .followed _ s stepped rfl
  | motion hit => exact .moved hit (Option.some.inj next).symm
  | attach p type =>
      obtain ⟨known, next⟩ := Option.dite_none_right_eq_some.mp next
      obtain ⟨⟨_, tree⟩, next⟩ := Option.ite_none_right_eq_some.mp next
      refine .attached ⟨p, known⟩ type ?_ (Option.some.inj next).symm
      obtain ⟨node, here, _⟩ := Option.map_eq_some_iff.mp tree
      change (d.scene p).isSome
      rw [here]
      rfl
  | detach n =>
      obtain ⟨inner, next⟩ := Option.ite_none_right_eq_some.mp next
      refine .detached n ?_ (Option.some.inj next).symm
      rintro rfl
      obtain ⟨p, _, _⟩ := (Option.any_eq_true _ _).mp inner
      exact p.elim0

/-! No node of a scene that is reached carries a view. -/

structure Unmarked (d : Desktop) : Prop where
  bare : d.scene.Bare
  root : (d.scene 0).isSome
  grown : ∀ v t, d.tree v = some t → t ≠ 0
  pointer : d.pointer = none

variable {d d' : Desktop}

theorem unmarked_start : Unmarked start where
  bare := Scene.bare_create
  root := rfl
  grown := nofun
  pointer := rfl

theorem Unmarked.congr (h : d.Unmarked) (scene : d'.scene = d.scene) (tree : d'.tree = d.tree)
    (pointer : d'.pointer = d.pointer) : d'.Unmarked where
  bare := scene ▸ h.bare
  root := by rw [scene]; exact h.root
  grown := tree ▸ h.grown
  pointer := pointer.trans h.pointer

/-- The root is in no tree but its own. -/
theorem root_remove {scene : Scene} (root : (scene 0).isSome) {t : Nat} (inner : t ≠ 0) :
    (scene.remove t 0).isSome := by
  have topmost : scene.parent 0 = none := by
    cases scene.parent 0 with
    | none => rfl
    | some p => exact p.elim0
  have outside : scene.under t 0 = false := by
    rw [Scene.under_eq, Scene.below, topmost, decide_eq_false inner.symm]
    rfl
  rw [Scene.remove, outside]
  exact root

theorem Unmarked.grow (h : d.Unmarked) (v : Nat) : (d.grow v).Unmarked where
  bare := h.bare.add .tree 0 h.root
  root := Scene.isSome_add h.root (d.last + 1) { type := .tree, parent := some 0 }
  grown := by
    intro u t planted
    change Function.update d.tree v (some (d.last + 1)) u = some t at planted
    by_cases e : u = v
    · rw [e, Function.update_self] at planted
      exact Option.some.inj planted ▸ Nat.succ_ne_zero d.last
    · rw [Function.update_of_ne e] at planted
      exact h.grown u t planted
  pointer := h.pointer

theorem Unmarked.fell (h : d.Unmarked) (v : Nat) : (d.fell v).Unmarked := by
  unfold Desktop.fell
  split
  · rename_i t planted
    refine ⟨h.bare.remove t, root_remove h.root (h.grown v t planted), ?_, h.pointer⟩
    intro u t' planted'
    exact h.grown u t' ((update_none_eq_some_iff _ _ _ _).mp planted').2
  · exact h

theorem Unmarked.target (h : d.Unmarked) (hit : Option Nat) : d.target hit = none := by
  rw [Desktop.target, h.bare.viewAt, Option.bind_none]

theorem Unmarked.follow (h : d.Unmarked) (e : Server.Event) : (d.follow e).Unmarked := by
  unfold Desktop.follow
  split
  · split
    · exact h.grow _
    · exact h
  · exact h.fell _
  · rename_i w
    have felled : ((d.server.windows.tryFromSurface w).elim d d.fell).Unmarked := by
      cases d.server.windows.tryFromSurface w with
      | none => exact h
      | some n => exact h.fell n
    exact ⟨felled.bare, felled.root, felled.grown, by rw [h.pointer]; rfl⟩
  · exact h

theorem Unmarked.step (h : d.Unmarked) {turn : Turn} (next : d.step turn = some d') :
    d'.Unmarked := by
  cases outcome next with
  | followed e s _ same =>
      subst same
      exact (h.follow e).congr rfl rfl rfl
  | moved hit same =>
      subst same
      exact ⟨h.bare, h.root, h.grown, by rw [h.target]; rfl⟩
  | attached p type there same =>
      subst same
      exact ⟨h.bare.add type p there,
        Scene.isSome_add h.root (d.last + 1) { type := type, parent := some p }, h.grown,
        h.pointer⟩
  | detached n inner same =>
      subst same
      exact ⟨h.bare.remove n, root_remove h.root inner, h.grown, h.pointer⟩

theorem run_unmarked {turns : List Turn} (reached : Runs.run step start turns = some d) :
    d.Unmarked :=
  run_invariant (fun _ _ _ h next => h.step next) unmarked_start reached

/-- No button reaches a window, and a motion takes the pointer to none. -/
theorem cursor_reaches_no_window {turns : List Turn}
    (reached : Runs.run step start turns = some d) :
    d.pointer = none ∧ (∀ pressed hit, d.step (.button pressed hit) = some d) ∧
      ∀ hit, d.step (.motion hit) = some d := by
  have h := run_unmarked reached
  refine ⟨h.pointer, fun pressed hit => ?_, fun hit => ?_⟩
  · rw [step, h.target]
    rfl
  · rw [step, h.target, Option.map_none, ← h.pointer]

/-! The hit test. -/

/-- The node `hit` is the surface `w`, in the tree that was created for the view `v`. -/
def Over (d : Desktop) (hit : Option Nat) (v w : Nat) : Prop :=
  ∃ n t, hit = some n ∧ d.tree v = some t ∧ d.scene.below t n ∧
    (d.scene n).map (·.type) = some (.buffer (some w))

/-- `view_at` finds the view and the surface under the point, and otherwise no view. -/
structure HitRight (d : Desktop) (hit : Option Nat) : Prop where
  window : ∀ v w, d.Over hit v w → d.scene.viewAt hit = (some v, some w)
  desktop : (∀ v w, ¬ d.Over hit v w) → (d.scene.viewAt hit).1 = none

/-- `view_at` is right where no surface of a window is hit, and nowhere else. -/
theorem hit_right_iff {turns : List Turn} (reached : Runs.run step start turns = some d)
    (hit : Option Nat) : d.HitRight hit ↔ ∀ v w, ¬ d.Over hit v w := by
  have bare := (run_unmarked reached).bare
  constructor
  · intro right v w hits
    have found := congrArg Prod.fst (right.window v w hits)
    rw [bare.viewAt] at found
    cases found
  · exact fun off => ⟨fun v w hits => absurd hits (off v w), fun _ => bare.viewAt hit⟩

/-- A toplevel is made, and wlroots puts the buffer of its surface into the tree. -/
def oneWindow : List Turn :=
  [.event (.newXdgSurface 7 .toplevel), .attach 1 .tree, .attach 2 (.buffer (some 7))]

theorem hit_right_iff_one_window :
    ∃ d, Runs.run step start oneWindow = some d ∧
      ∀ hit, d.HitRight hit ↔ ∀ v w, ¬ d.Over hit v w := by
  obtain ⟨d, reached⟩ : ∃ d, Runs.run step start oneWindow = some d := ⟨_, rfl⟩
  exact ⟨d, reached, hit_right_iff reached⟩

/-- The surface of the only window is under the point, and `view_at` returns no view. -/
theorem window_not_found :
    ∃ d, Runs.run step start oneWindow = some d ∧ d.Over (some 3) 0 7 ∧
      (d.scene.viewAt (some 3)).1 = none ∧ ¬ d.HitRight (some 3) := by
  have hits : ∃ d, Runs.run step start oneWindow = some d ∧ d.Over (some 3) 0 7 :=
    ⟨_, rfl, 3, 1, rfl, by decide, by decide +kernel, by decide⟩
  obtain ⟨d, reached, hits⟩ := hits
  have bare := (run_unmarked reached).bare
  refine ⟨d, reached, hits, bare.viewAt _, fun right => ?_⟩
  have found := congrArg Prod.fst (right.window 0 7 hits)
  rw [bare.viewAt] at found
  cases found

end Desktop
end LunaOS.Compositor
