import LunaOS.Compositor.Routing
import LunaOS.Lib.Strokes

/-!
The key stream that the clients see. A press that fires a shortcut is not forwarded;
its release is no shortcut any more, and is. `Typing` puts keys that go down and up
in turn in front of the compositor.
-/
namespace LunaOS.Compositor
open Strokes

def Forwarded.stroke (f : Forwarded) : Stroke UInt32 :=
  (f.event.keycode, f.event.pressed)

namespace Server

/-- One of the three shortcuts applies to the press. -/
def isShortcut (s : Server) (xkb : XkbState) (event : KeyEvent) : Bool :=
  event.pressed && xkb.modifiers &&& wlrModifierLogo ≠ 0 &&
    (xkb.syms (event.keycode + 8)).any fun sym =>
      (sym = xkbKeyq && s.windows.firstView.isSome) || sym = xkbKeyt ||
        (sym = xkbKeyE && xkb.modifiers &&& wlrModifierShift ≠ 0)

def firesShortcut (s : Server) (xkb : Nat → XkbState) (event : KeyEvent) : Bool :=
  s.seat.keyboard.any fun kb => s.isShortcut (xkb kb) event

def strokes (s : Server) : List (Stroke UInt32) :=
  s.seat.keys.map Forwarded.stroke

variable {s s' : Server}

theorem shortcut_handled (modifiers : UInt32) (p : Server × Bool) (sym : UInt32) :
    (shortcut modifiers p sym).2 = (p.2 ||
      ((sym = xkbKeyq && p.1.windows.firstView.isSome) || sym = xkbKeyt ||
        (sym = xkbKeyE && modifiers &&& wlrModifierShift ≠ 0))) := by
  obtain ⟨s, handled⟩ := p
  simp only [shortcut]
  by_cases q : sym = xkbKeyq
  · have not_t : xkbKeyq ≠ xkbKeyt := by decide
    have not_E : xkbKeyq ≠ xkbKeyE := by decide
    rw [if_pos q]
    cases s.windows.firstView with
    | none => simp [q, not_t, not_E]
    | some v => simp [q]
  · rw [if_neg q]
    by_cases t : sym = xkbKeyt
    · simp [t]
    · rw [if_neg t]
      by_cases E : sym = xkbKeyE
      · rw [if_pos E]
        have not_q : xkbKeyE ≠ xkbKeyq := by decide
        have not_t : xkbKeyE ≠ xkbKeyt := by decide
        by_cases shift : modifiers &&& wlrModifierShift = 0 <;> simp [E, not_q, not_t, shift]
      · simp [q, t, E]

theorem shortcuts_handled (s : Server) (xkb : XkbState) (event : KeyEvent) :
    (s.shortcuts xkb event).2 = s.isShortcut xkb event := by
  have folded (syms : List UInt32) (p : Server × Bool) (same : p.1.windows = s.windows) :
      (syms.foldl (shortcut xkb.modifiers) p).2 = (p.2 || syms.any fun sym =>
        (sym = xkbKeyq && s.windows.firstView.isSome) || sym = xkbKeyt ||
          (sym = xkbKeyE && xkb.modifiers &&& wlrModifierShift ≠ 0)) := by
    induction syms generalizing p with
    | nil => simp
    | cons sym syms ih =>
        have agrees := shortcut_agrees xkb.modifiers p sym
        rw [List.foldl_cons, ih _ (agrees.windows.trans same), shortcut_handled, same,
          List.any_cons, Bool.or_assoc]
  simp only [shortcuts, isShortcut]
  split
  · rename_i both
    rw [folded _ (s, false) rfl]
    simp [both]
  · rename_i neither
    simp only [not_and] at neither
    cases pressed : event.pressed with
    | false => rfl
    | true => simp [neither pressed]

theorem handleKeyboardKey_strokes {kb : Nat} (seat : s.seat.keyboard = some kb)
    (xkb : Nat → XkbState) (event : KeyEvent) :
    (s.handleKeyboardKey xkb event).strokes =
      if s.firesShortcut xkb event then s.strokes
      else s.strokes ++ [(event.keycode, event.pressed)] := by
  have agrees := s.shortcuts_agree (xkb kb) event
  have fires : s.firesShortcut xkb event = (s.shortcuts (xkb kb) event).2 := by
    rw [firesShortcut, seat, shortcuts_handled]
    rfl
  rw [handleKeyboardKey, seat, fires]
  dsimp only
  cases handled : (s.shortcuts (xkb kb) event).2 with
  | true => rw [keyOf_of_handled kb handled, strokes, agrees.seat, if_pos rfl, strokes]
  | false =>
      rw [keyOf_of_not_handled kb handled, if_neg Bool.false_ne_true]
      simp [strokes, forwardKey, agrees.seat, Forwarded.stroke]

end Server

/-- The compositor and the keys that are down, each with whether its press fired a
shortcut. -/
structure Typing where
  server : Server := Server.start
  held : UInt32 → Option Bool := fun _ => none

namespace Typing
open Server

/-- A key is pressed when it is up and released when it is down. A key is a keycode, on
whichever of the keyboards it is. -/
def step (t : Typing) : Event → Option Typing
  | .key k xkb event =>
      if event.pressed = (t.held event.keycode).isNone then
        (t.server.step (.key k xkb event)).map fun s =>
          { server := s
            held := Function.update t.held event.keycode
              (if event.pressed then some (t.server.firesShortcut xkb event) else none) }
      else none
  | e => (t.server.step e).map fun s => { t with server := s }

/-- The event is no release of a key whose press fired a shortcut. -/
def ForwardedBefore (t : Typing) : Event → Prop
  | .key _ _ event => event.pressed = false → t.held event.keycode ≠ some true
  | _ => True

/-- The keys that the clients see down are those whose press was no shortcut. -/
structure Tracks (t : Typing) : Prop where
  seat : t.server.keyboards.attached ≠ [] → ∃ kb, t.server.seat.keyboard = some kb
  held : ∀ code, Held t.server.strokes code ↔ t.held code = some false

variable {t t' : Typing}

theorem tracks_start : Tracks {} where
  seat := fun known => absurd rfl known
  held := fun code => ⟨fun held => absurd held (not_held_nil code), nofun⟩

theorem step_cases {e : Event} (next : t.step e = some t') :
    (∃ k xkb event, e = .key k xkb event ∧ k ∈ t.server.keyboards.attached ∧
      event.pressed = (t.held event.keycode).isNone ∧
      t' =
        { server := t.server.handleKeyboardKey xkb event
          held := Function.update t.held event.keycode
            (if event.pressed then some (t.server.firesShortcut xkb event) else none) }) ∨
    ((∀ k xkb event, e ≠ .key k xkb event) ∧ t.server.step e = some t'.server ∧
      t'.held = t.held) := by
  unfold step at next
  split at next
  · rename_i k xkb event
    obtain ⟨turn, next⟩ := Option.ite_none_right_eq_some.mp next
    obtain ⟨s, taken, rfl⟩ := Option.map_eq_some_iff.mp next
    obtain ⟨known, taken⟩ := Option.ite_none_right_eq_some.mp taken
    obtain rfl := Option.some.inj taken
    exact Or.inl ⟨k, xkb, event, rfl, known, turn, rfl⟩
  · rename_i other
    obtain ⟨s, taken, rfl⟩ := Option.map_eq_some_iff.mp next
    exact Or.inr ⟨other, taken, rfl⟩

/-- The stream after a key event of an attached keyboard. -/
theorem Tracks.strokes_key (h : t.Tracks) {k : Nat} (known : k ∈ t.server.keyboards.attached)
    (xkb : Nat → XkbState) (event : KeyEvent) :
    (t.server.handleKeyboardKey xkb event).strokes =
      if t.server.firesShortcut xkb event then t.server.strokes
      else t.server.strokes ++ [(event.keycode, event.pressed)] := by
  obtain ⟨kb, seat⟩ := h.seat (List.ne_nil_of_mem known)
  exact handleKeyboardKey_strokes seat xkb event

/-- A release fires no shortcut. -/
theorem firesShortcut_release {s : Server} {xkb : Nat → XkbState} {event : KeyEvent}
    (released : event.pressed = false) : s.firesShortcut xkb event = false := by
  simp [firesShortcut, isShortcut, released]

theorem Tracks.key (h : t.Tracks) {k : Nat} (known : k ∈ t.server.keyboards.attached)
    {xkb : Nat → XkbState} {event : KeyEvent}
    (turn : event.pressed = (t.held event.keycode).isNone) :
    Tracks
      { server := t.server.handleKeyboardKey xkb event
        held := Function.update t.held event.keycode
          (if event.pressed then some (t.server.firesShortcut xkb event) else none) } where
  seat := by
    obtain ⟨keyboards, keyboard⟩ := t.server.handleKeyboardKey_keyboards xkb event
    rw [keyboards, keyboard]
    exact h.seat
  held := by
    intro code
    change Held (t.server.handleKeyboardKey xkb event).strokes code ↔
      Function.update t.held event.keycode _ code = some false
    rw [h.strokes_key known]
    by_cases e : event.keycode = code
    · rw [← e, Function.update_self]
      cases pressed : event.pressed with
      | false =>
          rw [firesShortcut_release pressed, if_neg Bool.false_ne_true]
          exact ⟨fun held => absurd held (not_held_release _ _), nofun⟩
      | true =>
          have up : t.held event.keycode = none := by
            rw [pressed] at turn
            exact Option.isNone_iff_eq_none.mp turn.symm
          have before : ¬ Held t.server.strokes event.keycode := by
            rw [h.held, up]
            exact nofun
          cases fires : t.server.firesShortcut xkb event with
          | true => exact ⟨fun held => absurd held before, nofun⟩
          | false => exact ⟨fun _ => rfl, fun _ => held_press _ _⟩
    · rw [Function.update_of_ne (Ne.symm e), ← h.held code]
      split
      · rfl
      · exact held_other _ _ e

theorem Tracks.step (h : t.Tracks) {e : Event} (next : t.step e = some t') : t'.Tracks := by
  rcases step_cases next with ⟨k, xkb, event, rfl, known, turn, rfl⟩ | ⟨other, taken, held⟩
  · exact h.key known turn
  · have strokes_held (same : t'.server.seat.keys = t.server.seat.keys) (code : UInt32) :
        Held t'.server.strokes code ↔ t'.held code = some false := by
      rw [strokes, same, held]
      exact h.held code
    cases seatOutcome taken with
    | kept _ _ same =>
        refine ⟨?_, strokes_held same.keys⟩
        rw [same.keyboards, same.keyboard]
        exact h.seat
    | attached k _ _ attaches =>
        obtain ⟨_, named, _, _⟩ := attachKeyboard_spec attaches
        exact ⟨fun _ => ⟨k, named⟩, strokes_held (attachKeyboard_keys attaches)⟩
    | key k xkb event here _ _ => exact absurd here (other k xkb event)

/-- A step keeps the stream paired exactly when it releases no swallowed press. -/
theorem paired_step_iff (h : t.Tracks) (paired : Paired t.server.strokes) {e : Event}
    (next : t.step e = some t') : Paired t'.server.strokes ↔ t.ForwardedBefore e := by
  rcases step_cases next with ⟨k, xkb, event, rfl, known, turn, rfl⟩ | ⟨other, taken, held⟩
  · change Paired (t.server.handleKeyboardKey xkb event).strokes ↔ _
    rw [h.strokes_key known]
    cases pressed : event.pressed with
    | false =>
        rw [firesShortcut_release pressed, if_neg Bool.false_ne_true, paired_release]
        have down : t.held event.keycode ≠ none := by
          intro up
          rw [pressed, up] at turn
          cases turn
        have forwarded : t.ForwardedBefore (.key k xkb event) ↔
            t.held event.keycode = some false := by
          simp only [ForwardedBefore, pressed, forall_const]
          cases state : t.held event.keycode with
          | none => exact absurd state down
          | some fired => cases fired <;> simp
        rw [forwarded, h.held]
        exact and_iff_right paired
    | true =>
        have press : t.ForwardedBefore (.key k xkb event) := by
          intro released
          rw [pressed] at released
          cases released
        refine iff_of_true ?_ press
        split
        · exact paired
        · exact (paired_press _ _).mpr paired
  · have quiet : t.ForwardedBefore e := by
      unfold ForwardedBefore
      split
      · exact absurd rfl (other _ _ _)
      · trivial
    refine iff_of_true ?_ quiet
    cases seatOutcome taken with
    | kept _ _ same =>
        rw [strokes, same.keys]
        exact paired
    | attached k _ _ attaches =>
        rw [strokes, attachKeyboard_keys attaches]
        exact paired
    | key k xkb event here _ _ => exact absurd here (other k xkb event)

/-- In every state of a run the forwarded stream is paired exactly when the run
releases no key whose press fired a shortcut. -/
theorem key_stream_paired_iff (events : List Event) :
    (∀ t, Runs.Visits step {} events t → Paired t.server.strokes) ↔
      ∀ t e, Runs.Takes step {} events t e → t.ForwardedBefore e := by
  refine Runs.visits_iff_takes Tracks (fun t => Paired t.server.strokes) ForwardedBefore
    ?_ ?_ tracks_start paired_nil events
  · exact fun t e t' h _ _ next => h.step next
  · exact fun t e t' h paired next => paired_step_iff h paired next

/-- Super+T: the press is swallowed, the release is forwarded. -/
theorem release_of_swallowed_press :
    ∃ t, Runs.Visits step {}
        [.newInput (.keyboard 0),
          .key 0 (fun _ => ⟨fun code => if code = 28 then [xkbKeyt] else [], wlrModifierLogo⟩)
            ⟨1000, 20, true⟩,
          .key 0 (fun _ => ⟨fun code => if code = 28 then [xkbKeyt] else [], wlrModifierLogo⟩)
            ⟨1100, 20, false⟩] t ∧
      ¬ Paired t.server.strokes := by
  have ends : (Runs.run step {}
      [.newInput (.keyboard 0),
        .key 0 (fun _ => ⟨fun code => if code = 28 then [xkbKeyt] else [], wlrModifierLogo⟩)
          ⟨1000, 20, true⟩,
        .key 0 (fun _ => ⟨fun code => if code = 28 then [xkbKeyt] else [], wlrModifierLogo⟩)
          ⟨1100, 20, false⟩]).any
      (fun t => decide (t.server.strokes = [(20, false)])) = true := by
    decide +kernel
  obtain ⟨t, ran, stream⟩ := Option.any_eq_true _ _ |>.mp ends
  refine ⟨t, Runs.visits_of_run ran, fun paired => ?_⟩
  rw [of_decide_eq_true stream] at paired
  exact not_held_nil 20 ((paired_release [] 20).mp paired).2

end Typing
end LunaOS.Compositor
