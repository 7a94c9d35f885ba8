import LunaOS.Compositor.Server

/-!
Which keyboard an event is taken for. The server has one listener for the key signal
and one for the modifiers signal, and its handlers ask the seat for the keyboard.
With one keyboard that is right; linking the listener into the signal of a second
one leaves it in both rings, and the seat names the second.
-/
namespace LunaOS.Compositor
open Rings

def OneSignal (signals : Heap Port) : Prop :=
  ∀ k k', Linked signals (.signal k) .listener → Linked signals (.signal k') .listener → k = k'

/-- The listener is linked into the signal of `k`, and all others are empty. -/
structure LinkedInto (signals : Heap Port) (k : Nat) : Prop where
  ring : Ring signals [.signal k, .listener]
  empty : ∀ k', k' ≠ k → Ring signals [.signal k']

theorem freshSignals_ring (k : Nat) : Ring freshSignals [.signal k] :=
  ⟨List.nodup_singleton _, List.isChain_pair.mpr ⟨rfl, rfl⟩⟩

theorem freshSignals_oneSignal : OneSignal freshSignals := by
  intro k k' linked _
  have member := (freshSignals_ring k).linked_mem List.mem_cons_self linked
  cases List.mem_singleton.mp member

theorem LinkedInto.oneSignal {signals : Heap Port} {k : Nat} (h : LinkedInto signals k) :
    OneSignal signals := by
  have only (k' : Nat) (linked : Linked signals (.signal k') .listener) : k' = k := by
    by_contra other
    have member := (h.empty k' other).linked_mem List.mem_cons_self linked
    cases List.mem_singleton.mp member
  intro k₁ k₂ linked₁ linked₂
  rw [only k₁ linked₁, only k₂ linked₂]

/-- `wl_signal_add` on the first keyboard. -/
theorem linkedInto_first {k : Nat} {signals : Heap Port}
    (added : insertLast freshSignals (.signal k) .listener = some signals) :
    LinkedInto signals k := by
  have fresh : Port.listener ∉ [Port.signal k] := by simp
  obtain ⟨signals', same, ring, frame⟩ := (freshSignals_ring k).insertLast fresh
  obtain rfl := Option.some.inj (same.symm.trans added)
  refine ⟨ring, fun k' other => (freshSignals_ring k').frame ?_⟩
  intro x member
  obtain rfl := List.mem_singleton.mp member
  exact frame _ (by simp [other])

namespace Server

/-- The handlers take an event of every attached keyboard for what it is, and each
listener is in one signal at most. -/
structure RoutesRight (s : Server) : Prop where
  key : ∀ k ∈ s.keyboards.attached, ∀ xkb event,
    s.handleKeyboardKey xkb event = s.keyOf k (xkb k) event
  modifiers : ∀ k ∈ s.keyboards.attached, s.handleKeyboardModifiers = s.modifiersOf k
  keySignals : OneSignal s.keyboards.keySignals
  modifiersSignals : OneSignal s.keyboards.modifiersSignals

/-- No keyboard is attached, or one is and the seat knows it. -/
inductive AtMostOne (s : Server) : Prop
  | none (attached : s.keyboards = {})
  | one (k : Nat) (attached : s.keyboards.attached = [k]) (seat : s.seat.keyboard = some k)
      (key : LinkedInto s.keyboards.keySignals k)
      (modifiers : LinkedInto s.keyboards.modifiersSignals k)

def FirstKeyboard (s : Server) : Event → Prop
  | .newInput (.keyboard _) => s.keyboards.attached = []
  | _ => True

variable {s s' : Server}

theorem AtMostOne.routesRight (h : s.AtMostOne) : s.RoutesRight := by
  cases h with
  | none attached =>
      refine ⟨?_, ?_, ?_, ?_⟩
      · intro k member
        rw [attached] at member
        cases member
      · intro k member
        rw [attached] at member
        cases member
      · rw [attached]
        exact freshSignals_oneSignal
      · rw [attached]
        exact freshSignals_oneSignal
  | one k attached seat key modifiers =>
      refine ⟨?_, ?_, key.oneSignal, modifiers.oneSignal⟩
      · intro k' member xkb event
        rw [attached] at member
        obtain rfl := List.mem_singleton.mp member
        rw [handleKeyboardKey, seat]
      · intro k' member
        rw [attached] at member
        obtain rfl := List.mem_singleton.mp member
        rw [handleKeyboardModifiers, seat]

/-! What an event does to the keyboards and to the seat. -/

structure SameKeyboards (s s' : Server) : Prop where
  keyboards : s'.keyboards = s.keyboards
  keyboard : s'.seat.keyboard = s.seat.keyboard
  keys : s'.seat.keys = s.seat.keys

inductive SeatOutcome (s s' : Server) (e : Event) : Prop
  | kept (input : ∀ k, e ≠ .newInput (.keyboard k)) (keys : ∀ k xkb event, e ≠ .key k xkb event)
      (same : SameKeyboards s s')
  | attached (k : Nat) (event : e = .newInput (.keyboard k)) (new : k ∉ s.keyboards.attached)
      (attaches : s.attachKeyboard k = some s')
  | key (k : Nat) (xkb : Nat → XkbState) (event : KeyEvent) (here : e = .key k xkb event)
      (known : k ∈ s.keyboards.attached) (handled : s' = s.handleKeyboardKey xkb event)

theorem focusView_keyboards {v surface : Nat} (next : s.focusView v surface = some s') :
    SameKeyboards s s' := by
  obtain ⟨view, _, next⟩ := Option.bind_eq_some_iff.mp next
  dsimp only at next
  split at next
  · obtain rfl := Option.some.inj next
    exact ⟨rfl, rfl, rfl⟩
  · obtain ⟨_, _, rfl⟩ := Option.map_eq_some_iff.mp next
    refine ⟨rfl, ?_, ?_⟩ <;> simp only [Seat.enter] <;> split <;> rfl

theorem seatOutcome {e : Event} (next : s.step e = some s') : SeatOutcome s s' e := by
  cases step_taken next with
  | newOutput | outputDestroy | newXdgSurface | setTitle | unmap | xdgDestroy | missed | released
  | seatFocus | pointer | other => exact .kept nofun nofun ⟨rfl, rfl, rfl⟩
  | map w v _ mapped =>
      obtain ⟨view, _, mapped⟩ := Option.bind_eq_some_iff.mp mapped
      obtain ⟨xdg, _, mapped⟩ := Option.bind_eq_some_iff.mp mapped
      obtain ⟨mid, focused, rfl⟩ := Option.map_eq_some_iff.mp mapped
      have same := focusView_keyboards focused
      exact .kept nofun nofun ⟨same.keyboards, same.keyboard, same.keys⟩
  | surfaceDestroy w ws destroyed =>
      refine .kept nofun nofun ⟨rfl, ?_, ?_⟩ <;> simp only [Seat.surfaceDestroyed] <;> split <;> rfl
  | pressed v surface _ focused => exact .kept nofun nofun (focusView_keyboards focused)
  | keyboard k _ new attaches => exact .attached k rfl new attaches
  | key k xkb event known => exact .key k xkb event rfl known rfl
  | modifiers k =>
      refine .kept nofun nofun ?_
      unfold handleKeyboardModifiers
      split
      · exact ⟨rfl, rfl, rfl⟩
      · rename_i kb seat
        exact ⟨rfl, seat.symm, rfl⟩

theorem handleKeyboardKey_keyboards (s : Server) (xkb : Nat → XkbState) (event : KeyEvent) :
    (s.handleKeyboardKey xkb event).keyboards = s.keyboards ∧
      (s.handleKeyboardKey xkb event).seat.keyboard = s.seat.keyboard := by
  unfold handleKeyboardKey
  split
  · exact ⟨rfl, rfl⟩
  · rename_i kb seat
    have agrees := s.shortcuts_agree (xkb kb) event
    cases handled : (s.shortcuts (xkb kb) event).2 with
    | true =>
        rw [keyOf_of_handled kb handled, agrees.seat]
        exact ⟨agrees.keyboards, rfl⟩
    | false =>
        rw [keyOf_of_not_handled kb handled]
        exact ⟨agrees.keyboards, seat.symm⟩

theorem AtMostOne.congr (h : s.AtMostOne) (keyboards : s'.keyboards = s.keyboards)
    (seat : s'.seat.keyboard = s.seat.keyboard) : s'.AtMostOne := by
  cases h with
  | none attached => exact .none (keyboards.trans attached)
  | one k attached here key modifiers =>
      refine .one k ?_ (seat.trans here) ?_ ?_ <;> rwa [keyboards]

theorem attachKeyboard_spec {k : Nat} (next : s.attachKeyboard k = some s') :
    s'.keyboards.attached = s.keyboards.attached ++ [k] ∧ s'.seat.keyboard = some k ∧
      insertLast s.keyboards.keySignals (.signal k) .listener = some s'.keyboards.keySignals ∧
      insertLast s.keyboards.modifiersSignals (.signal k) .listener =
        some s'.keyboards.modifiersSignals := by
  obtain ⟨keySignals, key, next⟩ := Option.bind_eq_some_iff.mp next
  obtain ⟨modifiersSignals, modifiers, rfl⟩ := Option.map_eq_some_iff.mp next
  exact ⟨rfl, rfl, key, modifiers⟩

theorem attachKeyboard_keys {k : Nat} (next : s.attachKeyboard k = some s') :
    s'.seat.keys = s.seat.keys := by
  obtain ⟨_, _, next⟩ := Option.bind_eq_some_iff.mp next
  obtain ⟨_, _, rfl⟩ := Option.map_eq_some_iff.mp next
  rfl

theorem AtMostOne.attachKeyboard (first : s.keyboards = {}) {k : Nat}
    (next : s.attachKeyboard k = some s') : s'.AtMostOne := by
  obtain ⟨attached, seat, key, modifiers⟩ := attachKeyboard_spec next
  rw [first] at attached key modifiers
  exact .one k attached seat (linkedInto_first key) (linkedInto_first modifiers)

/-- With a second keyboard the handlers no longer know the first. -/
theorem not_routesRight {k k' : Nat} (known : k ∈ s.keyboards.attached)
    (seat : s.seat.keyboard = some k') (other : k ≠ k') : ¬ s.RoutesRight := by
  intro right
  have taken := right.modifiers k known
  rw [handleKeyboardModifiers, seat] at taken
  have same : some k' = some k := congrArg (·.seat.keyboard) taken
  exact other (Option.some.inj same).symm

theorem step_atMostOne (h : s.AtMostOne) {e : Event} (first : s.FirstKeyboard e)
    (next : s.step e = some s') : s'.AtMostOne := by
  cases seatOutcome next with
  | kept _ _ same => exact h.congr same.keyboards same.keyboard
  | attached k event new attaches =>
      rw [event] at first
      cases h with
      | none attached => exact AtMostOne.attachKeyboard attached attaches
      | one k' attached =>
          have empty : s.keyboards.attached = [] := first
          rw [attached] at empty
          cases empty
  | key k xkb event here known handled =>
      obtain ⟨keyboards, keyboard⟩ := s.handleKeyboardKey_keyboards xkb event
      rw [handled]
      exact h.congr keyboards keyboard

/-- Routing stays right exactly when the event is not a further keyboard. -/
theorem routesRight_step_iff (h : s.AtMostOne) {e : Event} (next : s.step e = some s') :
    s'.RoutesRight ↔ s.FirstKeyboard e := by
  refine ⟨fun right => ?_, fun first => (step_atMostOne h first next).routesRight⟩
  cases seatOutcome next with
  | kept input _ _ =>
      unfold FirstKeyboard
      split
      · exact absurd rfl (input _)
      · trivial
  | attached k' event new attaches =>
      rw [event]
      cases h with
      | none attached =>
          change s.keyboards.attached = []
          rw [attached]
      | one k attached =>
          obtain ⟨grown, named, _, _⟩ := attachKeyboard_spec attaches
          rw [attached] at new grown
          have known : k ∈ s'.keyboards.attached := grown ▸ List.mem_cons_self
          refine absurd right (not_routesRight known named ?_)
          rintro rfl
          exact new List.mem_cons_self
  | key k xkb event here _ _ => rw [here]; trivial

/-- In every state of a run the events of all attached keyboards are routed right
exactly when no keyboard is attached while there is one. -/
theorem routes_right_iff_one_keyboard (events : List Event) :
    (∀ s, Runs.Visits step start events s → s.RoutesRight) ↔
      ∀ s e, Runs.Takes step start events s e → s.FirstKeyboard e := by
  have none : start.AtMostOne := .none rfl
  refine Runs.visits_iff_takes AtMostOne RoutesRight FirstKeyboard ?_ ?_ none
    none.routesRight events
  · exact fun s e s' h _ first next => step_atMostOne h first next
  · exact fun s e s' h _ next => routesRight_step_iff h next

/-- With two keyboards the seat names the second, and the key listener follows the
signals of both. -/
theorem second_keyboard_misroutes :
    ∃ s, Runs.Visits step start [.newInput (.keyboard 0), .newInput (.keyboard 1)] s ∧
      ¬ s.RoutesRight ∧ ¬ OneSignal s.keyboards.keySignals := by
  have ends : (Runs.run step start [.newInput (.keyboard 0), .newInput (.keyboard 1)]).any
      (fun s => s.keyboards.attached.contains 0 && decide (s.seat.keyboard = some 1) &&
        decide ((s.keyboards.keySignals (.signal 0)).next = some .listener) &&
        decide ((s.keyboards.keySignals (.signal 1)).next = some .listener)) = true := by
    decide +kernel
  obtain ⟨s, ran, all⟩ := Option.any_eq_true _ _ |>.mp ends
  simp only [Bool.and_eq_true, List.contains_iff_mem, decide_eq_true_eq] at all
  obtain ⟨⟨⟨known, seat⟩, first⟩, second⟩ := all
  refine ⟨s, Runs.visits_of_run ran, not_routesRight known seat (by decide), fun one => ?_⟩
  have same := one 0 1 (Relation.TransGen.single first) (Relation.TransGen.single second)
  cases same

end Server
end LunaOS.Compositor
