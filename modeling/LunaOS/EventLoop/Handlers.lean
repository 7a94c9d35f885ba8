import LunaOS.EventLoop.Capacity
import LunaOS.EventLoop.Removal
import LunaOS.EventLoop.Wiring
import Mathlib.Data.List.Perm.Basic

/-!
The event handlers run on a concurrent queue, beside the thread that calls the loop. `Loop`
takes a firing for one step; here a handler first reads `cancelled`, and calls the function
later, when anything may have happened in between. GCD runs the event handler of a source
one at a time, and its cancel handler when no event handler is under way. So removal is
final up to one call: the one whose handler had read the flag before.

A word is read and written at once; the callbacks of `wl_event_loop_dispatch` are those of
the thread that calls it. `wl_event_loop_destroy` frees the flags, and nothing waits for the
handlers: one that comes to its flag later, or a cancel handler, is undefined and has no step
here. A handler that had read the flag before can still make its call.
-/
namespace LunaOS.EventLoop
open Histories

def Block.call : Block → Callback
  | .read i func fd data => .fd i func fd wlEventReadable data
  | .timer i func data => .timer i func data

/-- The loop with its event handlers. `passed` are those that found the flag clear and have
not called yet, with their dispatch sources. In the loop's own history such a callback
stands where the flag was read; in `seen`, where it is made. No step reads the two. -/
structure Threads where
  loop : Loop := Loop.create
  passed : List (Nat × Callback) := []
  seen : List Happening := []

namespace Threads

def underWay (t : Threads) (k : Nat) : Bool :=
  t.passed.any (·.1 = k)

inductive Action where
  | main (e : Loop.Event)
  | enter (k : Nat)
  | call (k : Nat)

def mainStep (t : Threads) (e : Loop.Event) : Option Threads :=
  (t.loop.step e).map fun l =>
    { t with loop := l, seen := t.seen ++ l.history.drop t.loop.history.length }

def enter (t : Threads) (k : Nat) (b : Block) : Threads :=
  if (t.loop.sources b.slot).cancelled then t
  else { t with loop := t.loop.fire b, passed := (k, b.call) :: t.passed }

def step (t : Threads) : Action → Option Threads
  | .main (.fire _) => none
  | .main (.cancelHandler k) => if t.underWay k then none else t.mainStep (.cancelHandler k)
  | .main e => t.mainStep e
  | .enter k =>
      if t.loop.destroyed ∨ t.underWay k then none
      else (t.loop.gcd.handler k).map fun b => t.enter k b
  | .call k =>
      (t.passed.lookup k).map fun c =>
        { t with passed := t.passed.filter (·.1 ≠ k), seen := t.seen ++ [.ran c] }

variable {t t' : Threads} {k : Nat} {b : Block}

theorem call_source (b : Block) : b.call.source = b.slot := by
  cases b <;> rfl

theorem fire_of_clear {s : Loop} (clear : (s.sources b.slot).cancelled = false) :
    s.fire b = s.record (.ran b.call) := by
  cases b with
  | read i func fd data =>
      rw [Loop.fire, if_neg (by rw [show (s.sources i).cancelled = false from clear]; exact
        Bool.false_ne_true)]
      rfl
  | timer i func data =>
      rw [Loop.fire, if_neg (by rw [show (s.sources i).cancelled = false from clear]; exact
        Bool.false_ne_true)]
      rfl

/-- What a step does to the loop and to the handlers under way. -/
inductive Outcome (t t' : Threads) : Prop
  | main (e : Loop.Event) (l : Loop) (next : t.loop.step e = some l)
      (same : t' =
        { t with loop := l, seen := t.seen ++ l.history.drop t.loop.history.length })
  | idle (same : t' = t)
  | entered (k : Nat) (b : Block) (alive : t.loop.destroyed = false)
      (free : ∀ c, (k, c) ∉ t.passed) (given : t.loop.gcd.handler k = some b)
      (same : t' =
        { t with loop := t.loop.record (.ran b.call), passed := (k, b.call) :: t.passed })
      (fires : t.loop.fire b = t.loop.record (.ran b.call))
  | called (k : Nat) (c : Callback) (inside : (k, c) ∈ t.passed)
      (same : t' =
        { t with passed := t.passed.filter (·.1 ≠ k), seen := t.seen ++ [.ran c] })

theorem outcome {a : Action} (next : t.step a = some t') : Outcome t t' := by
  have main {e : Loop.Event} (next : t.mainStep e = some t') : Outcome t t' := by
    obtain ⟨l, stepped, rfl⟩ := Option.map_eq_some_iff.mp next
    exact .main e l stepped rfl
  cases a with
  | main e =>
      cases e with
      | fire k => cases next
      | cancelHandler k =>
          obtain ⟨_, next⟩ := Option.ite_none_left_eq_some.mp next
          exact main next
      | addFd _ _ _ _ | addTimer _ _ | timerUpdate _ _ _ | remove _ | kevent _ | destroy =>
          exact main next
  | enter k =>
      obtain ⟨free, next⟩ := Option.ite_none_left_eq_some.mp next
      obtain ⟨alive, free⟩ := not_or.mp free
      obtain ⟨b, given, rfl⟩ := Option.map_eq_some_iff.mp next
      unfold enter
      split
      · exact .idle rfl
      · rename_i clear
        have fires := fire_of_clear (Bool.eq_false_of_not_eq_true clear)
        refine .entered k b (Bool.eq_false_of_not_eq_true alive) ?_ given (by rw [fires]) fires
        intro c inside
        exact free (List.any_eq_true.mpr ⟨(k, c), inside, decide_eq_true rfl⟩)
  | call k =>
      obtain ⟨c, found, rfl⟩ := Option.map_eq_some_iff.mp next
      refine .called k c ?_ rfl
      obtain ⟨before, after, split, _⟩ := List.lookup_eq_some_iff.mp found
      rw [split]
      exact List.mem_append_right _ List.mem_cons_self

def callsOf (h : List Happening) : List Callback :=
  h.filterMap fun
    | .ran c => some c
    | _ => none

theorem callsOf_append (h h' : List Happening) : callsOf (h ++ h') = callsOf h ++ callsOf h' :=
  List.filterMap_append

structure Sound (t : Threads) : Prop where
  reached : t.loop.Reached
  wired : t.loop.Wired
  own : ∀ k k' b b', t.loop.gcd.handler k = some b → t.loop.gcd.handler k' = some b' →
    b.slot = b'.slot → k = k'
  passed : ∀ k c, (k, c) ∈ t.passed → ∃ b, t.loop.gcd.handler k = some b ∧ c = b.call
  once : (t.passed.map (·.1)).Nodup
  balance : (callsOf t.loop.history).Perm (callsOf t.seen ++ t.passed.map (·.2))

theorem sound_start : Sound {} where
  reached := .of_held rfl Loop.registered_create Loop.held_create
  wired := Loop.wired_create
  own := by intro k k' b b' given; cases given
  passed := by intro k c inside; cases inside
  once := .nil
  balance := .refl _

/-- An event makes at most one block, for the next slot. -/
theorem handler_step {l l' : Loop} {e : Loop.Event} (next : l.step e = some l') :
    l'.gcd.handler = l.gcd.handler ∨ ∃ b : Block, b.slot.val = l.sourceCount ∧
      l'.gcd.handler = Function.update l.gcd.handler l.gcd.ledger.allocated (some b) := by
  cases (Loop.step_spec next).2 with
  | addFd fd mask func data =>
      unfold Loop.addFd
      split
      · dsimp only
        split
        · exact Or.inr ⟨_, rfl, rfl⟩
        · split <;> exact Or.inl rfl
      · exact Or.inl rfl
  | addTimer func data =>
      unfold Loop.addTimer
      split
      · exact Or.inr ⟨_, rfl, rfl⟩
      · exact Or.inl rfl
  | timerUpdate i ms now used =>
      unfold Loop.timerUpdate
      split
      · exact Or.inl rfl
      · dsimp only
        split <;> exact Or.inl rfl
  | remove i used =>
      unfold Loop.remove
      dsimp only
      split <;> exact Or.inl rfl
  | fire k b given =>
      rcases l.fire_cases b with same | ⟨c, ran⟩
      · exact Or.inl (by rw [same])
      · exact Or.inl (by rw [ran, Loop.record])
  | cancelHandler k b gone given => cases b <;> exact Or.inl rfl
  | kevent ev known =>
      rcases l.dispatchOne_cases ev with same | ⟨c, ran⟩
      · exact Or.inl (by rw [same])
      · exact Or.inl (by rw [ran, Loop.record])
  | destroy => exact Or.inl (by rw [Loop.destroy, Gcd.foldl_drop_handler])

theorem slot_lt {l : Loop} (wired : l.Wired) (given : l.gcd.handler k = some b) :
    b.slot.val < l.sourceCount := by
  cases b with
  | read i func fd data => exact (wired.read k i func fd data given).1
  | timer i func data =>
      by_contra beyond
      have blank := (wired.unused i (not_lt.mp beyond)).1
      rw [(wired.timer k i func data given).1] at blank
      cases blank

/-- A dispatch source belongs to one slot, and stays its own. -/
theorem own_step {l l' : Loop} {e : Loop.Event} (wired : l.Wired)
    (own : ∀ k k' b b', l.gcd.handler k = some b → l.gcd.handler k' = some b' →
      b.slot = b'.slot → k = k')
    (next : l.step e = some l') (k k' : Nat) (b b' : Block)
    (given : l'.gcd.handler k = some b) (given' : l'.gcd.handler k' = some b')
    (same : b.slot = b'.slot) : k = k' := by
  rcases handler_step next with old | ⟨new, fresh, handler⟩
  · rw [old] at given given'
    exact own k k' b b' given given' same
  · rw [handler] at given given'
    have apart {j : Nat} {c : Block} (older : l.gcd.handler j = some c) : c.slot ≠ new.slot := by
      intro clash
      have lt := slot_lt wired older
      rw [clash, fresh] at lt
      exact lt.false
    by_cases first : k = l.gcd.ledger.allocated
    · rw [first, Function.update_self] at given
      obtain rfl := Option.some.inj given
      by_cases second : k' = l.gcd.ledger.allocated
      · exact first.trans second.symm
      · rw [Function.update_of_ne second] at given'
        exact absurd same.symm (apart given')
    · rw [Function.update_of_ne first] at given
      by_cases second : k' = l.gcd.ledger.allocated
      · rw [second, Function.update_self] at given'
        obtain rfl := Option.some.inj given'
        exact absurd same (apart given)
      · rw [Function.update_of_ne second] at given'
        exact own k k' b b' given given' same

/-- A block stays with its dispatch source. -/
theorem handler_keeps {l l' : Loop} {e : Loop.Event} (wired : l.Wired)
    (next : l.step e = some l') (given : l.gcd.handler k = some b) :
    l'.gcd.handler k = some b := by
  rcases handler_step next with old | ⟨new, _, handler⟩
  · rw [old]
    exact given
  · rw [handler, Function.update_of_ne (Nat.ne_of_lt (wired.issued k b given))]
    exact given

theorem history_grows {l l' : Loop} {e : Loop.Event} (next : l.step e = some l') :
    ∃ more, l'.history = l.history ++ more := by
  cases Loop.step_outcome next with
  | added _ _ _ _ history | removed _ _ _ _ history => exact ⟨_, history⟩
  | refused _ _ _ same => exact ⟨[], by rw [same, List.append_nil]⟩
  | other _ _ _ history =>
      rcases history with same | ⟨c, grown⟩
      · exact ⟨[], by rw [same, List.append_nil]⟩
      · exact ⟨_, grown⟩

theorem Sound.main (h : t.Sound) {e : Loop.Event} {l : Loop} (next : t.loop.step e = some l) :
    Sound { t with loop := l, seen := t.seen ++ l.history.drop t.loop.history.length } where
  reached := h.reached.step next
  wired := h.wired.step next
  own := own_step h.wired h.own next
  passed := by
    intro k c inside
    obtain ⟨b, given, same⟩ := h.passed k c inside
    exact ⟨b, handler_keeps h.wired next given, same⟩
  once := h.once
  balance := by
    obtain ⟨more, grown⟩ := history_grows next
    have new : l.history.drop t.loop.history.length = more := by rw [grown, List.drop_left]
    change (callsOf l.history).Perm
      (callsOf (t.seen ++ l.history.drop t.loop.history.length) ++ t.passed.map (·.2))
    rw [new, grown, callsOf_append, callsOf_append, List.append_assoc]
    refine (h.balance.append_right _).trans ?_
    rw [List.append_assoc]
    exact List.perm_append_comm.append_left _

theorem Sound.entered (h : t.Sound) (alive : t.loop.destroyed = false)
    (free : ∀ c, (k, c) ∉ t.passed) (given : t.loop.gcd.handler k = some b)
    (fires : t.loop.fire b = t.loop.record (.ran b.call)) :
    Sound
      { t with loop := t.loop.record (.ran b.call), passed := (k, b.call) :: t.passed } := by
  have next : t.loop.step (.fire k) = some (t.loop.record (.ran b.call)) := by
    rw [Loop.step, alive, given]
    exact congrArg some fires
  refine ⟨h.reached.step next, h.wired.step next, h.own, ?_, ?_, ?_⟩
  · intro k' c inside
    rcases List.mem_cons.mp inside with here | old
    · obtain ⟨rfl, rfl⟩ := Prod.mk.inj here
      exact ⟨b, given, rfl⟩
    · exact h.passed k' c old
  · refine List.nodup_cons.mpr ⟨fun busy => ?_, h.once⟩
    obtain ⟨⟨k', c⟩, inside, rfl⟩ := List.mem_map.mp busy
    exact free c inside
  · change (callsOf (t.loop.history ++ [.ran b.call])).Perm
      (callsOf t.seen ++ b.call :: t.passed.map (·.2))
    rw [callsOf_append]
    exact (List.perm_append_singleton b.call _).trans
      ((h.balance.cons b.call).trans List.perm_middle.symm)

/-- The callback that a handler makes is not under way any more. -/
theorem perm_called {ps : List (Nat × Callback)} (once : (ps.map (·.1)).Nodup) {c : Callback}
    (inside : (k, c) ∈ ps) :
    (ps.map (·.2)).Perm (c :: (ps.filter (·.1 ≠ k)).map (·.2)) := by
  induction ps with
  | nil => cases inside
  | cons p ps ih =>
      obtain ⟨fresh, rest⟩ := List.nodup_cons.mp once
      have others (k' : Nat) (gone : k' ∉ ps.map (·.1)) : ps.filter (·.1 ≠ k') = ps := by
        refine List.filter_eq_self.mpr fun q here => decide_eq_true ?_
        rintro rfl
        exact gone (List.mem_map_of_mem here)
      rcases List.mem_cons.mp inside with rfl | later
      · rw [List.filter_cons_of_neg (by simp), others k fresh]
        exact .refl _
      · have apart : p.1 ≠ k := by
          rintro rfl
          exact fresh (List.mem_map.mpr ⟨_, later, rfl⟩)
        rw [List.filter_cons_of_pos (by simpa using apart)]
        exact ((ih rest later).cons p.2).trans (.swap c p.2 _)

theorem Sound.called (h : t.Sound) {c : Callback} (inside : (k, c) ∈ t.passed) :
    Sound { t with passed := t.passed.filter (·.1 ≠ k), seen := t.seen ++ [.ran c] } where
  reached := h.reached
  wired := h.wired
  own := h.own
  passed := fun k' c' still => h.passed k' c' (List.mem_of_mem_filter still)
  once := (List.filter_sublist.map _).nodup h.once
  balance := by
    refine h.balance.trans ?_
    change (callsOf t.seen ++ t.passed.map (·.2)).Perm (callsOf (t.seen ++ [.ran c]) ++ _)
    rw [callsOf_append, List.append_assoc]
    exact (perm_called h.once inside).append_left _

theorem Sound.step (h : t.Sound) {a : Action} (next : t.step a = some t') : t'.Sound := by
  cases outcome next with
  | main e l stepped same => exact same ▸ h.main stepped
  | idle same => exact same ▸ h
  | entered k b alive free given same fires => exact same ▸ h.entered alive free given fires
  | called k c inside same => exact same ▸ h.called inside

theorem run_sound {as : List Action} (reached : Runs.run step {} as = some t) : t.Sound :=
  Runs.run_invariant (fun _ _ _ h next => h.step next) sound_start reached

/-! What comes after a removal. -/

def callsTo (i : Fin maxSources) (h : List Happening) : List Callback :=
  (callsOf h).filter (·.source = i)

theorem callsTo_append (i : Fin maxSources) (h h' : List Happening) :
    callsTo i (h ++ h') = callsTo i h ++ callsTo i h' := by
  rw [callsTo, callsOf_append, List.filter_append]
  rfl

theorem mem_callsOf {c : Callback} {h : List Happening} : c ∈ callsOf h ↔ .ran c ∈ h := by
  constructor
  · intro inside
    obtain ⟨x, here, same⟩ := List.mem_filterMap.mp inside
    cases x with
    | ran d => exact Option.some.inj same ▸ here
    | added _ _ | removed _ => cases same
  · exact fun here => List.mem_filterMap.mpr ⟨_, here, rfl⟩

/-- One handler of a source at most is under way. -/
theorem Sound.one_under_way (h : t.Sound) (i : Fin maxSources) :
    ((t.passed.map (·.2)).filter (·.source = i)).length ≤ 1 := by
  have apart : (t.passed.map fun p => p.2.source).Nodup := by
    refine List.pairwise_map.mpr ((List.pairwise_map.mp h.once).imp_of_mem ?_)
    intro p q inside inside' differ same
    obtain ⟨b, given, call⟩ := h.passed p.1 p.2 inside
    obtain ⟨b', given', call'⟩ := h.passed q.1 q.2 inside'
    rw [call, call', call_source, call_source] at same
    exact differ (h.own _ _ b b' given given' same)
  have counted : ((t.passed.map (·.2)).filter (·.source = i)).length =
      (t.passed.map fun p => p.2.source).count i := by
    rw [List.count, List.countP_map, List.filter_map, List.length_map, List.countP_eq_length_filter]
    rfl
  rw [counted]
  exact List.nodup_iff_count_le_one.mp apart i

def Grown (t u : Threads) : Prop :=
  ∃ out more, u.loop.history = t.loop.history ++ out ∧ u.seen = t.seen ++ more

theorem Grown.step {u u' : Threads} (known : t.Grown u) {a : Action}
    (next : u.step a = some u') : t.Grown u' := by
  obtain ⟨out, more, history, seen⟩ := known
  cases outcome next with
  | main e l stepped same =>
      obtain ⟨new, grown⟩ := history_grows stepped
      refine same ▸ ⟨out ++ new, more ++ l.history.drop u.loop.history.length, ?_, ?_⟩
      · rw [← List.append_assoc, ← history]
        exact grown
      · rw [← List.append_assoc, ← seen]
  | idle same => exact same ▸ ⟨out, more, history, seen⟩
  | entered k b alive free given same fires =>
      refine same ▸ ⟨out ++ [.ran b.call], more, ?_, seen⟩
      rw [← List.append_assoc, ← history]
      rfl
  | called k c inside same =>
      refine same ▸ ⟨out, more ++ [.ran c], history, ?_⟩
      rw [← List.append_assoc, ← seen]

theorem run_grown {as : List Action} (ran : Runs.run step t as = some t') : t.Grown t' :=
  Runs.run_invariant (fun _ _ _ known next => known.step next)
    ⟨[], [], (List.append_nil _).symm, (List.append_nil _).symm⟩ ran

/-- The flag is read no more once the source is removed. -/
theorem callsTo_removed {h out : List Happening} {i : Fin maxSources}
    (lawful : Always Lawful (h ++ out)) (removed : .removed i ∈ h) : callsTo i out = [] := by
  refine List.filter_eq_nil_iff.mpr fun c inside source => ?_
  have here := of_decide_eq_true source
  obtain ⟨before, after, split⟩ := List.append_of_mem (mem_callsOf.mp inside)
  have law := ((always_append h out).mp lawful).2 before (.ran c) after split
  rw [← here] at removed
  exact law.1 (List.mem_append_left _ removed)

/-- The removal is in the loop's history, and leaves the handlers under way. -/
theorem main_remove {i : Fin maxSources} (next : t.step (.main (.remove i)) = some t') :
    .removed i ∈ t'.loop.history ∧ t'.passed = t.passed := by
  obtain ⟨l, stepped, rfl⟩ := Option.map_eq_some_iff.mp next
  refine ⟨?_, rfl⟩
  cases (Loop.step_spec stepped).2 with
  | remove i used =>
      change .removed i ∈ ((t.loop.record (.removed i)).remove i).history
      rw [((t.loop.record (.removed i)).remove_spec i).2]
      exact List.mem_append_right _ (List.mem_singleton.mpr rfl)

/-- In every run, with the handlers beside the thread that calls the loop until the loop is
freed, a callback gets what its source was added with; and after a source is removed at most
one is made for it, by the handler that had found the flag clear before. -/
theorem removal_final_up_to_one {as bs : List Action} {i : Fin maxSources} {t'' : Threads}
    (reached : Runs.run step {} as = some t) (removed : t.step (.main (.remove i)) = some t')
    (ran : Runs.run step t' bs = some t'') :
    (∀ c, .ran c ∈ t''.seen → ∃ r, .added c.source r ∈ t''.loop.history ∧ c.Receives r) ∧
      ∃ more, t''.seen = t'.seen ++ more ∧ (callsTo i more).length ≤ 1 ∧
        ∀ c ∈ callsTo i more, ∃ k, (k, c) ∈ t.passed := by
  have sound := run_sound reached
  have sound' := sound.step removed
  have sound'' : t''.Sound := Runs.run_invariant (fun _ _ _ h next => h.step next) sound' ran
  obtain ⟨gone, same⟩ := main_remove removed
  obtain ⟨out, more, history, seen⟩ := run_grown ran
  refine ⟨fun c made => ?_, more, seen, ?_⟩
  · have read : .ran c ∈ t''.loop.history := mem_callsOf.mp
      (sound''.balance.symm.subset (List.mem_append_left _ (mem_callsOf.mpr made)))
    obtain ⟨before, after, split⟩ := List.append_of_mem read
    obtain ⟨_, r, added, receives⟩ := sound''.reached.registered.lawful before (.ran c) after split
    exact ⟨r, split ▸ List.mem_append_left _ added, receives⟩
  · have lawful := sound''.reached.registered.lawful
    rw [history] at lawful
    have silent := callsTo_removed lawful gone
    have before := sound'.balance.filter (·.source = i)
    have after := sound''.balance.filter (·.source = i)
    rw [List.filter_append] at before after
    change (callsTo i t''.loop.history).Perm (callsTo i t''.seen ++ _) at after
    change (callsTo i t'.loop.history).Perm (callsTo i t'.seen ++ _) at before
    rw [history, seen, callsTo_append, callsTo_append, silent, List.append_nil,
      List.append_assoc] at after
    -- what is made after the removal was under way when it came
    have late := (List.perm_append_left_iff _).mp (after.symm.trans before)
    rw [same] at late
    refine ⟨?_, fun c made => ?_⟩
    · have bound := late.length_eq
      rw [List.length_append] at bound
      have one := sound.one_under_way i
      omega
    · obtain ⟨⟨k, d⟩, inside, rfl⟩ := List.mem_map.mp
        (List.mem_of_mem_filter (late.subset (List.mem_append_left _ made)))
      exact ⟨k, inside⟩

/-- The handler of a source has read the flag when the source is removed. -/
def overtaken : List Action :=
  [.main (.addFd 5 wlEventReadable 7 9), .enter 0]

theorem removal_final_up_to_one_overtaken :
    ∃ t t' t'', Runs.run step {} overtaken = some t ∧
      t.step (.main (.remove 0)) = some t' ∧ Runs.run step t' [.call 0, .enter 0] = some t'' ∧
      (callsTo 0 t''.seen).length = 1 ∧
      ∃ more, t''.seen = t'.seen ++ more ∧ (callsTo 0 more).length ≤ 1 := by
  have ends : (Runs.run step {}
      (overtaken ++ [.main (.remove 0), .call 0, .enter 0])).map
        (fun t => (callsTo 0 t.seen).length) = some 1 := by decide
  obtain ⟨t'', whole, one⟩ := Option.map_eq_some_iff.mp ends
  rw [Runs.run_append] at whole
  obtain ⟨t, reached, rest⟩ := Option.bind_eq_some_iff.mp whole
  obtain ⟨t', removed, ran⟩ := Option.bind_eq_some_iff.mp rest
  exact ⟨t, t', t'', reached, removed, ran, one,
    (removal_final_up_to_one reached removed ran).2.imp fun _ late => ⟨late.1, late.2.1⟩⟩

end Threads

end LunaOS.EventLoop
