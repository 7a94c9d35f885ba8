import LunaOS.EventLoop.Wiring
import LunaOS.Lib.Monitors
import LunaOS.Lib.Timers

/-!
The timers of the event loop, beside a clock of nanoseconds. A timer source of GCD fires,
once it was resumed, at the start of its last setting and then again every interval, until
it is cancelled. What is due at the very end of a stretch of time may or may not have fired
before the next event. A callback that sets its own timer again is an event at the end of
such a stretch.
-/
namespace LunaOS.EventLoop
open Timers Monitors

/-- The timer block and the setting of a source that fires when it is due. -/
def Gcd.runningTimer (g : Gcd) (k : Nat) : Option (Block × TimerSetting) :=
  match g.handler k with
  | some (.timer i func data) =>
      if k ∈ g.resumed ∧ k ∉ g.cancelled then (g.timer k).map ((.timer i func data), ·) else none
  | _ => none

/-- The loop with the clock; `fired` counts the firings of a source since it was last
set. -/
structure Timed where
  loop : Loop := .create
  clock : Nat := 0
  fired : Nat → Nat := fun _ => 0

namespace Timed

/-- An event at the present time, or a stretch of time in which timers fire. `ends` tells
which sources fire at its very end if they are due then. -/
inductive Action where
  | event (e : Loop.Event)
  | elapse (ns : Nat) (ends : Nat → Bool)

/-- The first time at which what is due has not fired yet. -/
def horizon (s : Timed) (ns : Nat) (ends : Nat → Bool) (k : Nat) : Nat :=
  s.clock + ns + if ends k then 1 else 0

def fireDue (horizon : Nat → Nat) (s : Timed) (k : Nat) : Timed :=
  match s.loop.gcd.runningTimer k with
  | some (block, t) =>
      let n := due t.start.toNat t.interval.toNat (horizon k)
      { s with
        loop := (fun l => l.fire block)^[n - s.fired k] s.loop
        fired := Function.update s.fired k (max (s.fired k) n) }
  | none => s

/-- Timers fire as time passes, and an update is made at the present time. -/
def allows (s : Timed) : Loop.Event → Bool
  | .timerUpdate _ _ now => now.toNat = s.clock
  | .fire k => match s.loop.gcd.handler k with
    | some (.timer _ _ _) => false
    | _ => true
  | _ => true

/-- `dispatch_source_set_timer` starts the count of firings again. -/
def firedAfter (s : Timed) : Loop.Event → Nat → Nat
  | .timerUpdate i _ _ => match (s.loop.sources i).dispatchSrc with
    | some k => Function.update s.fired k 0
    | none => s.fired
  | _ => s.fired

def step (s : Timed) : Action → Option Timed
  | .event e =>
      if s.allows e then (s.loop.step e).map fun l => { s with loop := l, fired := s.firedAfter e }
      else none
  | .elapse ns ends =>
      if s.clock + ns < 2 ^ 64 then
        some { (List.range s.loop.gcd.ledger.allocated).foldl (fireDue (s.horizon ns ends)) s with
          clock := s.clock + ns }
      else none

end Timed

def Happening.runs (i : Fin maxSources) : Happening → Bool
  | .ran c => c.source = i
  | _ => false

/-- What is remembered of the updates of each source: how long the history was at the last
one, and whether there was one with 0 and since then none with a time. -/
structure Updates where
  mark : Fin maxSources → Nat := fun _ => 0
  stopped : Fin maxSources → Bool := fun _ => false

def Updates.note (s : Timed) (a : Timed.Action) (o : Updates) : Updates :=
  match a with
  | .event (.timerUpdate i ms _) =>
      { mark := Function.update o.mark i s.loop.history.length
        stopped := Function.update o.stopped i
          (if ms = 0 then true else if 0 < ms then false else o.stopped i) }
  | _ => o

namespace Timed
variable {s s' : Timed} {o : Updates}

def runsSince (s : Timed) (o : Updates) (i : Fin maxSources) : Nat :=
  (s.loop.history.drop (o.mark i)).countP (Happening.runs i)

/-- The contract of libwayland's timers. -/
def OneShot (s : Timed) (o : Updates) : Prop :=
  ∀ i, (s.loop.sources i).isTimer = true →
    s.runsSince o i ≤ 1 ∧ (o.stopped i = true → s.runsSince o i = 0)

/-- The next firing but one of a running timer is not due in the stretch, nor the next one
of a timer that was stopped. -/
def Spares (s : Timed) (o : Updates) : Action → Prop
  | .event _ => True
  | .elapse ns ends => ∀ k i func data t,
      s.loop.gcd.runningTimer k = some (.timer i func data, t) →
        s.horizon ns ends k ≤ t.start.toNat + t.interval.toNat ∧
          (o.stopped i = true → s.horizon ns ends k ≤ t.start.toNat)

/-- What an event that sets no timer leaves of the timers. -/
structure Calm (s s' : Loop) : Prop where
  history : ∃ out, s'.history = s.history ++ out ∧
    ∀ i, (s.sources i).isTimer = true ∨ s.sourceCount ≤ i.val →
      out.countP (Happening.runs i) = 0
  kind : ∀ i, (s'.sources i).isTimer = true →
    (s.sources i).isTimer = true ∨ s.sourceCount ≤ i.val
  links : ∀ i k, (s'.sources i).isTimer = true → (s'.sources i).dispatchSrc = some k →
    (s.sources i).isTimer = true ∧ (s.sources i).dispatchSrc = some k ∨
      s.sourceCount ≤ i.val ∧ s.gcd.ledger.allocated ≤ k
  count : s.sourceCount ≤ s'.sourceCount
  allocated : s.gcd.ledger.allocated ≤ s'.gcd.ledger.allocated
  timer : s'.gcd.timer = s.gcd.timer

section
variable {s s' : Loop}

theorem calm_same (sources : s'.sources = s.sources) (gcd : s'.gcd = s.gcd)
    (count : s.sourceCount ≤ s'.sourceCount)
    (history : ∃ out, s'.history = s.history ++ out ∧
      ∀ i, (s.sources i).isTimer = true ∨ s.sourceCount ≤ i.val →
        out.countP (Happening.runs i) = 0) : Calm s s' where
  history := history
  kind := by rw [sources]; exact fun _ => Or.inl
  links := by rw [sources]; exact fun _ _ timer holds => Or.inl ⟨timer, holds⟩
  count := count
  allocated := by rw [gcd]
  timer := by rw [gcd]

theorem calm_refl (s : Loop) : Calm s s :=
  calm_same rfl rfl (Nat.le_refl _) ⟨[], (List.append_nil _).symm, fun _ _ => rfl⟩

/-- A run of a callback whose source is in use and no timer. -/
theorem calm_ran (c : Callback) (used : c.source.val < s.sourceCount)
    (kind : (s.sources c.source).isTimer = false) : Calm s (s.record (.ran c)) := by
  refine calm_same rfl rfl (Nat.le_refl _) ⟨[.ran c], rfl, fun i timer => ?_⟩
  have other : c.source ≠ i := by
    rintro rfl
    cases timer with
    | inl is_timer => exact Bool.false_ne_true (kind.symm.trans is_timer)
    | inr free => omega
  simp [Happening.runs, other]

/-- A slot that is in use changes, but not to a timer or to another dispatch source. -/
theorem calm_edit (i : Fin maxSources) {src : Source}
    (sources : s'.sources = Function.update s.sources i src)
    (timer : src.isTimer = (s.sources i).isTimer)
    (held : ∀ k, src.dispatchSrc = some k → (s.sources i).dispatchSrc = some k)
    (count : s'.sourceCount = s.sourceCount) (settings : s'.gcd.timer = s.gcd.timer)
    (allocated : s'.gcd.ledger.allocated = s.gcd.ledger.allocated)
    (history : ∃ out, s'.history = s.history ++ out ∧
      ∀ i, out.countP (Happening.runs i) = 0) : Calm s s' := by
  have kind (j : Fin maxSources) : (s'.sources j).isTimer = (s.sources j).isTimer := by
    rw [sources]
    exact Slots.read_update_of_eq Source.isTimer timer j
  obtain ⟨out, appends, quiet⟩ := history
  refine ⟨⟨out, appends, fun j _ => quiet j⟩, ?_, ?_, count.ge, allocated.ge, settings⟩
  · exact fun j is_timer => Or.inl ((kind j).symm.trans is_timer)
  · intro j k is_timer holds
    refine Or.inl ⟨(kind j).symm.trans is_timer, ?_⟩
    by_cases e : j = i
    · rw [e, sources, Function.update_self] at holds
      exact e ▸ held k holds
    · rwa [sources, Function.update_of_ne e] at holds

/-- The next free slot is given to a source; a dispatch source that it holds is new. -/
theorem calm_grow (i : Fin maxSources) {src : Source} {r : Registration}
    (new : i.val = s.sourceCount) (sources : s'.sources = Function.update s.sources i src)
    (held : src.isTimer = true → ∀ k, src.dispatchSrc = some k → s.gcd.ledger.allocated ≤ k)
    (count : s'.sourceCount = s.sourceCount + 1) (settings : s'.gcd.timer = s.gcd.timer)
    (allocated : s.gcd.ledger.allocated ≤ s'.gcd.ledger.allocated)
    (history : s'.history = s.history ++ [.added i r]) : Calm s s' := by
  have other {j : Fin maxSources} (e : j ≠ i) : s'.sources j = s.sources j := by
    rw [sources, Function.update_of_ne e]
  refine ⟨⟨_, history, fun _ _ => rfl⟩, ?_, ?_, by omega, allocated, settings⟩
  · intro j is_timer
    by_cases e : j = i
    · exact Or.inr (by omega)
    · exact Or.inl (by rwa [other e] at is_timer)
  · intro j k is_timer holds
    by_cases e : j = i
    · rw [e, sources, Function.update_self] at is_timer holds
      exact Or.inr ⟨by omega, held is_timer k holds⟩
    · rw [other e] at is_timer holds
      exact Or.inl ⟨is_timer, holds⟩

theorem addFd_calm (wired : s.Wired) (fd : Int32) (mask : UInt32) (func data : UInt64) :
    Calm s (s.addFd fd mask func data).1 := by
  unfold Loop.addFd
  split
  · rename_i room
    have blank := (wired.unused ⟨s.sourceCount, room⟩ (Nat.le_refl _)).1
    have held {src : Source} (kind : src.isTimer = false) : src.isTimer = true →
        ∀ k, src.dispatchSrc = some k → s.gcd.ledger.allocated ≤ k :=
      fun is_timer => absurd (kind.symm.trans is_timer) Bool.false_ne_true
    dsimp only
    split
    · exact calm_grow ⟨s.sourceCount, room⟩ rfl rfl (held blank) rfl rfl (Nat.le_succ _)
        rfl
    · split <;> exact calm_grow ⟨s.sourceCount, room⟩ rfl rfl (held blank) rfl rfl (Nat.le_refl _)
        rfl
  · exact calm_refl s

theorem addTimer_calm (func data : UInt64) : Calm s (s.addTimer func data).1 := by
  unfold Loop.addTimer
  split
  · rename_i room
    refine calm_grow ⟨s.sourceCount, room⟩ rfl rfl ?_ rfl rfl (Nat.le_succ _) rfl
    intro _ k holds
    exact (Option.some.inj holds).le
  · exact calm_refl s

theorem remove_calm (i : Fin maxSources) : Calm s ((s.record (.removed i)).remove i) := by
  unfold Loop.remove
  dsimp only
  split
  · exact calm_edit i rfl rfl (fun _ e => by cases e) rfl rfl rfl ⟨_, rfl, fun _ => rfl⟩
  · exact calm_edit i rfl rfl (fun _ => id) rfl rfl rfl ⟨_, rfl, fun _ => rfl⟩

theorem fire_calm (wired : s.Wired) {k : Nat} {i : Fin maxSources} {func data : UInt64}
    {fd : Int32} (given : s.gcd.handler k = some (.read i func fd data)) :
    Calm s (s.fire (.read i func fd data)) := by
  obtain ⟨used, kind⟩ := wired.read k i func fd data given
  unfold Loop.fire
  dsimp only
  split
  · exact calm_refl s
  · exact calm_ran (.fd i func fd wlEventReadable data) used kind

theorem cancelHandler_calm (b : Block) : Calm s (s.cancelHandler b) := by
  cases b with
  | read i func fd data =>
      exact calm_edit i rfl rfl (fun _ => id) rfl rfl rfl
        ⟨[], (List.append_nil _).symm, fun _ => rfl⟩
  | timer i func data => exact calm_refl s

theorem dispatchOne_calm (wired : s.Wired) {ev : Kevent}
    (known : ∀ i, ev.udata = some i → ∃ fd, (fd, i) ∈ s.kqueue) : Calm s (s.dispatchOne ev) := by
  cases udata : ev.udata with
  | none => simpa only [Loop.dispatchOne, udata] using calm_refl s
  | some i =>
      obtain ⟨fd, registered⟩ := known i udata
      obtain ⟨used, kind⟩ := wired.kqueue fd i registered
      simp only [Loop.dispatchOne, udata]
      generalize (_ ||| _ : UInt32) = mask
      split
      · exact calm_refl s
      · split
        · exact calm_ran (.fd i _ _ _ _) used kind
        · exact calm_refl s

theorem destroy_calm : Calm s { s.destroy with destroyed := true } := by
  have timer (held : List Nat) (g : Gcd) : (held.foldl Gcd.drop g).timer = g.timer := by
    induction held generalizing g with
    | nil => rfl
    | cons k held ih => exact ih (g.drop k)
  exact ⟨⟨[], (List.append_nil _).symm, fun _ _ => rfl⟩, fun _ => Or.inl,
    fun _ _ is_timer holds => Or.inl ⟨is_timer, holds⟩, Nat.le_refl _,
    (Gcd.foldl_drop _ s.gcd).1.ge, timer _ _⟩

end

end Timed
end LunaOS.EventLoop
