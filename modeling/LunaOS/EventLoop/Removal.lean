import LunaOS.EventLoop.Custody

/-!
What a run of the event loop guarantees of its callbacks and of its dispatch
sources. A slot is given to one source for good, so a block or a stale write event
that names the slot still means the source that was removed, and finds its flag
set. Whatever `wl_event_source_remove` has not dropped, `wl_event_loop_destroy`
drops.
-/
namespace LunaOS.EventLoop
open Histories

def Callback.Receives : Callback → Registration → Prop
  | .fd _ func desc _ data, .fd desc' _ func' data' =>
      func = func' ∧ desc = desc' ∧ data = data'
  | .timer _ func data, .timer func' data' => func = func' ∧ data = data'
  | _, _ => False

/-- A slot is given to one source only. A callback runs for a source that was added
before, with what it was added with, and not removed since. -/
def Lawful (before : List Happening) : Happening → Prop
  | .added i _ => ∀ r, .added i r ∉ before
  | .removed _ => True
  | .ran c => .removed c.source ∉ before ∧
      ∃ r, .added c.source r ∈ before ∧ c.Receives r

def Block.Captures : Block → Fin maxSources → Registration → Prop
  | .read j func fd data, i, r => j = i ∧ ∃ mask, r = .fd fd mask func data
  | .timer j func data, i, r => j = i ∧ r = .timer func data

def Source.Holds (src : Source) (r : Registration) : Prop :=
  ∃ mask, r = .fd src.fd mask src.fdFunc src.data

theorem Gcd.handler_create {g : Gcd} {block b : Block} {k : Nat}
    (given : (g.create block).handler k = some b) : g.handler k = some b ∨ b = block := by
  change Function.update g.handler g.ledger.allocated (some block) k = some b at given
  by_cases new : k = g.ledger.allocated
  · rw [new, Function.update_self] at given
    exact Or.inr (Option.some.inj given).symm
  · rw [Function.update_of_ne new] at given
    exact Or.inl given

namespace Loop

structure Registered (s : Loop) : Prop where
  added_lt : ∀ i r, .added i r ∈ s.history → i.val < s.sourceCount
  removed_lt : ∀ i, .removed i ∈ s.history → i.val < s.sourceCount
  removed_cancelled : ∀ i, .removed i ∈ s.history → (s.sources i).cancelled = true
  handler : ∀ k b, s.gcd.handler k = some b → ∃ i r, .added i r ∈ s.history ∧ b.Captures i r
  kqueue : ∀ fd i, (fd, i) ∈ s.kqueue →
    ∃ r, .added i r ∈ s.history ∧ (s.sources i).Holds r
  lawful : Always Lawful s.history

variable {s s' : Loop}

theorem registered_create : create.Registered where
  added_lt := by intro i r held; cases held
  removed_lt := by intro i held; cases held
  removed_cancelled := by intro i held; cases held
  handler := by intro k b held; cases held
  kqueue := by intro fd i held; cases held
  lawful := always_nil

/-! A source is added. -/

/-- A slot that is not yet in use is given to a source. -/
theorem Registered.grow (h : s.Registered) (i : Fin maxSources) {src : Source}
    {r : Registration} (new : i.val = s.sourceCount)
    (sources : s'.sources = Function.update s.sources i src)
    (count : s'.sourceCount = s.sourceCount + 1)
    (history : s'.history = s.history ++ [.added i r])
    (handler : ∀ k b, s'.gcd.handler k = some b → s.gcd.handler k = some b ∨ b.Captures i r)
    (kqueue : ∀ fd j, (fd, j) ∈ s'.kqueue → (fd, j) ∈ s.kqueue ∨ j = i ∧ src.Holds r) :
    s'.Registered := by
  have mem (x : Happening) : x ∈ s'.history ↔ x ∈ s.history ∨ x = .added i r := by
    rw [history, List.mem_append, List.mem_singleton]
  have other {j : Fin maxSources} (used : j.val < s.sourceCount) :
      s'.sources j = s.sources j := source_of_used new sources used
  refine ⟨?_, ?_, ?_, ?_, ?_, ?_⟩
  · intro j r' held
    rw [count]
    cases (mem _).mp held with
    | inl old => exact Nat.lt_succ_of_lt (h.added_lt j r' old)
    | inr here =>
        obtain ⟨rfl, _⟩ := Happening.added.inj here
        omega
  · intro j held
    rw [count]
    cases (mem _).mp held with
    | inl old => exact Nat.lt_succ_of_lt (h.removed_lt j old)
    | inr here => cases here
  · intro j held
    cases (mem _).mp held with
    | inl old =>
        rw [other (h.removed_lt j old)]
        exact h.removed_cancelled j old
    | inr here => cases here
  · intro k b given
    cases handler k b given with
    | inl old =>
        obtain ⟨j, r', held, captures⟩ := h.handler k b old
        exact ⟨j, r', (mem _).mpr (Or.inl held), captures⟩
    | inr captures => exact ⟨i, r, (mem _).mpr (Or.inr rfl), captures⟩
  · intro fd j registered
    rcases kqueue fd j registered with old | ⟨rfl, holds⟩
    · obtain ⟨r', held, holds⟩ := h.kqueue fd j old
      refine ⟨r', (mem _).mpr (Or.inl held), ?_⟩
      rw [other (h.added_lt j r' held)]
      exact holds
    · refine ⟨r, (mem _).mpr (Or.inr rfl), ?_⟩
      rw [sources, Function.update_self]
      exact holds
  · rw [history, always_concat]
    refine ⟨h.lawful, fun r' held => ?_⟩
    have used := h.added_lt i r' held
    omega

theorem Registered.addFd (h : s.Registered) (fd : Int32) (mask : UInt32) (func data : UInt64) :
    (s.addFd fd mask func data).1.Registered := by
  unfold Loop.addFd
  split
  · rename_i room
    dsimp only
    split
    · refine h.grow ⟨s.sourceCount, room⟩ rfl rfl rfl rfl ?_ fun _ _ => Or.inl
      intro k b given
      refine (Gcd.handler_create given).imp_right ?_
      rintro rfl
      exact ⟨rfl, mask, rfl⟩
    · split
      · refine h.grow ⟨s.sourceCount, room⟩ rfl rfl rfl rfl (fun _ _ => Or.inl) ?_
        intro fd' j registered
        cases List.mem_cons.mp registered with
        | inl here =>
            obtain ⟨_, rfl⟩ := Prod.mk.inj here
            exact Or.inr ⟨rfl, mask, rfl⟩
        | inr old => exact Or.inl old
      · exact h.grow ⟨s.sourceCount, room⟩ rfl rfl rfl rfl (fun _ _ => Or.inl)
          fun _ _ => Or.inl
  · exact h

theorem Registered.addTimer (h : s.Registered) (func data : UInt64) :
    (s.addTimer func data).1.Registered := by
  unfold Loop.addTimer
  split
  · rename_i room
    refine h.grow ⟨s.sourceCount, room⟩ rfl rfl rfl rfl ?_ fun _ _ => Or.inl
    intro k b given
    refine (Gcd.handler_create given).imp_right ?_
    rintro rfl
    exact ⟨rfl, rfl⟩
  · exact h

/-! The other steps. -/

theorem Registered.setSource (h : s.Registered) (i : Fin maxSources) {src : Source}
    (fields : ∀ r, (s.sources i).Holds r → src.Holds r)
    (flag : (s.sources i).cancelled = true → src.cancelled = true) :
    (s.setSource i src).Registered where
  added_lt := h.added_lt
  removed_lt := h.removed_lt
  removed_cancelled := by
    intro j held
    change (Function.update s.sources i src j).cancelled = true
    by_cases e : j = i
    · subst e
      rw [Function.update_self]
      exact flag (h.removed_cancelled j held)
    · rw [Function.update_of_ne e]
      exact h.removed_cancelled j held
  handler := h.handler
  kqueue := by
    intro fd j registered
    obtain ⟨r, held, holds⟩ := h.kqueue fd j registered
    refine ⟨r, held, ?_⟩
    change (Function.update s.sources i src j).Holds r
    by_cases e : j = i
    · subst e
      rw [Function.update_self]
      exact fields r holds
    · rw [Function.update_of_ne e]
      exact holds
  lawful := h.lawful

/-- Anything but an add may be recorded where it obeys the law. -/
theorem Registered.record (h : s.Registered) {x : Happening} (adds : ∀ i r, x ≠ .added i r)
    (removes : ∀ i, x = .removed i → i.val < s.sourceCount ∧ (s.sources i).cancelled = true)
    (lawful : Lawful s.history x) : (s.record x).Registered where
  added_lt := by
    intro j r held
    cases List.mem_append.mp held with
    | inl old => exact h.added_lt j r old
    | inr here => exact absurd (List.mem_singleton.mp here).symm (adds j r)
  removed_lt := by
    intro j held
    cases List.mem_append.mp held with
    | inl old => exact h.removed_lt j old
    | inr here => exact (removes j (List.mem_singleton.mp here).symm).1
  removed_cancelled := by
    intro j held
    cases List.mem_append.mp held with
    | inl old => exact h.removed_cancelled j old
    | inr here => exact (removes j (List.mem_singleton.mp here).symm).2
  handler := by
    intro k b given
    obtain ⟨i, r, held, captures⟩ := h.handler k b given
    exact ⟨i, r, List.mem_append_left _ held, captures⟩
  kqueue := by
    intro fd i registered
    obtain ⟨r, held, holds⟩ := h.kqueue fd i registered
    exact ⟨r, List.mem_append_left _ held, holds⟩
  lawful := (always_concat s.history x).mpr ⟨h.lawful, lawful⟩

/-- A source whose flag is not set may run its callback. -/
theorem Registered.ran (h : s.Registered) (c : Callback) {r : Registration}
    (alive : ¬ (s.sources c.source).cancelled = true) (added : .added c.source r ∈ s.history)
    (receives : c.Receives r) : (s.record (.ran c)).Registered := by
  refine h.record nofun nofun ⟨?_, r, added, receives⟩
  intro removed
  exact alive (h.removed_cancelled _ removed)

theorem Registered.ran_unless (h : s.Registered) (c : Callback) {r : Registration}
    (added : .added c.source r ∈ s.history) (receives : c.Receives r) :
    (if (s.sources c.source).cancelled = true then s else s.record (.ran c)).Registered := by
  split
  · exact h
  · rename_i alive
    exact h.ran c alive added receives

theorem Registered.remove (h : s.Registered) {i : Fin maxSources} (used : i.val < s.sourceCount) :
    ((s.record (.removed i)).remove i).Registered := by
  have flagged (src : Source) (fields : ∀ r, (s.sources i).Holds r → src.Holds r)
      (flag : src.cancelled = true) : ((s.setSource i src).record (.removed i)).Registered := by
    refine (h.setSource i fields fun _ => flag).record nofun ?_ trivial
    rintro j same
    obtain rfl := Happening.removed.inj same
    refine ⟨used, ?_⟩
    change (Function.update s.sources i src i).cancelled = true
    rw [Function.update_self]
    exact flag
  unfold Loop.remove
  dsimp only
  split
  · rename_i k _
    exact { flagged { s.sources i with cancelled := true, dispatchSrc := none }
      (fun _ holds => holds) rfl with }
  · exact flagged { s.sources i with cancelled := true } (fun _ holds => holds) rfl

theorem Registered.timerUpdate (h : s.Registered) (i : Fin maxSources) (ms : Int32)
    (now : UInt64) : (s.timerUpdate i ms now).1.Registered := by
  unfold Loop.timerUpdate
  split
  · exact h
  · dsimp only
    split <;> exact { h with }

theorem Registered.fire (h : s.Registered) {k : Nat} {b : Block}
    (given : s.gcd.handler k = some b) : (s.fire b).Registered := by
  obtain ⟨i, r, added, captures⟩ := h.handler k b given
  cases b with
  | read j func fd data =>
      obtain ⟨rfl, mask, rfl⟩ := captures
      exact h.ran_unless (.fd j func fd wlEventReadable data) added ⟨rfl, rfl, rfl⟩
  | timer j func data =>
      obtain ⟨rfl, rfl⟩ := captures
      exact h.ran_unless (.timer j func data) added ⟨rfl, rfl⟩

theorem Registered.cancelHandler (h : s.Registered) (b : Block) :
    (s.cancelHandler b).Registered := by
  cases b with
  | read i func fd data => exact h.setSource i (fun _ holds => holds) fun _ => rfl
  | timer i func data => exact h

theorem Registered.dispatchOne (h : s.Registered) {ev : Kevent}
    (stale : ∀ i, ev.udata = some i → ∃ fd, (fd, i) ∈ s.kqueue) :
    (s.dispatchOne ev).Registered := by
  cases udata : ev.udata with
  | none => simpa only [Loop.dispatchOne, udata] using h
  | some i =>
      obtain ⟨fd, registered⟩ := stale i udata
      obtain ⟨r, added, mask, rfl⟩ := h.kqueue fd i registered
      simp only [Loop.dispatchOne, udata]
      by_cases removed : (s.sources i).cancelled = true
      · rw [if_pos removed]
        exact h
      · rw [if_neg removed]
        generalize (_ ||| _ : UInt32) = mask'
        split
        · exact h.ran (.fd i _ _ _ _) removed added ⟨rfl, rfl, rfl⟩
        · exact h

theorem Registered.destroy (h : s.Registered) : s.destroy.Registered := by
  refine { h with handler := ?_ }
  intro k b given
  rw [Loop.destroy, Gcd.foldl_drop_handler] at given
  exact h.handler k b given

/-! Runs. -/

/-- What holds between the events of a run. Once the loop is destroyed its dispatch
sources are gone, and no event follows. -/
structure Reached (s : Loop) : Prop where
  registered : s.Registered
  held : s.destroyed = false → s.Held
  closed : s.destroyed = true → s.Closed

theorem Reached.of_held (destroyed : s.destroyed = false) (registered : s.Registered)
    (held : s.Held) : s.Reached where
  registered := registered
  held := fun _ => held
  closed := by rw [destroyed]; exact nofun

theorem addFd_destroyed (fd : Int32) (mask : UInt32) (func data : UInt64) :
    (s.addFd fd mask func data).1.destroyed = s.destroyed := by
  unfold Loop.addFd
  split
  · dsimp only
    split
    · rfl
    · split <;> rfl
  · rfl

theorem addTimer_destroyed (func data : UInt64) :
    (s.addTimer func data).1.destroyed = s.destroyed := by
  unfold Loop.addTimer
  split <;> rfl

theorem timerUpdate_destroyed (i : Fin maxSources) (ms : Int32) (now : UInt64) :
    (s.timerUpdate i ms now).1.destroyed = s.destroyed := by
  unfold Loop.timerUpdate
  split
  · rfl
  · dsimp only
    split <;> rfl

theorem remove_destroyed (i : Fin maxSources) : (s.remove i).destroyed = s.destroyed := by
  unfold Loop.remove
  dsimp only
  split <;> rfl

theorem fire_destroyed (b : Block) : (s.fire b).destroyed = s.destroyed := by
  rcases fire_cases s b with same | ⟨c, ran⟩
  · rw [same]
  · rw [ran, Loop.record]

theorem cancelHandler_destroyed (b : Block) :
    (s.cancelHandler b).destroyed = s.destroyed := by
  cases b <;> rfl

theorem dispatchOne_destroyed (ev : Kevent) : (s.dispatchOne ev).destroyed = s.destroyed := by
  rcases dispatchOne_cases s ev with same | ⟨c, ran⟩
  · rw [same]
  · rw [ran, Loop.record]

theorem Reached.step (h : s.Reached) {e : Event} (next : s.step e = some s') : s'.Reached := by
  obtain ⟨alive, taken⟩ := step_spec next
  have registered := h.registered
  have held := h.held alive
  cases taken with
  | addFd fd mask func data =>
      exact .of_held ((addFd_destroyed fd mask func data).trans alive)
        (registered.addFd fd mask func data) (held.addFd fd mask func data)
  | addTimer func data =>
      exact .of_held ((addTimer_destroyed func data).trans alive)
        (registered.addTimer func data) (held.addTimer func data)
  | timerUpdate i ms now used =>
      exact .of_held ((timerUpdate_destroyed i ms now).trans alive)
        (registered.timerUpdate i ms now) (held.timerUpdate i ms now)
  | remove i used =>
      exact .of_held ((remove_destroyed i).trans alive) (registered.remove used)
        ((held.record _).remove i)
  | fire k b given =>
      exact .of_held ((fire_destroyed b).trans alive) (registered.fire given) (held.fire b)
  | cancelHandler k b gone given =>
      exact .of_held ((cancelHandler_destroyed b).trans alive) (registered.cancelHandler b)
        (held.cancelHandler b)
  | kevent ev known =>
      exact .of_held ((dispatchOne_destroyed ev).trans alive) (registered.dispatchOne known)
        (held.dispatchOne ev)
  | destroy => exact ⟨{ registered.destroy with }, nofun, fun _ => held.destroy⟩

/-- In every run, with stale events at any time, a callback only runs for a source
that was not removed, with what the source was added with, and after
`wl_event_loop_destroy` every dispatch source was cancelled, and released once. -/
theorem removal_final_release_once (events : List Event)
    (h : Runs.run step create events = some s) :
    Always Lawful s.history ∧ (s.destroyed = true → s.Closed) := by
  have reached : s.Reached := Runs.run_invariant (fun _ _ _ inv next => inv.step next)
    (.of_held rfl registered_create held_create) h
  exact ⟨reached.registered.lawful, reached.closed⟩

theorem removal_final_release_once_stale_write :
    ∃ s, Runs.run step create
        [.addFd 5 wlEventWritable 7 9, .addTimer 8 4, .addFd 6 wlEventReadable 7 1,
          .kevent ⟨some 0, true, false, false⟩, .remove 0, .kevent ⟨some 0, true, true, false⟩,
          .fire 0, .remove 1, .fire 0, .remove 1, .destroy] = some s ∧
      Always Lawful s.history ∧ (s.destroyed = true → s.Closed) := by
  refine Exists.imp (fun _ ran => ⟨ran, removal_final_release_once _ ran⟩) ?_
  exact ⟨_, rfl⟩

end Loop
end LunaOS.EventLoop
