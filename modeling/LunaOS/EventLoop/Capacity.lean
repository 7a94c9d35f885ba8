import LunaOS.EventLoop.Loop

/-!
When the event loop refuses a source. The add functions compare `source_count` with
the size of the array, and nothing ever lowers it: `wl_event_source_remove` leaves
the slot of the source taken.
-/
namespace LunaOS.EventLoop

def Happening.adds (i : Fin maxSources) : Happening → Bool
  | .added j _ => j = i
  | _ => false

theorem Happening.adds_iff (i : Fin maxSources) (x : Happening) :
    x.adds i = true ↔ ∃ r, x = .added i r := by
  cases x with
  | added j r =>
      refine decide_eq_true_iff.trans ⟨?_, ?_⟩
      · rintro rfl
        exact ⟨r, rfl⟩
      · rintro ⟨r', same⟩
        exact (Happening.added.inj same).1
  | removed j => exact ⟨nofun, nofun⟩
  | ran c => exact ⟨nofun, nofun⟩

namespace Loop

def add (s : Loop) : Registration → Loop × Option (Fin maxSources)
  | .fd fd mask func data => s.addFd fd mask func data
  | .timer func data => s.addTimer func data

def Event.registration : Event → Option Registration
  | .addFd fd mask func data => some (.fd fd mask func data)
  | .addTimer func data => some (.timer func data)
  | _ => none

def Event.isRemove : Event → Bool
  | .remove _ => true
  | _ => false

def liveSources (s : Loop) : List (Fin maxSources) :=
  (List.finRange maxSources).filter fun i =>
    s.history.any (Happening.adds i) && !s.history.contains (.removed i)

variable {s s' : Loop} {e : Event}

theorem add_room (room : s.sourceCount < maxSources) (r : Registration) :
    (s.add r).2 = some ⟨s.sourceCount, room⟩ ∧
      (s.add r).1.sourceCount = s.sourceCount + 1 ∧
      (s.add r).1.history = s.history ++ [.added ⟨s.sourceCount, room⟩ r] := by
  cases r with
  | fd fd mask func data =>
      change (s.addFd fd mask func data).2 = _ ∧ (s.addFd fd mask func data).1.sourceCount = _ ∧
        (s.addFd fd mask func data).1.history = _
      rw [addFd, dif_pos room]
      dsimp only
      split
      · exact ⟨rfl, rfl, rfl⟩
      · split <;> exact ⟨rfl, rfl, rfl⟩
  | timer func data =>
      change (s.addTimer func data).2 = _ ∧ (s.addTimer func data).1.sourceCount = _ ∧
        (s.addTimer func data).1.history = _
      rw [addTimer, dif_pos room]
      exact ⟨rfl, rfl, rfl⟩

theorem add_full (full : ¬ s.sourceCount < maxSources) (r : Registration) :
    s.add r = (s, none) := by
  cases r <;> simp only [add, addFd, addTimer, dif_neg full]

theorem add_none_iff (r : Registration) : (s.add r).2 = none ↔ ¬ s.sourceCount < maxSources := by
  constructor
  · intro refused room
    rw [(add_room room r).1] at refused
    cases refused
  · intro full
    rw [add_full full]

/-- What an event does to the count and to the history. -/
inductive Outcome (s : Loop) (e : Event) (s' : Loop) : Prop
  | added (r : Registration) (room : s.sourceCount < maxSources) (adds : e.registration = some r)
      (count : s'.sourceCount = s.sourceCount + 1)
      (history : s'.history = s.history ++ [.added ⟨s.sourceCount, room⟩ r])
  | refused (r : Registration) (full : ¬ s.sourceCount < maxSources)
      (adds : e.registration = some r) (same : s' = s)
  | removed (i : Fin maxSources) (used : i.val < s.sourceCount) (removes : e = .remove i)
      (count : s'.sourceCount = s.sourceCount) (history : s'.history = s.history ++ [.removed i])
  | other (adds : e.registration = none) (removes : e.isRemove = false)
      (count : s'.sourceCount = s.sourceCount)
      (history : s'.history = s.history ∨ ∃ c, s'.history = s.history ++ [.ran c])

theorem outcome_add {r : Registration} (adds : e.registration = some r) :
    s.Outcome e (s.add r).1 := by
  by_cases room : s.sourceCount < maxSources
  · obtain ⟨_, count, history⟩ := add_room room r
    exact .added r room adds count history
  · exact .refused r room adds (by rw [add_full room])

theorem remove_spec (i : Fin maxSources) :
    (s.remove i).sourceCount = s.sourceCount ∧ (s.remove i).history = s.history := by
  simp only [remove]
  split <;> exact ⟨rfl, rfl⟩

theorem timerUpdate_spec (i : Fin maxSources) (ms : Int32) (now : UInt64) :
    (s.timerUpdate i ms now).1.sourceCount = s.sourceCount ∧
      (s.timerUpdate i ms now).1.history = s.history := by
  unfold timerUpdate
  split
  · exact ⟨rfl, rfl⟩
  · dsimp only
    split <;> exact ⟨rfl, rfl⟩

theorem outcome_ran (adds : e.registration = none) (removes : e.isRemove = false)
    (ran : s' = s ∨ ∃ c, s' = s.record (.ran c)) : s.Outcome e s' := by
  rcases ran with rfl | ⟨c, rfl⟩
  · exact .other adds removes rfl (Or.inl rfl)
  · exact .other adds removes rfl (Or.inr ⟨c, rfl⟩)

theorem step_outcome (next : s.step e = some s') : s.Outcome e s' := by
  cases (step_spec next).2 with
  | addFd fd mask func data =>
      exact outcome_add (show _ = some (Registration.fd fd mask func data) from rfl)
  | addTimer func data =>
      exact outcome_add (show _ = some (Registration.timer func data) from rfl)
  | timerUpdate i ms now used =>
      obtain ⟨count, history⟩ := timerUpdate_spec i ms now
      exact .other rfl rfl count (Or.inl history)
  | remove i used =>
      obtain ⟨count, history⟩ := (s.record (.removed i)).remove_spec i
      exact .removed i used rfl count history
  | fire k b given => exact outcome_ran rfl rfl (fire_cases s b)
  | cancelHandler k b gone given => cases b <;> exact .other rfl rfl rfl (Or.inl rfl)
  | kevent ev known => exact outcome_ran rfl rfl (dispatchOne_cases s ev)
  | destroy => exact .other rfl rfl rfl (Or.inl rfl)

/-- The slots below the count are those that were given to a source. -/
structure Numbered (s : Loop) : Prop where
  le : s.sourceCount ≤ maxSources
  added_iff : ∀ i, (∃ r, .added i r ∈ s.history) ↔ i.val < s.sourceCount
  removed_lt : ∀ i, .removed i ∈ s.history → i.val < s.sourceCount

theorem numbered_create : create.Numbered where
  le := Nat.zero_le _
  added_iff := by
    intro i
    constructor
    · rintro ⟨r, held⟩
      cases held
    · intro used
      exact absurd used (Nat.not_lt_zero _)
  removed_lt := by
    intro i held
    cases held

theorem Numbered.step (h : s.Numbered) (next : s.step e = some s') : s'.Numbered := by
  cases step_outcome next with
  | added r room adds count history =>
      refine ⟨by omega, ?_, ?_⟩
      · intro i
        simp only [history, List.mem_append, List.mem_singleton, Happening.added.injEq,
          exists_or, h.added_iff i, count, Fin.ext_iff]
        constructor
        · rintro (used | ⟨r', here, _⟩) <;> omega
        · intro used
          by_cases here : i.val = s.sourceCount
          · exact Or.inr ⟨r, here, rfl⟩
          · exact Or.inl (by omega)
      · intro i held
        simp only [history, List.mem_append, List.mem_singleton, reduceCtorEq, or_false] at held
        have used := h.removed_lt i held
        omega
  | refused r full adds same => exact same ▸ h
  | removed i used removes count history =>
      refine ⟨count ▸ h.le, ?_, ?_⟩
      · intro j
        simp only [history, List.mem_append, List.mem_singleton, reduceCtorEq, or_false, count,
          h.added_iff j]
      · intro j held
        simp only [history, List.mem_append, List.mem_singleton, Happening.removed.injEq] at held
        rw [count]
        rcases held with held | rfl
        · exact h.removed_lt j held
        · exact used
  | other adds removes count history =>
      refine ⟨count ▸ h.le, ?_, ?_⟩
      · intro j
        rcases history with history | ⟨c, history⟩ <;>
          simp [history, count, h.added_iff j]
      · intro j held
        refine count ▸ h.removed_lt j ?_
        rcases history with history | ⟨c, history⟩ <;> simpa [history] using held

/-- The count and the removals after a run, from those before it. -/
theorem run_counts {events : List Event} (ran : Runs.run step s events = some s')
    (h : s.Numbered) :
    s'.sourceCount =
        min maxSources (s.sourceCount + events.countP (·.registration.isSome)) ∧
      ((∃ i, .removed i ∈ s'.history) ↔
        (∃ i, .removed i ∈ s.history) ∨ 0 < events.countP (·.isRemove)) := by
  induction events generalizing s with
  | nil =>
      obtain rfl := Option.some.inj ran
      refine ⟨?_, by simp⟩
      have le := h.le
      simp only [List.countP_nil]
      omega
  | cons e events ih =>
      obtain ⟨t, next, rest⟩ := Option.bind_eq_some_iff.mp ran
      obtain ⟨count, removals⟩ := ih rest (h.step next)
      have le := h.le
      rw [count, removals, List.countP_cons, List.countP_cons]
      cases step_outcome next with
      | added r room adds count history =>
          have kind : e.isRemove = false := by cases e <;> first | rfl | cases adds
          refine ⟨by simp only [count, adds, Option.isSome_some, if_true]; omega, ?_⟩
          simp [history, kind]
      | refused r full adds same =>
          have kind : e.isRemove = false := by cases e <;> first | rfl | cases adds
          refine ⟨by simp only [same, adds, Option.isSome_some, if_true]; omega, ?_⟩
          simp [same, kind]
      | removed i used removes count history =>
          subst removes
          refine ⟨by simp [count, Event.registration], ?_⟩
          simp [history, Event.isRemove]
      | other adds removes count history =>
          refine ⟨by simp [count, adds], ?_⟩
          rcases history with history | ⟨c, history⟩ <;> simp [history, removes]

theorem mem_liveSources (i : Fin maxSources) : i ∈ s.liveSources ↔
    (∃ r, .added i r ∈ s.history) ∧ .removed i ∉ s.history := by
  have added : s.history.any (Happening.adds i) = true ↔ ∃ r, .added i r ∈ s.history := by
    simp only [List.any_eq_true, Happening.adds_iff]
    constructor
    · rintro ⟨_, held, r, rfl⟩
      exact ⟨r, held⟩
    · rintro ⟨r, held⟩
      exact ⟨_, held, r, rfl⟩
  simp [liveSources, added]

/-- All slots are live exactly when all were given away and none taken back. -/
theorem Numbered.full_iff (h : s.Numbered) : s.liveSources.length = maxSources ↔
    s.sourceCount = maxSources ∧ ∀ i, .removed i ∉ s.history := by
  have all : s.liveSources.length = (List.finRange maxSources).length ↔
      ∀ i, i ∈ s.liveSources := by
    rw [liveSources, List.length_filter_eq_length_iff]
    simp [List.mem_filter]
  rw [List.length_finRange] at all
  rw [all]
  constructor
  · intro live
    have last := ((mem_liveSources ⟨255, by decide⟩).mp (live _)).1
    have used : 255 < s.sourceCount := (h.added_iff _).mp last
    exact ⟨Nat.le_antisymm h.le used, fun i => ((mem_liveSources i).mp (live i)).2⟩
  · rintro ⟨full, kept⟩ i
    exact (mem_liveSources i).mpr ⟨(h.added_iff i).mpr (by rw [full]; exact i.isLt), kept i⟩

/-- After every run an add refuses exactly when 256 sources are live, if and only if
fewer than 256 adds were made before it or no source was removed before it. -/
theorem refuses_when_full_iff (events : List Event)
    (ran : Runs.run step create events = some s) (r : Registration) :
    ((s.add r).2 = none ↔ s.liveSources.length = maxSources) ↔
      events.countP (·.registration.isSome) < maxSources ∨
        events.countP (·.isRemove) = 0 := by
  have h : s.Numbered := Runs.run_invariant (fun _ _ _ inv next => inv.step next)
    numbered_create ran
  obtain ⟨count, removals⟩ := run_counts ran numbered_create
  have none_removed : (∀ i, .removed i ∉ s.history) ↔ events.countP (·.isRemove) = 0 := by
    rw [← not_exists, removals]
    simp [create]
  rw [add_none_iff, h.full_iff, none_removed, count]
  simp only [create]
  omega

theorem refuses_when_full_two_sources :
    ∃ s, Runs.run step create [.addFd 5 wlEventReadable 1 0, .remove 0, .addTimer 2 0] = some s ∧
      ((s.add (.timer 1 0)).2 = none ↔ s.liveSources.length = maxSources) := by
  have runs : (Runs.run step create
      [.addFd 5 wlEventReadable 1 0, .remove 0, .addTimer 2 0]).isSome = true := by
    decide +kernel
  obtain ⟨s, ran⟩ := Option.isSome_iff_exists.mp runs
  exact ⟨s, ran, (refuses_when_full_iff _ ran _).mpr (Or.inl (by decide))⟩

/-- After 256 adds and one removal an add is refused although a source is gone. -/
theorem refuses_after_removal :
    ∃ s, Runs.run step create
        (((List.range 256).map fun k => .addFd 5 wlEventReadable 1 k.toUInt64) ++
          [.remove 0]) = some s ∧
      (s.add (.fd 5 wlEventReadable 1 0)).2 = none ∧ s.liveSources.length < maxSources := by
  have runs : (Runs.run step create
      (((List.range 256).map fun k => .addFd 5 wlEventReadable 1 k.toUInt64) ++
        [.remove 0])).any (fun s => (s.add (.fd 5 wlEventReadable 1 0)).2.isNone) = true := by
    decide +kernel
  obtain ⟨s, ran, refused⟩ := Option.any_eq_true _ _ |>.mp runs
  have h : s.Numbered := Runs.run_invariant (fun _ _ _ inv next => inv.step next)
    numbered_create ran
  refine ⟨s, ran, Option.isNone_iff_eq_none.mp refused, ?_⟩
  refine Nat.lt_of_le_of_ne ?_ fun full => ?_
  · exact (List.length_filter_le _ _).trans_eq List.length_finRange
  · obtain ⟨i, removed⟩ := (run_counts ran numbered_create).2.mpr (Or.inr (by decide +kernel))
    exact (h.full_iff.mp full).2 i removed

end Loop
end LunaOS.EventLoop
