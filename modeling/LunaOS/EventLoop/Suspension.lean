import LunaOS.EventLoop.Removal

/-!
The suspension count of the dispatch sources. A dispatch source starts suspended once;
a resume undoes one suspension and needs one to undo, and a source must not be suspended
when it is released. A read source is resumed where it is created. A timer is resumed
by every update that sets a time and dropped whether or not it was ever set, so the
rules are kept exactly as long as no timer is set twice and none is dropped unset.
-/
namespace LunaOS.EventLoop

namespace Gcd

def suspension (g : Gcd) (k : Nat) : Int :=
  1 - g.resumed.count k

/-- Every resume was made on a suspended source, and every release on one that is not
suspended. -/
structure Disciplined (g : Gcd) : Prop where
  resumes : ∀ k, 0 ≤ g.suspension k
  releases : ∀ k ∈ g.ledger.released, g.suspension k = 0

variable {g g' : Gcd} {k : Nat}

theorem suspension_eq_one_iff : g.suspension k = 1 ↔ k ∉ g.resumed := by
  rw [suspension, ← List.count_eq_zero]
  omega

theorem Disciplined.suspension_eq_zero_iff (h : g.Disciplined) :
    g.suspension k = 0 ↔ k ∈ g.resumed := by
  have nonneg := h.resumes k
  rw [suspension] at nonneg ⊢
  rw [← List.count_pos_iff]
  omega

theorem Disciplined.congr_iff (resumed : g'.resumed = g.resumed)
    (released : g'.ledger.released = g.ledger.released) :
    g'.Disciplined ↔ g.Disciplined := by
  have same (k : Nat) : g'.suspension k = g.suspension k := by rw [suspension, suspension, resumed]
  constructor
  · intro h
    exact ⟨fun k => same k ▸ h.resumes k, fun k gone => same k ▸ h.releases k (released ▸ gone)⟩
  · intro h
    exact ⟨fun k => same k ▸ h.resumes k, fun k gone => same k ▸ h.releases k (released ▸ gone)⟩

theorem disciplined_create (g : Gcd) (block : Block) :
    (g.create block).Disciplined ↔ g.Disciplined :=
  Disciplined.congr_iff rfl rfl

theorem disciplined_setTimer (g : Gcd) (k : Nat) (t : TimerSetting) :
    (g.setTimer k t).Disciplined ↔ g.Disciplined :=
  Disciplined.congr_iff rfl rfl

theorem suspension_resume (g : Gcd) (k j : Nat) :
    (g.resume k).suspension j = if j = k then g.suspension j - 1 else g.suspension j := by
  simp only [suspension, resume, List.count_cons, beq_iff_eq, eq_comm (a := k)]
  split <;> omega

/-- A source that was not released may be resumed exactly while it is suspended. -/
theorem Disciplined.resume_iff (h : g.Disciplined) (live : k ∉ g.ledger.released) :
    (g.resume k).Disciplined ↔ k ∉ g.resumed := by
  rw [← suspension_eq_one_iff]
  have nonneg := h.resumes k
  constructor
  · intro after
    have still := after.resumes k
    have le : g.suspension k ≤ 1 := by
      rw [suspension]
      omega
    rw [suspension_resume, if_pos rfl] at still
    omega
  · intro suspended
    refine ⟨fun j => ?_, fun j gone => ?_⟩
    · rw [suspension_resume]
      split
      · rename_i same
        rw [same, suspended]
        decide
      · exact h.resumes j
    · have other : j ≠ k := fun same => live (same ▸ gone)
      rw [suspension_resume, if_neg other]
      exact h.releases j gone

/-- Sources may be released exactly when each of them was resumed. -/
theorem Disciplined.foldl_drop_iff (h : g.Disciplined) (held : List Nat) :
    (held.foldl Gcd.drop g).Disciplined ↔ ∀ k ∈ held, k ∈ g.resumed := by
  obtain ⟨_, released, _⟩ := foldl_drop held g
  have same (k : Nat) : (held.foldl Gcd.drop g).suspension k = g.suspension k := by
    rw [suspension, suspension, foldl_drop_resumed]
  constructor
  · intro after k dropped
    have gone : k ∈ (held.foldl Gcd.drop g).ledger.released := by
      rw [released]
      exact List.mem_append_left _ (List.mem_reverse.mpr dropped)
    exact h.suspension_eq_zero_iff.mp (same k ▸ after.releases k gone)
  · intro all
    refine ⟨fun k => same k ▸ h.resumes k, fun k gone => ?_⟩
    rw [released] at gone
    rw [same]
    cases List.mem_append.mp gone with
    | inl dropped => exact h.suspension_eq_zero_iff.mpr (all k (List.mem_reverse.mp dropped))
    | inr before => exact h.releases k before

theorem disciplined_empty : ({} : Gcd).Disciplined where
  resumes := fun _ => Int.one_nonneg
  releases := by intro k gone; cases gone

end Gcd

namespace Loop
variable {s s' : Loop}

structure Suspends (s : Loop) : Prop where
  reached : s.Reached
  resumed : ∀ k ∈ s.gcd.resumed, k < s.gcd.ledger.allocated

/-- A timer is set once, and nothing is dropped that was never resumed. -/
def ResumesOnce (s : Loop) : Event → Prop
  | .timerUpdate i ms _ => 0 < ms → (s.sources i).cancelled = false →
      ∀ k, (s.sources i).dispatchSrc = some k → k ∉ s.gcd.resumed
  | .remove i => ∀ k, (s.sources i).dispatchSrc = some k → k ∈ s.gcd.resumed
  | .destroy => ∀ i k, (s.sources i).dispatchSrc = some k → k ∈ s.gcd.resumed
  | _ => True

theorem suspends_create : create.Suspends where
  reached := .of_held rfl registered_create held_create
  resumed := by intro k held; cases held

/-- A new dispatch source was neither resumed nor released. -/
theorem Suspends.new (h : s.Suspends) (held : s.Held) :
    s.gcd.ledger.allocated ∉ s.gcd.resumed ∧
      s.gcd.ledger.allocated ∉ s.gcd.ledger.released :=
  ⟨fun resumed => Nat.lt_irrefl _ (h.resumed _ resumed),
    fun gone => Nat.lt_irrefl _ (held.balanced.issued _ gone)⟩

theorem addFd_gcd (fd : Int32) (mask : UInt32) (func data : UInt64) :
    (s.addFd fd mask func data).1.gcd = s.gcd ∨ ∃ block, (s.addFd fd mask func data).1.gcd =
      (s.gcd.create block).resume s.gcd.ledger.allocated := by
  unfold addFd
  split
  · dsimp only
    split
    · exact Or.inr ⟨_, rfl⟩
    · split <;> exact Or.inl rfl
  · exact Or.inl rfl

theorem addTimer_gcd (func data : UInt64) :
    (s.addTimer func data).1.gcd = s.gcd ∨
      ∃ block, (s.addTimer func data).1.gcd = s.gcd.create block := by
  unfold addTimer
  split
  · exact Or.inr ⟨_, rfl⟩
  · exact Or.inl rfl

/-- What an update does to the dispatch sources: nothing that counts, or one resume. -/
theorem timerUpdate_gcd (i : Fin maxSources) (ms : Int32) (now : UInt64) :
    ((s.sources i).dispatchSrc = none ∨ ¬ (0 < ms ∧ (s.sources i).cancelled = false)) ∧
        (s.timerUpdate i ms now).1.gcd.resumed = s.gcd.resumed ∧
        (s.timerUpdate i ms now).1.gcd.ledger = s.gcd.ledger ∨
      ∃ k t, (s.sources i).dispatchSrc = some k ∧
        (0 < ms ∧ (s.sources i).cancelled = false) ∧
        (s.timerUpdate i ms now).1.gcd = (s.gcd.setTimer k t).resume k := by
  unfold timerUpdate
  cases src : (s.sources i).dispatchSrc with
  | none => exact Or.inl ⟨Or.inl rfl, rfl, rfl⟩
  | some k =>
      dsimp only
      split
      · rename_i sets
        exact Or.inr ⟨k, _, rfl, sets, rfl⟩
      · rename_i clears
        exact Or.inl ⟨Or.inr clears, rfl, rfl⟩

theorem remove_gcd (i : Fin maxSources) : (s.remove i).gcd =
    (s.sources i).dispatchSrc.toList.foldl Gcd.drop s.gcd := by
  unfold remove
  dsimp only
  cases (s.sources i).dispatchSrc <;> rfl

theorem ran_gcd (ran : s' = s ∨ ∃ c, s' = s.record (.ran c)) : s'.gcd = s.gcd := by
  rcases ran with rfl | ⟨c, rfl⟩ <;> rfl

theorem destroy_gcd : s.destroy.gcd =
    ((List.finRange maxSources).filterMap s.heldSource).foldl Gcd.drop s.gcd := rfl

/-- What an event does to the dispatch sources. -/
inductive Handles (s : Loop) (e : Event) (g : Gcd) : Prop
  | keeps (guard : s.ResumesOnce e) (resumed : g.resumed = s.gcd.resumed)
      (allocated : s.gcd.ledger.allocated ≤ g.ledger.allocated)
      (released : g.ledger.released = s.gcd.ledger.released)
  | starts (block : Block) (guard : s.ResumesOnce e)
      (same : g = (s.gcd.create block).resume s.gcd.ledger.allocated)
  | sets (i : Fin maxSources) (k : Nat) (t : TimerSetting)
      (src : (s.sources i).dispatchSrc = some k)
      (guard : s.ResumesOnce e ↔ k ∉ s.gcd.resumed) (same : g = (s.gcd.setTimer k t).resume k)
  | drops (held : List Nat) (guard : s.ResumesOnce e ↔ ∀ k ∈ held, k ∈ s.gcd.resumed)
      (same : g = held.foldl Gcd.drop s.gcd)

theorem handles_same {e : Event} {g : Gcd} (guard : s.ResumesOnce e) (same : g = s.gcd) :
    s.Handles e g :=
  .keeps guard (by rw [same]) (by rw [same]) (by rw [same])

theorem step_handles {e : Event} (held : s.Held) (next : s.step e = some s') :
    s.Handles e s'.gcd := by
  cases (step_spec next).2 with
  | addFd fd mask func data =>
      rcases addFd_gcd (s := s) fd mask func data with same | ⟨block, same⟩
      · exact handles_same trivial same
      · exact .starts block trivial same
  | addTimer func data =>
      rcases addTimer_gcd (s := s) func data with same | ⟨block, same⟩
      · exact handles_same trivial same
      · rw [same]
        exact .keeps trivial rfl (Nat.le_succ _) rfl
  | timerUpdate i ms now used =>
      rcases timerUpdate_gcd (s := s) i ms now with
        ⟨idle, resumed, ledger⟩ | ⟨k, t, src, sets, same⟩
      · refine .keeps ?_ resumed (by rw [ledger]) (by rw [ledger])
        intro pos alive k src
        cases idle with
        | inl empty => cases empty.symm.trans src
        | inr clears => exact absurd ⟨pos, alive⟩ clears
      · refine .sets i k t src ?_ same
        constructor
        · exact fun guard => guard sets.1 sets.2 k src
        · intro fresh _ _ j src'
          obtain rfl := Option.some.inj (src.symm.trans src')
          exact fresh
  | remove i used =>
      refine .drops (s.sources i).dispatchSrc.toList ?_ (remove_gcd i)
      exact forall_congr' fun k => by rw [Option.mem_toList]
  | fire k b given =>
      exact handles_same trivial (ran_gcd (fire_cases s b))
  | cancelHandler k b gone given =>
      exact handles_same trivial (by cases b <;> rfl)
  | kevent ev known =>
      exact handles_same trivial (ran_gcd (dispatchOne_cases s ev))
  | destroy =>
      refine .drops _ ?_ destroy_gcd
      simp only [held.heldSource, List.mem_filterMap, List.mem_finRange, true_and,
        forall_exists_index]
      exact forall_comm

theorem Suspends.step (h : s.Suspends) {e : Event} (next : s.step e = some s') :
    s'.Suspends := by
  refine ⟨h.reached.step next, ?_⟩
  have held := h.reached.held (step_spec next).1
  cases step_handles held next with
  | keeps guard resumed allocated released =>
      intro k running
      exact Nat.lt_of_lt_of_le (h.resumed k (resumed ▸ running)) allocated
  | starts block guard same =>
      rw [same]
      intro k running
      cases List.mem_cons.mp running with
      | inl new =>
          rw [new]
          exact Nat.lt_succ_self _
      | inr old => exact Nat.lt_succ_of_lt (h.resumed k old)
  | sets i k t src guard same =>
      rw [same]
      intro j running
      cases List.mem_cons.mp running with
      | inl here => exact here ▸ (held.balanced.live i k src).1
      | inr old => exact h.resumed j old
  | drops dropped guard same =>
      rw [same]
      intro k running
      rw [Gcd.foldl_drop_resumed] at running
      rw [(Gcd.foldl_drop dropped s.gcd).1]
      exact h.resumed k running

/-- The exact guard of one event. -/
theorem disciplined_step_iff (h : s.Suspends) (kept : s.gcd.Disciplined) {e : Event}
    (next : s.step e = some s') : s'.gcd.Disciplined ↔ s.ResumesOnce e := by
  have held := h.reached.held (step_spec next).1
  cases step_handles held next with
  | keeps guard resumed allocated released =>
      exact iff_of_true ((Gcd.Disciplined.congr_iff resumed released).mpr kept) guard
  | starts block guard same =>
      obtain ⟨suspended, live⟩ := h.new held
      have created := (Gcd.disciplined_create s.gcd block).mpr kept
      rw [same]
      exact iff_of_true ((created.resume_iff live).mpr suspended) guard
  | sets i k t src guard same =>
      have live : k ∉ s.gcd.ledger.released := (held.balanced.live i k src).2
      have set := (Gcd.disciplined_setTimer s.gcd k t).mpr kept
      rw [same, guard]
      exact set.resume_iff live
  | drops dropped guard same =>
      rw [same, guard]
      exact kept.foldl_drop_iff dropped

/-- Along every sequence of events the suspension counts are respected, exactly when
every timer is set at most once and nothing is dropped before it was resumed. -/
theorem suspension_disciplined_iff (events : List Event) :
    (∀ s, Runs.Visits step create events s → s.gcd.Disciplined) ↔
      ∀ s e, Runs.Takes step create events s e → s.ResumesOnce e :=
  Runs.visits_iff_takes Suspends (fun s => s.gcd.Disciplined) ResumesOnce
    (fun _ _ _ h _ _ next => h.step next)
    (fun _ _ _ h kept next => disciplined_step_iff h kept next)
    suspends_create Gcd.disciplined_empty events

/-- A timer that is set a second time is resumed while it runs. -/
theorem rearm_breaks_discipline :
    ∃ s, Runs.run step create [.addTimer 7 0, .timerUpdate 0 10 0, .timerUpdate 0 10 5] = some s ∧
      s.gcd.suspension 0 = -1 ∧ ¬ s.gcd.Disciplined :=
  ⟨_, rfl, by decide, fun kept => absurd (kept.resumes 0) (by decide)⟩

/-- A timer that was never set is released while it is suspended. -/
example :
    ∃ s, Runs.run step create [.addTimer 7 0, .remove 0] = some s ∧
      0 ∈ s.gcd.ledger.released ∧ s.gcd.suspension 0 = 1 ∧ ¬ s.gcd.Disciplined :=
  ⟨_, rfl, by decide, by decide, fun kept => absurd (kept.releases 0 (by decide)) (by decide)⟩

end Loop
end LunaOS.EventLoop
