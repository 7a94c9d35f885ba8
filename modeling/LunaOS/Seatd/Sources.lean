import LunaOS.Seatd.Invariant

/-!
Read sources under the concurrent queue. Between the two steps of a source that
has seen its client leave, `accept_client` may hand the slot to another client;
the second step then reads that client's descriptor and leaves the source alive.
No other order of steps does harm: no source outlives its client exactly when
every such second step finds the slot free.
-/
namespace LunaOS.Seatd

namespace Server

/-- No source outlives its client. Two sources of one slot are both alive only
while one of them is between its two steps for a disconnection. -/
structure NoneOutlives (s : Server) : Prop where
  finished : ∀ k src, s.SourceAt k src → src.left = true → src.running = false →
    src.cancelled = true
  occupies : ∀ k src, s.SourceAt k src → src.cancelled = false → src.running = false →
    s.Occupies src
  alone : ∀ k k' src src', s.SourceAt k src → s.SourceAt k' src' → src.slot = src'.slot →
    src.cancelled = false → src'.cancelled = false → k = k' ∨
      (src.running = true ∧ src.left = true) ∨ (src'.running = true ∧ src'.left = true)

/-- The second step of a source that has seen its client leave finds the slot free. -/
def LeaverFindsFree (s : Server) : Event → Prop
  | .test k => ∀ src, s.SourceAt k src → src.left = true → (s.clients src.slot).fd < 0
  | _ => True

variable {s s' : Server}

theorem noneOutlives_iff_settled (h : s.Exact) : s.NoneOutlives ↔ s.Settled := by
  constructor
  · intro none k src found alive
    cases running : src.running with
    | false => exact Or.inr (none.occupies k src found alive running)
    | true =>
        cases left : src.left with
        | true => exact Or.inl ⟨rfl, rfl⟩
        | false => exact Or.inr (h.sourced.busy k src found running left)
  · intro settled
    refine ⟨?_, ?_, ?_⟩
    · intro k src found left idle
      cases alive : src.cancelled with
      | true => rfl
      | false =>
          have occupies := settled.occupies found alive idle
          exact absurd occupies.2 (h.sourced.gone k src _ found left)
    · intro k src found alive idle
      exact settled.occupies found alive idle
    · intro k k' src src' found found' slot alive alive'
      cases settled k src found alive with
      | inl leaving => exact Or.inr (Or.inl leaving)
      | inr occupies =>
          cases settled k' src' found' alive' with
          | inl leaving => exact Or.inr (Or.inr leaving)
          | inr occupies' =>
              exact Or.inl (h.sourced.eq_of_occupies found found' slot occupies occupies')

/-! `Settled` across one step. -/

theorem Settled.enroll (settled : s.Settled) (h : s.Exact) {i : Fin maxClients} {cfd : Int}
    (pid : Int) (free : (s.clients i).fd < 0) (good : 0 ≤ cfd)
    (unused : s.descriptors cfd = none) : (s.enroll i cfd pid).Settled := by
  intro k src found alive
  cases (sourceAt_enroll ..).mp found with
  | inl old =>
      refine (settled k src old alive).imp_right ?_
      intro occupies
      exact occupies.enroll h.seating pid free unused
  | inr new =>
      refine Or.inr ?_
      rw [new.2]
      unfold Occupies
      rw [fd_enroll, if_pos rfl, descriptors_enroll, if_pos rfl]
      exact ⟨good, rfl⟩

theorem Settled.serve (settled : s.Settled) {k : Nat} {src : Source} {cl : Client}
    (found : s.SourceAt k src) (occupies : s.Occupies src)
    (same : cl.fd = (s.clients src.slot).fd) : (s.serve k src cl).Settled := by
  have kept {src' : Source} (there : s.Occupies src') :
      (s.serve k src cl).Occupies src' := by
    have kept_fd : ((s.serve k src cl).clients src'.slot).fd = (s.clients src'.slot).fd :=
      Slots.read_update_of_eq Client.fd same src'.slot
    unfold Occupies
    rw [kept_fd]
    exact there
  intro k' src' found' alive
  rcases (sourceAt_set found { src with running := true } k' src').mp found' with
    ⟨_, rfl⟩ | ⟨_, old⟩
  · exact Or.inr (kept occupies)
  · exact (settled k' src' old alive).imp_right kept

theorem Settled.leave (settled : s.Settled) (h : s.Exact) {k : Nat} {src : Source}
    (found : s.SourceAt k src) (occupies : s.Occupies src) : (s.leave k src).Settled := by
  intro k' src' found' alive
  rcases (sourceAt_set found { src with running := true, left := true } k' src').mp found' with
    ⟨_, rfl⟩ | ⟨other, old⟩
  · exact Or.inl ⟨rfl, rfl⟩
  · refine (settled k' src' old alive).imp_right ?_
    intro there
    refine there.vacate h.seating ?_
    intro slot
    exact other (h.sourced.eq_of_occupies old found slot there occupies)

theorem settled_test_iff (settled : s.Settled) (h : s.Exact) {k : Nat} {src : Source}
    (found : s.SourceAt k src) (running : src.running = true) :
    (s.test k src).Settled ↔ s.LeaverFindsFree (.test k) := by
  have alive := h.sourced.alive k src found running
  constructor
  · intro after src' found' left
    obtain rfl := Option.some.inj (found.symm.trans found')
    by_contra taken
    have tested := after k _ ((sourceAt_set found _ k _).mpr (Or.inl ⟨rfl, rfl⟩))
    cases tested (by simp [alive, taken]) with
    | inl leaving => cases leaving.1
    | inr occupies => exact h.sourced.gone k src _ found left occupies.2
  · intro guard k' src' found' uncancelled
    rcases (sourceAt_set found _ k' src').mp found' with ⟨_, rfl⟩ | ⟨_, old⟩
    · have taken : ¬ (s.clients src.slot).fd < 0 := by
        simpa [alive] using uncancelled
      have stayed : src.left = false := by
        rw [← Bool.not_eq_true]
        exact fun left => taken (guard src found left)
      exact Or.inr (h.sourced.busy k src found running stayed)
    · exact settled k' src' old uncancelled

theorem settled_change_iff (settled : s.Settled) (h : s.Exact) {e : Event}
    (change : Change s e s') : s'.Settled ↔ s.LeaverFindsFree e := by
  cases change with
  | failed bad => exact iff_of_true settled trivial
  | refused full => exact iff_of_true settled trivial
  | @admitted cfd pid i free good unused =>
      have open_slot := (seat_eq_none_iff (s.clients i)).mp free.1
      exact iff_of_true (settled.enroll h pid open_slot good unused) trivial
  | served src cl found alive idle same_fd same_active =>
      have occupies := settled.occupies found alive idle
      exact iff_of_true (settled.serve found occupies same_fd) trivial
  | left src found alive idle =>
      have occupies := settled.occupies found alive idle
      exact iff_of_true (settled.leave h found occupies) trivial
  | tested src found running => exact settled_test_iff settled h found running

/-! Runs. -/

/-- In every interleaving, no source outlives its client in any state exactly when
every test after a disconnection finds the slot still free. -/
theorem none_outlives_iff_leavers_find_free (events : List Event) :
    (∀ s, Runs.Visits step start events s → s.NoneOutlives) ↔
      ∀ s e, Runs.Takes step start events s e → s.LeaverFindsFree e := by
  refine Runs.visits_iff_takes Exact NoneOutlives LeaverFindsFree ?_ ?_ exact_start ?_ events
  · intro s e s' h none _ taken
    exact h.change ((noneOutlives_iff_settled h).mp none) (step_change taken)
  · intro s e s' h none taken
    have settled := (noneOutlives_iff_settled h).mp none
    have change := step_change taken
    rw [noneOutlives_iff_settled (h.change settled change)]
    exact settled_change_iff settled h change
  · exact (noneOutlives_iff_settled exact_start).mpr settled_start

/-- A client leaves, another is admitted to its slot and descriptor number before
the first one's source has tested the slot: that source stays alive. -/
theorem source_outlives_client :
    ∃ s, Runs.Visits step start
      [.accept 5 100, .handle 0 (fun _ => 0) (some []) (.error 0), .accept 5 200, .test 0] s ∧
      ¬ s.NoneOutlives := by
  let events : List Event :=
    [.accept 5 100, .handle 0 (fun _ => 0) (some []) (.error 0), .accept 5 200, .test 0]
  let stale (s : Server) : Bool :=
    s.sources[0]?.any fun src => src.left && !src.running && !src.cancelled
  have ends : (Runs.run step start events).any stale = true := by
    decide +kernel
  obtain ⟨s, reached, bad⟩ := Option.any_eq_true _ _ |>.mp ends
  obtain ⟨src, found, bad⟩ := Option.any_eq_true _ _ |>.mp bad
  simp only [Bool.and_eq_true, Bool.not_eq_true'] at bad
  refine ⟨s, Runs.visits_of_run reached, ?_⟩
  intro none
  have cancelled := none.finished 0 src found bad.1.1 bad.1.2
  rw [bad.2] at cancelled
  cases cancelled

end Server
end LunaOS.Seatd
