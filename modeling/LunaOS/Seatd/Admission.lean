import LunaOS.Seatd.Sources

/-!
The client table when handlers run one at a time: a source's block is then one
event, its test right after its handler. A test after a disconnection finds the
slot as the handler has left it, so the runs are among those that keep every
source with its client, and the table is an exact picture of the clients that
were admitted and have not left.
-/
namespace LunaOS.Seatd
open Slots

namespace Server

inductive SerialEvent where
  | accept (cfd pid : Int)
  | serve (k : Nat) (stack : Fin msgSize → UInt8) (r : Option (List UInt8))
      (opened : Except Int Nat)

def serialStep (s : Server) : SerialEvent → Option Server
  | .accept cfd pid => s.step (.accept cfd pid)
  | .serve k stack r opened =>
      (s.step (.handle k stack r opened)).bind fun s' => s'.step (.test k)

/-- What `accept_client` does with a new descriptor. -/
structure Admits (s : Server) (cfd pid : Int) (out : Server × List Effect) : Prop where
  closed_iff : out.2 = [.close cfd] ↔ ∀ i, 0 ≤ (s.clients i).fd
  refused : (∀ i, 0 ≤ (s.clients i).fd) → out.1.clients = s.clients
  served : (∃ i, (s.clients i).fd < 0) → out.2 = [] ∧ ∃ i, (s.clients i).fd < 0 ∧
    (∀ j, j < i → 0 ≤ (s.clients j).fd) ∧ (out.1.clients i).fd = cfd ∧
    (out.1.clients i).pid = pid ∧ (out.1.clients i).active = true ∧
    (out.1.clients i).heldCount = 0 ∧ ∀ j, j ≠ i → out.1.clients j = s.clients j

structure TableExact (s : Server) : Prop where
  active_iff : ∀ i, (s.clients i).active = true ↔ 0 ≤ (s.clients i).fd
  distinct : ∀ i j, 0 ≤ (s.clients i).fd → (s.clients i).fd = (s.clients j).fd → i = j
  roster : ∀ c, c ∈ s.admitted ∧ c ∉ s.departed ↔
    ∃! i, 0 ≤ (s.clients i).fd ∧ s.descriptors (s.clients i).fd = some c
  one_source : ∀ i c, 0 ≤ (s.clients i).fd → s.descriptors (s.clients i).fd = some c →
    ∃ k src, s.SourceAt k src ∧ src.cancelled = false ∧ src.conn = c ∧ src.slot = i ∧
      src.fd = (s.clients i).fd ∧ ∀ k' src', s.SourceAt k' src' → src'.cancelled = false →
        src'.conn = c ∨ src'.slot = i → k' = k
  occupied : ∀ i, 0 ≤ (s.clients i).fd → ∃ c, s.descriptors (s.clients i).fd = some c
  accepts : ∀ cfd pid, 0 ≤ cfd → s.descriptors cfd = none →
    s.Admits cfd pid (s.acceptClient cfd pid)

variable {s s' : Server}

/-! `accept_client`. -/

theorem full_seats_iff : Full s.seats ↔ ∀ i, 0 ≤ (s.clients i).fd := by
  refine forall_congr' fun i => ?_
  change ¬ (s.clients i).seat = none ↔ _
  rw [seat_eq_none_iff, Int.not_lt]

theorem acceptClient_admits {cfd : Int} (good : 0 ≤ cfd) (pid : Int)
    (unused : s.descriptors cfd = none) : s.Admits cfd pid (s.acceptClient cfd pid) := by
  cases scan : s.freeSlot with
  | none =>
      have full := freeSlot_eq_none_iff.mp scan
      have all := full_seats_iff.mp full
      rw [acceptClient_refused good pid unused full]
      refine ⟨iff_of_true rfl all, fun _ => rfl, ?_⟩
      intro ⟨i, free⟩
      exact absurd (all i) (Int.not_le.mpr free)
  | some i =>
      have free := (freeSlot_eq_some_iff i).mp scan
      have here := (seat_eq_none_iff (s.clients i)).mp free.1
      have some_free : ¬ ∀ i, 0 ≤ (s.clients i).fd := fun all =>
        absurd (all i) (Int.not_le.mpr here)
      rw [acceptClient_admitted good pid free]
      refine ⟨iff_of_false nofun some_free, fun all => absurd all some_free, ?_⟩
      intro _
      refine ⟨rfl, i, here, ?_, ?_⟩
      · intro j below
        by_contra idle
        have lower := free.2 ((seat_eq_none_iff (s.clients j)).mpr (Int.not_le.mp idle))
        exact absurd lower (not_le.mpr below)
      · simp only [enroll, Function.update_self, true_and]
        intro j other
        exact Function.update_of_ne other ..

/-! Serial runs. -/

def Quiet (s : Server) : Prop :=
  ∀ k src, s.SourceAt k src → src.running = false

structure Serial (s : Server) : Prop where
  invariant : s.Exact
  settled : s.Settled
  quiet : s.Quiet

theorem serial_start : start.Serial where
  invariant := exact_start
  settled := settled_start
  quiet := by intro k src found; cases found

/-- After its own handler, a source that has seen its client leave finds the slot
free. -/
theorem handle_leaverFindsFree (h : s.Serial) {k : Nat} {stack : Fin msgSize → UInt8}
    {r : Option (List UInt8)} {opened : Except Int Nat}
    (change : Change s (.handle k stack r opened) s') : s'.LeaverFindsFree (.test k) := by
  intro src' found' left
  cases change with
  | served src cl found alive idle same_fd same_active =>
      have occupies := h.settled.occupies found alive idle
      rcases (sourceAt_set found { src with running := true } k src').mp found' with
        ⟨_, rfl⟩ | ⟨other, _⟩
      · exact absurd occupies.2 (h.invariant.sourced.gone k src _ found left)
      · exact absurd rfl other
  | left src found alive idle =>
      rcases (sourceAt_set found { src with running := true, left := true } k src').mp found' with
        ⟨_, rfl⟩ | ⟨other, _⟩
      · change ((s.vacate src.slot).clients src.slot).fd < 0
        rw [fd_vacate, if_pos rfl]
        decide
      · exact absurd rfl other

/-- One handler runs at most the block it belongs to. -/
theorem handle_running (h : s.Quiet) {k : Nat} {stack : Fin msgSize → UInt8}
    {r : Option (List UInt8)} {opened : Except Int Nat}
    (change : Change s (.handle k stack r opened) s') {k' : Nat} {src' : Source}
    (found' : s'.SourceAt k' src') (other : k' ≠ k) : src'.running = false := by
  cases change with
  | served src cl found alive idle same_fd same_active =>
      rcases (sourceAt_set found { src with running := true } k' src').mp found' with
        ⟨same, _⟩ | ⟨_, old⟩
      · exact absurd same other
      · exact h k' src' old
  | left src found alive idle =>
      rcases (sourceAt_set found { src with running := true, left := true } k' src').mp found'
        with ⟨same, _⟩ | ⟨_, old⟩
      · exact absurd same other
      · exact h k' src' old

theorem serial_step (h : s.Serial) {e : SerialEvent} (taken : s.serialStep e = some s') :
    s'.Serial := by
  cases e with
  | accept cfd pid =>
      have accepted : s.step (.accept cfd pid) = some s' := taken
      have change := step_change accepted
      refine ⟨h.invariant.change h.settled change,
        (settled_change_iff h.settled h.invariant change).mpr trivial, ?_⟩
      cases change with
      | failed bad => exact h.quiet
      | refused full => exact h.quiet
      | admitted i free good unused =>
          intro k src found
          cases (sourceAt_enroll ..).mp found with
          | inl old => exact h.quiet k src old
          | inr new => rw [new.2]
  | serve k stack r opened =>
      obtain ⟨mid, handled, tested⟩ := Option.bind_eq_some_iff.mp taken
      have first := step_change handled
      have exact_mid := h.invariant.change h.settled first
      have settled_mid := (settled_change_iff h.settled h.invariant first).mpr trivial
      have second := step_change tested
      refine ⟨exact_mid.change settled_mid second,
        (settled_change_iff settled_mid exact_mid second).mpr (handle_leaverFindsFree h first), ?_⟩
      cases second with
      | tested src found busy =>
          intro k' src' found'
          rcases (sourceAt_set found _ k' src').mp found' with ⟨_, rfl⟩ | ⟨other, old⟩
          · rfl
          · exact handle_running h.quiet first old other

theorem Serial.tableExact (h : s.Serial) : s.TableExact where
  active_iff := h.invariant.seating.active
  distinct := h.invariant.seating.distinct
  occupied := h.invariant.seating.opened
  roster := by
    intro c
    rw [h.invariant.seating.roster c]
    constructor
    · intro ⟨fd, held⟩
      obtain ⟨k, src, _, _, _, _, seat⟩ := h.invariant.sourced.source fd c held
      refine ⟨src.slot, ⟨seat ▸ h.invariant.seating.nonneg fd c held, seat ▸ held⟩, ?_⟩
      intro j ⟨seated, there⟩
      exact h.invariant.seating.distinct j src.slot seated
        ((h.invariant.seating.conn_inj _ fd c there held).trans seat.symm)
    · intro ⟨i, ⟨_, held⟩, _⟩
      exact ⟨(s.clients i).fd, held⟩
  one_source := by
    intro i c seated held
    obtain ⟨k, src, found, conn, alive, monitored, seat⟩ := h.invariant.sourced.source _ c held
    have slot : src.slot = i :=
      (h.invariant.seating.distinct i src.slot seated seat.symm).symm
    refine ⟨k, src, found, alive, conn, slot, monitored, ?_⟩
    intro k' src' found' alive' same
    have occupies := h.settled.occupies found' alive' (h.quiet k' src' found')
    refine h.invariant.sourced.source_inj k' k src' src found' found ?_
    rw [conn]
    cases same with
    | inl same_conn => exact same_conn
    | inr same_slot =>
        have there := occupies.2
        rw [same_slot, held] at there
        exact (Option.some.inj there).symm
  accepts := by
    intro cfd pid good unused
    exact acceptClient_admits good pid unused

/-- In every state that handlers running one at a time reach, the table is exact. -/
theorem tableExact_of_serial_run {events : List SerialEvent}
    (reached : Runs.run serialStep start events = some s) : s.TableExact :=
  (Runs.run_invariant (fun _ _ _ h taken => serial_step h taken) serial_start reached).tableExact

/-- Two clients, the first leaves, a third takes its slot. -/
theorem tableExact_of_recycled_slot :
    ∃ s, Runs.run serialStep start [.accept 5 100, .accept 6 101,
      .serve 0 (fun _ => 0) (some []) (.error 0), .accept 5 102] = some s ∧ s.TableExact := by
  have runs : (Runs.run serialStep start [.accept 5 100, .accept 6 101,
      .serve 0 (fun _ => 0) (some []) (.error 0), .accept 5 102]).isSome = true := by
    decide +kernel
  obtain ⟨s, reached⟩ := Option.isSome_iff_exists.mp runs
  exact ⟨s, reached, tableExact_of_serial_run reached⟩

end Server
end LunaOS.Seatd
