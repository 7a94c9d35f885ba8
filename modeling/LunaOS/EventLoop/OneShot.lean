import LunaOS.EventLoop.Timers
import Mathlib.Data.Int.GCD

/-!
When the one-shot contract is kept. `wl_event_source_timer_update` hands GCD the interval
as well as the start, and never suspends a source. The firings that GCD counts since a
setting are the runs of the callback since the update that made it, so the contract is kept
exactly as long as every update comes before a second firing of the one before, and before
the first after an update with 0.
-/
namespace LunaOS.EventLoop
open Timers Monitors

namespace Timed
variable {s s' : Timed} {o : Updates}

/-- Between steps, a timer that holds its dispatch source has run as often as it fired. -/
structure Counted (s : Timed) (o : Updates) : Prop where
  wired : s.loop.Wired
  marks : ∀ i, o.mark i ≤ s.loop.history.length
  runs : ∀ i k, (s.loop.sources i).isTimer = true → (s.loop.sources i).dispatchSrc = some k →
    s.runsSince o i = s.fired k
  unused : ∀ i, s.loop.sourceCount ≤ i.val → s.runsSince o i = 0
  fresh : ∀ k, s.loop.gcd.ledger.allocated ≤ k → s.fired k = 0 ∧ s.loop.gcd.timer k = none
  stopped : ∀ i k t, (s.loop.sources i).isTimer = true →
    (s.loop.sources i).dispatchSrc = some k → s.loop.gcd.timer k = some t → t.interval = 0 →
      o.stopped i = true

theorem counted_create : Counted {} {} where
  wired := Loop.wired_create
  marks := fun _ => Nat.le_refl _
  runs := by intro i k timer; cases timer
  unused := fun _ _ => rfl
  fresh := fun _ _ => ⟨rfl, rfl⟩
  stopped := by intro i k t timer; cases timer

theorem runsSince_append {i : Fin maxSources} {out : List Happening}
    (mark : o.mark i ≤ s.loop.history.length)
    (history : s'.loop.history = s.loop.history ++ out) :
    s'.runsSince o i = s.runsSince o i + out.countP (Happening.runs i) := by
  rw [runsSince, runsSince, history, List.drop_append_of_le_length mark, List.countP_append]

/-- An event that sets no timer runs no timer. -/
theorem Counted.calm (h : Counted s o) {l : Loop} (wired : l.Wired) (calm : Calm s.loop l) :
    Counted { s with loop := l } o ∧ (OneShot s o → OneShot { s with loop := l } o) := by
  obtain ⟨out, history, quiet⟩ := calm.history
  have same (i : Fin maxSources)
      (known : (s.loop.sources i).isTimer = true ∨ s.loop.sourceCount ≤ i.val) :
      runsSince { s with loop := l } o i = s.runsSince o i := by
    rw [runsSince_append (s := s) (h.marks i) history, quiet i known, Nat.add_zero]
  refine ⟨⟨wired, ?_, ?_, ?_, ?_, ?_⟩, ?_⟩
  · intro i
    have mark := h.marks i
    simp only [history, List.length_append]
    omega
  · intro i k timer holds
    rcases calm.links i k timer holds with ⟨timer, holds⟩ | ⟨free, new⟩
    · rw [same i (Or.inl timer)]
      exact h.runs i k timer holds
    · rw [same i (Or.inr free), h.unused i free]
      exact (h.fresh k new).1.symm
  · intro i free
    have free := Nat.le_trans calm.count free
    rw [same i (Or.inr free)]
    exact h.unused i free
  · intro k new
    obtain ⟨fired, timer⟩ := h.fresh k (Nat.le_trans calm.allocated new)
    exact ⟨fired, by rw [calm.timer, timer]⟩
  · intro i k t timer holds set zero
    change l.gcd.timer k = some t at set
    rw [calm.timer] at set
    rcases calm.links i k timer holds with ⟨timer, holds⟩ | ⟨_, new⟩
    · exact h.stopped i k t timer holds set zero
    · exact absurd ((h.fresh k new).2.symm.trans set) nofun
  · intro shot i timer
    cases calm.kind i timer with
    | inl old =>
        rw [same i (Or.inl old)]
        exact shot i old
    | inr free =>
        rw [same i (Or.inr free), h.unused i free]
        exact ⟨Nat.zero_le _, fun _ => rfl⟩

/-- Only an update with 0 sets no interval. -/
theorem eq_zero_of_interval {ms : Int32} (zero : ms.toInt64.toUInt64 * 1000000 = 0) : ms = 0 := by
  have small : (ms.toInt * 1000000).natAbs < (2 ^ 64 : Int).natAbs := by
    have lo := ms.le_toInt
    have hi := ms.toInt_lt
    omega
  have product := congrArg (fun x => x.toBitVec.toInt) zero
  simp only [UInt64.toBitVec_mul, BitVec.toInt_mul, Int64.toBitVec_toUInt64,
    Int64.toInt_toBitVec, Int32.toInt_toInt64] at product
  have none := Int.eq_zero_of_dvd_of_natAbs_lt_natAbs (Int.dvd_of_bmod_eq_zero product) small
  exact Int32.toInt_inj.mp ((Int.mul_eq_zero.mp none).resolve_right (by decide))

/-- What an update leaves, and the setting it makes. -/
theorem timerUpdate_settings (l : Loop) (i : Fin maxSources) (ms : Int32) (now : UInt64) :
    (l.timerUpdate i ms now).1.sources = l.sources ∧
      (l.timerUpdate i ms now).1.sourceCount = l.sourceCount ∧
      (l.timerUpdate i ms now).1.history = l.history ∧
      (l.timerUpdate i ms now).1.gcd.handler = l.gcd.handler ∧
      (l.timerUpdate i ms now).1.gcd.ledger = l.gcd.ledger ∧
      ∀ k, (l.timerUpdate i ms now).1.gcd.timer k = l.gcd.timer k ∧
          (l.sources i).dispatchSrc ≠ some k ∨
        (l.sources i).dispatchSrc = some k ∧
          ∃ t, (l.timerUpdate i ms now).1.gcd.timer k = some t ∧
            t.interval = ms.toInt64.toUInt64 * 1000000 := by
  unfold Loop.timerUpdate
  cases holds : (l.sources i).dispatchSrc with
  | none => exact ⟨rfl, rfl, rfl, rfl, rfl, fun k => Or.inl ⟨rfl, nofun⟩⟩
  | some j =>
      have timer (t : TimerSetting) (k : Nat) :
          Function.update l.gcd.timer j (some t) k = l.gcd.timer k ∧ some j ≠ some k ∨
            some j = some k ∧ Function.update l.gcd.timer j (some t) k = some t := by
        by_cases e : k = j
        · exact Or.inr ⟨congrArg some e.symm, e ▸ Function.update_self ..⟩
        · exact Or.inl ⟨Function.update_of_ne e .., fun same => e (Option.some.inj same).symm⟩
      dsimp only
      split <;> exact ⟨rfl, rfl, rfl, rfl, rfl, fun k => (timer _ k).imp_right
        fun ⟨same, set⟩ => ⟨same, _, set, rfl⟩⟩

theorem firedAfter_update (s : Timed) (i : Fin maxSources) (ms : Int32) (now : UInt64) (k : Nat) :
    s.firedAfter (.timerUpdate i ms now) k =
      if (s.loop.sources i).dispatchSrc = some k then 0 else s.fired k := by
  simp only [firedAfter]
  cases (s.loop.sources i).dispatchSrc with
  | none => rw [if_neg fun e => by cases e]
  | some j =>
      dsimp only
      by_cases e : k = j
      · rw [e, Function.update_self, if_pos rfl]
      · rw [Function.update_of_ne e, if_neg fun same => e (Option.some.inj same).symm]

/-- An update starts the runs of its source again, and leaves those of the others. -/
theorem runsSince_update (i : Fin maxSources) (ms : Int32) (now : UInt64)
    (history : s'.loop.history = s.loop.history) (j : Fin maxSources) :
    s'.runsSince (o.note s (.event (.timerUpdate i ms now))) j =
      if j = i then 0 else s.runsSince o j := by
  change (s'.loop.history.drop (Function.update o.mark i s.loop.history.length j)).countP _ = _
  rw [history]
  by_cases e : j = i
  · rw [if_pos e, e, Function.update_self, List.drop_length]
    rfl
  · rw [if_neg e, Function.update_of_ne e]
    rfl

theorem OneShot.update (shot : OneShot s o) (i : Fin maxSources) (ms : Int32) (now : UInt64)
    (sources : s'.loop.sources = s.loop.sources)
    (history : s'.loop.history = s.loop.history) :
    OneShot s' (o.note s (.event (.timerUpdate i ms now))) := by
  intro j is_timer
  rw [sources] at is_timer
  rw [runsSince_update i ms now history]
  by_cases e : j = i
  · rw [if_pos e]
    exact ⟨Nat.zero_le _, fun _ => rfl⟩
  · rw [if_neg e]
    refine ⟨(shot j is_timer).1, fun stopped => (shot j is_timer).2 ?_⟩
    change Function.update o.stopped i _ j = true at stopped
    rwa [Function.update_of_ne e] at stopped

/-- An update starts the counts of its timer again. -/
theorem Counted.update (h : Counted s o) {i : Fin maxSources} (used : i.val < s.loop.sourceCount)
    (ms : Int32) (now : UInt64) :
    Counted { s with
        loop := (s.loop.timerUpdate i ms now).1
        fired := s.firedAfter (.timerUpdate i ms now) }
      (o.note s (.event (.timerUpdate i ms now))) := by
  obtain ⟨sources, count, history, handler, ledger, timer⟩ :=
    timerUpdate_settings s.loop i ms now
  have wired := h.wired.timerUpdate i ms now
  generalize (s.loop.timerUpdate i ms now).1 = l at *
  let s' : Timed := { s with loop := l, fired := s.firedAfter (.timerUpdate i ms now) }
  have runs : ∀ j, s'.runsSince (o.note s (.event (.timerUpdate i ms now))) j =
      if j = i then 0 else s.runsSince o j :=
    runsSince_update i ms now history
  have fired (k : Nat) := firedAfter_update s i ms now k
  refine ⟨wired, ?_, ?_, ?_, ?_, ?_⟩
  · intro j
    change Function.update o.mark i s.loop.history.length j ≤ l.history.length
    rw [history]
    by_cases e : j = i
    · rw [e, Function.update_self]
    · rw [Function.update_of_ne e]
      exact h.marks j
  · intro j k is_timer holds
    change (l.sources j).isTimer = true at is_timer
    change (l.sources j).dispatchSrc = some k at holds
    rw [sources] at is_timer holds
    refine (runs j).trans (.trans ?_ (fired k).symm)
    by_cases e : j = i
    · rw [if_pos e, if_pos (e ▸ holds)]
    · rw [if_neg e, if_neg fun holds' => e (h.wired.unique holds holds')]
      exact h.runs j k is_timer holds
  · intro j free
    change l.sourceCount ≤ j.val at free
    rw [count] at free
    have e : j ≠ i := by
      rintro rfl
      omega
    exact (runs j).trans (by rw [if_neg e, h.unused j free])
  · intro k new
    change l.gcd.ledger.allocated ≤ k at new
    rw [ledger] at new
    obtain ⟨never, unset⟩ := h.fresh k new
    have other : (s.loop.sources i).dispatchSrc ≠ some k := by
      intro holds
      obtain ⟨b, given, _⟩ := h.wired.own i k holds
      exact absurd (h.wired.issued k b given) (by omega)
    refine ⟨(fired k).trans (by rw [if_neg other, never]), ?_⟩
    rcases timer k with ⟨kept, _⟩ | ⟨holds, _⟩
    · exact kept.trans unset
    · exact absurd holds other
  · intro j k t is_timer holds set zero
    change (l.sources j).isTimer = true at is_timer
    change (l.sources j).dispatchSrc = some k at holds
    rw [sources] at is_timer holds
    change Function.update o.stopped i _ j = true
    rcases timer k with ⟨kept, other⟩ | ⟨holds', t', set', interval⟩
    · have e : j ≠ i := fun e => other (e ▸ holds)
      rw [Function.update_of_ne e]
      exact h.stopped j k t is_timer holds (kept.symm.trans set) zero
    · obtain rfl := h.wired.unique holds holds'
      obtain rfl := Option.some.inj (set'.symm.trans set)
      rw [Function.update_self, if_pos (eq_zero_of_interval (interval.symm.trans zero))]

/-! A stretch of time. -/

theorem runningTimer_eq_some_iff {g : Gcd} {k : Nat} {b : Block} {t : TimerSetting} :
    g.runningTimer k = some (b, t) ↔
      (∃ i func data, b = .timer i func data) ∧ g.handler k = some b ∧ g.timer k = some t ∧
        k ∈ g.resumed ∧ k ∉ g.cancelled := by
  unfold Gcd.runningTimer
  constructor
  · intro running
    split at running
    · rename_i i func data given
      obtain ⟨resumed, running⟩ := Option.ite_none_right_eq_some.mp running
      obtain ⟨t', set, same⟩ := Option.map_eq_some_iff.mp running
      obtain ⟨rfl, rfl⟩ := Prod.mk.inj same
      exact ⟨⟨i, func, data, rfl⟩, given, set, resumed⟩
    · cases running
  · rintro ⟨⟨i, func, data, rfl⟩, given, set, resumed⟩
    rw [given]
    dsimp only
    rw [if_pos resumed, set]
    rfl

theorem iterate_fire {l : Loop} {i : Fin maxSources} (alive : (l.sources i).cancelled = false)
    (func data : UInt64) (n : Nat) : (fun l => Loop.fire l (.timer i func data))^[n] l =
      { l with history := l.history ++ List.replicate n (.ran (.timer i func data)) } := by
  induction n with
  | zero => simp only [Function.iterate_zero, id_eq, List.replicate_zero, List.append_nil]
  | succ n ih =>
      rw [Function.iterate_succ_apply', ih, List.replicate_succ', ← List.append_assoc]
      simp only [Loop.fire, alive, Bool.false_eq_true, if_false]
      rfl

def firedBy (horizon : Nat → Nat) (g : Gcd) (fired : Nat → Nat) (k : Nat) : Nat :=
  match g.runningTimer k with
  | some (_, t) => max (fired k) (due t.start.toNat t.interval.toNat (horizon k))
  | none => fired k

/-- What has fired once does not fire again. -/
theorem firedBy_again {horizon : Nat → Nat} {g : Gcd} {fired fired' : Nat → Nat} {k : Nat}
    (known : fired' k = fired k ∨ fired' k = firedBy horizon g fired k) :
    firedBy horizon g fired' k = firedBy horizon g fired k := by
  unfold firedBy at known ⊢
  cases running : g.runningTimer k with
  | none =>
      rw [running] at known
      exact known.elim id id
  | some bt =>
      rw [running] at known
      rcases known with same | done
      · rw [same]
      · rw [done]
        exact max_eq_left (le_max_right _ _)

/-- `s'` is `s` after timers have fired. -/
structure Fires (s s' : Timed) (o : Updates) : Prop where
  loop : ∃ out, s'.loop = { s.loop with history := s.loop.history ++ out }
  counted : Counted s' o
  idle : ∀ i, (s.loop.sources i).dispatchSrc = none → s'.runsSince o i = s.runsSince o i

theorem countP_replicate_ran (i j : Fin maxSources) (func data : UInt64) (n : Nat) :
    (List.replicate n (Happening.ran (.timer i func data))).countP (Happening.runs j) =
      if i = j then n else 0 := by
  rw [List.countP_replicate]
  exact if_congr decide_eq_true_iff rfl rfl

theorem fireDue_spec (h : Counted s o) (horizon : Nat → Nat) (k : Nat) :
    Fires s (fireDue horizon s k) o ∧ ∀ j, (fireDue horizon s k).fired j =
      if j = k then firedBy horizon s.loop.gcd s.fired k else s.fired j := by
  unfold fireDue firedBy
  cases running : s.loop.gcd.runningTimer k with
  | none =>
      refine ⟨⟨⟨[], by simp only [List.append_nil]⟩, h, fun _ _ => rfl⟩, fun j => ?_⟩
      dsimp only
      split
      · rename_i same
        rw [same]
      · rfl
  | some bt =>
      obtain ⟨b, t⟩ := bt
      obtain ⟨⟨i, func, data, rfl⟩, given, set, _, live⟩ := runningTimer_eq_some_iff.mp running
      obtain ⟨is_timer, held⟩ := h.wired.timer k i func data given
      obtain ⟨holds, alive⟩ := held live
      dsimp only
      rw [iterate_fire alive]
      generalize due t.start.toNat t.interval.toNat (horizon k) = n
      let s' : Timed := { s with
        loop := { s.loop with history :=
          s.loop.history ++ List.replicate (n - s.fired k) (.ran (.timer i func data)) }
        fired := Function.update s.fired k (max (s.fired k) n) }
      have runs (j : Fin maxSources) : s'.runsSince o j =
          s.runsSince o j + if i = j then n - s.fired k else 0 := by
        rw [runsSince_append (s := s) (h.marks j) rfl, countP_replicate_ran]
      refine ⟨⟨⟨_, rfl⟩, ⟨?_, ?_, ?_, ?_, ?_, h.stopped⟩, ?_⟩, ?_⟩
      · exact h.wired.keep rfl rfl rfl rfl rfl fun _ => id
      · intro j
        have mark := h.marks j
        simp only [List.length_append]
        omega
      · intro j m timer' holds'
        change s'.runsSince o j = Function.update s.fired k (max (s.fired k) n) m
        rw [runs, h.runs j m timer' holds']
        by_cases e : i = j
        · subst e
          obtain rfl := Option.some.inj (holds.symm.trans holds')
          rw [if_pos rfl, Function.update_self]
          omega
        · have other : m ≠ k := fun same => e (h.wired.unique holds (same ▸ holds'))
          rw [if_neg e, Function.update_of_ne other, Nat.add_zero]
      · intro j free
        have e : i ≠ j := by
          rintro rfl
          exact Bool.false_ne_true ((h.wired.unused i free).1.symm.trans is_timer)
        exact (runs j).trans (by rw [if_neg e, Nat.add_zero, h.unused j free])
      · intro m new
        have other : m ≠ k := by
          rintro rfl
          exact absurd (h.wired.issued m _ given) (Nat.not_lt.mpr new)
        obtain ⟨never, unset⟩ := h.fresh m new
        exact ⟨(Function.update_of_ne other ..).trans never, unset⟩
      · intro j empty
        have e : i ≠ j := by
          rintro rfl
          exact absurd (empty.symm.trans holds) nofun
        exact (runs j).trans (by rw [if_neg e, Nat.add_zero])
      · intro j
        by_cases e : j = k
        · rw [if_pos e, e, Function.update_self]
        · rw [if_neg e, Function.update_of_ne e]

theorem Fires.trans {s'' : Timed} (h : Fires s s' o) (h' : Fires s' s'' o) : Fires s s'' o := by
  obtain ⟨out, loop⟩ := h.loop
  obtain ⟨out', loop'⟩ := h'.loop
  refine ⟨⟨out ++ out', ?_⟩, h'.counted, fun i empty => ?_⟩
  · rw [loop', loop, List.append_assoc]
  · have still : (s'.loop.sources i).dispatchSrc = none := by rw [loop]; exact empty
    rw [h'.idle i still, h.idle i empty]

/-- All sources fire, one after the other, what is due. -/
theorem foldl_fireDue (h : Counted s o) (horizon : Nat → Nat) (ks : List Nat) :
    Fires s (ks.foldl (fireDue horizon) s) o ∧ ∀ j, (ks.foldl (fireDue horizon) s).fired j =
      if j ∈ ks then firedBy horizon s.loop.gcd s.fired j else s.fired j := by
  induction ks generalizing s with
  | nil => exact ⟨⟨⟨[], by simp⟩, h, fun _ _ => rfl⟩, fun _ => (if_neg List.not_mem_nil).symm⟩
  | cons k ks ih =>
      obtain ⟨first, fired⟩ := fireDue_spec h horizon k
      obtain ⟨rest, fired'⟩ := ih first.counted
      obtain ⟨out, loop⟩ := first.loop
      refine ⟨first.trans rest, fun j => ?_⟩
      rw [List.foldl_cons, fired' j]
      have again : firedBy horizon (fireDue horizon s k).loop.gcd (fireDue horizon s k).fired j =
          firedBy horizon s.loop.gcd s.fired j := by
        rw [loop]
        refine firedBy_again ?_
        rw [fired j]
        by_cases e : j = k
        · rw [if_pos e, e]
          exact Or.inr rfl
        · rw [if_neg e]
          exact Or.inl rfl
      rw [again, fired j]
      by_cases e : j = k
      · simp only [e, if_true, ite_self, List.mem_cons, true_or]
      · simp only [e, if_false, List.mem_cons, false_or]

/-- The firings that a stretch of time may add. -/
theorem due_spared_iff {start interval horizon : Nat} {stopped : Bool}
    (zero : interval = 0 → stopped = true) :
    (due start interval horizon ≤ 1 ∧ (stopped = true → due start interval horizon = 0)) ↔
      horizon ≤ start + interval ∧ (stopped = true → horizon ≤ start) := by
  rw [due_eq_zero_iff]
  rcases Nat.eq_zero_or_pos interval with none | pos
  · have stop := zero none
    constructor
    · rintro ⟨_, early⟩
      exact ⟨Nat.le_add_right_of_le (early stop), early⟩
    · rintro ⟨_, early⟩
      exact ⟨(due_eq_zero_iff.mpr (early stop)).le.trans (Nat.zero_le 1), early⟩
  · rw [due_le_one_iff pos]

/-- The exact guard of a stretch of time. -/
theorem Counted.elapse (h : Counted s o) (shot : OneShot s o) (ns : Nat) (ends : Nat → Bool)
    (fires : Fires s s' o)
    (fired : ∀ j, s'.fired j = firedBy (s.horizon ns ends) s.loop.gcd s.fired j) :
    OneShot s' o ↔ Spares s o (.elapse ns ends) := by
  obtain ⟨out, loop⟩ := fires.loop
  have sources : s'.loop.sources = s.loop.sources := by rw [loop]
  have runs (i : Fin maxSources) (k : Nat) (timer : (s.loop.sources i).isTimer = true)
      (holds : (s.loop.sources i).dispatchSrc = some k) :
      s.runsSince o i = s.fired k ∧
        s'.runsSince o i = firedBy (s.horizon ns ends) s.loop.gcd s.fired k := by
    refine ⟨h.runs i k timer holds, ?_⟩
    rw [← fired]
    exact fires.counted.runs i k (sources ▸ timer) (sources ▸ holds)
  have decides (i : Fin maxSources) (k : Nat) (t : TimerSetting) (func data : UInt64)
      (running : s.loop.gcd.runningTimer k = some (.timer i func data, t)) :
      (s.loop.sources i).isTimer = true ∧ (s.loop.sources i).dispatchSrc = some k ∧
        (s'.runsSince o i ≤ 1 ∧ (o.stopped i = true → s'.runsSince o i = 0) ↔
          s.horizon ns ends k ≤ t.start.toNat + t.interval.toNat ∧
            (o.stopped i = true → s.horizon ns ends k ≤ t.start.toNat)) := by
    obtain ⟨_, given, set, _, live⟩ := runningTimer_eq_some_iff.mp running
    obtain ⟨timer, held⟩ := h.wired.timer k i func data given
    have holds := (held live).1
    refine ⟨timer, holds, ?_⟩
    obtain ⟨before, after⟩ := runs i k timer holds
    have now := shot i timer
    rw [before] at now
    have zero : t.interval.toNat = 0 → o.stopped i = true :=
      fun zero => h.stopped i k t timer holds set (UInt64.toNat_inj.mp zero)
    rw [after, firedBy, running, ← due_spared_iff zero]
    dsimp only
    generalize due t.start.toNat t.interval.toNat (s.horizon ns ends k) = n
    constructor
    · rintro ⟨le, stop⟩
      refine ⟨(le_max_right _ _).trans le, fun stopped => ?_⟩
      exact Nat.eq_zero_of_le_zero ((le_max_right _ _).trans (stop stopped).le)
    · rintro ⟨le, stop⟩
      refine ⟨max_le now.1 le, fun stopped => ?_⟩
      rw [now.2 stopped, stop stopped, max_self]
  constructor
  · intro after k i func data t running
    obtain ⟨timer, _, iff⟩ := decides i k t func data running
    exact iff.mp (after i (sources ▸ timer))
  · intro spares i timer
    rw [sources] at timer
    cases holds : (s.loop.sources i).dispatchSrc with
    | none =>
        rw [fires.idle i holds]
        exact shot i timer
    | some k =>
        cases running : s.loop.gcd.runningTimer k with
        | none =>
            obtain ⟨before, after⟩ := runs i k timer holds
            rw [after, firedBy, running, ← before]
            exact shot i timer
        | some bt =>
            obtain ⟨b, t⟩ := bt
            obtain ⟨⟨j, func, data, rfl⟩, _⟩ := runningTimer_eq_some_iff.mp running
            obtain ⟨_, holds', iff⟩ := decides j k t func data running
            obtain rfl := h.wired.unique holds holds'
            exact iff.mpr (spares k i func data t running)

/-! Runs. -/

/-- Every event that may come at this time but an update leaves the timers alone. -/
theorem step_calm (wired : s.loop.Wired) {e : Loop.Event} {l : Loop} (allowed : s.allows e = true)
    (sets : ∀ i ms now, e ≠ .timerUpdate i ms now) (next : s.loop.step e = some l) :
    Calm s.loop l := by
  cases (Loop.step_spec next).2 with
  | addFd fd mask func data => exact addFd_calm wired fd mask func data
  | addTimer func data => exact addTimer_calm func data
  | timerUpdate i ms now used => exact absurd rfl (sets i ms now)
  | remove i used => exact remove_calm i
  | fire k b given =>
      cases b with
      | read i func fd data => exact fire_calm wired given
      | timer i func data => simp [allows, given] at allowed
  | cancelHandler k b gone given => exact cancelHandler_calm b
  | kevent ev known => exact dispatchOne_calm wired known
  | destroy => exact destroy_calm

theorem event_counted (h : Counted s o) {e : Loop.Event} (next : s.step (.event e) = some s') :
    Counted s' (o.note s (.event e)) ∧ (OneShot s o → OneShot s' (o.note s (.event e))) := by
  obtain ⟨allowed, next⟩ := Option.ite_none_right_eq_some.mp next
  obtain ⟨l, went, rfl⟩ := Option.map_eq_some_iff.mp next
  have wired := h.wired.step went
  cases e with
  | timerUpdate i ms now =>
      have updates := (Option.ite_none_left_eq_some.mp went).2
      obtain ⟨used, updated⟩ := Option.ite_none_right_eq_some.mp updates
      obtain rfl := Option.some.inj updated
      obtain ⟨sources, _, history, _⟩ := timerUpdate_settings s.loop i ms now
      exact ⟨h.update used ms now, fun shot => shot.update i ms now sources history⟩
  | _ => exact h.calm wired (step_calm h.wired allowed nofun went)

theorem elapse_fires (h : Counted s o) {ns : Nat} {ends : Nat → Bool}
    (next : s.step (.elapse ns ends) = some s') :
    Fires s s' o ∧ ∀ j, s'.fired j = firedBy (s.horizon ns ends) s.loop.gcd s.fired j := by
  obtain rfl := Option.some.inj (Option.ite_none_right_eq_some.mp next).2
  obtain ⟨fires, fired⟩ :=
    foldl_fireDue h (s.horizon ns ends) (List.range s.loop.gcd.ledger.allocated)
  refine ⟨⟨fires.loop, { fires.counted with }, fires.idle⟩, fun j => (fired j).trans ?_⟩
  split
  · rfl
  · rename_i new
    rw [firedBy]
    cases running : s.loop.gcd.runningTimer j with
    | none => rfl
    | some bt =>
        obtain ⟨_, given, _⟩ := runningTimer_eq_some_iff.mp running
        exact absurd (List.mem_range.mpr (h.wired.issued j _ given)) new

theorem counted_step (h : Counted s o) {a : Action} (next : s.step a = some s') :
    Counted s' (o.note s a) := by
  cases a with
  | event e => exact (event_counted h next).1
  | elapse ns ends => exact (elapse_fires h next).1.counted

theorem oneShot_step_iff (h : Counted s o) (shot : OneShot s o) {a : Action}
    (next : s.step a = some s') : OneShot s' (o.note s a) ↔ Spares s o a := by
  cases a with
  | event e => exact iff_of_true ((event_counted h next).2 shot) trivial
  | elapse ns ends =>
      obtain ⟨fires, fired⟩ := elapse_fires h next
      exact h.elapse shot ns ends fires fired

/-- Along every sequence of events and stretches of time the callback of every timer runs
at most once between two updates, and not after an update with 0 before one with a time,
exactly when no stretch reaches a second firing of a timer, or the first of a stopped one. -/
theorem one_shot_iff (acts : List Action) :
    (∀ s o, Runs.Visits (watch step Updates.note) ({}, {}) acts (s, o) → OneShot s o) ↔
      ∀ s o a, Runs.Takes (watch step Updates.note) ({}, {}) acts (s, o) a → Spares s o a :=
  Monitors.visits_iff_takes Counted OneShot Spares
    (fun _ _ a _ h _ _ next => counted_step (a := a) h next)
    (fun _ _ a _ h shot next => oneShot_step_iff (a := a) h shot next)
    counted_create (fun _ timer => absurd timer Bool.false_ne_true) acts

/-- One update with 10 ms, and 20 ms later the callback has run twice. -/
theorem timer_repeats :
    ∃ s o, Runs.run (watch step Updates.note) ({}, {})
        [.event (.addTimer 7 0), .event (.timerUpdate 0 10 0),
          .elapse 20000000 fun _ => true] = some (s, o) ∧
      (s.loop.sources 0).isTimer = true ∧ s.runsSince o 0 = 2 :=
  ⟨_, _, rfl, by decide, by decide⟩

/-- An update with 0 does not stop the timer: its callback runs at once. -/
example :
    ∃ s o, Runs.run (watch step Updates.note) ({}, {})
        [.event (.addTimer 7 0), .event (.timerUpdate 0 10 0), .elapse 5000000 fun _ => true,
          .event (.timerUpdate 0 0 5000000), .elapse 1 fun _ => true] = some (s, o) ∧
      o.stopped 0 = true ∧ s.runsSince o 0 = 1 :=
  ⟨_, _, rfl, by decide, by decide⟩

end Timed
end LunaOS.EventLoop
