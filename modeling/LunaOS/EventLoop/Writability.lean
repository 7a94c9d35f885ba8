import LunaOS.EventLoop.Capacity
import LunaOS.EventLoop.Removal
import LunaOS.EventLoop.Wiring
import LunaOS.Lib.Latest
import Mathlib.Order.Fin.Basic

/-!
Write readiness. `wl_event_loop_add_fd` makes a dispatch source for a mask that has
WL_EVENT_READABLE and registers with the kqueue only otherwise, and the kqueue keeps one
source for each descriptor. A source hears of write readiness exactly when its mask does not
have WL_EVENT_READABLE, it has a callback, and no source was registered for writing on its
descriptor after it, be that one removed or not.
-/
namespace LunaOS.EventLoop
open Runs

/-- What `wl_event_loop_add_fd` registers with the kqueue. -/
def WriteOnly (mask : UInt32) : Prop :=
  mask &&& wlEventReadable = 0 ∧ mask &&& wlEventWritable ≠ 0

def Happening.writes (i : Fin maxSources) : Happening → Bool
  | .ran (.fd j _ _ mask _) => j = i ∧ mask &&& wlEventWritable ≠ 0
  | _ => false

namespace Loop

def Event.turn : Event → Option Kevent
  | .kevent ev => some ev
  | _ => none

/-- What `kevent` returns when it drains the kqueue: an event for each descriptor that is
registered and ready, with the source of its latest registration. -/
structure Drained (s : Loop) (ready : Int32 → Prop) (evs : List Kevent) : Prop where
  each : ∀ ev ∈ evs, ev.write = true ∧ ∃ fd i, ready fd ∧ s.kqueue.lookup fd = some i ∧
    ev.udata = some i
  all : ∀ fd i, ready fd → s.kqueue.lookup fd = some i → ∃ ev ∈ evs, ev.udata = some i

/-- Source `i` was added with `mask` for a descriptor that is ready for writing, wants to
hear of it, and is not removed until `s'`. -/
structure Waits (s s' : Loop) (ready : Int32 → Prop) (i : Fin maxSources) (fd : Int32)
    (mask : UInt32) (func data : UInt64) : Prop where
  added : .added i (.fd fd mask func data) ∈ s.history
  writable : mask &&& wlEventWritable ≠ 0
  kept : .removed i ∉ s'.history
  ready : ready fd

def Served (s s' : Loop) (i : Fin maxSources) : Prop :=
  (s'.history.drop s.history.length).any (Happening.writes i) = true

instance (s s' : Loop) (i : Fin maxSources) : Decidable (Served s s' i) :=
  inferInstanceAs (Decidable (_ = true))

/-- No source was registered for writing on the descriptor after source `i`. -/
def LastWriter (s : Loop) (i : Fin maxSources) (fd : Int32) : Prop :=
  ∀ j mask func data, .added j (.fd fd mask func data) ∈ s.history → WriteOnly mask → j ≤ i

/-- The records of the sources and the kqueue, from what was added and removed. -/
structure Noted (s : Loop) : Prop where
  slots : ∀ i fd mask func data, .added i (.fd fd mask func data) ∈ s.history →
    i.val < s.sourceCount ∧ (s.sources i).fd = fd ∧ (s.sources i).mask = mask ∧
      (s.sources i).fdFunc = func
  live : ∀ i fd mask func data, .added i (.fd fd mask func data) ∈ s.history →
    mask &&& wlEventReadable = 0 → .removed i ∉ s.history → (s.sources i).cancelled = false
  read : ∀ k i func fd data, s.gcd.handler k = some (.read i func fd data) →
    (s.sources i).mask &&& wlEventReadable ≠ 0
  kqueue : ∀ fd i, (fd, i) ∈ s.kqueue ↔
    ∃ mask func data, .added i (.fd fd mask func data) ∈ s.history ∧ WriteOnly mask
  sorted : s.kqueue.Pairwise fun p q => q.2 < p.2

variable {s s' : Loop}

theorem noted_create : create.Noted where
  slots := by intro i fd mask func data held; cases held
  live := by intro i fd mask func data held; cases held
  read := by intro k i func fd data given; cases given
  kqueue := by
    intro fd i
    exact iff_of_false List.not_mem_nil fun ⟨_, _, _, held, _⟩ => List.not_mem_nil held
  sorted := List.Pairwise.nil

/-- Flags may change and sources be removed; nothing is added. -/
theorem Noted.keep (h : s.Noted)
    (fields : ∀ i, (s'.sources i).fd = (s.sources i).fd ∧
      (s'.sources i).mask = (s.sources i).mask ∧ (s'.sources i).fdFunc = (s.sources i).fdFunc)
    (count : s'.sourceCount = s.sourceCount) (handler : s'.gcd.handler = s.gcd.handler)
    (kqueue : s'.kqueue = s.kqueue)
    (added : ∀ i r, .added i r ∈ s'.history ↔ .added i r ∈ s.history)
    (live : ∀ i fd mask func data, .added i (.fd fd mask func data) ∈ s.history →
      mask &&& wlEventReadable = 0 → .removed i ∉ s'.history → (s'.sources i).cancelled = false) :
    s'.Noted where
  slots := by
    intro i fd mask func data held
    obtain ⟨used, hears, masks, calls⟩ := h.slots i fd mask func data ((added i _).mp held)
    obtain ⟨sameFd, sameMask, sameFunc⟩ := fields i
    exact ⟨count ▸ used, sameFd.trans hears, sameMask.trans masks, sameFunc.trans calls⟩
  live := fun i fd mask func data held => live i fd mask func data ((added i _).mp held)
  read := by
    intro k i func fd data given
    rw [(fields i).2.1]
    exact h.read k i func fd data (handler ▸ given)
  kqueue := by
    intro fd i
    rw [kqueue, h.kqueue]
    simp only [added]
  sorted := by
    rw [kqueue]
    exact h.sorted

theorem Noted.ran (h : s.Noted) (ran : s' = s ∨ ∃ c, s' = s.record (.ran c)) : s'.Noted := by
  rcases ran with rfl | ⟨c, rfl⟩
  · exact h
  · refine h.keep (fun _ => ⟨rfl, rfl, rfl⟩) rfl rfl rfl ?_ ?_
    · intro i r
      change _ ∈ s.history ++ [.ran c] ↔ _
      simp
    · intro i fd mask func data held reads kept
      exact h.live i fd mask func data held reads fun gone =>
        kept (List.mem_append_left _ gone)

/-- The next free slot is given to a source. -/
theorem Noted.grow (h : s.Noted) (wired : s.Wired) (i : Fin maxSources) {src : Source}
    {r : Registration} (new : i.val = s.sourceCount)
    (sources : s'.sources = Function.update s.sources i src)
    (count : s'.sourceCount = s.sourceCount + 1)
    (history : s'.history = s.history ++ [.added i r]) (flag : src.cancelled = false)
    (fields : ∀ fd mask func data, r = .fd fd mask func data →
      src.fd = fd ∧ src.mask = mask ∧ src.fdFunc = func)
    (blocks : ∀ k j func fd data, s'.gcd.handler k = some (.read j func fd data) →
      s.gcd.handler k = some (.read j func fd data) ∨
        j = i ∧ src.mask &&& wlEventReadable ≠ 0)
    (kqueue : s'.kqueue = s.kqueue ∧ (∀ fd mask func data, r = .fd fd mask func data →
        ¬ WriteOnly mask) ∨
      ∃ fd mask func data, s'.kqueue = (fd, i) :: s.kqueue ∧ r = .fd fd mask func data ∧
        WriteOnly mask) : s'.Noted := by
  have here : s'.sources i = src := by rw [sources, Function.update_self]
  have other {j : Fin maxSources} (used : j.val < s.sourceCount) :
      s'.sources j = s.sources j := source_of_used new sources used
  have mem (x : Happening) : x ∈ s'.history ↔ x ∈ s.history ∨ x = .added i r := by
    rw [history, List.mem_append, List.mem_singleton]
  have below (fd : Int32) (j : Fin maxSources) (registered : (fd, j) ∈ s.kqueue) : j < i := by
    obtain ⟨mask, func, data, held, _⟩ := (h.kqueue fd j).mp registered
    have used := (h.slots j fd mask func data held).1
    exact Fin.lt_def.mpr (by omega)
  refine ⟨?_, ?_, ?_, ?_, ?_⟩
  · intro j fd mask func data held
    cases (mem _).mp held with
    | inl old =>
        obtain ⟨used, rest⟩ := h.slots j fd mask func data old
        rw [other used]
        exact ⟨by omega, rest⟩
    | inr same =>
        obtain ⟨rfl, rfl⟩ := Happening.added.inj same
        rw [here]
        exact ⟨by omega, fields fd mask func data rfl⟩
  · intro j fd mask func data held reads kept
    cases (mem _).mp held with
    | inl old =>
        rw [other (h.slots j fd mask func data old).1]
        exact h.live j fd mask func data old reads fun gone => kept ((mem _).mpr (Or.inl gone))
    | inr same =>
        obtain ⟨rfl, _⟩ := Happening.added.inj same
        rw [here]
        exact flag
  · intro k j func fd data given
    rcases blocks k j func fd data given with old | ⟨rfl, reads⟩
    · rw [other (wired.read k j func fd data old).1]
      exact h.read k j func fd data old
    · rw [here]
      exact reads
  · intro fd j
    simp only [mem]
    rcases kqueue with ⟨same, none⟩ | ⟨fd', mask', func', data', more, rfl, writes⟩
    · rw [same, h.kqueue]
      constructor
      · rintro ⟨mask, func, data, old, writes⟩
        exact ⟨mask, func, data, Or.inl old, writes⟩
      · rintro ⟨mask, func, data, old | new, writes⟩
        · exact ⟨mask, func, data, old, writes⟩
        · exact absurd writes (none fd mask func data (Happening.added.inj new).2.symm)
    · rw [more, List.mem_cons, h.kqueue]
      constructor
      · rintro (same | ⟨mask, func, data, old, writes⟩)
        · obtain ⟨rfl, rfl⟩ := Prod.mk.inj same
          exact ⟨mask', func', data', Or.inr rfl, writes⟩
        · exact ⟨mask, func, data, Or.inl old, writes⟩
      · rintro ⟨mask, func, data, old | new, writes⟩
        · exact Or.inr ⟨mask, func, data, old, writes⟩
        · obtain ⟨rfl, same⟩ := Happening.added.inj new
          obtain ⟨rfl, _⟩ := Registration.fd.inj same
          exact Or.inl rfl
  · rcases kqueue with ⟨same, _⟩ | ⟨fd, _, _, _, more, _⟩
    · rw [same]
      exact h.sorted
    · rw [more]
      exact List.pairwise_cons.mpr ⟨fun p registered => below p.1 p.2 registered, h.sorted⟩

theorem Noted.addFd (h : s.Noted) (wired : s.Wired) (fd : Int32) (mask : UInt32)
    (func data : UInt64) : (s.addFd fd mask func data).1.Noted := by
  unfold Loop.addFd
  split
  · rename_i room
    have blank := (wired.unused ⟨s.sourceCount, room⟩ (Nat.le_refl _)).2.1
    have fields {src : Source} (same : src.fd = fd ∧ src.mask = mask ∧ src.fdFunc = func) :
        ∀ fd' mask' func' data', Registration.fd fd mask func data = .fd fd' mask' func' data' →
          src.fd = fd' ∧ src.mask = mask' ∧ src.fdFunc = func' := by
      rintro _ _ _ _ ⟨⟩
      exact same
    dsimp only
    split
    · rename_i reads
      refine h.grow wired ⟨s.sourceCount, room⟩ rfl rfl rfl rfl blank (fields ⟨rfl, rfl, rfl⟩) ?_
        (Or.inl ⟨rfl, ?_⟩)
      · intro k j func' fd' data' given
        refine (Gcd.handler_create given).imp_right fun same => ?_
        exact ⟨(Block.read.inj same).1, reads⟩
      · rintro _ _ _ _ ⟨⟩ writes
        exact reads writes.1
    · rename_i reads
      split
      · rename_i writes
        exact h.grow wired ⟨s.sourceCount, room⟩ rfl rfl rfl rfl blank (fields ⟨rfl, rfl, rfl⟩)
          (fun _ _ _ _ _ => Or.inl)
          (Or.inr ⟨fd, mask, func, data, rfl, rfl, not_not.mp reads, writes⟩)
      · rename_i writes
        refine h.grow wired ⟨s.sourceCount, room⟩ rfl rfl rfl rfl blank (fields ⟨rfl, rfl, rfl⟩)
          (fun _ _ _ _ _ => Or.inl) (Or.inl ⟨rfl, ?_⟩)
        rintro _ _ _ _ ⟨⟩ writable
        exact writes writable.2
  · exact h

theorem Noted.addTimer (h : s.Noted) (wired : s.Wired) (func data : UInt64) :
    (s.addTimer func data).1.Noted := by
  unfold Loop.addTimer
  split
  · rename_i room
    have blank := (wired.unused ⟨s.sourceCount, room⟩ (Nat.le_refl _)).2.1
    refine h.grow wired ⟨s.sourceCount, room⟩ rfl rfl rfl rfl blank nofun ?_ (Or.inl ⟨rfl, nofun⟩)
    intro k j func' fd' data' given
    exact (Gcd.handler_create given).imp_right nofun
  · exact h

theorem Noted.timerUpdate (h : s.Noted) (i : Fin maxSources) (ms : Int32) (now : UInt64) :
    (s.timerUpdate i ms now).1.Noted := by
  unfold Loop.timerUpdate
  split
  · exact h
  · dsimp only
    split <;> exact h.keep (fun _ => ⟨rfl, rfl, rfl⟩) rfl rfl rfl (fun _ _ => Iff.rfl) h.live

theorem fields_update {i : Fin maxSources} {src : Source} (same : src.fd = (s.sources i).fd ∧
    src.mask = (s.sources i).mask ∧ src.fdFunc = (s.sources i).fdFunc) (j : Fin maxSources) :
    (Function.update s.sources i src j).fd = (s.sources j).fd ∧
      (Function.update s.sources i src j).mask = (s.sources j).mask ∧
      (Function.update s.sources i src j).fdFunc = (s.sources j).fdFunc := by
  by_cases e : j = i
  · rw [e, Function.update_self]
    exact same
  · rw [Function.update_of_ne e]
    exact ⟨rfl, rfl, rfl⟩

theorem Noted.remove (h : s.Noted) (i : Fin maxSources) :
    ((s.record (.removed i)).remove i).Noted := by
  have live (src : Source) (j : Fin maxSources) (fd : Int32) (mask : UInt32) (func data : UInt64)
      (held : .added j (.fd fd mask func data) ∈ s.history) (reads : mask &&& wlEventReadable = 0)
      (kept : .removed j ∉ s.history ++ [.removed i]) :
      (Function.update s.sources i src j).cancelled = false := by
    have e : j ≠ i := by
      rintro rfl
      exact kept (List.mem_append_right _ List.mem_cons_self)
    rw [Function.update_of_ne e]
    exact h.live j fd mask func data held reads fun gone => kept (List.mem_append_left _ gone)
  have added (j : Fin maxSources) (r : Registration) :
      .added j r ∈ s.history ++ [.removed i] ↔ .added j r ∈ s.history := by simp
  unfold Loop.remove
  dsimp only
  split <;> exact h.keep (fields_update ⟨rfl, rfl, rfl⟩) rfl rfl rfl added (live _)

theorem Noted.cancelHandler (h : s.Noted) {k : Nat} {b : Block}
    (given : s.gcd.handler k = some b) : (s.cancelHandler b).Noted := by
  cases b with
  | read i func fd data =>
      refine h.keep (fields_update ⟨rfl, rfl, rfl⟩) rfl rfl rfl (fun _ _ => Iff.rfl) ?_
      intro j fd' mask func' data' held reads kept
      have e : j ≠ i := by
        rintro rfl
        have masks := (h.slots j fd' mask func' data' held).2.2.1
        exact h.read k j func fd data given (masks ▸ reads)
      change (Function.update s.sources i _ j).cancelled = false
      rw [Function.update_of_ne e]
      exact h.live j fd' mask func' data' held reads kept
  | timer i func data => exact h

theorem Noted.step (h : s.Noted) (wired : s.Wired) {e : Event} (next : s.step e = some s') :
    s'.Noted := by
  cases (step_spec next).2 with
  | addFd fd mask func data => exact h.addFd wired fd mask func data
  | addTimer func data => exact h.addTimer wired func data
  | timerUpdate i ms now used => exact h.timerUpdate i ms now
  | remove i used => exact h.remove i
  | fire k b given => exact h.ran (fire_cases s b)
  | cancelHandler k b gone given => exact h.cancelHandler given
  | kevent ev known => exact h.ran (dispatchOne_cases s ev)
  | destroy =>
      exact h.keep (fun _ => ⟨rfl, rfl, rfl⟩) rfl (Gcd.foldl_drop_handler _ _) rfl
        (fun _ _ => Iff.rfl) h.live

/-! What a dispatch runs. -/

/-- A turn for a write event of a source that is not removed runs its callback. -/
theorem dispatchOne_writes {ev : Kevent} {i : Fin maxSources} (write : ev.write = true)
    (udata : ev.udata = some i) (alive : (s.sources i).cancelled = false)
    (func : (s.sources i).fdFunc ≠ 0) :
    ∃ x, (s.dispatchOne ev).history = s.history ++ [x] ∧ x.writes i = true := by
  have masked : ((if ev.write then wlEventWritable else 0) |||
      (if ev.eof then wlEventHangup else 0) ||| (if ev.error then wlEventError else 0) : UInt32) &&&
        wlEventWritable ≠ 0 := by
    rw [write]
    cases ev.eof <;> cases ev.error <;> decide
  have some_mask {m : UInt32} (h : m &&& wlEventWritable ≠ 0) : m ≠ 0 := by
    rintro rfl
    exact h rfl
  simp only [dispatchOne, udata, alive, Bool.false_eq_true, if_false]
  rw [if_pos ⟨some_mask masked, func⟩]
  exact ⟨_, rfl, decide_eq_true ⟨rfl, masked⟩⟩

/-- A callback gets WL_EVENT_WRITABLE in the turn of an event for its source only. -/
theorem step_writes {e : Event} (next : s.step e = some s') :
    ∃ out, s'.history = s.history ++ out ∧ ∀ i, out.any (Happening.writes i) = true →
      ∃ ev, e = .kevent ev ∧ ev.udata = some i ∧ (s.sources i).fdFunc ≠ 0 := by
  have silent {t : Loop} {x : Happening} (history : t.history = s.history ++ [x])
      (other : ∀ i, x.writes i = false) : ∃ out, t.history = s.history ++ out ∧
        ∀ i, out.any (Happening.writes i) = true →
          ∃ ev, e = .kevent ev ∧ ev.udata = some i ∧ (s.sources i).fdFunc ≠ 0 := by
    refine ⟨[x], history, fun i writes => ?_⟩
    rw [List.any_cons, other i] at writes
    cases writes
  have still {t : Loop} (history : t.history = s.history) : ∃ out, t.history = s.history ++ out ∧
      ∀ i, out.any (Happening.writes i) = true →
        ∃ ev, e = .kevent ev ∧ ev.udata = some i ∧ (s.sources i).fdFunc ≠ 0 :=
    ⟨[], history.trans (List.append_nil _).symm, nofun⟩
  have adds (r : Registration) : ∃ out, (s.add r).1.history = s.history ++ out ∧
      ∀ i, out.any (Happening.writes i) = true →
        ∃ ev, e = .kevent ev ∧ ev.udata = some i ∧ (s.sources i).fdFunc ≠ 0 := by
    by_cases room : s.sourceCount < maxSources
    · exact silent (add_room room r).2.2 fun _ => rfl
    · exact still (by rw [add_full room])
  cases (step_spec next).2 with
  | addFd fd mask func data => exact adds (.fd fd mask func data)
  | addTimer func data => exact adds (.timer func data)
  | timerUpdate i ms now used => exact still (timerUpdate_spec i ms now).2
  | remove i used => exact silent ((s.record (.removed i)).remove_spec i).2 fun _ => rfl
  | fire k b given =>
      cases b <;> unfold fire <;> dsimp only <;> split
      · exact still rfl
      · exact silent rfl fun _ => decide_eq_false fun h => h.2 (by decide)
      · exact still rfl
      · exact silent rfl fun _ => rfl
  | cancelHandler k b gone given => exact still (by cases b <;> rfl)
  | kevent ev known =>
      cases udata : ev.udata with
      | none => exact still (by rw [dispatchOne, udata])
      | some j =>
          simp only [dispatchOne, udata]
          split
          · exact still rfl
          · generalize (_ ||| _ : UInt32) = mask
            split
            · rename_i calls
              refine ⟨_, rfl, fun i writes => ?_⟩
              rw [List.any_cons, List.any_nil, Bool.or_false] at writes
              obtain ⟨rfl, _⟩ := of_decide_eq_true writes
              exact ⟨ev, rfl, udata, calls.2⟩
            · exact still rfl
  | destroy => exact still rfl

/-- The same over a stretch of events. -/
theorem run_writes {es : List Event} (ran : run step s es = some s') :
    ∃ out, s'.history = s.history ++ out ∧ ∀ i, out.any (Happening.writes i) = true →
      ∃ before ev after t, es = before ++ .kevent ev :: after ∧ run step s before = some t ∧
        ev.udata = some i ∧ (t.sources i).fdFunc ≠ 0 := by
  induction es generalizing s with
  | nil =>
      obtain rfl := Option.some.inj ran
      exact ⟨[], (List.append_nil _).symm, nofun⟩
  | cons e es ih =>
      obtain ⟨t, next, rest⟩ := Option.bind_eq_some_iff.mp ran
      obtain ⟨out, history, first⟩ := step_writes next
      obtain ⟨out', history', later⟩ := ih rest
      refine ⟨out ++ out', by rw [history', history, List.append_assoc], fun i writes => ?_⟩
      rw [List.any_append, Bool.or_eq_true] at writes
      cases writes with
      | inl now =>
          obtain ⟨ev, rfl, udata, func⟩ := first i now
          exact ⟨[], ev, es, s, rfl, rfl, udata, func⟩
      | inr then_ =>
          obtain ⟨before, ev, after, u, rfl, reached, udata, func⟩ := later i then_
          refine ⟨e :: before, ev, after, u, rfl, ?_, udata, func⟩
          rw [run_cons, next]
          exact reached

/-! Runs. -/

structure WiredNoted (s : Loop) : Prop where
  wired : s.Wired
  noted : s.Noted

theorem run_wiredNoted {es : List Event} (h : s.WiredNoted) (ran : run step s es = some s') :
    s'.WiredNoted :=
  Runs.run_invariant (fun _ _ _ inv next => ⟨inv.wired.step next, inv.noted.step inv.wired next⟩)
    h ran

/-- The kqueue knows a source that wants to write as the one of its descriptor exactly when
it is the last that was registered there. -/
theorem Noted.lookup_iff (h : s.Noted) {i : Fin maxSources} {fd : Int32} {mask : UInt32}
    {func data : UInt64} (added : .added i (.fd fd mask func data) ∈ s.history)
    (writable : mask &&& wlEventWritable ≠ 0) :
    s.kqueue.lookup fd = some i ↔ mask &&& wlEventReadable = 0 ∧ s.LastWriter i fd := by
  rw [Latest.lookup_eq_some_iff h.sorted, h.kqueue]
  have last : (∀ j, (fd, j) ∈ s.kqueue → j ≤ i) ↔ s.LastWriter i fd := by
    simp only [h.kqueue, LastWriter]
    constructor
    · exact fun le j mask func data held writes => le j ⟨mask, func, data, held, writes⟩
    · rintro le j ⟨mask, func, data, held, writes⟩
      exact le j mask func data held writes
  rw [last]
  refine and_congr_left fun _ => ?_
  constructor
  · rintro ⟨mask', func', data', held, writes⟩
    have same := (h.slots i fd mask func data added).2.2.1
    rw [(h.slots i fd mask' func' data' held).2.2.1] at same
    exact same ▸ writes.1
  · exact fun reads => ⟨mask, func, data, added, reads, writable⟩

theorem served_append_iff {out : List Happening} {i : Fin maxSources}
    (history : s'.history = s.history ++ out) :
    Served s s' i ↔ out.any (Happening.writes i) = true := by
  rw [Served, history, List.drop_left]

theorem kevent_mem_of_turn {es : List Event} {ev : Kevent}
    (turn : ev ∈ es.filterMap Event.turn) : .kevent ev ∈ es := by
  obtain ⟨e, mem, is_turn⟩ := List.mem_filterMap.mp turn
  cases e with
  | kevent _ => exact Option.some.inj is_turn ▸ mem
  | _ => cases is_turn

/-- What was served in a dispatch that drains the kqueue is what the kqueue knows the
descriptor by, and it has a callback. -/
theorem WiredNoted.lookup_of_served (h : s.WiredNoted) {es : List Event} {ready : Int32 → Prop}
    {evs : List Kevent} (drained : s.Drained ready evs) (turns : es.filterMap Event.turn = evs)
    (ran : run step s es = some s') {i : Fin maxSources} {fd : Int32} {mask : UInt32}
    {func data : UInt64} (added : .added i (.fd fd mask func data) ∈ s.history)
    (served : Served s s' i) : s.kqueue.lookup fd = some i ∧ func ≠ 0 := by
  obtain ⟨out, history, sources⟩ := run_writes ran
  obtain ⟨before, ev, after, t, rfl, here, udata, calls⟩ :=
    sources i ((served_append_iff history).mp served)
  obtain ⟨out', history', _⟩ := run_writes here
  have still := (run_wiredNoted h here).noted.slots i fd mask func data
    (history' ▸ List.mem_append_left _ added)
  obtain ⟨_, fd', j, _, lookup, udata'⟩ :=
    drained.each ev (turns ▸ by simp [List.filterMap_append, Event.turn])
  obtain rfl := Option.some.inj (udata'.symm.trans udata)
  -- the source was added once, so the descriptor of the event is the one it was added for
  obtain ⟨held, _⟩ := (Latest.lookup_eq_some_iff h.noted.sorted fd' j).mp lookup
  obtain ⟨mask', func', data', held, _⟩ := (h.noted.kqueue fd' j).mp held
  obtain rfl : fd' = fd := (h.noted.slots j fd' mask' func' data' held).2.1.symm.trans
    (h.noted.slots j fd mask func data added).2.1
  exact ⟨lookup, still.2.2.2 ▸ calls⟩

/-- A turn with the event of a source that waits only to write, and has a callback, serves
it. -/
theorem WiredNoted.served_of_turn (h : s.WiredNoted) {es : List Event} {ready : Int32 → Prop}
    {ev : Kevent} (turn : .kevent ev ∈ es) (ran : run step s es = some s')
    {i : Fin maxSources} {fd : Int32} {mask : UInt32} {func data : UInt64}
    (waits : Waits s s' ready i fd mask func data) (reads : mask &&& wlEventReadable = 0)
    (calls : func ≠ 0) (write : ev.write = true) (udata : ev.udata = some i) :
    Served s s' i := by
  obtain ⟨before, after, rfl⟩ := List.append_of_mem turn
  obtain ⟨t, here, rest⟩ := Option.bind_eq_some_iff.mp ((run_append s before _).symm.trans ran)
  obtain ⟨u, next, rest⟩ := Option.bind_eq_some_iff.mp rest
  obtain ⟨out₁, history₁, _⟩ := run_writes here
  obtain ⟨out₂, history₂, _⟩ := run_writes rest
  have noted := (run_wiredNoted h here).noted
  have added : .added i (.fd fd mask func data) ∈ t.history :=
    history₁ ▸ List.mem_append_left _ waits.added
  have turned : u = t.dispatchOne ev := by
    have taken := (Option.ite_none_left_eq_some.mp next).2
    exact (Option.some.inj (Option.ite_none_right_eq_some.mp taken).2).symm
  have alive : (t.sources i).cancelled = false := by
    refine noted.live i fd mask func data added reads fun gone => waits.kept ?_
    obtain ⟨out₃, history₃, _⟩ := step_writes next
    rw [history₂, history₃]
    exact List.mem_append_left _ (List.mem_append_left _ gone)
  have called : (t.sources i).fdFunc ≠ 0 := by
    rw [(noted.slots i fd mask func data added).2.2.2]
    exact calls
  obtain ⟨x, wrote, is_write⟩ := dispatchOne_writes write udata alive called
  have whole : s'.history = s.history ++ (out₁ ++ x :: out₂) := by
    rw [history₂, turned, wrote, history₁]
    simp only [List.append_assoc, List.singleton_append]
  rw [served_append_iff whole]
  simp only [List.any_append, List.any_cons, is_write, Bool.true_or, Bool.or_true]

/-- In every run, whatever happens between its turns, a dispatch that drains the kqueue runs
the callback of every live source that waits to write, with WL_EVENT_WRITABLE, exactly when
each of them does not wait to read as well, has a callback, and is the last that was
registered for writing on its descriptor. -/
theorem write_readiness_iff (events es : List Event) (ready : Int32 → Prop) (evs : List Kevent)
    (reached : run step create events = some s) (drained : s.Drained ready evs)
    (turns : es.filterMap Event.turn = evs) (ran : run step s es = some s') :
    (∀ i fd mask func data, Waits s s' ready i fd mask func data → Served s s' i) ↔
      ∀ i fd mask func data, Waits s s' ready i fd mask func data →
        mask &&& wlEventReadable = 0 ∧ func ≠ 0 ∧ s.LastWriter i fd := by
  have h : s.WiredNoted := run_wiredNoted ⟨wired_create, noted_create⟩ reached
  refine forall_congr' fun i => forall_congr' fun fd => forall_congr' fun mask =>
    forall_congr' fun func => forall_congr' fun data => forall_congr' fun waits => ?_
  have known := h.noted.lookup_iff waits.added waits.writable
  constructor
  · intro served
    obtain ⟨lookup, calls⟩ := h.lookup_of_served drained turns ran waits.added served
    obtain ⟨reads, last⟩ := known.mp lookup
    exact ⟨reads, calls, last⟩
  · rintro ⟨reads, calls, last⟩
    obtain ⟨ev, turn, udata⟩ := drained.all fd i waits.ready (known.mpr ⟨reads, last⟩)
    obtain ⟨write, _⟩ := drained.each ev turn
    rw [← turns] at turn
    exact h.served_of_turn (kevent_mem_of_turn turn) ran waits reads calls write udata

/-- Two ready sources on two descriptors, the callback of one adding a third. -/
theorem write_readiness_iff_two_sources :
    ∃ s s' evs, run step create [.addFd 5 wlEventWritable 7 0, .addFd 6 wlEventWritable 8 0] =
        some s ∧ s.Drained (fun fd => fd = 5 ∨ fd = 6) evs ∧
      run step s [.kevent ⟨some 0, true, false, false⟩, .addTimer 9 0,
        .kevent ⟨some 1, true, true, false⟩] = some s' ∧
      ((∀ i fd mask func data,
          Waits s s' (fun fd => fd = 5 ∨ fd = 6) i fd mask func data → Served s s' i) ↔
        ∀ i fd mask func data, Waits s s' (fun fd => fd = 5 ∨ fd = 6) i fd mask func data →
          mask &&& wlEventReadable = 0 ∧ func ≠ 0 ∧ s.LastWriter i fd) := by
  have drains {t : Loop} (first : t.kqueue.lookup 5 = some 0)
      (second : t.kqueue.lookup 6 = some 1) :
      t.Drained (fun fd => fd = 5 ∨ fd = 6)
        [⟨some 0, true, false, false⟩, ⟨some 1, true, true, false⟩] := by
    refine ⟨fun ev held => ?_, ?_⟩
    · rcases List.mem_pair.mp held with rfl | rfl
      · exact ⟨rfl, 5, 0, Or.inl rfl, first, rfl⟩
      · exact ⟨rfl, 6, 1, Or.inr rfl, second, rfl⟩
    · rintro fd i (rfl | rfl) lookup
      · obtain rfl := Option.some.inj (first.symm.trans lookup)
        exact ⟨_, List.mem_cons_self, rfl⟩
      · obtain rfl := Option.some.inj (second.symm.trans lookup)
        exact ⟨_, List.mem_cons_of_mem _ List.mem_cons_self, rfl⟩
  refine ⟨_, _, _, rfl, drains rfl rfl, rfl, ?_⟩
  exact write_readiness_iff [.addFd 5 wlEventWritable 7 0, .addFd 6 wlEventWritable 8 0]
    [.kevent ⟨some 0, true, false, false⟩, .addTimer 9 0, .kevent ⟨some 1, true, true, false⟩]
    _ _ rfl (drains rfl rfl) rfl rfl

/-- A source that waits to read and to write is ready for writing and never called. -/
theorem read_write_source_unheard :
    ∃ s, run step create [.addFd 5 (wlEventReadable ||| wlEventWritable) 7 0] = some s ∧
      s.Drained (fun fd => fd = 5) [] ∧
      Waits s s (fun fd => fd = 5) 0 5 (wlEventReadable ||| wlEventWritable) 7 0 ∧
      ¬ Served s s 0 := by
  refine ⟨_, rfl, ⟨nofun, fun _ _ _ => nofun⟩, ⟨?_, ?_, ?_, rfl⟩, ?_⟩ <;> decide

/-- Of two sources on one descriptor the first is never called. -/
example :
    ∃ s s', run step create [.addFd 5 wlEventWritable 7 0, .addFd 5 wlEventWritable 8 0] =
        some s ∧ s.Drained (fun fd => fd = 5) [⟨some 1, true, false, false⟩] ∧
      run step s [.kevent ⟨some 1, true, false, false⟩] = some s' ∧
      Waits s s' (fun fd => fd = 5) 0 5 wlEventWritable 7 0 ∧ ¬ Served s s' 0 := by
  refine ⟨_, _, rfl, ⟨?_, ?_⟩, rfl, ⟨?_, ?_, ?_, rfl⟩, ?_⟩
  · intro ev held
    rw [List.mem_singleton.mp held]
    exact ⟨rfl, 5, 1, rfl, rfl, rfl⟩
  · rintro fd i rfl lookup
    exact ⟨_, List.mem_cons_self, lookup⟩
  all_goals decide

end Loop
end LunaOS.EventLoop
