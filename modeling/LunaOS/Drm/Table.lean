import LunaOS.Drm.Shim
import LunaOS.Lib.Slots

/-!
The dumb-buffer table as a finite map from handles to buffers. `BufferMap` says
what the table is for: a create adds one entry at the least free handle, a close
removes one entry, nothing else changes it. `TableExact` is the representation
invariant that the five handlers keep between `in_use`, the handle field and the
descriptor pointer; under it every call of the kext is a step of the map, and
the descriptor ledger stays balanced until `stop` closes it.
-/
namespace LunaOS.Drm
open Slots

structure Buffer where
  width : UInt32
  height : UInt32
  pitch : UInt32
  bpp : UInt32
  size : UInt64
  mem : Nat
  physAddr : UInt64
  virtAddr : UInt64

/-- Entry `i` is the buffer with handle `i + 1`. -/
abbrev BufferMap : Type := Fin maxDumbBOs → Option Buffer

def DumbBO.buffer (bo : DumbBO) : Option Buffer :=
  match bo.inUse, bo.mem with
  | true, some d => some
      { width := bo.width
        height := bo.height
        pitch := bo.pitch
        bpp := bo.bpp
        size := bo.size
        mem := d
        physAddr := bo.physAddr
        virtAddr := bo.virtAddr }
  | _, _ => none

namespace BufferMap

def Live (m : BufferMap) (handle : UInt32) : Prop :=
  ∃ i, handle = IODRMShim.handleOf i ∧ m i ≠ none

def remove (m : BufferMap) (handle : UInt32) : BufferMap :=
  fun i => if handle = IODRMShim.handleOf i then none else m i

/-- What a call may do to the map and what it must answer. -/
def Spec (m : BufferMap) (c : Call) (r : Reply) (m' : BufferMap) : Prop :=
  match c.data with
  | .createDumb req =>
      (Full m ∨ c.mem = none →
        r.errno = .enomem ∧ r.data = .createDumb req ∧ m' = m) ∧
      (∀ a, ¬ Full m → c.mem = some a → ∃ i b, LowestFree m i ∧
        m' = Function.update m i (some b) ∧
        b.width = req.width ∧ b.height = req.height ∧
        b.virtAddr = a.virtAddr ∧ b.physAddr = a.physAddr ∧ r.errno = .success ∧
        r.data = .createDumb
          { req with handle := IODRMShim.handleOf i, pitch := b.pitch, size := b.size })
  | .destroyDumb req => r.errno = .success ∧ m' = m.remove req.handle
  | .gemClose req => r.errno = .success ∧ m' = m.remove req.handle
  | .mapDumb req => (r.errno = .success ↔ m.Live req.handle) ∧ m' = m
  | .setCrtc req =>
      (req.fbId ≠ 0 → (r.errno = .einval ↔ ¬ m.Live req.fbId)) ∧ m' = m
  | _ => m' = m

theorem remove_eq_some_iff {m : BufferMap} {handle : UInt32} {i : Fin maxDumbBOs} {b : Buffer} :
    m.remove handle i = some b ↔ handle ≠ IODRMShim.handleOf i ∧ m i = some b := by
  rw [remove]
  split
  · rename_i named
    simp [named]
  · rename_i other
    simp [other]

/-- Removing a handle that is not live does nothing. -/
theorem remove_of_not_live {m : BufferMap} {handle : UInt32} (h : ¬ m.Live handle) :
    m.remove handle = m := by
  funext i
  by_cases e : handle = IODRMShim.handleOf i
  · have hi : m i = none := by
      by_contra busy
      exact h ⟨i, e, busy⟩
    simp [remove, e, hi]
  · simp [remove, e]

theorem live_remove_iff (m : BufferMap) (handle other : UInt32) :
    (m.remove handle).Live other ↔ m.Live other ∧ other ≠ handle := by
  constructor
  · rintro ⟨i, rfl, busy⟩
    by_cases e : handle = IODRMShim.handleOf i
    · simp [remove, e] at busy
    · exact ⟨⟨i, rfl, by simpa [remove, e] using busy⟩, fun same => e same.symm⟩
  · rintro ⟨⟨i, rfl, busy⟩, differs⟩
    exact ⟨i, rfl, by simpa [remove, differs.symm] using busy⟩

theorem live_update_of_live {m : BufferMap} {other : UInt32} (h : m.Live other)
    (i : Fin maxDumbBOs) (b : Buffer) :
    BufferMap.Live (Function.update m i (some b)) other := by
  obtain ⟨j, rfl, busy⟩ := h
  refine ⟨j, rfl, ?_⟩
  by_cases e : j = i
  · subst e; simp
  · simpa [e] using busy

end BufferMap

namespace IODRMShim

def contents (s : IODRMShim) : BufferMap :=
  Slots.contents DumbBO.buffer s.fBOs

/-! Handles and slots. -/

theorem toNat_handleOf (i : Fin maxDumbBOs) : (handleOf i).toNat = i.val + 1 := by
  have hi : i.val < 256 := i.isLt
  simp only [handleOf, UInt32.toNat_ofNat']
  omega

theorem handleOf_ne_zero (i : Fin maxDumbBOs) : handleOf i ≠ 0 := by
  intro h
  have hn := toNat_handleOf i
  rw [h] at hn
  simp at hn

theorem handleOf_injective {i j : Fin maxDumbBOs} (h : handleOf i = handleOf j) : i = j := by
  have hi := toNat_handleOf i
  rw [h, toNat_handleOf] at hi
  exact Fin.ext (by omega)

@[simp] theorem slot_handleOf (i : Fin maxDumbBOs) : slot (handleOf i) = i := by
  apply Fin.ext
  simp [slot, toNat_handleOf]

theorem handleOf_slot {handle : UInt32}
    (h : ¬ (handle.toNat = 0 ∨ handle.toNat > maxDumbBOs)) :
    handleOf (slot handle) = handle := by
  apply UInt32.toNat_inj.mp
  rw [toNat_handleOf]
  simp only [slot, Fin.val_ofNat, maxDumbBOs] at h ⊢
  omega

theorem findBO_eq_some_iff (s : IODRMShim) (handle : UInt32) (i : Fin maxDumbBOs) :
    s.findBO handle = some i ↔ handle = handleOf i ∧ (s.fBOs i).inUse = true := by
  unfold findBO
  split
  · rename_i out
    constructor
    · intro h; cases h
    · rintro ⟨rfl, _⟩
      have hi := i.isLt
      rw [toNat_handleOf] at out
      omega
  · rename_i inside
    constructor
    · intro h
      split at h
      · rename_i used
        obtain rfl := Option.some.inj h
        exact ⟨(handleOf_slot inside).symm, used⟩
      · cases h
    · rintro ⟨rfl, used⟩
      simp [used]

theorem findBO_handleOf {s : IODRMShim} {i : Fin maxDumbBOs}
    (used : (s.fBOs i).inUse = true) : s.findBO (handleOf i) = some i :=
  (findBO_eq_some_iff s _ i).mpr ⟨rfl, used⟩

/-! The representation invariant. -/

structure TableExact (s : IODRMShim) : Prop where
  attached : s.gShim = true
  inUse_iff : ∀ i, (s.fBOs i).inUse = true ↔ (s.fBOs i).mem ≠ none
  handle_eq : ∀ i, (s.fBOs i).inUse = true → (s.fBOs i).handle = handleOf i
  balanced : s.ledger.Balanced fun i => (s.fBOs i).mem

theorem tableExact_start (p : Provider) : (start p).TableExact where
  attached := rfl
  inUse_iff := by intro i; simp [start]
  handle_eq := by intro i h; simp [start] at h
  balanced := Ledger.balanced_empty

variable {s : IODRMShim}

theorem TableExact.inUse_iff_live (h : s.TableExact) (i : Fin maxDumbBOs) :
    (s.fBOs i).inUse = true ↔ ∃ d, (s.fBOs i).mem = some d ∧ s.ledger.Live d := by
  rw [h.inUse_iff]
  constructor
  · intro held
    obtain ⟨d, hd⟩ := Option.ne_none_iff_exists'.mp held
    exact ⟨d, hd, h.balanced.live i d hd⟩
  · rintro ⟨d, hd, _⟩
    simp [hd]

theorem TableExact.contents_eq_none_iff (h : s.TableExact) (i : Fin maxDumbBOs) :
    s.contents i = none ↔ (s.fBOs i).inUse = false := by
  have used := h.inUse_iff i
  simp only [contents, Slots.contents, DumbBO.buffer]
  cases hu : (s.fBOs i).inUse with
  | false => simp
  | true =>
      obtain ⟨d, hd⟩ := Option.ne_none_iff_exists'.mp (used.mp hu)
      simp [hd]

theorem TableExact.live_iff (h : s.TableExact) (handle : UInt32) :
    s.contents.Live handle ↔ ∃ i, s.findBO handle = some i := by
  refine exists_congr fun i => ?_
  rw [findBO_eq_some_iff, ne_eq, h.contents_eq_none_iff, Bool.not_eq_false]

/-- The scan of `allocHandle` finds the least handle that is not live. -/
theorem TableExact.allocHandle_cases (h : s.TableExact) :
    (Full s.contents ∧ s.allocHandle = 0) ∨
      ∃ i, LowestFree s.contents i ∧ s.allocHandle = handleOf i := by
  have reads : ∀ i, (!(s.fBOs i).inUse) = true ↔ s.contents i = none := by
    intro i
    rw [h.contents_eq_none_iff]
    cases (s.fBOs i).inUse <;> simp
  have full : s.freeSlot = none ↔ Full s.contents := by
    unfold freeSlot
    exact scan_eq_none_iff reads
  have lowest (i : Fin maxDumbBOs) : s.freeSlot = some i ↔ LowestFree s.contents i := by
    unfold freeSlot
    exact scan_eq_some_iff reads i
  unfold allocHandle
  cases scan : s.freeSlot with
  | none => exact Or.inl ⟨full.mp scan, rfl⟩
  | some i => exact Or.inr ⟨i, (lowest i).mp scan, rfl⟩

/-- The first slot is the least free one whenever it is free. -/
theorem allocHandle_first (free : (s.fBOs 0).inUse = false) :
    s.allocHandle = handleOf 0 := by
  have first : s.freeSlot = some 0 := by
    unfold freeSlot
    rw [Fin.find?_eq_some_iff]
    refine ⟨by simp [free], ?_⟩
    intro j lt
    exact absurd lt (Fin.not_lt_zero j)
  unfold allocHandle
  rw [first]

end IODRMShim
end LunaOS.Drm
