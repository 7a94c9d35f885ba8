import Mathlib.Data.Fintype.Basic
import Mathlib.Data.List.FinRange
import Mathlib.Logic.Function.Basic

/-!
Exact ownership of numbered resources. A ledger counts the resources handed out
and lists the ones given back, in order; a family of holders records which
resource each holder keeps. The balance invariant says that every resource is
either kept by exactly one holder or was given back exactly once: nothing is
lost by overwriting a holder and nothing is released twice.
-/

/-- Resources `0 .. allocated - 1` were handed out; `released` logs every release. -/
structure Ledger where
  allocated : Nat
  released : List Nat

namespace Ledger

def empty : Ledger := ⟨0, []⟩

def acquire (l : Ledger) : Ledger :=
  { l with allocated := l.allocated + 1 }

def release (l : Ledger) (d : Nat) : Ledger :=
  { l with released := d :: l.released }

def Live (l : Ledger) (d : Nat) : Prop :=
  d < l.allocated ∧ d ∉ l.released

variable {ι : Type}

structure Balanced (l : Ledger) (held : ι → Option Nat) : Prop where
  once : l.released.Nodup
  issued : ∀ d ∈ l.released, d < l.allocated
  live : ∀ i d, held i = some d → l.Live d
  unique : ∀ i j d, held i = some d → held j = some d → i = j
  kept : ∀ d, l.Live d → ∃ i, held i = some d

theorem balanced_empty : Balanced empty (fun _ : ι => none) where
  once := List.nodup_nil
  issued := by intro d h; cases h
  live := by intro i d h; cases h
  unique := by intro i j d h; cases h
  kept := by rintro d ⟨h, _⟩; exact absurd h (Nat.not_lt_zero d)

section
variable [DecidableEq ι] {l : Ledger} {held : ι → Option Nat}

/-- A holder that keeps nothing may take a new resource. -/
theorem Balanced.acquire (h : Balanced l held) {i : ι} (free : held i = none) :
    Balanced l.acquire (Function.update held i (some l.allocated)) where
  once := h.once
  issued := fun d hd => Nat.lt_succ_of_lt (h.issued d hd)
  live := by
    intro j d hj
    by_cases e : j = i
    · subst e
      obtain rfl : l.allocated = d := by simpa using hj
      exact ⟨Nat.lt_succ_self _, fun hd => absurd (h.issued _ hd) (Nat.lt_irrefl _)⟩
    · rw [Function.update_of_ne e] at hj
      exact ⟨Nat.lt_succ_of_lt (h.live j d hj).1, (h.live j d hj).2⟩
  unique := by
    intro j k d hj hk
    have old : ∀ {m}, m ≠ i → Function.update held i (some l.allocated) m = some d →
        d < l.allocated := by
      intro m e hm
      rw [Function.update_of_ne e] at hm
      exact (h.live m d hm).1
    by_cases ej : j = i <;> by_cases ek : k = i
    · rw [ej, ek]
    · have lt := old ek hk
      subst ej
      obtain rfl : l.allocated = d := by simpa using hj
      exact absurd lt (Nat.lt_irrefl _)
    · have lt := old ej hj
      subst ek
      obtain rfl : l.allocated = d := by simpa using hk
      exact absurd lt (Nat.lt_irrefl _)
    · rw [Function.update_of_ne ej] at hj
      rw [Function.update_of_ne ek] at hk
      exact h.unique j k d hj hk
  kept := by
    rintro d ⟨lt, hd⟩
    rcases Nat.lt_succ_iff_lt_or_eq.mp lt with lt | rfl
    · obtain ⟨j, hj⟩ := h.kept d ⟨lt, hd⟩
      have e : j ≠ i := by rintro rfl; rw [free] at hj; cases hj
      exact ⟨j, by rwa [Function.update_of_ne e]⟩
    · exact ⟨i, Function.update_self ..⟩

/-- Giving back what a holder keeps, and emptying the holder, keeps the balance. -/
theorem Balanced.release (h : Balanced l held) {i : ι} {d : Nat} (keeps : held i = some d) :
    Balanced (l.release d) (Function.update held i none) where
  once := List.nodup_cons.mpr ⟨(h.live i d keeps).2, h.once⟩
  issued := by
    intro e he
    rcases List.mem_cons.mp he with rfl | he
    · exact (h.live i e keeps).1
    · exact h.issued e he
  live := by
    intro j e hj
    by_cases ji : j = i
    · subst ji; simp at hj
    · rw [Function.update_of_ne ji] at hj
      refine ⟨(h.live j e hj).1, ?_⟩
      intro he
      rcases List.mem_cons.mp he with rfl | he
      · exact ji (h.unique j i e hj keeps)
      · exact (h.live j e hj).2 he
  unique := by
    intro j k e hj hk
    by_cases ji : j = i
    · subst ji; simp at hj
    · by_cases ki : k = i
      · subst ki; simp at hk
      · rw [Function.update_of_ne ji] at hj
        rw [Function.update_of_ne ki] at hk
        exact h.unique j k e hj hk
  kept := by
    rintro e ⟨lt, he⟩
    have out : e ∉ l.released := fun m => he (List.mem_cons_of_mem d m)
    obtain ⟨j, hj⟩ := h.kept e ⟨lt, out⟩
    have ji : j ≠ i := by
      rintro rfl
      obtain rfl := Option.some.inj (hj.symm.trans keeps)
      exact he (List.mem_cons_self ..)
    exact ⟨j, by rwa [Function.update_of_ne ji]⟩

end

/-- Releases, in order, whatever the listed holders keep; the holders are not cleared. -/
def releaseHeld (l : Ledger) (held : ι → Option Nat) (holders : List ι) : Ledger :=
  holders.foldl (fun l i => match held i with
    | some d => l.release d
    | none => l) l

theorem releaseHeld_spec (held : ι → Option Nat) (holders : List ι) (l : Ledger) :
    (l.releaseHeld held holders).allocated = l.allocated ∧
      (l.releaseHeld held holders).released =
        (holders.filterMap held).reverse ++ l.released := by
  induction holders generalizing l with
  | nil => exact ⟨rfl, rfl⟩
  | cons i rest ih =>
      simp only [releaseHeld, List.foldl_cons] at ih ⊢
      cases hi : held i with
      | none => simpa [hi] using ih l
      | some d =>
          obtain ⟨alloc, rel⟩ := ih (l.release d)
          refine ⟨alloc, ?_⟩
          rw [List.filterMap_cons_some hi, List.reverse_cons, List.append_assoc]
          exact rel

/-- Releasing every holder once closes the ledger: each resource ever handed out
has then been given back exactly once. -/
theorem Balanced.releaseHeld {l : Ledger} {held : ι → Option Nat} (h : Balanced l held)
    {holders : List ι} (nodup : holders.Nodup) (all : ∀ i, i ∈ holders) :
    (l.releaseHeld held holders).released.Nodup ∧
      ∀ d, d ∈ (l.releaseHeld held holders).released ↔ d < l.allocated := by
  obtain ⟨_, released⟩ := releaseHeld_spec held holders l
  rw [released]
  refine ⟨?_, ?_⟩
  · refine List.Nodup.append (List.nodup_reverse.mpr ?_) h.once ?_
    · exact nodup.filterMap fun i j d hi hj => h.unique i j d hi hj
    · intro d hd hr
      obtain ⟨i, _, hi⟩ := List.mem_filterMap.mp (List.mem_reverse.mp hd)
      exact (h.live i d hi).2 hr
  · intro d
    simp only [List.mem_append, List.mem_reverse, List.mem_filterMap]
    constructor
    · rintro (⟨i, _, hi⟩ | hr)
      · exact (h.live i d hi).1
      · exact h.issued d hr
    · intro lt
      by_cases hr : d ∈ l.released
      · exact Or.inr hr
      · obtain ⟨i, hi⟩ := h.kept d ⟨lt, hr⟩
        exact Or.inl ⟨i, all i, hi⟩

end Ledger
