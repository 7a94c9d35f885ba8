import LunaOS.Lib.Histories

/-!
Exact custody of resources that the environment may hand out again. A resource is
owned when it was acquired and not released since. A history is clean when only
what is not owned is acquired and only what is owned is released or used; it is
exact when in the end nothing is owned, so that every acquisition was released once.
-/
namespace Custody
open Histories

universe u
variable {ρ : Type u}

inductive Op (ρ : Type u) where
  | acquire (r : ρ)
  | release (r : ρ)
  | use (r : ρ)
  deriving DecidableEq

def Owned (h : List (Op ρ)) (r : ρ) : Prop :=
  Since (· = .acquire r) (· = .release r) h

instance [DecidableEq ρ] (h : List (Op ρ)) (r : ρ) : Decidable (Owned h r) :=
  inferInstanceAs (Decidable (Since _ _ h))

def Lawful (before : List (Op ρ)) : Op ρ → Prop
  | .acquire r => ¬ Owned before r
  | .release r => Owned before r
  | .use r => Owned before r

def Clean (h : List (Op ρ)) : Prop :=
  Always Lawful h

def Exact (h : List (Op ρ)) : Prop :=
  Clean h ∧ ∀ r, ¬ Owned h r

theorem not_owned_nil (r : ρ) : ¬ Owned [] r :=
  id

theorem clean_nil : Clean ([] : List (Op ρ)) :=
  always_nil

theorem clean_concat (h : List (Op ρ)) (x : Op ρ) : Clean (h ++ [x]) ↔ Clean h ∧ Lawful h x :=
  always_concat h x

theorem Clean.left {h out : List (Op ρ)} (clean : Clean (h ++ out)) : Clean h :=
  ((always_append h out).mp clean).1

theorem owned_acquire (h : List (Op ρ)) (r s : ρ) :
    Owned (h ++ [.acquire r]) s ↔ s = r ∨ Owned h s := by
  rw [Owned, since_concat]
  simp [Owned, eq_comm]

theorem owned_release (h : List (Op ρ)) (r s : ρ) :
    Owned (h ++ [.release r]) s ↔ s ≠ r ∧ Owned h s := by
  rw [Owned, since_concat]
  simp [Owned, eq_comm]

theorem owned_use (h : List (Op ρ)) (r s : ρ) : Owned (h ++ [.use r]) s ↔ Owned h s :=
  since_concat_other nofun nofun h

/-- The history is clean, and what it leaves owned is listed. -/
def Holds (h : List (Op ρ)) (held : List ρ) : Prop :=
  Clean h ∧ ∀ r, Owned h r ↔ r ∈ held

theorem holds_nil : Holds ([] : List (Op ρ)) [] :=
  ⟨clean_nil, fun r => iff_of_false (not_owned_nil r) List.not_mem_nil⟩

theorem exact_iff_holds (h : List (Op ρ)) : Exact h ↔ Holds h [] := by
  simp [Exact, Holds]

variable {h : List (Op ρ)} {held : List ρ} {r : ρ}

theorem Holds.perm {held' : List ρ} (holds : Holds h held) (same : held.Perm held') :
    Holds h held' :=
  ⟨holds.1, fun r => (holds.2 r).trans same.mem_iff⟩

theorem Holds.acquire (holds : Holds h held) (free : ¬ Owned h r) :
    Holds (h ++ [.acquire r]) (r :: held) := by
  refine ⟨(clean_concat _ _).mpr ⟨holds.1, free⟩, fun s => ?_⟩
  rw [owned_acquire, holds.2 s, List.mem_cons]

theorem Holds.release (holds : Holds h (r :: held)) (once : r ∉ held) :
    Holds (h ++ [.release r]) held := by
  refine ⟨(clean_concat _ _).mpr ⟨holds.1, (holds.2 r).mpr List.mem_cons_self⟩, fun s => ?_⟩
  rw [owned_release, holds.2 s, List.mem_cons]
  constructor
  · intro ⟨other, mem⟩
    exact mem.resolve_left other
  · intro mem
    exact ⟨fun same => once (same ▸ mem), Or.inr mem⟩

theorem Holds.use (holds : Holds h held) (mem : r ∈ held) : Holds (h ++ [.use r]) held := by
  refine ⟨(clean_concat _ _).mpr ⟨holds.1, (holds.2 r).mpr mem⟩, fun s => ?_⟩
  rw [owned_use, holds.2 s]

end Custody
