import Mathlib.Data.List.Basic
import Mathlib.Data.UInt
import Mathlib.Tactic.Ring

/-!
Block copies in a memory. A copy says for every address it writes where the value is
read. Copies in sequence whose reads are never written, and which agree where they
write twice, act like one copy. Memories with 64-bit addresses are the case at hand: a
region is a block that does not wrap, and `bcopy` a copy between two of them.
-/
namespace Copies

universe u v
variable {A : Type u} {V : Type v}

/-- Where each address that is written is read from. -/
abbrev Copy (A : Type u) : Type u := A → Option A

def perform (m : A → V) (c : Copy A) : A → V :=
  fun a => m ((c a).getD a)

def performAll (m : A → V) (cs : List (Copy A)) : A → V :=
  cs.foldl perform m

theorem perform_written {m : A → V} {c : Copy A} {a b : A} (h : c a = some b) :
    perform m c a = m b := by
  simp [perform, h]

theorem perform_other {m : A → V} {c : Copy A} {a : A} (h : c a = none) :
    perform m c a = m a := by
  simp [perform, h]

theorem performAll_other {cs : List (Copy A)} {m : A → V} {a : A}
    (h : ∀ c ∈ cs, c a = none) : performAll m cs a = m a := by
  induction cs generalizing m with
  | nil => rfl
  | cons c cs ih =>
      obtain ⟨first, rest⟩ := List.forall_mem_cons.mp h
      exact (ih rest).trans (perform_other first)

def ReadsKept (cs : List (Copy A)) : Prop :=
  ∀ c ∈ cs, ∀ a b, c a = some b → ∀ c' ∈ cs, c' b = none

/-- Two copies that write the same address read the same one. -/
def Agree (cs : List (Copy A)) : Prop :=
  ∀ c ∈ cs, ∀ c' ∈ cs, ∀ a b b', c a = some b → c' a = some b' → b = b'

theorem performAll_written {cs : List (Copy A)} {m : A → V} (kept : ReadsKept cs)
    (agree : Agree cs) {c : Copy A} (mem : c ∈ cs) {a b : A} (h : c a = some b) :
    performAll m cs a = m b := by
  induction cs generalizing m c with
  | nil => cases mem
  | cons first cs ih =>
      have kept_rest : ReadsKept cs := fun c mem a b h c' mem' =>
        kept c (List.mem_cons_of_mem _ mem) a b h c' (List.mem_cons_of_mem _ mem')
      have agree_rest : Agree cs := fun c mem c' mem' =>
        agree c (List.mem_cons_of_mem _ mem) c' (List.mem_cons_of_mem _ mem')
      have unread : perform m first b = m b :=
        perform_other (kept c mem a b h first List.mem_cons_self)
      by_cases again : ∃ c' ∈ cs, ∃ b', c' a = some b'
      · obtain ⟨c', mem', b', h'⟩ := again
        obtain rfl := agree c mem c' (List.mem_cons_of_mem _ mem') a b b' h h'
        exact (ih kept_rest agree_rest mem' h').trans unread
      · have last : ∀ c' ∈ cs, c' a = none := by
          intro c' mem'
          by_contra written
          obtain ⟨b', h'⟩ := Option.ne_none_iff_exists'.mp written
          exact again ⟨c', mem', b', h'⟩
        have own : first a = some b := by
          rcases List.mem_cons.mp mem with rfl | old
          · exact h
          · rw [last c old] at h
            cases h
        exact (performAll_other last).trans (perform_written own)

/-! Rows of `stride` bytes. -/

theorem row_lt {y x rows stride : Nat} (row : y < rows) (col : x < stride) :
    y * stride + x < stride * rows := by
  calc y * stride + x < y * stride + stride := by omega
    _ = stride * (y + 1) := by ring
    _ ≤ stride * rows := Nat.mul_le_mul_left stride row

theorem row_injective {y y' x x' stride : Nat} (col : x < stride) (col' : x' < stride)
    (same : y * stride + x = y' * stride + x') : y = y' ∧ x = x' := by
  have row : y = y' := by
    have quotient := congrArg (· / stride) same
    have positive : 0 < stride := Nat.lt_of_le_of_lt (Nat.zero_le x) col
    simpa only [Nat.mul_comm _ stride, Nat.mul_add_div positive, Nat.div_eq_of_lt col,
      Nat.div_eq_of_lt col', Nat.add_zero] using quotient
  subst row
  exact ⟨rfl, Nat.add_left_cancel same⟩

/-! Blocks of 64-bit addresses. -/

/-- A block of memory that ends within the address space. -/
structure Region where
  base : UInt64
  size : Nat
  fits : base.toNat + size ≤ 2 ^ 64

namespace Region

def byte (r : Region) (k : Nat) : UInt64 :=
  r.base + UInt64.ofNat k

def Contains (r : Region) (a : UInt64) : Prop :=
  ∃ k < r.size, a = r.byte k

def Apart (r r' : Region) : Prop :=
  ∀ a, r.Contains a → ¬ r'.Contains a

theorem toNat_byte (r : Region) {k : Nat} (h : k < r.size) :
    (r.byte k).toNat = r.base.toNat + k := by
  have fits := r.fits
  simp only [byte, UInt64.toNat_add, UInt64.toNat_ofNat']
  omega

theorem byte_add (r : Region) (j k : Nat) : r.byte (j + k) = r.byte j + UInt64.ofNat k := by
  rw [byte, byte, UInt64.ofNat_add, UInt64.add_assoc]

theorem byte_injective (r : Region) {k k' : Nat} (h : k < r.size) (h' : k' < r.size)
    (same : r.byte k = r.byte k') : k = k' := by
  have eq := congrArg UInt64.toNat same
  rw [r.toNat_byte h, r.toNat_byte h'] at eq
  omega

end Region

/-- `bcopy` of `len` bytes; source and destination may overlap. -/
def bcopy (src dst : UInt64) (len : UInt64) : Copy UInt64 :=
  fun a => if a - dst < len then some (src + (a - dst)) else none

/-- A `bcopy` from byte `i` of one region to byte `j` of another. -/
theorem bcopy_eq_some_iff (r w : Region) (i j : Nat) (len a b : UInt64) :
    bcopy (r.byte i) (w.byte j) len a = some b ↔
      ∃ k < len.toNat, a = w.byte (j + k) ∧ b = r.byte (i + k) := by
  simp only [bcopy, Option.ite_none_right_eq_some, Option.some.injEq, UInt64.lt_iff_toNat_lt]
  constructor
  · rintro ⟨inside, rfl⟩
    refine ⟨(a - w.byte j).toNat, inside, ?_, ?_⟩
    · rw [w.byte_add, UInt64.ofNat_toNat, UInt64.add_comm, UInt64.sub_add_cancel]
    · rw [r.byte_add, UInt64.ofNat_toNat]
  · rintro ⟨k, inside, rfl, rfl⟩
    have small : k < 2 ^ 64 := Nat.lt_trans inside len.toNat_lt
    have offset : w.byte (j + k) - w.byte j = UInt64.ofNat k := by
      rw [w.byte_add, UInt64.add_comm, UInt64.add_sub_cancel]
    rw [offset, UInt64.toNat_ofNat', Nat.mod_eq_of_lt small]
    exact ⟨inside, (r.byte_add i k).symm⟩

end Copies
