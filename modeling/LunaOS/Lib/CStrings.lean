import LunaOS.Lib.Comparators
import Mathlib.Data.List.Lex
import Mathlib.Data.List.TakeWhile
import Mathlib.Order.Lex
import Mathlib.Algebra.Order.Ring.Int

/-!
Strings in `char` arrays. `strncpy` and `snprintf` cut what they copy off before the last byte
of an array, and leave bytes of it as they are; the string in the array does not depend on those.
-/
namespace CStrings
open Comparators

/-- A string, without the NUL that ends it. -/
abbrev CString := { s : List UInt8 // 0 ∉ s }

/-- A `char` array of `n` bytes in which the last stays NUL. -/
structure Chars (n : Nat) where
  bytes : List UInt8
  length_bytes : bytes.length = n
  last_nul : bytes[n - 1]? = some 0

namespace Chars
variable {n : Nat}

def text (c : Chars n) : CString :=
  ⟨c.bytes.takeWhile (· ≠ 0), fun held => by simpa using List.mem_takeWhile_imp held⟩

theorem length_text_lt (c : Chars n) : c.text.1.length < n := by
  have pre : c.bytes.takeWhile (· ≠ 0) <+: c.bytes := List.takeWhile_prefix _
  by_contra long
  have same : c.bytes.takeWhile (· ≠ 0) = c.bytes :=
    pre.eq_of_length_le (c.length_bytes.le.trans (Nat.not_lt.mp long))
  have nul : (0 : UInt8) ∈ c.bytes := List.mem_of_getElem? c.last_nul
  rw [← same] at nul
  simpa using List.mem_takeWhile_imp nul

def zero (n : Nat) (pos : 0 < n) : Chars n where
  bytes := List.replicate n 0
  length_bytes := List.length_replicate
  last_nul := by
    rw [List.getElem?_replicate, if_pos (Nat.sub_one_lt_of_lt pos)]

def strncpy (c : Chars n) (s : List UInt8) (k : Nat) (room : k < n) : Chars n where
  bytes := s.take k ++ List.replicate (k - s.length) 0 ++ c.bytes.drop k
  length_bytes := by
    have := c.length_bytes
    simp only [List.length_append, List.length_take, List.length_replicate, List.length_drop]
    omega
  last_nul := by
    have head : (s.take k ++ List.replicate (k - s.length) (0 : UInt8)).length = k := by
      rw [List.length_append, List.length_take, List.length_replicate]
      omega
    rw [List.getElem?_append_right (by omega), head, List.getElem?_drop]
    rw [Nat.add_sub_cancel' (by omega)]
    exact c.last_nul

def snprintf (c : Chars n) (s : List UInt8) (k : Nat) (pos : 0 < k) (room : k < n) : Chars n where
  bytes := s.take (k - 1) ++ 0 :: c.bytes.drop ((s.take (k - 1)).length + 1)
  length_bytes := by
    have := c.length_bytes
    simp only [List.length_append, List.length_cons, List.length_take, List.length_drop]
    omega
  last_nul := by
    have short : (s.take (k - 1)).length ≤ k - 1 := List.length_take_le ..
    have last : n - 1 - (s.take (k - 1)).length =
        n - 1 - ((s.take (k - 1)).length + 1) + 1 := by
      omega
    rw [List.getElem?_append_right (by omega), last, List.getElem?_cons_succ, List.getElem?_drop,
      Nat.add_sub_cancel' (by omega)]
    exact c.last_nul

theorem takeWhile_append_nul {s t : List UInt8} (nul_free : 0 ∉ s) (nul : t.head? = some 0) :
    (s ++ t).takeWhile (· ≠ 0) = s := by
  obtain ⟨u, rfl⟩ : ∃ u, t = 0 :: u := by
    rw [List.head?_eq_some_iff] at nul
    exact nul
  rw [List.takeWhile_append_of_pos fun b held =>
    decide_eq_true (ne_of_mem_of_not_mem held nul_free)]
  simp

/-- The last byte of the array ends a string that fills the rest. -/
theorem text_strncpy {k : Nat} (c : Chars (k + 1)) {s : List UInt8} (nul_free : 0 ∉ s) :
    (c.strncpy s k k.lt_add_one).text.1 = s.take k := by
  rw [text, strncpy]
  simp only [List.append_assoc]
  refine takeWhile_append_nul (fun held => nul_free (List.mem_of_mem_take held)) ?_
  cases Nat.eq_zero_or_pos (k - s.length) with
  | inl full =>
      rw [full, List.replicate_zero, List.nil_append, List.head?_drop]
      exact c.last_nul
  | inr left =>
      obtain ⟨m, left⟩ := Nat.exists_eq_add_of_lt left
      rw [left, Nat.zero_add, List.replicate_succ]
      rfl

theorem text_snprintf (c : Chars n) {s : List UInt8} (nul_free : 0 ∉ s) {k : Nat} (pos : 0 < k)
    (room : k < n) : (c.snprintf s k pos room).text.1 = s.take (k - 1) :=
  takeWhile_append_nul (fun held => nul_free (List.mem_of_mem_take held)) rfl

end Chars

/-! Strings that are compared without regard to case. -/

def toLower (c : UInt8) : UInt8 :=
  if 65 ≤ c ∧ c ≤ 90 then c + 32 else c

def strcasecmp : List UInt8 → List UInt8 → Int
  | [], [] => 0
  | [], b :: _ => -(toLower b).toNat
  | a :: _, [] => (toLower a).toNat
  | a :: s, b :: t =>
      if toLower a = toLower b then strcasecmp s t else (toLower a).toNat - (toLower b).toNat

/-- The letters in lower case, as numbers. -/
def lowered (s : List UInt8) : List Nat :=
  s.map fun c => (toLower c).toNat

theorem toLower_pos {c : UInt8} (nonzero : c ≠ 0) : 0 < (toLower c).toNat := by
  have pos : 0 < c.toNat := UInt8.pos_iff_ne_zero.mpr nonzero
  rw [toLower]
  split
  next upper =>
    have last := UInt8.le_iff_toNat_le.mp upper.2
    rw [UInt8.toNat_add]
    simp only [UInt8.reduceToNat] at last ⊢
    omega
  next => exact pos

/-- Letters are compared by what they are in lower case, and the end of a string comes before
every letter. -/
theorem strcasecmp_byKey : ByKey strcasecmp lowered (0 ∉ ·) := by
  intro s t
  induction s generalizing t with
  | nil =>
      cases t with
      | nil => exact fun _ _ => ⟨by simp [strcasecmp], by simp [strcasecmp]⟩
      | cons b t =>
          intro _ nul_free
          have pos := toLower_pos (List.ne_of_not_mem_cons nul_free).symm
          simp only [strcasecmp, lowered, List.map_nil, List.map_cons, List.nil_lt_cons,
            List.not_lt_nil, iff_true, iff_false]
          omega
  | cons a s ih =>
      cases t with
      | nil =>
          intro nul_free _
          have pos := toLower_pos (List.ne_of_not_mem_cons nul_free).symm
          simp only [strcasecmp, lowered, List.map_nil, List.map_cons, List.nil_lt_cons,
            List.not_lt_nil, iff_true, iff_false]
          omega
      | cons b t =>
          intro hs ht
          have rest := ih t (List.not_mem_of_not_mem_cons hs) (List.not_mem_of_not_mem_cons ht)
          simp only [strcasecmp, lowered, List.map_cons, List.cons_lt_cons_iff]
          by_cases same : toLower a = toLower b
          · simpa [same, lowered] using rest
          · have apart : (toLower a).toNat ≠ (toLower b).toNat :=
              fun equal => same (UInt8.toNat_inj.mp equal)
            simp only [same, apart, apart.symm, false_and, or_false, ↓reduceIte]
            omega

end CStrings
