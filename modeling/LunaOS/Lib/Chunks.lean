import Mathlib.Data.List.Basic

/-!
A stream of records of one size, cut into chunks of at most that size. The chunks
are the records exactly when each of them is full, and counting is enough to tell:
as many chunks as records leaves no room for a short one.
-/
namespace Chunks

universe u
variable {α : Type u} {size : Nat}

theorem flatten_length_of_full {chunks : List (List α)}
    (full : ∀ c ∈ chunks, c.length = size) : chunks.flatten.length = chunks.length * size := by
  induction chunks with
  | nil => simp
  | cons c chunks ih =>
      rw [List.flatten_cons, List.length_append, full c List.mem_cons_self,
        ih fun d hd => full d (List.mem_cons_of_mem c hd), List.length_cons, Nat.succ_mul,
        Nat.add_comm]

theorem flatten_length_le {chunks : List (List α)}
    (bounded : ∀ c ∈ chunks, c.length ≤ size) :
    chunks.flatten.length ≤ chunks.length * size := by
  induction chunks with
  | nil => simp
  | cons c chunks ih =>
      have first := bounded c List.mem_cons_self
      have rest := ih fun d hd => bounded d (List.mem_cons_of_mem c hd)
      rw [List.flatten_cons, List.length_append, List.length_cons, Nat.succ_mul]
      omega

/-- A stream as long as its chunks allow has no short chunk. -/
theorem full_of_flatten_length {chunks : List (List α)}
    (bounded : ∀ c ∈ chunks, c.length ≤ size)
    (long : chunks.length * size ≤ chunks.flatten.length) :
    ∀ c ∈ chunks, c.length = size := by
  induction chunks with
  | nil =>
      intro c hc
      cases hc
  | cons d chunks ih =>
      have first := bounded d List.mem_cons_self
      have rest : ∀ c ∈ chunks, c.length ≤ size := fun c hc =>
        bounded c (List.mem_cons_of_mem d hc)
      have most := flatten_length_le rest
      rw [List.flatten_cons, List.length_append, List.length_cons, Nat.succ_mul] at long
      intro c hc
      cases List.mem_cons.mp hc with
      | inl same =>
          subst same
          omega
      | inr later => exact ih rest (by omega) c later

/-- Full chunks are the records. -/
theorem eq_records_of_full {chunks records : List (List α)} (pos : 0 < size)
    (stream : chunks.flatten = records.flatten)
    (record : ∀ c ∈ records, c.length = size) (full : ∀ c ∈ chunks, c.length = size) :
    chunks = records := by
  have lengths : chunks.length * size = records.length * size := by
    rw [← flatten_length_of_full full, ← flatten_length_of_full record, stream]
  have count : chunks.length = records.length := Nat.eq_of_mul_eq_mul_right pos lengths
  have same : chunks.map List.length = records.map List.length := by
    rw [List.map_congr_left full, List.map_congr_left record, List.map_const', List.map_const',
      count]
  exact List.eq_iff_flatten_eq.mpr ⟨stream, same⟩

/-- As many chunks as records are full. -/
theorem full_of_length_eq {chunks records : List (List α)}
    (stream : chunks.flatten = records.flatten)
    (record : ∀ c ∈ records, c.length = size) (bounded : ∀ c ∈ chunks, c.length ≤ size)
    (count : chunks.length = records.length) : ∀ c ∈ chunks, c.length = size := by
  have long : chunks.length * size = chunks.flatten.length := by
    rw [stream, flatten_length_of_full record, count]
  exact full_of_flatten_length bounded (Nat.le_of_eq long)

end Chunks
