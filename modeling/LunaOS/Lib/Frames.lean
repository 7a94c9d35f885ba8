import Mathlib.Data.List.Basic

/-!
Streams of frames. A frame is a body and the mark that ends it; a stream is
complete where it is a concatenation of frames. Appending frames keeps a stream
complete, appending anything unmarked does not.
-/
namespace Frames

universe u
variable {α : Type u} {IsEnd : α → Prop}

def Frame (IsEnd : α → Prop) (f : List α) : Prop :=
  ∃ body mark, f = body ++ [mark] ∧ (∀ e ∈ body, ¬ IsEnd e) ∧ IsEnd mark

def Complete (IsEnd : α → Prop) (stream : List α) : Prop :=
  ∃ frames : List (List α), stream = frames.flatten ∧ ∀ f ∈ frames, Frame IsEnd f

theorem complete_nil : Complete IsEnd [] :=
  ⟨[], rfl, by intro f hf; cases hf⟩

theorem Frame.complete {f : List α} (h : Frame IsEnd f) : Complete IsEnd f := by
  refine ⟨[f], by simp, ?_⟩
  intro g hg
  exact List.mem_singleton.mp hg ▸ h

theorem Complete.append {xs ys : List α} (hx : Complete IsEnd xs) (hy : Complete IsEnd ys) :
    Complete IsEnd (xs ++ ys) := by
  obtain ⟨fs, rfl, fx⟩ := hx
  obtain ⟨gs, rfl, fy⟩ := hy
  refine ⟨fs ++ gs, List.flatten_append.symm, ?_⟩
  intro f hf
  cases List.mem_append.mp hf with
  | inl left => exact fx f left
  | inr right => exact fy f right

/-- A complete stream that is not empty ends in a mark. -/
theorem Complete.getLast {xs : List α} (h : Complete IsEnd xs) {last : α}
    (ends : xs.getLast? = some last) : IsEnd last := by
  obtain ⟨frames, rfl, all⟩ := h
  cases List.eq_nil_or_concat frames with
  | inl empty =>
      subst empty
      cases ends
  | inr more =>
      obtain ⟨front, f, rfl⟩ := more
      obtain ⟨body, mark, rfl, _, marked⟩ := all f (by simp)
      have same : mark = last := by
        simpa [← List.append_assoc] using ends
      exact same ▸ marked

theorem not_complete_append {xs ys : List α} (some_left : ys ≠ [])
    (unmarked : ∀ e ∈ ys, ¬ IsEnd e) : ¬ Complete IsEnd (xs ++ ys) := by
  intro complete
  obtain ⟨front, last, rfl⟩ := (List.eq_nil_or_concat ys).resolve_left some_left
  refine unmarked last (by simp) (complete.getLast ?_)
  simp [← List.append_assoc]

end Frames
