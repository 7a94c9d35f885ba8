import Mathlib.Data.List.Basic

/-!
Lexical resolution of paths. A path is a list of names; the name `up` takes the
last name away and stops at the root, every other name is entered. The depth of
a walk counts names against `up`s and never looks at a name. `getElem?_walk`
says what the counting decides: the name at a level is the one that was there
before the walk, where the walk stays below that level, and else the name by
which the walk left that level for the last time.
-/
namespace LexicalPath

universe u
variable {Name : Type u} [DecidableEq Name]

/-- The nonempty components of a path, without `dot`. -/
def components {α : Type u} [DecidableEq α] (sep : α) (dot path : List α) : List (List α) :=
  (path.splitOn sep).filter fun c => c ≠ [] ∧ c ≠ dot

def enter (up : Name) (at' : List Name) (name : Name) : List Name :=
  if name = up then at'.dropLast else at' ++ [name]

/-- The directory a walk from `at'` ends in. -/
def walk (up : Name) (at' names : List Name) : List Name :=
  names.foldl (enter up) at'

def depth (up : Name) (d : Nat) (names : List Name) : Nat :=
  names.foldl (fun d name => if name = up then d - 1 else d + 1) d

/-- A walk from depth `d` stays below level `k`. -/
def Stays (up : Name) (k d : Nat) (names : List Name) : Prop :=
  ∀ before, before <+: names → k < depth up d before

/-- A walk from depth `d` leaves level `k` for the last time by `name`. -/
def LeavesBy (up : Name) (k : Nat) (name : Name) (d : Nat) (names : List Name) : Prop :=
  ∃ before after, names = before ++ name :: after ∧ name ≠ up ∧
    depth up d before = k ∧ Stays up k (k + 1) after

/-- A proper descendant of `dir`. -/
def Below (dir at' : List Name) : Prop :=
  dir <+: at' ∧ dir.length < at'.length

instance (dir at' : List Name) : Decidable (Below dir at') :=
  inferInstanceAs (Decidable (_ ∧ _))

theorem components_append {α : Type u} [DecidableEq α] (sep : α) (dot path rest : List α) :
    components sep dot (path ++ sep :: rest) =
      components sep dot path ++ components sep dot rest := by
  simp only [components, List.splitOn_append_cons_self, List.filter_append]

variable {up : Name}

@[simp] theorem walk_cons (at' : List Name) (name : Name) (names : List Name) :
    walk up at' (name :: names) = walk up (enter up at' name) names := rfl

theorem walk_append (at' names rest : List Name) :
    walk up at' (names ++ rest) = walk up (walk up at' names) rest :=
  List.foldl_append

@[simp] theorem depth_nil (d : Nat) : depth up d [] = d := rfl

theorem depth_cons (d : Nat) (name : Name) (names : List Name) :
    depth up d (name :: names) =
      depth up (if name = up then d - 1 else d + 1) names := rfl

theorem length_enter (at' : List Name) (name : Name) :
    (enter up at' name).length = if name = up then at'.length - 1 else at'.length + 1 := by
  unfold enter
  split
  · exact List.length_dropLast
  · exact List.length_append

theorem length_walk (at' names : List Name) :
    (walk up at' names).length = depth up at'.length names := by
  induction names generalizing at' with
  | nil => rfl
  | cons name names ih => rw [walk_cons, ih, length_enter, depth_cons]

theorem stays_nil (k d : Nat) : Stays up k d [] ↔ k < d := by
  simp [Stays]

theorem stays_cons (k d : Nat) (name : Name) (names : List Name) :
    Stays up k d (name :: names) ↔
      k < d ∧ Stays up k (if name = up then d - 1 else d + 1) names := by
  constructor
  · intro stays
    refine ⟨stays [] List.nil_prefix, ?_⟩
    intro before initial
    exact stays (name :: before) (List.prefix_cons_iff.mpr (Or.inr ⟨before, rfl, initial⟩))
  · intro ⟨here, later⟩ before initial
    cases List.prefix_cons_iff.mp initial with
    | inl empty =>
        subst empty
        exact here
    | inr more =>
        obtain ⟨rest, rfl, shorter⟩ := more
        exact later rest shorter

theorem leavesBy_nil (k d : Nat) (name : Name) : ¬ LeavesBy up k name d [] := by
  rintro ⟨before, after, split, _⟩
  simp at split

theorem leavesBy_cons (k d : Nat) (name first : Name) (names : List Name) :
    LeavesBy up k name d (first :: names) ↔
      (first = name ∧ name ≠ up ∧ d = k ∧ Stays up k (k + 1) names) ∨
        LeavesBy up k name (if first = up then d - 1 else d + 1) names := by
  constructor
  · rintro ⟨before, after, split, entered, level, stays⟩
    cases before with
    | nil =>
        obtain ⟨rfl, rfl⟩ := List.cons.inj split
        exact Or.inl ⟨rfl, entered, level, stays⟩
    | cons _ before =>
        obtain ⟨rfl, rfl⟩ := List.cons.inj split
        exact Or.inr ⟨before, after, rfl, entered, level, stays⟩
  · rintro (⟨rfl, entered, rfl, stays⟩ | ⟨before, after, rfl, entered, level, stays⟩)
    · exact ⟨[], names, rfl, entered, rfl, stays⟩
    · exact ⟨first :: before, after, rfl, entered, level, stays⟩

/-- The name at level `k` after a walk. -/
theorem getElem?_walk (at' names : List Name) (k : Nat) (name : Name) :
    (walk up at' names)[k]? = some name ↔
      (at'[k]? = some name ∧ Stays up k at'.length names) ∨
        LeavesBy up k name at'.length names := by
  induction names generalizing at' with
  | nil =>
      rw [stays_nil, iff_false_intro (leavesBy_nil k at'.length name), or_false]
      refine ⟨fun found => ⟨found, (List.getElem?_eq_some_iff.mp found).1⟩, And.left⟩
  | cons first names ih =>
      rw [walk_cons, ih, length_enter, leavesBy_cons, stays_cons]
      by_cases back : first = up
      · have no_name : ¬ (first = name ∧ name ≠ up ∧ at'.length = k ∧
            Stays up k (k + 1) names) := fun h => h.2.1 (h.1 ▸ back)
        rw [iff_false_intro no_name, false_or]
        refine or_congr_left ?_
        simp only [enter, if_pos back, List.getElem?_dropLast]
        constructor
        · intro ⟨found, stays⟩
          have below : k < at'.length - 1 := stays [] List.nil_prefix
          rw [if_pos below] at found
          exact ⟨found, by omega, stays⟩
        · intro ⟨found, _, stays⟩
          have below : k < at'.length - 1 := stays [] List.nil_prefix
          exact ⟨by rwa [if_pos below], stays⟩
      · simp only [enter, if_neg back, ← or_assoc]
        refine or_congr_left ?_
        by_cases level : at'.length = k
        · subst level
          simp only [List.getElem?_concat_length, Option.some.injEq, Nat.lt_irrefl, false_and,
            and_false, false_or, true_and]
          constructor
          · intro ⟨same, stays⟩
            exact ⟨same, same ▸ back, stays⟩
          · intro ⟨same, _, stays⟩
            exact ⟨same, stays⟩
        · simp only [level, false_and, and_false, or_false]
          constructor
          · intro ⟨found, stays⟩
            have bound := (List.getElem?_eq_some_iff.mp found).1
            rw [List.length_append, List.length_singleton] at bound
            have below : k < at'.length := by omega
            rw [List.getElem?_append_left below] at found
            exact ⟨found, below, stays⟩
          · intro ⟨found, below, stays⟩
            rw [List.getElem?_append_left below]
            exact ⟨found, stays⟩

omit [DecidableEq Name] in
theorem below_pair_iff (first second : Name) (at' : List Name) :
    Below [first, second] at' ↔
      3 ≤ at'.length ∧ at'[0]? = some first ∧ at'[1]? = some second := by
  match at' with
  | [] => simp [Below]
  | [a] => simp [Below]
  | a :: b :: rest =>
      simp only [Below, List.cons_prefix_cons, List.nil_prefix, and_true, List.length_cons,
        List.length_nil, List.getElem?_cons_zero, List.getElem?_cons_succ, Option.some.injEq,
        @eq_comm _ first, @eq_comm _ second]
      constructor
      · intro ⟨⟨same, same'⟩, deep⟩
        exact ⟨by omega, same, same'⟩
      · intro ⟨deep, same, same'⟩
        exact ⟨⟨same, same'⟩, by omega⟩

end LexicalPath
