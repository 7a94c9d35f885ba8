import Mathlib.Data.List.Basic
import Mathlib.Data.List.TakeDrop

/-!
A reader of lines with a buffer of fixed size. A call takes at most `n` elements and stops
behind a separator, so a longer line comes in pieces. The pieces are those of the lines, each
with its separator, broken after every `n` elements; those that are not blank are also the
pieces of the lines without separators.
-/
namespace Lines

universe u
variable {α : Type u}

/-! Lines that are broken. -/

/-- The line `l`, broken after every `n` elements. -/
def broken (n : Nat) (l : List α) : List (List α) :=
  if 0 < n ∧ n < l.length then l.take n :: broken n (l.drop n) else [l]
termination_by l.length
decreasing_by
  rw [List.length_drop]
  omega

/-- The lines that are not blank. -/
def shown (lines : List (List α)) : List (List α) :=
  lines.filter (· ≠ [])

theorem broken_of_length_le {n : Nat} {l : List α} (short : l.length ≤ n) : broken n l = [l] := by
  rw [broken, if_neg fun both => Nat.not_lt.mpr short both.2]

theorem broken_nil (n : Nat) : broken n ([] : List α) = [[]] :=
  broken_of_length_le (Nat.zero_le n)

theorem broken_append {n : Nat} (room : 0 < n) {p l : List α} (full : p.length = n)
    (more : l ≠ []) : broken n (p ++ l) = p :: broken n l := by
  have pos := List.length_pos_of_ne_nil more
  have long : n < (p ++ l).length := by
    rw [List.length_append]
    omega
  rw [broken, if_pos ⟨room, long⟩, List.take_left' full, List.drop_left' full]

theorem shown_append (ls ms : List (List α)) : shown (ls ++ ms) = shown ls ++ shown ms :=
  List.filter_append ls ms

theorem shown_cons (l : List α) (ls : List (List α)) : shown (l :: ls) = shown [l] ++ shown ls :=
  shown_append [l] ls

theorem shown_blank : shown [([] : List α)] = [] := rfl

theorem shown_broken_append {n : Nat} (room : 0 < n) {p l : List α} (short : p.length ≤ n)
    (full : p.length = n ∨ l = []) :
    shown (broken n (p ++ l)) = shown [p] ++ shown (broken n l) := by
  cases l with
  | nil =>
      rw [List.append_nil, broken_of_length_le short, broken_nil, shown_blank, List.append_nil]
  | cons a l =>
      have full := full.resolve_right (List.cons_ne_nil a l)
      rw [broken_append room full (List.cons_ne_nil a l), shown_cons]

/-- A fold that passes over blank lines. -/
theorem foldl_shown {β : Type u} (f : β → List α → β) (blank : ∀ b, f b [] = b) (b : β)
    (lines : List (List α)) : (shown lines).foldl f b = lines.foldl f b := by
  induction lines generalizing b with
  | nil => rfl
  | cons l lines ih =>
      rw [shown_cons, List.foldl_append, ih, List.foldl_cons]
      cases l with
      | nil => rw [shown_blank, List.foldl_nil, blank]
      | cons a l => rfl

/-! Lines with their separators. -/

/-- A line with its separator, or the last of a text that does not end with one. -/
def Segment (sep : α) (s : List α) : Prop :=
  ∃ l, sep ∉ l ∧ (s = l ++ [sep] ∨ s = l ∧ l ≠ [])

theorem Segment.drop {sep : α} {s : List α} (shape : Segment sep s) {n : Nat}
    (long : n < s.length) : Segment sep (s.drop n) := by
  obtain ⟨l, free, rfl | ⟨rfl, _⟩⟩ := shape
  · have count : n ≤ l.length := by
      rw [List.length_append] at long
      exact Nat.le_of_lt_succ long
    exact ⟨l.drop n, fun held => free (List.mem_of_mem_drop held),
      Or.inl (List.drop_append_of_le_length count)⟩
  · refine ⟨s.drop n, fun held => free (List.mem_of_mem_drop held), Or.inr ⟨rfl, ?_⟩⟩
    rw [ne_eq, List.drop_eq_nil_iff]
    exact Nat.not_le_of_lt long

/-- At most `m` lines, each of at most `n` elements with its separator. -/
def Whole (n m : Nat) (segs : List (List α)) : Prop :=
  segs.length ≤ m ∧ ∀ s ∈ segs, s.length ≤ n

/-- Just `m` lines, of which one has `n + 1` elements with its separator; those before it are
not longer than `n`, and those behind it are blank. -/
def JustFits (sep : α) (n m : Nat) (segs : List (List α)) : Prop :=
  segs.length = m ∧ ∃ before s after, segs = before ++ s :: after ∧
    (∀ b ∈ before, b.length ≤ n) ∧ s.length = n + 1 ∧ sep ∈ s ∧ ∀ b ∈ after, b = [sep]

theorem justFits_cons_short {sep : α} {n m : Nat} {s : List α} (short : s.length ≤ n)
    (segs : List (List α)) : JustFits sep n (m + 1) (s :: segs) ↔ JustFits sep n m segs := by
  unfold JustFits
  rw [List.length_cons, Nat.add_right_cancel_iff]
  refine and_congr_right fun _ => ?_
  constructor
  · rintro ⟨before, s', after, split, fits, long, ends, blank⟩
    cases before with
    | nil =>
        obtain ⟨rfl, _⟩ := List.cons.inj split
        omega
    | cons b before =>
        exact ⟨before, s', after, (List.cons.inj split).2,
          (List.forall_mem_cons.mp fits).2, long, ends, blank⟩
  · rintro ⟨before, s', after, rfl, fits, long, ends, blank⟩
    exact ⟨s :: before, s', after, rfl, List.forall_mem_cons.mpr ⟨short, fits⟩, long, ends, blank⟩

theorem justFits_cons_long {sep : α} {n m : Nat} {s : List α} (long : n < s.length)
    (segs : List (List α)) : JustFits sep n (m + 1) (s :: segs) ↔
      (s.length = n + 1 ∧ sep ∈ s) ∧ segs.length = m ∧ ∀ b ∈ segs, b = [sep] := by
  unfold JustFits
  rw [List.length_cons, Nat.add_right_cancel_iff]
  constructor
  · rintro ⟨count, before, s', after, split, fits, just, ends, blank⟩
    cases before with
    | nil =>
        obtain ⟨rfl, rfl⟩ := List.cons.inj split
        exact ⟨⟨just, ends⟩, count, blank⟩
    | cons b before =>
        obtain ⟨rfl, _⟩ := List.cons.inj split
        have short := fits s List.mem_cons_self
        omega
  · rintro ⟨⟨just, ends⟩, count, blank⟩
    exact ⟨count, [], s, segs, rfl, fun b held => (List.not_mem_nil held).elim, just, ends, blank⟩

/-! The reader. -/

variable [DecidableEq α]

/-- What one call takes, and what is left. -/
def take (sep : α) : Nat → List α → List α × List α
  | 0, rest => ([], rest)
  | _ + 1, [] => ([], [])
  | n + 1, a :: rest =>
      if a = sep then ([a], rest) else (a :: (take sep n rest).1, (take sep n rest).2)

theorem take_append (sep : α) (n : Nat) (text : List α) :
    (take sep n text).1 ++ (take sep n text).2 = text := by
  fun_induction take sep n text with
  | case1 | case2 | case3 => rfl
  | case4 n a rest other ih => rw [List.cons_append, ih]

theorem take_shortens (sep : α) {n : Nat} {text : List α} (room : 0 < n) (more : text ≠ []) :
    (take sep n text).2.length < text.length := by
  have whole := congrArg List.length (take_append sep n text)
  have some : 0 < (take sep n text).1.length := by
    cases text with
    | nil => exact absurd rfl more
    | cons a rest =>
        obtain ⟨n, rfl⟩ := Nat.exists_eq_succ_of_ne_zero (Nat.ne_of_gt room)
        rw [take]
        split <;> exact Nat.succ_pos _
  rw [List.length_append] at whole
  omega

/-- What the calls take until the text is used up. -/
def pieces (sep : α) (n : Nat) (text : List α) : List (List α) :=
  if 0 < n ∧ text ≠ [] then (take sep n text).1 :: pieces sep n (take sep n text).2 else []
termination_by text.length
decreasing_by exact take_shortens sep ‹_ ∧ _›.1 ‹_ ∧ _›.2

theorem mem_of_mem_pieces {sep : α} {n : Nat} {text p : List α} (held : p ∈ pieces sep n text)
    {a : α} (inside : a ∈ p) : a ∈ text := by
  fun_induction pieces sep n text with
  | case1 text more ih =>
      rw [← take_append sep n text, List.mem_append]
      cases List.mem_cons.mp held with
      | inl first => exact Or.inl (first ▸ inside)
      | inr later => exact Or.inr (ih later)
  | case2 text done => cases held

/-- What a call takes has no separator and is full, or else the last of the text, or it is a
line with its separator. -/
theorem take_cases (sep : α) (n : Nat) (text : List α) :
    (sep ∉ (take sep n text).1 ∧ (take sep n text).1.length ≤ n ∧
      ((take sep n text).1.length = n ∨ (take sep n text).2 = [])) ∨
    ∃ l, sep ∉ l ∧ l.length < n ∧ (take sep n text).1 = l ++ [sep] := by
  fun_induction take sep n text with
  | case1 rest => exact Or.inl ⟨List.not_mem_nil, Nat.le_refl _, Or.inl rfl⟩
  | case2 n => exact Or.inl ⟨List.not_mem_nil, Nat.zero_le _, Or.inr rfl⟩
  | case3 n rest => exact Or.inr ⟨[], List.not_mem_nil, Nat.succ_pos n, rfl⟩
  | case4 n a rest other ih =>
      have fresh {l : List α} (free : sep ∉ l) : sep ∉ a :: l :=
        List.not_mem_cons_of_ne_of_not_mem (Ne.symm other) free
      rcases ih with ⟨free, room, full⟩ | ⟨l, free, short, line⟩
      · refine Or.inl ⟨fresh free, Nat.succ_le_succ room, ?_⟩
        exact full.imp (congrArg Nat.succ) id
      · exact Or.inr ⟨a :: l, fresh free, Nat.succ_lt_succ short, by rw [line]; rfl⟩

theorem splitOn_append {sep : α} {p : List α} (free : sep ∉ p) (q : List α) :
    (p ++ q).splitOn sep = (q.splitOn sep).modifyHead (p ++ ·) := by
  obtain ⟨h, t, split⟩ := List.exists_cons_of_ne_nil (List.splitOn_ne_nil sep q)
  rw [split]
  induction p with
  | nil => exact split
  | cons a p ih =>
      rw [List.mem_cons, not_or] at free
      rw [List.cons_append, List.splitOn_cons_eq_if_modifyHead,
        beq_eq_false_iff_ne.mpr (Ne.symm free.1), ih free.2]
      rfl

theorem takeWhile_of_not_mem {sep : α} {l : List α} (free : sep ∉ l) (rest : List α) :
    (l ++ rest).takeWhile (· ≠ sep) = l ++ rest.takeWhile (· ≠ sep) := by
  refine List.takeWhile_append_of_pos fun a held => ?_
  rw [decide_eq_true_eq]
  rintro rfl
  exact free held

theorem shown_full {sep : α} {n : Nat} (room : 0 < n) {p q : List α} (free : sep ∉ p)
    (short : p.length ≤ n) (full : p.length = n ∨ q = []) :
    shown [p.takeWhile (· ≠ sep)] ++ shown ((q.splitOn sep).flatMap (broken n)) =
      shown (((p ++ q).splitOn sep).flatMap (broken n)) := by
  obtain ⟨h, t, split⟩ := List.exists_cons_of_ne_nil (List.splitOn_ne_nil sep q)
  have fits : p.length = n ∨ h = [] := by
    refine full.imp_right ?_
    rintro rfl
    exact (List.cons.inj split).1.symm
  have alone := takeWhile_of_not_mem free []
  rw [List.append_nil, List.takeWhile_nil, List.append_nil] at alone
  rw [splitOn_append free, split, List.modifyHead_cons, List.flatMap_cons, List.flatMap_cons,
    shown_append, shown_append, shown_broken_append room short fits, alone, List.append_assoc]

theorem shown_line {sep : α} {n : Nat} {l : List α} (free : sep ∉ l) (short : l.length < n)
    (q : List α) :
    shown [(l ++ [sep]).takeWhile (· ≠ sep)] ++ shown ((q.splitOn sep).flatMap (broken n)) =
      shown ((((l ++ [sep]) ++ q).splitOn sep).flatMap (broken n)) := by
  have stop : [sep].takeWhile (· ≠ sep) = [] := by simp
  rw [takeWhile_of_not_mem free, stop, List.append_nil, List.append_assoc, List.singleton_append,
    List.splitOn_append_cons_self_of_not_mem free, List.flatMap_cons, shown_append,
    broken_of_length_le (Nat.le_of_lt short)]

/-- The pieces without their separators, and without the blank ones. -/
theorem shown_pieces (sep : α) {n : Nat} (room : 0 < n) (text : List α) :
    shown ((pieces sep n text).map (·.takeWhile (· ≠ sep))) =
      shown ((text.splitOn sep).flatMap (broken n)) := by
  fun_induction pieces sep n text with
  | case1 text more ih =>
      rw [List.map_cons, shown_cons, ih]
      have whole := take_append sep n text
      conv_rhs => rw [← whole]
      rcases take_cases sep n text with ⟨free, short, full⟩ | ⟨l, free, short, line⟩
      · exact shown_full room free short full
      · rw [line]
        exact shown_line free short _
  | case2 text done =>
      have empty : text = [] := by
        by_contra more
        exact done ⟨room, more⟩
      rw [empty, List.splitOn_nil, List.flatMap_singleton, broken_nil]
      rfl

/-! Segments. -/

def segments (sep : α) : List α → List (List α)
  | [] => []
  | a :: rest =>
      if a = sep then [a] :: segments sep rest
      else match segments sep rest with
        | [] => [[a]]
        | s :: ss => (a :: s) :: ss

theorem segments_cons (sep : α) {a : α} (other : a ≠ sep) {rest : List α} (more : rest ≠ []) :
    segments sep (a :: rest) = (segments sep rest).modifyHead (a :: ·) := by
  rw [segments, if_neg other]
  cases rest with
  | nil => exact absurd rfl more
  | cons b rest =>
      cases split : segments sep (b :: rest) with
      | nil =>
          rw [segments] at split
          split at split
          · cases split
          · split at split <;> cases split
      | cons s ss => rfl

theorem segments_append {sep : α} {p : List α} (free : sep ∉ p) {q : List α} (more : q ≠ []) :
    segments sep (p ++ q) = (segments sep q).modifyHead (p ++ ·) := by
  induction p with
  | nil =>
      rw [List.nil_append]
      cases segments sep q <;> rfl
  | cons a p ih =>
      rw [List.mem_cons, not_or] at free
      have longer : p ++ q ≠ [] := List.append_ne_nil_of_right_ne_nil p more
      rw [List.cons_append, segments_cons sep (Ne.symm free.1) longer, ih free.2]
      cases segments sep q <;> rfl

theorem segments_last {sep : α} {p : List α} (free : sep ∉ p) (some : p ≠ []) :
    segments sep p = [p] := by
  have other : p.getLast some ≠ sep := fun same => free (same ▸ List.getLast_mem some)
  have last : segments sep [p.getLast some] = [[p.getLast some]] := by
    rw [segments, if_neg other]
    rfl
  have front : sep ∉ p.dropLast := fun held => free (List.dropLast_subset p held)
  have whole := segments_append front (List.cons_ne_nil (p.getLast some) [])
  rw [last, List.modifyHead_cons, List.dropLast_append_getLast some] at whole
  exact whole

theorem segments_line {sep : α} {l : List α} (free : sep ∉ l) (q : List α) :
    segments sep ((l ++ [sep]) ++ q) = (l ++ [sep]) :: segments sep q := by
  have first : segments sep (sep :: q) = [sep] :: segments sep q := by
    rw [segments, if_pos rfl]
  have more : sep :: q ≠ [] := List.cons_ne_nil sep q
  rw [List.append_assoc, List.singleton_append, segments_append free more, first]
  rfl

theorem segment_of_mem {sep : α} {text s : List α} (held : s ∈ segments sep text) :
    Segment sep s := by
  induction text generalizing s with
  | nil => cases held
  | cons a rest ih =>
      rw [segments] at held
      split at held
      · rename_i same
        cases List.mem_cons.mp held with
        | inl first => exact ⟨[], List.not_mem_nil, Or.inl (by rw [first, same]; rfl)⟩
        | inr later => exact ih later
      · rename_i other
        have fresh {l : List α} (free : sep ∉ l) : sep ∉ a :: l :=
          List.not_mem_cons_of_ne_of_not_mem (Ne.symm other) free
        split at held
        · obtain rfl := List.mem_singleton.mp held
          exact ⟨[a], fresh List.not_mem_nil, Or.inr ⟨rfl, List.cons_ne_nil a []⟩⟩
        · rename_i t ts split
          cases List.mem_cons.mp held with
          | inl first =>
              obtain ⟨l, free, shape⟩ := ih (split ▸ List.mem_cons_self)
              refine ⟨a :: l, fresh free, ?_⟩
              rw [first]
              rcases shape with rfl | ⟨rfl, _⟩
              · exact Or.inl rfl
              · exact Or.inr ⟨rfl, List.cons_ne_nil a _⟩
          | inr later => exact ih (split ▸ List.mem_cons_of_mem t later)

theorem exists_cons_segments (sep : α) {text : List α} (more : text ≠ []) :
    ∃ s ss, segments sep text = s :: ss ∧ s ≠ [] := by
  cases split : segments sep text with
  | nil =>
      cases text with
      | nil => exact absurd rfl more
      | cons a rest =>
          rw [segments] at split
          split at split
          · cases split
          · split at split <;> cases split
  | cons s ss =>
      obtain ⟨l, _, rfl | ⟨rfl, some⟩⟩ := segment_of_mem (split ▸ List.mem_cons_self)
      · exact ⟨_, ss, rfl, List.append_ne_nil_of_right_ne_nil l (List.cons_ne_nil sep [])⟩
      · exact ⟨_, ss, rfl, some⟩

theorem pieces_eq (sep : α) {n : Nat} (room : 0 < n) (text : List α) :
    pieces sep n text = (segments sep text).flatMap (broken n) := by
  fun_induction pieces sep n text with
  | case1 text more ih =>
      rw [ih]
      have whole := take_append sep n text
      rcases take_cases sep n text with ⟨free, short, full⟩ | ⟨l, free, short, line⟩
      · generalize (take sep n text).1 = p at *
        generalize (take sep n text).2 = q at *
        subst whole
        by_cases done : q = []
        · subst done
          rw [List.append_nil] at more ⊢
          rw [segments_last free more.2, List.flatMap_singleton, broken_of_length_le short]
          rfl
        · obtain ⟨s, ss, split, some⟩ := exists_cons_segments sep done
          rw [segments_append free done, split, List.modifyHead_cons, List.flatMap_cons,
            List.flatMap_cons, broken_append room (full.resolve_right done) some]
          rfl
      · rw [line] at whole ⊢
        conv_rhs => rw [← whole]
        have fits : (l ++ [sep]).length ≤ n := by
          rw [List.length_append]
          exact short
        rw [segments_line free, List.flatMap_cons, broken_of_length_le fits]
        rfl
  | case2 text done =>
      have empty : text = [] := by
        by_contra more
        exact done ⟨room, more⟩
      rw [empty]
      rfl

/-! The lines of a text. -/

def lineOf (sep : α) (s : List α) : List α :=
  s.takeWhile (· ≠ sep)

/-- The text without a final separator. -/
def chop (sep : α) (text : List α) : List α :=
  if text.getLast? = some sep then text.dropLast else text

/-- The lines of a text, where a final separator opens no further line. -/
def textLines (sep : α) (text : List α) : List (List α) :=
  (chop sep text).splitOn sep

theorem intercalate_textLines (sep : α) (text : List α) :
    [sep].intercalate (textLines sep text) = chop sep text :=
  List.intercalate_splitOn sep

theorem lineOf_free {sep : α} {l : List α} (free : sep ∉ l) : lineOf sep l = l := by
  have alone := takeWhile_of_not_mem free []
  rwa [List.append_nil, List.takeWhile_nil, List.append_nil] at alone

theorem lineOf_line {sep : α} {l : List α} (free : sep ∉ l) : lineOf sep (l ++ [sep]) = l := by
  have stop : [sep].takeWhile (· ≠ sep) = [] := by simp
  rw [lineOf, takeWhile_of_not_mem free, stop, List.append_nil]

theorem chop_cons (sep a : α) {rest : List α} (more : rest ≠ []) :
    chop sep (a :: rest) = a :: chop sep rest := by
  rw [chop, chop, List.getLast?_cons_of_ne_nil more, List.dropLast_cons_of_ne_nil more]
  split <;> rfl

theorem textLines_eq (sep : α) {text : List α} (some : text ≠ []) :
    textLines sep text = (segments sep text).map (lineOf sep) := by
  induction text with
  | nil => exact absurd rfl some
  | cons a rest ih =>
      rw [textLines]
      by_cases more : rest = []
      · subst more
        by_cases same : a = sep
        · simp [chop, segments, lineOf, same]
        · simp [chop, segments, lineOf, same, List.splitOn_cons_eq_if_modifyHead]
      · rw [chop_cons sep a more, List.splitOn_cons_eq_if_modifyHead]
        have later := ih more
        rw [textLines] at later
        by_cases same : a = sep
        · rw [segments, if_pos same, if_pos (beq_iff_eq.mpr same), later]
          simp [lineOf, same]
        · rw [segments_cons sep same more, if_neg (by simp [same]), later]
          cases segments sep rest with
          | nil => rfl
          | cons s ss => simp [lineOf, same]

/-! When the pieces are the lines. -/

/-- Behind a blank piece too many, only blank lines are where they belong, and the last of them
is beyond the limit. -/
theorem take_blank_iff {sep : α} {n : Nat} (room : 0 < n) {segs : List (List α)}
    (shape : ∀ s ∈ segs, Segment sep s) (m : Nat) :
    (([sep] :: segs.flatMap (broken n)).take m).map (lineOf sep) = segs.map (lineOf sep) ↔
      segs.length = m ∧ ∀ s ∈ segs, s = [sep] := by
  have blank : lineOf sep [sep] = [] := lineOf_line List.not_mem_nil
  have one : broken n [sep] = [[sep]] := broken_of_length_le room
  induction segs generalizing m with
  | nil =>
      cases m with
      | zero => simp
      | succ m => simp
  | cons s segs ih =>
      obtain ⟨first, others⟩ := List.forall_mem_cons.mp shape
      cases m with
      | zero => simp
      | succ m =>
          rw [List.take_succ_cons, List.map_cons, List.map_cons, List.cons.injEq, blank,
            List.forall_mem_cons, List.length_cons, Nat.add_right_cancel_iff]
          have empty : [] = lineOf sep s ↔ s = [sep] := by
            constructor
            · obtain ⟨l, free, rfl | ⟨rfl, some⟩⟩ := first
              · rw [lineOf_line free]
                rintro rfl
                rfl
              · rw [lineOf_free free]
                exact fun none => absurd none.symm some
            · rintro rfl
              exact blank.symm
          rw [empty]
          constructor
          · rintro ⟨rfl, rest⟩
            rw [List.flatMap_cons, one, List.singleton_append] at rest
            obtain ⟨count, blanks⟩ := (ih others m).mp rest
            exact ⟨count, rfl, blanks⟩
          · rintro ⟨count, rfl, rest⟩
            rw [List.flatMap_cons, one, List.singleton_append]
            exact ⟨rfl, (ih others m).mpr ⟨count, rest⟩⟩

/-- The first piece of a longer segment is its line when only the separator is cut off. -/
theorem lineOf_take_iff {sep : α} {n : Nat} {s : List α} (shape : Segment sep s)
    (long : n < s.length) :
    lineOf sep (s.take n) = lineOf sep s ↔ s.length = n + 1 ∧ sep ∈ s := by
  obtain ⟨l, free, rfl | ⟨rfl, _⟩⟩ := shape
  · have room : n ≤ l.length := by
      rw [List.length_append] at long
      exact Nat.le_of_lt_succ long
    have cut : sep ∉ l.take n := fun held => free (List.mem_of_mem_take held)
    have ends : sep ∈ l ++ [sep] := List.mem_append_right l (List.mem_singleton_self sep)
    have count : (l ++ [sep]).length = l.length + 1 := List.length_append
    rw [List.take_append_of_le_length room, lineOf_free cut, lineOf_line free,
      List.take_eq_self_iff, and_iff_left ends, count]
    omega
  · have cut : sep ∉ s.take n := fun held => free (List.mem_of_mem_take held)
    rw [lineOf_free cut, lineOf_free free, List.take_eq_self_iff]
    exact iff_of_false (by omega) fun both => free both.2

/-- The first `m` pieces are the lines exactly when there are not more lines and none is broken,
or when what the breaking adds is cut off at the end. -/
theorem take_pieces_iff {sep : α} {n : Nat} (room : 0 < n) {segs : List (List α)}
    (shape : ∀ s ∈ segs, Segment sep s) (m : Nat) :
    ((segs.flatMap (broken n)).take m).map (lineOf sep) = segs.map (lineOf sep) ↔
      Whole n m segs ∨ JustFits sep n m segs := by
  induction segs generalizing m with
  | nil => simp [Whole]
  | cons s segs ih =>
      obtain ⟨first, others⟩ := List.forall_mem_cons.mp shape
      cases m with
      | zero => simp [Whole, JustFits]
      | succ m =>
          by_cases short : s.length ≤ n
          · rw [List.flatMap_cons, broken_of_length_le short, List.singleton_append,
              List.take_succ_cons, List.map_cons, List.map_cons, List.cons.injEq,
              and_iff_right rfl, justFits_cons_short short]
            refine (ih others m).trans ?_
            simp only [Whole, List.length_cons, List.forall_mem_cons, short, true_and,
              Nat.add_le_add_iff_right]
          · have long : n < s.length := Nat.lt_of_not_le short
            have broke : ¬ Whole n (m + 1) (s :: segs) :=
              fun whole => short (whole.2 s List.mem_cons_self)
            rw [List.flatMap_cons, broken, if_pos ⟨room, long⟩, List.cons_append,
              List.take_succ_cons, List.map_cons, List.map_cons, List.cons.injEq,
              lineOf_take_iff first long, justFits_cons_long long, or_iff_right broke]
            refine and_congr_right fun just => ?_
            have last : s.drop n = [sep] := by
              obtain ⟨l, free, rfl | ⟨rfl, _⟩⟩ := first
              · have full : l.length = n := by simpa using just.1
                exact List.drop_left' full
              · exact absurd just.2 free
            rw [last, broken_of_length_le (n := n) (l := [sep]) room, List.singleton_append,
              take_blank_iff room others m]

/-! The parts of segments. -/

theorem Segment.take {sep : α} {s : List α} (shape : Segment sep s) {n : Nat} (room : 0 < n)
    (long : n < s.length) : Segment sep (s.take n) ∧ lineOf sep (s.take n) = s.take n := by
  have some : s.take n ≠ [] := by
    rw [ne_eq, List.take_eq_nil_iff]
    rintro (rfl | rfl)
    · exact Nat.lt_irrefl 0 room
    · exact Nat.not_lt_zero n long
  have free : sep ∉ s.take n := by
    obtain ⟨l, free, rfl | ⟨rfl, _⟩⟩ := shape
    · have count : n ≤ l.length := by
        rw [List.length_append] at long
        exact Nat.le_of_lt_succ long
      rw [List.take_append_of_le_length count]
      exact fun held => free (List.mem_of_mem_take held)
    · exact fun held => free (List.mem_of_mem_take held)
  exact ⟨⟨_, free, Or.inr ⟨rfl, some⟩⟩, lineOf_free free⟩

theorem Segment.of_mem_broken {sep : α} {n : Nat} {s p : List α} (shape : Segment sep s)
    (held : p ∈ broken n s) : Segment sep p := by
  fun_induction broken n s with
  | case1 s long ih =>
      cases List.mem_cons.mp held with
      | inl first => exact first ▸ (shape.take long.1 long.2).1
      | inr later => exact ih (shape.drop long.2) later
  | case2 s short => exact List.mem_singleton.mp held ▸ shape

/-- Breaking the lines makes no difference to whether all of the first `m` are shorter than a
`k` within the buffer. -/
theorem forall_short_iff {sep : α} {n k : Nat} (room : 0 < n) (inside : k ≤ n)
    {segs : List (List α)} (shape : ∀ s ∈ segs, Segment sep s) (m : Nat) :
    (∀ p ∈ (segs.flatMap (broken n)).take m, (lineOf sep p).length < k) ↔
      ∀ l ∈ (segs.map (lineOf sep)).take m, l.length < k := by
  induction segs generalizing m with
  | nil => simp
  | cons s segs ih =>
      obtain ⟨first, others⟩ := List.forall_mem_cons.mp shape
      cases m with
      | zero => simp
      | succ m =>
          by_cases short : s.length ≤ n
          · rw [List.flatMap_cons, broken_of_length_le short, List.singleton_append,
              List.take_succ_cons, List.map_cons, List.take_succ_cons, List.forall_mem_cons,
              List.forall_mem_cons]
            exact and_congr_right fun _ => ih others m
          · have long : n < s.length := Nat.lt_of_not_le short
            rw [List.flatMap_cons, broken, if_pos ⟨room, long⟩, List.cons_append,
              List.take_succ_cons, List.map_cons, List.take_succ_cons, List.forall_mem_cons,
              List.forall_mem_cons]
            refine iff_of_false (fun all => ?_) fun all => ?_
            · have full : (s.take n).length = n := List.length_take_of_le (Nat.le_of_lt long)
              rw [(first.take room long).2, full] at all
              omega
            · obtain ⟨l, free, rfl | ⟨rfl, _⟩⟩ := first
              · rw [lineOf_line free] at all
                rw [List.length_append, List.length_singleton] at long
                omega
              · rw [lineOf_free free] at all
                omega

end Lines
