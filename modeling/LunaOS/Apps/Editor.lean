import LunaOS.Lib.Lines
import Mathlib.Data.List.TakeWhile

/-!
`editor_load` of the text editor. `fgets` reads at most 4095 bytes into a buffer, and what it
read is copied into a line for which `line_init` has allocated 80: outside of an allocation
`memcpy` is undefined. That a file is read line by line is a matter of `fgets` alone, so the
capacity is a parameter here. `calloc` is taken to succeed.

Left out: the cursor, `scroll_row`, `modified` and `running`, which the function does not use.
-/
namespace LunaOS.Apps
open Lines

abbrev Bytes := List UInt8

def maxLines : Nat := 65536

def maxLine : Nat := 4096

/-- The `cap` of `line_init`. -/
def lineCap : Nat := 80

def newline : UInt8 := 10

structure Line where
  data : Bytes
  len : Nat
  cap : Nat

/-- `lines` are those below `line_count`. -/
structure Editor where
  lines : List Line := []
  filepath : Bytes := []

def lineInit (cap : Nat) : Line where
  data := List.replicate cap 0
  len := 0
  cap := cap

/-- `strlen`, and the newline at the end replaced by a NUL. -/
def chomp (buf : Bytes) : Bytes :=
  let s := buf.takeWhile (· ≠ 0)
  if s.getLast? = some newline then s.dropLast else s

namespace Line

/-- `memcpy(l->data, buf, n + 1); l->len = n`. -/
def fill (l : Line) (s : Bytes) : Option Line :=
  if s.length + 1 ≤ l.cap then
    some { l with data := s ++ 0 :: l.data.drop (s.length + 1), len := s.length }
  else none

def text (l : Line) : Bytes :=
  l.data.take l.len

end Line

namespace Editor

def readLine (cap : Nat) (ed : Editor) (buf : Bytes) : Option Editor :=
  ((lineInit cap).fill (chomp buf)).map fun l => { ed with lines := ed.lines ++ [l] }

/-- `while (fgets(buf, sizeof(buf), f) && ed->line_count < MAX_LINES)`. -/
def readLines (cap : Nat) : Editor → List Bytes → Option Editor
  | ed, [] => some ed
  | ed, buf :: rest =>
      if ed.lines.length < maxLines then
        (ed.readLine cap buf).bind fun ed => ed.readLines cap rest
      else some ed

/-- `editor_load`; `file` is the content of the file, where it can be opened. -/
def editorLoad (cap : Nat) (ed : Editor) (path : Bytes) (file : Option Bytes) : Option Editor :=
  let ed := { ed with filepath := path.take 511, lines := [] }
  match file with
  | none => some { ed with lines := [lineInit cap] }
  | some content =>
      (ed.readLines cap (pieces newline (maxLine - 1) content)).map fun ed =>
        if ed.lines = [] then { ed with lines := [lineInit cap] } else ed

end Editor

/-! What a load leaves. -/

def filled (cap : Nat) (s : Bytes) : Line where
  data := s ++ 0 :: (List.replicate cap 0).drop (s.length + 1)
  len := s.length
  cap := cap

theorem text_filled (cap : Nat) (s : Bytes) : (filled cap s).text = s :=
  List.take_left

theorem fill_lineInit (cap : Nat) (s : Bytes) :
    (lineInit cap).fill s = if s.length < cap then some (filled cap s) else none := rfl

/-- A line is filled for each buffer as long as there is room, and each has to fit its line. -/
theorem readLines_eq_some_iff (cap : Nat) (ed ed' : Editor) (bufs : List Bytes) :
    ed.readLines cap bufs = some ed' ↔
      (∀ buf ∈ bufs.take (maxLines - ed.lines.length), (chomp buf).length < cap) ∧
        ed' = { ed with
          lines := ed.lines ++
            (bufs.take (maxLines - ed.lines.length)).map fun buf => filled cap (chomp buf) } := by
  induction bufs generalizing ed with
  | nil => simp [Editor.readLines, eq_comm]
  | cons buf bufs ih =>
      rw [Editor.readLines]
      by_cases room : ed.lines.length < maxLines
      · obtain ⟨k, left⟩ := Nat.exists_eq_succ_of_ne_zero (Nat.sub_ne_zero_of_lt room)
        rw [if_pos room, Editor.readLine, fill_lineInit, left, List.take_succ_cons,
          List.forall_mem_cons]
        by_cases fits : (chomp buf).length < cap
        · have next : maxLines - (ed.lines ++ [filled cap (chomp buf)]).length = k := by
            rw [List.length_append, List.length_singleton]
            omega
          rw [if_pos fits, Option.map_some, Option.bind_some, ih]
          simp only [next, fits, true_and, List.append_assoc, List.singleton_append, List.map_cons]
        · rw [if_neg fits]
          exact iff_of_false nofun fun both => fits both.1.1
      · rw [if_neg room, Nat.sub_eq_zero_of_le (Nat.le_of_not_lt room)]
        simp [eq_comm]

section
variable {content : Bytes}

def buffers (content : Bytes) : List Bytes :=
  (pieces newline (maxLine - 1) content).take maxLines

theorem buffers_eq (content : Bytes) : buffers content =
    ((segments newline content).flatMap (broken (maxLine - 1))).take maxLines := by
  rw [buffers, pieces_eq newline (by decide)]

theorem buffers_eq_nil_iff : buffers content = [] ↔ content = [] := by
  rw [buffers, List.take_eq_nil_iff, pieces]
  by_cases empty : content = []
  · simp [empty]
  · simp [empty, maxLine, maxLines]

theorem editorLoad_eq_some_iff (cap : Nat) (ed ed' : Editor) (path content : Bytes) :
    ed.editorLoad cap path (some content) = some ed' ↔
      (∀ buf ∈ buffers content, (chomp buf).length < cap) ∧
        ed' =
          { lines := if content = [] then [lineInit cap]
              else (buffers content).map fun buf => filled cap (chomp buf)
            filepath := path.take 511 } := by
  have read (loaded : Editor) :
      Editor.readLines cap ⟨[], path.take 511⟩ (pieces newline (maxLine - 1) content) =
          some loaded ↔
        (∀ buf ∈ buffers content, (chomp buf).length < cap) ∧
          loaded = ⟨(buffers content).map fun buf => filled cap (chomp buf), path.take 511⟩ :=
    readLines_eq_some_iff cap ⟨[], path.take 511⟩ loaded _
  rw [Editor.editorLoad, Option.map_eq_some_iff]
  simp only [read]
  constructor
  · rintro ⟨loaded, ⟨fits, rfl⟩, rfl⟩
    refine ⟨fits, ?_⟩
    simp only [List.map_eq_nil_iff, buffers_eq_nil_iff]
    split <;> rfl
  · rintro ⟨fits, rfl⟩
    refine ⟨_, ⟨fits, rfl⟩, ?_⟩
    simp only [List.map_eq_nil_iff, buffers_eq_nil_iff]
    split <;> rfl

/-! Within the storage. -/

/-- Every copy stays within its allocation, and every line ends within its own. -/
def StaysInside (ed : Editor) (path content : Bytes) : Prop :=
  ∃ ed', ed.editorLoad lineCap path (some content) = some ed' ∧ ∀ l ∈ ed'.lines, l.len < l.cap

theorem staysInside_iff_buffers (ed : Editor) (path content : Bytes) :
    StaysInside ed path content ↔ ∀ buf ∈ buffers content, (chomp buf).length < lineCap := by
  simp only [StaysInside, editorLoad_eq_some_iff]
  constructor
  · rintro ⟨ed', ⟨fits, _⟩, _⟩
    exact fits
  · intro fits
    refine ⟨_, ⟨fits, rfl⟩, fun l held => ?_⟩
    dsimp only at held
    split at held
    · obtain rfl := List.mem_singleton.mp held
      decide
    · obtain ⟨buf, read, rfl⟩ := List.mem_map.mp held
      exact fits buf read

theorem segment_of_mem_buffers {buf : Bytes} (read : buf ∈ buffers content) :
    Segment newline buf := by
  rw [buffers_eq] at read
  obtain ⟨s, held, part⟩ := List.mem_flatMap.mp (List.mem_of_mem_take read)
  exact (segment_of_mem held).of_mem_broken part

theorem chomp_segment {s : Bytes} (shape : Segment newline s) :
    chomp s = (lineOf newline s).takeWhile (· ≠ 0) := by
  have last {l : Bytes} (free : newline ∉ l) : l.getLast? ≠ some newline :=
    fun ends => free (List.mem_of_getLast? ends)
  obtain ⟨l, free, rfl | ⟨rfl, _⟩⟩ := shape
  · rw [lineOf_line free, chomp, List.takeWhile_append]
    split
    · rename_i whole
      have same : l.takeWhile (· ≠ 0) = l := (List.takeWhile_prefix _).eq_of_length whole
      have stop : [newline].takeWhile (· ≠ 0) = [newline] := by decide
      rw [stop, same]
      exact (if_pos List.getLast?_concat).trans List.dropLast_concat
    · exact if_neg (last fun held => free (List.takeWhile_subset _ held))
  · rw [lineOf_free free, chomp]
    exact if_neg (last fun held => free (List.takeWhile_subset _ held))

theorem lineOf_nul_free (nul_free : 0 ∉ content) {s : Bytes} (read : s ∈ buffers content) :
    (lineOf newline s).takeWhile (· ≠ 0) = lineOf newline s := by
  refine List.takeWhile_eq_self_iff.mpr fun b inside => decide_eq_true ?_
  rintro rfl
  exact nul_free (mem_of_mem_pieces (List.mem_of_mem_take read) (List.takeWhile_subset _ inside))

/-- Each of the first 65536 lines has fewer than 80 bytes before its end or its first NUL,
where a line of more than 4095 bytes with its newline counts as its parts. -/
def ShortLines (content : Bytes) : Prop :=
  ∀ s ∈ ((segments newline content).flatMap (broken (maxLine - 1))).take maxLines,
    ((lineOf newline s).takeWhile (· ≠ 0)).length < lineCap

theorem shortLines_iff (nul_free : 0 ∉ content) :
    ShortLines content ↔
      ∀ l ∈ (textLines newline content).take maxLines, l.length < lineCap := by
  by_cases empty : content = []
  · subst empty
    refine iff_of_true (fun s held => absurd held List.not_mem_nil) fun l held => ?_
    obtain rfl := List.mem_singleton.mp (List.mem_of_mem_take held)
    decide
  · rw [textLines_eq newline empty, ← forall_short_iff (n := maxLine - 1) (by decide) (by decide)
      fun s => segment_of_mem]
    refine forall₂_congr fun s held => ?_
    rw [← buffers_eq] at held
    rw [lineOf_nul_free nul_free held]

/-- A load stays inside the storage exactly when the lines are short. -/
theorem editorLoad_stays_inside_iff (ed : Editor) (path content : Bytes) :
    (StaysInside ed path content ↔ ShortLines content) ∧
      (0 ∉ content → (StaysInside ed path content ↔
        ∀ l ∈ (textLines newline content).take maxLines, l.length < lineCap)) := by
  have inside : StaysInside ed path content ↔ ShortLines content := by
    rw [staysInside_iff_buffers, ShortLines, ← buffers_eq]
    refine forall₂_congr fun buf read => ?_
    rw [chomp_segment (segment_of_mem_buffers read)]
  exact ⟨inside, fun nul_free => inside.trans (shortLines_iff nul_free)⟩

/-- A line of 80 bytes, and its NUL has no room. -/
theorem eighty_bytes_overflow :
    ¬ StaysInside {} [] (List.replicate 80 97) := by
  rw [staysInside_iff_buffers, buffers_eq]
  have free : newline ∉ List.replicate 80 97 := by decide
  rw [segments_last free (by decide), List.flatMap_singleton, broken_of_length_le (by decide)]
  decide

/-! Line by line. -/

/-- The lines are those of the file, and joined they give it back up to a final newline. -/
def LoadsLines (cap : Nat) (ed : Editor) (path content : Bytes) : Prop :=
  ∃ ed', ed.editorLoad cap path (some content) = some ed' ∧
    ed'.lines.map Line.text = textLines newline content ∧
    [newline].intercalate (ed'.lines.map Line.text) = chop newline content

theorem length_le_of_mem_broken {n : Nat} (room : 0 < n) {s p : Bytes} (held : p ∈ broken n s) :
    p.length ≤ n := by
  fun_induction broken n s with
  | case1 s long ih =>
      cases List.mem_cons.mp held with
      | inl first => exact first ▸ List.length_take_le n s
      | inr later => exact ih later
  | case2 s short =>
      obtain rfl := List.mem_singleton.mp held
      exact Nat.le_of_not_lt fun long => short ⟨room, long⟩

theorem buffers_fit {cap : Nat} (large : maxLine ≤ cap) {buf : Bytes}
    (read : buf ∈ buffers content) : (chomp buf).length < cap := by
  have shape := segment_of_mem_buffers read
  rw [buffers_eq] at read
  obtain ⟨s, _, part⟩ := List.mem_flatMap.mp (List.mem_of_mem_take read)
  have short := length_le_of_mem_broken (by decide) part
  have cut : (chomp buf).length ≤ buf.length := by
    rw [chomp_segment shape]
    exact ((List.takeWhile_sublist _).trans (List.takeWhile_sublist _)).length_le
  exact Nat.lt_of_le_of_lt (cut.trans short) (Nat.lt_of_lt_of_le (by decide) large)

theorem loadsLines_iff_buffers {cap : Nat} (large : maxLine ≤ cap) (ed : Editor) (path : Bytes)
    (nul_free : 0 ∉ content) (some : content ≠ []) :
    LoadsLines cap ed path content ↔
      (buffers content).map (lineOf newline) = textLines newline content := by
  have fits : ∀ buf ∈ buffers content, (chomp buf).length < cap := fun _ => buffers_fit large
  have loaded : ((buffers content).map fun buf => filled cap (chomp buf)).map Line.text =
      (buffers content).map (lineOf newline) := by
    rw [List.map_map]
    refine List.map_congr_left fun buf read => ?_
    rw [Function.comp_apply, text_filled, chomp_segment (segment_of_mem_buffers read),
      lineOf_nul_free nul_free read]
  simp only [LoadsLines, editorLoad_eq_some_iff, if_neg some]
  constructor
  · rintro ⟨_, ⟨_, rfl⟩, same, _⟩
    exact loaded.symm.trans same
  · intro same
    have whole := loaded.trans same
    exact ⟨_, ⟨fits, rfl⟩, whole, whole ▸ intercalate_textLines newline content⟩

theorem loadsLines_nil {cap : Nat} (large : maxLine ≤ cap) (ed : Editor) (path : Bytes) :
    LoadsLines cap ed path [] :=
  ⟨_, (editorLoad_eq_some_iff ..).mpr ⟨fun _ => buffers_fit large, rfl⟩, rfl, rfl⟩

/-- A load is faithful exactly when there are at most 65536 lines and each, with its newline,
fits the buffer, or when what breaking a line has added is cut off again at the end. -/
theorem editorLoad_loads_lines_iff {cap : Nat} (large : maxLine ≤ cap) (ed : Editor)
    (path : Bytes) (nul_free : 0 ∉ content) :
    LoadsLines cap ed path content ↔
      Whole (maxLine - 1) maxLines (segments newline content) ∨
        JustFits newline (maxLine - 1) maxLines (segments newline content) := by
  by_cases empty : content = []
  · subst empty
    refine iff_of_true (loadsLines_nil large ed path) (Or.inl ⟨Nat.zero_le _, ?_⟩)
    exact fun s held => absurd held List.not_mem_nil
  · rw [loadsLines_iff_buffers large ed path nul_free empty, buffers_eq, textLines_eq newline empty]
    exact take_pieces_iff (by decide) (fun s => segment_of_mem) maxLines

theorem editorLoad_loads_lines_iff_two_lines :
    LoadsLines maxLine {} [] [97, 10, 98] ↔
      Whole (maxLine - 1) maxLines (segments newline [97, 10, 98]) ∨
        JustFits newline (maxLine - 1) maxLines (segments newline [97, 10, 98]) :=
  editorLoad_loads_lines_iff (Nat.le_refl _) {} [] (by decide)

/-- A line of 4096 bytes becomes two. -/
theorem long_line_split : ¬ LoadsLines maxLine {} [] (List.replicate 4096 97) := by
  have some : List.replicate 4096 (97 : UInt8) ≠ [] := List.replicate_succ ▸ List.cons_ne_nil _ _
  have free (b : UInt8) (other : 97 ≠ b) : b ∉ List.replicate 4096 (97 : UInt8) :=
    fun held => other (List.eq_of_mem_replicate held).symm
  rw [loadsLines_iff_buffers (Nat.le_refl _) {} [] (free 0 (by decide)) some, buffers_eq,
    textLines_eq newline some, segments_last (free newline (by decide)) some]
  intro same
  have two := congrArg List.length same
  have long : maxLine - 1 < (List.replicate 4096 (97 : UInt8)).length := by
    rw [List.length_replicate]
    decide
  have rest : (List.replicate 4096 (97 : UInt8)).drop (maxLine - 1) = [97] := by
    rw [List.drop_replicate]
    rfl
  rw [List.flatMap_singleton, broken, if_pos ⟨by decide, long⟩, rest,
    broken_of_length_le (by decide), List.length_map, List.length_take] at two
  exact absurd two (by decide)

end

end LunaOS.Apps
