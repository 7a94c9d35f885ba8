import LunaOS.Lib.Lines
import LunaOS.Seatd.Message

/-!
How `luna_apps_load` reads one `.desktop` file. `fgets` hands it at most 511 bytes at a time,
so the rest of a longer line is taken for lines of its own, and the group and the fields
follow what these happen to begin with. What it reads is what the lines of the file say where
nothing behind a break is taken for a line. At last the byte before the first percent sign is
overwritten, whatever it is.
-/
namespace LunaOS.Shell
open Lines
open Seatd (bytes)

abbrev Line := List UInt8

def newline : UInt8 := 10

/-- `struct luna_app`; an array of characters is the string that it holds. -/
structure LunaApp where
  name : Line := []
  exec : Line := []
  iconName : Line := []
  category : Line := []
  accentColor : UInt32 := 0
  deriving DecidableEq

inductive Field where
  | name
  | exec
  | iconName
  deriving DecidableEq

def Field.key : Field → Line
  | .name => bytes "Name="
  | .exec => bytes "Exec="
  | .iconName => bytes "Icon="

/-- The bytes that `strncpy` copies; the array has one more, which stays zero. -/
def Field.size : Field → Nat
  | .name => 63
  | .exec => 255
  | .iconName => 63

namespace LunaApp

def get (a : LunaApp) : Field → Line
  | .name => a.name
  | .exec => a.exec
  | .iconName => a.iconName

def set (a : LunaApp) : Field → Line → LunaApp
  | .name, s => { a with name := s }
  | .exec, s => { a with exec := s }
  | .iconName, s => { a with iconName := s }

@[simp] theorem get_set (a : LunaApp) (f g : Field) (s : Line) :
    (a.set f s).get g = if g = f then s else a.get g := by
  cases f <;> cases g <;> rfl

/-- `strncmp` with the key of a field, and `strncpy` of what follows it. -/
def readKey (line : Line) (a : LunaApp) (f : Field) : LunaApp :=
  if line.take 5 = f.key then a.set f ((line.drop 5).take f.size) else a

def readKeys (line : Line) (a : LunaApp) : LunaApp :=
  [Field.name, Field.exec, Field.iconName].foldl (readKey line) a

theorem get_readKey (line : Line) (a : LunaApp) (f g : Field) :
    (readKey line a f).get g =
      if g = f ∧ line.take 5 = f.key then (line.drop 5).take g.size else a.get g := by
  unfold readKey
  by_cases named : line.take 5 = f.key
  · rw [if_pos named, get_set]
    by_cases same : g = f
    · rw [if_pos same, if_pos ⟨same, named⟩, same]
    · rw [if_neg same, if_neg fun both => same both.1]
  · rw [if_neg named, if_neg fun both => named both.2]

theorem get_readKeys (line : Line) (a : LunaApp) (g : Field) :
    (a.readKeys line).get g =
      if line.take 5 = g.key then (line.drop 5).take g.size else a.get g := by
  simp only [readKeys, List.foldl_cons, List.foldl_nil, get_readKey]
  cases g <;> simp

end LunaApp

/-- The slot of an application before its file is read. -/
def cleared : LunaApp :=
  { accentColor := 0xFF607D8B }

def header : Line := bytes "[Desktop Entry]"

def bracket : UInt8 := 91

/-- `line[strcspn(line, "\n")] = 0`. -/
def chomp (line : Line) : Line :=
  line.takeWhile fun b => b ≠ newline ∧ b ≠ 0

/-- One turn of the loop over the lines, with the flag `in`. -/
def readLine : Bool × LunaApp → Line → Bool × LunaApp
  | (inside, a), line =>
      if line = header then (true, a)
      else if line.head? = some bracket then (false, a)
      else if inside then (inside, a.readKeys line)
      else (inside, a)

/-- The loop over the lines: `fgets(line, 512, f)`. -/
def readEntry (a : LunaApp) (content : Line) : LunaApp :=
  (((pieces newline 511 content).map chomp).foldl readLine (false, a)).2

/-! What a file says. -/

/-- The lines that lie in a `[Desktop Entry]` group, where `group` is the line that opened the
group at hand. -/
def entryLines : Option Line → List Line → List Line
  | _, [] => []
  | group, line :: rest =>
      if line.head? = some bracket then entryLines (some line) rest
      else if group = some header then line :: entryLines group rest
      else entryLines group rest

/-- The value of the last line of a field, empty when there is none. -/
def value (f : Field) (lines : List Line) : Line :=
  (((entryLines none lines).filter (f.key.isPrefixOf ·)).getLast?.map (·.drop 5)).getD []

def lines (content : Line) : List Line :=
  content.splitOn newline

/-- The lines of a file, broken where `fgets` breaks them. -/
def wrapped (content : Line) : List Line :=
  (lines content).flatMap (broken 511)

section
variable {content : Line}

theorem header_head : header.head? = some bracket := by decide

theorem isPrefixOf_key_iff (f : Field) (line : Line) :
    f.key.isPrefixOf line ↔ line.take 5 = f.key := by
  have five : f.key.length = 5 := by cases f <;> decide
  rw [List.isPrefixOf_iff_prefix, List.prefix_iff_eq_take, five, eq_comm]

theorem getLast?_cons_elim {β : Type} (line : Line) (rows : List Line) (b : β) (g : Line → β) :
    (line :: rows).getLast?.elim b g = rows.getLast?.elim (g line) g := by
  rw [List.getLast?_cons]
  cases rows.getLast? <;> rfl

/-- A field holds the last line of its key in a group, or else what it held before. -/
theorem get_foldl (f : Field) (rows : List Line) (group : Option Line) (a : LunaApp) :
    (rows.foldl readLine (decide (group = some header), a)).2.get f =
      ((entryLines group rows).filter (f.key.isPrefixOf ·)).getLast?.elim (a.get f)
        fun line => (line.drop 5).take f.size := by
  induction rows generalizing group a with
  | nil => rfl
  | cons line rest ih =>
      rw [List.foldl_cons, entryLines, readLine]
      by_cases top : line.head? = some bracket
      · rw [if_pos top, if_pos top, ← ih (some line) a]
        by_cases same : line = header
        · simp [same]
        · simp [same]
      · have other : line ≠ header := by
          rintro rfl
          exact top header_head
        rw [if_neg other, if_neg top, if_neg top]
        by_cases inside : group = some header
        · have next := ih group (a.readKeys line)
          rw [decide_eq_true inside] at next ⊢
          rw [if_pos rfl, if_pos inside, next, LunaApp.get_readKeys]
          by_cases named : line.take 5 = f.key
          · rw [List.filter_cons_of_pos ((isPrefixOf_key_iff f line).mpr named), getLast?_cons_elim,
              if_pos named]
          · rw [List.filter_cons_of_neg fun here => named ((isPrefixOf_key_iff f line).mp here),
              if_neg named]
        · have next := ih group a
          rw [decide_eq_false inside] at next ⊢
          rw [if_neg Bool.false_ne_true, if_neg inside, next]

theorem get_foldl_start (f : Field) (rows : List Line) :
    (rows.foldl readLine (false, cleared)).2.get f = (value f rows).take f.size := by
  have read := get_foldl f rows none cleared
  rw [decide_eq_false nofun] at read
  rw [read, value]
  cases ((entryLines none rows).filter (f.key.isPrefixOf ·)).getLast? with
  | none => cases f <;> rfl
  | some line => rfl

theorem readLine_blank (st : Bool × LunaApp) : readLine st [] = st := by
  obtain ⟨inside, a⟩ := st
  cases inside <;> rfl

theorem chomp_of_nul_free {line : Line} (free : 0 ∉ line) :
    chomp line = line.takeWhile (· ≠ newline) := by
  induction line with
  | nil => rfl
  | cons b line ih =>
      rw [List.mem_cons, not_or] at free
      rw [chomp, List.takeWhile_cons, List.takeWhile_cons, ← ih free.2]
      simp [Ne.symm free.1, chomp]

theorem readEntry_eq (nul_free : 0 ∉ content) (a : LunaApp) :
    readEntry a content = ((wrapped content).foldl readLine (false, a)).2 := by
  have plain : (pieces newline 511 content).map chomp =
      (pieces newline 511 content).map (·.takeWhile (· ≠ newline)) := by
    refine List.map_congr_left fun p held => chomp_of_nul_free fun inside => ?_
    exact nul_free (mem_of_mem_pieces held inside)
  rw [readEntry, plain, ← foldl_shown readLine readLine_blank,
    shown_pieces newline (by decide) content, foldl_shown readLine readLine_blank]
  rfl

/-- The fields are the values of the last lines of their keys, cut to their sizes. -/
def ReadsLines (content : Line) : Prop :=
  ∀ f, (readEntry cleared content).get f = (value f (lines content)).take f.size

theorem get_readEntry (nul_free : 0 ∉ content) (f : Field) :
    (readEntry cleared content).get f = (value f (wrapped content)).take f.size := by
  rw [readEntry_eq nul_free, get_foldl_start]

/-! Files whose long lines do no harm. -/

def groupBehind (group : Option Line) (line : Line) : Option Line :=
  if line.head? = some bracket then some line else group

/-- A piece behind a break is taken for a line: it opens or closes the group, or sets a field. -/
def heeded (inside : Bool) (p : Line) : Bool :=
  if p.head? = some bracket then decide (p = header) != inside
  else inside && [Field.name, .exec, .iconName].any (·.key.isPrefixOf p)

def Unheeded : Option Line → List Line → Prop
  | _, [] => True
  | group, line :: rest =>
      (∀ p ∈ (broken 511 line).tail,
        heeded (decide (groupBehind group line = some header)) p = false) ∧
      Unheeded (groupBehind group line) rest

instance decidableUnheeded : (group : Option Line) → (rows : List Line) →
    Decidable (Unheeded group rows)
  | _, [] => .isTrue trivial
  | group, line :: rest =>
      have := decidableUnheeded (groupBehind group line) rest
      inferInstanceAs (Decidable (_ ∧ _))

theorem readLine_group (group : Option Line) (a : LunaApp) (line : Line) :
    (readLine (decide (group = some header), a) line).1 =
      decide (groupBehind group line = some header) := by
  rw [readLine, groupBehind]
  by_cases top : line.head? = some bracket
  · by_cases same : line = header <;> simp [top, same, header_head]
  · have other : line ≠ header := by
      rintro rfl
      exact top header_head
    rw [if_neg other, if_neg top, if_neg top, apply_ite Prod.fst, ite_self]

theorem readLine_unheeded {inside : Bool} {p : Line} (quiet : heeded inside p = false)
    (a : LunaApp) : readLine (inside, a) p = (inside, a) := by
  rw [heeded] at quiet
  rw [readLine]
  by_cases top : p.head? = some bracket
  · rw [if_pos top, bne_eq_false_iff_eq] at quiet
    rw [if_pos top, ← quiet]
    by_cases same : p = header <;> simp [same]
  · have other : p ≠ header := by
      rintro rfl
      exact top header_head
    rw [if_neg top] at quiet
    rw [if_neg other, if_neg top]
    cases inside with
    | false => rfl
    | true =>
        have unset (f : Field) (held : f ∈ [Field.name, .exec, .iconName]) : p.take 5 ≠ f.key := by
          rw [Bool.true_and, List.any_eq_false] at quiet
          exact fun named => quiet f held ((isPrefixOf_key_iff f p).mpr named)
        simp only [LunaApp.readKeys, List.foldl_cons, List.foldl_nil, LunaApp.readKey,
          if_neg (unset _ _), List.mem_cons, true_or, or_true, if_true]

theorem readLine_take {line : Line} (long : 511 < line.length) (st : Bool × LunaApp) :
    readLine st (line.take 511) = readLine st line := by
  obtain ⟨inside, a⟩ := st
  have short : header.length = 15 := by decide
  have full : (line.take 511).length = 511 := List.length_take_of_le (Nat.le_of_lt long)
  have other : line ≠ header := by
    rintro rfl
    omega
  have other' : line.take 511 ≠ header := by
    intro same
    rw [same] at full
    omega
  have head : (line.take 511).head? = line.head? := by
    cases line <;> rfl
  have keys : a.readKeys (line.take 511) = a.readKeys line := by
    have room (f : Field) : min f.size (511 - 5) = f.size := by cases f <;> rfl
    have key (a : LunaApp) (f : Field) :
        LunaApp.readKey (line.take 511) a f = LunaApp.readKey line a f := by
      simp only [LunaApp.readKey, List.take_take, List.drop_take, room, Nat.reduceLeDiff,
        Nat.min_eq_left]
    simp only [LunaApp.readKeys, List.foldl_cons, List.foldl_nil, key]
  rw [readLine, readLine, if_neg other, if_neg other', head, keys]

theorem foldl_broken {line : Line} {st : Bool × LunaApp}
    (quiet : ∀ p ∈ (broken 511 line).tail, heeded (readLine st line).1 p = false) :
    (broken 511 line).foldl readLine st = readLine st line := by
  have idle (rows : List Line) (st : Bool × LunaApp)
      (still : ∀ p ∈ rows, heeded st.1 p = false) : rows.foldl readLine st = st := by
    induction rows with
    | nil => rfl
    | cons row rows ih =>
        rw [List.foldl_cons, readLine_unheeded (still row List.mem_cons_self)]
        exact ih fun p held => still p (List.mem_cons_of_mem row held)
  by_cases long : 0 < 511 ∧ 511 < line.length
  · rw [broken, if_pos long] at quiet ⊢
    rw [List.tail_cons] at quiet
    rw [List.foldl_cons, readLine_take long.2, idle _ _ quiet]
  · rw [broken, if_neg long]
    rfl

theorem foldl_unheeded {group : Option Line} {rows : List Line} (quiet : Unheeded group rows)
    (a : LunaApp) :
    (rows.flatMap (broken 511)).foldl readLine (decide (group = some header), a) =
      rows.foldl readLine (decide (group = some header), a) := by
  induction rows generalizing group a with
  | nil => rfl
  | cons line rest ih =>
      have next := readLine_group group a line
      rw [List.flatMap_cons, List.foldl_append, List.foldl_cons, foldl_broken (next ▸ quiet.1)]
      have step := ih quiet.2 (readLine (decide (group = some header), a) line).2
      rwa [← next] at step

/-- A file is read right where nothing behind the 511th byte of a line is taken for a line. -/
theorem reads_lines_of_unheeded (nul_free : 0 ∉ content)
    (quiet : Unheeded none (lines content)) : ReadsLines content := by
  intro f
  have unbroken := foldl_unheeded quiet cleared
  rw [decide_eq_false nofun] at unbroken
  rw [get_readEntry nul_free, ← get_foldl_start, ← get_foldl_start, wrapped, unbroken]

def plainComment : Line :=
  bytes "[Desktop Entry]\nName=Notes\nComment=" ++ List.replicate 593 120 ++ bytes "\nExec=notes\n"

theorem reads_lines_of_unheeded_long :
    ReadsLines plainComment ∧ (readEntry cleared plainComment).exec = bytes "notes" :=
  ⟨reads_lines_of_unheeded (by decide +kernel) (by decide +kernel), by decide +kernel⟩

/-- A comment of one line whose 512th byte starts a command. -/
def longComment : Line :=
  bytes "[Desktop Entry]\nName=Notes\nExec=notes\nComment=" ++ List.replicate 503 120 ++
    bytes "Exec=rm -r ~\n"

/-- The comment's command is what is run. -/
theorem comment_is_run :
    0 ∉ longComment ∧ value .exec (lines longComment) = bytes "notes" ∧
      (readEntry cleared longComment).exec = bytes "rm -r ~" ∧ ¬ ReadsLines longComment := by
  have said : value .exec (lines longComment) = bytes "notes" := by decide +kernel
  have read : (readEntry cleared longComment).exec = bytes "rm -r ~" := by decide +kernel
  refine ⟨by decide +kernel, said, read, fun right => ?_⟩
  have same := right .exec
  rw [said] at same
  exact absurd (read.symm.trans same) (by decide)

end

/-! Field codes. -/

def percent : UInt8 := 37

def isSpace (b : UInt8) : Bool :=
  b = 32 ∨ 9 ≤ b ∧ b ≤ 13

/-- With `pct` the first percent sign, `*(pct - 1) = 0` unless it is the first byte. -/
def stripFieldCodes (exec : Line) : Line :=
  match exec.idxOf? percent with
  | some pct => if 0 < pct then exec.take (pct - 1) else exec
  | none => exec

/-- What is left in the slot of an application once its file was read. -/
def loadFile (content : Line) : LunaApp :=
  let a := readEntry cleared content
  { a with exec := stripFieldCodes a.exec }

def command (exec : Line) : Line :=
  exec.takeWhile (· ≠ percent)

/-- Of a value with field codes, at most white space goes with them. -/
structure KeepsCommand (exec stored : Line) : Prop where
  plain : percent ∉ exec → stored = exec
  coded : percent ∈ exec → ∃ spaces, (∀ b ∈ spaces, isSpace b) ∧ command exec = stored ++ spaces
  free : percent ∉ stored

def SpacedCode (exec : Line) : Prop :=
  percent ∈ exec → ∃ b, (command exec).getLast? = some b ∧ isSpace b

theorem percent_not_mem_command (exec : Line) : percent ∉ command exec := by
  intro held
  have kept := List.all_eq_true.mp List.all_takeWhile percent held
  exact of_decide_eq_true kept rfl

theorem idxOf?_percent {exec : Line} (coded : percent ∈ exec) :
    exec.idxOf? percent = some (command exec).length := by
  induction exec with
  | nil => cases coded
  | cons b exec ih =>
      rw [List.idxOf?_cons]
      by_cases here : b = percent
      · simp [command, here]
      · have later := ih ((List.mem_cons.mp coded).resolve_left (Ne.symm here))
        simp [command, here, later]

/-- Where there is a field code, the last byte of the command goes. -/
theorem stripFieldCodes_of_mem {exec : Line} (coded : percent ∈ exec) :
    stripFieldCodes exec = if command exec = [] then exec else (command exec).dropLast := by
  have front : command exec = exec.take (command exec).length :=
    List.prefix_iff_eq_take.mp (List.takeWhile_prefix _)
  rw [stripFieldCodes, idxOf?_percent coded]
  by_cases empty : command exec = []
  · simp [empty]
  · have pos : 0 < (command exec).length := List.length_pos_iff.mpr empty
    simp only [if_pos pos, if_neg empty]
    calc exec.take ((command exec).length - 1)
        = (exec.take (command exec).length).take ((command exec).length - 1) := by
          rw [List.take_take, Nat.min_eq_left (Nat.sub_le _ _)]
      _ = (command exec).take ((command exec).length - 1) := by rw [← front]
      _ = (command exec).dropLast := List.dropLast_eq_take.symm

theorem keepsCommand_iff (exec : Line) :
    KeepsCommand exec (stripFieldCodes exec) ↔ SpacedCode exec := by
  by_cases coded : percent ∈ exec
  · rw [stripFieldCodes_of_mem coded]
    by_cases empty : command exec = []
    · rw [if_pos empty]
      constructor
      · intro kept
        exact absurd coded kept.free
      · intro spaced
        obtain ⟨b, last, _⟩ := spaced coded
        rw [empty] at last
        cases last
    · rw [if_neg empty]
      have split := List.dropLast_append_getLast empty
      have last := List.getLast?_eq_some_getLast empty
      constructor
      · intro kept _
        obtain ⟨spaces, white, whole⟩ := kept.coded coded
        have same : [(command exec).getLast empty] = spaces :=
          List.append_cancel_left (split.trans whole)
        refine ⟨_, last, white _ ?_⟩
        rw [← same]
        exact List.mem_cons_self
      · intro spaced
        obtain ⟨b, here, white⟩ := spaced coded
        obtain rfl := Option.some.inj (last.symm.trans here)
        refine ⟨fun plain => absurd coded plain, fun _ => ⟨[_], ?_, split.symm⟩, ?_⟩
        · intro b held
          rw [List.mem_singleton.mp held]
          exact white
        · exact fun held => percent_not_mem_command exec (List.dropLast_subset _ held)
  · have kept : stripFieldCodes exec = exec := by
      rw [stripFieldCodes, List.idxOf?_eq_none_iff.mpr coded]
    rw [kept]
    exact ⟨fun _ here => absurd here coded, fun _ =>
      ⟨fun _ => rfl, fun here => absurd here coded, coded⟩⟩

/-- Every value that fits the field is that of some file. -/
theorem exists_content_of_exec {exec : Line} (fits : exec.length ≤ 255) (nul_free : 0 ∉ exec)
    (one_line : newline ∉ exec) : ∃ content, (readEntry cleared content).exec = exec := by
  let row := bytes "Exec=" ++ exec
  have free : newline ∉ row := by
    rw [List.mem_append, not_or]
    exact ⟨by decide, one_line⟩
  have rows : lines (header ++ newline :: row) = [header, row] := by
    rw [lines, List.splitOn_append_cons_self_of_not_mem (by decide),
      List.splitOn_eq_singleton free]
  have plain : 0 ∉ header ++ newline :: row := by
    rw [List.mem_append, List.mem_cons, List.mem_append, not_or, not_or, not_or]
    exact ⟨by decide, by decide, by decide, nul_free⟩
  have length : row.length = 5 + exec.length := List.length_append
  have unbroken : wrapped (header ++ newline :: row) = [header, row] := by
    rw [wrapped, rows, List.flatMap_cons, List.flatMap_singleton,
      broken_of_length_le (by decide), broken_of_length_le (by omega)]
    rfl
  have entries : entryLines none [header, row] = [row] := by
    have top : row.head? = some 69 := rfl
    rw [entryLines, if_pos header_head, entryLines, top, if_neg (by decide), if_pos rfl, entryLines]
  have named : Field.exec.key.isPrefixOf row :=
    (isPrefixOf_key_iff .exec row).mpr (List.take_left' rfl)
  have last : value .exec [header, row] = exec := by
    rw [value, entries, List.filter_cons_of_pos named]
    exact List.drop_left' rfl
  have read := get_readEntry plain .exec
  rw [unbroken, last] at read
  exact ⟨_, read.trans (List.take_of_length_le fits)⟩

/-- What is stored keeps the command exactly where white space stands before the field code. -/
theorem load_keeps_command_iff (content : Line) :
    KeepsCommand (readEntry cleared content).exec (loadFile content).exec ↔
      SpacedCode (readEntry cleared content).exec :=
  keepsCommand_iff _

/-- With no white space before the field code, the command loses a byte. -/
theorem command_loses_byte :
    (readEntry cleared (bytes "[Desktop Entry]\nName=Foo\nExec=foo%u\n")).exec = bytes "foo%u" ∧
      (loadFile (bytes "[Desktop Entry]\nName=Foo\nExec=foo%u\n")).exec = bytes "fo" ∧
      ¬ KeepsCommand (bytes "foo%u") (bytes "fo") := by
  refine ⟨by decide +kernel, by decide +kernel, fun kept => ?_⟩
  obtain ⟨spaces, white, whole⟩ := kept.coded (by decide)
  have dropped : spaces = bytes "o" := (List.append_cancel_left (whole.symm.trans (by decide)))
  exact absurd (white 111 (dropped ▸ by decide)) (by decide)

/-- A field code at the start stays. -/
example :
    (loadFile (bytes "[Desktop Entry]\nName=Foo\nExec=%u\n")).exec = bytes "%u" ∧
      ¬ KeepsCommand (bytes "%u") (bytes "%u") :=
  ⟨by decide +kernel, fun kept => kept.free (by decide)⟩

end LunaOS.Shell
