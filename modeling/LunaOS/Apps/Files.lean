import LunaOS.Lib.CStrings
import Mathlib.Data.List.Forall2
import Mathlib.Data.Prod.Lex
import Mathlib.Algebra.Order.BigOperators.Group.List

/-!
`load_dir` of the file manager: the records are filled in place from the entries of a directory
and sorted. `qsort` and `stat` are parameters, and `opendir` answers with the names of the
entries in the order of `readdir`.

Left out: the Wayland objects and `running`, which the function does not use.
-/
namespace LunaOS.Apps
open CStrings Comparators

def maxFiles : Nat := 4096

structure Stat where
  mode : UInt16
  size : Int
  mtime : Int

def sIsDir (mode : UInt16) : Int :=
  if mode &&& 0xF000 = 0x4000 then 1 else 0

theorem sIsDir_eq (mode : UInt16) : sIsDir mode = 0 ∨ sIsDir mode = 1 := by
  rw [sIsDir]
  split
  · exact Or.inr rfl
  · exact Or.inl rfl

structure FileEntry where
  name : Chars 256
  path : Chars 512
  isDir : Int
  size : Int
  mtime : Int
  isDir_eq : isDir = 0 ∨ isDir = 1

structure FilesApp where
  cwd : Chars 512
  files : List FileEntry
  fileCount : Nat
  selected : Nat
  scroll : Nat
  length_files : files.length = maxFiles

def cmpEntries (fa fb : FileEntry) : Int :=
  if fa.isDir ≠ fb.isDir then if fa.isDir ≠ 0 then -1 else 1
  else strcasecmp fa.name.text.1 fb.name.text.1

def dot : CString :=
  ⟨[46], by decide⟩

/-- The path of an entry, as `"%s/%s"` prints it. -/
def joined (path name : CString) : CString :=
  ⟨path.1 ++ 47 :: name.1, by
    rw [List.mem_append, List.mem_cons, not_or, not_or]
    exact ⟨path.2, by decide, name.2⟩⟩

namespace FileEntry

def named (path name : CString) (e : FileEntry) : FileEntry :=
  { e with
    name := e.name.strncpy name.1 255 (by decide)
    path := e.path.snprintf (joined path name).1 511 (by decide) (by decide) }

def stated (found : Option Stat) (e : FileEntry) : FileEntry :=
  match found with
  | some st =>
      { e with
        isDir := sIsDir st.mode
        size := st.size
        mtime := st.mtime
        isDir_eq := sIsDir_eq st.mode }
  | none => e

def read (stat : CString → Option Stat) (path name : CString) (e : FileEntry) : FileEntry :=
  (e.named path name).stated (stat (e.named path name).path.text)

def zero : FileEntry where
  name := Chars.zero 256 (by decide)
  path := Chars.zero 512 (by decide)
  isDir := 0
  size := 0
  mtime := 0
  isDir_eq := Or.inl rfl

end FileEntry

/-! The comparator. -/

def sortKey (e : FileEntry) : Int ×ₗ List Nat :=
  toLex (1 - e.isDir, lowered e.name.text.1)

theorem cmpEntries_byKey : ByKey cmpEntries sortKey fun _ => True := by
  intro a b _ _
  rw [sortKey, sortKey, Prod.Lex.toLex_lt_toLex, Prod.Lex.toLex_lt_toLex, cmpEntries]
  have names := strcasecmp_byKey a.name.text.1 b.name.text.1 a.name.text.2 b.name.text.2
  by_cases same : a.isDir = b.isDir
  · simpa [same] using names
  · have := a.isDir_eq
    have := b.isDir_eq
    have apart : (1 : Int) - a.isDir ≠ 1 - b.isDir := by omega
    simp only [same, apart, apart.symm, ne_eq, not_false_eq_true, false_and, or_false, if_true]
    split <;> omega

/-- The comparator is a total preorder. -/
theorem cmpEntries_consistent : ConsistentOn cmpEntries fun _ => True :=
  cmpEntries_byKey.consistentOn

namespace FilesApp

def add (stat : CString → Option Stat) (path name : CString) (app : FilesApp) : FilesApp :=
  { app with
    files := app.files.modify app.fileCount (·.read stat path name)
    fileCount := app.fileCount + 1
    length_files := by rw [List.length_modify, app.length_files] }

/-- `while ((ent = readdir(d)) && app->file_count < MAX_FILES)`. -/
def readEntries (stat : CString → Option Stat) (path : CString) :
    FilesApp → List CString → FilesApp
  | app, [] => app
  | app, ent :: rest =>
      if app.fileCount < maxFiles then
        if ent = dot then app.readEntries stat path rest
        else (app.add stat path ent).readEntries stat path rest
      else app

def listing (app : FilesApp) : List FileEntry :=
  app.files.take app.fileCount

/-- `qsort(app->files, app->file_count, sizeof(FileEntry), cmp_entries)`. -/
def sortFiles (qsort : Sorter) (app : FilesApp) : FilesApp :=
  { app with
    files := qsort.sort cmpEntries app.listing ++ app.files.drop app.fileCount
    length_files := by
      rw [List.length_append,
        (qsort.perm (cmpEntries_consistent.mono fun _ _ => trivial)).length_eq, listing,
        ← List.length_append, List.take_append_drop, app.length_files] }

/-- `load_dir`; `dir` holds the names of the entries, where `opendir` succeeds. -/
def loadDir (qsort : Sorter) (stat : CString → Option Stat) (path : CString)
    (dir : Option (List CString)) (app : FilesApp) : FilesApp :=
  match dir with
  | none => app
  | some names =>
      let app := { app with
        cwd := app.cwd.strncpy path.1 511 (by decide)
        fileCount := 0
        selected := 0
        scroll := 0 }
      (app.readEntries stat path names).sortFiles qsort

/-- `FilesApp app = { .running = true }`. -/
def start : FilesApp where
  cwd := Chars.zero 512 (by decide)
  files := List.replicate maxFiles FileEntry.zero
  fileCount := 0
  selected := 0
  scroll := 0
  length_files := List.length_replicate

end FilesApp

/-! What the loop leaves. -/

/-- The entries of the directory other than `.`. -/
def others (names : List CString) : List CString :=
  names.filter (· ≠ dot)

theorem others_cons_of_dot {ent : CString} (skipped : ent = dot) (rest : List CString) :
    others (ent :: rest) = others rest :=
  List.filter_cons_of_neg (by simpa using skipped)

theorem others_cons {ent : CString} (listed : ent ≠ dot) (rest : List CString) :
    others (ent :: rest) = ent :: others rest :=
  List.filter_cons_of_pos (by simpa using listed)

def entryName (name : CString) : CString :=
  ⟨name.1.take 255, fun held => name.2 (List.mem_of_mem_take held)⟩

def entryPath (path name : CString) : CString :=
  ⟨(joined path name).1.take 510, fun held => (joined path name).2 (List.mem_of_mem_take held)⟩

/-- What is shown of a record. -/
structure Row where
  name : CString
  path : CString
  isDir : Int
  size : Int
  mtime : Int
  deriving DecidableEq

namespace Row

def stated (found : Option Stat) (r : Row) : Row :=
  match found with
  | some st => { r with isDir := sIsDir st.mode, size := st.size, mtime := st.mtime }
  | none => r

end Row

namespace FileEntry

def row (e : FileEntry) : Row where
  name := e.name.text
  path := e.path.text
  isDir := e.isDir
  size := e.size
  mtime := e.mtime

theorem text_name_named (path name : CString) (e : FileEntry) :
    (e.named path name).name.text = entryName name :=
  Subtype.ext (Chars.text_strncpy _ name.2)

theorem text_path_named (path name : CString) (e : FileEntry) :
    (e.named path name).path.text = entryPath path name :=
  Subtype.ext (Chars.text_snprintf _ (joined path name).2 (by decide) (by decide))

theorem row_stated (found : Option Stat) (e : FileEntry) :
    (e.stated found).row = e.row.stated found := by
  cases found <;> rfl

/-- Of the old record, a new one shows what `stat` did not say. -/
theorem row_read (stat : CString → Option Stat) (path name : CString) (e : FileEntry) :
    (e.read stat path name).row =
      { e.row with name := entryName name, path := entryPath path name }.stated
        (stat (entryPath path name)) := by
  rw [read, row_stated, text_path_named, row, text_name_named, text_path_named]
  rfl

end FileEntry

namespace FilesApp

theorem listing_add (stat : CString → Option Stat) (path name : CString) {app : FilesApp}
    (room : app.fileCount < app.files.length) :
    (app.add stat path name).listing =
      app.listing ++ [app.files[app.fileCount].read stat path name] := by
  have before : (app.files.take app.fileCount).length = app.fileCount :=
    List.length_take_of_le (Nat.le_of_lt room)
  change (app.files.modify app.fileCount _).take (app.fileCount + 1) = _
  rw [List.modify_eq_take_cons_drop room, List.take_append, before, Nat.add_sub_cancel_left,
    List.take_of_length_le (by omega), List.take_succ_cons, List.take_zero]
  rfl

theorem drop_add (stat : CString → Option Stat) (path name : CString) (app : FilesApp) :
    (app.add stat path name).files.drop (app.fileCount + 1) =
      app.files.drop (app.fileCount + 1) :=
  List.drop_modify_of_lt _ _ _ _ app.fileCount.lt_add_one

/-- The records are filled in the order of the entries, as long as there are any. -/
theorem listing_readEntries (stat : CString → Option Stat) (path : CString)
    (names : List CString) (app : FilesApp) :
    (app.readEntries stat path names).listing =
      app.listing ++ List.zipWith (fun e name => e.read stat path name)
        (app.files.drop app.fileCount) (others names) := by
  induction names generalizing app with
  | nil => simp [readEntries, others]
  | cons ent rest ih =>
      rw [readEntries]
      by_cases room : app.fileCount < maxFiles
      · rw [if_pos room]
        by_cases skipped : ent = dot
        · rw [if_pos skipped, ih, others_cons_of_dot skipped]
        · have room : app.fileCount < app.files.length := app.length_files ▸ room
          rw [if_neg skipped, ih, listing_add stat path ent room, others_cons skipped]
          rw [List.drop_eq_getElem_cons room, List.zipWith_cons_cons, List.append_assoc]
          rw [show (app.add stat path ent).fileCount = app.fileCount + 1 from rfl, drop_add]
          rfl
      · have full : app.files.drop app.fileCount = [] := by
          rw [List.drop_eq_nil_iff, app.length_files]
          exact Nat.not_lt.mp room
        rw [if_neg room, full, List.zipWith_nil_left, List.append_nil]

theorem fileCount_readEntries (stat : CString → Option Stat) (path : CString)
    (names : List CString) {app : FilesApp} (fits : app.fileCount ≤ maxFiles) :
    (app.readEntries stat path names).fileCount =
      min maxFiles (app.fileCount + (others names).length) := by
  induction names generalizing app with
  | nil => exact (Nat.min_eq_right fits).symm
  | cons ent rest ih =>
      rw [readEntries]
      by_cases room : app.fileCount < maxFiles
      · rw [if_pos room]
        by_cases skipped : ent = dot
        · rw [if_pos skipped, ih fits, others_cons_of_dot skipped]
        · have added : (app.add stat path ent).fileCount ≤ maxFiles := room
          rw [if_neg skipped, ih added, others_cons skipped, List.length_cons,
            Nat.add_comm _ 1, ← Nat.add_assoc]
          rfl
      · rw [if_neg room]
        omega

theorem cwd_readEntries (stat : CString → Option Stat) (path : CString)
    (names : List CString) (app : FilesApp) :
    (app.readEntries stat path names).cwd = app.cwd := by
  induction names generalizing app with
  | nil => rfl
  | cons ent rest ih =>
      rw [readEntries]
      split
      · split
        · exact ih app
        · exact ih (app.add stat path ent)
      · rfl

/-- The records of the listing before it is sorted. -/
def records (stat : CString → Option Stat) (path : CString) (names : List CString)
    (app : FilesApp) : List FileEntry :=
  List.zipWith (fun e name => e.read stat path name) app.files (others names)

theorem length_records (stat : CString → Option Stat) (path : CString) (names : List CString)
    (app : FilesApp) :
    (app.records stat path names).length = min maxFiles (others names).length := by
  rw [records, List.length_zipWith, app.length_files]

theorem listing_sortFiles (qsort : Sorter) {app : FilesApp}
    (counted : app.listing.length = app.fileCount) :
    (app.sortFiles qsort).listing = qsort.sort cmpEntries app.listing := by
  have perm := qsort.perm (cmpEntries_consistent.mono (q := (· ∈ app.listing)) fun _ _ => trivial)
  change (qsort.sort cmpEntries app.listing ++ _).take app.fileCount = _
  rw [← counted, ← perm.length_eq, List.take_left]

/-- The listing is that of the records, sorted. -/
theorem loadDir_some (qsort : Sorter) (stat : CString → Option Stat) (path : CString)
    (names : List CString) (app : FilesApp) :
    let loaded := app.loadDir qsort stat path (some names)
    loaded.listing = qsort.sort cmpEntries (app.records stat path names) ∧
      loaded.fileCount = min maxFiles (others names).length ∧
      loaded.cwd.text.1 = path.1.take 511 := by
  let fresh : FilesApp := { app with
    cwd := app.cwd.strncpy path.1 511 (by decide)
    fileCount := 0
    selected := 0
    scroll := 0 }
  have listed : (fresh.readEntries stat path names).listing = app.records stat path names := by
    rw [listing_readEntries]
    rfl
  have counted : (fresh.readEntries stat path names).fileCount =
      min maxFiles (others names).length := by
    rw [fileCount_readEntries stat path names (Nat.zero_le maxFiles)]
    exact congrArg (min maxFiles) (Nat.zero_add _)
  refine ⟨?_, counted, ?_⟩
  · change ((fresh.readEntries stat path names).sortFiles qsort).listing = _
    rw [listing_sortFiles, listed]
    rw [listed, counted, length_records]
  · change (fresh.readEntries stat path names).cwd.text.1 = _
    rw [cwd_readEntries]
    exact Chars.text_strncpy _ path.2

end FilesApp

/-! The order of a listing. -/

/-- `e` is a record of the entry `name`; where `stat` fails, only the name and the path are. -/
structure IsRecord (stat : CString → Option Stat) (path name : CString) (e : FileEntry) :
    Prop where
  name_eq : e.name.text = entryName name
  path_eq : e.path.text = entryPath path name
  stated : ∀ st, stat (entryPath path name) = some st →
    e.isDir = sIsDir st.mode ∧ e.size = st.size ∧ e.mtime = st.mtime

/-- Directories come first, and names within a group in the order of their lower case. -/
def InOrder (a b : FileEntry) : Prop :=
  (b.isDir = 1 → a.isDir = 1) ∧
    (a.isDir = b.isDir → lowered a.name.text.1 ≤ lowered b.name.text.1)

theorem inOrder_of_cmpEntries {a b : FileEntry} (below : cmpEntries a b ≤ 0) : InOrder a b := by
  rw [cmpEntries] at below
  by_cases same : a.isDir = b.isDir
  · rw [if_neg (not_not.mpr same)] at below
    have names := (strcasecmp_byKey.le_iff a.name.text.2 b.name.text.2).mp below
    exact ⟨fun dir => same.trans dir, fun _ => names⟩
  · rw [if_pos same] at below
    refine ⟨fun _ => ?_, fun equal => absurd equal same⟩
    have := a.isDir_eq
    split at below <;> omega

theorem isRecord_read (stat : CString → Option Stat) (path name : CString) (e : FileEntry) :
    IsRecord stat path name (e.read stat path name) := by
  have row := FileEntry.row_read stat path name e
  cases found : stat (entryPath path name) with
  | none =>
      rw [found] at row
      refine ⟨congrArg Row.name row, congrArg Row.path row, fun st said => ?_⟩
      rw [found] at said
      cases said
  | some st =>
      rw [found] at row
      refine ⟨congrArg Row.name row, congrArg Row.path row, fun st' said => ?_⟩
      obtain rfl := Option.some.inj (found.symm.trans said)
      exact ⟨congrArg Row.isDir row, congrArg Row.size row, congrArg Row.mtime row⟩

theorem forall₂_zipWith {α β γ : Type} {R : β → γ → Prop} {f : α → β → γ}
    (related : ∀ a b, R b (f a b)) (as : List α) (bs : List β) :
    List.Forall₂ R (bs.take as.length) (List.zipWith f as bs) := by
  induction as generalizing bs with
  | nil => exact List.Forall₂.nil
  | cons a as ih =>
      cases bs with
      | nil => exact List.Forall₂.nil
      | cons b bs => exact List.Forall₂.cons (related a b) (ih bs)

/-- A listing is sorted and holds a record of each of the first 4096 entries. Where the
directory does not open, nothing changes. -/
theorem loadDir_lists_entries (qsort : Sorter) (stat : CString → Option Stat) (path : CString)
    (app : FilesApp) :
    ConsistentOn cmpEntries (fun _ => True) ∧
      app.loadDir qsort stat path none = app ∧
      ∀ names, let loaded := app.loadDir qsort stat path (some names)
        loaded.fileCount = min maxFiles (others names).length ∧
          loaded.listing.Pairwise InOrder ∧
          ∃ records, loaded.listing.Perm records ∧
            List.Forall₂ (IsRecord stat path) ((others names).take maxFiles) records := by
  refine ⟨cmpEntries_consistent, rfl, fun names => ?_⟩
  obtain ⟨listed, counted, _⟩ := FilesApp.loadDir_some qsort stat path names app
  have consistent : ConsistentOn cmpEntries (· ∈ app.records stat path names) :=
    cmpEntries_consistent.mono fun _ _ => trivial
  refine ⟨counted, ?_, app.records stat path names, ?_, ?_⟩
  · rw [listed]
    exact (qsort.sorted consistent).imp inOrder_of_cmpEntries
  · rw [listed]
    exact qsort.perm consistent
  · rw [← app.length_files]
    exact forall₂_zipWith (fun e name => isRecord_read stat path name e) ..

/-- A directory with `.`, the file `b`, the directory `z` and the file `A`: the directory comes
first, and capitals make no difference. -/
theorem loadDir_lists_entries_mixed :
    let path : CString := ⟨[47], by decide⟩
    let names : List CString :=
      [dot, ⟨[98], by decide⟩, ⟨[122], by decide⟩, ⟨[65], by decide⟩]
    let stat (p : CString) : Option Stat :=
      some ⟨if p.1.getLast? = some 122 then 0x41ED else 0x81A4, 1, 0⟩
    let loaded := FilesApp.start.loadDir mergeSorter stat path (some names)
    let shown (e : FileEntry) := (e.isDir, e.name.text.1)
    loaded.fileCount = 3 ∧ loaded.listing.Pairwise InOrder ∧
      loaded.listing.map shown = [(1, [122]), (0, [65]), (0, [98])] := by
  intro path names stat loaded shown
  obtain ⟨_, _, lists⟩ := loadDir_lists_entries mergeSorter stat path FilesApp.start
  obtain ⟨counted, ordered, _⟩ := lists names
  obtain ⟨listed, _, _⟩ := FilesApp.loadDir_some mergeSorter stat path names FilesApp.start
  have three : min maxFiles (others names).length = 3 := by decide
  refine ⟨counted.trans three, ordered, ?_⟩
  let cmp (a b : Int × List UInt8) : Int :=
    if a.1 ≠ b.1 then if a.1 ≠ 0 then -1 else 1 else strcasecmp a.2 b.2
  have read : (FilesApp.start.records stat path names).map shown =
      [(0, [98]), (1, [122]), (0, [65])] := by
    decide +kernel
  have sorted : loaded.listing.map shown =
      mergeSorter.sort cmp [(0, [98]), (1, [122]), (0, [65])] := by
    rw [← read]
    exact (congrArg (List.map shown) listed).trans (mergeSorter.map shown fun _ _ _ _ => rfl)
  rw [sorted]
  have first : cmp (0, [98]) (1, [122]) = 1 := by decide
  have second : cmp (0, [98]) (0, [65]) = 1 := by decide
  have third : cmp (1, [122]) (0, [65]) = -1 := by decide
  simp [mergeSorter, List.mergeSort, List.MergeSort.Internal.splitInTwo, first, second, third]

/-! What a listing depends on. -/

structure View where
  cwd : CString
  fileCount : Nat
  rows : List Row
  deriving DecidableEq

/-- A call of `load_dir`, with what the files are at the time. -/
structure Visit where
  stat : CString → Option Stat
  path : CString
  dir : Option (List CString)

def cmpRows (a b : Row) : Int :=
  if a.isDir ≠ b.isDir then if a.isDir ≠ 0 then -1 else 1 else strcasecmp a.name.1 b.name.1

theorem cmpEntries_row {l : List FileEntry} :
    ∀ a ∈ l, ∀ b ∈ l, cmpEntries a b = cmpRows a.row b.row :=
  fun _ _ _ _ => rfl

namespace FilesApp

def view (app : FilesApp) : View where
  cwd := app.cwd.text
  fileCount := app.fileCount
  rows := app.listing.map FileEntry.row

def visits (qsort : Sorter) (app : FilesApp) (history : List Visit) : FilesApp :=
  history.foldl (fun app v => app.loadDir qsort v.stat v.path v.dir) app

theorem view_loadDir (qsort : Sorter) (stat : CString → Option Stat) (path : CString)
    (names : List CString) (app : FilesApp) :
    (app.loadDir qsort stat path (some names)).view =
      { cwd := ⟨path.1.take 511, fun held => path.2 (List.mem_of_mem_take held)⟩
        fileCount := min maxFiles (others names).length
        rows := qsort.sort cmpRows ((app.records stat path names).map FileEntry.row) } := by
  obtain ⟨listed, counted, cwd⟩ := loadDir_some qsort stat path names app
  rw [view, listed, counted, qsort.map FileEntry.row cmpEntries_row]
  exact congrArg (View.mk · _ _) (Subtype.ext cwd)

end FilesApp

theorem zipWith_eq_map {α β γ : Type} {f : α → β → γ} {g : β → γ} (as : List α) (bs : List β)
    (same : ∀ a ∈ as.take bs.length, ∀ b ∈ bs.take as.length, f a b = g b) :
    List.zipWith f as bs = (bs.take as.length).map g := by
  induction as generalizing bs with
  | nil => rfl
  | cons a as ih =>
      cases bs with
      | nil => rfl
      | cons b bs =>
          rw [List.zipWith_cons_cons, List.length_cons, List.take_succ_cons, List.map_cons,
            same a List.mem_cons_self b List.mem_cons_self]
          rw [ih bs fun a' ha b' hb => same a' (List.mem_cons_of_mem _ ha) b'
            (List.mem_cons_of_mem _ hb)]

def AllStated (stat : CString → Option Stat) (path : CString) (names : List CString) : Prop :=
  ∀ name ∈ (others names).take maxFiles, (stat (entryPath path name)).isSome

/-- The row of an entry in a record that was empty. -/
def freshRow (stat : CString → Option Stat) (path name : CString) : Row :=
  { name := entryName name, path := entryPath path name, isDir := 0, size := 0, mtime := 0 : Row
    }.stated (stat (entryPath path name))

/-- An entry whose `stat` succeeds takes nothing from the old record. -/
theorem row_read_of_isSome {stat : CString → Option Stat} {path name : CString}
    (found : (stat (entryPath path name)).isSome) (e : FileEntry) :
    (e.read stat path name).row = freshRow stat path name := by
  obtain ⟨st, found⟩ := Option.isSome_iff_exists.mp found
  rw [FileEntry.row_read, freshRow, found]
  rfl

theorem rows_of_allStated {stat : CString → Option Stat} {path : CString} {names : List CString}
    (all : AllStated stat path names) (app : FilesApp) :
    (app.records stat path names).map FileEntry.row =
      ((others names).take maxFiles).map (freshRow stat path) := by
  rw [FilesApp.records, List.map_zipWith, zipWith_eq_map (g := freshRow stat path),
    app.length_files]
  rw [app.length_files]
  exact fun e _ name held => row_read_of_isSome (all name held) e

/-- Where the old records have the size `c`, an entry whose `stat` fails is shown with it. -/
theorem sizes_loadDir (qsort : Sorter) (stat : CString → Option Stat) (path : CString)
    (names : List CString) {app : FilesApp} {c : Int}
    (old : ∀ e ∈ app.files.take (others names).length, e.size = c) :
    ((app.loadDir qsort stat path (some names)).view.rows.map Row.size).sum =
      (((others names).take maxFiles).map fun name =>
        ((stat (entryPath path name)).map Stat.size).getD c).sum := by
  have perm := qsort.perm (cmpEntries_consistent.mono (q := (· ∈ app.records stat path names))
    fun _ _ => trivial)
  obtain ⟨listed, _⟩ := FilesApp.loadDir_some qsort stat path names app
  rw [FilesApp.view, listed, ((perm.map FileEntry.row).map Row.size).sum_eq, FilesApp.records,
    List.map_zipWith, List.map_zipWith, zipWith_eq_map, app.length_files]
  intro e held name _
  rw [FileEntry.row_read]
  cases stat (entryPath path name) with
  | none => exact old e held
  | some st => rfl

/-- Loaded before, when `stat` succeeded for every entry with a size of one. -/
def earlier (path : CString) (names : List CString) : Visit where
  stat _ := some { mode := 0, size := 1, mtime := 0 }
  path := path
  dir := some names

theorem size_of_mem_earlier (qsort : Sorter) (path : CString) (names : List CString)
    (app : FilesApp) :
    ∀ e ∈ (app.visits qsort [earlier path names]).files.take (others names).length,
      e.size = 1 := by
  intro e held
  obtain ⟨listed, counted, _⟩ :=
    FilesApp.loadDir_some qsort (earlier path names).stat path names app
  have shown : e ∈ (app.loadDir qsort (earlier path names).stat path (some names)).listing := by
    rw [FilesApp.listing, counted, ← FilesApp.length_files, Nat.min_comm, ← List.take_eq_take_min]
    exact held
  rw [listed, (qsort.perm (cmpEntries_consistent.mono fun _ _ => trivial)).mem_iff,
    FilesApp.records, ← List.map_uncurry_zip_eq_zipWith, List.mem_map] at shown
  obtain ⟨_, _, rfl⟩ := shown
  rfl

/-- A sum that does not depend on what stands for a missing value has none. -/
theorem isSome_of_sum_eq {α : Type} {f : α → Option Int} {l : List α}
    (same : (l.map fun a => (f a).getD 0).sum = (l.map fun a => (f a).getD 1).sum) :
    ∀ a ∈ l, (f a).isSome := by
  intro a held
  by_contra missing
  refine (List.sum_lt_sum (fun a => (f a).getD 0) (fun a => (f a).getD 1) ?_ ?_).ne same
  · intro b _
    cases f b with
    | none => exact Int.zero_le_ofNat 1
    | some n => exact le_refl n
  · refine ⟨a, held, ?_⟩
    rw [Option.not_isSome_iff_eq_none.mp missing]
    exact Int.zero_lt_one

/-- A listing is independent of what was listed before exactly when every `stat` succeeds. -/
theorem loadDir_forgets_iff (qsort : Sorter) (stat : CString → Option Stat) (path : CString)
    (names : List CString) :
    ((∀ app app' : FilesApp,
        (app.loadDir qsort stat path (some names)).view =
          (app'.loadDir qsort stat path (some names)).view) ↔ AllStated stat path names) ∧
      ((∀ history history' : List Visit,
        ((FilesApp.start.visits qsort history).loadDir qsort stat path (some names)).view =
          ((FilesApp.start.visits qsort history').loadDir qsort stat path (some names)).view) ↔
        AllStated stat path names) := by
  have independent (all : AllStated stat path names) (app app' : FilesApp) :
      (app.loadDir qsort stat path (some names)).view =
        (app'.loadDir qsort stat path (some names)).view := by
    rw [FilesApp.view_loadDir, FilesApp.view_loadDir, rows_of_allStated all, rows_of_allStated all]
  have stated (same : (FilesApp.start.loadDir qsort stat path (some names)).view =
      ((FilesApp.start.visits qsort [earlier path names]).loadDir qsort stat path
        (some names)).view) : AllStated stat path names := by
    have sums := congrArg (fun v : View => (v.rows.map Row.size).sum) same
    have empty : ∀ e ∈ FilesApp.start.files.take (others names).length, e.size = 0 :=
      fun e held => congrArg FileEntry.size (List.eq_of_mem_replicate (List.mem_of_mem_take held))
    rw [sizes_loadDir qsort stat path names empty,
      sizes_loadDir qsort stat path names (size_of_mem_earlier qsort path names _)] at sums
    intro name held
    have found := isSome_of_sum_eq sums name held
    rwa [Option.isSome_map] at found
  exact ⟨⟨fun same => stated (same _ _), independent⟩,
    fun same => stated (same [] _), fun all _ _ => independent all _ _⟩

/-- A file of one byte is listed; then its `stat` fails, and its size is shown as one, where a
program that did not list it before shows zero. -/
theorem stale_size_shown :
    let path : CString := ⟨[47], by decide⟩
    let names : List CString := [⟨[97], by decide⟩]
    let shown (app : FilesApp) :=
      (app.loadDir mergeSorter (fun _ => none) path (some names)).view
    let before := FilesApp.start.visits mergeSorter [earlier path names]
    (shown FilesApp.start).rows.map Row.size = [0] ∧
      (shown before).rows.map Row.size = [1] ∧ shown FilesApp.start ≠ shown before := by
  decide +kernel

end LunaOS.Apps
