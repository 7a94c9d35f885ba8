import LunaOS.Lib.LexicalPath
import LunaOS.Seatd.Client

/-!
What the prefix check of `handle_open_device` is worth. The check compares bytes;
the kernel resolves components, with no symbolic links under `/dev` read here as
lexical resolution. Behind an admitted prefix the path starts two levels deep and
goes where the count of its names against its `..`s takes it: the file opened is
below `/dev/dri` or `/dev/input` exactly when that walk comes back there.
-/
namespace LunaOS.Seatd
open LexicalPath

def slash : UInt8 := 47

def dot : List UInt8 := bytes "."

def dotdot : List UInt8 := bytes ".."

def dev : List UInt8 := bytes "dev"

def dri : List UInt8 := bytes "dri"

def input : List UInt8 := bytes "input"

def names (path : List UInt8) : List (List UInt8) :=
  components slash dot path

def resolve (path : List UInt8) : List (List UInt8) :=
  walk dotdot [] (names path)

/-- A proper descendant of `/dev/dri` or of `/dev/input`. -/
def InsideSeat (path : List UInt8) : Prop :=
  Below [dev, dri] (resolve path) ∨ Below [dev, input] (resolve path)

instance (path : List UInt8) : Decidable (InsideSeat path) :=
  inferInstanceAs (Decidable (Below _ _ ∨ Below _ _))

def afterPrefix (path : List UInt8) : Option (List UInt8) :=
  if strncmpEq path (bytes "/dev/dri/") 9 then some (path.drop 9)
  else if strncmpEq path (bytes "/dev/input/") 11 then some (path.drop 11)
  else none

/-- A walk from two levels deep ends at least three deep; if it has been up to
`/dev` it left it for the last time by `dri` or `input`, and if it has been up to
the root it left that for the last time by `dev`. -/
def ComesBack (rest : List (List UInt8)) : Prop :=
  3 ≤ depth dotdot 2 rest ∧
    (Stays dotdot 0 2 rest ∨ LeavesBy dotdot 0 dev 2 rest) ∧
    (Stays dotdot 1 2 rest ∨ LeavesBy dotdot 1 dri 2 rest ∨ LeavesBy dotdot 1 input 2 rest)

theorem afterPrefix_eq_none_iff (path : List UInt8) :
    afterPrefix path = none ↔ refused path = true := by
  unfold afterPrefix refused
  cases strncmpEq path (bytes "/dev/dri/") 9 <;>
    cases strncmpEq path (bytes "/dev/input/") 11 <;> simp

theorem eq_of_strncmpEq {path dir : List UInt8} {n : Nat}
    (admitted : strncmpEq path (dir ++ [slash]) n = true) (all : dir.length + 1 = n) :
    path = dir ++ slash :: path.drop n := by
  have whole : (dir ++ [slash]).take n = dir ++ [slash] :=
    List.take_of_length_le (by rw [List.length_append, List.length_singleton, all])
  have same : path.take n = dir ++ [slash] := (eq_of_beq admitted).trans whole
  calc path = path.take n ++ path.drop n := (List.take_append_drop n path).symm
    _ = dir ++ slash :: path.drop n := by rw [same, List.append_assoc, List.singleton_append]

/-- An admitted path is a walk from one of the two directories. -/
theorem resolve_of_afterPrefix {path rest : List UInt8} (h : afterPrefix path = some rest) :
    ∃ dir, (dir = dri ∨ dir = input) ∧ resolve path = walk dotdot [dev, dir] (names rest) := by
  have from_dir (dir : List UInt8) {top : List (List UInt8)}
      (split : path = dir ++ slash :: rest) (starts : walk dotdot [] (names dir) = top) :
      resolve path = walk dotdot top (names rest) := by
    rw [split, resolve, names, components_append, walk_append]
    exact congrArg (fun at' => walk dotdot at' (names rest)) starts
  unfold afterPrefix at h
  split at h
  · rename_i admitted
    obtain rfl := Option.some.inj h
    refine ⟨dri, Or.inl rfl, from_dir (bytes "/dev/dri") ?_ ?_⟩
    · exact eq_of_strncmpEq admitted (by decide)
    · decide
  · split at h
    · rename_i admitted
      obtain rfl := Option.some.inj h
      refine ⟨input, Or.inr rfl, from_dir (bytes "/dev/input") ?_ ?_⟩
      · exact eq_of_strncmpEq admitted (by decide)
      · decide
    · cases h

theorem below_seat_iff {dir : List UInt8} (seat : dir = dri ∨ dir = input)
    (rest : List (List UInt8)) :
    Below [dev, dri] (walk dotdot [dev, dir] rest) ∨
        Below [dev, input] (walk dotdot [dev, dir] rest) ↔ ComesBack rest := by
  have deep : (walk dotdot [dev, dir] rest).length = depth dotdot 2 rest :=
    length_walk [dev, dir] rest
  have top : (walk dotdot [dev, dir] rest)[0]? = some dev ↔
      Stays dotdot 0 2 rest ∨ LeavesBy dotdot 0 dev 2 rest := by
    rw [getElem?_walk]
    simp
  have second (name : List UInt8) : (walk dotdot [dev, dir] rest)[1]? = some name ↔
      (dir = name ∧ Stays dotdot 1 2 rest) ∨ LeavesBy dotdot 1 name 2 rest := by
    rw [getElem?_walk]
    simp
  have apart : dri ≠ input := by decide
  rw [below_pair_iff, below_pair_iff, deep, top, second, second, ComesBack,
    ← and_or_left, ← and_or_left]
  cases seat with
  | inl seat =>
      subst seat
      simp only [apart, true_and, false_and, false_or, or_assoc]
  | inr seat =>
      subst seat
      simp only [apart.symm, true_and, false_and, false_or, or_left_comm]

theorem insideSeat_iff_comesBack {path rest : List UInt8}
    (h : afterPrefix path = some rest) : InsideSeat path ↔ ComesBack (names rest) := by
  obtain ⟨dir, seat, leads⟩ := resolve_of_afterPrefix h
  rw [InsideSeat, leads]
  exact below_seat_iff seat (names rest)

/-- Whatever a client sends, the server opens only inside its two directories
exactly when the request is no OPEN_DEVICE that passes the check with a walk that
does not come back. -/
theorem opens_inside_iff_comesBack (cl : Client) (stack : Fin msgSize → UInt8)
    (r : Option (List UInt8)) (opened : Except Int Nat) :
    (∀ p, Effect.openDevice p ∈ (handleClientMessage cl stack r opened).2 → InsideSeat p) ↔
      ∀ path rest, requestOf stack r = some (msgOpenDevice, path) →
        afterPrefix path = some rest → ComesBack (names rest) := by
  constructor
  · intro safe path rest request admitted
    refine (insideSeat_iff_comesBack admitted).mp (safe path ?_)
    have passed : refused path = false := by
      rw [← Bool.not_eq_true, ← afterPrefix_eq_none_iff, admitted]
      simp
    exact (openDevice_mem_handleClientMessage ..).mpr ⟨request, passed⟩
  · intro back p opens
    obtain ⟨request, passed⟩ := (openDevice_mem_handleClientMessage ..).mp opens
    have admitted : afterPrefix p ≠ none := by
      rw [ne_eq, afterPrefix_eq_none_iff, passed]
      simp
    obtain ⟨rest, rest_eq⟩ := Option.ne_none_iff_exists'.mp admitted
    exact (insideSeat_iff_comesBack rest_eq).mpr (back p rest request rest_eq)

/-- `/dev/dri/../../etc/passwd` passes the check and is opened. -/
theorem opens_etc_passwd :
    let path := bytes "/dev/dri/../../etc/passwd"
    let msg := [1, 0, 25, 0] ++ path ++ List.replicate 231 0
    msg.length = msgSize ∧
      Effect.openDevice path ∈
        (handleClientMessage { fd := 3 } (fun _ => 0) (some msg) (.ok 5)).2 ∧
      ¬ InsideSeat path := by
  decide +kernel

end LunaOS.Seatd
