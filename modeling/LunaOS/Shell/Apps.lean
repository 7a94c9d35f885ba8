import Mathlib.Algebra.Order.Group.Nat
import Mathlib.Data.List.Infix
import Mathlib.Data.List.Nodup
import Mathlib.Data.Nat.Digits.Defs
import LunaOS.Lib.Runs
import LunaOS.Shell.DesktopEntry

/-!
`luna_apps_load` over the entries of a directory. A slot is cleared and filled before it is
known whether its entry counts, and the array is doubled when it is full. `count` and `cap`
are of type `int`: the array holds every valid entry until an entry asks for its doubling at
2^30 slots.
-/
namespace LunaOS.Shell
open Runs
open Seatd (bytes)

/-- `struct dirent` with the content of the file, where that can be opened. -/
structure DirEntry where
  name : Line
  file : Option Line

/-- `strstr(ent->d_name, ".desktop")`. -/
def DirEntry.isDesktop (e : DirEntry) : Bool :=
  bytes ".desktop" <:+: e.name

structure Apps where
  apps : Nat → LunaApp := fun _ => {}
  count : Nat := 0
  cap : Nat := 16

def intMax : Nat := 2 ^ 31 - 1

namespace Apps

/-- `cap *= 2` and `realloc`: the new slots hold `junk`. An overflow is undefined. -/
def grow (junk : Nat → Nat → LunaApp) (s : Apps) : Option Apps :=
  if s.cap * 2 ≤ intMax then
    some
      { s with
        apps := fun i => if i < s.cap then s.apps i else junk s.cap i
        cap := s.cap * 2 }
  else none

/-- The slot `apps[count]` is written; outside of the array that is undefined. -/
def write (s : Apps) (a : LunaApp) : Option Apps :=
  if s.count < s.cap then some { s with apps := Function.update s.apps s.count a } else none

def loadEntry (junk : Nat → Nat → LunaApp) (s : Apps) (e : DirEntry) : Option Apps :=
  if e.isDesktop then
    (if s.cap ≤ s.count then s.grow junk else some s).bind fun s =>
      (s.write cleared).bind fun s =>
        match e.file with
        | none => some s
        | some content =>
            let a := loadFile content
            (s.write a).map fun s =>
              if a.name ≠ [] ∧ a.exec ≠ [] then { s with count := s.count + 1 } else s
  else some s

/-- `shell->apps` and `shell->app_count`, which is also returned. -/
def records (s : Apps) : List LunaApp :=
  (List.range s.count).map s.apps

end Apps

/-- `luna_apps_load` for a directory that could be opened. -/
def lunaAppsLoad (junk : Nat → Nat → LunaApp) (entries : List DirEntry) : Option Apps :=
  run (Apps.loadEntry junk) {} entries

/-! What is to be collected. -/

def recordOf (e : DirEntry) : Option LunaApp :=
  if e.isDesktop then
    (e.file.map loadFile).bind fun a => if a.name ≠ [] ∧ a.exec ≠ [] then some a else none
  else none

/-- The array is that of the valid entries in their order, and no write left it. -/
def Collects (junk : Nat → Nat → LunaApp) (entries : List DirEntry) : Prop :=
  ∃ s, lunaAppsLoad junk entries = some s ∧ s.records = entries.filterMap recordOf ∧
    s.count = (entries.filterMap recordOf).length

/-- After `n` valid entries, no `.desktop` entry comes after 2^30 valid ones. -/
def Fits (n : Nat) (entries : List DirEntry) : Prop :=
  ∀ before e after, entries = before ++ e :: after → e.isDesktop →
    n + (before.filterMap recordOf).length < 2 ^ 30

theorem filterMap_recordOf_cons (e : DirEntry) (entries : List DirEntry) :
    (e :: entries).filterMap recordOf = (recordOf e).toList ++ entries.filterMap recordOf := by
  rw [List.filterMap_cons]
  cases recordOf e <;> rfl

theorem fits_cons (n : Nat) (e : DirEntry) (entries : List DirEntry) :
    Fits n (e :: entries) ↔
      (e.isDesktop → n < 2 ^ 30) ∧ Fits (n + (recordOf e).toList.length) entries := by
  constructor
  · intro fits
    refine ⟨fits [] e entries rfl, fun before e' after split desktop => ?_⟩
    have later := fits (e :: before) e' after (by rw [split]; rfl) desktop
    rw [filterMap_recordOf_cons, List.length_append] at later
    omega
  · rintro ⟨first, rest⟩ before e' after split desktop
    cases before with
    | nil =>
        obtain ⟨rfl, rfl⟩ := List.cons.inj split
        exact first desktop
    | cons b before =>
        obtain ⟨rfl, tail⟩ := List.cons.inj split
        have later := rest before e' after tail desktop
        rw [filterMap_recordOf_cons, List.length_append]
        omega

namespace Apps

/-- The first slots hold `done`, and the capacity is one that doubling reaches. -/
structure Holds (s : Apps) (done : List LunaApp) : Prop where
  records : s.records = done
  room : s.count ≤ s.cap
  doubled : ∃ k, k ≤ 26 ∧ s.cap = 16 * 2 ^ k

variable {s : Apps} {done : List LunaApp}

theorem holds_start : Holds {} [] where
  records := rfl
  room := Nat.zero_le 16
  doubled := ⟨0, Nat.zero_le 26, rfl⟩

theorem Holds.count (h : s.Holds done) : s.count = done.length := by
  rw [← h.records, Apps.records, List.length_map, List.length_range]

theorem Holds.congr {s' : Apps} (h : s.Holds done) (count : s'.count = s.count)
    (cap : s.cap ≤ s'.cap) (doubled : ∃ k, k ≤ 26 ∧ s'.cap = 16 * 2 ^ k)
    (apps : ∀ i, i < s.count → s'.apps i = s.apps i) : s'.Holds done where
  records := by
    rw [← h.records, Apps.records, Apps.records, count]
    exact List.map_congr_left fun i inside => apps i (List.mem_range.mp inside)
  room := by
    rw [count]
    exact Nat.le_trans h.room cap
  doubled := doubled

theorem Holds.write (h : s.Holds done) (room : s.count < s.cap) (a : LunaApp) :
    ∃ s', s.write a = some s' ∧ s'.Holds done ∧ s'.count < s'.cap ∧ s'.apps s'.count = a := by
  refine ⟨_, if_pos room, ?_, room, Function.update_self _ _ _⟩
  exact h.congr rfl (Nat.le_refl _) h.doubled fun i inside =>
    Function.update_of_ne (Nat.ne_of_lt inside) _ _

theorem Holds.advance (h : s.Holds done) (room : s.count < s.cap) :
    Holds { s with count := s.count + 1 } (done ++ [s.apps s.count]) where
  records := by
    rw [← h.records]
    exact (congrArg (List.map s.apps) List.range_succ).trans List.map_append
  room := room
  doubled := h.doubled

/-- There is room for an entry, unless `cap` cannot be doubled. -/
theorem Holds.makeRoom (h : s.Holds done) (junk : Nat → Nat → LunaApp) :
    (done.length = 2 ^ 30 ∧ (if s.cap ≤ s.count then s.grow junk else some s) = none) ∨
      ∃ s', (if s.cap ≤ s.count then s.grow junk else some s) = some s' ∧ s'.Holds done ∧
        s'.count < s'.cap ∧ done.length < 2 ^ 30 := by
  obtain ⟨k, small, cap⟩ := h.doubled
  have room := h.room
  rw [← h.count]
  have bound : 2 ^ k ≤ 2 ^ 26 := Nat.pow_le_pow_right (by decide) small
  by_cases full : s.cap ≤ s.count
  · rw [if_pos full, grow]
    by_cases last : k = 26
    · subst last
      exact Or.inl ⟨by omega, if_neg (by rw [cap]; decide)⟩
    · have next : 2 ^ (k + 1) ≤ 2 ^ 26 := Nat.pow_le_pow_right (by decide) (by omega)
      have pos : 0 < 2 ^ k := Nat.two_pow_pos k
      have twice : 2 ^ (k + 1) = 2 ^ k * 2 := rfl
      have fits : s.cap * 2 ≤ intMax := by
        rw [intMax]
        omega
      refine Or.inr ⟨_, if_pos fits, h.congr rfl ?_ ⟨k + 1, by omega, ?_⟩ ?_, ?_, by omega⟩
      · exact Nat.le_mul_of_pos_right _ (by decide)
      · change s.cap * 2 = _
        omega
      · exact fun i inside => if_pos (Nat.lt_of_lt_of_le inside room)
      · change s.count < s.cap * 2
        omega
  · rw [if_neg full]
    exact Or.inr ⟨s, rfl, h, Nat.lt_of_not_le full, by omega⟩

/-- One entry: the loop is stuck at a doubling that overflows, or its record is added. -/
theorem Holds.loadEntry (h : s.Holds done) (junk : Nat → Nat → LunaApp) (e : DirEntry) :
    (e.isDesktop ∧ done.length = 2 ^ 30 ∧ s.loadEntry junk e = none) ∨
      ∃ s', s.loadEntry junk e = some s' ∧ s'.Holds (done ++ (recordOf e).toList) ∧
        (e.isDesktop → done.length < 2 ^ 30) := by
  unfold Apps.loadEntry recordOf
  by_cases desktop : e.isDesktop
  · rw [if_pos desktop, if_pos desktop]
    rcases h.makeRoom junk with ⟨full, stuck⟩ | ⟨s₁, made, h₁, room₁, below⟩
    · rw [stuck]
      exact Or.inl ⟨desktop, full, rfl⟩
    · obtain ⟨s₂, written, h₂, room₂, _⟩ := h₁.write room₁ cleared
      refine Or.inr ?_
      rw [made, Option.bind_some, written, Option.bind_some]
      cases e.file with
      | none => exact ⟨s₂, rfl, (List.append_nil done).symm ▸ h₂, fun _ => below⟩
      | some content =>
          obtain ⟨s₃, filled, h₃, room₃, held⟩ := h₂.write room₂ (loadFile content)
          dsimp only
          rw [filled, Option.map_some, Option.map_some, Option.bind_some]
          by_cases valid : (loadFile content).name ≠ [] ∧ (loadFile content).exec ≠ []
          · rw [if_pos valid, if_pos valid]
            exact ⟨_, rfl, held ▸ h₃.advance room₃, fun _ => below⟩
          · rw [if_neg valid, if_neg valid]
            exact ⟨s₃, rfl, (List.append_nil done).symm ▸ h₃, fun _ => below⟩
  · simp only [desktop]
    exact Or.inr ⟨s, rfl, (List.append_nil done).symm ▸ h, nofun⟩

/-- All entries: the loop ends with the records of the valid ones, or it is stuck. -/
theorem Holds.run (h : s.Holds done) (junk : Nat → Nat → LunaApp) (entries : List DirEntry) :
    (Fits done.length entries → ∃ s', Runs.run (Apps.loadEntry junk) s entries = some s' ∧
      s'.Holds (done ++ entries.filterMap recordOf)) ∧
    (¬ Fits done.length entries → Runs.run (Apps.loadEntry junk) s entries = none) := by
  induction entries generalizing s done with
  | nil =>
      refine ⟨fun _ => ⟨s, rfl, (List.append_nil done).symm ▸ h⟩, fun broken => ?_⟩
      refine absurd (fun before e after split => ?_) broken
      cases before <;> cases split
  | cons e entries ih =>
      rw [fits_cons, run_cons]
      rcases h.loadEntry junk e with ⟨desktop, full, stuck⟩ | ⟨s', next, h', below⟩
      · rw [stuck]
        refine ⟨fun fits => absurd (fits.1 desktop) (by omega), fun _ => rfl⟩
      · obtain ⟨good, bad⟩ := ih h'
        rw [next, Option.bind_some, filterMap_recordOf_cons, ← List.append_assoc,
          ← List.length_append]
        exact ⟨fun fits => good fits.2, fun broken => bad fun rest => broken ⟨below, rest⟩⟩

end Apps

open Shell.Apps in
/-- The entries are collected exactly when no doubling of `cap` overflows. -/
theorem collects_iff (junk : Nat → Nat → LunaApp) (entries : List DirEntry) :
    Collects junk entries ↔ Fits 0 entries := by
  obtain ⟨good, bad⟩ := holds_start.run junk entries
  constructor
  · rintro ⟨s, loaded, _⟩
    by_contra broken
    have stuck := bad broken
    rw [lunaAppsLoad, stuck] at loaded
    cases loaded
  · intro fits
    obtain ⟨s, loaded, h⟩ := good fits
    exact ⟨s, loaded, h.records, h.count⟩

/-- The file of an application whose name is the digits of `i` with the suffix. -/
def numberedApp (i : Nat) : DirEntry where
  name := (Nat.digits 10 i).map (fun d => UInt8.ofNat (48 + d)) ++ bytes ".desktop"
  file := some (bytes "[Desktop Entry]\nName=a\nExec=a\n")

theorem numberedApp_isDesktop (i : Nat) : (numberedApp i).isDesktop :=
  decide_eq_true (List.suffix_append _ _).isInfix

theorem numberedApp_name_injective : (DirEntry.name ∘ numberedApp).Injective := by
  intro i j same
  have letters := List.append_cancel_right same
  have back (n : Nat) : ((Nat.digits 10 n).map fun d => UInt8.ofNat (48 + d)).map
      (fun c => c.toNat - 48) = Nat.digits 10 n := by
    rw [List.map_map]
    refine (List.map_congr_left fun d mem => ?_).trans (List.map_id _)
    have digit : d < 10 := Nat.digits_lt_base (by decide) mem
    have byte : (48 + d) % 2 ^ 8 = 48 + d := Nat.mod_eq_of_lt (by omega)
    rw [Function.comp, UInt8.toNat_ofNat', byte, Nat.add_sub_cancel_left, id]
  refine Nat.digits.injective 10 ?_
  rw [← back i, ← back j]
  exact congrArg _ letters

theorem numberedApp_valid : ∃ a, ∀ i, recordOf (numberedApp i) = some a := by
  obtain ⟨a, valid⟩ := Option.isSome_iff_exists.mp
    (by decide +kernel : (recordOf (numberedApp 0)).isSome)
  refine ⟨a, fun i => ?_⟩
  rw [← valid, recordOf, recordOf, if_pos (numberedApp_isDesktop i),
    if_pos (numberedApp_isDesktop 0)]
  rfl

theorem lt_of_fits_numbered {n : Nat}
    (fits : Fits 0 ((List.range (n + 1)).map numberedApp)) : n < 2 ^ 30 := by
  obtain ⟨a, valid⟩ := numberedApp_valid
  have below := fits ((List.range n).map numberedApp) (numberedApp n) []
    (by rw [List.range_succ, List.map_append]; rfl) (numberedApp_isDesktop n)
  have all : ((List.range n).map numberedApp).filterMap recordOf =
      (List.range n).map fun _ => a := by
    rw [List.filterMap_map, ← List.filterMap_eq_map]
    exact List.filterMap_congr fun i _ => valid i
  rwa [all, List.length_map, List.length_range, Nat.zero_add] at below

open Shell.Apps in
theorem not_collects_numbered {n : Nat} (many : 2 ^ 30 ≤ n) (junk : Nat → Nat → LunaApp) :
    ¬ Collects junk ((List.range (n + 1)).map numberedApp) := by
  have broken : ¬ Fits 0 ((List.range (n + 1)).map numberedApp) := fun fits =>
    Nat.lt_irrefl n (Nat.lt_of_lt_of_le (lt_of_fits_numbered fits) many)
  rintro ⟨s, loaded, _⟩
  rw [lunaAppsLoad, (holds_start.run junk _).2 broken] at loaded
  cases loaded

/-- Of 2^30 + 1 applications under names of their own, the last asks for a doubling of `cap`
that overflows. -/
theorem last_app_overflows :
    (((List.range (2 ^ 30 + 1)).map numberedApp).map DirEntry.name).Nodup ∧
      ¬ Collects (fun _ _ => {}) ((List.range (2 ^ 30 + 1)).map numberedApp) := by
  refine ⟨?_, not_collects_numbered (Nat.le_refl _) _⟩
  rw [List.map_map]
  exact List.Nodup.map numberedApp_name_injective List.nodup_range

end LunaOS.Shell
