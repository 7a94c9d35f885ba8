import LunaOS.Lib.Replace

/-!
Fix 3 of `fix-build-xnu.py`, which keeps git from asking for credentials: two replacements
over the whole text of `build-xnu.sh`, whose new texts end in their old ones. Fix 1 and Fix 2,
which replace what regular expressions match, are left out.
-/
namespace LunaOS.Kernel
open Replace

abbrev Text := List Char

def gitTerminalPrompt : Text := "GIT_TERMINAL_PROMPT=0".toList

def lsRemote : Rule Char where
  old := "git ls-remote --tags".toList
  new := "GIT_TERMINAL_PROMPT=0 git ls-remote --tags".toList
  room := by decide
  again := by decide +kernel
  longer := by decide

def clone : Rule Char where
  old := "git clone ".toList
  new := "GIT_TERMINAL_PROMPT=0 git clone ".toList
  room := by decide
  again := by decide +kernel
  longer := by decide

/-- The values of `f3`. -/
inductive Report where
  | applied
  | alreadyPatched
  | failed
  deriving DecidableEq

/-- Fix 3: the new text, and what is reported. -/
def fix3 (src : Text) : Text × Report :=
  let before := src
  let src := lsRemote.apply src
  let src := clone.apply src
  (src,
    if src ≠ before then .applied
    else if gitTerminalPrompt <:+: src then .alreadyPatched
    else .failed)

/-- What is written to the script at the end; `none` stands for the report that it is fully
patched. -/
def save (original src : Text) : Option Text :=
  if src = original then none else some src

def NoGitCommand (src : Text) : Prop :=
  ¬ lsRemote.old <:+: src ∧ ¬ clone.old <:+: src

theorem atRest_iff (src : Text) : AtRest [lsRemote, clone] src ↔ NoGitCommand src := by
  simp only [AtRest, List.forall_mem_cons, List.not_mem_nil, false_imp_iff, implies_true, and_true,
    NoGitCommand]

theorem fix3_of_noGitCommand {src : Text} (none : NoGitCommand src) :
    fix3 src = (src, if gitTerminalPrompt <:+: src then .alreadyPatched else .failed) := by
  have same : (fix3 src).1 = src := rewrite_of_atRest ((atRest_iff src).mpr none)
  exact Prod.ext same (by
    change (if (fix3 src).1 ≠ src then _ else if _ <:+: (fix3 src).1 then _ else _) = _
    rw [same, if_neg (not_not.mpr rfl)])

/-- Run on its own output, Fix 3 changes nothing. -/
def Settles (src : Text) : Prop :=
  save (fix3 src).1 (fix3 (fix3 src).1).1 = none

def ReportsPatched (src : Text) : Prop :=
  (fix3 (fix3 src).1).2 = .alreadyPatched

theorem settles_iff (src : Text) : Settles src ↔ NoGitCommand src := by
  rw [← atRest_iff, ← rewrite_rewrite_iff, Settles, save, ite_eq_left_iff]
  constructor
  · intro unchanged
    by_contra other
    cases unchanged other
  · exact fun same other => absurd same other

theorem reportsPatched_iff (src : Text) :
    ReportsPatched src ↔ NoGitCommand src ∧ gitTerminalPrompt <:+: src := by
  constructor
  · intro reported
    have same : (fix3 (fix3 src).1).1 = (fix3 src).1 := by
      by_contra other
      have applied : (fix3 (fix3 src).1).2 = .applied := if_pos other
      rw [ReportsPatched, applied] at reported
      cases reported
    have none : NoGitCommand src := (settles_iff src).mp (if_pos same)
    rw [ReportsPatched, fix3_of_noGitCommand none, fix3_of_noGitCommand none] at reported
    refine ⟨none, ?_⟩
    by_contra unset
    rw [if_neg unset] at reported
    cases reported
  · rintro ⟨none, set⟩
    rw [ReportsPatched, fix3_of_noGitCommand none, fix3_of_noGitCommand none, if_pos set]

/-- Fix 3 is idempotent exactly on the scripts in which it finds nothing, and says that they are
patched when the variable is there. -/
theorem fix3_idempotent_iff (src : Text) :
    (Settles src ↔ NoGitCommand src) ∧
      (ReportsPatched src ↔ NoGitCommand src ∧ gitTerminalPrompt <:+: src) :=
  ⟨settles_iff src, reportsPatched_iff src⟩

/-- One clone, and every run of the patcher puts the variable before it again. -/
theorem clone_patched_again :
    fix3 "git clone ".toList = ("GIT_TERMINAL_PROMPT=0 git clone ".toList, .applied) ∧
      fix3 "GIT_TERMINAL_PROMPT=0 git clone ".toList =
        ("GIT_TERMINAL_PROMPT=0 GIT_TERMINAL_PROMPT=0 git clone ".toList, .applied) ∧
      ¬ Settles "git clone ".toList := by
  unfold Settles
  decide +kernel

end LunaOS.Kernel
