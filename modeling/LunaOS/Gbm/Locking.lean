import LunaOS.Gbm.Objects
import LunaOS.Lib.Monitors
import Mathlib.Data.Fintype.Card

/-!
The front buffer of a GBM surface. Two fields, the index locked last and one flag, stand
for two buffers. A lock returns the buffer that was not locked last, whether or not it
is held, and a release clears the flag whichever buffer it is given. What is truly held
is kept beside the surface: a client locks while it holds fewer than two buffers and
releases what it holds.
-/
namespace LunaOS.Gbm
open Monitors

inductive SurfaceCall where
  | lock
  | release (b : Fin 2)
  deriving DecidableEq

/-- A surface with the buffers that its client holds. -/
structure Locking where
  surface : GbmSurface
  held : Finset (Fin 2) := ∅

namespace Locking

/-- A surface as `gbm_surface_create` returns it. -/
def start (w h fmt fl : UInt32) (bos : Fin 2 → HostBo) : Locking :=
  { surface := { width := w, height := h, format := fmt, flags := fl, bos := bos } }

def step (s : Locking) : SurfaceCall → Option Locking
  | .lock =>
      if s.held.card < 2 then
        some { surface := s.surface.lockFrontBuffer.1
               held := insert s.surface.lockFrontBuffer.2 s.held }
      else none
  | .release b =>
      if b ∈ s.held then
        some { surface := s.surface.releaseBuffer b, held := s.held.erase b }
      else none

/-- A lock now returns a buffer that is not held. -/
def LocksFree (s : Locking) : Prop :=
  s.surface.lockFrontBuffer.2 ∉ s.held

/-- `gbm_surface_has_free_buffers` is nonzero when a buffer is not held, and only then. -/
def TellsFree (s : Locking) : Prop :=
  s.surface.hasFreeBuffers = true ↔ ∃ b, b ∉ s.held

/-- The call made last. -/
def lastCall (_s : Locking) (c : SurfaceCall) (_last : Option SurfaceCall) :
    Option SurfaceCall :=
  some c

/-- Nothing is held before the first lock; the flag is set by a lock and cleared by a
release, after which a buffer is free. -/
structure Consistent (s : Locking) (last : Option SurfaceCall) : Prop where
  unlocked : s.surface.front = none → s.held = ∅
  flag : s.surface.locked = true ↔ last = some .lock
  released : last ≠ some .lock → ∃ b, b ∉ s.held

variable {s s' : Locking} {last : Option SurfaceCall}

theorem consistent_start (w h fmt fl : UInt32) (bos : Fin 2 → HostBo) :
    (start w h fmt fl bos).Consistent none where
  unlocked := fun _ => rfl
  flag := by simp [start]
  released := fun _ => ⟨0, Finset.notMem_empty 0⟩

theorem consistent_step (h : s.Consistent last) {c : SurfaceCall} (taken : s.step c = some s') :
    s'.Consistent (some c) := by
  cases c with
  | lock =>
      obtain ⟨_, made⟩ := Option.ite_none_right_eq_some.mp taken
      obtain rfl := Option.some.inj made
      refine ⟨fun never => ?_, by simp [GbmSurface.lockFrontBuffer], fun other => ?_⟩
      · simp [GbmSurface.lockFrontBuffer] at never
      · exact absurd rfl other
  | release b =>
      obtain ⟨held, made⟩ := Option.ite_none_right_eq_some.mp taken
      obtain rfl := Option.some.inj made
      refine ⟨fun never => ?_, by simp [GbmSurface.releaseBuffer], fun _ => ?_⟩
      · rw [h.unlocked never] at held
        exact absurd held (Finset.notMem_empty b)
      · exact ⟨b, Finset.notMem_erase b s.held⟩

/-- A lock returns a free buffer exactly when no buffer but the one locked last is held. -/
theorem locksFree_iff (h : s.Consistent last) :
    s.LocksFree ↔ ∀ b ∈ s.held, s.surface.front = some b := by
  unfold LocksFree GbmSurface.lockFrontBuffer
  cases front : s.surface.front with
  | none => simp [h.unlocked front]
  | some f =>
      simp only [Option.some.injEq, Option.elim_some]
      constructor
      · intro free b held
        by_contra other
        have same : b = 1 - f := by omega
        exact free (same ▸ held)
      · intro only held
        have same := only (1 - f) held
        omega

/-- The flag tells the truth exactly when the last call was no lock, or left both
buffers held. -/
theorem tellsFree_iff (h : s.Consistent last) :
    s.TellsFree ↔ (last = some .lock → s.held = Finset.univ) := by
  have flag : s.surface.hasFreeBuffers = true ↔ last ≠ some .lock := by
    rw [GbmSurface.hasFreeBuffers, Bool.not_eq_true', ← Bool.not_eq_true, h.flag]
  rw [TellsFree, flag, Finset.eq_univ_iff_forall]
  constructor
  · intro tells locked b
    by_contra free
    exact tells.mpr ⟨b, free⟩ locked
  · intro both
    refine ⟨h.released, ?_⟩
    rintro ⟨b, free⟩ locked
    exact free (both locked b)

theorem reached_consistent {w h fmt fl : UInt32} {bos : Fin 2 → HostBo}
    {calls : List SurfaceCall}
    (visited : Runs.Visits (watch step lastCall) (start w h fmt fl bos, none) calls (s, last)) :
    s.Consistent last := by
  have preserved : ∀ (s : Locking) (last : Option SurfaceCall) c s', s.Consistent last →
      s.step c = some s' → s'.Consistent (lastCall s c last) :=
    fun _ _ _ _ h taken => consistent_step h taken
  exact visits_invariant preserved (consistent_start w h fmt fl bos) visited

/-- For every surface and every run of locks and releases: the locks of the run all
return a free buffer if and only if none is made while a buffer other than the one
locked last is held; and in every state `gbm_surface_has_free_buffers` tells the truth
if and only if the last call was no lock or left both buffers held. -/
theorem locking_sound_iff (w h fmt fl : UInt32) (bos : Fin 2 → HostBo)
    (calls : List SurfaceCall) :
    ((∀ s, Runs.Takes step (start w h fmt fl bos) calls s .lock → s.LocksFree) ↔
        ∀ s, Runs.Takes step (start w h fmt fl bos) calls s .lock →
          ∀ b ∈ s.held, s.surface.front = some b) ∧
      ∀ s last, Runs.Visits (watch step lastCall) (start w h fmt fl bos, none) calls (s, last) →
        (s.TellsFree ↔ (last = some .lock → s.held = Finset.univ)) := by
  constructor
  · refine forall_congr' fun s => forall_congr' fun taken => ?_
    obtain ⟨last, visited⟩ := watched_of_visits none (Runs.visits_of_takes taken)
    exact locksFree_iff (reached_consistent visited)
  · intro s last visited
    exact tellsFree_iff (reached_consistent visited)

/-- After one lock the other buffer is free and `gbm_surface_has_free_buffers` is 0; and
two locks and a release of the second buffer lead to a lock of the first, still held. -/
theorem lock_returns_held :
    let surface := start 64 64 0 0 fun _ => { width := 64, height := 64, format := 0, flags := 0 }
    (∃ s, Runs.Visits step surface [.lock] s ∧ ¬ s.TellsFree) ∧
      ∃ s, Runs.Takes step surface [.lock, .lock, .release 1, .lock] s .lock ∧
        s.held.card < 2 ∧ ¬ s.LocksFree := by
  intro surface
  constructor
  · refine ⟨_, Runs.visits_of_run rfl, ?_⟩
    unfold TellsFree
    decide
  · refine ⟨_, ⟨[.lock, .lock, .release 1], [], rfl, rfl, rfl⟩, ?_⟩
    unfold LocksFree
    decide

end Locking
end LunaOS.Gbm
