import LunaOS.EventLoop.Loop

/-!
Who holds the dispatch sources. Until the loop is destroyed, each one belongs to
the slot that made it or was cancelled and released by `wl_event_source_remove`;
the slots not yet in use hold none. The loop of `wl_event_loop_destroy` drops the
rest.
-/
namespace LunaOS.EventLoop

theorem Gcd.foldl_drop (held : List Nat) (g : Gcd) :
    (held.foldl Gcd.drop g).ledger.allocated = g.ledger.allocated ∧
      (held.foldl Gcd.drop g).ledger.released = held.reverse ++ g.ledger.released ∧
      (held.foldl Gcd.drop g).cancelled = held.reverse ++ g.cancelled := by
  induction held generalizing g with
  | nil => exact ⟨rfl, rfl, rfl⟩
  | cons k held ih =>
      obtain ⟨allocated, released, cancelled⟩ := ih (g.drop k)
      rw [List.reverse_cons, List.append_assoc, List.append_assoc]
      exact ⟨allocated, released, cancelled⟩

theorem Gcd.foldl_drop_handler (held : List Nat) (g : Gcd) :
    (held.foldl Gcd.drop g).handler = g.handler := by
  induction held generalizing g with
  | nil => rfl
  | cons k held ih => exact ih (g.drop k)

theorem Gcd.foldl_drop_resumed (held : List Nat) (g : Gcd) :
    (held.foldl Gcd.drop g).resumed = g.resumed := by
  induction held generalizing g with
  | nil => rfl
  | cons k held ih => exact ih (g.drop k)

namespace Loop

def dispatchSrcs (s : Loop) (i : Fin maxSources) : Option Nat :=
  (s.sources i).dispatchSrc

structure Held (s : Loop) : Prop where
  balanced : s.gcd.ledger.Balanced s.dispatchSrcs
  cancelled : s.gcd.cancelled = s.gcd.ledger.released
  unused : ∀ i, s.sourceCount ≤ i.val → (s.sources i).dispatchSrc = none

/-- Every dispatch source was cancelled, and released exactly once. -/
def Closed (s : Loop) : Prop :=
  ∀ k < s.gcd.ledger.allocated, k ∈ s.gcd.cancelled ∧ s.gcd.ledger.released.count k = 1

variable {s s' : Loop}

theorem dispatchSrcs_update {i : Fin maxSources} {src : Source}
    (sources : s'.sources = Function.update s.sources i src) :
    s'.dispatchSrcs = Function.update s.dispatchSrcs i src.dispatchSrc := by
  funext j
  rw [dispatchSrcs, sources]
  by_cases e : j = i
  · rw [e, Function.update_self, Function.update_self]
  · rw [Function.update_of_ne e, Function.update_of_ne e]
    rfl

theorem held_create : create.Held where
  balanced := Ledger.balanced_empty
  cancelled := rfl
  unused := fun _ _ => rfl

/-- Whatever else changes, the slots hold what they held. -/
theorem Held.keep (h : s.Held) (srcs : s'.dispatchSrcs = s.dispatchSrcs)
    (ledger : s'.gcd.ledger = s.gcd.ledger) (cancelled : s'.gcd.cancelled = s.gcd.cancelled)
    (count : s.sourceCount ≤ s'.sourceCount) : s'.Held where
  balanced := by
    rw [ledger, srcs]
    exact h.balanced
  cancelled := by
    rw [cancelled, ledger]
    exact h.cancelled
  unused := fun i free => (congrFun srcs i).trans (h.unused i (Nat.le_trans count free))

/-- A source that keeps its dispatch source replaces the one in slot `i`. -/
theorem Held.replace (h : s.Held) {i : Fin maxSources} {src : Source}
    (sources : s'.sources = Function.update s.sources i src)
    (same : src.dispatchSrc = (s.sources i).dispatchSrc) (gcd : s'.gcd = s.gcd)
    (count : s.sourceCount ≤ s'.sourceCount) : s'.Held := by
  refine h.keep ?_ (by rw [gcd]) (by rw [gcd]) count
  rw [dispatchSrcs_update sources, same]
  exact Function.update_eq_self i s.dispatchSrcs

/-- The next free slot takes a new dispatch source. -/
theorem Held.take (h : s.Held) (i : Fin maxSources) {src : Source}
    (new : i.val = s.sourceCount) (sources : s'.sources = Function.update s.sources i src)
    (holds : src.dispatchSrc = some s.gcd.ledger.allocated)
    (ledger : s'.gcd.ledger = s.gcd.ledger.acquire)
    (cancelled : s'.gcd.cancelled = s.gcd.cancelled)
    (count : s'.sourceCount = s.sourceCount + 1) : s'.Held where
  balanced := by
    rw [ledger, dispatchSrcs_update sources, holds]
    exact h.balanced.acquire (h.unused i (Nat.le_of_eq new.symm))
  cancelled := by
    rw [cancelled, ledger]
    exact h.cancelled
  unused := by
    intro j free
    have other : j ≠ i := by
      rintro rfl
      omega
    rw [sources, Function.update_of_ne other]
    exact h.unused j (by omega)

theorem Held.addFd (h : s.Held) (fd : Int32) (mask : UInt32) (func data : UInt64) :
    (s.addFd fd mask func data).1.Held := by
  unfold Loop.addFd
  split
  · rename_i room
    have grows : s.sourceCount ≤ s.sourceCount + 1 := Nat.le_succ _
    dsimp only
    split
    · exact h.take ⟨s.sourceCount, room⟩ rfl rfl rfl rfl rfl rfl
    · split <;> exact h.replace rfl rfl rfl grows
  · exact h

theorem Held.addTimer (h : s.Held) (func data : UInt64) : (s.addTimer func data).1.Held := by
  unfold Loop.addTimer
  split
  · rename_i room
    exact h.take ⟨s.sourceCount, room⟩ rfl rfl rfl rfl rfl rfl
  · exact h

theorem Held.timerUpdate (h : s.Held) (i : Fin maxSources) (ms : Int32) (now : UInt64) :
    (s.timerUpdate i ms now).1.Held := by
  unfold Loop.timerUpdate
  split
  · exact h
  · dsimp only
    split <;> exact h.keep rfl rfl rfl (Nat.le_refl _)

theorem Held.remove (h : s.Held) (i : Fin maxSources) : (s.remove i).Held := by
  unfold Loop.remove
  dsimp only
  split
  · rename_i k holds
    refine ⟨?_, ?_, ?_⟩
    · rw [dispatchSrcs_update rfl]
      exact h.balanced.release holds
    · change k :: s.gcd.cancelled = k :: s.gcd.ledger.released
      rw [h.cancelled]
    · intro j free
      change (Function.update s.sources i _ j).dispatchSrc = none
      by_cases e : j = i
      · rw [e, Function.update_self]
      · rw [Function.update_of_ne e]
        exact h.unused j free
  · exact h.replace rfl rfl rfl (Nat.le_refl _)

theorem Held.record (h : s.Held) (x : Happening) : (s.record x).Held :=
  h.keep rfl rfl rfl (Nat.le_refl _)

theorem Held.fire (h : s.Held) (b : Block) : (s.fire b).Held := by
  rcases fire_cases s b with same | ⟨c, ran⟩
  · rwa [same]
  · rw [ran]
    exact h.record _

theorem Held.cancelHandler (h : s.Held) (b : Block) : (s.cancelHandler b).Held := by
  cases b with
  | read i func fd data => exact h.replace rfl rfl rfl (Nat.le_refl _)
  | timer i func data => exact h

theorem Held.dispatchOne (h : s.Held) (ev : Kevent) : (s.dispatchOne ev).Held := by
  rcases dispatchOne_cases s ev with same | ⟨c, ran⟩
  · rwa [same]
  · rw [ran]
    exact h.record _

theorem Held.heldSource (h : s.Held) : s.heldSource = s.dispatchSrcs := by
  funext i
  unfold Loop.heldSource
  split
  · rfl
  · rename_i free
    exact (h.unused i (Nat.le_of_not_lt free)).symm

theorem Held.destroy (h : s.Held) : s.destroy.Closed := by
  obtain ⟨allocated, released, cancelled⟩ :=
    Gcd.foldl_drop ((List.finRange maxSources).filterMap s.heldSource) s.gcd
  have dropped : s.destroy.gcd.ledger.released =
      (s.gcd.ledger.releaseHeld s.dispatchSrcs (List.finRange maxSources)).released := by
    rw [(Ledger.releaseHeld_spec _ _ _).2, ← h.heldSource]
    exact released
  obtain ⟨once, all⟩ := h.balanced.releaseHeld (List.nodup_finRange _) List.mem_finRange
  rw [← dropped] at once all
  intro k created
  have gone : k ∈ s.destroy.gcd.ledger.released := (all k).mpr (allocated ▸ created)
  refine ⟨?_, List.count_eq_one_of_mem once gone⟩
  have same : s.destroy.gcd.cancelled = s.destroy.gcd.ledger.released := by
    refine cancelled.trans ?_
    rw [h.cancelled]
    exact released.symm
  rw [same]
  exact gone

end Loop
end LunaOS.EventLoop
