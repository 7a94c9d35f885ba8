import LunaOS.EventLoop.Custody

/-!
How slots, blocks and write events belong together. A timer source that was not cancelled
belongs to the slot that its block names, and the slot to it; read blocks and write events
name slots that are no timers.
-/
namespace LunaOS.EventLoop

def Block.slot : Block → Fin maxSources
  | .read i _ _ _ => i
  | .timer i _ _ => i

namespace Loop
variable {s s' : Loop}

structure Wired (s : Loop) : Prop where
  unused : ∀ i, s.sourceCount ≤ i.val →
    (s.sources i).isTimer = false ∧ (s.sources i).cancelled = false ∧
      (s.sources i).dispatchSrc = none
  issued : ∀ k b, s.gcd.handler k = some b → k < s.gcd.ledger.allocated
  own : ∀ i k, (s.sources i).dispatchSrc = some k →
    ∃ b, s.gcd.handler k = some b ∧ b.slot = i
  timer : ∀ k i func data, s.gcd.handler k = some (.timer i func data) →
    (s.sources i).isTimer = true ∧ (k ∉ s.gcd.cancelled →
      (s.sources i).dispatchSrc = some k ∧ (s.sources i).cancelled = false)
  read : ∀ k i func fd data, s.gcd.handler k = some (.read i func fd data) →
    i.val < s.sourceCount ∧ (s.sources i).isTimer = false
  kqueue : ∀ fd i, (fd, i) ∈ s.kqueue → i.val < s.sourceCount ∧ (s.sources i).isTimer = false

theorem wired_create : create.Wired where
  unused := fun _ _ => ⟨rfl, rfl, rfl⟩
  issued := by intro k b held; cases held
  own := by intro i k holds; cases holds
  timer := by intro k i func data held; cases held
  read := by intro k i func fd data held; cases held
  kqueue := by intro fd i held; cases held

/-- Sources may be cancelled and set; slots, blocks and write events stay. -/
theorem Wired.keep (h : s.Wired) (sources : s'.sources = s.sources)
    (count : s'.sourceCount = s.sourceCount) (kqueue : s'.kqueue = s.kqueue)
    (handler : s'.gcd.handler = s.gcd.handler)
    (allocated : s'.gcd.ledger.allocated = s.gcd.ledger.allocated)
    (cancelled : ∀ k ∈ s.gcd.cancelled, k ∈ s'.gcd.cancelled) : s'.Wired where
  unused := by rw [sources, count]; exact h.unused
  issued := by rw [handler, allocated]; exact h.issued
  own := by rw [sources, handler]; exact h.own
  timer := by
    rw [sources, handler]
    intro k i func data given
    obtain ⟨timer, held⟩ := h.timer k i func data given
    exact ⟨timer, fun live => held fun gone => live (cancelled k gone)⟩
  read := by rw [sources, handler, count]; exact h.read
  kqueue := by rw [sources, kqueue, count]; exact h.kqueue

/-- A slot in use changes its flag, or gives its dispatch source up. -/
theorem Wired.edit (h : s.Wired) (i : Fin maxSources) {src : Source}
    (used : i.val < s.sourceCount) (sources : s'.sources = Function.update s.sources i src)
    (timer : src.isTimer = (s.sources i).isTimer)
    (held : ∀ k, src.dispatchSrc = some k → (s.sources i).dispatchSrc = some k)
    (live : ∀ k func data, s.gcd.handler k = some (.timer i func data) →
      k ∉ s'.gcd.cancelled → src.dispatchSrc = some k ∧ src.cancelled = false)
    (count : s'.sourceCount = s.sourceCount) (kqueue : s'.kqueue = s.kqueue)
    (handler : s'.gcd.handler = s.gcd.handler)
    (allocated : s'.gcd.ledger.allocated = s.gcd.ledger.allocated)
    (cancelled : ∀ k ∈ s.gcd.cancelled, k ∈ s'.gcd.cancelled) : s'.Wired := by
  have kind (j : Fin maxSources) : (s'.sources j).isTimer = (s.sources j).isTimer := by
    rw [sources]
    exact Slots.read_update_of_eq Source.isTimer timer j
  have other {j : Fin maxSources} (e : j ≠ i) : s'.sources j = s.sources j := by
    rw [sources, Function.update_of_ne e]
  have here : s'.sources i = src := by rw [sources, Function.update_self]
  refine ⟨?_, ?_, ?_, ?_, ?_, ?_⟩
  · intro j free
    rw [count] at free
    have e : j ≠ i := by
      rintro rfl
      omega
    rw [other e]
    exact h.unused j free
  · rw [handler, allocated]
    exact h.issued
  · intro j k holds
    rw [handler]
    by_cases e : j = i
    · rw [e, here] at holds
      exact h.own j k (e ▸ held k holds)
    · rw [other e] at holds
      exact h.own j k holds
  · intro k j func data given
    rw [handler] at given
    obtain ⟨is_timer, holds⟩ := h.timer k j func data given
    refine ⟨(kind j).trans is_timer, fun kept => ?_⟩
    by_cases e : j = i
    · subst e
      rw [here]
      exact live k func data given kept
    · rw [other e]
      exact holds fun gone => kept (cancelled k gone)
  · intro k j func fd data given
    rw [handler] at given
    rw [count, kind]
    exact h.read k j func fd data given
  · intro fd j registered
    rw [kqueue] at registered
    rw [count, kind]
    exact h.kqueue fd j registered

def Fits (i : Fin maxSources) (src : Source) (k : Nat) : Block → Prop
  | .read j _ _ _ => j = i ∧ src.isTimer = false
  | .timer j _ _ => j = i ∧ src.isTimer = true ∧ src.dispatchSrc = some k ∧ src.cancelled = false

/-- A slot that is not yet in use is given to a source. -/
theorem Wired.grow (h : s.Wired) (i : Fin maxSources) {src : Source}
    (new : i.val = s.sourceCount) (sources : s'.sources = Function.update s.sources i src)
    (count : s'.sourceCount = s.sourceCount + 1)
    (cancelled : s'.gcd.cancelled = s.gcd.cancelled)
    (allocated : s.gcd.ledger.allocated ≤ s'.gcd.ledger.allocated)
    (keeps : ∀ k b, s.gcd.handler k = some b → s'.gcd.handler k = some b)
    (blocks : ∀ k b, s'.gcd.handler k = some b → s.gcd.handler k = some b ∨
      k < s'.gcd.ledger.allocated ∧ Fits i src k b)
    (own : ∀ k, src.dispatchSrc = some k → ∃ b, s'.gcd.handler k = some b ∧ b.slot = i)
    (kqueue : ∀ fd j, (fd, j) ∈ s'.kqueue → (fd, j) ∈ s.kqueue ∨ j = i ∧ src.isTimer = false) :
    s'.Wired := by
  have here : s'.sources i = src := by rw [sources, Function.update_self]
  have other {j : Fin maxSources} (e : j ≠ i) : s'.sources j = s.sources j := by
    rw [sources, Function.update_of_ne e]
  refine ⟨?_, ?_, ?_, ?_, ?_, ?_⟩
  · intro j free
    have e : j ≠ i := by
      rintro rfl
      omega
    rw [other e]
    exact h.unused j (by omega)
  · intro k b given
    cases blocks k b given with
    | inl old => exact Nat.lt_of_lt_of_le (h.issued k b old) allocated
    | inr fits => exact fits.1
  · intro j k holds
    by_cases e : j = i
    · subst e
      rw [here] at holds
      exact own k holds
    · rw [other e] at holds
      obtain ⟨b, given, slot⟩ := h.own j k holds
      exact ⟨b, keeps k b given, slot⟩
  · intro k j func data given
    rcases blocks k _ given with old | ⟨_, rfl, timer, holds, flag⟩
    · obtain ⟨timer, holds⟩ := h.timer k j func data old
      have e : j ≠ i := by
        rintro rfl
        exact Bool.false_ne_true ((h.unused j (Nat.le_of_eq new.symm)).1.symm.trans timer)
      rw [other e, cancelled]
      exact ⟨timer, holds⟩
    · rw [here]
      exact ⟨timer, fun _ => ⟨holds, flag⟩⟩
  · intro k j func fd data given
    rcases blocks k _ given with old | ⟨_, rfl, timer⟩
    · obtain ⟨lt, timer⟩ := h.read k j func fd data old
      rw [source_of_used new sources lt]
      exact ⟨by omega, timer⟩
    · rw [here]
      exact ⟨by omega, timer⟩
  · intro fd j registered
    rcases kqueue fd j registered with old | ⟨rfl, timer⟩
    · obtain ⟨lt, timer⟩ := h.kqueue fd j old
      rw [source_of_used new sources lt]
      exact ⟨by omega, timer⟩
    · rw [here]
      exact ⟨by omega, timer⟩

theorem Wired.create_keeps (h : s.Wired) (block : Block) {k : Nat} {b : Block}
    (given : s.gcd.handler k = some b) : (s.gcd.create block).handler k = some b := by
  have old := h.issued k b given
  exact (Function.update_of_ne (Nat.ne_of_lt old) _ _).trans given

theorem create_blocks (block : Block) {i : Fin maxSources} {src : Source} {k : Nat} {b : Block}
    (fits : Fits i src s.gcd.ledger.allocated block)
    (given : (s.gcd.create block).handler k = some b) :
    s.gcd.handler k = some b ∨ k < s.gcd.ledger.allocated + 1 ∧ Fits i src k b := by
  change Function.update s.gcd.handler s.gcd.ledger.allocated (some block) k = some b at given
  by_cases new : k = s.gcd.ledger.allocated
  · rw [new, Function.update_self] at given
    obtain rfl := Option.some.inj given
    exact Or.inr ⟨new ▸ Nat.lt_succ_self _, new ▸ fits⟩
  · rw [Function.update_of_ne new] at given
    exact Or.inl given

theorem Wired.addFd (h : s.Wired) (fd : Int32) (mask : UInt32) (func data : UInt64) :
    (s.addFd fd mask func data).1.Wired := by
  unfold Loop.addFd
  split
  · rename_i room
    obtain ⟨blank, _, empty⟩ := h.unused ⟨s.sourceCount, room⟩ (Nat.le_refl _)
    dsimp only
    split
    · refine h.grow ⟨s.sourceCount, room⟩ rfl rfl rfl rfl (Nat.le_succ _)
        (fun _ _ => h.create_keeps _) (fun _ _ => create_blocks _ ⟨rfl, blank⟩) ?_
        fun _ _ => Or.inl
      intro k holds
      obtain rfl := Option.some.inj holds
      exact ⟨_, Function.update_self .., rfl⟩
    · split
      · refine h.grow ⟨s.sourceCount, room⟩ rfl rfl rfl rfl (Nat.le_refl _) (fun _ _ => id)
          (fun _ _ => Or.inl) (fun _ holds => absurd (empty.symm.trans holds) nofun) ?_
        intro fd' j registered
        cases List.mem_cons.mp registered with
        | inl here => exact Or.inr ⟨(Prod.mk.inj here).2, blank⟩
        | inr old => exact Or.inl old
      · exact h.grow ⟨s.sourceCount, room⟩ rfl rfl rfl rfl (Nat.le_refl _) (fun _ _ => id)
          (fun _ _ => Or.inl) (fun _ holds => absurd (empty.symm.trans holds) nofun)
          fun _ _ => Or.inl
  · exact h

theorem Wired.addTimer (h : s.Wired) (func data : UInt64) : (s.addTimer func data).1.Wired := by
  unfold Loop.addTimer
  split
  · rename_i room
    have blank := (h.unused ⟨s.sourceCount, room⟩ (Nat.le_refl _)).2.1
    refine h.grow ⟨s.sourceCount, room⟩ rfl rfl rfl rfl (Nat.le_succ _)
      (fun _ _ => h.create_keeps _) (fun _ _ => create_blocks _ ⟨rfl, rfl, rfl, blank⟩) ?_
      fun _ _ => Or.inl
    intro k holds
    obtain rfl := Option.some.inj holds
    exact ⟨_, Function.update_self .., rfl⟩
  · exact h

theorem Wired.timerUpdate (h : s.Wired) (i : Fin maxSources) (ms : Int32) (now : UInt64) :
    (s.timerUpdate i ms now).1.Wired := by
  unfold Loop.timerUpdate
  split
  · exact h
  · dsimp only
    split <;> exact h.keep rfl rfl rfl rfl rfl fun _ => id

theorem Wired.remove (h : s.Wired) {i : Fin maxSources} (used : i.val < s.sourceCount) :
    ((s.record (.removed i)).remove i).Wired := by
  unfold Loop.remove
  dsimp only
  split
  · rename_i k holds
    refine h.edit i used rfl rfl (fun _ e => by cases e) ?_ rfl rfl rfl rfl fun _ =>
      List.mem_cons_of_mem k
    intro j func data given live
    have old := (h.timer j i func data given).2 fun gone => live (List.mem_cons_of_mem k gone)
    obtain rfl := Option.some.inj (holds.symm.trans old.1)
    exact absurd List.mem_cons_self live
  · rename_i holds
    refine h.edit i used rfl rfl (fun _ => id) ?_ rfl rfl rfl rfl fun _ => id
    intro j func data given live
    have old := (h.timer j i func data given).2 live
    cases holds.symm.trans old.1

theorem Wired.ran (h : s.Wired) (ran : s' = s ∨ ∃ c, s' = s.record (.ran c)) : s'.Wired := by
  rcases ran with rfl | ⟨c, rfl⟩
  · exact h
  · exact h.keep rfl rfl rfl rfl rfl fun _ => id

theorem Wired.cancelHandler (h : s.Wired) {k : Nat} {b : Block}
    (given : s.gcd.handler k = some b) : (s.cancelHandler b).Wired := by
  cases b with
  | read i func fd data =>
      obtain ⟨used, kind⟩ := h.read k i func fd data given
      refine h.edit i used rfl rfl (fun _ => id) ?_ rfl rfl rfl rfl fun _ => id
      intro j func data other _
      exact absurd (kind.symm.trans (h.timer j i func data other).1) Bool.false_ne_true
  | timer i func data => exact h

theorem Wired.destroy (h : s.Wired) : Wired { s.destroy with destroyed := true } := by
  obtain ⟨allocated, _, cancelled⟩ :=
    Gcd.foldl_drop ((List.finRange maxSources).filterMap s.heldSource) s.gcd
  refine h.keep rfl rfl rfl (Gcd.foldl_drop_handler _ _) allocated ?_
  intro k gone
  change k ∈ (List.foldl Gcd.drop s.gcd _).cancelled
  rw [cancelled]
  exact List.mem_append_right _ gone

theorem Wired.step (h : s.Wired) {e : Event} (next : s.step e = some s') : s'.Wired := by
  cases (step_spec next).2 with
  | addFd fd mask func data => exact h.addFd fd mask func data
  | addTimer func data => exact h.addTimer func data
  | timerUpdate i ms now used => exact h.timerUpdate i ms now
  | remove i used => exact h.remove used
  | fire k b given => exact h.ran (fire_cases s b)
  | cancelHandler k b gone given => exact h.cancelHandler given
  | kevent ev known => exact h.ran (dispatchOne_cases s ev)
  | destroy => exact h.destroy

/-- No two slots hold the same dispatch source. -/
theorem Wired.unique (h : s.Wired) {i j : Fin maxSources} {k : Nat}
    (holds : (s.sources i).dispatchSrc = some k) (holds' : (s.sources j).dispatchSrc = some k) :
    i = j := by
  obtain ⟨b, given, rfl⟩ := h.own i k holds
  obtain ⟨b', given', rfl⟩ := h.own j k holds'
  rw [Option.some.inj (given.symm.trans given')]

end Loop
end LunaOS.EventLoop
