import LunaOS.Shell.Surfaces

/-!
The memory of the shell's surfaces from create to destroy. While no call fails, a module
holds the four resources that its fields name, and its release and its destroy give
them back. After a failure `pixels` is neither null nor mapped, and no test of the code
tells that apart from a mapping. The panel is created with the descriptor 0 in its
record, and only a configure replaces it.
-/
namespace LunaOS.Shell
open Custody

namespace Surface

variable {s s' t : Surface}

/-- What the fields of a module name, in the order of their release. -/
def fieldResources (s : Surface) : List Resource :=
  [.region s.pixels s.size, .buffer s.buffer, .pool s.shmPool, .fd s.shmFd]

/-- The module holds a mapping and all that belongs to it. -/
structure Backed (s : Surface) : Prop where
  pixels : ∃ addr, s.pixels = .mapped addr
  buffer : s.buffer ≠ none
  shmPool : s.shmPool ≠ none
  shmFd : 0 ≤ s.shmFd
  holds : Holds s.ops s.fieldResources
  live : s.faulted = false

structure Bare (s : Surface) : Prop where
  pixels : s.pixels = .null
  buffer : s.buffer = none
  shmPool : s.shmPool = none
  holds : Holds s.ops []
  live : s.faulted = false

/-- A rule was broken, or `pixels` is about to break one. -/
def Doomed (s : Surface) : Prop :=
  ¬ Clean s.ops ∨
    s.faulted = false ∧ s.pixels ≠ .null ∧ ∀ size, ¬ Owned s.ops (.region s.pixels size)

structure SameMemory (s s' : Surface) : Prop where
  ops : s'.ops = s.ops
  pixels : s'.pixels = s.pixels
  size : s'.size = s.size
  buffer : s'.buffer = s.buffer
  shmPool : s'.shmPool = s.shmPool
  shmFd : s'.shmFd = s.shmFd
  faulted : s'.faulted = s.faulted

theorem SameMemory.backed (same : SameMemory s s') (h : Backed s) : Backed s' := by
  obtain ⟨ops, pixels, size, buffer, shmPool, shmFd, faulted⟩ := same
  refine ⟨pixels ▸ h.pixels, buffer ▸ h.buffer, shmPool ▸ h.shmPool, shmFd ▸ h.shmFd, ?_,
    faulted ▸ h.live⟩
  rw [fieldResources, ops, pixels, size, buffer, shmPool, shmFd]
  exact h.holds

theorem SameMemory.bare (same : SameMemory s s') (h : Bare s) : Bare s' :=
  ⟨same.pixels.trans h.pixels, same.buffer.trans h.buffer, same.shmPool.trans h.shmPool,
    same.ops ▸ h.holds, same.faulted.trans h.live⟩

theorem SameMemory.doomed (same : SameMemory s s') (h : Doomed s) : Doomed s' := by
  unfold Doomed
  rw [same.ops, same.pixels, same.faulted]
  exact h

theorem Quiet.unclean (quiet : Quiet s s') (broken : ¬ Clean s.ops) : ¬ Clean s'.ops := by
  obtain ⟨out, calls, _⟩ := quiet.calls
  refine fun clean => broken ?_
  rw [ops, calls, List.filterMap_append] at clean
  exact clean.left

theorem lsAccept_same (p : Surface) (c : Configure) : SameMemory p (p.lsAccept c) :=
  ⟨(ops_call p (.ackConfigure c.serial)).trans (List.append_nil _), rfl, rfl, rfl, rfl, rfl, rfl⟩

theorem llAccept_same (l : Surface) (c : Configure) : SameMemory l (l.llAccept c) :=
  ⟨(ops_call l (.ackConfigure c.serial)).trans (List.append_nil _), rfl, rfl, rfl, rfl, rfl, rfl⟩

theorem wpAccept_same (wp : Surface) (c : Configure) : SameMemory wp (wp.wpAccept c) :=
  ⟨(ops_call wp (.ackConfigure c.serial)).trans (List.append_nil _), rfl, rfl, rfl, rfl, rfl, rfl⟩

theorem configured_same (s : Surface) : SameMemory s { s with configured := true } :=
  ⟨rfl, rfl, rfl, rfl, rfl, rfl, rfl⟩

theorem present_same (s : Surface) (pw ph : Int32) : SameMemory s (s.present pw ph) := by
  by_cases ended : s.faulted = true
  · rw [present, if_pos ended]
    exact ⟨rfl, rfl, rfl, rfl, rfl, rfl, rfl⟩
  · rw [present, if_neg ended]
    constructor <;> simp [ops, commit, attach, call, Call.op]

/-! Giving back. -/

theorem holds_call {held held' : List Resource} (c : Call) {op : Op Resource}
    (h : Holds s.ops held) (here : c.op = some op)
    (rule : Holds s.ops held → Holds (s.ops ++ [op]) held') : Holds (s.call c).ops held' := by
  rw [ops_call, here]
  exact rule h

theorem clean_call (c : Call) {op : Op Resource} (here : c.op = some op) :
    Clean (s.call c).ops ↔ Clean s.ops ∧ Lawful s.ops op := by
  rw [ops_call, here]
  exact clean_concat s.ops op

theorem releaseAll_backed (h : Backed s) : Holds s.releaseAll.ops [] := by
  have unmapped := holds_call (.munmap s.pixels s.size) h.holds rfl
    fun held => held.release (by simp)
  have unbuffered := holds_call (.destroyBuffer s.buffer) unmapped rfl
    fun held => held.release (by simp)
  have unpooled := holds_call (.destroyPool s.shmPool) unbuffered rfl
    fun held => held.release (by simp)
  exact holds_call (.close s.shmFd) unpooled rfl fun held => held.release List.not_mem_nil

theorem releaseOld_backed (h : Backed s) : Holds s.releaseOld.ops [] := by
  obtain ⟨addr, mapped⟩ := h.pixels
  rw [releaseOld, if_neg (by rw [mapped]; nofun)]
  exact releaseAll_backed h

theorem releaseOld_pixels (s : Surface) : s.releaseOld.pixels = s.pixels := by
  unfold releaseOld
  split <;> rfl

theorem releaseOld_bare (h : Bare s) : s.releaseOld = s := by
  rw [releaseOld, if_pos h.pixels]

theorem released (h : Bare s ∨ Backed s) :
    Holds s.releaseOld.ops [] ∧ s.releaseOld.faulted = false := by
  obtain bare | backed := h
  · rw [releaseOld_bare bare]
    exact ⟨bare.holds, bare.live⟩
  · refine ⟨releaseOld_backed backed, ?_⟩
    unfold releaseOld
    split <;> exact backed.live

theorem not_clean_munmap (free : ∀ size, ¬ Owned s.ops (.region s.pixels size)) :
    ¬ Clean (s.call (.munmap s.pixels s.size)).ops := by
  intro clean
  have lawful := ((clean_call (.munmap s.pixels s.size) rfl).mp clean).2
  exact free s.size lawful

theorem releaseOld_doomed (h : Doomed s) : ¬ Clean s.releaseOld.ops := by
  obtain broken | ⟨_, dangling, free⟩ := h
  · exact (releaseOld_quiet s).unclean broken
  · rw [releaseOld, if_neg dangling]
    exact (releaseAll_quiet s).unclean (not_clean_munmap free)

theorem destroy_backed (h : Backed s) : Exact s.destroy.ops := by
  obtain ⟨addr, mapped⟩ := h.pixels
  have null : s.pixels ≠ .null := by
    rw [mapped]
    nofun
  have all : s.destroy = s.releaseAll := by
    simp [destroy, releaseAll, h.live, null, h.buffer, h.shmPool, Int32.not_lt.mpr h.shmFd, call]
  rw [all]
  exact (exact_iff_holds _).mpr (releaseAll_backed h)

/-- A module that holds nothing may be destroyed, unless its record names a descriptor. -/
theorem destroy_bare (h : Bare s) : Exact s.destroy.ops ↔ s.shmFd < 0 := by
  have closes : s.destroy = if s.shmFd < 0 then s else s.call (.close s.shmFd) := by
    simp [destroy, h.live, h.pixels, h.buffer, h.shmPool]
  rw [closes]
  split
  · exact iff_of_true ((exact_iff_holds _).mpr h.holds) ‹_›
  · refine iff_of_false (fun exact => ?_) ‹_›
    have lawful := ((clean_call (.close s.shmFd) rfl).mp exact.1).2
    exact List.not_mem_nil ((h.holds.2 _).mp lawful)

theorem destroy_doomed (h : Doomed s) : ¬ Exact s.destroy.ops := by
  intro exact
  obtain broken | ⟨live, dangling, free⟩ := h
  · cases ended : s.faulted with
    | true =>
        rw [destroy, if_pos ended] at exact
        exact broken exact.1
    | false =>
        have unmaps := quiet_unless s (.munmap s.pixels s.size) rfl (s.pixels = .null)
        exact (unmaps.trans (destroy_quiet ended)).unclean broken exact.1
  · have rest := destroy_quiet live
    rw [if_neg dangling] at rest
    exact rest.unclean (not_clean_munmap free) exact.1

/-! Acquiring. -/

def Unmapped (s : Surface) : Prop :=
  ∀ pixels size, ¬ Owned s.ops (.region pixels size)

theorem unmapped_of_holds (h : Holds s.ops []) : s.Unmapped :=
  fun _ _ owned => List.not_mem_nil ((h.2 _).mp owned)

theorem Unmapped.doomed (h : s.Unmapped) (live : s.faulted = false) (dangling : s.pixels ≠ .null) :
    Doomed s :=
  Or.inr ⟨live, dangling, h s.pixels⟩

theorem Unmapped.call (h : s.Unmapped) (c : Call)
    (other : ∀ pixels size, c.op ≠ some (.acquire (.region pixels size))) :
    (s.call c).Unmapped := by
  intro pixels size owned
  rw [ops_call] at owned
  cases here : c.op with
  | none =>
      rw [here] at owned
      exact h pixels size (List.append_nil s.ops ▸ owned)
  | some op =>
      rw [here] at owned
      cases op with
      | acquire r =>
          obtain rfl | before := (owned_acquire _ _ _).mp owned
          · exact other pixels size here
          · exact h pixels size before
      | release r => exact h pixels size ((owned_release _ _ _).mp owned).2
      | use r => exact h pixels size ((owned_use _ _ _).mp owned)

/-- Every call of the allocation succeeds. -/
theorem acquired {pw ph : Int32} {a : Allocation} {s₁ s₂ s₃ : Surface} (h : Holds s.ops [])
    (live : s.faulted = false) (succeeds : a.Succeeds) (opened : s.shmOpen a.shmFd = some s₁)
    (mapping : s₁.mmap a.addr = some s₂) (pooled : s₂.createPool a.pool = some s₃)
    (buffered : s₃.createBuffer a.buffer pw ph = some s') : Backed s' := by
  obtain ⟨descriptor, mapped⟩ := succeeds
  obtain ⟨enabled, rfl⟩ := shmOpen_cases opened
  have free : ¬ Owned s.ops (.fd a.shmFd) := by
    obtain refused | ⟨_, free⟩ := enabled
    · rw [refused] at descriptor
      exact absurd descriptor (by decide)
    · exact free
  have held₁ : Holds (s.call (.shmOpen a.shmFd)).ops [.fd a.shmFd] :=
    holds_call _ h (if_pos descriptor) fun held => held.acquire free
  obtain ⟨refused, _⟩ | ⟨addr, _, _, free, rfl⟩ := mmap_cases mapping
  · rw [refused] at mapped
    cases mapped
  have held₂ := holds_call (.mmap a.shmFd s.size (.mapped addr)) held₁ rfl
    fun held => held.acquire free
  obtain ⟨free, rfl⟩ := createPool_cases pooled
  have held₃ := holds_call (.createPool a.pool a.shmFd s.size.toInt64.toInt32) held₂ rfl
    fun held => held.acquire free
  obtain ⟨free, rfl⟩ := createBuffer_cases buffered
  have held₄ := holds_call (.createBuffer a.buffer (some a.pool) pw ph s.stride) held₃ rfl
    fun held => held.acquire free
  exact ⟨⟨addr, rfl⟩, nofun, nofun, descriptor, held₄.perm (@List.perm_middle _ _ [_, _] _), live⟩

theorem allocate_succeeds {pw ph : Int32} {a : Allocation} (h : Holds s.ops [])
    (live : s.faulted = false) (succeeds : a.Succeeds) (next : s.allocate pw ph a = some s') :
    Backed s' := by
  obtain ⟨s₁, s₂, s₃, opened, mapping, pooled, buffered⟩ := allocate_cases next
  have sized : Holds (s.setStride pw ph).ops [] := h
  exact acquired sized live succeeds opened mapping pooled buffered

theorem Unmapped.shmOpen {result : Int32} (h : s.Unmapped) (next : s.shmOpen result = some s') :
    s'.Unmapped := by
  obtain ⟨_, rfl⟩ := shmOpen_cases next
  have called : (s.call (.shmOpen result)).Unmapped := by
    refine h.call _ fun pixels size => ?_
    show (if 0 ≤ result then some (Op.acquire (Resource.fd result)) else none) ≠ _
    split <;> nofun
  exact called

theorem not_mapped_of_fails {a : Allocation} (fails : ¬ a.Succeeds) {s₁ s₂ : Surface}
    (opened : s.shmOpen a.shmFd = some s₁) (mapping : s₁.mmap a.addr = some s₂) :
    s₂ = { s₁.call (.mmap s₁.shmFd s₁.size .failed) with pixels := .failed } := by
  obtain ⟨_, rfl⟩ := shmOpen_cases opened
  obtain ⟨_, same⟩ | ⟨addr, mapped, descriptor, _⟩ := mmap_cases mapping
  · exact same
  · exact absurd ⟨descriptor, by rw [mapped]; rfl⟩ fails

/-- A call of the allocation fails, and the fields are written all the same. -/
theorem allocate_fails {pw ph : Int32} {a : Allocation} (h : Holds s.ops [])
    (live : s.faulted = false) (fails : ¬ a.Succeeds) (next : s.allocate pw ph a = some s') :
    Doomed s' := by
  obtain ⟨s₁, s₂, s₃, opened, mapping, pooled, buffered⟩ := allocate_cases next
  have sized : (s.setStride pw ph).Unmapped := unmapped_of_holds h
  have unmapped := sized.shmOpen opened
  obtain rfl := not_mapped_of_fails fails opened mapping
  have unmapped₂ := unmapped.call (.mmap s₁.shmFd s₁.size .failed) nofun
  obtain ⟨_, rfl⟩ := createPool_cases pooled
  have unmapped₃ := unmapped₂.call (.createPool a.pool s₁.shmFd s₁.size.toInt64.toInt32) nofun
  obtain ⟨_, rfl⟩ := createBuffer_cases buffered
  have unmapped₄ := unmapped₃.call (.createBuffer a.buffer (some a.pool) pw ph s₁.stride) nofun
  obtain ⟨_, rfl⟩ := shmOpen_cases opened
  exact Or.inr ⟨live, nofun, unmapped₄ _⟩

theorem allocate_after {pw ph : Int32} {a : Allocation} (h : Bare s ∨ Backed s)
    (next : s.releaseOld.allocate pw ph a = some s') :
    (a.Succeeds → Backed s') ∧ (¬ a.Succeeds → Doomed s') := by
  obtain ⟨holds, live⟩ := released h
  exact ⟨fun succeeds => allocate_succeeds holds live succeeds next,
    fun fails => allocate_fails holds live fails next⟩

/-! Drawing. -/

theorem draw_backed (h : Backed s) (drawn : Bool) : Backed (s.draw drawn) := by
  unfold draw
  split
  · have region : Resource.region s.pixels s.size ∈ s.fieldResources := List.mem_cons_self
    have written : Holds (s.call (.write s.pixels s.size)).ops s.fieldResources :=
      holds_call _ h.holds rfl fun held => held.use region
    have inside : decide (¬ Owned s.ops (.region s.pixels s.size)) = false :=
      decide_eq_false (not_not.mpr ((h.holds.2 _).mpr region))
    exact ⟨h.pixels, h.buffer, h.shmPool, h.shmFd, written, inside⟩
  · exact h

theorem draw_doomed (h : Doomed s) (drawn : Bool) : Doomed (s.draw drawn) := by
  obtain broken | ⟨live, dangling, free⟩ := h
  · exact Or.inl ((draw_quiet s drawn).unclean broken)
  · unfold draw
    split
    · refine Or.inl fun clean => free s.size ?_
      have written : Clean (s.call (.write s.pixels s.size)).ops := clean
      exact ((clean_call (.write s.pixels s.size) rfl).mp written).2
    · exact Or.inr ⟨live, dangling, free⟩

theorem render_backed (h : Backed s) (drawn : Bool) (pw ph : Int32) :
    Backed (s.render drawn pw ph) := by
  unfold render
  split
  · exact h
  · exact (present_same _ pw ph).backed (draw_backed h drawn)

theorem render_doomed (h : Doomed s) (drawn : Bool) (pw ph : Int32) :
    Doomed (s.render drawn pw ph) := by
  unfold render
  split
  · exact h
  · exact (present_same _ pw ph).doomed (draw_doomed h drawn)

theorem render_bare (h : Bare s) (drawn : Bool) (pw ph : Int32) : s.render drawn pw ph = s := by
  rw [render, if_pos]
  simp [h.pixels]

/-! The launcher and the wallpaper. -/

theorem llConfigure_after {l l' : Surface} {c : Configure} (h : Bare l ∨ Backed l)
    (next : l.llConfigure c = some l') :
    (c.alloc.Succeeds → Backed l') ∧ (¬ c.alloc.Succeeds → Doomed l') := by
  obtain ⟨l₁, allocated, next⟩ := Option.bind_eq_some_iff.mp next
  obtain rfl := Option.some.inj next
  have accepted := h.imp (llAccept_same l c).bare (llAccept_same l c).backed
  obtain ⟨served, failed⟩ := allocate_after accepted allocated
  split
  · exact ⟨fun succeeds => render_backed (served succeeds) _ _ _,
      fun fails => render_doomed (failed fails) _ _ _⟩
  · exact ⟨served, failed⟩

theorem wpConfigure_after {wp wp' : Surface} {c : Configure} (h : Bare wp ∨ Backed wp)
    (next : wp.wpConfigure c = some wp') :
    (c.alloc.Succeeds → Backed wp') ∧ (¬ c.alloc.Succeeds → Doomed wp') := by
  obtain ⟨wp₁, allocated, next⟩ := Option.bind_eq_some_iff.mp next
  obtain rfl := Option.some.inj next
  have accepted := h.imp (wpAccept_same wp c).bare (wpAccept_same wp c).backed
  obtain ⟨served, failed⟩ := allocate_after accepted allocated
  refine ⟨fun succeeds => (configured_same _).backed ?_,
    fun fails => (configured_same _).doomed ?_⟩
  · exact (present_same _ _ _).backed (draw_backed (served succeeds) _)
  · exact (present_same _ _ _).doomed (draw_doomed (failed fails) _)

theorem llConfigure_doomed {l l' : Surface} {c : Configure} (h : Doomed l)
    (next : l.llConfigure c = some l') : Doomed l' := by
  obtain ⟨l₁, allocated, next⟩ := Option.bind_eq_some_iff.mp next
  obtain rfl := Option.some.inj next
  have broken := releaseOld_doomed ((llAccept_same l c).doomed h)
  have still : Doomed l₁ := Or.inl ((allocate_quiet allocated).unclean broken)
  split
  · exact render_doomed still _ _ _
  · exact still

theorem wpConfigure_doomed {wp wp' : Surface} {c : Configure} (h : Doomed wp)
    (next : wp.wpConfigure c = some wp') : Doomed wp' := by
  obtain ⟨wp₁, allocated, next⟩ := Option.bind_eq_some_iff.mp next
  obtain rfl := Option.some.inj next
  have broken := releaseOld_doomed ((wpAccept_same wp c).doomed h)
  have still : Doomed wp₁ := Or.inl ((allocate_quiet allocated).unclean broken)
  exact (configured_same _).doomed ((present_same _ _ _).doomed (draw_doomed still _))

/-! The panel. -/

/-- `create_shm` with a `shm_open` that fails returns at once. -/
theorem createShm_refused {p p' : Surface} {a : Allocation} (refused : a.shmFd = -1)
    (next : p.createShm a = some p') :
    p'.ops = p.ops ∧ p'.pixels = p.pixels ∧ p'.buffer = p.buffer ∧ p'.shmPool = p.shmPool ∧
      p'.faulted = p.faulted ∧ p'.shmFd = -1 := by
  obtain ⟨p₁, opened, rest⟩ := createShm_cases next
  obtain ⟨_, rfl⟩ := shmOpen_cases opened
  rw [refused] at rest
  obtain ⟨_, rfl⟩ | ⟨descriptor, _⟩ := rest
  · exact ⟨(ops_call _ (.shmOpen (-1))).trans (List.append_nil _), rfl, rfl, rfl, rfl, rfl⟩
  · have negative : (-1 : Int32) < 0 := by decide
    exact absurd negative descriptor

theorem createShm_succeeds {p p' : Surface} {a : Allocation} (h : Holds p.ops [])
    (live : p.faulted = false) (succeeds : a.Succeeds) (next : p.createShm a = some p') :
    Backed p' := by
  obtain ⟨p₁, opened, rest⟩ := createShm_cases next
  have sized : Holds (p.setStride p.physW p.physH).ops [] := h
  obtain ⟨refused, _⟩ | ⟨_, p₂, mapping, ⟨unmapped, _⟩ | ⟨_, p₃, pooled, buffered⟩⟩ := rest
  · obtain ⟨_, rfl⟩ := shmOpen_cases opened
    exact absurd refused (Int32.not_lt.mpr succeeds.1)
  · obtain ⟨missing, _⟩ | ⟨addr, _, _, _, rfl⟩ := mmap_cases mapping
    · exact absurd succeeds.2 (by rw [missing]; nofun)
    · cases unmapped
  · exact acquired sized live succeeds opened mapping pooled buffered

/-- After a `mmap` that fails `create_shm` closes the descriptor and leaves `pixels`. -/
theorem createShm_unmapped {p p' : Surface} {a : Allocation} (h : Holds p.ops [])
    (opens : a.shmFd ≠ -1) (fails : ¬ a.Succeeds) (next : p.createShm a = some p') :
    p'.Unmapped ∧ p'.pixels = .failed ∧ p'.faulted = p.faulted := by
  obtain ⟨p₁, opened, rest⟩ := createShm_cases next
  have sized : (p.setStride p.physW p.physH).Unmapped := unmapped_of_holds h
  have unmapped := sized.shmOpen opened
  obtain ⟨refused, _⟩ | ⟨_, p₂, mapping, rest⟩ := rest
  · obtain ⟨enabled, rfl⟩ := shmOpen_cases opened
    obtain ⟨descriptor, _⟩ := enabled.resolve_left opens
    exact absurd refused (Int32.not_lt.mpr descriptor)
  · obtain rfl := not_mapped_of_fails fails opened mapping
    obtain ⟨_, rfl⟩ | ⟨mapped, _⟩ := rest
    · have unmapped₂ := unmapped.call (.mmap p₁.shmFd p₁.size .failed) nofun
      have unmapped₃ := unmapped₂.call (.close p₁.shmFd) nofun
      obtain ⟨_, rfl⟩ := shmOpen_cases opened
      exact ⟨unmapped₃, rfl, rfl⟩
    · exact absurd rfl mapped

variable {p p' : Surface} {c : Configure}

theorem lsConfigure_succeeds (h : Bare p ∨ Backed p) (succeeds : c.alloc.Succeeds)
    (next : p.lsConfigure c = some p') : Backed p' := by
  obtain ⟨p₁, shm, next⟩ := Option.bind_eq_some_iff.mp next
  obtain rfl := Option.some.inj next
  obtain ⟨holds, live⟩ := released (h.imp (lsAccept_same p c).bare (lsAccept_same p c).backed)
  have served := createShm_succeeds holds live succeeds shm
  exact render_backed ((configured_same p₁).backed served) _ _ _

theorem lsConfigure_unmapped (h : Bare p ∨ Backed p) (opens : c.alloc.shmFd ≠ -1)
    (fails : ¬ c.alloc.Succeeds) (next : p.lsConfigure c = some p') : Doomed p' := by
  obtain ⟨p₁, shm, next⟩ := Option.bind_eq_some_iff.mp next
  obtain rfl := Option.some.inj next
  obtain ⟨holds, live⟩ := released (h.imp (lsAccept_same p c).bare (lsAccept_same p c).backed)
  obtain ⟨unmapped, pixels, faulted⟩ := createShm_unmapped holds opens fails shm
  have failed := unmapped.doomed (faulted.trans live) (by rw [pixels]; nofun)
  exact render_doomed ((configured_same p₁).doomed failed) _ _ _

/-- Without a mapping before it, a `shm_open` that fails leaves no trace but a descriptor
that says so. -/
theorem lsConfigure_refused_bare (h : Bare p) (refused : c.alloc.shmFd = -1)
    (next : p.lsConfigure c = some p') : Bare p' ∧ p'.shmFd = -1 := by
  obtain ⟨p₁, shm, next⟩ := Option.bind_eq_some_iff.mp next
  obtain rfl := Option.some.inj next
  have bare := (lsAccept_same p c).bare h
  rw [releaseOld_bare bare] at shm
  obtain ⟨ops, pixels, buffer, shmPool, faulted, shmFd⟩ := createShm_refused refused shm
  have still : Bare { p₁ with configured := true } :=
    ⟨pixels.trans bare.pixels, buffer.trans bare.buffer, shmPool.trans bare.shmPool,
      ops ▸ bare.holds, faulted.trans bare.live⟩
  rw [panelRender, render_bare still]
  exact ⟨still, shmFd⟩

/-- A `shm_open` that fails where a mapping was released leaves `pixels` pointing to it. -/
theorem lsConfigure_refused_backed (h : Backed p) (refused : c.alloc.shmFd = -1)
    (next : p.lsConfigure c = some p') : Doomed p' := by
  obtain ⟨p₁, shm, next⟩ := Option.bind_eq_some_iff.mp next
  obtain rfl := Option.some.inj next
  have backed := (lsAccept_same p c).backed h
  obtain ⟨holds, live⟩ := released (Or.inr backed)
  obtain ⟨ops, pixels, _, _, faulted, _⟩ := createShm_refused refused shm
  obtain ⟨addr, mapped⟩ := backed.pixels
  have dangling : p₁.pixels ≠ .null := by
    rw [pixels, releaseOld_pixels, mapped]
    nofun
  have still : Doomed p₁ :=
    (unmapped_of_holds (ops ▸ holds)).doomed (faulted.trans live) dangling
  exact render_doomed ((configured_same p₁).doomed still) _ _ _

theorem lsConfigure_doomed (h : Doomed p) (next : p.lsConfigure c = some p') : Doomed p' := by
  obtain ⟨p₁, shm, next⟩ := Option.bind_eq_some_iff.mp next
  obtain rfl := Option.some.inj next
  have broken := releaseOld_doomed ((lsAccept_same p c).doomed h)
  have still : Doomed p₁ := Or.inl ((createShm_quiet shm).unclean broken)
  exact render_doomed ((configured_same p₁).doomed still) _ _ _

/-! The runs. -/

/-- At first only `shm_open` fails, and after it has succeeded nothing does. -/
def RefusedThenServed (cs : List Configure) : Prop :=
  ∃ refused served, cs = refused ++ served ∧ (∀ c ∈ refused, c.alloc.shmFd = -1) ∧
    ∀ c ∈ served, c.alloc.Succeeds

theorem refused_not_succeeds (refused : c.alloc.shmFd = -1) : ¬ c.alloc.Succeeds := by
  intro ⟨descriptor, _⟩
  rw [refused] at descriptor
  exact absurd descriptor (by decide)

theorem refusedThenServed_cons (c : Configure) (cs : List Configure) :
    RefusedThenServed (c :: cs) ↔
      c.alloc.shmFd = -1 ∧ RefusedThenServed cs ∨ ∀ d ∈ c :: cs, d.alloc.Succeeds := by
  constructor
  · rintro ⟨_ | ⟨d, refused⟩, served, split, failed, fine⟩
    · exact Or.inr (split ▸ fine)
    · obtain ⟨rfl, rfl⟩ := List.cons.inj split
      obtain ⟨here, later⟩ := List.forall_mem_cons.mp failed
      exact Or.inl ⟨here, refused, served, rfl, later, fine⟩
  · rintro (⟨here, refused, served, rfl, failed, fine⟩ | fine)
    · exact ⟨c :: refused, served, rfl, List.forall_mem_cons.mpr ⟨here, failed⟩, fine⟩
    · exact ⟨[], c :: cs, rfl, nofun, fine⟩

def Clear (s : Surface) : Prop :=
  (Bare s ∧ s.shmFd < 0) ∨ Backed s

theorem Clear.exact (h : Clear s) : Exact s.destroy.ops :=
  h.elim (fun bare => (destroy_bare bare.1).mpr bare.2) destroy_backed

theorem exact_iff_all {step : Surface → Configure → Option Surface} {C : Configure → Prop}
    {Good : Surface → Prop} (ends : ∀ s, Good s → Exact s.destroy.ops)
    (good : ∀ s c s', Good s → step s c = some s' → (C c → Good s') ∧ (¬ C c → Doomed s'))
    (bad : ∀ s c s', Doomed s → step s c = some s' → Doomed s') {cs : List Configure}
    (init : Good s) (ran : Runs.run step s cs = some s') :
    Exact s'.destroy.ops ↔ ∀ c ∈ cs, C c := by
  obtain ⟨kept, fell⟩ := Runs.run_good_or_bad good bad init ran
  constructor
  · intro exact
    by_contra broken
    exact destroy_doomed (fell broken) exact
  · exact fun all => ends s' (kept all)

theorem Clear.bare_or_backed (h : Clear s) : Bare s ∨ Backed s :=
  h.imp_left And.left

theorem Clear.live (h : Clear s) : s.faulted = false :=
  h.bare_or_backed.elim Bare.live Backed.live

/-- What a handler does to a module that is clear, as a step. -/
theorem Clear.step {next : Option Surface} (h : Clear s) (ran : s.whileAlive next = some s')
    (handles : Bare s ∨ Backed s → next = some s' →
      (c.alloc.Succeeds → Backed s') ∧ (¬ c.alloc.Succeeds → Doomed s')) :
    (c.alloc.Succeeds → Clear s') ∧ (¬ c.alloc.Succeeds → Doomed s') := by
  obtain ⟨ended, _⟩ | ⟨_, handled⟩ := whileAlive_cases ran
  · exact absurd h.live (ne_false_of_eq_true ended)
  · obtain ⟨served, failed⟩ := handles h.bare_or_backed handled
    exact ⟨fun succeeds => Or.inr (served succeeds), failed⟩

theorem Doomed.step {next : Option Surface} (h : Doomed s) (ran : s.whileAlive next = some s')
    (handles : next = some s' → Doomed s') : Doomed s' := by
  obtain ⟨_, rfl⟩ | ⟨_, handled⟩ := whileAlive_cases ran
  · exact h
  · exact handles handled

theorem launcherStep_clear {l l' : Surface} (h : Clear l)
    (next : l.launcherStep (.configure c) = some l') :
    (c.alloc.Succeeds → Clear l') ∧ (¬ c.alloc.Succeeds → Doomed l') :=
  h.step next llConfigure_after

theorem launcherStep_doomed {l l' : Surface} (h : Doomed l)
    (next : l.launcherStep (.configure c) = some l') : Doomed l' :=
  h.step next (llConfigure_doomed h)

theorem wallpaperStep_clear {wp wp' : Surface} (h : Clear wp)
    (next : wp.wallpaperStep c = some wp') :
    (c.alloc.Succeeds → Clear wp') ∧ (¬ c.alloc.Succeeds → Doomed wp') :=
  h.step next wpConfigure_after

theorem wallpaperStep_doomed {wp wp' : Surface} (h : Doomed wp)
    (next : wp.wallpaperStep c = some wp') : Doomed wp' :=
  h.step next (wpConfigure_doomed h)

theorem panelStep_live (live : p.faulted = false) (next : p.panelStep (.configure c) = some p') :
    p.lsConfigure c = some p' := by
  obtain ⟨ended, _⟩ | ⟨_, handled⟩ := whileAlive_cases next
  · exact absurd live (ne_false_of_eq_true ended)
  · exact handled

theorem panelStep_doomed (h : Doomed p) (next : p.panelStep (.configure c) = some p') :
    Doomed p' :=
  h.step next (lsConfigure_doomed h)

theorem panelStep_backed (h : Backed p) (next : p.panelStep (.configure c) = some p') :
    (c.alloc.Succeeds → Backed p') ∧ (¬ c.alloc.Succeeds → Doomed p') := by
  have handled := panelStep_live h.live next
  refine ⟨fun succeeds => lsConfigure_succeeds (Or.inr h) succeeds handled, fun fails => ?_⟩
  by_cases refused : c.alloc.shmFd = -1
  · exact lsConfigure_refused_backed h refused handled
  · exact lsConfigure_unmapped (Or.inr h) refused fails handled

theorem panel_backed_run {cs : List Configure} (h : Backed p)
    (ran : Runs.run panelStep p (cs.map .configure) = some p') :
    Exact p'.panelDestroy.ops ↔ ∀ c ∈ cs, c.alloc.Succeeds := by
  rw [Runs.run_map] at ran
  rw [panelDestroy]
  exact exact_iff_all (fun _ => destroy_backed) (fun _ _ _ h next => panelStep_backed h next)
    (fun _ _ _ h next => panelStep_doomed h next) h ran

theorem panel_doomed_run {cs : List Configure} (h : Doomed p)
    (ran : Runs.run panelStep p (cs.map .configure) = some p') : ¬ Exact p'.panelDestroy.ops := by
  rw [Runs.run_map] at ran
  rw [panelDestroy]
  exact destroy_doomed (Runs.run_invariant (fun _ _ _ h next => panelStep_doomed h next) h ran)

/-- A panel without a mapping, once a configure has come or where no descriptor is named. -/
theorem panel_bare_run {cs : List Configure} (h : Bare p) (started : p.shmFd < 0 ∨ cs ≠ [])
    (ran : Runs.run panelStep p (cs.map .configure) = some p') :
    Exact p'.panelDestroy.ops ↔ RefusedThenServed cs := by
  induction cs generalizing p with
  | nil =>
      obtain rfl := Option.some.inj ran
      have negative := started.resolve_right (not_not.mpr rfl)
      exact iff_of_true ((destroy_bare h).mpr negative) ⟨[], [], rfl, nofun, nofun⟩
  | cons c cs ih =>
      obtain ⟨t, stepped, rest⟩ := Option.bind_eq_some_iff.mp ran
      have handled := panelStep_live h.live stepped
      rw [refusedThenServed_cons, List.forall_mem_cons]
      by_cases refused : c.alloc.shmFd = -1
      · obtain ⟨bare, negative⟩ := lsConfigure_refused_bare h refused handled
        have minus : t.shmFd < 0 := by
          rw [negative]
          decide
        rw [ih bare (Or.inl minus) rest]
        simp [refused, refused_not_succeeds refused]
      · by_cases succeeds : c.alloc.Succeeds
        · rw [panel_backed_run (lsConfigure_succeeds (Or.inl h) succeeds handled) rest]
          simp [refused, succeeds]
        · have doomed := lsConfigure_unmapped (Or.inl h) refused succeeds handled
          simp [refused, succeeds, panel_doomed_run doomed rest]

/-- From create over any configures to destroy, the launcher and the wallpaper own their
memory exactly when no call fails, the panel when it is configured at all and no call
fails once `shm_open` has succeeded. -/
theorem memory_owned_exactly_iff (cs : List Configure) :
    (∀ panelHeight scale p,
        Runs.run panelStep (panelCreate panelHeight scale) (cs.map .configure) = some p →
          (Exact p.panelDestroy.ops ↔ cs ≠ [] ∧ RefusedThenServed cs)) ∧
      (∀ l, Runs.run launcherStep launcherCreate (cs.map .configure) = some l →
          (Exact l.launcherDestroy.ops ↔ ∀ c ∈ cs, c.alloc.Succeeds)) ∧
      ∀ wp, Runs.run wallpaperStep wallpaperCreate cs = some wp →
          (Exact wp.wallpaperDestroy.ops ↔ ∀ c ∈ cs, c.alloc.Succeeds) := by
  refine ⟨fun panelHeight scale p ran => ?_, fun l ran => ?_, fun wp ran => ?_⟩
  · have fresh : Bare (panelCreate panelHeight scale) := ⟨rfl, rfl, rfl, holds_nil, rfl⟩
    cases cs with
    | nil =>
        obtain rfl := Option.some.inj ran
        have named : ¬ (panelCreate panelHeight scale).shmFd < 0 := by
          show ¬ (0 : Int32) < 0
          decide
        simp [panelDestroy, destroy_bare fresh, named]
    | cons c cs =>
        rw [panel_bare_run fresh (Or.inr (List.cons_ne_nil c cs)) ran]
        simp
  · have fresh : Clear launcherCreate :=
      Or.inl ⟨⟨rfl, rfl, rfl, holds_nil, rfl⟩, by decide⟩
    rw [Runs.run_map] at ran
    rw [launcherDestroy]
    exact exact_iff_all (fun _ => Clear.exact) (fun _ _ _ h next => launcherStep_clear h next)
      (fun _ _ _ h next => launcherStep_doomed h next) fresh ran
  · have fresh : Clear wallpaperCreate :=
      Or.inl ⟨⟨rfl, rfl, rfl, holds_nil, rfl⟩, by decide⟩
    rw [wallpaperDestroy]
    exact exact_iff_all (fun _ => Clear.exact) (fun _ _ _ h next => wallpaperStep_clear h next)
      (fun _ _ _ h next => wallpaperStep_doomed h next) fresh ran

theorem memory_owned_exactly_after_one :
    (∃ p, Runs.run panelStep (panelCreate 32 2) [.configure (.small ⟨5, some 4096, 1, 2⟩)] =
        some p ∧ Exact p.panelDestroy.ops) ∧
      (∃ l, Runs.run launcherStep launcherCreate [.configure (.small ⟨5, some 4096, 1, 2⟩)] =
        some l ∧ Exact l.launcherDestroy.ops) ∧
      ∃ wp, Runs.run wallpaperStep wallpaperCreate [.small ⟨5, some 4096, 1, 2⟩] =
        some wp ∧ Exact wp.wallpaperDestroy.ops := by
  have served : ∀ c ∈ [Configure.small ⟨5, some 4096, 1, 2⟩], c.alloc.Succeeds := by decide
  obtain ⟨panel, launcher, wallpaper⟩ := memory_owned_exactly_iff [.small ⟨5, some 4096, 1, 2⟩]
  refine ⟨?_, ?_, ?_⟩
  · obtain ⟨p, ran⟩ := Option.isSome_iff_exists.mp (show (Runs.run panelStep (panelCreate 32 2)
      [.configure (.small ⟨5, some 4096, 1, 2⟩)]).isSome = true by decide +kernel)
    exact ⟨p, ran, (panel 32 2 p ran).mpr ⟨nofun, [], _, rfl, nofun, served⟩⟩
  · obtain ⟨l, ran⟩ := Option.isSome_iff_exists.mp (show (Runs.run launcherStep launcherCreate
      [.configure (.small ⟨5, some 4096, 1, 2⟩)]).isSome = true by decide +kernel)
    exact ⟨l, ran, (launcher l ran).mpr served⟩
  · obtain ⟨wp, ran⟩ := Option.isSome_iff_exists.mp (show (Runs.run wallpaperStep wallpaperCreate
      [.small ⟨5, some 4096, 1, 2⟩]).isSome = true by decide +kernel)
    exact ⟨wp, ran, (wallpaper wp ran).mpr served⟩

/-- A panel destroyed before its first configure closes the descriptor 0; a launcher
whose `mmap` failed unmaps `MAP_FAILED`. -/
theorem releases_what_it_never_acquired :
    ¬ Exact (panelCreate 32 2).panelDestroy.ops ∧
      ∃ l, Runs.run launcherStep launcherCreate [.configure (.small ⟨5, none, 1, 2⟩)] = some l ∧
        ¬ Exact l.launcherDestroy.ops := by
  constructor
  · have fresh : Bare (panelCreate 32 2) := ⟨rfl, rfl, rfl, holds_nil, rfl⟩
    exact fun exact => absurd ((destroy_bare fresh).mp exact) (by decide)
  · obtain ⟨l, ran⟩ := Option.isSome_iff_exists.mp (show (Runs.run launcherStep launcherCreate
      [.configure (.small ⟨5, none, 1, 2⟩)]).isSome = true by decide +kernel)
    have fresh : Clear launcherCreate := Or.inl ⟨⟨rfl, rfl, rfl, holds_nil, rfl⟩, by decide⟩
    obtain ⟨t, stepped, rest⟩ := Option.bind_eq_some_iff.mp ran
    obtain rfl := Option.some.inj rest
    exact ⟨t, ran, destroy_doomed ((launcherStep_clear fresh stepped).2 (by decide))⟩

end Surface
end LunaOS.Shell
