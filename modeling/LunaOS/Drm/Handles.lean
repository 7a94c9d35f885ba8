import LunaOS.Drm.EndToEnd
import LunaOS.Lib.Loans

/-!
Who holds a handle. The kext does not know which process a handle belongs to, so that any
of them can close it. Where each client closes only what it got and has not closed, the
handles that the clients hold are all different, and each names a live buffer with the pitch
and the size that its creator was told, however the calls and their handlers interleave.
-/
namespace LunaOS.Drm.EndToEnd
open Libdrm Linearize IODRMShim Slots

/-- Buffers are given by a creation and taken by a close or a destruction of the handle. -/
def loans : Loans.Terms Wire.PassedApi Returned Store DumbBuffer UInt32 where
  gives
    | .buffer (.ok b) => some b
    | _ => none
  takes op :=
    match op.val with
    | .destroyDumbBuffer handle | .closeBufferHandle handle => some handle
    | _ => none
  key b := b.handle
  Live st b := ∃ i buf, b.handle = handleOf i ∧ st.buffers i = some buf ∧
    b.pitch = buf.pitch ∧ b.size = buf.size

/-- A creation fails, or fills a free slot. -/
theorem create_cases (st : Store) (width height bpp : UInt32) (mem : Option Mapping) :
    st.create width height bpp mem = (st, .error .enomem) ∨
      ∃ i b, st.buffers i = none ∧
        (st.create width height bpp mem).1.buffers = Function.update st.buffers i (some b) ∧
        (st.create width height bpp mem).2 = .ok ⟨handleOf i, b.pitch, b.size⟩ := by
  cases lowest : st.lowestFree with
  | none => exact Or.inl (create_refused (Or.inl lowest) width height bpp)
  | some i =>
      cases mem with
      | none => exact Or.inl (create_refused (Or.inr rfl) width height bpp)
      | some m =>
          have free : st.buffers i = none := ((lowestFree_eq_some_iff st i).mp lowest).1
          refine Or.inr ⟨i, st.newBuffer width height bpp m, free, ?_, ?_⟩
          · rw [create_at lowest]
          · rw [create_at lowest]

theorem show_buffers (st : Store) (handle : UInt32) (surface : Option DisplaySurface) :
    (st.show' handle surface).1.buffers = st.buffers := by
  unfold Store.show'
  split
  · rfl
  · split <;> rfl

/-- What a call does to the buffers. -/
inductive Effect (st : Store) (op : Wire.PassedApi) : Prop
  | kept (same : (Wire.respond st op).1.buffers = st.buffers)
      (none : loans.gives (Wire.respond st op).2 = none)
  | made (i : Fin maxDumbBOs) (b : Buffer) (free : st.buffers i = none)
      (now : (Wire.respond st op).1.buffers = Function.update st.buffers i (some b))
      (given : loans.gives (Wire.respond st op).2 = some ⟨handleOf i, b.pitch, b.size⟩)
  | closed (handle : UInt32) (taken : loans.takes op = some handle)
      (now : (Wire.respond st op).1.buffers = st.buffers.remove handle)
      (none : loans.gives (Wire.respond st op).2 = none)

theorem effect (st : Store) (op : Wire.PassedApi) : Effect st op := by
  obtain ⟨op, passes⟩ := op
  cases op with
  | createDumbBuffer width height bpp flags mem =>
      have effect : Wire.respond st ⟨.createDumbBuffer width height bpp flags mem, passes⟩ =
          ((st.create width height bpp mem).1, .buffer (st.create width height bpp mem).2) := rfl
      rcases create_cases st width height bpp mem with failed | ⟨i, b, free, now, given⟩
      · rw [failed] at effect
        exact .kept (by rw [effect]) (by rw [effect]; rfl)
      · rw [given] at effect
        refine .made i b free ?_ (by rw [effect]; rfl)
        rw [effect]
        dsimp only
        exact now
  | destroyDumbBuffer handle => exact .closed handle rfl rfl rfl
  | closeBufferHandle handle => exact .closed handle rfl rfl rfl
  | setCrtc crtcId fbId x y connectors count mode surface =>
      exact .kept (show_buffers st fbId surface) rfl
  | getVersion _ | getCap _ | mapDumbBuffer _ | primeHandleToFd _ _ | primeFdToHandle _
  | getResources _ | getConnector _ _ | getEncoder _ | getCrtc _ | addFb _ _ _ _ _ _
  | rmFb _ => exact .kept rfl rfl

theorem loans_kept : loans.Kept Wire.respond where
  given st op a given := by
    cases effect st op with
    | kept _ none | closed _ _ _ none =>
        rw [none] at given
        cases given
    | made i b _ now given' =>
        obtain rfl := Option.some.inj (given'.symm.trans given)
        refine ⟨i, b, rfl, ?_, rfl, rfl⟩
        rw [now, Function.update_self]
  fresh st op a b given live := by
    obtain ⟨j, buf, named, there, _⟩ := live
    cases effect st op with
    | kept _ none | closed _ _ _ none =>
        rw [none] at given
        cases given
    | made i _ free _ given' =>
        obtain rfl := Option.some.inj (given'.symm.trans given)
        intro same
        obtain rfl := handleOf_injective (named.symm.trans same)
        rw [free] at there
        cases there
  frame st op b live untaken := by
    obtain ⟨j, buf, named, there, told⟩ := live
    refine ⟨j, buf, named, ?_, told⟩
    cases effect st op with
    | kept same _ => exact same ▸ there
    | made i _ free now _ =>
        have other : j ≠ i := by
          rintro rfl
          rw [free] at there
          cases there
        rw [now, Function.update_of_ne other]
        exact there
    | closed handle taken now _ =>
        rw [now]
        refine BufferMap.remove_eq_some_iff.mpr ⟨?_, there⟩
        rintro rfl
        exact untaken (taken.trans (congrArg some named.symm))

/-- For every run of any number of clients that close only what they hold: a handle is held
once, by one client, and while nobody holds the lock it names a buffer of the table with the
pitch and the size that the client was told. -/
theorem handles_exclusive (junk : Call → Nat → UInt8) (p : Provider)
    {as : List (Layers.Action Nat Wire.PassedApi)}
    {k : Layers.Stack Kext Call Reply Wire.PassedApi Returned}
    (ran : Runs.run (step junk) { machine := Kext.start p } as = some k)
    (careful : Loans.Careful loans k.history) :
    (∀ t, ((Loans.holds loans t k.history).map (·.handle)).Nodup) ∧
    (∀ t u b b', b ∈ Loans.holds loans t k.history → b' ∈ Loans.holds loans u k.history →
      b.handle = b'.handle → t = u) ∧
    (k.machine.fLock = none → ∀ t b, b ∈ Loans.holds loans t k.history →
      ∃ i buf, k.machine.shim.findBO b.handle = some i ∧
        k.machine.shim.contents i = some buf ∧ b.pitch = buf.pitch ∧ b.size = buf.size) := by
  obtain ⟨s, log, status, free, exact', seen, left⟩ := explained_run junk p ran
  have ex := Loans.exclusive_of_explains loans_kept seen careful
  have inside {t : Nat} {b : DumbBuffer} (held : b ∈ Loans.holds loans t k.history) :
      b.handle ∈ Loans.keysOf loans k.history status t :=
    List.mem_append_left _ (List.mem_map_of_mem held)
  refine ⟨fun t => ?_, fun t u b b' mine yours same => ?_, fun unlocked t b held => ?_⟩
  · exact (List.nodup_append.mp (ex.once t)).1
  · refine ex.alone t u b.handle (inside mine) ?_
    rw [same]
    exact inside yours
  · rw [free unlocked]
    have live := ex.held t b held
    rw [← left] at live
    obtain ⟨i, buf, named, there, told⟩ := live
    have reads := exact'.contents_eq_none_iff i
    have used : (s.fBOs i).inUse = true := by
      cases idle : (s.fBOs i).inUse with
      | true => rfl
      | false =>
          have gone : (storeOf s).buffers i = none := reads.mpr idle
          rw [gone] at there
          cases there
    exact ⟨i, buf, (findBO_eq_some_iff s b.handle i).mpr ⟨named, used⟩, there, told⟩

def smallBuffer (mem : Mapping) : Wire.PassedApi :=
  ⟨.createDumbBuffer 16 10 32 0 (some mem), trivial⟩

/-- Two clients make a buffer each while the first one holds the lock, and the second one
closes its own. -/
def twoBuffers : List (Layers.Action Nat Wire.PassedApi) :=
  [.call 0 (smallBuffer ⟨4096, 8192⟩), .ask 0, .work 0, .call 1 (smallBuffer ⟨12288, 16384⟩),
    .ask 1, .work 0, .work 0, .work 0, .work 0, .work 1, .answer 0, .ret 0, .work 1, .work 1,
    .work 1, .work 1, .answer 1, .ret 1, .call 1 ⟨.closeBufferHandle 2, trivial⟩]

def twoBuffersSeen : List (Event Nat Wire.PassedApi Returned) :=
  [.call 0 (smallBuffer ⟨4096, 8192⟩), .call 1 (smallBuffer ⟨12288, 16384⟩),
    .ret 0 (.buffer (.ok ⟨1, 64, 640⟩)), .ret 1 (.buffer (.ok ⟨2, 64, 640⟩)),
    .call 1 ⟨.closeBufferHandle 2, trivial⟩]

theorem careful_twoBuffersSeen : Loans.Careful loans twoBuffersSeen := by
  have first : Loans.Careful loans [.call 0 (smallBuffer ⟨4096, 8192⟩)] :=
    Loans.careful_concat Loans.careful_nil fun t op x same taken => by cases same; cases taken
  have second := Loans.careful_concat (e := .call 1 (smallBuffer ⟨12288, 16384⟩)) first
    fun t op x same taken => by cases same; cases taken
  have third := Loans.careful_concat (e := .ret 0 (.buffer (.ok ⟨1, 64, 640⟩))) second nofun
  have fourth := Loans.careful_concat (e := .ret 1 (.buffer (.ok ⟨2, 64, 640⟩))) third nofun
  refine Loans.careful_concat fourth fun t op x same taken => ?_
  cases same
  cases taken
  exact List.mem_singleton.mpr rfl

set_option maxRecDepth 20000 in
theorem run_twoBuffers :
    (Runs.run (step fun _ _ => 0xAA) { machine := Kext.start ⟨false, none⟩ } twoBuffers).map
      (·.history) = some twoBuffersSeen := rfl

theorem handles_exclusive_two_buffers :
    ∃ k, Runs.run (step fun _ _ => 0xAA) { machine := Kext.start ⟨false, none⟩ } twoBuffers =
        some k ∧ k.history = twoBuffersSeen ∧
      ∀ t, ((Loans.holds loans t k.history).map (·.handle)).Nodup := by
  obtain ⟨k, ran, seen⟩ := Option.map_eq_some_iff.mp run_twoBuffers
  have careful : Loans.Careful loans k.history := seen ▸ careful_twoBuffersSeen
  exact ⟨k, ran, seen, (handles_exclusive (fun _ _ => 0xAA) ⟨false, none⟩ ran careful).1⟩

end LunaOS.Drm.EndToEnd
