import LunaOS.Gbm.Clients

/-!
Isolation of GBM clients. `Change` lists what one ioctl of one client can do to
the shared map and to the client's own buffer objects; the invariant ties every
live buffer to an owner. From both, isolation survives a step exactly when the
step is not a GEM_CLOSE that finds its handle in use again, and with it a run.
-/
namespace LunaOS.Gbm
open Drm IODRMShim

variable {ι : Type} [DecidableEq ι]

namespace System

/-- What an enabled action does. -/
inductive Change (sys : System ι) : Action ι → System ι → Prop where
  | refused {c : ι} {w h fmt flags : UInt32} {mem : Option Mapping} (shim : IODRMShim)
      (same : shim.contents = sys.shim.contents)
      (count : shim.ledger.allocated = sys.shim.ledger.allocated) :
      Change sys (.create c w h fmt flags mem) { sys with shim := shim }
  | created {c : ι} {w h fmt flags : UInt32} {mem : Option Mapping} (shim : IODRMShim)
      (i : Fin maxDumbBOs) (b : Buffer) (bo : GbmBo)
      (idle : (sys.clients c).phase = .idle)
      (free : Slots.LowestFree sys.shim.contents i)
      (added : shim.contents = Function.update sys.shim.contents i (some b))
      (fresh : b.mem = sys.shim.ledger.allocated)
      (count : shim.ledger.allocated = sys.shim.ledger.allocated + 1)
      (handle : bo.gemHandle = handleOf i) :
      Change sys (.create c w h fmt flags mem)
        (sys.update shim c
          { sys.clients c with phase := .mapping ⟨bo, sys.shim.ledger.allocated⟩ })
  | mapped {c : ι} (o : Owned) (bo : GbmBo)
      (phase : (sys.clients c).phase = .mapping o)
      (handle : bo.gemHandle = o.bo.gemHandle) :
      Change sys (.map c) (sys.update sys.shim c
        { phase := .idle, outstanding := ⟨bo, o.mem⟩ :: (sys.clients c).outstanding })
  | destroyed {c : ι} (shim : IODRMShim) (o : Owned)
      (idle : (sys.clients c).phase = .idle)
      (own : o ∈ (sys.clients c).outstanding)
      (removed : shim.contents = sys.shim.contents.remove o.bo.gemHandle)
      (count : shim.ledger.allocated = sys.shim.ledger.allocated) :
      Change sys (.destroy c o.mem) (sys.update shim c
        { phase := .closing o.bo.gemHandle
          outstanding := (sys.clients c).outstanding.filter (·.mem ≠ o.mem) })
  | closed {c : ι} (shim : IODRMShim) (handle : UInt32)
      (phase : (sys.clients c).phase = .closing handle)
      (removed : shim.contents = sys.shim.contents.remove handle)
      (count : shim.ledger.allocated = sys.shim.ledger.allocated) :
      Change sys (.close c) (sys.update shim c { sys.clients c with phase := .idle })

variable {sys sys' : System ι}

theorem create_change (h : sys.shim.TableExact) {c : ι} {w ht fmt flags : UInt32}
    {mem : Option Mapping} (taken : sys.step (.create c w ht fmt flags mem) = some sys') :
    Change sys (.create c w ht fmt flags mem) sys' := by
  simp only [step] at taken
  cases phase : (sys.clients c).phase with
  | mapping o => simp [phase] at taken
  | closing handle => simp [phase] at taken
  | idle =>
      simp only [phase, drmIoctl_createDumb h.attached] at taken
      rcases h.allocHandle_cases with ⟨_, none_free⟩ | ⟨i, free, alloc⟩
      · rw [ioctlCreateDumb_full none_free] at taken
        obtain rfl := Option.some.inj taken
        exact .refused _ rfl rfl
      · cases mem with
        | none =>
            rw [ioctlCreateDumb_refused alloc] at taken
            obtain rfl := Option.some.inj taken
            exact .refused _ (Slots.contents_update_of_view _ _ i _ free.1.symm) rfl
        | some m =>
            rw [ioctlCreateDumb_created alloc] at taken
            obtain rfl := Option.some.inj taken
            exact .created _ i _ _ phase free (contents_setBO sys.shim i _ _) rfl rfl
              (by rfl)

theorem map_change (h : sys.shim.TableExact) {c : ι}
    (taken : sys.step (.map c) = some sys') : Change sys (.map c) sys' := by
  simp only [step] at taken
  cases phase : (sys.clients c).phase with
  | idle => simp [phase] at taken
  | closing handle => simp [phase] at taken
  | mapping o =>
      simp only [phase, IODRMShim.drmIoctl, h.attached, Bool.not_true, Bool.false_eq_true,
        if_false] at taken
      obtain rfl := Option.some.inj taken
      exact .mapped o _ phase (boMapped_gemHandle o.bo _)

theorem destroy_change (h : sys.shim.TableExact) {c : ι} {mem : Nat}
    (taken : sys.step (.destroy c mem) = some sys') : Change sys (.destroy c mem) sys' := by
  simp only [step] at taken
  cases phase : (sys.clients c).phase with
  | mapping o => simp [phase] at taken
  | closing handle => simp [phase] at taken
  | idle =>
      cases found : (sys.clients c).outstanding.find? (·.mem = mem) with
      | none => simp [phase, found] at taken
      | some o =>
          have own := List.mem_of_find?_eq_some found
          obtain rfl : o.mem = mem := by simpa using List.find?_some found
          simp only [phase, found, IODRMShim.drmIoctl, h.attached, Bool.not_true,
            Bool.false_eq_true, if_false] at taken
          obtain rfl := Option.some.inj taken
          exact .destroyed _ o phase own (contents_closeBO h _) (closeBO_frame _ _).2

theorem close_change (h : sys.shim.TableExact) {c : ι}
    (taken : sys.step (.close c) = some sys') : Change sys (.close c) sys' := by
  simp only [step] at taken
  cases phase : (sys.clients c).phase with
  | idle => simp [phase] at taken
  | mapping o => simp [phase] at taken
  | closing handle =>
      simp only [phase, drmIoctl_gemClose h.attached] at taken
      obtain rfl := Option.some.inj taken
      exact .closed _ handle phase (contents_closeBO h _) (closeBO_frame _ _).2

theorem step_change (h : sys.shim.TableExact) {a : Action ι}
    (taken : sys.step a = some sys') : Change sys a sys' := by
  cases a with
  | create c w ht fmt flags mem => exact create_change h taken
  | map c => exact map_change h taken
  | destroy c mem => exact destroy_change h taken
  | close c => exact close_change h taken

/-! The map under the steps of the clients. -/

theorem Holds.added {m : BufferMap} {o : Owned} (h : Holds m o) {i : Fin maxDumbBOs}
    (free : m i = none) (b : Buffer) : Holds (Function.update m i (some b)) o := by
  obtain ⟨j, b', named, live, mem⟩ := h
  have e : j ≠ i := by rintro rfl; rw [free] at live; cases live
  exact ⟨j, b', named, by rwa [Function.update_of_ne e], mem⟩

theorem Holds.kept {m : BufferMap} {o : Owned} (h : Holds m o) {handle : UInt32}
    (other : o.bo.gemHandle ≠ handle) : Holds (m.remove handle) o := by
  obtain ⟨i, b, named, live, mem⟩ := h
  refine ⟨i, b, named, BufferMap.remove_eq_some_iff.mpr ⟨?_, live⟩, mem⟩
  exact fun same => other (named.trans same.symm)

theorem not_holds_removed {m : BufferMap} {o : Owned} :
    ¬ Holds (m.remove o.bo.gemHandle) o := by
  rintro ⟨i, b, named, live, _⟩
  exact (BufferMap.remove_eq_some_iff.mp live).1 named

/-- Two buffer objects that hold one handle hold one buffer. -/
theorem Holds.mem_eq {m : BufferMap} {o o' : Owned} (h : Holds m o) (h' : Holds m o')
    (same : o.bo.gemHandle = o'.bo.gemHandle) : o.mem = o'.mem := by
  obtain ⟨i, b, named, live, mem⟩ := h
  obtain ⟨i', b', named', live', mem'⟩ := h'
  obtain rfl := handleOf_injective (named.symm.trans (same.trans named'))
  obtain rfl := Option.some.inj (live.symm.trans live')
  exact mem.symm.trans mem'

/-! Every live buffer has one owner. -/

/-- The descriptors of the buffer objects of a client. -/
def mems (sys : System ι) (c : ι) : List Nat :=
  (sys.clients c).owned.map Owned.mem

structure Tracked (sys : System ι) : Prop where
  table : sys.shim.TableExact
  issued : ∀ c, ∀ d ∈ sys.mems c, d < sys.shim.ledger.allocated
  nodup : ∀ c, (sys.mems c).Nodup
  apart : ∀ c c', c ≠ c' → ∀ d ∈ sys.mems c, d ∉ sys.mems c'
  owner : ∀ i b, sys.shim.contents i = some b →
    ∃ c, ∃ o ∈ (sys.clients c).owned, o.bo.gemHandle = handleOf i ∧ o.mem = b.mem

omit [DecidableEq ι] in
theorem tracked_start (p : Provider) : (start p : System ι).Tracked where
  table := tableExact_start p
  issued := by intro c d hd; cases hd
  nodup := by intro c; exact List.nodup_nil
  apart := by intro c c' _ d hd; cases hd
  owner := by intro i b live; cases live

omit [DecidableEq ι] in
theorem Tracked.eq_of_mem (h : sys.Tracked) {c : ι} {o o' : Owned}
    (ho : o ∈ (sys.clients c).owned) (ho' : o' ∈ (sys.clients c).owned)
    (same : o.mem = o'.mem) : o = o' :=
  List.inj_on_of_nodup_map (h.nodup c) ho ho' same

@[simp] theorem update_clients_self (sys : System ι) (shim : IODRMShim) (c : ι)
    (client : Client) : (sys.update shim c client).clients c = client :=
  Function.update_self ..

theorem update_clients_of_ne (sys : System ι) (shim : IODRMShim) {c c' : ι}
    (client : Client) (h : c' ≠ c) :
    (sys.update shim c client).clients c' = sys.clients c' :=
  Function.update_of_ne h ..

theorem update_mems_of_ne (sys : System ι) (shim : IODRMShim) {c c' : ι}
    (client : Client) (h : c' ≠ c) :
    (sys.update shim c client).mems c' = sys.mems c' := by
  rw [mems, update_clients_of_ne sys shim client h, mems]

/-- A change of one client that takes no descriptor of another keeps the ids. -/
theorem Tracked.update (h : sys.Tracked) {shim : IODRMShim} (c : ι) (client : Client)
    (table : shim.TableExact)
    (count : sys.shim.ledger.allocated ≤ shim.ledger.allocated)
    (nodup : (client.owned.map Owned.mem).Nodup)
    (ids : ∀ d ∈ client.owned.map Owned.mem, d ∈ sys.mems c ∨
      sys.shim.ledger.allocated ≤ d ∧ d < shim.ledger.allocated)
    (owner : ∀ i b, shim.contents i = some b →
      ∃ c', ∃ o ∈ ((sys.update shim c client).clients c').owned,
        o.bo.gemHandle = handleOf i ∧ o.mem = b.mem) :
    (sys.update shim c client).Tracked := by
  have own : (sys.update shim c client).mems c = client.owned.map Owned.mem := by
    rw [mems, update_clients_self]
  have foreign {c' : ι} (ne : c' ≠ c) {d : Nat} (hd : d ∈ sys.mems c') :
      d ∉ client.owned.map Owned.mem := by
    intro mine
    rcases ids d mine with old | ⟨fresh, _⟩
    · exact h.apart c' c ne d hd old
    · have bound := h.issued c' d hd
      omega
  refine ⟨table, ?_, ?_, ?_, owner⟩
  · intro c' d hd
    by_cases e : c' = c
    · subst e
      rw [own] at hd
      rcases ids d hd with old | ⟨_, bound⟩
      · exact Nat.lt_of_lt_of_le (h.issued c' d old) count
      · exact bound
    · rw [update_mems_of_ne sys shim client e] at hd
      exact Nat.lt_of_lt_of_le (h.issued c' d hd) count
  · intro c'
    by_cases e : c' = c
    · subst e
      rwa [own]
    · rw [update_mems_of_ne sys shim client e]
      exact h.nodup c'
  · intro c' c'' ne d hd
    by_cases e : c' = c
    · subst e
      rw [own] at hd
      rw [update_mems_of_ne sys shim client ne.symm]
      exact fun other => foreign ne.symm other hd
    · rw [update_mems_of_ne sys shim client e] at hd
      by_cases e' : c'' = c
      · subst e'
        rw [own]
        exact foreign e hd
      · rw [update_mems_of_ne sys shim client e']
        exact h.apart c' c'' ne d hd

theorem step_table (h : sys.shim.TableExact) {a : Action ι}
    (taken : sys.step a = some sys') : sys'.shim.TableExact := by
  cases a with
  | create c w ht fmt flags mem =>
      simp only [step] at taken
      split at taken
      · split at taken <;> obtain rfl := Option.some.inj taken <;> exact h.drmIoctl _
      · cases taken
  | map c =>
      simp only [step] at taken
      split at taken
      · obtain rfl := Option.some.inj taken
        exact h.drmIoctl _
      · cases taken
  | destroy c mem =>
      simp only [step] at taken
      split at taken
      · obtain rfl := Option.some.inj taken
        exact h.drmIoctl _
      · cases taken
  | close c =>
      simp only [step] at taken
      split at taken
      · obtain rfl := Option.some.inj taken
        exact h.drmIoctl _
      · cases taken

/-- An owner whose client stays, or whose buffer object stays with its client. -/
theorem Tracked.owner_kept (h : sys.Tracked) (shim : IODRMShim) (c : ι) (client : Client)
    {i : Fin maxDumbBOs} {b : Buffer} (live : sys.shim.contents i = some b)
    (stays : ∀ o ∈ (sys.clients c).owned, o.bo.gemHandle = handleOf i → o.mem = b.mem →
      ∃ o' ∈ client.owned, o'.bo.gemHandle = handleOf i ∧ o'.mem = b.mem) :
    ∃ c', ∃ o ∈ ((sys.update shim c client).clients c').owned,
      o.bo.gemHandle = handleOf i ∧ o.mem = b.mem := by
  obtain ⟨c', o, own, named, mem⟩ := h.owner i b live
  by_cases e : c' = c
  · subst e
    obtain ⟨o', own', named', mem'⟩ := stays o own named mem
    exact ⟨c', o', by rwa [update_clients_self], named', mem'⟩
  · exact ⟨c', o, by rwa [update_clients_of_ne sys shim client e], named, mem⟩

/-! What each step does to the owners, whether or not it keeps isolation. -/

theorem Tracked.created (h : sys.Tracked) {shim : IODRMShim} {c : ι} {i : Fin maxDumbBOs}
    {b : Buffer} {bo : GbmBo} (table : shim.TableExact)
    (idle : (sys.clients c).phase = .idle)
    (added : shim.contents = Function.update sys.shim.contents i (some b))
    (fresh : b.mem = sys.shim.ledger.allocated)
    (count : shim.ledger.allocated = sys.shim.ledger.allocated + 1)
    (handle : bo.gemHandle = handleOf i) :
    (sys.update shim c
      { sys.clients c with phase := .mapping ⟨bo, sys.shim.ledger.allocated⟩ }).Tracked := by
  have before := Client.owned_idle idle
  refine h.update c _ table (by omega) ?_ ?_ ?_
  · have new : sys.shim.ledger.allocated ∉ sys.mems c := fun old =>
      Nat.lt_irrefl _ (h.issued c _ old)
    rw [mems, before] at new
    exact List.nodup_cons.mpr ⟨new, before ▸ h.nodup c⟩
  · intro d hd
    rcases List.mem_cons.mp hd with rfl | old
    · exact Or.inr ⟨Nat.le_refl _, count ▸ Nat.lt_succ_self _⟩
    · exact Or.inl (by rwa [mems, before])
  · intro j b' live
    rw [added] at live
    by_cases e : j = i
    · subst e
      rw [Function.update_self] at live
      obtain rfl := Option.some.inj live
      refine ⟨c, ⟨bo, sys.shim.ledger.allocated⟩, ?_, handle, fresh.symm⟩
      rw [update_clients_self]
      exact List.mem_cons_self
    · rw [Function.update_of_ne e] at live
      refine h.owner_kept shim c _ live ?_
      intro o own named held
      exact ⟨o, List.mem_cons_of_mem _ (before ▸ own), named, held⟩

theorem Tracked.mapped (h : sys.Tracked) {c : ι} {o : Owned} {bo : GbmBo}
    (phase : (sys.clients c).phase = .mapping o) (handle : bo.gemHandle = o.bo.gemHandle) :
    (sys.update sys.shim c
      { phase := .idle
        outstanding := ⟨bo, o.mem⟩ :: (sys.clients c).outstanding }).Tracked := by
  have before := Client.owned_mapping phase
  have same : sys.mems c = o.mem :: (sys.clients c).outstanding.map Owned.mem := by
    rw [mems, before, List.map_cons]
  have unique := h.nodup c
  rw [same] at unique
  refine h.update c _ h.table (Nat.le_refl _) unique ?_ ?_
  · intro d hd
    exact Or.inl (same ▸ hd)
  · intro j b live
    refine h.owner_kept sys.shim c _ live ?_
    intro o' own named held
    rw [before] at own
    rcases List.mem_cons.mp own with rfl | old
    · exact ⟨⟨bo, o'.mem⟩, List.mem_cons_self, handle.trans named, held⟩
    · exact ⟨o', List.mem_cons_of_mem _ old, named, held⟩

theorem Tracked.destroyed (h : sys.Tracked) {shim : IODRMShim} {c : ι} {o : Owned}
    (table : shim.TableExact) (idle : (sys.clients c).phase = .idle)
    (own : o ∈ (sys.clients c).outstanding)
    (removed : shim.contents = sys.shim.contents.remove o.bo.gemHandle)
    (count : shim.ledger.allocated = sys.shim.ledger.allocated) :
    (sys.update shim c
      { phase := .closing o.bo.gemHandle
        outstanding := (sys.clients c).outstanding.filter (·.mem ≠ o.mem) }).Tracked := by
  have before := Client.owned_idle idle
  have mine := h.nodup c
  rw [mems, before] at mine
  refine h.update c _ table (Nat.le_of_eq count.symm) ?_ ?_ ?_
  · exact mine.sublist (List.filter_sublist.map Owned.mem)
  · intro d hd
    refine Or.inl ?_
    rw [mems, before]
    exact (List.filter_sublist.map Owned.mem).subset hd
  · intro j b live
    rw [removed] at live
    obtain ⟨other, was⟩ := BufferMap.remove_eq_some_iff.mp live
    refine h.owner_kept shim c _ was ?_
    intro o' own' named held
    refine ⟨o', List.mem_filter.mpr ⟨before ▸ own', ?_⟩, named, held⟩
    apply decide_eq_true
    intro e
    have eq : o' = o := h.eq_of_mem own' (before ▸ own) e
    exact other (eq ▸ named)

theorem Tracked.closed (h : sys.Tracked) {shim : IODRMShim} {c : ι} {handle : UInt32}
    (table : shim.TableExact) (phase : (sys.clients c).phase = .closing handle)
    (removed : shim.contents = sys.shim.contents.remove handle)
    (count : shim.ledger.allocated = sys.shim.ledger.allocated) :
    (sys.update shim c { sys.clients c with phase := .idle }).Tracked := by
  have before := Client.owned_closing phase
  have same : sys.mems c = (sys.clients c).outstanding.map Owned.mem := by
    rw [mems, before]
  refine h.update c _ table (Nat.le_of_eq count.symm) ?_ ?_ ?_
  · exact same ▸ h.nodup c
  · intro d hd
    exact Or.inl (same ▸ hd)
  · intro j b live
    rw [removed] at live
    refine h.owner_kept shim c _ (BufferMap.remove_eq_some_iff.mp live).2 ?_
    intro o own named held
    rw [before] at own
    exact ⟨o, own, named, held⟩

theorem Tracked.change (h : sys.Tracked) {a : Action ι} (table : sys'.shim.TableExact)
    (change : Change sys a sys') : sys'.Tracked := by
  cases change with
  | refused shim same count =>
      refine ⟨table, ?_, h.nodup, h.apart, ?_⟩
      · intro c d hd
        exact count ▸ h.issued c d hd
      · intro i b live
        exact h.owner i b (same ▸ live)
  | created shim i b bo idle free added fresh count handle =>
      exact h.created table idle added fresh count handle
  | mapped o bo phase handle => exact h.mapped phase handle
  | destroyed shim o idle own removed count => exact h.destroyed table idle own removed count
  | closed shim handle phase removed count => exact h.closed table phase removed count

/-! Isolation across one step. -/

theorem owned_update {shim : IODRMShim} {c c' : ι} {client : Client} {o : Owned}
    (own : o ∈ ((sys.update shim c client).clients c').owned) :
    (c' = c ∧ o ∈ client.owned) ∨ (c' ≠ c ∧ o ∈ (sys.clients c').owned) := by
  by_cases e : c' = c
  · subst e
    exact Or.inl ⟨rfl, by rwa [update_clients_self] at own⟩
  · exact Or.inr ⟨e, by rwa [update_clients_of_ne sys shim client e] at own⟩

theorem Isolated.created (isolated : sys.Isolated) {shim : IODRMShim} {c : ι}
    {i : Fin maxDumbBOs} {b : Buffer} {bo : GbmBo}
    (idle : (sys.clients c).phase = .idle) (free : sys.shim.contents i = none)
    (added : shim.contents = Function.update sys.shim.contents i (some b))
    (fresh : b.mem = sys.shim.ledger.allocated) (handle : bo.gemHandle = handleOf i) :
    (sys.update shim c
      { sys.clients c with phase := .mapping ⟨bo, sys.shim.ledger.allocated⟩ }).Isolated := by
  have before := Client.owned_idle idle
  have kept {c' : ι} {o : Owned} (own : o ∈ (sys.clients c').owned) :
      Holds shim.contents o := by
    rw [added]
    exact (isolated c' o own).added free b
  intro c' o own
  change Holds shim.contents o
  rcases owned_update own with ⟨rfl, mine⟩ | ⟨_, other⟩
  · cases List.mem_cons.mp mine with
    | inl new =>
        subst new
        exact ⟨i, b, handle, by rw [added, Function.update_self], fresh⟩
    | inr old => exact kept (before ▸ old)
  · exact kept other

theorem Isolated.mapped (isolated : sys.Isolated) {c : ι} {o : Owned} {bo : GbmBo}
    (phase : (sys.clients c).phase = .mapping o) (handle : bo.gemHandle = o.bo.gemHandle) :
    (sys.update sys.shim c
      { phase := .idle
        outstanding := ⟨bo, o.mem⟩ :: (sys.clients c).outstanding }).Isolated := by
  have before := Client.owned_mapping phase
  intro c' o' own
  change Holds sys.shim.contents o'
  rcases owned_update own with ⟨rfl, mine⟩ | ⟨_, other⟩
  · cases List.mem_cons.mp mine with
    | inl new =>
        obtain ⟨i, b, named, live, mem⟩ :=
          isolated c' o (before ▸ List.mem_cons_self)
        subst new
        exact ⟨i, b, handle.trans named, live, mem⟩
    | inr old => exact isolated c' o' (before ▸ List.mem_cons_of_mem _ old)
  · exact isolated c' o' other

/-- DESTROY_DUMB takes away the buffer of one buffer object only. -/
theorem Isolated.destroyed (isolated : sys.Isolated) (h : sys.Tracked)
    {shim : IODRMShim} {c : ι} {o : Owned} (idle : (sys.clients c).phase = .idle)
    (own : o ∈ (sys.clients c).outstanding)
    (removed : shim.contents = sys.shim.contents.remove o.bo.gemHandle) :
    (sys.update shim c
      { phase := .closing o.bo.gemHandle
        outstanding := (sys.clients c).outstanding.filter (·.mem ≠ o.mem) }).Isolated := by
  have before := Client.owned_idle idle
  have mine : o ∈ (sys.clients c).owned := before ▸ own
  have kept {c' : ι} {o' : Owned} (own' : o' ∈ (sys.clients c').owned)
      (differs : o'.mem ≠ o.mem) : Holds shim.contents o' := by
    rw [removed]
    refine (isolated c' o' own').kept ?_
    intro same
    exact differs ((isolated c' o' own').mem_eq (isolated c o mine) same)
  intro c' o' own'
  change Holds shim.contents o'
  rcases owned_update own' with ⟨rfl, left⟩ | ⟨ne, other⟩
  · obtain ⟨old, differs⟩ := List.mem_filter.mp left
    exact kept (before ▸ old) (of_decide_eq_true differs)
  · refine kept other ?_
    intro same
    refine h.apart c' c ne o.mem ?_ (List.mem_map_of_mem mine)
    exact same ▸ List.mem_map_of_mem other

/-- The GEM_CLOSE of a destroy keeps isolation exactly when it finds nothing. -/
theorem isolated_closed_iff (isolated : sys.Isolated) (h : sys.Tracked)
    {shim : IODRMShim} {c : ι} {handle : UInt32}
    (phase : (sys.clients c).phase = .closing handle)
    (removed : shim.contents = sys.shim.contents.remove handle) :
    (sys.update shim c { sys.clients c with phase := .idle }).Isolated ↔
      sys.shim.findBO handle = none := by
  have before := Client.owned_closing phase
  have same (c' : ι) :
      ((sys.update shim c { sys.clients c with phase := .idle }).clients c').owned =
        (sys.clients c').owned := by
    by_cases e : c' = c
    · subst e
      rw [update_clients_self, before]
      rfl
    · rw [update_clients_of_ne _ _ _ e]
  constructor
  · intro after
    cases found : sys.shim.findBO handle with
    | none => rfl
    | some i =>
        have used := ((findBO_eq_some_iff sys.shim handle i).mp found).1
        have live : sys.shim.contents i ≠ none := by
          obtain ⟨_, bound⟩ := (findBO_eq_some_iff sys.shim handle i).mp found
          rw [ne_eq, h.table.contents_eq_none_iff, bound]
          simp
        obtain ⟨b, hb⟩ := Option.ne_none_iff_exists'.mp live
        obtain ⟨c', o, own, named, _⟩ := h.owner i b hb
        have gone := after c' o (by rwa [same])
        change Holds shim.contents o at gone
        rw [removed, used, ← named] at gone
        exact absurd gone not_holds_removed
  · intro absent c' o own
    have dead : ¬ sys.shim.contents.Live handle := by
      rw [h.table.live_iff, absent]
      simp
    change Holds shim.contents o
    rw [removed, BufferMap.remove_of_not_live dead]
    exact isolated c' o (by rwa [same] at own)

theorem isolated_step_iff {a : Action ι} (isolated : sys.Isolated) (h : sys.Tracked)
    (taken : sys.step a = some sys') : sys'.Isolated ↔ sys.CloseFindsNothing a := by
  cases step_change h.table taken with
  | refused shim same count =>
      refine ⟨fun _ => trivial, fun _ c o own => ?_⟩
      change Holds shim.contents o
      exact same ▸ isolated c o own
  | created shim i b bo idle free added fresh count handle =>
      exact ⟨fun _ => trivial, fun _ => isolated.created idle free.1 added fresh handle⟩
  | mapped o bo phase handle =>
      exact ⟨fun _ => trivial, fun _ => isolated.mapped phase handle⟩
  | destroyed shim o idle own removed count =>
      exact ⟨fun _ => trivial, fun _ => isolated.destroyed h idle own removed⟩
  | closed shim handle phase removed count =>
      rw [isolated_closed_iff isolated h phase removed]
      constructor
      · intro absent handle' phase'
        obtain rfl := Phase.closing.inj (phase.symm.trans phase')
        exact absent
      · intro guard
        exact guard handle phase

/-! Isolation along a run. -/

/-- In every state of a run every outstanding buffer object names the buffer of
its own CREATE_DUMB, exactly when no GEM_CLOSE of the run finds its handle live. -/
theorem isolated_iff_closes_find_nothing (p : Provider) (actions : List (Action ι)) :
    (∀ sys, Runs.Visits step (start p) actions sys → sys.Isolated) ↔
      ∀ sys a, Runs.Takes step (start p) actions sys a → sys.CloseFindsNothing a := by
  refine Runs.visits_iff_takes Tracked Isolated CloseFindsNothing ?_ ?_
    (tracked_start p) ?_ actions
  · intro sys a sys' h _ _ taken
    exact h.change (step_table h.table taken) (step_change h.table taken)
  · intro sys a sys' h isolated taken
    exact isolated_step_iff isolated h taken
  · intro c o own
    cases own

omit [DecidableEq ι] in
/-- A buffer object with a handle that `findBO` does not find holds nothing. -/
theorem not_isolated_of_findBO {c : ι} {o : Owned} (h : sys.shim.TableExact)
    (own : o ∈ (sys.clients c).owned) (absent : sys.shim.findBO o.bo.gemHandle = none) :
    ¬ sys.Isolated := by
  intro isolated
  obtain ⟨i, b, named, live, _⟩ := isolated c o own
  have found := (h.live_iff o.bo.gemHandle).mp ⟨i, named, by simp [live]⟩
  simp [absent] at found

/-- Between the two frees of one client another client is given the handle; the
second free then takes that client's buffer. -/
theorem close_takes_foreign_buffer :
    ∃ sys, Runs.Visits step (start ⟨false, none⟩)
      [.create false 64 64 0 0 (some ⟨0, 0⟩), .map false, .destroy false 0,
        .create true 64 64 0 0 (some ⟨0, 0⟩), .map true, .close false] sys ∧
      ¬ sys.Isolated := by
  let actions : List (Action Bool) :=
    [.create false 64 64 0 0 (some ⟨0, 0⟩), .map false, .destroy false 0,
      .create true 64 64 0 0 (some ⟨0, 0⟩), .map true, .close false]
  let lost (sys : System Bool) : Bool :=
    (sys.clients true).owned.any fun o => (sys.shim.findBO o.bo.gemHandle).isNone
  have ends : (Runs.run step (start ⟨false, none⟩) actions).any lost = true := by
    decide +kernel
  obtain ⟨sys, reached, bad⟩ := Option.any_eq_true _ _ |>.mp ends
  obtain ⟨o, own, absent⟩ := List.any_eq_true.mp bad
  have h : sys.Tracked := Runs.run_invariant
    (fun _ _ _ h taken => h.change (step_table h.table taken) (step_change h.table taken))
    (tracked_start _) reached
  exact ⟨sys, Runs.visits_of_run reached,
    not_isolated_of_findBO h.table own (Option.isNone_iff_eq_none.mp absent)⟩

end System
end LunaOS.Gbm
