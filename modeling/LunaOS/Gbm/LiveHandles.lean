import LunaOS.Gbm.Objects
import LunaOS.Lib.Runs
import Mathlib.Data.List.Perm.Basic

/-!
The handles of one client. Each function of the library has one lemma that says what it
does to the live table and to the mappings; `Exact` ties both to the buffer objects that
are not destroyed. The second free of a destroy finds nothing, since nobody else uses
the device, and a surface that fails after its first buffer puts the table back.
-/
namespace LunaOS.Gbm
open Drm IODRMShim Custody

def handles (bos : List HostBo) : List UInt32 :=
  bos.map fun bo => bo.gemHandle

def mappings (bos : List HostBo) : List Mapped :=
  bos.filterMap HostBo.mapped

/-- Kext and address space hold what belongs to `bos`, and nothing else. -/
structure Exact (k : Kernel) (bos : List HostBo) : Prop where
  table : k.shim.TableExact
  live : ∀ handle, k.shim.contents.Live handle ↔ handle ∈ handles bos
  distinct : (handles bos).Nodup
  mapped : Holds k.ops (mappings bos)
  once : (mappings bos).Nodup

theorem exact_start (p : Provider) : Exact { shim := IODRMShim.start p } [] where
  table := tableExact_start p
  live := by
    intro handle
    refine iff_of_false ?_ List.not_mem_nil
    rintro ⟨i, _, busy⟩
    exact busy rfl
  distinct := List.nodup_nil
  mapped := holds_nil
  once := List.nodup_nil

variable {k k' : Kernel} {bos : List HostBo} {bo : HostBo}

theorem Exact.perm {bos' : List HostBo} (h : Exact k bos) (same : bos.Perm bos') :
    Exact k bos' where
  table := h.table
  live := fun handle => (h.live handle).trans (same.map _).mem_iff
  distinct := (same.map _).nodup_iff.mp h.distinct
  mapped := h.mapped.perm (same.filterMap _)
  once := (same.filterMap _).nodup_iff.mp h.once

/-! Creation. -/

/-- How `alloc_bo` turns out. -/
inductive Allocated (k : Kernel) : Kernel × Option HostBo → Prop where
  | failed (k' : Kernel) (table : k'.shim.TableExact) (ops : k'.ops = k.ops)
      (same : k'.shim.contents = k.shim.contents) : Allocated k (k', none)
  | made (k' : Kernel) (table : k'.shim.TableExact) (ops : k'.ops = k.ops)
      (i : Fin maxDumbBOs) (b : Buffer) (bo : HostBo) (free : k.shim.contents i = none)
      (added : k'.shim.contents = Function.update k.shim.contents i (some b))
      (handle : bo.gemHandle = handleOf i) (unmapped : bo.map = none) :
      Allocated k (k', some bo)

namespace Kernel

theorem ioctl_table (h : k.shim.TableExact) (data : Data) (mem : Option Mapping) :
    (k.ioctl data mem).1.shim.TableExact :=
  h.drmIoctl _

theorem allocBo_cases (h : k.shim.TableExact) (w ht fmt flags : UInt32) (o : AllocOutcome) :
    Allocated k (k.allocBo w ht fmt flags o) := by
  have table := ioctl_table h (.createDumb (allocRequest w ht fmt)) o.mem
  unfold allocBo
  cases o.createReaches with
  | false => exact .failed k h rfl rfl
  | true =>
      simp only [ioctl, drmIoctl_createDumb h.attached, Bool.not_true, Bool.false_eq_true,
        if_false] at table ⊢
      rcases h.allocHandle_cases with ⟨_, none_free⟩ | ⟨i, free, alloc⟩
      · simp only [ioctlCreateDumb_full none_free]
        exact .failed _ h rfl rfl
      · cases mem : o.mem with
        | none =>
            simp only [mem, ioctlCreateDumb_refused alloc] at table ⊢
            exact .failed _ table rfl (Slots.contents_update_of_view _ _ i _ free.1.symm)
        | some m =>
            simp only [mem, ioctlCreateDumb_created alloc] at table ⊢
            have added := contents_setBO k.shim i
              (k.shim.createdBO i (allocRequest w ht fmt) m) k.shim.ledger.acquire
            have asked := (drmIoctl_spec table ⟨.mapDumb { handle := handleOf i }, none, none⟩).2
            cases o.mapReaches with
            | false =>
                refine .made _ table ?_ i _ _ free.1 added ?_ ?_
                · rfl
                · rfl
                · rfl
            | true =>
                refine .made _ (table.drmIoctl _) ?_ i _ _ free.1 (asked.trans added)
                  (boMapped_gemHandle _ _) ?_
                · rfl
                · rfl

/-- DESTROY_DUMB and GEM_CLOSE of one handle free it once. -/
theorem gbmBoDestroy_contents (h : k.shim.TableExact) (bo : HostBo) :
    (k.gbmBoDestroy bo).shim.TableExact ∧
      (k.gbmBoDestroy bo).shim.contents = k.shim.contents.remove bo.gemHandle := by
  let destroy : Call := ⟨.destroyDumb { handle := bo.gemHandle }, none, none⟩
  let close : Call := ⟨.gemClose { handle := bo.gemHandle, pad := 0 }, none, none⟩
  have freed : (k.shim.drmIoctl destroy).1.contents = k.shim.contents.remove bo.gemHandle :=
    (drmIoctl_spec h destroy).2
  have table := h.drmIoctl destroy
  have again : ((k.shim.drmIoctl destroy).1.drmIoctl close).1.contents =
      (k.shim.drmIoctl destroy).1.contents.remove bo.gemHandle :=
    (drmIoctl_spec table close).2
  have same : (k.gbmBoDestroy bo).shim = ((k.shim.drmIoctl destroy).1.drmIoctl close).1 := by
    unfold gbmBoDestroy
    cases bo.mapped <;> rfl
  rw [same]
  refine ⟨table.drmIoctl close, again.trans ?_⟩
  rw [freed, BufferMap.remove_of_not_live]
  rw [BufferMap.live_remove_iff]
  exact fun both => both.2 rfl

theorem gbmBoDestroy_ops (k : Kernel) (bo : HostBo) :
    (k.gbmBoDestroy bo).ops = k.ops ++ bo.mapped.toList.map Op.release := by
  unfold gbmBoDestroy
  cases bo.mapped with
  | none => simp [ioctl]
  | some m => rfl

end Kernel

theorem live_update_iff (m : BufferMap) (i : Fin maxDumbBOs) (b : Buffer) (handle : UInt32) :
    BufferMap.Live (Function.update m i (some b)) handle ↔
      handle = handleOf i ∨ m.Live handle := by
  constructor
  · rintro ⟨j, rfl, busy⟩
    by_cases e : j = i
    · exact Or.inl (congrArg handleOf e)
    · exact Or.inr ⟨j, rfl, by rwa [Function.update_of_ne e] at busy⟩
  · rintro (rfl | live)
    · exact ⟨i, rfl, by simp⟩
    · exact BufferMap.live_update_of_live live i b

/-- A buffer object that was made belongs to those that are not destroyed. -/
theorem Exact.made (h : Exact k bos) (table : k'.shim.TableExact) (ops : k'.ops = k.ops)
    {i : Fin maxDumbBOs} {b : Buffer} (free : k.shim.contents i = none)
    (added : k'.shim.contents = Function.update k.shim.contents i (some b))
    (handle : bo.gemHandle = handleOf i) (unmapped : bo.map = none) :
    Exact k' (bo :: bos) := by
  have bare : mappings (bo :: bos) = mappings bos := by
    simp [mappings, HostBo.mapped, unmapped]
  have names : handles (bo :: bos) = handleOf i :: handles bos := by
    simp [handles, handle]
  have dead : ¬ k.shim.contents.Live (handleOf i) := by
    rintro ⟨j, same, busy⟩
    exact busy (handleOf_injective same ▸ free)
  refine ⟨table, fun other => ?_, ?_, ?_, ?_⟩
  · rw [added, live_update_iff, names, List.mem_cons, h.live]
  · rw [names, List.nodup_cons, ← h.live]
    exact ⟨dead, h.distinct⟩
  · rw [ops, bare]
    exact h.mapped
  · rw [bare]
    exact h.once

theorem Exact.destroyed (h : Exact k (bo :: bos)) : Exact (k.gbmBoDestroy bo) bos := by
  obtain ⟨table, removed⟩ := Kernel.gbmBoDestroy_contents h.table bo
  obtain ⟨own, distinct⟩ := List.nodup_cons.mp h.distinct
  refine ⟨table, fun other => ?_, distinct, ?_, ?_⟩
  · rw [removed, BufferMap.live_remove_iff, h.live]
    constructor
    · rintro ⟨mem, differs⟩
      exact (List.mem_cons.mp mem).resolve_left differs
    · intro mem
      refine ⟨List.mem_cons_of_mem _ mem, ?_⟩
      rintro rfl
      exact own mem
  · have held := h.mapped
    have once := h.once
    rw [Kernel.gbmBoDestroy_ops]
    cases m : bo.mapped with
    | none =>
        rw [mappings, List.filterMap_cons_none m] at held
        simpa [mappings] using held
    | some region =>
        rw [mappings, List.filterMap_cons_some m] at held once
        exact held.release (List.nodup_cons.mp once).1
  · exact h.once.sublist ((List.sublist_cons_self bo bos).filterMap _)

/-- A create that returns null leaves the table alone. -/
theorem Exact.allocated (h : Exact k bos) {r : Kernel × Option HostBo}
    (alloc : Allocated k r) :
    Exact r.1 (r.2.toList ++ bos) ∧
      (r.2 = none → r.1.shim.contents = k.shim.contents) := by
  cases alloc with
  | failed k' table ops same =>
      refine ⟨⟨table, fun other => ?_, h.distinct, ?_, h.once⟩, fun _ => same⟩
      · rw [same]
        exact h.live other
      · rw [ops]
        exact h.mapped
  | made k' table ops i b bo free added handle unmapped =>
      exact ⟨h.made table ops free added handle unmapped, fun null => by cases null⟩

theorem remove_update {m : BufferMap} {i : Fin maxDumbBOs} (free : m i = none) (b : Buffer) :
    BufferMap.remove (Function.update m i (some b)) (handleOf i) = m := by
  funext j
  by_cases e : j = i
  · subst e
    simp [BufferMap.remove, free]
  · have other : handleOf i ≠ handleOf j := fun same => e (handleOf_injective same).symm
    simp [BufferMap.remove, other, e]

/-- A surface has two buffer objects or leaves nothing behind. -/
theorem Exact.surfaceCreate (h : Exact k bos) (w ht fmt fl : UInt32)
    (o : Fin 2 → AllocOutcome) :
    Exact (k.gbmSurfaceCreate w ht fmt fl o).1
        ((k.gbmSurfaceCreate w ht fmt fl o).2.toList.flatMap GbmSurface.pair ++ bos) ∧
      ((k.gbmSurfaceCreate w ht fmt fl o).2 = none →
        (k.gbmSurfaceCreate w ht fmt fl o).1.shim.contents = k.shim.contents) := by
  unfold Kernel.gbmSurfaceCreate
  have first := Kernel.allocBo_cases h.table w ht fmt fl (o 0)
  generalize k.allocBo w ht fmt fl (o 0) = r at first
  have kept := h.allocated first
  cases first with
  | failed k' table ops same => exact ⟨kept.1, fun _ => same⟩
  | made k' table ops i b bo free added handle unmapped =>
      have second := Kernel.allocBo_cases table w ht fmt fl (o 1)
      dsimp only
      generalize k'.allocBo w ht fmt fl (o 1) = r' at second
      have kept' := kept.1.allocated second
      cases second with
      | failed k'' table' ops' same =>
          refine ⟨kept'.1.destroyed, fun _ => ?_⟩
          dsimp only
          rw [(Kernel.gbmBoDestroy_contents table' bo).2, same, added, handle]
          exact remove_update free b
      | made k'' table' ops' i' b' bo' free' added' handle' unmapped' =>
          exact ⟨kept'.1.perm (List.Perm.swap _ _ _), fun null => by cases null⟩

theorem Exact.surfaceDestroy {s : GbmSurface} (h : Exact k (s.pair ++ bos)) :
    Exact (k.gbmSurfaceDestroy s) bos :=
  Exact.destroyed (Exact.destroyed h)

/-- `gbm_bo_map` maps a buffer object at most once. -/
theorem Exact.boMap (h : Exact k (bo :: bos)) {result : Option UInt64}
    {r : Kernel × HostBo} (taken : k.gbmBoMap bo result = some r) :
    Exact r.1 (r.2 :: bos) ∧ r.1.shim = k.shim := by
  unfold Kernel.gbmBoMap at taken
  cases mapped : bo.map with
  | some addr =>
      rw [mapped] at taken
      obtain rfl := Option.some.inj taken
      exact ⟨h, rfl⟩
  | none =>
      cases result with
      | none =>
          rw [mapped] at taken
          obtain rfl := Option.some.inj taken
          exact ⟨h, rfl⟩
      | some addr =>
          rw [mapped] at taken
          obtain ⟨⟨_, _, free⟩, made⟩ := Option.ite_none_right_eq_some.mp taken
          obtain rfl := Option.some.inj made
          have bare : mappings (bo :: bos) = mappings bos := by
            simp [mappings, HostBo.mapped, mapped]
          have more : mappings ({ bo with map := some addr } :: bos) =
              (addr, bo.size) :: mappings bos := by
            simp [mappings, HostBo.mapped]
          have held := h.mapped
          have once := h.once
          rw [bare] at held once
          refine ⟨⟨h.table, h.live, h.distinct, ?_, ?_⟩, rfl⟩
          · rw [more]
            exact held.acquire free
          · rw [more, List.nodup_cons, ← held.2]
            exact ⟨free, once⟩

/-! The calls of a client. -/

namespace Host
variable {s s' : Host}

/-- What holds of a client after each call: the handles of the kext and the mappings are
those of its buffer objects, and a create that returns null leaves the table alone. -/
structure Sound (s : Host) : Prop where
  live : ∀ handle, s.kernel.shim.contents.Live handle ↔ handle ∈ handles s.outstanding
  distinct : (handles s.outstanding).Nodup
  mapped : Holds s.kernel.ops (mappings s.outstanding)
  once : (mappings s.outstanding).Nodup
  bo_null : ∀ w h fmt flags o, (s.kernel.gbmBoCreate w h fmt flags o).2 = none →
    (s.kernel.gbmBoCreate w h fmt flags o).1.shim.contents = s.kernel.shim.contents
  surface_null : ∀ w h fmt fl o, (s.kernel.gbmSurfaceCreate w h fmt fl o).2 = none →
    (s.kernel.gbmSurfaceCreate w h fmt fl o).1.shim.contents = s.kernel.shim.contents

theorem perm_cons_eraseIdx {α : Type} {l : List α} {n : Nat} {a : α} (h : l[n]? = some a) :
    l.Perm (a :: l.eraseIdx n) := by
  obtain ⟨inside, rfl⟩ := List.getElem?_eq_some_iff.mp h
  exact (List.getElem_cons_eraseIdx_perm inside).symm

theorem perm_set {α : Type} {l : List α} {n : Nat} {a : α} (h : l[n]? = some a) (b : α) :
    (l.set n b).Perm (b :: l.eraseIdx n) := by
  obtain ⟨inside, _⟩ := List.getElem?_eq_some_iff.mp h
  have placed : (l.set n b)[n]? = some b := List.getElem?_set_self inside
  have rest := perm_cons_eraseIdx placed
  rwa [List.eraseIdx_set_eq] at rest

/-- A buffer object of the client in front of the others. -/
theorem outstanding_bo {n : Nat} {bo : HostBo} (found : s.bos[n]? = some bo) :
    s.outstanding.Perm (bo :: { s with bos := s.bos.eraseIdx n }.outstanding) :=
  (perm_cons_eraseIdx found).append_right _

/-- The buffer objects of a surface in front of the others. -/
theorem outstanding_surface {n : Nat} {surface : GbmSurface}
    (found : s.surfaces[n]? = some surface) :
    s.outstanding.Perm
      (surface.pair ++ { s with surfaces := s.surfaces.eraseIdx n }.outstanding) := by
  have moved := ((perm_cons_eraseIdx found).flatMap_right GbmSurface.pair).append_left s.bos
  refine moved.trans ?_
  rw [List.flatMap_cons]
  exact List.perm_append_comm_assoc _ _ _

theorem keepBo_exact (h : Exact s.kernel s.outstanding) {r : Kernel × Option HostBo}
    (alloc : Allocated s.kernel r) :
    Exact (s.keepBo r).kernel (s.keepBo r).outstanding := by
  have kept := (h.allocated alloc).1
  rwa [outstanding, ← List.append_assoc] at kept

theorem keepSurface_exact (h : Exact s.kernel s.outstanding) (w ht fmt fl : UInt32)
    (o : Fin 2 → AllocOutcome) :
    Exact (s.keepSurface (s.kernel.gbmSurfaceCreate w ht fmt fl o)).kernel
      (s.keepSurface (s.kernel.gbmSurfaceCreate w ht fmt fl o)).outstanding := by
  have kept := (h.surfaceCreate w ht fmt fl o).1
  refine kept.perm ?_
  simp only [outstanding, keepSurface, List.flatMap_append]
  exact List.perm_append_comm_assoc _ _ _

theorem boMap_exact (h : Exact s.kernel s.outstanding) {n : Nat} {result : Option UInt64}
    (taken : s.step (.boMap n result) = some s') : Exact s'.kernel s'.outstanding := by
  obtain ⟨bo, found, rest⟩ := Option.bind_eq_some_iff.mp taken
  obtain ⟨r, mapped, rfl⟩ := Option.map_eq_some_iff.mp rest
  have kept := ((h.perm (outstanding_bo found)).boMap mapped).1
  exact kept.perm ((perm_set found r.2).append_right _).symm

theorem pair_perm (surface : GbmSurface) (side : Fin 2) (bo : HostBo) :
    surface.pair.Perm [surface.bos side, surface.bos (1 - side)] ∧
      { surface with bos := Function.update surface.bos side bo }.pair.Perm
        [bo, surface.bos (1 - side)] := by
  obtain rfl | rfl : side = 0 ∨ side = 1 := by omega
  · exact ⟨List.Perm.refl _, List.Perm.refl _⟩
  · exact ⟨List.Perm.swap _ _ _, List.Perm.swap _ _ _⟩

theorem surfaceBoMap_exact (h : Exact s.kernel s.outstanding) {n : Nat} {side : Fin 2}
    {result : Option UInt64} (taken : s.step (.surfaceBoMap n side result) = some s') :
    Exact s'.kernel s'.outstanding := by
  obtain ⟨surface, found, rest⟩ := Option.bind_eq_some_iff.mp taken
  obtain ⟨r, mapped, rfl⟩ := Option.map_eq_some_iff.mp rest
  obtain ⟨before, after⟩ := pair_perm surface side r.2
  have front := h.perm ((outstanding_surface found).trans (before.append_right _))
  have kept := (front.boMap mapped).1
  obtain ⟨inside, _⟩ := List.getElem?_eq_some_iff.mp found
  let surface' : GbmSurface := { surface with bos := Function.update surface.bos side r.2 }
  let s' : Host := { s with kernel := r.1, surfaces := s.surfaces.set n surface' }
  have placed : s'.surfaces[n]? = some surface' := List.getElem?_set_self inside
  have whole := (outstanding_surface placed).trans (after.append_right _)
  have erased : s'.surfaces.eraseIdx n = s.surfaces.eraseIdx n := List.eraseIdx_set_eq
  rw [erased] at whole
  exact kept.perm whole.symm

theorem step_exact (h : Exact s.kernel s.outstanding) {c : GbmCall}
    (taken : s.step c = some s') : Exact s'.kernel s'.outstanding := by
  cases c with
  | boCreate w ht fmt flags o =>
      obtain rfl := Option.some.inj taken
      exact keepBo_exact h (Kernel.allocBo_cases h.table w ht fmt flags o)
  | boCreateWithModifiers w ht fmt o =>
      obtain rfl := Option.some.inj taken
      exact keepBo_exact h (Kernel.allocBo_cases h.table w ht fmt _ o)
  | boCreateWithModifiers2 w ht fmt fl o =>
      obtain rfl := Option.some.inj taken
      exact keepBo_exact h (Kernel.allocBo_cases h.table w ht fmt _ o)
  | boMap n result => exact boMap_exact h taken
  | surfaceBoMap n side result => exact surfaceBoMap_exact h taken
  | boDestroy n =>
      obtain ⟨bo, found, rfl⟩ := Option.map_eq_some_iff.mp taken
      exact (h.perm (outstanding_bo found)).destroyed
  | surfaceCreate w ht fmt fl o =>
      obtain rfl := Option.some.inj taken
      exact keepSurface_exact h w ht fmt fl o
  | surfaceCreateWithModifiers w ht fmt o =>
      obtain rfl := Option.some.inj taken
      exact keepSurface_exact h w ht fmt _ o
  | surfaceCreateWithModifiers2 w ht fmt fl o =>
      obtain rfl := Option.some.inj taken
      exact keepSurface_exact h w ht fmt _ o
  | surfaceDestroy n =>
      obtain ⟨surface, found, rfl⟩ := Option.map_eq_some_iff.mp taken
      exact (h.perm (outstanding_surface found)).surfaceDestroy

/-- In every run of one client on a device of its own: after each call the live handles
are those of the buffer objects that are not destroyed, which are distinct, exactly
their mappings are in place, each made and removed once, and a create that returns null
leaves the live table as it was. -/
theorem handles_exact (p : Provider) {calls : List GbmCall}
    (visited : Runs.Visits step (start p) calls s) : s.Sound := by
  obtain ⟨before, _, _, reached⟩ := visited
  have h : Exact s.kernel s.outstanding :=
    Runs.run_invariant (fun _ _ _ h taken => step_exact h taken)
      (show Exact (start p).kernel (start p).outstanding from exact_start p) reached
  exact ⟨h.live, h.distinct, h.mapped, h.once,
    fun w ht fmt flags o => (h.allocated (Kernel.allocBo_cases h.table w ht fmt flags o)).2,
    fun w ht fmt fl o => (h.surfaceCreate w ht fmt fl o).2⟩

/-- A buffer object is mapped, a surface fails after its first buffer, another one is
made, and the buffer object goes. -/
theorem handles_exact_after_failure :
    ∃ s, Runs.Visits step (start ⟨false, none⟩)
      [.boCreate 64 64 0 0 { mem := some ⟨0, 0⟩ }, .boMap 0 (some 4096),
        .surfaceCreate 64 64 0 0 ![{ mem := some ⟨0, 0⟩ }, { mem := none }],
        .surfaceCreate 64 64 0 0 fun _ => { mem := some ⟨0, 0⟩ }, .boDestroy 0] s ∧
      s.Sound := by
  let calls : List GbmCall :=
    [.boCreate 64 64 0 0 { mem := some ⟨0, 0⟩ }, .boMap 0 (some 4096),
      .surfaceCreate 64 64 0 0 ![{ mem := some ⟨0, 0⟩ }, { mem := none }],
      .surfaceCreate 64 64 0 0 fun _ => { mem := some ⟨0, 0⟩ }, .boDestroy 0]
  have goes : (Runs.run step (start ⟨false, none⟩) calls).isSome := by decide +kernel
  obtain ⟨s, reached⟩ := Option.isSome_iff_exists.mp goes
  exact ⟨s, Runs.visits_of_run reached, handles_exact _ (Runs.visits_of_run reached)⟩

end Host
end LunaOS.Gbm
