import LunaOS.Drm.Libdrm

/-!
What the kext and its library are for together: a store of buffers under small handles, a
display of a fixed size, and the handle that was last put on it. `respond` is the whole
library in these terms, one call at a time: it knows no ioctl, no record of a slot that is
free, and no array that is filled in a second turn. Any number of clients that call the
library on the kext, ioctl by ioctl in any order, see a linearizable store.
-/
namespace LunaOS.Libdrm
open Drm Drm.IODRMShim Dialogues Linearize Slots

structure Store where
  buffers : BufferMap := fun _ => none
  /-- How many buffers were ever made. -/
  made : Nat := 0
  front : UInt32 := 0
  framebuffer : Bool
  width : UInt32
  height : UInt32

namespace Store

def find (st : Store) (handle : UInt32) : Option Buffer :=
  if handle.toNat = 0 ∨ handle.toNat > maxDumbBOs then none else st.buffers (slot handle)

def lowestFree (st : Store) : Option (Fin maxDumbBOs) :=
  Fin.find? fun i => (st.buffers i).isNone

def newBuffer (st : Store) (width height bpp : UInt32) (m : Mapping) : Buffer :=
  let pitch := dumbPitch width (dumbBpp bpp)
  { width := width
    height := height
    pitch := pitch
    bpp := dumbBpp bpp
    size := pitch.toUInt64 * height.toUInt64
    mem := st.made
    physAddr := m.physAddr
    virtAddr := m.virtAddr }

def create (st : Store) (width height bpp : UInt32) (mem : Option Mapping) :
    Store × Except Errno DumbBuffer :=
  match st.lowestFree, mem with
  | some i, some m =>
      let b := st.newBuffer width height bpp m
      ({ st with buffers := Function.update st.buffers i (some b), made := st.made + 1 },
        .ok ⟨handleOf i, b.pitch, b.size⟩)
  | _, _ => (st, .error .enomem)

def remove (st : Store) (handle : UInt32) : Store :=
  { st with buffers := st.buffers.remove handle }

/-- The display fails only where there is one. -/
def show' (st : Store) (handle : UInt32) (surface : Option DisplaySurface) : Store × Errno :=
  if handle = 0 then (st, .success)
  else match st.find handle with
    | none => (st, .einval)
    | some _ =>
        ({ st with front := handle },
          if st.framebuffer = true ∧ surface.isNone then .eio else .success)

/-- A device with one CRTC, one connector and one encoder, each with the number 1. -/
def resources (st : Store) (at' : ResArrays) : DrmModeRes :=
  let ids (addr : UInt64) := if addr = 0 then none else some [1]
  { countCrtcs := 1
    countConnectors := 1
    countEncoders := 1
    crtcs := ids at'.crtcs
    connectors := ids at'.connectors
    encoders := ids at'.encoders
    minWidth := 1
    maxWidth := st.width
    minHeight := 1
    maxHeight := st.height }

def mode (st : Store) : DrmModeInfo :=
  { hdisplay := st.width.toUInt16
    vdisplay := st.height.toUInt16
    vrefresh := 60
    clock := st.width * st.height * 60 / 1000
    type := 9
    name := s!"{st.width}x{st.height}" }

def connector (st : Store) (id : UInt32) (addr : UInt64) : DrmModeConnector :=
  { connectorId := id
    encoderId := 1
    connectorType := 14
    connection := 1
    mmWidth := st.width * 25400 / 220
    mmHeight := st.height * 25400 / 220
    countModes := 1
    modes := if addr = 0 then none else some [st.mode] }

def crtc (st : Store) (id : UInt32) : DrmModeCrtcInfo :=
  { crtcId := id
    bufferId := st.front
    modeValid := 1
    mode :=
      { hdisplay := st.width.toUInt16
        vdisplay := st.height.toUInt16
        vrefresh := 60 } }

/-- The driver's name and description, where the caller has room for them. -/
def driver (ver : DrmVersion) : DrmVersion × List Copyout :=
  ({ ver with
      versionMajor := 1
      versionMinor := 0
      versionPatchlevel := 0
      nameLen := sizeofText driverName
      descLen := sizeofText driverDesc },
    (if ver.name ≠ 0 ∧ ver.nameLen ≥ sizeofText driverName then
      [.text ver.name driverName] else []) ++
    (if ver.desc ≠ 0 ∧ ver.descLen ≥ sizeofText driverDesc then
      [.text ver.desc driverDesc] else []))

def capability (c : UInt64) : Errno × UInt64 :=
  if c = drmCapDumbBuffer ∨ c = drmCapTimestampMonotonic then (.success, 1)
  else if c = drmCapPrime then (.success, drmPrimeCapExport)
  else if c = drmCapAddfb2Modifiers then (.success, 0)
  else (.einval, 0)

/-- A call of the library, all at once. A framebuffer is its buffer's handle, dead or
alive; nothing is shared and no framebuffer can be removed. -/
def respond (st : Store) : Api → Store × Returned
  | .getVersion ver => (st, .version .success (driver ver).1 (driver ver).2)
  | .getCap c => (st, .cap (capability c).1 (capability c).2)
  | .createDumbBuffer width height bpp _ mem =>
      ((st.create width height bpp mem).1, .buffer (st.create width height bpp mem).2)
  | .mapDumbBuffer handle =>
      (st, .offset
        (if (st.find handle).isSome then .ok (handle.toUInt64 <<< 22) else .error .einval))
  | .destroyDumbBuffer handle | .closeBufferHandle handle => (st.remove handle, .code .success)
  | .primeHandleToFd _ _ | .primeFdToHandle _ | .rmFb _ => (st, .code .enotty)
  | .getResources at' => (st, .resources (some (st.resources at')))
  | .getConnector id addr => (st, .connector (some (st.connector id addr)))
  | .getEncoder id => (st, .encoder (some ⟨id, 2, 1, 1⟩))
  | .getCrtc id => (st, .crtc (some (st.crtc id)))
  | .setCrtc _ fbId _ _ _ _ _ surface =>
      ((st.show' fbId surface).1, .code (st.show' fbId surface).2)
  | .addFb _ _ _ _ _ boHandle => (st, .framebuffer (.ok boHandle))

end Store

/-- The store that a kext stands for. -/
def storeOf (s : IODRMShim) : Store :=
  { buffers := s.contents
    made := s.ledger.allocated
    front := s.fCurrentFbId
    framebuffer := s.fMobileFramebuffer
    width := s.fDisplayWidth
    height := s.fDisplayHeight }

/-! A handle in the table and in the store. -/

section
variable {s : IODRMShim}

theorem lowestFree_eq_some_iff (st : Store) (i : Fin maxDumbBOs) :
    st.lowestFree = some i ↔ LowestFree st.buffers i := by
  unfold Store.lowestFree
  exact scan_eq_some_iff (fun _ => Option.isNone_iff_eq_none) i

theorem lowestFree_eq_none_iff (st : Store) : st.lowestFree = none ↔ Full st.buffers := by
  unfold Store.lowestFree
  exact scan_eq_none_iff fun _ => Option.isNone_iff_eq_none

theorem find_storeOf (h : s.TableExact) (handle : UInt32) :
    ((storeOf s).find handle).isSome = (s.findBO handle).isSome := by
  unfold Store.find findBO
  split
  · rfl
  · have reads := h.contents_eq_none_iff (slot handle)
    change (s.contents (slot handle)).isSome = _
    cases used : (s.fBOs (slot handle)).inUse with
    | false => rw [reads.mpr used, if_neg Bool.false_ne_true]; rfl
    | true =>
        have busy : s.contents (slot handle) ≠ none := by
          intro idle
          rw [reads.mp idle] at used
          cases used
        rw [if_pos rfl, Option.isSome_some, Option.isSome_iff_ne_none]
        exact busy

/-! Each function comes down to one change of the store. -/

/-- What every ioctl keeps: the table is exact, and the display has its size. -/
structure Kept (width height : UInt32) (s : IODRMShim) : Prop where
  table : s.TableExact
  width : s.fDisplayWidth = width
  height : s.fDisplayHeight = height

/-- The dialogue of `op` is atomic on the store, whatever the size of the display. -/
def Single (op : Api) (d : Program) : Prop :=
  ∀ width height, d.Atomic drmIoctl (Kept width height) storeOf Store.respond op

theorem single_ask {op : Api} {c : Call} {f : Reply → Returned}
    (turn : ∀ s : IODRMShim, s.TableExact →
      (storeOf s).respond op = (storeOf (s.drmIoctl c).1, f (s.drmIoctl c).2)) :
    Single op (.ask c fun r => .done (f r)) :=
  fun _ _ s kept => Or.inl ⟨f (s.drmIoctl c).2, rfl, turn s kept.table⟩

/-- A buffer that the kext has made is the new buffer of the store. -/
theorem buffer_createdBO (s : IODRMShim) (i : Fin maxDumbBOs) (width height bpp flags : UInt32)
    (m : Mapping) :
    (s.createdBO i (createDumbRequest width height bpp flags) m).buffer =
      some ((storeOf s).newBuffer width height bpp m) := by
  have depth : dumbBpp (createDumbRequest width height bpp flags).bpp = dumbBpp bpp :=
    dumbBpp_dumbBpp bpp
  simp only [createdBO, fillBO, depth]
  rfl

/-- The store has no room, or no memory. -/
theorem create_refused {st : Store} {mem : Option Mapping}
    (refused : st.lowestFree = none ∨ mem = none) (width height bpp : UInt32) :
    st.create width height bpp mem = (st, .error .enomem) := by
  unfold Store.create
  rcases refused with full | rfl
  · rw [full]
  · cases st.lowestFree <;> rfl

theorem create_at {st : Store} {i : Fin maxDumbBOs} (lowest : st.lowestFree = some i)
    (width height bpp : UInt32) (m : Mapping) :
    st.create width height bpp (some m) =
      ({ st with
          buffers := Function.update st.buffers i (some (st.newBuffer width height bpp m))
          made := st.made + 1 },
        .ok ⟨handleOf i, (st.newBuffer width height bpp m).pitch,
          (st.newBuffer width height bpp m).size⟩) := by
  unfold Store.create
  rw [lowest]

theorem create_storeOf (exact' : s.TableExact) (width height bpp flags : UInt32)
    (mem : Option Mapping) :
    (storeOf s).create width height bpp mem =
      (storeOf (s.ioctlCreateDumb (createDumbRequest width height bpp flags) mem).1,
        createdBuffer (s.ioctlCreateDumb (createDumbRequest width height bpp flags) mem).2) := by
  rcases exact'.allocHandle_cases with ⟨full, none_free⟩ | ⟨i, free, alloc⟩
  · have none_left : (storeOf s).lowestFree = none := (lowestFree_eq_none_iff _).mpr full
    rw [ioctlCreateDumb_full none_free, create_refused (Or.inl none_left)]
    rfl
  · cases mem with
    | none =>
        have same := contents_update_of_view DumbBO.buffer s.fBOs i
          (s.refusedBO i (createDumbRequest width height bpp flags)) free.1.symm
        rw [ioctlCreateDumb_refused alloc, create_refused (Or.inr rfl)]
        refine Prod.ext ?_ rfl
        exact congrArg (fun m => ({ storeOf s with buffers := m } : Store)) same.symm
    | some m =>
        have lowest : (storeOf s).lowestFree = some i := (lowestFree_eq_some_iff _ i).mpr free
        have filled := contents_setBO s i
          (s.createdBO i (createDumbRequest width height bpp flags) m) s.ledger.acquire
        rw [buffer_createdBO] at filled
        have depth : dumbBpp (createDumbRequest width height bpp flags).bpp = dumbBpp bpp :=
          dumbBpp_dumbBpp bpp
        rw [ioctlCreateDumb_created alloc, create_at lowest]
        refine Prod.ext ?_ ?_
        · exact congrArg
            (fun b => ({ storeOf s with buffers := b, made := s.ledger.allocated + 1 } : Store))
            filled.symm
        · simp only [createdBuffer, createdBO, fillBO, depth]
          rfl

theorem single_createDumb (width height bpp flags : UInt32) (mem : Option Mapping) :
    Single (.createDumbBuffer width height bpp flags mem)
      (createDumbBuffer width height bpp flags mem) := by
  refine single_ask fun s exact' => ?_
  rw [drmIoctl_createDumb exact'.attached, Store.respond,
    create_storeOf exact' width height bpp flags mem]

theorem closeBO_display (s : IODRMShim) (handle : UInt32) :
    (s.closeBO handle).fMobileFramebuffer = s.fMobileFramebuffer ∧
      (s.closeBO handle).fDisplayWidth = s.fDisplayWidth ∧
      (s.closeBO handle).fDisplayHeight = s.fDisplayHeight := by
  unfold closeBO
  split
  · exact ⟨rfl, rfl, rfl⟩
  · dsimp only
    split <;> exact ⟨rfl, rfl, rfl⟩

theorem single_close {op : Api} {c : Call} {handle : UInt32}
    (respond : ∀ st : Store, st.respond op = (st.remove handle, .code .success))
    (close : ∀ s : IODRMShim, s.TableExact → (s.drmIoctl c).1 = s.closeBO handle ∧
      (s.drmIoctl c).2.errno = .success) : Single op (ioctlCode c) := by
  refine single_ask fun s exact' => ?_
  obtain ⟨closed, ok⟩ := close s exact'
  obtain ⟨current, allocated⟩ := closeBO_frame s handle
  rw [respond, closed, ok]
  refine Prod.ext ?_ rfl
  simp only [Store.remove, storeOf, contents_closeBO exact', current, allocated,
    closeBO_display s handle]

theorem single_destroyDumb (handle : UInt32) :
    Single (.destroyDumbBuffer handle) (drmModeDestroyDumbBuffer handle) := by
  refine single_close (fun _ => rfl) fun s exact' => ?_
  rw [drmIoctl, exact'.attached]
  exact ⟨rfl, rfl⟩

theorem single_closeHandle (handle : UInt32) :
    Single (.closeBufferHandle handle) (drmCloseBufferHandle handle) := by
  refine single_close (fun _ => rfl) fun s exact' => ?_
  rw [drmIoctl_gemClose exact'.attached]
  exact ⟨rfl, rfl⟩

theorem single_mapDumb (handle : UInt32) :
    Single (.mapDumbBuffer handle) (drmModeMapDumbBuffer handle) := by
  refine single_ask fun s exact' => ?_
  have reply : s.drmIoctl ⟨.mapDumb { handle := handle }, none, none⟩ =
      (s, s.ioctlMapDumb { handle := handle }) := by
    rw [drmIoctl, exact'.attached]
    rfl
  rw [reply]
  simp only [Store.respond, find_storeOf exact', ioctlMapDumb]
  cases s.findBO handle <;> rfl

theorem single_setCrtc (crtcId fbId x y : UInt32) (connectors : UInt64) (count : Int32)
    (mode : Option DrmModeInfo) (surface : Option DisplaySurface) :
    Single (.setCrtc crtcId fbId x y connectors count mode surface)
      (drmModeSetCrtc crtcId fbId x y connectors count mode surface) := by
  refine single_ask fun s exact' => ?_
  rw [drmIoctl_setCrtc exact'.attached]
  simp only [Store.respond, Store.show', ioctlSetcrtc]
  by_cases off : fbId = 0
  · simp only [off, if_true]
  · simp only [off, if_false]
    have live := find_storeOf exact' fbId
    cases found : s.findBO fbId with
    | none =>
        rw [found] at live
        rw [Option.isSome_eq_false_iff.mp live |> Option.isNone_iff_eq_none.mp]
    | some i =>
        rw [found] at live
        obtain ⟨b, held⟩ := Option.isSome_iff_exists.mp live
        rw [held]
        cases display : s.fMobileFramebuffer with
        | false =>
            simp [blitToDisplay, storeOf, display]
            rfl
        | true => cases surface <;> simp [blitToDisplay, storeOf, display] <;> rfl

/-! Functions that only read. -/

/-- The ioctl leaves the kext as it is, and its reply is `reply`. -/
def Reads (c : Call) (reply : IODRMShim → Reply) : Prop :=
  ∀ s : IODRMShim, s.gShim = true → s.drmIoctl c = (s, reply s)

theorem reads_version (v : DrmVersion) :
    Reads ⟨.version v, none, none⟩ fun _ => ioctlVersion v := by
  intro s attached
  rw [drmIoctl, attached]
  rfl

theorem reads_getResources (res : DrmModeCardRes) :
    Reads ⟨.getResources res, none, none⟩ (·.ioctlGetresources res) := by
  intro s attached
  rw [drmIoctl, attached]
  rfl

theorem reads_getConnector (conn : DrmModeGetConnector) :
    Reads ⟨.getConnector conn, none, none⟩ (·.ioctlGetconnector conn) := by
  intro s attached
  rw [drmIoctl, attached]
  rfl

theorem reads_getEncoder (enc : DrmModeGetEncoder) :
    Reads ⟨.getEncoder enc, none, none⟩ fun _ => ioctlGetencoder enc := by
  intro s attached
  rw [drmIoctl, attached]
  rfl

theorem reads_getCrtc (crtc : DrmModeCrtc) :
    Reads ⟨.getCrtc crtc, none, none⟩ (·.ioctlGetcrtc crtc) := by
  intro s attached
  rw [drmIoctl, attached]
  rfl

theorem reads_addFb (fb : DrmModeFbCmd) :
    Reads ⟨.addFb fb, none, none⟩ fun _ => ioctlAddfb fb := by
  intro s attached
  rw [drmIoctl, attached]
  rfl

theorem reads_other (cmd : UInt64) :
    Reads ⟨.other cmd, none, none⟩ fun _ => { errno := .enotty, data := .other cmd } := by
  intro s attached
  rw [drmIoctl, attached]
  rfl

theorem single_other {op : Api} (cmd : UInt64)
    (respond : ∀ st : Store, st.respond op = (st, .code .enotty)) :
    Single op (ioctlCode ⟨.other cmd, none, none⟩) := by
  refine single_ask fun s exact' => ?_
  rw [respond, reads_other cmd s exact'.attached]

theorem single_getVersion (ver : DrmVersion) : Single (.getVersion ver) (drmGetVersion ver) := by
  intro _ _ s kept
  rw [reads_version ver s kept.table.attached]
  exact Or.inl ⟨_, rfl, rfl⟩

theorem single_getCap (c : UInt64) : Single (.getCap c) (drmGetCap c) := by
  unfold drmGetCap
  by_cases dumb : c = drmCapDumbBuffer
  · rw [if_pos dumb]
    intro _ _ s _
    simp only [Store.respond, Store.capability, dumb, true_or, if_true]
  · rw [if_neg dumb]
    by_cases prime : c = drmCapPrime
    · rw [if_pos prime]
      intro _ _ s _
      rw [prime]
      rfl
    · rw [if_neg prime]
      by_cases stamp : c = drmCapTimestampMonotonic
      · rw [if_pos stamp]
        intro _ _ s _
        simp only [Store.respond, Store.capability, stamp, or_true, if_true]
      · rw [if_neg stamp]
        by_cases modifiers : c = drmCapAddfb2Modifiers
        · rw [if_pos modifiers]
          intro _ _ s _
          rw [modifiers]
          rfl
        · rw [if_neg modifiers]
          intro _ _ s _
          simp only [Store.respond, Store.capability, dumb, prime, stamp, modifiers, or_self,
            if_false]

theorem single_getEncoder (id : UInt32) : Single (.getEncoder id) (drmModeGetEncoder id) := by
  intro _ _ s kept
  rw [reads_getEncoder _ s kept.table.attached]
  exact Or.inl ⟨_, rfl, rfl⟩

theorem single_getCrtc (id : UInt32) : Single (.getCrtc id) (drmModeGetCrtc id) := by
  intro _ _ s kept
  rw [reads_getCrtc _ s kept.table.attached]
  exact Or.inl ⟨_, rfl, rfl⟩

theorem single_addFb (width height : UInt32) (depth bpp : UInt8) (pitch boHandle : UInt32) :
    Single (.addFb width height depth bpp pitch boHandle)
      (drmModeAddFb width height depth bpp pitch boHandle) := by
  refine single_ask fun s exact' => ?_
  rw [reads_addFb _ s exact'.attached]
  rfl

/-! Functions that ask twice: for the counts, and with room for what is counted. -/

/-- One word that is written, and by nothing but ones. -/
theorem wordsAt_one {addr : UInt64} {outs : List Copyout}
    (ones : ∀ out ∈ outs, ∃ dst, out = .word dst 1) (written : .word addr 1 ∈ outs) :
    wordsAt addr 1 outs = [1] := by
  have small {n : Nat} (below : n < 4 * (1 : UInt32).toNat) : n / 4 = 0 :=
    Nat.div_eq_of_lt below
  have stays (outs : List Copyout) (ones : ∀ out ∈ outs, ∃ dst, out = .word dst 1) :
      ∀ a : List UInt32, (a = [0] ∧ .word addr 1 ∈ outs) ∨ a = [1] →
        outs.foldl (putWord addr 1) a = [1] := by
    induction outs with
    | nil =>
        intro a case'
        rcases case' with ⟨_, mem⟩ | rfl
        · cases mem
        · rfl
    | cons out outs ih =>
        obtain ⟨first, rest⟩ := List.forall_mem_cons.mp ones
        obtain ⟨dst, rfl⟩ := first
        intro a case'
        refine ih rest _ ?_
        rw [putWord]
        by_cases below : (dst - addr).toNat < 4 * (1 : UInt32).toNat
        · rw [if_pos below, small below]
          rcases case' with ⟨rfl, _⟩ | rfl <;> exact Or.inr rfl
        · rw [if_neg below]
          refine case'.imp (fun waiting => ⟨waiting.1, ?_⟩) id
          rcases List.mem_cons.mp waiting.2 with here | later
          · obtain ⟨rfl, _⟩ := Copyout.word.inj here
            rw [UInt64.sub_self] at below
            exact absurd (by decide) below
          · exact later
  exact stays outs ones [0] (Or.inl ⟨rfl, written⟩)

/-- The copies that the second ioctl of `drmModeGetResources` makes. -/
def resourceCopies (at' : ResArrays) : List Copyout :=
  (if at'.crtcs ≠ 0 then [.word at'.crtcs 1] else []) ++
  (if at'.connectors ≠ 0 then [.word at'.connectors 1] else []) ++
  (if at'.encoders ≠ 0 then [.word at'.encoders 1] else [])

theorem mem_resourceCopies {at' : ResArrays} {out : Copyout}
    (copied : out ∈ resourceCopies at') : ∃ dst, out = .word dst 1 := by
  unfold resourceCopies at copied
  rcases List.mem_append.mp copied with front | last
  · rcases List.mem_append.mp front with first | second
    · split at first
      · exact ⟨_, List.mem_singleton.mp first⟩
      · cases first
    · split at second
      · exact ⟨_, List.mem_singleton.mp second⟩
      · cases second
  · split at last
    · exact ⟨_, List.mem_singleton.mp last⟩
    · cases last

theorem array_resourceCopies (at' : ResArrays) (addr : UInt64)
    (asked : addr ≠ 0 → .word addr 1 ∈ resourceCopies at') :
    array addr 1 (resourceCopies at') = if addr = 0 then none else some [1] := by
  unfold array
  by_cases null : addr = 0
  · simp [null]
  · rw [if_pos ⟨by decide, null⟩, if_neg null,
      wordsAt_one (fun _ => mem_resourceCopies) (asked null)]

/-- What the first ioctl of `drmModeGetResources` fills in. -/
def countedResources (width height : UInt32) : DrmModeCardRes :=
  { noResources with
    countCrtcs := 1
    countConnectors := 1
    countEncoders := 1
    minWidth := 1
    maxWidth := width
    minHeight := 1
    maxHeight := height }

theorem copyouts_countedResources (s : IODRMShim) (width height : UInt32) (at' : ResArrays) :
    (s.ioctlGetresources (withArrays (countedResources width height) at')).copyouts =
      resourceCopies at' := by
  simp [ioctlGetresources, withArrays, countedResources, resourceCopies]

theorem resourcesOf_counted (st : Store) (at' : ResArrays) :
    resourcesOf (countedResources st.width st.height) at' (resourceCopies at') =
      st.resources at' := by
  have crtcs := array_resourceCopies at' at'.crtcs
    (by intro set; simp [resourceCopies, set])
  have connectors := array_resourceCopies at' at'.connectors
    (by intro set; simp [resourceCopies, set])
  have encoders := array_resourceCopies at' at'.encoders
    (by intro set; simp [resourceCopies, set])
  simp only [resourcesOf, countedResources, crtcs, connectors, encoders]
  rfl

theorem single_getResources (at' : ResArrays) :
    Single (.getResources at') (drmModeGetResources at') := by
  intro width height s kept
  rw [reads_getResources _ s kept.table.attached]
  refine Or.inr ⟨rfl, rfl, ?_⟩
  intro s' kept'
  rw [reads_getResources _ s' kept'.table.attached]
  refine Or.inl ⟨_, rfl, ?_⟩
  have size : countedResources s.fDisplayWidth s.fDisplayHeight =
      countedResources (storeOf s').width (storeOf s').height := by
    rw [kept.width, kept.height, ← kept'.width, ← kept'.height]
    rfl
  change _ = (storeOf s', Returned.resources (some
    (resourcesOf (countedResources s.fDisplayWidth s.fDisplayHeight) at'
      (s'.ioctlGetresources
        (withArrays (countedResources s.fDisplayWidth s.fDisplayHeight) at')).copyouts)))
  rw [copyouts_countedResources, size, resourcesOf_counted]
  rfl

theorem modesAt_one (addr : UInt64) (m : DrmModeInfo) :
    modesAt addr 1 [.mode addr m] = [m] := by
  simp [modesAt, modeSize]

theorem single_getConnector (id : UInt32) (addr : UInt64) :
    Single (.getConnector id addr) (drmModeGetConnector id addr) := by
  intro width height s kept
  rw [reads_getConnector _ s kept.table.attached]
  refine Or.inr ⟨rfl, rfl, ?_⟩
  intro s' kept'
  rw [reads_getConnector _ s' kept'.table.attached]
  refine Or.inl ⟨_, rfl, ?_⟩
  have same_width : s.fDisplayWidth = s'.fDisplayWidth := kept.width.trans kept'.width.symm
  have same_height : s.fDisplayHeight = s'.fDisplayHeight := kept.height.trans kept'.height.symm
  have modes : modesAt addr 1 [.mode addr s'.nativeMode] = [(storeOf s').mode] :=
    modesAt_one addr s'.nativeMode
  refine Prod.ext rfl ?_
  change Returned.connector (some ((storeOf s').connector id addr)) =
    Returned.connector (some (connectorOf id _ _
      (if addr ≠ 0 then some (modesAt addr 1 [.mode addr s'.nativeMode]) else none)))
  rw [modes]
  simp only [Store.connector, connectorOf, ite_not, same_width, same_height]
  rfl

theorem single_program (op : Api) : Single op (program op) := by
  cases op with
  | getVersion ver => exact single_getVersion ver
  | getCap c => exact single_getCap c
  | createDumbBuffer width height bpp flags mem =>
      exact single_createDumb width height bpp flags mem
  | mapDumbBuffer handle => exact single_mapDumb handle
  | destroyDumbBuffer handle => exact single_destroyDumb handle
  | closeBufferHandle handle => exact single_closeHandle handle
  | primeHandleToFd _ _ => exact single_other drmIoctlPrimeHandleToFd fun _ => rfl
  | primeFdToHandle _ => exact single_other drmIoctlPrimeFdToHandle fun _ => rfl
  | getResources at' => exact single_getResources at'
  | getConnector id addr => exact single_getConnector id addr
  | getEncoder id => exact single_getEncoder id
  | getCrtc id => exact single_getCrtc id
  | setCrtc crtcId fbId x y connectors count mode surface =>
      exact single_setCrtc crtcId fbId x y connectors count mode surface
  | addFb width height depth bpp pitch boHandle =>
      exact single_addFb width height depth bpp pitch boHandle
  | rmFb _ => exact single_other drmIoctlModeRmfb fun _ => rfl

/-- No ioctl changes the size of the display. -/
theorem drmIoctl_display (s : IODRMShim) (c : Call) :
    (s.drmIoctl c).1.fDisplayWidth = s.fDisplayWidth ∧
      (s.drmIoctl c).1.fDisplayHeight = s.fDisplayHeight := by
  unfold IODRMShim.drmIoctl
  split
  · exact ⟨rfl, rfl⟩
  · cases c.data with
    | createDumb req =>
        dsimp only
        unfold ioctlCreateDumb
        dsimp only
        split
        · exact ⟨rfl, rfl⟩
        · cases c.mem <;> exact ⟨rfl, rfl⟩
    | setCrtc req =>
        obtain ⟨fb, table⟩ := ioctlSetcrtc_table s req c.surface
        simp only [table, and_self]
    | destroyDumb req => exact (closeBO_display s req.handle).2
    | gemClose req => exact (closeBO_display s req.handle).2
    | version _ | getResources _ | getConnector _ | getEncoder _ | getCrtc _ | addFb _
    | mapDumb _ | other _ => exact ⟨rfl, rfl⟩

theorem Kept.drmIoctl {width height : UInt32} (s : IODRMShim) (c : Call)
    (kept : Kept width height s) : Kept width height (s.drmIoctl c).1 where
  table := kept.table.drmIoctl c
  width := (drmIoctl_display s c).1.trans kept.width
  height := (drmIoctl_display s c).2.trans kept.height

end

/-- For every run of any number of clients that call the library, ioctl by ioctl in any
order: what they see is linearized by a log of calls on the store, each of which takes
effect at once, and the kext stands for the store that these leave. -/
theorem clients_linearize (p : Provider) {as : List (Dialogues.Action Api)}
    {k : Sessions IODRMShim Call Reply Api Returned}
    (ran : Runs.run (Sessions.step drmIoctl program) { server := IODRMShim.start p } as =
      some k) :
    ∃ log, Linearizes Store.respond (storeOf (IODRMShim.start p)) k.history log ∧
      storeOf k.server = replay Store.respond (storeOf (IODRMShim.start p)) log :=
  Sessions.linearize (fun s c => Kept.drmIoctl s c) (fun op => single_program op _ _)
    ⟨tableExact_start p, rfl, rfl⟩ ran

/-- One client closes a handle between the two ioctls of the other. -/
def twoClients : List (Dialogues.Action Api) :=
  [.call 0 (.getResources ⟨4096, 4112, 4128⟩), .ask 0, .call 1 (.closeBufferHandle 1),
    .ask 1, .ask 0, .ret 0, .ret 1]

theorem clients_linearize_two_clients :
    ∃ k : Sessions IODRMShim Call Reply Api Returned,
      Runs.run (Sessions.step drmIoctl program) { server := IODRMShim.start ⟨false, none⟩ }
        twoClients = some k ∧ k.history.length = 4 ∧
      ∃ log, Linearizes Store.respond (storeOf (IODRMShim.start ⟨false, none⟩)) k.history log := by
  have ran : Runs.run (Sessions.step drmIoctl program)
      { server := IODRMShim.start ⟨false, none⟩ } twoClients = some _ := rfl
  exact ⟨_, ran, rfl, (clients_linearize ⟨false, none⟩ ran).imp fun _ => And.left⟩

end LunaOS.Libdrm
