import LunaOS.Drm.Store
import LunaOS.Lib.Codecs
import Mathlib.Data.Fin.VecNotation

/-!
An ioctl as it goes through the kernel: a command number, which holds the size of the
argument, and the bytes of the argument. The library writes them by the structures of
`drm-shim/include/drm_darwin.h`, the kext reads them by those that `IODRMShim.cpp` declares
for itself; the kernel copies the argument in, and out again where the command says so and
the handler returned 0. Both lay every structure that the kext handles out alike, so that
nothing is lost on the way.
-/
namespace LunaOS.Drm.Wire
open Codec IODRMShim Libdrm Dialogues Linearize

/-! The structures from their members, where members of one type that follow each other are an
array. -/

def asVersion (c : Codec ((Fin 3 → Int) × (Fin 6 → UInt64))) : Codec DrmVersion :=
  c.close.iso
    (fun v => (![v.versionMajor, v.versionMinor, v.versionPatchlevel],
      ![v.nameLen, v.name, v.dateLen, v.date, v.descLen, v.desc]))
    (fun (a, b) => ⟨a 0, a 1, a 2, b 0, b 1, b 2, b 3, b 4, b 5⟩) fun _ => rfl

def asGemClose (c : Codec (UInt32 × UInt32)) : Codec DrmGemClose :=
  c.close.iso (fun r => (r.handle, r.pad)) (fun (handle, pad) => ⟨handle, pad⟩) fun _ => rfl

def asCardRes (c : Codec ((Fin 4 → UInt64) × (Fin 8 → UInt32))) : Codec DrmModeCardRes :=
  c.close.iso
    (fun r => (![r.fbIdPtr, r.crtcIdPtr, r.connectorIdPtr, r.encoderIdPtr],
      ![r.countFbs, r.countCrtcs, r.countConnectors, r.countEncoders, r.minWidth, r.maxWidth,
        r.minHeight, r.maxHeight]))
    (fun (a, b) => ⟨a 0, a 1, a 2, a 3, b 0, b 1, b 2, b 3, b 4, b 5, b 6, b 7⟩) fun _ => rfl

def asModeInfo (c : Codec (((UInt32 × (Fin 10 → UInt16)) × (Fin 3 → UInt32)) × String)) :
    Codec DrmModeInfo :=
  c.close.iso
    (fun m => (((m.clock, ![m.hdisplay, m.hsyncStart, m.hsyncEnd, m.htotal, m.hskew, m.vdisplay,
      m.vsyncStart, m.vsyncEnd, m.vtotal, m.vscan]), ![m.vrefresh, m.flags, m.type]), m.name))
    (fun (((clock, a), b), name) => ⟨clock, a 0, a 1, a 2, a 3, a 4, a 5, a 6, a 7, a 8, a 9,
      b 0, b 1, b 2, name⟩) fun _ => rfl

def asCrtc (c : Codec ((UInt64 × (Fin 7 → UInt32)) × DrmModeInfo)) : Codec DrmModeCrtc :=
  c.close.iso
    (fun r => ((r.setConnectorsPtr, ![r.countConnectors, r.crtcId, r.fbId, r.x, r.y, r.gammaSize,
      r.modeValid]), r.mode))
    (fun ((ptr, a), mode) => ⟨ptr, a 0, a 1, a 2, a 3, a 4, a 5, a 6, mode⟩) fun _ => rfl

def asFbCmd (c : Codec (Fin 7 → UInt32)) : Codec DrmModeFbCmd :=
  c.close.iso (fun r => ![r.fbId, r.width, r.height, r.pitch, r.bpp, r.depth, r.handle])
    (fun a => ⟨a 0, a 1, a 2, a 3, a 4, a 5, a 6⟩) fun _ => rfl

def asCreateDumb (c : Codec ((Fin 6 → UInt32) × UInt64)) : Codec DrmModeCreateDumb :=
  c.close.iso (fun r => (![r.height, r.width, r.bpp, r.flags, r.handle, r.pitch], r.size))
    (fun (a, size) => ⟨a 0, a 1, a 2, a 3, a 4, a 5, size⟩) fun _ => rfl

def asMapDumb (c : Codec ((UInt32 × UInt32) × UInt64)) : Codec DrmModeMapDumb :=
  c.close.iso (fun r => ((r.handle, r.pad), r.offset))
    (fun ((handle, pad), offset) => ⟨handle, pad, offset⟩) fun _ => rfl

def asDestroyDumb (c : Codec UInt32) : Codec DrmModeDestroyDumb :=
  c.close.iso (fun r => r.handle) (fun handle => ⟨handle⟩) fun _ => rfl

def asGetConnector (c : Codec ((Fin 4 → UInt64) × (Fin 12 → UInt32))) :
    Codec DrmModeGetConnector :=
  c.close.iso
    (fun r => (![r.encodersPtr, r.modesPtr, r.propsPtr, r.propValuesPtr],
      ![r.countModes, r.countProps, r.countEncoders, r.encoderId, r.connectorId, r.connectorType,
        r.connectorTypeId, r.connection, r.mmWidth, r.mmHeight, r.subpixel, r.pad]))
    (fun (a, b) => ⟨a 0, a 1, a 2, a 3, b 0, b 1, b 2, b 3, b 4, b 5, b 6, b 7, b 8, b 9, b 10,
      b 11⟩) fun _ => rfl

def asGetEncoder (c : Codec (Fin 5 → UInt32)) : Codec DrmModeGetEncoder :=
  c.close.iso (fun r => ![r.encoderId, r.encoderType, r.crtcId, r.possibleCrtcs, r.possibleClones])
    (fun a => ⟨a 0, a 1, a 2, a 3, a 4⟩) fun _ => rfl

/-- The structures that one side declares and the other reads. -/
structure Header where
  version : Codec DrmVersion
  gemClose : Codec DrmGemClose
  cardRes : Codec DrmModeCardRes
  modeInfo : Codec DrmModeInfo
  crtc : Codec DrmModeCrtc
  fbCmd : Codec DrmModeFbCmd
  createDumb : Codec DrmModeCreateDumb
  mapDumb : Codec DrmModeMapDumb
  destroyDumb : Codec DrmModeDestroyDumb
  getConnector : Codec DrmModeGetConnector
  getEncoder : Codec DrmModeGetEncoder

/-- The structures of `IODRMShim.cpp`. -/
def kext : Header where
  version := asVersion ((int.array 3).member (u64.array 6))
  gemClose := asGemClose (u32.member u32)
  cardRes := asCardRes ((u64.array 4).member (u32.array 8))
  modeInfo := modeInfo
  crtc := asCrtc ((u64.member (u32.array 7)).member modeInfo)
  fbCmd := asFbCmd (u32.array 7)
  createDumb := asCreateDumb ((u32.array 6).member u64)
  mapDumb := asMapDumb ((u32.member u32).member u64)
  destroyDumb := asDestroyDumb u32
  getConnector := asGetConnector ((u64.array 4).member (u32.array 12))
  getEncoder := asGetEncoder (u32.array 5)
where
  modeInfo :=
    asModeInfo (((u32.member (u16.array 10)).member (u32.array 3)).member (chars 32))

/-- The structures of `drm_darwin.h`. -/
def library : Header where
  version := asVersion ((int.array 3).member (u64.array 6))
  gemClose := asGemClose (u32.member u32)
  cardRes := asCardRes ((u64.array 4).member (u32.array 8))
  modeInfo := modeInfo
  crtc := asCrtc ((u64.member (u32.array 7)).member modeInfo)
  fbCmd := asFbCmd (u32.array 7)
  createDumb := asCreateDumb ((u32.array 6).member u64)
  mapDumb := asMapDumb ((u32.member u32).member u64)
  destroyDumb := asDestroyDumb u32
  getConnector := asGetConnector ((u64.array 4).member (u32.array 12))
  getEncoder := asGetEncoder (u32.array 5)
where
  modeInfo :=
    asModeInfo (((u32.member (u16.array 10)).member (u32.array 3)).member (chars 32))

def ioc (inout num : UInt64) (size : Nat) : UInt64 :=
  inout ||| (UInt64.ofNat size &&& 0x1fff) <<< 16 ||| (0x64 : UInt64) <<< 8 ||| num

def iocOut : UInt64 := 0x40000000
def iocIn : UInt64 := 0x80000000

def iowr (num : UInt64) (size : Nat) : UInt64 :=
  ioc (iocIn ||| iocOut) num size

def iow (num : UInt64) (size : Nat) : UInt64 :=
  ioc iocIn num size

variable (h : Header)

def command : Data → UInt64
  | .version _ => iowr 0x00 h.version.size
  | .gemClose _ => iow 0x09 h.gemClose.size
  | .getResources _ => iowr 0xA0 h.cardRes.size
  | .getCrtc _ => iowr 0xA1 h.crtc.size
  | .setCrtc _ => iowr 0xA2 h.crtc.size
  | .getEncoder _ => iowr 0xA6 h.getEncoder.size
  | .getConnector _ => iowr 0xA7 h.getConnector.size
  | .addFb _ => iowr 0xAE h.fbCmd.size
  | .createDumb _ => iowr 0xB2 h.createDumb.size
  | .mapDumb _ => iowr 0xB3 h.mapDumb.size
  | .destroyDumb _ => iowr 0xB4 h.destroyDumb.size
  | .other cmd => cmd

def body (junk : Nat → UInt8) : Data → List UInt8
  | .version v => h.version.encode junk v
  | .gemClose req => h.gemClose.encode junk req
  | .getResources res => h.cardRes.encode junk res
  | .getCrtc crtc | .setCrtc crtc => h.crtc.encode junk crtc
  | .getEncoder enc => h.getEncoder.encode junk enc
  | .getConnector conn => h.getConnector.encode junk conn
  | .addFb fb => h.fbCmd.encode junk fb
  | .createDumb req => h.createDumb.encode junk req
  | .mapDumb req => h.mapDumb.encode junk req
  | .destroyDumb req => h.destroyDumb.encode junk req
  | .other _ => []

/-- The argument of the same command with other bytes. -/
def reread : Data → List UInt8 → Data
  | .version _, bytes => .version (h.version.decode bytes)
  | .gemClose _, bytes => .gemClose (h.gemClose.decode bytes)
  | .getResources _, bytes => .getResources (h.cardRes.decode bytes)
  | .getCrtc _, bytes => .getCrtc (h.crtc.decode bytes)
  | .setCrtc _, bytes => .setCrtc (h.crtc.decode bytes)
  | .getEncoder _, bytes => .getEncoder (h.getEncoder.decode bytes)
  | .getConnector _, bytes => .getConnector (h.getConnector.decode bytes)
  | .addFb _, bytes => .addFb (h.fbCmd.decode bytes)
  | .createDumb _, bytes => .createDumb (h.createDumb.decode bytes)
  | .mapDumb _, bytes => .mapDumb (h.mapDumb.decode bytes)
  | .destroyDumb _, bytes => .destroyDumb (h.destroyDumb.decode bytes)
  | .other cmd, _ => .other cmd

/-- The cases of the switch in `drm_ioctl`. -/
def cases : List (UInt64 × (List UInt8 → Data)) :=
  [(iowr 0x00 h.version.size, fun b => .version (h.version.decode b)),
    (iowr 0xA0 h.cardRes.size, fun b => .getResources (h.cardRes.decode b)),
    (iowr 0xA7 h.getConnector.size, fun b => .getConnector (h.getConnector.decode b)),
    (iowr 0xA6 h.getEncoder.size, fun b => .getEncoder (h.getEncoder.decode b)),
    (iowr 0xA1 h.crtc.size, fun b => .getCrtc (h.crtc.decode b)),
    (iowr 0xA2 h.crtc.size, fun b => .setCrtc (h.crtc.decode b)),
    (iowr 0xAE h.fbCmd.size, fun b => .addFb (h.fbCmd.decode b)),
    (iowr 0xB2 h.createDumb.size, fun b => .createDumb (h.createDumb.decode b)),
    (iowr 0xB3 h.mapDumb.size, fun b => .mapDumb (h.mapDumb.decode b)),
    (iowr 0xB4 h.destroyDumb.size, fun b => .destroyDumb (h.destroyDumb.decode b)),
    (iow 0x09 h.gemClose.size, fun b => .gemClose (h.gemClose.decode b))]

/-- What the switch makes of a command and its bytes. -/
def parse (cmd : UInt64) (bytes : List UInt8) : Data :=
  match (cases h).lookup cmd with
  | some read => read bytes
  | none => .other cmd

/-- What the structures can hold. -/
def Fits : Data → Prop
  | .version v => h.version.Fits v
  | .getCrtc crtc | .setCrtc crtc => h.crtc.Fits crtc
  | .other cmd => (cases h).lookup cmd = none
  | _ => True

def drmModeModeInfo : Codec DrmModeInfo :=
  asModeInfo (((u32.member (u16.array 10)).member (u32.array 3)).member (chars 32))

/-- A mode that the kext copies out is read as a `drmModeModeInfo`. -/
def readCopyout : Copyout → Copyout
  | .mode dst m => .mode dst (drmModeModeInfo.decode (kext.modeInfo.encode (fun _ => 0) m))
  | out => out

/-- The call as its handler gets it, with what is in the gaps of the argument. -/
def copyin (junk : Nat → UInt8) (c : Call) : Call :=
  { c with data := parse kext (command library c.data) (body library junk c.data) }

/-- The reply as the process gets it: the argument is copied out over its own bytes. -/
def copyback (junk : Nat → UInt8) (c : Call) (r : Reply) : Reply :=
  let sent := body library junk c.data
  let back :=
    if r.errno = .success ∧ command library c.data &&& iocOut ≠ 0 then
      body kext (fun i => sent.getD i 0) r.data
    else sent
  { r with data := reread library c.data back, copyouts := r.copyouts.map readCopyout }

/-- `ioctl` of a process. -/
def ioctl (junk : Nat → UInt8) (s : IODRMShim) (c : Call) : IODRMShim × Reply :=
  ((s.drmIoctl (copyin junk c)).1, copyback junk c (s.drmIoctl (copyin junk c)).2)

/-! Nothing is lost. -/

variable {d : Data}

theorem parse_command (fits : Fits library d) (bytes : List UInt8) :
    parse kext (command library d) bytes = reread library d bytes := by
  cases d with
  | other cmd =>
      have unknown : (cases kext).lookup cmd = none := fits
      rw [command, parse, unknown, reread]
  | _ => rfl

theorem reread_body (junk : Nat → UInt8) (fits : Fits library d) :
    reread library d (body library junk d) = d := by
  have back {α : Type} (c : Codec α) {a : α} (ok : c.Fits a) :
      c.decode (c.encode junk a) = a := by
    rw [← List.append_nil (c.encode junk a), c.decode_encode junk a [] ok]
  cases d with
  | version v => exact congrArg Data.version (back library.version fits)
  | getCrtc crtc => exact congrArg Data.getCrtc (back library.crtc fits)
  | setCrtc req => exact congrArg Data.setCrtc (back library.crtc fits)
  | getResources res =>
      exact congrArg Data.getResources
        (back library.cardRes ⟨fun _ => u64_fits _, fun _ => u32_fits _⟩)
  | getConnector conn =>
      exact congrArg Data.getConnector
        (back library.getConnector ⟨fun _ => u64_fits _, fun _ => u32_fits _⟩)
  | getEncoder enc => exact congrArg Data.getEncoder (back library.getEncoder fun _ => u32_fits _)
  | addFb fb => exact congrArg Data.addFb (back library.fbCmd fun _ => u32_fits _)
  | createDumb req =>
      exact congrArg Data.createDumb (back library.createDumb ⟨fun _ => u32_fits _, u64_fits _⟩)
  | mapDumb req =>
      exact congrArg Data.mapDumb (back library.mapDumb ⟨⟨u32_fits _, u32_fits _⟩, u64_fits _⟩)
  | destroyDumb req => exact congrArg Data.destroyDumb (back library.destroyDumb (u32_fits _))
  | gemClose req => exact congrArg Data.gemClose (back library.gemClose ⟨u32_fits _, u32_fits _⟩)
  | other cmd => rfl

/-- What the argument of a reply has to do with that of its call. -/
structure Answers (d d' : Data) (errno : Errno) : Prop where
  same : ∀ bytes, reread library d' bytes = reread library d bytes
  fits : Fits library d → Fits library d'
  failed : errno ≠ .success ∨ command library d &&& iocOut = 0 → d' = d

theorem answers_refl (d : Data) (errno : Errno) : Answers d d errno :=
  ⟨fun _ => rfl, id, fun _ => rfl⟩

/-- A handler that returned 0, with a command that is copied out. -/
theorem answers_success {d d' : Data} (out : command library d &&& iocOut ≠ 0)
    (same : ∀ bytes, reread library d' bytes = reread library d bytes)
    (fits : Fits library d → Fits library d') :
    Answers d d' .success :=
  ⟨same, fits, fun broken => broken.elim (fun bad => absurd rfl bad) fun none => absurd none out⟩

theorem version_answers (v : DrmVersion) : Answers (.version v) (ioctlVersion v).data .success := by
  have out : iowr 0x00 library.version.size &&& iocOut ≠ 0 := by decide
  refine answers_success out (fun _ => rfl) fun _ => ⟨?_, fun _ => u64_fits _⟩
  change ∀ i : Fin 3, -2 ^ 31 ≤ (![1, 0, 0] : Fin 3 → Int) i ∧
    (![1, 0, 0] : Fin 3 → Int) i < 2 ^ 31
  decide

/-- The name of the mode is that of the request. -/
theorem getCrtc_answers (s : IODRMShim) (crtc : DrmModeCrtc) :
    Answers (.getCrtc crtc) (s.ioctlGetcrtc crtc).data .success := by
  have out : iowr 0xA1 library.crtc.size &&& iocOut ≠ 0 := by decide
  refine answers_success out (fun _ => rfl) fun fits => ⟨⟨u64_fits _, fun _ => u32_fits _⟩, ?_⟩
  exact ⟨⟨⟨u32_fits _, fun _ => u16_fits _⟩, fun _ => u32_fits _⟩, fits.2.2⟩

theorem setCrtc_answers (s : IODRMShim) (req : DrmModeCrtc) (surface : Option DisplaySurface) :
    (s.ioctlSetcrtc req surface).2.data = .setCrtc req := by
  unfold ioctlSetcrtc
  split
  · rfl
  · split
    · rfl
    · dsimp only
      split <;> rfl

theorem createDumb_answers (s : IODRMShim) (req : DrmModeCreateDumb) (mem : Option Mapping) :
    Answers (.createDumb req) (s.ioctlCreateDumb req mem).2.data
      (s.ioctlCreateDumb req mem).2.errno := by
  have out : iowr 0xB2 library.createDumb.size &&& iocOut ≠ 0 := by decide
  unfold ioctlCreateDumb
  dsimp only
  split
  · exact answers_refl _ _
  · cases mem with
    | none => exact answers_refl _ _
    | some m => exact answers_success out (fun _ => by rw [reread, reread]) fun _ => trivial

theorem mapDumb_answers (s : IODRMShim) (req : DrmModeMapDumb) :
    Answers (.mapDumb req) (s.ioctlMapDumb req).data (s.ioctlMapDumb req).errno := by
  have out : iowr 0xB3 library.mapDumb.size &&& iocOut ≠ 0 := by decide
  unfold ioctlMapDumb
  split
  · exact answers_refl _ _
  · exact answers_success out (fun _ => by rw [reread, reread]) fun _ => trivial

theorem getConnector_answers (s : IODRMShim) (conn : DrmModeGetConnector) :
    Answers (.getConnector conn) (s.ioctlGetconnector conn).data
      (s.ioctlGetconnector conn).errno := by
  have out : iowr 0xA7 library.getConnector.size &&& iocOut ≠ 0 := by decide
  unfold ioctlGetconnector
  dsimp only
  split <;> exact answers_success out (fun _ => rfl) fun _ => trivial

theorem drmIoctl_answers (s : IODRMShim) (c : Call) :
    Answers c.data (s.drmIoctl c).2.data (s.drmIoctl c).2.errno := by
  unfold IODRMShim.drmIoctl
  split
  · exact answers_refl c.data _
  · cases c.data with
    | version v => exact version_answers v
    | getCrtc crtc => exact getCrtc_answers s crtc
    | setCrtc req =>
        have same := setCrtc_answers s req c.surface
        dsimp only
        rw [same]
        exact answers_refl _ _
    | createDumb req =>
        dsimp only
        exact createDumb_answers s req c.mem
    | mapDumb req =>
        dsimp only
        exact mapDumb_answers s req
    | getConnector conn => exact getConnector_answers s conn
    | getResources res =>
        have out : iowr 0xA0 library.cardRes.size &&& iocOut ≠ 0 := by decide
        exact answers_success out (fun _ => rfl) fun _ => trivial
    | getEncoder enc =>
        have out : iowr 0xA6 library.getEncoder.size &&& iocOut ≠ 0 := by decide
        exact answers_success out (fun _ => rfl) fun _ => trivial
    | addFb fb =>
        have out : iowr 0xAE library.fbCmd.size &&& iocOut ≠ 0 := by decide
        exact answers_success out (fun _ => rfl) fun _ => trivial
    | destroyDumb _ | gemClose _ | other _ => exact answers_refl _ _

/-! The mode that is copied out. -/

/-- A number of 32 bits has at most ten digits. -/
theorem toString_fits (n : UInt32) :
    (toString n).length ≤ 10 ∧ ∀ c ∈ (toString n).toList, 0 < c.toNat ∧ c.toNat < 256 := by
  change n.toNat.repr.length ≤ 10 ∧ ∀ c ∈ n.toNat.repr.toList, 0 < c.toNat ∧ c.toNat < 256
  refine ⟨(Nat.length_repr_le_iff (by decide)).mpr ?_, ?_⟩
  · exact n.toNat_lt.trans (by decide)
  · intro c inside
    rw [Nat.toList_repr] at inside
    have digit := Nat.isDigit_of_mem_toDigits (by decide) (by decide) inside
    obtain ⟨low, high⟩ := Char.isDigit_iff_toNat.mp digit
    have nine : '9'.toNat < 256 := by decide
    have zero : 0 < '0'.toNat := by decide
    exact ⟨zero.trans_le low, high.trans_lt nine⟩

theorem nativeMode_fits (s : IODRMShim) : drmModeModeInfo.Fits s.nativeMode := by
  refine ⟨⟨⟨u32_fits _, fun _ => u16_fits _⟩, fun _ => u32_fits _⟩, ?_⟩
  change (toString s.fDisplayWidth ++ "x" ++ toString s.fDisplayHeight).length < 32 ∧
    ∀ c ∈ (toString s.fDisplayWidth ++ "x" ++ toString s.fDisplayHeight).toList,
      0 < c.toNat ∧ c.toNat < 256
  obtain ⟨short, text⟩ := toString_fits s.fDisplayWidth
  obtain ⟨short', text'⟩ := toString_fits s.fDisplayHeight
  constructor
  · have one : "x".length = 1 := rfl
    rw [String.length_append, String.length_append]
    omega
  · intro c inside
    rw [String.toList_append, String.toList_append, List.append_assoc] at inside
    rcases List.mem_append.mp inside with first | rest
    · exact text c first
    · rcases List.mem_cons.mp rest with rfl | last
      · decide
      · exact text' c last

theorem readCopyout_mode (s : IODRMShim) (dst : UInt64) :
    readCopyout (.mode dst s.nativeMode) = .mode dst s.nativeMode := by
  have back := drmModeModeInfo.decode_encode (fun _ => 0) s.nativeMode [] (nativeMode_fits s)
  rw [List.append_nil] at back
  exact congrArg (Copyout.mode dst) back

theorem eq_of_mem_ite {asked : Prop} [Decidable asked] {out here : Copyout}
    (copied : out ∈ if asked then [here] else []) : out = here := by
  split at copied
  · exact List.mem_singleton.mp copied
  · cases copied

/-- Only `ioctl_getconnector` copies a mode out. -/
theorem readCopyout_drmIoctl (s : IODRMShim) (c : Call) :
    ∀ out ∈ (s.drmIoctl c).2.copyouts, readCopyout out = out := by
  unfold IODRMShim.drmIoctl
  split
  · nofun
  · cases c.data with
    | version v =>
        intro out copied
        rcases List.mem_append.mp copied with name | desc
        · rw [eq_of_mem_ite name]
          rfl
        · rw [eq_of_mem_ite desc]
          rfl
    | getResources res =>
        intro out copied
        rcases List.mem_append.mp copied with front | encoders
        · rcases List.mem_append.mp front with crtcs | connectors
          · rw [eq_of_mem_ite crtcs]
            rfl
          · rw [eq_of_mem_ite connectors]
            rfl
        · rw [eq_of_mem_ite encoders]
          rfl
    | getConnector conn =>
        dsimp only [ioctlGetconnector]
        split
        · nofun
        · intro out copied
          rw [List.mem_singleton.mp copied]
          exact readCopyout_mode s conn.modesPtr
    | setCrtc req =>
        dsimp only [ioctlSetcrtc]
        split
        · nofun
        · split
          · nofun
          · split <;> nofun
    | createDumb req =>
        dsimp only [ioctlCreateDumb]
        split
        · nofun
        · cases c.mem <;> nofun
    | mapDumb req =>
        dsimp only [ioctlMapDumb]
        split <;> nofun
    | getEncoder _ | getCrtc _ | addFb _ | destroyDumb _ | gemClose _ | other _ => nofun

theorem body_kext (junk : Nat → UInt8) (d : Data) : body kext junk d = body library junk d := by
  cases d <;> rfl

theorem copyin_eq (junk : Nat → UInt8) {c : Call} (fits : Fits library c.data) :
    copyin junk c = c := by
  have sent : parse kext (command library c.data) (body library junk c.data) = c.data := by
    rw [parse_command fits, reread_body junk fits]
  rw [copyin, sent]

/-- Byte by byte, an ioctl is the call. -/
theorem ioctl_eq (junk : Nat → UInt8) (s : IODRMShim) (c : Call) (fits : Fits library c.data) :
    ioctl junk s c = s.drmIoctl c := by
  obtain ⟨same, fits', failed⟩ := drmIoctl_answers s c
  have copied : (s.drmIoctl c).2.copyouts.map readCopyout = (s.drmIoctl c).2.copyouts :=
    (List.map_congr_left (readCopyout_drmIoctl s c)).trans (List.map_id _)
  have back : reread library c.data
      (if (s.drmIoctl c).2.errno = .success ∧ command library c.data &&& iocOut ≠ 0 then
        body kext (fun i => (body library junk c.data).getD i 0) (s.drmIoctl c).2.data
      else body library junk c.data) = (s.drmIoctl c).2.data := by
    split
    · rw [body_kext, ← same, reread_body _ (fits' fits)]
    · rename_i uncopied
      rw [reread_body junk fits, failed]
      exact (Decidable.not_and_iff_or_not.mp uncopied).imp_right not_not.mp
  unfold ioctl copyback
  rw [copyin_eq junk fits]
  simp only [copied, back]

/-! The clients over bytes. -/

/-- What the arguments of a call can hold: the numbers of a version are an `int`, the name of
a mode is a string of less than 32 characters. -/
def Passes : Api → Prop
  | .getVersion ver => library.version.Fits ver
  | .setCrtc _ _ _ _ _ _ mode _ => ∀ m, mode = some m → library.modeInfo.Fits m
  | _ => True

theorem fits_ioctlCode {c : Call} (fits : Fits library c.data) :
    (ioctlCode c).Asks fun c => Fits library c.data :=
  ⟨fits, fun _ => trivial⟩

/-- The mode that a client leaves blank. -/
theorem noMode_fits : library.modeInfo.Fits {} :=
  ⟨⟨⟨u32_fits _, fun _ => u16_fits _⟩, fun _ => u32_fits _⟩, by decide, nofun⟩

/-- The library asks only what the structures can hold. -/
theorem program_asks {op : Api} (passes : Passes op) :
    (program op).Asks fun c => Fits library c.data := by
  cases op with
  | getVersion ver =>
      refine ⟨passes, fun r => ?_⟩
      dsimp only
      split <;> trivial
  | getCap capability =>
      dsimp only [program, drmGetCap]
      repeat' split
      all_goals trivial
  | createDumbBuffer _ _ _ _ _ | mapDumbBuffer _ | addFb _ _ _ _ _ _ =>
      exact ⟨trivial, fun _ => trivial⟩
  | destroyDumbBuffer _ | closeBufferHandle _ => exact fits_ioctlCode trivial
  | primeHandleToFd _ _ | primeFdToHandle _ | rmFb _ => exact fits_ioctlCode rfl
  | getResources at' =>
      refine ⟨trivial, fun r => ?_⟩
      dsimp only
      split
      · exact ⟨trivial, fun _ => trivial⟩
      · trivial
  | getConnector id addr =>
      refine ⟨trivial, fun r => ?_⟩
      dsimp only
      split
      · split
        · refine ⟨trivial, fun r' => ?_⟩
          dsimp only
          split <;> trivial
        · trivial
      · trivial
  | getEncoder id =>
      refine ⟨trivial, fun r => ?_⟩
      dsimp only
      split <;> trivial
  | getCrtc id =>
      refine ⟨⟨⟨u64_fits _, fun _ => u32_fits _⟩, noMode_fits⟩, fun r => ?_⟩
      dsimp only
      split <;> trivial
  | setCrtc crtcId fbId x y connectors count mode surface =>
      refine fits_ioctlCode ⟨⟨u64_fits _, fun _ => u32_fits _⟩, ?_⟩
      cases mode with
      | none => exact noMode_fits
      | some m => exact passes m rfl

/-- A call whose arguments pass. -/
abbrev PassedApi : Type := { op : Api // Passes op }

/-- The store, called with arguments that pass. -/
def respond (st : Store) (op : PassedApi) : Store × Returned :=
  st.respond op.val

/-- Over bytes too, each function comes down to one change of the store. -/
theorem atomic_bytes (junk : IODRMShim → Call → Nat → UInt8) (width height : UInt32)
    (op : PassedApi) :
    (program op.val).Atomic (fun s c => ioctl (junk s c) s c) (Kept width height) storeOf respond
      op := by
  have single := single_program op.val width height
  exact (single.of_asks (fun s c fits => ioctl_eq (junk s c) s c fits)
    (program_asks op.property)).rename

theorem kept_ioctl {junk : Nat → UInt8} {width height : UInt32} (s : IODRMShim) (c : Call)
    (kept : Kept width height s) : Kept width height (ioctl junk s c).1 :=
  kept.drmIoctl s (copyin junk c)

theorem kept_start (p : Provider) :
    Kept (IODRMShim.start p).fDisplayWidth (IODRMShim.start p).fDisplayHeight
      (IODRMShim.start p) :=
  ⟨tableExact_start p, rfl, rfl⟩

/-- For every run of any number of clients whose ioctls go through the kernel as command
numbers and bytes, whatever is in the gaps of the structures: what they see is linearized by
a log of calls on the store, and the kext stands for the store that these leave. -/
theorem clients_linearize_bytes (junk : IODRMShim → Call → Nat → UInt8) (p : Provider)
    {as : List (Dialogues.Action PassedApi)}
    {k : Sessions IODRMShim Call Reply PassedApi Returned}
    (ran : Runs.run
      (Sessions.step (fun s c => ioctl (junk s c) s c) fun op : PassedApi => program op.val)
      { server := IODRMShim.start p } as = some k) :
    ∃ log, Linearizes respond (storeOf (IODRMShim.start p)) k.history log ∧
      storeOf k.server = replay respond (storeOf (IODRMShim.start p)) log :=
  Sessions.linearize (fun s c => kept_ioctl s c) (fun op => atomic_bytes junk _ _ op)
    (kept_start p) ran

/-- A client closes a handle while another one asks for the mode. -/
def twoClientsOfBytes : List (Dialogues.Action PassedApi) :=
  [.call 0 ⟨.getConnector 1 4096, trivial⟩, .ask 0, .call 1 ⟨.closeBufferHandle 1, trivial⟩,
    .ask 1, .ask 0, .ret 1, .ret 0]

theorem clients_linearize_bytes_two_clients :
    ∃ k : Sessions IODRMShim Call Reply PassedApi Returned,
      Runs.run (Sessions.step (fun s c => ioctl (fun _ => 0xAA) s c)
        fun op : PassedApi => program op.val) { server := IODRMShim.start ⟨false, none⟩ }
          twoClientsOfBytes = some k ∧ k.history.length = 4 ∧
      ∃ log, Linearizes respond (storeOf (IODRMShim.start ⟨false, none⟩)) k.history log := by
  have ends : (Runs.run (Sessions.step (fun s c => ioctl (fun _ => 0xAA) s c)
      fun op : PassedApi => program op.val) { server := IODRMShim.start ⟨false, none⟩ }
        twoClientsOfBytes).map (fun k => k.history.length) = some 4 := rfl
  obtain ⟨k, ran, four⟩ := Option.map_eq_some_iff.mp ends
  exact ⟨k, ran, four,
    (clients_linearize_bytes (fun _ _ _ => 0xAA) ⟨false, none⟩ ran).imp fun _ => And.left⟩

end LunaOS.Drm.Wire
