import LunaOS.Drm.Refinement
import LunaOS.Lib.Layers

/-!
The kext as its threads run it. `IODRMShim` takes an ioctl for one step; here the
handlers of `IODRMShim.cpp` run a few instructions at a time, any number of threads
interleave, and `fLock` is all that keeps them apart. A handler that takes the lock
holds it from its first access to the table to its last, while GETCRTC reads
`fCurrentFbId` without it. Each handler changes what others can see of it at one
point, so every such run is linearized by a sequential one, and what holds of those
holds of the kext whenever nobody is in a handler.

A word is read and written at once. `fCurrentFbId` is the only one that is read without the
lock while another thread may write it, so smaller pieces would show no thread anything
more. `start` and `stop` run alone.
-/
namespace LunaOS.Drm
open Linearize

namespace IODRMShim

/-- The handlers that take `fLock`; SETCRTC returns before it for the framebuffer 0. -/
def takesLock : Data → Bool
  | .createDumb _ | .mapDumb _ | .destroyDumb _ | .gemClose _ => true
  | .setCrtc req => req.fbId ≠ 0
  | _ => false

/-- How far a handler that holds the lock is. -/
inductive Point where
  | entry
  | allocated (handle : UInt32)
  | filled (handle : UInt32)
  | found (i : Fin maxDumbBOs)
  | copied (rows : Option (List RowCopy))
  | dropped (i : Fin maxDumbBOs)
  | exit (r : Reply)

def setcrtcReply (req : DrmModeCrtc) : Option (List RowCopy) → Reply
  | some rows => { errno := .success, data := .setCrtc req, rows := rows }
  | none => { errno := .eio, data := .setCrtc req }

/-- The descriptor of the slot `i` is released and its pointer cleared. -/
def dropMem (s : IODRMShim) (i : Fin maxDumbBOs) : IODRMShim :=
  match (s.fBOs i).mem with
  | some d => { s.setBO i { s.fBOs i with mem := none } with ledger := s.ledger.release d }
  | none => s

/-- `ioctl_gem_close`, piece by piece. -/
def advanceClose (s : IODRMShim) (handle : UInt32) (r : Reply) :
    Point → Option (IODRMShim × Point)
  | .entry =>
      match s.findBO handle with
      | some i => some (s, .found i)
      | none => some (s, .exit r)
  | .found i => some (s.dropMem i, .dropped i)
  | .dropped i => some (s.setBO i { s.fBOs i with inUse := false }, .exit r)
  | _ => none

/-- `ioctl_create_dumb`, piece by piece. -/
def advanceCreate (s : IODRMShim) (req : DrmModeCreateDumb) (mem : Option Mapping) :
    Point → Option (IODRMShim × Point)
  | .entry =>
      if s.allocHandle = 0 then some (s, .exit { errno := .enomem, data := .createDumb req })
      else some (s, .allocated s.allocHandle)
  | .allocated handle =>
      some (s.setBO (slot handle) (fillBO (s.fBOs (slot handle)) handle req), .filled handle)
  | .filled handle =>
      let bo := s.fBOs (slot handle)
      match mem with
      | none =>
          some (s.setBO (slot handle) { bo with mem := none, inUse := false },
            .exit { errno := .enomem, data := .createDumb req })
      | some m =>
          some ({ s.setBO (slot handle)
              { bo with
                mem := some s.ledger.allocated
                virtAddr := m.virtAddr
                physAddr := m.physAddr } with
              ledger := s.ledger.acquire },
            .exit
              { errno := .success
                data := .createDumb
                  { req with handle := handle, pitch := bo.pitch, size := bo.size } })
  | _ => none

/-- `ioctl_setcrtc`, piece by piece. -/
def advanceSet (s : IODRMShim) (req : DrmModeCrtc) (surface : Option DisplaySurface) :
    Point → Option (IODRMShim × Point)
  | .entry =>
      match s.findBO req.fbId with
      | some i => some (s, .found i)
      | none => some (s, .exit { errno := .einval, data := .setCrtc req })
  | .found i => some (s, .copied (s.blitToDisplay (s.fBOs i) surface))
  | .copied rows => some ({ s with fCurrentFbId := req.fbId }, .exit (setcrtcReply req rows))
  | _ => none

/-- The next piece of a handler that holds the lock. -/
def advance (s : IODRMShim) (c : Call) (pt : Point) : Option (IODRMShim × Point) :=
  match c.data with
  | .createDumb req => s.advanceCreate req c.mem pt
  | .setCrtc req => s.advanceSet req c.surface pt
  | .mapDumb req =>
      match pt with
      | .entry => some (s, .exit (s.ioctlMapDumb req))
      | _ => none
  | .destroyDumb req =>
      s.advanceClose req.handle { errno := .success, data := .destroyDumb req } pt
  | .gemClose req =>
      s.advanceClose req.handle { errno := .success, data := .gemClose req } pt
  | _ => none

/-! What a handler has done by a point. -/

def handleIn : Data → UInt32
  | .setCrtc req => req.fbId
  | .destroyDumb req => req.handle
  | .gemClose req => req.handle
  | _ => 0

/-- The kext when the handler of `c` is at a point, where `s` is what the handler found. -/
def midway (s : IODRMShim) (c : Call) : Point → IODRMShim
  | .filled handle =>
      match c.data with
      | .createDumb req =>
          s.setBO (slot handle) (fillBO (s.fBOs (slot handle)) handle req)
      | _ => s
  | .dropped i => s.dropMem i
  | _ => s

def Knows (s : IODRMShim) (c : Call) : Point → Prop
  | .allocated handle | .filled handle => handle = s.allocHandle ∧ handle ≠ 0
  | .found i | .dropped i => s.findBO (handleIn c.data) = some i
  | .copied rows =>
      ∃ i, s.findBO (handleIn c.data) = some i ∧
        rows = s.blitToDisplay (s.fBOs i) c.surface
  | _ => True

/-- A piece either leaves the call open, or it is the last one and does what the call is
for. -/
inductive Advanced (s : IODRMShim) (c : Call) : IODRMShim × Point → Prop
  | on (pt : Point) (inner : ∀ r, pt ≠ .exit r) (knows : s.Knows c pt) :
      Advanced s c (s.midway c pt, pt)
  | last (s' : IODRMShim) (r : Reply) (done : s.drmIoctl c = (s', r)) :
      Advanced s c (s', .exit r)

variable {s : IODRMShim} {c : Call} {pt : Point} {next : IODRMShim × Point}

@[simp] theorem setBO_setBO (s : IODRMShim) (i : Fin maxDumbBOs) (bo bo' : DumbBO) :
    (s.setBO i bo).setBO i bo' = s.setBO i bo' := by
  simp only [setBO, Function.update_idem]

@[simp] theorem setBO_ledger (s : IODRMShim) (i : Fin maxDumbBOs) (bo : DumbBO) :
    (s.setBO i bo).ledger = s.ledger := rfl

theorem advanceCreate_spec (attached : s.gShim = true) {req : DrmModeCreateDumb}
    {mem : Option Mapping} {surface : Option DisplaySurface}
    (knows : s.Knows ⟨.createDumb req, mem, surface⟩ pt)
    (runs : (s.midway ⟨.createDumb req, mem, surface⟩ pt).advanceCreate req mem pt =
      some next) : s.Advanced ⟨.createDumb req, mem, surface⟩ next := by
  cases pt with
  | entry =>
      replace runs : s.advanceCreate req mem .entry = some next := runs
      rw [advanceCreate] at runs
      by_cases full : s.allocHandle = 0
      · rw [if_pos full] at runs
        obtain rfl := Option.some.inj runs
        refine .last _ _ ?_
        rw [drmIoctl_createDumb attached, ioctlCreateDumb_full full]
      · rw [if_neg full] at runs
        obtain rfl := Option.some.inj runs
        exact .on (.allocated s.allocHandle) (fun _ same => by cases same) ⟨rfl, full⟩
  | allocated handle =>
      replace runs : s.advanceCreate req mem (.allocated handle) = some next := runs
      rw [advanceCreate] at runs
      rw [← Option.some.inj runs]
      exact .on (.filled handle) (fun _ same => by cases same) knows
  | filled handle =>
      have named : handle = s.allocHandle := knows.1
      have room : handle ≠ 0 := knows.2
      have done : s.drmIoctl ⟨.createDumb req, mem, surface⟩ = s.ioctlCreateDumb req mem :=
        drmIoctl_createDumb attached req mem surface
      simp only [ioctlCreateDumb, ← named, room, if_false] at done
      replace runs : (s.setBO (slot handle) (fillBO (s.fBOs (slot handle)) handle
        req)).advanceCreate req mem (.filled handle) = some next := runs
      simp only [advanceCreate, setBO_fBOs, Function.update_self, setBO_setBO,
        setBO_ledger] at runs
      cases mem with
      | none =>
          rw [Option.some.injEq] at runs
          exact runs ▸ .last _ _ done
      | some m =>
          rw [Option.some.injEq] at runs
          exact runs ▸ .last _ _ done
  | found _ | copied _ | dropped _ | exit _ => cases runs

theorem advanceSet_spec (attached : s.gShim = true) {req : DrmModeCrtc}
    (shown : req.fbId ≠ 0) {mem : Option Mapping} {surface : Option DisplaySurface}
    (knows : s.Knows ⟨.setCrtc req, mem, surface⟩ pt)
    (runs : (s.midway ⟨.setCrtc req, mem, surface⟩ pt).advanceSet req surface pt = some next) :
    s.Advanced ⟨.setCrtc req, mem, surface⟩ next := by
  have done : s.drmIoctl ⟨.setCrtc req, mem, surface⟩ = s.ioctlSetcrtc req surface :=
    drmIoctl_setCrtc attached req mem surface
  rw [ioctlSetcrtc, if_neg shown] at done
  cases pt with
  | entry =>
      replace runs : s.advanceSet req surface .entry = some next := runs
      rw [advanceSet] at runs
      cases found : s.findBO req.fbId with
      | none =>
          rw [found] at runs done
          exact Option.some.inj runs ▸ .last _ _ done
      | some i =>
          rw [found] at runs
          exact Option.some.inj runs ▸ .on (.found i) (fun _ same => by cases same) found
  | found i =>
      replace runs : s.advanceSet req surface (.found i) = some next := runs
      rw [advanceSet] at runs
      exact Option.some.inj runs ▸ .on (.copied _) (fun _ same => by cases same) ⟨i, knows, rfl⟩
  | copied rows =>
      obtain ⟨i, found, rfl⟩ := knows
      replace runs : s.advanceSet req surface (.copied _) = some next := runs
      rw [advanceSet] at runs
      rw [show s.findBO req.fbId = some i from found] at done
      refine Option.some.inj runs ▸ .last _ _ ?_
      rw [done]
      cases blit : s.blitToDisplay (s.fBOs i) surface <;> simp [blit, setcrtcReply]
  | allocated _ | filled _ | dropped _ | exit _ => cases runs

/-- The two pieces of a close together. -/
theorem closeBO_dropMem {handle : UInt32} {i : Fin maxDumbBOs}
    (found : s.findBO handle = some i) :
    (s.dropMem i).setBO i { (s.dropMem i).fBOs i with inUse := false } = s.closeBO handle := by
  unfold closeBO dropMem
  rw [found]
  cases held : (s.fBOs i).mem with
  | none => simp [held]
  | some d => simp [held, setBO]

theorem advanceClose_spec {handle : UInt32} {r : Reply} (named : handleIn c.data = handle)
    (close : s.drmIoctl c = (s.closeBO handle, r)) (knows : s.Knows c pt)
    (runs : (s.midway c pt).advanceClose handle r pt = some next) : s.Advanced c next := by
  subst named
  cases pt with
  | entry =>
      replace runs : s.advanceClose (handleIn c.data) r .entry = some next := runs
      rw [advanceClose] at runs
      cases found : s.findBO (handleIn c.data) with
      | none =>
          rw [found] at runs
          rw [closeBO_absent found] at close
          exact Option.some.inj runs ▸ .last _ _ close
      | some i =>
          rw [found] at runs
          exact Option.some.inj runs ▸ .on (.found i) (fun _ same => by cases same) found
  | found i =>
      replace runs : s.advanceClose (handleIn c.data) r (.found i) = some next := runs
      rw [advanceClose] at runs
      exact Option.some.inj runs ▸ .on (.dropped i) (fun _ same => by cases same) knows
  | dropped i =>
      replace runs : (s.dropMem i).advanceClose (handleIn c.data) r (.dropped i) = some next :=
        runs
      rw [advanceClose, closeBO_dropMem knows] at runs
      exact Option.some.inj runs ▸ .last _ _ close
  | allocated _ | filled _ | copied _ | exit _ => cases runs

theorem advance_spec (attached : s.gShim = true) (locks : takesLock c.data = true)
    (knows : s.Knows c pt) (runs : (s.midway c pt).advance c pt = some next) :
    s.Advanced c next := by
  obtain ⟨data, mem, surface⟩ := c
  cases data with
  | createDumb req => exact advanceCreate_spec attached knows runs
  | setCrtc req => exact advanceSet_spec attached (of_decide_eq_true locks) knows runs
  | destroyDumb req =>
      refine advanceClose_spec rfl ?_ knows runs
      rw [drmIoctl, attached]
      rfl
  | gemClose req =>
      refine advanceClose_spec rfl ?_ knows runs
      rw [drmIoctl_gemClose attached, ioctlGemClose]
      rfl
  | mapDumb req =>
      cases pt with
      | entry =>
          replace runs : some (s, Point.exit (s.ioctlMapDumb req)) = some next := runs
          refine Option.some.inj runs ▸ .last _ _ ?_
          rw [drmIoctl, attached]
          rfl
      | allocated _ | filled _ | found _ | copied _ | dropped _ | exit _ => cases runs
  | version _ | getResources _ | getConnector _ | getEncoder _ | getCrtc _ | addFb _
  | other _ => cases locks

/-! What a handler without the lock can see. -/

structure SameView (s s' : IODRMShim) : Prop where
  attached : s'.gShim = s.gShim
  width : s'.fDisplayWidth = s.fDisplayWidth
  height : s'.fDisplayHeight = s.fDisplayHeight
  current : s'.fCurrentFbId = s.fCurrentFbId

theorem midway_sameView (s : IODRMShim) (c : Call) (pt : Point) :
    s.SameView (s.midway c pt) := by
  unfold midway
  split
  · split <;> exact ⟨rfl, rfl, rfl, rfl⟩
  · unfold dropMem
    split <;> exact ⟨rfl, rfl, rfl, rfl⟩
  · exact ⟨rfl, rfl, rfl, rfl⟩

theorem drmIoctl_of_not_takesLock (attached : s.gShim = true)
    (free : takesLock c.data = false) {s' : IODRMShim} (same : s.SameView s') :
    s.drmIoctl c = (s, (s'.drmIoctl c).2) := by
  obtain ⟨data, mem, surface⟩ := c
  have attached' : s'.gShim = true := same.attached.trans attached
  unfold drmIoctl
  rw [attached, attached']
  cases data with
  | version _ | getEncoder _ | addFb _ | other _ => rfl
  | getResources res => simp [ioctlGetresources, same.width, same.height]
  | getConnector conn => simp [ioctlGetconnector, nativeMode, same.width, same.height]
  | getCrtc crtc => simp [ioctlGetcrtc, same.width, same.height, same.current]
  | setCrtc req =>
      have zero : req.fbId = 0 := by simpa [takesLock] using free
      simp [ioctlSetcrtc, zero]
  | createDumb _ | mapDumb _ | destroyDumb _ | gemClose _ => cases free

end IODRMShim

open IODRMShim

/-- Where a thread is in `drm_ioctl`. -/
inductive Phase where
  | idle
  | entered (c : Call)
  | inside (c : Call) (pt : Point)
  | answered (r : Reply)

/-- The kext with its threads. `history` is what they saw; no step reads it. -/
structure Kext where
  shim : IODRMShim
  fLock : Option Nat := none
  phase : Nat → Phase := fun _ => .idle
  history : List (Event Nat Call Reply) := []

namespace Kext

def start (p : Provider) : Kext :=
  { shim := IODRMShim.start p }

def goto (k : Kext) (t : Nat) (ph : Phase) : Kext :=
  { k with phase := Function.update k.phase t ph }

inductive Action where
  | call (t : Nat) (c : Call)
  | run (t : Nat)
  | ret (t : Nat)

/-- The next piece of the thread `t`: it takes the lock, runs on in a handler, gives the
lock back, or runs a handler without a lock. -/
def runThread (k : Kext) (t : Nat) : Option Kext :=
  match k.phase t with
  | .entered c =>
      if takesLock c.data then
        if k.fLock = none then some { k.goto t (.inside c .entry) with fLock := some t }
        else none
      else some (k.goto t (.answered (k.shim.drmIoctl c).2))
  | .inside _ (.exit r) => some { k.goto t (.answered r) with fLock := none }
  | .inside c pt =>
      (k.shim.advance c pt).map fun next =>
        { k.goto t (.inside c next.2) with shim := next.1 }
  | _ => none

def step (k : Kext) : Action → Option Kext
  | .call t c =>
      match k.phase t with
      | .idle => some { k.goto t (.entered c) with history := k.history ++ [.call t c] }
      | _ => none
  | .run t => k.runThread t
  | .ret t =>
      match k.phase t with
      | .answered r => some { k.goto t .idle with history := k.history ++ [.ret t r] }
      | _ => none

/-- The kext as a machine that works on the ioctls of its threads. -/
def machine : Layers.Machine Kext Nat Call Reply where
  enter k t c := k.step (.call t c)
  work k t := k.step (.run t)
  leave k t :=
    match k.phase t with
    | .answered r => (k.step (.ret t)).map fun k' => (k', r)
    | _ => none

theorem runThread_inside {k : Kext} {t : Nat} {c : Call} {pt : Point}
    (here : k.phase t = .inside c pt) (inner : ∀ r, pt ≠ .exit r) :
    k.runThread t = (k.shim.advance c pt).map fun next =>
      { k.goto t (.inside c next.2) with shim := next.1 } := by
  unfold runThread
  rw [here]
  cases pt with
  | exit r => exact absurd rfl (inner r)
  | entry | allocated _ | filled _ | found _ | copied _ | dropped _ => rfl

/-! Every run is linearized. -/

/-- A call takes effect when its handler is done, not when the thread returns. -/
def statusOf : Phase → Status Call Reply
  | .idle => .idle
  | .entered c => .pending c
  | .inside _ (.exit r) => .answered r
  | .inside c _ => .pending c
  | .answered r => .answered r

/-- `s` is the kext that the calls which took effect have left: it is all there where no
thread holds the lock, and else the one that does is at work on it. -/
structure AtWork (k : Kext) (s : IODRMShim) : Prop where
  free : k.fLock = none → k.shim = s
  held : ∀ t, k.fLock = some t → ∃ c pt, k.phase t = .inside c pt
  inside : ∀ t c pt, k.phase t = .inside c pt →
    k.fLock = some t ∧ takesLock c.data = true ∧ s.Knows c pt ∧ k.shim = s.midway c pt

/-- The history so far is explained by the calls that took effect. -/
def Explained (k : Kext) (s : IODRMShim) : Prop :=
  ∃ log, Explains drmIoctl s k.history log (statusOf ∘ k.phase) ∧
    k.AtWork (replay drmIoctl s log)

variable {k k' : Kext} {s : IODRMShim} {t : Nat}

theorem replay_eq_runCalls (s : IODRMShim) (log : List (Entry Nat Call Reply)) :
    replay drmIoctl s log = s.runCalls (log.map (·.op)) := by
  rw [replay, runCalls, List.foldl_map]

/-- Nobody but the holder of the lock is in a handler that takes it. -/
theorem AtWork.alone (work : k.AtWork s) {u : Nat} {c d : Call} {pt qt : Point}
    (here : k.phase t = .inside c pt) (there : k.phase u = .inside d qt) : t = u :=
  Option.some.inj ((work.inside t c pt here).1.symm.trans (work.inside u d qt there).1)

/-- What can be read without the lock is what the calls that took effect have left. -/
theorem AtWork.sameView (work : k.AtWork s) : s.SameView k.shim := by
  cases holder : k.fLock with
  | none =>
      rw [work.free holder]
      exact ⟨rfl, rfl, rfl, rfl⟩
  | some t =>
      obtain ⟨c, pt, here⟩ := work.held t holder
      rw [(work.inside t c pt here).2.2.2]
      exact s.midway_sameView c pt

/-- A thread outside of the handlers that stays outside leaves the work as it is. -/
theorem AtWork.goto_outside (work : k.AtWork s) {ph : Phase}
    (was : ∀ c pt, k.phase t ≠ .inside c pt) (is : ∀ c pt, ph ≠ .inside c pt)
    (h : List (Event Nat Call Reply)) : ({ k.goto t ph with history := h } : Kext).AtWork s where
  free := work.free
  held u holder := by
    obtain ⟨c, pt, here⟩ := work.held u holder
    have other : u ≠ t := by
      rintro rfl
      exact was c pt here
    exact ⟨c, pt, (Function.update_of_ne other _ _).trans here⟩
  inside u c pt here := by
    replace here : Function.update k.phase t ph u = .inside c pt := here
    by_cases mine : u = t
    · rw [mine, Function.update_self] at here
      exact absurd here (is c pt)
    · rw [Function.update_of_ne mine] at here
      exact work.inside u c pt here

/-- The holder of the lock goes on to another point. -/
theorem AtWork.goto_inside {shim : IODRMShim} {c : Call} {pt : Point}
    (alone : ∀ u d qt, k.phase u = .inside d qt → u = t) (locks : takesLock c.data = true)
    (knows : s.Knows c pt) (is : shim = s.midway c pt) :
    ({ k.goto t (.inside c pt) with shim := shim, fLock := some t } : Kext).AtWork s where
  free := nofun
  held u holder := by
    obtain rfl := Option.some.inj holder
    exact ⟨c, pt, Function.update_self t _ k.phase⟩
  inside u d qt here := by
    replace here : Function.update k.phase t (.inside c pt) u = .inside d qt := here
    by_cases mine : u = t
    · rw [mine, Function.update_self] at here
      obtain ⟨rfl, rfl⟩ := Phase.inside.inj here
      exact ⟨mine ▸ rfl, locks, knows, is⟩
    · rw [Function.update_of_ne mine] at here
      exact absurd (alone u d qt here) mine

/-- With the lock nobody is left in a handler. -/
theorem AtWork.goto_unlocked {ph : Phase}
    (alone : ∀ u d qt, k.phase u = .inside d qt → u = t) (is : ∀ c pt, ph ≠ .inside c pt)
    (done : k.shim = s) : ({ k.goto t ph with fLock := none } : Kext).AtWork s where
  free _ := done
  held := nofun
  inside u d qt here := by
    replace here : Function.update k.phase t ph u = .inside d qt := here
    by_cases mine : u = t
    · rw [mine, Function.update_self] at here
      exact absurd here (is d qt)
    · rw [Function.update_of_ne mine] at here
      exact absurd (alone u d qt here) mine

theorem answered_ne_inside (r : Reply) (c : Call) (pt : Point) :
    Phase.answered r ≠ .inside c pt := by
  intro same
  cases same

theorem statusOf_goto (k : Kext) (t : Nat) (ph : Phase) :
    statusOf ∘ (k.goto t ph).phase =
      Function.update (statusOf ∘ k.phase) t (statusOf ph) :=
  Function.comp_update statusOf k.phase t ph

/-- A piece that nobody sees from outside. -/
theorem statusOf_goto_same (ph : Phase) (same : statusOf ph = statusOf (k.phase t)) :
    statusOf ∘ (k.goto t ph).phase = statusOf ∘ k.phase := by
  rw [statusOf_goto, same]
  exact Function.update_eq_self t (statusOf ∘ k.phase)

theorem statusOf_inside {c : Call} {pt : Point} (inner : ∀ r, pt ≠ .exit r) :
    statusOf (.inside c pt) = .pending c := by
  cases pt with
  | exit r => exact absurd rfl (inner r)
  | entry | allocated _ | filled _ | found _ | copied _ | dropped _ => rfl

/-- The sequential kext that the threads' kext stands for. -/
structure Stands (k : Kext) (s : IODRMShim) (status : Nat → Status Call Reply) : Prop where
  status : status = statusOf ∘ k.phase
  work : k.AtWork s
  table : s.TableExact

/-- What a piece of a thread is for the sequential kext: nothing, or an ioctl. -/
def Works (k' : Kext) (s : IODRMShim) (status : Nat → Status Call Reply) : Prop :=
  k'.Stands s status ∨ ∃ t c, status t = .pending c ∧
    k'.Stands (s.drmIoctl c).1 (Function.update status t (.answered (s.drmIoctl c).2))

section
variable {status : Nat → Status Call Reply}

/-- A handler without the lock takes effect and answers at once. -/
theorem run_unlocked (stands : k.Stands s status) {c : Call} (here : k.phase t = .entered c)
    (free : takesLock c.data = false) :
    (k.goto t (.answered (k.shim.drmIoctl c).2)).Works s status := by
  have effect := drmIoctl_of_not_takesLock stands.table.attached free stands.work.sameView
  have pending : status t = .pending c := by
    rw [stands.status]
    exact congrArg statusOf here
  refine Or.inr ⟨t, c, pending, ?_, ?_, stands.table.drmIoctl c⟩
  · rw [effect, stands.status, statusOf_goto]
    rfl
  · rw [effect]
    refine stands.work.goto_outside ?_ (answered_ne_inside _) k.history
    intro d pt there
    rw [here] at there
    cases there

theorem run_lock (stands : k.Stands s status) {c : Call} (here : k.phase t = .entered c)
    (locks : takesLock c.data = true) (free : k.fLock = none) :
    ({ k.goto t (.inside c .entry) with fLock := some t } : Kext).Works s status := by
  refine Or.inl ⟨?_, ?_, stands.table⟩
  · change status = statusOf ∘ (k.goto t (.inside c .entry)).phase
    rw [statusOf_goto_same (.inside c .entry) (congrArg statusOf here).symm]
    exact stands.status
  · refine AtWork.goto_inside ?_ locks trivial (stands.work.free free)
    intro u d qt there
    have taken := (stands.work.inside u d qt there).1
    rw [free] at taken
    cases taken

theorem run_unlock (stands : k.Stands s status) {c : Call} {r : Reply}
    (here : k.phase t = .inside c (.exit r)) :
    ({ k.goto t (.answered r) with fLock := none } : Kext).Works s status := by
  refine Or.inl ⟨?_, ?_, stands.table⟩
  · change status = statusOf ∘ (k.goto t (.answered r)).phase
    rw [statusOf_goto_same (.answered r) (congrArg statusOf here).symm]
    exact stands.status
  · refine AtWork.goto_unlocked ?_ (answered_ne_inside r) (stands.work.inside t c _ here).2.2.2
    intro u d qt there
    exact stands.work.alone there here

theorem run_inside (stands : k.Stands s status) {c : Call} {pt : Point}
    (here : k.phase t = .inside c pt) (inner : ∀ r, pt ≠ .exit r) {next : IODRMShim × Point}
    (runs : k.shim.advance c pt = some next) :
    ({ k.goto t (.inside c next.2) with shim := next.1 } : Kext).Works s status := by
  obtain ⟨holder, locks, knows, is⟩ := stands.work.inside t c pt here
  have alone (u : Nat) (d : Call) (qt : Point) (there : k.phase u = .inside d qt) : u = t :=
    stands.work.alone there here
  have pending : statusOf (k.phase t) = .pending c :=
    (congrArg statusOf here).trans (statusOf_inside inner)
  rw [is] at runs
  cases advance_spec stands.table.attached locks knows runs with
  | on qt inner' knows' =>
      refine Or.inl ⟨?_, ?_, stands.table⟩
      · have same : statusOf (.inside c qt) = statusOf (k.phase t) :=
          (statusOf_inside inner').trans pending.symm
        change status = statusOf ∘ (k.goto t (.inside c qt)).phase
        rw [statusOf_goto_same (.inside c qt) same]
        exact stands.status
      · have goes := AtWork.goto_inside (k := k) (t := t) alone locks knows' rfl
        rwa [← holder] at goes
  | last s' r done =>
      have waits : status t = .pending c := by
        rw [stands.status]
        exact pending
      refine Or.inr ⟨t, c, waits, ?_, ?_, stands.table.drmIoctl c⟩
      · change _ = statusOf ∘ (k.goto t (.inside c (.exit r))).phase
        rw [done, stands.status, statusOf_goto]
        rfl
      · rw [done]
        have goes : ({ k.goto t (.inside c (.exit r)) with
            shim := s', fLock := some t } : Kext).AtWork s' :=
          AtWork.goto_inside alone locks trivial rfl
        rwa [← holder] at goes

theorem works_runThread (stands : k.Stands s status) (runs : k.runThread t = some k') :
    k'.Works s status ∧ k'.history = k.history := by
  cases here : k.phase t with
  | idle =>
      rw [runThread, here] at runs
      cases runs
  | answered r =>
      rw [runThread, here] at runs
      cases runs
  | entered c =>
      simp only [runThread, here] at runs
      cases locks : takesLock c.data with
      | false =>
          rw [locks, if_neg Bool.false_ne_true] at runs
          exact Option.some.inj runs ▸ ⟨run_unlocked stands here locks, rfl⟩
      | true =>
          rw [locks, if_pos rfl] at runs
          obtain ⟨free, next⟩ := Option.ite_none_right_eq_some.mp runs
          exact Option.some.inj next ▸ ⟨run_lock stands here locks free, rfl⟩
  | inside c pt =>
      by_cases last : ∃ r, pt = .exit r
      · obtain ⟨r, rfl⟩ := last
        rw [runThread, here] at runs
        exact Option.some.inj runs ▸ ⟨run_unlock stands here, rfl⟩
      · have inner (r : Reply) : pt ≠ .exit r := fun same => last ⟨r, same⟩
        rw [runThread_inside here inner] at runs
        obtain ⟨next, advanced, rfl⟩ := Option.map_eq_some_iff.mp runs
        exact ⟨run_inside stands here inner advanced, rfl⟩

/-- A thread that is outside of the handlers calls or returns. -/
theorem Stands.goto_outside (stands : k.Stands s status) {ph : Phase}
    (was : ∀ c pt, k.phase t ≠ .inside c pt) (is : ∀ c pt, ph ≠ .inside c pt)
    (h : List (Event Nat Call Reply)) :
    ({ k.goto t ph with history := h } : Kext).Stands s
      (Function.update status t (statusOf ph)) where
  status := by
    change _ = statusOf ∘ (k.goto t ph).phase
    rw [stands.status, statusOf_goto]
  work := stands.work.goto_outside was is h
  table := stands.table

theorem stands_call (stands : k.Stands s status) {c : Call}
    (next : k.step (.call t c) = some k') :
    (status t = .idle ∧ k'.Stands s (Function.update status t (.pending c))) ∧
      k'.history = k.history ++ [.call t c] := by
  simp only [step] at next
  cases here : k.phase t with
  | entered _ | inside _ _ | answered _ =>
      rw [here] at next
      cases next
  | idle =>
      rw [here] at next
      have idle : status t = .idle := by
        rw [stands.status]
        exact congrArg statusOf here
      refine Option.some.inj next ▸ ⟨⟨idle, stands.goto_outside ?_ ?_ _⟩, rfl⟩
      · intro d pt there
        rw [here] at there
        cases there
      · intro d pt same
        cases same

theorem stands_ret (stands : k.Stands s status) (next : k.step (.ret t) = some k') :
    ∃ r, k.phase t = .answered r ∧ status t = .answered r ∧
      k'.Stands s (Function.update status t .idle) ∧ k'.history = k.history ++ [.ret t r] := by
  simp only [step] at next
  cases here : k.phase t with
  | idle | entered _ | inside _ _ =>
      rw [here] at next
      cases next
  | answered r =>
      rw [here] at next
      have answered : status t = .answered r := by
        rw [stands.status]
        exact congrArg statusOf here
      refine ⟨r, rfl, answered, Option.some.inj next ▸ ⟨stands.goto_outside ?_ ?_ _, rfl⟩⟩
      · intro d pt there
        rw [here] at there
        cases there
      · intro d pt same
        cases same

end

/-- Piece by piece, the kext follows the sequential one. -/
theorem follows : Layers.Follows machine drmIoctl Stands where
  enter stands enters := (stands_call stands enters).1
  work stands works := (works_runThread stands works).1
  leave {k k' s status t a} stands leaves := by
    simp only [machine] at leaves
    cases here : k.phase t with
    | idle | entered _ | inside _ _ =>
        rw [here] at leaves
        cases leaves
    | answered r =>
        rw [here] at leaves
        obtain ⟨mid, next, same⟩ := Option.map_eq_some_iff.mp leaves
        obtain ⟨rfl, rfl⟩ := Prod.mk.inj same
        obtain ⟨r', there, answered, stands', _⟩ := stands_ret stands next
        obtain rfl := Phase.answered.inj (here.symm.trans there)
        exact ⟨answered, stands'⟩

theorem atWork_start (p : Provider) : (start p).AtWork (IODRMShim.start p) where
  free _ := rfl
  held t holder := by cases holder
  inside t c pt here := by cases here

theorem explained_start (p : Provider) : (start p).Explained (IODRMShim.start p) :=
  ⟨[], .start, atWork_start p⟩

theorem stands_replay {p : Provider} {log : List (Entry Nat Call Reply)}
    (work : k.AtWork (replay drmIoctl (IODRMShim.start p) log)) :
    k.Stands (replay drmIoctl (IODRMShim.start p) log) (statusOf ∘ k.phase) where
  status := rfl
  work := work
  table := by
    rw [replay_eq_runCalls]
    exact tableExact_runCalls p _

theorem explained_runThread {p : Provider} (known : k.Explained (IODRMShim.start p))
    (runs : k.runThread t = some k') : k'.Explained (IODRMShim.start p) := by
  obtain ⟨log, seen, work⟩ := known
  obtain ⟨works, same⟩ := works_runThread (stands_replay work) runs
  rw [← same] at seen
  cases works with
  | inl stands => exact ⟨log, stands.status ▸ seen, stands.work⟩
  | inr done =>
      obtain ⟨u, c, pending, stands⟩ := done
      have performed := seen.perform pending
      rw [stands.status] at performed
      refine ⟨_, performed, ?_⟩
      rw [replay_concat]
      exact stands.work

theorem explained_step (p : Provider) (k : Kext) (a : Action) (k' : Kext)
    (known : k.Explained (IODRMShim.start p)) (next : k.step a = some k') :
    k'.Explained (IODRMShim.start p) := by
  cases a with
  | run t => exact explained_runThread known next
  | call t c =>
      obtain ⟨log, seen, work⟩ := known
      obtain ⟨⟨idle, stands⟩, grown⟩ := stands_call (stands_replay work) next
      have called := seen.call t c idle
      rw [← grown, stands.status] at called
      exact ⟨log, called, stands.work⟩
  | ret t =>
      obtain ⟨log, seen, work⟩ := known
      obtain ⟨r, _, answered, stands, grown⟩ := stands_ret (stands_replay work) next
      have returned := seen.ret answered
      rw [← grown, stands.status] at returned
      exact ⟨log, returned, stands.work⟩

/-- For every run of any threads from `start`: the history is linearized by a log of ioctls,
one after the other on the sequential kext, and while nobody holds the lock the kext is what
these have left. At most one thread at a time is in a handler that takes the lock. -/
theorem ioctls_linearize (p : Provider) {as : List Action}
    (ran : Runs.run step (start p) as = some k) :
    (∃ log, Linearizes drmIoctl (IODRMShim.start p) k.history log ∧
      (k.fLock = none → k.shim = (IODRMShim.start p).runCalls (log.map (·.op)))) ∧
    ∀ t u c d pt qt, k.phase t = .inside c pt → k.phase u = .inside d qt → t = u := by
  obtain ⟨log, seen, work⟩ :=
    Runs.run_invariant (explained_step p) (explained_start p) ran
  refine ⟨⟨log, seen.linearizes, ?_⟩, ?_⟩
  · intro free
    rw [work.free free, replay_eq_runCalls]
  · intro t u c d pt qt here there
    exact work.alone here there

/-- A thread reads the displayed framebuffer while another is in SETCRTC. -/
def twoThreads : List Action :=
  [.call 0 ⟨.setCrtc { fbId := 1 }, none, none⟩, .run 0, .call 1 ⟨.getCrtc {}, none, none⟩,
    .run 1, .run 0, .ret 1, .run 0, .ret 0]

theorem ioctls_linearize_two_threads :
    ∃ k, Runs.run step (start ⟨false, none⟩) twoThreads = some k ∧ k.history.length = 4 ∧
      ∃ log, Linearizes drmIoctl (IODRMShim.start ⟨false, none⟩) k.history log := by
  have ran : Runs.run step (start ⟨false, none⟩) twoThreads = some _ := rfl
  exact ⟨_, ran, rfl, (ioctls_linearize ⟨false, none⟩ ran).1.imp fun _ => And.left⟩

end Kext

end LunaOS.Drm
