import LunaOS.Drm.Refinement
import LunaOS.Gbm.Bo

/-!
Any number of GBM clients on one device. The kext's table is shared by all
opens, and the scheduler may run another client between any two ioctls, so a
step is one ioctl of one client. A client destroys only buffer objects it
created, each once. `gbm_bo_destroy` frees its handle twice, by DESTROY_DUMB and
then by GEM_CLOSE; the phase `closing` is the moment between the two.
-/
namespace LunaOS.Gbm
open Drm IODRMShim

/-- A buffer object with the descriptor that its CREATE_DUMB allocated. -/
structure Owned where
  bo : GbmBo
  mem : Nat

inductive Phase where
  | idle
  | mapping (o : Owned)
  | closing (handle : UInt32)

structure Client where
  phase : Phase := .idle
  outstanding : List Owned := []

/-- The buffer objects from the success of CREATE_DUMB to their DESTROY_DUMB. -/
def Client.owned (c : Client) : List Owned :=
  match c.phase with
  | .mapping o => o :: c.outstanding
  | _ => c.outstanding

theorem Client.owned_idle {c : Client} (idle : c.phase = .idle) :
    c.owned = c.outstanding := by
  simp only [Client.owned, idle]

theorem Client.owned_mapping {c : Client} {o : Owned} (phase : c.phase = .mapping o) :
    c.owned = o :: c.outstanding := by
  simp only [Client.owned, phase]

theorem Client.owned_closing {c : Client} {handle : UInt32} (phase : c.phase = .closing handle) :
    c.owned = c.outstanding := by
  simp only [Client.owned, phase]

/-- The next ioctl of a client. -/
inductive Action (ι : Type) where
  | create (c : ι) (w h fmt flags : UInt32) (mem : Option Mapping)
  | map (c : ι)
  | destroy (c : ι) (mem : Nat)
  | close (c : ι)

structure System (ι : Type) where
  shim : IODRMShim
  clients : ι → Client

variable {ι : Type} [DecidableEq ι]

namespace System

def start (p : Provider) : System ι :=
  { shim := IODRMShim.start p, clients := fun _ => {} }

def update (sys : System ι) (shim : IODRMShim) (c : ι) (client : Client) : System ι :=
  { shim := shim, clients := Function.update sys.clients c client }

def step (sys : System ι) : Action ι → Option (System ι)
  | .create c w h fmt flags mem =>
      match (sys.clients c).phase with
      | .idle =>
          let r := sys.shim.drmIoctl ⟨.createDumb (allocRequest w h fmt), mem, none⟩
          match r.2.errno, r.2.data with
          | .success, .createDumb req =>
              some (sys.update r.1 c
                { sys.clients c with
                  phase := .mapping
                    ⟨boCreated w h fmt flags req, sys.shim.ledger.allocated⟩ })
          | _, _ => some { sys with shim := r.1 }
      | _ => none
  | .map c =>
      match (sys.clients c).phase with
      | .mapping o =>
          let r := sys.shim.drmIoctl ⟨.mapDumb { handle := o.bo.gemHandle }, none, none⟩
          some (sys.update r.1 c
            { phase := .idle
              outstanding :=
                { o with bo := boMapped o.bo r.2 } :: (sys.clients c).outstanding })
      | _ => none
  | .destroy c mem =>
      match (sys.clients c).phase, (sys.clients c).outstanding.find? (·.mem = mem) with
      | .idle, some o =>
          let r := sys.shim.drmIoctl ⟨.destroyDumb { handle := o.bo.gemHandle }, none, none⟩
          some (sys.update r.1 c
            { phase := .closing o.bo.gemHandle
              outstanding := (sys.clients c).outstanding.filter (·.mem ≠ mem) })
      | _, _ => none
  | .close c =>
      match (sys.clients c).phase with
      | .closing handle =>
          let r := sys.shim.drmIoctl ⟨.gemClose { handle := handle, pad := 0 }, none, none⟩
          some (sys.update r.1 c { sys.clients c with phase := .idle })
      | _ => none

/-- `o` names the live buffer that its own CREATE_DUMB returned. -/
def Holds (m : BufferMap) (o : Owned) : Prop :=
  ∃ i b, o.bo.gemHandle = handleOf i ∧ m i = some b ∧ b.mem = o.mem

/-- Every outstanding buffer object still has its buffer. -/
def Isolated (sys : System ι) : Prop :=
  ∀ c, ∀ o ∈ (sys.clients c).owned, Holds sys.shim.contents o

/-- The second free of a destroy finds no live buffer under its handle. -/
def CloseFindsNothing (sys : System ι) (a : Action ι) : Prop :=
  match a with
  | .close c => ∀ handle, (sys.clients c).phase = .closing handle →
      sys.shim.findBO handle = none
  | _ => True

end System
end LunaOS.Gbm
