import LunaOS.Drm.Concurrent
import LunaOS.Drm.Wire

/-!
The whole way from a client's call to the table and back. The functions of the library ask
the kernel, which takes the bytes of the argument to `drm_ioctl`; there any number of
handlers interleave, a few instructions at a time, around `fLock`; and the answer goes back
as bytes. What the clients see is still a store whose operations take effect at once.
-/
namespace LunaOS.Drm.EndToEnd
open Libdrm Linearize IODRMShim

def step (junk : Call → Nat → UInt8) :
    Layers.Stack Kext Call Reply Wire.PassedApi Returned → Layers.Action Nat Wire.PassedApi →
      Option (Layers.Stack Kext Call Reply Wire.PassedApi Returned) :=
  Layers.Stack.step Kext.machine (fun c => Wire.copyin (junk c) c)
    (fun c => Wire.copyback (junk c) c) fun op => program op.val

theorem stands_start (p : Provider) :
    (Kext.start p).Stands (IODRMShim.start p) fun _ => .idle where
  status := rfl
  work := Kext.atWork_start p
  table := tableExact_start p

/-- A run is one of sessions with a kext that answers at once, as far as clients see; and
what they see is explained by the store. -/
theorem explained_run (junk : Call → Nat → UInt8) (p : Provider)
    {as : List (Layers.Action Nat Wire.PassedApi)}
    {k : Layers.Stack Kext Call Reply Wire.PassedApi Returned}
    (ran : Runs.run (step junk) { machine := Kext.start p } as = some k) :
    ∃ s log status, (k.machine.fLock = none → k.machine.shim = s) ∧ s.TableExact ∧
      Explains Wire.respond (storeOf (IODRMShim.start p)) k.history log status ∧
      storeOf s = replay Wire.respond (storeOf (IODRMShim.start p)) log := by
  obtain ⟨as', o, status, ran', refines⟩ :=
    Layers.Stack.refines_sessions Kext.follows (stands_start p) ran
  obtain ⟨log, known⟩ := Dialogues.Sessions.explained_run
    (fun s c => Wire.kept_ioctl s c) (fun op => Wire.atomic_bytes (fun _ => junk) _ _ op)
    (Wire.kept_start p) ran'
  exact ⟨o.server, log, _, refines.rel.work.free, refines.rel.table, refines.same ▸ known.seen,
    known.left⟩

/-- For every run of any number of clients, with the handlers of their ioctls interleaved
piece by piece: what they see is linearized by a log of calls on the store, and while nobody
holds the lock the kext stands for the store that these leave. -/
theorem stack_linearizes (junk : Call → Nat → UInt8) (p : Provider)
    {as : List (Layers.Action Nat Wire.PassedApi)}
    {k : Layers.Stack Kext Call Reply Wire.PassedApi Returned}
    (ran : Runs.run (step junk) { machine := Kext.start p } as = some k) :
    ∃ log, Linearizes Wire.respond (storeOf (IODRMShim.start p)) k.history log ∧
      (k.machine.fLock = none →
        storeOf k.machine.shim = replay Wire.respond (storeOf (IODRMShim.start p)) log) := by
  obtain ⟨s, log, status, free, _, seen, left⟩ := explained_run junk p ran
  refine ⟨log, seen.linearizes, fun unlocked => ?_⟩
  rw [free unlocked]
  exact left

/-- A client reads the mode while another one's SETCRTC holds the lock. -/
def twoClients : List (Layers.Action Nat Wire.PassedApi) :=
  [.call 0 ⟨.setCrtc 1 1 0 0 0 0 none none, nofun⟩, .ask 0, .work 0,
    .call 1 ⟨.getConnector 1 4096, trivial⟩, .ask 1, .work 1, .answer 1, .work 0, .work 0, .ask 1,
    .work 1, .answer 1, .answer 0, .ret 1, .ret 0]

theorem stack_linearizes_two_clients :
    ∃ k, Runs.run (step fun _ _ => 0xAA) { machine := Kext.start ⟨false, none⟩ } twoClients =
        some k ∧ k.history.length = 4 ∧
      ∃ log, Linearizes Wire.respond (storeOf (IODRMShim.start ⟨false, none⟩)) k.history log := by
  have ends : (Runs.run (step fun _ _ => 0xAA) { machine := Kext.start ⟨false, none⟩ }
      twoClients).map (fun k => k.history.length) = some 4 := rfl
  obtain ⟨k, ran, four⟩ := Option.map_eq_some_iff.mp ends
  exact ⟨k, ran, four,
    (stack_linearizes (fun _ _ => 0xAA) ⟨false, none⟩ ran).imp fun _ => And.left⟩

end LunaOS.Drm.EndToEnd
