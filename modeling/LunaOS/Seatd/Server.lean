import Mathlib.Data.Fin.Tuple.Basic
import LunaOS.Lib.Runs
import LunaOS.Lib.Slots
import LunaOS.Seatd.Client

/-!
The seat server: the client table, the descriptors the kernel has open for it and
the dispatch sources. The queue is concurrent, so what one source's block does is
two steps, `handle_client_message` and then the test of the slot that may cancel
the source; `accept_client` is a third. The fields `conn`, `left`, `arrivals`,
`admitted` and `departed` only record what happened: connections are numbered in
the order of their arrival and no step depends on the number.
-/
namespace LunaOS.Seatd

abbrev maxClients : Nat := 16

/-- A read source. `slot` is the index its block captured, `running` the time
between its two steps, `left` that a first step of it saw a disconnection. -/
structure Source where
  conn : Nat
  fd : Int
  slot : Fin maxClients
  cancelled : Bool := false
  running : Bool := false
  left : Bool := false

structure Server where
  clients : Fin maxClients → Client
  descriptors : Int → Option Nat
  sources : List Source
  arrivals : Nat
  admitted : List Nat
  departed : List Nat

/-- What a system call does to the open connections. -/
def kernel (open' : Int → Option Nat) : Effect → Int → Option Nat
  | .close fd => Function.update open' fd none
  | _ => open'

namespace Server

/-- `main`: every slot is free. -/
def start : Server :=
  { clients := fun _ => { fd := -1 }
    descriptors := fun _ => none
    sources := []
    arrivals := 0
    admitted := []
    departed := [] }

/-- The loop of `accept_client`: the first slot with a negative descriptor. -/
def freeSlot (s : Server) : Option (Fin maxClients) :=
  Fin.find? fun i => decide ((s.clients i).fd < 0)

/-- `accept_client`, where `accept` returned `cfd`. -/
def acceptClient (s : Server) (cfd pid : Int) : Server × List Effect :=
  if cfd < 0 then (s, [])
  else
    let opened := { s with
      descriptors := Function.update s.descriptors cfd (some s.arrivals)
      arrivals := s.arrivals + 1 }
    match s.freeSlot with
    | some i =>
        ({ opened with
            clients := Function.update s.clients i
              { s.clients i with fd := cfd, pid := pid, active := true, heldCount := 0 }
            sources := s.sources ++ [{ conn := s.arrivals, fd := cfd, slot := i }]
            admitted := s.arrivals :: s.admitted }, [])
    | none =>
        ({ opened with descriptors := kernel opened.descriptors (.close cfd) }, [.close cfd])

/-- The first step of the block of source `k`. -/
def handle (s : Server) (k : Nat) (src : Source) (stack : Fin msgSize → UInt8)
    (r : Option (List UInt8)) (opened : Except Int Nat) : Server :=
  let cl := s.clients src.slot
  let out := handleClientMessage cl stack r opened
  let left := (requestOf stack r).isNone
  { s with
    clients := Function.update s.clients src.slot out.1
    descriptors := out.2.foldl kernel s.descriptors
    sources := s.sources.set k { src with running := true, left := src.left || left }
    departed := if left then (s.descriptors cl.fd).toList ++ s.departed else s.departed }

/-- The second step: a source whose slot is free is cancelled. -/
def test (s : Server) (k : Nat) (src : Source) : Server :=
  let cancel := decide ((s.clients src.slot).fd < 0)
  { s with
    sources := s.sources.set k { src with running := false, cancelled := src.cancelled || cancel } }

inductive Event where
  | accept (cfd pid : Int)
  | handle (k : Nat) (stack : Fin msgSize → UInt8) (r : Option (List UInt8))
      (opened : Except Int Nat)
  | test (k : Nat)

/-- `accept` and `open` return descriptors that are not open. A source that is
cancelled or still in its block does not fire. -/
def step (s : Server) : Event → Option Server
  | .accept cfd pid =>
      if (s.descriptors cfd).isSome then none else some (s.acceptClient cfd pid).1
  | .handle k stack r opened =>
      match s.sources[k]? with
      | some src =>
          if src.cancelled || src.running || opened.toOption.any
              (fun fd => (s.descriptors fd).isSome) then none
          else some (s.handle k src stack r opened)
      | none => none
  | .test k =>
      match s.sources[k]? with
      | some src => if src.running then some (s.test k src) else none
      | none => none

/-- The client `src` was created for holds the slot `src` captured. -/
def Occupies (s : Server) (src : Source) : Prop :=
  0 ≤ (s.clients src.slot).fd ∧ s.descriptors (s.clients src.slot).fd = some src.conn

end Server
end LunaOS.Seatd
