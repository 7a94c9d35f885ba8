import LunaOS.Seatd.Server

/-!
What one step of the server can do. `Change` has a constructor for every outcome:
a connection is admitted to the lowest free slot or closed unserved, a handler
serves a request or sees its client leave, a test may cancel. Everything proved of
the server is a case analysis on it; nothing later unfolds a handler.
-/
namespace LunaOS.Seatd
open Slots

/-- A slot is occupied where its descriptor is not negative. -/
def Client.seat (cl : Client) : Option Int :=
  if cl.fd < 0 then none else some cl.fd

namespace Server

def seats (s : Server) : Fin maxClients → Option Int :=
  Slots.contents Client.seat s.clients

def enroll (s : Server) (i : Fin maxClients) (cfd pid : Int) : Server :=
  { clients := Function.update s.clients i
      { s.clients i with fd := cfd, pid := pid, active := true, heldCount := 0 }
    descriptors := Function.update s.descriptors cfd (some s.arrivals)
    sources := s.sources ++ [{ conn := s.arrivals, fd := cfd, slot := i }]
    arrivals := s.arrivals + 1
    admitted := s.arrivals :: s.admitted
    departed := s.departed }

def serve (s : Server) (k : Nat) (src : Source) (cl : Client) : Server :=
  { s with
    clients := Function.update s.clients src.slot cl
    sources := s.sources.set k { src with running := true } }

def leave (s : Server) (k : Nat) (src : Source) : Server :=
  { s with
    clients := Function.update s.clients src.slot
      { s.clients src.slot with fd := -1, active := false }
    descriptors := Function.update s.descriptors (s.clients src.slot).fd none
    sources := s.sources.set k { src with running := true, left := true }
    departed := (s.descriptors (s.clients src.slot).fd).toList ++ s.departed }

inductive Change (s : Server) : Event → Server → Prop where
  | failed {cfd pid : Int} (bad : cfd < 0) : Change s (.accept cfd pid) s
  | refused {cfd pid : Int} (full : Full s.seats) :
      Change s (.accept cfd pid) { s with arrivals := s.arrivals + 1 }
  | admitted {cfd pid : Int} (i : Fin maxClients) (free : LowestFree s.seats i)
      (good : 0 ≤ cfd) (unused : s.descriptors cfd = none) :
      Change s (.accept cfd pid) (s.enroll i cfd pid)
  | served {k : Nat} {stack : Fin msgSize → UInt8} {r : Option (List UInt8)}
      {opened : Except Int Nat} (src : Source) (cl : Client)
      (found : s.sources[k]? = some src) (alive : src.cancelled = false)
      (idle : src.running = false) (same_fd : cl.fd = (s.clients src.slot).fd)
      (same_active : cl.active = (s.clients src.slot).active) :
      Change s (.handle k stack r opened) (s.serve k src cl)
  | left {k : Nat} {stack : Fin msgSize → UInt8} {r : Option (List UInt8)}
      {opened : Except Int Nat} (src : Source)
      (found : s.sources[k]? = some src) (alive : src.cancelled = false)
      (idle : src.running = false) :
      Change s (.handle k stack r opened) (s.leave k src)
  | tested {k : Nat} (src : Source) (found : s.sources[k]? = some src)
      (busy : src.running = true) : Change s (.test k) (s.test k src)

variable {s s' : Server}

theorem seat_eq_none_iff (cl : Client) : cl.seat = none ↔ cl.fd < 0 := by
  unfold Client.seat
  split
  · rename_i free
    exact iff_of_true rfl free
  · rename_i busy
    exact iff_of_false nofun busy

theorem freeSlot_reads (i : Fin maxClients) :
    decide ((s.clients i).fd < 0) = true ↔ s.seats i = none := by
  rw [decide_eq_true_iff]
  exact (seat_eq_none_iff (s.clients i)).symm

theorem freeSlot_eq_none_iff : s.freeSlot = none ↔ Full s.seats := by
  unfold freeSlot
  exact scan_eq_none_iff freeSlot_reads

theorem freeSlot_eq_some_iff (i : Fin maxClients) :
    s.freeSlot = some i ↔ LowestFree s.seats i := by
  unfold freeSlot
  exact scan_eq_some_iff freeSlot_reads i

theorem acceptClient_failed {cfd : Int} (bad : cfd < 0) (pid : Int) :
    s.acceptClient cfd pid = (s, []) := by
  rw [acceptClient, if_pos bad]

theorem acceptClient_refused {cfd : Int} (good : 0 ≤ cfd) (pid : Int)
    (unused : s.descriptors cfd = none) (full : Full s.seats) :
    s.acceptClient cfd pid = ({ s with arrivals := s.arrivals + 1 }, [.close cfd]) := by
  have closed : Function.update (Function.update s.descriptors cfd (some s.arrivals)) cfd none =
      s.descriptors := by
    rw [Function.update_idem, ← unused, Function.update_eq_self]
  simp only [acceptClient, if_neg (Int.not_lt.mpr good), freeSlot_eq_none_iff.mpr full, kernel,
    closed]

theorem acceptClient_admitted {cfd : Int} (good : 0 ≤ cfd) (pid : Int) {i : Fin maxClients}
    (free : LowestFree s.seats i) : s.acceptClient cfd pid = (s.enroll i cfd pid, []) := by
  simp only [acceptClient, if_neg (Int.not_lt.mpr good), (freeSlot_eq_some_iff i).mpr free,
    enroll]

/-- Closing descriptors that are not open connections changes nothing. -/
theorem foldl_kernel_of_unused (effects : List Effect) (open' : Int → Option Nat)
    (unused : ∀ fd, Effect.close fd ∈ effects → open' fd = none) :
    effects.foldl kernel open' = open' := by
  induction effects with
  | nil => rfl
  | cons e effects ih =>
      have here : kernel open' e = open' := by
        cases e with
        | close fd =>
            have none_open := unused fd List.mem_cons_self
            rw [kernel, ← none_open, Function.update_eq_self]
        | openDevice _ | sendFd _ _ _ | send _ _ => rfl
      rw [List.foldl_cons, here]
      exact ih fun fd hfd => unused fd (List.mem_cons_of_mem e hfd)

theorem handle_served {k : Nat} {src : Source} {stack : Fin msgSize → UInt8}
    {r : Option (List UInt8)} {opened : Except Int Nat} {type : UInt16} {path : List UInt8}
    (request : requestOf stack r = some (type, path))
    (fresh : ∀ fd, opened = .ok fd → s.descriptors fd = none) :
    s.handle k src stack r opened =
      s.serve k src (act (s.clients src.slot) type path opened).1 := by
  have closes := foldl_kernel_of_unused (act (s.clients src.slot) type path opened).2
    s.descriptors fun fd closed => by
      obtain ⟨devFd, ok, rfl⟩ := close_mem_act closed
      exact fresh devFd ok
  simp only [handle, handleClientMessage, request, Option.isNone_some, Bool.or_false, closes,
    Bool.false_eq_true, if_false, serve]

theorem handle_left {k : Nat} {src : Source} {stack : Fin msgSize → UInt8}
    {r : Option (List UInt8)} {opened : Except Int Nat} (request : requestOf stack r = none) :
    s.handle k src stack r opened = s.leave k src := by
  simp only [handle, handleClientMessage, request, disconnect, Option.isNone_none, Bool.or_true,
    if_true, List.foldl_cons, List.foldl_nil, kernel, leave]

theorem step_change {e : Event} (taken : s.step e = some s') : Change s e s' := by
  cases e with
  | accept cfd pid =>
      simp only [step] at taken
      split at taken
      · cases taken
      · rename_i closed
        have unused : s.descriptors cfd = none := by simpa using closed
        obtain rfl := Option.some.inj taken
        by_cases bad : cfd < 0
        · rw [acceptClient_failed bad]
          exact .failed bad
        · have good := Int.not_lt.mp bad
          cases scan : s.freeSlot with
          | none =>
              have full := freeSlot_eq_none_iff.mp scan
              rw [acceptClient_refused good pid unused full]
              exact .refused full
          | some i =>
              have free := (freeSlot_eq_some_iff i).mp scan
              rw [acceptClient_admitted good pid free]
              exact .admitted i free good unused
  | handle k stack r opened =>
      simp only [step] at taken
      split at taken
      · rename_i src found
        split at taken
        · cases taken
        · rename_i enabled
          simp only [Bool.or_eq_true, not_or, Bool.not_eq_true] at enabled
          obtain ⟨⟨alive, idle⟩, fresh⟩ := enabled
          obtain rfl := Option.some.inj taken
          cases request : requestOf stack r with
          | none =>
              rw [handle_left request]
              exact .left src found alive idle
          | some acted =>
              obtain ⟨type, path⟩ := acted
              have same := act_connection (s.clients src.slot) type path opened
              rw [handle_served request]
              · exact .served src _ found alive idle same.1 same.2.2
              · intro fd ok
                simpa [ok, Except.toOption] using fresh
      · cases taken
  | test k =>
      simp only [step] at taken
      split at taken
      · rename_i src found
        split at taken
        · rename_i busy
          obtain rfl := Option.some.inj taken
          exact .tested src found busy
        · cases taken
      · cases taken

end Server
end LunaOS.Seatd
