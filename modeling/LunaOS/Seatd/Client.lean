import LunaOS.Seatd.Message

/-!
The per-client handlers of `seatd-darwin.c`. A handler returns the client record
it leaves and the system calls it made, in order. Results of system calls are
parameters: what `recv` returned and what `open` returned. Logging is left out.
-/
namespace LunaOS.Seatd

structure Client where
  fd : Int := 0
  pid : Int := 0
  active : Bool := false
  heldFds : Fin 8 → Int := fun _ => 0
  heldCount : Nat := 0

/-- The system calls of the handlers. `sendFd` passes no descriptor where `fd` is
negative. -/
inductive Effect where
  | openDevice (path : List UInt8)
  | sendFd (sock fd replyCode : Int)
  | send (sock reply : Int)
  | close (fd : Int)
  deriving DecidableEq

def eperm : Int := 1

/-- `strncmp(a, b, n) == 0`, where neither list has a terminator in it. -/
def strncmpEq (a b : List UInt8) (n : Nat) : Bool :=
  a.take n == b.take n

/-- The path check of `handle_open_device` fails. -/
def refused (path : List UInt8) : Bool :=
  !strncmpEq path (bytes "/dev/dri/") 9 && !strncmpEq path (bytes "/dev/input/") 11

def handleOpenDevice (cl : Client) (path : List UInt8) (opened : Except Int Nat) :
    Client × List Effect :=
  if refused path then (cl, [.sendFd cl.fd (-1) (-eperm)])
  else match opened with
    | .error errno => (cl, [.openDevice path, .sendFd cl.fd (-1) (-errno)])
    | .ok devFd =>
        let cl' := if h : cl.heldCount < 8 then
            { cl with
              heldFds := Function.update cl.heldFds ⟨cl.heldCount, h⟩ devFd
              heldCount := cl.heldCount + 1 }
          else cl
        (cl', [.openDevice path, .sendFd cl.fd devFd 0, .close devFd])

/-- The switch of `handle_client_message`. -/
def act (cl : Client) (type : UInt16) (path : List UInt8) (opened : Except Int Nat) :
    Client × List Effect :=
  if type = msgOpenDevice then handleOpenDevice cl path opened
  else if type = msgCloseDevice then (cl, [.send cl.fd 0])
  else if type = msgEnableSeat ∨ type = msgDisableSeat then (cl, [.send cl.fd 0])
  else (cl, [])

def disconnect (cl : Client) : Client × List Effect :=
  ({ cl with fd := -1, active := false }, [.close cl.fd])

def handleClientMessage (cl : Client) (stack : Fin msgSize → UInt8)
    (r : Option (List UInt8)) (opened : Except Int Nat) : Client × List Effect :=
  match requestOf stack r with
  | none => disconnect cl
  | some (type, path) => act cl type path opened

theorem openDevice_mem_handleOpenDevice (cl : Client) (path p : List UInt8)
    (opened : Except Int Nat) :
    Effect.openDevice p ∈ (handleOpenDevice cl path opened).2 ↔
      refused path = false ∧ p = path := by
  unfold handleOpenDevice
  cases refused path with
  | true => simp
  | false => cases opened <;> simp

/-- Only an OPEN_DEVICE that passes the check opens anything, and it opens its
own path. -/
theorem openDevice_mem_handleClientMessage (cl : Client) (stack : Fin msgSize → UInt8)
    (r : Option (List UInt8)) (opened : Except Int Nat) (p : List UInt8) :
    Effect.openDevice p ∈ (handleClientMessage cl stack r opened).2 ↔
      requestOf stack r = some (msgOpenDevice, p) ∧ refused p = false := by
  unfold handleClientMessage
  cases request : requestOf stack r with
  | none => simp [disconnect]
  | some acted =>
      obtain ⟨type, path⟩ := acted
      simp only [act, Option.some.injEq, Prod.mk.injEq]
      by_cases device : type = msgOpenDevice
      · rw [if_pos device, openDevice_mem_handleOpenDevice]
        constructor
        · intro ⟨allowed, same⟩
          exact ⟨⟨device, same.symm⟩, same ▸ allowed⟩
        · intro ⟨⟨_, same⟩, allowed⟩
          exact ⟨same ▸ allowed, same.symm⟩
      · simp only [device, if_false, false_and, iff_false]
        split
        · simp
        · split <;> simp

/-- A handler that does not disconnect keeps the connection. -/
theorem act_connection (cl : Client) (type : UInt16) (path : List UInt8)
    (opened : Except Int Nat) :
    (act cl type path opened).1.fd = cl.fd ∧ (act cl type path opened).1.pid = cl.pid ∧
      (act cl type path opened).1.active = cl.active := by
  unfold act handleOpenDevice
  split
  · split
    · exact ⟨rfl, rfl, rfl⟩
    · cases opened with
      | error errno => exact ⟨rfl, rfl, rfl⟩
      | ok devFd =>
          dsimp only
          split <;> exact ⟨rfl, rfl, rfl⟩
  · split
    · exact ⟨rfl, rfl, rfl⟩
    · split <;> exact ⟨rfl, rfl, rfl⟩

/-- A request closes no descriptor but the one it has just opened. -/
theorem close_mem_act {cl : Client} {type : UInt16} {path : List UInt8}
    {opened : Except Int Nat} {fd : Int}
    (closed : Effect.close fd ∈ (act cl type path opened).2) :
    ∃ devFd, opened = .ok devFd ∧ fd = devFd := by
  unfold act handleOpenDevice at closed
  split at closed
  · split at closed
    · simp at closed
    · cases opened with
      | error errno => simp at closed
      | ok devFd => exact ⟨devFd, rfl, by simpa using closed⟩
  · split at closed
    · simp at closed
    · split at closed <;> simp at closed

end LunaOS.Seatd
