import Mathlib.Data.List.OfFn

/-!
The wire protocol of `seatd-darwin/seatd-darwin.c`: `struct seatd_msg` is 260
bytes, little-endian, and its path is the C string in `data`. `recv` writes as
many bytes as the stream holds into an uninitialised local message, so what the
server reads is that prefix and, after it, whatever the stack held.
-/
namespace LunaOS.Seatd

def bytes (s : String) : List UInt8 :=
  s.toList.map fun c => UInt8.ofNat c.toNat

def msgOpenDevice : UInt16 := 1

def msgCloseDevice : UInt16 := 2

def msgEnableSeat : UInt16 := 3

def msgDisableSeat : UInt16 := 4

structure SeatdMsg where
  type : UInt16
  len : UInt16
  data : Fin 256 → UInt8

abbrev msgSize : Nat := 260

/-- The bytes before the terminator. -/
def cString (data : Fin 256 → UInt8) : List UInt8 :=
  (List.ofFn data).takeWhile (· ≠ 0)

namespace SeatdMsg

def ofBytes (b : Fin msgSize → UInt8) : SeatdMsg :=
  { type := UInt16.ofNat ((b 0).toNat + 256 * (b 1).toNat)
    len := UInt16.ofNat ((b 2).toNat + 256 * (b 3).toNat)
    data := fun i => b (i.natAdd 4) }

def toBytes (m : SeatdMsg) : List UInt8 :=
  UInt8.ofNat (m.type.toNat % 256) :: UInt8.ofNat (m.type.toNat / 256) ::
    UInt8.ofNat (m.len.toNat % 256) :: UInt8.ofNat (m.len.toNat / 256) :: List.ofFn m.data

/-- `msg.data[sizeof(msg.data) - 1] = 0`. -/
def terminate (m : SeatdMsg) : SeatdMsg :=
  { m with data := Function.update m.data (Fin.last 255) 0 }

def request (m : SeatdMsg) : UInt16 × List UInt8 :=
  (m.type, cString m.data)

end SeatdMsg

/-- `msg` after `recv` has written `chunk` into it. -/
def received (stack : Fin msgSize → UInt8) (chunk : List UInt8) : SeatdMsg :=
  SeatdMsg.ofBytes fun i => chunk[i.val]?.getD (stack i)

/-- The type and path that the switch of `handle_client_message` is entered with;
`none` where `n <= 0`. An error of `recv` is `none`. -/
def requestOf (stack : Fin msgSize → UInt8) : Option (List UInt8) → Option (UInt16 × List UInt8)
  | none => none
  | some [] => none
  | some chunk => some (received stack chunk).terminate.request

/-- A request as a client writes it: the path ends inside `data`. -/
structure Request extends SeatdMsg where
  terminated : data (Fin.last 255) = 0

namespace SeatdMsg

theorem length_toBytes (m : SeatdMsg) : m.toBytes.length = msgSize := by
  simp only [toBytes, List.length_cons, List.length_ofFn]

theorem ofNat_le_bytes (t : UInt16) :
    UInt16.ofNat ((UInt8.ofNat (t.toNat % 256)).toNat +
      256 * (UInt8.ofNat (t.toNat / 256)).toNat) = t := by
  have bound := t.toNat_lt
  apply UInt16.toNat_inj.mp
  simp only [UInt8.toNat_ofNat', UInt16.toNat_ofNat']
  omega

/-- A whole message is read back, whatever the stack held. -/
theorem received_toBytes (m : SeatdMsg) (stack : Fin msgSize → UInt8) :
    received stack m.toBytes = m := by
  have data (i : Fin 256) : m.toBytes[4 + i.val]?.getD (stack (i.natAdd 4)) = m.data i := by
    have skip : m.toBytes[4 + i.val]? = (List.ofFn m.data)[i.val]? := by
      simp only [toBytes, Nat.add_comm 4, List.getElem?_cons_succ]
    have inside : i.val < (List.ofFn m.data).length := by
      rw [List.length_ofFn]
      exact i.isLt
    rw [skip, List.getElem?_eq_getElem inside, List.getElem_ofFn, Option.getD_some]
  obtain ⟨type, len, d⟩ := m
  simp only [received, ofBytes, SeatdMsg.mk.injEq]
  exact ⟨ofNat_le_bytes type, ofNat_le_bytes len, funext data⟩

end SeatdMsg

theorem Request.terminate_eq (r : Request) : r.terminate = r.toSeatdMsg := by
  have same : Function.update r.data (Fin.last 255) 0 = r.data := by
    rw [← r.terminated, Function.update_eq_self]
  simp only [SeatdMsg.terminate, same]

/-- A request that arrives whole is acted on as it was written. -/
theorem Request.requestOf_toBytes (r : Request) (stack : Fin msgSize → UInt8) :
    requestOf stack (some r.toBytes) = some r.request := by
  change some (received stack r.toBytes).terminate.request = some r.request
  rw [SeatdMsg.received_toBytes, r.terminate_eq]

end LunaOS.Seatd
