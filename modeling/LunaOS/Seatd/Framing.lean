import LunaOS.Lib.Chunks
import LunaOS.Seatd.Message

/-!
Requests over a stream socket. A client writes whole messages; the server takes
what one `recv` returns for a message. The requests it acts on are the ones
written exactly when every `recv` returned a whole message: one short read leaves
more reads than messages.
-/
namespace LunaOS.Seatd

/-- One `recv` that returns bytes, with what the stack of that call held. -/
structure Recv where
  stack : Fin msgSize → UInt8
  chunk : List UInt8
  nonempty : chunk ≠ []
  bounded : chunk.length ≤ msgSize

/-- The request that the call of `handle_client_message` acts on. -/
def Recv.acted (r : Recv) : Option (UInt16 × List UInt8) :=
  requestOf r.stack (some r.chunk)

/-- A way to deliver all that a client has written. -/
structure Delivery (sent : List Request) where
  recvs : List Recv
  whole : (recvs.map Recv.chunk).flatten = (sent.map fun r => r.toBytes).flatten

namespace Delivery
variable {sent : List Request}

theorem full_of_acted (d : Delivery sent)
    (same : d.recvs.map Recv.acted = sent.map fun r => some r.request) :
    ∀ r ∈ d.recvs, r.chunk.length = msgSize := by
  have count : (d.recvs.map Recv.chunk).length = (sent.map fun r => r.toBytes).length := by
    simpa only [List.length_map] using congrArg List.length same
  have full := Chunks.full_of_length_eq d.whole
    (List.forall_mem_map.mpr fun r _ => r.length_toBytes)
    (List.forall_mem_map.mpr fun r _ => r.bounded) count
  exact List.forall_mem_map.mp full

/-- Calls that read whole messages act on what was written. -/
theorem acted_of_chunks {recvs : List Recv} {sent : List Request}
    (same : recvs.map Recv.chunk = sent.map fun r => r.toBytes) :
    recvs.map Recv.acted = sent.map fun r => some r.request := by
  induction recvs generalizing sent with
  | nil =>
      have none_sent : sent = [] := List.map_eq_nil_iff.mp same.symm
      rw [none_sent, List.map_nil, List.map_nil]
  | cons r recvs ih =>
      cases sent with
      | nil => cases same
      | cons m sent =>
          obtain ⟨first, rest⟩ := List.cons.inj same
          have acted : r.acted = some m.request := by
            rw [Recv.acted, first, m.requestOf_toBytes]
          rw [List.map_cons, List.map_cons, acted, ih rest]

/-- The server acts on the requests as they were sent, whatever its stack held,
exactly when every `recv` returned a whole message. -/
theorem acted_eq_sent_iff (d : Delivery sent) :
    (d.recvs.map Recv.acted = sent.map fun r => some r.request) ↔
      ∀ r ∈ d.recvs, r.chunk.length = msgSize := by
  constructor
  · exact d.full_of_acted
  · intro full
    refine acted_of_chunks (Chunks.eq_records_of_full (Nat.succ_pos 259) d.whole ?_ ?_)
    · exact List.forall_mem_map.mpr fun r _ => r.length_toBytes
    · exact List.forall_mem_map.mpr full

/-- OPEN_DEVICE of `/dev/dri/card0` cut after twelve bytes over a zeroed stack: the
first call acts on `/dev/dri`, the second on a message of another type. -/
theorem short_read_splits_request :
    ∃ (sent : List Request) (d : Delivery sent),
      (sent.map fun r => some r.request) = [some (msgOpenDevice, bytes "/dev/dri/card0")] ∧
      d.recvs.map Recv.acted =
        [some (msgOpenDevice, bytes "/dev/dri"), some (25391, bytes "d0")] ∧
      d.recvs.map Recv.acted ≠ sent.map fun r => some r.request := by
  let path := bytes "/dev/dri/card0"
  let m : Request :=
    { type := msgOpenDevice, len := 14, data := fun i => path[i.val]?.getD 0, terminated := rfl }
  let cut (chunk : List UInt8) (ne : chunk ≠ []) (le : chunk.length ≤ msgSize) : Recv :=
    { stack := fun _ => 0, chunk := chunk, nonempty := ne, bounded := le }
  refine ⟨[m], ⟨[cut (m.toBytes.take 12) ?_ ?_, cut (m.toBytes.drop 12) ?_ ?_], ?_⟩, ?_, ?_, ?_⟩
  all_goals decide +kernel

end Delivery
end LunaOS.Seatd
