import Pilot2Cloud.Network.ReassemblyCorrect

/-!
# One message under reassembly at a time

While the fragments of one message arrive, a client and a server use a single
receive buffer in the same way.  The fragments of a call, in order, leave the
buffer idle and deliver the message, if its buffer can be allocated.
-/

namespace Pilot2Cloud
namespace Network

open Foundation Words Memory

variable {σ : Type} {decoder : Decoder σ} {malloc : Nat → Bool}
  {place : Recvbuf → σ}

/-- A decoder whose state is `place recvbuf` while only the buffer `recvbuf` is
in use, and which puts a fragment for that buffer there. -/
def SingleSlot
    (decoder : Decoder σ) (malloc : Nat → Bool) (place : Recvbuf → σ) : Prop :=
  ∀ recvbuf message packetID,
    readWord message Field.packetID = .ok packetID → 0 < packetID →
    recvbuf = Recvbuf.idle ∨ recvbuf.receiveID = packetID →
    decoder.receiveSubpacket (place recvbuf) message =
      (do
        let current ←
          ClientNetSession.recvbufFor malloc recvbuf message packetID
        let (next, received) ← current.receive message
        return (place next, received))

theorem ClientNetSession.singleSlot
    (protocol : NetProtocol) (lastEvent : Nat) (malloc : Nat → Bool) :
    SingleSlot (ClientNetSession.decoder protocol lastEvent malloc) malloc
      id := by
  intro recvbuf message packetID idRead _ _
  simp only [decoder, ClientNetSession.receiveSubpacket_eq, idRead, ok_bind,
    id]
  congr 1
  funext current
  exact (bind_pure _).symm

/-- With its first buffer idle a server uses the second one. -/
theorem ServerNetSession.singleSlot
    (protocol : NetProtocol) (lastEvent : Nat) (malloc : Nat → Bool) :
    SingleSlot (ServerNetSession.decoder protocol lastEvent malloc) malloc
      (ClientRecv.mk Recvbuf.idle) := by
  intro recvbuf message packetID idRead positive inUse
  have notFirst : ¬Recvbuf.idle.receiveID = packetID := by
    simp only [Recvbuf.idle]
    omega
  simp only [decoder, ServerNetSession.receiveSubpacket_eq, idRead, ok_bind,
    ServerNetSession.recvbufFor, ClientNetSession.recvbufFor,
    ClientRecv.find, if_neg notFirst]
  by_cases same : recvbuf.receiveID = packetID
  · simp [same, ClientRecv.get, ClientRecv.set]
  · have idle : recvbuf = Recvbuf.idle := inUse.resolve_right same
    subst idle
    rw [if_neg same, if_neg same]
    simp [ClientRecv.victim, ClientRecv.set]

section Call

variable {lastEvent : Nat} (singleSlot : SingleSlot decoder malloc place)
  (call : LargeSend lastEvent)

include singleSlot

/-- A fragment for the buffer in use, or the first one for an idle buffer. -/
theorem SingleSlot.handle_fragment
    {recvbuf : Recvbuf} (index : Nat)
    (inUse : recvbuf = Recvbuf.idle ∨ recvbuf.receiveID = call.sendID) :
    handlePacket decoder (place recvbuf) (isSubpacket (call.fragment index))
        (call.fragment index) (call.fragment index).length =
      (do
        let current ← ClientNetSession.recvbufFor malloc recvbuf
          (call.fragment index) call.sendID
        let (next, received) ← current.receive (call.fragment index)
        return (place next, received)) := by
  have packetID := call.wordAt_packetID index []
  rw [List.append_nil] at packetID
  have idRead : readWord (call.fragment index) 16 = .ok call.sendID := by
    rw [readWord_of_inside (by rw [call.length_fragment]; omega), packetID]
  rw [call.isSubpacket_fragment, handlePacket, if_pos rfl]
  exact singleSlot recvbuf _ call.sendID idRead call.sendIDPositive inUse

/-- The remaining fragments of a call complete its message.  The induction is
on how many follow the next one; before it, as many are stored. -/
theorem SingleSlot.handle_rest
    {current : Recvbuf} {stored : List Nat} (index left : Nat)
    (collecting : Collecting call stored current)
    (counted : index + left + 1 = call.count)
    (asMany : stored.length = index) (earlier : ∀ part ∈ stored, part < index) :
    (do
      let (next, first) ← current.receive (call.fragment index)
      let (final, later) ← handlePackets decoder (place next)
        ((List.range' (index + 1) left).map call.fragment)
      return (final, first ++ later)) =
      .ok (place Recvbuf.idle, [call.message.map some]) := by
  have isNew : index ∉ stored :=
    fun member => Nat.lt_irrefl _ (earlier index member)
  induction left generalizing current stored index with
  | zero =>
      rcases collecting.receive (by omega) isNew with
        ⟨_, delivered⟩ | ⟨next, _, collectingNext⟩
      · simp [delivered, handlePackets]
      · have unfinished := collectingNext.unfinished
        rw [List.length_cons] at unfinished
        omega
  | succ left inductionHypothesis =>
      rcases collecting.receive (by omega) isNew with
        ⟨complete, _⟩ | ⟨next, received, collectingNext⟩
      · omega
      · have later : ∀ part ∈ index :: stored, part < index + 1 := by
          intro part member
          rcases List.mem_cons.mp member with rfl | before
          · omega
          · have bound := earlier part before
            omega
        have rest := inductionHypothesis (index + 1) collectingNext
          (by omega) (by rw [List.length_cons, asMany]) later
          fun member => Nat.lt_irrefl _ (later (index + 1) member)
        have sameID : next.receiveID = call.sendID :=
          collectingNext.receiveID_eq
        simp only [received, ok_bind, List.range'_succ, List.map_cons,
          handlePackets, singleSlot.handle_fragment call (index + 1)
            (.inr sameID), ClientNetSession.recvbufFor, if_pos sameID,
          pure_eq_ok, bind_assoc, List.nil_append]
        simp only [pure_eq_ok] at rest
        rw [rest]

/-- Without memory for the message, its fragments are dropped. -/
theorem SingleSlot.handle_dropped
    (refused : malloc call.message.length = false) (indices : List Nat) :
    handlePackets decoder (place Recvbuf.idle) (indices.map call.fragment) =
      .ok (place Recvbuf.idle, []) := by
  induction indices with
  | nil => rfl
  | cons index indices inductionHypothesis =>
      obtain ⟨buffer, _, opened⟩ := Recvbuf.open_fragment call malloc index
      have notIdle : ¬Recvbuf.idle.receiveID = call.sendID := by
        have positive := call.sendIDPositive
        simp only [Recvbuf.idle]
        omega
      rw [refused] at opened
      simp only [List.map_cons, handlePackets,
        singleSlot.handle_fragment call index (.inl rfl),
        ClientNetSession.recvbufFor, if_neg notIdle, opened]
      simp [Recvbuf.receive_idle, inductionHypothesis]

/-- All fragments of a call, in order, deliver its message if there is memory
for it, and leave nothing behind. -/
theorem SingleSlot.handle_fragments :
    handlePackets decoder (place Recvbuf.idle)
        ((List.range call.count).map call.fragment) =
      .ok (place Recvbuf.idle,
        if malloc call.message.length then [call.message.map some]
        else []) := by
  cases served : malloc call.message.length with
  | false => exact singleSlot.handle_dropped call served _
  | true =>
      obtain ⟨left, counted⟩ : ∃ left, call.count = left + 1 :=
        ⟨call.count - 1, by have several := call.two_le_count; omega⟩
      obtain ⟨buffer, holds, opened⟩ := Recvbuf.open_fragment call malloc 0
      have notIdle : ¬Recvbuf.idle.receiveID = call.sendID := by
        have positive := call.sendIDPositive
        simp only [Recvbuf.idle]
        omega
      rw [served] at opened
      have collecting : Collecting call [] ⟨some buffer, 0, call.sendID⟩ :=
        ⟨⟨buffer, rfl, holds⟩, List.nodup_nil, by simp, by simp; omega⟩
      have rest := singleSlot.handle_rest call 0 left collecting (by omega)
        rfl (by simp)
      rw [counted, List.range_eq_range', List.range'_succ, List.map_cons]
      simp only [handlePackets, singleSlot.handle_fragment call 0 (.inl rfl),
        ClientNetSession.recvbufFor, if_neg notIdle, opened, if_true, ok_bind,
        bind_assoc, pure_eq_ok]
      simp only [pure_eq_ok] at rest
      exact rest

end Call

end Network
end Pilot2Cloud
