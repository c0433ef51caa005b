import Pilot2Cloud.Network.Lossless
import Pilot2Cloud.Network.ServerRuns

/-!
# Reassembly from datagrams

Over UDP the packets of a peer may be lost, duplicated and reordered.  A server
session counts the fragments that it puts into a receive buffer and does not
look at which they are.  As long as a fragment only joins other fragments of
its own call, the messages that the session delivers are messages that have
been sent.
-/

namespace Pilot2Cloud
namespace Network

open Foundation Words Memory

/-! ## Datagrams on their way -/

/-- Every message type is below this bound. -/
def anyType : Nat := 2 ^ 32

/-- One packet of a `Send` call, as it comes out of a socket.  `sendID` is the
id used before the call. -/
structure Datagram where
  call : SendCall
  sendID : Nat
  index : Nat
  packet : List UInt8
  valid : call.Valid anyType
  isPacket : (call.packets sendID)[index]? = some packet
  bounded : packet.length ≤ recvBufferSize

/-- A datagram arrives.  `malloc` says for which sizes a reassembly buffer can
be allocated then. -/
structure Arrival where
  datagram : Datagram
  malloc : Nat → Bool

/-- The event of the session that an arrival is. -/
def Arrival.event (peer : PeerAddress) (arrival : Arrival) : SessionEvent :=
  .onRecv peer ⟨arrival.datagram.packet, arrival.datagram.bounded⟩
    arrival.malloc

/-- Two datagrams are different fragments of one call. -/
def Datagram.Joins (datagram earlier : Datagram) : Prop :=
  earlier.call = datagram.call ∧ earlier.sendID = datagram.sendID ∧
    earlier.index ≠ datagram.index

/-- The fragments that each receive buffer has been given since it was
allocated. -/
def Given := RecvIndex → List Datagram

/-- Where a fragment goes, and whether a buffer is given up for it. -/
def ClientRecv.landing (recv : ClientRecv) (packetID : Nat) :
    RecvIndex × Bool :=
  match recv.find packetID with
  | some index => (index, false)
  | none => (recv.victim, true)

/-- What has been given to the buffers after one more fragment. -/
def Given.after
    (given : Given) (recv : ClientRecv) (datagram : Datagram) : Given :=
  fun index =>
    if index = (recv.landing (nextSendID datagram.sendID)).1 then
      if (recv.landing (nextSendID datagram.sendID)).2 then [datagram]
      else datagram :: given index
    else given index

/-- A session and what has been given to the receive buffers of one peer. -/
structure Traced where
  server : ServerState
  given : Given

/-- The fragments given to the buffers once a datagram has arrived. -/
def Traced.givenAfter
    (traced : Traced) (peer : PeerAddress) (datagram : Datagram) : Given :=
  if datagram.call.Large then
    traced.given.after (traced.server.decodeStateOf peer).recv datagram
  else traced.given

/-- The arrival of a datagram, as a step. -/
def Traced.Step
    (lastEvent : Nat) (peer : PeerAddress) (traced : Traced)
    (arrival : Arrival) (next : Traced) : Prop :=
  ServerNetSession.Step .udp lastEvent traced.server (arrival.event peer)
      next.server ∧
    next.given = traced.givenAfter peer arrival.datagram

/-- A fragment with the id of a buffer in use is another fragment of the call
that the buffer's fragments are from. -/
def Traced.Fresh
    (peer : PeerAddress) (traced : Traced) (arrival : Arrival) : Prop :=
  arrival.datagram.call.Large →
    ∀ index, (traced.server.decodeStateOf peer).recv.find
        (nextSendID arrival.datagram.sendID) = some index →
      ∀ earlier ∈ traced.given index, arrival.datagram.Joins earlier

/-- A datagram is handled without a fault, and what is delivered is a message
of one of the calls. -/
def Traced.Genuine
    (lastEvent : Nat) (peer : PeerAddress) (calls : List SendCall)
    (traced : Traced) (arrival : Arrival) : Prop :=
  ∃ next delivered,
    ServerNetSession.handleEvent .udp lastEvent traced.server
      (arrival.event peer) = .ok (next, delivered) ∧
    ∀ message ∈ delivered, ∃ call ∈ calls,
      message = (peer, call.message.map some)

/-! ## One fragment -/

/-- A datagram carries a fragment of a large message. -/
def Datagram.FragmentOf
    (call : LargeSend anyType) (datagram : Datagram) : Prop :=
  ∃ large, datagram.call.toLarge datagram.valid large datagram.sendID = call

/-- A receive buffer is idle, or it holds the fragments it has been given,
which are different fragments of one call. -/
def Recvbuf.Tracks (recvbuf : Recvbuf) (given : List Datagram) : Prop :=
  recvbuf = Recvbuf.idle ∨
    ∃ call, Collecting call (given.map Datagram.index) recvbuf ∧
      given ≠ [] ∧ ∀ datagram ∈ given, datagram.FragmentOf call

section Fragment

variable {protocol : NetProtocol} {lastEvent : Nat} {malloc : Nat → Bool}

/-- A fragment's datagram is one of the fragments of its call. -/
theorem Datagram.FragmentOf.packet_eq
    {datagram : Datagram} {call : LargeSend anyType}
    (isFragment : datagram.FragmentOf call) :
    datagram.packet = call.fragment datagram.index ∧
      datagram.index < call.count := by
  obtain ⟨large, rfl⟩ := isFragment
  have isPacket := datagram.isPacket
  rw [SendCall.packets_of_large datagram.valid large, List.getElem?_map,
    Option.map_eq_some_iff] at isPacket
  obtain ⟨index, inRange, same⟩ := isPacket
  obtain ⟨bound, value⟩ := List.getElem?_eq_some_iff.mp inRange
  rw [List.getElem_range] at value
  rw [List.length_range] at bound
  rw [← same, ← value]
  exact ⟨rfl, bound⟩

/-- A fragment that joins another one of a call is of that call. -/
theorem Datagram.FragmentOf.of_joins
    {datagram earlier : Datagram} {call : LargeSend anyType}
    (isFragment : earlier.FragmentOf call) (joins : datagram.Joins earlier) :
    datagram.FragmentOf call := by
  obtain ⟨large, rfl⟩ := isFragment
  obtain ⟨sameCall, sameID, -⟩ := joins
  refine ⟨by rw [← sameCall]; exact large, ?_⟩
  simp only [SendCall.toLarge, sameCall, sameID]

/-- What the server does with a fragment. -/
theorem ServerNetSession.handle_fragment
    (recv : ClientRecv) (call : LargeSend anyType) (index : Nat) :
    handlePacket (ServerNetSession.decoder protocol lastEvent malloc) recv
        (isSubpacket (call.fragment index)) (call.fragment index)
        (call.fragment index).length =
      (do
        let (landing, recvbuf) ← ServerNetSession.recvbufFor malloc recv
          (call.fragment index) call.sendID
        let (recvbuf, received) ← recvbuf.receive (call.fragment index)
        return (recv.set landing recvbuf, received)) := by
  have packetID := call.wordAt_packetID index []
  rw [List.append_nil] at packetID
  have idRead : readWord (call.fragment index) Field.packetID =
      .ok call.sendID := by
    rw [readWord_of_inside (by rw [call.length_fragment]; simp; omega),
      packetID]
  rw [call.isSubpacket_fragment, handlePacket, if_pos rfl]
  simp only [decoder, ServerNetSession.receiveSubpacket_eq, idRead, ok_bind]

theorem Datagram.FragmentOf.unique
    {datagram : Datagram} {call other : LargeSend anyType}
    (isFragment : datagram.FragmentOf call)
    (isOther : datagram.FragmentOf other) : other = call := by
  obtain ⟨_, rfl⟩ := isFragment
  obtain ⟨_, rfl⟩ := isOther
  rfl

theorem Datagram.FragmentOf.sendID_eq
    {datagram : Datagram} {call : LargeSend anyType}
    (isFragment : datagram.FragmentOf call) :
    nextSendID datagram.sendID = call.sendID := by
  obtain ⟨_, rfl⟩ := isFragment
  rfl

variable {recv : ClientRecv} {given : Given} {datagram : Datagram}
  {call : LargeSend anyType}

/-- Putting a buffer where a fragment lands keeps the other buffer tracked. -/
theorem Given.after_tracks
    (tracks : ∀ index, (recv.get index).Tracks (given index))
    {landing : RecvIndex × Bool}
    (lands : recv.landing (nextSendID datagram.sendID) = landing)
    {recvbuf : Recvbuf}
    (tracksHere : recvbuf.Tracks
      (if landing.2 then [datagram] else datagram :: given landing.1)) :
    ∀ index, ((recv.set landing.1 recvbuf).get index).Tracks
      (given.after recv datagram index) := by
  intro index
  rw [ClientRecv.get_set, Given.after, lands]
  by_cases here : index = landing.1
  · subst here
    rw [if_pos rfl, if_pos rfl]
    exact tracksHere
  · rw [if_neg here, if_neg here]
    exact tracks index

/-- A fragment that joins the fragments of its own call keeps every buffer
tracked, and completes no other message than its own. -/
theorem ServerNetSession.receive_fragment
    (tracks : ∀ index, (recv.get index).Tracks (given index))
    (isFragment : datagram.FragmentOf call)
    (fresh : ∀ index, recv.find (nextSendID datagram.sendID) = some index →
      ∀ earlier ∈ given index, datagram.Joins earlier) :
    ∃ next received,
      handlePacket (ServerNetSession.decoder protocol lastEvent malloc) recv
          (isSubpacket datagram.packet) datagram.packet
          datagram.packet.length = .ok (next, received) ∧
      (∀ block ∈ received, block = call.message.map some) ∧
      ∀ index,
        (next.get index).Tracks (given.after recv datagram index) := by
  obtain ⟨packet, bound⟩ := isFragment.packet_eq
  have sameID := isFragment.sendID_eq
  have positive := call.sendIDPositive
  rw [packet, handle_fragment]
  cases found : recv.find call.sendID with
  | some index =>
      have inUse := ClientRecv.receiveID_of_find found
      have lands : recv.landing (nextSendID datagram.sendID) =
          (index, false) := by
        rw [ClientRecv.landing, sameID, found]
      rcases tracks index with idle | ⟨other, collecting, nonempty, all⟩
      · rw [idle] at inUse
        simp only [Recvbuf.idle] at inUse
        omega
      · have joins := fresh index (by rw [sameID, found])
        obtain ⟨earlier, member⟩ := List.exists_mem_of_ne_nil _ nonempty
        obtain rfl : other = call := isFragment.unique
          ((all earlier member).of_joins (joins earlier member))
        have isNew : datagram.index ∉ (given index).map Datagram.index := by
          intro again
          obtain ⟨twin, twinMember, same⟩ := List.mem_map.mp again
          exact (joins twin twinMember).2.2 same
        simp only [recvbufFor, found, pure_eq_ok, ok_bind]
        rcases collecting.receive bound isNew with
          ⟨-, delivered⟩ | ⟨next, received, collectingNext⟩
        · refine ⟨_, _, by rw [delivered, ok_bind], ?_,
            Given.after_tracks tracks lands (.inl rfl)⟩
          intro block member
          exact List.mem_singleton.mp member
        · refine ⟨_, _, by rw [received, ok_bind], by simp,
            Given.after_tracks tracks lands (.inr ⟨other, ?_⟩)⟩
          refine ⟨collectingNext, List.cons_ne_nil _ _, ?_⟩
          exact List.forall_mem_cons.mpr ⟨isFragment, all⟩
  | none =>
      have lands : recv.landing (nextSendID datagram.sendID) =
          (recv.victim, true) := by
        rw [ClientRecv.landing, sameID, found]
      obtain ⟨opened, received, collecting⟩ :=
        Recvbuf.open_receive malloc call bound
      have handled : (do
          let (landing, recvbuf) ← ServerNetSession.recvbufFor malloc recv
            (call.fragment datagram.index) call.sendID
          let (recvbuf, received) ←
            recvbuf.receive (call.fragment datagram.index)
          return (recv.set landing recvbuf, received)) =
            (do
              let (recvbuf, received) ← (do
                let current ← Recvbuf.open malloc
                  (call.fragment datagram.index) call.sendID
                current.receive (call.fragment datagram.index))
              return (recv.set recv.victim recvbuf, received)) := by
        simp only [recvbufFor, found, bind_assoc, pure_bind]
      refine ⟨recv.set recv.victim
        (if malloc call.message.length then opened else Recvbuf.idle), [],
        by rw [handled, received]; rfl, by simp,
        Given.after_tracks tracks lands ?_⟩
      cases malloc call.message.length with
      | false => exact .inl rfl
      | true =>
          exact .inr ⟨call, collecting, List.cons_ne_nil _ _,
            List.forall_mem_singleton.mpr isFragment⟩

end Fragment

/-! ## One datagram -/

/-- A packet that comes alone is handled, and nothing is left of it. -/
theorem scanChunk_of_packet
    (decoder : Decoder σ) (state : DecodeState σ) {packet : List UInt8}
    (framed : WellFramed anyType packet) :
    scanChunk decoder state packet = do
      let (recv, received) ← handlePacket decoder state.recv
        (isSubpacket packet) packet packet.length
      return ⟨{ state with recv := recv, findMsghead := false }, received,
        []⟩ := by
  have complete := framed.complete
  have length := framed.declaredLen_eq
  have nonempty := List.length_pos_iff.mpr complete.ne_nil
  obtain ⟨fuel, enough⟩ := Nat.exists_eq_succ_of_ne_zero
    (Nat.pos_iff_ne_zero.mp nonempty)
  have emptied : ∀ state, scan decoder packet.length state [] =
      .ok ⟨state, [], []⟩ := by
    intro state
    rw [enough, scan_nil]
  rw [scanChunk, scan_complete complete.ne_nil complete.readFront_eq
    complete.2.1 complete.2.2]
  simp only [length, List.drop_length, emptied, ok_bind, List.append_nil]

theorem Datagram.packet_of_small
    {datagram : Datagram} (small : ¬datagram.call.Large) :
    datagram.packet = datagram.call.message := by
  have isPacket := datagram.isPacket
  rw [SendCall.packets_of_small small, List.getElem?_singleton] at isPacket
  split at isPacket
  · exact (Option.some.inj isPacket).symm
  · contradiction

/-- A datagram is a well-framed packet. -/
theorem Datagram.wellFramed (datagram : Datagram) :
    WellFramed anyType datagram.packet := by
  have limits : recvBufferSize ≤ singlePacketLenMax := by decide
  have lengthMax := datagram.bounded.trans limits
  by_cases large : datagram.call.Large
  · have isFragment : datagram.FragmentOf
        (datagram.call.toLarge datagram.valid large datagram.sendID) :=
      ⟨large, rfl⟩
    rw [isFragment.packet_eq.1] at lengthMax ⊢
    exact LargeSend.wellFramed_fragment _ _ lengthMax
  · rw [Datagram.packet_of_small large] at lengthMax ⊢
    exact datagram.valid.isMessage.wellFramed lengthMax

/-- A datagram is handled without a fault, completes no other message than its
own, and keeps every buffer tracked. -/
theorem ServerNetSession.receive_datagram
    (protocol : NetProtocol) (lastEvent : Nat) (malloc : Nat → Bool)
    {recv : ClientRecv} {given : Given} (datagram : Datagram)
    (tracks : ∀ index, (recv.get index).Tracks (given index))
    (fresh : datagram.call.Large → ∀ index,
      recv.find (nextSendID datagram.sendID) = some index →
      ∀ earlier ∈ given index, datagram.Joins earlier) :
    ∃ next received,
      handlePacket (ServerNetSession.decoder protocol lastEvent malloc) recv
          (isSubpacket datagram.packet) datagram.packet
          datagram.packet.length = .ok (next, received) ∧
      (∀ block ∈ received, block = datagram.call.message.map some) ∧
      ∀ index, (next.get index).Tracks
        ((if datagram.call.Large then given.after recv datagram
          else given) index) := by
  by_cases large : datagram.call.Large
  · rw [if_pos large]
    exact receive_fragment tracks ⟨large, rfl⟩ (fresh large)
  · have whole : read datagram.call.message 0 datagram.call.message.length =
        .ok datagram.call.message := by
      rw [read_of_inside (by omega), List.drop_zero,
        List.take_of_length_le (Nat.le_refl _)]
    rw [if_neg large, Datagram.packet_of_small large,
      datagram.valid.isMessage.isSubpacket_eq_false]
    refine ⟨recv, [datagram.call.message.map some], ?_, ?_, tracks⟩
    · simp [handlePacket, whole]
    · intro block member
      exact List.mem_singleton.mp member

/-! ## Runs -/

section Runs

variable {lastEvent : Nat} {peer : PeerAddress} {traced next : Traced}
  {arrival : Arrival}

/-- Between two datagrams nothing is pending, and the receive buffers of the
peer hold what they have been given. -/
structure Traced.Consistent (peer : PeerAddress) (traced : Traced) : Prop where
  admits : traced.server.Admits peer
  noHalf : (traced.server.decodeStateOf peer).halfpack = none
  tracks : ∀ index, ((traced.server.decodeStateOf peer).recv.get index).Tracks
    (traced.given index)

/-- A session that has received nothing. -/
def Traced.initial : Traced := ⟨ServerState.initial, fun _ => []⟩

theorem Traced.initial_consistent (peer : PeerAddress) :
    Traced.initial.Consistent peer where
  admits := fun _ => by decide
  noHalf := rfl
  tracks := fun index => by
    left
    cases index <;> rfl

/-- What the arrival of a fresh datagram does to a consistent session. -/
theorem Traced.Consistent.receive
    (lastEvent : Nat) (consistent : traced.Consistent peer)
    (fresh : traced.Fresh peer arrival) :
    ∃ server delivered,
      ServerNetSession.handleEvent .udp lastEvent traced.server
        (arrival.event peer) = .ok (server, delivered) ∧
      (∀ message ∈ delivered,
        message = (peer, arrival.datagram.call.message.map some)) ∧
      Traced.Consistent peer
        ⟨server, traced.givenAfter peer arrival.datagram⟩ := by
  obtain ⟨datagram, malloc⟩ := arrival
  obtain ⟨recv, received, handled, genuine, tracksNext⟩ :=
    ServerNetSession.receive_datagram .udp lastEvent malloc datagram
      consistent.tracks fresh
  obtain ⟨result, decoded, noHalf, sameRecv, rfl⟩ : ∃ result,
      Network.checkPacket (ServerNetSession.decoder .udp lastEvent malloc)
        (traced.server.decodeStateOf peer) datagram.packet = .ok result ∧
      result.state.halfpack = none ∧ result.state.recv = recv ∧
      result.received = received := by
    rw [Network.checkPacket, consistent.noHalf]
    exact ⟨_, (scanChunk_of_packet _ _ datagram.wellFramed).trans
      (by rw [handled]; rfl), consistent.noHalf, rfl, rfl⟩
  obtain ⟨server, received, own, admits, -⟩ :=
    ServerNetSession.handle_recv ⟨datagram.packet, datagram.bounded⟩
      consistent.admits decoded
  refine ⟨server, _, received, ?_, admits, ?_, ?_⟩
  · intro message member
    obtain ⟨block, inReceived, rfl⟩ := List.mem_map.mp member
    rw [genuine block inReceived]
  · rw [own, noHalf]
  · rw [own, sameRecv]
    exact tracksNext

/-- Of any datagrams that arrive in any order, any number of times: as long as
a fragment only joins other fragments of its own call in a receive buffer, no
datagram causes a fault and every message that is delivered is one of those
sent. -/
theorem udp_genuine_of_fresh
    (lastEvent : Nat) (peer : PeerAddress) (arrivals : List Arrival)
    (fresh : Along (Traced.Step lastEvent peer) (Traced.Fresh peer)
      Traced.initial arrivals) :
    Along (Traced.Step lastEvent peer)
      (Traced.Genuine lastEvent peer
        (arrivals.map fun arrival => arrival.datagram.call))
      Traced.initial arrivals := by
  have members : ∀ arrival ∈ arrivals, arrival.datagram.call ∈
      arrivals.map fun arrival => arrival.datagram.call :=
    fun arrival member => List.mem_map_of_mem member
  refine Along.of_invariant ?_ ?_ (Traced.initial_consistent peer)
    (fresh.and_forall_mem members)
  · rintro traced arrival ⟨server, given⟩ consistent ⟨freshHere, -⟩
      ⟨⟨delivered, step⟩, rfl⟩
    obtain ⟨next, _, handled, -, consistentNext⟩ :=
      consistent.receive lastEvent freshHere
    rw [handled] at step
    obtain ⟨rfl, -⟩ := Prod.mk.inj (Except.ok.inj step)
    exact consistentNext
  · rintro traced arrival consistent ⟨freshHere, member⟩
    obtain ⟨next, delivered, handled, genuine, -⟩ :=
      consistent.receive lastEvent freshHere
    exact ⟨next, delivered, handled, fun message inDelivered =>
      ⟨_, member, genuine message inDelivered⟩⟩

end Runs

/-! ## Two fragments -/

theorem twoFragments_valid_anyType (content : UInt8) :
    (twoFragments content).Valid anyType where
  isMessage := (twoFragments_valid content).isMessage.mono (by decide)
  stepPositive := (twoFragments_valid content).stepPositive

/-- A fragment of a message that has two, under the first id. -/
def fragmentDatagram (index : Fin 2) : Datagram where
  call := twoFragments 1
  sendID := 0
  index := index
  packet := ((twoFragments 1).packets 0).getD index []
  valid := twoFragments_valid_anyType 1
  isPacket := by
    revert index
    decide
  bounded := by
    revert index
    decide

/-- It arrives when there is memory. -/
def fragmentArrival (index : Fin 2) : Arrival :=
  ⟨fragmentDatagram index, fun _ => true⟩

/-- The second fragment before the first. -/
theorem udp_genuine_of_reordered :
    Along (Traced.Step 1 ⟨"10.0.0.2", 40000⟩)
      (Traced.Genuine 1 ⟨"10.0.0.2", 40000⟩ [twoFragments 1, twoFragments 1])
      Traced.initial [fragmentArrival 1, fragmentArrival 0] := by
  refine udp_genuine_of_fresh 1 ⟨"10.0.0.2", 40000⟩
    [fragmentArrival 1, fragmentArrival 0] ⟨?_, ?_⟩
  · intro _ index found
    contradiction
  · rintro next ⟨-, given⟩
    refine ⟨?_, fun _ _ => trivial⟩
    intro _ index _ earlier member
    rw [given] at member
    have same : earlier = fragmentDatagram 1 := by
      cases index with
      | first => exact absurd member List.not_mem_nil
      | second => exact List.mem_singleton.mp member
    subst same
    exact ⟨rfl, rfl, by decide⟩

/-- The first fragment twice: a message is delivered of which the second half
was never written. -/
theorem not_udp_genuine_of_duplicate :
    ¬Along (Traced.Step 1 ⟨"10.0.0.2", 40000⟩)
      (Traced.Genuine 1 ⟨"10.0.0.2", 40000⟩ [twoFragments 1, twoFragments 1])
      Traced.initial [fragmentArrival 0, fragmentArrival 0] := by
  rintro ⟨⟨first, early, handledFirst, genuineFirst⟩, later⟩
  have step : Traced.Step 1 ⟨"10.0.0.2", 40000⟩ Traced.initial
      (fragmentArrival 0) ⟨first, Traced.initial.givenAfter
        ⟨"10.0.0.2", 40000⟩ (fragmentDatagram 0)⟩ :=
    ⟨⟨early, handledFirst⟩, rfl⟩
  obtain ⟨second, late, handledSecond, genuineSecond⟩ := (later _ step).1
  have unwritten : (ServerNetSession.run .udp 1 Traced.initial.server
      [(fragmentArrival 0).event ⟨"10.0.0.2", 40000⟩,
        (fragmentArrival 0).event ⟨"10.0.0.2", 40000⟩]).map
      (fun outcome => outcome.2.map fun message => message.2.contains none) =
        .ok [true] := by
    decide
  simp only [ServerNetSession.run, handledFirst, handledSecond, ok_bind,
    pure_eq_ok, List.append_nil] at unwritten
  obtain ⟨message, rest, both, hole, -⟩ :=
    List.map_eq_cons_iff.mp (Except.ok.inj unwritten)
  have member : message ∈ early ++ late :=
    List.mem_of_mem_head? (by rw [show early ++ late = _ from both]; rfl)
  obtain ⟨call, -, rfl⟩ := (List.mem_append.mp member).elim
    (genuineFirst message) (genuineSecond message)
  simp at hole

end Network
end Pilot2Cloud
