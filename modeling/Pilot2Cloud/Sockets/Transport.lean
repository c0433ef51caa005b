import Pilot2Cloud.Network.Lossless
import Pilot2Cloud.Sockets.TcpSending

/-!
# Messages from one end to the other

A session cuts its messages into packets and hands them to its socket, the
socket passes them on as far as the kernel takes them, and the session on the
other end decodes what it has read of the connection.  These steps are taken in
any order.  What has been received is always a first part of what was sent, and
it is all of it once the connection has nothing left.
-/

namespace Pilot2Cloud
namespace Sockets

open Foundation Memory Network SendBuffer

/-- The packets of a message go to the socket one after the other, until one is
refused. -/
def TcpSocket.sendPackets (answers : List UInt8 → List SendAnswer) :
    TcpSocket → List (List UInt8) → Except Fault (TcpSocket × Bool)
  | socket, [] => .ok (socket, true)
  | socket, packet :: packets => do
      let (next, isSent, _) ← socket.sendData packet (answers packet)
      if isSent then next.sendPackets answers packets
      else return (next, false)

/-! ## Handing packets to the socket -/

variable {socket after : TcpSocket} {capacity : Nat} {left : List UInt8}

/-- A call that sends data accepts all of it or none, and none only if it
fails. -/
theorem TcpSocket.Keeps.of_sendData (keeps : socket.Keeps capacity left)
    {data : List UInt8} {answers unread : List SendAnswer} {result : Bool}
    (sent : socket.sendData data answers = .ok (after, result, unread)) :
    (∃ rest, after.Keeps capacity rest) ∧
      socket.session.released <+: after.session.released ∧
      (after.session.accepted = socket.session.accepted ++ data ∨
        result = false ∧
          after.session.accepted = socket.session.accepted) := by
  have performed :
      socket.perform (.sendData data answers) = .ok (after, result, unread) :=
    sent
  obtain ⟨other, same, others, isOther, next, -⟩ :=
    keeps.exists_sendData data answers
  rw [performed] at isOther
  obtain ⟨rfl, -⟩ := Prod.mk.inj (Except.ok.inj isOther)
  refine ⟨next, ?_⟩
  rw [sendData] at sent
  obtain ⟨-, refused⟩ | ⟨-, buf, write, added, -⟩ := keeps.holds.bytes.add data
  · rw [refused] at sent
    obtain ⟨rfl, both⟩ := Prod.mk.inj (Except.ok.inj sent)
    exact ⟨List.prefix_rfl, .inr ⟨(Prod.mk.inj both).1.symm, rfl⟩⟩
  have step : socket.session.Step (.add data) { socket.session with
      buffer := socket.session.buffer.advance buf write data.length
      accepted := socket.session.accepted ++ data } := by
    refine ⟨trivial, ?_⟩
    rw [TcpSession.perform, added]
    rfl
  obtain ⟨rest, holdsNext⟩ := keeps.holds.step step
  rw [added] at sent
  cases empty : socket.isEmpty with
  | false =>
      simp only [ok_bind, empty] at sent
      obtain ⟨rfl, -⟩ := Prod.mk.inj (Except.ok.inj sent)
      exact ⟨List.prefix_rfl, .inl rfl⟩
  | true =>
      simp only [ok_bind, empty] at sent
      obtain ⟨last, same, others, isLast, -, continues, -⟩ :=
        @exists_send { socket with session := _ } capacity rest holdsNext
          (keeps.disarmed_of_isEmpty empty) answers
      obtain ⟨rfl, -⟩ := Prod.mk.inj (Except.ok.inj (isLast.symm.trans sent))
      exact ⟨continues.released, .inl continues.accepted⟩

/-- A call that hands over packets accepts all of them, or a part if it
fails. -/
theorem TcpSocket.Keeps.of_sendPackets (keeps : socket.Keeps capacity left)
    {packets : List (List UInt8)} {answers : List UInt8 → List SendAnswer}
    {result : Bool}
    (sent : socket.sendPackets answers packets = .ok (after, result)) :
    (∃ rest, after.Keeps capacity rest) ∧
      socket.session.released <+: after.session.released ∧
      socket.session.accepted <+: after.session.accepted ∧
      (result = true → after.session.accepted =
        socket.session.accepted ++ packets.flatten) := by
  induction packets generalizing socket left with
  | nil =>
      obtain ⟨rfl, -⟩ := Prod.mk.inj (Except.ok.inj sent)
      refine ⟨⟨left, keeps⟩, List.prefix_rfl, List.prefix_rfl, ?_⟩
      intro _
      exact (List.append_nil _).symm
  | cons packet packets inductionHypothesis =>
      obtain ⟨⟨next, isSent, unread⟩, here, later⟩ := bind_eq_ok_iff.mp sent
      obtain ⟨⟨rest, keepsNext⟩, released, accepted⟩ := keeps.of_sendData here
      have grows : socket.session.accepted <+: next.session.accepted := by
        obtain isMore | ⟨-, same⟩ := accepted
        · exact ⟨packet, isMore.symm⟩
        · exact ⟨[], (List.append_nil _).trans same.symm⟩
      cases isSent with
      | false =>
          obtain ⟨rfl, failed⟩ := Prod.mk.inj (Except.ok.inj later)
          refine ⟨⟨rest, keepsNext⟩, released, grows, ?_⟩
          intro success
          rw [← failed] at success
          contradiction
      | true =>
          obtain ⟨keepsAfter, releasedLater, growsLater, all⟩ :=
            inductionHypothesis keepsNext later
          refine ⟨keepsAfter, released.trans releasedLater,
            grows.trans growsLater, ?_⟩
          intro success
          have isMore := accepted.resolve_right fun refused =>
            Bool.noConfusion refused.1
          rw [all success, isMore, List.append_assoc, List.flatten_cons]

/-! ## Connections -/

/-- The two ends of a connection, with what was sent and received. -/
structure Connection (σ : Type) where
  sender : SendSession
  socket : TcpSocket
  /-- A call has failed after the socket had taken a part of its message. -/
  isCut : Bool
  calls : List SendCall
  packets : List (List UInt8)
  receiver : DecodeState σ
  /-- How many bytes the receiving end has read. -/
  taken : Nat
  received : List Block

namespace Connection

variable {σ : Type}

/-- Nothing has been sent. -/
def initial (capacity : Nat) (recv : σ) : Connection σ where
  sender := ⟨.packetHead, 0⟩
  socket := .initial capacity
  isCut := false
  calls := []
  packets := []
  receiver := ⟨none, recv, false⟩
  taken := 0
  received := []

/-- The bytes on the connection that have not been read. -/
def unread (connection : Connection σ) : Block :=
  connection.socket.session.released.drop connection.taken

/-- A message is sent, an `EPOLLOUT` event arrives at the sending end, or the
other end reads some bytes. -/
inductive Label
  | send (call : SendCall) (answers : List UInt8 → List SendAnswer)
  | epollOut (answers : List SendAnswer)
  | receive (chunk : List UInt8)

/-- One step of a connection. -/
inductive Step (decoder : Decoder σ) :
    Connection σ → Label → Connection σ → Prop
  | sent {connection call answers sender outcome socket}
      (handed : sendMessage openConnection connection.sender call.message
        call.packetMaxLen call.padding = .ok (sender, outcome))
      (accepted : connection.socket.sendPackets answers outcome.written =
        .ok (socket, true)) :
      Step decoder connection (.send call answers)
        { connection with
          sender := sender
          socket := socket
          calls := connection.calls ++ [call]
          packets := connection.packets ++ outcome.written }
  | refused {connection call answers sender outcome socket}
      (handed : sendMessage openConnection connection.sender call.message
        call.packetMaxLen call.padding = .ok (sender, outcome))
      (refused : connection.socket.sendPackets answers outcome.written =
        .ok (socket, false)) :
      Step decoder connection (.send call answers)
        { connection with
          sender := sender
          socket := socket
          isCut := connection.isCut ||
            socket.session.accepted.length !=
              connection.socket.session.accepted.length }
  | epollOut {connection answers socket result unread}
      (performed : connection.socket.perform (.epollOut answers) =
        .ok (socket, result, unread)) :
      Step decoder connection (.epollOut answers)
        { connection with socket := socket }
  | receive {connection chunk result}
      (arrived : chunk.map some <+: connection.unread)
      (bounded : chunk.length ≤ recvBufferSize)
      (checked : checkPacket decoder connection.receiver chunk = .ok result) :
      Step decoder connection (.receive chunk)
        { connection with
          receiver := result.state
          taken := connection.taken + chunk.length
          received := connection.received ++ result.received }

/-- A message that `Send` accepts, with packets that the other end accepts and
memory to reassemble it. -/
def Label.Valid (lastEvent : Nat) (malloc : Nat → Bool) : Label → Prop
  | .send call _ =>
      call.Valid lastEvent ∧
        min call.packetMaxLen call.message.length ≤ singlePacketLenMax ∧
        (call.Large → malloc call.message.length)
  | _ => True

/-! ## Packets -/

theorem length_packet_le {lastEvent sendID : Nat} {call : SendCall}
    (valid : call.Valid lastEvent) {packet : List UInt8}
    (member : packet ∈ call.packets sendID) :
    packet.length ≤ min call.packetMaxLen call.message.length := by
  by_cases large : call.Large
  · rw [SendCall.packets_of_large valid large] at member
    obtain ⟨index, -, rfl⟩ := List.mem_map.mp member
    have step : (call.toLarge valid large sendID).step =
      call.packetMaxLen - 40 := rfl
    have room : 40 < call.packetMaxLen := valid.stepPositive
    rw [LargeSend.length_fragment, LargeSend.length_payload, step,
      Nat.min_eq_left large.le]
    omega
  · rw [SendCall.packets_of_small large, List.mem_singleton] at member
    rw [member, Nat.min_eq_right (Nat.not_lt.mp large)]

/-- Packets that come later change nothing about what has been taken in. -/
theorem consumed_append {decoder : Decoder σ} {recv : σ}
    {packets : List (List UInt8)} {data : List UInt8} {state : DecodeState σ}
    {received : List Block}
    (consumed : Consumed decoder recv packets data state received)
    (more : List (List UInt8)) :
    Consumed decoder recv (packets ++ more) data state received := by
  obtain ⟨halfpack, middle, findMsghead⟩ := state
  obtain ⟨done, rest, front, rfl, rfl, pending, noSearch, handled⟩ := consumed
  refine ⟨done, rest ++ more, front, List.append_assoc _ _ _, rfl, ?_, noSearch,
    handled⟩
  cases pending with
  | none => exact .none
  | some half isPrefix short sized => exact .some half isPrefix short sized

/-! ## What a connection has carried -/

/-- What has been accepted are the packets of the messages, and the receiving
end has taken in what it has read of them. -/
structure Carries (decoder : Decoder σ) (start : σ) (capacity : Nat)
    (left : List UInt8) (connection : Connection σ) : Prop where
  keeps : connection.socket.Keeps capacity left
  packetMode : connection.sender.sessionmode = .packetHead
  accepted : connection.socket.session.accepted = connection.packets.flatten
  framed : ∀ packet ∈ connection.packets, WellFramed decoder.lastEvent packet
  handled : handlePackets decoder start connection.packets =
    .ok (start, connection.calls.map fun call => call.message.map some)
  taken : connection.taken ≤ connection.socket.session.released.length
  consumed : Consumed decoder start connection.packets
    (connection.socket.session.accepted.take connection.taken)
    connection.receiver connection.received

variable {decoder : Decoder σ} {start : σ} {connection next : Connection σ}

theorem Carries.initial (decoder : Decoder σ) (start : σ) (capacity : Nat) :
    (initial capacity start).Carries decoder start capacity [] where
  keeps := .initial capacity
  packetMode := rfl
  accepted := rfl
  framed := by simp [Connection.initial]
  handled := rfl
  taken := Nat.zero_le _
  consumed := ⟨[], [], [], rfl, rfl, .none, rfl, rfl⟩

namespace Carries

variable (carries : connection.Carries decoder start capacity left)

include carries

theorem released_prefix :
    connection.socket.session.released <+:
      connection.socket.session.accepted.map some :=
  ⟨left.map some, carries.keeps.holds.order.symm⟩

theorem taken_le_accepted :
    connection.taken ≤ connection.socket.session.accepted.length := by
  have length := carries.released_prefix.length_le
  rw [List.length_map] at length
  exact carries.taken.trans length

@[simp] theorem length_data :
    (connection.socket.session.accepted.take connection.taken).length =
      connection.taken :=
  List.length_take_of_le carries.taken_le_accepted

/-- A chunk that is read is the next part of what was accepted. -/
theorem chunk_prefix {chunk : List UInt8}
    (arrived : chunk.map some <+: connection.unread) :
    chunk <+: connection.socket.session.accepted.drop connection.taken := by
  have inside := arrived.trans (carries.released_prefix.drop connection.taken)
  rw [← List.map_drop] at inside
  exact (List.prefix_map_iff_of_injective (Option.some_injective _)).mp inside

theorem stream {chunk : List UInt8}
    (arrived : chunk.map some <+: connection.unread) :
    connection.socket.session.accepted.take connection.taken ++ chunk <+:
      connection.packets.flatten := by
  rw [← carries.accepted]
  conv_rhs => rw [← List.take_append_drop connection.taken
    connection.socket.session.accepted]
  rw [List.prefix_append_right_inj]
  exact carries.chunk_prefix arrived

/-- What was received is a first part of what was sent. -/
theorem order :
    connection.received <+:
      connection.calls.map fun call => call.message.map some := by
  obtain ⟨done, rest, front, split, -, -, -, handledDone⟩ := carries.consumed
  have handled := carries.handled
  rw [split] at handled
  obtain ⟨middle, early, late, isEarly, -, all⟩ :=
    handlePackets_append_iff.mp handled
  rw [handledDone] at isEarly
  obtain ⟨-, rfl⟩ := Prod.mk.inj (Except.ok.inj isEarly)
  exact ⟨late, all.symm⟩

/-- It is all of it once nothing is left. -/
theorem complete
    (everything : connection.taken =
      connection.socket.session.accepted.length) :
    connection.received =
      connection.calls.map fun call => call.message.map some := by
  have consumed := carries.consumed
  rw [everything, List.take_length, carries.accepted] at consumed
  exact (consumed.finished carries.framed carries.handled).2

/-- Without reading past its end a chunk can be decoded exactly if it reaches the
length members of the packet that it continues. -/
theorem exists_checked_iff (tcp : decoder.protocol = .tcp)
    (readsOnlyPacket : decoder.ReadsOnlyPacket) {chunk : List UInt8}
    (arrived : chunk.map some <+: connection.unread)
    (bounded : chunk.length ≤ recvBufferSize) :
    (∃ result, checkPacket decoder connection.receiver chunk = .ok result) ↔
      HeadArrives connection.packets (connection.taken, chunk) := by
  have stream := carries.stream arrived
  constructor
  · rintro ⟨result, checked⟩
    by_contra fallsShort
    rw [← carries.length_data] at fallsShort
    have failed := checkPacket_of_not_headArrives carries.framed
      carries.consumed stream fallsShort
    rw [checked] at failed
    contradiction
  · intro arrives
    rw [← carries.length_data] at arrives
    obtain ⟨result, checked, -⟩ := checkPacket_consumed tcp readsOnlyPacket
      carries.framed carries.handled carries.consumed stream bounded arrives
    exact ⟨result, checked⟩

/-- A message whose packets were handed over. -/
theorem sent {lastEvent : Nat} {malloc : Nat → Bool} {place : Recvbuf → σ}
    (isStart : start = place Recvbuf.idle)
    (types : decoder.lastEvent = lastEvent)
    (singleSlot : SingleSlot decoder malloc place) {call : SendCall}
    {answers : List UInt8 → List SendAnswer}
    (valid : (Label.send call answers).Valid lastEvent malloc)
    {sender : SendSession} {outcome : SendOutcome} {socket : TcpSocket}
    (handed : sendMessage openConnection connection.sender call.message
      call.packetMaxLen call.padding = .ok (sender, outcome))
    (accepted : connection.socket.sendPackets answers outcome.written =
      .ok (socket, true)) :
    ∃ left, Carries decoder start capacity left { connection with
      sender := sender
      socket := socket
      calls := connection.calls ++ [call]
      packets := connection.packets ++ outcome.written } := by
  subst isStart types
  obtain ⟨valid, lengthMax, served⟩ := valid
  obtain ⟨⟨rest, keeps⟩, released, -, all⟩ :=
    carries.keeps.of_sendPackets accepted
  have isMore := all rfl
  rw [sendMessage_of_valid openConnection_accepting carries.packetMode valid]
    at handed
  split at handed
  case isFalse => contradiction
  obtain ⟨rfl, rfl⟩ := Prod.mk.inj (Except.ok.inj handed)
  refine ⟨rest, ?_⟩
  exact
    { keeps := keeps
      packetMode := carries.packetMode
      accepted := by
        rw [isMore, carries.accepted, List.flatten_append]
      framed := by
        rw [List.forall_mem_append]
        refine ⟨carries.framed, ?_⟩
        apply SendCall.wellFramed valid
        intro packet member
        exact (length_packet_le valid member).trans lengthMax
      handled := by
        refine handlePackets_append_iff.mpr ⟨_, _, _, carries.handled,
          singleSlot.handle_packets valid connection.sender.sendID, ?_⟩
        rw [SendCall.delivered, if_pos served, List.map_append]
        rfl
      taken := carries.taken.trans released.length_le
      consumed := by
        rw [isMore, List.take_append_of_le_length carries.taken_le_accepted]
        exact consumed_append carries.consumed _ }

/-- A chunk that was read and taken in. -/
theorem takes {chunk : List UInt8}
    (arrived : chunk.map some <+: connection.unread)
    {result : CheckResult σ}
    (consumed : Consumed decoder start connection.packets
      (connection.socket.session.accepted.take connection.taken ++ chunk)
      result.state (connection.received ++ result.received)) :
    Carries decoder start capacity left { connection with
      receiver := result.state
      taken := connection.taken + chunk.length
      received := connection.received ++ result.received } where
  keeps := carries.keeps
  packetMode := carries.packetMode
  accepted := carries.accepted
  framed := carries.framed
  handled := carries.handled
  taken := by
    have length := arrived.length_le
    have inside := carries.taken
    rw [unread, List.length_drop, List.length_map] at length
    show connection.taken + chunk.length ≤
      connection.socket.session.released.length
    omega
  consumed := by
    have front :=
      List.prefix_iff_eq_take.mp (carries.chunk_prefix arrived)
    show Consumed decoder start connection.packets
      (connection.socket.session.accepted.take
        (connection.taken + chunk.length)) _ _
    rw [List.take_add, ← front]
    exact consumed

/-- The chunk that was read. -/
theorem receive (tcp : decoder.protocol = .tcp)
    (readsOnlyPacket : decoder.ReadsOnlyPacket) {chunk : List UInt8}
    (arrived : chunk.map some <+: connection.unread)
    (bounded : chunk.length ≤ recvBufferSize) {result : CheckResult σ}
    (checked : checkPacket decoder connection.receiver chunk = .ok result) :
    Carries decoder start capacity left { connection with
      receiver := result.state
      taken := connection.taken + chunk.length
      received := connection.received ++ result.received } := by
  have arrives :=
    (carries.exists_checked_iff tcp readsOnlyPacket arrived bounded).mp
      ⟨result, checked⟩
  rw [← carries.length_data] at arrives
  obtain ⟨other, isOther, consumed⟩ := checkPacket_consumed tcp
    readsOnlyPacket carries.framed carries.handled carries.consumed
    (carries.stream arrived) bounded arrives
  rw [checked] at isOther
  obtain rfl := Except.ok.inj isOther
  exact carries.takes arrived consumed

/-- The chunk that was received into a buffer, if a length is read for it that
does no harm. -/
theorem exists_receiveOnBuffer (tcp : decoder.protocol = .tcp)
    (readsOnlyPacket : decoder.ReadsOnlyPacket)
    {buffer chunk : List UInt8} (size : buffer.length = recvBufferSize)
    (arrived : chunk.map some <+: connection.unread)
    (bounded : chunk.length ≤ recvBufferSize)
    (reads : HeadRead connection.packets (refill buffer chunk)
      (connection.taken, chunk)) :
    ∃ result, checkPacketOnBuffer decoder connection.receiver
        (refill buffer chunk) chunk = .ok result ∧
      Carries decoder start capacity left { connection with
        receiver := result.state
        taken := connection.taken + chunk.length
        received := connection.received ++ result.received } := by
  rw [← carries.length_data] at reads
  obtain ⟨result, checked, consumed⟩ := checkPacketOnBuffer_consumed
    carries.framed carries.consumed (carries.stream arrived) bounded tcp
    readsOnlyPacket carries.handled size reads
  exact ⟨result, checked, carries.takes arrived consumed⟩

/-- An event that lets the socket go on. -/
theorem epollOut {answers unread : List SendAnswer} {socket : TcpSocket}
    {result : Bool}
    (performed : connection.socket.perform (.epollOut answers) =
      .ok (socket, result, unread)) :
    ∃ left, Carries decoder start capacity left
      { connection with socket := socket } := by
  have sent : { connection.socket with isArmed := false }.send answers =
    .ok (socket, result, unread) := performed
  obtain ⟨other, same, others, isOther, ⟨rest, keeps⟩, continues, -⟩ :=
    @TcpSocket.exists_send { connection.socket with isArmed := false } capacity
      left carries.keeps.holds rfl answers
  obtain ⟨rfl, -⟩ := Prod.mk.inj (Except.ok.inj (isOther.symm.trans sent))
  have accepted : other.session.accepted =
    connection.socket.session.accepted := continues.accepted
  refine ⟨rest, ?_⟩
  exact
    { keeps := keeps
      packetMode := carries.packetMode
      accepted := accepted.trans carries.accepted
      framed := carries.framed
      handled := carries.handled
      taken := carries.taken.trans continues.released.length_le
      consumed := by
        rw [accepted]
        exact carries.consumed }

/-- A call that failed before the socket had taken a part of its message. -/
theorem refused {lastEvent : Nat} {call : SendCall}
    (valid : call.Valid lastEvent) {answers : List UInt8 → List SendAnswer}
    {sender : SendSession} {outcome : SendOutcome} {socket : TcpSocket}
    (handed : sendMessage openConnection connection.sender call.message
      call.packetMaxLen call.padding = .ok (sender, outcome))
    (refused : connection.socket.sendPackets answers outcome.written =
      .ok (socket, false))
    (same : socket.session.accepted.length =
      connection.socket.session.accepted.length) :
    ∃ left, Carries decoder start capacity left
      { connection with sender := sender, socket := socket } := by
  obtain ⟨⟨rest, keeps⟩, released, grows, -⟩ :=
    carries.keeps.of_sendPackets refused
  have accepted := grows.eq_of_length same.symm
  rw [sendMessage_of_valid openConnection_accepting carries.packetMode valid]
    at handed
  split at handed
  case isFalse => contradiction
  obtain ⟨rfl, rfl⟩ := Prod.mk.inj (Except.ok.inj handed)
  refine ⟨rest, ?_⟩
  exact
    { keeps := keeps
      packetMode := carries.packetMode
      accepted := accepted.symm.trans carries.accepted
      framed := carries.framed
      handled := carries.handled
      taken := carries.taken.trans released.length_le
      consumed := by
        rw [← accepted]
        exact carries.consumed }

/-- As many bytes as the receive buffer takes reach the length members of the
packet that they continue. -/
theorem headArrives_take :
    HeadArrives connection.packets (connection.taken,
      (connection.socket.session.accepted.drop connection.taken).take
        recvBufferSize) := by
  intro packet member starts _
  have framed := carries.framed _ (mem_of_mem_segments member)
  have inside := framed.headBytes_le
  have ends := end_le_of_mem_segments member
  have short : headBytes packet.2 ≤ recvBufferSize := by
    unfold headBytes recvBufferSize
    split <;> omega
  rw [Nat.zero_add, ← carries.accepted] at ends
  rw [List.length_take, List.length_drop]
  dsimp only at starts ⊢
  omega

/-- Once everything has been sent, all of it can be received. -/
theorem exists_received (tcp : decoder.protocol = .tcp)
    (readsOnlyPacket : decoder.ReadsOnlyPacket)
    (sentAll : connection.socket.session.released =
      connection.socket.session.accepted.map some) :
    ∃ later after, Run (Step decoder) connection later after ∧
      after.calls = connection.calls ∧
      after.received =
        connection.calls.map fun call => call.message.map some := by
  generalize size :
    connection.socket.session.accepted.length - connection.taken = count
  induction count using Nat.strong_induction_on generalizing connection with
  | _ count inductionHypothesis =>
      by_cases finished :
          connection.taken = connection.socket.session.accepted.length
      · exact ⟨[], connection, .nil connection, rfl,
          carries.complete finished⟩
      let chunk :=
        (connection.socket.session.accepted.drop connection.taken).take
          recvBufferSize
      have bounded : chunk.length ≤ recvBufferSize := List.length_take_le _ _
      have arrived : chunk.map some <+: connection.unread := by
        rw [unread, sentAll, ← List.map_drop]
        exact (List.take_prefix _ _).map some
      obtain ⟨result, checked⟩ :=
        (carries.exists_checked_iff tcp readsOnlyPacket arrived bounded).mpr
          carries.headArrives_take
      have next := carries.receive tcp readsOnlyPacket arrived bounded checked
      have less : connection.socket.session.accepted.length -
          (connection.taken + chunk.length) < count := by
        have length : chunk.length = min recvBufferSize
            (connection.socket.session.accepted.length - connection.taken) := by
          rw [List.length_take, List.length_drop]
        have inside := carries.taken_le_accepted
        unfold recvBufferSize at length
        omega
      obtain ⟨later, after, run, calls, received⟩ :=
        inductionHypothesis _ less next sentAll rfl
      exact ⟨.receive chunk :: later, after,
        .cons (.receive arrived bounded checked) run, calls, received⟩

/-- While the bytes of an open socket flow, everything can be received. -/
theorem exists_delivered (tcp : decoder.protocol = .tcp)
    (readsOnlyPacket : decoder.ReadsOnlyPacket)
    (isOpen : connection.socket.isOpen = true)
    (flows : connection.socket.session.Flows) :
    ∃ later after, Run (Step decoder) connection later after ∧
      after.calls = connection.calls ∧
      after.received =
        connection.calls.map fun call => call.message.map some := by
  obtain ⟨answers, socket, sent, drained, accepted⟩ :=
    @TcpSocket.exists_drained { connection.socket with isArmed := false }
      capacity left carries.keeps.holds flows isOpen
  have performed : connection.socket.perform (.epollOut answers) =
    .ok (socket, true, []) := sent
  obtain ⟨rest, next⟩ := carries.epollOut performed
  have sentAll := drained.order
  rw [List.map_nil, List.append_nil] at sentAll
  obtain ⟨later, after, run, calls, received⟩ :=
    next.exists_received tcp readsOnlyPacket sentAll.symm
  exact ⟨.epollOut answers :: later, after, .cons (.epollOut performed) run,
    calls, received⟩

end Carries

/-! ## Runs -/

/-- A message that was cut stays so. -/
theorem Step.isCut_eq_false {label : Label}
    (step : connection.Step decoder label next) (whole : next.isCut = false) :
    connection.isCut = false := by
  cases step with
  | refused => exact (Bool.or_eq_false_iff.mp whole).1
  | _ => exact whole

section Decoders

variable {lastEvent : Nat} {malloc : Nat → Bool} {place : Recvbuf → σ}
  (tcp : decoder.protocol = .tcp) (types : decoder.lastEvent = lastEvent)
  (readsOnlyPacket : decoder.ReadsOnlyPacket)
  (singleSlot : SingleSlot decoder malloc place)

include tcp types readsOnlyPacket singleSlot

/-- Every step carries on what has been sent, unless a message is cut. -/
theorem Carries.step {label : Label}
    (carries : connection.Carries decoder (place Recvbuf.idle) capacity left)
    (valid : label.Valid lastEvent malloc)
    (step : connection.Step decoder label next) (whole : next.isCut = false) :
    ∃ left, next.Carries decoder (place Recvbuf.idle) capacity left := by
  cases step with
  | sent handed accepted =>
      exact carries.sent rfl types singleSlot valid handed accepted
  | refused handed refused =>
      rw [Bool.or_eq_false_iff, bne_eq_false_iff_eq] at whole
      obtain ⟨rest, carries⟩ := carries.refused valid.1 handed refused whole.2
      exact ⟨rest, carries.keeps, carries.packetMode, carries.accepted,
        carries.framed, carries.handled, carries.taken, carries.consumed⟩
  | epollOut performed => exact carries.epollOut performed
  | receive arrived bounded checked =>
      exact ⟨left, carries.receive tcp readsOnlyPacket arrived bounded checked⟩

theorem exists_carries_of_run {labels : List Label}
    (run : Run (Step decoder) (initial capacity (place Recvbuf.idle)) labels
      connection)
    (valid : ∀ label ∈ labels, label.Valid lastEvent malloc)
    (whole : connection.isCut = false) :
    ∃ left, connection.Carries decoder (place Recvbuf.idle) capacity left := by
  have kept : ∀ (state : Connection σ) label next, (state.isCut = false →
        ∃ left, state.Carries decoder (place Recvbuf.idle) capacity left) →
      label.Valid lastEvent malloc → state.Step decoder label next →
        next.isCut = false →
          ∃ left, next.Carries decoder (place Recvbuf.idle) capacity left := by
    intro state label next carries valid step whole
    obtain ⟨left, carries⟩ := carries (step.isCut_eq_false whole)
    exact carries.step tcp types readsOnlyPacket singleSlot valid step whole
  exact run.preserves_of_forall_mem kept valid
    (fun _ => ⟨[], .initial decoder _ capacity⟩) whole

end Decoders

/-- While the socket is open and its bytes flow, the connection can go on until
all messages have been received. -/
theorem exists_all_received (lastEvent : Nat) (malloc : Nat → Bool)
    (capacity : Nat) {labels : List Label}
    (valid : ∀ label ∈ labels, label.Valid lastEvent malloc) :
    (∀ connection,
      Run (Step (ServerNetSession.decoder .tcp lastEvent malloc))
          (initial capacity ClientRecv.idle) labels connection →
        connection.isCut = false → connection.socket.isOpen = true →
          connection.socket.session.Flows →
            ∃ later after,
              Run (Step (ServerNetSession.decoder .tcp lastEvent malloc))
                connection later after ∧
              after.calls = connection.calls ∧
              after.received =
                connection.calls.map fun call => call.message.map some) ∧
    ∀ connection,
      Run (Step (ClientNetSession.decoder .tcp lastEvent malloc))
          (initial capacity Recvbuf.idle) labels connection →
        connection.isCut = false → connection.socket.isOpen = true →
          connection.socket.session.Flows →
            ∃ later after,
              Run (Step (ClientNetSession.decoder .tcp lastEvent malloc))
                connection later after ∧
              after.calls = connection.calls ∧
              after.received =
                connection.calls.map fun call => call.message.map some := by
  constructor
  · intro connection run whole isOpen flows
    have readsOnlyPacket :=
      ServerNetSession.decoder_readsOnlyPacket .tcp lastEvent malloc
    obtain ⟨left, carries⟩ := exists_carries_of_run rfl rfl readsOnlyPacket
      (ServerNetSession.singleSlot .tcp lastEvent malloc) run valid whole
    exact carries.exists_delivered rfl readsOnlyPacket isOpen flows
  · intro connection run whole isOpen flows
    have readsOnlyPacket :=
      ClientNetSession.decoder_readsOnlyPacket .tcp lastEvent malloc
    obtain ⟨left, carries⟩ := exists_carries_of_run rfl rfl readsOnlyPacket
      (ClientNetSession.singleSlot .tcp lastEvent malloc) run valid whole
    exact carries.exists_delivered rfl readsOnlyPacket isOpen flows

/-- The kernel has taken a part of a message of sixteen bytes, and the other end
can still receive it. -/
theorem exists_all_received_of_part :
    ∃ labels connection,
      Run (Step (ClientNetSession.decoder .tcp 1 fun _ => true))
        (initial 64 Recvbuf.idle) labels connection ∧
      connection.calls = [headerOnly] ∧ connection.received = [] ∧
      ∃ later after,
        Run (Step (ClientNetSession.decoder .tcp 1 fun _ => true))
          connection later after ∧
        after.calls = connection.calls ∧
        after.received =
          connection.calls.map fun call => call.message.map some := by
  have valid : ∀ label ∈ [Label.send headerOnly fun _ => [.room 7]],
      label.Valid 1 fun _ => true := by
    intro label member
    rw [List.mem_singleton.mp member]
    exact ⟨headerOnly_valid, Nat.le_of_ble_eq_true rfl, fun _ => rfl⟩
  have run : ∃ connection,
      Run (Step (ClientNetSession.decoder .tcp 1 fun _ => true))
        (initial 64 Recvbuf.idle)
        [Label.send headerOnly fun _ => [.room 7]] connection ∧
      connection.calls = [headerOnly] ∧ connection.received = [] ∧
      connection.isCut = false ∧ connection.socket.isOpen = true ∧
      connection.socket.session.Flows :=
    ⟨_, .cons (.sent rfl rfl) (.nil _), rfl, rfl, rfl, rfl,
      fun _ => Nat.le_of_ble_eq_true rfl⟩
  obtain ⟨connection, run, calls, received, whole, isOpen, flows⟩ := run
  exact ⟨_, connection, run, calls, received,
    (exists_all_received 1 (fun _ => true) 64 valid).2 connection run whole
      isOpen flows⟩

end Connection
end Sockets
end Pilot2Cloud
