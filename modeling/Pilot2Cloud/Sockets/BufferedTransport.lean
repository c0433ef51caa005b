import Pilot2Cloud.Sockets.Transport

/-!
# Messages through a receive buffer

The socket at the other end receives all bytes of a connection into one buffer.
As long as no chunk makes its decoder read a wrong length from what earlier
chunks have left there, what has been received is a first part of what was sent,
and all of it once nothing is left.
-/

namespace Pilot2Cloud
namespace Sockets
namespace Connection

open Foundation Memory Network SendBuffer

/-- A message is sent or an event arrives. -/
def Label.isReceive : Label → Bool
  | .receive _ => true
  | _ => false

/-- A connection with the receive buffer of the socket at the other end. -/
structure Buffered (σ : Type) where
  connection : Connection σ
  buffer : List UInt8

namespace Buffered

variable {σ : Type}

/-- A new connection with a new socket at the other end. -/
def initial (capacity : Nat) (recv : σ) : Buffered σ :=
  ⟨.initial capacity recv, emptyBuffer⟩

/-- One step of a connection; bytes that are read go to the front of the
buffer. -/
inductive Step (decoder : Decoder σ) :
    Buffered σ → Label → Buffered σ → Prop
  | other {connection label next buffer} (isOther : label.isReceive = false)
      (step : connection.Step decoder label next) :
      Step decoder ⟨connection, buffer⟩ label ⟨next, buffer⟩
  | receive {connection buffer chunk result}
      (arrived : chunk.map some <+: connection.unread)
      (bounded : chunk.length ≤ recvBufferSize)
      (checked : checkPacketOnBuffer decoder connection.receiver
        (refill buffer chunk) chunk = .ok result) :
      Step decoder ⟨connection, buffer⟩ (.receive chunk)
        ⟨{ connection with
          receiver := result.state
          taken := connection.taken + chunk.length
          received := connection.received ++ result.received },
        refill buffer chunk⟩

/-- A chunk that is read reaches the length members of the packet that it
continues, or the length that is read from the buffer is neither complete with
the chunk nor too long. -/
def Reads (state : Buffered σ) : Label → Prop
  | .receive chunk =>
      HeadRead state.connection.packets (refill state.buffer chunk)
        (state.connection.taken, chunk)
  | _ => True

/-- A step for which a length is read that does no harm. -/
def HarmlessStep (decoder : Decoder σ) (state : Buffered σ) (label : Label)
    (next : Buffered σ) : Prop :=
  state.Step decoder label next ∧ state.Reads label

/-- What was received is a first part of what was sent, all of it once nothing
is left, and the next bytes are decoded if a length is read for them that does
no harm. -/
structure Delivers (decoder : Decoder σ) (state : Buffered σ) : Prop where
  order : state.connection.received <+:
    state.connection.calls.map fun call => call.message.map some
  complete : state.connection.taken =
      state.connection.socket.session.accepted.length →
    state.connection.received =
      state.connection.calls.map fun call => call.message.map some
  readable : ∀ chunk : List UInt8,
    chunk.map some <+: state.connection.unread →
    chunk.length ≤ recvBufferSize → state.Reads (.receive chunk) →
    ∃ result, checkPacketOnBuffer decoder state.connection.receiver
      (refill state.buffer chunk) chunk = .ok result

/-- The connection has carried what was sent, and the buffer has its size. -/
def Kept (decoder : Decoder σ) (start : σ) (capacity : Nat)
    (state : Buffered σ) : Prop :=
  state.buffer.length = recvBufferSize ∧ (state.connection.isCut = false →
    ∃ left, state.connection.Carries decoder start capacity left)

variable {decoder : Decoder σ} {state next : Buffered σ} {capacity : Nat}

theorem Kept.delivers {start : σ} {capacity : Nat}
    (kept : state.Kept decoder start capacity)
    (tcp : decoder.protocol = .tcp)
    (readsOnlyPacket : decoder.ReadsOnlyPacket)
    (whole : state.connection.isCut = false) : state.Delivers decoder := by
  obtain ⟨size, carries⟩ := kept
  obtain ⟨left, carries⟩ := carries whole
  refine ⟨carries.order, carries.complete, ?_⟩
  intro chunk arrived bounded reads
  obtain ⟨result, checked, -⟩ := carries.exists_receiveOnBuffer tcp
    readsOnlyPacket size arrived bounded reads
  exact ⟨result, checked⟩

section Decoders

variable {lastEvent : Nat} {malloc : Nat → Bool} {place : Recvbuf → σ}
  (tcp : decoder.protocol = .tcp) (types : decoder.lastEvent = lastEvent)
  (readsOnlyPacket : decoder.ReadsOnlyPacket)
  (singleSlot : SingleSlot decoder malloc place)

include tcp types readsOnlyPacket singleSlot

theorem Kept.step {label : Label}
    (kept : state.Kept decoder (place Recvbuf.idle) capacity)
    (valid : label.Valid lastEvent malloc)
    (step : state.HarmlessStep decoder label next) :
    next.Kept decoder (place Recvbuf.idle) capacity := by
  obtain ⟨size, carries⟩ := kept
  obtain ⟨step, reads⟩ := step
  cases step with
  | other isOther step =>
      refine ⟨size, fun whole => ?_⟩
      obtain ⟨left, carries⟩ := carries (step.isCut_eq_false whole)
      exact carries.step tcp types readsOnlyPacket singleSlot valid step whole
  | receive arrived bounded checked =>
      refine ⟨length_refill size bounded, fun whole => ?_⟩
      obtain ⟨left, carries⟩ := carries whole
      obtain ⟨result, isResult, next⟩ := carries.exists_receiveOnBuffer tcp
        readsOnlyPacket size arrived bounded reads
      rw [checked] at isResult
      obtain rfl := Except.ok.inj isResult
      exact ⟨left, next⟩

theorem kept_of_run {labels : List Label}
    (valid : ∀ label ∈ labels, label.Valid lastEvent malloc)
    (run : Run (HarmlessStep decoder) (initial capacity (place Recvbuf.idle))
      labels state) :
    state.Kept decoder (place Recvbuf.idle) capacity := by
  have start : (initial capacity (place Recvbuf.idle)).Kept decoder
      (place Recvbuf.idle) capacity :=
    ⟨length_emptyBuffer, fun _ => ⟨[], .initial decoder _ capacity⟩⟩
  refine run.preserves_of_forall_mem ?_ valid start
  intro state label next kept valid step
  exact kept.step tcp types readsOnlyPacket singleSlot valid step

end Decoders

/-- Over a TCP connection, with sends, events and chunks in any order, a server
and a client receive the messages in the order in which they were sent, none
twice, and have all of them once nothing is left, if for every chunk a length is
read that does no harm. -/
theorem delivers_of_run (lastEvent : Nat) (malloc : Nat → Bool)
    (capacity : Nat) {labels : List Label}
    (valid : ∀ label ∈ labels, label.Valid lastEvent malloc) :
    (∀ state,
      Run (HarmlessStep (ServerNetSession.decoder .tcp lastEvent malloc))
          (initial capacity ClientRecv.idle) labels state →
        state.connection.isCut = false →
          state.Delivers (ServerNetSession.decoder .tcp lastEvent malloc)) ∧
    ∀ state,
      Run (HarmlessStep (ClientNetSession.decoder .tcp lastEvent malloc))
          (initial capacity Recvbuf.idle) labels state →
        state.connection.isCut = false →
          state.Delivers (ClientNetSession.decoder .tcp lastEvent malloc) := by
  constructor
  · intro state run whole
    have readsOnlyPacket :=
      ServerNetSession.decoder_readsOnlyPacket .tcp lastEvent malloc
    exact (kept_of_run rfl rfl readsOnlyPacket
      (ServerNetSession.singleSlot .tcp lastEvent malloc) valid run).delivers
        rfl readsOnlyPacket whole
  · intro state run whole
    have readsOnlyPacket :=
      ClientNetSession.decoder_readsOnlyPacket .tcp lastEvent malloc
    exact (kept_of_run rfl rfl readsOnlyPacket
      (ClientNetSession.singleSlot .tcp lastEvent malloc) valid run).delivers
        rfl readsOnlyPacket whole

/-- However the bytes of a connection are cut into harmless chunks, they can be
read. -/
theorem exists_receives {start : σ} {capacity : Nat} {left : List UInt8}
    (tcp : decoder.protocol = .tcp)
    (readsOnlyPacket : decoder.ReadsOnlyPacket) {connection : Connection σ}
    (carries : connection.Carries decoder start capacity left)
    {buffer : List UInt8} (size : buffer.length = recvBufferSize)
    {chunks : List (List UInt8)}
    (bounded : ∀ chunk ∈ chunks, chunk.length ≤ recvBufferSize)
    (arrived : chunks.flatten.map some <+: connection.unread)
    (reads : HeadsReadFrom connection.packets buffer connection.taken chunks) :
    ∃ next, Run (HarmlessStep decoder) ⟨connection, buffer⟩
        (chunks.map .receive) next ∧
      next.connection.calls = connection.calls ∧
      next.connection.socket = connection.socket ∧
      next.connection.isCut = connection.isCut ∧
      next.connection.taken = connection.taken + chunks.flatten.length := by
  induction chunks generalizing connection buffer with
  | nil => exact ⟨_, .nil _, rfl, rfl, rfl, rfl⟩
  | cons chunk chunks inductionHypothesis =>
      obtain ⟨readsHere, readsLater⟩ := reads
      obtain ⟨boundedHere, boundedLater⟩ := List.forall_mem_cons.mp bounded
      rw [List.flatten_cons, List.map_append] at arrived
      have arrivedHere := (List.prefix_append _ _).trans arrived
      obtain ⟨result, checked, carriesNext⟩ := carries.exists_receiveOnBuffer
        tcp readsOnlyPacket size arrivedHere boundedHere readsHere
      have arrivedLater : chunks.flatten.map some <+:
          connection.socket.session.released.drop
            (connection.taken + chunk.length) := by
        obtain ⟨rest, split⟩ := arrived
        have dropped := congrArg (List.drop chunk.length) split
        rw [unread, List.drop_drop, List.append_assoc,
          List.drop_left' (List.length_map some)] at dropped
        exact ⟨rest, dropped⟩
      obtain ⟨next, run, calls, socket, isCut, taken⟩ := inductionHypothesis
        carriesNext (length_refill size boundedHere) boundedLater arrivedLater
        readsLater
      refine ⟨next, .cons ⟨.receive arrivedHere boundedHere checked, readsHere⟩
        run, calls, socket, isCut, ?_⟩
      rw [taken, List.flatten_cons, List.length_append, Nat.add_assoc]

/-- The kernel takes the packets of two messages. -/
theorem exists_sendPackets :
    ∃ first second,
      (TcpSocket.initial 256).sendPackets (fun _ => [.room 16])
          (headerOnly.packets 0) = .ok (first, true) ∧
        first.sendPackets (fun _ => [.room 65])
          ((twoFragments 7).packets 0) = .ok (second, true) ∧
        second.session.accepted.length = 146 ∧
        second.session.released = fiveChunks.flatten.map some := by
  have checked : ((TcpSocket.initial 256).sendPackets (fun _ => [.room 16])
        (headerOnly.packets 0) >>= fun first =>
      first.1.sendPackets (fun _ => [.room 65]) ((twoFragments 7).packets 0)
        >>= fun second =>
      pure (first.2 && second.2 &&
        decide (second.1.session.accepted.length = 146 ∧
          second.1.session.released = fiveChunks.flatten.map some))) =
        .ok true := by
    decide +kernel
  obtain ⟨⟨first, sentFirst⟩, isFirst, rest⟩ := bind_eq_ok_iff.mp checked
  obtain ⟨⟨second, sentSecond⟩, isSecond, rest⟩ := bind_eq_ok_iff.mp rest
  obtain ⟨sent, released⟩ := Bool.and_eq_true_iff.mp (Except.ok.inj rest)
  obtain ⟨rfl, rfl⟩ := Bool.and_eq_true_iff.mp sent
  exact ⟨first, second, isFirst, isSecond, of_decide_eq_true released⟩

/-- They arrive in five chunks, one of which ends in the middle of a length. -/
theorem delivers_of_run_fiveChunks :
    ∃ labels state,
      Run (HarmlessStep (ServerNetSession.decoder .tcp 1 fun _ => true))
        (initial 256 ClientRecv.idle) labels state ∧
      state.connection.received =
        [headerOnly.message.map some, (twoFragments 7).message.map some] := by
  obtain ⟨first, second, isFirst, isSecond, accepted, released⟩ :=
    exists_sendPackets
  have handedFirst : sendMessage openConnection ⟨.packetHead, 0⟩
      headerOnly.message headerOnly.packetMaxLen headerOnly.padding =
        .ok (⟨.packetHead, 0⟩, ⟨headerOnly.packets 0, true⟩) :=
    (sendMessage_of_valid openConnection_accepting rfl
      headerOnly_valid).trans (if_pos (by decide))
  have handedSecond : sendMessage openConnection ⟨.packetHead, 0⟩
      (twoFragments 7).message (twoFragments 7).packetMaxLen
        (twoFragments 7).padding =
        .ok (⟨.packetHead, 1⟩, ⟨(twoFragments 7).packets 0, true⟩) :=
    (sendMessage_of_valid openConnection_accepting rfl
      (twoFragments_valid 7)).trans (if_pos (by decide))
  let sends : List Label := [.send headerOnly fun _ => [.room 16],
    .send (twoFragments 7) fun _ => [.room 65]]
  have validSends : ∀ label ∈ sends, label.Valid 1 fun _ => true := by
    rw [List.forall_mem_cons, List.forall_mem_singleton]
    exact ⟨⟨headerOnly_valid, by decide, fun _ => rfl⟩,
      ⟨twoFragments_valid 7, by decide, fun _ => rfl⟩⟩
  have sent : Run
      (HarmlessStep (ServerNetSession.decoder .tcp 1 fun _ => true))
      (initial 256 ClientRecv.idle) sends _ :=
    .cons ⟨.other rfl (.sent handedFirst isFirst), trivial⟩
      (.cons ⟨.other rfl (.sent handedSecond isSecond), trivial⟩ (.nil _))
  have readsOnlyPacket :=
    ServerNetSession.decoder_readsOnlyPacket .tcp 1 fun _ => true
  obtain ⟨size, carries⟩ := kept_of_run rfl rfl readsOnlyPacket
    (ServerNetSession.singleSlot .tcp 1 fun _ => true) validSends sent
  obtain ⟨left, carries⟩ := carries rfl
  have bounded : ∀ chunk ∈ fiveChunks, chunk.length ≤ recvBufferSize := by
    decide
  have arrived : fiveChunks.flatten.map some <+:
      second.session.released.drop 0 := by
    rw [released]
    exact List.prefix_refl _
  obtain ⟨state, received, calls, socket, isCut, taken⟩ := exists_receives rfl
    readsOnlyPacket carries size bounded arrived fiveChunks_reads
  have valid : ∀ label ∈ sends ++ fiveChunks.map Label.receive,
      label.Valid 1 fun _ => true := by
    rw [List.forall_mem_append]
    refine ⟨validSends, ?_⟩
    intro label member
    obtain ⟨chunk, -, rfl⟩ := List.mem_map.mp member
    trivial
  have run := Run.append_iff.mpr ⟨_, sent, received⟩
  have delivers := (delivers_of_run 1 (fun _ => true) 256 valid).1 state run
    isCut
  refine ⟨_, state, run, (delivers.complete ?_).trans ?_⟩
  · have length : fiveChunks.flatten.length = 146 := by decide +kernel
    rw [taken, socket, length]
    dsimp only
    rw [accepted]
    rfl
  · rw [calls]
    rfl

end Buffered
end Connection
end Sockets
end Pilot2Cloud
