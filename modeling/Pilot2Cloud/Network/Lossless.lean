import Pilot2Cloud.Network.ServerSession
import Pilot2Cloud.Network.SingleSlot

/-!
# Messages over a TCP connection

One end sends a list of messages, the other decodes the byte stream of the
connection, which arrives in chunks cut anywhere.  The messages arrive exactly
as they were sent if every chunk reaches the length members of the packet that
it continues or what is behind it in the receive buffer does no harm, no packet
head has to be stored in front of the message buffer, and the reassembly buffers
can be allocated.
-/

namespace Pilot2Cloud
namespace Network

open Foundation Words Memory

/-- The arguments of a `Send` call, and the value of the packet head's
padding. -/
structure SendCall where
  message : List UInt8
  packetMaxLen : Nat
  padding : Nat
  deriving DecidableEq, Repr

/-- The message of a call does not fit in one packet. -/
abbrev SendCall.Large (call : SendCall) : Prop :=
  call.packetMaxLen < call.message.length

/-- The packets of a call, given the last id used before it. -/
def SendCall.packets (call : SendCall) (sendID : Nat) : List (List UInt8) :=
  packetsOf call.message call.packetMaxLen (nextSendID sendID) call.padding

/-- The last id used after a call. -/
def SendCall.sendIDAfter (call : SendCall) (sendID : Nat) : Nat :=
  if call.Large then nextSendID sendID else sendID

/-- The packets of a sequence of calls. -/
def wire : Nat → List SendCall → List (List UInt8)
  | _, [] => []
  | sendID, call :: calls =>
      call.packets sendID ++ wire (call.sendIDAfter sendID) calls

/-- A sequence of `Send` calls on one connection. -/
def sendAll (environment : SendEnvironment) :
    SendSession → List SendCall → Except Fault (SendSession × SendOutcome)
  | session, [] => .ok (session, ⟨[], true⟩)
  | session, call :: calls => do
      let (session, outcome) ← sendMessage environment session call.message
        call.packetMaxLen call.padding
      let (session, rest) ← sendAll environment session calls
      return (session,
        ⟨outcome.written ++ rest.written, outcome.result && rest.result⟩)

/-- The calls put their packets on the wire, and the decoder on the other end
is left with exactly their messages and nothing pending. -/
def Lossless
    (environment : SendEnvironment) (session : SendSession)
    (calls : List SendCall)
    (decoded : Except Fault (DecodeState σ × List Block)) : Prop :=
  (∃ after, sendAll environment session calls =
    .ok (after, ⟨wire session.sendID calls, true⟩)) ∧
  ∃ state, decoded =
      .ok (state, calls.map fun call => call.message.map some) ∧
    state.halfpack = none

/-- What a client session decodes from the chunks of its connection, where no
chunk is read past its end. -/
def ClientNetSession.decoded
    (lastEvent : Nat) (malloc : Nat → Bool) (chunks : List (List UInt8)) :
    Except Fault (DecodeState Recvbuf × List Block) :=
  checkPackets (ClientNetSession.decoder .tcp lastEvent malloc)
    ClientNetSession.initial chunks

/-- What a client session decodes from the chunks of its connection, which its
socket receives into one buffer. -/
def ClientNetSession.decodedOnBuffer
    (lastEvent : Nat) (malloc : Nat → Bool) (chunks : List (List UInt8)) :
    Except Fault (DecodeState Recvbuf × List Block) :=
  checkPacketsOnBuffer (ClientNetSession.decoder .tcp lastEvent malloc)
    emptyBuffer ClientNetSession.initial chunks

/-- What a server session decodes from the chunks of one connection, which its
socket receives into one buffer. -/
def ServerNetSession.decodedOnBuffer
    (lastEvent : Nat) (malloc : Nat → Bool) (peer : PeerAddress)
    (chunks : List (List UInt8)) :
    Except Fault (DecodeState ClientRecv × List Block) := do
  let (server, received) ← ServerNetSession.checkPacketsOnBuffer
    (ServerNetSession.decoder .tcp lastEvent malloc) peer emptyBuffer
    ServerState.initial chunks
  return (server.decodeStateOf peer, received)

/-- The server decodes a connection like a connection of its own. -/
theorem ServerNetSession.decodedOnBuffer_eq
    (lastEvent : Nat) (malloc : Nat → Bool) (peer : PeerAddress)
    (chunks : List (List UInt8)) :
    ServerNetSession.decodedOnBuffer lastEvent malloc peer chunks =
      Network.checkPacketsOnBuffer
        (ServerNetSession.decoder .tcp lastEvent malloc) emptyBuffer
        ⟨none, ClientRecv.idle, false⟩ chunks := by
  obtain ⟨update, run, after⟩ := ServerNetSession.checkPacketsOnBuffer_eq
    (ServerNetSession.decoder .tcp lastEvent malloc) peer emptyBuffer
    ServerState.initial chunks fun _ => by decide
  rw [decodedOnBuffer, run]
  change (Network.checkPacketsOnBuffer _ emptyBuffer
    ⟨none, ClientRecv.idle, false⟩ chunks >>= _) >>= _ = _
  cases decoded : Network.checkPacketsOnBuffer
      (ServerNetSession.decoder .tcp lastEvent malloc) emptyBuffer
      ⟨none, ClientRecv.idle, false⟩ chunks with
  | error fault => rfl
  | ok outcome =>
      obtain ⟨state, received⟩ := outcome
      simp only [ok_bind, pure_eq_ok, after state received decoded]

/-- A call that `Send` accepts: an application message, and packets with room
for a head. -/
structure SendCall.Valid (lastEvent : Nat) (call : SendCall) : Prop where
  isMessage : AppMessage lastEvent call.message
  stepPositive : sizeofPacketHead < call.packetMaxLen

/-! ## Sending -/

theorem nextSendID_pos (sendID : Nat) : 0 < nextSendID sendID := by
  unfold nextSendID
  split <;> omega

theorem nextSendID_lt (sendID : Nat) : nextSendID sendID < 2 ^ 32 := by
  unfold nextSendID
  split <;> omega

/-- A call with a large message, as the receiving end sees it. -/
def SendCall.toLarge
    (call : SendCall) (valid : call.Valid lastEvent) (large : call.Large)
    (sendID : Nat) : LargeSend lastEvent where
  message := call.message
  packetMaxLen := call.packetMaxLen
  sendID := nextSendID sendID
  padding := call.padding
  isMessage := valid.isMessage
  stepPositive := valid.stepPositive
  large := large
  sendIDPositive := nextSendID_pos sendID
  sendIDFits := nextSendID_lt sendID

theorem SendCall.packets_of_large
    {call : SendCall} (valid : call.Valid lastEvent) (large : call.Large)
    (sendID : Nat) :
    call.packets sendID =
      (List.range (call.toLarge valid large sendID).count).map
        (call.toLarge valid large sendID).fragment :=
  if_pos large

theorem SendCall.packets_of_small
    {call : SendCall} (small : ¬call.Large) (sendID : Nat) :
    call.packets sendID = [call.message] :=
  if_neg small

/-- A call puts its packets on the wire unless a packet head finds no room
behind the message header. -/
theorem sendMessage_of_valid
    {environment : SendEnvironment} (accepting : Accepting environment)
    {session : SendSession} (packetMode : session.sessionmode = .packetHead)
    {call : SendCall} (valid : call.Valid lastEvent) :
    sendMessage environment session call.message call.packetMaxLen
        call.padding =
      if call.Large → 64 ≤ call.packetMaxLen then
        .ok ({ session with sendID := call.sendIDAfter session.sendID },
          ⟨call.packets session.sendID, true⟩)
      else .error .writeBeforeStart := by
  rw [sendMessage_eq call.padding accepting session packetMode
    valid.stepPositive valid.isMessage.length_lt]
  by_cases large : call.packetMaxLen < call.message.length
  · by_cases narrow : call.packetMaxLen < 64
    · simp [large, narrow]
    · have room : 64 ≤ call.packetMaxLen := by omega
      simp [large, narrow, room, SendCall.sendIDAfter, SendCall.packets]
  · simp [large, SendCall.sendIDAfter, SendCall.packets]

/-- The calls put their packets on the wire exactly when every packet head
finds room behind the message header. -/
theorem sendAll_ok_iff
    {environment : SendEnvironment} (accepting : Accepting environment)
    {session : SendSession} (packetMode : session.sessionmode = .packetHead)
    {calls : List SendCall} (valid : ∀ call ∈ calls, call.Valid lastEvent) :
    (∃ after, sendAll environment session calls =
      .ok (after, ⟨wire session.sendID calls, true⟩)) ↔
    ∀ call ∈ calls, call.Large → 64 ≤ call.packetMaxLen := by
  induction calls generalizing session with
  | nil => simp [sendAll, wire]
  | cons call calls inductionHypothesis =>
      obtain ⟨validHere, validLater⟩ := List.forall_mem_cons.mp valid
      have sent := sendMessage_of_valid accepting packetMode validHere
      rw [List.forall_mem_cons, sendAll, sent]
      by_cases room : call.Large → 64 ≤ call.packetMaxLen
      · have later := @inductionHypothesis { session with
          sendID := call.sendIDAfter session.sendID } packetMode validLater
        rw [if_pos room, ok_bind, ← later, and_iff_right room]
        constructor
        · rintro ⟨after, success⟩
          simp only [bind_eq_ok_iff, Prod.exists, pure_eq_ok, wire,
            Except.ok.injEq, Prod.mk.injEq, SendOutcome.mk.injEq,
            List.append_cancel_left_eq, Bool.true_and] at success
          obtain ⟨last, ⟨written, result⟩, ran, rfl, rfl, rfl⟩ := success
          exact ⟨last, ran⟩
        · rintro ⟨after, success⟩
          exact ⟨after, by simp [success, wire]⟩
      · simp [room]

/-! ## Decoding -/

/-- What a call delivers: its message, unless that needs a reassembly buffer
for which there is no memory. -/
def SendCall.delivered (malloc : Nat → Bool) (call : SendCall) : List Block :=
  if call.Large → malloc call.message.length then [call.message.map some]
  else []

/-- The packets of one call are handled without leaving anything behind. -/
theorem SingleSlot.handle_packets
    {decoder : Decoder σ} {malloc : Nat → Bool} {place : Recvbuf → σ}
    (singleSlot : SingleSlot decoder malloc place)
    {call : SendCall} (valid : call.Valid lastEvent) (sendID : Nat) :
    handlePackets decoder (place Recvbuf.idle) (call.packets sendID) =
      .ok (place Recvbuf.idle, call.delivered malloc) := by
  by_cases large : call.Large
  · have delivered : call.delivered malloc =
        if malloc call.message.length then [call.message.map some]
        else [] := by
      simp [SendCall.delivered, large]
    rw [SendCall.packets_of_large valid large,
      singleSlot.handle_fragments, delivered]
    rfl
  · have whole : read call.message 0 call.message.length =
        .ok call.message := by
      rw [read_of_inside (by omega), List.drop_zero,
        List.take_of_length_le (Nat.le_refl _)]
    simp [SendCall.packets_of_small large, SendCall.delivered, handlePackets,
      handlePacket, valid.isMessage.isSubpacket_eq_false, whole, large]

/-- The packets of a sequence of calls deliver what the calls deliver. -/
theorem SingleSlot.handle_wire
    {decoder : Decoder σ} {malloc : Nat → Bool} {place : Recvbuf → σ}
    (singleSlot : SingleSlot decoder malloc place)
    {calls : List SendCall} (valid : ∀ call ∈ calls, call.Valid lastEvent)
    (sendID : Nat) :
    handlePackets decoder (place Recvbuf.idle) (wire sendID calls) =
      .ok (place Recvbuf.idle,
        calls.flatMap fun call => call.delivered malloc) := by
  induction calls generalizing sendID with
  | nil => rfl
  | cons call calls inductionHypothesis =>
      obtain ⟨validHere, validLater⟩ := List.forall_mem_cons.mp valid
      exact handlePackets_append_iff.mpr ⟨_, _, _,
        singleSlot.handle_packets validHere sendID,
        inductionHypothesis validLater _, rfl⟩

/-- A call whose packets are within the decoder's limit produces well-framed
packets. -/
theorem SendCall.wellFramed
    {call : SendCall} (valid : call.Valid lastEvent) (sendID : Nat)
    (lengthMax : ∀ packet ∈ call.packets sendID,
      packet.length ≤ singlePacketLenMax) :
    ∀ packet ∈ call.packets sendID, WellFramed lastEvent packet := by
  by_cases large : call.Large
  · rw [packets_of_large valid large] at lengthMax ⊢
    rintro packet member
    obtain ⟨index, -, rfl⟩ := List.mem_map.mp member
    exact LargeSend.wellFramed_fragment _ _ (lengthMax _ member)
  · rw [packets_of_small large] at lengthMax ⊢
    rintro packet member
    rw [List.mem_singleton] at member
    subst member
    exact valid.isMessage.wellFramed (lengthMax _ (by simp))

theorem wire_wellFramed
    {calls : List SendCall} (valid : ∀ call ∈ calls, call.Valid lastEvent)
    (sendID : Nat)
    (lengthMax : ∀ packet ∈ wire sendID calls,
      packet.length ≤ singlePacketLenMax) :
    ∀ packet ∈ wire sendID calls, WellFramed lastEvent packet := by
  induction calls generalizing sendID with
  | nil => simp [wire]
  | cons call calls inductionHypothesis =>
      obtain ⟨validHere, validLater⟩ := List.forall_mem_cons.mp valid
      rw [wire, List.forall_mem_append] at lengthMax ⊢
      exact ⟨SendCall.wellFramed validHere sendID lengthMax.1,
        inductionHypothesis validLater _ lengthMax.2⟩

/-- Every message is delivered exactly when there is memory for every large
one. -/
theorem flatMap_delivered_eq_iff (malloc : Nat → Bool) (calls : List SendCall) :
    (calls.flatMap fun call => call.delivered malloc) =
        calls.map (fun call => call.message.map some) ↔
      ∀ call ∈ calls, call.Large → malloc call.message.length := by
  have atMostOne : ∀ calls : List SendCall,
      (calls.flatMap fun call => call.delivered malloc).length ≤
        calls.length := by
    intro calls
    induction calls with
    | nil => simp
    | cons call calls inductionHypothesis =>
        have one : (call.delivered malloc).length ≤ 1 := by
          unfold SendCall.delivered
          split <;> simp
        rw [List.flatMap_cons, List.length_append, List.length_cons]
        omega
  induction calls with
  | nil => simp
  | cons call calls inductionHypothesis =>
      rw [List.flatMap_cons, List.map_cons, List.forall_mem_cons]
      by_cases served : call.Large → malloc call.message.length
      · rw [SendCall.delivered, if_pos served, List.singleton_append,
          List.cons_inj_right]
        exact inductionHypothesis.trans (and_iff_right served).symm
      · rw [SendCall.delivered, if_neg served, List.nil_append]
        refine iff_of_false ?_ (fun all => served all.1)
        intro same
        have bound := atMostOne calls
        rw [same, List.length_cons, List.length_map] at bound
        omega

/-! ## The round trip -/

section RoundTrip

variable {environment : SendEnvironment} (accepting : Accepting environment)
  {session : SendSession} (packetMode : session.sessionmode = .packetHead)
  {calls : List SendCall} (valid : ∀ call ∈ calls, call.Valid lastEvent)
  (lengthMax : ∀ packet ∈ wire session.sendID calls,
    packet.length ≤ singlePacketLenMax)
  {chunks : List (List UInt8)}
  (bounded : ∀ chunk ∈ chunks, chunk.length ≤ recvBufferSize)
  (stream : chunks.flatten = (wire session.sendID calls).flatten)
  (reads : HeadsRead (wire session.sendID calls) chunks)

include accepting packetMode valid lengthMax bounded stream reads

theorem SingleSlot.lossless_iff
    {decoder : Decoder σ} {malloc : Nat → Bool} {place : Recvbuf → σ}
    (tcp : decoder.protocol = .tcp) (types : decoder.lastEvent = lastEvent)
    (readsOnlyPacket : decoder.ReadsOnlyPacket)
    (singleSlot : SingleSlot decoder malloc place) :
    Lossless environment session calls
        (checkPacketsOnBuffer decoder emptyBuffer
          ⟨none, place Recvbuf.idle, false⟩ chunks) ↔
      ∀ call ∈ calls, call.Large →
        64 ≤ call.packetMaxLen ∧ malloc call.message.length := by
  subst types
  have delivered := flatMap_delivered_eq_iff malloc calls
  rw [Lossless, sendAll_ok_iff accepting packetMode valid,
    checkPacketsOnBuffer_stream tcp readsOnlyPacket
      (wire_wellFramed valid session.sendID lengthMax)
      (singleSlot.handle_wire valid session.sendID) bounded stream reads]
  simp only [Except.ok.injEq, Prod.mk.injEq]
  constructor
  · rintro ⟨rooms, _, ⟨rfl, same⟩, _⟩ call member large
    exact ⟨rooms call member large, delivered.mp same call member large⟩
  · intro both
    exact ⟨fun call member large => (both call member large).1, _,
      ⟨rfl, delivered.mpr fun call member large =>
        (both call member large).2⟩, rfl⟩

/-- Messages sent over a connection arrive at a server and at a client exactly
as they were sent, if for every chunk a length is read that does no harm, no
packet head is stored in front of a message, and there is memory to reassemble
the large messages. -/
theorem tcp_lossless (malloc : Nat → Bool) (peer : PeerAddress) :
    (Lossless environment session calls
        (ServerNetSession.decodedOnBuffer lastEvent malloc peer chunks) ↔
      ∀ call ∈ calls, call.Large →
        64 ≤ call.packetMaxLen ∧ malloc call.message.length) ∧
    (Lossless environment session calls
        (ClientNetSession.decodedOnBuffer lastEvent malloc chunks) ↔
      ∀ call ∈ calls, call.Large →
        64 ≤ call.packetMaxLen ∧ malloc call.message.length) := by
  constructor
  · rw [ServerNetSession.decodedOnBuffer_eq]
    exact SingleSlot.lossless_iff accepting packetMode valid lengthMax bounded
      stream reads rfl rfl
      (ServerNetSession.decoder_readsOnlyPacket .tcp lastEvent malloc)
      (ServerNetSession.singleSlot .tcp lastEvent malloc)
  · exact SingleSlot.lossless_iff accepting packetMode valid lengthMax bounded
      stream reads rfl rfl
      (ClientNetSession.decoder_readsOnlyPacket .tcp lastEvent malloc)
      (ClientNetSession.singleSlot .tcp lastEvent malloc)

end RoundTrip

/-! ## A message of sixteen bytes -/

/-- A connection that takes every packet. -/
def openConnection : SendEnvironment := ⟨fun _ => true, fun _ => true⟩

theorem openConnection_accepting : Accepting openConnection :=
  ⟨fun _ => rfl, fun _ => rfl⟩

/-- A message that consists of its header. -/
def headerOnly : SendCall := ⟨List.replicate 16 0, 64, 0⟩

theorem headerOnly_valid : headerOnly.Valid 1 where
  isMessage :=
    { hasHeader := by decide
      msgLength := by decide
      notEnabled := by decide
      msgtype := by decide }
  stepPositive := by decide

/-! ## A message of two fragments -/

/-- A message of fifty bytes behind its header, sent in two fragments. -/
def twoFragments (content : UInt8) : SendCall where
  message := List.replicate 8 0 ++ [50, 0, 0, 0] ++ List.replicate 4 0 ++
    List.replicate 50 content
  packetMaxLen := 65
  padding := 0

theorem twoFragments_valid (content : UInt8) :
    (twoFragments content).Valid 1 where
  isMessage :=
    { hasHeader := by simp [twoFragments]
      msgLength := by rfl
      notEnabled := by
        show 50 &&& packetEnable = 0
        decide
      msgtype := by
        show 0 < 1
        decide }
  stepPositive := by
    show 40 < 65
    decide

/-! ## Chunks -/

/-- The zeros of an empty buffer. -/
theorem emptyBuffer_split :
    emptyBuffer = List.replicate 12 0 ++ List.replicate 65524 0 := by
  rw [List.replicate_append_replicate]
  rfl

/-- A message of sixteen bytes and one of two fragments, cut in the middle of the
length of the first, of the head of the first fragment and of its content. -/
def fiveChunks : List (List UInt8) :=
  let bytes := (wire 0 [headerOnly, twoFragments 7]).flatten
  [bytes.take 8, (bytes.drop 8).take 1, (bytes.drop 9).take 27,
    (bytes.drop 36).take 30, bytes.drop 66]

theorem fiveChunks_reads :
    HeadsRead (wire 0 [headerOnly, twoFragments 7]) fiveChunks := by
  refine ⟨.of_headArrives (by decide) _, ?_, .of_headArrives (by decide) _,
    .of_headArrives (by decide) _, .of_headArrives (by decide) _, trivial⟩
  intro packet member starts _
  have first : ∀ packet ∈ segments 0 (wire 0 [headerOnly, twoFragments 7]),
      packet.1 < 8 → packet = (0, headerOnly.message) := by decide
  obtain rfl := first packet member starts
  have zeros : declaredLen (List.replicate 8 0 ++
      refill (refill emptyBuffer (List.replicate 8 0)) [0]) = 16 := by
    rw [emptyBuffer_split]
    generalize List.replicate 65524 0 = behind
    rfl
  refine .inr ⟨?_, ?_⟩
  · exact (show 9 < 16 by decide).trans_eq zeros.symm
  · exact zeros.trans_le (by decide)

/-- Received so they arrive, although the second chunk ends in the middle of a
length. -/
theorem tcp_lossless_fiveChunks :
    Lossless openConnection ⟨.packetHead, 0⟩ [headerOnly, twoFragments 7]
        (ServerNetSession.decodedOnBuffer 1 (fun _ => true)
          ⟨"10.0.0.2", 40000⟩ fiveChunks) ∧
      Lossless openConnection ⟨.packetHead, 0⟩ [headerOnly, twoFragments 7]
        (ClientNetSession.decodedOnBuffer 1 (fun _ => true) fiveChunks) := by
  have valid : ∀ call ∈ [headerOnly, twoFragments 7], call.Valid 1 := by
    rw [List.forall_mem_cons, List.forall_mem_singleton]
    exact ⟨headerOnly_valid, twoFragments_valid 7⟩
  have lengthMax : ∀ packet ∈ wire 0 [headerOnly, twoFragments 7],
      packet.length ≤ singlePacketLenMax := by decide
  have bounded : ∀ chunk ∈ fiveChunks, chunk.length ≤ recvBufferSize := by
    decide
  have stream : fiveChunks.flatten =
      (wire 0 [headerOnly, twoFragments 7]).flatten := by decide
  obtain ⟨server, client⟩ := tcp_lossless openConnection_accepting
    (show SendSession.sessionmode ⟨.packetHead, 0⟩ = .packetHead from rfl)
    valid lengthMax bounded stream fiveChunks_reads (fun _ => true)
    ⟨"10.0.0.2", 40000⟩
  exact ⟨server.mpr (by decide), client.mpr (by decide)⟩

/-- A message of sixteen bytes with numbers of subsystems. -/
def numbered : SendCall :=
  ⟨List.replicate 4 1 ++ List.replicate 12 0, 64, 0⟩

theorem numbered_valid : numbered.Valid 1 where
  isMessage :=
    { hasHeader := by decide
      msgLength := by decide
      notEnabled := by decide
      msgtype := by decide }
  stepPositive := by decide

/-- The message cut into eight bytes, one byte and seven bytes. -/
def splitHead : List (List UInt8) :=
  [List.replicate 4 1 ++ List.replicate 4 0, [0], List.replicate 7 0]

section Lost

variable {decoder : Decoder σ} (recv : σ) (tcp : decoder.protocol = .tcp)
  (types : 0 < decoder.lastEvent)

include tcp types

/-- Bytes that do not reach a length are kept. -/
theorem scanChunk_of_short {chunk : List UInt8} (pending : chunk ≠ [])
    (short : chunk.length < 12) :
    ∃ half, scanChunk decoder ⟨none, recv, false⟩ chunk =
        .ok ⟨⟨some half, recv, false⟩, [], chunk⟩ ∧ half.bytes = chunk := by
  have frontRead : readFront chunk = .ok ⟨0, 0, false⟩ := if_pos short
  have notUdp : decoder.protocol ≠ .udp := by simp [tcp]
  have accepted : ¬Rejected decoder false ⟨0, 0, false⟩ chunk := by
    simp only [Rejected, Bool.false_eq_true, false_and, or_false]
    omega
  obtain ⟨fits, kept⟩ := scan_incomplete decoder chunk.length
    ⟨none, recv, false⟩ pending frontRead (.inl rfl)
  rw [if_neg notUdp, if_neg accepted] at kept
  exact ⟨_, kept, rfl⟩

omit types in
/-- While a message head is searched they are dropped. -/
theorem scanChunk_of_searching {chunk : List UInt8} (pending : chunk ≠ [])
    (short : chunk.length < 12) :
    scanChunk decoder ⟨none, recv, true⟩ chunk =
      .ok ⟨⟨none, recv, true⟩, [], chunk⟩ := by
  have frontRead : readFront chunk = .ok ⟨0, 0, false⟩ := if_pos short
  have notUdp : decoder.protocol ≠ .udp := by simp [tcp]
  have rejected : Rejected decoder true ⟨0, 0, false⟩ chunk :=
    .inr (.inr ⟨rfl, short.trans (by decide)⟩)
  obtain ⟨fits, dropped⟩ := scan_incomplete decoder chunk.length
    ⟨none, recv, true⟩ pending frontRead (.inl rfl)
  rwa [if_neg notUdp, if_pos rejected] at dropped

/-- Three chunks that do not reach a length are lost if the length that is found
when the second has arrived is too long. -/
theorem checkPacketsOnBuffer_of_lost {first second third : List UInt8}
    (pending : ∀ chunk ∈ [first, second, third], chunk ≠ [])
    (short : ∀ chunk ∈ [first, second, third], chunk.length < 12)
    (tooLong : singlePacketLenMax <
      declaredLen (first ++ refill (refill emptyBuffer first) second)) :
    checkPacketsOnBuffer decoder emptyBuffer ⟨none, recv, false⟩
        [first, second, third] = .ok (⟨none, recv, true⟩, []) := by
  simp only [List.forall_mem_cons] at pending short
  obtain ⟨half, kept, bytes⟩ :=
    scanChunk_of_short recv tcp types pending.1 short.1
  subst bytes
  have limit : 12 ≤ recvBufferSize := by decide
  have size := length_refill (length_refill length_emptyBuffer
    (short.1.le.trans limit)) (short.2.1.le.trans limit)
  have lost : checkPacketOnBuffer decoder ⟨some half, recv, false⟩
      (refill (refill emptyBuffer half.bytes) second) second =
        .ok ⟨⟨none, recv, true⟩, [], second⟩ :=
    (resumeOnBuffer_of_too_long decoder _ size tooLong).trans
      (scanChunk_of_searching recv tcp pending.2.1 short.2.1)
  have dropped : checkPacketOnBuffer decoder ⟨none, recv, true⟩
      (refill (refill (refill emptyBuffer half.bytes) second) third) third =
        .ok ⟨⟨none, recv, true⟩, [], third⟩ :=
    scanChunk_of_searching recv tcp pending.2.2.1 short.2.2.1
  have keeps : checkPacketOnBuffer decoder ⟨none, recv, false⟩
      (refill emptyBuffer half.bytes) half.bytes =
        .ok ⟨⟨some half, recv, false⟩, [], half.bytes⟩ := kept
  simp only [checkPacketsOnBuffer, keeps, lost, dropped, ok_bind, pure_eq_ok,
    List.append_nil]

end Lost

theorem splitHead_tooLong :
    singlePacketLenMax < declaredLen (List.replicate 4 1 ++
      List.replicate 4 0 ++ refill (refill emptyBuffer
        (List.replicate 4 1 ++ List.replicate 4 0)) [0]) := by
  have found : declaredLen (List.replicate 4 1 ++ List.replicate 4 0 ++
      refill (refill emptyBuffer
        (List.replicate 4 1 ++ List.replicate 4 0)) [0]) = 16843024 := by
    rw [emptyBuffer_split]
    generalize List.replicate 65524 0 = behind
    rfl
  rw [found]
  decide

/-- Received so it does not arrive: three of the bytes that are read as its
length are left from the first chunk. -/
theorem tcp_not_lossless_of_split_head :
    splitHead.flatten = (wire 0 [numbered]).flatten ∧
      (∀ chunk ∈ splitHead, chunk ≠ []) ∧
      numbered.Valid 1 ∧
      ¬Lossless openConnection ⟨.packetHead, 0⟩ [numbered]
        (ServerNetSession.decodedOnBuffer 1 (fun _ => true)
          ⟨"10.0.0.2", 40000⟩ splitHead) ∧
      ¬Lossless openConnection ⟨.packetHead, 0⟩ [numbered]
        (ClientNetSession.decodedOnBuffer 1 (fun _ => true) splitHead) := by
  have lost : ∀ {σ : Type} (recv : σ),
      ¬Lossless openConnection ⟨.packetHead, 0⟩ [numbered]
        (.ok (⟨none, recv, true⟩, [])) := by
    rintro σ recv ⟨-, state, success, -⟩
    have nothing := (Prod.mk.inj (Except.ok.inj success)).2
    contradiction
  refine ⟨by decide, by decide, numbered_valid, ?_, ?_⟩
  · rw [ServerNetSession.decodedOnBuffer_eq, splitHead,
      checkPacketsOnBuffer_of_lost _ rfl Nat.one_pos (by decide) (by decide)
        splitHead_tooLong]
    exact lost _
  · rw [ClientNetSession.decodedOnBuffer, ClientNetSession.initial, splitHead,
      checkPacketsOnBuffer_of_lost _ rfl Nat.one_pos (by decide) (by decide)
        splitHead_tooLong]
    exact lost _

end Network
end Pilot2Cloud
