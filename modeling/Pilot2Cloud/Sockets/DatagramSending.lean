import Pilot2Cloud.SendBuffer.DatagramFifo

/-!
# Sending datagrams

A UDP or raw IP socket gives a datagram to the kernel at once when its buffer is
empty, and otherwise queues it until an `EPOLLOUT` event arrives.  Events are
edge-triggered: the kernel owes one only after a call that found no room.  A UDP
socket stays open after an error in the first case; in the second one the event
loop closes it.
-/

namespace Pilot2Cloud
namespace Sockets

open Foundation Words Memory SendBuffer

/-- What the kernel does with one datagram. -/
inductive DatagramAnswer
  /-- It takes the datagram.  After an empty one the code looks at `errno`, in
  which an earlier call may have left `EWOULDBLOCK` or `EINTR`. -/
  | taken (isStale : Bool)
  /-- `EWOULDBLOCK`. -/
  | blocked
  /-- `EINTR`. -/
  | interrupted
  | error
  deriving DecidableEq

/-- `UdpSocket` or `RawIPSocket`, with the datagrams that were accepted and
those that the kernel has taken. -/
structure DatagramSocket where
  session : DatagramSession
  /-- `m_socketFd` is not zero. -/
  isOpen : Bool
  /-- The kernel owes an `EPOLLOUT` event. -/
  isArmed : Bool
  accepted : List Datagram
  sent : List Datagram

/-! ## The first record of a buffer -/

/-- `GetUdpLength` or `GetRawIpLength`. -/
def frontLength : Transport → RecordBuffer → Except Fault Nat
  | .udp, buffer => buffer.getUdpLength
  | .rawIp, buffer => buffer.getRawIpLength

/-- What a socket reads of a first record with a payload of some size. -/
def front : Transport → RecordBuffer → Nat → Except Fault Datagram
  | .udp, buffer, size => do
      let payload ← buffer.buf.readAt buffer.getUdpBuffer size
      let address ← buffer.getUdpAddr
      let port ← buffer.getUdpPort
      return ⟨payload, .ofNat address, .ofNat port⟩
  | .rawIp, buffer, size => do
      let payload ← buffer.buf.readAt buffer.getRawIpBuffer size
      let address ← buffer.getDstAddr
      return ⟨payload, .ofNat address, 0⟩

/-- `ReleaseUdpBuffer(ret)` or `ReleaseRawIpBuffer(size)`. -/
def releaseFront :
    Transport → RecordBuffer → Nat → Nat → Except Fault RecordBuffer
  | .udp, buffer, ret, _ => buffer.releaseUdpBuffer ret
  | .rawIp, buffer, _, size => buffer.releaseRawIpBuffer size

namespace DatagramSocket

/-- An open socket with an empty buffer. -/
def initial (capacity : Nat) : DatagramSocket :=
  ⟨.initial capacity, true, false, [], []⟩

/-- The error branch: only a raw IP socket is destroyed. -/
def fail (transport : Transport) (socket : DatagramSocket) : DatagramSocket :=
  match transport with
  | .udp => socket
  | .rawIp => { socket with isOpen := false }

/-- `PlatformSocket::SendUdp` and `PlatformSocket::SendRaw`. -/
def sendDatagram (transport : Transport) (socket : DatagramSocket)
    (datagram : Datagram) (answer : DatagramAnswer) : DatagramSocket × Int :=
  if socket.isOpen then
    match answer with
    | .taken isStale =>
        let next := { socket with sent := socket.sent ++ [datagram] }
        if datagram.payload.length ≠ 0 then (next, datagram.payload.length)
        else if isStale then (next, 0)
        else (next.fail transport, -1)
    | .blocked => ({ socket with isArmed := true }, 0)
    | .interrupted => (socket, 0)
    | .error => (socket.fail transport, -1)
  else (socket, -1)

/-- `UdpSocket::Send()` and `RawIPSocket::Send()`, with the answers to its calls
and those that it leaves.  After the last answer the kernel has no room. -/
def send (transport : Transport) (socket : DatagramSocket)
    (answers : List DatagramAnswer) :
    Except Fault (DatagramSocket × Bool × List DatagramAnswer) := do
  let size ← frontLength transport socket.session.buffer
  if size = 0 then return (socket, true, answers)
  let datagram ← front transport socket.session.buffer size
  match answers with
  | [] =>
      let (socket, ret) := socket.sendDatagram transport datagram .blocked
      return (socket, decide (0 ≤ ret), [])
  | answer :: answers =>
      let (socket, ret) := socket.sendDatagram transport datagram answer
      if ret < 0 then return (socket, false, answers)
      else if ret = 0 then return (socket, true, answers)
      else
        let buffer ←
          releaseFront transport socket.session.buffer ret.toNat size
        send transport
          { socket with session := ⟨buffer, socket.session.waiting.tail⟩ }
          answers

/-- The datagram goes into the buffer. -/
def queue (transport : Transport) (socket : DatagramSocket)
    (datagram : Datagram) : Except Fault (DatagramSocket × Bool) := do
  let (buffer, isAdded) ← transport.add socket.session.buffer datagram
  if isAdded then
    return ({ socket with
      session := ⟨buffer, socket.session.waiting ++ [datagram]⟩
      accepted := socket.accepted ++ [datagram] }, true)
  else return (socket, false)

/-- `UdpSocket::Send(data, size, param)` and
`RawIPSocket::Send(data, size, param)`. -/
def sendData (transport : Transport) (socket : DatagramSocket)
    (datagram : Datagram) (answer : DatagramAnswer) :
    Except Fault (DatagramSocket × Bool) :=
  if socket.session.buffer.isEmpty then
    let (next, ret) := socket.sendDatagram transport datagram answer
    if ret = 0 then next.queue transport datagram
    else if ret < 0 then return (next, false)
    else return ({ next with accepted := next.accepted ++ [datagram] }, true)
  else socket.queue transport datagram

/-- A caller sends a datagram, or an `EPOLLOUT` event arrives. -/
inductive Label
  | sendData (datagram : Datagram) (answer : DatagramAnswer)
  | epollOut (answers : List DatagramAnswer)

/-- A datagram that is not empty and has a size that an `int` holds.  Raw IP has
no port. -/
structure Sendable (transport : Transport) (datagram : Datagram) : Prop where
  positive : 0 < datagram.payload.length
  small : datagram.payload.length < 2 ^ 31
  noPort : transport = .rawIp → datagram.port = 0

/-- The datagram has a form that the transport can send. -/
def Label.Valid (transport : Transport) : Label → Prop
  | .sendData datagram _ => Sendable transport datagram
  | .epollOut _ => True

/-- `OnClose` and `NetManager::Close`, as far as the socket is concerned. -/
def close (socket : DatagramSocket) : DatagramSocket :=
  { socket with isOpen := false }

/-- `PlatformIO::RunIocp` at an `EPOLLOUT` event.  A socket that is not valid is
passed over, and one whose `Send` fails is closed. -/
def onEpollOut (transport : Transport) (socket : DatagramSocket)
    (answers : List DatagramAnswer) :
    Except Fault (DatagramSocket × Bool × List DatagramAnswer) :=
  if socket.isOpen then do
    let (next, result, unread) ←
      { socket with isArmed := false }.send transport answers
    return (if result then next else next.close, result, unread)
  else return ({ socket with isArmed := false }, true, answers)

/-- A call of `SendData`, or an event that the socket can be written to. -/
def perform (transport : Transport) (socket : DatagramSocket) :
    Label → Except Fault (DatagramSocket × Bool × List DatagramAnswer)
  | .sendData datagram answer => do
      let (next, result) ← socket.sendData transport datagram answer
      return (next, result, [])
  | .epollOut answers => socket.onEpollOut transport answers

/-- The answers of a label are those that its calls get. -/
def Step (transport : Transport) (socket : DatagramSocket) (label : Label)
    (after : DatagramSocket) : Prop :=
  label.Valid transport ∧
    ∃ result, socket.perform transport label = .ok (after, result, [])

/-- An open socket with datagrams left is owed an event. -/
def Alive (socket : DatagramSocket) : Prop :=
  socket.isOpen → socket.session.waiting ≠ [] → socket.isArmed

/-- On an open socket no call is interrupted, unless it is for a datagram that
the buffer refuses or an event is owed. -/
def Passes (transport : Transport) (socket : DatagramSocket) : Label → Prop
  | .sendData datagram answer =>
      socket.isOpen → socket.session.waiting = [] → answer = .interrupted →
        socket.isArmed ∨ socket.session.buffer.Refuses
          (wrap (transport.record datagram).length)
  | .epollOut answers => socket.isOpen → .interrupted ∉ answers

/-- The buffer is a queue of the datagrams that were accepted and not sent. -/
structure Keeps (transport : Transport) (socket : DatagramSocket) : Prop where
  queue : socket.session.Queue transport
  order : socket.accepted = socket.sent ++ socket.session.waiting
  sendable : ∀ datagram ∈ socket.session.waiting, Sendable transport datagram

variable {transport : Transport} {socket after : DatagramSocket}
  {datagram : Datagram} {rest : List Datagram} {capacity : Nat}

/-! ## The loop -/

theorem Keeps.frontLength_nil (keeps : socket.Keeps transport)
    (none : socket.session.waiting = []) :
    frontLength transport socket.session.buffer = .ok 0 := by
  have empty := keeps.queue.isEmpty
  rw [none] at empty
  have length : ¬0 < socket.session.buffer.length := by
    have zero : socket.session.buffer.length = 0 := beq_iff_eq.mp empty
    omega
  cases transport with
  | udp =>
      unfold frontLength RecordBuffer.getUdpLength RecordBuffer.field
      exact if_neg length
  | rawIp =>
      unfold frontLength RecordBuffer.getRawIpLength RecordBuffer.field
      exact if_neg length

/-- The first datagram is read and released. -/
theorem Keeps.exists_front (keeps : socket.Keeps transport)
    (waits : socket.session.waiting = datagram :: rest) :
    frontLength transport socket.session.buffer =
        .ok datagram.payload.length ∧
      front transport socket.session.buffer datagram.payload.length =
        .ok datagram ∧
      ∃ buffer, releaseFront transport socket.session.buffer
          datagram.payload.length datagram.payload.length = .ok buffer ∧
        DatagramSession.Queue transport ⟨buffer, rest⟩ := by
  have reads := keeps.queue.reads datagram (by simp [waits])
  have stores := keeps.queue.stores
  rw [waits, List.flatMap_cons] at stores
  obtain ⟨buffer, released, stored⟩ := Transport.exists_release stores
  have sendable := keeps.sendable datagram (by simp [waits])
  obtain ⟨payload, address, port⟩ := datagram
  cases transport with
  | udp =>
      obtain ⟨length, isAddress, isPort, isPayload⟩ := reads
      refine ⟨length, ?_, buffer, ?_, .of_stores stored⟩
      · simp [front, isPayload, isAddress, isPort]
      · rw [Transport.release, length] at released
        exact released
  | rawIp =>
      obtain ⟨length, isAddress, isPayload⟩ := reads
      have noPort : port = 0 := sendable.noPort rfl
      refine ⟨length, ?_, buffer, ?_, .of_stores stored⟩
      · simp [front, isPayload, isAddress, noPort]
      · rw [Transport.release, length] at released
        exact released

theorem sendDatagram_closed (isClosed : socket.isOpen = false)
    (answer : DatagramAnswer) :
    socket.sendDatagram transport datagram answer = (socket, -1) := by
  unfold sendDatagram
  rw [isClosed]
  exact if_neg Bool.false_ne_true

theorem alive_of_closed (isClosed : socket.isOpen = false) : socket.Alive := by
  intro isOpen
  rw [isClosed] at isOpen
  contradiction

theorem not_alive (isOpen : socket.isOpen = true)
    (waits : socket.session.waiting = datagram :: rest)
    (disarmed : socket.isArmed = false) : ¬socket.Alive := by
  intro alive
  have armed := alive isOpen (by simp [waits])
  rw [disarmed] at armed
  contradiction

/-- A socket without datagrams that wait is alive. -/
theorem alive_of_nil (none : socket.session.waiting = []) : socket.Alive := by
  intro _ some
  contradiction

/-- A socket that is closed or fails keeps its queue. -/
theorem Keeps.close (keeps : socket.Keeps transport) :
    socket.close.Keeps transport :=
  ⟨keeps.queue, keeps.order, keeps.sendable⟩

theorem Keeps.fail (keeps : socket.Keeps transport) :
    (socket.fail transport).Keeps transport := by
  cases transport with
  | udp => exact keeps
  | rawIp => exact keeps.close

theorem Keeps.send_nil (keeps : socket.Keeps transport)
    (none : socket.session.waiting = []) (answers : List DatagramAnswer) :
    socket.send transport answers = .ok (socket, true, answers) := by
  cases answers with
  | nil =>
      rw [send, keeps.frontLength_nil none]
      rfl
  | cons answer answers =>
      rw [send, keeps.frontLength_nil none]
      rfl

/-- What the loop does with the first datagram. -/
theorem Keeps.send_cons (keeps : socket.Keeps transport)
    (waits : socket.session.waiting = datagram :: rest)
    {answer : DatagramAnswer} {answers : List DatagramAnswer}
    {next : DatagramSocket} {ret : Int}
    (sent : socket.sendDatagram transport datagram answer = (next, ret)) :
    socket.send transport (answer :: answers) =
      if ret < 0 then .ok (next, false, answers)
      else if ret = 0 then .ok (next, true, answers)
      else
        releaseFront transport next.session.buffer ret.toNat
            datagram.payload.length >>= fun buffer =>
          send transport
            { next with session := ⟨buffer, next.session.waiting.tail⟩ }
            answers := by
  obtain ⟨length, isFront, -⟩ := keeps.exists_front waits
  have positive := (keeps.sendable datagram (by simp [waits])).positive
  rw [send, length]
  simp only [ok_bind, if_neg positive.ne', isFront, sent]
  rfl

theorem Keeps.send_last (keeps : socket.Keeps transport)
    (waits : socket.session.waiting = datagram :: rest)
    {next : DatagramSocket} {ret : Int}
    (sent : socket.sendDatagram transport datagram .blocked = (next, ret)) :
    socket.send transport [] = .ok (next, decide (0 ≤ ret), []) := by
  obtain ⟨length, isFront, -⟩ := keeps.exists_front waits
  have positive := (keeps.sendable datagram (by simp [waits])).positive
  rw [send, length]
  simp only [ok_bind, if_neg positive.ne', isFront, sent]
  rfl

/-! The answers on an open socket. -/

section Open

variable (isOpen : socket.isOpen = true)

include isOpen

theorem sendDatagram_taken (isStale : Bool)
    (positive : 0 < datagram.payload.length) :
    socket.sendDatagram transport datagram (.taken isStale) =
      ({ socket with sent := socket.sent ++ [datagram] },
        (datagram.payload.length : Int)) := by
  unfold sendDatagram
  rw [if_pos isOpen]
  exact if_pos positive.ne'

theorem sendDatagram_blocked :
    socket.sendDatagram transport datagram .blocked =
      ({ socket with isArmed := true }, 0) :=
  if_pos isOpen

theorem sendDatagram_interrupted :
    socket.sendDatagram transport datagram .interrupted = (socket, 0) :=
  if_pos isOpen

theorem sendDatagram_error :
    socket.sendDatagram transport datagram .error =
      (socket.fail transport, -1) :=
  if_pos isOpen

end Open

/-- The socket after the kernel has taken its first datagram. -/
def afterFront (socket : DatagramSocket) (datagram : Datagram)
    (rest : List Datagram) (buffer : RecordBuffer) : DatagramSocket :=
  { socket with
    sent := socket.sent ++ [datagram]
    session := ⟨buffer, rest⟩ }

theorem Keeps.afterFront (keeps : socket.Keeps transport)
    (waits : socket.session.waiting = datagram :: rest)
    {buffer : RecordBuffer}
    (queue : DatagramSession.Queue transport ⟨buffer, rest⟩) :
    (socket.afterFront datagram rest buffer).Keeps transport where
  queue := queue
  order := by
    show socket.accepted = socket.sent ++ [datagram] ++ rest
    rw [keeps.order, waits, List.append_cons]
  sendable := by
    intro other member
    exact keeps.sendable other (by simp [waits, show other ∈ rest from member])

/-- The loop on an open socket keeps the queue.  Datagrams are left without an
event that is owed exactly when it is interrupted, as a socket whose loop fails
is closed. -/
theorem Keeps.exists_send (keeps : socket.Keeps transport)
    (isOpen : socket.isOpen = true) (disarmed : socket.isArmed = false)
    (answers : List DatagramAnswer) :
    ∃ after result unread,
      socket.send transport answers = .ok (after, result, unread) ∧
      after.Keeps transport ∧
      ∃ read, answers = read ++ unread ∧
        (.interrupted ∉ read ↔
          (if result then after else after.close).Alive) := by
  induction answers generalizing socket with
  | nil =>
      cases waits : socket.session.waiting with
      | nil =>
          refine ⟨socket, true, [], keeps.send_nil waits [], keeps, [], rfl, ?_⟩
          exact iff_of_true List.not_mem_nil (alive_of_nil waits)
      | cons datagram rest =>
          -- the kernel has no room
          refine ⟨{ socket with isArmed := true }, true, [],
            keeps.send_last waits (sendDatagram_blocked isOpen),
            ⟨keeps.queue, keeps.order, keeps.sendable⟩, [], rfl, ?_⟩
          exact iff_of_true List.not_mem_nil fun _ _ => rfl
  | cons answer answers inductionHypothesis =>
      cases waits : socket.session.waiting with
      | nil =>
          refine ⟨socket, true, answer :: answers, keeps.send_nil waits _,
            keeps, [], rfl, ?_⟩
          exact iff_of_true List.not_mem_nil (alive_of_nil waits)
      | cons datagram rest =>
          cases answer with
          | taken isStale =>
              obtain ⟨-, -, buffer, released, queue⟩ := keeps.exists_front waits
              obtain ⟨after, result, unread, sent, keepsAfter, read, rfl,
                alive_iff⟩ := inductionHypothesis
                  (keeps.afterFront waits queue) isOpen disarmed
              refine ⟨after, result, unread, ?_, keepsAfter,
                .taken isStale :: read, rfl, ?_⟩
              · have positive :=
                  (keeps.sendable datagram (by simp [waits])).positive
                rw [keeps.send_cons waits
                  (sendDatagram_taken isOpen isStale positive),
                  if_neg (by omega), if_neg (by omega), Int.toNat_natCast]
                simp only [released, ok_bind, waits, List.tail_cons]
                exact sent
              · rw [← alive_iff]
                simp
          | blocked =>
              refine ⟨{ socket with isArmed := true }, true, answers,
                keeps.send_cons waits (sendDatagram_blocked isOpen),
                ⟨keeps.queue, keeps.order, keeps.sendable⟩, [.blocked], rfl,
                ?_⟩
              exact iff_of_true (by simp) fun _ _ => rfl
          | interrupted =>
              refine ⟨socket, true, answers,
                keeps.send_cons waits (sendDatagram_interrupted isOpen),
                keeps, [.interrupted], rfl, ?_⟩
              exact iff_of_false (by simp) (not_alive isOpen waits disarmed)
          | error =>
              refine ⟨socket.fail transport, false, answers,
                keeps.send_cons waits (sendDatagram_error isOpen),
                keeps.fail, [.error], rfl, ?_⟩
              exact iff_of_true (by simp) (alive_of_closed rfl)

/-- An event keeps the queue, and leaves the socket alive exactly when it is not
interrupted. -/
theorem Keeps.exists_onEpollOut (keeps : socket.Keeps transport)
    (answers : List DatagramAnswer) :
    ∃ after result unread,
      socket.onEpollOut transport answers = .ok (after, result, unread) ∧
      after.Keeps transport ∧
      (unread = [] →
        (socket.Passes transport (.epollOut answers) ↔ after.Alive)) := by
  cases isOpen : socket.isOpen with
  | false =>
      refine ⟨{ socket with isArmed := false }, true, answers, ?_,
        ⟨keeps.queue, keeps.order, keeps.sendable⟩, ?_⟩
      · unfold onEpollOut
        rw [isOpen]
        rfl
      · intro _
        refine iff_of_true ?_ (alive_of_closed isOpen)
        intro opened
        rw [isOpen] at opened
        contradiction
  | true =>
      have disarmed : DatagramSocket.Keeps transport
          { socket with isArmed := false } :=
        ⟨keeps.queue, keeps.order, keeps.sendable⟩
      obtain ⟨after, result, unread, sent, keepsAfter, read, rfl, alive_iff⟩ :=
        disarmed.exists_send isOpen rfl answers
      refine ⟨if result then after else after.close, result, unread, ?_, ?_,
        ?_⟩
      · unfold onEpollOut
        rw [if_pos isOpen, sent]
        rfl
      · cases result with
        | true => exact keepsAfter
        | false => exact keepsAfter.close
      · intro allRead
        rw [← alive_iff, allRead, List.append_nil]
        unfold Passes
        exact forall_prop_of_true isOpen

/-! ## Runs -/

theorem Keeps.initial (positive : 0 < capacity)
    (bounded : capacity ≤ maxCapacity) :
    (initial capacity).Keeps transport where
  queue := .initial positive bounded
  order := rfl
  sendable := by
    intro datagram member
    contradiction

/-- A datagram is refused, or it goes behind the others. -/
theorem Keeps.exists_queue (keeps : socket.Keeps transport)
    (sendable : Sendable transport datagram) :
    ∃ after result, socket.queue transport datagram = .ok (after, result) ∧
      after.Keeps transport ∧ after.isOpen = socket.isOpen ∧
      after.isArmed = socket.isArmed ∧
      (socket.session.buffer.Refuses
            (wrap (transport.record datagram).length) ∧ after = socket ∨
        ¬socket.session.buffer.Refuses
            (wrap (transport.record datagram).length) ∧
          after.session.waiting = socket.session.waiting ++ [datagram]) := by
  obtain ⟨refuses, refused⟩ | ⟨accepts, -, buffer, added, stores⟩ |
      ⟨-, wraps, -⟩ := keeps.queue.stores.addRecord (transport.header datagram)
    datagram.payload
  · refine ⟨socket, false, ?_, keeps, rfl, rfl, .inl ⟨refuses, rfl⟩⟩
    rw [DatagramSocket.queue, Transport.add_eq_addRecord, refused]
    rfl
  · refine ⟨{ socket with
      session := ⟨buffer, socket.session.waiting ++ [datagram]⟩
      accepted := socket.accepted ++ [datagram] }, true, ?_, ?_, rfl, rfl,
      .inr ⟨accepts, rfl⟩⟩
    · rw [DatagramSocket.queue, Transport.add_eq_addRecord, added]
      rfl
    constructor
    case queue =>
      apply DatagramSession.Queue.of_stores
      rw [List.flatMap_append, List.flatMap_singleton]
      exact stores
    case order =>
      rw [keeps.order, List.append_assoc]
    case sendable =>
      intro other member
      obtain before | isLast := List.mem_append.mp member
      · exact keeps.sendable other before
      · rw [List.mem_singleton.mp isLast]
        exact sendable
  · -- the sizes are far from 32 bits
    have stores := keeps.queue.stores
    have inside := stores.endMark_le
    have linear := stores.linear
    have bounded := stores.bounded
    have small := sendable.small
    have header : (transport.header datagram).flatten.length ≤ 6 := by
      cases transport <;>
        simp [Transport.header, length_wordBytes, length_littleEndianBytes]
    rw [RecordBuffer.Fits, RecordBuffer.length_recordBytes] at wraps
    unfold maxCapacity at bounded
    omega

/-- The buffer is empty while no datagram waits. -/
theorem Keeps.isEmpty_of_nil (keeps : socket.Keeps transport)
    (waits : socket.session.waiting = []) :
    socket.session.buffer.isEmpty = true := by
  rw [keeps.queue.isEmpty, waits]
  rfl

/-- An open socket with no waiting datagram passes the next one to the kernel. -/
theorem Keeps.exists_sendDirect (keeps : socket.Keeps transport)
    (sendable : Sendable transport datagram) (answer : DatagramAnswer)
    (waits : socket.session.waiting = []) (isOpen : socket.isOpen = true) :
    ∃ after result,
      socket.sendData transport datagram answer = .ok (after, result) ∧
      after.Keeps transport ∧ (socket.Alive →
        (socket.Passes transport (.sendData datagram answer) ↔
          after.Alive)) := by
  have direct := keeps.isEmpty_of_nil waits
  cases answer with
  | taken isStale =>
      refine ⟨{ socket with
        sent := socket.sent ++ [datagram]
        accepted := socket.accepted ++ [datagram] }, true, ?_, ?_, ?_⟩
      · have positive := sendable.positive
        rw [sendData, if_pos direct,
          sendDatagram_taken isOpen isStale positive]
        simp only
        rw [if_neg (by omega), if_neg (by omega)]
        rfl
      · refine ⟨keeps.queue, ?_, keeps.sendable⟩
        simp [keeps.order, waits]
      · intro _
        exact iff_of_true (fun _ _ => nofun) (alive_of_nil waits)
  | blocked =>
      have armed : DatagramSocket.Keeps transport
          { socket with isArmed := true } :=
        ⟨keeps.queue, keeps.order, keeps.sendable⟩
      obtain ⟨after, result, queued, keepsAfter, -, sameArmed, -⟩ :=
        armed.exists_queue sendable
      refine ⟨after, result, ?_, keepsAfter, ?_⟩
      · rw [sendData, if_pos direct, sendDatagram_blocked isOpen]
        exact queued
      · intro _
        exact iff_of_true (fun _ _ => nofun) fun _ _ => sameArmed
  | interrupted =>
      obtain ⟨after, result, queued, keepsAfter, sameOpen, sameArmed,
        goes⟩ := keeps.exists_queue sendable
      refine ⟨after, result, ?_, keepsAfter, ?_⟩
      · rw [sendData, if_pos direct, sendDatagram_interrupted isOpen]
        exact queued
      · intro alive
        obtain ⟨refuses, rfl⟩ | ⟨accepts, waitsAfter⟩ := goes
        · exact iff_of_true (fun _ _ _ => .inr refuses) alive
        · constructor
          · intro passes _ _
            rw [sameArmed]
            exact (passes isOpen waits rfl).resolve_right accepts
          · intro aliveAfter _ _ _
            refine .inl ?_
            rw [← sameArmed]
            exact aliveAfter (sameOpen.trans isOpen)
              (by simp [waitsAfter])
  | error =>
      refine ⟨socket.fail transport, false, ?_, ?_, ?_⟩
      · rw [sendData, if_pos direct, sendDatagram_error isOpen]
        rfl
      · exact keeps.fail
      · intro _
        refine iff_of_true (fun _ _ => nofun) (alive_of_nil ?_)
        cases transport with
        | udp => exact waits
        | rawIp => exact waits

/-- Sending a datagram keeps the queue, and keeps the socket alive exactly when
it passes. -/
theorem Keeps.exists_sendData (keeps : socket.Keeps transport)
    (sendable : Sendable transport datagram) (answer : DatagramAnswer) :
    ∃ after result,
      socket.sendData transport datagram answer = .ok (after, result) ∧
      after.Keeps transport ∧ (socket.Alive →
        (socket.Passes transport (.sendData datagram answer) ↔
          after.Alive)) := by
  have isEmpty := keeps.queue.isEmpty
  cases waits : socket.session.waiting with
  | cons first rest =>
      obtain ⟨after, result, queued, keepsAfter, sameOpen, sameArmed, -⟩ :=
        keeps.exists_queue sendable
      refine ⟨after, result, ?_, keepsAfter, ?_⟩
      · rw [sendData, isEmpty, waits]
        exact queued
      · intro alive
        refine iff_of_true ?_ ?_
        · intro _ none
          rw [waits] at none
          contradiction
        · intro isOpen _
          rw [sameArmed]
          exact alive (sameOpen ▸ isOpen) (by simp [waits])
  | nil =>
      cases isOpen : socket.isOpen with
      | false =>
          refine ⟨socket, false, ?_, keeps, ?_⟩
          · rw [sendData, if_pos (keeps.isEmpty_of_nil waits),
              sendDatagram_closed isOpen]
            rfl
          · intro alive
            refine iff_of_true ?_ alive
            intro opened
            rw [isOpen] at opened
            contradiction
      | true =>
          exact keeps.exists_sendDirect sendable answer waits isOpen

/-- Every step keeps the queue, and keeps the socket alive exactly when it
passes. -/
theorem Keeps.step {label : Label} (keeps : socket.Keeps transport)
    (step : socket.Step transport label after) :
    after.Keeps transport ∧
      (socket.Alive → (socket.Passes transport label ↔ after.Alive)) := by
  obtain ⟨valid, result, performed⟩ := step
  cases label with
  | sendData datagram answer =>
      obtain ⟨other, same, sent, keepsOther, alive_iff⟩ :=
        keeps.exists_sendData valid answer
      rw [perform, sent] at performed
      obtain ⟨rfl, -⟩ := Prod.mk.inj (Except.ok.inj performed)
      exact ⟨keepsOther, alive_iff⟩
  | epollOut answers =>
      obtain ⟨other, same, unread, handled, keepsOther, alive_iff⟩ :=
        keeps.exists_onEpollOut answers
      rw [perform, handled] at performed
      obtain ⟨rfl, rest⟩ := Prod.mk.inj (Except.ok.inj performed)
      exact ⟨keepsOther, fun _ => alive_iff (Prod.mk.inj rest).2⟩

theorem Step.functional {label : Label} {other : DatagramSocket}
    (first : socket.Step transport label after)
    (second : socket.Step transport label other) : after = other := by
  obtain ⟨-, result, first⟩ := first
  obtain ⟨-, same, second⟩ := second
  have both := Except.ok.inj (first.symm.trans second)
  exact congrArg Prod.fst both

end DatagramSocket
end Sockets
end Pilot2Cloud
