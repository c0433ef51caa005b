import Pilot2Cloud.SendBuffer.TcpFifo

/-!
# Sending over TCP

A TCP socket tries to send at once when its buffer was empty, and goes on
whenever an `EPOLLOUT` event arrives.  Events are edge-triggered: the kernel
owes one only after a call of `send` that found no room.  A socket with bytes
left and no event owed waits for ever.
-/

namespace Pilot2Cloud
namespace Sockets

open Foundation Memory SendBuffer

/-- What the kernel does with one call of `send`. -/
inductive SendAnswer
  /-- It has room for that many bytes; without any it reports `EWOULDBLOCK`. -/
  | room (count : Nat)
  /-- `EINTR`. -/
  | interrupted
  | error

/-- `TcpSocket`, with the bytes that were accepted and those that were sent. -/
structure TcpSocket where
  session : TcpSession
  /-- `m_socketFd` is not zero. -/
  isOpen : Bool
  /-- The kernel owes an `EPOLLOUT` event. -/
  isArmed : Bool

namespace TcpSocket

/-- An open socket with an empty buffer. -/
def initial (capacity : Nat) : TcpSocket :=
  ⟨.initial capacity, true, false⟩

/-- The buffer is empty. -/
def isEmpty (socket : TcpSocket) : Bool :=
  socket.session.buffer.length == 0

/-- `PlatformSocket::SendTcp`. -/
def sendTcp (socket : TcpSocket) (size : Nat) (answer : SendAnswer) :
    TcpSocket × Int :=
  if socket.isOpen then
    match answer with
    | .room 0 => ({ socket with isArmed := true }, 0)
    | .room count => (socket, ((min count size : Nat) : Int))
    | .interrupted => (socket, 0)
    | .error => ({ socket with isOpen := false }, -1)
  else (socket, -1)

/-- `TcpSocket::Send()`, with the answers to its calls of `send` and those that
it leaves.  After the last answer the kernel has no room. -/
def send (socket : TcpSocket) (answers : List SendAnswer) :
    Except Fault (TcpSocket × Bool × List SendAnswer) :=
  let size := socket.session.buffer.getTcpLength
  if size = 0 then .ok (socket, true, answers)
  else
    match answers with
    | [] =>
        let (socket, ret) := socket.sendTcp size (.room 0)
        .ok (socket, decide (0 ≤ ret), [])
    | answer :: answers =>
        let (socket, ret) := socket.sendTcp size answer
        if ret = 0 then .ok (socket, true, answers)
        else if ret < 0 then .ok (socket, false, answers)
        else do
          let session ← socket.session.perform (.release ret.toNat)
          send { socket with session := session } answers

/-- `TcpSocket::Send(data, size)`. -/
def sendData (socket : TcpSocket) (data : List UInt8)
    (answers : List SendAnswer) :
    Except Fault (TcpSocket × Bool × List SendAnswer) := do
  let (buffer, isAdded) ← socket.session.buffer.addTcpBuffer data
  if !isAdded then return (socket, false, answers)
  let session := { socket.session with
    buffer := buffer
    accepted := socket.session.accepted ++ data }
  let next := { socket with session := session }
  if socket.isEmpty then next.send answers
  else return (next, true, answers)

/-- A caller sends data, or an `EPOLLOUT` event arrives. -/
inductive Label
  | sendData (data : List UInt8) (answers : List SendAnswer)
  | epollOut (answers : List SendAnswer)

/-- A call of `SendData`, or an event that the socket can be written to. -/
def perform (socket : TcpSocket) :
    Label → Except Fault (TcpSocket × Bool × List SendAnswer)
  | .sendData data answers => socket.sendData data answers
  | .epollOut answers => { socket with isArmed := false }.send answers

/-- The answers of a label are those that its calls get. -/
def Step (socket : TcpSocket) (label : Label) (after : TcpSocket) : Prop :=
  ∃ result, socket.perform label = .ok (after, result, [])

/-- An open socket with bytes left is owed an event. -/
def Alive (socket : TcpSocket) : Prop :=
  socket.isOpen → socket.session.buffer.length ≠ 0 → socket.isArmed

/-- On an open socket no call of `send` is interrupted, and no byte is added
while the read position is at the end of the array. -/
def Passes (socket : TcpSocket) : Label → Prop
  | .sendData data answers =>
      socket.isOpen →
        ¬socket.session.Stalls (.add data) ∧ SendAnswer.interrupted ∉ answers
  | .epollOut answers =>
      socket.isOpen → SendAnswer.interrupted ∉ answers

/-- Bytes may have been sent since, but none accepted, and a closed socket is
not opened again. -/
structure Continues (socket after : TcpSocket) : Prop where
  accepted : after.session.accepted = socket.session.accepted
  released : socket.session.released <+: after.session.released
  closed : socket.isOpen = false → after.isOpen = false

/-- The buffer holds the bytes that are left, and an event is only owed while
it offers some of them. -/
structure Keeps (socket : TcpSocket) (capacity : Nat) (left : List UInt8) :
    Prop where
  holds : socket.session.Holds capacity left
  armed : socket.isArmed → 0 < socket.session.buffer.getTcpLength

variable {socket after : TcpSocket} {capacity : Nat} {left : List UInt8}

/-! ## The loop -/

theorem Continues.refl (socket : TcpSocket) : socket.Continues socket :=
  ⟨rfl, List.prefix_rfl, id⟩

theorem Continues.trans {middle : TcpSocket} (first : socket.Continues middle)
    (second : middle.Continues after) : socket.Continues after where
  accepted := second.accepted.trans first.accepted
  released := first.released.trans second.released
  closed := second.closed ∘ first.closed

/-- What the socket takes stays a part of the queue, and bytes go on to flow. -/
theorem exists_release (holds : socket.session.Holds capacity left)
    {count : Nat} (offered : count ≤ socket.session.buffer.getTcpLength) :
    ∃ session, socket.session.perform (.release count) = .ok session ∧
      (∃ rest, session.Holds capacity rest) ∧
      session.buffer = socket.session.buffer.releaseTcpBuffer count ∧
      socket.Continues { socket with session := session } ∧
      (socket.session.Flows → session.Flows) := by
  let session : TcpSession := { socket.session with
    buffer := socket.session.buffer.releaseTcpBuffer count
    released := socket.session.released ++
      ((left.take socket.session.buffer.getTcpLength).map some).take count }
  have performed :
      socket.session.perform (.release count) = .ok session := by
    rw [TcpSession.perform, holds.bytes.exposed]
    rfl
  have step : socket.session.Step (.release count) session :=
    ⟨offered, performed⟩
  refine ⟨session, performed, holds.step step, rfl,
    ⟨rfl, List.prefix_append _ _, id⟩, ?_⟩
  intro flows
  exact (holds.not_stalls_iff flows step).mp id

theorem sendTcp_room (isOpen : socket.isOpen = true) (size : Nat) {count : Nat}
    (some : count ≠ 0) :
    socket.sendTcp size (.room count) =
      (socket, ((min count size : Nat) : Int)) := by
  unfold sendTcp
  rw [if_pos isOpen]
  cases count with
  | zero => contradiction
  | succ count => rfl

theorem Keeps.of_disarmed (holds : socket.session.Holds capacity left)
    (disarmed : socket.isArmed = false) : socket.Keeps capacity left := by
  refine ⟨holds, ?_⟩
  intro armed
  rw [disarmed] at armed
  contradiction

/-- A socket with bytes left that is not owed an event is not alive. -/
theorem not_alive (some : socket.session.buffer.length ≠ 0)
    (isOpen : socket.isOpen = true) (disarmed : socket.isArmed = false) :
    ¬socket.Alive := by
  intro alive
  have armed := alive isOpen some
  rw [disarmed] at armed
  contradiction

theorem alive_of_closed (isClosed : socket.isOpen = false) : socket.Alive := by
  intro isOpen
  rw [isClosed] at isOpen
  contradiction

theorem passes_of_closed (isClosed : socket.isOpen = false) (label : Label) :
    socket.Passes label := by
  cases label with
  | sendData | epollOut =>
      intro isOpen
      rw [isClosed] at isOpen
      contradiction

theorem send_of_nothing (nothing : socket.session.buffer.getTcpLength = 0)
    (answers : List SendAnswer) :
    socket.send answers = .ok (socket, true, answers) := by
  unfold send
  exact if_pos nothing

/-- The loop goes on with what the kernel has not taken. -/
theorem send_room {count : Nat} {session : TcpSession}
    {answers : List SendAnswer} (isOpen : socket.isOpen = true)
    (offered : socket.session.buffer.getTcpLength ≠ 0) (some : count ≠ 0)
    (performed : socket.session.perform
      (.release (min count socket.session.buffer.getTcpLength)) = .ok session) :
    socket.send (.room count :: answers) =
      { socket with session := session }.send answers := by
  have taken := sendTcp_room isOpen socket.session.buffer.getTcpLength some
  rw [send, if_neg offered]
  simp only [taken]
  rw [if_neg (by omega), if_neg (by omega), Int.toNat_natCast, performed]
  rfl

/-- The loop keeps the queue.  It leaves the socket without an event that is
owed exactly when it is interrupted. -/
theorem exists_send (holds : socket.session.Holds capacity left)
    (disarmed : socket.isArmed = false) (answers : List SendAnswer) :
    ∃ after result unread, socket.send answers = .ok (after, result, unread) ∧
      (∃ rest, after.Keeps capacity rest) ∧ socket.Continues after ∧
      ∃ read, answers = read ++ unread ∧
        (socket.session.Flows → socket.isOpen →
          (SendAnswer.interrupted ∉ read ↔ after.Alive)) := by
  induction answers generalizing socket left with
  | nil =>
      by_cases nothing : socket.session.buffer.getTcpLength = 0
      · refine ⟨socket, true, [], send_of_nothing nothing _,
          ⟨left, .of_disarmed holds disarmed⟩, .refl socket, [], rfl, ?_⟩
        intro flows _
        refine iff_of_true List.not_mem_nil ?_
        intro _ some
        have offered := flows (Nat.pos_of_ne_zero some)
        omega
      by_cases isOpen : socket.isOpen
      · -- the kernel has no room
        refine ⟨{ socket with isArmed := true }, true, [], ?_, ⟨left, holds, ?_⟩,
          ⟨rfl, List.prefix_rfl, id⟩, [], rfl, ?_⟩
        · simp [send, nothing, sendTcp, isOpen]
        · intro _
          exact Nat.pos_of_ne_zero nothing
        · intro _ _
          exact iff_of_true List.not_mem_nil fun _ _ => rfl
      · refine ⟨socket, false, [], ?_, ⟨left, .of_disarmed holds disarmed⟩,
          .refl socket, [], rfl, ?_⟩
        · simp [send, nothing, sendTcp, isOpen]
        · intro _ opened
          contradiction
  | cons answer answers inductionHypothesis =>
      by_cases nothing : socket.session.buffer.getTcpLength = 0
      · refine ⟨socket, true, answer :: answers, send_of_nothing nothing _,
          ⟨left, .of_disarmed holds disarmed⟩, .refl socket, [], rfl, ?_⟩
        intro flows _
        refine iff_of_true List.not_mem_nil ?_
        intro _ some
        have offered := flows (Nat.pos_of_ne_zero some)
        omega
      by_cases isOpen : socket.isOpen
      case neg =>
        refine ⟨socket, false, answers, ?_, ⟨left, .of_disarmed holds disarmed⟩,
          .refl socket, [answer], rfl, ?_⟩
        · simp [send, nothing, sendTcp, isOpen]
        · intro _ opened
          contradiction
      cases answer with
      | room count =>
          cases count with
          | zero =>
              refine ⟨{ socket with isArmed := true }, true, answers, ?_,
                ⟨left, holds, ?_⟩, ⟨rfl, List.prefix_rfl, id⟩, [.room 0], rfl,
                ?_⟩
              · simp [send, nothing, sendTcp, isOpen]
              · intro _
                exact Nat.pos_of_ne_zero nothing
              · intro _ _
                exact iff_of_true (by simp) fun _ _ => rfl
          | succ count =>
              obtain ⟨session, performed, ⟨rest, next⟩, -, first,
                  keepsFlowing⟩ :=
                exists_release holds (Nat.min_le_right (count + 1) _)
              obtain ⟨after, result, unread, sent, keeps, second, read, rfl,
                  alive⟩ :=
                @inductionHypothesis { socket with session := session } rest
                  next disarmed
              refine ⟨after, result, unread, ?_, keeps, first.trans second,
                .room (count + 1) :: read, rfl, ?_⟩
              · rw [send_room isOpen nothing (Nat.succ_ne_zero count) performed]
                exact sent
              · intro flows opened
                rw [← alive (keepsFlowing flows) opened]
                simp
      | interrupted =>
          refine ⟨socket, true, answers, ?_, ⟨left, .of_disarmed holds disarmed⟩,
            .refl socket, [.interrupted], rfl, ?_⟩
          · simp [send, nothing, sendTcp, isOpen]
          · intro _ _
            have length := holds.bytes.length
            have lengths := holds.bytes.getTcpLength_le
            exact iff_of_false (by simp)
              (not_alive (by omega) isOpen disarmed)
      | error =>
          refine ⟨{ socket with isOpen := false }, false, answers, ?_,
            ⟨left, .of_disarmed holds disarmed⟩,
            ⟨rfl, List.prefix_rfl, fun _ => rfl⟩, [.error], rfl, ?_⟩
          · simp [send, nothing, sendTcp, isOpen]
          · intro _ _
            exact iff_of_true (by simp) (alive_of_closed rfl)

/-! ## Runs -/

theorem Keeps.initial (capacity : Nat) :
    (initial capacity).Keeps capacity [] :=
  .of_disarmed (.initial capacity) rfl

/-- The bytes of an open socket that is alive flow. -/
theorem Keeps.flows (keeps : socket.Keeps capacity left) (alive : socket.Alive)
    (isOpen : socket.isOpen = true) : socket.session.Flows := by
  intro some
  exact keeps.armed (alive isOpen (Nat.pos_iff_ne_zero.mp some))

/-- No event is owed to a socket without bytes. -/
theorem Keeps.disarmed_of_isEmpty (keeps : socket.Keeps capacity left)
    (empty : socket.isEmpty = true) : socket.isArmed = false := by
  have none : socket.session.buffer.length = 0 := beq_iff_eq.mp empty
  have length := keeps.holds.bytes.length
  have lengths := keeps.holds.bytes.getTcpLength_le
  rw [← Bool.not_eq_true]
  intro armed
  have offered := keeps.armed armed
  omega

/-- An `EPOLLOUT` event keeps the queue, and keeps the socket alive exactly when
it passes. -/
theorem Keeps.exists_epollOut (keeps : socket.Keeps capacity left)
    (answers : List SendAnswer) :
    ∃ after result unread,
      socket.perform (.epollOut answers) = .ok (after, result, unread) ∧
      (∃ rest, after.Keeps capacity rest) ∧
      (unread = [] → socket.Alive →
        (socket.Passes (.epollOut answers) ↔ after.Alive)) := by
  obtain ⟨after, result, unread, sent, next, continues, read, rfl,
      alive_iff⟩ :=
    @exists_send { socket with isArmed := false } capacity left keeps.holds
      rfl answers
  refine ⟨after, result, unread, sent, next, ?_⟩
  rintro rfl alive
  cases isOpen : socket.isOpen with
  | false =>
      exact iff_of_true (passes_of_closed isOpen _)
        (alive_of_closed (continues.closed isOpen))
  | true =>
      rw [← alive_iff (keeps.flows alive isOpen) isOpen, Passes, isOpen,
        List.append_nil]
      exact forall_prop_of_true rfl

/-- Sending data keeps the queue, and keeps the socket alive exactly when it
passes. -/
theorem Keeps.exists_sendData (keeps : socket.Keeps capacity left)
    (data : List UInt8) (answers : List SendAnswer) :
    ∃ after result unread,
      socket.perform (.sendData data answers) = .ok (after, result, unread) ∧
      (∃ rest, after.Keeps capacity rest) ∧
      (unread = [] → socket.Alive →
        (socket.Passes (.sendData data answers) ↔ after.Alive)) := by
  have holds := keeps.holds
  obtain ⟨-, refused⟩ | ⟨-, buf, write, added, -⟩ := holds.bytes.add data
  · refine ⟨socket, false, answers, ?_, ⟨left, keeps⟩, ?_⟩
    · rw [perform, sendData, refused]
      rfl
    rintro rfl alive
    refine iff_of_true ?_ alive
    intro isOpen
    have flows := keeps.flows alive isOpen
    have step : socket.session.Step (.add data) socket.session := by
      refine ⟨trivial, ?_⟩
      rw [TcpSession.perform, refused]
      rfl
    exact ⟨(holds.not_stalls_iff flows step).mpr flows, List.not_mem_nil⟩
  let buffer := socket.session.buffer.advance buf write data.length
  let session : TcpSession := { socket.session with
    buffer := buffer
    accepted := socket.session.accepted ++ data }
  let next : TcpSocket := { socket with session := session }
  have step : socket.session.Step (.add data) session := by
    refine ⟨trivial, ?_⟩
    rw [TcpSession.perform, added]
    rfl
  obtain ⟨rest, holdsNext⟩ := holds.step step
  cases empty : socket.isEmpty with
  | false =>
      have some : socket.session.buffer.length ≠ 0 := beq_eq_false_iff_ne.mp empty
      refine ⟨next, true, answers, ?_, ⟨rest, holdsNext, ?_⟩, ?_⟩
      · rw [perform, sendData, added]
        simp only [ok_bind, empty]
        rfl
      · intro armed
        have inside := holds.flows_iff.mp (fun _ => keeps.armed armed) some
        have flowsNext : session.Flows :=
          holdsNext.flows_iff.mpr fun _ => inside
        exact flowsNext (Nat.add_pos_left (Nat.pos_of_ne_zero some) _)
      rintro rfl alive
      cases isOpen : socket.isOpen with
      | false =>
          exact iff_of_true (passes_of_closed isOpen _) (alive_of_closed isOpen)
      | true =>
          refine iff_of_true ?_ fun _ _ => alive isOpen some
          intro _
          have inside :=
            holds.flows_iff.mp (keeps.flows alive isOpen) some
          exact ⟨fun stalls => inside stalls.2.2, List.not_mem_nil⟩
  | true =>
      have none : socket.session.buffer.length = 0 := beq_iff_eq.mp empty
      have disarmed := keeps.disarmed_of_isEmpty empty
      obtain ⟨after, result, unread, sent, keepsAfter, continues, read, rfl,
          alive_iff⟩ :=
        @exists_send next capacity rest holdsNext disarmed answers
      refine ⟨after, result, unread, ?_, keepsAfter, ?_⟩
      · rw [perform, sendData, added]
        simp only [ok_bind, empty]
        exact sent
      rintro rfl alive
      cases isOpen : socket.isOpen with
      | false =>
          exact iff_of_true (passes_of_closed isOpen _)
            (alive_of_closed (continues.closed isOpen))
      | true =>
          have stalls_iff :=
            holds.not_stalls_iff (keeps.flows alive isOpen) step
          by_cases stalls : socket.session.Stalls (.add data)
          · have stuck : ¬session.Flows := mt stalls_iff.mpr (not_not.mpr stalls)
            rw [TcpSession.Flows, Classical.not_imp] at stuck
            have nothing : session.buffer.getTcpLength = 0 := by omega
            rw [send_of_nothing nothing] at sent
            obtain ⟨rfl, -⟩ := Prod.mk.inj (Except.ok.inj sent)
            exact iff_of_false (fun passes => (passes isOpen).1 stalls)
              (not_alive (Nat.pos_iff_ne_zero.mp stuck.1) isOpen disarmed)
          · rw [← alive_iff (stalls_iff.mp stalls) isOpen, Passes, isOpen,
              List.append_nil]
            exact (forall_prop_of_true rfl).trans (and_iff_right stalls)

/-- Every label keeps the queue, and keeps the socket alive exactly when it
passes. -/
theorem Keeps.exists_perform (keeps : socket.Keeps capacity left)
    (label : Label) :
    ∃ after result unread, socket.perform label = .ok (after, result, unread) ∧
      (∃ rest, after.Keeps capacity rest) ∧
      (unread = [] → socket.Alive → (socket.Passes label ↔ after.Alive)) := by
  cases label with
  | sendData data answers => exact keeps.exists_sendData data answers
  | epollOut answers => exact keeps.exists_epollOut answers

/-- Every step keeps the queue, and keeps the socket alive exactly when it
passes. -/
theorem Keeps.step {label : Label} (keeps : socket.Keeps capacity left)
    (step : socket.Step label after) :
    (∃ rest, after.Keeps capacity rest) ∧
      (socket.Alive → (socket.Passes label ↔ after.Alive)) := by
  obtain ⟨other, result, unread, performed, next, alive_iff⟩ :=
    keeps.exists_perform label
  obtain ⟨same, isAfter⟩ := step
  rw [performed] at isAfter
  cases isAfter
  exact ⟨next, alive_iff rfl⟩

theorem Step.functional {label : Label} {other : TcpSocket}
    (first : socket.Step label after) (second : socket.Step label other) :
    after = other := by
  obtain ⟨result, first⟩ := first
  obtain ⟨same, second⟩ := second
  have both := Except.ok.inj (first.symm.trans second)
  exact congrArg Prod.fst both

theorem exists_keeps_of_run {labels : List Label}
    (run : Run Step (initial capacity) labels socket) :
    ∃ left, socket.Keeps capacity left := by
  have kept : ∀ state label next, (∃ left, Keeps state capacity left) →
      Step state label next → ∃ left, Keeps next capacity left := by
    rintro state label next ⟨left, keeps⟩ step
    exact (keeps.step step).1
  obtain ⟨left, keeps⟩ := run.preserves kept ⟨[], .initial capacity⟩
  exact ⟨left, keeps⟩

/-- An open socket whose bytes flow can send all of them at once. -/
theorem exists_drained (holds : socket.session.Holds capacity left)
    (flows : socket.session.Flows) (isOpen : socket.isOpen = true) :
    ∃ answers after, socket.send answers = .ok (after, true, []) ∧
      after.session.Holds capacity [] ∧
      after.session.accepted = socket.session.accepted := by
  -- each call takes all that is offered
  generalize size : left.length = count
  induction count using Nat.strong_induction_on generalizing socket left with
  | _ count inductionHypothesis =>
      have lengths := holds.bytes.getTcpLength_le
      have length := holds.bytes.length
      by_cases nothing : socket.session.buffer.getTcpLength = 0
      · have none : left = [] := by
          rw [← List.length_eq_zero_iff]
          unfold TcpSession.Flows at flows
          omega
        rw [none] at holds
        exact ⟨[], socket, send_of_nothing nothing [], holds, rfl⟩
      obtain ⟨session, performed, ⟨rest, next⟩, buffer, continues,
          keepsFlowing⟩ :=
        exists_release holds
          (Nat.min_le_right socket.session.buffer.getTcpLength _)
      have less : rest.length < count := by
        rw [← next.bytes.length, buffer, Nat.min_self,
          TcpBuffer.length_releaseTcpBuffer (by omega)]
        omega
      obtain ⟨answers, after, sent, drained, same⟩ :=
        @inductionHypothesis rest.length less { socket with session := session }
          rest next (keepsFlowing flows) isOpen rfl
      refine ⟨.room socket.session.buffer.getTcpLength :: answers, after, ?_,
        drained, same.trans continues.accepted⟩
      rw [send_room isOpen nothing nothing performed]
      exact sent

/-- A socket that offers none of its bytes never does so again. -/
theorem stuck_step {label : Label} (holds : socket.session.Holds capacity left)
    (stuck : ¬socket.session.Flows) (step : socket.Step label after) :
    (∃ rest, after.session.Holds capacity rest) ∧ ¬after.session.Flows ∧
      after.session.released = socket.session.released := by
  obtain ⟨result, performed⟩ := step
  have both := stuck
  rw [TcpSession.Flows, Classical.not_imp, Nat.not_lt, Nat.le_zero] at both
  obtain ⟨some, nothing⟩ := both
  cases label with
  | epollOut answers =>
      rw [perform, @send_of_nothing { socket with isArmed := false } nothing]
        at performed
      obtain ⟨rfl, -⟩ := Prod.mk.inj (Except.ok.inj performed)
      exact ⟨⟨left, holds⟩, stuck, rfl⟩
  | sendData data answers =>
      rw [perform, sendData] at performed
      obtain ⟨-, refused⟩ | ⟨-, buf, write, added, next⟩ := holds.bytes.add data
      · rw [refused] at performed
        obtain ⟨rfl, -⟩ := Prod.mk.inj (Except.ok.inj performed)
        exact ⟨⟨left, holds⟩, stuck, rfl⟩
      · have notEmpty : socket.isEmpty = false :=
          beq_eq_false_iff_ne.mpr (Nat.pos_iff_ne_zero.mp some)
        rw [added] at performed
        simp only [ok_bind, notEmpty] at performed
        obtain ⟨rfl, -⟩ := Prod.mk.inj (Except.ok.inj performed)
        have step : socket.session.Step (.add data) { socket.session with
            buffer := socket.session.buffer.advance buf write data.length
            accepted := socket.session.accepted ++ data } := by
          refine ⟨trivial, ?_⟩
          rw [TcpSession.perform, added]
          rfl
        obtain ⟨rest, holdsNext⟩ := holds.step step
        refine ⟨⟨rest, holdsNext⟩, ?_, rfl⟩
        -- the read position stays at the end of the array
        rw [holds.flows_iff, Classical.not_imp, not_not] at stuck
        rw [holdsNext.flows_iff, Classical.not_imp, not_not]
        exact ⟨Nat.pos_iff_ne_zero.mp (Nat.add_pos_left some _), stuck.2⟩

/-- A socket of which the buffer offers nothing although it holds bytes sends no
byte any more. -/
theorem released_of_stuck {later : List Label}
    (holds : socket.session.Holds capacity left)
    (stuck : ¬socket.session.Flows) (run : Run Step socket later after) :
    after.session.released = socket.session.released := by
  have kept : ∀ state label next,
      ((∃ left, state.session.Holds capacity left) ∧ ¬state.session.Flows ∧
        state.session.released = socket.session.released) →
      Step state label next →
        (∃ left, next.session.Holds capacity left) ∧ ¬next.session.Flows ∧
          next.session.released = socket.session.released := by
    rintro state label next ⟨⟨left, holds⟩, stuck, same⟩ step
    have kept := stuck_step holds stuck step
    exact ⟨kept.1, kept.2.1, kept.2.2.trans same⟩
  exact (run.preserves kept ⟨⟨left, holds⟩, stuck, rfl⟩).2.2

/-- What an open socket has accepted can still be sent exactly while its bytes
flow; once they do not, no byte is sent any more. -/
theorem exists_sent_iff {labels : List Label}
    (run : Run Step (initial capacity) labels socket)
    (isOpen : socket.isOpen = true) :
    ((∃ later after, Run Step socket later after ∧
        socket.session.accepted.map some <+: after.session.released) ↔
      socket.session.Flows) ∧
    (¬socket.session.Flows → ∀ later after, Run Step socket later after →
      after.session.released = socket.session.released) := by
  obtain ⟨left, keeps⟩ := exists_keeps_of_run run
  refine ⟨⟨?_, ?_⟩, fun stuck later after run =>
    released_of_stuck keeps.holds stuck run⟩
  · rintro ⟨later, after, run, isPrefix⟩
    by_contra stuck
    have same := released_of_stuck keeps.holds stuck run
    have some : left.length ≠ 0 := by
      rw [← keeps.holds.bytes.length]
      intro none
      exact stuck fun some => absurd none (Nat.pos_iff_ne_zero.mp some)
    have order := congrArg List.length keeps.holds.order
    have short := isPrefix.length_le
    rw [same] at short
    have count : (left.map Option.some).length = left.length :=
      List.length_map _
    rw [List.length_append] at order
    omega
  · intro flows
    obtain ⟨answers, after, sent, drained, same⟩ :=
      @exists_drained { socket with isArmed := false } capacity left keeps.holds
        flows isOpen
    refine ⟨[.epollOut answers], after, .cons ⟨true, sent⟩ (.nil after), ?_⟩
    have order := drained.order
    rw [same, List.map_nil, List.append_nil] at order
    exact ⟨[], (List.append_nil _).trans order⟩

/-- The third byte is added while the read position is at the end of the array
and is never sent. -/
theorem exists_sent_iff_stuck :
    ∃ socket, Run Step (initial 2)
        [.sendData [1] [.room 1], .sendData [2] [.room 1], .sendData [3] []]
        socket ∧
      ¬socket.session.Flows ∧
      ∀ later after, Run Step socket later after →
        after.session.released = [some 1, some 2] := by
  have possible : ∃ socket, Run Step (initial 2)
      [.sendData [1] [.room 1], .sendData [2] [.room 1], .sendData [3] []]
        socket ∧ socket.isOpen = true ∧ ¬socket.session.Flows ∧
          socket.session.released = [some 1, some 2] :=
    ⟨_, .cons ⟨_, rfl⟩ (.cons ⟨_, rfl⟩ (.cons ⟨_, rfl⟩ (.nil _))), rfl,
      fun flows => absurd (flows Nat.one_pos) (by decide), rfl⟩
  obtain ⟨socket, run, isOpen, stuck, released⟩ := possible
  refine ⟨socket, run, stuck, fun later after continued => ?_⟩
  rw [← released]
  exact (exists_sent_iff run isOpen).2 stuck later after continued

end TcpSocket
end Sockets
end Pilot2Cloud
