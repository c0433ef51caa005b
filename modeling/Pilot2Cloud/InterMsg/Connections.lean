import Pilot2Cloud.InterMsg.Receive

/-!
# The connections of the server

Clients connect, send messages and disconnect.  The server reads the bytes of a
client in any pieces, and copies the messages of every client that have arrived
completely when the bytes that it keeps for an index are always those of the
client that is there.
-/

namespace Pilot2Cloud
namespace InterMsg

open Foundation Words Memory

/-- The messages that a client sends, the number of bytes that the server has
read of them, and the messages that it has copied. -/
structure Connection where
  sent : List Message
  received : Nat
  dispatched : List CopiedMsg
  isOpen : Bool

namespace Connection

/-- A connection over which some messages are sent. -/
def opened (sent : List Message) : Connection :=
  ⟨sent, 0, [], true⟩

/-- The bytes of the messages. -/
def stream (connection : Connection) : List UInt8 :=
  connection.sent.flatMap Message.frame

/-- The bytes that come next, as many as are read at once. -/
def unread (connection : Connection) (count : Nat) : List UInt8 :=
  (connection.stream.drop connection.received).take
    (min count unsocketBufferLength)

/-- The connection after a read. -/
def read (connection : Connection) (count : Nat)
    (copied : List CopiedMsg) : Connection :=
  { connection with
    received := connection.received + count
    dispatched := connection.dispatched ++ copied }

@[simp] theorem received_opened (sent : List Message) :
    (opened sent).received = 0 := rfl

@[simp] theorem received_read (connection : Connection) (count : Nat)
    (copied : List CopiedMsg) :
    (connection.read count copied).received =
      connection.received + count := rfl

/-- The connection is closed. -/
def closed (connection : Connection) : Connection :=
  { connection with isOpen := false }

/-- The messages that have not arrived completely. -/
def rest (connection : Connection) : List Message :=
  pending Message.frame connection.sent connection.received

/-- The bytes that have arrived of an incomplete message. -/
def residue (connection : Connection) : List UInt8 :=
  (connection.rest.flatMap Message.frame).take
    (leftover Message.frame connection.sent connection.received)

/-- The messages that have arrived were copied. -/
structure Delivered (connection : Connection) : Prop where
  bound : connection.received ≤ connection.stream.length
  dispatched : connection.dispatched =
    (complete Message.frame connection.sent connection.received).map
      Message.copied

end Connection

/-- The server and its connections, in the order in which they were opened.  The
file descriptor of a connection is its position. -/
structure Clients where
  server : MsgServer
  connections : List Connection

/-- A client connects and sends some messages, bytes of a client can be read, or
no more bytes come from a client. -/
inductive Event
  | accept (sent : List Message)
  | receive (ci count : Nat)
  | disconnect (ci : Nat)

namespace Clients

/-- Nobody has connected. -/
def initial : Clients :=
  ⟨.initial, []⟩

/-- The connection that is watched at an index, with its file descriptor. -/
def connectionAt (clients : Clients) (ci : Nat) :
    Option (Nat × Connection) :=
  match clients.server.watchFdList[ci]? with
  | some (some fd) => (clients.connections[fd]?).map fun connection =>
      (fd, connection)
  | _ => none

/-- What the server makes of an event. -/
def perform (clients : Clients) : Event → Except Fault Clients
  | .accept sent => return {
      server := clients.server.accept clients.connections.length
      connections := clients.connections ++ [.opened sent] }
  | .receive ci count =>
      match clients.connectionAt ci with
      | some (fd, connection) =>
          if (connection.unread count).isEmpty then return clients
          else do
            let (server, copied) ←
              clients.server.receive ci (connection.unread count)
            return {
              server := server
              connections := clients.connections.set fd
                (connection.read (connection.unread count).length copied) }
      | none => return clients
  | .disconnect ci =>
      match clients.connectionAt ci with
      | some (fd, connection) => return {
          server := clients.server.disconnect ci
          connections := clients.connections.set fd connection.closed }
      | none => return clients

/-- The server takes an event without a fault. -/
def Step (clients : Clients) (event : Event) (after : Clients) : Prop :=
  clients.perform event = .ok after

/-- Every connection has what has arrived of it copied, every open connection
with messages is watched, and the bytes that are kept for an index are those of
the connection there. -/
structure Delivers (clients : Clients) : Prop where
  delivered : ∀ connection ∈ clients.connections, connection.Delivered
  watched : ∀ {fd : Nat} {connection : Connection},
    clients.connections[fd]? = some connection → connection.isOpen →
      connection.sent ≠ [] → ∃ ci, clients.connectionAt ci =
        some (fd, connection)
  kept : ∀ {ci fd : Nat} {connection : Connection}, ci < processMax →
    clients.connectionAt ci = some (fd, connection) →
      clients.server.Keeps ci connection.residue
  clean : ∀ {ci : Nat}, ci < processMax →
    clients.server.watchFdList[ci]? = some none → clients.server.Keeps ci []

/-- What an event needs: room in the list for a client that sends messages,
bytes that the server takes, and no incomplete message of a client that
disconnects. -/
def Safe (clients : Clients) : Event → Prop
  | .accept sent => sent = [] ∨ clients.server.freeIndex ≠ none
  | .receive ci count => ∀ fd connection,
      clients.connectionAt ci = some (fd, connection) →
        connection.unread count ≠ [] →
          clients.server.Takes ci connection.rest connection.residue
            (connection.unread count)
  | .disconnect ci => ∀ fd connection,
      clients.connectionAt ci = some (fd, connection) →
        leftover Message.frame connection.sent connection.received = 0

end Clients

/-! ## One connection -/

namespace Connection

variable {connection : Connection} {sent : List Message} {count : Nat}

/-- A connection that is just open has copied the messages that arrived. -/
theorem delivered_opened : (opened sent).Delivered where
  bound := Nat.zero_le _
  dispatched := by
    cases sent with
    | nil => rfl
    | cons message messages =>
        have positive : 0 < message.frame.length := by
          rw [message.length_frame, mboxLen]
          omega
        rw [opened, complete_of_short positive]
        rfl

/-- All messages are copied once all bytes have arrived. -/
theorem Delivered.all (delivered : connection.Delivered)
    (finished : connection.received = connection.stream.length) :
    connection.dispatched = connection.sent.map Message.copied := by
  rw [delivered.dispatched, finished, stream, complete_of_length]

theorem residue_of_leftover
    (nothing : leftover Message.frame connection.sent
      connection.received = 0) :
    connection.residue = [] := by
  rw [residue, nothing, List.take_zero]

@[simp] theorem residue_opened : (opened sent).residue = [] := by
  apply residue_of_leftover
  have lengths := @length_complete_add_leftover _ Message.frame sent 0
  exact Nat.eq_zero_of_add_eq_zero_left lengths

/-- The bytes that have arrived of the incomplete message are as many as are
left over. -/
theorem length_residue
    (bound : connection.received ≤ connection.stream.length) :
    connection.residue.length =
      leftover Message.frame connection.sent connection.received := by
  have lengths := @length_complete_add_leftover _ Message.frame
    connection.sent connection.received
  have whole := @flatMap_eq_append _ Message.frame connection.sent
    connection.received
  have total := congrArg List.length whole
  rw [List.length_append] at total
  unfold stream at bound
  rw [residue, List.length_take, rest]
  omega

/-- The bytes that are kept and the ones that come next are the first bytes of
the messages that have not arrived completely. -/
theorem residue_append_unread
    (bound : connection.received ≤ connection.stream.length) :
    connection.residue ++ connection.unread count =
      (connection.rest.flatMap Message.frame).take
        (connection.residue.length + (connection.unread count).length) := by
  have behind : connection.stream.drop connection.received =
      (connection.rest.flatMap Message.frame).drop
        (leftover Message.frame connection.sent connection.received) :=
    drop_flatMap connection.sent connection.received
  have isLength := length_residue bound
  have back : connection.unread count =
      ((connection.rest.flatMap Message.frame).drop
        connection.residue.length).take (connection.unread count).length := by
    rw [unread, behind, isLength, List.length_take, ← List.take_eq_take_min]
  rw [List.take_add, ← back, isLength]
  rfl

/-- What is copied and kept of the messages that have not arrived completely is
what is copied and kept of the connection. -/
theorem delivered_read (delivered : connection.Delivered) :
    (connection.read (connection.unread count).length
      ((complete Message.frame connection.rest
        (connection.residue.length + (connection.unread count).length)).map
          Message.copied)).Delivered where
  bound := by
    have bound := delivered.bound
    have isShort : (connection.unread count).length ≤
        connection.stream.length - connection.received := by
      rw [unread, List.length_take, List.length_drop]
      omega
    change connection.received + (connection.unread count).length ≤
      connection.stream.length
    omega
  dispatched := by
    change connection.dispatched ++ _ =
      (complete Message.frame connection.sent (connection.received +
        (connection.unread count).length)).map Message.copied
    rw [delivered.dispatched, length_residue delivered.bound,
      complete_add connection.sent, List.map_append]
    rfl

/-- The residue after a read is the end of the bytes that the read leaves
over. -/
theorem residue_read (delivered : connection.Delivered)
    (copied : List CopiedMsg) :
    (connection.read (connection.unread count).length copied).residue =
      (connection.residue ++ connection.unread count).drop
        (connection.residue.length + (connection.unread count).length -
          leftover Message.frame connection.rest
            (connection.residue.length +
              (connection.unread count).length)) := by
  rw [residue_append_unread delivered.bound, drop_take_flatMap,
    length_residue delivered.bound]
  change ((pending Message.frame connection.sent
      (connection.received + (connection.unread count).length)).flatMap
        Message.frame).take (leftover Message.frame connection.sent
          (connection.received + (connection.unread count).length)) = _
  rw [pending_add, leftover_add]
  rfl

end Connection
end InterMsg
end Pilot2Cloud
