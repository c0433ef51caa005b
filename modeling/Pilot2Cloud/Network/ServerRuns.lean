import Pilot2Cloud.Foundation.Transitions
import Pilot2Cloud.Network.ServerSession

/-!
# Runs of a server session

Connections are accepted, bytes are received and connections are closed in any
order.  What a session keeps for a peer changes only when bytes of that peer
are received or its connection is closed.
-/

namespace Pilot2Cloud
namespace Network

open Foundation Memory

/-- What a socket hands over in one call, which its buffer holds. -/
structure Received where
  bytes : List UInt8
  bounded : bytes.length ≤ recvBufferSize

/-- What happens to a server session.  `malloc` says for which sizes reassembly
buffers can be allocated while the bytes are handled. -/
inductive SessionEvent
  | onAccept (peer : PeerAddress)
  | onRecv (peer : PeerAddress) (message : Received) (malloc : Nat → Bool)
  | onClose (peer : PeerAddress)

/-- A session's reaction, with the messages it delivers and their peer. -/
def ServerNetSession.handleEvent
    (protocol : NetProtocol) (lastEvent : Nat) (server : ServerState) :
    SessionEvent → Except Fault (ServerState × List (PeerAddress × Block))
  | .onAccept _ => return (server, [])
  | .onRecv peer message malloc => do
      let (server, received) ← ServerNetSession.checkPacket
        (ServerNetSession.decoder protocol lastEvent malloc) server peer
        message.bytes
      return (server, received.map fun block => (peer, block))
  | .onClose peer => return (ServerNetSession.onClose server peer, [])

/-- The peer that an event is about. -/
def SessionEvent.peer : SessionEvent → PeerAddress
  | .onAccept peer => peer
  | .onRecv peer _ _ => peer
  | .onClose peer => peer

/-- A sequence of events, with all messages that are delivered. -/
def ServerNetSession.run (protocol : NetProtocol) (lastEvent : Nat) :
    ServerState → List SessionEvent →
      Except Fault (ServerState × List (PeerAddress × Block))
  | server, [] => .ok (server, [])
  | server, event :: events => do
      let (server, delivered) ←
        ServerNetSession.handleEvent protocol lastEvent server event
      let (final, later) ←
        ServerNetSession.run protocol lastEvent server events
      return (final, delivered ++ later)

/-- One event, as a step from state to state. -/
def ServerNetSession.Step
    (protocol : NetProtocol) (lastEvent : Nat) (server : ServerState)
    (event : SessionEvent) (next : ServerState) : Prop :=
  ∃ delivered,
    ServerNetSession.handleEvent protocol lastEvent server event =
      .ok (next, delivered)

/-- The session decodes the bytes of a peer: it knows the peer or has room for
one more. -/
def ServerState.Admits (server : ServerState) (peer : PeerAddress) : Prop :=
  server.clients.find peer = none →
    server.clients.entries.length < maxClientNum

theorem ServerNetSession.checkPacket_of_not_admits
    {decoder : Decoder ClientRecv} {server : ServerState}
    {peer : PeerAddress} {chunk : List UInt8}
    (full : ¬server.Admits peer) :
    ServerNetSession.checkPacket decoder server peer chunk =
      .ok (server, []) := by
  rw [ServerState.Admits, not_forall] at full
  obtain ⟨absent, full⟩ := full
  have turnedAway : server.register peer = none := by
    unfold ServerState.register
    split
    · next client found => simp [absent] at found
    · exact if_pos (Nat.not_lt.mp full)
  rw [checkPacket, onClient, turnedAway, pure_eq_ok]

/-- Bytes of an admitted peer that are decoded on the state kept for it change
that state, the session's flag and nothing else. -/
theorem ServerNetSession.handle_recv
    {protocol : NetProtocol} {lastEvent : Nat} {server : ServerState}
    {peer : PeerAddress} (message : Received) {malloc : Nat → Bool}
    (admitted : server.Admits peer) {result : CheckResult ClientRecv}
    (decoded : Network.checkPacket
      (ServerNetSession.decoder protocol lastEvent malloc)
      (server.decodeStateOf peer) message.bytes = .ok result) :
    ∃ next, ServerNetSession.handleEvent protocol lastEvent server
        (.onRecv peer message malloc) =
          .ok (next, result.received.map fun block => (peer, block)) ∧
      next.decodeStateOf peer = result.state ∧
      next.Admits peer ∧
      ∀ other ≠ peer,
        next.clients.find other = server.clients.find other := by
  obtain ⟨update, run, after⟩ := checkPacket_of_room
    (ServerNetSession.decoder protocol lastEvent malloc) server peer
    message.bytes admitted
  obtain ⟨own, -, ⟨client, known⟩, others⟩ := after result
  refine ⟨update result, ?_, own, fun absent => ?_, others⟩
  · simp only [handleEvent, run, decoded, ok_bind, pure_eq_ok]
  · simp [known] at absent

/-- What an event does to the state kept for a peer: nothing, unless bytes of
that peer are decoded or its connection is closed. -/
theorem ServerNetSession.Step.decodeStateOf
    {protocol : NetProtocol} {lastEvent : Nat} {server next : ServerState}
    {event : SessionEvent}
    (step : ServerNetSession.Step protocol lastEvent server event next)
    (peer : PeerAddress) :
    (event = .onClose peer ∧ (next.decodeStateOf peer).halfpack = none ∧
        (next.decodeStateOf peer).recv = ClientRecv.idle) ∨
      ((next.decodeStateOf peer).halfpack =
          (server.decodeStateOf peer).halfpack ∧
        (next.decodeStateOf peer).recv = (server.decodeStateOf peer).recv) ∨
      ∃ message malloc result, event = .onRecv peer message malloc ∧
        Network.checkPacket
          (ServerNetSession.decoder protocol lastEvent malloc)
          (server.decodeStateOf peer) message.bytes = .ok result ∧
        next.decodeStateOf peer = result.state := by
  obtain ⟨delivered, handled⟩ := step
  cases event with
  | onAccept other =>
      obtain ⟨rfl, -⟩ := Prod.mk.inj (Except.ok.inj handled)
      exact .inr (.inl ⟨rfl, rfl⟩)
  | onClose other =>
      obtain ⟨rfl, -⟩ := Prod.mk.inj (Except.ok.inj handled)
      simp only [ServerState.decodeStateOf, ServerState.decodeState, onClose]
      by_cases same : peer = other
      · left
        subst same
        rw [Table.find_remove_same]
        exact ⟨rfl, rfl, rfl⟩
      · right
        left
        rw [server.clients.find_remove_other same]
        exact ⟨rfl, rfl⟩
  | onRecv other message malloc =>
      simp only [handleEvent, bind_eq_ok_iff, Prod.exists, pure_eq_ok,
        Except.ok.injEq, Prod.mk.injEq] at handled
      obtain ⟨after, received, checked, rfl, -⟩ := handled
      by_cases admitted : server.Admits other
      · obtain ⟨update, run, after⟩ := checkPacket_of_room
          (ServerNetSession.decoder protocol lastEvent malloc) server other
          message.bytes admitted
        rw [run, bind_eq_ok_iff] at checked
        obtain ⟨result, decoded, final⟩ := checked
        obtain ⟨rfl, -⟩ := Prod.mk.inj (Except.ok.inj final)
        obtain ⟨own, -, -, others⟩ := after result
        by_cases same : peer = other
        · subst same
          exact .inr (.inr ⟨message, malloc, result, rfl, decoded, own⟩)
        · right
          left
          simp only [ServerState.decodeStateOf, ServerState.decodeState,
            others peer same, and_self]
      · rw [checkPacket_of_not_admits admitted] at checked
        obtain ⟨rfl, -⟩ := Prod.mk.inj (Except.ok.inj checked)
        exact .inr (.inl ⟨rfl, rfl⟩)

/-- An event leaves the state kept for another peer alone. -/
theorem ServerNetSession.Step.decodeStateOf_other
    {protocol : NetProtocol} {lastEvent : Nat} {server next : ServerState}
    {event : SessionEvent}
    (step : ServerNetSession.Step protocol lastEvent server event next)
    {peer : PeerAddress} (other : event.peer ≠ peer) :
    (next.decodeStateOf peer).halfpack =
        (server.decodeStateOf peer).halfpack ∧
      (next.decodeStateOf peer).recv = (server.decodeStateOf peer).recv := by
  rcases step.decodeStateOf peer with
    ⟨rfl, -, -⟩ | same | ⟨message, malloc, result, rfl, -⟩
  · exact absurd rfl other
  · exact same
  · exact absurd rfl other

/-- What is delivered is delivered to the peer that the event is about. -/
theorem ServerNetSession.peer_of_delivered
    {protocol : NetProtocol} {lastEvent : Nat} {server next : ServerState}
    {event : SessionEvent} {delivered : List (PeerAddress × Block)}
    (handled : ServerNetSession.handleEvent protocol lastEvent server event =
      .ok (next, delivered)) :
    ∀ message ∈ delivered, message.1 = event.peer := by
  intro message member
  cases event with
  | onAccept peer =>
      obtain ⟨-, rfl⟩ := Prod.mk.inj (Except.ok.inj handled)
      contradiction
  | onClose peer =>
      obtain ⟨-, rfl⟩ := Prod.mk.inj (Except.ok.inj handled)
      contradiction
  | onRecv peer chunk malloc =>
      obtain ⟨_, -, final⟩ := bind_eq_ok_iff.mp handled
      obtain ⟨-, rfl⟩ := Prod.mk.inj (Except.ok.inj final)
      obtain ⟨block, -, rfl⟩ := List.mem_map.mp member
      rfl

end Network
end Pilot2Cloud
