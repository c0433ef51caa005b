import Pilot2Cloud.Foundation.Table
import Pilot2Cloud.Network.ReceiveBuffer

/-!
# The clients of a server session

A server session keeps the decoding state of its clients in a table that is
searched by peer address and compacted when a client leaves.  Whether it
searches for a message head is a member of the session, shared by all clients.
-/

namespace Pilot2Cloud
namespace Network

open Foundation Words Memory

/-- `m_PeerIP` and `m_PeerPort`. -/
structure PeerAddress where
  peerIP : String
  peerPort : Nat
  deriving DecidableEq, Repr

/-- `stClientInfo`. -/
structure ClientInfo where
  address : PeerAddress
  halfpack : Option HalfPack
  clientRecv : ClientRecv
  deriving DecidableEq

/-- A client from which nothing has been received yet. -/
def ClientInfo.fresh (address : PeerAddress) : ClientInfo :=
  ⟨address, none, ClientRecv.idle⟩

/-- `MAX_CLIENT_NUM`. -/
def maxClientNum : Nat := 1024

/-- `astClientInfo` up to `u32clientCount`, and `s32findMsghead`. -/
structure ServerState where
  clients : Table ClientInfo.address
  findMsghead : Bool

/-- A server session before it has received anything. -/
def ServerState.initial : ServerState :=
  ⟨Table.empty ClientInfo.address, false⟩

/-- The decoding state that `CheckPacket` works on for a client. -/
def ServerState.decodeState (server : ServerState) (client : ClientInfo) :
    DecodeState ClientRecv :=
  ⟨client.halfpack, client.clientRecv, server.findMsghead⟩

/-- The table with an entry for a peer, and that entry; a new peer is turned
away when the table is full. -/
def ServerState.register (server : ServerState) (peer : PeerAddress) :
    Option (Table ClientInfo.address × ClientInfo) :=
  match found : server.clients.find peer with
  | some client => some (server.clients, client)
  | none =>
      if maxClientNum ≤ server.clients.entries.length then none
      else some (server.clients.insert (ClientInfo.fresh peer) found,
        ClientInfo.fresh peer)

/-- What a call does with the decoding state of a peer, if the peer is not turned
away. -/
def ServerNetSession.onClient (server : ServerState) (peer : PeerAddress)
    (check : DecodeState ClientRecv → Except Fault (CheckResult ClientRecv)) :
    Except Fault (ServerState × List Block) :=
  match server.register peer with
  | none => return (server, [])
  | some (clients, client) => do
      let result ← check (server.decodeState client)
      let client := { client with
        halfpack := result.state.halfpack
        clientRecv := result.state.recv }
      return (⟨clients.update client, result.state.findMsghead⟩,
        result.received)

/-- `ServerNetSession::CheckPacket`. -/
def ServerNetSession.checkPacket
    (decoder : Decoder ClientRecv) (server : ServerState)
    (peer : PeerAddress) (chunk : List UInt8) :
    Except Fault (ServerState × List Block) :=
  ServerNetSession.onClient server peer fun state =>
    Network.checkPacket decoder state chunk

/-- `ServerNetSession::CheckPacket` on a chunk at the front of the receive
buffer. -/
def ServerNetSession.checkPacketOnBuffer
    (decoder : Decoder ClientRecv) (server : ServerState)
    (peer : PeerAddress) (buffer chunk : List UInt8) :
    Except Fault (ServerState × List Block) :=
  ServerNetSession.onClient server peer fun state =>
    Network.checkPacketOnBuffer decoder state buffer chunk

/-- `ServerNetSession::OnClose`. -/
def ServerNetSession.onClose (server : ServerState) (peer : PeerAddress) :
    ServerState :=
  { server with clients := server.clients.remove peer }

/-- The chunks of one connection are received one after the other. -/
def ServerNetSession.checkPacketsOnBuffer
    (decoder : Decoder ClientRecv) (peer : PeerAddress) :
    List UInt8 → ServerState → List (List UInt8) →
      Except Fault (ServerState × List Block)
  | _, server, [] => .ok (server, [])
  | buffer, server, chunk :: chunks => do
      let buffer := refill buffer chunk
      let (server, received) ←
        ServerNetSession.checkPacketOnBuffer decoder server peer buffer chunk
      let (final, later) ← ServerNetSession.checkPacketsOnBuffer decoder peer
        buffer server chunks
      return (final, received ++ later)

/-- The decoding state a session has for a peer, known or not. -/
def ServerState.decodeStateOf (server : ServerState) (peer : PeerAddress) :
    DecodeState ClientRecv :=
  server.decodeState
    ((server.clients.find peer).getD (ClientInfo.fresh peer))

/-- A peer that is known, or for which there is room, has an entry in the
table, which is otherwise unchanged. -/
theorem ServerState.register_of_room
    (server : ServerState) (peer : PeerAddress)
    (room : server.clients.find peer = none →
      server.clients.entries.length < maxClientNum) :
    ∃ clients client, server.register peer = some (clients, client) ∧
      client.address = peer ∧
      clients.find peer = some client ∧
      server.decodeState client = server.decodeStateOf peer ∧
      ∀ other ≠ peer, clients.find other = server.clients.find other := by
  unfold register
  split
  · next client found =>
      refine ⟨server.clients, client, rfl,
        (server.clients.find_eq_some_iff.mp found).2, found, ?_,
        fun _ _ => rfl⟩
      rw [decodeStateOf, found, Option.getD_some]
  · next absent =>
      rw [if_neg (Nat.not_le.mpr (room absent))]
      refine ⟨_, _, rfl, rfl, server.clients.find_insert_same absent, ?_, ?_⟩
      · rw [decodeStateOf, absent, Option.getD_none]
      · exact fun other different =>
          server.clients.find_insert_other absent different

/-- A call for such a peer works on the state kept for it, and nothing else in
the table changes. -/
theorem ServerNetSession.onClient_of_room
    (server : ServerState) (peer : PeerAddress)
    (check : DecodeState ClientRecv → Except Fault (CheckResult ClientRecv))
    (room : server.clients.find peer = none →
      server.clients.entries.length < maxClientNum) :
    ∃ update : CheckResult ClientRecv → ServerState,
      ServerNetSession.onClient server peer check =
        (do
          let result ← check (server.decodeStateOf peer)
          return (update result, result.received)) ∧
      ∀ result,
        (update result).decodeStateOf peer = result.state ∧
        (update result).findMsghead = result.state.findMsghead ∧
        (∃ client, (update result).clients.find peer = some client) ∧
        ∀ other ≠ peer,
          (update result).clients.find other = server.clients.find other := by
  obtain ⟨clients, client, registered, address, found, state, others⟩ :=
    server.register_of_room peer room
  subst address
  let next (result : CheckResult ClientRecv) : ClientInfo :=
    { client with
      halfpack := result.state.halfpack
      clientRecv := result.state.recv }
  refine ⟨fun result => ⟨clients.update (next result),
    result.state.findMsghead⟩, ?_, ?_⟩
  · rw [onClient, registered, ← state]
  · intro result
    have updated : (clients.update (next result)).find client.address =
        some (next result) :=
      clients.find_update_same found
    have kept : ∀ other ≠ client.address,
        (clients.update (next result)).find other =
          server.clients.find other :=
      fun other different =>
        (clients.find_update_other (next result) different).trans
          (others other different)
    refine ⟨?_, rfl, ⟨_, updated⟩, kept⟩
    simp only [ServerState.decodeStateOf, ServerState.decodeState]
    rw [updated]
    rfl

/-- The bytes of such a peer are decoded on the state kept for it, and nothing
else in the table changes. -/
theorem ServerNetSession.checkPacket_of_room
    (decoder : Decoder ClientRecv) (server : ServerState)
    (peer : PeerAddress) (chunk : List UInt8)
    (room : server.clients.find peer = none →
      server.clients.entries.length < maxClientNum) :
    ∃ update : CheckResult ClientRecv → ServerState,
      ServerNetSession.checkPacket decoder server peer chunk =
        (do
          let result ←
            Network.checkPacket decoder (server.decodeStateOf peer) chunk
          return (update result, result.received)) ∧
      ∀ result,
        (update result).decodeStateOf peer = result.state ∧
        (update result).findMsghead = result.state.findMsghead ∧
        (∃ client, (update result).clients.find peer = some client) ∧
        ∀ other ≠ peer,
          (update result).clients.find other = server.clients.find other :=
  ServerNetSession.onClient_of_room server peer _ room

/-- A single connection is decoded like a connection of its own. -/
theorem ServerNetSession.checkPacketsOnBuffer_eq
    (decoder : Decoder ClientRecv) (peer : PeerAddress)
    (buffer : List UInt8) (server : ServerState) (chunks : List (List UInt8))
    (room : server.clients.find peer = none →
      server.clients.entries.length < maxClientNum) :
    ∃ update : DecodeState ClientRecv → ServerState,
      ServerNetSession.checkPacketsOnBuffer decoder peer buffer server chunks =
        (do
          let (state, received) ← Network.checkPacketsOnBuffer decoder buffer
            (server.decodeStateOf peer) chunks
          return (update state, received)) ∧
      ∀ state received, Network.checkPacketsOnBuffer decoder buffer
          (server.decodeStateOf peer) chunks = .ok (state, received) →
        (update state).decodeStateOf peer = state := by
  induction chunks generalizing server buffer with
  | nil =>
      refine ⟨fun _ => server, rfl, ?_⟩
      rintro state received ⟨⟩
      rfl
  | cons chunk chunks inductionHypothesis =>
      obtain ⟨next, checked, after⟩ :=
        ServerNetSession.onClient_of_room server peer
          (fun state => Network.checkPacketOnBuffer decoder state
            (refill buffer chunk) chunk) room
      simp only [checkPacketsOnBuffer, checkPacketOnBuffer, checked,
        Network.checkPacketsOnBuffer]
      cases Network.checkPacketOnBuffer decoder (server.decodeStateOf peer)
          (refill buffer chunk) chunk with
      | error fault => exact ⟨fun _ => server, by simp, by simp⟩
      | ok result =>
          obtain ⟨same, -, ⟨client, found⟩, -⟩ := after result
          obtain ⟨update, run, last⟩ := inductionHypothesis
            (refill buffer chunk) (next result) (by simp [found])
          rw [same] at run last
          refine ⟨update, ?_, ?_⟩
          · simp only [ok_bind, pure_eq_ok, run, bind_assoc]
          · intro state received finished
            simp only [ok_bind, bind_eq_ok_iff, Prod.exists, pure_eq_ok,
              Except.ok.injEq, Prod.mk.injEq] at finished
            obtain ⟨final, later, ran, rfl, -⟩ := finished
            exact last final later ran

end Network
end Pilot2Cloud
