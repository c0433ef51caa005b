import Pilot2Cloud.Network.MemorySafety

/-!
# The connections of a server session

Whether the decoder searches for a message head is kept once for a session, and
so is the table of clients.  A client is served as if it were alone as long as
the flag it finds is the one that its own bytes have left, or does not matter
for the bytes that it sends, and as long as there is room for it in the table.
-/

namespace Pilot2Cloud
namespace Network

open Foundation Words Memory

/-! ## Where the flag matters -/

section Flag

variable {σ : Type} (decoder : Decoder σ)

/-- The loop keeps or gives up what is at the front of a chunk depending on
whether it searches for a message head. -/
def FlagMatters (halfpack : Option HalfPack) (chunk : List UInt8) : Prop :=
  halfpack = none ∧ chunk ≠ [] ∧ ¬Complete chunk ∧
    ∃ front, readFront chunk = .ok front ∧
      Rejected decoder true front chunk ∧ ¬Rejected decoder false front chunk

variable {decoder}

/-- Nothing else depends on the flag. -/
theorem checkPacket_flag
    (tcp : decoder.protocol = .tcp) {halfpack : Option HalfPack}
    {chunk : List UInt8} (nonempty : halfpack = none → chunk ≠ [])
    (indifferent : ¬FlagMatters decoder halfpack chunk) (recv : σ)
    (flag other : Bool) :
    checkPacket decoder ⟨halfpack, recv, flag⟩ chunk =
      checkPacket decoder ⟨halfpack, recv, other⟩ chunk := by
  cases halfpack with
  | some half => rfl
  | none =>
      change scan decoder _ ⟨none, recv, flag⟩ chunk =
        scan decoder _ ⟨none, recv, other⟩ chunk
      have pending := nonempty rfl
      by_cases complete : Complete chunk
      · rw [scan_complete pending complete.readFront_eq complete.2.1
          complete.2.2, scan_complete pending complete.readFront_eq
          complete.2.1 complete.2.2]
      · obtain ⟨front, frontRead, incomplete, -⟩ :=
          readFront_of_not_complete complete
        have tcpNotUdp : ¬decoder.protocol = .udp := by
          rw [tcp]
          decide
        have same : ∀ flag, Rejected decoder flag front chunk ↔
            Rejected decoder false front chunk := by
          intro flag
          cases flag with
          | false => exact .rfl
          | true =>
              constructor
              · intro rejected
                by_contra kept
                exact indifferent ⟨rfl, pending, complete, front, frontRead,
                  rejected, kept⟩
              · rintro (tooLong | unknown | ⟨searching, -⟩)
                · exact .inl tooLong
                · exact .inr (.inl unknown)
                · contradiction
        obtain ⟨fits, kept⟩ := scan_incomplete decoder chunk.length
          ⟨none, recv, flag⟩ pending frontRead incomplete
        obtain ⟨_, keptOther⟩ := scan_incomplete decoder chunk.length
          ⟨none, recv, other⟩ pending frontRead incomplete
        rw [kept, keptOther]
        simp only [if_neg tcpNotUdp, same]

/-- An empty chunk changes nothing, not even the flag. -/
@[simp] theorem checkPacket_nil (decoder : Decoder σ) (recv : σ) (flag : Bool) :
    checkPacket decoder ⟨none, recv, flag⟩ [] =
      .ok ⟨⟨none, recv, flag⟩, [], []⟩ := by
  rw [checkPacket, scanChunk, List.length_nil, scan_nil]

end Flag

/-! ## A session and one of its clients -/

section Client

variable (lastEvent : Nat) (peer : PeerAddress)

/-- A session, and the flag that the bytes of one peer have left. -/
structure Watched where
  server : ServerState
  ownFlag : Bool

/-- The flag that a peer's bytes leave once an event has been handled. -/
def Watched.flagAfter
    (watched : Watched) (event : SessionEvent) (next : ServerState) : Bool :=
  match event with
  | .onAccept _ => watched.ownFlag
  | .onRecv sender message _ =>
      if sender = peer ∧
          ((watched.server.decodeStateOf peer).halfpack = none →
            message.bytes ≠ []) then
        next.findMsghead
      else watched.ownFlag
  | .onClose _ => watched.ownFlag

/-- An event of a TCP session, as a step. -/
def Watched.Step
    (watched : Watched) (event : SessionEvent) (next : Watched) : Prop :=
  ServerNetSession.Step .tcp lastEvent watched.server event next.server ∧
    next.ownFlag = watched.flagAfter peer event next.server

/-- No byte causes a fault, and a peer's bytes meet room in the table and the
flag that the peer has left itself, if the flag matters for them. -/
def Watched.Separate (watched : Watched) (event : SessionEvent) : Prop :=
  ServerNetSession.EventFits .tcp lastEvent watched.server event ∧
    ∀ message malloc, event = .onRecv peer message malloc →
      watched.server.Admits peer ∧
        (watched.server.findMsghead = watched.ownFlag ∨
          ¬FlagMatters (ServerNetSession.decoder .tcp lastEvent malloc)
            (watched.server.decodeStateOf peer).halfpack message.bytes)

/-- A session in which a peer is alone has the same state for it. -/
structure Watched.Mirrors (watched : Watched) (alone : ServerState) : Prop where
  sized : watched.server.Sized
  halfpack : (alone.decodeStateOf peer).halfpack =
    (watched.server.decodeStateOf peer).halfpack
  recv : (alone.decodeStateOf peer).recv =
    (watched.server.decodeStateOf peer).recv
  findMsghead : alone.findMsghead = watched.ownFlag
  noOthers : ∀ other ≠ peer, alone.clients.find other = none

variable {lastEvent peer} {watched : Watched} {alone : ServerState}

/-- There is always room for a peer that is alone. -/
theorem Watched.Mirrors.admits (mirrors : watched.Mirrors peer alone) :
    alone.Admits peer := by
  intro absent
  have nobody : alone.clients.entries = [] := by
    rw [List.eq_nil_iff_forall_not_mem]
    intro client member
    have known : alone.clients.find client.address = some client :=
      alone.clients.find_eq_some_iff.mpr ⟨member, rfl⟩
    by_cases same : client.address = peer
    · rw [same, absent] at known
      contradiction
    · rw [mirrors.noOthers _ same] at known
      contradiction
  rw [nobody]
  decide

/-- What happens to another peer changes nothing for a peer. -/
theorem Watched.Mirrors.other
    (mirrors : watched.Mirrors peer alone) {event : SessionEvent}
    (other : event.peer ≠ peer) {next : ServerState}
    (step : ServerNetSession.Step .tcp lastEvent watched.server event next) :
    Watched.Mirrors peer ⟨next, watched.flagAfter peer event next⟩ alone := by
  obtain ⟨sameHalf, sameRecv⟩ := step.decodeStateOf_other other
  have sameFlag : watched.flagAfter peer event next = watched.ownFlag := by
    cases event with
    | onAccept sender => rfl
    | onClose sender => rfl
    | onRecv sender message malloc => exact if_neg fun both => other both.1
  exact
    { sized := step.sized mirrors.sized
      halfpack := mirrors.halfpack.trans sameHalf.symm
      recv := mirrors.recv.trans sameRecv.symm
      findMsghead := mirrors.findMsghead.trans sameFlag.symm
      noOthers := mirrors.noOthers }

/-- The bytes of a peer are decoded as if it were alone. -/
theorem Watched.Mirrors.decode
    (mirrors : watched.Mirrors peer alone) {message : Received}
    {malloc : Nat → Bool} {result : CheckResult ClientRecv}
    (decoded : checkPacket
      (ServerNetSession.decoder .tcp lastEvent malloc)
      (watched.server.decodeStateOf peer) message.bytes = .ok result)
    (sameFlag : watched.server.findMsghead = watched.ownFlag ∨
      ¬FlagMatters (ServerNetSession.decoder .tcp lastEvent malloc)
        (watched.server.decodeStateOf peer).halfpack message.bytes) :
    ∃ own, checkPacket (ServerNetSession.decoder .tcp lastEvent malloc)
        (alone.decodeStateOf peer) message.bytes = .ok own ∧
      own.received = result.received ∧
      own.state.halfpack = result.state.halfpack ∧
      own.state.recv = result.state.recv ∧
      own.state.findMsghead =
        if (watched.server.decodeStateOf peer).halfpack = none →
            message.bytes ≠ [] then
          result.state.findMsghead
        else watched.ownFlag := by
  have state : alone.decodeStateOf peer =
      ⟨(watched.server.decodeStateOf peer).halfpack,
        (watched.server.decodeStateOf peer).recv, watched.ownFlag⟩ := by
    rw [← mirrors.halfpack, ← mirrors.recv, ← mirrors.findMsghead]
    rfl
  rw [state]
  by_cases nonempty : (watched.server.decodeStateOf peer).halfpack = none →
      message.bytes ≠ []
  · refine ⟨result, ?_, rfl, rfl, rfl, (if_pos nonempty).symm⟩
    rcases sameFlag with same | indifferent
    · rw [← same]
      exact decoded
    · rw [← decoded]
      exact checkPacket_flag rfl nonempty indifferent _ _ _
  · rw [if_neg nonempty]
    rw [Classical.not_imp, not_not] at nonempty
    obtain ⟨noHalf, empty⟩ := nonempty
    have before : watched.server.decodeStateOf peer =
        ⟨none, (watched.server.decodeStateOf peer).recv,
          watched.server.findMsghead⟩ := by
      rw [← noHalf]
      rfl
    rw [empty, before, checkPacket_nil] at decoded
    obtain rfl := Except.ok.inj decoded
    rw [empty, noHalf]
    exact ⟨_, checkPacket_nil _ _ _, rfl, rfl, rfl, rfl⟩

/-- What happens to a peer happens to it as if it were alone. -/
theorem Watched.Mirrors.own
    (mirrors : watched.Mirrors peer alone) {event : SessionEvent}
    (own : event.peer = peer)
    (separate : watched.Separate lastEvent peer event)
    {next : ServerState} {delivered : List (PeerAddress × Block)}
    (handled : ServerNetSession.handleEvent .tcp lastEvent watched.server
      event = .ok (next, delivered)) :
    ∃ aloneNext,
      ServerNetSession.handleEvent .tcp lastEvent alone event =
        .ok (aloneNext, delivered) ∧
      Watched.Mirrors peer ⟨next, watched.flagAfter peer event next⟩
        aloneNext := by
  have sizedNext : next.Sized :=
    ServerNetSession.Step.sized mirrors.sized ⟨delivered, handled⟩
  cases event with
  | onAccept sender =>
      obtain ⟨rfl, rfl⟩ := Prod.mk.inj (Except.ok.inj handled)
      exact ⟨alone, rfl, { mirrors with }⟩
  | onClose sender =>
      obtain rfl : sender = peer := own
      obtain ⟨rfl, rfl⟩ := Prod.mk.inj (Except.ok.inj handled)
      have forgotten : ∀ server : ServerState,
          (ServerNetSession.onClose server sender).decodeStateOf sender =
            ⟨none, ClientRecv.idle, server.findMsghead⟩ := by
        intro server
        rw [ServerState.decodeStateOf, ServerNetSession.onClose,
          Table.find_remove_same]
        rfl
      exact ⟨_, rfl,
        { sized := sizedNext
          halfpack := by rw [forgotten, forgotten]
          recv := by rw [forgotten, forgotten]
          findMsghead := mirrors.findMsghead
          noOthers := fun other different =>
            (alone.clients.find_remove_other different).trans
              (mirrors.noOthers other different) }⟩
  | onRecv sender message malloc =>
      obtain rfl : sender = peer := own
      obtain ⟨fits, room⟩ := separate
      obtain ⟨admitted, sameFlag⟩ := room message malloc rfl
      obtain ⟨result, decoded⟩ := (ServerNetSession.decodes_iff
        mirrors.sized sender message malloc).mpr (fits admitted)
      obtain ⟨ownResult, ownDecoded, received, sameHalf, sameRecv, flag⟩ :=
        mirrors.decode decoded sameFlag
      obtain ⟨after, handledHere, state, -, -⟩ :=
        ServerNetSession.handle_recv message admitted decoded
      rw [handled] at handledHere
      obtain ⟨rfl, rfl⟩ := Prod.mk.inj (Except.ok.inj handledHere)
      obtain ⟨aloneNext, ownHandled, ownState, -, others⟩ :=
        ServerNetSession.handle_recv message mirrors.admits ownDecoded
      refine ⟨aloneNext, by rw [ownHandled, received], ?_⟩
      have ownFlag : aloneNext.findMsghead = ownResult.state.findMsghead :=
        congrArg DecodeState.findMsghead ownState
      have nextFlag : next.findMsghead = result.state.findMsghead :=
        congrArg DecodeState.findMsghead state
      exact
        { sized := sizedNext
          halfpack := by rw [ownState, sameHalf, state]
          recv := by rw [ownState, sameRecv, state]
          findMsghead := by
            rw [ownFlag, flag, Watched.flagAfter, nextFlag]
            simp
          noOthers := fun other different => by
            rw [others other different, mirrors.noOthers other different] }

end Client

/-! ## Runs -/

/-- A session that has received nothing. -/
def Watched.initial : Watched := ⟨ServerState.initial, false⟩

theorem Watched.initial_mirrors (peer : PeerAddress) :
    Watched.initial.Mirrors peer ServerState.initial where
  sized := ServerState.initial_sized
  halfpack := rfl
  recv := rfl
  findMsghead := rfl
  noOthers := fun _ _ => rfl

/-- A session delivers to a peer what it would deliver if that peer's events
were the only ones. -/
def ServerNetSession.Isolates
    (lastEvent : Nat) (peer : PeerAddress) (server alone : ServerState)
    (events : List SessionEvent) : Prop :=
  ∃ final delivered finalAlone own,
    ServerNetSession.run .tcp lastEvent server events =
      .ok (final, delivered) ∧
    ServerNetSession.run .tcp lastEvent alone
        (events.filter fun event => event.peer = peer) =
      .ok (finalAlone, own) ∧
    delivered.filter (fun message => message.1 = peer) = own

/-- The two sessions stay in step. -/
theorem Watched.Mirrors.isolates
    {lastEvent : Nat} {peer : PeerAddress} {watched : Watched}
    {alone : ServerState} {events : List SessionEvent}
    (mirrors : watched.Mirrors peer alone)
    (separate : Along (Watched.Step lastEvent peer)
      (Watched.Separate lastEvent peer) watched events) :
    ServerNetSession.Isolates lastEvent peer watched.server alone events := by
  induction events generalizing watched alone with
  | nil => exact ⟨_, _, _, _, rfl, rfl, rfl⟩
  | cons event events inductionHypothesis =>
      obtain ⟨here, later⟩ := separate
      obtain ⟨next, delivered, handled⟩ :=
        ((ServerNetSession.eventSafe_iff mirrors.sized).mpr here.1).1
      have rest := later ⟨next, watched.flagAfter peer event next⟩
        ⟨⟨delivered, handled⟩, rfl⟩
      by_cases own : event.peer = peer
      · obtain ⟨aloneNext, ownHandled, mirrorsNext⟩ :=
          mirrors.own own here handled
        obtain ⟨final, deliveredLater, finalAlone, ownLater, run, ownRun,
          same⟩ := inductionHypothesis mirrorsNext rest
        refine ⟨final, delivered ++ deliveredLater, finalAlone,
          delivered ++ ownLater, ?_, ?_, ?_⟩
        · simp only [ServerNetSession.run, handled, ok_bind, run, pure_eq_ok]
        · rw [List.filter_cons_of_pos (by simp [own])]
          simp only [ServerNetSession.run, ownHandled, ok_bind, ownRun,
            pure_eq_ok]
        · have all : delivered.filter (fun message => message.1 = peer) =
              delivered := by
            rw [List.filter_eq_self]
            intro message member
            rw [ServerNetSession.peer_of_delivered handled message member]
            simp [own]
          rw [List.filter_append, all, same]
      · have mirrorsNext := mirrors.other own ⟨delivered, handled⟩
        obtain ⟨final, deliveredLater, finalAlone, ownLater, run, ownRun,
          same⟩ := inductionHypothesis mirrorsNext rest
        refine ⟨final, delivered ++ deliveredLater, finalAlone, ownLater, ?_,
          ?_, ?_⟩
        · simp only [ServerNetSession.run, handled, ok_bind, run, pure_eq_ok]
        · rw [List.filter_cons_of_neg (by simp [own])]
          exact ownRun
        · have nothing :
              delivered.filter (fun message => message.1 = peer) = [] := by
            rw [List.filter_eq_nil_iff]
            intro message member
            rw [ServerNetSession.peer_of_delivered handled message member]
            simp [own]
          rw [List.filter_append, nothing, same, List.nil_append]

/-- Whatever other clients do: a client is served as if it were alone, if no
byte causes a fault and its own bytes always meet room in the table of clients
and, where it matters, the flag that its own bytes have left. -/
theorem isolates_of_separate
    (lastEvent : Nat) (peer : PeerAddress) (events : List SessionEvent)
    (separate : Along (Watched.Step lastEvent peer)
      (Watched.Separate lastEvent peer) Watched.initial events) :
    ServerNetSession.Isolates lastEvent peer ServerState.initial
      ServerState.initial events :=
  (Watched.initial_mirrors peer).isolates separate

/-- A run whose first event is handled goes on with the state that this
leaves. -/
theorem Watched.along_cons {lastEvent : Nat} {peer : PeerAddress}
    {watched : Watched} {server : ServerState} {event : SessionEvent}
    {events : List SessionEvent} {delivered : List (PeerAddress × Block)}
    (sized : watched.server.Sized)
    (handled : ServerNetSession.handleEvent .tcp lastEvent watched.server
      event = .ok (server, delivered))
    (own : ∀ message malloc, event = .onRecv peer message malloc →
      watched.server.Admits peer ∧
        (watched.server.findMsghead = watched.ownFlag ∨
          ¬FlagMatters (ServerNetSession.decoder .tcp lastEvent malloc)
            (watched.server.decodeStateOf peer).halfpack message.bytes))
    (later : server.Sized →
      Along (Watched.Step lastEvent peer) (Watched.Separate lastEvent peer)
        ⟨server, watched.flagAfter peer event server⟩ events) :
    Along (Watched.Step lastEvent peer) (Watched.Separate lastEvent peer)
      watched (event :: events) := by
  have step : ServerNetSession.Step .tcp lastEvent watched.server event
      server := ⟨delivered, handled⟩
  refine ⟨⟨step.eventFits sized, own⟩, ?_⟩
  rintro ⟨next, flag⟩ ⟨⟨others, handledNext⟩, flagNext⟩
  obtain ⟨rfl, -⟩ := Prod.mk.inj
    (Except.ok.inj (handledNext.symm.trans handled))
  obtain rfl : flag = watched.flagAfter peer event next := flagNext
  exact later (step.sized sized)

/-- Two clients. -/
def firstPeer : PeerAddress := ⟨"10.0.0.2", 40000⟩

/-- A second client for examples. -/
def secondPeer : PeerAddress := ⟨"10.0.0.3", 40000⟩

/-- As many zero bytes. -/
def zeros (count : Fin 32) : Received where
  bytes := List.replicate count 0
  bounded := by
    rw [List.length_replicate]
    exact Nat.le_trans (Nat.le_of_lt count.isLt) (by decide)

/-- The front of a packet that is too long. -/
def tooLong : Received where
  bytes := List.replicate 8 0 ++ [0xff, 0xff, 0xff, 0x7f]
  bounded := by decide

/-- Two messages of one client, the first of them in two parts, are delivered as
if it were alone.  In between another client's message is delivered, its next
bytes leave the session searching for a message head, and it leaves. -/
theorem isolates_of_two_clients :
    ServerNetSession.Isolates 1 secondPeer ServerState.initial
      ServerState.initial
      [.onAccept firstPeer, .onRecv secondPeer (zeros 12) fun _ => true,
        .onRecv firstPeer (zeros 16) fun _ => true,
        .onRecv firstPeer tooLong fun _ => true,
        .onRecv secondPeer (zeros 4) fun _ => true, .onClose firstPeer,
        .onRecv secondPeer (zeros 16) fun _ => true] := by
  apply isolates_of_separate 1 secondPeer
  have admits : ∀ server : ServerState,
      server.clients.entries.length < maxClientNum →
        server.Admits secondPeer :=
    fun _ room _ => room
  have others : ∀ (watched : Watched) (other : Received) message malloc,
      SessionEvent.onRecv firstPeer other (fun _ => true) =
        .onRecv secondPeer message malloc →
      watched.server.Admits secondPeer ∧
        (watched.server.findMsghead = watched.ownFlag ∨
          ¬FlagMatters (ServerNetSession.decoder .tcp 1 malloc)
            (watched.server.decodeStateOf secondPeer).halfpack
            message.bytes) := by
    intro _ _ message malloc same
    have samePeer : firstPeer = secondPeer := congrArg SessionEvent.peer same
    exact absurd samePeer (by decide)
  refine Watched.along_cons ServerState.initial_sized rfl nofun ?_
  refine fun sized => Watched.along_cons sized rfl ?_ ?_
  · rintro message malloc ⟨⟩
    exact ⟨admits _ (by decide), .inl rfl⟩
  refine fun sized => Watched.along_cons sized rfl (others _ _) ?_
  refine fun sized => Watched.along_cons sized rfl (others _ _) ?_
  refine fun sized => Watched.along_cons sized rfl ?_ ?_
  · rintro message malloc ⟨⟩
    -- the flag does not matter behind the first part of a packet
    exact ⟨admits _ (by decide), .inr fun matters => nomatch matters.1⟩
  refine fun sized => Watched.along_cons sized rfl nofun ?_
  refine fun sized => Watched.along_cons sized rfl ?_ ?_
  · rintro message malloc ⟨⟩
    exact ⟨admits _ (by decide), .inl rfl⟩
  exact fun _ => trivial

/-- One client's bytes leave the session searching for a message head, and the
other's message, which arrives in two halves, is lost. -/
theorem not_isolates_of_too_long :
    ¬ServerNetSession.Isolates 1 secondPeer ServerState.initial
      ServerState.initial
      [.onRecv firstPeer tooLong fun _ => true,
        .onRecv secondPeer (zeros 8) fun _ => true,
        .onRecv secondPeer (zeros 8) fun _ => true] := by
  rintro ⟨final, delivered, finalAlone, own, run, ownRun, same⟩
  have nothing : (ServerNetSession.run .tcp 1 ServerState.initial
      [.onRecv firstPeer tooLong fun _ => true,
        .onRecv secondPeer (zeros 8) fun _ => true,
        .onRecv secondPeer (zeros 8) fun _ => true]).map
      (fun outcome => outcome.2.length) = .ok 0 := by
    decide
  have message : (ServerNetSession.run .tcp 1 ServerState.initial
      ([.onRecv firstPeer tooLong fun _ => true,
        .onRecv secondPeer (zeros 8) fun _ => true,
        .onRecv secondPeer (zeros 8) fun _ => true].filter
          fun event => event.peer = secondPeer)).map
      (fun outcome => outcome.2.length) = .ok 1 := by
    decide
  rw [run] at nothing
  rw [ownRun] at message
  have none : delivered.length = 0 := Except.ok.inj nothing
  have one : own.length = 1 := Except.ok.inj message
  have atMost := List.length_filter_le
    (fun message : PeerAddress × Block => message.1 = secondPeer) delivered
  rw [same, one, none] at atMost
  contradiction

end Network
end Pilot2Cloud
