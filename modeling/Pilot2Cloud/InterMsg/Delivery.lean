import Pilot2Cloud.Foundation.Transitions
import Pilot2Cloud.InterMsg.Connections

/-!
# The messages of every client are delivered

A server that serves its clients goes on to serve them through every event that
is safe for it.  An event that is not safe ends in a fault, leaves a client
without an index, or leaves bytes of an old client behind.
-/

namespace Pilot2Cloud
namespace InterMsg

open Foundation Words Memory

namespace MsgServer

variable {server : MsgServer} {ci fd : Nat} {data : List UInt8}

theorem freeIndex_eq_some (isFree : server.freeIndex = some ci) :
    0 < ci ∧ ci ≤ processMax ∧ server.watchFdList[ci]? = some none := by
  unfold freeIndex at isFree
  have member := List.mem_range'_1.mp (List.mem_of_find?_eq_some isFree)
  have found := List.find?_some isFree
  exact ⟨by omega, by omega, beq_iff_eq.mp found⟩

theorem accept_of_full (isFull : server.freeIndex = none) :
    server.accept fd = server := by
  unfold accept
  rw [isFull]

/-- A new connection is watched at the free index. -/
theorem getElem?_accept :
    (server.accept fd).watchFdList[ci]? =
      if server.freeIndex = some ci then some (some fd)
      else server.watchFdList[ci]? := by
  cases isFree : server.freeIndex with
  | none =>
      rw [accept_of_full isFree, if_neg (by simp)]
  | some index =>
      obtain ⟨-, -, isNone⟩ := freeIndex_eq_some isFree
      obtain ⟨bound, -⟩ := List.getElem?_eq_some_iff.mp isNone
      unfold accept
      rw [isFree]
      by_cases here : index = ci
      · subst here
        rw [if_pos rfl]
        exact List.getElem?_set_self bound
      · rw [if_neg (fun equal => here (Option.some_inj.mp equal))]
        exact List.getElem?_set_ne here

theorem Shape.accept (shape : server.Shape) : (server.accept fd).Shape := by
  cases isFree : server.freeIndex with
  | none =>
      rw [accept_of_full isFree]
      exact shape
  | some ci =>
      unfold MsgServer.accept
      rw [isFree]
      exact { shape with watch := List.length_set.trans shape.watch }

theorem Keeps.accept (keeps : server.Keeps ci data) :
    (server.accept fd).Keeps ci data := by
  cases isFree : server.freeIndex with
  | none =>
      rw [accept_of_full isFree]
      exact keeps
  | some index =>
      unfold MsgServer.accept
      rw [isFree]
      exact ⟨keeps.len, keeps.row⟩

end MsgServer

namespace Clients

variable {clients after : Clients} {event : Event} {server : MsgServer}
  {connection new : Connection} {sent : List Message} {ci other fd count : Nat}

theorem connectionAt_eq_some :
    clients.connectionAt ci = some (fd, connection) ↔
      clients.server.watchFdList[ci]? = some (some fd) ∧
        clients.connections[fd]? = some connection := by
  unfold connectionAt
  split
  case h_1 here watches =>
    rw [watches, Option.map_eq_some_iff]
    constructor
    · rintro ⟨found, isAt, same⟩
      obtain ⟨rfl, rfl⟩ := Prod.mk.inj same
      exact ⟨rfl, isAt⟩
    · rintro ⟨same, isAt⟩
      obtain rfl := Option.some_inj.mp (Option.some_inj.mp same)
      exact ⟨connection, isAt, rfl⟩
  case h_2 unwatched =>
    constructor
    · intro absent
      contradiction
    · intro both
      exact absurd both.1 (unwatched fd)

/-- A server that delivers messages, with a list of clients in which every
connection is once at most.  The connection at the last index, for which there
is no array, has not been read. -/
structure Serves (clients : Clients) : Prop extends clients.Delivers where
  shape : clients.server.Shape
  first : clients.server.watchFdList[0]? = some none
  known : ∀ {ci fd : Nat},
    clients.server.watchFdList[ci]? = some (some fd) →
      fd < clients.connections.length
  injective : ∀ {ci other fd : Nat},
    clients.server.watchFdList[ci]? = some (some fd) →
      clients.server.watchFdList[other]? = some (some fd) → ci = other
  last : ∀ {fd : Nat} {connection : Connection},
    clients.connectionAt processMax = some (fd, connection) →
      connection.received = 0

/-! ## Accepting -/

theorem Serves.connectionAt_accept (serves : clients.Serves)
    (sent : List Message) (ci : Nat) :
    (Clients.mk (clients.server.accept clients.connections.length)
        (clients.connections ++ [.opened sent])).connectionAt ci =
      if clients.server.freeIndex = some ci then
        some (clients.connections.length, .opened sent)
      else clients.connectionAt ci := by
  unfold connectionAt
  rw [MsgServer.getElem?_accept]
  by_cases isFree : clients.server.freeIndex = some ci
  · rw [if_pos isFree, if_pos isFree]
    simp
  · rw [if_neg isFree, if_neg isFree]
    cases watches : clients.server.watchFdList[ci]? with
    | none => rfl
    | some entry =>
        cases entry with
        | none => rfl
        | some here =>
            simp only
            rw [List.getElem?_append_left (serves.known watches)]

theorem Serves.accept (serves : clients.Serves)
    (safe : clients.Safe (.accept sent)) :
    (Clients.mk (clients.server.accept clients.connections.length)
      (clients.connections ++ [.opened sent])).Serves := by
  have isAt := serves.connectionAt_accept sent
  have watches : ∀ {ci fd : Nat},
      (clients.server.accept clients.connections.length).watchFdList[ci]? =
          some (some fd) →
        (clients.server.freeIndex = some ci ∧
            fd = clients.connections.length) ∨
          clients.server.watchFdList[ci]? = some (some fd) := by
    intro ci fd here
    rw [MsgServer.getElem?_accept] at here
    split at here
    case isTrue isFree =>
      exact .inl ⟨isFree,
        (Option.some_inj.mp (Option.some_inj.mp here)).symm⟩
    case isFalse => exact .inr here
  exact {
    delivered := by
      intro connection member
      obtain old | isNew := List.mem_append.mp member
      · exact serves.delivered connection old
      · obtain rfl := List.mem_singleton.mp isNew
        exact Connection.delivered_opened
    watched := by
      intro fd connection here isOpen isSome
      obtain isOld | isNew :=
        Nat.lt_or_ge fd clients.connections.length
      · rw [List.getElem?_append_left isOld] at here
        obtain ⟨ci, found⟩ := serves.watched here isOpen isSome
        refine ⟨ci, ?_⟩
        rw [isAt, if_neg ?_]
        · exact found
        · intro isFree
          have isNone := (MsgServer.freeIndex_eq_some isFree).2.2
          rw [(connectionAt_eq_some.mp found).1] at isNone
          simp at isNone
      · rw [List.getElem?_append_right isNew,
          List.getElem?_singleton] at here
        split at here
        case isFalse => contradiction
        case isTrue atEnd =>
          obtain rfl := Option.some_inj.mp here
          obtain isEmpty | isFree := safe
          · exact absurd isEmpty isSome
          · obtain ⟨ci, found⟩ := Option.ne_none_iff_exists'.mp isFree
            refine ⟨ci, ?_⟩
            rw [isAt, if_pos found]
            congr 2
            omega
    kept := by
      intro ci fd connection inBounds here
      apply MsgServer.Keeps.accept
      rw [isAt] at here
      split at here
      case isTrue isFree =>
        obtain ⟨-, rfl⟩ := Prod.mk.inj (Option.some_inj.mp here)
        rw [Connection.residue_opened]
        exact serves.clean inBounds (MsgServer.freeIndex_eq_some isFree).2.2
      case isFalse => exact serves.kept inBounds here
    clean := by
      intro ci inBounds here
      rw [MsgServer.getElem?_accept] at here
      split at here
      case isTrue => simp at here
      case isFalse => exact (serves.clean inBounds here).accept
    shape := serves.shape.accept
    first := by
      rw [MsgServer.getElem?_accept, if_neg ?_]
      · exact serves.first
      · intro isFree
        exact absurd (MsgServer.freeIndex_eq_some isFree).1
          (Nat.lt_irrefl 0)
    known := by
      intro ci fd here
      rw [List.length_append, List.length_singleton]
      obtain ⟨-, rfl⟩ | old := watches here
      · exact Nat.lt_succ_self _
      · exact Nat.lt_succ_of_lt (serves.known old)
    injective := by
      intro ci other fd here there
      obtain ⟨isFree, rfl⟩ | old := watches here <;>
        obtain ⟨isFree', isLast⟩ | old' := watches there
      · exact Option.some_inj.mp (isFree.symm.trans isFree')
      · exact absurd (serves.known old') (Nat.lt_irrefl _)
      · subst isLast
        exact absurd (serves.known old) (Nat.lt_irrefl _)
      · exact serves.injective old old'
    last := by
      intro fd connection here
      rw [isAt] at here
      split at here
      case isTrue =>
        obtain ⟨-, rfl⟩ := Prod.mk.inj (Option.some_inj.mp here)
        rfl
      case isFalse => exact serves.last here }

/-! ## Replacing a connection -/

theorem ne_of_fd_ne {otherFd : Nat} {found : Connection}
    (isAt : clients.connectionAt ci = some (fd, connection))
    (isOther : clients.connectionAt other = some (otherFd, found))
    (apart : fd ≠ otherFd) : ci ≠ other := by
  rintro rfl
  obtain ⟨same, -⟩ :=
    Prod.mk.inj (Option.some_inj.mp (isAt.symm.trans isOther))
  exact apart same

theorem Serves.connectionAt_set_ne (serves : clients.Serves)
    (isAt : clients.connectionAt ci = some (fd, connection))
    (sameWatch : server.watchFdList[other]? =
      clients.server.watchFdList[other]?) (apart : ci ≠ other) :
    (Clients.mk server (clients.connections.set fd new)).connectionAt other =
      clients.connectionAt other := by
  have watchesHere := (connectionAt_eq_some.mp isAt).1
  unfold connectionAt
  simp only [sameWatch]
  cases watches : clients.server.watchFdList[other]? with
  | none => rfl
  | some entry =>
      cases entry with
      | none => rfl
      | some there =>
          simp only
          rw [List.getElem?_set_ne]
          intro same
          subst same
          exact apart (serves.injective watchesHere watches)

theorem connectionAt_set_self
    (isAt : clients.connectionAt ci = some (fd, connection))
    (sameWatch : server.watchFdList[ci]? =
      clients.server.watchFdList[ci]?) :
    (Clients.mk server (clients.connections.set fd new)).connectionAt ci =
      some (fd, new) := by
  obtain ⟨watches, isConnection⟩ := connectionAt_eq_some.mp isAt
  obtain ⟨bound, -⟩ := List.getElem?_eq_some_iff.mp isConnection
  exact connectionAt_eq_some.mpr
    ⟨sameWatch.trans watches, List.getElem?_set_self bound⟩

theorem connectionAt_eq_none
    (unwatched : clients.server.watchFdList[ci]? = some none) :
    clients.connectionAt ci = none := by
  unfold connectionAt
  rw [unwatched]

/-! ## Disconnecting -/

theorem Serves.disconnect (serves : clients.Serves)
    (isAt : clients.connectionAt ci = some (fd, connection))
    (nothing :
      leftover Message.frame connection.sent connection.received = 0) :
    (Clients.mk (clients.server.disconnect ci)
      (clients.connections.set fd connection.closed)).Serves := by
  obtain ⟨watchesHere, isConnection⟩ := connectionAt_eq_some.mp isAt
  obtain ⟨bound, -⟩ := List.getElem?_eq_some_iff.mp watchesHere
  have unwatched : (clients.server.disconnect ci).watchFdList[ci]? =
      some none := List.getElem?_set_self bound
  have sameWatch : ∀ {other : Nat}, ci ≠ other →
      (clients.server.disconnect ci).watchFdList[other]? =
        clients.server.watchFdList[other]? := by
    intro other apart
    exact List.getElem?_set_ne apart
  -- what is watched at an index was watched there before
  have before : ∀ {other there : Nat} {found : Connection},
      (Clients.mk (clients.server.disconnect ci)
          (clients.connections.set fd connection.closed)).connectionAt
            other = some (there, found) →
        ci ≠ other ∧ clients.connectionAt other = some (there, found) := by
    intro other there found here
    have apart : ci ≠ other := by
      rintro rfl
      rw [connectionAt_eq_none unwatched] at here
      contradiction
    rw [serves.connectionAt_set_ne isAt (sameWatch apart) apart] at here
    exact ⟨apart, here⟩
  have watchesBefore : ∀ {other there : Nat},
      (clients.server.disconnect ci).watchFdList[other]? =
          some (some there) →
        clients.server.watchFdList[other]? = some (some there) := by
    intro other there here
    have apart : ci ≠ other := by
      rintro rfl
      rw [unwatched] at here
      simp at here
    rw [sameWatch apart] at here
    exact here
  have sameKeeps : ∀ {other : Nat} {data : List UInt8},
      clients.server.Keeps other data →
        (clients.server.disconnect ci).Keeps other data := by
    intro other data keeps
    exact ⟨keeps.len, keeps.row⟩
  exact {
    delivered := by
      intro found member
      obtain old | rfl := List.mem_or_eq_of_mem_set member
      · exact serves.delivered found old
      · have delivered := serves.delivered connection
          (List.mem_of_getElem? isConnection)
        exact ⟨delivered.bound, delivered.dispatched⟩
    watched := by
      intro there found here isOpen isSome
      rw [List.getElem?_set] at here
      split at here
      case isTrue =>
        split at here
        · obtain rfl := Option.some_inj.mp here
          contradiction
        · contradiction
      case isFalse apart =>
        obtain ⟨other, isOther⟩ := serves.watched here isOpen isSome
        have otherIndex := ne_of_fd_ne isAt isOther apart
        refine ⟨other, ?_⟩
        rw [serves.connectionAt_set_ne isAt (sameWatch otherIndex)
          otherIndex]
        exact isOther
    kept := by
      intro other there found inBounds here
      exact sameKeeps (serves.kept inBounds (before here).2)
    clean := by
      intro other inBounds here
      apply sameKeeps
      by_cases same : ci = other
      · subst same
        rw [← Connection.residue_of_leftover nothing]
        exact serves.kept inBounds isAt
      · rw [sameWatch same] at here
        exact serves.clean inBounds here
    shape :=
      { serves.shape with watch := List.length_set.trans serves.shape.watch }
    first := by
      by_cases same : ci = 0
      · subst same
        exact unwatched
      · rw [sameWatch same]
        exact serves.first
    known := by
      intro other there here
      rw [List.length_set]
      exact serves.known (watchesBefore here)
    injective := by
      intro one other there here also
      exact serves.injective (watchesBefore here) (watchesBefore also)
    last := by
      intro there found here
      exact serves.last (before here).2 }

/-! ## Reading -/

/-- The bytes that are kept for one index change with the connection there. -/
theorem Serves.replace (serves : clients.Serves)
    (isAt : clients.connectionAt ci = some (fd, connection))
    (inBounds : ci < processMax)
    (instead : clients.server.KeepsInstead server ci new.residue)
    (delivered : new.Delivered) :
    (Clients.mk server (clients.connections.set fd new)).Serves := by
  have same : ∀ {other : Nat}, server.watchFdList[other]? =
      clients.server.watchFdList[other]? := by
    intro other
    rw [instead.watch]
  have isHere := @connectionAt_set_self _ server _ new _ _ isAt same
  have isElsewhere := fun {other : Nat} (apart : ci ≠ other) =>
    @Serves.connectionAt_set_ne _ server _ new _ _ _ serves isAt same apart
  exact {
    delivered := by
      intro found member
      obtain old | rfl := List.mem_or_eq_of_mem_set member
      · exact serves.delivered found old
      · exact delivered
    watched := by
      intro there found here isOpen isSome
      rw [List.getElem?_set] at here
      split at here
      case isTrue sameFd =>
        subst sameFd
        split at here
        · obtain rfl := Option.some_inj.mp here
          exact ⟨ci, isHere⟩
        · contradiction
      case isFalse apart =>
        obtain ⟨other, isOther⟩ := serves.watched here isOpen isSome
        refine ⟨other, (isElsewhere ?_).trans isOther⟩
        exact ne_of_fd_ne isAt isOther apart
    kept := by
      intro other there found inBounds here
      by_cases sameIndex : ci = other
      · subst sameIndex
        rw [isHere] at here
        obtain ⟨-, rfl⟩ := Prod.mk.inj (Option.some_inj.mp here)
        exact instead.here
      · rw [isElsewhere sameIndex] at here
        exact instead.others sameIndex (serves.kept inBounds here)
    clean := by
      intro other inBounds here
      rw [same] at here
      refine instead.others ?_ (serves.clean inBounds here)
      rintro rfl
      rw [connectionAt_eq_none here] at isAt
      contradiction
    shape := instead.shape
    first := same.trans serves.first
    known := by
      intro other there here
      rw [List.length_set]
      exact serves.known (same.symm.trans here)
    injective := by
      intro one other there here also
      exact serves.injective (same.symm.trans here) (same.symm.trans also)
    last := by
      intro there found here
      rw [isElsewhere (Nat.ne_of_lt inBounds)] at here
      exact serves.last here }

/-- The server takes the bytes exactly when it goes on to serve. -/
theorem Serves.receive_cases (serves : clients.Serves)
    (isAt : clients.connectionAt ci = some (fd, connection))
    (nonempty : connection.unread count ≠ []) :
    (clients.server.Takes ci connection.rest connection.residue
        (connection.unread count) ∧
      ∃ next copied, clients.server.receive ci (connection.unread count) =
          .ok (next, copied) ∧
        (Clients.mk next (clients.connections.set fd (connection.read
          (connection.unread count).length copied))).Serves) ∨
    (¬clients.server.Takes ci connection.rest connection.residue
        (connection.unread count) ∧
      ∃ fault, clients.server.receive ci (connection.unread count) =
        .error fault) := by
  obtain ⟨watchesHere, isConnection⟩ := connectionAt_eq_some.mp isAt
  have delivered := serves.delivered connection
    (List.mem_of_getElem? isConnection)
  have fits : (connection.unread count).length ≤ unsocketBufferLength := by
    rw [Connection.unread, List.length_take]
    omega
  have isData : connection.residue ++ connection.unread count <+:
      connection.rest.flatMap Message.frame := by
    rw [Connection.residue_append_unread delivered.bound]
    exact List.take_prefix _ _
  obtain ⟨takes, next, received, instead⟩ | failed :=
    MsgServer.receive_cases serves.shape
      (fun inBounds => serves.kept inBounds isAt) nonempty fits isData
  swap
  · exact .inr failed
  refine .inl ⟨takes, _, _, received, ?_⟩
  rw [← Connection.residue_read delivered] at instead
  exact serves.replace isAt takes.inBounds instead
    (Connection.delivered_read delivered)

/-! ## Events -/

theorem Serves.initial : initial.Serves where
  delivered := by
    intro connection member
    contradiction
  watched := by
    intro fd connection here
    contradiction
  kept := by
    intro ci fd connection inBounds here
    have isConnection := (connectionAt_eq_some.mp here).2
    contradiction
  clean := by
    intro ci inBounds here
    exact ⟨List.getElem?_replicate_of_lt inBounds, _,
      List.getElem?_replicate_of_lt inBounds,
      Block.has_nil (Nat.zero_le _)⟩
  shape := {
    watch := List.length_replicate
    rows := List.length_replicate
    rowSize := by
      intro row member
      obtain rfl := List.eq_of_mem_replicate member
      exact List.length_replicate
    lens := List.length_replicate
    buffer := Block.length_alloc _ }
  first := List.getElem?_replicate_of_lt (by decide)
  known := by
    intro ci fd here
    have unwatched := List.eq_of_mem_replicate (List.mem_of_getElem? here)
    contradiction
  injective := by
    intro ci other fd here
    have unwatched := List.eq_of_mem_replicate (List.mem_of_getElem? here)
    contradiction
  last := by
    intro fd connection here
    have isConnection := (connectionAt_eq_some.mp here).2
    contradiction

theorem step_receive {next : MsgServer} {copied : List CopiedMsg}
    (isAt : clients.connectionAt ci = some (fd, connection))
    (nonempty : connection.unread count ≠ [])
    (received : clients.server.receive ci (connection.unread count) =
      .ok (next, copied)) :
    clients.Step (.receive ci count)
      ⟨next, clients.connections.set fd
        (connection.read (connection.unread count).length copied)⟩ := by
  unfold Step
  rw [perform, isAt]
  simp only
  rw [if_neg (mt List.isEmpty_iff.mp nonempty), received]
  rfl

/-- A safe event keeps the service. -/
theorem Serves.exists_step (serves : clients.Serves)
    (safe : clients.Safe event) :
    ∃ next, clients.Step event next ∧ next.Serves := by
  cases event with
  | accept sent => exact ⟨_, rfl, serves.accept safe⟩
  | receive ci count =>
      cases isAt : clients.connectionAt ci with
      | none =>
          refine ⟨clients, ?_, serves⟩
          rw [Step, perform, isAt]
          rfl
      | some entry =>
          obtain ⟨fd, connection⟩ := entry
          by_cases nothing : (connection.unread count).isEmpty
          · refine ⟨clients, ?_, serves⟩
            rw [Step, perform, isAt]
            exact if_pos nothing
          · have nonempty := mt List.isEmpty_iff.mpr nothing
            obtain ⟨-, next, copied, received, later⟩ | ⟨refuses, -⟩ :=
              serves.receive_cases isAt nonempty
            · exact ⟨_, step_receive isAt nonempty received, later⟩
            · exact absurd (safe fd connection isAt nonempty) refuses
  | disconnect ci =>
      unfold Step
      rw [perform]
      cases isAt : clients.connectionAt ci with
      | none => exact ⟨clients, rfl, serves⟩
      | some entry =>
          obtain ⟨fd, connection⟩ := entry
          exact ⟨_, rfl, serves.disconnect isAt (safe fd connection isAt)⟩

/-- An event after which the messages are delivered was safe. -/
theorem Serves.safe_of_step (serves : clients.Serves)
    (step : clients.Step event after) (delivers : after.Delivers) :
    clients.Safe event := by
  cases event with
  | accept sent =>
      by_contra unsafeEvent
      obtain ⟨isSome, isFull⟩ := not_or.mp unsafeEvent
      rw [not_not] at isFull
      obtain rfl := Except.ok.inj step
      obtain ⟨ci, found⟩ := delivers.watched
        (List.getElem?_concat_length) rfl isSome
      have watches := (connectionAt_eq_some.mp found).1
      simp only [MsgServer.accept_of_full isFull] at watches
      exact absurd (serves.known watches) (Nat.lt_irrefl _)
  | receive ci count =>
      intro fd connection isAt nonempty
      have some := mt List.isEmpty_iff.mp nonempty
      obtain ⟨takes, -⟩ | ⟨-, fault, failed⟩ :=
        serves.receive_cases isAt nonempty
      · exact takes
      · rw [Step, perform, isAt] at step
        simp only at step
        rw [if_neg some, failed] at step
        contradiction
  | disconnect ci =>
      intro fd connection isAt
      rw [Step, perform, isAt] at step
      obtain rfl := Except.ok.inj step
      obtain ⟨watches, isConnection⟩ := connectionAt_eq_some.mp isAt
      obtain ⟨inList, -⟩ := List.getElem?_eq_some_iff.mp watches
      rw [serves.shape.watch] at inList
      have delivered := serves.delivered connection
        (List.mem_of_getElem? isConnection)
      obtain inBounds | beyond := Nat.lt_or_ge ci processMax
      · have kept := (serves.kept inBounds isAt).len
        have clean := (delivers.clean inBounds
          (List.getElem?_set_self (by rw [serves.shape.watch]; omega))).len
        rw [← Connection.length_residue delivered.bound]
        exact Option.some_inj.mp (kept.symm.trans clean)
      · obtain rfl : ci = processMax := by omega
        have lengths := @length_complete_add_leftover _ Message.frame
          connection.sent connection.received
        have unread := serves.last isAt
        omega

/-- The messages are delivered all along exactly when every event is safe. -/
theorem safe_iff_delivers {events : List Event} :
    Along Step Safe initial events ↔
      (∃ clients, Run Step initial events clients) ∧
        ∀ clients, Reached Step initial events clients →
          clients.Delivers := by
  apply Along.iff_exists_run Serves
  · intro clients event next other first second
    exact Except.ok.inj (first.symm.trans second)
  · intro clients event serves safe
    exact serves.exists_step safe
  · intro clients event next serves step delivers
    exact serves.safe_of_step step delivers
  · intro clients serves
    exact serves.toDelivers
  · exact .initial

/-! ## A message that is not complete -/

/-- A message without a payload. -/
def short (srcModuleId : UInt32) (unused : List UInt8)
    (unusedSize : unused.length = 112) : Message where
  srcModuleId := srcModuleId
  dstModuleId := 0
  msgId := 0
  unused := unused
  payload := []
  unusedSize := unusedSize
  payloadSize := by decide

/-- A message of which a half arrives. -/
def firstMessage : Message := short 0 (List.replicate 112 0) (by decide)

/-- A message of the next client. -/
def secondMessage : Message := short 1 (List.replicate 112 0) (by decide)

/-- The half of the first message with the half of the second one behind it. -/
def mixedMessage : Message :=
  short 0 (List.replicate 48 0 ++ 1 :: List.replicate 63 0) (by decide)

set_option maxRecDepth 4000 in
/-- A half of the first message is kept. -/
theorem receive_half {server : MsgServer} (shape : server.Shape)
    (keeps : server.Keeps 1 []) :
    ∃ next, server.receive 1 (firstMessage.frame.take 64) =
        .ok (next, []) ∧
      server.KeepsInstead next 1 (firstMessage.frame.take 64) := by
  have isData : [] ++ firstMessage.frame.take 64 <+:
      [firstMessage].flatMap Message.frame := by decide +kernel
  have takes : server.Takes 1 [firstMessage] []
      (firstMessage.frame.take 64) :=
    MsgServer.takes_of_arrived shape keeps (by decide) (by decide) isData
      (by decide) (by decide) (rfl : _ = firstMessage :: []) (by decide)
      (by decide) (by simp)
  obtain ⟨-, next, received, instead⟩ | ⟨refuses, -⟩ :=
    MsgServer.receive_cases shape (fun _ => keeps) (by decide) (by decide)
      isData
  · exact ⟨next, received, instead⟩
  · exact absurd takes refuses

set_option maxRecDepth 4000 in
/-- The second message is put behind it. -/
theorem receive_mixed {server : MsgServer} (shape : server.Shape)
    (keeps : server.Keeps 1 (firstMessage.frame.take 64)) :
    ∃ next, server.receive 1 secondMessage.frame =
      .ok (next, [mixedMessage.copied]) := by
  have isData : firstMessage.frame.take 64 ++ secondMessage.frame <+:
      [mixedMessage, firstMessage].flatMap Message.frame := by
    decide +kernel
  have takes : server.Takes 1 [mixedMessage, firstMessage]
      (firstMessage.frame.take 64) secondMessage.frame :=
    MsgServer.takes_of_arrived shape keeps (by decide) (by decide) isData
      (by decide) (by decide) (rfl : _ = firstMessage :: []) (by decide)
      (by decide) (by decide)
  obtain ⟨-, next, received, -⟩ | ⟨refuses, -⟩ :=
    MsgServer.receive_cases shape (fun _ => keeps) (by decide) (by decide)
      isData
  · exact ⟨next, received⟩
  · exact absurd takes refuses

/-- The bytes of a message that is not complete stay behind when its client
disconnects.  They are put before the message of the next client, and the server
copies a message that no client has sent. -/
theorem exists_mixed :
    ∃ clients connection, Run Step initial
        [.accept [firstMessage], .receive 1 64, .disconnect 1,
          .accept [secondMessage], .receive 1 128] clients ∧
      clients.connections[1]? = some connection ∧
      connection.sent = [secondMessage] ∧
      connection.received = secondMessage.frame.length ∧
      connection.dispatched = [mixedMessage.copied] ∧
      mixedMessage.copied ≠ secondMessage.copied := by
  have start := Serves.initial
  have shape : (MsgServer.initial.accept 0).Shape := start.shape.accept
  have keeps : (MsgServer.initial.accept 0).Keeps 1 [] :=
    (start.clean (by decide) rfl).accept
  obtain ⟨half, first, instead⟩ := receive_half shape keeps
  have watch : half.watchFdList =
      [none, some 0, none, none, none, none, none, none, none] :=
    instead.watch
  have freeShape : (half.disconnect 1).Shape :=
    { instead.shape with
      watch := List.length_set.trans instead.shape.watch }
  have freeKeeps : (half.disconnect 1).Keeps 1
      (firstMessage.frame.take 64) :=
    ⟨instead.here.len, instead.here.row⟩
  have isFree : (half.disconnect 1).freeIndex = some 1 := by
    unfold MsgServer.freeIndex MsgServer.disconnect
    rw [watch]
    rfl
  obtain ⟨last, second⟩ := receive_mixed freeShape.accept freeKeeps.accept
  have halfRead : (Connection.opened [firstMessage]).unread 64 =
      firstMessage.frame.take 64 := by decide +kernel
  have wholeRead : (Connection.opened [secondMessage]).unread 128 =
      secondMessage.frame := by decide +kernel
  rw [← halfRead] at first
  rw [← wholeRead] at second
  have isFirst : (Clients.mk (MsgServer.initial.accept 0)
      [.opened [firstMessage]]).connectionAt 1 =
        some (0, .opened [firstMessage]) := rfl
  have isHalf : ∀ {connection : Connection},
      (Clients.mk half [connection]).connectionAt 1 =
        some (0, connection) := by
    intro connection
    exact connectionAt_eq_some.mpr ⟨by rw [watch]; rfl, rfl⟩
  have isSecond : ∀ {connection : Connection},
      (Clients.mk ((half.disconnect 1).accept 1)
        [connection, .opened [secondMessage]]).connectionAt 1 =
          some (1, .opened [secondMessage]) := by
    intro connection
    apply connectionAt_eq_some.mpr
    exact ⟨by rw [MsgServer.getElem?_accept, if_pos isFree], rfl⟩
  have opening : Step initial (.accept [firstMessage])
      ⟨MsgServer.initial.accept 0, [.opened [firstMessage]]⟩ := rfl
  have reading := step_receive isFirst (by rw [halfRead]; decide) first
  have closing : ∀ connection : Connection,
      Step ⟨half, [connection]⟩ (.disconnect 1)
        ⟨half.disconnect 1, [connection.closed]⟩ := by
    intro connection
    rw [Step, perform, isHalf]
    rfl
  have openingAgain : ∀ connection : Connection,
      Step ⟨half.disconnect 1, [connection]⟩ (.accept [secondMessage])
        ⟨(half.disconnect 1).accept 1,
          [connection, .opened [secondMessage]]⟩ := by
    intro connection
    rfl
  have readingAgain : ∀ connection : Connection,
      Step ⟨(half.disconnect 1).accept 1,
          [connection, .opened [secondMessage]]⟩ (.receive 1 128)
        ⟨last, [connection, (Connection.opened [secondMessage]).read
          ((Connection.opened [secondMessage]).unread 128).length
            [mixedMessage.copied]]⟩ := by
    intro connection
    exact step_receive isSecond (by rw [wholeRead]; decide) second
  refine ⟨_, (Connection.opened [secondMessage]).read _ _, .cons opening
    (.cons reading (.cons (closing _) (.cons (openingAgain _)
      (.cons (readingAgain _) (.nil _))))), rfl, rfl, ?_, rfl, by decide⟩
  rw [Connection.received_read, Connection.received_opened, Nat.zero_add,
    wholeRead]

end Clients
end InterMsg
end Pilot2Cloud
