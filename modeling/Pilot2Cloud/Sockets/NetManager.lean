import Mathlib.Data.List.Range
import Mathlib.Logic.Function.Basic

/-!
# The table of sockets

Every platform socket has an entry in the table of the net manager.  A handle
names the entry and carries a number that is new for every handle, so that the
entry can be used again for another socket.
-/

namespace Pilot2Cloud
namespace Sockets

/-- `ConnHandle`. -/
structure ConnHandle where
  connProtocol : UInt32
  connMagic : UInt32
  connIndex : UInt32
  isValid : Bool
  deriving DecidableEq

/-- `updateHandle`. -/
def ConnHandle.updateHandle (handle : ConnHandle)
    (connProtocol connIndex : UInt32) : ConnHandle :=
  { handle with
    connProtocol := connProtocol
    connIndex := connIndex
    isValid := true }

/-- `PlatformSocket*`. -/
abbrev Socket := Nat

/-- `MAX_CONNECTION_COUNT`. -/
def maxConnectionCount : Nat := 2048

/-- `NetManager`, with the counter of handles `g_value` and the members of the
sockets that it uses. -/
structure NetManager where
  connList : List (Option Socket)
  currIndex : Nat
  value : UInt32
  netHandle : Socket → ConnHandle
  protocol : Socket → UInt32

namespace NetManager

/-- The manager at the start of the program, with whatever the sockets have. -/
def initial (netHandle : Socket → ConnHandle) (protocol : Socket → UInt32) :
    NetManager where
  connList := List.replicate maxConnectionCount none
  currIndex := 0
  value := 1
  netHandle := netHandle
  protocol := protocol

/-- The first free entry from one index on, in front of another. -/
def firstFree (connList : List (Option Socket)) (first last : Nat) :
    Option Nat :=
  (List.range' first (last - first)).find? fun index =>
    connList[index]? == some none

/-- The search goes on from the start of the table when it finds nothing up to
the end. -/
def allocIndex (manager : NetManager) (conn : Socket) :
    NetManager × Option Nat :=
  let found :=
    match firstFree manager.connList manager.currIndex
      manager.connList.length with
    | some index => some index
    | none => firstFree manager.connList 0 manager.currIndex
  match found with
  | some index =>
      ({ manager with
        connList := manager.connList.set index (some conn)
        currIndex := index }, some index)
  | none => (manager, none)

/-- `ConnHandle::ConnHandle`. -/
def newHandle (manager : NetManager) : NetManager × ConnHandle :=
  ({ manager with value := manager.value + 1 },
    { connProtocol := 0
      connMagic := manager.value
      connIndex := 0
      isValid := false })

/-- `AddPlatformSocket`. -/
def addPlatformSocket (manager : NetManager) (socket : Socket) :
    NetManager × ConnHandle :=
  let (manager, alloc) := manager.allocIndex socket
  let (manager, handle) := manager.newHandle
  match alloc with
  | some index =>
      let handle :=
        handle.updateHandle (manager.protocol socket) (UInt32.ofNat index)
      ({ manager with
        netHandle := Function.update manager.netHandle socket handle },
        handle)
  | none => (manager, handle)

/-- `FromHandle`. -/
def fromHandle (manager : NetManager) (handle : ConnHandle) : Option Socket :=
  match manager.connList[handle.connIndex.toNat]? with
  | some (some conn) =>
      if manager.netHandle conn ≠ handle then none else some conn
  | _ => none

/-- An entry is freed.  Reading behind the table throws an exception. -/
def releaseIndex (manager : NetManager) (connindex : Nat) :
    Option NetManager :=
  if manager.connList.length < connindex then some manager
  else if connindex < manager.connList.length then
    some { manager with connList := manager.connList.set connindex none }
  else none

/-- `Close`. -/
def close (manager : NetManager) (handle : ConnHandle) : Option NetManager :=
  match manager.fromHandle handle with
  | some _ => manager.releaseIndex handle.connIndex.toNat
  | none => some manager

/-! ## Allocation -/

variable {manager : NetManager} {connList : List (Option Socket)}
  {first last index : Nat} {socket : Socket}

theorem firstFree_eq_some (found : firstFree connList first last = some index) :
    connList[index]? = some none := by
  unfold firstFree at found
  have free := List.find?_some found
  exact beq_iff_eq.mp free

theorem firstFree_eq_none_iff :
    firstFree connList first last = none ↔
      ∀ index, first ≤ index → index < last → connList[index]? ≠ some none := by
  unfold firstFree
  rw [List.find?_eq_none]
  constructor
  · intro none index lower upper
    have notFree := none index (List.mem_range'_1.mpr ⟨lower, by omega⟩)
    exact fun free => notFree (beq_iff_eq.mpr free)
  · intro none index inside free
    obtain ⟨lower, upper⟩ := List.mem_range'_1.mp inside
    exact none index lower (by omega) (beq_iff_eq.mp free)

/-- A socket gets a free entry, or there is none. -/
theorem allocIndex_cases (manager : NetManager) (conn : Socket) :
    (∃ index : Nat, manager.connList[index]? = some none ∧
      manager.allocIndex conn =
        ({ manager with
          connList := manager.connList.set index (some conn)
          currIndex := index }, some index)) ∨
    ((∀ index : Nat, manager.connList[index]? ≠ some none) ∧
      manager.allocIndex conn = (manager, none)) := by
  unfold allocIndex
  cases early : firstFree manager.connList manager.currIndex
      manager.connList.length with
  | some index => exact .inl ⟨index, firstFree_eq_some early, rfl⟩
  | none =>
      cases late : firstFree manager.connList 0 manager.currIndex with
      | some index => exact .inl ⟨index, firstFree_eq_some late, rfl⟩
      | none =>
          refine .inr ⟨fun index free => ?_, rfl⟩
          have inside : index < manager.connList.length := by
            by_contra outside
            rw [List.getElem?_eq_none (Nat.not_lt.mp outside)] at free
            contradiction
          by_cases behind : manager.currIndex ≤ index
          · exact firstFree_eq_none_iff.mp early index behind inside free
          · exact firstFree_eq_none_iff.mp late index (Nat.zero_le _)
              (Nat.not_le.mp behind) free

/-- The handle of a socket that gets an entry. -/
def granted (manager : NetManager) (socket : Socket) (index : Nat) :
    ConnHandle where
  connProtocol := manager.protocol socket
  connMagic := manager.value
  connIndex := UInt32.ofNat index
  isValid := true

/-- The manager after a socket gets an entry. -/
def place (manager : NetManager) (socket : Socket) (index : Nat) :
    NetManager :=
  { manager with
    connList := manager.connList.set index (some socket)
    currIndex := index
    value := manager.value + 1
    netHandle := Function.update manager.netHandle socket
      (manager.granted socket index) }

/-- A socket gets a free entry and a handle, or an invalid handle. -/
theorem addPlatformSocket_cases (manager : NetManager) (socket : Socket) :
    (∃ index : Nat, manager.connList[index]? = some none ∧
      manager.addPlatformSocket socket =
        (manager.place socket index, manager.granted socket index)) ∨
    ((∀ index : Nat, manager.connList[index]? ≠ some none) ∧
      manager.addPlatformSocket socket = manager.newHandle) := by
  unfold addPlatformSocket
  obtain ⟨index, free, allocated⟩ | ⟨noneFree, allocated⟩ :=
    manager.allocIndex_cases socket
  · refine .inl ⟨index, free, ?_⟩
    rw [allocated]
    rfl
  · refine .inr ⟨noneFree, ?_⟩
    rw [allocated]

theorem fromHandle_eq_some_iff {handle : ConnHandle} :
    manager.fromHandle handle = some socket ↔
      manager.connList[handle.connIndex.toNat]? = some (some socket) ∧
        manager.netHandle socket = handle := by
  unfold fromHandle
  split
  case h_1 conn entry =>
    rw [entry]
    by_cases same : manager.netHandle conn = handle
    · rw [if_neg (not_not.mpr same)]
      constructor
      · intro found
        obtain rfl := Option.some_inj.mp found
        exact ⟨rfl, same⟩
      · rintro ⟨found, -⟩
        exact Option.some_inj.mp found
    · rw [if_pos same]
      constructor
      · intro found
        contradiction
      · rintro ⟨found, isHandle⟩
        obtain rfl := Option.some_inj.mp (Option.some_inj.mp found)
        contradiction
  case h_2 noSocket =>
    constructor
    · intro found
      contradiction
    · rintro ⟨entry, -⟩
      exact absurd entry (noSocket socket)

end NetManager
end Sockets
end Pilot2Cloud
