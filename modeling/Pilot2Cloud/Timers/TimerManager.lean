import Pilot2Cloud.Foundation.IntrusiveList

/-!
# The timer manager

Timer units live in an array.  A unit is linked in the list of free timers or in
the list of allocated timers and, while its timer runs, in the hash bucket of
the tick at which it expires.  A tick walks one bucket, and the unit that
expires is unlinked and perhaps linked again during the walk.

The manager's mutex makes every operation atomic.  Whether the message of an
expired timer can be sent is up to the mailbox of the receiver.
-/

namespace Pilot2Cloud
namespace Timers

open Foundation

/-- What the functions of the timer manager return. -/
inductive TimerReturnValue
  | success
  | fail
  | paramError
  | notExist
  | notPermit
  | noResource
  | outOfService
  deriving DecidableEq

/-- `PF_TIMER_ARRAY_INDEX_BIT_LEN`. -/
def timerArrayIndexBitLen : UInt32 := 14

/-- `PF_TIMER_ARRAY_INDEX_MASK`. -/
def timerArrayIndexMask : UInt32 := (1 <<< timerArrayIndexBitLen) - 1

/-- `PF_TIMER_ARRAY_MAX_SIZE`. -/
def timerArrayMaxSize : UInt32 := timerArrayIndexMask

/-- The unit that a timer ID is for. -/
def timerIndex (timerId : UInt32) : Nat :=
  (timerId &&& timerArrayIndexMask).toNat

/-- The addresses of list nodes: the list heads of the manager, those of its
hash table, and the two nodes of each timer unit. -/
inductive ListNode
  | freeTimerList
  | allocTimerList
  | activeTimerList (index : Nat)
  | node (timer : Nat)
  | hashNode (timer : Nat)
  deriving DecidableEq

/-- `TIMER_EXPIRE_MSG_S`. -/
structure TimerExpireMsg where
  timerId : UInt32
  typeId : UInt32
  para : UInt64
  deriving DecidableEq

/-- `TIMER_UNIT_S`. -/
structure TimerUnit where
  duration : UInt32
  absExpTick : UInt32
  running : Bool
  cycle : UInt8
  moduleId : UInt32
  tmExpMsg : TimerExpireMsg

/-- A unit whose memory is zero. -/
def TimerUnit.zero : TimerUnit where
  duration := 0
  absExpTick := 0
  running := false
  cycle := 0
  moduleId := 0
  tmExpMsg := ⟨0, 0, 0⟩

/-- The manager with the memory that its pointers lead to.  The data of a list
node is the timer unit that the node belongs to. -/
structure TimerManager where
  tickInterval : UInt32
  currentTick : UInt32
  timerArraySize : UInt32
  timerArray : Nat → TimerUnit
  hashTblLastIdx : UInt32
  links : Links ListNode
  data : ListNode → Nat
  timerCount : UInt32
  timerCountHistory : UInt32
  timerMsgFailCount : UInt32

namespace TimerManager

/-- Write a unit of the timer array. -/
def store (manager : TimerManager) (timer : Nat) (unit : TimerUnit) :
    TimerManager :=
  { manager with timerArray := Function.update manager.timerArray timer unit }

/-- The tick at which a timer is to expire. -/
def setAbsExpTick (manager : TimerManager) (timer : Nat) (tick : UInt32) :
    TimerManager :=
  manager.store timer { manager.timerArray timer with absExpTick := tick }

/-- The hash table unit of a timer. -/
def hashIndex (manager : TimerManager) (timer : Nat) : Nat :=
  ((manager.timerArray timer).absExpTick &&& manager.hashTblLastIdx).toNat

/-- Allocate a unit from the head of the free list, if there is one. -/
def tmAllocTimer (manager : TimerManager) : TimerManager × Option Nat :=
  let node := manager.links.next .freeTimerList
  if node = .freeTimerList then
    (manager, none)
  else
    ({ manager with
        timerCount := manager.timerCount + 1
        links := (manager.links.remove node).insertHead .allocTimerList node },
      some (manager.data node))

/-- `tm_delete_timer`. -/
def tmDeleteTimer (manager : TimerManager) (timer : Nat) : TimerManager :=
  let manager :=
    manager.store timer { manager.timerArray timer with running := false }
  { manager with
    links := (manager.links.remove (.node timer)).insertHead .freeTimerList
      (.node timer)
    timerCount := manager.timerCount - 1 }

/-- `tm_insert_timer`. -/
def tmInsertTimer (manager : TimerManager) (timer : Nat) : TimerManager :=
  { manager with
    links := manager.links.insertTail
      (.activeTimerList (manager.hashIndex timer)) (.hashNode timer) }

/-- `tm_remove_timer`. -/
def tmRemoveTimer (manager : TimerManager) (timer : Nat) : TimerManager :=
  { manager with links := manager.links.remove (.hashNode timer) }

/-- Expire a timer whose message was sent or could not be sent. -/
def tmExpireTimer (manager : TimerManager) (timer : Nat) (sent : Bool) :
    TimerManager :=
  let manager := manager.tmRemoveTimer timer
  if sent = false then
    -- the message is sent again at the next tick
    let manager := manager.setAbsExpTick timer (manager.currentTick + 1)
    let manager := manager.tmInsertTimer timer
    { manager with timerMsgFailCount := manager.timerMsgFailCount + 1 }
  else if (manager.timerArray timer).cycle = 0 then
    manager.tmDeleteTimer timer
  else
    let manager := manager.setAbsExpTick timer
      (manager.currentTick + (manager.timerArray timer).duration)
    manager.tmInsertTimer timer

/-- Set up one unit of the zeroed timer array. -/
def initTimer (manager : TimerManager) (index : Nat) : TimerManager :=
  let unit := manager.timerArray index
  let message := { unit.tmExpMsg with
    timerId := UInt32.ofNat index &&& timerArrayIndexMask }
  { manager.store index { unit with tmExpMsg := message } with
    data := Function.update
      (Function.update manager.data (.node index) index) (.hashNode index) index
    links := manager.links.insertHead .freeTimerList (.node index) }

/-- Set the fields and the empty lists of the manager. -/
def initFields
    (manager : TimerManager) (maxTimerNum tickInterval : UInt32) :
    TimerManager :=
  { manager with
    tickInterval := tickInterval
    currentTick := 0
    timerCount := 0
    timerCountHistory := 0
    timerMsgFailCount := 0
    links := (manager.links.init .freeTimerList).init .allocTimerList
    timerArraySize := maxTimerNum }

/-- Zero the memory of the timer array. -/
def zeroTimerArray (manager : TimerManager) : TimerManager :=
  { manager with
    timerArray := fun timer =>
      if timer < manager.timerArraySize.toNat then .zero
      else manager.timerArray timer }

/-- The loop of `tm_init_timer_manager` over the units. -/
def initTimerArray (manager : TimerManager) : TimerManager :=
  (List.range manager.timerArraySize.toNat).foldl initTimer
    manager.zeroTimerArray

/-- The hash table has this size. -/
def setHashTableSize (manager : TimerManager) (hashTableSize : UInt32) :
    TimerManager :=
  { manager with hashTblLastIdx := hashTableSize - 1 }

/-- Make all buckets empty. -/
def initHashTable (manager : TimerManager) (hashTableSize : UInt32) :
    TimerManager :=
  { manager with
    links := (List.range hashTableSize.toNat).foldl
      (fun links index => links.init (.activeTimerList index)) manager.links }

/-- Initialize the manager in memory that holds anything; each of the two
allocations succeeds or not. -/
def tmInitTimerManager
    (manager : TimerManager)
    (maxTimerNum hashTableSize tickInterval : UInt32)
    (timerArrayAllocated hashTableAllocated : Bool) :
    TimerManager × TimerReturnValue :=
  if timerArrayMaxSize < maxTimerNum then
    (manager, .paramError)
  else if hashTableSize = 0 ∨ hashTableSize &&& (hashTableSize - 1) ≠ 0 then
    (manager, .paramError)
  else if tickInterval ≠ 1 ∧ tickInterval ≠ 10 then
    (manager, .paramError)
  else if timerArrayAllocated = false then
    (manager.initFields maxTimerNum tickInterval, .noResource)
  else
    let manager := (manager.initFields maxTimerNum tickInterval).initTimerArray
    let manager := manager.setHashTableSize hashTableSize
    if hashTableAllocated = false then
      (manager, .noResource)
    else
      (manager.initHashTable hashTableSize, .success)

/-- Start a timer; its ID, or why there is none. -/
def tmSetTimer
    (manager : TimerManager) (moduleId duration typeId : UInt32)
    (para : UInt64) (cycle : UInt8) :
    TimerManager × Except TimerReturnValue UInt32 :=
  match manager.tmAllocTimer with
  | (manager, none) => (manager, .error .noResource)
  | (manager, some timer) =>
      let history := manager.timerCountHistory + 1
      let unit := manager.timerArray timer
      let timerId := (unit.tmExpMsg.timerId &&& timerArrayIndexMask) |||
        (history <<< timerArrayIndexBitLen)
      let manager := { manager with timerCountHistory := history }.store timer
        { duration := duration
          absExpTick := manager.currentTick + duration
          running := true
          cycle := cycle
          moduleId := moduleId
          tmExpMsg := ⟨timerId, typeId, para⟩ }
      (manager.tmInsertTimer timer, .ok timerId)

/-- Query a timer.  Killing and restarting a timer make the same checks. -/
def tmIsSetTimer (manager : TimerManager) (timerId moduleId : UInt32) :
    TimerReturnValue :=
  if manager.timerArraySize ≤ timerId &&& timerArrayIndexMask then
    .paramError
  else
    let unit := manager.timerArray (timerIndex timerId)
    if unit.tmExpMsg.timerId ≠ timerId ∨ unit.running ≠ true then
      .notExist
    else if unit.moduleId ≠ moduleId then
      .notPermit
    else
      .success

/-- `tm_kill_timer`. -/
def tmKillTimer (manager : TimerManager) (timerId moduleId : UInt32) :
    TimerManager × TimerReturnValue :=
  let timer := timerIndex timerId
  match manager.tmIsSetTimer timerId moduleId with
  | .success =>
      ((manager.tmRemoveTimer timer).tmDeleteTimer timer, .success)
  | refused => (manager, refused)

/-- `tm_restart_timer`. -/
def tmRestartTimer (manager : TimerManager) (timerId moduleId : UInt32) :
    TimerManager × TimerReturnValue :=
  let timer := timerIndex timerId
  match manager.tmIsSetTimer timerId moduleId with
  | .success =>
      let manager := manager.tmRemoveTimer timer
      let manager := manager.setAbsExpTick timer
        (manager.currentTick + (manager.timerArray timer).duration)
      (manager.tmInsertTimer timer, .success)
  | refused => (manager, refused)

end TimerManager

/-- A timeout message offered to the mailbox of a module. -/
structure Timeout where
  moduleId : UInt32
  message : TimerExpireMsg
  sent : Bool
  deriving DecidableEq

namespace TimerManager

/-- The timeout message of a timer. -/
def timeout (manager : TimerManager) (timer : Nat) (sent : Bool) : Timeout :=
  ⟨(manager.timerArray timer).moduleId, (manager.timerArray timer).tmExpMsg,
    sent⟩

/-- Walk a bucket from a node on.  The next node is read before the timer of
this one expires. -/
def walkBucket (sends : Nat → Bool) (head : ListNode) (curTick : UInt32) :
    Nat → TimerManager → List Timeout → ListNode →
      Option (TimerManager × List Timeout)
  | 0, _, _, _ => none
  | fuel + 1, manager, timeouts, node =>
      if node = head then
        some (manager, timeouts)
      else
        let timer := manager.data node
        let next := manager.links.next node
        if (manager.timerArray timer).absExpTick = curTick then
          let sent := sends timeouts.length
          walkBucket sends head curTick fuel
            (manager.tmExpireTimer timer sent)
            (timeouts ++ [manager.timeout timer sent]) next
        else
          walkBucket sends head curTick fuel manager timeouts next

/-- A tick, in which the mailboxes accept the messages they are offered as given
for each of them in turn. -/
def tmTick (fuel : Nat) (sends : Nat → Bool) (manager : TimerManager) :
    Option (TimerManager × List Timeout) :=
  let manager := { manager with currentTick := manager.currentTick + 1 }
  let head := .activeTimerList
    (manager.currentTick &&& manager.hashTblLastIdx).toNat
  walkBucket sends head manager.currentTick fuel manager []
    (manager.links.next head)

/-- `tm_get_timer_count`. -/
def tmGetTimerCount (manager : TimerManager) : UInt32 :=
  manager.timerCount

/-- Count the nodes of a list from a node on, and note whether there are never
more than there are timers. -/
def countList (manager : TimerManager) (head : ListNode) :
    Nat → ListNode → UInt32 → Bool → Option (UInt32 × Bool)
  | 0, _, _, _ => none
  | fuel + 1, node, count, good =>
      if node = head then
        some (count, good)
      else
        countList manager head fuel (manager.links.next node) (count + 1)
          (good && !(manager.timerArraySize < count + 1))

/-- Count the nodes of a bucket on top of those counted before, and stop when
there are more than there are timers. -/
def countBucket (manager : TimerManager) (head : ListNode) :
    Nat → ListNode → UInt32 → Option (UInt32 × Bool)
  | 0, _, _ => none
  | fuel + 1, node, count =>
      if node = head then
        some (count, true)
      else if manager.timerArraySize < count + 1 then
        some (count + 1, false)
      else
        countBucket manager head fuel (manager.links.next node) (count + 1)

/-- The loop of the check over the hash table. -/
def countHashTable (manager : TimerManager) (fuel : Nat) :
    List Nat → UInt32 → Option (UInt32 × Bool)
  | [], count => some (count, true)
  | index :: indices, count =>
      let head := .activeTimerList index
      match manager.countBucket head fuel (manager.links.next head) count with
      | none => none
      | some (count, false) => some (count, false)
      | some (count, true) => manager.countHashTable fuel indices count

/-- The counts of the free list, of the allocated list and of the hash table,
and whether they agree. -/
def tmGetStatus (fuel : Nat) (manager : TimerManager) :
    Option (TimerReturnValue × UInt32 × UInt32 × UInt32) := do
  let (freeCount, freeGood) ← manager.countList .freeTimerList fuel
    (manager.links.next .freeTimerList) 0 true
  let (allocCount, allocGood) ← manager.countList .allocTimerList fuel
    (manager.links.next .allocTimerList) 0 true
  let (hashCount, hashGood) ← manager.countHashTable fuel
    (List.range (manager.hashTblLastIdx.toNat + 1)) 0
  let result :=
    if !freeGood || !allocGood || !hashGood ||
        freeCount + allocCount != manager.timerArraySize ||
        allocCount != hashCount then
      TimerReturnValue.fail
    else
      .success
  some (result, freeCount, allocCount, hashCount)

end TimerManager
end Timers
end Pilot2Cloud
