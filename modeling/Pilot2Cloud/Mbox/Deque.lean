import Mathlib.Data.Option.Basic
import Pilot2Cloud.Mbox.Mailbox

/-!
# The mailbox is a bounded deque

A mailbox holds the letters of a deque whose capacity is one less than the size
of its array, and every call answers as the deque does.
-/

namespace Pilot2Cloud
namespace Mbox

open Foundation

/-! ## The deque -/

/-- What is sent. -/
structure Letter where
  header : Header
  payload : List UInt8
  deriving DecidableEq

namespace Deque

/-- A put fails without memory, and waits or fails if there is no room. -/
def put (capacity : ℕ) (letters : List Letter) (payload : List UInt8)
    (mdata : Option ℕ) (waits locked : Bool)
    (place : List Letter → List Letter) :
    Option (MboxReply Letter × List Letter) :=
  if SHORT_PACK_SIZE < payload.length ∧ mdata = none ∨ locked = true then
    some (.sent false, letters)
  else if letters.length = capacity then
    if waits then none else some (.sent false, letters)
  else some (.sent true, place letters)

/-- A call of the interface, or nothing if it waits. -/
def perform (capacity : ℕ) (letters : List Letter) :
    MboxCall → Option (MboxReply Letter × List Letter)
  | .pfCopyMsg header data mdata =>
      put capacity letters data mdata true false (· ++ [⟨header, data⟩])
  | .pfCopyMsg2 header data data2 mdata =>
      put capacity letters (data ++ data2) mdata true false
        (· ++ [⟨header, data ++ data2⟩])
  | .pfCopyTryMsg header data mdata =>
      put capacity letters data mdata false false (· ++ [⟨header, data⟩])
  | .pfCopyUrgentMsg header data mdata =>
      put capacity letters data mdata true false (⟨header, data⟩ :: ·)
  | .pfCopyTryUrgentMsg header data mdata locked =>
      put capacity letters data mdata false locked (⟨header, data⟩ :: ·)
  | .pfGetMessage =>
      match letters with
      | [] => none
      | letter :: rest => some (.got (some letter), rest)
  | .pfTryGetMessage => some (.got letters.head?, letters.tail)
  | .free _ => some (.freed, letters)

/-- The letters after some calls. -/
def after (capacity : ℕ) (calls : List MboxCall) : Option (List Letter) :=
  calls.foldlM
    (fun letters call => (perform capacity letters call).map Prod.snd) []

end Deque

/-- The message is the letter, if its payload is read now. -/
structure IsLetter (state : MboxState) (message : MboxMessage)
    (letter : Letter) : Prop where
  header : message.header = letter.header
  length : message.ulLength = letter.payload.length
  payload : state.payload message = some letter.payload

/-- The reply is that of the deque. -/
inductive Answers (state : MboxState) :
    MboxReply MboxMessage → MboxReply Letter → Prop
  | sent (success : Bool) : Answers state (.sent success) (.sent success)
  | nothing : Answers state (.got none) (.got none)
  | got {message : MboxMessage} {letter : Letter}
      (isLetter : IsLetter state message letter) :
      Answers state (.got (some message)) (.got (some letter))
  | freed : Answers state .freed .freed

/-! ## What a structure holds -/

/-- A structure of the array holds a letter. -/
structure Carries (memory : ℕ → Option (List UInt8)) (index : ℕ)
    (message : MboxMessage) (letter : Letter) : Prop where
  header : message.header = letter.header
  length : message.ulLength = letter.payload.length
  short : letter.payload.length ≤ SHORT_PACK_SIZE →
    message.pucData = .slot index ∧
      message.shortpayload.take letter.payload.length = letter.payload
  long : SHORT_PACK_SIZE < letter.payload.length →
    ∃ address, message.pucData = .heap address ∧
      memory address = some letter.payload

/-- The memory of a message. -/
def MboxMessage.address (message : MboxMessage) : Option ℕ :=
  match message.pucData with
  | .heap address => some address
  | _ => none

/-- The memory of the messages in the queue and of those that were got. -/
def MboxState.addresses (state : MboxState) : List ℕ :=
  state.queue.contents.filterMap MboxMessage.address ++
    state.held.filterMap MboxMessage.address

/-- The queue holds the letters, and each message has its own memory. -/
structure Holds (capacity : ℕ) (state : MboxState) (letters : List Letter) :
    Prop where
  size : state.queue.ring.size = capacity + 1
  queue : state.queue.Represents (Carries state.memory) letters
  distinct : state.addresses.Nodup
  allocated : ∀ address ∈ state.addresses, state.memory address ≠ none

theorem copyTo_zero (target bytes : List UInt8) :
    copyTo target 0 bytes = bytes ++ target.drop bytes.length := by
  simp [copyTo]

@[simp] theorem take_copyTo (target bytes : List UInt8) :
    (copyTo target 0 bytes).take bytes.length = bytes := by
  rw [copyTo_zero, List.take_left]

/-- The two parts follow each other. -/
theorem take_copyTo_copyTo (target front back : List UInt8) :
    (copyTo (copyTo target 0 front) front.length back).take
      (front.length + back.length) = front ++ back := by
  rw [copyTo, take_copyTo, ← List.length_append, List.take_left]

section Fill

variable {memory : ℕ → Option (List UInt8)} {header : Header}
  {data data2 : List UInt8} {index : ℕ} {old : MboxMessage}

theorem carries_fillCopy (isShort : data.length ≤ SHORT_PACK_SIZE) :
    Carries memory index (fillCopy header data index old) ⟨header, data⟩ where
  header := rfl
  length := rfl
  short := fun _ => ⟨rfl, take_copyTo _ _⟩
  long := fun isLong => absurd isShort (Nat.not_le_of_gt isLong)

/-- A short message of two parts carries both parts. -/
theorem carries_fillCopy2
    (isShort : (data ++ data2).length ≤ SHORT_PACK_SIZE) :
    Carries memory index (fillCopy2 header data data2 index old)
      ⟨header, data ++ data2⟩ where
  header := rfl
  length := List.length_append.symm
  short := by
    intro _
    refine ⟨rfl, ?_⟩
    rw [List.length_append]
    exact take_copyTo_copyTo _ _ _
  long := fun isLong => absurd isShort (Nat.not_le_of_gt isLong)

/-- A long message carries the payload at its pointer. -/
theorem carries_fillPointer {address : ℕ}
    (isLong : SHORT_PACK_SIZE < data.length) :
    Carries (Function.update memory address (some data)) index
      (fillPointer header (.heap address) data.length index old)
      ⟨header, data⟩ where
  header := rfl
  length := rfl
  short := fun isShort => absurd isShort (Nat.not_le_of_gt isLong)
  long := fun _ => ⟨address, rfl, Function.update_self _ _ _⟩

end Fill

/-! ## Putting messages -/

/-- A put places a letter in the queue as in a list of letters. -/
def Places (fill : Fill) (letter : Letter) (place : MboxQueue → MboxQueue)
    (placed : List Letter → List Letter) : Prop :=
  ∀ queue : MboxQueue, ¬queue.ring.Full → ∃ index,
    (∀ relation letters, queue.Represents relation letters →
      relation index (fill index (queue.stored index)) letter →
        (place queue).Represents relation (placed letters)) ∧
    (place queue).contents.Perm
      (fill index (queue.stored index) :: queue.contents) ∧
    (place queue).ring.size = queue.ring.size

/-- Putting at the tail places the letter last. -/
theorem places_putTail (fill : Fill) (letter : Letter) :
    Places fill letter (MboxQueue.putTail fill) (· ++ [letter]) := by
  intro queue notFull
  refine ⟨queue.ring.tail,
    fun relation letters represents related => represents.put notFull related,
    ?_⟩
  unfold MboxQueue.putTail
  dsimp only
  rw [StoredRing.contents_put notFull]
  exact ⟨List.perm_append_singleton _ _, rfl⟩

/-- Putting at the head places the letter first. -/
theorem places_putHead (fill : Fill) (letter : Letter) :
    Places fill letter (MboxQueue.putHead fill) (letter :: ·) := by
  intro queue notFull
  refine ⟨queue.ring.pushFront.head,
    fun relation letters represents related =>
      represents.putFront notFull related, ?_⟩
  unfold MboxQueue.putHead
  dsimp only
  rw [StoredRing.contents_putFront notFull]
  exact ⟨.refl _, rfl⟩

/-- A put that may wait or be locked out. -/
def putAs (waits locked : Bool) (place : MboxQueue → MboxQueue)
    (queue : MboxQueue) : MboxQueue.PutResult :=
  if locked then some (false, queue)
  else if queue.ring.Full then if waits then none else some (false, queue)
  else some (true, place queue)

section Put

variable {capacity : ℕ} {state : MboxState} {letters : List Letter} {fill : Fill}
  {letter : Letter} {place : MboxQueue → MboxQueue}
  {placed : List Letter → List Letter}

/-- A letter without memory of its own is placed. -/
theorem Holds.place_short (holds : Holds capacity state letters)
    (places : Places fill letter place placed)
    (carries : ∀ memory index old, Carries memory index (fill index old) letter)
    (isShort : letter.payload.length ≤ SHORT_PACK_SIZE)
    (notFull : ¬state.queue.ring.Full) :
    Holds capacity { state with queue := place state.queue }
      (placed letters) := by
  obtain ⟨index, represents, perm, size⟩ := places state.queue notFull
  have noAddress : (fill index (state.queue.stored index)).address = none := by
    unfold MboxMessage.address
    rw [((carries state.memory index _).short isShort).1]
  have same : ({ state with queue := place state.queue } :
      MboxState).addresses.Perm state.addresses := by
    unfold MboxState.addresses
    refine List.Perm.append_right _ ((perm.filterMap _).trans ?_)
    rw [List.filterMap_cons_none noAddress]
  refine ⟨size.trans holds.size, represents _ _ holds.queue (carries _ _ _),
    same.nodup_iff.mpr holds.distinct, ?_⟩
  intro address isAddress
  exact holds.allocated address (same.mem_iff.mp isAddress)

/-- A letter with memory of its own is placed. -/
theorem Holds.place_long (holds : Holds capacity state letters) {address : ℕ}
    (places : Places fill letter place placed)
    (carries : ∀ index old, Carries
      (Function.update state.memory address (some letter.payload)) index
      (fill index old) letter)
    (hasAddress : ∀ index old, (fill index old).address = some address)
    (fresh : state.memory address = none)
    (notFull : ¬state.queue.ring.Full) :
    Holds capacity ⟨place state.queue,
      Function.update state.memory address (some letter.payload), state.held⟩
      (placed letters) := by
  obtain ⟨index, represents, perm, size⟩ := places state.queue notFull
  have isNew : address ∉ state.addresses :=
    fun isAddress => holds.allocated address isAddress fresh
  have same : (⟨place state.queue,
      Function.update state.memory address (some letter.payload),
      state.held⟩ : MboxState).addresses.Perm (address :: state.addresses) := by
    unfold MboxState.addresses
    rw [← List.cons_append]
    refine List.Perm.append_right _ ((perm.filterMap _).trans ?_)
    rw [List.filterMap_cons_some (hasAddress index _)]
  have old : state.queue.Represents
      (Carries (Function.update state.memory address (some letter.payload)))
      letters := by
    apply holds.queue.mono
    intro slot _ item carried
    refine ⟨carried.header, carried.length, carried.short, ?_⟩
    intro isLong
    obtain ⟨other, isOther, isStored⟩ := carried.long isLong
    refine ⟨other, isOther, ?_⟩
    rw [Function.update_of_ne]
    · exact isStored
    · rintro rfl
      rw [fresh] at isStored
      cases isStored
  refine ⟨size.trans holds.size, represents _ _ old (carries _ _), ?_, ?_⟩
  · rw [same.nodup_iff, List.nodup_cons]
    exact ⟨isNew, holds.distinct⟩
  · intro other isAddress
    change Function.update state.memory address _ other ≠ none
    by_cases isSame : other = address
    · rw [isSame, Function.update_self]
      exact Option.some_ne_none _
    · rw [Function.update_of_ne isSame]
      exact holds.allocated other
        ((List.mem_cons.mp (same.mem_iff.mp isAddress)).resolve_left isSame)

/-- A reply and the state after it are those of the deque. -/
def Agrees (capacity : ℕ) (concrete : MboxReply MboxMessage × MboxState)
    (deque : MboxReply Letter × List Letter) : Prop :=
  Answers concrete.2 concrete.1 deque.1 ∧ Holds capacity concrete.2 deque.2

@[simp] theorem putAs_locked (waits : Bool) (queue : MboxQueue) :
    putAs waits true place queue = some (false, queue) :=
  rfl

theorem putAs_full (waits : Bool) {queue : MboxQueue}
    (full : queue.ring.Full) :
    putAs waits false place queue =
      if waits then none else some (false, queue) := by
  unfold putAs
  rw [if_neg Bool.false_ne_true, if_pos full]

theorem putAs_room (waits : Bool) {queue : MboxQueue}
    (notFull : ¬queue.ring.Full) :
    putAs waits false place queue = some (true, place queue) := by
  unfold putAs
  rw [if_neg Bool.false_ne_true, if_neg notFull]

/-- What the copying functions do with a short payload. -/
theorem copyMessage_short {mdata : Option ℕ}
    {long : Pointer → ℕ → MboxQueue.PutResult} {short : MboxQueue.PutResult}
    {data : List UInt8} (isShort : data.length ≤ SHORT_PACK_SIZE) :
    state.copyMessage data mdata long short =
      short.map fun result =>
        (result.1, { state with queue := result.2 }) := by
  unfold MboxState.copyMessage
  rw [if_neg (Nat.not_lt.mpr isShort)]

/-- What the copying functions do with a long payload and memory for it. -/
theorem copyMessage_long {address : ℕ}
    {long : Pointer → ℕ → MboxQueue.PutResult} {short : MboxQueue.PutResult}
    {data : List UInt8} (isLong : SHORT_PACK_SIZE < data.length) :
    state.copyMessage data (some address) long short =
      (long (.heap address) data.length).map fun result =>
        (result.1, { state with
          queue := result.2
          memory :=
            if result.1 then Function.update state.memory address (some data)
            else state.memory }) := by
  unfold MboxState.copyMessage
  rw [if_pos isLong]

theorem copyMessage_none {long : Pointer → ℕ → MboxQueue.PutResult}
    {short : MboxQueue.PutResult} {data : List UInt8}
    (isLong : SHORT_PACK_SIZE < data.length) :
    state.copyMessage data none long short = some (false, state) := by
  unfold MboxState.copyMessage
  rw [if_pos isLong]

namespace Deque

variable {payload : List UInt8} {mdata : Option ℕ}
  {waits locked : Bool}

/-- A call without memory, or without the lock, puts nothing. -/
theorem put_refused
    (refused : SHORT_PACK_SIZE < payload.length ∧ mdata = none ∨
      locked = true) :
    put capacity letters payload mdata waits locked placed =
      some (.sent false, letters) := by
  unfold put
  rw [if_pos refused]

/-- A call at a full box puts nothing. -/
theorem put_full
    (accepted : ¬(SHORT_PACK_SIZE < payload.length ∧ mdata = none))
    (full : letters.length = capacity) :
    put capacity letters payload mdata waits false placed =
      if waits then none else some (.sent false, letters) := by
  unfold put
  rw [if_neg (by simpa using accepted), if_pos full]

/-- A call at a box with room puts its letter. -/
theorem put_room
    (accepted : ¬(SHORT_PACK_SIZE < payload.length ∧ mdata = none))
    (room : letters.length ≠ capacity) :
    put capacity letters payload mdata waits false placed =
      some (.sent true, placed letters) := by
  unfold put
  rw [if_neg (by simpa using accepted), if_neg room]

end Deque

/-- The mailbox has one place less than its array. -/
theorem Holds.full_iff (holds : Holds capacity state letters) :
    state.queue.ring.Full ↔ letters.length = capacity := by
  rw [IndexRing.full_iff, holds.size, holds.queue.length_eq]
  exact Nat.add_right_cancel_iff

/-- What the copying functions do is what the deque does. -/
theorem Holds.copyMessage (holds : Holds capacity state letters)
    (letter : Letter) {mdata : Option ℕ} (waits locked : Bool)
    (fresh : ∀ address, mdata = some address → state.memory address = none)
    {long : Pointer → ℕ → MboxQueue → MboxQueue}
    {short : MboxQueue → MboxQueue}
    (placesLong : ∀ pData ulLength, Places
      (fillPointer letter.header pData ulLength) letter (long pData ulLength)
      placed)
    (placesShort : Places fill letter short placed)
    (carries : letter.payload.length ≤ SHORT_PACK_SIZE →
      ∀ memory index old, Carries memory index (fill index old) letter) :
    Option.Rel (Agrees capacity)
      (MboxState.sent (state.copyMessage letter.payload mdata
        (fun pData ulLength =>
          putAs waits locked (long pData ulLength) state.queue)
        (putAs waits locked short state.queue)))
      (Deque.put capacity letters letter.payload mdata waits locked placed) := by
  have isFull := holds.full_iff
  have unchanged : Option.Rel (Agrees capacity) (some (.sent false, state))
      (some (.sent false, letters)) := .some ⟨.sent false, holds⟩
  rcases Nat.lt_or_ge SHORT_PACK_SIZE letter.payload.length with
    isLong | isShort
  · cases mdata with
    | none =>
        rw [copyMessage_none isLong, Deque.put_refused (.inl ⟨isLong, rfl⟩)]
        exact unchanged
    | some address =>
        have accepted : ¬(SHORT_PACK_SIZE < letter.payload.length ∧
            some address = none) := fun refused => Option.some_ne_none _ refused.2
        rw [copyMessage_long isLong]
        cases locked with
        | true =>
            rw [putAs_locked, Deque.put_refused (.inr rfl)]
            exact unchanged
        | false =>
            by_cases full : state.queue.ring.Full
            · rw [putAs_full waits full,
                Deque.put_full accepted (isFull.mp full)]
              cases waits with
              | true => exact .none
              | false => exact unchanged
            · rw [putAs_room waits full,
                Deque.put_room accepted (mt isFull.mpr full)]
              refine .some ⟨.sent true, ?_⟩
              exact holds.place_long (placesLong _ _)
                (fun index old => carries_fillPointer isLong)
                (fun _ _ => rfl) (fresh address rfl) full
  · have accepted : ¬(SHORT_PACK_SIZE < letter.payload.length ∧
        mdata = none) := fun refused => Nat.not_lt.mpr isShort refused.1
    rw [copyMessage_short isShort]
    cases locked with
    | true =>
        rw [putAs_locked, Deque.put_refused (.inr rfl)]
        exact unchanged
    | false =>
        by_cases full : state.queue.ring.Full
        · rw [putAs_full waits full, Deque.put_full accepted (isFull.mp full)]
          cases waits with
          | true => exact .none
          | false => exact unchanged
        · rw [putAs_room waits full,
            Deque.put_room accepted (mt isFull.mpr full)]
          refine .some ⟨.sent true, ?_⟩
          exact holds.place_short placesShort (carries isShort) isShort full

end Put

/-! ## Getting messages -/

section Get

variable {capacity : ℕ} {state : MboxState} {letters : List Letter}

/-- The first message is got. -/
theorem Holds.pop (holds : Holds capacity state letters)
    (notEmpty : state.queue.ring.tail ≠ state.queue.ring.head)
    {message : MboxMessage}
    (same : message.address = state.queue.first.address) :
    Holds capacity ⟨state.queue.rest, state.memory, message :: state.held⟩
      letters.tail := by
  obtain ⟨letter, rest, rfl, -, represents⟩ :=
    holds.queue.exists_rest notEmpty
  have perm : (⟨state.queue.rest, state.memory, message :: state.held⟩ :
      MboxState).addresses.Perm state.addresses := by
    unfold MboxState.addresses
    rw [StoredRing.contents_eq_cons notEmpty, List.filterMap_cons,
      List.filterMap_cons, same]
    cases state.queue.first.address with
    | none => exact .refl _
    | some address => exact List.perm_middle
  refine ⟨holds.size, represents, perm.nodup_iff.mpr holds.distinct, ?_⟩
  intro address isAddress
  exact holds.allocated address (perm.mem_iff.mp isAddress)

/-- The first letter is in the first message. -/
theorem Holds.exists_first (holds : Holds capacity state letters)
    (notEmpty : state.queue.ring.tail ≠ state.queue.ring.head) :
    ∃ letter, letters = letter :: letters.tail ∧
      Carries state.memory state.queue.ring.head state.queue.first letter := by
  obtain ⟨letter, rest, rfl, carried, -⟩ := holds.queue.exists_rest notEmpty
  exact ⟨letter, rfl, carried⟩

variable {memory : ℕ → Option (List UInt8)} {index : ℕ}
  {message : MboxMessage} {letter : Letter}

/-- A short payload goes with the message. -/
theorem Carries.restore_short (carries : Carries memory index message letter)
    (notEmpty : letter.payload ≠ [])
    (isShort : letter.payload.length ≤ SHORT_PACK_SIZE) :
    message.restore = { message with pucData := .own } := by
  unfold MboxMessage.restore
  rw [carries.length, if_pos]
  exact ⟨mt List.length_eq_zero_iff.mp notEmpty, isShort⟩

/-- Other payloads stay where they are. -/
theorem Carries.restore_eq_self
    (carries : Carries memory index message letter)
    (notShort : ¬(letter.payload ≠ [] ∧
      letter.payload.length ≤ SHORT_PACK_SIZE)) :
    message.restore = message := by
  unfold MboxMessage.restore
  rw [carries.length, if_neg]
  rintro ⟨notEmpty, isShort⟩
  exact notShort ⟨mt List.length_eq_zero_iff.mpr notEmpty, isShort⟩

theorem Carries.address_restore (carries : Carries memory index message letter) :
    message.restore.address = message.address := by
  by_cases short : letter.payload ≠ [] ∧
      letter.payload.length ≤ SHORT_PACK_SIZE
  · have noAddress : message.address = none := by
      unfold MboxMessage.address
      rw [(carries.short short.2).1]
    rw [carries.restore_short short.1 short.2, noAddress]
    rfl
  · rw [carries.restore_eq_self short]

/-- The payload of the structure in the array is that of the letter. -/
theorem Carries.isLetter
    (carries : Carries state.memory index (state.queue.stored index) letter) :
    IsLetter state (state.queue.stored index) letter := by
  refine ⟨carries.header, carries.length, ?_⟩
  unfold MboxState.payload
  rcases Nat.lt_or_ge SHORT_PACK_SIZE letter.payload.length with
    isLong | isShort
  · obtain ⟨address, isAddress, isStored⟩ := carries.long isLong
    rw [isAddress]
    dsimp only
    rw [isStored, carries.length, Option.map_some, List.take_length]
  · obtain ⟨isSlot, isPayload⟩ := carries.short isShort
    rw [isSlot, carries.length]
    exact congrArg some isPayload

theorem Carries.isLetter_restore
    (carries : Carries state.memory index (state.queue.stored index) letter) :
    IsLetter state (state.queue.stored index).restore letter := by
  by_cases short : letter.payload ≠ [] ∧
      letter.payload.length ≤ SHORT_PACK_SIZE
  · rw [carries.restore_short short.1 short.2]
    refine ⟨carries.header, carries.length, ?_⟩
    change some (List.take (state.queue.stored index).ulLength _) = _
    rw [carries.length]
    exact congrArg some (carries.short short.2).2
  · rw [carries.restore_eq_self short]
    exact carries.isLetter

/-- What is got is still in the array. -/
theorem IsLetter.rest (isLetter : IsLetter state message letter)
    (held : List MboxMessage) :
    IsLetter ⟨state.queue.rest, state.memory, held⟩ message letter :=
  ⟨isLetter.header, isLetter.length, isLetter.payload⟩

theorem perform_pfGetMessage_empty
    (isEmpty : state.queue.ring.tail = state.queue.ring.head) :
    state.perform .pfGetMessage = none := by
  unfold MboxState.perform MboxState.pfGetMessage MboxQueue.get
  rw [if_pos isEmpty]
  rfl

theorem perform_pfGetMessage
    (notEmpty : state.queue.ring.tail ≠ state.queue.ring.head) :
    state.perform .pfGetMessage =
      some (.got (some state.queue.first.restore),
        ⟨state.queue.rest, state.memory,
          state.queue.first.restore :: state.held⟩) := by
  unfold MboxState.perform MboxState.pfGetMessage MboxQueue.get
  rw [if_neg notEmpty]
  rfl

theorem perform_pfTryGetMessage_empty
    (isEmpty : state.queue.ring.tail = state.queue.ring.head) :
    state.perform .pfTryGetMessage = some (.got none, state) := by
  unfold MboxState.perform MboxState.pfTryGetMessage MboxQueue.tryGet
  rw [if_pos isEmpty]
  rfl

theorem perform_pfTryGetMessage
    (notEmpty : state.queue.ring.tail ≠ state.queue.ring.head) :
    state.perform .pfTryGetMessage =
      some (.got (some state.queue.first),
        ⟨state.queue.rest, state.memory,
          state.queue.first :: state.held⟩) := by
  unfold MboxState.perform MboxState.pfTryGetMessage MboxQueue.tryGet
  rw [if_neg notEmpty]
  rfl

end Get

/-! ## Freeing messages -/

section Free

variable {capacity : ℕ} {state : MboxState} {letters : List Letter}
  {message : MboxMessage}

/-- The memory of the messages before one of them is freed. -/
theorem addresses_free (isHeld : message ∈ state.held) :
    state.addresses.Perm
      (message.address.toList ++ (state.free message).addresses) := by
  have held : (state.held.filterMap MboxMessage.address).Perm
      (message.address.toList ++
        (state.held.erase message).filterMap MboxMessage.address) := by
    refine ((List.perm_cons_erase isHeld).filterMap _).trans ?_
    rw [List.filterMap_cons]
    cases message.address with
    | none => exact .refl _
    | some address => exact .refl _
  unfold MboxState.addresses
  refine (held.append_left _).trans ?_
  rw [← List.append_assoc, ← List.append_assoc]
  exact List.perm_append_comm.append_right _

/-- Only the memory of the message is freed. -/
theorem memory_free {address : ℕ} (other : message.address ≠ some address) :
    (state.free message).memory address = state.memory address := by
  unfold MboxMessage.address at other
  unfold MboxState.free
  dsimp only
  cases pointer : message.pucData with
  | slot index => rfl
  | own => rfl
  | heap freed =>
      rw [pointer] at other
      dsimp only
      split
      · apply Function.update_of_ne
        rintro rfl
        exact other rfl
      · rfl

/-- Freeing a message keeps the letters of the box. -/
theorem Holds.free (holds : Holds capacity state letters)
    (isHeld : message ∈ state.held) :
    Holds capacity (state.free message) letters := by
  have perm := addresses_free isHeld
  have distinct := perm.nodup_iff.mp holds.distinct
  have unchanged : ∀ address ∈ (state.free message).addresses,
      (state.free message).memory address = state.memory address := by
    intro address isAddress
    apply memory_free
    intro isFreed
    exact (List.nodup_append.mp distinct).2.2 address
      (Option.mem_toList.mpr isFreed) address isAddress rfl
  refine ⟨holds.size, ?_, (List.nodup_append.mp distinct).2.1, ?_⟩
  · apply holds.queue.mono
    intro index isSlot letter carries
    refine ⟨carries.header, carries.length, carries.short, ?_⟩
    intro isLong
    obtain ⟨address, isAddress, isStored⟩ := carries.long isLong
    refine ⟨address, isAddress, ?_⟩
    rw [unchanged address, isStored]
    apply List.mem_append_left
    refine List.mem_filterMap.mpr
      ⟨_, List.mem_map.mpr ⟨index, isSlot, rfl⟩, ?_⟩
    change MboxMessage.address (state.queue.stored index) = some address
    unfold MboxMessage.address
    rw [isAddress]
  · intro address isAddress
    rw [unchanged address isAddress]
    exact holds.allocated address
      (perm.mem_iff.mpr (List.mem_append_right _ isAddress))

end Free

/-! ## Calls -/

/-- A call does to the mailbox what it does to the deque. -/
theorem Holds.perform {capacity : ℕ} {state : MboxState}
    {letters : List Letter} {call : MboxCall}
    (holds : Holds capacity state letters) (allowed : call.Allowed state) :
    Option.Rel (Agrees capacity) (state.perform call)
      (Deque.perform capacity letters call) := by
  cases call with
  | pfCopyMsg header data mdata =>
      exact holds.copyMessage ⟨header, data⟩ true false allowed.fresh
        (fun _ _ => places_putTail _ _) (places_putTail (fillCopy header data) _)
        (fun isShort _ _ _ => carries_fillCopy isShort)
  | pfCopyMsg2 header data data2 mdata =>
      exact holds.copyMessage ⟨header, data ++ data2⟩ true false allowed.fresh
        (fun _ _ => places_putTail _ _)
        (places_putTail (fillCopy2 header data data2) _)
        (fun isShort _ _ _ => carries_fillCopy2 isShort)
  | pfCopyTryMsg header data mdata =>
      exact holds.copyMessage ⟨header, data⟩ false false allowed.fresh
        (fun _ _ => places_putTail _ _) (places_putTail (fillCopy header data) _)
        (fun isShort _ _ _ => carries_fillCopy isShort)
  | pfCopyUrgentMsg header data mdata =>
      exact holds.copyMessage ⟨header, data⟩ true false allowed.fresh
        (fun _ _ => places_putHead _ _) (places_putHead (fillCopy header data) _)
        (fun isShort _ _ _ => carries_fillCopy isShort)
  | pfCopyTryUrgentMsg header data mdata locked =>
      exact holds.copyMessage ⟨header, data⟩ false locked allowed.fresh
        (fun _ _ => places_putHead _ _) (places_putHead (fillCopy header data) _)
        (fun isShort _ _ _ => carries_fillCopy isShort)
  | pfGetMessage =>
      by_cases isEmpty : state.queue.ring.tail = state.queue.ring.head
      · rw [perform_pfGetMessage_empty isEmpty,
          holds.queue.eq_nil_iff.mpr isEmpty]
        exact .none
      · obtain ⟨letter, shape, carries⟩ := holds.exists_first isEmpty
        rw [perform_pfGetMessage isEmpty, shape]
        exact .some ⟨.got (carries.isLetter_restore.rest _),
          holds.pop isEmpty carries.address_restore⟩
  | pfTryGetMessage =>
      by_cases isEmpty : state.queue.ring.tail = state.queue.ring.head
      · have noLetters := holds.queue.eq_nil_iff.mpr isEmpty
        subst noLetters
        rw [perform_pfTryGetMessage_empty isEmpty]
        exact .some ⟨.nothing, holds⟩
      · obtain ⟨letter, shape, carries⟩ := holds.exists_first isEmpty
        rw [perform_pfTryGetMessage isEmpty, shape]
        exact .some ⟨.got (carries.isLetter.rest _), holds.pop isEmpty rfl⟩
  | free message =>
      exact .some ⟨.freed, holds.free (allowed.holds message rfl)⟩

/-- An empty mailbox in memory that has not been set. -/
theorem holds_initial {m_size : ℕ} (positive : 0 < m_size)
    (uninitialized : ℕ → MboxMessage) :
    Holds (m_size - 1) (.initial m_size positive uninitialized) [] where
  size := (Nat.sub_add_cancel positive).symm
  queue := by
    unfold StoredRing.Represents
    change List.Forall₂ _ (IndexRing.empty m_size positive).slots []
    rw [IndexRing.slots_empty]
    exact .nil
  distinct := by
    unfold MboxState.addresses StoredRing.contents
    change (List.filterMap _
      (List.map _ (IndexRing.empty m_size positive).slots) ++ []).Nodup
    rw [IndexRing.slots_empty]
    exact List.nodup_nil
  allocated := by
    unfold MboxState.addresses StoredRing.contents
    change ∀ address ∈ List.filterMap _
      (List.map _ (IndexRing.empty m_size positive).slots) ++ [], _
    rw [IndexRing.slots_empty]
    exact fun _ isAddress => absurd isAddress List.not_mem_nil

/-- A step of the mailbox is one of the deque. -/
theorem Holds.step {capacity : ℕ} {before after : MboxState}
    {letters : List Letter} {label : MboxCall × MboxReply MboxMessage}
    (holds : Holds capacity before letters)
    (step : MboxTransition before label after) :
    ∃ reply next,
      Deque.perform capacity letters label.1 = some (reply, next) ∧
        Answers after label.2 reply ∧ Holds capacity after next := by
  obtain ⟨allowed, performed⟩ := step
  have agrees := holds.perform allowed
  rw [performed] at agrees
  generalize Deque.perform capacity letters label.1 = result at agrees
  cases agrees with
  | @some _ deque agrees => exact ⟨deque.1, deque.2, rfl, agrees.1, agrees.2⟩

/-- The mailbox holds what the deque holds after the same calls. -/
def Mirrors (m_size : ℕ) (labels : List (MboxCall × MboxReply MboxMessage))
    (state : MboxState) : Prop :=
  ∃ letters, Deque.after (m_size - 1) (labels.map Prod.fst) = some letters ∧
    Holds (m_size - 1) state letters

/-- One call keeps the box and the deque in step. -/
theorem Mirrors.step {m_size : ℕ}
    {labels : List (MboxCall × MboxReply MboxMessage)}
    {label : MboxCall × MboxReply MboxMessage} {before after : MboxState}
    (mirrors : Mirrors m_size labels before)
    (step : MboxTransition before label after) :
    Mirrors m_size (labels ++ [label]) after := by
  obtain ⟨letters, reached, holds⟩ := mirrors
  obtain ⟨reply, rest, performed, -, holdsAfter⟩ := holds.step step
  refine ⟨rest, ?_, holdsAfter⟩
  unfold Deque.after at reached ⊢
  rw [List.map_append, List.foldlM_append, reached]
  change ((Deque.perform (m_size - 1) letters label.1).map Prod.snd).bind
    some = some rest
  rw [performed]
  rfl

/-- Every run of the mailbox is one of the deque. -/
theorem mirrors_of_run {m_size : ℕ} {positive : 0 < m_size}
    {uninitialized : ℕ → MboxMessage}
    {labels : List (MboxCall × MboxReply MboxMessage)} {state : MboxState}
    (run : Run MboxTransition (.initial m_size positive uninitialized) labels
      state) :
    Mirrors m_size labels state :=
  run.history (fun _ _ _ _ _ mirrors step => mirrors.step step)
    ⟨[], rfl, holds_initial positive uninitialized⟩

end Mbox
end Pilot2Cloud
