import Pilot2Cloud.Mbox.Deque

/-!
# The payloads of messages that were got

A message that was got keeps its payload until it is freed, unless it is a short
one that `pf_try_get_message` got.
-/

namespace Pilot2Cloud
namespace Mbox

open Foundation

/-- The payload of the message can be read until the message is freed. -/
def Stays (state : MboxState) (message : MboxMessage)
    (payload : List UInt8) : Prop :=
  ∀ labels final, Run MboxTransition state labels final →
    (∀ label ∈ labels, label.1 ≠ .free message) →
    final.payload message = some payload

/-- Where the payload of a message that was got is out of reach of the
senders. -/
inductive Safe (memory : ℕ → Option (List UInt8)) (message : MboxMessage) :
    List UInt8 → Prop
  | empty {index : ℕ} (points : message.pucData = .slot index) :
      Safe memory message []
  | own {payload : List UInt8} (points : message.pucData = .own)
      (isPayload : message.shortpayload.take payload.length = payload) :
      Safe memory message payload
  | heap {payload : List UInt8} {address : ℕ}
      (points : message.pucData = .heap address)
      (isStored : memory address = some payload) :
      Safe memory message payload

/-- A message that was got keeps a payload. -/
structure Keeps (state : MboxState) (message : MboxMessage)
    (payload : List UInt8) : Prop where
  isHeld : message ∈ state.held
  length : message.ulLength = payload.length
  safe : Safe state.memory message payload

variable {capacity : ℕ} {state before after : MboxState}
  {letters : List Letter} {letter : Letter} {message : MboxMessage}
  {payload : List UInt8} {label : MboxCall × MboxReply MboxMessage}

theorem Keeps.payload_eq (keeps : Keeps state message payload) :
    state.payload message = some payload := by
  unfold MboxState.payload
  rw [keeps.length]
  cases keeps.safe with
  | empty points =>
      rw [points]
      rfl
  | own points isPayload =>
      rw [points]
      exact congrArg some isPayload
  | heap points isStored =>
      rw [points]
      dsimp only
      rw [isStored, Option.map_some, List.take_length]

/-! ## What senders leave alone -/

theorem exists_of_sent {result : Option (Bool × MboxState)}
    {reply : MboxReply MboxMessage}
    (sent : MboxState.sent result = some (reply, after)) :
    ∃ success, result = some (success, after) := by
  unfold MboxState.sent at sent
  obtain ⟨found, isResult, same⟩ := Option.map_eq_some_iff.mp sent
  obtain ⟨success, final⟩ := found
  obtain ⟨-, rfl⟩ := Prod.mk.inj same
  exact ⟨success, isResult⟩

/-- A put changes only memory that was not in use. -/
theorem frame_copyMessage {data : List UInt8} {mdata : Option ℕ}
    {long : Pointer → ℕ → MboxQueue.PutResult} {short : MboxQueue.PutResult}
    {reply : MboxReply MboxMessage}
    (sent : MboxState.sent (before.copyMessage data mdata long short) =
      some (reply, after)) :
    after.held = before.held ∧
      ∀ address, mdata ≠ some address →
        after.memory address = before.memory address := by
  obtain ⟨success, copied⟩ := exists_of_sent sent
  rcases Nat.lt_or_ge SHORT_PACK_SIZE data.length with isLong | isShort
  · cases mdata with
    | none =>
        rw [copyMessage_none isLong] at copied
        obtain ⟨-, rfl⟩ := Prod.mk.inj (Option.some.inj copied)
        exact ⟨rfl, fun _ _ => rfl⟩
    | some target =>
        rw [copyMessage_long isLong] at copied
        obtain ⟨result, -, same⟩ := Option.map_eq_some_iff.mp copied
        obtain ⟨-, rfl⟩ := Prod.mk.inj same
        refine ⟨rfl, ?_⟩
        intro address other
        dsimp only
        split
        · apply Function.update_of_ne
          rintro rfl
          exact other rfl
        · rfl
  · rw [copyMessage_short isShort] at copied
    obtain ⟨result, -, same⟩ := Option.map_eq_some_iff.mp copied
    obtain ⟨-, rfl⟩ := Prod.mk.inj same
    exact ⟨rfl, fun _ _ => rfl⟩

/-- Two messages that are held do not share memory. -/
theorem Holds.address_ne (holds : Holds capacity state letters)
    {other : MboxMessage} {address : ℕ} (isHeld : message ∈ state.held)
    (otherHeld : other ∈ state.held) (different : message ≠ other)
    (isAddress : message.address = some address) :
    other.address ≠ some address := by
  intro isOther
  have distinct := (addresses_free otherHeld).nodup_iff.mp holds.distinct
  refine (List.nodup_append.mp distinct).2.2 address
    (Option.mem_toList.mpr isOther) address ?_ rfl
  apply List.mem_append_right
  exact List.mem_filterMap.mpr
    ⟨message, (List.mem_erase_of_ne different).mpr isHeld, isAddress⟩

/-- A step leaves a message that is held and its memory alone. -/
theorem Holds.frame (holds : Holds capacity before letters)
    (step : MboxTransition before label after) (isHeld : message ∈ before.held)
    (notFreed : label.1 ≠ .free message) :
    message ∈ after.held ∧
      ∀ address, message.address = some address →
        after.memory address = before.memory address := by
  obtain ⟨call, reply⟩ := label
  obtain ⟨allowed, performed⟩ := step
  have ofFrame : ∀ mdata, call.mdata = mdata → (after.held = before.held ∧
      ∀ address, mdata ≠ some address →
        after.memory address = before.memory address) →
      message ∈ after.held ∧ ∀ address, message.address = some address →
        after.memory address = before.memory address := by
    rintro mdata rfl ⟨sameHeld, sameMemory⟩
    refine ⟨sameHeld ▸ isHeld, ?_⟩
    intro address isAddress
    apply sameMemory
    intro isFresh
    refine holds.allocated address ?_ (allowed.fresh address isFresh)
    exact List.mem_append_right _
      (List.mem_filterMap.mpr ⟨message, isHeld, isAddress⟩)
  cases call with
  | pfCopyMsg header data mdata =>
      exact ofFrame mdata rfl (frame_copyMessage performed)
  | pfCopyMsg2 header data data2 mdata =>
      exact ofFrame mdata rfl (frame_copyMessage performed)
  | pfCopyTryMsg header data mdata =>
      exact ofFrame mdata rfl (frame_copyMessage performed)
  | pfCopyUrgentMsg header data mdata =>
      exact ofFrame mdata rfl (frame_copyMessage performed)
  | pfCopyTryUrgentMsg header data mdata locked =>
      exact ofFrame mdata rfl (frame_copyMessage performed)
  | pfGetMessage =>
      by_cases isEmpty : before.queue.ring.tail = before.queue.ring.head
      · rw [perform_pfGetMessage_empty isEmpty] at performed
        cases performed
      · rw [perform_pfGetMessage isEmpty] at performed
        obtain ⟨-, rfl⟩ := Prod.mk.inj (Option.some.inj performed)
        exact ⟨List.mem_cons_of_mem _ isHeld, fun _ _ => rfl⟩
  | pfTryGetMessage =>
      by_cases isEmpty : before.queue.ring.tail = before.queue.ring.head
      · rw [perform_pfTryGetMessage_empty isEmpty] at performed
        obtain ⟨-, rfl⟩ := Prod.mk.inj (Option.some.inj performed)
        exact ⟨isHeld, fun _ _ => rfl⟩
      · rw [perform_pfTryGetMessage isEmpty] at performed
        obtain ⟨-, rfl⟩ := Prod.mk.inj (Option.some.inj performed)
        exact ⟨List.mem_cons_of_mem _ isHeld, fun _ _ => rfl⟩
  | free other =>
      obtain ⟨-, rfl⟩ := Prod.mk.inj (Option.some.inj performed)
      have different : message ≠ other := by
        rintro rfl
        exact notFreed rfl
      refine ⟨(List.mem_erase_of_ne different).mpr isHeld, ?_⟩
      intro address isAddress
      exact memory_free (holds.address_ne isHeld (allowed.holds other rfl)
        different isAddress)

/-- A step leaves the payload of a message alone. -/
theorem Keeps.step (keeps : Keeps before message payload)
    (holds : Holds capacity before letters)
    (step : MboxTransition before label after)
    (notFreed : label.1 ≠ .free message) : Keeps after message payload := by
  obtain ⟨isHeld, sameMemory⟩ := holds.frame step keeps.isHeld notFreed
  refine ⟨isHeld, keeps.length, ?_⟩
  cases keeps.safe with
  | empty points => exact .empty points
  | own points isPayload => exact .own points isPayload
  | heap points isStored =>
      refine .heap points ?_
      rw [sameMemory _ (by rw [MboxMessage.address, points]), isStored]

/-- No run takes the payload of a message away. -/
theorem Keeps.stays (keeps : Keeps state message payload)
    (holds : Holds capacity state letters) : Stays state message payload := by
  intro labels final run notFreed
  induction run generalizing letters with
  | nil => exact keeps.payload_eq
  | cons first rest inductionHypothesis =>
      obtain ⟨reply, next, -, -, holdsNext⟩ := holds.step first
      apply inductionHypothesis _ holdsNext
      · intro label isLabel
        exact notFreed label (List.mem_cons_of_mem _ isLabel)
      · exact keeps.step holds first (notFreed _ List.mem_cons_self)

/-! ## Messages that were just got -/

/-- `pf_try_get_message` leaves a short payload in the array. -/
def LeavesInArray (call : MboxCall) (payload : List UInt8) : Prop :=
  call = .pfTryGetMessage ∧ payload ≠ [] ∧ payload.length ≤ SHORT_PACK_SIZE

section Safe

variable {memory : ℕ → Option (List UInt8)} {index : ℕ}

/-- A carried message is safe to read when its payload is not stored inside
it. -/
theorem Carries.safe (carries : Carries memory index message letter)
    (notShort : ¬(letter.payload ≠ [] ∧
      letter.payload.length ≤ SHORT_PACK_SIZE)) :
    Safe memory message letter.payload := by
  rcases Nat.lt_or_ge SHORT_PACK_SIZE letter.payload.length with
    isLong | isShort
  · obtain ⟨address, points, isStored⟩ := carries.long isLong
    exact .heap points isStored
  · have noBytes : letter.payload = [] :=
      by_contra fun notEmpty => notShort ⟨notEmpty, isShort⟩
    rw [noBytes]
    exact .empty (carries.short isShort).1

/-- A restored message is safe to read. -/
theorem Carries.safe_restore (carries : Carries memory index message letter) :
    Safe memory message.restore letter.payload := by
  by_cases short : letter.payload ≠ [] ∧
      letter.payload.length ≤ SHORT_PACK_SIZE
  · rw [carries.restore_short short.1 short.2]
    exact .own rfl (carries.short short.2).2
  · rw [carries.restore_eq_self short]
    exact carries.safe short

end Safe

/-- A message that is got is the first letter, in one of two ways. -/
theorem Holds.exists_got (holds : Holds capacity before letters)
    {call : MboxCall}
    (step : MboxTransition before (call, .got (some message)) after) :
    ∃ letter, letters.head? = some letter ∧
      before.queue.ring.tail ≠ before.queue.ring.head ∧
      Carries before.memory before.queue.ring.head before.queue.first letter ∧
      after = ⟨before.queue.rest, before.memory, message :: before.held⟩ ∧
      (call = .pfGetMessage ∧ message = before.queue.first.restore ∨
        call = .pfTryGetMessage ∧ message = before.queue.first) := by
  have performed := step.2
  by_cases isEmpty : before.queue.ring.tail = before.queue.ring.head
  · exfalso
    cases call with
    | pfGetMessage =>
        cases (perform_pfGetMessage_empty isEmpty).symm.trans performed
    | pfTryGetMessage =>
        cases (perform_pfTryGetMessage_empty isEmpty).symm.trans performed
    | free other => cases performed
    | pfCopyMsg | pfCopyMsg2 | pfCopyTryMsg | pfCopyUrgentMsg
    | pfCopyTryUrgentMsg =>
        obtain ⟨result, -, same⟩ := Option.map_eq_some_iff.mp performed
        cases same
  · obtain ⟨letter, shape, carries⟩ := holds.exists_first isEmpty
    refine ⟨letter, ?_, isEmpty, carries, ?_⟩
    · rw [shape]
      rfl
    · cases call with
      | pfGetMessage =>
          cases (perform_pfGetMessage isEmpty).symm.trans performed
          exact ⟨rfl, .inl ⟨rfl, rfl⟩⟩
      | pfTryGetMessage =>
          cases (perform_pfTryGetMessage isEmpty).symm.trans performed
          exact ⟨rfl, .inr ⟨rfl, rfl⟩⟩
      | free other => cases performed
      | pfCopyMsg | pfCopyMsg2 | pfCopyTryMsg | pfCopyUrgentMsg
      | pfCopyTryUrgentMsg =>
          obtain ⟨result, -, same⟩ := Option.map_eq_some_iff.mp performed
          cases same

/-- An urgent message with other bytes. -/
def overwrite (payload : List UInt8) : MboxCall :=
  .pfCopyUrgentMsg ⟨0, 0, 0, 0⟩ (payload.map (· + 1)) none

/-- The array after that. -/
def overwritten (queue : MboxQueue) (payload : List UInt8) :
    MboxQueue :=
  MboxQueue.putHead (fillCopy ⟨0, 0, 0, 0⟩ (payload.map (· + 1))) queue

theorem stored_overwritten (queue : MboxQueue) (payload : List UInt8) :
    ((overwritten queue.rest payload).stored queue.ring.head).shortpayload.take
      payload.length = payload.map (· + 1) := by
  have sameHead : queue.rest.ring.pushFront.head = queue.ring.head :=
    congrArg IndexRing.head queue.ring.pushFront_popFront
  unfold overwritten MboxQueue.putHead StoredRing.putFront
  dsimp only
  rw [sameHead, Function.update_self]
  have bytes := take_copyTo
    (queue.rest.stored queue.ring.head).shortpayload (payload.map (· + 1))
  rw [List.length_map] at bytes
  exact bytes

theorem map_add_one_ne {bytes : List UInt8} (notEmpty : bytes ≠ []) :
    bytes.map (· + 1) ≠ bytes := by
  cases bytes with
  | nil => exact absurd rfl notEmpty
  | cons byte rest =>
      intro same
      have sameByte : byte + 1 = byte := (List.cons.inj same).1
      have one : (1 : UInt8) = 0 := by
        rw [← UInt8.add_right_inj byte, sameByte, UInt8.add_zero]
      cases one

/-- An urgent message takes the place in the array that was given up last. -/
theorem Carries.not_stays {memory : ℕ → Option (List UInt8)}
    {queue : MboxQueue} {held : List MboxMessage}
    (carries : Carries memory queue.ring.head queue.first letter)
    (hasRoom : queue.ring.tail ≠ queue.ring.head)
    (notEmpty : letter.payload ≠ [])
    (isShort : letter.payload.length ≤ SHORT_PACK_SIZE) :
    ¬Stays ⟨queue.rest, memory, held⟩ queue.first letter.payload := by
  intro stays
  have notFull : ¬queue.rest.ring.Full :=
    queue.ring.not_full_popFront hasRoom
  have changedShort :
      (letter.payload.map (· + 1)).length ≤ SHORT_PACK_SIZE := by
    rw [List.length_map]
    exact isShort
  have performed : MboxState.perform ⟨queue.rest, memory, held⟩
      (overwrite letter.payload) = some (.sent true,
        ⟨overwritten queue.rest letter.payload, memory, held⟩) := by
    change MboxState.sent (MboxState.copyMessage _ _ none _ _) = _
    rw [copyMessage_short changedShort]
    unfold MboxQueue.putHeadCopyData MboxQueue.waiting
    rw [if_neg notFull]
    rfl
  have allowed : (overwrite letter.payload).Allowed
      ⟨queue.rest, memory, held⟩ :=
    ⟨fun _ isFresh => absurd isFresh.symm (Option.some_ne_none _),
      fun _ isFree => MboxCall.noConfusion isFree⟩
  have reads := stays [(overwrite letter.payload, .sent true)] _
    (.cons ⟨allowed, performed⟩ (.nil _)) (by
      intro label isLabel isFree
      rw [List.mem_singleton.mp isLabel] at isFree
      cases isFree)
  unfold MboxState.payload at reads
  rw [(carries.short isShort).1] at reads
  dsimp only at reads
  rw [carries.length, stored_overwritten] at reads
  exact map_add_one_ne notEmpty (Option.some.inj reads)

/-- The payload of a message stays until the message is freed if and only if it
is not left in the array. -/
theorem Holds.stays_iff (holds : Holds capacity before letters)
    {call : MboxCall}
    (step : MboxTransition before (call, .got (some message)) after) :
    ∃ letter, letters.head? = some letter ∧ IsLetter after message letter ∧
      (Stays after message letter.payload ↔
        ¬LeavesInArray call letter.payload) := by
  obtain ⟨reply, next, -, -, holdsAfter⟩ := holds.step step
  obtain ⟨letter, isFirst, hasRoom, carries, rfl, got⟩ := holds.exists_got step
  refine ⟨letter, isFirst, ?_⟩
  rcases got with ⟨rfl, rfl⟩ | ⟨rfl, rfl⟩
  · refine ⟨carries.isLetter_restore.rest _, fun _ left => ?_, fun _ => ?_⟩
    · cases left.1
    · refine Keeps.stays ⟨List.mem_cons_self, ?_, ?_⟩ holdsAfter
      · exact carries.isLetter_restore.length
      · exact carries.safe_restore
  · refine ⟨carries.isLetter.rest _, fun stays left => ?_, fun notLeft => ?_⟩
    · exact carries.not_stays hasRoom left.2.1 left.2.2 stays
    · refine Keeps.stays ⟨List.mem_cons_self, carries.length, ?_⟩ holdsAfter
      exact carries.safe fun short => notLeft ⟨rfl, short⟩

/-! ## The deque and the mailbox -/

/-- After a run the mailbox has as many messages as the deque has letters, a
call answers as that of the deque does, and the payload of a message that it
returns stays until the message is freed. -/
structure RefinesDeque (capacity : ℕ) (state : MboxState)
    (letters : List Letter) (call : MboxCall) : Prop where
  size : state.queue.size = letters.length
  answers : Option.Rel
    (fun concrete deque => Answers concrete.2 concrete.1 deque.1)
    (state.perform call) (Deque.perform capacity letters call)
  stays : ∀ letter message next, letters.head? = some letter →
    state.perform call = some (.got (some message), next) →
      Stays next message letter.payload

/-- Every allowed call answers what the deque answers. -/
theorem Holds.answers (holds : Holds capacity state letters)
    {call : MboxCall} (allowed : call.Allowed state) :
    Option.Rel (fun concrete deque => Answers concrete.2 concrete.1 deque.1)
      (state.perform call) (Deque.perform capacity letters call) := by
  have agrees := holds.perform allowed
  generalize state.perform call = concrete at agrees ⊢
  generalize Deque.perform capacity letters call = deque at agrees ⊢
  cases agrees with
  | none => exact .none
  | some agrees => exact .some agrees.1

/-- Every run of the mailbox is one of the deque, and the next call refines that
of the deque if and only if it does not leave the payload of a letter in the
array. -/
theorem refinesDeque_iff {m_size : ℕ} (positive : 0 < m_size)
    (uninitialized : ℕ → MboxMessage)
    (labels : List (MboxCall × MboxReply MboxMessage)) (state : MboxState)
    (run : Run MboxTransition (.initial m_size positive uninitialized) labels
      state) :
    ∃ letters, Deque.after (m_size - 1) (labels.map Prod.fst) = some letters ∧
      ∀ call, call.Allowed state →
        (RefinesDeque (m_size - 1) state letters call ↔
          ∀ letter, letters.head? = some letter →
            ¬LeavesInArray call letter.payload) := by
  obtain ⟨letters, reached, holds⟩ := mirrors_of_run run
  refine ⟨letters, reached, ?_⟩
  intro call allowed
  have agrees := holds.perform allowed
  constructor
  · rintro refines letter isFirst leaves
    obtain rfl := leaves.1
    have performs : Deque.perform (m_size - 1) letters .pfTryGetMessage =
        some (.got (some letter), letters.tail) := by
      rw [← isFirst]
      rfl
    rw [performs] at agrees
    generalize performed : state.perform .pfTryGetMessage = result at agrees
    obtain ⟨⟨answer, -⟩⟩ := agrees
    rename_i concrete
    obtain ⟨reply, next⟩ := concrete
    cases answer with
    | @got message _ isLetter =>
        obtain ⟨first, isHead, -, stays⟩ := holds.stays_iff ⟨allowed, performed⟩
        obtain rfl := Option.some.inj (isHead.symm.trans isFirst)
        exact stays.mp (refines.stays first message next isFirst performed) leaves
  · intro notLeft
    refine ⟨holds.queue.length_eq.symm, holds.answers allowed, ?_⟩
    · intro letter message next isFirst performed
      obtain ⟨first, isLetter, -, stays⟩ :=
        holds.stays_iff ⟨allowed, performed⟩
      obtain rfl := Option.some.inj (isLetter.symm.trans isFirst)
      exact stays.mpr (notLeft first isFirst)

/-- A header and a mailbox with one place and a message with a short payload. -/
def zeroHeader : Header :=
  ⟨0, 0, 0, 0⟩

/-- Calls on a mailbox with two places: it gets full, the array wraps around,
and a long payload is freed. -/
def someCalls : List MboxCall :=
  [.pfCopyMsg zeroHeader [1] none,
    .pfCopyMsg zeroHeader (List.replicate 101 2) (some 4096),
    .pfCopyTryMsg zeroHeader [3] none, .pfGetMessage,
    .pfCopyMsg zeroHeader [4] none, .pfGetMessage,
    .free ⟨zeroHeader, 101, .heap 4096, []⟩,
    .pfCopyUrgentMsg zeroHeader [5] none]

set_option maxRecDepth 2000 in
/-- What is left is got as from the deque. -/
theorem refinesDeque_someCalls :
    ∃ labels state, labels.map Prod.fst = someCalls ∧
      Run MboxTransition
        (.initial 3 (Nat.succ_pos 2) fun _ => ⟨zeroHeader, 0, .own, []⟩) labels
        state ∧
      RefinesDeque 2 state [⟨zeroHeader, [5]⟩, ⟨zeroHeader, [4]⟩]
        .pfGetMessage := by
  have possible : ∃ labels state, labels.map Prod.fst = someCalls ∧
      Run MboxTransition
        (.initial 3 (Nat.succ_pos 2) fun _ => ⟨zeroHeader, 0, .own, []⟩) labels
        state :=
    ⟨[(_, _), (_, _), (_, _), (_, _), (_, _), (_, _), (_, _), (_, _)], _, rfl,
      .cons ⟨⟨nofun, nofun⟩, rfl⟩ (.cons ⟨⟨fun _ _ => rfl, nofun⟩, rfl⟩
        (.cons ⟨⟨nofun, nofun⟩, rfl⟩ (.cons ⟨⟨nofun, nofun⟩, rfl⟩
        (.cons ⟨⟨nofun, nofun⟩, rfl⟩ (.cons ⟨⟨nofun, nofun⟩, rfl⟩
        (.cons ⟨⟨nofun, by rintro _ ⟨⟩; exact .head _⟩, rfl⟩
        (.cons ⟨⟨nofun, nofun⟩, rfl⟩ (.nil _))))))))⟩
  obtain ⟨labels, state, isCalls, run⟩ := possible
  refine ⟨labels, state, isCalls, run, ?_⟩
  obtain ⟨letters, reached, refines⟩ :=
    refinesDeque_iff (Nat.succ_pos 2) _ _ _ run
  rw [isCalls] at reached
  obtain rfl : [⟨zeroHeader, [5]⟩, ⟨zeroHeader, [4]⟩] = letters :=
    Option.some.inj reached
  apply (refines .pfGetMessage ⟨nofun, nofun⟩).mpr
  intro letter _ leaves
  cases leaves.1

/-- A mailbox with one message. -/
def oneMessage : MboxState where
  queue :=
    ⟨(IndexRing.empty 2 Nat.two_pos).pushBack,
      Function.update (fun _ => ⟨zeroHeader, 0, .own, []⟩) 0
        ⟨zeroHeader, 1, .slot 0, [1]⟩⟩
  memory := fun _ => none
  held := []

theorem run_oneMessage :
    Run MboxTransition
      (.initial 2 Nat.two_pos fun _ => ⟨zeroHeader, 0, .own, []⟩)
      [(.pfCopyMsg zeroHeader [1] none, .sent true)] oneMessage :=
  .cons ⟨⟨nofun, nofun⟩, rfl⟩ (.nil _)

/-- A short payload that `pf_try_get_message` got is not what was sent after
another message has been sent. -/
theorem not_refinesDeque_oneMessage :
    ¬∀ labels state,
      Run MboxTransition
          (.initial 2 Nat.two_pos fun _ => ⟨zeroHeader, 0, .own, []⟩) labels
          state →
        ∀ letters, Deque.after 1 (labels.map Prod.fst) = some letters →
          ∀ call, call.Allowed state → RefinesDeque 1 state letters call := by
  intro refines
  have stays := (refines _ _ run_oneMessage [⟨zeroHeader, [1]⟩] rfl
    .pfTryGetMessage ⟨nofun, nofun⟩).stays _ _ _ rfl rfl
  have reads := stays [(.pfCopyUrgentMsg zeroHeader [2] none, .sent true)] _
    (.cons ⟨⟨nofun, nofun⟩, rfl⟩ (.nil _)) (by
      intro label isLabel isFree
      rw [List.mem_singleton.mp isLabel] at isFree
      cases isFree)
  exact absurd reads (by decide)

end Mbox
end Pilot2Cloud
