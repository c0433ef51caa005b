import Pilot2Cloud.Log.LogText

/-!
# The laps of the writer and the reader

The messages that are not yet output follow each other from the reader to the
writer, or, when the writer is a lap ahead, from the reader to the end of the
area and then from its front to the writer.  So what is handed to a call of
`pf_log` is apart from them.
-/

namespace Pilot2Cloud
namespace Log

open Foundation Words

/-- Messages that follow each other from one offset to another. -/
def Contiguous (last : Nat) : Nat → List LogMessage → Prop
  | first, [] => first = last
  | first, message :: messages =>
      message.offset = first ∧
        Contiguous last (first + message.bytes.length) messages

namespace Contiguous

variable {first middle last : Nat} {message : LogMessage}
  {messages : List LogMessage}

theorem le (contiguous : Contiguous last first messages) : first ≤ last := by
  induction messages generalizing first with
  | nil => exact Nat.le_of_eq contiguous
  | cons message messages inductionHypothesis =>
      exact Nat.le_trans (Nat.le_add_right _ _)
        (inductionHypothesis contiguous.2)

/-- Each of the messages lies between the two offsets. -/
theorem bounds (contiguous : Contiguous last first messages)
    (isMember : message ∈ messages) :
    first ≤ message.offset ∧
      message.offset + message.bytes.length ≤ last := by
  induction messages generalizing first with
  | nil => exact absurd isMember List.not_mem_nil
  | cons other messages inductionHypothesis =>
      obtain rfl | later := List.mem_cons.mp isMember
      · have afterwards := contiguous.2.le
        have isFirst := contiguous.1
        omega
      · have within := inductionHypothesis contiguous.2 later
        omega

theorem concat (contiguous : Contiguous middle first messages)
    (isNext : message.offset = middle) :
    Contiguous (middle + message.bytes.length) first (messages ++ [message]) :=
    by
  induction messages generalizing first with
  | nil =>
      have same : first = middle := contiguous
      exact ⟨isNext.trans same.symm, by rw [same]; rfl⟩
  | cons other messages inductionHypothesis =>
      exact ⟨contiguous.1, inductionHypothesis contiguous.2⟩

end Contiguous

/-- How the messages that are not yet output lie between the reader and the end
of the last message.  In `caughtUp` the reader has gone back to the front and the
writer has not. -/
inductive Laid (mon : ThreadMon) (writeEnd : Nat) : List LogMessage → Prop
  | sameLap {unread : List LogMessage}
      (contiguous : Contiguous writeEnd mon.ulLogReadOffset unread)
      (early : mon.ulLogReadOffset + REMAINING_SPACE_SIZE < LOG_STACK_MAX_SIZE)
      (bound : writeEnd ≤ LOG_STACK_MAX_SIZE)
      (rest : mon.ulLogAvaiMaxOffset + mon.ulLogWriteOffset =
        LOG_STACK_MAX_SIZE) :
      Laid mon writeEnd unread
  | lapAhead {old new : List LogMessage} {last : Nat}
      (nonempty : old ≠ [])
      (oldContiguous : Contiguous last mon.ulLogReadOffset old)
      (late : LOG_STACK_MAX_SIZE ≤ last + REMAINING_SPACE_SIZE)
      (bound : last ≤ LOG_STACK_MAX_SIZE)
      (newContiguous : Contiguous writeEnd 0 new)
      (gap : writeEnd + 3 ≤ mon.ulLogReadOffset) :
      Laid mon writeEnd (old ++ new)
  | caughtUp (isFront : mon.ulLogReadOffset = 0)
      (late : LOG_STACK_MAX_SIZE ≤ writeEnd + REMAINING_SPACE_SIZE)
      (bound : writeEnd ≤ LOG_STACK_MAX_SIZE)
      (rest : mon.ulLogAvaiMaxOffset + mon.ulLogWriteOffset =
        LOG_STACK_MAX_SIZE) :
      Laid mon writeEnd []

/-- A message is whole, names its module and is in the memory as it was
written. -/
structure LogMessage.Proper (ulMid : Nat) (memory : FlatMemory)
    (message : LogMessage) : Prop where
  named : (UInt8.ofNat ulMid).toNat = ulMid
  whole : IsLogBytes (UInt8.ofNat ulMid) message.bytes
  intact :
    bytesAt memory message.offset message.bytes.length = message.bytes
  early : message.offset + REMAINING_SPACE_SIZE < LOG_STACK_MAX_SIZE

section Sections

variable {mon : ThreadMon} {ulLenStatistics totaloffset : Nat}

/-- The reader goes on, or back to the front when the rest is too short. -/
theorem updateReadSection_eq
    (readBound : mon.ulLogReadOffset + ulLenStatistics ≤ LOG_STACK_MAX_SIZE)
    (writeBound : mon.ulLogWriteOffset ≤ LOG_STACK_MAX_SIZE) :
    updateReadSection mon ulLenStatistics =
      if LOG_STACK_MAX_SIZE ≤
          mon.ulLogReadOffset + ulLenStatistics + REMAINING_SPACE_SIZE
      then { mon with
        ulLogReadOffset := 0
        ulLogAvaiMaxOffset := LOG_STACK_MAX_SIZE - mon.ulLogWriteOffset }
      else { mon with
        ulLogReadOffset := mon.ulLogReadOffset + ulLenStatistics } := by
  unfold updateReadSection
  unfold LOG_STACK_MAX_SIZE REMAINING_SPACE_SIZE at *
  dsimp only
  rw [wrap_of_lt (by omega : mon.ulLogReadOffset + ulLenStatistics < 2 ^ 32),
    wrap_of_lt (by omega), wrapSub_of_le (by decide) writeBound,
    Nat.add_comm 2148]

@[simp] theorem updateReadSection_writeOffset :
    (updateReadSection mon ulLenStatistics).ulLogWriteOffset =
      mon.ulLogWriteOffset := by
  unfold updateReadSection
  dsimp only
  split
  · rfl
  · rfl

theorem updateWriteSection_writeOffset
    (bound : mon.ulLogWriteOffset + totaloffset ≤ LOG_STACK_MAX_SIZE) :
    (updateWriteSection mon totaloffset).ulLogWriteOffset =
      mon.ulLogWriteOffset + totaloffset :=
  wrap_of_lt (Nat.lt_of_le_of_lt bound (by decide))

@[simp] theorem updateWriteSection_readOffset :
    (updateWriteSection mon totaloffset).ulLogReadOffset =
      mon.ulLogReadOffset := by
  unfold updateWriteSection
  rfl

theorem updateWriteSection_avai
    (small : mon.ulLogAvaiMaxOffset ≤ LOG_STACK_MAX_SIZE)
    (bound : totaloffset ≤ mon.ulLogAvaiMaxOffset) :
    (updateWriteSection mon totaloffset).ulLogAvaiMaxOffset =
      mon.ulLogAvaiMaxOffset - totaloffset :=
  wrapSub_of_le (Nat.lt_of_le_of_lt small (by decide)) bound

/-- The writer is in the lap of the reader. -/
theorem getLogInfo_sameLap
    (behind : mon.ulLogReadOffset ≤ mon.ulLogWriteOffset)
    (bound : mon.ulLogWriteOffset ≤ LOG_STACK_MAX_SIZE) :
    getLogInfo mon =
      if mon.ulLogAvaiMaxOffset ≤ REMAINING_SPACE_SIZE then
        (none,
          if LOG_STACK_MAX_SIZE ≤
                mon.ulLogWriteOffset + REMAINING_SPACE_SIZE ∧
              REMAINING_SPACE_SIZE < mon.ulLogReadOffset then { mon with
            ulLogAvaiMaxOffset := mon.ulLogReadOffset
            ulLogWriteOffset := 0 }
          else mon)
      else (some (mon.ulLogWriteOffset, mon.ulLogAvaiMaxOffset), mon) := by
  have noWrap : wrap (mon.ulLogWriteOffset + REMAINING_SPACE_SIZE) =
      mon.ulLogWriteOffset + REMAINING_SPACE_SIZE := by
    apply wrap_of_lt
    unfold LOG_STACK_MAX_SIZE REMAINING_SPACE_SIZE at *
    omega
  unfold getLogInfo
  rw [if_neg (Nat.not_lt.mpr behind)]
  dsimp only
  rw [noWrap]
  split
  · split
    · rfl
    · rfl
  · rfl

/-- The writer is a lap ahead of the reader. -/
theorem getLogInfo_lapAhead
    (gap : mon.ulLogWriteOffset + 3 ≤ mon.ulLogReadOffset)
    (early : mon.ulLogReadOffset + REMAINING_SPACE_SIZE < LOG_STACK_MAX_SIZE) :
    getLogInfo mon =
      let ulLogAvaiMaxOffset :=
        mon.ulLogReadOffset - mon.ulLogWriteOffset - 2
      if ulLogAvaiMaxOffset ≤ REMAINING_SPACE_SIZE then
        (none, { mon with ulLogAvaiMaxOffset })
      else (some (mon.ulLogWriteOffset, ulLogAvaiMaxOffset),
        { mon with ulLogAvaiMaxOffset }) := by
  have small : mon.ulLogReadOffset < 2 ^ 32 := by
    unfold LOG_STACK_MAX_SIZE at early
    omega
  have rest : wrapSub (wrapSub mon.ulLogReadOffset mon.ulLogWriteOffset) 2 =
      mon.ulLogReadOffset - mon.ulLogWriteOffset - 2 := by
    rw [wrapSub_of_le small (by omega), wrapSub_of_le (by omega) (by omega)]
  have noWrap : wrap (mon.ulLogWriteOffset + REMAINING_SPACE_SIZE) =
      mon.ulLogWriteOffset + REMAINING_SPACE_SIZE := by
    apply wrap_of_lt
    unfold LOG_STACK_MAX_SIZE REMAINING_SPACE_SIZE at *
    omega
  unfold getLogInfo
  rw [if_pos (by omega : mon.ulLogReadOffset > mon.ulLogWriteOffset)]
  dsimp only
  rw [rest, noWrap, if_neg (by omega : ¬(_ ∧ _))]

end Sections

namespace LogMessage.Proper

variable {ulMid : Nat} {memory other : FlatMemory} {message : LogMessage}

/-- The log thread finds the length of a message from its end. -/
theorem strlen_eq (proper : message.Proper ulMid memory)
    (short : message.bytes.length ≤ LOG_STACK_MAX_SIZE) :
    strlen memory LOG_STACK_MAX_SIZE message.offset + 1 =
      message.bytes.length := by
  obtain ⟨text, noZero, isBytes⟩ := proper.whole
  have isText : bytesAt memory message.offset
      (0xFE :: UInt8.ofNat ulMid :: text ++ [13, 10] ++ [0]).length =
        0xFE :: UInt8.ofNat ulMid :: text ++ [13, 10] ++ [0] := by
    have isIntact := proper.intact
    rw [isBytes] at isIntact
    rw [List.append_assoc]
    exact isIntact
  have isLength : message.bytes.length =
      (0xFE :: UInt8.ofNat ulMid :: text ++ [13, 10]).length + 1 := by
    rw [isBytes, List.length_append, List.length_append]
    rfl
  rw [List.length_append] at isText
  rw [isLength, Foundation.strlen_eq isText]
  · intro isMember
    obtain inText | inEnd := List.mem_append.mp isMember
    · obtain isTag | later := List.mem_cons.mp inText
      · exact absurd isTag (by decide)
      · exact noZero later
    · exact absurd inEnd (by decide)
  · omega

theorem mid_eq (proper : message.Proper ulMid memory) :
    (memory (message.offset + 1)).toNat = ulMid := by
  obtain ⟨text, -, isBytes⟩ := proper.whole
  have isIntact := proper.intact
  rw [isBytes] at isIntact
  rw [List.length_append, List.length_cons, List.length_cons,
    Nat.succ_add, Nat.succ_add, bytesAt_succ, bytesAt_succ] at isIntact
  obtain ⟨-, isRest⟩ := List.cons.inj isIntact
  rw [(List.cons.inj isRest).1]
  exact proper.named

theorem congr (proper : message.Proper ulMid memory)
    (same : ∀ byte ∈ message.region, other byte = memory byte) :
    message.Proper ulMid other where
  named := proper.named
  whole := proper.whole
  intact := (bytesAt_congr same).trans proper.intact
  early := proper.early

end LogMessage.Proper

/-- What a call of `pf_log` is given in the area. -/
structure Granted (mon : ThreadMon) (offset avail : Nat) : Prop where
  isWriter : offset = mon.ulLogWriteOffset
  roomy : REMAINING_SPACE_SIZE < avail
  inside : offset + avail ≤ LOG_STACK_MAX_SIZE
  behind : offset < mon.ulLogReadOffset →
    offset + avail + 2 ≤ mon.ulLogReadOffset

namespace Laid

variable {mon : ThreadMon} {writeEnd offset avail : Nat}
  {message : LogMessage} {unread rest : List LogMessage}

theorem bound (laid : Laid mon writeEnd unread)
    (isEarly : ∀ message ∈ unread,
      message.offset + REMAINING_SPACE_SIZE < LOG_STACK_MAX_SIZE) :
    writeEnd ≤ LOG_STACK_MAX_SIZE := by
  cases laid with
  | sameLap contiguous early bound rest => exact bound
  | caughtUp isFront late bound rest => exact bound
  | @lapAhead old new last nonempty oldContiguous late bound newContiguous
      gap =>
      have reader := oldContiguous.le
      omega

/-- What is granted is apart from the messages that are not yet output. -/
theorem apart (laid : Laid mon mon.ulLogWriteOffset unread)
    (granted : Granted mon offset avail) (isUnread : message ∈ unread) :
    message.region.Apart ⟨offset, avail⟩ := by
  obtain ⟨isWriter, roomy, inside, behind⟩ := granted
  unfold Region.Apart LogMessage.region
  dsimp only
  cases laid with
  | sameLap contiguous early bound rest =>
      have within := contiguous.bounds isUnread
      omega
  | caughtUp isFront late bound rest =>
      exact absurd isUnread List.not_mem_nil
  | @lapAhead old new last nonempty oldContiguous late bound newContiguous
      gap =>
      obtain isOld | isNew := List.mem_append.mp isUnread
      · have within := oldContiguous.bounds isOld
        omega
      · have within := newContiguous.bounds isNew
        omega

/-- Asking for space keeps how the messages lie. -/
theorem getLogInfo (laid : Laid mon mon.ulLogWriteOffset unread)
    (isEarly : ∀ message ∈ unread,
      message.offset + REMAINING_SPACE_SIZE < LOG_STACK_MAX_SIZE) :
    let (info, after) := Log.getLogInfo mon
    Laid after after.ulLogWriteOffset unread ∧
      ∀ offset avail, info = some (offset, avail) →
        Granted after offset avail := by
  cases laid with
  | sameLap contiguous early bound rest =>
      rw [getLogInfo_sameLap contiguous.le bound]
      split_ifs with isShort isLate
      · refine ⟨?_, by intro offset avail isSome; cases isSome⟩
        have nonempty : unread ≠ [] := by
          rintro rfl
          have same : mon.ulLogReadOffset = mon.ulLogWriteOffset := contiguous
          omega
        rw [← List.append_nil unread]
        refine .lapAhead nonempty contiguous isLate.1 bound rfl ?_
        unfold REMAINING_SPACE_SIZE at isLate
        dsimp only
        omega
      · exact ⟨.sameLap contiguous early bound rest,
          by intro offset avail isSome; cases isSome⟩
      · refine ⟨.sameLap contiguous early bound rest, ?_⟩
        intro offset avail isSome
        cases isSome
        refine ⟨rfl, Nat.not_le.mp isShort, by omega, ?_⟩
        intro isBehind
        exact absurd contiguous.le (Nat.not_le.mpr isBehind)
  | caughtUp isFront late bound rest =>
      have isShort : mon.ulLogAvaiMaxOffset ≤ REMAINING_SPACE_SIZE := by omega
      rw [getLogInfo_sameLap (by omega) bound, if_pos isShort,
        if_neg (by omega)]
      exact ⟨.caughtUp isFront late bound rest,
        by intro offset avail isSome; cases isSome⟩
  | @lapAhead old new last nonempty oldContiguous late bound newContiguous
      gap =>
      have early :
          mon.ulLogReadOffset + REMAINING_SPACE_SIZE < LOG_STACK_MAX_SIZE := by
        obtain ⟨first, others, rfl⟩ := List.exists_cons_of_ne_nil nonempty
        rw [← oldContiguous.1]
        exact isEarly first List.mem_cons_self
      rw [getLogInfo_lapAhead gap early]
      dsimp only
      split_ifs with isShort
      · exact ⟨.lapAhead nonempty oldContiguous late bound newContiguous gap,
          by intro offset avail isSome; cases isSome⟩
      · refine ⟨.lapAhead nonempty oldContiguous late bound newContiguous gap,
          ?_⟩
        intro offset avail isSome
        cases isSome
        refine ⟨rfl, Nat.not_le.mp isShort, by omega, ?_⟩
        intro isBehind
        dsimp only at isBehind ⊢
        omega

/-- A message that ends inside of what was granted is the last one. -/
theorem concat (laid : Laid mon mon.ulLogWriteOffset unread)
    (granted : Granted mon offset avail) (isAt : message.offset = offset)
    (fits : message.bytes.length < avail) :
    Laid mon (mon.ulLogWriteOffset + message.bytes.length)
      (unread ++ [message]) := by
  obtain ⟨isWriter, roomy, inside, behind⟩ := granted
  cases laid with
  | sameLap contiguous early bound rest =>
      exact .sameLap (contiguous.concat (isAt.trans isWriter)) early
        (by omega) rest
  | caughtUp isFront late bound rest => omega
  | @lapAhead old new last nonempty oldContiguous late bound newContiguous
      gap =>
      rw [List.append_assoc]
      exact .lapAhead nonempty oldContiguous late bound
        (newContiguous.concat (isAt.trans isWriter)) (by omega)

/-- The reader is at the oldest message. -/
theorem oldest (laid : Laid mon writeEnd (message :: rest)) :
    mon.ulLogReadOffset = message.offset := by
  generalize isAll : message :: rest = all at laid
  cases laid with
  | sameLap contiguous early bound avai =>
      subst isAll
      exact contiguous.1.symm
  | caughtUp => cases isAll
  | @lapAhead old new last nonempty oldContiguous =>
      obtain ⟨first, others, rfl⟩ := List.exists_cons_of_ne_nil nonempty
      obtain ⟨rfl, -⟩ := List.cons.inj isAll
      exact oldContiguous.1.symm

/-- Reading the oldest message keeps how the others lie. -/
theorem updateReadSection (laid : Laid mon writeEnd (message :: rest))
    (isEarly : ∀ message ∈ rest,
      message.offset + REMAINING_SPACE_SIZE < LOG_STACK_MAX_SIZE)
    (bound : mon.ulLogWriteOffset ≤ writeEnd) :
    Laid (Log.updateReadSection mon message.bytes.length) writeEnd rest := by
  generalize isAll : message :: rest = all at laid
  cases laid with
  | sameLap contiguous early writeBound avai =>
      subst isAll
      have afterwards := contiguous.2.le
      rw [updateReadSection_eq (by omega) (by omega)]
      split_ifs with isLate
      · cases rest with
        | nil =>
            have same :
                mon.ulLogReadOffset + message.bytes.length = writeEnd :=
              contiguous.2
            exact .caughtUp rfl (by omega) writeBound (by dsimp only; omega)
        | cons next others =>
            have nextEarly := isEarly next List.mem_cons_self
            rw [contiguous.2.1] at nextEarly
            omega
      · exact .sameLap contiguous.2 (Nat.not_le.mp isLate) writeBound avai
  | caughtUp => cases isAll
  | @lapAhead old new last nonempty oldContiguous late lastBound newContiguous
      gap =>
      obtain ⟨first, others, rfl⟩ := List.exists_cons_of_ne_nil nonempty
      obtain ⟨rfl, rfl⟩ := List.cons.inj isAll
      have afterwards := oldContiguous.2.le
      rw [updateReadSection_eq (by omega) (by omega)]
      cases others with
      | nil =>
          have same : mon.ulLogReadOffset + message.bytes.length = last :=
            oldContiguous.2
          rw [if_pos (by omega)]
          have front : 0 + REMAINING_SPACE_SIZE < LOG_STACK_MAX_SIZE := by
            decide
          exact .sameLap newContiguous front (by omega)
            (by dsimp only; omega)
      | cons next later =>
          have nextEarly := isEarly next
            (List.mem_append_left _ List.mem_cons_self)
          rw [oldContiguous.2.1] at nextEarly
          rw [if_neg (by omega)]
          refine .lapAhead (List.cons_ne_nil _ _) oldContiguous.2 late
            lastBound newContiguous ?_
          dsimp only
          omega

/-- The messages lie inside of the area. -/
theorem end_le (laid : Laid mon writeEnd unread)
    (isUnread : message ∈ unread)
    (writeBound : writeEnd ≤ LOG_STACK_MAX_SIZE) :
    message.offset + message.bytes.length ≤ LOG_STACK_MAX_SIZE := by
  cases laid with
  | sameLap contiguous early bound rest =>
      exact Nat.le_trans (contiguous.bounds isUnread).2 bound
  | caughtUp isFront late bound rest =>
      exact absurd isUnread List.not_mem_nil
  | @lapAhead old new last nonempty oldContiguous late bound newContiguous
      gap =>
      obtain isOld | isNew := List.mem_append.mp isUnread
      · exact Nat.le_trans (oldContiguous.bounds isOld).2 bound
      · exact Nat.le_trans (newContiguous.bounds isNew).2 writeBound

/-- What was granted stays granted when the oldest message is read. -/
theorem granted_updateReadSection
    (laid : Laid mon mon.ulLogWriteOffset (message :: rest))
    (granted : Granted mon offset avail)
    (writeBound : mon.ulLogWriteOffset ≤ LOG_STACK_MAX_SIZE) :
    Granted (Log.updateReadSection mon message.bytes.length) offset avail := by
  have isOldest := laid.oldest
  have isEnd := laid.end_le List.mem_cons_self writeBound
  rw [updateReadSection_eq (by omega) writeBound]
  obtain ⟨isWriter, roomy, inside, behind⟩ := granted
  split_ifs with isLate
  · exact ⟨isWriter, roomy, inside,
      fun isBehind => absurd isBehind (Nat.not_lt_zero _)⟩
  · refine ⟨isWriter, roomy, inside, ?_⟩
    intro isBehind
    dsimp only at isBehind ⊢
    generalize isAll : message :: rest = all at laid
    cases laid with
    | sameLap contiguous early bound avai =>
        subst isAll
        have afterwards := contiguous.2.le
        omega
    | caughtUp => cases isAll
    | lapAhead nonempty oldContiguous late bound newContiguous gap => omega

/-- The thread stores the end of its message. -/
theorem updateWriteSection {totaloffset : Nat}
    (laid : Laid mon (mon.ulLogWriteOffset + totaloffset) unread)
    (bound : mon.ulLogWriteOffset + totaloffset ≤ LOG_STACK_MAX_SIZE) :
    Laid (Log.updateWriteSection mon totaloffset)
      (Log.updateWriteSection mon totaloffset).ulLogWriteOffset unread := by
  have isEnd := updateWriteSection_writeOffset bound
  have isReader := @updateWriteSection_readOffset mon totaloffset
  have isAvai := @updateWriteSection_avai mon totaloffset
  generalize Log.updateWriteSection mon totaloffset = after at *
  rw [isEnd]
  have avai (rest : mon.ulLogAvaiMaxOffset + mon.ulLogWriteOffset =
      LOG_STACK_MAX_SIZE) :
      after.ulLogAvaiMaxOffset + after.ulLogWriteOffset =
        LOG_STACK_MAX_SIZE := by
    have covers : totaloffset ≤ mon.ulLogAvaiMaxOffset := by omega
    rw [isEnd, isAvai (Nat.le.intro rest) covers]
    omega
  cases laid with
  | sameLap contiguous early writeBound rest =>
      rw [← isReader] at contiguous early
      exact .sameLap contiguous early writeBound (avai rest)
  | caughtUp isFront late writeBound rest =>
      rw [← isReader] at isFront
      exact .caughtUp isFront late writeBound (avai rest)
  | lapAhead nonempty oldContiguous late lastBound newContiguous gap =>
      rw [← isReader] at oldContiguous gap
      exact .lapAhead nonempty oldContiguous late lastBound newContiguous gap

end Laid

namespace LogSpace

variable {ulMid : Nat} {space next : LogSpace}

/-- The end of the last message, which the thread may not yet have stored. -/
def writeEnd (space : LogSpace) : Nat :=
  match space.phase with
  | .written totaloffset => space.mon.ulLogWriteOffset + totaloffset
  | _ => space.mon.ulLogWriteOffset

/-- The space that a call of `pf_log` has in the area, with its tag. -/
structure Handed (ulMid : Nat) (space : LogSpace) (offset avail : Nat) :
    Prop where
  granted : Granted space.mon offset avail
  named : (UInt8.ofNat ulMid).toNat = ulMid
  isTag : space.memory offset = SYMBOL_SET_USE_LOG_SPACE
  isMid : space.memory (offset + 1) = UInt8.ofNat ulMid

/-- The invariant of the area of a thread. -/
structure Sound (ulMid : Nat) (space : LogSpace) : Prop where
  laid : Laid space.mon space.writeEnd space.unread
  proper : ∀ message ∈ space.unread, message.Proper ulMid space.memory
  handed : ∀ offset avail, space.phase = .handed offset avail →
    space.Handed ulMid offset avail

theorem writeOffset_le : space.mon.ulLogWriteOffset ≤ space.writeEnd := by
  unfold writeEnd
  cases space.phase with
  | written totaloffset => exact Nat.le_add_right _ _
  | idle => exact Nat.le_refl _
  | handed => exact Nat.le_refl _
  | heap => exact Nat.le_refl _

/-- The log thread does not move the writer. -/
@[simp] theorem writeOffset_read (ulMid : Nat) (space : LogSpace)
    (message : LogMessage) (rest : List LogMessage) :
    (space.read ulMid message rest).mon.ulLogWriteOffset =
      space.mon.ulLogWriteOffset := by
  unfold LogSpace.read
  dsimp only
  split
  · exact updateReadSection_writeOffset
  · rfl

@[simp] theorem writeEnd_read {message : LogMessage} {rest : List LogMessage} :
    (space.read ulMid message rest).writeEnd = space.writeEnd := by
  unfold writeEnd
  rw [writeOffset_read]
  rfl

namespace Sound

/-- No unread message begins in the space that is kept at the end of the log. -/
theorem early (sound : space.Sound ulMid) :
    ∀ message ∈ space.unread,
      message.offset + REMAINING_SPACE_SIZE < LOG_STACK_MAX_SIZE :=
  fun message isUnread => (sound.proper message isUnread).early

/-- The log starts in a sound state. -/
theorem start {memory : FlatMemory} : (LogSpace.start memory).Sound ulMid where
  laid := .sameLap rfl (by decide : 0 + REMAINING_SPACE_SIZE < _)
    (Nat.zero_le _) rfl
  proper := fun _ isUnread => absurd isUnread List.not_mem_nil
  handed := by
    intro offset avail isHanded
    cases isHanded

theorem laid_of_idle (sound : space.Sound ulMid)
    (isIdle : space.phase = .idle) :
    Laid space.mon space.mon.ulLogWriteOffset space.unread := by
  have laid := sound.laid
  unfold writeEnd at laid
  rwa [isIdle] at laid

theorem laid_of_handed (sound : space.Sound ulMid) {offset avail : Nat}
    (isHanded : space.phase = .handed offset avail) :
    Laid space.mon space.mon.ulLogWriteOffset space.unread := by
  have laid := sound.laid
  unfold writeEnd at laid
  rwa [isHanded] at laid

/-- Asking for space keeps the log sound. -/
theorem getLogInfo (sound : space.Sound ulMid)
    (isIdle : space.phase = .idle) :
    (space.getLogInfo ulMid).Sound ulMid := by
  have laid := sound.laid_of_idle isIdle
  have both := laid.getLogInfo sound.early
  unfold LogSpace.getLogInfo
  split
  case isFalse isOther =>
    exact ⟨laid, sound.proper, by intro offset avail isHanded; cases isHanded⟩
  case isTrue isTask =>
    generalize Log.getLogInfo space.mon = result at *
    obtain ⟨info, mon⟩ := result
    cases info with
    | none =>
        exact ⟨both.1, sound.proper,
          by intro offset avail isHanded; cases isHanded⟩
    | some region =>
        obtain ⟨offset, avail⟩ := region
        have granted := both.2 offset avail rfl
        have isNamed : (UInt8.ofNat ulMid).toNat = ulMid := by
          unfold MODULE_TASK_MAX at isTask
          rw [UInt8.toNat_ofNat', Nat.mod_eq_of_lt (by omega)]
        refine ⟨both.1, ?_, ?_⟩
        · intro message isUnread
          apply (sound.proper message isUnread).congr
          intro byte isInside
          have apart := both.1.apart granted isUnread
          have isOutside := apart.not_mem isInside
          apply storeBytes_outside
          have roomy := granted.roomy
          unfold REMAINING_SPACE_SIZE at roomy
          rw [Region.mem_iff] at isOutside ⊢
          dsimp only [List.length_cons, List.length_nil] at isOutside ⊢
          omega
        · intro other size isHanded
          cases isHanded
          refine ⟨granted, isNamed, Function.update_self _ _ _, ?_⟩
          exact (Function.update_of_ne (by omega) _ _).trans
            (Function.update_self _ _ _)

/-- Writing keeps the log sound. -/
theorem write (sound : space.Sound ulMid) {offset avail : Nat}
    {header body : List UInt8} (isHanded : space.phase = .handed offset avail)
    (notZero : ulMid ≠ 0) (fits : header.length + 6 ≤ avail) :
    (space.write offset avail header body).Sound ulMid := by
  have laid := sound.laid_of_handed isHanded
  obtain ⟨granted, isNamed, isTag, isMid⟩ := sound.handed _ _ isHanded
  have byteNotZero : UInt8.ofNat ulMid ≠ 0 := by
    intro isZero
    rw [isZero] at isNamed
    exact notZero isNamed.symm
  have inside := granted.inside
  have written := @pfLogText_isLogBytes space.memory offset avail header body
    (UInt8.ofNat ulMid) isTag isMid byteNotZero fits (by omega)
  unfold LogSpace.write
  generalize pfLogText space.memory offset avail header body = result at *
  obtain ⟨totaloffset, memory⟩ := result
  dsimp only at written ⊢
  obtain ⟨short, -, isWhole, isKept⟩ := written
  refine ⟨?_, ?_, by intro other size isOther; cases isOther⟩
  · have longer := @Laid.concat space.mon offset avail
      ⟨offset, bytesAt memory offset totaloffset⟩ space.unread laid granted rfl
      (by rwa [length_bytesAt])
    dsimp only at longer
    rw [length_bytesAt] at longer
    exact longer
  · intro message isMember
    obtain isUnread | isNew := List.mem_append.mp isMember
    · apply (sound.proper message isUnread).congr
      intro byte isInside
      apply isKept
      exact (laid.apart granted isUnread).not_mem isInside
    · obtain rfl := List.mem_singleton.mp isNew
      refine ⟨isNamed, isWhole, by rw [length_bytesAt], ?_⟩
      have roomy := granted.roomy
      dsimp only
      omega

/-- Reading keeps the log sound. -/
theorem read (sound : space.Sound ulMid) {message : LogMessage}
    {rest : List LogMessage} (isOldest : space.unread = message :: rest) :
    (space.read ulMid message rest).Sound ulMid := by
  have laid := sound.laid
  have writeBound := laid.bound sound.early
  have writeOffsetBound := Nat.le_trans writeOffset_le writeBound
  rw [isOldest] at laid
  have isUnread : message ∈ space.unread := by
    rw [isOldest]
    exact List.mem_cons_self
  have proper := sound.proper message isUnread
  have isEnd := laid.end_le List.mem_cons_self writeBound
  have isRest : ∀ other ∈ rest, other ∈ space.unread := by
    intro other isOther
    rw [isOldest]
    exact List.mem_cons_of_mem _ isOther
  have sameEnd := @writeEnd_read ulMid space message rest
  unfold LogSpace.read at sameEnd ⊢
  rw [proper.strlen_eq (by omega), proper.mid_eq] at sameEnd ⊢
  dsimp only at sameEnd ⊢
  rw [if_pos rfl] at sameEnd ⊢
  refine ⟨?_, fun other isOther => sound.proper other (isRest other isOther),
    ?_⟩
  · rw [sameEnd]
    exact laid.updateReadSection
      (fun other isOther => sound.early other (isRest other isOther))
      writeOffset_le
  · intro offset avail isHanded
    obtain ⟨granted, isNamed, isTag, isMid⟩ :=
      sound.handed offset avail isHanded
    have laidHanded := sound.laid_of_handed isHanded
    rw [isOldest] at laidHanded
    exact ⟨laidHanded.granted_updateReadSection granted writeOffsetBound,
      isNamed, isTag, isMid⟩

/-- One call that fits keeps the log sound. -/
theorem step {call : LogCall} (sound : space.Sound ulMid)
    (fits : space.Fits ulMid call) (first : Step ulMid space call next) :
    next.Sound ulMid := by
  cases first with
  | getLogInfo isIdle => exact sound.getLogInfo isIdle
  | write isHanded =>
      obtain ⟨notZero, bound⟩ := fits _ _ isHanded
      exact sound.write isHanded notZero bound
  | writeHeap isHeap =>
      refine ⟨?_, sound.proper, by intro offset avail isHanded; cases isHanded⟩
      have laid := sound.laid
      unfold writeEnd at laid
      rw [isHeap] at laid
      exact laid
  | updateWriteSection isWritten =>
      refine ⟨?_, sound.proper, by intro offset avail isHanded; cases isHanded⟩
      have laid := sound.laid
      have bound := laid.bound sound.early
      unfold writeEnd at laid bound
      rw [isWritten] at laid bound
      exact laid.updateWriteSection bound
  | read isOldest => exact sound.read isOldest

/-- A sound log is safe. -/
theorem safe (sound : space.Sound ulMid) : space.Safe where
  inside := fun offset avail isHanded =>
    (sound.handed offset avail isHanded).granted.inside
  apart := fun offset avail isHanded message isUnread =>
    (sound.laid_of_handed isHanded).apart
      (sound.handed offset avail isHanded).granted isUnread
  intact := fun message isUnread => (sound.proper message isUnread).intact
  oldest := by
    intro message rest isUnread
    have laid := sound.laid
    rw [isUnread] at laid
    exact laid.oldest

end Sound

/-- In every run whose messages fit, of a module that is not 0, nothing is
written over a message that is not yet output. -/
theorem safe_of_fits {memory : FlatMemory} {calls : List LogCall}
    (along : Along (Step ulMid) (Fits ulMid) (start memory) calls)
    (reached : Reached (Step ulMid) (start memory) calls space) :
    space.Safe := by
  have sound : space.Sound ulMid :=
    along.of_reached (Sound ulMid)
      (fun _ _ _ sound fits first => sound.step fits first) .start reached
  exact sound.safe

/-- The header of a message is shorter than the space that is always left. -/
def ShortHeader : LogCall → Prop
  | .write header _ => header.length + 6 ≤ REMAINING_SPACE_SIZE
  | _ => True

theorem Sound.fits {space : LogSpace} {call : LogCall}
    (sound : space.Sound ulMid) (notZero : ulMid ≠ 0)
    (short : ShortHeader call) : space.Fits ulMid call := by
  cases call with
  | write header body =>
      intro offset avail isHanded
      have roomy := (sound.handed offset avail isHanded).1.roomy
      exact ⟨notZero, Nat.le_of_lt (Nat.lt_of_le_of_lt short roomy)⟩
  | getLogInfo | updateWriteSection | read => trivial

/-- Short headers fit wherever a run has come to. -/
theorem along_fits {memory : FlatMemory} {calls : List LogCall}
    (notZero : ulMid ≠ 0) (short : ∀ call ∈ calls, ShortHeader call) :
    Along (Step ulMid) (Fits ulMid) (start memory) calls := by
  have allShort : Along (Step ulMid) (fun _ call => ShortHeader call)
      (start memory) calls := by
    apply Along.iff_forall_run.mpr
    rintro early call late space rfl -
    exact short call (by simp)
  refine Along.of_invariant ?_ ?_ (Sound.start : (start memory).Sound ulMid)
    allShort
  · intro space call next sound isShort step
    exact sound.step (sound.fits notZero isShort) step
  · intro space call sound isShort
    exact sound.fits notZero isShort

/-- What `pf_log` prints in front of a message. -/
def header : List UInt8 :=
  "20240101 08:00:00.000000[INF][001]".toList.map fun character =>
    UInt8.ofNat character.toNat


/-- The thread writes two messages, and the log thread outputs the first. -/
def someCalls : List LogCall :=
  [.getLogInfo, .write header [65], .updateWriteSection, .getLogInfo,
    .write header [66], .updateWriteSection, .read]

/-- A message of two characters is safe when it has been written. -/
theorem safe_of_fits_read :
    ∃ space, Run (Step 1) (start fun _ => 0) someCalls space ∧
      space.unread.length = 1 ∧ space.Safe := by
  have possible : ∃ space, Run (Step 1) (start fun _ => 0) someCalls space ∧
      space.unread.length = 1 :=
    ⟨_, .cons (.getLogInfo rfl) (.cons (.write rfl)
      (.cons (.updateWriteSection rfl) (.cons (.getLogInfo rfl)
        (.cons (.write rfl) (.cons (.updateWriteSection rfl)
          (.cons (.read rfl) (.nil _))))))), rfl⟩
  obtain ⟨space, run, isOne⟩ := possible
  have along : Along (Step 1) (Fits 1) (start fun _ => 0) someCalls := by
    apply along_fits (by decide)
    intro call isCall
    simp only [someCalls, List.mem_cons, List.not_mem_nil, or_false] at isCall
    rcases isCall with rfl | rfl | rfl | rfl | rfl | rfl | rfl
    case inr.inl | inr.inr.inr.inr.inl =>
      exact (by decide : header.length + 6 ≤ REMAINING_SPACE_SIZE)
    all_goals trivial
  exact ⟨space, run, isOne, safe_of_fits along
    ⟨someCalls, [], (List.append_nil _).symm, run⟩⟩

/-- The log thread does not go on behind a message of the module 0, which only
test builds have threads of: the number ends the string at the tag, and the end
of the line is written over it. -/
theorem exists_not_safe_zero :
    ∃ calls space, Run (Step 0) (start fun _ => 0) calls space ∧
      ¬space.Safe := by
  refine ⟨someCalls, _,
    .cons (.getLogInfo rfl) (.cons (.write rfl) (.cons
      (.updateWriteSection rfl) (.cons (.getLogInfo rfl) (.cons (.write rfl)
        (.cons (.updateWriteSection rfl) (.cons (.read rfl) (.nil _))))))),
    ?_⟩
  intro safe
  exact absurd (safe.oldest _ _ rfl) (by decide +kernel)

end LogSpace
end Log
end Pilot2Cloud
