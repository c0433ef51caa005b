import Pilot2Cloud.InterMsg.Framing

/-!
# Parsing the messages that have arrived

The receiver copies the messages that have arrived completely.  Where the bytes
end inside of a message it reads the length of that message all the same, from
whatever is in the array, and stops when the length asks for more bytes.
-/

namespace Pilot2Cloud
namespace InterMsg

open Foundation Words Memory

variable {pcBuf : Block} {message : Message} {messages : List Message}
  {offset count readNum fuel length : Nat}

/-! ## One message -/

/-- The length of a message is found once twelve bytes have arrived. -/
theorem member_length {rest : List UInt8}
    (has : pcBuf.Has offset ((message.frame ++ rest).take count))
    (enough : 12 ≤ count) :
    member pcBuf (offset + 8) = .ok message.payload.length := by
  have split : (message.frame ++ rest).take count =
      wordBytes message.srcModuleId.toNat ++
        (wordBytes message.dstModuleId.toNat ++
          (wordBytes message.payload.length ++
            (wordBytes message.msgId.toNat ++
              (message.unused ++ message.payload) ++ rest).take
                (count - 12))) := by
    simp only [Message.frame, List.append_assoc]
    rw [List.take_append, List.take_of_length_le (by
      rw [length_wordBytes]; omega), List.take_append,
      List.take_of_length_le (by simp only [length_wordBytes]; omega),
      List.take_append, List.take_of_length_le (by
        simp only [length_wordBytes]; omega)]
    simp only [length_wordBytes, Nat.sub_sub]
  rw [split] at has
  simp only [Block.has_append, length_wordBytes] at has
  obtain ⟨-, -, third, -⟩ := has
  unfold member
  rw [Nat.add_assoc] at third
  rw [third.readAt (length_wordBytes _), ok_bind, pure_eq_ok, wordBytes,
    littleEndian_littleEndianBytes 4 _ message.payloadSize]

/-- A message that has arrived is copied. -/
theorem copyMsg_of_has (has : pcBuf.Has offset message.frame) :
    copyMsg pcBuf offset message.payload.length = .ok message.copied := by
  unfold Message.frame at has
  simp only [Block.has_append, length_wordBytes, message.unusedSize] at has
  obtain ⟨first, second, -, fourth, -, last⟩ := has
  have word : ∀ {position : Nat} (value : UInt32),
      pcBuf.Has position (wordBytes value.toNat) →
        member pcBuf position = .ok value.toNat := by
    intro position value there
    rw [member, there.readAt (length_wordBytes _), ok_bind, pure_eq_ok,
      wordBytes, littleEndian_littleEndianBytes 4 _ value.toNat_lt]
  have place : offset + 4 + 4 + 4 = offset + 12 := by omega
  have behind : offset + 4 + 4 + 4 + 4 + 112 = offset + mboxLen := by
    unfold mboxLen
    omega
  rw [place] at fourth
  rw [behind] at last
  rw [copyMsg, word _ first, ok_bind, word _ fourth, ok_bind,
    word _ second, ok_bind, last.readAt rfl, ok_bind]
  rfl

/-- A message that does not end inside of the array is not copied. -/
theorem copyMsg_error (outside : pcBuf.length < offset + mboxLen + length) :
    ∃ fault, copyMsg pcBuf offset length = .error fault := by
  have failed : pcBuf.readAt (offset + mboxLen) length =
      .error .readPastEnd := if_neg (Nat.not_le.mpr outside)
  unfold copyMsg
  cases member pcBuf offset with
  | error fault => exact ⟨fault, rfl⟩
  | ok srcModuleId =>
      cases member pcBuf (offset + 12) with
      | error fault => exact ⟨fault, rfl⟩
      | ok msgId =>
          cases member pcBuf (offset + 4) with
          | error fault => exact ⟨fault, rfl⟩
          | ok dstModuleId =>
              rw [failed]
              exact ⟨_, rfl⟩

/-! ## All messages -/

/-- The receiver stops at an offset: nothing is left, or what it takes for the
length of the next message asks for more bytes. -/
def Stops (pcBuf : Block) (offset readNum : Nat) : Prop :=
  offset = readNum ∨
    ∃ length, member pcBuf (offset + 8) = .ok length ∧
      readNum < wrap (offset + mboxLen + length)

/-- The receiver goes on behind a message that has arrived. -/
theorem copyMsgs_of_arrived {rest : List UInt8}
    (has : pcBuf.Has offset ((message.frame ++ rest).take count))
    (arrived : message.frame.length ≤ count)
    (isEnd : readNum = offset + count) (small : readNum < 2 ^ 32) :
    copyMsgs pcBuf readNum (fuel + 1) offset = (do
      let (last, others) ←
        copyMsgs pcBuf readNum fuel (offset + message.frame.length)
      return (last, message.copied :: others)) := by
  have isLength := message.length_frame
  have whole : pcBuf.Has offset message.frame := by
    rw [List.take_append, List.take_of_length_le arrived] at has
    exact (Block.has_append.mp has).1
  have next : wrap (offset + mboxLen + message.payload.length) =
      offset + message.frame.length := by
    rw [isLength, Nat.add_assoc]
    apply wrap_of_lt
    omega
  have more : offset < readNum := by
    unfold mboxLen at isLength
    omega
  rw [copyMsgs, if_pos more, member_length has (by
    unfold mboxLen at isLength; omega), ok_bind, next, if_pos (by omega),
    copyMsg_of_has whole, ok_bind]

/-- What the receiver does where no message is complete. -/
theorem copyMsgs_of_short
    (isNext : complete Message.frame messages count = [])
    (has : pcBuf.Has offset
      ((messages.flatMap Message.frame).take count))
    (bound : count ≤ (messages.flatMap Message.frame).length)
    (isEnd : readNum = offset + count)
    (large : pcBuf.length < 2 ^ 32) :
    (Stops pcBuf offset readNum ∧
      copyMsgs pcBuf readNum (fuel + 1) offset = .ok (offset, [])) ∨
    (¬Stops pcBuf offset readNum ∧
      ∃ fault, copyMsgs pcBuf readNum (fuel + 1) offset = .error fault) := by
  by_cases finished : offset = readNum
  · refine .inl ⟨.inl finished, ?_⟩
    rw [copyMsgs, if_neg (by omega)]
    rfl
  have more : offset < readNum := by omega
  rw [copyMsgs, if_pos more]
  unfold Stops
  cases isLength : member pcBuf (offset + 8) with
  | error fault =>
      refine .inr ⟨?_, fault, rfl⟩
      rintro (same | ⟨length, read, -⟩)
      · exact finished same
      · contradiction
  | ok length =>
      rw [ok_bind]
      by_cases stops : readNum < wrap (offset + mboxLen + length)
      · refine .inl ⟨.inr ⟨length, rfl, stops⟩, ?_⟩
        rw [if_neg (Nat.not_le.mpr stops)]
        rfl
      · -- the sum has wrapped, because the message is not complete
        have beyond : readNum < offset + mboxLen + length := by
          obtain few | enough := Nat.lt_or_ge count mboxLen
          · omega
          cases messages with
          | nil =>
              rw [List.flatMap_nil, List.length_nil] at bound
              omega
          | cons message messages =>
              obtain short | arrived :=
                Nat.lt_or_ge count message.frame.length
              · rw [List.flatMap_cons] at has
                rw [member_length has (by unfold mboxLen at enough; omega)]
                  at isLength
                obtain rfl := Except.ok.inj isLength
                have frameLength := message.length_frame
                omega
              · rw [complete_of_arrived arrived] at isNext
                contradiction
        have wrapped : 2 ^ 32 ≤ offset + mboxLen + length := by
          by_contra small
          rw [wrap_of_lt (Nat.not_le.mp small)] at stops
          exact stops beyond
        obtain ⟨fault, failed⟩ := @copyMsg_error pcBuf offset length
          (by omega)
        refine .inr ⟨?_, fault, ?_⟩
        · rintro (same | ⟨other, read, enough⟩)
          · exact finished same
          · obtain rfl := Except.ok.inj read
            exact stops enough
        · rw [if_pos (Nat.not_lt.mp stops), failed]
          rfl

/-- The receiver copies the messages that are complete and stops behind them, or
it ends in a fault. -/
theorem copyMsgs_cases
    (has : pcBuf.Has offset
      ((messages.flatMap Message.frame).take count))
    (bound : count ≤ (messages.flatMap Message.frame).length)
    (isEnd : readNum = offset + count)
    (large : pcBuf.length < 2 ^ 32) (enough : count < fuel) :
    let last :=
      readNum - leftover Message.frame messages count
    (Stops pcBuf last readNum ∧
      copyMsgs pcBuf readNum fuel offset =
        .ok (last, (complete Message.frame messages count).map
          Message.copied)) ∨
    (¬Stops pcBuf last readNum ∧
      ∃ fault, copyMsgs pcBuf readNum fuel offset = .error fault) := by
  have inside := has.inside
  rw [List.length_take, Nat.min_eq_left bound] at inside
  induction messages generalizing offset count fuel with
  | nil =>
      rw [List.flatMap_nil, List.length_nil] at bound
      obtain ⟨fuel, rfl⟩ := Nat.exists_eq_add_of_lt enough
      have isLast : readNum - leftover Message.frame [] count = offset := by
        rw [leftover]
        omega
      simp only [isLast]
      exact copyMsgs_of_short rfl has (by simpa using bound) isEnd large
  | cons message messages inductionHypothesis =>
      obtain short | arrived := Nat.lt_or_ge count message.frame.length
      · obtain ⟨fuel, rfl⟩ := Nat.exists_eq_add_of_lt enough
        have isLast : readNum -
            leftover Message.frame (message :: messages) count = offset := by
          rw [leftover_of_short short]
          omega
        simp only [isLast, complete_of_short short, List.map_nil]
        exact copyMsgs_of_short (complete_of_short short) has bound isEnd
          large
      · obtain ⟨fuel, rfl⟩ : ∃ less, fuel = less + 1 :=
          ⟨fuel - 1, by omega⟩
        have isLength := message.length_frame
        unfold mboxLen at isLength
        rw [List.flatMap_cons] at has bound
        have later : pcBuf.Has (offset + message.frame.length)
            ((messages.flatMap Message.frame).take
              (count - message.frame.length)) := by
          rw [List.take_append, List.take_of_length_le arrived] at has
          exact (Block.has_append.mp has).2
        rw [List.length_append] at bound
        rw [copyMsgs_of_arrived has arrived isEnd (by omega)]
        simp only [leftover_of_arrived arrived, complete_of_arrived arrived,
          List.map_cons]
        obtain ⟨stops, copied⟩ | ⟨goesOn, fault, failed⟩ :=
          @inductionHypothesis _ _ fuel later (by omega) (by omega)
            (by omega) (by omega)
        · refine .inl ⟨stops, ?_⟩
          rw [copied]
          rfl
        · refine .inr ⟨goesOn, fault, ?_⟩
          rw [failed]
          rfl

/-- `unsocket_copy_msg` of the bytes of some messages. -/
theorem unsocketCopyMsg_cases (positive : 0 < count)
    (has : pcBuf.Has 0 ((messages.flatMap Message.frame).take count))
    (bound : count ≤ (messages.flatMap Message.frame).length)
    (large : pcBuf.length < 2 ^ 32) :
    let last := count - leftover Message.frame messages count
    (Stops pcBuf last count ∧
      unsocketCopyMsg pcBuf count =
        .ok (last, (complete Message.frame messages count).map
          Message.copied)) ∨
    (¬Stops pcBuf last count ∧
      ∃ fault, unsocketCopyMsg pcBuf count = .error fault) := by
  have same : unsocketCopyMsg pcBuf count =
      copyMsgs pcBuf count (count + 1) 0 := by
    rw [copyMsgs, if_pos positive, Nat.zero_add, Nat.zero_add]
    rfl
  rw [same]
  exact copyMsgs_cases has bound (Nat.zero_add _).symm large (by omega)

end InterMsg
end Pilot2Cloud
