import Pilot2Cloud.InterMsg.Parsing

/-!
# Scanning any bytes

Any bytes are some complete messages with a part of another one behind them.
The receiver looks at the length of that one whether or not it has arrived, and
adds it up in 32 bits.
-/

namespace Pilot2Cloud
namespace InterMsg

open Foundation Words Memory

variable {bytes rest : List UInt8} {messages : List Message}

/-! ## Splitting bytes into messages -/

/-- Bytes of the size of a message are one. -/
theorem exists_frame (long : mboxLen ≤ bytes.length)
    (isSize : bytes.length = mboxLen + wordAt bytes 8) :
    ∃ message : Message, message.frame = bytes := by
  unfold mboxLen at long isSize
  have small := wordAt_lt bytes 8
  have word : ∀ offset, offset + 4 ≤ bytes.length →
      wordBytes (UInt32.ofNat (wordAt bytes offset)).toNat =
        (bytes.drop offset).take 4 := by
    intro offset inside
    rw [UInt32.toNat_ofNat', Nat.mod_eq_of_lt (wordAt_lt bytes offset)]
    exact wordBytes_wordAt bytes inside
  have payload : (bytes.drop 128).length = wordAt bytes 8 := by
    rw [List.length_drop]
    omega
  refine ⟨⟨.ofNat (wordAt bytes 0), .ofNat (wordAt bytes 4),
    .ofNat (wordAt bytes 12), (bytes.drop 16).take 112, bytes.drop 128,
    ?_, ?_⟩, ?_⟩
  · rw [List.length_take, List.length_drop]
    omega
  · omega
  · have again : ∀ offset count, (bytes.drop offset).take count ++
        bytes.drop (offset + count) = bytes.drop offset := by
      intro offset count
      rw [← List.drop_drop, List.take_append_drop]
    rw [Message.frame]
    simp only
    rw [word 0 (by omega), word 4 (by omega), word 12 (by omega), payload,
      wordBytes_wordAt bytes (by omega), again 16 112, again 12 4, again 8 4,
      again 4 4, again 0 4, List.drop_zero]

/-- The bytes do not have a complete message at their start. -/
def Incomplete (rest : List UInt8) : Prop :=
  rest.length < mboxLen + wordAt rest 8

/-- Bytes that are not complete are the first ones of a message. -/
theorem Incomplete.exists_message (incomplete : Incomplete rest) :
    ∃ message : Message, rest <+: message.frame ∧
      rest.length < message.frame.length := by
  unfold Incomplete at incomplete
  -- the bytes up to the length are filled up first
  obtain ⟨head, isHead, enough, same⟩ : ∃ head : List UInt8, rest <+: head ∧
      12 ≤ head.length ∧ (rest.length < 12 ∧ head.length = 12 ∨
        head = rest) := by
    obtain short | enough := Nat.lt_or_ge rest.length 12
    · refine ⟨rest ++ List.replicate (12 - rest.length) 0,
        List.prefix_append _ _, ?_, .inl ⟨short, ?_⟩⟩
      · rw [List.length_append, List.length_replicate]
        omega
      · rw [List.length_append, List.length_replicate]
        omega
    · exact ⟨rest, List.prefix_rfl, enough, .inr rfl⟩
  have inside : head.length < mboxLen + wordAt head 8 := by
    obtain ⟨-, isTwelve⟩ | rfl := same
    · unfold mboxLen
      omega
    · exact incomplete
  obtain ⟨message, isFrame⟩ := @exists_frame (head ++
    List.replicate (mboxLen + wordAt head 8 - head.length) 0)
    (by rw [List.length_append, List.length_replicate]; omega)
    (by
      rw [List.length_append, List.length_replicate,
        wordAt_append_left _ _ enough]
      omega)
  have length := isHead.length_le
  refine ⟨message, ?_, ?_⟩
  · rw [isFrame]
    exact isHead.trans (List.prefix_append _ _)
  · rw [isFrame, List.length_append, List.length_replicate]
    omega

/-- Any bytes are complete messages and a part of another one. -/
theorem exists_split (bytes : List UInt8) :
    ∃ (messages : List Message) (rest : List UInt8),
      bytes = messages.flatMap Message.frame ++ rest ∧ Incomplete rest := by
  induction count : bytes.length using Nat.strong_induction_on
    generalizing bytes with
  | _ count inductionHypothesis =>
      obtain incomplete | complete := Nat.lt_or_ge bytes.length
        (mboxLen + wordAt bytes 8)
      · exact ⟨[], bytes, rfl, incomplete⟩
      have taken : (bytes.take (mboxLen + wordAt bytes 8)).length =
          mboxLen + wordAt bytes 8 := by
        rw [List.length_take]
        omega
      have same : wordAt (bytes.take (mboxLen + wordAt bytes 8)) 8 =
          wordAt bytes 8 :=
        wordAt_take bytes (by unfold mboxLen; omega) complete
      obtain ⟨first, isFirst⟩ := @exists_frame
        (bytes.take (mboxLen + wordAt bytes 8)) (by omega) (by omega)
      obtain ⟨messages, rest, isRest, incomplete⟩ :=
        inductionHypothesis _ (by
          rw [List.length_drop, ← count]
          unfold mboxLen at *
          omega) (bytes.drop (mboxLen + wordAt bytes 8)) rfl
      refine ⟨first :: messages, rest, ?_, incomplete⟩
      rw [List.flatMap_cons, isFirst, List.append_assoc, ← isRest,
        List.take_append_drop]

/-! ## What the receiver does with any bytes -/

/-- Bytes that were all written. -/
theorem has_map_some (bytes : List UInt8) :
    Block.Has (bytes.map some) 0 bytes where
  inside := by
    rw [List.length_map, Nat.zero_add]
  cells := by
    intro index bound
    rw [Nat.zero_add, List.getElem?_map]

@[simp] theorem readAt_map_some (bytes : List UInt8) (offset count : Nat) :
    Block.readAt (bytes.map some) offset count =
      Memory.read bytes offset count := by
  have cells : Block.written (((bytes.map some).drop offset).take count) =
      some ((bytes.drop offset).take count) := by
    rw [Block.written_eq_some_iff, List.map_take, List.map_drop]
  rw [Block.readAt, Memory.read, List.length_map, cells]

/-- The receiver copies the complete messages, if it stops behind them. -/
theorem unsocketCopyMsg_of_split
    (isBytes : bytes = messages.flatMap Message.frame ++ rest)
    (incomplete : Incomplete rest) (nonempty : bytes ≠ [])
    (small : bytes.length < 2 ^ 32) :
    let last := (messages.flatMap Message.frame).length
    (Stops (bytes.map some) last bytes.length ∧
      unsocketCopyMsg (bytes.map some) bytes.length =
        .ok (last, messages.map Message.copied)) ∨
    (¬Stops (bytes.map some) last bytes.length ∧
      ∃ fault, unsocketCopyMsg (bytes.map some) bytes.length =
        .error fault) := by
  obtain ⟨next, isPart, short⟩ := incomplete.exists_message
  have stream : bytes <+: (messages ++ [next]).flatMap Message.frame := by
    rw [isBytes, List.flatMap_append, List.flatMap_singleton]
    exact (List.prefix_append_right_inj _).mpr isPart
  have length : bytes.length =
      (messages.flatMap Message.frame).length + rest.length := by
    rw [isBytes, List.length_append]
  obtain ⟨isComplete, isLeft⟩ :=
    @complete_append _ Message.frame next messages [] rest.length short
  rw [← length] at isComplete isLeft
  have has : Block.Has (bytes.map some) 0
      (((messages ++ [next]).flatMap Message.frame).take bytes.length) := by
    rw [← List.prefix_iff_eq_take.mp stream]
    exact has_map_some bytes
  have cases := unsocketCopyMsg_cases (List.length_pos_iff.mpr nonempty) has
    stream.length_le (by rwa [List.length_map])
  simp only [isComplete, isLeft] at cases
  rwa [show bytes.length - rest.length =
    (messages.flatMap Message.frame).length by omega] at cases

/-- The bytes are complete messages, and behind them is nothing, or the start of
a message up to its length, which asks for more bytes when it is added up in 32
bits. -/
def EndsInside (bytes : List UInt8) : Prop :=
  ∃ (messages : List Message) (rest : List UInt8),
    bytes = messages.flatMap Message.frame ++ rest ∧
      ((rest = [] ∧ messages ≠ []) ∨
        (12 ≤ rest.length ∧
          bytes.length < wrap ((messages.flatMap Message.frame).length +
            mboxLen + wordAt rest 8)))

/-- The receiver ends inside of the bytes, of which every message that it copies
is a part.  Only the bytes that were read are in the array, so that it looks at
no others. -/
def ScansInside (bytes : List UInt8) : Prop :=
  ∃ last copied,
    unsocketCopyMsg (bytes.map some) bytes.length = .ok (last, copied) ∧
    last ≤ bytes.length ∧
    ∀ message ∈ copied, ∃ offset,
      offset + mboxLen + message.data.length ≤ last ∧
        message.data =
          (bytes.drop (offset + mboxLen)).take message.data.length

theorem not_scansInside_of_error {fault : Fault}
    (failed : unsocketCopyMsg (bytes.map some) bytes.length =
      .error fault) : ¬ScansInside bytes := by
  rintro ⟨last, copied, scanned, -⟩
  rw [failed] at scanned
  contradiction

/-- The length of the message that is not complete. -/
theorem member_rest
    (isBytes : bytes = messages.flatMap Message.frame ++ rest) {length : Nat} :
    member (bytes.map some) ((messages.flatMap Message.frame).length + 8) =
        .ok length ↔
      12 ≤ rest.length ∧ length = wordAt rest 8 := by
  have total : bytes.length =
      (messages.flatMap Message.frame).length + rest.length := by
    rw [isBytes, List.length_append]
  have isWord : wordAt bytes ((messages.flatMap Message.frame).length + 8) =
      wordAt rest 8 := by
    rw [isBytes, wordAt_append_right]
  rw [← isWord, member, readAt_map_some, Memory.read]
  obtain enough | short := Nat.lt_or_ge rest.length 12
  · rw [if_neg (by omega)]
    constructor
    · intro failed
      contradiction
    · rintro ⟨enough, -⟩
      omega
  · rw [if_pos (by omega), ok_bind, pure_eq_ok, Except.ok.injEq, eq_comm,
      and_iff_right short]
    rfl

theorem scanStops_iff (isBytes : bytes = messages.flatMap Message.frame ++ rest) :
    Stops (bytes.map some) (messages.flatMap Message.frame).length
        bytes.length ↔
      rest = [] ∨
        (12 ≤ rest.length ∧
          bytes.length < wrap ((messages.flatMap Message.frame).length +
            mboxLen + wordAt rest 8)) := by
  have length : bytes.length =
      (messages.flatMap Message.frame).length + rest.length := by
    rw [isBytes, List.length_append]
  unfold Stops
  constructor
  · rintro (same | ⟨count, isLength, more⟩)
    · exact .inl (List.length_eq_zero_iff.mp (by omega))
    · obtain ⟨enough, rfl⟩ := (member_rest isBytes).mp isLength
      exact .inr ⟨enough, more⟩
  · rintro (rfl | ⟨enough, more⟩)
    · exact .inl (by rw [length]; rfl)
    · exact .inr ⟨_, (member_rest isBytes).mpr ⟨enough, rfl⟩, more⟩

/-- The payload of a complete message is in the bytes. -/
theorem exists_payload
    (isBytes : bytes = messages.flatMap Message.frame ++ rest)
    {message : Message} (isMessage : message ∈ messages) :
    ∃ offset, offset + mboxLen + message.payload.length ≤
        (messages.flatMap Message.frame).length ∧
      message.payload = (bytes.drop (offset + mboxLen)).take
        message.payload.length := by
  obtain ⟨front, back, rfl⟩ := List.append_of_mem isMessage
  refine ⟨(front.flatMap Message.frame).length, ?_, ?_⟩
  · rw [List.flatMap_append, List.flatMap_cons, List.length_append,
      List.length_append, message.length_frame]
    omega
  · obtain ⟨header, isHeader, isFrame⟩ := message.exists_header
    have start : (front.flatMap Message.frame).length + mboxLen =
        (front.flatMap Message.frame ++ header).length := by
      rw [List.length_append, isHeader]
    rw [start, isBytes, List.flatMap_append, List.flatMap_cons, isFrame]
    simp only [← List.append_assoc]
    rw [List.append_assoc, List.append_assoc, List.drop_left,
      List.take_left]

/-- The receiver stays inside of any bytes exactly when they end so that it
stops. -/
theorem scansInside_iff (small : bytes.length < 2 ^ 32) :
    ScansInside bytes ↔ EndsInside bytes := by
  constructor
  · intro scans
    have nonempty : bytes ≠ [] := by
      rintro rfl
      exact not_scansInside_of_error rfl scans
    obtain ⟨messages, rest, isBytes, incomplete⟩ := exists_split bytes
    obtain ⟨stops, -⟩ | ⟨-, fault, failed⟩ :=
      unsocketCopyMsg_of_split isBytes incomplete nonempty small
    · refine ⟨messages, rest, isBytes, ?_⟩
      obtain rfl | more := (scanStops_iff isBytes).mp stops
      · refine .inl ⟨rfl, ?_⟩
        rintro rfl
        exact nonempty isBytes
      · exact .inr more
    · exact absurd scans (not_scansInside_of_error failed)
  · rintro ⟨messages, rest, isBytes, ends⟩
    have incomplete : Incomplete rest := by
      unfold Incomplete
      obtain ⟨rfl, -⟩ | ⟨-, more⟩ := ends
      · exact Nat.lt_of_lt_of_le (by decide) (Nat.le_add_right mboxLen _)
      · have length := congrArg List.length isBytes
        have less : wrap ((messages.flatMap Message.frame).length +
            mboxLen + wordAt rest 8) ≤ _ := Nat.mod_le _ _
        rw [List.length_append] at length
        omega
    have nonempty : bytes ≠ [] := by
      rw [isBytes, ← List.length_pos_iff, List.length_append]
      obtain ⟨-, isSome⟩ | ⟨enough, -⟩ := ends
      · obtain ⟨first, others, rfl⟩ := List.exists_cons_of_ne_nil isSome
        rw [List.flatMap_cons, List.length_append, first.length_frame]
        unfold mboxLen
        omega
      · omega
    have stops := (scanStops_iff isBytes).mpr (ends.imp_left And.left)
    obtain ⟨-, scanned⟩ | ⟨goesOn, -⟩ :=
      unsocketCopyMsg_of_split isBytes incomplete nonempty small
    · refine ⟨_, _, scanned, ?_, ?_⟩
      · rw [isBytes, List.length_append]
        omega
      · intro copied isCopied
        obtain ⟨message, isMessage, rfl⟩ := List.mem_map.mp isCopied
        exact exists_payload isBytes isMessage
    · exact absurd stops goesOn

/-- A message of two characters. -/
def shortMessage : Message where
  srcModuleId := 1
  dstModuleId := 2
  msgId := 3
  unused := List.replicate 112 255
  payload := [65, 66]
  unusedSize := by rw [List.length_replicate]
  payloadSize := by decide

/-- Two messages with a payload and the header of a third one. -/
theorem scansInside_iff_twoMessages :
    ScansInside ([shortMessage, shortMessage].flatMap Message.frame ++
      shortMessage.frame.take 128) := by
  have length : ([shortMessage, shortMessage].flatMap Message.frame).length =
      260 := by decide +kernel
  have rest : (shortMessage.frame.take 128).length = 128 := by decide +kernel
  have small : ([shortMessage, shortMessage].flatMap Message.frame ++
      shortMessage.frame.take 128).length < 2 ^ 32 := by
    rw [List.length_append, length, rest]
    decide
  apply (scansInside_iff small).mpr
  refine ⟨_, _, rfl, .inr ⟨?_, ?_⟩⟩
  · rw [rest]
    decide
  · rw [List.length_append, length, rest]
    decide +kernel

/-- The structure of a message whose length makes 0 in 32 bits with its size. -/
def wrappedMessage : List UInt8 :=
  List.replicate 8 0 ++ (wordBytes (2 ^ 32 - 128) ++ List.replicate 116 0)

/-- The message would be copied, although its payload is not in the bytes. -/
theorem not_scansInside_wrapped : ¬ScansInside wrappedMessage := by
  have length : wrappedMessage.length = 128 := by
    simp only [wrappedMessage, List.length_append, List.length_replicate,
      length_wordBytes]
  have word : wordAt wrappedMessage 8 = 2 ^ 32 - 128 := by
    have here := wordAt_append_right (List.replicate 8 0)
      (wordBytes (2 ^ 32 - 128) ++ List.replicate 116 0) 0
    rw [List.length_replicate, Nat.add_zero,
      wordAt_wordBytes_append _ _ (by decide)] at here
    exact here
  have isBytes : wrappedMessage =
      ([] : List Message).flatMap Message.frame ++ wrappedMessage := rfl
  have nonempty : wrappedMessage ≠ [] := by
    rw [← List.length_pos_iff, length]
    decide
  obtain ⟨stops, -⟩ | ⟨-, fault, failed⟩ := unsocketCopyMsg_of_split isBytes
    (by rw [Incomplete, length, word]; decide) nonempty
    (by rw [length]; decide)
  · obtain isEmpty | ⟨-, more⟩ := (scanStops_iff isBytes).mp stops
    · exact absurd isEmpty nonempty
    · rw [length, word] at more
      exact absurd more (by decide)
  · exact not_scansInside_of_error failed

end InterMsg
end Pilot2Cloud
