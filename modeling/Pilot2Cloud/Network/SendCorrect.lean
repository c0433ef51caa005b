import Mathlib.Data.List.TakeWhile
import Pilot2Cloud.Network.Send

/-!
# What a send call puts on the connection

On a connection that accepts every packet, `Send` writes exactly the fragments
of the message although it stores packet heads into the message buffer on the
way: a head only ever covers bytes that have already been written.  The one
obstacle is a payload shorter than the part of the head that does not fit
behind the message header, where the store starts before the buffer.
-/

namespace Pilot2Cloud
namespace Network

open Foundation Words Memory

/-! ## Counting fragments -/

/-- The fragments but the last do not exhaust the payload. -/
theorem fragmentCount_pred_mul_lt
    (size step : Nat) (stepPositive : 0 < step) (large : 16 + step < size) :
    (fragmentCount size step - 1) * step < size - 16 := by
  have quotient := Nat.div_mul_le_self (size - 16 + step - 1) step
  unfold fragmentCount
  rw [Nat.sub_mul, Nat.one_mul]
  omega

/-- All fragments together cover the payload. -/
theorem le_fragmentCount_mul
    (size step : Nat) (stepPositive : 0 < step) :
    size - 16 ≤ fragmentCount size step * step := by
  have remainder := Nat.mod_lt (size - 16 + step - 1) stepPositive
  have division := Nat.div_add_mod (size - 16 + step - 1) step
  unfold fragmentCount
  rw [Nat.mul_comm] at division
  omega

/-- A message that does not fit in one packet has at least two fragments. -/
theorem two_le_fragmentCount
    (size step : Nat) (stepPositive : 0 < step) (large : 16 + step < size) :
    2 ≤ fragmentCount size step := by
  rw [fragmentCount, Nat.le_div_iff_mul_le stepPositive]
  omega

theorem fragmentCount_le
    (size step : Nat) (stepPositive : 0 < step) :
    fragmentCount size step ≤ size - 16 := by
  by_cases empty : size - 16 = 0
  · rw [fragmentCount, empty, Nat.zero_add,
      Nat.div_eq_of_lt (Nat.sub_lt stepPositive Nat.one_pos)]
  · rw [fragmentCount, Nat.div_le_iff_le_mul_add_pred stepPositive]
    have grows : size - 16 ≤ step * (size - 16) :=
      Nat.le_mul_of_pos_left _ stepPositive
    omega

/-- Every fragment starts inside the payload. -/
theorem fragment_start_lt
    (size step : Nat) {index : Nat} (stepPositive : 0 < step)
    (large : 16 + step < size) (bound : index < fragmentCount size step) :
    index * step < size - 16 := by
  have last := fragmentCount_pred_mul_lt size step stepPositive large
  have before : index * step ≤ (fragmentCount size step - 1) * step :=
    Nat.mul_le_mul_right step (by omega)
  omega

/-- Every fragment but the last carries a full payload. -/
theorem fragment_end_lt
    (size step : Nat) {index : Nat} (stepPositive : 0 < step)
    (large : 16 + step < size) (bound : index + 1 < fragmentCount size step) :
    index * step + step < size - 16 := by
  have next := fragment_start_lt size step stepPositive large bound
  rw [Nat.succ_mul] at next
  exact next

/-! ## The loop over the remaining fragments -/

/-- An environment in which allocations succeed and packets are accepted. -/
structure Accepting (environment : SendEnvironment) : Prop where
  mallocSucceeds : ∀ size, environment.malloc size = true
  packetAccepted : ∀ packet, environment.sendData packet = true

/-- Storing a packet head just before the unsent payload leaves the unsent
payload alone, and the packet read back is the head followed by it. -/
theorem read_of_overwrite_head
    (data : List UInt8) (position count : Nat) {head : List UInt8}
    (headLength : head.length = 40)
    (inside : position + 40 + count ≤ data.length) :
    ∃ next, overwrite data position head = .ok next ∧
      next.length = data.length ∧
      next.drop (position + 40) = data.drop (position + 40) ∧
      read next position (count + 40) =
        .ok (head ++ (data.drop (position + 40)).take count) := by
  have fits : position + head.length ≤ data.length := by omega
  have frontLength : (data.take position).length = position := by
    rw [List.length_take]
    omega
  refine ⟨_, overwrite_of_inside fits, ?_, ?_, ?_⟩
  · simp only [List.length_append, List.length_take, List.length_drop]
    omega
  · rw [List.drop_append_of_le_length (by
        rw [List.length_append, frontLength]; omega),
      List.drop_eq_nil_of_le (by
        rw [List.length_append, frontLength]; omega),
      List.nil_append, headLength]
  · rw [read_of_inside (by
        simp only [List.length_append, List.length_take, List.length_drop]
        omega),
      List.append_assoc,
      List.drop_append_of_le_length (by rw [frontLength]),
      List.drop_eq_nil_of_le (by rw [frontLength]), List.nil_append,
      List.take_append, headLength,
      List.take_of_length_le (by omega), Nat.add_sub_cancel]

/-- The outcome of offering packets one after the other until one is
refused. -/
def acceptedOf (environment : SendEnvironment) (packets : List (List UInt8)) :
    SendOutcome where
  written := packets.takeWhile environment.sendData
  result := packets.all environment.sendData

theorem acceptedOf_cons
    {environment : SendEnvironment} {packet : List UInt8}
    {packets : List (List UInt8)} :
    acceptedOf environment (packet :: packets) =
      if environment.sendData packet then
        ⟨packet :: (acceptedOf environment packets).written,
          (acceptedOf environment packets).result⟩
      else ⟨[], false⟩ := by
  unfold acceptedOf
  split_ifs with accepted
  · rw [List.takeWhile_cons_of_pos accepted, List.all_cons, accepted,
      Bool.true_and]
  · rw [List.takeWhile_cons_of_neg accepted, List.all_cons,
      Bool.eq_false_iff.mpr accepted, Bool.false_and]

theorem sendPacket_eq_acceptedOf
    {environment : SendEnvironment} {packet : List UInt8} :
    sendPacket environment packet = acceptedOf environment [packet] := by
  rw [acceptedOf_cons]
  rfl

/-- An accepting environment takes all packets. -/
theorem Accepting.acceptedOf_eq
    {environment : SendEnvironment} (accepting : Accepting environment)
    (packets : List (List UInt8)) :
    acceptedOf environment packets = ⟨packets, true⟩ := by
  unfold acceptedOf
  congr 1
  · exact List.takeWhile_eq_self_iff.mpr
      fun packet _ => accepting.packetAccepted packet
  · exact List.all_eq_true.mpr fun packet _ => accepting.packetAccepted packet

section Loop

variable {environment : SendEnvironment} {message : List UInt8}
  {packetMaxLen : Nat} (sendID padding : Nat)

/-- The head the loop carries when it has just written fragment `index`. -/
def carriedHead
    (message : List UInt8) (packetMaxLen sendID padding index : Nat) :
    PacketHead :=
  { firstPacketHead message packetMaxLen sendID padding with
    packetIndex := index + 1
    packetOffset := index * (packetMaxLen - 40) }

section Advance

variable (stepPositive : 40 < packetMaxLen)
  (large : packetMaxLen < message.length) (sizeFits : message.length < 2 ^ 32)

include stepPositive large

/-- A fragment that is not the last carries a full payload. -/
theorem fragmentHead_eq_carriedHead
    {index : Nat}
    (notLast :
      index + 1 < fragmentCount message.length (packetMaxLen - 40)) :
    fragmentHead message packetMaxLen sendID padding index =
      carriedHead message packetMaxLen sendID padding index := by
  have room := fragment_end_lt _ _ (by omega) (by omega) notLast
  have full : min (packetMaxLen - 40)
      (message.length - 16 - index * (packetMaxLen - 40)) =
      packetMaxLen - 40 := by
    omega
  simp [fragmentHead, carriedHead, full, firstPacketHead]

/-- The last fragment carries what is left of the payload. -/
theorem fragmentHead_last
    {index : Nat}
    (last : index + 1 = fragmentCount message.length (packetMaxLen - 40)) :
    fragmentHead message packetMaxLen sendID padding index =
      (carriedHead message packetMaxLen sendID padding index).closing
        message.length := by
  have covered := le_fragmentCount_mul message.length
    (packetMaxLen - 40) (by omega)
  rw [← last, Nat.succ_mul] at covered
  have remaining : min (packetMaxLen - 40)
      (message.length - 16 - index * (packetMaxLen - 40)) =
      message.length - index * (packetMaxLen - 40) - 16 := by
    omega
  simp [fragmentHead, carriedHead, PacketHead.closing, remaining,
    firstPacketHead]

include sizeFits

/-- The number of fragments survives its reduction to a word. -/
@[simp] theorem carriedHead_totalPacketNum (index : Nat) :
    (carriedHead message packetMaxLen sendID padding index).totalPacketNum =
      fragmentCount message.length (packetMaxLen - 40) := by
  have countBound := fragmentCount_le message.length
    (packetMaxLen - 40) (by omega)
  have fits : fragmentCount message.length (packetMaxLen - 40) < 2 ^ 32 := by
    omega
  exact wrap_of_lt fits

theorem advance_carriedHead
    {index : Nat}
    (more : index + 1 < fragmentCount message.length (packetMaxLen - 40)) :
    (carriedHead message packetMaxLen sendID padding index).advance =
      carriedHead message packetMaxLen sendID padding (index + 1) := by
  have start := fragment_start_lt message.length
    (packetMaxLen - 40) (by omega) (by omega) more
  have countBound := fragmentCount_le message.length
    (packetMaxLen - 40) (by omega)
  rw [Nat.succ_mul] at start
  simp only [PacketHead.advance, carriedHead, firstPacketHead,
    sizeofPacketHead, Nat.succ_mul]
  rw [wrap_of_lt (show index + 1 + 1 < 2 ^ 32 by omega),
    wrap_of_lt (show index * (packetMaxLen - 40) + (packetMaxLen - 40) <
      2 ^ 32 by omega)]

end Advance

/-- The packet head of fragment `index` is stored just before its payload, and
the packet read back is the fragment. -/
theorem read_fragment
    {index : Nat} (count : Nat)
    (roomForHead : 64 ≤ packetMaxLen) (large : packetMaxLen < message.length)
    {data : List UInt8}
    (notFirst : 1 ≤ index)
    (bound : index < fragmentCount message.length (packetMaxLen - 40))
    (sameLength : data.length = message.length)
    (unsent : data.drop (16 + index * (packetMaxLen - 40)) =
      message.drop (16 + index * (packetMaxLen - 40)))
    (counted : count = min (packetMaxLen - 40)
      (message.length - 16 - index * (packetMaxLen - 40))) :
    ∃ next, overwrite data (16 + index * (packetMaxLen - 40) - 40)
        (fragmentHead message packetMaxLen sendID padding index).bytes =
          .ok next ∧
      next.length = message.length ∧
      next.drop (16 + index * (packetMaxLen - 40)) =
        message.drop (16 + index * (packetMaxLen - 40)) ∧
      read next (16 + index * (packetMaxLen - 40) - 40) (count + 40) =
        .ok (fragment message packetMaxLen sendID padding index) := by
  have start := fragment_start_lt message.length
    (packetMaxLen - 40) (by omega) (by omega) bound
  have stepLe : packetMaxLen - 40 ≤ index * (packetMaxLen - 40) :=
    Nat.le_mul_of_pos_left _ notFirst
  have headEnd : 16 + index * (packetMaxLen - 40) - 40 + 40 =
      16 + index * (packetMaxLen - 40) := by omega
  have payload : (message.drop
        (16 + index * (packetMaxLen - 40))).take count =
      fragmentPayload message packetMaxLen index := by
    rw [fragmentPayload, counted, ← List.take_take, List.take_of_length_le
      (i := message.length - 16 - index * (packetMaxLen - 40))
      (by rw [List.length_drop]; omega)]
  obtain ⟨next, stored, nextLength, kept, packet⟩ := read_of_overwrite_head
    data (16 + index * (packetMaxLen - 40) - 40) count
    (PacketHead.length_bytes
      (fragmentHead message packetMaxLen sendID padding index))
    (by omega)
  rw [headEnd, unsent] at kept
  rw [headEnd, unsent, payload] at packet
  exact ⟨next, stored, nextLength.trans sameLength, kept, packet⟩

/-- From the moment fragment `index` is out, the loop writes exactly the
fragments behind it, up to the first that is refused.  The induction is on the
number of fragments left; the invariant is that the buffer still holds the
payload not yet sent. -/
theorem sendLoop_eq
    (large : packetMaxLen < message.length)
    (roomForHead : 64 ≤ packetMaxLen) (sizeFits : message.length < 2 ^ 32)
    (left index fuel : Nat) (data : List UInt8)
    (counted : index + 1 + (left + 1) =
      fragmentCount message.length (packetMaxLen - 40))
    (enough : left < fuel)
    (sameLength : data.length = message.length)
    (unsent : data.drop (16 + (index + 1) * (packetMaxLen - 40)) =
      message.drop (16 + (index + 1) * (packetMaxLen - 40))) :
    sendLoop environment message.length packetMaxLen fuel
        (carriedHead message packetMaxLen sendID padding index) data
        (16 + (index + 1) * (packetMaxLen - 40) - 40) =
      .ok (acceptedOf environment ((List.range' (index + 1) (left + 1)).map
        (fragment message packetMaxLen sendID padding))) := by
  induction left generalizing index fuel data with
  | zero =>
      obtain ⟨room, rfl⟩ : ∃ room, fuel = room + 1 := ⟨fuel - 1, by omega⟩
      have covered := le_fragmentCount_mul message.length
        (packetMaxLen - 40) (by omega)
      rw [← counted, Nat.zero_add, Nat.succ_mul] at covered
      have head := fragmentHead_last sendID padding
        (by omega) large counted
      obtain ⟨next, stored, _, _, packet⟩ := read_fragment sendID padding
        (message.length - (index + 1) * (packetMaxLen - 40) - 16)
        roomForHead large (Nat.le_add_left 1 index) (by omega) sameLength
        unsent (by omega)
      rw [head] at stored
      have last : (carriedHead message packetMaxLen sendID padding
            (index + 1)).packetIndex =
          fragmentCount message.length (packetMaxLen - 40) := counted
      have readLength : ((carriedHead message packetMaxLen sendID padding
            (index + 1)).closing message.length).packetLen +
            sizeofPacketHead =
          message.length - (index + 1) * (packetMaxLen - 40) - 16 + 40 := rfl
      simp only [sendLoop,
        advance_carriedHead sendID padding (by omega) large sizeFits
          (show index + 1 < _ by omega),
        carriedHead_totalPacketNum sendID padding (by omega) large sizeFits,
        if_pos last, bind, Except.bind, stored, readLength, packet]
      exact congrArg Except.ok sendPacket_eq_acceptedOf
  | succ left inductionHypothesis =>
      obtain ⟨room, rfl⟩ : ∃ room, fuel = room + 1 := ⟨fuel - 1, by omega⟩
      have head := fragmentHead_eq_carriedHead sendID padding
        (by omega) large
        (show index + 1 + 1 < _ by omega)
      have start := fragment_end_lt message.length
        (packetMaxLen - 40) (by omega) (by omega)
        (show index + 1 + 1 < _ by omega)
      obtain ⟨next, stored, nextLength, kept, packet⟩ :=
        read_fragment sendID padding (packetMaxLen - 40) roomForHead large
          (Nat.le_add_left 1 index) (by omega) sameLength unsent (by omega)
      rw [head] at stored
      have notLast : (carriedHead message packetMaxLen sendID padding
            (index + 1)).packetIndex ≠
          fragmentCount message.length (packetMaxLen - 40) := by
        change index + 1 + 1 ≠ _
        omega
      have packetLength : packetMaxLen - 40 + 40 = packetMaxLen := by omega
      rw [packetLength] at packet
      have nextPosition : 16 + (index + 1) * (packetMaxLen - 40) - 40 +
            (carriedHead message packetMaxLen sendID padding
              (index + 1)).packetLen =
          16 + (index + 1 + 1) * (packetMaxLen - 40) - 40 := by
        have stepLe : packetMaxLen - 40 ≤ (index + 1) * (packetMaxLen - 40) :=
          Nat.le_mul_of_pos_left _ (Nat.succ_pos index)
        rw [Nat.succ_mul (index + 1)]
        change _ + (packetMaxLen - 40) = _
        omega
      have laterUnsent : next.drop (16 + (index + 1 + 1) *
            (packetMaxLen - 40)) =
          message.drop (16 + (index + 1 + 1) * (packetMaxLen - 40)) := by
        have shifted := congrArg (List.drop (packetMaxLen - 40)) kept
        rw [List.drop_drop, List.drop_drop] at shifted
        rw [Nat.succ_mul (index + 1), ← Nat.add_assoc]
        exact shifted
      have rest := inductionHypothesis (index + 1) room next (by omega)
        (by omega) nextLength laterUnsent
      simp only [sendLoop,
        advance_carriedHead sendID padding (by omega) large sizeFits
          (show index + 1 < _ by omega),
        carriedHead_totalPacketNum sendID padding (by omega) large sizeFits,
        if_neg notLast, bind, Except.bind, stored, packet, nextPosition, rest]
      have listed : (List.range' (index + 1) (left + 1 + 1)).map
            (fragment message packetMaxLen sendID padding) =
          fragment message packetMaxLen sendID padding (index + 1) ::
            (List.range' (index + 1 + 1) (left + 1)).map
              (fragment message packetMaxLen sendID padding) := by
        rw [List.range'_succ, List.map_cons]
      rw [listed, acceptedOf_cons]
      split_ifs with accepted
      · rfl
      · rfl

/-- The head assigned before the loop is the head of fragment zero. -/
theorem carriedHead_zero :
    carriedHead message packetMaxLen sendID padding 0 =
      firstPacketHead message packetMaxLen sendID padding := by
  simp [carriedHead, firstPacketHead]

/-- A fragmented send writes the fragments up to the first that is refused.  A
packet head that does not fit behind the message header together with the first
payload is stored before the message. -/
theorem sendFragmented_eq
    (stepPositive : 40 < packetMaxLen)
    (large : packetMaxLen < message.length)
    (sizeFits : message.length < 2 ^ 32) :
    sendFragmented environment message packetMaxLen sendID padding =
      if environment.malloc packetMaxLen then
        if packetMaxLen < 64 ∧ environment.sendData
            (fragment message packetMaxLen sendID padding 0) then
          .error .writeBeforeStart
        else
          .ok (acceptedOf environment
            (fragments message packetMaxLen sendID padding))
      else .ok ⟨[], false⟩ := by
  have several := two_le_fragmentCount message.length
    (packetMaxLen - 40) (by omega) (by omega)
  have payload : read message 16 (packetMaxLen - 40) =
      .ok (fragmentPayload message packetMaxLen 0) := by
    rw [read_of_inside (by omega)]
    simp [fragmentPayload]
  have firstFragment :
      (firstPacketHead message packetMaxLen sendID padding).bytes ++
        fragmentPayload message packetMaxLen 0 =
      fragment message packetMaxLen sendID padding 0 := by
    rw [fragment, fragmentHead_eq_carriedHead sendID padding stepPositive large
        (by omega),
      carriedHead_zero]
  have headLength :
      (firstPacketHead message packetMaxLen sendID padding).packetLen =
        packetMaxLen - 40 := rfl
  have listed : fragments message packetMaxLen sendID padding =
      fragment message packetMaxLen sendID padding 0 ::
        (List.range' 1
          (fragmentCount message.length (packetMaxLen - 40) - 2 + 1)).map
            (fragment message packetMaxLen sendID padding) := by
    have successor : fragmentCount message.length (packetMaxLen - 40) =
        fragmentCount message.length (packetMaxLen - 40) - 2 + 1 + 1 := by
      omega
    rw [fragments, List.range_eq_range', successor, List.range'_succ]
    rfl
  simp only [sendFragmented, bind, Except.bind, headLength, sizeofMsgHeader,
    sizeofPacketHead, payload, firstFragment]
  by_cases served : environment.malloc packetMaxLen = true
  · rw [if_pos served, if_pos served, listed, acceptedOf_cons]
    by_cases accepted : environment.sendData
        (fragment message packetMaxLen sendID padding 0) = true
    · rw [if_pos accepted, if_pos accepted]
      by_cases narrow : packetMaxLen < 64
      · rw [if_pos (show 16 + (packetMaxLen - 40) < 40 by omega),
          if_pos ⟨narrow, accepted⟩]
      · rw [if_neg (show ¬16 + (packetMaxLen - 40) < 40 by omega),
          if_neg fun both => narrow both.1]
        have rest := @sendLoop_eq environment _ _ sendID padding large
          (by omega) sizeFits
          (fragmentCount message.length (packetMaxLen - 40) - 2) 0
          (fragmentCount message.length (packetMaxLen - 40)) message
          (by omega) (by omega) rfl rfl
        have total : (firstPacketHead message packetMaxLen sendID
              padding).totalPacketNum =
            fragmentCount message.length (packetMaxLen - 40) := by
          rw [← carriedHead_zero,
            carriedHead_totalPacketNum sendID padding stepPositive large
              sizeFits]
        rw [carriedHead_zero, Nat.zero_add, Nat.one_mul] at rest
        rw [total, rest]
        rfl
    · rw [if_neg accepted, if_neg accepted, if_neg fun both => accepted both.2]
      rfl
  · rw [if_neg served, if_neg served]
    rfl

/-- An accepting environment gets all fragments, unless a packet head is stored
before the message. -/
theorem sendFragmented_accepting
    (accepting : Accepting environment)
    (stepPositive : 40 < packetMaxLen)
    (large : packetMaxLen < message.length)
    (sizeFits : message.length < 2 ^ 32) :
    sendFragmented environment message packetMaxLen sendID padding =
      if packetMaxLen < 64 then .error .writeBeforeStart
      else .ok ⟨fragments message packetMaxLen sendID padding, true⟩ := by
  rw [sendFragmented_eq sendID padding stepPositive large sizeFits,
    if_pos (accepting.mallocSucceeds _), accepting.acceptedOf_eq]
  simp [accepting.packetAccepted]

/-- `Send` in packet-head mode: a message that fits is written whole, a larger
one in fragments under the next id. -/
theorem sendMessage_eq
    (accepting : Accepting environment) (session : SendSession)
    (packetMode : session.sessionmode = .packetHead)
    (stepPositive : 40 < packetMaxLen)
    (sizeFits : message.length < 2 ^ 32) :
    sendMessage environment session message packetMaxLen padding =
      if packetMaxLen < message.length then
        if packetMaxLen < 64 then .error .writeBeforeStart
        else .ok ({ session with sendID := nextSendID session.sendID },
          ⟨packetsOf message packetMaxLen (nextSendID session.sendID)
            padding, true⟩)
      else .ok (session, ⟨packetsOf message packetMaxLen
        (nextSendID session.sendID) padding, true⟩) := by
  rw [sendMessage, if_neg (by simp [packetMode])]
  by_cases large : packetMaxLen < message.length
  · rw [if_pos large, if_pos large,
      if_neg (show ¬packetMaxLen ≤ sizeofPacketHead by simp; omega)]
    simp only [sendFragmented_accepting (nextSendID session.sendID) padding
      accepting stepPositive large sizeFits]
    by_cases narrow : packetMaxLen < 64
    · simp [narrow, bind, Except.bind]
    · simp [narrow, bind, Except.bind, packetsOf, large, pure, Except.pure]
  · rw [if_neg large, if_neg large]
    simp [sendPacket, accepting.packetAccepted, packetsOf, large, pure,
      Except.pure]

end Loop

end Network
end Pilot2Cloud
