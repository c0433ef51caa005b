import Pilot2Cloud.SendBuffer.DatagramFifo

/-!
# Releasing part of a datagram

A release of fewer bytes than the first payload has writes the size of the rest
into the bytes that were sent and copies the header behind it.  The size is
written first, so that it lies over the header when little was sent.
-/

namespace Pilot2Cloud
namespace SendBuffer

open Foundation Words Memory

namespace RecordBuffer

variable {buffer : RecordBuffer} {rest payload : List UInt8}
  {header : List (List UInt8)} {size : Nat}

/-- The header behind the size of the rest, with the bytes of that size that
have come over it. -/
def movedHeader (header : List UInt8) (size remaining : Nat) : List UInt8 :=
  header.take (size - 4) ++
    (wordBytes remaining).take (header.length + 4 - size)

/-- The record after a part of its payload was released. -/
def cutBytes (header payload : List UInt8) (size : Nat) : List UInt8 :=
  wordBytes (payload.length - size) ++
    (movedHeader header size (payload.length - size) ++ payload.drop size)

theorem length_movedHeader {header : List UInt8} {remaining : Nat}
    (wide : 4 ≤ header.length) (enough : header.length ≤ size) :
    (movedHeader header size remaining).length = header.length := by
  simp only [movedHeader, List.length_append, List.length_take,
    length_wordBytes]
  omega

/-- The header is the old one when the bytes that lie over it are the same. -/
theorem movedHeader_eq_iff {header : List UInt8} {remaining : Nat}
    (wide : 4 ≤ header.length) (enough : header.length ≤ size) :
    movedHeader header size remaining = header ↔
      header.drop (size - 4) <+: wordBytes remaining := by
  have count : (header.drop (size - 4)).length = header.length + 4 - size := by
    rw [List.length_drop]
    omega
  rw [List.prefix_iff_eq_take, count, movedHeader]
  constructor
  · intro same
    have tails := congrArg (List.drop (header.take (size - 4)).length) same
    rw [List.drop_left, List.length_take] at tails
    rw [tails]
    obtain inside | beyond := Nat.le_total (size - 4) header.length
    · rw [Nat.min_eq_left inside]
    · rw [Nat.min_eq_right beyond, List.drop_length,
        List.drop_of_length_le beyond]
  · intro same
    rw [← same, List.take_append_drop]

/-- A copy between two places that are apart changes the cells of one. -/
theorem exists_copyWithin {block : Block} {target source count : Nat}
    (apart : source + count ≤ target)
    (inside : target + count ≤ block.length) :
    ∃ next, block.copyWithin target source count = .ok next ∧
      next.length = block.length ∧
      ∀ position, next[position]? =
        if target ≤ position ∧ position < target + count then
          block[source + (position - target)]?
        else block[position]? := by
  rw [Block.copyWithin, if_pos (.inr (.inr apart))]
  exact Block.exists_copyCells (by omega) inside

/-- The header is copied behind the size of the rest. -/
theorem Holds.cutRecord
    (holds : buffer.Holds (recordBytes header payload ++ rest))
    (wide : 4 ≤ header.flatten.length)
    (enough : header.flatten.length ≤ size) (part : size < payload.length) :
    ∃ next, buffer.cutRecord header.flatten.length payload.length size =
        .ok next ∧
      next.capacity = buffer.capacity ∧
      next.Holds ((recordBytes header payload ++ rest).take size ++
        (cutBytes header.flatten payload size ++ rest)) := by
  have small := holds.small
  have inside := holds.endMark_le
  have linear := holds.linear
  have length := holds.length
  have bufSize := holds.size
  have isSize := @length_recordBytes header payload
  have moved := @length_movedHeader size header.flatten
    (payload.length - size) wide enough
  rw [List.length_append] at length
  -- the bytes that were sent, the header and the rest of the payload
  have sent : buffer.buf.Has buffer.start
      ((recordBytes header payload ++ rest).take size) := by
    have both := holds.has
    rw [← List.take_append_drop size (recordBytes header payload ++ rest)]
      at both
    exact (Block.has_append.mp both).1
  have pieces := holds.has
  unfold recordBytes parts at pieces
  simp only [List.flatten_cons, List.flatten_append, List.flatten_nil,
    List.append_nil, List.append_assoc, Block.has_append, length_wordBytes]
    at pieces
  obtain ⟨-, oldHeader, oldPayload, oldRest⟩ := pieces
  have tail : buffer.buf.Has
      (buffer.start + 4 + header.flatten.length + size)
      (payload.drop size) := by
    rw [← List.take_append_drop size payload] at oldPayload
    have second := (Block.has_append.mp oldPayload).2
    rwa [List.length_take, Nat.min_eq_left part.le] at second
  have sentLength : ((recordBytes header payload ++ rest).take size).length =
      size := by
    rw [List.length_take, List.length_append]
    omega
  obtain ⟨middle, written⟩ : ∃ middle, buffer.buf.write (buffer.start + size)
      (wordBytes (payload.length - size)) = .ok middle :=
    ⟨_, Block.write_of_inside (by rw [length_wordBytes]; omega)⟩
  have middleSize := Block.length_of_write_ok written
  have apartFrom : ∀ {offset : Nat} {bytes : List UInt8},
      buffer.buf.Has offset bytes →
      offset + bytes.length ≤ buffer.start + size ∨
        buffer.start + size + 4 ≤ offset → middle.Has offset bytes := by
    intro offset bytes has apart
    exact has.write written (by rwa [length_wordBytes])
  have newHeader : middle.Has (buffer.start + 4)
      (movedHeader header.flatten size (payload.length - size)) := by
    apply Block.has_append.mpr
    have front := oldHeader
    rw [← List.take_append_drop (size - 4) header.flatten] at front
    refine ⟨apartFrom (Block.has_append.mp front).1 ?_, ?_⟩
    · rw [List.length_take]
      omega
    · rw [List.length_take]
      obtain beyond | covered := Nat.le_total (header.flatten.length + 4) size
      · rw [Nat.sub_eq_zero_of_le beyond, List.take_zero]
        apply Block.has_nil
        omega
      · have here : buffer.start + 4 + min (size - 4) header.flatten.length =
            buffer.start + size := by omega
        have word := Block.has_of_write_ok written
        rw [← List.take_append_drop (header.flatten.length + 4 - size)
          (wordBytes (payload.length - size))] at word
        rw [here]
        exact (Block.has_append.mp word).1
  obtain ⟨last, copied, lastSize, cells⟩ := @exists_copyWithin middle
    (buffer.start + size + 4) (buffer.start + 4) header.flatten.length
    (by omega) (by omega)
  have unchanged : ∀ {offset : Nat} {bytes : List UInt8},
      middle.Has offset bytes →
      offset + bytes.length ≤ buffer.start + size + 4 ∨
        buffer.start + size + 4 + header.flatten.length ≤ offset →
      last.Has offset bytes := by
    intro offset bytes has apart
    have readable := has.inside
    apply has.congr (by omega)
    intro index bound
    rw [cells, if_neg (by omega)]
  refine ⟨{ buffer with buf := last }, ?_, rfl, small, lastSize.trans
    (middleSize.trans bufSize), ?_, linear, ?_⟩
  · rw [RecordBuffer.cutRecord]
    simp only [written, ok_bind, copied]
    rfl
  · simp only [cutBytes, List.length_append, sentLength, length_wordBytes,
      moved, List.length_drop]
    omega
  · simp only [cutBytes, Block.has_append, sentLength, length_wordBytes,
      moved, List.append_assoc]
    refine ⟨?_, ?_, ?_, ?_, ?_⟩
    · exact unchanged (apartFrom sent (by omega)) (by omega)
    · exact unchanged (Block.has_of_write_ok written)
        (by rw [length_wordBytes]; omega)
    · apply newHeader.congr (by omega)
      intro index bound
      rw [cells, if_pos (by omega)]
      congr 1
      omega
    · have place : buffer.start + 4 + header.flatten.length + size =
          buffer.start + size + 4 + header.flatten.length := by omega
      rw [place] at tail
      exact unchanged (apartFrom tail (by omega)) (by omega)
    · have place : buffer.start + 4 + header.flatten.length + payload.length =
          buffer.start + size + 4 + header.flatten.length +
            (payload.drop size).length := by
        rw [List.length_drop]
        omega
      rw [place] at oldRest
      exact unchanged (apartFrom oldRest (by omega)) (by omega)

/-- A copy of the header over itself is undefined. -/
theorem Holds.cutRecord_error
    (holds : buffer.Holds (recordBytes header payload ++ rest))
    (positive : 0 < size) (short : size < header.flatten.length)
    (part : size < payload.length) :
    buffer.cutRecord header.flatten.length payload.length size =
      .error .overlappingCopy := by
  have inside := holds.endMark_le
  have linear := holds.linear
  have length := holds.length
  have bufSize := holds.size
  have isSize := @length_recordBytes header payload
  rw [List.length_append] at length
  obtain ⟨middle, written⟩ : ∃ middle, buffer.buf.write (buffer.start + size)
      (wordBytes (payload.length - size)) = .ok middle :=
    ⟨_, Block.write_of_inside (by rw [length_wordBytes]; omega)⟩
  rw [RecordBuffer.cutRecord]
  simp only [written, ok_bind]
  rw [Block.copyWithin, if_neg (by omega)]
  rfl

/-- When nothing was sent, the record is written over itself. -/
theorem Holds.cutRecord_zero
    (holds : buffer.Holds (recordBytes header payload ++ rest)) :
    ∃ next, buffer.cutRecord header.flatten.length payload.length 0 =
        .ok next ∧
      next.capacity = buffer.capacity ∧
      next.Holds (recordBytes header payload ++ rest) := by
  have inside := holds.endMark_le
  have linear := holds.linear
  have length := holds.length
  have bufSize := holds.size
  have isSize := @length_recordBytes header payload
  rw [List.length_append] at length
  obtain ⟨middle, written⟩ : ∃ middle, buffer.buf.write buffer.start
      (wordBytes payload.length) = .ok middle :=
    ⟨_, Block.write_of_inside (by rw [length_wordBytes]; omega)⟩
  have middleSize := Block.length_of_write_ok written
  obtain ⟨last, copied, lastSize, cells⟩ := @Block.exists_copyCells middle
    middle (buffer.start + 4) (buffer.start + 4) header.flatten.length
    (by omega) (by omega)
  have pieces := holds.has
  unfold recordBytes parts at pieces
  rw [List.flatten_cons, List.append_assoc, Block.has_append,
    length_wordBytes] at pieces
  refine ⟨{ buffer with buf := last }, ?_, rfl, holds.small, lastSize.trans
    (middleSize.trans bufSize), ?_, linear, ?_⟩
  · rw [RecordBuffer.cutRecord]
    simp only [Nat.add_zero, Nat.sub_zero, written, ok_bind]
    rw [Block.copyWithin, if_pos (.inl rfl), copied]
    rfl
  · rw [List.length_append]
    exact length
  · have both : middle.Has buffer.start
        (recordBytes header payload ++ rest) := by
      unfold recordBytes parts
      rw [List.flatten_cons, List.append_assoc, Block.has_append,
        length_wordBytes]
      exact ⟨Block.has_of_write_ok written, pieces.2.write written (.inr
        (by rw [length_wordBytes]))⟩
    have readable := both.inside
    apply both.congr
    · rw [lastSize]
      exact readable
    · intro index bound
      simp only
      rw [cells]
      split
      · congr 1
        omega
      · rfl

/-- A part of the first payload is released before it is compared with what is
in the buffer. -/
theorem Holds.releaseRecord_of_part
    (holds : buffer.Holds (recordBytes header payload ++ rest))
    (part : size < payload.length) :
    buffer.releaseRecord header.flatten.length size = (do
      let next ← buffer.cutRecord header.flatten.length payload.length size
      return if next.length ≤ size then next.reset else next.skip size) := by
  have small := holds.small
  have inside := holds.endMark_le
  have linear := holds.linear
  have length := holds.length
  have isSize := @length_recordBytes header payload
  rw [List.length_append] at length
  obtain ⟨word, read, packetlen⟩ := holds.exists_readAt
  rw [RecordBuffer.releaseRecord]
  simp only
  rw [wrap_of_lt (by omega), if_neg (by omega), read, ok_bind, packetlen,
    if_pos part]
  cases buffer.cutRecord header.flatten.length payload.length size with
  | error fault => rfl
  | ok next => rfl

/-- The rest of the first payload stays, behind the header that was copied. -/
theorem Holds.releaseRecord_part
    (holds : buffer.Holds (recordBytes header payload ++ rest))
    (wide : 4 ≤ header.flatten.length)
    (enough : header.flatten.length ≤ size) (part : size < payload.length) :
    ∃ next, buffer.releaseRecord header.flatten.length size = .ok next ∧
      next.Holds (cutBytes header.flatten payload size ++ rest) := by
  have isSize := @length_recordBytes header payload
  obtain ⟨cut, isCut, -, cutHolds⟩ := holds.cutRecord wide enough part
  have sentLength : ((recordBytes header payload ++ rest).take size).length =
      size := by
    rw [List.length_take, List.length_append]
    omega
  have dropped := cutHolds.dropFront
  rw [sentLength] at dropped
  refine ⟨_, ?_, dropped⟩
  rw [holds.releaseRecord_of_part part, isCut]
  rfl

theorem Holds.releaseRecord_error
    (holds : buffer.Holds (recordBytes header payload ++ rest))
    (positive : 0 < size) (short : size < header.flatten.length)
    (part : size < payload.length) :
    buffer.releaseRecord header.flatten.length size =
      .error .overlappingCopy := by
  rw [holds.releaseRecord_of_part part,
    holds.cutRecord_error positive short part]
  rfl

theorem Holds.releaseRecord_zero
    (holds : buffer.Holds (recordBytes header payload ++ rest))
    (part : 0 < payload.length) :
    ∃ next, buffer.releaseRecord header.flatten.length 0 = .ok next ∧
      next.Holds (recordBytes header payload ++ rest) := by
  obtain ⟨cut, isCut, -, cutHolds⟩ := holds.cutRecord_zero
  have dropped := @Holds.dropFront cut _ [] cutHolds
  refine ⟨_, ?_, dropped⟩
  rw [holds.releaseRecord_of_part part, isCut]
  rfl

end RecordBuffer

namespace Transport

variable {transport : Transport} {buffer : RecordBuffer}
  {datagram : Datagram} {rest : List UInt8} {size : Nat}

/-- The size of a header behind the size of its payload. -/
def headerSize : Transport → Nat
  | .udp => 6
  | .rawIp => 4

/-- Some bytes at the front were sent. -/
def releaseBytes : Transport → RecordBuffer → Nat →
    Except Fault RecordBuffer
  | .udp, buffer, size => buffer.releaseUdpBuffer size
  | .rawIp, buffer, size => buffer.releaseRawIpBuffer size

@[simp] theorem length_header (transport : Transport) (datagram : Datagram) :
    (transport.header datagram).flatten.length = transport.headerSize := by
  cases transport with
  | udp => rfl
  | rawIp => rfl

theorem releaseBytes_eq (transport : Transport) (buffer : RecordBuffer)
    (datagram : Datagram) (size : Nat) :
    transport.releaseBytes buffer size =
      buffer.releaseRecord (transport.header datagram).flatten.length
        size := by
  rw [length_header]
  cases transport with
  | udp => rfl
  | rawIp => rfl

/-- Any bytes of the size of a header are one. -/
theorem exists_header (transport : Transport) (payload bytes : List UInt8)
    (length : bytes.length = transport.headerSize) :
    ∃ datagram : Datagram, datagram.payload = payload ∧
      (transport.header datagram).flatten = bytes := by
  have word : ∀ count, bytes.length = count + 4 →
      wordBytes (UInt32.ofNat (littleEndian (bytes.take 4))).toNat =
        bytes.take 4 := by
    intro count isLength
    have four : (bytes.take 4).length = 4 := by
      rw [List.length_take]
      omega
    have bound := littleEndian_lt (bytes.take 4)
    have back := littleEndianBytes_littleEndian (bytes.take 4)
    rw [four] at bound back
    rw [UInt32.toNat_ofNat', Nat.mod_eq_of_lt (by omega)]
    exact back
  cases transport with
  | udp =>
      have two : (bytes.drop 4).length = 2 := by
        rw [List.length_drop, length]
        rfl
      have bound := littleEndian_lt (bytes.drop 4)
      have back := littleEndianBytes_littleEndian (bytes.drop 4)
      rw [two] at bound back
      refine ⟨⟨payload, .ofNat (littleEndian (bytes.take 4)),
        .ofNat (littleEndian (bytes.drop 4))⟩, rfl, ?_⟩
      rw [header, List.flatten_cons, List.flatten_cons, List.flatten_nil,
        List.append_nil, word 2 length, UInt16.toNat_ofNat',
        Nat.mod_eq_of_lt (by omega), back, List.take_append_drop]
  | rawIp =>
      refine ⟨⟨payload, .ofNat (littleEndian (bytes.take 4)), 0⟩, rfl, ?_⟩
      rw [header, List.flatten_cons, List.flatten_nil, List.append_nil,
        word 0 length]
      exact List.take_of_length_le (by rw [length]; exact le_rfl)

theorem record_eq (transport : Transport) (datagram : Datagram) :
    transport.record datagram =
      wordBytes datagram.payload.length ++
        ((transport.header datagram).flatten ++ datagram.payload) := by
  rw [record, RecordBuffer.recordBytes, RecordBuffer.parts,
    List.flatten_cons, List.flatten_append, List.flatten_cons,
    List.flatten_nil, List.append_nil]

/-! ## Any use of a buffer -/

/-- A datagram is to be sent, or some bytes of the first one were sent. -/
inductive BufferRequest
  | add (datagram : Datagram)
  | release (size : UInt32)

/-- The buffer after a request, whether or not a datagram was accepted. -/
def perform (transport : Transport) (buffer : RecordBuffer) :
    BufferRequest → Except Fault RecordBuffer
  | .add datagram => do
      let (buffer, _) ← transport.add buffer datagram
      return buffer
  | .release size => transport.releaseBytes buffer size.toNat

/-- A request leads to a state. -/
def Step (transport : Transport) (buffer : RecordBuffer)
    (request : BufferRequest) (after : RecordBuffer) : Prop :=
  transport.perform buffer request = .ok after

/-- The datagrams whose records are in the buffer. -/
def Waits (transport : Transport) (buffer : RecordBuffer)
    (waiting : List Datagram) : Prop :=
  buffer.Holds (waiting.flatMap transport.record)

variable {after : RecordBuffer} {waiting others : List Datagram}
  {first : Datagram}

/-- A buffer without a capacity does not take any datagram. -/
theorem add_error (waits : transport.Waits buffer waiting)
    (noCapacity : buffer.capacity = 0) (datagram : Datagram) :
    ∃ fault, transport.add buffer datagram = .error fault := by
  have inside := waits.endMark_le
  have linear := waits.linear
  have size := waits.size
  rw [add_eq_addRecord, RecordBuffer.addRecord,
    ← RecordBuffer.length_recordBytes]
  by_cases isZero : wrap (RecordBuffer.recordBytes
      (transport.header datagram) datagram.payload).length = 0
  · have enough : ¬buffer.NeedsExpansion 0 := by
      rw [waits.needsExpansion_iff]
      omega
    rw [isZero, RecordBuffer.resizeBuffer, if_neg enough, pure_eq_ok, ok_bind]
    simp only
    rw [waits.placeRecord_error (by
      rw [noCapacity, RecordBuffer.length_recordBytes]
      omega)]
    exact ⟨_, rfl⟩
  · have tooSmall : buffer.NeedsExpansion (wrap (RecordBuffer.recordBytes
        (transport.header datagram) datagram.payload).length) := by
      rw [waits.needsExpansion_iff]
      omega
    have needed : 0 < wrap (buffer.length + wrap (RecordBuffer.recordBytes
        (transport.header datagram) datagram.payload).length) := by
      have isEmpty : buffer.length = 0 := by omega
      rw [isEmpty, Nat.zero_add, wrap_of_lt (wrap_lt _)]
      omega
    rw [RecordBuffer.resizeBuffer, if_pos tooSmall, noCapacity,
      RecordBuffer.expandedCapacity_zero needed]
    exact ⟨_, rfl⟩

/-- A datagram that is not refused follows the others. -/
theorem Waits.exists_add (waits : transport.Waits buffer waiting)
    (positive : 0 < buffer.capacity)
    (accepts : ¬buffer.Refuses (transport.record datagram).length)
    (fits : buffer.length + (transport.record datagram).length < 2 ^ 32) :
    ∃ next, transport.Step buffer (.add datagram) next ∧
      transport.Waits next (waiting ++ [datagram]) ∧
      buffer.MayGrowTo next := by
  unfold record at accepts fits
  obtain ⟨refuses, -⟩ | ⟨-, -, next, added, holds, grows⟩ |
      ⟨-, tooLarge, -⟩ :=
    RecordBuffer.Holds.addRecord waits positive (transport.header datagram)
      datagram.payload
  · rw [wrap_of_lt (by omega)] at refuses
    exact absurd refuses accepts
  · refine ⟨next, ?_, ?_, grows⟩
    · rw [Step, perform, add_eq_addRecord, added]
      rfl
    · rw [Waits, List.flatMap_append, List.flatMap_cons, List.flatMap_nil,
        List.append_nil]
      exact holds
  · exact absurd fits tooLarge

/-- A part of the first datagram is released, with whatever its header comes
to. -/
theorem exists_cut (transport : Transport) (first : Datagram) {size : Nat}
    (enough : transport.headerSize ≤ size) :
    ∃ cut : Datagram, cut.payload = first.payload.drop size ∧
      transport.record cut = RecordBuffer.cutBytes
        (transport.header first).flatten first.payload size := by
  have isHeader := transport.length_header first
  have wide : 4 ≤ transport.headerSize := by
    cases transport <;> decide
  obtain ⟨cut, isRest, newHeader⟩ := transport.exists_header
    (first.payload.drop size)
    (RecordBuffer.movedHeader (transport.header first).flatten size
      (first.payload.length - size))
    (by rw [RecordBuffer.length_movedHeader (by omega) (by omega), isHeader])
  refine ⟨cut, isRest, ?_⟩
  rw [record_eq, newHeader, isRest, List.length_drop, RecordBuffer.cutBytes]

/-- The records stay one behind the other whatever is requested. -/
theorem exists_waits_of_step {request : BufferRequest}
    (waits : transport.Waits buffer waiting)
    (step : transport.Step buffer request after) :
    ∃ others, transport.Waits after others := by
  unfold Step perform at step
  cases request with
  | add datagram =>
      simp only at step
      obtain noCapacity | positive := Nat.eq_zero_or_pos buffer.capacity
      · obtain ⟨fault, failed⟩ := add_error waits noCapacity datagram
        rw [failed] at step
        contradiction
      rw [add_eq_addRecord] at step
      obtain ⟨-, refused⟩ | ⟨-, -, next, added, holds, -⟩ | ⟨-, -, failed⟩ :=
        waits.addRecord positive (transport.header datagram) datagram.payload
      · rw [refused] at step
        obtain rfl := Except.ok.inj step
        exact ⟨waiting, waits⟩
      · rw [added] at step
        obtain rfl := Except.ok.inj step
        refine ⟨waiting ++ [datagram], ?_⟩
        rw [Waits, List.flatMap_append, List.flatMap_cons, List.flatMap_nil,
          List.append_nil]
        exact holds
      · rw [failed] at step
        contradiction
  | release size =>
      simp only at step
      cases waiting with
      | nil =>
          have isEmpty : buffer.length = 0 := waits.length
          rw [releaseBytes_eq transport buffer ⟨[], 0, 0⟩,
            RecordBuffer.releaseRecord] at step
          simp only at step
          rw [if_pos (by omega)] at step
          obtain rfl := Except.ok.inj step
          exact ⟨[], RecordBuffer.Holds.reset waits⟩
      | cons first rest =>
          have holds : buffer.Holds (transport.record first ++
              rest.flatMap transport.record) := waits
          rw [releaseBytes_eq transport buffer first] at step
          obtain part | atLeast :=
            Nat.lt_or_ge size.toNat first.payload.length
          · obtain isZero | positive := Nat.eq_zero_or_pos size.toNat
            · rw [isZero] at step part
              obtain ⟨next, released, same⟩ := holds.releaseRecord_zero part
              obtain rfl := Except.ok.inj (released.symm.trans step)
              exact ⟨first :: rest, same⟩
            · have isHeader := transport.length_header first
              obtain short | enough :=
                Nat.lt_or_ge size.toNat transport.headerSize
              · rw [holds.releaseRecord_error positive (by omega) part]
                  at step
                contradiction
              · have wide : 4 ≤ transport.headerSize := by
                  cases transport <;> decide
                obtain ⟨next, released, cutHolds⟩ :=
                  holds.releaseRecord_part (by omega)
                    (by omega) part
                obtain rfl := Except.ok.inj (released.symm.trans step)
                obtain ⟨cut, -, isCut⟩ := transport.exists_cut first enough
                refine ⟨cut :: rest, ?_⟩
                rw [Waits, List.flatMap_cons, isCut]
                exact cutHolds
          · obtain ⟨next, released, later | ⟨-, none⟩, -⟩ :=
              holds.releaseRecord atLeast
            · obtain rfl := Except.ok.inj (released.symm.trans step)
              exact ⟨rest, later⟩
            · obtain rfl := Except.ok.inj (released.symm.trans step)
              exact ⟨[], none⟩

/-- A buffer of any capacity has the records of some datagrams after any
requests. -/
theorem exists_waits_of_run {capacity : UInt32}
    {requests : List BufferRequest}
    (run : Run transport.Step (.new capacity.toNat) requests buffer) :
    ∃ waiting, transport.Waits buffer waiting := by
  apply run.preserves
  · rintro source request next ⟨waiting, waits⟩ step
    exact exists_waits_of_step waits step
  · exact ⟨[], .new capacity.toNat_lt⟩

/-! ## The rest of a datagram -/

end Transport

/-- A datagram without the first bytes of its payload. -/
def Datagram.cut (datagram : Datagram) (size : Nat) : Datagram :=
  { datagram with payload := datagram.payload.drop size }

namespace Transport

variable {transport : Transport} {buffer : RecordBuffer}
  {waiting rest : List Datagram} {first : Datagram} {size : Nat}

/-- A release leaves the rest of the first datagram and all others. -/
def KeepsRest (transport : Transport) (buffer : RecordBuffer)
    (first : Datagram) (rest : List Datagram) (size : Nat) : Prop :=
  ∃ next, transport.releaseBytes buffer size = .ok next ∧
    transport.Waits next (first.cut size :: rest) ∧
    transport.Reads next (first.cut size)

/-- The header is not copied over itself, and the bytes of the size that come
over it are the same as its own. -/
def HeaderSurvives (transport : Transport) (first : Datagram)
    (size : Nat) : Prop :=
  transport.headerSize ≤ size ∧
    (transport.header first).flatten.drop (size - 4) <+:
      wordBytes (first.payload.length - size)

instance (transport : Transport) (first : Datagram) (size : Nat) :
    Decidable (transport.HeaderSurvives first size) :=
  inferInstanceAs (Decidable (_ ∧ _))

/-- The bytes that are held are those in the array. -/
theorem holds_unique {bytes others : List UInt8}
    (holds : buffer.Holds bytes) (same : buffer.Holds others) :
    bytes = others := by
  have length := holds.length.symm.trans same.length
  apply List.ext_getElem?
  intro index
  obtain inside | beyond := Nat.lt_or_ge index bytes.length
  · have left := holds.has.cells index inside
    have right := same.has.cells index (by omega)
    exact Option.map_injective (Option.some_injective _)
      (left.symm.trans right)
  · rw [List.getElem?_eq_none beyond, List.getElem?_eq_none (by omega)]

theorem Waits.keepsRest_iff_survives
    (waits : transport.Waits buffer (first :: rest)) (positive : 0 < size)
    (part : size < first.payload.length) :
    transport.KeepsRest buffer first rest size ↔
      transport.HeaderSurvives first size := by
  have holds : buffer.Holds (transport.record first ++
      rest.flatMap transport.record) := waits
  have isHeader := transport.length_header first
  have wide : 4 ≤ transport.headerSize := by
    cases transport <;> decide
  have sameHeader : transport.header (first.cut size) =
      transport.header first := by
    cases transport <;> rfl
  obtain short | enough := Nat.lt_or_ge size transport.headerSize
  · constructor
    · rintro ⟨next, released, -⟩
      rw [releaseBytes_eq transport buffer first,
        holds.releaseRecord_error positive (by omega) part] at released
      contradiction
    · rintro ⟨enough, -⟩
      omega
  · obtain ⟨next, released, cutHolds⟩ :=
      holds.releaseRecord_part (by omega) (by omega) part
    have survives := @RecordBuffer.movedHeader_eq_iff size
      (transport.header first).flatten (first.payload.length - size)
      (by omega) (by omega)
    rw [HeaderSurvives, and_iff_right enough, ← survives]
    have record : transport.record (first.cut size) =
        wordBytes (first.payload.length - size) ++
          ((transport.header first).flatten ++ first.payload.drop size) := by
      rw [record_eq, sameHeader, Datagram.cut, List.length_drop]
    constructor
    · rintro ⟨other, isOther, otherWaits, -⟩
      rw [releaseBytes_eq transport buffer first] at isOther
      obtain rfl := Except.ok.inj (isOther.symm.trans released)
      have same := holds_unique cutHolds otherWaits
      rw [List.flatMap_cons, record, RecordBuffer.cutBytes] at same
      have tails := List.append_cancel_left
        (List.append_cancel_right same)
      exact List.append_cancel_right tails
    · intro same
      have restWaits : next.Holds (transport.record (first.cut size) ++
          rest.flatMap transport.record) := by
        rw [record, ← same]
        rw [RecordBuffer.cutBytes] at cutHolds
        rwa [same] at cutHolds ⊢
      refine ⟨next, ?_, restWaits, reads_of_holds restWaits⟩
      rw [releaseBytes_eq transport buffer first]
      exact released

/-- After any requests, a release of part of the first datagram leaves its rest
exactly when its header survives. -/
theorem keepsRest_iff {capacity : UInt32} {requests : List BufferRequest}
    (run : Run transport.Step (.new capacity.toNat) requests buffer) :
    (∃ waiting, transport.Waits buffer waiting) ∧
      ∀ first rest, transport.Waits buffer (first :: rest) →
        ∀ size, 0 < size → size < first.payload.length →
          (transport.KeepsRest buffer first rest size ↔
            transport.HeaderSurvives first size) := by
  refine ⟨exists_waits_of_run run, ?_⟩
  intro first rest waits size positive part
  exact waits.keepsRest_iff_survives positive part

/-- A datagram of twelve bytes to port 5000. -/
def twelveBytes : Datagram :=
  ⟨[1, 2, 3, 4, 5, 6, 7, 8, 9, 10, 11, 12], 0x0A000001, 5000⟩

/-- A datagram in a buffer of 32 bytes. -/
theorem keepsRest_iff_twelveBytes :
    ∃ buffer, Run (Step .udp) (.new 32) [.add twelveBytes] buffer ∧
      (∃ waiting, Waits .udp buffer waiting) ∧
      ∀ first rest, Waits .udp buffer (first :: rest) →
        ∀ size, 0 < size → size < first.payload.length →
          (KeepsRest .udp buffer first rest size ↔
            HeaderSurvives .udp first size) := by
  have start : Waits .udp (.new 32) [] := .new (by decide)
  obtain ⟨buffer, step, -⟩ :=
    @Waits.exists_add .udp _ twelveBytes _ start (by decide)
      (by unfold RecordBuffer.Refuses; decide) (by decide)
  have run := Run.cons step (.nil buffer)
  exact ⟨buffer, run, @keepsRest_iff .udp buffer 32 _ run⟩

/-- After seven of twelve bytes were sent, the size of the other five lies over
the end of the address and the port. -/
theorem not_keepsRest_sevenBytes :
    ∃ buffer, Run (Step .udp) (.new 32) [.add twelveBytes] buffer ∧
      Waits .udp buffer [twelveBytes] ∧
      ¬KeepsRest .udp buffer twelveBytes [] 7 := by
  have start : Waits .udp (.new 32) [] := .new (by decide)
  obtain ⟨buffer, step, waits, -⟩ :=
    @Waits.exists_add .udp _ twelveBytes _ start (by decide)
      (by unfold RecordBuffer.Refuses; decide) (by decide)
  refine ⟨buffer, .cons step (.nil buffer), waits, ?_⟩
  intro keeps
  have survives :=
    (Waits.keepsRest_iff_survives waits (by decide) (by decide)).mp keeps
  exact absurd survives (by decide)

end Transport
end SendBuffer
end Pilot2Cloud
