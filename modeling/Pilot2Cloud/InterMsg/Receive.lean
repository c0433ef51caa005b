import Pilot2Cloud.InterMsg.Parsing
import Pilot2Cloud.InterMsg.Server

/-!
# Reading from one client

What the server does with the bytes that it reads from a client depends on the
bytes that it has kept for the index of the client.  It copies the messages that
are complete and keeps the bytes behind them, unless one of the copies leaves
its array or overlaps itself, or the server goes on behind what it has read.
-/

namespace Pilot2Cloud
namespace InterMsg
namespace MsgServer

open Foundation Words Memory Platform

variable {server next : MsgServer} {ci len bufLen msgOffset : Nat}
  {row pcBuf : Block} {kept bytes data : List UInt8}
  {messages : List Message}

/-- The sizes of the arrays. -/
structure Shape (server : MsgServer) : Prop where
  watch : server.watchFdList.length = processMax + 1
  rows : server.gBuffer.length = processMax
  rowSize : ∀ row ∈ server.gBuffer, row.length = rowLength
  lens : server.gBufferLen.length = processMax
  buffer : server.buffer.length = unsocketBufferLength

/-- Some bytes are kept for an index. -/
structure Keeps (server : MsgServer) (ci : Nat) (kept : List UInt8) :
    Prop where
  len : server.gBufferLen[ci]? = some kept.length
  row : ∃ row, server.gBuffer[ci]? = some row ∧ row.Has 0 kept

theorem bufferLen_eq_ok (len : server.gBufferLen[ci]? = some kept.length) :
    server.bufferLen ci = .ok kept.length := by
  rw [bufferLen, len]

theorem row_eq_ok (isRow : server.gBuffer[ci]? = some row) :
    server.row ci = .ok row := by
  rw [MsgServer.row, isRow]

/-! ## Gathering -/

/-- The server after bytes are put behind the ones that were kept. -/
def gathered (server : MsgServer) (ci : Nat) (pcBuf buffer : Block)
    (inRow : Bool) : MsgServer :=
  { server with
    buffer := buffer
    gBuffer := if inRow then server.gBuffer.set ci pcBuf else server.gBuffer }

/-- The bytes that are read follow the ones that were kept, if there is room in
the array of the client. -/
theorem gather_cases (shape : server.Shape) (keeps : server.Keeps ci kept)
    (nonempty : bytes ≠ []) (fits : bytes.length ≤ unsocketBufferLength) :
    ((kept ≠ [] → kept.length + bytes.length ≤ rowLength) ∧
      ∃ pcBuf buffer, server.gather ci bytes =
          .ok (server.gathered ci pcBuf buffer (0 < kept.length), pcBuf,
            kept.length + bytes.length) ∧
        pcBuf.Has 0 (kept ++ bytes) ∧ buffer.length = server.buffer.length ∧
        pcBuf.length ≤ rowLength ∧
        (0 < kept.length → pcBuf.length = rowLength)) ∨
    (¬(kept ≠ [] → kept.length + bytes.length ≤ rowLength) ∧
      server.gather ci bytes = .error .writePastEnd) := by
  obtain ⟨buffer, written⟩ : ∃ buffer, server.buffer.write 0 bytes =
      .ok buffer := by
    refine ⟨_, Block.write_of_inside ?_⟩
    rw [shape.buffer]
    omega
  have sameSize := Block.length_of_write_ok written
  unfold gather
  rw [written, ok_bind, bufferLen_eq_ok keeps.len, ok_bind]
  by_cases isEmpty : kept = []
  · subst isEmpty
    refine .inl ⟨fun isSome => absurd rfl isSome, buffer, buffer, ?_, ?_,
      sameSize, ?_, ?_⟩
    · rw [if_neg (by simp)]
      simp only [List.length_nil, Nat.zero_add]
      rfl
    · exact Block.has_of_write_ok written
    · rw [sameSize, shape.buffer]
      decide
    · intro positive
      contradiction
  · have positive : 0 < kept.length := List.length_pos_iff.mpr isEmpty
    obtain ⟨row, isRow, has⟩ := keeps.row
    have rowSize := shape.rowSize row (List.mem_of_getElem? isRow)
    rw [if_pos positive, row_eq_ok isRow, ok_bind]
    by_cases room : kept.length + bytes.length ≤ rowLength
    · obtain ⟨pcBuf, copied, size, cells⟩ := @exists_pfMemcpy row
        kept.length bytes.length bytes le_rfl (by omega)
      refine .inl ⟨fun _ => room, pcBuf, buffer, ?_, ?_, sameSize, by omega,
        fun _ => by omega⟩
      · unfold rowLength at room
        rw [copied, ok_bind, wrap_of_lt (by omega), gathered,
          decide_eq_true positive]
        rfl
      · apply Block.has_append.mpr ⟨?_, ?_⟩
        · apply has.congr (by omega)
          intro index bound
          rw [cells, if_neg (by omega)]
        · refine ⟨by omega, ?_⟩
          intro index bound
          rw [cells, if_pos (by omega)]
          congr 2
          omega
    · refine .inr ⟨fun enough => room (enough isEmpty), ?_⟩
      have nonzero : bytes.length ≠ 0 := by
        rw [Ne, List.length_eq_zero_iff]
        exact nonempty
      have failed : pfMemcpy row kept.length (some bytes) bytes.length =
          .error .writePastEnd := by
        rw [pfMemcpy, if_neg nonzero, read_of_inside (by omega), ok_bind,
          List.drop_zero, List.take_length]
        exact Block.write_of_outside (by omega)
      rw [failed]
      rfl

/-! ## Keeping the rest -/

/-- The rest is kept at the start of the array, unless it lies there over itself
and the regions are not the same. -/
theorem keep_cases {inRow : Bool} (isRow : server.gBuffer[ci]? = some row)
    (rowSize : row.length = rowLength)
    (same : inRow → row = pcBuf) (has : pcBuf.Has 0 data)
    (inside : msgOffset ≤ data.length)
    (small : data.length ≤ rowLength) :
    ((inRow → data.length - msgOffset = 0 ∨ msgOffset = 0 ∨
        data.length - msgOffset ≤ msgOffset) ∧
      ∃ last, server.keep ci pcBuf inRow msgOffset data.length =
          .ok { server with
            gBuffer := server.gBuffer.set ci last
            gBufferLen :=
              server.gBufferLen.set ci (data.drop msgOffset).length } ∧
        last.length = rowLength ∧ last.Has 0 (data.drop msgOffset)) ∨
    (¬(inRow → data.length - msgOffset = 0 ∨ msgOffset = 0 ∨
        data.length - msgOffset ≤ msgOffset) ∧
      server.keep ci pcBuf inRow msgOffset data.length =
        .error .overlappingCopy) := by
  have readable := has.inside
  have isSelf : server.gBuffer.set ci row = server.gBuffer := by
    obtain ⟨bound, here⟩ := List.getElem?_eq_some_iff.mp isRow
    rw [← here, List.set_getElem_self]
  have split : (data.take msgOffset).length = msgOffset := by
    rw [List.length_take]
    omega
  have later : pcBuf.Has msgOffset (data.drop msgOffset) := by
    have both := has
    rw [← List.take_append_drop msgOffset data] at both
    have second := (Block.has_append.mp both).2
    rw [split, Nat.zero_add] at second
    exact second
  unfold keep
  by_cases finished : msgOffset = data.length
  · refine .inl ⟨fun _ => .inl (by omega), row, ?_, rowSize, ?_⟩
    · rw [if_neg (not_not.mpr finished), isSelf, List.length_drop, finished,
        Nat.sub_self]
      rfl
    · rw [finished, List.drop_length]
      exact Block.has_nil (Nat.zero_le _)
  · rw [if_pos finished, row_eq_ok isRow, ok_bind]
    have moved : ∀ last : Block, last.length = rowLength →
        (∀ position : Nat, last[position]? =
          if 0 ≤ position ∧ position < 0 + (data.length - msgOffset) then
            pcBuf[msgOffset + (position - 0)]?
          else row[position]?) →
        last.Has 0 (data.drop msgOffset) := by
      intro last size cells
      apply later.congr
      · rw [size, List.length_drop]
        omega
      · intro index bound
        rw [List.length_drop] at bound
        rw [cells, if_pos (by omega), Nat.sub_zero, Nat.zero_add]
    cases inRow with
    | false =>
        obtain ⟨last, copied, size, cells⟩ := @Block.exists_copyCells
          row pcBuf msgOffset 0 (data.length - msgOffset) (by omega)
          (by omega)
        refine .inl ⟨fun no => absurd no (by decide), last, ?_, ?_, ?_⟩
        · simp only [Bool.false_eq_true, if_false, copied, ok_bind,
            List.length_drop]
          rfl
        · exact size.trans rowSize
        · exact moved last (size.trans rowSize) cells
    | true =>
        obtain rfl := same rfl
        by_cases apart : msgOffset = 0 ∨ data.length - msgOffset ≤ msgOffset
        · obtain ⟨last, copied, size, cells⟩ := @Block.exists_copyCells
            row row msgOffset 0 (data.length - msgOffset) (by omega)
            (by omega)
          refine .inl ⟨fun _ => .inr apart, last, ?_, ?_, ?_⟩
          · simp only [if_true, Block.copyWithin]
            rw [if_pos (by omega), copied, ok_bind, List.length_drop]
            rfl
          · exact size.trans rowSize
          · exact moved last (size.trans rowSize) cells
        · refine .inr ⟨?_, ?_⟩
          · intro choices
            obtain isZero | rest := choices rfl
            · omega
            · exact apart rest
          · simp only [if_true, Block.copyWithin]
            rw [if_neg (by omega)]
            rfl

/-! ## Reading -/

/-- What it takes to read bytes from a client: its index is in the arrays, the
bytes fit behind the ones that were kept, the receiver stops behind the complete
messages, and the rest is not copied over itself. -/
structure Takes (server : MsgServer) (ci : Nat) (messages : List Message)
    (kept bytes : List UInt8) : Prop where
  inBounds : ci < processMax
  room : kept ≠ [] → kept.length + bytes.length ≤ rowLength
  stops : ∀ next pcBuf bufLen,
    server.gather ci bytes = .ok (next, pcBuf, bufLen) →
      Stops pcBuf (bufLen - leftover Message.frame messages bufLen) bufLen
  apart : kept ≠ [] →
    leftover Message.frame messages (kept.length + bytes.length) = 0 ∨
      leftover Message.frame messages (kept.length + bytes.length) =
        kept.length + bytes.length ∨
      2 * leftover Message.frame messages (kept.length + bytes.length) ≤
        kept.length + bytes.length

/-- The server with other bytes kept for an index. -/
def withKept (server : MsgServer) (ci len : Nat) (row buffer : Block) :
    MsgServer :=
  { server with
    gBuffer := server.gBuffer.set ci row
    gBufferLen := server.gBufferLen.set ci len
    buffer := buffer }

/-- Other bytes are kept for one index. -/
structure KeepsInstead (server next : MsgServer) (ci : Nat)
    (data : List UInt8) : Prop where
  watch : next.watchFdList = server.watchFdList
  shape : next.Shape
  here : next.Keeps ci data
  others : ∀ {other : Nat} {kept : List UInt8}, ci ≠ other →
    server.Keeps other kept → next.Keeps other kept

theorem Shape.withKept {buffer : Block} (shape : server.Shape)
    (inBounds : ci < processMax) (rowSize : row.length = rowLength)
    (sameSize : buffer.length = server.buffer.length)
    (has : row.Has 0 data) :
    server.KeepsInstead (server.withKept ci data.length row buffer) ci
      data where
  watch := rfl
  shape := {
    watch := shape.watch
    rows := List.length_set.trans shape.rows
    rowSize := by
      intro other member
      obtain member | rfl := List.mem_or_eq_of_mem_set member
      · exact shape.rowSize other member
      · exact rowSize
    lens := List.length_set.trans shape.lens
    buffer := sameSize.trans shape.buffer }
  here := {
    len := List.getElem?_set_self (by rw [shape.lens]; exact inBounds)
    row := ⟨row, List.getElem?_set_self (by rw [shape.rows]; exact inBounds),
      has⟩ }
  others := by
    intro other kept apart keeps
    obtain ⟨row, isRow, has⟩ := keeps.row
    exact {
      len := (List.getElem?_set_ne apart).trans keeps.len
      row := ⟨row, (List.getElem?_set_ne apart).trans isRow, has⟩ }

section

variable (isLen : server.gBufferLen[ci]? = some kept.length)
include isLen

theorem receive_of_gather_error {fault : Fault}
    (failed : server.gather ci bytes = .error fault) :
    server.receive ci bytes = .error fault := by
  rw [receive, bufferLen_eq_ok isLen, ok_bind, failed]
  rfl

variable (isGathered : server.gather ci bytes = .ok (next, pcBuf, bufLen))
include isGathered

theorem receive_of_copy_error {fault : Fault}
    (failed : unsocketCopyMsg pcBuf bufLen = .error fault) :
    server.receive ci bytes = .error fault := by
  rw [receive, bufferLen_eq_ok isLen, ok_bind, isGathered, ok_bind]
  simp only
  rw [failed]
  rfl

theorem receive_of_copy {copied : List CopiedMsg}
    (isCopied : unsocketCopyMsg pcBuf bufLen = .ok (msgOffset, copied)) :
    server.receive ci bytes = (do
      let last ← next.keep ci pcBuf (0 < kept.length) msgOffset bufLen
      return (last, copied)) := by
  rw [receive, bufferLen_eq_ok isLen, ok_bind, isGathered, ok_bind]
  simp only
  rw [isCopied]
  rfl

end

/-- The server copies the complete messages and keeps the bytes behind them, or
it ends in a fault. -/
theorem receive_cases (shape : server.Shape)
    (keeps : ci < processMax → server.Keeps ci kept)
    (nonempty : bytes ≠ []) (fits : bytes.length ≤ unsocketBufferLength)
    (isData : kept ++ bytes <+: messages.flatMap Message.frame) :
    (server.Takes ci messages kept bytes ∧
      ∃ next, server.receive ci bytes =
          .ok (next, (complete Message.frame messages
            (kept.length + bytes.length)).map Message.copied) ∧
        server.KeepsInstead next ci ((kept ++ bytes).drop
          (kept.length + bytes.length -
            leftover Message.frame messages
              (kept.length + bytes.length)))) ∨
    (¬server.Takes ci messages kept bytes ∧
      ∃ fault, server.receive ci bytes = .error fault) := by
  by_cases inBounds : ci < processMax
  swap
  · refine .inr ⟨fun takes => inBounds takes.inBounds, .readPastEnd, ?_⟩
    rw [receive, bufferLen, List.getElem?_eq_none (by
      rw [shape.lens]; exact Nat.not_lt.mp inBounds)]
    rfl
  have here := keeps inBounds
  obtain ⟨room, pcBuf, buffer, isGathered, has, sameSize, pcSize, inRowSize⟩ |
      ⟨noRoom, failed⟩ := gather_cases shape here nonempty fits
  swap
  · refine .inr ⟨fun takes => noRoom takes.room, .writePastEnd, ?_⟩
    exact receive_of_gather_error here.len failed
  have length : (kept ++ bytes).length = kept.length + bytes.length :=
    List.length_append
  have inside := has.inside
  have isTake := List.prefix_iff_eq_take.mp isData
  have bound := isData.length_le
  rw [length] at inside isTake bound
  have positive : 0 < kept.length + bytes.length := by
    have long := List.length_pos_iff.mpr nonempty
    omega
  rw [Nat.zero_add] at inside
  have parsed := has
  rw [isTake] at parsed
  have total := @length_complete_add_leftover _ Message.frame messages
    (kept.length + bytes.length)
  obtain ⟨stops, copied⟩ | ⟨goesOn, fault, failed⟩ := unsocketCopyMsg_cases
    positive parsed bound (by unfold rowLength at pcSize; omega)
  swap
  · refine .inr ⟨fun takes => goesOn ?_, fault, ?_⟩
    · exact takes.stops _ _ _ isGathered
    · exact receive_of_copy_error here.len isGathered failed
  rw [receive_of_copy here.len isGathered copied]
  obtain ⟨row, isRow, -⟩ := here.row
  have rowSize := shape.rowSize row (List.mem_of_getElem? isRow)
  -- the row that the rest is copied to, as it is after gathering
  obtain ⟨current, isCurrent, currentSize, same⟩ : ∃ current,
      (server.gathered ci pcBuf buffer (0 < kept.length)).gBuffer[ci]? =
        some current ∧
      current.length = rowLength ∧
      (decide (0 < kept.length) = true → current = pcBuf) := by
    by_cases isEmpty : 0 < kept.length
    · refine ⟨pcBuf, ?_, inRowSize isEmpty, fun _ => rfl⟩
      rw [gathered, decide_eq_true isEmpty]
      exact List.getElem?_set_self (by rw [shape.rows]; exact inBounds)
    · refine ⟨row, ?_, rowSize, fun yes => ?_⟩
      · rw [gathered, decide_eq_false isEmpty]
        exact isRow
      · exact absurd (of_decide_eq_true yes) isEmpty
  have setTwice : ∀ last : Block,
      (server.gathered ci pcBuf buffer (0 < kept.length)).gBuffer.set ci
          last = server.gBuffer.set ci last := by
    intro last
    unfold gathered
    simp only
    split
    · exact List.set_set _
    · rfl
  have apartIff : (kept ≠ [] ↔ decide (0 < kept.length) = true) := by
    rw [decide_eq_true_iff, List.length_pos_iff]
  obtain ⟨apart, last, isKept, lastSize, lastHas⟩ | ⟨overlaps, failed⟩ :=
    @keep_cases _ ci (kept.length + bytes.length -
      leftover Message.frame messages (kept.length + bytes.length))
      current pcBuf (kept ++ bytes) _ isCurrent currentSize same has
      (by omega) (by omega)
  · refine .inl ⟨⟨inBounds, room, ?_, ?_⟩, _, ?_,
      shape.withKept inBounds lastSize sameSize lastHas⟩
    · intro next otherBuf bufLen other
      obtain ⟨-, rfl, rfl⟩ :=
        Prod.mk.injEq .. ▸ Except.ok.inj (isGathered.symm.trans other)
      exact stops
    · intro isSome
      have choices := apart (apartIff.mp isSome)
      omega
    · rw [length] at isKept
      rw [isKept, ok_bind, setTwice]
      rfl
  · refine .inr ⟨fun takes => overlaps fun inRow => ?_, .overlappingCopy, ?_⟩
    · have choices := takes.apart (apartIff.mpr inRow)
      omega
    · rw [length] at failed
      rw [failed]
      rfl

/-- The bytes are taken where they fit, the length of the message that is not
complete has arrived, and the rest does not lie over the start of the array. -/
theorem takes_of_arrived (shape : server.Shape)
    (keeps : server.Keeps ci kept) (nonempty : bytes ≠ [])
    (fits : bytes.length ≤ unsocketBufferLength)
    (isData : kept ++ bytes <+: messages.flatMap Message.frame)
    (inBounds : ci < processMax)
    (room : kept.length + bytes.length ≤ rowLength)
    {message : Message} {others : List Message}
    (isNext : pending Message.frame messages (kept.length + bytes.length) =
      message :: others)
    (arrived : 12 ≤
      leftover Message.frame messages (kept.length + bytes.length))
    (small : message.payload.length < 2 ^ 31)
    (apart : kept ≠ [] →
      2 * leftover Message.frame messages (kept.length + bytes.length) ≤
        kept.length + bytes.length) :
    server.Takes ci messages kept bytes where
  inBounds := inBounds
  room := fun _ => room
  stops := by
    intro next pcBuf bufLen isGathered
    obtain ⟨-, found, buffer, other, has, -⟩ | ⟨noRoom, -⟩ :=
      gather_cases shape keeps nonempty fits
    swap
    · exact absurd (fun _ => room) noRoom
    obtain ⟨-, rfl, rfl⟩ :=
      Prod.mk.injEq .. ▸ Except.ok.inj (other.symm.trans isGathered)
    have isLength : (kept ++ bytes).length = kept.length + bytes.length :=
      List.length_append
    have isTake := List.prefix_iff_eq_take.mp isData
    have total := @length_complete_add_leftover _ Message.frame messages
      (kept.length + bytes.length)
    have short := leftover_lt isNext
    have whole := message.length_frame
    -- the bytes behind the complete messages
    have tail : pcBuf.Has
        (kept.length + bytes.length -
          leftover Message.frame messages (kept.length + bytes.length))
        ((message.frame ++ others.flatMap Message.frame).take
          (leftover Message.frame messages
            (kept.length + bytes.length))) := by
      have both := has
      rw [← List.take_append_drop (kept.length + bytes.length -
        leftover Message.frame messages (kept.length + bytes.length))
        (kept ++ bytes)] at both
      have second := (Block.has_append.mp both).2
      rw [List.length_take, isLength, Nat.zero_add,
        Nat.min_eq_left (Nat.sub_le _ _), isTake, isLength,
        drop_take_flatMap, isNext, List.flatMap_cons] at second
      exact second
    refine .inr ⟨message.payload.length,
      member_length tail arrived, ?_⟩
    unfold rowLength at room
    unfold mboxLen at whole ⊢
    rw [wrap_of_lt (by omega)]
    omega
  apart := by
    intro isSome
    exact .inr (.inr (apart isSome))

end MsgServer
end InterMsg
end Pilot2Cloud
