import Pilot2Cloud.Foundation.Outcome
import Pilot2Cloud.Network.Resume

/-!
# The decoder on a stream of well-framed packets

After any number of chunks the decoder has handled exactly the packets that
have arrived completely, in order, and its half-packet buffer holds the part of
the next packet that has arrived.  This is kept by every chunk that reaches to
the end of the length members of the packet it continues; a chunk that falls
short of them makes the decoder read past its end.
-/

namespace Pilot2Cloud
namespace Network

open Foundation Words Memory

variable {σ : Type} {decoder : Decoder σ}

/-- The reassembly of fragments reads nothing behind the fragment. -/
def Decoder.ReadsOnlyPacket (decoder : Decoder σ) : Prop :=
  ∀ recv packet back, WellFramed decoder.lastEvent packet →
    isSubpacket packet = true →
    decoder.receiveSubpacket recv (packet ++ back) =
      decoder.receiveSubpacket recv packet

/-- Hand complete packets on, one after the other. -/
def handlePackets (decoder : Decoder σ) :
    σ → List (List UInt8) → Except Fault (σ × List Block)
  | recv, [] => .ok (recv, [])
  | recv, packet :: packets => do
      let (recv, received) ←
        handlePacket decoder recv (isSubpacket packet) packet packet.length
      let (final, later) ← handlePackets decoder recv packets
      return (final, received ++ later)

/-- Handling a sequence of packets is handling its front and then its back. -/
theorem handlePackets_append_iff
    {recv final : σ} {front back : List (List UInt8)} {received : List Block} :
    handlePackets decoder recv (front ++ back) = .ok (final, received) ↔
      ∃ middle early late,
        handlePackets decoder recv front = .ok (middle, early) ∧
        handlePackets decoder middle back = .ok (final, late) ∧
        received = early ++ late := by
  induction front generalizing recv received final with
  | nil =>
      constructor
      · intro handled
        exact ⟨recv, [], received, rfl, handled, rfl⟩
      · rintro ⟨middle, early, late, atOnce, handled, rfl⟩
        simp only [handlePackets, Except.ok.injEq, Prod.mk.injEq] at atOnce
        obtain ⟨rfl, rfl⟩ := atOnce
        exact handled
  | cons packet front inductionHypothesis =>
      simp only [List.cons_append, handlePackets, bind_eq_ok_iff,
        Prod.exists, inductionHypothesis, pure_eq_ok, Except.ok.injEq,
        Prod.mk.injEq]
      constructor
      · rintro ⟨next, first, handled, last, received,
          ⟨middle, early, late, handledFront, handledBack, rfl⟩, rfl, rfl⟩
        exact ⟨middle, first ++ early, late,
          ⟨next, first, handled, middle, early, handledFront, rfl, rfl⟩,
          handledBack, (List.append_assoc _ _ _).symm⟩
      · rintro ⟨middle, early, late,
          ⟨next, first, handled, last, received, handledFront, rfl, rfl⟩,
          handledBack, rfl⟩
        exact ⟨next, first, handled, final, received ++ late,
          ⟨last, received, late, handledFront, handledBack, rfl⟩,
          rfl, (List.append_assoc _ _ _).symm⟩

/-- A packet at the front of a chunk is handled like the packet alone. -/
theorem handlePacket_append
    (readsOnlyPacket : decoder.ReadsOnlyPacket) {packet : List UInt8}
    (framed : WellFramed decoder.lastEvent packet) (recv : σ)
    (back : List UInt8) :
    handlePacket decoder recv (isSubpacket packet) (packet ++ back)
        packet.length =
      handlePacket decoder recv (isSubpacket packet) packet
        packet.length := by
  cases sub : isSubpacket packet with
  | true => exact readsOnlyPacket recv packet back framed sub
  | false =>
      simp only [handlePacket, Bool.false_eq_true, if_false]
      rw [read_append_left packet back (by omega)]

/-! ## The state after a part of the stream -/

/-- The half-packet buffer holds `front`, the part that has arrived of the
first of `packets`. -/
inductive Pending :
    List (List UInt8) → Option HalfPack → List UInt8 → Prop
  | none : Pending packets none []
  | some (half : HalfPack)
      (isPrefix : half.bytes <+: packet)
      (short : half.bytes.length < packet.length)
      (sized : sizeofPacketHead ≤ half.bytes.length →
        half.size = packet.length) :
      Pending (packet :: packets) (some half) half.bytes

/-- The decoder, started on `recv`, has taken in `data` of the stream of
`packets`. -/
def Consumed
    (decoder : Decoder σ) (recv : σ) (packets : List (List UInt8))
    (data : List UInt8) (state : DecodeState σ) (received : List Block) :
    Prop :=
  ∃ done rest front,
    packets = done ++ rest ∧
    data = done.flatten ++ front ∧
    Pending rest state.halfpack front ∧
    state.findMsghead = false ∧
    handlePackets decoder recv done = .ok (state.recv, received)

/-- Taking in the packets of a front and then a part of the rest. -/
theorem Consumed.after
    {recv middle : σ} {done rest : List (List UInt8)} {data : List UInt8}
    {state : DecodeState σ} {early late : List Block}
    (handled : handlePackets decoder recv done = .ok (middle, early))
    (consumed : Consumed decoder middle rest data state late) :
    Consumed decoder recv (done ++ rest) (done.flatten ++ data) state
      (early ++ late) := by
  obtain ⟨next, left, front, rfl, rfl, pending, noSearch, handledNext⟩ :=
    consumed
  refine ⟨done ++ next, left, front, (List.append_assoc _ _ _).symm, ?_,
    pending, noSearch, ?_⟩
  · rw [List.flatten_append, List.append_assoc]
  · exact handlePackets_append_iff.mpr
      ⟨middle, early, late, handled, handledNext, rfl⟩

/-- Once the whole stream has been taken in, nothing is pending. -/
theorem Consumed.finished
    {recv final : σ} {packets : List (List UInt8)}
    {state : DecodeState σ} {received all : List Block}
    (framed : ∀ packet ∈ packets, WellFramed decoder.lastEvent packet)
    (handled : handlePackets decoder recv packets = .ok (final, all))
    (consumed :
      Consumed decoder recv packets packets.flatten state received) :
    state = ⟨none, final, false⟩ ∧ received = all := by
  obtain ⟨halfpack, next, findMsghead⟩ := state
  obtain ⟨done, rest, front, split, data, pending, rfl, handledDone⟩ :=
    consumed
  rw [split, List.flatten_append, List.append_cancel_left_eq] at data
  have nothing : rest = [] ∧ halfpack = none := by
    cases pending with
    | none =>
        refine ⟨?_, rfl⟩
        cases rest with
        | nil => rfl
        | cons packet rest =>
            have header := (framed packet (by simp [split])).hasHeader
            rw [List.flatten_cons, List.append_eq_nil_iff] at data
            rw [data.1] at header
            simp at header
    | some half isPrefix short sized =>
        have length := congrArg List.length data
        rw [List.flatten_cons, List.length_append] at length
        omega
  obtain ⟨rfl, rfl⟩ := nothing
  rw [List.append_nil] at split
  rw [split, handledDone] at handled
  simp only [Except.ok.injEq, Prod.mk.injEq] at handled
  simp [handled]

/-! ## One chunk -/

/-- A part of a packet at the end of a chunk is kept. -/
theorem scan_partial
    (recv : σ) (fuel : Nat)
    (tcp : decoder.protocol = .tcp)
    {chunk back packet : List UInt8}
    (framed : WellFramed decoder.lastEvent packet)
    (stream : chunk <+: packet ++ back)
    (short : chunk.length < packet.length) (pending : chunk ≠ []) :
    ∃ half, scan decoder (fuel + 1) ⟨none, recv, false⟩ chunk =
        .ok ⟨⟨some half, recv, false⟩, [], chunk⟩ ∧
      half.bytes = chunk ∧
      (sizeofPacketHead ≤ half.bytes.length → half.size = packet.length) := by
  have typeBound := framed.msgtype
  have notUdp : decoder.protocol ≠ .udp := by simp [tcp]
  by_cases arrived : headBytes packet ≤ chunk.length
  · obtain ⟨msgtype, frontRead, value⟩ :=
      readFront_of_headBytes framed stream arrived
    obtain ⟨fits, kept⟩ := scan_incomplete decoder fuel
      ⟨none, recv, false⟩ pending frontRead
      (.inr short)
    have accepted : ¬Rejected decoder false
        ⟨packet.length, msgtype, isSubpacket packet⟩ chunk := by
      have lengthMax := framed.lengthMax
      simp only [Rejected, Bool.false_eq_true, false_and, or_false]
      rcases value with rfl | rfl <;> omega
    refine ⟨⟨_, chunk, pending, fits⟩, kept.trans ?_, rfl, fun _ => ?_⟩
    · rw [if_neg notUdp, if_neg accepted]
    · have header := framed.hasHeader
      exact if_neg (show ¬packet.length = 0 by omega)
  · obtain ⟨msgtype, issubpacket, frontRead, value⟩ :=
      readFront_of_short framed stream (by omega)
    obtain ⟨fits, kept⟩ := scan_incomplete decoder fuel
      ⟨none, recv, false⟩ pending frontRead
      (.inl rfl)
    have accepted : ¬Rejected decoder false ⟨0, msgtype, issubpacket⟩
        chunk := by
      simp only [Rejected, Bool.false_eq_true, false_and, or_false]
      rcases value with rfl | rfl <;> omega
    refine ⟨⟨_, chunk, pending, fits⟩, kept.trans ?_, rfl, fun long => ?_⟩
    · rw [if_neg notUdp, if_neg accepted]
    · have headBound : headBytes packet ≤ 36 := by
        unfold headBytes
        split <;> omega
      simp only [sizeofPacketHead] at long
      omega

/-- A chunk that falls short of the packet's length members is overread. -/
theorem WellFramed.resume_of_short_head
    {packet chunk back : List UInt8} {state : DecodeState σ} {half : HalfPack}
    (framed : WellFramed decoder.lastEvent packet)
    (stream : half.bytes ++ chunk <+: packet ++ back)
    (short : half.bytes.length + chunk.length < headBytes packet) :
    resume decoder state half chunk = .error .readPastEnd := by
  have sameReach := (headBytes_of_stream framed stream).1
  rw [List.length_append] at sameReach
  exact Network.resume_of_short_head (by rw [List.length_append]; omega)

/-- A chunk that does not complete the packet is appended to the buffer. -/
theorem WellFramed.resume_of_incomplete
    (decoder : Decoder σ) (recv : σ)
    {packet chunk back : List UInt8} {half : HalfPack}
    (framed : WellFramed decoder.lastEvent packet)
    (stream : half.bytes ++ chunk <+: packet ++ back)
    (arrived : headBytes packet ≤ half.bytes.length + chunk.length)
    (sized : sizeofPacketHead ≤ half.bytes.length →
      half.size = packet.length)
    (incomplete : half.bytes.length + chunk.length < packet.length) :
    ∃ longer, resume decoder ⟨some half, recv, false⟩ half chunk =
        .ok ⟨⟨some longer, recv, false⟩, [], chunk⟩ ∧
      longer.bytes = half.bytes ++ chunk ∧ longer.size = packet.length := by
  rw [← List.length_append] at arrived incomplete
  obtain ⟨sameReach, known⟩ := headBytes_of_stream framed stream
  obtain ⟨length, -⟩ := known arrived
  rw [← length]
  refine Network.resume_of_incomplete (sameReach.mpr arrived) ?_ ?_
    decoder _ ?_
  · rw [length]
    exact framed.lengthMax
  · rw [length]
    rw [List.length_append] at incomplete
    exact HalfPack.grow_of_fits (by omega) sized
  · rw [length]
    exact incomplete

/-- A chunk that completes the packet has it handled, and the rest of the chunk
is scanned. -/
theorem WellFramed.resume_of_complete
    {packet missing later : List UInt8} {recv : σ} {half : HalfPack}
    (framed : WellFramed decoder.lastEvent packet)
    (whole : half.bytes ++ missing = packet)
    (short : half.bytes.length < packet.length)
    (sized : sizeofPacketHead ≤ half.bytes.length →
      half.size = packet.length)
    (bounded : (missing ++ later).length ≤ recvBufferSize) :
    resume decoder ⟨some half, recv, false⟩ half (missing ++ later) = do
      let (recv, received) ← handlePacket decoder recv (isSubpacket packet)
        packet packet.length
      let rest ← scanChunk decoder ⟨none, recv, false⟩ later
      return { rest with received := received ++ rest.received } := by
  have joined : half.bytes ++ (missing ++ later) = packet ++ later := by
    rw [← List.append_assoc, whole]
  have stream : half.bytes ++ (missing ++ later) <+: packet ++ later :=
    ⟨[], by rw [List.append_nil, joined]⟩
  have arrived : headBytes packet ≤
      (half.bytes ++ (missing ++ later)).length := by
    have headBound := framed.headBytes_le
    rw [joined, List.length_append]
    omega
  obtain ⟨sameReach, known⟩ := headBytes_of_stream framed stream
  obtain ⟨length, flag⟩ := known arrived
  have grows : half.GrowsTo packet.length :=
    HalfPack.grow_of_fits (by omega) sized
  have resumed := Network.resume_of_complete (sameReach.mpr arrived)
    (by rw [length]; exact framed.lengthMax) (by rw [length]; exact grows)
    decoder ⟨some half, recv, false⟩ bounded (by rw [length]; omega)
    (by rw [length, joined, List.length_append]; omega)
  rw [resumed, length, flag, joined, List.take_left, List.drop_left]

/-- A chunk reaches to the end of the length members of the packet in the
middle of which it starts, if there is one. -/
def HeadArrives
    (packets : List (List UInt8)) (chunk : Nat × List UInt8) : Prop :=
  ∀ packet ∈ segments 0 packets, packet.1 < chunk.1 →
    chunk.1 < packet.1 + packet.2.length →
    packet.1 + headBytes packet.2 ≤ chunk.1 + chunk.2.length

instance (packets : List (List UInt8)) (chunk : Nat × List UInt8) :
    Decidable (HeadArrives packets chunk) :=
  inferInstanceAs (Decidable (∀ packet ∈ segments 0 packets, _))

/-- The packet in the middle of which a chunk starts is the pending one. -/
theorem headArrives_iff
    {done rest : List (List UInt8)} {front chunk : List UInt8}
    {halfpack : Option HalfPack} (pending : Pending rest halfpack front) :
    HeadArrives (done ++ rest) ((done.flatten ++ front).length, chunk) ↔
      ∀ half packet packets, halfpack = some half →
        rest = packet :: packets →
        headBytes packet ≤ half.bytes.length + chunk.length := by
  simp only [HeadArrives, segments_append, Nat.zero_add, List.length_append]
  cases pending with
  | none =>
      refine iff_of_true ?_ (by simp)
      intro packet member before behind
      rw [List.mem_append] at member
      rcases member with early | late
      · have bound := end_le_of_mem_segments early
        simp only [List.length_nil] at behind
        omega
      · have bound := le_of_mem_segments late
        simp only [List.length_nil] at before
        omega
  | @some packet packets half isPrefix short sized =>
      have nonempty : 0 < half.bytes.length :=
        List.length_pos_iff.mpr half.pending
      constructor
      · rintro arrives _ _ _ ⟨⟩ ⟨⟩
        have here := arrives (done.flatten.length, packet)
          (by simp [segments])
          (by simp only; omega) (by simp only; omega)
        simp only at here
        omega
      · intro arrived member inside before behind
        have here := arrived half packet packets rfl rfl
        rw [segments, List.mem_append, List.mem_cons] at inside
        rcases inside with early | rfl | late
        · have bound := end_le_of_mem_segments early
          omega
        · simp only
          omega
        · have bound := le_of_mem_segments late
          omega

/-- A chunk that falls short of the length members of the pending packet is
overread. -/
theorem checkPacket_of_not_headArrives
    {packets : List (List UInt8)} {recv : σ} {received : List Block}
    {data chunk : List UInt8} {state : DecodeState σ}
    (framed : ∀ packet ∈ packets, WellFramed decoder.lastEvent packet)
    (consumed : Consumed decoder recv packets data state received)
    (stream : data ++ chunk <+: packets.flatten)
    (fallsShort : ¬HeadArrives packets (data.length, chunk)) :
    checkPacket decoder state chunk = .error .readPastEnd := by
  obtain ⟨halfpack, middle, findMsghead⟩ := state
  obtain ⟨done, rest, front, rfl, rfl, pending, rfl, handledDone⟩ := consumed
  rw [headArrives_iff pending] at fallsShort
  rw [List.flatten_append, List.append_assoc,
    List.prefix_append_right_inj] at stream
  cases pending with
  | none => simp at fallsShort
  | @some packet packets half isPrefix short sized =>
      have unread : half.bytes.length + chunk.length < headBytes packet := by
        by_contra reached
        refine fallsShort ?_
        rintro _ _ _ ⟨⟩ ⟨⟩
        omega
      exact WellFramed.resume_of_short_head (framed packet (by simp)) stream
        unread

section Chunk

variable (tcp : decoder.protocol = .tcp)
  (readsOnlyPacket : decoder.ReadsOnlyPacket)

include tcp readsOnlyPacket

/-- Scanning a part of the stream handles the packets that are complete in it
and keeps the rest.  The induction follows the packets. -/
theorem scan_consumed
    {packets : List (List UInt8)} {recv final : σ} {all : List Block}
    {chunk : List UInt8} {fuel : Nat}
    (framed : ∀ packet ∈ packets, WellFramed decoder.lastEvent packet)
    (handled : handlePackets decoder recv packets = .ok (final, all))
    (stream : chunk <+: packets.flatten) (enough : chunk.length < fuel) :
    ∃ result, scan decoder fuel ⟨none, recv, false⟩ chunk = .ok result ∧
      Consumed decoder recv packets chunk result.state result.received := by
  induction packets generalizing recv all chunk fuel with
  | nil =>
      obtain ⟨room, rfl⟩ : ∃ room, fuel = room + 1 := ⟨fuel - 1, by omega⟩
      have empty : chunk = [] := List.prefix_nil.mp stream
      subst empty
      exact ⟨⟨⟨none, recv, false⟩, [], []⟩, by simp [scan, pure, Except.pure],
        [], [], [], rfl, rfl, .none, rfl, rfl⟩
  | cons packet packets inductionHypothesis =>
      obtain ⟨room, rfl⟩ : ∃ room, fuel = room + 1 := ⟨fuel - 1, by omega⟩
      by_cases empty : chunk = []
      · subst empty
        exact ⟨⟨⟨none, recv, false⟩, [], []⟩,
          by simp [scan, pure, Except.pure],
          [], packet :: packets, [], rfl, rfl, .none, rfl, rfl⟩
      have framedHere := framed packet List.mem_cons_self
      have framedLater : ∀ later ∈ packets,
          WellFramed decoder.lastEvent later :=
        fun later member => framed later (List.mem_cons_of_mem _ member)
      rw [List.flatten_cons] at stream
      by_cases complete : packet.length ≤ chunk.length
      · obtain ⟨later, rfl⟩ : packet <+: chunk :=
          List.prefix_of_prefix_length_le (List.prefix_append _ _) stream
            complete
        rw [List.prefix_append_right_inj] at stream
        obtain ⟨msgtype, frontRead, _⟩ := readFront_of_headBytes framedHere
          (List.prefix_rfl (l := packet ++ later))
          (Nat.le_trans framedHere.headBytes_le complete)
        have header := framedHere.hasHeader
        rw [List.length_append] at enough
        simp only [handlePackets, bind_eq_ok_iff, Prod.exists, pure_eq_ok,
          Except.ok.injEq, Prod.mk.injEq] at handled
        obtain ⟨next, first, handledHere, last, received, handledLater, rfl,
          rfl⟩ := handled
        obtain ⟨result, scanned, done, rest, front, split, data, pending,
          noSearch, handledDone⟩ := inductionHypothesis
            framedLater handledLater stream (show later.length < room by omega)
        refine ⟨{ result with received := first ++ result.received }, ?_,
          packet :: done, rest, front, ?_, ?_, pending, noSearch, ?_⟩
        · rw [scan_complete empty frontRead
            (show packet.length ≠ 0 by omega)
            (show packet.length ≤ (packet ++ later).length from complete)]
          simp only [handlePacket_append readsOnlyPacket framedHere,
            handledHere, ok_bind, List.drop_left', scanned, pure_eq_ok]
        · rw [split, List.cons_append]
        · rw [data, List.flatten_cons, List.append_assoc]
        · simp [handlePackets, handledHere, handledDone]
      · obtain ⟨half, kept, bytes, sized⟩ := scan_partial recv room tcp
          framedHere stream (by omega) empty
        have isPrefix : half.bytes <+: packet := bytes ▸
          List.prefix_of_prefix_length_le stream (List.prefix_append _ _)
            (by omega)
        subst bytes
        exact ⟨_, kept, [], packet :: packets, half.bytes, rfl, rfl,
          .some half isPrefix (by omega) sized, rfl, rfl⟩

/-- A chunk that continues a packet and reaches to the end of its length
members completes it or is kept with it. -/
theorem resume_consumed
    {packet : List UInt8} {packets : List (List UInt8)} {recv final : σ}
    {all : List Block} {half : HalfPack} {chunk : List UInt8}
    (framed : ∀ member ∈ packet :: packets,
      WellFramed decoder.lastEvent member)
    (handled :
      handlePackets decoder recv (packet :: packets) = .ok (final, all))
    (isPrefix : half.bytes <+: packet)
    (short : half.bytes.length < packet.length)
    (sized : sizeofPacketHead ≤ half.bytes.length →
      half.size = packet.length)
    (stream : half.bytes ++ chunk <+: packet ++ packets.flatten)
    (bounded : chunk.length ≤ recvBufferSize)
    (arrived : headBytes packet ≤ half.bytes.length + chunk.length) :
    ∃ result, resume decoder ⟨some half, recv, false⟩ half chunk =
        .ok result ∧
      Consumed decoder recv (packet :: packets) (half.bytes ++ chunk)
        result.state result.received := by
  have framedHere := framed packet List.mem_cons_self
  have framedLater : ∀ later ∈ packets,
      WellFramed decoder.lastEvent later :=
    fun later member => framed later (List.mem_cons_of_mem _ member)
  by_cases complete : packet.length ≤ half.bytes.length + chunk.length
  · obtain ⟨missing, whole⟩ := isPrefix
    obtain ⟨later, split⟩ : packet <+: half.bytes ++ chunk :=
      List.prefix_of_prefix_length_le (List.prefix_append _ _) stream
        (by rw [List.length_append]; exact complete)
    have chunkSplit : chunk = missing ++ later := by
      rw [← whole, List.append_assoc, List.append_cancel_left_eq] at split
      exact split.symm
    subst chunkSplit
    rw [← List.append_assoc, whole, List.prefix_append_right_inj] at stream
    simp only [handlePackets, bind_eq_ok_iff, Prod.exists, pure_eq_ok,
      Except.ok.injEq, Prod.mk.injEq] at handled
    obtain ⟨next, first, handledHere, last, received, handledLater, rfl,
      rfl⟩ := handled
    obtain ⟨result, scanned, consumed⟩ := scan_consumed tcp
      readsOnlyPacket framedLater handledLater stream
      (Nat.lt_succ_self later.length)
    refine ⟨{ result with received := first ++ result.received }, ?_, ?_⟩
    · rw [WellFramed.resume_of_complete framedHere whole short sized bounded,
        handledHere, ok_bind]
      simp only [scanChunk, scanned, ok_bind, pure_eq_ok]
    · have handledFirst : handlePackets decoder recv [packet] =
          .ok (next, first) := by
        simp [handlePackets, handledHere]
      have after := consumed.after handledFirst
      rw [List.flatten_singleton] at after
      rw [← List.append_assoc, whole]
      exact after
  · obtain ⟨longer, resumed, bytes, size⟩ := WellFramed.resume_of_incomplete
      decoder recv framedHere stream arrived sized (by omega)
    have longerPrefix : longer.bytes <+: packet := bytes ▸
      List.prefix_of_prefix_length_le stream (List.prefix_append _ _)
        (by rw [List.length_append]; omega)
    have longerShort : longer.bytes.length < packet.length := by
      rw [bytes, List.length_append]
      omega
    exact ⟨_, resumed, [], packet :: packets, longer.bytes, rfl,
      bytes.symm, .some longer longerPrefix longerShort fun _ => size, rfl,
      rfl⟩

/-- A chunk that reaches to the end of the length members of the packet it
continues takes the decoder to the state after it. -/
theorem checkPacket_consumed
    {packets : List (List UInt8)} {recv final : σ} {all received : List Block}
    {data chunk : List UInt8} {state : DecodeState σ}
    (framed : ∀ packet ∈ packets, WellFramed decoder.lastEvent packet)
    (handled : handlePackets decoder recv packets = .ok (final, all))
    (consumed : Consumed decoder recv packets data state received)
    (stream : data ++ chunk <+: packets.flatten)
    (bounded : chunk.length ≤ recvBufferSize)
    (arrives : HeadArrives packets (data.length, chunk)) :
    ∃ result, checkPacket decoder state chunk = .ok result ∧
      Consumed decoder recv packets (data ++ chunk) result.state
        (received ++ result.received) := by
  obtain ⟨halfpack, middle, findMsghead⟩ := state
  obtain ⟨done, rest, front, rfl, rfl, pending, rfl, handledDone⟩ := consumed
  obtain ⟨middle', early, late, handledDone', handledRest, -⟩ :=
    handlePackets_append_iff.mp handled
  rw [handledDone, Except.ok.injEq, Prod.mk.injEq] at handledDone'
  obtain ⟨rfl, rfl⟩ := handledDone'
  rw [headArrives_iff pending] at arrives
  rw [List.flatten_append, List.append_assoc,
    List.prefix_append_right_inj] at stream
  rw [List.append_assoc]
  have framedRest : ∀ packet ∈ rest, WellFramed decoder.lastEvent packet :=
    fun packet member => framed packet (List.mem_append_right _ member)
  cases pending with
  | none =>
      obtain ⟨result, scanned, after⟩ := scan_consumed tcp
        readsOnlyPacket framedRest handledRest stream
        (Nat.lt_succ_self chunk.length)
      exact ⟨result, scanned, after.after handledDone⟩
  | some half isPrefix short sized =>
      obtain ⟨result, resumed, after⟩ := resume_consumed tcp
        readsOnlyPacket framedRest handledRest isPrefix short sized stream
        bounded (arrives half _ _ rfl rfl)
      exact ⟨result, resumed, after.after handledDone⟩

/-! ## All chunks of a connection -/

/-- Every chunk reaches to the end of the length members of the packet in the
middle of which it starts. -/
def HeadsArrive (packets chunks : List (List UInt8)) : Prop :=
  ∀ chunk ∈ segments 0 chunks, HeadArrives packets chunk

instance (packets chunks : List (List UInt8)) :
    Decidable (HeadsArrive packets chunks) :=
  inferInstanceAs (Decidable (∀ chunk ∈ segments 0 chunks, _))

theorem checkPackets_consumed
    {packets chunks : List (List UInt8)} {recv final : σ}
    {all received : List Block} {data : List UInt8} {state : DecodeState σ}
    (framed : ∀ packet ∈ packets, WellFramed decoder.lastEvent packet)
    (handled : handlePackets decoder recv packets = .ok (final, all))
    (bounded : ∀ chunk ∈ chunks, chunk.length ≤ recvBufferSize)
    (consumed : Consumed decoder recv packets data state received)
    (stream : data ++ chunks.flatten = packets.flatten)
    (arrive : ∀ chunk ∈ segments data.length chunks,
      HeadArrives packets chunk) :
    ∃ last later, checkPackets decoder state chunks = .ok (last, later) ∧
      Consumed decoder recv packets packets.flatten last
        (received ++ later) := by
  induction chunks generalizing data state received with
  | nil =>
      rw [List.flatten_nil, List.append_nil] at stream
      subst stream
      exact ⟨state, [], rfl, by rwa [List.append_nil]⟩
  | cons chunk chunks inductionHypothesis =>
      rw [List.flatten_cons, ← List.append_assoc] at stream
      rw [segments, List.forall_mem_cons] at arrive
      obtain ⟨result, checked, consumedNext⟩ := checkPacket_consumed tcp
        readsOnlyPacket framed handled consumed
        ⟨chunks.flatten, stream⟩ (bounded chunk List.mem_cons_self) arrive.1
      have arriveLater := arrive.2
      rw [← List.length_append] at arriveLater
      obtain ⟨last, later, checkedLater, consumedLast⟩ := inductionHypothesis
        (fun later member => bounded later (List.mem_cons_of_mem _ member))
        consumedNext stream arriveLater
      refine ⟨last, result.received ++ later, ?_, ?_⟩
      · simp only [checkPackets, checked, ok_bind, checkedLater, pure_eq_ok]
      · rwa [← List.append_assoc]

theorem checkPackets_of_not_headArrives
    {packets chunks : List (List UInt8)} {recv final : σ}
    {all received : List Block} {data : List UInt8} {state : DecodeState σ}
    (framed : ∀ packet ∈ packets, WellFramed decoder.lastEvent packet)
    (handled : handlePackets decoder recv packets = .ok (final, all))
    (bounded : ∀ chunk ∈ chunks, chunk.length ≤ recvBufferSize)
    (consumed : Consumed decoder recv packets data state received)
    (stream : data ++ chunks.flatten = packets.flatten)
    (fallsShort : ¬∀ chunk ∈ segments data.length chunks,
      HeadArrives packets chunk) :
    checkPackets decoder state chunks = .error .readPastEnd := by
  induction chunks generalizing data state received with
  | nil => simp [segments] at fallsShort
  | cons chunk chunks inductionHypothesis =>
      rw [List.flatten_cons, ← List.append_assoc] at stream
      rw [segments, List.forall_mem_cons] at fallsShort
      by_cases arrives : HeadArrives packets (data.length, chunk)
      · obtain ⟨result, checked, consumedNext⟩ := checkPacket_consumed tcp
          readsOnlyPacket framed handled consumed
          ⟨chunks.flatten, stream⟩ (bounded chunk List.mem_cons_self) arrives
        have later := inductionHypothesis
          (fun later member => bounded later (List.mem_cons_of_mem _ member))
          consumedNext stream (by
            rw [List.length_append]
            exact fun arriveLater => fallsShort ⟨arrives, arriveLater⟩)
        simp only [checkPackets, checked, ok_bind, later, error_bind]
      · rw [checkPackets, checkPacket_of_not_headArrives framed consumed
          ⟨chunks.flatten, stream⟩ arrives, error_bind]

/-- However the stream of well-framed packets is cut into chunks: if the head
of every packet arrives in time, the packets are handled as if each had come
alone and nothing is pending at the end; if not, a chunk is overread. -/
theorem checkPackets_stream
    {packets chunks : List (List UInt8)} {recv final : σ} {all : List Block}
    (framed : ∀ packet ∈ packets, WellFramed decoder.lastEvent packet)
    (handled : handlePackets decoder recv packets = .ok (final, all))
    (bounded : ∀ chunk ∈ chunks, chunk.length ≤ recvBufferSize)
    (stream : chunks.flatten = packets.flatten) :
    checkPackets decoder ⟨none, recv, false⟩ chunks =
      if HeadsArrive packets chunks then
        .ok (⟨none, final, false⟩, all)
      else .error .readPastEnd := by
  have start : Consumed decoder recv packets [] ⟨none, recv, false⟩ [] :=
    ⟨[], packets, [], rfl, rfl, .none, rfl, rfl⟩
  by_cases arrive : HeadsArrive packets chunks
  · obtain ⟨last, later, checked, consumed⟩ := checkPackets_consumed tcp
      readsOnlyPacket framed handled bounded start
      (by rw [List.nil_append, stream]) arrive
    obtain ⟨rfl, rfl⟩ := consumed.finished framed handled
    rw [if_pos arrive, checked, List.nil_append]
  · rw [if_neg arrive]
    exact checkPackets_of_not_headArrives tcp readsOnlyPacket framed
      handled bounded start (by rw [List.nil_append, stream]) arrive

end Chunk

end Network
end Pilot2Cloud
