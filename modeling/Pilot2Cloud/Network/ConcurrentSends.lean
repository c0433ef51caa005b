import Mathlib.Data.Bool.Count
import Pilot2Cloud.Foundation.Interleaving
import Pilot2Cloud.Network.Lossless

/-!
# Two sends at a time to a client

Two threads that send large messages over one connection interleave their
fragments on the wire.  A client has one receive buffer and counts in it like a
collector with one slot, so that both messages arrive only if one of them needs
no reassembly or the fragments of one all precede those of the other.
-/

namespace Pilot2Cloud
namespace Network

open Foundation Words Memory

/-! ## The client's buffer as a collector -/

section Tracks

variable {τ : Type} [DecidableEq τ] {lastEvent : Nat}
  (calls : τ → LargeSend lastEvent) (malloc : Nat → Bool)

/-- The parts of a call's message. -/
def partsOf (whole : τ) : Nat := (calls whole).count

/-- There is memory for a call's message. -/
def servesWhole (whole : τ) : Bool := malloc (calls whole).message.length

/-- A fragment of one of the calls. -/
def packetOf (arrival : τ × Nat) : List UInt8 :=
  (calls arrival.1).fragment arrival.2

/-- A client's buffer holds what the slot of a collector counts, and none of
the fragments that are still to come. -/
inductive Tracks (coming : List (τ × Nat)) : Slot τ → Recvbuf → Prop
  | idle : Tracks coming none Recvbuf.idle
  | holding (whole : τ) (stored : List Nat) (recvbuf : Recvbuf)
      (collecting : Collecting (calls whole) stored recvbuf)
      (started : stored ≠ [])
      (arrived : ∀ index ∈ stored, (whole, index) ∉ coming) :
      Tracks coming (some (whole, stored.length)) recvbuf

/-- The messages of the calls that a slot completes. -/
def messagesOf (complete : List τ) : List Block :=
  complete.map fun whole => (calls whole).message.map some

/-- What a fragment makes of the client's buffer and of the slot that the
buffer tracks. -/
def KeepsTracking
    (protocol : NetProtocol) (coming : List (τ × Nat)) (slot : Slot τ)
    (recvbuf : Recvbuf) (arrival : τ × Nat) : Prop :=
  ∃ next,
    handlePacket (ClientNetSession.decoder protocol lastEvent malloc) recvbuf
        (isSubpacket (packetOf calls arrival)) (packetOf calls arrival)
        (packetOf calls arrival).length =
      .ok (next, messagesOf calls (slot.collect (partsOf calls)
        (servesWhole calls malloc) arrival.1).2) ∧
    Tracks calls coming (slot.collect (partsOf calls)
      (servesWhole calls malloc) arrival.1).1 next

variable {calls malloc}

/-- What the client does with a fragment. -/
theorem ClientNetSession.handle_fragment
    (protocol : NetProtocol) (recvbuf : Recvbuf) (call : LargeSend lastEvent)
    (index : Nat) :
    handlePacket (ClientNetSession.decoder protocol lastEvent malloc) recvbuf
        (isSubpacket (call.fragment index)) (call.fragment index)
        (call.fragment index).length =
      (do
        let current ← ClientNetSession.recvbufFor malloc recvbuf
          (call.fragment index) call.sendID
        current.receive (call.fragment index)) := by
  have packetID := call.wordAt_packetID index []
  rw [List.append_nil] at packetID
  have idRead : readWord (call.fragment index) Field.packetID =
      .ok call.sendID := by
    rw [readWord_of_inside (by rw [call.length_fragment]; simp; omega),
      packetID]
  rw [call.isSubpacket_fragment, handlePacket, if_pos rfl]
  simp only [decoder, ClientNetSession.receiveSubpacket_eq, idRead, ok_bind]

variable {protocol : NetProtocol} {whole : τ} {index : Nat}
  {coming : List (τ × Nat)} {slot : Slot τ} {recvbuf : Recvbuf}

/-- A buffer that is not in use for the call of a fragment is given up. -/
theorem keepsTracking_of_other
    (bound : index < (calls whole).count)
    (isNew : (whole, index) ∉ coming) (forgotten : slot.taken whole = 0)
    (otherID : recvbuf.receiveID ≠ (calls whole).sendID) :
    KeepsTracking calls malloc protocol coming slot recvbuf
      (whole, index) := by
  have several := (calls whole).two_le_count
  obtain ⟨next, received, collecting⟩ :=
    Recvbuf.open_receive malloc (calls whole) bound
  simp only [KeepsTracking, packetOf, ClientNetSession.handle_fragment,
    ClientNetSession.recvbufFor, if_neg otherID, received]
  cases memory : malloc (calls whole).message.length with
  | false =>
      have refused : servesWhole calls malloc whole = false := memory
      rw [Slot.collect_of_refused forgotten refused]
      exact ⟨Recvbuf.idle, rfl, .idle⟩
  | true =>
      have served : servesWhole calls malloc whole = true := memory
      have more : slot.taken whole + 1 ≠ partsOf calls whole := by
        rw [forgotten, partsOf]
        omega
      rw [Slot.collect_of_more (fun _ => served) more, forgotten]
      refine ⟨next, rfl, .holding whole [index] next collecting ?_ ?_⟩
      · exact List.cons_ne_nil _ _
      · intro stored member
        rw [List.mem_singleton.mp member]
        exact isNew

/-- One fragment: the client's buffer keeps tracking the slot, and delivers the
messages of the calls that the slot completes. -/
theorem Tracks.step
    (malloc : Nat → Bool) (protocol : NetProtocol)
    (distinctIDs : ∀ first second,
      (calls first).sendID = (calls second).sendID → first = second)
    (tracks : Tracks calls ((whole, index) :: coming) slot recvbuf)
    (bound : index < (calls whole).count)
    (isNew : (whole, index) ∉ coming) :
    KeepsTracking calls malloc protocol coming slot recvbuf
      (whole, index) := by
  have positive := (calls whole).sendIDPositive
  cases tracks with
  | idle =>
      refine keepsTracking_of_other bound isNew rfl ?_
      simp only [Recvbuf.idle]
      omega
  | holding current stored _ collecting started arrived =>
      have laterArrived : ∀ part ∈ stored, (current, part) ∉ coming :=
        fun part member later =>
          arrived part member (List.mem_cons_of_mem _ later)
      by_cases same : current = whole
      · subst same
        have counted : Slot.taken (some (current, stored.length)) current =
            stored.length := by
          rw [Slot.taken_some, if_pos rfl]
        have notForgotten :
            Slot.taken (some (current, stored.length)) current = 0 →
              servesWhole calls malloc current = true := by
          rw [counted, List.length_eq_zero_iff]
          exact fun none => absurd none started
        have isNewHere : index ∉ stored := fun member =>
          arrived index member List.mem_cons_self
        simp only [KeepsTracking, packetOf, ClientNetSession.handle_fragment,
          ClientNetSession.recvbufFor, if_pos collecting.receiveID_eq,
          pure_eq_ok, ok_bind]
        rcases collecting.receive bound isNewHere with
          ⟨last, delivered⟩ | ⟨next, received, collectingNext⟩
        · rw [Slot.collect_of_last notForgotten (by rw [counted]; exact last)]
          exact ⟨Recvbuf.idle, delivered, .idle⟩
        · have unfinished := collectingNext.unfinished
          rw [List.length_cons] at unfinished
          rw [Slot.collect_of_more notForgotten
            (by rw [counted, partsOf]; omega), counted]
          refine ⟨next, received,
            .holding current (index :: stored) next collectingNext
              (List.cons_ne_nil _ _) ?_⟩
          exact List.forall_mem_cons.mpr ⟨isNew, laterArrived⟩
      · refine keepsTracking_of_other bound isNew ?_ ?_
        · rw [Slot.taken_some, if_neg same]
        · rw [collecting.receiveID_eq]
          exact fun sameID => same (distinctIDs _ _ sameID)

/-- A sequence of different fragments: the client delivers the messages of the
calls that the collector completes. -/
theorem Tracks.run
    (malloc : Nat → Bool) (protocol : NetProtocol)
    (distinctIDs : ∀ first second,
      (calls first).sendID = (calls second).sendID → first = second)
    {arrivals : List (τ × Nat)}
    (tracks : Tracks calls arrivals slot recvbuf)
    (bounds : ∀ arrival ∈ arrivals, arrival.2 < (calls arrival.1).count)
    (nodup : arrivals.Nodup) :
    ∃ final,
      handlePackets (ClientNetSession.decoder protocol lastEvent malloc)
          recvbuf (arrivals.map (packetOf calls)) =
        .ok (final, messagesOf calls (slot.collectAll (partsOf calls)
          (servesWhole calls malloc) (arrivals.map Prod.fst)).2) := by
  induction arrivals generalizing slot recvbuf with
  | nil => exact ⟨recvbuf, rfl⟩
  | cons arrival arrivals inductionHypothesis =>
      obtain ⟨isNew, nodupLater⟩ := List.nodup_cons.mp nodup
      obtain ⟨bound, boundsLater⟩ := List.forall_mem_cons.mp bounds
      obtain ⟨next, handled, tracksNext⟩ :=
        Tracks.step malloc protocol distinctIDs tracks bound isNew
      obtain ⟨final, rest⟩ :=
        inductionHypothesis tracksNext boundsLater nodupLater
      refine ⟨final, ?_⟩
      simp only [List.map_cons, handlePackets, handled, ok_bind, rest,
        Slot.collectAll, messagesOf, List.map_append, pure_eq_ok]

end Tracks

/-! ## The fragments of two large messages -/

section TwoLarge

variable {lastEvent : Nat} (malloc : Nat → Bool) {protocol : NetProtocol}

/-- All fragments of a call, in order. -/
def LargeSend.fragments (call : LargeSend lastEvent) : List (List UInt8) :=
  (List.range call.count).map call.fragment

/-- Two calls, one for each Boolean. -/
def eitherCall (first second : LargeSend lastEvent) : Bool → LargeSend lastEvent
  | true => first
  | false => second

/-- The fragments of a call as they are put on the wire. -/
def arrivalsOf (call : LargeSend lastEvent) (which : Bool) :
    List (Bool × Nat) :=
  (List.range call.count).map (which, ·)

variable {first second : LargeSend lastEvent}

theorem map_packetOf_arrivalsOf
    (first second : LargeSend lastEvent) (which : Bool) :
    (arrivalsOf (eitherCall first second which) which).map
        (packetOf (eitherCall first second)) =
      (eitherCall first second which).fragments := by
  rw [arrivalsOf, List.map_map]
  rfl

theorem count_arrivals {arrivals : List (Bool × Nat)}
    (interleaves : Interleaves (arrivalsOf first true)
      (arrivalsOf second false) arrivals) (which : Bool) :
    (arrivals.map Prod.fst).count which =
      (eitherCall first second which).count := by
  have same := (interleaves.perm.map Prod.fst).count_eq which
  have tags : ∀ (call : LargeSend lastEvent) (tag : Bool),
      (arrivalsOf call tag).map Prod.fst = List.replicate call.count tag := by
    intro call tag
    rw [arrivalsOf, List.map_map]
    exact List.map_const'.trans (by rw [List.length_range])
  rw [same, List.map_append, List.count_append, tags, tags,
    List.count_replicate, List.count_replicate]
  cases which <;> simp [eitherCall]

theorem nodup_arrivals {arrivals : List (Bool × Nat)}
    (interleaves : Interleaves (arrivalsOf first true)
      (arrivalsOf second false) arrivals) :
    arrivals.Nodup := by
  rw [interleaves.perm.nodup_iff, List.nodup_append]
  have nodup : ∀ (call : LargeSend lastEvent) (tag : Bool),
      (arrivalsOf call tag).Nodup := by
    intro call tag
    exact List.nodup_range.map fun _ _ same => (Prod.mk.inj same).2
  refine ⟨nodup first true, nodup second false, ?_⟩
  rintro _ inFirst _ inSecond rfl
  obtain ⟨index, -, rfl⟩ := List.mem_map.mp inFirst
  obtain ⟨other, -, same⟩ := List.mem_map.mp inSecond
  simp at same

theorem bounds_arrivals {arrivals : List (Bool × Nat)}
    (interleaves : Interleaves (arrivalsOf first true)
      (arrivalsOf second false) arrivals) :
    ∀ arrival ∈ arrivals,
      arrival.2 < (eitherCall first second arrival.1).count := by
  intro arrival member
  rcases List.mem_append.mp (interleaves.perm.mem_iff.mp member) with
    inFirst | inSecond
  · obtain ⟨index, below, rfl⟩ := List.mem_map.mp inFirst
    exact List.mem_range.mp below
  · obtain ⟨index, below, rfl⟩ := List.mem_map.mp inSecond
    exact List.mem_range.mp below

variable {malloc} {arrivals : List (Bool × Nat)}

/-- One call's fragments after the other's deliver both messages. -/
theorem handle_sequential
    (memory : ∀ which,
      malloc (eitherCall first second which).message.length = true)
    (which : Bool) :
    handlePackets (ClientNetSession.decoder protocol lastEvent malloc)
        Recvbuf.idle ((eitherCall first second which).fragments ++
          (eitherCall first second !which).fragments) =
      .ok (Recvbuf.idle,
        [(eitherCall first second which).message.map some,
          (eitherCall first second !which).message.map some]) := by
  have singleSlot :=
    ClientNetSession.singleSlot protocol lastEvent malloc
  have early := singleSlot.handle_fragments (eitherCall first second which)
  have late := singleSlot.handle_fragments (eitherCall first second !which)
  rw [memory which, if_pos rfl] at early
  rw [memory !which, if_pos rfl] at late
  exact handlePackets_append_iff.mpr ⟨_, _, _, early, late, rfl⟩

/-- If the slot completes two calls, it completes each of them. -/
theorem mem_complete_of_length
    (interleaves : Interleaves (arrivalsOf first true)
      (arrivalsOf second false) arrivals)
    (two : (Slot.collectAll (partsOf (eitherCall first second))
      (servesWhole (eitherCall first second) malloc) none
      (arrivals.map Prod.fst)).2.length = 2) (which : Bool) :
    which ∈ (Slot.collectAll (partsOf (eitherCall first second))
      (servesWhole (eitherCall first second) malloc) none
      (arrivals.map Prod.fst)).2 := by
  have several := (eitherCall first second !which).two_le_count
  have atMostOnce := Slot.count_collectAll_le_one
    (servesWhole (eitherCall first second) malloc)
    (show 0 < partsOf _ !which by rw [partsOf]; omega)
    (count_arrivals interleaves !which)
  have both := List.count_not_add_count
    (Slot.collectAll (partsOf (eitherCall first second))
      (servesWhole (eitherCall first second) malloc) none
      (arrivals.map Prod.fst)).2 which
  rw [← List.count_pos_iff]
  omega

/-- The interleaved fragments of two large messages deliver both messages if
and only if there is memory for both and the fragments of one all precede
those of the other. -/
theorem handle_two_large
    (malloc : Nat → Bool) (protocol : NetProtocol)
    (distinct : first.sendID ≠ second.sendID) {packets : List (List UInt8)}
    (interleaves : Interleaves first.fragments second.fragments packets) :
    ∃ final received,
      handlePackets (ClientNetSession.decoder protocol lastEvent malloc)
          Recvbuf.idle packets = .ok (final, received) ∧
      (received.Perm [first.message.map some, second.message.map some] ↔
        malloc first.message.length ∧ malloc second.message.length ∧
          (packets = first.fragments ++ second.fragments ∨
            packets = second.fragments ++ first.fragments)) := by
  have fragments := map_packetOf_arrivalsOf first second
  have fragmentsFirst := fragments true
  have fragmentsSecond := fragments false
  simp only [eitherCall] at fragmentsFirst fragmentsSecond
  rw [← fragmentsFirst, ← fragmentsSecond] at interleaves
  obtain ⟨arrivals, merged, rfl⟩ := interleaves.of_map
  have distinctIDs : ∀ which other,
      (eitherCall first second which).sendID =
        (eitherCall first second other).sendID → which = other := by
    intro which other same
    cases which <;> cases other
    · rfl
    · exact absurd same.symm distinct
    · exact absurd same distinct
    · rfl
  obtain ⟨final, handled⟩ := Tracks.run malloc protocol distinctIDs
    .idle (bounds_arrivals merged) (nodup_arrivals merged)
  refine ⟨final, _, handled, ?_, ?_⟩
  · intro delivered
    have two := delivered.length_eq
    rw [messagesOf, List.length_map] at two
    have complete := mem_complete_of_length merged two
    have memory : ∀ which,
        malloc (eitherCall first second which).message.length = true :=
      fun which => (Slot.opens_of_mem_collectAll (complete which)).resolve_right
        (fun taken => taken rfl)
    refine ⟨memory true, memory false, ?_⟩
    have onlyTwo : ∀ part ∈ arrivals.map Prod.fst,
        part = true ∨ part = false :=
      fun part _ => by cases part <;> simp
    rcases Slot.sequential_of_collectAll (by decide) onlyTwo
      (count_arrivals merged true) (count_arrivals merged false)
      (complete true) (complete false) with firstEarly | secondEarly
    · left
      rw [← fragmentsFirst, ← fragmentsSecond, ← List.map_append]
      congr 1
      refine merged.eq_append_of_map Prod.fst ?_ ?_ firstEarly
      · rintro _ member
        obtain ⟨index, -, rfl⟩ := List.mem_map.mp member
        rfl
      · rintro _ member
        obtain ⟨index, -, rfl⟩ := List.mem_map.mp member
        rfl
    · right
      rw [← fragmentsFirst, ← fragmentsSecond, ← List.map_append]
      congr 1
      have negated := congrArg (List.map not) secondEarly
      rw [List.map_map, List.map_append, List.map_replicate,
        List.map_replicate] at negated
      refine merged.symm.eq_append_of_map (fun arrival => !arrival.1)
        ?_ ?_ negated
      · rintro _ member
        obtain ⟨index, -, rfl⟩ := List.mem_map.mp member
        rfl
      · rintro _ member
        obtain ⟨index, -, rfl⟩ := List.mem_map.mp member
        rfl
  · rintro ⟨memoryFirst, memorySecond, order⟩
    have memory : ∀ which,
        malloc (eitherCall first second which).message.length = true := by
      intro which
      cases which
      · exact memorySecond
      · exact memoryFirst
    rcases order with sequential | sequential
    · rw [sequential] at handled
      have both := handled.symm.trans (handle_sequential memory true)
      rw [(Prod.mk.inj (Except.ok.inj both)).2]
      exact .refl _
    · rw [sequential] at handled
      have both := handled.symm.trans (handle_sequential memory false)
      rw [(Prod.mk.inj (Except.ok.inj both)).2]
      exact .swap _ _ _

end TwoLarge

/-! ## Two calls -/

section TwoCalls

variable {lastEvent : Nat} {malloc : Nat → Bool} {protocol : NetProtocol}

/-- A message that is sent whole is delivered wherever it comes in. -/
theorem handlePackets_insert
    {decoder : Decoder σ} {small : SendCall} (valid : small.Valid lastEvent)
    {recv final : σ} {front back : List (List UInt8)} {all : List Block}
    (handled : handlePackets decoder recv (front ++ back) =
      .ok (final, all)) :
    ∃ received,
      handlePackets decoder recv (front ++ small.message :: back) =
        .ok (final, received) ∧
      received.Perm (small.message.map some :: all) := by
  obtain ⟨middle, early, late, handledFront, handledBack, rfl⟩ :=
    handlePackets_append_iff.mp handled
  have whole : read small.message 0 small.message.length =
      .ok small.message := by
    rw [read_of_inside (by omega), List.drop_zero,
      List.take_of_length_le (Nat.le_refl _)]
  have inserted : handlePackets decoder middle (small.message :: back) =
      .ok (final, small.message.map some :: late) := by
    simp [handlePackets, handlePacket, valid.isMessage.isSubpacket_eq_false,
      whole, handledBack]
  exact ⟨_, handlePackets_append_iff.mpr
    ⟨_, _, _, handledFront, inserted, rfl⟩, List.perm_middle⟩

/-- A message sent whole among the packets of another call. -/
theorem handle_one_small
    (malloc : Nat → Bool) (protocol : NetProtocol) {call small : SendCall}
    (valid : call.Valid lastEvent) (validSmall : small.Valid lastEvent)
    (sendID : Nat)
    {packets : List (List UInt8)}
    (interleaves :
      Interleaves (call.packets sendID) [small.message] packets) :
    ∃ final received,
      handlePackets (ClientNetSession.decoder protocol lastEvent malloc)
          Recvbuf.idle packets = .ok (final, received) ∧
      (received.Perm [call.message.map some, small.message.map some] ↔
        (call.Large → malloc call.message.length)) := by
  have singleSlot :=
    ClientNetSession.singleSlot protocol lastEvent malloc
  obtain ⟨front, back, split, rfl⟩ := interleaves.of_singleton
  have handled := singleSlot.handle_packets valid sendID
  rw [split] at handled
  obtain ⟨received, inserted, same⟩ :=
    handlePackets_insert validSmall handled
  refine ⟨_, received, inserted, ?_⟩
  have order : List.Perm [call.message.map some, small.message.map some]
      [small.message.map some, call.message.map some] :=
    .swap _ _ _
  rw [same.congr_left, order.congr_right, List.perm_cons,
    List.perm_singleton, SendCall.delivered]
  by_cases served : call.Large → malloc call.message.length
  · simp only [if_pos served]
    exact iff_of_true trivial fun large => served large
  · simp only [if_neg served]
    exact iff_of_false (List.cons_ne_nil _ _).symm served

theorem nextSendID_ne (sendID : Nat) : sendID ≠ nextSendID sendID := by
  unfold nextSendID
  split <;> omega

/-- The packets of two calls, interleaved. -/
theorem handle_interleaved
    (malloc : Nat → Bool) (protocol : NetProtocol) {first second : SendCall}
    (validFirst : first.Valid lastEvent)
    (validSecond : second.Valid lastEvent) (sendID : Nat)
    {packets : List (List UInt8)}
    (interleaves : Interleaves (first.packets sendID)
      (second.packets (first.sendIDAfter sendID)) packets) :
    ∃ final received,
      handlePackets (ClientNetSession.decoder protocol lastEvent malloc)
          Recvbuf.idle packets = .ok (final, received) ∧
      (received.Perm [first.message.map some, second.message.map some] ↔
        (first.Large → malloc first.message.length) ∧
        (second.Large → malloc second.message.length) ∧
        (first.Large → second.Large →
          packets = first.packets sendID ++
              second.packets (first.sendIDAfter sendID) ∨
            packets = second.packets (first.sendIDAfter sendID) ++
              first.packets sendID)) := by
  have small : ∀ {call : SendCall}, ¬call.Large →
      call.Large → malloc call.message.length = true :=
    fun notLarge large => absurd large notLarge
  by_cases largeSecond : second.Large
  · by_cases largeFirst : first.Large
    · rw [SendCall.sendIDAfter, if_pos largeFirst,
        SendCall.packets_of_large validFirst largeFirst,
        SendCall.packets_of_large validSecond largeSecond] at interleaves ⊢
      obtain ⟨final, received, handled, delivered⟩ := handle_two_large
        malloc protocol (nextSendID_ne (nextSendID sendID)) interleaves
      refine ⟨final, received, handled, delivered.trans ?_⟩
      simp only [largeFirst, largeSecond, forall_const]
      rfl
    · rw [SendCall.sendIDAfter, if_neg largeFirst,
        SendCall.packets_of_small largeFirst] at interleaves ⊢
      obtain ⟨final, received, handled, delivered⟩ := handle_one_small
        malloc protocol validSecond validFirst sendID interleaves.symm
      have order : List.Perm [first.message.map some, second.message.map some]
          [second.message.map some, first.message.map some] :=
        .swap _ _ _
      refine ⟨final, received, handled, ?_⟩
      rw [order.congr_right, delivered]
      exact ⟨fun memory => ⟨small largeFirst, memory,
        fun large => absurd large largeFirst⟩, fun both => both.2.1⟩
  · rw [SendCall.packets_of_small largeSecond] at interleaves ⊢
    obtain ⟨final, received, handled, delivered⟩ := handle_one_small
      malloc protocol validFirst validSecond sendID interleaves
    refine ⟨final, received, handled, ?_⟩
    rw [delivered]
    exact ⟨fun memory => ⟨memory, small largeSecond,
      fun _ large => absurd large largeSecond⟩, fun both => both.1⟩

end TwoCalls

/-! ## Both messages -/

/-- Two calls put their packets on the wire, and the decoder on the other end
delivers both messages, each once. -/
def BothDelivered
    (environment : SendEnvironment) (session : SendSession)
    (first second : SendCall)
    (decoded : Except Fault (DecodeState σ × List Block)) : Prop :=
  (∃ after, sendAll environment session [first, second] =
    .ok (after, ⟨wire session.sendID [first, second], true⟩)) ∧
  ∃ state received, decoded = .ok (state, received) ∧
    received.Perm [first.message.map some, second.message.map some]

/-- Two calls whose packets interleave on the connection deliver both messages
to a client if and only if every chunk reaches the length members of the packet
in the middle of which it starts, no packet head is stored in front of a
message, there is memory to reassemble the large messages and, if both are
large, the packets of one call all precede those of the other. -/
theorem concurrent_sends_iff
    {lastEvent : Nat} {environment : SendEnvironment}
    (accepting : Accepting environment) {session : SendSession}
    (packetMode : session.sessionmode = .packetHead)
    {first second : SendCall} (validFirst : first.Valid lastEvent)
    (validSecond : second.Valid lastEvent) {packets : List (List UInt8)}
    (interleaves : Interleaves (first.packets session.sendID)
      (second.packets (first.sendIDAfter session.sendID)) packets)
    (lengthMax : ∀ packet ∈ packets, packet.length ≤ singlePacketLenMax)
    {chunks : List (List UInt8)}
    (bounded : ∀ chunk ∈ chunks, chunk.length ≤ recvBufferSize)
    (stream : chunks.flatten = packets.flatten) (malloc : Nat → Bool) :
    BothDelivered environment session first second
        (ClientNetSession.decoded lastEvent malloc chunks) ↔
      HeadsArrive packets chunks ∧
      (∀ call ∈ [first, second], call.Large →
        64 ≤ call.packetMaxLen ∧ malloc call.message.length) ∧
      (first.Large → second.Large →
        packets = first.packets session.sendID ++
            second.packets (first.sendIDAfter session.sendID) ∨
          packets = second.packets (first.sendIDAfter session.sendID) ++
            first.packets session.sendID) := by
  have valid : ∀ call ∈ [first, second], call.Valid lastEvent := by
    simpa using ⟨validFirst, validSecond⟩
  have framed : ∀ packet ∈ packets, WellFramed lastEvent packet := by
    intro packet member
    have fits := lengthMax packet member
    have same := interleaves.perm
    rcases List.mem_append.mp (same.mem_iff.mp member) with
      inFirst | inSecond
    · exact SendCall.wellFramed validFirst session.sendID
        (fun other inFirst => lengthMax other
          (same.mem_iff.mpr (List.mem_append_left _ inFirst)))
        packet inFirst
    · exact SendCall.wellFramed validSecond _
        (fun other inSecond => lengthMax other
          (same.mem_iff.mpr (List.mem_append_right _ inSecond)))
        packet inSecond
  obtain ⟨final, received, handled, delivered⟩ :=
    handle_interleaved malloc .tcp validFirst validSecond session.sendID
      interleaves
  have decoded := checkPackets_stream rfl
    (ClientNetSession.decoder_readsOnlyPacket .tcp lastEvent malloc) framed
    handled bounded stream
  rw [BothDelivered, sendAll_ok_iff accepting packetMode valid,
    ClientNetSession.decoded, ClientNetSession.initial, decoded]
  simp only [List.mem_cons, List.not_mem_nil, or_false, forall_eq_or_imp,
    forall_eq]
  by_cases arrive : HeadsArrive packets chunks
  · rw [if_pos arrive, and_iff_right arrive]
    constructor
    · rintro ⟨rooms, _, _, success, both⟩
      obtain ⟨-, rfl⟩ := Prod.mk.inj (Except.ok.inj success)
      obtain ⟨memoryFirst, memorySecond, order⟩ := delivered.mp both
      exact ⟨⟨fun large => ⟨rooms.1 large, memoryFirst large⟩,
        fun large => ⟨rooms.2 large, memorySecond large⟩⟩, order⟩
    · rintro ⟨⟨firstRoom, secondRoom⟩, order⟩
      refine ⟨⟨fun large => (firstRoom large).1,
        fun large => (secondRoom large).1⟩, _, _, rfl, ?_⟩
      exact delivered.mpr ⟨fun large => (firstRoom large).2,
        fun large => (secondRoom large).2, order⟩
  · simp [arrive]

/-! ## Two messages of two fragments each -/

set_option maxRecDepth 4000 in
/-- The packets of one call before those of the other arrive. -/
theorem concurrent_sends_of_sequential :
    BothDelivered openConnection ⟨.packetHead, 0⟩ (twoFragments 1)
      (twoFragments 2) (ClientNetSession.decoded 1 (fun _ => true)
        [((twoFragments 1).packets 0 ++ (twoFragments 2).packets 1).flatten])
      := by
  refine (concurrent_sends_iff openConnection_accepting
    (show SendSession.sessionmode ⟨.packetHead, 0⟩ = .packetHead from rfl)
    (twoFragments_valid 1) (twoFragments_valid 2)
    (Interleaves.append ((twoFragments 1).packets 0)
      ((twoFragments 2).packets 1))
    (by decide) (by decide) (by simp) (fun _ => true)).mpr ?_
  exact ⟨by decide, by decide, fun _ _ => .inl rfl⟩

/-- The packets of two calls, taken in turns. -/
def inTurns : List (List UInt8) :=
  (List.zipWith (fun first second => [first, second])
    ((twoFragments 1).packets 0) ((twoFragments 2).packets 1)).flatten

set_option maxRecDepth 4000 in
/-- Taken in turns they do not arrive: nothing is delivered. -/
theorem not_concurrent_sends_of_inTurns :
    (twoFragments 1).Valid 1 ∧ (twoFragments 2).Valid 1 ∧
      Interleaves ((twoFragments 1).packets 0) ((twoFragments 2).packets 1)
        inTurns ∧
      (∀ packet ∈ inTurns, packet.length ≤ singlePacketLenMax) ∧
      ¬BothDelivered openConnection ⟨.packetHead, 0⟩ (twoFragments 1)
        (twoFragments 2) (ClientNetSession.decoded 1 (fun _ => true)
          [inTurns.flatten]) := by
  refine ⟨twoFragments_valid 1, twoFragments_valid 2,
    .left _ (.right _ (.left _ (.right _ .nil))), by decide, ?_⟩
  rintro ⟨-, state, received, decoded, both⟩
  have nothing : (ClientNetSession.decoded 1 (fun _ => true)
      [inTurns.flatten]).map (fun outcome => outcome.2.length) = .ok 0 := by
    decide
  rw [decoded] at nothing
  have none : received.length = 0 := Except.ok.inj nothing
  rw [both.length_eq] at none
  contradiction

end Network
end Pilot2Cloud
