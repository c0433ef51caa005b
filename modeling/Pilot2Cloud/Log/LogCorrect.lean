import Pilot2Cloud.Log.LogDelivery

/-!
# The output of a run

What is written are the complete texts of the first messages, each of them once
and in the order of their numbers, and whatever was complete before a run of the
log thread is written at its end.  This fails when the number with the least key
is given while the map holds the number in front of it.
-/

namespace Pilot2Cloud
namespace Log

open Foundation

/-! ## Correct output -/

/-- The messages in the order of their numbers are the written ones, the
collected ones, and those that the log thread has not passed. -/
structure InOrder (labels : List LogLabel) (final : LogState)
    (written collected : List LogText) : Prop where
  output_eq : final.output = written.flatten
  messages_eq : Log.messages labels =
    (written ++ collected).map .complete ++ final.queue.map final.record
  distinct : final.queue.Nodup
  idle : final.sender = .idle → collected = []

/-- A number of messages that were complete in front of all others when the log
thread was idle have been written if it has run and is idle again. -/
def Delivered (memory : Nat → TaggedText) (labels : List LogLabel)
    (final : LogState) (written : List LogText) : Prop :=
  ∀ (early late : List LogLabel) (middle : LogState) (count : Nat),
    labels = early ++ late →
    Run LogStep (LogState.initial memory) early middle →
    Run LogStep middle late final →
    middle.sender = .idle → final.sender = .idle → LogLabel.send ∈ late →
    Reservation.FrontComplete count (Log.messages early) →
    count ≤ written.length

/-- The output of a run is in order and complete. -/
def LogsCorrectly (memory : Nat → TaggedText) (labels : List LogLabel)
    (final : LogState) : Prop :=
  ∃ written collected, InOrder labels final written collected ∧
    Delivered memory labels final written

variable {memory : Nat → TaggedText} {labels : List LogLabel}
  {final : LogState} {written collected : List LogText}

/-- When the log thread is idle, everything that was collected is written. -/
theorem Represents.inOrder
    (represents : Represents (Log.messages labels) written collected final) :
    ∃ nextWritten nextCollected,
      InOrder labels final nextWritten nextCollected ∧
        (final.sender = .idle →
          nextWritten.length = (written ++ collected).length) := by
  by_cases isIdle : final.sender = .idle
  · have nothing := represents.text_eq
    rw [isIdle] at nothing
    refine ⟨written ++ collected, [], ⟨?_, ?_, represents.distinct,
      fun _ => rfl⟩, fun _ => rfl⟩
    · rw [List.flatten_append, ← nothing, represents.output_eq]
      exact (List.append_nil _).symm
    · rw [List.append_nil]
      exact represents.messages_eq
  · exact ⟨written, collected, ⟨represents.output_eq, represents.messages_eq,
      represents.distinct, fun idle => absurd idle isIdle⟩,
      fun idle => absurd idle isIdle⟩

/-- A message without a text that the log thread writes at once. -/
def emptyRound : List LogLabel :=
  [.reserve 0 ⟨SYMBOL_SET_USE_APPLICATION_SPACE, []⟩, .markWritten 0, .send,
    .send, .send, .send]

/-- The complete message. -/
def emptyMessage : TaggedText :=
  ⟨SYMBOL_SET_USE_APPLICATION_SPACE - 1, []⟩

/-- The state after a number of such messages. -/
def quietState (ulSeqNum : UInt32) : LogState :=
  { LogState.initial fun _ => emptyMessage with ulSeqNum := ulSeqNum }

/-- The state with one more message, before the log thread comes to it. -/
def loadedState (ulSeqNum : UInt32) : LogState :=
  { quietState ulSeqNum with
    logMapInfo := LogInfoList.pushBack .empty ulSeqNum 0 }

theorem markWritten_reserve (number : UInt32) :
    ((quietState number).reserve 0
        ⟨SYMBOL_SET_USE_APPLICATION_SPACE, []⟩).markWritten 0 =
      loadedState (number + 1) := by
  unfold LogState.markWritten LogState.reserve
  simp only [Function.update_self, Function.update_idem]
  rw [Function.update_eq_self_iff.mpr]
  · rfl
  · rfl

/-- The log thread passes the message. -/
theorem traversalLogInfo_emptyMessage {state : LogState}
    (memory : state.memory 0 = emptyMessage) :
    state.traversalLogInfo 0 true [] = (state, true, []) := by
  unfold LogState.traversalLogInfo
  rw [memory]
  rfl

theorem run_emptyRound (number : UInt32) :
    Run LogStep (quietState number) emptyRound (quietState (number + 1)) := by
  have isNew : (Function.update (quietState number).memory 0
      ⟨SYMBOL_SET_USE_APPLICATION_SPACE, []⟩ 0).tag &&& 0x0F =
        SYMBOL_LOG_NOT_WRITTEN := by
    rw [Function.update_self]
    rfl
  have passes : LogStep
      { quietState (number + 1) with sender := .traversal false [[0]] true [] }
      .send
      { quietState (number + 1) with sender := .traversal false [] true [] } := by
    apply LogStep.send
    unfold LogState.logSend
    dsimp only
    rw [traversalLogInfo_emptyMessage]
    rfl
  refine .cons (.reserve List.not_mem_nil (.inr rfl)) <|
    .cons (.markWritten ⟨List.mem_cons_self, isNew⟩) ?_
  rw [markWritten_reserve]
  exact .cons (.send rfl) <| .cons (.send rfl) <| .cons passes <|
    .cons (.send rfl) <| .nil _

/-- Any number of such messages. -/
def emptyRounds (count : Nat) : List LogLabel :=
  (List.replicate count emptyRound).flatten

theorem emptyRounds_succ (count : Nat) :
    emptyRounds (count + 1) = emptyRounds count ++ emptyRound := by
  unfold emptyRounds
  rw [List.replicate_succ', List.flatten_append, List.flatten_singleton]

theorem run_emptyRounds (count : Nat) :
    Run LogStep (quietState 0) (emptyRounds count)
      (quietState (UInt32.ofNat count)) := by
  induction count with
  | zero => exact .nil _
  | succ count inductionHypothesis =>
      rw [emptyRounds_succ]
      refine Run.append_iff.mpr ⟨_, inductionHypothesis, ?_⟩
      have next : UInt32.ofNat (count + 1) = UInt32.ofNat count + 1 :=
        UInt32.ofNat_add count 1
      rw [next]
      exact run_emptyRound _

theorem messages_emptyRounds (count : Nat) :
    Log.messages (emptyRounds count) =
      (List.replicate count []).map .complete := by
  induction count with
  | zero => rfl
  | succ count inductionHypothesis =>
      rw [emptyRounds_succ]
      unfold Log.messages at inductionHypothesis ⊢
      rw [List.foldl_append, inductionHypothesis, List.replicate_succ',
        List.map_append]
      generalize List.replicate count ([] : LogText) = texts
      change (List.map _ _ ++ [_]).map _ = _
      rw [List.map_append, Reservation.map_finish_complete]
      rfl

/-- Two threads that take the next two numbers and complete their messages
before the log thread runs. -/
def twoMessages : List LogLabel :=
  [.reserve 0 ⟨SYMBOL_SET_USE_APPLICATION_SPACE, []⟩,
    .reserve 1 ⟨SYMBOL_SET_USE_APPLICATION_SPACE, []⟩, .print 0 [97],
    .print 1 [98], .markWritten 0, .markWritten 1, .send, .send, .send, .send,
    .send]

theorem act_twoMessages (texts : List LogText) :
    twoMessages.foldl LogLabel.act (texts.map .complete) =
      (texts ++ [[97], [98]]).map .complete := by
  unfold twoMessages
  simp [LogLabel.act, Reservation.revise, Reservation.finish]

/-- The numbers in front of the two that are the last one with a key above zero
and the one with the least key. -/
abbrev lastRound : Nat := 2 ^ 31 - 2

theorem exists_run_twoMessages :
    ∃ final, Run LogStep (quietState (UInt32.ofNat lastRound)) twoMessages
        final ∧
      final.sender = .idle ∧ final.output = [98, 97] ∧ final.queue = [] := by
  refine ⟨_, .cons (.reserve ?_ (.inr rfl)) <|
    .cons (.reserve ?_ (.inr rfl)) <| .cons (.print _ ⟨?_, rfl⟩) <|
    .cons (.print _ ⟨?_, rfl⟩) <| .cons (.markWritten ⟨?_, rfl⟩) <|
    .cons (.markWritten ⟨?_, rfl⟩) <| .cons (.send rfl) <|
    .cons (.send rfl) <| .cons (.send rfl) <| .cons (.send rfl) <|
    .cons (.send rfl) <| .nil _, rfl, rfl, rfl⟩
  all_goals decide

end Log
end Pilot2Cloud
