import Pilot2Cloud.Log.LogOrder

/-!
# Complete messages are written

When a run of the log thread begins, the messages that are complete together
with all messages in front of them are in the output when it has ended.  What
the other threads do in the meantime makes no difference.
-/

namespace Pilot2Cloud
namespace Log

open Foundation

variable {messages : List (Reservation Nat LogText)}
  {written collected : List LogText} {state next : LogState} {count : Nat}

/-- The log thread has passed a number of messages. -/
def Passed (count : Nat) (messages : List (Reservation Nat LogText))
    (state : LogState) : Prop :=
  count + state.queue.length ≤ messages.length

/-- A number of messages will have been passed when the log thread is idle. -/
def Settled (count : Nat) (messages : List (Reservation Nat LogText))
    (state : LogState) : Prop :=
  Passed count messages state ∨
    match state.sender with
    | .idle => False
    | .traversal true _ flag _ | .between flag => flag = true
    | .traversal false _ flag _ => flag = true ∧
        count + state.logMapInfo.values.flatten.length ≤ messages.length

theorem Represents.length_messages
    (represents : Represents messages written collected state) :
    messages.length = (written ++ collected).length + state.queue.length := by
  rw [represents.messages_eq, List.length_append, List.length_map,
    List.length_map]

/-- The messages that have been passed are complete, so a front of complete ones
ends behind them or at a message that is being written. -/
theorem Represents.passed_of_draft {address : Nat} {later : List Nat}
    (represents : Represents messages written collected state)
    (front : Reservation.FrontComplete count messages)
    (queue : state.queue = address :: later)
    (notWritten :
      (state.memory address).tag &&& 0x0F = SYMBOL_LOG_NOT_WRITTEN) :
    Passed count messages state := by
  have split := represents.messages_eq
  rw [queue, List.map_cons] at split
  rw [split] at front
  have incomplete : ¬(state.record address).IsComplete := by
    unfold LogState.record TaggedText.record
    rw [if_pos notWritten]
    exact not_false
  have short := front.le_length incomplete
  have total := represents.length_messages
  unfold Passed
  omega

/-- While all messages were complete, nothing is kept for the next run. -/
theorem Represents.queue_eq
    (represents : Represents messages written collected state)
    (collects : state.sender.Collects) :
    state.queue = state.sender.rest.flatten ++
      state.logMapInfo.values.flatten := by
  unfold LogState.queue
  unfold LogInfoList.values
  rw [represents.collects collects]
  rfl

/-! ## Steps of the log thread -/

/-- A step of the log thread that passes no message leaves the queue as long as
it was. -/
theorem Passed.of_represents {nextWritten nextCollected : List LogText}
    (passed : Passed count messages state)
    (represents : Represents messages written collected state)
    (represented : Represents messages nextWritten nextCollected next)
    (front : written ++ collected <+: nextWritten ++ nextCollected) :
    Passed count messages next := by
  have before := represents.length_messages
  have after := represented.length_messages
  have longer := front.length_le
  unfold Passed at passed ⊢
  omega

/-- A message that is kept for the next run is behind the front. -/
theorem Represents.passed_of_keep {isLocal flag : Bool} {address : Nat}
    {rest : List (List Nat)} {strInfo : LogText}
    (represents : Represents messages written collected state)
    (front : Reservation.FrontComplete count messages)
    (settled : Settled count messages state)
    (here : AtMessage state isLocal address rest flag strInfo)
    (notWritten : flag = true →
      (state.memory address).tag &&& 0x0F = SYMBOL_LOG_NOT_WRITTEN) :
    Passed count messages state := by
  cases flag with
  | true =>
      have collects : state.sender.Collects := by
        rw [here]
        rfl
      have queue := represents.queue_eq collects
      rw [here] at queue
      exact represents.passed_of_draft front queue (notWritten rfl)
  | false =>
      obtain passed | later := settled
      · exact passed
      · rw [here] at later
        cases isLocal with
        | true => contradiction
        | false => exact absurd later.1 Bool.false_ne_true

theorem Settled.send
    (represents : Represents messages written collected state)
    (front : Reservation.FrontComplete count messages)
    (settled : state.sender ≠ .idle → Settled count messages state)
    (fits : Fits state .send) (sends : Sends state next) :
    Settled count messages next := by
  obtain ⟨nextWritten, nextCollected, represented, longer⟩ :=
    represents.send fits sends
  have passes : Passed count messages state → Passed count messages next :=
    fun passed => passed.of_represents represents represented longer
  cases sends with
  | pass here isEmpty => exact .inr rfl
  | takeLocal here => exact .inr rfl
  | keep here notWritten =>
      have busy : state.sender ≠ .idle := by
        rw [here]
        exact Sender.noConfusion
      left
      apply passes
      exact represents.passed_of_keep front (settled busy) here notWritten
  | @collect isLocal _ _ _ here isWritten =>
      have busy : state.sender ≠ .idle := by
        rw [here]
        exact Sender.noConfusion
      obtain passed | later := settled busy
      · exact .inl (passes passed)
      · rw [here] at later
        right
        cases isLocal with
        | true => rfl
        | false => exact later
  | @writeOut isLocal flag _ here =>
      have busy : state.sender ≠ .idle := by
        rw [here]
        exact Sender.noConfusion
      obtain passed | later := settled busy
      · exact .inl (passes passed)
      · rw [here] at later
        cases isLocal with
        | true => exact .inr later
        | false =>
            left
            apply passes
            have collects : state.sender.Collects := by
              rw [here]
              exact later.1
            unfold Passed
            rw [represents.queue_eq collects, here]
            exact later.2
  | takeAll here =>
      have busy : state.sender ≠ .idle := by
        rw [here]
        exact Sender.noConfusion
      obtain passed | later := settled busy
      · exact .inl (passes passed)
      · rw [here] at later
        right
        exact ⟨later, front.1⟩
  | stop here isEmpty =>
      have busy : state.sender ≠ .idle := by
        rw [here]
        exact Sender.noConfusion
      left
      apply passes
      obtain passed | later := settled busy
      · exact passed
      · have collects : state.sender.Collects := by
          rw [here] at later ⊢
          exact later
        unfold Passed
        rw [represents.queue_eq collects, here]
        unfold LogInfoList.values
        rw [isEmpty]
        exact front.1

/-! ## Steps of the other threads -/

/-- A thread that changes its message leaves the order. -/
theorem Settled.of_length {nextMessages : List (Reservation Nat LogText)}
    (settled : Settled count messages state)
    (length : nextMessages.length = messages.length)
    (queue : next.queue = state.queue) (sender : next.sender = state.sender)
    (logMapInfo : next.logMapInfo = state.logMapInfo) :
    Settled count nextMessages next := by
  unfold Settled Passed at settled ⊢
  rw [length, queue, sender, logMapInfo]
  exact settled

/-- A message with a new number is behind the others. -/
theorem Settled.reserve {address : Nat} {message : TaggedText}
    (represents : Represents messages written collected state)
    (settled : Settled count messages state) (free : address ∉ state.queue)
    (isNew : message.IsNew)
    (fits : Fits state (.reserve address message)) :
    Settled count (LogLabel.act messages (.reserve address message))
      (state.reserve address message) := by
  have represented := represents.reserve free isNew fits
  have values := LogInfoList.values_pushBack address
    represents.numbered fits
  have before := represents.length_messages
  have after := represented.length_messages
  have longer : (LogLabel.act messages (.reserve address message)).length =
      messages.length + 1 := by
    unfold LogLabel.act
    rw [List.length_append, List.length_singleton]
  have sender : (state.reserve address message).sender = state.sender := rfl
  have logMapInfo :
      (state.reserve address message).logMapInfo.values.flatten.length =
        state.logMapInfo.values.flatten.length + 1 := by
    unfold LogState.reserve
    dsimp only
    rw [values, List.flatten_append, List.length_append]
    rfl
  unfold Settled Passed at settled ⊢
  rw [sender, logMapInfo, longer]
  obtain passed | later := settled
  · left
    omega
  · right
    split at later
    · exact later
    · exact later
    · exact later
    · exact ⟨later.1, by omega⟩

/-- A front of complete messages stays complete. -/
theorem frontComplete_act (label : LogLabel)
    (front : Reservation.FrontComplete count messages) :
    Reservation.FrontComplete count (LogLabel.act messages label) := by
  cases label with
  | reserve address message =>
      have kept := front.map_append id (fun record _ => rfl)
        [.draft address message.text]
      rw [List.map_id] at kept
      exact kept
  | print address text =>
      have kept := front.map_append (Reservation.revise address text)
        (fun record => Reservation.revise_of_isComplete) []
      rw [List.append_nil] at kept
      exact kept
  | markWritten address =>
      have kept := front.map_append (Reservation.finish address)
        (fun record => Reservation.finish_of_isComplete) []
      rw [List.append_nil] at kept
      exact kept
  | send => exact front

/-! ## Runs of the log thread -/

/-- The log thread is idle at first, and when it is idle again it has passed the
front. -/
theorem settled_run {labels : List LogLabel} {final : LogState}
    (run : Run LogStep state labels final)
    (represents : Represents messages written collected state)
    (front : Reservation.FrontComplete count messages)
    (settled : Settled count messages state ∨
      state.sender = .idle ∧ LogLabel.send ∈ labels)
    (fits : Along LogStep Fits state labels) :
    Settled count (labels.foldl LogLabel.act messages) final := by
  induction run generalizing messages written collected with
  | nil state =>
      obtain settled | ⟨-, impossible⟩ := settled
      · exact settled
      · contradiction
  | @cons state middle final label labels first rest inductionHypothesis =>
      obtain ⟨nextWritten, nextCollected, represented, -⟩ :=
        represents.step fits.1 first
      apply inductionHypothesis represented (frontComplete_act label front)
        _ (fits.2 _ first)
      have other : LogLabel.send ∈ label :: labels → label ≠ .send →
          LogLabel.send ∈ labels := by
        intro isMember notSend
        exact (List.mem_cons.mp isMember).resolve_left (Ne.symm notSend)
      cases first with
      | send sends =>
          left
          apply Settled.send represents front _ fits.1
            (represents.sends_of_logSend sends)
          intro busy
          exact settled.resolve_right fun idle => busy idle.1
      | reserve free isNew =>
          apply settled.imp
          · intro settled
            exact settled.reserve represents free isNew fits.1
          · intro ⟨idle, sends⟩
            exact ⟨idle, other sends LogLabel.noConfusion⟩
      | print text writing =>
          apply settled.imp
          · intro settled
            exact settled.of_length (List.length_map _) rfl rfl rfl
          · intro ⟨idle, sends⟩
            exact ⟨idle, other sends LogLabel.noConfusion⟩
      | markWritten writing =>
          apply settled.imp
          · intro settled
            exact settled.of_length (List.length_map _) rfl rfl rfl
          · intro ⟨idle, sends⟩
            exact ⟨idle, other sends LogLabel.noConfusion⟩

/-- The messages that are complete in front of all others when the log thread
begins are in the output when it has ended. -/
theorem exists_written (memory : Nat → TaggedText) (count : Nat)
    (early late : List LogLabel) (middle final : LogState)
    (begins : Run LogStep (LogState.initial memory) early middle)
    (earlyFits : Along LogStep Fits (LogState.initial memory) early)
    (ends : Run LogStep middle late final)
    (lateFits : Along LogStep Fits middle late)
    (idle : middle.sender = .idle ∧ final.sender = .idle)
    (sends : LogLabel.send ∈ late)
    (front : Reservation.FrontComplete count (Log.messages early)) :
    ∃ written : List LogText,
      final.output = written.flatten ∧ count ≤ written.length ∧
        written.map .complete <+: Log.messages (early ++ late) := by
  obtain ⟨written, collected, represents, -⟩ :=
    (represents_initial memory).run begins earlyFits
  have settled := settled_run ends represents front (.inr ⟨idle.1, sends⟩)
    lateFits
  obtain ⟨nextWritten, nextCollected, represented, -⟩ :=
    represents.run ends lateFits
  have passed : Passed count
      (late.foldl LogLabel.act (early.foldl LogLabel.act [])) final := by
    obtain passed | later := settled
    · exact passed
    · rw [idle.2] at later
      contradiction
  have total := represented.length_messages
  unfold Passed at passed
  refine ⟨nextWritten ++ nextCollected, ?_, by omega, ?_⟩
  · have nothing := represented.text_eq
    rw [idle.2] at nothing
    rw [List.flatten_append, ← nothing, represented.output_eq]
    exact (List.append_nil _).symm
  · have split := represented.messages_eq
    unfold Log.messages
    rw [List.foldl_append]
    exact ⟨_, split.symm⟩

/-- After a run that came too early, both messages are written by the next one.
-/
theorem exists_written_twoThreads :
    ∃ (final : LogState) (written : List LogText),
      final.output = written.flatten ∧ 2 ≤ written.length ∧
        written.map .complete <+: Log.messages (firstRun ++ secondRun) := by
  obtain ⟨middle, final, first, second, fits, idle, -⟩ := exists_run_twoThreads
  have front : Reservation.FrontComplete 2 (Log.messages firstRun) := by
    refine ⟨by decide, ?_⟩
    intro record isMember
    have both : record ∈ [Reservation.complete [97], .complete [98]] :=
      isMember
    obtain ⟨value, -, rfl⟩ := List.mem_map.mp
      (show record ∈ [[97], [98]].map Reservation.complete from both)
    trivial
  exact ⟨final, exists_written _ 2 firstRun secondRun middle final first
    (fits_of_short (by decide) (by decide)) second fits idle
    List.mem_cons_self front⟩

end Log
end Pilot2Cloud
