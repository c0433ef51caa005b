import Pilot2Cloud.Log.LogOutput

/-!
# The order of log messages

The messages of a run are in the output, in what the log thread has collected,
or in one of its maps, each of them once and in the order of their numbers.
Only the number at which the keys become negative must not be given while a map
holds the number in front of it.
-/

namespace Pilot2Cloud
namespace Log

open Foundation

/-! ## Numbers -/

/-- The number whose key is the least one. -/
abbrev firstNegative : UInt32 := 0x80000000

theorem intKey_pred {number : UInt32} (notFirst : number ≠ firstNegative) :
    intKey (number - 1) = intKey number - 1 := by
  have bound := number.toNat_lt
  have notHalf : number.toNat ≠ 2 ^ 31 := by
    intro same
    exact notFirst (UInt32.toNat_inj.mp same)
  have value := BitVec.toInt_eq_toNat_cond number.toBitVec
  have bits : (intKey (number - 1)) = (number.toBitVec - 1#32).toInt := rfl
  rw [bits, BitVec.toInt_sub, Int.bmod_eq_emod]
  change _ = number.toBitVec.toInt - 1
  rw [value, UInt32.toNat_toBitVec]
  have one : (1#32).toInt = 1 := by decide
  rw [one]
  split <;> split <;> omega

namespace LogInfoList

/-- The keys are those of numbers in front of a number, each with one address.
-/
def NumberedBefore (map : LogInfoList) (number : UInt32) : Prop :=
  ∀ entry ∈ map.entries, entry.1 ≤ intKey (number - 1) ∧
    ∃ address, entry.2 = [address]

variable {map : LogInfoList} {number : UInt32} {address : Nat}

/-- A number that fits comes behind the keys of all entries. -/
theorem NumberedBefore.lt_intKey (numbered : map.NumberedBefore number)
    (fits : number = firstNegative → map.entries = []) :
    ∀ entry ∈ map.entries, entry.1 < intKey number := by
  intro entry isMember
  by_cases isFirst : number = firstNegative
  · rw [fits isFirst] at isMember
    contradiction
  · have before := (numbered entry isMember).1
    rw [intKey_pred isFirst] at before
    omega

theorem entries_pushBack (numbered : map.NumberedBefore number)
    (fits : number = firstNegative → map.entries = []) :
    (map.pushBack number address).entries =
      map.entries ++ [(intKey number, [address])] := by
  have largest := numbered.lt_intKey fits
  unfold pushBack
  rw [SortedMap.find_of_lt largest, SortedMap.entries_assign_of_lt largest]
  rfl

/-- A message with a new number is the last one. -/
theorem values_pushBack (address : Nat)
    (numbered : map.NumberedBefore number)
    (fits : number = firstNegative → map.entries = []) :
    (map.pushBack number address).values = map.values ++ [[address]] := by
  unfold values
  rw [entries_pushBack numbered fits, List.map_append]
  rfl

/-- Pushing a text keeps the numbers before the next one. -/
theorem NumberedBefore.pushBack (numbered : map.NumberedBefore number)
    (fits : number = firstNegative → map.entries = []) :
    (map.pushBack number address).NumberedBefore (number + 1) := by
  have largest := numbered.lt_intKey fits
  unfold NumberedBefore
  rw [entries_pushBack numbered fits, UInt32.add_sub_cancel]
  intro entry isMember
  obtain before | last := List.mem_append.mp isMember
  · exact ⟨(largest entry before).le, (numbered entry before).2⟩
  · rw [List.mem_singleton.mp last]
    exact ⟨le_refl _, address, rfl⟩

theorem numberedBefore_empty (number : UInt32) :
    NumberedBefore .empty number := by
  intro entry isMember
  contradiction

theorem NumberedBefore.single (numbered : map.NumberedBefore number) :
    ∀ tmpV ∈ map.values, ∃ address, tmpV = [address] := by
  intro tmpV isMember
  obtain ⟨entry, isEntry, rfl⟩ := List.mem_map.mp isMember
  exact (numbered entry isEntry).2

end LogInfoList

/-! ## The messages and the state -/

/-- The number of a message is not the first negative one, unless the map is
empty. -/
def Fits (state : LogState) : LogLabel → Prop
  | .reserve _ _ =>
      state.ulSeqNum + 1 = firstNegative → state.logMapInfo.entries = []
  | .send => state.sender.rest ≠ [] → state.ulNewSeqNum = firstNegative →
      state.localLogMapInfo.entries = []
  | .print _ _ | .markWritten _ => True

/-- The tag of a message that is being written or complete. -/
def IsLogTag (tag : UInt8) : Prop :=
  tag = SYMBOL_SET_USE_LOG_SPACE ∨ tag = SYMBOL_SET_USE_APPLICATION_SPACE ∨
    tag = SYMBOL_SET_USE_LOG_SPACE - 1 ∨
    tag = SYMBOL_SET_USE_APPLICATION_SPACE - 1

/-- The messages are in the output, collected, and in the maps. -/
structure Represents (messages : List (Reservation Nat LogText))
    (written collected : List LogText) (state : LogState) : Prop where
  messages_eq : messages =
    (written ++ collected).map .complete ++ state.queue.map state.record
  output_eq : state.output = written.flatten
  text_eq : state.sender.text = collected.flatten
  distinct : state.queue.Nodup
  tagged : ∀ address ∈ state.queue, IsLogTag (state.memory address).tag
  numbered : state.logMapInfo.NumberedBefore (state.ulSeqNum + 1)
  localNumbered : state.localLogMapInfo.NumberedBefore state.ulNewSeqNum
  single : ∀ tmpV ∈ state.sender.rest, ∃ address, tmpV = [address]
  collects : state.sender.Collects → state.localLogMapInfo.entries = []

theorem represents_initial (memory : Nat → TaggedText) :
    Represents [] [] [] (.initial memory) where
  messages_eq := rfl
  output_eq := rfl
  text_eq := rfl
  distinct := List.nodup_nil
  tagged address isMember := by contradiction
  numbered := LogInfoList.numberedBefore_empty _
  localNumbered := LogInfoList.numberedBefore_empty _
  single tmpV isMember := by contradiction
  collects collects := collects.elim

variable {messages : List (Reservation Nat LogText)}
  {written collected : List LogText} {state next : LogState}
  {address : Nat}

/-! ## The threads that log -/

/-- Reserving a record keeps the representation. -/
theorem Represents.reserve {message : TaggedText}
    (represents : Represents messages written collected state)
    (free : address ∉ state.queue) (isNew : message.IsNew)
    (fits : Fits state (.reserve address message)) :
    Represents (LogLabel.act messages (.reserve address message)) written
      collected (state.reserve address message) := by
  have values := LogInfoList.values_pushBack address
    represents.numbered fits
  have queue : (state.reserve address message).queue =
      state.queue ++ [address] := by
    unfold LogState.queue LogState.reserve
    simp only [values, List.flatten_append, List.flatten_cons,
      List.flatten_nil, List.append_nil, List.append_assoc]
  have others : ∀ other ∈ state.queue,
      (state.reserve address message).memory other = state.memory other := by
    intro other isMember
    apply Function.update_of_ne
    rintro rfl
    exact free isMember
  have itself : (state.reserve address message).memory address = message :=
    Function.update_self _ _ _
  have notWritten : message.tag &&& 0x0F = SYMBOL_LOG_NOT_WRITTEN := by
    obtain tag | tag := isNew
    · rw [tag]
      decide
    · rw [tag]
      decide
  refine ⟨?_, represents.output_eq, represents.text_eq, ?_, ?_, ?_,
    represents.localNumbered, represents.single, represents.collects⟩
  · have recorded : (state.reserve address message).record address =
        .draft address message.text := by
      unfold LogState.record
      rw [itself]
      exact if_pos notWritten
    have same : state.queue.map (state.reserve address message).record =
        state.queue.map state.record := by
      apply List.map_congr_left
      intro other isMember
      unfold LogState.record
      rw [others other isMember]
    have recordedAll : (state.queue ++ [address]).map
        (state.reserve address message).record =
          state.queue.map state.record ++ [.draft address message.text] := by
      rw [List.map_append, same, List.map_singleton, recorded]
    rw [queue, recordedAll, ← List.append_assoc, ← represents.messages_eq]
    rfl
  · rw [queue]
    apply List.Nodup.append represents.distinct (List.nodup_singleton _)
    rw [List.disjoint_singleton]
    exact free
  · intro other isMember
    rw [queue] at isMember
    obtain before | last := List.mem_append.mp isMember
    · rw [others other before]
      exact represents.tagged other before
    · rw [List.mem_singleton.mp last, itself]
      exact isNew.imp_right .inl
  · exact represents.numbered.pushBack fits

/-- A thread that changes its message changes one record. -/
theorem Represents.update {message : TaggedText}
    (represents : Represents messages written collected state)
    (address : Nat)
    (change : Reservation Nat LogText → Reservation Nat LogText)
    (memory : next = { state with
      memory := Function.update state.memory address message })
    (isTag : IsLogTag message.tag)
    (itself : message.record address = change (state.record address))
    (others : ∀ other, other ≠ address →
      change (state.record other) = state.record other)
    (complete : ∀ record, record.IsComplete → change record = record) :
    Represents (messages.map change) written collected next := by
  subst memory
  refine ⟨?_, represents.output_eq, represents.text_eq, represents.distinct,
    ?_, represents.numbered, represents.localNumbered, represents.single,
    represents.collects⟩
  · rw [represents.messages_eq, List.map_append]
    have taken : ((written ++ collected).map .complete).map change =
        (written ++ collected).map .complete := by
      rw [List.map_map]
      apply List.map_congr_left
      intro value _
      exact complete _ trivial
    rw [taken]
    apply congrArg
    change _ = state.queue.map _
    rw [List.map_map]
    apply List.map_congr_left
    intro other _
    by_cases isSame : other = address
    · rw [isSame]
      change _ = (Function.update state.memory address message address).record _
      rw [Function.update_self]
      exact itself.symm
    · change _ = (Function.update state.memory address message other).record _
      rw [Function.update_of_ne isSame]
      exact others other isSame
  · intro other isMember
    change IsLogTag (Function.update state.memory address message other).tag
    by_cases isSame : other = address
    · rw [isSame, Function.update_self]
      exact isTag
    · rw [Function.update_of_ne isSame]
      exact represents.tagged other isMember

/-- Of a message that is being written, the text or the tag may change. -/
theorem Represents.isLogTag_pred
    (represents : Represents messages written collected state)
    (writing : state.Writing address) :
    IsLogTag ((state.memory address).tag - 1) ∧
      ((state.memory address).tag - 1) &&& 0x0F ≠ SYMBOL_LOG_NOT_WRITTEN := by
  obtain ⟨isMember, notWritten⟩ := writing
  obtain tag | tag | tag | tag := represents.tagged address isMember
  · rw [tag]
    exact ⟨.inr (.inr (.inl rfl)), by decide⟩
  · rw [tag]
    exact ⟨.inr (.inr (.inr rfl)), by decide⟩
  · rw [tag] at notWritten
    exact absurd notWritten (by decide)
  · rw [tag] at notWritten
    exact absurd notWritten (by decide)

/-- The record of another message has another identifier. -/
theorem TaggedText.record_other {message : TaggedText} {other : Nat}
    (change : Nat → Reservation Nat LogText → Reservation Nat LogText)
    (draft : ∀ text, change address (.draft other text) = .draft other text)
    (complete : ∀ text, change address (.complete text) = .complete text) :
    change address (message.record other) = message.record other := by
  unfold TaggedText.record
  split
  · exact draft _
  · exact complete _

theorem record_eq_draft (writing : state.Writing address) :
    state.record address = .draft address (state.memory address).text :=
  if_pos writing.2

/-- Printing into a record keeps the representation. -/
theorem Represents.print (text : LogText)
    (represents : Represents messages written collected state)
    (writing : state.Writing address) :
    Represents (LogLabel.act messages (.print address text)) written collected
      (state.print address text) := by
  apply represents.update address (Reservation.revise address text) rfl
  · exact represents.tagged address writing.1
  · rw [record_eq_draft writing]
    exact (if_pos writing.2).trans (if_pos rfl).symm
  · intro other isOther
    apply TaggedText.record_other fun id => .revise id text
    · intro old
      exact if_neg isOther
    · intro old
      rfl
  · intro record isComplete
    exact Reservation.revise_of_isComplete isComplete

/-- Marking a record as written keeps the representation. -/
theorem Represents.markWritten
    (represents : Represents messages written collected state)
    (writing : state.Writing address) :
    Represents (LogLabel.act messages (.markWritten address)) written
      collected (state.markWritten address) := by
  obtain ⟨isTag, isWritten⟩ := represents.isLogTag_pred writing
  apply represents.update address (Reservation.finish address) rfl
  · exact isTag
  · rw [record_eq_draft writing]
    exact (if_neg isWritten).trans (if_pos rfl).symm
  · intro other isOther
    apply TaggedText.record_other Reservation.finish
    · intro old
      exact if_neg isOther
    · intro old
      rfl
  · intro record isComplete
    exact Reservation.finish_of_isComplete isComplete

/-! ## The log thread -/

/-- A step of the log thread that passes no message. -/
theorem Represents.moved {nextWritten nextCollected : List LogText}
    (represents : Represents messages written collected state)
    (same : nextWritten ++ nextCollected = written ++ collected)
    (memory : next.memory = state.memory) (queue : next.queue = state.queue)
    (output : next.output = nextWritten.flatten)
    (text : next.sender.text = nextCollected.flatten)
    (numbered : next.logMapInfo.NumberedBefore (next.ulSeqNum + 1))
    (localNumbered : next.localLogMapInfo.NumberedBefore next.ulNewSeqNum)
    (single : ∀ tmpV ∈ next.sender.rest, ∃ address, tmpV = [address])
    (collects : next.sender.Collects → next.localLogMapInfo.entries = []) :
    Represents messages nextWritten nextCollected next := by
  refine ⟨?_, output, text, ?_, ?_, numbered, localNumbered, single, collects⟩
  · have records : next.record = state.record := by
      funext other
      unfold LogState.record
      rw [memory]
    rw [same, queue, records]
    exact represents.messages_eq
  · rw [queue]
    exact represents.distinct
  · rw [queue, memory]
    exact represents.tagged

variable {isLocal flag : Bool} {rest : List (List Nat)} {strInfo : LogText}

/-- The log thread is in a loop and comes to a message. -/
def AtMessage (state : LogState) (isLocal : Bool) (newTmpV : Nat)
    (rest : List (List Nat)) (flag : Bool) (strInfo : LogText) : Prop :=
  state.sender = .traversal isLocal ([newTmpV] :: rest) flag strInfo

/-- The message is put into the map for the next run. -/
theorem Represents.keepForNextRun
    (represents : Represents messages written collected state)
    (here : AtMessage state isLocal address rest flag strInfo)
    (fits : Fits state .send) :
    Represents messages written collected
      { state.keepForNextRun address with
        sender := .traversal isLocal rest false strInfo } := by
  have nonempty : state.sender.rest ≠ [] := by
    rw [here]
    exact List.cons_ne_nil _ _
  have values := LogInfoList.values_pushBack address
    represents.localNumbered (fits nonempty)
  apply represents.moved rfl
  · rfl
  · unfold LogState.queue
    rw [here]
    change (state.localLogMapInfo.pushBack state.ulNewSeqNum
      address).values.flatten ++ rest.flatten ++ _ = _
    rw [values, List.flatten_append]
    simp [Sender.rest]
    rfl
  · exact represents.output_eq
  · have text := represents.text_eq
    rw [here] at text
    exact text
  · exact represents.numbered
  · exact represents.localNumbered.pushBack (fits nonempty)
  · have single := represents.single
    rw [here] at single
    exact (List.forall_mem_cons.mp single).2
  · intro collects
    contradiction

/-- A complete message is collected. -/
theorem Represents.collect
    (represents : Represents messages written collected state)
    (here : AtMessage state isLocal address rest true strInfo)
    (isWritten :
      (state.memory address).tag &&& 0x0F ≠ SYMBOL_LOG_NOT_WRITTEN) :
    Represents messages written
      (collected ++ [(state.memory address).text])
      { state with
        sender := .traversal isLocal rest true
          (strInfo ++ (state.memory address).text) } := by
  have isEmpty : state.localLogMapInfo.entries = [] := by
    apply represents.collects
    rw [here]
    rfl
  have queue : state.queue =
      address :: { state with
        sender := .traversal isLocal rest true
          (strInfo ++ (state.memory address).text) }.queue := by
    unfold LogState.queue LogInfoList.values
    dsimp only
    rw [here, isEmpty]
    rfl
  have distinct := represents.distinct
  have tagged := represents.tagged
  rw [queue] at distinct tagged
  refine ⟨?_, represents.output_eq, ?_, distinct.of_cons,
    (List.forall_mem_cons.mp tagged).2, represents.numbered,
    represents.localNumbered, ?_, fun _ => isEmpty⟩
  · have taken : state.record address =
        .complete (state.memory address).text := if_neg isWritten
    rw [represents.messages_eq, queue, List.map_cons, taken,
      Reservation.map_complete_append_cons, List.append_assoc written]
    rfl
  · have text := represents.text_eq
    rw [here] at text
    change strInfo ++ _ = _
    rw [List.flatten_append, ← text]
    simp [Sender.text]
  · have single := represents.single
    rw [here] at single
    exact (List.forall_mem_cons.mp single).2

/-- The traversal of a loop comes to its end. -/
theorem Represents.writeOut
    (represents : Represents messages written collected state)
    (here : state.sender = .traversal isLocal [] flag strInfo) :
    Represents messages (written ++ collected) []
      { state with
        output := state.output ++ strInfo
        sender := if isLocal then .between flag else .idle } := by
  have text := represents.text_eq
  rw [here] at text
  have rest : (if isLocal then Sender.between flag else .idle).rest = [] := by
    split <;> rfl
  apply represents.moved
  · exact List.append_nil _
  · rfl
  · unfold LogState.queue
    dsimp only
    rw [here, rest]
    rfl
  · rw [represents.output_eq, List.flatten_append, ← text]
    rfl
  · dsimp only
    split <;> rfl
  · exact represents.numbered
  · exact represents.localNumbered
  · dsimp only
    rw [rest]
    intro tmpV isMember
    contradiction
  · intro collects
    apply represents.collects
    rw [here]
    dsimp only at collects
    split at collects
    · exact collects
    · exact collects.elim

/-- The log thread takes its own map. -/
theorem Represents.takeLocal
    (represents : Represents messages written collected state)
    (here : state.sender = .idle) :
    Represents messages written collected
      { state with
        localLogMapInfo := .empty
        sender := .traversal true state.localLogMapInfo.values true [] } := by
  have text := represents.text_eq
  rw [here] at text
  apply represents.moved rfl
  · rfl
  · unfold LogState.queue
    dsimp only
    rw [here]
    simp [Sender.rest, LogInfoList.values, SortedMap.empty]
  · exact represents.output_eq
  · exact text
  · exact represents.numbered
  · exact LogInfoList.numberedBefore_empty _
  · exact represents.localNumbered.single
  · intro _
    rfl

/-- The log thread takes the map of the other threads. -/
theorem Represents.takeAll
    (represents : Represents messages written collected state)
    (here : state.sender = .between flag) :
    Represents messages written collected
      { state with
        logMapInfo := .empty
        sender := .traversal false state.logMapInfo.values flag [] } := by
  have text := represents.text_eq
  have collects := represents.collects
  rw [here] at text collects
  apply represents.moved rfl
  · rfl
  · unfold LogState.queue
    dsimp only
    rw [here]
    simp [Sender.rest, LogInfoList.values, SortedMap.empty]
  · exact represents.output_eq
  · exact text
  · exact LogInfoList.numberedBefore_empty _
  · exact represents.localNumbered
  · exact represents.numbered.single
  · exact collects

/-- A run of the log thread goes on without a map. -/
theorem Represents.pass {sender : Sender}
    (represents : Represents messages written collected state)
    (rest : state.sender.rest = [])
    (text : state.sender.text = []) (nextRest : sender.rest = [])
    (nextText : sender.text = [])
    (collects : sender.Collects → state.localLogMapInfo.entries = []) :
    Represents messages written collected { state with sender := sender } := by
  have noText := represents.text_eq
  rw [text] at noText
  apply represents.moved rfl
  · rfl
  · unfold LogState.queue
    dsimp only
    rw [rest, nextRest]
  · exact represents.output_eq
  · exact nextText.trans noText
  · exact represents.numbered
  · exact represents.localNumbered
  · dsimp only
    rw [nextRest]
    intro tmpV isMember
    contradiction
  · exact collects

theorem mem_queue_of_atMessage
    (here : AtMessage state isLocal address rest flag strInfo) :
    address ∈ state.queue := by
  unfold LogState.queue
  rw [here]
  simp [Sender.rest]

/-- A message that has been written is complete. -/
theorem IsLogTag.complete_of_ne {tag : UInt8} (isTag : IsLogTag tag)
    (isWritten : tag &&& 0x0F ≠ SYMBOL_LOG_NOT_WRITTEN) :
    tag &&& 0x0F = SYMBOL_LOG_WRITE_COMPLETE := by
  obtain rfl | rfl | rfl | rfl := isTag
  · exact absurd (by decide) isWritten
  · exact absurd (by decide) isWritten
  · decide
  · decide

/-- What a step of the log thread can do. -/
inductive Sends (state : LogState) : LogState → Prop
  | pass (here : state.sender = .idle)
      (isEmpty : state.localLogMapInfo.entries = []) :
      Sends state { state with sender := .between true }
  | takeLocal (here : state.sender = .idle) :
      Sends state { state with
        localLogMapInfo := .empty
        sender := .traversal true state.localLogMapInfo.values true [] }
  | keep {isLocal : Bool} {address : Nat} {rest : List (List Nat)}
      {flag : Bool} {strInfo : LogText}
      (here : AtMessage state isLocal address rest flag strInfo)
      (notWritten : flag = true →
        (state.memory address).tag &&& 0x0F = SYMBOL_LOG_NOT_WRITTEN) :
      Sends state { state.keepForNextRun address with
        sender := .traversal isLocal rest false strInfo }
  | collect {isLocal : Bool} {address : Nat} {rest : List (List Nat)}
      {strInfo : LogText}
      (here : AtMessage state isLocal address rest true strInfo)
      (isWritten :
        (state.memory address).tag &&& 0x0F ≠ SYMBOL_LOG_NOT_WRITTEN) :
      Sends state { state with
        sender := .traversal isLocal rest true
          (strInfo ++ (state.memory address).text) }
  | writeOut {isLocal flag : Bool} {strInfo : LogText}
      (here : state.sender = .traversal isLocal [] flag strInfo) :
      Sends state { state with
        output := state.output ++ strInfo
        sender := if isLocal then .between flag else .idle }
  | takeAll {flag : Bool} (here : state.sender = .between flag) :
      Sends state { state with
        logMapInfo := .empty
        sender := .traversal false state.logMapInfo.values flag [] }
  | stop {flag : Bool} (here : state.sender = .between flag)
      (isEmpty : state.logMapInfo.entries = []) :
      Sends state { state with sender := .idle }

/-- Every step of the log thread is defined. -/
theorem Represents.exists_sends
    (represents : Represents messages written collected state) :
    ∃ next, state.logSend = some next ∧ Sends state next := by
  unfold LogState.logSend
  cases here : state.sender with
  | idle =>
      dsimp only
      split
      · next isEmpty => exact ⟨_, rfl, .pass here isEmpty⟩
      · exact ⟨_, rfl, .takeLocal here⟩
  | between flag =>
      dsimp only
      split
      · next isEmpty => exact ⟨_, rfl, .stop here isEmpty⟩
      · exact ⟨_, rfl, .takeAll here⟩
  | traversal isLocal rest flag strInfo =>
      cases rest with
      | nil => exact ⟨_, rfl, .writeOut here⟩
      | cons tmpV rest =>
          have single := represents.single
          rw [here] at single
          obtain ⟨newTmpV, rfl⟩ := single tmpV List.mem_cons_self
          dsimp only
          unfold LogState.traversalLogInfo
          cases flag with
          | false =>
              refine ⟨_, rfl, .keep here ?_⟩
              intro collects
              contradiction
          | true =>
              by_cases notWritten :
                  (state.memory newTmpV).tag &&& 0x0F = SYMBOL_LOG_NOT_WRITTEN
              · rw [if_pos rfl, if_pos notWritten]
                exact ⟨_, rfl, .keep here fun _ => notWritten⟩
              · have isComplete := (represents.tagged newTmpV
                  (mem_queue_of_atMessage here)).complete_of_ne notWritten
                rw [if_pos rfl, if_neg notWritten, if_pos isComplete]
                exact ⟨_, rfl, .collect here notWritten⟩

/-- Every step of the log thread is one of those that it can do. -/
theorem Represents.sends_of_logSend
    (represents : Represents messages written collected state)
    (sends : state.logSend = some next) : Sends state next := by
  obtain ⟨other, defined, does⟩ := represents.exists_sends
  obtain rfl := Option.some_inj.mp (sends.symm.trans defined)
  exact does

/-- The messages that have been passed stay in front. -/
theorem Represents.send
    (represents : Represents messages written collected state)
    (fits : Fits state .send) (sends : Sends state next) :
    ∃ nextWritten nextCollected,
      Represents messages nextWritten nextCollected next ∧
        written ++ collected <+: nextWritten ++ nextCollected := by
  cases sends with
  | pass here isEmpty =>
      refine ⟨written, collected, ?_, List.prefix_refl _⟩
      apply represents.pass
      all_goals first | rw [here]; rfl | rfl | exact fun _ => isEmpty
  | takeLocal here =>
      exact ⟨written, collected, represents.takeLocal here,
        List.prefix_refl _⟩
  | keep here notWritten =>
      exact ⟨written, collected, represents.keepForNextRun here fits,
        List.prefix_refl _⟩
  | collect here isWritten =>
      refine ⟨written, _, represents.collect here isWritten, ?_⟩
      rw [← List.append_assoc]
      exact List.prefix_append _ _
  | writeOut here =>
      refine ⟨written ++ collected, [], represents.writeOut here, ?_⟩
      rw [List.append_nil]
  | takeAll here =>
      exact ⟨written, collected, represents.takeAll here, List.prefix_refl _⟩
  | stop here isEmpty =>
      refine ⟨written, collected, ?_, List.prefix_refl _⟩
      apply represents.pass
      all_goals first | rw [here]; rfl | rfl | exact False.elim

/-! ## Runs -/

/-- One step keeps the messages, and those that have been passed stay in front.
-/
theorem Represents.step {label : LogLabel}
    (represents : Represents messages written collected state)
    (fits : Fits state label) (step : LogStep state label next) :
    ∃ nextWritten nextCollected,
      Represents (LogLabel.act messages label) nextWritten nextCollected
        next ∧
      written ++ collected <+: nextWritten ++ nextCollected := by
  cases step with
  | reserve free isNew =>
      exact ⟨written, collected, represents.reserve free isNew fits,
        List.prefix_refl _⟩
  | print text writing =>
      exact ⟨written, collected, represents.print text writing,
        List.prefix_refl _⟩
  | markWritten writing =>
      exact ⟨written, collected, represents.markWritten writing,
        List.prefix_refl _⟩
  | send sends =>
      exact represents.send fits (represents.sends_of_logSend sends)

/-- Every run of calls that fit keeps the representation. -/
theorem Represents.run {labels : List LogLabel} {final : LogState}
    (represents : Represents messages written collected state)
    (run : Run LogStep state labels final)
    (fits : Along LogStep Fits state labels) :
    ∃ nextWritten nextCollected,
      Represents (labels.foldl LogLabel.act messages) nextWritten
        nextCollected final ∧
      written ++ collected <+: nextWritten ++ nextCollected := by
  induction run generalizing messages written collected with
  | nil state => exact ⟨written, collected, represents, List.prefix_refl _⟩
  | cons first rest inductionHypothesis =>
      obtain ⟨middleWritten, middleCollected, represented, front⟩ :=
        represents.step fits.1 first
      obtain ⟨nextWritten, nextCollected, last, later⟩ :=
        inductionHypothesis represented (fits.2 _ first)
      exact ⟨nextWritten, nextCollected, last, front.trans later⟩

/-- The log thread takes no number for the other threads, and at most one for the
next run. -/
theorem numbers_of_logSend (sends : state.logSend = some next) :
    next.ulSeqNum = state.ulSeqNum ∧
      (next.ulNewSeqNum = state.ulNewSeqNum ∨
        next.ulNewSeqNum = state.ulNewSeqNum + 1) := by
  unfold LogState.logSend at sends
  split at sends
  · split at sends
    all_goals
      injection sends with same
      rw [← same]
      exact ⟨rfl, .inl rfl⟩
  · contradiction
  · injection sends with same
    rw [← same]
    unfold LogState.traversalLogInfo
    dsimp only
    split
    · split
      · exact ⟨rfl, .inr rfl⟩
      · split <;> exact ⟨rfl, .inl rfl⟩
    · exact ⟨rfl, .inr rfl⟩
  · injection sends with same
    rw [← same]
    exact ⟨rfl, .inl rfl⟩
  · split at sends
    all_goals
      injection sends with same
      rw [← same]
      exact ⟨rfl, .inl rfl⟩

/-- In fewer than `2 ^ 31` steps no number is the first negative one. -/
theorem fits_of_short {labels : List LogLabel}
    (fewNumbers : state.ulSeqNum.toNat + labels.length < 2 ^ 31)
    (fewNewNumbers : state.ulNewSeqNum.toNat + labels.length < 2 ^ 31) :
    Along LogStep Fits state labels := by
  induction labels generalizing state with
  | nil => trivial
  | cons label labels inductionHypothesis =>
      rw [List.length_cons] at fewNumbers fewNewNumbers
      have number : (state.ulSeqNum + 1).toNat = state.ulSeqNum.toNat + 1 := by
        rw [UInt32.toNat_add]
        exact Nat.mod_eq_of_lt (by change _ + 1 < 2 ^ 32; omega)
      have newNumber :
          (state.ulNewSeqNum + 1).toNat = state.ulNewSeqNum.toNat + 1 := by
        rw [UInt32.toNat_add]
        exact Nat.mod_eq_of_lt (by change _ + 1 < 2 ^ 32; omega)
      have first : firstNegative.toNat = 2 ^ 31 := rfl
      constructor
      · cases label with
        | reserve address message =>
            intro isFirst
            rw [isFirst] at number
            omega
        | send =>
            intro _ isFirst
            rw [isFirst] at fewNewNumbers
            omega
        | print | markWritten => trivial
      · intro next step
        have seqNum : next.ulSeqNum.toNat ≤ state.ulSeqNum.toNat + 1 := by
          cases step with
          | reserve free isNew => exact number.le
          | print text writing => exact Nat.le_succ _
          | markWritten writing => exact Nat.le_succ _
          | send sends =>
              rw [(numbers_of_logSend sends).1]
              exact Nat.le_succ _
        have newSeqNum :
            next.ulNewSeqNum.toNat ≤ state.ulNewSeqNum.toNat + 1 := by
          cases step with
          | reserve free isNew => exact Nat.le_succ _
          | print text writing => exact Nat.le_succ _
          | markWritten writing => exact Nat.le_succ _
          | send sends =>
              obtain same | isNext := (numbers_of_logSend sends).2
              · rw [same]
                exact Nat.le_succ _
              · rw [isNext]
                exact newNumber.le
        apply inductionHypothesis <;> omega

/-! ## The output -/

/-- The messages of a run are those in the output, those that the log thread has
collected and those in its maps, in the order in which the threads have taken
their numbers. -/
theorem exists_output (memory : Nat → TaggedText) (labels : List LogLabel)
    (final : LogState)
    (run : Run LogStep (LogState.initial memory) labels final)
    (fits : Along LogStep Fits (LogState.initial memory) labels) :
    ∃ written collected : List LogText,
      final.output = written.flatten ∧
        final.sender.text = collected.flatten ∧
        Log.messages labels = (written ++ collected).map .complete ++
          final.queue.map final.record ∧
        final.queue.Nodup := by
  obtain ⟨written, collected, represents, -⟩ :=
    (represents_initial memory).run run fits
  exact ⟨written, collected, represents.output_eq, represents.text_eq,
    represents.messages_eq, represents.distinct⟩

/-- Two threads, of which the second is the first to be ready, and a run of the
log thread that comes to the message of the first one too early. -/
def firstRun : List LogLabel :=
  [.reserve 7 ⟨0xFF, []⟩, .reserve 8 ⟨0xEF, []⟩, .print 8 [98], .markWritten 8,
    .send, .send, .print 7 [97], .send, .markWritten 7, .send, .send]

/-- The next run of the log thread. -/
def secondRun : List LogLabel :=
  [.send, .send, .send, .send, .send]

theorem exists_run_twoThreads :
    ∃ middle final,
      Run LogStep (LogState.initial fun _ => ⟨0, []⟩) firstRun middle ∧
        Run LogStep middle secondRun final ∧
        Along LogStep Fits middle secondRun ∧
        (middle.sender = .idle ∧ final.sender = .idle) ∧
        middle.output = [] ∧ final.output = [97, 98] := by
  refine ⟨_, _, .cons (.reserve ?_ (.inl rfl)) <|
    .cons (.reserve ?_ (.inr rfl)) <| .cons (.print _ ⟨?_, rfl⟩) <|
    .cons (.markWritten ⟨?_, rfl⟩) <| .cons (.send rfl) <|
    .cons (.send rfl) <| .cons (.print _ ⟨?_, rfl⟩) <|
    .cons (.send rfl) <| .cons (.markWritten ⟨?_, rfl⟩) <|
    .cons (.send rfl) <| .cons (.send rfl) <| .nil _,
    .cons (.send rfl) <| .cons (.send rfl) <| .cons (.send rfl) <|
    .cons (.send rfl) <| .cons (.send rfl) <| .nil _,
    fits_of_short ?_ ?_, ⟨rfl, rfl⟩, rfl, rfl⟩
  all_goals decide

theorem exists_output_twoThreads :
    ∃ (final : LogState) (written collected : List LogText),
      final.output = [97, 98] ∧ final.output = written.flatten ∧
        final.sender.text = collected.flatten ∧
        Log.messages (firstRun ++ secondRun) =
          (written ++ collected).map .complete ++
            final.queue.map final.record ∧
        final.queue.Nodup := by
  obtain ⟨middle, final, first, second, -, -, -, output⟩ :=
    exists_run_twoThreads
  obtain ⟨written, collected, represented⟩ :=
    exists_output _ (firstRun ++ secondRun) final
      (Run.append_iff.mpr ⟨middle, first, second⟩)
      (fits_of_short (by decide) (by decide))
  exact ⟨final, written, collected, output, represented⟩

end Log
end Pilot2Cloud
