import Pilot2Cloud.Flyto.Control
import Pilot2Cloud.Foundation.BinaryFloat
import Pilot2Cloud.Foundation.Truncation

/-!
# Timed moves

A move or a turn holds the stick for the time that the distance takes at the
speed: one message for every full cycle, one for the rest and a neutral one at
the end.  A message that cannot be sent ends it at once.
-/

namespace Pilot2Cloud
namespace Flyto

open Foundation

/-- An attempt to send a message, and for how long the thread sleeps after it. -/
structure Attempt where
  offset : FlightControlOffset
  sent : Bool
  heldMs : Int
  deriving DecidableEq, Repr

namespace FlytoController

/-- `totalMs`, `fullCycles` and `remainingMs`, or nothing where the conversion to
`int` is not defined.  A quotient of single precision has less than 25 digits,
so its product with 1000 has a double of its own. -/
def calculateTimingParameters (distance speed : Binary32) :
    Option (Int × Int × Int) :=
  match distance.divide speed with
  | .finite quotient _ =>
      (toSigned32 ((roundHalfAway (quotient * 1000) : Int) : ℚ)).map
        fun totalMs =>
          (totalMs, totalMs.tdiv cycleDurationMs, totalMs.tmod cycleDurationMs)
  | _ => none

-- Which attempts succeed, by their number.
variable (accepted : Nat → Bool)

/-- `commonControlSend`, and the sleep that follows if it succeeds. -/
def commonControlSend (attempts : List Attempt) (offset : FlightControlOffset)
    (heldMs : Int) : Bool × List Attempt :=
  let sent := accepted attempts.length
  (sent, attempts ++ [⟨offset, sent, if sent then heldMs else 0⟩])

/-- Some cycles of a timed move, up to the first that fails. -/
def executeCycleControl (offset : FlightControlOffset) :
    Nat → List Attempt → Bool × List Attempt
  | 0, attempts => (true, attempts)
  | cycles + 1, attempts =>
      let (sent, attempts) :=
        commonControlSend accepted attempts offset cycleDurationMs
      if sent then executeCycleControl offset cycles attempts
      else (false, attempts)

/-- The result and the attempts, or nothing where the times are not defined. -/
def executeTimedControl (offset : FlightControlOffset)
    (distance speed : Binary32) : Option (Bool × List Attempt) :=
  (calculateTimingParameters distance speed).map
    fun (_, fullCycles, remainingMs) =>
      let (cycled, attempts) :=
        executeCycleControl accepted offset fullCycles.toNat []
      if cycled then
        if 0 < remainingMs then
          let (sent, attempts) :=
            commonControlSend accepted attempts offset remainingMs
          if sent then commonControlSend accepted attempts {} 0
          else (false, attempts)
        else commonControlSend accepted attempts {} 0
      else (false, attempts)

end FlytoController

/-! ## Plans -/

/-- Offsets that are to be sent one after the other, each with the time that the
thread sleeps after it. -/
abbrev Plan := List (FlightControlOffset × Int)

/-- The cycles of a timed move. -/
def cyclePlan (offset : FlightControlOffset) (totalMs : Int) : Plan :=
  List.replicate (totalMs.tdiv cycleDurationMs).toNat (offset, cycleDurationMs) ++
    if 0 < totalMs.tmod cycleDurationMs then
      [(offset, totalMs.tmod cycleDurationMs)]
    else []

/-- The messages of a timed move. -/
def timedPlan (offset : FlightControlOffset) (totalMs : Int) : Plan :=
  cyclePlan offset totalMs ++ [(({} : FlightControlOffset), 0)]

/-- Carry out a plan after some attempts, up to the first that fails. -/
def carryOut (accepted : Nat → Bool) :
    Plan → List Attempt → Bool × List Attempt
  | [], attempts => (true, attempts)
  | (offset, heldMs) :: plan, attempts =>
      let (sent, attempts) :=
        FlytoController.commonControlSend accepted attempts offset heldMs
      if sent then carryOut accepted plan attempts else (false, attempts)

/-- No attempt of some in a row fails. -/
def AllAccepted (accepted : Nat → Bool) (start count : Nat) : Prop :=
  ∀ index < count, accepted (start + index) = true

variable {accepted : Nat → Bool} {start count : Nat} {plan first second : Plan}
  {attempts : List Attempt} {offset : FlightControlOffset}
  {heldMs totalMs : Int} {distance speed : Binary32}

theorem allAccepted_zero : AllAccepted accepted start 0 :=
  fun index below => absurd below (Nat.not_lt_zero index)

/-- Some attempts are accepted when the first and the others are. -/
@[simp] theorem allAccepted_succ :
    AllAccepted accepted start (count + 1) ↔
      accepted start = true ∧ AllAccepted accepted (start + 1) count := by
  unfold AllAccepted
  constructor
  · intro all
    refine ⟨all 0 (Nat.succ_pos count), fun index below => ?_⟩
    have isAccepted := all (index + 1) (Nat.succ_lt_succ below)
    rwa [Nat.add_right_comm, Nat.add_assoc]
  · rintro ⟨first, rest⟩ index below
    cases index with
    | zero => exact first
    | succ index =>
        have isAccepted := rest index (Nat.lt_of_succ_lt_succ below)
        rwa [Nat.add_right_comm, Nat.add_assoc] at isAccepted

/-- A plan is carried out up to the first refusal. -/
@[simp] theorem carryOut_cons :
    carryOut accepted ((offset, heldMs) :: plan) attempts =
      if (FlytoController.commonControlSend accepted attempts offset heldMs).1
      then
        carryOut accepted plan
          (FlytoController.commonControlSend accepted attempts offset heldMs).2
      else
        (false,
          (FlytoController.commonControlSend accepted attempts offset
            heldMs).2) :=
  rfl

/-- A message adds an attempt. -/
theorem commonControlSend_eq :
    FlytoController.commonControlSend accepted attempts offset heldMs =
      (accepted attempts.length,
        attempts ++
          [⟨offset, accepted attempts.length,
            if accepted attempts.length then heldMs else 0⟩]) :=
  rfl

/-- After an accepted attempt the plan goes on. -/
theorem carryOut_cons_of_accepted (isAccepted : accepted attempts.length = true) :
    carryOut accepted ((offset, heldMs) :: plan) attempts =
      carryOut accepted plan (attempts ++ [⟨offset, true, heldMs⟩]) := by
  rw [carryOut_cons, commonControlSend_eq, isAccepted]
  rfl

/-- After a refused attempt the plan ends. -/
theorem carryOut_cons_of_refused (isRefused : accepted attempts.length = false) :
    carryOut accepted ((offset, heldMs) :: plan) attempts =
      (false, attempts ++ [⟨offset, false, 0⟩]) := by
  rw [carryOut_cons, commonControlSend_eq, isRefused]
  rfl

/-- Plans are carried out one after the other. -/
theorem carryOut_append :
    carryOut accepted (first ++ second) attempts =
      if (carryOut accepted first attempts).1 then
        carryOut accepted second (carryOut accepted first attempts).2
      else (false, (carryOut accepted first attempts).2) := by
  induction first generalizing attempts with
  | nil => rfl
  | cons entry first inductionHypothesis =>
      rw [List.cons_append]
      cases isAccepted : accepted attempts.length with
      | false =>
          rw [carryOut_cons_of_refused isAccepted,
            carryOut_cons_of_refused isAccepted]
          rfl
      | true =>
          rw [carryOut_cons_of_accepted isAccepted,
            carryOut_cons_of_accepted isAccepted, inductionHypothesis]

/-- A plan whose attempts are all accepted is carried out. -/
theorem carryOut_of_allAccepted
    (all : AllAccepted accepted attempts.length plan.length) :
    carryOut accepted plan attempts =
      (true, attempts ++ plan.map fun entry => ⟨entry.1, true, entry.2⟩) := by
  induction plan generalizing attempts with
  | nil => exact congrArg (Prod.mk true) (List.append_nil attempts).symm
  | cons entry plan inductionHypothesis =>
      obtain ⟨isAccepted, rest⟩ := allAccepted_succ.mp all
      rw [carryOut_cons_of_accepted isAccepted, inductionHypothesis]
      · rw [List.append_assoc]
        rfl
      · rw [List.length_append, List.length_singleton]
        exact rest

/-- A plan that fails ends with an attempt at one of its messages, and the
result is false. -/
theorem carryOut_of_not_allAccepted
    (fails : ¬AllAccepted accepted attempts.length plan.length) :
    (carryOut accepted plan attempts).1 = false ∧
      ∃ entry ∈ plan, (carryOut accepted plan attempts).2.getLast? =
        some ⟨entry.1, false, 0⟩ := by
  induction plan generalizing attempts with
  | nil => exact absurd allAccepted_zero fails
  | cons entry plan inductionHypothesis =>
      cases isAccepted : accepted attempts.length with
      | false =>
          rw [carryOut_cons_of_refused isAccepted]
          exact ⟨rfl, entry, List.mem_cons_self, List.getLast?_concat⟩
      | true =>
          rw [carryOut_cons_of_accepted isAccepted]
          have later : ¬AllAccepted accepted
              (attempts ++ [Attempt.mk entry.1 true entry.2]).length
              plan.length := by
            rw [List.length_append, List.length_singleton]
            exact fun rest => fails (allAccepted_succ.mpr ⟨isAccepted, rest⟩)
          obtain ⟨isFalse, last, isMember, isLast⟩ := inductionHypothesis later
          exact ⟨isFalse, last, List.mem_cons_of_mem _ isMember, isLast⟩

/-- Attempts that were made stay. -/
theorem prefix_carryOut : attempts <+: (carryOut accepted plan attempts).2 := by
  induction plan generalizing attempts with
  | nil => exact List.prefix_rfl
  | cons entry plan inductionHypothesis =>
      cases isAccepted : accepted attempts.length with
      | false =>
          rw [carryOut_cons_of_refused isAccepted]
          exact List.prefix_append _ _
      | true =>
          rw [carryOut_cons_of_accepted isAccepted]
          exact (List.prefix_append _ _).trans inductionHypothesis

/-- Equal cycles are carried out as a plan. -/
theorem executeCycleControl_eq (cycles : Nat) :
    FlytoController.executeCycleControl accepted offset cycles attempts =
      carryOut accepted (List.replicate cycles (offset, cycleDurationMs))
        attempts := by
  induction cycles generalizing attempts with
  | zero => rfl
  | succ cycles inductionHypothesis =>
      rw [List.replicate_succ]
      unfold FlytoController.executeCycleControl carryOut
      dsimp only
      rw [inductionHypothesis]

/-- The cycles are computed from the time. -/
theorem of_calculateTimingParameters {fullCycles remainingMs : Int}
    (timed : FlytoController.calculateTimingParameters distance speed =
      some (totalMs, fullCycles, remainingMs)) :
    fullCycles = totalMs.tdiv cycleDurationMs ∧
      remainingMs = totalMs.tmod cycleDurationMs := by
  unfold FlytoController.calculateTimingParameters at timed
  split at timed
  case h_1 quotient isNumber _ =>
    obtain ⟨total, -, isTimed⟩ := Option.map_eq_some_iff.mp timed
    obtain ⟨rfl, rfl, rfl⟩ := Prod.mk.inj isTimed |>.imp id Prod.mk.inj
    exact ⟨rfl, rfl⟩
  case h_2 => cases timed

/-- A timed move carries out its plan. -/
theorem executeTimedControl_eq {fullCycles remainingMs : Int}
    (timed : FlytoController.calculateTimingParameters distance speed =
      some (totalMs, fullCycles, remainingMs)) :
    FlytoController.executeTimedControl accepted offset distance speed =
      some (carryOut accepted (timedPlan offset totalMs) []) := by
  obtain ⟨rfl, rfl⟩ := of_calculateTimingParameters timed
  have isNeutral (attempts : List Attempt) :
      FlytoController.commonControlSend accepted attempts {} 0 =
        carryOut accepted [({}, 0)] attempts := by
    rw [carryOut_cons, commonControlSend_eq]
    cases accepted attempts.length with
    | false => rfl
    | true => rfl
  unfold FlytoController.executeTimedControl timedPlan cyclePlan
  rw [timed, Option.map_some, List.append_assoc, carryOut_append]
  dsimp only
  rw [executeCycleControl_eq]
  generalize carryOut accepted _ [] = cycled
  obtain ⟨isCycled, attempts⟩ := cycled
  cases isCycled with
  | false => rfl
  | true =>
      dsimp only
      rw [if_pos rfl, if_pos rfl]
      simp only [isNeutral]
      by_cases isRest : 0 < totalMs.tmod cycleDurationMs
      · rw [if_pos isRest, if_pos isRest, List.singleton_append]
        rfl
      · rw [if_neg isRest, if_neg isRest, List.nil_append]

/-! ## The last message -/

/-- If a message other than the neutral one was sent, the last one that was
attempted is neutral. -/
def EndsNeutral (attempts : List Attempt) : Prop :=
  (∃ attempt ∈ attempts, attempt.sent = true ∧
      ¬(StickControl.ofOffset attempt.offset).Neutral) →
    ∃ last, attempts.getLast? = some last ∧
      (StickControl.ofOffset last.offset).Neutral

/-- The plan has as many entries as there are cycles. -/
@[simp] theorem length_cyclePlan :
    (cyclePlan offset totalMs).length = timedCycles totalMs := by
  unfold cyclePlan timedCycles
  rw [List.length_append, List.length_replicate]
  dsimp only
  split_ifs with isRest
  · rfl
  · rfl

/-- Every cycle has the same offset. -/
theorem offset_of_mem_cyclePlan {entry : FlightControlOffset × Int}
    (isMember : entry ∈ cyclePlan offset totalMs) :
    entry.1 = offset := by
  obtain isCycle | isRest := List.mem_append.mp isMember
  · rw [List.eq_of_mem_replicate isCycle]
  · split_ifs at isRest
    · rw [List.mem_singleton.mp isRest]
    · exact absurd isRest List.not_mem_nil

/-- The plan is what the worker of the module executes. -/
theorem map_timedPlan :
    (timedPlan offset totalMs).map (fun entry => .commonControlSend entry.1) =
      executeTimedControl offset totalMs := by
  have isCycles : (cyclePlan offset totalMs).map
        (fun entry => Statement.commonControlSend entry.1) =
      List.replicate (timedCycles totalMs) (.commonControlSend offset) := by
    rw [← length_cyclePlan, List.eq_replicate_iff, List.length_map]
    refine ⟨rfl, fun statement isMember => ?_⟩
    obtain ⟨entry, isEntry, rfl⟩ := List.mem_map.mp isMember
    rw [offset_of_mem_cyclePlan isEntry]
  unfold timedPlan executeTimedControl
  rw [List.map_append, isCycles]
  rfl

/-- Attempts that end with a neutral one end neutrally. -/
theorem endsNeutral_of_getLast? {last : Attempt}
    (isLast : attempts.getLast? = some last) (isNeutral : last.offset = {}) :
    EndsNeutral attempts :=
  fun _ => ⟨last, isLast, StickControl.ofOffset_neutral_iff.mpr isNeutral⟩

/-- The neutral message is the last attempt when no cycle fails. -/
theorem endsNeutral_of_allAccepted
    (all : AllAccepted accepted 0 (timedCycles totalMs)) :
    EndsNeutral (carryOut accepted (timedPlan offset totalMs) []).2 := by
  rw [← @length_cyclePlan offset] at all
  unfold timedPlan
  rw [carryOut_append, carryOut_of_allAccepted all, if_pos rfl, carryOut_cons,
    commonControlSend_eq]
  cases accepted _ with
  | false => exact endsNeutral_of_getLast? List.getLast?_concat rfl
  | true => exact endsNeutral_of_getLast? List.getLast?_concat rfl

/-- A cycle that fails ends the move: with its own message, and after the first
message unless it is the first itself. -/
theorem carryOut_timedPlan_of_fails
    (fails : ¬AllAccepted accepted 0 (timedCycles totalMs)) :
    (∃ last, (carryOut accepted (timedPlan offset totalMs) []).2.getLast? =
        some last ∧ last.offset = offset) ∧
      if accepted 0 then
        ∃ attempt ∈ (carryOut accepted (timedPlan offset totalMs) []).2,
          attempt.sent = true ∧ attempt.offset = offset
      else
        (carryOut accepted (timedPlan offset totalMs) []).2 =
          [⟨offset, false, 0⟩] := by
  rw [← @length_cyclePlan offset] at fails
  obtain ⟨isFalse, entry, isEntry, isLast⟩ :=
    @carryOut_of_not_allAccepted accepted _ [] fails
  have isCycles : carryOut accepted (timedPlan offset totalMs) [] =
      (false, (carryOut accepted (cyclePlan offset totalMs) []).2) := by
    unfold timedPlan
    rw [carryOut_append, isFalse]
    rfl
  rw [isCycles]
  refine ⟨⟨_, isLast, offset_of_mem_cyclePlan isEntry⟩, ?_⟩
  cases isPlan : cyclePlan offset totalMs with
  | nil =>
      rw [isPlan] at isEntry
      exact absurd isEntry List.not_mem_nil
  | cons first rest =>
      have isOffset : first.1 = offset :=
        offset_of_mem_cyclePlan (by rw [isPlan]; exact List.mem_cons_self)
      split_ifs with isAccepted
      · have isSent : Attempt.mk first.1 true first.2 ∈
            (carryOut accepted (first :: rest) []).2 := by
          rw [carryOut_cons_of_accepted isAccepted]
          exact prefix_carryOut.subset List.mem_cons_self
        exact ⟨_, isSent, rfl, isOffset⟩
      · rw [carryOut_cons_of_refused (Bool.eq_false_iff.mpr isAccepted),
          isOffset]
        rfl

/-- A cycle that fails after one that was sent leaves the stick where it is. -/
theorem endsNeutral_carryOut_iff :
    EndsNeutral (carryOut accepted (timedPlan offset totalMs) []).2 ↔
      offset = {} ∨ accepted 0 = false ∨
        AllAccepted accepted 0 (timedCycles totalMs) := by
  by_cases all : AllAccepted accepted 0 (timedCycles totalMs)
  · exact iff_of_true (endsNeutral_of_allAccepted all) (.inr (.inr all))
  · obtain ⟨⟨last, isLast, isOffset⟩, isFirst⟩ :=
      @carryOut_timedPlan_of_fails accepted offset totalMs all
    constructor
    · intro endsNeutral
      by_contra moves
      obtain ⟨isMove, isAccepted, -⟩ := not_or.mp moves |>.imp id not_or.mp
      rw [Bool.not_eq_false] at isAccepted
      rw [if_pos isAccepted] at isFirst
      obtain ⟨attempt, isMember, isSent, isAttempt⟩ := isFirst
      obtain ⟨same, isSame, isNeutral⟩ := endsNeutral
        ⟨attempt, isMember, isSent, by
          rw [isAttempt, StickControl.ofOffset_neutral_iff]
          exact isMove⟩
      obtain rfl := Option.some.inj (isSame.symm.trans isLast)
      rw [isOffset] at isNeutral
      exact isMove (StickControl.ofOffset_neutral_iff.mp isNeutral)
    · rintro (rfl | isRefused | all')
      · exact endsNeutral_of_getLast? isLast isOffset
      · rw [isRefused, if_neg Bool.false_ne_true] at isFirst
        rw [isFirst]
        rintro ⟨attempt, isMember, isSent, -⟩
        rw [List.mem_singleton.mp isMember] at isSent
        exact absurd isSent Bool.false_ne_true
      · exact absurd all' all

/-- A timed move whose time is defined ends with the neutral message just if its
offset is none, its first message cannot be sent, or every cycle is sent. -/
theorem executeTimedControl_endsNeutral_iff {fullCycles remainingMs : Int}
    (timed : FlytoController.calculateTimingParameters distance speed =
      some (totalMs, fullCycles, remainingMs)) :
    (∃ result attempts,
      FlytoController.executeTimedControl accepted offset distance speed =
          some (result, attempts) ∧
        EndsNeutral attempts) ↔
      offset = {} ∨ accepted 0 = false ∨
        ∀ cycle < timedCycles totalMs, accepted cycle = true := by
  have isAll : (∀ cycle < timedCycles totalMs, accepted cycle = true) ↔
      AllAccepted accepted 0 (timedCycles totalMs) := by
    unfold AllAccepted
    simp only [Nat.zero_add]
  rw [executeTimedControl_eq timed, isAll, ← endsNeutral_carryOut_iff]
  constructor
  · rintro ⟨result, attempts, isResult, endsNeutral⟩
    rw [Option.some.inj isResult]
    exact endsNeutral
  · exact fun endsNeutral => ⟨_, _, rfl, endsNeutral⟩

/-- One metre at 3 m/s takes 333 ms. -/
theorem calculateTimingParameters_one :
    FlytoController.calculateTimingParameters (.ofInt 1 (by norm_num))
      (.ofInt 3 (by norm_num)) = some (333, 2, 47) := by
  decide +kernel

/-- The second message of a move over one metre cannot be sent: it is the last
one. -/
theorem not_executeTimedControl_endsNeutral :
    ¬∃ result attempts,
      FlytoController.executeTimedControl (fun attempt => attempt = 0)
          ⟨0, 0, 260, 0⟩ (.ofInt 1 (by norm_num)) (.ofInt 3 (by norm_num)) =
        some (result, attempts) ∧ EndsNeutral attempts := by
  rintro ⟨result, attempts, isResult, endsNeutral⟩
  rw [executeTimedControl_eq calculateTimingParameters_one] at isResult
  obtain rfl : (carryOut (fun attempt => attempt = 0)
      (timedPlan ⟨0, 0, 260, 0⟩ 333) []).2 = attempts :=
    congrArg Prod.snd (Option.some.inj isResult)
  obtain isNone | isRefused | all := endsNeutral_carryOut_iff.mp endsNeutral
  · exact absurd isNone (by decide)
  · exact absurd isRefused (by decide)
  · exact absurd (all 1 (by decide)) (by decide)

/-- All messages of a move over one metre can be sent. -/
theorem executeTimedControl_endsNeutral_one :
    ∃ result attempts,
      FlytoController.executeTimedControl (fun _ => true) ⟨0, 0, 260, 0⟩
          (.ofInt 1 (by norm_num)) (.ofInt 3 (by norm_num)) =
        some (result, attempts) ∧ EndsNeutral attempts :=
  (executeTimedControl_endsNeutral_iff calculateTimingParameters_one).mpr
    (.inr (.inr fun _ _ => rfl))

end Flyto
end Pilot2Cloud
