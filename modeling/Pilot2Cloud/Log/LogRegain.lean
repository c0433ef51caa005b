import Pilot2Cloud.Log.LogLaps

/-!
# The end of the log space

When the log thread outputs the last message while the writer is near the end of
the area, the reader goes back to the front, and the writer can no longer follow
it.  Otherwise a thread whose messages are all output is given space again.
-/

namespace Pilot2Cloud
namespace Log

open Foundation Words

namespace LogSpace

variable {ulMid : Nat} {space next : LogSpace}

/-- A call of `pf_log` would be given space in the area. -/
def Gives (ulMid : Nat) (space : LogSpace) : Prop :=
  ∃ offset avail, (space.getLogInfo ulMid).phase = .handed offset avail

/-- When the call of `pf_log` that is under way has ended, the next call is given
space in the area, or the one after a call with memory from the heap. -/
def Regains (ulMid : Nat) (space : LogSpace) : Prop :=
  ∃ calls idle, Run (Step ulMid) space calls idle ∧
    LogCall.getLogInfo ∉ calls ∧ idle.phase = .idle ∧
      (idle.Gives ulMid ∨
        (idle.getLogInfo ulMid).phase = .heap ∧
          Gives ulMid { idle.getLogInfo ulMid with phase := .idle })

/-- The messages fit, and the last message is not output while it ends near the
end of the area. -/
def KeepsUp (ulMid : Nat) (space : LogSpace) : LogCall → Prop
  | .read => space.unread.length = 1 →
      space.writeEnd + REMAINING_SPACE_SIZE < LOG_STACK_MAX_SIZE
  | call => space.Fits ulMid call

/-- The writer can go on when everything is output. -/
def Open (space : LogSpace) : Prop :=
  space.unread = [] →
    space.writeEnd + REMAINING_SPACE_SIZE < LOG_STACK_MAX_SIZE

@[simp]
theorem unread_getLogInfo : (space.getLogInfo ulMid).unread = space.unread := by
  unfold LogSpace.getLogInfo
  split
  · split
    · rfl
    · rfl
  · rfl

theorem KeepsUp.fits {call : LogCall} (keepsUp : space.KeepsUp ulMid call) :
    space.Fits ulMid call := by
  cases call with
  | read => trivial
  | getLogInfo => exact keepsUp
  | write header body => exact keepsUp
  | updateWriteSection => exact keepsUp

namespace Sound

/-- A sound area whose messages are all output, and where the writer can go on,
has the rest of the area for the writer. -/
theorem rest_of_open (sound : space.Sound ulMid) (isOpen : space.Open)
    (allRead : space.unread = []) :
    space.mon.ulLogReadOffset = space.writeEnd ∧
      space.mon.ulLogAvaiMaxOffset + space.mon.ulLogWriteOffset =
        LOG_STACK_MAX_SIZE := by
  have early := isOpen allRead
  have laid := sound.laid
  rw [allRead] at laid
  generalize isAll : ([] : List LogMessage) = all at laid
  cases laid with
  | sameLap contiguous readEarly bound rest =>
      subst isAll
      exact ⟨contiguous, rest⟩
  | caughtUp isFront late bound rest => omega
  | lapAhead nonempty =>
      exact absurd (List.append_eq_nil_iff.mp isAll.symm).1 nonempty

/-- Asking for space when everything is output. -/
theorem getLogInfo_eq (sound : space.Sound ulMid) (isOpen : space.Open)
    (allRead : space.unread = []) (isIdle : space.phase = .idle) :
    Log.getLogInfo space.mon =
      (some (space.mon.ulLogWriteOffset, space.mon.ulLogAvaiMaxOffset),
        space.mon) := by
  obtain ⟨isReader, rest⟩ := sound.rest_of_open isOpen allRead
  have early := isOpen allRead
  unfold writeEnd at isReader early
  rw [isIdle] at isReader early
  dsimp only at isReader early
  have isRoom : ¬space.mon.ulLogAvaiMaxOffset ≤ REMAINING_SPACE_SIZE := by
    omega
  rw [getLogInfo_sameLap (Nat.le_of_eq isReader) (by omega), if_neg isRoom]

theorem gives (sound : space.Sound ulMid) (isOpen : space.Open)
    (allRead : space.unread = []) (isIdle : space.phase = .idle)
    (isTask : ulMid < MODULE_TASK_MAX) :
    space.Gives ulMid := by
  unfold Gives LogSpace.getLogInfo
  rw [if_pos isTask, sound.getLogInfo_eq isOpen allRead isIdle]
  exact ⟨_, _, rfl⟩

end Sound

namespace Open

theorem start {memory : FlatMemory} : (LogSpace.start memory).Open :=
  fun _ => (by decide : 0 + REMAINING_SPACE_SIZE < LOG_STACK_MAX_SIZE)

/-- Asking for space does not move the writer when everything is output. -/
theorem getLogInfo (isOpen : space.Open) (sound : space.Sound ulMid)
    (isIdle : space.phase = .idle) :
    (space.getLogInfo ulMid).Open := by
  have same : (space.getLogInfo ulMid).unread = space.unread := unread_getLogInfo
  intro allRead
  rw [same] at allRead
  have early := isOpen allRead
  unfold writeEnd at early
  rw [isIdle] at early
  unfold LogSpace.getLogInfo
  rw [sound.getLogInfo_eq isOpen allRead isIdle]
  split
  · exact early
  · exact early

theorem step {call : LogCall} (isOpen : space.Open)
    (sound : space.Sound ulMid) (keepsUp : space.KeepsUp ulMid call)
    (first : Step ulMid space call next) :
    next.Open := by
  cases first with
  | getLogInfo isIdle => exact isOpen.getLogInfo sound isIdle
  | write isHanded =>
      intro allRead
      exact absurd allRead (List.append_ne_nil_of_right_ne_nil _
        (List.cons_ne_nil _ _))
  | writeHeap isHeap =>
      unfold Open writeEnd at *
      rw [isHeap] at isOpen
      exact isOpen
  | updateWriteSection isWritten =>
      have bound := sound.laid.bound sound.early
      unfold Open writeEnd at *
      rw [isWritten] at isOpen bound
      dsimp only at isOpen bound
      rw [← updateWriteSection_writeOffset bound] at isOpen
      exact isOpen
  | @read message rest isOldest =>
      intro allRead
      have isLast : space.unread.length = 1 := by
        rw [isOldest, show rest = [] from allRead]
        rfl
      rw [writeEnd_read]
      exact keepsUp isLast

end Open

/-- The writer has space left, or the reader has left space at the front. -/
theorem gives_or_falls_back (isTask : ulMid < MODULE_TASK_MAX)
    (behind : space.mon.ulLogReadOffset ≤ space.mon.ulLogWriteOffset)
    (early : space.mon.ulLogReadOffset + REMAINING_SPACE_SIZE <
      LOG_STACK_MAX_SIZE)
    (rest : space.mon.ulLogAvaiMaxOffset + space.mon.ulLogWriteOffset =
      LOG_STACK_MAX_SIZE)
    (room : space.mon.ulLogWriteOffset + REMAINING_SPACE_SIZE <
        LOG_STACK_MAX_SIZE ∨
      REMAINING_SPACE_SIZE + 2 < space.mon.ulLogReadOffset) :
    space.Gives ulMid ∨
      (space.getLogInfo ulMid).phase = .heap ∧
        Gives ulMid { space.getLogInfo ulMid with phase := .idle } := by
  unfold Gives LogSpace.getLogInfo
  rw [if_pos isTask, if_pos isTask, getLogInfo_sameLap behind (by omega)]
  split_ifs with isShort isLate
  · right
    refine ⟨rfl, ?_⟩
    dsimp only
    rw [@getLogInfo_lapAhead ⟨space.mon.ulLogReadOffset, 0,
      space.mon.ulLogReadOffset⟩ (by dsimp only; omega) early]
    dsimp only
    rw [if_neg (by omega)]
    exact ⟨_, _, rfl⟩
  · omega
  · exact .inl ⟨_, _, rfl⟩

/-- A call that has space in the area ends with a short message. -/
theorem Sound.regains_of_handed (sound : space.Sound ulMid)
    (isOpen : space.Open) (allRead : space.unread = [])
    (isTask : ulMid < MODULE_TASK_MAX) (notZero : ulMid ≠ 0)
    {offset avail : Nat} (isHanded : space.phase = .handed offset avail) :
    space.Regains ulMid := by
  obtain ⟨isReader, rest⟩ := sound.rest_of_open isOpen allRead
  have isEarly := isOpen allRead
  unfold writeEnd at isReader isEarly
  rw [isHanded] at isReader isEarly
  dsimp only at isReader isEarly
  obtain ⟨granted, isNamed, isTag, isMid⟩ := sound.handed _ _ isHanded
  have roomy := granted.roomy
  have inside := granted.inside
  have isWriter := granted.isWriter
  have byteNotZero : UInt8.ofNat ulMid ≠ 0 := by
    intro isZero
    rw [isZero] at isNamed
    exact notZero isNamed.symm
  have fits : ([] : List UInt8).length + 6 ≤ avail := by
    unfold REMAINING_SPACE_SIZE at roomy
    exact Nat.le_trans (by decide) (Nat.le_of_lt roomy)
  have written := @pfLogText_isLogBytes space.memory offset avail [] []
    (UInt8.ofNat ulMid) isTag isMid byteNotZero fits (by omega)
  generalize isResult : pfLogText space.memory offset avail [] [] = result
    at written
  obtain ⟨totaloffset, memory⟩ := result
  dsimp only [List.length_nil] at written
  obtain ⟨-, short, -⟩ := written
  have isWritten : (space.write offset avail [] []).phase =
      .written totaloffset := by
    unfold LogSpace.write
    rw [isResult]
  have sameMon : (space.write offset avail [] []).mon = space.mon := rfl
  refine ⟨[.write [] [], .updateWriteSection], _,
    .cons (.write isHanded) (.cons (.updateWriteSection isWritten) (.nil _)),
    by simp, rfl, ?_⟩
  have isNear : totaloffset + 2 * REMAINING_SPACE_SIZE + 2 <
      LOG_STACK_MAX_SIZE := by
    unfold LOG_STACK_MAX_SIZE REMAINING_SPACE_SIZE
    omega
  have isEnd := @updateWriteSection_writeOffset space.mon totaloffset
    (by omega)
  have isAvai := @updateWriteSection_avai space.mon totaloffset (by omega)
    (by omega)
  have sameReader := @updateWriteSection_readOffset space.mon totaloffset
  rw [sameMon]
  generalize updateWriteSection space.mon totaloffset = after at *
  apply gives_or_falls_back isTask
  · dsimp only
    omega
  · dsimp only
    omega
  · dsimp only
    omega
  · dsimp only
    omega

/-- A thread whose messages are all output is given space again. -/
theorem Sound.regains (sound : space.Sound ulMid) (isOpen : space.Open)
    (allRead : space.unread = []) (isTask : ulMid < MODULE_TASK_MAX)
    (notZero : ulMid ≠ 0) :
    space.Regains ulMid := by
  have ends {call : LogCall} {idle : LogSpace}
      (first : Step ulMid space call idle)
      (keepsUp : space.KeepsUp ulMid call) (other : call ≠ .getLogInfo)
      (isIdle : idle.phase = .idle) (same : idle.unread = space.unread) :
      space.Regains ulMid := by
    refine ⟨[call], idle, .cons first (.nil _), ?_, isIdle, .inl ?_⟩
    · intro isMember
      exact other (List.mem_singleton.mp isMember).symm
    · exact (sound.step keepsUp.fits first).gives
        (isOpen.step sound keepsUp first) (same.trans allRead) isIdle isTask
  cases isPhase : space.phase with
  | idle =>
      exact ⟨[], space, .nil _, List.not_mem_nil, isPhase,
        .inl (sound.gives isOpen allRead isPhase isTask)⟩
  | handed offset avail =>
      exact sound.regains_of_handed isOpen allRead isTask notZero isPhase
  | heap =>
      refine @ends (.write [] []) _ (.writeHeap isPhase) ?_ nofun rfl rfl
      intro offset avail isHanded
      rw [isPhase] at isHanded
      cases isHanded
  | written totaloffset =>
      exact @ends .updateWriteSection _ (.updateWriteSection isPhase) trivial
        nofun rfl rfl

/-- In every run that keeps up, of a module that is not 0, a thread whose
messages are all output is given space in its area again. -/
theorem regains_of_keepsUp (isTask : ulMid < MODULE_TASK_MAX)
    (notZero : ulMid ≠ 0) {memory : FlatMemory} {calls : List LogCall}
    (along : Along (Step ulMid) (KeepsUp ulMid) (start memory) calls)
    (reached : Reached (Step ulMid) (start memory) calls space)
    (allRead : space.unread = []) :
    space.Regains ulMid := by
  have both : space.Sound ulMid ∧ space.Open := by
    refine along.of_reached (fun space => space.Sound ulMid ∧ space.Open) ?_
      ⟨.start, .start⟩ reached
    intro space call next here keepsUp first
    exact ⟨here.1.step keepsUp.fits first, here.2.step here.1 keepsUp first⟩
  exact both.1.regains both.2 allRead isTask notZero

/-- A message of two characters that is output leaves room for another. -/
theorem regains_of_keepsUp_first :
    ∃ space, Run (Step 1) (start fun _ => 0)
        [.getLogInfo, .write [65] [66], .updateWriteSection, .read] space ∧
      space.Regains 1 := by
  refine ⟨_, .cons (.getLogInfo rfl) (.cons (.write rfl) (.cons
    (.updateWriteSection rfl) (.cons (.read rfl) (.nil _)))), ?_⟩
  apply @regains_of_keepsUp 1 _ (by decide) (by decide) (fun _ => 0)
    [.getLogInfo, .write [65] [66], .updateWriteSection, .read]
  · refine ⟨trivial, fun next first => ?_⟩
    cases first
    refine ⟨?_, fun next second => ?_⟩
    · intro offset avail isHanded
      cases isHanded
      decide
    · cases second with
      | writeHeap isHeap => cases isHeap
      | write isHanded =>
          cases isHanded
          refine ⟨trivial, fun next third => ?_⟩
          cases third with
          | updateWriteSection isWritten =>
              cases isWritten
              refine ⟨fun _ => ?_, fun _ _ => trivial⟩
              decide +kernel
  · exact ⟨_, [], rfl, .cons (.getLogInfo rfl) (.cons (.write rfl) (.cons
      (.updateWriteSection rfl) (.cons (.read rfl) (.nil _))))⟩
  · rfl

/-! ## A reader that catches up near the end -/

/-- The reader is at the front, and the writer at the end. -/
structure Stuck (space : LogSpace) : Prop where
  allRead : space.unread = []
  isFront : space.mon.ulLogReadOffset = 0
  late : LOG_STACK_MAX_SIZE ≤
    space.mon.ulLogWriteOffset + REMAINING_SPACE_SIZE
  rest : space.mon.ulLogAvaiMaxOffset + space.mon.ulLogWriteOffset =
    LOG_STACK_MAX_SIZE
  waits : space.phase = .idle ∨ space.phase = .heap

namespace Stuck

/-- A log that is stuck gives the heap whatever is asked. -/
theorem getLogInfo_eq (stuck : space.Stuck) :
    (space.getLogInfo ulMid) = { space with phase := .heap } := by
  have rest := stuck.rest
  have late := stuck.late
  have isFront := stuck.isFront
  have isShort : space.mon.ulLogAvaiMaxOffset ≤ REMAINING_SPACE_SIZE := by
    omega
  have noSpace : Log.getLogInfo space.mon = (none, space.mon) := by
    rw [getLogInfo_sameLap (by omega) (by omega), if_pos isShort,
      if_neg (by omega)]
  unfold LogSpace.getLogInfo
  rw [noSpace]
  split
  · rfl
  · rfl

/-- A log that is stuck stays stuck. -/
theorem step {call : LogCall} (stuck : space.Stuck)
    (first : Step ulMid space call next) :
    next.Stuck := by
  cases first with
  | getLogInfo isIdle =>
      rw [stuck.getLogInfo_eq]
      exact ⟨stuck.allRead, stuck.isFront, stuck.late, stuck.rest, .inr rfl⟩
  | writeHeap isHeap =>
      exact ⟨stuck.allRead, stuck.isFront, stuck.late, stuck.rest, .inl rfl⟩
  | write isHanded =>
      have waits := stuck.waits
      rw [isHanded] at waits
      obtain isOther | isOther := waits
      · cases isOther
      · cases isOther
  | updateWriteSection isWritten =>
      have waits := stuck.waits
      rw [isWritten] at waits
      obtain isOther | isOther := waits
      · cases isOther
      · cases isOther
  | read isOldest =>
      rw [stuck.allRead] at isOldest
      cases isOldest

/-- No later call is given space in the area. -/
theorem not_gives {calls : List LogCall} (stuck : space.Stuck)
    (run : Run (Step ulMid) space calls next) :
    ¬next.Gives ulMid := by
  have later : next.Stuck :=
    run.preserves (fun _ _ _ stuck first => stuck.step first) stuck
  rintro ⟨offset, avail, isHanded⟩
  rw [later.getLogInfo_eq] at isHanded
  cases isHanded

/-- A log that is stuck never gives space again. -/
theorem not_regains (stuck : space.Stuck) : ¬space.Regains ulMid := by
  rintro ⟨calls, idle, run, -, isIdle, gives | ⟨isHeap, gives⟩⟩
  · exact stuck.not_gives run gives
  · have again : Run (Step ulMid) space
        (calls ++ [.getLogInfo] ++ [.write [] []])
        { idle.getLogInfo ulMid with phase := .idle } :=
      (run.concat (.getLogInfo isIdle)).concat (.writeHeap isHeap)
    exact stuck.not_gives again gives

end Stuck

/-- A message that is written and output before the next one. -/
def round (header body : List UInt8) : List LogCall :=
  [.getLogInfo, .write header body, .updateWriteSection, .read]

/-- The writer has moved on after a message. -/
theorem Sound.exists_round (sound : space.Sound ulMid) (isOpen : space.Open)
    (allRead : space.unread = []) (isIdle : space.phase = .idle)
    (isTask : ulMid < MODULE_TASK_MAX) (notZero : ulMid ≠ 0)
    {header : List UInt8} (fits : header.length + 6 ≤ REMAINING_SPACE_SIZE)
    (body : List UInt8) :
    ∃ next, Run (Step ulMid) space (round header body) next ∧
      next.Sound ulMid ∧ next.unread = [] ∧ next.phase = .idle ∧
        space.mon.ulLogWriteOffset < next.mon.ulLogWriteOffset := by
  obtain ⟨offset, avail, isHanded⟩ := sound.gives isOpen allRead isIdle isTask
  have handedSound := sound.getLogInfo isIdle
  have sameWriter : (space.getLogInfo ulMid).mon.ulLogWriteOffset =
      space.mon.ulLogWriteOffset := by
    unfold LogSpace.getLogInfo
    rw [if_pos isTask, sound.getLogInfo_eq isOpen allRead isIdle]
  have noUnread : (space.getLogInfo ulMid).unread = [] :=
    unread_getLogInfo.trans allRead
  have asks := @Step.getLogInfo ulMid space isIdle
  generalize space.getLogInfo ulMid = handed at *
  have roomy := (handedSound.handed _ _ isHanded).granted.roomy
  have writtenSound :=
    @handedSound.write _ _ _ _ header body isHanded notZero (by omega)
  generalize isText : pfLogText handed.memory offset avail header body = text
  obtain ⟨totaloffset, memory⟩ := text
  have isWritten : handed.write offset avail header body = { handed with
      memory
      phase := .written totaloffset
      unread := [⟨offset, bytesAt memory offset totaloffset⟩] } := by
    unfold LogSpace.write
    rw [isText, noUnread]
    rfl
  have writes := @Step.write ulMid handed offset avail header body isHanded
  rw [isWritten] at writtenSound writes
  generalize isMessage : LogMessage.mk offset
    (bytesAt memory offset totaloffset) = message at *
  have positive : 0 < totaloffset := by
    obtain ⟨text, -, isBytes⟩ :=
      (writtenSound.proper message List.mem_cons_self).whole
    have isLength := congrArg List.length isBytes
    rw [← isMessage, List.length_append, length_bytesAt] at isLength
    dsimp only [List.length_cons] at isLength
    omega
  have bound := writtenSound.laid.bound writtenSound.early
  unfold writeEnd at bound
  dsimp only at bound
  have stores := @Step.updateWriteSection ulMid { handed with
    memory
    phase := .written totaloffset
    unread := [message] } totaloffset rfl
  have storedSound := @Sound.step ulMid _ _ .updateWriteSection writtenSound
    trivial stores
  refine ⟨_, .cons asks (.cons writes (.cons stores
    (.cons (.read rfl) (.nil _)))), storedSound.read rfl, rfl, rfl, ?_⟩
  rw [writeOffset_read]
  dsimp only
  rw [updateWriteSection_writeOffset bound, ← sameWriter]
  exact Nat.lt_add_of_pos_right positive

/-- A log with everything read that is not open is stuck. -/
theorem Sound.stuck_of_not_open (sound : space.Sound ulMid)
    (allRead : space.unread = []) (isIdle : space.phase = .idle)
    (isClosed : ¬space.Open) :
    space.Stuck := by
  have late : LOG_STACK_MAX_SIZE ≤
      space.mon.ulLogWriteOffset + REMAINING_SPACE_SIZE := by
    unfold Open writeEnd at isClosed
    rw [isIdle] at isClosed
    exact Nat.not_lt.mp fun early => isClosed fun _ => early
  have laid := sound.laid_of_idle isIdle
  rw [allRead] at laid
  generalize isAll : ([] : List LogMessage) = all at laid
  cases laid with
  | sameLap contiguous readEarly bound rest =>
      subst isAll
      have same : space.mon.ulLogReadOffset = space.mon.ulLogWriteOffset :=
        contiguous
      omega
  | caughtUp isFront late bound rest =>
      exact ⟨allRead, isFront, late, rest, .inl isIdle⟩
  | lapAhead nonempty =>
      exact absurd (List.append_eq_nil_iff.mp isAll.symm).1 nonempty

/-- However short its messages are, a module whose messages are each output
before the next one comes to the end of its area. -/
theorem exists_stuck (isTask : ulMid < MODULE_TASK_MAX) (notZero : ulMid ≠ 0)
    {header : List UInt8} (fits : header.length + 6 ≤ REMAINING_SPACE_SIZE)
    (body : List UInt8) (memory : FlatMemory) :
    ∃ calls space, Run (Step ulMid) (start memory) calls space ∧
      space.Stuck := by
  have comes (left : Nat) (space : LogSpace) (sound : space.Sound ulMid)
      (isOpen : space.Open) (allRead : space.unread = [])
      (isIdle : space.phase = .idle)
      (bound : LOG_STACK_MAX_SIZE - space.mon.ulLogWriteOffset ≤ left) :
      ∃ calls final, Run (Step ulMid) space calls final ∧ final.Stuck := by
    induction left generalizing space with
    | zero =>
        have early := isOpen allRead
        have isBehind := @writeOffset_le space
        omega
    | succ left inductionHypothesis =>
        obtain ⟨next, run, nextSound, nextRead, nextIdle, farther⟩ :=
          sound.exists_round isOpen allRead isIdle isTask notZero fits body
        by_cases nextOpen : next.Open
        · obtain ⟨calls, final, rest, stuck⟩ := inductionHypothesis next
            nextSound nextOpen nextRead nextIdle (by omega)
          exact ⟨_, final, Run.append_iff.mpr ⟨next, run, rest⟩, stuck⟩
        · exact ⟨_, next, run,
            nextSound.stuck_of_not_open nextRead nextIdle nextOpen⟩
  exact comes _ _ .start .start rfl rfl (Nat.le_refl _)

theorem exists_not_regains :
    ∃ calls space, Run (Step 1) (start fun _ => 0) calls space ∧
      space.unread = [] ∧ ¬space.Regains 1 := by
  obtain ⟨calls, space, run, stuck⟩ := @exists_stuck 1 (by decide) (by decide)
    [65] (by decide) [66] (fun _ => 0)
  exact ⟨calls, space, run, stuck.allRead, stuck.not_regains⟩

end LogSpace
end Log
end Pilot2Cloud
