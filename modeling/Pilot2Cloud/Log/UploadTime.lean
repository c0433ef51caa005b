import Mathlib.Algebra.Order.Group.Nat
import Mathlib.Order.Bounds.Basic
import Pilot2Cloud.Foundation.Transitions

/-!
# The times at which logs are uploaded

A configuration gives the time of a first upload and a cycle.  The log thread
computes the next upload from it, compares it with the clock from time to time,
and adds the cycle after each upload.
-/

namespace Pilot2Cloud
namespace Log

open Foundation

/-- The members of `struct tm` that are set for `mktime`. -/
structure StartTm where
  year : UInt32
  mon : UInt32
  mday : UInt32
  hour : UInt32
  min : UInt32
  sec : UInt32
  isdst : UInt32

/-- `stLogUploadPara`, with the date and the time as numbers. -/
structure LogUploadPara where
  strTartDate : UInt32
  strTime : UInt32
  ulDevUploadOffset : UInt32
  ulTimeCycle : UInt32

namespace LogUploadPara

/-- The start of the uploads as `mktime` gets it. -/
def startTm (para : LogUploadPara) : StartTm where
  year := para.strTartDate / 10000 - 1900
  mon := para.strTartDate / 100 % 100 - 1
  mday := para.strTartDate % 100
  hour := para.strTime / 10000
  min := para.strTime / 100 % 100
  sec := para.strTime % 100
  isdst := 0

/-- `log_upload_time` at a time of the clock. -/
def logUploadTime (mktime : StartTm → UInt32) (para : LogUploadPara)
    (ctime : UInt32) : UInt32 :=
  let ulIntTime := para.ulDevUploadOffset
  let ulTimeCycle := para.ulTimeCycle
  if ulTimeCycle ≠ 0 then
    let ttime := mktime para.startTm
    if ctime ≤ ttime + ulIntTime then
      let tmp := (ttime + ulIntTime - ctime) / ulTimeCycle
      ttime + ulIntTime + tmp * ulTimeCycle
    else
      let tmp := (ctime - ttime - ulIntTime) / ulTimeCycle
      ttime + ulIntTime + (tmp + 1) * ulTimeCycle
  else ctime

/-- The start date with the offset of the device. -/
def start (mktime : StartTm → UInt32) (para : LogUploadPara) : Nat :=
  (mktime para.startTm).toNat + para.ulDevUploadOffset.toNat

/-- The seconds between two uploads. -/
def cycle (para : LogUploadPara) : Nat :=
  para.ulTimeCycle.toNat

/-- The times at which uploads are due. -/
def slots (mktime : StartTm → UInt32) (para : LogUploadPara) : Set Nat :=
  {slot | ∃ k, slot = para.start mktime + k * para.cycle}

/-- The first upload that is due at a time or after it. -/
def IsNext (mktime : StartTm → UInt32) (para : LogUploadPara) (now : UInt32)
    (slot : Nat) : Prop :=
  IsLeast {slot ∈ para.slots mktime | now.toNat ≤ slot} slot

/-- The start is less than a cycle away in the future, or the time is between
two uploads that are due.  The next one fits in 32 bits. -/
def Hits (mktime : StartTm → UInt32) (para : LogUploadPara) (now : UInt32) :
    Prop :=
  para.start mktime < 2 ^ 32 ∧
    ((now.toNat ≤ para.start mktime ∧
        para.start mktime - now.toNat < para.cycle) ∨
      (para.start mktime < now.toNat ∧
        ¬para.cycle ∣ now.toNat - para.start mktime ∧
        para.start mktime +
          ((now.toNat - para.start mktime) / para.cycle + 1) * para.cycle <
            2 ^ 32))

end LogUploadPara

/-! ## The scheduler of the log thread -/

/-- The next upload, 0 for none, and the uploads that were made: the time that
was due for each, and the clock. -/
structure Uploader where
  ulTimer : UInt32
  uploads : List (UInt32 × UInt32)

namespace Uploader

/-- `OAM_PLATFORM_LOG_PARA_CFG_CMD`. -/
def configure (mktime : StartTm → UInt32) (para : LogUploadPara)
    (now : UInt32) : Uploader :=
  ⟨para.logUploadTime mktime now, []⟩

/-- The clock is compared with the next upload. -/
def check (ulTimeCycle : UInt32) (uploader : Uploader) (ctime : UInt32) :
    Uploader :=
  if uploader.ulTimer ≠ 0 then
    if uploader.ulTimer ≤ ctime then {
      ulTimer :=
        if ulTimeCycle ≠ 0 then uploader.ulTimer + ulTimeCycle else 0
      uploads := uploader.uploads ++ [(uploader.ulTimer, ctime)] }
    else uploader
  else uploader

/-- One check of the time. -/
def Step (ulTimeCycle : UInt32) (uploader : Uploader) (ctime : UInt32)
    (after : Uploader) : Prop :=
  uploader.check ulTimeCycle ctime = after

/-- The uploads that were made are the first ones that are due from the
configuration on, each at most once and none too early, and the next one is the
one after them. -/
structure OnTime (mktime : StartTm → UInt32) (para : LogUploadPara)
    (now : UInt32) (uploader : Uploader) : Prop where
  slots : ∃ first, para.IsNext mktime now first ∧
    uploader.uploads.map (fun upload => upload.1.toNat) =
      (List.range uploader.uploads.length).map
        (fun count => first + count * para.cycle) ∧
    uploader.ulTimer.toNat =
      first + uploader.uploads.length * para.cycle
  punctual : ∀ upload ∈ uploader.uploads, upload.1 ≤ upload.2
  active : uploader.ulTimer ≠ 0

/-- The upload after one that is made fits in 32 bits. -/
def NoOverflow (ulTimeCycle : UInt32) (uploader : Uploader)
    (ctime : UInt32) : Prop :=
  uploader.ulTimer ≤ ctime →
    uploader.ulTimer.toNat + ulTimeCycle.toNat < 2 ^ 32

end Uploader

/-! ## The next upload that is due -/

namespace LogUploadPara

variable {mktime : StartTm → UInt32} {para : LogUploadPara} {now : UInt32}
  {slot other : Nat}

/-- The next upload time is unique. -/
theorem IsNext.eq_iff (isNext : para.IsNext mktime now slot) :
    para.IsNext mktime now other ↔ other = slot := by
  constructor
  · intro isOther
    exact isOther.unique isNext
  · rintro rfl
    exact isNext

/-- The start is the next upload until it has passed. -/
theorem isNext_start (future : now.toNat ≤ para.start mktime) :
    para.IsNext mktime now (para.start mktime) := by
  refine ⟨⟨⟨0, by omega⟩, future⟩, ?_⟩
  rintro slot ⟨⟨count, rfl⟩, -⟩
  exact Nat.le_add_right _ _

/-- A time at which an upload is due is the next one. -/
theorem isNext_now {count : Nat}
    (isSlot : now.toNat = para.start mktime + count * para.cycle) :
    para.IsNext mktime now now.toNat := by
  refine ⟨⟨⟨count, isSlot⟩, Nat.le_refl _⟩, ?_⟩
  intro slot member
  exact member.2

/-- Between two uploads the later one is next. -/
theorem isNext_succ {count : Nat}
    (later : para.start mktime + count * para.cycle < now.toNat)
    (earlier : now.toNat ≤ para.start mktime + (count + 1) * para.cycle) :
    para.IsNext mktime now
      (para.start mktime + (count + 1) * para.cycle) := by
  refine ⟨⟨⟨count + 1, rfl⟩, earlier⟩, ?_⟩
  rintro slot ⟨⟨other, rfl⟩, bound⟩
  apply Nat.add_le_add_left
  apply Nat.mul_le_mul_right
  by_contra small
  have fewer : other * para.cycle ≤ count * para.cycle :=
    Nat.mul_le_mul_right _ (by omega)
  omega

/-! ## What is computed -/

/-- The sum of the date and the offset in 32 bits. -/
theorem toNat_start_word :
    (mktime para.startTm + para.ulDevUploadOffset).toNat =
      para.start mktime % 2 ^ 32 :=
  UInt32.toNat_add _ _

section

variable (positive : para.ulTimeCycle ≠ 0)
include positive

/-- The cycle of an upload is positive. -/
theorem cycle_pos : 0 < para.cycle := by
  apply Nat.pos_of_ne_zero
  intro isZero
  exact positive (UInt32.toNat_inj.mp isZero)

theorem toNat_logUploadTime_of_le
    (future : now.toNat ≤ para.start mktime % 2 ^ 32) :
    (para.logUploadTime mktime now).toNat =
      (para.start mktime % 2 ^ 32 +
        (para.start mktime % 2 ^ 32 - now.toNat) / para.cycle *
          para.cycle) % 2 ^ 32 := by
  have isLe : now ≤ mktime para.startTm + para.ulDevUploadOffset := by
    rw [UInt32.le_iff_toNat_le, toNat_start_word]
    exact future
  unfold logUploadTime
  simp only [if_pos positive, if_pos isLe]
  rw [UInt32.toNat_add, UInt32.toNat_mul, UInt32.toNat_div,
    UInt32.toNat_sub_of_le _ _ isLe, toNat_start_word, cycle,
    Nat.add_mod_mod]

theorem toNat_logUploadTime_of_lt
    (past : para.start mktime % 2 ^ 32 < now.toNat) :
    (para.logUploadTime mktime now).toNat =
      (para.start mktime % 2 ^ 32 +
        ((now.toNat - para.start mktime % 2 ^ 32) / para.cycle + 1) *
          para.cycle) % 2 ^ 32 := by
  have isNotLe : ¬now ≤ mktime para.startTm + para.ulDevUploadOffset := by
    rw [UInt32.le_iff_toNat_le, toNat_start_word]
    exact Nat.not_le.mpr past
  have isLe : mktime para.startTm + para.ulDevUploadOffset ≤ now := by
    rw [UInt32.le_iff_toNat_le, toNat_start_word]
    exact past.le
  have isDifference : now - mktime para.startTm - para.ulDevUploadOffset =
      now - (mktime para.startTm + para.ulDevUploadOffset) := by
    have dateBound := (mktime para.startTm).toNat_lt
    have offsetBound := para.ulDevUploadOffset.toNat_lt
    apply UInt32.toNat_inj.mp
    simp only [UInt32.toNat_sub, UInt32.toNat_add]
    omega
  have isQuotient :
      ((now - (mktime para.startTm + para.ulDevUploadOffset)) /
          para.ulTimeCycle).toNat =
        (now.toNat - para.start mktime % 2 ^ 32) / para.cycle := by
    rw [UInt32.toNat_div, UInt32.toNat_sub_of_le _ _ isLe, toNat_start_word]
    rfl
  unfold logUploadTime
  simp only [if_pos positive, if_neg isNotLe]
  rw [isDifference, UInt32.toNat_add, toNat_start_word, UInt32.toNat_mul,
    UInt32.toNat_add, isQuotient, Nat.mod_mul_mod, Nat.add_mod_mod]
  rfl

/-- The next upload is computed exactly when the configuration hits it. -/
theorem hits_iff :
    para.Hits mktime now ↔
      para.IsNext mktime now (para.logUploadTime mktime now).toNat := by
  have cyclePos := cycle_pos positive
  have cycleBound : para.cycle < 2 ^ 32 := para.ulTimeCycle.toNat_lt
  have nowBound := now.toNat_lt
  have resultBound := (para.logUploadTime mktime now).toNat_lt
  unfold Hits
  by_cases fits : para.start mktime < 2 ^ 32
  swap
  · -- every upload is later than a word can say
    constructor
    · intro hits
      exact absurd hits.1 fits
    · intro isNext
      obtain ⟨⟨count, isSlot⟩, -⟩ := isNext.1
      omega
  have isStart : para.start mktime % 2 ^ 32 = para.start mktime :=
    Nat.mod_eq_of_lt fits
  obtain future | past := le_or_gt now.toNat (para.start mktime)
  · have isTime := toNat_logUploadTime_of_le positive (by rwa [isStart])
    rw [isStart] at isTime
    have whole := Nat.div_mul_le_self (para.start mktime - now.toNat)
      para.cycle
    rw [(isNext_start future).eq_iff, isTime]
    by_cases near : para.start mktime - now.toNat < para.cycle
    · rw [Nat.div_eq_of_lt near, Nat.zero_mul,
        Nat.add_zero (start mktime para), isStart]
      exact ⟨fun _ => rfl, fun _ => ⟨fits, .inl ⟨future, near⟩⟩⟩
    · have atLeastOne : para.cycle ≤
          (para.start mktime - now.toNat) / para.cycle * para.cycle :=
        Nat.le_mul_of_pos_left _
          (Nat.div_pos (Nat.not_lt.mp near) cyclePos)
      constructor
      · rintro ⟨-, ⟨-, isNear⟩ | ⟨isPast, -⟩⟩
        · exact absurd isNear near
        · omega
      · intro same
        omega
  · have isTime := toNat_logUploadTime_of_lt positive (by rwa [isStart])
    rw [isStart] at isTime
    have split := Nat.div_add_mod' (now.toNat - para.start mktime)
      para.cycle
    have small := Nat.mod_lt (now.toNat - para.start mktime) cyclePos
    rw [Nat.add_mul, Nat.one_mul] at isTime ⊢
    by_cases divides : para.cycle ∣ now.toNat - para.start mktime
    · have noRest := Nat.mod_eq_zero_of_dvd divides
      have isNext : para.IsNext mktime now now.toNat :=
        @isNext_now mktime para now
          ((now.toNat - para.start mktime) / para.cycle) (by omega)
      rw [isNext.eq_iff, isTime]
      constructor
      · rintro ⟨-, ⟨isFuture, -⟩ | ⟨-, isBetween, -⟩⟩
        · omega
        · exact absurd divides isBetween
      · intro same
        omega
    · have someRest : 0 <
          (now.toNat - para.start mktime) % para.cycle :=
        Nat.pos_of_ne_zero (mt Nat.dvd_of_mod_eq_zero divides)
      have isNext := @isNext_succ mktime para now
        ((now.toNat - para.start mktime) / para.cycle) (by omega) (by
          rw [Nat.add_mul, Nat.one_mul]
          omega)
      rw [Nat.add_mul, Nat.one_mul] at isNext
      rw [isNext.eq_iff, isTime]
      constructor
      · rintro ⟨-, ⟨isFuture, -⟩ | ⟨-, -, isSmall⟩⟩
        · omega
        · exact Nat.mod_eq_of_lt isSmall
      · intro same
        exact ⟨fits, .inr ⟨past, divides, by omega⟩⟩

end

/-- The next upload is at time 0 only when both the start and the time are. -/
theorem IsNext.ne_zero_iff (isNext : para.IsNext mktime now slot) :
    slot ≠ 0 ↔ para.start mktime ≠ 0 ∨ now ≠ 0 := by
  obtain ⟨⟨count, isSlot⟩, reached⟩ := isNext.1
  constructor
  · intro isLater
    by_contra bothZero
    obtain ⟨startZero, nowZero⟩ := not_or.mp bothZero
    apply isLater
    rw [isNext.unique (isNext_start (by
      rw [not_not.mp nowZero]
      exact Nat.zero_le _))]
    exact not_not.mp startZero
  · rintro (startPos | nowPos) isZero
    · omega
    · apply nowPos
      apply UInt32.toNat_inj.mp
      exact Nat.le_zero.mp (isZero ▸ reached)

end LogUploadPara

/-! ## The uploads that are made -/

namespace Uploader

variable {mktime : StartTm → UInt32} {para : LogUploadPara} {now : UInt32}
  {uploader : Uploader} {ctime : UInt32}

/-- Before the time of the timer nothing happens. -/
theorem check_of_lt (early : ctime < uploader.ulTimer) :
    uploader.check para.ulTimeCycle ctime = uploader := by
  unfold check
  rw [if_neg (UInt32.not_le.mpr early), ite_self]

/-- At the time of the timer the log is uploaded and the timer is set again. -/
theorem check_of_le (positive : para.ulTimeCycle ≠ 0)
    (active : uploader.ulTimer ≠ 0) (due : uploader.ulTimer ≤ ctime) :
    uploader.check para.ulTimeCycle ctime =
      ⟨uploader.ulTimer + para.ulTimeCycle,
        uploader.uploads ++ [(uploader.ulTimer, ctime)]⟩ := by
  unfold check
  rw [if_pos active, if_pos due, if_pos positive]

/-- The configuration is on time when its upload is the next one. -/
theorem configure_onTime_iff :
    (configure mktime para now).OnTime mktime para now ↔
      para.IsNext mktime now (para.logUploadTime mktime now).toNat ∧
        para.logUploadTime mktime now ≠ 0 := by
  constructor
  · intro onTime
    obtain ⟨first, isNext, -, isTimer⟩ := onTime.slots
    refine ⟨?_, onTime.active⟩
    rw [isNext.eq_iff, ← Nat.add_zero first, ← Nat.zero_mul para.cycle]
    exact isTimer
  · rintro ⟨isNext, active⟩
    refine ⟨⟨_, isNext, rfl, ?_⟩, by simp [configure], active⟩
    simp [configure]

/-- An upload leaves the scheduler on time when the next one fits. -/
theorem OnTime.upload_iff (onTime : uploader.OnTime mktime para now)
    (due : uploader.ulTimer ≤ ctime) :
    uploader.ulTimer.toNat + para.ulTimeCycle.toNat < 2 ^ 32 ↔
      OnTime mktime para now ⟨uploader.ulTimer + para.ulTimeCycle,
        uploader.uploads ++ [(uploader.ulTimer, ctime)]⟩ := by
  obtain ⟨first, isNext, isSlots, isTimer⟩ := onTime.slots
  have timerPos : 0 < uploader.ulTimer.toNat := by
    apply Nat.pos_of_ne_zero
    intro isZero
    exact onTime.active (UInt32.toNat_inj.mp isZero)
  have isSum : (uploader.uploads.length + 1) * para.cycle =
      uploader.uploads.length * para.cycle + para.ulTimeCycle.toNat :=
    Nat.succ_mul _ _
  constructor
  · intro fits
    have isNew : (uploader.ulTimer + para.ulTimeCycle).toNat =
        uploader.ulTimer.toNat + para.ulTimeCycle.toNat := by
      rw [UInt32.toNat_add, Nat.mod_eq_of_lt fits]
    constructor
    · refine ⟨first, isNext, ?_, ?_⟩
      · rw [List.map_append, isSlots, List.length_append, List.length_singleton,
          List.range_succ, List.map_append]
        simp only [List.map_cons, List.map_nil, isTimer]
      · rw [List.length_append, List.length_singleton, isSum, isNew, isTimer,
          Nat.add_assoc]
    · intro upload member
      obtain old | new := List.mem_append.mp member
      · exact onTime.punctual upload old
      · rw [List.mem_singleton.mp new]
        exact due
    · intro isZero
      have noTime : (uploader.ulTimer + para.ulTimeCycle).toNat = 0 :=
        congrArg UInt32.toNat isZero
      omega
  · intro after
    obtain ⟨other, isOther, -, isNew⟩ := after.slots
    rw [isNext.eq_iff.mp isOther, List.length_append, List.length_singleton,
      isSum] at isNew
    calc
      uploader.ulTimer.toNat + para.ulTimeCycle.toNat
          = (uploader.ulTimer + para.ulTimeCycle).toNat := by
        rw [isNew, isTimer, Nat.add_assoc]
      _ < 2 ^ 32 := UInt32.toNat_lt _

/-- A step keeps the uploader on time exactly when its timer does not
overflow. -/
theorem OnTime.step_iff (positive : para.ulTimeCycle ≠ 0)
    (onTime : uploader.OnTime mktime para now) {after : Uploader}
    (step : Step para.ulTimeCycle uploader ctime after) :
    NoOverflow para.ulTimeCycle uploader ctime ↔
      after.OnTime mktime para now := by
  obtain rfl := step
  by_cases due : uploader.ulTimer ≤ ctime
  · rw [check_of_le positive onTime.active due, ← onTime.upload_iff due]
    exact ⟨fun fits => fits due, fun fits _ => fits⟩
  · rw [check_of_lt (UInt32.not_le.mp due)]
    constructor
    · intro _
      exact onTime
    · intro _ isDue
      exact absurd isDue due

/-- The time that is computed is the next one and every upload is made for its
own time, whatever the clock shows, exactly when the configuration hits the next
time, which is not 0, and the sums of the uploads fit in 32 bits. -/
theorem hits_along_iff (mktime : StartTm → UInt32) (para : LogUploadPara)
    (now : UInt32) (readings : List UInt32)
    (positive : para.ulTimeCycle ≠ 0) :
    (para.Hits mktime now ∧ (para.start mktime ≠ 0 ∨ now ≠ 0) ∧
        Along (Step para.ulTimeCycle) (NoOverflow para.ulTimeCycle)
          (configure mktime para now) readings) ↔
      para.IsNext mktime now (para.logUploadTime mktime now).toNat ∧
        ∀ uploader,
          Reached (Step para.ulTimeCycle) (configure mktime para now) readings
            uploader →
          uploader.OnTime mktime para now := by
  rw [LogUploadPara.hits_iff positive]
  apply and_congr_right
  intro isNext
  have isActive : para.start mktime ≠ 0 ∨ now ≠ 0 ↔
      (configure mktime para now).OnTime mktime para now := by
    rw [← isNext.ne_zero_iff, configure_onTime_iff, and_iff_right isNext,
      Ne, Ne, ← UInt32.toNat_inj]
    rfl
  rw [isActive]
  have along := fun onTime =>
    @Along.iff_reached _ _ (Step para.ulTimeCycle)
      (NoOverflow para.ulTimeCycle) _ _ readings (fun _ => True)
      (fun uploader => uploader.OnTime mktime para now)
      (fun _ _ _ _ first second => first.symm.trans second)
      (fun _ _ _ _ _ => trivial)
      (fun _ _ _ _ here step => here.step_iff positive step)
      trivial onTime
      (@Run.of_foldl _ _ (configure mktime para now) readings _)
  constructor
  · rintro ⟨onTime, fits⟩
    exact (along onTime).mp fits
  · intro everywhere
    have onTime := everywhere _ Reached.start
    exact ⟨onTime, (along onTime).mpr everywhere⟩

/-- A daily upload from midnight on, seen 100 seconds before it. -/
theorem hits_along_iff_daily :
    LogUploadPara.IsNext (fun _ => 1704067200) ⟨20240101, 0, 1, 86400⟩
        1704067100 1704067201 ∧
      ∀ uploader,
        Reached (Step 86400)
          (configure (fun _ => 1704067200) ⟨20240101, 0, 1, 86400⟩
            1704067100) [1704067200, 1704067203, 1704153602] uploader →
        uploader.OnTime (fun _ => 1704067200) ⟨20240101, 0, 1, 86400⟩
          1704067100 := by
  apply (hits_along_iff (fun _ => 1704067200) ⟨20240101, 0, 1, 86400⟩
    1704067100 [1704067200, 1704067203, 1704153602] (by decide)).mp
  refine ⟨⟨by decide, .inl ⟨by decide, by decide⟩⟩, .inr (by decide), ?_⟩
  refine ⟨fun _ => by decide, ?_⟩
  rintro _ rfl
  refine ⟨fun _ => by decide, ?_⟩
  rintro _ rfl
  refine ⟨fun _ => by decide, ?_⟩
  rintro _ rfl
  trivial

/-- Two days before the start the third upload is computed. -/
theorem exists_not_isNext :
    ¬∀ (mktime : StartTm → UInt32) (para : LogUploadPara) (now : UInt32),
      para.ulTimeCycle ≠ 0 →
      para.IsNext mktime now (para.logUploadTime mktime now).toNat := by
  intro always
  have isNext := always (fun _ => 1704240000) ⟨20240103, 0, 1, 86400⟩
    1704067200 (by decide)
  have isStart : LogUploadPara.IsNext (fun _ => 1704240000)
      ⟨20240103, 0, 1, 86400⟩ 1704067200 1704240001 :=
    LogUploadPara.isNext_start (by decide)
  exact absurd (isNext.unique isStart) (by decide)

end Uploader

end Log
end Pilot2Cloud
