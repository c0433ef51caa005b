import Pilot2Cloud.Timers.Represented
import Pilot2Cloud.Timers.TimerId

/-!
# The initial timer manager

The initialization checks its parameters, makes every unit free and every bucket
empty.
-/

namespace Pilot2Cloud
namespace Timers

open Foundation

/-- The lists of a manager in which some timers are free and none runs. -/
def Lists.idle (free : List Nat) : Lists :=
  ⟨free, [], fun _ => []⟩

theorem insert_headsBelow (count : Nat) :
    insert (ListNode.activeTimerList count) (headsBelow count) =
      headsBelow (count + 1) := by
  ext head
  cases head with
  | activeTimerList index =>
      show ListNode.activeTimerList index = .activeTimerList count ∨
        index < count ↔ index < count + 1
      rw [ListNode.activeTimerList.injEq]
      omega
  | _ => simp [headsBelow]

/-- The two lists of a manager start out empty. -/
theorem rings_start (links : Links ListNode) :
    ((links.init .freeTimerList).init .allocTimerList).Rings (headsBelow 0)
      (Lists.idle []).members := by
  have heads : insert ListNode.allocTimerList
      (insert ListNode.freeTimerList ∅) = headsBelow 0 := by
    ext head
    cases head <;> simp [headsBelow]
  have nothing : links.Rings ∅ (Lists.idle []).members := .empty
  have loose : Links.Loose (insert ListNode.freeTimerList ∅)
      (Lists.idle []).members .allocTimerList := by
    rintro head (rfl | isHead)
    · simp [Lists.idle, Lists.members]
    · exact isHead.elim
  rw [← heads]
  exact (nothing.init (fun _ isHead => isHead.elim) rfl).init loose rfl

/-- The buckets start out empty. -/
theorem rings_initTable
    {links : Links ListNode} {free : List Nat}
    (rings : links.Rings (headsBelow 0) (Lists.idle free).members)
    (count : Nat) :
    ((List.range count).foldl
      (fun links index => links.init (.activeTimerList index)) links).Rings
      (headsBelow count) (Lists.idle free).members := by
  induction count with
  | zero => exact rings
  | succ count inductionHypothesis =>
      rw [List.range_succ, List.foldl_append, List.foldl_cons, List.foldl_nil,
        ← insert_headsBelow]
      have loose : Links.Loose (headsBelow count) (Lists.idle free).members
          (.activeTimerList count) := by
        intro head isHead
        cases head with
        | activeTimerList index =>
            simpa [Lists.idle, Lists.members] using Nat.ne_of_gt isHead
        | _ => simp [Lists.idle, Lists.members]
      exact inductionHypothesis.init loose rfl

/-- The first units of the timer array are set up and free. -/
structure Prepared (manager : TimerManager) (count : Nat) : Prop where
  rings : manager.links.Rings (headsBelow 0)
    (Lists.idle (List.range count).reverse).members
  node_data : ∀ timer < count, manager.data (.node timer) = timer
  hashNode_data : ∀ timer < count, manager.data (.hashNode timer) = timer
  idle : ∀ timer < count, (manager.timerArray timer).running = false ∧
    (manager.timerArray timer).cycle = 0
  timerIndex_eq : ∀ timer < count,
    timerIndex (manager.timerArray timer).tmExpMsg.timerId = timer

/-- The fields that the loop over the units leaves as they are. -/
def TimerManager.settings (manager : TimerManager) :
    UInt32 × UInt32 × UInt32 × UInt32 :=
  (manager.currentTick, manager.timerArraySize, manager.timerCount,
    manager.timerCountHistory)

theorem Prepared.initTimer
    {manager : TimerManager} {count : Nat} (prepared : Prepared manager count)
    (bound : count < 16384)
    (zeroed : (manager.timerArray count).running = false ∧
      (manager.timerArray count).cycle = 0) :
    Prepared (manager.initTimer count) (count + 1) where
  rings := by
    have loose : Links.Loose (headsBelow 0)
        (Lists.idle (List.range count).reverse).members (.node count) := by
      intro head isHead
      cases head with
      | node other => exact isHead.elim
      | _ => simp [Lists.idle, Lists.members]
    have isHead : ListNode.freeTimerList ∈ headsBelow 0 := trivial
    have ring := prepared.rings.insertHead isHead loose
    have members :
        Function.update (Lists.idle (List.range count).reverse).members
          .freeTimerList (.node count ::
            (Lists.idle (List.range count).reverse).members .freeTimerList) =
          (Lists.idle (List.range (count + 1)).reverse).members := by
      funext head
      cases head <;> simp [Lists.idle, Lists.members, List.range_succ]
    rw [← members]
    exact ring
  node_data timer isBelow := by
    by_cases same : timer = count
    · simp [TimerManager.initTimer, same]
    · simp [TimerManager.initTimer, same,
        prepared.node_data timer (by omega)]
  hashNode_data timer isBelow := by
    by_cases same : timer = count
    · simp [TimerManager.initTimer, same]
    · simp [TimerManager.initTimer, same,
        prepared.hashNode_data timer (by omega)]
  idle timer isBelow := by
    by_cases same : timer = count
    · simp [TimerManager.initTimer, TimerManager.store, same, zeroed]
    · simp [TimerManager.initTimer, TimerManager.store, same,
        prepared.idle timer (by omega)]
  timerIndex_eq timer isBelow := by
    by_cases same : timer = count
    · simp [TimerManager.initTimer, TimerManager.store, same,
        timerIndex_ofNat bound]
    · simp [TimerManager.initTimer, TimerManager.store, same,
        prepared.timerIndex_eq timer (by omega)]

theorem prepared_foldl
    (manager : TimerManager) {size : Nat} (small : size < 16384)
    (rings : manager.links.Rings (headsBelow 0) (Lists.idle []).members)
    (zeroed : ∀ timer < size, (manager.timerArray timer).running = false ∧
      (manager.timerArray timer).cycle = 0)
    (count : Nat) (bound : count ≤ size) :
    let prepared := (List.range count).foldl TimerManager.initTimer manager
    Prepared prepared count ∧ prepared.settings = manager.settings ∧
      ∀ timer ≥ count, prepared.timerArray timer = manager.timerArray timer := by
  induction count with
  | zero => exact ⟨⟨rings, nofun, nofun, nofun, nofun⟩, rfl, fun _ _ => rfl⟩
  | succ count inductionHypothesis =>
      obtain ⟨prepared, settings, untouched⟩ :=
        inductionHypothesis (Nat.le_of_succ_le bound)
      rw [List.range_succ, List.foldl_append, List.foldl_cons, List.foldl_nil]
      refine ⟨prepared.initTimer (by omega) ?_, settings, ?_⟩
      · rw [untouched count (Nat.le_refl count)]
        exact zeroed count bound
      · intro timer isAbove
        rw [← untouched timer (Nat.le_of_succ_le isAbove)]
        exact Function.update_of_ne (Nat.ne_of_gt isAbove) _ _

theorem represented_initHashTable
    {manager : TimerManager} {hashTableSize : UInt32}
    (prepared : Prepared manager manager.timerArraySize.toNat)
    (small : manager.timerArraySize ≤ timerArrayMaxSize)
    (none : manager.timerCount = 0) (positive : hashTableSize ≠ 0) :
    Represented
      ((manager.setHashTableSize hashTableSize).initHashTable hashTableSize)
      (Lists.idle (List.range manager.timerArraySize.toNat).reverse) where
  linked := by
    have heads : (hashTableSize - 1).toNat + 1 = hashTableSize.toNat := by
      have one : 1 ≤ hashTableSize := by
        rw [UInt32.le_iff_toNat_le]
        exact Nat.one_le_iff_ne_zero.mpr fun isZero =>
          positive (UInt32.toNat_inj.mp isZero)
      have bound := UInt32.le_iff_toNat_le.mp one
      rw [UInt32.toNat_sub_of_le _ _ one]
      exact Nat.sub_add_cancel bound
    refine ⟨?_, prepared.node_data, prepared.hashNode_data⟩
    show Links.Rings _ (headsBelow ((hashTableSize - 1).toNat + 1)) _
    rw [heads]
    exact rings_initTable prepared.rings hashTableSize.toNat
  units := by
    rw [Lists.idle, List.append_nil]
    exact List.reverse_perm _
  mem_bucket timer index := by
    simp [Lists.idle]
  running timer bound := by
    obtain ⟨idle, -⟩ := prepared.idle timer bound
    show (manager.timerArray timer).running = true ↔ timer ∈ []
    simp [idle]
  count := by
    show manager.timerCount.toNat = 0
    rw [none]
    rfl
  size_le := small
  timerIndex_eq := prepared.timerIndex_eq

/-- A manager whose initialization succeeds represents its units as free ones,
whatever was in its memory before. -/
theorem represented_tmInitTimerManager
    {memory manager : TimerManager} {maxTimerNum hashTableSize : UInt32}
    {tickInterval : UInt32} {timerArrayAllocated hashTableAllocated : Bool}
    (initialized : memory.tmInitTimerManager maxTimerNum hashTableSize
      tickInterval timerArrayAllocated hashTableAllocated =
        (manager, .success)) :
    Represented manager
        (Lists.idle (List.range maxTimerNum.toNat).reverse) ∧
      manager.settings = (0, maxTimerNum, 0, 0) ∧
      ∀ timer < maxTimerNum.toNat, (manager.timerArray timer).cycle = 0 := by
  rw [TimerManager.tmInitTimerManager] at initialized
  split_ifs at initialized with tooMany badTable badInterval noArray noTable
  case neg =>
    obtain ⟨rfl, -⟩ := Prod.mk.inj initialized
    have small : maxTimerNum ≤ timerArrayMaxSize := UInt32.not_lt.mp tooMany
    have bound : maxTimerNum.toNat < 16384 := by
      have value : timerArrayMaxSize.toNat = 16383 := by decide
      have atMost := UInt32.le_iff_toNat_le.mp small
      omega
    obtain ⟨prepared, settings, -⟩ := prepared_foldl
      (memory.initFields maxTimerNum tickInterval).zeroTimerArray bound
      (rings_start memory.links)
      (fun timer isBelow => by
        have zero : ((memory.initFields maxTimerNum
            tickInterval).zeroTimerArray).timerArray timer = .zero :=
          if_pos isBelow
        rw [zero]
        exact ⟨rfl, rfl⟩)
      maxTimerNum.toNat (Nat.le_refl _)
    have size : (memory.initFields maxTimerNum
        tickInterval).initTimerArray.timerArraySize = maxTimerNum :=
      congrArg (·.2.1) settings
    refine ⟨?_, settings, fun timer isBelow => (prepared.idle timer isBelow).2⟩
    have ready : Prepared
        (memory.initFields maxTimerNum tickInterval).initTimerArray
        (memory.initFields maxTimerNum
          tickInterval).initTimerArray.timerArraySize.toNat := by
      rw [size]
      exact prepared
    have represented := represented_initHashTable ready (by rwa [size])
      (congrArg (·.2.2.1) settings) fun isZero => badTable (.inl isZero)
    rw [size] at represented
    exact represented
  all_goals exact absurd (congrArg Prod.snd initialized) nofun

/-- A manager in memory that holds nothing of use. -/
def blankMemory : TimerManager where
  tickInterval := 0
  currentTick := 0
  timerArraySize := 0
  timerArray _ := .zero
  hashTblLastIdx := 0
  links := ⟨id, id⟩
  data _ := 0
  timerCount := 0
  timerCountHistory := 0
  timerMsgFailCount := 0

end Timers
end Pilot2Cloud
