import Pilot2Cloud.Foundation.LinearProbing
import Pilot2Cloud.Foundation.Memory
import Pilot2Cloud.Foundation.Outcome

/-!
# The modules of the threads

Every module has a thread.  The table from the handle of a thread to the module
is probed linearly from a slot that some bits of the handle select; whether an
entry belongs to a handle is looked up in the handles of the modules.
-/

namespace Pilot2Cloud
namespace Platform

open Foundation LinearProbing

/-- `THREAD_ARRAY_MAX_ID`. -/
def threadArrayMaxId : UInt32 := 512

/-- What is in a slot of `ulThreadId` without a module. -/
def noMid : UInt32 := 0xDEADBEEF

/-- `PF_RET_FAILURE`, as it is returned. -/
def pfRetFailure : UInt32 := 0xFFFFFFFF

/-- `ulThreadId`, `workerhandles` and `g_ulMidCounts`. -/
structure ThreadTable where
  ulThreadId : Nat → UInt32
  workerhandles : List UInt64
  ulMidCounts : UInt32

namespace ThreadTable

/-- `thread_mid_init`. -/
def threadMidInit (moduleTaskMax : Nat) : ThreadTable where
  ulThreadId := fun _ => noMid
  workerhandles := List.replicate moduleTaskMax 0
  ulMidCounts := 0

/-- `workerhandles[ulMid]`. -/
def handle (table : ThreadTable) (ulMid : UInt32) : Except Fault UInt64 :=
  match table.workerhandles[ulMid.toNat]? with
  | some handle => .ok handle
  | none => .error .readPastEnd

/-- A module is put into a slot. -/
def put (table : ThreadTable) (slot : Nat) (ulMid : UInt32) : ThreadTable :=
  { table with ulThreadId := Function.update table.ulThreadId slot ulMid }

/-- The slot of a handle as it is computed for a new module. -/
def setId (handle : UInt64) : UInt32 :=
  (handle.toUInt32 >>> 20) % threadArrayMaxId

/-- The slot of a handle as it is computed to find its module. -/
def getId (handle : UInt64) : UInt32 :=
  ((handle >>> 20) % 512).toUInt32

/-- The loop of `pf_set_thread_mid`. -/
def setLoop (table : ThreadTable) (id ulMid : UInt32) :
    Nat → UInt32 → Except Fault ThreadTable
  | 0, _ => .error .loopBound
  | rounds + 1, i =>
      if i < threadArrayMaxId then
        let offset := (id + i) % threadArrayMaxId
        if table.ulThreadId offset.toNat = noMid then
          .ok (table.put offset.toNat ulMid)
        else table.setLoop id ulMid rounds (i + 1)
      else .ok table

/-- `pf_set_thread_mid`. -/
def pfSetThreadMid (table : ThreadTable) (rounds : Nat) (ulMid : UInt32) :
    Except Fault ThreadTable := do
  let handle ← table.handle ulMid
  let id := setId handle
  let table ←
    if table.ulThreadId id.toNat = noMid then
      pure (table.put id.toNat ulMid)
    else table.setLoop id ulMid rounds 1
  return { table with ulMidCounts := table.ulMidCounts + 1 }

/-- The loop of `pf_get_thread_mid`. -/
def getLoop (table : ThreadTable) (id : UInt32) (handle : UInt64) :
    Nat → UInt32 → Except Fault UInt32
  | 0, _ => .error .loopBound
  | rounds + 1, i =>
      if i < threadArrayMaxId then do
        let ulTmpId := table.ulThreadId ((id + i) % threadArrayMaxId).toNat
        if noMid = ulTmpId then return pfRetFailure
        else
          let other ← table.handle ulTmpId
          if handle = other then return ulTmpId
          else table.getLoop id handle rounds (i + 1)
      else .ok pfRetFailure

/-- The thread that asks has the handle. -/
def pfGetThreadMid (table : ThreadTable) (rounds : Nat) (handle : UInt64) :
    Except Fault UInt32 := do
  let id := getId handle
  let ulMid := table.ulThreadId id.toNat
  if noMid = ulMid then return pfRetFailure
  else
    let other ← table.handle ulMid
    if handle ≠ other then table.getLoop id handle rounds 1
    else return ulMid

/-- A thread is created for a module, and its handle is registered. -/
def threadCreateMid (table : ThreadTable) (rounds : Nat)
    (thread : UInt32 × UInt64) : Except Fault ThreadTable :=
  if thread.1.toNat < table.workerhandles.length then
    ThreadTable.pfSetThreadMid
      { table with
        workerhandles :=
          table.workerhandles.set thread.1.toNat thread.2 }
      rounds thread.1
  else .error .writePastEnd

/-! ## The slot of a handle -/

@[simp] theorem toNat_getId (handle : UInt64) :
    (getId handle).toNat = handle.toNat / 2 ^ 20 % 512 := by
  simp only [getId, UInt64.toNat_toUInt32, UInt64.toNat_mod,
    UInt64.toNat_shiftRight, Nat.shiftRight_eq_div_pow]
  have size : (512 : UInt64).toNat = 512 := rfl
  have shift : (20 : UInt64).toNat % 64 = 20 := rfl
  rw [size, shift]
  omega

/-- Both computations take the same bits. -/
@[simp]
theorem setId_eq_getId (handle : UInt64) : setId handle = getId handle := by
  apply UInt32.toNat_inj.mp
  rw [toNat_getId]
  simp only [setId, threadArrayMaxId, UInt32.toNat_mod,
    UInt32.toNat_shiftRight, UInt64.toNat_toUInt32,
    Nat.shiftRight_eq_div_pow]
  have size : (512 : UInt32).toNat = 512 := rfl
  have shift : (20 : UInt32).toNat % 32 = 20 := rfl
  rw [size, shift]
  omega

/-- The slot that is probed in a round of a loop. -/
theorem toNat_offset (handle : UInt64) (round : Nat) :
    ((getId handle + .ofNat round) % threadArrayMaxId).toNat =
      probe 512 (getId handle).toNat round := by
  have small : (getId handle).toNat < 512 := by
    rw [toNat_getId]
    omega
  have size : threadArrayMaxId.toNat = 512 := rfl
  rw [UInt32.toNat_mod, size, UInt32.toNat_add, UInt32.toNat_ofNat', probe]
  omega

theorem ofNat_lt_threadArrayMaxId {round : Nat} (bound : round < 2 ^ 32) :
    UInt32.ofNat round < threadArrayMaxId ↔ round < 512 := by
  have size : threadArrayMaxId.toNat = 512 := rfl
  rw [UInt32.lt_iff_toNat_lt, size, UInt32.toNat_ofNat',
    Nat.mod_eq_of_lt bound]

/-! ## The table of the registered modules -/

variable {table : ThreadTable} {slots : Nat → Option (UInt32 × UInt64)}
  {registered : List (UInt32 × UInt64)} {moduleTaskMax rounds : Nat}

/-- The first slot that is probed for a module and its handle. -/
def start (entry : UInt32 × UInt64) : Nat :=
  (getId entry.2).toNat

/-- The table has the modules that were registered, with their handles. -/
structure Represents (table : ThreadTable) (moduleTaskMax : Nat)
    (slots : Nat → Option (UInt32 × UInt64))
    (registered : List (UInt32 × UInt64)) : Prop where
  size : table.workerhandles.length = moduleTaskMax
  holds : Holds 512 start slots registered
  free : ∀ slot, slots slot = none → table.ulThreadId slot = noMid
  taken : ∀ slot, ∀ entry ∈ slots slot,
    table.ulThreadId slot = entry.1 ∧ entry.1 ≠ noMid
  handles : ∀ entry ∈ registered,
    table.workerhandles[entry.1.toNat]? = some entry.2

theorem represents_threadMidInit (moduleTaskMax : Nat) :
    (threadMidInit moduleTaskMax).Represents moduleTaskMax (fun _ => none)
      [] where
  size := List.length_replicate
  holds := holds_empty
  free := fun slot _ => rfl
  taken := by
    intro slot entry isHere
    contradiction
  handles := by
    intro entry isEntry
    contradiction

/-! ## Registering a module -/

/-- The loop ends at the first free slot. -/
theorem setLoop_of_firstFree {handle : UInt64} {ulMid : UInt32}
    {round offset : Nat}
    (free : ∀ slot, slots slot = none → table.ulThreadId slot = noMid)
    (taken : ∀ slot, (slots slot).isSome → table.ulThreadId slot ≠ noMid)
    (first : FirstFree 512 slots (getId handle).toNat offset)
    (notPast : round ≤ offset) (enough : offset < round + rounds) :
    table.setLoop (getId handle) ulMid rounds (.ofNat round) =
      .ok (table.put (probe 512 (getId handle).toNat offset) ulMid) := by
  have inside := first.inside
  induction rounds generalizing round with
  | zero => omega
  | succ rounds inductionHypothesis =>
      rw [setLoop, if_pos ((ofNat_lt_threadArrayMaxId (by omega)).mpr
        (by omega))]
      simp only [toNat_offset handle round]
      obtain earlier | rfl := Nat.lt_or_eq_of_le notPast
      · have later := inductionHypothesis earlier (by omega)
        rw [Nat.succ_eq_add_one, UInt32.ofNat_add] at later
        rw [if_neg (taken _ (first.taken round earlier))]
        exact later
      · rw [if_pos (free _ first.free)]

/-- The slot that is tried before the loop is the one of round 0. -/
theorem pfSetThreadMid_of_firstFree {entry : UInt32 × UInt64}
    {offset : Nat} (enough : 512 ≤ rounds)
    (isHandle : table.workerhandles[entry.1.toNat]? = some entry.2)
    (free : ∀ slot, slots slot = none → table.ulThreadId slot = noMid)
    (taken : ∀ slot, (slots slot).isSome → table.ulThreadId slot ≠ noMid)
    (first : FirstFree 512 slots (start entry) offset) :
    table.pfSetThreadMid rounds entry.1 = .ok
      { table.put (probe 512 (start entry) offset) entry.1 with
        ulMidCounts := table.ulMidCounts + 1 } := by
  have inside := first.inside
  have unrolled : table.setLoop (getId entry.2) entry.1 (rounds + 1)
      (.ofNat 0) =
        .ok (table.put (probe 512 (getId entry.2).toNat offset) entry.1) :=
    setLoop_of_firstFree free taken first (Nat.zero_le offset) (by omega)
  rw [setLoop, if_pos ((ofNat_lt_threadArrayMaxId (by decide)).mpr
    (by decide))] at unrolled
  have zeroth : ((getId entry.2 + .ofNat 0) % threadArrayMaxId).toNat =
      (getId entry.2).toNat := by
    rw [toNat_offset, probe, toNat_getId]
    omega
  simp only [zeroth] at unrolled
  rw [pfSetThreadMid, handle, isHandle]
  simp only [ok_bind, setId_eq_getId]
  by_cases isFree : table.ulThreadId (getId entry.2).toNat = noMid
  · rw [if_pos isFree] at unrolled ⊢
    have same := Except.ok.inj unrolled
    simp only [pure_eq_ok, ok_bind, same]
    rfl
  · rw [if_neg isFree] at unrolled ⊢
    have next : UInt32.ofNat 0 + 1 = 1 := by decide
    rw [next] at unrolled
    rw [unrolled]
    rfl

theorem Represents.ne_noMid
    (represents : table.Represents moduleTaskMax slots registered)
    {slot : Nat} (isTaken : (slots slot).isSome) :
    table.ulThreadId slot ≠ noMid := by
  obtain ⟨entry, isHere⟩ := Option.isSome_iff_exists.mp isTaken
  obtain ⟨isMid, isModule⟩ := represents.taken slot entry isHere
  rw [isMid]
  exact isModule

/-- A new module is registered in a table that is not full. -/
theorem Represents.threadCreateMid
    (represents : table.Represents moduleTaskMax slots registered)
    {entry : UInt32 × UInt64} (enough : 512 ≤ rounds)
    (room : registered.length < 512) (inRange : entry.1.toNat < moduleTaskMax)
    (isMid : entry.1 ≠ noMid) (isNew : entry.1 ∉ registered.map Prod.fst) :
    ∃ next slots, table.threadCreateMid rounds entry = .ok next ∧
      next.Represents moduleTaskMax slots (registered ++ [entry]) := by
  obtain ⟨offset, first⟩ :=
    represents.holds.exists_firstFree room (start entry)
  have inside : entry.1.toNat < table.workerhandles.length := by
    rw [represents.size]
    exact inRange
  have isHandle : (table.workerhandles.set entry.1.toNat entry.2)[
      entry.1.toNat]? = some entry.2 :=
    List.getElem?_set_self inside
  refine ⟨⟨Function.update table.ulThreadId
      (probe 512 (start entry) offset) entry.1,
    table.workerhandles.set entry.1.toNat entry.2, table.ulMidCounts + 1⟩,
    Function.update slots (probe 512 (start entry) offset) (some entry),
    ?_, ⟨?_, represents.holds.put first, ?_, ?_, ?_⟩⟩
  · rw [ThreadTable.threadCreateMid, if_pos inside]
    exact pfSetThreadMid_of_firstFree enough isHandle represents.free
      (fun slot => represents.ne_noMid) first
  · exact List.length_set.trans represents.size
  · intro slot isFree
    simp only
    by_cases here : slot = probe 512 (start entry) offset
    · rw [here, Function.update_self] at isFree
      contradiction
    · rw [Function.update_of_ne here] at isFree
      rw [Function.update_of_ne here]
      exact represents.free slot isFree
  · intro slot other isOther
    simp only
    by_cases here : slot = probe 512 (start entry) offset
    · rw [here, Function.update_self, Option.mem_some_iff] at isOther
      rw [here, Function.update_self, ← isOther]
      exact ⟨rfl, isMid⟩
    · rw [Function.update_of_ne here] at isOther
      rw [Function.update_of_ne here]
      exact represents.taken slot other isOther
  · intro other isOther
    rw [List.mem_append, List.mem_singleton] at isOther
    obtain isOld | rfl := isOther
    · have apart : entry.1.toNat ≠ other.1.toNat := by
        intro same
        apply isNew
        rw [UInt32.toNat_inj.mp same]
        exact List.mem_map_of_mem isOld
      simp only
      rw [List.getElem?_set_ne apart]
      exact represents.handles other isOld
    · exact isHandle

/-! ## Finding a module -/

/-- A round at a slot that is taken looks at the handle of its module. -/
theorem getLoop_of_taken
    (represents : table.Represents moduleTaskMax slots registered)
    {handle : UInt64} {round : Nat} {entry : UInt32 × UInt64}
    (bound : round < 512)
    (isHere : slots (probe 512 (getId handle).toNat round) = some entry) :
    table.getLoop (getId handle) handle (rounds + 1) (.ofNat round) =
      if handle = entry.2 then .ok entry.1
      else
        table.getLoop (getId handle) handle rounds (.ofNat (round + 1)) := by
  have inside : probe 512 (getId handle).toNat round < 512 :=
    probe_lt (by decide) _ _
  obtain ⟨isMid, isModule⟩ := represents.taken _ entry isHere
  have isHandle := represents.handles entry
    (represents.holds.isStored _ inside entry isHere)
  rw [getLoop, if_pos ((ofNat_lt_threadArrayMaxId (by omega)).mpr bound),
    toNat_offset, isMid]
  simp only [if_neg (Ne.symm isModule), ThreadTable.handle, isHandle, ok_bind]
  rw [UInt32.ofNat_add]
  rfl

/-- A search passes the slots of other modules. -/
theorem getLoop_of_others
    (represents : table.Represents moduleTaskMax slots registered)
    {handle : UInt64} {last : Nat} (inside : last ≤ 512)
    (others : ∀ round < last, ∃ entry : UInt32 × UInt64,
      entry.2 ≠ handle ∧
        slots (probe 512 (getId handle).toNat round) = some entry)
    (rounds : Nat) :
    table.getLoop (getId handle) handle (rounds + last) (.ofNat 0) =
      table.getLoop (getId handle) handle rounds (.ofNat last) := by
  induction last generalizing rounds with
  | zero => rfl
  | succ last inductionHypothesis =>
      obtain ⟨entry, isOther, isHere⟩ := others last (Nat.lt_succ_self last)
      rw [Nat.add_succ, ← Nat.succ_add, inductionHypothesis (by omega)
        (fun round bound => others round (by omega)),
        Nat.succ_eq_add_one, getLoop_of_taken represents (by omega) isHere,
        if_neg (Ne.symm isOther)]

/-- The slot that is tried before the loop is the one of round 0. -/
theorem pfGetThreadMid_eq_getLoop (table : ThreadTable) (rounds : Nat)
    (handle : UInt64) :
    table.pfGetThreadMid rounds handle =
      table.getLoop (getId handle) handle (rounds + 1) (.ofNat 0) := by
  have zeroth : ((getId handle + .ofNat 0) % threadArrayMaxId).toNat =
      (getId handle).toNat := by
    rw [toNat_offset, probe, toNat_getId]
    omega
  have next : UInt32.ofNat 0 + 1 = 1 := by decide
  rw [getLoop, if_pos ((ofNat_lt_threadArrayMaxId (by decide)).mpr
    (by decide)), zeroth, next, pfGetThreadMid]
  simp only
  split
  · rfl
  · congr 1
    funext other
    rw [ite_not]

/-- The handle of a registered module gives the module. -/
theorem Represents.pfGetThreadMid_of_mem
    (represents : table.Represents moduleTaskMax slots registered)
    {entry : UInt32 × UInt64} (enough : 512 ≤ rounds)
    (distinct : (registered.map Prod.snd).Nodup)
    (isEntry : entry ∈ registered) :
    table.pfGetThreadMid rounds entry.2 = .ok entry.1 := by
  obtain ⟨offset, inside, isHere, before⟩ :=
    represents.holds.exists_first isEntry
  obtain ⟨spare, rfl⟩ := Nat.exists_eq_add_of_le
    (show offset ≤ rounds by omega)
  have others : ∀ round < offset, ∃ other : UInt32 × UInt64,
      other.2 ≠ entry.2 ∧
        slots (probe 512 (getId entry.2).toNat round) = some other := by
    intro round bound
    obtain ⟨other, isStored, isOther, isThere⟩ := before round bound
    refine ⟨other, ?_, isThere⟩
    intro same
    exact isOther (List.inj_on_of_nodup_map distinct isStored isEntry same)
  rw [pfGetThreadMid_eq_getLoop,
    show offset + spare + 1 = spare + 1 + offset by omega,
    getLoop_of_others represents (by omega) others,
    getLoop_of_taken represents inside isHere, if_pos rfl]

/-- Any other handle gives a failure. -/
theorem Represents.pfGetThreadMid_of_notMem
    (represents : table.Represents moduleTaskMax slots registered)
    {handle : UInt64} (enough : 512 ≤ rounds)
    (isOther : handle ∉ registered.map Prod.snd) :
    table.pfGetThreadMid rounds handle = .ok pfRetFailure := by
  have others : ∀ round, (slots
      (probe 512 (getId handle).toNat round)).isSome →
      ∃ entry : UInt32 × UInt64, entry.2 ≠ handle ∧
        slots (probe 512 (getId handle).toNat round) = some entry := by
    intro round isTaken
    obtain ⟨entry, isHere⟩ := Option.isSome_iff_exists.mp isTaken
    refine ⟨entry, ?_, isHere⟩
    rintro rfl
    apply isOther
    exact List.mem_map_of_mem (represents.holds.isStored _
      (probe_lt (by decide) _ _) entry isHere)
  rw [pfGetThreadMid_eq_getLoop]
  obtain ⟨offset, first⟩ | allTaken :=
    exists_firstFree_or 512 (getId handle).toNat slots
  · have inside := first.inside
    obtain ⟨spare, rfl⟩ := Nat.exists_eq_add_of_le
      (show offset ≤ rounds by omega)
    rw [show offset + spare + 1 = spare + 1 + offset by omega,
      getLoop_of_others represents (by omega)
        (fun round bound => others round (first.taken round bound)),
      getLoop, if_pos ((ofNat_lt_threadArrayMaxId (by omega)).mpr inside),
      toNat_offset, represents.free _ first.free]
    rfl
  · obtain ⟨spare, rfl⟩ := Nat.exists_eq_add_of_le enough
    rw [show 512 + spare + 1 = spare + 1 + 512 by omega,
      getLoop_of_others represents le_rfl
        (fun round bound => others round (allTaken round bound)),
      getLoop, if_neg (by decide)]

/-! ## All modules -/

/-- Threads are created one after another. -/
def createAll (table : ThreadTable) (rounds : Nat)
    (threads : List (UInt32 × UInt64)) : Except Fault ThreadTable :=
  threads.foldlM (fun table thread => table.threadCreateMid rounds thread)
    table

theorem Represents.createAll
    (represents : table.Represents moduleTaskMax slots registered)
    (enough : 512 ≤ rounds) (bounded : moduleTaskMax < 2 ^ 31)
    {threads : List (UInt32 × UInt64)}
    (few : (registered ++ threads).length ≤ 512)
    (inRange : ∀ thread ∈ threads, thread.1.toNat < moduleTaskMax)
    (distinct : ((registered ++ threads).map Prod.fst).Nodup) :
    ∃ next slots, table.createAll rounds threads = .ok next ∧
      next.Represents moduleTaskMax slots (registered ++ threads) := by
  induction threads generalizing table slots registered with
  | nil =>
      refine ⟨table, slots, rfl, ?_⟩
      rw [List.append_nil]
      exact represents
  | cons thread threads inductionHypothesis =>
      have inside := inRange thread List.mem_cons_self
      have isMid : thread.1 ≠ noMid := by
        intro same
        rw [same] at inside
        have large : noMid.toNat = 0xDEADBEEF := rfl
        omega
      have isNew : thread.1 ∉ registered.map Prod.fst := by
        rw [List.map_append, List.nodup_append'] at distinct
        intro isOld
        exact distinct.2.2 isOld List.mem_cons_self
      rw [List.length_append, List.length_cons] at few
      obtain ⟨middle, middleSlots, created, middleRepresents⟩ :=
        represents.threadCreateMid enough (by omega) inside isMid isNew
      rw [List.append_cons] at distinct ⊢
      obtain ⟨next, nextSlots, rest, nextRepresents⟩ :=
        inductionHypothesis middleRepresents
          (by simp only [List.length_append, List.length_singleton]; omega)
          (fun other isOther => inRange other (List.mem_cons_of_mem _ isOther))
          distinct
      refine ⟨next, nextSlots, ?_, nextRepresents⟩
      rw [ThreadTable.createAll, List.foldlM_cons, created]
      exact rest

/-- The thread of every registered module finds its module, and no other thread
finds one.  The number of modules is an `int` in the loops over them. -/
theorem finds_modules {threads : List (UInt32 × UInt64)}
    (bounded : moduleTaskMax < 2 ^ 31) (enough : 512 ≤ rounds)
    (few : threads.length ≤ 512)
    (inRange : ∀ thread ∈ threads, thread.1.toNat < moduleTaskMax)
    (distinctMids : (threads.map Prod.fst).Nodup)
    (distinctHandles : (threads.map Prod.snd).Nodup) :
    ∃ table,
      (threadMidInit moduleTaskMax).createAll rounds threads = .ok table ∧
      (∀ thread ∈ threads,
        table.pfGetThreadMid rounds thread.2 = .ok thread.1) ∧
      ∀ handle, handle ∉ threads.map Prod.snd →
        table.pfGetThreadMid rounds handle = .ok pfRetFailure := by
  obtain ⟨table, slots, created, represents⟩ :=
    (represents_threadMidInit moduleTaskMax).createAll enough bounded few
      inRange distinctMids
  refine ⟨table, created, ?_, ?_⟩
  · intro thread isThread
    exact represents.pfGetThreadMid_of_mem enough distinctHandles isThread
  · intro handle isOther
    exact represents.pfGetThreadMid_of_notMem enough isOther

/-- Two handles that begin at the same slot. -/
theorem finds_modules_collision :
    ∃ table,
      (threadMidInit 4).createAll 512 [(3, 0x7F0000100000),
        (1, 0x7F0020100000)] = .ok table ∧
      (∀ thread ∈ [((3 : UInt32), (0x7F0000100000 : UInt64)),
        (1, 0x7F0020100000)],
        table.pfGetThreadMid 512 thread.2 = .ok thread.1) ∧
      ∀ handle, handle ∉ [((3 : UInt32), (0x7F0000100000 : UInt64)),
          (1, 0x7F0020100000)].map Prod.snd →
        table.pfGetThreadMid 512 handle = .ok pfRetFailure :=
  finds_modules (by decide) le_rfl (by decide) (by simp) (by decide)
    (by decide)

end ThreadTable
end Platform
end Pilot2Cloud
