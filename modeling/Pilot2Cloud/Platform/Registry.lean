import Pilot2Cloud.Foundation.Roster
import Pilot2Cloud.Foundation.Transitions
import Pilot2Cloud.Platform.Commbuf

/-!
# The registries of buffers and queues

Every commbuf and every queue is entered in a global table when it is created
and struck off when it is destroyed.  A commbuf has a queue of its own.
-/

namespace Pilot2Cloud
namespace Platform

open Foundation

/-- `MAX_QUE_NUM`. -/
def MAX_QUE_NUM : Nat := 128

/-- A commbuf and the address of its queue. -/
structure LiveBuf where
  ctrl : BufCtrl
  que : Nat

/-- The two tables with their totals, and the control blocks that exist, by
their addresses. -/
structure Registry where
  commBuffers : Roster Nat
  ques : Roster Nat
  buf : Nat → Option LiveBuf
  que : Nat → Bool

/-- What the system gives for each piece of memory, and what is in it. -/
structure Mallocs where
  bufCtrl : Option Nat
  bufStart : Option Nat
  queCtrl : Option Nat
  queElem : Option Nat
  memory : Nat → UInt32

namespace Registry

variable (registry : Registry)

/-- The commbufs that exist. -/
def liveBufs : Set Nat :=
  {pstBufCtrl | (registry.buf pstBufCtrl).isSome}

/-- The queues that exist. -/
def liveQues : Set Nat :=
  {pstQueCtrl | registry.que pstQueCtrl = true}

/-- `pl_que_create`. -/
def plQueCreate (mallocs : Mallocs) (ulElemNum : UInt32) :
    Option (Nat × QueCtrl) × Registry :=
  match Platform.plQueCreate mallocs.memory ulElemNum with
  | none => (none, registry)
  | some queCtrl =>
      match mallocs.queCtrl with
      | none => (none, registry)
      | some pstQueCtrl =>
          match mallocs.queElem with
          | none => (none, registry)
          | some _ => (some (pstQueCtrl, queCtrl), { registry with
              ques := registry.ques.add pstQueCtrl
              que := Function.update registry.que pstQueCtrl true })

/-- `pl_que_destroy`. -/
def plQueDestroy (pstQueCtrl : Nat) : Registry :=
  let ulQueIdx := registry.ques.position pstQueCtrl
  if ulQueIdx = registry.ques.total then { registry with
    que := Function.update registry.que pstQueCtrl false }
  else { registry with
    ques := registry.ques.strike ulQueIdx
    que := Function.update registry.que pstQueCtrl false }

/-- The end of both constructors. -/
def register (pstBufCtrl : Nat) (buf : LiveBuf) : Registry :=
  { registry with
    commBuffers := registry.commBuffers.add pstBufCtrl
    buf := Function.update registry.buf pstBufCtrl (some buf) }

/-- The control block of a commbuf is freed. -/
def freeBuf (pstBufCtrl : Nat) : Registry :=
  { registry with buf := Function.update registry.buf pstBufCtrl none }

/-- `pl_commbuf_create`. -/
def plCommbufCreate (mallocs : Mallocs) (ulBufSize ulBufNum : UInt32) :
    Option Nat × Registry :=
  if ulBufSize > MAX_COMMBUF_SIZE ∨ ulBufNum > MAX_COMMBUF_ELEM_NUM then
    (none, registry)
  else if registry.commBuffers.total ≥ MAX_COMMBUF_NUM then (none, registry)
  else
    match mallocs.bufCtrl with
    | none => (none, registry)
    | some pstBufCtrl =>
        let ulBufSize := roundedSize ulBufSize
        match mallocs.bufStart with
        | none => (none, registry)
        | some pucBufStart =>
            match registry.plQueCreate mallocs ulBufNum with
            | (none, registry) => (none, registry)
            | (some (que, queCtrl), registry) =>
                let ctrl := .create ulBufSize ulBufNum pucBufStart
                  (pucBufStart + (ulBufSize * ulBufNum).toNat) false queCtrl
                (some pstBufCtrl, registry.register pstBufCtrl ⟨ctrl, que⟩)

/-- `pl_commbuf_create_with_address`. -/
def plCommbufCreateWithAddress (mallocs : Mallocs)
    (pucBufStart pucBufEnd : Option Nat) (ulBufSize ulBufNum : UInt32) :
    Option Nat × Registry :=
  if registry.commBuffers.total ≥ MAX_COMMBUF_NUM then (none, registry)
  else
    match pucBufStart, pucBufEnd with
    | some pucBufStart, some pucBufEnd =>
        if pucBufStart % 4 ≠ 0 then (none, registry)
        else
          match mallocs.bufCtrl with
          | none => (none, registry)
          | some pstBufCtrl =>
              let ulBufSize := roundedSize ulBufSize
              let pucBufEndCalc := pucBufStart + (ulBufSize * ulBufNum).toNat
              if pucBufEndCalc ≠ pucBufEnd then (none, registry)
              else
                match registry.plQueCreate mallocs ulBufNum with
                | (none, registry) => (none, registry)
                | (some (que, queCtrl), registry) =>
                    let ctrl := .create ulBufSize ulBufNum pucBufStart pucBufEnd
                      true queCtrl
                    (some pstBufCtrl, registry.register pstBufCtrl ⟨ctrl, que⟩)
    | _, _ => (none, registry)

/-- `pl_commbuf_destroy`. -/
def plCommbufDestroy (pstBufCtrl : Nat) : UInt32 × Registry :=
  match registry.buf pstBufCtrl with
  | none => (COMM_FAIL, registry)
  | some buf =>
      if Platform.plCommbufDestroy buf.ctrl ≠ COMM_SUCC then (1, registry)
      else
        let ulCommBufIdx := registry.commBuffers.position pstBufCtrl
        if ulCommBufIdx = registry.commBuffers.total then
          (COMM_SUCC, (registry.plQueDestroy buf.que).freeBuf pstBufCtrl)
        else
          let registry := { registry with
            commBuffers := registry.commBuffers.strike ulCommBufIdx }
          (COMM_SUCC, (registry.plQueDestroy buf.que).freeBuf pstBufCtrl)

/-- The body of the loop in `pl_commbuf_clear`. -/
def clearBuf (pstBufCtrl : Nat) : Registry :=
  match registry.buf pstBufCtrl with
  | none => registry
  | some buf => (registry.plQueDestroy buf.que).freeBuf pstBufCtrl

/-- `pl_commbuf_clear`. -/
def plCommbufClear : Registry :=
  let registry := registry.commBuffers.members.foldl clearBuf registry
  { registry with commBuffers := { registry.commBuffers with total := 0 } }

end Registry

/-! ## Sequences of calls -/

/-- A call with the memory it gets. -/
inductive RegistryCall where
  | commbufCreate (mallocs : Mallocs) (ulBufSize ulBufNum : UInt32)
  | commbufCreateWithAddress (mallocs : Mallocs)
      (pucBufStart pucBufEnd : Option Nat) (ulBufSize ulBufNum : UInt32)
  | commbufDestroy (pstBufCtrl : Nat)
  | queCreate (mallocs : Mallocs) (ulElemNum : UInt32)
  | queDestroy (pstQueCtrl : Nat)
  | commbufClear

namespace Registry

variable (registry : Registry)

/-- Nothing has been created. -/
def start : Registry where
  commBuffers := ⟨fun _ => 0, 0, []⟩
  ques := ⟨fun _ => 0, 0, []⟩
  buf := fun _ => none
  que := fun _ => false

/-- The memory for control blocks is not in use. -/
structure Fresh (mallocs : Mallocs) : Prop where
  buf : ∀ pstBufCtrl ∈ mallocs.bufCtrl, pstBufCtrl ∉ registry.liveBufs
  que : ∀ pstQueCtrl ∈ mallocs.queCtrl, pstQueCtrl ∉ registry.liveQues

/-- Only what exists is destroyed, and not the queue of a commbuf. -/
inductive Step : Registry → RegistryCall → Registry → Prop
  | commbufCreate {registry : Registry} {mallocs : Mallocs}
      {ulBufSize ulBufNum : UInt32} (fresh : registry.Fresh mallocs) :
      Step registry (.commbufCreate mallocs ulBufSize ulBufNum)
        (registry.plCommbufCreate mallocs ulBufSize ulBufNum).2
  | commbufCreateWithAddress {registry : Registry} {mallocs : Mallocs}
      {pucBufStart pucBufEnd : Option Nat} {ulBufSize ulBufNum : UInt32}
      (fresh : registry.Fresh mallocs) :
      Step registry
        (.commbufCreateWithAddress mallocs pucBufStart pucBufEnd ulBufSize
          ulBufNum)
        (registry.plCommbufCreateWithAddress mallocs pucBufStart pucBufEnd
          ulBufSize ulBufNum).2
  | commbufDestroy {registry : Registry} {pstBufCtrl : Nat}
      (isLive : pstBufCtrl ∈ registry.liveBufs) :
      Step registry (.commbufDestroy pstBufCtrl)
        (registry.plCommbufDestroy pstBufCtrl).2
  | queCreate {registry : Registry} {mallocs : Mallocs} {ulElemNum : UInt32}
      (fresh : registry.Fresh mallocs) :
      Step registry (.queCreate mallocs ulElemNum)
        (registry.plQueCreate mallocs ulElemNum).2
  | queDestroy {registry : Registry} {pstQueCtrl : Nat}
      (isLive : pstQueCtrl ∈ registry.liveQues)
      (isFree : ∀ pstBufCtrl, ∀ buf ∈ registry.buf pstBufCtrl,
        buf.que ≠ pstQueCtrl) :
      Step registry (.queDestroy pstQueCtrl) (registry.plQueDestroy pstQueCtrl)
  | commbufClear {registry : Registry} :
      Step registry .commbufClear registry.plCommbufClear

/-- The tables list what exists, the totals are right, and no place outside of
a table was written. -/
structure Exact : Prop where
  commBuffers : registry.commBuffers.Lists registry.liveBufs
  ques : registry.ques.Lists registry.liveQues
  commBufferTotalNum : registry.commBuffers.total = registry.liveBufs.ncard
  queTotalNum : registry.ques.total = registry.liveQues.ncard
  commBufferIndices : ∀ index ∈ registry.commBuffers.written,
    index < MAX_COMMBUF_NUM
  queIndices : ∀ index ∈ registry.ques.written, index < MAX_QUE_NUM

/-- The system has the memory for a queue of a size that is allowed. -/
def QueAllocated (mallocs : Mallocs) (ulElemNum : UInt32) : Prop :=
  ulElemNum ≤ MAX_QUE_ELEM_NUM ∧ mallocs.queCtrl.isSome ∧
    mallocs.queElem.isSome

/-- A call comes to create a queue. -/
def CreatesQue : RegistryCall → Prop
  | .commbufCreate mallocs ulBufSize ulBufNum =>
      ulBufSize ≤ MAX_COMMBUF_SIZE ∧ ulBufNum ≤ MAX_COMMBUF_ELEM_NUM ∧
        registry.commBuffers.total < MAX_COMMBUF_NUM ∧
        mallocs.bufCtrl.isSome ∧ mallocs.bufStart.isSome ∧
        QueAllocated mallocs ulBufNum
  | .commbufCreateWithAddress mallocs pucBufStart pucBufEnd ulBufSize
      ulBufNum =>
      registry.commBuffers.total < MAX_COMMBUF_NUM ∧
        mallocs.bufCtrl.isSome ∧
        (∃ start, pucBufStart = some start ∧ start % 4 = 0 ∧
          pucBufEnd = some (start + (roundedSize ulBufSize * ulBufNum).toNat)) ∧
        QueAllocated mallocs ulBufNum
  | .queCreate mallocs ulElemNum => QueAllocated mallocs ulElemNum
  | .commbufDestroy _ => False
  | .queDestroy _ => False
  | .commbufClear => False

/-- A queue is created only when its table has room. -/
def HasRoom (call : RegistryCall) : Prop :=
  registry.CreatesQue call → registry.ques.total < MAX_QUE_NUM

/-! ## One queue more or less -/

/-- A queue exists and is listed. -/
def addQue (pstQueCtrl : Nat) : Registry :=
  { registry with
    ques := registry.ques.add pstQueCtrl
    que := Function.update registry.que pstQueCtrl true }

/-- The queues that exist are listed in the table, and every commbuf has one of
its own. -/
structure QueSound : Prop where
  lists : registry.ques.Lists registry.liveQues
  owned : ∀ pstBufCtrl, ∀ buf ∈ registry.buf pstBufCtrl,
    buf.que ∈ registry.liveQues
  own : ∀ first second, ∀ buf ∈ registry.buf first,
    ∀ other ∈ registry.buf second, buf.que = other.que → first = second
  room : registry.ques.total ≤ MAX_QUE_NUM
  written : ∀ index ∈ registry.ques.written, index < MAX_QUE_NUM

variable {registry : Registry} {mallocs : Mallocs} {ulElemNum : UInt32}
  {pstBufCtrl pstQueCtrl : Nat} {buf : LiveBuf}

theorem plQueCreate_of_not_allocated
    (isNot : ¬QueAllocated mallocs ulElemNum) :
    registry.plQueCreate mallocs ulElemNum = (none, registry) := by
  unfold plQueCreate Platform.plQueCreate
  by_cases isMany : ulElemNum > MAX_QUE_ELEM_NUM
  · rw [if_pos isMany]
  · rw [if_neg isMany]
    cases isCtrl : mallocs.queCtrl with
    | none => rfl
    | some pstQueCtrl =>
        cases isElem : mallocs.queElem with
        | none => rfl
        | some aulQueElem =>
            refine absurd ⟨UInt32.not_lt.mp isMany, ?_, ?_⟩ isNot
            · rw [isCtrl]
              rfl
            · rw [isElem]
              rfl

theorem plQueCreate_of_allocated
    (allocated : QueAllocated mallocs ulElemNum) :
    ∃ pstQueCtrl ∈ mallocs.queCtrl, ∃ queCtrl,
      registry.plQueCreate mallocs ulElemNum =
        (some (pstQueCtrl, queCtrl), registry.addQue pstQueCtrl) := by
  obtain ⟨isFew, hasCtrl, hasElem⟩ := allocated
  obtain ⟨pstQueCtrl, isCtrl⟩ := Option.isSome_iff_exists.mp hasCtrl
  obtain ⟨aulQueElem, isElem⟩ := Option.isSome_iff_exists.mp hasElem
  obtain ⟨queCtrl, isQue⟩ := @exists_plQueCreate mallocs.memory _ isFew
  refine ⟨pstQueCtrl, isCtrl, queCtrl, ?_⟩
  unfold plQueCreate
  rw [isQue, isCtrl, isElem]
  rfl

@[simp] theorem liveQues_addQue :
    (registry.addQue pstQueCtrl).liveQues =
      insert pstQueCtrl registry.liveQues := by
  ext other
  simp only [liveQues, addQue, Set.mem_ofPred_eq, Set.mem_insert_iff]
  by_cases same : other = pstQueCtrl <;> simp [same]

theorem QueSound.addQue (sound : registry.QueSound)
    (isNew : pstQueCtrl ∉ registry.liveQues)
    (room : registry.ques.total < MAX_QUE_NUM) :
    (registry.addQue pstQueCtrl).QueSound where
  lists := by
    rw [liveQues_addQue]
    exact sound.lists.add isNew
  owned owner buf isBuf := by
    rw [liveQues_addQue]
    exact Set.mem_insert_of_mem _ (sound.owned owner buf isBuf)
  own := sound.own
  room := room
  written index isWritten := by
    obtain new | old := List.mem_cons.mp isWritten
    · rw [new]
      exact room
    · exact sound.written index old

/-- A listed queue is struck off. -/
theorem plQueDestroy_of_live (sound : registry.QueSound)
    (isLive : pstQueCtrl ∈ registry.liveQues) :
    registry.plQueDestroy pstQueCtrl = { registry with
        ques := registry.ques.strike (registry.ques.position pstQueCtrl)
        que := Function.update registry.que pstQueCtrl false } ∧
      registry.ques.position pstQueCtrl < registry.ques.total := by
  have isPlace : registry.ques.position pstQueCtrl < registry.ques.total :=
    Roster.position_lt_iff.mpr ((sound.lists.mem_iff pstQueCtrl).mpr isLive)
  refine ⟨?_, isPlace⟩
  unfold plQueDestroy
  dsimp only
  rw [if_neg (Nat.ne_of_lt isPlace)]

@[simp] theorem liveQues_plQueDestroy :
    (registry.plQueDestroy pstQueCtrl).liveQues =
      registry.liveQues \ {pstQueCtrl} := by
  have isQue : (registry.plQueDestroy pstQueCtrl).que =
      Function.update registry.que pstQueCtrl false := by
    unfold plQueDestroy
    dsimp only
    split <;> rfl
  ext other
  simp only [liveQues, isQue, Set.mem_ofPred_eq, Set.mem_sdiff,
    Set.mem_singleton_iff]
  by_cases same : other = pstQueCtrl <;> simp [same]

/-- A queue that no commbuf has is destroyed. -/
theorem QueSound.plQueDestroy (sound : registry.QueSound)
    (isLive : pstQueCtrl ∈ registry.liveQues)
    (isFree : ∀ pstBufCtrl, ∀ buf ∈ registry.buf pstBufCtrl,
      buf.que ≠ pstQueCtrl) :
    (registry.plQueDestroy pstQueCtrl).QueSound := by
  obtain ⟨isNext, isPlace⟩ := plQueDestroy_of_live sound isLive
  have isLess := @liveQues_plQueDestroy registry pstQueCtrl
  have isBuf : (registry.plQueDestroy pstQueCtrl).buf = registry.buf := by
    rw [isNext]
  have isQues : (registry.plQueDestroy pstQueCtrl).ques =
      registry.ques.strike (registry.ques.position pstQueCtrl) := by
    rw [isNext]
  constructor
  · rw [isQues, isLess]
    exact sound.lists.strike isLive
  · intro owner buf isOwner
    rw [isBuf] at isOwner
    rw [isLess]
    exact ⟨sound.owned owner buf isOwner, isFree owner buf isOwner⟩
  · rw [isBuf]
    exact sound.own
  · rw [isQues]
    exact (Nat.sub_le _ _).trans sound.room
  · intro index isWritten
    rw [isQues] at isWritten
    obtain new | old := List.mem_cons.mp isWritten
    · rw [new]
      exact Nat.lt_of_lt_of_le isPlace sound.room
    · exact sound.written index old

/-! ## One commbuf more or less -/

@[simp] theorem liveBufs_register :
    (registry.register pstBufCtrl buf).liveBufs =
      insert pstBufCtrl registry.liveBufs := by
  ext other
  simp only [liveBufs, register, Set.mem_ofPred_eq, Set.mem_insert_iff]
  by_cases same : other = pstBufCtrl <;> simp [same]

theorem mem_update_iff {other : Nat} {found : LiveBuf} {new : Option LiveBuf} :
    found ∈ Function.update registry.buf pstBufCtrl new other ↔
      (other = pstBufCtrl ∧ found ∈ new) ∨
        (other ≠ pstBufCtrl ∧ found ∈ registry.buf other) := by
  by_cases same : other = pstBufCtrl <;> simp [same]

/-- A commbuf gets a queue that no other has. -/
theorem QueSound.register (sound : registry.QueSound)
    (hasQue : buf.que ∈ registry.liveQues)
    (isFree : ∀ pstBufCtrl, ∀ other ∈ registry.buf pstBufCtrl,
      other.que ≠ buf.que) :
    (registry.register pstBufCtrl buf).QueSound where
  lists := sound.lists
  owned owner found isFound := by
    obtain ⟨-, isNew⟩ | ⟨-, isOld⟩ := mem_update_iff.mp isFound
    · obtain rfl := Option.some.inj isNew
      exact hasQue
    · exact sound.owned owner found isOld
  own first second found isFound other isOther same := by
    obtain ⟨isFirst, isNew⟩ | ⟨-, isOld⟩ := mem_update_iff.mp isFound
    · obtain rfl := Option.some.inj isNew
      obtain ⟨isSecond, -⟩ | ⟨-, isBefore⟩ := mem_update_iff.mp isOther
      · exact isFirst.trans isSecond.symm
      · exact absurd same.symm (isFree second other isBefore)
    · obtain ⟨-, isNew⟩ | ⟨-, isBefore⟩ := mem_update_iff.mp isOther
      · obtain rfl := Option.some.inj isNew
        exact absurd same (isFree first found isOld)
      · exact sound.own first second found isOld other isBefore same
  room := sound.room
  written := sound.written

/-- A commbuf and its queue go together. -/
def release (registry : Registry) (pstBufCtrl pstQueCtrl : Nat) : Registry :=
  (registry.plQueDestroy pstQueCtrl).freeBuf pstBufCtrl

@[simp] theorem liveBufs_release :
    (registry.release pstBufCtrl pstQueCtrl).liveBufs =
      registry.liveBufs \ {pstBufCtrl} := by
  have isBuf : (registry.plQueDestroy pstQueCtrl).buf = registry.buf := by
    unfold plQueDestroy
    dsimp only
    split <;> rfl
  ext other
  simp only [liveBufs, release, freeBuf, isBuf, Set.mem_ofPred_eq,
    Set.mem_sdiff, Set.mem_singleton_iff]
  by_cases same : other = pstBufCtrl <;> simp [same]

theorem QueSound.release (sound : registry.QueSound)
    (isBuf : buf ∈ registry.buf pstBufCtrl) :
    (registry.release pstBufCtrl buf.que).QueSound := by
  have without : (registry.freeBuf pstBufCtrl).QueSound := {
    lists := sound.lists
    owned := by
      intro owner found isFound
      obtain ⟨-, isNone⟩ | ⟨-, isOld⟩ := mem_update_iff.mp isFound
      · cases isNone
      · exact sound.owned owner found isOld
    own := by
      intro first second found isFound other isOther
      obtain ⟨-, isNone⟩ | ⟨-, isOld⟩ := mem_update_iff.mp isFound
      · cases isNone
      obtain ⟨-, isNone⟩ | ⟨-, isBefore⟩ := mem_update_iff.mp isOther
      · cases isNone
      exact sound.own first second found isOld other isBefore
    room := sound.room
    written := sound.written }
  have isSame : registry.release pstBufCtrl buf.que =
      (registry.freeBuf pstBufCtrl).plQueDestroy buf.que := by
    unfold Registry.release Registry.plQueDestroy freeBuf
    dsimp only
    split <;> rfl
  rw [isSame]
  apply without.plQueDestroy (sound.owned pstBufCtrl buf isBuf)
  intro owner found isFound same
  obtain ⟨-, isNone⟩ | ⟨isOther, isOld⟩ := mem_update_iff.mp isFound
  · cases isNone
  · exact isOther (sound.own owner pstBufCtrl found isOld buf isBuf same)

/-! ## What a call preserves -/

/-- Both tables list what exists, and nothing was written outside of them. -/
structure Sound (registry : Registry) : Prop where
  bufs : registry.commBuffers.Lists registry.liveBufs
  ques : registry.QueSound
  room : registry.commBuffers.total ≤ MAX_COMMBUF_NUM
  written : ∀ index ∈ registry.commBuffers.written, index < MAX_COMMBUF_NUM

theorem Sound.exact (sound : registry.Sound) : registry.Exact :=
  ⟨sound.bufs, sound.ques.lists, sound.bufs.ncard_eq.symm,
    sound.ques.lists.ncard_eq.symm, sound.written, sound.ques.written⟩

theorem start_sound : start.Sound where
  bufs := ⟨List.nodup_nil, by simp [start, Roster.members, liveBufs]⟩
  ques := {
    lists := ⟨List.nodup_nil, by simp [start, Roster.members, liveQues]⟩
    owned := by
      intro owner buf isBuf
      cases isBuf
    own := by
      intro first second buf isBuf
      cases isBuf
    room := Nat.zero_le _
    written := by
      intro index isWritten
      cases isWritten }
  room := Nat.zero_le _
  written := by
    intro index isWritten
    cases isWritten

/-- A commbuf with a new queue has been entered. -/
structure Entered (registry : Registry) (mallocs : Mallocs)
    (next : Registry) : Prop where
  room : registry.commBuffers.total < MAX_COMMBUF_NUM
  isNext : ∃ pstBufCtrl ∈ mallocs.bufCtrl, ∃ pstQueCtrl ∈ mallocs.queCtrl,
    ∃ ctrl, next = (registry.addQue pstQueCtrl).register pstBufCtrl
      ⟨ctrl, pstQueCtrl⟩

theorem Entered.written {next : Registry}
    (entered : registry.Entered mallocs next) :
    next.ques.written = registry.ques.total :: registry.ques.written := by
  obtain ⟨pstBufCtrl, -, pstQueCtrl, -, ctrl, rfl⟩ := entered.isNext
  rfl

theorem Sound.entered (sound : registry.Sound) {next : Registry}
    (entered : registry.Entered mallocs next)
    (fresh : registry.Fresh mallocs)
    (room : registry.ques.total < MAX_QUE_NUM) :
    next.Sound := by
  obtain ⟨pstBufCtrl, isBuf, pstQueCtrl, isQue, ctrl, rfl⟩ := entered.isNext
  have isNew := fresh.que pstQueCtrl isQue
  constructor
  · rw [liveBufs_register]
    exact sound.bufs.add (fresh.buf pstBufCtrl isBuf)
  · apply (sound.ques.addQue isNew room).register
    · rw [liveQues_addQue]
      exact Set.mem_insert _ _
    · intro owner other isOther same
      apply isNew
      have hasQue := sound.ques.owned owner other isOther
      rwa [same] at hasQue
  · exact entered.room
  · intro index isWritten
    obtain new | old := List.mem_cons.mp isWritten
    · rw [new]
      exact entered.room
    · exact sound.written index old

theorem plCommbufCreate_cases {ulBufSize ulBufNum : UInt32} :
    (¬registry.CreatesQue (.commbufCreate mallocs ulBufSize ulBufNum) ∧
        (registry.plCommbufCreate mallocs ulBufSize ulBufNum).2 = registry) ∨
      (registry.CreatesQue (.commbufCreate mallocs ulBufSize ulBufNum) ∧
        registry.Entered mallocs
          (registry.plCommbufCreate mallocs ulBufSize ulBufNum).2) := by
  unfold CreatesQue plCommbufCreate
  by_cases isBig : ulBufSize > MAX_COMMBUF_SIZE ∨
      ulBufNum > MAX_COMMBUF_ELEM_NUM
  · rw [if_pos isBig]
    refine .inl ⟨?_, rfl⟩
    rintro ⟨smallSize, few, -⟩
    obtain big | many := isBig
    · exact UInt32.not_lt.mpr smallSize big
    · exact UInt32.not_lt.mpr few many
  obtain ⟨smallSize, few⟩ := not_or.mp isBig
  rw [if_neg isBig]
  by_cases isFull : registry.commBuffers.total ≥ MAX_COMMBUF_NUM
  · rw [if_pos isFull]
    exact .inl ⟨fun creates => Nat.not_lt.mpr isFull creates.2.2.1, rfl⟩
  rw [if_neg isFull]
  cases isBuf : mallocs.bufCtrl with
  | none =>
      refine .inl ⟨?_, rfl⟩
      rintro ⟨-, -, -, hasBuf, -⟩
      rw [isBuf] at hasBuf
      cases hasBuf
  | some pstBufCtrl =>
      cases isStart : mallocs.bufStart with
      | none =>
          refine .inl ⟨?_, rfl⟩
          rintro ⟨-, -, -, -, hasStart, -⟩
          rw [isStart] at hasStart
          cases hasStart
      | some pucBufStart =>
          by_cases allocated : QueAllocated mallocs ulBufNum
          · obtain ⟨pstQueCtrl, isQue, queCtrl, isCreate⟩ :=
              @plQueCreate_of_allocated registry _ _ allocated
            refine .inr ⟨⟨UInt32.not_lt.mp smallSize, UInt32.not_lt.mp few,
              Nat.not_le.mp isFull, Option.isSome_of_eq_some isBuf,
              Option.isSome_of_eq_some isStart, allocated⟩,
              ⟨Nat.not_le.mp isFull, pstBufCtrl, isBuf, pstQueCtrl, isQue,
                .create (roundedSize ulBufSize) ulBufNum pucBufStart
                  (pucBufStart + (roundedSize ulBufSize * ulBufNum).toNat)
                  false queCtrl, ?_⟩⟩
            dsimp only
            rw [isCreate]
          · refine .inl ⟨fun creates => allocated creates.2.2.2.2.2, ?_⟩
            dsimp only
            rw [plQueCreate_of_not_allocated allocated]

theorem plCommbufCreateWithAddress_cases
    {pucBufStart pucBufEnd : Option Nat} {ulBufSize ulBufNum : UInt32} :
    (¬registry.CreatesQue (.commbufCreateWithAddress mallocs pucBufStart
          pucBufEnd ulBufSize ulBufNum) ∧
        (registry.plCommbufCreateWithAddress mallocs pucBufStart pucBufEnd
          ulBufSize ulBufNum).2 = registry) ∨
      (registry.CreatesQue (.commbufCreateWithAddress mallocs pucBufStart
          pucBufEnd ulBufSize ulBufNum) ∧
        registry.Entered mallocs
          (registry.plCommbufCreateWithAddress mallocs pucBufStart pucBufEnd
            ulBufSize ulBufNum).2) := by
  unfold CreatesQue plCommbufCreateWithAddress
  by_cases isFull : registry.commBuffers.total ≥ MAX_COMMBUF_NUM
  · rw [if_pos isFull]
    exact .inl ⟨fun creates => Nat.not_lt.mpr isFull creates.1, rfl⟩
  rw [if_neg isFull]
  cases pucBufStart with
  | none =>
      refine .inl ⟨?_, rfl⟩
      rintro ⟨-, -, ⟨start, isStart, -⟩, -⟩
      cases isStart
  | some start =>
      cases pucBufEnd with
      | none =>
          refine .inl ⟨?_, rfl⟩
          rintro ⟨-, -, ⟨start, -, -, isStop⟩, -⟩
          cases isStop
      | some stop =>
          by_cases isAligned : start % 4 = 0
          swap
          · refine .inl ⟨?_, ?_⟩
            · rintro ⟨-, -, ⟨other, isStart, aligned, -⟩, -⟩
              obtain rfl := Option.some.inj isStart
              exact isAligned aligned
            · dsimp only
              rw [if_pos isAligned]
          cases isBuf : mallocs.bufCtrl with
          | none =>
              refine .inl ⟨?_, ?_⟩
              · rintro ⟨-, hasBuf, -⟩
                rw [isBuf] at hasBuf
                cases hasBuf
              · dsimp only
                rw [if_neg (not_not.mpr isAligned)]
          | some pstBufCtrl =>
              by_cases isStop : start +
                  (roundedSize ulBufSize * ulBufNum).toNat = stop
              swap
              · refine .inl ⟨?_, ?_⟩
                · rintro ⟨-, -, ⟨other, isStart, -, isEnd⟩, -⟩
                  obtain rfl := Option.some.inj isStart
                  exact isStop (Option.some.inj isEnd).symm
                · dsimp only
                  rw [if_neg (not_not.mpr isAligned), if_pos isStop]
              by_cases allocated : QueAllocated mallocs ulBufNum
              · obtain ⟨pstQueCtrl, isQue, queCtrl, isCreate⟩ :=
                  @plQueCreate_of_allocated registry _ _ allocated
                refine .inr ⟨⟨Nat.not_le.mp isFull,
                  Option.isSome_of_eq_some isBuf,
                  ⟨start, rfl, isAligned, congrArg some isStop.symm⟩,
                  allocated⟩, ⟨Nat.not_le.mp isFull, pstBufCtrl, isBuf,
                    pstQueCtrl, isQue,
                    .create (roundedSize ulBufSize) ulBufNum start stop true
                      queCtrl, ?_⟩⟩
                dsimp only
                rw [if_neg (not_not.mpr isAligned),
                  if_neg (not_not.mpr isStop), isCreate]
              · refine .inl ⟨fun creates => allocated creates.2.2.2, ?_⟩
                dsimp only
                rw [if_neg (not_not.mpr isAligned),
                  if_neg (not_not.mpr isStop),
                  plQueCreate_of_not_allocated allocated]

/-- A live commbuf is destroyed with its queue or left as it is. -/
theorem Sound.plCommbufDestroy (sound : registry.Sound)
    (isLive : pstBufCtrl ∈ registry.liveBufs) :
    (registry.plCommbufDestroy pstBufCtrl).2.Sound := by
  obtain ⟨buf, isBuf⟩ := Option.isSome_iff_exists.mp isLive
  have isPlace : registry.commBuffers.position pstBufCtrl <
      registry.commBuffers.total :=
    Roster.position_lt_iff.mpr ((sound.bufs.mem_iff pstBufCtrl).mpr isLive)
  unfold Registry.plCommbufDestroy
  rw [isBuf]
  dsimp only
  by_cases isBusy : Platform.plCommbufDestroy buf.ctrl ≠ COMM_SUCC
  · rw [if_pos isBusy]
    exact sound
  rw [if_neg isBusy, if_neg (Nat.ne_of_lt isPlace)]
  have struck : QueSound { registry with
      commBuffers := registry.commBuffers.strike
        (registry.commBuffers.position pstBufCtrl) } :=
    ⟨sound.ques.lists, sound.ques.owned, sound.ques.own, sound.ques.room,
      sound.ques.written⟩
  have isTable : (release { registry with
      commBuffers := registry.commBuffers.strike
        (registry.commBuffers.position pstBufCtrl) } pstBufCtrl
        buf.que).commBuffers =
      registry.commBuffers.strike
        (registry.commBuffers.position pstBufCtrl) := by
    unfold release freeBuf plQueDestroy
    dsimp only
    split <;> rfl
  change (release _ pstBufCtrl buf.que).Sound
  constructor
  · rw [liveBufs_release, isTable]
    exact sound.bufs.strike isLive
  · exact struck.release isBuf
  · rw [isTable]
    exact (Nat.sub_le _ _).trans sound.room
  · intro index isWritten
    rw [isTable] at isWritten
    obtain new | old := List.mem_cons.mp isWritten
    · rw [new]
      exact Nat.lt_of_lt_of_le isPlace sound.room
    · exact sound.written index old

/-- The loop frees the commbufs of a list with their queues. -/
theorem QueSound.clear {members : List Nat} (sound : registry.QueSound)
    (distinct : members.Nodup)
    (mem_iff : ∀ member, member ∈ members ↔ member ∈ registry.liveBufs) :
    (members.foldl clearBuf registry).QueSound ∧
      (members.foldl clearBuf registry).liveBufs = ∅ ∧
      (members.foldl clearBuf registry).commBuffers = registry.commBuffers := by
  induction members generalizing registry with
  | nil =>
      refine ⟨sound, Set.eq_empty_iff_forall_notMem.mpr ?_, rfl⟩
      intro member isLive
      cases (mem_iff member).mpr isLive
  | cons pstBufCtrl members inductionHypothesis =>
      obtain ⟨isFirst, distinctRest⟩ := List.nodup_cons.mp distinct
      obtain ⟨buf, isBuf⟩ := Option.isSome_iff_exists.mp
        ((mem_iff pstBufCtrl).mp List.mem_cons_self)
      have isNext : registry.clearBuf pstBufCtrl =
          registry.release pstBufCtrl buf.que := by
        unfold clearBuf
        rw [isBuf]
        rfl
      have isTable : (registry.release pstBufCtrl buf.que).commBuffers =
          registry.commBuffers := by
        unfold Registry.release freeBuf Registry.plQueDestroy
        dsimp only
        split <;> rfl
      rw [List.foldl_cons, isNext, ← isTable]
      apply inductionHypothesis (sound.release isBuf) distinctRest
      intro member
      rw [liveBufs_release, Set.mem_sdiff, Set.mem_singleton_iff,
        ← mem_iff, List.mem_cons]
      constructor
      · intro isRest
        refine ⟨.inr isRest, ?_⟩
        rintro rfl
        exact isFirst isRest
      · rintro ⟨here | isRest, isOther⟩
        · exact absurd here isOther
        · exact isRest

theorem Sound.plCommbufClear (sound : registry.Sound) :
    registry.plCommbufClear.Sound := by
  obtain ⟨isSound, isNone, isTable⟩ :=
    sound.ques.clear sound.bufs.distinct sound.bufs.mem_iff
  unfold Registry.plCommbufClear
  constructor
  · constructor
    · exact List.nodup_nil
    · intro member
      constructor
      · intro isMember
        cases isMember
      · intro isLive
        change member ∈ (registry.commBuffers.members.foldl clearBuf
          registry).liveBufs at isLive
        rw [isNone] at isLive
        cases isLive
  · exact ⟨isSound.lists, isSound.owned, isSound.own, isSound.room,
      isSound.written⟩
  · exact Nat.zero_le _
  · intro index isWritten
    apply sound.written
    rw [← isTable]
    exact isWritten

/-- A standalone queue is created, or nothing happens. -/
theorem plQueCreate_cases :
    (¬QueAllocated mallocs ulElemNum ∧
        (registry.plQueCreate mallocs ulElemNum).2 = registry) ∨
      (QueAllocated mallocs ulElemNum ∧ ∃ pstQueCtrl ∈ mallocs.queCtrl,
        (registry.plQueCreate mallocs ulElemNum).2 =
          registry.addQue pstQueCtrl) := by
  by_cases allocated : QueAllocated mallocs ulElemNum
  · obtain ⟨pstQueCtrl, isQue, queCtrl, isCreate⟩ :=
      @plQueCreate_of_allocated registry _ _ allocated
    refine .inr ⟨allocated, pstQueCtrl, isQue, ?_⟩
    rw [isCreate]
  · refine .inl ⟨allocated, ?_⟩
    rw [plQueCreate_of_not_allocated allocated]

/-- What a call that has room leaves is sound. -/
theorem Sound.step (sound : registry.Sound) {call : RegistryCall}
    {next : Registry} (hasRoom : registry.HasRoom call)
    (step : Step registry call next) :
    next.Sound := by
  cases step with
  | commbufCreate fresh =>
      obtain ⟨-, same⟩ | ⟨creates, entered⟩ := plCommbufCreate_cases
      · rw [same]
        exact sound
      · exact sound.entered entered fresh (hasRoom creates)
  | commbufCreateWithAddress fresh =>
      obtain ⟨-, same⟩ | ⟨creates, entered⟩ :=
        plCommbufCreateWithAddress_cases
      · rw [same]
        exact sound
      · exact sound.entered entered fresh (hasRoom creates)
  | commbufDestroy isLive => exact sound.plCommbufDestroy isLive
  | queCreate fresh =>
      obtain ⟨-, same⟩ | ⟨allocated, pstQueCtrl, isQue, isNext⟩ :=
        plQueCreate_cases
      · rw [same]
        exact sound
      · rw [isNext]
        exact ⟨sound.bufs,
          sound.ques.addQue (fresh.que pstQueCtrl isQue) (hasRoom allocated),
          sound.room, sound.written⟩
  | queDestroy isLive isFree =>
      obtain ⟨isNext, -⟩ := plQueDestroy_of_live sound.ques isLive
      have queSound := sound.ques.plQueDestroy isLive isFree
      rw [isNext] at queSound ⊢
      exact ⟨sound.bufs, queSound, sound.room, sound.written⟩
  | commbufClear => exact sound.plCommbufClear

/-- A queue is written to the place after the last. -/
theorem hasRoom_of_exact {call : RegistryCall} {next : Registry}
    (step : Step registry call next) (exact : next.Exact) :
    registry.HasRoom call := by
  intro creates
  cases step with
  | commbufCreate fresh =>
      obtain ⟨isNot, -⟩ | ⟨-, entered⟩ := plCommbufCreate_cases
      · exact absurd creates isNot
      · apply exact.queIndices
        rw [entered.written]
        exact List.mem_cons_self
  | commbufCreateWithAddress fresh =>
      obtain ⟨isNot, -⟩ | ⟨-, entered⟩ := plCommbufCreateWithAddress_cases
      · exact absurd creates isNot
      · apply exact.queIndices
        rw [entered.written]
        exact List.mem_cons_self
  | queCreate fresh =>
      obtain ⟨isNot, -⟩ | ⟨-, pstQueCtrl, -, isNext⟩ := plQueCreate_cases
      · exact absurd creates isNot
      · apply exact.queIndices
        rw [isNext]
        exact List.mem_cons_self
  | commbufDestroy isLive => exact creates.elim
  | queDestroy isLive isFree => exact creates.elim
  | commbufClear => exact creates.elim

theorem Step.functional {call : RegistryCall} {next other : Registry}
    (first : Step registry call next) (second : Step registry call other) :
    next = other := by
  cases first <;> cases second <;> rfl

/-- The tables are exact after every call exactly when every queue that is
created finds room in its table. -/
theorem hasRoom_iff_exact {calls : List RegistryCall} {final : Registry}
    (run : Run Step start calls final) :
    Along Step HasRoom start calls ↔
      ∀ registry, Reached Step start calls registry → registry.Exact := by
  refine Along.iff_reached_of_kept Sound
    (fun _ _ _ _ first second => first.functional second) ?_ ?_ start_sound
    start_sound.exact run
  · intro registry call next sound _ hasRoom step
    exact sound.step hasRoom step
  · intro registry call next sound _ step
    constructor
    · intro hasRoom
      exact (sound.step hasRoom step).exact
    · intro exact
      exact hasRoom_of_exact step exact

/-- The memory for a queue at an address. -/
def queMallocs (pstQueCtrl : Nat) : Mallocs where
  bufCtrl := none
  bufStart := none
  queCtrl := some pstQueCtrl
  queElem := some pstQueCtrl
  memory := fun _ => 0

theorem fresh_queMallocs (isNew : pstQueCtrl ∉ registry.liveQues) :
    registry.Fresh (queMallocs pstQueCtrl) where
  buf := by
    intro owner isNone
    cases isNone
  que := by
    intro other isOther
    obtain rfl := Option.some.inj isOther
    exact isNew

/-- The memory for a commbuf and its queue. -/
def bufMallocs (pstBufCtrl pstQueCtrl : Nat) : Mallocs :=
  { queMallocs pstQueCtrl with
    bufCtrl := some pstBufCtrl
    bufStart := some 65536 }

/-- Two queues and a commbuf are created, and one queue and the commbuf are
destroyed. -/
def someCalls : List RegistryCall :=
  [.queCreate (queMallocs 4096) 8, .queCreate (queMallocs 8192) 8,
    .queDestroy 4096, .commbufCreate (bufMallocs 12288 16384) 16 2,
    .commbufDestroy 12288]

/-- The tables are exact after these calls. -/
theorem hasRoom_iff_exact_someCalls :
    ∃ final, Run Step start someCalls final ∧ final.Exact := by
  have possible : ∃ final, Run Step start someCalls final := by
    refine ⟨_, .cons (.queCreate (fresh_queMallocs nofun))
      (.cons (.queCreate (fresh_queMallocs ?_))
      (.cons (.queDestroy rfl ?_)
      (.cons (.commbufCreate ⟨?_, ?_⟩)
      (.cons (.commbufDestroy ?_) (.nil _)))))⟩
    · intro isLive
      cases isLive
    · intro owner buf isBuf
      cases isBuf
    · intro owner _ isLive
      cases isLive
    · intro other isOther isLive
      obtain rfl := Option.some.inj isOther
      cases isLive
    · rfl
  obtain ⟨final, run⟩ := possible
  refine ⟨final, run, (hasRoom_iff_exact run).mp ?_ _
    ⟨_, [], (List.append_nil _).symm, run⟩⟩
  refine ⟨fun _ => by decide, ?_⟩
  rintro _ ⟨⟩
  refine ⟨fun _ => by decide, ?_⟩
  rintro _ ⟨⟩
  refine ⟨fun creates => creates.elim, ?_⟩
  rintro _ ⟨⟩
  refine ⟨fun _ => by decide, ?_⟩
  rintro _ ⟨⟩
  exact ⟨fun creates => creates.elim, fun _ _ => trivial⟩

/-- The registry after some queues. -/
def manyQues : Nat → Registry
  | 0 => start
  | count + 1 => (manyQues count).addQue (count + 1)

@[simp]
theorem total_manyQues (count : Nat) : (manyQues count).ques.total = count := by
  induction count with
  | zero => rfl
  | succ count inductionHypothesis =>
      exact congrArg (· + 1) inductionHypothesis

theorem le_of_mem_manyQues {count : Nat}
    (isLive : pstQueCtrl ∈ (manyQues count).liveQues) :
    pstQueCtrl ≤ count := by
  induction count with
  | zero => cases isLive
  | succ count inductionHypothesis =>
      rw [manyQues, liveQues_addQue] at isLive
      obtain rfl | isOld := isLive
      · exact Nat.le_refl _
      · exact (inductionHypothesis isOld).trans (Nat.le_succ _)

theorem run_manyQues (count : Nat) :
    Run Step start
      ((List.range count).map fun index =>
        .queCreate (queMallocs (index + 1)) 0)
      (manyQues count) := by
  induction count with
  | zero => exact .nil start
  | succ count inductionHypothesis =>
      rw [List.range_succ, List.map_append]
      apply inductionHypothesis.concat
      have fresh : (manyQues count).Fresh (queMallocs (count + 1)) :=
        fresh_queMallocs fun isLive =>
          Nat.not_succ_le_self _ (le_of_mem_manyQues isLive)
      exact .queCreate fresh

/-- The 129th queue is written behind its table. -/
theorem exists_not_exact_many :
    ¬∀ (calls : List RegistryCall) (final : Registry),
      Run Step start calls final → final.Exact := by
  intro always
  have exact := always _ _ (run_manyQues 129)
  have isOutside := exact.queIndices (manyQues 128).ques.total
    List.mem_cons_self
  rw [total_manyQues] at isOutside
  exact absurd isOutside (by decide)

end Registry

end Platform
end Pilot2Cloud
