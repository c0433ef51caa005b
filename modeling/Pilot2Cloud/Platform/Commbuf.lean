import Pilot2Cloud.Platform.Que

/-!
# Buffers of blocks

A commbuf is an area of memory that is cut into blocks of one size.  Its queue
has the indices of the blocks that are free.  When there is none, a buffer that
owns its memory takes a block from the system.
-/

namespace Pilot2Cloud
namespace Platform

open Foundation

/-- `MAX_COMMBUF_NUM`. -/
def MAX_COMMBUF_NUM : Nat := 64

/-- `MAX_COMMBUF_SIZE`. -/
def MAX_COMMBUF_SIZE : UInt32 := 1024

/-- `MAX_COMMBUF_ELEM_NUM`. -/
def MAX_COMMBUF_ELEM_NUM : UInt32 := 1024 * 1024

/-- `BUF_CTRL_S`, with addresses as numbers. -/
structure BufCtrl where
  ulBufSize : UInt32
  ulBufNum : UInt32
  pucBufStart : Nat
  pucBufEnd : Nat
  pstQueCtrl : QueCtrl
  ullInCnt : UInt64
  ullOutCnt : UInt64
  ulUrgentUsedNum : UInt32
  ulMaxUsedNum : UInt32
  ucWithAddress : Bool

/-- The size of a block, a multiple of 4. -/
def roundedSize (ulBufSize : UInt32) : UInt32 :=
  (ulBufSize + 3) &&& 0xfffffffc

/-- Every index is put into the queue. -/
def putIndices (pstQueCtrl : QueCtrl) (ulBufNum : Nat) : QueCtrl :=
  (List.range ulBufNum).foldl
    (fun que ulBufIdx => (plQuePut que (UInt32.ofNat ulBufIdx)).2) pstQueCtrl

/-- What a constructor writes to the control block. -/
def BufCtrl.create (ulBufSize ulBufNum : UInt32) (pucBufStart pucBufEnd : Nat)
    (ucWithAddress : Bool) (pstQueCtrl : QueCtrl) : BufCtrl where
  ulBufSize := ulBufSize
  ulBufNum := ulBufNum
  pucBufStart := pucBufStart
  pucBufEnd := pucBufEnd
  pstQueCtrl := putIndices pstQueCtrl ulBufNum.toNat
  ullInCnt := 0
  ullOutCnt := 0
  ulUrgentUsedNum := 0
  ulMaxUsedNum := 0
  ucWithAddress := ucWithAddress

/-- `pl_commbuf_create` where the tables have room and the system has memory: the
blocks start at an address. -/
def plCommbufCreate (memory : Nat → UInt32) (pucBufStart : Nat)
    (ulBufSize ulBufNum : UInt32) : Option BufCtrl :=
  if ulBufSize > MAX_COMMBUF_SIZE ∨ ulBufNum > MAX_COMMBUF_ELEM_NUM then none
  else
    let ulBufSize := roundedSize ulBufSize
    (plQueCreate memory ulBufNum).map fun pstQueCtrl =>
      .create ulBufSize ulBufNum pucBufStart
        (pucBufStart + (ulBufSize * ulBufNum).toNat) false pstQueCtrl

/-- `pl_commbuf_create_with_address` where the tables have room and the system
has memory. -/
def plCommbufCreateWithAddress (memory : Nat → UInt32)
    (pucBufStart pucBufEnd : Nat) (ulBufSize ulBufNum : UInt32) :
    Option BufCtrl :=
  if pucBufStart % 4 ≠ 0 then none
  else
    let ulBufSize := roundedSize ulBufSize
    if pucBufStart + (ulBufSize * ulBufNum).toNat ≠ pucBufEnd then none
    else
      (plQueCreate memory ulBufNum).map fun pstQueCtrl =>
        .create ulBufSize ulBufNum pucBufStart pucBufEnd true pstQueCtrl

/-- `pl_commbuf_malloc`, with what `malloc` returns. -/
def plCommbufMalloc (ulSize : UInt32) (malloced : Option Nat) : Option Nat :=
  if ulSize ≠ 0 then malloced else none

/-- `pl_commbuf_avail_num`. -/
def plCommbufAvailNum (pstBufCtrl : BufCtrl) : UInt32 :=
  UInt32.ofNat (plQueAvailNum pstBufCtrl.pstQueCtrl)

/-- `pl_commbuf_get`, with what `malloc` returns if it is called. -/
def plCommbufGet (pstBufCtrl : BufCtrl) (malloced : Option Nat) :
    Option Nat × BufCtrl :=
  let (pRet, que) := plQueGet pstBufCtrl.pstQueCtrl
  let pstBufCtrl := { pstBufCtrl with pstQueCtrl := que }
  if pRet = U32_INFINITY then
    if pstBufCtrl.ucWithAddress then (none, pstBufCtrl)
    else
      match plCommbufMalloc pstBufCtrl.ulBufSize malloced with
      | none => (none, pstBufCtrl)
      | some address =>
          let ulUrgentUsedNum := pstBufCtrl.ulUrgentUsedNum + 1
          let ulUsedNum := pstBufCtrl.ulBufNum + ulUrgentUsedNum
          (some address, { pstBufCtrl with
            ulUrgentUsedNum
            ulMaxUsedNum :=
              if ulUsedNum > pstBufCtrl.ulMaxUsedNum then ulUsedNum
              else pstBufCtrl.ulMaxUsedNum })
  else
    let ulUsedNum := pstBufCtrl.ulBufNum - UInt32.ofNat (plQueAvailNum que)
    (some (pstBufCtrl.pucBufStart + pRet.toNat * pstBufCtrl.ulBufSize.toNat),
      { pstBufCtrl with
        ullOutCnt := pstBufCtrl.ullOutCnt + 1
        ulMaxUsedNum :=
          if ulUsedNum > pstBufCtrl.ulMaxUsedNum then ulUsedNum
          else pstBufCtrl.ulMaxUsedNum })

/-- `pl_commbuf_ret`. -/
def plCommbufRet (pstBufCtrl : BufCtrl) (pBufRet : Option Nat) :
    UInt32 × BufCtrl :=
  match pBufRet with
  | none => (COMM_FAIL, pstBufCtrl)
  | some pBufRet =>
      if pBufRet < pstBufCtrl.pucBufStart ∨ pBufRet ≥ pstBufCtrl.pucBufEnd then
        if pstBufCtrl.ucWithAddress then (COMM_FAIL, pstBufCtrl)
        else (COMM_SUCC, { pstBufCtrl with
          ulUrgentUsedNum := pstBufCtrl.ulUrgentUsedNum - 1 })
      else
        let ulBufIndex :=
          UInt32.ofNat (pBufRet - pstBufCtrl.pucBufStart) /
            pstBufCtrl.ulBufSize
        let (usRslt, que) := plQuePut pstBufCtrl.pstQueCtrl ulBufIndex
        if usRslt ≠ COMM_SUCC then
          (COMM_FAIL, { pstBufCtrl with pstQueCtrl := que })
        else (COMM_SUCC, { pstBufCtrl with
          pstQueCtrl := que
          ullInCnt := pstBufCtrl.ullInCnt + 1 })

/-- The part of `pl_commbuf_clear_statics` for one buffer. -/
def plCommbufClearStatics (pstBufCtrl : BufCtrl) : BufCtrl :=
  { pstBufCtrl with
    ullInCnt := 0
    ullOutCnt := 0
    ulUrgentUsedNum := 0
    ulMaxUsedNum := 0 }

/-- What `pl_commbuf_destroy` returns. -/
def plCommbufDestroy (pstBufCtrl : BufCtrl) : UInt32 :=
  if plCommbufAvailNum pstBufCtrl ≠ pstBufCtrl.ulBufNum then 1 else COMM_SUCC

/-! ## The queue of a new buffer -/

theorem toNat_roundedSize_le {ulBufSize : UInt32} :
    (roundedSize ulBufSize).toNat ≤ ulBufSize.toNat + 3 :=
  calc
    (roundedSize ulBufSize).toNat ≤ (ulBufSize + 3).toNat := by
      unfold roundedSize
      rw [UInt32.toNat_and]
      exact Nat.and_le_left
    _ ≤ ulBufSize.toNat + 3 := by
      rw [UInt32.toNat_add]
      exact Nat.mod_le _ _

theorem contents_putIndices {que : QueCtrl} {ulBufNum : Nat}
    (isEmpty : que.contents = []) (room : ulBufNum ≤ que.ulElemNum) :
    (putIndices que ulBufNum).contents =
        (List.range ulBufNum).map UInt32.ofNat ∧
      (putIndices que ulBufNum).ulElemNum = que.ulElemNum := by
  induction ulBufNum with
  | zero => exact ⟨isEmpty, rfl⟩
  | succ ulBufNum inductionHypothesis =>
      obtain ⟨isContents, isNum⟩ := inductionHypothesis (by omega)
      have isPut : putIndices que (ulBufNum + 1) =
          (plQuePut (putIndices que ulBufNum) (UInt32.ofNat ulBufNum)).2 := by
        unfold putIndices
        rw [List.range_succ, List.foldl_append]
        rfl
      have count : (putIndices que ulBufNum).contents.length = ulBufNum := by
        rw [isContents, List.length_map, List.length_range]
      obtain ⟨-, isPutContents, isPutNum⟩ :=
        @plQuePut_of_lt (putIndices que ulBufNum) (UInt32.ofNat ulBufNum)
          (by omega)
      rw [isPut, isPutContents, isPutNum, isContents, isNum, List.range_succ,
        List.map_append]
      exact ⟨rfl, rfl⟩

/-! ## What a call does -/

/-- Two states of a control block are about the same blocks. -/
structure BufCtrl.SameBlocks (pstBufCtrl next : BufCtrl) : Prop where
  size : next.ulBufSize = pstBufCtrl.ulBufSize
  num : next.ulBufNum = pstBufCtrl.ulBufNum
  start : next.pucBufStart = pstBufCtrl.pucBufStart
  stop : next.pucBufEnd = pstBufCtrl.pucBufEnd
  elems : next.pstQueCtrl.ulElemNum = pstBufCtrl.pstQueCtrl.ulElemNum
  withAddress : next.ucWithAddress = pstBufCtrl.ucWithAddress

/-- The indices of the free blocks. -/
def BufCtrl.free (pstBufCtrl : BufCtrl) : List UInt32 :=
  pstBufCtrl.pstQueCtrl.contents

variable {pstBufCtrl : BufCtrl} {malloced : Option Nat} {index : UInt32}
  {others : List UInt32} {pBufRet : Nat}

/-- A free block is given out. -/
theorem plCommbufGet_of_cons (isFree : pstBufCtrl.free = index :: others)
    (isIndex : index ≠ U32_INFINITY) :
    ∃ next, plCommbufGet pstBufCtrl malloced =
        (some (pstBufCtrl.pucBufStart +
          index.toNat * pstBufCtrl.ulBufSize.toNat), next) ∧
      pstBufCtrl.SameBlocks next ∧ next.free = others ∧
      next.ulUrgentUsedNum = pstBufCtrl.ulUrgentUsedNum := by
  obtain ⟨isFirst, isRest, isNum⟩ := plQueGet_of_cons isFree
  unfold plCommbufGet
  generalize plQueGet pstBufCtrl.pstQueCtrl = taken at *
  obtain ⟨pRet, que⟩ := taken
  dsimp only at isFirst isRest isNum ⊢
  rw [isFirst, if_neg isIndex]
  exact ⟨_, rfl, ⟨rfl, rfl, rfl, rfl, isNum, rfl⟩, isRest, rfl⟩

/-- Without a free block a buffer on the caller's memory has none to give. -/
theorem plCommbufGet_of_withAddress (isEmpty : pstBufCtrl.free = [])
    (withAddress : pstBufCtrl.ucWithAddress = true) :
    plCommbufGet pstBufCtrl malloced = (none, pstBufCtrl) := by
  unfold plCommbufGet
  rw [plQueGet_of_nil isEmpty]
  dsimp only
  rw [if_pos rfl, if_pos withAddress]

/-- A buffer that owns its memory asks the system. -/
theorem plCommbufGet_of_nil (isEmpty : pstBufCtrl.free = [])
    (owns : pstBufCtrl.ucWithAddress = false) :
    ∃ next, plCommbufGet pstBufCtrl malloced =
        (plCommbufMalloc pstBufCtrl.ulBufSize malloced, next) ∧
      pstBufCtrl.SameBlocks next ∧ next.free = [] ∧
      next.ulUrgentUsedNum =
        if (plCommbufMalloc pstBufCtrl.ulBufSize malloced).isSome then
          pstBufCtrl.ulUrgentUsedNum + 1
        else pstBufCtrl.ulUrgentUsedNum := by
  unfold plCommbufGet
  rw [plQueGet_of_nil isEmpty]
  dsimp only
  rw [if_pos rfl, if_neg (Bool.eq_false_iff.mp owns)]
  cases plCommbufMalloc pstBufCtrl.ulBufSize malloced with
  | none => exact ⟨_, rfl, ⟨rfl, rfl, rfl, rfl, rfl, rfl⟩, isEmpty, rfl⟩
  | some address =>
      exact ⟨_, rfl, ⟨rfl, rfl, rfl, rfl, rfl, rfl⟩, isEmpty, rfl⟩

/-- The index of a block of the buffer is put into the queue. -/
theorem plCommbufRet_inside
    (isInside : pstBufCtrl.pucBufStart ≤ pBufRet ∧
      pBufRet < pstBufCtrl.pucBufEnd)
    (room : pstBufCtrl.free.length < pstBufCtrl.pstQueCtrl.ulElemNum) :
    ∃ next, plCommbufRet pstBufCtrl (some pBufRet) = (COMM_SUCC, next) ∧
      pstBufCtrl.SameBlocks next ∧
      next.free = pstBufCtrl.free ++
        [UInt32.ofNat (pBufRet - pstBufCtrl.pucBufStart) /
          pstBufCtrl.ulBufSize] ∧
      next.ulUrgentUsedNum = pstBufCtrl.ulUrgentUsedNum := by
  obtain ⟨isSuccess, isContents, isNum⟩ :=
    @plQuePut_of_lt pstBufCtrl.pstQueCtrl
      (UInt32.ofNat (pBufRet - pstBufCtrl.pucBufStart) /
        pstBufCtrl.ulBufSize) room
  unfold plCommbufRet
  dsimp only
  rw [if_neg (by omega)]
  generalize plQuePut pstBufCtrl.pstQueCtrl _ = returned at *
  obtain ⟨usRslt, que⟩ := returned
  dsimp only at isSuccess isContents isNum ⊢
  rw [isSuccess, if_neg (not_not.mpr rfl)]
  exact ⟨_, rfl, ⟨rfl, rfl, rfl, rfl, isNum, rfl⟩, isContents, rfl⟩

/-- Any other block is taken for one of the system. -/
theorem plCommbufRet_outside
    (isOutside : pBufRet < pstBufCtrl.pucBufStart ∨
      pBufRet ≥ pstBufCtrl.pucBufEnd)
    (owns : pstBufCtrl.ucWithAddress = false) :
    plCommbufRet pstBufCtrl (some pBufRet) = (COMM_SUCC, { pstBufCtrl with
      ulUrgentUsedNum := pstBufCtrl.ulUrgentUsedNum - 1 }) := by
  unfold plCommbufRet
  dsimp only
  rw [if_pos isOutside, if_neg (Bool.eq_false_iff.mp owns)]

end Platform
end Pilot2Cloud
