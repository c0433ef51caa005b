import Mathlib
import Pilot2Cloud.Foundation.StoredRing

/-!
# Queues of numbers

A queue is an array with one place more than it has elements.  The place after
the last element stays free.
-/

namespace Pilot2Cloud
namespace Platform

open Foundation

/-- `U32_INFINITY`. -/
def U32_INFINITY : UInt32 := 0xffffffff

/-- `COMM_SUCC`. -/
def COMM_SUCC : UInt32 := 0

/-- `COMM_FAIL`. -/
def COMM_FAIL : UInt32 := 0xffff

/-- `MAX_QUE_ELEM_NUM`. -/
def MAX_QUE_ELEM_NUM : UInt32 := 1024 * 1024

/-- `QUE_CTRL_S`.  The ring has the head, the tail and one place more than
`ulElemNum`. -/
structure QueCtrl where
  elems : StoredRing UInt32
  ullInCnt : UInt64
  ullOutCnt : UInt64

namespace QueCtrl

variable (que : QueCtrl)

/-- The elements in order. -/
def contents : List UInt32 :=
  que.elems.contents

/-- The number of elements for which there is room. -/
def ulElemNum : Nat :=
  que.elems.ring.size - 1

end QueCtrl

/-- `pl_que_create`, with what is in the memory of the array. -/
def plQueCreate (memory : Nat → UInt32) (ulElemNum : UInt32) :
    Option QueCtrl :=
  if ulElemNum > MAX_QUE_ELEM_NUM then none
  else some {
    elems := ⟨.empty (ulElemNum.toNat + 1) (Nat.succ_pos _), memory⟩
    ullInCnt := 0
    ullOutCnt := 0 }

/-- `pl_que_get`. -/
def plQueGet (que : QueCtrl) : UInt32 × QueCtrl :=
  if que.elems.ring.head = que.elems.ring.tail then (U32_INFINITY, que)
  else (que.elems.first, {
    elems := que.elems.rest
    ullInCnt := que.ullInCnt
    ullOutCnt := que.ullOutCnt + 1 })

/-- `pl_que_put`. -/
def plQuePut (que : QueCtrl) (ulElemPut : UInt32) : UInt32 × QueCtrl :=
  let ulNewQueTail := (que.elems.ring.tail + 1) % que.elems.ring.size
  if ulNewQueTail = que.elems.ring.head then (COMM_FAIL, que)
  else (COMM_SUCC, {
    elems := que.elems.put ulElemPut
    ullInCnt := que.ullInCnt + 1
    ullOutCnt := que.ullOutCnt })

/-- `pl_que_avail_num`. -/
def plQueAvailNum (que : QueCtrl) : Nat :=
  let ulQueHead := que.elems.ring.head
  let ulQueTail := que.elems.ring.tail
  let ulQueTail :=
    if ulQueHead > ulQueTail then ulQueTail + que.elems.ring.size
    else ulQueTail
  ulQueTail - ulQueHead

variable {que : QueCtrl}

/-- A new queue is empty. -/
theorem plQueCreate_eq_some {memory : Nat → UInt32} {ulElemNum : UInt32}
    (created : plQueCreate memory ulElemNum = some que) :
    que.contents = [] ∧ que.ulElemNum = ulElemNum.toNat ∧
      ulElemNum.toNat ≤ 1024 * 1024 := by
  unfold plQueCreate at created
  split at created
  case isTrue => cases created
  case isFalse inside =>
    obtain rfl := Option.some.inj created
    refine ⟨?_, rfl, UInt32.le_iff_toNat_le.mp (UInt32.not_lt.mp inside)⟩
    rw [QueCtrl.contents, StoredRing.contents, IndexRing.slots_empty,
      List.map_nil]

theorem exists_plQueCreate {memory : Nat → UInt32} {ulElemNum : UInt32}
    (isFew : ulElemNum ≤ MAX_QUE_ELEM_NUM) :
    ∃ que, plQueCreate memory ulElemNum = some que := by
  unfold plQueCreate
  rw [if_neg (UInt32.not_lt.mpr isFew)]
  exact ⟨_, rfl⟩

@[simp] theorem plQueAvailNum_eq : plQueAvailNum que = que.contents.length := by
  rw [QueCtrl.contents, StoredRing.length_contents, IndexRing.length_eq]
  unfold plQueAvailNum
  dsimp only
  split <;> split <;> omega

theorem plQueGet_of_nil (isEmpty : que.contents = []) :
    plQueGet que = (U32_INFINITY, que) := by
  unfold plQueGet
  rw [if_pos (StoredRing.contents_eq_nil_iff.mp isEmpty).symm]

/-- What is taken is the first element. -/
theorem plQueGet_of_cons {elem : UInt32} {others : List UInt32}
    (isCons : que.contents = elem :: others) :
    (plQueGet que).1 = elem ∧ (plQueGet que).2.contents = others ∧
      (plQueGet que).2.ulElemNum = que.ulElemNum := by
  have notEmpty : que.elems.ring.tail ≠ que.elems.ring.head := by
    intro isEmpty
    rw [QueCtrl.contents, StoredRing.contents_eq_nil_iff.mpr isEmpty] at isCons
    cases isCons
  have split := StoredRing.contents_eq_cons notEmpty
  obtain ⟨isFirst, isRest⟩ := List.cons.inj (isCons.symm.trans split)
  unfold plQueGet
  rw [if_neg notEmpty.symm]
  exact ⟨isFirst.symm, isRest.symm, rfl⟩

theorem length_contents_le : que.contents.length ≤ que.ulElemNum := by
  have bound := que.elems.ring.length_lt_size
  rw [QueCtrl.contents, StoredRing.length_contents, QueCtrl.ulElemNum]
  omega

/-- An element for which there is room becomes the last one. -/
theorem plQuePut_of_lt {elem : UInt32}
    (room : que.contents.length < que.ulElemNum) :
    (plQuePut que elem).1 = COMM_SUCC ∧
      (plQuePut que elem).2.contents = que.contents ++ [elem] ∧
      (plQuePut que elem).2.ulElemNum = que.ulElemNum := by
  have notFull : ¬que.elems.ring.Full := by
    rw [IndexRing.full_iff]
    rw [QueCtrl.contents, StoredRing.length_contents, QueCtrl.ulElemNum] at room
    omega
  have isPut : plQuePut que elem = (COMM_SUCC, {
      elems := que.elems.put elem
      ullInCnt := que.ullInCnt + 1
      ullOutCnt := que.ullOutCnt }) := if_neg notFull
  rw [isPut]
  exact ⟨rfl, StoredRing.contents_put notFull, rfl⟩

end Platform
end Pilot2Cloud
