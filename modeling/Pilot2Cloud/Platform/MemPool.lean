import Pilot2Cloud.Foundation.Regions
import Pilot2Cloud.Platform.Commbuf

/-!
# The memory pool

Six commbufs with blocks of different sizes lie one after the other in one area
of memory.  A request is served from the first of them whose blocks are large
enough, from a later one, or by the system.  The owner of a block is found from
its address.
-/

namespace Pilot2Cloud
namespace Platform

open Foundation

/-- `MAX_MEMPOOL_NUMBER`. -/
abbrev MAX_MEMPOOL_NUMBER : Nat := 6

/-- The sizes of the blocks of the six pools. -/
def aulBlockSize : Fin MAX_MEMPOOL_NUMBER → UInt32 :=
  ![256, 1024, 1536, 4096, 8192, 64000]

/-- The numbers of the blocks of the six pools. -/
def aulBlockNum : Fin MAX_MEMPOOL_NUMBER → UInt32 :=
  ![48000, 12000, 8000, 3000, 1500, 192]

/-- `ulBlockPoolUnit`. -/
def ulBlockPoolUnit : Nat :=
  (aulBlockSize 0 * aulBlockNum 0).toNat

/-- The first pool for a number of started 256 bytes. -/
def aulMallocBufOffset : List Nat :=
  [0, 1, 1, 1, 2, 2] ++ List.replicate 10 3 ++ List.replicate 16 4 ++
    List.replicate 218 5

/-- `pucMemPoolStart`, `pucMemPoolEnd` and `pBufMem`. -/
structure MemPool where
  pucMemPoolStart : Nat
  pucMemPoolEnd : Nat
  pBufMem : Fin MAX_MEMPOOL_NUMBER → BufCtrl

namespace MemPool

variable (pool : MemPool)

/-- One of the commbufs changes. -/
def set (ulBufOffset : Fin MAX_MEMPOOL_NUMBER) (pstBufCtrl : BufCtrl) :
    MemPool :=
  { pool with pBufMem := Function.update pool.pBufMem ulBufOffset pstBufCtrl }

/-- The memory of all pools. -/
def area : Region :=
  ⟨pool.pucMemPoolStart, pool.pucMemPoolEnd - pool.pucMemPoolStart⟩

end MemPool

/-- Where the blocks of a commbuf start. -/
def poolStart (pucMemPoolStart ulBufOffset : Nat) : Nat :=
  pucMemPoolStart +
    (((List.finRange MAX_MEMPOOL_NUMBER).take ulBufOffset).map fun offset =>
      (aulBlockSize offset * aulBlockNum offset).toNat).sum

/-- One round of the loop in `pf_mem_pool_init`. -/
def initPool (memory : Nat → UInt32) (pucMemPoolStart : Nat)
    (offset : Fin MAX_MEMPOOL_NUMBER) : Option BufCtrl :=
  plCommbufCreateWithAddress memory (poolStart pucMemPoolStart offset)
    (poolStart pucMemPoolStart offset +
      (aulBlockSize offset * aulBlockNum offset).toNat)
    (aulBlockSize offset) (aulBlockNum offset)

/-- `pf_mem_pool_init`, with what `malloc` returns. -/
def pfMemPoolInit (memory : Nat → UInt32) (malloced : Option Nat) :
    Option MemPool :=
  match malloced with
  | none => none
  | some pucMemPoolStart =>
      if created : ∀ offset, (initPool memory pucMemPoolStart offset).isSome then
        some {
          pucMemPoolStart
          pucMemPoolEnd := poolStart pucMemPoolStart MAX_MEMPOOL_NUMBER
          pBufMem := fun offset =>
            (initPool memory pucMemPoolStart offset).get (created offset) }
      else none

/-- The loop of `pf_malloc`. -/
def mallocFrom (pool : MemPool) :
    List (Fin MAX_MEMPOOL_NUMBER) → Option Nat × MemPool
  | [] => (none, pool)
  | offset :: offsets =>
      match plCommbufGet (pool.pBufMem offset) none with
      | (some pAddr, pstBufCtrl) => (some pAddr, pool.set offset pstBufCtrl)
      | (none, pstBufCtrl) => mallocFrom (pool.set offset pstBufCtrl) offsets

/-- `pf_malloc`, with what `malloc` returns if it is called. -/
def pfMalloc (pool : MemPool) (ulSize : UInt32) (malloced : Option Nat) :
    Option Nat × MemPool :=
  if ulSize > aulBlockSize 5 then (plCommbufMalloc ulSize malloced, pool)
  else if ulSize > 0 then
    let ulSizeOffset := (ulSize - 1) >>> 8
    let ulOffset := aulMallocBufOffset.getD ulSizeOffset.toNat 0
    match mallocFrom pool
        ((List.finRange MAX_MEMPOOL_NUMBER).drop ulOffset) with
    | (some pAddr, pool) => (some pAddr, pool)
    | (none, pool) => (plCommbufMalloc ulSize malloced, pool)
  else (none, pool)

/-- The commbuf that has the block at an address. -/
def ownerOf (pool : MemPool) (address : Nat) : Fin MAX_MEMPOOL_NUMBER :=
  Fin.ofNat MAX_MEMPOOL_NUMBER
    ((address - pool.pucMemPoolStart) / ulBlockPoolUnit)

/-- `pf_realloc`, with what `malloc` returns, and what `realloc` returns and
leaves in memory. -/
def pfRealloc (pool : MemPool) (memory : FlatMemory) (pSrcAddr : Option Nat)
    (ulSize : UInt32) (malloced : Option Nat)
    (realloced : Option (Nat × FlatMemory)) :
    Option Nat × MemPool × FlatMemory :=
  match pSrcAddr with
  | none => (none, pool, memory)
  | some pSrcAddr =>
      if ulSize = 0 then (none, pool, memory)
      else if pSrcAddr ≥ pool.pucMemPoolStart ∧
          pSrcAddr < pool.pucMemPoolEnd then
        let ullBufOffset := ownerOf pool pSrcAddr
        if ulSize ≤ aulBlockSize ullBufOffset then
          (some pSrcAddr, pool, memory)
        else
          match pfMalloc pool ulSize malloced with
          | (none, pool) => (none, pool, memory)
          | (some pData, pool) =>
              let memory := Region.copy memory pData pSrcAddr
                (aulBlockSize ullBufOffset).toNat
              let pstBufCtrl :=
                (plCommbufRet (pool.pBufMem ullBufOffset) (some pSrcAddr)).2
              (some pData, pool.set ullBufOffset pstBufCtrl, memory)
      else
        match realloced with
        | none => (none, pool, memory)
        | some (pData, memory) => (some pData, pool, memory)

/-- `pf_free`. -/
def pfFree (pool : MemPool) (pBuff : Option Nat) : MemPool :=
  match pBuff with
  | none => pool
  | some pBuff =>
      if pBuff < pool.pucMemPoolEnd ∧ pBuff ≥ pool.pucMemPoolStart then
        let ulBufOffset := ownerOf pool pBuff
        pool.set ulBufOffset
          (plCommbufRet (pool.pBufMem ulBufOffset) (some pBuff)).2
      else pool

/-! ## The blocks of the pools -/

theorem blockSize_mul_blockNum (offset : Fin MAX_MEMPOOL_NUMBER) :
    (aulBlockSize offset).toNat * (aulBlockNum offset).toNat = 12288000 := by
  revert offset
  decide

theorem blockSize_pos (offset : Fin MAX_MEMPOOL_NUMBER) :
    0 < (aulBlockSize offset).toNat := by
  revert offset
  decide

theorem poolStart_eq {pucMemPoolStart count : Nat}
    (bound : count ≤ MAX_MEMPOOL_NUMBER) :
    poolStart pucMemPoolStart count = pucMemPoolStart + count * 12288000 := by
  have isSum : ∀ count : Fin (MAX_MEMPOOL_NUMBER + 1),
      (((List.finRange MAX_MEMPOOL_NUMBER).take count).map fun offset =>
        (aulBlockSize offset * aulBlockNum offset).toNat).sum =
          count * 12288000 := by
    decide
  exact congrArg (pucMemPoolStart + ·)
    (isSum ⟨count, Nat.lt_succ_of_le bound⟩)

/-- A block of a pool lies inside of its unit. -/
theorem block_inside {offset : Fin MAX_MEMPOOL_NUMBER} {index : Nat}
    (bound : index < (aulBlockNum offset).toNat) :
    index * (aulBlockSize offset).toNat + (aulBlockSize offset).toNat ≤
      12288000 := by
  rw [← blockSize_mul_blockNum offset, Nat.mul_comm _ (aulBlockNum _).toNat,
    ← Nat.succ_mul]
  exact Nat.mul_le_mul_right _ bound

/-- The block of a pool with an index. -/
def blockAddress (pool : MemPool) (offset : Fin MAX_MEMPOOL_NUMBER)
    (index : Nat) : Nat :=
  pool.pucMemPoolStart + offset * 12288000 +
    index * (aulBlockSize offset).toNat

/-- A commbuf has the blocks of its unit. -/
structure IsPool (pucMemPoolStart : Nat) (offset : Fin MAX_MEMPOOL_NUMBER)
    (pstBufCtrl : BufCtrl) : Prop where
  size : pstBufCtrl.ulBufSize = aulBlockSize offset
  start : pstBufCtrl.pucBufStart = pucMemPoolStart + offset * 12288000
  stop : pstBufCtrl.pucBufEnd =
    pucMemPoolStart + offset * 12288000 + 12288000
  elems : pstBufCtrl.pstQueCtrl.ulElemNum = (aulBlockNum offset).toNat
  withAddress : pstBufCtrl.ucWithAddress = true

/-- The pools make up the area. -/
structure MemPool.Sound (pool : MemPool) : Prop where
  stop : pool.pucMemPoolEnd = pool.pucMemPoolStart + 6 * 12288000
  isPool : ∀ offset, IsPool pool.pucMemPoolStart offset (pool.pBufMem offset)
  indices : ∀ offset, ∀ index ∈ (pool.pBufMem offset).free,
    index.toNat < (aulBlockNum offset).toNat

variable {pool : MemPool} {offset : Fin MAX_MEMPOOL_NUMBER} {index : Nat}

@[simp] theorem MemPool.set_self {next : BufCtrl} :
    (pool.set offset next).pBufMem offset = next :=
  Function.update_self _ _ _

theorem MemPool.set_of_ne {other : Fin MAX_MEMPOOL_NUMBER} {next : BufCtrl}
    (isOther : other ≠ offset) :
    (pool.set offset next).pBufMem other = pool.pBufMem other :=
  Function.update_of_ne isOther _ _

theorem IsPool.next {pucMemPoolStart : Nat} {pstBufCtrl next : BufCtrl}
    (isPool : IsPool pucMemPoolStart offset pstBufCtrl)
    (same : pstBufCtrl.SameBlocks next) :
    IsPool pucMemPoolStart offset next where
  size := same.size.trans isPool.size
  start := same.start.trans isPool.start
  stop := same.stop.trans isPool.stop
  elems := same.elems.trans isPool.elems
  withAddress := same.withAddress.trans isPool.withAddress

theorem MemPool.Sound.set (sound : pool.Sound) {next : BufCtrl}
    (same : (pool.pBufMem offset).SameBlocks next)
    (indices : ∀ index ∈ next.free,
      index.toNat < (aulBlockNum offset).toNat) :
    (pool.set offset next).Sound where
  stop := sound.stop
  isPool other := by
    by_cases isOther : other = offset
    · rw [isOther, MemPool.set_self]
      exact (sound.isPool offset).next same
    · rw [MemPool.set_of_ne isOther]
      exact sound.isPool other
  indices other := by
    by_cases isOther : other = offset
    · rw [isOther, MemPool.set_self]
      exact indices
    · rw [MemPool.set_of_ne isOther]
      exact sound.indices other

/-- The address of a block tells its pool. -/
theorem ownerOf_blockAddress (bound : index < (aulBlockNum offset).toNat) :
    ownerOf pool (blockAddress pool offset index) = offset := by
  have inside := block_inside bound
  have positive := blockSize_pos offset
  have isUnit : ulBlockPoolUnit = 12288000 := by decide
  have isQuotient :
      (blockAddress pool offset index - pool.pucMemPoolStart) /
        ulBlockPoolUnit = offset := by
    rw [isUnit, blockAddress]
    generalize index * (aulBlockSize offset).toNat = start at *
    omega
  apply Fin.ext
  rw [ownerOf, isQuotient]
  exact Nat.mod_eq_of_lt offset.isLt

theorem MemPool.Sound.block_mem_area (sound : pool.Sound)
    (bound : index < (aulBlockNum offset).toNat) :
    pool.pucMemPoolStart ≤ blockAddress pool offset index ∧
      blockAddress pool offset index + (aulBlockSize offset).toNat ≤
        pool.pucMemPoolEnd := by
  have inside := block_inside bound
  have isOffset : offset.val < 6 := offset.isLt
  rw [sound.stop, blockAddress]
  generalize index * (aulBlockSize offset).toNat = start at *
  omega

/-- The table never gives a pool with smaller blocks. -/
theorem le_blockSize_of_table :
    ∀ ulSizeOffset : Fin 250, ∀ offset ∈
      (List.finRange MAX_MEMPOOL_NUMBER).drop
        (aulMallocBufOffset.getD ulSizeOffset 0),
      256 * (ulSizeOffset + 1) ≤ (aulBlockSize offset).toNat := by
  decide +kernel

/-- A request is served from blocks that are large enough. -/
theorem le_blockSize {ulSize : UInt32} (isSmall : ulSize ≤ aulBlockSize 5)
    (isOffset : offset ∈ (List.finRange MAX_MEMPOOL_NUMBER).drop
      (aulMallocBufOffset.getD ((ulSize - 1) >>> 8).toNat 0)) :
    ulSize.toNat ≤ (aulBlockSize offset).toNat := by
  by_cases isZero : ulSize = 0
  · rw [isZero]
    exact Nat.zero_le _
  have positive : ulSize.toNat ≠ 0 := by
    intro isNat
    exact isZero (UInt32.toNat_inj.mp isNat)
  have bound : ulSize.toNat ≤ 64000 := UInt32.le_iff_toNat_le.mp isSmall
  have isOne : (1 : UInt32).toNat = 1 := rfl
  have isShift : ((ulSize - 1) >>> 8).toNat = (ulSize.toNat - 1) / 256 := by
    rw [UInt32.toNat_shiftRight, UInt32.toNat_sub_of_le, isOne]
    · exact Nat.shiftRight_eq_div_pow _ _
    · rw [UInt32.le_iff_toNat_le, isOne]
      omega
  rw [isShift] at isOffset
  have isLarge := le_blockSize_of_table
    ⟨(ulSize.toNat - 1) / 256, by omega⟩ offset isOffset
  dsimp only at isLarge
  omega

/-- The loop takes the first free block of the pools, or all are used up. -/
theorem mallocFrom_cases (sound : pool.Sound)
    (offsets : List (Fin MAX_MEMPOOL_NUMBER)) :
    mallocFrom pool offsets = (none, pool) ∨
      ∃ offset ∈ offsets, ∃ index others next,
        (pool.pBufMem offset).free = index :: others ∧
          mallocFrom pool offsets =
            (some (blockAddress pool offset index.toNat),
              pool.set offset next) ∧
          (pool.pBufMem offset).SameBlocks next ∧ next.free = others := by
  induction offsets with
  | nil => exact .inl rfl
  | cons offset offsets inductionHypothesis =>
      have isPool := sound.isPool offset
      rw [mallocFrom]
      cases isFree : (pool.pBufMem offset).free with
      | nil =>
          rw [plCommbufGet_of_withAddress isFree isPool.withAddress]
          have isSame : pool.set offset (pool.pBufMem offset) = pool := by
            rw [MemPool.set, Function.update_eq_self]
          dsimp only
          rw [isSame]
          obtain none | ⟨other, isMember, found⟩ := inductionHypothesis
          · exact .inl none
          · exact .inr ⟨other, List.mem_cons_of_mem _ isMember, found⟩
      | cons index others =>
          have isIndex : index ≠ U32_INFINITY := by
            rintro rfl
            have few : ∀ offset, (aulBlockNum offset).toNat ≤ 48000 := by
              decide
            have isInside := sound.indices offset U32_INFINITY
              (isFree ▸ List.mem_cons_self)
            exact absurd (Nat.lt_of_lt_of_le isInside (few offset)) (by decide)
          obtain ⟨next, isGet, same, isRest, -⟩ :=
            @plCommbufGet_of_cons _ none _ _ isFree isIndex
          refine .inr ⟨offset, List.mem_cons_self, index, others, next, isFree,
            ?_, same, isRest⟩
          rw [isGet, isPool.start, isPool.size]
          rfl

/-- A block that is returned is free again. -/
theorem exists_plCommbufRet (sound : pool.Sound)
    (bound : index < (aulBlockNum offset).toNat)
    (room : (pool.pBufMem offset).free.length <
      (aulBlockNum offset).toNat) :
    ∃ next last, (plCommbufRet (pool.pBufMem offset)
        (some (blockAddress pool offset index))).2 = next ∧
      (pool.pBufMem offset).SameBlocks next ∧
      next.free = (pool.pBufMem offset).free ++ [last] ∧
      last.toNat = index := by
  have isPool := sound.isPool offset
  have inside := block_inside bound
  have positive := blockSize_pos offset
  have isDistance : blockAddress pool offset index -
      (pool.pBufMem offset).pucBufStart =
        index * (aulBlockSize offset).toNat := by
    rw [isPool.start, blockAddress]
    omega
  obtain ⟨next, isRet, same, isFree, -⟩ := @plCommbufRet_inside
    (pool.pBufMem offset) (blockAddress pool offset index) (by
      rw [isPool.start, isPool.stop, blockAddress]
      omega) (by
      rw [isPool.elems]
      exact room)
  refine ⟨next, _, by rw [isRet], same, isFree, ?_⟩
  rw [isDistance, isPool.size, UInt32.toNat_div]
  rw [UInt32.toNat_ofNat_of_lt' (Nat.lt_of_lt_of_le
    (Nat.lt_of_lt_of_le (Nat.lt_add_of_pos_right positive) inside)
    (by decide))]
  exact Nat.mul_div_cancel _ positive

/-- All blocks of a new commbuf are free. -/
theorem initPool_eq_some {memory : Nat → UInt32} {pucMemPoolStart : Nat}
    {pstBufCtrl : BufCtrl}
    (created : initPool memory pucMemPoolStart offset = some pstBufCtrl) :
    IsPool pucMemPoolStart offset pstBufCtrl ∧
      pstBufCtrl.free.map UInt32.toNat =
        List.range (aulBlockNum offset).toNat := by
  have isRounded : ∀ offset,
      roundedSize (aulBlockSize offset) = aulBlockSize offset := by
    decide
  have isUnit : ∀ offset,
      (aulBlockSize offset * aulBlockNum offset).toNat = 12288000 := by
    decide
  unfold initPool plCommbufCreateWithAddress at created
  rw [isRounded, isUnit, poolStart_eq offset.isLt.le] at created
  split at created
  case isTrue => cases created
  case isFalse =>
    dsimp only at created
    rw [if_neg (not_not.mpr (by rw [isUnit]))] at created
    obtain ⟨pstQueCtrl, isQue, rfl⟩ := Option.map_eq_some_iff.mp created
    obtain ⟨isEmpty, isNum, -⟩ := plQueCreate_eq_some isQue
    obtain ⟨isContents, isElems⟩ := contents_putIndices isEmpty isNum.ge
    refine ⟨⟨rfl, rfl, rfl, isElems.trans isNum, rfl⟩, ?_⟩
    calc
      ((putIndices pstQueCtrl (aulBlockNum offset).toNat).contents).map
          UInt32.toNat
          = (List.range (aulBlockNum offset).toNat).map
              (UInt32.toNat ∘ UInt32.ofNat) := by
        rw [isContents, List.map_map]
      _ = (List.range (aulBlockNum offset).toNat).map id := by
        apply List.map_congr_left
        intro number isInside
        apply UInt32.toNat_ofNat_of_lt'
        exact (List.mem_range.mp isInside).trans
          (aulBlockNum offset).toNat_lt
      _ = List.range (aulBlockNum offset).toNat := List.map_id _

/-- What the initialisation makes. -/
theorem pfMemPoolInit_eq_some {memory : Nat → UInt32} {malloced : Option Nat}
    (created : pfMemPoolInit memory malloced = some pool) :
    pool.Sound ∧ ∀ offset, (pool.pBufMem offset).free.map UInt32.toNat =
      List.range (aulBlockNum offset).toNat := by
  unfold pfMemPoolInit at created
  cases malloced with
  | none => cases created
  | some pucMemPoolStart =>
      dsimp only at created
      split at created
      case isFalse => cases created
      case isTrue isCreated =>
        obtain rfl := Option.some.inj created
        have isPool := fun offset =>
          initPool_eq_some (Option.some_get (isCreated offset)).symm
        refine ⟨⟨poolStart_eq (Nat.le_refl _), fun offset => (isPool offset).1,
          fun offset index isFree => ?_⟩, fun offset => (isPool offset).2⟩
        apply List.mem_range.mp
        rw [← (isPool offset).2]
        exact List.mem_map_of_mem isFree

theorem exists_initPool {memory : Nat → UInt32} {pucMemPoolStart : Nat}
    (aligned : pucMemPoolStart % 4 = 0) :
    (initPool memory pucMemPoolStart offset).isSome := by
  have isFew : ∀ offset, aulBlockNum offset ≤ MAX_QUE_ELEM_NUM := by
    decide
  have isRounded : ∀ offset,
      roundedSize (aulBlockSize offset) = aulBlockSize offset := by
    decide
  obtain ⟨que, isQue⟩ := @exists_plQueCreate memory _ (isFew offset)
  unfold initPool plCommbufCreateWithAddress
  rw [isRounded, isQue, poolStart_eq offset.isLt.le, if_neg (by omega)]
  dsimp only
  rw [if_neg (not_not.mpr rfl)]
  rfl

/-- The initialisation succeeds when the system has aligned memory. -/
theorem exists_pfMemPoolInit {memory : Nat → UInt32} {pucMemPoolStart : Nat}
    (aligned : pucMemPoolStart % 4 = 0) :
    ∃ pool, pfMemPoolInit memory (some pucMemPoolStart) = some pool := by
  unfold pfMemPoolInit
  dsimp only
  rw [dif_pos fun _ => exists_initPool aligned]
  exact ⟨_, rfl⟩

end Platform
end Pilot2Cloud
