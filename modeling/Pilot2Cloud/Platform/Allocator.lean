import Pilot2Cloud.Foundation.Transitions
import Pilot2Cloud.Platform.MemPool

/-!
# The memory pool as an allocator

The allocations that are live are blocks of the pools or memory of the system.
They never overlap, and a block of a pool is either live or free.
-/

namespace Pilot2Cloud
namespace Platform

open Foundation

/-- Where an allocation lies. -/
inductive Place where
  | block (offset : Fin MAX_MEMPOOL_NUMBER) (index : Nat)
  | system (address : Nat)
  deriving DecidableEq

/-- An allocation with the size that was requested. -/
structure Allocation where
  place : Place
  size : Nat
  deriving DecidableEq

/-- The index of an allocation that is a block of one pool. -/
def Allocation.indexIn (offset : Fin MAX_MEMPOOL_NUMBER)
    (allocation : Allocation) : Option Nat :=
  match allocation.place with
  | .block other index => if other = offset then some index else none
  | .system _ => none

namespace MemPool

variable (pool : MemPool)

/-- The address of a place. -/
def address : Place → Nat
  | .block offset index => blockAddress pool offset index
  | .system address => address

/-- The memory of an allocation: a whole block, or what the system was asked
for. -/
def region (allocation : Allocation) : Region where
  start := pool.address allocation.place
  length :=
    match allocation.place with
    | .block offset _ => (aulBlockSize offset).toNat
    | .system _ => allocation.size

/-- The place of an address that was given out. -/
def placeOf (address : Nat) : Place :=
  if address ≥ pool.pucMemPoolStart ∧ address < pool.pucMemPoolEnd then
    let offset := ownerOf pool address
    .block offset
      ((address - (pool.pucMemPoolStart + offset * 12288000)) /
        (aulBlockSize offset).toNat)
  else .system address

end MemPool

/-- The pool, the memory and the allocations that are live. -/
structure Arena where
  pool : MemPool
  memory : FlatMemory
  live : List Allocation

/-- A call with what the system gives, or a byte that is written by the owner of
an allocation. -/
inductive HeapCall where
  | malloc (ulSize : UInt32) (malloced : Option Nat)
  | realloc (allocation : Allocation) (ulSize : UInt32) (malloced : Option Nat)
      (realloced : Option (Nat × FlatMemory))
  | free (allocation : Allocation)
  | write (address : Nat) (byte : UInt8)

namespace Arena

variable (arena : Arena)

/-- A call of `pf_malloc`. -/
def malloc (ulSize : UInt32) (malloced : Option Nat) : Arena :=
  match pfMalloc arena.pool ulSize malloced with
  | (none, pool) => { arena with pool }
  | (some pAddr, pool) => { arena with
      pool
      live := ⟨pool.placeOf pAddr, ulSize.toNat⟩ :: arena.live }

/-- A call of `pf_realloc`. -/
def realloc (allocation : Allocation) (ulSize : UInt32)
    (malloced : Option Nat) (realloced : Option (Nat × FlatMemory)) : Arena :=
  match pfRealloc arena.pool arena.memory
      (some (arena.pool.address allocation.place)) ulSize malloced
      realloced with
  | (none, pool, memory) => { arena with pool, memory }
  | (some pData, pool, memory) => {
      pool
      memory
      live := ⟨pool.placeOf pData, ulSize.toNat⟩ ::
        arena.live.erase allocation }

/-- A call of `pf_free`. -/
def free (allocation : Allocation) : Arena :=
  { arena with
    pool := pfFree arena.pool (some (arena.pool.address allocation.place))
    live := arena.live.erase allocation }

/-- An owner writes a byte. -/
def write (address : Nat) (byte : UInt8) : Arena :=
  { arena with memory := Function.update arena.memory address byte }

/-- Memory from the system is apart from the pool, and from the other memory
that the system has given. -/
def Gives (live : List Allocation) (address size : Nat) : Prop :=
  arena.pool.area.Apart ⟨address, size⟩ ∧
    ∀ allocation ∈ live, ∀ other, allocation.place = .system other →
      (arena.pool.region allocation).Apart ⟨address, size⟩

/-- What the system's `realloc` does. -/
structure Moves (allocation : Allocation) (size address : Nat)
    (memory : FlatMemory) : Prop where
  gives : arena.Gives (arena.live.erase allocation) address size
  moved : ∀ offset < min allocation.size size,
    memory (address + offset) =
      arena.memory (arena.pool.address allocation.place + offset)
  pool : ∀ byte ∈ arena.pool.area, memory byte = arena.memory byte
  others : ∀ other ∈ arena.live.erase allocation,
    ∀ byte ∈ arena.pool.region other, memory byte = arena.memory byte

/-- Only live allocations are changed, and the system does what it should. -/
inductive Step : Arena → HeapCall → Arena → Prop
  | malloc {arena : Arena} {ulSize : UInt32} {malloced : Option Nat}
      (gives : ∀ address ∈ malloced,
        arena.Gives arena.live address ulSize.toNat) :
      Step arena (.malloc ulSize malloced) (arena.malloc ulSize malloced)
  | realloc {arena : Arena} {allocation : Allocation} {ulSize : UInt32}
      {malloced : Option Nat} {realloced : Option (Nat × FlatMemory)}
      (isLive : allocation ∈ arena.live)
      (gives : ∀ address ∈ malloced,
        arena.Gives arena.live address ulSize.toNat)
      (moves : ∀ moved ∈ realloced,
        arena.Moves allocation ulSize.toNat moved.1 moved.2) :
      Step arena (.realloc allocation ulSize malloced realloced)
        (arena.realloc allocation ulSize malloced realloced)
  | free {arena : Arena} {allocation : Allocation}
      (isLive : allocation ∈ arena.live) :
      Step arena (.free allocation) (arena.free allocation)
  | write {arena : Arena} {address : Nat} {byte : UInt8}
      (isInside : ∃ allocation ∈ arena.live,
        address ∈ Region.mk (arena.pool.address allocation.place)
          allocation.size) :
      Step arena (.write address byte) (arena.write address byte)

/-- Allocations do not overlap and have the size that was requested, and the
blocks of a pool are the indices in its queue and the live ones, each once. -/
structure Correct : Prop where
  apart : arena.live.Pairwise fun allocation other =>
    (arena.pool.region allocation).Apart (arena.pool.region other)
  large : ∀ allocation ∈ arena.live,
    allocation.size ≤ (arena.pool.region allocation).length
  owned : ∀ offset,
    ((arena.pool.pBufMem offset).free.map UInt32.toNat ++
      arena.live.filterMap (Allocation.indexIn offset)).Perm
        (List.range (aulBlockNum offset).toNat)

/-- An allocation is left as it is, or its first bytes are kept wherever it is
then.  The other allocations keep their bytes. -/
structure Reallocates (allocation : Allocation) (ulSize : UInt32)
    (malloced : Option Nat) (realloced : Option (Nat × FlatMemory)) :
    Prop where
  failed : (pfRealloc arena.pool arena.memory
        (some (arena.pool.address allocation.place)) ulSize malloced
        realloced).1 = none →
      arena.realloc allocation ulSize malloced realloced = arena
  moved : ∀ address ∈ (pfRealloc arena.pool arena.memory
        (some (arena.pool.address allocation.place)) ulSize malloced
        realloced).1,
      ∀ offset < min allocation.size ulSize.toNat,
        (arena.realloc allocation ulSize malloced realloced).memory
            (address + offset) =
          arena.memory (arena.pool.address allocation.place + offset)
  others : ∀ other ∈ arena.live.erase allocation,
    ∀ byte ∈ arena.pool.region other,
      (arena.realloc allocation ulSize malloced realloced).memory byte =
        arena.memory byte

/-- Nothing is live after the initialisation. -/
def start (pool : MemPool) (memory : FlatMemory) : Arena :=
  ⟨pool, memory, []⟩

/-- The invariant of the calls. -/
structure Sound : Prop extends Correct arena where
  pool : arena.pool.Sound
  positive : ∀ allocation ∈ arena.live, 0 < allocation.size
  outside : ∀ allocation ∈ arena.live, ∀ address,
    allocation.place = .system address →
      arena.pool.area.Apart (arena.pool.region allocation)

/-! ## Allocations apart from each other -/

variable {arena : Arena} {pool : MemPool} {memory : FlatMemory}
  {live rest : List Allocation} {allocation other : Allocation}
  {offset : Fin MAX_MEMPOOL_NUMBER} {index size : Nat}

theorem Correct.index_lt (correct : arena.Correct)
    (isLive : allocation ∈ arena.live)
    (isBlock : allocation.place = .block offset index) :
    index < (aulBlockNum offset).toNat := by
  apply List.mem_range.mp
  apply (correct.owned offset).mem_iff.mp
  apply List.mem_append_right
  apply List.mem_filterMap.mpr
  refine ⟨allocation, isLive, ?_⟩
  rw [Allocation.indexIn, isBlock]
  exact if_pos rfl

/-- Two blocks are apart unless they are the same. -/
theorem apart_of_blocks {second : Fin MAX_MEMPOOL_NUMBER} {position : Nat}
    (isBlock : allocation.place = .block offset index)
    (isOther : other.place = .block second position)
    (bound : index < (aulBlockNum offset).toNat)
    (otherBound : position < (aulBlockNum second).toNat)
    (different : offset = second → index ≠ position) :
    (pool.region allocation).Apart (pool.region other) := by
  have inside := block_inside bound
  have otherInside := block_inside otherBound
  unfold Region.Apart MemPool.region MemPool.address
  rw [isBlock, isOther]
  dsimp only
  unfold blockAddress
  by_cases samePool : offset = second
  · obtain rfl := samePool
    have notSame := different rfl
    obtain less | more := Nat.lt_or_gt_of_ne notSame
    · have step : index * (aulBlockSize offset).toNat +
          (aulBlockSize offset).toNat ≤
            position * (aulBlockSize offset).toNat := by
        rw [← Nat.succ_mul]
        exact Nat.mul_le_mul_right _ less
      omega
    · have step : position * (aulBlockSize offset).toNat +
          (aulBlockSize offset).toNat ≤
            index * (aulBlockSize offset).toNat := by
        rw [← Nat.succ_mul]
        exact Nat.mul_le_mul_right _ more
      omega
  · have differ : offset.val ≠ second.val := Fin.val_ne_of_ne samePool
    generalize index * (aulBlockSize offset).toNat = start at *
    generalize position * (aulBlockSize second).toNat = otherStart at *
    omega

/-- A block lies in the area of the pool. -/
theorem block_within (sound : pool.Sound)
    (isBlock : allocation.place = .block offset index)
    (bound : index < (aulBlockNum offset).toNat) :
    (pool.region allocation).Within pool.area := by
  have inside := sound.block_mem_area bound
  unfold Region.Within MemPool.region MemPool.area MemPool.address
  rw [isBlock]
  dsimp only
  omega

theorem placeOf_blockAddress (sound : pool.Sound)
    (bound : index < (aulBlockNum offset).toNat) :
    pool.placeOf (blockAddress pool offset index) = .block offset index := by
  have inside := sound.block_mem_area bound
  have positive := blockSize_pos offset
  unfold MemPool.placeOf
  rw [if_pos (by omega)]
  dsimp only
  rw [ownerOf_blockAddress bound, blockAddress, Nat.add_sub_cancel_left,
    Nat.mul_div_cancel _ positive]

theorem placeOf_outside {address : Nat}
    (apart : pool.area.Apart ⟨address, size⟩) (positive : 0 < size) :
    pool.placeOf address = .system address := by
  unfold MemPool.placeOf
  apply if_neg
  unfold Region.Apart MemPool.area at apart
  dsimp only at apart
  omega

/-! ## One allocation more or less -/

theorem Sound.perm (sound : Sound ⟨pool, memory, live⟩)
    (same : live.Perm rest) :
    Sound ⟨pool, memory, rest⟩ where
  apart := (same.pairwise_iff Region.Apart.symm).mp sound.apart
  large allocation isLive := sound.large allocation (same.mem_iff.mpr isLive)
  owned offset :=
    ((same.symm.filterMap _).append_left _).trans (sound.owned offset)
  pool := sound.pool
  positive allocation isLive :=
    sound.positive allocation (same.mem_iff.mpr isLive)
  outside allocation isLive :=
    sound.outside allocation (same.mem_iff.mpr isLive)

/-- The bytes of the memory do not matter. -/
theorem Sound.withMemory (sound : Sound ⟨pool, memory, live⟩)
    (other : FlatMemory) : Sound ⟨pool, other, live⟩ :=
  { sound with }

/-- A free block becomes live. -/
theorem Sound.addBlock (sound : Sound ⟨pool, memory, live⟩) {word : UInt32}
    {others : List UInt32} {next : BufCtrl}
    (isFree : (pool.pBufMem offset).free = word :: others)
    (same : (pool.pBufMem offset).SameBlocks next)
    (isNext : next.free = others) (positive : 0 < size)
    (isLarge : size ≤ (aulBlockSize offset).toNat) :
    Sound ⟨pool.set offset next, memory,
      ⟨.block offset word.toNat, size⟩ :: live⟩ := by
  have isOwned := sound.owned offset
  rw [isFree, List.map_cons, List.cons_append] at isOwned
  have isNew : word.toNat ∉
      live.filterMap (Allocation.indexIn offset) := by
    have distinct := isOwned.nodup_iff.mpr List.nodup_range
    intro isMember
    exact (List.nodup_cons.mp distinct).1 (List.mem_append_right _ isMember)
  have bound : word.toNat < (aulBlockNum offset).toNat :=
    List.mem_range.mp (isOwned.mem_iff.mp List.mem_cons_self)
  constructor
  · constructor
    · refine List.pairwise_cons.mpr ⟨?_, sound.apart⟩
      intro other isLive
      cases isPlace : other.place with
      | block second position =>
          apply apart_of_blocks rfl isPlace bound
            (sound.index_lt isLive isPlace)
          rintro rfl rfl
          apply isNew
          apply List.mem_filterMap.mpr
          refine ⟨other, isLive, ?_⟩
          rw [Allocation.indexIn, isPlace]
          exact if_pos rfl
      | system address =>
          have within := @block_within pool
            ⟨.block offset word.toNat, size⟩ _ _ sound.pool rfl bound
          exact (sound.outside other isLive address isPlace).mono within
    · intro allocation isLive
      obtain rfl | old := List.mem_cons.mp isLive
      · exact isLarge
      · exact sound.large allocation old
    · intro second
      by_cases isSecond : second = offset
      · obtain rfl := isSecond
        have isIndex : Allocation.indexIn second
            ⟨.block second word.toNat, size⟩ = some word.toNat := if_pos rfl
        dsimp only
        rw [MemPool.set_self, isNext, List.filterMap_cons_some isIndex]
        exact List.perm_middle.trans isOwned
      · have isIndex : Allocation.indexIn second
            ⟨.block offset word.toNat, size⟩ = none := by
          exact if_neg (Ne.symm isSecond)
        dsimp only
        rw [MemPool.set_of_ne isSecond, List.filterMap_cons_none isIndex]
        exact sound.owned second
  · apply sound.pool.set same
    intro index isIndex
    apply sound.pool.indices offset
    rw [isFree]
    exact List.mem_cons_of_mem _ (isNext ▸ isIndex)
  · intro allocation isLive
    obtain rfl | old := List.mem_cons.mp isLive
    · exact positive
    · exact sound.positive allocation old
  · intro allocation isLive address isPlace
    obtain rfl | old := List.mem_cons.mp isLive
    · cases isPlace
    · exact sound.outside allocation old address isPlace

/-- The system gives an allocation. -/
theorem Sound.addSystem (sound : Sound ⟨pool, memory, live⟩) {address : Nat}
    (gives : Gives ⟨pool, memory, live⟩ live address size)
    (positive : 0 < size) :
    Sound ⟨pool, memory, ⟨.system address, size⟩ :: live⟩ := by
  obtain ⟨isOutside, isApart⟩ := gives
  constructor
  · constructor
    · refine List.pairwise_cons.mpr ⟨?_, sound.apart⟩
      intro other isLive
      apply Region.Apart.symm
      cases isPlace : other.place with
      | block second position =>
          exact isOutside.mono (block_within sound.pool isPlace
            (sound.index_lt isLive isPlace))
      | system second => exact isApart other isLive second isPlace
    · intro allocation isLive
      obtain rfl | old := List.mem_cons.mp isLive
      · exact Nat.le_refl _
      · exact sound.large allocation old
    · intro offset
      exact sound.owned offset
  · exact sound.pool
  · intro allocation isLive
    obtain rfl | old := List.mem_cons.mp isLive
    · exact positive
    · exact sound.positive allocation old
  · intro allocation isLive second isPlace
    obtain rfl | old := List.mem_cons.mp isLive
    · exact isOutside
    · exact sound.outside allocation old second isPlace

/-- The address of a block leads to the commbuf that has it. -/
theorem pfFree_block (sound : pool.Sound)
    (isPlace : allocation.place = .block offset index)
    (bound : index < (aulBlockNum offset).toNat) :
    pfFree pool (some (pool.address allocation.place)) =
      pool.set offset (plCommbufRet (pool.pBufMem offset)
        (some (pool.address allocation.place))).2 := by
  have inside := sound.block_mem_area bound
  have positive := blockSize_pos offset
  rw [isPlace, MemPool.address]
  unfold pfFree
  dsimp only
  rw [if_pos (by omega), ownerOf_blockAddress bound]

/-- What the system gave is not in the area. -/
theorem Sound.not_inside (sound : arena.Sound)
    (isLive : allocation ∈ arena.live) {address : Nat}
    (isPlace : allocation.place = .system address) :
    ¬(address ≥ arena.pool.pucMemPoolStart ∧
      address < arena.pool.pucMemPoolEnd) := by
  have outside := sound.outside allocation isLive address isPlace
  have positive := sound.positive allocation isLive
  unfold Region.Apart MemPool.area MemPool.region MemPool.address at outside
  rw [isPlace] at outside
  dsimp only at outside
  omega

theorem Sound.pfFree_system (sound : arena.Sound)
    (isLive : allocation ∈ arena.live) {address : Nat}
    (isPlace : allocation.place = .system address) :
    pfFree arena.pool (some (arena.pool.address allocation.place)) =
      arena.pool := by
  have notInside := sound.not_inside isLive isPlace
  rw [isPlace, MemPool.address]
  unfold pfFree
  apply if_neg
  omega

/-- A live allocation is given back. -/
theorem Sound.remove (sound : Sound ⟨pool, memory, allocation :: rest⟩) :
    Sound ⟨pfFree pool (some (pool.address allocation.place)), memory,
      rest⟩ := by
  have isApart := (List.pairwise_cons.mp sound.apart).2
  have isLarge := (List.forall_mem_cons.mp sound.large).2
  have isPositive := (List.forall_mem_cons.mp sound.positive).2
  have isOutside := (List.forall_mem_cons.mp sound.outside).2
  cases isPlace : allocation.place with
  | block offset index =>
      have bound := sound.index_lt List.mem_cons_self isPlace
      have isIndex : allocation.indexIn offset = some index := by
        rw [Allocation.indexIn, isPlace]
        exact if_pos rfl
      have isOwned := sound.owned offset
      dsimp only at isOwned
      rw [List.filterMap_cons_some isIndex] at isOwned
      have room : (pool.pBufMem offset).free.length <
          (aulBlockNum offset).toNat := by
        have count := isOwned.length_eq
        rw [List.length_append, List.length_map, List.length_cons,
          List.length_range] at count
        omega
      obtain ⟨next, last, isRet, same, isFree, isLast⟩ :=
        exists_plCommbufRet sound.pool bound room
      rw [← isPlace, pfFree_block sound.pool isPlace bound, isPlace,
        MemPool.address, isRet]
      constructor
      · refine ⟨isApart, isLarge, fun second => ?_⟩
        by_cases isSecond : second = offset
        · obtain rfl := isSecond
          dsimp only
          rw [MemPool.set_self, isFree, List.map_append, List.map_singleton,
            isLast, List.append_assoc]
          exact isOwned
        · have isNone : allocation.indexIn second = none := by
            rw [Allocation.indexIn, isPlace]
            exact if_neg (Ne.symm isSecond)
          have isOther := sound.owned second
          dsimp only at isOther ⊢
          rw [List.filterMap_cons_none isNone] at isOther
          rw [MemPool.set_of_ne isSecond]
          exact isOther
      · apply sound.pool.set same
        intro word isMember
        rw [isFree] at isMember
        obtain old | new := List.mem_append.mp isMember
        · exact sound.pool.indices offset word old
        · rw [List.mem_singleton.mp new, isLast]
          exact bound
      · exact isPositive
      · exact isOutside
  | system address =>
      have isPool := sound.pfFree_system List.mem_cons_self isPlace
      dsimp only at isPool
      rw [← isPlace, isPool]
      refine ⟨⟨isApart, isLarge, fun offset => ?_⟩, sound.pool, isPositive,
        isOutside⟩
      have isNone : allocation.indexIn offset = none := by
        rw [Allocation.indexIn, isPlace]
      have isOwned := sound.owned offset
      dsimp only at isOwned
      rw [List.filterMap_cons_none isNone] at isOwned
      exact isOwned

/-- A block is large enough for another size. -/
theorem Sound.resize (sound : Sound ⟨pool, memory, allocation :: rest⟩)
    (isPlace : allocation.place = .block offset index) (positive : 0 < size)
    (isLarge : size ≤ (aulBlockSize offset).toNat) :
    Sound ⟨pool, memory, ⟨.block offset index, size⟩ :: rest⟩ := by
  obtain ⟨isApart, restApart⟩ := List.pairwise_cons.mp sound.apart
  obtain ⟨-, restLarge⟩ := List.forall_mem_cons.mp sound.large
  obtain ⟨-, restPositive⟩ := List.forall_mem_cons.mp sound.positive
  obtain ⟨-, restOutside⟩ := List.forall_mem_cons.mp sound.outside
  have isRegion : pool.region ⟨.block offset index, size⟩ =
      pool.region allocation := by
    unfold MemPool.region
    rw [isPlace]
  constructor
  · constructor
    · refine List.pairwise_cons.mpr ⟨?_, restApart⟩
      intro other isRest
      dsimp only
      rw [isRegion]
      exact isApart other isRest
    · exact List.forall_mem_cons.mpr ⟨isLarge, restLarge⟩
    · intro second
      have isIndex : Allocation.indexIn second ⟨.block offset index, size⟩ =
          allocation.indexIn second := by
        unfold Allocation.indexIn
        rw [isPlace]
      have isOwned := sound.owned second
      dsimp only at isOwned ⊢
      rw [List.filterMap_cons, isIndex]
      rw [List.filterMap_cons] at isOwned
      exact isOwned
  · exact sound.pool
  · exact List.forall_mem_cons.mpr ⟨positive, restPositive⟩
  · refine List.forall_mem_cons.mpr ⟨?_, restOutside⟩
    intro address isSystem
    cases isSystem

/-! ## What a call preserves -/

/-- The area of a pool stays where it is. -/
structure SameArea (pool next : MemPool) : Prop where
  start : next.pucMemPoolStart = pool.pucMemPoolStart
  stop : next.pucMemPoolEnd = pool.pucMemPoolEnd

theorem SameArea.address {next : MemPool} (same : SameArea pool next) :
    next.address = pool.address := by
  funext place
  cases place with
  | block offset index =>
      unfold MemPool.address blockAddress
      rw [same.start]
  | system address => rfl

theorem SameArea.region {next : MemPool} (same : SameArea pool next) :
    next.region = pool.region := by
  funext allocation
  unfold MemPool.region
  rw [same.address]

variable {ulSize : UInt32} {malloced : Option Nat}
  {realloced : Option (Nat × FlatMemory)}

/-- A request is served by a pool or by the system. -/
theorem pfMalloc_cases (sound : pool.Sound) :
    (∃ offset word others next,
        (pool.pBufMem offset).free = word :: others ∧
          (pool.pBufMem offset).SameBlocks next ∧ next.free = others ∧
          0 < ulSize.toNat ∧ ulSize.toNat ≤ (aulBlockSize offset).toNat ∧
          pfMalloc pool ulSize malloced =
            (some (blockAddress pool offset word.toNat),
              pool.set offset next)) ∨
      pfMalloc pool ulSize malloced =
        (plCommbufMalloc ulSize malloced, pool) := by
  unfold pfMalloc
  by_cases isHuge : ulSize > aulBlockSize 5
  · rw [if_pos isHuge]
    exact .inr rfl
  rw [if_neg isHuge]
  by_cases positive : ulSize > 0
  · rw [if_pos positive]
    dsimp only
    obtain isNone | ⟨offset, isOffset, word, others, next, isFree, isSome, same,
        isNext⟩ := mallocFrom_cases sound
          ((List.finRange MAX_MEMPOOL_NUMBER).drop
            (aulMallocBufOffset.getD ((ulSize - 1) >>> 8).toNat 0))
    · rw [isNone]
      exact .inr rfl
    · rw [isSome]
      exact .inl ⟨offset, word, others, next, isFree, same, isNext,
        UInt32.lt_iff_toNat_lt.mp positive,
        le_blockSize (UInt32.not_lt.mp isHuge) isOffset, rfl⟩
  · rw [if_neg positive]
    have isZero : ulSize = 0 := by
      apply UInt32.toNat_inj.mp
      apply Nat.eq_zero_of_not_pos
      exact mt (@UInt32.lt_iff_toNat_lt 0 ulSize).mpr positive
    rw [isZero]
    exact .inr rfl

/-- Nothing is given, or a new allocation is live. -/
theorem Sound.pfMalloc (sound : Sound ⟨pool, memory, live⟩)
    (gives : ∀ address ∈ malloced,
      Gives ⟨pool, memory, live⟩ live address ulSize.toNat) :
    (pfMalloc pool ulSize malloced = (none, pool) ∧
        (ulSize = 0 ∨ malloced = none)) ∨
      ∃ next place, pfMalloc pool ulSize malloced =
          (some (next.address place), next) ∧
        SameArea pool next ∧ next.placeOf (next.address place) = place ∧
        Sound ⟨next, memory, ⟨place, ulSize.toNat⟩ :: live⟩ := by
  have poolSound : pool.Sound := sound.pool
  obtain ⟨offset, word, others, next, isFree, same, isNext, positive, isLarge,
      isMalloc⟩ | isMalloc :=
    @pfMalloc_cases pool ulSize malloced poolSound
  · refine .inr ⟨pool.set offset next, .block offset word.toNat, isMalloc,
      ⟨rfl, rfl⟩, ?_, sound.addBlock isFree same isNext positive isLarge⟩
    have added := @addBlock pool memory live _ _ sound _ _ _ isFree same isNext
      positive isLarge
    exact placeOf_blockAddress added.pool
      (added.index_lt List.mem_cons_self rfl)
  · rw [isMalloc]
    unfold plCommbufMalloc
    by_cases isZero : ulSize = 0
    · rw [if_neg (not_not.mpr isZero)]
      exact .inl ⟨rfl, .inl isZero⟩
    · rw [if_pos isZero]
      have positive : 0 < ulSize.toNat := by
        apply Nat.pos_of_ne_zero
        intro isNat
        exact isZero (UInt32.toNat_inj.mp isNat)
      cases malloced with
      | none => exact .inl ⟨rfl, .inr rfl⟩
      | some address =>
          have isGiven := gives address rfl
          exact .inr ⟨pool, .system address, rfl, ⟨rfl, rfl⟩,
            placeOf_outside isGiven.1 positive,
            sound.addSystem isGiven positive⟩

theorem Sound.malloc (sound : arena.Sound)
    (gives : ∀ address ∈ malloced,
      arena.Gives arena.live address ulSize.toNat) :
    (arena.malloc ulSize malloced).Sound := by
  unfold Arena.malloc
  obtain ⟨isNone, -⟩ | ⟨next, place, isSome, -, isPlace, added⟩ :=
    Sound.pfMalloc sound gives
  · rw [isNone]
    exact sound
  · rw [isSome]
    dsimp only
    rw [isPlace]
    exact added

theorem Sound.free (sound : arena.Sound) (isLive : allocation ∈ arena.live) :
    (arena.free allocation).Sound :=
  (sound.perm (List.perm_cons_erase isLive)).remove

/-- A block that is large enough stays where it is. -/
theorem pfRealloc_of_le {isPlace : allocation.place = .block offset index}
    (sound : arena.Sound) (isLive : allocation ∈ arena.live)
    (isNonzero : ulSize ≠ 0) (isSmall : ulSize ≤ aulBlockSize offset) :
    pfRealloc arena.pool arena.memory
        (some (arena.pool.address allocation.place)) ulSize malloced
        realloced =
      (some (arena.pool.address allocation.place), arena.pool,
        arena.memory) := by
  have bound := sound.index_lt isLive isPlace
  have inside := sound.pool.block_mem_area bound
  have positive := blockSize_pos offset
  rw [isPlace, MemPool.address]
  unfold pfRealloc
  dsimp only
  rw [if_neg isNonzero, if_pos (by omega), ownerOf_blockAddress bound,
    if_pos isSmall]

/-- A larger one is asked for, and the block is copied and given back. -/
theorem pfRealloc_of_lt {isPlace : allocation.place = .block offset index}
    (sound : arena.Sound) (isLive : allocation ∈ arena.live)
    (isNonzero : ulSize ≠ 0) (isLarge : ¬ulSize ≤ aulBlockSize offset) :
    pfRealloc arena.pool arena.memory
        (some (arena.pool.address allocation.place)) ulSize malloced
        realloced =
      match Platform.pfMalloc arena.pool ulSize malloced with
      | (none, pool) => (none, pool, arena.memory)
      | (some pData, pool) =>
          (some pData,
            pool.set offset (plCommbufRet (pool.pBufMem offset)
              (some (arena.pool.address allocation.place))).2,
            Region.copy arena.memory pData
              (arena.pool.address allocation.place)
              (aulBlockSize offset).toNat) := by
  have bound := sound.index_lt isLive isPlace
  have inside := sound.pool.block_mem_area bound
  have positive := blockSize_pos offset
  rw [isPlace, MemPool.address]
  unfold pfRealloc
  dsimp only
  rw [if_neg isNonzero, if_pos (by omega), ownerOf_blockAddress bound]
  exact if_neg isLarge

/-- What the system gave it reallocates. -/
theorem pfRealloc_of_system {address : Nat}
    (isPlace : allocation.place = .system address)
    (sound : arena.Sound) (isLive : allocation ∈ arena.live)
    (isNonzero : ulSize ≠ 0) :
    pfRealloc arena.pool arena.memory
        (some (arena.pool.address allocation.place)) ulSize malloced
        realloced =
      match realloced with
      | none => (none, arena.pool, arena.memory)
      | some (pData, memory) => (some pData, arena.pool, memory) := by
  rw [isPlace, MemPool.address]
  unfold pfRealloc
  dsimp only
  rw [if_neg isNonzero]
  exact if_neg (sound.not_inside isLive isPlace)

/-- A failed call leaves everything as it is. -/
theorem realloc_of_none
    (failed : pfRealloc arena.pool arena.memory
      (some (arena.pool.address allocation.place)) ulSize malloced realloced =
        (none, arena.pool, arena.memory)) :
    arena.realloc allocation ulSize malloced realloced = arena := by
  unfold Arena.realloc
  rw [failed]

theorem reallocates_of_none
    (failed : pfRealloc arena.pool arena.memory
      (some (arena.pool.address allocation.place)) ulSize malloced realloced =
        (none, arena.pool, arena.memory)) :
    arena.Reallocates allocation ulSize malloced realloced where
  failed _ := realloc_of_none failed
  moved address isSome := by
    rw [failed] at isSome
    cases isSome
  others other _ byte _ := by
    rw [realloc_of_none failed]

/-- What a call that succeeds has to show. -/
theorem reallocates_of_some {address : Nat} {next : MemPool}
    {after : FlatMemory}
    (done : pfRealloc arena.pool arena.memory
      (some (arena.pool.address allocation.place)) ulSize malloced realloced =
        (some address, next, after))
    (moved : ∀ offset < min allocation.size ulSize.toNat,
      after (address + offset) =
        arena.memory (arena.pool.address allocation.place + offset))
    (others : ∀ other ∈ arena.live.erase allocation,
      ∀ byte ∈ arena.pool.region other, after byte = arena.memory byte) :
    arena.Reallocates allocation ulSize malloced realloced := by
  have isMemory :
      (arena.realloc allocation ulSize malloced realloced).memory = after := by
    unfold Arena.realloc
    rw [done]
  constructor
  · intro failed
    rw [done] at failed
    cases failed
  · intro found isFound
    rw [done] at isFound
    obtain rfl := Option.some.inj isFound
    rw [isMemory]
    exact moved
  · rw [isMemory]
    exact others

/-- Every reallocation keeps the invariant and the bytes. -/
theorem Sound.realloc (sound : arena.Sound)
    (isLive : allocation ∈ arena.live)
    (gives : ∀ address ∈ malloced,
      arena.Gives arena.live address ulSize.toNat)
    (moves : ∀ moved ∈ realloced,
      arena.Moves allocation ulSize.toNat moved.1 moved.2) :
    (arena.realloc allocation ulSize malloced realloced).Sound ∧
      arena.Reallocates allocation ulSize malloced realloced := by
  have rest := sound.perm (List.perm_cons_erase isLive)
  by_cases isZero : ulSize = 0
  · have failed : pfRealloc arena.pool arena.memory
        (some (arena.pool.address allocation.place)) ulSize malloced
        realloced = (none, arena.pool, arena.memory) := if_pos isZero
    refine ⟨?_, reallocates_of_none failed⟩
    rw [realloc_of_none failed]
    exact sound
  have positive : 0 < ulSize.toNat := by
    apply Nat.pos_of_ne_zero
    intro isNat
    exact isZero (UInt32.toNat_inj.mp isNat)
  cases isPlace : allocation.place with
  | block offset index =>
      have bound := sound.index_lt isLive isPlace
      by_cases isSmall : ulSize ≤ aulBlockSize offset
      · have done := @pfRealloc_of_le arena allocation offset index ulSize
          malloced realloced isPlace sound isLive isZero isSmall
        refine ⟨?_, reallocates_of_some done (fun _ _ => rfl)
          fun _ _ _ _ => rfl⟩
        have isSame : arena.pool.placeOf (arena.pool.address
            allocation.place) = .block offset index := by
          rw [isPlace]
          exact placeOf_blockAddress sound.pool bound
        unfold Arena.realloc
        rw [done]
        dsimp only
        rw [isSame]
        exact rest.resize isPlace positive
          (UInt32.le_iff_toNat_le.mp isSmall)
      have isMalloc := @pfRealloc_of_lt arena allocation offset index ulSize
        malloced realloced isPlace sound isLive isZero isSmall
      obtain ⟨isNone, -⟩ | ⟨next, place, isSome, same, isNew, added⟩ :=
        Sound.pfMalloc sound gives
      · rw [isNone] at isMalloc
        refine ⟨?_, reallocates_of_none isMalloc⟩
        rw [realloc_of_none isMalloc]
        exact sound
      rw [isSome] at isMalloc
      have isSwapped : (⟨place, ulSize.toNat⟩ :: arena.live).Perm
          (allocation :: ⟨place, ulSize.toNat⟩ ::
            arena.live.erase allocation) :=
        ((List.perm_cons_erase isLive).cons _).trans (List.Perm.swap ..)
      have removed := (added.perm isSwapped).remove
      have nextSound : next.Sound := added.pool
      rw [pfFree_block nextSound isPlace bound, same.address] at removed
      refine ⟨?_, reallocates_of_some isMalloc ?_ ?_⟩
      · have isSame : (next.set offset (plCommbufRet (next.pBufMem offset)
            (some (arena.pool.address allocation.place))).2).placeOf
              (next.address place) = place := isNew
        unfold Arena.realloc
        rw [isMalloc]
        dsimp only
        rw [isSame]
        exact removed.withMemory _
      · intro position bounded
        apply Region.copy_inside
        have large := sound.large allocation isLive
        unfold MemPool.region at large
        rw [isPlace] at large
        dsimp only at large
        omega
      · intro other isRest byte isByte
        apply Region.copy_outside
        have isApart := (List.pairwise_cons.mp added.apart).1 other
          (List.mem_of_mem_erase isRest)
        have large := added.large _ List.mem_cons_self
        dsimp only at isApart large
        have within : Region.Within
            ⟨next.address place, (aulBlockSize offset).toNat⟩
            (next.region ⟨place, ulSize.toNat⟩) := by
          have isMore := mt UInt32.le_iff_toNat_le.mpr isSmall
          constructor
          · exact Nat.le_refl _
          · apply Nat.add_le_add_left
            exact (Nat.not_le.mp isMore).le.trans large
        rw [← same.region] at isByte
        exact (isApart.mono within).symm.not_mem isByte
  | system address =>
      have done := @pfRealloc_of_system arena allocation ulSize malloced
        realloced address isPlace sound isLive isZero
      cases realloced with
      | none =>
          refine ⟨?_, reallocates_of_none done⟩
          rw [realloc_of_none done]
          exact sound
      | some moved =>
          obtain ⟨pData, after⟩ := moved
          obtain ⟨isGiven, isMoved, -, isKept⟩ := moves _ rfl
          refine ⟨?_, reallocates_of_some done isMoved isKept⟩
          have removed := rest.remove
          rw [Sound.pfFree_system sound isLive isPlace] at removed
          have isSame := placeOf_outside isGiven.1 positive
          unfold Arena.realloc
          rw [done]
          dsimp only
          rw [isSame]
          exact (removed.addSystem isGiven positive).withMemory _

theorem start_sound {words : Nat → UInt32} {area : Option Nat}
    (created : pfMemPoolInit words area = some pool) :
    (start pool memory).Sound := by
  obtain ⟨poolSound, isFree⟩ := pfMemPoolInit_eq_some created
  constructor
  · refine ⟨List.Pairwise.nil, ?_, fun offset => ?_⟩
    · intro allocation isLive
      cases isLive
    · exact List.Perm.of_eq ((List.append_nil _).trans (isFree offset))
  · exact poolSound
  · intro allocation isLive
    cases isLive
  · intro allocation isLive
    cases isLive

theorem Sound.step (sound : arena.Sound) {call : HeapCall} {next : Arena}
    (step : Step arena call next) : next.Sound := by
  cases step with
  | malloc gives => exact sound.malloc gives
  | realloc isLive gives moves => exact (sound.realloc isLive gives moves).1
  | free isLive => exact sound.free isLive
  | write isInside => exact sound.withMemory _

/-- A request that is larger than every block gets memory of the system. -/
theorem Step.malloc_of_gt (isLarge : ulSize > aulBlockSize 5) {address : Nat}
    (gives : arena.Gives arena.live address ulSize.toNat) :
    Step arena (.malloc ulSize (some address)) { arena with
      live := ⟨.system address, ulSize.toNat⟩ :: arena.live } := by
  have positive : 0 < ulSize.toNat :=
    Nat.lt_of_le_of_lt (Nat.zero_le _) (UInt32.lt_iff_toNat_lt.mp isLarge)
  have isNonzero : ulSize ≠ 0 := by
    rintro rfl
    exact absurd positive (by decide)
  have isMalloc : arena.malloc ulSize (some address) = { arena with
      live := ⟨.system address, ulSize.toNat⟩ :: arena.live } := by
    unfold Arena.malloc Platform.pfMalloc plCommbufMalloc
    rw [if_pos isLarge, if_pos isNonzero]
    dsimp only
    rw [placeOf_outside gives.1 positive]
  rw [← isMalloc]
  refine .malloc ?_
  rintro _ ⟨⟩
  exact gives

/-- Memory of the system is moved. -/
theorem Step.realloc_of_system {allocation : Allocation} {address moved : Nat}
    (sound : arena.Sound) (isPlace : allocation.place = .system address)
    (isLive : allocation ∈ arena.live) (positive : 0 < ulSize.toNat)
    (moves : arena.Moves allocation ulSize.toNat moved memory) :
    Step arena (.realloc allocation ulSize none (some (moved, memory)))
      ⟨arena.pool, memory,
        ⟨.system moved, ulSize.toNat⟩ :: arena.live.erase allocation⟩ := by
  have isNonzero : ulSize ≠ 0 := by
    rintro rfl
    exact absurd positive (by decide)
  have isRealloc : arena.realloc allocation ulSize none (some (moved, memory)) =
      ⟨arena.pool, memory,
        ⟨.system moved, ulSize.toNat⟩ :: arena.live.erase allocation⟩ := by
    unfold Arena.realloc
    rw [pfRealloc_of_system isPlace sound isLive isNonzero]
    dsimp only
    rw [placeOf_outside moves.gives.1 positive]
  rw [← isRealloc]
  refine .realloc isLive nofun ?_
  rintro _ ⟨⟩
  exact moves

/-- Without memory of the system a first request gets a block or nothing. -/
theorem exists_malloc_none (sound : (start pool memory).Sound) :
    ∃ next live, (start pool memory).malloc ulSize none =
        ⟨next, memory, live⟩ ∧ SameArea pool next ∧
      ∀ allocation ∈ live, ∀ address,
        allocation.place ≠ .system address := by
  have poolSound : pool.Sound := sound.pool
  unfold Arena.malloc start
  dsimp only
  obtain ⟨offset, word, others, next, isFree, same, isNext, positive, isLarge,
      isMalloc⟩ | isMalloc :=
    @pfMalloc_cases pool ulSize none poolSound
  · have added := Sound.addBlock sound isFree same isNext positive isLarge
    have isPlace : (pool.set offset next).placeOf
        (blockAddress pool offset word.toNat) = .block offset word.toNat :=
      placeOf_blockAddress added.pool
        (added.index_lt List.mem_cons_self rfl)
    rw [isMalloc]
    dsimp only
    rw [isPlace]
    refine ⟨pool.set offset next, _, rfl, ⟨rfl, rfl⟩, ?_⟩
    intro allocation isLive address
    obtain rfl := List.mem_singleton.mp isLive
    exact nofun
  · have isNone : plCommbufMalloc ulSize none = none := by
      unfold plCommbufMalloc
      split <;> rfl
    rw [isMalloc, isNone]
    exact ⟨pool, [], rfl, ⟨rfl, rfl⟩, nofun⟩

/-- The pool is an allocator: after any calls the allocations do not overlap and
are large enough, no block is lost, only the system can fail, and a
reallocation keeps what it should. -/
theorem allocates {words : Nat → UInt32} {area : Option Nat}
    {calls : List HeapCall}
    (created : pfMemPoolInit words area = some pool)
    (run : Run Step (start pool memory) calls arena) :
    arena.Correct ∧
      (∀ ulSize malloced,
        (Platform.pfMalloc arena.pool ulSize malloced).1 = none →
          ulSize = 0 ∨ malloced = none) ∧
      ∀ allocation ∈ arena.live, ∀ ulSize malloced realloced,
        (∀ address ∈ malloced,
          arena.Gives arena.live address ulSize.toNat) →
        (∀ moved ∈ realloced,
          arena.Moves allocation ulSize.toNat moved.1 moved.2) →
        arena.Reallocates allocation ulSize malloced realloced := by
  have sound : arena.Sound :=
    run.preserves (fun _ _ _ here step => here.step step)
      (start_sound created)
  refine ⟨sound.toCorrect, ?_, ?_⟩
  · intro ulSize malloced isNone
    obtain ⟨offset, word, others, next, -, -, -, -, -, isMalloc⟩ | isMalloc :=
      @pfMalloc_cases arena.pool ulSize malloced sound.pool
    · rw [isMalloc] at isNone
      cases isNone
    · rw [isMalloc] at isNone
      unfold plCommbufMalloc at isNone
      split at isNone
      · exact .inr isNone
      · exact .inl (not_not.mp ‹_›)
  · intro allocation isLive ulSize malloced realloced gives moves
    exact (sound.realloc isLive gives moves).2

/-- A pool at address 4096 serves a request, memory of the system is moved when
it grows, and other memory of the system is given back. -/
theorem allocates_moved :
    ∃ pool arena, pfMemPoolInit (fun _ => 0) (some 4096) = some pool ∧
      Run Step (start pool fun _ => 0)
        [.malloc 100 none, .malloc 100000 (some (2 ^ 40)),
          .malloc 100000 (some (2 ^ 41)),
          .realloc ⟨.system (2 ^ 40), 100000⟩ 200000 none
            (some (2 ^ 42, fun _ => 0)),
          .free ⟨.system (2 ^ 41), 100000⟩] arena ∧
      arena.Correct := by
  obtain ⟨pool, created⟩ := @exists_pfMemPoolInit (fun _ => 0) 4096 (by decide)
  have isStart : pool.pucMemPoolStart = 4096 := by
    unfold pfMemPoolInit at created
    dsimp only at created
    split at created
    · rw [← Option.some.inj created]
    · cases created
  have sound := @start_sound _ (fun _ => 0) _ _ created
  have isEnd : pool.pucMemPoolEnd = pool.pucMemPoolStart + _ := sound.pool.stop
  obtain ⟨next, live, isFirst, same, noSystem⟩ :=
    @exists_malloc_none pool (fun _ => 0) 100 sound
  have apart : ∀ address ≥ 2 ^ 40, ∀ size,
      next.area.Apart ⟨address, size⟩ := by
    intro address isFar size
    left
    unfold MemPool.area
    rw [same.start, same.stop]
    dsimp only
    omega
  have first : Step (start pool fun _ => 0) (.malloc 100 none)
      ⟨next, fun _ => 0, live⟩ := by
    rw [← isFirst]
    exact .malloc nofun
  have second : Step ⟨next, fun _ => 0, live⟩ (.malloc 100000 (some (2 ^ 40)))
      ⟨next, fun _ => 0, ⟨.system (2 ^ 40), 100000⟩ :: live⟩ := by
    refine .malloc_of_gt (by decide) ⟨apart _ (Nat.le_refl _) _, ?_⟩
    intro allocation isLive other isPlace
    exact absurd isPlace (noSystem allocation isLive other)
  have third : Step ⟨next, fun _ => 0, ⟨.system (2 ^ 40), 100000⟩ :: live⟩
      (.malloc 100000 (some (2 ^ 41)))
      ⟨next, fun _ => 0, ⟨.system (2 ^ 41), 100000⟩ ::
        ⟨.system (2 ^ 40), 100000⟩ :: live⟩ := by
    refine .malloc_of_gt (by decide) ⟨apart _ (by decide) _, ?_⟩
    intro allocation isLive other isPlace
    obtain rfl | isOld := List.mem_cons.mp isLive
    · exact .inl (by decide : 2 ^ 40 + 100000 ≤ 2 ^ 41)
    · exact absurd isPlace (noSystem allocation isOld other)
  have isErase : (⟨.system (2 ^ 41), 100000⟩ ::
      ⟨.system (2 ^ 40), 100000⟩ :: live : List Allocation).erase
        ⟨.system (2 ^ 40), 100000⟩ = ⟨.system (2 ^ 41), 100000⟩ :: live := by
    rw [List.erase_cons_tail (by decide), List.erase_cons_head]
  have fourth : Step ⟨next, fun _ => 0, ⟨.system (2 ^ 41), 100000⟩ ::
        ⟨.system (2 ^ 40), 100000⟩ :: live⟩
      (.realloc ⟨.system (2 ^ 40), 100000⟩ 200000 none
        (some (2 ^ 42, fun _ => 0)))
      ⟨next, fun _ => 0, ⟨.system (2 ^ 42), 200000⟩ ::
        ⟨.system (2 ^ 41), 100000⟩ :: live⟩ := by
    rw [← isErase]
    refine .realloc_of_system (((sound.step first).step second).step third)
      rfl (List.mem_cons_of_mem _ List.mem_cons_self) (by decide)
      ⟨⟨apart _ (by decide) _, ?_⟩, fun _ _ => rfl, fun _ _ => rfl,
        fun _ _ _ _ => rfl⟩
    rw [isErase]
    intro allocation isLive other isPlace
    obtain rfl | isOld := List.mem_cons.mp isLive
    · exact .inl (by decide : 2 ^ 41 + 100000 ≤ 2 ^ 42)
    · exact absurd isPlace (noSystem allocation isOld other)
  have run := Run.cons first (.cons second (.cons third (.cons fourth
    (.cons (.free (List.mem_cons_of_mem _ List.mem_cons_self)) (.nil _)))))
  exact ⟨pool, _, created, run, (allocates created run).1⟩

end Arena

end Platform
end Pilot2Cloud
