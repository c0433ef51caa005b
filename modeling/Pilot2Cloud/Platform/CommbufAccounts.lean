import Pilot2Cloud.Foundation.Transitions
import Pilot2Cloud.Platform.Commbuf

/-!
# The account of a buffer

The blocks that a commbuf has given out are outstanding until they are returned.
Some are blocks of the buffer and some were taken from the system.
-/

namespace Pilot2Cloud
namespace Platform

open Foundation

/-- A block that was given out, with the place it came from. -/
inductive CommBlock where
  | pool (pBuf : Nat)
  | urgent (pBuf : Nat)
  deriving DecidableEq

namespace CommBlock

/-- The address of a block. -/
def address : CommBlock → Nat
  | pool pBuf => pBuf
  | urgent pBuf => pBuf

/-- Is the block one of the pool? -/
def isPool : CommBlock → Bool
  | pool _ => true
  | urgent _ => false

/-- Is the block one of the system? -/
def isUrgent : CommBlock → Bool
  | pool _ => false
  | urgent _ => true

end CommBlock

/-- A buffer and the blocks that are outstanding. -/
structure Session where
  pstBufCtrl : BufCtrl
  outstanding : List CommBlock
  destroyed : Bool

/-- A call with what the system gives. -/
inductive Call where
  | get (malloced : Option Nat)
  | ret (block : CommBlock)
  | clearStatics
  | destroy

namespace Session

variable (session : Session)

/-- No block has been taken. -/
def start (pstBufCtrl : BufCtrl) : Session :=
  ⟨pstBufCtrl, [], false⟩

/-- The number of blocks of the pool that are out. -/
def poolNum : Nat :=
  session.outstanding.countP CommBlock.isPool

/-- The number of urgent blocks that are out. -/
def urgentNum : Nat :=
  session.outstanding.countP CommBlock.isUrgent

/-- A block is taken. -/
def get (malloced : Option Nat) : Session :=
  match plCommbufGet session.pstBufCtrl malloced with
  | (none, pstBufCtrl) => { session with pstBufCtrl }
  | (some pBuf, pstBufCtrl) => { session with
      pstBufCtrl
      outstanding :=
        (if session.pstBufCtrl.free = [] then .urgent pBuf else .pool pBuf) ::
          session.outstanding }

/-- A block is given back. -/
def ret (block : CommBlock) : Session :=
  match plCommbufRet session.pstBufCtrl (some block.address) with
  | (usRslt, pstBufCtrl) => { session with
      pstBufCtrl
      outstanding :=
        if usRslt = COMM_SUCC then session.outstanding.erase block
        else session.outstanding }

/-- The statistics are cleared. -/
def clearStatics : Session :=
  { session with pstBufCtrl := plCommbufClearStatics session.pstBufCtrl }

/-- The buffer is destroyed, if the check lets it. -/
def destroy : Session :=
  { session with
    destroyed := plCommbufDestroy session.pstBufCtrl = COMM_SUCC }

/-- A block of the system does not overlap the buffer. -/
def Apart (malloced : Option Nat) : Prop :=
  ∀ address ∈ malloced,
    address + session.pstBufCtrl.ulBufSize.toNat ≤
        session.pstBufCtrl.pucBufStart ∨
      session.pstBufCtrl.pucBufEnd ≤ address

/-- The calls on a buffer that exists.  Only outstanding blocks are returned. -/
inductive Step : Session → Call → Session → Prop
  | get {session : Session} {malloced : Option Nat}
      (alive : session.destroyed = false) (apart : session.Apart malloced) :
      Step session (.get malloced) (session.get malloced)
  | ret {session : Session} {block : CommBlock}
      (alive : session.destroyed = false)
      (isOutstanding : block ∈ session.outstanding) :
      Step session (.ret block) (session.ret block)
  | clearStatics {session : Session} (alive : session.destroyed = false) :
      Step session .clearStatics session.clearStatics
  | destroy {session : Session} (alive : session.destroyed = false) :
      Step session .destroy session.destroy

/-- Blocks are free or outstanding, the urgent ones are counted, and a buffer
that is destroyed has none outstanding. -/
structure Exact : Prop where
  avail : session.destroyed = false →
    (plCommbufAvailNum session.pstBufCtrl).toNat + session.poolNum =
      session.pstBufCtrl.ulBufNum.toNat
  urgent : session.destroyed = false →
    session.pstBufCtrl.ulUrgentUsedNum.toNat = session.urgentNum
  home : session.destroyed = true → session.outstanding = []

/-- The count of urgent blocks does not overflow and is not cleared while there
are some, blocks have a size when they are returned, and a buffer is not
destroyed when only urgent blocks are outstanding. -/
def Accountable : Call → Prop
  | .get malloced =>
      session.pstBufCtrl.free = [] →
        (plCommbufMalloc session.pstBufCtrl.ulBufSize malloced).isSome →
        session.urgentNum + 1 < 2 ^ 32
  | .ret block => block.isPool → session.pstBufCtrl.ulBufSize ≠ 0
  | .clearStatics => session.urgentNum = 0
  | .destroy => session.poolNum = 0 → session.urgentNum = 0

/-- The queue has indices of blocks, and blocks are told apart by their
addresses. -/
structure Sound : Prop where
  stop : session.pstBufCtrl.pucBufEnd = session.pstBufCtrl.pucBufStart +
    session.pstBufCtrl.ulBufSize.toNat * session.pstBufCtrl.ulBufNum.toNat
  fits : session.pstBufCtrl.ulBufSize.toNat *
    session.pstBufCtrl.ulBufNum.toNat < 2 ^ 32
  few : session.pstBufCtrl.ulBufNum.toNat ≤ 1024 * 1024
  elems : session.pstBufCtrl.pstQueCtrl.ulElemNum =
    session.pstBufCtrl.ulBufNum.toNat
  owns : session.pstBufCtrl.ucWithAddress = false
  indices : ∀ index ∈ session.pstBufCtrl.free,
    index.toNat < session.pstBufCtrl.ulBufNum.toNat
  pool : ∀ pBuf, .pool pBuf ∈ session.outstanding →
    session.pstBufCtrl.pucBufStart ≤ pBuf ∧
      (session.pstBufCtrl.ulBufSize ≠ 0 →
        pBuf < session.pstBufCtrl.pucBufEnd)
  urgent : ∀ pBuf, .urgent pBuf ∈ session.outstanding →
    pBuf < session.pstBufCtrl.pucBufStart ∨
      session.pstBufCtrl.pucBufEnd ≤ pBuf

/-! ## What a call preserves -/

variable {session : Session} {malloced : Option Nat} {block : CommBlock}

theorem Sound.availNum (sound : session.Sound) :
    (plCommbufAvailNum session.pstBufCtrl).toNat =
      session.pstBufCtrl.free.length := by
  have bound : session.pstBufCtrl.free.length ≤ 1024 * 1024 :=
    length_contents_le.trans (sound.elems.trans_le sound.few)
  unfold plCommbufAvailNum
  rw [plQueAvailNum_eq]
  exact UInt32.toNat_ofNat_of_lt' (Nat.lt_of_le_of_lt bound (by decide))

/-- What an exact account says about a buffer that exists. -/
theorem Sound.exact_iff (sound : session.Sound)
    (alive : session.destroyed = false) :
    session.Exact ↔
      session.pstBufCtrl.free.length + session.poolNum =
          session.pstBufCtrl.ulBufNum.toNat ∧
        session.pstBufCtrl.ulUrgentUsedNum.toNat = session.urgentNum := by
  rw [← sound.availNum]
  constructor
  · intro exact
    exact ⟨exact.avail alive, exact.urgent alive⟩
  · rintro ⟨isAvail, isUrgent⟩
    refine ⟨fun _ => isAvail, fun _ => isUrgent, fun isDestroyed => ?_⟩
    rw [alive] at isDestroyed
    cases isDestroyed

/-- The blocks of a buffer stay the same. -/
theorem Sound.next (sound : session.Sound) {next : BufCtrl}
    {outstanding : List CommBlock}
    (same : session.pstBufCtrl.SameBlocks next)
    (indices : ∀ index ∈ next.free,
      index.toNat < session.pstBufCtrl.ulBufNum.toNat)
    (pool : ∀ pBuf, .pool pBuf ∈ outstanding →
      session.pstBufCtrl.pucBufStart ≤ pBuf ∧
        (session.pstBufCtrl.ulBufSize ≠ 0 →
          pBuf < session.pstBufCtrl.pucBufEnd))
    (urgent : ∀ pBuf, .urgent pBuf ∈ outstanding →
      pBuf < session.pstBufCtrl.pucBufStart ∨
        session.pstBufCtrl.pucBufEnd ≤ pBuf) :
    Sound { session with pstBufCtrl := next, outstanding } where
  stop := by
    rw [same.stop, same.start, same.size, same.num]
    exact sound.stop
  fits := by
    rw [same.size, same.num]
    exact sound.fits
  few := by
    rw [same.num]
    exact sound.few
  elems := by
    rw [same.elems, same.num]
    exact sound.elems
  owns := by
    rw [same.withAddress]
    exact sound.owns
  indices := by
    rw [same.num]
    exact indices
  pool := by
    rw [same.start, same.size, same.stop]
    exact pool
  urgent := by
    rw [same.start, same.stop]
    exact urgent

/-- What a new buffer has is right. -/
theorem start_sound {memory : Nat → UInt32} {pucBufStart : Nat}
    {ulBufSize ulBufNum : UInt32} {pstBufCtrl : BufCtrl}
    (created : plCommbufCreate memory pucBufStart ulBufSize ulBufNum =
      some pstBufCtrl) :
    (start pstBufCtrl).Sound ∧ (start pstBufCtrl).Exact := by
  unfold plCommbufCreate at created
  split at created
  case isTrue => cases created
  case isFalse inside =>
    obtain ⟨smallSize, -⟩ := not_or.mp inside
    obtain ⟨pstQueCtrl, isQue, rfl⟩ := Option.map_eq_some_iff.mp created
    obtain ⟨isEmpty, isNum, few⟩ := plQueCreate_eq_some isQue
    obtain ⟨isContents, isElems⟩ := contents_putIndices isEmpty isNum.ge
    have isFree : (BufCtrl.create (roundedSize ulBufSize) ulBufNum pucBufStart
        (pucBufStart + (roundedSize ulBufSize * ulBufNum).toNat) false
        pstQueCtrl).free =
        (List.range ulBufNum.toNat).map UInt32.ofNat := isContents
    have rounded : (roundedSize ulBufSize).toNat ≤ 1027 := by
      have bound : ulBufSize.toNat ≤ 1024 :=
        UInt32.le_iff_toNat_le.mp (UInt32.not_lt.mp smallSize)
      exact toNat_roundedSize_le.trans (by omega)
    have fits : (roundedSize ulBufSize).toNat * ulBufNum.toNat < 2 ^ 32 :=
      Nat.lt_of_le_of_lt (Nat.mul_le_mul rounded few) (by decide)
    have sound : (start (.create (roundedSize ulBufSize) ulBufNum pucBufStart
        (pucBufStart + (roundedSize ulBufSize * ulBufNum).toNat) false
        pstQueCtrl)).Sound := {
      stop := by
        change _ + (roundedSize ulBufSize * ulBufNum).toNat = _
        rw [UInt32.toNat_mul, Nat.mod_eq_of_lt fits]
        rfl
      fits := fits
      few := few
      elems := isElems.trans isNum
      owns := rfl
      indices := by
        intro index isMember
        obtain ⟨number, isInside, rfl⟩ := List.mem_map.mp (isFree ▸ isMember)
        exact Nat.lt_of_le_of_lt (Nat.mod_le _ _) (List.mem_range.mp isInside)
      pool := by
        intro pBuf isMember
        cases isMember
      urgent := by
        intro pBuf isMember
        cases isMember }
    refine ⟨sound, (sound.exact_iff rfl).mpr ⟨?_, rfl⟩⟩
    rw [start, isFree, List.length_map, List.length_range]
    rfl

/-- A free block is given out. -/
theorem get_of_cons {index : UInt32} {others : List UInt32}
    (sound : session.Sound) (isFree : session.pstBufCtrl.free = index :: others) :
    ∃ next, session.get malloced = { session with
        pstBufCtrl := next
        outstanding := .pool (session.pstBufCtrl.pucBufStart +
          index.toNat * session.pstBufCtrl.ulBufSize.toNat) ::
            session.outstanding } ∧
      session.pstBufCtrl.SameBlocks next ∧ next.free = others ∧
      next.ulUrgentUsedNum = session.pstBufCtrl.ulUrgentUsedNum := by
  have isIndex : index ≠ U32_INFINITY := by
    rintro rfl
    have bound := sound.indices U32_INFINITY
      (isFree ▸ List.mem_cons_self)
    exact absurd (Nat.lt_of_lt_of_le bound sound.few) (by decide)
  obtain ⟨next, isGet, same, isRest, isUrgent⟩ :=
    @plCommbufGet_of_cons _ malloced _ _ isFree isIndex
  refine ⟨next, ?_, same, isRest, isUrgent⟩
  unfold get
  rw [isGet, isFree]
  rfl

/-- Without a free block the system is asked. -/
theorem get_of_nil (sound : session.Sound)
    (isEmpty : session.pstBufCtrl.free = []) :
    ∃ next, session.get malloced = { session with
        pstBufCtrl := next
        outstanding :=
          ((plCommbufMalloc session.pstBufCtrl.ulBufSize malloced).map
            CommBlock.urgent).toList ++ session.outstanding } ∧
      session.pstBufCtrl.SameBlocks next ∧ next.free = [] ∧
      next.ulUrgentUsedNum =
        if (plCommbufMalloc session.pstBufCtrl.ulBufSize malloced).isSome then
          session.pstBufCtrl.ulUrgentUsedNum + 1
        else session.pstBufCtrl.ulUrgentUsedNum := by
  obtain ⟨next, isGet, same, isRest, isUrgent⟩ :=
    @plCommbufGet_of_nil _ malloced isEmpty sound.owns
  refine ⟨next, ?_, same, isRest, isUrgent⟩
  unfold get
  rw [isGet, isEmpty]
  cases plCommbufMalloc session.pstBufCtrl.ulBufSize malloced with
  | none => rfl
  | some address => rfl

theorem Sound.get (sound : session.Sound) (apart : session.Apart malloced) :
    (session.get malloced).Sound := by
  cases isFree : session.pstBufCtrl.free with
  | nil =>
      obtain ⟨next, isGet, same, isRest, -⟩ :=
        @get_of_nil _ malloced sound isFree
      rw [isGet]
      apply sound.next same
      · intro index isMember
        rw [isRest] at isMember
        cases isMember
      · intro pBuf isMember
        obtain new | old := List.mem_append.mp isMember
        · cases isMalloc :
            plCommbufMalloc session.pstBufCtrl.ulBufSize malloced <;>
            simp [isMalloc] at new
        · exact sound.pool pBuf old
      · intro pBuf isMember
        obtain new | old := List.mem_append.mp isMember
        · obtain ⟨address, isMalloc, isBlock⟩ :=
            Option.map_eq_some_iff.mp (Option.mem_toList.mp new)
          obtain rfl := CommBlock.urgent.inj isBlock
          unfold plCommbufMalloc at isMalloc
          split at isMalloc
          case isTrue hasSize =>
            have someSize : session.pstBufCtrl.ulBufSize.toNat ≠ 0 := by
              intro isZero
              exact hasSize (UInt32.toNat_inj.mp isZero)
            have isApart := apart address isMalloc
            omega
          case isFalse => cases isMalloc
        · exact sound.urgent pBuf old
  | cons index others =>
      obtain ⟨next, isGet, same, isRest, -⟩ :=
        @get_of_cons _ malloced _ _ sound isFree
      rw [isGet]
      apply sound.next same
      · intro other isMember
        rw [isRest] at isMember
        apply sound.indices other
        rw [isFree]
        exact List.mem_cons_of_mem _ isMember
      · intro pBuf isMember
        obtain new | old := List.mem_cons.mp isMember
        · obtain rfl := CommBlock.pool.inj new
          refine ⟨Nat.le_add_right _ _, fun hasSize => ?_⟩
          rw [sound.stop, Nat.mul_comm]
          have isInside := sound.indices index
            (isFree ▸ List.mem_cons_self)
          have someSize : 0 < session.pstBufCtrl.ulBufSize.toNat := by
            apply Nat.pos_of_ne_zero
            intro isZero
            exact hasSize (UInt32.toNat_inj.mp isZero)
          exact Nat.add_lt_add_left
            (Nat.mul_lt_mul_of_pos_left isInside someSize) _
        · exact sound.pool pBuf old
      · intro pBuf isMember
        obtain new | old := List.mem_cons.mp isMember
        · cases new
        · exact sound.urgent pBuf old

/-- A block keeps the account exact unless it is one urgent block too many. -/
theorem get_exact_iff (sound : session.Sound) (exact : session.Exact)
    (alive : session.destroyed = false) (apart : session.Apart malloced) :
    session.Accountable (.get malloced) ↔ (session.get malloced).Exact := by
  obtain ⟨isAvail, isUrgent⟩ := (sound.exact_iff alive).mp exact
  have nextSound := sound.get apart
  unfold Accountable
  cases isFree : session.pstBufCtrl.free with
  | cons index others =>
      obtain ⟨next, isGet, same, isRest, isSame⟩ :=
        @get_of_cons _ malloced _ _ sound isFree
      rw [isGet] at nextSound ⊢
      have isExact := (nextSound.exact_iff alive).mpr (by
        constructor
        · dsimp only
          rw [isRest, same.num, ← isAvail, isFree, poolNum, poolNum,
            List.countP_cons_of_pos rfl, List.length_cons]
          omega
        · dsimp only
          rw [isSame, isUrgent, urgentNum, urgentNum,
            List.countP_cons_of_neg Bool.false_ne_true])
      constructor
      · intro _
        exact isExact
      · intro _ isEmpty
        cases isEmpty
  | nil =>
      obtain ⟨next, isGet, same, isRest, isCount⟩ :=
        @get_of_nil _ malloced sound isFree
      rw [isGet] at nextSound ⊢
      rw [nextSound.exact_iff alive]
      dsimp only
      rw [isFree] at isAvail
      rw [isCount, isRest, same.num]
      cases plCommbufMalloc session.pstBufCtrl.ulBufSize malloced with
      | none =>
          constructor
          · intro _
            exact ⟨isAvail, isUrgent⟩
          · intro _ _ isSome
            cases isSome
      | some address =>
          have pools : poolNum { session with
              pstBufCtrl := next
              outstanding := .urgent address :: session.outstanding } =
                session.poolNum := List.countP_cons_of_neg Bool.false_ne_true
          have urgents : urgentNum { session with
              pstBufCtrl := next
              outstanding := .urgent address :: session.outstanding } =
                session.urgentNum + 1 := List.countP_cons_of_pos rfl
          change _ ↔ _ + poolNum { session with
              pstBufCtrl := next
              outstanding := .urgent address :: session.outstanding } = _ ∧
            _ = urgentNum { session with
              pstBufCtrl := next
              outstanding := .urgent address :: session.outstanding }
          rw [pools, urgents, if_pos (by rfl), UInt32.toNat_add, isUrgent]
          have isOne : (1 : UInt32).toNat = 1 := rfl
          rw [isOne]
          constructor
          · intro fits
            exact ⟨isAvail, Nat.mod_eq_of_lt (fits rfl rfl)⟩
          · rintro ⟨-, isNew⟩ - -
            rw [← isNew]
            exact Nat.mod_lt _ (by decide)

/-- A block of the buffer is put back when blocks have a size. -/
theorem ret_pool (sound : session.Sound) (exact : session.Exact)
    (alive : session.destroyed = false) {pBuf : Nat}
    (isOutstanding : .pool pBuf ∈ session.outstanding)
    (hasSize : session.pstBufCtrl.ulBufSize ≠ 0) :
    (session.ret (.pool pBuf)).Sound ∧ (session.ret (.pool pBuf)).Exact := by
  obtain ⟨isAvail, isUrgent⟩ := (sound.exact_iff alive).mp exact
  obtain ⟨isAfter, isBefore⟩ := sound.pool pBuf isOutstanding
  have isBelow := isBefore hasSize
  have someOut : 0 < session.poolNum :=
    List.countP_pos_iff.mpr ⟨_, isOutstanding, rfl⟩
  obtain ⟨next, isRet, same, isFree, isSame⟩ :=
    plCommbufRet_inside ⟨isAfter, isBelow⟩ (by
      rw [sound.elems]
      omega)
  have isNext : session.ret (.pool pBuf) = { session with
      pstBufCtrl := next
      outstanding := session.outstanding.erase (.pool pBuf) } := by
    unfold ret
    rw [CommBlock.address, isRet]
    rfl
  rw [isNext]
  have isSound : Sound { session with
      pstBufCtrl := next
      outstanding := session.outstanding.erase (.pool pBuf) } := by
    apply sound.next same
    · intro index isMember
      rw [isFree] at isMember
      obtain old | new := List.mem_append.mp isMember
      · exact sound.indices index old
      · rw [List.mem_singleton.mp new, UInt32.toNat_div]
        apply Nat.div_lt_of_lt_mul
        have isInside := sound.stop
        exact Nat.lt_of_le_of_lt (Nat.mod_le _ _) (by omega)
    · intro other isMember
      exact sound.pool other (List.mem_of_mem_erase isMember)
    · intro other isMember
      exact sound.urgent other (List.mem_of_mem_erase isMember)
  refine ⟨isSound, (isSound.exact_iff alive).mpr ⟨?_, ?_⟩⟩
  · dsimp only
    rw [isFree, same.num, ← isAvail, List.length_append, List.length_singleton,
      poolNum, List.countP_erase, if_pos ⟨isOutstanding, rfl⟩]
    change _ + 1 + (session.poolNum - 1) = _
    omega
  · dsimp only
    rw [isSame, isUrgent, urgentNum, urgentNum, List.countP_erase,
      if_neg (fun isBoth => Bool.false_ne_true isBoth.2), Nat.sub_zero]

/-- A block outside of the buffer is given back to the system. -/
theorem ret_outside (sound : session.Sound)
    (isOutside : block.address < session.pstBufCtrl.pucBufStart ∨
      block.address ≥ session.pstBufCtrl.pucBufEnd) :
    session.ret block = { session with
        pstBufCtrl := { session.pstBufCtrl with
          ulUrgentUsedNum := session.pstBufCtrl.ulUrgentUsedNum - 1 }
        outstanding := session.outstanding.erase block } ∧
      (session.ret block).Sound := by
  have isNext : session.ret block = { session with
      pstBufCtrl := { session.pstBufCtrl with
        ulUrgentUsedNum := session.pstBufCtrl.ulUrgentUsedNum - 1 }
      outstanding := session.outstanding.erase block } := by
    unfold ret
    rw [plCommbufRet_outside isOutside sound.owns]
    rfl
  refine ⟨isNext, ?_⟩
  rw [isNext]
  refine @Sound.next _ sound { session.pstBufCtrl with
    ulUrgentUsedNum := session.pstBufCtrl.ulUrgentUsedNum - 1 } _
    ⟨rfl, rfl, rfl, rfl, rfl, rfl⟩ sound.indices ?_ ?_
  · intro other isMember
    exact sound.pool other (List.mem_of_mem_erase isMember)
  · intro other isMember
    exact sound.urgent other (List.mem_of_mem_erase isMember)

theorem ret_sound (sound : session.Sound) (exact : session.Exact)
    (alive : session.destroyed = false)
    (isOutstanding : block ∈ session.outstanding) :
    (session.ret block).Sound := by
  cases block with
  | urgent pBuf =>
      exact (@ret_outside _ (.urgent pBuf) sound
        (sound.urgent pBuf isOutstanding)).2
  | pool pBuf =>
      by_cases hasSize : session.pstBufCtrl.ulBufSize = 0
      · obtain ⟨isAfter, -⟩ := sound.pool pBuf isOutstanding
        refine (@ret_outside _ (.pool pBuf) sound (.inr ?_)).2
        rw [sound.stop, hasSize, show (0 : UInt32).toNat = 0 from rfl,
          Nat.zero_mul]
        exact isAfter
      · exact (ret_pool sound exact alive isOutstanding hasSize).1

/-- Returning a block keeps the account exact unless blocks have no size. -/
theorem ret_exact_iff (sound : session.Sound) (exact : session.Exact)
    (alive : session.destroyed = false)
    (isOutstanding : block ∈ session.outstanding) :
    session.Accountable (.ret block) ↔ (session.ret block).Exact := by
  obtain ⟨isAvail, isUrgent⟩ := (sound.exact_iff alive).mp exact
  unfold Accountable
  cases block with
  | urgent pBuf =>
      obtain ⟨isNext, isSound⟩ := @ret_outside _ (.urgent pBuf) sound
        (sound.urgent pBuf isOutstanding)
      have someOut : 0 < session.urgentNum :=
        List.countP_pos_iff.mpr ⟨_, isOutstanding, rfl⟩
      constructor
      · intro _
        rw [isNext] at isSound ⊢
        refine (isSound.exact_iff alive).mpr ⟨?_, ?_⟩
        · rw [poolNum, List.countP_erase,
            if_neg (fun isBoth => Bool.false_ne_true isBoth.2), Nat.sub_zero]
          exact isAvail
        · have isOne : (1 : UInt32).toNat = 1 := rfl
          rw [urgentNum, List.countP_erase, if_pos ⟨isOutstanding, rfl⟩]
          change _ = session.urgentNum - 1
          rw [UInt32.toNat_sub_of_le, isUrgent, isOne]
          rw [UInt32.le_iff_toNat_le, isUrgent, isOne]
          exact someOut
      · intro _ isPool
        cases isPool
  | pool pBuf =>
      constructor
      · intro hasSize
        exact (ret_pool sound exact alive isOutstanding (hasSize rfl)).2
      · intro isExact _ noSize
        obtain ⟨isAfter, -⟩ := sound.pool pBuf isOutstanding
        obtain ⟨isNext, isSound⟩ := @ret_outside _ (.pool pBuf) sound (.inr (by
          rw [sound.stop, noSize, show (0 : UInt32).toNat = 0 from rfl,
            Nat.zero_mul]
          exact isAfter))
        rw [isNext] at isSound isExact
        obtain ⟨isLess, -⟩ := (isSound.exact_iff alive).mp isExact
        rw [poolNum, List.countP_erase, if_pos ⟨isOutstanding, rfl⟩] at isLess
        change session.pstBufCtrl.free.length + (session.poolNum - 1) =
          session.pstBufCtrl.ulBufNum.toNat at isLess
        have someOut : 0 < session.poolNum :=
          List.countP_pos_iff.mpr ⟨_, isOutstanding, rfl⟩
        omega

theorem clearStatics_sound (sound : session.Sound) :
    session.clearStatics.Sound :=
  sound.next ⟨rfl, rfl, rfl, rfl, rfl, rfl⟩ sound.indices sound.pool
    sound.urgent

/-- Clearing the counts keeps the account exact when no urgent block is
outstanding. -/
theorem clearStatics_exact_iff (sound : session.Sound) (exact : session.Exact)
    (alive : session.destroyed = false) :
    session.Accountable .clearStatics ↔ session.clearStatics.Exact := by
  obtain ⟨isAvail, -⟩ := (sound.exact_iff alive).mp exact
  rw [(clearStatics_sound sound).exact_iff alive]
  constructor
  · intro isZero
    exact ⟨isAvail, isZero.symm⟩
  · rintro ⟨-, isZero⟩
    exact isZero.symm

theorem destroy_sound (sound : session.Sound) : session.destroy.Sound :=
  { sound with }

/-- No block is outstanding when none of either kind is. -/
theorem outstanding_eq_nil_iff :
    session.outstanding = [] ↔ session.poolNum = 0 ∧ session.urgentNum = 0 := by
  unfold poolNum urgentNum
  rw [List.countP_eq_zero, List.countP_eq_zero, List.eq_nil_iff_forall_not_mem]
  constructor
  · intro isNone
    exact ⟨fun block isMember => absurd isMember (isNone block),
      fun block isMember => absurd isMember (isNone block)⟩
  · rintro ⟨noPool, noUrgent⟩ block isMember
    cases block with
    | pool pBuf => exact noPool _ isMember rfl
    | urgent pBuf => exact noUrgent _ isMember rfl

/-- Destroying a buffer keeps the account exact when no urgent block is
outstanding while all others are free. -/
theorem destroy_exact_iff (sound : session.Sound) (exact : session.Exact)
    (alive : session.destroyed = false) :
    session.Accountable .destroy ↔ session.destroy.Exact := by
  obtain ⟨isAvail, isUrgent⟩ := (sound.exact_iff alive).mp exact
  have isHome : plCommbufDestroy session.pstBufCtrl = COMM_SUCC ↔
      session.poolNum = 0 := by
    have isAll : plCommbufAvailNum session.pstBufCtrl =
        session.pstBufCtrl.ulBufNum ↔ session.poolNum = 0 := by
      rw [← UInt32.toNat_inj, sound.availNum]
      omega
    unfold plCommbufDestroy
    by_cases isNone : session.poolNum = 0
    · rw [if_neg (not_not.mpr (isAll.mpr isNone))]
      exact iff_of_true rfl isNone
    · rw [if_pos (mt isAll.mp isNone)]
      exact iff_of_false (by decide) isNone
  unfold Accountable
  by_cases isNone : session.poolNum = 0
  · have isDestroyed : session.destroy.destroyed = true :=
      decide_eq_true (isHome.mpr isNone)
    constructor
    · intro noUrgent
      refine ⟨fun isAlive => ?_, fun isAlive => ?_, fun _ => ?_⟩
      · rw [isDestroyed] at isAlive
        cases isAlive
      · rw [isDestroyed] at isAlive
        cases isAlive
      · exact outstanding_eq_nil_iff.mpr ⟨isNone, noUrgent isNone⟩
    · intro isExact _
      exact (outstanding_eq_nil_iff.mp (isExact.home isDestroyed)).2
  · have isAlive : session.destroy.destroyed = false :=
      decide_eq_false (mt isHome.mp isNone)
    constructor
    · intro _
      exact ((destroy_sound sound).exact_iff isAlive).mpr ⟨isAvail, isUrgent⟩
    · intro _ isZero
      exact absurd isZero isNone

/-! ## The calls on a buffer -/

theorem Step.functional {call : Call} {next other : Session}
    (first : Step session call next) (second : Step session call other) :
    next = other := by
  cases first <;> cases second <;> rfl

/-- The account of a buffer is exact after every call exactly when every call
is accountable. -/
theorem accountable_iff_exact {memory : Nat → UInt32} {pucBufStart : Nat}
    {ulBufSize ulBufNum : UInt32} {pstBufCtrl : BufCtrl} {calls : List Call}
    {final : Session}
    (created : plCommbufCreate memory pucBufStart ulBufSize ulBufNum =
      some pstBufCtrl)
    (run : Run Step (start pstBufCtrl) calls final) :
    Along Step Accountable (start pstBufCtrl) calls ↔
      ∀ session, Reached Step (start pstBufCtrl) calls session →
        session.Exact := by
  obtain ⟨isSound, isExact⟩ := start_sound created
  refine Along.iff_reached_of_kept Sound
    (fun _ _ _ _ first second => first.functional second) ?_ ?_ isSound isExact
    run
  · intro session call next sound exact _ step
    cases step with
    | get _ apart => exact sound.get apart
    | ret alive isOutstanding => exact ret_sound sound exact alive isOutstanding
    | clearStatics _ => exact clearStatics_sound sound
    | destroy _ => exact destroy_sound sound
  · intro session call next sound exact step
    cases step with
    | get alive apart => exact get_exact_iff sound exact alive apart
    | ret alive isOutstanding =>
        exact ret_exact_iff sound exact alive isOutstanding
    | clearStatics alive => exact clearStatics_exact_iff sound exact alive
    | destroy alive => exact destroy_exact_iff sound exact alive

/-- A buffer with one block of 8 bytes. -/
def single : BufCtrl :=
  .create 8 1 4096 4104 false ⟨⟨.empty 2 (by decide), fun _ => 0⟩, 0, 0⟩

/-- A block of the buffer and one of the system are taken and returned. -/
theorem accountable_iff_exact_single :
    Exact (((((start single).get none).get (some 8192)).ret
      (.urgent 8192)).ret (.pool 4096)).destroy := by
  have created : plCommbufCreate (fun _ => 0) 4096 8 1 = some single := rfl
  have run : Run Step (start single)
      [.get none, .get (some 8192), .ret (.urgent 8192), .ret (.pool 4096),
        .destroy]
      (((((start single).get none).get (some 8192)).ret (.urgent 8192)).ret
        (.pool 4096)).destroy := by
    refine .cons (.get rfl ?_) (.cons (.get rfl ?_) (.cons (.ret rfl ?_)
      (.cons (.ret rfl ?_) (.cons (.destroy rfl) (.nil _)))))
    · intro address isNone
      cases isNone
    · intro address isSome
      obtain rfl := Option.some.inj isSome
      exact .inr (by decide)
    · decide
    · decide
  refine (accountable_iff_exact created run).mp ?_ _
    ⟨_, [], (List.append_nil _).symm, run⟩
  refine ⟨fun _ _ => by decide, ?_⟩
  rintro _ ⟨⟩
  refine ⟨fun _ _ => by decide, ?_⟩
  rintro _ ⟨⟩
  refine ⟨fun _ => by decide, ?_⟩
  rintro _ ⟨⟩
  refine ⟨fun _ => by decide, ?_⟩
  rintro _ ⟨⟩
  refine ⟨fun _ => by decide, ?_⟩
  rintro _ ⟨⟩
  trivial

/-- An urgent block is outstanding when the counts are cleared. -/
theorem exists_not_exact :
    ¬∀ (memory : Nat → UInt32) (pucBufStart : Nat)
      (ulBufSize ulBufNum : UInt32) (pstBufCtrl : BufCtrl) (calls : List Call)
      (final : Session),
      plCommbufCreate memory pucBufStart ulBufSize ulBufNum =
        some pstBufCtrl →
      Run Step (start pstBufCtrl) calls final →
      final.Exact := by
  intro always
  have run : Run Step (start single)
      [.get none, .get (some 8192), .clearStatics]
      (((start single).get none).get (some 8192)).clearStatics := by
    refine .cons (.get rfl ?_) (.cons (.get rfl ?_)
      (.cons (.clearStatics rfl) (.nil _)))
    · intro address isNone
      cases isNone
    · intro address isSome
      obtain rfl := Option.some.inj isSome
      exact .inr (by decide)
  have isExact := always (fun _ => 0) 4096 8 1 single _ _ rfl run
  exact absurd (isExact.urgent rfl) (by decide)

end Session

end Platform
end Pilot2Cloud
