import Pilot2Cloud.Log.LogSpace

/-!
# The text of a log message

What a call of `pf_log` leaves in its space, when the header fits and the number
of the module is not zero: a whole message, and nothing outside of the space.
-/

namespace Pilot2Cloud
namespace Log

open Foundation Words

/-- The bytes of a whole message: the tag, the number of the module, the text,
and the end of the line. -/
def IsLogBytes (mid : UInt8) (bytes : List UInt8) : Prop :=
  ∃ text, (0 : UInt8) ∉ mid :: text ∧
    bytes = 0xFE :: mid :: text ++ [13, 10, 0]

variable {memory : FlatMemory} {pulogWriteAddr ulAvaiMaxOffset : Nat}
  {header body : List UInt8} {mid : UInt8}

/-- What the two prints write, when the header fits. -/
theorem printLog_eq
    (fits : header.length + 6 ≤ ulAvaiMaxOffset)
    (small : ulAvaiMaxOffset < 2 ^ 32) :
    printLog memory pulogWriteAddr ulAvaiMaxOffset header body =
      let memory := storeBytes memory (pulogWriteAddr + 2) (header ++ [0])
      if ulAvaiMaxOffset = header.length + 6 then memory
      else storeBytes memory (pulogWriteAddr + 2 + header.length)
        (body.take (ulAvaiMaxOffset - header.length - 7) ++ [0]) := by
  have room : wrapSub (wrapSub ulAvaiMaxOffset header.length) 6 =
      ulAvaiMaxOffset - header.length - 6 := by
    rw [wrapSub_of_le small (by omega), wrapSub_of_le (by omega) (by omega)]
  unfold printLog
  dsimp only
  rw [room]
  apply if_congr ?_ rfl rfl
  omega

/-- The two prints leave one string, which ends inside of the space. -/
theorem exists_printed
    (fits : header.length + 6 ≤ ulAvaiMaxOffset)
    (small : ulAvaiMaxOffset < 2 ^ 32) :
    ∃ printed : List UInt8,
      printed.length + 6 ≤ ulAvaiMaxOffset ∧
        printed.length ≤ header.length + body.length ∧
        bytesAt (printLog memory pulogWriteAddr ulAvaiMaxOffset header body)
            (pulogWriteAddr + 2) (printed ++ [0]).length = printed ++ [0] ∧
        ∀ byte ∉ Region.mk (pulogWriteAddr + 2) (printed ++ [0]).length,
          printLog memory pulogWriteAddr ulAvaiMaxOffset header body byte =
            memory byte := by
  rw [printLog_eq fits small]
  dsimp only
  split
  case isTrue noRoom =>
    refine ⟨header, fits, Nat.le_add_right _ _, bytesAt_storeBytes, ?_⟩
    intro byte isOutside
    exact storeBytes_outside isOutside
  case isFalse isRoom =>
    generalize isShown :
      body.take (ulAvaiMaxOffset - header.length - 7) = shown
    have bound : shown.length ≤ ulAvaiMaxOffset - header.length - 7 := by
      rw [← isShown]
      exact List.length_take_le _ _
    have shorter : shown.length ≤ body.length := by
      rw [← isShown]
      exact List.length_take_le' _ _
    refine ⟨header ++ shown, ?_, ?_, ?_, ?_⟩
    · rw [List.length_append]
      omega
    · rw [List.length_append]
      exact Nat.add_le_add_left shorter _
    · rw [List.append_assoc, bytesAt_append]
      constructor
      · rw [bytesAt_storeBytes_apart (.inl (Nat.le_refl _))]
        exact bytesAt_of_isPrefix bytesAt_storeBytes
          (List.prefix_append _ _)
      · exact bytesAt_storeBytes
    · intro byte isOutside
      rw [Region.mem_iff] at isOutside
      simp only [List.length_append, List.length_singleton] at isOutside
      rw [storeBytes_outside, storeBytes_outside]
      all_goals
        rw [Region.mem_iff]
        simp only [List.length_append, List.length_singleton]
        omega

/-- The end of the line and the new tag make a whole message out of a string. -/
theorem bytesAt_ended {address : Nat} {text : List UInt8}
    (isWhole : bytesAt memory address ((0xFF :: mid :: text).length) =
      0xFF :: mid :: text) :
    let ended := storeBytes memory (address + (text.length + 2)) [13, 10, 0]
    bytesAt (Function.update ended address (ended address - 1)) address
        (text.length + 2 + 3) =
      0xFE :: mid :: text ++ [13, 10, 0] := by
  intro ended
  have isLength : (0xFE :: mid :: text ++ [13, 10, 0]).length =
      text.length + 2 + 3 := by
    rw [List.length_append]
    rfl
  rw [List.length_cons, bytesAt_succ] at isWhole
  obtain ⟨isTag, isRest⟩ := List.cons.inj isWhole
  have isEnded : ended address = 0xFF := by
    rw [← isTag]
    apply storeBytes_outside
    rw [Region.mem_iff]
    dsimp only
    omega
  rw [← isLength, bytesAt_append]
  constructor
  · rw [List.length_cons, bytesAt_succ, Function.update_self, isEnded]
    congr 1
    refine Eq.trans ?_ isRest
    apply bytesAt_congr
    intro byte isInside
    rw [Region.mem_iff] at isInside
    dsimp only [List.length_cons] at isInside
    rw [Function.update_of_ne (by omega)]
    apply storeBytes_outside
    rw [Region.mem_iff]
    dsimp only
    omega
  · refine Eq.trans ?_ (@bytesAt_storeBytes memory
      (address + (text.length + 2)) [13, 10, 0])
    apply bytesAt_congr
    intro byte isInside
    rw [Region.mem_iff] at isInside
    dsimp only [List.length_cons] at isInside
    exact Function.update_of_ne (by omega) _ _

/-- A call of `pf_log` leaves a whole message in its space. -/
theorem pfLogText_isLogBytes
    (isTag : memory pulogWriteAddr = SYMBOL_SET_USE_LOG_SPACE)
    (isMid : memory (pulogWriteAddr + 1) = mid) (notZero : mid ≠ 0)
    (fits : header.length + 6 ≤ ulAvaiMaxOffset)
    (small : ulAvaiMaxOffset ≤ LOG_STACK_MAX_SIZE) :
    let (totaloffset, after) :=
      pfLogText memory pulogWriteAddr ulAvaiMaxOffset header body
    totaloffset < ulAvaiMaxOffset ∧
      totaloffset ≤ header.length + body.length + 5 ∧
      IsLogBytes mid (bytesAt after pulogWriteAddr totaloffset) ∧
      ∀ byte ∉ Region.mk pulogWriteAddr ulAvaiMaxOffset,
        after byte = memory byte := by
  obtain ⟨printed, bound, printedShort, isPrinted, kept⟩ :=
    @exists_printed memory pulogWriteAddr _ header body fits
      (Nat.lt_of_le_of_lt small (by decide))
  unfold pfLogText
  generalize printLog memory pulogWriteAddr ulAvaiMaxOffset header body =
    printedMemory at *
  dsimp only
  obtain ⟨text, rest, split, noZero, short⟩ := exists_text printed
  have isString : bytesAt printedMemory (pulogWriteAddr + 2)
      (text.length + 1) = text ++ [0] := by
    have isFront : text ++ [0] <+: printed ++ [0] :=
      ⟨rest, by rw [split, List.append_assoc, List.singleton_append]⟩
    have isText := bytesAt_of_isPrefix isPrinted isFront
    rwa [List.length_append] at isText
  have isWhole : bytesAt printedMemory pulogWriteAddr
      (0xFF :: mid :: text ++ [0]).length = 0xFF :: mid :: text ++ [0] := by
    rw [List.length_append, List.length_cons, List.length_cons,
      List.length_singleton, bytesAt_succ, bytesAt_succ,
      isString, kept _ ?_, kept _ ?_, isTag, isMid]
    · rfl
    all_goals
      rw [Region.mem_iff]
      dsimp only
      omega
  have isNamed : (0 : UInt8) ∉ mid :: text :=
    mt List.mem_cons.mp (not_or.mpr ⟨Ne.symm notZero, noZero⟩)
  have isLength :
      strlen printedMemory LOG_STACK_MAX_SIZE pulogWriteAddr =
        text.length + 2 := by
    have isText := isWhole
    rw [List.length_append] at isText
    apply strlen_eq isText
    · exact mt List.mem_cons.mp (not_or.mpr ⟨by decide, isNamed⟩)
    · dsimp only [List.length_cons]
      omega
  rw [isLength]
  refine ⟨by omega, by omega, ⟨text, isNamed, bytesAt_ended ?_⟩, ?_⟩
  · exact bytesAt_of_isPrefix isWhole (List.prefix_append _ _)
  · intro byte isOutside
    rw [Region.mem_iff] at isOutside
    dsimp only at isOutside
    rw [Function.update_of_ne (by omega), storeBytes_outside, kept]
    all_goals
      rw [Region.mem_iff]
      simp only [List.length_append, List.length_cons, List.length_nil]
      omega

end Log
end Pilot2Cloud
