import Mathlib.Data.PNat.Basic
import Pilot2Cloud.Foundation.Schedules

/-!
# Receiving a file by FTP

The server announces the size of a file and sends it on a data connection.  It
is copied to a local file piece by piece, with calls that may be interrupted or
move fewer bytes than asked for, until all the announced bytes are copied, the
connection ends, or a call fails.
-/

namespace Pilot2Cloud
namespace Platform

open Foundation

/-- The size of the buffer, as the C library sets it. -/
def BUFSIZ : ℕ := 8192

/-- `PF_RET_FAILURE`. -/
def PF_RET_FAILURE : ℤ := -1

/-- `STDOUT_FILENO`. -/
def STDOUT_FILENO : ℤ := 1

/-- How a `read` or `write` goes. -/
inductive SystemCall
  /-- It fails with `EINTR`. -/
  | interrupted
  /-- It moves some bytes, unless there are none or it fails. -/
  | moves (atMost : ℕ+)

/-- The data connection, the local file, and the calls that are made. -/
structure DataTransfer where
  sent : List UInt8
  /-- After so many bytes the connection fails. -/
  breaksAfter : Option ℕ
  /-- So many bytes can be written. -/
  room : Option ℕ
  calls : ℕ → SystemCall

namespace DataTransfer

variable (transfer : DataTransfer)

/-- The bytes that can be received. -/
def arriving : List UInt8 :=
  match transfer.breaksAfter with
  | none => transfer.sent
  | some bytes => transfer.sent.take bytes

/-- The bytes of a `read` of at most `count`, if it does not fail. -/
def read (received count : ℕ) (atMost : ℕ+) : Option (List UInt8) :=
  if received < transfer.arriving.length then
    some ((transfer.arriving.drop received).take (min atMost count))
  else if transfer.breaksAfter = none then some []
  else none

/-- How many of `len` bytes a `write` accepts, if it does not fail. -/
def accepted (length len : ℕ) (atMost : ℕ+) : Option ℕ :=
  match transfer.room with
  | none => some (min atMost len)
  | some room =>
      if length < room then some (min (min atMost len) (room - length))
      else none

end DataTransfer

/-- The variables of `bb_full_fd_action`. -/
structure CopyLoop where
  dst_fd : ℤ
  size : ℤ
  status : ℤ
  total : ℤ

/-- Where the copying loop stands. -/
inductive CopyPoint
  | safeRead (loop : CopyLoop)
  /-- `full_write` has `buf` left of `rd` bytes. -/
  | fullWrite (loop : CopyLoop) (rd : ℕ) (buf : List UInt8)
  | returned (total : ℤ)

/-- The loop, the bytes that were received and the local file. -/
structure CopyState where
  point : CopyPoint
  received : ℕ
  localFile : List UInt8

/-- `bb_full_fd_action` has returned. -/
def CopyState.Returned (state : CopyState) : Prop :=
  ∃ total, state.point = .returned total

namespace CopyLoop

/-- The length that is given to `read`. -/
def count (loop : CopyLoop) : ℕ :=
  if loop.size > BUFSIZ then BUFSIZ else loop.size.toNat

/-- `return status ? PF_RET_FAILURE : total` -/
def out (loop : CopyLoop) : CopyPoint :=
  .returned (if loop.status ≠ 0 then PF_RET_FAILURE else loop.total)

/-- `rd` bytes are copied. -/
def copied (loop : CopyLoop) (rd : ℕ) : CopyPoint :=
  let loop := { loop with total := loop.total + rd }
  if loop.status < 0 then
    let loop := { loop with size := loop.size - rd }
    if loop.size = 0 then out { loop with status := 0 } else .safeRead loop
  else .safeRead loop

/-- What follows a `read` that is not interrupted. -/
def afterRead (loop : CopyLoop) : Option (List UInt8) → CopyPoint
  | none => loop.out
  | some [] => out { loop with status := 0 }
  | some buffer =>
      if 0 ≤ loop.dst_fd then .fullWrite loop buffer.length buffer
      else loop.copied buffer.length

/-- What follows a `write` that is not interrupted. -/
def afterWrite (loop : CopyLoop) (rd : ℕ) (buf : List UInt8) :
    Option ℕ → CopyPoint
  | none => loop.out
  | some cc =>
      if buf.drop cc = [] then loop.copied rd
      else .fullWrite loop rd (buf.drop cc)

@[simp] theorem afterRead_cons (loop : CopyLoop) (byte : UInt8)
    (buffer : List UInt8) :
    loop.afterRead (some (byte :: buffer)) =
      if 0 ≤ loop.dst_fd then
        .fullWrite loop (byte :: buffer).length (byte :: buffer)
      else loop.copied (byte :: buffer).length := rfl

@[simp] theorem afterWrite_some (loop : CopyLoop) (rd : ℕ) (buf : List UInt8)
    (cc : ℕ) :
    loop.afterWrite rd buf (some cc) =
      if buf.drop cc = [] then loop.copied rd
      else .fullWrite loop rd (buf.drop cc) := rfl

end CopyLoop

/-- One system call, which is made again if it is interrupted. -/
def copyStep (transfer : DataTransfer) (state : CopyState) :
    SystemCall → CopyState
  | .interrupted => state
  | .moves atMost =>
      match state.point with
      | .safeRead loop =>
          let rd := transfer.read state.received loop.count atMost
          { state with
            point := loop.afterRead rd
            received := state.received + (rd.getD []).length }
      | .fullWrite loop rd buf =>
          let cc := transfer.accepted state.localFile.length buf.length atMost
          { state with
            point := loop.afterWrite rd buf cc
            localFile := state.localFile ++ buf.take (cc.getD 0) }
      | .returned _ => state

/-- Where `bb_full_fd_action` starts. -/
def bbFullFdAction (src_fd dst_fd size : ℤ) : CopyPoint :=
  if src_fd < 0 then
    CopyLoop.out ⟨dst_fd, size, PF_RET_FAILURE, 0⟩
  else if size = 0 then .safeRead ⟨dst_fd, BUFSIZ, 1, 0⟩
  else .safeRead ⟨dst_fd, size, PF_RET_FAILURE, 0⟩

/-- `bb_copyfd_size`. -/
def bbCopyfdSize (fd1 fd2 size : ℤ) : CopyPoint :=
  if size ≠ 0 then bbFullFdAction fd1 fd2 size else .returned 0

/-- What the server answers and the data connection and file that are opened. -/
structure FtpSession where
  pasv : ℤ
  fd_data : ℤ
  sizeReply : ℤ
  /-- The number in the answer to `SIZE`. -/
  announced : ℤ
  retr : ℤ
  local_path : List Char
  /-- The file descriptor of the local file, if it can be opened. -/
  opened : Option ℕ
  close : ℤ

/-- What `ftp_receive` returns. -/
inductive FtpReturn
  | RET_SUCCESS
  | ERRID_FTP_RECIEVE_PASV_FAIL
  | ERRID_FTP_RECIEVE_XOPEN_FAIL
  | ERRID_FTP_RECIEVE_COPYFD_FAIL
  | ERRID_FTP_RECIEVE_CLOSE_FAIL
  deriving DecidableEq

namespace FtpSession

variable (session : FtpSession) (transfer : DataTransfer)

/-- The size that the server announces. -/
def filesize : ℤ :=
  if session.sizeReply = 213 then session.announced else 0

/-- `xopen`, which fails with `PF_RET_FAILURE`. -/
def xopen : ℤ :=
  match session.opened with
  | none => PF_RET_FAILURE
  | some fd => fd

/-- The file that is written to. -/
def fdLocal : ℤ :=
  if session.local_path = ['-'] then STDOUT_FILENO else session.xopen

/-- The copy after some system calls. -/
def copy : ℕ → CopyState :=
  after (copyStep transfer) transfer.calls
    ⟨bbCopyfdSize session.fd_data session.fdLocal session.filesize, 0, []⟩

/-- What follows the copy. -/
def ftpClose : CopyPoint → Option FtpReturn
  | .returned total =>
      some (if total = PF_RET_FAILURE then .ERRID_FTP_RECIEVE_COPYFD_FAIL
        else if session.close ≠ 226 then .ERRID_FTP_RECIEVE_CLOSE_FAIL
        else .RET_SUCCESS)
  | _ => none

/-- What `ftp_recieve` has returned after some system calls of the copy. -/
def ftpRecieve (calls : ℕ) : Option FtpReturn :=
  if session.pasv ≠ 227 then some .ERRID_FTP_RECIEVE_PASV_FAIL
  else if session.retr > 150 then some .ERRID_FTP_RECIEVE_COPYFD_FAIL
  else if session.fdLocal = PF_RET_FAILURE then
    some .ERRID_FTP_RECIEVE_XOPEN_FAIL
  else session.ftpClose (session.copy transfer calls).point

/-! ## What is expected of a download -/

/-- A download that is reported as successful is complete, and the copy comes
to an end. -/
structure ReceivesFaithfully : Prop where
  complete : ∀ calls,
    session.ftpRecieve transfer calls = some .RET_SUCCESS →
      (session.copy transfer calls).localFile =
          transfer.sent.take session.filesize.toNat ∧
        session.filesize ≤ transfer.sent.length
  returns : ∃ calls, (session.copy transfer calls).Returned

/-- The connection ends in order before the announced bytes are sent, and
nothing fails. -/
structure EndsEarly : Prop where
  passive : session.pasv = 227
  connected : 0 ≤ session.fd_data
  retrieved : session.retr ≤ 150
  opens : session.fdLocal ≠ PF_RET_FAILURE
  closes : session.close = 226
  inOrder : transfer.breaksAfter = none
  writable : ∀ room, transfer.room = some room → transfer.sent.length ≤ room
  short : transfer.sent.length < session.filesize

/-- A call is interrupted again and again. -/
def Interrupted : Prop :=
  ∃ calls, ¬(session.copy transfer calls).Returned ∧
    ∀ later, calls ≤ later → transfer.calls later = .interrupted

end FtpSession
namespace DataTransfer

variable {transfer : DataTransfer}

/-- What a `read` receives arrives next on the connection. -/
theorem read_eq_some {received count : ℕ} {atMost : ℕ+} {buffer : List UInt8}
    (isRead : transfer.read received count atMost = some buffer) :
    buffer <+: transfer.arriving.drop received := by
  unfold read at isRead
  split_ifs at isRead with arrives inOrder
  · obtain rfl := Option.some_inj.mp isRead
    exact List.take_prefix _ _
  · obtain rfl := Option.some_inj.mp isRead
    exact List.nil_prefix

theorem length_le_of_read {received count : ℕ} {atMost : ℕ+}
    {buffer : List UInt8}
    (isRead : transfer.read received count atMost = some buffer) :
    buffer.length ≤ count := by
  unfold read at isRead
  split_ifs at isRead with arrives inOrder
  · obtain rfl := Option.some_inj.mp isRead
    exact (List.length_take_le _ _).trans (min_le_right _ _)
  · obtain rfl := Option.some_inj.mp isRead
    exact Nat.zero_le _

/-- A `read` that receives nothing is at the end of the connection. -/
theorem read_eq_nil {received count : ℕ} {atMost : ℕ+}
    (positive : 0 < count) (arrived : received ≤ transfer.arriving.length)
    (isRead : transfer.read received count atMost = some []) :
    transfer.breaksAfter = none ∧ received = transfer.arriving.length := by
  have moves := atMost.pos
  unfold read at isRead
  split_ifs at isRead with arrives inOrder
  · have length := congrArg List.length (Option.some_inj.mp isRead)
    rw [List.length_take, List.length_drop, List.length_nil] at length
    omega
  · exact ⟨inOrder, by omega⟩

theorem read_eq_none {received count : ℕ} {atMost : ℕ+}
    (isRead : transfer.read received count atMost = none) :
    transfer.breaksAfter ≠ none := by
  unfold read at isRead
  split_ifs at isRead with arrives inOrder
  exact inOrder

theorem accepted_eq_none {length len : ℕ} {atMost : ℕ+}
    (isAccepted : transfer.accepted length len atMost = none) :
    ∃ room, transfer.room = some room ∧ room ≤ length := by
  unfold accepted at isAccepted
  split at isAccepted
  case h_1 => cases isAccepted
  case h_2 room limited =>
    split_ifs at isAccepted with fits
    exact ⟨room, limited, not_lt.mp fits⟩

/-- What is accepted has room. -/
theorem accepted_fits {length len cc room : ℕ} {atMost : ℕ+}
    (limited : transfer.room = some room)
    (isAccepted : transfer.accepted length len atMost = some cc) :
    length + cc ≤ room := by
  unfold accepted at isAccepted
  rw [limited] at isAccepted
  dsimp only at isAccepted
  split_ifs at isAccepted with fits
  obtain rfl := Option.some_inj.mp isAccepted
  omega

theorem accepted_eq_some {length len cc : ℕ} {atMost : ℕ+}
    (isAccepted : transfer.accepted length len atMost = some cc) :
    cc ≤ len ∧ (0 < len → 0 < cc) := by
  have positive := atMost.pos
  unfold accepted at isAccepted
  split at isAccepted
  case h_1 => grind
  case h_2 room limited =>
    split_ifs at isAccepted with fits
    obtain rfl := Option.some_inj.mp isAccepted
    omega

end DataTransfer

/-! ## The copy comes to an end -/

/-- An upper bound for the calls that are left. -/
def callsLeft (transfer : DataTransfer) (state : CopyState) : ℕ :=
  match state.point with
  | .safeRead _ => 3 * (transfer.arriving.length - state.received) + 1
  | .fullWrite _ _ buf =>
      3 * (transfer.arriving.length - state.received) + 2 + buf.length
  | .returned _ => 0

section Termination

variable {transfer : DataTransfer} {loop : CopyLoop} {received : ℕ}
  {localFile : List UInt8}

@[simp] theorem callsLeft_out :
    callsLeft transfer ⟨loop.out, received, localFile⟩ = 0 := rfl

theorem callsLeft_copied (rd : ℕ) :
    callsLeft transfer ⟨loop.copied rd, received, localFile⟩ ≤
      3 * (transfer.arriving.length - received) + 1 := by
  unfold CopyLoop.copied
  dsimp only
  split_ifs
  · exact Nat.zero_le _
  · exact le_rfl
  · exact le_rfl

theorem callsLeft_afterRead {count : ℕ} {atMost : ℕ+}
    {rd : Option (List UInt8)}
    (isRead : transfer.read received count atMost = rd) :
    callsLeft transfer ⟨loop.afterRead rd,
        received + (rd.getD []).length, localFile⟩ <
      3 * (transfer.arriving.length - received) + 1 := by
  cases rd with
  | none => exact Nat.succ_pos _
  | some buffer =>
      have fits := (DataTransfer.read_eq_some isRead).length_le
      rw [List.length_drop] at fits
      cases buffer with
      | nil => exact Nat.succ_pos _
      | cons byte bytes =>
          rw [List.length_cons] at fits
          unfold CopyLoop.afterRead
          split_ifs
          · simp only [callsLeft, Option.getD_some, List.length_cons]
            omega
          · refine (callsLeft_copied _).trans_lt ?_
            simp only [Option.getD_some, List.length_cons]
            omega

theorem callsLeft_afterWrite {length rd : ℕ} {atMost : ℕ+} {buf : List UInt8}
    {cc : Option ℕ}
    (isAccepted : transfer.accepted length buf.length atMost = cc) :
    callsLeft transfer ⟨loop.afterWrite rd buf cc, received, localFile⟩ <
      3 * (transfer.arriving.length - received) + 2 + buf.length := by
  cases cc with
  | none =>
      refine Nat.lt_of_le_of_lt (Nat.le_of_eq callsLeft_out) ?_
      omega
  | some cc =>
      have bounds := DataTransfer.accepted_eq_some isAccepted
      rw [CopyLoop.afterWrite_some]
      split_ifs with isDone
      · have before :
            callsLeft transfer ⟨loop.copied rd, received, localFile⟩ ≤
              3 * (transfer.arriving.length - received) + 1 :=
          callsLeft_copied rd
        omega
      · rw [List.drop_eq_nil_iff, not_le] at isDone
        simp only [callsLeft, List.length_drop]
        omega

/-- Every call that is not interrupted leaves fewer calls. -/
theorem callsLeft_copyStep {state : CopyState} {call : SystemCall}
    (notReturned : ¬state.Returned) (notInterrupted : call ≠ .interrupted) :
    callsLeft transfer (copyStep transfer state call) <
      callsLeft transfer state := by
  obtain ⟨point, received, localFile⟩ := state
  cases call with
  | interrupted => exact absurd rfl notInterrupted
  | moves atMost =>
      cases point with
      | safeRead loop => exact callsLeft_afterRead rfl
      | fullWrite loop rd buf => exact callsLeft_afterWrite rfl
      | returned total => exact absurd ⟨total, rfl⟩ notReturned

theorem copyStep_of_returned {state : CopyState} (call : SystemCall)
    (returned : state.Returned) :
    copyStep transfer state call = state := by
  obtain ⟨point, received, localFile⟩ := state
  obtain ⟨total, rfl⟩ := returned
  cases call with
  | interrupted => rfl
  | moves atMost => rfl

/-- From wherever it is, the copy returns unless a call is interrupted for
ever. -/
theorem exists_returned_iff (start : CopyState) :
    (∃ calls, (after (copyStep transfer) transfer.calls start calls).Returned) ↔
      ¬∃ calls,
        ¬(after (copyStep transfer) transfer.calls start calls).Returned ∧
        ∀ later, calls ≤ later → transfer.calls later = .interrupted := by
  refine @After.exists_final_iff _ _ _ _ _ CopyState.Returned
    (fun call => call = SystemCall.interrupted) (callsLeft transfer) ?_ ?_ ?_
  · rintro state _ rfl
    rfl
  · intro state call returned
    exact copyStep_of_returned call returned
  · intro state call notReturned notInterrupted
    exact callsLeft_copyStep notReturned notInterrupted

end Termination

/-! ## What has been copied -/

/-- The variables of the loop after some bytes of the announced ones, which are
copied to a file. -/
structure CopyLoop.Counts (loop : CopyLoop) (announced : ℤ) (bytes : ℕ) :
    Prop where
  writes : 0 ≤ loop.dst_fd
  counted : loop.status = PF_RET_FAILURE
  remaining : loop.size = announced - bytes
  unfinished : 0 < loop.size
  totals : loop.total = bytes

/-- Why the copy returns what it returns. -/
inductive CopyEnd (transfer : DataTransfer) (announced : ℤ) (bytes : ℕ) :
    ℤ → Prop
  | allCopied (all : announced = bytes) : CopyEnd transfer announced bytes bytes
  | endOfFile (inOrder : transfer.breaksAfter = none)
      (atEnd : bytes = transfer.arriving.length) (early : bytes < announced) :
      CopyEnd transfer announced bytes bytes
  | connectionBroken (broken : transfer.breaksAfter ≠ none) :
      CopyEnd transfer announced bytes PF_RET_FAILURE
  | fileFull (room : ℕ) (limited : transfer.room = some room)
      (full : room ≤ bytes) (more : bytes < transfer.arriving.length) :
      CopyEnd transfer announced bytes PF_RET_FAILURE

/-- The local file has what has arrived, up to what is still to be written. -/
def CopyPoint.Copies (transfer : DataTransfer) (announced : ℤ)
    (received bytes : ℕ) : CopyPoint → Prop
  | .safeRead loop => loop.Counts announced bytes ∧ received = bytes
  | .fullWrite loop rd buf =>
      loop.Counts announced (received - rd) ∧ rd ≤ loop.size ∧
        rd ≤ received ∧ buf ≠ [] ∧
        buf = (transfer.arriving.take received).drop bytes
  | .returned total => CopyEnd transfer announced bytes total

/-- The local file is a first part of what arrives. -/
structure Copying (transfer : DataTransfer) (announced : ℤ)
    (state : CopyState) : Prop where
  arrived : state.received ≤ transfer.arriving.length
  file : state.localFile = transfer.arriving.take state.localFile.length
  behind : state.localFile.length ≤ state.received
  fits : ∀ room, transfer.room = some room → state.localFile.length ≤ room
  point : state.point.Copies transfer announced state.received
    state.localFile.length

section Copying

variable {transfer : DataTransfer} {announced : ℤ} {loop : CopyLoop}

theorem CopyLoop.Counts.out {bytes : ℕ} (counts : loop.Counts announced bytes) :
    loop.out = .returned PF_RET_FAILURE := by
  unfold CopyLoop.out
  rw [counts.counted]
  rfl

/-- A piece that is copied counts, and the last one ends the loop. -/
theorem CopyLoop.Counts.copied {before rd : ℕ}
    (counts : loop.Counts announced before) (fits : rd ≤ loop.size) :
    (loop.copied rd).Copies transfer announced (before + rd) (before + rd) := by
  have remaining := counts.remaining
  have totals := counts.totals
  have bounded : loop.status < 0 := by
    rw [counts.counted]
    decide
  unfold CopyLoop.copied
  dsimp only
  rw [if_pos bounded]
  split_ifs with isLast
  · have total : loop.total + rd = ((before + rd : ℕ) : ℤ) := by omega
    refine (?_ : CopyEnd transfer announced (before + rd) (loop.total + rd))
    rw [total]
    exact .allCopied (by omega)
  · refine ⟨⟨counts.writes, counts.counted, ?_, ?_, ?_⟩, rfl⟩
    · simp only
      omega
    · simp only
      omega
    · simp only
      omega

theorem CopyLoop.Counts.count_pos {bytes : ℕ}
    (counts : loop.Counts announced bytes) :
    0 < loop.count ∧ (loop.count : ℤ) ≤ loop.size := by
  have unfinished := counts.unfinished
  unfold CopyLoop.count BUFSIZ
  split_ifs
  · omega
  · omega

/-- What follows a `read` at the end of what has been copied. -/
theorem CopyLoop.Counts.afterRead {bytes : ℕ} {atMost : ℕ+}
    {rd : Option (List UInt8)}
    (counts : loop.Counts announced bytes)
    (arrived : bytes ≤ transfer.arriving.length)
    (isRead : transfer.read bytes loop.count atMost = rd) :
    (loop.afterRead rd).Copies transfer announced
      (bytes + (rd.getD []).length) bytes := by
  obtain ⟨positive, bounded⟩ := counts.count_pos
  cases rd with
  | none =>
      refine (?_ : loop.out.Copies transfer announced bytes bytes)
      rw [counts.out]
      exact .connectionBroken (DataTransfer.read_eq_none isRead)
  | some buffer =>
      cases buffer with
      | nil =>
          obtain ⟨inOrder, atEnd⟩ :=
            DataTransfer.read_eq_nil positive arrived isRead
          have remaining := counts.remaining
          have unfinished := counts.unfinished
          refine (?_ : CopyEnd transfer announced bytes loop.total)
          rw [counts.totals]
          exact .endOfFile inOrder atEnd (by omega)
      | cons byte buffer =>
          have isNext := (List.prefix_iff_eq_take.mp
            (DataTransfer.read_eq_some isRead))
          have isShort := DataTransfer.length_le_of_read isRead
          rw [CopyLoop.afterRead_cons, if_pos counts.writes, Option.getD_some]
          refine ⟨?_, by omega, by omega, List.cons_ne_nil _ _, ?_⟩
          · rw [Nat.add_sub_cancel]
            exact counts
          · rw [List.drop_take, Nat.add_sub_cancel_left]
            exact isNext

/-- What follows a `write` of a piece. -/
theorem CopyLoop.Counts.afterWrite {received rd bytes : ℕ} {atMost : ℕ+}
    {buf : List UInt8} {cc : Option ℕ}
    (counts : loop.Counts announced (received - rd)) (fits : rd ≤ loop.size)
    (within : rd ≤ received) (arrived : received ≤ transfer.arriving.length)
    (behind : bytes ≤ received) (some_left : buf ≠ [])
    (isNext : buf = (transfer.arriving.take received).drop bytes)
    (isAccepted : transfer.accepted bytes buf.length atMost = cc) :
    (loop.afterWrite rd buf cc).Copies transfer announced received
      (bytes + cc.getD 0) := by
  have length := congrArg List.length isNext
  rw [List.length_drop, List.length_take, min_eq_left arrived] at length
  have positive := List.length_pos_iff.mpr some_left
  cases cc with
  | none =>
      obtain ⟨room, limited, full⟩ := DataTransfer.accepted_eq_none isAccepted
      refine (?_ : loop.out.Copies transfer announced received bytes)
      rw [counts.out]
      exact .fileFull room limited full (by omega)
  | some cc =>
      obtain ⟨bounded, moves⟩ := DataTransfer.accepted_eq_some isAccepted
      rw [CopyLoop.afterWrite_some, Option.getD_some]
      split_ifs with isDone
      · rw [List.drop_eq_nil_iff] at isDone
        have all : bytes + cc = received - rd + rd := by omega
        have isAll : received = received - rd + rd := by omega
        rw [all]
        nth_rewrite 1 [isAll]
        exact counts.copied fits
      · refine ⟨counts, fits, within, isDone, ?_⟩
        rw [isNext, List.drop_drop]

theorem Copying.read {received : ℕ} {localFile : List UInt8}
    (copying : Copying transfer announced ⟨.safeRead loop, received, localFile⟩)
    (atMost : ℕ+) :
    Copying transfer announced
      (copyStep transfer ⟨.safeRead loop, received, localFile⟩
        (.moves atMost)) := by
  have counts : loop.Counts announced localFile.length := copying.point.1
  obtain rfl : received = localFile.length := copying.point.2
  have arrived : localFile.length ≤ transfer.arriving.length :=
    copying.arrived
  refine ⟨?_, copying.file, Nat.le_add_right _ _, copying.fits,
    counts.afterRead arrived rfl⟩
  refine (?_ : localFile.length +
    ((transfer.read localFile.length loop.count atMost).getD []).length ≤
      transfer.arriving.length)
  cases isRead : transfer.read localFile.length loop.count atMost with
  | none => exact arrived
  | some buffer =>
      have within := (DataTransfer.read_eq_some isRead).length_le
      rw [List.length_drop] at within
      rw [Option.getD_some]
      omega

theorem Copying.write {received rd : ℕ} {localFile buf : List UInt8}
    (copying : Copying transfer announced
      ⟨.fullWrite loop rd buf, received, localFile⟩)
    (atMost : ℕ+) :
    Copying transfer announced
      (copyStep transfer ⟨.fullWrite loop rd buf, received, localFile⟩
        (.moves atMost)) := by
  obtain ⟨counts, remains, within, someLeft, isNext⟩ :
    CopyPoint.Copies transfer announced received localFile.length
      (.fullWrite loop rd buf) := copying.point
  have arrived : received ≤ transfer.arriving.length := copying.arrived
  have behind : localFile.length ≤ received := copying.behind
  have follows := counts.afterWrite remains within arrived behind someLeft
    isNext (Eq.refl (transfer.accepted localFile.length buf.length atMost))
  have file : localFile = transfer.arriving.take localFile.length :=
    copying.file
  have bufLength := congrArg List.length isNext
  rw [List.length_drop, List.length_take, min_eq_left arrived] at bufLength
  unfold copyStep
  dsimp only
  generalize isAccepted :
    transfer.accepted localFile.length buf.length atMost = cc at follows ⊢
  have bounded : cc.getD 0 ≤ buf.length := by
    cases cc with
    | none => exact Nat.zero_le _
    | some cc => exact (DataTransfer.accepted_eq_some isAccepted).1
  have newLength : (localFile ++ buf.take (cc.getD 0)).length =
      localFile.length + cc.getD 0 := by
    rw [List.length_append, List.length_take, min_eq_left bounded]
  refine ⟨arrived, ?_, ?_, ?_, ?_⟩
  · dsimp only
    rw [newLength, List.take_add, ← file, isNext, List.drop_take,
      List.take_take, min_eq_left (by omega)]
  · dsimp only
    omega
  · intro room limited
    dsimp only
    rw [newLength]
    cases cc with
    | none => exact copying.fits room limited
    | some cc => exact DataTransfer.accepted_fits limited isAccepted
  · dsimp only
    rw [newLength]
    exact follows

/-- Every system call keeps the file a copy of what has arrived. -/
theorem Copying.copyStep {state : CopyState}
    (copying : Copying transfer announced state) (call : SystemCall) :
    Copying transfer announced (copyStep transfer state call) := by
  obtain ⟨point, received, localFile⟩ := state
  cases call with
  | interrupted => exact copying
  | moves atMost =>
      cases point with
      | safeRead loop => exact copying.read atMost
      | fullWrite loop rd buf => exact copying.write atMost
      | returned total => exact copying

/-- The copy starts with nothing. -/
theorem Copying.start {src_fd dst_fd : ℤ} (positive : 0 < announced)
    (connected : 0 ≤ src_fd) (opened : 0 ≤ dst_fd) :
    Copying transfer announced
      ⟨bbCopyfdSize src_fd dst_fd announced, 0, []⟩ := by
  refine ⟨Nat.zero_le _, rfl, le_rfl, fun _ _ => Nat.zero_le _, ?_⟩
  unfold bbCopyfdSize bbFullFdAction
  rw [if_pos positive.ne', if_neg connected.not_gt, if_neg positive.ne']
  exact ⟨⟨opened, rfl, (sub_zero _).symm, positive, rfl⟩, rfl⟩

end Copying

/-! ## When a download is what it is reported to be -/

namespace DataTransfer

variable {transfer : DataTransfer}

/-- What arrives is the front of what is sent. -/
theorem arriving_prefix : transfer.arriving <+: transfer.sent := by
  unfold arriving
  split
  · exact List.prefix_rfl
  · exact List.take_prefix _ _

theorem arriving_of_inOrder (inOrder : transfer.breaksAfter = none) :
    transfer.arriving = transfer.sent := by
  unfold arriving
  rw [inOrder]

end DataTransfer

namespace FtpSession

variable {session : FtpSession} {transfer : DataTransfer} {calls : ℕ}

theorem fdLocal_nonneg (opens : session.fdLocal ≠ PF_RET_FAILURE) :
    0 ≤ session.fdLocal := by
  unfold fdLocal xopen at opens ⊢
  split_ifs at opens ⊢
  · decide
  · split at opens
    · exact absurd rfl opens
    · exact Int.natCast_nonneg _

/-- A download is reported as successful when all goes well. -/
theorem ftpRecieve_eq_success :
    session.ftpRecieve transfer calls = some .RET_SUCCESS ↔
      session.pasv = 227 ∧ session.retr ≤ 150 ∧
        session.fdLocal ≠ PF_RET_FAILURE ∧ session.close = 226 ∧
        ∃ total, total ≠ PF_RET_FAILURE ∧
          (session.copy transfer calls).point = .returned total := by
  unfold ftpRecieve ftpClose
  cases point : (session.copy transfer calls).point with
  | returned total => grind
  | safeRead loop => grind
  | fullWrite loop rd buf => grind

/-- The copy at any time. -/
theorem copying_copy (announced : 0 < session.filesize)
    (connected : 0 ≤ session.fd_data)
    (opens : session.fdLocal ≠ PF_RET_FAILURE) (calls : ℕ) :
    Copying transfer session.filesize (session.copy transfer calls) :=
  After.preserves (fun _ call copying => copying.copyStep call)
    (Copying.start announced connected (fdLocal_nonneg opens)) calls

/-- Without a data connection the copy fails. -/
theorem copy_of_unconnected (announced : 0 < session.filesize)
    (unconnected : session.fd_data < 0) (calls : ℕ) :
    (session.copy transfer calls).point = .returned PF_RET_FAILURE := by
  have start : bbCopyfdSize session.fd_data session.fdLocal session.filesize =
      .returned PF_RET_FAILURE := by
    unfold bbCopyfdSize bbFullFdAction
    rw [if_pos announced.ne', if_pos unconnected]
    rfl
  unfold copy
  rw [start, After.eq_of_final
    (fun state call returned => copyStep_of_returned call returned)
    (Nat.zero_le calls) ⟨PF_RET_FAILURE, rfl⟩]
  rfl

theorem returned_iff :
    (∃ calls, (session.copy transfer calls).Returned) ↔
      ¬session.Interrupted transfer :=
  exists_returned_iff _

/-- A download does what is expected of it exactly when the server does not end
the connection early while all else goes well, and no call is interrupted for
ever. -/
theorem receivesFaithfully_iff (announced : 0 < session.filesize) :
    session.ReceivesFaithfully transfer ↔
      ¬session.EndsEarly transfer ∧ ¬session.Interrupted transfer := by
  constructor
  · intro faithful
    refine ⟨?_, returned_iff.mp faithful.returns⟩
    intro early
    obtain ⟨calls, total, returned⟩ := faithful.returns
    have copying : Copying transfer session.filesize
        (session.copy transfer calls) :=
      copying_copy announced early.connected early.opens calls
    have arriving := transfer.arriving_of_inOrder early.inOrder
    have whole := copying.arrived
    have behind := copying.behind
    have ends := copying.point
    rw [returned] at ends
    have short := early.short
    rw [arriving] at whole
    refine (?_ : ¬CopyEnd transfer session.filesize _ total) ends
    rintro (all | ⟨inOrder, atEnd, _⟩ | broken | ⟨room, limited, full, more⟩)
    · omega
    · have success := ftpRecieve_eq_success.mpr ⟨early.passive,
        early.retrieved, early.opens, early.closes, _, ?_, returned⟩
      · have isWhole := (faithful.complete calls success).2
        omega
      · unfold PF_RET_FAILURE
        omega
    · exact broken early.inOrder
    · have fits := early.writable room limited
      rw [arriving] at more
      omega
  · rintro ⟨notEarly, notInterrupted⟩
    refine ⟨?_, returned_iff.mpr notInterrupted⟩
    intro calls success
    obtain ⟨passive, retrieved, opens, closes, total, noFailure, returned⟩ :=
      ftpRecieve_eq_success.mp success
    have connected : 0 ≤ session.fd_data := by
      by_contra unconnected
      rw [copy_of_unconnected announced (not_le.mp unconnected) calls]
        at returned
      exact noFailure (CopyPoint.returned.inj returned).symm
    have copying : Copying transfer session.filesize
        (session.copy transfer calls) :=
      copying_copy announced connected opens calls
    have ends := copying.point
    rw [returned] at ends
    refine (?_ : CopyEnd transfer session.filesize _ total → _) ends
    rintro (all | ⟨inOrder, atEnd, isEarly⟩ | broken | ⟨_, _, _, _⟩)
    · have file := copying.file
      have arrived := copying.behind.trans copying.arrived
      obtain ⟨lost, sent⟩ := transfer.arriving_prefix
      have isShort := congrArg List.length sent
      rw [List.length_append] at isShort
      refine ⟨?_, by omega⟩
      rw [all, Int.toNat_natCast, ← sent,
        List.take_append_of_le_length arrived]
      exact file
    · exfalso
      have arriving := transfer.arriving_of_inOrder inOrder
      rw [arriving] at atEnd
      refine notEarly ⟨passive, connected, retrieved, opens, closes, inOrder,
        ?_, by omega⟩
      intro room limited
      rw [← atEnd]
      exact copying.fits room limited
    · exact absurd rfl noFailure
    · exact absurd rfl noFailure

/-- A session in which all goes well. -/
def smooth (announced : ℕ) : FtpSession where
  pasv := 227
  fd_data := 4
  sizeReply := 213
  announced := announced
  retr := 150
  local_path := ['a']
  opened := some 5
  close := 226

/-- Every other call is interrupted. -/
theorem receivesFaithfully_iff_smooth :
    (smooth 2).ReceivesFaithfully
      ⟨[1, 2, 3], none, none,
        fun call => if call % 2 = 0 then .interrupted else .moves 1⟩ := by
  refine (receivesFaithfully_iff (by decide)).mpr ⟨?_, ?_⟩
  · intro early
    exact absurd early.short (by decide)
  · rintro ⟨calls, -, interrupted⟩
    have isMove := interrupted (2 * calls + 1) (by omega)
    dsimp only at isMove
    rw [if_neg (by omega)] at isMove
    cases isMove

/-- Of two announced bytes one is sent. -/
theorem not_receivesFaithfully_early :
    ¬(smooth 2).ReceivesFaithfully ⟨[1], none, none, fun _ => .moves 1⟩ := by
  intro faithful
  have isWhole := (faithful.complete 3 (by decide)).2
  exact absurd isWhole (by decide)

end FtpSession

end Platform
end Pilot2Cloud
