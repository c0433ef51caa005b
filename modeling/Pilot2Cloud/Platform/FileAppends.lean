import Mathlib.Data.String.Basic
import Pilot2Cloud.Foundation.SortedMap
import Pilot2Cloud.Foundation.Transitions

/-!
# Appends that are queued

Any thread can queue a text for the end of a file.  A task takes all that is
queued and writes it, file by file: one text after the other, or all of them at
once from the third on.  While it writes, more texts are queued.
-/

namespace Pilot2Cloud
namespace Platform

open Foundation

/-- The characters of a text. -/
abbrev FileText := List UInt8

/-- What is queued: a text, or `NULL` to create the file only. -/
abbrev Queued := Option FileText

/-- `g_stFileMapInfo`. -/
abbrev FileInfoList := SortedMap String (List Queued)

/-- How far the task has come with what it took. -/
inductive AppendPoint
  | idle
  /-- The map was not empty when the task looked at it. -/
  | found
  | writing (pending : List (String × Queued))
  /-- A `NULL` pointer was dereferenced. -/
  | crashed

/-- What the task has taken and not written. -/
def AppendPoint.pending : AppendPoint → List (String × Queued)
  | .writing pending => pending
  | _ => []

/-- The map of contents to append, the module's place in its loop, and the
files. -/
structure FileAppends where
  g_stFileMapInfo : FileInfoList
  point : AppendPoint
  files : String → Option FileText

/-- A call of `pf_copy_msg_file`, or a step of the module. -/
inductive AppendEvent
  | pfCopyMsgFile (fileName : String) (strContentPtr : Queued)
  | timerExpiry
  /-- The map is copied and cleared under the mutex. -/
  | takeMap
  /-- `pf_write_endof_file` of the next text. -/
  | write
  | finish

namespace FileAppends

/-- The texts of a file are put together, unless one is `NULL`. -/
def merge (contents : List Queued) : Queued :=
  contents.foldl (fun strInfo content =>
    strInfo.bind fun text => content.map (text ++ ·)) (some [])

/-- What is written for a file, in one piece from three texts on. -/
def pieces (contents : List Queued) : List Queued :=
  if 3 ≤ contents.length then [merge contents] else contents

/-- The writes of a flush, file by file. -/
def writes (entries : List (String × List Queued)) :
    List (String × Queued) :=
  entries.flatMap fun entry =>
    (pieces entry.2).map fun piece => (entry.1, piece)

/-- `pf_write_endof_file`, which takes the length as an `U32`. -/
def pfWriteEndofFile (file : Option FileText) (scStr : FileText) :
    Option FileText :=
  some (file.getD [] ++ scStr.take (scStr.length % 2 ^ 32))

/-- Nothing has been queued. -/
def initial (files : String → Option FileText) : FileAppends where
  g_stFileMapInfo := .empty
  point := .idle
  files := files

/-- The texts that are queued for a file. -/
def contents (appends : FileAppends) (fileName : String) : List Queued :=
  (appends.g_stFileMapInfo.find fileName).getD []

/-- `pf_copy_msg_file`. -/
def copyMsgFile (appends : FileAppends) (fileName : String)
    (strContentPtr : Queued) : FileAppends :=
  if fileName = "" then appends
  else
    { appends with
      g_stFileMapInfo := appends.g_stFileMapInfo.assign fileName
        (appends.contents fileName ++ [strContentPtr]) }

/-- The next text is written. -/
def writeNext (appends : FileAppends) :
    List (String × Queued) → Option FileAppends
  | [] => none
  | (_, none) :: _ => some { appends with point := .crashed }
  | (fileName, some text) :: pending =>
      some { appends with
        point := .writing pending
        files := Function.update appends.files fileName
          (pfWriteEndofFile (appends.files fileName) text) }

/-- One step of a thread or of the task, if it can be next. -/
def next (appends : FileAppends) : AppendEvent → Option FileAppends
  | .pfCopyMsgFile fileName strContentPtr =>
      match appends.point with
      | .crashed => none
      | _ => some (appends.copyMsgFile fileName strContentPtr)
  | .timerExpiry =>
      match appends.point with
      | .idle =>
          if appends.g_stFileMapInfo.entries = [] then some appends
          else some { appends with point := .found }
      | _ => none
  | .takeMap =>
      match appends.point with
      | .found =>
          some { appends with
            g_stFileMapInfo := .empty
            point := .writing (writes appends.g_stFileMapInfo.entries) }
      | _ => none
  | .write =>
      match appends.point with
      | .writing pending => appends.writeNext pending
      | _ => none
  | .finish =>
      match appends.point with
      | .writing [] => some { appends with point := .idle }
      | _ => none

/-- One event leads to a state. -/
def Step (appends : FileAppends) (event : AppendEvent)
    (after : FileAppends) : Prop :=
  appends.next event = some after

/-! ## What the appends are for -/

/-- A text is appended to a file, which is created if need be; `NULL` only
creates it. -/
def appendQueued (file : Option FileText) (content : Queued) :
    Option FileText :=
  some (file.getD [] ++ content.getD [])

/-- All that is queued for a file is appended in order. -/
def appendAll (file : Option FileText) (contents : List Queued) :
    Option FileText :=
  contents.foldl appendQueued file

/-- What is queued for a file in a run. -/
def queuedFor (fileName : String) : List AppendEvent → List Queued
  | [] => []
  | .pfCopyMsgFile other content :: events =>
      if other = fileName ∧ other ≠ "" then
        content :: queuedFor fileName events
      else queuedFor fileName events
  | _ :: events => queuedFor fileName events

/-- The task has not crashed, and when it is done each file has what was queued
for it before the map was taken last. -/
structure Faithful (files : String → Option FileText)
    (events : List AppendEvent) (appends : FileAppends) : Prop where
  running : appends.point ≠ .crashed
  complete : ∀ before after, events = before ++ .takeMap :: after →
    AppendEvent.takeMap ∉ after → appends.point = .idle →
      ∀ fileName, appends.files fileName =
        appendAll (files fileName) (queuedFor fileName before)

/-! ## What a flush can write -/

/-- No content is `NULL`, and nothing that is written at once has 2^32
characters. -/
structure Writable (contents : List Queued) : Prop where
  given : none ∉ contents
  short : ∀ text, some text ∈ pieces contents → text.length < 2 ^ 32

/-- When the map is taken, all that it holds can be written. -/
def TakesWritable (appends : FileAppends) (event : AppendEvent) : Prop :=
  event = .takeMap → ∀ fileName, Writable (appends.contents fileName)

/-! ## One write or several -/

theorem merge_from (text : FileText) (texts : List FileText) :
    (texts.map some).foldl (fun strInfo content =>
        strInfo.bind fun text => content.map (text ++ ·)) (some text) =
      some (text ++ texts.flatten) := by
  induction texts generalizing text with
  | nil => simp
  | cons first texts inductionHypothesis =>
      rw [List.map_cons, List.foldl_cons, Option.bind_some, Option.map_some,
        inductionHypothesis, List.flatten_cons, List.append_assoc]

@[simp] theorem merge_map_some (texts : List FileText) :
    merge (texts.map some) = some texts.flatten :=
  merge_from [] texts

@[simp]
theorem appendAll_append (file : Option FileText) (early late : List Queued) :
    appendAll file (early ++ late) = appendAll (appendAll file early) late :=
  List.foldl_append

/-- The texts of a file come one after the other. -/
theorem appendAll_map_some (file : Option FileText) (first : FileText)
    (texts : List FileText) :
    appendAll file ((first :: texts).map some) =
      some (file.getD [] ++ (first :: texts).flatten) := by
  induction texts generalizing file first with
  | nil => simp [appendAll, appendQueued]
  | cons second texts inductionHypothesis =>
      calc appendAll file ((first :: second :: texts).map some)
          = appendAll (appendQueued file (some first))
              ((second :: texts).map some) := rfl
        _ = some ((appendQueued file (some first)).getD [] ++
              (second :: texts).flatten) := inductionHypothesis _ _
        _ = some (file.getD [] ++ (first :: second :: texts).flatten) := by
            simp [appendQueued]

theorem exists_texts {contents : List Queued} (given : none ∉ contents) :
    ∃ texts : List FileText, contents = texts.map some := by
  induction contents with
  | nil => exact ⟨[], rfl⟩
  | cons content contents inductionHypothesis =>
      obtain ⟨isGiven, later⟩ := not_or.mp (mt List.mem_cons.mpr given)
      obtain ⟨texts, rfl⟩ := inductionHypothesis later
      cases content with
      | none => exact absurd rfl isGiven
      | some text => exact ⟨text :: texts, rfl⟩

/-- The texts that are put together are what the single texts would be. -/
theorem appendAll_pieces (file : Option FileText) {contents : List Queued}
    (given : none ∉ contents) :
    appendAll file (pieces contents) = appendAll file contents := by
  unfold pieces
  split_ifs with several
  · obtain ⟨texts, rfl⟩ := exists_texts given
    cases texts with
    | nil => simp at several
    | cons first texts =>
        rw [appendAll_map_some, merge_map_some]
        rfl
  · rfl

/-- Every piece of what can be written is a short text. -/
theorem Writable.exists_text {contents : List Queued}
    (writable : Writable contents) {piece : Queued}
    (isPiece : piece ∈ pieces contents) :
    ∃ text, piece = some text ∧ text.length < 2 ^ 32 := by
  suffices isGiven : piece ≠ none by
    obtain ⟨text, rfl⟩ := Option.ne_none_iff_exists'.mp isGiven
    exact ⟨text, rfl, writable.short text isPiece⟩
  unfold pieces at isPiece
  split_ifs at isPiece with several
  · obtain ⟨texts, rfl⟩ := exists_texts writable.given
    rw [List.mem_singleton.mp isPiece, merge_map_some]
    exact Option.some_ne_none _
  · rintro rfl
    exact writable.given isPiece

/-! ## What remains to be written for a file -/

/-- The writes of a file among those of a flush. -/
def writesFor (fileName : String) (pending : List (String × Queued)) :
    List Queued :=
  (pending.filter fun write => write.1 = fileName).map Prod.snd

theorem writesFor_append (fileName : String)
    (early late : List (String × Queued)) :
    writesFor fileName (early ++ late) =
      writesFor fileName early ++ writesFor fileName late := by
  unfold writesFor
  rw [List.filter_append, List.map_append]

theorem writesFor_file (fileName other : String) (contents : List Queued) :
    writesFor fileName (contents.map fun piece => (other, piece)) =
      if other = fileName then contents else [] := by
  unfold writesFor
  rw [List.filter_map, List.map_map]
  split_ifs with same
  · simp [Function.comp_def, same]
  · simp [Function.comp_def, same]

theorem writesFor_of_absent {fileName : String}
    {entries : List (String × List Queued)}
    (absent : ∀ entry ∈ entries, entry.1 ≠ fileName) :
    writesFor fileName (writes entries) = [] := by
  induction entries with
  | nil => rfl
  | cons entry entries inductionHypothesis =>
      obtain ⟨isOther, later⟩ := List.forall_mem_cons.mp absent
      unfold writes at inductionHypothesis ⊢
      rw [List.flatMap_cons, writesFor_append, writesFor_file,
        if_neg isOther, inductionHypothesis later]
      rfl

/-- A file is written as its entry in the map says. -/
theorem writesFor_writes (map : FileInfoList) (fileName : String) :
    writesFor fileName (writes map.entries) =
      pieces ((map.find fileName).getD []) := by
  obtain ⟨entries, sorted⟩ := map
  unfold SortedMap.find
  induction entries with
  | nil => rfl
  | cons entry entries inductionHypothesis =>
      obtain ⟨smallest, rest⟩ := List.pairwise_cons.mp sorted
      have split : writes (entry :: entries) =
          ((pieces entry.2).map fun piece => (entry.1, piece)) ++
            writes entries := List.flatMap_cons
      rw [split, writesFor_append, writesFor_file]
      by_cases same : entry.1 = fileName
      · have absent : ∀ later ∈ entries, later.1 ≠ fileName := by
          intro later isMember
          rw [← same]
          exact ne_of_gt (smallest later isMember)
        rw [if_pos same, writesFor_of_absent absent, List.append_nil,
          List.find?_cons_of_pos (by simp [same])]
        rfl
      · rw [if_neg same, List.nil_append, inductionHypothesis rest,
          List.find?_cons_of_neg (by simp [same])]

/-! ## The account of a file -/

/-- What has been queued for a file: what was taken, and what waits. -/
structure Account where
  taken : List Queued
  waiting : List Queued

namespace Account

variable (fileName : String)

/-- The account after an event. -/
def next (account : Account) : AppendEvent → Account
  | .takeMap => ⟨account.taken ++ account.waiting, []⟩
  | event =>
      { account with
        waiting := account.waiting ++ queuedFor fileName [event] }

/-- The account after some events. -/
def of (events : List AppendEvent) : Account :=
  events.foldl (next fileName) ⟨[], []⟩

variable {fileName : String}

theorem next_of_ne (account : Account) {event : AppendEvent}
    (isOther : event ≠ .takeMap) :
    account.next fileName event =
      { account with
        waiting := account.waiting ++ queuedFor fileName [event] } := by
  cases event
  case takeMap => exact absurd rfl isOther
  all_goals rfl

theorem queuedFor_append (early late : List AppendEvent) :
    queuedFor fileName (early ++ late) =
      queuedFor fileName early ++ queuedFor fileName late := by
  induction early with
  | nil => rfl
  | cons event early inductionHypothesis =>
      cases event with
      | pfCopyMsgFile other content =>
          rw [List.cons_append, queuedFor, queuedFor, inductionHypothesis]
          split_ifs
          · rfl
          · rfl
      | timerExpiry => exact inductionHypothesis
      | takeMap => exact inductionHypothesis
      | write => exact inductionHypothesis
      | finish => exact inductionHypothesis

@[simp] theorem of_concat (events : List AppendEvent) (event : AppendEvent) :
    of fileName (events ++ [event]) = (of fileName events).next fileName event :=
  List.foldl_concat _ _ _ _

/-- Everything is accounted for once, in the order it was queued. -/
theorem taken_append_waiting (events : List AppendEvent) :
    (of fileName events).taken ++ (of fileName events).waiting =
      queuedFor fileName events := by
  induction events using List.reverseRecOn with
  | nil => rfl
  | append_singleton events event inductionHypothesis =>
      rw [of_concat, queuedFor_append, ← inductionHypothesis]
      by_cases takes : event = .takeMap
      · subst takes
        rfl
      · rw [next_of_ne _ takes, List.append_assoc]

/-- What waits is not taken before the map is. -/
theorem taken_of_append {early late : List AppendEvent}
    (untaken : AppendEvent.takeMap ∉ late) :
    (of fileName (early ++ late)).taken = (of fileName early).taken := by
  induction late using List.reverseRecOn with
  | nil => rw [List.append_nil]
  | append_singleton late event inductionHypothesis =>
      have isOther : event ≠ .takeMap := by
        rintro rfl
        exact untaken (List.mem_append_right _ (List.mem_singleton_self _))
      have before : AppendEvent.takeMap ∉ late := fun isMember =>
        untaken (List.mem_append_left _ isMember)
      rw [← List.append_assoc, of_concat, next_of_ne _ isOther,
        inductionHypothesis before]

/-- The last time the map is taken, it is taken with all that was queued. -/
theorem taken_of_takeMap {before after : List AppendEvent}
    (last : AppendEvent.takeMap ∉ after) :
    (of fileName (before ++ .takeMap :: after)).taken =
      queuedFor fileName before := by
  rw [List.append_cons, taken_of_append last, of_concat,
    ← taken_append_waiting before]
  rfl

end Account

/-! ## Every file has what was taken for it, up to what is still pending -/

/-- The files hold what has been taken, and the map what waits. -/
structure Accounted (files : String → Option FileText)
    (account : String → Account) (appends : FileAppends) : Prop where
  running : appends.point ≠ .crashed
  short : ∀ write ∈ appends.point.pending,
    ∃ text, write.2 = some text ∧ text.length < 2 ^ 32
  waiting : ∀ fileName,
    appends.contents fileName = (account fileName).waiting
  written : ∀ fileName,
    appendAll (appends.files fileName)
        (writesFor fileName appends.point.pending) =
      appendAll (files fileName) (account fileName).taken

theorem Accounted.initial (files : String → Option FileText) :
    Accounted files (fun fileName => .of fileName [])
      (FileAppends.initial files) where
  running := nofun
  short := by
    intro write isPending
    cases isPending
  waiting fileName := rfl
  written fileName := rfl

theorem contents_copyMsgFile (appends : FileAppends)
    (fileName other : String) (content : Queued) :
    (appends.copyMsgFile other content).contents fileName =
      appends.contents fileName ++
        queuedFor fileName [.pfCopyMsgFile other content] := by
  unfold copyMsgFile queuedFor
  split_ifs with isEmpty same same
  · exact absurd isEmpty same.2
  · exact (List.append_nil _).symm
  · obtain ⟨rfl, -⟩ := same
    unfold contents
    rw [SortedMap.find_assign, if_pos rfl]
    rfl
  · have isOther : fileName ≠ other := fun isSame =>
      same ⟨isSame.symm, isEmpty⟩
    unfold contents
    rw [SortedMap.find_assign, if_neg isOther]
    exact (List.append_nil _).symm

/-- A short text is written in full. -/
theorem pfWriteEndofFile_of_short (file : Option FileText) {text : FileText}
    (short : text.length < 2 ^ 32) :
    pfWriteEndofFile file text = appendQueued file (some text) := by
  unfold pfWriteEndofFile appendQueued
  rw [Nat.mod_eq_of_lt short, List.take_length]
  rfl

theorem appendAll_write (files : String → Option FileText)
    (fileName other : String) {text : FileText}
    (short : text.length < 2 ^ 32) (pending : List (String × Queued)) :
    appendAll (Function.update files other
        (pfWriteEndofFile (files other) text) fileName)
        (writesFor fileName pending) =
      appendAll (files fileName)
        (writesFor fileName ((other, some text) :: pending)) := by
  unfold writesFor
  by_cases same : other = fileName
  · subst same
    rw [Function.update_self, pfWriteEndofFile_of_short _ short,
      List.filter_cons_of_pos (by simp)]
    rfl
  · rw [Function.update_of_ne (Ne.symm same),
      List.filter_cons_of_neg (by simp [same])]

namespace Accounted

variable {files : String → Option FileText} {account : String → Account}
  {appends after : FileAppends}

/-- A text that is queued waits, also while the task writes. -/
theorem copyMsgFile (accounted : Accounted files account appends)
    (other : String) (content : Queued) :
    Accounted files
      (fun fileName =>
        (account fileName).next fileName (.pfCopyMsgFile other content))
      (appends.copyMsgFile other content) := by
  have samePoint : (appends.copyMsgFile other content).point =
      appends.point := by
    unfold FileAppends.copyMsgFile
    split_ifs
    · rfl
    · rfl
  have sameFiles : (appends.copyMsgFile other content).files =
      appends.files := by
    unfold FileAppends.copyMsgFile
    split_ifs
    · rfl
    · rfl
  refine ⟨?_, ?_, fun fileName => ?_, fun fileName => ?_⟩
  · rw [samePoint]
    exact accounted.running
  · rw [samePoint]
    exact accounted.short
  · rw [contents_copyMsgFile, accounted.waiting]
    rfl
  · rw [samePoint, sameFiles]
    exact accounted.written fileName

/-- Events that neither queue nor take leave the accounts. -/
theorem of_accounts {event : AppendEvent}
    (accounted : Accounted files account after)
    (isOther : event ≠ .takeMap)
    (queuesNothing : ∀ fileName, queuedFor fileName [event] = []) :
    Accounted files
      (fun fileName => (account fileName).next fileName event) after := by
  have same : (fun fileName => (account fileName).next fileName event) =
      account := by
    funext fileName
    rw [Account.next_of_ne _ isOther, queuesNothing, List.append_nil]
  rw [same]
  exact accounted

/-- The task takes all that waits. -/
theorem takeMap (accounted : Accounted files account appends)
    (found : appends.point = .found)
    (writable : ∀ fileName, Writable (appends.contents fileName)) :
    Accounted files
      (fun fileName => (account fileName).next fileName .takeMap)
      { appends with
        g_stFileMapInfo := .empty
        point := .writing (writes appends.g_stFileMapInfo.entries) } where
  running := nofun
  short := by
    rintro ⟨fileName, piece⟩ isPending
    have isWrite : piece ∈
        writesFor fileName (writes appends.g_stFileMapInfo.entries) := by
      refine List.mem_map.mpr ⟨(fileName, piece), ?_, rfl⟩
      exact List.mem_filter.mpr ⟨isPending, by simp⟩
    rw [writesFor_writes] at isWrite
    exact (writable fileName).exists_text isWrite
  waiting fileName := rfl
  written fileName := by
    have before := accounted.written fileName
    rw [found] at before
    calc appendAll (appends.files fileName)
          (writesFor fileName (writes appends.g_stFileMapInfo.entries))
        = appendAll (appends.files fileName)
            (pieces (appends.contents fileName)) := by
          rw [writesFor_writes]
          rfl
      _ = appendAll (appends.files fileName) (appends.contents fileName) :=
          appendAll_pieces _ (writable fileName).given
      _ = appendAll (appendAll (files fileName) (account fileName).taken)
            (account fileName).waiting := by
          rw [accounted.waiting fileName, ← before]
          rfl
      _ = appendAll (files fileName)
            ((account fileName).taken ++ (account fileName).waiting) :=
          (appendAll_append _ _ _).symm

/-- One write brings a file closer to what was taken for it. -/
theorem write {pending : List (String × Queued)}
    (accounted : Accounted files account appends)
    (writing : appends.point = .writing pending)
    (next : appends.writeNext pending = some after) :
    Accounted files account after := by
  have short := accounted.short
  have written := accounted.written
  rw [writing] at short written
  cases pending with
  | nil => cases next
  | cons first pending =>
      obtain ⟨other, content⟩ := first
      obtain ⟨⟨text, isText, isShort⟩, later⟩ :=
        List.forall_mem_cons.mp short
      obtain rfl : content = some text := isText
      obtain rfl := Option.some_inj.mp next
      refine ⟨nofun, later, accounted.waiting, fun fileName => ?_⟩
      rw [← written fileName]
      exact appendAll_write appends.files fileName other isShort pending

theorem step {event : AppendEvent}
    (accounted : Accounted files account appends)
    (writable : appends.TakesWritable event)
    (next : Step appends event after) :
    Accounted files
      (fun fileName => (account fileName).next fileName event) after := by
  unfold Step FileAppends.next at next
  cases event with
  | pfCopyMsgFile other content =>
      dsimp only at next
      split at next
      · cases next
      · obtain rfl := Option.some_inj.mp next
        exact accounted.copyMsgFile other content
  | timerExpiry =>
      dsimp only at next
      refine of_accounts ?_ nofun fun fileName => rfl
      split at next
      case h_1 idle =>
        split_ifs at next with isEmpty
        · obtain rfl := Option.some_inj.mp next
          exact accounted
        · obtain rfl := Option.some_inj.mp next
          refine ⟨nofun, nofun, accounted.waiting, fun fileName => ?_⟩
          rw [← accounted.written fileName, idle]
          rfl
      case h_2 => cases next
  | takeMap =>
      dsimp only at next
      split at next
      case h_1 found =>
        obtain rfl := Option.some_inj.mp next
        exact accounted.takeMap found (writable rfl)
      case h_2 => cases next
  | write =>
      dsimp only at next
      refine of_accounts ?_ nofun fun fileName => rfl
      split at next
      case h_1 pending writing => exact accounted.write writing next
      case h_2 => cases next
  | finish =>
      dsimp only at next
      refine of_accounts ?_ nofun fun fileName => rfl
      split at next
      case h_1 done =>
        obtain rfl := Option.some_inj.mp next
        refine ⟨nofun, nofun, accounted.waiting, fun fileName => ?_⟩
        rw [← accounted.written fileName, done]
        rfl
      case h_2 => cases next

/-- In a run that takes only what can be written, everything is accounted
for. -/
theorem run {events : List AppendEvent}
    (accounted : Accounted files account appends)
    (writable : Along Step TakesWritable appends events)
    (run : Run Step appends events after) :
    Accounted files
      (fun fileName =>
        events.foldl (Account.next fileName) (account fileName)) after := by
  induction run generalizing account with
  | nil => exact accounted
  | cons first _ inductionHypothesis =>
      exact inductionHypothesis (accounted.step writable.1 first)
        (writable.2 _ first)

end Accounted

/-- Where every map that is taken can be written, each file has what was queued
for it, however the threads and the task interleave. -/
theorem faithful_of_writable {files : String → Option FileText}
    {events : List AppendEvent} {appends : FileAppends}
    (run : Run Step (initial files) events appends)
    (writable : Along Step TakesWritable (initial files) events) :
    Faithful files events appends := by
  have accounted := (Accounted.initial files).run writable run
  refine ⟨accounted.running, ?_⟩
  intro before after split last idle fileName
  subst split
  calc appends.files fileName
      = appendAll (appends.files fileName)
          (writesFor fileName appends.point.pending) := by
        rw [idle]
        rfl
    _ = appendAll (files fileName)
          (Account.of fileName (before ++ .takeMap :: after)).taken :=
        accounted.written fileName
    _ = appendAll (files fileName) (queuedFor fileName before) := by
        rw [Account.taken_of_takeMap last]

/-- Two texts for a file, the second while the first is written. -/
theorem faithful_of_writable_while :
    ∃ appends, appends.point = .idle ∧
      Faithful (fun _ => none)
        [.pfCopyMsgFile "a" (some [1]), .timerExpiry, .takeMap,
          .pfCopyMsgFile "a" (some [2]), .write, .finish] appends := by
  refine ⟨_, ?_, faithful_of_writable (Run.iff_foldlM.mpr rfl) ?_⟩
  · rfl
  · refine ⟨nofun, fun queued first => ⟨nofun, fun found second => ⟨?_, ?_⟩⟩⟩
    · intro _ fileName
      obtain rfl := Option.some_inj.mp first
      obtain rfl := Option.some_inj.mp second
      have texts := contents_copyMsgFile (initial fun _ => none) fileName "a"
        (some [1])
      refine (congrArg Writable texts).mpr ?_
      unfold queuedFor
      split_ifs
      · refine (?_ : Writable [some [1]])
        exact ⟨by decide, by simp [pieces]⟩
      · refine (?_ : Writable [])
        exact ⟨by decide, nofun⟩
    · intro _ _
      refine ⟨nofun, fun _ _ => ⟨nofun, fun _ _ => ⟨nofun, fun _ _ => ?_⟩⟩⟩
      trivial

/-- A `NULL` that should only create the file ends the task. -/
theorem not_faithful_null :
    ∃ appends,
      Run Step (initial fun _ => none)
        [.pfCopyMsgFile "a" none, .timerExpiry, .takeMap, .write] appends ∧
      ¬Faithful (fun _ => none)
        [.pfCopyMsgFile "a" none, .timerExpiry, .takeMap, .write]
        appends := by
  refine ⟨_, Run.iff_foldlM.mpr rfl, ?_⟩
  intro faithful
  exact faithful.running rfl

end FileAppends
end Platform
end Pilot2Cloud
