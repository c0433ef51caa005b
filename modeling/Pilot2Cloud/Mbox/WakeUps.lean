import Mathlib.Logic.Function.Basic
import Pilot2Cloud.Foundation.IndexRing
import Pilot2Cloud.Foundation.Transitions

/-!
# Waiting at a mailbox

The consumer and the producers wait at one condition variable, and each
operation wakes one of those that wait.  With two producers a wake-up can go to
a thread that cannot use it.
-/

namespace Pilot2Cloud
namespace Mbox

open Foundation

/-- The thread that gets messages, and those that put them. -/
inductive MboxThread (ι : Type)
  | consumer
  | producer (id : ι)
  deriving DecidableEq

/-- Where a thread is. -/
inductive WaitState
  /-- Not in `pthread_cond_wait`. -/
  | running
  /-- In `pthread_cond_wait` without a wake-up. -/
  | blocked
  /-- In `pthread_cond_wait` with a wake-up. -/
  | woken
  deriving DecidableEq

/-- The indices of `pf_mbox` and its threads. -/
structure MboxThreads (ι : Type) where
  ring : IndexRing
  threads : MboxThread ι → WaitState

/-- What a thread does while it has `qlock`; for `get` and `put` with the thread
that `pthread_cond_signal` wakes. -/
inductive MboxAction (ι : Type)
  | getWaits
  | get (wakes : Option (MboxThread ι))
  | putWaits (id : ι)
  | put (id : ι) (wakes : Option (MboxThread ι))

namespace MboxThreads

variable {ι : Type}

/-- A mailbox whose array has a size. -/
def initial (m_size : ℕ) (positive : 0 < m_size) : MboxThreads ι :=
  ⟨.empty m_size positive, fun _ => .running⟩

variable (mbox : MboxThreads ι)

/-- `pthread_cond_signal` can wake a thread, or there is none to wake. -/
def Signals : Option (MboxThread ι) → Prop
  | none => ∀ thread, mbox.threads thread ≠ .blocked
  | some thread => mbox.threads thread = .blocked

/-- The operation of the thread would not wait. -/
def CanGoOn : MboxThread ι → Prop
  | .consumer => mbox.ring.tail ≠ mbox.ring.head
  | .producer _ => ¬mbox.ring.Full

/-- Each thread that is in `pthread_cond_wait` and need not wait has a
wake-up. -/
def NoLostWakeUp : Prop :=
  ∀ thread, mbox.threads thread ≠ .running → mbox.CanGoOn thread →
    mbox.threads thread = .woken

variable [DecidableEq ι]

/-- `pthread_cond_signal`. -/
def wake (threads : MboxThread ι → WaitState) :
    Option (MboxThread ι) → MboxThread ι → WaitState
  | none => threads
  | some woken => Function.update threads woken .woken

/-- The ring and the threads after an operation of one of them. -/
def signal (ring : IndexRing) (thread : MboxThread ι)
    (wakes : Option (MboxThread ι)) : MboxThreads ι :=
  ⟨ring, wake (Function.update mbox.threads thread .running) wakes⟩

/-- The thread waits. -/
def wait (thread : MboxThread ι) : MboxThreads ι :=
  { mbox with threads := Function.update mbox.threads thread .blocked }

end MboxThreads

open MboxThreads

variable {ι : Type} [DecidableEq ι]

/-- One turn of a thread that has `qlock`: it looks whether it has to wait, and
if not it does what it has come for. -/
inductive MboxStep : MboxThreads ι → MboxAction ι → MboxThreads ι → Prop
  | getWaits {mbox : MboxThreads ι}
      (awake : mbox.threads .consumer ≠ .blocked)
      (isEmpty : mbox.ring.tail = mbox.ring.head) :
      MboxStep mbox .getWaits (mbox.wait .consumer)
  | get {mbox : MboxThreads ι} {wakes : Option (MboxThread ι)}
      (awake : mbox.threads .consumer ≠ .blocked)
      (notEmpty : mbox.ring.tail ≠ mbox.ring.head)
      (signals : mbox.Signals wakes) :
      MboxStep mbox (.get wakes)
        (mbox.signal mbox.ring.popFront .consumer wakes)
  | putWaits {mbox : MboxThreads ι} {id : ι}
      (awake : mbox.threads (.producer id) ≠ .blocked)
      (isFull : mbox.ring.Full) :
      MboxStep mbox (.putWaits id) (mbox.wait (.producer id))
  | put {mbox : MboxThreads ι} {id : ι} {wakes : Option (MboxThread ι)}
      (awake : mbox.threads (.producer id) ≠ .blocked)
      (notFull : ¬mbox.ring.Full) (signals : mbox.Signals wakes) :
      MboxStep mbox (.put id wakes)
        (mbox.signal mbox.ring.pushBack (.producer id) wakes)

/-! ## One producer -/

section Single

variable {mbox next final : MboxThreads ι} {action : MboxAction ι}
  {labels : List (MboxAction ι)} {thread other : MboxThread ι}

/-- A thread that waits without a wake-up has to wait. -/
def Patient (mbox : MboxThreads ι) : Prop :=
  ∀ thread, mbox.threads thread = .blocked → ¬mbox.CanGoOn thread

omit [DecidableEq ι] in
/-- A patient box loses no wake-up. -/
theorem Patient.noLostWakeUp (patient : Patient mbox) : mbox.NoLostWakeUp := by
  intro thread waits canGoOn
  cases here : mbox.threads thread with
  | running => exact absurd here waits
  | blocked => exact absurd canGoOn (patient thread here)
  | woken => rfl

@[simp] theorem MboxThreads.wait_self :
    (mbox.wait thread).threads thread = .blocked :=
  Function.update_self _ _ _

theorem MboxThreads.wait_of_ne (ne : other ≠ thread) :
    (mbox.wait thread).threads other = mbox.threads other :=
  Function.update_of_ne ne _ _

/-- A thread that is blocked after a signal was blocked before, and is another
one than the thread that signals and the one that is woken. -/
theorem MboxThreads.blocked_of_signal {ring : IndexRing}
    {wakes : Option (MboxThread ι)}
    (blocked : (mbox.signal ring thread wakes).threads other = .blocked) :
    mbox.threads other = .blocked ∧ other ≠ thread ∧ wakes ≠ some other := by
  have ofUpdate : ∀ {threads : MboxThread ι → WaitState}
      {changed : MboxThread ι} {state : WaitState}, state ≠ .blocked →
      Function.update threads changed state other = .blocked →
      threads other = .blocked ∧ other ≠ changed := by
    intro threads changed state awake isBlocked
    by_cases same : other = changed
    · rw [same, Function.update_self] at isBlocked
      exact absurd isBlocked awake
    · rw [Function.update_of_ne same] at isBlocked
      exact ⟨isBlocked, same⟩
  cases wakes with
  | none =>
      obtain ⟨before, ne⟩ := ofUpdate (by decide) blocked
      exact ⟨before, ne, nofun⟩
  | some woken =>
      obtain ⟨running, notWoken⟩ := ofUpdate (by decide) blocked
      obtain ⟨before, ne⟩ := ofUpdate (by decide) running
      exact ⟨before, ne, fun same => notWoken (Option.some_inj.mp same).symm⟩

omit [DecidableEq ι] in
/-- With at most one producer there are two threads. -/
theorem MboxThread.two_same [Subsingleton ι] (first second third : MboxThread ι) :
    first = second ∨ first = third ∨ second = third := by
  have same : ∀ left right : ι,
      MboxThread.producer left = .producer right :=
    fun left right => congrArg _ (Subsingleton.elim left right)
  cases first with
  | consumer =>
      cases second with
      | consumer => exact .inl rfl
      | producer =>
          cases third with
          | consumer => exact .inr (.inl rfl)
          | producer => exact .inr (.inr (same _ _))
  | producer =>
      cases second with
      | producer => exact .inl (same _ _)
      | consumer =>
          cases third with
          | consumer => exact .inr (.inr rfl)
          | producer => exact .inr (.inl (same _ _))

/-- With at most one producer, a signal leaves nobody blocked. -/
theorem MboxThreads.not_blocked_of_signal [Subsingleton ι] {ring : IndexRing}
    {wakes : Option (MboxThread ι)} (signals : mbox.Signals wakes)
    (awake : mbox.threads thread ≠ .blocked) :
    (mbox.signal ring thread wakes).threads other ≠ .blocked := by
  intro blocked
  obtain ⟨before, ne, notWoken⟩ := blocked_of_signal blocked
  cases wakes with
  | none => exact signals other before
  | some woken =>
      -- of the two threads one signals, and the other one is woken
      have notThread : woken ≠ thread := by
        rintro rfl
        exact awake signals
      have notOther : woken ≠ other := fun same => notWoken (congrArg some same)
      obtain same | same | same := MboxThread.two_same woken thread other
      · exact notThread same
      · exact notOther same
      · exact ne same.symm

/-- Every step of a box with one thread keeps it patient. -/
theorem Patient.step [Subsingleton ι] (patient : Patient mbox)
    (step : MboxStep mbox action next) : Patient next := by
  intro thread blocked
  cases step with
  | getWaits awake isEmpty =>
      by_cases same : thread = .consumer
      · subst same
        exact not_not_intro isEmpty
      · rw [wait_of_ne same] at blocked
        have waited := patient thread blocked
        cases thread <;> exact waited
  | putWaits awake isFull =>
      cases thread with
      | consumer =>
          rw [wait_of_ne (by simp)] at blocked
          exact patient .consumer blocked
      | producer => exact not_not_intro isFull
  | get awake notEmpty signals =>
      exact absurd blocked (not_blocked_of_signal signals awake)
  | put awake notFull signals =>
      exact absurd blocked (not_blocked_of_signal signals awake)

omit [DecidableEq ι] in
theorem patient_initial {m_size : ℕ} {positive : 0 < m_size} :
    Patient (initial m_size positive : MboxThreads ι) := by
  intro thread blocked
  cases blocked

/-- A step leaves the size of the box. -/
theorem size_of_step (step : MboxStep mbox action next) :
    next.ring.size = mbox.ring.size := by
  cases step <;> rfl

/-- A run leaves the size of the box. -/
theorem size_of_run (run : Run MboxStep mbox labels final) :
    final.ring.size = mbox.ring.size := by
  induction run with
  | nil => rfl
  | cons first _ inductionHypothesis =>
      exact inductionHypothesis.trans (size_of_step first)

omit [DecidableEq ι] in
/-- In an array of one place there is no room for messages. -/
theorem noLostWakeUp_of_size (one : mbox.ring.size = 1) :
    mbox.NoLostWakeUp := by
  intro thread _ canGoOn
  have length := mbox.ring.length_lt_size
  rw [one, Nat.lt_one_iff] at length
  cases thread with
  | consumer =>
      exact absurd (IndexRing.length_eq_zero_iff.mp length) canGoOn
  | producer =>
      apply absurd _ canGoOn
      rw [IndexRing.full_iff, length, one]

end Single

/-! ## Two producers -/

section Several

/-- A producer can fill the mailbox. -/
theorem exists_fill (id : ι) {m_size : ℕ} (positive : 0 < m_size)
    {count : ℕ} (fits : count < m_size) :
    ∃ labels mbox,
      Run MboxStep (initial m_size positive : MboxThreads ι) labels mbox ∧
      mbox.ring.size = m_size ∧ mbox.ring.length = count ∧
      ∀ thread, mbox.threads thread = .running := by
  induction count with
  | zero =>
      refine ⟨[], _, .nil _, rfl, ?_, fun _ => rfl⟩
      rw [IndexRing.length_eq_zero_iff]
      rfl
  | succ count inductionHypothesis =>
      obtain ⟨labels, mbox, run, size, length, running⟩ :=
        inductionHypothesis (by omega)
      have notFull : ¬mbox.ring.Full := by
        rw [IndexRing.full_iff]
        omega
      have awake : ∀ thread, mbox.threads thread ≠ .blocked := by
        intro thread
        rw [running thread]
        decide
      have signals : mbox.Signals none := awake
      have puts : MboxStep mbox (.put id none)
          (mbox.signal mbox.ring.pushBack (.producer id) none) :=
        .put (awake _) notFull signals
      refine ⟨labels ++ [.put id none],
        mbox.signal mbox.ring.pushBack (.producer id) none, run.concat puts,
        size, ?_, ?_⟩
      · exact (IndexRing.length_pushBack notFull).trans (by rw [length])
      · intro thread
        change Function.update mbox.threads _ WaitState.running thread = _
        by_cases same : thread = .producer id
        · rw [same, Function.update_self]
        · rw [Function.update_of_ne same, running thread]

/-- Two producers that wait for room get one wake-up. -/
theorem exists_lost {first second : ι} (ne : first ≠ second) {m_size : ℕ}
    (positive : 0 < m_size) (several : m_size ≠ 1) :
    ∃ labels mbox,
      Run MboxStep (initial m_size positive : MboxThreads ι) labels mbox ∧
      ¬mbox.NoLostWakeUp := by
  obtain ⟨labels, mbox, run, size, length, running⟩ :=
    exists_fill first positive (Nat.sub_lt positive Nat.one_pos)
  have isFull : mbox.ring.Full := by
    rw [IndexRing.full_iff]
    omega
  have notEmpty : mbox.ring.tail ≠ mbox.ring.head := by
    rw [Ne, ← IndexRing.length_eq_zero_iff]
    omega
  have awake : ∀ thread, mbox.threads thread ≠ .blocked := by
    intro thread
    rw [running thread]
    decide
  have apart : MboxThread.producer second ≠ .producer first :=
    fun same => ne (MboxThread.producer.inj same).symm
  -- both wait, and then a message is got
  have firstWaits : MboxStep mbox (.putWaits first)
      (mbox.wait (.producer first)) := .putWaits (awake _) isFull
  have secondWaits : MboxStep (mbox.wait (.producer first)) (.putWaits second)
      ((mbox.wait (.producer first)).wait (.producer second)) := by
    refine .putWaits ?_ isFull
    rw [wait_of_ne apart]
    exact awake _
  have gets : MboxStep ((mbox.wait (.producer first)).wait (.producer second))
      (.get (some (.producer first)))
      (((mbox.wait (.producer first)).wait (.producer second)).signal
        mbox.ring.popFront .consumer (some (.producer first))) := by
    refine .get ?_ notEmpty ?_
    · rw [wait_of_ne (by simp), wait_of_ne (by simp)]
      exact awake _
    · change _ = _
      rw [wait_of_ne apart.symm, wait_self]
  refine ⟨_, _, ((run.concat firstWaits).concat secondWaits).concat gets, ?_⟩
  intro noLost
  have blocked : ((((mbox.wait (.producer first)).wait
      (.producer second)).signal mbox.ring.popFront .consumer
      (some (.producer first))).threads (.producer second)) = .blocked := by
    change Function.update (Function.update _ _ _) _ _ _ = _
    rw [Function.update_of_ne apart, Function.update_of_ne (by simp), wait_self]
  have woken := noLost (.producer second) (by rw [blocked]; decide) ?_
  · rw [blocked] at woken
    cases woken
  · have shorter := IndexRing.length_popFront notEmpty
    change ¬mbox.ring.popFront.Full
    rw [IndexRing.full_iff]
    change ¬mbox.ring.popFront.length + 1 = mbox.ring.size
    omega

/-- No wake-up is lost in any run exactly if there is at most one producer, or
no room for a message at all. -/
theorem noLostWakeUp_iff (ι : Type) [DecidableEq ι] {m_size : ℕ}
    (positive : 0 < m_size) :
    (∀ labels mbox,
      Run MboxStep (initial m_size positive : MboxThreads ι) labels mbox →
        mbox.NoLostWakeUp) ↔
      Subsingleton ι ∨ m_size = 1 := by
  constructor
  · intro never
    by_contra several
    obtain ⟨notSubsingleton, notOne⟩ := not_or.mp several
    obtain ⟨first, second, ne⟩ :=
      not_subsingleton_iff_nontrivial.mp notSubsingleton |>.exists_pair_ne
    obtain ⟨labels, mbox, run, lost⟩ := exists_lost ne positive notOne
    exact lost (never labels mbox run)
  · rintro (single | one) labels mbox run
    · have patient := run.preserves
        (fun _ _ _ patient step => Patient.step patient step) patient_initial
      exact patient.noLostWakeUp
    · have size := size_of_run run
      exact noLostWakeUp_of_size (size.trans one)

/-- With one producer and room for one message. -/
theorem noLostWakeUp_iff_one :
    (∀ labels mbox,
      Run MboxStep (initial 2 (by decide) : MboxThreads Unit) labels mbox →
        mbox.NoLostWakeUp) ↔
      Subsingleton Unit ∨ 2 = 1 :=
  noLostWakeUp_iff Unit (by decide)

/-- With two producers and room for one message all threads can come to wait
without a wake-up, while there is a message. -/
theorem not_noLostWakeUp_two :
    ∃ mbox, Run MboxStep (initial 2 (by decide) : MboxThreads Bool)
        [.put true none, .putWaits true, .putWaits false,
          .get (some (.producer true)), .getWaits,
          .put true (some (.producer false)), .putWaits false,
          .putWaits true] mbox ∧
      (∀ thread, mbox.threads thread = .blocked) ∧ ¬mbox.NoLostWakeUp := by
  have notFull : ∀ {ring : IndexRing}, (ring.tail + 1) % ring.size ≠ ring.head →
      ¬ring.Full := id
  have full : ∀ {ring : IndexRing}, (ring.tail + 1) % ring.size = ring.head →
      ring.Full := id
  refine ⟨_, .cons (.put ?_ (notFull ?_) ?_) (.cons (.putWaits ?_ (full ?_))
    (.cons (.putWaits ?_ (full ?_)) (.cons (.get ?_ ?_ ?_)
    (.cons (.getWaits ?_ ?_) (.cons (.put ?_ (notFull ?_) ?_)
    (.cons (.putWaits ?_ (full ?_)) (.cons (.putWaits ?_ (full ?_))
    (.nil _)))))))), ?_, ?_⟩
  all_goals try decide
  · intro thread blocked
    cases blocked
  · exact rfl
  · exact rfl
  · rintro (_ | _ | _) <;> rfl
  · intro noLost
    have woken := noLost .consumer (by decide) (by
      change _ ≠ _
      decide)
    cases woken

end Several

end Mbox
end Pilot2Cloud
