import Mathlib.Algebra.Order.BigOperators.Group.List
import Mathlib.Algebra.GroupWithZero.Nat
import Mathlib.Algebra.Order.Group.Nat
import Pilot2Cloud.Foundation.Transitions

/-!
# Tasks for worker threads

Any number of threads put tasks into a queue, and the workers of the pool take
them out and execute them.  A worker that finds no task waits at the condition
variable.  The destructor lets the workers empty the queue and joins them.  Each
task that was accepted is executed once, and the destructor comes to an end.
-/

namespace Pilot2Cloud
namespace Drc

open Foundation

/-- Where the thread of a worker is. -/
inductive Worker (α : Type)
  /-- Before the lock of `queue_mutex`, or woken inside of `wait`. -/
  | ready
  /-- In `condition.wait`, without a wake-up. -/
  | waiting
  | running (task : α)
  /-- It has returned. -/
  | ended

/-- How far `~ThreadPool` has come. -/
inductive Destruction
  | notCalled
  /-- `stop` is set, and the workers have not been notified. -/
  | stopping
  | joining
  | joined
  deriving DecidableEq

/-- `ThreadPool`, with what was accepted, started and completed. -/
structure ThreadPool (α : Type) where
  workers : List (Worker α)
  tasks : List α
  /-- How many calls of `enqueue` have put a task into the queue and have not
  yet called `notify_one`. -/
  notifying : Nat
  destruction : Destruction
  accepted : List α
  started : List α
  completed : List α

namespace Worker

variable {α : Type}

/-- The task that is executed. -/
def task : Worker α → List α
  | .running task => [task]
  | _ => []

/-- Does the worker go on to look for a task? -/
def isReady : Worker α → Bool
  | .ready => true
  | _ => false

/-- Does the worker wait? -/
def isWaiting : Worker α → Bool
  | .waiting => true
  | _ => false

/-- What a notification makes of a worker. -/
def wake : Worker α → Worker α
  | .waiting => .ready
  | worker => worker

/-- What a worker does while it has `queue_mutex`, with the tasks that it
leaves. -/
def look (stop : Bool) : List α → Worker α × List α
  | [] => (if stop then .ended else .waiting, [])
  | task :: tasks => (.running task, tasks)

end Worker

namespace ThreadPool

variable {α : Type}

/-- `ThreadPool::ThreadPool(threads)`. -/
def new (threads : Nat) : ThreadPool α where
  workers := List.replicate threads .ready
  tasks := []
  notifying := 0
  destruction := .notCalled
  accepted := []
  started := []
  completed := []

/-- `stop`, which the destructor sets. -/
def stop (pool : ThreadPool α) : Bool :=
  pool.destruction != .notCalled

/-- Steps of the callers, of the workers and of the destructor. -/
inductive Label (α : Type)
  | enqueue (task : α)
  | notifyOne
  /-- A worker has the lock. -/
  | look
  /-- A worker wakes up although nobody has notified it. -/
  | wake
  | finish
  | stop
  | notifyAll
  | join

/-- Is the label that of a new task? -/
def Label.isEnqueue : Label α → Bool
  | .enqueue _ => true
  | _ => false

/-- One step of a pool.  A worker is singled out by those in front of it and
those behind it. -/
inductive Step : ThreadPool α → Label α → ThreadPool α → Prop
  | enqueue {pool task} (going : pool.stop = false) :
      Step pool (.enqueue task) { pool with
        tasks := pool.tasks ++ [task]
        notifying := pool.notifying + 1
        accepted := pool.accepted ++ [task] }
  /-- `enqueue` throws. -/
  | refused {pool task} (stopped : pool.stop = true) :
      Step pool (.enqueue task) pool
  | notifyOne {pool left front back} (pending : pool.notifying = left + 1)
      (waits : pool.workers = front ++ .waiting :: back) :
      Step pool .notifyOne { pool with
        workers := front ++ .ready :: back
        notifying := left }
  | notifyNone {pool left} (pending : pool.notifying = left + 1)
      (none : .waiting ∉ pool.workers) :
      Step pool .notifyOne { pool with notifying := left }
  | look {pool front back worker tasks}
      (ready : pool.workers = front ++ .ready :: back)
      (looks : Worker.look pool.stop pool.tasks = (worker, tasks)) :
      Step pool .look { pool with
        workers := front ++ worker :: back
        tasks := tasks
        started := pool.started ++ worker.task }
  | wake {pool front back}
      (waits : pool.workers = front ++ .waiting :: back) :
      Step pool .wake { pool with workers := front ++ .ready :: back }
  | finish {pool front back task}
      (runs : pool.workers = front ++ .running task :: back) :
      Step pool .finish { pool with
        workers := front ++ .ready :: back
        completed := pool.completed ++ [task] }
  | stop {pool} (going : pool.destruction = .notCalled) :
      Step pool .stop { pool with destruction := .stopping }
  | notifyAll {pool} (stopping : pool.destruction = .stopping) :
      Step pool .notifyAll { pool with
        workers := pool.workers.map Worker.wake
        destruction := .joining }
  | join {pool} (joining : pool.destruction = .joining)
      (ended : ∀ worker ∈ pool.workers, worker = .ended) :
      Step pool .join { pool with destruction := .joined }

/-- Tasks are started in the order in which they were accepted, none is lost and
none is executed twice. -/
structure Executes (pool : ThreadPool α) : Prop where
  order : pool.accepted = pool.started ++ pool.tasks
  once : pool.started.Perm
    (pool.completed ++ pool.workers.flatMap Worker.task)
  /-- While a worker waits, there is a wake-up for each task in the queue. -/
  awake : .waiting ∈ pool.workers →
    pool.tasks.length ≤ pool.notifying + pool.workers.countP Worker.isReady
  /-- Nothing is left once the workers have been joined. -/
  complete : pool.destruction = .joined → pool.workers ≠ [] →
    pool.completed.Perm pool.accepted

/-- The invariant of a pool. -/
structure Sound (pool : ThreadPool α) : Prop where
  order : pool.accepted = pool.started ++ pool.tasks
  once : pool.started.Perm
    (pool.completed ++ pool.workers.flatMap Worker.task)
  awake : .waiting ∈ pool.workers →
    pool.tasks.length ≤ pool.notifying + pool.workers.countP Worker.isReady
  ended : .ended ∈ pool.workers →
    pool.stop = true ∧ pool.tasks = []
  notified : pool.destruction = .joining ∨ pool.destruction = .joined →
    .waiting ∉ pool.workers
  joined : pool.destruction = .joined →
    ∀ worker ∈ pool.workers, worker = .ended

variable {pool next : ThreadPool α} {label : Label α}

/-- A new pool is sound. -/
theorem Sound.initial (threads : Nat) : (new threads : ThreadPool α).Sound := by
  have ready : ∀ worker ∈ (new threads : ThreadPool α).workers,
      worker = .ready := fun _ => List.eq_of_mem_replicate
  constructor
  case order => rfl
  case once => simp [ThreadPool.new, Worker.task]
  case awake =>
    intro waits
    exact nomatch ready _ waits
  case ended =>
    intro ended
    exact nomatch ready _ ended
  case notified =>
    intro _ waits
    exact nomatch ready _ waits
  case joined =>
    intro joined
    contradiction

/-- A worker takes the first task, or it waits or ends because there is none. -/
theorem look_cases {stop : Bool} {tasks rest : List α} {worker : Worker α}
    (looks : Worker.look stop tasks = (worker, rest)) :
    (∃ task, tasks = task :: rest ∧ worker = .running task) ∨
      tasks = [] ∧ rest = [] ∧ stop = true ∧ worker = .ended ∨
      tasks = [] ∧ rest = [] ∧ stop = false ∧ worker = .waiting := by
  cases tasks with
  | nil =>
      obtain ⟨rfl, rfl⟩ := Prod.mk.inj looks
      cases stop with
      | false => exact .inr (.inr ⟨rfl, rfl, rfl, rfl⟩)
      | true => exact .inr (.inl ⟨rfl, rfl, rfl, rfl⟩)
  | cons task tasks =>
      obtain ⟨rfl, rfl⟩ := Prod.mk.inj looks
      exact .inl ⟨task, rfl, rfl⟩

/-- Every step keeps the invariant. -/
theorem Sound.step (sound : pool.Sound) (step : Step pool label next) :
    next.Sound := by
  obtain ⟨order, once, awake, ended, notified, joined⟩ := sound
  cases step with
  | enqueue going =>
      constructor
      case order => simp [order]
      case once => exact once
      case awake =>
        intro waits
        have before := awake waits
        simp only [List.length_append, List.length_singleton]
        omega
      case ended =>
        intro isEnded
        have stopped := (ended isEnded).1
        rw [going] at stopped
        contradiction
      case notified => exact notified
      case joined => exact joined
  | refused => exact ⟨order, once, awake, ended, notified, joined⟩
  | notifyOne pending waits =>
      have inside : .waiting ∈ pool.workers := by simp [waits]
      constructor
      case order => exact order
      case once => simpa [waits, Worker.task] using once
      case awake =>
        intro _
        have before := awake inside
        simp only [waits, pending, List.countP_append, List.countP_cons,
          Worker.isReady, if_true, Bool.false_eq_true, if_false] at before ⊢
        omega
      case ended =>
        intro isEnded
        apply ended
        simp only [waits, List.mem_append, List.mem_cons] at isEnded ⊢
        simpa using isEnded
      case notified =>
        intro joining
        exact absurd inside (notified joining)
      case joined =>
        intro isJoined
        exact absurd inside (notified (.inr isJoined))
  | notifyNone pending none =>
      constructor
      case order => exact order
      case once => exact once
      case awake =>
        intro waits
        exact absurd waits none
      case ended => exact ended
      case notified => exact notified
      case joined => exact joined
  | @look front back worker tasks ready looks =>
      have taken := look_cases looks
      constructor
      case order =>
        obtain ⟨task, found, rfl⟩ | ⟨none, rfl, -, rfl⟩ | ⟨none, rfl, -, rfl⟩ :=
          taken
        · simp [order, found, Worker.task]
        · simp [order, none, Worker.task]
        · simp [order, none, Worker.task]
      case once =>
        have more := once.append_right worker.task
        simp only [ready, List.flatMap_append, List.flatMap_cons, Worker.task,
          List.nil_append, List.append_assoc] at more ⊢
        refine more.trans (List.Perm.append_left _ (List.Perm.append_left _ ?_))
        exact List.perm_append_comm
      case awake =>
        intro waits
        obtain ⟨task, found, rfl⟩ | ⟨-, rfl, -, -⟩ | ⟨-, rfl, -, -⟩ := taken
        · have before := awake (by simpa [ready] using waits)
          simp only [ready, found, List.countP_append, List.countP_cons,
            List.length_cons, Worker.isReady, if_true, Bool.false_eq_true,
            if_false] at before ⊢
          omega
        · exact Nat.zero_le _
        · exact Nat.zero_le _
      case ended =>
        intro isEnded
        obtain ⟨task, found, rfl⟩ | ⟨-, rfl, stopped, -⟩ | ⟨none, rfl, -, rfl⟩ :=
          taken
        · have both := ended (by simpa [ready] using isEnded)
          rw [found] at both
          exact absurd both.2 (List.cons_ne_nil _ _)
        · exact ⟨stopped, rfl⟩
        · exact ⟨(ended (by simpa [ready] using isEnded)).1, rfl⟩
      case notified =>
        intro joining waits
        have notBefore := notified joining
        obtain ⟨task, -, rfl⟩ | ⟨-, -, -, rfl⟩ | ⟨-, -, going, -⟩ := taken
        · exact notBefore (by simpa [ready] using waits)
        · exact notBefore (by simpa [ready] using waits)
        · have notCalled := bne_eq_false_iff_eq.mp going
          rcases joining with joining | joining
          · exact nomatch notCalled.symm.trans joining
          · exact nomatch notCalled.symm.trans joining
      case joined =>
        intro isJoined
        have isReady := joined isJoined .ready (by simp [ready])
        contradiction
  | wake waits =>
      have inside : .waiting ∈ pool.workers := by simp [waits]
      constructor
      case order => exact order
      case once => simpa [waits, Worker.task] using once
      case awake =>
        intro _
        have before := awake inside
        simp only [waits, List.countP_append, List.countP_cons, Worker.isReady,
          if_true, Bool.false_eq_true, if_false] at before ⊢
        omega
      case ended =>
        intro isEnded
        exact ended (by simpa [waits] using isEnded)
      case notified =>
        intro joining
        exact absurd inside (notified joining)
      case joined =>
        intro isJoined
        exact absurd inside (notified (.inr isJoined))
  | @finish front back task runs =>
      constructor
      case order => exact order
      case once =>
        simp only [runs, List.flatMap_append, List.flatMap_cons, Worker.task,
          List.nil_append, List.append_assoc] at once ⊢
        refine once.trans (List.Perm.append_left _ ?_)
        rw [← List.append_assoc, ← List.append_assoc]
        exact List.perm_append_comm.append_right _
      case awake =>
        intro waits
        have before := awake (by simpa [runs] using waits)
        simp only [runs, List.countP_append, List.countP_cons, Worker.isReady,
          if_true, Bool.false_eq_true, if_false] at before ⊢
        omega
      case ended =>
        intro isEnded
        exact ended (by simpa [runs] using isEnded)
      case notified =>
        intro joining waits
        exact notified joining (by simpa [runs] using waits)
      case joined =>
        intro isJoined
        have isRunning := joined isJoined (.running task) (by simp [runs])
        contradiction
  | stop going =>
      constructor
      case order => exact order
      case once => exact once
      case awake => exact awake
      case ended =>
        intro isEnded
        exact ⟨rfl, (ended isEnded).2⟩
      case notified => rintro (joining | joined) <;> contradiction
      case joined =>
        intro joined
        contradiction
  | notifyAll stopping =>
      have none : .waiting ∉ pool.workers.map Worker.wake := by
        intro waits
        obtain ⟨worker, -, isWaiting⟩ := List.mem_map.mp waits
        cases worker <;> contradiction
      constructor
      case order => exact order
      case once =>
        have same : (pool.workers.map Worker.wake).flatMap Worker.task =
            pool.workers.flatMap Worker.task := by
          rw [List.flatMap_map]
          congr 1
          funext worker
          cases worker <;> rfl
        rw [same]
        exact once
      case awake =>
        intro waits
        exact absurd waits none
      case ended =>
        intro isEnded
        obtain ⟨worker, member, isWorker⟩ := List.mem_map.mp isEnded
        cases worker <;> try contradiction
        exact ⟨rfl, (ended member).2⟩
      case notified => exact fun _ => none
      case joined =>
        intro joined
        contradiction
  | join joining isEnded =>
      constructor
      case order => exact order
      case once => exact once
      case awake => exact awake
      case ended =>
        intro inside
        exact ⟨rfl, (ended inside).2⟩
      case notified => exact fun _ => notified (.inl joining)
      case joined => exact fun _ => isEnded

/-- Workers that have been joined leave nothing. -/
theorem Sound.executes (sound : pool.Sound) : pool.Executes where
  order := sound.order
  once := sound.once
  awake := sound.awake
  complete := by
    intro joined some
    have ended := sound.joined joined
    obtain ⟨worker, inside⟩ := List.exists_mem_of_ne_nil _ some
    rw [ended worker inside] at inside
    have none : pool.workers.flatMap Worker.task = [] := by
      rw [List.flatMap_eq_nil_iff]
      intro worker member
      rw [ended worker member]
      rfl
    have once := sound.once
    rw [none, List.append_nil] at once
    rw [sound.order, (sound.ended inside).2, List.append_nil]
    exact once.symm

/-- The invariant holds after every run. -/
theorem sound_of_run {threads : Nat} {labels : List (Label α)}
    (run : Run Step (new threads) labels pool) : pool.Sound :=
  run.preserves (fun _ _ _ => Sound.step) (.initial threads)

/-- In every interleaving tasks are started in the order in which they were
accepted, each is executed once, none waits while there is neither a wake-up nor
a worker that looks for it, and all are completed when the pool is gone. -/
theorem executes_of_run {threads : Nat} {labels : List (Label α)}
    (run : Run Step (new threads) labels pool) : pool.Executes :=
  (sound_of_run run).executes

/-- A task is accepted and executed, and the pool is destroyed. -/
theorem executes_of_run_one :
    ∃ pool : ThreadPool Nat,
      Run Step (new 1)
        [.look, .enqueue 7, .notifyOne, .look, .stop, .finish, .notifyAll, .look,
          .join] pool ∧
      pool.destruction = .joined ∧ pool.Executes := by
  have possible : ∃ pool : ThreadPool Nat,
      Run Step (new 1)
        [.look, .enqueue 7, .notifyOne, .look, .stop, .finish, .notifyAll, .look,
          .join] pool ∧ pool.destruction = .joined := by
    have single : ∀ worker : Worker Nat, [worker] = [] ++ worker :: [] :=
      fun _ => rfl
    refine ⟨_, .cons (.look (single .ready) rfl) (.cons (.enqueue rfl)
      (.cons (.notifyOne rfl (single .waiting)) (.cons
      (.look (single .ready) rfl) (.cons (.stop rfl) (.cons
      (.finish (single (.running 7))) (.cons (.notifyAll rfl) (.cons
      (.look (single .ready) rfl) (.cons (.join rfl ?_) (.nil _))))))))), rfl⟩
    intro worker member
    exact List.mem_singleton.mp member
  obtain ⟨pool, run, joined⟩ := possible
  exact ⟨pool, run, joined, executes_of_run run⟩

/-! ## The destructor -/

/-- How many steps a worker can take without a further task. -/
def left : Worker α → Nat
  | .ready => 1
  | .waiting => 2
  | .running _ => 2
  | .ended => 0

/-- A bound for the steps until the destructor is through. -/
def effort (pool : ThreadPool α) : Nat :=
  2 * pool.tasks.length + pool.notifying + (pool.workers.map left).sum +
    match pool.destruction with
    | .stopping => 2
    | .joining => 1
    | _ => 0

/-- One worker among the others. -/
theorem sum_map_left (front back : List (Worker α)) (worker : Worker α) :
    ((front ++ worker :: back).map left).sum =
      (front.map left).sum + (left worker + (back.map left).sum) := by
  rw [List.map_append, List.map_cons, List.sum_append, List.sum_cons]

/-- Once `stop` is set, every step but a refused call of `enqueue` brings the
destructor nearer to its end. -/
theorem effort_lt_of_step (stopped : pool.stop = true)
    (step : Step pool label next) :
    next.stop = true ∧
      next.effort + (if label.isEnqueue then 0 else 1) ≤ pool.effort := by
  cases step with
  | enqueue going =>
      rw [stopped] at going
      contradiction
  | refused => exact ⟨stopped, Nat.le_refl _⟩
  | notifyOne pending waits =>
      refine ⟨stopped, ?_⟩
      simp only [effort, Label.isEnqueue, pending, waits, sum_map_left, left,
        Bool.false_eq_true, if_false]
      omega
  | notifyNone pending none =>
      refine ⟨stopped, ?_⟩
      simp only [effort, Label.isEnqueue, pending, Bool.false_eq_true, if_false]
      omega
  | look ready looks =>
      refine ⟨stopped, ?_⟩
      obtain ⟨task, found, rfl⟩ | ⟨none, rfl, -, rfl⟩ | ⟨-, -, going, -⟩ :=
        look_cases looks
      · simp only [effort, Label.isEnqueue, ready, found, List.length_cons,
          sum_map_left, left, Bool.false_eq_true, if_false]
        omega
      · simp only [effort, Label.isEnqueue, ready, none, sum_map_left, left,
          Bool.false_eq_true, if_false]
        omega
      · rw [stopped] at going
        contradiction
  | wake waits =>
      refine ⟨stopped, ?_⟩
      simp only [effort, Label.isEnqueue, waits, sum_map_left, left,
        Bool.false_eq_true, if_false]
      omega
  | finish runs =>
      refine ⟨stopped, ?_⟩
      simp only [effort, Label.isEnqueue, runs, sum_map_left, left,
        Bool.false_eq_true, if_false]
      omega
  | stop going =>
      rw [stop, going] at stopped
      contradiction
  | notifyAll stopping =>
      refine ⟨rfl, ?_⟩
      have less : ((pool.workers.map Worker.wake).map left).sum ≤
          (pool.workers.map left).sum := by
        rw [List.map_map]
        apply List.sum_le_sum
        intro worker _
        cases worker <;> simp [Worker.wake, left]
      simp only [effort, Label.isEnqueue, stopping, Bool.false_eq_true, if_false]
        at less ⊢
      omega
  | join joining isEnded =>
      refine ⟨rfl, ?_⟩
      simp [effort, Label.isEnqueue, joining]

/-- Until the destructor is through, a worker or the destructor can go on. -/
theorem Sound.exists_step (sound : pool.Sound) (stopped : pool.stop = true)
    (notJoined : pool.destruction ≠ .joined) :
    ∃ label next, label.isEnqueue = false ∧ Step pool label next := by
  cases destruction : pool.destruction with
  | notCalled =>
      rw [stop, destruction] at stopped
      contradiction
  | stopping => exact ⟨.notifyAll, _, rfl, .notifyAll destruction⟩
  | joined => contradiction
  | joining =>
      by_cases ended : ∀ worker ∈ pool.workers, worker = .ended
      · exact ⟨.join, _, rfl, .join destruction ended⟩
      push Not at ended
      obtain ⟨worker, member, notEnded⟩ := ended
      obtain ⟨front, back, workers⟩ := List.append_of_mem member
      cases worker with
      | ready => exact ⟨.look, _, rfl, .look workers rfl⟩
      | waiting => exact absurd member (sound.notified (.inl destruction))
      | running task => exact ⟨.finish, _, rfl, .finish workers⟩
      | ended => contradiction

/-- Once the destructor has set `stop`, whatever the threads do, it is through
after finitely many of their steps. -/
theorem destruction_ends {threads : Nat} {labels : List (Label α)}
    (run : Run Step (new threads) labels pool) (stopped : pool.stop = true)
    {later : List (Label α)} {after : ThreadPool α}
    (laterRun : Run Step pool later after) :
    later.countP (fun label => !label.isEnqueue) ≤ pool.effort ∧
      (after.destruction = .joined ∨
        ∃ label next, label.isEnqueue = false ∧ Step after label next) := by
  have sound := sound_of_run (Run.append_iff.mpr ⟨pool, run, laterRun⟩)
  have bound : after.stop = true ∧
      after.effort + later.countP (fun label => !label.isEnqueue) ≤
        pool.effort := by
    clear run sound
    induction laterRun with
    | nil => exact ⟨stopped, Nat.le_refl _⟩
    | @cons state middle final label labels first rest inductionHypothesis =>
        obtain ⟨stopsNext, here⟩ := effort_lt_of_step stopped first
        obtain ⟨stops, later⟩ := inductionHypothesis stopsNext
        refine ⟨stops, ?_⟩
        rw [List.countP_cons]
        cases isEnqueue : label.isEnqueue <;> simp [isEnqueue] at here ⊢ <;> omega
  refine ⟨by omega, ?_⟩
  by_cases joined : after.destruction = .joined
  · exact .inl joined
  · exact .inr (sound.exists_step bound.1 joined)

/-- Two workers are left when `stop` is set, one of which waits. -/
theorem destruction_ends_two :
    ∃ pool : ThreadPool Nat,
      Run Step (new 2) [.look, .enqueue 7, .stop] pool ∧
      pool.stop = true ∧
      ∀ later after, Run Step pool later after →
        later.countP (fun label => !label.isEnqueue) ≤ pool.effort ∧
          (after.destruction = .joined ∨
            ∃ label next, label.isEnqueue = false ∧ Step after label next) := by
  have possible : ∃ pool : ThreadPool Nat,
      Run Step (new 2) [.look, .enqueue 7, .stop] pool ∧ pool.stop = true := by
    have both : (new 2 : ThreadPool Nat).workers = [] ++ .ready :: [.ready] :=
      rfl
    exact ⟨_, .cons (.look both rfl) (.cons (.enqueue rfl) (.cons (.stop rfl)
      (.nil _))), rfl⟩
  obtain ⟨pool, run, stopped⟩ := possible
  exact ⟨pool, run, stopped, fun _ _ laterRun =>
    destruction_ends run stopped laterRun⟩

end ThreadPool
end Drc
end Pilot2Cloud
