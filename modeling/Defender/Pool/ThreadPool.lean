import Defender.Lib.Crew
import Defender.Lib.Machine

/-!
# The Thread Pool

`ThreadPool` with its workers, the threads that submit, and the one that shuts
the pool down, each of which takes one step at a time in any order.

Three things order the steps. The condition mutex is taken by workers only: a
worker holds it from before it looks whether the queue is empty until it has
taken a task out, and gives it up while it waits. The queue has a mutex of its
own, so that each access to it is one step. The flag `m_shutdown` has none.
Submitting and shutting down take neither: a task is put into the queue, and
then one worker is notified if one waits; the flag is stored, and then all that
wait are.

A worker that has been notified takes the mutex again and goes on to take a
task out; it does not look a second time whether there is one. A wait may also
end by itself, which `spurious` stands for.

Tasks are numbered as they are submitted. The pool's threads have been started,
and the pool is shut down once, when no submit is in progress.

## Main definitions

* `WorkerPc`: Where a worker is in its loop.
* `ShutdownPc`: How far the shutdown is.
* `ThreadPool`, `step`: The pool, and one step of one of its threads.
* `start`: After `init`.

## Theorems

* `worker_cases`: What a step of a worker can do.
* `enqueue_cases`, `notifyOne_cases`, `storeShutdown_cases`, `notifyAll_cases`,
  `join_cases`, `spurious_cases`: What the other steps do.
* `m_shutdown_step`: Nothing but its store sets the flag.
-/

namespace Defender

namespace Pool

open Machine

/-- Where a worker is in `ThreadWorker::operator()`. -/
inductive WorkerPc where
  | checking
  | locking
  | testing
  | entering
  | waiting
  | notified
  | dequeuing
  | unlocking (func : Option Nat)
  | running (task : Nat)
  | ended
  deriving DecidableEq, Repr

/-- How far `shutdown` is. -/
inductive ShutdownPc where
  | notCalled
  | notifying
  | joining (i : Nat)
  | returned
  deriving DecidableEq, Repr

/-- The pool: its members, its workers, how many tasks were submitted, how many
    submits are between their two steps, the shutdown, and the tasks that have
    been run, in order. -/
structure ThreadPool where
  m_shutdown : Bool
  m_queue : List Nat
  owner : Option Nat
  workers : List WorkerPc
  submitted : Nat
  submitting : Nat
  shutdown : ShutdownPc
  ran : List Nat
  deriving DecidableEq, Repr

/-- A worker goes on. -/
def ThreadPool.put (s : ThreadPool) (i : Nat) (pc : WorkerPc) : ThreadPool :=
  { s with workers := s.workers.set i pc }

/-- One step of worker `i`. -/
def workerStep (s : ThreadPool) (i : Nat) : WorkerPc → Option ThreadPool
  | .checking => some (s.put i (if s.m_shutdown = true then .ended else .locking))
  | .locking =>
      if s.owner = none then some ({ s with owner := some i }.put i .testing) else none
  | .testing => some (s.put i (if s.m_queue = [] then .entering else .dequeuing))
  -- `wait` releases the mutex and begins to wait in one step.
  | .entering => some ({ s with owner := none }.put i .waiting)
  | .waiting => none
  -- What it was notified of is not looked at again: the source tests with `if`.
  | .notified =>
      if s.owner = none then some ({ s with owner := some i }.put i .dequeuing) else none
  | .dequeuing =>
      match s.m_queue with
      | [] => some (s.put i (.unlocking none))
      | t :: queue => some ({ s with m_queue := queue }.put i (.unlocking (some t)))
  | .unlocking none => some ({ s with owner := none }.put i .checking)
  | .unlocking (some t) => some ({ s with owner := none }.put i (.running t))
  | .running t => some ({ s with ran := s.ran ++ [t] }.put i .checking)
  | .ended => none

/-- A worker that waits is notified. -/
def WorkerPc.wake : WorkerPc → WorkerPc
  | .waiting => .notified
  | pc => pc

/-- What happens next: a task is put into the queue, a worker is notified of
    one, the shutdown takes a step, a worker does, or a wait ends by itself. -/
inductive Label where
  | enqueue
  | notifyOne (w : Option Nat)
  | storeShutdown
  | notifyAll
  | join
  | worker (i : Nat)
  | spurious (i : Nat)
  deriving DecidableEq, Repr

/-- One step, if the label is enabled. `notifyOne` names the worker that is
    notified, or nobody when nobody waits. -/
def step (s : ThreadPool) : Label → Option ThreadPool
  | .enqueue =>
      if s.shutdown = .notCalled then
        some { s with
          m_queue := s.m_queue ++ [s.submitted]
          submitted := s.submitted + 1
          submitting := s.submitting + 1 }
      else none
  | .notifyOne w =>
      match s.submitting with
      | 0 => none
      | n + 1 =>
          match w with
          | none =>
              if .waiting ∈ s.workers then none else some { s with submitting := n }
          | some i =>
              if s.workers[i]? = some .waiting then
                some ({ s with submitting := n }.put i .notified)
              else none
  | .storeShutdown =>
      if s.shutdown = .notCalled ∧ s.submitting = 0 then
        some { s with m_shutdown := true, shutdown := .notifying }
      else none
  | .notifyAll =>
      if s.shutdown = .notifying then
        some { s with workers := s.workers.map WorkerPc.wake, shutdown := .joining 0 }
      else none
  | .join =>
      match s.shutdown with
      | .joining i =>
          if i < s.workers.length then
            if s.workers[i]? = some .ended then some { s with shutdown := .joining (i + 1) }
            else none
          else some { s with shutdown := .returned }
      | _ => none
  | .worker i =>
      match s.workers[i]? with
      | none => none
      | some pc => workerStep s i pc
  | .spurious i =>
      if s.workers[i]? = some .waiting then some (s.put i .notified) else none

/-- After `init`, with `n` threads. -/
def start (n : Nat) : ThreadPool where
  m_shutdown := false
  m_queue := []
  owner := none
  workers := List.replicate n .checking
  submitted := 0
  submitting := 0
  shutdown := .notCalled
  ran := []

/-! ### What a step does -/

/-- From where to where a worker goes, and what that does to the queue and to
    what was run. -/
inductive Moves (s s' : ThreadPool) : WorkerPc → WorkerPc → Prop where
  | leaves (h : s.m_shutdown = true) (hq : s'.m_queue = s.m_queue) (hr : s'.ran = s.ran) :
      Moves s s' .checking .ended
  | passes (h : s.m_shutdown = false) (hq : s'.m_queue = s.m_queue) (hr : s'.ran = s.ran) :
      Moves s s' .checking .locking
  | locks (hq : s'.m_queue = s.m_queue) (hr : s'.ran = s.ran) : Moves s s' .locking .testing
  | empty (h : s.m_queue = []) (hq : s'.m_queue = s.m_queue) (hr : s'.ran = s.ran) :
      Moves s s' .testing .entering
  | ready (h : s.m_queue ≠ []) (hq : s'.m_queue = s.m_queue) (hr : s'.ran = s.ran) :
      Moves s s' .testing .dequeuing
  | waits (hq : s'.m_queue = s.m_queue) (hr : s'.ran = s.ran) : Moves s s' .entering .waiting
  | resumes (hq : s'.m_queue = s.m_queue) (hr : s'.ran = s.ran) : Moves s s' .notified .dequeuing
  | misses (h : s.m_queue = []) (hq : s'.m_queue = []) (hr : s'.ran = s.ran) :
      Moves s s' .dequeuing (.unlocking none)
  | takes (t : Nat) (hq : s.m_queue = t :: s'.m_queue) (hr : s'.ran = s.ran) :
      Moves s s' .dequeuing (.unlocking (some t))
  | drops (hq : s'.m_queue = s.m_queue) (hr : s'.ran = s.ran) :
      Moves s s' (.unlocking none) .checking
  | begins (t : Nat) (hq : s'.m_queue = s.m_queue) (hr : s'.ran = s.ran) :
      Moves s s' (.unlocking (some t)) (.running t)
  | runs (t : Nat) (hq : s'.m_queue = s.m_queue) (hr : s'.ran = s.ran ++ [t]) :
      Moves s s' (.running t) .checking

/-- Nothing but the queue, the mutex, the workers and what was run changes. -/
structure Quiet (s s' : ThreadPool) : Prop where
  m_shutdown : s'.m_shutdown = s.m_shutdown
  submitted : s'.submitted = s.submitted
  submitting : s'.submitting = s.submitting
  shutdown : s'.shutdown = s.shutdown

/-- What a step of a worker can do. -/
theorem worker_cases (s s' : ThreadPool) (i : Nat) (h : step s (.worker i) = some s') :
    ∃ pc pc', s.workers[i]? = some pc ∧ s'.workers = s.workers.set i pc' ∧ Quiet s s' ∧
      Moves s s' pc pc' := by
  simp only [step] at h
  cases hpc : s.workers[i]? with
  | none =>
      rw [hpc] at h
      exact absurd h (by simp only [reduceCtorEq, not_false_eq_true])
  | some pc =>
      rw [hpc] at h
      replace h : workerStep s i pc = some s' := h
      refine ⟨pc, ?_⟩
      -- One case for each place of a worker; it has no step while another holds the lock.
      cases pc with
      | checking =>
          rw [workerStep, Option.some.injEq] at h
          rw [← h]
          cases hflag : s.m_shutdown with
          | false =>
              exact ⟨.locking, rfl, rfl, ⟨hflag.symm ▸ rfl, rfl, rfl, rfl⟩, .passes hflag rfl rfl⟩
          | true =>
              exact ⟨.ended, rfl, rfl, ⟨hflag.symm ▸ rfl, rfl, rfl, rfl⟩, .leaves hflag rfl rfl⟩
      | locking =>
          rw [workerStep] at h
          split at h
          · rw [← Option.some.inj h]
            exact ⟨.testing, rfl, rfl, ⟨rfl, rfl, rfl, rfl⟩, .locks rfl rfl⟩
          · exact absurd h (by simp only [reduceCtorEq, not_false_eq_true])
      | testing =>
          rw [workerStep, Option.some.injEq] at h
          rw [← h]
          by_cases hempty : s.m_queue = []
          · rw [if_pos hempty]
            exact ⟨.entering, rfl, rfl, ⟨rfl, rfl, rfl, rfl⟩, .empty hempty rfl rfl⟩
          · rw [if_neg hempty]
            exact ⟨.dequeuing, rfl, rfl, ⟨rfl, rfl, rfl, rfl⟩, .ready hempty rfl rfl⟩
      | entering =>
          rw [workerStep, Option.some.injEq] at h
          rw [← h]
          exact ⟨.waiting, rfl, rfl, ⟨rfl, rfl, rfl, rfl⟩, .waits rfl rfl⟩
      | waiting => exact absurd h (by simp only [workerStep, reduceCtorEq, not_false_eq_true])
      | notified =>
          rw [workerStep] at h
          split at h
          · rw [← Option.some.inj h]
            exact ⟨.dequeuing, rfl, rfl, ⟨rfl, rfl, rfl, rfl⟩, .resumes rfl rfl⟩
          · exact absurd h (by simp only [reduceCtorEq, not_false_eq_true])
      | dequeuing =>
          rw [workerStep] at h
          split at h
          · next hempty =>
              rw [← Option.some.inj h]
              exact ⟨.unlocking none, rfl, rfl, ⟨rfl, rfl, rfl, rfl⟩, .misses hempty hempty rfl⟩
          · next t queue hqueue =>
              rw [← Option.some.inj h]
              exact ⟨.unlocking (some t), rfl, rfl, ⟨rfl, rfl, rfl, rfl⟩, .takes t hqueue rfl⟩
      | unlocking func =>
          cases func with
          | none =>
              rw [workerStep, Option.some.injEq] at h
              rw [← h]
              exact ⟨.checking, rfl, rfl, ⟨rfl, rfl, rfl, rfl⟩, .drops rfl rfl⟩
          | some t =>
              rw [workerStep, Option.some.injEq] at h
              rw [← h]
              exact ⟨.running t, rfl, rfl, ⟨rfl, rfl, rfl, rfl⟩, .begins t rfl rfl⟩
      | running t =>
          rw [workerStep, Option.some.injEq] at h
          rw [← h]
          exact ⟨.checking, rfl, rfl, ⟨rfl, rfl, rfl, rfl⟩, .runs t rfl rfl⟩
      | ended => exact absurd h (by simp only [workerStep, reduceCtorEq, not_false_eq_true])

/-- What a notification does: nobody waits, or one that waits is notified. -/
theorem notifyOne_cases (s s' : ThreadPool) (w : Option Nat)
    (h : step s (.notifyOne w) = some s') :
    s'.submitting + 1 = s.submitting ∧ s'.m_queue = s.m_queue ∧ s'.m_shutdown = s.m_shutdown ∧
      s'.submitted = s.submitted ∧ s'.shutdown = s.shutdown ∧ s'.ran = s.ran ∧
      ((.waiting ∉ s.workers ∧ s'.workers = s.workers) ∨
        ∃ i, s.workers[i]? = some .waiting ∧ s'.workers = s.workers.set i .notified) := by
  simp only [step] at h
  split at h
  · exact absurd h (by simp only [reduceCtorEq, not_false_eq_true])
  · next n hn =>
      split at h
      · split at h
        · exact absurd h (by simp only [reduceCtorEq, not_false_eq_true])
        · next hnone =>
            rw [← Option.some.inj h]
            exact ⟨hn.symm, rfl, rfl, rfl, rfl, rfl, Or.inl ⟨hnone, rfl⟩⟩
      · next i =>
          split at h
          · next hwaiting =>
              rw [← Option.some.inj h]
              exact ⟨hn.symm, rfl, rfl, rfl, rfl, rfl, Or.inr ⟨i, hwaiting, rfl⟩⟩
          · exact absurd h (by simp only [reduceCtorEq, not_false_eq_true])

theorem enqueue_cases (s s' : ThreadPool) (h : step s .enqueue = some s') :
    s.shutdown = .notCalled ∧ s' = { s with
      m_queue := s.m_queue ++ [s.submitted]
      submitted := s.submitted + 1
      submitting := s.submitting + 1 } := by
  simp only [step] at h
  split at h
  · next hopen => exact ⟨hopen, (Option.some.inj h).symm⟩
  · exact absurd h (by simp only [reduceCtorEq, not_false_eq_true])

theorem storeShutdown_cases (s s' : ThreadPool) (h : step s .storeShutdown = some s') :
    s.shutdown = .notCalled ∧ s.submitting = 0 ∧
      s' = { s with m_shutdown := true, shutdown := .notifying } := by
  simp only [step] at h
  split at h
  · next hopen => exact ⟨hopen.1, hopen.2, (Option.some.inj h).symm⟩
  · exact absurd h (by simp only [reduceCtorEq, not_false_eq_true])

theorem notifyAll_cases (s s' : ThreadPool) (h : step s .notifyAll = some s') :
    s.shutdown = .notifying ∧
      s' = { s with workers := s.workers.map WorkerPc.wake, shutdown := .joining 0 } := by
  simp only [step] at h
  split at h
  · next hnotifying => exact ⟨hnotifying, (Option.some.inj h).symm⟩
  · exact absurd h (by simp only [reduceCtorEq, not_false_eq_true])

/-- What a join does: the next worker has ended, or all of them have been
    joined. -/
theorem join_cases (s s' : ThreadPool) (h : step s .join = some s') :
    ∃ i, s.shutdown = .joining i ∧
      ((s.workers[i]? = some .ended ∧ s' = { s with shutdown := .joining (i + 1) }) ∨
        (s.workers.length ≤ i ∧ s' = { s with shutdown := .returned })) := by
  simp only [step] at h
  split at h
  · next i hjoining =>
      refine ⟨i, hjoining, ?_⟩
      split at h
      · split at h
        · next hended => exact Or.inl ⟨hended, (Option.some.inj h).symm⟩
        · exact absurd h (by simp only [reduceCtorEq, not_false_eq_true])
      · next hall => exact Or.inr ⟨Nat.le_of_not_lt hall, (Option.some.inj h).symm⟩
  · exact absurd h (by simp only [reduceCtorEq, not_false_eq_true])

theorem spurious_cases (s s' : ThreadPool) (i : Nat) (h : step s (.spurious i) = some s') :
    s.workers[i]? = some .waiting ∧ s' = s.put i .notified := by
  simp only [step] at h
  split at h
  · next hwaiting => exact ⟨hwaiting, (Option.some.inj h).symm⟩
  · exact absurd h (by simp only [reduceCtorEq, not_false_eq_true])

/-- Nothing but its store sets the flag. -/
theorem m_shutdown_step (s s' : ThreadPool) (l : Label) (hl : l ≠ .storeShutdown)
    (hstep : step s l = some s') : s'.m_shutdown = s.m_shutdown := by
  cases l with
  | enqueue => rw [(enqueue_cases s s' hstep).2]
  | notifyOne w => exact (notifyOne_cases s s' w hstep).2.2.1
  | storeShutdown => exact absurd rfl hl
  | notifyAll => rw [(notifyAll_cases s s' hstep).2]
  | join =>
      rcases join_cases s s' hstep with ⟨i, -, ⟨-, rfl⟩ | ⟨-, rfl⟩⟩
      · rfl
      · rfl
  | worker i =>
      rcases worker_cases s s' i hstep with ⟨-, -, -, -, hquiet, -⟩
      exact hquiet.m_shutdown
  | spurious i =>
      rw [(spurious_cases s s' i hstep).2]
      rfl

end Pool

end Defender
