import Defender.Lib.Crew
import Defender.Lib.Machine

/-!
# The Pool that Waits with a Predicate

`ThreadPoolHelperOrigin.h` has a pool of the same name as `ThreadPool.h`. Its
workers take tasks from a queue under one mutex, which the submitters and the
destructor take as well, and they wait with a predicate: after every wake-up
the mutex is taken and the predicate looked at again. A worker that finds the
flag set leaves at once, whatever is in the queue.

An access under the mutex that no thread can interrupt is one step: the push
of `enqueue`, and the store of the destructor. `wait` is three: the look at the
predicate, the wait, and after the wake-up the mutex again. A task may submit
others, so that tasks can be put into the queue until the destructor has
returned.

## Main definitions

* `WorkerPc`, `DestructorPc`: Where the threads are.
* `ThreadPool`, `step`: The pool, and one step of one of its threads.
* `Moves`: From where to where a worker goes, and what the pool is then.
* `Account`: Where the tasks are.

## Theorems

* `worker_cases`, `notifyOne_cases`, `join_cases`: What the steps do.
* `account_step`: No step loses or doubles a task.
* `tasks_accounted`: Where the tasks are in every run.
-/

namespace Defender

namespace OriginPool

open Machine

/-- Where a worker is in its loop. -/
inductive WorkerPc where
  | locking
  | testing
  | entering
  | waiting
  | notified
  | passed
  | unlocking (task : Nat)
  | running (task : Nat)
  | ended
  deriving DecidableEq, Repr

/-- How far the destructor is. -/
inductive DestructorPc where
  | notCalled
  | notifying
  | joining (i : Nat)
  | returned
  deriving DecidableEq, Repr

/-- The pool: its members, its workers, how many tasks were put into the queue,
    how many submits are between their two steps, the destructor, and the tasks
    that were taken out and those that were run, in order. -/
structure ThreadPool where
  m_stop : Bool
  tasks : List Nat
  queueMutex : Option Nat
  workers : List WorkerPc
  enqueued : Nat
  enqueuing : Nat
  destructor : DestructorPc
  taken : List Nat
  ran : List Nat
  deriving DecidableEq, Repr

/-- A worker goes on. -/
def ThreadPool.put (s : ThreadPool) (i : Nat) (pc : WorkerPc) : ThreadPool :=
  { s with workers := s.workers.set i pc }

/-- One step of worker `i`. -/
def workerStep (s : ThreadPool) (i : Nat) : WorkerPc → Option ThreadPool
  | .locking | .notified =>
      if s.queueMutex = none then some ({ s with queueMutex := some i }.put i .testing) else none
  | .testing =>
      some (s.put i (if s.m_stop = true ∨ s.tasks ≠ [] then .passed else .entering))
  -- `wait` releases the mutex and begins to wait in one step.
  | .entering => some ({ s with queueMutex := none }.put i .waiting)
  | .waiting => none
  | .passed =>
      if s.m_stop = true then some ({ s with queueMutex := none }.put i .ended)
      else
        match s.tasks with
        -- `front` of an empty queue.
        | [] => none
        | t :: tasks =>
            some ({ s with tasks := tasks, taken := s.taken ++ [t] }.put i (.unlocking t))
  | .unlocking t => some ({ s with queueMutex := none }.put i (.running t))
  | .running t => some ({ s with ran := s.ran ++ [t] }.put i .locking)
  | .ended => none

/-- A worker that waits is notified. -/
def WorkerPc.wake : WorkerPc → WorkerPc
  | .waiting => .notified
  | pc => pc

/-- What happens next: a task is put into the queue, a worker is notified of
    one, the destructor takes a step, a worker does, or a wait ends by itself. -/
inductive Label where
  | enqueue
  | notifyOne (w : Option Nat)
  | storeStop
  | notifyAll
  | join
  | worker (i : Nat)
  | spurious (i : Nat)
  deriving DecidableEq, Repr

/-- One step, if the label is enabled. `notifyOne` names the worker that is
    notified, or nobody when nobody waits. -/
def step (s : ThreadPool) : Label → Option ThreadPool
  | .enqueue =>
      if s.queueMutex = none ∧ s.destructor ≠ .returned then
        some { s with
          tasks := s.tasks ++ [s.enqueued]
          enqueued := s.enqueued + 1
          enqueuing := s.enqueuing + 1 }
      else none
  | .notifyOne w =>
      match s.enqueuing with
      | 0 => none
      | n + 1 =>
          match w with
          | none =>
              if .waiting ∈ s.workers then none else some { s with enqueuing := n }
          | some i =>
              if s.workers[i]? = some .waiting then
                some ({ s with enqueuing := n }.put i .notified)
              else none
  | .storeStop =>
      if s.queueMutex = none ∧ s.destructor = .notCalled then
        some { s with m_stop := true, destructor := .notifying }
      else none
  | .notifyAll =>
      if s.destructor = .notifying then
        some { s with workers := s.workers.map WorkerPc.wake, destructor := .joining 0 }
      else none
  | .join =>
      match s.destructor with
      | .joining i =>
          if i < s.workers.length then
            if s.workers[i]? = some .ended then some { s with destructor := .joining (i + 1) }
            else none
          else some { s with destructor := .returned }
      | _ => none
  | .worker i =>
      match s.workers[i]? with
      | none => none
      | some pc => workerStep s i pc
  | .spurious i =>
      if s.workers[i]? = some .waiting then some (s.put i .notified) else none

/-- After the constructor, with `n` threads. -/
def start (n : Nat) : ThreadPool where
  m_stop := false
  tasks := []
  queueMutex := none
  workers := List.replicate n .locking
  enqueued := 0
  enqueuing := 0
  destructor := .notCalled
  taken := []
  ran := []

/-! ### What a step does -/

/-- From where to where worker `i` goes, and what the pool is then. -/
inductive Moves (s : ThreadPool) (i : Nat) : WorkerPc → WorkerPc → ThreadPool → Prop where
  | locks (h : s.queueMutex = none) :
      Moves s i .locking .testing ({ s with queueMutex := some i }.put i .testing)
  | relocks (h : s.queueMutex = none) :
      Moves s i .notified .testing ({ s with queueMutex := some i }.put i .testing)
  | passes (h : s.m_stop = true ∨ s.tasks ≠ []) : Moves s i .testing .passed (s.put i .passed)
  | fails (hstop : s.m_stop = false) (htasks : s.tasks = []) :
      Moves s i .testing .entering (s.put i .entering)
  | waits : Moves s i .entering .waiting ({ s with queueMutex := none }.put i .waiting)
  | returns (h : s.m_stop = true) :
      Moves s i .passed .ended ({ s with queueMutex := none }.put i .ended)
  | takes (t : Nat) (tasks : List Nat) (hstop : s.m_stop = false) (h : s.tasks = t :: tasks) :
      Moves s i .passed (.unlocking t)
        ({ s with tasks := tasks, taken := s.taken ++ [t] }.put i (.unlocking t))
  | unlocks (t : Nat) :
      Moves s i (.unlocking t) (.running t) ({ s with queueMutex := none }.put i (.running t))
  | runs (t : Nat) : Moves s i (.running t) .locking ({ s with ran := s.ran ++ [t] }.put i .locking)

/-- What a step of a worker can do. -/
theorem worker_cases (s s' : ThreadPool) (i : Nat) (h : step s (.worker i) = some s') :
    ∃ pc pc', s.workers[i]? = some pc ∧ Moves s i pc pc' s' := by
  simp only [step] at h
  cases hpc : s.workers[i]? with
  | none =>
      rw [hpc] at h
      exact absurd h (by simp only [reduceCtorEq, not_false_eq_true])
  | some pc =>
      rw [hpc] at h
      replace h : workerStep s i pc = some s' := h
      refine ⟨pc, ?_⟩
      -- One case for each place of a worker; it has no step while another holds the mutex.
      cases pc with
      | locking =>
          rw [workerStep] at h
          split at h
          · next hfree =>
                rw [← Option.some.inj h]
                exact ⟨_, rfl, .locks hfree⟩
          · exact absurd h (by simp only [reduceCtorEq, not_false_eq_true])
      | notified =>
          rw [workerStep] at h
          split at h
          · next hfree =>
                rw [← Option.some.inj h]
                exact ⟨_, rfl, .relocks hfree⟩
          · exact absurd h (by simp only [reduceCtorEq, not_false_eq_true])
      | testing =>
          rw [workerStep, Option.some.injEq] at h
          by_cases hpred : s.m_stop = true ∨ s.tasks ≠ []
          · rw [if_pos hpred] at h
            rw [← h]
            exact ⟨_, rfl, .passes hpred⟩
          · rw [if_neg hpred] at h
            rcases not_or.mp hpred with ⟨hstop, htasks⟩
            rw [← h]
            exact ⟨_, rfl, .fails (Bool.eq_false_iff.mpr hstop) (not_not.mp htasks)⟩
      | entering =>
          rw [workerStep, Option.some.injEq] at h
          rw [← h]
          exact ⟨_, rfl, .waits⟩
      | waiting => exact absurd h (by simp only [workerStep, reduceCtorEq, not_false_eq_true])
      | passed =>
          rw [workerStep] at h
          by_cases hstop : s.m_stop = true
          · rw [if_pos hstop] at h
            rw [← Option.some.inj h]
            exact ⟨_, rfl, .returns hstop⟩
          · rw [if_neg hstop] at h
            split at h
            · exact absurd h (by simp only [reduceCtorEq, not_false_eq_true])
            · next t tasks htasks =>
                rw [← Option.some.inj h]
                exact ⟨_, rfl, .takes t tasks (Bool.eq_false_iff.mpr hstop) htasks⟩
      | unlocking t =>
          rw [workerStep, Option.some.injEq] at h
          rw [← h]
          exact ⟨_, rfl, .unlocks t⟩
      | running t =>
          rw [workerStep, Option.some.injEq] at h
          rw [← h]
          exact ⟨_, rfl, .runs t⟩
      | ended => exact absurd h (by simp only [workerStep, reduceCtorEq, not_false_eq_true])

theorem enqueue_cases (s s' : ThreadPool) (h : step s .enqueue = some s') :
    s.queueMutex = none ∧ s' = { s with
      tasks := s.tasks ++ [s.enqueued]
      enqueued := s.enqueued + 1
      enqueuing := s.enqueuing + 1 } := by
  simp only [step] at h
  split at h
  · next hfree => exact ⟨hfree.1, (Option.some.inj h).symm⟩
  · exact absurd h (by simp only [reduceCtorEq, not_false_eq_true])

/-- What a notification does: nobody waits, or one that waits is notified. -/
theorem notifyOne_cases (s s' : ThreadPool) (w : Option Nat)
    (h : step s (.notifyOne w) = some s') :
    ∃ n, s.enqueuing = n + 1 ∧
      ((.waiting ∉ s.workers ∧ s' = { s with enqueuing := n }) ∨
        ∃ i, s.workers[i]? = some .waiting ∧
          s' = { s with enqueuing := n }.put i .notified) := by
  simp only [step] at h
  split at h
  · exact absurd h (by simp only [reduceCtorEq, not_false_eq_true])
  · next n hn =>
      refine ⟨n, hn, ?_⟩
      split at h
      · split at h
        · exact absurd h (by simp only [reduceCtorEq, not_false_eq_true])
        · next hnone => exact Or.inl ⟨hnone, (Option.some.inj h).symm⟩
      · next i =>
          split at h
          · next hwaiting => exact Or.inr ⟨i, hwaiting, (Option.some.inj h).symm⟩
          · exact absurd h (by simp only [reduceCtorEq, not_false_eq_true])

theorem storeStop_cases (s s' : ThreadPool) (h : step s .storeStop = some s') :
    s.queueMutex = none ∧ s.destructor = .notCalled ∧
      s' = { s with m_stop := true, destructor := .notifying } := by
  simp only [step] at h
  split at h
  · next hopen => exact ⟨hopen.1, hopen.2, (Option.some.inj h).symm⟩
  · exact absurd h (by simp only [reduceCtorEq, not_false_eq_true])

theorem notifyAll_cases (s s' : ThreadPool) (h : step s .notifyAll = some s') :
    s.destructor = .notifying ∧
      s' = { s with workers := s.workers.map WorkerPc.wake, destructor := .joining 0 } := by
  simp only [step] at h
  split at h
  · next hnotifying => exact ⟨hnotifying, (Option.some.inj h).symm⟩
  · exact absurd h (by simp only [reduceCtorEq, not_false_eq_true])

/-- What a join does: the next worker has ended, or all of them have been
    joined. -/
theorem join_cases (s s' : ThreadPool) (h : step s .join = some s') :
    ∃ i, s.destructor = .joining i ∧
      ((i < s.workers.length ∧ s.workers[i]? = some .ended ∧
          s' = { s with destructor := .joining (i + 1) }) ∨
        (s.workers.length ≤ i ∧ s' = { s with destructor := .returned })) := by
  simp only [step] at h
  split at h
  · next i hjoining =>
      refine ⟨i, hjoining, ?_⟩
      split at h
      · next hlt =>
          split at h
          · next hended => exact Or.inl ⟨hlt, hended, (Option.some.inj h).symm⟩
          · exact absurd h (by simp only [reduceCtorEq, not_false_eq_true])
      · next hall => exact Or.inr ⟨Nat.le_of_not_lt hall, (Option.some.inj h).symm⟩
  · exact absurd h (by simp only [reduceCtorEq, not_false_eq_true])

theorem spurious_cases (s s' : ThreadPool) (i : Nat) (h : step s (.spurious i) = some s') :
    s.workers[i]? = some .waiting ∧ s' = s.put i .notified := by
  simp only [step] at h
  split at h
  · next hwaiting => exact ⟨hwaiting, (Option.some.inj h).symm⟩
  · exact absurd h (by simp only [reduceCtorEq, not_false_eq_true])

/-- A worker that is somewhere is so until its own next step. -/
theorem getElem?_put (s : ThreadPool) (i j : Nat) (pc x : WorkerPc) (hi : s.workers[i]? = some x) :
    (s.put i pc).workers[j]? = if j = i then some pc else s.workers[j]? := by
  by_cases h : j = i
  · rw [if_pos h, h]
    exact Crew.getElem?_set_of_some s.workers i pc x hi
  · rw [if_neg h]
    exact Crew.getElem?_set_of_ne s.workers i j pc h

/-! ### Where the tasks are -/

/-- The task in the hands of a worker. -/
def WorkerPc.held : WorkerPc → List Nat
  | .unlocking t => [t]
  | .running t => [t]
  | _ => []

@[simp] theorem held_wake (pc : WorkerPc) : pc.wake.held = pc.held := by
  cases pc <;> rfl

/-- Tasks are taken in the order in which they were put, and what was taken was
    run or is in the hands of a worker. -/
structure Account (s : ThreadPool) : Prop where
  order : s.taken ++ s.tasks = List.range s.enqueued
  held : (s.ran ++ s.workers.flatMap WorkerPc.held).Perm s.taken

theorem account_start (n : Nat) : Account (start n) where
  order := rfl
  held := by
    have hheld : (List.replicate n WorkerPc.locking).flatMap WorkerPc.held = [] :=
      List.flatMap_eq_nil_iff.mpr (fun pc hpc => by rw [List.eq_of_mem_replicate hpc]; rfl)
    simp only [start, hheld, List.append_nil, List.Perm.refl]

/-- What a worker does with its task is all that happens to what was taken. -/
theorem held_put {s s' : ThreadPool} {i : Nat} {pc pc' : WorkerPc}
    (hpc : s.workers[i]? = some pc) (hworkers : s'.workers = s.workers.set i pc')
    (hheld : (s.ran ++ s.workers.flatMap WorkerPc.held).Perm s.taken)
    (h : (s'.ran ++ pc'.held ++ s.taken).Perm (s.ran ++ pc.held ++ s'.taken)) :
    (s'.ran ++ s'.workers.flatMap WorkerPc.held).Perm s'.taken := by
  -- Counted for one task: only what this worker holds is different.
  rw [hworkers, List.perm_iff_count]
  intro task
  have hone := h.count_eq task
  have hsum := hheld.count_eq task
  have hall := (Crew.flatMap_set WorkerPc.held s.workers i pc' pc hpc).count_eq task
  simp only [List.count_append] at hone hall hsum ⊢
  omega

theorem account_worker (s s' : ThreadPool) (i : Nat) (pc pc' : WorkerPc) (h : Account s)
    (hpc : s.workers[i]? = some pc) (hmoves : Moves s i pc pc' s') : Account s' := by
  cases hmoves with
  | locks _ => exact ⟨h.order, held_put hpc rfl h.held (.refl _)⟩
  | relocks _ => exact ⟨h.order, held_put hpc rfl h.held (.refl _)⟩
  | passes _ => exact ⟨h.order, held_put hpc rfl h.held (.refl _)⟩
  | fails _ _ => exact ⟨h.order, held_put hpc rfl h.held (.refl _)⟩
  | waits => exact ⟨h.order, held_put hpc rfl h.held (.refl _)⟩
  | returns _ => exact ⟨h.order, held_put hpc rfl h.held (.refl _)⟩
  | takes t tasks _ htasks =>
      -- The task goes from the front of the queue into the hands of the worker.
      refine ⟨?_, held_put hpc rfl h.held ?_⟩
      · have horder := h.order
        rw [htasks] at horder
        exact (List.append_assoc s.taken [t] tasks).trans horder
      · simp only [ThreadPool.put, WorkerPc.held, List.append_nil, List.append_assoc]
        exact List.perm_append_comm.append_left s.ran
  | unlocks t => exact ⟨h.order, held_put hpc rfl h.held (.refl _)⟩
  | runs t =>
      refine ⟨h.order, held_put hpc rfl h.held ?_⟩
      simp only [ThreadPool.put, WorkerPc.held, List.append_nil, List.Perm.refl]

theorem account_step (s s' : ThreadPool) (l : Label) (h : Account s)
    (hstep : step s l = some s') : Account s' := by
  cases l with
  | enqueue =>
      rcases enqueue_cases s s' hstep with ⟨-, rfl⟩
      refine ⟨?_, h.held⟩
      dsimp only
      rw [← List.append_assoc, h.order, List.range_succ]
  | notifyOne w =>
      rcases notifyOne_cases s s' w hstep with ⟨n, -, ⟨-, rfl⟩ | ⟨i, hi, rfl⟩⟩
      · exact ⟨h.order, h.held⟩
      · exact ⟨h.order, held_put hi rfl h.held (.refl _)⟩
  | storeStop =>
      rcases storeStop_cases s s' hstep with ⟨-, -, rfl⟩
      exact ⟨h.order, h.held⟩
  | notifyAll =>
      rcases notifyAll_cases s s' hstep with ⟨-, rfl⟩
      refine ⟨h.order, ?_⟩
      simp only [List.flatMap_map, held_wake]
      exact h.held
  | join =>
      rcases join_cases s s' hstep with ⟨i, -, ⟨-, -, rfl⟩ | ⟨-, rfl⟩⟩
      · exact ⟨h.order, h.held⟩
      · exact ⟨h.order, h.held⟩
  | worker i =>
      rcases worker_cases s s' i hstep with ⟨pc, pc', hpc, hmoves⟩
      exact account_worker s s' i pc pc' h hpc hmoves
  | spurious i =>
      rcases spurious_cases s s' i hstep with ⟨hi, rfl⟩
      exact ⟨h.order, held_put hi rfl h.held (.refl _)⟩

/-- In every run the tasks were taken out in the order in which they were put
    in, each once, and each that was taken out was run once or is in the hands
    of one worker. -/
theorem tasks_accounted (n : Nat) (ls : List Label) (s : ThreadPool)
    (hrun : run step (start n) ls = some s) :
    s.taken ++ s.tasks = List.range s.enqueued ∧
      (s.ran ++ s.workers.flatMap WorkerPc.held).Perm s.taken := by
  have haccount := run_invariant step Account (fun s l t h => account_step s t l h) (start n) s ls
    (account_start n) hrun
  exact ⟨haccount.order, haccount.held⟩

/-- Two tasks, and the first of them in the hands of a worker. -/
theorem tasks_accounted_two :
    ∃ s, run step (start 1) [.enqueue, .worker 0, .worker 0, .worker 0, .notifyOne none, .worker 0,
        .enqueue] = some s ∧
      s.tasks = [1] ∧ s.workers = [.running 0] ∧ s.taken ++ s.tasks = List.range s.enqueued ∧
        (s.ran ++ s.workers.flatMap WorkerPc.held).Perm s.taken := by
  have hrun : run step (start 1) [.enqueue, .worker 0, .worker 0, .worker 0, .notifyOne none,
      .worker 0, .enqueue] = some
        { m_stop := false, tasks := [1], queueMutex := none, workers := [.running 0], enqueued := 2,
          enqueuing := 1, destructor := .notCalled, taken := [0], ran := [] } := by
    decide
  exact ⟨_, hrun, rfl, rfl, tasks_accounted 1 _ _ hrun⟩

end OriginPool

end Defender
