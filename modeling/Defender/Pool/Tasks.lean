import Defender.Pool.ThreadPool

/-!
# Every Task Once

Whether the pool runs every task that was submitted, and none of them twice.

No task is lost or doubled on its way: at any time every number up to
`submitted` is in exactly one of three places, among those that were run, in
the hands of a worker, or in the queue. So no task is run twice, and whether
all of them have been run when `shutdown` returns is whether the queue is empty
then.

That is decided when the flag is stored. A worker looks at the flag before it
goes for a task, and leaves when it is set; a worker that has passed this look
takes one more task, if there is one, and then leaves. Nothing is put into the
queue any more. So from there on the tasks in the queue and the workers that
are still going for one decrease together, and the queue runs empty exactly
when there were enough of them.

## Main definitions

* `WorkerPc.held`: The task in the hands of a worker.
* `committed`: How many workers have passed their look at the flag and have not
  taken a task out yet.
* `Drained`: Enough of them go for the tasks that are queued when the flag is
  stored.
* `Inv`: What holds throughout.

## Theorems

* `inv_step`, `inv_run`: The invariant.
* `enough_step`, `short_step`: Once the flag is stored, enough workers stay
  enough, and too few stay too few.
* `ran_iff_drained`: When every task was run.
-/

namespace Defender

namespace Pool

open Machine

/-- The task a worker has taken out of the queue and not yet run. -/
def WorkerPc.held : WorkerPc → List Nat
  | .unlocking (some t) => [t]
  | .running t => [t]
  | _ => []

/-- Whether a worker has passed its look at the flag and has not taken a task
    out of the queue yet. -/
def WorkerPc.committed : WorkerPc → Bool
  | .locking => true
  | .testing => true
  | .entering => true
  | .waiting => true
  | .notified => true
  | .dequeuing => true
  | _ => false

/-- How many workers still go for a task. -/
def committed (s : ThreadPool) : Nat := s.workers.countP WorkerPc.committed

/-- When the flag is stored, no more tasks are queued than there are workers
    that go for one. -/
def Drained (s : ThreadPool) (l : Label) : Prop :=
  l = .storeShutdown → s.m_queue.length ≤ committed s

/-- How many of the workers have been joined. -/
def ShutdownPc.joined (n : Nat) : ShutdownPc → Nat
  | .joining i => i
  | .returned => n
  | _ => 0

/-- Every task is in one place, the flag is set from the store on, and those
    that were joined have ended. -/
structure Inv (s : ThreadPool) : Prop where
  accounted : (s.ran ++ s.workers.flatMap WorkerPc.held ++ s.m_queue).Perm
    (List.range s.submitted)
  flagged : s.m_shutdown = true ↔ s.shutdown ≠ .notCalled
  ended : ∀ j < s.shutdown.joined s.workers.length, s.workers[j]? = some .ended

theorem inv_start (n : Nat) : Inv (start n) where
  accounted := by
    have hheld : (List.replicate n WorkerPc.checking).flatMap WorkerPc.held = [] :=
      List.flatMap_eq_nil_iff.mpr (fun pc hpc => by rw [List.eq_of_mem_replicate hpc]; rfl)
    simp only [start, hheld, List.append_nil, List.range_zero, List.Perm.refl]
  flagged := by simp only [start, Bool.false_eq_true, ne_eq, not_true_eq_false]
  ended := fun j hj => absurd hj (Nat.not_lt_zero j)

/-! ### A step of a worker -/

/-- A task goes from the queue to the worker, and from the worker to those that
    were run. -/
theorem Moves.accounted {s s' : ThreadPool} {pc pc' : WorkerPc} (h : Moves s s' pc pc') :
    (s'.ran ++ pc'.held ++ s'.m_queue).Perm (s.ran ++ pc.held ++ s.m_queue) := by
  cases h with
  | leaves _ hq hr => rw [hq, hr]; exact .refl _
  | passes _ hq hr => rw [hq, hr]; exact .refl _
  | locks hq hr => rw [hq, hr]; exact .refl _
  | empty _ hq hr => rw [hq, hr]; exact .refl _
  | ready _ hq hr => rw [hq, hr]; exact .refl _
  | waits hq hr => rw [hq, hr]; exact .refl _
  | resumes hq hr => rw [hq, hr]; exact .refl _
  | misses h hq hr => rw [h, hq, hr]; exact .refl _
  | takes t hq hr =>
      rw [hq, hr]
      simp only [WorkerPc.held, List.append_assoc, List.nil_append, List.singleton_append,
        List.Perm.refl]
  | drops hq hr => rw [hq, hr]; exact .refl _
  | begins t hq hr => rw [hq, hr]; exact .refl _
  | runs t hq hr =>
      rw [hq, hr]
      simp only [WorkerPc.held, List.append_nil, List.Perm.refl]

/-- A worker that has ended does not move. -/
theorem Moves.not_ended {s s' : ThreadPool} {pc pc' : WorkerPc} (h : Moves s s' pc pc') :
    pc ≠ .ended := by
  cases h <;> exact WorkerPc.noConfusion

/-- Once the flag is set a worker that goes for a task is one fewer when it has
    taken it, and no worker starts to. -/
theorem Moves.committed {s s' : ThreadPool} {pc pc' : WorkerPc} (h : Moves s s' pc pc')
    (hflag : s.m_shutdown = true) :
    s'.m_queue.length + (if pc.committed = true then 1 else 0)
        = s.m_queue.length + (if pc'.committed = true then 1 else 0) ∨
      (s.m_queue = [] ∧ s'.m_queue = []) := by
  cases h with
  | leaves _ hq => left; rw [hq]; rfl
  | passes h => exact absurd (hflag.symm.trans h) Bool.noConfusion
  | locks hq => left; rw [hq]; rfl
  | empty _ hq => left; rw [hq]; rfl
  | ready _ hq => left; rw [hq]; rfl
  | waits hq => left; rw [hq]; rfl
  | resumes hq => left; rw [hq]; rfl
  | misses h hq => exact Or.inr ⟨h, hq⟩
  | takes t hq => left; rw [hq, List.length_cons]; rfl
  | drops hq => left; rw [hq]; rfl
  | begins t hq => left; rw [hq]; rfl
  | runs t hq => left; rw [hq]; rfl

/-- What a worker does with its task is all that happens to the tasks. -/
theorem accounted_set {s s' : ThreadPool} {i : Nat} {pc pc' : WorkerPc}
    (hpc : s.workers[i]? = some pc) (hworkers : s'.workers = s.workers.set i pc')
    (h : (s'.ran ++ pc'.held ++ s'.m_queue).Perm (s.ran ++ pc.held ++ s.m_queue)) :
    (s'.ran ++ s'.workers.flatMap WorkerPc.held ++ s'.m_queue).Perm
      (s.ran ++ s.workers.flatMap WorkerPc.held ++ s.m_queue) := by
  -- Counted for one task: only what this worker holds is different.
  rw [hworkers, List.perm_iff_count]
  intro task
  have hone := h.count_eq task
  have hall := (Crew.flatMap_set WorkerPc.held s.workers i pc' pc hpc).count_eq task
  simp only [List.count_append] at hone hall ⊢
  omega

/-- A worker that has not ended is not one of those that were joined. -/
theorem ended_set {s s' : ThreadPool} {i : Nat} {pc pc' : WorkerPc}
    (hpc : s.workers[i]? = some pc) (hnot : pc ≠ .ended)
    (hworkers : s'.workers = s.workers.set i pc') (hshutdown : s'.shutdown = s.shutdown)
    (h : ∀ j < s.shutdown.joined s.workers.length, s.workers[j]? = some .ended) :
    ∀ j < s'.shutdown.joined s'.workers.length, s'.workers[j]? = some .ended := by
  rw [hworkers, hshutdown, List.length_set]
  intro j hj
  have hne : j ≠ i := by
    intro hji
    have hended := h j hj
    rw [hji, hpc, Option.some.injEq] at hended
    exact hnot hended
  rw [Crew.getElem?_set_of_ne s.workers i j pc' hne]
  exact h j hj

/-! ### The invariant -/

/-- Waking a worker leaves its task with it. -/
@[simp] theorem held_wake (pc : WorkerPc) : pc.wake.held = pc.held := by
  cases pc <;> rfl

/-- Waking a worker leaves it going for a task. -/
@[simp] theorem committed_wake (pc : WorkerPc) : pc.wake.committed = pc.committed := by
  cases pc <;> rfl

theorem inv_step (s s' : ThreadPool) (l : Label) (hinv : Inv s) (hstep : step s l = some s') :
    Inv s' := by
  rcases hinv with ⟨haccounted, hflagged, hended⟩
  cases l with
  | enqueue =>
      rcases enqueue_cases s s' hstep with ⟨-, rfl⟩
      refine ⟨?_, hflagged, hended⟩
      -- The new task is queued under its number.
      rw [← List.append_assoc, List.range_succ]
      exact haccounted.append_right [s.submitted]
  | notifyOne w =>
      rcases notifyOne_cases s s' w hstep with
        ⟨-, hq, hflag, hsub, hshut, hr, ⟨-, hw⟩ | ⟨i, hi, hw⟩⟩
      · refine ⟨?_, ?_, ?_⟩
        · rw [hr, hw, hq, hsub]
          exact haccounted
        · rw [hflag, hshut]
          exact hflagged
        · rw [hshut, hw]
          exact hended
      · refine ⟨?_, ?_, ended_set hi WorkerPc.noConfusion hw hshut hended⟩
        · rw [hsub]
          refine (accounted_set hi hw ?_).trans haccounted
          rw [hr, hq]
          exact List.Perm.refl _
        · rw [hflag, hshut]
          exact hflagged
  | storeShutdown =>
      rcases storeShutdown_cases s s' hstep with ⟨-, -, rfl⟩
      refine ⟨haccounted, ?_, fun j hj => absurd hj (Nat.not_lt_zero j)⟩
      simp only [ne_eq, reduceCtorEq, not_false_eq_true]
  | notifyAll =>
      rcases notifyAll_cases s s' hstep with ⟨hnotifying, rfl⟩
      refine ⟨?_, ?_, fun j hj => absurd hj (Nat.not_lt_zero j)⟩
      · simp only [List.flatMap_map, held_wake]
        exact haccounted
      · rw [hflagged, hnotifying]
        simp only [ne_eq, reduceCtorEq, not_false_eq_true]
  | join =>
      rcases join_cases s s' hstep with ⟨i, hjoining, hcase⟩
      rw [hjoining] at hflagged hended
      rcases hcase with ⟨hi, rfl⟩ | ⟨hall, rfl⟩
      · -- One more worker is joined, and it has ended.
        refine ⟨haccounted, ?_, fun j hj => ?_⟩
        · simp only [hflagged, ne_eq, reduceCtorEq, not_false_eq_true]
        · rcases Nat.lt_succ_iff_lt_or_eq.mp hj with hlt | heq
          · exact hended j hlt
          · exact heq ▸ hi
      · -- All of them are joined, so that the shutdown returns.
        refine ⟨haccounted, ?_, fun j hj => hended j (Nat.lt_of_lt_of_le hj hall)⟩
        simp only [hflagged, ne_eq, reduceCtorEq, not_false_eq_true]
  | worker i =>
      rcases worker_cases s s' i hstep with ⟨pc, pc', hpc, hw, hquiet, hmoves⟩
      refine ⟨?_, ?_, ended_set hpc hmoves.not_ended hw hquiet.shutdown hended⟩
      · rw [hquiet.submitted]
        exact (accounted_set hpc hw hmoves.accounted).trans haccounted
      · rw [hquiet.m_shutdown, hquiet.shutdown]
        exact hflagged
  | spurious i =>
      rcases spurious_cases s s' i hstep with ⟨hi, rfl⟩
      have hw : (s.put i .notified).workers = s.workers.set i .notified := rfl
      exact ⟨(accounted_set hi hw (List.Perm.refl _)).trans haccounted, hflagged,
        ended_set hi WorkerPc.noConfusion hw rfl hended⟩

theorem inv_run (n : Nat) (t : ThreadPool) (ls : List Label)
    (hrun : run step (start n) ls = some t) : Inv t :=
  run_invariant step Inv (fun s l s' hinv => inv_step s s' l hinv) (start n) t ls (inv_start n) hrun

/-! ### After the flag is stored -/

/-- As many tasks leave the queue as workers stop going for one, unless there
    is none left. -/
theorem step_committed (s s' : ThreadPool) (l : Label) (hinv : Inv s)
    (hflag : s.m_shutdown = true) (hstep : step s l = some s') :
    s'.m_queue.length + committed s = s.m_queue.length + committed s' ∨
      (s.m_queue = [] ∧ s'.m_queue = []) := by
  have hcalled : s.shutdown ≠ .notCalled := hinv.flagged.mp hflag
  -- Once the flag is set nothing is enqueued, so that only workers change the queue.
  cases l with
  | enqueue => exact absurd (enqueue_cases s s' hstep).1 hcalled
  | notifyOne w =>
      left
      rcases notifyOne_cases s s' w hstep with ⟨-, hq, -, -, -, -, ⟨-, hw⟩ | ⟨i, hi, hw⟩⟩
      · rw [hq, committed, committed, hw]
      · have hcount := Crew.countP_set WorkerPc.committed s.workers i .notified .waiting hi
        rw [hq, committed, committed, hw]
        exact congrArg (s.m_queue.length + ·) (Nat.add_right_cancel hcount).symm
  | storeShutdown => exact absurd (storeShutdown_cases s s' hstep).1 hcalled
  | notifyAll =>
      left
      rcases notifyAll_cases s s' hstep with ⟨-, rfl⟩
      simp only [committed, List.countP_map, Function.comp_def, committed_wake]
  | join =>
      left
      rcases join_cases s s' hstep with ⟨i, -, ⟨-, rfl⟩ | ⟨-, rfl⟩⟩
      · rfl
      · rfl
  | worker i =>
      rcases worker_cases s s' i hstep with ⟨pc, pc', hpc, hw, -, hmoves⟩
      have hcount := Crew.countP_set WorkerPc.committed s.workers i pc' pc hpc
      rcases hmoves.committed hflag with hone | hnone
      · left
        rw [committed, committed, hw]
        omega
      · exact Or.inr hnone
  | spurious i =>
      left
      rcases spurious_cases s s' i hstep with ⟨hi, rfl⟩
      have hcount := Crew.countP_set WorkerPc.committed s.workers i .notified .waiting hi
      exact congrArg (s.m_queue.length + ·) (Nat.add_right_cancel hcount).symm

/-- Enough workers go for what is queued, if the flag is stored. -/
def Enough (s : ThreadPool) : Prop :=
  s.m_shutdown = true → s.m_queue.length ≤ committed s

/-- The flag is stored, and too few workers go for what is queued. -/
def Short (s : ThreadPool) : Prop :=
  s.m_shutdown = true ∧ committed s < s.m_queue.length

/-- Enough workers stay enough, if there were enough when the flag was stored. -/
theorem enough_step (s s' : ThreadPool) (l : Label) (hinv : Inv s) (henough : Enough s)
    (hdrained : Drained s l) (hstep : step s l = some s') : Enough s' := by
  intro hflag'
  by_cases hl : l = .storeShutdown
  · -- The flag is stored by this very step.
    have hle := hdrained hl
    subst hl
    rw [(storeShutdown_cases s s' hstep).2.2]
    exact hle
  · have hflag : s.m_shutdown = true := (m_shutdown_step s s' l hl hstep).symm.trans hflag'
    have hle := henough hflag
    rcases step_committed s s' l hinv hflag hstep with hsame | ⟨-, hempty⟩
    · omega
    · rw [hempty]
      exact Nat.zero_le _

/-- Too few workers stay too few. -/
theorem short_step (s s' : ThreadPool) (l : Label) (hinv : Inv s) (hshort : Short s)
    (hstep : step s l = some s') : Short s' := by
  rcases hshort with ⟨hflag, hlt⟩
  have hl : l ≠ .storeShutdown := by
    intro hl
    subst hl
    exact hinv.flagged.mp hflag (storeShutdown_cases s s' hstep).1
  refine ⟨(m_shutdown_step s s' l hl hstep).trans hflag, ?_⟩
  rcases step_committed s s' l hinv hflag hstep with hsame | ⟨hempty, -⟩
  · omega
  · rw [hempty] at hlt
    exact absurd hlt (Nat.not_lt_zero _)

/-! ### When the shutdown has returned -/

/-- No worker holds a task or goes for one when all of them have been joined. -/
theorem Inv.all_ended {s : ThreadPool} (h : Inv s) (hreturned : s.shutdown = .returned) :
    ∀ pc ∈ s.workers, pc = .ended := by
  intro pc hpc
  rcases List.mem_iff_getElem?.mp hpc with ⟨j, hj⟩
  have hlt : j < s.workers.length := (List.getElem?_eq_some_iff.mp hj).1
  have hended := h.ended j (by rw [hreturned]; exact hlt)
  exact Option.some.inj (hj.symm.trans hended)

/-- What was run and what is still queued are all the tasks. -/
theorem Inv.ran_queue {s : ThreadPool} (h : Inv s) (hreturned : s.shutdown = .returned) :
    (s.ran ++ s.m_queue).Perm (List.range s.submitted) ∧ committed s = 0 := by
  have hall := h.all_ended hreturned
  -- A worker that has ended holds no task.
  have hheld : s.workers.flatMap WorkerPc.held = [] :=
    List.flatMap_eq_nil_iff.mpr (fun pc hpc => by rw [hall pc hpc]; rfl)
  have haccounted := h.accounted
  rw [hheld, List.append_nil] at haccounted
  refine ⟨haccounted, List.countP_eq_zero.mpr (fun pc hpc => ?_)⟩
  rw [hall pc hpc]
  exact Bool.false_ne_true

/-- No task is run twice. -/
theorem Inv.ran_nodup {s : ThreadPool} (h : Inv s) : s.ran.Nodup := by
  have hall : (s.ran ++ (s.workers.flatMap WorkerPc.held ++ s.m_queue)).Nodup := by
    rw [← List.append_assoc]
    exact h.accounted.nodup_iff.mpr List.nodup_range
  exact (List.nodup_append.mp hall).1

/-- Every task has been run when none is left in the queue. -/
theorem Inv.ran_iff {s : ThreadPool} (h : Inv s) (hreturned : s.shutdown = .returned) :
    (∀ k < s.submitted, k ∈ s.ran) ↔ s.m_queue = [] := by
  have hperm := (h.ran_queue hreturned).1
  constructor
  · intro hran
    rw [List.eq_nil_iff_forall_not_mem]
    intro k hk
    -- A task that is queued has a number, and was not run.
    have hlt : k < s.submitted :=
      List.mem_range.mp (hperm.mem_iff.mp (List.mem_append_right s.ran hk))
    have hnodup := List.nodup_append.mp (hperm.nodup_iff.mpr List.nodup_range)
    exact hnodup.2.2 k (hran k hlt) k hk rfl
  · intro hempty k hk
    rw [hempty, List.append_nil] at hperm
    exact hperm.mem_iff.mpr (List.mem_range.mpr hk)

/-- No task is run twice, and when the shutdown has returned every task was run
    exactly when the workers that had passed their look at the flag were enough
    for what was queued at the time it was stored. -/
theorem ran_iff_drained (n : Nat) (ls : List Label) (t : ThreadPool)
    (hrun : run step (start n) ls = some t) :
    t.ran.Nodup ∧ (t.shutdown = .returned →
      ((∀ k < t.submitted, k ∈ t.ran) ↔ StepsMeet step Drained (start n) ls)) := by
  have hinv := inv_run n t ls hrun
  refine ⟨hinv.ran_nodup, fun hreturned => ?_⟩
  rw [hinv.ran_iff hreturned]
  have hnone := (hinv.ran_queue hreturned).2
  have hflag : t.m_shutdown = true :=
    hinv.flagged.mpr (by rw [hreturned]; exact ShutdownPc.noConfusion)
  constructor
  · intro hempty
    by_contra hnot
    -- From the store on too few workers go for the tasks, to the end.
    rcases exists_of_not_stepsMeet step Drained (start n) t ls hrun hnot with
      ⟨ms, l, ns, m, u, rfl, hms, hstep, hns, hl⟩
    rw [Drained, Classical.not_imp, Nat.not_le] at hl
    rcases hl with ⟨rfl, hlt⟩
    have hinvm : Inv m := inv_run n m ms hms
    have hinvu : Inv u := inv_step m u .storeShutdown hinvm hstep
    have hshort : Short u := by
      rw [(storeShutdown_cases m u hstep).2.2]
      exact ⟨rfl, hlt⟩
    have hend : Inv t ∧ Short t :=
      run_invariant step (fun s => Inv s ∧ Short s)
        (fun s l s' h hstep => ⟨inv_step s s' l h.1 hstep, short_step s s' l h.1 h.2 hstep⟩)
        u t ns ⟨hinvu, hshort⟩ hns
    -- Workers that go for no task are still fewer than the tasks, of which there are none.
    have hlt' := hend.2.2
    rw [hempty] at hlt'
    exact Nat.not_lt_zero _ hlt'
  · intro hmeet
    have henough : Inv t ∧ Enough t :=
      run_invariant_of_stepsMeet step Drained (fun s => Inv s ∧ Enough s)
        (fun s l s' h hl hstep => ⟨inv_step s s' l h.1 hstep, enough_step s s' l h.1 h.2 hl hstep⟩)
        (start n) t ls ⟨inv_start n, fun h => absurd h Bool.false_ne_true⟩ hmeet hrun
    -- Nobody goes for a task any more, so that none is left.
    have hle := henough.2 hflag
    rw [hnone] at hle
    exact List.eq_nil_of_length_eq_zero (Nat.le_zero.mp hle)

/-- One worker, one task: it is taken out and run, and then the pool is shut
    down. -/
theorem ran_iff_drained_oneTask :
    let ls : List Label := [.enqueue, .notifyOne none, .worker 0, .worker 0, .worker 0, .worker 0,
      .worker 0, .worker 0, .storeShutdown, .notifyAll, .worker 0, .join, .join]
    let t : ThreadPool :=
      { m_shutdown := true, m_queue := [], owner := none, workers := [.ended], submitted := 1,
        submitting := 0, shutdown := .returned, ran := [0] }
    run step (start 1) ls = some t ∧
      (t.ran.Nodup ∧ (t.shutdown = .returned →
        ((∀ k < t.submitted, k ∈ t.ran) ↔ StepsMeet step Drained (start 1) ls))) :=
  ⟨by decide, ran_iff_drained 1 _ _ (by decide)⟩

/-- One worker, one task, and the pool is shut down before the worker has looked
    at the flag: the shutdown returns and the task was not run. -/
theorem task_leftBehind :
    ¬ ∀ (n : Nat) (ls : List Label) (t : ThreadPool), run step (start n) ls = some t →
      t.ran.Nodup ∧ (t.shutdown = .returned → ∀ k < t.submitted, k ∈ t.ran) := by
  intro h
  have hrun : run step (start 1)
      [.enqueue, .notifyOne none, .storeShutdown, .notifyAll, .worker 0, .join, .join]
      = some { m_shutdown := true, m_queue := [0], owner := none, workers := [.ended],
               submitted := 1, submitting := 0, shutdown := .returned, ran := [] } := by
    decide
  have hran := (h 1 _ _ hrun).2 rfl 0 Nat.zero_lt_one
  exact absurd hran List.not_mem_nil

end Pool

end Defender
