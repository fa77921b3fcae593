import Defender.Pool.ThreadPool

/-!
# Lost Wake-ups

Whether the pool can come to rest with work left: all its workers asleep, and
nobody about to wake one.

A worker goes to sleep in two steps, the look whether the queue is empty and
the wait, and it holds the condition mutex from one to the other. Neither the
submitter nor the shutdown takes that mutex, so both can fall in between. What
they notify then does not wait yet, and when it does the notification is gone.

There is an account to keep. A task in the queue is *covered* by the submit
that put it there, as long as that one has still to notify, or by a worker that
was notified or has seen the task and is about to take one out. Every step
keeps the account balanced, with one exception: a notification that finds
nobody waiting gives up its cover. That does no harm while nobody waits. So the
balance has to be right when a worker goes to sleep, and from there on it stays
right while one sleeps.

## Main definitions

* `Blocked`: All workers there still are sleep.
* `LostWakeup`: They do, and a task is queued or the shutdown waits for them.
* `Covered`: The account.
* `SleepsCovered`: A worker goes to sleep only while the queue is covered and
  the shutdown has still to notify.
* `Awake`: What holds throughout.

## Theorems

* `Moves.covered`: A worker's step keeps the account.
* `awake_step`: The invariant.
* `no_lostWakeup`: No wake-up is lost when workers go to sleep covered.
* `wakeup_lost`: Otherwise one can be.
-/

namespace Defender

namespace Pool

open Machine

/-- There is a worker that has not ended, and all such wait. -/
def Blocked (s : ThreadPool) : Prop :=
  (∃ pc ∈ s.workers, pc ≠ .ended) ∧ ∀ pc ∈ s.workers, pc ≠ .ended → pc = .waiting

/-- The workers wait with a task in the queue and no submit in progress, or
    with the flag set and the shutdown joining them. -/
def LostWakeup (s : ThreadPool) : Prop :=
  Blocked s ∧ ((s.m_queue ≠ [] ∧ s.submitting = 0) ∨
    (s.m_shutdown = true ∧ ∃ i, s.shutdown = .joining i))

/-- Whether a worker is on its way to take a task out, and was notified of one
    or has seen one. -/
def WorkerPc.going : WorkerPc → Bool
  | .notified => true
  | .dequeuing => true
  | _ => false

/-- For every queued task there is a notification still to come, or a worker on
    its way. -/
def Covered (s : ThreadPool) : Prop :=
  s.m_queue.length ≤ s.submitting + s.workers.countP WorkerPc.going

instance (s : ThreadPool) : Decidable (Covered s) :=
  inferInstanceAs (Decidable (_ ≤ _))

/-- Whether the shutdown has notified all. -/
def ShutdownPc.past : ShutdownPc → Bool
  | .joining _ => true
  | .returned => true
  | _ => false

/-- A worker begins to wait only while every queued task is covered, and the
    shutdown has still to notify. -/
def SleepsCovered (s : ThreadPool) : Label → Prop
  | .worker i => s.workers[i]? = some .entering → Covered s ∧ s.shutdown.past = false
  | _ => True

instance (s : ThreadPool) (l : Label) : Decidable (SleepsCovered s l) :=
  match l with
  | .worker _ => inferInstanceAs (Decidable (_ → _))
  | .enqueue | .notifyOne _ | .storeShutdown | .notifyAll | .join | .spurious _ => isTrue trivial

/-- While a worker waits, every queued task is covered, and the shutdown has
    still to notify. -/
def Awake (s : ThreadPool) : Prop :=
  .waiting ∈ s.workers → Covered s ∧ s.shutdown.past = false

theorem awake_start (n : Nat) : Awake (start n) :=
  fun hmem => absurd (List.eq_of_mem_replicate hmem) WorkerPc.noConfusion

/-- A worker that takes a task was on its way for it. -/
theorem Moves.covered {s s' : ThreadPool} {pc pc' : WorkerPc} (h : Moves s s' pc pc') :
    s'.m_queue.length + (if pc.going = true then 1 else 0)
        ≤ s.m_queue.length + (if pc'.going = true then 1 else 0) ∨ s'.m_queue = [] := by
  cases h with
  | leaves _ hq => left; rw [hq]; exact Nat.le_refl _
  | passes _ hq => left; rw [hq]; exact Nat.le_refl _
  | locks hq => left; rw [hq]; exact Nat.le_refl _
  | empty _ hq => left; rw [hq]; exact Nat.le_refl _
  -- A task that was seen, or taken: the worker begins or ends to be on its way for it.
  | ready _ hq => left; rw [hq]; exact Nat.le_succ _
  | waits hq => left; rw [hq]; exact Nat.le_refl _
  | resumes hq => left; rw [hq]; exact Nat.le_refl _
  | misses _ hq => exact Or.inr hq
  | takes t hq => left; rw [hq, List.length_cons]; exact Nat.le_refl _
  | drops hq => left; rw [hq]; exact Nat.le_refl _
  | begins t hq => left; rw [hq]; exact Nat.le_refl _
  | runs t hq => left; rw [hq]; exact Nat.le_refl _

/-- A worker waits only after it was about to. -/
theorem Moves.waiting {s s' : ThreadPool} {pc pc' : WorkerPc} (h : Moves s s' pc pc')
    (hpc' : pc' = .waiting) : pc = .entering := by
  cases h with
  | waits => rfl
  | _ => exact WorkerPc.noConfusion hpc'

/-- A worker's step keeps the queue covered. -/
theorem covered_worker {s s' : ThreadPool} {i : Nat} {pc pc' : WorkerPc}
    (hpc : s.workers[i]? = some pc) (hw : s'.workers = s.workers.set i pc') (hquiet : Quiet s s')
    (hmoves : Moves s s' pc pc') (hcovered : Covered s) : Covered s' := by
  have hcount := Crew.countP_set WorkerPc.going s.workers i pc' pc hpc
  unfold Covered at hcovered ⊢
  rw [hw, hquiet.submitting]
  rcases hmoves.covered with hle | hempty
  · omega
  · rw [hempty]
    exact Nat.zero_le _

/-- Waking a worker that waits keeps the queue covered, also when the
    notification is used up by it. -/
theorem covered_wake {s s' : ThreadPool} {i : Nat} (hi : s.workers[i]? = some .waiting)
    (hw : s'.workers = s.workers.set i .notified) (hq : s'.m_queue = s.m_queue)
    (hsub : s.submitting ≤ s'.submitting + 1) (hcovered : Covered s) : Covered s' := by
  have hcount := Crew.countP_set WorkerPc.going s.workers i .notified .waiting hi
  simp only [WorkerPc.going, if_true, Bool.false_eq_true, if_false] at hcount
  unfold Covered at hcovered ⊢
  rw [hw, hq]
  omega

/-- One more worker is awake, and the others wait as before. -/
theorem waiting_of_wake {s s' : ThreadPool} {i : Nat}
    (hw : s'.workers = s.workers.set i .notified) (hmem : .waiting ∈ s'.workers) :
    .waiting ∈ s.workers := by
  rw [hw] at hmem
  rcases Crew.of_mem_set s.workers i .notified .waiting hmem with heq | hold
  · exact absurd heq WorkerPc.noConfusion
  · exact hold

theorem awake_step (s s' : ThreadPool) (l : Label) (hawake : Awake s) (hl : SleepsCovered s l)
    (hstep : step s l = some s') : Awake s' := by
  intro hmem
  cases l with
  | enqueue =>
      rcases enqueue_cases s s' hstep with ⟨-, rfl⟩
      -- The new task is covered by the notification that is still to come.
      rcases hawake hmem with ⟨hcovered, hpast⟩
      refine ⟨?_, hpast⟩
      unfold Covered at hcovered ⊢
      simp only [List.length_append, List.length_singleton]
      omega
  | notifyOne w =>
      rcases notifyOne_cases s s' w hstep with ⟨hsub, hq, -, -, hshut, -, ⟨hnone, hw⟩ | ⟨i, hi, hw⟩⟩
      · -- Nobody waits, before or after.
        rw [hw] at hmem
        exact absurd hmem hnone
      · rcases hawake (List.mem_of_getElem? hi) with ⟨hcovered, hpast⟩
        exact ⟨covered_wake hi hw hq (Nat.le_of_eq hsub.symm) hcovered, hshut ▸ hpast⟩
  | storeShutdown =>
      -- The flag is stored before all are notified.
      rcases storeShutdown_cases s s' hstep with ⟨-, -, rfl⟩
      exact ⟨(hawake hmem).1, rfl⟩
  | notifyAll =>
      -- Nobody waits when all have been notified.
      rcases notifyAll_cases s s' hstep with ⟨-, rfl⟩
      rcases List.mem_map.mp hmem with ⟨pc, -, hpc⟩
      cases pc <;> exact absurd hpc WorkerPc.noConfusion
  | join =>
      rcases join_cases s s' hstep with ⟨i, hjoining, hcase⟩
      have hsame : s'.workers = s.workers := by
        rcases hcase with ⟨-, rfl⟩ | ⟨-, rfl⟩
        · rfl
        · rfl
      -- Nobody can be waiting by then.
      have hpast := (hawake (hsame ▸ hmem)).2
      rw [hjoining] at hpast
      exact absurd hpast Bool.noConfusion
  | worker i =>
      rcases worker_cases s s' i hstep with ⟨pc, pc', hpc, hw, hquiet, hmoves⟩
      rw [hquiet.shutdown]
      rw [hw] at hmem
      have hbefore : Covered s ∧ s.shutdown.past = false := by
        rcases Crew.of_mem_set s.workers i pc' .waiting hmem with heq | hold
        · -- It is this worker that begins to wait.
          rw [hmoves.waiting heq.symm] at hpc
          exact hl hpc
        · exact hawake hold
      exact ⟨covered_worker hpc hw hquiet hmoves hbefore.1, hbefore.2⟩
  | spurious i =>
      rcases spurious_cases s s' i hstep with ⟨hi, rfl⟩
      have hw : (s.put i .notified).workers = s.workers.set i .notified := rfl
      rcases hawake (waiting_of_wake hw hmem) with ⟨hcovered, hpast⟩
      exact ⟨covered_wake hi hw rfl (Nat.le_succ _) hcovered, hpast⟩

/-- Sleeping workers are not on their way. -/
theorem going_of_blocked {s : ThreadPool} (h : Blocked s) :
    s.workers.countP WorkerPc.going = 0 := by
  rw [List.countP_eq_zero]
  intro pc hpc
  by_cases hended : pc = .ended
  · rw [hended]
    exact Bool.false_ne_true
  · rw [h.2 pc hpc hended]
    exact Bool.false_ne_true

/-- Where workers wait only for what is covered, the pool is not stuck. -/
theorem Awake.not_lostWakeup {s : ThreadPool} (h : Awake s) : ¬ LostWakeup s := by
  rintro ⟨hblocked, hwork⟩
  rcases hblocked.1 with ⟨pc, hpc, hlive⟩
  rw [hblocked.2 pc hpc hlive] at hpc
  rcases h hpc with ⟨hcovered, hpast⟩
  rcases hwork with ⟨hqueue, hsub⟩ | ⟨-, i, hjoining⟩
  · -- Neither a submit nor a worker covers the tasks that are queued.
    rw [Covered, hsub, going_of_blocked hblocked] at hcovered
    exact hqueue (List.eq_nil_of_length_eq_zero (Nat.le_zero.mp hcovered))
  · rw [hjoining] at hpast
    exact absurd hpast Bool.noConfusion

/-- In every state of every run in which workers go to sleep only while all
    queued tasks are covered, and before the shutdown has notified all, no
    wake-up is lost. Waits that end by themselves do no harm. -/
theorem no_lostWakeup (n : Nat) (ls : List Label) (t : ThreadPool)
    (hrun : run step (start n) ls = some t) (hmeet : StepsMeet step SleepsCovered (start n) ls) :
    ¬ LostWakeup t :=
  (run_invariant_of_stepsMeet step SleepsCovered Awake
    (fun s l s' hawake hl hstep => awake_step s s' l hawake hl hstep)
    (start n) t ls (awake_start n) hmeet hrun).not_lostWakeup

/-- Two workers go to sleep, the second behind a task that was put into the queue
    meanwhile, of which nobody was notified yet. The first is woken for it, runs
    it and sleeps again. -/
theorem no_lostWakeup_oneTask :
    ∃ t, run step (start 2)
        [.worker 0, .worker 0, .worker 0, .worker 0, .worker 1, .worker 1, .worker 1, .enqueue,
          .worker 1, .notifyOne (some 0), .worker 0, .worker 0, .worker 0, .worker 0, .worker 0,
          .worker 0, .worker 0, .worker 0] = some t ∧
      Blocked t ∧ t.ran = [0] ∧ ¬ LostWakeup t := by
  refine ⟨{ m_shutdown := false, m_queue := [], owner := none, workers := [.waiting, .waiting],
            submitted := 1, submitting := 0, shutdown := .notCalled, ran := [0] }, by decide,
    ⟨⟨.waiting, List.mem_cons_self, WorkerPc.noConfusion⟩, fun pc hpc _ => ?_⟩, rfl,
    no_lostWakeup 2 [.worker 0, .worker 0, .worker 0, .worker 0, .worker 1, .worker 1, .worker 1,
      .enqueue, .worker 1, .notifyOne (some 0), .worker 0, .worker 0, .worker 0, .worker 0,
      .worker 0, .worker 0, .worker 0, .worker 0] _ (by decide) (by decide)⟩
  rcases List.mem_cons.mp hpc with rfl | hlast
  · rfl
  · exact List.mem_singleton.mp hlast

/-- One worker has seen that the queue is empty. A task is put into it and
    nobody is notified, since nobody waits yet. Then the worker waits. -/
theorem wakeup_lost :
    ¬ ∀ (n : Nat) (ls : List Label) (t : ThreadPool), (∀ i, .spurious i ∉ ls) →
      run step (start n) ls = some t → ¬ LostWakeup t := by
  intro h
  have hrun : run step (start 1)
      [.worker 0, .worker 0, .worker 0, .enqueue, .notifyOne none, .worker 0]
      = some { m_shutdown := false, m_queue := [0], owner := none, workers := [.waiting],
               submitted := 1, submitting := 0, shutdown := .notCalled, ran := [] } := by
    decide
  refine h 1 _ _ ?_ hrun ⟨⟨⟨.waiting, List.mem_singleton_self _, WorkerPc.noConfusion⟩, ?_⟩, ?_⟩
  · intro i hi
    simp only [List.mem_cons, reduceCtorEq, List.not_mem_nil, or_self] at hi
  · intro pc hpc _
    exact List.mem_singleton.mp hpc
  · exact Or.inl ⟨List.cons_ne_nil 0 [], rfl⟩

end Pool

end Defender
