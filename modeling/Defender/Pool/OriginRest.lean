import Defender.Pool.Origin

/-!
# Coming to Rest

The pool of `ThreadPoolHelperOrigin.h` does not lose a wake-up. A worker looks
at its predicate and begins to wait without giving up the mutex in between, and
whoever puts a task into the queue, or sets the flag, has the mutex too; so a
worker waits only when there was nothing to do, and is notified of what comes
after.

The measure of what the pool still has to do counts, for each worker, its steps
to its next wait, for each task in the queue the steps of one round, and for
each notification to come what it may start. Every step of a thread of the pool
makes it smaller. So the pool comes to rest, and where it has come to rest all
of the tasks have been run, or the destructor has returned and dropped those
behind a point in their order.

## Main definitions

* `Locked`: Who has the mutex, and what those between a look at the predicate
  and what follows from it rely on.
* `Awake`: What the waiting workers are owed.
* `potential`: The measure.
* `Resting`, `Done`: No thread has a step, and what is wanted then.

## Theorems

* `locked_step`, `awake_step`: The invariants.
* `potential_step`: Every step makes the measure smaller.
* `done_of_resting`: At rest everything is done.
* `pool_finishes`: The pool comes to rest, and has done everything then.
* `destructor_drops`: What was run when the destructor has returned.
-/

namespace Defender

namespace OriginPool

open Machine

/-! ### The mutex -/

/-- Whether a worker has the mutex. -/
def WorkerPc.holds : WorkerPc → Bool
  | .testing | .entering | .passed | .unlocking _ => true
  | _ => false

/-- The worker that has the mutex is the one it names, and what it saw is still
    so. -/
structure Locked (s : ThreadPool) : Prop where
  owner : ∀ i : Nat, s.queueMutex = some i ↔ ∃ pc, s.workers[i]? = some pc ∧ pc.holds = true
  passed : ∀ i : Nat, s.workers[i]? = some .passed → s.m_stop = true ∨ s.tasks ≠ []
  entering : ∀ i : Nat, s.workers[i]? = some .entering → s.m_stop = false ∧ s.tasks = []

theorem getElem?_start (n i : Nat) (pc : WorkerPc) (h : (start n).workers[i]? = some pc) :
    pc = .locking :=
  List.eq_of_mem_replicate (List.mem_of_getElem? h)

theorem locked_start (n : Nat) : Locked (start n) where
  owner := by
    intro i
    refine iff_of_false (by simp only [start, reduceCtorEq, not_false_eq_true]) ?_
    rintro ⟨pc, hpc, hholds⟩
    rw [getElem?_start n i pc hpc] at hholds
    exact Bool.false_ne_true hholds
  passed := fun i hi => absurd (getElem?_start n i _ hi) WorkerPc.noConfusion
  entering := fun i hi => absurd (getElem?_start n i _ hi) WorkerPc.noConfusion

/-- While the mutex is free nobody is between a look and what follows. -/
theorem Locked.free {s : ThreadPool} (h : Locked s) (hfree : s.queueMutex = none) (i : Nat)
    (pc : WorkerPc) (hpc : s.workers[i]? = some pc) : pc.holds = false := by
  by_contra hholds
  have howner := (h.owner i).mpr ⟨pc, hpc, eq_true_of_ne_false hholds⟩
  exact absurd (hfree.symm.trans howner) (by simp only [reduceCtorEq, not_false_eq_true])

/-- While a worker has it, no other worker is. -/
theorem Locked.alone {s : ThreadPool} (h : Locked s) (i j : Nat) (x y : WorkerPc)
    (hx : s.workers[i]? = some x) (hxh : x.holds = true) (hy : s.workers[j]? = some y)
    (hyh : y.holds = true) : j = i := by
  have hi := (h.owner i).mpr ⟨x, hx, hxh⟩
  have hj := (h.owner j).mpr ⟨y, hy, hyh⟩
  exact Option.some.inj (hj.symm.trans hi)

/-- A worker goes on without a change of the mutex, the flag or the queue. -/
theorem Locked.put {s : ThreadPool} (h : Locked s) (i : Nat) (pc pc' : WorkerPc)
    (hpc : s.workers[i]? = some pc) (hholds : pc'.holds = pc.holds)
    (hpassed : pc' = .passed → s.m_stop = true ∨ s.tasks ≠ [])
    (hentering : pc' = .entering → s.m_stop = false ∧ s.tasks = []) : Locked (s.put i pc') := by
  have hget := fun j => getElem?_put s i j pc' pc hpc
  refine ⟨fun j => ?_, fun j hj => ?_, fun j hj => ?_⟩
  · rw [hget j]
    by_cases hji : j = i
    · rw [if_pos hji, hji]
      refine (h.owner i).trans ?_
      rw [hpc]
      simp only [Option.some.injEq, exists_eq_left', hholds]
    · rw [if_neg hji]
      exact h.owner j
  · rw [hget j] at hj
    by_cases hji : j = i
    · rw [if_pos hji] at hj
      exact hpassed (Option.some.inj hj)
    · rw [if_neg hji] at hj
      exact h.passed j hj
  · rw [hget j] at hj
    by_cases hji : j = i
    · rw [if_pos hji] at hj
      exact hentering (Option.some.inj hj)
    · rw [if_neg hji] at hj
      exact h.entering j hj

/-- A worker takes the mutex. -/
theorem Locked.lock {s : ThreadPool} (h : Locked s) (hfree : s.queueMutex = none) (i : Nat)
    (pc : WorkerPc) (hpc : s.workers[i]? = some pc) :
    Locked ({ s with queueMutex := some i }.put i .testing) := by
  have hget := fun j => getElem?_put s i j .testing pc hpc
  have hnone := h.free hfree
  refine ⟨fun j => ?_, fun j hj => ?_, fun j hj => ?_⟩
  · change some i = some j ↔ ∃ pc, (s.put i .testing).workers[j]? = some pc ∧ pc.holds = true
    rw [hget j]
    by_cases hji : j = i
    · rw [if_pos hji, hji]
      exact iff_of_true rfl ⟨.testing, rfl, rfl⟩
    · rw [if_neg hji]
      refine iff_of_false (fun hij => hji (Option.some.inj hij).symm) ?_
      rintro ⟨x, hx, hholds⟩
      exact Bool.false_ne_true ((hnone j x hx).symm.trans hholds)
  · -- Nobody else is between a look and what follows.
    replace hj : (s.put i .testing).workers[j]? = some .passed := hj
    rw [hget j] at hj
    by_cases hji : j = i
    · rw [if_pos hji] at hj
      exact absurd (Option.some.inj hj) WorkerPc.noConfusion
    · rw [if_neg hji] at hj
      exact absurd (hnone j _ hj) Bool.noConfusion
  · replace hj : (s.put i .testing).workers[j]? = some .entering := hj
    rw [hget j] at hj
    by_cases hji : j = i
    · rw [if_pos hji] at hj
      exact absurd (Option.some.inj hj) WorkerPc.noConfusion
    · rw [if_neg hji] at hj
      exact absurd (hnone j _ hj) Bool.noConfusion

/-- The worker that has the mutex gives it up, or changes the queue: no other is
    between a look and what follows, before or after. -/
theorem Locked.hold {s s' : ThreadPool} (h : Locked s) (i : Nat) (pc pc' : WorkerPc)
    (hpc : s.workers[i]? = some pc) (hholds : pc.holds = true)
    (hworkers : s'.workers = s.workers.set i pc')
    (hmutex : s'.queueMutex = if pc'.holds = true then some i else none)
    (hpassed : pc' ≠ .passed) (hentering : pc' ≠ .entering) : Locked s' := by
  have hget : ∀ j, s'.workers[j]? = if j = i then some pc' else s.workers[j]? := by
    intro j
    rw [hworkers]
    exact getElem?_put s i j pc' pc hpc
  have hother : ∀ j x, j ≠ i → s.workers[j]? = some x → x.holds = false := by
    intro j x hji hx
    by_contra hx'
    exact hji (h.alone i j pc x hpc hholds hx (eq_true_of_ne_false hx'))
  -- No other worker holds the mutex, so none is at a place where it is held.
  refine ⟨fun j => ?_, fun j hj => ?_, fun j hj => ?_⟩
  · rw [hget j, hmutex]
    by_cases hji : j = i
    · rw [if_pos hji, hji]
      simp only [Option.some.injEq, exists_eq_left']
      cases pc'.holds with
      | true => exact iff_of_true rfl rfl
      | false => simp only [Bool.false_eq_true, if_false, reduceCtorEq]
    · rw [if_neg hji]
      refine iff_of_false (fun hij => ?_) ?_
      · split at hij
        · exact hji (Option.some.inj hij).symm
        · exact absurd hij (by simp only [reduceCtorEq, not_false_eq_true])
      · rintro ⟨x, hx, hxh⟩
        exact Bool.false_ne_true ((hother j x hji hx).symm.trans hxh)
  · rw [hget j] at hj
    by_cases hji : j = i
    · rw [if_pos hji] at hj
      exact absurd (Option.some.inj hj) hpassed
    · rw [if_neg hji] at hj
      exact absurd (hother j _ hji hj) Bool.noConfusion
  · rw [hget j] at hj
    by_cases hji : j = i
    · rw [if_pos hji] at hj
      exact absurd (Option.some.inj hj) hentering
    · rw [if_neg hji] at hj
      exact absurd (hother j _ hji hj) Bool.noConfusion

theorem locked_worker (s s' : ThreadPool) (i : Nat) (pc pc' : WorkerPc) (h : Locked s)
    (hpc : s.workers[i]? = some pc) (hmoves : Moves s i pc pc' s') : Locked s' := by
  cases hmoves with
  | locks hfree => exact h.lock hfree i _ hpc
  | relocks hfree => exact h.lock hfree i _ hpc
  | passes hpred => exact h.put i _ .passed hpc rfl (fun _ => hpred) WorkerPc.noConfusion
  | fails hstop htasks =>
      exact h.put i _ .entering hpc rfl WorkerPc.noConfusion (fun _ => ⟨hstop, htasks⟩)
  | waits => exact h.hold i _ .waiting hpc rfl rfl rfl WorkerPc.noConfusion WorkerPc.noConfusion
  | returns _ => exact h.hold i _ .ended hpc rfl rfl rfl WorkerPc.noConfusion WorkerPc.noConfusion
  | takes t tasks _ _ =>
      have howner := (h.owner i).mpr ⟨.passed, hpc, rfl⟩
      exact h.hold i _ (.unlocking t) hpc rfl rfl howner WorkerPc.noConfusion
        WorkerPc.noConfusion
  | unlocks t =>
      exact h.hold i _ (.running t) hpc rfl rfl rfl WorkerPc.noConfusion WorkerPc.noConfusion
  | runs t =>
      have hran : Locked { s with ran := s.ran ++ [t] } := ⟨h.owner, h.passed, h.entering⟩
      exact hran.put i _ .locking hpc rfl WorkerPc.noConfusion WorkerPc.noConfusion

theorem holds_wake (pc : WorkerPc) : pc.wake.holds = pc.holds := by
  cases pc <;> rfl

/-- Waking changes neither who has the mutex nor who is about to do what. -/
theorem locked_wake {s : ThreadPool} (h : Locked s) :
    Locked { s with workers := s.workers.map WorkerPc.wake } := by
  have hback : ∀ (i : Nat) (x : WorkerPc), (s.workers.map WorkerPc.wake)[i]? = some x →
      ∃ pc, s.workers[i]? = some pc ∧ pc.wake = x := by
    intro i x hx
    rw [List.getElem?_map] at hx
    exact Option.map_eq_some_iff.mp hx
  refine ⟨fun i => (h.owner i).trans ⟨?_, ?_⟩, fun i hi => ?_, fun i hi => ?_⟩
  · rintro ⟨pc, hpc, hholds⟩
    refine ⟨pc.wake, ?_, (holds_wake pc).trans hholds⟩
    dsimp only
    rw [List.getElem?_map, hpc, Option.map_some]
  · rintro ⟨x, hx, hholds⟩
    rcases hback i x hx with ⟨pc, hpc, rfl⟩
    exact ⟨pc, hpc, (holds_wake pc).symm.trans hholds⟩
  · rcases hback i _ hi with ⟨pc, hpc, hwake⟩
    cases pc with
    | passed => exact h.passed i hpc
    | _ => exact absurd hwake WorkerPc.noConfusion
  · rcases hback i _ hi with ⟨pc, hpc, hwake⟩
    cases pc with
    | entering => exact h.entering i hpc
    | _ => exact absurd hwake WorkerPc.noConfusion

theorem locked_step (s s' : ThreadPool) (l : Label) (h : Locked s) (hstep : step s l = some s') :
    Locked s' := by
  cases l with
  | enqueue =>
      -- The mutex is free, so that nobody relies on the queue.
      rcases enqueue_cases s s' hstep with ⟨hfree, rfl⟩
      exact ⟨h.owner, fun i hi => absurd (h.free hfree i _ hi) Bool.noConfusion,
        fun i hi => absurd (h.free hfree i _ hi) Bool.noConfusion⟩
  | notifyOne w =>
      rcases notifyOne_cases s s' w hstep with ⟨n, -, ⟨-, rfl⟩ | ⟨i, hi, rfl⟩⟩
      · exact ⟨h.owner, h.passed, h.entering⟩
      · have hsame : Locked { s with enqueuing := n } := ⟨h.owner, h.passed, h.entering⟩
        exact hsame.put i _ .notified hi rfl WorkerPc.noConfusion WorkerPc.noConfusion
  | storeStop =>
      rcases storeStop_cases s s' hstep with ⟨hfree, -, rfl⟩
      exact ⟨h.owner, fun i hi => absurd (h.free hfree i _ hi) Bool.noConfusion,
        fun i hi => absurd (h.free hfree i _ hi) Bool.noConfusion⟩
  | notifyAll =>
      rcases notifyAll_cases s s' hstep with ⟨-, rfl⟩
      have hwake := locked_wake h
      exact ⟨hwake.owner, hwake.passed, hwake.entering⟩
  | join =>
      rcases join_cases s s' hstep with ⟨i, -, ⟨-, -, rfl⟩ | ⟨-, rfl⟩⟩
      · exact ⟨h.owner, h.passed, h.entering⟩
      · exact ⟨h.owner, h.passed, h.entering⟩
  | worker i =>
      rcases worker_cases s s' i hstep with ⟨pc, pc', hpc, hmoves⟩
      exact locked_worker s s' i pc pc' h hpc hmoves
  | spurious i =>
      rcases spurious_cases s s' i hstep with ⟨hi, rfl⟩
      exact h.put i _ .notified hi rfl WorkerPc.noConfusion WorkerPc.noConfusion

/-! ### The waiting workers -/

/-- Whether a worker is neither waiting nor gone. -/
def WorkerPc.awake : WorkerPc → Bool
  | .waiting | .ended => false
  | _ => true

/-- Whether the destructor has notified all. -/
def DestructorPc.past : DestructorPc → Bool
  | .joining _ | .returned => true
  | _ => false

/-- How many workers have been joined. -/
def DestructorPc.joined (n : Nat) : DestructorPc → Nat
  | .joining i => i
  | .returned => n
  | _ => 0

/-- While the flag is not set, a worker waits only for an empty queue, or some
    other thread goes on. Nobody waits when all have been notified. -/
structure Awake (s : ThreadPool) : Prop where
  stop : s.m_stop = true ↔ s.destructor ≠ .notCalled
  ended : .ended ∈ s.workers → s.m_stop = true
  woken : s.destructor.past = true → .waiting ∉ s.workers
  asleep : .waiting ∈ s.workers → s.m_stop = false →
    s.tasks = [] ∨ 0 < s.enqueuing ∨ ∃ pc ∈ s.workers, pc.awake = true
  joined : ∀ j < s.destructor.joined s.workers.length, s.workers[j]? = some .ended

theorem awake_start (n : Nat) : Awake (start n) where
  stop := by simp only [start, Bool.false_eq_true, ne_eq, not_true_eq_false]
  ended := fun hmem => absurd (List.eq_of_mem_replicate hmem) WorkerPc.noConfusion
  woken := fun hpast => absurd hpast Bool.noConfusion
  asleep := fun hmem => absurd (List.eq_of_mem_replicate hmem) WorkerPc.noConfusion
  joined := fun j hj => absurd hj (Nat.not_lt_zero j)

/-- Those that were joined do not move. -/
theorem joined_set {s : ThreadPool} {i : Nat} {pc pc' : WorkerPc}
    (hpc : s.workers[i]? = some pc) (hnot : pc ≠ .ended)
    (h : ∀ j < s.destructor.joined s.workers.length, s.workers[j]? = some .ended) :
    ∀ j < s.destructor.joined (s.workers.set i pc').length,
      (s.workers.set i pc')[j]? = some .ended := by
  rw [List.length_set]
  intro j hj
  have hne : j ≠ i := by
    intro hji
    have hended := h j hj
    rw [hji, hpc, Option.some.injEq] at hended
    exact hnot hended
  rw [Crew.getElem?_set_of_ne s.workers i j pc' hne]
  exact h j hj

/-- A worker goes to where it is awake. -/
theorem Awake.put {s s' : ThreadPool} (h : Awake s) (i : Nat) (pc pc' : WorkerPc)
    (hpc : s.workers[i]? = some pc) (hnot : pc ≠ .ended) (hawake : pc'.awake = true)
    (hworkers : s'.workers = s.workers.set i pc') (hstop : s'.m_stop = s.m_stop)
    (hdestructor : s'.destructor = s.destructor) : Awake s' := by
  have hmem : ∀ x, x ∈ s'.workers → x.awake = false → x ∈ s.workers := by
    intro x hx hasleep
    rw [hworkers] at hx
    rcases Crew.of_mem_set s.workers i pc' x hx with rfl | hold
    · exact absurd (hasleep.symm.trans hawake) Bool.noConfusion
    · exact hold
  refine ⟨?_, fun hx => ?_, fun hpast hx => ?_, fun _ _ => ?_, ?_⟩
  · rw [hstop, hdestructor]
    exact h.stop
  · rw [hstop]
    exact h.ended (hmem _ hx rfl)
  · rw [hdestructor] at hpast
    exact h.woken hpast (hmem _ hx rfl)
  · have hat := Crew.getElem?_set_of_some s.workers i pc' pc hpc
    exact Or.inr (Or.inr ⟨pc', hworkers ▸ List.mem_of_getElem? hat, hawake⟩)
  · rw [hworkers, hdestructor]
    exact joined_set hpc hnot h.joined

theorem awake_worker (s s' : ThreadPool) (i : Nat) (pc pc' : WorkerPc) (hlocked : Locked s)
    (h : Awake s) (hpc : s.workers[i]? = some pc) (hmoves : Moves s i pc pc' s') : Awake s' := by
  cases hmoves with
  | locks _ => exact h.put i _ _ hpc WorkerPc.noConfusion rfl rfl rfl rfl
  | relocks _ => exact h.put i _ _ hpc WorkerPc.noConfusion rfl rfl rfl rfl
  | passes _ => exact h.put i _ _ hpc WorkerPc.noConfusion rfl rfl rfl rfl
  | fails _ _ => exact h.put i _ _ hpc WorkerPc.noConfusion rfl rfl rfl rfl
  | waits =>
      -- What it saw is still so: the flag is not set, and the queue is empty.
      rcases hlocked.entering i hpc with ⟨hstop, htasks⟩
      refine ⟨h.stop, fun hx => ?_, fun hpast => ?_, fun _ _ => Or.inl htasks,
        joined_set hpc WorkerPc.noConfusion h.joined⟩
      · rcases Crew.of_mem_set s.workers i _ _ hx with heq | hold
        · exact absurd heq WorkerPc.noConfusion
        · exact h.ended hold
      · have hnot : s.destructor = .notCalled := by
          by_contra hcalled
          exact absurd (hstop.symm.trans (h.stop.mpr hcalled)) Bool.noConfusion
        have hnotPast : s.destructor.past = true := hpast
        rw [hnot] at hnotPast
        exact absurd hnotPast Bool.noConfusion
  | returns hstop =>
      refine ⟨h.stop, fun _ => hstop, fun hpast hx => ?_, fun _ hfalse => ?_,
        joined_set hpc WorkerPc.noConfusion h.joined⟩
      · rcases Crew.of_mem_set s.workers i _ _ hx with heq | hold
        · exact absurd heq WorkerPc.noConfusion
        · exact h.woken hpast hold
      · exact absurd (hstop.symm.trans hfalse) Bool.noConfusion
  | takes t tasks _ _ => exact h.put i _ _ hpc WorkerPc.noConfusion rfl rfl rfl rfl
  | unlocks t => exact h.put i _ _ hpc WorkerPc.noConfusion rfl rfl rfl rfl
  | runs t => exact h.put i _ _ hpc WorkerPc.noConfusion rfl rfl rfl rfl

theorem awake_step (s s' : ThreadPool) (l : Label) (hlocked : Locked s) (h : Awake s)
    (hstep : step s l = some s') : Awake s' := by
  cases l with
  | enqueue =>
      rcases enqueue_cases s s' hstep with ⟨-, rfl⟩
      exact ⟨h.stop, h.ended, h.woken, fun _ _ => Or.inr (Or.inl (Nat.succ_pos _)), h.joined⟩
  | notifyOne w =>
      rcases notifyOne_cases s s' w hstep with ⟨n, -, ⟨hnone, rfl⟩ | ⟨i, hi, rfl⟩⟩
      · exact ⟨h.stop, h.ended, h.woken, fun hmem => absurd hmem hnone, h.joined⟩
      · exact h.put i _ .notified hi WorkerPc.noConfusion rfl rfl rfl rfl
  | storeStop =>
      rcases storeStop_cases s s' hstep with ⟨-, -, rfl⟩
      refine ⟨iff_of_true rfl DestructorPc.noConfusion, fun _ => rfl,
        fun hpast => absurd hpast Bool.noConfusion, fun _ hfalse => absurd hfalse Bool.noConfusion,
        fun j hj => absurd hj (Nat.not_lt_zero j)⟩
  | notifyAll =>
      -- All that waited are woken.
      rcases notifyAll_cases s s' hstep with ⟨hnotifying, rfl⟩
      have hset : s.m_stop = true := h.stop.mpr (by rw [hnotifying]; exact DestructorPc.noConfusion)
      refine ⟨iff_of_true hset DestructorPc.noConfusion, fun _ => hset, fun _ hmem => ?_,
        fun _ hfalse => absurd (hset.symm.trans hfalse) Bool.noConfusion,
        fun j hj => absurd hj (Nat.not_lt_zero j)⟩
      rcases List.mem_map.mp hmem with ⟨pc, -, hpc⟩
      cases pc <;> exact absurd hpc WorkerPc.noConfusion
  | join =>
      rcases join_cases s s' hstep with ⟨i, hjoining, hcase⟩
      have hstop := h.stop
      have hjoined := h.joined
      have hwoken := h.woken (by rw [hjoining]; rfl)
      rw [hjoining] at hstop hjoined
      have hset : s.m_stop = true := hstop.mpr DestructorPc.noConfusion
      rcases hcase with ⟨-, hi, rfl⟩ | ⟨hall, rfl⟩
      · -- One more worker is joined, and it has ended.
        refine ⟨iff_of_true hset DestructorPc.noConfusion, h.ended, fun _ => hwoken, h.asleep,
          fun j hj => ?_⟩
        rcases Nat.lt_succ_iff_lt_or_eq.mp hj with hlt | heq
        · exact hjoined j hlt
        · exact heq ▸ hi
      · exact ⟨iff_of_true hset DestructorPc.noConfusion, h.ended, fun _ => hwoken, h.asleep,
          fun j hj => hjoined j (Nat.lt_of_lt_of_le hj hall)⟩
  | worker i =>
      rcases worker_cases s s' i hstep with ⟨pc, pc', hpc, hmoves⟩
      exact awake_worker s s' i pc pc' hlocked h hpc hmoves
  | spurious i =>
      rcases spurious_cases s s' i hstep with ⟨hi, rfl⟩
      exact h.put i _ .notified hi WorkerPc.noConfusion rfl rfl rfl rfl

/-- What holds in every state of every run. -/
structure Inv (s : ThreadPool) : Prop where
  account : Account s
  locked : Locked s
  awake : Awake s

theorem inv_step (s : ThreadPool) (l : Label) (s' : ThreadPool) (h : Inv s)
    (hstep : step s l = some s') : Inv s' :=
  ⟨account_step s s' l h.account hstep, locked_step s s' l h.locked hstep,
    awake_step s s' l h.locked h.awake hstep⟩

theorem inv_run (n : Nat) (ls : List Label) (s : ThreadPool)
    (hrun : run step (start n) ls = some s) : Inv s :=
  run_invariant step Inv inv_step (start n) s ls ⟨account_start n, locked_start n, awake_start n⟩
    hrun

/-! ### The measure -/

/-- How many steps a worker may make to its next wait, a notified one being a
    step from where it takes the mutex. -/
def WorkerPc.weight : WorkerPc → Nat
  | .locking => 3
  | .testing => 2
  | .entering => 1
  | .waiting => 0
  | .notified => 3
  | .passed => 1
  | .unlocking _ => 5
  | .running _ => 4
  | .ended => 0

/-- What is left for the destructor, with all the workers it may wake. -/
def DestructorPc.weight (n : Nat) : DestructorPc → Nat
  | .notCalled => 0
  | .notifying => 4 * n + 2
  | .joining i => n - i + 1
  | .returned => 0

/-- What the pool has still to do. -/
def potential (s : ThreadPool) : Nat :=
  (s.workers.map WorkerPc.weight).sum + 5 * s.tasks.length + 4 * s.enqueuing
    + s.destructor.weight s.workers.length

/-- Whether a step is one of the threads of the pool, and of a submit or a
    destructor that has begun. -/
def Label.own : Label → Bool
  | .notifyOne _ | .notifyAll | .join | .worker _ => true
  | _ => false

theorem sum_weight_wake (workers : List WorkerPc) :
    ((workers.map WorkerPc.wake).map WorkerPc.weight).sum
      ≤ (workers.map WorkerPc.weight).sum + 3 * workers.length := by
  induction workers with
  | nil => exact Nat.le_refl _
  | cons pc workers ih =>
      have hone : pc.wake.weight ≤ pc.weight + 3 := by
        cases pc <;> simp only [WorkerPc.wake, WorkerPc.weight] <;> omega
      simp only [List.map_cons, List.sum_cons, List.length_cons]
      omega

/-- Every step of the pool makes the measure smaller. -/
theorem potential_step (s : ThreadPool) (l : Label) (s' : ThreadPool) (hown : l.own = true)
    (hstep : step s l = some s') : potential s' < potential s := by
  cases l with
  | enqueue => exact absurd hown Bool.noConfusion
  | storeStop => exact absurd hown Bool.noConfusion
  | spurious i => exact absurd hown Bool.noConfusion
  | notifyOne w =>
      rcases notifyOne_cases s s' w hstep with ⟨n, hn, ⟨-, rfl⟩ | ⟨i, hi, rfl⟩⟩
      · simp only [potential]
        omega
      · have hsum := Crew.sum_set WorkerPc.weight s.workers i .notified .waiting hi
        simp only [potential, ThreadPool.put, List.length_set]
        simp only [WorkerPc.weight] at hsum
        omega
  | notifyAll =>
      rcases notifyAll_cases s s' hstep with ⟨hnotifying, rfl⟩
      have hsum := sum_weight_wake s.workers
      simp only [potential, hnotifying, DestructorPc.weight, List.length_map]
      omega
  | join =>
      rcases join_cases s s' hstep with ⟨i, hjoining, ⟨hlt, -, rfl⟩ | ⟨-, rfl⟩⟩
      · simp only [potential, hjoining, DestructorPc.weight]
        omega
      · simp only [potential, hjoining, DestructorPc.weight]
        omega
  | worker i =>
      rcases worker_cases s s' i hstep with ⟨pc, pc', hpc, hmoves⟩
      have hsum := Crew.sum_set WorkerPc.weight s.workers i pc' pc hpc
      cases hmoves with
      | takes t tasks _ htasks =>
          -- A round begins, and there is one task less.
          simp only [potential, ThreadPool.put, List.length_set, htasks, List.length_cons]
          simp only [WorkerPc.weight] at hsum
          omega
      | _ =>
          simp only [potential, ThreadPool.put, List.length_set]
          simp only [WorkerPc.weight] at hsum
          omega

/-! ### At rest -/

/-- No thread of the pool has a step. -/
def Resting (s : ThreadPool) : Prop :=
  ∀ l, l.own = true → step s l = none

/-- All tasks have been run, and the pool waits for more; or the destructor has
    returned. -/
def Done (s : ThreadPool) : Prop :=
  (s.destructor = .notCalled ∧ s.tasks = [] ∧ s.ran.Perm (List.range s.enqueued)) ∨
    s.destructor = .returned

/-- At rest nobody has the mutex: whoever has it can go on. -/
theorem free_of_resting {s : ThreadPool} (h : Inv s) (hrest : Resting s) : s.queueMutex = none := by
  by_contra hheld
  rcases Option.ne_none_iff_exists'.mp hheld with ⟨i, hi⟩
  rcases (h.locked.owner i).mp hi with ⟨pc, hpc, hholds⟩
  have hnone := hrest (.worker i) rfl
  simp only [step, hpc] at hnone
  cases pc with
  | passed =>
      by_cases hstop : s.m_stop = true
      · rw [workerStep, if_pos hstop] at hnone
        exact absurd hnone (by simp only [reduceCtorEq, not_false_eq_true])
      · have htasks := (h.locked.passed i hpc).resolve_left hstop
        rw [workerStep, if_neg hstop] at hnone
        cases hqueue : s.tasks with
        | nil => exact htasks hqueue
        | cons t tasks =>
            rw [hqueue] at hnone
            exact absurd hnone (by simp only [reduceCtorEq, not_false_eq_true])
  | testing => exact absurd hnone (by simp only [workerStep, reduceCtorEq, not_false_eq_true])
  | entering => exact absurd hnone (by simp only [workerStep, reduceCtorEq, not_false_eq_true])
  | unlocking t => exact absurd hnone (by simp only [workerStep, reduceCtorEq, not_false_eq_true])
  | locking => exact absurd hholds Bool.noConfusion
  | waiting => exact absurd hholds Bool.noConfusion
  | notified => exact absurd hholds Bool.noConfusion
  | running t => exact absurd hholds Bool.noConfusion
  | ended => exact absurd hholds Bool.noConfusion

/-- At rest the workers wait, or are gone. -/
theorem asleep_of_resting {s : ThreadPool} (h : Inv s) (hrest : Resting s) (pc : WorkerPc)
    (hpc : pc ∈ s.workers) : pc.awake = false := by
  have hfree := free_of_resting h hrest
  rcases List.mem_iff_getElem?.mp hpc with ⟨i, hi⟩
  have hunheld := h.locked.free hfree i pc hi
  have hnone := hrest (.worker i) rfl
  simp only [step, hi] at hnone
  cases pc with
  | waiting => rfl
  | ended => rfl
  | locking =>
      rw [workerStep, if_pos hfree] at hnone
      exact absurd hnone (by simp only [reduceCtorEq, not_false_eq_true])
  | notified =>
      rw [workerStep, if_pos hfree] at hnone
      exact absurd hnone (by simp only [reduceCtorEq, not_false_eq_true])
  | running t => exact absurd hnone (by simp only [workerStep, reduceCtorEq, not_false_eq_true])
  | testing => exact absurd hunheld Bool.noConfusion
  | entering => exact absurd hunheld Bool.noConfusion
  | passed => exact absurd hunheld Bool.noConfusion
  | unlocking t => exact absurd hunheld Bool.noConfusion

/-- At rest no submit is between its two steps. -/
theorem enqueuing_of_resting {s : ThreadPool} (hrest : Resting s) : s.enqueuing = 0 := by
  by_contra hsome
  rcases Nat.exists_eq_succ_of_ne_zero hsome with ⟨n, hn⟩
  by_cases hwaiting : .waiting ∈ s.workers
  · rcases List.mem_iff_getElem?.mp hwaiting with ⟨i, hi⟩
    have hnone := hrest (.notifyOne (some i)) rfl
    simp only [step, hn, hi, if_true] at hnone
    exact absurd hnone (by simp only [reduceCtorEq, not_false_eq_true])
  · have hnone := hrest (.notifyOne none) rfl
    simp only [step, hn, hwaiting, if_false] at hnone
    exact absurd hnone (by simp only [reduceCtorEq, not_false_eq_true])

/-- What is in the hands of workers that wait or are gone. -/
theorem flatMap_held (workers : List WorkerPc) (h : ∀ pc ∈ workers, pc.awake = false) :
    workers.flatMap WorkerPc.held = [] := by
  refine List.flatMap_eq_nil_iff.mpr (fun pc hpc => ?_)
  have hasleep := h pc hpc
  cases pc with
  | waiting => rfl
  | ended => rfl
  | _ => exact absurd hasleep Bool.noConfusion

/-- At rest everything is done, if the pool has a worker. -/
theorem done_of_resting {s : ThreadPool} (h : Inv s) (hworkers : s.workers ≠ [])
    (hrest : Resting s) : Done s := by
  have hasleep := asleep_of_resting h hrest
  rcases List.exists_mem_of_ne_nil s.workers hworkers with ⟨x, hx⟩
  cases hdestructor : s.destructor with
  | notCalled =>
      have hstop : s.m_stop = false := by
        by_contra hset
        exact (h.awake.stop.mp (eq_true_of_ne_false hset)) hdestructor
      have hwaiting : .waiting ∈ s.workers := by
        have hxa := hasleep x hx
        cases x with
        | waiting => exact hx
        | ended => exact absurd (hstop.symm.trans (h.awake.ended hx)) Bool.noConfusion
        | _ => exact absurd hxa Bool.noConfusion
      -- What a waiting worker is owed is not there, so there is no task.
      have htasks : s.tasks = [] := by
        rcases h.awake.asleep hwaiting hstop with hnil | hsome | ⟨pc, hpc, hawake⟩
        · exact hnil
        · rw [enqueuing_of_resting hrest] at hsome
          exact absurd hsome (Nat.lt_irrefl 0)
        · exact absurd ((hasleep pc hpc).symm.trans hawake) Bool.noConfusion
      have horder := h.account.order
      have hheld := h.account.held
      rw [htasks, List.append_nil] at horder
      rw [flatMap_held s.workers hasleep, List.append_nil, horder] at hheld
      exact Or.inl ⟨hdestructor, htasks, hheld⟩
  | notifying =>
      have hnone := hrest .notifyAll rfl
      rw [step, if_pos hdestructor] at hnone
      exact absurd hnone (by simp only [reduceCtorEq, not_false_eq_true])
  | joining i =>
      have hnone := hrest .join rfl
      simp only [step, hdestructor] at hnone
      by_cases hlt : i < s.workers.length
      · -- The worker to be joined does not wait, so it has ended.
        have hat : s.workers[i]? = some s.workers[i] := List.getElem?_eq_getElem hlt
        have hmem : s.workers[i] ∈ s.workers := List.getElem_mem hlt
        have hnot := h.awake.woken (by rw [hdestructor]; rfl)
        have hended : s.workers[i] = .ended := by
          have hxa := hasleep _ hmem
          cases hpc : s.workers[i] with
          | ended => rfl
          | waiting =>
              rw [hpc] at hmem
              exact absurd hmem hnot
          | _ =>
              rw [hpc] at hxa
              exact absurd hxa Bool.noConfusion
        rw [if_pos hlt, hat, hended, if_pos rfl] at hnone
        exact absurd hnone (by simp only [reduceCtorEq, not_false_eq_true])
      · rw [if_neg hlt] at hnone
        exact absurd hnone (by simp only [reduceCtorEq, not_false_eq_true])
  | returned => exact Or.inr hdestructor

theorem length_workers_step (s : ThreadPool) (l : Label) (s' : ThreadPool)
    (hstep : step s l = some s') : s'.workers.length = s.workers.length := by
  cases l with
  | enqueue => rw [(enqueue_cases s s' hstep).2]
  | notifyOne w =>
      rcases notifyOne_cases s s' w hstep with ⟨n, -, ⟨-, rfl⟩ | ⟨i, -, rfl⟩⟩
      · rfl
      · exact List.length_set
  | storeStop => rw [(storeStop_cases s s' hstep).2.2]
  | notifyAll =>
      rw [(notifyAll_cases s s' hstep).2]
      exact List.length_map _
  | join =>
      rcases join_cases s s' hstep with ⟨i, -, ⟨-, -, rfl⟩ | ⟨-, rfl⟩⟩
      · rfl
      · rfl
  | worker i =>
      rcases worker_cases s s' i hstep with ⟨pc, pc', -, hmoves⟩
      cases hmoves <;> exact List.length_set
  | spurious i =>
      rw [(spurious_cases s s' i hstep).2]
      exact List.length_set

theorem length_workers_run (n : Nat) (ls : List Label) (s : ThreadPool)
    (hrun : run step (start n) ls = some s) : s.workers.length = n :=
  run_invariant step (fun s => s.workers.length = n)
    (fun s l t h hstep => (length_workers_step s l t hstep).trans h) (start n) s ls
    List.length_replicate hrun

/-- From any state of any run, and in whatever order its threads go on, a pool
    that has a worker comes to rest after no more steps than the measure says,
    and has done everything then. -/
theorem pool_finishes (n : Nat) (hn : 0 < n) (ls : List Label) (s : ThreadPool)
    (hrun : run step (start n) ls = some s) (own : List Label) (hown : ∀ l ∈ own, l.own = true)
    (t : ThreadPool) (hgo : run step s own = some t) :
    own.length + potential t ≤ potential s ∧ (Resting t → Done t) := by
  have hinv := inv_run n ls s hrun
  have hlength := length_workers_run n ls s hrun
  have hmore : Inv t := run_invariant step Inv inv_step s t own hinv hgo
  have hsame : t.workers.length = n :=
    run_invariant step (fun s => s.workers.length = n)
      (fun s l t h hstep => (length_workers_step s l t hstep).trans h) s t own hlength hgo
  refine ⟨?_, fun hrest => ?_⟩
  · exact run_length_le step (fun l => l.own = true) Inv potential inv_step
      (fun s l t _ hl hstep => potential_step s l t hl hstep) s t own hinv hown hgo
  · refine done_of_resting hmore (fun hnil => ?_) hrest
    rw [hnil, List.length_nil] at hsame
    omega

/-- A worker that was waiting when a task was put into the queue is notified, runs
    the task and waits again. Then the pool is at rest. -/
theorem pool_finishes_oneTask :
    ∃ s t, run step (start 1) [.worker 0, .worker 0, .worker 0, .enqueue] = some s ∧
      run step s [.notifyOne (some 0), .worker 0, .worker 0, .worker 0, .worker 0, .worker 0,
        .worker 0, .worker 0, .worker 0] = some t ∧
      9 + potential t ≤ potential s ∧ Resting t ∧ Done t := by
  have hfinishes := pool_finishes 1 (by decide) [.worker 0, .worker 0, .worker 0, .enqueue]
    { m_stop := false, tasks := [0], queueMutex := none, workers := [.waiting], enqueued := 1,
      enqueuing := 1, destructor := .notCalled, taken := [], ran := [] } (by decide)
    [.notifyOne (some 0), .worker 0, .worker 0, .worker 0, .worker 0, .worker 0, .worker 0,
      .worker 0, .worker 0] (by decide)
    { m_stop := false, tasks := [], queueMutex := none, workers := [.waiting], enqueued := 1,
      enqueuing := 0, destructor := .notCalled, taken := [0], ran := [0] } (by decide)
  have hrest : Resting
      { m_stop := false, tasks := [], queueMutex := none, workers := [.waiting], enqueued := 1,
        enqueuing := 0, destructor := .notCalled, taken := [0], ran := [0] } := by
    intro l hl
    cases l with
    | worker i =>
        cases i with
        | zero => rfl
        | succ i => rfl
    | notifyOne w => rfl
    | notifyAll => rfl
    | join => rfl
    | enqueue => exact absurd hl Bool.false_ne_true
    | storeStop => exact absurd hl Bool.false_ne_true
    | spurious i => exact absurd hl Bool.false_ne_true
  exact ⟨_, _, by decide, by decide, hfinishes.1, hrest, hfinishes.2 hrest⟩

/-- When the destructor has returned all workers are gone, none of them in the
    middle of a task. What was run is what came before a point in the order of
    the tasks, and what is left in the queue is what came behind it. -/
theorem destructor_drops (n : Nat) (ls : List Label) (s : ThreadPool)
    (hrun : run step (start n) ls = some s) (hreturned : s.destructor = .returned) :
    (∀ pc ∈ s.workers, pc = .ended) ∧
      s.ran.Perm (List.range (s.enqueued - s.tasks.length)) ∧
      s.tasks = List.range' (s.enqueued - s.tasks.length) s.tasks.length := by
  have hinv := inv_run n ls s hrun
  have hended : ∀ pc ∈ s.workers, pc = .ended := by
    intro pc hpc
    rcases List.mem_iff_getElem?.mp hpc with ⟨i, hi⟩
    have hlt := (List.getElem?_eq_some_iff.mp hi).1
    have hjoined := hinv.awake.joined i (by rw [hreturned]; exact hlt)
    exact Option.some.inj (hi.symm.trans hjoined)
  have hheld := hinv.account.held
  rw [flatMap_held s.workers (fun pc hpc => by rw [hended pc hpc]; rfl), List.append_nil] at hheld
  -- The order of the tasks is cut where the queue begins.
  have horder := hinv.account.order
  have hlength := congrArg List.length horder
  rw [List.length_append, List.length_range] at hlength
  have hcut : ∀ a b, List.range (a + b) = List.range a ++ List.range' a b := by
    intro a b
    rw [List.range_eq_range', List.range_eq_range', ← List.range'_append_1, Nat.zero_add]
  have hsum : s.enqueued = s.enqueued - s.tasks.length + s.tasks.length := by omega
  rw [hsum, hcut] at horder
  rcases List.append_inj horder (by rw [List.length_range]; omega) with ⟨htaken, htasks⟩
  exact ⟨hended, htaken ▸ hheld, htasks⟩

/-- The pool is destroyed with a task in its queue. -/
theorem destructor_drops_oneTask :
    ∃ s, run step (start 1) [.enqueue, .notifyOne none, .storeStop, .notifyAll, .worker 0,
        .worker 0, .worker 0, .join, .join] = some s ∧
      (∀ pc ∈ s.workers, pc = .ended) ∧ s.ran.Perm (List.range (s.enqueued - s.tasks.length)) ∧
        s.tasks = List.range' (s.enqueued - s.tasks.length) s.tasks.length := by
  have hrun : run step (start 1) [.enqueue, .notifyOne none, .storeStop, .notifyAll, .worker 0,
      .worker 0, .worker 0, .join, .join] = some
        { m_stop := true, tasks := [0], queueMutex := none, workers := [.ended], enqueued := 1,
          enqueuing := 0, destructor := .returned, taken := [], ran := [] } := by
    decide
  exact ⟨_, hrun, destructor_drops 1 _ _ hrun rfl⟩

end OriginPool

end Defender
