import Mathlib.Algebra.Group.Nat.Defs
import Defender.Lib.Machine
import Defender.Lib.Slots

/-!
# The Timer

`Timer` keeps its tasks in a map ordered by the time when they are due. Any thread may
add a task, and remove one by the number that `add` returned; a worker takes out the
first task when it is due, runs its function without the lock, and puts a repeated task
back under a new number.

Only what is done with the map is under the lock. `add` reads `m_cur_id` for the task
before it takes the lock and reads it again when it returns, incrementing it, and the
worker increments it and puts the task back without the lock. So these are steps of
their own here, an increment being a read and a write. The clock gives any value.

## Main definitions

* `Task`: A task, with the call that it comes from.
* `emplace`, `flag`: What is done with the map.
* `AddCall`, `Worker`, `State`: Where the calls of `add` and the worker are.
* `Event`: What is seen from outside.
* `step`, `Stepped`: One step of a call or of the worker.
* `CancelWorks`: What is asked for.
* `Orderly`: The steps that do not overlap.

## Theorems

* `stepped_of_step`: What a step can do.
-/

namespace Defender

namespace Timer

/-- `Task`. The function is that of a call of `add`, and `first` says that the task was not
    put back yet. -/
structure Task where
  id : Nat
  period : Nat
  repeated : Bool
  removed : Bool
  owner : Nat
  first : Bool
deriving DecidableEq

/-- The map: tasks with the time when they are due, those due first at the front. -/
abbrev Tasks := List (Nat × Task)

/-- `m_tasks.emplace`, behind those that are due at the same time. -/
def emplace (due : Nat) (task : Task) : Tasks → Tasks
  | [] => [(due, task)]
  | (due', task') :: rest =>
      if due' ≤ due then (due', task') :: emplace due task rest
      else (due, task) :: (due', task') :: rest

/-- The first task with a number is flagged, if there is one. -/
def flag (id : Nat) : Tasks → Tasks
  | [] => []
  | (due, task) :: rest =>
      if task.id = id then (due, { task with removed := true }) :: rest
      else (due, task) :: flag id rest

/-- The numbers of the tasks. -/
def ids (m_tasks : Tasks) : List Nat :=
  m_tasks.map (fun e => e.2.id)

/-- Where a call of `add` is: not made, before the task, before the lock, behind it, with the
    number to be incremented, and back. The number is that of its task. -/
inductive AddCall where
  | unborn
  | called (due period : Nat) (repeated : Bool)
  | constructed (due : Nat) (task : Task)
  | emplaced (id : Nat) (repeated : Bool)
  | incrementing (id : Nat) (repeated : Bool) (m_cur_id : Nat)
  | returned (id : Nat)
deriving DecidableEq

/-- Where the worker is: it waits, has taken out a task, runs its function, and gives it a new
    number and puts it back. -/
inductive Worker where
  | waiting
  | taken (now : Nat) (task : Task)
  | running (now : Nat) (task : Task)
  | renewing (now : Nat) (task : Task)
  | renumbering (now : Nat) (task : Task) (m_cur_id : Nat)
  | emplacing (now : Nat) (task : Task)
  | stopped
deriving DecidableEq

/-- What is seen from outside: a call of `add` that returns a number, a call of `remove` and
    its result, and the function of a task being started. -/
inductive Event where
  | returned (owner id : Nat) (repeated : Bool)
  | removed (id : Nat) (result : Bool)
  | started (owner : Nat)
deriving DecidableEq

/-- The timer, with the calls of `add`, the calls whose task was taken out, and the events. -/
structure State where
  m_tasks : Tasks
  m_cur_id : Nat
  m_stop : Bool
  worker : Worker
  calls : Nat → AddCall
  taken : List Nat
  history : List Event

/-- A timer that was just made. -/
def start : State where
  m_tasks := []
  m_cur_id := 0
  m_stop := false
  worker := .waiting
  calls := fun _ => .unborn
  taken := []
  history := []

/-- The steps: those of a call of `add`, which is made when the clock shows `now`; `remove`
    and `stop`; and those of the worker. -/
inductive Label where
  | add (i now period : Nat) (repeated : Bool)
  | construct (i : Nat)
  | emplace (i : Nat)
  | read (i : Nat)
  | increment (i : Nat)
  | remove (id : Nat)
  | stop
  | look (now : Nat)
  | run
  | finish
  | renew
  | renumber
  | putBack
deriving DecidableEq

namespace State

/-- A call of `add` is at another place. -/
def setCall (s : State) (i : Nat) (call : AddCall) : State :=
  { s with calls := Slots.put s.calls i call }

/-- Something is seen. -/
def sees (s : State) (e : Event) : State :=
  { s with history := s.history ++ [e] }

end State

/-- `add`. The number that is returned is the one that is read at the end. -/
def stepAdd (s : State) (i : Nat) : Label → AddCall → Option State
  | .add _ now period repeated, .unborn =>
      some (s.setCall i (.called ((now + period) % 2 ^ 64) period repeated))
  | .construct _, .called due period repeated =>
      some (s.setCall i (.constructed due
        { id := s.m_cur_id, period := period, repeated := repeated, removed := false, owner := i,
          first := true }))
  | .emplace _, .constructed due task =>
      some ({ s with m_tasks := emplace due task s.m_tasks }.setCall i
        (.emplaced task.id task.repeated))
  | .read _, .emplaced id repeated => some (s.setCall i (.incrementing id repeated s.m_cur_id))
  | .increment _, .incrementing id repeated m_cur_id =>
      some (({ s with m_cur_id := (m_cur_id + 1) % 2 ^ 64 }.setCall i (.returned id)).sees
        (.returned i m_cur_id repeated))
  | _, _ => none

/-- The section of the worker under the lock. -/
def look (s : State) (now : Nat) : State :=
  if s.m_stop = true then { s with worker := .stopped }
  else
    match s.m_tasks with
    | [] => s
    | (due, task) :: rest =>
        if due ≤ now then
          { s with
            m_tasks := rest
            worker := .taken now task
            taken := if task.first = true then s.taken ++ [task.owner] else s.taken }
        else s

/-- The worker. -/
def stepWorker (s : State) : Label → Worker → Option State
  | .look now, .waiting => some (look s now)
  | .run, .taken now task =>
      some ({ s with worker := .running now task }.sees (.started task.owner))
  | .finish, .running now task =>
      some { s with
        worker := if task.repeated = true ∧ task.removed = false then .renewing now task
          else .waiting }
  | .renew, .renewing now task => some { s with worker := .renumbering now task s.m_cur_id }
  | .renumber, .renumbering now task m_cur_id =>
      some { s with
        m_cur_id := (m_cur_id + 1) % 2 ^ 64
        worker := .emplacing now { task with id := m_cur_id, removed := false, first := false } }
  | .putBack, .emplacing now task =>
      some { s with
        m_tasks := emplace ((now + task.period) % 2 ^ 64) task s.m_tasks
        worker := .waiting }
  | _, _ => none

/-- A step of the timer. -/
def step (s : State) (l : Label) : Option State :=
  match l with
  | .add i _ _ _ | .construct i | .emplace i | .read i | .increment i => stepAdd s i l (s.calls i)
  | .remove id =>
      some ({ s with m_tasks := flag id s.m_tasks }.sees
        (.removed id (decide (id ∈ ids s.m_tasks))))
  | .stop => some { s with m_stop := true }
  | .look _ | .run | .finish | .renew | .renumber | .putBack => stepWorker s l s.worker

/-- The steps, each with where it is taken. -/
inductive Stepped (s : State) : Label → State → Prop where
  | add (i now period : Nat) (repeated : Bool) (hcall : s.calls i = .unborn) :
      Stepped s (.add i now period repeated)
        (s.setCall i (.called ((now + period) % 2 ^ 64) period repeated))
  | construct (i due period : Nat) (repeated : Bool)
      (hcall : s.calls i = .called due period repeated) :
      Stepped s (.construct i) (s.setCall i (.constructed due
        { id := s.m_cur_id, period := period, repeated := repeated, removed := false, owner := i,
          first := true }))
  | emplace (i due : Nat) (task : Task) (hcall : s.calls i = .constructed due task) :
      Stepped s (.emplace i) ({ s with m_tasks := Timer.emplace due task s.m_tasks }.setCall i
        (.emplaced task.id task.repeated))
  | read (i id : Nat) (repeated : Bool) (hcall : s.calls i = .emplaced id repeated) :
      Stepped s (.read i) (s.setCall i (.incrementing id repeated s.m_cur_id))
  | increment (i id m_cur_id : Nat) (repeated : Bool)
      (hcall : s.calls i = .incrementing id repeated m_cur_id) :
      Stepped s (.increment i)
        (({ s with m_cur_id := (m_cur_id + 1) % 2 ^ 64 }.setCall i (.returned id)).sees
          (.returned i m_cur_id repeated))
  | remove (id : Nat) :
      Stepped s (.remove id) ({ s with m_tasks := flag id s.m_tasks }.sees
        (.removed id (decide (id ∈ ids s.m_tasks))))
  | stop : Stepped s .stop { s with m_stop := true }
  | leave (now : Nat) (hworker : s.worker = .waiting) :
      Stepped s (.look now) { s with worker := .stopped }
  | wait (now : Nat) (hworker : s.worker = .waiting) : Stepped s (.look now) s
  | take (now due : Nat) (task : Task) (rest : Tasks) (hworker : s.worker = .waiting)
      (hstop : s.m_stop = false) (htasks : s.m_tasks = (due, task) :: rest) (hdue : due ≤ now) :
      Stepped s (.look now)
        { s with
          m_tasks := rest
          worker := .taken now task
          taken := if task.first = true then s.taken ++ [task.owner] else s.taken }
  | run (now : Nat) (task : Task) (hworker : s.worker = .taken now task) :
      Stepped s .run ({ s with worker := .running now task }.sees (.started task.owner))
  | finish (now : Nat) (task : Task) (hworker : s.worker = .running now task) :
      Stepped s .finish { s with
        worker := if task.repeated = true ∧ task.removed = false then .renewing now task
          else .waiting }
  | renew (now : Nat) (task : Task) (hworker : s.worker = .renewing now task) :
      Stepped s .renew { s with worker := .renumbering now task s.m_cur_id }
  | renumber (now m_cur_id : Nat) (task : Task)
      (hworker : s.worker = .renumbering now task m_cur_id) :
      Stepped s .renumber { s with
        m_cur_id := (m_cur_id + 1) % 2 ^ 64
        worker := .emplacing now { task with id := m_cur_id, removed := false, first := false } }
  | putBack (now : Nat) (task : Task) (hworker : s.worker = .emplacing now task) :
      Stepped s .putBack { s with
        m_tasks := Timer.emplace ((now + task.period) % 2 ^ 64) task s.m_tasks
        worker := .waiting }

theorem stepped_look {s : State} {now : Nat} (hworker : s.worker = .waiting) :
    Stepped s (.look now) (look s now) := by
  unfold look
  by_cases hstop : s.m_stop = true
  · rw [if_pos hstop]
    exact .leave now hworker
  rw [if_neg hstop]
  split
  case h_1 => exact .wait now hworker
  case h_2 due task rest htasks =>
    by_cases hdue : due ≤ now
    · rw [if_pos hdue]
      exact .take now due task rest hworker (Bool.eq_false_iff.mpr hstop) htasks hdue
    · rw [if_neg hdue]
      exact .wait now hworker

theorem stepped_of_step {s t : State} {l : Label} (h : step s l = some t) : Stepped s l t := by
  unfold step at h
  -- A label of a call is possible in one state of the call, and one of the worker likewise.
  cases l with
  | remove id => exact Option.some.inj h ▸ .remove id
  | stop => exact Option.some.inj h ▸ .stop
  | add i now period repeated =>
      cases hcall : s.calls i <;> simp only [hcall, stepAdd, reduceCtorEq, Option.some.injEq] at h
      exact h ▸ .add i now period repeated hcall
  | construct i =>
      cases hcall : s.calls i <;> simp only [hcall, stepAdd, reduceCtorEq, Option.some.injEq] at h
      exact h ▸ .construct i _ _ _ hcall
  | emplace i =>
      cases hcall : s.calls i <;> simp only [hcall, stepAdd, reduceCtorEq, Option.some.injEq] at h
      exact h ▸ .emplace i _ _ hcall
  | read i =>
      cases hcall : s.calls i <;> simp only [hcall, stepAdd, reduceCtorEq, Option.some.injEq] at h
      exact h ▸ .read i _ _ hcall
  | increment i =>
      cases hcall : s.calls i <;> simp only [hcall, stepAdd, reduceCtorEq, Option.some.injEq] at h
      exact h ▸ .increment i _ _ _ hcall
  | look now =>
      cases hworker : s.worker <;>
        simp only [hworker, stepWorker, reduceCtorEq, Option.some.injEq] at h
      exact h ▸ stepped_look hworker
  | run =>
      cases hworker : s.worker <;>
        simp only [hworker, stepWorker, reduceCtorEq, Option.some.injEq] at h
      exact h ▸ .run _ _ hworker
  | finish =>
      cases hworker : s.worker <;>
        simp only [hworker, stepWorker, reduceCtorEq, Option.some.injEq] at h
      exact h ▸ .finish _ _ hworker
  | renew =>
      cases hworker : s.worker <;>
        simp only [hworker, stepWorker, reduceCtorEq, Option.some.injEq] at h
      exact h ▸ .renew _ _ hworker
  | renumber =>
      cases hworker : s.worker <;>
        simp only [hworker, stepWorker, reduceCtorEq, Option.some.injEq] at h
      exact h ▸ .renumber _ _ _ hworker
  | putBack =>
      cases hworker : s.worker <;>
        simp only [hworker, stepWorker, reduceCtorEq, Option.some.injEq] at h
      exact h ▸ .putBack _ _ hworker

/-! ### What is asked for -/

/-- After a call of `remove` has returned `true` the function of the task with this number is
    not started. -/
def NeverAgain (history : List Event) : Prop :=
  ∀ before after owner id repeated, history = before ++ .started owner :: after →
    .returned owner id repeated ∈ history → .removed id true ∉ before

/-- A call of `remove` that returns `false` does not name a task that is still to be started:
    it was removed, or it is not repeated and was started. -/
def Found (history : List Event) : Prop :=
  ∀ before after owner id repeated, history = before ++ .removed id false :: after →
    .returned owner id repeated ∈ before →
      .removed id true ∈ before ∨ repeated = false ∧ .started owner ∈ before

/-- Cancellation works. -/
structure CancelWorks (s : State) : Prop where
  neverAgain : NeverAgain s.history
  found : Found s.history

/-! ### Steps that do not overlap -/

/-- A call of `add` that has a number and has not incremented it yet. -/
def AddCall.InProgress : AddCall → Prop
  | .constructed _ _ | .emplaced _ _ | .incrementing _ _ _ => True
  | _ => False

/-- Nobody has read `m_cur_id` and is still to increment it, and the increment will not wrap. -/
structure Quiet (s : State) : Prop where
  calls : ∀ i, ¬ (s.calls i).InProgress
  worker : ∀ now task m_cur_id, s.worker ≠ .renumbering now task m_cur_id
  fits : s.m_cur_id + 1 < 2 ^ 64

/-- The steps for which cancellation works: `m_cur_id` is read by one at a time, no call of
    `remove` names a task that was taken out and is still to be started, and the worker takes
    out no task that was flagged before it was started. -/
def Orderly (s : State) : Label → Prop
  | .construct _ | .renew => Quiet s
  | .remove id => ∀ owner repeated, .returned owner id repeated ∈ s.history → owner ∈ s.taken →
      repeated = false ∧ .started owner ∈ s.history
  | .look now => s.m_stop = false → ∀ due task rest, s.m_tasks = (due, task) :: rest → due ≤ now →
      task.first = true → task.removed = false
  | _ => True

end Timer

end Defender
