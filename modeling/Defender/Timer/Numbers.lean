import Mathlib.Data.List.Perm.Basic
import Defender.Timer.Timer

/-!
# The Numbers of the Tasks

What is done with the map, and the numbers that the calls of `add` and the worker give
to tasks. When `m_cur_id` is read by one at a time until it was incremented, the number
of a call that is in progress is the next one, and all that were given out before are
below it (`numbered_step`).

## Main definitions

* `Life`, `lives`: What a task in the map is known by.
* `Flagged`: A task with a number has the flag.
* `AddCall.number`, `AddCall.Emplaced`: The number of a call, and that it was in the map.
* `Issued`: Numbers that were given out.
* `Moves`: A call that moves on with the same number.
* `Numbered`: What is known of the numbers.

## Theorems

* `perm_emplace`, `lives_emplace`, `lives_flag`: What is done with the map.
* `flagged_flag_of_mem`, `flagged_flag_of_flagged`, `flagged_emplace`: Flags are set and
  stay.
* `numbered_step`: What the steps keep.
-/

namespace Defender

namespace Timer

/-! ### The map -/

/-- A task by its number, the call that it comes from, and whether it was put back. -/
structure Life where
  id : Nat
  owner : Nat
  first : Bool
deriving DecidableEq

def Task.life (t : Task) : Life where
  id := t.id
  owner := t.owner
  first := t.first

def lives (m_tasks : Tasks) : List Life :=
  m_tasks.map (fun e => e.2.life)

theorem ids_eq_map_lives (m_tasks : Tasks) : ids m_tasks = (lives m_tasks).map Life.id := by
  rw [ids, lives, List.map_map]
  rfl

theorem mem_ids_of_mem_lives {m_tasks : Tasks} {t : Life} (h : t ∈ lives m_tasks) :
    t.id ∈ ids m_tasks := by
  rw [ids_eq_map_lives]
  exact List.mem_map_of_mem h

theorem perm_emplace (due : Nat) (task : Task) (m_tasks : Tasks) :
    (emplace due task m_tasks).Perm ((due, task) :: m_tasks) := by
  induction m_tasks with
  | nil => exact List.Perm.refl _
  | cons e rest ih =>
      rw [emplace]
      by_cases hle : e.1 ≤ due
      · rw [if_pos hle]
        exact (ih.cons e).trans (List.Perm.swap _ _ rest)
      · rw [if_neg hle]

theorem lives_emplace (due : Nat) (task : Task) (m_tasks : Tasks) (t : Life) :
    t ∈ lives (emplace due task m_tasks) ↔ t = task.life ∨ t ∈ lives m_tasks := by
  rw [lives, ((perm_emplace due task m_tasks).map _).mem_iff, List.map_cons, List.mem_cons]
  exact Iff.rfl

theorem ids_emplace (due : Nat) (task : Task) (m_tasks : Tasks) :
    (ids (emplace due task m_tasks)).Perm (task.id :: ids m_tasks) :=
  (perm_emplace due task m_tasks).map _

/-- The flag does not change what a task is known by. -/
theorem lives_flag (id : Nat) (m_tasks : Tasks) : lives (flag id m_tasks) = lives m_tasks := by
  induction m_tasks with
  | nil => rfl
  | cons e rest ih =>
      rw [flag]
      by_cases hid : e.2.id = id
      · rw [if_pos hid]
        rfl
      · rw [if_neg hid]
        exact congrArg (List.cons _) ih

/-- A task with this number has the flag. -/
def Flagged (m_tasks : Tasks) (id : Nat) : Prop :=
  ∃ e ∈ m_tasks, e.2.id = id ∧ e.2.removed = true

theorem flagged_flag_of_mem {id : Nat} {m_tasks : Tasks} (h : id ∈ ids m_tasks) :
    Flagged (flag id m_tasks) id := by
  induction m_tasks with
  | nil => exact absurd h List.not_mem_nil
  | cons e rest ih =>
      rw [flag]
      by_cases hid : e.2.id = id
      · rw [if_pos hid]
        exact ⟨_, List.mem_cons_self, hid, rfl⟩
      · rw [if_neg hid]
        rcases List.mem_cons.mp h with heq | hrest
        · exact absurd heq.symm hid
        · rcases ih hrest with ⟨e', he', hflag⟩
          exact ⟨e', List.mem_cons_of_mem _ he', hflag⟩

theorem flagged_flag_of_flagged {id id' : Nat} {m_tasks : Tasks} (h : Flagged m_tasks id') :
    Flagged (flag id m_tasks) id' := by
  induction m_tasks with
  | nil => exact h
  | cons e rest ih =>
      rcases h with ⟨e', he', hid', hremoved⟩
      rw [flag]
      by_cases hid : e.2.id = id
      · rw [if_pos hid]
        rcases List.mem_cons.mp he' with rfl | hrest
        · exact ⟨_, List.mem_cons_self, hid', rfl⟩
        · exact ⟨e', List.mem_cons_of_mem _ hrest, hid', hremoved⟩
      · rw [if_neg hid]
        rcases List.mem_cons.mp he' with rfl | hrest
        · exact ⟨_, List.mem_cons_self, hid', hremoved⟩
        · rcases ih ⟨e', hrest, hid', hremoved⟩ with ⟨e'', he'', hflag⟩
          exact ⟨e'', List.mem_cons_of_mem _ he'', hflag⟩

theorem flagged_emplace {id due : Nat} {task : Task} {m_tasks : Tasks} (h : Flagged m_tasks id) :
    Flagged (emplace due task m_tasks) id := by
  rcases h with ⟨e, he, hflag⟩
  exact ⟨e, (perm_emplace due task m_tasks).mem_iff.mpr (List.mem_cons_of_mem _ he), hflag⟩

/-! ### Calls -/

/-- The number of the task. -/
def AddCall.number : AddCall → Option Nat
  | .constructed _ task => some task.id
  | .emplaced id _ | .incrementing id _ _ | .returned id => some id
  | _ => none

/-- The task was put into the map. -/
def AddCall.Emplaced : AddCall → Prop
  | .emplaced _ _ | .incrementing _ _ _ | .returned _ => True
  | _ => False

variable {s t : State}

theorem setCall_self (s : State) (i : Nat) (call : AddCall) : (s.setCall i call).calls i = call :=
  Slots.put_self s.calls i call

theorem setCall_of_ne (s : State) {i j : Nat} (call : AddCall) (h : j ≠ i) :
    (s.setCall i call).calls j = s.calls j :=
  Slots.put_of_ne s.calls call h

/-- A call is the one that was put there, or as it was. -/
theorem setCall_cases {s : State} {i j : Nat} {call call' : AddCall}
    (h : (s.setCall i call).calls j = call') :
    (j = i ∧ call = call') ∨ (j ≠ i ∧ s.calls j = call') :=
  Slots.eq_of_put h

/-- A function of the calls that is the same for the new one. -/
theorem setCall_congr {β : Type} (f : AddCall → β) {i : Nat} {call : AddCall}
    (h : f call = f (s.calls i)) (j : Nat) : f ((s.setCall i call).calls j) = f (s.calls j) :=
  Slots.put_congr f h j

/-- A number was given out: it is below the next one, or it is the next one and belongs to a
    call that is still to increment it. -/
def Issued (s : State) (id : Nat) : Prop :=
  id < s.m_cur_id ∨ ∃ i, (s.calls i).InProgress ∧ (s.calls i).number = some id

/-! ### Numbers -/

/-- What is known of the numbers: one call at most is in progress, its number is the next one,
    the others have numbers below it, and no two of them the same. -/
structure Numbered (s : State) : Prop where
  alone : ∀ i j, (s.calls i).InProgress → (s.calls j).InProgress → i = j
  current : ∀ i, (s.calls i).InProgress →
    (s.calls i).number = some s.m_cur_id ∧ s.m_cur_id + 1 < 2 ^ 64
  read : ∀ i id repeated m_cur_id, s.calls i = .incrementing id repeated m_cur_id →
    m_cur_id = s.m_cur_id
  below : ∀ i id, ¬ (s.calls i).InProgress → (s.calls i).number = some id → id < s.m_cur_id
  distinct : ∀ i j id, (s.calls i).number = some id → (s.calls j).number = some id → i = j
  worker : ∀ now task m_cur_id, s.worker = .renumbering now task m_cur_id →
    m_cur_id = s.m_cur_id ∧ s.m_cur_id + 1 < 2 ^ 64 ∧ ∀ i, ¬ (s.calls i).InProgress

theorem Numbered.le_of_issued (h : Numbered s) {id : Nat} (hid : Issued s id) :
    id ≤ s.m_cur_id := by
  rcases hid with hlt | ⟨i, hprogress, hnumber⟩
  · exact Nat.le_of_lt hlt
  · rw [(h.current i hprogress).1, Option.some_inj] at hnumber
    exact Nat.le_of_eq hnumber.symm

/-- Without a call in progress the numbers that were given out are below. -/
theorem lt_of_issued (hquiet : ∀ i, ¬ (s.calls i).InProgress) {id : Nat} (hid : Issued s id) :
    id < s.m_cur_id := by
  rcases hid with hlt | ⟨i, hprogress, -⟩
  · exact hlt
  · exact absurd hprogress (hquiet i)

/-- Calls and worker may move on, as long as numbers and progress stay. -/
theorem Numbered.congr (h : Numbered s) (hcur : t.m_cur_id = s.m_cur_id)
    (hprogress : ∀ i, (t.calls i).InProgress ↔ (s.calls i).InProgress)
    (hnumber : ∀ i, (t.calls i).number = (s.calls i).number)
    (hread : ∀ i id repeated m_cur_id, t.calls i = .incrementing id repeated m_cur_id →
      s.calls i = .incrementing id repeated m_cur_id ∨ m_cur_id = s.m_cur_id)
    (hworker : ∀ now task m_cur_id, t.worker = .renumbering now task m_cur_id →
      s.worker = .renumbering now task m_cur_id) : Numbered t := by
  refine ⟨?_, ?_, ?_, ?_, ?_, ?_⟩
  · intro i j hi hj
    exact h.alone i j ((hprogress i).mp hi) ((hprogress j).mp hj)
  · intro i hi
    rw [hnumber, hcur]
    exact h.current i ((hprogress i).mp hi)
  · intro i id repeated m_cur_id hcall
    rw [hcur]
    rcases hread i id repeated m_cur_id hcall with hsame | heq
    · exact h.read i id repeated m_cur_id hsame
    · exact heq
  · intro i id hi hid
    rw [hcur]
    exact h.below i id (fun hp => hi ((hprogress i).mpr hp)) (hnumber i ▸ hid)
  · intro i j id hi hj
    exact h.distinct i j id (hnumber i ▸ hi) (hnumber j ▸ hj)
  · intro now task m_cur_id hw
    rcases h.worker now task m_cur_id (hworker now task m_cur_id hw) with ⟨heq, hfits, hquiet⟩
    rw [hcur]
    exact ⟨heq, hfits, fun i hi => hquiet i ((hprogress i).mp hi)⟩

/-- A call that moves on with the same number. -/
structure Moves (a b : AddCall) : Prop where
  number : b.number = a.number
  progress : b.InProgress = a.InProgress

theorem moves_called {call : AddCall} (h : call = .unborn) (due period : Nat) (repeated : Bool) :
    Moves call (.called due period repeated) := by
  rw [h]
  exact ⟨rfl, rfl⟩

theorem moves_emplaced {call : AddCall} {due : Nat} {task : Task}
    (h : call = .constructed due task) : Moves call (.emplaced task.id task.repeated) := by
  rw [h]
  exact ⟨rfl, rfl⟩

theorem moves_incrementing {call : AddCall} {id : Nat} {repeated : Bool}
    (h : call = .emplaced id repeated) (m_cur_id : Nat) :
    Moves call (.incrementing id repeated m_cur_id) := by
  rw [h]
  exact ⟨rfl, rfl⟩

theorem Moves.number_setCall {i : Nat} {call : AddCall} (h : Moves (s.calls i) call) (j : Nat) :
    ((s.setCall i call).calls j).number = (s.calls j).number :=
  setCall_congr AddCall.number h.number j

theorem Moves.progress_setCall {i : Nat} {call : AddCall} (h : Moves (s.calls i) call) (j : Nat) :
    ((s.setCall i call).calls j).InProgress = (s.calls j).InProgress :=
  setCall_congr AddCall.InProgress h.progress j

/-- A call that moves on, perhaps by a read, keeps the numbers. -/
theorem Numbered.setCall (h : Numbered s) {i : Nat} {call : AddCall} (hm : Moves (s.calls i) call)
    (hread : ∀ id repeated m_cur_id, call = .incrementing id repeated m_cur_id →
      m_cur_id = s.m_cur_id) : Numbered (s.setCall i call) := by
  refine h.congr rfl (fun j => iff_of_eq (hm.progress_setCall j)) hm.number_setCall ?_
    (fun now task m_cur_id hw => hw)
  intro j id repeated m_cur_id hcall
  rcases setCall_cases hcall with ⟨-, hcall'⟩ | ⟨-, hold⟩
  · exact Or.inr (hread id repeated m_cur_id hcall')
  · exact Or.inl hold

/-- The number of a task that is made is the next one. -/
theorem Numbered.construct (h : Numbered s) (hq : Quiet s) (i : Nat) {due : Nat} {task : Task}
    (hid : task.id = s.m_cur_id) : Numbered (s.setCall i (.constructed due task)) := by
  -- No other call is in progress, and what the others have is below the current number.
  have honly : ∀ j, ((s.setCall i (.constructed due task)).calls j).InProgress → j = i := by
    intro j hj
    by_contra hne
    rw [setCall_of_ne s _ hne] at hj
    exact hq.calls j hj
  have hbelow : ∀ j id, j ≠ i →
      ((s.setCall i (.constructed due task)).calls j).number = some id → id < s.m_cur_id := by
    intro j id hne hid'
    rw [setCall_of_ne s _ hne] at hid'
    exact h.below j id (hq.calls j) hid'
  have hself : ((s.setCall i (.constructed due task)).calls i).number = some s.m_cur_id := by
    rw [setCall_self, ← hid]
    rfl
  refine ⟨?_, ?_, ?_, ?_, ?_, ?_⟩
  · intro j k hj hk
    exact (honly j hj).trans (honly k hk).symm
  · intro j hj
    rw [honly j hj]
    exact ⟨hself, hq.fits⟩
  · intro j id repeated m_cur_id hcall
    rcases setCall_cases hcall with ⟨-, hcall'⟩ | ⟨-, hold⟩
    · exact absurd hcall' (by simp only [reduceCtorEq, not_false_eq_true])
    · exact h.read j id repeated m_cur_id hold
  · intro j id hj hid'
    refine hbelow j id (fun heq => hj ?_) hid'
    rw [heq, setCall_self]
    trivial
  · intro j k id hj hk
    by_cases hji : j = i <;> by_cases hki : k = i
    · exact hji.trans hki.symm
    · rw [hji, hself, Option.some_inj] at hj
      exact absurd (hbelow k id hki hk) (by rw [← hj]; exact Nat.lt_irrefl _)
    · rw [hki, hself, Option.some_inj] at hk
      exact absurd (hbelow j id hji hj) (by rw [← hk]; exact Nat.lt_irrefl _)
    · rw [setCall_of_ne s _ hji] at hj
      rw [setCall_of_ne s _ hki] at hk
      exact h.distinct j k id hj hk
  · intro now task' m_cur_id hw
    exact absurd hw (hq.worker now task' m_cur_id)

/-- The next number, when nobody is to increment it. -/
theorem Numbered.increase (h : Numbered s) (hquiet : ∀ i, ¬ (t.calls i).InProgress)
    (hcur : t.m_cur_id = s.m_cur_id + 1)
    (hnumber : ∀ i, (t.calls i).number = (s.calls i).number)
    (hworker : ∀ now task m_cur_id, t.worker ≠ .renumbering now task m_cur_id) : Numbered t := by
  refine ⟨?_, ?_, ?_, ?_, ?_, ?_⟩
  · intro i j hi
    exact absurd hi (hquiet i)
  · intro i hi
    exact absurd hi (hquiet i)
  · intro i id repeated m_cur_id hcall
    refine absurd ?_ (hquiet i)
    rw [hcall]
    trivial
  · intro i id _ hid
    rw [hnumber] at hid
    rw [hcur]
    exact Nat.lt_succ_of_le (h.le_of_issued (by
      by_cases hprogress : (s.calls i).InProgress
      · exact Or.inr ⟨i, hprogress, hid⟩
      · exact Or.inl (h.below i id hprogress hid)))
  · intro i j id hi hj
    exact h.distinct i j id (hnumber i ▸ hi) (hnumber j ▸ hj)
  · intro now task m_cur_id hw
    exact absurd hw (hworker now task m_cur_id)

/-- Steps of the worker that have nothing to do with the numbers. -/
theorem Numbered.setWorker (h : Numbered s) (hcur : t.m_cur_id = s.m_cur_id)
    (hcalls : t.calls = s.calls)
    (hworker : ∀ now task m_cur_id, t.worker = .renumbering now task m_cur_id →
      s.worker = .renumbering now task m_cur_id) : Numbered t := by
  refine h.congr hcur (fun i => by rw [hcalls]) (fun i => by rw [hcalls]) (fun i _ _ _ hcall => ?_)
    hworker
  rw [hcalls] at hcall
  exact Or.inl hcall

/-- While a call is to increment the number, no other one is, nor the worker. -/
theorem Numbered.quiet_of_incrementing (h : Numbered s) {i id m_cur_id : Nat} {repeated : Bool}
    (hcall : s.calls i = .incrementing id repeated m_cur_id) :
    id = s.m_cur_id ∧ m_cur_id = s.m_cur_id ∧ (m_cur_id + 1) % 2 ^ 64 = s.m_cur_id + 1 ∧
      (∀ j, ¬ ((s.setCall i (.returned id)).calls j).InProgress) ∧
      ∀ now task m_cur_id', s.worker ≠ .renumbering now task m_cur_id' := by
  have hprogress : (s.calls i).InProgress := by
    rw [hcall]
    trivial
  rcases h.current i hprogress with ⟨hnumber, hfits⟩
  have hread := h.read i id repeated m_cur_id hcall
  refine ⟨?_, hread, ?_, ?_, ?_⟩
  · rw [hcall] at hnumber
    exact Option.some_inj.mp hnumber
  · rw [hread]
    exact Nat.mod_eq_of_lt hfits
  · intro j hj
    by_cases hji : j = i
    · rw [hji, setCall_self] at hj
      exact hj
    · rw [setCall_of_ne s _ hji] at hj
      exact hji (h.alone j i hj hprogress)
  · intro now task m_cur_id' hw
    exact (h.worker now task m_cur_id' hw).2.2 i hprogress

section

variable {i id m_cur_id : Nat} {repeated : Bool}
  (hcall : s.calls i = .incrementing id repeated m_cur_id)
include hcall

/-- A call that returns keeps its number. -/
theorem number_returned (j : Nat) :
    ((s.setCall i (.returned id)).calls j).number = (s.calls j).number := by
  refine setCall_congr AddCall.number ?_ j
  rw [hcall]
  rfl

/-- And its task stays put in. -/
theorem emplaced_returned (j : Nat) :
    ((s.setCall i (.returned id)).calls j).Emplaced = (s.calls j).Emplaced := by
  refine setCall_congr AddCall.Emplaced ?_ j
  rw [hcall]
  rfl

end

/-- A number that was given out is below the next one, once that is incremented. -/
theorem Numbered.lt_next (h : Numbered s) {id next : Nat} (hid : Issued s id)
    (hnext : next = s.m_cur_id + 1) : id < next :=
  Nat.lt_of_lt_of_eq (Nat.lt_succ_of_le (h.le_of_issued hid)) hnext.symm

theorem numbered_step (h : Numbered s) {l : Label} (ho : Orderly s l) (hst : Stepped s l t) :
    Numbered t := by
  -- The counter moves in two kinds of steps, both with nobody else between read and write.
  cases hst with
  | add i now period repeated hcall =>
      exact h.setCall (moves_called hcall _ _ _) (fun _ _ _ hc => absurd hc (by
        simp only [reduceCtorEq, not_false_eq_true]))
  | construct i due period repeated hcall => exact h.construct ho i rfl
  | emplace i due task hcall =>
      exact (h.setCall (moves_emplaced hcall) (fun _ _ _ hc => absurd hc (by
        simp only [reduceCtorEq, not_false_eq_true]))).setWorker rfl rfl (fun _ _ _ hw => hw)
  | read i id repeated hcall =>
      refine h.setCall (moves_incrementing hcall s.m_cur_id) (fun id' repeated' m_cur_id hc => ?_)
      rw [AddCall.incrementing.injEq] at hc
      exact hc.2.2.symm
  | increment i id m_cur_id repeated hcall =>
      rcases h.quiet_of_incrementing hcall with ⟨-, -, hcur, hquiet, hworker⟩
      exact h.increase hquiet hcur (number_returned hcall) hworker
  | remove id => exact h.setWorker rfl rfl (fun _ _ _ hw => hw)
  | stop => exact h.setWorker rfl rfl (fun _ _ _ hw => hw)
  | leave now hworker =>
      exact h.setWorker rfl rfl (fun _ _ _ hw => absurd hw (by
        simp only [reduceCtorEq, not_false_eq_true]))
  | wait now hworker => exact h
  | take now due task rest hworker hstop htasks hdue =>
      exact h.setWorker rfl rfl (fun _ _ _ hw => absurd hw (by
        simp only [reduceCtorEq, not_false_eq_true]))
  | run now task hworker =>
      exact h.setWorker rfl rfl (fun _ _ _ hw => absurd hw (by
        simp only [State.sees, reduceCtorEq, not_false_eq_true]))
  | finish now task hworker =>
      refine h.setWorker rfl rfl (fun _ _ _ hw => absurd hw ?_)
      simp only
      split <;> simp only [reduceCtorEq, not_false_eq_true]
  | renew now task hworker =>
      refine ⟨h.alone, h.current, h.read, h.below, h.distinct, ?_⟩
      intro now' task' m_cur_id hw
      rw [Worker.renumbering.injEq] at hw
      exact ⟨hw.2.2.symm, ho.fits, ho.calls⟩
  | renumber now m_cur_id task hworker =>
      rcases h.worker now task m_cur_id hworker with ⟨hread, hfits, hquiet⟩
      refine h.increase hquiet ?_ (fun _ => rfl) (fun _ _ _ => by
        simp only [ne_eq, reduceCtorEq, not_false_eq_true])
      rw [← hread] at hfits ⊢
      exact Nat.mod_eq_of_lt hfits
  | putBack now task hworker =>
      exact h.setWorker rfl rfl (fun _ _ _ hw => absurd hw (by
        simp only [reduceCtorEq, not_false_eq_true]))

end Timer

end Defender
