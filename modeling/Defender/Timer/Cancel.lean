import Mathlib.Data.List.Nodup
import Defender.Timer.Numbers

/-!
# Removing Tasks

When the steps do not overlap, a task that was added is in the map with the number of its
call until the worker takes it out (`Mapped`), and what was removed stays in the map with
its flag (`Told`). From these follows what is asked for, in every state of a run
(`remove_works`).

A task that was removed is started nevertheless when it comes to the front of the map
(`remove_not_heeded`), which is one of the ways in which the steps can overlap.

## Main definitions

* `Entry`, `Free`, `Held`, `Mapped`: What is known of the map.
* `Told`: What is known of the events.
* `Kept`: What the steps keep.
* `addSteps`, `State.added`: A call of `add` that is not interleaved.

## Theorems

* `Mapped.construct`, `Mapped.emplace`, `Mapped.take`, `Mapped.putBack`: The steps that
  have to do with the map.
* `mapped_step`, `told_step`, `found_step`: What the steps keep.
* `neverAgain_of_told`: What was removed is not started.
* `remove_works`: Cancellation works when the steps do not overlap.
* `remove_not_heeded`: And when they do it does not.
-/

namespace Defender

namespace Timer

variable {s t : State}

/-! ### The map -/

/-- What is known of a task in the map: it was not taken out yet and has the number of its
    call, or it was, and has a number that no call has. -/
structure Entry (s : State) (life : Life) : Prop where
  issued : Issued s life.id
  first : life.first = true → (s.calls life.owner).number = some life.id ∧
    (s.calls life.owner).Emplaced ∧ life.owner ∉ s.taken
  again : life.first = false → life.owner ∈ s.taken ∧ ∀ i, (s.calls i).number ≠ some life.id

/-- A number that nothing has. -/
structure Free (s : State) (id : Nat) : Prop where
  below : id < s.m_cur_id
  notMem : id ∉ ids s.m_tasks
  noCall : ∀ i, (s.calls i).number ≠ some id

/-- What is known of the task that the worker has. -/
def Held (s : State) : Worker → Prop
  | .taken _ task | .running _ task | .renewing _ task | .renumbering _ task _ =>
      task.owner ∈ s.taken
  | .emplacing _ task => task.owner ∈ s.taken ∧ task.first = false ∧ Free s task.id
  | _ => True

/-- What is known of the map: a task that was put into it is there until it is taken out. -/
structure Mapped (s : State) : Prop where
  nodup : (ids s.m_tasks).Nodup
  entries : ∀ life ∈ lives s.m_tasks, Entry s life
  present : ∀ i, (s.calls i).Emplaced → i ∈ s.taken ∨
    ∃ life ∈ lives s.m_tasks, life.first = true ∧ life.owner = i
  emplaced : ∀ i ∈ s.taken, (s.calls i).Emplaced
  constructed : ∀ i due task, s.calls i = .constructed due task →
    task.owner = i ∧ task.first = true ∧ task.id ∉ ids s.m_tasks
  held : Held s s.worker

/-- The worker keeps its task as long as it was taken out and its new number stays free. -/
theorem Held.mono {w : Worker} (h : Held s w) (htaken : ∀ i ∈ s.taken, i ∈ t.taken)
    (hfree : ∀ id, Free s id → Free t id) : Held t w := by
  unfold Held at *
  split at h
  case h_1 => exact htaken _ h
  case h_2 => exact htaken _ h
  case h_3 => exact htaken _ h
  case h_4 => exact htaken _ h
  case h_5 => exact ⟨htaken _ h.1, h.2.1, hfree _ h.2.2⟩
  case h_6 => trivial

/-- Steps that leave the map as it is, and what is known of the calls. -/
theorem Mapped.congr (h : Mapped s) (hissued : ∀ id, Issued s id → Issued t id)
    (hnumber : ∀ i, (t.calls i).number = (s.calls i).number)
    (hemplaced : ∀ i, (t.calls i).Emplaced = (s.calls i).Emplaced)
    (hconstructed : ∀ i due task, t.calls i = .constructed due task →
      s.calls i = .constructed due task)
    (hlives : lives t.m_tasks = lives s.m_tasks) (htaken : t.taken = s.taken)
    (hheld : Held t t.worker) : Mapped t := by
  have hids : ids t.m_tasks = ids s.m_tasks := by
    rw [ids_eq_map_lives, ids_eq_map_lives, hlives]
  refine ⟨hids ▸ h.nodup, ?_, ?_, ?_, ?_, hheld⟩
  · intro life hlife
    rw [hlives] at hlife
    have hentry := h.entries life hlife
    refine ⟨hissued _ hentry.issued, fun hfirst => ?_, fun hagain => ?_⟩
    · rw [hnumber, hemplaced, htaken]
      exact hentry.first hfirst
    · simp only [hnumber, htaken]
      exact hentry.again hagain
  · intro i hi
    rw [htaken, hlives]
    exact h.present i (hemplaced i ▸ hi)
  · intro i hi
    rw [hemplaced]
    exact h.emplaced i (htaken ▸ hi)
  · intro i due task hcall
    rw [hids]
    exact h.constructed i due task (hconstructed i due task hcall)

/-- Steps of the worker that leave the map as it is. -/
theorem Mapped.setWorker (h : Mapped s) (worker : Worker) (m_stop : Bool) (history : List Event)
    (hheld : Held s worker) :
    Mapped { s with worker := worker, m_stop := m_stop, history := history } :=
  h.congr (fun _ hid => hid) (fun _ => rfl) (fun _ => rfl) (fun _ _ _ hc => hc) rfl rfl
    (hheld.mono (fun _ hi => hi) (fun _ hfree => ⟨hfree.below, hfree.notMem, hfree.noCall⟩))

theorem Moves.issued_setCall {i : Nat} {call : AddCall} (h : Moves (s.calls i) call) {id : Nat}
    (hid : Issued s id) : Issued (s.setCall i call) id := by
  rcases hid with hlt | ⟨j, hprogress, hnumber⟩
  · exact Or.inl hlt
  · exact Or.inr ⟨j, h.progress_setCall j ▸ hprogress, h.number_setCall j ▸ hnumber⟩

/-- A call that moves on and makes no task. -/
theorem Mapped.setCall (h : Mapped s) {i : Nat} {call : AddCall} (hm : Moves (s.calls i) call)
    (hemplaced : call.Emplaced = (s.calls i).Emplaced)
    (hnot : ∀ due task, call ≠ .constructed due task) : Mapped (s.setCall i call) := by
  refine h.congr (fun _ hid => hm.issued_setCall hid) hm.number_setCall
    (setCall_congr AddCall.Emplaced hemplaced) ?_ rfl rfl
    (h.held.mono (fun _ hi => hi) (fun _ hfree =>
      ⟨hfree.below, hfree.notMem, fun j => hm.number_setCall j ▸ hfree.noCall j⟩))
  intro j due task hcall
  rcases setCall_cases hcall with ⟨-, hcall'⟩ | ⟨-, hold⟩
  · exact absurd hcall' (hnot due task)
  · exact hold

/-- A task that is made has a number that none in the map has. -/
theorem Mapped.construct (h : Mapped s) (hq : Quiet s) {i due : Nat} {task : Task}
    (hnot : ¬ (s.calls i).Emplaced) (hid : task.id = s.m_cur_id) (howner : task.owner = i)
    (hfirst : task.first = true) :
    Mapped (s.setCall i (.constructed due task)) := by
  have hne : ∀ {j}, (s.calls j).Emplaced → j ≠ i := fun hj heq => hnot (heq ▸ hj)
  -- All numbers in the map were issued before, and are below the current one.
  have hlt : ∀ id ∈ ids s.m_tasks, id < s.m_cur_id := by
    intro id hmem
    rw [ids_eq_map_lives] at hmem
    rcases List.mem_map.mp hmem with ⟨life, hlife, rfl⟩
    exact lt_of_issued hq.calls (h.entries life hlife).issued
  have hnumber : ∀ j id, id < s.m_cur_id → (s.calls j).number ≠ some id →
      ((s.setCall i (.constructed due task)).calls j).number ≠ some id := by
    intro j id hbelow hother
    by_cases hj : j = i
    · rw [hj, setCall_self]
      intro heq
      exact absurd hbelow (by rw [← Option.some_inj.mp heq, hid]; exact Nat.lt_irrefl _)
    · rw [setCall_of_ne s _ hj]
      exact hother
  refine ⟨h.nodup, ?_, ?_, ?_, ?_, ?_⟩
  · intro life hlife
    have hentry := h.entries life hlife
    have hbelow := lt_of_issued hq.calls hentry.issued
    refine ⟨Or.inl hbelow, fun hf => ?_, fun hagain => ?_⟩
    · rcases hentry.first hf with ⟨hnum, hemp, htaken⟩
      rw [setCall_of_ne s _ (hne hemp)]
      exact ⟨hnum, hemp, htaken⟩
    · exact ⟨(hentry.again hagain).1, fun j =>
        hnumber j _ hbelow ((hentry.again hagain).2 j)⟩
  · intro j hj
    by_cases hji : j = i
    · rw [hji, setCall_self] at hj
      exact hj.elim
    · rw [setCall_of_ne s _ hji] at hj
      exact h.present j hj
  · intro j hj
    rw [setCall_of_ne s _ (hne (h.emplaced j hj))]
    exact h.emplaced j hj
  · intro j due' task' hcall
    rcases setCall_cases hcall with ⟨hji, hcall'⟩ | ⟨-, hold⟩
    · rw [AddCall.constructed.injEq] at hcall'
      rw [← hcall'.2, hji, hid]
      exact ⟨howner, hfirst, fun hmem => Nat.lt_irrefl _ (hlt _ hmem)⟩
    · exact h.constructed j due' task' hold
  · exact h.held.mono (fun _ hj => hj) (fun id hfree =>
      ⟨hfree.below, hfree.notMem, fun j => hnumber j id hfree.below (hfree.noCall j)⟩)

/-- A task that was made is put into the map. -/
theorem Mapped.emplace (h : Mapped s) (hn : Numbered s) {i due : Nat} {task : Task}
    (hcall : s.calls i = .constructed due task) :
    Mapped ({ s with m_tasks := Timer.emplace due task s.m_tasks }.setCall i
      (.emplaced task.id task.repeated)) := by
  rcases h.constructed i due task hcall with ⟨howner, hfirst, hnotin⟩
  have hmoves := moves_emplaced hcall
  have hnumber : ∀ j, ((s.setCall i (.emplaced task.id task.repeated)).calls j).number =
      (s.calls j).number := hmoves.number_setCall
  -- The call keeps its number while its task goes to the map.
  have hself : (s.calls i).number = some task.id := by
    rw [hcall]
    rfl
  have hnot : ¬ (s.calls i).Emplaced := by
    rw [hcall]
    exact not_false
  have hstays : ∀ j, (s.calls j).Emplaced →
      ((s.setCall i (.emplaced task.id task.repeated)).calls j).Emplaced := by
    intro j hj
    rw [setCall_of_ne s _ (show j ≠ i from fun heq => hnot (heq ▸ hj))]
    exact hj
  refine ⟨?_, ?_, ?_, ?_, ?_, ?_⟩
  · exact (ids_emplace due task s.m_tasks).nodup_iff.mpr (List.nodup_cons.mpr ⟨hnotin, h.nodup⟩)
  · intro life hlife
    rcases (lives_emplace due task s.m_tasks life).mp hlife with rfl | hold
    · refine ⟨?_, fun _ => ?_, fun hagain => absurd (hfirst.symm.trans hagain) Bool.noConfusion⟩
      · refine Or.inr ⟨i, ?_, (hnumber i).trans hself⟩
        exact hmoves.progress_setCall i ▸ (by rw [hcall]; trivial)
      · rw [show task.life.owner = i from howner]
        refine ⟨(hnumber i).trans hself, ?_, fun htaken => hnot (h.emplaced i htaken)⟩
        exact (setCall_self s i _).symm ▸ trivial
    · have hentry := h.entries life hold
      refine ⟨hmoves.issued_setCall hentry.issued, fun hf => ?_, fun hagain => ?_⟩
      · rcases hentry.first hf with ⟨hnum, hemp, htaken⟩
        exact ⟨(hnumber _).trans hnum, hstays _ hemp, htaken⟩
      · exact ⟨(hentry.again hagain).1, fun j => hnumber j ▸ (hentry.again hagain).2 j⟩
  · intro j hj
    by_cases hji : j = i
    · refine Or.inr ⟨task.life, (lives_emplace due task s.m_tasks _).mpr (Or.inl rfl), hfirst, ?_⟩
      exact howner.trans hji.symm
    · rcases h.present j (setCall_of_ne s (.emplaced task.id task.repeated) hji ▸ hj) with
        htaken | ⟨life, hlife, hlife'⟩
      · exact Or.inl htaken
      · exact Or.inr ⟨life, (lives_emplace due task s.m_tasks life).mpr (Or.inr hlife), hlife'⟩
  · intro j hj
    exact hstays j (h.emplaced j hj)
  · intro j due' task' hcall'
    rcases setCall_cases hcall' with ⟨-, hcall''⟩ | ⟨hji, hcall''⟩
    · exact absurd hcall'' (by simp only [reduceCtorEq, not_false_eq_true])
    · rcases h.constructed j due' task' hcall'' with ⟨howner', hfirst', hnotin'⟩
      refine ⟨howner', hfirst', fun hmem => ?_⟩
      -- No two calls have one number, so that the other's task is not the one put in.
      rcases List.mem_cons.mp ((ids_emplace due task s.m_tasks).mem_iff.mp hmem) with heq | hold
      · refine hji (hn.distinct j i task.id ?_ hself)
        rw [hcall'', ← heq]
        rfl
      · exact hnotin' hold
  · refine h.held.mono (fun _ hj => hj) (fun id hfree => ⟨hfree.below, fun hmem => ?_, ?_⟩)
    · rcases List.mem_cons.mp ((ids_emplace due task s.m_tasks).mem_iff.mp hmem) with rfl | hold
      · exact hfree.noCall i hself
      · exact hfree.notMem hold
    · intro j
      exact hnumber j ▸ hfree.noCall j

/-- The worker puts a task back. -/
theorem Mapped.putBack (h : Mapped s) {now due : Nat} {task : Task}
    (hworker : s.worker = .emplacing now task) :
    Mapped { s with m_tasks := Timer.emplace due task s.m_tasks, worker := .waiting } := by
  have hheld := h.held
  rw [hworker] at hheld
  rcases hheld with ⟨htaken, hfirst, hfree⟩
  refine ⟨?_, ?_, ?_, h.emplaced, ?_, trivial⟩
  · exact (ids_emplace due task s.m_tasks).nodup_iff.mpr
      (List.nodup_cons.mpr ⟨hfree.notMem, h.nodup⟩)
  · intro life hlife
    rcases (lives_emplace due task s.m_tasks life).mp hlife with rfl | hold
    · exact ⟨Or.inl hfree.below, fun hf => absurd (hfirst.symm.trans hf) Bool.noConfusion,
        fun _ => ⟨htaken, hfree.noCall⟩⟩
    · exact ⟨(h.entries life hold).issued, (h.entries life hold).first, (h.entries life hold).again⟩
  · intro i hi
    rcases h.present i hi with htaken' | ⟨life, hlife, hlife'⟩
    · exact Or.inl htaken'
    · exact Or.inr ⟨life, (lives_emplace due task s.m_tasks life).mpr (Or.inr hlife), hlife'⟩
  · intro i due' task' hcall
    rcases h.constructed i due' task' hcall with ⟨howner, hfirst', hnotin⟩
    refine ⟨howner, hfirst', fun hmem => ?_⟩
    rcases List.mem_cons.mp ((ids_emplace due task s.m_tasks).mem_iff.mp hmem) with heq | hold
    · refine hfree.noCall i ?_
      rw [hcall, ← heq]
      rfl
    · exact hnotin hold

/-- The worker takes a task out. -/
theorem Mapped.take (h : Mapped s) {now due : Nat} {task : Task} {rest : Tasks}
    (htasks : s.m_tasks = (due, task) :: rest) :
    Mapped { s with
      m_tasks := rest
      worker := .taken now task
      taken := if task.first = true then s.taken ++ [task.owner] else s.taken } := by
  have hlives : lives s.m_tasks = task.life :: lives rest := by
    rw [htasks]
    rfl
  have hids : ids s.m_tasks = task.id :: ids rest := by
    rw [htasks]
    rfl
  have hnodup := h.nodup
  rw [hids, List.nodup_cons] at hnodup
  have hhead := h.entries task.life (hlives ▸ List.mem_cons_self)
  have hrest : ∀ {life}, life ∈ lives rest → Entry s life := fun hlife =>
    h.entries _ (hlives ▸ List.mem_cons_of_mem _ hlife)
  have hmono : ∀ i ∈ s.taken,
      i ∈ if task.first = true then s.taken ++ [task.owner] else s.taken := by
    intro i hi
    split
    · exact List.mem_append_left _ hi
    · exact hi
  have htaken : ∀ i, (i ∈ if task.first = true then s.taken ++ [task.owner] else s.taken) →
      i ∈ s.taken ∨ task.first = true ∧ i = task.owner := by
    intro i hi
    split at hi
    case isTrue hfirst =>
      rcases List.mem_append.mp hi with hold | hnew
      · exact Or.inl hold
      · exact Or.inr ⟨hfirst, List.mem_singleton.mp hnew⟩
    case isFalse => exact Or.inl hi
  refine ⟨hnodup.2, ?_, ?_, ?_, ?_, ?_⟩
  · intro life hlife
    refine ⟨(hrest hlife).issued, fun hf => ?_, fun hagain => ?_⟩
    · rcases (hrest hlife).first hf with ⟨hnum, hemp, hnot⟩
      refine ⟨hnum, hemp, fun hmem => ?_⟩
      rcases htaken _ hmem with hold | ⟨hfirst, heq⟩
      · exact hnot hold
      · -- a call has one number, and the head is the only task with it
        have hsame := (hhead.first hfirst).1
        rw [show task.life.owner = task.owner from rfl, ← heq, hnum, Option.some_inj] at hsame
        exact hnodup.1 (show task.id ∈ ids rest from
          (show life.id = task.id from hsame) ▸ mem_ids_of_mem_lives hlife)
    · exact ⟨hmono _ ((hrest hlife).again hagain).1, ((hrest hlife).again hagain).2⟩
  · intro i hi
    rcases h.present i hi with hold | ⟨life, hlife, hfirst, howner⟩
    · exact Or.inl (hmono i hold)
    · rw [hlives] at hlife
      rcases List.mem_cons.mp hlife with rfl | hlife'
      · refine Or.inl ?_
        rw [if_pos (show task.first = true from hfirst), ← howner]
        exact List.mem_append_right _ (List.mem_singleton.mpr rfl)
      · exact Or.inr ⟨life, hlife', hfirst, howner⟩
  · intro i hi
    rcases htaken i hi with hold | ⟨hfirst, rfl⟩
    · exact h.emplaced i hold
    · exact (hhead.first hfirst).2.1
  · intro i due' task' hcall
    rcases h.constructed i due' task' hcall with ⟨howner, hfirst, hnotin⟩
    exact ⟨howner, hfirst, fun hmem => hnotin (hids ▸ List.mem_cons_of_mem _ hmem)⟩
  · cases hfirst : task.first with
    | true =>
        have hmem : task.owner ∈ s.taken ++ [task.owner] :=
          List.mem_append_right _ (List.mem_singleton.mpr rfl)
        exact hmem
    | false => exact (hhead.again hfirst).1

theorem mapped_step (h : Mapped s) (hn : Numbered s) {l : Label} (ho : Orderly s l)
    (hst : Stepped s l t) : Mapped t := by
  cases hst with
  | add i now period repeated hcall =>
      refine h.setCall (moves_called hcall _ _ _) ?_ (fun _ _ => by
        simp only [ne_eq, reduceCtorEq, not_false_eq_true])
      rw [hcall]
      rfl
  | construct i due period repeated hcall =>
      refine h.construct ho ?_ rfl rfl rfl
      rw [hcall]
      exact not_false
  | emplace i due task hcall => exact h.emplace hn hcall
  | read i id repeated hcall =>
      refine h.setCall (moves_incrementing hcall _) ?_ (fun _ _ => by
        simp only [ne_eq, reduceCtorEq, not_false_eq_true])
      rw [hcall]
      rfl
  | increment i id m_cur_id repeated hcall =>
      rcases hn.quiet_of_incrementing hcall with ⟨-, -, hcur, hquiet, -⟩
      have hnumber := number_returned hcall
      refine h.congr (fun id' hid => Or.inl (hn.lt_next hid hcur)) hnumber
        (emplaced_returned hcall) ?_ rfl rfl ?_
      · intro j due task hcall'
        rcases setCall_cases hcall' with ⟨-, hreturned⟩ | ⟨-, hold⟩
        · exact absurd hreturned (by simp only [reduceCtorEq, not_false_eq_true])
        · exact hold
      · refine h.held.mono (fun _ hj => hj) (fun id' hfree => ⟨?_, hfree.notMem, fun j => ?_⟩)
        · exact Nat.lt_of_lt_of_eq (Nat.lt_succ_of_lt hfree.below) hcur.symm
        · exact hnumber j ▸ hfree.noCall j
  | remove id =>
      have hids : ids (flag id s.m_tasks) = ids s.m_tasks := by
        rw [ids_eq_map_lives, ids_eq_map_lives, lives_flag]
      refine h.congr (fun _ hid => hid) (fun _ => rfl) (fun _ => rfl) (fun _ _ _ hc => hc)
        (lives_flag id s.m_tasks) rfl (h.held.mono (fun _ hj => hj) (fun id' hfree => ?_))
      exact ⟨hfree.below, fun hmem => hfree.notMem (hids ▸ hmem), hfree.noCall⟩
  | stop => exact h.setWorker s.worker true s.history h.held
  -- The worker's steps: what it holds is not in the map while it is held.
  | leave now hworker => exact h.setWorker .stopped s.m_stop s.history trivial
  | wait now hworker => exact h
  | take now due task rest hworker hstop htasks hdue => exact h.take htasks
  | run now task hworker =>
      have hheld := h.held
      rw [hworker] at hheld
      exact h.setWorker (.running now task) s.m_stop (s.history ++ [.started task.owner]) hheld
  | finish now task hworker =>
      have hheld := h.held
      rw [hworker] at hheld
      refine h.setWorker _ s.m_stop s.history ?_
      split
      · exact hheld
      · trivial
  | renew now task hworker =>
      have hheld := h.held
      rw [hworker] at hheld
      exact h.setWorker (.renumbering now task s.m_cur_id) s.m_stop s.history hheld
  | renumber now m_cur_id task hworker =>
      -- No call is in progress, and so the number that was read is new.
      rcases hn.worker now task m_cur_id hworker with ⟨hread, hfits, hquiet⟩
      have hheld := h.held
      rw [hworker] at hheld
      have hcur : (m_cur_id + 1) % 2 ^ 64 = s.m_cur_id + 1 := by
        rw [hread]
        exact Nat.mod_eq_of_lt hfits
      refine h.congr (fun id hid => Or.inl (hn.lt_next hid hcur)) (fun _ => rfl) (fun _ => rfl)
        (fun _ _ _ hc => hc) rfl rfl ⟨hheld, rfl, ?_, ?_, ?_⟩
      · exact Nat.lt_of_lt_of_eq (Nat.lt_succ_of_le (Nat.le_of_eq hread)) hcur.symm
      · intro hmem
        rw [ids_eq_map_lives] at hmem
        rcases List.mem_map.mp hmem with ⟨life, hlife, heq⟩
        have hlt := lt_of_issued hquiet (h.entries life hlife).issued
        exact Nat.lt_irrefl _ ((heq.trans hread) ▸ hlt)
      · intro i hnumber
        have hlt := hn.below i m_cur_id (hquiet i) hnumber
        exact Nat.lt_irrefl _ (hread ▸ hlt)
  | putBack now task hworker => exact h.putBack hworker

/-! ### What was seen -/

/-- What is known of the events: what was removed has a flag as long as a call has its number,
    calls that returned have their numbers, and what was started was taken out. -/
structure Told (s : State) : Prop where
  flagged : ∀ id, .removed id true ∈ s.history → Issued s id ∧
    ∀ i, (s.calls i).number = some id → Flagged s.m_tasks id
  returned : ∀ i id repeated, .returned i id repeated ∈ s.history →
    (s.calls i).number = some id ∧ (s.calls i).Emplaced
  started : ∀ i, .started i ∈ s.history → i ∈ s.taken

/-- Steps in which nothing is seen. -/
theorem Told.congr (h : Told s) (hhistory : t.history = s.history)
    (hissued : ∀ id, Issued s id → Issued t id)
    (hnumber : ∀ i id, Issued s id → (t.calls i).number = some id → (s.calls i).number = some id)
    (hkeeps : ∀ i, (s.calls i).Emplaced →
      (t.calls i).number = (s.calls i).number ∧ (t.calls i).Emplaced)
    (hflagged : ∀ i id, (s.calls i).number = some id → Flagged s.m_tasks id →
      Flagged t.m_tasks id)
    (htaken : ∀ i ∈ s.taken, i ∈ t.taken) : Told t := by
  refine ⟨?_, ?_, ?_⟩
  · intro id hid
    rcases h.flagged id (hhistory ▸ hid) with ⟨hissue, hflag⟩
    refine ⟨hissued id hissue, fun i hi => ?_⟩
    have hi' := hnumber i id hissue hi
    exact hflagged i id hi' (hflag i hi')
  · intro i id repeated hi
    rcases h.returned i id repeated (hhistory ▸ hi) with ⟨hnum, hemp⟩
    exact ⟨(hkeeps i hemp).1.trans hnum, (hkeeps i hemp).2⟩
  · intro i hi
    exact htaken i (h.started i (hhistory ▸ hi))

/-- Something is seen. -/
theorem Told.sees (h : Told s) {e : Event}
    (hremoved : ∀ id, e = .removed id true → Issued s id ∧ Flagged s.m_tasks id)
    (hreturned : ∀ i id repeated, e = .returned i id repeated →
      (s.calls i).number = some id ∧ (s.calls i).Emplaced)
    (hstarted : ∀ i, e = .started i → i ∈ s.taken) : Told (s.sees e) := by
  refine ⟨?_, ?_, ?_⟩
  · intro id hid
    rcases List.mem_append.mp hid with hold | hnew
    · exact h.flagged id hold
    · rcases hremoved id (List.mem_singleton.mp hnew).symm with ⟨hissue, hflag⟩
      exact ⟨hissue, fun _ _ => hflag⟩
  · intro i id repeated hi
    rcases List.mem_append.mp hi with hold | hnew
    · exact h.returned i id repeated hold
    · exact hreturned i id repeated (List.mem_singleton.mp hnew).symm
  · intro i hi
    rcases List.mem_append.mp hi with hold | hnew
    · exact h.started i hold
    · exact hstarted i (List.mem_singleton.mp hnew).symm

/-- A call that moves on. -/
theorem Told.setCall (h : Told s) {i : Nat} {call : AddCall} (hm : Moves (s.calls i) call)
    (hemplaced : (s.calls i).Emplaced → call.Emplaced) : Told (s.setCall i call) := by
  refine h.congr rfl (fun _ hid => hm.issued_setCall hid)
    (fun j id _ hj => (hm.number_setCall j).symm.trans hj)
    (fun j hj => ⟨hm.number_setCall j, ?_⟩) (fun _ _ _ hflag => hflag) (fun _ hj => hj)
  by_cases hji : j = i
  · rw [hji, setCall_self]
    exact hemplaced (hji ▸ hj)
  · rw [setCall_of_ne s call hji]
    exact hj

/-- Other steps that leave the calls as they are. -/
theorem Told.setTasks (h : Told s) (m_tasks : Tasks) (worker : Worker) (m_stop : Bool)
    (hflagged : ∀ i id, (s.calls i).number = some id → Flagged s.m_tasks id → Flagged m_tasks id) :
    Told { s with m_tasks := m_tasks, worker := worker, m_stop := m_stop } :=
  h.congr rfl (fun _ hid => hid) (fun _ _ _ hi => hi) (fun _ hi => ⟨rfl, hi⟩) hflagged
    (fun _ hi => hi)

/-- A call gets a number that was not given out before. -/
theorem Told.construct (h : Told s) (hq : Quiet s) {i : Nat} {call : AddCall}
    (hnot : ¬ (s.calls i).Emplaced) (hnew : call.number = some s.m_cur_id) :
    Told (s.setCall i call) := by
  refine h.congr rfl (fun id hid => Or.inl (lt_of_issued hq.calls hid)) (fun j id hid hj => ?_)
    (fun j hj => ?_) (fun _ _ _ hflag => hflag) (fun _ hj => hj)
  · by_cases hji : j = i
    · rw [hji, setCall_self, hnew] at hj
      have hlt := lt_of_issued hq.calls hid
      exact absurd (Option.some_inj.mp hj) (Nat.ne_of_gt hlt)
    · rw [setCall_of_ne s _ hji] at hj
      exact hj
  · have hji : j ≠ i := fun heq => hnot (heq ▸ hj)
    rw [setCall_of_ne s _ hji]
    exact ⟨rfl, hj⟩

/-- A call increments the next number, and returns its own. -/
theorem Told.increment (h : Told s) (hn : Numbered s) {i id m_cur_id : Nat} {repeated : Bool}
    (hcall : s.calls i = .incrementing id repeated m_cur_id) :
    Told (({ s with m_cur_id := (m_cur_id + 1) % 2 ^ 64 }.setCall i (.returned id)).sees
      (.returned i m_cur_id repeated)) := by
  rcases hn.quiet_of_incrementing hcall with ⟨hid, hread, hcur, -, -⟩
  have hnumber := number_returned hcall
  have hemplaced := emplaced_returned hcall
  have htold : Told ({ s with m_cur_id := (m_cur_id + 1) % 2 ^ 64 }.setCall i
      (.returned id)) :=
    h.congr rfl (fun id' hid' => Or.inl (hn.lt_next hid' hcur))
      (fun j id' _ hj => (hnumber j).symm.trans hj)
      (fun j hj => ⟨hnumber j, (hemplaced j).symm ▸ hj⟩) (fun _ _ _ hflag => hflag)
      (fun _ hj => hj)
  refine htold.sees (fun _ hc => absurd hc (by simp only [reduceCtorEq, not_false_eq_true]))
    (fun j id' repeated' heq => ?_)
    (fun _ hc => absurd hc (by simp only [reduceCtorEq, not_false_eq_true]))
  rw [Event.returned.injEq] at heq
  rw [← heq.1, ← heq.2.1, setCall_self]
  exact ⟨congrArg some (hid.trans hread.symm), trivial⟩

/-- A number that is removed was given out, and its task is flagged. -/
theorem Told.remove (h : Told s) (hm : Mapped s) (id : Nat) :
    Told ({ s with m_tasks := flag id s.m_tasks }.sees
      (.removed id (decide (id ∈ ids s.m_tasks)))) := by
  have htold := h.setTasks (flag id s.m_tasks) s.worker s.m_stop
    (fun _ _ _ hflag => flagged_flag_of_flagged hflag)
  refine htold.sees (fun id' heq => ?_)
    (fun _ _ _ hc => absurd hc (by simp only [reduceCtorEq, not_false_eq_true]))
    (fun _ hc => absurd hc (by simp only [reduceCtorEq, not_false_eq_true]))
  rw [Event.removed.injEq] at heq
  have hmem : id ∈ ids s.m_tasks := of_decide_eq_true heq.2
  rw [← heq.1]
  refine ⟨?_, flagged_flag_of_mem hmem⟩
  rw [ids_eq_map_lives] at hmem
  rcases List.mem_map.mp hmem with ⟨life, hlife, rfl⟩
  exact (hm.entries life hlife).issued

/-- No task that was flagged is taken out, unless no call has its number. -/
theorem Told.take (h : Told s) (hm : Mapped s) {now due : Nat} {task : Task} {rest : Tasks}
    (htasks : s.m_tasks = (due, task) :: rest)
    (horderly : task.first = true → task.removed = false) :
    Told { s with
      m_tasks := rest
      worker := .taken now task
      taken := if task.first = true then s.taken ++ [task.owner] else s.taken } := by
  refine h.congr rfl (fun _ hid => hid) (fun _ _ _ hi => hi) (fun _ hi => ⟨rfl, hi⟩)
    (fun i id hi hflag => ?_) (fun i hi => ?_)
  · rcases hflag with ⟨e, he, hid, hremoved⟩
    rw [htasks] at he
    rcases List.mem_cons.mp he with rfl | hrest
    · have hhead : Entry s task.life := hm.entries task.life (by
        rw [htasks]
        exact List.mem_cons_self)
      cases hfirst : task.first with
      | true => exact absurd ((horderly hfirst).symm.trans hremoved) Bool.noConfusion
      | false => exact absurd (hi.trans (congrArg some hid.symm)) ((hhead.again hfirst).2 i)
    · exact ⟨e, hrest, hid, hremoved⟩
  · simp only
    split
    · exact List.mem_append_left _ hi
    · exact hi

theorem told_step (h : Told s) (hm : Mapped s) (hn : Numbered s) {l : Label} (ho : Orderly s l)
    (hst : Stepped s l t) : Told t := by
  -- What was told is changed by four kinds of steps only; for these there is a lemma each.
  cases hst with
  | add i now period repeated hcall =>
      refine h.setCall (moves_called hcall _ _ _) ?_
      rw [hcall]
      exact id
  | construct i due period repeated hcall =>
      refine h.construct ho ?_ rfl
      rw [hcall]
      exact not_false
  | emplace i due task hcall =>
      exact (h.setTasks (Timer.emplace due task s.m_tasks) s.worker s.m_stop
        (fun _ _ _ hflag => flagged_emplace hflag)).setCall (moves_emplaced hcall)
          (fun _ => trivial)
  | read i id repeated hcall =>
      exact h.setCall (moves_incrementing hcall _) (fun _ => trivial)
  | increment i id m_cur_id repeated hcall => exact h.increment hn hcall
  | remove id => exact h.remove hm id
  | stop => exact h.setTasks s.m_tasks s.worker true (fun _ _ _ hflag => hflag)
  | leave now hworker => exact h.setTasks s.m_tasks .stopped s.m_stop (fun _ _ _ hflag => hflag)
  | wait now hworker => exact h
  | take now due task rest hworker hstop htasks hdue =>
      exact h.take hm htasks (ho hstop due task rest htasks hdue)
  | run now task hworker =>
      have hheld := hm.held
      rw [hworker] at hheld
      refine (h.setTasks s.m_tasks (.running now task) s.m_stop (fun _ _ _ hflag => hflag)).sees
        (fun _ hc => absurd hc (by simp only [reduceCtorEq, not_false_eq_true]))
        (fun _ _ _ hc => absurd hc (by simp only [reduceCtorEq, not_false_eq_true]))
        (fun i heq => ?_)
      rw [Event.started.injEq] at heq
      exact heq ▸ hheld
  | finish now task hworker => exact h.setTasks s.m_tasks _ s.m_stop (fun _ _ _ hflag => hflag)
  | renew now task hworker => exact h.setTasks s.m_tasks _ s.m_stop (fun _ _ _ hflag => hflag)
  | renumber now m_cur_id task hworker =>
      rcases hn.worker now task m_cur_id hworker with ⟨hread, hfits, hquiet⟩
      have hcur : (m_cur_id + 1) % 2 ^ 64 = s.m_cur_id + 1 := by
        rw [hread]
        exact Nat.mod_eq_of_lt hfits
      exact h.congr rfl (fun id hid => Or.inl (hn.lt_next hid hcur)) (fun _ _ _ hi => hi)
        (fun _ hi => ⟨rfl, hi⟩) (fun _ _ _ hflag => hflag) (fun _ hi => hi)
  | putBack now task hworker =>
      exact h.setTasks _ .waiting s.m_stop (fun _ _ _ hflag => flagged_emplace hflag)

/-! ### Cancellation -/

/-- What was removed was not started, because it was not taken out. -/
theorem neverAgain_of_told (h : Told s) (hm : Mapped s) (hn : Numbered s) :
    NeverAgain s.history := by
  intro before after owner id repeated hsplit hreturned hremoved
  have hstarted : owner ∈ s.taken := h.started owner (by
    rw [hsplit]
    exact List.mem_append_right _ List.mem_cons_self)
  have hnumber := (h.returned owner id repeated hreturned).1
  rcases (h.flagged id (by
    rw [hsplit]
    exact List.mem_append_left _ hremoved)).2 owner hnumber with ⟨e, he, rfl, -⟩
  have hentry := hm.entries e.2.life (List.mem_map_of_mem he)
  cases hfirst : e.2.first with
  | true =>
      rcases hentry.first hfirst with ⟨hnumber', -, hnot⟩
      exact hnot (hn.distinct _ _ _ hnumber hnumber' ▸ hstarted)
  | false => exact (hentry.again hfirst).2 owner hnumber

/-- One more event. -/
theorem Found.concat {history : List Event} (h : Found history) {e : Event}
    (he : ∀ id, e = .removed id false → ∀ owner repeated, .returned owner id repeated ∈ history →
      .removed id true ∈ history ∨ repeated = false ∧ .started owner ∈ history) :
    Found (history ++ [e]) := by
  intro before after owner id repeated hsplit hreturned
  rcases List.eq_nil_or_concat after with rfl | ⟨after, e', rfl⟩
  · rcases List.append_inj' hsplit rfl with ⟨rfl, heq⟩
    exact he id (List.cons.inj heq).1 owner repeated hreturned
  · rw [List.concat_eq_append, ← List.cons_append, ← List.append_assoc] at hsplit
    rcases List.append_inj' hsplit rfl with ⟨hhistory, -⟩
    exact h before after owner id repeated hhistory hreturned

/-- A task that is not in the map was taken out. -/
theorem taken_of_not_mem (h : Told s) (hm : Mapped s) {owner id : Nat} {repeated : Bool}
    (hreturned : .returned owner id repeated ∈ s.history) (hid : id ∉ ids s.m_tasks) :
    owner ∈ s.taken := by
  rcases h.returned owner id repeated hreturned with ⟨hnumber, hemplaced⟩
  rcases hm.present owner hemplaced with htaken | ⟨life, hlife, hfirst, rfl⟩
  · exact htaken
  · have hlife' := ((hm.entries life hlife).first hfirst).1
    rw [hnumber, Option.some_inj] at hlife'
    exact absurd (mem_ids_of_mem_lives hlife) (hlife' ▸ hid)

theorem found_step (hfound : Found s.history) (h : Told s) (hm : Mapped s) {l : Label}
    (ho : Orderly s l) (hst : Stepped s l t) : Found t.history := by
  cases hst with
  | remove id =>
      refine hfound.concat (fun id' heq owner repeated hreturned => Or.inr ?_)
      rw [Event.removed.injEq] at heq
      rw [← heq.1] at hreturned
      have hnot : id ∉ ids s.m_tasks := of_decide_eq_false heq.2
      exact ho owner repeated hreturned (taken_of_not_mem h hm hreturned hnot)
  | increment i id m_cur_id repeated hcall =>
      exact hfound.concat (fun _ hc => absurd hc (by
        simp only [reduceCtorEq, not_false_eq_true]))
  | run now task hworker =>
      exact hfound.concat (fun _ hc => absurd hc (by
        simp only [reduceCtorEq, not_false_eq_true]))
  | add i now period repeated hcall => exact hfound
  | construct i due period repeated hcall => exact hfound
  | emplace i due task hcall => exact hfound
  | read i id repeated hcall => exact hfound
  | stop => exact hfound
  | leave now hworker => exact hfound
  | wait now hworker => exact hfound
  | take now due task rest hworker hstop htasks hdue => exact hfound
  | finish now task hworker => exact hfound
  | renew now task hworker => exact hfound
  | renumber now m_cur_id task hworker => exact hfound
  | putBack now task hworker => exact hfound

/-- What the steps keep. -/
structure Kept (s : State) : Prop where
  numbered : Numbered s
  mapped : Mapped s
  told : Told s
  found : Found s.history

theorem kept_start : Kept start := by
  have hcalls : ∀ i, ¬ (start.calls i).InProgress := fun _ => not_false
  have hnumber : ∀ i id, (start.calls i).number ≠ some id := fun _ _ => by
    simp only [start, AddCall.number, ne_eq, reduceCtorEq, not_false_eq_true]
  refine ⟨?_, ?_, ?_, ?_⟩
  · exact ⟨fun i _ hi => absurd hi (hcalls i), fun i hi => absurd hi (hcalls i),
      fun _ _ _ _ hc => absurd hc (by simp only [start, reduceCtorEq, not_false_eq_true]),
      fun i id _ hid => absurd hid (hnumber i id), fun i _ id hid => absurd hid (hnumber i id),
      fun _ _ _ hw => absurd hw (by simp only [start, reduceCtorEq, not_false_eq_true])⟩
  · exact ⟨List.nodup_nil, fun _ hlife => absurd hlife List.not_mem_nil, fun _ hi => hi.elim,
      fun _ hi => absurd hi List.not_mem_nil,
      fun _ _ _ hc => absurd hc (by simp only [start, reduceCtorEq, not_false_eq_true]), trivial⟩
  · exact ⟨fun _ hid => absurd hid List.not_mem_nil, fun _ _ _ hi => absurd hi List.not_mem_nil,
      fun _ hi => absurd hi List.not_mem_nil⟩
  · intro before after owner id repeated hsplit
    exact absurd hsplit (by simp only [start, List.nil_eq, List.append_eq_nil_iff, reduceCtorEq,
      and_false, not_false_eq_true])

/-- In every state of a run whose steps do not overlap, what was removed was not started, and
    what was to be started could be removed. -/
theorem remove_works (ls : List Label) (ho : Machine.StepsMeet step Orderly start ls) :
    Machine.Throughout step CancelWorks start ls := by
  have hkept : Machine.Throughout step Kept start ls := by
    refine Machine.throughout_of_stepsMeet step Orderly Kept (fun s l t h hl hst => ?_) start ls
      kept_start ho
    have hstepped := stepped_of_step hst
    exact ⟨numbered_step h.numbered hl hstepped, mapped_step h.mapped h.numbered hl hstepped,
      told_step h.told h.mapped h.numbered hl hstepped,
      found_step h.found h.told h.mapped hl hstepped⟩
  exact hkept.mono step (fun s h =>
    ⟨neverAgain_of_told h.told h.mapped h.numbered, h.found⟩)

/-! ### Calls that are not interleaved -/

/-- The steps of a call of `add`. -/
def addSteps (i now period : Nat) (repeated : Bool) : List Label :=
  [.add i now period repeated, .construct i, .emplace i, .read i, .increment i]

/-- What they leave when they follow one another. -/
def State.added (s : State) (i now period : Nat) (repeated : Bool) : State :=
  { s with
    m_tasks := emplace ((now + period) % 2 ^ 64)
      { id := s.m_cur_id, period := period, repeated := repeated, removed := false, owner := i,
        first := true } s.m_tasks
    m_cur_id := (s.m_cur_id + 1) % 2 ^ 64
    calls := Slots.put s.calls i (.returned s.m_cur_id)
    history := s.history ++ [.returned i s.m_cur_id repeated] }

theorem run_addSteps (s : State) (i now period : Nat) (repeated : Bool)
    (hcall : s.calls i = .unborn) :
    Machine.run step s (addSteps i now period repeated) = some (s.added i now period repeated) := by
  simp only [Machine.run, addSteps, List.foldlM_cons, List.foldlM_nil, step, stepAdd, hcall,
    State.setCall, State.sees, State.added, Slots.put_self, Slots.put_put, Option.bind_eq_bind,
    Option.bind_some, Option.pure_def]

/-- They do not get in anybody's way when nobody is about to increment the number. -/
theorem orderly_addSteps (s : State) (i now period : Nat) (repeated : Bool)
    (hcall : s.calls i = .unborn) (hquiet : Quiet s) :
    Machine.StepsMeet step Orderly s (addSteps i now period repeated) := by
  have hadd : step s (.add i now period repeated)
      = some (s.setCall i (.called ((now + period) % 2 ^ 64) period repeated)) := by
    rw [step, hcall, stepAdd]
  refine Machine.stepsMeet_cons step trivial hadd ⟨⟨fun j hprogress => ?_, hquiet.worker,
    hquiet.fits⟩, fun m hm => ?_⟩
  · -- The call itself has not read the number yet.
    rcases Slots.put_cases (p := AddCall.InProgress) hprogress with ⟨-, hcalled⟩ | ⟨-, hother⟩
    · exact hcalled
    · exact hquiet.calls j hother
  · exact ⟨trivial, fun m _ => ⟨trivial, fun m _ => ⟨trivial, fun m _ => trivial⟩⟩⟩

theorem quiet_added (s : State) (i now period : Nat) (repeated : Bool) (hquiet : Quiet s)
    (hfits : s.m_cur_id + 2 < 2 ^ 64) : Quiet (s.added i now period repeated) := by
  refine ⟨fun j hprogress => ?_, hquiet.worker, ?_⟩
  · rcases Slots.put_cases (p := AddCall.InProgress) hprogress with ⟨-, hreturned⟩ | ⟨-, hother⟩
    · exact hreturned
    · exact hquiet.calls j hother
  · show (s.m_cur_id + 1) % 2 ^ 64 + 1 < 2 ^ 64
    rw [Nat.mod_eq_of_lt (by omega)]
    exact hfits

/-- Two tasks are added, and the first is removed. While it waits with its flag the second is
    started, and is removed behind that, in vain. -/
theorem remove_works_twice : Machine.Throughout step CancelWorks start
    (addSteps 0 0 9 false ++ (addSteps 1 0 3 false
      ++ [.remove 0, .look 4, .run, .finish, .remove 1])) := by
  have hquiet : Quiet start := ⟨fun _ => not_false, fun _ _ _ => Worker.noConfusion, by decide⟩
  have hquiet' := quiet_added start 0 0 9 false hquiet (by decide)
  refine remove_works _ (Machine.stepsMeet_append step (orderly_addSteps start 0 0 9 false rfl
    hquiet) (fun s hs => ?_))
  rw [run_addSteps start 0 0 9 false rfl, Option.some.injEq] at hs
  rw [← hs]
  refine Machine.stepsMeet_append step (orderly_addSteps _ 1 0 3 false rfl hquiet') (fun s hs => ?_)
  rw [run_addSteps _ 1 0 3 false rfl, Option.some.injEq] at hs
  rw [← hs]
  refine Machine.stepsMeet_cons step (fun owner repeated _ htaken => ?_) rfl
    (Machine.stepsMeet_cons step (fun _ due task rest htasks _ _ => ?_) rfl
    (Machine.stepsMeet_cons step trivial rfl (Machine.stepsMeet_cons step trivial rfl
    (Machine.stepsMeet_cons step (fun owner repeated hreturned htaken => ?_) rfl trivial))))
  · exact absurd htaken List.not_mem_nil
  · rw [← (Prod.mk.inj (List.cons.inj htasks).1).2]
  · have hone : owner ∈ [1] := htaken
    have hhistory : Event.returned owner 1 repeated ∈
        [.returned 0 0 false, .returned 1 1 false, .removed 0 true, .started 1] := hreturned
    rcases List.mem_singleton.mp hone with rfl
    simp only [List.mem_cons, Event.returned.injEq, reduceCtorEq, List.not_mem_nil, or_false,
      false_and, true_and, false_or] at hhistory
    exact ⟨hhistory, by decide⟩

/-- A task that was removed is started when it is due. -/
theorem remove_not_heeded :
    ¬ ∀ ls s, Machine.run step start ls = some s → CancelWorks s := by
  intro h
  have hworks := h [.add 0 0 5 false, .construct 0, .emplace 0, .read 0, .increment 0, .remove 0,
    .look 5, .run] _ rfl
  exact hworks.neverAgain [.returned 0 0 false, .removed 0 true] [] 0 0 false rfl
    List.mem_cons_self (List.mem_cons_of_mem _ List.mem_cons_self)

end Timer

end Defender
