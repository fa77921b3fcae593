import Defender.Ipc.Exclusion

/-!
# Which Calls Release

`WriteData` and `ReadData` release the mutex on their last line and return
before it whenever their body fails. So a thread whose call fails keeps the
mutex, and since the mutex counts its owner's waits, a later call of the same
thread that succeeds does not give it back either.

`Passes` is what keeps a step from failing: the tests of the source on the
pointer, the view, the room and the count, and the allocation. A run whose
steps all pass leaves the mutex free whenever nobody is in a call. Conversely
one failing step is enough to leave it owned for good, unless the thread is
ended by the system, which then frees it.

The poll of the service fails its test whenever nothing is pending.

## Main definitions

* `CallPc.Passes`, `Passes`: The tests of the source.
* `Held`: The mutex is free, or held once by whoever is inside.
* `Stuck`: A thread has failed and the mutex will stay with it.

## Theorems

* `callStep_fails`: A step fails exactly when it does not pass.
* `held_step`: Steps that pass give back what they take.
* `stuck_step`: A mutex kept stays kept.
* `released_iff`: Free between calls exactly when every step passed.
* `emptyPoll_keeps`: One poll with nothing pending keeps the mutex.
-/

namespace Defender

namespace Ipc

namespace Threads

/-- The tests a step has to pass. -/
def CallPc.Passes (c : CWLIPCMmf) (mem : List UInt8) : CallPc → Prop
  | .writeChecking n pData =>
      pData.isSome = true ∧ c.pMapView = true ∧ ¬ curDataSize mem + n > c.dwMmfSize
  | .readChecking _ _ => c.pMapView = true ∧ curDataSize mem ≠ 0
  | .readAllocating alloc _ => alloc = true
  | _ => True

instance (c : CWLIPCMmf) (mem : List UInt8) : ∀ pc, Decidable (CallPc.Passes c mem pc)
  | .writeChecking n pData =>
      inferInstanceAs (Decidable (pData.isSome = true ∧ c.pMapView = true ∧
        ¬ curDataSize mem + n > c.dwMmfSize))
  | .readChecking _ _ => inferInstanceAs (Decidable (c.pMapView = true ∧ curDataSize mem ≠ 0))
  | .readAllocating alloc _ => inferInstanceAs (Decidable (alloc = true))
  | .waiting _ => isTrue trivial
  | .writeCopying _ _ => isTrue trivial
  | .writeUpdating _ _ => isTrue trivial
  | .readCopying _ _ => isTrue trivial
  | .readSizing _ _ => isTrue trivial
  | .readResetting _ _ => isTrue trivial
  | .releasing _ => isTrue trivial
  | .failing _ => isTrue trivial

/-- The container a thread's call is on, and where the call is. -/
def System.callOf (s : System) (t : Nat) : Option (CWLIPCMmf × CallPc) :=
  match s.threads t with
  | .inCall b pc =>
      match s.boxes b with
      | .ready c => some (c, pc)
      | _ => none
  | _ => none

/-- The step of a thread passes its test, if it makes one. -/
def Passes (s : System) : Label → Prop
  | .step t => ∀ q ∈ s.callOf t, q.2.Passes q.1 s.mem
  | _ => True

instance (s : System) : ∀ l, Decidable (Passes s l)
  | .construct _ _ _ => isTrue trivial
  | .construction _ _ _ => isTrue trivial
  | .call _ _ _ => isTrue trivial
  | .step t => inferInstanceAs (Decidable (∀ q ∈ s.callOf t, q.2.Passes q.1 s.mem))

theorem passes_step (s : System) (t b : Nat) (pc : CallPc) (c : CWLIPCMmf)
    (hth : s.threads t = .inCall b pc) (hbox : s.boxes b = .ready c) :
    Passes s (.step t) ↔ pc.Passes c s.mem := by
  simp only [Passes, System.callOf, hth, hbox, Option.mem_def, Option.some.injEq, forall_eq']

/-- Nobody is in a call. -/
def NoCall (s : System) : Prop :=
  ∀ t b pc, s.threads t ≠ .inCall b pc

/-- A step inside a call fails exactly when it does not pass. -/
theorem callStep_fails (c c' : CWLIPCMmf) (mem mem' : List UInt8) (pc next : CallPc)
    (h : callStep c mem pc = .go c' mem' next) :
    (∃ result, next = .failing result) ↔ ¬ pc.Passes c mem := by
  -- The two ways to see both sides at once: the step goes on, or it fails.
  have hgoes : ∀ pc' : CallPc, (∀ result, pc' ≠ .failing result) → pc.Passes c mem →
      next = pc' → ((∃ result, next = .failing result) ↔ ¬ pc.Passes c mem) := by
    rintro pc' hne hpass rfl
    exact ⟨fun ⟨result, hr⟩ => absurd hr (hne result), fun hn => absurd hpass hn⟩
  have hfails : ∀ result, ¬ pc.Passes c mem → next = .failing result →
      ((∃ result, next = .failing result) ↔ ¬ pc.Passes c mem) :=
    fun result hn hnext => ⟨fun _ => hn, fun _ => ⟨result, hnext⟩⟩
  cases pc with
  | writeChecking n pData =>
      cases pData with
      | none =>
          exact hfails _ (fun hp => absurd hp.1 (by decide)) (Outcome.go.inj h).2.2.symm
      | some data =>
          rw [callStep] at h
          by_cases hmap : c.pMapView = false
          · rw [if_pos hmap] at h
            exact hfails _ (fun hp => absurd (hmap.symm.trans hp.2.1) (by decide))
              (Outcome.go.inj h).2.2.symm
          by_cases hfit : curDataSize mem + n > c.dwMmfSize
          · rw [if_neg hmap, if_pos hfit] at h
            exact hfails _ (fun hp => hp.2.2 hfit) (Outcome.go.inj h).2.2.symm
          · rw [if_neg hmap, if_neg hfit] at h
            rw [Bool.not_eq_false] at hmap
            exact hgoes (.writeCopying n data) (fun _ => by
              simp only [ne_eq, reduceCtorEq, not_false_eq_true]) ⟨rfl, hmap, hfit⟩
              (Outcome.go.inj h).2.2.symm
  | readChecking alloc out =>
      rw [callStep] at h
      by_cases hmap : c.pMapView = false
      · rw [if_pos hmap] at h
        exact hfails _ (fun hp => absurd (hmap.symm.trans hp.1) (by decide))
          (Outcome.go.inj h).2.2.symm
      by_cases hempty : curDataSize mem = 0
      · rw [if_neg hmap, if_pos hempty] at h
        exact hfails _ (fun hp => hp.2 hempty) (Outcome.go.inj h).2.2.symm
      · rw [if_neg hmap, if_neg hempty] at h
        rw [Bool.not_eq_false] at hmap
        exact hgoes _ (fun _ => by simp only [ne_eq, reduceCtorEq, not_false_eq_true])
          ⟨hmap, hempty⟩ (Outcome.go.inj h).2.2.symm
  | readAllocating alloc out =>
      rw [callStep] at h
      by_cases halloc : alloc = false
      · rw [if_pos halloc] at h
        exact hfails _ (fun hp => by rw [CallPc.Passes, halloc] at hp; exact absurd hp (by decide))
          (Outcome.go.inj h).2.2.symm
      · rw [if_neg halloc] at h
        rw [Bool.not_eq_false] at halloc
        exact hgoes _ (fun _ => by simp only [ne_eq, reduceCtorEq, not_false_eq_true]) halloc
          (Outcome.go.inj h).2.2.symm
  -- The others check nothing, and pass unless they fault.
  | waiting call =>
      cases call <;> exact absurd h (by simp only [callStep, reduceCtorEq, not_false_eq_true])
  | writeCopying n data =>
      simp only [callStep] at h
      split at h
      · exact absurd h (by simp only [reduceCtorEq, not_false_eq_true])
      · exact hgoes _ (fun _ => by simp only [ne_eq, reduceCtorEq, not_false_eq_true]) trivial
          (Outcome.go.inj h).2.2.symm
  | writeUpdating n data =>
      exact hgoes _ (fun _ => by simp only [ne_eq, reduceCtorEq, not_false_eq_true]) trivial
        (Outcome.go.inj h).2.2.symm
  | readCopying buffer out =>
      simp only [callStep] at h
      split at h
      · exact absurd h (by simp only [reduceCtorEq, not_false_eq_true])
      · exact hgoes _ (fun _ => by simp only [ne_eq, reduceCtorEq, not_false_eq_true]) trivial
          (Outcome.go.inj h).2.2.symm
  | readSizing buffer out =>
      exact hgoes _ (fun _ => by simp only [ne_eq, reduceCtorEq, not_false_eq_true]) trivial
        (Outcome.go.inj h).2.2.symm
  | readResetting buffer out =>
      exact hgoes _ (fun _ => by simp only [ne_eq, reduceCtorEq, not_false_eq_true]) trivial
        (Outcome.go.inj h).2.2.symm
  | releasing result => exact absurd h (by simp only [callStep, reduceCtorEq, not_false_eq_true])
  | failing result => exact absurd h (by simp only [callStep, reduceCtorEq, not_false_eq_true])

/-- No call has failed, and the mutex is free or held once by a thread that is
    inside. -/
structure Held (s : System) : Prop where
  noFailing : ∀ t b result, s.threads t ≠ .inCall b (.failing result)
  mutex : s.mutex = .free ∨ ∃ t, s.mutex = .held t 0 ∧ Inside s t

theorem noFailing_setThread (s s₁ : System) (t : Nat) (x : Thread) (h : Held s)
    (hs₁ : s₁.threads = s.threads) (hx : ∀ b result, x ≠ .inCall b (.failing result)) :
    ∀ u b result, (s₁.setThread t x).threads u ≠ .inCall b (.failing result) := by
  intro u b result
  by_cases hut : u = t
  · simp only [System.setThread, hut, if_true]
    exact hx b result
  · simp only [System.setThread, if_neg hut, hs₁]
    exact h.noFailing u b result

/-- A step of a thread that passes gives back what it takes. -/
theorem held_thread (s s' : System) (t : Nat) (hg : Guarded s) (h : Held s)
    (hpass : Passes s (.step t)) (hstep : step s (.step t) = some s') : Held s' := by
  rcases step_cases s s' t hstep with ⟨b, pc, c, hth, hbox, happ⟩
  have hh := hg.ready b c hbox
  -- Whoever is inside owns the mutex, once.
  have hone : pc.IsInside → s.mutex = .held t 0 := by
    intro hpc
    have howner := hg.owner t ⟨b, pc, hth, hpc⟩
    rcases h.mutex with hfree | ⟨u, hu, -⟩
    · rw [hfree] at howner
      exact absurd howner (by simp only [RecLock.owner, reduceCtorEq, not_false_eq_true])
    · rw [hu, RecLock.owner, Option.some.injEq] at howner
      rw [hu, howner]
  cases hout : callStep c s.mem pc with
  | wait next =>
      have hpc : ¬ pc.IsInside ∧ next.IsInside ∧ ∀ result, next ≠ .failing result := by
        rcases callStep_wait _ _ _ _ hout with ⟨n, p, rfl, rfl⟩ | ⟨alloc, out, rfl, rfl⟩
        · exact ⟨fun hf => hf, trivial, fun _ => by
            simp only [ne_eq, reduceCtorEq, not_false_eq_true]⟩
        · exact ⟨fun hf => hf, trivial, fun _ => by
            simp only [ne_eq, reduceCtorEq, not_false_eq_true]⟩
      rw [hout] at happ
      rcases apply_wait hh happ with ⟨m, hw, rfl⟩
      refine ⟨noFailing_setThread s { s with mutex := m } t _ h rfl (fun b' result hx => ?_),
        Or.inr ⟨t, ?_, ?_⟩⟩
      · exact hpc.2.2 result (Thread.inCall.inj hx).2
      · rcases h.mutex with hfree | ⟨u, hu, hin⟩
        · rw [hfree, RecLock.wait, Option.some.injEq] at hw
          exact hw.symm
        · -- Held by a thread inside, which the one that waits is not.
          exfalso
          rw [hu, RecLock.wait] at hw
          by_cases hut : u = t
          · rcases hin with ⟨b', pc', hth', hpc'⟩
            rw [hut, hth, Thread.inCall.injEq] at hth'
            rw [← hth'.2] at hpc'
            exact hpc.1 hpc'
          · rw [if_neg hut] at hw
            exact absurd hw (by simp only [reduceCtorEq, not_false_eq_true])
      · exact (inside_setThread_self { s with mutex := m } t b next).mpr hpc.2.1
  | go c' mem' next =>
      rcases callStep_go c c' s.mem mem' pc next hout with ⟨hin, hin', -, -⟩
      -- A step that passes does not lead to a failure.
      have hnext : ∀ result, next ≠ .failing result := by
        intro result hr
        exact (callStep_fails c c' s.mem mem' pc next hout).mp ⟨result, hr⟩
          ((passes_step s t b pc c hth hbox).mp hpass)
      simp only [hout, apply, Option.some.injEq] at happ
      subst happ
      refine ⟨noFailing_setThread s _ t _ h rfl (fun b' result hx => ?_),
        Or.inr ⟨t, hone hin, (inside_setThread_self _ t b next).mpr hin'⟩⟩
      exact hnext result (Thread.inCall.inj hx).2
  | fault =>
      have hin : pc.IsInside := by
        rcases callStep_fault _ _ _ hout with ⟨n, data, rfl⟩ | ⟨buffer, out, rfl⟩
        · exact trivial
        · exact trivial
      simp only [hout, apply, Option.some.injEq] at happ
      subst happ
      refine ⟨noFailing_setThread s { s with mutex := s.mutex.abandon t } t _ h rfl
        (fun _ _ => by simp only [ne_eq, reduceCtorEq, not_false_eq_true]), Or.inl ?_⟩
      -- A thread that is ended abandons the mutex, which makes it free.
      simp only [System.setThread, hone hin, RecLock.abandon, if_true]
  | ret release code result =>
      simp only [hout, apply, Option.some.injEq] at happ
      rcases callStep_ret _ _ _ _ _ _ hout with ⟨rfl, rfl, -⟩ | ⟨rfl, -, -⟩
      · subst happ
        refine ⟨noFailing_setThread s _ t _ h rfl
          (fun _ _ => by simp only [ne_eq, reduceCtorEq, not_false_eq_true]), Or.inl ?_⟩
        simp only [System.setThread, Bool.true_and, if_pos hh, hone trivial, RecLock.release,
          if_true]
      -- The return that keeps the mutex is that of a call that has failed.
      · exact absurd hth (h.noFailing t b result)

/-- What changes neither the mutex nor a thread past its wait changes nothing
    about who holds what. -/
theorem held_of_frame (s s' : System) (h : Held s) (hmutex : s'.mutex = s.mutex)
    (hfail : ∀ t b result, s'.threads t ≠ .inCall b (.failing result))
    (hin : ∀ t, Inside s t → Inside s' t) : Held s' := by
  refine ⟨hfail, ?_⟩
  rw [hmutex]
  exact h.mutex.imp_right fun ⟨t, ht, hti⟩ => ⟨t, ht, hin t hti⟩

/-- A thread that begins a call was not inside. -/
theorem inside_of_call (s : System) (t b u : Nat) (call : IpcCall) (hidle : s.threads t = .idle)
    (hu : Inside s u) : u ≠ t ∧ Inside (s.setThread t (.inCall b (.waiting call))) u := by
  have hut : u ≠ t := by
    rintro rfl
    rcases hu with ⟨b', pc, hth, -⟩
    rw [hidle] at hth
    exact absurd hth (by simp only [reduceCtorEq, not_false_eq_true])
  exact ⟨hut, (inside_setThread_of_ne s t u _ hut).mpr hu⟩

/-- Steps that pass give back what they take. -/
theorem held_step (s : System) (l : Label) (s' : System) (hg : Guarded s) (h : Held s)
    (hpass : Passes s l) (hstep : step s l = some s') : Held s' := by
  cases l with
  | construct b n heap =>
      rcases step_construct_cases s s' b n heap hstep with ⟨-, rfl⟩
      exact held_of_frame s _ h rfl h.noFailing (fun _ hin => hin)
  | construction b ok lastError =>
      rcases step_construction_cases s s' b ok lastError hstep with ⟨pc, n, c, -, rfl⟩
      rcases constructorStep_frame s b n c ok lastError pc with ⟨hth, -, hmx, -, -⟩
      exact held_of_frame s _ h hmx (by rw [hth]; exact h.noFailing)
        (fun t hin => (inside_congr s _ t (by rw [hth])).mpr hin)
  | call t b call =>
      rcases step_call_cases s s' t b call hstep with ⟨hidle, -, rfl⟩
      refine held_of_frame s _ h rfl (noFailing_setThread s s t _ h rfl (fun _ _ hx => ?_))
        (fun u hu => (inside_of_call s t b u call hidle hu).2)
      exact absurd (Thread.inCall.inj hx).2 (by simp only [reduceCtorEq, not_false_eq_true])
  | step t => exact held_thread s s' t hg h hpass hstep

/-- Thread `t` has failed: it was ended for it, or the mutex is its own and
    will be after the release of the call it is in. -/
def Stuck (t : Nat) (s : System) : Prop :=
  s.threads t = .killed ∨ ∃ k, s.mutex = .held t k ∧
    ∀ b pc, s.threads t = .inCall b pc → pc.IsInside → (∀ result, pc ≠ .failing result) → k ≠ 0

/-- What leaves the mutex and thread `t` alone leaves it stuck. -/
theorem stuck_of_frame (t : Nat) (s s' : System) (h : Stuck t s) (hmutex : s'.mutex = s.mutex)
    (hthread : s'.threads t = s.threads t) : Stuck t s' := by
  unfold Stuck
  rw [hmutex, hthread]
  exact h

/-- A mutex held by one thread is neither taken nor freed by another. -/
theorem mutex_of_held (t u : Nat) (k : Nat) (s s' : System) (hg : Guarded s)
    (hk : s.mutex = .held t k) (htu : t ≠ u) (hstep : step s (.step u) = some s') :
    s'.mutex = .held t k := by
  rcases step_cases s s' u hstep with ⟨b, pc, c, -, hbox, happ⟩
  have hh := hg.ready b c hbox
  cases hout : callStep c s.mem pc with
  | wait next =>
      rw [hout, apply, if_pos hh, hk, RecLock.wait, if_neg htu] at happ
      exact absurd happ (by simp only [reduceCtorEq, not_false_eq_true])
  | go c' mem' next =>
      rw [hout, apply, Option.some.injEq] at happ
      rw [← happ]
      exact hk
  | fault =>
      rw [hout, apply, Option.some.injEq] at happ
      rw [← happ]
      simp only [System.setThread, hk, RecLock.abandon, if_neg htu]
  | ret release code result =>
      rw [hout, apply, Option.some.injEq] at happ
      rw [← happ]
      simp only [System.setThread, hk]
      split
      · cases k with
        | zero => rw [RecLock.release, if_neg htu]
        | succ k => rw [RecLock.release, if_neg htu]
      · rfl

/-- A thread that has failed never gets rid of the mutex by itself: each
    further call takes it once more and releases it at most once. -/
theorem stuck_self (t : Nat) (s s' : System) (hg : Guarded s) (h : Stuck t s)
    (hstep : step s (.step t) = some s') : Stuck t s' := by
  rcases step_cases s s' t hstep with ⟨b, pc, c, hth, hbox, happ⟩
  have hh := hg.ready b c hbox
  rcases h with hkilled | ⟨k, hk, hcount⟩
  · rw [hkilled] at hth
    exact absurd hth (by simp only [reduceCtorEq, not_false_eq_true])
  cases hout : callStep c s.mem pc with
  | wait next =>
      rw [hout, apply, if_pos hh, hk, RecLock.wait, if_pos rfl] at happ
      rw [← Option.some.inj happ]
      -- It gets past its wait, and the count is one more than before the call.
      exact Or.inr ⟨k + 1, rfl, fun _ _ _ _ _ => Nat.succ_ne_zero k⟩
  | go c' mem' next =>
      rcases callStep_go c c' s.mem mem' pc next hout with ⟨hin, -, -, -⟩
      rw [hout, apply, Option.some.injEq] at happ
      rw [← happ]
      refine Or.inr ⟨k, hk, fun _ _ _ _ _ => hcount b pc hth hin (fun result hr => ?_)⟩
      -- A call that moves on has not failed yet.
      rw [hr] at hout
      exact absurd hout (by simp only [callStep, reduceCtorEq, not_false_eq_true])
  | fault =>
      rw [hout, apply, Option.some.injEq] at happ
      rw [← happ]
      exact Or.inl (by simp only [System.setThread, if_true])
  | ret release code result =>
      rw [hout, apply, Option.some.injEq] at happ
      rw [← happ]
      have hidle : ∀ (s₁ : System) b' pc', (s₁.setThread t .idle).threads t ≠ .inCall b' pc' := by
        intro s₁ b' pc'
        simp only [System.setThread, if_true, ne_eq, reduceCtorEq, not_false_eq_true]
      rcases callStep_ret _ _ _ _ _ _ hout with ⟨rfl, rfl, -⟩ | ⟨rfl, rfl, -⟩
      -- The release takes back what this call has added, and no more.
      · have hpos : k ≠ 0 := hcount b _ hth trivial
          (fun _ => by simp only [ne_eq, reduceCtorEq, not_false_eq_true])
        rcases Nat.exists_eq_succ_of_ne_zero hpos with ⟨j, rfl⟩
        refine Or.inr ⟨j, ?_, fun b' pc' hb' => absurd hb' (hidle _ b' pc')⟩
        simp only [System.setThread, Bool.true_and, if_pos hh, hk, RecLock.release, if_true]
      · refine Or.inr ⟨k, ?_, fun b' pc' hb' => absurd hb' (hidle _ b' pc')⟩
        simp only [System.setThread, Bool.false_and, Bool.false_eq_true, if_false, hk]

/-- A mutex kept stays kept, whatever happens next. -/
theorem stuck_step (t : Nat) (s : System) (l : Label) (s' : System) (hg : Guarded s)
    (h : Stuck t s) (hstep : step s l = some s') : Stuck t s' := by
  cases l with
  | construct b n heap =>
      rcases step_construct_cases s s' b n heap hstep with ⟨-, rfl⟩
      exact h
  | construction b ok lastError =>
      rcases step_construction_cases s s' b ok lastError hstep with ⟨pc, n, c, -, rfl⟩
      rcases constructorStep_frame s b n c ok lastError pc with ⟨hth, -, hmx, -, -⟩
      exact stuck_of_frame t s _ h hmx (by rw [hth])
  | call u b call =>
      rcases step_call_cases s s' u b call hstep with ⟨hidle, -, rfl⟩
      by_cases htu : t = u
      · rcases h with hkilled | ⟨k, hk, -⟩
        · rw [htu, hidle] at hkilled
          exact absurd hkilled (by simp only [reduceCtorEq, not_false_eq_true])
        · refine Or.inr ⟨k, hk, fun b' pc hb' hin => ?_⟩
          -- It waits again, so it is not inside.
          simp only [System.setThread, htu, if_true, Thread.inCall.injEq] at hb'
          rw [← hb'.2] at hin
          exact absurd hin (fun hf => hf)
      · exact stuck_of_frame t s _ h rfl (by simp only [System.setThread, if_neg htu])
  | step u =>
      by_cases htu : t = u
      · subst htu
        exact stuck_self t s s' hg h hstep
      · have hsame := step_others s s' u t hstep htu
        rcases h with hkilled | ⟨k, hk, hcount⟩
        · exact Or.inl (hsame.trans hkilled)
        · refine Or.inr ⟨k, mutex_of_held t u k s s' hg hk htu hstep, ?_⟩
          rw [hsame]
          exact hcount

/-- A step that does not pass leaves its thread stuck. -/
theorem stuck_of_not_passes (s : System) (l : Label) (s' : System) (hg : Guarded s)
    (hpass : ¬ Passes s l) (hstep : step s l = some s') : ∃ t, Stuck t s' := by
  cases l with
  | construct b n heap => exact absurd trivial hpass
  | construction b ok lastError => exact absurd trivial hpass
  | call t b call => exact absurd trivial hpass
  | step t =>
      rcases step_cases s s' t hstep with ⟨b, pc, c, hth, hbox, happ⟩
      rw [passes_step s t b pc c hth hbox] at hpass
      -- Only a test fails, and a test is a step inside the call.
      cases hout : callStep c s.mem pc with
      | wait next =>
          rcases callStep_wait _ _ _ _ hout with ⟨n, p, rfl, -⟩ | ⟨alloc, out, rfl, -⟩
          · exact absurd trivial hpass
          · exact absurd trivial hpass
      | fault =>
          rcases callStep_fault _ _ _ hout with ⟨n, data, rfl⟩ | ⟨buffer, out, rfl⟩
          · exact absurd trivial hpass
          · exact absurd trivial hpass
      | ret release code result =>
          rcases callStep_ret _ _ _ _ _ _ hout with ⟨rfl, -, -⟩ | ⟨rfl, -, -⟩
          · exact absurd trivial hpass
          · exact absurd trivial hpass
      | go c' mem' next =>
          -- The thread owns the mutex here, and goes on to the return that keeps it.
          rcases (callStep_fails c c' s.mem mem' pc next hout).mpr hpass with ⟨result, rfl⟩
          rcases callStep_go c c' s.mem mem' pc _ hout with ⟨hin, -, -, -⟩
          have howner := hg.owner t ⟨b, pc, hth, hin⟩
          rw [hout, apply, Option.some.injEq] at happ
          rw [← happ]
          cases hm : s.mutex with
          | free =>
              rw [hm] at howner
              exact absurd howner (by simp only [RecLock.owner, reduceCtorEq, not_false_eq_true])
          | held o k =>
              rw [hm, RecLock.owner, Option.some.injEq] at howner
              refine ⟨t, Or.inr ⟨k, by rw [← howner]; rfl, fun b' pc' hb' _ hne => ?_⟩⟩
              simp only [System.setThread, if_true, Thread.inCall.injEq] at hb'
              exact absurd hb'.2.symm (hne result)

/-- From a guarded state, a run that ends idle, with no thread ended and the
    mutex free, passed at every step. Induction on the run: the first step
    that did not pass would have left a thread stuck to its end. -/
theorem passes_of_free (ls : List Label) (s s' : System) (hg : Guarded s)
    (hrun : Machine.run step s ls = some s') (halive : ∀ t, s'.threads t ≠ .killed)
    (hfree : s'.mutex = .free) : Machine.StepsMeet step Passes s ls := by
  induction ls generalizing s with
  | nil => trivial
  | cons l ls ih =>
      rcases (Machine.run_cons step s s' l ls).mp hrun with ⟨m, hm, hrest⟩
      have hgm := guarded_step s l m hg hm
      refine ⟨?_, fun m' hm' => ?_⟩
      · by_contra hpass
        rcases stuck_of_not_passes s l m hg hpass hm with ⟨t, ht⟩
        have hend := Machine.run_invariant step (fun s₁ => Guarded s₁ ∧ Stuck t s₁)
          (fun s₁ l' s₂ h₁ h₂ =>
            ⟨guarded_step s₁ l' s₂ h₁.1 h₂, stuck_step t s₁ l' s₂ h₁.1 h₁.2 h₂⟩)
          m s' ls ⟨hgm, ht⟩ hrest
        rcases hend.2 with hkilled | ⟨k, hk, -⟩
        · exact halive t hkilled
        · rw [hfree] at hk
          exact absurd hk (by simp only [reduceCtorEq, not_false_eq_true])
      · rw [hm, Option.some.injEq] at hm'
        exact hm' ▸ ih m hgm hrest

/-- In every run over valid handles and in every state in which nobody is in a
    call, the mutex is free if every step so far passed its test; and only
    then, unless a thread that had failed was ended since. -/
theorem released_iff (ls : List Label) (s : System)
    (hrun : Machine.run step (start true) ls = some s) (hidle : NoCall s) :
    (Machine.StepsMeet step Passes (start true) ls → s.mutex = .free) ∧
      ((∀ t, s.threads t ≠ .killed) → s.mutex = .free →
        Machine.StepsMeet step Passes (start true) ls) := by
  constructor
  · intro hpass
    have hend := Machine.run_invariant_of_stepsMeet step Passes (fun s₁ => Guarded s₁ ∧ Held s₁)
      (fun s₁ l s₂ h₁ hp h₂ => ⟨guarded_step s₁ l s₂ h₁.1 h₂, held_step s₁ l s₂ h₁.1 h₁.2 hp h₂⟩)
      (start true) s ls ⟨guarded_start, ⟨fun _ _ _ => by
        simp only [start, ne_eq, reduceCtorEq, not_false_eq_true], Or.inl rfl⟩⟩ hpass hrun
    -- A thread that held the mutex would be in a call.
    rcases hend.2.mutex with hfree | ⟨t, -, b, pc, hth, -⟩
    · exact hfree
    · exact absurd hth (hidle t b pc)
  · intro halive hfree
    exact passes_of_free ls (start true) s guarded_start hrun halive hfree

/-- A container is constructed and one byte is written to it. -/
def oneWrite : List Label :=
  constructAll 0 true ++ [.call 0 0 (.writeData 1 (some [7]))] ++ List.replicate 5 (.step 0)

/-- A run in which only thread 0 called, and it came back. -/
theorem noCall_of_zero (ls : List Label) (s : System)
    (hadm : ∀ l ∈ ls, Environment.Admits ⟨true, fun t => t = 0, false⟩ l)
    (hrun : Machine.run step (start true) ls = some s) (hidle : s.threads 0 = .idle) :
    NoCall s := by
  intro t b pc ht
  have hzero := onlyCallers_run _ ls _ s hadm (onlyCallers_of_idle _ _ rfl) hrun t b pc ht
  rw [hzero, hidle] at ht
  exact absurd ht (by simp only [reduceCtorEq, not_false_eq_true])

/-- Every step of it passes, and the mutex is free at its end. -/
theorem released_iff_oneWrite : ∃ s, Machine.run step (start true) oneWrite = some s ∧
    s.mutex = .free := by
  have hrun : (Machine.run step (start true) oneWrite).map (fun s => s.threads 0)
      = some .idle := by decide +kernel
  rcases Option.map_eq_some_iff.mp hrun with ⟨s, hs, hidle⟩
  have hno : NoCall s := by
    refine noCall_of_zero oneWrite s (fun l hl => ?_) hs hidle
    simp only [oneWrite, List.mem_append, List.mem_singleton] at hl
    rcases hl with (hl | rfl) | hl
    · exact admits_constructAll _ 0 true (fun _ => rfl) l hl
    · exact rfl
    · rw [List.eq_of_mem_replicate hl]
      exact trivial
  exact ⟨s, hs, (released_iff oneWrite s hs hno).1 (by decide +kernel)⟩

/-- A container is constructed and polled with nothing in it. -/
def emptyPoll : List Label :=
  constructAll 0 true ++ [.call 0 0 (.readData true ⟨0, none⟩)] ++ List.replicate 3 (.step 0)

/-- Nobody is in a call any more, and the thread that polled owns the mutex. -/
theorem emptyPoll_keeps : ∃ s, Machine.run step (start true) emptyPoll = some s ∧ NoCall s ∧
    s.mutex.owner = some 0 := by
  refine ⟨_, rfl, noCall_of_zero emptyPoll _ (fun l hl => ?_) rfl rfl, rfl⟩
  simp only [emptyPoll, List.mem_append, List.mem_singleton] at hl
  rcases hl with (hl | rfl) | hl
  · exact admits_constructAll _ 0 true (fun _ => rfl) l hl
  · exact rfl
  · rw [List.eq_of_mem_replicate hl]
    exact trivial

end Threads

end Ipc

end Defender
