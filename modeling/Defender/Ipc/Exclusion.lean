import Defender.Ipc.Ledger

/-!
# Who Excludes Whom

The constructor opens the named mutex, and only if that works does it create
one. So the mutex is never made: every handle of a system that starts without
it is null, every wait returns at once, and nothing keeps two calls apart.
What the container promises, that calls exclude each other and no accepted
block is lost or delivered twice, holds exactly when something other than the
constructor provides it: the mutex was there before, or there is only one
caller.

The promise has a second gap. An unmapped view is reported by the first member
of the error enumeration, which is zero, so a `WriteData` on it looks
accepted. That is why the mapping calls of the constructors are part of the
condition.

## Main definitions

* `Guarded`: Every handle is valid and whoever is inside owns the mutex.
* `OnlyCallers`: Nobody but the callers is in a call.

## Theorems

* `guarded_step`: With the mutex there, waiting keeps others out.
* `exclusion_iff`: The promise holds exactly under the condition.
* `exclusion_broken`: Two processes inside at once.
-/

namespace Defender

namespace Ipc

namespace Threads

open Wire

/-- The mutex exists, every container has a handle to it, and whoever is
    inside owns it. -/
structure Guarded (s : System) : Prop where
  mutexExists : s.mutexExists = true
  ready : ∀ b c, s.boxes b = .ready c → c.hMutex = true
  constructing : ∀ b pc n c, s.boxes b = .constructing pc n c → pc ≠ .openMutex → c.hMutex = true
  owner : ∀ t, Inside s t → s.mutex.owner = some t

theorem Guarded.exclusive (s : System) (h : Guarded s) : Exclusive s := by
  intro t u ht hu
  have heq := (h.owner t ht).symm.trans (h.owner u hu)
  exact Option.some.inj heq

theorem guarded_start : Guarded (start true) where
  mutexExists := rfl
  ready := fun _ _ h => absurd h (by simp only [start, reduceCtorEq, not_false_eq_true])
  constructing := fun _ _ _ _ h => absurd h (by simp only [start, reduceCtorEq, not_false_eq_true])
  owner := fun _ h => by
    rcases h with ⟨b, pc, hth, -⟩
    exact absurd hth (by simp only [start, reduceCtorEq, not_false_eq_true])

/-- What a constructor's step makes of its own container, once the mutex
    exists: the handle is valid from the first step on. -/
theorem constructorStep_handle (s : System) (b : Nat) (n : UInt32) (c : CWLIPCMmf) (ok : Bool)
    (lastError : UInt32) (pc : ConstructorPc) (hex : s.mutexExists = true)
    (hc : pc ≠ .openMutex → c.hMutex = true) :
    (constructorStep s b n c ok lastError pc).mutexExists = true ∧
      ((∃ pc' c', (constructorStep s b n c ok lastError pc).boxes b = .constructing pc' n c' ∧
          c'.hMutex = true) ∨
        ∃ c', (constructorStep s b n c ok lastError pc).boxes b = .ready c' ∧
          c'.hMutex = true) := by
  have hbox : ∀ (s' : System) (x : Box), (s'.setBox b x).boxes b = x :=
    fun s' x => by simp only [System.setBox, if_true]
  -- The mutex is there, so that opening it succeeds and nothing later closes the handle.
  cases pc with
  | openMutex => exact ⟨hex, Or.inl ⟨_, _, hbox s _, hex⟩⟩
  | createMutex =>
      have hh := hc (by decide)
      simp only [constructorStep, if_pos hh]
      exact ⟨rfl, Or.inl ⟨_, _, hbox _ _, rfl⟩⟩
  | openFileMapping =>
      have hh := hc (by decide)
      exact ⟨hex, Or.inl ⟨_, _, hbox s _, hh⟩⟩
  | createFileMapping =>
      have hh := hc (by decide)
      simp only [constructorStep]
      split
      · exact ⟨hex, Or.inl ⟨_, _, hbox s _, hh⟩⟩
      · exact ⟨hex, Or.inl ⟨_, _, hbox _ _, hh⟩⟩
  | mapViewOfFile =>
      have hh := hc (by decide)
      simp only [constructorStep]
      split
      · split
        · exact ⟨hex, Or.inr ⟨_, hbox s _, hh⟩⟩
        · exact ⟨hex, Or.inr ⟨_, hbox s _, hh⟩⟩
      · exact ⟨hex, Or.inr ⟨_, hbox s _, hh⟩⟩

/-- The containers of a guarded state stay guarded when container `b` becomes
    one with a valid handle. -/
theorem guarded_of_box (s s' : System) (b : Nat) (h : Guarded s) (hex : s'.mutexExists = true)
    (hothers : ∀ i, i ≠ b → s'.boxes i = s.boxes i)
    (hready : ∀ c, s'.boxes b = .ready c → c.hMutex = true)
    (hbuild : ∀ pc n c, s'.boxes b = .constructing pc n c → pc ≠ .openMutex → c.hMutex = true)
    (howner : ∀ t, Inside s' t → s'.mutex.owner = some t) : Guarded s' := by
  refine ⟨hex, fun i c hi => ?_, fun i pc n c hi hpc => ?_, howner⟩
  · by_cases hib : i = b
    · rw [hib] at hi
      exact hready c hi
    · rw [hothers i hib] at hi
      exact h.ready i c hi
  · by_cases hib : i = b
    · rw [hib] at hi
      exact hbuild pc n c hi hpc
    · rw [hothers i hib] at hi
      exact h.constructing i pc n c hi hpc

/-- A step of a thread keeps whoever is inside the owner. Four cases, for the
    four things a step of a call can come to. -/
theorem guarded_thread (s s' : System) (t : Nat) (h : Guarded s)
    (hstep : step s (.step t) = some s') : Guarded s' := by
  rcases step_cases s s' t hstep with ⟨b, pc, c, hth, hbox, happ⟩
  have hh := h.ready b c hbox
  cases hout : callStep c s.mem pc with
  | wait next =>
      rw [hout] at happ
      rcases apply_wait hh happ with ⟨m, hw, rfl⟩
      refine ⟨h.mutexExists, h.ready, h.constructing, fun u hu => ?_⟩
      -- Another thread inside would own the mutex that `t` just took.
      by_cases hut : u = t
      · rw [hut]
        exact RecLock.owner_wait t s.mutex m hw
      · rw [inside_setThread_of_ne _ t u _ hut] at hu
        exact absurd (h.owner u hu) (RecLock.wait_owner_of_ne t u s.mutex m hw hut)
  | go c' mem' next =>
      rcases callStep_go c c' s.mem mem' pc next hout with ⟨hin, -, hh', -⟩
      simp only [hout, apply, Option.some.injEq] at happ
      subst happ
      refine guarded_of_box s _ b h h.mutexExists (fun i hi => ?_) (fun c₁ hc₁ => ?_)
        (fun pc₁ n₁ c₁ hc₁ _ => ?_) (fun u hu => ?_)
      · simp only [System.setThread, System.setBox, if_neg hi]
      · simp only [System.setThread, System.setBox, if_true, Box.ready.injEq] at hc₁
        rw [← hc₁, hh', hh]
      · simp only [System.setThread, System.setBox, if_true] at hc₁
        exact absurd hc₁ (by simp only [reduceCtorEq, not_false_eq_true])
      · by_cases hut : u = t
        · rw [hut]
          exact h.owner t ⟨b, pc, hth, hin⟩
        · rw [inside_setThread_of_ne _ t u _ hut] at hu
          exact h.owner u hu
  | fault =>
      simp only [hout, apply, Option.some.injEq] at happ
      subst happ
      refine ⟨h.mutexExists, h.ready, h.constructing, fun u hu => ?_⟩
      rcases inside_of_leaves _ t u _ (fun _ _ => by
        simp only [ne_eq, reduceCtorEq, not_false_eq_true]) hu with ⟨hut, hu'⟩
      exact RecLock.owner_abandon_of_ne t u s.mutex (h.owner u hu') hut
  | ret release code result =>
      simp only [hout, apply, Option.some.injEq] at happ
      subst happ
      refine ⟨h.mutexExists, h.ready, h.constructing, fun u hu => ?_⟩
      rcases inside_of_leaves _ t u _ (fun _ _ => by
        simp only [ne_eq, reduceCtorEq, not_false_eq_true]) hu with ⟨hut, hu'⟩
      simp only [System.setThread]
      split
      · exact RecLock.owner_release_of_ne t u s.mutex (h.owner u hu') hut
      · exact h.owner u hu'

/-- With the mutex there, every step keeps whoever is inside its owner. -/
theorem guarded_step (s : System) (l : Label) (s' : System) (h : Guarded s)
    (hstep : step s l = some s') : Guarded s' := by
  -- Only a thread's own step changes who owns the mutex; the others leave it.
  cases l with
  | construct b n heap =>
      rcases step_construct_cases s s' b n heap hstep with ⟨-, rfl⟩
      refine guarded_of_box s _ b h h.mutexExists (fun i hi => ?_) (fun c hc => ?_)
        (fun pc₁ n₁ c₁ hc₁ hpc => ?_) h.owner
      · simp only [System.setBox, if_neg hi]
      · simp only [System.setBox, if_true] at hc
        exact absurd hc (by simp only [reduceCtorEq, not_false_eq_true])
      · simp only [System.setBox, if_true, Box.constructing.injEq] at hc₁
        exact absurd hc₁.1.symm hpc
  | construction b ok lastError =>
      rcases step_construction_cases s s' b ok lastError hstep with ⟨pc, n, c, hbox, rfl⟩
      rcases constructorStep_frame s b n c ok lastError pc with ⟨hth, -, hmx, hothers, -⟩
      rcases constructorStep_handle s b n c ok lastError pc h.mutexExists
        (h.constructing b pc n c hbox) with ⟨hex, hnew⟩
      refine guarded_of_box s _ b h hex hothers (fun c₁ hc₁ => ?_) (fun pc₁ n₁ c₁ hc₁ _ => ?_)
        (fun t ht => ?_)
      · rcases hnew with ⟨pc', c', hb, -⟩ | ⟨c', hb, hc'⟩
        · exact absurd (hb.symm.trans hc₁) (by simp only [reduceCtorEq, not_false_eq_true])
        · rwa [← Box.ready.inj (hb.symm.trans hc₁)]
      · rcases hnew with ⟨pc', c', hb, hc'⟩ | ⟨c', hb, -⟩
        · rwa [← (Box.constructing.inj (hb.symm.trans hc₁)).2.2]
        · exact absurd (hb.symm.trans hc₁) (by simp only [reduceCtorEq, not_false_eq_true])
      · rw [hmx]
        exact h.owner t ((inside_congr s _ t (by rw [hth])).mp ht)
  | call t b call =>
      rcases step_call_cases s s' t b call hstep with ⟨-, -, rfl⟩
      refine ⟨h.mutexExists, h.ready, h.constructing, fun u hu => ?_⟩
      by_cases hut : u = t
      · rw [hut, inside_setThread_self] at hu
        exact absurd hu (fun hf => hf)
      · exact h.owner u ((inside_setThread_of_ne s t u _ hut).mp hu)
  | step t => exact guarded_thread s s' t h hstep

/-! ### A single caller, and none -/

/-- Only the callers of the environment are in a call. -/
def OnlyCallers (env : Environment) (s : System) : Prop :=
  ∀ t b pc, s.threads t = .inCall b pc → env.callers t

theorem onlyCallers_step (env : Environment) (s : System) (l : Label) (s' : System)
    (hadm : env.Admits l) (h : OnlyCallers env s) (hstep : step s l = some s') :
    OnlyCallers env s' := by
  -- A step sets one thread, and that is one of the callers.
  have hset : ∀ (s₁ : System) (t : Nat) (x : Thread), s₁.threads = s.threads → env.callers t →
      OnlyCallers env (s₁.setThread t x) := by
    intro s₁ t x hs₁ ht u b' pc' hu
    by_cases hut : u = t
    · rw [hut]
      exact ht
    · simp only [System.setThread, if_neg hut, hs₁] at hu
      exact h u b' pc' hu
  cases l with
  | construct b n heap =>
      rcases step_construct_cases s s' b n heap hstep with ⟨-, rfl⟩
      exact h
  | construction b ok lastError =>
      rcases step_construction_cases s s' b ok lastError hstep with ⟨pc, n, c, -, rfl⟩
      intro t b' pc' ht
      rw [(constructorStep_frame s b n c ok lastError pc).1] at ht
      exact h t b' pc' ht
  | call t b call =>
      rcases step_call_cases s s' t b call hstep with ⟨-, -, rfl⟩
      exact hset s t _ rfl hadm
  | step t =>
      rcases step_cases s s' t hstep with ⟨b, pc, c, hth, -, happ⟩
      have ht := h t b pc hth
      cases hout : callStep c s.mem pc with
      | wait next =>
          rw [hout, apply] at happ
          split at happ
          · split at happ
            · exact absurd happ (by simp only [reduceCtorEq, not_false_eq_true])
            · exact Option.some.inj happ ▸ hset _ t _ rfl ht
          · exact Option.some.inj happ ▸ hset s t _ rfl ht
      | go c' mem' next =>
          simp only [hout, apply, Option.some.injEq] at happ
          exact happ ▸ hset _ t _ rfl ht
      | fault =>
          simp only [hout, apply, Option.some.injEq] at happ
          exact happ ▸ hset _ t _ rfl ht
      | ret release code result =>
          simp only [hout, apply, Option.some.injEq] at happ
          exact happ ▸ hset _ t _ rfl ht

/-- A run of the environment has only its callers in a call. -/
theorem onlyCallers_run (env : Environment) (ls : List Label) (s s' : System)
    (hadm : ∀ l ∈ ls, env.Admits l) (h : OnlyCallers env s)
    (hrun : Machine.run step s ls = some s') : OnlyCallers env s' :=
  Machine.run_invariant_of_stepsMeet step (fun _ l => env.Admits l) (OnlyCallers env)
    (fun s₁ l s₂ h₁ hl => onlyCallers_step env s₁ l s₂ hl h₁) s s' ls h
    (Machine.stepsMeet_of_forall step _ _ _ (fun _ l hl => hadm l hl)) hrun

theorem onlyCallers_of_idle (env : Environment) (s : System) (h : s.threads = fun _ => .idle) :
    OnlyCallers env s := by
  intro t b pc ht
  rw [h] at ht
  exact absurd ht (by simp only [reduceCtorEq, not_false_eq_true])

/-- Callers that are all one thread exclude each other. -/
theorem OnlyCallers.exclusive (env : Environment) (s : System) (h : OnlyCallers env s)
    (hone : ∀ t u, env.callers t → env.callers u → t = u) : Exclusive s := by
  rintro t u ⟨b, pc, ht, -⟩ ⟨b', pc', hu, -⟩
  exact hone t u (h t b pc ht) (h u b' pc' hu)

/-- Nobody has called: nothing is pending and nothing has been returned. -/
structure Quiet (s : System) : Prop where
  nobody : ∀ t b pc, s.threads t ≠ .inCall b pc
  history : s.history = []
  pending : pending s.mem = []

theorem quiet_step (env : Environment) (hnone : ∀ t, ¬ env.callers t) (s : System) (l : Label)
    (s' : System) (hadm : env.Admits l) (h : Quiet s) (hstep : step s l = some s') : Quiet s' := by
  cases l with
  | construct b n heap =>
      rcases step_construct_cases s s' b n heap hstep with ⟨-, rfl⟩
      exact ⟨h.nobody, h.history, h.pending⟩
  | construction b ok lastError =>
      rcases step_construction_cases s s' b ok lastError hstep with ⟨pc, n, c, -, rfl⟩
      rcases constructorStep_frame s b n c ok lastError pc with ⟨hth, hhist, -, -, hmapping⟩
      refine ⟨by rw [hth]; exact h.nobody, hhist.trans h.history, ?_⟩
      rcases hmapping with hsame | ⟨-, hsize, hnew⟩
      · rw [System.mem, hsame]
        exact h.pending
      · rw [System.mem, hnew]
        exact (bound_replicate _ hsize n rfl).2
  | call t b call => exact absurd hadm (hnone t)
  | step t =>
      rcases step_cases s s' t hstep with ⟨b, pc, c, hth, -, -⟩
      exact absurd hth (h.nobody t b pc)

theorem Quiet.holds (s : System) (h : Quiet s) : Exclusive s ∧ Accounted s := by
  constructor
  · rintro t u ⟨b, pc, ht, -⟩
    exact absurd ht (h.nobody t b pc)
  · intro t _
    have hout : ¬ Inside s t := by
      rintro ⟨b, pc, ht, -⟩
      exact h.nobody t b pc ht
    rcases not_inside_inHand s t hout with ⟨ha, hk⟩
    rw [ha, hk, System.written, System.read, h.history, h.pending]
    exact ⟨[], [], rfl, rfl, rfl⟩

/-! ### When the promise holds -/

/-- An invariant that every step of the environment keeps and that excludes is
    all the accounting needs. -/
theorem ledger_run (env : Environment) (hok : env.mapOk = true) (Inv : System → Prop)
    (hexcl : ∀ s, Inv s → Exclusive s)
    (hinv : ∀ s l s', Inv s → env.Admits l → step s l = some s' → Inv s')
    (ls : List Label) (s s' : System) (hadm : ∀ l ∈ ls, env.Admits l) (h : Inv s)
    (hledger : Ledger s) (hrun : Machine.run step s ls = some s') :
    Exclusive s' ∧ Accounted s' := by
  induction ls generalizing s with
  | nil =>
      rw [Machine.run_nil, Option.some.injEq] at hrun
      exact hrun ▸ ⟨hexcl s h, hledger.accounted⟩
  | cons l ls ih =>
      rcases (Machine.run_cons step s s' l ls).mp hrun with ⟨m, hm, hrest⟩
      have hl := hadm l List.mem_cons_self
      exact ih m (fun l' hl' => hadm l' (List.mem_cons_of_mem l hl')) (hinv s l m h hl hm)
        (ledger_step env hok s l m hl (hexcl s h) hledger hm) hrest

/-- What the heap held where a container is built. -/
def freshHeap : CWLIPCMmf where
  dwErrorCode := 0
  hMff := false
  pMapView := false
  dwMmfSize := 0
  hMutex := false

/-- Container `b` is constructed for sixteen bytes, its last kernel call
    succeeding or not. -/
def constructAll (b : Nat) (ok : Bool) : List Label :=
  [.construct b 16 freshHeap, .construction b true 0, .construction b true 0,
    .construction b true 0, .construction b true 0, .construction b ok 0]

theorem admits_constructAll (env : Environment) (b : Nat) (ok : Bool)
    (hok : env.mapOk = true → ok = true) : ∀ l ∈ constructAll b ok, env.Admits l := by
  intro l hl
  simp only [constructAll, List.mem_cons, List.not_mem_nil, or_false] at hl
  rcases hl with rfl | rfl | rfl | rfl | rfl | rfl
  · exact fun _ => by decide
  · exact fun _ => rfl
  · exact fun _ => rfl
  · exact fun _ => rfl
  · exact fun _ => rfl
  · exact hok

/-- Two processes construct their containers without the mutex: both handles
    are null. -/
theorem run_constructTwo : ∃ s, Machine.run step (start false)
      (constructAll 0 true ++ constructAll 1 true) = some s ∧
    s.threads = (fun _ => .idle) ∧
      (∃ c, s.boxes 0 = .ready c ∧ c.hMutex = false) ∧
      ∃ c, s.boxes 1 = .ready c ∧ c.hMutex = false := by
  refine ⟨_, rfl, rfl, ⟨_, rfl, rfl⟩, ⟨_, rfl, rfl⟩⟩

/-- A process constructs its container and its view is not mapped. -/
theorem run_constructUnmapped (e : Bool) : ∃ s, Machine.run step (start e)
      (constructAll 0 false) = some s ∧
    s.threads = (fun _ => .idle) ∧ s.history = [] ∧ s.mutex = .free ∧
      s.mapping = some (List.replicate 4096 0) ∧
      s.boxes 0 = .ready { freshHeap with hMff := true, hMutex := e } := by
  cases e with
  | false => exact ⟨_, rfl, rfl, rfl, rfl, rfl, rfl⟩
  | true => exact ⟨_, rfl, rfl, rfl, rfl, rfl, rfl⟩

/-- A wait on a null handle takes no notice of who is inside. -/
theorem run_callNull (s : System) (t b : Nat) (c : CWLIPCMmf) (hbox : s.boxes b = .ready c)
    (hnull : c.hMutex = false) (hidle : s.threads t = .idle) :
    ∃ s' pc, Machine.run step s [.call t b (.readData true ⟨0, none⟩), .step t] = some s' ∧
      s'.boxes = s.boxes ∧ s'.threads t = .inCall b pc ∧ pc.IsInside ∧
        ∀ u, u ≠ t → s'.threads u = s.threads u := by
  have hwaiting : (s.setThread t (.inCall b (.waiting (.readData true ⟨0, none⟩)))).threads t
      = .inCall b (.waiting (.readData true ⟨0, none⟩)) := by
    simp only [System.setThread, if_true]
  refine ⟨(s.setThread t (.inCall b (.waiting (.readData true ⟨0, none⟩)))).setThread t
    (.inCall b (.readChecking true ⟨0, none⟩)), .readChecking true ⟨0, none⟩, ?_, rfl, ?_, trivial,
    fun u hu => ?_⟩
  · refine (Machine.run_cons step _ _ _ _).mpr ⟨_, by simp only [step, hidle, hbox]; rfl,
      (Machine.run_cons step _ _ _ _).mpr ⟨_, ?_, Machine.run_nil step _⟩⟩
    have hbox' : (s.setThread t (.inCall b (.waiting (.readData true ⟨0, none⟩)))).boxes b
        = .ready c := hbox
    simp only [step, hwaiting, hbox', callStep, apply, hnull, Bool.false_eq_true, if_false]
  · simp only [System.setThread, if_true]
  · simp only [System.setThread, if_neg hu]

/-- Without the mutex, any two callers can be inside together. -/
theorem not_exclusive_of_two (env : Environment) (hmutex : env.mutexExists = false) (t u : Nat)
    (ht : env.callers t) (hu : env.callers u) (htu : t ≠ u) :
    ∃ ls s, (∀ l ∈ ls, env.Admits l) ∧ Machine.run step (start env.mutexExists) ls = some s ∧
      ¬ Exclusive s := by
  rcases run_constructTwo with ⟨s, hrun, hth, ⟨c, hc, hnull⟩, ⟨c', hc', hnull'⟩⟩
  -- Each of the two waits on a null handle, one after the other.
  rcases run_callNull s t 0 c hc hnull (by rw [hth]) with ⟨s₁, pc₁, hrun₁, hb₁, ht₁, hin₁, hoth₁⟩
  rcases run_callNull s₁ u 1 c' (by rw [hb₁]; exact hc') hnull'
    (by rw [hoth₁ u (Ne.symm htu), hth]) with ⟨s₂, pc₂, hrun₂, -, hu₂, hin₂, hoth₂⟩
  refine ⟨constructAll 0 true ++ constructAll 1 true ++
    [.call t 0 (.readData true ⟨0, none⟩), .step t] ++
    [.call u 1 (.readData true ⟨0, none⟩), .step u], s₂, ?_, ?_, fun hex => htu ?_⟩
  · intro l hl
    simp only [List.mem_append] at hl
    rcases hl with ((hl | hl) | hl) | hl
    · exact admits_constructAll env 0 true (fun _ => rfl) l hl
    · exact admits_constructAll env 1 true (fun _ => rfl) l hl
    · simp only [List.mem_cons, List.not_mem_nil, or_false] at hl
      rcases hl with rfl | rfl
      · exact ht
      · exact trivial
    · simp only [List.mem_cons, List.not_mem_nil, or_false] at hl
      rcases hl with rfl | rfl
      · exact hu
      · exact trivial
  · rw [hmutex]
    exact (Machine.run_append step _ _ _ _).mpr
      ⟨s₁, (Machine.run_append step _ _ _ _).mpr ⟨s, hrun, hrun₁⟩, hrun₂⟩
  · exact hex t u ⟨0, pc₁, by rw [hoth₂ t htu, ht₁], hin₁⟩ ⟨1, pc₂, hu₂, hin₂⟩

/-- A write on an unmapped view returns zero, and its block is nowhere. -/
theorem not_accounted_of_unmapped (env : Environment) (hok : env.mapOk = false) (t : Nat)
    (ht : env.callers t) :
    ∃ ls s, (∀ l ∈ ls, env.Admits l) ∧ Machine.run step (start env.mutexExists) ls = some s ∧
      ¬ Accounted s := by
  rcases run_constructUnmapped env.mutexExists with ⟨s, hrun, hth, hhist, hfree, hmap, hbox⟩
  rcases run_writeData s t 0 _ _ _ _ 1 0 (some [1]) (by rw [hth]) hbox hmap
    (fun _ => by rw [hfree]; rfl) rfl with ⟨m, hrun₁, k, s', hrun₂, hidle, -, hmap', hhist'⟩
  refine ⟨constructAll 0 false ++ [.call t 0 (.writeData 1 (some [1])), .step t] ++
    List.replicate k (.step t), s', ?_, ?_, fun hacc => ?_⟩
  · intro l hl
    simp only [List.mem_append] at hl
    rcases hl with (hl | hl) | hl
    · exact admits_constructAll env 0 false (fun h => by rw [hok] at h; exact h) l hl
    · simp only [List.mem_cons, List.not_mem_nil, or_false] at hl
      rcases hl with rfl | rfl
      · exact ht
      · exact trivial
    · rw [List.eq_of_mem_replicate hl]
      exact trivial
  · exact (Machine.run_append step _ _ _ _).mpr
      ⟨m, (Machine.run_append step _ _ _ _).mpr ⟨s, hrun, hrun₁⟩, hrun₂⟩
  · -- Nobody else ever called, so the block would have to be pending.
    have hone : OnlyCallers { env with callers := fun u => u = t } s' := by
      refine onlyCallers_run _
        ([.call t 0 (.writeData 1 (some [1])), .step t] ++ List.replicate k (.step t)) s s'
        (fun l hl => ?_) (onlyCallers_of_idle _ s hth)
        ((Machine.run_append step _ _ _ _).mpr ⟨m, hrun₁, hrun₂⟩)
      simp only [List.mem_append, List.mem_cons, List.not_mem_nil, or_false] at hl
      rcases hl with (rfl | rfl) | hl
      · exact rfl
      · exact trivial
      · rw [List.eq_of_mem_replicate hl]
        exact trivial
    have hnobody : ∀ u, ¬ Inside s' u := by
      rintro u ⟨b, pc, hu, -⟩
      have hut : u = t := hone u b pc hu
      rw [hut, hidle] at hu
      exact absurd hu (by simp only [reduceCtorEq, not_false_eq_true])
    rcases hacc t (fun u hu => absurd hu (hnobody u)) with ⟨groups, rest, hw, hr, hp⟩
    rcases not_inside_inHand s' t (hnobody t) with ⟨ha, hk⟩
    rw [ha, System.written, hhist', hhist] at hw
    rw [hk, System.read, hhist', hhist] at hr
    -- Nothing was read, and the mapping is as it was made.
    have hgroups : groups = [] := List.map_eq_nil_iff.mp hr.symm
    have hpend : pending s'.mem = [] := by
      rw [System.mem, hmap', Option.getD_some]
      exact (bound_replicate 4096 (by decide) 16 rfl).2
    rw [hgroups] at hw
    have hrest : [[1]] = rest := hw
    rw [hpend, ← hrest] at hp
    exact absurd hp (by decide)

/-- In every run of an environment, no two calls are ever inside together and
    every write that returned zero is accounted for, exactly when the mutex
    was there before or there is one caller, and the views get mapped. -/
theorem exclusion_iff (env : Environment) :
    (∀ ls s, (∀ l ∈ ls, env.Admits l) → Machine.run step (start env.mutexExists) ls = some s →
      Exclusive s ∧ Accounted s) ↔
    (env.mutexExists = true ∨ ∀ t u, env.callers t → env.callers u → t = u) ∧
      (env.mapOk = true ∨ ∀ t, ¬ env.callers t) := by
  constructor
  · intro h
    constructor
    · by_contra hc
      rw [not_or] at hc
      have hmutex : env.mutexExists = false := by
        rw [Bool.not_eq_true] at hc
        exact hc.1
      apply hc.2
      intro t u ht hu
      by_contra htu
      rcases not_exclusive_of_two env hmutex t u ht hu htu with ⟨ls, s, hadm, hrun, hbad⟩
      exact hbad (h ls s hadm hrun).1
    · by_contra hc
      rw [not_or, Bool.not_eq_true] at hc
      apply hc.2
      intro t ht
      rcases not_accounted_of_unmapped env hc.1 t ht with ⟨ls, s, hadm, hrun, hbad⟩
      exact hbad (h ls s hadm hrun).2
  · rintro ⟨hwho, hok | hnone⟩ ls s hadm hrun
    · rcases hwho with hmutex | hone
      · -- The mutex is there, so whoever is inside owns it.
        rw [hmutex] at hrun
        exact ledger_run env hok Guarded Guarded.exclusive
          (fun s₁ l s₂ h₁ _ => guarded_step s₁ l s₂ h₁) ls (start true) s hadm guarded_start
          (ledger_start true) hrun
      -- With one caller there is nobody to keep out.
      · refine ledger_run env hok (OnlyCallers env) (fun s₁ h₁ => h₁.exclusive env s₁ hone)
          (fun s₁ l s₂ h₁ hl => onlyCallers_step env s₁ l s₂ hl h₁) ls _ s hadm
          (onlyCallers_of_idle env _ rfl) (ledger_start _) hrun
    · -- Nobody calls, so nothing is ever written or read.
      refine Quiet.holds s (Machine.run_invariant_of_stepsMeet step (fun _ l => env.Admits l) Quiet
        (fun s₁ l s₂ h₁ hl => quiet_step env hnone s₁ l s₂ hl h₁) _ s ls ⟨?_, rfl, rfl⟩ ?_ hrun)
      · exact fun _ _ _ => by simp only [start, ne_eq, reduceCtorEq, not_false_eq_true]
      · exact Machine.stepsMeet_of_forall step _ _ _ (fun _ l hl => hadm l hl)

/-- Two processes construct their containers and call `ReadData` on them. -/
def twoProcesses : List Label :=
  constructAll 0 true ++ constructAll 1 true ++
    [.call 0 0 (.readData true ⟨0, none⟩), .call 1 1 (.readData true ⟨0, none⟩), .step 0, .step 1]

/-- From a system without the mutex, both end up inside. -/
theorem exclusion_broken : ∃ s, Machine.run step (start false) twoProcesses = some s ∧
    ¬ (Exclusive s ∧ Accounted s) := by
  refine ⟨_, rfl, fun h => ?_⟩
  have hboth := h.1 0 1 ⟨0, .readChecking true ⟨0, none⟩, rfl, trivial⟩
    ⟨1, .readChecking true ⟨0, none⟩, rfl, trivial⟩
  exact absurd hboth (by decide)

end Threads

end Ipc

end Defender
