import Defender.Lib.Machine
import Defender.Lib.RecLock
import Defender.Ipc.Mmf

/-!
# Containers and Callers Interleaved

What `Ipc.Mmf` does in one go, step by step and by several threads at once. A
process constructs its container in five steps, one for each kernel call of
the constructor; a thread that calls `WriteData` or `ReadData` waits for the
mutex, goes through the body one memory access at a time, and releases. Any
container and any thread may take the next step.

A null `m_hMutex` makes the wait return at once and the release fail. Every
failing return of the source leaves without the release, and so it does here.
A copy that leaves its buffers is an access violation: it ends the thread's
process, and the system frees a mutex its owner died with.

The constructor's kernel calls can fail for reasons outside the program. A
`construction` label says whether the call of that step succeeds and what
`GetLastError` would return, and `construct` brings the values the heap held
where the object is built, since not every field is assigned.

A thread's calls are recorded as they return, with their results. This
history is not in the source; it is what the statements about delivery are
about.

## Main definitions

* `CallPc`: Where a call is in the source.
* `callStep`: One step of a call on its container and the mapping.
* `ConstructorPc`, `constructorStep`: The same for the constructor.
* `System`, `step`: All containers and threads, and one step of one of them.
* `start`: Before anything is constructed.
* `Inside`: Between the wait and the release.

## Theorems

* `apply_wait`: A wait that is over.
* `step_cases`, `step_others`: What a step of a thread can do, and what it
  leaves alone.
* `run_writeData`: A call that is not interrupted is `writeData`.
* `run_readData`: The same for `readData`.
-/

namespace Defender

namespace Ipc

namespace Threads

open Wire

/-- A call of a thread: its parameters, and whether its `new` succeeds. -/
inductive IpcCall where
  | writeData (dwDataSize : UInt32) (pData : Option (List UInt8))
  | readData (alloc : Bool) (out : ReadOut)
  deriving DecidableEq

/-- What a call leaves its caller with, besides the code it returns. -/
inductive CallResult where
  | writeData (dwDataSize : UInt32) (pData : Option (List UInt8))
  | readData (out : ReadOut)
  deriving DecidableEq

/-- Where a call is in the source. -/
inductive CallPc where
  | waiting (call : IpcCall)
  | writeChecking (dwDataSize : UInt32) (pData : Option (List UInt8))
  | writeCopying (dwDataSize : UInt32) (data : List UInt8)
  | writeUpdating (dwDataSize : UInt32) (data : List UInt8)
  | readChecking (alloc : Bool) (out : ReadOut)
  | readAllocating (alloc : Bool) (out : ReadOut)
  | readCopying (buffer : List UInt8) (out : ReadOut)
  | readSizing (buffer : List UInt8) (out : ReadOut)
  | readResetting (buffer : List UInt8) (out : ReadOut)
  | releasing (result : CallResult)
  | failing (result : CallResult)
  deriving DecidableEq

/-- What one step of a call comes to. -/
inductive Outcome where
  | wait (next : CallPc)
  | go (c : CWLIPCMmf) (mem : List UInt8) (next : CallPc)
  | fault
  | ret (release : Bool) (code : UInt32) (result : CallResult)

/-- One step of a call on the container it uses and on the mapped memory. -/
def callStep (c : CWLIPCMmf) (mem : List UInt8) : CallPc → Outcome
  | .waiting (.writeData n p) => .wait (.writeChecking n p)
  | .waiting (.readData alloc out) => .wait (.readChecking alloc out)
  | .writeChecking n none =>
      .go (c.failed .nullPointerError) mem (.failing (.writeData n none))
  | .writeChecking n (some data) =>
      if c.pMapView = false then
        .go (c.failed .mapViewOfFileError) mem (.failing (.writeData n (some data)))
      else if curDataSize mem + n > c.dwMmfSize then
        .go (c.failed .writeDataOutRangeError) mem (.failing (.writeData n (some data)))
      else .go c mem (.writeCopying n data)
  | .writeCopying n data =>
      match memcpy mem (4 + (curDataSize mem).toNat) data n.toNat with
      | none => .fault
      | some mem' => .go c mem' (.writeUpdating n data)
  | .writeUpdating n data =>
      .go c (poke mem 0 (le32 (curDataSize mem + n))) (.releasing (.writeData n (some data)))
  | .readChecking alloc out =>
      if c.pMapView = false then
        .go (c.failed .mapViewOfFileError) mem (.failing (.readData out))
      else if curDataSize mem = 0 then
        .go (c.failed .writeDataOutRangeError) mem
          (.failing (.readData { out with pDataBuffer := none }))
      else .go c mem (.readAllocating alloc { out with pDataBuffer := none })
  | .readAllocating alloc out =>
      if alloc = false then .go (c.failed .catchError) mem (.failing (.readData out))
      else .go c mem (.readCopying (List.replicate (curDataSize mem + 1).toNat 0) out)
  | .readCopying buffer out =>
      match memcpy buffer 0 (mem.drop 4) (curDataSize mem).toNat with
      | none => .fault
      | some buffer' => .go c mem (.readSizing buffer' out)
  | .readSizing buffer out =>
      .go c mem (.readResetting buffer { out with dwDataSize := curDataSize mem })
  | .readResetting buffer out =>
      .go c (poke mem 0 (le32 0)) (.releasing
        (.readData { out with pDataBuffer := some (buffer.take out.dwDataSize.toNat) }))
  | .releasing result => .ret true 0 result
  | .failing result => .ret false c.dwErrorCode result

/-- The kernel calls of the constructor, in order. -/
inductive ConstructorPc where
  | openMutex
  | createMutex
  | openFileMapping
  | createFileMapping
  | mapViewOfFile
  deriving DecidableEq

/-- A container: not there yet, under construction, or ready for calls. -/
inductive Box where
  | absent
  | constructing (pc : ConstructorPc) (dwMmfSize : UInt32) (c : CWLIPCMmf)
  | ready (c : CWLIPCMmf)
  deriving DecidableEq

/-- A thread of some process: idle, in a call on a container, or ended by an
    access violation. -/
inductive Thread where
  | idle
  | inCall (box : Nat) (pc : CallPc)
  | killed
  deriving DecidableEq

/-- A call that has returned. -/
structure Returned where
  thread : Nat
  code : UInt32
  result : CallResult
  deriving DecidableEq

/-- The named mutex and mapping, the containers, the threads, and the calls
    that have returned. A mutex that does not exist is free. -/
structure System where
  mutexExists : Bool
  mutex : RecLock Nat
  mapping : Option (List UInt8)
  boxes : Nat → Box
  threads : Nat → Thread
  history : List Returned

/-- The bytes of the mapping, none before it exists. -/
def System.mem (s : System) : List UInt8 :=
  s.mapping.getD []

def System.setBox (s : System) (b : Nat) (x : Box) : System :=
  { s with boxes := fun i => if i = b then x else s.boxes i }

def System.setThread (s : System) (t : Nat) (x : Thread) : System :=
  { s with threads := fun i => if i = t then x else s.threads i }

/-- The size `CreateFileMapping` is asked for, a DWORD sum, in whole pages. -/
def mappingSize (dwMmfSize : UInt32) : Nat :=
  ((4 + dwMmfSize.toNat) % 2 ^ 32 + 4095) / 4096 * 4096

/-- `CreateFileMapping`: a name that is taken gives the mapping there is, and
    a mapping of no bytes cannot be made. -/
def createFileMapping (mapping : Option (List UInt8)) (dwMmfSize : UInt32) (ok : Bool) :
    Bool × Option (List UInt8) :=
  if ok = false then (false, mapping)
  else
    match mapping with
    | some mem => (true, some mem)
    | none =>
        if mappingSize dwMmfSize = 0 then (false, none)
        else (true, some (List.replicate (mappingSize dwMmfSize) 0))

/-- One step of `CWLIPCMmf::CWLIPCMmf` for container `b`. -/
def constructorStep (s : System) (b : Nat) (n : UInt32) (c : CWLIPCMmf) (ok : Bool)
    (lastError : UInt32) : ConstructorPc → System
  | .openMutex => s.setBox b (.constructing .createMutex n { c with hMutex := s.mutexExists })
  | .createMutex =>
      -- The source tests `if (m_hMutex)`: only a handle that opened is made
      -- again, and a null one stays null.
      if c.hMutex = true then
        { s with mutexExists := true }.setBox b
          (.constructing .openFileMapping n { c with hMutex := true })
      else s.setBox b (.constructing .openFileMapping n c)
  | .openFileMapping =>
      s.setBox b (.constructing .createFileMapping n { c with hMff := s.mapping.isSome && ok })
  | .createFileMapping =>
      if c.hMff = true then
        s.setBox b (.constructing .mapViewOfFile n
          { c with dwErrorCode := if c.hMutex = true then c.dwErrorCode else lastError })
      else
        let made := createFileMapping s.mapping n ok
        { s with mapping := made.2 }.setBox b (.constructing .mapViewOfFile n
          { c with
            hMff := made.1
            dwErrorCode := if (made.1 && c.hMutex) = true then c.dwErrorCode else lastError })
  | .mapViewOfFile =>
      if c.hMff = true then
        if ok = true then s.setBox b (.ready { c with pMapView := true, dwMmfSize := n })
        else s.setBox b (.ready { c with pMapView := false, dwErrorCode := lastError })
      else s.setBox b (.ready c)

/-- What happens next: a container begins to be constructed, goes on, a thread
    begins a call, or goes on. -/
inductive Label where
  | construct (b : Nat) (dwMmfSize : UInt32) (heap : CWLIPCMmf)
  | construction (b : Nat) (ok : Bool) (lastError : UInt32)
  | call (t b : Nat) (call : IpcCall)
  | step (t : Nat)
  deriving DecidableEq

/-- What a step of thread `t`, in a call on container `b`, does to the
    system. -/
def apply (s : System) (t b : Nat) (c : CWLIPCMmf) : Outcome → Option System
  | .wait next =>
      if c.hMutex = true then
        match s.mutex.wait t with
        | none => none
        | some m => some ({ s with mutex := m }.setThread t (.inCall b next))
      else some (s.setThread t (.inCall b next))
  | .go c' mem' next =>
      some (({ s with mapping := s.mapping.map (fun _ => mem') }.setBox b (.ready c')).setThread t
        (.inCall b next))
  -- A thread that is ended leaves its mutex abandoned, and the next wait gets it.
  | .fault => some ({ s with mutex := s.mutex.abandon t }.setThread t .killed)
  | .ret release code result =>
      some ({ s with
        mutex := if (release && c.hMutex) = true then s.mutex.release t else s.mutex
        history := s.history ++ [Returned.mk t code result] }.setThread t .idle)

/-- One step of the system, if the label is enabled. -/
def step (s : System) : Label → Option System
  | .construct b n heap =>
      match s.boxes b with
      | .absent => some (s.setBox b (.constructing .openMutex n { heap with pMapView := false }))
      | _ => none
  | .construction b ok lastError =>
      match s.boxes b with
      | .constructing pc n c => some (constructorStep s b n c ok lastError pc)
      | _ => none
  | .call t b call =>
      match s.threads t, s.boxes b with
      | .idle, .ready _ => some (s.setThread t (.inCall b (.waiting call)))
      | _, _ => none
  | .step t =>
      match s.threads t with
      | .inCall b pc =>
          match s.boxes b with
          | .ready c => apply s t b c (callStep c s.mem pc)
          | _ => none
      | _ => none

/-- Nothing constructed and no calls; the mapping does not exist, and the
    mutex exists only if another program made it. -/
def start (mutexExists : Bool) : System where
  mutexExists := mutexExists
  mutex := .free
  mapping := none
  boxes := fun _ => .absent
  threads := fun _ => .idle
  history := []

/-- Past the wait. -/
def CallPc.IsInside : CallPc → Prop
  | .waiting _ => False
  | _ => True

/-- The thread is between its wait and its release. -/
def Inside (s : System) (t : Nat) : Prop :=
  ∃ b pc, s.threads t = .inCall b pc ∧ pc.IsInside

/-- No two threads are between their wait and their release. -/
def Exclusive (s : System) : Prop :=
  ∀ t u, Inside s t → Inside s u → t = u

theorem inside_setThread_self (s : System) (t b : Nat) (pc : CallPc) :
    Inside (s.setThread t (.inCall b pc)) t ↔ pc.IsInside := by
  unfold Inside
  simp only [System.setThread, if_true, Thread.inCall.injEq]
  constructor
  · rintro ⟨b', pc', ⟨rfl, rfl⟩, hpc⟩
    exact hpc
  · intro hpc
    exact ⟨b, pc, ⟨rfl, rfl⟩, hpc⟩

theorem not_inside_setThread (s : System) (t : Nat) (x : Thread)
    (hx : ∀ b pc, x ≠ .inCall b pc) : ¬ Inside (s.setThread t x) t := by
  rintro ⟨b, pc, hth, -⟩
  simp only [System.setThread, if_true] at hth
  exact hx b pc hth

/-- Whether a thread is inside depends on that thread alone. -/
theorem inside_congr (s s' : System) (t : Nat) (h : s'.threads t = s.threads t) :
    Inside s' t ↔ Inside s t := by
  unfold Inside
  rw [h]

theorem inside_setThread_of_ne (s : System) (t u : Nat) (x : Thread) (h : u ≠ t) :
    Inside (s.setThread t x) u ↔ Inside s u :=
  inside_congr s _ u (by simp only [System.setThread, if_neg h])

/-- When a thread leaves its call, those inside are others, and were inside before. -/
theorem inside_of_leaves (s : System) (t u : Nat) (x : Thread) (hx : ∀ b pc, x ≠ .inCall b pc)
    (h : Inside (s.setThread t x) u) : u ≠ t ∧ Inside s u := by
  have hut : u ≠ t := fun heq => not_inside_setThread s t x hx (heq ▸ h)
  exact ⟨hut, (inside_setThread_of_ne s t u x hut).mp h⟩

/-- A constructor's step leaves the threads, the other containers and a
    mapping that exists alone. -/
theorem constructorStep_frame (s : System) (b : Nat) (n : UInt32) (c : CWLIPCMmf) (ok : Bool)
    (lastError : UInt32) (pc : ConstructorPc) :
    (constructorStep s b n c ok lastError pc).threads = s.threads ∧
      (constructorStep s b n c ok lastError pc).history = s.history ∧
      (constructorStep s b n c ok lastError pc).mutex = s.mutex ∧
      (∀ i, i ≠ b → (constructorStep s b n c ok lastError pc).boxes i = s.boxes i) ∧
      ((constructorStep s b n c ok lastError pc).mapping = s.mapping ∨
        s.mapping = none ∧ mappingSize n ≠ 0 ∧
          (constructorStep s b n c ok lastError pc).mapping
            = some (List.replicate (mappingSize n) 0)) := by
  have hbox : ∀ (s' : System) (x : Box) (i : Nat), i ≠ b → (s'.setBox b x).boxes i = s'.boxes i :=
    fun s' x i hi => by simp only [System.setBox, if_neg hi]
  cases pc with
  | openMutex => exact ⟨rfl, rfl, rfl, hbox s _, Or.inl rfl⟩
  | createMutex =>
      simp only [constructorStep]
      split
      · exact ⟨rfl, rfl, rfl, hbox _ _, Or.inl rfl⟩
      · exact ⟨rfl, rfl, rfl, hbox s _, Or.inl rfl⟩
  | openFileMapping => exact ⟨rfl, rfl, rfl, hbox s _, Or.inl rfl⟩
  | createFileMapping =>
      simp only [constructorStep]
      split
      · exact ⟨rfl, rfl, rfl, hbox s _, Or.inl rfl⟩
      · refine ⟨rfl, rfl, rfl, hbox _ _, ?_⟩
        -- Only a name that is free and a size that is not zero make a mapping.
        simp only [System.setBox, createFileMapping]
        split
        · exact Or.inl rfl
        · cases hm : s.mapping with
          | some mem => exact Or.inl rfl
          | none =>
              simp only []
              split
              · exact Or.inl rfl
              · exact Or.inr ⟨trivial, ‹_›, rfl⟩
  | mapViewOfFile =>
      simp only [constructorStep]
      split
      · split
        · exact ⟨rfl, rfl, rfl, hbox s _, Or.inl rfl⟩
        · exact ⟨rfl, rfl, rfl, hbox s _, Or.inl rfl⟩
      · exact ⟨rfl, rfl, rfl, hbox s _, Or.inl rfl⟩

/-- A wait comes first in a call, and ends inside. -/
theorem callStep_wait (c : CWLIPCMmf) (mem : List UInt8) (pc next : CallPc)
    (h : callStep c mem pc = .wait next) :
    (∃ n p, pc = .waiting (.writeData n p) ∧ next = .writeChecking n p) ∨
      ∃ alloc out, pc = .waiting (.readData alloc out) ∧ next = .readChecking alloc out := by
  unfold callStep at h
  split at h
  · exact Or.inl ⟨_, _, rfl, (Outcome.wait.inj h).symm⟩
  · exact Or.inr ⟨_, _, rfl, (Outcome.wait.inj h).symm⟩
  all_goals
    first
    | exact absurd h (by simp only [reduceCtorEq, not_false_eq_true])
    | (split at h <;> first
        | exact absurd h (by simp only [reduceCtorEq, not_false_eq_true])
        | (split at h <;> exact absurd h (by simp only [reduceCtorEq, not_false_eq_true])))

/-- A step inside a call stays inside, and the container keeps its handles. -/
theorem callStep_go (c c' : CWLIPCMmf) (mem mem' : List UInt8) (pc next : CallPc)
    (h : callStep c mem pc = .go c' mem' next) :
    pc.IsInside ∧ next.IsInside ∧ c'.hMutex = c.hMutex ∧ c'.pMapView = c.pMapView := by
  unfold callStep at h
  split at h
  all_goals
    first
    | (rcases Outcome.go.inj h with ⟨rfl, rfl, rfl⟩; exact ⟨trivial, trivial, rfl, rfl⟩)
    | exact absurd h (by simp only [reduceCtorEq, not_false_eq_true])
    | (split at h <;> first
        | (rcases Outcome.go.inj h with ⟨rfl, rfl, rfl⟩; exact ⟨trivial, trivial, rfl, rfl⟩)
        | exact absurd h (by simp only [reduceCtorEq, not_false_eq_true])
        | (split at h <;>
            (rcases Outcome.go.inj h with ⟨rfl, rfl, rfl⟩; exact ⟨trivial, trivial, rfl, rfl⟩)))

/-- Only a copy faults. -/
theorem callStep_fault (c : CWLIPCMmf) (mem : List UInt8) (pc : CallPc)
    (h : callStep c mem pc = .fault) :
    (∃ n data, pc = .writeCopying n data) ∨ ∃ buffer out, pc = .readCopying buffer out := by
  unfold callStep at h
  split at h
  case h_5 => exact Or.inl ⟨_, _, rfl⟩
  case h_9 => exact Or.inr ⟨_, _, rfl⟩
  all_goals
    first
    | exact absurd h (by simp only [reduceCtorEq, not_false_eq_true])
    | (split at h <;> first
        | exact absurd h (by simp only [reduceCtorEq, not_false_eq_true])
        | (split at h <;> exact absurd h (by simp only [reduceCtorEq, not_false_eq_true])))

/-- A call returns zero after its release, or its error code without one. -/
theorem callStep_ret (c : CWLIPCMmf) (mem : List UInt8) (pc : CallPc) (release : Bool)
    (code : UInt32) (result : CallResult) (h : callStep c mem pc = .ret release code result) :
    (pc = .releasing result ∧ release = true ∧ code = 0) ∨
      (pc = .failing result ∧ release = false ∧ code = c.dwErrorCode) := by
  unfold callStep at h
  split at h
  case h_12 =>
    rcases Outcome.ret.inj h with ⟨rfl, rfl, rfl⟩
    exact Or.inl ⟨rfl, rfl, rfl⟩
  case h_13 =>
    rcases Outcome.ret.inj h with ⟨rfl, rfl, rfl⟩
    exact Or.inr ⟨rfl, rfl, rfl⟩
  all_goals
    first
    | exact absurd h (by simp only [reduceCtorEq, not_false_eq_true])
    | (split at h <;> first
        | exact absurd h (by simp only [reduceCtorEq, not_false_eq_true])
        | (split at h <;> exact absurd h (by simp only [reduceCtorEq, not_false_eq_true])))

/-- A wait for a mutex that is there is over when the mutex is the thread's. -/
theorem apply_wait {s s' : System} {t b : Nat} {c : CWLIPCMmf} {next : CallPc}
    (hh : c.hMutex = true) (happ : apply s t b c (.wait next) = some s') :
    ∃ m, s.mutex.wait t = some m ∧ s' = { s with mutex := m }.setThread t (.inCall b next) := by
  rw [apply, if_pos hh] at happ
  cases hw : s.mutex.wait t with
  | none =>
      rw [hw] at happ
      exact absurd happ (by simp only [reduceCtorEq, not_false_eq_true])
  | some m =>
      rw [hw] at happ
      exact ⟨m, rfl, (Option.some.inj happ).symm⟩

/-- What a step of a thread can do: its call waits, moves on, faults or
    returns, and `apply` is the rest of the system. -/
theorem step_cases (s s' : System) (t : Nat) (h : step s (.step t) = some s') :
    ∃ b pc c, s.threads t = .inCall b pc ∧ s.boxes b = .ready c ∧
      apply s t b c (callStep c s.mem pc) = some s' := by
  simp only [step] at h
  cases hth : s.threads t with
  | idle =>
      rw [hth] at h
      exact absurd h (by simp only [reduceCtorEq, not_false_eq_true])
  | killed =>
      rw [hth] at h
      exact absurd h (by simp only [reduceCtorEq, not_false_eq_true])
  | inCall b pc =>
      cases hbox : s.boxes b with
      | absent =>
          rw [hth] at h
          simp only [hbox] at h
          exact absurd h (by simp only [reduceCtorEq, not_false_eq_true])
      | constructing cpc n c =>
          rw [hth] at h
          simp only [hbox] at h
          exact absurd h (by simp only [reduceCtorEq, not_false_eq_true])
      | ready c =>
          rw [hth] at h
          simp only [hbox] at h
          exact ⟨b, pc, c, rfl, hbox, h⟩

/-- A step of one thread leaves the others where they are. -/
theorem step_others (s s' : System) (t u : Nat) (h : step s (.step t) = some s') (hu : u ≠ t) :
    s'.threads u = s.threads u := by
  rcases step_cases s s' t h with ⟨b, pc, c, -, -, happ⟩
  cases hout : callStep c s.mem pc with
  | wait next =>
      rw [hout, apply] at happ
      split at happ
      · split at happ
        · exact absurd happ (by simp only [reduceCtorEq, not_false_eq_true])
        · rw [← Option.some.inj happ]
          simp only [System.setThread, if_neg hu]
      · rw [← Option.some.inj happ]
        simp only [System.setThread, if_neg hu]
  | go c' mem' next =>
      rw [hout, apply, Option.some.injEq] at happ
      rw [← happ]
      simp only [System.setThread, System.setBox, if_neg hu]
  | fault =>
      rw [hout, apply, Option.some.injEq] at happ
      rw [← happ]
      simp only [System.setThread, if_neg hu]
  | ret release code result =>
      rw [hout, apply, Option.some.injEq] at happ
      rw [← happ]
      simp only [System.setThread, if_neg hu]

/-- A begun call: the thread was idle, the container ready. -/
theorem step_call_cases (s s' : System) (t b : Nat) (call : IpcCall)
    (h : step s (.call t b call) = some s') :
    s.threads t = .idle ∧ (∃ c, s.boxes b = .ready c) ∧
      s' = s.setThread t (.inCall b (.waiting call)) := by
  simp only [step] at h
  cases hth : s.threads t with
  | inCall b' pc =>
      rw [hth] at h
      exact absurd h (by simp only [reduceCtorEq, not_false_eq_true])
  | killed =>
      rw [hth] at h
      exact absurd h (by simp only [reduceCtorEq, not_false_eq_true])
  | idle =>
      cases hbox : s.boxes b with
      | absent =>
          rw [hth, hbox] at h
          exact absurd h (by simp only [reduceCtorEq, not_false_eq_true])
      | constructing cpc n c =>
          rw [hth, hbox] at h
          exact absurd h (by simp only [reduceCtorEq, not_false_eq_true])
      | ready c =>
          rw [hth, hbox] at h
          simp only [Option.some.injEq] at h
          exact ⟨rfl, ⟨c, rfl⟩, h.symm⟩

/-- A construction begins where there is no container yet. -/
theorem step_construct_cases (s s' : System) (b : Nat) (n : UInt32) (heap : CWLIPCMmf)
    (h : step s (.construct b n heap) = some s') :
    s.boxes b = .absent ∧
      s' = s.setBox b (.constructing .openMutex n { heap with pMapView := false }) := by
  simp only [step] at h
  cases hbox : s.boxes b with
  | absent =>
      rw [hbox] at h
      simp only [Option.some.injEq] at h
      exact ⟨rfl, h.symm⟩
  | constructing cpc n c =>
      rw [hbox] at h
      exact absurd h (by simp only [reduceCtorEq, not_false_eq_true])
  | ready c =>
      rw [hbox] at h
      exact absurd h (by simp only [reduceCtorEq, not_false_eq_true])

/-- A construction goes on where one has begun. -/
theorem step_construction_cases (s s' : System) (b : Nat) (ok : Bool) (lastError : UInt32)
    (h : step s (.construction b ok lastError) = some s') :
    ∃ pc n c, s.boxes b = .constructing pc n c ∧
      s' = constructorStep s b n c ok lastError pc := by
  simp only [step] at h
  cases hbox : s.boxes b with
  | constructing cpc n c =>
      rw [hbox] at h
      simp only [Option.some.injEq] at h
      exact ⟨cpc, n, c, rfl, h.symm⟩
  | absent =>
      rw [hbox] at h
      exact absurd h (by simp only [reduceCtorEq, not_false_eq_true])
  | ready c =>
      rw [hbox] at h
      exact absurd h (by simp only [reduceCtorEq, not_false_eq_true])

/-- Thread `t` is at `pc` of a call on container `b`, the mapping holds `mem`
    and `returned` has come back so far. -/
structure At (s : System) (t b : Nat) (c : CWLIPCMmf) (mem : List UInt8) (pc : CallPc)
    (returned : List Returned) : Prop where
  thread : s.threads t = .inCall b pc
  box : s.boxes b = .ready c
  mapping : s.mapping = some mem
  history : s.history = returned

/-- A step inside a call. -/
theorem step_go (s : System) (t b : Nat) (c c' : CWLIPCMmf) (mem mem' : List UInt8)
    (pc next : CallPc) (returned : List Returned) (hat : At s t b c mem pc returned)
    (h : callStep c mem pc = .go c' mem' next) :
    ∃ s', step s (.step t) = some s' ∧ At s' t b c' mem' next returned := by
  have hmem : s.mem = mem := by rw [System.mem, hat.mapping, Option.getD_some]
  refine ⟨_, by simp only [step, hat.thread, hat.box, hmem, h, apply]; rfl, ?_, ?_, ?_, ?_⟩
  · simp only [System.setThread, if_true]
  · simp only [System.setThread, System.setBox, if_true]
  · simp only [System.setThread, System.setBox, hat.mapping, Option.map_some]
  · exact hat.history

/-- Left to itself, thread `t` comes back from its call, with these results. -/
def ComesBack (s : System) (t b : Nat) (c : CWLIPCMmf) (mem : List UInt8)
    (returned : List Returned) : Prop :=
  ∃ k s', Machine.run step s (List.replicate k (.step t)) = some s' ∧ s'.threads t = .idle ∧
    s'.boxes b = .ready c ∧ s'.mapping = some mem ∧ s'.history = returned

theorem comesBack_of_step (s m : System) (t b : Nat) (c : CWLIPCMmf) (mem : List UInt8)
    (returned : List Returned) (h : step s (.step t) = some m)
    (hback : ComesBack m t b c mem returned) : ComesBack s t b c mem returned := by
  rcases hback with ⟨k, s', hrun, hrest⟩
  exact ⟨k + 1, s', (Machine.run_cons step s s' _ _).mpr ⟨m, h, hrun⟩, hrest⟩

/-- A step inside a call leaves the rest of it to do. -/
theorem comesBack_go (s : System) (t b : Nat) (c c' cEnd : CWLIPCMmf)
    (mem mem' memEnd : List UInt8) (pc next : CallPc) (returned back : List Returned)
    (hat : At s t b c mem pc returned) (h : callStep c mem pc = .go c' mem' next)
    (hrest : ∀ m, At m t b c' mem' next returned → ComesBack m t b cEnd memEnd back) :
    ComesBack s t b cEnd memEnd back := by
  rcases step_go s t b c c' mem mem' pc next returned hat h with ⟨m, hstep, hat'⟩
  exact comesBack_of_step s m t b cEnd memEnd back hstep (hrest m hat')

/-- The last step of a call. -/
theorem comesBack_ret (s : System) (t b : Nat) (c : CWLIPCMmf) (mem : List UInt8) (pc : CallPc)
    (release : Bool) (code : UInt32) (result : CallResult) (returned : List Returned)
    (hat : At s t b c mem pc returned) (h : callStep c mem pc = .ret release code result) :
    ComesBack s t b c mem (returned ++ [⟨t, code, result⟩]) := by
  have hmem : s.mem = mem := by rw [System.mem, hat.mapping, Option.getD_some]
  refine ⟨1, _, (Machine.run_cons step _ _ _ _).mpr
    ⟨_, by simp only [step, hat.thread, hat.box, hmem, h, apply]; rfl, Machine.run_nil step _⟩,
    ?_, ?_, ?_, ?_⟩
  · simp only [System.setThread, if_true]
  · exact hat.box
  · exact hat.mapping
  · simp only [System.setThread, hat.history]

/-- A call begins and gets past its wait when the mutex is there for it. -/
theorem step_begin (s : System) (t b : Nat) (c : CWLIPCMmf) (mem : List UInt8) (call : IpcCall)
    (next : CallPc) (hidle : s.threads t = .idle) (hbox : s.boxes b = .ready c)
    (hmapping : s.mapping = some mem)
    (hmutex : c.hMutex = true → (s.mutex.wait t).isSome = true)
    (h : callStep c mem (.waiting call) = .wait next) :
    ∃ s', Machine.run step s [.call t b call, .step t] = some s' ∧
      At s' t b c mem next s.history := by
  have hcall : step s (.call t b call) = some (s.setThread t (.inCall b (.waiting call))) := by
    simp only [step, hidle, hbox]
  have hmem : (s.setThread t (.inCall b (.waiting call))).mem = mem := by
    rw [System.mem, System.setThread, hmapping, Option.getD_some]
  by_cases hh : c.hMutex = true
  · rcases Option.isSome_iff_exists.mp (hmutex hh) with ⟨m, hm⟩
    refine ⟨({ s.setThread t (.inCall b (.waiting call)) with mutex := m }).setThread t
      (.inCall b next), ?_, ?_, hbox, hmapping, rfl⟩
    · refine (Machine.run_cons step _ _ _ _).mpr ⟨_, hcall, (Machine.run_cons step _ _ _ _).mpr
        ⟨_, ?_, Machine.run_nil step _⟩⟩
      have hth : (s.setThread t (.inCall b (.waiting call))).threads t
          = .inCall b (.waiting call) := by simp only [System.setThread, if_true]
      have hbx : (s.setThread t (.inCall b (.waiting call))).boxes b = .ready c := hbox
      have hmx : (s.setThread t (.inCall b (.waiting call))).mutex.wait t = some m := hm
      simp only [step, hth, hbx, hmem, h, apply, hh, if_true, hmx]
    · simp only [System.setThread, if_true]
  · refine ⟨(s.setThread t (.inCall b (.waiting call))).setThread t
      (.inCall b next), ?_, ?_, hbox, hmapping, rfl⟩
    · refine (Machine.run_cons step _ _ _ _).mpr ⟨_, hcall, (Machine.run_cons step _ _ _ _).mpr
        ⟨_, ?_, Machine.run_nil step _⟩⟩
      have hth : (s.setThread t (.inCall b (.waiting call))).threads t
          = .inCall b (.waiting call) := by simp only [System.setThread, if_true]
      have hbx : (s.setThread t (.inCall b (.waiting call))).boxes b = .ready c := hbox
      simp only [step, hth, hbx, hmem, h, apply, if_neg hh]
    · simp only [System.setThread, if_true]

/-- A failing step comes back with its error code, the mutex kept. -/
theorem comesBack_fail (s : System) (t b : Nat) (c : CWLIPCMmf) (mem : List UInt8) (pc : CallPc)
    (e : IpcErrorCode) (result : CallResult) (returned : List Returned)
    (hat : At s t b c mem pc returned)
    (h : callStep c mem pc = .go (c.failed e) mem (.failing result)) :
    ComesBack s t b (c.failed e) mem (returned ++ [⟨t, e.toDword, result⟩]) :=
  comesBack_go s t b c _ _ mem mem _ pc _ returned _ hat h
    (fun m hat' => comesBack_ret m t b _ mem _ false _ result returned hat' rfl)

/-- A `WriteData` that is not interrupted is `writeData`. -/
theorem run_writeData (s : System) (t b : Nat) (c c' : CWLIPCMmf) (mem mem' : List UInt8)
    (n code : UInt32) (pData : Option (List UInt8)) (hidle : s.threads t = .idle)
    (hbox : s.boxes b = .ready c) (hmapping : s.mapping = some mem)
    (hmutex : c.hMutex = true → (s.mutex.wait t).isSome = true)
    (h : writeData c mem n pData = some (code, c', mem')) :
    ∃ m, Machine.run step s [.call t b (.writeData n pData), .step t] = some m ∧
      ComesBack m t b c' mem' (s.history ++ [⟨t, code, .writeData n pData⟩]) := by
  rcases step_begin s t b c mem (.writeData n pData) (.writeChecking n pData) hidle hbox hmapping
    hmutex rfl with ⟨m, hrun, hat⟩
  refine ⟨m, hrun, ?_⟩
  unfold writeData writeDataInternal at h
  cases pData with
  | none =>
      simp only [Option.some.injEq, Prod.mk.injEq] at h
      rcases h with ⟨rfl, rfl, rfl⟩
      exact comesBack_fail m t b c mem _ _ _ _ hat rfl
  | some data =>
      by_cases hmap : c.pMapView = false
      · simp only [if_pos hmap, Option.some.injEq, Prod.mk.injEq] at h
        rcases h with ⟨rfl, rfl, rfl⟩
        exact comesBack_fail m t b c mem _ _ _ _ hat (by rw [callStep, if_pos hmap])
      · by_cases hfit : curDataSize mem + n > c.dwMmfSize
        · simp only [if_neg hmap, if_pos hfit, Option.some.injEq, Prod.mk.injEq] at h
          rcases h with ⟨rfl, rfl, rfl⟩
          exact comesBack_fail m t b c mem _ _ _ _ hat
            (by rw [callStep, if_neg hmap, if_pos hfit])
        · simp only [if_neg hmap, if_neg hfit] at h
          -- Three steps: the copy, the count, the release.
          cases hcopy : memcpy mem (4 + (curDataSize mem).toNat) data n.toNat with
          | none =>
              rw [hcopy] at h
              exact absurd h (by simp only [reduceCtorEq, not_false_eq_true])
          | some mid =>
              simp only [hcopy, Option.some.injEq, Prod.mk.injEq] at h
              rcases h with ⟨rfl, rfl, rfl⟩
              refine comesBack_go m t b c c c mem mem _ _ (.writeCopying n data) _ _ hat
                (by rw [callStep, if_neg hmap, if_neg hfit]) (fun m₁ hat₁ => ?_)
              refine comesBack_go m₁ t b c c c mem mid _ _ (.writeUpdating n data) _ _ hat₁
                (by simp only [callStep, hcopy]) (fun m₂ hat₂ => ?_)
              exact comesBack_go m₂ t b c c c mid _ _ _ _ _ _ hat₂ rfl
                (fun m₃ hat₃ => comesBack_ret m₃ t b c _ _ true 0 _ _ hat₃ rfl)

/-- A `ReadData` that is not interrupted is `readData`. -/
theorem run_readData (s : System) (t b : Nat) (c c' : CWLIPCMmf) (mem mem' : List UInt8)
    (alloc : Bool) (code : UInt32) (out out' : ReadOut) (hidle : s.threads t = .idle)
    (hbox : s.boxes b = .ready c) (hmapping : s.mapping = some mem)
    (hmutex : c.hMutex = true → (s.mutex.wait t).isSome = true)
    (h : readData c mem alloc out = some (code, c', mem', out')) :
    ∃ m, Machine.run step s [.call t b (.readData alloc out), .step t] = some m ∧
      ComesBack m t b c' mem' (s.history ++ [⟨t, code, .readData out'⟩]) := by
  rcases step_begin s t b c mem (.readData alloc out) (.readChecking alloc out) hidle hbox hmapping
    hmutex rfl with ⟨m, hrun, hat⟩
  refine ⟨m, hrun, ?_⟩
  unfold readData readDataInternal at h
  by_cases hmap : c.pMapView = false
  · simp only [if_pos hmap, Option.some.injEq, Prod.mk.injEq] at h
    rcases h with ⟨rfl, rfl, rfl, rfl⟩
    exact comesBack_fail m t b c mem _ _ _ _ hat (by rw [callStep, if_pos hmap])
  by_cases hempty : curDataSize mem = 0
  · simp only [if_neg hmap, if_pos hempty, Option.some.injEq, Prod.mk.injEq] at h
    rcases h with ⟨rfl, rfl, rfl, rfl⟩
    exact comesBack_fail m t b c mem _ _ _ _ hat
      (by rw [callStep, if_neg hmap, if_pos hempty])
  simp only [if_neg hmap, if_neg hempty] at h
  refine comesBack_go m t b c c c' mem mem _ _
    (.readAllocating alloc { out with pDataBuffer := none }) _ _ hat
    (by rw [callStep, if_neg hmap, if_neg hempty]) (fun m₁ hat₁ => ?_)
  by_cases halloc : alloc = false
  · simp only [if_pos halloc, Option.some.injEq, Prod.mk.injEq] at h
    rcases h with ⟨rfl, rfl, rfl, rfl⟩
    exact comesBack_fail m₁ t b c mem _ _ _ _ hat₁ (by rw [callStep, if_pos halloc])
  simp only [if_neg halloc] at h
  refine comesBack_go m₁ t b c c c' mem mem _ _ (.readCopying
    (List.replicate (curDataSize mem + 1).toNat 0) { out with pDataBuffer := none }) _ _ hat₁
    (by rw [callStep, if_neg halloc]) (fun m₂ hat₂ => ?_)
  -- Four more: the copy, the size, the count, the release.
  cases hcopy : memcpy (List.replicate (curDataSize mem + 1).toNat 0) 0 (mem.drop 4)
      (curDataSize mem).toNat with
  | none =>
      rw [hcopy] at h
      exact absurd h (by simp only [reduceCtorEq, not_false_eq_true])
  | some buffer =>
      simp only [hcopy, Option.some.injEq, Prod.mk.injEq] at h
      rcases h with ⟨rfl, rfl, rfl, rfl⟩
      refine comesBack_go m₂ t b c c c mem mem _ _
        (.readSizing buffer { out with pDataBuffer := none }) _ _ hat₂
        (by simp only [callStep, hcopy]) (fun m₃ hat₃ => ?_)
      refine comesBack_go m₃ t b c c c mem mem _ _ _ _ _ hat₃ rfl (fun m₄ hat₄ => ?_)
      exact comesBack_go m₄ t b c c c mem _ _ _ _ _ _ hat₄ rfl
        (fun m₅ hat₅ => comesBack_ret m₅ t b c _ _ true 0 _ _ hat₅ rfl)

end Threads

end Ipc

end Defender
