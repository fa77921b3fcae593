import Mathlib.Data.List.Nodup
import Mathlib.Data.List.Range
import Defender.Lib.Machine
import Defender.SysLog.Reader

/-!
# The Handles and the Buffer of the Reader

`DoSystemEventThread` again, this time for what it does with its handle, its
buffer and its errors, one call of the system at a time. What each call comes to
is the label of a step, and may be anything.

The handles are numbered as they are opened. Whatever the calls come to, those
that were opened are the ones that were closed and the one that is open, in
order (`Kept.handles`), and a read has a buffer of the size it is told
(`Kept.buffer`). Two branches go wrong. When the log file has changed, the log is
opened again, and the loop is left when that succeeds; it goes on, with `NULL`,
when it fails. And the loop is left when a read that is repeated with a larger
buffer fails, with whatever error (`doSystemEventThread_survives_iff`).

## Main definitions

* `Pc`, `State`, `Label`, `step`: The thread.
* `Handled`, `Allowed`: The errors that the loop handles, and why it may be left.
* `Survives`: What is asked for.
* `Meets`: The steps that keep it.
* `Kept`: What holds whatever the calls come to.

## Theorems

* `step_kept`: A step keeps the handles and the buffer.
* `Kept.survives_iff`: What is left to be asked for then.
* `doSystemEventThread_survives_iff`: When the reader survives.
* `fileChanged_fails`: A log file that changes.
* `turn_labels`: The steps of a turn are the turn of the loop.
-/

namespace Defender

namespace SysLog

namespace Handles

open Machine

/-! ### The thread -/

/-- Why the loop is left, or not even begun. -/
inductive Reason where
  | exitFlag
  | noMemory
  | openFailed
  | readFailed (lastError : UInt32)
  | reopened
deriving DecidableEq

/-- Where the thread is. -/
inductive Pc where
  | allocating
  | opening
  | head
  | reading
  | reallocating
  | rereading
  | reopening
  | ending
  | ended
deriving DecidableEq

/-- The variables of the thread, of the buffer the size of its block, and what was done:
    the handles opened so far, those closed, and why the loop was left. -/
structure State where
  pc : Pc
  hSysEvent : Option Nat
  Buffer : Option UInt32
  BufferSize : UInt32
  opened : Nat
  closed : List Nat
  left : Option Reason
deriving DecidableEq

/-- What a call comes to: `malloc` and `OpenEventLogA` succeed or not, the exit flag is set or
    not, and `ReadEventLogA` succeeds or fails with an error and the size that it asks for. -/
inductive Label where
  | malloc (succeeds : Bool)
  | openEventLog (succeeds : Bool)
  | exitFlag (seen : Bool)
  | readEventLog (fails : Option (UInt32 × UInt32))
  | cleanUp
deriving DecidableEq

/-- The beginning of the thread. -/
def start : State where
  pc := .allocating
  hSysEvent := none
  Buffer := none
  BufferSize := 4096
  opened := 0
  closed := []
  left := none

namespace State

/-- `goto END` and `break`. -/
def leave (s : State) (r : Reason) : State :=
  { s with pc := .ending, left := some r }

/-- A handle that is opened. -/
def opens (s : State) : State :=
  { s with hSysEvent := some s.opened, opened := s.opened + 1 }

/-- `CloseEventLog (hSysEvent)`, which does nothing with `NULL`. -/
def closes (s : State) : State :=
  { s with closed := s.closed ++ s.hSysEvent.toList }

/-- `Buffer = malloc (BufferSize)`. -/
def allocates (s : State) : State :=
  { s with Buffer := some s.BufferSize }

end State

/-- A read that fails in the loop. -/
def readFails (s : State) (lastError dwNeeded : UInt32) : State :=
  if lastError = errorInsufficientBuffer then
    { s with Buffer := none, BufferSize := dwNeeded, pc := .reallocating }
  else if lastError = errorHandleEof then
    { s with pc := .head }
  else if lastError = errorEventLogFileChanged then
    { s.closes with pc := .reopening }
  else
    s.leave (.readFailed lastError)

/-- `DoSystemEventThread`, one call at a time. -/
def step (s : State) (l : Label) : Option State :=
  match s.pc, l with
  | .allocating, .malloc true => some { s.allocates with pc := .opening }
  | .allocating, .malloc false => some (s.leave .noMemory)
  | .opening, .openEventLog true => some { s.opens with pc := .head }
  | .opening, .openEventLog false => some (s.leave .openFailed)
  | .head, .exitFlag true => some (s.leave .exitFlag)
  | .head, .exitFlag false => some { s with pc := .reading }
  | .reading, .readEventLog none => some { s with pc := .head }
  | .reading, .readEventLog (some (lastError, dwNeeded)) => some (readFails s lastError dwNeeded)
  | .reallocating, .malloc true => some { s.allocates with pc := .rereading }
  | .reallocating, .malloc false => some (s.leave .noMemory)
  | .rereading, .readEventLog none => some { s with pc := .head }
  | .rereading, .readEventLog (some (lastError, _)) => some (s.leave (.readFailed lastError))
  -- The loop is left when the log could be opened again.
  | .reopening, .openEventLog true => some (s.opens.leave .reopened)
  | .reopening, .openEventLog false => some { s with hSysEvent := none, pc := .head }
  | .ending, .cleanUp => some { s.closes with Buffer := none, pc := .ended }
  | _, _ => none

/-- The steps, each with where it is taken. -/
inductive Stepped (s : State) : Label → State → Prop where
  | allocated (hpc : s.pc = .allocating) :
      Stepped s (.malloc true) { s.allocates with pc := .opening }
  | noMemory (hpc : s.pc = .allocating ∨ s.pc = .reallocating) :
      Stepped s (.malloc false) (s.leave .noMemory)
  | opened (hpc : s.pc = .opening) : Stepped s (.openEventLog true) { s.opens with pc := .head }
  | openFailed (hpc : s.pc = .opening) :
      Stepped s (.openEventLog false) (s.leave .openFailed)
  | exit (hpc : s.pc = .head) : Stepped s (.exitFlag true) (s.leave .exitFlag)
  | noExit (hpc : s.pc = .head) : Stepped s (.exitFlag false) { s with pc := .reading }
  | read (hpc : s.pc = .reading ∨ s.pc = .rereading) :
      Stepped s (.readEventLog none) { s with pc := .head }
  | readFailed (lastError dwNeeded : UInt32) (hpc : s.pc = .reading) :
      Stepped s (.readEventLog (some (lastError, dwNeeded))) (readFails s lastError dwNeeded)
  | reallocated (hpc : s.pc = .reallocating) :
      Stepped s (.malloc true) { s.allocates with pc := .rereading }
  | rereadFailed (lastError dwNeeded : UInt32) (hpc : s.pc = .rereading) :
      Stepped s (.readEventLog (some (lastError, dwNeeded))) (s.leave (.readFailed lastError))
  | reopened (hpc : s.pc = .reopening) :
      Stepped s (.openEventLog true) (s.opens.leave .reopened)
  | notReopened (hpc : s.pc = .reopening) :
      Stepped s (.openEventLog false) { s with hSysEvent := none, pc := .head }
  | cleanedUp (hpc : s.pc = .ending) :
      Stepped s .cleanUp { s.closes with Buffer := none, pc := .ended }

theorem stepped_of_step {s t : State} {l : Label} (h : step s l = some t) : Stepped s l t := by
  unfold step at h
  -- `split` would try every error and size, so the place and the outcome are fixed first
  cases l with
  | malloc succeeds =>
      cases succeeds <;> cases hpc : s.pc <;> rw [hpc] at h <;>
        simp only [Option.some.injEq, reduceCtorEq] at h
      · exact h ▸ .noMemory (Or.inl hpc)
      · exact h ▸ .noMemory (Or.inr hpc)
      · exact h ▸ .allocated hpc
      · exact h ▸ .reallocated hpc
  | openEventLog succeeds =>
      cases succeeds <;> cases hpc : s.pc <;> rw [hpc] at h <;>
        simp only [Option.some.injEq, reduceCtorEq] at h
      · exact h ▸ .openFailed hpc
      · exact h ▸ .notReopened hpc
      · exact h ▸ .opened hpc
      · exact h ▸ .reopened hpc
  | exitFlag seen =>
      cases seen <;> cases hpc : s.pc <;> rw [hpc] at h <;>
        simp only [Option.some.injEq, reduceCtorEq] at h
      · exact h ▸ .noExit hpc
      · exact h ▸ .exit hpc
  | readEventLog fails =>
      rcases fails with _ | ⟨lastError, dwNeeded⟩ <;> cases hpc : s.pc <;> rw [hpc] at h <;>
        simp only [Option.some.injEq, reduceCtorEq] at h
      · exact h ▸ .read (Or.inl hpc)
      · exact h ▸ .read (Or.inr hpc)
      · exact h ▸ .readFailed lastError dwNeeded hpc
      · exact h ▸ .rereadFailed lastError dwNeeded hpc
  | cleanUp =>
      cases hpc : s.pc <;> rw [hpc] at h <;> simp only [Option.some.injEq, reduceCtorEq] at h
      exact h ▸ .cleanedUp hpc

/-! ### What is asked for -/

/-- The errors that the loop handles. -/
def Handled (lastError : UInt32) : Prop :=
  lastError = errorInsufficientBuffer ∨ lastError = errorHandleEof ∨
    lastError = errorEventLogFileChanged

instance (lastError : UInt32) : Decidable (Handled lastError) :=
  inferInstanceAs (Decidable (_ ∨ _))

/-- Why the loop may be left. -/
def Allowed : Reason → Prop
  | .exitFlag => True
  | .noMemory => True
  | .openFailed => True
  | .readFailed lastError => ¬ Handled lastError
  | .reopened => False

/-- The thread is about to read, or to read again. -/
def Pc.isRead : Pc → Prop
  | .reading => True
  | .reallocating => True
  | .rereading => True
  | _ => False

/-- A handle that was opened and not closed. -/
def IsOpen (s : State) (h : Nat) : Prop :=
  h < s.opened ∧ h ∉ s.closed

/-- Reads have an open handle and a buffer of the size they are told, every handle is closed
    once, and the loop is left only for a reason that is allowed. -/
structure Survives (s : State) : Prop where
  handle : s.pc.isRead → ∃ h, s.hSysEvent = some h ∧ IsOpen s h
  buffer : s.pc = .reading ∨ s.pc = .rereading → s.Buffer = some s.BufferSize
  onlyOpened : ∀ h ∈ s.closed, h < s.opened
  notTwice : ∀ h, s.closed.count h ≤ 1
  once : s.pc = .ended → ∀ h, h < s.opened → s.closed.count h = 1
  left : ∀ r, s.left = some r → Allowed r

/-- The log is not opened again with success, without a handle the exit flag is set when it is
    looked at, and a read that is repeated does not fail with an error that the loop handles. -/
def Meets (s : State) : Label → Prop
  | .openEventLog succeeds => s.pc = .reopening → succeeds = false
  | .exitFlag seen => s.hSysEvent = none → seen = true
  | .readEventLog (some (lastError, _)) => s.pc = .rereading → ¬ Handled lastError
  | .readEventLog none => True
  | .malloc _ => True
  | .cleanUp => True

instance (s : State) : ∀ l, Decidable (Meets s l)
  | .openEventLog succeeds => inferInstanceAs (Decidable (s.pc = .reopening → succeeds = false))
  | .exitFlag seen => inferInstanceAs (Decidable (s.hSysEvent = none → seen = true))
  | .readEventLog (some (lastError, _)) =>
      inferInstanceAs (Decidable (s.pc = .rereading → ¬ Handled lastError))
  | .readEventLog none => isTrue trivial
  | .malloc _ => isTrue trivial
  | .cleanUp => isTrue trivial

/-! ### What holds whatever the calls come to -/

/-- The handle that is open. -/
def State.current (s : State) : Option Nat :=
  match s.pc with
  | .reopening => none
  | .ended => none
  | _ => s.hSysEvent

/-- Where the buffer is to be there. -/
def Pc.hasBuffer : Pc → Prop
  | .opening => True
  | .head => True
  | .reading => True
  | .rereading => True
  | .reopening => True
  | _ => False

/-- Before the loop. -/
def Pc.isEarly : Pc → Prop
  | .allocating => True
  | .opening => True
  | _ => False

/-- The handles that were opened are those that were closed and the one that is open, and the
    buffer has the size that the thread has for it. -/
structure Kept (s : State) : Prop where
  handles : s.closed ++ s.current.toList = List.range s.opened
  buffer : s.pc.hasBuffer → s.Buffer = some s.BufferSize
  early : s.pc.isEarly → s.hSysEvent = none

theorem kept_start : Kept start where
  handles := rfl
  buffer := fun h => h.elim
  early := fun _ => rfl

/-- Where the handle that is open is the one of the variable. -/
theorem Kept.handles_eq {s : State} (hs : Kept s) (h1 : s.pc ≠ .reopening)
    (h2 : s.pc ≠ .ended) :
    s.closed ++ s.hSysEvent.toList = List.range s.opened := by
  have hhandles := hs.handles
  unfold State.current at hhandles
  split at hhandles
  · exact absurd ‹_› h1
  · exact absurd ‹_› h2
  · exact hhandles

/-- Where no handle is open. -/
theorem Kept.closed_eq {s : State} (hs : Kept s) (hnone : s.current = none) :
    s.closed = List.range s.opened := by
  have hhandles := hs.handles
  rw [hnone, Option.toList_none, List.append_nil] at hhandles
  exact hhandles

/-- A step that leaves the loop, or does not begin it. -/
theorem Kept.leave {s : State} (h : s.closed ++ s.hSysEvent.toList = List.range s.opened)
    (r : Reason) : Kept (s.leave r) where
  handles := h
  buffer := fun h => h.elim
  early := fun h => h.elim

/-- A step keeps the handles and the buffer. -/
theorem step_kept {s t : State} {l : Label} (hs : Kept s) (h : step s l = some t) : Kept t := by
  have hloop : ∀ pc, s.pc = pc → pc ≠ .reopening → pc ≠ .ended →
      s.closed ++ s.hSysEvent.toList = List.range s.opened :=
    fun pc hpc h1 h2 => hs.handles_eq (hpc ▸ h1) (hpc ▸ h2)
  cases stepped_of_step h with
  | allocated hpc =>
      exact ⟨hloop _ hpc (by decide) (by decide), fun _ => rfl,
        fun _ => hs.early (by rw [hpc]; trivial)⟩
  | noMemory hpc =>
      rcases hpc with hpc | hpc
      all_goals exact Kept.leave (hloop _ hpc (by decide) (by decide)) _
  | opened hpc =>
      -- no handle before the first one
      have hnone := hs.early (by rw [hpc]; trivial)
      have hbuffer := hs.buffer (by rw [hpc]; trivial)
      have hhandles := hloop _ hpc (by decide) (by decide)
      rw [hnone, Option.toList_none, List.append_nil] at hhandles
      refine ⟨?_, fun _ => hbuffer, fun h => h.elim⟩
      change s.closed ++ [s.opened] = List.range (s.opened + 1)
      rw [hhandles, List.range_succ]
  | openFailed hpc => exact Kept.leave (hloop _ hpc (by decide) (by decide)) _
  | exit hpc => exact Kept.leave (hloop _ hpc (by decide) (by decide)) _
  | noExit hpc =>
      have hbuffer := hs.buffer (by rw [hpc]; trivial)
      exact ⟨hloop _ hpc (by decide) (by decide), fun _ => hbuffer,
        fun h => h.elim⟩
  | read hpc =>
      rcases hpc with hpc | hpc
      all_goals
        have hbuffer := hs.buffer (by rw [hpc]; trivial)
        exact ⟨hloop _ hpc (by decide) (by decide), fun _ => hbuffer,
          fun h => h.elim⟩
  | readFailed lastError dwNeeded hpc =>
      have hbuffer := hs.buffer (by rw [hpc]; trivial)
      have hhandles := hloop _ hpc (by decide) (by decide)
      unfold readFails
      split
      · exact ⟨hhandles, fun h => h.elim,
          fun h => h.elim⟩
      split
      · exact ⟨hhandles, fun _ => hbuffer, fun h => h.elim⟩
      split
      · refine ⟨?_, fun _ => hbuffer, fun h => h.elim⟩
        change (s.closed ++ s.hSysEvent.toList) ++ [] = List.range s.opened
        rw [List.append_nil, hhandles]
      · exact Kept.leave hhandles _
  | reallocated hpc =>
      exact ⟨hloop _ hpc (by decide) (by decide), fun _ => rfl, fun h => h.elim⟩
  | rereadFailed lastError dwNeeded hpc =>
      exact Kept.leave (hloop _ hpc (by decide) (by decide)) _
  | reopened hpc =>
      have hclosed := hs.closed_eq (by rw [State.current, hpc])
      refine Kept.leave ?_ _
      change s.closed ++ [s.opened] = List.range (s.opened + 1)
      rw [hclosed, List.range_succ]
  | notReopened hpc =>
      have hclosed := hs.closed_eq (by rw [State.current, hpc])
      have hbuffer := hs.buffer (by rw [hpc]; trivial)
      refine ⟨?_, fun _ => hbuffer, fun h => h.elim⟩
      change s.closed ++ [] = List.range s.opened
      rw [List.append_nil, hclosed]
  | cleanedUp hpc =>
      refine ⟨?_, fun h => h.elim,
        fun h => h.elim⟩
      change (s.closed ++ s.hSysEvent.toList) ++ [] = List.range s.opened
      rw [List.append_nil, hloop _ hpc (by decide) (by decide)]

/-- What is left to be asked for then: a handle to read with, and a reason to leave. -/
structure Fine (s : State) : Prop where
  handle : s.pc.isRead → s.hSysEvent ≠ none
  left : ∀ r, s.left = some r → Allowed r

/-- The handle of the variable is open while the thread reads. -/
theorem Kept.isOpen {s : State} (hs : Kept s) (hread : s.pc.isRead) {h : Nat}
    (hh : s.hSysEvent = some h) : IsOpen s h := by
  have hhandles := hs.handles_eq (fun hpc => by rw [hpc] at hread; exact hread)
    (fun hpc => by rw [hpc] at hread; exact hread)
  rw [hh, Option.toList_some] at hhandles
  have hnodup : (s.closed ++ [h]).Nodup := hhandles ▸ List.nodup_range
  refine ⟨?_, fun hclosed => ?_⟩
  · refine List.mem_range.mp (hhandles ▸ ?_)
    exact List.mem_append_right _ List.mem_cons_self
  · exact (List.nodup_append.mp hnodup).2.2 h hclosed h List.mem_cons_self rfl

theorem Kept.closed_prefix {s : State} (hs : Kept s) : s.closed <+: List.range s.opened :=
  ⟨_, hs.handles⟩

theorem Kept.survives_iff {s : State} (hs : Kept s) : Survives s ↔ Fine s := by
  constructor
  · intro h
    refine ⟨fun hread hnone => ?_, h.left⟩
    rcases h.handle hread with ⟨n, hn, -⟩
    rw [hnone] at hn
    exact absurd hn (by simp only [reduceCtorEq, not_false_eq_true])
  · intro h
    refine ⟨fun hread => ?_, fun hpc => ?_, fun n hn => ?_, fun n => ?_, fun hpc n hn => ?_,
      h.left⟩
    · rcases Option.ne_none_iff_exists'.mp (h.handle hread) with ⟨n, hn⟩
      exact ⟨n, hn, hs.isOpen hread hn⟩
    · refine hs.buffer ?_
      rcases hpc with hpc | hpc
      all_goals
        rw [hpc]
        trivial
    · exact List.mem_range.mp (hs.closed_prefix.subset hn)
    · exact List.nodup_iff_count_le_one.mp
        (List.nodup_range.sublist hs.closed_prefix.sublist) n
    · rw [hs.closed_eq (by rw [State.current, hpc])]
      exact List.count_eq_one_of_mem List.nodup_range (List.mem_range.mpr hn)

/-! ### Which steps keep it -/

/-- Leaving the loop for a reason that is allowed. -/
theorem fine_leave_iff (s : State) (r : Reason) : Fine (s.leave r) ↔ Allowed r := by
  constructor
  · intro h
    exact h.left r rfl
  · intro h
    refine ⟨fun hread => hread.elim, fun r' hr' => ?_⟩
    rw [← Option.some.inj hr']
    exact h

/-- A step leads on exactly when it meets the condition. -/
theorem step_fine_iff {s t : State} {l : Label} (hs : Fine s) (h : step s l = some t) :
    Fine t ↔ Meets s l := by
  have hvacuous : ∀ {pc pc' : Pc} {P : Prop}, s.pc = pc → pc ≠ pc' → (s.pc = pc' → P) :=
    fun hpc hne hpc' => absurd (hpc.symm.trans hpc') hne
  cases stepped_of_step h with
  | allocated hpc => exact iff_of_true ⟨fun h => h.elim, hs.left⟩ trivial
  | noMemory hpc => exact iff_of_true ((fine_leave_iff s _).mpr trivial) trivial
  | opened hpc => exact iff_of_true ⟨fun h => h.elim, hs.left⟩ (hvacuous hpc (by decide))
  | openFailed hpc => exact iff_of_true ((fine_leave_iff s _).mpr trivial) (fun _ => rfl)
  | exit hpc => exact iff_of_true ((fine_leave_iff s _).mpr trivial) (fun _ => rfl)
  | noExit hpc =>
      -- the flag is not set, and the next thing is to read
      constructor
      · intro hfine hnone
        exact absurd hnone (hfine.handle trivial)
      · intro hmeets
        exact ⟨fun _ hnone => Bool.false_ne_true (hmeets hnone), hs.left⟩
  | read hpc => exact iff_of_true ⟨fun h => h.elim, hs.left⟩ trivial
  | readFailed lastError dwNeeded hpc =>
      refine iff_of_true ?_ (hvacuous hpc (by decide))
      have hhandle := hs.handle (by rw [hpc]; trivial)
      unfold readFails
      split
      · exact ⟨fun _ => hhandle, hs.left⟩
      split
      · exact ⟨fun h => h.elim, hs.left⟩
      split
      · exact ⟨fun h => h.elim, hs.left⟩
      · refine (fine_leave_iff s _).mpr (fun hhandled => ?_)
        rcases hhandled with h | h | h
        all_goals contradiction
  | reallocated hpc =>
      have hhandle := hs.handle (by rw [hpc]; trivial)
      exact iff_of_true ⟨fun _ => hhandle, hs.left⟩ trivial
  | rereadFailed lastError dwNeeded hpc =>
      rw [fine_leave_iff]
      exact ⟨fun h _ => h, fun h => h hpc⟩
  | reopened hpc =>
      refine iff_of_false (fun h => (fine_leave_iff s.opens .reopened).mp h) (fun h => ?_)
      exact Bool.false_ne_true (h hpc).symm
  | notReopened hpc => exact iff_of_true ⟨fun h => h.elim, hs.left⟩ (fun _ => rfl)
  | cleanedUp hpc => exact iff_of_true ⟨fun h => h.elim, hs.left⟩ trivial

theorem survives_start : Survives start :=
  kept_start.survives_iff.mpr ⟨fun h => h.elim, fun r hr => absurd hr (by
    simp only [start, reduceCtorEq, not_false_eq_true])⟩

/-- In every state of a run the reader has what is asked for, exactly when the log is never
    opened again with success, the exit flag is set when it is looked at without a handle, and
    no read that is repeated fails with an error that the loop handles. -/
theorem doSystemEventThread_survives_iff (ls : List Label) (s : State)
    (hrun : Machine.run step start ls = some s) :
    Throughout step Survives start ls ↔ StepsMeet step Meets start ls :=
  throughout_iff_stepsMeet step Kept Survives Meets (fun _ _ _ hs hst => step_kept hs hst)
    (fun _ _ _ hs hP hst => by
      rw [(step_kept hs hst).survives_iff]
      exact step_fine_iff (hs.survives_iff.mp hP) hst)
    start s ls kept_start survives_start hrun

/-- A buffer that is too small, a log that comes to its end, and the exit flag. -/
theorem doSystemEventThread_survives_exit :
    Throughout step Survives start
      [.malloc true, .openEventLog true, .exitFlag false, .readEventLog (some (122, 8192)),
        .malloc true, .readEventLog none, .exitFlag false, .readEventLog (some (38, 0)),
        .exitFlag true, .cleanUp] :=
  (doSystemEventThread_survives_iff _ _ rfl).mpr (by decide)

/-! ### A log file that changes -/

/-- The calls up to a read that finds the file changed. -/
def fileChanged : List Label :=
  [.malloc true, .openEventLog true, .exitFlag false,
    .readEventLog (some (errorEventLogFileChanged, 0))]

/-- The loop is left because the log was opened again, and when it could not be opened it is
    read from `NULL`. -/
theorem fileChanged_fails :
    (∃ s, Machine.run step start (fileChanged ++ [.openEventLog true]) = some s ∧
        s.left = some .reopened ∧ ¬ Survives s) ∧
      ∃ s, Machine.run step start (fileChanged ++ [.openEventLog false, .exitFlag false])
        = some s ∧ s.pc = .reading ∧ s.hSysEvent = none ∧ ¬ Survives s := by
  refine ⟨⟨_, rfl, rfl, fun h => h.left .reopened rfl⟩, ⟨_, rfl, rfl, rfl, fun h => ?_⟩⟩
  rcases h.handle trivial with ⟨n, hn, -⟩
  have hnone : (none : Option Nat) = some n := hn
  exact absurd hnone (by simp only [reduceCtorEq, not_false_eq_true])

/-! ### The turns of the loop -/

/-- The calls of a turn, which what the calls before come to decides. -/
def labelsOf (d : Reader) (t : Turn) : List Label :=
  if t.exit = true then [.exitFlag true]
  else
    .exitFlag false ::
      match readEventLog d t.first with
      | (true, _, _, _) => [.readEventLog none]
      | (false, lastError, dwNeeded, d) =>
          .readEventLog (some (lastError, dwNeeded)) ::
            if lastError = errorInsufficientBuffer then
              match t.malloc with
              | none => [.malloc false]
              | some Buffer =>
                  .malloc true ::
                    match readEventLog { d with BufferSize := dwNeeded, Buffer := Buffer }
                        t.second with
                    | (true, _, _, _) => [.readEventLog none]
                    | (false, lastError, dwNeeded, _) =>
                        [.readEventLog (some (lastError, dwNeeded))]
            else if lastError = errorHandleEof then []
            else if lastError = errorEventLogFileChanged then [.openEventLog t.reopened]
            else []

/-- The same handle, as far as there is one, and the same size. -/
structure Matches (s : State) (d : Reader) : Prop where
  handle : s.hSysEvent.isSome = d.hSysEvent
  size : s.BufferSize = d.BufferSize

/-- A read keeps the handle and the size. -/
theorem readEventLog_keeps {d d' : Reader} {result : ReadResult} {retval : Bool}
    {lastError dwNeeded : UInt32}
    (h : readEventLog d result = (retval, lastError, dwNeeded, d')) :
    d'.hSysEvent = d.hSysEvent ∧ d'.BufferSize = d.BufferSize := by
  unfold readEventLog at h
  split at h
  · rw [← (Prod.mk.inj (Prod.mk.inj (Prod.mk.inj h).2).2).2]
    exact ⟨rfl, rfl⟩
  · split at h
    · rw [← (Prod.mk.inj (Prod.mk.inj (Prod.mk.inj h).2).2).2]
      exact ⟨rfl, rfl⟩
    · split at h
      all_goals
        rw [← (Prod.mk.inj (Prod.mk.inj (Prod.mk.inj h).2).2).2]
        exact ⟨rfl, rfl⟩

/-- Where the thread is behind a turn. -/
def Arrives (s : State) (next : Bool × Reader) : Prop :=
  s.pc = (if next.1 then .head else .ending) ∧ Matches s next.2

theorem Matches.of_read {s : State} {d d' : Reader} {result : ReadResult} {retval : Bool}
    {lastError dwNeeded : UInt32} (hm : Matches s d)
    (h : readEventLog d result = (retval, lastError, dwNeeded, d')) : Matches s d' := by
  rcases readEventLog_keeps h with ⟨hhandle, hsize⟩
  exact ⟨hm.handle.trans hhandle.symm, hm.size.trans hsize.symm⟩

/-- The steps of a turn are the turn of the loop. -/
theorem turn_labels (s : State) (d : Reader) (t : Turn) (hpc : s.pc = .head) (hm : Matches s d) :
    ∃ s', Machine.run step s (labelsOf d t) = some s' ∧ Arrives s' (turn d t) := by
  rcases s with ⟨pc, hSysEvent, Buffer, BufferSize, opened, closed, left⟩
  change pc = .head at hpc
  subst hpc
  unfold labelsOf turn
  by_cases hexit : t.exit = true
  · rw [if_pos hexit, if_pos hexit]
    exact ⟨_, rfl, rfl, ⟨hm.handle, hm.size⟩⟩
  rw [if_neg hexit, if_neg hexit]
  -- The codes are tested in the order of the source, and each has its own labels.
  rcases hread : readEventLog d t.first with ⟨retval, lastError, dwNeeded, d₁⟩
  have hm₁ := hm.of_read hread
  cases retval with
  | true => exact ⟨_, rfl, rfl, ⟨hm₁.handle, hm₁.size⟩⟩
  | false =>
      dsimp only
      by_cases h1 : lastError = errorInsufficientBuffer
      · rw [if_pos h1, if_pos h1]
        subst h1
        cases t.malloc with
        | none => exact ⟨_, rfl, rfl, ⟨hm₁.handle, rfl⟩⟩
        | some block =>
            dsimp only
            rcases hread₂ : readEventLog { d₁ with BufferSize := dwNeeded, Buffer := block }
              t.second with ⟨retval₂, lastError₂, dwNeeded₂, d₂⟩
            rcases readEventLog_keeps hread₂ with ⟨hhandle, hsize⟩
            cases retval₂ with
            | true => exact ⟨_, rfl, rfl, ⟨hm₁.handle.trans hhandle.symm, hsize.symm⟩⟩
            | false => exact ⟨_, rfl, rfl, ⟨hm₁.handle.trans hhandle.symm, hsize.symm⟩⟩
      rw [if_neg h1, if_neg h1]
      by_cases h2 : lastError = errorHandleEof
      · rw [if_pos h2, if_pos h2]
        subst h2
        exact ⟨_, rfl, rfl, ⟨hm₁.handle, hm₁.size⟩⟩
      rw [if_neg h2, if_neg h2]
      by_cases h3 : lastError = errorEventLogFileChanged
      · rw [if_pos h3, if_pos h3]
        subst h3
        cases hreopened : t.reopened with
        | true => exact ⟨_, rfl, rfl, ⟨rfl, hm₁.size⟩⟩
        | false => exact ⟨_, rfl, rfl, ⟨rfl, hm₁.size⟩⟩
      · rw [if_neg h3, if_neg h3]
        have hfails : readFails ⟨.reading, hSysEvent, Buffer, BufferSize, opened, closed, left⟩
            lastError dwNeeded = State.leave
              ⟨.reading, hSysEvent, Buffer, BufferSize, opened, closed, left⟩
              (.readFailed lastError) := by
          rw [readFails, if_neg h1, if_neg h2, if_neg h3]
        refine ⟨_, congrArg some hfails, rfl, ⟨hm₁.handle, hm₁.size⟩⟩

end Handles

end SysLog

end Defender
