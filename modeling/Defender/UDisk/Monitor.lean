import Defender.Lib.Crew
import Defender.Lib.Machine

/-!
# Monitoring the Devices

The messages that open and close the monitoring of devices, and the monitor
threads that an open starts, in any order of their steps.

A monitor thread registers a window class, creates a window of it, registers
the window for notifications, and then takes messages in a loop until it finds
`g_StopMonitorThread` set. One thread handles the messages, one after the
other. To open, it looks at the devices and starts a monitor thread. To close,
it gives back what the three handles stand for, each of which it finds in a
variable that the monitor threads write, and sets the flag.

Two things outlast a close: the flag, which nothing sets back, and the window
class, which belongs to the process and is not unregistered. So a monitor
thread of a second open does not get past its first call while the class is
there. That is right as long as the thread of the first open is in its loop,
and one thread is. After a close none is, and none will be: with the class
registered a new thread leaves at once, and without it when it looks at the
flag.

What the calls come to is a parameter of the step, except that a class is
registered when it is not yet.

## Main definitions

* `ThreadPc`, `State`: A monitor thread, and the whole.
* `threadStep`, `dispatchStep`, `step`: One step.
* `CallsSucceed`: Threads, windows and notifications can be had.
* `Settled`: All threads have reacted to the messages.
* `Follows`: As many threads are in the loop as the last message asks for.
* `Inv`, `Open`: What holds throughout, and what holds up to the first close.

## Theorems

* `inv_step`, `open_step`: The invariants.
* `messages_followed_iff`: Which messages are followed.
* `follows_reopened`: Opening, closing and opening again.
-/

namespace Defender

namespace UDisk

namespace Monitor

open Machine

/-- `DEVICE_CONTROL_OPEN_ALL_FUNCTION` and `DEVICE_CONTROL_CLOSE_ALL_FUNCTION`. -/
inductive Command where
  | openAll
  | closeAll
  deriving DecidableEq, Repr

/-- The handles that `StopMonitorThread` gives back, in its order:
    `g_DeviceNotifyHandle`, `g_SrvWnd` and `m_hMonitorThread`. -/
inductive Handle where
  | notify
  | wnd
  | thread
  deriving DecidableEq, Repr

/-- Where the thread that handles the messages is: it waits for one, is in
    front of a call of `EnableFunction`, or at a place in `StopMonitorThread`. -/
inductive DispatcherPc where
  | idle
  | dealing
  | creating
  | testing (h : Handle)
  | clearing (h : Handle)
  | stopping
  deriving DecidableEq, Repr

/-- Where a monitor thread is in `MonitorThread`. -/
inductive ThreadPc where
  | registering
  | creatingWnd
  | testingWnd
  | notifying (i : Nat)
  | testingNotify (i : Nat)
  | checking
  | pumping
  | left
  deriving DecidableEq, Repr

/-- The variables, of which a handle is `NULL` when it is 0, whether the process
    has the window class, the thread that handles the messages, the messages it
    was given, and the monitor threads. -/
structure State where
  g_DeviceNotifyHandle : Nat
  g_SrvWnd : Nat
  m_hMonitorThread : Nat
  g_StopMonitorThread : Bool
  classRegistered : Bool
  dispatcher : DispatcherPc
  messages : List Command
  threads : List ThreadPc
  deriving DecidableEq, Repr

/-- What happens next: a message is given, the thread that handles them does
    something, or a monitor thread does. `value` is what the call gives, if one
    is made. -/
inductive Label where
  | message (c : Command)
  | dispatch (value : Nat)
  | thread (i : Nat) (value : Nat)
  deriving DecidableEq, Repr

/-- The length of `GUID_DEVINTERFACE_LIST`. -/
def guidCount : Nat := 2

/-- The loop over `GUID_DEVINTERFACE_LIST` is about to register for `i`, or is
    done. -/
def notifyFrom (i : Nat) : ThreadPc :=
  if i < guidCount then .notifying i else .checking

/-- One step of a monitor thread: where it goes, and what it writes. -/
def threadStep (s : State) (value : Nat) : ThreadPc → Option (ThreadPc × State)
  | .registering =>
      -- `RegisterClass` fails for a class that is there, and nothing unregisters it.
      if s.classRegistered = true then some (.left, s)
      else some (.creatingWnd, { s with classRegistered := true })
  | .creatingWnd => some (.testingWnd, { s with g_SrvWnd := value })
  | .testingWnd => some (if s.g_SrvWnd = 0 then .left else notifyFrom 0, s)
  | .notifying i => some (.testingNotify i, { s with g_DeviceNotifyHandle := value })
  | .testingNotify i =>
      some (if s.g_DeviceNotifyHandle = 0 then .left else notifyFrom (i + 1), s)
  | .checking => some (if s.g_StopMonitorThread = true then .left else .pumping, s)
  | .pumping => some (.checking, s)
  | .left => none

/-- The handle in the variable. -/
def State.handle (s : State) : Handle → Nat
  | .notify => s.g_DeviceNotifyHandle
  | .wnd => s.g_SrvWnd
  | .thread => s.m_hMonitorThread

/-- The variable is set to `NULL`. -/
def State.clear (s : State) : Handle → State
  | .notify => { s with g_DeviceNotifyHandle := 0 }
  | .wnd => { s with g_SrvWnd := 0 }
  | .thread => { s with m_hMonitorThread := 0 }

/-- What follows in `StopMonitorThread` when a handle has been dealt with. -/
def Handle.next : Handle → DispatcherPc
  | .notify => .testing .wnd
  | .wnd => .testing .thread
  | .thread => .stopping

/-- `CreatMonitorThread`, where `_beginthreadex` gives `value`. -/
def State.creatMonitorThread (s : State) (value : Nat) : State :=
  { s with
    m_hMonitorThread := value
    threads := if value = 0 then s.threads else s.threads ++ [.registering] }

/-- One step of the thread that handles the messages. -/
def dispatchStep (s : State) (value : Nat) : Option State :=
  match s.dispatcher with
  | .idle => none
  | .dealing => some { s with dispatcher := .creating }
  | .creating => some ({ s with dispatcher := .idle }.creatMonitorThread value)
  | .testing h => some { s with dispatcher := if s.handle h = 0 then h.next else .clearing h }
  | .clearing h => some ({ s with dispatcher := h.next }.clear h)
  -- Nothing sets the flag back.
  | .stopping => some { s with g_StopMonitorThread := true, dispatcher := .idle }

/-- `DispatchMessages`: which of the two functions is called. -/
def dispatchMessages : Command → DispatcherPc
  | .openAll => .dealing
  | .closeAll => .testing .notify

/-- One step, if the label is enabled. -/
def step (s : State) : Label → Option State
  | .message c =>
      if s.dispatcher = .idle then
        some { s with dispatcher := dispatchMessages c, messages := s.messages ++ [c] }
      else none
  | .dispatch value => dispatchStep s value
  | .thread i value =>
      match s.threads[i]? with
      | none => none
      | some pc =>
          match threadStep s value pc with
          | none => none
          | some (pc', s') => some { s' with threads := s.threads.set i pc' }

/-- No message was given yet. -/
def start : State where
  g_DeviceNotifyHandle := 0
  g_SrvWnd := 0
  m_hMonitorThread := 0
  g_StopMonitorThread := false
  classRegistered := false
  dispatcher := .idle
  messages := []
  threads := []

/-! ### What is asked for -/

/-- Whether a thread is in its message loop. -/
def ThreadPc.inside : ThreadPc → Bool
  | .checking => true
  | .pumping => true
  | _ => false

/-- All messages have been handled, and each thread has left or goes on in its
    loop. -/
def Settled (s : State) : Prop :=
  s.dispatcher = .idle ∧
    ∀ pc ∈ s.threads, pc = .left ∨ (pc.inside = true ∧ s.g_StopMonitorThread = false)

instance (s : State) : Decidable (Settled s) :=
  inferInstanceAs (Decidable (_ ∧ _))

/-- One thread is in the loop if the last message opened, and none if it
    closed. -/
def Follows (s : State) : Prop :=
  (s.messages.getLast? = some .openAll → s.threads.countP ThreadPc.inside = 1) ∧
    (s.messages.getLast? = some .closeAll → s.threads.countP ThreadPc.inside = 0)

/-- Whether a thread is about to register its window for notifications. -/
def ThreadPc.notifies : ThreadPc → Bool
  | .notifying _ => true
  | _ => false

/-- A thread that is started and a window that is created are there, and so is
    a notification registered for a window that is not `NULL`. -/
def CallsSucceed (s : State) : Label → Prop
  | .message _ => True
  | .dispatch value => s.dispatcher = .creating → value ≠ 0
  | .thread i value =>
      ∀ pc ∈ s.threads[i]?, (pc = .creatingWnd → value ≠ 0) ∧
        (pc.notifies = true → s.g_SrvWnd ≠ 0 → value ≠ 0)

instance (s : State) (l : Label) : Decidable (CallsSucceed s l) :=
  match l with
  | .message _ => isTrue trivial
  | .dispatch _ => inferInstanceAs (Decidable (_ → _))
  | .thread i _ => inferInstanceAs (Decidable (∀ pc ∈ s.threads[i]?, _))

/-! ### Steps -/

theorem message_cases (s s' : State) (c : Command) (h : step s (.message c) = some s') :
    s.dispatcher = .idle ∧
      s' = { s with dispatcher := dispatchMessages c, messages := s.messages ++ [c] } := by
  simp only [step] at h
  split at h
  · next hidle => exact ⟨hidle, (Option.some.inj h).symm⟩
  · exact absurd h (by simp only [reduceCtorEq, not_false_eq_true])

theorem thread_cases (s s' : State) (i value : Nat) (h : step s (.thread i value) = some s') :
    ∃ pc pc' u, s.threads[i]? = some pc ∧ threadStep s value pc = some (pc', u) ∧
      s' = { u with threads := s.threads.set i pc' } := by
  simp only [step] at h
  split at h
  · exact absurd h (by simp only [reduceCtorEq, not_false_eq_true])
  · next pc hpc =>
      split at h
      · exact absurd h (by simp only [reduceCtorEq, not_false_eq_true])
      · next pc' u hstep => exact ⟨pc, pc', u, hpc, hstep, (Option.some.inj h).symm⟩

/-- What the thread that handles the messages is busy with. -/
def DispatcherPc.command : DispatcherPc → Option Command
  | .idle => none
  | .dealing => some .openAll
  | .creating => some .openAll
  | .testing _ => some .closeAll
  | .clearing _ => some .closeAll
  | .stopping => some .closeAll

/-- Whether a thread has registered the class and not left. -/
def ThreadPc.past : ThreadPc → Bool
  | .registering => false
  | .left => false
  | _ => true

/-- Whether a thread has created its window and still registers it for
    notifications. -/
def ThreadPc.setsUp : ThreadPc → Bool
  | .testingWnd => true
  | .notifying _ => true
  | .testingNotify _ => true
  | _ => false

/-- Whether a thread is about to test `g_DeviceNotifyHandle`. -/
def ThreadPc.tests : ThreadPc → Bool
  | .testingNotify _ => true
  | _ => false

theorem notifyFrom_past (i : Nat) : (notifyFrom i).past = true := by
  unfold notifyFrom
  split <;> rfl

theorem notifyFrom_tests (i : Nat) : (notifyFrom i).tests = false := by
  unfold notifyFrom
  split <;> rfl

theorem inside_past (pc : ThreadPc) (h : pc.inside = true) : pc.past = true := by
  cases pc <;> first | rfl | exact absurd h Bool.false_ne_true

/-- A monitor thread writes the handles and registers the class. -/
theorem threadStep_frame (s u : State) (value : Nat) (pc pc' : ThreadPc)
    (h : threadStep s value pc = some (pc', u)) :
    u.dispatcher = s.dispatcher ∧ u.messages = s.messages ∧ u.threads = s.threads ∧
      u.g_StopMonitorThread = s.g_StopMonitorThread := by
  unfold threadStep at h
  split at h
  · split at h
    · rcases Prod.mk.inj (Option.some.inj h) with ⟨-, rfl⟩
      exact ⟨rfl, rfl, rfl, rfl⟩
    · rcases Prod.mk.inj (Option.some.inj h) with ⟨-, rfl⟩
      exact ⟨rfl, rfl, rfl, rfl⟩
  · rcases Prod.mk.inj (Option.some.inj h) with ⟨-, rfl⟩
    exact ⟨rfl, rfl, rfl, rfl⟩
  · rcases Prod.mk.inj (Option.some.inj h) with ⟨-, rfl⟩
    exact ⟨rfl, rfl, rfl, rfl⟩
  · rcases Prod.mk.inj (Option.some.inj h) with ⟨-, rfl⟩
    exact ⟨rfl, rfl, rfl, rfl⟩
  · rcases Prod.mk.inj (Option.some.inj h) with ⟨-, rfl⟩
    exact ⟨rfl, rfl, rfl, rfl⟩
  · rcases Prod.mk.inj (Option.some.inj h) with ⟨-, rfl⟩
    exact ⟨rfl, rfl, rfl, rfl⟩
  · rcases Prod.mk.inj (Option.some.inj h) with ⟨-, rfl⟩
    exact ⟨rfl, rfl, rfl, rfl⟩
  · exact absurd h (by simp only [reduceCtorEq, not_false_eq_true])

/-- A thread that finds the class registered leaves, one that does not registers
    it, and no other step gets past that. -/
theorem threadStep_class (s u : State) (value : Nat) (pc pc' : ThreadPc)
    (h : threadStep s value pc = some (pc', u)) :
    (pc = .registering ∧ s.classRegistered = true ∧ pc' = .left ∧ u.classRegistered = true) ∨
      (pc = .registering ∧ s.classRegistered = false ∧ pc' = .creatingWnd ∧
        u.classRegistered = true) ∨
      (pc.past = true ∧ u.classRegistered = s.classRegistered) := by
  cases pc with
  | registering =>
      rw [threadStep] at h
      split at h
      · next hclass =>
          rcases Prod.mk.inj (Option.some.inj h) with ⟨rfl, rfl⟩
          exact Or.inl ⟨rfl, hclass, rfl, hclass⟩
      · next hclass =>
          rcases Prod.mk.inj (Option.some.inj h) with ⟨rfl, rfl⟩
          exact Or.inr (Or.inl ⟨rfl, Bool.eq_false_iff.mpr hclass, rfl, rfl⟩)
  | left => exact absurd h (by simp only [threadStep, reduceCtorEq, not_false_eq_true])
  | _ =>
      rcases Prod.mk.inj (Option.some.inj h) with ⟨-, rfl⟩
      exact Or.inr (Or.inr ⟨rfl, rfl⟩)

/-- While the flag is not set and the calls succeed, a thread that has
    registered the class does not leave. -/
theorem threadStep_goesOn (s u : State) (value : Nat) (pc pc' : ThreadPc)
    (h : threadStep s value pc = some (pc', u)) (hpast : pc.past = true)
    (hflag : s.g_StopMonitorThread = false) (hwnd : pc.setsUp = true → s.g_SrvWnd ≠ 0)
    (hnotify : pc.tests = true → s.g_DeviceNotifyHandle ≠ 0) : pc'.past = true := by
  cases pc with
  | registering => exact absurd hpast Bool.false_ne_true
  | creatingWnd =>
      rcases Prod.mk.inj (Option.some.inj h) with ⟨rfl, -⟩
      rfl
  | testingWnd =>
      rcases Prod.mk.inj (Option.some.inj h) with ⟨rfl, -⟩
      rw [if_neg (hwnd rfl)]
      exact notifyFrom_past 0
  | notifying i =>
      rcases Prod.mk.inj (Option.some.inj h) with ⟨rfl, -⟩
      rfl
  | testingNotify i =>
      rcases Prod.mk.inj (Option.some.inj h) with ⟨rfl, -⟩
      rw [if_neg (hnotify rfl)]
      exact notifyFrom_past (i + 1)
  | checking =>
      rcases Prod.mk.inj (Option.some.inj h) with ⟨rfl, -⟩
      rw [hflag]
      rfl
  | pumping =>
      rcases Prod.mk.inj (Option.some.inj h) with ⟨rfl, -⟩
      rfl
  | left => exact absurd hpast Bool.false_ne_true

/-- While the calls succeed, no thread that sets up its window writes `NULL`,
    and what such a thread tests afterwards is not `NULL`. -/
theorem threadStep_handles (s u : State) (value : Nat) (pc pc' : ThreadPc)
    (h : threadStep s value pc = some (pc', u)) (hwnd : pc.setsUp = true → s.g_SrvWnd ≠ 0)
    (hcreate : pc = .creatingWnd → value ≠ 0)
    (hregister : pc.notifies = true → s.g_SrvWnd ≠ 0 → value ≠ 0) :
    (s.g_SrvWnd ≠ 0 → u.g_SrvWnd ≠ 0) ∧ (pc'.setsUp = true → u.g_SrvWnd ≠ 0) ∧
      (s.g_DeviceNotifyHandle ≠ 0 → u.g_DeviceNotifyHandle ≠ 0) ∧
      (pc'.tests = true → u.g_DeviceNotifyHandle ≠ 0) := by
  -- Each place writes one of the two handles at most, with the value that the call gives.
  cases pc with
  | registering =>
      rw [threadStep] at h
      split at h
      · rcases Prod.mk.inj (Option.some.inj h) with ⟨rfl, rfl⟩
        exact ⟨id, fun h => absurd h Bool.false_ne_true, id, fun h => absurd h Bool.false_ne_true⟩
      · rcases Prod.mk.inj (Option.some.inj h) with ⟨rfl, rfl⟩
        exact ⟨id, fun h => absurd h Bool.false_ne_true, id, fun h => absurd h Bool.false_ne_true⟩
  | creatingWnd =>
      rcases Prod.mk.inj (Option.some.inj h) with ⟨rfl, rfl⟩
      exact ⟨fun _ => hcreate rfl, fun _ => hcreate rfl, id,
        fun h => absurd h Bool.false_ne_true⟩
  | testingWnd =>
      rcases Prod.mk.inj (Option.some.inj h) with ⟨rfl, rfl⟩
      refine ⟨id, fun _ => hwnd rfl, id, fun htests => ?_⟩
      rw [if_neg (hwnd rfl), notifyFrom_tests] at htests
      exact absurd htests Bool.false_ne_true
  | notifying i =>
      rcases Prod.mk.inj (Option.some.inj h) with ⟨rfl, rfl⟩
      exact ⟨id, fun _ => hwnd rfl, fun _ => hregister rfl (hwnd rfl),
        fun _ => hregister rfl (hwnd rfl)⟩
  | testingNotify i =>
      rcases Prod.mk.inj (Option.some.inj h) with ⟨rfl, rfl⟩
      refine ⟨id, fun _ => hwnd rfl, id, fun htests => ?_⟩
      split at htests
      · exact absurd htests Bool.false_ne_true
      · rw [notifyFrom_tests] at htests
        exact absurd htests Bool.false_ne_true
  | checking =>
      rcases Prod.mk.inj (Option.some.inj h) with ⟨rfl, rfl⟩
      refine ⟨id, fun hsets => ?_, id, fun htests => ?_⟩
      · split at hsets <;> exact absurd hsets Bool.false_ne_true
      · split at htests <;> exact absurd htests Bool.false_ne_true
  | pumping =>
      rcases Prod.mk.inj (Option.some.inj h) with ⟨rfl, rfl⟩
      exact ⟨id, fun h => absurd h Bool.false_ne_true, id, fun h => absurd h Bool.false_ne_true⟩
  | left => exact absurd h (by simp only [threadStep, reduceCtorEq, not_false_eq_true])

/-- What the thread that handles the messages does: it looks at the devices,
    starts a monitor thread, or takes a step of a close, the last of which sets
    the flag. -/
theorem dispatch_cases (s s' : State) (value : Nat) (h : step s (.dispatch value) = some s') :
    (s.dispatcher = .dealing ∧ s' = { s with dispatcher := .creating }) ∨
      (s.dispatcher = .creating ∧
        s' = { s with dispatcher := .idle }.creatMonitorThread value) ∨
      (s.dispatcher.command = some .closeAll ∧ s'.messages = s.messages ∧
        s'.threads = s.threads ∧ s'.classRegistered = s.classRegistered ∧
        ((s'.dispatcher.command = some .closeAll ∧
            s'.g_StopMonitorThread = s.g_StopMonitorThread) ∨
          (s'.dispatcher = .idle ∧ s'.g_StopMonitorThread = true))) := by
  simp only [step, dispatchStep] at h
  split at h
  · exact absurd h (by simp only [reduceCtorEq, not_false_eq_true])
  · next hpc => exact Or.inl ⟨hpc, (Option.some.inj h).symm⟩
  · next hpc => exact Or.inr (Or.inl ⟨hpc, (Option.some.inj h).symm⟩)
  · next handle hpc =>
      rw [← Option.some.inj h]
      refine Or.inr (Or.inr ⟨by rw [hpc]; rfl, rfl, rfl, rfl, Or.inl ⟨?_, rfl⟩⟩)
      dsimp only
      split
      · cases handle <;> rfl
      · rfl
  · next handle hpc =>
      rw [← Option.some.inj h]
      refine Or.inr (Or.inr ⟨by rw [hpc]; rfl, ?_, ?_, ?_, Or.inl ⟨?_, ?_⟩⟩) <;>
        cases handle <;> rfl
  · next hpc =>
      rw [← Option.some.inj h]
      exact Or.inr (Or.inr ⟨by rw [hpc]; rfl, rfl, rfl, rfl, Or.inr ⟨rfl, rfl⟩⟩)

/-! ### The invariants -/

/-- The messages that have been handled. -/
def State.handled (s : State) : List Command :=
  if s.dispatcher = .idle then s.messages else s.messages.dropLast

theorem handled_of_idle (s : State) (h : s.dispatcher = .idle) : s.handled = s.messages := by
  rw [State.handled, if_pos h]

theorem handled_of_command (s : State) (c : Command) (h : s.dispatcher.command = some c) :
    s.handled = s.messages.dropLast := by
  rw [State.handled, if_neg]
  intro hidle
  rw [hidle] at h
  exact absurd h (by simp only [DispatcherPc.command, reduceCtorEq, not_false_eq_true])

/-- The message being handled is the last one, the flag is set by a close and
    by every close, and at most one thread has registered the class. -/
structure Inv (s : State) : Prop where
  last : ∀ c, s.dispatcher.command = some c → ∃ ms, s.messages = ms ++ [c]
  flagged : s.g_StopMonitorThread = true → .closeAll ∈ s.messages
  closed : .closeAll ∈ s.handled → s.g_StopMonitorThread = true
  one : s.threads.countP ThreadPc.past ≤ if s.classRegistered = true then 1 else 0

/-- As long as there was no close, the thread that registered the class goes on,
    others left because of it, and the handles it tests are not `NULL`. -/
structure Open (s : State) : Prop where
  registered : s.classRegistered = true → 0 < s.threads.countP ThreadPc.past
  left : .left ∈ s.threads → s.classRegistered = true
  started : .openAll ∈ s.handled → s.threads ≠ []
  wnd : ∀ pc ∈ s.threads, pc.setsUp = true → s.g_SrvWnd ≠ 0
  notify : ∀ pc ∈ s.threads, pc.tests = true → s.g_DeviceNotifyHandle ≠ 0

theorem inv_start : Inv start where
  last := fun _ h => absurd h (by simp only [start, DispatcherPc.command, reduceCtorEq,
    not_false_eq_true])
  flagged := fun h => absurd h Bool.false_ne_true
  closed := fun h => absurd h List.not_mem_nil
  one := Nat.zero_le _

theorem open_start : Open start where
  registered := fun h => absurd h Bool.false_ne_true
  left := fun h => absurd h List.not_mem_nil
  started := fun h => absurd h List.not_mem_nil
  wnd := fun _ h => absurd h List.not_mem_nil
  notify := fun _ h => absurd h List.not_mem_nil

/-- The last message is the one that is handled. -/
theorem Inv.mem {s : State} (h : Inv s) {c : Command} (hc : s.dispatcher.command = some c) :
    c ∈ s.messages := by
  rcases h.last c hc with ⟨ms, hms⟩
  rw [hms]
  exact List.mem_append_right ms (List.mem_singleton_self c)

/-- When an open has been handled, no close has been in addition. -/
theorem Inv.closed_of_open {s : State} (h : Inv s) (hopen : s.dispatcher.command = some .openAll)
    (hmem : .closeAll ∈ s.messages) : s.g_StopMonitorThread = true := by
  rcases h.last .openAll hopen with ⟨ms, hms⟩
  refine h.closed ?_
  rw [handled_of_command s .openAll hopen, hms, List.dropLast_concat]
  rw [hms] at hmem
  rcases List.mem_append.mp hmem with hbefore | hlast
  · exact hbefore
  · exact absurd (List.mem_singleton.mp hlast) Command.noConfusion

@[simp] theorem past_creatMonitorThread (s : State) (value : Nat) :
    (s.creatMonitorThread value).threads.countP ThreadPc.past = s.threads.countP ThreadPc.past := by
  unfold State.creatMonitorThread
  dsimp only
  split
  · rfl
  · rw [List.countP_append]
    rfl

theorem inv_message (s s' : State) (c : Command) (hinv : Inv s)
    (hstep : step s (.message c) = some s') : Inv s' := by
  rcases message_cases s s' c hstep with ⟨hidle, rfl⟩
  have hcommand : (dispatchMessages c).command = some c := by
    cases c <;> rfl
  refine ⟨?_, fun hflag => List.mem_append_left [c] (hinv.flagged hflag), ?_, hinv.one⟩
  · intro c' hc'
    replace hc' : (dispatchMessages c).command = some c' := hc'
    rw [hcommand, Option.some.injEq] at hc'
    exact ⟨s.messages, congrArg (s.messages ++ [·]) hc'⟩
  · intro hclosed
    rw [handled_of_command _ c hcommand, List.dropLast_concat, ← handled_of_idle s hidle]
      at hclosed
    exact hinv.closed hclosed

theorem inv_dispatch (s s' : State) (value : Nat) (hinv : Inv s)
    (hstep : step s (.dispatch value) = some s') : Inv s' := by
  -- The thread is about to be made, or is made; or one is about to be stopped, or is told to.
  rcases dispatch_cases s s' value hstep with ⟨hpc, rfl⟩ | ⟨hpc, rfl⟩ |
    ⟨hpc, hmessages, hthreads, hclass, ⟨hpc', hflag⟩ | ⟨hpc', hflag⟩⟩
  · have hcommand : s.dispatcher.command = some .openAll := by
      rw [hpc]
      rfl
    refine ⟨?_, hinv.flagged, ?_, hinv.one⟩
    · exact fun c hc => hinv.last c (hcommand.trans hc)
    · rw [handled_of_command _ .openAll rfl]
      exact fun hclosed => hinv.closed_of_open hcommand ((List.dropLast_subset _) hclosed)
  · have hcommand : s.dispatcher.command = some .openAll := by
      rw [hpc]
      rfl
    refine ⟨?_, hinv.flagged, ?_, ?_⟩
    · exact fun c hc => absurd hc (by simp only [State.creatMonitorThread,
        DispatcherPc.command, reduceCtorEq, not_false_eq_true])
    · rw [handled_of_idle _ rfl]
      exact fun hclosed => hinv.closed_of_open hcommand hclosed
    · rw [past_creatMonitorThread]
      exact hinv.one
  · refine ⟨?_, ?_, ?_, ?_⟩
    · rw [hpc', hmessages]
      exact fun c hc => hinv.last c (hpc.trans hc)
    · rw [hflag, hmessages]
      exact hinv.flagged
    · rw [handled_of_command s' .closeAll hpc', hmessages, hflag,
        ← handled_of_command s .closeAll hpc]
      exact hinv.closed
    · rw [hthreads, hclass]
      exact hinv.one
  · refine ⟨?_, ?_, fun _ => hflag, ?_⟩
    · rw [hpc']
      exact fun c hc => absurd hc (by simp only [DispatcherPc.command, reduceCtorEq,
        not_false_eq_true])
    · rw [hmessages]
      exact fun _ => hinv.mem hpc
    · rw [hthreads, hclass]
      exact hinv.one

theorem inv_thread (s s' : State) (i value : Nat) (hinv : Inv s)
    (hstep : step s (.thread i value) = some s') : Inv s' := by
  rcases thread_cases s s' i value hstep with ⟨pc, pc', u, hpc, hu, rfl⟩
  rcases threadStep_frame s u value pc pc' hu with ⟨hdispatcher, hmessages, -, hflag⟩
  have hcount := Crew.countP_set ThreadPc.past s.threads i pc' pc hpc
  have hone := hinv.one
  refine ⟨?_, ?_, ?_, ?_⟩
  · intro c hc
    replace hc : u.dispatcher.command = some c := hc
    rw [hdispatcher] at hc
    show ∃ ms, u.messages = ms ++ [c]
    rw [hmessages]
    exact hinv.last c hc
  · exact fun h => hmessages ▸ hinv.flagged (hflag ▸ h)
  · intro hclosed
    rw [State.handled] at hclosed
    dsimp only at hclosed
    rw [hdispatcher, hmessages] at hclosed
    exact hflag.trans (hinv.closed hclosed)
  · show (s.threads.set i pc').countP ThreadPc.past ≤ if u.classRegistered = true then 1 else 0
    rcases threadStep_class s u value pc pc' hu with
      ⟨rfl, hclass, rfl, hclass'⟩ | ⟨rfl, hclass, rfl, hclass'⟩ | ⟨hpast, hclass'⟩
    · rw [hclass']
      rw [hclass] at hone
      exact Nat.le_trans (Nat.le_of_eq hcount) hone
    · -- Nobody had registered the class, and now one thread has.
      rw [hclass, if_neg Bool.false_ne_true] at hone
      rw [hclass', if_pos rfl]
      replace hcount : (s.threads.set i .creatingWnd).countP ThreadPc.past
        = s.threads.countP ThreadPc.past + 1 := hcount
      omega
    · rw [hclass']
      rw [if_pos hpast] at hcount
      refine Nat.le_trans ?_ hone
      split at hcount <;> omega

theorem inv_step (s s' : State) (l : Label) (hinv : Inv s) (hstep : step s l = some s') :
    Inv s' := by
  cases l with
  | message c => exact inv_message s s' c hinv hstep
  | dispatch value => exact inv_dispatch s s' value hinv hstep
  | thread i value => exact inv_thread s s' i value hinv hstep

/-- A thread's step keeps what holds up to the first close. -/
theorem open_thread (s : State) (i value : Nat) (pc pc' : ThreadPc) (u : State) (hopen : Open s)
    (hflag : s.g_StopMonitorThread = false) (hl : CallsSucceed s (.thread i value))
    (hpc : s.threads[i]? = some pc) (hu : threadStep s value pc = some (pc', u)) :
    Open { u with threads := s.threads.set i pc' } := by
  have hmem : pc ∈ s.threads := List.mem_of_getElem? hpc
  have hcount := Crew.countP_set ThreadPc.past s.threads i pc' pc hpc
  -- That the calls succeed is what keeps the handles from being `NULL`.
  have hcalls := hl pc hpc
  rcases threadStep_handles s u value pc pc' hu
    (hopen.wnd pc hmem) hcalls.1 hcalls.2 with ⟨hwnd, hwnd', hnotify, hnotify'⟩
  refine ⟨?_, ?_, ?_, ?_, ?_⟩
  · intro hclass'
    replace hclass' : u.classRegistered = true := hclass'
    show 0 < (s.threads.set i pc').countP ThreadPc.past
    rcases threadStep_class s u value pc pc' hu with
      ⟨rfl, hclass, rfl, -⟩ | ⟨rfl, -, rfl, -⟩ | ⟨hpast, hsame⟩
    · rw [show (s.threads.set i .left).countP ThreadPc.past = s.threads.countP ThreadPc.past
        from hcount]
      exact hopen.registered hclass
    · exact Nat.lt_of_lt_of_eq (Nat.succ_pos _) hcount.symm
    · have hgoes := threadStep_goesOn s u value pc pc' hu hpast hflag (hopen.wnd pc hmem)
        (hopen.notify pc hmem)
      rw [if_pos hpast, if_pos hgoes] at hcount
      rw [Nat.add_right_cancel hcount]
      exact hopen.registered (hsame ▸ hclass')
  · intro hleft
    show u.classRegistered = true
    rcases threadStep_class s u value pc pc' hu with
      ⟨-, -, -, hclass'⟩ | ⟨-, -, -, hclass'⟩ | ⟨hpast, hsame⟩
    · exact hclass'
    · exact hclass'
    · have hgoes := threadStep_goesOn s u value pc pc' hu hpast hflag (hopen.wnd pc hmem)
        (hopen.notify pc hmem)
      rw [hsame]
      rcases Crew.of_mem_set s.threads i pc' .left hleft with rfl | hold
      · exact absurd hgoes Bool.false_ne_true
      · exact hopen.left hold
  · exact fun _ => List.ne_nil_of_mem
      (List.mem_of_getElem? (Crew.getElem?_set_of_some s.threads i pc' pc hpc))
  · intro th hth hsets
    rcases Crew.of_mem_set s.threads i pc' th hth with rfl | hold
    · exact hwnd' hsets
    · exact hwnd (hopen.wnd th hold hsets)
  · intro th hth htests
    rcases Crew.of_mem_set s.threads i pc' th hth with rfl | hold
    · exact hnotify' htests
    · exact hnotify (hopen.notify th hold htests)

/-- Starting a monitor thread keeps it as well. -/
theorem open_creatMonitorThread (s : State) (value : Nat) (hopen : Open s) (hvalue : value ≠ 0) :
    Open ({ s with dispatcher := .idle }.creatMonitorThread value) := by
  have hthreads : ({ s with dispatcher := .idle }.creatMonitorThread value).threads
      = s.threads ++ [.registering] := by
    unfold State.creatMonitorThread
    rw [if_neg hvalue]
  refine ⟨?_, ?_, ?_, ?_, ?_⟩
  · rw [past_creatMonitorThread]
    exact hopen.registered
  · rw [hthreads]
    intro hleft
    rcases List.mem_append.mp hleft with hold | hnew
    · exact hopen.left hold
    · exact absurd (List.mem_singleton.mp hnew) ThreadPc.noConfusion
  · rw [hthreads]
    exact fun _ => List.append_ne_nil_of_right_ne_nil _ (List.cons_ne_nil _ _)
  · rw [hthreads]
    intro pc hpc hsets
    rcases List.mem_append.mp hpc with hold | hnew
    · exact hopen.wnd pc hold hsets
    · rw [List.mem_singleton.mp hnew] at hsets
      exact absurd hsets Bool.false_ne_true
  · rw [hthreads]
    intro pc hpc htests
    rcases List.mem_append.mp hpc with hold | hnew
    · exact hopen.notify pc hold htests
    · rw [List.mem_singleton.mp hnew] at htests
      exact absurd htests Bool.false_ne_true

/-- What holds up to the first close is kept by every step in which the calls
    succeed. -/
theorem open_step (s s' : State) (l : Label) (hinv : Inv s)
    (hopen : .closeAll ∉ s.messages → Open s) (hl : CallsSucceed s l)
    (hstep : step s l = some s') : .closeAll ∉ s'.messages → Open s' := by
  intro hnone
  cases l with
  | message c =>
      rcases message_cases s s' c hstep with ⟨hidle, rfl⟩
      have hbefore := hopen (fun hmem => hnone (List.mem_append_left [c] hmem))
      refine ⟨hbefore.registered, hbefore.left, ?_, hbefore.wnd, hbefore.notify⟩
      have hcommand : (dispatchMessages c).command = some c := by
        cases c <;> rfl
      rw [handled_of_command _ c hcommand, List.dropLast_concat, ← handled_of_idle s hidle]
      exact hbefore.started
  | dispatch value =>
      rcases dispatch_cases s s' value hstep with ⟨hpc, rfl⟩ | ⟨hpc, rfl⟩ | ⟨hpc, hmessages, -⟩
      · have hbefore := hopen hnone
        refine ⟨hbefore.registered, hbefore.left, ?_, hbefore.wnd, hbefore.notify⟩
        rw [handled_of_command _ .openAll rfl, ← handled_of_command s .openAll (by rw [hpc]; rfl)]
        exact hbefore.started
      · exact open_creatMonitorThread s value (hopen hnone) (hl hpc)
      · rw [hmessages] at hnone
        exact absurd (hinv.mem hpc) hnone
  | thread i value =>
      rcases thread_cases s s' i value hstep with ⟨pc, pc', u, hpc, hu, rfl⟩
      rcases threadStep_frame s u value pc pc' hu with ⟨-, hmessages, -, -⟩
      replace hnone : .closeAll ∉ u.messages := hnone
      rw [hmessages] at hnone
      -- Only a close sets the flag, and there was none.
      have hflag : s.g_StopMonitorThread = false :=
        Bool.eq_false_iff.mpr (fun hflag => hnone (hinv.flagged hflag))
      exact open_thread s i value pc pc' u (hopen hnone) hflag hl hpc hu

/-! ### When all threads have reacted -/

theorem inv_run (t : State) (ls : List Label) (hrun : run step start ls = some t) : Inv t :=
  run_invariant step Inv (fun s l s' hinv => inv_step s s' l hinv) start t ls inv_start hrun

theorem open_run (t : State) (ls : List Label) (hrun : run step start ls = some t)
    (hcalls : StepsMeet step CallsSucceed start ls) : .closeAll ∉ t.messages → Open t :=
  (run_invariant_of_stepsMeet step CallsSucceed
    (fun s => Inv s ∧ (.closeAll ∉ s.messages → Open s))
    (fun s l s' h hl hstep => ⟨inv_step s s' l h.1 hstep, open_step s s' l h.1 h.2 hl hstep⟩)
    start t ls ⟨inv_start, fun _ => open_start⟩ hcalls hrun).2

/-- At most one thread is in its loop. -/
theorem Inv.inside_le {s : State} (h : Inv s) : s.threads.countP ThreadPc.inside ≤ 1 := by
  have hpast : s.threads.countP ThreadPc.inside ≤ s.threads.countP ThreadPc.past :=
    List.countP_mono_left (fun pc _ hin => inside_past pc hin)
  have hone := h.one
  split at hone <;> omega

/-- When all have reacted to messages with a close among them, nobody is in its
    loop. -/
theorem Inv.inside_eq_zero {s : State} (h : Inv s) (hsettled : Settled s)
    (hclose : .closeAll ∈ s.messages) : s.threads.countP ThreadPc.inside = 0 := by
  have hflag : s.g_StopMonitorThread = true := by
    refine h.closed ?_
    rw [handled_of_idle s hsettled.1]
    exact hclose
  rw [List.countP_eq_zero]
  intro pc hpc
  rcases hsettled.2 pc hpc with rfl | ⟨-, hnot⟩
  · exact Bool.false_ne_true
  · exact absurd (hflag.symm.trans hnot) Bool.noConfusion

/-- When all have reacted to messages with an open and without a close, one
    thread is in its loop. -/
theorem Open.inside_eq_one {s : State} (hopen : Open s) (h : Inv s) (hsettled : Settled s)
    (hmem : .openAll ∈ s.messages) : s.threads.countP ThreadPc.inside = 1 := by
  have hexists : ∃ pc ∈ s.threads, pc.inside = true := by
    -- The open has started a thread, and that has come to its loop or has left.
    have hthreads := hopen.started (by rw [handled_of_idle s hsettled.1]; exact hmem)
    rcases List.exists_mem_of_ne_nil s.threads hthreads with ⟨pc, hpc⟩
    rcases hsettled.2 pc hpc with rfl | ⟨hin, -⟩
    · -- It has left because another thread had registered the class.
      rcases List.countP_pos_iff.mp (hopen.registered (hopen.left hpc)) with ⟨pc', hpc', hpast⟩
      rcases hsettled.2 pc' hpc' with rfl | ⟨hin, -⟩
      · exact absurd hpast Bool.false_ne_true
      · exact ⟨pc', hpc', hin⟩
    · exact ⟨pc, hpc, hin⟩
  exact Nat.le_antisymm h.inside_le (List.countP_pos_iff.mpr hexists)

/-- When all threads have reacted to the messages: never more than one is in the
    loop, and none after a close. If the calls succeed, the last message is
    followed exactly when it is not an open with a close before it. -/
theorem messages_followed_iff (ls : List Label) (t : State) (hrun : run step start ls = some t)
    (hsettled : Settled t) :
    t.threads.countP ThreadPc.inside ≤ 1 ∧
      (t.messages.getLast? = some .closeAll → t.threads.countP ThreadPc.inside = 0) ∧
      (StepsMeet step CallsSucceed start ls →
        (Follows t ↔ ¬ (t.messages.getLast? = some .openAll ∧ .closeAll ∈ t.messages))) := by
  have hinv := inv_run t ls hrun
  have hlast : t.messages.getLast? = some .closeAll → t.threads.countP ThreadPc.inside = 0 :=
    fun hlast => hinv.inside_eq_zero hsettled (List.mem_of_getLast? hlast)
  refine ⟨hinv.inside_le, hlast, fun hcalls => ?_⟩
  constructor
  · rintro hfollows ⟨hopen, hclose⟩
    have hone := hfollows.1 hopen
    rw [hinv.inside_eq_zero hsettled hclose] at hone
    exact absurd hone Nat.zero_ne_one
  · intro hnot
    refine ⟨fun hopen => ?_, hlast⟩
    have hnone : .closeAll ∉ t.messages := fun hclose => hnot ⟨hopen, hclose⟩
    exact (open_run t ls hrun hcalls hnone).inside_eq_one hinv hsettled (List.mem_of_getLast? hopen)

/-- One open, and the thread is in its loop. -/
theorem messages_followed_iff_opened :
    Follows { g_DeviceNotifyHandle := 4, g_SrvWnd := 2, m_hMonitorThread := 1,
              g_StopMonitorThread := false, classRegistered := true, dispatcher := .idle,
              messages := [.openAll], threads := [.checking] } :=
  ((messages_followed_iff [.message .openAll, .dispatch 0, .dispatch 1, .thread 0 0, .thread 0 2,
    .thread 0 0, .thread 0 3, .thread 0 0, .thread 0 4, .thread 0 0] _ (by decide)
    (by decide)).2.2 (by decide)).mpr (by decide)

/-- Open, close and open again: the first thread has left because of the flag,
    and the second because the class is still registered. -/
theorem follows_reopened :
    ¬ ∀ (ls : List Label) (t : State), run step start ls = some t →
      StepsMeet step CallsSucceed start ls → Settled t → Follows t := by
  intro h
  have hfollows := h
    [.message .openAll, .dispatch 0, .dispatch 1, .thread 0 0, .thread 0 2, .thread 0 0,
      .thread 0 3, .thread 0 0, .thread 0 4, .thread 0 0, .thread 0 0, .message .closeAll,
      .dispatch 0, .dispatch 0, .dispatch 0, .dispatch 0, .dispatch 0, .dispatch 0, .dispatch 0,
      .thread 0 0, .thread 0 0, .message .openAll, .dispatch 0, .dispatch 5, .thread 1 0]
    { g_DeviceNotifyHandle := 0, g_SrvWnd := 0, m_hMonitorThread := 5, g_StopMonitorThread := true,
      classRegistered := true, dispatcher := .idle, messages := [.openAll, .closeAll, .openAll],
      threads := [.left, .left] }
    (by decide) (by decide) (by decide)
  exact absurd (hfollows.1 rfl) (by decide)

end Monitor

end UDisk

end Defender
