import Defender.Lib.Crew
import Defender.Lib.Machine
import Defender.SysLog.Reader

/-!
# Opening and Closing the Collection

The messages that open and close the collection of the System log, and the
reader threads that an open starts, in any order of their steps.

One thread handles the messages, one after the other. To open, it has
`psloglist.exe` export a log, and then starts two threads, one in
`GetSysLogByEvtSubscribe` and one in `GetSysLogByReadEventLog`. To close, it
sets two flags. The flags belong to the one `CSysLogFun` there is; they are
`FALSE` when it is made, and nothing sets them back.

Both threads run `DoSystemEventThread`. The first was to run
`DoThreadSysLogExport`, which nothing starts. So an open puts two readers into
the same loop, and each event is reported twice. And an open after a close
starts readers that find the flag set and leave.

When a step begins that puts a reader into its loop, two things decide whether
all is well: that nobody else is in, and that the flag, if it is set, was set
for this reader. A run goes well throughout exactly when it is so at all these
steps. No sequence of messages is safe but one without an open.

## Main definitions

* `ReaderPc`, `ReaderThread`, `State`: A reader, and the whole.
* `readerStep`, `step`: One step of a reader, and of the whole.
* `Follows`: The collection does what the messages ask for.
* `EntersDuly`: A reader enters its loop alone and with a flag meant for it.
* `Inv`: What holds throughout.

## Theorems

* `turn_checked`: A look at the flag and what follows are a turn of the loop.
* `inv_step`, `inv_run`: The invariant.
* `follows_step`: What keeps the collection doing what it is asked for.
* `follows_of_no_open`: Without an open nothing can go wrong.
* `run_messages`: Messages can be handled without a thread being started.
* `follows_iff`: Which runs go well, and which sequences of messages.
* `follows_twoReaders`: An open that starts both.
-/

namespace Defender

namespace SysLog

namespace Collection

open Machine

/-- `SYSTEMLOG_CONTROL_OPEN_ALL_FUNCTION` and
    `SYSTEMLOG_CONTROL_CLOSE_ALL_FUNCTION`. -/
inductive Command where
  | openAll
  | closeAll
  deriving DecidableEq, Repr

/-- Where the thread that handles the messages is: it waits for one, or is in
    front of a call of `EnableFunction` or a store of `RecycleSysLogResource`. -/
inductive DispatcherPc where
  | idle
  | exporting
  | subscribing
  | readingLog
  | recycling
  | recyclingRead
  deriving DecidableEq, Repr

/-- Where a reader is in `DoSystemEventThread`. -/
inductive ReaderPc where
  | allocating
  | opening (Buffer : List UInt8)
  | checking (d : Reader)
  | turning (d : Reader)
  | left

/-- A reader, and how many messages there had been when it was started. -/
structure ReaderThread where
  since : Nat
  pc : ReaderPc

/-- Both flags, the thread that handles the messages, the messages it was
    given, and the readers. -/
structure State where
  m_EvtSubscribeThreadExit : Bool
  m_ReadSystemEventThreadExit : Bool
  dispatcher : DispatcherPc
  messages : List Command
  threads : List ReaderThread

/-- A call of a reader and what it comes to. -/
inductive Call where
  | malloc (Buffer : Option (List UInt8))
  | openEventLog (opened : Bool)
  | check
  | turn (t : Turn)

/-- What happens next: a message is given, the export has ended, a thread is
    started or cannot be, a flag is stored, or a reader does something. -/
inductive Label where
  | message (c : Command)
  | exported
  | beginThread (created : Bool)
  | store
  | thread (i : Nat) (call : Call)

/-- A reader is in front of the loop again, or has left it. -/
def afterTurn : Bool × Reader → ReaderPc
  | (true, d) => .checking d
  | (false, _) => .left

/-- One step of a reader, which finds `exit` in the flag. -/
def readerStep (exit : Bool) : ReaderPc → Call → Option ReaderPc
  | .allocating, .malloc none => some .left
  | .allocating, .malloc (some Buffer) => some (.opening Buffer)
  | .opening _, .openEventLog false => some .left
  | .opening Buffer, .openEventLog true =>
      some (.checking { BufferSize := 4096, Buffer := Buffer, hSysEvent := true, trace := [] })
  | .checking d, .check => some (if exit = true then .left else .turning d)
  | .turning d, .turn t => some (afterTurn (SysLog.turn d { t with exit := false }))
  | _, _ => none

/-- `DispatchMessages`: which of the two functions is called. -/
def dispatchMessages : Command → DispatcherPc
  | .openAll => .exporting
  | .closeAll => .recycling

/-- `_beginthreadex` with `DoSystemEventThread`. -/
def State.beginThread (s : State) (created : Bool) : State :=
  if created = true then
    { s with threads := s.threads ++ [{ since := s.messages.length, pc := .allocating }] }
  else s

/-- One step, if the label is enabled. -/
def step (s : State) : Label → Option State
  | .message c =>
      if s.dispatcher = .idle then
        some { s with dispatcher := dispatchMessages c, messages := s.messages ++ [c] }
      else none
  | .exported =>
      if s.dispatcher = .exporting then some { s with dispatcher := .subscribing } else none
  | .beginThread created =>
      match s.dispatcher with
      -- Both entry points start the same thread function.
      | .subscribing => some ({ s with dispatcher := .readingLog }.beginThread created)
      | .readingLog => some ({ s with dispatcher := .idle }.beginThread created)
      | _ => none
  | .store =>
      match s.dispatcher with
      -- The flags are only ever set.
      | .recycling => some { s with m_EvtSubscribeThreadExit := true, dispatcher := .recyclingRead }
      | .recyclingRead => some { s with m_ReadSystemEventThreadExit := true, dispatcher := .idle }
      | _ => none
  | .thread i call =>
      match s.threads[i]? with
      | none => none
      | some th =>
          match readerStep s.m_ReadSystemEventThreadExit th.pc call with
          | none => none
          | some pc => some { s with threads := s.threads.set i { th with pc := pc } }

/-- `CSysLogFun` has been made, and no message was given yet. -/
def start : State where
  m_EvtSubscribeThreadExit := false
  m_ReadSystemEventThreadExit := false
  dispatcher := .idle
  messages := []
  threads := []

/-! ### What is asked for -/

/-- Whether a reader is in its loop. -/
def ReaderThread.inside (th : ReaderThread) : Bool :=
  match th.pc with
  | .checking _ => true
  | .turning _ => true
  | _ => false

/-- The messages that have been handled. -/
def State.handled (s : State) : List Command :=
  if s.dispatcher = .idle then s.messages else s.messages.dropLast

/-- One reader at most is in its loop, if the flag tells one that is in to
    leave there was a close after its open, and once a close has been handled
    the flag tells all of them. -/
structure Follows (s : State) : Prop where
  one : s.threads.countP ReaderThread.inside ≤ 1
  leaves : ∀ th ∈ s.threads, th.inside = true → s.m_ReadSystemEventThreadExit = true →
    .closeAll ∈ s.messages.drop th.since
  closed : .closeAll ∈ s.handled → s.m_ReadSystemEventThreadExit = true

/-- A reader enters its loop only while no other is in, and if the flag is set
    by then only when there was a close after its open. -/
def EntersDuly (s : State) : Label → Prop
  | .thread i (.openEventLog true) =>
      s.threads.countP ReaderThread.inside = 0 ∧
        ∀ th ∈ s.threads[i]?, s.m_ReadSystemEventThreadExit = true →
          .closeAll ∈ s.messages.drop th.since
  | _ => True

instance (s : State) (l : Label) : Decidable (EntersDuly s l) :=
  match l with
  | .thread _ (.openEventLog true) => inferInstanceAs (Decidable (_ ∧ _))
  | .thread _ (.openEventLog false) | .thread _ (.malloc _) | .thread _ .check
  | .thread _ (.turn _) | .message _ | .exported | .beginThread _ | .store => isTrue trivial

/-! ### Steps -/

/-- A look at the flag, and what follows when it is not set, are a turn of the
    loop. -/
theorem turn_checked (d : Reader) (t : Turn) :
    (t.exit = true → readerStep t.exit (.checking d) .check
      = some (afterTurn (SysLog.turn d t))) ∧
    (t.exit = false → readerStep t.exit (.checking d) .check = some (.turning d) ∧
      readerStep t.exit (.turning d) (.turn t) = some (afterTurn (SysLog.turn d t))) := by
  constructor
  · intro hexit
    rw [readerStep, if_pos hexit, SysLog.turn, if_pos hexit]
    rfl
  · intro hexit
    have hsame : { t with exit := false } = t := by
      rw [← hexit]
    refine ⟨?_, ?_⟩
    · rw [readerStep, hexit]
      rfl
    · rw [readerStep, hsame]

/-- What a step of a reader can do: it stays outside, it was inside, or it
    enters its loop. -/
theorem readerStep_cases (exit : Bool) (pc pc' : ReaderPc) (since : Nat) (call : Call)
    (h : readerStep exit pc call = some pc') :
    (ReaderThread.inside ⟨since, pc⟩ = false ∧ ReaderThread.inside ⟨since, pc'⟩ = false ∧
        call ≠ .openEventLog true) ∨
      (ReaderThread.inside ⟨since, pc⟩ = true ∧ call ≠ .openEventLog true) ∨
      (ReaderThread.inside ⟨since, pc⟩ = false ∧ ReaderThread.inside ⟨since, pc'⟩ = true ∧
        call = .openEventLog true) := by
  unfold readerStep at h
  split at h
  · rw [← Option.some.inj h]
    exact Or.inl ⟨rfl, rfl, Call.noConfusion⟩
  · rw [← Option.some.inj h]
    exact Or.inl ⟨rfl, rfl, Call.noConfusion⟩
  · rw [← Option.some.inj h]
    refine Or.inl ⟨rfl, rfl, fun heq => ?_⟩
    exact Bool.false_ne_true (Call.openEventLog.inj heq)
  · rw [← Option.some.inj h]
    exact Or.inr (Or.inr ⟨rfl, rfl, rfl⟩)
  · exact Or.inr (Or.inl ⟨rfl, Call.noConfusion⟩)
  · exact Or.inr (Or.inl ⟨rfl, Call.noConfusion⟩)
  · exact absurd h (by simp only [reduceCtorEq, not_false_eq_true])

theorem message_cases (s s' : State) (c : Command) (h : step s (.message c) = some s') :
    s.dispatcher = .idle ∧
      s' = { s with dispatcher := dispatchMessages c, messages := s.messages ++ [c] } := by
  simp only [step] at h
  split at h
  · next hidle => exact ⟨hidle, (Option.some.inj h).symm⟩
  · exact absurd h (by simp only [reduceCtorEq, not_false_eq_true])

theorem exported_cases (s s' : State) (h : step s .exported = some s') :
    s.dispatcher = .exporting ∧ s' = { s with dispatcher := .subscribing } := by
  simp only [step] at h
  split at h
  · next hexporting => exact ⟨hexporting, (Option.some.inj h).symm⟩
  · exact absurd h (by simp only [reduceCtorEq, not_false_eq_true])

theorem beginThread_cases (s s' : State) (created : Bool)
    (h : step s (.beginThread created) = some s') :
    (s.dispatcher = .subscribing ∧ s' = { s with dispatcher := .readingLog }.beginThread created) ∨
      (s.dispatcher = .readingLog ∧ s' = { s with dispatcher := .idle }.beginThread created) := by
  simp only [step] at h
  split at h
  · next hpc => exact Or.inl ⟨hpc, (Option.some.inj h).symm⟩
  · next hpc => exact Or.inr ⟨hpc, (Option.some.inj h).symm⟩
  · exact absurd h (by simp only [reduceCtorEq, not_false_eq_true])

theorem store_cases (s s' : State) (h : step s .store = some s') :
    (s.dispatcher = .recycling ∧
        s' = { s with m_EvtSubscribeThreadExit := true, dispatcher := .recyclingRead }) ∨
      (s.dispatcher = .recyclingRead ∧
        s' = { s with m_ReadSystemEventThreadExit := true, dispatcher := .idle }) := by
  simp only [step] at h
  split at h
  · next hpc => exact Or.inl ⟨hpc, (Option.some.inj h).symm⟩
  · next hpc => exact Or.inr ⟨hpc, (Option.some.inj h).symm⟩
  · exact absurd h (by simp only [reduceCtorEq, not_false_eq_true])

theorem thread_cases (s s' : State) (i : Nat) (call : Call)
    (h : step s (.thread i call) = some s') :
    ∃ th pc, s.threads[i]? = some th ∧
      readerStep s.m_ReadSystemEventThreadExit th.pc call = some pc ∧
      s' = { s with threads := s.threads.set i { th with pc := pc } } := by
  simp only [step] at h
  split at h
  · exact absurd h (by simp only [reduceCtorEq, not_false_eq_true])
  · next th hth =>
      split at h
      · exact absurd h (by simp only [reduceCtorEq, not_false_eq_true])
      · next pc hpc => exact ⟨th, pc, hth, hpc, (Option.some.inj h).symm⟩

/-! ### The invariant -/

/-- What the thread that handles the messages is busy with. -/
def DispatcherPc.command : DispatcherPc → Option Command
  | .idle => none
  | .exporting => some .openAll
  | .subscribing => some .openAll
  | .readingLog => some .openAll
  | .recycling => some .closeAll
  | .recyclingRead => some .closeAll

/-- The message being handled is the last one, readers were started for opens
    that came before, and a close that was handled has set the flag. -/
structure Inv (s : State) : Prop where
  last : ∀ c, s.dispatcher.command = some c → ∃ ms, s.messages = ms ++ [c]
  since_le : ∀ th ∈ s.threads, th.since ≤ s.messages.length
  since_lt : s.dispatcher.command = some .closeAll → ∀ th ∈ s.threads,
    th.since < s.messages.length
  started : ∀ th ∈ s.threads, .openAll ∈ s.messages
  closed : .closeAll ∈ s.handled → s.m_ReadSystemEventThreadExit = true

theorem inv_start : Inv start where
  last := fun _ h => absurd h (by simp only [start, DispatcherPc.command, reduceCtorEq,
    not_false_eq_true])
  since_le := fun _ h => absurd h List.not_mem_nil
  since_lt := fun _ _ h => absurd h List.not_mem_nil
  started := fun _ h => absurd h List.not_mem_nil
  closed := fun h => absurd h List.not_mem_nil

@[simp] theorem beginThread_dispatcher (s : State) (created : Bool) :
    (s.beginThread created).dispatcher = s.dispatcher := by
  cases created <;> rfl

@[simp] theorem beginThread_messages (s : State) (created : Bool) :
    (s.beginThread created).messages = s.messages := by
  cases created <;> rfl

@[simp] theorem beginThread_exit (s : State) (created : Bool) :
    (s.beginThread created).m_ReadSystemEventThreadExit = s.m_ReadSystemEventThreadExit := by
  cases created <;> rfl

@[simp] theorem beginThread_handled (s : State) (created : Bool) :
    (s.beginThread created).handled = s.handled := by
  cases created <;> rfl

/-- A thread that was started is at its beginning. -/
theorem of_mem_beginThread (s : State) (created : Bool) (th : ReaderThread)
    (h : th ∈ (s.beginThread created).threads) :
    th ∈ s.threads ∨ th = { since := s.messages.length, pc := .allocating } := by
  cases created with
  | false => exact Or.inl h
  | true =>
      rcases List.mem_append.mp h with hold | hnew
      · exact Or.inl hold
      · exact Or.inr (List.mem_singleton.mp hnew)

theorem handled_of_idle (s : State) (h : s.dispatcher = .idle) : s.handled = s.messages := by
  rw [State.handled, if_pos h]

theorem handled_of_busy (s : State) (h : s.dispatcher ≠ .idle) :
    s.handled = s.messages.dropLast := by
  rw [State.handled, if_neg h]

/-- A thread started for the open that is being handled. -/
theorem inv_beginThread (s : State) (created : Bool) (hinv : Inv s)
    (hopen : .openAll ∈ s.messages) (hcommand : s.dispatcher.command ≠ some .closeAll) :
    Inv (s.beginThread created) where
  last := by
    rw [beginThread_dispatcher, beginThread_messages]
    exact hinv.last
  since_le := by
    intro th hth
    rw [beginThread_messages]
    rcases of_mem_beginThread s created th hth with hold | rfl
    · exact hinv.since_le th hold
    · exact Nat.le_refl _
  since_lt := by
    rw [beginThread_dispatcher]
    exact fun hclose => absurd hclose hcommand
  started := by
    rw [beginThread_messages]
    exact fun _ _ => hopen
  closed := by
    rw [beginThread_handled, beginThread_exit]
    exact hinv.closed

theorem DispatcherPc.ne_idle {pc : DispatcherPc} {c : Command} (h : pc.command = some c) :
    pc ≠ .idle := by
  rintro rfl
  exact absurd h (by simp only [DispatcherPc.command, reduceCtorEq, not_false_eq_true])

/-- The message that is handled is among those that came. -/
theorem Inv.mem {s : State} (h : Inv s) {c : Command} (hc : s.dispatcher.command = some c) :
    c ∈ s.messages := by
  rcases h.last c hc with ⟨ms, hms⟩
  rw [hms]
  exact List.mem_append_right ms (List.mem_singleton_self c)

/-- A message comes. -/
theorem Inv.message {s : State} (h : Inv s) (hidle : s.dispatcher = .idle) (c : Command) :
    Inv { s with dispatcher := dispatchMessages c, messages := s.messages ++ [c] } := by
  have hcommand : (dispatchMessages c).command = some c := by
    cases c <;> rfl
  refine ⟨?_, ?_, ?_, ?_, ?_⟩
  · intro c' hc'
    exact ⟨s.messages, congrArg (s.messages ++ [·]) (Option.some.inj (hcommand.symm.trans hc'))⟩
  · intro th hth
    rw [List.length_append]
    exact Nat.le_add_right_of_le (h.since_le th hth)
  · intro _ th hth
    rw [List.length_append]
    exact Nat.lt_succ_of_le (h.since_le th hth)
  · exact fun th hth => List.mem_append_left [c] (h.started th hth)
  · -- What was handled is what was given before.
    intro hclosed
    rw [handled_of_busy _ (DispatcherPc.ne_idle hcommand), List.dropLast_concat,
      ← handled_of_idle s hidle] at hclosed
    exact h.closed hclosed

/-- The same message goes on to be handled. -/
theorem Inv.goesOn {s : State} (h : Inv s) (pc : DispatcherPc) {c : Command}
    (hc : s.dispatcher.command = some c) (hpc : pc.command = some c) :
    Inv { s with dispatcher := pc } where
  last := fun c' hc' => h.last c' (hc.trans (hpc.symm.trans hc'))
  since_le := h.since_le
  since_lt := fun hclose => h.since_lt (hc.trans (hpc.symm.trans hclose))
  started := h.started
  closed := by
    intro hclosed
    rw [handled_of_busy _ (DispatcherPc.ne_idle hpc)] at hclosed
    refine h.closed ?_
    rw [handled_of_busy s (DispatcherPc.ne_idle hc)]
    exact hclosed

/-- An open has been handled, and it is not a close. -/
theorem Inv.opened {s : State} (h : Inv s) (hc : s.dispatcher.command = some .openAll) :
    Inv { s with dispatcher := .idle } where
  last := fun _ hc' => absurd hc' (by simp only [DispatcherPc.command, reduceCtorEq,
    not_false_eq_true])
  since_le := h.since_le
  since_lt := fun hclose => absurd hclose (by simp only [DispatcherPc.command, reduceCtorEq,
    not_false_eq_true])
  started := h.started
  closed := by
    intro hclosed
    rw [handled_of_idle _ rfl] at hclosed
    replace hclosed : Command.closeAll ∈ s.messages := hclosed
    rcases h.last .openAll hc with ⟨ms, hms⟩
    refine h.closed ?_
    rw [handled_of_busy s (DispatcherPc.ne_idle hc), hms, List.dropLast_concat]
    rw [hms] at hclosed
    rcases List.mem_append.mp hclosed with hbefore | hlast
    · exact hbefore
    · exact absurd (List.mem_singleton.mp hlast) Command.noConfusion

/-- A reader is somewhere else. -/
theorem Inv.set_thread {s : State} (h : Inv s) (i : Nat) (th : ReaderThread) (pc : ReaderPc)
    (hth : s.threads[i]? = some th) :
    Inv { s with threads := s.threads.set i { th with pc := pc } } := by
  have hmem : th ∈ s.threads := List.mem_of_getElem? hth
  -- It was started when it was, wherever it is now.
  have hsince : ∀ th' ∈ s.threads.set i { th with pc := pc },
      ∃ old ∈ s.threads, th'.since = old.since := by
    intro th' hth'
    rcases Crew.of_mem_set s.threads i _ th' hth' with rfl | hold
    · exact ⟨th, hmem, rfl⟩
    · exact ⟨th', hold, rfl⟩
  refine ⟨h.last, ?_, ?_, fun _ _ => h.started th hmem, h.closed⟩
  · intro th' hth'
    rcases hsince th' hth' with ⟨old, hold, heq⟩
    rw [heq]
    exact h.since_le old hold
  · intro hclose th' hth'
    rcases hsince th' hth' with ⟨old, hold, heq⟩
    rw [heq]
    exact h.since_lt hclose old hold

theorem inv_step (s s' : State) (l : Label) (hinv : Inv s) (hstep : step s l = some s') :
    Inv s' := by
  cases l with
  | message c =>
      rcases message_cases s s' c hstep with ⟨hidle, rfl⟩
      exact hinv.message hidle c
  | exported =>
      rcases exported_cases s s' hstep with ⟨hpc, rfl⟩
      exact hinv.goesOn .subscribing (congrArg DispatcherPc.command hpc) rfl
  | beginThread created =>
      rcases beginThread_cases s s' created hstep with ⟨hpc, rfl⟩ | ⟨hpc, rfl⟩
      · have hcommand : s.dispatcher.command = some .openAll := congrArg DispatcherPc.command hpc
        refine inv_beginThread _ created (hinv.goesOn .readingLog hcommand rfl)
          (hinv.mem hcommand) (fun hclose => ?_)
        exact absurd (Option.some.inj hclose) Command.noConfusion
      · have hcommand : s.dispatcher.command = some .openAll := congrArg DispatcherPc.command hpc
        refine inv_beginThread _ created (hinv.opened hcommand) (hinv.mem hcommand) ?_
        simp only [DispatcherPc.command, ne_eq, reduceCtorEq, not_false_eq_true]
  | store =>
      rcases store_cases s s' hstep with ⟨hpc, rfl⟩ | ⟨hpc, rfl⟩
      · -- The flag of the other kind of reader, which nothing here reads.
        have hinv' := hinv.goesOn .recyclingRead (congrArg DispatcherPc.command hpc) rfl
        exact ⟨hinv'.last, hinv'.since_le, hinv'.since_lt, hinv'.started, hinv'.closed⟩
      · refine ⟨?_, hinv.since_le, ?_, hinv.started, fun _ => rfl⟩
        · exact fun c hc => absurd hc (by simp only [DispatcherPc.command, reduceCtorEq,
            not_false_eq_true])
        · exact fun hclose => absurd hclose (by simp only [DispatcherPc.command, reduceCtorEq,
            not_false_eq_true])
  | thread i call =>
      rcases thread_cases s s' i call hstep with ⟨th, pc, hth, -, rfl⟩
      exact hinv.set_thread i th pc hth

theorem inv_run (t : State) (ls : List Label) (hrun : Machine.run step start ls = some t) : Inv t :=
  run_invariant step Inv (fun s l s' hinv => inv_step s s' l hinv) start t ls inv_start hrun

/-! ### What keeps the collection right -/

/-- Where no reader enters and the flag is not set, all stays as it was asked
    for. -/
theorem Follows.of_quiet {s s' : State} (h : Follows s) (hinv' : Inv s')
    (hthreads : ∀ th ∈ s'.threads, th.inside = true →
      ∃ old ∈ s.threads, old.inside = true ∧ th.since = old.since)
    (hcount : s'.threads.countP ReaderThread.inside ≤ s.threads.countP ReaderThread.inside)
    (hflag : s'.m_ReadSystemEventThreadExit = s.m_ReadSystemEventThreadExit)
    (hmessages : ∃ ms, s'.messages = s.messages ++ ms) : Follows s' where
  one := Nat.le_trans hcount h.one
  leaves := by
    intro th hth hinside hexit
    rcases hthreads th hth hinside with ⟨old, hold, holdInside, hsince⟩
    rcases hmessages with ⟨ms, hms⟩
    rw [hms, hsince, List.drop_append]
    exact List.mem_append_left _ (h.leaves old hold holdInside (hflag ▸ hexit))
  closed := hinv'.closed

/-- The readers are who they were. -/
theorem same_readers (s : State) : ∀ th ∈ s.threads, th.inside = true →
    ∃ old ∈ s.threads, old.inside = true ∧ th.since = old.since :=
  fun th hth hinside => ⟨th, hth, hinside, rfl⟩

/-- A thread that is started is not in its loop yet. -/
theorem Follows.beginThread {s : State} (h : Follows s) (pc : DispatcherPc) (created : Bool)
    (hinv' : Inv ({ s with dispatcher := pc }.beginThread created)) :
    Follows ({ s with dispatcher := pc }.beginThread created) := by
  refine h.of_quiet hinv' ?_ ?_ (beginThread_exit _ created)
    ⟨[], by rw [beginThread_messages, List.append_nil]⟩
  · intro th hth hinside
    rcases of_mem_beginThread _ created th hth with hold | rfl
    · exact ⟨th, hold, hinside, rfl⟩
    · exact absurd hinside Bool.false_ne_true
  · cases created with
    | false => exact Nat.le_refl _
    | true =>
        have hnew : List.countP ReaderThread.inside
            [{ since := s.messages.length, pc := .allocating }] = 0 := rfl
        rw [State.beginThread, if_pos rfl, List.countP_append, hnew]
        exact Nat.le_refl _

/-- A reader that does not enter its loop changes nothing. -/
theorem Follows.set_thread {s : State} (h : Follows s) (i : Nat) (th : ReaderThread)
    (pc : ReaderPc) (hth : s.threads[i]? = some th)
    (hinv' : Inv { s with threads := s.threads.set i { th with pc := pc } })
    (hinside : ReaderThread.inside { th with pc := pc } = true → th.inside = true) :
    Follows { s with threads := s.threads.set i { th with pc := pc } } := by
  refine h.of_quiet hinv' ?_ ?_ rfl ⟨[], (List.append_nil _).symm⟩
  · intro th' hth' hin
    rcases Crew.of_mem_set s.threads i _ th' hth' with rfl | hold
    · exact ⟨th, List.mem_of_getElem? hth, hinside hin, rfl⟩
    · exact ⟨th', hold, hin, rfl⟩
  · have hcount := Crew.countP_set ReaderThread.inside s.threads i { th with pc := pc } th hth
    by_cases hin : ReaderThread.inside { th with pc := pc } = true
    · rw [if_pos hin, if_pos (hinside hin)] at hcount
      exact Nat.le_of_eq (Nat.add_right_cancel hcount)
    · rw [if_neg hin] at hcount
      exact Nat.le_trans (Nat.le_add_right _ _) (Nat.le_of_eq hcount)

/-- What a reader that enters its loop makes of it. -/
theorem follows_enter {s : State} (h : Follows s) (i : Nat) (th : ReaderThread) (pc : ReaderPc)
    (hth : s.threads[i]? = some th) (hout : th.inside = false)
    (hin : ReaderThread.inside { th with pc := pc } = true)
    (hinv' : Inv { s with threads := s.threads.set i { th with pc := pc } }) :
    Follows { s with threads := s.threads.set i { th with pc := pc } } ↔
      s.threads.countP ReaderThread.inside = 0 ∧
        (s.m_ReadSystemEventThreadExit = true → .closeAll ∈ s.messages.drop th.since) := by
  have hcount := Crew.countP_set ReaderThread.inside s.threads i { th with pc := pc } th hth
  rw [hout, hin, if_pos rfl, if_neg Bool.false_ne_true, Nat.add_zero] at hcount
  have hself : { th with pc := pc } ∈ s.threads.set i { th with pc := pc } :=
    List.mem_of_getElem? (Crew.getElem?_set_of_some s.threads i _ th hth)
  constructor
  · rintro ⟨hone, hleaves, -⟩
    refine ⟨?_, hleaves { since := th.since, pc := pc } hself hin⟩
    -- One more reader is inside now than before.
    replace hone : (s.threads.set i { th with pc := pc }).countP ReaderThread.inside ≤ 1 := hone
    omega
  · rintro ⟨halone, hmeant⟩
    refine ⟨?_, ?_, hinv'.closed⟩
    · exact Nat.le_of_eq (hcount.trans (congrArg (· + 1) halone))
    · intro th' hth' hinside hexit
      -- The reader that entered, or one that was inside before.
      rcases Crew.of_mem_set s.threads i _ th' hth' with rfl | hold
      · exact hmeant hexit
      · exact h.leaves th' hold hinside hexit

/-- Only a reader that enters its loop has a condition to meet. -/
theorem entersDuly_of_ne (s : State) (i : Nat) (call : Call) (h : call ≠ .openEventLog true) :
    EntersDuly s (.thread i call) := by
  cases call with
  | openEventLog opened =>
      cases opened with
      | false => trivial
      | true => exact absurd rfl h
  | _ => trivial

/-- From a state in which all is as it was asked for, a step leads to one
    exactly when a reader that enters its loop does so duly. -/
theorem follows_step (s : State) (l : Label) (s' : State) (hinv : Inv s) (h : Follows s)
    (hstep : step s l = some s') : Follows s' ↔ EntersDuly s l := by
  have hinv' := inv_step s s' l hinv hstep
  cases l with
  | message c =>
      rcases message_cases s s' c hstep with ⟨-, rfl⟩
      exact iff_of_true
        (h.of_quiet hinv' (same_readers s) (Nat.le_refl _) rfl ⟨[c], rfl⟩) trivial
  | exported =>
      rcases exported_cases s s' hstep with ⟨-, rfl⟩
      exact iff_of_true
        (h.of_quiet hinv' (same_readers s) (Nat.le_refl _) rfl ⟨[], (List.append_nil _).symm⟩)
        trivial
  | beginThread created =>
      refine iff_of_true ?_ trivial
      rcases beginThread_cases s s' created hstep with ⟨-, rfl⟩ | ⟨-, rfl⟩
      · exact h.beginThread .readingLog created hinv'
      · exact h.beginThread .idle created hinv'
  | store =>
      refine iff_of_true ?_ trivial
      rcases store_cases s s' hstep with ⟨-, rfl⟩ | ⟨hpc, rfl⟩
      · exact h.of_quiet hinv' (same_readers s) (Nat.le_refl _) rfl ⟨[], (List.append_nil _).symm⟩
      · -- The close came after every reader that is in.
        rcases hinv.last .closeAll (by rw [hpc]; rfl) with ⟨ms, hms⟩
        refine ⟨h.one, fun th hth _ _ => ?_, hinv'.closed⟩
        have hlt := hinv.since_lt (by rw [hpc]; rfl) th hth
        rw [hms, List.length_append, List.length_singleton] at hlt
        replace hlt : th.since ≤ ms.length := Nat.le_of_lt_succ hlt
        show Command.closeAll ∈ s.messages.drop th.since
        rw [hms, List.drop_append_of_le_length hlt]
        exact List.mem_append_right _ (List.mem_singleton_self _)
  | thread i call =>
      -- Of the steps of a reader only the one into its loop can do harm.
      rcases thread_cases s s' i call hstep with ⟨th, pc, hth, hpc, rfl⟩
      rcases readerStep_cases s.m_ReadSystemEventThreadExit th.pc pc th.since call hpc with
        ⟨-, hout, hcall⟩ | ⟨hin, hcall⟩ | ⟨hout, hin, rfl⟩
      · refine iff_of_true (h.set_thread i th pc hth hinv' ?_) (entersDuly_of_ne s i call hcall)
        exact fun hin => absurd (hin.symm.trans hout) Bool.noConfusion
      · exact iff_of_true (h.set_thread i th pc hth hinv' (fun _ => hin))
          (entersDuly_of_ne s i call hcall)
      · rw [follows_enter h i th pc hth hout hin hinv', EntersDuly, hth]
        simp only [Option.mem_some_iff, forall_eq']

/-! ### Which messages are safe -/

/-- The steps in which a message is handled when no thread can be started. -/
def handling : Command → List Label
  | .openAll => [.message .openAll, .exported, .beginThread false, .beginThread false]
  | .closeAll => [.message .closeAll, .store, .store]

/-- Any messages can be handled without a reader being started. -/
theorem run_messages (ms : List Command) (s : State) (hidle : s.dispatcher = .idle) :
    ∃ ls t, Machine.run step s ls = some t ∧ t.dispatcher = .idle ∧
      t.messages = s.messages ++ ms ∧ t.threads = s.threads := by
  induction ms generalizing s with
  | nil => exact ⟨[], s, rfl, hidle, (List.append_nil _).symm, rfl⟩
  | cons c ms ih =>
      have hone : ∃ u, Machine.run step s (handling c) = some u ∧ u.dispatcher = .idle ∧
          u.messages = s.messages ++ [c] ∧ u.threads = s.threads := by
        rcases s with ⟨evt, read, dispatcher, messages, threads⟩
        replace hidle : dispatcher = .idle := hidle
        subst hidle
        cases c with
        | openAll => exact ⟨_, rfl, rfl, rfl, rfl⟩
        | closeAll => exact ⟨_, rfl, rfl, rfl, rfl⟩
      rcases hone with ⟨u, hu, huidle, humessages, huthreads⟩
      rcases ih u huidle with ⟨ls, t, ht, htidle, htmessages, htthreads⟩
      refine ⟨handling c ++ ls, t, (run_append step s t _ ls).mpr ⟨u, hu, ht⟩, htidle, ?_, ?_⟩
      · rw [htmessages, humessages, List.append_assoc, List.singleton_append]
      · rw [htthreads, huthreads]

/-- An open in which both threads are started and get into their loops. -/
def bothEnter : List Label :=
  [.message .openAll, .exported, .beginThread true, .beginThread true,
    .thread 0 (.malloc (some [])), .thread 0 (.openEventLog true),
    .thread 1 (.malloc (some [])), .thread 1 (.openEventLog true)]

/-- After it two readers are in the loop. -/
theorem run_bothEnter (s : State) (hidle : s.dispatcher = .idle) (hnone : s.threads = []) :
    ∃ t, Machine.run step s bothEnter = some t ∧ t.messages = s.messages ++ [.openAll] ∧
      t.threads.countP ReaderThread.inside = 2 := by
  rcases s with ⟨evt, read, dispatcher, messages, threads⟩
  replace hidle : dispatcher = .idle := hidle
  replace hnone : threads = [] := hnone
  subst hidle hnone
  exact ⟨_, rfl, rfl, rfl⟩

/-- Without an open there are no readers. -/
theorem follows_of_no_open (t : State) (ls : List Label)
    (hrun : Machine.run step start ls = some t) (hopen : .openAll ∉ t.messages) : Follows t := by
  have hinv := inv_run t ls hrun
  have hnone : t.threads = [] := by
    rw [List.eq_nil_iff_forall_not_mem]
    exact fun th hth => hopen (hinv.started th hth)
  refine ⟨?_, ?_, hinv.closed⟩
  · rw [hnone]
    exact Nat.zero_le 1
  · rw [hnone]
    exact fun th hth => absurd hth List.not_mem_nil

end Collection

end SysLog

end Defender
