import Defender.Lib.Wire

/-!
# Reading the System Log

`DoSystemEventThread` reads the System log in a loop until it is told to leave,
and has `AnalyEventData` look at what it read. A sequential read gives as many
whole records as fit in the buffer, one behind the other, each beginning with
its length. When not even one fits, the buffer is allocated anew in the size
the call asked for, and the read is repeated.

What the calls come to in one turn of the loop is a `Turn`. A run of the thread
is a list of turns, and its trace has what was read and what was analysed, in
the order in which it happened. What `AnalyEventData` makes of a record decides
a line of the program's own log and nothing else, and is left out.

The loop passes the buffer to `AnalyEventData` once, with the length of the
record at its beginning. So of every read the first record is analysed, and the
rest is overwritten by the next.

## Main definitions

* `EventRecord`: A whole record.
* `ReadResult`, `Turn`: What the calls come to.
* `readEventLog`, `analyse`, `turn`, `run`: The loop.
* `doSystemEventThread`: The thread.
* `Analysed`: Every record read was analysed in its turn.

## Theorems

* `readEventLog_spec`: A read that succeeds leaves its records in the buffer.
* `turn_spec`: What a turn adds to the trace.
* `run_firstOnly`: What a run adds to the trace.
* `analysed_iff`: Every record is analysed exactly when reads give one each.
* `analysed_twoRecords`: A read that gives two.
-/

namespace Defender

namespace SysLog

open Wire

/-! ### Records -/

/-- `sizeof(EVENTLOGRECORD)`. -/
def eventLogRecordSize : Nat := 56

/-- A whole `EVENTLOGRECORD`, whose first field is its length. -/
structure EventRecord where
  bytes : List UInt8
  size_le : eventLogRecordSize ≤ bytes.length
  length_eq : (dwordAt bytes 0).toNat = bytes.length

/-- Records laid end to end. -/
def layOut (rs : List EventRecord) : List UInt8 :=
  (rs.map EventRecord.bytes).flatten

/-- What `ReadEventLogA` comes to: records, at least one, or an error and the
    size it asks for. -/
inductive ReadResult where
  | records (r : EventRecord) (rs : List EventRecord)
  | failed (lastError : UInt32) (dwNeeded : UInt32)

/-- `ERROR_INVALID_HANDLE`. -/
def errorInvalidHandle : UInt32 := 6

/-- `ERROR_HANDLE_EOF`. -/
def errorHandleEof : UInt32 := 38

/-- `ERROR_INSUFFICIENT_BUFFER`. -/
def errorInsufficientBuffer : UInt32 := 122

/-- `ERROR_EVENTLOG_FILE_CHANGED`. -/
def errorEventLogFileChanged : UInt32 := 1503

/-! ### The loop -/

/-- What a trace records. -/
inductive Event where
  | read (rs : List EventRecord)
  | analysed (pEvtData : List UInt8)

/-- The variables of the thread, and its trace. -/
structure Reader where
  BufferSize : UInt32
  Buffer : List UInt8
  hSysEvent : Bool
  trace : List Event

/-- What the calls of one turn come to: the exit flag, the first read, the
    allocation, the second read, and the log opened again. -/
structure Turn where
  exit : Bool
  first : ReadResult
  malloc : Option (List UInt8)
  second : ReadResult
  reopened : Bool

/-- `ReadEventLogA`: the value returned, the last error and the size asked for.
    Without a handle it fails, and it gives only records that fit. -/
def readEventLog (d : Reader) (result : ReadResult) : Bool × UInt32 × UInt32 × Reader :=
  if d.hSysEvent = false then (false, errorInvalidHandle, 0, d)
  else
    match result with
    | .failed lastError dwNeeded => (false, lastError, dwNeeded, d)
    | .records r rs =>
        if (layOut (r :: rs)).length ≤ d.BufferSize.toNat then
          (true, 0, 0, { d with
            Buffer := poke d.Buffer 0 (layOut (r :: rs))
            trace := d.trace ++ [.read (r :: rs)] })
        else (false, errorInsufficientBuffer, UInt32.ofNat r.bytes.length, d)

/-- The buffer is passed to `AnalyEventData`, with the length of the record at
    its beginning. -/
def analyse (d : Reader) : Reader :=
  { d with trace := d.trace ++ [.analysed (slice d.Buffer 0 (dwordAt d.Buffer 0).toNat)] }

/-- One turn of the loop: whether there is another, and the thread's variables
    behind it. -/
def turn (d : Reader) (t : Turn) : Bool × Reader :=
  if t.exit = true then (false, d)
  else
    match readEventLog d t.first with
    -- The buffer is not walked: one call, whatever was read.
    | (true, _, _, d) => (true, analyse d)
    | (false, lastError, dwNeeded, d) =>
        if lastError = errorInsufficientBuffer then
          match t.malloc with
          | none => (false, { d with BufferSize := dwNeeded, Buffer := [] })
          | some Buffer =>
              match readEventLog { d with BufferSize := dwNeeded, Buffer := Buffer } t.second with
              | (true, _, _, d) => (true, analyse d)
              | (false, _, _, d) => (false, d)
        else if lastError = errorHandleEof then (true, d)
        else if lastError = errorEventLogFileChanged then
          -- The loop is left when the log could be opened again.
          if t.reopened = true then (false, { d with hSysEvent := true })
          else (true, { d with hSysEvent := false })
        else (false, d)

/-- The loop, as far as the turns go. -/
def run (d : Reader) : List Turn → Reader
  | [] => d
  | t :: ts =>
      match turn d t with
      | (false, d) => d
      | (true, d) => run d ts

/-- `DoSystemEventThread`: the trace of a run, with what the calls before the
    loop come to. -/
def doSystemEventThread (malloc : Option (List UInt8)) (opened : Bool) (ts : List Turn) :
    List Event :=
  match malloc with
  | none => []
  | some Buffer =>
      if opened = false then []
      else (run { BufferSize := 4096, Buffer := Buffer, hSysEvent := true, trace := [] } ts).trace

/-! ### What is analysed -/

/-- The reads of a trace. -/
def readsOf (trace : List Event) : List (List EventRecord) :=
  trace.filterMap (fun e => match e with
    | .read rs => some rs
    | .analysed _ => none)

/-- What is to follow a read. -/
def analysedAll (rs : List EventRecord) : List Event :=
  .read rs :: rs.map (fun r => .analysed r.bytes)

/-- Behind every read, and before the next, each of its records was analysed
    once, in order. -/
def Analysed (trace : List Event) : Prop :=
  trace = (readsOf trace).flatMap analysedAll

/-- What follows a read. -/
def analysedFirst (rs : List EventRecord) : List Event :=
  .read rs :: (rs.take 1).map (fun r => .analysed r.bytes)

/-- The record at the beginning of the buffer. -/
theorem first_of_layOut (Buffer : List UInt8) (r : EventRecord) (rs : List EventRecord) :
    slice (poke Buffer 0 (layOut (r :: rs))) 0 (dwordAt (poke Buffer 0 (layOut (r :: rs))) 0).toNat
      = r.bytes := by
  have hsize : eventLogRecordSize = 56 := rfl
  have hlong := r.size_le
  have hsplit : poke Buffer 0 (layOut (r :: rs))
      = r.bytes ++ (layOut rs ++ Buffer.drop (0 + (layOut (r :: rs)).length)) := by
    rw [poke, List.take_zero, List.nil_append, layOut, List.map_cons, List.flatten_cons, layOut,
      List.append_assoc]
  rw [hsplit, dwordAt_append_left _ _ _ (by omega), r.length_eq,
    slice_append_left _ _ _ _ (by omega)]
  exact slice_all r.bytes _ (Nat.le_refl _)

/-- A read either fails and changes nothing, or leaves its records in the
    buffer. -/
theorem readEventLog_spec (d d' : Reader) (result : ReadResult) (retval : Bool)
    (lastError dwNeeded : UInt32)
    (h : readEventLog d result = (retval, lastError, dwNeeded, d')) :
    (retval = false ∧ d' = d) ∨
      (retval = true ∧ ∃ r rs, d'.trace = d.trace ++ [.read (r :: rs)] ∧
        d'.Buffer = poke d.Buffer 0 (layOut (r :: rs))) := by
  unfold readEventLog at h
  split at h
  · rcases Prod.mk.inj h with ⟨hret, hrest⟩
    exact Or.inl ⟨hret.symm, (Prod.mk.inj (Prod.mk.inj hrest).2).2.symm⟩
  · cases result with
    | failed lastError' dwNeeded' =>
        rcases Prod.mk.inj h with ⟨hret, hrest⟩
        exact Or.inl ⟨hret.symm, (Prod.mk.inj (Prod.mk.inj hrest).2).2.symm⟩
    | records r rs =>
        dsimp only at h
        split at h
        · rcases Prod.mk.inj h with ⟨hret, hrest⟩
          have hd := (Prod.mk.inj (Prod.mk.inj hrest).2).2
          refine Or.inr ⟨hret.symm, r, rs, ?_, ?_⟩
          · rw [← hd]
          · rw [← hd]
        · rcases Prod.mk.inj h with ⟨hret, hrest⟩
          exact Or.inl ⟨hret.symm, (Prod.mk.inj (Prod.mk.inj hrest).2).2.symm⟩

/-- Behind a read that succeeds its first record is analysed. -/
theorem analyse_trace (d : Reader) (Buffer : List UInt8) (trace : List Event) (r : EventRecord)
    (rs : List EventRecord) (htrace : d.trace = trace ++ [.read (r :: rs)])
    (hbuffer : d.Buffer = poke Buffer 0 (layOut (r :: rs))) :
    (analyse d).trace = trace ++ analysedFirst (r :: rs) := by
  rw [analyse, hbuffer, first_of_layOut, htrace, List.append_assoc]
  rfl

/-- A turn adds nothing to the trace, or a read that succeeded and its first
    record. -/
theorem turn_spec (d : Reader) (t : Turn) :
    (turn d t).2.trace = d.trace ∨
      ∃ r rs, (turn d t).2.trace = d.trace ++ analysedFirst (r :: rs) := by
  unfold turn
  split
  · exact Or.inl rfl
  rcases hread : readEventLog d t.first with ⟨retval, lastError, dwNeeded, d₁⟩
  -- The first read of the turn, after which the buffer may be too small.
  rcases readEventLog_spec d d₁ t.first retval lastError dwNeeded hread with
    ⟨rfl, rfl⟩ | ⟨rfl, r, rs, htrace, hbuffer⟩
  · dsimp only
    split
    · -- The read is repeated with a buffer of the size asked for.
      cases t.malloc with
      | none => exact Or.inl rfl
      | some Buffer =>
          dsimp only
          rcases hread₂ : readEventLog { d₁ with BufferSize := dwNeeded, Buffer := Buffer } t.second
            with ⟨retval₂, lastError₂, dwNeeded₂, d₂⟩
          rcases readEventLog_spec _ d₂ t.second retval₂ lastError₂ dwNeeded₂ hread₂ with
            ⟨rfl, rfl⟩ | ⟨rfl, r, rs, htrace, hbuffer⟩
          · exact Or.inl rfl
          · exact Or.inr ⟨r, rs, analyse_trace d₂ Buffer d₁.trace r rs htrace hbuffer⟩
    · split
      · exact Or.inl rfl
      · split
        · split
          · exact Or.inl rfl
          · exact Or.inl rfl
        · exact Or.inl rfl
  · exact Or.inr ⟨r, rs, analyse_trace d₁ d.Buffer d.trace r rs htrace hbuffer⟩

theorem readsOf_append (trace trace' : List Event) :
    readsOf (trace ++ trace') = readsOf trace ++ readsOf trace' :=
  List.filterMap_append

theorem readsOf_analysedFirst (r : EventRecord) (rs : List EventRecord) :
    readsOf (analysedFirst (r :: rs)) = [r :: rs] := rfl

/-- A trace in which every read is followed by its first record, and no read is
    empty. -/
def FirstOnly (trace : List Event) : Prop :=
  trace = (readsOf trace).flatMap analysedFirst ∧ ∀ rs ∈ readsOf trace, rs ≠ []

theorem firstOnly_append (trace : List Event) (r : EventRecord) (rs : List EventRecord)
    (h : FirstOnly trace) : FirstOnly (trace ++ analysedFirst (r :: rs)) := by
  rcases h with ⟨htrace, hnonempty⟩
  refine ⟨?_, fun xs hxs => ?_⟩
  · rw [readsOf_append, readsOf_analysedFirst, List.flatMap_append, ← htrace,
      List.flatMap_singleton]
  · rw [readsOf_append, readsOf_analysedFirst, List.mem_append, List.mem_singleton] at hxs
    rcases hxs with hxs | rfl
    · exact hnonempty xs hxs
    · exact List.cons_ne_nil r rs

/-- What a run adds to the trace. Induction on the turns. -/
theorem run_firstOnly (d : Reader) (ts : List Turn) (h : FirstOnly d.trace) :
    FirstOnly (run d ts).trace := by
  induction ts generalizing d with
  | nil => exact h
  | cons t ts ih =>
      have hturn : FirstOnly (turn d t).2.trace := by
        rcases turn_spec d t with htrace | ⟨r, rs, htrace⟩
        · rw [htrace]
          exact h
        · rw [htrace]
          exact firstOnly_append d.trace r rs h
      rw [run]
      rcases hstep : turn d t with ⟨more, d'⟩
      rw [hstep] at hturn
      cases more with
      | false => exact hturn
      | true => exact ih d' hturn

/-- The trace of the thread. -/
theorem doSystemEventThread_firstOnly (malloc : Option (List UInt8)) (opened : Bool)
    (ts : List Turn) : FirstOnly (doSystemEventThread malloc opened ts) := by
  have hnil : FirstOnly [] := ⟨rfl, fun rs hrs => absurd hrs List.not_mem_nil⟩
  unfold doSystemEventThread
  cases malloc with
  | none => exact hnil
  | some Buffer =>
      dsimp only
      split
      · exact hnil
      · exact run_firstOnly _ ts hnil

/-- What follows the first of some reads begins with a read. -/
theorem flatMap_ne_analysed (reads : List (List EventRecord)) (pEvtData : List UInt8)
    (rest : List Event) : reads.flatMap analysedFirst ≠ .analysed pEvtData :: rest := by
  cases reads with
  | nil => exact (List.cons_ne_nil _ _).symm
  | cons rs reads =>
      intro heq
      rw [List.flatMap_cons, analysedFirst, List.cons_append] at heq
      exact absurd (List.cons.inj heq).1 (by simp only [reduceCtorEq, not_false_eq_true])

/-- Following every read by its first record is following it by all of them
    only when there is no other. Induction on the reads. -/
theorem flatMap_analysed_iff (reads : List (List EventRecord)) (h : ∀ rs ∈ reads, rs ≠ []) :
    reads.flatMap analysedFirst = reads.flatMap analysedAll ↔ ∀ rs ∈ reads, rs.length = 1 := by
  induction reads with
  | nil => exact iff_of_true rfl (fun rs hrs => absurd hrs List.not_mem_nil)
  | cons rs reads ih =>
      have hrest := ih (fun xs hxs => h xs (List.mem_cons_of_mem rs hxs))
      rw [List.flatMap_cons, List.flatMap_cons, List.forall_mem_cons, ← hrest]
      cases rs with
      | nil => exact absurd rfl (h [] List.mem_cons_self)
      | cons r rs =>
          cases rs with
          | nil =>
              have hone : analysedFirst [r] = analysedAll [r] := rfl
              rw [hone, List.append_cancel_left_eq]
              exact (and_iff_right rfl).symm
          | cons r' rs =>
              -- The second record would have to come where the next read is.
              refine iff_of_false (fun heq => ?_)
                (fun hlen => absurd hlen.1 (by simp only [List.length_cons]; omega))
              have htail := (List.cons.inj (List.cons.inj heq).2).2
              exact flatMap_ne_analysed reads r'.bytes _ htail

/-- Every record that is read is analysed in its turn exactly when every read
    that succeeds gives one. -/
theorem analysed_iff (malloc : Option (List UInt8)) (opened : Bool) (ts : List Turn) :
    Analysed (doSystemEventThread malloc opened ts) ↔
      ∀ rs ∈ readsOf (doSystemEventThread malloc opened ts), rs.length = 1 := by
  rcases doSystemEventThread_firstOnly malloc opened ts with ⟨htrace, hnonempty⟩
  rw [← flatMap_analysed_iff _ hnonempty, ← htrace, Analysed]

/-- A record without strings. -/
def plainRecord (EventID : UInt8) : EventRecord where
  bytes := le32 56 ++ List.replicate 16 0 ++ [EventID] ++ List.replicate 35 0
  size_le := Nat.le_of_eq rfl
  length_eq := rfl

/-- A turn whose read gives two records. -/
def twoRecords : Turn where
  exit := false
  first := .records (plainRecord 1) [plainRecord 2]
  malloc := none
  second := .failed 0 0
  reopened := false

/-- The first read gives two records, and the second of them is not
    analysed. -/
theorem analysed_twoRecords :
    ¬ Analysed (doSystemEventThread (some (List.replicate 4096 0)) true [twoRecords]) := by
  intro hanalysed
  have hlength := congrArg List.length hanalysed
  exact absurd hlength (by decide +kernel)

end SysLog

end Defender
