import Defender.Pe.Coverage
import Defender.Pe.HeaderReads

/-!
# Failures of the Digest

A seek or a read can fail, or give less than was asked for, and the buffer of
`Emit` may not be there. `__calculate` and `Emit` say so in what they return.
`__AuImageGetDigestStream` does not look at it, so the result is true however
much of the file was read, and `ImageDigestCalcExtBySHA1Lib` returns the
digest of what there was.

Two failures before `Emit` are lost as well. `__KeReadDataSpec` returns what was
on the stack when its seek or read fails, which may be true. And when
`CalculateImagePtrs` rejects a file for what is in it, no call has failed, and
the code that `GetLastError` gives may be zero.

What calls are needed is settled before they are made: the header reads, and
those for the pieces of the pass. A run is one with all of them exactly when it
returns true (`Makes`). Where all succeed they are the calls that the file asks
for, by the fields of its headers (`headerReads`) and by what lies between the
ranges that they give (`gapCalls`). So the result can be relied on when none of
these fails, and the file is not so large that some of it is never asked for
(`reports_iff`).

## Main definitions

* `FileCall`, `AllSucceed`: Calls, and what it is that all of them succeed.
* `emitCalls`, `headerCalls`: The calls that are needed.
* `headerReads`, `gapCalls`: Those that the file asks for.
* `imageDigestCalcExtBySHA1Lib`: The digest of a file by its name.
* `Reported`: What is wanted when the result is true.
* `ReportsWhen`: What it depends on.

## Theorems

* `calculateAll_makes`: The pass makes its calls, or fails.
* `emit_returns_iff`: When `Emit` returns true.
* `calls_iff_accepted`, `calls_iff_notAccepted`: The calls are those that the
  file asks for.
* `reports_iff`: When the result can be relied on.
* `reports_not`: A read that fails.
-/

namespace Defender

namespace Pe

open Wire Ranges

/-! ### Calls -/

/-- A call on the file: a seek, or a read at a position. -/
inductive FileCall where
  | seek (Offset : Nat)
  | read (pos length : Nat)

/-- A call succeeds in full, if it is the call of a number. -/
def FileCall.Succeeds (o : IoOutcomes) (file : List UInt8) (k : Nat) : FileCall → Prop
  | .seek _ => o.seekOk k = true
  | .read pos length => FullRead o file { pos := pos, calls := k, blocks := [] } length

/-- Calls made one after the other, from a number on, all succeed in full. -/
def AllSucceed (o : IoOutcomes) (file : List UInt8) (k : Nat) : List FileCall → Prop
  | [] => True
  | c :: cs => c.Succeeds o file k ∧ AllSucceed o file (k + 1) cs

theorem allSucceed_append (o : IoOutcomes) (file : List UInt8) (k : Nat) (cs cs' : List FileCall) :
    AllSucceed o file k (cs ++ cs')
      ↔ AllSucceed o file k cs ∧ AllSucceed o file (k + cs.length) cs' := by
  induction cs generalizing k with
  | nil => exact (and_iff_right trivial).symm
  | cons c cs ih =>
      have hshift : k + (c :: cs).length = k + 1 + cs.length := by
        rw [List.length_cons]
        omega
      rw [List.cons_append, AllSucceed, AllSucceed, ih, hshift, and_assoc]

/-- The reads of `__calculate` for what is left. -/
def blockReads (pos left : Nat) : List FileCall :=
  if _hleft : left = 0 then []
  else
    .read pos (min left emitBufferSize)
      :: blockReads (pos + min left emitBufferSize) (left - min left emitBufferSize)
termination_by left
decreasing_by
  simp only [emitBufferSize]
  omega

/-- The calls for a piece. -/
def pieceCalls (p : Nat × Nat) : List FileCall :=
  .seek p.1 :: blockReads p.1 (long p.2).toNat

/-- The calls of the pass over the ranges. -/
def emitCalls (rs : List ExcludeRange) (Size : Nat) : List FileCall :=
  (pieces rs Size 0).flatMap pieceCalls

/-- The calls for the headers, if they are accepted: the DOS header, the NT
    headers, and the wider ones if the ranges are taken from them. -/
def headerCalls (o : IoOutcomes) (file : List UInt8) : List FileCall :=
  let (ok, pe, _) := imagePtrs o file
  let offset := pe.ntHdrOffset.toNat
  if ok = false then []
  else
    [.read 0 dosHeaderSize, .seek offset, .read offset ntHeaders32Size]
      ++ if pe.NumberOfSections > 0 ∧ word16At pe.ntHdr 24 = imageNtOptionalHdr64Magic then
          [.seek offset, .read offset ntHeaders64Size]
        else []

/-- The calls that the headers of the file ask for. -/
def headerReads (file : List UInt8) : List FileCall :=
  [.read 0 dosHeaderSize, .seek (headerOffset file), .read (headerOffset file) ntHeaders32Size]
    ++ if Wide file then [.seek (headerOffset file), .read (headerOffset file) ntHeaders64Size]
      else []

/-- The calls that what is left of the file between ranges asks for. -/
def gapCalls (file : List UInt8) (rs : List Range) : List FileCall :=
  (gaps file.length rs 0).flatMap (fun g => .seek g.1 :: blockReads g.1 g.2)

/-! ### Runs -/

/-- A run makes its calls and returns true, or one of them fails and it returns
    false. -/
def Makes (o : IoOutcomes) (file : List UInt8) (cs : List FileCall) (d : Handle)
    (r : Bool × Handle) : Prop :=
  (AllSucceed o file d.calls cs ∧ r.1 = true ∧ r.2.calls = d.calls + cs.length) ∨
    (¬ AllSucceed o file d.calls cs ∧ r.1 = false)

/-- What was digested before is nothing to a read. -/
theorem fullRead_iff (o : IoOutcomes) (file : List UInt8) (d : Handle) (length : Nat) :
    FullRead o file d length
      ↔ (FileCall.read d.pos length).Succeeds o file d.calls := by
  unfold FileCall.Succeeds FullRead readFile
  dsimp only
  cases o.read d.calls with
  | none => exact Iff.rfl
  | some limit => exact Iff.rfl

theorem calcLoop_makes (o : IoOutcomes) (file : List UInt8) (left : Nat) (d : Handle) :
    Makes o file (blockReads d.pos left) d (calcLoop o file left d) := by
  induction left using Nat.strongRecOn generalizing d with
  | ind left ih =>
      rw [blockReads]
      by_cases hleft : left = 0
      · rw [dif_pos hleft, calcLoop, dif_pos hleft]
        exact Or.inl ⟨trivial, rfl, rfl⟩
      have hbuffer : emitBufferSize = 40960 := rfl
      rw [dif_neg hleft]
      -- A short read ends the loop, and a full one leaves less than there was.
      by_cases hfull : FullRead o file d (min left emitBufferSize)
      · rw [calcLoop_full o file left d hleft hfull]
        rcases ih (left - min left emitBufferSize) (by omega)
          { pos := d.pos + min left emitBufferSize
            calls := d.calls + 1
            blocks := d.blocks ++ [slice file d.pos (min left emitBufferSize)] } with
          ⟨hrest, hret, hcalls⟩ | ⟨hrest, hret⟩
        · refine Or.inl ⟨⟨(fullRead_iff o file d _).mp hfull, hrest⟩, hret, ?_⟩
          rw [hcalls, List.length_cons]
          dsimp only
          omega
        · exact Or.inr ⟨fun h => hrest h.2, hret⟩
      · exact Or.inr ⟨fun h => hfull ((fullRead_iff o file d _).mpr h.1),
          calcLoop_short o file left d hleft hfull⟩

theorem calculate_makes (o : IoOutcomes) (file : List UInt8) (Offset size : Nat) (d : Handle) :
    Makes o file (pieceCalls (Offset, size)) d (calculate o file Offset size d) := by
  have hneg : ¬ (Offset : Int) < 0 := by omega
  rw [calculate, setFilePointerEx, pieceCalls]
  by_cases hseek : o.seekOk d.calls = false
  · -- The seek is the first call of the piece.
    rw [if_pos (Or.inl hseek)]
    exact Or.inr ⟨fun h => Bool.false_ne_true (hseek.symm.trans h.1), rfl⟩
  · rw [if_neg (not_or.mpr ⟨hseek, hneg⟩), Int.toNat_natCast]
    dsimp only
    rcases calcLoop_makes o file (long size).toNat { d with pos := Offset, calls := d.calls + 1 }
      with ⟨hreads, hret, hcalls⟩ | ⟨hreads, hret⟩
    · refine Or.inl ⟨⟨eq_true_of_ne_false hseek, hreads⟩, hret, ?_⟩
      rw [hcalls, List.length_cons]
      dsimp only
      omega
    · exact Or.inr ⟨fun h => hreads h.2, hret⟩

/-- The pieces of a pass make their calls, or one of them fails. Induction on the
    pieces; each goes on with the number that the one before left. -/
theorem calculateAll_makes (o : IoOutcomes) (file : List UInt8) (ps : List (Nat × Nat))
    (d : Handle) : Makes o file (ps.flatMap pieceCalls) d (calculateAll o file ps d) := by
  induction ps generalizing d with
  | nil => exact Or.inl ⟨trivial, rfl, rfl⟩
  | cons p ps ih =>
      rw [List.flatMap_cons, Makes, allSucceed_append, calculateAll]
      rcases hcalc : calculate o file p.1 p.2 d with ⟨ok, d₁⟩
      have hmakes := calculate_makes o file p.1 p.2 d
      rw [hcalc] at hmakes
      rcases hmakes with ⟨hfirst, rfl, hcalls⟩ | ⟨hfirst, rfl⟩
      · dsimp only at hcalls ⊢
        rcases ih d₁ with ⟨hrest, hret, hend⟩ | ⟨hrest, hret⟩
        · rw [hcalls] at hrest hend
          refine Or.inl ⟨⟨hfirst, hrest⟩, hret, ?_⟩
          rw [hend, List.length_append, Nat.add_assoc]
        · rw [hcalls] at hrest
          exact Or.inr ⟨fun h => hrest h.2, hret⟩
      · -- The pass ends with the first piece that fails.
        exact Or.inr ⟨fun h => hfirst h.1, rfl⟩

/-- `Emit` returns true when it has its buffer and none of its calls fails. -/
theorem emit_returns_iff (o : IoOutcomes) (file : List UInt8) (rs : List ExcludeRange) (Size : Nat)
    (d : Handle) : (emit o file rs Size d).1 = true
      ↔ o.mallocBuffer = true ∧ AllSucceed o file d.calls (emitCalls rs Size) := by
  cases hmalloc : o.mallocBuffer with
  | false =>
      rw [emit, if_pos hmalloc]
      exact iff_of_false Bool.false_ne_true (fun h => Bool.false_ne_true h.1)
  | true =>
      rw [emit, if_neg (by rw [hmalloc]; decide), emitLoop_eq, emitCalls]
      rcases calculateAll_makes o file (pieces rs Size 0) d with ⟨hall, hret, -⟩ | ⟨hall, hret⟩
      · exact iff_of_true hret ⟨rfl, hall⟩
      · rw [hret]
        exact iff_of_false Bool.false_ne_true (fun h => hall h.2)

/-! ### The result -/

/-- `ImageDigestCalcExtBySHA1Lib`, with what the file is opened to: the value
    returned, and the digest, which is not written without a file. -/
def imageDigestCalcExtBySHA1Lib (sha1 : List UInt8 → List UInt8) (opened : Bool) (o : IoOutcomes)
    (file digest : List UInt8) (bForce : Bool) : Bool × List UInt8 :=
  if opened = false then (false, digest)
  else
    let r := auImageGetDigestStream o file [] bForce
    (r.bRet, poke digest 0 (sha1 r.blocks.flatten))

/-- What is wanted when the result is true: `Emit` was called and had its buffer,
    every call that was needed succeeded in full, and the bytes outside the
    ranges were passed on, in order. -/
structure Reported (o : IoOutcomes) (file : List UInt8) (bForce : Bool) : Prop where
  buffer : (∃ rs, (emitStart o file bForce).1 = .ok rs) ∧ o.mallocBuffer = true
  headers : AllSucceed o file 0 (headerCalls o file)
  calls : AllSucceed o file (emitStart o file bForce).2.calls
    (emitCalls (addedRanges o file bForce) (dword (long file.length)))
  passed : (keep (outside ((addedRanges o file bForce).map ExcludeRange.unwrapped)) 0 file).Sublist
    (auImageGetDigestStream o file [] bForce).blocks.flatten

/-- What it depends on. Where the code is left to `GetLastError` it is one. And
    where `Emit` is called it has its buffer, the file is below 2^31, and every
    call succeeds in full that the file asks for: those for its headers and for
    what lies outside the ranges that they give, if headers were accepted, and
    those for the whole file if not. -/
structure ReportsWhen (o : IoOutcomes) (file : List UInt8) (bForce : Bool) : Prop where
  code : o.sizeOk = false ∨ (file.length ≠ 0 ∧ o.mallocData = true ∧ ¬ Accepted o file ∧
    bForce = false) → o.lastError ≠ 0
  buffer : Reaches o file bForce → o.mallocBuffer = true
  small : Reaches o file bForce → file.length < 2147483648
  accepted : Reaches o file bForce → Accepted o file →
    AllSucceed o file 0 (headerReads file ++ gapCalls file (takenOut file))
  forced : Reaches o file bForce → ¬ Accepted o file →
    AllSucceed o file (headerCallsMade o file) (gapCalls file [])

/-! ### The calls of a file -/

/-- The code is left to `GetLastError` where the headers were not accepted. -/
theorem leavesWithLastError_iff (o : IoOutcomes) (file : List UInt8) (bForce : Bool) :
    LeavesWithLastError o file bForce ↔ o.sizeOk = false ∨ (file.length ≠ 0 ∧
      o.mallocData = true ∧ ¬ Accepted o file ∧ bForce = false) := by
  rw [LeavesWithLastError, ← (imagePtrs_reads o file).1, Bool.not_eq_true]

/-- Below 2^31 the calls of the pass are those for what the ranges leave. -/
theorem emitCalls_eq (file : List UInt8) (rs : List ExcludeRange) (hsorted : Sorted rs)
    (hsmall : file.length < 2147483648) :
    emitCalls rs (dword (long file.length)) = gapCalls file (rs.map skipped) := by
  have hgaps := pieces_eq_gaps rs hsorted file.length 0 (Nat.zero_le _) (by omega)
  rw [Nat.sub_zero] at hgaps
  rw [emitCalls, gapCalls, dword_long, Nat.mod_eq_of_lt (by omega), ← hgaps]
  refine List.flatMap_congr (fun p hp => ?_)
  have hin := pieces_inside rs file.length 0 p hp
  rw [pieceCalls, long_of_lt p.2 (by omega), Int.toNat_natCast]

/-- With the calls for the headers they were read in full. -/
theorem readAt_of_headerReads (o : IoOutcomes) (file : List UInt8)
    (h : AllSucceed o file 0 (headerReads file)) :
    ReadAt o file 1 (headerOffset file) ntHeaders32Size ∧
      (Wide file → ReadAt o file 3 (headerOffset file) ntHeaders64Size) := by
  rw [headerReads, allSucceed_append] at h
  refine ⟨⟨h.1.2.1, h.1.2.2.1⟩, fun hwide => ?_⟩
  rw [if_pos hwide] at h
  exact ⟨h.2.1, h.2.2.1⟩

/-- The calls that were needed for accepted headers are those the file asks for,
    once the NT headers were read in full. -/
theorem headerCalls_iff (o : IoOutcomes) (file : List UInt8) (haccepted : Accepted o file) :
    AllSucceed o file 0 (headerCalls o file) ↔ AllSucceed o file 0 (headerReads file) := by
  rcases imagePtrs_reads o file with ⟨hret, hsections, hfound, -⟩
  rcases hfound haccepted with ⟨hbytes, hoffset⟩
  rw [headerCalls, headerReads]
  dsimp only
  rw [if_neg (by rw [hret.mpr haccepted]; decide), hoffset, Int.toNat_natCast, allSucceed_append,
    allSucceed_append]
  refine and_congr_right (fun hfirst => ?_)
  -- Fields that were read in full are those of the file.
  rcases ntHdrAt_fields o file ⟨hfirst.2.1, hfirst.2.2.1⟩ with ⟨hheaders, hsix, hmagic⟩
  have hwide : (imagePtrs o file).2.1.NumberOfSections > 0 ∧
      word16At (imagePtrs o file).2.1.ntHdr 24 = imageNtOptionalHdr64Magic ↔ Wide file := by
    rw [gt_iff_lt, hsections, hbytes, hmagic]
    constructor
    · exact fun h => ⟨hheaders.mp h.1.nt, by rw [← hsix]; exact h.1.sections, h.2⟩
    · exact fun h => ⟨⟨haccepted, hheaders.mpr h.1, by rw [hsix]; exact h.2.1⟩, h.2.2⟩
  simp only [hwide]

/-- The calls made by the headers and the pass, when `Emit` is called with a list:
    those that the file asks for. -/
theorem calls_iff_accepted (o : IoOutcomes) (file : List UInt8) (bForce : Bool)
    (rs : List ExcludeRange) (d : Handle) (hstart : emitStart o file bForce = (.ok rs, d))
    (hsorted : Sorted rs) (hsmall : file.length < 2147483648) (haccepted : Accepted o file) :
    AllSucceed o file 0 (headerCalls o file) ∧
        AllSucceed o file d.calls (emitCalls rs (dword (long file.length))) ↔
      AllSucceed o file 0 (headerReads file ++ gapCalls file (takenOut file)) := by
  rw [headerCalls_iff o file haccepted, allSucceed_append]
  refine and_congr_right (fun hheaders => ?_)
  rcases readAt_of_headerReads o file hheaders with ⟨hread, hwide⟩
  rcases emitStart_accepted o file bForce rs d hstart haccepted hread hwide with ⟨hrs, hcalls⟩
  have hlength : 0 + (headerReads file).length = if Wide file then 5 else 3 := by
    rw [headerReads, Nat.zero_add]
    by_cases hw : Wide file
    · rw [if_pos hw, if_pos hw]
      rfl
    · rw [if_neg hw, if_neg hw]
      rfl
  rw [emitCalls_eq file rs hsorted hsmall, hrs, hcalls, hlength]

theorem calls_iff_notAccepted (o : IoOutcomes) (file : List UInt8) (bForce : Bool)
    (rs : List ExcludeRange) (d : Handle) (hstart : emitStart o file bForce = (.ok rs, d))
    (hsmall : file.length < 2147483648) (hnot : ¬ Accepted o file) :
    AllSucceed o file 0 (headerCalls o file) ∧
        AllSucceed o file d.calls (emitCalls rs (dword (long file.length))) ↔
      AllSucceed o file (headerCallsMade o file) (gapCalls file []) := by
  have hfalse : (imagePtrs o file).1 = false := by
    rw [← Bool.not_eq_true, (imagePtrs_reads o file).1]
    exact hnot
  have hnone : headerCalls o file = [] := if_pos hfalse
  rcases emitStart_notAccepted o file bForce rs d hstart hnot with ⟨rfl, hcalls⟩
  rw [hnone, hcalls, emitCalls_eq file [] sorted_nil hsmall, List.map_nil]
  exact and_iff_right trivial

/-! ### When the result can be relied on -/

/-- When no call of `Emit` fails, what is outside the ranges is passed on exactly of
    files below 2^31. -/
theorem sublist_iff (o : IoOutcomes) (file : List UInt8) (bForce : Bool) :
    (keep (outside ((addedRanges o file bForce).map ExcludeRange.unwrapped)) 0 file).Sublist
        (passed file (addedRanges o file bForce) (dword (long file.length)))
      ↔ file.length < 2147483648 := by
  constructor
  · intro hsub
    by_contra hlarge
    -- More bytes lie outside the ranges than are passed on.
    have hle := hsub.length_le
    have hshort := large_short o file bForce (by omega)
    have hnot := countP_add_not (outside ((addedRanges o file bForce).map ExcludeRange.unwrapped))
      (List.range file.length)
    rw [length_keep, ← List.range_eq_range'] at hle
    rw [List.length_range] at hnot
    rw [covered] at hshort
    omega
  · intro hsmall
    have hdword : dword (long file.length) = file.length := by
      rw [dword_long, Nat.mod_eq_of_lt (by omega)]
    rw [hdword, passed, pieces_content file _ (addedRanges_sorted o file bForce) _ (Nat.le_refl _)
      hsmall, List.take_length]
    exact keep_sublist _ _ 0 file (fun k hout => outside_skipped_of_unwrapped hout)

/-- Without `Emit` the result is that of the code. -/
theorem reports_iff_error (o : IoOutcomes) (file : List UInt8) (bForce : Bool) (rc : Nat)
    (d : Handle) (hstart : emitStart o file bForce = (.error rc, d)) :
    ((auImageGetDigestStream o file [] bForce).bRet = true → Reported o file bForce)
      ↔ ReportsWhen o file bForce := by
  have hret : (auImageGetDigestStream o file [] bForce).bRet = decide (rc = 0) := by
    rw [auImageGetDigestStream_eq, hstart]
    rfl
  have hemits : ¬ ∃ rs d', emitStart o file bForce = (.ok rs, d') := by
    rw [hstart]
    exact error_ne_ok rc d
  have hreaches : ¬ Reaches o file bForce := fun h =>
    hemits ((emitStart_ok_iff o file bForce).mpr h)
  -- Where `Emit` is not called nothing can be relied on.
  have hnot : ¬ Reported o file bForce := by
    intro hreported
    rcases hreported.buffer.1 with ⟨rs, hrs⟩
    exact hemits ⟨rs, _, Prod.ext hrs rfl⟩
  have hcode : ReportsWhen o file bForce ↔
      (LeavesWithLastError o file bForce → o.lastError ≠ 0) := by
    rw [leavesWithLastError_iff]
    exact ⟨fun h => h.code, fun h => ⟨h, fun hr => absurd hr hreaches,
      fun hr => absurd hr hreaches, fun hr => absurd hr hreaches, fun hr => absurd hr hreaches⟩⟩
  rw [hret, imp_iff_not hnot, decide_eq_true_eq, hcode]
  rcases emitStart_error o file bForce rc d hstart with ⟨hleaves, hrc⟩ | ⟨hleaves, hrc⟩
  · rw [hrc, forall_prop_of_true hleaves]
  · exact iff_of_true hrc (fun h => absurd h hleaves)

/-- With a buffer and calls that succeed, what `Emit` passes on is settled. -/
theorem blocks_of_calls (o : IoOutcomes) (file : List UInt8) (bForce : Bool)
    (rs : List ExcludeRange) (d : Handle) (hstart : emitStart o file bForce = (.ok rs, d))
    (hmalloc : o.mallocBuffer = true)
    (hcalls : AllSucceed o file d.calls (emitCalls rs (dword (long file.length)))) :
    (auImageGetDigestStream o file [] bForce).blocks.flatten
      = passed file rs (dword (long file.length)) := by
  have hblocks := emitStart_blocks o file bForce
  rw [hstart] at hblocks
  -- Nothing was digested before `Emit`, so what it passes on is all.
  have hemit := (emit_returns_iff o file rs _ d).mpr ⟨hmalloc, hcalls⟩
  have hflat := emit_passed o file rs (dword (long file.length)) d
    (emit o file rs (dword (long file.length)) d).2 (Prod.ext hemit rfl)
  rw [auImageGetDigestStream_eq, hstart]
  dsimp only at hblocks ⊢
  rw [hflat, hblocks]
  rfl

/-- Where `Emit` is called, what is wanted is its buffer, the calls that the file
    asks for, and a size below 2^31. -/
theorem reported_iff (o : IoOutcomes) (file : List UInt8) (bForce : Bool) (rs : List ExcludeRange)
    (d : Handle) (hstart : emitStart o file bForce = (.ok rs, d)) :
    Reported o file bForce ↔ o.mallocBuffer = true ∧ file.length < 2147483648 ∧
      AllSucceed o file 0 (headerCalls o file) ∧
        AllSucceed o file d.calls (emitCalls rs (dword (long file.length))) := by
  have hlist : addedRanges o file bForce = rs := by rw [addedRanges, hstart]
  have hsublist := sublist_iff o file bForce
  rw [hlist] at hsublist
  constructor
  · intro hreported
    have hcalls := hreported.calls
    have hsub := hreported.passed
    rw [hstart, hlist] at hcalls
    rw [hlist, blocks_of_calls o file bForce rs d hstart hreported.buffer.2 hcalls] at hsub
    exact ⟨hreported.buffer.2, hsublist.mp hsub, hreported.headers, hcalls⟩
  · rintro ⟨hmalloc, hsmall, hheaders, hcalls⟩
    refine ⟨⟨⟨rs, by rw [hstart]⟩, hmalloc⟩, hheaders, ?_, ?_⟩
    · rw [hstart, hlist]
      exact hcalls
    · rw [hlist, blocks_of_calls o file bForce rs d hstart hmalloc hcalls]
      exact hsublist.mpr hsmall

/-- A true result can be relied on exactly under the condition. -/
theorem digestStream_reports_iff (o : IoOutcomes) (file : List UInt8) (bForce : Bool) :
    ((auImageGetDigestStream o file [] bForce).bRet = true → Reported o file bForce)
      ↔ ReportsWhen o file bForce := by
  rcases hstart : emitStart o file bForce with ⟨rc | rs, d⟩
  · exact reports_iff_error o file bForce rc d hstart
  have hret : (auImageGetDigestStream o file [] bForce).bRet = true := by
    rw [auImageGetDigestStream_eq, hstart]
  have hsorted := addedRanges_sorted o file bForce
  rw [addedRanges, hstart] at hsorted
  have hreaches := (emitStart_ok_iff o file bForce).mp ⟨rs, d, hstart⟩
  have hleaves : ¬ LeavesWithLastError o file bForce := by
    rcases emitStart_ok o file bForce rs d hstart with ⟨hsize, -, haccepted, -⟩
    exact not_leavesWithLastError o file bForce hsize haccepted
  rw [leavesWithLastError_iff] at hleaves
  -- When `Emit` is called the result is true, whatever `Emit` returns.
  rw [hret, forall_prop_of_true rfl, reported_iff o file bForce rs d hstart]
  by_cases haccepted : Accepted o file
  · constructor
    · rintro ⟨hmalloc, hsmall, hcalls⟩
      have hall := (calls_iff_accepted o file bForce rs d hstart hsorted hsmall haccepted).mp hcalls
      exact ⟨fun h => absurd h hleaves, fun _ => hmalloc, fun _ => hsmall, fun _ _ => hall,
        fun _ h => absurd haccepted h⟩
    · intro h
      have hsmall := h.small hreaches
      exact ⟨h.buffer hreaches, hsmall,
        (calls_iff_accepted o file bForce rs d hstart hsorted hsmall haccepted).mpr
          (h.accepted hreaches haccepted)⟩
  · constructor
    · rintro ⟨hmalloc, hsmall, hcalls⟩
      have hall := (calls_iff_notAccepted o file bForce rs d hstart hsmall haccepted).mp hcalls
      exact ⟨fun h => absurd h hleaves, fun _ => hmalloc, fun _ => hsmall,
        fun _ h => absurd h haccepted, fun _ _ => hall⟩
    · intro h
      have hsmall := h.small hreaches
      exact ⟨h.buffer hreaches, hsmall,
        (calls_iff_notAccepted o file bForce rs d hstart hsmall haccepted).mpr
          (h.forced hreaches haccepted)⟩

/-- A true result of the stream, and of the digest of a file by its name, can be
    relied on exactly when nothing failed that it needs, whatever the calls come
    to. -/
theorem reports_iff (sha1 : List UInt8 → List UInt8) (o : IoOutcomes) (file digest : List UInt8)
    (bForce opened : Bool) :
    (((auImageGetDigestStream o file [] bForce).bRet = true → Reported o file bForce)
        ↔ ReportsWhen o file bForce) ∧
      (((imageDigestCalcExtBySHA1Lib sha1 opened o file digest bForce).1 = true →
          Reported o file bForce)
        ↔ (opened = true → ReportsWhen o file bForce)) := by
  refine ⟨digestStream_reports_iff o file bForce, ?_⟩
  cases opened with
  | false =>
      rw [imageDigestCalcExtBySHA1Lib, if_pos rfl]
      exact iff_of_true (fun h => absurd h Bool.false_ne_true)
        (fun h => absurd h Bool.false_ne_true)
  | true =>
      rw [imageDigestCalcExtBySHA1Lib, if_neg (by decide), forall_prop_of_true rfl]
      exact digestStream_reports_iff o file bForce

/-- Calls of which the fifth, the first read of `Emit`, and those behind fail. -/
def failingReads : IoOutcomes :=
  { goodOutcomes with read := fun k => if k < 4 then some none else none }

/-- A read of `Emit` that fails is not reported. -/
theorem reports_not :
    ¬ ∀ (o : IoOutcomes) (file : List UInt8) (bForce : Bool),
      (auImageGetDigestStream o file [] bForce).bRet = true → Reported o file bForce := by
  intro h
  have hpassed := (h failingReads noStub true (by decide +kernel)).passed
  -- Most of the file lies outside the ranges.
  have hnothing : (auImageGetDigestStream failingReads noStub [] true).blocks.flatten = [] := by
    decide +kernel
  rw [hnothing, List.sublist_nil] at hpassed
  exact absurd hpassed (by decide +kernel)

end Pe

end Defender
