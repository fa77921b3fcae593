import Defender.Pe.Digest

/-!
# Header Reads That Fail

What `__AuImageGetDigestStream` has read of the headers when it calls `Emit`,
whatever the calls come to.

A file tells where its headers are to be, and a seek and a read are made for
them. `__KeReadDataSpec` sets no value when one of the two fails or gives less
than was asked for. What was on the stack is returned, so that the read may
count as one that succeeded, and the fields are taken from what the buffer
holds: the bytes that were read, if any, over what was in the memory before.

So whether `Emit` is called (`emitStart_ok_iff`) depends on the file, on
`bForce`, and on what the calls come to. Where the headers were read in full
the ranges are those of the file, and the calls made before are as many as the
headers need (`emitStart_accepted`). Where no headers were accepted there are
none (`emitStart_notAccepted`).

## Main definitions

* `ReadAt`, `CountsAsRead`, `readOver`, `callsAfter`: A seek and a read.
* `ntHdrAt`, `Accepted`, `HasSections`: The NT headers as they were read.
* `Reaches`: `Emit` is called.
* `Wide`, `takenOut`: What the headers of the file ask for.

## Theorems

* `keReadDataSpec_reads`: What a seek and a read come to.
* `imagePtrs_reads`: What is found in the headers.
* `emitStart_ok_iff`: When `Emit` is called.
* `emitStart_accepted`, `emitStart_notAccepted`: With which ranges.
-/

namespace Defender

namespace Pe

open Wire Ranges

/-! ### A seek and a read -/

/-- A seek to an offset, the call of a number, and a read of a length there, the
    next, succeed in full. -/
def ReadAt (o : IoOutcomes) (file : List UInt8) (k Offset length : Nat) : Prop :=
  o.seekOk k = true ∧ FullRead o file { pos := Offset, calls := k + 1, blocks := [] } length

/-- The number of the next call. A read is not tried when the seek fails. -/
def callsAfter (o : IoOutcomes) (k : Nat) : Nat :=
  if o.seekOk k = false then k + 1 else k + 2

/-- They count as a success: they are one, or what was on the stack is true. -/
def CountsAsRead (o : IoOutcomes) (file : List UInt8) (k Offset length : Nat) : Prop :=
  ReadAt o file k Offset length ∨ o.stack (callsAfter o k) = true

/-- What they leave in a buffer. -/
def readOver (o : IoOutcomes) (file : List UInt8) (k Offset length : Nat) (data : List UInt8) :
    List UInt8 :=
  if o.seekOk k = false then data
  else
    match (readFile o file { pos := Offset, calls := k + 1, blocks := [] } length).1 with
    | none => data
    | some bytes => poke data 0 bytes

theorem readFile_fst (o : IoOutcomes) (file : List UInt8) (d : Handle) (length : Nat) :
    (readFile o file d length).1
      = (readFile o file { pos := d.pos, calls := d.calls, blocks := [] } length).1 := by
  unfold readFile
  dsimp only
  cases o.read d.calls with
  | none => rfl
  | some limit => rfl

/-- The value returned, the buffer, and the number of the next call. -/
theorem keReadDataSpec_reads (o : IoOutcomes) (file : List UInt8) (d : Handle) (Offset : Nat)
    (data : List UInt8) (length : Nat) :
    let r := keReadDataSpec o file d Offset data length
    (r.1 = true ↔ CountsAsRead o file d.calls Offset length) ∧
      r.2.1 = readOver o file d.calls Offset length data ∧ r.2.2.calls = callsAfter o d.calls := by
  have hneg : ¬ (Offset : Int) < 0 := by omega
  unfold keReadDataSpec setFilePointerEx CountsAsRead ReadAt readOver callsAfter
  by_cases hseek : o.seekOk d.calls = false
  · -- The seek failed, so no read is tried.
    rw [if_pos (Or.inl hseek), if_pos hseek, if_pos hseek]
    refine ⟨(or_iff_right (fun h => ?_)).symm, rfl, rfl⟩
    exact Bool.false_ne_true (hseek.symm.trans h.1)
  · rw [if_neg (not_or.mpr ⟨hseek, hneg⟩), if_neg hseek, if_neg hseek, Int.toNat_natCast]
    have hfst := readFile_fst o file { d with pos := Offset, calls := d.calls + 1 } length
    have hcalls := readFile_calls o file { d with pos := Offset, calls := d.calls + 1 } length
    unfold FullRead
    dsimp only at hfst hcalls ⊢
    rw [← hfst, and_iff_right (eq_true_of_ne_false hseek)]
    rcases hread : readFile o file { d with pos := Offset, calls := d.calls + 1 } length with
      ⟨read, d'⟩
    rw [hread] at hcalls
    dsimp only at hcalls ⊢
    cases read with
    | none =>
        dsimp only
        rw [hcalls, Option.map_none]
        refine ⟨(or_iff_right ?_).symm, rfl, rfl⟩
        simp only [reduceCtorEq, not_false_eq_true]
    | some bytes =>
        dsimp only
        rw [Option.map_some, Option.some.injEq]
        -- A read that comes short leaves its bytes in the buffer all the same.
        by_cases hlen : bytes.length ≠ length
        · rw [if_pos hlen, hcalls]
          exact ⟨(or_iff_right hlen).symm, rfl, rfl⟩
        · rw [if_neg hlen]
          exact ⟨iff_of_true rfl (Or.inl (not_not.mp hlen)), rfl, hcalls⟩

/-- A read in full copies the bytes of the file. -/
theorem ReadAt.readOver_eq {o : IoOutcomes} {file : List UInt8} {k Offset length : Nat}
    (h : ReadAt o file k Offset length) (data : List UInt8) :
    readOver o file k Offset length data = poke data 0 (slice file Offset length) := by
  rw [readOver, if_neg (by rw [h.1]; decide), h.2.readFile_eq]

theorem ReadAt.callsAfter_eq {o : IoOutcomes} {file : List UInt8} {k Offset length : Nat}
    (h : ReadAt o file k Offset length) : callsAfter o k = k + 2 :=
  if_neg (by rw [h.1]; decide)

theorem ReadAt.inside {o : IoOutcomes} {file : List UInt8} {k Offset length : Nat}
    (h : ReadAt o file k Offset length) (hpos : 0 < length) : Offset + length ≤ file.length :=
  h.2.inside hpos

/-! ### The NT headers -/

/-- What the union of the NT headers holds when they were to be read. -/
def ntHdrAt (o : IoOutcomes) (file : List UInt8) : List UInt8 :=
  readOver o file 1 (headerOffset file) ntHeaders32Size o.heap

/-- Headers are where the file says, their read counts as a success, and what is
    taken for them is accepted. -/
structure Accepted (o : IoOutcomes) (file : List UInt8) : Prop where
  placed : Placed o file (long file.length) (headerOffset file)
  read : CountsAsRead o file 1 (headerOffset file) ntHeaders32Size
  known : NtHeaders (ntHdrAt o file) 0 ∨ OtherFormat (ntHdrAt o file) 0

/-- They are NT headers, with sections. -/
structure HasSections (o : IoOutcomes) (file : List UInt8) : Prop where
  accepted : Accepted o file
  nt : NtHeaders (ntHdrAt o file) 0
  sections : 0 < (word16At (ntHdrAt o file) 6).toNat

/-- The calls made for the headers until they are accepted or not: the DOS
    header alone when there is no place for the others. -/
def headerCallsMade (o : IoOutcomes) (file : List UInt8) : Nat :=
  if Placed o file (long file.length) (headerOffset file) then callsAfter o 1 else 1

/-- What is done from where the NT headers are to be read. -/
theorem calculateNtHeaders_reads (o : IoOutcomes) (file : List UInt8) (d : Handle) (pe : PeData)
    (h : Nat) (hoffset : pe.ntHdrOffset = h) (hnone : pe.NumberOfSections = 0) :
    let nt := readOver o file d.calls h ntHeaders32Size pe.ntHdr
    let r := calculateNtHeaders o file d pe
    (r.1 = true ↔
        CountsAsRead o file d.calls h ntHeaders32Size ∧ (NtHeaders nt 0 ∨ OtherFormat nt 0)) ∧
      (0 < r.2.1.NumberOfSections ↔ CountsAsRead o file d.calls h ntHeaders32Size ∧
        NtHeaders nt 0 ∧ 0 < (word16At nt 6).toNat) ∧
      r.2.1.ntHdr = nt ∧ r.2.1.ntHdrOffset = h ∧ r.2.2.calls = callsAfter o d.calls := by
  rcases keReadDataSpec_reads o file d h pe.ntHdr ntHeaders32Size with ⟨hret, hbytes, hcalls⟩
  unfold calculateNtHeaders
  rw [hoffset]
  rcases hread : keReadDataSpec o file d h pe.ntHdr ntHeaders32Size with ⟨retval, ntHdr, d'⟩
  rw [hread] at hret hbytes hcalls
  dsimp only at hret hbytes hcalls ⊢
  rw [← hret, ← hbytes]
  -- No sections are set where the headers are not accepted.
  have hzero : ¬ 0 < pe.NumberOfSections := Nat.not_lt_of_le (Nat.le_of_eq hnone)
  cases retval with
  | false =>
      rw [if_pos rfl]
      exact ⟨iff_of_false Bool.false_ne_true (fun h => Bool.false_ne_true h.1),
        iff_of_false hzero (fun h => Bool.false_ne_true h.1), rfl, rfl, hcalls⟩
  | true =>
      rw [if_neg (by decide), and_iff_right rfl, and_iff_right rfl]
      -- Two more tests follow for NT headers. For the other formats none do, and no
      -- sections are set.
      by_cases hsig : dwordAt ntHdr 0 = imageNtSignature
      · rw [if_neg (not_not_intro hsig)]
        have hother : ¬ OtherFormat ntHdr 0 := fun hother => hother.signature hsig
        rw [or_iff_left hother]
        by_cases hopt : word16At ntHdr 20 = 0
        · rw [if_pos hopt]
          have hnot : ¬ NtHeaders ntHdr 0 := fun hnt => hnt.optionalHeader hopt
          exact ⟨iff_of_false Bool.false_ne_true hnot, iff_of_false hzero (fun h => hnot h.1), rfl,
            rfl, hcalls⟩
        rw [if_neg hopt]
        by_cases hlinker : byteAt ntHdr 26 < 3 ∧ byteAt ntHdr 27 < 5
        · rw [if_pos hlinker]
          have hnot : ¬ NtHeaders ntHdr 0 := fun hnt => hnt.linker hlinker
          exact ⟨iff_of_false Bool.false_ne_true hnot, iff_of_false hzero (fun h => hnot h.1), rfl,
            rfl, hcalls⟩
        · rw [if_neg hlinker]
          have hnt : NtHeaders ntHdr 0 := ⟨hsig, hopt, hlinker⟩
          exact ⟨iff_of_true rfl hnt, (and_iff_right hnt).symm, rfl, rfl, hcalls⟩
      · rw [if_pos hsig]
        have hnot : ¬ NtHeaders ntHdr 0 := fun hnt => hsig hnt.signature
        rw [or_iff_right hnot]
        split
        · rename_i hknown
          exact ⟨iff_of_true rfl ⟨hsig, hknown⟩,
            iff_of_false (Nat.lt_irrefl 0) (fun h => hnot h.1), rfl, rfl, hcalls⟩
        · rename_i hknown
          exact ⟨iff_of_false Bool.false_ne_true (fun hother => hknown hother.known),
            iff_of_false hzero (fun h => hnot h.1), rfl, rfl, hcalls⟩

/-- What `CalculateImagePtrs` finds, whatever the calls come to. -/
theorem imagePtrs_reads (o : IoOutcomes) (file : List UInt8) :
    let r := imagePtrs o file
    (r.1 = true ↔ Accepted o file) ∧ (0 < r.2.1.NumberOfSections ↔ HasSections o file) ∧
      (Accepted o file → r.2.1.ntHdr = ntHdrAt o file ∧ r.2.1.ntHdrOffset = headerOffset file) ∧
      r.2.2.calls = headerCallsMade o file := by
  rw [imagePtrs]
  rcases calculateImagePtrs_cases o file (initPEData o file.length) with
    ⟨h, hplaced, hrun⟩ | ⟨hnot, hfalse, hcalls, -, -, hsections⟩
  · have hh := headerOffset_of_at file h hplaced.offset
    have hplaced' : Placed o file (long file.length) (headerOffset file) := hh ▸ hplaced
    rcases calculateNtHeaders_reads o file Handle.dosRead
      (placedData file (initPEData o file.length) h) h rfl rfl with
      ⟨hret, hsections, hbytes, hoffset, hcalls⟩
    rw [hh] at hret hsections hbytes hoffset hcalls
    rw [hrun, headerCallsMade, if_pos hplaced', hh]
    refine ⟨hret.trans ⟨fun h => ⟨hplaced', h.1, h.2⟩, fun h => ⟨h.read, h.known⟩⟩,
      hsections.trans ⟨fun h => ⟨⟨hplaced', h.1, Or.inl h.2.1⟩, h.2.1, h.2.2⟩,
        fun h => ⟨h.accepted.read, h.nt, h.sections⟩⟩, fun _ => ⟨hbytes, hoffset⟩, hcalls⟩
  · have hnone : ¬ Accepted o file := fun h => hnot _ h.placed
    have hzero : (initPEData o file.length).NumberOfSections = 0 := rfl
    refine ⟨iff_of_false (fun h => Bool.false_ne_true (hfalse.symm.trans h)) hnone,
      iff_of_false (by omega) (fun h => hnone h.accepted), fun h => absurd h hnone, ?_⟩
    rw [hcalls, headerCallsMade]
    exact (if_neg (hnot _)).symm

/-! ### Reaching `Emit` -/

/-- The ranges of headers with sections can be put on the list: there is memory
    for them, and wider headers count as read; or their magic number is not
    known, and nothing is put there when it is forced. -/
def RangesAdded (o : IoOutcomes) (file : List UInt8) (bForce : Bool) : Prop :=
  let Magic := word16At (ntHdrAt o file) 24
  (Magic = imageNtOptionalHdr32Magic ∧ ∀ k < 3, o.newOk k = true) ∨
    (Magic = imageNtOptionalHdr64Magic ∧ (∀ k < 3, o.newOk k = true) ∧
      CountsAsRead o file (callsAfter o 1) (headerOffset file) ntHeaders64Size) ∨
    (Magic ≠ imageNtOptionalHdr32Magic ∧ Magic ≠ imageNtOptionalHdr64Magic ∧ bForce = true)

/-- `Emit` is called. -/
structure Reaches (o : IoOutcomes) (file : List UInt8) (bForce : Bool) : Prop where
  sizeOk : o.sizeOk = true
  nonempty : file.length ≠ 0
  mallocData : o.mallocData = true
  accepted : Accepted o file ∨ bForce = true
  ranges : HasSections o file → RangesAdded o file bForce

/-- An error is not a list. -/
theorem error_ne_ok (rc : Nat) (d : Handle) :
    ¬ ∃ rs d', ((.error rc : Except Nat (List ExcludeRange)), d) = (.ok rs, d') := by
  simp only [Prod.mk.injEq, reduceCtorEq, false_and, exists_false, not_false_eq_true]

/-- The three ranges are added, or there was no memory for one of them. -/
theorem excludeHeaders_none_or (o : IoOutcomes) (pe : PeData) (security : Nat) :
    (excludeHeaders o [] pe security = none ∧ ¬ ∀ k < 3, o.newOk k = true) ∨
      (∃ rs, excludeHeaders o [] pe security = some rs ∧ ∀ k < 3, o.newOk k = true) := by
  cases hex : excludeHeaders o [] pe security with
  | none =>
      refine Or.inl ⟨rfl, fun hnew => ?_⟩
      have hsome := (excludeHeaders_iff o [] _ pe security).mpr ⟨hnew, rfl⟩
      exact absurd (hex.symm.trans hsome) (by simp only [reduceCtorEq, not_false_eq_true])
  | some rs => exact Or.inr ⟨rs, rfl, ((excludeHeaders_iff o [] rs pe security).mp hex).1⟩

/-- When there is a list for headers with sections. -/
theorem digestRanges_ok_iff (o : IoOutcomes) (file : List UInt8) (d : Handle) (pe : PeData)
    (bForce : Bool) (hsections : 0 < pe.NumberOfSections) (hbytes : pe.ntHdr = ntHdrAt o file)
    (hoffset : pe.ntHdrOffset = headerOffset file) (hcalls : d.calls = callsAfter o 1) :
    (∃ rs d', digestRanges o file d pe [] bForce = (.ok rs, d')) ↔
      RangesAdded o file bForce := by
  have hne : imageNtOptionalHdr64Magic ≠ imageNtOptionalHdr32Magic := by decide
  unfold digestRanges RangesAdded
  dsimp only
  rw [if_pos hsections, hbytes]
  by_cases h32 : word16At (ntHdrAt o file) 24 = imageNtOptionalHdr32Magic
  · -- The fields were read before, and only memory can be missing.
    have h64 : ¬ word16At (ntHdrAt o file) 24 = imageNtOptionalHdr64Magic :=
      fun h => hne (h.symm.trans h32)
    rw [if_neg (fun h => h.1 h32), if_pos h32, and_iff_right h32,
      or_iff_left (fun h => h.elim (fun h => h64 h.1) (fun h => h.1 h32))]
    rcases excludeHeaders_none_or o pe securityOffset32 with ⟨hex, hnew⟩ | ⟨rs, hex, hnew⟩
    · rw [hex]
      exact iff_of_false (error_ne_ok _ _) hnew
    · rw [hex]
      exact iff_of_true ⟨rs, d, rfl⟩ hnew
  by_cases h64 : word16At (ntHdrAt o file) 24 = imageNtOptionalHdr64Magic
  · -- The wider headers are read once more, over what the union holds.
    rw [if_neg (fun h => h.2 h64), if_neg h32]
    have hreads := (keReadDataSpec_reads o file d (headerOffset file) (ntHdrAt o file)
      ntHeaders64Size).1
    rw [hcalls] at hreads
    rw [hoffset, and_iff_right h64, or_iff_right (fun h => h32 h.1),
      or_iff_left (fun h => h.2.1 h64), ← hreads]
    rcases keReadDataSpec o file d (headerOffset file) (ntHdrAt o file) ntHeaders64Size with
      ⟨retval, ntHdr, d'⟩
    dsimp only
    cases retval with
    | false =>
        rw [if_pos rfl]
        exact iff_of_false (error_ne_ok _ _) (fun h => Bool.false_ne_true h.2)
    | true =>
        rw [if_neg (by decide), and_iff_left rfl]
        rcases excludeHeaders_none_or o { pe with ntHdr := ntHdr } securityOffset64 with
          ⟨hex, hnew⟩ | ⟨rs, hex, hnew⟩
        · rw [hoffset] at hex
          rw [hex]
          exact iff_of_false (error_ne_ok _ _) hnew
        · rw [hoffset] at hex
          rw [hex]
          exact iff_of_true ⟨rs, d', rfl⟩ hnew
  · -- A magic number that is not known is an error, unless it is forced.
    rw [if_pos ⟨h32, h64⟩, or_iff_right (fun h => h32 h.1), or_iff_right (fun h => h64 h.1),
      and_iff_right h32, and_iff_right h64]
    cases bForce with
    | false =>
        rw [if_pos rfl]
        exact iff_of_false (error_ne_ok _ _) Bool.false_ne_true
    | true => exact iff_of_true ⟨[], d, if_neg (by decide)⟩ rfl

/-- `Emit` is called when the file can be looked at, its headers are accepted or
    it is forced, and the ranges can be added. -/
theorem emitStart_ok_iff (o : IoOutcomes) (file : List UInt8) (bForce : Bool) :
    (∃ rs d, emitStart o file bForce = (.ok rs, d)) ↔ Reaches o file bForce := by
  rcases imagePtrs_reads o file with ⟨hret, hsections, hfound, hcalls⟩
  -- The tests in their order. Each that leaves contradicts one part of `Reaches`.
  unfold emitStart
  cases hsize : o.sizeOk with
  | false =>
      rw [if_pos rfl]
      exact iff_of_false (error_ne_ok _ _) (fun h => Bool.false_ne_true (hsize.symm.trans h.sizeOk))
  | true =>
      rw [if_neg (by decide)]
      by_cases hempty : file.length = 0
      · rw [if_pos hempty]
        exact iff_of_false (error_ne_ok _ _) (fun h => h.nonempty hempty)
      rw [if_neg hempty]
      cases hdata : o.mallocData with
      | false =>
          rw [if_pos rfl]
          exact iff_of_false (error_ne_ok _ _)
            (fun h => Bool.false_ne_true (hdata.symm.trans h.mallocData))
      | true =>
          rw [if_neg (by decide)]
          rcases hptrs : imagePtrs o file with ⟨ok, pe, d⟩
          rw [hptrs] at hret hsections hfound hcalls
          dsimp only at hret hsections hfound hcalls ⊢
          by_cases hleave : ok = false ∧ bForce = false
          · rw [if_pos hleave]
            refine iff_of_false (error_ne_ok _ _) (fun h => ?_)
            rcases h.accepted with haccepted | hforce
            · exact Bool.false_ne_true (hleave.1.symm.trans (hret.mpr haccepted))
            · exact Bool.false_ne_true (hleave.2.symm.trans hforce)
          rw [if_neg hleave]
          have haccepted : Accepted o file ∨ bForce = true := by
            rw [not_and_or, Bool.not_eq_false, Bool.not_eq_false, hret] at hleave
            exact hleave
          by_cases hhas : HasSections o file
          · rcases hfound hhas.accepted with ⟨hbytes, hoffset⟩
            rw [headerCallsMade, if_pos hhas.accepted.placed] at hcalls
            rw [digestRanges_ok_iff o file d pe bForce (hsections.mpr hhas) hbytes hoffset hcalls]
            exact ⟨fun h => ⟨hsize, hempty, hdata, haccepted, fun _ => h⟩, fun h => h.ranges hhas⟩
          · -- Without sections nothing is to be put on the list.
            have hnone : ¬ pe.NumberOfSections > 0 := fun h => hhas (hsections.mp h)
            rw [digestRanges, if_neg hnone]
            exact iff_of_true ⟨[], d, rfl⟩
              ⟨hsize, hempty, hdata, haccepted, fun h => absurd h hhas⟩

/-! ### What the headers ask for -/

/-- The file has NT headers with sections, and they are the wider ones, which are
    read again. -/
def Wide (file : List UInt8) : Prop :=
  NtHeaders file (headerOffset file) ∧ 0 < (word16At file (headerOffset file + 6)).toNat ∧
    magicAt file (headerOffset file) = imageNtOptionalHdr64Magic

instance (file : List UInt8) : Decidable (Wide file) :=
  inferInstanceAs (Decidable (_ ∧ _))

/-- What is to be taken out of the file for its headers, in order. -/
def takenOut (file : List UInt8) : List Range :=
  if NtHeaders file (headerOffset file) ∧ HasExcluded file (headerOffset file) then
    (certAt file (headerOffset file) :: fieldsAt file (headerOffset file)).insertionSort
      (fun r r' => r.first ≤ r'.first)
  else []

/-- The NT headers that are looked at are those of the file, if they were read in
    full. -/
theorem ntHdrAt_fields (o : IoOutcomes) (file : List UInt8)
    (hread : ReadAt o file 1 (headerOffset file) ntHeaders32Size) :
    (NtHeaders (ntHdrAt o file) 0 ↔ NtHeaders file (headerOffset file)) ∧
      word16At (ntHdrAt o file) 6 = word16At file (headerOffset file + 6) ∧
      word16At (ntHdrAt o file) 24 = magicAt file (headerOffset file) := by
  have hsize : ntHeaders32Size = 248 := rfl
  have hroom := hread.inside (by decide)
  have hword : ∀ k, k + 2 ≤ 248 →
      word16At (ntHdrAt o file) k = word16At file (headerOffset file + k) := by
    intro k hk
    rw [ntHdrAt, hread.readOver_eq]
    exact word16At_poke_slice file o.heap _ _ k (by omega) (by omega)
  have hbyte : ∀ k, k < 248 →
      byteAt (ntHdrAt o file) k = byteAt file (headerOffset file + k) := by
    intro k hk
    rw [ntHdrAt, hread.readOver_eq]
    exact byteAt_poke_slice file o.heap _ _ k (by omega) (by omega)
  have hsig : dwordAt (ntHdrAt o file) 0 = dwordAt file (headerOffset file) := by
    rw [ntHdrAt, hread.readOver_eq]
    exact dwordAt_poke_slice file o.heap _ _ 0 (by omega) (by omega)
  refine ⟨⟨fun hnt => ⟨?_, ?_, ?_⟩, fun hnt => ⟨?_, ?_, ?_⟩⟩, hword 6 (by omega),
    hword 24 (by omega)⟩
  · exact hsig.symm.trans hnt.signature
  · rw [← hword 20 (by omega)]
    exact hnt.optionalHeader
  · rw [← hbyte 26 (by omega), ← hbyte 27 (by omega)]
    exact hnt.linker
  · exact hsig.trans hnt.signature
  · rw [hword (0 + 20) (by omega)]
    exact hnt.optionalHeader
  · rw [hbyte (0 + 26) (by omega), hbyte (0 + 27) (by omega)]
    exact hnt.linker

/-- The list of headers takes out what they ask for. -/
theorem excludeHeaders_takenOut (o : IoOutcomes) (file : List UInt8) (pe : PeData)
    (security : Nat) (rs : List ExcludeRange) (hoffset : pe.ntHdrOffset = headerOffset file)
    (hsmall : headerOffset file + 248 ≤ 2147483648) (hlow : security ≤ 168)
    (hsecurity : securityAt file (headerOffset file) = headerOffset file + security)
    (haddress : (dwordAt pe.ntHdr security).toNat = certAddress file (headerOffset file))
    (hsize : (dwordAt pe.ntHdr (security + 4)).toNat = certSize file (headerOffset file))
    (hrun : excludeHeaders o [] pe security = some rs) :
    rs.map skipped = (certAt file (headerOffset file) ::
      fieldsAt file (headerOffset file)).insertionSort (fun r r' => r.first ≤ r'.first) := by
  have hcheck : checkSumOffset = 88 := rfl
  have hlt : certAddress file (headerOffset file) < 4294967296 := UInt32.toNat_lt _
  have hskip1 : skipped { Offset := headerOffset file + checkSumOffset, Size := 4 }
      = { first := headerOffset file + checkSumOffset
          last := headerOffset file + checkSumOffset + 4 } := by
    rw [skipped, Nat.mod_eq_of_lt (by dsimp only; omega)]
  have hskip2 : skipped { Offset := headerOffset file + security, Size := 8 }
      = { first := securityAt file (headerOffset file)
          last := securityAt file (headerOffset file) + 8 } := by
    rw [skipped, hsecurity, Nat.mod_eq_of_lt (by dsimp only; omega)]
  rw [((excludeHeaders_iff o [] rs pe security).mp hrun).2, haddress, hsize,
    dwordPtr_offset pe _ checkSumOffset hoffset hsmall (by decide),
    dwordPtr_offset pe _ security hoffset hsmall hlow, map_skipped_add _ _ _ hlt,
    map_skipped_add _ _ _ (by omega), map_skipped_add _ _ _ (by omega), hskip1, hskip2]
  rfl

/-- With which ranges `Emit` is called, and after how many calls, when the headers
    were accepted and read in full: those that the file asks for. -/
theorem emitStart_accepted (o : IoOutcomes) (file : List UInt8) (bForce : Bool)
    (rs : List ExcludeRange) (d : Handle) (hstart : emitStart o file bForce = (.ok rs, d))
    (haccepted : Accepted o file)
    (hread : ReadAt o file 1 (headerOffset file) ntHeaders32Size)
    (hwide : Wide file → ReadAt o file 3 (headerOffset file) ntHeaders64Size) :
    rs.map skipped = takenOut file ∧ d.calls = if Wide file then 5 else 3 := by
  have hroom := hread.inside (by decide)
  have hnt : ntHeaders32Size = 248 := rfl
  have hinside := haccepted.placed.inside
  have hlong := long_lt file.length
  rcases ntHdrAt_fields o file hread with ⟨hheaders, hsix, hmagic⟩
  rcases imagePtrs_reads o file with ⟨-, hsections, hfound, hcalls⟩
  rcases hfound haccepted with ⟨hbytes, hoffset⟩
  rw [headerCallsMade, if_pos haccepted.placed, hread.callsAfter_eq] at hcalls
  have hhas : HasSections o file ↔ NtHeaders file (headerOffset file) ∧
      0 < (word16At file (headerOffset file + 6)).toNat := by
    rw [← hheaders, ← hsix]
    exact ⟨fun h => ⟨h.nt, h.sections⟩, fun h => ⟨haccepted, h.1, h.2⟩⟩
  rcases emitStart_ok o file bForce rs d hstart with ⟨-, -, -, hranges⟩
  -- Without sections or a known magic number there are no ranges; the two magic
  -- numbers differ in where the entry is, and in what is read for it.
  rcases digestRanges_cases o file _ _ bForce rs d hranges with
    ⟨hnot, hrs, hd⟩ | ⟨hpos, h32, hd, hrs⟩ | ⟨hpos, h64, ntHdr, hagain, hrs⟩
  · rw [gt_iff_lt, hsections, hhas, hbytes, hmagic] at hnot
    have hnotWide : ¬ Wide file := fun h => hnot ⟨⟨h.1, h.2.1⟩, Or.inr h.2.2⟩
    rw [hrs, hd, hcalls, if_neg hnotWide, takenOut,
      if_neg (fun h => hnot ⟨⟨h.1, h.2.1⟩, h.2.2⟩)]
    exact ⟨rfl, rfl⟩
  · rw [gt_iff_lt, hsections, hhas] at hpos
    rw [hbytes, hmagic] at h32
    have hnotWide : ¬ Wide file := by
      intro h
      have heq := h32.symm.trans h.2.2
      exact absurd heq (by decide)
    have hsecurity : securityAt file (headerOffset file)
        = headerOffset file + securityOffset32 := by rw [securityAt, if_pos h32]
    rcases certEntry_of_read file o.heap _ ntHeaders32Size securityOffset32 (by decide) (by decide)
      (by omega) hsecurity with ⟨haddress, hsize⟩
    rw [← hread.readOver_eq, ← ntHdrAt, ← hbytes] at haddress hsize
    rw [hd, hcalls, if_neg hnotWide, takenOut, if_pos ⟨hpos.1, hpos.2, Or.inl h32⟩]
    exact ⟨excludeHeaders_takenOut o file _ securityOffset32 rs hoffset (by omega) (by decide)
      hsecurity haddress hsize hrs, rfl⟩
  · rw [gt_iff_lt, hsections, hhas] at hpos
    rw [hbytes, hmagic] at h64
    have hisWide : Wide file := ⟨hpos.1, hpos.2, h64⟩
    have hother : ¬ magicAt file (headerOffset file) = imageNtOptionalHdr32Magic := by
      rw [h64]
      decide
    have hsecurity : securityAt file (headerOffset file)
        = headerOffset file + securityOffset64 := by rw [securityAt, if_neg hother]
    rcases keReadDataSpec_reads o file (imagePtrs o file).2.2 (headerOffset file)
      (imagePtrs o file).2.1.ntHdr ntHeaders64Size with ⟨-, hcopy, hnext⟩
    rw [← hoffset, hagain, hcalls, (hwide hisWide).readOver_eq] at hcopy
    rw [← hoffset, hagain, hcalls, (hwide hisWide).callsAfter_eq] at hnext
    rcases certEntry_of_read file (imagePtrs o file).2.1.ntHdr _ ntHeaders64Size securityOffset64
      (by decide) (by decide) (by omega) hsecurity with ⟨haddress, hsize⟩
    rw [← hcopy] at haddress hsize
    rw [if_pos hisWide, takenOut, if_pos ⟨hpos.1, hpos.2, Or.inr h64⟩]
    exact ⟨excludeHeaders_takenOut o file { (imagePtrs o file).2.1 with ntHdr := ntHdr }
      securityOffset64 rs hoffset (by omega) (by decide) hsecurity haddress hsize hrs, hnext⟩

/-- Where no headers were accepted there are no ranges. -/
theorem emitStart_notAccepted (o : IoOutcomes) (file : List UInt8) (bForce : Bool)
    (rs : List ExcludeRange) (d : Handle) (hstart : emitStart o file bForce = (.ok rs, d))
    (hnot : ¬ Accepted o file) : rs = [] ∧ d.calls = headerCallsMade o file := by
  rcases imagePtrs_reads o file with ⟨-, hsections, -, hcalls⟩
  rcases emitStart_ok o file bForce rs d hstart with ⟨-, -, -, hranges⟩
  have hnone : ¬ (imagePtrs o file).2.1.NumberOfSections > 0 :=
    fun h => hnot (hsections.mp h).accepted
  rw [digestRanges, if_neg hnone] at hranges
  rcases Prod.mk.inj hranges with ⟨hrs, rfl⟩
  exact ⟨(Except.ok.inj hrs).symm, hcalls⟩

end Pe

end Defender
