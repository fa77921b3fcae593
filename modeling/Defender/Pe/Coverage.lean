import Defender.Pe.Wrapping

/-!
# Files of Every Size

A byte of a file is digested, or it lies in one of the ranges on the exclude
list. So the bytes digested and those in the ranges are as many as there are,
if `Emit` does what it is for.

The size of the file is a `LONGLONG`, kept in a `LONG`, given to `Emit` as a
`DWORD` and counted down in an `int`. Below 2^31 it stays what it is. From there
to 2^32 the `LONG` is negative: no headers are accepted, and the `int` is
negative, so that nothing at all is read. From 2^32 on only what is left of the
size is gone through, and ranges of less than 2^32 bytes cannot make up for the
rest (`large_short`). The function returns true all the same. It does too when
`Emit` has no buffer, and when `CalculateImagePtrs` fails without a call that
failed, so that there is no code (`coverage_iff`).

## Main definitions

* `covered`: How many bytes of a file lie in ranges.
* `passed`: What is passed on when no call fails.
* `Excludes`: Something is excluded from a file.
* `CountsWhen`: What the count depends on.

## Theorems

* `emit_passed`: What `Emit` passes on when it returns true.
* `large_short`: A file of 2^31 bytes and more is not covered.
* `digestStream_nothing`: Of one below 2^32 nothing is digested.
* `coverage_buffer`, `coverage_noBuffer`: The count with a buffer and without.
* `coverage_iff`: When the digest covers the file.
* `coverage_not`: A file of 2^31 zeros.
-/

namespace Defender

namespace Pe

open Wire Ranges

/-- How many of the positions of a file lie in ranges on a list. -/
def covered (rs : List ExcludeRange) (n : Nat) : Nat :=
  (List.range n).countP (fun k => !outside (rs.map ExcludeRange.unwrapped) k)

theorem covered_nil (n : Nat) : covered [] n = 0 :=
  List.countP_eq_zero.mpr (fun _ _ h => Bool.false_ne_true h)

/-- What is passed on of a file when no call of `Emit` fails. -/
def passed (file : List UInt8) (rs : List ExcludeRange) (Size : Nat) : List UInt8 :=
  (pieces rs Size 0).flatMap (fun p => slice file p.1 (long p.2).toNat)

theorem emit_passed (o : IoOutcomes) (file : List UInt8) (rs : List ExcludeRange) (Size : Nat)
    (d d' : Handle) (h : emit o file rs Size d = (true, d')) :
    d'.blocks.flatten = d.blocks.flatten ++ passed file rs Size := by
  unfold emit at h
  split at h
  · exact absurd (Prod.mk.inj h).1 Bool.false_ne_true
  · rw [emitLoop_eq] at h
    exact calculateAll_blocks o file _ d d' h

/-! ### The size of a file -/

/-- A `LONG` of 32 bits made a `DWORD` is the size modulo 2^32. -/
theorem dword_long (n : Nat) : dword (long n) = n % 4294967296 := by
  rw [long, toInt_ofNat]
  unfold dword
  split <;> omega

theorem long_mod (n : Nat) : long (n % 4294967296) = long n := by
  rw [long, long, toInt_ofNat, toInt_ofNat, Nat.mod_mod]

/-- A `LONG` is what is left of the size, and negative from 2^31 on. -/
theorem long_cases (n : Nat) : (long n < 0 ∧ 2147483648 ≤ n) ∨
    (∃ L : Nat, long n = L ∧ L < 2147483648 ∧ dword (long n) = L ∧
      (n = L ∨ L + 4294967296 ≤ n)) := by
  rw [dword_long, long, toInt_ofNat]
  split
  · exact Or.inr ⟨n % 4294967296, rfl, by omega, rfl, by omega⟩
  · exact Or.inl ⟨by omega, by omega⟩

/-- Where the size is negative nothing is on the list. -/
theorem addedRanges_nil (o : IoOutcomes) (file : List UInt8) (bForce : Bool)
    (hneg : long file.length < 0) : addedRanges o file bForce = [] := by
  rcases addedRanges_shape o file bForce with hnil | ⟨h, _, _, _, hinside, -⟩
  · exact hnil
  · have hnt : ntHeaders32Size = 248 := rfl
    omega

/-- And nothing is passed on, for it is the size of a piece. -/
theorem passed_nil (file : List UInt8) (n : Nat) (hneg : long n < 0) :
    passed file [] (dword (long n)) = [] := by
  unfold passed
  rw [pieces, dword_long]
  split
  · rfl
  · have hzero : (long (n % 4294967296)).toNat = 0 := by
      rw [long_mod]
      omega
    rw [List.flatMap_singleton]
    dsimp only
    rw [hzero, slice_zero]

/-- What is passed on of what is left of the size, and what ranges cover: as many
    bytes as are left, and the certificates at most. -/
theorem passed_le (file : List UInt8) (rs : List ExcludeRange)
    (h security VirtualAddress Size L : Nat)
    (hrs : HeaderRanges rs h security VirtualAddress Size) (hinside : h + ntHeaders32Size ≤ L)
    (hhigh : security ≤ 168) (hL : L < 2147483648) (hroom : L ≤ file.length) :
    (passed file rs L).length + covered rs file.length ≤ L + Size := by
  have hnt : ntHeaders32Size = 248 := rfl
  have hcheck : checkSumOffset = 88 := rfl
  obtain ⟨cert, hcert⟩ : ∃ cert : Range,
      cert = { first := VirtualAddress, last := VirtualAddress + Size } := ⟨_, rfl⟩
  -- A position in a range is skipped, or it lies in the certificates.
  have hfront : ∀ k, outside (rs.map skipped) k = true →
      (!outside (rs.map ExcludeRange.unwrapped) k) = true → cert.covers k = true := by
    intro k hskip hin
    rw [outside_map_iff, hrs.forall_iff] at hskip
    rw [Bool.not_eq_true', ← Bool.not_eq_true, outside_map_iff, hrs.forall_iff] at hin
    rw [covers_iff, hcert]
    unfold skipped at hskip
    unfold ExcludeRange.unwrapped at hin
    dsimp only at hskip hin ⊢
    omega
  -- Behind what is gone through there are no fields of headers.
  have hback : ∀ k, L ≤ k → (!outside (rs.map ExcludeRange.unwrapped) k) = true →
      cert.covers k = true := by
    intro k hk hin
    rw [Bool.not_eq_true', ← Bool.not_eq_true, outside_map_iff, hrs.forall_iff] at hin
    rw [covers_iff, hcert]
    unfold ExcludeRange.unwrapped at hin
    dsimp only at hin ⊢
    omega
  -- So both counts together are those of the front, and the certificates make up the rest.
  have hlength : (passed file rs L).length
      = (List.range' 0 L).countP (outside (rs.map skipped)) := by
    rw [passed, pieces_content file rs hrs.sorted L hroom hL, length_keep, List.length_take,
      Nat.min_eq_left hroom]
  have hsplit : List.range file.length = List.range' 0 L ++ List.range' L (file.length - L) := by
    have hjoin : List.range' 0 L ++ List.range' (0 + L) (file.length - L)
        = List.range' 0 (L + (file.length - L)) := List.range'_append_1
    rw [Nat.zero_add, Nat.add_sub_cancel' hroom] at hjoin
    rw [List.range_eq_range', hjoin]
  have hle := countP_add_le (outside (rs.map skipped))
    (fun k => !outside (rs.map ExcludeRange.unwrapped) k) cert.covers (List.range' 0 L)
    (fun k _ => hfront k)
  have hrest : (List.range' L (file.length - L)).countP
        (fun k => !outside (rs.map ExcludeRange.unwrapped) k)
      ≤ (List.range' L (file.length - L)).countP cert.covers :=
    List.countP_mono_left (fun k hk => hback k (List.mem_range'_1.mp hk).1)
  have hcovers := countP_covers cert 0 L
  have hcovers' := countP_covers cert L (file.length - L)
  rw [List.length_range'] at hle
  rw [covered, hsplit, List.countP_append, hlength]
  rw [hcert] at hcovers hcovers' hle hrest
  dsimp only at hcovers hcovers'
  omega

/-- Of a file of 2^31 bytes and more, not all is passed on or covered. -/
theorem large_short (o : IoOutcomes) (file : List UInt8) (bForce : Bool)
    (hlarge : 2147483648 ≤ file.length) :
    (passed file (addedRanges o file bForce) (dword (long file.length))).length
        + covered (addedRanges o file bForce) file.length < file.length := by
  rcases long_cases file.length with ⟨hneg, -⟩ | ⟨L, hlong, hL, hdword, hsize⟩
  · rw [addedRanges_nil o file bForce hneg, passed_nil file file.length hneg, covered_nil,
      List.length_nil]
    omega
  rw [hdword]
  rcases addedRanges_shape o file bForce with hnil | ⟨h, security, VirtualAddress, Size, hinside,
    -, hhigh, -, hcert, hrs⟩
  · -- Without ranges the front is passed on, which is not all.
    rw [hnil, covered_nil, passed, pieces_content file [] sorted_nil L (by omega) hL, length_keep]
    have hle : (List.range' 0 (file.take L).length).countP (outside (([] : List ExcludeRange).map
        skipped)) ≤ (List.range' 0 (file.take L).length).length := List.countP_le_length
    rw [List.length_range', List.length_take] at hle
    rw [List.length_take]
    omega
  · -- The certificates have less than the 2^32 bytes that are missing.
    have hle := passed_le file _ h security VirtualAddress Size L hrs (by omega) hhigh hL (by omega)
    omega

/-- Below 2^31, what is passed on and what is covered come to the size when no
    range that begins in the file wraps. -/
theorem small_iff (o : IoOutcomes) (file : List UInt8) (bForce : Bool)
    (hsmall : file.length < 2147483648) :
    (passed file (addedRanges o file bForce) file.length).length
        + covered (addedRanges o file bForce) file.length = file.length ↔
      ∀ r ∈ addedRanges o file bForce, r.Offset + r.Size < 4294967296 ∨ file.length ≤ r.Offset := by
  have hsorted := addedRanges_sorted o file bForce
  -- Whatever is skipped lies in a range, so too much can be passed on, but not too little.
  have himplies : ∀ k ∈ List.range file.length,
      outside ((addedRanges o file bForce).map ExcludeRange.unwrapped) k = true →
        outside ((addedRanges o file bForce).map skipped) k = true :=
    fun k _ hout => outside_skipped_of_unwrapped hout
  have hnot := countP_add_not (outside ((addedRanges o file bForce).map ExcludeRange.unwrapped))
    (List.range file.length)
  have hlength : (passed file (addedRanges o file bForce) file.length).length
      = (List.range file.length).countP (outside ((addedRanges o file bForce).map skipped)) := by
    rw [passed, pieces_content file _ hsorted _ (Nat.le_refl _) hsmall, length_keep,
      List.take_length, List.range_eq_range']
  rw [List.length_range] at hnot
  rw [← agree_iff o file bForce hsmall, hlength, covered]
  have hcount := countP_eq_iff _ _ _ himplies
  simp only [List.mem_range] at hcount
  constructor
  · intro hsum k hk
    exact (hcount.mp (by omega) k hk).symm
  · intro hagree
    have heq := hcount.mpr (fun k hk => (hagree k hk).symm)
    omega

/-! ### The digest -/

/-- A piece whose size is negative as an `int` passes nothing on. -/
theorem calculate_nothing (o : IoOutcomes) (file : List UInt8) (Offset size : Nat) (d : Handle)
    (hneg : long size < 0) : (calculate o file Offset size d).2.blocks = d.blocks := by
  have hzero : (long size).toNat = 0 := by omega
  rw [calculate, setFilePointerEx, hzero]
  by_cases hseek : o.seekOk d.calls = false ∨ (Offset : Int) < 0
  · rw [if_pos hseek]
  · rw [if_neg hseek]
    dsimp only
    rw [calcLoop, dif_pos rfl]

/-- Of a file from 2^31 bytes on and below 2^32 nothing is digested, whatever the
    calls come to, and when it is forced the result is true. -/
theorem digestStream_nothing (o : IoOutcomes) (file : List UInt8) (bForce : Bool)
    (hneg : long file.length < 0) :
    (auImageGetDigestStream o file [] bForce).blocks = [] ∧
      (o.sizeOk = true → o.mallocData = true → bForce = true →
        (auImageGetDigestStream o file [] bForce).bRet = true) := by
  have hlist := addedRanges_nil o file bForce hneg
  have hblocks := emitStart_blocks o file bForce
  rw [auImageGetDigestStream_eq]
  constructor
  · unfold addedRanges at hlist
    rcases hstart : emitStart o file bForce with ⟨rc | rs, d⟩
    · rw [hstart] at hblocks
      exact hblocks
    · rw [hstart] at hlist hblocks
      dsimp only at hlist hblocks ⊢
      rw [hlist, emit]
      split
      · exact hblocks
      · rw [emitLoop]
        split
        · exact hblocks
        · -- The one piece is the whole size, which is negative.
          rw [calculate_nothing, hblocks]
          rw [dword_long, long_mod]
          exact hneg
  · intro hsize hdata hforce
    have hne : file.length ≠ 0 := by
      intro hzero
      rw [hzero] at hneg
      exact absurd hneg (by decide)
    have hsections : ¬ (imagePtrs o file).2.1.NumberOfSections > 0 := by
      intro hsections
      rcases (calculateImagePtrs_inside o file (initPEData o file.length) ⟨rfl, rfl⟩).2 hsections
        with ⟨-, h, -, hinside⟩
      have hinside' : (h : Int) + ntHeaders32Size ≤ long file.length := hinside
      have hnt : ntHeaders32Size = 248 := rfl
      omega
    -- No headers were accepted, which does not matter when it is forced.
    have hforced : ¬ ((imagePtrs o file).1 = false ∧ bForce = false) := by
      rw [hforce]
      exact fun h => absurd h.2.symm Bool.false_ne_true
    unfold emitStart
    rw [hsize, hdata, if_neg (by decide), if_neg hne, if_neg (by decide)]
    dsimp only
    rw [if_neg hforced, digestRanges, if_neg hsections]

/-- The headers of a file are accepted, and something is excluded by them. -/
def Excludes (file : List UInt8) : Prop :=
  PeHeaders file (long file.length) (headerOffset file) ∧ HasExcluded file (headerOffset file)

/-- What is on the list when every call succeeds. -/
theorem emitStart_list (o : IoOutcomes) (hreads : o.Reads) (file : List UInt8) (bForce : Bool)
    (rs : List ExcludeRange) (d : Handle) (hstart : emitStart o file bForce = (.ok rs, d)) :
    (Excludes file ∧ ∃ security, 92 ≤ security ∧ security ≤ 168 ∧
        HeaderRanges rs (headerOffset file) security (certAddress file (headerOffset file))
          (certSize file (headerOffset file))) ∨
      (¬ Excludes file ∧ rs = []) := by
  rcases long_cases file.length with ⟨hneg, -⟩ | ⟨L, hlong, -⟩
  · have hlist := addedRanges_nil o file bForce hneg
    rw [addedRanges, hstart] at hlist
    refine Or.inr ⟨fun hexcludes => ?_, hlist⟩
    have hinside := hexcludes.1.inside
    omega
  · unfold Excludes
    rw [hlong]
    rcases (emitStart_found o hreads file L hlong bForce rs d hstart).2 with
      ⟨hpe, hhas, security, -, hlow, hhigh, hrs⟩ | ⟨hnone, hrs⟩
    · exact Or.inl ⟨⟨hpe, hhas⟩, security, hlow, hhigh, hrs⟩
    · exact Or.inr ⟨fun hexcludes => hnone _ hexcludes.1 hexcludes.2, hrs⟩

/-- The ranges of headers cover a file when the certificates do. -/
theorem covered_eq_iff (rs : List ExcludeRange) (n h security VirtualAddress Size : Nat)
    (hrs : HeaderRanges rs h security VirtualAddress Size) (hinside : h + ntHeaders32Size ≤ n)
    (hlow : 92 ≤ security) (hhigh : security ≤ 168) :
    covered rs n = n ↔ VirtualAddress = 0 ∧ n ≤ Size := by
  have hnt : ntHeaders32Size = 248 := rfl
  have hcheck : checkSumOffset = 88 := rfl
  have hcount := List.countP_eq_length (p := fun k => !outside (rs.map ExcludeRange.unwrapped) k)
    (l := List.range n)
  rw [List.length_range] at hcount
  rw [covered, hcount]
  simp only [Bool.not_eq_true', ← Bool.not_eq_true, outside_map_iff, hrs.forall_iff, List.mem_range]
  unfold ExcludeRange.unwrapped
  dsimp only
  constructor
  · intro hall
    -- The first byte and the last are in no field.
    have hfirst := hall 0 (by omega)
    have hlast := hall (n - 1) (by omega)
    omega
  · rintro ⟨hzero, hsize⟩ k hk
    omega

/-- What the count depends on: the file is below 2^31, `Emit` is reached and has
    its buffer, and certificates that begin in the file do not wrap. Without a
    buffer it is right only where they are the whole file. -/
structure CountsWhen (o : IoOutcomes) (file : List UInt8) (bForce : Bool) : Prop where
  sizeOk : o.sizeOk = true
  recognised : bForce = true ∨ Recognised file (long file.length)
  small : file.length < 2147483648
  ranges : (o.mallocBuffer = true ∧ (Excludes file →
      certAddress file (headerOffset file) + certSize file (headerOffset file) < 4294967296 ∨
        file.length ≤ certAddress file (headerOffset file))) ∨
    (o.mallocBuffer = false ∧ Excludes file ∧ certAddress file (headerOffset file) = 0 ∧
      file.length ≤ certSize file (headerOffset file))

theorem long_le (n : Nat) : long n ≤ n := by
  rcases long_cases n with ⟨hneg, -⟩ | ⟨L, hlong, -, -, hsize⟩ <;> omega

/-- What `CalculateImagePtrs` returns for the file. -/
theorem imagePtrs_ok_iff (o : IoOutcomes) (hreads : o.Reads) (file : List UInt8) :
    (imagePtrs o file).1 = true ↔ Recognised file (long file.length) :=
  calculateImagePtrs_ok_iff o hreads file (initPEData o file.length) (long_le file.length)
    ⟨rfl, rfl⟩

/-- When every seek and read succeeds `Emit` does, if it has its buffer. -/
theorem emit_returns (o : IoOutcomes) (hreads : o.Reads) (hmalloc : o.mallocBuffer = true)
    (file : List UInt8) (rs : List ExcludeRange) (Size : Nat) (d : Handle)
    (hroom : Size ≤ file.length) : ∃ d', emit o file rs Size d = (true, d') := by
  have hbuffer : ¬ o.mallocBuffer = false := by rw [hmalloc]; decide
  rw [emit, if_neg hbuffer, emitLoop_eq]
  refine calculateAll_returns o hreads file _ (fun p hp => ?_) d
  have hin := pieces_inside rs Size 0 p hp
  have hle := long_le p.2
  omega

/-- No range on the list wraps in the file when the certificates do not, if there
    are any. -/
theorem noWrap_iff (o : IoOutcomes) (hreads : o.Reads) (file : List UInt8) (bForce : Bool)
    (rs : List ExcludeRange) (d : Handle) (hstart : emitStart o file bForce = (.ok rs, d)) :
    (∀ r ∈ rs, r.Offset + r.Size < 4294967296 ∨ file.length ≤ r.Offset) ↔
      (Excludes file →
        certAddress file (headerOffset file) + certSize file (headerOffset file) < 4294967296 ∨
          file.length ≤ certAddress file (headerOffset file)) := by
  rcases emitStart_list o hreads file bForce rs d hstart with
    ⟨hexcludes, security, hlow, hhigh, hrs⟩ | ⟨hnone, hnil⟩
  · have hinside := hexcludes.1.inside
    have hlong := long_lt file.length
    have hcheck : checkSumOffset = 88 := rfl
    have hnt : ntHeaders32Size = 248 := rfl
    rw [hrs.forall_iff, forall_prop_of_true hexcludes]
    -- The fields of the headers lie in the image.
    refine and_iff_left ⟨Or.inl ?_, Or.inl ?_⟩
    · dsimp only
      omega
    · dsimp only
      omega
  · rw [hnil]
    exact iff_of_true (fun r hr => absurd hr List.not_mem_nil)
      (fun hexcludes => absurd hexcludes hnone)

/-- With a buffer: the file is below 2^31, and certificates do not wrap in it. -/
theorem coverage_buffer (o : IoOutcomes) (hreads : o.Reads) (file : List UInt8) (bForce : Bool)
    (rs : List ExcludeRange) (d : Handle) (hstart : emitStart o file bForce = (.ok rs, d))
    (hmalloc : o.mallocBuffer = true) :
    (emit o file rs (dword (long file.length)) d).2.blocks.flatten.length
        + covered rs file.length = file.length ↔
      file.length < 2147483648 ∧ (Excludes file →
        certAddress file (headerOffset file) + certSize file (headerOffset file) < 4294967296 ∨
          file.length ≤ certAddress file (headerOffset file)) := by
  have hlist : addedRanges o file bForce = rs := by rw [addedRanges, hstart]
  have hblocks := emitStart_blocks o file bForce
  rw [hstart] at hblocks
  dsimp only at hblocks
  have hroom : dword (long file.length) ≤ file.length := by
    rw [dword_long]
    exact Nat.mod_le _ _
  -- Every call succeeds, so what is digested is what is to be passed on.
  rcases emit_returns o hreads hmalloc file rs _ d hroom with ⟨d', hemit⟩
  rw [hemit, emit_passed o file rs _ d d' hemit, hblocks, List.flatten_nil, List.nil_append]
  by_cases hsmall : file.length < 2147483648
  · have hdword : dword (long file.length) = file.length := by
      rw [dword_long, Nat.mod_eq_of_lt (by omega)]
    have hcount := small_iff o file bForce hsmall
    rw [hlist] at hcount
    rw [and_iff_right hsmall, hdword, hcount]
    exact noWrap_iff o hreads file bForce rs d hstart
  · have hshort := large_short o file bForce (by omega)
    rw [hlist] at hshort
    exact iff_of_false (by omega) (fun h => hsmall h.1)

/-- Without one: the certificates are the whole file. -/
theorem coverage_noBuffer (o : IoOutcomes) (hreads : o.Reads) (file : List UInt8) (bForce : Bool)
    (hpos : 0 < file.length) (rs : List ExcludeRange) (d : Handle)
    (hstart : emitStart o file bForce = (.ok rs, d)) (hmalloc : o.mallocBuffer = false) :
    (emit o file rs (dword (long file.length)) d).2.blocks.flatten.length
        + covered rs file.length = file.length ↔
      file.length < 2147483648 ∧ Excludes file ∧ certAddress file (headerOffset file) = 0 ∧
        file.length ≤ certSize file (headerOffset file) := by
  have hblocks := emitStart_blocks o file bForce
  rw [hstart] at hblocks
  dsimp only at hblocks
  -- Nothing is digested, so the ranges have to cover all of the file.
  rw [emit, if_pos hmalloc, hblocks, List.flatten_nil, List.length_nil, Nat.zero_add]
  rcases emitStart_list o hreads file bForce rs d hstart with
    ⟨hexcludes, security, hlow, hhigh, hrs⟩ | ⟨hnone, hnil⟩
  · have hinside := hexcludes.1.inside
    have hle := long_le file.length
    have hcert : certSize file (headerOffset file) < 4294967296 := UInt32.toNat_lt _
    rw [covered_eq_iff rs file.length _ security _ _ hrs (by omega) hlow hhigh,
      and_iff_right hexcludes]
    -- A range is below 2^32, and from 2^31 on to there no headers are accepted.
    refine (and_iff_right_of_imp (fun h => ?_)).symm
    rcases long_cases file.length with ⟨hneg, -⟩ | ⟨L, hlong, hL, -, hn⟩ <;> omega
  · rw [hnil, covered_nil]
    exact iff_of_false (by omega) (fun h => hnone h.2.1)

/-- The bytes digested and the bytes of the file in the ranges on the list are as
    many as the file has, of every file for which the result is true and every
    seek and read succeeds, under the condition and no other. -/
theorem coverage_iff (o : IoOutcomes) (hreads : o.Reads) (file : List UInt8) (bForce : Bool)
    (hpos : 0 < file.length) (hret : (auImageGetDigestStream o file [] bForce).bRet = true) :
    (auImageGetDigestStream o file [] bForce).blocks.flatten.length
        + covered (addedRanges o file bForce) file.length = file.length ↔
      CountsWhen o file bForce := by
  have hblocks := emitStart_blocks o file bForce
  rw [auImageGetDigestStream_eq] at hret ⊢
  unfold addedRanges
  rcases hstart : emitStart o file bForce with ⟨rc | rs, d⟩
  · -- The result is true without a code, and nothing was digested.
    rw [hstart] at hret hblocks
    have hnone : (DigestResult.failed rc d).blocks = [] := hblocks
    dsimp only
    rw [hnone, List.flatten_nil, List.length_nil, covered_nil]
    refine iff_of_false (by omega) (fun hcounts => ?_)
    -- Under the condition nothing fails without a code, and with one the result is false.
    rcases emitStart_error o file bForce rc d hstart with ⟨hleaves, -⟩ | ⟨-, hcode⟩
    · exact not_leavesWithLastError o file bForce hcounts.sizeOk
        (hcounts.recognised.symm.imp_left (imagePtrs_ok_iff o hreads file).mpr) hleaves
    · exact hcode (of_decide_eq_true hret)
  · rcases emitStart_ok o file bForce rs d hstart with ⟨hsizeOk, -, haccepted, -⟩
    have hrecognised := haccepted.symm.imp_right (imagePtrs_ok_iff o hreads file).mp
    dsimp only
    cases hmalloc : o.mallocBuffer with
    | true =>
        rw [coverage_buffer o hreads file bForce rs d hstart hmalloc]
        constructor
        · exact fun h => ⟨hsizeOk, hrecognised, h.1, Or.inl ⟨hmalloc, h.2⟩⟩
        · intro hcounts
          rcases hcounts.ranges with ⟨-, h⟩ | ⟨hnone, -⟩
          · exact ⟨hcounts.small, h⟩
          · exact absurd (hnone.symm.trans hmalloc) Bool.false_ne_true
    | false =>
        rw [coverage_noBuffer o hreads file bForce hpos rs d hstart hmalloc]
        constructor
        · exact fun h => ⟨hsizeOk, hrecognised, h.1, Or.inr ⟨hmalloc, h.2⟩⟩
        · intro hcounts
          rcases hcounts.ranges with ⟨hsome, -⟩ | ⟨-, h⟩
          · exact absurd (hmalloc.symm.trans hsome) Bool.false_ne_true
          · exact ⟨hcounts.small, h⟩

theorem coverage_iff_noStub :
    (auImageGetDigestStream goodOutcomes noStub [] true).blocks.flatten.length
      + covered (addedRanges goodOutcomes noStub true) noStub.length = noStub.length :=
  (coverage_iff goodOutcomes goodOutcomes_good.reads noStub true (by decide +kernel)
    noStub_bRet).mpr ⟨rfl, Or.inl rfl, by decide +kernel,
      Or.inl ⟨rfl, fun _ => Or.inl (by decide +kernel)⟩⟩

/-- Of a file of 2^31 zeros nothing is digested, and the result is true. -/
theorem coverage_not :
    ¬ ∀ (o : IoOutcomes) (file : List UInt8) (bForce : Bool), o.Reads → 0 < file.length →
      file.length < 9223372036854775808 →
      (auImageGetDigestStream o file [] bForce).bRet = true →
      (auImageGetDigestStream o file [] bForce).blocks.flatten.length
        + covered (addedRanges o file bForce) file.length = file.length := by
  obtain ⟨file, hfile⟩ : ∃ file : List UInt8, file.length = 2147483648 :=
    ⟨List.replicate 2147483648 0, List.length_replicate⟩
  have hneg : long file.length < 0 := by
    rw [hfile]
    decide
  rcases digestStream_nothing goodOutcomes file true hneg with ⟨hnothing, hret⟩
  intro h
  have hsum := h goodOutcomes file true goodOutcomes_good.reads (by omega) (by omega)
    (hret rfl rfl rfl)
  rw [hnothing, addedRanges_nil goodOutcomes file true hneg, covered_nil, List.flatten_nil,
    List.length_nil] at hsum
  omega

end Pe

end Defender
