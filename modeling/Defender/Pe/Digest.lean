import Defender.Pe.ExcludeList

/-!
# The Digest of an Image

`__AuImageGetDigestStream` finds the headers, puts what changes when an image
is signed on the exclude list, and has the rest emitted: the checksum, the
entry of the Security directory, and the certificates that entry names. A file
that is no image, or one whose headers are not accepted while it is forced, has
nothing excluded.

What `Emit` returns is not looked at. So the result is true whenever `Emit` is
reached, and what was passed to the digest function is all of the stream only
when its calls succeed. With every call succeeding the stream is the file with
the excluded ranges taken out, and the ranges can be read off the file.

## Main definitions

* `excludeHeaders`: The three ranges are added.
* `digestRanges`: The exclude list of a file.
* `auImageGetDigestStream`: The function.
* `emitStart`, `addedRanges`: What `Emit` is called with.
* `LeavesWithLastError`: When the code is left to `GetLastError`.
* `magicAt`, `securityAt`, `fieldsAt`, `certAt`: What is left out, read off
  the file, as `Emit` leaves it out.
* `HeaderRanges`: The ranges of headers are on a list.
* `headerOffset`, `imagePtrs`: Where the headers are, and what is found there.
* `excludedAt`, `excluded`: What is to be left out.

## Theorems

* `auImageGetDigestStream_eq`: The function is `emitStart` and `Emit`.
* `digestRanges_cases`: The exclude list, whatever the calls come to.
* `digestRanges_found`, `emitStart_found`: The exclude list of an image.
* `digestStream_good`: What the stream is when every call succeeds.
* `digestStream_exact`: It is the file without the excluded ranges.
* `digestStream_noStub`: An image without a DOS stub.
-/

namespace Defender

namespace Pe

open Wire Ranges

/-! ### The function -/

/-- `IMAGE_NT_OPTIONAL_HDR32_MAGIC`. -/
def imageNtOptionalHdr32Magic : UInt16 := 0x10b

/-- `IMAGE_NT_OPTIONAL_HDR64_MAGIC`. -/
def imageNtOptionalHdr64Magic : UInt16 := 0x20b

/-- The checksum in the NT headers. -/
def checkSumOffset : Nat := 88

/-- The entry of the Security directory in 32-bit and in 64-bit headers. -/
def securityOffset32 : Nat := 152

def securityOffset64 : Nat := 168

/-- A `DWORD_PTR` made of an offset. -/
def dwordPtr (x : Int) : Nat :=
  (x % 18446744073709551616).toNat

/-- The checksum, the entry of the Security directory and the certificates are
    added, if there is memory for the ranges. -/
def excludeHeaders (o : IoOutcomes) (ExList : List ExcludeRange) (pe : PeData) (security : Nat) :
    Option (List ExcludeRange) :=
  if o.newOk 0 = false then none
  else
    let ExList := add ExList (dwordPtr (pe.ntHdrOffset + checkSumOffset)) 4
    if o.newOk 1 = false then none
    else
      let ExList := add ExList (dwordPtr (pe.ntHdrOffset + security)) 8
      if o.newOk 2 = false then none
      else
        some (add ExList (dwordAt pe.ntHdr security).toNat (dwordAt pe.ntHdr (security + 4)).toNat)

/-- The exclude list of a file, or the code of an error. -/
def digestRanges (o : IoOutcomes) (file : List UInt8) (d : Handle) (pe : PeData)
    (ExList : List ExcludeRange) (bForce : Bool) : Except Nat (List ExcludeRange) × Handle :=
  if pe.NumberOfSections > 0 then
    let Magic := word16At pe.ntHdr 24
    if Magic ≠ imageNtOptionalHdr32Magic ∧ Magic ≠ imageNtOptionalHdr64Magic then
      if bForce = false then (.error 0xFFFFFE02, d) else (.ok ExList, d)
    else if Magic = imageNtOptionalHdr32Magic then
      match excludeHeaders o ExList pe securityOffset32 with
      | none => (.error 0xFFFFFE03, d)
      | some ExList => (.ok ExList, d)
    else
      let (retval, ntHdr, d) := keReadDataSpec o file d pe.ntHdrOffset pe.ntHdr ntHeaders64Size
      if retval = false then (.error 87, d)
      else
        match excludeHeaders o ExList { pe with ntHdr := ntHdr } securityOffset64 with
        | none => (.error 0xFFFFFE03, d)
        | some ExList => (.ok ExList, d)
  else (.ok ExList, d)

/-- What the function leaves behind: the value returned, the code that is set,
    and the blocks passed to the digest function. -/
structure DigestResult where
  bRet : Bool
  rc : Nat
  blocks : List (List UInt8)

/-- Leaving with a code. -/
def DigestResult.failed (rc : Nat) (d : Handle) : DigestResult where
  bRet := decide (rc = 0)
  rc := rc
  blocks := d.blocks

/-- `__AuImageGetDigestStream`. -/
def auImageGetDigestStream (o : IoOutcomes) (file : List UInt8) (ExList : List ExcludeRange)
    (bForce : Bool) : DigestResult :=
  if o.sizeOk = false then DigestResult.failed o.lastError Handle.opened
  else if file.length = 0 then DigestResult.failed 0xFFFFFE01 Handle.opened
  else if o.mallocData = false then DigestResult.failed 8 Handle.opened
  else
    let (ok, pe, d) := calculateImagePtrs o file Handle.opened (initPEData o file.length)
    if ok = false ∧ bForce = false then DigestResult.failed o.lastError d
    else
      let pe := if ok = false then { pe with isPE := false } else pe
      match digestRanges o file d pe ExList bForce with
      | (.error rc, d) => DigestResult.failed rc d
      | (.ok ExList, d) =>
          -- The value of `Emit` is dropped.
          let (_, d) := emit o file ExList (dword pe.imageLength) d
          { bRet := true, rc := 0, blocks := d.blocks }

/-- What the headers of a file are found from. -/
def imagePtrs (o : IoOutcomes) (file : List UInt8) : Bool × PeData × Handle :=
  calculateImagePtrs o file Handle.opened (initPEData o file.length)

/-- What `Emit` is called with, or the code of an error before. -/
def emitStart (o : IoOutcomes) (file : List UInt8) (bForce : Bool) :
    Except Nat (List ExcludeRange) × Handle :=
  if o.sizeOk = false then (.error o.lastError, Handle.opened)
  else if file.length = 0 then (.error 0xFFFFFE01, Handle.opened)
  else if o.mallocData = false then (.error 8, Handle.opened)
  else
    let (ok, pe, d) := imagePtrs o file
    if ok = false ∧ bForce = false then (.error o.lastError, d)
    else digestRanges o file d pe [] bForce

/-- The ranges that are on the list when `Emit` is called. -/
def addedRanges (o : IoOutcomes) (file : List UInt8) (bForce : Bool) : List ExcludeRange :=
  match (emitStart o file bForce).1 with
  | .error _ => []
  | .ok rs => rs

/-- The function is what comes before `Emit`, and `Emit`. -/
theorem auImageGetDigestStream_eq (o : IoOutcomes) (file : List UInt8) (bForce : Bool) :
    auImageGetDigestStream o file [] bForce
      = match emitStart o file bForce with
        | (.error rc, d) => DigestResult.failed rc d
        | (.ok rs, d) =>
            { bRet := true
              rc := 0
              blocks := (emit o file rs (dword (long file.length)) d).2.blocks } := by
  have hlength : (calculateImagePtrs o file Handle.opened
      (initPEData o file.length)).2.1.imageLength = long file.length :=
    (calculateImagePtrs_inside o file (initPEData o file.length) ⟨rfl, rfl⟩).1.imageLength
  unfold auImageGetDigestStream emitStart imagePtrs
  split
  · rfl
  · split
    · rfl
    · split
      · rfl
      · rcases hptrs : calculateImagePtrs o file Handle.opened (initPEData o file.length) with
          ⟨ok, pe, d⟩
        rw [hptrs] at hlength
        dsimp only at hlength ⊢
        split
        · rfl
        · -- Whether it is an image is not looked at again.
          have hranges : digestRanges o file d
              (if ok = false then { pe with isPE := false } else pe) [] bForce
                = digestRanges o file d pe [] bForce := by
            split
            · rfl
            · rfl
          have hsame : (if ok = false then { pe with isPE := false } else pe).imageLength
              = long file.length := by
            split
            · exact hlength
            · exact hlength
          rw [hranges, hsame]

/-! ### The ranges of a file -/

/-- Every call succeeds, and there is memory. -/
structure IoOutcomes.Good (o : IoOutcomes) : Prop where
  reads : o.Reads
  sizeOk : o.sizeOk = true
  mallocData : o.mallocData = true
  newOk : ∀ k, o.newOk k = true
  mallocBuffer : o.mallocBuffer = true

/-- The magic number of the optional header. -/
def magicAt (file : List UInt8) (h : Nat) : UInt16 :=
  word16At file (h + 24)

/-- The optional header is one of the two that are known. -/
def KnownMagic (file : List UInt8) (h : Nat) : Prop :=
  magicAt file h = imageNtOptionalHdr32Magic ∨ magicAt file h = imageNtOptionalHdr64Magic

instance (file : List UInt8) (h : Nat) : Decidable (KnownMagic file h) :=
  inferInstanceAs (Decidable (_ ∨ _))

/-- The entry of the Security directory. -/
def securityAt (file : List UInt8) (h : Nat) : Nat :=
  h + if magicAt file h = imageNtOptionalHdr32Magic then securityOffset32 else securityOffset64

/-- Where that entry says the certificates are, and how long. -/
def certAddress (file : List UInt8) (h : Nat) : Nat :=
  (dwordAt file (securityAt file h)).toNat

def certSize (file : List UInt8) (h : Nat) : Nat :=
  (dwordAt file (securityAt file h + 4)).toNat

/-- The checksum and the entry of the Security directory. -/
def fieldsAt (file : List UInt8) (h : Nat) : List Range :=
  [{ first := securityAt file h, last := securityAt file h + 8 },
    { first := h + checkSumOffset, last := h + checkSumOffset + 4 }]

/-- The certificates as `Emit` takes them out: a range that goes past 2^32 is
    empty. -/
def certAt (file : List UInt8) (h : Nat) : Range where
  first := certAddress file h
  last := (certAddress file h + certSize file h) % 4294967296

theorem dwordPtr_of_lt (n : Nat) (h : n < 18446744073709551616) : dwordPtr n = n := by
  unfold dwordPtr
  omega

/-- The three ranges of headers at an offset are on the list, in the order of
    their offsets, and no others. -/
structure HeaderRanges (rs : List ExcludeRange) (h security VirtualAddress Size : Nat) : Prop where
  sorted : Sorted rs
  mem : ∀ r, r ∈ rs ↔ r = { Offset := VirtualAddress, Size := Size } ∨
    r = { Offset := h + security, Size := 8 } ∨ r = { Offset := h + checkSumOffset, Size := 4 }

/-- `excludeHeaders` adds the three ranges when there is memory for all of them. -/
theorem excludeHeaders_iff (o : IoOutcomes) (ExList rs : List ExcludeRange) (pe : PeData)
    (security : Nat) : excludeHeaders o ExList pe security = some rs ↔
      (∀ k < 3, o.newOk k = true) ∧
        rs = add (add (add ExList (dwordPtr (pe.ntHdrOffset + checkSumOffset)) 4)
            (dwordPtr (pe.ntHdrOffset + security)) 8)
          (dwordAt pe.ntHdr security).toNat (dwordAt pe.ntHdr (security + 4)).toNat := by
  have hthree : (∀ k < 3, o.newOk k = true) ↔
      o.newOk 0 = true ∧ o.newOk 1 = true ∧ o.newOk 2 = true := by
    refine ⟨fun h => ⟨h 0 (by decide), h 1 (by decide), h 2 (by decide)⟩, fun h k hk => ?_⟩
    have hcases : k = 0 ∨ k = 1 ∨ k = 2 := by omega
    rcases hcases with rfl | rfl | rfl
    · exact h.1
    · exact h.2.1
    · exact h.2.2
  rw [hthree]
  unfold excludeHeaders
  -- The first range without memory ends it.
  cases h0 : o.newOk 0 with
  | false =>
      rw [if_pos rfl]
      exact iff_of_false (by simp only [reduceCtorEq, not_false_eq_true])
        (fun h => Bool.false_ne_true h.1.1)
  | true =>
      rw [if_neg (by decide)]
      cases h1 : o.newOk 1 with
      | false =>
          rw [if_pos rfl]
          exact iff_of_false (by simp only [reduceCtorEq, not_false_eq_true])
            (fun h => Bool.false_ne_true h.1.2.1)
      | true =>
          rw [if_neg (by decide)]
          cases h2 : o.newOk 2 with
          | false =>
              rw [if_pos rfl]
              exact iff_of_false (by simp only [reduceCtorEq, not_false_eq_true])
                (fun h => Bool.false_ne_true h.1.2.2)
          | true =>
              rw [if_neg (by decide), Option.some.injEq]
              exact ⟨fun h => ⟨⟨rfl, rfl, rfl⟩, h.symm⟩, fun h => h.2.symm⟩

/-- Where headers lie in an image, an offset in them stays what it is. -/
theorem dwordPtr_offset (pe : PeData) (h k : Nat) (hoffset : pe.ntHdrOffset = h)
    (hsmall : h + 248 ≤ 2147483648) (hk : k ≤ 168) :
    dwordPtr (pe.ntHdrOffset + k) = h + k := by
  rw [hoffset]
  exact dwordPtr_of_lt (h + k) (by omega)

/-- What `excludeHeaders` puts on an empty list. -/
theorem excludeHeaders_ranges (o : IoOutcomes) (pe : PeData) (h security : Nat)
    (rs : List ExcludeRange) (hoffset : pe.ntHdrOffset = h) (hsmall : h + 248 ≤ 2147483648)
    (hlow : security ≤ 168) (hrun : excludeHeaders o [] pe security = some rs) :
    HeaderRanges rs h security (dwordAt pe.ntHdr security).toNat
      (dwordAt pe.ntHdr (security + 4)).toNat := by
  have hcheck : checkSumOffset = 88 := rfl
  have haddress : (dwordAt pe.ntHdr security).toNat < 4294967296 := UInt32.toNat_lt _
  rw [((excludeHeaders_iff o [] rs pe security).mp hrun).2,
    dwordPtr_offset pe h checkSumOffset hoffset hsmall (by decide),
    dwordPtr_offset pe h security hoffset hsmall hlow]
  refine ⟨add_sorted _ _ _ haddress (add_sorted _ _ _ (by omega) (add_sorted _ _ _ (by omega)
    sorted_nil)), fun r => ?_⟩
  rw [mem_add, mem_add, mem_add, dword_of_lt (dwordAt pe.ntHdr security).toNat haddress,
    dword_of_lt (h + security) (by omega), dword_of_lt (h + checkSumOffset) (by omega),
    or_iff_left List.not_mem_nil]

/-- What is taken out of the file, by the fields of the headers. -/
theorem HeaderRanges.outside_skipped {file : List UInt8} {h security : Nat}
    {rs : List ExcludeRange}
    (hrs : HeaderRanges rs h security (certAddress file h) (certSize file h))
    (hsecurity : securityAt file h = h + security) (hsmall : h + 248 ≤ 2147483648)
    (hlow : security ≤ 168) :
    outside (rs.map skipped) = outside (certAt file h :: fieldsAt file h) := by
  have hcheck : checkSumOffset = 88 := rfl
  -- The list is in the order of the offsets, and for `outside` the order is nothing.
  refine outside_congr _ _ (fun r => ?_)
  have hskip1 : skipped { Offset := h + checkSumOffset, Size := 4 }
      = { first := h + checkSumOffset, last := h + checkSumOffset + 4 } := by
    rw [skipped, Nat.mod_eq_of_lt (by dsimp only; omega)]
  have hskip2 : skipped { Offset := h + security, Size := 8 }
      = { first := securityAt file h, last := securityAt file h + 8 } := by
    rw [skipped, hsecurity, Nat.mod_eq_of_lt (by dsimp only; omega)]
  have hskip3 : skipped { Offset := certAddress file h, Size := certSize file h }
      = certAt file h := rfl
  simp only [List.mem_map, hrs.mem, exists_eq_or_imp, exists_eq_left, hskip1, hskip2, hskip3,
    fieldsAt, List.mem_cons, List.not_mem_nil, or_false]
  exact or_congr eq_comm (or_congr eq_comm eq_comm)

/-- An image length that is not negative is one of a file below 2^31, or of
    what is left of a longer one. -/
theorem of_long_eq (n L : Nat) (h : long n = L) : L < 2147483648 ∧ L ≤ n := by
  rw [long, toInt_ofNat] at h
  split at h <;> omega

/-- The headers found have sections, and their optional header is known. -/
def HasExcluded (file : List UInt8) (h : Nat) : Prop :=
  0 < (word16At file (h + 6)).toNat ∧ KnownMagic file h

instance (file : List UInt8) (h : Nat) : Decidable (HasExcluded file h) :=
  inferInstanceAs (Decidable (_ ∧ _))

/-- The entry of the Security directory as it is in headers that were read. -/
theorem certEntry_of_read (file data : List UInt8) (h n security : Nat) (hn : 248 ≤ n)
    (hlow : security ≤ 168) (hroom : h + 248 ≤ file.length)
    (hsecurity : securityAt file h = h + security) :
    (dwordAt (poke data 0 (slice file h n)) security).toNat = certAddress file h ∧
      (dwordAt (poke data 0 (slice file h n)) (security + 4)).toNat = certSize file h := by
  rw [certAddress, certSize, hsecurity, Nat.add_assoc,
    dwordAt_poke_slice file data h n security (by omega) (by omega),
    dwordAt_poke_slice file data h n (security + 4) (by omega) (by omega)]
  exact ⟨rfl, rfl⟩

/-- The exclude list, whatever the calls come to: nothing is on it, or the ranges
    of the headers that were read, or of those read again for the wider ones. -/
theorem digestRanges_cases (o : IoOutcomes) (file : List UInt8) (d : Handle) (pe : PeData)
    (bForce : Bool) (rs : List ExcludeRange) (d' : Handle)
    (hrun : digestRanges o file d pe [] bForce = (.ok rs, d')) :
    (¬ (pe.NumberOfSections > 0 ∧ (word16At pe.ntHdr 24 = imageNtOptionalHdr32Magic ∨
        word16At pe.ntHdr 24 = imageNtOptionalHdr64Magic)) ∧ rs = [] ∧ d' = d) ∨
      (pe.NumberOfSections > 0 ∧ word16At pe.ntHdr 24 = imageNtOptionalHdr32Magic ∧ d' = d ∧
        excludeHeaders o [] pe securityOffset32 = some rs) ∨
      (pe.NumberOfSections > 0 ∧ word16At pe.ntHdr 24 = imageNtOptionalHdr64Magic ∧
        ∃ ntHdr, keReadDataSpec o file d pe.ntHdrOffset pe.ntHdr ntHeaders64Size
            = (true, ntHdr, d') ∧
          excludeHeaders o [] { pe with ntHdr := ntHdr } securityOffset64 = some rs) := by
  unfold digestRanges at hrun
  dsimp only at hrun
  by_cases hsections : pe.NumberOfSections > 0
  · rw [if_pos hsections] at hrun
    -- An optional header that is not known: left with a code, or forced and without ranges.
    by_cases hother : word16At pe.ntHdr 24 ≠ imageNtOptionalHdr32Magic ∧
        word16At pe.ntHdr 24 ≠ imageNtOptionalHdr64Magic
    · rw [if_pos hother] at hrun
      split at hrun
      · exact absurd (Prod.mk.inj hrun).1 (by simp only [reduceCtorEq, not_false_eq_true])
      · rcases Prod.mk.inj hrun with ⟨hrs, hd⟩
        exact Or.inl ⟨fun h => h.2.elim hother.1 hother.2, (Except.ok.inj hrs).symm, hd.symm⟩
    rw [if_neg hother] at hrun
    by_cases h32 : word16At pe.ntHdr 24 = imageNtOptionalHdr32Magic
    · rw [if_pos h32] at hrun
      split at hrun
      · exact absurd (Prod.mk.inj hrun).1 (by simp only [reduceCtorEq, not_false_eq_true])
      · rename_i rs' hrs'
        rcases Prod.mk.inj hrun with ⟨hrs, hd⟩
        exact Or.inr (Or.inl ⟨hsections, h32, hd.symm, hrs'.trans (congrArg some
          (Except.ok.inj hrs))⟩)
    · have h64 : word16At pe.ntHdr 24 = imageNtOptionalHdr64Magic := by
        by_contra hcontra
        exact hother ⟨h32, hcontra⟩
      rw [if_neg h32] at hrun
      -- The optional header for 64 bits is longer than what was read, so it is read again.
      rcases hread : keReadDataSpec o file d pe.ntHdrOffset pe.ntHdr ntHeaders64Size with
        ⟨retval, ntHdr, d₁⟩
      rw [hread] at hrun
      dsimp only at hrun
      cases retval with
      | false =>
          rw [if_pos rfl] at hrun
          exact absurd (Prod.mk.inj hrun).1 (by simp only [reduceCtorEq, not_false_eq_true])
      | true =>
          rw [if_neg (by decide)] at hrun
          split at hrun
          · exact absurd (Prod.mk.inj hrun).1 (by simp only [reduceCtorEq, not_false_eq_true])
          · rename_i rs' hrs'
            rcases Prod.mk.inj hrun with ⟨hrs, rfl⟩
            exact Or.inr (Or.inr ⟨hsections, h64, ntHdr, rfl, hrs'.trans (congrArg some
              (Except.ok.inj hrs))⟩)
  · rw [if_neg hsections] at hrun
    rcases Prod.mk.inj hrun with ⟨hrs, hd⟩
    exact Or.inl ⟨fun h => hsections h.1, (Except.ok.inj hrs).symm, hd.symm⟩

/-- The exclude list when headers were found and every call succeeds. -/
theorem digestRanges_found (o : IoOutcomes) (hreads : o.Reads) (file : List UInt8) (d : Handle)
    (pe : PeData) (h L : Nat) (hL : L < 2147483648) (hLn : L ≤ file.length)
    (hheaders : PeHeaders file L h) (hfound : Found file pe h) (bForce : Bool)
    (rs : List ExcludeRange) (d' : Handle)
    (hrun : digestRanges o file d pe [] bForce = (.ok rs, d')) :
    d'.blocks = d.blocks ∧
      ((HasExcluded file h ∧ ∃ security, securityAt file h = h + security ∧
          92 ≤ security ∧ security ≤ 168 ∧
          HeaderRanges rs h security (certAddress file h) (certSize file h)) ∨
        (¬ HasExcluded file h ∧ rs = [])) := by
  have hnt : ntHeaders32Size = 248 := rfl
  have hinside := hheaders.inside
  rcases hfound.ntHdr with ⟨data, hdata⟩
  have hmagic : word16At pe.ntHdr 24 = magicAt file h := by
    rw [hdata]
    exact word16At_poke_slice file data h ntHeaders32Size 24 (by omega) (by omega)
  rcases digestRanges_cases o file d pe bForce rs d' hrun with
    ⟨hnot, hrs, hd⟩ | ⟨hsections, h32, hd, hrs⟩ | ⟨hsections, h64, ntHdr, hread, hrs⟩
  · -- No sections, or a magic number that is not known.
    rw [hfound.sections, hmagic] at hnot
    exact ⟨congrArg Handle.blocks hd, Or.inr ⟨hnot, hrs⟩⟩
  · -- The narrow headers have been read in full.
    rw [hfound.sections] at hsections
    rw [hmagic] at h32
    have hsecurity : securityAt file h = h + securityOffset32 := by rw [securityAt, if_pos h32]
    rcases certEntry_of_read file data h ntHeaders32Size securityOffset32 (by decide) (by decide)
      (by omega) hsecurity with ⟨haddress, hsize⟩
    rw [← hdata] at haddress hsize
    have hranges := excludeHeaders_ranges o pe h securityOffset32 rs hfound.offset (by omega)
      (by decide) hrs
    rw [haddress, hsize] at hranges
    exact ⟨congrArg Handle.blocks hd, Or.inl ⟨⟨hsections, Or.inl h32⟩, securityOffset32, hsecurity,
      by decide, by decide, hranges⟩⟩
  · -- The wider headers are read again, as far as the file goes.
    have hother : ¬ magicAt file h = imageNtOptionalHdr32Magic := by
      rw [← hmagic, h64]
      decide
    rw [hfound.sections] at hsections
    rw [hmagic] at h64
    have hsecurity : securityAt file h = h + securityOffset64 := by
      rw [securityAt, if_neg hother]
    rw [hfound.offset] at hread
    have hcopy := keReadDataSpec_copies o hreads file d h ntHeaders64Size pe.ntHdr
    have hblocks := keReadDataSpec_blocks o file d h pe.ntHdr ntHeaders64Size
    rw [hread] at hcopy hblocks
    rcases certEntry_of_read file pe.ntHdr h ntHeaders64Size securityOffset64 (by decide)
      (by decide) (by omega) hsecurity with ⟨haddress, hsize⟩
    rw [← hcopy] at haddress hsize
    have hranges := excludeHeaders_ranges o { pe with ntHdr := ntHdr } h securityOffset64 rs
      hfound.offset (by omega) (by decide) hrs
    dsimp only at hranges
    rw [haddress, hsize] at hranges
    exact ⟨hblocks, Or.inl ⟨⟨hsections, Or.inr h64⟩, securityOffset64, hsecurity, by decide,
      by decide, hranges⟩⟩

/-- Leaving without a list sets a code. -/
theorem digestRanges_error (o : IoOutcomes) (file : List UInt8) (d : Handle) (pe : PeData)
    (ExList : List ExcludeRange) (bForce : Bool) (rc : Nat) (d' : Handle)
    (hrun : digestRanges o file d pe ExList bForce = (.error rc, d')) : rc ≠ 0 := by
  -- Every way out is with a constant code or with a list.
  have hcode : ∀ (code : Nat) (d : Handle), code ≠ 0 →
      ((.error code : Except Nat (List ExcludeRange)), d) = (.error rc, d') → rc ≠ 0 := by
    rintro code d hne heq
    rw [← Except.error.inj (Prod.mk.inj heq).1]
    exact hne
  have hok : ∀ (rs : List ExcludeRange) (d : Handle),
      ((.ok rs : Except Nat (List ExcludeRange)), d) = (.error rc, d') → rc ≠ 0 :=
    fun rs d heq => absurd (Prod.mk.inj heq).1 (by simp only [reduceCtorEq, not_false_eq_true])
  unfold digestRanges at hrun
  dsimp only at hrun
  split at hrun
  · split at hrun
    · split at hrun
      · exact hcode _ _ (by decide) hrun
      · exact hok _ _ hrun
    · split at hrun
      · split at hrun
        · exact hcode _ _ (by decide) hrun
        · exact hok _ _ hrun
      · split at hrun
        · exact hcode _ _ (by decide) hrun
        · split at hrun
          · exact hcode _ _ (by decide) hrun
          · exact hok _ _ hrun
  · exact hok _ _ hrun

/-! ### The stream -/

/-- There is one place where the headers of a file can be. -/
def headerOffset (file : List UInt8) : Nat :=
  if word16At file 0 = imageDosSignature then (dwordAt file 60).toNat else 0

theorem headerOffset_of_at (file : List UInt8) (h : Nat) (hat : HeadersAt file h) :
    h = headerOffset file := by
  rcases hat with ⟨hmz, hlfanew, -⟩ | ⟨hpe, hzero⟩
  · rw [headerOffset, if_pos hmz, toNat_of_toInt _ _ hlfanew]
  · have hne : ¬ word16At file 0 = imageDosSignature := by
      rw [hpe]
      decide
    rw [headerOffset, if_neg hne, hzero]

theorem imagePtrs_good (o : IoOutcomes) (hreads : o.Reads) (file : List UInt8) (L : Nat)
    (hlong : long file.length = L) :
    (imagePtrs o file).2.2.blocks = [] ∧ (imagePtrs o file).2.1.imageLength = L ∧
      ((PeHeaders file L (headerOffset file) ∧ (imagePtrs o file).1 = true ∧
          Found file (imagePtrs o file).2.1 (headerOffset file)) ∨
        ((∀ h, ¬ PeHeaders file L h) ∧ NotFound (imagePtrs o file).2.1)) := by
  have hsmall := of_long_eq file.length L hlong
  have hlength : (initPEData o file.length).imageLength = L := hlong
  rcases calculateImagePtrs_good o hreads file (initPEData o file.length) (by omega) ⟨rfl, rfl⟩ with
    ⟨hframe, hheaders⟩
  rw [hlength] at hheaders
  refine ⟨hframe.blocks, hframe.imageLength.trans hlength, ?_⟩
  rcases hheaders with ⟨h, hpe, hok, hfound⟩ | hnone
  · rw [← headerOffset_of_at file h hpe.offset]
    exact Or.inl ⟨hpe, hok, hfound⟩
  · exact Or.inr hnone

theorem digestRanges_blocks (o : IoOutcomes) (file : List UInt8) (d : Handle) (pe : PeData)
    (ExList : List ExcludeRange) (bForce : Bool) :
    (digestRanges o file d pe ExList bForce).2.blocks = d.blocks := by
  have hread := keReadDataSpec_blocks o file d pe.ntHdrOffset pe.ntHdr ntHeaders64Size
  unfold digestRanges
  dsimp only
  split
  · split
    · split
      · rfl
      · rfl
    · split
      · split
        · rfl
        · rfl
      · split
        · exact hread
        · split
          · exact hread
          · exact hread
  · rfl

/-- Before `Emit` nothing is passed to the digest function. -/
theorem emitStart_blocks (o : IoOutcomes) (file : List UInt8) (bForce : Bool) :
    (emitStart o file bForce).2.blocks = [] := by
  have hblocks := (calculateImagePtrs_inside o file (initPEData o file.length) ⟨rfl, rfl⟩).1.blocks
  unfold emitStart
  split
  · rfl
  · split
    · rfl
    · split
      · rfl
      · dsimp only
        split
        · exact hblocks
        · exact (digestRanges_blocks o file _ _ [] bForce).trans hblocks

/-- When `Emit` is called: the headers were accepted, or it is forced, and the
    list is that of the headers. -/
theorem emitStart_ok (o : IoOutcomes) (file : List UInt8) (bForce : Bool) (rs : List ExcludeRange)
    (d : Handle) (h : emitStart o file bForce = (.ok rs, d)) :
    o.sizeOk = true ∧ file.length ≠ 0 ∧ ((imagePtrs o file).1 = true ∨ bForce = true) ∧
      digestRanges o file (imagePtrs o file).2.2 (imagePtrs o file).2.1 [] bForce
        = (.ok rs, d) := by
  unfold emitStart at h
  split at h
  · exact absurd (Prod.mk.inj h).1 (by simp only [reduceCtorEq, not_false_eq_true])
  rename_i hsize
  split at h
  · exact absurd (Prod.mk.inj h).1 (by simp only [reduceCtorEq, not_false_eq_true])
  rename_i hempty
  split at h
  · exact absurd (Prod.mk.inj h).1 (by simp only [reduceCtorEq, not_false_eq_true])
  rcases hptrs : imagePtrs o file with ⟨ok, pe, d₁⟩
  rw [hptrs] at h
  dsimp only at h
  split at h
  · exact absurd (Prod.mk.inj h).1 (by simp only [reduceCtorEq, not_false_eq_true])
  · rename_i hproceeds
    refine ⟨eq_true_of_ne_false hsize, hempty, ?_, h⟩
    by_contra hneither
    rw [not_or, Bool.not_eq_true, Bool.not_eq_true] at hneither
    exact hproceeds hneither

/-- What is on the list when every call succeeds: the ranges of the headers of the
    file, when they are accepted. -/
theorem emitStart_found (o : IoOutcomes) (hreads : o.Reads) (file : List UInt8) (L : Nat)
    (hlong : long file.length = L) (bForce : Bool) (rs : List ExcludeRange) (d : Handle)
    (h : emitStart o file bForce = (.ok rs, d)) :
    d.blocks = [] ∧
      ((PeHeaders file L (headerOffset file) ∧ HasExcluded file (headerOffset file) ∧
          ∃ security, securityAt file (headerOffset file) = headerOffset file + security ∧
            92 ≤ security ∧ security ≤ 168 ∧
            HeaderRanges rs (headerOffset file) security (certAddress file (headerOffset file))
              (certSize file (headerOffset file))) ∨
        ((∀ h, PeHeaders file L h → ¬ HasExcluded file h) ∧ rs = [])) := by
  rcases of_long_eq file.length L hlong with ⟨hsmall, hroom⟩
  rcases emitStart_ok o file bForce rs d h with ⟨-, -, -, hranges⟩
  rcases imagePtrs_good o hreads file L hlong with ⟨hblocks, -, ⟨hpe, -, hfound⟩ | ⟨hnone, hnot⟩⟩
  · rcases digestRanges_found o hreads file _ _ (headerOffset file) L hsmall hroom hpe hfound bForce
      rs d hranges with ⟨hd, ⟨hhas, hrs⟩ | ⟨hhas, hrs⟩⟩
    · exact ⟨hd.trans hblocks, Or.inl ⟨hpe, hhas, hrs⟩⟩
    · refine ⟨hd.trans hblocks, Or.inr ⟨fun h hh => ?_, hrs⟩⟩
      rw [headerOffset_of_at file h hh.offset]
      exact hhas
  · have hsections : ¬ (imagePtrs o file).2.1.NumberOfSections > 0 :=
      Nat.not_lt_of_le (Nat.le_of_eq hnot.sections)
    rw [digestRanges, if_neg hsections] at hranges
    rcases Prod.mk.inj hranges with ⟨hrs, rfl⟩
    exact ⟨hblocks, Or.inr ⟨fun h hh => absurd hh (hnone h), (Except.ok.inj hrs).symm⟩⟩

/-- The function leaves with the code that `GetLastError` has: `GetFileSizeEx`
    fails, or the headers are not accepted and it is not forced. -/
def LeavesWithLastError (o : IoOutcomes) (file : List UInt8) (bForce : Bool) : Prop :=
  o.sizeOk = false ∨ (file.length ≠ 0 ∧ o.mallocData = true ∧ (imagePtrs o file).1 = false ∧
    bForce = false)

theorem not_leavesWithLastError (o : IoOutcomes) (file : List UInt8) (bForce : Bool)
    (hsize : o.sizeOk = true) (haccepted : (imagePtrs o file).1 = true ∨ bForce = true) :
    ¬ LeavesWithLastError o file bForce := by
  rintro (hfails | ⟨-, -, hok, hforce⟩)
  · exact absurd (hfails.symm.trans hsize) Bool.false_ne_true
  · rcases haccepted with hok' | hforce'
    · exact absurd (hok.symm.trans hok') Bool.false_ne_true
    · exact absurd (hforce.symm.trans hforce') Bool.false_ne_true

/-- Leaving before `Emit` sets a code, unless it is the one that `GetLastError`
    has. -/
theorem emitStart_error (o : IoOutcomes) (file : List UInt8) (bForce : Bool) (rc : Nat) (d : Handle)
    (h : emitStart o file bForce = (.error rc, d)) :
    (LeavesWithLastError o file bForce ∧ rc = o.lastError) ∨
      (¬ LeavesWithLastError o file bForce ∧ rc ≠ 0) := by
  have hcode : ∀ (code : Nat) (d' : Handle),
      ((.error code : Except Nat (List ExcludeRange)), d') = (.error rc, d) → rc = code :=
    fun code d' heq => (Except.error.inj (Prod.mk.inj heq).1).symm
  -- The exits in the order of the function: two of them leave the code to `GetLastError`.
  unfold emitStart at h
  split at h
  · rename_i hfails
    exact Or.inl ⟨Or.inl hfails, hcode _ _ h⟩
  rename_i hsize
  split at h
  · rename_i hempty
    refine Or.inr ⟨?_, ?_⟩
    · exact not_or.mpr ⟨hsize, fun hleaves => hleaves.1 hempty⟩
    · rw [hcode _ _ h]
      decide
  rename_i hempty
  split at h
  · rename_i hdata
    refine Or.inr ⟨?_, ?_⟩
    · exact not_or.mpr ⟨hsize, fun hleaves => Bool.false_ne_true (hdata.symm.trans hleaves.2.1)⟩
    · rw [hcode _ _ h]
      decide
  rename_i hdata
  dsimp only at h
  split at h
  · rename_i hleaves
    exact Or.inl ⟨Or.inr ⟨hempty, eq_true_of_ne_false hdata, hleaves⟩, hcode _ _ h⟩
  · rename_i hproceeds
    exact Or.inr ⟨not_or.mpr ⟨hsize, fun hleaves => hproceeds hleaves.2.2⟩,
      digestRanges_error _ _ _ _ _ _ _ _ h⟩

/-- The stream of an image of a length, when every call succeeds and the result
    is true: the front of the file without the fields and the certificates, or
    the front of the file. -/
theorem digestStream_good (o : IoOutcomes) (hgood : o.Good) (file : List UInt8) (bForce : Bool)
    (L : Nat) (hlong : long file.length = L)
    (haccepted : bForce = true ∨ (imagePtrs o file).1 = true)
    (hrun : (auImageGetDigestStream o file [] bForce).bRet = true) :
    (PeHeaders file L (headerOffset file) ∧ HasExcluded file (headerOffset file) ∧
        (auImageGetDigestStream o file [] bForce).blocks.flatten
          = keep (outside (certAt file (headerOffset file) :: fieldsAt file (headerOffset file))) 0
            (file.take L)) ∨
      ((∀ h, PeHeaders file L h → ¬ HasExcluded file h) ∧
        (auImageGetDigestStream o file [] bForce).blocks.flatten = file.take L) := by
  rcases of_long_eq file.length L hlong with ⟨hsmall, hroom⟩
  have hdword : dword (long file.length) = L := by
    rw [hlong]
    exact dword_of_lt L (by omega)
  rw [auImageGetDigestStream_eq, hdword] at hrun ⊢
  rcases hstart : emitStart o file bForce with ⟨rc | rs, d⟩
  · -- A result with a code is false, and no code that is set here is zero.
    rw [hstart] at hrun
    rcases emitStart_error o file bForce rc d hstart with ⟨hleaves, -⟩ | ⟨-, hcode⟩
    · exact absurd hleaves
        (not_leavesWithLastError o file bForce hgood.sizeOk haccepted.symm)
    · exact absurd (of_decide_eq_true hrun) hcode
  dsimp only
  rcases emitStart_found o hgood.reads file L hlong bForce rs d hstart with
    ⟨hnil, ⟨hpe, hhas, security, hsecurity, -, hlow, hrs⟩ | ⟨hnone, rfl⟩⟩
  · -- With ranges, what lies outside of them is given.
    rcases emit_good o hgood.reads hgood.mallocBuffer file rs hrs.sorted L d hroom hsmall with
      ⟨d', hemit, hflat⟩
    have hinside := hpe.inside
    have hnt : ntHeaders32Size = 248 := rfl
    refine Or.inl ⟨hpe, hhas, ?_⟩
    rw [hemit, hflat, hnil, hrs.outside_skipped hsecurity (by omega) hlow]
    rfl
  · -- Without, all of the file is.
    rcases emit_good o hgood.reads hgood.mallocBuffer file [] sorted_nil L d hroom hsmall with
      ⟨d', hemit, hflat⟩
    refine Or.inr ⟨hnone, ?_⟩
    rw [hemit, hflat, hnil]
    exact keep_all _ _ _ (fun _ _ _ => rfl)

/-! ### The ranges a digest leaves out -/

/-- The fields and the certificates, in headers with a magic number. -/
def excludedAt (file : List UInt8) (h : Nat) (Magic : UInt16) : List Range :=
  let entry := h + if Magic = imageNtOptionalHdr32Magic then securityOffset32 else securityOffset64
  let VirtualAddress := (dwordAt file entry).toNat
  let Size := (dwordAt file (entry + 4)).toNat
  [{ first := h + checkSumOffset, last := h + checkSumOffset + 4 },
    { first := entry, last := entry + 8 },
    { first := VirtualAddress, last := VirtualAddress + Size }]

/-- What is left out of a file whose headers are at an offset: something only
    when they are accepted, there are sections, and the magic number is one of
    the two that are known. -/
def excluded (o : IoOutcomes) (file : List UInt8) (h : Nat) : List Range :=
  let (ok, pe, _) := imagePtrs o file
  let Magic := word16At pe.ntHdr 24
  if ok = true ∧ pe.NumberOfSections > 0 ∧
      (Magic = imageNtOptionalHdr32Magic ∨ Magic = imageNtOptionalHdr64Magic) then
    excludedAt file h Magic
  else []

/-- The magic number that is looked at is the one in the file. -/
theorem Found.magic (file : List UInt8) (pe : PeData) (h L : Nat) (hfound : Found file pe h)
    (hheaders : PeHeaders file L h) (hroom : L ≤ file.length) :
    word16At pe.ntHdr 24 = magicAt file h := by
  have hnt : ntHeaders32Size = 248 := rfl
  have hinside := hheaders.inside
  rcases hfound.ntHdr with ⟨data, hdata⟩
  rw [hdata]
  exact word16At_poke_slice file data h ntHeaders32Size 24 (by omega) (by omega)

theorem excluded_of_has (o : IoOutcomes) (hreads : o.Reads) (file : List UInt8) (L : Nat)
    (hlong : long file.length = L) (hheaders : PeHeaders file L (headerOffset file))
    (hhas : HasExcluded file (headerOffset file)) (h : Nat) :
    excluded o file h = excludedAt file h (magicAt file (headerOffset file)) := by
  rcases imagePtrs_good o hreads file L hlong with ⟨-, -, ⟨-, hok, hfound⟩ | ⟨hnone, -⟩⟩
  · have hmagic := hfound.magic file _ _ L hheaders (of_long_eq file.length L hlong).2
    have hif : (imagePtrs o file).1 = true ∧ (imagePtrs o file).2.1.NumberOfSections > 0 ∧
        (magicAt file (headerOffset file) = imageNtOptionalHdr32Magic ∨
          magicAt file (headerOffset file) = imageNtOptionalHdr64Magic) := by
      refine ⟨hok, ?_, hhas.2⟩
      rw [hfound.sections]
      exact hhas.1
    rw [excluded]
    dsimp only
    rw [hmagic, if_pos hif]
  · exact absurd hheaders (hnone _)

theorem excluded_of_not (o : IoOutcomes) (hreads : o.Reads) (file : List UInt8) (L : Nat)
    (hlong : long file.length = L) (hnot : ∀ h, PeHeaders file L h → ¬ HasExcluded file h)
    (h : Nat) : excluded o file h = [] := by
  rw [excluded]
  dsimp only
  refine if_neg ?_
  rintro ⟨-, hsections, hknown⟩
  rcases imagePtrs_good o hreads file L hlong with ⟨-, -, ⟨hheaders, -, hfound⟩ | ⟨-, hnone⟩⟩
  · rw [hfound.sections] at hsections
    rw [hfound.magic file _ _ L hheaders (of_long_eq file.length L hlong).2] at hknown
    exact hnot _ hheaders ⟨hsections, hknown⟩
  · exact absurd hnone.sections (Nat.pos_iff_ne_zero.mp hsections)

/-- With certificates that end below 2^32 the ranges are those taken out. -/
theorem outside_excludedAt (file : List UInt8) (h : Nat)
    (hend : ∀ r ∈ excludedAt file h (magicAt file h), r.last < 4294967296) :
    outside (excludedAt file h (magicAt file h)) = outside (certAt file h :: fieldsAt file h) := by
  have hcert : certAddress file h + certSize file h < 4294967296 :=
    hend { first := certAddress file h, last := certAddress file h + certSize file h }
      (List.mem_cons_of_mem _ (List.mem_cons_of_mem _ List.mem_cons_self))
  refine outside_congr _ _ (fun r => ?_)
  rw [certAt, Nat.mod_eq_of_lt hcert]
  simp only [excludedAt, fieldsAt, List.mem_cons, List.not_mem_nil, or_false]
  exact or_rotate.trans or_left_comm

/-- The stream is the file with the checksum, the entry of the Security
    directory and the certificates taken out, and the whole file when there are
    none to take out. -/
theorem digestStream_exact (o : IoOutcomes) (hgood : o.Good) (file : List UInt8)
    (hlarge : file.length < 2147483648)
    (hend : ∀ r ∈ excluded o file (headerOffset file), r.last < 4294967296)
    (hrun : (auImageGetDigestStream o file [] true).bRet = true) :
    (auImageGetDigestStream o file [] true).blocks.flatten
      = keep (outside (excluded o file (headerOffset file))) 0 file := by
  have hlong := long_of_lt file.length hlarge
  have htake : file.take file.length = file := List.take_length
  rcases digestStream_good o hgood file true file.length hlong (Or.inl rfl) hrun with
    ⟨hheaders, hhas, hflat⟩ | ⟨hnot, hflat⟩
  · have hranges := excluded_of_has o hgood.reads file file.length hlong hheaders hhas
      (headerOffset file)
    rw [hranges] at hend ⊢
    rw [hflat, htake, outside_excludedAt file (headerOffset file) hend]
  · rw [hflat, htake, excluded_of_not o hgood.reads file file.length hlong hnot]
    exact (keep_all _ _ _ (fun _ _ _ => rfl)).symm

/-- Calls that all succeed. -/
def goodOutcomes : IoOutcomes where
  sizeOk := true
  lastError := 0
  mallocData := true
  heap := []
  seekOk := fun _ => true
  read := fun _ => some none
  stack := fun _ => false
  newOk := fun _ => true
  mallocBuffer := true

theorem goodOutcomes_good : goodOutcomes.Good :=
  ⟨⟨fun _ => rfl, fun _ => rfl⟩, rfl, rfl, fun _ => rfl, rfl⟩

/-- NT headers with one section, an optional header for 32 bits, and a file
    alignment of 512, at the start of a file. -/
def noStub : List UInt8 :=
  [0x50, 0x45, 0, 0, 0x4c, 1, 1, 0] ++ List.replicate 12 0 ++ [0xe0, 0, 2, 1, 0x0b, 1, 14, 0]
    ++ List.replicate 33 0 ++ [2, 0, 0] ++ List.replicate 184 0

theorem noStub_bRet : (auImageGetDigestStream goodOutcomes noStub [] true).bRet = true := by
  decide +kernel

theorem digestStream_exact_noStub :
    (auImageGetDigestStream goodOutcomes noStub [] true).blocks.flatten
      = keep (outside (excluded goodOutcomes noStub (headerOffset noStub))) 0 noStub :=
  digestStream_exact goodOutcomes goodOutcomes_good noStub (by decide +kernel) (by decide +kernel)
    noStub_bRet

/-- Without a DOS stub the file has no `e_lfanew`, and the ranges are not where
    the bytes in its place say. Those bytes are the file alignment, behind the
    end of this file, so nothing would be left out. -/
theorem digestStream_noStub :
    goodOutcomes.Good ∧ 0 < noStub.length ∧ noStub.length < 2147483648 ∧
      (∀ r ∈ excluded goodOutcomes noStub (dwordAt noStub 60).toNat, r.last < 4294967296) ∧
      (auImageGetDigestStream goodOutcomes noStub [] true).bRet = true ∧
      (auImageGetDigestStream goodOutcomes noStub [] true).blocks.flatten
        ≠ keep (outside (excluded goodOutcomes noStub (dwordAt noStub 60).toNat)) 0 noStub := by
  refine ⟨goodOutcomes_good, by decide +kernel, by decide +kernel, by decide +kernel, noStub_bRet,
    fun hequal => ?_⟩
  have hclaimed : (keep (outside (excluded goodOutcomes noStub (dwordAt noStub 60).toNat)) 0
      noStub).length = 248 := by decide +kernel
  rcases digestStream_good goodOutcomes goodOutcomes_good noStub true 248 (by decide +kernel)
    (Or.inl rfl) noStub_bRet with ⟨-, -, hflat⟩ | ⟨hnot, -⟩
  · have hlength : (keep (outside (certAt noStub (headerOffset noStub)
        :: fieldsAt noStub (headerOffset noStub))) 0 (noStub.take 248)).length = 236 := by
      decide +kernel
    rw [← hflat, hequal, hclaimed] at hlength
    exact absurd hlength (by decide)
  · refine hnot 0 ⟨by decide +kernel, Or.inr ⟨by decide +kernel, rfl⟩, by decide +kernel,
      ⟨by decide +kernel, by decide +kernel, by decide +kernel⟩⟩ ⟨by decide +kernel, Or.inl ?_⟩
    decide +kernel

end Pe

end Defender
