import Defender.Lib.Wire

/-!
# The Headers of an Image

How the digest of an image reads its file, and how it finds the headers.

A handle has a position and is used by seeks and reads, each of which may fail
or, a read, give less than was asked for; `IoOutcomes` says which, by the
number of the call. A read at the end of the file gives what is there.

`CalculateImagePtrs` reads the DOS header and looks for one of two letters
pairs. With `MZ` the headers are where `e_lfanew` points, and they have to lie
behind the DOS header and inside the file. With `PE` there is no DOS stub and
the headers are at the start of the file. `__KeReadDataSpec` has no value to
return when it fails, so what is on the stack is returned.

## Main definitions

* `IoOutcomes`, `Handle`, `readFile`, `setFilePointerEx`: The file.
* `keReadDataSpec`: A read at an offset.
* `PeData`, `calculateImagePtrs`: The headers.
* `PeHeaders`: What it is to have accepted headers.
* `Placed`, `Recognised`: Headers that are where they are looked for, and
  headers of a format that is known.

## Theorems

* `keReadDataSpec_good`: A read that finds what it needs.
* `calculateImagePtrs_cases`: What happens, whatever the calls come to.
* `calculateImagePtrs_good`, `calculateImagePtrs_ok_iff`: What is found and
  what is returned when every call succeeds.
* `calculateImagePtrs_inside`: Headers with sections lie in the image.
-/

namespace Defender

namespace Pe

open Wire

/-! ### The file -/

/-- What the calls made for a digest come to. A read fails, gives all it can,
    or gives at most so many bytes. `stack` is what an uninitialised variable
    holds. -/
structure IoOutcomes where
  sizeOk : Bool
  lastError : Nat
  mallocData : Bool
  heap : List UInt8
  seekOk : Nat → Bool
  read : Nat → Option (Option Nat)
  stack : Nat → Bool
  newOk : Nat → Bool
  mallocBuffer : Bool

/-- A handle: its position, how often it was used, and the blocks that were
    passed to the digest function meanwhile. -/
structure Handle where
  pos : Nat
  calls : Nat
  blocks : List (List UInt8)

/-- A handle that was just opened. -/
def Handle.opened : Handle where
  pos := 0
  calls := 0
  blocks := []

/-- `ReadFile`: the bytes read, if it succeeds. -/
def readFile (o : IoOutcomes) (file : List UInt8) (d : Handle) (length : Nat) :
    Option (List UInt8) × Handle :=
  match o.read d.calls with
  | none => (none, { d with calls := d.calls + 1 })
  | some limit =>
      let data := slice file d.pos (match limit with
        | none => length
        | some limit => min limit length)
      (some data, { d with pos := d.pos + data.length, calls := d.calls + 1 })

/-- A read gives all that it was asked for. -/
def FullRead (o : IoOutcomes) (file : List UInt8) (d : Handle) (length : Nat) : Prop :=
  (readFile o file d length).1.map List.length = some length

instance (o : IoOutcomes) (file : List UInt8) (d : Handle) (length : Nat) :
    Decidable (FullRead o file d length) :=
  inferInstanceAs (Decidable (_ = _))

/-- `SetFilePointerEx` from the beginning. -/
def setFilePointerEx (o : IoOutcomes) (d : Handle) (offset : Int) : Bool × Handle :=
  if o.seekOk d.calls = false ∨ offset < 0 then (false, { d with calls := d.calls + 1 })
  else (true, { d with pos := offset.toNat, calls := d.calls + 1 })

/-- `__KeReadDataSpec`: the value returned, which is not set on a failure, and
    what the buffer holds. -/
def keReadDataSpec (o : IoOutcomes) (file : List UInt8) (d : Handle) (offset : Int)
    (data : List UInt8) (length : Nat) : Bool × List UInt8 × Handle :=
  match setFilePointerEx o d offset with
  | (false, d) => (o.stack d.calls, data, d)
  | (true, d) =>
      match readFile o file d length with
      | (none, d) => (o.stack d.calls, data, d)
      | (some bytes, d) =>
          if bytes.length ≠ length then (o.stack d.calls, poke data 0 bytes, d)
          else (true, poke data 0 bytes, d)

/-! ### The headers -/

/-- `sizeof(IMAGE_DOS_HEADER)`. -/
def dosHeaderSize : Nat := 64

/-- `sizeof(IMAGE_NT_HEADERS32)`. -/
def ntHeaders32Size : Nat := 248

/-- `sizeof(IMAGE_NT_HEADERS64)`. -/
def ntHeaders64Size : Nat := 264

/-- `IMAGE_DOS_SIGNATURE`, the letters `MZ`. -/
def imageDosSignature : UInt16 := 0x5A4D

/-- The letters `PE`, `IMAGE_NT_SIGNATURE` as a word. -/
def imageNtWord : UInt16 := 0x4550

/-- `IMAGE_NT_SIGNATURE`. -/
def imageNtSignature : UInt32 := 0x00004550

/-- `IMAGE_OS2_SIGNATURE`. -/
def imageOs2Signature : UInt16 := 0x454E

/-- `IMAGE_OS2_SIGNATURE_LE`. -/
def imageOs2SignatureLe : UInt16 := 0x454C

/-- `PE_DATA`. `ntHdr` is the union, as bytes. -/
structure PeData where
  DosHeader : List UInt8
  imageLength : Int
  ntHdr : List UInt8
  ntHdrOffset : Int
  NumberOfSections : Nat
  isPE : Bool

/-- A `LONG` made of a wider value. -/
def long (n : Nat) : Int :=
  (UInt32.ofNat n).toInt32.toInt

/-- `__initPEData` on fresh memory, and the length of the image. -/
def initPEData (o : IoOutcomes) (fileSize : Nat) : PeData where
  DosHeader := o.heap.take dosHeaderSize
  imageLength := long fileSize
  ntHdr := o.heap
  ntHdrOffset := 0
  NumberOfSections := 0
  isPE := false

/-- `CalculateImagePtrs` from where the NT headers are read. -/
def calculateNtHeaders (o : IoOutcomes) (file : List UInt8) (d : Handle) (pe : PeData) :
    Bool × PeData × Handle :=
  let (retval, ntHdr, d) := keReadDataSpec o file d pe.ntHdrOffset pe.ntHdr ntHeaders32Size
  let pe := { pe with ntHdr := ntHdr }
  if retval = false then (false, pe, d)
  else if dwordAt ntHdr 0 ≠ imageNtSignature then
    let ntSign := word16At ntHdr 0
    if imageDosSignature = ntSign ∨ imageOs2Signature = ntSign ∨ imageOs2SignatureLe = ntSign then
      (true, { pe with NumberOfSections := 0, isPE := false }, d)
    else (false, pe, d)
  else if word16At ntHdr 20 = 0 then (false, pe, d)
  else if byteAt ntHdr 26 < 3 ∧ byteAt ntHdr 27 < 5 then (false, pe, d)
  else (true, { pe with NumberOfSections := (word16At ntHdr 6).toNat, isPE := true }, d)

/-- `CalculateImagePtrs`. -/
def calculateImagePtrs (o : IoOutcomes) (file : List UInt8) (d : Handle) (pe : PeData) :
    Bool × PeData × Handle :=
  match readFile o file d dosHeaderSize with
  | (none, d) => (false, pe, d)
  | (some bytes, d) =>
      let pe := { pe with DosHeader := poke pe.DosHeader 0 bytes }
      if bytes.length ≠ dosHeaderSize then (false, pe, d)
      else
        let e_magic := word16At pe.DosHeader 0
        let e_lfanew := (dwordAt pe.DosHeader 60).toInt32.toInt
        if e_magic ≠ imageDosSignature ∧ e_magic ≠ imageNtWord then (false, pe, d)
        else if e_magic = imageDosSignature then
          if e_lfanew = 0 then (false, pe, d)
          else
            let pe := { pe with ntHdrOffset := e_lfanew }
            if e_lfanew + ntHeaders32Size > pe.imageLength then (false, pe, d)
            else if e_lfanew < dosHeaderSize then (false, pe, d)
            else calculateNtHeaders o file d pe
        else
          -- No DOS header.
          let pe := { pe with ntHdrOffset := 0 }
          if pe.imageLength < (ntHeaders32Size : Int) then (false, pe, d)
          else calculateNtHeaders o file d pe

/-! ### A read that gives all -/

/-- It gives the bytes of the file. -/
theorem FullRead.readFile_eq {o : IoOutcomes} {file : List UInt8} {d : Handle} {length : Nat}
    (h : FullRead o file d length) : readFile o file d length
      = (some (slice file d.pos length),
        { d with pos := d.pos + length, calls := d.calls + 1 }) := by
  unfold FullRead at h
  unfold readFile at h ⊢
  cases hread : o.read d.calls with
  | none =>
      rw [hread] at h
      exact absurd h (by simp only [Option.map_none, reduceCtorEq, not_false_eq_true])
  | some limit =>
      rw [hread] at h
      cases limit with
      | none =>
          have hlen := Option.some.inj h
          dsimp only at hlen ⊢
          rw [hlen]
      | some limit =>
          -- What is long enough is all that was asked for.
          have hlen := Option.some.inj h
          have hle := length_slice_le file d.pos (min limit length)
          dsimp only at hlen ⊢
          have hlimit : min limit length = length := by omega
          rw [hlimit] at hlen ⊢
          rw [hlen]

/-- It stays inside the file. -/
theorem FullRead.inside {o : IoOutcomes} {file : List UInt8} {d : Handle} {length : Nat}
    (h : FullRead o file d length) (hpos : 0 < length) : d.pos + length ≤ file.length := by
  have hlen := h
  unfold FullRead at hlen
  rw [h.readFile_eq, Option.map_some, slice] at hlen
  have hmin := Option.some.inj hlen
  rw [List.length_take, List.length_drop] at hmin
  omega

/-- Reading passes nothing to the digest function. -/
theorem readFile_blocks (o : IoOutcomes) (file : List UInt8) (d : Handle) (length : Nat) :
    (readFile o file d length).2.blocks = d.blocks := by
  unfold readFile
  split
  · rfl
  · rfl

/-- A read is one call, whatever it comes to. -/
theorem readFile_calls (o : IoOutcomes) (file : List UInt8) (d : Handle) (length : Nat) :
    (readFile o file d length).2.calls = d.calls + 1 := by
  unfold readFile
  split
  · rfl
  · rfl

theorem keReadDataSpec_blocks (o : IoOutcomes) (file : List UInt8) (d : Handle) (offset : Int)
    (data : List UInt8) (length : Nat) :
    (keReadDataSpec o file d offset data length).2.2.blocks = d.blocks := by
  unfold keReadDataSpec setFilePointerEx
  by_cases hseek : o.seekOk d.calls = false ∨ offset < 0
  · rw [if_pos hseek]
  · rw [if_neg hseek]
    have hblocks := readFile_blocks o file { d with pos := offset.toNat, calls := d.calls + 1 }
      length
    dsimp only
    rcases hread : readFile o file { d with pos := offset.toNat, calls := d.calls + 1 } length with
      ⟨bytes, d'⟩
    rw [hread] at hblocks
    cases bytes with
    | none => exact hblocks
    | some bytes =>
        dsimp only
        split
        · exact hblocks
        · exact hblocks

/-! ### When every call succeeds -/

/-- Every seek succeeds, and every read gives all it can. -/
structure IoOutcomes.Reads (o : IoOutcomes) : Prop where
  seekOk : ∀ k, o.seekOk k = true
  read : ∀ k, o.read k = some none

theorem readFile_good (o : IoOutcomes) (h : o.Reads) (file : List UInt8) (d : Handle)
    (length : Nat) : readFile o file d length
      = (some (slice file d.pos length),
        { d with pos := d.pos + (slice file d.pos length).length, calls := d.calls + 1 }) := by
  rw [readFile, h.read]

theorem fullRead_good (o : IoOutcomes) (h : o.Reads) (file : List UInt8) (d : Handle)
    (length : Nat) (hroom : d.pos + length ≤ file.length) : FullRead o file d length := by
  rw [FullRead, readFile_good o h, Option.map_some, length_slice file d.pos length hroom]

theorem setFilePointerEx_good (o : IoOutcomes) (h : o.Reads) (d : Handle) (offset : Nat) :
    setFilePointerEx o d offset = (true, { d with pos := offset, calls := d.calls + 1 }) := by
  have hseek : ¬ (o.seekOk d.calls = false ∨ (offset : Int) < 0) := by
    refine not_or.mpr ⟨?_, by omega⟩
    rw [h.seekOk]
    decide
  rw [setFilePointerEx, if_neg hseek, Int.toNat_natCast]

/-- A read at an offset: what there is is copied. -/
theorem keReadDataSpec_copies (o : IoOutcomes) (h : o.Reads) (file : List UInt8) (d : Handle)
    (offset length : Nat) (data : List UInt8) :
    (keReadDataSpec o file d offset data length).2.1 = poke data 0 (slice file offset length) := by
  rw [keReadDataSpec, setFilePointerEx_good o h]
  simp only [readFile_good o h]
  split <;> rfl

/-- A read at an offset from which there is enough. -/
theorem keReadDataSpec_good (o : IoOutcomes) (h : o.Reads) (file : List UInt8) (d : Handle)
    (offset length : Nat) (data : List UInt8) (hroom : offset + length ≤ file.length) :
    keReadDataSpec o file d offset data length
      = (true, poke data 0 (slice file offset length),
        { d with pos := offset + length, calls := d.calls + 2 }) := by
  have hlen := length_slice file offset length hroom
  rw [keReadDataSpec, setFilePointerEx_good o h]
  simp only [readFile_good o h, hlen, ne_eq, not_true_eq_false, if_false]

/-- There are NT headers at an offset, and they are not too old. -/
structure NtHeaders (file : List UInt8) (h : Nat) : Prop where
  signature : dwordAt file h = imageNtSignature
  optionalHeader : word16At file (h + 20) ≠ 0
  linker : ¬ (byteAt file (h + 26) < 3 ∧ byteAt file (h + 27) < 5)

theorem ntHeaders_iff (file : List UInt8) (h : Nat) :
    dwordAt file h = imageNtSignature ∧ word16At file (h + 20) ≠ 0 ∧
        ¬ (byteAt file (h + 26) < 3 ∧ byteAt file (h + 27) < 5) ↔ NtHeaders file h :=
  ⟨fun hall => ⟨hall.1, hall.2.1, hall.2.2⟩,
    fun hnt => ⟨hnt.signature, hnt.optionalHeader, hnt.linker⟩⟩

instance (file : List UInt8) (h : Nat) : Decidable (NtHeaders file h) :=
  decidable_of_iff _ (ntHeaders_iff file h)

/-- The headers of another format that is known are at an offset. -/
structure OtherFormat (file : List UInt8) (h : Nat) : Prop where
  signature : dwordAt file h ≠ imageNtSignature
  known : imageDosSignature = word16At file h ∨ imageOs2Signature = word16At file h ∨
    imageOs2SignatureLe = word16At file h

/-- Where the NT headers are: behind a DOS header, or at the start without
    one. -/
def HeadersAt (file : List UInt8) (h : Nat) : Prop :=
  (word16At file 0 = imageDosSignature ∧ (dwordAt file 60).toInt32.toInt = h ∧
      dosHeaderSize ≤ h) ∨ (word16At file 0 = imageNtWord ∧ h = 0)

instance (file : List UInt8) (h : Nat) : Decidable (HeadersAt file h) :=
  inferInstanceAs (Decidable (_ ∨ _))

/-- The headers of a file are accepted at an offset, for an image of a
    length. -/
structure PeHeaders (file : List UInt8) (imageLength : Int) (h : Nat) : Prop where
  dosHeader : dosHeaderSize ≤ file.length
  offset : HeadersAt file h
  inside : (h : Int) + ntHeaders32Size ≤ imageLength
  nt : NtHeaders file h

/-- A buffer onto which a read was copied, as far as the file goes. -/
theorem byteAt_poke_slice (file data : List UInt8) (h n k : Nat) (hk : k < n)
    (hroom : h + k < file.length) :
    byteAt (poke data 0 (slice file h n)) k = byteAt file (h + k) := by
  have hlen : k < (slice file h n).length := by
    rw [slice, List.length_take, List.length_drop]
    omega
  rw [poke, List.take_zero, List.nil_append, byteAt_append_left _ _ _ hlen, byteAt, byteAt,
    List.getD_eq_getElem?_getD, List.getD_eq_getElem?_getD, getElem?_slice, if_pos hk]

theorem word16At_poke_slice (file data : List UInt8) (h n k : Nat) (hk : k + 2 ≤ n)
    (hroom : h + k + 2 ≤ file.length) :
    word16At (poke data 0 (slice file h n)) k = word16At file (h + k) := by
  refine word16At_congr _ _ _ _ (fun j hj => ?_)
  rw [byteAt_poke_slice file data h n (k + j) (by omega) (by omega), Nat.add_assoc]

theorem dwordAt_poke_slice (file data : List UInt8) (h n k : Nat) (hk : k + 4 ≤ n)
    (hroom : h + k + 4 ≤ file.length) :
    dwordAt (poke data 0 (slice file h n)) k = dwordAt file (h + k) := by
  refine dwordAt_congr _ _ _ _ (fun j hj => ?_)
  rw [byteAt_poke_slice file data h n (k + j) (by omega) (by omega), Nat.add_assoc]

/-- What is found in accepted headers. -/
structure Found (file : List UInt8) (pe : PeData) (h : Nat) : Prop where
  isPE : pe.isPE = true
  sections : pe.NumberOfSections = (word16At file (h + 6)).toNat
  offset : pe.ntHdrOffset = h
  ntHdr : ∃ data, pe.ntHdr = poke data 0 (slice file h ntHeaders32Size)

/-- What is found elsewhere: no sections. -/
structure NotFound (pe : PeData) : Prop where
  isPE : pe.isPE = false
  sections : pe.NumberOfSections = 0

/-- From a handle nothing was passed to the digest function, and the length of
    the image stays. -/
structure Frame (d d' : Handle) (pe pe' : PeData) : Prop where
  blocks : d'.blocks = d.blocks
  imageLength : pe'.imageLength = pe.imageLength

/-- The NT headers at an offset inside the file. -/
theorem calculateNtHeaders_good (o : IoOutcomes) (hreads : o.Reads) (file : List UInt8)
    (d : Handle) (pe : PeData) (h : Nat) (hoffset : pe.ntHdrOffset = h)
    (hroom : h + ntHeaders32Size ≤ file.length) (hpe : NotFound pe) :
    let r := calculateNtHeaders o file d pe
    Frame d r.2.2 pe r.2.1 ∧ (r.1 = true ↔ NtHeaders file h ∨ OtherFormat file h) ∧
      ((NtHeaders file h ∧ r.1 = true ∧ Found file r.2.1 h) ∨
        (¬ NtHeaders file h ∧ NotFound r.2.1)) := by
  have hsize : ntHeaders32Size = 248 := rfl
  -- Every field that is looked at is in what was read.
  have hword : ∀ k, k + 2 ≤ 248 →
      word16At (poke pe.ntHdr 0 (slice file h ntHeaders32Size)) k = word16At file (h + k) :=
    fun k hk => word16At_poke_slice file pe.ntHdr h ntHeaders32Size k (by omega) (by omega)
  have hdword : dwordAt (poke pe.ntHdr 0 (slice file h ntHeaders32Size)) 0 = dwordAt file h :=
    dwordAt_poke_slice file pe.ntHdr h ntHeaders32Size 0 (by omega) (by omega)
  have hbyte : ∀ k, k < 248 →
      byteAt (poke pe.ntHdr 0 (slice file h ntHeaders32Size)) k = byteAt file (h + k) :=
    fun k hk => byteAt_poke_slice file pe.ntHdr h ntHeaders32Size k (by omega) (by omega)
  unfold calculateNtHeaders
  rw [hoffset, keReadDataSpec_good o hreads file d h ntHeaders32Size pe.ntHdr hroom]
  simp only [Bool.true_eq_false, if_false, hdword, hword 0 (by omega), hword 20 (by omega),
    hword 6 (by omega), hbyte 26 (by omega), hbyte 27 (by omega)]
  by_cases hsig : dwordAt file h = imageNtSignature
  · rw [if_neg (not_not_intro hsig)]
    have hother : ¬ OtherFormat file h := fun hother => hother.signature hsig
    by_cases hopt : word16At file (h + 20) = 0
    · rw [if_pos hopt]
      have hnot : ¬ NtHeaders file h := fun hnt => hnt.optionalHeader hopt
      exact ⟨⟨rfl, rfl⟩, iff_of_false Bool.false_ne_true (not_or.mpr ⟨hnot, hother⟩),
        Or.inr ⟨hnot, hpe.isPE, hpe.sections⟩⟩
    rw [if_neg hopt]
    by_cases hlinker : byteAt file (h + 26) < 3 ∧ byteAt file (h + 27) < 5
    · rw [if_pos hlinker]
      have hnot : ¬ NtHeaders file h := fun hnt => hnt.linker hlinker
      exact ⟨⟨rfl, rfl⟩, iff_of_false Bool.false_ne_true (not_or.mpr ⟨hnot, hother⟩),
        Or.inr ⟨hnot, hpe.isPE, hpe.sections⟩⟩
    · rw [if_neg hlinker]
      have hnt : NtHeaders file h := ⟨hsig, hopt, hlinker⟩
      exact ⟨⟨rfl, rfl⟩, iff_of_true rfl (Or.inl hnt), Or.inl ⟨hnt, rfl, ⟨rfl, rfl, rfl, _, rfl⟩⟩⟩
  · -- Another format has no sections, whether it is known or not.
    rw [if_pos hsig]
    have hnot : ¬ NtHeaders file h := fun hnt => hsig hnt.signature
    split
    · rename_i hknown
      exact ⟨⟨rfl, rfl⟩, iff_of_true rfl (Or.inr ⟨hsig, hknown⟩), Or.inr ⟨hnot, rfl, rfl⟩⟩
    · rename_i hknown
      exact ⟨⟨rfl, rfl⟩, iff_of_false Bool.false_ne_true
        (not_or.mpr ⟨hnot, fun hother => hknown hother.known⟩),
        Or.inr ⟨hnot, hpe.isPE, hpe.sections⟩⟩

/-- The DOS header is read in full, and it says where the NT headers are, and
    they lie in the image. -/
structure Placed (o : IoOutcomes) (file : List UInt8) (imageLength : Int) (h : Nat) : Prop where
  dosHeader : FullRead o file Handle.opened dosHeaderSize
  offset : HeadersAt file h
  inside : (h : Int) + ntHeaders32Size ≤ imageLength

theorem placed_iff (o : IoOutcomes) (file : List UInt8) (imageLength : Int) (h : Nat) :
    FullRead o file Handle.opened dosHeaderSize ∧ HeadersAt file h ∧
        (h : Int) + ntHeaders32Size ≤ imageLength ↔ Placed o file imageLength h :=
  ⟨fun hall => ⟨hall.1, hall.2.1, hall.2.2⟩,
    fun hplaced => ⟨hplaced.dosHeader, hplaced.offset, hplaced.inside⟩⟩

instance (o : IoOutcomes) (file : List UInt8) (imageLength : Int) (h : Nat) :
    Decidable (Placed o file imageLength h) :=
  decidable_of_iff _ (placed_iff o file imageLength h)

/-- The handle behind the DOS header. -/
def Handle.dosRead : Handle where
  pos := dosHeaderSize
  calls := 1
  blocks := []

/-- With headers placed, the NT headers are read there. -/
def placedData (file : List UInt8) (pe : PeData) (h : Nat) : PeData :=
  { pe with DosHeader := poke pe.DosHeader 0 (slice file 0 dosHeaderSize), ntHdrOffset := h }

/-- There is one place where the NT headers can be. -/
theorem HeadersAt.unique {file : List UInt8} {h h' : Nat} (hat : HeadersAt file h)
    (hat' : HeadersAt file h') : h = h' := by
  have hne : imageNtWord ≠ imageDosSignature := by decide
  rcases hat with ⟨hmz, hlfanew, -⟩ | ⟨hpe, hzero⟩
  · rcases hat' with ⟨-, hlfanew', -⟩ | ⟨hpe', -⟩
    · omega
    · exact absurd (hpe'.symm.trans hmz) hne
  · rcases hat' with ⟨hmz', -, -⟩ | ⟨-, hzero'⟩
    · exact absurd (hpe.symm.trans hmz') hne
    · rw [hzero, hzero']

/-- Without a DOS header `CalculateImagePtrs` fails and leaves everything. -/
theorem calculateImagePtrs_short (o : IoOutcomes) (file : List UInt8) (pe : PeData)
    (hshort : ¬ FullRead o file Handle.opened dosHeaderSize) :
    let r := calculateImagePtrs o file Handle.opened pe
    r.1 = false ∧ r.2.2.calls = 1 ∧ Frame Handle.opened r.2.2 pe r.2.1 ∧ r.2.1.isPE = pe.isPE ∧
      r.2.1.NumberOfSections = pe.NumberOfSections := by
  unfold FullRead at hshort
  unfold calculateImagePtrs
  have hblocks := readFile_blocks o file Handle.opened dosHeaderSize
  have hcalls := readFile_calls o file Handle.opened dosHeaderSize
  rcases hread : readFile o file Handle.opened dosHeaderSize with ⟨data, d⟩
  rw [hread] at hshort hblocks hcalls
  cases data with
  | none => exact ⟨rfl, hcalls, ⟨hblocks, rfl⟩, rfl, rfl⟩
  | some bytes =>
      have hlen : bytes.length ≠ dosHeaderSize := fun h => hshort (congrArg some h)
      dsimp only
      rw [if_pos hlen]
      exact ⟨rfl, hcalls, ⟨hblocks, rfl⟩, rfl, rfl⟩

/-- What `CalculateImagePtrs` does, whatever the calls come to: it reads the NT
    headers where they are placed, and fails when they are not. -/
theorem calculateImagePtrs_cases (o : IoOutcomes) (file : List UInt8) (pe : PeData) :
    (∃ h, Placed o file pe.imageLength h ∧
      calculateImagePtrs o file Handle.opened pe
        = calculateNtHeaders o file Handle.dosRead (placedData file pe h)) ∨
    ((∀ h, ¬ Placed o file pe.imageLength h) ∧
      (calculateImagePtrs o file Handle.opened pe).1 = false ∧
      (calculateImagePtrs o file Handle.opened pe).2.2.calls = 1 ∧
      Frame Handle.opened (calculateImagePtrs o file Handle.opened pe).2.2 pe
        (calculateImagePtrs o file Handle.opened pe).2.1 ∧
      (calculateImagePtrs o file Handle.opened pe).2.1.isPE = pe.isPE ∧
      (calculateImagePtrs o file Handle.opened pe).2.1.NumberOfSections = pe.NumberOfSections) := by
  have hdos : dosHeaderSize = 64 := rfl
  have hne : imageNtWord ≠ imageDosSignature := by decide
  by_cases hfull : FullRead o file Handle.opened dosHeaderSize
  · have hroom := hfull.inside (by decide)
    have hzero : Handle.opened.pos = 0 := rfl
    have hlen := length_slice file 0 dosHeaderSize hroom
    have hmagic : word16At (poke pe.DosHeader 0 (slice file 0 dosHeaderSize)) 0
        = word16At file 0 :=
      word16At_poke_slice file pe.DosHeader 0 dosHeaderSize 0 (by omega) (by omega)
    have hlfanew : dwordAt (poke pe.DosHeader 0 (slice file 0 dosHeaderSize)) 60
        = dwordAt file 60 := by
      rw [dwordAt_poke_slice file pe.DosHeader 0 dosHeaderSize 60 (by omega) (by omega),
        Nat.zero_add]
    unfold calculateImagePtrs
    rw [hfull.readFile_eq]
    dsimp only
    rw [hzero, hlen, if_neg (not_not_intro rfl), hmagic, hlfanew]
    -- The magic number is looked at first, and both kinds of headers have one.
    by_cases hother : word16At file 0 ≠ imageDosSignature ∧ word16At file 0 ≠ imageNtWord
    · rw [if_pos hother]
      refine Or.inr ⟨fun h hh => ?_, rfl, rfl, ⟨rfl, rfl⟩, rfl, rfl⟩
      exact hh.offset.elim (fun hm => hother.1 hm.1) (fun hm => hother.2 hm.1)
    rw [if_neg hother]
    by_cases hmz : word16At file 0 = imageDosSignature
    · rw [if_pos hmz]
      -- Headers behind a DOS header can only be at `e_lfanew`.
      have hat : ∀ h, Placed o file pe.imageLength h →
          (dwordAt file 60).toInt32.toInt = h ∧ dosHeaderSize ≤ h := by
        intro h hh
        rcases hh.offset with hm | hm
        · exact hm.2
        · exact absurd (hm.1.symm.trans hmz) hne
      by_cases hnull : (dwordAt file 60).toInt32.toInt = 0
      · rw [if_pos hnull]
        refine Or.inr ⟨fun h hh => ?_, rfl, rfl, ⟨rfl, rfl⟩, rfl, rfl⟩
        have hh' := hat h hh
        omega
      rw [if_neg hnull]
      by_cases hpast : (dwordAt file 60).toInt32.toInt + ntHeaders32Size > pe.imageLength
      · rw [if_pos hpast]
        refine Or.inr ⟨fun h hh => ?_, rfl, rfl, ⟨rfl, rfl⟩, rfl, rfl⟩
        have hh' := hat h hh
        have hinside := hh.inside
        omega
      rw [if_neg hpast]
      by_cases hlow : (dwordAt file 60).toInt32.toInt < dosHeaderSize
      · rw [if_pos hlow]
        refine Or.inr ⟨fun h hh => ?_, rfl, rfl, ⟨rfl, rfl⟩, rfl, rfl⟩
        have hh' := hat h hh
        omega
      rw [if_neg hlow]
      -- What is left is positive, and so the offset of the headers.
      have hoffset : (dwordAt file 60).toInt32.toInt
          = ((dwordAt file 60).toInt32.toInt.toNat : Nat) := by omega
      refine Or.inl ⟨(dwordAt file 60).toInt32.toInt.toNat,
        ⟨hfull, Or.inl ⟨hmz, hoffset, by omega⟩, by omega⟩, ?_⟩
      rw [placedData, ← hoffset]
      rfl
    · rw [if_neg hmz]
      have hpe' : word16At file 0 = imageNtWord := by
        by_contra hcontra
        exact hother ⟨hmz, hcontra⟩
      -- Without a DOS header the NT headers can only be at the start.
      by_cases hpast : pe.imageLength < (ntHeaders32Size : Int)
      · rw [if_pos hpast]
        refine Or.inr ⟨fun h hh => ?_, rfl, rfl, ⟨rfl, rfl⟩, rfl, rfl⟩
        have hinside := hh.inside
        omega
      · rw [if_neg hpast]
        exact Or.inl ⟨0, ⟨hfull, Or.inr ⟨hpe', rfl⟩, by omega⟩, rfl⟩
  · exact Or.inr ⟨fun h hh => hfull hh.dosHeader, calculateImagePtrs_short o file pe hfull⟩

/-- A file whose headers are accepted, or that is of another format that is
    known. -/
def Recognised (file : List UInt8) (imageLength : Int) : Prop :=
  ∃ h, dosHeaderSize ≤ file.length ∧ HeadersAt file h ∧
    (h : Int) + ntHeaders32Size ≤ imageLength ∧ (NtHeaders file h ∨ OtherFormat file h)

/-- What `CalculateImagePtrs` returns when every call succeeds. -/
theorem calculateImagePtrs_ok_iff (o : IoOutcomes) (hreads : o.Reads) (file : List UInt8)
    (pe : PeData) (hlen : pe.imageLength ≤ file.length) (hpe : NotFound pe) :
    (calculateImagePtrs o file Handle.opened pe).1 = true ↔ Recognised file pe.imageLength := by
  rcases calculateImagePtrs_cases o file pe with ⟨h, hplaced, hrun⟩ | ⟨hnot, hfalse, -⟩
  · have hinside := hplaced.inside
    rw [hrun, (calculateNtHeaders_good o hreads file Handle.dosRead (placedData file pe h) h rfl
      (by omega) ⟨hpe.isPE, hpe.sections⟩).2.1]
    constructor
    · exact fun hknown => ⟨h, hplaced.dosHeader.inside (by decide), hplaced.offset, hinside, hknown⟩
    · rintro ⟨h', -, hat, -, hknown⟩
      rw [hplaced.offset.unique hat]
      exact hknown
  · refine iff_of_false (fun h => Bool.false_ne_true (hfalse.symm.trans h)) ?_
    rintro ⟨h, hdos, hat, hin, -⟩
    exact hnot h ⟨fullRead_good o hreads file Handle.opened dosHeaderSize
      (by rw [Nat.add_comm]; exact hdos), hat, hin⟩

/-- What `CalculateImagePtrs` finds when every call succeeds: the headers, or
    no sections. -/
theorem calculateImagePtrs_good (o : IoOutcomes) (hreads : o.Reads) (file : List UInt8)
    (pe : PeData) (hlen : pe.imageLength ≤ file.length) (hpe : NotFound pe) :
    let r := calculateImagePtrs o file Handle.opened pe
    Frame Handle.opened r.2.2 pe r.2.1 ∧
      ((∃ h, PeHeaders file pe.imageLength h ∧ r.1 = true ∧ Found file r.2.1 h) ∨
        ((∀ h, ¬ PeHeaders file pe.imageLength h) ∧ NotFound r.2.1)) := by
  rcases calculateImagePtrs_cases o file pe with ⟨h, hplaced, hrun⟩ |
    ⟨hnot, -, -, hframe, hisPE, hsec⟩
  · have hinside := hplaced.inside
    rcases calculateNtHeaders_good o hreads file Handle.dosRead (placedData file pe h) h rfl
      (by omega) ⟨hpe.isPE, hpe.sections⟩ with ⟨hframe, -, ⟨hheaders, hret, hfound⟩ | ⟨hnone, hnot⟩⟩
    · rw [hrun]
      exact ⟨⟨hframe.blocks, hframe.imageLength⟩, Or.inl ⟨h, ⟨hplaced.dosHeader.inside (by decide),
        hplaced.offset, hinside, hheaders⟩, hret, hfound⟩⟩
    · rw [hrun]
      refine ⟨⟨hframe.blocks, hframe.imageLength⟩, Or.inr ⟨fun h' hh => hnone ?_, hnot⟩⟩
      rw [hplaced.offset.unique hh.offset]
      exact hh.nt
  · refine ⟨hframe, Or.inr ⟨fun h hh => hnot h ⟨?_, hh.offset, hh.inside⟩, hisPE.trans hpe.isPE,
      hsec.trans hpe.sections⟩⟩
    refine fullRead_good o hreads file Handle.opened dosHeaderSize ?_
    rw [Nat.add_comm]
    exact hh.dosHeader

/-- The NT headers leave their offset and the length of the image as they are,
    whatever the calls come to, and a failure leaves the number of sections. -/
theorem calculateNtHeaders_keeps (o : IoOutcomes) (file : List UInt8) (d : Handle) (pe : PeData) :
    let r := calculateNtHeaders o file d pe
    Frame d r.2.2 pe r.2.1 ∧ r.2.1.ntHdrOffset = pe.ntHdrOffset ∧
      (r.1 = false → r.2.1.NumberOfSections = pe.NumberOfSections) := by
  have hblocks := keReadDataSpec_blocks o file d pe.ntHdrOffset pe.ntHdr ntHeaders32Size
  unfold calculateNtHeaders
  dsimp only
  split
  · exact ⟨⟨hblocks, rfl⟩, rfl, fun _ => rfl⟩
  · split
    · split
      · exact ⟨⟨hblocks, rfl⟩, rfl, fun h => absurd h.symm Bool.false_ne_true⟩
      · exact ⟨⟨hblocks, rfl⟩, rfl, fun _ => rfl⟩
    · split
      · exact ⟨⟨hblocks, rfl⟩, rfl, fun _ => rfl⟩
      · split
        · exact ⟨⟨hblocks, rfl⟩, rfl, fun _ => rfl⟩
        · exact ⟨⟨hblocks, rfl⟩, rfl, fun h => absurd h.symm Bool.false_ne_true⟩

/-- Headers with sections lie in the image, whatever the calls come to. -/
theorem calculateImagePtrs_inside (o : IoOutcomes) (file : List UInt8) (pe : PeData)
    (hpe : NotFound pe) :
    let r := calculateImagePtrs o file Handle.opened pe
    Frame Handle.opened r.2.2 pe r.2.1 ∧
      (r.2.1.NumberOfSections > 0 → r.1 = true ∧
        ∃ h : Nat, r.2.1.ntHdrOffset = h ∧ (h : Int) + ntHeaders32Size ≤ pe.imageLength) := by
  rcases calculateImagePtrs_cases o file pe with ⟨h, hplaced, hrun⟩ | ⟨-, -, -, hframe, -, hsec⟩
  · rcases calculateNtHeaders_keeps o file Handle.dosRead (placedData file pe h) with
      ⟨hframe, hoffset, hfail⟩
    rw [hrun]
    refine ⟨⟨hframe.blocks, hframe.imageLength⟩, fun hsections => ⟨?_, h, hoffset, hplaced.inside⟩⟩
    by_contra hok
    -- A failure would have left the number of sections at zero.
    have hzero := hfail (Bool.eq_false_iff.mpr hok)
    have hnone : (placedData file pe h).NumberOfSections = 0 := hpe.sections
    omega
  · refine ⟨hframe, fun hsections => ?_⟩
    have hnone := hpe.sections
    omega

end Pe

end Defender
