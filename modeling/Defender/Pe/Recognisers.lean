import Mathlib.Algebra.Group.Nat.Defs
import Defender.Pe.Digest

/-!
# Two Ways to Recognise an Image

`IsPEFile` looks for the signature of an image with a stream, a character at a time, and
`CalculateImagePtrs` with blocks. Both go to the offset that is stored at 0x3c of a DOS
header. The second takes the 32 bits of it; the first reads two characters, and so has the
offset modulo 65536. The end of the file is only looked for after the first character of
each pair, and a character that is not there leaves its variable as it was.

The two agree on a file whose offset has 16 bits. On any other they look at different
places, and then they can only agree by both finding nothing.

## Main definitions

* `signatureLocation`: Where `IsPEFile` finds a signature.
* `isPEFile`: `IsPEFile`.
* `SignatureAt`: One of the four signatures is in the file.
* `locationRead`: The offset, as `IsPEFile` reads it.
* `RecognisersAgree`: What one accepts the other accepts, at the offset stored.
* `OffsetInWord`: The offset has 16 bits.
* `NothingFound`: Neither has anything to find.

## Theorems

* `signatureLocation_iff`: When a signature is found, and where.
* `accepted_iff`: When `CalculateImagePtrs` accepts an image.
* `recognisersAgree_iff`: When the two agree.
* `isPEFile_misses`: An image that only the second recognises.
-/

namespace Defender

namespace Pe

open Wire

/-! ### The stream -/

/-- The four signatures that are known. -/
def knownSignature (ch0 ch1 : UInt8) : Bool :=
  ch0 = 0x50 && ch1 = 0x45 || ch0 = 0x4c && ch1 = 0x45 || ch0 = 0x4D && ch1 = 0x45 ||
    ch0 = 0x4E && ch1 = 0x45

/-- Where `IsPEFile` finds a signature, in a file that was opened. `stack` is what `type[1]`
    holds before it is read. -/
def signatureLocation (stack : UInt8) (file : List UInt8) : Option Nat := do
  let ch0 ← file[0]?
  let ch1 ← file[1]?
  if ch0 ≠ 0x4D ∨ ch1 ≠ 0x5A then none
  else do
    let type0 ← file[0x3c]?
    let type1 := file.getD 0x3d stack
    let location := type1.toNat * 256 + type0.toNat
    let sign0 ← file[location]?
    let sign1 := file.getD (location + 1) ch1
    if knownSignature sign0 sign1 then some location else none

/-- `IsPEFile`, for a file that can be opened or not. -/
def isPEFile (stack : UInt8) (file : Option (List UInt8)) : Bool :=
  match file with
  | none => false
  | some file => (signatureLocation stack file).isSome

/-- `CalculateImagePtrs` on a handle just opened accepts the file as an image. -/
def accepts (o : IoOutcomes) (file : List UInt8) : Bool :=
  let r := calculateImagePtrs o file Handle.opened (initPEData o file.length)
  r.1 && r.2.1.isPE

/-! ### What the file says -/

/-- The letters `MZ` are in front. -/
def StartsMz (file : List UInt8) : Prop :=
  word16At file 0 = imageDosSignature

/-- One of the four signatures is in the file. -/
def SignatureAt (file : List UInt8) (p : Nat) : Prop :=
  p + 1 < file.length ∧ knownSignature (byteAt file p) (byteAt file (p + 1)) = true

/-- The offset stored, as `IsPEFile` reads it. -/
def locationRead (stack : UInt8) (file : List UInt8) : Nat :=
  (file.getD 0x3d stack).toNat * 256 + (byteAt file 0x3c).toNat

/-- What `CalculateImagePtrs` accepts of the files with a DOS header, `IsPEFile` does as
    well; and the signature it has found is at `e_lfanew`. -/
structure RecognisersAgree (o : IoOutcomes) (stack : UInt8) (file : List UInt8) : Prop where
  accepted : StartsMz file → accepts o file = true → isPEFile stack (some file) = true
  located : ∀ location, signatureLocation stack file = some location →
    dosHeaderSize ≤ file.length ∧ (dwordAt file 60).toInt32.toInt = location

/-- There is an `e_lfanew`, and it has 16 bits. -/
def OffsetInWord (file : List UInt8) : Prop :=
  dosHeaderSize ≤ file.length ∧ (dwordAt file 60).toNat < 65536

/-- There is no signature at the offset that `IsPEFile` reads, and there are no headers. -/
structure NothingFound (stack : UInt8) (file : List UInt8) : Prop where
  signature : StartsMz file → 0x3c < file.length → ¬ SignatureAt file (locationRead stack file)
  headers : StartsMz file → ∀ h, ¬ PeHeaders file (long file.length) h

/-! ### A signature -/

theorem byteAt_eq_getElem {file : List UInt8} {p : Nat} (h : p < file.length) :
    file[p]? = some (byteAt file p) := by
  rw [byteAt, List.getD_eq_getElem?_getD, List.getElem?_eq_getElem h, Option.getD_some]

/-- The letters in front are two bytes of the file. -/
theorem startsMz_iff (file : List UInt8) :
    StartsMz file ↔ 2 ≤ file.length ∧ byteAt file 0 = 0x4D ∧ byteAt file 1 = 0x5A := by
  have h0 := (byteAt file 0).toNat_lt
  have h1 := (byteAt file 1).toNat_lt
  have hword : StartsMz file ↔ (byteAt file 0).toNat + 256 * (byteAt file 1).toNat = 0x5A4D := by
    rw [StartsMz, word16At, Nat.zero_add, ← UInt16.toNat_inj, UInt16.toNat_ofNat',
      Nat.mod_eq_of_lt (by omega)]
    exact Iff.rfl
  rw [hword, ← UInt8.toNat_inj, ← UInt8.toNat_inj]
  constructor
  · intro hletters
    -- Bytes behind the end are zeros, and the `Z` is none.
    have hlen : 2 ≤ file.length := by
      by_contra hshort
      have hzero : byteAt file 1 = 0 := by
        rw [byteAt, List.getD_eq_getElem?_getD, List.getElem?_eq_none (by omega), Option.getD_none]
      rw [hzero, UInt8.toNat_zero] at hletters
      omega
    refine ⟨hlen, ?_, ?_⟩
    · show (byteAt file 0).toNat = 0x4D
      omega
    · show (byteAt file 1).toNat = 0x5A
      omega
  · rintro ⟨-, hm, hz⟩
    rw [hm, hz]
    rfl

/-- Every signature ends with an `E`. -/
theorem knownSignature_second {ch0 ch1 : UInt8} (h : knownSignature ch0 ch1 = true) :
    ch1 = 0x45 := by
  simp only [knownSignature, Bool.or_eq_true, Bool.and_eq_true, decide_eq_true_eq] at h
  rcases h with ((h | h) | h) | h
  all_goals exact h.2

/-- A signature is found in a file that begins with the letters, has an offset, and has one of
    the signatures there. -/
theorem signatureLocation_iff (stack : UInt8) (file : List UInt8) (location : Nat) :
    signatureLocation stack file = some location ↔
      StartsMz file ∧ 0x3c < file.length ∧ location = locationRead stack file ∧
        SignatureAt file location := by
  rw [startsMz_iff]
  unfold signatureLocation
  simp only [Option.bind_eq_bind, Option.bind_eq_some_iff]
  constructor
  · rintro ⟨ch0, h0, ch1, h1, hrest⟩
    rcases List.getElem?_eq_some_iff.mp h1 with ⟨hlen, -⟩
    rw [byteAt_eq_getElem (by omega), Option.some.injEq] at h0
    rw [byteAt_eq_getElem hlen, Option.some.injEq] at h1
    by_cases hmz : ch0 ≠ 0x4D ∨ ch1 ≠ 0x5A
    · rw [if_pos hmz] at hrest
      exact absurd hrest (by simp only [reduceCtorEq, not_false_eq_true])
    rw [if_neg hmz, Option.bind_eq_some_iff] at hrest
    rw [not_or, not_not, not_not] at hmz
    rcases hrest with ⟨type0, ht, hrest⟩
    rcases List.getElem?_eq_some_iff.mp ht with ⟨hfield, -⟩
    rw [byteAt_eq_getElem hfield, Option.some.injEq] at ht
    subst ht
    rw [Option.bind_eq_some_iff] at hrest
    rcases hrest with ⟨sign0, hs0, hrest⟩
    change file[locationRead stack file]? = some sign0 at hs0
    change (if knownSignature sign0 (file.getD (locationRead stack file + 1) ch1) = true
      then some (locationRead stack file) else none) = some location at hrest
    by_cases hknown : knownSignature sign0 (file.getD (locationRead stack file + 1) ch1) = true
    · rw [if_pos hknown, Option.some.injEq] at hrest
      -- A character that is not there would have left the `Z`.
      have hsecond : locationRead stack file + 1 < file.length := by
        by_contra hend
        have hz := knownSignature_second hknown
        rw [List.getD_eq_getElem?_getD, List.getElem?_eq_none (by omega), Option.getD_none,
          hmz.2] at hz
        exact absurd hz (by decide)
      rw [byteAt_eq_getElem (by omega), Option.some.injEq] at hs0
      refine ⟨⟨by omega, h0.trans hmz.1, h1.trans hmz.2⟩, hfield, hrest.symm, ?_⟩
      rw [← hrest]
      refine ⟨hsecond, ?_⟩
      rw [List.getD_eq_getElem?_getD, byteAt_eq_getElem hsecond, Option.getD_some, ← hs0] at hknown
      exact hknown
    · rw [if_neg hknown] at hrest
      exact absurd hrest (by simp only [reduceCtorEq, not_false_eq_true])
  · rintro ⟨⟨hlen, hm, hz⟩, hfield, rfl, hsecond, hknown⟩
    refine ⟨_, byteAt_eq_getElem (by omega), _, byteAt_eq_getElem (by omega), ?_⟩
    rw [if_neg (by rw [hm, hz]; decide), Option.bind_eq_some_iff]
    refine ⟨_, byteAt_eq_getElem hfield, ?_⟩
    rw [Option.bind_eq_some_iff]
    refine ⟨_, byteAt_eq_getElem (p := locationRead stack file) (by omega), ?_⟩
    change (if knownSignature _ (file.getD (locationRead stack file + 1) _) = true
      then some (locationRead stack file) else none) = some _
    rw [List.getD_eq_getElem?_getD, byteAt_eq_getElem hsecond, Option.getD_some, if_pos hknown]

/-- The offset read is what the lower half of `e_lfanew` says. -/
theorem locationRead_eq (stack : UInt8) {file : List UInt8} (h : dosHeaderSize ≤ file.length) :
    locationRead stack file = (dwordAt file 60).toNat % 65536 := by
  have hsize : dosHeaderSize = 64 := rfl
  have h0 := (byteAt file 60).toNat_lt
  have h1 := (byteAt file (60 + 1)).toNat_lt
  have hstack : file.getD 0x3d stack = byteAt file (60 + 1) := by
    rw [List.getD_eq_getElem?_getD, byteAt_eq_getElem (by omega), Option.getD_some]
  rw [locationRead, hstack, dwordAt, UInt32.toNat_ofNat']
  omega

theorem locationRead_lt (stack : UInt8) (file : List UInt8) :
    locationRead stack file < 65536 := by
  have h0 := (byteAt file 0x3c).toNat_lt
  have h1 := (file.getD 0x3d stack).toNat_lt
  unfold locationRead
  omega

/-! ### Both on one file -/

/-- `CalculateImagePtrs` accepts an image exactly when there are headers. -/
theorem accepted_iff (o : IoOutcomes) (hreads : o.Reads) (file : List UInt8) :
    accepts o file = true ↔ ∃ h, PeHeaders file (long file.length) h := by
  have hlen : (initPEData o file.length).imageLength ≤ file.length := by
    have hlong := toInt_ofNat file.length
    show long file.length ≤ file.length
    unfold long
    rw [hlong]
    split <;> omega
  rcases calculateImagePtrs_good o hreads file (initPEData o file.length) hlen ⟨rfl, rfl⟩ with
    ⟨-, ⟨h, hheaders, hok, hfound⟩ | ⟨hnone, hnot⟩⟩
  · refine iff_of_true ?_ ⟨h, hheaders⟩
    rw [accepts, hok, hfound.isPE]
    rfl
  · refine iff_of_false ?_ (fun ⟨h, hheaders⟩ => hnone h hheaders)
    rw [accepts, hnot.isPE, Bool.and_false]
    exact Bool.false_ne_true

/-- The headers of a file with the letters in front are at `e_lfanew`, and begin with one of the
    signatures. -/
theorem signature_of_headers {file : List UInt8} {h : Nat} (hmz : StartsMz file)
    (hheaders : PeHeaders file (long file.length) h) :
    (dwordAt file 60).toNat = h ∧ SignatureAt file h := by
  have hinside := hheaders.inside
  have hlong := toInt_ofNat file.length
  have hsize : ntHeaders32Size = 248 := rfl
  have hlen : h + 248 ≤ file.length := by
    unfold long at hinside
    rw [hlong] at hinside
    split at hinside <;> omega
  -- The other place for headers is the beginning, which has other letters.
  have hoffset : (dwordAt file 60).toNat = h := by
    rcases hheaders.offset with ⟨-, hlfanew, -⟩ | ⟨hpe, -⟩
    · exact toNat_of_toInt _ _ hlfanew
    · exact absurd (hpe.symm.trans hmz) (by decide)
  have hsignature := hheaders.nt.signature
  have h0 := (byteAt file h).toNat_lt
  have h1 := (byteAt file (h + 1)).toNat_lt
  have h2 := (byteAt file (h + 2)).toNat_lt
  have h3 := (byteAt file (h + 3)).toNat_lt
  rw [dwordAt, ← UInt32.toNat_inj, UInt32.toNat_ofNat', Nat.mod_eq_of_lt (by omega)] at hsignature
  have hword : imageNtSignature.toNat = 0x4550 := rfl
  have hp : byteAt file h = 0x50 := by
    rw [← UInt8.toNat_inj]
    show (byteAt file h).toNat = 0x50
    omega
  have he : byteAt file (h + 1) = 0x45 := by
    rw [← UInt8.toNat_inj]
    show (byteAt file (h + 1)).toNat = 0x45
    omega
  refine ⟨hoffset, by omega, ?_⟩
  rw [hp, he]
  decide

/-- Where the offset has 16 bits, both find the same. -/
theorem agree_of_offsetInWord (o : IoOutcomes) (hreads : o.Reads) (stack : UInt8)
    {file : List UInt8} (h : OffsetInWord file) : RecognisersAgree o stack file := by
  have hlocation : locationRead stack file = (dwordAt file 60).toNat := by
    rw [locationRead_eq stack h.1]
    exact Nat.mod_eq_of_lt h.2
  refine ⟨fun hmz haccepts => ?_, fun location hfound => ?_⟩
  · rcases (accepted_iff o hreads file).mp haccepts with ⟨e_lfanew, hheaders⟩
    rcases signature_of_headers hmz hheaders with ⟨hoffset, hsignature⟩
    have hsize : dosHeaderSize = 64 := rfl
    have hdos := h.1
    have hfound := (signatureLocation_iff stack file e_lfanew).mpr
      ⟨hmz, by omega, (hlocation.trans hoffset).symm, hsignature⟩
    rw [isPEFile, hfound, Option.isSome_some]
  · rcases (signatureLocation_iff stack file location).mp hfound with ⟨-, -, hlow, -⟩
    have hsigned := toInt_ofNat (dwordAt file 60).toNat
    have hword := h.2
    refine ⟨h.1, ?_⟩
    rw [UInt32.ofNat_toNat] at hsigned
    rw [hsigned, hlow, hlocation, Nat.mod_eq_of_lt (by omega), if_pos (by omega)]

/-- Where they agree on a signature, the offset has 16 bits. -/
theorem offsetInWord_of_located {stack : UInt8} {file : List UInt8} {location : Nat}
    (hfound : signatureLocation stack file = some location)
    (hlocated : dosHeaderSize ≤ file.length ∧ (dwordAt file 60).toInt32.toInt = location) :
    OffsetInWord file := by
  rcases (signatureLocation_iff stack file location).mp hfound with ⟨-, -, hlow, -⟩
  refine ⟨hlocated.1, ?_⟩
  rw [toNat_of_toInt _ _ hlocated.2, hlow]
  exact locationRead_lt stack file

/-- The two recognisers agree on a file exactly when its offset has 16 bits, or neither of them
    has anything to find. -/
theorem recognisersAgree_iff (o : IoOutcomes) (hreads : o.Reads) (stack : UInt8)
    (file : List UInt8) :
    RecognisersAgree o stack file ↔ OffsetInWord file ∨ NothingFound stack file := by
  constructor
  · intro hagree
    by_cases hword : OffsetInWord file
    · exact Or.inl hword
    · refine Or.inr ⟨fun hmz hlen hsignature => hword ?_, fun hmz h hheaders => hword ?_⟩
      -- A signature that is found, or headers that are accepted, make them agree on an offset,
      -- and `IsPEFile` reads 16 bits of it.
      · have hfound := (signatureLocation_iff stack file (locationRead stack file)).mpr
          ⟨hmz, hlen, rfl, hsignature⟩
        exact offsetInWord_of_located hfound (hagree.located _ hfound)
      · have haccepts := (accepted_iff o hreads file).mpr ⟨h, hheaders⟩
        rcases Option.isSome_iff_exists.mp (hagree.accepted hmz haccepts) with ⟨location, hfound⟩
        exact offsetInWord_of_located hfound (hagree.located _ hfound)
  · rintro (hword | hnothing)
    · exact agree_of_offsetInWord o hreads stack hword
    · refine ⟨fun hmz haccepts => ?_, fun location hfound => ?_⟩
      · rcases (accepted_iff o hreads file).mp haccepts with ⟨h, hheaders⟩
        exact absurd hheaders (hnothing.headers hmz h)
      · rcases (signatureLocation_iff stack file location).mp hfound with ⟨hmz, hlen, rfl, hsign⟩
        exact absurd hsign (hnothing.signature hmz hlen)

/-- An image whose offset has more than 16 bits is accepted, and not seen by `IsPEFile` unless a
    signature happens to be at what the lower half of the offset says. -/
theorem isPEFile_misses (o : IoOutcomes) (hreads : o.Reads) (stack : UInt8) {file : List UInt8}
    {h : Nat} (hheaders : PeHeaders file (long file.length) h)
    (hlow : ¬ SignatureAt file (h % 65536)) (hmz : StartsMz file) :
    accepts o file = true ∧ isPEFile stack (some file) = false := by
  refine ⟨(accepted_iff o hreads file).mpr ⟨h, hheaders⟩, ?_⟩
  have hoffset := (signature_of_headers hmz hheaders).1
  rw [isPEFile]
  cases hfound : signatureLocation stack file with
  | none => rfl
  | some location =>
      rcases (signatureLocation_iff stack file location).mp hfound with ⟨-, -, hread, hsign⟩
      rw [hread, locationRead_eq stack hheaders.dosHeader, hoffset] at hsign
      exact absurd hsign hlow

/-- A DOS header and the letters `PE` behind it, for an offset that is 64 in its lower half. -/
def lettersAt64 (upper : UInt8) : List UInt8 :=
  [0x4D, 0x5A] ++ List.replicate 58 0 ++ [64, 0, upper, 0] ++ [0x50, 0x45]

theorem recognisersAgree_letters :
    RecognisersAgree goodOutcomes 0 (lettersAt64 0) ↔
      OffsetInWord (lettersAt64 0) ∨ NothingFound 0 (lettersAt64 0) :=
  recognisersAgree_iff goodOutcomes goodOutcomes_good.reads 0 (lettersAt64 0)

/-- With 65600 stored as the offset, `IsPEFile` returns TRUE for the letters at 64. -/
theorem not_recognisersAgree_letters :
    isPEFile 0 (some (lettersAt64 1)) = true ∧
      ¬ RecognisersAgree goodOutcomes 0 (lettersAt64 1) := by
  refine ⟨by decide, fun hagree => ?_⟩
  have hlocated := (hagree.located 64 (by decide)).2
  exact absurd hlocated (by decide)

end Pe

end Defender
