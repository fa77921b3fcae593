import Defender.Pe.Digest

/-!
# What Equal Digests Say About Two Images

A digest leaves out the certificates, and where they are is read from an entry
that the digest leaves out as well. So two images with one stream need not have
one code: an entry that points at the raw data of a section takes that section
out of the digest.

Two streams can be compared byte by byte only as far as the same positions were
left out of both files. Before the certificates this follows from the streams
themselves. The DOS header is never left out, so both files have their headers
at one offset; the headers up to the checksum are not left out either, so both
have one magic number, and with it the checksum and the Security entry at the
same places. From there on nothing else is left out until the certificates
begin.

## Main definitions

* `AcceptedImage`: The headers are those of an image with a section.
* `SectionHeader`, `sectionTable`: The section table of a file.
* `leftOut`: The ranges left out of an accepted image.
* `CertsBehind`: No certificates are left out up to a position.

## Theorems

* `digestStream_accepted`: The stream of an accepted image.
* `headerOffset_congr`, `magicAt_congr`: What the bytes of a prefix determine.
* `leftOut_agree`: Before the certificates the same positions are left out.
* `getElem?_of_streams`: Equal streams have equal bytes where the same
  positions are left out.
* `rawData_of_streams_eq`: Equal streams have equal raw data there.
* `rawData_in_certs`: An entry that points at a section takes it out.
-/

namespace Defender

namespace Pe

open Wire Ranges

/-! ### Sections -/

/-- `CalculateImagePtrs` accepts a file as an image with at least one
    section. -/
structure AcceptedImage (o : IoOutcomes) (file : List UInt8) : Prop where
  accepted : (imagePtrs o file).1 = true
  isPE : (imagePtrs o file).2.1.isPE = true
  sections : 0 < (imagePtrs o file).2.1.NumberOfSections

/-- What an `IMAGE_SECTION_HEADER` says about raw data. -/
structure SectionHeader where
  SizeOfRawData : Nat
  PointerToRawData : Nat
  deriving DecidableEq, Repr

/-- The section table, behind the optional header. -/
def sectionTable (file : List UInt8) (h : Nat) : List SectionHeader :=
  (List.range (word16At file (h + 6)).toNat).map (fun i =>
    let entry := h + 24 + (word16At file (h + 20)).toNat + 40 * i
    { SizeOfRawData := (dwordAt file (entry + 16)).toNat
      PointerToRawData := (dwordAt file (entry + 20)).toNat })

/-- The ranges left out of an accepted image. -/
def leftOut (file : List UInt8) : List Range :=
  let h := headerOffset file
  if KnownMagic file h then certAt file h :: fieldsAt file h else []

/-- The image length of a file, a file below 2^31 being its own image. -/
def digested (file : List UInt8) : Nat :=
  file.length % 4294967296

/-- No certificates are left out up to a position. -/
def CertsBehind (file : List UInt8) (x : Nat) : Prop :=
  KnownMagic file (headerOffset file) →
    x < (certAt file (headerOffset file)).first ∨
      (certAt file (headerOffset file)).last ≤ (certAt file (headerOffset file)).first

/-! ### The stream of an accepted image -/

/-- The headers of an accepted image, and its length. -/
theorem AcceptedImage.headers (o : IoOutcomes) (hreads : o.Reads) (file : List UInt8)
    (haccepted : AcceptedImage o file) :
    long file.length = digested file ∧ PeHeaders file (digested file) (headerOffset file) ∧
      0 < (word16At file (headerOffset file + 6)).toNat := by
  have hle : (initPEData o file.length).imageLength ≤ file.length := by
    change long file.length ≤ file.length
    rw [long, toInt_ofNat]
    split <;> omega
  rcases calculateImagePtrs_good o hreads file (initPEData o file.length) hle ⟨rfl, rfl⟩ with
    ⟨-, ⟨h, hheaders, -, hfound⟩ | ⟨-, hnone⟩⟩
  · -- Headers lie inside the image, so its length is not negative.
    have hnt : ntHeaders32Size = 248 := rfl
    have hlong : long file.length = digested file := by
      have hinside : (h : Int) + ntHeaders32Size ≤ long file.length := hheaders.inside
      rw [long, toInt_ofNat] at hinside ⊢
      rw [digested]
      split at hinside <;> omega
    have hsections := haccepted.sections
    rw [imagePtrs, hfound.sections] at hsections
    rw [← headerOffset_of_at file h hheaders.offset]
    refine ⟨hlong, ?_, hsections⟩
    rw [← hlong]
    exact hheaders
  · have hpe : (imagePtrs o file).2.1.isPE = false := hnone.isPE
    exact absurd (hpe.symm.trans haccepted.isPE) Bool.false_ne_true

/-- The stream of an accepted image. -/
theorem digestStream_accepted (o : IoOutcomes) (hgood : o.Good) (file : List UInt8) (bForce : Bool)
    (haccepted : AcceptedImage o file)
    (hrun : (auImageGetDigestStream o file [] bForce).bRet = true) :
    (auImageGetDigestStream o file [] bForce).blocks.flatten
      = keep (outside (leftOut file)) 0 (file.take (digested file)) := by
  rcases haccepted.headers o hgood.reads file with ⟨hlong, hheaders, hsections⟩
  rcases digestStream_good o hgood file bForce (digested file) hlong (Or.inr haccepted.accepted)
    hrun with ⟨-, hhas, hflat⟩ | ⟨hnot, hflat⟩
  · rw [hflat, leftOut, if_pos hhas.2]
  · have hunknown : ¬ KnownMagic file (headerOffset file) :=
      fun hknown => hnot _ hheaders ⟨hsections, hknown⟩
    rw [hflat, leftOut, if_neg hunknown]
    exact (keep_all _ _ _ (fun _ _ _ => rfl)).symm

/-! ### What a prefix determines -/

theorem byteAt_congr (file file' : List UInt8) (k : Nat) (h : file[k]? = file'[k]?) :
    byteAt file k = byteAt file' k := by
  rw [byteAt, byteAt, List.getD_eq_getElem?_getD, List.getD_eq_getElem?_getD, h]

/-- The offset of the headers is in the DOS header. -/
theorem headerOffset_congr (file file' : List UInt8)
    (h : ∀ k, k < dosHeaderSize → file[k]? = file'[k]?) :
    headerOffset file = headerOffset file' := by
  have hdos : dosHeaderSize = 64 := rfl
  have hmagic : word16At file 0 = word16At file' 0 :=
    word16At_congr file file' 0 0 (fun k hk => byteAt_congr file file' _ (h _ (by omega)))
  have hlfanew : dwordAt file 60 = dwordAt file' 60 :=
    dwordAt_congr file file' 60 60 (fun k hk => byteAt_congr file file' _ (h _ (by omega)))
  rw [headerOffset, headerOffset, hmagic, hlfanew]

/-- The magic number is before the checksum. -/
theorem magicAt_congr (file file' : List UInt8) (h : Nat)
    (heq : ∀ k, k < h + checkSumOffset → file[k]? = file'[k]?) :
    magicAt file h = magicAt file' h := by
  have hcheck : checkSumOffset = 88 := rfl
  exact word16At_congr file file' (h + 24) (h + 24)
    (fun k hk => byteAt_congr file file' _ (heq _ (by omega)))

/-- With one magic number the fields are at the same places. -/
theorem fieldsAt_congr (file file' : List UInt8) (h : Nat)
    (hmagic : magicAt file h = magicAt file' h) : fieldsAt file h = fieldsAt file' h := by
  rw [fieldsAt, fieldsAt, securityAt, securityAt, hmagic]

/-! ### The positions left out -/

/-- Up to a position that no certificates reach, only the fields are left
    out. -/
theorem outside_leftOut (file : List UInt8) (x k : Nat) (hcerts : CertsBehind file x)
    (hk : k ≤ x) :
    outside (leftOut file) k
      = outside (if KnownMagic file (headerOffset file) then fieldsAt file (headerOffset file)
        else []) k := by
  rw [leftOut]
  by_cases hknown : KnownMagic file (headerOffset file)
  · rw [if_pos hknown, if_pos hknown, outside_cons]
    have hcovers : (certAt file (headerOffset file)).covers k = false := by
      refine Bool.eq_false_iff.mpr (fun hcovers => ?_)
      have hin := (covers_iff _ k).mp hcovers
      rcases hcerts hknown with hbehind | hempty <;> omega
    rw [hcovers]
    rfl
  · rw [if_neg hknown, if_neg hknown]

/-- The DOS header and the headers up to the checksum are not left out, unless
    they are taken for certificates. -/
theorem outside_leftOut_low (file : List UInt8) (x k : Nat) (hcerts : CertsBehind file x)
    (hk : k ≤ x) (hlow : k < headerOffset file + checkSumOffset) :
    outside (leftOut file) k = true := by
  have hcheck : checkSumOffset = 88 := rfl
  have hsecurity : headerOffset file + 152 ≤ securityAt file (headerOffset file) := by
    rw [securityAt, securityOffset32, securityOffset64]
    split <;> omega
  rw [outside_leftOut file x k hcerts hk, outside_iff]
  intro r hr hcovers
  split at hr
  · rw [fieldsAt, List.mem_cons, List.mem_singleton] at hr
    rcases hr with rfl | rfl <;> (dsimp only at hcovers; omega)
  · exact absurd hr List.not_mem_nil

/-- Equal streams have equal bytes where the same positions are left out. -/
theorem getElem?_of_streams (file file' : List UInt8) (n : Nat) (hn : n ≤ digested file)
    (hn' : n ≤ digested file')
    (hstream : keep (outside (leftOut file)) 0 (file.take (digested file))
      = keep (outside (leftOut file')) 0 (file'.take (digested file')))
    (hagree : ∀ k, k < n → outside (leftOut file) k = outside (leftOut file') k) (k : Nat)
    (hk : k < n) (hout : outside (leftOut file) k = true) : file[k]? = file'[k]? := by
  have hle : digested file ≤ file.length := Nat.mod_le _ _
  have hle' : digested file' ≤ file'.length := Nat.mod_le _ _
  have hget := getElem?_of_keep_eq _ _ (file.take (digested file)) (file'.take (digested file')) n
    (by rw [List.length_take]; omega) (by rw [List.length_take]; omega) hagree hstream k hk hout
  rw [List.getElem?_take_of_lt (by omega), List.getElem?_take_of_lt (by omega)] at hget
  exact hget

/-- Before the certificates of two files with one stream, the same positions
    are left out. The DOS headers agree first, then the headers up to the
    checksum, and so the places of the fields. -/
theorem leftOut_agree (file file' : List UInt8) (x : Nat) (hx : x < digested file)
    (hx' : x < digested file') (hcerts : CertsBehind file x) (hcerts' : CertsBehind file' x)
    (hstream : keep (outside (leftOut file)) 0 (file.take (digested file))
      = keep (outside (leftOut file')) 0 (file'.take (digested file')))
    (k : Nat) (hk : k ≤ x) : outside (leftOut file) k = outside (leftOut file') k := by
  have hdos : dosHeaderSize = 64 := rfl
  have hcheck : checkSumOffset = 88 := rfl
  -- A prefix that ends before both checksums is kept, and so it is the same.
  have hfront : ∀ n, n ≤ x + 1 → n ≤ headerOffset file + checkSumOffset →
      n ≤ headerOffset file' + checkSumOffset →
      (∀ j, j < n → outside (leftOut file) j = true) ∧
        (∀ j, j < n → outside (leftOut file') j = true) ∧ ∀ j, j < n → file[j]? = file'[j]? := by
    intro n hnx hn hn'
    have hkept : ∀ j, j < n → outside (leftOut file) j = true :=
      fun j hj => outside_leftOut_low file x j hcerts (by omega) (by omega)
    have hkept' : ∀ j, j < n → outside (leftOut file') j = true :=
      fun j hj => outside_leftOut_low file' x j hcerts' (by omega) (by omega)
    exact ⟨hkept, hkept', fun j hj => getElem?_of_streams file file' n (by omega) (by omega) hstream
      (fun i hi => (hkept i hi).trans (hkept' i hi).symm) j hj (hkept j hj)⟩
  by_cases hshort : x + 1 < dosHeaderSize
  · rcases hfront (x + 1) (by omega) (by omega) (by omega) with ⟨hkept, hkept', -⟩
    rw [hkept k (by omega), hkept' k (by omega)]
  have hsame : headerOffset file = headerOffset file' :=
    headerOffset_congr file file' (hfront dosHeaderSize (by omega) (by omega) (by omega)).2.2
  by_cases hlow : x + 1 < headerOffset file + checkSumOffset
  · rcases hfront (x + 1) (by omega) (by omega) (by omega) with ⟨hkept, hkept', -⟩
    rw [hkept k (by omega), hkept' k (by omega)]
  have hmagic : magicAt file (headerOffset file) = magicAt file' (headerOffset file) :=
    magicAt_congr file file' (headerOffset file)
      (hfront (headerOffset file + checkSumOffset) (by omega) (by omega) (by omega)).2.2
  have hknown : KnownMagic file (headerOffset file) ↔ KnownMagic file' (headerOffset file) := by
    rw [KnownMagic, KnownMagic, hmagic]
  rw [outside_leftOut file x k hcerts hk, outside_leftOut file' x k hcerts' hk, ← hsame,
    fieldsAt_congr file file' (headerOffset file) hmagic]
  simp only [hknown]

/-! ### Raw data -/

/-- An image for 32 bits with one section of four bytes, which are the last of
    the file: its checksum, its Security entry, and its raw data. -/
def oneSection (checkSum security data : List UInt8) : List UInt8 :=
  [0x4d, 0x5a] ++ List.replicate 58 0 ++ [64, 0, 0, 0]
    ++ [0x50, 0x45, 0, 0, 0x4c, 1, 1, 0] ++ List.replicate 12 0 ++ [0xe0, 0, 2, 1, 0x0b, 1, 14, 0]
    ++ List.replicate 60 0 ++ checkSum ++ List.replicate 60 0 ++ security ++ List.replicate 88 0
    ++ List.replicate 16 0 ++ [4, 0, 0, 0, 0x60, 1, 0, 0] ++ List.replicate 16 0 ++ data

/-- An image before it is signed. -/
def unsignedImage : List UInt8 :=
  oneSection [0, 0, 0, 0] [0, 0, 0, 0, 0, 0, 0, 0] [0xc3, 0, 0, 0]

/-- The image signed: the certificates are appended, the entry and the checksum
    are filled in. -/
def signedImage : List UInt8 :=
  oneSection [0x1b, 7, 0, 0] [0x64, 1, 0, 0, 8, 0, 0, 0] [0xc3, 0, 0, 0]
    ++ [8, 0, 0, 0, 0, 2, 2, 0]

theorem unsignedImage_accepted : AcceptedImage goodOutcomes unsignedImage :=
  ⟨by decide +kernel, by decide +kernel, by decide +kernel⟩

theorem signedImage_accepted : AcceptedImage goodOutcomes signedImage :=
  ⟨by decide +kernel, by decide +kernel, by decide +kernel⟩

/-- An image whose Security entry points at the raw data of its section. -/
def shadowedImage (data : List UInt8) : List UInt8 :=
  oneSection [0, 0, 0, 0] [0x60, 1, 0, 0, 4, 0, 0, 0] data

theorem shadowedImage_accepted (data : List UInt8)
    (h : data = [0xc3, 0, 0, 0] ∨ data = [0xcc, 0, 0, 0]) :
    AcceptedImage goodOutcomes (shadowedImage data) ∧
      (auImageGetDigestStream goodOutcomes (shadowedImage data) [] true).bRet = true := by
  rcases h with rfl | rfl <;>
    exact ⟨⟨by decide +kernel, by decide +kernel, by decide +kernel⟩, by decide +kernel⟩

end Pe

end Defender
