import Defender.Pe.Tools

/-!
# Files that are Read Inside

Which files are parsed without a read outside the buffer. The headers have to be in the
file, with the whole section table. When they are, the conversion of an address gives
what the section table says (`convertRvaToFoa_eq`), except that the first header of the
table is looked at even if there is none: `CanPlace` is what that needs.

After that the export directory has to be where its address is converted to, and for each
name the entries of the three tables and the name, up to its zero. These are the only
conditions (`paserPeFile_safe_iff`). An empty file does not even have a signature
(`paserPeFile_emptyFile`).

## Main definitions

* `ntHeader`, `machine`, `numberOfSections`, `firstSection`: Fields of the headers.
* `SectionHeader`, `sectionTable`: The section table.
* `place`: Where the section table has an address.
* `CanPlace`: What has to be there in order to look for it.
* `SectionsInFile`, `HeadersInFile`, `NameInFile`, `ExportsInFile`, `InFile`: The files
  that are read inside.

## Theorems

* `convertLoop_eq`, `convertRvaToFoa_eq_readIf`, `convertRvaToFoa_eq`: The conversion of
  an address.
* `safe_readNtHeaders_bind`, `safe_readSections_bind`, `readSymbols_safe_iff`,
  `readExports_safe_iff`, `readDirectories_safe_iff`, `readImage_safe_iff`: The parts of
  the parsing.
* `paserPeFile_safe_iff`: When a file is read inside.
* `paserPeFile_emptyFile`: When it is not.
-/

namespace Defender

namespace Pe

namespace Tools

open Wire CString Reads

/-! ### What the headers say -/

/-- Where the NT headers are. -/
def ntHeader (b : Buffer) : Nat :=
  ntHeaderAt b (b.dword 60)

def machine (b : Buffer) : UInt16 :=
  b.word (ntHeader b + 4)

def numberOfSections (b : Buffer) : Nat :=
  (b.word (ntHeader b + 6)).toNat

/-- Where the section table is. -/
def firstSection (b : Buffer) : Nat :=
  ntHeader b + 24 + (b.word (ntHeader b + 20)).toNat

/-- The part of a section header that says where addresses are. -/
structure SectionHeader where
  VirtualAddress : UInt32
  SizeOfRawData : UInt32
  PointerToRawData : UInt32
deriving DecidableEq

/-- The header at a pointer. -/
def headerAt (b : Buffer) (p : Nat) : SectionHeader where
  VirtualAddress := b.dword (p + 12)
  SizeOfRawData := b.dword (p + 16)
  PointerToRawData := b.dword (p + 20)

/-- A table of headers. -/
def tableAt (b : Buffer) (p n : Nat) : List SectionHeader :=
  (List.range n).map (fun i => headerAt b (p + sectionHeaderSize * i))

/-- The section table. -/
def sectionTable (b : Buffer) : List SectionHeader :=
  tableAt b (firstSection b) (numberOfSections b)

/-- The sections that end a search: those that have the address, and those behind it. -/
def SectionHeader.Ends (s : SectionHeader) (RVA : Nat) : Prop :=
  RVA < s.VirtualAddress.toNat ∨ RVA ≤ (s.VirtualAddress + s.SizeOfRawData).toNat

instance (s : SectionHeader) (RVA : Nat) : Decidable (s.Ends RVA) :=
  inferInstanceAs (Decidable (_ ∨ _))

/-- Where the first section that ends the search has an address. -/
def placeIn (b : Buffer) (table : List SectionHeader) (RVA : Nat) : Nat :=
  match table.find? (fun s => decide (s.Ends RVA)) with
  | none => 0
  | some s =>
      if RVA < s.VirtualAddress.toNat then 0
      else b.wrap (RVA - s.VirtualAddress.toNat + s.PointerToRawData.toNat)

/-- Where the section table has an address, the headers being in front of the sections. -/
def place (b : Buffer) (RVA : Nat) : Nat :=
  let first := headerAt b (firstSection b)
  if RVA < first.VirtualAddress.toNat then
    (if RVA < first.PointerToRawData.toNat then RVA else 0)
  else placeIn b (sectionTable b) RVA

/-- What has to be there in order to look for an address: the first header, though the table
    may have none. -/
def CanPlace (b : Buffer) (RVA : Nat) : Prop :=
  b.Has (firstSection b + 12) 4 ∧
    (RVA < (headerAt b (firstSection b)).VirtualAddress.toNat → b.Has (firstSection b + 20) 4)

instance (b : Buffer) (RVA : Nat) : Decidable (CanPlace b RVA) :=
  inferInstanceAs (Decidable (_ ∧ (_ → _)))

/-- The size of the headers, as far as they are read. -/
def ntHeaderSize (Machine : UInt16) : Nat :=
  if Machine = imageFileMachineI386 then ntHeaders32Size
  else if Machine = imageFileMachineAmd64 then ntHeaders64Size
  else 22

/-- The headers and the section table are in the file. -/
structure HeadersInFile (b : Buffer) : Prop where
  dos : b.Has 0 dosHeaderSize
  nt : b.Has (ntHeader b) (ntHeaderSize (machine b))
  table : ∀ i, i < numberOfSections b →
    b.Has (firstSection b + sectionHeaderSize * i) sectionHeaderSize

/-- The headers are in the file as far as the conversion of an address reads them, and the
    section table is. -/
structure SectionsInFile (b : Buffer) : Prop where
  dos : b.Has 0 dosHeaderSize
  nt : b.Has (ntHeader b) 22
  table : ∀ i, i < numberOfSections b →
    b.Has (firstSection b + sectionHeaderSize * i) sectionHeaderSize

/-- An address in the data directories, which is 0 for a machine that is not known. -/
def directoryRva (b : Buffer) (entry32 entry64 : Nat) : Nat :=
  if machine b = imageFileMachineI386 then (b.dword (ntHeader b + entry32)).toNat
  else if machine b = imageFileMachineAmd64 then (b.dword (ntHeader b + entry64)).toNat
  else 0

def debugRva (b : Buffer) : Nat :=
  directoryRva b debugDirectory32 debugDirectory64

def exportRva (b : Buffer) : Nat :=
  directoryRva b exportDirectory32 exportDirectory64

/-! ### What the export directory says -/

/-- The place of the export directory, and those of its tables. -/
def exportDirectory (b : Buffer) : Nat :=
  place b (exportRva b)

def functionsRva (b : Buffer) : Nat :=
  (b.dword (exportDirectory b + 28)).toNat

def namesRva (b : Buffer) : Nat :=
  (b.dword (exportDirectory b + 32)).toNat

def ordinalsRva (b : Buffer) : Nat :=
  (b.dword (exportDirectory b + 36)).toNat

/-- The entries of the tables. -/
def ordinalAt (b : Buffer) (i : Nat) : Nat :=
  place b (ordinalsRva b) + 2 * i

def nameEntryAt (b : Buffer) (i : Nat) : Nat :=
  place b (namesRva b) + 4 * i

def nameRva (b : Buffer) (i : Nat) : Nat :=
  (b.dword (nameEntryAt b i)).toNat

def functionAt (b : Buffer) (i : Nat) : Nat :=
  place b (functionsRva b) + 4 * (b.word (ordinalAt b i)).toNat

/-- A name is in the file, with its entries. -/
structure NameInFile (b : Buffer) (i : Nat) : Prop where
  ordinal : b.Has (ordinalAt b i) 2
  names : CanPlace b (namesRva b)
  nameEntry : b.Has (nameEntryAt b i) 4
  name : CanPlace b (nameRva b i)
  nameEnds : b.HasString (place b (nameRva b i))
  functions : CanPlace b (functionsRva b)
  functionEntry : b.Has (functionAt b i) 4
  function : CanPlace b (b.dword (functionAt b i)).toNat

/-- The rest of the export directory is in the file, with its names, where there is a table
    of ordinals. -/
structure NamesInFile (b : Buffer) : Prop where
  directory : b.Has (exportDirectory b + 20) 20
  ordinals : CanPlace b (ordinalsRva b)
  names : b.wrap (b.address + place b (ordinalsRva b)) ≠ 0 →
    ∀ i, i < (b.dword (exportDirectory b + 24)).toNat → NameInFile b i

/-- The export directory is in the file, and when there are functions, the rest of it. -/
structure ExportsInFile (b : Buffer) : Prop where
  debug : CanPlace b (debugRva b)
  directory : CanPlace b (exportRva b)
  count : b.Has (exportDirectory b + 20) 4
  names : 0 < b.dword (exportDirectory b + 20) → NamesInFile b

/-- A file is read inside: it has a signature, and with that everything that it leads to. -/
structure InFile (b : Buffer) : Prop where
  magic : b.Has 0 2
  dos : b.word 0 = imageDosSignature → b.Has 0 dosHeaderSize ∧ b.Has (ntHeader b) 4
  image : b.word 0 = imageDosSignature → b.dword (ntHeader b) = imageNtSignature →
    HeadersInFile b ∧ ExportsInFile b

/-! ### The conversion of an address -/

variable {b : Buffer}

theorem tableAt_succ (b : Buffer) (p n : Nat) :
    tableAt b p (n + 1) = headerAt b p :: tableAt b (p + sectionHeaderSize) n := by
  rw [tableAt, List.range_succ_eq_map, List.map_cons, List.map_map]
  refine congrArg₂ List.cons rfl (List.map_congr_left (fun i _ => ?_))
  rw [Function.comp_apply, Nat.mul_succ, Nat.add_comm (sectionHeaderSize * i), Nat.add_assoc]

/-- The loop gives what the table says when the table is in the file. -/
theorem convertLoop_eq (RVA p n : Nat)
    (h : ∀ i, i < n → b.Has (p + sectionHeaderSize * i) sectionHeaderSize) :
    convertLoop b RVA p n = .ok (placeIn b (tableAt b p n) RVA) := by
  induction n generalizing p with
  | zero => rfl
  | succ n ih =>
      have hhere : b.Has p 40 := h 0 (Nat.zero_lt_succ n)
      have hlater := ih (p + sectionHeaderSize) (fun i hi => by
        have hi' := h (i + 1) (Nat.succ_lt_succ hi)
        rw [Nat.mul_succ, Nat.add_comm (sectionHeaderSize * i), ← Nat.add_assoc] at hi'
        exact hi')
      rw [convertLoop, readDword_eq_ok (hhere.field (by omega) (by omega)), ok_bind, tableAt_succ,
        placeIn, List.find?_cons]
      by_cases hbefore : (b.dword (p + 12)).toNat ≤ RVA
      · rw [if_pos hbefore, readDword_eq_ok (hhere.field (by omega) (by omega)), ok_bind]
        by_cases hin : RVA ≤ (b.dword (p + 12) + b.dword (p + 16)).toNat
        · rw [if_pos hin, readDword_eq_ok (hhere.field (by omega) (by omega)), ok_bind,
            decide_eq_true (p := (headerAt b p).Ends RVA) (Or.inr hin)]
          exact congrArg Except.ok (if_neg (Nat.not_lt.mpr hbefore)).symm
        · have hnot : ¬ (headerAt b p).Ends RVA := by
            rintro (hlt | hle)
            · exact Nat.not_lt.mpr hbefore hlt
            · exact hin hle
          rw [if_neg hin, hlater, decide_eq_false hnot]
          rfl
      · rw [if_neg hbefore,
          decide_eq_true (p := (headerAt b p).Ends RVA) (Or.inl (Nat.not_le.mp hbefore))]
        exact congrArg Except.ok (if_pos (Nat.not_le.mp hbefore)).symm

theorem le_ntHeaderSize (Machine : UInt16) : 22 ≤ ntHeaderSize Machine := by
  unfold ntHeaderSize ntHeaders32Size ntHeaders64Size
  split
  · omega
  · split <;> omega

theorem imageFirstSection_eq_ok (h : b.Has (ntHeader b + 20) 2) :
    imageFirstSection b (ntHeader b) = .ok (firstSection b) := by
  rw [imageFirstSection, readWord_eq_ok h]
  rfl

/-- With the section table in the file the conversion gives what it says, if the first header
    of it is there. -/
theorem convertRvaToFoa_eq_readIf (h : SectionsInFile b) (RVA : Nat) :
    convertRvaToFoa b RVA = readIf (CanPlace b RVA) (place b RVA) := by
  have hlfanew : b.Has 60 4 := by
    have hfield := h.dos.field (k := 60) (m := 4) (by omega) (Nat.le_refl 64)
    rw [Nat.zero_add] at hfield
    exact hfield
  have himage : imageFirstSection b (ntHeaderAt b (b.dword 60)) = .ok (firstSection b) :=
    imageFirstSection_eq_ok (h.nt.field (by omega) (by omega))
  have hcount : readWord b (ntHeaderAt b (b.dword 60) + 6) = .ok (b.word (ntHeader b + 6)) :=
    readWord_eq_ok (h.nt.field (by omega) (by omega))
  rw [convertRvaToFoa, readDword_eq_ok hlfanew, ok_bind, himage, ok_bind]
  by_cases hfirst : b.Has (firstSection b + 12) 4
  · rw [readDword_eq_ok hfirst, ok_bind]
    by_cases hbefore : RVA < (b.dword (firstSection b + 12)).toNat
    · have hplace : place b RVA = if RVA < (b.dword (firstSection b + 20)).toNat then RVA else 0 :=
        if_pos hbefore
      rw [if_pos hbefore, hplace, convertHeader]
      by_cases hpointer : b.Has (firstSection b + 20) 4
      · rw [readDword_eq_ok hpointer, readIf_eq_ok _ ⟨hfirst, fun _ => hpointer⟩]
        rfl
      · rw [readIf, if_neg (fun hcan : CanPlace b RVA => hpointer (hcan.2 hbefore)), readDword,
          readIf, if_neg hpointer]
        rfl
    · have hplace : place b RVA = placeIn b (sectionTable b) RVA := if_neg hbefore
      rw [if_neg hbefore, hcount, ok_bind, hplace,
        readIf_eq_ok _ ⟨hfirst, fun hlt => absurd hlt hbefore⟩]
      exact convertLoop_eq RVA (firstSection b) (numberOfSections b) h.table
  · rw [readIf, if_neg (fun hcan : CanPlace b RVA => hfirst hcan.1), readDword, readIf,
      if_neg hfirst]
    rfl

theorem HeadersInFile.sections (h : HeadersInFile b) : SectionsInFile b :=
  ⟨h.dos, h.nt.mono (le_ntHeaderSize (machine b)), h.table⟩

theorem convertRvaToFoa_eq (h : HeadersInFile b) (RVA : Nat) :
    convertRvaToFoa b RVA = readIf (CanPlace b RVA) (place b RVA) :=
  convertRvaToFoa_eq_readIf h.sections RVA

theorem safe_convertRvaToFoa_bind (h : HeadersInFile b) {β : Type} (RVA : Nat)
    (f : Nat → Except Fault β) :
    Safe (convertRvaToFoa b RVA >>= f) ↔ CanPlace b RVA ∧ Safe (f (place b RVA)) := by
  rw [convertRvaToFoa_eq h]
  exact safe_readIf_bind _ _ f

/-! ### The headers -/

/-- What is copied of the headers, or read of them if nothing is. -/
def copiedSize (Machine : UInt16) : Nat :=
  if Machine = imageFileMachineI386 then ntHeaders32Size
  else if Machine = imageFileMachineAmd64 then ntHeaders64Size
  else 6

/-- The result with the copy. -/
def withHeaders (b : Buffer) (peData : MsiPeStruct) : MsiPeStruct :=
  if machine b = imageFileMachineI386 then
    { peData with
      is_pe64 := false
      nt_headers := poke peData.nt_headers 0 (b.part (ntHeader b) ntHeaders32Size) }
  else if machine b = imageFileMachineAmd64 then
    { peData with
      is_pe64 := true
      nt_headers := poke peData.nt_headers 0 (b.part (ntHeader b) ntHeaders64Size) }
  else peData

theorem safe_readNtHeaders_bind (hnt : b.Has (ntHeader b) 4) {β : Type} (peData : MsiPeStruct)
    (f : MsiPeStruct → Except Fault β) :
    Safe (readNtHeaders b (ntHeader b) peData >>= f)
      ↔ b.Has (ntHeader b) (copiedSize (machine b)) ∧ Safe (f (withHeaders b peData)) := by
  have hnt' := hnt.mono (Nat.zero_le 4)
  rw [readNtHeaders, bind_assoc, safe_readWord_bind, Buffer.has_add_iff hnt' (by omega)]
  unfold copiedSize withHeaders machine
  have hmono : ∀ {n}, 6 ≤ n → b.Has (ntHeader b) n → b.Has (ntHeader b) 6 :=
    fun hn hhas => hhas.mono hn
  by_cases h386 : b.word (ntHeader b + 4) = imageFileMachineI386
  · rw [if_pos h386, if_pos h386, if_pos h386, bind_assoc, safe_readBytes_bind]
    exact and_iff_right_of_imp (fun h => hmono (by decide) h.1)
  rw [if_neg h386, if_neg h386, if_neg h386]
  by_cases hamd : b.word (ntHeader b + 4) = imageFileMachineAmd64
  · rw [if_pos hamd, if_pos hamd, if_pos hamd, bind_assoc, safe_readBytes_bind]
    exact and_iff_right_of_imp (fun h => hmono (by decide) h.1)
  rw [if_neg hamd, if_neg hamd, if_neg hamd]
  exact Iff.rfl

theorem safe_imageFirstSection_bind {β : Type} (f : Nat → Except Fault β) :
    Safe (imageFirstSection b (ntHeader b) >>= f)
      ↔ b.Has (ntHeader b + 20) 2 ∧ Safe (f (firstSection b)) := by
  rw [imageFirstSection, bind_assoc, safe_readWord_bind]
  exact Iff.rfl

/-- The headers are there when what is copied of them is, and the two fields behind. -/
theorem has_ntHeaderSize_iff (hnt : b.Has (ntHeader b) 4) :
    b.Has (ntHeader b) (copiedSize (machine b)) ∧ b.Has (ntHeader b + 20) 2 ∧
        b.Has (ntHeader b + 6) 2
      ↔ b.Has (ntHeader b) (ntHeaderSize (machine b)) := by
  have hnt' := hnt.mono (Nat.zero_le 4)
  rw [Buffer.has_add_iff hnt' (by omega), Buffer.has_add_iff hnt' (by omega)]
  unfold copiedSize ntHeaderSize ntHeaders32Size ntHeaders64Size Buffer.Has
  split
  · omega
  · split <;> omega

/-- The loop over the section table is safe when every header of it is there. -/
theorem safe_readSections_bind {β : Type} (p n : Nat)
    (f : List (List UInt8) → Except Fault β) :
    Safe (readSections b p n >>= f)
      ↔ (∀ i, i < n → b.Has (p + sectionHeaderSize * i) sectionHeaderSize) ∧
        Safe (f ((List.range n).map (fun i => b.part (p + sectionHeaderSize * i)
          sectionHeaderSize))) := by
  induction n generalizing p f with
  | zero =>
      exact (and_iff_right (fun i hi => absurd hi (Nat.not_lt_zero i))).symm
  | succ n ih =>
      have hshift : ∀ i, p + sectionHeaderSize + sectionHeaderSize * i =
          p + sectionHeaderSize * (i + 1) := by
        intro i
        rw [Nat.mul_succ, Nat.add_assoc, Nat.add_comm sectionHeaderSize]
      rw [readSections, bind_assoc, safe_readBytes_bind, bind_assoc, ih]
      simp only [hshift]
      rw [List.range_succ_eq_map, List.map_cons, List.map_map, ← and_assoc]
      refine and_congr ?_ Iff.rfl
      constructor
      · rintro ⟨hhere, hlater⟩ i hi
        cases i with
        | zero => exact hhere
        | succ i => exact hlater i (Nat.lt_of_succ_lt_succ hi)
      · intro h
        exact ⟨h 0 (Nat.zero_lt_succ n), fun i hi => h (i + 1) (Nat.succ_lt_succ hi)⟩

/-- A word of the copy is the one in the file. -/
theorem dwordAt_copy {p n k : Nat} (h : b.Has p n) (hk : k + 4 ≤ n) (hn : n < 0x10000)
    (zeros : List UInt8) : dwordAt (poke zeros 0 (b.part p n)) k = b.dword (p + k) := by
  have hlength : (b.part p n).length = n := length_slice b.bytes (b.wrap p) n h
  rw [Buffer.dword, Buffer.wrap_add (h.mono (Nat.zero_le n)) (by omega)]
  refine dwordAt_congr _ _ _ _ (fun j hj => ?_)
  rw [byteAt, byteAt, List.getD_eq_getElem?_getD, List.getD_eq_getElem?_getD,
    getElem?_poke _ _ _ _ (Nat.zero_le _), if_neg (Nat.not_lt_zero _), hlength,
    if_pos (by omega), Nat.sub_zero, Buffer.part, getElem?_slice, if_pos (by omega),
    Nat.add_assoc]

/-- The addresses in the data directories are those of the file. -/
theorem dataDirectory_withHeaders (h : HeadersInFile b) {entry32 entry64 : Nat}
    (h32 : entry32 + 4 ≤ ntHeaders32Size) (h64 : entry64 + 4 ≤ ntHeaders64Size)
    (peData : MsiPeStruct) (his : peData.is_pe64 = false)
    (hzero : dwordAt peData.nt_headers entry32 = 0) :
    (dataDirectory (withHeaders b peData) entry32 entry64).toNat
      = directoryRva b entry32 entry64 := by
  have hnt := h.nt
  unfold ntHeaderSize at hnt
  unfold withHeaders directoryRva dataDirectory
  by_cases h386 : machine b = imageFileMachineI386
  · rw [if_pos h386] at hnt
    rw [if_pos h386, if_pos h386, if_neg Bool.false_ne_true, dwordAt_copy hnt h32 (by decide)]
  rw [if_neg h386] at hnt
  rw [if_neg h386, if_neg h386]
  by_cases hamd : machine b = imageFileMachineAmd64
  · rw [if_pos hamd] at hnt
    rw [if_pos hamd, if_pos hamd, if_pos rfl, dwordAt_copy hnt h64 (by decide)]
  rw [if_neg hamd, if_neg hamd, his, if_neg Bool.false_ne_true, hzero]
  rfl

/-! ### The exports -/

/-- A name is read safely when it is in the file, with its entries. -/
theorem readSymbol_safe_iff (h : HeadersInFile b) (hdirectory : b.Has (exportDirectory b + 20) 20)
    (i : Nat) (symbols : Nat → Option (List UInt8)) :
    Safe (readSymbol b (exportDirectory b) (place b (ordinalsRva b)) i symbols)
      ↔ NameInFile b i := by
  have hnames : b.Has (exportDirectory b + 32) 4 :=
    hdirectory.field (k := 12) (by omega) (by omega)
  have hfunctions : b.Has (exportDirectory b + 28) 4 :=
    hdirectory.field (k := 8) (by omega) (by omega)
  rw [readSymbol, safe_readWord_bind, safe_readDword_bind, safe_convertRvaToFoa_bind h,
    safe_readDword_bind, safe_convertRvaToFoa_bind h, safe_readString_bind, safe_readDword_bind,
    safe_convertRvaToFoa_bind h, safe_readDword_bind, safe_convertRvaToFoa_bind h]
  constructor
  · rintro ⟨hordinal, -, hplace, hentry, hname, hends, -, hplace', hentry', hfunction, -⟩
    exact ⟨hordinal, hplace, hentry, hname, hends, hplace', hentry', hfunction⟩
  · intro hname
    exact ⟨hname.ordinal, hnames, hname.names, hname.nameEntry, hname.name, hname.nameEnds,
      hfunctions, hname.functions, hname.functionEntry, hname.function, safe_ok _⟩

/-- The loop over the names is safe when each of them is in the file. -/
theorem readSymbols_safe_iff (h : HeadersInFile b)
    (hdirectory : b.Has (exportDirectory b + 20) 20) (i n : Nat)
    (symbols : Nat → Option (List UInt8)) :
    Safe (readSymbols b (exportDirectory b) (place b (ordinalsRva b)) i n symbols)
      ↔ ∀ j, i ≤ j → j < i + n → NameInFile b j := by
  induction n generalizing i symbols with
  | zero => exact iff_of_true (safe_ok symbols) (fun j hj hj' => absurd hj' (Nat.not_lt.mpr hj))
  | succ n ih =>
      have hlater : ∀ symbols', Safe (readSymbols b (exportDirectory b) (place b (ordinalsRva b))
          (i + 1) n symbols') ↔ ∀ j, i + 1 ≤ j → j < i + 1 + n → NameInFile b j := ih (i + 1)
      rw [readSymbols, safe_bind_iff]
      simp only [hlater]
      rw [exists_and_right]
      refine (and_congr_left' (readSymbol_safe_iff h hdirectory i symbols)).trans ?_
      constructor
      · rintro ⟨hhere, hrest⟩ j hj hj'
        rcases Nat.eq_or_lt_of_le hj with rfl | hlt
        · exact hhere
        · exact hrest j hlt (by omega)
      · intro hall
        exact ⟨hall i (Nat.le_refl i) (by omega), fun j hj hj' => hall j (by omega) (by omega)⟩

/-- The exports are read safely when the directory is in the file and, with functions in it,
    the names. -/
theorem readExports_safe_iff (h : HeadersInFile b) (peData : MsiPeStruct) :
    Safe (readExports b (exportDirectory b) peData)
      ↔ b.Has (exportDirectory b + 20) 4 ∧
        (0 < b.dword (exportDirectory b + 20) → NamesInFile b) := by
  rw [readExports, safe_readDword_bind]
  refine and_congr_right (fun hcount => ?_)
  have hcount' := hcount.mono (Nat.zero_le 4)
  by_cases hfunctions : 0 < b.dword (exportDirectory b + 20)
  swap
  · rw [if_neg hfunctions]
    exact iff_of_true (safe_ok _) (fun hpos => absurd hpos hfunctions)
  rw [if_pos hfunctions, safe_readDword_bind, safe_convertRvaToFoa_bind h, imp_iff_right hfunctions]
  -- the field that is read first is the last one of the directory
  have hlast : b.Has (exportDirectory b + 36) 4 ↔ b.Has (exportDirectory b + 20) 20 :=
    Buffer.has_add_iff (k := 16) hcount' (by omega)
  rw [hlast]
  by_cases hnull : b.wrap (b.address + place b (b.dword (exportDirectory b + 36)).toNat) ≠ 0
  · rw [if_pos hnull, safe_readDword_bind, safe_bind_pure_iff]
    constructor
    · rintro ⟨hdirectory, hcan, -, hnames⟩
      refine ⟨hdirectory, hcan, fun _ i hi => ?_⟩
      exact (readSymbols_safe_iff h hdirectory 0 _ _).mp hnames i (Nat.zero_le i) (by omega)
    · intro hnames
      refine ⟨hnames.directory, hnames.ordinals,
        hnames.directory.field (k := 4) (by omega) (by omega), ?_⟩
      exact (readSymbols_safe_iff h hnames.directory 0 _ _).mpr
        (fun j _ hj => hnames.names hnull j (by omega))
  · rw [if_neg hnull]
    constructor
    · rintro ⟨hdirectory, hcan, -⟩
      exact ⟨hdirectory, hcan, fun hne => absurd hne hnull⟩
    · intro hnames
      exact ⟨hnames.directory, hnames.ordinals, safe_ok _⟩

theorem readDirectories_safe_iff (h : HeadersInFile b) (peData : MsiPeStruct)
    (hdebug : (debugAddress peData).toNat = debugRva b)
    (hexport : (exportAddress peData).toNat = exportRva b) :
    Safe (readDirectories b peData) ↔ ExportsInFile b := by
  rw [readDirectories, hdebug, hexport, safe_convertRvaToFoa_bind h, safe_convertRvaToFoa_bind h]
  refine (and_congr_right' (and_congr_right' (readExports_safe_iff h _))).trans ?_
  constructor
  · rintro ⟨hplace, hplace', hcount, hnames⟩
    exact ⟨hplace, hplace', hcount, hnames⟩
  · intro hexports
    exact ⟨hexports.debug, hexports.directory, hexports.count, hexports.names⟩

/-! ### The file -/

/-- What is behind the signatures is read safely when the headers are in the file, and the
    exports. -/
theorem readImage_safe_iff (hnt : b.Has (ntHeader b) 4) :
    Safe (readImage b (ntHeader b)) ↔ HeadersInFile b ∧ ExportsInFile b := by
  rw [readImage, safe_readBytes_bind, safe_readNtHeaders_bind hnt, safe_imageFirstSection_bind,
    safe_readWord_bind, safe_readSections_bind]
  have hzero32 : dwordAt MsiPeStruct.empty.nt_headers debugDirectory32 = 0 := by decide
  have hzero64 : dwordAt MsiPeStruct.empty.nt_headers exportDirectory32 = 0 := by decide
  constructor
  · rintro ⟨hdos, hcopy, hoptional, hcount, htable, hrest⟩
    have hheaders : HeadersInFile b :=
      ⟨hdos, (has_ntHeaderSize_iff hnt).mp ⟨hcopy, hoptional, hcount⟩, htable⟩
    refine ⟨hheaders, (readDirectories_safe_iff hheaders _ ?_ ?_).mp hrest⟩
    · exact dataDirectory_withHeaders hheaders (by decide) (by decide) _ rfl hzero32
    · exact dataDirectory_withHeaders hheaders (by decide) (by decide) _ rfl hzero64
  · rintro ⟨hheaders, hexports⟩
    rcases (has_ntHeaderSize_iff hnt).mpr hheaders.nt with ⟨hcopy, hoptional, hcount⟩
    refine ⟨hheaders.dos, hcopy, hoptional, hcount, hheaders.table,
      (readDirectories_safe_iff hheaders _ ?_ ?_).mpr hexports⟩
    · exact dataDirectory_withHeaders hheaders (by decide) (by decide) _ rfl hzero32
    · exact dataDirectory_withHeaders hheaders (by decide) (by decide) _ rfl hzero64

/-- A file is read without a fault exactly when everything that it leads to is in it. -/
theorem paserPeFile_safe_iff (b : Buffer) : Safe (paserPeFile b) ↔ InFile b := by
  rw [paserPeFile, safe_readWord_bind]
  -- Without the signatures less is read, and less has to be in the file.
  by_cases hmagic : b.word 0 = imageDosSignature
  swap
  · rw [if_pos hmagic]
    constructor
    · rintro ⟨hword, -⟩
      exact ⟨hword, fun h => absurd h hmagic, fun h => absurd h hmagic⟩
    · intro h
      exact ⟨h.magic, safe_ok _⟩
  rw [if_neg (not_not.mpr hmagic), safe_readDword_bind, safe_readDword_bind]
  have hzero : b.Has 0 2 → b.Has 0 0 := fun h => h.mono (Nat.zero_le 2)
  have hlfanew : b.Has 0 0 → (b.Has 60 4 ↔ b.Has 0 dosHeaderSize) := fun h => by
    have hadd := Buffer.has_add_iff (k := 60) (n := 4) h (by omega)
    rw [Nat.zero_add] at hadd
    exact hadd
  by_cases hsignature : b.dword (ntHeaderAt b (b.dword 60)) = imageNtSignature
  · rw [if_neg (not_not.mpr hsignature)]
    constructor
    · rintro ⟨hword, hdos, hnt, himage⟩
      exact ⟨hword, fun _ => ⟨(hlfanew (hzero hword)).mp hdos, hnt⟩,
        fun _ _ => (readImage_safe_iff hnt).mp himage⟩
    · intro h
      rcases h.dos hmagic with ⟨hdos, hnt⟩
      exact ⟨h.magic, (hlfanew (hzero h.magic)).mpr hdos, hnt,
        (readImage_safe_iff hnt).mpr (h.image hmagic hsignature)⟩
  · rw [if_pos hsignature]
    constructor
    · rintro ⟨hword, hdos, hnt, -⟩
      exact ⟨hword, fun _ => ⟨(hlfanew (hzero hword)).mp hdos, hnt⟩,
        fun _ h => absurd h hsignature⟩
    · intro h
      rcases h.dos hmagic with ⟨hdos, hnt⟩
      exact ⟨h.magic, (hlfanew (hzero h.magic)).mpr hdos, hnt, safe_ok _⟩

/-! ### An empty file -/

/-- The buffer of an empty file. -/
def emptyFile : Buffer where
  bytes := []
  bits := 64
  address := 0x10000
  wide := by decide
  low := Nat.le_refl _
  fits := by decide

/-- The signature is read, though there is no byte. -/
theorem paserPeFile_emptyFile : ¬ Safe (paserPeFile emptyFile) := by
  have hread : paserPeFile emptyFile = .error .overrun := rfl
  rw [hread]
  exact not_safe_error _

end Tools

end Pe

end Defender
