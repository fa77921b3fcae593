import Defender.Lib.Reads
import Defender.Pe.Image

/-!
# Parsing a PE File

`PaserPeFile` reads a file into a buffer and takes from there the headers, the
section table, and the names and places of what is exported. Everything is found by
offsets that are in the file: the NT headers by `e_lfanew`, which has a sign, the
section table behind them by the size of the optional header, and the tables of the
export directory by addresses, which `ConvertRvaToFoa` converts by means of the
sections. Nothing is compared with the size of the file.

Both are computations of `Reads`, with a fault where something is read that is not in
the buffer.

## Main definitions

* `convertRvaToFoa`: The conversion of an address.
* `MsiPeStruct`: What is returned.
* `readNtHeaders`, `readSections`, `readDirectories`, `readExports`: The parts of the
  parsing.
* `paserPeFile`: The function of the source, from the point where the file was read.
-/

namespace Defender

namespace Pe

namespace Tools

open Wire CString Reads

/-! ### Constants -/

/-- `IMAGE_FILE_MACHINE_I386`. -/
def imageFileMachineI386 : UInt16 := 0x014c

/-- `IMAGE_FILE_MACHINE_AMD64`. -/
def imageFileMachineAmd64 : UInt16 := 0x8664

/-- `sizeof(IMAGE_SECTION_HEADER)`. -/
def sectionHeaderSize : Nat := 40

/-- Where `DataDirectory[IMAGE_DIRECTORY_ENTRY_EXPORT].VirtualAddress` is in the headers of
    32 bits, and in those of 64. -/
def exportDirectory32 : Nat := 120

def exportDirectory64 : Nat := 136

/-- Where `DataDirectory[IMAGE_DIRECTORY_ENTRY_DEBUG].VirtualAddress` is. -/
def debugDirectory32 : Nat := 168

def debugDirectory64 : Nat := 184

/-! ### Converting an address -/

/-- `pBuffer + pDosHeader->e_lfanew`, which is a `LONG`. -/
def ntHeaderAt (b : Buffer) (e_lfanew : UInt32) : Nat :=
  if e_lfanew.toNat < 2 ^ 31 then e_lfanew.toNat
  else e_lfanew.toNat + (2 ^ b.bits - 2 ^ 32)

/-- `IMAGE_FIRST_SECTION (pNtHeader)`. -/
def imageFirstSection (b : Buffer) (pNtHeader : Nat) : Except Fault Nat := do
  let SizeOfOptionalHeader ← readWord b (pNtHeader + 20)
  pure (pNtHeader + 24 + SizeOfOptionalHeader.toNat)

/-- The loop over the section headers, of which some are left. -/
def convertLoop (b : Buffer) (RVA : Nat) : Nat → Nat → Except Fault Nat
  | _, 0 => pure 0
  | pSectionHeader, n + 1 => do
      let VirtualAddress ← readDword b (pSectionHeader + 12)
      if VirtualAddress.toNat ≤ RVA then do
        let SizeOfRawData ← readDword b (pSectionHeader + 16)
        -- The sum is one of `DWORD`s.
        if RVA ≤ (VirtualAddress + SizeOfRawData).toNat then do
          let PointerToRawData ← readDword b (pSectionHeader + 20)
          pure (b.wrap (RVA - VirtualAddress.toNat + PointerToRawData.toNat))
        else convertLoop b RVA (pSectionHeader + sectionHeaderSize) n
      else pure 0

/-- The conversion of an address in front of the first section. -/
def convertHeader (b : Buffer) (RVA pSectionHeader : Nat) : Except Fault Nat := do
  let PointerToRawData ← readDword b (pSectionHeader + 20)
  pure (if RVA < PointerToRawData.toNat then RVA else 0)

/-- `ConvertRvaToFoa`. -/
def convertRvaToFoa (b : Buffer) (RVA : Nat) : Except Fault Nat := do
  let e_lfanew ← readDword b 60
  let pSectionHeader ← imageFirstSection b (ntHeaderAt b e_lfanew)
  let VirtualAddress ← readDword b (pSectionHeader + 12)
  if RVA < VirtualAddress.toNat then convertHeader b RVA pSectionHeader
  else do
    let NumberOfSections ← readWord b (ntHeaderAt b e_lfanew + 6)
    convertLoop b RVA pSectionHeader NumberOfSections.toNat

/-! ### Parsing -/

/-- `MSI_PE_STRUCT`. `nt_headers` is the union of the headers of 32 and of 64 bits, and
    `va_to_symbol` the map. -/
structure MsiPeStruct where
  size : Nat
  is_pe64 : Bool
  dos_header : List UInt8
  nt_headers : List UInt8
  sections : List (List UInt8)
  va_to_symbol : Nat → Option (List UInt8)

/-- What is returned when the parsing ends at once. -/
def MsiPeStruct.empty : MsiPeStruct where
  size := 0
  is_pe64 := false
  dos_header := List.replicate dosHeaderSize 0
  nt_headers := List.replicate ntHeaders64Size 0
  sections := []
  va_to_symbol := fun _ => none

/-- The copy of the headers, for the two machines that are known. -/
def readNtHeaders (b : Buffer) (pNtHeader : Nat) (peData : MsiPeStruct) :
    Except Fault MsiPeStruct := do
  let Machine ← readWord b (pNtHeader + 4)
  if Machine = imageFileMachineI386 then do
    let headers ← readBytes b pNtHeader ntHeaders32Size
    pure { peData with is_pe64 := false, nt_headers := poke peData.nt_headers 0 headers }
  else if Machine = imageFileMachineAmd64 then do
    let headers ← readBytes b pNtHeader ntHeaders64Size
    pure { peData with is_pe64 := true, nt_headers := poke peData.nt_headers 0 headers }
  else pure peData

/-- The loop over the section table. -/
def readSections (b : Buffer) : Nat → Nat → Except Fault (List (List UInt8))
  | _, 0 => pure []
  | pSectionHeader, n + 1 => do
      let SectionHeader ← readBytes b pSectionHeader sectionHeaderSize
      let later ← readSections b (pSectionHeader + sectionHeaderSize) n
      pure (SectionHeader :: later)

/-- The address in an entry of `DataDirectory`, by the place of the entry in the headers of
    32 bits and in those of 64. -/
def dataDirectory (peData : MsiPeStruct) (entry32 entry64 : Nat) : UInt32 :=
  dwordAt peData.nt_headers (if peData.is_pe64 then entry64 else entry32)

/-- `pDebugDataDirectory->VirtualAddress`. -/
def debugAddress (peData : MsiPeStruct) : UInt32 :=
  dataDirectory peData debugDirectory32 debugDirectory64

/-- `pExportDataDirectory->VirtualAddress`. -/
def exportAddress (peData : MsiPeStruct) : UInt32 :=
  dataDirectory peData exportDirectory32 exportDirectory64

/-- `peData.va_to_symbol[FunctionRVA] = Name`. -/
def addSymbol (symbols : Nat → Option (List UInt8)) (FunctionRVA : Nat) (Name : List UInt8) :
    Nat → Option (List UInt8) :=
  fun va => if va = FunctionRVA then some Name else symbols va

/-- What the loop over the names does. -/
def readSymbol (b : Buffer) (pExportDirectory AddressOfNameOrdinals i : Nat)
    (symbols : Nat → Option (List UInt8)) : Except Fault (Nat → Option (List UInt8)) := do
  let Ordinal ← readWord b (AddressOfNameOrdinals + 2 * i)
  let AddressOfNames ← readDword b (pExportDirectory + 32)
  let names ← convertRvaToFoa b AddressOfNames.toNat
  let NameRva ← readDword b (names + 4 * i)
  let pName ← convertRvaToFoa b NameRva.toNat
  let Name ← readString b pName
  let AddressOfFunctions ← readDword b (pExportDirectory + 28)
  let pAddFunc ← convertRvaToFoa b AddressOfFunctions.toNat
  let function ← readDword b (pAddFunc + 4 * Ordinal.toNat)
  let FunctionRVA ← convertRvaToFoa b function.toNat
  pure (addSymbol symbols (FunctionRVA % 2 ^ 32) Name)

/-- The loop over the names, of which some are left. -/
def readSymbols (b : Buffer) (pExportDirectory AddressOfNameOrdinals : Nat) :
    Nat → Nat → (Nat → Option (List UInt8)) → Except Fault (Nat → Option (List UInt8))
  | _, 0, symbols => pure symbols
  | i, n + 1, symbols => do
      let symbols ← readSymbol b pExportDirectory AddressOfNameOrdinals i symbols
      readSymbols b pExportDirectory AddressOfNameOrdinals (i + 1) n symbols

/-- The export directory. -/
def readExports (b : Buffer) (pExportDirectory : Nat) (peData : MsiPeStruct) :
    Except Fault MsiPeStruct := do
  let NumberOfFunctions ← readDword b (pExportDirectory + 20)
  if 0 < NumberOfFunctions then do
    let ordinals ← readDword b (pExportDirectory + 36)
    let AddressOfNameOrdinals ← convertRvaToFoa b ordinals.toNat
    if b.wrap (b.address + AddressOfNameOrdinals) ≠ 0 then do
      let NumberOfNames ← readDword b (pExportDirectory + 24)
      let symbols ← readSymbols b pExportDirectory AddressOfNameOrdinals 0 NumberOfNames.toNat
        peData.va_to_symbol
      pure { peData with va_to_symbol := symbols }
    else pure peData
  else pure peData

/-- The entries of `DataDirectory`. -/
def readDirectories (b : Buffer) (peData : MsiPeStruct) : Except Fault MsiPeStruct := do
  -- The debug directory is located and not read.
  let _ ← convertRvaToFoa b (debugAddress peData).toNat
  let pExportDirectory ← convertRvaToFoa b (exportAddress peData).toNat
  readExports b pExportDirectory peData

/-- What is done with headers of the format. -/
def readImage (b : Buffer) (pNtHeader : Nat) : Except Fault MsiPeStruct := do
  let dos_header ← readBytes b 0 dosHeaderSize
  let peData ← readNtHeaders b pNtHeader
    { MsiPeStruct.empty with dos_header := dos_header, size := b.bytes.length }
  let pSectionHeader ← imageFirstSection b pNtHeader
  let NumberOfSections ← readWord b (pNtHeader + 6)
  let sections ← readSections b pSectionHeader NumberOfSections.toNat
  readDirectories b { peData with sections := sections }

/-- `PaserPeFile`, with the file in the buffer. -/
def paserPeFile (b : Buffer) : Except Fault MsiPeStruct := do
  let e_magic ← readWord b 0
  if e_magic ≠ imageDosSignature then pure .empty
  else do
    let e_lfanew ← readDword b 60
    let Signature ← readDword b (ntHeaderAt b e_lfanew)
    if Signature ≠ imageNtSignature then pure .empty
    else readImage b (ntHeaderAt b e_lfanew)

end Tools

end Pe

end Defender
