import Mathlib.Algebra.Group.Int.Defs
import Defender.Lib.Reads

/-!
# The Clipboard Image Is Saved as a PNG

`SaveClipboardImageAsPNG` gets a packed DIB from the clipboard, a block that
another process has filled, and hands its rows to libpng. The header says how
wide and high the picture is and how many bits a pixel has, and all the rest is
computed from that, in ints of 32 bits and with pointers into the block.

Pictures of 24 and 32 bits are copied into `temp_row` first, since the DIB has
blue where the PNG has red. For all others the row pointers point into the
block itself. With 8 bits or less there are colours behind the header, which
are copied into `png_palette`.

A call into libpng that fails jumps to the end, and what the calls return is a
parameter. Of `png_set_IHDR` it is known that it accepts no picture that is
empty, or more than a million pixels wide or high. What is handed to
`png_write_image` is read whole, as the call may do.

## Main definitions

* `PngCalls`: What the calls return.
* `int32`: An int.
* `Bih`, `readBih`: What is read of the header.
* `colors`, `readPixels`: The number of colours, and where the pixels begin.
* `copyColor`, `readPalette`, `setPalette`: The colours.
* `stride`, `dstStride`: The length of a row, in the block and in `temp_row`.
* `RowPointer`, `rowPointers`: The rows that are handed over.
* `copyPixel`, `copyRow`, `copyRows`, `pointRows`: The rows, with a copy and without.
* `writeImage`: What is read of the rows.
* `saveClipboardImageAsPNG`: The function, from the block that was locked on.
-/

namespace Defender

namespace Clipboard

open Wire CString Reads

/-- The colour types that the function uses. -/
inductive ColorType where
  | rgba
  | rgb
  | palette
deriving DecidableEq

/-- The bytes of a pixel, at a bit depth of 8. -/
def ColorType.channels : ColorType → Nat
  | .rgba => 4
  | .rgb => 3
  | .palette => 1

/-- `png_color`. -/
structure PngColor where
  red : UInt8
  green : UInt8
  blue : UInt8
deriving DecidableEq

/-- What the calls return, and what is in memory that is not initialised. -/
structure PngCalls where
  fopen : Bool
  createWriteStruct : Bool
  createInfoStruct : Bool
  setIHDR : Nat → Nat → ColorType → Bool
  setPLTE : Int → Bool
  writeInfo : Bool
  mallocRowPointers : Bool
  mallocTempRow : Bool
  writeImage : Bool
  stack : Nat → PngColor
  heap : Nat → UInt8
  limits : ∀ width height colorType, setIHDR width height colorType = true →
    (1 ≤ width ∧ width ≤ 1000000) ∧ 1 ≤ height ∧ height ≤ 1000000

/-- An int. -/
def int32 (n : Int) : Int :=
  n.bmod (2 ^ 32)

/-- `png_uint_32`. -/
def uint32 (n : Int) : Nat :=
  (n % 2 ^ 32).toNat

/-! ### The header -/

/-- The locals `width`, `height` and `bpp`. -/
structure Bih where
  width : Int
  height : Int
  bpp : Nat

def Bih.new (biWidth biHeight : UInt32) (biBitCount : UInt16) : Bih :=
  { width := biWidth.toInt32.toInt, height := int32 biHeight.toInt32.toInt.natAbs,
    bpp := biBitCount.toNat }

def readBih (pData : Buffer) : Except Fault Bih := do
  let biWidth ← readDword pData 4
  let biHeight ← readDword pData 8
  let biBitCount ← readWord pData 14
  pure (Bih.new biWidth biHeight biBitCount)

/-- `colors`, which a DWORD is converted to. -/
def colors (bpp : Nat) (biClrUsed : UInt32) : Int :=
  if biClrUsed ≠ 0 then biClrUsed.toInt32.toInt else 2 ^ bpp

/-- `pixels`: behind the header, and behind the colours of at most 8 bits. -/
def readPixels (pData : Buffer) (bpp : Nat) : Except Fault Nat :=
  if bpp ≤ 8 then do
    let biClrUsed ← readDword pData 32
    -- `colors * sizeof(RGBQUAD)` is a size_t, so that a negative number goes backwards.
    pure (pData.move 40 (4 * colors bpp biClrUsed))
  else pure 40

def colorType (bpp : Nat) : ColorType :=
  if bpp = 32 then .rgba else if bpp = 24 then .rgb else if bpp ≤ 8 then .palette else .rgb

/-! ### The colours -/

/-- An RGBQUAD begins with blue. -/
def copyColor (pData : Buffer) (palette : List PngColor) (i : Nat) :
    Except Fault (List PngColor) := do
  let red ← readByte pData (40 + 4 * i + 2)
  let green ← readByte pData (40 + 4 * i + 1)
  let blue ← readByte pData (40 + 4 * i)
  store palette i { red := red, green := green, blue := blue }

/-- The colours are copied to an array of 256. -/
def readPalette (calls : PngCalls) (pData : Buffer) (colors : Int) :
    Except Fault (List PngColor) :=
  (List.range colors.toNat).foldlM (copyColor pData) ((List.range 256).map calls.stack)

/-- What `png_set_PLTE` takes of them, if it is called. There is no result when it fails. -/
def setPalette (calls : PngCalls) (pData : Buffer) (bpp : Nat) :
    Except Fault (Option (List PngColor)) :=
  if bpp ≤ 8 then do
    let biClrUsed ← readDword pData 32
    -- The number is computed a second time.
    let palette ← readPalette calls pData (colors bpp biClrUsed)
    pure (if calls.setPLTE (colors bpp biClrUsed) then
      some (palette.take (colors bpp biClrUsed).toNat) else none)
  else pure (some [])

/-! ### The rows -/

/-- `((width * bpp + 31) & ~31) >> 3`. -/
def stride (bih : Bih) : Int :=
  int32 (int32 (bih.width * bih.bpp) + 31) / 32 * 32 / 8

/-- Where the bytes of a PNG pixel are in one of the DIB. -/
def channelOrder (bpp : Nat) : List Nat :=
  if bpp = 32 then [2, 1, 0, 3] else [2, 1, 0]

def dstStride (bih : Bih) : Int :=
  int32 (if bih.bpp = 32 then bih.width * 4 else bih.width * 3)

/-- `pixels + (height - 1 - y) * stride`. -/
def rowAt (pData : Buffer) (bih : Bih) (pixels y : Nat) : Nat :=
  pData.move pixels (int32 ((bih.height - 1 - y) * stride bih))

/-- An element of `row_pointers`: an offset in `temp_row`, or a pointer into the block. -/
inductive RowPointer where
  | unset
  | temp (offset : Nat)
  | block (p : Nat)
deriving DecidableEq

/-- `malloc(sizeof(png_byte*) * height)`. -/
def rowPointers (pData : Buffer) (height : Int) : List RowPointer :=
  List.replicate (pData.sizeT ((pData.bits / 8 : Nat) * height) / (pData.bits / 8)) .unset

/-- `malloc(height * dst_stride)`. -/
def tempRow (calls : PngCalls) (pData : Buffer) (bih : Bih) : List UInt8 :=
  (List.range (pData.sizeT (int32 (bih.height * dstStride bih)))).map calls.heap

/-- A pixel goes from `src` to `dst`, byte by byte. -/
def copyPixel (pData : Buffer) (order : List Nat) (src dst : Nat) (temp : List UInt8) (x : Nat) :
    Except Fault (List UInt8) := do
  -- `dst` is not in the block, so that the order of reads and writes does not matter.
  let pixel ← order.mapM fun k => readByte pData (src + (order.length * x + k))
  writeBytes temp (dst + order.length * x) pixel

/-- All pixels of a row. -/
def copyRow (pData : Buffer) (bih : Bih) (src dst : Nat) (temp : List UInt8) :
    Except Fault (List UInt8) :=
  (List.range bih.width.toNat).foldlM (copyPixel pData (channelOrder bih.bpp) src dst) temp

/-- `temp_row` and `row_pointers` after a pass of the loop for 24 and 32 bits. -/
def copyStep (pData : Buffer) (bih : Bih) (pixels : Nat) (s : List UInt8 × List RowPointer)
    (y : Nat) : Except Fault (List UInt8 × List RowPointer) := do
  let dst := pData.sizeT (int32 (y * dstStride bih))
  let temp ← copyRow pData bih (rowAt pData bih pixels y) dst s.1
  let rows ← store s.2 y (.temp dst)
  pure (temp, rows)

def copyRows (pData : Buffer) (bih : Bih) (pixels : Nat) (s : List UInt8 × List RowPointer) :
    Except Fault (List UInt8 × List RowPointer) :=
  (List.range bih.height.toNat).foldlM (copyStep pData bih pixels) s

/-- The loop for all others. -/
def pointRows (pData : Buffer) (bih : Bih) (pixels : Nat) (rows : List RowPointer) :
    Except Fault (List RowPointer) :=
  (List.range bih.height.toNat).foldlM
    (fun rows y => store rows y (.block (rowAt pData bih pixels y))) rows

/-- A row of `n` bytes. -/
def readRow (pData : Buffer) (temp : List UInt8) (n : Nat) :
    RowPointer → Except Fault (List UInt8)
  | .unset => .error .overrun
  | .temp i => readIf (i + n ≤ temp.length) (slice temp i n)
  | .block p => readBytes pData p n

/-- What `png_write_image` reads. -/
def writeImage (pData : Buffer) (bih : Bih) (temp : List UInt8) (rows : List RowPointer) :
    Except Fault (List (List UInt8)) :=
  (List.range bih.height.toNat).mapM fun y =>
    readRow pData temp ((colorType bih.bpp).channels * bih.width.toNat) (rows.getD y .unset)

/-! ### The function -/

/-- The colours and the rows that libpng gets. -/
structure Picture where
  palette : List PngColor
  rows : List (List UInt8)
deriving DecidableEq

/-- The result, and what was handed to `png_write_image` if that was called. -/
structure Saved where
  result : Bool
  handed : Option Picture
deriving DecidableEq

/-- `goto cleanup`. -/
def Saved.cleanup : Saved :=
  { result := false, handed := none }

/-- From the allocation of `temp_row` on. -/
def saveRows (calls : PngCalls) (pData : Buffer) (bih : Bih) (pixels : Nat)
    (palette : List PngColor) : Except Fault Saved :=
  if bih.bpp = 32 ∨ bih.bpp = 24 then
    -- BGRA or BGR, which is turned round on the way to `temp_row`.
    if calls.mallocTempRow then do
      let s ← copyRows pData bih pixels (tempRow calls pData bih, rowPointers pData bih.height)
      let rows ← writeImage pData bih s.1 s.2
      pure { result := calls.writeImage, handed := some { palette := palette, rows := rows } }
    else pure Saved.cleanup
  else do
    -- All others are handed over as they are in the block.
    let pointers ← pointRows pData bih pixels (rowPointers pData bih.height)
    let rows ← writeImage pData bih [] pointers
    pure { result := calls.writeImage, handed := some { palette := palette, rows := rows } }

/-- Up to `png_set_IHDR`. -/
def opened (calls : PngCalls) (bih : Bih) : Bool :=
  calls.fopen && calls.createWriteStruct && calls.createInfoStruct &&
    calls.setIHDR (uint32 bih.width) (uint32 bih.height) (colorType bih.bpp)

/-- From `png_write_info` on, when the colours were accepted. -/
def saveImage (calls : PngCalls) (pData : Buffer) (bih : Bih) (pixels : Nat) :
    Option (List PngColor) → Except Fault Saved
  | none => .ok Saved.cleanup
  | some palette =>
      if calls.writeInfo && calls.mallocRowPointers then
        saveRows calls pData bih pixels palette
      else .ok Saved.cleanup

/-- From the colours on. -/
def savePicture (calls : PngCalls) (pData : Buffer) (bih : Bih) (pixels : Nat) :
    Except Fault Saved := do
  let palette ← setPalette calls pData bih.bpp
  saveImage calls pData bih pixels palette

/-- `ClipboardManage::SaveClipboardImageAsPNG`. -/
def saveClipboardImageAsPNG (calls : PngCalls) (pData : Buffer) : Except Fault Saved := do
  let bih ← readBih pData
  -- Where the pixels are is computed before the file is opened.
  let pixels ← readPixels pData bih.bpp
  if opened calls bih then savePicture calls pData bih pixels else pure Saved.cleanup

end Clipboard

end Defender
