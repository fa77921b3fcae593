import Mathlib.Algebra.Group.Nat.Defs
import Mathlib.Algebra.Group.Int.Defs
import Defender.Clipboard.PngBounds

/-!
# The Picture That Is Saved

What a DIB shows follows from its header. The pixels are behind the header, the
masks that a compression of BI_BITFIELDS adds to it, and the table of
`biClrUsed` colours, which a picture of 24 or 32 bits may have too. Each row is
padded to words of four bytes. The rows begin with the lowest one, unless the
height is negative, and a pixel begins with blue.

`SaveClipboardImageAsPNG` takes the pixels to be right behind the header and the
rows to begin with the lowest one. A picture is therefore saved as it is shown
when both are so, or when there is only one row. In all other cases the row that
is saved last, which is the one right behind the header, is not the one that is
shown there, and a block can be filled so that the first pixels of the two
differ.

## Main definitions

* `BitmapInfoHeader`, `headerOf`: The header.
* `Ordinary`, `Complete`: The pictures of 24 and 32 bits.
* `shownPixel`, `shownRow`: What a DIB shows.
* `ShowsPicture`: The rows that are handed over are those that are shown.
* `Reaches`: The calls up to `png_write_image` succeed.
* `AsTaken`: The pixels are where the function looks for them.
* `probe`: A block with one pixel set.
* `bottomUpHeader`, `topDown`: Pictures of two rows.

## Theorems

* `saveRows_eq_ok`, `save_eq_ok`: The rows that are handed over.
* `rowBytes_eq`, `showsPicture_of_asTaken`: They are those that are shown, if the
  pixels are where they are taken to be.
* `byteAt_of_showsPicture`: What must be so in a picture that is shown.
* `headerOf_probe`, `asTaken_of_probe`: The probe has any header, and is saved as
  it is shown for those only.
* `showsPicture_iff`: The pictures with a header are shown exactly when that is so.
* `not_showsPicture_topDown`: A picture that is saved upside down.
-/

namespace Defender

namespace Clipboard

open Wire CString Reads

/-- The fields of a BITMAPINFOHEADER that say where the pixels are. -/
structure BitmapInfoHeader where
  biSize : UInt32
  biWidth : UInt32
  biHeight : UInt32
  biBitCount : UInt16
  biCompression : UInt32
  biClrUsed : UInt32
deriving DecidableEq

def headerOf (b : Buffer) : BitmapInfoHeader :=
  { biSize := b.dword 0, biWidth := b.dword 4, biHeight := b.dword 8, biBitCount := b.word 14,
    biCompression := b.dword 16, biClrUsed := b.dword 32 }

def biRgb : UInt32 := 0

def biBitfields : UInt32 := 3

namespace BitmapInfoHeader

/-- What the function makes of the header. -/
def bih (h : BitmapInfoHeader) : Bih :=
  Bih.new h.biWidth h.biHeight h.biBitCount

/-- The signed height. -/
def height (h : BitmapInfoHeader) : Int :=
  h.biHeight.toInt32.toInt

def rows (h : BitmapInfoHeader) : Nat :=
  h.height.natAbs

def columns (h : BitmapInfoHeader) : Nat :=
  h.biWidth.toInt32.toInt.toNat

/-- The bytes of a pixel. -/
def pixelBytes (h : BitmapInfoHeader) : Nat :=
  if h.biBitCount = 32 then 4 else 3

/-- The bytes of a row, padded to words of four. -/
def line (h : BitmapInfoHeader) : Nat :=
  (h.columns * h.biBitCount.toNat + 31) / 32 * 4

/-- Where the pixels begin. -/
def bitsOffset (h : BitmapInfoHeader) : Nat :=
  40 + (if h.biCompression = biBitfields then 12 else 0) + 4 * h.biClrUsed.toNat

/-- Where in the block a row of the picture is, counted in rows. -/
def lineOf (h : BitmapInfoHeader) (r : Nat) : Nat :=
  if 0 < h.height then h.rows - 1 - r else r

/-- Where a pixel is. -/
def pixelOffset (h : BitmapInfoHeader) (r c : Nat) : Nat :=
  h.bitsOffset + h.lineOf r * h.line + h.pixelBytes * c

end BitmapInfoHeader

/-- A picture of 24 bits, or of 32 with or without masks, whose sizes are all ints. -/
structure Ordinary (h : BitmapInfoHeader) : Prop where
  size : h.biSize = 40
  width : 0 < h.biWidth.toInt32.toInt
  height : h.height ≠ 0
  kind : h.biBitCount = 24 ∧ h.biCompression = biRgb ∨
    h.biBitCount = 32 ∧ (h.biCompression = biRgb ∨ h.biCompression = biBitfields)
  bits : h.columns * h.biBitCount.toNat < 2 ^ 31
  copied : h.rows * (h.pixelBytes * h.columns) < 2 ^ 31
  offsets : (h.rows - 1) * h.line < 2 ^ 31

/-- The block has all its rows, and the masks are the usual ones. -/
structure Complete (b : Buffer) : Prop where
  length : (headerOf b).bitsOffset + (headerOf b).rows * (headerOf b).line ≤ b.bytes.length
  masks : (headerOf b).biCompression = biBitfields →
    dwordAt b.bytes 40 = 0xff0000 ∧ dwordAt b.bytes 44 = 0xff00 ∧ dwordAt b.bytes 48 = 0xff

/-- The red, the green and the blue of a pixel, and the fourth byte if it has one. -/
def shownPixel (b : Buffer) (r c : Nat) : List UInt8 :=
  let p := (headerOf b).pixelOffset r c
  if (headerOf b).biBitCount = 32 then
    [byteAt b.bytes (p + 2), byteAt b.bytes (p + 1), byteAt b.bytes p, byteAt b.bytes (p + 3)]
  else
    [byteAt b.bytes (p + 2), byteAt b.bytes (p + 1), byteAt b.bytes p]

/-- A row of the picture, counted from the top. -/
def shownRow (b : Buffer) (r : Nat) : List UInt8 :=
  (List.range (headerOf b).columns).flatMap (shownPixel b r)

/-- The rows that are handed to libpng, if any are, are the ones that are shown. -/
def ShowsPicture (calls : PngCalls) (b : Buffer) : Prop :=
  ∃ saved, saveClipboardImageAsPNG calls b = .ok saved ∧
    ∀ picture, saved.handed = some picture →
      picture.rows = (List.range (headerOf b).rows).map (shownRow b)

/-- The calls up to `png_write_image` succeed. -/
structure Reaches (calls : PngCalls) (h : BitmapInfoHeader) : Prop where
  opened : opened calls h.bih = true
  writeInfo : calls.writeInfo = true
  mallocRowPointers : calls.mallocRowPointers = true
  mallocTempRow : calls.mallocTempRow = true

/-- The pixels are right behind the header, and the lowest row is the first one or the only
    one. -/
structure AsTaken (h : BitmapInfoHeader) : Prop where
  order : 0 < h.height ∨ h.rows = 1
  compression : h.biCompression = biRgb
  clrUsed : h.biClrUsed = 0

/-! ### The rows that are handed over -/

section

variable (calls : PngCalls) (b : Buffer) {bih : Bih} (hbih : Accepted bih)

/-- The offsets in `temp_row`, where they are ints. -/
theorem dstAt_eq (hbih : Accepted bih) {y n : Nat} (hy : y ≤ n)
    (hsize : n * rowLength bih < 2 ^ 31) : dstAt b bih y = rowLength bih * y := by
  have hpow := b.pow_le
  have hle : y * rowLength bih ≤ n * rowLength bih := Nat.mul_le_mul_right _ hy
  rw [dstAt, dstStride_eq hbih, ← Int.natCast_mul, int32_eq (by omega) (by omega),
    Buffer.sizeT_natCast (by omega), Nat.mul_comm]

include hbih

/-- The rows follow each other in `temp_row`, and nothing else is there. -/
theorem copied_eq (pixels : Nat) (hsize : bih.height.toNat * rowLength bih < 2 ^ 31) :
    copied b bih pixels (tempRow calls b bih)
      = (List.range bih.height.toNat).flatMap fun y => rowBytes b bih (rowAt b bih pixels y) := by
  have hlen : (tempRow calls b bih).length = rowLength bih * bih.height.toNat := by
    have hall := dstAt_eq b hbih (Nat.le_refl bih.height.toNat) hsize
    rw [dstAt, ← hbih.height] at hall
    rw [length_tempRow, hall]
  have hsame : ∀ t : List UInt8, ∀ y ∈ List.range bih.height.toNat,
      poke t (dstAt b bih y) (rowBytes b bih (rowAt b bih pixels y))
        = poke t (rowLength bih * y) (rowBytes b bih (rowAt b bih pixels y)) := by
    intro t y hy
    rw [dstAt_eq b hbih (Nat.le_of_lt (List.mem_range.mp hy)) hsize]
  rw [copied, List.foldl_ext _ _ _ hsame,
    foldl_poke_blocks (rowLength bih) (fun y => rowBytes b bih (rowAt b bih pixels y))
      (fun y => length_rowBytes b bih _) _ _ (Nat.le_of_eq hlen.symm),
    List.drop_eq_nil_of_le (Nat.le_of_eq hlen), List.append_nil]

/-- What is handed over of 24 and 32 bits: the rows as they are in the block. -/
theorem saveRows_eq_ok (pixels : Nat) (palette : List PngColor)
    (h : bih.bpp = 32 ∨ bih.bpp = 24) (hmalloc : calls.mallocTempRow = true)
    (hsize : bih.height.toNat * rowLength bih < 2 ^ 31) (hrows : RowsInside b bih pixels) :
    saveRows calls b bih pixels palette
      = .ok { result := calls.writeImage,
              handed := some { palette := palette,
                               rows := (List.range bih.height.toNat).map fun y =>
                                 rowBytes b bih (rowAt b bih pixels y) } } := by
  have hinside := (rowInside_iff calls b hbih pixels h).mpr hrows
  rw [saveRows, if_pos h, if_pos hmalloc,
    copyRows_eq_ok hbih pixels _ _ (length_rowPointers b hbih) hinside, ok_bind,
    writeImage_eq_ok b bih _ _ (fun y => rowBytes b bih (rowAt b bih pixels y)) ?_, ok_bind]
  · rfl
  · intro y hy
    have hfits := (hinside y hy).2
    -- What libpng reads of a row is what was copied for it.
    have hrow : (colorType bih.bpp).channels * bih.width.toNat = rowLength bih := pngRow_eq h
    have hslice := slice_blocks (rowLength bih) (fun y => rowBytes b bih (rowAt b bih pixels y))
      (fun y => length_rowBytes b bih _) _ y (List.mem_range.mp hy)
    rw [← length_copied b bih pixels _ hinside] at hfits
    rw [hrow, readRow, readIf_eq_ok _ hfits, copied_eq calls b hbih pixels hsize,
      dstAt_eq b hbih (Nat.le_of_lt (List.mem_range.mp hy)) hsize, hslice]

end

/-! ### The header of an ordinary picture -/

section

variable {h : BitmapInfoHeader} (hh : Ordinary h)
include hh

/-- The number of bits, as the function has it, and the bytes of a pixel. -/
theorem Ordinary.depth :
    (h.biBitCount = 24 ∧ h.bih.bpp = 24 ∧ h.pixelBytes = 3) ∨
      h.biBitCount = 32 ∧ h.bih.bpp = 32 ∧ h.pixelBytes = 4 := by
  rcases hh.kind with ⟨hcount, -⟩ | ⟨hcount, -⟩
  · exact Or.inl ⟨hcount, congrArg UInt16.toNat hcount, if_neg (by rw [hcount]; decide)⟩
  · exact Or.inr ⟨hcount, congrArg UInt16.toNat hcount, if_pos hcount⟩

theorem Ordinary.bpp : h.bih.bpp = 32 ∨ h.bih.bpp = 24 := by
  rcases hh.depth with ⟨-, hbpp, -⟩ | ⟨-, hbpp, -⟩
  · exact Or.inr hbpp
  · exact Or.inl hbpp

theorem Ordinary.columns_pos : 1 ≤ h.columns := by
  have hwidth := hh.width
  rw [BitmapInfoHeader.columns]
  omega

theorem Ordinary.rows_pos : 1 ≤ h.rows := by
  have hheight := hh.height
  rw [BitmapInfoHeader.rows]
  omega

/-- The length of a row in `temp_row`. -/
theorem Ordinary.rowLength : rowLength h.bih = h.pixelBytes * h.columns := by
  have hchannels : (channelOrder h.bih.bpp).length = h.pixelBytes := by
    rcases hh.depth with ⟨-, hbpp, hbytes⟩ | ⟨-, hbpp, hbytes⟩
    all_goals
      rw [hbpp, hbytes]
      rfl
  rw [Clipboard.rowLength, hchannels]
  rfl

/-- The height without its sign is an int. -/
theorem Ordinary.height_toNat : h.bih.height.toNat = h.rows := by
  have hlt : h.rows < 2 ^ 31 := by
    have hpixel : 1 ≤ h.pixelBytes * h.columns := by
      have hpos := hh.columns_pos
      rw [BitmapInfoHeader.pixelBytes]
      split <;> omega
    have hle : h.rows * 1 ≤ h.rows * (h.pixelBytes * h.columns) := Nat.mul_le_mul_left _ hpixel
    have hcopied := hh.copied
    omega
  have hheight : h.bih.height = int32 h.rows := by
    rw [BitmapInfoHeader.bih, Bih.new, BitmapInfoHeader.rows, BitmapInfoHeader.height]
  rw [hheight, int32_eq (by omega) (by omega), Int.toNat_natCast]

/-- The line of an ordinary picture holds more than a pixel. -/
theorem Ordinary.line_pos : 3 ≤ h.line := by
  have hpos := hh.columns_pos
  rw [BitmapInfoHeader.line]
  rcases hh.bpp with hbpp | hbpp
  · have hbits : h.biBitCount.toNat = 32 := hbpp
    rw [hbits]
    omega
  · have hbits : h.biBitCount.toNat = 24 := hbpp
    rw [hbits]
    omega

end

/-! ### Where the rows are -/

section

variable {calls : PngCalls} {b : Buffer}

/-- With more than 8 bits there are no colours. -/
theorem save_eq (hbpp : 8 < (bihOf b).bpp) (hlen : 16 ≤ b.bytes.length) :
    saveClipboardImageAsPNG calls b
      = if opened calls (bihOf b) then
          if calls.writeInfo && calls.mallocRowPointers then
            saveRows calls b (bihOf b) 40 []
          else .ok Saved.cleanup
        else .ok Saved.cleanup := by
  have hread : readBih b = .ok (bihOf b) := by
    rw [readBih, readDword_eq_ok ((Buffer.has_iff_of_lt (by decide)).mpr (by omega)), ok_bind,
      readDword_eq_ok ((Buffer.has_iff_of_lt (by decide)).mpr (by omega)), ok_bind,
      readWord_eq_ok ((Buffer.has_iff_of_lt (by decide)).mpr (by omega)), ok_bind]
    rfl
  have hpixels : readPixels b (bihOf b).bpp = .ok 40 := if_neg (Nat.not_le.mpr hbpp)
  have hpalette : setPalette calls b (bihOf b).bpp = .ok (some []) :=
    if_neg (Nat.not_le.mpr hbpp)
  rw [saveClipboardImageAsPNG, hread, ok_bind, hpixels, ok_bind, savePicture, hpalette, ok_bind,
    saveImage]
  rfl

theorem Complete.le_length (hb : Complete b) :
    40 + (headerOf b).rows * (headerOf b).line ≤ b.bytes.length := by
  have hlength := hb.length
  rw [BitmapInfoHeader.bitsOffset] at hlength
  omega

variable (hh : Ordinary (headerOf b)) (hb : Complete b)
include hh hb

/-- Without the calls no row is handed over. -/
theorem save_eq_cleanup (hreaches : ¬ Reaches calls (headerOf b)) :
    saveClipboardImageAsPNG calls b = .ok Saved.cleanup := by
  have hbpp : (bihOf b).bpp = 32 ∨ (bihOf b).bpp = 24 := hh.bpp
  have hlen := hb.le_length
  rw [save_eq (by omega) (by omega)]
  by_cases hopened : opened calls (bihOf b) = true
  swap
  · rw [if_neg hopened]
  rw [if_pos hopened]
  by_cases hcalls : (calls.writeInfo && calls.mallocRowPointers) = true
  swap
  · rw [if_neg hcalls]
  rw [if_pos hcalls]
  rw [Bool.and_eq_true] at hcalls
  rw [saveRows, if_pos hbpp,
    if_neg (fun hmalloc => hreaches ⟨hopened, hcalls.1, hcalls.2, hmalloc⟩)]
  rfl

/-- The rows that are handed over, counted from the one right behind the header. -/
theorem save_eq_ok (hreaches : Reaches calls (headerOf b)) :
    saveClipboardImageAsPNG calls b
      = .ok { result := calls.writeImage,
              handed := some { palette := [],
                               rows := (List.range (headerOf b).rows).map fun y =>
                                 rowBytes b (bihOf b)
                                   (40 + ((headerOf b).rows - 1 - y) * (headerOf b).line) } } := by
  have hbpp : (bihOf b).bpp = 32 ∨ (bihOf b).bpp = 24 := hh.bpp
  have hlen := hb.le_length
  have hopened : opened calls (bihOf b) = true := hreaches.opened
  have hbih := accepted_of_opened hopened
  have hheight : (bihOf b).height.toNat = (headerOf b).rows := hh.height_toNat
  have hrow : rowLength (bihOf b) = (headerOf b).pixelBytes * (headerOf b).columns := hh.rowLength
  have hline : (bihOf b).width.toNat * (bihOf b).bpp + 31 < 2 ^ 31 := by
    have hwidth := hbih.width_le
    rcases hbpp with hbpp | hbpp <;> rw [hbpp] <;> omega
  have hoffsets : ((bihOf b).height.toNat - 1) * lineBytes (bihOf b) < 2 ^ 31 := by
    rw [hheight]
    exact hh.offsets
  have hcopied : (bihOf b).height.toNat * rowLength (bihOf b) < 2 ^ 31 := by
    rw [hheight, hrow]
    exact hh.copied
  have hinside : RowsInside b (bihOf b) 40 := rowsInside_of_complete hbih hline hoffsets hbpp (by
    rw [hheight]
    exact hlen)
  have hcalls : (calls.writeInfo && calls.mallocRowPointers) = true := by
    rw [hreaches.writeInfo, hreaches.mallocRowPointers]
    rfl
  rw [save_eq (by omega) (by omega), if_pos hopened, if_pos hcalls,
    saveRows_eq_ok calls b hbih 40 [] hbpp hreaches.mallocTempRow hcopied hinside, hheight]
  -- No int product overflows, so that the rows are where the formula says.
  have hplaces : ∀ y ∈ List.range (headerOf b).rows,
      rowBytes b (bihOf b) (rowAt b (bihOf b) 40 y)
        = rowBytes b (bihOf b) (40 + ((headerOf b).rows - 1 - y) * (headerOf b).line) := by
    intro y hy
    have hy' : y < (bihOf b).height.toNat := by
      rw [hheight]
      exact List.mem_range.mp hy
    rw [rowAt_eq b hbih hline hoffsets hy', hheight]
    rfl
  rw [List.map_congr_left hplaces]

end

/-! ### The rows that are shown -/

/-- A byte that does not need more than 32 bits to point to. -/
theorem byte_add {b : Buffer} {src i k : Nat} (h : src + i + k < 2 ^ 32) :
    b.byte (src + (i + k)) = byteAt b.bytes (src + i + k) := by
  rw [Buffer.byte, ← Nat.add_assoc, Buffer.wrap_of_lt h]

section

variable {b : Buffer} (hh : Ordinary (headerOf b))
include hh

/-- A row is much less than what an int can have. -/
theorem Ordinary.row_lt : (headerOf b).pixelBytes * (headerOf b).columns < 2 ^ 29 := by
  have hbits : (headerOf b).columns * (headerOf b).bih.bpp < 2 ^ 31 := hh.bits
  rcases hh.depth with ⟨-, hbpp, hbytes⟩ | ⟨-, hbpp, hbytes⟩
  all_goals
    rw [hbpp] at hbits
    rw [hbytes]
    omega

/-- A pixel that is copied is the one that is shown, if it is taken from there. -/
theorem pixelBytes_eq {src r c : Nat}
    (hsrc : src = (headerOf b).bitsOffset + (headerOf b).lineOf r * (headerOf b).line)
    (hlt : src + (headerOf b).pixelBytes * c + 4 ≤ 2 ^ 32) :
    pixelBytes b (channelOrder (bihOf b).bpp) src c = shownPixel b r c := by
  have hp : (headerOf b).pixelOffset r c = src + (headerOf b).pixelBytes * c := by
    rw [BitmapInfoHeader.pixelOffset, ← hsrc]
  rw [shownPixel, hp]
  rcases hh.depth with ⟨hcount, hbpp, hbytes⟩ | ⟨hcount, hbpp, hbytes⟩
  · have hcopied : pixelBytes b (channelOrder 24) src c
        = [b.byte (src + (3 * c + 2)), b.byte (src + (3 * c + 1)),
           b.byte (src + (3 * c + 0))] := rfl
    change (bihOf b).bpp = 24 at hbpp
    rw [hbytes] at hlt
    rw [hbytes, hbpp, if_neg (by rw [hcount]; decide), hcopied, byte_add (by omega),
      byte_add (by omega), byte_add (by omega)]
    rfl
  · have hcopied : pixelBytes b (channelOrder 32) src c
        = [b.byte (src + (4 * c + 2)), b.byte (src + (4 * c + 1)), b.byte (src + (4 * c + 0)),
           b.byte (src + (4 * c + 3))] := rfl
    change (bihOf b).bpp = 32 at hbpp
    rw [hbytes] at hlt
    rw [hbytes, hbpp, if_pos hcount, hcopied, byte_add (by omega), byte_add (by omega),
      byte_add (by omega), byte_add (by omega)]
    rfl

/-- The same for a row. -/
theorem rowBytes_eq {src r : Nat}
    (hsrc : src = (headerOf b).bitsOffset + (headerOf b).lineOf r * (headerOf b).line)
    (hlt : src < 2 ^ 31 + 40) : rowBytes b (bihOf b) src = shownRow b r := by
  rw [rowBytes, shownRow]
  refine List.flatMap_congr (fun c hc => pixelBytes_eq hh hsrc ?_)
  have hle : (headerOf b).pixelBytes * c ≤ (headerOf b).pixelBytes * (headerOf b).columns :=
    Nat.mul_le_mul_left _ (Nat.le_of_lt (List.mem_range.mp hc))
  have hrow := hh.row_lt
  omega

end

theorem showsPicture_of_not_reaches {calls : PngCalls} {b : Buffer}
    (hh : Ordinary (headerOf b)) (hb : Complete b) (hreaches : ¬ Reaches calls (headerOf b)) :
    ShowsPicture calls b := by
  refine ⟨_, save_eq_cleanup hh hb hreaches, fun picture hpicture => ?_⟩
  exact absurd hpicture (by simp only [Saved.cleanup, reduceCtorEq, not_false_eq_true])

/-- A picture whose pixels are where they are taken to be is saved as it is shown. -/
theorem showsPicture_of_asTaken (calls : PngCalls) {b : Buffer} (hh : Ordinary (headerOf b))
    (hb : Complete b) (htaken : AsTaken (headerOf b)) : ShowsPicture calls b := by
  by_cases hreaches : Reaches calls (headerOf b)
  · refine ⟨_, save_eq_ok hh hb hreaches, fun picture hpicture => ?_⟩
    rw [Option.some.injEq] at hpicture
    subst hpicture
    refine List.map_congr_left (fun y hy => rowBytes_eq hh ?_ ?_)
    · have hstart : (headerOf b).bitsOffset = 40 := by
        rw [BitmapInfoHeader.bitsOffset, htaken.compression, htaken.clrUsed]
        rfl
      -- With one row it does not matter which is first.
      have hline : (headerOf b).lineOf y = (headerOf b).rows - 1 - y := by
        rw [BitmapInfoHeader.lineOf]
        rcases htaken.order with hup | hone
        · exact if_pos hup
        · have hy' := List.mem_range.mp hy
          split <;> omega
      rw [hstart, hline]
    · have hle : ((headerOf b).rows - 1 - y) * (headerOf b).line
          ≤ ((headerOf b).rows - 1) * (headerOf b).line := Nat.mul_le_mul_right _ (Nat.sub_le _ y)
      have hoffsets := hh.offsets
      omega
  · exact showsPicture_of_not_reaches hh hb hreaches

/-! ### A block with one pixel set -/

/-- The masks, if there are any. -/
def maskBytes (h : BitmapInfoHeader) : List UInt8 :=
  if h.biCompression = biBitfields then le32 0xff0000 ++ (le32 0xff00 ++ le32 0xff) else []

/-- The header, with the fields that say nothing about the pixels left empty. -/
def fieldBytes (h : BitmapInfoHeader) : List UInt8 :=
  le32 h.biSize ++ (le32 h.biWidth ++ (le32 h.biHeight ++ (le16 1 ++ (le16 h.biBitCount ++
    (le32 h.biCompression ++ (le32 0 ++ (le32 0 ++ (le32 0 ++ (le32 h.biClrUsed ++ le32 0)))))))))

def headerBytes (h : BitmapInfoHeader) : List UInt8 :=
  fieldBytes h ++ maskBytes h

/-- Where the red of the first pixel of the lowest row is, behind the masks. -/
def probeAt (h : BitmapInfoHeader) : Nat :=
  4 * h.biClrUsed.toNat + h.lineOf (h.rows - 1) * h.line + 2

/-- The colours and the pixels. -/
def probeBits (h : BitmapInfoHeader) : List UInt8 :=
  (List.replicate (4 * h.biClrUsed.toNat + h.rows * h.line) 0).set (probeAt h) 1

theorem length_maskBytes (h : BitmapInfoHeader) :
    (maskBytes h).length = if h.biCompression = biBitfields then 12 else 0 := by
  unfold maskBytes
  split <;> rfl

theorem length_headerBytes (h : BitmapInfoHeader) :
    (headerBytes h).length = 40 + if h.biCompression = biBitfields then 12 else 0 := by
  have hfields : (fieldBytes h).length = 40 := rfl
  rw [headerBytes, List.length_append, hfields, length_maskBytes]

theorem length_probeBits (h : BitmapInfoHeader) :
    (probeBits h).length = 4 * h.biClrUsed.toNat + h.rows * h.line := by
  rw [probeBits, List.length_set, List.length_replicate]

theorem byteAt_probeBits (h : BitmapInfoHeader) (i : Nat) :
    byteAt (probeBits h) i = if i = probeAt h ∧ i < (probeBits h).length then 1 else 0 := by
  rw [byteAt, List.getD_eq_getElem?_getD, length_probeBits, probeBits, List.getElem?_set,
    List.length_replicate, List.getElem?_replicate]
  by_cases hi : probeAt h = i
  · subst hi
    by_cases hlt : probeAt h < 4 * h.biClrUsed.toNat + h.rows * h.line
    · rw [if_pos rfl, if_pos hlt, if_pos ⟨rfl, hlt⟩]
      rfl
    · rw [if_pos rfl, if_neg hlt, if_neg (fun hboth => hlt hboth.2)]
      rfl
  · have hnot : ¬ (i = probeAt h ∧ i < 4 * h.biClrUsed.toNat + h.rows * h.line) :=
      fun hboth => hi hboth.1.symm
    rw [if_neg hi, if_neg hnot]
    split <;> rfl

/-- All sizes of a probe are far from the end of an address space. -/
theorem length_probe_le {h : BitmapInfoHeader} (hh : Ordinary h) :
    0x10000 + (headerBytes h ++ probeBits h).length ≤ 2 ^ 64 := by
  have hclr := h.biClrUsed.toNat_lt
  have hpos := hh.rows_pos
  have hoffsets := hh.offsets
  -- The colours have less than 2³⁴ bytes, and the rows less than 2³².
  have hall := mul_eq_pred_mul_add hpos h.line
  have hline : h.line ≤ 2 ^ 29 := by
    have hbits := hh.bits
    rw [BitmapInfoHeader.line]
    omega
  rw [List.length_append, length_headerBytes, length_probeBits]
  split <;> omega

/-- A block with this header that is empty but for one byte. -/
def probe (h : BitmapInfoHeader) (hh : Ordinary h) : Buffer :=
  Buffer.lowest (headerBytes h ++ probeBits h) (length_probe_le hh)

theorem probe_bytes (h : BitmapInfoHeader) (hh : Ordinary h) :
    (probe h hh).bytes = headerBytes h ++ probeBits h := rfl

theorem headerOf_probe (h : BitmapInfoHeader) (hh : Ordinary h) : headerOf (probe h hh) = h := by
  have hsize : (probe h hh).dword 0 = h.biSize :=
    dwordAt_le32_append _ ((probe h hh).bytes.drop 4)
  have hwidth : (probe h hh).dword 4 = h.biWidth :=
    dwordAt_le32_append _ ((probe h hh).bytes.drop 8)
  have hheight : (probe h hh).dword 8 = h.biHeight :=
    dwordAt_le32_append _ ((probe h hh).bytes.drop 12)
  have hcount : (probe h hh).word 14 = h.biBitCount :=
    word16At_le16_append _ ((probe h hh).bytes.drop 16)
  have hcompression : (probe h hh).dword 16 = h.biCompression :=
    dwordAt_le32_append _ ((probe h hh).bytes.drop 20)
  have hclr : (probe h hh).dword 32 = h.biClrUsed :=
    dwordAt_le32_append _ ((probe h hh).bytes.drop 36)
  rw [headerOf, hsize, hwidth, hheight, hcount, hcompression, hclr]

section

variable {h : BitmapInfoHeader} (hh : Ordinary h)

theorem complete_probe : Complete (probe h hh) := by
  refine ⟨?_, fun hmasks => ?_⟩
  · have hlen : (probe h hh).bytes.length = h.bitsOffset + h.rows * h.line := by
      rw [probe_bytes, List.length_append, length_headerBytes, length_probeBits,
        BitmapInfoHeader.bitsOffset]
      omega
    rw [headerOf_probe, hlen]
  · rw [headerOf_probe] at hmasks
    have hbytes : maskBytes h = le32 0xff0000 ++ (le32 0xff00 ++ le32 0xff) := if_pos hmasks
    have hread : ∀ i, dwordAt (probe h hh).bytes (40 + i)
        = dwordAt (maskBytes h ++ probeBits h) i := fun i => by
      rw [probe_bytes, headerBytes, List.append_assoc]
      exact dwordAt_append_right (fieldBytes h) _ i
    rw [hread 0, hread 4, hread 8, hbytes]
    exact ⟨dwordAt_le32_append 0xff0000 (le32 0xff00 ++ le32 0xff ++ probeBits h),
      dwordAt_le32_append 0xff00 (le32 0xff ++ probeBits h),
      dwordAt_le32_append 0xff (probeBits h)⟩

/-- The red that is shown first in the lowest row is set. -/
theorem byteAt_probe_shown :
    byteAt (probe h hh).bytes (h.pixelOffset (h.rows - 1) 0 + 2) = 1 := by
  have hpos := hh.rows_pos
  have hline := hh.line_pos
  have hoffset : h.pixelOffset (h.rows - 1) 0 + 2 = (headerBytes h).length + probeAt h := by
    rw [BitmapInfoHeader.pixelOffset, BitmapInfoHeader.bitsOffset, length_headerBytes, probeAt]
    omega
  have hle : h.lineOf (h.rows - 1) * h.line ≤ (h.rows - 1) * h.line := by
    refine Nat.mul_le_mul_right _ ?_
    rw [BitmapInfoHeader.lineOf]
    split <;> omega
  have hall := mul_eq_pred_mul_add hpos h.line
  have hinside : probeAt h < (probeBits h).length := by
    rw [length_probeBits, probeAt]
    omega
  rw [hoffset, probe_bytes, byteAt_append_right, byteAt_probeBits, if_pos ⟨rfl, hinside⟩]

/-- The red that is copied first from behind the header is the one that is set only if there is
    nothing in between, and the lowest row is the first one. -/
theorem asTaken_of_probe (hbyte : byteAt (probe h hh).bytes 42 = 1) : AsTaken h := by
  have hline := hh.line_pos
  have hpos := hh.rows_pos
  have hread : byteAt (probe h hh).bytes 42 = byteAt (maskBytes h ++ probeBits h) 2 := by
    rw [probe_bytes, headerBytes, List.append_assoc]
    exact byteAt_append_right (fieldBytes h) _ 2
  rw [hread] at hbyte
  by_cases hmasks : h.biCompression = biBitfields
  · have hbytes : maskBytes h = le32 0xff0000 ++ (le32 0xff00 ++ le32 0xff) := if_pos hmasks
    -- The third byte behind the header is of the mask for red.
    have hmask : byteAt (maskBytes h ++ probeBits h) 2 = 0xff := by
      rw [hbytes]
      rfl
    rw [hmask] at hbyte
    exact absurd hbyte (by decide)
  · have hnone : maskBytes h = [] := if_neg hmasks
    rw [hnone, List.nil_append, byteAt_probeBits] at hbyte
    by_cases hset : 2 = probeAt h ∧ 2 < (probeBits h).length
    · have hzero := hset.1
      rw [probeAt] at hzero
      refine ⟨?_, ?_, UInt32.toNat_inj.mp ?_⟩
      · have hfirst : h.lineOf (h.rows - 1) * h.line = 0 := by omega
        have hrow : h.lineOf (h.rows - 1) = 0 :=
          (Nat.mul_eq_zero.mp hfirst).resolve_right (by omega)
        rw [BitmapInfoHeader.lineOf] at hrow
        by_cases hup : 0 < h.height
        · exact Or.inl hup
        · rw [if_neg hup] at hrow
          exact Or.inr (by omega)
      · rcases hh.kind with ⟨-, hrgb⟩ | ⟨-, hrgb | hfields⟩
        · exact hrgb
        · exact hrgb
        · exact absurd hfields hmasks
      · have hnat : (0 : UInt32).toNat = 0 := rfl
        omega
    · rw [if_neg hset] at hbyte
      exact absurd hbyte (by decide)

end

/-! ### All pictures with a header -/

/-- A row begins with the red of its first pixel. -/
theorem head?_flatMap_range {n : Nat} (hn : 1 ≤ n) (f : Nat → List UInt8) {a : UInt8}
    (hf : (f 0).head? = some a) : ((List.range n).flatMap f).head? = some a := by
  rcases Nat.exists_eq_add_of_le' hn with ⟨m, hm⟩
  rw [hm, List.range_succ_eq_map, List.flatMap_cons, List.head?_append, hf]
  rfl

theorem head?_rowBytes {b : Buffer} (hh : Ordinary (headerOf b)) (src : Nat) :
    (rowBytes b (bihOf b) src).head? = some (b.byte (src + 2)) := by
  refine head?_flatMap_range hh.columns_pos _ ?_
  rw [pixelBytes, channelOrder]
  split <;> rfl

theorem head?_shownRow {b : Buffer} (hh : Ordinary (headerOf b)) (r : Nat) :
    (shownRow b r).head? = some (byteAt b.bytes ((headerOf b).pixelOffset r 0 + 2)) := by
  refine head?_flatMap_range hh.columns_pos _ ?_
  rw [shownPixel]
  split <;> rfl

/-- A picture that is shown begins its last row with the red right behind the header. -/
theorem byteAt_of_showsPicture {calls : PngCalls} {b : Buffer} (hh : Ordinary (headerOf b))
    (hb : Complete b) (hreaches : Reaches calls (headerOf b)) (hshows : ShowsPicture calls b) :
    byteAt b.bytes 42
      = byteAt b.bytes ((headerOf b).pixelOffset ((headerOf b).rows - 1) 0 + 2) := by
  rcases hshows with ⟨saved, hsaved, hrows⟩
  have hpos := hh.rows_pos
  rw [save_eq_ok hh hb hreaches, Except.ok.injEq] at hsaved
  have hrow := hrows _ (by rw [← hsaved])
  -- The last row is the one right behind the header.
  have hlast := List.map_inj_left.mp hrow _ (List.mem_range.mpr (Nat.sub_lt hpos Nat.one_pos))
  have hhead := congrArg List.head? hlast
  rw [Nat.sub_self, Nat.zero_mul, Nat.add_zero, head?_rowBytes hh, head?_shownRow hh,
    Option.some.injEq, Buffer.byte, Buffer.wrap_of_lt (by decide)] at hhead
  exact hhead

/-- All pictures with a header are saved as they are shown exactly when, if rows are handed
    over at all, the pixels are where they are taken to be. -/
theorem showsPicture_iff (calls : PngCalls) (h : BitmapInfoHeader) (hh : Ordinary h) :
    (∀ b, headerOf b = h → Complete b → ShowsPicture calls b) ↔
      (Reaches calls h → AsTaken h) := by
  constructor
  · intro hall hreaches
    have hheader := headerOf_probe h hh
    have hshows := hall (probe h hh) hheader (complete_probe hh)
    have hbyte := byteAt_of_showsPicture (hheader.symm ▸ hh) (complete_probe hh)
      (hheader.symm ▸ hreaches) hshows
    rw [hheader, byteAt_probe_shown hh] at hbyte
    exact asTaken_of_probe hh hbyte
  · intro htaken b hheader hb
    have hb' : Ordinary (headerOf b) := hheader.symm ▸ hh
    by_cases hreaches : Reaches calls h
    · exact showsPicture_of_asTaken calls hb' hb (hheader.symm ▸ htaken hreaches)
    · exact showsPicture_of_not_reaches hb' hb (hheader.symm ▸ hreaches)

/-- One column and two rows of 24 bits, from the lowest one on. -/
def bottomUpHeader : BitmapInfoHeader :=
  { biSize := 40, biWidth := 1, biHeight := 2, biBitCount := 24, biCompression := biRgb,
    biClrUsed := 0 }

theorem ordinary_bottomUpHeader : Ordinary bottomUpHeader :=
  ⟨rfl, by decide, by decide, Or.inl ⟨rfl, rfl⟩, by decide, by decide, by decide⟩

/-- The rows are handed over, and any colours are saved as they are shown. -/
theorem showsPicture_bottomUp :
    Reaches succeeding bottomUpHeader ∧
      ∀ b, headerOf b = bottomUpHeader → Complete b → ShowsPicture succeeding b := by
  have hreaches : Reaches succeeding bottomUpHeader := ⟨by decide +kernel, rfl, rfl, rfl⟩
  exact ⟨hreaches, (showsPicture_iff succeeding bottomUpHeader ordinary_bottomUpHeader).mpr
    fun _ => ⟨Or.inl (by decide), rfl, rfl⟩⟩

/-! ### A picture from the top down -/

/-- The same with a negative height. -/
def topDownHeader : BitmapInfoHeader :=
  { bottomUpHeader with biHeight := 0xfffffffe }

/-- The upper pixel is in front of the lower one, each with a byte of padding. -/
def topDown : Buffer :=
  Buffer.lowest (headerBytes topDownHeader ++ [1, 2, 3, 0, 4, 5, 6, 0]) (by decide)

/-- The lower pixel is saved above the upper one. -/
theorem not_showsPicture_topDown :
    Ordinary (headerOf topDown) ∧ Complete topDown ∧ ¬ ShowsPicture succeeding topDown := by
  have hheader : headerOf topDown = topDownHeader := by decide +kernel
  have hshown : (List.range (headerOf topDown).rows).map (shownRow topDown)
      = [[3, 2, 1], [6, 5, 4]] := by decide +kernel
  have hsaved : saveClipboardImageAsPNG succeeding topDown
      = .ok { result := true,
              handed := some { palette := [], rows := [[6, 5, 4], [3, 2, 1]] } } := by
    decide +kernel
  refine ⟨?_, ⟨?_, ?_⟩, ?_⟩
  · rw [hheader]
    exact ⟨rfl, by decide, by decide, Or.inl ⟨rfl, rfl⟩, by decide, by decide, by decide⟩
  · rw [hheader]
    decide
  · rw [hheader]
    exact fun hmasks => absurd hmasks (by decide)
  · rintro ⟨saved, hok, hrows⟩
    rw [hsaved, Except.ok.injEq] at hok
    have hsame := hrows _ (by rw [← hok])
    rw [hshown] at hsame
    exact absurd hsame (by decide)

end Clipboard

end Defender
