import Mathlib.Algebra.Group.Nat.Defs
import Mathlib.Algebra.Group.Int.Defs
import Defender.Clipboard.PngRows

/-!
# Saving the Image Inside the Block

The size of the block is not asked for, and neither is whether what the header
says fits into it. So what must be in the block is read off the function step by
step: the fields of the header, the colours, which must also fit into an array
of 256, and for every row as many bytes as libpng reads.

The rows are not always what the DIB has. Pictures of 16 bits are handed over as
pictures of three bytes a pixel, and those of 1 and 4 bits as pictures of one,
while the rows follow each other as the DIB has them. The last row of a complete
block then ends behind it.

`temp_row` is allocated with a product that is an int. The rows fit exactly
while the product does in 32 bits without a sign: from 2³¹ on the size and the
offsets are both taken from the end of the address space, and from 2³² on the
last row that begins below it does not end there.

## Main definitions

* `pixelsOf`, `colorsOf`: What the function computes from the header.
* `ColorAt`, `ColorsInside`: The colours are in the block, and fit.
* `pngRow`: The bytes that libpng reads of a row.
* `RowsInside`: The rows are in the block, and fit.
* `Hands`: The calls up to `png_write_image` succeed.
* `InBlock`: What a block must have.
* `succeeding`, `narrowImage`: A complete picture of 16 bits.

## Theorems

* `room_iff`: When the rows fit into `temp_row`.
* `safe_saveRows_iff`, `safe_savePicture_iff`: The rows, and the colours.
* `saveClipboardImageAsPNG_safe_iff`: The function stays inside exactly when the
  block has what it must have.
* `rowsInside_iff`: Without overflow it is the first row that counts.
* `rowsInside_of_complete`: A complete block of 24 or 32 bits has the rows.
* `saveClipboardImageAsPNG_narrowImage`: A complete block, left behind its end.
-/

namespace Defender

namespace Clipboard

open Wire CString Reads

/-- `colors` of a block. -/
def colorsOf (b : Buffer) : Int :=
  colors (bihOf b).bpp (b.dword 32)

/-- `pixels` of a block. -/
def pixelsOf (b : Buffer) : Nat :=
  if (bihOf b).bpp ≤ 8 then b.move 40 (4 * colorsOf b) else 40

/-- Three bytes of a colour are read. -/
def ColorAt (b : Buffer) (i : Nat) : Prop :=
  b.Has (40 + 4 * i + 2) 1 ∧ b.Has (40 + 4 * i + 1) 1 ∧ b.Has (40 + 4 * i) 1

/-- No more colours than `png_palette` has, and the last one up to its red. -/
def ColorsInside (b : Buffer) : Prop :=
  colorsOf b ≤ 256 ∧ (0 < colorsOf b → 39 + 4 * colorsOf b ≤ b.bytes.length)

/-- What the header of the PNG says that a row has. -/
def pngRow (bih : Bih) : Nat :=
  (colorType bih.bpp).channels * bih.width.toNat

/-- The rows are in the block, and those that are copied fit. -/
structure RowsInside (b : Buffer) (bih : Bih) (pixels : Nat) : Prop where
  block : ∀ y < bih.height.toNat, b.Has (rowAt b bih pixels y) (pngRow bih)
  temp : bih.bpp = 32 ∨ bih.bpp = 24 → bih.height.toNat * pngRow bih < 2 ^ 32

/-- The calls before `png_write_image` succeed. -/
structure Hands (calls : PngCalls) (b : Buffer) : Prop where
  opened : opened calls (bihOf b) = true
  setPLTE : (bihOf b).bpp ≤ 8 → calls.setPLTE (colorsOf b) = true
  writeInfo : calls.writeInfo = true
  mallocRowPointers : calls.mallocRowPointers = true
  mallocTempRow : (bihOf b).bpp = 32 ∨ (bihOf b).bpp = 24 → calls.mallocTempRow = true

/-- The block has the fields that are read, and where the calls succeed the colours
    and the rows. -/
structure InBlock (calls : PngCalls) (b : Buffer) : Prop where
  fields : 16 ≤ b.bytes.length
  count : (bihOf b).bpp ≤ 8 → 36 ≤ b.bytes.length
  colors : opened calls (bihOf b) = true → (bihOf b).bpp ≤ 8 → ColorsInside b
  rows : Hands calls b → RowsInside b (bihOf b) (pixelsOf b)

/-! ### The room in `temp_row` -/

/-- A product of 32 bits as a size: from 2³¹ on it counts from the end. -/
theorem sizeT_int32 (b : Buffer) {n : Nat} (h : n < 2 ^ 32) :
    b.sizeT (int32 n) = if n < 2 ^ 31 then n else 2 ^ b.bits - 2 ^ 32 + n := by
  have hpow := b.pow_le
  by_cases hlow : n < 2 ^ 31
  · rw [if_pos hlow, int32_eq (by omega) (by omega)]
    exact Buffer.sizeT_natCast (by omega)
  · have hint : int32 n = (n : Int) - (2 ^ 32 : Nat) := by
      have hsize : ((2 ^ 32 : Nat) : Int) = 4294967296 := rfl
      rw [int32, Int.bmod, hsize]
      omega
    rw [if_neg hlow, hint]
    exact Buffer.sizeT_sub h hpow

/-- The rows fit into what is allocated while all their bytes are less than 2³². -/
theorem room_iff (b : Buffer) {bih : Bih} (hbih : Accepted bih) :
    (∀ y ∈ List.range bih.height.toNat,
        dstAt b bih y + rowLength bih ≤ b.sizeT (int32 (bih.height * dstStride bih))) ↔
      bih.height.toNat * rowLength bih < 2 ^ 32 := by
  have hpow := b.pow_le
  rcases rowLength_bounds hbih with ⟨hpos, hle⟩
  have hoffset : ∀ y, dstAt b bih y = b.sizeT (int32 ((y * rowLength bih : Nat) : Int)) :=
    fun y => by rw [dstAt, dstStride_eq hbih, Int.natCast_mul]
  have hall : b.sizeT (int32 (bih.height * dstStride bih))
      = b.sizeT (int32 ((bih.height.toNat * rowLength bih : Nat) : Int)) := by
    rw [dstStride_eq hbih, Int.natCast_mul, ← hbih.height]
  rw [hall]
  constructor
  · intro h
    by_contra hlarge
    -- The last row that begins below 2³² ends at the end of the address space.
    have hbelow : (2 ^ 32 - 1) / rowLength bih * rowLength bih ≤ 2 ^ 32 - 1 :=
      Nat.div_mul_le_self _ _
    have hnext := Nat.lt_div_mul_add (a := 2 ^ 32 - 1) (b := rowLength bih) hpos
    have hrow : (2 ^ 32 - 1) / rowLength bih < bih.height.toNat :=
      Nat.lt_of_mul_lt_mul_right (a := rowLength bih) (by omega)
    have hfits := h _ (List.mem_range.mpr hrow)
    have hsize := b.sizeT_lt (int32 ((bih.height.toNat * rowLength bih : Nat) : Int))
    rw [hoffset, sizeT_int32 b (by omega), if_neg (by omega)] at hfits
    omega
  · intro h y hy
    -- The row ends where the next one begins, which is not behind the last one.
    have hrow : y * rowLength bih + rowLength bih ≤ bih.height.toNat * rowLength bih := by
      rw [← Nat.succ_mul]
      exact Nat.mul_le_mul_right _ (List.mem_range.mp hy)
    rw [hoffset, sizeT_int32 b (by omega), sizeT_int32 b h]
    split
    · split <;> omega
    · rw [if_neg (by omega)]
      omega

/-! ### The rows -/

/-- What is copied has the bytes that libpng reads. -/
theorem pngRow_eq {bih : Bih} (h : bih.bpp = 32 ∨ bih.bpp = 24) : pngRow bih = rowLength bih := by
  rw [pngRow, rowLength, colorType, channelOrder]
  rcases h with h | h <;> rw [h] <;> rfl

/-- A row of 24 or 32 bits is not shorter in the block than in the PNG. -/
theorem pngRow_le {bih : Bih} (h : bih.bpp = 32 ∨ bih.bpp = 24) :
    pngRow bih ≤ lineBytes bih := by
  rw [pngRow_eq h, rowLength, lineBytes, length_channelOrder]
  rcases h with h | h <;> rw [h]
  · rw [if_pos rfl]
    omega
  · rw [if_neg (by decide)]
    omega

section

variable (calls : PngCalls) (b : Buffer) {bih : Bih} (hbih : Accepted bih) (pixels : Nat)
include hbih

/-- All rows can be copied. -/
theorem rowInside_iff (h : bih.bpp = 32 ∨ bih.bpp = 24) :
    (∀ y ∈ List.range bih.height.toNat,
        RowInside b bih pixels (tempRow calls b bih).length y) ↔
      RowsInside b bih pixels := by
  have hroom := room_iff b hbih
  have hlen := length_tempRow calls b bih
  constructor
  · intro hrows
    refine ⟨fun y hy => ?_, fun _ => ?_⟩
    · rw [pngRow_eq h]
      exact (hrows y (List.mem_range.mpr hy)).1
    · rw [pngRow_eq h, ← hroom]
      intro y hy
      rw [← hlen]
      exact (hrows y hy).2
  · intro hrows y hy
    have hsize := hrows.temp h
    rw [pngRow_eq h, ← hroom] at hsize
    refine ⟨?_, ?_⟩
    · rw [← pngRow_eq h]
      exact hrows.block y (List.mem_range.mp hy)
    · rw [hlen]
      exact hsize y hy

/-- The rows that are copied can then be read. -/
theorem safe_saveCopied_iff (palette : List PngColor) (h : bih.bpp = 32 ∨ bih.bpp = 24)
    (hmalloc : calls.mallocTempRow = true) :
    Safe (saveRows calls b bih pixels palette) ↔ RowsInside b bih pixels := by
  have hpointers := length_rowPointers b hbih
  rw [saveRows, if_pos h, if_pos hmalloc, ← rowInside_iff calls b hbih pixels h]
  constructor
  · intro hsafe
    rcases (safe_bind_iff _ _).mp hsafe with ⟨s, hs, -⟩
    exact (copyRows_safe_iff hbih pixels _ _ hpointers).mp ⟨s, hs⟩
  · intro hrows
    rw [copyRows_eq_ok hbih pixels _ _ hpointers hrows, ok_bind, safe_bind_pure_iff,
      writeImage_safe_iff]
    intro y hy
    refine (safe_readIf_iff _ _).mpr ?_
    -- A row that was written can be read.
    rw [length_copied b bih pixels _ hrows]
    have hfits := (hrows y hy).2
    rw [← pngRow_eq h] at hfits
    exact hfits

/-- Where `temp_row` is allocated if it is needed, the rows must be in the block and fit. -/
theorem safe_saveRows_iff (palette : List PngColor) :
    Safe (saveRows calls b bih pixels palette) ↔
      ((bih.bpp = 32 ∨ bih.bpp = 24 → calls.mallocTempRow = true) →
        RowsInside b bih pixels) := by
  by_cases h : bih.bpp = 32 ∨ bih.bpp = 24
  · by_cases hmalloc : calls.mallocTempRow = true
    · rw [safe_saveCopied_iff calls b hbih pixels palette h hmalloc]
      exact ⟨fun hrows _ => hrows, fun hrows => hrows (fun _ => hmalloc)⟩
    · rw [saveRows, if_pos h, if_neg hmalloc]
      exact iff_of_true (safe_ok _) (fun hneeded => absurd (hneeded h) hmalloc)
  · rw [saveRows, if_neg h, pointRows_eq_ok b bih pixels _ (length_rowPointers b hbih), ok_bind,
      safe_bind_pure_iff, writeImage_safe_iff]
    constructor
    · intro hrows _
      exact ⟨fun y hy => (safe_readIf_iff _ _).mp (hrows y (List.mem_range.mpr hy)),
        fun hcopied => absurd hcopied h⟩
    · intro hrows y hy
      exact (safe_readIf_iff _ _).mpr
        ((hrows (fun hcopied => absurd hcopied h)).block y (List.mem_range.mp hy))

end

/-! ### The colours -/

section

variable (b : Buffer) (palette : List PngColor) (i : Nat)

theorem copyColor_safe_iff :
    Safe (copyColor b palette i) ↔ ColorAt b i ∧ i < palette.length := by
  rw [copyColor, safe_readByte_bind, safe_readByte_bind, safe_readByte_bind, store_safe_iff,
    ColorAt, and_assoc, and_assoc]

theorem length_copyColor {palette' : List PngColor} (h : copyColor b palette i = .ok palette') :
    palette'.length = palette.length := by
  rcases (copyColor_safe_iff b palette i).mp ⟨palette', h⟩ with ⟨⟨hred, hgreen, hblue⟩, hi⟩
  rw [copyColor, readByte_eq_ok hred, ok_bind, readByte_eq_ok hgreen, ok_bind,
    readByte_eq_ok hblue, ok_bind, store_eq_ok _ hi, Except.ok.injEq] at h
  rw [← h, List.length_set]

end

/-- The array has 256 elements, and the last colour is read up to its red. -/
theorem readPalette_safe_iff (calls : PngCalls) (b : Buffer) (colors : Int) :
    Safe (readPalette calls b colors) ↔
      colors ≤ 256 ∧ (0 < colors → 39 + 4 * colors ≤ b.bytes.length) := by
  have hloop := safe_foldlM_iff (copyColor b) (fun palette => palette.length = 256)
    (fun i => ColorAt b i ∧ i < 256) (List.range colors.toNat)
    (fun palette hpalette i _ => by rw [copyColor_safe_iff, hpalette])
    (fun palette palette' hpalette i _ hstep => (length_copyColor b palette i hstep).trans hpalette)
    ((List.range 256).map calls.stack) (by rw [List.length_map, List.length_range])
  rw [readPalette, hloop]
  constructor
  · intro h
    -- With more colours the one with the number 256 is stored.
    have hcount : colors ≤ 256 := by
      by_contra hmany
      exact absurd (h 256 (List.mem_range.mpr (by omega))).2 (Nat.lt_irrefl 256)
    refine ⟨hcount, fun hpos => ?_⟩
    -- The last byte that is read is the red of the last colour.
    have hlast := (h (colors.toNat - 1) (List.mem_range.mpr (by omega))).1.1
    rw [Buffer.has_iff_of_lt (by omega)] at hlast
    omega
  · rintro ⟨hcount, hlen⟩ i hi
    have hi' := List.mem_range.mp hi
    have hroom := hlen (by omega)
    refine ⟨?_, by omega⟩
    rw [ColorAt, Buffer.has_iff_of_lt (by omega), Buffer.has_iff_of_lt (by omega),
      Buffer.has_iff_of_lt (by omega)]
    omega

/-! ### The function -/

section

variable {calls : PngCalls} {b : Buffer} (hopened : opened calls (bihOf b) = true)
include hopened

/-- What follows the colours, when they are accepted. -/
theorem safe_saveImage_iff (palette : List PngColor)
    (hplte : (bihOf b).bpp ≤ 8 → calls.setPLTE (colorsOf b) = true) :
    Safe (saveImage calls b (bihOf b) (pixelsOf b) (some palette)) ↔
      (Hands calls b → RowsInside b (bihOf b) (pixelsOf b)) := by
  rw [saveImage]
  by_cases h : (calls.writeInfo && calls.mallocRowPointers) = true
  · rw [if_pos h, safe_saveRows_iff calls b (accepted_of_opened hopened)]
    rw [Bool.and_eq_true] at h
    exact ⟨fun hrows hhands => hrows hhands.mallocTempRow,
      fun hrows htemp => hrows ⟨hopened, hplte, h.1, h.2, htemp⟩⟩
  · rw [if_neg h]
    -- Nothing is handed over, and nothing more is read.
    refine iff_of_true (safe_ok _) (fun hhands => absurd ?_ h)
    rw [Bool.and_eq_true]
    exact ⟨hhands.writeInfo, hhands.mallocRowPointers⟩

/-- The colours, where there are any, and the rows. -/
theorem safe_savePicture_iff (hcount : (bihOf b).bpp ≤ 8 → 36 ≤ b.bytes.length) :
    Safe (savePicture calls b (bihOf b) (pixelsOf b)) ↔
      ((bihOf b).bpp ≤ 8 → ColorsInside b) ∧
        (Hands calls b → RowsInside b (bihOf b) (pixelsOf b)) := by
  rw [savePicture, setPalette]
  by_cases h : (bihOf b).bpp ≤ 8
  · have hread : b.Has 32 4 := (Buffer.has_iff_of_lt (by decide)).mpr (hcount h)
    have hcolors := readPalette_safe_iff calls b (colorsOf b)
    rw [if_pos h, readDword_eq_ok hread, ok_bind, bind_assoc, safe_bind_iff]
    constructor
    · rintro ⟨palette, hpalette, hsafe⟩
      refine ⟨fun _ => hcolors.mp ⟨palette, hpalette⟩, fun hhands => ?_⟩
      have hplte : calls.setPLTE (colors (bihOf b).bpp (b.dword 32)) = true := hhands.setPLTE h
      rw [pure_bind, if_pos hplte] at hsafe
      exact (safe_saveImage_iff hopened _ hhands.setPLTE).mp hsafe hhands
    · rintro ⟨hinside, hrows⟩
      rcases hcolors.mpr (hinside h) with ⟨palette, hpalette⟩
      refine ⟨palette, hpalette, ?_⟩
      rw [pure_bind]
      by_cases hplte : calls.setPLTE (colors (bihOf b).bpp (b.dword 32)) = true
      · rw [if_pos hplte]
        exact (safe_saveImage_iff hopened _ (fun _ => hplte)).mpr hrows
      · rw [if_neg hplte]
        exact safe_ok _
  · rw [if_neg h, pure_bind, safe_saveImage_iff hopened _ (fun hle => absurd hle h)]
    exact (and_iff_right (fun hle => absurd hle h)).symm

end

theorem safe_readBih_bind {β : Type} (b : Buffer) (f : Bih → Except Fault β) :
    Safe (readBih b >>= f) ↔ 16 ≤ b.bytes.length ∧ Safe (f (bihOf b)) := by
  rw [readBih, bind_assoc, safe_readDword_bind, bind_assoc, safe_readDword_bind, bind_assoc,
    safe_readWord_bind, pure_bind, Buffer.has_iff_of_lt (by decide),
    Buffer.has_iff_of_lt (by decide), Buffer.has_iff_of_lt (by decide)]
  constructor
  · rintro ⟨-, -, hlen, hsafe⟩
    exact ⟨hlen, hsafe⟩
  · rintro ⟨hlen, hsafe⟩
    exact ⟨by omega, by omega, hlen, hsafe⟩

theorem safe_readPixels_bind {β : Type} (b : Buffer) (f : Nat → Except Fault β) :
    Safe (readPixels b (bihOf b).bpp >>= f) ↔
      ((bihOf b).bpp ≤ 8 → 36 ≤ b.bytes.length) ∧ Safe (f (pixelsOf b)) := by
  rw [readPixels, pixelsOf]
  by_cases h : (bihOf b).bpp ≤ 8
  · rw [if_pos h, if_pos h, bind_assoc, safe_readDword_bind, pure_bind,
      Buffer.has_iff_of_lt (by decide)]
    exact and_congr_left (fun _ => ⟨fun hlen _ => hlen, fun hlen => hlen h⟩)
  · rw [if_neg h, if_neg h, pure_bind]
    exact (and_iff_right (fun hle => absurd hle h)).symm

/-- The function stays in the block, and in what it allocates, exactly when the block has
    what it must have. -/
theorem saveClipboardImageAsPNG_safe_iff (calls : PngCalls) (b : Buffer) :
    Safe (saveClipboardImageAsPNG calls b) ↔ InBlock calls b := by
  rw [saveClipboardImageAsPNG, safe_readBih_bind, safe_readPixels_bind]
  by_cases hopened : opened calls (bihOf b) = true
  · rw [if_pos hopened]
    constructor
    · rintro ⟨hfields, hcount, hsafe⟩
      rcases (safe_savePicture_iff hopened hcount).mp hsafe with ⟨hcolors, hrows⟩
      exact ⟨hfields, hcount, fun _ => hcolors, hrows⟩
    · intro h
      exact ⟨h.fields, h.count,
        (safe_savePicture_iff hopened h.count).mpr ⟨h.colors hopened, h.rows⟩⟩
  · rw [if_neg hopened]
    constructor
    · rintro ⟨hfields, hcount, -⟩
      exact ⟨hfields, hcount, fun h => absurd h hopened, fun h => absurd h.opened hopened⟩
    · intro h
      exact ⟨h.fields, h.count, safe_ok _⟩

/-! ### Sizes that do not overflow -/

section

variable {b : Buffer} {bih : Bih} (hbih : Accepted bih)
  (hline : bih.width.toNat * bih.bpp + 31 < 2 ^ 31)
  (hrows : (bih.height.toNat - 1) * lineBytes bih < 2 ^ 31)
include hbih hline hrows

/-- The row that is handed over first is the last one of the block, and the others are in
    front of it. -/
theorem rowsInside_iff :
    (∀ y < bih.height.toNat, b.Has (rowAt b bih 40 y) (pngRow bih)) ↔
      40 + (bih.height.toNat - 1) * lineBytes bih + pngRow bih ≤ b.bytes.length := by
  have hpos := hbih.height_pos
  constructor
  · intro h
    -- The first pass takes the row that is last in the block.
    have hfirst := h 0 hpos
    rw [rowAt_eq b hbih hline hrows hpos, Nat.sub_zero,
      Buffer.has_iff_of_lt (by omega)] at hfirst
    exact hfirst
  · intro h y hy
    have hle : (bih.height.toNat - 1 - y) * lineBytes bih
        ≤ (bih.height.toNat - 1) * lineBytes bih := Nat.mul_le_mul_right _ (Nat.sub_le _ y)
    rw [rowAt_eq b hbih hline hrows hy, Buffer.has_iff_of_lt (by omega)]
    omega

/-- All rows of a block of 24 or 32 bits that has them all. -/
theorem rowsInside_of_complete (h : bih.bpp = 32 ∨ bih.bpp = 24)
    (hlen : 40 + bih.height.toNat * lineBytes bih ≤ b.bytes.length) : RowsInside b bih 40 := by
  have hpos := hbih.height_pos
  have hle := pngRow_le h
  have hall := mul_eq_pred_mul_add hpos (lineBytes bih)
  have hsmall : lineBytes bih ≤ 4000000 + 4 := by
    have hwidth := hbih.width_le
    rw [lineBytes]
    rcases h with h | h <;> rw [h] <;> omega
  refine ⟨(rowsInside_iff hbih hline hrows).mpr (by omega), fun _ => ?_⟩
  have hmul : bih.height.toNat * pngRow bih ≤ bih.height.toNat * lineBytes bih :=
    Nat.mul_le_mul_left _ hle
  omega

end

/-! ### A picture of 16 bits -/

/-- Calls that all succeed, within what libpng accepts. -/
def succeeding : PngCalls where
  fopen := true
  createWriteStruct := true
  createInfoStruct := true
  setIHDR := fun width height _ =>
    decide ((1 ≤ width ∧ width ≤ 1000000) ∧ 1 ≤ height ∧ height ≤ 1000000)
  setPLTE := fun n => decide (1 ≤ n ∧ n ≤ 256)
  writeInfo := true
  mallocRowPointers := true
  mallocTempRow := true
  writeImage := true
  stack := fun _ => { red := 0, green := 0, blue := 0 }
  heap := fun _ => 0
  limits := fun _ _ _ h => of_decide_eq_true h

/-- Two pixels of 16 bits, with nothing left out. -/
def narrowImage : Buffer :=
  Buffer.lowest
    (le32 40 ++ le32 2 ++ le32 1 ++ le16 1 ++ le16 16 ++ le32 0 ++ le32 4 ++ le32 0 ++ le32 0 ++
      le32 0 ++ le32 0 ++ [0x1f, 0x7c, 0xe0, 0x03]) (by decide)

/-- The row has four bytes, and libpng reads six. -/
theorem saveClipboardImageAsPNG_narrowImage :
    ¬ Safe (saveClipboardImageAsPNG succeeding narrowImage) := by
  have hread : saveClipboardImageAsPNG succeeding narrowImage = .error .overrun := by
    decide +kernel
  rw [hread]
  exact not_safe_error _

end Clipboard

end Defender
