import Mathlib.Algebra.Group.Nat.Defs
import Mathlib.Algebra.Group.Int.Defs
import Defender.Clipboard.SavePng

/-!
# What the Loops of the PNG Do

The rows of a picture are copied pixel by pixel and row by row, and what is
copied is put together here: the pixels of a row are one piece of the block, and
the rows follow one another in `temp_row`.

A picture whose header was accepted has at most a million pixels in a row and a
million rows. That makes `dst_stride` a number of bytes, and the array of
pointers one with an element for every row. It does not make `height * dst_stride`
an int.

## Main definitions

* `bihOf`: The header of a block.
* `Accepted`: The sizes that libpng accepts.
* `rowLength`, `lineBytes`: The bytes of a row, copied and in the block.
* `dstAt`: Where a row goes.
* `pixelBytes`, `rowBytes`: What is copied.
* `RowInside`: A row that can be copied.

## Theorems

* `accepted_of_opened`: What `png_set_IHDR` accepts.
* `length_rowPointers`: There is a pointer for every row.
* `dstStride_eq`, `stride_eq`, `rowAt_eq`: What is computed without overflow.
* `copyRow_safe_iff`, `copyRow_eq_ok`: A row.
* `copyRows_safe_iff`, `copyRows_eq_ok`: All rows.
* `pointRows_eq_ok`: The pointers into the block.
* `writeImage_safe_iff`, `writeImage_eq_ok`: The rows that are handed over.
-/

namespace Defender

namespace Clipboard

open Wire CString Reads

/-- What `readBih` reads. -/
def bihOf (b : Buffer) : Bih :=
  Bih.new (b.dword 4) (b.dword 8) (b.word 14)

/-- A picture of one pixel at least, and of a million in each direction at most. -/
structure Accepted (bih : Bih) : Prop where
  width_pos : 1 ≤ bih.width.toNat
  width_le : bih.width.toNat ≤ 1000000
  height_pos : 1 ≤ bih.height.toNat
  height_le : bih.height.toNat ≤ 1000000

/-- The bytes of a row that is copied. -/
def rowLength (bih : Bih) : Nat :=
  (channelOrder bih.bpp).length * bih.width.toNat

/-- The bytes of a row in the block, without the limits of an int. -/
def lineBytes (bih : Bih) : Nat :=
  (bih.width.toNat * bih.bpp + 31) / 32 * 4

/-- The offset of a row in `temp_row`. -/
def dstAt (b : Buffer) (bih : Bih) (y : Nat) : Nat :=
  b.sizeT (int32 (y * dstStride bih))

/-- A pixel as the PNG has it. -/
def pixelBytes (b : Buffer) (order : List Nat) (src x : Nat) : List UInt8 :=
  order.map fun k => b.byte (src + (order.length * x + k))

/-- The pixels of a row. -/
def rowBytes (b : Buffer) (bih : Bih) (src : Nat) : List UInt8 :=
  (List.range bih.width.toNat).flatMap (pixelBytes b (channelOrder bih.bpp) src)

/-- A row is in the block, and where it goes is in `temp_row`, which has `n` bytes. -/
def RowInside (b : Buffer) (bih : Bih) (pixels n y : Nat) : Prop :=
  b.Has (rowAt b bih pixels y) (rowLength bih) ∧ dstAt b bih y + rowLength bih ≤ n

/-- The last row, and those in front of it. -/
theorem mul_eq_pred_mul_add {n : Nat} (h : 1 ≤ n) (m : Nat) : n * m = (n - 1) * m + m := by
  rw [← Nat.succ_mul, Nat.succ_eq_add_one, Nat.sub_add_cancel h]

/-! ### Ints -/

theorem int32_eq {n : Int} (hlow : -2147483648 ≤ n) (hhigh : n < 2147483648) : int32 n = n := by
  have hsize : ((2 ^ 32 : Nat) : Int) = 4294967296 := rfl
  rw [int32, Int.bmod, hsize]
  omega

theorem int32_range (n : Int) : -2147483648 ≤ int32 n ∧ int32 n < 2147483648 := by
  have hsize : ((2 ^ 32 : Nat) : Int) = 4294967296 := rfl
  rw [int32, Int.bmod, hsize]
  omega

theorem toInt_range (w : UInt32) :
    -2147483648 ≤ w.toInt32.toInt ∧ w.toInt32.toInt < 2147483648 := by
  have hsigned := toInt_ofNat w.toNat
  rw [UInt32.ofNat_toNat] at hsigned
  omega

/-- An int that is a small number as a `png_uint_32`. -/
theorem eq_of_uint32_le {n : Int} (hlow : -2147483648 ≤ n) (hhigh : n < 2147483648)
    (hle : uint32 n ≤ 1000000) : uint32 n = n.toNat := by
  have hsize : (2 : Int) ^ 32 = 4294967296 := by decide
  unfold uint32 at *
  rw [hsize] at *
  omega

theorem bihOf_height (b : Buffer) :
    (bihOf b).height = int32 (b.dword 8).toInt32.toInt.natAbs := by
  rw [bihOf, Bih.new]

/-- What `png_set_IHDR` accepts of the ints of a header. -/
theorem accepted_of_opened {calls : PngCalls} {b : Buffer} (h : opened calls (bihOf b) = true) :
    Accepted (bihOf b) := by
  rw [opened, Bool.and_eq_true] at h
  rcases calls.limits _ _ _ h.2 with ⟨⟨hwpos, hwle⟩, hhpos, hhle⟩
  have hwidth : -2147483648 ≤ (bihOf b).width ∧ (bihOf b).width < 2147483648 := toInt_range _
  have hheight : -2147483648 ≤ (bihOf b).height ∧ (bihOf b).height < 2147483648 := by
    rw [bihOf_height]
    exact int32_range _
  have hw : uint32 (bihOf b).width = (bihOf b).width.toNat :=
    eq_of_uint32_le hwidth.1 hwidth.2 hwle
  have hh : uint32 (bihOf b).height = (bihOf b).height.toNat :=
    eq_of_uint32_le hheight.1 hheight.2 hhle
  rw [hw] at hwpos hwle
  rw [hh] at hhpos hhle
  exact ⟨hwpos, hwle, hhpos, hhle⟩

theorem Accepted.width {bih : Bih} (h : Accepted bih) : bih.width = bih.width.toNat := by
  have hpos := h.width_pos
  omega

theorem Accepted.height {bih : Bih} (h : Accepted bih) : bih.height = bih.height.toNat := by
  have hpos := h.height_pos
  omega

/-! ### The memory for the rows -/

theorem length_channelOrder (bpp : Nat) :
    (channelOrder bpp).length = if bpp = 32 then 4 else 3 := by
  unfold channelOrder
  split <;> rfl

/-- The bytes of a pixel are those up to its length. -/
theorem mem_channelOrder (bpp k : Nat) :
    k ∈ channelOrder bpp ↔ k < (channelOrder bpp).length := by
  unfold channelOrder
  split
  · simp only [List.mem_cons, List.not_mem_nil, or_false, List.length_cons, List.length_nil]
    omega
  · simp only [List.mem_cons, List.not_mem_nil, or_false, List.length_cons, List.length_nil]
    omega

theorem rowLength_bounds {bih : Bih} (h : Accepted bih) :
    1 ≤ rowLength bih ∧ rowLength bih ≤ 4000000 := by
  have hpos := h.width_pos
  have hle := h.width_le
  rw [rowLength, length_channelOrder]
  split <;> omega

theorem dstStride_eq {bih : Bih} (h : Accepted bih) : dstStride bih = rowLength bih := by
  have hwidth := h.width
  have hle := h.width_le
  rw [dstStride, rowLength, length_channelOrder]
  split <;> rw [int32_eq (by omega) (by omega)] <;> omega

/-- The length of a row in the block, where it is an int. -/
theorem stride_eq {bih : Bih} (hbih : Accepted bih)
    (hline : bih.width.toNat * bih.bpp + 31 < 2 ^ 31) : stride bih = lineBytes bih := by
  have hbits : bih.width * bih.bpp = ((bih.width.toNat * bih.bpp : Nat) : Int) := by
    rw [Int.natCast_mul, ← hbih.width]
  rw [stride, lineBytes, hbits, int32_eq (n := ((bih.width.toNat * bih.bpp : Nat) : Int))
    (by omega) (by omega), int32_eq (by omega) (by omega)]
  omega

/-- Where a row is in a block whose rows are all at offsets that are ints. -/
theorem rowAt_eq (b : Buffer) {bih : Bih} (hbih : Accepted bih)
    (hline : bih.width.toNat * bih.bpp + 31 < 2 ^ 31)
    (hrows : (bih.height.toNat - 1) * lineBytes bih < 2 ^ 31) {y : Nat}
    (hy : y < bih.height.toNat) :
    rowAt b bih 40 y = 40 + (bih.height.toNat - 1 - y) * lineBytes bih := by
  have hpow := b.pow_le
  have hle : (bih.height.toNat - 1 - y) * lineBytes bih
      ≤ (bih.height.toNat - 1) * lineBytes bih := Nat.mul_le_mul_right _ (Nat.sub_le _ y)
  have hrow : bih.height - 1 - y = ((bih.height.toNat - 1 - y : Nat) : Int) := by
    rw [hbih.height, Int.toNat_natCast]
    omega
  rw [rowAt, stride_eq hbih hline, hrow, ← Int.natCast_mul, int32_eq (by omega) (by omega)]
  exact Buffer.move_natCast (by omega)

/-- There is an element of `row_pointers` for every row. -/
theorem length_rowPointers (b : Buffer) {bih : Bih} (h : Accepted bih) :
    (rowPointers b bih.height).length = bih.height.toNat := by
  have hwide := b.wide
  have hle := h.height_le
  have hroom : b.bits / 8 * bih.height.toNat < 2 ^ b.bits := by
    rcases Nat.exists_eq_add_of_le hwide with ⟨k, hk⟩
    -- With `k` bits more than 32 an element has at most `4 * 2 ^ k` bytes.
    have hpow : b.bits / 8 ≤ 4 * 2 ^ k := by
      have hlt : k < 2 ^ k := Nat.lt_two_pow_self
      omega
    have hmul : b.bits / 8 * bih.height.toNat ≤ 4 * 2 ^ k * 1000000 := Nat.mul_le_mul hpow hle
    have hpos : 0 < 2 ^ k := Nat.pow_pos (by decide)
    rw [hk, Nat.pow_add] at *
    omega
  rw [rowPointers, List.length_replicate, h.height, ← Int.natCast_mul, Int.toNat_natCast,
    Buffer.sizeT_natCast hroom]
  exact Nat.mul_div_cancel_left _ (by omega)

theorem length_tempRow (calls : PngCalls) (b : Buffer) (bih : Bih) :
    (tempRow calls b bih).length = b.sizeT (int32 (bih.height * dstStride bih)) := by
  rw [tempRow, List.length_map, List.length_range]

/-! ### A row -/

theorem length_pixelBytes (b : Buffer) (order : List Nat) (src x : Nat) :
    (pixelBytes b order src x).length = order.length := List.length_map _

theorem length_rowBytes (b : Buffer) (bih : Bih) (src : Nat) :
    (rowBytes b bih src).length = rowLength bih :=
  length_blocks _ _ (length_pixelBytes b _ src) _

section

variable (b : Buffer) (order : List Nat) (src dst : Nat) (temp : List UInt8) (x : Nat)

theorem copyPixel_eq_ok (hread : ∀ k ∈ order, b.Has (src + (order.length * x + k)) 1)
    (hroom : dst + order.length * x + order.length ≤ temp.length) :
    copyPixel b order src dst temp x
      = .ok (poke temp (dst + order.length * x) (pixelBytes b order src x)) := by
  rw [copyPixel, mapM_eq_ok _ (fun k => b.byte (src + (order.length * x + k))) _
    (fun k hk => readByte_eq_ok (hread k hk)), ok_bind]
  exact writeBytes_eq_ok (by rw [List.length_map]; exact hroom)

theorem copyPixel_safe_iff :
    Safe (copyPixel b order src dst temp x) ↔
      (∀ k ∈ order, b.Has (src + (order.length * x + k)) 1) ∧
        dst + order.length * x + order.length ≤ temp.length := by
  constructor
  · intro h
    rcases (safe_bind_iff _ _).mp h with ⟨pixel, hpixel, hwrite⟩
    have hread := (safe_mapM_iff _ _).mp ⟨pixel, hpixel⟩
    have hall : ∀ k ∈ order, b.Has (src + (order.length * x + k)) 1 := fun k hk =>
      (safe_readIf_iff _ _).mp (hread k hk)
    -- What was read has the length of a pixel.
    rw [mapM_eq_ok _ (fun k => b.byte (src + (order.length * x + k))) _
      (fun k hk => readByte_eq_ok (hall k hk)), Except.ok.injEq] at hpixel
    rw [writeBytes_safe_iff, ← hpixel, List.length_map] at hwrite
    exact ⟨hall, hwrite⟩
  · rintro ⟨hread, hroom⟩
    exact ⟨_, copyPixel_eq_ok b order src dst temp x hread hroom⟩

/-- A copied pixel is written over what was there. -/
theorem length_copyPixel {temp' : List UInt8}
    (h : copyPixel b order src dst temp x = .ok temp') : temp'.length = temp.length := by
  rcases (copyPixel_safe_iff b order src dst temp x).mp ⟨temp', h⟩ with ⟨hread, hroom⟩
  rw [copyPixel_eq_ok b order src dst temp x hread hroom, Except.ok.injEq] at h
  rw [← h]
  exact length_poke _ _ _ (by rw [length_pixelBytes]; exact hroom)

end

section

variable {b : Buffer} {bih : Bih} (hbih : Accepted bih) (src dst : Nat) (temp : List UInt8)
include hbih

/-- The bytes of all pixels are one piece. -/
theorem pixels_inside_iff :
    (∀ x ∈ List.range bih.width.toNat, ∀ k ∈ channelOrder bih.bpp,
        b.Has (src + ((channelOrder bih.bpp).length * x + k)) 1) ↔
      b.Has src (rowLength bih) := by
  have hpos := (rowLength_bounds hbih).1
  have hchannels : 0 < (channelOrder bih.bpp).length := by
    rw [length_channelOrder]
    split <;> decide
  rw [Buffer.has_iff_forall hpos]
  constructor
  · intro h i hi
    -- A byte of the row is one of its pixel.
    have hpixel : i / (channelOrder bih.bpp).length < bih.width.toNat :=
      Nat.div_lt_of_lt_mul hi
    have hbyte := h _ (List.mem_range.mpr hpixel) (i % (channelOrder bih.bpp).length)
      ((mem_channelOrder _ _).mpr (Nat.mod_lt _ hchannels))
    rw [Nat.div_add_mod] at hbyte
    exact hbyte
  · intro h x hx k hk
    refine h _ ?_
    have hk' := (mem_channelOrder _ _).mp hk
    have hle : (channelOrder bih.bpp).length * (x + 1) ≤ rowLength bih :=
      Nat.mul_le_mul_left _ (List.mem_range.mp hx)
    rw [Nat.mul_succ] at hle
    omega

/-- A row is copied when it is in the block and fits where it goes. -/
theorem copyRow_safe_iff :
    Safe (copyRow b bih src dst temp) ↔
      b.Has src (rowLength bih) ∧ dst + rowLength bih ≤ temp.length := by
  -- No pixel changes what the next one needs: only bytes of `temp_row` are written.
  have hloop := safe_foldlM_iff (copyPixel b (channelOrder bih.bpp) src dst)
    (fun t => t.length = temp.length)
    (fun x => (∀ k ∈ channelOrder bih.bpp,
        b.Has (src + ((channelOrder bih.bpp).length * x + k)) 1) ∧
      dst + (channelOrder bih.bpp).length * x + (channelOrder bih.bpp).length ≤ temp.length)
    (List.range bih.width.toNat)
    (fun t ht x _ => by rw [copyPixel_safe_iff, ht])
    (fun t t' ht x _ hstep => (length_copyPixel b _ src dst t x hstep).trans ht) temp rfl
  have hpos := hbih.width_pos
  rw [copyRow, hloop, forall₂_and, pixels_inside_iff hbih src]
  refine and_congr_right (fun _ => ?_)
  constructor
  · intro h
    -- The last pixel ends where the row does.
    have hlast := h _ (List.mem_range.mpr (Nat.sub_lt hpos Nat.one_pos))
    rw [Nat.add_assoc, ← Nat.mul_succ, Nat.succ_eq_add_one, Nat.sub_add_cancel hpos] at hlast
    exact hlast
  · intro h x hx
    have hle : (channelOrder bih.bpp).length * (x + 1) ≤ rowLength bih :=
      Nat.mul_le_mul_left _ (List.mem_range.mp hx)
    rw [Nat.mul_succ] at hle
    omega

/-- What is copied are the pixels, one behind the other. -/
theorem copyRow_eq_ok (hread : b.Has src (rowLength bih))
    (hroom : dst + rowLength bih ≤ temp.length) :
    copyRow b bih src dst temp = .ok (poke temp dst (rowBytes b bih src)) := by
  have hpixels := (pixels_inside_iff hbih src).mpr hread
  rw [copyRow, foldlM_eq_ok (copyPixel b (channelOrder bih.bpp) src dst)
    (fun t => t.length = temp.length)
    (fun t x => poke t (dst + (channelOrder bih.bpp).length * x)
      (pixelBytes b (channelOrder bih.bpp) src x)) _ ?_ ?_ temp rfl,
    foldl_poke_blocks_at _ _ (length_pixelBytes b _ src) _ _ _ hroom]
  · rfl
  all_goals
    intro t ht x hx
    have hle : (channelOrder bih.bpp).length * (x + 1) ≤ rowLength bih :=
      Nat.mul_le_mul_left _ (List.mem_range.mp hx)
    rw [Nat.mul_succ] at hle
  · exact copyPixel_eq_ok b _ src dst t x (hpixels x hx) (by omega)
  · exact (length_poke _ _ _ (by rw [length_pixelBytes]; omega)).trans ht

end

/-! ### All rows -/

/-- `temp_row`, with the rows copied to it. -/
def copied (b : Buffer) (bih : Bih) (pixels : Nat) (temp : List UInt8) : List UInt8 :=
  (List.range bih.height.toNat).foldl
    (fun t y => poke t (dstAt b bih y) (rowBytes b bih (rowAt b bih pixels y))) temp

section

variable {b : Buffer} {bih : Bih} (hbih : Accepted bih) (pixels : Nat)
include hbih

theorem copyStep_eq_ok (s : List UInt8 × List RowPointer) (y : Nat) (hy : y < s.2.length)
    (h : RowInside b bih pixels s.1.length y) :
    copyStep b bih pixels s y
      = .ok (poke s.1 (dstAt b bih y) (rowBytes b bih (rowAt b bih pixels y)),
          s.2.set y (.temp (dstAt b bih y))) := by
  have hrow := copyRow_eq_ok hbih (rowAt b bih pixels y) (dstAt b bih y) s.1 h.1 h.2
  have hstore := store_eq_ok (RowPointer.temp (dstAt b bih y)) hy
  unfold dstAt at *
  rw [copyStep, hrow, ok_bind, hstore, ok_bind]
  rfl

theorem copyStep_safe_iff (s : List UInt8 × List RowPointer) (y : Nat) (hy : y < s.2.length) :
    Safe (copyStep b bih pixels s y) ↔ RowInside b bih pixels s.1.length y := by
  constructor
  · intro h
    rcases (safe_bind_iff _ _).mp h with ⟨temp, htemp, -⟩
    exact (copyRow_safe_iff hbih _ _ _).mp ⟨temp, htemp⟩
  · intro h
    exact ⟨_, copyStep_eq_ok hbih pixels s y hy h⟩

variable (temp : List UInt8) (rows : List RowPointer) (hrows : rows.length = bih.height.toNat)
include hrows

/-- All rows are copied when each one is in the block and fits where it goes. -/
theorem copyRows_safe_iff :
    Safe (copyRows b bih pixels (temp, rows)) ↔
      ∀ y ∈ List.range bih.height.toNat, RowInside b bih pixels temp.length y := by
  refine safe_foldlM_iff (copyStep b bih pixels)
    (fun s => s.1.length = temp.length ∧ s.2.length = bih.height.toNat) _ _ ?_ ?_ _ ⟨rfl, hrows⟩
  · intro s hs y hy
    rw [copyStep_safe_iff hbih pixels s y (by rw [hs.2]; exact List.mem_range.mp hy), hs.1]
  · intro s t hs y hy hstep
    have hlt : y < s.2.length := by
      rw [hs.2]
      exact List.mem_range.mp hy
    have hinside := (copyStep_safe_iff hbih pixels s y hlt).mp ⟨t, hstep⟩
    rw [copyStep_eq_ok hbih pixels s y hlt hinside, Except.ok.injEq] at hstep
    subst hstep
    exact ⟨(length_poke _ _ _ (by rw [length_rowBytes]; exact hinside.2)).trans hs.1,
      List.length_set.trans hs.2⟩

theorem copyRows_eq_ok
    (h : ∀ y ∈ List.range bih.height.toNat, RowInside b bih pixels temp.length y) :
    copyRows b bih pixels (temp, rows)
      = .ok (copied b bih pixels temp,
          (List.range bih.height.toNat).map fun y => .temp (dstAt b bih y)) := by
  -- The array is filled from its beginning to its end.
  have hset := foldl_set_range (fun y => RowPointer.temp (dstAt b bih y)) rows _
    (Nat.le_of_eq hrows.symm)
  rw [List.drop_eq_nil_of_le (Nat.le_of_eq hrows), List.append_nil] at hset
  -- The bytes and the pointers do not depend on each other.
  have hpair := foldl_pair
    (fun t y => poke t (dstAt b bih y) (rowBytes b bih (rowAt b bih pixels y)))
    (fun (rows : List RowPointer) y => rows.set y (.temp (dstAt b bih y)))
    (List.range bih.height.toNat) temp rows
  rw [copyRows, foldlM_eq_ok (copyStep b bih pixels)
    (fun s => s.1.length = temp.length ∧ s.2.length = bih.height.toNat)
    (fun s y => (poke s.1 (dstAt b bih y) (rowBytes b bih (rowAt b bih pixels y)),
      s.2.set y (.temp (dstAt b bih y)))) _ ?_ ?_ _ ⟨rfl, hrows⟩, hpair, hset]
  · rfl
  all_goals
    intro s hs y hy
  · exact copyStep_eq_ok hbih pixels s y (by rw [hs.2]; exact List.mem_range.mp hy)
      (by rw [hs.1]; exact h y hy)
  · refine ⟨(length_poke _ _ _ ?_).trans hs.1, List.length_set.trans hs.2⟩
    rw [length_rowBytes, hs.1]
    exact (h y hy).2

end

/-- The rows are written over what was there. -/
theorem length_copied (b : Buffer) (bih : Bih) (pixels : Nat) (temp : List UInt8)
    (h : ∀ y ∈ List.range bih.height.toNat, RowInside b bih pixels temp.length y) :
    (copied b bih pixels temp).length = temp.length := by
  refine List.foldlRecOn _ _ (motive := fun t : List UInt8 => t.length = temp.length) rfl ?_
  intro t ht y hy
  refine (length_poke _ _ _ ?_).trans ht
  rw [length_rowBytes, ht]
  exact (h y hy).2

/-- The pointers into the block. -/
theorem pointRows_eq_ok (b : Buffer) (bih : Bih) (pixels : Nat) (rows : List RowPointer)
    (hrows : rows.length = bih.height.toNat) :
    pointRows b bih pixels rows
      = .ok ((List.range bih.height.toNat).map fun y => .block (rowAt b bih pixels y)) := by
  have hset := foldl_set_range (fun y => RowPointer.block (rowAt b bih pixels y)) rows _
    (Nat.le_of_eq hrows.symm)
  rw [List.drop_eq_nil_of_le (Nat.le_of_eq hrows), List.append_nil] at hset
  rw [pointRows, foldlM_eq_ok _ (fun rows => rows.length = bih.height.toNat)
    (fun rows y => rows.set y (.block (rowAt b bih pixels y))) _ ?_ ?_ _ hrows, hset]
  · intro rows hrows y hy
    exact store_eq_ok _ (by rw [hrows]; exact List.mem_range.mp hy)
  · intro rows hrows y _
    exact List.length_set.trans hrows

/-! ### The rows that are handed over -/

section

variable (b : Buffer) (bih : Bih) (temp : List UInt8) (pointer : Nat → RowPointer)

theorem pointer_getD {n y : Nat} (hy : y ∈ List.range n) :
    ((List.range n).map pointer).getD y .unset = pointer y := by
  rw [List.getD_eq_getElem?_getD, List.getElem?_map, List.getElem?_range (List.mem_range.mp hy),
    Option.map_some, Option.getD_some]

theorem writeImage_safe_iff :
    Safe (writeImage b bih temp ((List.range bih.height.toNat).map pointer)) ↔
      ∀ y ∈ List.range bih.height.toNat,
        Safe (readRow b temp ((colorType bih.bpp).channels * bih.width.toNat) (pointer y)) := by
  rw [writeImage, safe_mapM_iff]
  refine forall₂_congr (fun y hy => ?_)
  rw [pointer_getD pointer hy]

theorem writeImage_eq_ok (row : Nat → List UInt8)
    (h : ∀ y ∈ List.range bih.height.toNat,
      readRow b temp ((colorType bih.bpp).channels * bih.width.toNat) (pointer y) = .ok (row y)) :
    writeImage b bih temp ((List.range bih.height.toNat).map pointer)
      = .ok ((List.range bih.height.toNat).map row) := by
  refine mapM_eq_ok _ _ _ (fun y hy => ?_)
  rw [pointer_getD pointer hy]
  exact h y hy

end

end Clipboard

end Defender
