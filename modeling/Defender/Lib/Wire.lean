import Mathlib.Data.List.Basic

/-!
# Bytes in Memory

Byte lists read and written the way C reads and writes memory: a slice at an
offset, a copy onto an offset, and words in either byte order.

A slice and a poke are each determined by what they hold at one index, and
`getElem?_slice` and `getElem?_poke` say so. Every frame fact below is those
two lemmas and a case split on where the index falls, so nothing else in the
development needs to reason about `take` and `drop`.

`poke` has no bounds check, which is why the lemmas about it carry the bound
as a hypothesis. `memcpy` is the checked form: a copy that would leave either
buffer has no result.

## Main definitions

* `byteAt`: One byte, zero past the end.
* `word16At`, `dwordAt`, `dwordBeAt`: Words at an offset.
* `le32`, `be32`: The four bytes of a 32-bit word.
* `le16`: The two bytes of a 16-bit word.
* `slice`: The bytes of a range.
* `poke`: Overwriting a range.
* `memcpy`: A copy between buffers, `none` when it leaves one of them.

## Theorems

* `dwordAt_le32_append`, `word16At_le16_append`, `dwordBeAt_be32_append`: A stored word reads
  back.
* `le32_dwordAt`, `be32_dwordBeAt`: A word read is the four bytes there.
* `dwordAt_append_right`: Reading past a prefix.
* `slice_add`: A range splits at any point.
* `slice_eq_map`: A slice by its positions.
* `poke_middle`: Overwriting the middle of three pieces.
* `poke_poke`: Overwriting a range piece by piece.
* `slice_poke_self`: What was copied is there.
* `slice_poke_before`, `slice_poke_after`: A copy leaves the rest alone.
* `toInt_ofNat`: The signed value of a 32-bit word.
* `memcpy_eq_some`: When a copy has a result, and which.
-/

namespace Wire

/-- The byte at an offset, zero past the end. -/
def byteAt (m : List UInt8) (i : Nat) : UInt8 :=
  m.getD i 0

/-- The little-endian 16-bit word at an offset. -/
def word16At (m : List UInt8) (i : Nat) : UInt16 :=
  UInt16.ofNat ((byteAt m i).toNat + 256 * (byteAt m (i + 1)).toNat)

/-- The little-endian 32-bit word at an offset. -/
def dwordAt (m : List UInt8) (i : Nat) : UInt32 :=
  UInt32.ofNat ((byteAt m i).toNat + 256 * (byteAt m (i + 1)).toNat
    + 65536 * (byteAt m (i + 2)).toNat + 16777216 * (byteAt m (i + 3)).toNat)

/-- The big-endian 32-bit word at an offset. -/
def dwordBeAt (m : List UInt8) (i : Nat) : UInt32 :=
  UInt32.ofNat (16777216 * (byteAt m i).toNat + 65536 * (byteAt m (i + 1)).toNat
    + 256 * (byteAt m (i + 2)).toNat + (byteAt m (i + 3)).toNat)

/-- The four big-endian bytes of a 32-bit word. -/
def be32 (w : UInt32) : List UInt8 :=
  [UInt8.ofNat (w.toNat / 16777216), UInt8.ofNat (w.toNat / 65536), UInt8.ofNat (w.toNat / 256),
    UInt8.ofNat w.toNat]

/-- The four little-endian bytes of a 32-bit word. -/
def le32 (w : UInt32) : List UInt8 :=
  [UInt8.ofNat w.toNat, UInt8.ofNat (w.toNat / 256), UInt8.ofNat (w.toNat / 65536),
    UInt8.ofNat (w.toNat / 16777216)]

/-- The two little-endian bytes of a 16-bit word. -/
def le16 (w : UInt16) : List UInt8 :=
  [UInt8.ofNat w.toNat, UInt8.ofNat (w.toNat / 256)]

/-- The `n` bytes from offset `i`, fewer if the memory ends first. -/
def slice (m : List UInt8) (i n : Nat) : List UInt8 :=
  (m.drop i).take n

/-- Overwrite the bytes from offset `i` by `d`. -/
def poke (m : List UInt8) (i : Nat) (d : List UInt8) : List UInt8 :=
  m.take i ++ d ++ m.drop (i + d.length)

/-- Copy the first `n` bytes of `src` to offset `i` of `dst`; `none` when the
    copy would leave either buffer. -/
def memcpy (dst : List UInt8) (i : Nat) (src : List UInt8) (n : Nat) : Option (List UInt8) :=
  if n ≤ src.length ∧ i + n ≤ dst.length then some (poke dst i (src.take n)) else none

@[simp] theorem length_le32 (w : UInt32) : (le32 w).length = 4 := rfl

@[simp] theorem length_le16 (w : UInt16) : (le16 w).length = 2 := rfl

theorem byteAt_append_left (a b : List UInt8) (i : Nat) (h : i < a.length) :
    byteAt (a ++ b) i = byteAt a i := by
  simp only [byteAt, List.getD_eq_getElem?_getD, List.getElem?_append_left h]

theorem byteAt_append_right (a b : List UInt8) (i : Nat) :
    byteAt (a ++ b) (a.length + i) = byteAt b i := by
  simp only [byteAt, List.getD_eq_getElem?_getD, List.getElem?_append_right (Nat.le_add_right _ i),
    Nat.add_sub_cancel_left]

/-- A word is determined by its four bytes. -/
theorem dwordAt_congr (a b : List UInt8) (i j : Nat)
    (h : ∀ k, k < 4 → byteAt a (i + k) = byteAt b (j + k)) : dwordAt a i = dwordAt b j := by
  have h0 := h 0 (by omega)
  rw [Nat.add_zero, Nat.add_zero] at h0
  rw [dwordAt, dwordAt, h0, h 1 (by omega), h 2 (by omega), h 3 (by omega)]

theorem word16At_congr (a b : List UInt8) (i j : Nat)
    (h : ∀ k, k < 2 → byteAt a (i + k) = byteAt b (j + k)) : word16At a i = word16At b j := by
  have h0 := h 0 (by omega)
  rw [Nat.add_zero, Nat.add_zero] at h0
  rw [word16At, word16At, h0, h 1 (by omega)]

theorem dwordAt_append_right (a b : List UInt8) (i : Nat) :
    dwordAt (a ++ b) (a.length + i) = dwordAt b i := by
  refine dwordAt_congr _ _ _ _ (fun k _ => ?_)
  rw [Nat.add_assoc, byteAt_append_right]

theorem dwordAt_append_left (a b : List UInt8) (i : Nat) (h : i + 4 ≤ a.length) :
    dwordAt (a ++ b) i = dwordAt a i :=
  dwordAt_congr _ _ _ _ (fun k _ => byteAt_append_left a b (i + k) (by omega))

/-- A stored word reads back. -/
theorem dwordAt_le32_append (w : UInt32) (t : List UInt8) : dwordAt (le32 w ++ t) 0 = w := by
  have hw := w.toNat_lt
  simp only [dwordAt, le32, byteAt, List.cons_append, List.nil_append, List.getD_cons_zero,
    List.getD_cons_succ, Nat.zero_add, UInt8.toNat_ofNat']
  apply UInt32.toNat_inj.mp
  rw [UInt32.toNat_ofNat']
  omega

/-- A stored word of 16 bits reads back. -/
theorem word16At_le16_append (w : UInt16) (t : List UInt8) : word16At (le16 w ++ t) 0 = w := by
  have hw := w.toNat_lt
  simp only [word16At, le16, byteAt, List.cons_append, List.nil_append, List.getD_cons_zero,
    List.getD_cons_succ, Nat.zero_add, UInt8.toNat_ofNat']
  apply UInt16.toNat_inj.mp
  rw [UInt16.toNat_ofNat']
  omega

/-- A big-endian word is determined by its four bytes. -/
theorem dwordBeAt_congr (a b : List UInt8) (i j : Nat)
    (h : ∀ k, k < 4 → byteAt a (i + k) = byteAt b (j + k)) : dwordBeAt a i = dwordBeAt b j := by
  have h0 := h 0 (by omega)
  rw [Nat.add_zero, Nat.add_zero] at h0
  rw [dwordBeAt, dwordBeAt, h0, h 1 (by omega), h 2 (by omega), h 3 (by omega)]

theorem dwordBeAt_append_right (a b : List UInt8) (i : Nat) :
    dwordBeAt (a ++ b) (a.length + i) = dwordBeAt b i := by
  refine dwordBeAt_congr _ _ _ _ (fun k _ => ?_)
  rw [Nat.add_assoc, byteAt_append_right]

/-- A stored big-endian word reads back. -/
theorem dwordBeAt_be32_append (w : UInt32) (t : List UInt8) :
    dwordBeAt (be32 w ++ t) 0 = w := by
  have hw := w.toNat_lt
  simp only [dwordBeAt, be32, byteAt, List.cons_append, List.nil_append, List.getD_cons_zero,
    List.getD_cons_succ, Nat.zero_add, UInt8.toNat_ofNat']
  apply UInt32.toNat_inj.mp
  rw [UInt32.toNat_ofNat']
  omega

theorem getElem?_slice (m : List UInt8) (i n k : Nat) :
    (slice m i n)[k]? = if k < n then m[i + k]? else none := by
  simp only [slice, List.getElem?_take, List.getElem?_drop]

theorem getElem?_poke (m d : List UInt8) (i k : Nat) (hi : i ≤ m.length) :
    (poke m i d)[k]? = if k < i then m[k]? else if k < i + d.length then d[k - i]? else m[k]? := by
  rw [poke, List.append_assoc]
  by_cases h1 : k < i
  · rw [if_pos h1, List.getElem?_append_left (by rw [List.length_take]; omega),
      List.getElem?_take_of_lt h1]
  · rw [if_neg h1, List.getElem?_append_right (by rw [List.length_take]; omega), List.length_take,
      Nat.min_eq_left hi]
    by_cases h2 : k < i + d.length
    · rw [if_pos h2, List.getElem?_append_left (by omega)]
    · rw [if_neg h2, List.getElem?_append_right (by omega), List.getElem?_drop]
      congr 1
      omega

theorem length_slice (m : List UInt8) (i n : Nat) (h : i + n ≤ m.length) :
    (slice m i n).length = n := by
  rw [slice, List.length_take, List.length_drop]
  omega

theorem length_poke (m d : List UInt8) (i : Nat) (h : i + d.length ≤ m.length) :
    (poke m i d).length = m.length := by
  simp only [poke, List.length_append, List.length_take, List.length_drop]
  omega

/-- A range splits at any point. -/
theorem length_slice_le (m : List UInt8) (i n : Nat) : (slice m i n).length ≤ n := by
  rw [slice, List.length_take]
  exact Nat.min_le_left _ _

theorem slice_add (m : List UInt8) (i a b : Nat) :
    slice m i (a + b) = slice m i a ++ slice m (i + a) b := by
  simp only [slice, List.take_add, List.drop_drop]

theorem slice_zero (m : List UInt8) (i : Nat) : slice m i 0 = [] := by
  rw [slice, List.take_zero]

theorem slice_all (m : List UInt8) (n : Nat) (h : m.length ≤ n) : slice m 0 n = m := by
  rw [slice, List.drop_zero, List.take_of_length_le h]

/-- A slice is what is at its positions. -/
theorem slice_eq_map (m : List UInt8) (i n : Nat) (h : i + n ≤ m.length) :
    slice m i n = (List.range' i n).map (byteAt m) := by
  refine List.ext_getElem? (fun k => ?_)
  rw [getElem?_slice, List.getElem?_map]
  by_cases hk : k < n
  · rw [if_pos hk, List.getElem?_range' hk, Nat.one_mul, Option.map_some, byteAt,
      List.getD_eq_getElem?_getD, List.getElem?_eq_getElem (by omega), Option.getD_some]
  · have hlen : (List.range' i n).length = n := List.length_range'
    rw [if_neg hk, List.getElem?_eq_none (by omega), Option.map_none]

theorem slice_slice (m : List UInt8) (i n j k : Nat) (h : j + k ≤ n) :
    slice (slice m i n) j k = slice m (i + j) k := by
  apply List.ext_getElem?
  intro x
  rw [getElem?_slice, getElem?_slice, getElem?_slice]
  by_cases hx : x < k
  · rw [if_pos hx, if_pos hx, if_pos (by omega), Nat.add_assoc]
  · rw [if_neg hx, if_neg hx]

/-- Overwriting the middle of three pieces. -/
theorem poke_middle (a x b d : List UInt8) (h : x.length = d.length) :
    poke (a ++ (x ++ b)) a.length d = a ++ (d ++ b) := by
  have hdrop : (a ++ (x ++ b)).drop (a.length + d.length) = b := by
    rw [← List.drop_drop, List.drop_left, ← h, List.drop_left]
  rw [poke, List.take_left, hdrop, List.append_assoc]

theorem poke_nil (m : List UInt8) (i : Nat) : poke m i [] = m := by
  rw [poke, List.append_nil, List.length_nil, Nat.add_zero, List.take_append_drop]

/-- Two copies, one behind the other, are one. -/
theorem poke_poke (m a b : List UInt8) (i : Nat) (h : i + a.length ≤ m.length) :
    poke (poke m i a) (i + a.length) b = poke m i (a ++ b) := by
  have hfront : (m.take i ++ a).length = i + a.length := by
    rw [List.length_append, List.length_take, Nat.min_eq_left (by omega)]
  rw [poke, poke, ← hfront, List.take_left, ← List.drop_drop, List.drop_left, List.drop_drop,
    hfront, poke, List.length_append, Nat.add_assoc, List.append_assoc, List.append_assoc,
    List.append_assoc,
    List.append_assoc]

/-- Four bytes in range are what a slice of them holds. -/
theorem slice_four (m : List UInt8) (i : Nat) (h : i + 4 ≤ m.length) :
    slice m i 4 = [byteAt m i, byteAt m (i + 1), byteAt m (i + 2), byteAt m (i + 3)] := by
  have hbyte : ∀ k, i + k < m.length → m[i + k]? = some (byteAt m (i + k)) := by
    intro k hk
    rw [byteAt, List.getD_eq_getElem?_getD, List.getElem?_eq_getElem hk, Option.getD_some]
  apply List.ext_getElem?
  intro k
  rw [getElem?_slice]
  by_cases hk : k < 4
  · rw [if_pos hk, hbyte k (by omega)]
    have : k = 0 ∨ k = 1 ∨ k = 2 ∨ k = 3 := by omega
    rcases this with rfl | rfl | rfl | rfl <;> rfl
  · rw [if_neg hk, List.getElem?_eq_none]
    simp only [List.length_cons, List.length_nil]
    omega

/-- A word read from memory is the four bytes there. -/
theorem le32_dwordAt (m : List UInt8) (i : Nat) (h : i + 4 ≤ m.length) :
    le32 (dwordAt m i) = slice m i 4 := by
  have h0 := (byteAt m i).toNat_lt
  have h1 := (byteAt m (i + 1)).toNat_lt
  have h2 := (byteAt m (i + 2)).toNat_lt
  have h3 := (byteAt m (i + 3)).toNat_lt
  have hnat : (dwordAt m i).toNat = (byteAt m i).toNat + 256 * (byteAt m (i + 1)).toNat
      + 65536 * (byteAt m (i + 2)).toNat + 16777216 * (byteAt m (i + 3)).toNat := by
    rw [dwordAt, UInt32.toNat_ofNat']
    exact Nat.mod_eq_of_lt (by omega)
  rw [slice_four m i h]
  simp only [le32, hnat, List.cons.injEq, and_true]
  refine ⟨?_, ?_, ?_, ?_⟩
  all_goals
    apply UInt8.toNat_inj.mp
    rw [UInt8.toNat_ofNat']
    omega

/-- The same in big-endian order. -/
theorem be32_dwordBeAt (m : List UInt8) (i : Nat) (h : i + 4 ≤ m.length) :
    be32 (dwordBeAt m i) = slice m i 4 := by
  have h0 := (byteAt m i).toNat_lt
  have h1 := (byteAt m (i + 1)).toNat_lt
  have h2 := (byteAt m (i + 2)).toNat_lt
  have h3 := (byteAt m (i + 3)).toNat_lt
  have hnat : (dwordBeAt m i).toNat = 16777216 * (byteAt m i).toNat
      + 65536 * (byteAt m (i + 1)).toNat + 256 * (byteAt m (i + 2)).toNat
      + (byteAt m (i + 3)).toNat := by
    rw [dwordBeAt, UInt32.toNat_ofNat']
    exact Nat.mod_eq_of_lt (by omega)
  rw [slice_four m i h]
  simp only [be32, hnat, List.cons.injEq, and_true]
  refine ⟨?_, ?_, ?_, ?_⟩
  all_goals
    apply UInt8.toNat_inj.mp
    rw [UInt8.toNat_ofNat']
    omega

/-- What was copied is there. -/
theorem slice_poke_self (m d : List UInt8) (i : Nat) (hi : i ≤ m.length) :
    slice (poke m i d) i d.length = d := by
  apply List.ext_getElem?
  intro k
  rw [getElem?_slice]
  by_cases hk : k < d.length
  · rw [if_pos hk, getElem?_poke m d i _ hi, if_neg (by omega), if_pos (by omega),
      Nat.add_sub_cancel_left]
  · rw [if_neg hk, List.getElem?_eq_none (by omega)]

/-- A copy leaves the ranges before it alone. -/
theorem slice_poke_before (m d : List UInt8) (i j n : Nat) (hi : i ≤ m.length) (h : j + n ≤ i) :
    slice (poke m i d) j n = slice m j n := by
  apply List.ext_getElem?
  intro k
  rw [getElem?_slice, getElem?_slice]
  by_cases hk : k < n
  · rw [if_pos hk, if_pos hk, getElem?_poke m d i _ hi, if_pos (by omega)]
  · rw [if_neg hk, if_neg hk]

/-- A copy leaves the ranges after it alone. -/
theorem slice_poke_after (m d : List UInt8) (i j n : Nat) (hi : i ≤ m.length)
    (h : i + d.length ≤ j) : slice (poke m i d) j n = slice m j n := by
  apply List.ext_getElem?
  intro k
  rw [getElem?_slice, getElem?_slice]
  by_cases hk : k < n
  · rw [if_pos hk, if_pos hk, getElem?_poke m d i _ hi, if_neg (by omega), if_neg (by omega)]
  · rw [if_neg hk, if_neg hk]

/-- A copy leaves the words before it alone. -/
theorem dwordAt_poke_before (m d : List UInt8) (i j : Nat) (hi : i ≤ m.length) (h : j + 4 ≤ i) :
    dwordAt (poke m i d) j = dwordAt m j := by
  refine dwordAt_congr _ _ _ _ (fun k _ => ?_)
  simp only [byteAt, List.getD_eq_getElem?_getD]
  rw [getElem?_poke m d i _ hi, if_pos (by omega)]

/-- A word written at the start of the memory reads back. -/
theorem dwordAt_poke_le32 (m : List UInt8) (w : UInt32) : dwordAt (poke m 0 (le32 w)) 0 = w := by
  rw [poke, List.take_zero, List.nil_append]
  exact dwordAt_le32_append w _

/-- The signed value of a word made of a number. -/
theorem toInt_ofNat (n : Nat) :
    (UInt32.ofNat n).toInt32.toInt
      = if n % 4294967296 < 2147483648 then ((n % 4294967296 : Nat) : Int)
        else ((n % 4294967296 : Nat) : Int) - 4294967296 := by
  have hsize : ((Int32.size : Nat) : Int) = 4294967296 := rfl
  rw [UInt32.toInt32_ofNat', Int32.toInt_ofNat', Int.bmod, hsize]
  omega

/-- A word with a signed value that is a number is that number. -/
theorem toNat_of_toInt (w : UInt32) (n : Nat) (h : w.toInt32.toInt = n) : w.toNat = n := by
  have hw := w.toNat_lt
  have hsigned := toInt_ofNat w.toNat
  rw [UInt32.ofNat_toNat, h] at hsigned
  split at hsigned <;> omega

/-! ### Blocks of one size -/

theorem length_blocks (w : Nat) (g : Nat → List UInt8) (hg : ∀ i, (g i).length = w) (n : Nat) :
    ((List.range n).flatMap g).length = w * n := by
  induction n with
  | zero => rfl
  | succ n ih =>
      rw [List.range_succ, List.flatMap_append, List.length_append, ih, List.flatMap_singleton,
        hg n, Nat.mul_succ]

/-- Copying blocks one behind the other overwrites the front of a buffer. -/
theorem foldl_poke_blocks (w : Nat) (g : Nat → List UInt8) (hg : ∀ i, (g i).length = w)
    (out : List UInt8) (n : Nat) (h : w * n ≤ out.length) :
    (List.range n).foldl (fun out i => poke out (w * i) (g i)) out
      = (List.range n).flatMap g ++ out.drop (w * n) := by
  induction n with
  | zero => rw [Nat.mul_zero, List.drop_zero]; rfl
  | succ n ih =>
      rw [Nat.mul_succ] at h
      have hlen := length_blocks w g hg n
      have hfront : (out.drop (w * n)).take w ++ out.drop (w * n + w) = out.drop (w * n) := by
        rw [← List.drop_drop, List.take_append_drop]
      have htake : ((out.drop (w * n)).take w).length = (g n).length := by
        rw [List.length_take, List.length_drop, hg n]
        omega
      -- The block goes exactly over the next `w` bytes.
      have hpoke := poke_middle ((List.range n).flatMap g) _ (out.drop (w * n + w)) (g n) htake
      rw [hlen, hfront] at hpoke
      rw [List.range_succ, List.foldl_append, ih (by omega), List.foldl_cons, List.foldl_nil,
        hpoke, List.flatMap_append, List.flatMap_singleton, Nat.mul_succ, List.append_assoc]

/-- Copying blocks one behind the other to an offset is one copy. -/
theorem foldl_poke_blocks_at (w : Nat) (g : Nat → List UInt8) (hg : ∀ i, (g i).length = w)
    (out : List UInt8) (k n : Nat) (h : k + w * n ≤ out.length) :
    (List.range n).foldl (fun out i => poke out (k + w * i) (g i)) out
      = poke out k ((List.range n).flatMap g) := by
  induction n with
  | zero => exact (poke_nil out k).symm
  | succ n ih =>
      rw [Nat.mul_succ] at h
      have hlen := length_blocks w g hg n
      have hpoke := poke_poke out ((List.range n).flatMap g) (g n) k (by omega)
      rw [hlen] at hpoke
      rw [List.range_succ, List.foldl_append, ih (by omega), List.foldl_cons, List.foldl_nil,
        hpoke, List.flatMap_append, List.flatMap_singleton]

theorem slice_append_left (a b : List UInt8) (i n : Nat) (h : i + n ≤ a.length) :
    slice (a ++ b) i n = slice a i n := by
  rw [slice, slice, List.drop_append_of_le_length (by omega), List.take_append_of_le_length]
  rw [List.length_drop]
  omega

theorem slice_append_right (a b : List UInt8) (i n : Nat) :
    slice (a ++ b) (a.length + i) n = slice b i n := by
  rw [slice, slice, ← List.drop_drop, List.drop_left]

/-- Each block is where it was put. Induction on the blocks, from the last
    one. -/
theorem slice_blocks (w : Nat) (g : Nat → List UInt8) (hg : ∀ i, (g i).length = w) (n i : Nat)
    (hi : i < n) : slice ((List.range n).flatMap g) (w * i) w = g i := by
  induction n with
  | zero => exact absurd hi (Nat.not_lt_zero i)
  | succ n ih =>
      have hlen := length_blocks w g hg n
      rw [List.range_succ, List.flatMap_append, List.flatMap_singleton]
      by_cases hin : i < n
      · have hroom : w * i + w ≤ w * n := by
          rw [← Nat.mul_succ]
          exact Nat.mul_le_mul_left w hin
        rw [slice_append_left _ _ _ _ (by omega)]
        exact ih hin
      · have hlast : i = n := by omega
        have hright := slice_append_right ((List.range n).flatMap g) (g n) 0 w
        rw [hlen, Nat.add_zero] at hright
        rw [hlast, hright]
        exact slice_all (g n) w (Nat.le_of_eq (hg n))

/-- The blocks of a buffer, one behind the other, are its front. -/
theorem blocks_slice (w : Nat) (m : List UInt8) (n : Nat) :
    (List.range n).flatMap (fun i => slice m (w * i) w) = m.take (w * n) := by
  induction n with
  | zero => rw [Nat.mul_zero, List.take_zero]; rfl
  | succ n ih =>
      rw [List.range_succ, List.flatMap_append, ih, List.flatMap_singleton, Nat.mul_succ,
        List.take_add]
      rfl

/-- Blocks of one size are determined by their bytes. -/
theorem eq_of_flatten_eq (w : Nat) (hw : 0 < w) (as bs : List (List UInt8))
    (has : ∀ a ∈ as, a.length = w) (hbs : ∀ b ∈ bs, b.length = w)
    (h : as.flatten = bs.flatten) : as = bs := by
  induction as generalizing bs with
  | nil =>
      cases bs with
      | nil => rfl
      | cons b bs =>
          have hlen := congrArg List.length h
          rw [List.flatten_nil, List.flatten_cons, List.length_append, List.length_nil,
            hbs b List.mem_cons_self] at hlen
          omega
  | cons a as ih =>
      cases bs with
      | nil =>
          have hlen := congrArg List.length h
          rw [List.flatten_nil, List.flatten_cons, List.length_append, List.length_nil,
            has a List.mem_cons_self] at hlen
          omega
      | cons b bs =>
          rw [List.flatten_cons, List.flatten_cons] at h
          have hlen : a.length = b.length := by
            rw [has a List.mem_cons_self, hbs b List.mem_cons_self]
          rcases List.append_inj h hlen with ⟨hab, hrest⟩
          rw [hab, ih bs (fun x hx => has x (List.mem_cons_of_mem a hx))
            (fun x hx => hbs x (List.mem_cons_of_mem b hx)) hrest]

theorem memcpy_eq_some (dst src out : List UInt8) (i n : Nat) :
    memcpy dst i src n = some out ↔
      n ≤ src.length ∧ i + n ≤ dst.length ∧ out = poke dst i (src.take n) := by
  rw [memcpy]
  by_cases h : n ≤ src.length ∧ i + n ≤ dst.length
  · rw [if_pos h, Option.some.injEq]
    exact ⟨fun he => ⟨h.1, h.2, he.symm⟩, fun he => he.2.2.symm⟩
  · simp only [if_neg h, reduceCtorEq, false_iff]
    exact fun hc => h ⟨hc.1, hc.2.1⟩

end Wire
