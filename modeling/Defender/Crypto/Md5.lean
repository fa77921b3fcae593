import Defender.Crypto.HashStream
import Defender.Crypto.Sm4
import Defender.Lib.Machine

/-!
# MD5

`md5ex.cpp` against the standard. As in SHA-1 the lines name the registers in
rotations; the words they read and the distances they turn by are written out
in the source and formulas in the standard.

The context counts bits and not bytes, in the other byte order, and the loop
over the blocks of a piece compares `i + 64` with the length of the piece in
thirty-two bits. Near the end of the longest pieces the sum wraps, the
comparison holds, and the loop goes on to a block that is not there; so an
update is a partial function, and `md5Update_eq` says where it is not defined.

## Main definitions

* `md5Line`, `md5Transform`: The lines.
* `Md5Ctx`, `md5Init`, `md5Blocks`, `md5Update`, `md5Final`: The functions.
* `rfcWord`, `rfcTurn`, `rfcT`, `rfcRound`, `rfcCompress`, `rfcMd5`: The
  standard, its table from the series of the sine.
* `TookMd5`: A context that has taken a message.
* `Wraps`, `Fits`: The pieces at whose end the sum wraps, and messages without
  one.

## Theorems

* `md5Transform_eq`: The lines are the compression function.
* `md5Blocks_eq`: What the loop comes to.
* `md5Update_eq`: When an update leaves its input, and what it takes.
* `md5Final_eq`: The digest of what a context has taken.
* `md5_chunks`: The digest of the pieces is that of the message.
-/

namespace Defender

namespace Crypto

open Wire BlockHash

/-! ### The source -/

/-- `ROTATE_LEFT(x,n)`. -/
def md5RotateLeft (x n : UInt32) : UInt32 :=
  (x <<< n) ||| (x >>> (32 - n))

/-- `F`, `G`, `H` and `I`, as the macro of line `t` uses them. -/
def md5F (t : Nat) (x y z : UInt32) : UInt32 :=
  if t < 16 then (x &&& y) ||| (~~~x &&& z)
  else if t < 32 then (x &&& z) ||| (y &&& ~~~z)
  else if t < 48 then x ^^^ y ^^^ z
  else y ^^^ (x ||| ~~~z)

/-- What the sixty-four lines are given: the word of `x`, `s` and `ac`. -/
def md5Lines : Vector (Nat × UInt32 × UInt32) 64 :=
  #v[
    (0, 7, 0xd76aa478), (1, 12, 0xe8c7b756), (2, 17, 0x242070db), (3, 22, 0xc1bdceee),
    (4, 7, 0xf57c0faf), (5, 12, 0x4787c62a), (6, 17, 0xa8304613), (7, 22, 0xfd469501),
    (8, 7, 0x698098d8), (9, 12, 0x8b44f7af), (10, 17, 0xffff5bb1), (11, 22, 0x895cd7be),
    (12, 7, 0x6b901122), (13, 12, 0xfd987193), (14, 17, 0xa679438e), (15, 22, 0x49b40821),
    (1, 5, 0xf61e2562), (6, 9, 0xc040b340), (11, 14, 0x265e5a51), (0, 20, 0xe9b6c7aa),
    (5, 5, 0xd62f105d), (10, 9, 0x2441453), (15, 14, 0xd8a1e681), (4, 20, 0xe7d3fbc8),
    (9, 5, 0x21e1cde6), (14, 9, 0xc33707d6), (3, 14, 0xf4d50d87), (8, 20, 0x455a14ed),
    (13, 5, 0xa9e3e905), (2, 9, 0xfcefa3f8), (7, 14, 0x676f02d9), (12, 20, 0x8d2a4c8a),
    (5, 4, 0xfffa3942), (8, 11, 0x8771f681), (11, 16, 0x6d9d6122), (14, 23, 0xfde5380c),
    (1, 4, 0xa4beea44), (4, 11, 0x4bdecfa9), (7, 16, 0xf6bb4b60), (10, 23, 0xbebfbc70),
    (13, 4, 0x289b7ec6), (0, 11, 0xeaa127fa), (3, 16, 0xd4ef3085), (6, 23, 0x4881d05),
    (9, 4, 0xd9d4d039), (12, 11, 0xe6db99e5), (15, 16, 0x1fa27cf8), (2, 23, 0xc4ac5665),
    (0, 6, 0xf4292244), (7, 10, 0x432aff97), (14, 15, 0xab9423a7), (5, 21, 0xfc93a039),
    (12, 6, 0x655b59c3), (3, 10, 0x8f0ccc92), (10, 15, 0xffeff47d), (1, 21, 0x85845dd1),
    (8, 6, 0x6fa87e4f), (15, 10, 0xfe2ce6e0), (6, 15, 0xa3014314), (13, 21, 0x4e0811a1),
    (4, 6, 0xf7537e82), (11, 10, 0xbd3af235), (2, 15, 0x2ad7d2bb), (9, 21, 0xeb86d391)]

/-- `FF`, `GG`, `HH` and `II`, on the registers at these places. -/
def md5Macro (t : Nat) (r : Vector UInt32 4) (a b c d : Fin 4) (x s ac : UInt32) :
    Vector UInt32 4 :=
  let y := r.get a + (md5F t (r.get b) (r.get c) (r.get d) + x + ac)
  r.set a (md5RotateLeft y s + r.get b)

/-- Line `t`. The first names the registers `a, b, c, d`, the second
    `d, a, b, c`, and so on. -/
def md5Line (x : List UInt32) (r : Vector UInt32 4) (t : Nat) : Vector UInt32 4 :=
  let q := Fin.ofNat 4 t
  let l := md5Lines.get (Fin.ofNat 64 t)
  md5Macro t r (0 - q) (1 - q) (2 - q) (3 - q) (x.getD l.1 0) l.2.1 l.2.2

/-- `MD5Decode`. -/
def md5Decode (block : List UInt8) : List UInt32 :=
  (List.range 16).map (fun i => dwordAt block (4 * i))

/-- `MD5Transform`. -/
def md5Transform (state : Vector UInt32 4) (block : List UInt8) : Vector UInt32 4 :=
  Vector.zipWith (· + ·) state ((List.range 64).foldl (md5Line (md5Decode block)) state)

/-- `MD5_CTX_EX`. -/
structure Md5Ctx where
  count0 : UInt32
  count1 : UInt32
  state : Vector UInt32 4
  buffer : List UInt8

/-- The start value of `MD5Init`. -/
def md5Start : Vector UInt32 4 :=
  #v[0x67452301, 0xEFCDAB89, 0x98BADCFE, 0x10325476]

/-- `MD5Init`. -/
def md5Init (context : Md5Ctx) : Md5Ctx :=
  { context with count0 := 0, count1 := 0, state := md5Start }

/-- The `for` loop of `MD5Update` from `i` on: the chaining value and `i` at its
    end, or nothing when it reads a block that does not lie in the input. -/
def md5Blocks (input : List UInt8) (inputlen : UInt32) (state : Vector UInt32 4) (i : UInt32) :
    Option (Vector UInt32 4 × UInt32) :=
  if i + 64 ≤ inputlen then
    if i.toNat + 64 ≤ inputlen.toNat then
      md5Blocks input inputlen (md5Transform state (slice input i.toNat 64)) (i + 64)
    else none
  else some (state, i)
termination_by inputlen.toNat - i.toNat
decreasing_by
  have hlen := inputlen.toNat_lt
  have hnext : (i + 64).toNat = (i.toNat + 64) % 4294967296 := UInt32.toNat_add i 64
  omega

/-- `MD5Update` on the `inputlen` bytes at `input`, which are the list. -/
def md5Update (context : Md5Ctx) (input : List UInt8) : Option Md5Ctx :=
  let inputlen := UInt32.ofNat input.length
  let index := ((context.count0 >>> 3) &&& 0x3F).toNat
  let partlen := 64 - index
  let count0 := context.count0 + (inputlen <<< 3)
  let count1 := if count0 < inputlen <<< 3 then context.count1 + 1 else context.count1
  let count1 := count1 + (inputlen >>> 29)
  if partlen ≤ input.length then
    let buffer := poke context.buffer index (input.take partlen)
    match md5Blocks input inputlen (md5Transform context.state buffer) (UInt32.ofNat partlen) with
    | none => none
    | some (state, i) =>
        some { count0, count1, state, buffer := poke buffer 0 (input.drop i.toNat) }
  else some { context with count0, count1, buffer := poke context.buffer index input }

/-- `PADDING`. -/
def md5Padding : List UInt8 :=
  0x80 :: List.replicate 63 0

/-- `MD5Final`: what it writes to `digest`. -/
def md5Final (context : Md5Ctx) : Option (List UInt8) :=
  let bits := le32 context.count0 ++ le32 context.count1
  let index := ((context.count0 >>> 3) &&& 0x3F).toNat
  let padlen := if index < 56 then 56 - index else 120 - index
  ((md5Update context (md5Padding.take padlen)).bind (fun context => md5Update context bits)).map
    (fun context => context.state.toList.flatMap le32)

/-! ### The standard -/

/-- The word that step `t` reads. -/
def rfcWord (t : Nat) : Nat :=
  if t < 16 then t
  else if t < 32 then (5 * t + 1) % 16
  else if t < 48 then (3 * t + 5) % 16
  else 7 * t % 16

/-- The distance that step `t` turns by. -/
def rfcTurn (t : Nat) : UInt32 :=
  if t < 16 then [7, 12, 17, 22].getD (t % 4) 0
  else if t < 32 then [5, 9, 14, 20].getD (t % 4) 0
  else if t < 48 then [4, 11, 16, 23].getD (t % 4) 0
  else [6, 10, 15, 21].getD (t % 4) 0

/-- A term of the series of the sine of `x` is added, to the sum of those of its
    sign, and the next is computed. -/
def sineTerm (x : Nat) (s : Nat × Nat × Nat) (k : Nat) : Nat × Nat × Nat :=
  let (term, plus, minus) := s
  (term * x * x / ((2 * k + 2) * (2 * k + 3)), minus, plus + term)

/-- The whole part of `2 ^ 32 * |sin x|`. The series is summed with a hundred and
    sixty bits behind the point, as far as needed for `x` up to sixty-four. -/
def sineFloor (x : Nat) : Nat :=
  let (_, plus, minus) := (List.range 128).foldl (sineTerm x) (x * 2 ^ 160, 0, 0)
  (max plus minus - min plus minus) / 2 ^ 128

/-- The table of sines. -/
def rfcT (t : Nat) : UInt32 :=
  UInt32.ofNat (sineFloor (t + 1))

/-- The function of step `t`. -/
def rfcF (t : Nat) (x y z : UInt32) : UInt32 :=
  if t < 16 then (x &&& y) ||| (~~~x &&& z)
  else if t < 32 then (x &&& z) ||| (y &&& ~~~z)
  else if t < 48 then x ^^^ y ^^^ z
  else y ^^^ (x ||| ~~~z)

/-- Step `t`. -/
def rfcRound (M : List UInt8) (v : Vector UInt32 4) (t : Nat) : Vector UInt32 4 :=
  let X := dwordAt M (4 * rfcWord t)
  let a := v[1] + rotl (v[0] + rfcF t v[1] v[2] v[3] + X + rfcT t) (rfcTurn t)
  #v[v[3], a, v[1], v[2]]

/-- The compression function. -/
def rfcCompress (H : Vector UInt32 4) (M : List UInt8) : Vector UInt32 4 :=
  Vector.zipWith (· + ·) H ((List.range 64).foldl (rfcRound M) H)

/-- The start value, by its bytes. -/
def rfcStart : Vector UInt32 4 :=
  #v[dwordAt [0x01, 0x23, 0x45, 0x67] 0, dwordAt [0x89, 0xAB, 0xCD, 0xEF] 0,
    dwordAt [0xFE, 0xDC, 0xBA, 0x98] 0, dwordAt [0x76, 0x54, 0x32, 0x10] 0]

/-- The digest of a message. -/
def rfcMd5 (m : List UInt8) : List UInt8 :=
  (absorb 64 rfcCompress rfcStart (m ++ padding 64 m.length (le64 (8 * m.length)))).toList.flatMap
    le32

/-! ### The lines and the steps -/

/-- The constants of the lines are the table of sines. -/
theorem md5Lines_sine : ∀ t : Fin 64, (md5Lines.get t).2.2 = rfcT t.val := by
  decide +kernel

theorem md5Start_eq : md5Start = rfcStart := by
  decide

/-- What is written out in the lines is what the formulas give. -/
theorem md5Lines_eq (t : Nat) (ht : t < 64) :
    md5Lines.get (Fin.ofNat 64 t) = (rfcWord t, rfcTurn t, rfcT t) := by
  have hall : ∀ t : Fin 64, (md5Lines.get t).1 = rfcWord t.val ∧
      (md5Lines.get t).2.1 = rfcTurn t.val := by decide
  have hsame : Fin.ofNat 64 t = ⟨t, ht⟩ := Fin.ext (Nat.mod_eq_of_lt ht)
  rcases hall ⟨t, ht⟩ with ⟨hword, hturn⟩
  rw [← hword, ← hturn, ← md5Lines_sine ⟨t, ht⟩, hsame]

theorem ofNat4_succ (t : Nat) : Fin.ofNat 4 (t + 1) = Fin.ofNat 4 t + 1 := by
  apply Fin.ext
  simp only [Fin.ofNat, Fin.val_add]
  omega

/-- The register a line writes, and the next roles. -/
theorem along_set4 (v : Vector UInt32 4) (y : UInt32) :
    along (v.set 0 y) = #v[v[3], y, v[1], v[2]] := by
  refine ext_get _ _ (fun k => ?_)
  have h0 : (v.set 0 y).get (k - 1) = if 0 = k - 1 then y else v.get (k - 1) :=
    get_set v 0 (k - 1) y
  rw [get_along, h0]
  match k with
  | 0 | 1 | 2 | 3 => rfl

theorem rfcWord_lt (t : Nat) : rfcWord t < 16 := by
  unfold rfcWord
  split
  · assumption
  · split
    · omega
    · split <;> omega

/-- A line is a step, in the roles of the next line. -/
theorem roles_md5Line (M : List UInt8) (t : Nat) (ht : t < 64) (r : Vector UInt32 4) :
    roles (Fin.ofNat 4 (t + 1)) (md5Line (md5Decode M) r t)
      = rfcRound M (roles (Fin.ofNat 4 t) r) t := by
  have hsum : ∀ a f x k : UInt32, a + (f + x + k) = a + f + x + k := by
    intro a f x k
    ac_rfl
  have hword : (md5Decode M).getD (rfcWord t) 0 = dwordAt M (4 * rfcWord t) :=
    getD_map_range _ _ _ _ (rfcWord_lt t)
  rw [ofNat4_succ, md5Line, md5Lines_eq t ht]
  dsimp only [md5Macro]
  rw [hword, roles_succ, roles_set, hsum]
  simp only [← get_roles]
  rw [UInt32.add_comm]
  exact along_set4 (roles (Fin.ofNat 4 t) r) _

/-- The lines are the compression function. -/
theorem md5Transform_eq (state : Vector UInt32 4) (block : List UInt8) :
    md5Transform state block = rfcCompress state block := by
  have hend := foldl_range_rel (fun t r v => roles (Fin.ofNat 4 t) r = v)
    (md5Line (md5Decode block)) (rfcRound block) 64
    (fun t r v ht h => (roles_md5Line block t ht r).trans (by rw [h])) state state
    (roles_zero state)
  rw [show Fin.ofNat 4 64 = 0 from rfl, roles_zero] at hend
  rw [md5Transform, rfcCompress, hend]

/-! ### The context -/

/-- A context that has taken a message: the counter has its bits. -/
structure TookMd5 (m : List UInt8) (context : Md5Ctx) : Prop where
  count : 8 * m.length % 2 ^ 64 = 4294967296 * context.count1.toNat + context.count0.toNat
  holds : Holds 64 md5Transform md5Start m context.state context.buffer

/-- A fresh context has taken nothing. -/
theorem tookMd5_init (context : Md5Ctx) (hbuffer : context.buffer.length = 64) :
    TookMd5 [] (md5Init context) where
  count := by
    rw [List.length_nil, Nat.mul_zero, Nat.zero_mod]
    rfl
  holds := Holds.start md5Start context.buffer (by decide) hbuffer

/-- How much of the buffer is in use. -/
theorem TookMd5.index {m : List UInt8} {context : Md5Ctx} (h : TookMd5 m context) :
    ((context.count0 >>> 3) &&& 0x3F).toNat = m.length % 64 := by
  have hcount := h.count
  have h3 : (3 : UInt32).toNat % 32 = 3 := rfl
  have hmask : (context.count0.toNat >>> 3) &&& (0x3F : UInt32).toNat
      = (context.count0.toNat >>> 3) % 64 := Nat.and_two_pow_sub_one_eq_mod _ 6
  rw [UInt32.toNat_and, UInt32.toNat_shiftRight, h3, hmask, Nat.shiftRight_eq_div_pow]
  omega

/-- Adding the bits of a piece to the counter. -/
theorem count_add (c0 c1 : UInt32) (n k : Nat) (hk : k < 4294967296)
    (h : 8 * n % 2 ^ 64 = 4294967296 * c1.toNat + c0.toNat) :
    let bits := UInt32.ofNat k <<< 3
    8 * (n + k) % 2 ^ 64
      = 4294967296 * ((if c0 + bits < bits then c1 + 1 else c1) + (UInt32.ofNat k >>> 29)).toNat
        + (c0 + bits).toNat := by
  intro bits
  have h0 := c0.toNat_lt
  have h1 := c1.toNat_lt
  have hlen : (UInt32.ofNat k).toNat = k := UInt32.toNat_ofNat_of_lt' hk
  have hbits : bits.toNat = 8 * k % 4294967296 := by
    have h3 : (3 : UInt32).toNat % 32 = 3 := rfl
    rw [UInt32.toNat_shiftLeft, hlen, h3, Nat.shiftLeft_eq]
    omega
  have hhigh : (UInt32.ofNat k >>> 29).toNat = k / 2 ^ 29 := by
    have h29 : (29 : UInt32).toNat % 32 = 29 := rfl
    rw [UInt32.toNat_shiftRight, hlen, h29, Nat.shiftRight_eq_div_pow]
  have hsum : (c0 + bits).toNat = (c0.toNat + 8 * k % 4294967296) % 4294967296 := by
    rw [UInt32.toNat_add, hbits]
  have hone : (c1 + 1).toNat = (c1.toNat + 1) % 4294967296 := UInt32.toNat_add c1 1
  have hlt : c0 + bits < bits ↔
      (c0.toNat + 8 * k % 4294967296) % 4294967296 < 8 * k % 4294967296 := by
    rw [UInt32.lt_iff_toNat_lt, hsum, hbits]
  rw [UInt32.toNat_add, hhigh, hsum]
  by_cases hcarry : c0 + bits < bits
  · rw [if_pos hcarry, hone]
    have := hlt.mp hcarry
    omega
  · rw [if_neg hcarry]
    have := mt hlt.mpr hcarry
    omega

/-- The pieces at whose end `i + 64` wraps, behind a buffer with `held` bytes. -/
def Wraps (held len : Nat) : Prop :=
  4294967296 ≤ len + (if held = 0 then 64 else held)

instance (held len : Nat) : Decidable (Wraps held len) :=
  inferInstanceAs (Decidable (_ ≤ _))

/-- What the loop comes to: it takes the whole blocks, or wraps behind the last
    of them. Induction on the blocks. -/
theorem md5Blocks_eq (input : List UInt8) (inputlen : UInt32) (hlen : inputlen.toNat = input.length)
    (n : Nat) (state : Vector UInt32 4) (i : UInt32) (hi : i.toNat ≤ input.length)
    (hn : (input.length - i.toNat) / 64 = n) :
    md5Blocks input inputlen state i
      = if i.toNat + 64 * n + 64 < 4294967296 then
          some (absorb 64 md5Transform state (input.drop i.toNat), UInt32.ofNat (i.toNat + 64 * n))
        else none := by
  have hlt := inputlen.toNat_lt
  have hnext : (i + 64).toNat = (i.toNat + 64) % 4294967296 := UInt32.toNat_add i 64
  have hcond : i + 64 ≤ inputlen ↔ (i.toNat + 64) % 4294967296 ≤ input.length := by
    rw [UInt32.le_iff_toNat_le, hnext, hlen]
  rw [md5Blocks]
  induction n generalizing state i with
  | zero =>
      -- Less than a block is left. The condition holds all the same when `i + 64`
      -- wraps, and the block is read behind the end.
      by_cases hwrap : i.toNat + 64 * 0 + 64 < 4294967296
      · have hshort : (input.drop i.toNat).length < 64 := by
          rw [List.length_drop]
          omega
        rw [if_neg (by rw [hcond]; omega), if_pos hwrap, absorb_of_lt 64 _ _ _ hshort, Nat.mul_zero,
          Nat.add_zero, UInt32.ofNat_toNat]
      · rw [if_pos (by rw [hcond]; omega), if_neg (by omega), if_neg hwrap]
  | succ n ih =>
      -- One block, and the others by induction from behind it.
      have hstep : (i + 64).toNat = i.toNat + 64 := by omega
      have hafter : (i + 64 + 64).toNat = (i.toNat + 64 + 64) % 4294967296 := by
        rw [UInt32.toNat_add, hstep]
        rfl
      have hblock : (slice input i.toNat 64).length = 64 := length_slice _ _ _ (by omega)
      have hcut : input.drop i.toNat = slice input i.toNat 64 ++ input.drop (i.toNat + 64) := by
        rw [slice, ← List.drop_drop, List.take_append_drop]
      have hrec := ih (md5Transform state (slice input i.toNat 64)) (i + 64) (by omega) (by omega)
        (by rw [UInt32.toNat_add, hstep]; rfl) (by rw [UInt32.le_iff_toNat_le, hafter, hlen, hstep])
      rw [← md5Blocks, hstep] at hrec
      rw [if_pos (by rw [hcond]; omega), if_pos (by omega), hrec, hcut,
        absorb_block _ (by decide) _ _ _ hblock]
      have hsame : i.toNat + 64 + 64 * n = i.toNat + 64 * (n + 1) := by omega
      rw [hsame]

/-- An update of a context that has taken a message leaves its input when it
    wraps, and else takes it. -/
theorem md5Update_eq (m : List UInt8) (context : Md5Ctx) (h : TookMd5 m context)
    (input : List UInt8) (hlen : input.length < 4294967296) :
    (md5Update context input = none ↔ Wraps (m.length % 64) input.length) ∧
      ∀ after, md5Update context input = some after → TookMd5 (m ++ input) after := by
  have hlt := Nat.mod_lt m.length (by decide : 64 > 0)
  have hinput : (UInt32.ofNat input.length).toNat = input.length :=
    UInt32.toNat_ofNat_of_lt' hlen
  have hcount := count_add context.count0 context.count1 m.length input.length hlen h.count
  rw [← List.length_append] at hcount
  unfold md5Update
  simp only [h.index]
  by_cases hfill : 64 - m.length % 64 ≤ input.length
  · -- The buffer is filled up, and the loop begins behind what went into it.
    have hpart : (UInt32.ofNat (64 - m.length % 64)).toNat = 64 - m.length % 64 := by
      rw [UInt32.toNat_ofNat']
      omega
    have hblocks := md5Blocks_eq input _ hinput _
      (md5Transform context.state (poke context.buffer (m.length % 64)
        (input.take (64 - m.length % 64))))
      (UInt32.ofNat (64 - m.length % 64)) (by omega) rfl
    rw [hpart] at hblocks
    rw [if_pos hfill]
    have hsum : 64 - m.length % 64 + 64 * ((input.length - (64 - m.length % 64)) / 64) + 64
        < 4294967296 ↔ ¬ Wraps (m.length % 64) input.length := by
      unfold Wraps
      split <;> omega
    by_cases hwrap : Wraps (m.length % 64) input.length
    · rw [hblocks, if_neg (by rw [hsum]; exact not_not_intro hwrap)]
      exact ⟨iff_of_true rfl hwrap, fun after hafter => absurd hafter (by
        simp only [reduceCtorEq, not_false_eq_true])⟩
    · rw [hblocks, if_pos (hsum.mpr hwrap)]
      refine ⟨iff_of_false (by simp only [reduceCtorEq, not_false_eq_true]) hwrap, ?_⟩
      intro after hafter
      have hpiece : m.length % 64 + (input.take (64 - m.length % 64)).length = 64 := by
        rw [List.length_take]
        omega
      have hfilled := h.holds.fill (by decide) (input.take (64 - m.length % 64)) hpiece
      have hzero : (m ++ input.take (64 - m.length % 64)).length % 64 = 0 := by
        rw [List.length_append]
        omega
      have hrest := hfilled.blocks (by decide) hzero (input.drop (64 - m.length % 64))
      have hend : (UInt32.ofNat (64 - m.length % 64
            + 64 * ((input.length - (64 - m.length % 64)) / 64))).toNat
          = 64 - m.length % 64 + 64 * ((input.length - (64 - m.length % 64)) / 64) :=
        UInt32.toNat_ofNat_of_lt' (by
          have hsmall := hsum.mpr hwrap
          exact Nat.lt_of_le_of_lt (by omega) hsmall)
      rw [List.append_assoc, List.take_append_drop, rest, List.length_drop, List.drop_drop] at hrest
      rw [← Option.some.inj hafter, hend]
      exact ⟨hcount, hrest⟩
  · -- The piece does not fill the buffer, and there is no loop that could wrap.
    rw [if_neg hfill]
    refine ⟨⟨fun hnone => absurd hnone (by simp only [reduceCtorEq, not_false_eq_true]),
      fun hw => ?_⟩, ?_⟩
    · unfold Wraps at hw
      split at hw <;> omega
    · intro after hafter
      rw [← Option.some.inj hafter]
      exact ⟨hcount, h.holds.hold (by decide) input (by omega)⟩

/-- An update that does not wrap takes its piece. -/
theorem tookMd5_update (m : List UInt8) (context : Md5Ctx) (h : TookMd5 m context)
    (input : List UInt8) (hlen : input.length < 4294967296)
    (hfits : ¬ Wraps (m.length % 64) input.length) :
    ∃ after, md5Update context input = some after ∧ TookMd5 (m ++ input) after := by
  rcases md5Update_eq m context h input hlen with ⟨hnone, htook⟩
  cases hafter : md5Update context input with
  | none => exact absurd (hnone.mp hafter) hfits
  | some after => exact ⟨after, rfl, htook after hafter⟩

/-- No piece of a message wraps, behind the `n` bytes before it. -/
def Fits : Nat → List (List UInt8) → Prop
  | _, [] => True
  | n, c :: chunks => ¬ Wraps (n % 64) c.length ∧ Fits (n + c.length) chunks

instance fitsDecidable : ∀ (n : Nat) (chunks : List (List UInt8)), Decidable (Fits n chunks)
  | _, [] => isTrue trivial
  | n, c :: chunks =>
      have := fitsDecidable (n + c.length) chunks
      inferInstanceAs (Decidable (_ ∧ _))

/-- A context takes its pieces if none of them wraps, and none if one does. -/
theorem TookMd5.run {m : List UInt8} {context : Md5Ctx} (h : TookMd5 m context)
    (chunks : List (List UInt8)) (hlength : ∀ c ∈ chunks, c.length < 4294967296) :
    (Machine.run md5Update context chunks = none ↔ ¬ Fits m.length chunks) ∧
      ∀ after, Machine.run md5Update context chunks = some after →
        TookMd5 (m ++ chunks.flatten) after := by
  induction chunks generalizing m context with
  | nil =>
      refine ⟨iff_of_false (by simp only [Machine.run_nil, reduceCtorEq, not_false_eq_true])
        (not_not_intro trivial), fun after hafter => ?_⟩
      rw [← Option.some.inj hafter, List.flatten_nil, List.append_nil]
      exact h
  | cons c chunks ih =>
      have hlen := hlength c List.mem_cons_self
      rcases md5Update_eq m context h c hlen with ⟨hnone, htook⟩
      have hrun : Machine.run md5Update context (c :: chunks)
          = (md5Update context c).bind (fun next => Machine.run md5Update next chunks) := rfl
      rw [hrun]
      cases hstep : md5Update context c with
      | none =>
          have hwraps := hnone.mp hstep
          exact ⟨iff_of_true rfl (fun hfits => hfits.1 hwraps), fun after hafter =>
            absurd hafter (by simp only [Option.bind_none, reduceCtorEq, not_false_eq_true])⟩
      | some next =>
          have hfits : ¬ Wraps (m.length % 64) c.length := fun hw =>
            absurd (hstep.symm.trans (hnone.mpr hw)) (by
              simp only [reduceCtorEq, not_false_eq_true])
          rcases ih (htook next hstep) (fun d hd => hlength d (List.mem_cons_of_mem c hd)) with
            ⟨hrest, htaken⟩
          rw [List.length_append] at hrest
          refine ⟨hrest.trans (not_congr (and_iff_right hfits).symm), fun after hafter => ?_⟩
          rw [List.flatten_cons, ← List.append_assoc]
          exact htaken after hafter

/-- The field with the length, from the counter. -/
theorem bits_eq (c0 c1 : UInt32) (n : Nat)
    (h : 8 * n % 2 ^ 64 = 4294967296 * c1.toNat + c0.toNat) :
    le32 c0 ++ le32 c1 = le64 (8 * n) := by
  have h0 := c0.toNat_lt
  have h1 := c1.toNat_lt
  have hlow : c0 = UInt32.ofNat (8 * n) := by
    apply UInt32.toNat_inj.mp
    rw [UInt32.toNat_ofNat']
    omega
  have hhigh : c1 = UInt32.ofNat (8 * n / 4294967296) := by
    apply UInt32.toNat_inj.mp
    rw [UInt32.toNat_ofNat']
    omega
  rw [le64, ← hlow, ← hhigh]

/-- A short piece never wraps. -/
theorem not_wraps (held len : Nat) (hheld : held < 64) (hlen : len < 4294967232) :
    ¬ Wraps held len := by
  unfold Wraps
  split <;> omega

/-- The end: the mark, the zeros and the length are taken like any piece. -/
theorem md5Final_eq (m : List UInt8) (context : Md5Ctx) (h : TookMd5 m context) :
    md5Final context = some (rfcMd5 m) := by
  have hlt : ∀ m : List UInt8, m.length % 64 < 64 := fun m => Nat.mod_lt _ (by decide)
  have htransform : md5Transform = rfcCompress := funext fun s => funext (md5Transform_eq s)
  have hpad := take_hashPadding (m.length % 64) (hlt m)
  have hshort : (0x80 :: List.replicate ((2 * 64 - 1 - 8 - m.length % 64) % 64) (0 : UInt8)).length
      < 4294967232 := by
    rw [List.length_cons, List.length_replicate]
    omega
  rcases tookMd5_update m context h _ (by omega) (not_wraps _ _ (hlt m) hshort) with
    ⟨marked, hmark, hmarked⟩
  rcases tookMd5_update _ marked hmarked (le64 (8 * m.length))
    (by rw [length_le64]; decide) (not_wraps _ _ (hlt _) (by rw [length_le64]; decide)) with
    ⟨closed, hclose, hclosed⟩
  unfold md5Final
  simp only [h.index, bits_eq _ _ _ h.count]
  rw [show md5Padding = hashPadding from rfl, hpad, hmark, Option.bind_some, hclose,
    Option.map_some, hclosed.holds.state, rfcMd5, padding, length_le64, List.append_assoc,
    htransform, md5Start_eq]

/-- The digest of the pieces is that of the message, however it is cut and
    whatever the context held, unless a piece is so long that the loop over its
    blocks leaves it. -/
theorem md5_chunks (context : Md5Ctx) (hbuffer : context.buffer.length = 64)
    (chunks : List (List UInt8)) (hlength : ∀ c ∈ chunks, c.length < 4294967296) :
    (Machine.run md5Update (md5Init context) chunks).bind md5Final
      = if Fits 0 chunks then some (rfcMd5 chunks.flatten) else none := by
  rcases (tookMd5_init context hbuffer).run chunks hlength with ⟨hnone, htook⟩
  rw [List.length_nil] at hnone
  cases hrun : Machine.run md5Update (md5Init context) chunks with
  | none => rw [if_neg (hnone.mp hrun), Option.bind_none]
  | some after =>
      have hfits : Fits 0 chunks := by
        by_contra hnot
        exact absurd (hrun.symm.trans (hnone.mpr hnot)) (by
          simp only [reduceCtorEq, not_false_eq_true])
      rw [if_pos hfits, Option.bind_some]
      exact md5Final_eq _ after (htook after hrun)

/-- A context of what happens to be in memory. -/
def Md5Ctx.fresh : Md5Ctx where
  count0 := 0xCCCCCCCC
  count1 := 0xCCCCCCCC
  state := Vector.replicate 4 0xCCCCCCCC
  buffer := List.replicate 64 0xCC

/-- Three bytes in two pieces. -/
theorem md5_chunks_two :
    (Machine.run md5Update (md5Init Md5Ctx.fresh) [[97], [98, 99]]).bind md5Final
      = if Fits 0 [[97], [98, 99]] then some (rfcMd5 [97, 98, 99]) else none :=
  md5_chunks Md5Ctx.fresh rfl [[97], [98, 99]] (by decide)

end Crypto

end Defender
