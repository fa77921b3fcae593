import Defender.Crypto.HashStream
import Defender.Crypto.Sha1

/-!
# SHA-256 and SHA-224

`sha256.c` against the standard. The source writes its sixty-four rounds out,
naming the eight registers in eight rotations, and computes each word of the
schedule in the line that first reads it. `Lines256` is where the source is in
the standard: the registers in their roles, and the schedule as far as it has
been computed.

The constants of the standard are the first thirty-two bits of the fractional
parts of the cube roots of the first sixty-four primes. They are computed here
and not copied, so that the numbers of the source are compared with what they
should be; in the same way the two start values are square roots.

## Main definitions

* `sha256P`, `sha256R`, `sha256Line`, `sha256Process`: The macros and the
  lines.
* `Sha256Ctx`, `sha256Starts`, `sha256Update`, `sha256Finish`: The functions.
* `rootBits`: The bits of a root.
* `fipsK256`, `fipsW256`, `fipsRound256`, `fipsCompress256`: The standard.
* `fipsSha256`: The two digests of a message.
* `Lines256`: Where the source is in the standard.
* `TookSha256`: A context that has taken a message.

## Theorems

* `sha256K_eq`: The constants of the source are those of the standard.
* `lines256_step`: A line is a round.
* `sha256Process_eq`: The lines are the compression function.
* `sha256Finish_eq`: The digest of what a context has taken.
* `sha256_chunks`: The digest of the pieces is that of the message.
-/

namespace Defender

namespace Crypto

open Wire BlockHash

/-! ### The source -/

/-- `SHR(x,n)`. -/
def sha256Shr (x n : UInt32) : UInt32 :=
  (x &&& 0xFFFFFFFF) >>> n

/-- `ROTR(x,n)`. -/
def sha256Rotr (x n : UInt32) : UInt32 :=
  sha256Shr x n ||| (x <<< (32 - n))

/-- `S0(x)`. -/
def sha256S0 (x : UInt32) : UInt32 :=
  sha256Rotr x 7 ^^^ sha256Rotr x 18 ^^^ sha256Shr x 3

/-- `S1(x)`. -/
def sha256S1 (x : UInt32) : UInt32 :=
  sha256Rotr x 17 ^^^ sha256Rotr x 19 ^^^ sha256Shr x 10

/-- `S2(x)`. -/
def sha256S2 (x : UInt32) : UInt32 :=
  sha256Rotr x 2 ^^^ sha256Rotr x 13 ^^^ sha256Rotr x 22

/-- `S3(x)`. -/
def sha256S3 (x : UInt32) : UInt32 :=
  sha256Rotr x 6 ^^^ sha256Rotr x 11 ^^^ sha256Rotr x 25

/-- `F0(x,y,z)`. -/
def sha256F0 (x y z : UInt32) : UInt32 :=
  (x &&& y) ||| (z &&& (x ||| y))

/-- `F1(x,y,z)`. -/
def sha256F1 (x y z : UInt32) : UInt32 :=
  z ^^^ (x &&& (y ^^^ z))

/-- The constants of the sixty-four lines. -/
def sha256K : Vector UInt32 64 :=
  #v[
    0x428A2F98, 0x71374491, 0xB5C0FBCF, 0xE9B5DBA5, 0x3956C25B, 0x59F111F1, 0x923F82A4, 0xAB1C5ED5,
    0xD807AA98, 0x12835B01, 0x243185BE, 0x550C7DC3, 0x72BE5D74, 0x80DEB1FE, 0x9BDC06A7, 0xC19BF174,
    0xE49B69C1, 0xEFBE4786, 0x0FC19DC6, 0x240CA1CC, 0x2DE92C6F, 0x4A7484AA, 0x5CB0A9DC, 0x76F988DA,
    0x983E5152, 0xA831C66D, 0xB00327C8, 0xBF597FC7, 0xC6E00BF3, 0xD5A79147, 0x06CA6351, 0x14292967,
    0x27B70A85, 0x2E1B2138, 0x4D2C6DFC, 0x53380D13, 0x650A7354, 0x766A0ABB, 0x81C2C92E, 0x92722C85,
    0xA2BFE8A1, 0xA81A664B, 0xC24B8B70, 0xC76C51A3, 0xD192E819, 0xD6990624, 0xF40E3585, 0x106AA070,
    0x19A4C116, 0x1E376C08, 0x2748774C, 0x34B0BCB5, 0x391C0CB3, 0x4ED8AA4A, 0x5B9CCA4F, 0x682E6FF3,
    0x748F82EE, 0x78A5636F, 0x84C87814, 0x8CC70208, 0x90BEFFFA, 0xA4506CEB, 0xBEF9A3F7, 0xC67178F2]

/-- `P(a,b,c,d,e,f,g,h,x,K)`, on the registers at these places. -/
def sha256P (r : Vector UInt32 8) (a b c d e f g h : Fin 8) (x K : UInt32) : Vector UInt32 8 :=
  let temp1 := r.get h + sha256S3 (r.get e) + sha256F1 (r.get e) (r.get f) (r.get g) + K + x
  let temp2 := sha256S2 (r.get a) + sha256F0 (r.get a) (r.get b) (r.get c)
  let r := r.set d (r.get d + temp1)
  r.set h (temp1 + temp2)

/-- `R(t)`: the array with the word in it. What the array has not been given
    yet is left out of it. -/
def sha256R (W : List UInt32) (t : Nat) : List UInt32 :=
  W ++ [sha256S1 (W.getD (t - 2) 0) + W.getD (t - 7) 0 + sha256S0 (W.getD (t - 15) 0)
    + W.getD (t - 16) 0]

/-- Line `t`. The first names the registers `A` to `H`, the second `H`, `A` to
    `G`, and so on. -/
def sha256Line (v : Vector UInt32 8 × List UInt32) (t : Nat) : Vector UInt32 8 × List UInt32 :=
  let W := if t < 16 then v.2 else sha256R v.2 t
  let q := Fin.ofNat 8 t
  (sha256P v.1 (0 - q) (1 - q) (2 - q) (3 - q) (4 - q) (5 - q) (6 - q) (7 - q) (W.getD t 0)
    (sha256K.get (Fin.ofNat 64 t)), W)

/-- `sha256_process`. -/
def sha256Process (state : Vector UInt32 8) (data : List UInt8) : Vector UInt32 8 :=
  let W := (List.range 16).map (fun i => dwordBeAt data (4 * i))
  let r := ((List.range 64).foldl sha256Line (state, W)).1
  Vector.zipWith (· + ·) state r

/-- `sha256_context`. -/
structure Sha256Ctx where
  hash : HashCtx (Vector UInt32 8)
  ipad : List UInt8
  opad : List UInt8
  is224 : Int

/-- The start values of `sha256_starts`. -/
def sha256Init (is224 : Int) : Vector UInt32 8 :=
  if is224 = 0 then
    #v[0x6A09E667, 0xBB67AE85, 0x3C6EF372, 0xA54FF53A, 0x510E527F, 0x9B05688C, 0x1F83D9AB,
      0x5BE0CD19]
  else
    #v[0xC1059ED8, 0x367CD507, 0x3070DD17, 0xF70E5939, 0xFFC00B31, 0x68581511, 0x64F98FA7,
      0xBEFA4FA4]

/-- `sha256_starts`. -/
def sha256Starts (ctx : Sha256Ctx) (is224 : Int) : Sha256Ctx :=
  { ctx with hash := hashStart ctx.hash (sha256Init is224), is224 := is224 }

/-- `sha256_update` on the `ilen` bytes at `input`, which are the list. -/
def sha256Update (ctx : Sha256Ctx) (input : List UInt8) : Sha256Ctx :=
  { ctx with hash := hashUpdate sha256Process ctx.hash input }

/-- `sha256_finish`: the context, and what is written to `output`. -/
def sha256Finish (ctx : Sha256Ctx) : Sha256Ctx × List UInt8 :=
  let hash := hashFinish sha256Process ctx.hash
  let words := if ctx.is224 = 0 then hash.state.toList else hash.state.toList.take 7
  ({ ctx with hash := hash }, words.flatMap be32)

/-- `sha256_init`. -/
def Sha256Ctx.init : Sha256Ctx where
  hash := { total0 := 0, total1 := 0, state := Vector.replicate 8 0, buffer := List.replicate 64 0 }
  ipad := List.replicate 64 0
  opad := List.replicate 64 0
  is224 := 0

/-- `sha256`. -/
def sha256 (input : List UInt8) (is224 : Int) : List UInt8 :=
  (sha256Finish (sha256Update (sha256Starts Sha256Ctx.init is224) input)).2

/-! ### The standard -/

/-- The largest number whose `k`th power is at most `n`, if it has not more
    than forty bits. -/
def root (k n : Nat) : Nat :=
  (List.range 40).foldr (fun i r => if (r + 2 ^ i) ^ k ≤ n then r + 2 ^ i else r) 0

/-- The first thirty-two bits behind the point of the `k`th root of `p`. -/
def rootBits (k p : Nat) : UInt32 :=
  UInt32.ofNat (root k (p * 2 ^ (32 * k)))

/-- The first sixty-four primes. -/
def primes : List Nat :=
  [2, 3, 5, 7, 11, 13, 17, 19, 23, 29, 31, 37, 41, 43, 47, 53, 59, 61, 67, 71, 73, 79, 83, 89, 97,
    101, 103, 107, 109, 113, 127, 131, 137, 139, 149, 151, 157, 163, 167, 173, 179, 181, 191, 193,
    197, 199, 211, 223, 227, 229, 233, 239, 241, 251, 257, 263, 269, 271, 277, 281, 283, 293, 307,
    311]

/-- The constants. -/
def fipsK256 : Vector UInt32 64 :=
  Vector.ofFn (fun t => rootBits 3 (primes.getD t.val 0))

/-- The start value: square roots of the first eight primes, and for SHA-224
    the second thirty-two bits of those of the next eight. -/
def fipsInit256 (is224 : Bool) : Vector UInt32 8 :=
  Vector.ofFn (fun i => if is224 then UInt32.ofNat (Nat.sqrt (primes.getD (i.val + 8) 0 * 2 ^ 128))
    else UInt32.ofNat (Nat.sqrt (primes.getD i.val 0 * 2 ^ 64)))

/-- Rotation to the right. -/
def rotr (x n : UInt32) : UInt32 :=
  (x >>> n) ||| (x <<< (32 - n))

/-- The schedule of a block. -/
def fipsW256 (M : List UInt8) (t : Nat) : UInt32 :=
  if t < 16 then dwordBeAt M (4 * t)
  else
    let s1 := fipsW256 M (t - 2)
    let s0 := fipsW256 M (t - 15)
    (rotr s1 17 ^^^ rotr s1 19 ^^^ (s1 >>> 10)) + fipsW256 M (t - 7)
      + (rotr s0 7 ^^^ rotr s0 18 ^^^ (s0 >>> 3)) + fipsW256 M (t - 16)

/-- Round `t`. -/
def fipsRound256 (M : List UInt8) (v : Vector UInt32 8) (t : Nat) : Vector UInt32 8 :=
  let ch := (v.get 4 &&& v.get 5) ^^^ (~~~v.get 4 &&& v.get 6)
  let maj := (v.get 0 &&& v.get 1) ^^^ (v.get 0 &&& v.get 2) ^^^ (v.get 1 &&& v.get 2)
  let T1 := v.get 7 + (rotr (v.get 4) 6 ^^^ rotr (v.get 4) 11 ^^^ rotr (v.get 4) 25) + ch
    + fipsK256.get (Fin.ofNat 64 t) + fipsW256 M t
  let T2 := (rotr (v.get 0) 2 ^^^ rotr (v.get 0) 13 ^^^ rotr (v.get 0) 22) + maj
  #v[T1 + T2, v.get 0, v.get 1, v.get 2, v.get 3 + T1, v.get 4, v.get 5, v.get 6]

/-- The compression function. -/
def fipsCompress256 (H : Vector UInt32 8) (M : List UInt8) : Vector UInt32 8 :=
  Vector.zipWith (· + ·) H ((List.range 64).foldl (fipsRound256 M) H)

/-- The digest of a message: eight words, or seven of them. -/
def fipsSha256 (is224 : Bool) (m : List UInt8) : List UInt8 :=
  let H := absorb 64 fipsCompress256 (fipsInit256 is224)
    (m ++ padding 64 m.length (be64 (8 * m.length)))
  (H.toList.take (if is224 then 7 else 8)).flatMap be32

/-! ### The constants -/

/-- The constants of the source are those of the standard. -/
theorem sha256K_eq : sha256K = fipsK256 := by
  decide +kernel

theorem sha256Init_eq (is224 : Int) : sha256Init is224 = fipsInit256 (is224 != 0) := by
  by_cases h : is224 = 0
  · rw [sha256Init, if_pos h, h]
    decide +kernel
  · have hne : (is224 != 0) = true := bne_iff_ne.mpr h
    rw [sha256Init, if_neg h, hne]
    decide +kernel

/-! ### The lines and the rounds -/

theorem sha256Shr_eq (x n : UInt32) : sha256Shr x n = x >>> n := by
  have hmask : x &&& 0xFFFFFFFF = x := UInt32.and_neg_one
  rw [sha256Shr, hmask]

theorem sha256Rotr_eq (x n : UInt32) : sha256Rotr x n = rotr x n := by
  rw [sha256Rotr, rotr, sha256Shr_eq]

theorem sha256F0_eq (x y z : UInt32) :
    sha256F0 x y z = (x &&& y) ^^^ (x &&& z) ^^^ (y &&& z) :=
  majority_eq x y z

theorem sha256F1_eq (x y z : UInt32) : sha256F1 x y z = (x &&& y) ^^^ (~~~x &&& z) :=
  choose_eq x y z

theorem ofNat8_succ (t : Nat) : Fin.ofNat 8 (t + 1) = Fin.ofNat 8 t + 1 := by
  apply Fin.ext
  simp only [Fin.ofNat, Fin.val_add]
  omega

/-- The two registers a line writes, and the next roles. -/
theorem along_set256 (v : Vector UInt32 8) (y z : UInt32) :
    along ((v.set 3 y).set 7 z)
      = #v[z, v.get 0, v.get 1, v.get 2, y, v.get 4, v.get 5, v.get 6] := by
  refine ext_get _ _ (fun k => ?_)
  have h3 : (v.set 3 y).get (k - 1) = if 3 = k - 1 then y else v.get (k - 1) :=
    get_set v 3 (k - 1) y
  have h7 : ((v.set 3 y).set 7 z).get (k - 1) = if 7 = k - 1 then z else (v.set 3 y).get (k - 1) :=
    get_set (v.set 3 y) 7 (k - 1) z
  rw [get_along]
  refine h7.trans ?_
  rw [h3]
  match k with
  | 0 | 1 | 2 | 3 | 4 | 5 | 6 | 7 => rfl

/-- A line on registers is a round, in the roles of the next line. -/
theorem roles_sha256P (M : List UInt8) (t : Nat) (r : Vector UInt32 8) :
    let q := Fin.ofNat 8 t
    roles (q + 1) (sha256P r (0 - q) (1 - q) (2 - q) (3 - q) (4 - q) (5 - q) (6 - q) (7 - q)
        (fipsW256 M t) (sha256K.get (Fin.ofNat 64 t)))
      = fipsRound256 M (roles q r) t := by
  intro q
  dsimp only [sha256P, sha256S2, sha256S3]
  rw [roles_succ, roles_set, roles_set, sha256F0_eq, sha256F1_eq, sha256K_eq]
  simp only [sha256Rotr_eq, ← get_roles]
  exact along_set256 (roles q r) _ _

/-- The array at line `t` has the schedule up to there. -/
def Scheduled256 (M : List UInt8) (t : Nat) (W : List UInt32) : Prop :=
  W = (List.range (max t 16)).map (fipsW256 M)

theorem scheduled256_zero (M : List UInt8) :
    Scheduled256 M 0 ((List.range 16).map (fun i => dwordBeAt M (4 * i))) := by
  refine List.map_congr_left (fun i hi => ?_)
  rw [fipsW256, if_pos (List.mem_range.mp hi)]

theorem Scheduled256.getD {M : List UInt8} {t : Nat} {W : List UInt32} (h : Scheduled256 M t W)
    (s : Nat) (hs : s < max t 16) : W.getD s 0 = fipsW256 M s := by
  rw [h, getD_map_range _ _ _ _ hs]

/-- The array with the word of a line. -/
theorem scheduled256_step (M : List UInt8) (t : Nat) (W : List UInt32)
    (h : Scheduled256 M t W) : Scheduled256 M (t + 1) (if t < 16 then W else sha256R W t) := by
  by_cases ht : t < 16
  · rw [if_pos ht, h, Scheduled256]
    congr 2
    omega
  · have hword : fipsW256 M t = sha256S1 (fipsW256 M (t - 2)) + fipsW256 M (t - 7)
        + sha256S0 (fipsW256 M (t - 15)) + fipsW256 M (t - 16) := by
      conv => lhs; rw [fipsW256, if_neg ht]
      simp only [sha256S0, sha256S1, sha256Rotr_eq, sha256Shr_eq]
    have hmax : max (t + 1) 16 = t + 1 := by omega
    have hrange : max t 16 = t := by omega
    rw [if_neg ht, sha256R, h.getD _ (by omega), h.getD _ (by omega), h.getD _ (by omega),
      h.getD _ (by omega), ← hword, Scheduled256, hmax, List.range_succ, List.map_append, h, hrange]
    rfl

/-- Where the source is in the standard at line `t`. -/
structure Lines256 (M : List UInt8) (t : Nat) (v : Vector UInt32 8 × List UInt32)
    (u : Vector UInt32 8) : Prop where
  registers : roles (Fin.ofNat 8 t) v.1 = u
  words : Scheduled256 M t v.2

/-- A line is a round. -/
theorem lines256_step (M : List UInt8) (t : Nat) (v : Vector UInt32 8 × List UInt32)
    (u : Vector UInt32 8) (h : Lines256 M t v u) :
    Lines256 M (t + 1) (sha256Line v t) (fipsRound256 M u t) := by
  have hwords := scheduled256_step M t v.2 h.words
  refine ⟨?_, hwords⟩
  rw [ofNat8_succ, ← h.registers, ← roles_sha256P, ← hwords.getD t (by omega)]
  rfl

/-- The sixty-four lines are the compression function. -/
theorem sha256Process_eq (state : Vector UInt32 8) (data : List UInt8) :
    sha256Process state data = fipsCompress256 state data := by
  have hend := foldl_range_rel (Lines256 data) sha256Line (fipsRound256 data) 64
    (fun t r v _ h => lines256_step data t r v h)
    (state, (List.range 16).map (fun i => dwordBeAt data (4 * i))) state
    ⟨roles_zero state, scheduled256_zero data⟩
  have hregisters := hend.registers
  rw [show Fin.ofNat 8 64 = 0 from rfl, roles_zero] at hregisters
  rw [sha256Process, fipsCompress256, ← hregisters]

/-! ### The context -/

/-- A context that has taken a message. -/
structure TookSha256 (is224 : Int) (m : List UInt8) (ctx : Sha256Ctx) : Prop where
  kind : ctx.is224 = is224
  took : Took sha256Process (sha256Init is224) m.length m ctx.hash

theorem foldl_sha256Update (ctx : Sha256Ctx) (chunks : List (List UInt8)) :
    chunks.foldl sha256Update ctx
      = { ctx with hash := chunks.foldl (hashUpdate sha256Process) ctx.hash } := by
  induction chunks generalizing ctx with
  | nil => rfl
  | cons c chunks ih => rw [List.foldl_cons, ih, List.foldl_cons, sha256Update]

/-- A context takes its pieces. -/
theorem TookSha256.foldl {is224 : Int} {m : List UInt8} {ctx : Sha256Ctx}
    (h : TookSha256 is224 m ctx) (chunks : List (List UInt8))
    (hlength : ∀ c ∈ chunks, c.length < 4294967296) :
    TookSha256 is224 (m ++ chunks.flatten) (chunks.foldl sha256Update ctx) := by
  have htook := took_foldl _ _ _ _ _ h.took chunks
  rw [counted_eq chunks hlength, ← List.length_append] at htook
  rw [foldl_sha256Update]
  exact ⟨h.kind, htook⟩

/-- A fresh context has taken nothing. -/
theorem tookSha256_starts (ctx : Sha256Ctx) (hbuffer : ctx.hash.buffer.length = 64)
    (is224 : Int) : TookSha256 is224 [] (sha256Starts ctx is224) :=
  ⟨rfl, took_hashStart sha256Process (sha256Init is224) ctx.hash hbuffer⟩

/-- What is written to the output. -/
theorem sha256Finish_eq (is224 : Int) (m : List UInt8) (ctx : Sha256Ctx)
    (h : TookSha256 is224 m ctx) : (sha256Finish ctx).2 = fipsSha256 (is224 != 0) m := by
  have hprocess : sha256Process = fipsCompress256 := funext fun s => funext (sha256Process_eq s)
  have hstate := hashFinish_state _ _ _ _ _ h.took
  rw [hprocess, sha256Init_eq, ← hprocess] at hstate
  rw [sha256Finish, fipsSha256, ← hprocess, ← hstate]
  dsimp only
  rw [h.kind]
  by_cases hkind : is224 = 0
  · rw [if_pos hkind, hkind]
    have hall : (hashFinish sha256Process ctx.hash).state.toList.take 8
        = (hashFinish sha256Process ctx.hash).state.toList :=
      List.take_of_length_le (Nat.le_of_eq Vector.length_toList)
    exact congrArg (List.flatMap be32) hall.symm
  · have hne : (is224 != 0) = true := bne_iff_ne.mpr hkind
    rw [if_neg hkind, if_pos hne]

/-- The digest of the pieces is that of the message, however it is cut and
    whatever the context held. -/
theorem sha256_chunks (ctx : Sha256Ctx) (hbuffer : ctx.hash.buffer.length = 64) (is224 : Int)
    (chunks : List (List UInt8)) (hlength : ∀ c ∈ chunks, c.length < 4294967296) :
    (sha256Finish (chunks.foldl sha256Update (sha256Starts ctx is224))).2
      = fipsSha256 (is224 != 0) chunks.flatten := by
  have htook := (tookSha256_starts ctx hbuffer is224).foldl chunks hlength
  exact sha256Finish_eq is224 _ _ htook

/-- Three bytes in two pieces. -/
theorem sha256_chunks_two :
    (sha256Finish ([[97], [98, 99]].foldl sha256Update (sha256Starts Sha256Ctx.init 1))).2
      = fipsSha256 true [97, 98, 99] :=
  sha256_chunks Sha256Ctx.init rfl 1 [[97], [98, 99]] (by decide)

end Crypto

end Defender
