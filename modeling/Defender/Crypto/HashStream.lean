import Defender.Lib.BlockHash

/-!
# The Contexts of the Hash Functions

`sm3.c`, `sha1.c` and `sha256.c` have one context and one way to update it,
word for word: two counters for the bytes taken, the chaining value, and a
buffer of sixty-four bytes. How much of the buffer is in use is not stored; it
is the low counter modulo sixty-four. The context is generic in the chaining
value, and `hashUpdate` and `hashFinish` in the compression function.

The low counter takes the length of a piece as thirty-two bits and carries
into the high one. A piece of 2^32 bytes or more would lose the upper bits of
its length there, but not its place in the buffer, since 2^32 is a multiple of
sixty-four. `counted` is what the counters have counted.

`Took` is the invariant. It holds of a fresh context whatever its buffer held,
and every update keeps it, so a context has always taken what it was given.

## Main definitions

* `HashCtx`, `hashStart`, `hashUpdate`, `hashFinish`: The context and what is
  done with it.
* `hashPadding`: The array of the padding.
* `counted`: What the counters count of the pieces.
* `Took`: What a context has taken.

## Theorems

* `took_hashUpdate`: An update takes its piece.
* `took_foldl`: Any number of updates take all of their pieces.
* `hashFinish_state`: The chaining value at the end.
-/

namespace Defender

namespace Crypto

open Wire BlockHash

variable {σ : Type*}

/-- The context of a hash function. -/
structure HashCtx (σ : Type*) where
  total0 : UInt32
  total1 : UInt32
  state : σ
  buffer : List UInt8

/-- The context after `*_starts`: the buffer is what it was. -/
def hashStart (ctx : HashCtx σ) (init : σ) : HashCtx σ :=
  { ctx with total0 := 0, total1 := 0, state := init }

/-- `*_update` on the bytes of the input. -/
def hashUpdate (process : σ → List UInt8 → σ) (ctx : HashCtx σ) (input : List UInt8) :
    HashCtx σ :=
  if input.length = 0 then ctx
  else
    let ilen := UInt32.ofNat input.length
    let left := (ctx.total0 &&& 0x3F).toNat
    let fill := 64 - left
    let total0 := ctx.total0 + ilen
    let total1 := if total0 < ilen then ctx.total1 + 1 else ctx.total1
    let filled := poke ctx.buffer left (input.take fill)
    let (state, buffer, rest, left) :=
      if left ≠ 0 ∧ fill ≤ input.length then
        (process ctx.state filled, filled, input.drop fill, 0)
      else (ctx.state, ctx.buffer, input, left)
    let (state, rest) := wholeBlocks 64 process state rest
    let buffer := if 0 < rest.length then poke buffer left rest else buffer
    { total0, total1, state, buffer }

/-- `sm3_padding`, `sha1_padding`, `sha256_padding`. -/
def hashPadding : List UInt8 :=
  0x80 :: List.replicate 63 0

/-- `*_finish` up to the output. -/
def hashFinish (process : σ → List UInt8 → σ) (ctx : HashCtx σ) : HashCtx σ :=
  let high := (ctx.total0 >>> 29) ||| (ctx.total1 <<< 3)
  let low := ctx.total0 <<< 3
  let msglen := be32 high ++ be32 low
  let last := (ctx.total0 &&& 0x3F).toNat
  let padn := if last < 56 then 56 - last else 120 - last
  hashUpdate process (hashUpdate process ctx (hashPadding.take padn)) msglen

/-- The number of bytes the counters count: the length of each piece in
    thirty-two bits. -/
def counted (chunks : List (List UInt8)) : Nat :=
  (chunks.map (fun c => c.length % 4294967296)).sum

/-- Pieces that fit are counted in full. -/
theorem counted_eq (chunks : List (List UInt8)) (h : ∀ c ∈ chunks, c.length < 4294967296) :
    counted chunks = chunks.flatten.length := by
  rw [counted, List.length_flatten]
  refine congrArg List.sum (List.map_congr_left (fun c hc => ?_))
  exact Nat.mod_eq_of_lt (h c hc)

/-- A context that has taken the message `m`, counted as `n` bytes. -/
structure Took (process : σ → List UInt8 → σ) (init : σ) (n : Nat) (m : List UInt8)
    (ctx : HashCtx σ) : Prop where
  total : n % 2 ^ 64 = 4294967296 * ctx.total1.toNat + ctx.total0.toNat
  place : n % 64 = m.length % 64
  holds : Holds 64 process init m ctx.state ctx.buffer

variable (process : σ → List UInt8 → σ) (init : σ)

theorem took_hashStart (ctx : HashCtx σ) (h : ctx.buffer.length = 64) :
    Took process init 0 [] (hashStart ctx init) where
  total := by rw [Nat.zero_mod]; rfl
  place := rfl
  holds := Holds.start init ctx.buffer (by decide) h

/-- How much of the buffer is in use. -/
theorem Took.left {process : σ → List UInt8 → σ} {init : σ} {n : Nat} {m : List UInt8}
    {ctx : HashCtx σ} (h : Took process init n m ctx) :
    (ctx.total0 &&& 0x3F).toNat = m.length % 64 := by
  have htotal := h.total
  have hplace := h.place
  rw [UInt32.toNat_and]
  have hmask : ctx.total0.toNat &&& (0x3F : UInt32).toNat = ctx.total0.toNat % 64 :=
    Nat.and_two_pow_sub_one_eq_mod ctx.total0.toNat 6
  rw [hmask]
  omega

/-- Adding a length to the counters. -/
theorem total_add (t0 t1 : UInt32) (n k : Nat)
    (h : n % 2 ^ 64 = 4294967296 * t1.toNat + t0.toNat) :
    (n + k % 4294967296) % 2 ^ 64
      = 4294967296 * (if t0 + UInt32.ofNat k < UInt32.ofNat k then t1 + 1 else t1).toNat
        + (t0 + UInt32.ofNat k).toNat := by
  have h0 := t0.toNat_lt
  have h1 := t1.toNat_lt
  have hk : (UInt32.ofNat k).toNat = k % 4294967296 := UInt32.toNat_ofNat'
  have hsum : (t0 + UInt32.ofNat k).toNat = (t0.toNat + k % 4294967296) % 4294967296 := by
    rw [UInt32.toNat_add, hk]
  have hone : (t1 + 1).toNat = (t1.toNat + 1) % 4294967296 := UInt32.toNat_add t1 1
  have hlt : t0 + UInt32.ofNat k < UInt32.ofNat k ↔
      (t0.toNat + k % 4294967296) % 4294967296 < k % 4294967296 := by
    rw [UInt32.lt_iff_toNat_lt, hsum, hk]
  by_cases hcarry : t0 + UInt32.ofNat k < UInt32.ofNat k
  · rw [if_pos hcarry, hone, hsum]
    have := hlt.mp hcarry
    omega
  · rw [if_neg hcarry, hsum]
    have := mt hlt.mpr hcarry
    omega

/-- An update takes its piece. -/
theorem took_hashUpdate (n : Nat) (m : List UInt8) (ctx : HashCtx σ)
    (h : Took process init n m ctx) (input : List UInt8) :
    Took process init (n + input.length % 4294967296) (m ++ input)
      (hashUpdate process ctx input) := by
  unfold hashUpdate
  by_cases hempty : input.length = 0
  · rw [if_pos hempty, List.length_eq_zero_iff.mp hempty, List.append_nil]
    exact h
  rw [if_neg hempty]
  have hlt := Nat.mod_lt m.length (by decide : 64 > 0)
  have htotal := total_add ctx.total0 ctx.total1 n input.length h.total
  have hplace : (n + input.length % 4294967296) % 64 = (m ++ input).length % 64 := by
    have := h.place
    rw [List.length_append]
    omega
  simp only [h.left, wholeBlocks_eq 64 process (by decide)]
  refine ⟨htotal, hplace, ?_⟩
  by_cases hfill : m.length % 64 ≠ 0 ∧ 64 - m.length % 64 ≤ input.length
  · -- The buffer is filled up, and the rest of the piece goes in behind it.
    have hpiece : m.length % 64 + (input.take (64 - m.length % 64)).length = 64 := by
      rw [List.length_take]
      omega
    have hfilled := h.holds.fill (by decide) (input.take (64 - m.length % 64)) hpiece
    have hzero : (m ++ input.take (64 - m.length % 64)).length % 64 = 0 := by
      rw [List.length_append]
      omega
    have hrest := hfilled.blocks (by decide) hzero (input.drop (64 - m.length % 64))
    rw [List.append_assoc, List.take_append_drop] at hrest
    simp only [if_pos hfill]
    split
    · exact hrest
    · rename_i hnone
      have hnil := List.length_eq_zero_iff.mp (Nat.eq_zero_of_not_pos hnone)
      rw [hnil, poke_nil] at hrest
      exact hrest
  · simp only [if_neg hfill]
    by_cases hzero : m.length % 64 = 0
    · -- Nothing is held.
      have hrest := h.holds.blocks (by decide) hzero input
      rw [hzero]
      split
      · exact hrest
      · rename_i hnone
        have hnil := List.length_eq_zero_iff.mp (Nat.eq_zero_of_not_pos hnone)
        rw [hnil, poke_nil] at hrest
        exact hrest
    · -- The piece does not fill the buffer.
      have hshort : input.length < 64 := by omega
      have hheld := h.holds.hold (by decide) input (by omega)
      rw [rest_of_lt 64 input hshort, absorb_of_lt 64 process _ input hshort,
        if_pos (by omega)]
      exact hheld

/-- Any number of updates take all of their pieces. -/
theorem took_foldl (n : Nat) (m : List UInt8) (ctx : HashCtx σ)
    (h : Took process init n m ctx) (chunks : List (List UInt8)) :
    Took process init (n + counted chunks) (m ++ chunks.flatten)
      (chunks.foldl (hashUpdate process) ctx) := by
  induction chunks generalizing n m ctx with
  | nil => simpa only [counted, List.map_nil, List.sum_nil, Nat.add_zero, List.flatten_nil,
      List.append_nil, List.foldl_nil] using h
  | cons c chunks ih =>
      have hrec := ih _ _ _ (took_hashUpdate process init n m ctx h c)
      rw [List.append_assoc] at hrec
      simpa only [counted, List.map_cons, List.sum_cons, List.flatten_cons, List.foldl_cons,
        Nat.add_assoc] using hrec

/-- The field with the length, from the counters. -/
theorem msglen_eq (t0 t1 : UInt32) (n : Nat)
    (h : n % 2 ^ 64 = 4294967296 * t1.toNat + t0.toNat) :
    be32 ((t0 >>> 29) ||| (t1 <<< 3)) ++ be32 (t0 <<< 3) = be64 (8 * n) := by
  have h0 := t0.toNat_lt
  have h1 := t1.toNat_lt
  have hlow : t0 <<< 3 = UInt32.ofNat (8 * n) := by
    apply UInt32.toNat_inj.mp
    rw [UInt32.toNat_shiftLeft, UInt32.toNat_ofNat', Nat.shiftLeft_eq]
    have h3 : (3 : UInt32).toNat % 32 = 3 := rfl
    rw [h3]
    omega
  have hhigh : (t0 >>> 29) ||| (t1 <<< 3) = UInt32.ofNat (8 * n / 4294967296) := by
    apply UInt32.toNat_inj.mp
    have h3 : (3 : UInt32).toNat % 32 = 3 := rfl
    have h29 : (29 : UInt32).toNat % 32 = 29 := rfl
    rw [UInt32.toNat_or, UInt32.toNat_shiftRight, UInt32.toNat_shiftLeft, UInt32.toNat_ofNat', h3,
      h29, Nat.shiftLeft_eq, Nat.shiftRight_eq_div_pow, Nat.or_comm]
    have hmul : t1.toNat * 2 ^ 3 % 2 ^ 32 = 2 ^ 3 * (t1.toNat % 2 ^ 29) := by omega
    have hsmall : t0.toNat / 2 ^ 29 < 2 ^ 3 := by omega
    rw [hmul, ← Nat.two_pow_add_eq_or_of_lt hsmall]
    omega
  rw [hlow, hhigh, be64]

/-- The mark and the zeros, from the array. -/
theorem take_hashPadding (k : Nat) (hk : k < 64) :
    hashPadding.take (if k < 56 then 56 - k else 120 - k)
      = 0x80 :: List.replicate ((2 * 64 - 1 - 8 - k) % 64) 0 := by
  rw [hashPadding]
  split
  · have hcount : 56 - k = (2 * 64 - 1 - 8 - k) % 64 + 1 := by omega
    rw [hcount, List.take_succ_cons, List.take_replicate, Nat.min_eq_left (by omega)]
  · have hcount : 120 - k = (2 * 64 - 1 - 8 - k) % 64 + 1 := by omega
    rw [hcount, List.take_succ_cons, List.take_replicate, Nat.min_eq_left (by omega)]

/-- The chaining value at the end: that of the message, padded with the length
    that was counted. -/
theorem hashFinish_state (n : Nat) (m : List UInt8) (ctx : HashCtx σ)
    (h : Took process init n m ctx) :
    (hashFinish process ctx).state
      = absorb 64 process init (m ++ padding 64 m.length (be64 (8 * n))) := by
  have hpad := take_hashPadding (m.length % 64) (Nat.mod_lt m.length (by decide))
  have hmark := took_hashUpdate process init n m ctx h
    (0x80 :: List.replicate ((2 * 64 - 1 - 8 - m.length % 64) % 64) 0)
  have hfield := took_hashUpdate process init _ _ _ hmark (be64 (8 * n))
  unfold hashFinish
  simp only [h.left, msglen_eq ctx.total0 ctx.total1 n h.total, hpad]
  rw [hfield.holds.state, padding, List.append_assoc, length_be64]

/-- A context that has finished can be started again. -/
theorem length_buffer_hashFinish (n : Nat) (m : List UInt8) (ctx : HashCtx σ)
    (h : Took process init n m ctx) : (hashFinish process ctx).buffer.length = 64 := by
  have hpad := took_hashUpdate process init n m ctx h
  exact (took_hashUpdate process init _ _ _ (hpad _) _).holds.length

theorem length_flatMap_be32 (l : List UInt32) : (l.flatMap be32).length = 4 * l.length := by
  induction l with
  | nil => rfl
  | cons w l ih =>
      rw [List.flatMap_cons, List.length_append, ih, List.length_cons, Nat.mul_succ, Nat.add_comm]
      rfl

/-- The two ways to write the choice and the majority. -/
theorem choose_eq (x y z : UInt32) : z ^^^ (x &&& (y ^^^ z)) = (x &&& y) ^^^ (~~~x &&& z) := by
  apply UInt32.toBitVec_inj.mp
  ext i hi
  simp only [UInt32.toBitVec_xor, UInt32.toBitVec_and, UInt32.toBitVec_not, BitVec.getElem_xor,
    BitVec.getElem_and, BitVec.getElem_not]
  cases x.toBitVec[i] <;> cases y.toBitVec[i] <;> cases z.toBitVec[i] <;> rfl

theorem majority_eq (x y z : UInt32) :
    (x &&& y) ||| (z &&& (x ||| y)) = (x &&& y) ^^^ (x &&& z) ^^^ (y &&& z) := by
  apply UInt32.toBitVec_inj.mp
  ext i hi
  simp only [UInt32.toBitVec_xor, UInt32.toBitVec_and, UInt32.toBitVec_or, BitVec.getElem_xor,
    BitVec.getElem_and, BitVec.getElem_or]
  cases x.toBitVec[i] <;> cases y.toBitVec[i] <;> cases z.toBitVec[i] <;> rfl

end Crypto

end Defender
