import Defender.Crypto.Sha256

/-!
# SM3

`sm3.c` against the standard. The rounds are those of the standard, on arrays
that are filled before them. Two things are not: the rotation of the constant
by the number of the round, which from round thirty-two on shifts by more than
the width of a word and relies on the processor taking the count modulo
thirty-two, and the length of a piece, which is an `int`. An update with a
length that is not positive takes nothing.

## Main definitions

* `sm3Words`, `sm3Round`, `sm3Process`: The compression function of the source.
* `Sm3Ctx`, `sm3Starts`, `sm3Update`, `sm3Finish`, `sm3`: The functions.
* `gbW`, `gbRound`, `gbCompress`, `gbIV`, `gbSm3`: The standard.
* `TookSm3`: A context that has taken a message.

## Theorems

* `sm3Process_eq`: The loops are the compression function.
* `sm3Finish_eq`: The digest of what a context has taken.
* `sm3_calls`: The digest of what the updates take.
-/

namespace Defender

namespace Crypto

open Wire BlockHash

/-! ### The source -/

/-- `SHL(x,n)`. -/
def sm3Shl (x n : UInt32) : UInt32 :=
  (x &&& 0xFFFFFFFF) <<< n

/-- `ROTL(x,n)`. -/
def sm3Rotl (x n : UInt32) : UInt32 :=
  sm3Shl x n ||| (x >>> (32 - n))

/-- `P0(x)`. -/
def sm3P0 (x : UInt32) : UInt32 :=
  x ^^^ sm3Rotl x 9 ^^^ sm3Rotl x 17

/-- `P1(x)`. -/
def sm3P1 (x : UInt32) : UInt32 :=
  x ^^^ sm3Rotl x 15 ^^^ sm3Rotl x 23

/-- The array `T`. -/
def sm3T (j : Nat) : UInt32 :=
  if j < 16 then 0x79CC4519 else 0x7A879D8A

/-- One pass of the loop over `W`, which grows by a word. -/
def sm3Word (W : List UInt32) (j : Nat) : List UInt32 :=
  let Temp1 := W.getD (j - 16) 0 ^^^ W.getD (j - 9) 0
  let Temp2 := sm3Rotl (W.getD (j - 3) 0) 15
  let Temp3 := Temp1 ^^^ Temp2
  let Temp4 := sm3P1 Temp3
  let Temp5 := sm3Rotl (W.getD (j - 13) 0) 7 ^^^ W.getD (j - 6) 0
  W ++ [Temp4 ^^^ Temp5]

/-- `W`. -/
def sm3Words (data : List UInt8) : List UInt32 :=
  (List.range' 16 52).foldl sm3Word ((List.range 16).map (fun i => dwordBeAt data (4 * i)))

/-- `W1`. -/
def sm3Words1 (W : List UInt32) : List UInt32 :=
  (List.range 64).map (fun j => W.getD j 0 ^^^ W.getD (j + 4) 0)

/-- One pass of the two loops of rounds: `FF0` and `GG0` in the first, `FF1` and
    `GG1` in the second. -/
def sm3Round (W W1 : List UInt32) (r : Vector UInt32 8) (j : Nat) : Vector UInt32 8 :=
  let A := r.get 0
  let B := r.get 1
  let C := r.get 2
  let D := r.get 3
  let E := r.get 4
  let F := r.get 5
  let G := r.get 6
  let H := r.get 7
  let FF := if j < 16 then A ^^^ B ^^^ C else (A &&& B) ||| (A &&& C) ||| (B &&& C)
  let GG := if j < 16 then E ^^^ F ^^^ G else (E &&& F) ||| (~~~E &&& G)
  let SS1 := sm3Rotl (sm3Rotl A 12 + E + sm3Rotl (sm3T j) (UInt32.ofNat j)) 7
  let SS2 := SS1 ^^^ sm3Rotl A 12
  let TT1 := FF + D + SS2 + W1.getD j 0
  let TT2 := GG + H + SS1 + W.getD j 0
  #v[TT1, A, sm3Rotl B 9, C, sm3P0 TT2, E, sm3Rotl F 19, G]

/-- `sm3_process`. -/
def sm3Process (state : Vector UInt32 8) (data : List UInt8) : Vector UInt32 8 :=
  let W := sm3Words data
  let W1 := sm3Words1 W
  let r := (List.range 16).foldl (sm3Round W W1) state
  let r := (List.range' 16 48).foldl (sm3Round W W1) r
  Vector.zipWith (· ^^^ ·) state r

/-- `sm3_context`. -/
structure Sm3Ctx where
  hash : HashCtx (Vector UInt32 8)
  ipad : List UInt8
  opad : List UInt8

/-- The start value of `sm3_starts`. -/
def sm3Init : Vector UInt32 8 :=
  #v[0x7380166F, 0x4914B2B9, 0x172442D7, 0xDA8A0600, 0xA96F30BC, 0x163138AA, 0xE38DEE4D,
    0xB0FB0E4E]

/-- `sm3_starts`. -/
def sm3Starts (ctx : Sm3Ctx) : Sm3Ctx :=
  { ctx with hash := hashStart ctx.hash sm3Init }

/-- `sm3_update`. -/
def sm3Update (ctx : Sm3Ctx) (input : List UInt8) (ilen : Int32) : Sm3Ctx :=
  if ilen.toInt ≤ 0 then ctx
  else { ctx with hash := hashUpdate sm3Process ctx.hash (input.take ilen.toInt.toNat) }

/-- `sm3_finish`: the context, and what is written to `output`. -/
def sm3Finish (ctx : Sm3Ctx) : Sm3Ctx × List UInt8 :=
  let hash := hashFinish sm3Process ctx.hash
  ({ ctx with hash := hash }, hash.state.toList.flatMap be32)

/-- `sm3`, with the context that happens to be on the stack. -/
def sm3 (ctx : Sm3Ctx) (input : List UInt8) (ilen : Int32) : List UInt8 :=
  (sm3Finish (sm3Update (sm3Starts ctx) input ilen)).2

/-! ### The standard -/

/-- The permutation of the compression function. -/
def gbP0 (x : UInt32) : UInt32 :=
  x ^^^ rotl x 9 ^^^ rotl x 17

/-- The permutation of the message expansion. -/
def gbP1 (x : UInt32) : UInt32 :=
  x ^^^ rotl x 15 ^^^ rotl x 23

/-- The first words of the expansion. -/
def gbW (M : List UInt8) (j : Nat) : UInt32 :=
  if j < 16 then dwordBeAt M (4 * j)
  else gbP1 (gbW M (j - 16) ^^^ gbW M (j - 9) ^^^ rotl (gbW M (j - 3)) 15)
    ^^^ rotl (gbW M (j - 13)) 7 ^^^ gbW M (j - 6)

/-- The constant of round `j`. -/
def gbT (j : Nat) : UInt32 :=
  if j < 16 then 0x79CC4519 else 0x7A879D8A

/-- Round `j`, which turns its constant by `j` places modulo thirty-two. -/
def gbRound (M : List UInt8) (v : Vector UInt32 8) (j : Nat) : Vector UInt32 8 :=
  let FF := if j < 16 then v.get 0 ^^^ v.get 1 ^^^ v.get 2
    else (v.get 0 &&& v.get 1) ||| (v.get 0 &&& v.get 2) ||| (v.get 1 &&& v.get 2)
  let GG := if j < 16 then v.get 4 ^^^ v.get 5 ^^^ v.get 6
    else (v.get 4 &&& v.get 5) ||| (~~~v.get 4 &&& v.get 6)
  let SS1 := rotl (rotl (v.get 0) 12 + v.get 4 + rotl (gbT j) (UInt32.ofNat (j % 32))) 7
  let SS2 := SS1 ^^^ rotl (v.get 0) 12
  let TT1 := FF + v.get 3 + SS2 + (gbW M j ^^^ gbW M (j + 4))
  let TT2 := GG + v.get 7 + SS1 + gbW M j
  #v[TT1, v.get 0, rotl (v.get 1) 9, v.get 2, gbP0 TT2, v.get 4, rotl (v.get 5) 19, v.get 6]

/-- The compression function. -/
def gbCompress (V : Vector UInt32 8) (M : List UInt8) : Vector UInt32 8 :=
  Vector.zipWith (· ^^^ ·) V ((List.range 64).foldl (gbRound M) V)

/-- The start value, by its bytes. -/
def gbIV : Vector UInt32 8 :=
  Vector.ofFn (fun i => dwordBeAt
    [0x73, 0x80, 0x16, 0x6F, 0x49, 0x14, 0xB2, 0xB9, 0x17, 0x24, 0x42, 0xD7, 0xDA, 0x8A, 0x06, 0x00,
      0xA9, 0x6F, 0x30, 0xBC, 0x16, 0x31, 0x38, 0xAA, 0xE3, 0x8D, 0xEE, 0x4D, 0xB0, 0xFB, 0x0E,
      0x4E] (4 * i.val))

/-- The digest of a message. -/
def gbSm3 (m : List UInt8) : List UInt8 :=
  (absorb 64 gbCompress gbIV (m ++ padding 64 m.length (be64 (8 * m.length)))).toList.flatMap
    be32

theorem length_gbSm3 (m : List UInt8) : (gbSm3 m).length = 32 := by
  rw [gbSm3, length_flatMap_be32, Vector.length_toList]

/-! ### The loops and the rounds -/

theorem sm3Init_eq : sm3Init = gbIV := by
  decide

theorem sm3Rotl_eq (x n : UInt32) : sm3Rotl x n = rotl x n := by
  have hmask : x &&& 0xFFFFFFFF = x := UInt32.and_neg_one
  rw [sm3Rotl, rotl, sm3Shl, hmask]

/-- A turn takes its count modulo thirty-two, since the two shifts do. -/
theorem rotl_congr (x m n : UInt32) (h : m.toNat % 32 = n.toNat % 32) : rotl x m = rotl x n := by
  have hm := m.toNat_lt
  have hn := n.toNat_lt
  have hback : (32 - m).toNat % 32 = (32 - n).toNat % 32 := by
    rw [UInt32.toNat_sub, UInt32.toNat_sub]
    omega
  apply UInt32.toNat_inj.mp
  rw [rotl, rotl, UInt32.toNat_or, UInt32.toNat_or, UInt32.toNat_shiftLeft, UInt32.toNat_shiftLeft,
    UInt32.toNat_shiftRight, UInt32.toNat_shiftRight, h, hback]

theorem rotl_round (x : UInt32) (j : Nat) :
    rotl x (UInt32.ofNat j) = rotl x (UInt32.ofNat (j % 32)) := by
  refine rotl_congr x _ _ ?_
  rw [UInt32.toNat_ofNat', UInt32.toNat_ofNat']
  omega

/-- The array of the expansion, as far as it has been filled. -/
theorem sm3Words_prefix (data : List UInt8) (n : Nat) :
    (List.range' 16 n).foldl sm3Word ((List.range 16).map (fun i => dwordBeAt data (4 * i)))
      = (List.range (16 + n)).map (gbW data) := by
  induction n with
  | zero =>
      refine List.map_congr_left (fun i hi => ?_)
      rw [gbW, if_pos (List.mem_range.mp hi)]
  | succ n ih =>
      have hget : ∀ s, s < 16 + n →
          ((List.range (16 + n)).map (gbW data)).getD s 0 = gbW data s :=
        fun s hs => getD_map_range _ _ _ _ hs
      rw [List.range'_concat, List.foldl_append, ih, List.foldl_cons, List.foldl_nil, sm3Word,
        Nat.one_mul, hget _ (by omega), hget _ (by omega), hget _ (by omega), hget _ (by omega),
        hget _ (by omega), ← Nat.add_assoc, List.range_succ, List.map_append, List.map_singleton]
      congr 2
      conv => rhs; rw [gbW, if_neg (by omega)]
      simp only [sm3P1, gbP1, sm3Rotl_eq, UInt32.xor_assoc]

theorem getD_sm3Words (data : List UInt8) (j : Nat) (hj : j < 68) :
    (sm3Words data).getD j 0 = gbW data j := by
  rw [sm3Words, sm3Words_prefix, getD_map_range _ _ _ _ hj]

theorem getD_sm3Words1 (data : List UInt8) (j : Nat) (hj : j < 64) :
    (sm3Words1 (sm3Words data)).getD j 0 = gbW data j ^^^ gbW data (j + 4) := by
  rw [sm3Words1, getD_map_range _ _ _ _ hj, getD_sm3Words data j (by omega),
    getD_sm3Words data (j + 4) (by omega)]

/-- A pass of the loops is a round, on arrays that have its words. -/
theorem sm3Round_eq (data : List UInt8) (W W1 : List UInt32) (r : Vector UInt32 8) (j : Nat)
    (hW : W.getD j 0 = gbW data j) (hW1 : W1.getD j 0 = gbW data j ^^^ gbW data (j + 4)) :
    sm3Round W W1 r j = gbRound data r j := by
  dsimp only [sm3Round, gbRound, sm3P0, gbP0]
  rw [hW, hW1]
  simp only [sm3Rotl_eq, rotl_round _ j]
  rfl

/-- The loops are the compression function. -/
theorem sm3Process_eq (state : Vector UInt32 8) (data : List UInt8) :
    sm3Process state data = gbCompress state data := by
  have hsplit : List.range 64 = List.range 16 ++ List.range' 16 48 := by
    rw [List.range_eq_range', List.range_eq_range', List.range'_append]
  have hrounds : ∀ l : List Nat, (∀ j ∈ l, j < 64) → ∀ r,
      l.foldl (sm3Round (sm3Words data) (sm3Words1 (sm3Words data))) r
        = l.foldl (gbRound data) r := by
    intro l hl r
    exact List.foldl_ext _ _ _ (fun r j hj => sm3Round_eq data _ _ r j
      (getD_sm3Words data j (by have := hl j hj; omega)) (getD_sm3Words1 data j (hl j hj)))
  have hfirst := hrounds (List.range 16) (fun j hj => by rw [List.mem_range] at hj; omega)
  have hsecond := hrounds (List.range' 16 48) (fun j hj => by
    rw [List.mem_range'_1] at hj
    omega)
  rw [sm3Process, gbCompress, hsplit, List.foldl_append, hfirst, hsecond]

/-! ### The context -/

/-- A context that has taken a message. -/
def TookSm3 (m : List UInt8) (ctx : Sm3Ctx) : Prop :=
  Took sm3Process sm3Init m.length m ctx.hash

/-- A fresh context has taken nothing. -/
theorem tookSm3_starts (ctx : Sm3Ctx) (hbuffer : ctx.hash.buffer.length = 64) :
    TookSm3 [] (sm3Starts ctx) :=
  took_hashStart sm3Process sm3Init ctx.hash hbuffer

/-- An update takes nothing when its length is not positive. -/
theorem TookSm3.update {m : List UInt8} {ctx : Sm3Ctx} (h : TookSm3 m ctx) (input : List UInt8)
    (ilen : Int32) : TookSm3 (m ++ input.take ilen.toInt.toNat) (sm3Update ctx input ilen) := by
  have hint := ilen.toInt_lt
  unfold sm3Update
  by_cases hpos : ilen.toInt ≤ 0
  · rw [if_pos hpos, Int.toNat_of_nonpos hpos, List.take_zero, List.append_nil]
    exact h
  · have hlen : (input.take ilen.toInt.toNat).length < 4294967296 := by
      rw [List.length_take]
      omega
    have htook := took_hashUpdate _ _ _ _ _ h (input.take ilen.toInt.toNat)
    rw [Nat.mod_eq_of_lt hlen, ← List.length_append] at htook
    rw [if_neg hpos]
    exact htook

theorem TookSm3.foldl {m : List UInt8} {ctx : Sm3Ctx} (h : TookSm3 m ctx)
    (calls : List (List UInt8 × Int32)) :
    TookSm3 (m ++ calls.flatMap (fun c => c.1.take c.2.toInt.toNat))
      (calls.foldl (fun ctx c => sm3Update ctx c.1 c.2) ctx) := by
  induction calls generalizing m ctx with
  | nil => rwa [List.flatMap_nil, List.append_nil]
  | cons c calls ih =>
      rw [List.flatMap_cons, List.foldl_cons, ← List.append_assoc]
      exact ih (h.update c.1 c.2)

/-- What is written to the output. -/
theorem sm3Finish_eq (m : List UInt8) (ctx : Sm3Ctx) (h : TookSm3 m ctx) :
    (sm3Finish ctx).2 = gbSm3 m := by
  have hprocess : sm3Process = gbCompress := funext fun s => funext (sm3Process_eq s)
  have hstate := hashFinish_state _ _ _ _ _ h
  rw [gbSm3, ← sm3Init_eq, ← hprocess, ← hstate]
  rfl

/-- The digest of any calls is that of what they were given, where a call with
    a length that is not positive was given nothing. -/
theorem sm3_calls (ctx : Sm3Ctx) (hbuffer : ctx.hash.buffer.length = 64)
    (calls : List (List UInt8 × Int32)) :
    (sm3Finish (calls.foldl (fun ctx c => sm3Update ctx c.1 c.2) (sm3Starts ctx))).2
      = gbSm3 (calls.flatMap (fun c => c.1.take c.2.toInt.toNat)) := by
  have htook := (tookSm3_starts ctx hbuffer).foldl calls
  exact sm3Finish_eq _ _ htook

/-- A context of what happens to be in memory. -/
def Sm3Ctx.fresh : Sm3Ctx where
  hash :=
    { total0 := 0xCCCCCCCC
      total1 := 0xCCCCCCCC
      state := Vector.replicate 8 0xCCCCCCCC
      buffer := List.replicate 64 0xCC }
  ipad := List.replicate 64 0xCC
  opad := List.replicate 64 0xCC

/-- Three bytes in two calls, and a call with a length below zero. -/
theorem sm3_calls_two :
    (sm3Finish ([([97], 1), ([7, 7], -1), ([98, 99], 2)].foldl
        (fun ctx c => sm3Update ctx c.1 c.2) (sm3Starts Sm3Ctx.fresh))).2
      = gbSm3 [97, 98, 99] :=
  sm3_calls Sm3Ctx.fresh rfl [([97], 1), ([7, 7], -1), ([98, 99], 2)]

end Crypto

end Defender
