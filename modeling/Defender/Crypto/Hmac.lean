import Defender.Crypto.Sm3

/-!
# The Keyed Hashes

`sm3_hmac` and `sha256_hmac`. A key longer than a block is hashed first, with
a context of its own; what there is of the key is then put over two blocks of
constants, one byte at a time, and the rest of the blocks stays. The context
takes the one block before the message and the other before the digest.

The blocks stay in the context. `sha256_hmac_reset` goes back to the first,
so that one key serves for any number of messages. `Sha256Keyed` is the
invariant of such a session.

## Main definitions

* `hmacPad`: The loop over the key.
* `sm3HmacStarts`, `sm3HmacUpdate`, `sm3HmacFinish`: The functions of SM3.
* `sha256HmacStarts`, `sha256HmacUpdate`, `sha256HmacFinish`,
  `sha256HmacReset`: Those of SHA-256.
* `sha256Session`: Messages under one key.
* `Sm3Keyed`, `Sha256Keyed`: What the contexts hold.

## Theorems

* `hmacPad_eq`: The loop masks the key block.
* `sm3_hmac_calls`: The keyed hash of what the updates take.
* `sha256_hmac_session`: The keyed hashes of the messages of a session.
-/

namespace Defender

namespace Crypto

open Wire BlockHash

/-- A block of one byte, and the loop over the key. -/
def hmacPad (fill : UInt8) (key : List UInt8) (keylen : Nat) : List UInt8 :=
  (List.range keylen).foldl (fun pad i => pad.set i (byteAt pad i ^^^ byteAt key i))
    (List.replicate 64 fill)

/-! ### SM3 -/

/-- `sm3_hmac_starts`. The context on the stack is that of `sm3`. -/
def sm3HmacStarts (stack ctx : Sm3Ctx) (key : List UInt8) (keylen : Int32) : Sm3Ctx :=
  let (key, keylen) :=
    if 64 < keylen.toInt then (sm3 stack key keylen, 32) else (key, keylen.toInt.toNat)
  let ipad := hmacPad 0x36 key keylen
  let opad := hmacPad 0x5C key keylen
  sm3Update (sm3Starts { ctx with ipad, opad }) ipad 64

/-- `sm3_hmac_update`. -/
def sm3HmacUpdate (ctx : Sm3Ctx) (input : List UInt8) (ilen : Int32) : Sm3Ctx :=
  sm3Update ctx input ilen

/-- `sm3_hmac_finish`: what is written to `output`. -/
def sm3HmacFinish (ctx : Sm3Ctx) : List UInt8 :=
  let (ctx, tmpbuf) := sm3Finish ctx
  (sm3Finish (sm3Update (sm3Update (sm3Starts ctx) ctx.opad 64) tmpbuf 32)).2

/-! ### SHA-256 -/

/-- `sha256_hmac_starts`. -/
def sha256HmacStarts (ctx : Sha256Ctx) (key : List UInt8) (is224 : Int) : Sha256Ctx :=
  let key := if 64 < key.length then sha256 key is224 else key
  let ipad := hmacPad 0x36 key key.length
  let opad := hmacPad 0x5C key key.length
  sha256Update (sha256Starts { ctx with ipad, opad } is224) ipad

/-- `sha256_hmac_update`. -/
def sha256HmacUpdate (ctx : Sha256Ctx) (input : List UInt8) : Sha256Ctx :=
  sha256Update ctx input

/-- `sha256_hmac_finish`: the context, and what is written to `output`. -/
def sha256HmacFinish (ctx : Sha256Ctx) : Sha256Ctx × List UInt8 :=
  let is224 := ctx.is224
  let hlen := if is224 = 0 then 32 else 28
  let (ctx, tmpbuf) := sha256Finish ctx
  sha256Finish (sha256Update (sha256Update (sha256Starts ctx is224) ctx.opad) (tmpbuf.take hlen))

/-- `sha256_hmac_reset`. -/
def sha256HmacReset (ctx : Sha256Ctx) : Sha256Ctx :=
  sha256Update (sha256Starts ctx ctx.is224) ctx.ipad

/-- Messages under one key, each in pieces: after each the context is reset. -/
def sha256Session (ctx : Sha256Ctx) : List (List (List UInt8)) → List (List UInt8)
  | [] => []
  | chunks :: messages =>
      let (ctx, output) := sha256HmacFinish (chunks.foldl sha256HmacUpdate ctx)
      output :: sha256Session (sha256HmacReset ctx) messages

/-! ### The blocks -/

theorem byteAt_of_le (m : List UInt8) (i : Nat) (h : m.length ≤ i) : byteAt m i = 0 := by
  rw [byteAt, List.getD_eq_getElem?_getD, List.getElem?_eq_none h, Option.getD_none]

/-- The block as the loop leaves it after `n` bytes. -/
theorem hmacPad_front (fill : UInt8) (key : List UInt8) (n : Nat) (hn : n ≤ 64) :
    hmacPad fill key n
      = (List.range 64).map (fun i => if i < n then byteAt key i ^^^ fill else fill) := by
  induction n with
  | zero =>
      refine List.ext_getElem? (fun i => ?_)
      simp only [hmacPad, List.range_zero, List.foldl_nil, Nat.not_lt_zero, if_false,
        List.map_const', List.length_range]
  | succ n ih =>
      have hat : byteAt (hmacPad fill key n) n = fill := by
        rw [ih (by omega), byteAt, getD_map_range _ _ _ _ (by omega), if_neg (by omega)]
      have hstep : hmacPad fill key (n + 1)
          = (hmacPad fill key n).set n (byteAt (hmacPad fill key n) n ^^^ byteAt key n) := by
        rw [hmacPad, List.range_succ, List.foldl_append]
        rfl
      rw [hstep, hat, ih (by omega)]
      refine List.ext_getElem? (fun i => ?_)
      rw [List.getElem?_set, List.length_map, List.length_range, List.getElem?_map,
        List.getElem?_map]
      by_cases hi : i < 64
      · rw [List.getElem?_range hi, Option.map_some, Option.map_some]
        by_cases hin : n = i
        · rw [if_pos hin, if_pos (by omega), if_pos (by omega), hin, UInt8.xor_comm]
        · have hsame : i < n + 1 ↔ i < n := by omega
          rw [if_neg hin]
          simp only [hsame]
      · rw [if_neg (by omega), List.getElem?_eq_none (by rw [List.length_range]; omega)]
        rfl

/-- The loop masks the block of the key. -/
theorem hmacPad_eq (fill : UInt8) (key : List UInt8) (h : key.length ≤ 64) :
    hmacPad fill key key.length
      = (key ++ List.replicate (64 - key.length) 0).map (· ^^^ fill) := by
  rw [hmacPad_front fill key key.length h]
  refine List.ext_getElem? (fun i => ?_)
  rw [List.getElem?_map, List.getElem?_map]
  by_cases hi : i < 64
  · have hget : (key ++ List.replicate (64 - key.length) 0)[i]? = some (byteAt key i) := by
      by_cases hk : i < key.length
      · rw [List.getElem?_append_left hk, byteAt, List.getD_eq_getElem?_getD,
          List.getElem?_eq_getElem hk, Option.getD_some]
      · rw [List.getElem?_append_right (by omega), List.getElem?_replicate, if_pos (by omega),
          byteAt_of_le key i (by omega)]
    rw [hget, List.getElem?_range hi, Option.map_some, Option.map_some]
    by_cases hk : i < key.length
    · rw [if_pos hk]
    · rw [if_neg hk, byteAt_of_le key i (by omega), UInt8.zero_xor]
  · have hlen : (key ++ List.replicate (64 - key.length) (0 : UInt8)).length ≤ i := by
      rw [List.length_append, List.length_replicate]
      omega
    rw [List.getElem?_eq_none hlen, List.getElem?_eq_none (by rw [List.length_range]; omega)]
    rfl

/-- The block of a key that is the front of a buffer. -/
theorem hmacPad_take (fill : UInt8) (key : List UInt8) (n : Nat) (hn : n ≤ 64)
    (hkey : n ≤ key.length) :
    hmacPad fill key n
      = (key.take n ++ List.replicate (64 - (key.take n).length) 0).map (· ^^^ fill) := by
  have hlen : (key.take n).length = n := by rw [List.length_take, Nat.min_eq_left hkey]
  rw [← hmacPad_eq fill (key.take n) (by omega), hlen, hmacPad_front fill key n hn,
    hmacPad_front fill _ n hn]
  refine List.map_congr_left (fun i _ => ?_)
  by_cases hi : i < n
  · rw [if_pos hi, if_pos hi, byteAt, byteAt, List.getD_eq_getElem?_getD,
      List.getD_eq_getElem?_getD, List.getElem?_take_of_lt hi]
  · rw [if_neg hi, if_neg hi]

theorem length_keyBlock (hash : List UInt8 → List UInt8) (hhash : ∀ m, (hash m).length ≤ 64)
    (key : List UInt8) : (keyBlock 64 hash key).length = 64 := by
  have hlen : (if 64 < key.length then hash key else key).length ≤ 64 := by
    split
    · exact hhash key
    · omega
  rw [keyBlock, List.length_append, List.length_replicate]
  omega

/-! ### Under a key with SM3 -/

/-- A context under a key that has taken a message. -/
structure Sm3Keyed (key m : List UInt8) (ctx : Sm3Ctx) : Prop where
  opad : ctx.opad = (keyBlock 64 gbSm3 key).map (· ^^^ 0x5C)
  took : TookSm3 ((keyBlock 64 gbSm3 key).map (· ^^^ 0x36) ++ m) ctx

/-- The key as the loop gets it. -/
theorem sm3Hmac_pad (stack : Sm3Ctx) (hstack : stack.hash.buffer.length = 64) (key : List UInt8)
    (keylen : Int32) (hkey : keylen.toInt ≤ key.length) (fill : UInt8) :
    (if 64 < keylen.toInt then hmacPad fill (sm3 stack key keylen) 32
      else hmacPad fill key keylen.toInt.toNat)
      = (keyBlock 64 gbSm3 (key.take keylen.toInt.toNat)).map (· ^^^ fill) := by
  have hlen : (key.take keylen.toInt.toNat).length = keylen.toInt.toNat := by
    rw [List.length_take]
    omega
  rw [keyBlock]
  by_cases hlong : 64 < keylen.toInt
  · have hdigest : sm3 stack key keylen = gbSm3 (key.take keylen.toInt.toNat) :=
      sm3Finish_eq _ _ ((tookSm3_starts stack hstack).update key keylen)
    have hsize := length_gbSm3 (key.take keylen.toInt.toNat)
    have hpad := hmacPad_eq fill (gbSm3 (key.take keylen.toInt.toNat)) (by omega)
    rw [if_pos hlong, if_pos (by omega), hdigest]
    conv => lhs; rw [← hsize]
    exact hpad
  · rw [if_neg hlong, if_neg (by omega)]
    exact hmacPad_take fill key _ (by omega) (by omega)

/-- A context that is started under a key. -/
theorem sm3Keyed_starts (stack ctx : Sm3Ctx) (hstack : stack.hash.buffer.length = 64)
    (hctx : ctx.hash.buffer.length = 64) (key : List UInt8) (keylen : Int32)
    (hkey : keylen.toInt ≤ key.length) :
    Sm3Keyed (key.take keylen.toInt.toNat) [] (sm3HmacStarts stack ctx key keylen) := by
  have hpad := sm3Hmac_pad stack hstack key keylen hkey
  have hblock := length_keyBlock gbSm3 (fun m => by rw [length_gbSm3]; decide)
    (key.take keylen.toInt.toNat)
  have hpair : ∀ fill, (hmacPad fill
        (if 64 < keylen.toInt then (sm3 stack key keylen, 32) else (key, keylen.toInt.toNat)).1
        (if 64 < keylen.toInt then (sm3 stack key keylen, 32) else (key, keylen.toInt.toNat)).2)
      = (keyBlock 64 gbSm3 (key.take keylen.toInt.toNat)).map (· ^^^ fill) := by
    intro fill
    rw [← hpad fill]
    split <;> rfl
  have hmask : ∀ fill : UInt8,
      ((keyBlock 64 gbSm3 (key.take keylen.toInt.toNat)).map (· ^^^ fill)).take 64
        = (keyBlock 64 gbSm3 (key.take keylen.toInt.toNat)).map (· ^^^ fill) := by
    intro fill
    rw [List.take_of_length_le]
    rw [List.length_map, hblock]
  unfold sm3HmacStarts
  dsimp only
  rw [hpair, hpair]
  have hstart := (tookSm3_starts { ctx with
    ipad := (keyBlock 64 gbSm3 (key.take keylen.toInt.toNat)).map (· ^^^ 0x36)
    opad := (keyBlock 64 gbSm3 (key.take keylen.toInt.toNat)).map (· ^^^ 0x5C) } hctx).update
    ((keyBlock 64 gbSm3 (key.take keylen.toInt.toNat)).map (· ^^^ 0x36)) 64
  refine ⟨rfl, ?_⟩
  rw [List.append_nil]
  rw [List.nil_append, show (64 : Int32).toInt.toNat = 64 from rfl, hmask] at hstart
  exact hstart

/-- An update of it. -/
theorem Sm3Keyed.foldl {key m : List UInt8} {ctx : Sm3Ctx} (h : Sm3Keyed key m ctx)
    (calls : List (List UInt8 × Int32)) :
    Sm3Keyed key (m ++ calls.flatMap (fun c => c.1.take c.2.toInt.toNat))
      (calls.foldl (fun ctx c => sm3HmacUpdate ctx c.1 c.2) ctx) := by
  have hopad : ∀ calls : List (List UInt8 × Int32), ∀ ctx : Sm3Ctx,
      (calls.foldl (fun ctx c => sm3Update ctx c.1 c.2) ctx).opad = ctx.opad := by
    intro calls
    induction calls with
    | nil => intro ctx; rfl
    | cons c calls ih =>
        intro ctx
        rw [List.foldl_cons, ih, sm3Update]
        split <;> rfl
  have htook := h.took.foldl calls
  rw [List.append_assoc] at htook
  exact ⟨(hopad calls ctx).trans h.opad, htook⟩

/-- The end: the digest is hashed behind the other block. -/
theorem Sm3Keyed.finish {key m : List UInt8} {ctx : Sm3Ctx} (h : Sm3Keyed key m ctx) :
    sm3HmacFinish ctx = hmac 64 gbSm3 key m := by
  have hblock := length_keyBlock gbSm3 (fun m => by rw [length_gbSm3]; decide) key
  have htmp := sm3Finish_eq _ _ h.took
  have hbuffer := length_buffer_hashFinish _ _ _ _ _ h.took
  have hopad : ((keyBlock 64 gbSm3 key).map (· ^^^ 0x5C)).take 64
      = (keyBlock 64 gbSm3 key).map (· ^^^ 0x5C) := by
    rw [List.take_of_length_le]
    rw [List.length_map, hblock]
  have hdigest : ∀ m, (gbSm3 m).take 32 = gbSm3 m := by
    intro m
    rw [List.take_of_length_le (Nat.le_of_eq (length_gbSm3 m))]
  have htook := ((tookSm3_starts (sm3Finish ctx).1 hbuffer).update (sm3Finish ctx).1.opad 64).update
    (sm3Finish ctx).2 32
  have hend := sm3Finish_eq _ _ htook
  have hsame : (sm3Finish ctx).1.opad = ctx.opad := rfl
  rw [hsame, h.opad, htmp, show (64 : Int32).toInt.toNat = 64 from rfl,
    show (32 : Int32).toInt.toNat = 32 from rfl, hopad, hdigest, List.nil_append] at hend
  rw [hmac, ← hend, sm3HmacFinish, ← h.opad, ← htmp]
  rfl

/-- The keyed hash of any calls is that of what they were given. -/
theorem sm3_hmac_calls (stack ctx : Sm3Ctx) (hstack : stack.hash.buffer.length = 64)
    (hctx : ctx.hash.buffer.length = 64) (key : List UInt8) (keylen : Int32)
    (hkey : keylen.toInt ≤ key.length) (calls : List (List UInt8 × Int32)) :
    sm3HmacFinish (calls.foldl (fun ctx c => sm3HmacUpdate ctx c.1 c.2)
        (sm3HmacStarts stack ctx key keylen))
      = hmac 64 gbSm3 (key.take keylen.toInt.toNat)
          (calls.flatMap (fun c => c.1.take c.2.toInt.toNat)) := by
  have hkeyed := (sm3Keyed_starts stack ctx hstack hctx key keylen hkey).foldl calls
  exact hkeyed.finish

/-- A key of seventy bytes and a message in two calls. -/
theorem sm3_hmac_calls_long :
    sm3HmacFinish ([([97], 1), ([98, 99], 2)].foldl (fun ctx c => sm3HmacUpdate ctx c.1 c.2)
        (sm3HmacStarts Sm3Ctx.fresh Sm3Ctx.fresh (List.replicate 70 1) 70))
      = hmac 64 gbSm3 (List.replicate 70 1) [97, 98, 99] :=
  sm3_hmac_calls Sm3Ctx.fresh Sm3Ctx.fresh rfl rfl (List.replicate 70 1) 70 (by decide)
    [([97], 1), ([98, 99], 2)]

/-! ### Under a key with SHA-256 -/

/-- A context under a key that has taken a message. -/
structure Sha256Keyed (is224 : Int) (key m : List UInt8) (ctx : Sha256Ctx) : Prop where
  ipad : ctx.ipad = (keyBlock 64 (fipsSha256 (is224 != 0)) key).map (· ^^^ 0x36)
  opad : ctx.opad = (keyBlock 64 (fipsSha256 (is224 != 0)) key).map (· ^^^ 0x5C)
  took : TookSha256 is224
    ((keyBlock 64 (fipsSha256 (is224 != 0)) key).map (· ^^^ 0x36) ++ m) ctx

theorem length_fipsSha256 (is224 : Bool) (m : List UInt8) :
    (fipsSha256 is224 m).length = if is224 then 28 else 32 := by
  rw [fipsSha256, length_flatMap_be32, List.length_take, Vector.length_toList]
  cases is224 <;> rfl

theorem length_fipsSha256_le (is224 : Bool) (m : List UInt8) :
    (fipsSha256 is224 m).length ≤ 64 := by
  rw [length_fipsSha256]
  split <;> decide

/-- One short piece. -/
theorem TookSha256.update {is224 : Int} {m : List UInt8} {ctx : Sha256Ctx}
    (h : TookSha256 is224 m ctx) (input : List UInt8) (hlen : input.length ≤ 64) :
    TookSha256 is224 (m ++ input) (sha256Update ctx input) := by
  have htook := h.foldl [input] (fun c hc => by rw [List.mem_singleton.mp hc]; omega)
  rw [List.flatten_singleton] at htook
  exact htook

/-- The key as the loop gets it. -/
theorem sha256Hmac_key (key : List UInt8) (hkey : key.length < 4294967296) (is224 : Int) :
    (if 64 < key.length then sha256 key is224 else key)
      = (if 64 < key.length then fipsSha256 (is224 != 0) key else key) := by
  have hstart := tookSha256_starts Sha256Ctx.init rfl is224
  have htook := hstart.foldl [key] (fun c hc => by rw [List.mem_singleton.mp hc]; exact hkey)
  have hdigest := sha256Finish_eq is224 _ _ htook
  rw [List.flatten_singleton, List.nil_append] at hdigest
  rw [← hdigest]
  rfl

theorem sha256Hmac_pad (key : List UInt8) (hkey : key.length < 4294967296) (is224 : Int)
    (fill : UInt8) :
    hmacPad fill (if 64 < key.length then sha256 key is224 else key)
        (if 64 < key.length then sha256 key is224 else key).length
      = (keyBlock 64 (fipsSha256 (is224 != 0)) key).map (· ^^^ fill) := by
  rw [sha256Hmac_key key hkey is224, keyBlock]
  refine hmacPad_eq fill _ ?_
  split
  · exact length_fipsSha256_le _ key
  · omega

/-- A context with the blocks of a key starts under it. -/
theorem Sha256Keyed.start {is224 : Int} {key : List UInt8} {ctx : Sha256Ctx}
    (hbuffer : ctx.hash.buffer.length = 64)
    (hipad : ctx.ipad = (keyBlock 64 (fipsSha256 (is224 != 0)) key).map (· ^^^ 0x36))
    (hopad : ctx.opad = (keyBlock 64 (fipsSha256 (is224 != 0)) key).map (· ^^^ 0x5C)) :
    Sha256Keyed is224 key [] (sha256Update (sha256Starts ctx is224) ctx.ipad) := by
  have hblock := length_keyBlock _ (length_fipsSha256_le (is224 != 0)) key
  have htook := (tookSha256_starts ctx hbuffer is224).update ctx.ipad (by
    rw [hipad, List.length_map, hblock])
  refine ⟨hipad, hopad, ?_⟩
  rw [List.append_nil, ← hipad]
  exact htook

/-- A context that is started under a key. -/
theorem sha256Keyed_starts (ctx : Sha256Ctx) (hctx : ctx.hash.buffer.length = 64)
    (key : List UInt8) (hkey : key.length < 4294967296) (is224 : Int) :
    Sha256Keyed is224 key [] (sha256HmacStarts ctx key is224) :=
  Sha256Keyed.start hctx (sha256Hmac_pad key hkey is224 0x36) (sha256Hmac_pad key hkey is224 0x5C)

/-- Updates of it. -/
theorem Sha256Keyed.foldl {is224 : Int} {key m : List UInt8} {ctx : Sha256Ctx}
    (h : Sha256Keyed is224 key m ctx) (chunks : List (List UInt8))
    (hlength : ∀ c ∈ chunks, c.length < 4294967296) :
    Sha256Keyed is224 key (m ++ chunks.flatten) (chunks.foldl sha256HmacUpdate ctx) := by
  have htook := h.took.foldl chunks hlength
  have hrest := foldl_sha256Update ctx chunks
  rw [List.append_assoc] at htook
  refine ⟨?_, ?_, htook⟩
  · exact (congrArg Sha256Ctx.ipad hrest).trans h.ipad
  · exact (congrArg Sha256Ctx.opad hrest).trans h.opad

/-- The end: the digest is hashed behind the other block, and the context can be
    reset. -/
theorem Sha256Keyed.finish {is224 : Int} {key m : List UInt8} {ctx : Sha256Ctx}
    (h : Sha256Keyed is224 key m ctx) :
    (sha256HmacFinish ctx).2 = hmac 64 (fipsSha256 (is224 != 0)) key m ∧
      Sha256Keyed is224 key [] (sha256HmacReset (sha256HmacFinish ctx).1) := by
  have hblock := length_keyBlock _ (length_fipsSha256_le (is224 != 0)) key
  have hbuffer := length_buffer_hashFinish _ _ _ _ _ h.took.took
  have hdigest := sha256Finish_eq is224 _ _ h.took
  -- The inner digest is copied with the length of its kind, which is all of it.
  have htake : (sha256Finish ctx).2.take (if ctx.is224 = 0 then 32 else 28)
      = (sha256Finish ctx).2 := by
    rw [hdigest, h.took.kind, List.take_of_length_le]
    rw [length_fipsSha256]
    by_cases hkind : is224 = 0
    · rw [if_pos hkind, hkind]
      exact Nat.le_refl 32
    · have hne : (is224 != 0) = true := bne_iff_ne.mpr hkind
      rw [if_neg hkind, hne]
      exact Nat.le_refl 28
  -- The outer hash starts over, with the pad and the inner digest.
  have htook := ((tookSha256_starts (sha256Finish ctx).1 hbuffer is224).update
    (sha256Finish ctx).1.opad (by
      rw [show (sha256Finish ctx).1.opad = ctx.opad from rfl, h.opad, List.length_map,
        hblock])).update
    (sha256Finish ctx).2 (by rw [hdigest]; exact length_fipsSha256_le _ _)
  have hout := sha256Finish_eq is224 _ _ htook
  have hsame : (sha256HmacFinish ctx)
      = sha256Finish (sha256Update (sha256Update (sha256Starts (sha256Finish ctx).1 is224)
          (sha256Finish ctx).1.opad) (sha256Finish ctx).2) := by
    have hform : sha256HmacFinish ctx
        = sha256Finish (sha256Update (sha256Update (sha256Starts (sha256Finish ctx).1 ctx.is224)
          (sha256Finish ctx).1.opad) ((sha256Finish ctx).2.take
            (if ctx.is224 = 0 then 32 else 28))) := rfl
    rw [hform, htake, h.took.kind]
  constructor
  · rw [hsame, hout, hmac, hdigest, List.nil_append, ← h.opad]
    rfl
  · rw [hsame]
    have hafter := length_buffer_hashFinish _ _ _ _ _ htook.took
    exact Sha256Keyed.start hafter h.ipad h.opad

/-- The keyed hashes of the messages of a session, each in pieces, are those of
    the messages. Induction on the messages. -/
theorem sha256Session_eq (is224 : Int) (key : List UInt8) (ctx : Sha256Ctx)
    (h : Sha256Keyed is224 key [] ctx) (messages : List (List (List UInt8)))
    (hlength : ∀ chunks ∈ messages, ∀ c ∈ chunks, c.length < 4294967296) :
    sha256Session ctx messages
      = messages.map (fun chunks => hmac 64 (fipsSha256 (is224 != 0)) key chunks.flatten) := by
  induction messages generalizing ctx with
  | nil => rfl
  | cons chunks messages ih =>
      have hkeyed := h.foldl chunks (hlength chunks List.mem_cons_self)
      rcases hkeyed.finish with ⟨hout, hreset⟩
      rw [List.nil_append] at hout
      have hform : sha256Session ctx (chunks :: messages)
          = (sha256HmacFinish (chunks.foldl sha256HmacUpdate ctx)).2
            :: sha256Session (sha256HmacReset
              (sha256HmacFinish (chunks.foldl sha256HmacUpdate ctx)).1) messages := rfl
      rw [hform, List.map_cons, hout,
        ih _ hreset (fun c hc => hlength c (List.mem_cons_of_mem chunks hc))]

/-- One key serves for any number of messages. -/
theorem sha256_hmac_session (ctx : Sha256Ctx) (hctx : ctx.hash.buffer.length = 64)
    (key : List UInt8) (hkey : key.length < 4294967296) (is224 : Int)
    (messages : List (List (List UInt8)))
    (hlength : ∀ chunks ∈ messages, ∀ c ∈ chunks, c.length < 4294967296) :
    sha256Session (sha256HmacStarts ctx key is224) messages
      = messages.map (fun chunks => hmac 64 (fipsSha256 (is224 != 0)) key chunks.flatten) := by
  have hkeyed := sha256Keyed_starts ctx hctx key hkey is224
  exact sha256Session_eq is224 key _ hkeyed messages hlength

/-- Two messages under a key of seventy bytes. -/
theorem sha256_hmac_session_two :
    sha256Session (sha256HmacStarts Sha256Ctx.init (List.replicate 70 1) 0) [[[97], [98, 99]], [[]]]
      = [hmac 64 (fipsSha256 false) (List.replicate 70 1) [97, 98, 99],
        hmac 64 (fipsSha256 false) (List.replicate 70 1) []] :=
  sha256_hmac_session Sha256Ctx.init rfl (List.replicate 70 1) (by decide) 0
    [[[97], [98, 99]], [[]]] (by decide)

end Crypto

end Defender
