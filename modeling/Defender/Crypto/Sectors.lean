import Defender.Crypto.Sm4
import Mathlib.Algebra.Group.Nat.Defs

/-!
# Sectors in Memory

The sector functions as they go through memory: `In` and `Out` are addresses,
which the loop moves on by a block at a time, and the count of the loop is an
`int`. The memory is one list, so that `In` and `Out` may be the same buffer.

Each turn reads its whole block before it writes one, and it writes only where
no later turn reads. So what the later turns read is what was there before the
call, and the loop over memory is the loop over blocks (`blockLoop_eq`). The
rest was said of blocks.

A call that leaves the memory has no result. The `int` product of the count and
the size of a unit is in range for sectors below two gigabytes.

## Main definitions

* `blockLoop`: The loop of both buffer functions.
* `CSM4Crypto.encryptSectorAt`, `CSM4Crypto.decryptSectorAt`: The sector functions.
* `Apart`, `KeptOutside`: Buffers, and what is outside of them.

## Theorems

* `blockLoop_eq`: The loop puts one block behind the other.
* `encryptSectorAt_eq`, `decryptSectorAt_eq`: The sector functions are those of
  lists of bytes.
* `sectors_undo`: They undo each other.
-/

namespace Defender

namespace Crypto

open Wire

/-- The loop of `SM4EncryptBuffer` and of `SM4DecryptBuffer`, with `cipher` for
    the function of a block. -/
def blockLoop (cipher : List UInt8 → List UInt8) (Len : Int32) :
    Nat → List UInt8 → Nat → Nat → Int32 → Option (List UInt8)
  | 0, _, _, _, _ => none
  | turns + 1, m, localINBuf, localOUTBuf, i =>
      if i < Len then
        if localINBuf + 16 ≤ m.length ∧ localOUTBuf + 16 ≤ m.length then
          blockLoop cipher Len turns (poke m localOUTBuf (cipher (slice m localINBuf 16)))
            (localINBuf + 16) (localOUTBuf + 16) (i + 16)
        else none
      else some m

/-- `CSM4Crypto::SM4EncryptBuffer`, at addresses. -/
def CSM4Crypto.sm4EncryptBufferAt (c : CSM4Crypto) (turns : Nat) (m : List UInt8) (In Out : Nat)
    (Len : Int32) : Option (List UInt8) :=
  if Len % 16 ≠ 0 then some m
  else blockLoop (fun inb => sm4Encrypt inb c.SK4) Len turns m In Out 0

/-- `CSM4Crypto::SM4DecryptBuffer`, at addresses. -/
def CSM4Crypto.sm4DecryptBufferAt (c : CSM4Crypto) (turns : Nat) (m : List UInt8) (In Out : Nat)
    (Len : Int32) : Option (List UInt8) :=
  if Len % 16 ≠ 0 then some m
  else blockLoop (fun inb => sm4Decrypt inb c.SK4) Len turns m In Out 0

/-- `CSM4Crypto::EncryptSector`, at addresses. -/
def CSM4Crypto.encryptSectorAt (c : CSM4Crypto) (turns : Nat) (m : List UInt8) (In Out : Nat)
    (UnitCount : Int32) : Option (List UInt8) :=
  c.sm4EncryptBufferAt turns m In Out (UnitCount * Int32.ofNat cryptoUnitSize)

/-- `CSM4Crypto::DecryptSector`, at addresses. -/
def CSM4Crypto.decryptSectorAt (c : CSM4Crypto) (turns : Nat) (m : List UInt8) (In Out : Nat)
    (UnitCount : Int32) : Option (List UInt8) :=
  c.sm4DecryptBufferAt turns m In Out (UnitCount * Int32.ofNat cryptoUnitSize)

/-- Two buffers of `n` bytes are disjoint, or the same. -/
def Apart (n In Out : Nat) : Prop :=
  In = Out ∨ In + n ≤ Out ∨ Out + n ≤ In

/-- The bytes outside of a buffer are as they were. -/
def KeptOutside (m m' : List UInt8) (i n : Nat) : Prop :=
  m'.length = m.length ∧ ∀ k, k < i ∨ i + n ≤ k → m'[k]? = m[k]?

theorem keptOutside_poke (m d : List UInt8) (i n : Nat) (hd : d.length = n)
    (h : i + n ≤ m.length) : KeptOutside m (poke m i d) i n := by
  refine ⟨length_poke m d i (by omega), fun k hk => ?_⟩
  rw [getElem?_poke m d i k (by omega)]
  rcases hk with hbefore | hafter
  · rw [if_pos hbefore]
  · rw [if_neg (by omega), if_neg (by omega)]

/-- A turn of the loop does not pass the end of an `int`. -/
theorem toInt_add_sixteen (i Len : Int32) (r : Nat) (hi : 0 ≤ i.toInt)
    (hLen : Len.toInt = i.toInt + 16 * (r + 1 : Nat)) : (i + 16).toInt = i.toInt + 16 := by
  have hlt := Int32.toInt_lt Len
  have hsixteen : (16 : Int32).toInt = 16 := rfl
  -- The sum is `Len` at most, so it does not wrap.
  rw [Int32.toInt_add, hsixteen]
  exact Int.bmod_eq_of_le (by omega) (by omega)

/-- The blocks that the loop makes of the bytes at `In`. -/
def blocksAt (cipher : List UInt8 → List UInt8) (m : List UInt8) (In n : Nat) : List UInt8 :=
  (List.range n).flatMap (fun k => cipher (slice m (In + 16 * k) 16))

theorem blocksAt_succ (cipher : List UInt8 → List UInt8) (m : List UInt8) (In n : Nat) :
    blocksAt cipher m In (n + 1) = cipher (slice m In 16) ++ blocksAt cipher m (In + 16) n := by
  have hshift : (fun k => cipher (slice m (In + 16 * (k + 1)) 16))
      = fun k => cipher (slice m (In + 16 + 16 * k) 16) := by
    funext k
    rw [show In + 16 * (k + 1) = In + 16 + 16 * k by omega]
  unfold blocksAt
  rw [List.range_succ_eq_map, List.flatMap_cons, List.flatMap_map, Nat.mul_zero, Nat.add_zero,
    hshift]

/-- A block that is written does not change what the later turns read. -/
theorem blocksAt_poke (cipher : List UInt8 → List UInt8) (m d : List UInt8) (In Out n : Nat)
    (hd : d.length = 16) (hout : Out + 16 ≤ m.length)
    (hapart : Out ≤ In ∨ In + 16 * (n + 1) ≤ Out) :
    blocksAt cipher (poke m Out d) (In + 16) n = blocksAt cipher m (In + 16) n := by
  refine List.flatMap_congr (fun k hk => ?_)
  rw [List.mem_range] at hk
  -- What is written lies before all that is read later, or behind all of it.
  rcases hapart with hbehind | hbefore
  · rw [slice_poke_after m d Out _ 16 (by omega) (by omega)]
  · rw [slice_poke_before m d Out _ 16 (by omega) (by omega)]

/-- The loop puts the blocks one behind the other. Induction on the blocks that
    are left. -/
theorem blockLoop_eq (cipher : List UInt8 → List UInt8) (hcipher : ∀ b, (cipher b).length = 16)
    (Len : Int32) (n turns : Nat) (m : List UInt8) (In Out : Nat) (i : Int32) (hturns : n < turns)
    (hi : 0 ≤ i.toInt) (hLen : Len.toInt = i.toInt + 16 * n) (hin : In + 16 * n ≤ m.length)
    (hout : Out + 16 * n ≤ m.length) (hapart : Out ≤ In ∨ In + 16 * n ≤ Out) :
    blockLoop cipher Len turns m In Out i = some (poke m Out (blocksAt cipher m In n)) := by
  induction n generalizing turns m In Out i with
  | zero =>
      cases turns with
      | zero => omega
      | succ turns =>
          rw [blockLoop, if_neg]
          · -- `i` has come to `Len`, and nothing is written any more.
            exact congrArg some (poke_nil m Out).symm
          · rw [Int32.lt_iff_toInt_lt]
            omega
  | succ n ih =>
      cases turns with
      | zero => omega
      | succ turns =>
          -- One more block goes behind what was written, and the rest is the induction's.
          have hblock := hcipher (slice m In 16)
          have hlength := length_poke m (cipher (slice m In 16)) Out (by omega)
          have hturn := toInt_add_sixteen i Len n hi hLen
          rw [blockLoop, if_pos (by rw [Int32.lt_iff_toInt_lt]; omega), if_pos (by omega),
            ih turns _ (In + 16) (Out + 16) (i + 16) (by omega) (by omega) (by omega) (by omega)
              (by omega) (by omega),
            blocksAt_poke cipher m _ In Out n hblock (by omega) hapart, blocksAt_succ]
          -- The blocks that are left go behind this one.
          have hpoke := poke_poke m (cipher (slice m In 16)) (blocksAt cipher m (In + 16) n) Out
            (by omega)
          rw [hblock] at hpoke
          rw [hpoke]

/-- The number of bytes of a sector is in range. -/
theorem toInt_unitCount (UnitCount : Int32) (n : Nat) (hn : UnitCount.toInt = n)
    (hbound : n < 2 ^ 27) : (UnitCount * Int32.ofNat cryptoUnitSize).toInt = 16 * n := by
  have hunit : (Int32.ofNat cryptoUnitSize).toInt = 16 := rfl
  rw [Int32.toInt_mul, hunit, hn]
  -- Sixteen times less than 2^27 is in the range of an `int`.
  rw [Int.bmod_eq_of_le (by omega) (by omega)]
  omega

/-- Whole blocks are not refused. -/
theorem unitCount_mod (UnitCount : Int32) (n : Nat) (hn : UnitCount.toInt = n)
    (hbound : n < 2 ^ 27) : UnitCount * Int32.ofNat cryptoUnitSize % 16 = 0 := by
  have hsixteen : (16 : Int32).toInt = 16 := rfl
  apply Int32.toInt_inj.mp
  rw [Int32.toInt_mod, toInt_unitCount UnitCount n hn hbound, hsixteen]
  -- Both functions leave the output as it is when the size is no multiple of sixteen.
  exact Int.mul_tmod_right 16 n

section Sectors

variable (c : CSM4Crypto) (m : List UInt8) (In Out : Nat) (UnitCount : Int32) (n : Nat)
  (hn : UnitCount.toInt = n) (hbound : n < 2 ^ 27) (hin : In + 16 * n ≤ m.length)
  (hout : Out + 16 * n ≤ m.length) (hapart : Apart (16 * n) In Out)
include hn hbound hin hout hapart

/-- The loop over a sector, block by block. -/
theorem unitLoop_eq (cipher : List UInt8 → List UInt8) (hcipher : ∀ b, (cipher b).length = 16)
    (turns : Nat) (hturns : n < turns) :
    blockLoop cipher (UnitCount * Int32.ofNat cryptoUnitSize) turns m In Out 0
      = some (poke m Out ((List.range n).flatMap
          (fun k => cipher (slice (slice m In (16 * n)) (16 * k) 16)))) := by
  have hblocks : blocksAt cipher m In n
      = (List.range n).flatMap (fun k => cipher (slice (slice m In (16 * n)) (16 * k) 16)) := by
    refine List.flatMap_congr (fun k hk => ?_)
    rw [List.mem_range] at hk
    rw [slice_slice m In (16 * n) (16 * k) 16 (by omega)]
  -- The blocks of the buffer are those of its bytes.
  rw [← hblocks]
  refine blockLoop_eq cipher hcipher _ n turns m In Out 0 hturns (Int.le_refl 0) ?_ hin hout ?_
  · rw [toInt_unitCount UnitCount n hn hbound]
    exact (Int.zero_add _).symm
  · unfold Apart at hapart
    omega

/-- In memory the encryption of a sector is that of its bytes. -/
theorem encryptSectorAt_eq (turns : Nat) (hturns : n < turns) :
    c.encryptSectorAt turns m In Out UnitCount = some (poke m Out
      (c.encryptSector (slice m In (16 * n)) (slice m Out (16 * n)) n)) := by
  unfold CSM4Crypto.encryptSectorAt CSM4Crypto.sm4EncryptBufferAt
  rw [if_neg (not_not.mpr (unitCount_mod UnitCount n hn hbound)),
    encryptSector_eq c _ _ n (length_slice m Out _ hout)]
  exact unitLoop_eq m In Out UnitCount n hn hbound hin hout hapart _
    (fun _ => length_sm4Encrypt _ _) turns hturns

/-- So is the decryption. -/
theorem decryptSectorAt_eq (turns : Nat) (hturns : n < turns) :
    c.decryptSectorAt turns m In Out UnitCount = some (poke m Out
      (c.decryptSector (slice m In (16 * n)) (slice m Out (16 * n)) n)) := by
  unfold CSM4Crypto.decryptSectorAt CSM4Crypto.sm4DecryptBufferAt
  rw [if_neg (not_not.mpr (unitCount_mod UnitCount n hn hbound)),
    decryptSector_eq c _ _ n (length_slice m Out _ hout)]
  exact unitLoop_eq m In Out UnitCount n hn hbound hin hout hapart _
    (fun _ => length_sm4Decrypt _ _) turns hturns

end Sectors

/-- What two calls leave, the second of which reads what the first has written. -/
theorem poke_twice (m e d : List UInt8) (Out Out' n : Nat) (he : e.length = n) (hd : d.length = n)
    (hout : Out + n ≤ m.length) (hout' : Out' + n ≤ m.length) :
    slice (poke (poke m Out e) Out' d) Out' n = d ∧ KeptOutside m (poke m Out e) Out n ∧
      KeptOutside (poke m Out e) (poke (poke m Out e) Out' d) Out' n := by
  have hlength : (poke m Out e).length = m.length := length_poke m e Out (by omega)
  have hlast : slice (poke (poke m Out e) Out' d) Out' d.length = d :=
    slice_poke_self (poke m Out e) d Out' (by omega)
  rw [hd] at hlast
  exact ⟨hlast, keptOutside_poke m e Out n he hout, keptOutside_poke _ d Out' n hd (by omega)⟩

/-- For every key schedule and every sector below two gigabytes, in memory and
    in place or not: decrypting undoes encrypting, encrypting undoes decrypting,
    and each writes its output and nothing else. -/
theorem sectors_undo (c : CSM4Crypto) (m : List UInt8) (In Out Out' : Nat) (UnitCount : Int32)
    (n : Nat) (hn : UnitCount.toInt = n) (hbound : n < 2 ^ 27) (hin : In + 16 * n ≤ m.length)
    (hout : Out + 16 * n ≤ m.length) (hout' : Out' + 16 * n ≤ m.length)
    (hapart : Apart (16 * n) In Out) (hapart' : Apart (16 * n) Out Out') :
    (∃ m' m'',
      (∀ turns, n < turns → c.encryptSectorAt turns m In Out UnitCount = some m') ∧
      (∀ turns, n < turns → c.decryptSectorAt turns m' Out Out' UnitCount = some m'') ∧
      slice m'' Out' (16 * n) = slice m In (16 * n) ∧
      KeptOutside m m' Out (16 * n) ∧ KeptOutside m' m'' Out' (16 * n)) ∧
    ∃ m' m'',
      (∀ turns, n < turns → c.decryptSectorAt turns m In Out UnitCount = some m') ∧
      (∀ turns, n < turns → c.encryptSectorAt turns m' Out Out' UnitCount = some m'') ∧
      slice m'' Out' (16 * n) = slice m In (16 * n) ∧
      KeptOutside m m' Out (16 * n) ∧ KeptOutside m' m'' Out' (16 * n) := by
  have hb := length_slice m In (16 * n) hin
  constructor
  · have hlength := length_encryptSector c (slice m In (16 * n)) _ n (length_slice m Out _ hout)
    have hfirst := encryptSectorAt_eq c m In Out UnitCount n hn hbound hin hout hapart
    have hm' := length_poke m _ Out (by rw [hlength]; exact hout)
    have hread := slice_poke_self m
      (c.encryptSector (slice m In (16 * n)) (slice m Out (16 * n)) n) Out (by omega)
    rw [hlength] at hread
    rw [← hm'] at hout'
    -- The second call reads what the first has written.
    have hsecond := decryptSectorAt_eq c _ Out Out' UnitCount n hn hbound (by omega) hout' hapart'
    rw [hread, decryptSector_encryptSector c _ _ _ n hb (length_slice m Out _ hout)
      (length_slice _ Out' _ hout')] at hsecond
    exact ⟨_, _, hfirst, hsecond, poke_twice m _ _ Out Out' _ hlength hb hout (by omega)⟩
  · have hlength := length_decryptSector c (slice m In (16 * n)) _ n (length_slice m Out _ hout)
    have hfirst := decryptSectorAt_eq c m In Out UnitCount n hn hbound hin hout hapart
    have hm' := length_poke m _ Out (by rw [hlength]; exact hout)
    have hread := slice_poke_self m
      (c.decryptSector (slice m In (16 * n)) (slice m Out (16 * n)) n) Out (by omega)
    rw [hlength] at hread
    rw [← hm'] at hout'
    -- The second call reads what the first has written.
    have hsecond := encryptSectorAt_eq c _ Out Out' UnitCount n hn hbound (by omega) hout' hapart'
    rw [hread, encryptSector_decryptSector c _ _ _ n hb (length_slice m Out _ hout)
      (length_slice _ Out' _ hout')] at hsecond
    exact ⟨_, _, hfirst, hsecond, poke_twice m _ _ Out Out' _ hlength hb hout (by omega)⟩

/-- Two blocks in place, in the middle of a buffer. -/
theorem sectors_undo_inPlace :
    ∃ m' m'', CSM4Crypto.getInstance.encryptSectorAt 3 (List.replicate 40 7) 4 4 2 = some m' ∧
      CSM4Crypto.getInstance.decryptSectorAt 3 m' 4 4 2 = some m'' ∧
      slice m'' 4 32 = List.replicate 32 7 := by
  rcases (sectors_undo CSM4Crypto.getInstance (List.replicate 40 7) 4 4 4 2 2 rfl (by decide)
    (by decide) (by decide) (by decide) (Or.inl rfl) (Or.inl rfl)).1 with
    ⟨m', m'', hencrypt, hdecrypt, hslice, -⟩
  exact ⟨m', m'', hencrypt 3 (by decide), hdecrypt 3 (by decide), hslice⟩

end Crypto

end Defender
