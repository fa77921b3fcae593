import Defender.Lib.Feistel
import Defender.Lib.Wire

/-!
# SM4 as the Scanner Uses It

The block cipher of `sm4.c` and the sector functions over it. A block is four
big-endian words; encryption runs thirty-two rounds, four to a line, and
stores the words backwards; decryption does the same with the round keys
backwards. The first and the last line of each use the slow form of the round
function, and since these are lines with the same keys in both directions,
that the two forms agree is never needed.

The network is `Lib.Feistel`, whose lemma says that the second pass undoes the
first. What is left here is to recognise the lines of the source as rounds,
the words as bytes, and the sector functions as a loop over blocks.

The `int` products of the sector functions are taken in `Nat`; they are in
range for sectors below two gigabytes.

## Main definitions

* `sm4S`, `sm4SboxT`: The tables of the source.
* `sm4T`, `sm4TSlow`: The two forms of the round function.
* `sm4SetKey`: The key schedule.
* `sm4Encrypt`, `sm4Decrypt`: One block.
* `encryptSector`, `decryptSector`: A buffer of blocks.

## Theorems

* `sm4Rnds_eq`: A line of the source is four rounds.
* `sm4Decrypt_sm4Encrypt`, `sm4Encrypt_sm4Decrypt`: The two undo each other.
* `encryptSector_eq`, `decryptSector_eq`: The sector functions go block by
  block.
* `decryptSector_encryptSector`, `encryptSector_decryptSector`: They undo each
  other too.
-/

namespace Defender

namespace Crypto

open Wire Feistel

/-- `SM4_S`. -/
def sm4S : Array UInt8 :=
  #[
    0xD6, 0x90, 0xE9, 0xFE, 0xCC, 0xE1, 0x3D, 0xB7, 0x16, 0xB6, 0x14, 0xC2,
    0x28, 0xFB, 0x2C, 0x05, 0x2B, 0x67, 0x9A, 0x76, 0x2A, 0xBE, 0x04, 0xC3,
    0xAA, 0x44, 0x13, 0x26, 0x49, 0x86, 0x06, 0x99, 0x9C, 0x42, 0x50, 0xF4,
    0x91, 0xEF, 0x98, 0x7A, 0x33, 0x54, 0x0B, 0x43, 0xED, 0xCF, 0xAC, 0x62,
    0xE4, 0xB3, 0x1C, 0xA9, 0xC9, 0x08, 0xE8, 0x95, 0x80, 0xDF, 0x94, 0xFA,
    0x75, 0x8F, 0x3F, 0xA6, 0x47, 0x07, 0xA7, 0xFC, 0xF3, 0x73, 0x17, 0xBA,
    0x83, 0x59, 0x3C, 0x19, 0xE6, 0x85, 0x4F, 0xA8, 0x68, 0x6B, 0x81, 0xB2,
    0x71, 0x64, 0xDA, 0x8B, 0xF8, 0xEB, 0x0F, 0x4B, 0x70, 0x56, 0x9D, 0x35,
    0x1E, 0x24, 0x0E, 0x5E, 0x63, 0x58, 0xD1, 0xA2, 0x25, 0x22, 0x7C, 0x3B,
    0x01, 0x21, 0x78, 0x87, 0xD4, 0x00, 0x46, 0x57, 0x9F, 0xD3, 0x27, 0x52,
    0x4C, 0x36, 0x02, 0xE7, 0xA0, 0xC4, 0xC8, 0x9E, 0xEA, 0xBF, 0x8A, 0xD2,
    0x40, 0xC7, 0x38, 0xB5, 0xA3, 0xF7, 0xF2, 0xCE, 0xF9, 0x61, 0x15, 0xA1,
    0xE0, 0xAE, 0x5D, 0xA4, 0x9B, 0x34, 0x1A, 0x55, 0xAD, 0x93, 0x32, 0x30,
    0xF5, 0x8C, 0xB1, 0xE3, 0x1D, 0xF6, 0xE2, 0x2E, 0x82, 0x66, 0xCA, 0x60,
    0xC0, 0x29, 0x23, 0xAB, 0x0D, 0x53, 0x4E, 0x6F, 0xD5, 0xDB, 0x37, 0x45,
    0xDE, 0xFD, 0x8E, 0x2F, 0x03, 0xFF, 0x6A, 0x72, 0x6D, 0x6C, 0x5B, 0x51,
    0x8D, 0x1B, 0xAF, 0x92, 0xBB, 0xDD, 0xBC, 0x7F, 0x11, 0xD9, 0x5C, 0x41,
    0x1F, 0x10, 0x5A, 0xD8, 0x0A, 0xC1, 0x31, 0x88, 0xA5, 0xCD, 0x7B, 0xBD,
    0x2D, 0x74, 0xD0, 0x12, 0xB8, 0xE5, 0xB4, 0xB0, 0x89, 0x69, 0x97, 0x4A,
    0x0C, 0x96, 0x77, 0x7E, 0x65, 0xB9, 0xF1, 0x09, 0xC5, 0x6E, 0xC6, 0x84,
    0x18, 0xF0, 0x7D, 0xEC, 0x3A, 0xDC, 0x4D, 0x20, 0x79, 0xEE, 0x5F, 0x3E,
    0xD7, 0xCB, 0x39, 0x48]

/-- `SM4_SBOX_T`: the table of `SM4_S` behind the linear transform. -/
def sm4SboxT : Array UInt32 :=
  #[
    0x8ED55B5B, 0xD0924242, 0x4DEAA7A7, 0x06FDFBFB, 0xFCCF3333, 0x65E28787, 0xC93DF4F4, 0x6BB5DEDE,
    0x4E165858, 0x6EB4DADA, 0x44145050, 0xCAC10B0B, 0x8828A0A0, 0x17F8EFEF, 0x9C2CB0B0, 0x11051414,
    0x872BACAC, 0xFB669D9D, 0xF2986A6A, 0xAE77D9D9, 0x822AA8A8, 0x46BCFAFA, 0x14041010, 0xCFC00F0F,
    0x02A8AAAA, 0x54451111, 0x5F134C4C, 0xBE269898, 0x6D482525, 0x9E841A1A, 0x1E061818, 0xFD9B6666,
    0xEC9E7272, 0x4A430909, 0x10514141, 0x24F7D3D3, 0xD5934646, 0x53ECBFBF, 0xF89A6262, 0x927BE9E9,
    0xFF33CCCC, 0x04555151, 0x270B2C2C, 0x4F420D0D, 0x59EEB7B7, 0xF3CC3F3F, 0x1CAEB2B2, 0xEA638989,
    0x74E79393, 0x7FB1CECE, 0x6C1C7070, 0x0DABA6A6, 0xEDCA2727, 0x28082020, 0x48EBA3A3, 0xC1975656,
    0x80820202, 0xA3DC7F7F, 0xC4965252, 0x12F9EBEB, 0xA174D5D5, 0xB38D3E3E, 0xC33FFCFC, 0x3EA49A9A,
    0x5B461D1D, 0x1B071C1C, 0x3BA59E9E, 0x0CFFF3F3, 0x3FF0CFCF, 0xBF72CDCD, 0x4B175C5C, 0x52B8EAEA,
    0x8F810E0E, 0x3D586565, 0xCC3CF0F0, 0x7D196464, 0x7EE59B9B, 0x91871616, 0x734E3D3D, 0x08AAA2A2,
    0xC869A1A1, 0xC76AADAD, 0x85830606, 0x7AB0CACA, 0xB570C5C5, 0xF4659191, 0xB2D96B6B, 0xA7892E2E,
    0x18FBE3E3, 0x47E8AFAF, 0x330F3C3C, 0x674A2D2D, 0xB071C1C1, 0x0E575959, 0xE99F7676, 0xE135D4D4,
    0x661E7878, 0xB4249090, 0x360E3838, 0x265F7979, 0xEF628D8D, 0x38596161, 0x95D24747, 0x2AA08A8A,
    0xB1259494, 0xAA228888, 0x8C7DF1F1, 0xD73BECEC, 0x05010404, 0xA5218484, 0x9879E1E1, 0x9B851E1E,
    0x84D75353, 0x00000000, 0x5E471919, 0x0B565D5D, 0xE39D7E7E, 0x9FD04F4F, 0xBB279C9C, 0x1A534949,
    0x7C4D3131, 0xEE36D8D8, 0x0A020808, 0x7BE49F9F, 0x20A28282, 0xD4C71313, 0xE8CB2323, 0xE69C7A7A,
    0x42E9ABAB, 0x43BDFEFE, 0xA2882A2A, 0x9AD14B4B, 0x40410101, 0xDBC41F1F, 0xD838E0E0, 0x61B7D6D6,
    0x2FA18E8E, 0x2BF4DFDF, 0x3AF1CBCB, 0xF6CD3B3B, 0x1DFAE7E7, 0xE5608585, 0x41155454, 0x25A38686,
    0x60E38383, 0x16ACBABA, 0x295C7575, 0x34A69292, 0xF7996E6E, 0xE434D0D0, 0x721A6868, 0x01545555,
    0x19AFB6B6, 0xDF914E4E, 0xFA32C8C8, 0xF030C0C0, 0x21F6D7D7, 0xBC8E3232, 0x75B3C6C6, 0x6FE08F8F,
    0x691D7474, 0x2EF5DBDB, 0x6AE18B8B, 0x962EB8B8, 0x8A800A0A, 0xFE679999, 0xE2C92B2B, 0xE0618181,
    0xC0C30303, 0x8D29A4A4, 0xAF238C8C, 0x07A9AEAE, 0x390D3434, 0x1F524D4D, 0x764F3939, 0xD36EBDBD,
    0x81D65757, 0xB7D86F6F, 0xEB37DCDC, 0x51441515, 0xA6DD7B7B, 0x09FEF7F7, 0xB68C3A3A, 0x932FBCBC,
    0x0F030C0C, 0x03FCFFFF, 0xC26BA9A9, 0xBA73C9C9, 0xD96CB5B5, 0xDC6DB1B1, 0x375A6D6D, 0x15504545,
    0xB98F3636, 0x771B6C6C, 0x13ADBEBE, 0xDA904A4A, 0x57B9EEEE, 0xA9DE7777, 0x4CBEF2F2, 0x837EFDFD,
    0x55114444, 0xBDDA6767, 0x2C5D7171, 0x45400505, 0x631F7C7C, 0x50104040, 0x325B6969, 0xB8DB6363,
    0x220A2828, 0xC5C20707, 0xF531C4C4, 0xA88A2222, 0x31A79696, 0xF9CE3737, 0x977AEDED, 0x49BFF6F6,
    0x992DB4B4, 0xA475D1D1, 0x90D34343, 0x5A124848, 0x58BAE2E2, 0x71E69797, 0x64B6D2D2, 0x70B2C2C2,
    0xAD8B2626, 0xCD68A5A5, 0xCB955E5E, 0x624B2929, 0x3C0C3030, 0xCE945A5A, 0xAB76DDDD, 0x867FF9F9,
    0xF1649595, 0x5DBBE6E6, 0x35F2C7C7, 0x2D092424, 0xD1C61717, 0xD66FB9B9, 0xDEC51B1B, 0x94861212,
    0x78186060, 0x30F3C3C3, 0x897CF5F5, 0x5CEFB3B3, 0xD23AE8E8, 0xACDF7373, 0x794C3535, 0xA0208080,
    0x9D78E5E5, 0x56EDBBBB, 0x235E7D7D, 0xC63EF8F8, 0x8BD45F5F, 0xE7C82F2F, 0xDD39E4E4, 0x68492121]

def rotl (a n : UInt32) : UInt32 :=
  (a <<< n) ||| (a >>> (32 - n))

/-- `load_u32_be`. -/
def loadU32Be (b : List UInt8) (n : Nat) : UInt32 :=
  dwordBeAt b (4 * n)

/-- `SM4_T_slow`: four table bytes and the linear transform. -/
def sm4TSlow (X : UInt32) : UInt32 :=
  let t := ((sm4S.getD (X >>> 24).toUInt8.toNat 0).toUInt32 <<< 24)
    ||| ((sm4S.getD (X >>> 16).toUInt8.toNat 0).toUInt32 <<< 16)
    ||| ((sm4S.getD (X >>> 8).toUInt8.toNat 0).toUInt32 <<< 8)
    ||| (sm4S.getD X.toUInt8.toNat 0).toUInt32
  t ^^^ rotl t 2 ^^^ rotl t 10 ^^^ rotl t 18 ^^^ rotl t 24

/-- `SM4_T`: four table words. -/
def sm4T (X : UInt32) : UInt32 :=
  sm4SboxT.getD (X >>> 24).toUInt8.toNat 0
    ^^^ rotl (sm4SboxT.getD (X >>> 16).toUInt8.toNat 0) 24
    ^^^ rotl (sm4SboxT.getD (X >>> 8).toUInt8.toNat 0) 16
    ^^^ rotl (sm4SboxT.getD X.toUInt8.toNat 0) 8

/-- `SM4_KEY`. -/
structure Sm4Key where
  rk : Vector UInt32 32
  deriving DecidableEq, Repr

/-- The family key. -/
def sm4FK : Vector UInt32 4 :=
  #v[0xa3b1bac6, 0x56aa3350, 0x677d9197, 0xb27022dc]

/-- The constant key. -/
def sm4CK : Vector UInt32 32 :=
  #v[
    0x00070E15, 0x1C232A31, 0x383F464D, 0x545B6269, 0x70777E85, 0x8C939AA1, 0xA8AFB6BD, 0xC4CBD2D9,
    0xE0E7EEF5, 0xFC030A11, 0x181F262D, 0x343B4249, 0x50575E65, 0x6C737A81, 0x888F969D, 0xA4ABB2B9,
    0xC0C7CED5, 0xDCE3EAF1, 0xF8FF060D, 0x141B2229, 0x30373E45, 0x4C535A61, 0x686F767D, 0x848B9299,
    0xA0A7AEB5, 0xBCC3CAD1, 0xD8DFE6ED, 0xF4FB0209, 0x10171E25, 0x2C333A41, 0x484F565D, 0x646B7279]

/-- One turn of the loop of `SM4_set_key`, on `K` and the round keys. -/
def sm4SetKeyStep (s : Vector UInt32 4 × Vector UInt32 32) (i : Fin 32) :
    Vector UInt32 4 × Vector UInt32 32 :=
  let K := s.1
  let X := K.get (Fin.ofNat 4 (i + 1)) ^^^ K.get (Fin.ofNat 4 (i + 2))
    ^^^ K.get (Fin.ofNat 4 (i + 3)) ^^^ sm4CK.get i
  let t := ((sm4S.getD (X >>> 24).toUInt8.toNat 0).toUInt32 <<< 24)
    ||| ((sm4S.getD (X >>> 16).toUInt8.toNat 0).toUInt32 <<< 16)
    ||| ((sm4S.getD (X >>> 8).toUInt8.toNat 0).toUInt32 <<< 8)
    ||| (sm4S.getD X.toUInt8.toNat 0).toUInt32
  let k := K.get (Fin.ofNat 4 i) ^^^ (t ^^^ rotl t 13 ^^^ rotl t 23)
  (K.set (Fin.ofNat 4 i) k, s.2.set i k)

/-- `SM4_set_key`. -/
def sm4SetKey (key : List UInt8) : Sm4Key where
  rk := ((List.finRange 32).foldl sm4SetKeyStep
    (#v[loadU32Be key 0 ^^^ sm4FK.get 0, loadU32Be key 1 ^^^ sm4FK.get 1,
        loadU32Be key 2 ^^^ sm4FK.get 2, loadU32Be key 3 ^^^ sm4FK.get 3],
      Vector.replicate 32 0)).2

/-- `SM4_RNDS`: the four words `b0` to `b3` in place. -/
def sm4Rnds (ks : Sm4Key) (k0 k1 k2 k3 : Fin 32) (F : UInt32 → UInt32) (b : Quad UInt32) :
    Quad UInt32 :=
  let b0 := b.a ^^^ F (b.b ^^^ b.c ^^^ b.d ^^^ ks.rk.get k0)
  let b1 := b.b ^^^ F (b0 ^^^ b.c ^^^ b.d ^^^ ks.rk.get k1)
  let b2 := b.c ^^^ F (b0 ^^^ b1 ^^^ b.d ^^^ ks.rk.get k2)
  let b3 := b.d ^^^ F (b0 ^^^ b1 ^^^ b2 ^^^ ks.rk.get k3)
  ⟨b0, b1, b2, b3⟩

/-- The four words of a block. -/
def loadBlock (inb : List UInt8) : Quad UInt32 :=
  ⟨loadU32Be inb 0, loadU32Be inb 1, loadU32Be inb 2, loadU32Be inb 3⟩

/-- The four stores at the end, last word first. -/
def storeBlock (b : Quad UInt32) : List UInt8 :=
  be32 b.d ++ be32 b.c ++ be32 b.b ++ be32 b.a

/-- `SM4_encrypt`. -/
def sm4Encrypt (inb : List UInt8) (ks : Sm4Key) : List UInt8 :=
  let b := loadBlock inb
  let b := sm4Rnds ks 0 1 2 3 sm4TSlow b
  let b := sm4Rnds ks 4 5 6 7 sm4T b
  let b := sm4Rnds ks 8 9 10 11 sm4T b
  let b := sm4Rnds ks 12 13 14 15 sm4T b
  let b := sm4Rnds ks 16 17 18 19 sm4T b
  let b := sm4Rnds ks 20 21 22 23 sm4T b
  let b := sm4Rnds ks 24 25 26 27 sm4T b
  let b := sm4Rnds ks 28 29 30 31 sm4TSlow b
  storeBlock b

/-- `SM4_decrypt`. -/
def sm4Decrypt (inb : List UInt8) (ks : Sm4Key) : List UInt8 :=
  let b := loadBlock inb
  let b := sm4Rnds ks 31 30 29 28 sm4TSlow b
  let b := sm4Rnds ks 27 26 25 24 sm4T b
  let b := sm4Rnds ks 23 22 21 20 sm4T b
  let b := sm4Rnds ks 19 18 17 16 sm4T b
  let b := sm4Rnds ks 15 14 13 12 sm4T b
  let b := sm4Rnds ks 11 10 9 8 sm4T b
  let b := sm4Rnds ks 7 6 5 4 sm4T b
  let b := sm4Rnds ks 3 2 1 0 sm4TSlow b
  storeBlock b

/-- The key of `SM4Crypto.cpp`. -/
def sm4CryptoKey : List UInt8 :=
  [0x10, 0x32, 0x54, 0x76, 0x98, 0xab, 0xcd, 0x55, 0xfe, 0xcd, 0xbc, 0x89, 0x76, 0x54, 0x75, 0x46]

/-- `CRYPTO_UNIT_SIZE`. -/
def cryptoUnitSize : Nat := 16

/-- `CSM4Crypto`, an object with its key schedule. -/
structure CSM4Crypto where
  SK4 : Sm4Key

/-- `CSM4Crypto::CSM4Crypto`, and with it `GetInstance`. -/
def CSM4Crypto.getInstance : CSM4Crypto where
  SK4 := sm4SetKey sm4CryptoKey

/-- `CSM4Crypto::SM4EncryptBuffer`: what is in `Out` afterwards. A length that
    is not whole blocks is refused without a word. -/
def CSM4Crypto.sm4EncryptBuffer (c : CSM4Crypto) (In Out : List UInt8) (Len : Nat) : List UInt8 :=
  if Len % 16 ≠ 0 then Out
  else
    (List.range (Len / 16)).foldl
      (fun out i => poke out (16 * i) (sm4Encrypt (slice In (16 * i) 16) c.SK4)) Out

/-- `CSM4Crypto::SM4DecryptBuffer`. -/
def CSM4Crypto.sm4DecryptBuffer (c : CSM4Crypto) (In Out : List UInt8) (Len : Nat) : List UInt8 :=
  if Len % 16 ≠ 0 then Out
  else
    (List.range (Len / 16)).foldl
      (fun out i => poke out (16 * i) (sm4Decrypt (slice In (16 * i) 16) c.SK4)) Out

/-- `CSM4Crypto::EncryptSector`. -/
def CSM4Crypto.encryptSector (c : CSM4Crypto) (In Out : List UInt8) (UnitCount : Nat) :
    List UInt8 :=
  c.sm4EncryptBuffer In Out (UnitCount * cryptoUnitSize)

/-- `CSM4Crypto::DecryptSector`. -/
def CSM4Crypto.decryptSector (c : CSM4Crypto) (In Out : List UInt8) (UnitCount : Nat) :
    List UInt8 :=
  c.sm4DecryptBuffer In Out (UnitCount * cryptoUnitSize)

/-- The round function of the network, its key a form of the source's round
    function and a round key. -/
def sm4Mix (k : (UInt32 → UInt32) × UInt32) (x y z : UInt32) : UInt32 :=
  k.1 (x ^^^ y ^^^ z ^^^ k.2)

theorem sm4_reversible : Reversible (fun x y : UInt32 => x ^^^ y) sm4Mix where
  cancel := fun x y => by rw [UInt32.xor_assoc, UInt32.xor_self, UInt32.xor_zero]
  symm := fun k x y z => by
    have hswap : x ^^^ y ^^^ z = z ^^^ y ^^^ x := by
      rw [UInt32.xor_comm (x ^^^ y) z, UInt32.xor_comm x y, UInt32.xor_assoc]
    rw [sm4Mix, sm4Mix, hswap]

/-- A line of the source is four rounds: after four turns every word is in its
    place again. -/
theorem sm4Rnds_eq (ks : Sm4Key) (k0 k1 k2 k3 : Fin 32) (F : UInt32 → UInt32) (b : Quad UInt32) :
    sm4Rnds ks k0 k1 k2 k3 F b = rounds (fun x y => x ^^^ y) sm4Mix
      [(F, ks.rk.get k0), (F, ks.rk.get k1), (F, ks.rk.get k2), (F, ks.rk.get k3)] b := by
  have hturn : ∀ x y z k : UInt32, x ^^^ y ^^^ z ^^^ k = z ^^^ x ^^^ y ^^^ k := by
    intro x y z k
    rw [UInt32.xor_comm (x ^^^ y) z, UInt32.xor_assoc z x y]
  have hturn₂ : ∀ x y z k : UInt32, x ^^^ y ^^^ z ^^^ k = y ^^^ z ^^^ x ^^^ k := by
    intro x y z k
    rw [UInt32.xor_assoc x y z, UInt32.xor_comm x (y ^^^ z)]
  simp only [sm4Rnds, rounds, List.foldl_cons, List.foldl_nil, Feistel.round, sm4Mix]
  -- The second line reads its three words turned by one, the third by two.
  rw [hturn b.c b.d, hturn₂ b.d]

/-- The keys of encryption in order. -/
def sm4Keys (ks : Sm4Key) : List ((UInt32 → UInt32) × UInt32) :=
  [(sm4TSlow, ks.rk.get 0), (sm4TSlow, ks.rk.get 1), (sm4TSlow, ks.rk.get 2),
    (sm4TSlow, ks.rk.get 3)] ++
  ([4, 5, 6, 7, 8, 9, 10, 11, 12, 13, 14, 15, 16, 17, 18, 19, 20, 21, 22, 23, 24, 25, 26, 27].map
    (fun i : Fin 32 => (sm4T, ks.rk.get i))) ++
  [(sm4TSlow, ks.rk.get 28), (sm4TSlow, ks.rk.get 29), (sm4TSlow, ks.rk.get 30),
    (sm4TSlow, ks.rk.get 31)]

theorem sm4Encrypt_eq (inb : List UInt8) (ks : Sm4Key) :
    sm4Encrypt inb ks = storeBlock (rounds (fun x y => x ^^^ y) sm4Mix (sm4Keys ks)
      (loadBlock inb)) := by
  simp only [sm4Encrypt, sm4Rnds_eq, ← rounds_append]
  rfl

theorem sm4Decrypt_eq (inb : List UInt8) (ks : Sm4Key) :
    sm4Decrypt inb ks = storeBlock (rounds (fun x y => x ^^^ y) sm4Mix (sm4Keys ks).reverse
      (loadBlock inb)) := by
  simp only [sm4Decrypt, sm4Rnds_eq, ← rounds_append]
  rfl

theorem length_storeBlock (b : Quad UInt32) : (storeBlock b).length = 16 := rfl

/-- What was stored is read back backwards. -/
theorem loadBlock_storeBlock (b : Quad UInt32) : loadBlock (storeBlock b) = b.flip := by
  have h0 : loadU32Be (storeBlock b) 0 = b.d := by
    rw [loadU32Be, storeBlock, List.append_assoc, List.append_assoc]
    exact dwordBeAt_be32_append b.d _
  have h1 : loadU32Be (storeBlock b) 1 = b.c := by
    rw [loadU32Be, storeBlock, List.append_assoc, List.append_assoc]
    exact (dwordBeAt_append_right (be32 b.d) _ 0).trans (dwordBeAt_be32_append b.c _)
  have h2 : loadU32Be (storeBlock b) 2 = b.b := by
    rw [loadU32Be, storeBlock, List.append_assoc]
    exact (dwordBeAt_append_right (be32 b.d ++ be32 b.c) _ 0).trans (dwordBeAt_be32_append b.b _)
  have h3 : loadU32Be (storeBlock b) 3 = b.a := by
    rw [loadU32Be, storeBlock, ← List.append_nil (be32 b.a)]
    exact (dwordBeAt_append_right (be32 b.d ++ be32 b.c ++ be32 b.b) _ 0).trans
      (dwordBeAt_be32_append b.a _)
  rw [loadBlock, h0, h1, h2, h3]
  rfl

/-- A block that is read backwards and stored is the block. -/
theorem storeBlock_flip_loadBlock (inb : List UInt8) (h : inb.length = 16) :
    storeBlock (loadBlock inb).flip = inb := by
  have hword : ∀ n, 4 * n + 4 ≤ 16 → be32 (loadU32Be inb n) = slice inb (4 * n) 4 :=
    fun n hn => be32_dwordBeAt inb (4 * n) (by omega)
  simp only [storeBlock, Quad.flip, loadBlock]
  rw [hword 0 (by omega), hword 1 (by omega), hword 2 (by omega), hword 3 (by omega)]
  rw [← slice_add, ← slice_add, ← slice_add]
  exact slice_all inb 16 (by omega)

/-- Decryption undoes encryption, for every key schedule. -/
theorem sm4Decrypt_sm4Encrypt (inb : List UInt8) (ks : Sm4Key) (h : inb.length = 16) :
    sm4Decrypt (sm4Encrypt inb ks) ks = inb := by
  rw [sm4Decrypt_eq, sm4Encrypt_eq, loadBlock_storeBlock,
    rounds_flip_rounds _ _ sm4_reversible, storeBlock_flip_loadBlock inb h]

/-- Encryption undoes decryption, for every key schedule. -/
theorem sm4Encrypt_sm4Decrypt (inb : List UInt8) (ks : Sm4Key) (h : inb.length = 16) :
    sm4Encrypt (sm4Decrypt inb ks) ks = inb := by
  have hundo := rounds_flip_rounds _ _ sm4_reversible (sm4Keys ks).reverse (loadBlock inb)
  rw [List.reverse_reverse] at hundo
  rw [sm4Encrypt_eq, sm4Decrypt_eq, loadBlock_storeBlock, hundo, storeBlock_flip_loadBlock inb h]

theorem length_sm4Encrypt (inb : List UInt8) (ks : Sm4Key) : (sm4Encrypt inb ks).length = 16 :=
  length_storeBlock _

theorem length_sm4Decrypt (inb : List UInt8) (ks : Sm4Key) : (sm4Decrypt inb ks).length = 16 :=
  length_storeBlock _

/-- On whole blocks the encryption of a buffer goes block by block. -/
theorem encryptSector_eq (c : CSM4Crypto) (In Out : List UInt8) (n : Nat)
    (hout : Out.length = 16 * n) : c.encryptSector In Out n
      = (List.range n).flatMap (fun i => sm4Encrypt (slice In (16 * i) 16) c.SK4) := by
  have hlen : n * cryptoUnitSize % 16 = 0 := Nat.mul_mod_left n 16
  have hdiv : n * cryptoUnitSize / 16 = n := Nat.mul_div_cancel n (by decide)
  rw [CSM4Crypto.encryptSector, CSM4Crypto.sm4EncryptBuffer, if_neg (by rw [hlen]; decide), hdiv,
    foldl_poke_blocks 16 _ (fun i => length_sm4Encrypt _ _) Out n (by omega), ← hout,
    List.drop_length, List.append_nil]

/-- So does the decryption. -/
theorem decryptSector_eq (c : CSM4Crypto) (In Out : List UInt8) (n : Nat)
    (hout : Out.length = 16 * n) : c.decryptSector In Out n
      = (List.range n).flatMap (fun i => sm4Decrypt (slice In (16 * i) 16) c.SK4) := by
  have hlen : n * cryptoUnitSize % 16 = 0 := Nat.mul_mod_left n 16
  have hdiv : n * cryptoUnitSize / 16 = n := Nat.mul_div_cancel n (by decide)
  rw [CSM4Crypto.decryptSector, CSM4Crypto.sm4DecryptBuffer, if_neg (by rw [hlen]; decide), hdiv,
    foldl_poke_blocks 16 _ (fun i => length_sm4Decrypt _ _) Out n (by omega), ← hout,
    List.drop_length, List.append_nil]

theorem length_encryptSector (c : CSM4Crypto) (In Out : List UInt8) (n : Nat)
    (hout : Out.length = 16 * n) : (c.encryptSector In Out n).length = 16 * n := by
  rw [encryptSector_eq c In Out n hout]
  exact length_blocks 16 _ (fun i => length_sm4Encrypt _ _) n

theorem length_decryptSector (c : CSM4Crypto) (In Out : List UInt8) (n : Nat)
    (hout : Out.length = 16 * n) : (c.decryptSector In Out n).length = 16 * n := by
  rw [decryptSector_eq c In Out n hout]
  exact length_blocks 16 _ (fun i => length_sm4Decrypt _ _) n

/-- Decrypting a sector undoes its encryption. -/
theorem decryptSector_encryptSector (c : CSM4Crypto) (b Out Out' : List UInt8) (n : Nat)
    (hb : b.length = 16 * n) (hout : Out.length = 16 * n) (hout' : Out'.length = 16 * n) :
    c.decryptSector (c.encryptSector b Out n) Out' n = b := by
  have hblock : ∀ i ∈ List.range n,
      sm4Decrypt (slice (c.encryptSector b Out n) (16 * i) 16) c.SK4 = slice b (16 * i) 16 := by
    intro i hi
    rw [List.mem_range] at hi
    rw [encryptSector_eq c b Out n hout,
      slice_blocks 16 _ (fun i => length_sm4Encrypt _ _) n i hi]
    exact sm4Decrypt_sm4Encrypt _ _ (length_slice b _ _ (by omega))
  rw [decryptSector_eq c _ Out' n hout', List.flatMap_congr hblock, blocks_slice,
    List.take_of_length_le (by omega)]

/-- Encrypting a sector undoes its decryption. -/
theorem encryptSector_decryptSector (c : CSM4Crypto) (b Out Out' : List UInt8) (n : Nat)
    (hb : b.length = 16 * n) (hout : Out.length = 16 * n) (hout' : Out'.length = 16 * n) :
    c.encryptSector (c.decryptSector b Out n) Out' n = b := by
  have hblock : ∀ i ∈ List.range n,
      sm4Encrypt (slice (c.decryptSector b Out n) (16 * i) 16) c.SK4 = slice b (16 * i) 16 := by
    intro i hi
    rw [List.mem_range] at hi
    rw [decryptSector_eq c b Out n hout,
      slice_blocks 16 _ (fun i => length_sm4Decrypt _ _) n i hi]
    exact sm4Encrypt_sm4Decrypt _ _ (length_slice b _ _ (by omega))
  rw [encryptSector_eq c _ Out' n hout', List.flatMap_congr hblock, blocks_slice,
    List.take_of_length_le (by omega)]

end Crypto

end Defender
