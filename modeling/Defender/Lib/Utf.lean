import Mathlib.Algebra.Group.Nat.Defs
import Mathlib.Data.List.Basic

/-!
# Texts in UTF-8 and UTF-16

A text is a list of characters, none of which is a surrogate. In UTF-16 a character below
0x10000 is one unit, and any other is two surrogates, the high one first. What is well
formed is what encodes a text, and decoding what encodes a text gives the text.

Strings in C end at a zero, so it also matters where zeros are: the encodings of a text
have one only where the text has one.

## Main definitions

* `utf8Encode`, `utf8Decode`: UTF-8.
* `unitsOf`, `utf16Encode`, `utf16Decode`: UTF-16.
* `WellFormed`: The encodings in UTF-16.

## Theorems

* `utf8Decode_encode`, `utf16Decode_encode`: Decoding what was encoded.
* `zero_mem_utf8Encode`, `zero_mem_utf16Encode`: Where zeros are.
-/

namespace Utf

/-! ### UTF-8 -/

/-- The encoding of a text in UTF-8. -/
def utf8Encode (cs : List Char) : List UInt8 :=
  cs.flatMap String.utf8EncodeChar

/-- The text that is encoded, if there is one. -/
def utf8Decode (bytes : List UInt8) : Option (List Char) :=
  bytes.toByteArray.utf8Decode?.map Array.toList

theorem utf8Decode_encode (cs : List Char) : utf8Decode (utf8Encode cs) = some cs := by
  have h : (utf8Encode cs).toByteArray = cs.utf8Encode := rfl
  rw [utf8Decode, h, List.utf8Decode?_utf8Encode, Option.map_some]

theorem toNat_ne_zero {c : Char} (hc : c ≠ '\x00') : c.val.toNat ≠ 0 := by
  intro hzero
  exact hc (Char.ext (UInt32.toNat_inj.mp hzero))

/-- Only the zero character has a zero in its encoding. -/
theorem zero_mem_utf8EncodeChar {c : Char} (hc : c ≠ '\x00') :
    (0 : UInt8) ∉ String.utf8EncodeChar c := by
  have hval := toNat_ne_zero hc
  intro hmem
  -- Each byte that is not the character itself has its upper bits set.
  have hbyte : ∀ n : Nat, n % 256 ≠ 0 → (0 : UInt8) ≠ UInt8.ofNat n := by
    intro n hn hzero
    have hnat := congrArg UInt8.toNat hzero
    rw [UInt8.toNat_zero, UInt8.toNat_ofNat'] at hnat
    exact hn hnat.symm
  unfold String.utf8EncodeChar at hmem
  dsimp only at hmem
  split at hmem
  · rw [List.mem_singleton] at hmem
    exact hbyte _ (by omega) hmem
  · split at hmem
    · simp only [List.mem_cons, List.not_mem_nil, or_false] at hmem
      rcases hmem with h | h
      all_goals exact hbyte _ (by omega) h
    · split at hmem
      · simp only [List.mem_cons, List.not_mem_nil, or_false] at hmem
        rcases hmem with h | h | h
        all_goals exact hbyte _ (by omega) h
      · simp only [List.mem_cons, List.not_mem_nil, or_false] at hmem
        rcases hmem with h | h | h | h
        all_goals exact hbyte _ (by omega) h

theorem zero_mem_utf8Encode {cs : List Char} (h : '\x00' ∉ cs) : (0 : UInt8) ∉ utf8Encode cs := by
  intro hmem
  rcases List.mem_flatMap.mp hmem with ⟨c, hc, hzero⟩
  exact zero_mem_utf8EncodeChar (fun heq => h (heq ▸ hc)) hzero

/-! ### UTF-16 -/

/-- The units of a character. -/
def unitsOf (c : Char) : List UInt16 :=
  if c.val.toNat < 0x10000 then [UInt16.ofNat c.val.toNat]
  else [UInt16.ofNat (0xD800 + (c.val.toNat - 0x10000) / 0x400),
    UInt16.ofNat (0xDC00 + (c.val.toNat - 0x10000) % 0x400)]

/-- The encoding of a text in UTF-16. -/
def utf16Encode (cs : List Char) : List UInt16 :=
  cs.flatMap unitsOf

/-- The encodings of texts. -/
def WellFormed (w : List UInt16) : Prop :=
  ∃ cs, utf16Encode cs = w

/-- The text that is encoded, if there is one. `high` is a high surrogate that was read. -/
def utf16DecodeFrom : Option UInt16 → List UInt16 → Option (List Char)
  | none, [] => some []
  | some _, [] => none
  | none, u :: us =>
      if u.toNat < 0xD800 ∨ 0xE000 ≤ u.toNat then
        (utf16DecodeFrom none us).map (Char.ofNat u.toNat :: ·)
      else if u.toNat < 0xDC00 then utf16DecodeFrom (some u) us
      else none
  | some high, u :: us =>
      if 0xDC00 ≤ u.toNat ∧ u.toNat < 0xE000 then
        (utf16DecodeFrom none us).map
          (Char.ofNat (0x10000 + (high.toNat - 0xD800) * 0x400 + (u.toNat - 0xDC00)) :: ·)
      else none

def utf16Decode (w : List UInt16) : Option (List Char) :=
  utf16DecodeFrom none w

/-- A character is no surrogate, and has 21 bits. -/
theorem char_range (c : Char) :
    c.val.toNat < 0xD800 ∨ 0xE000 ≤ c.val.toNat ∧ c.val.toNat < 0x110000 := by
  have hvalid := c.valid
  unfold UInt32.isValidChar Nat.isValidChar at hvalid
  omega

/-- The units of a character decode to it. -/
theorem utf16DecodeFrom_unitsOf (c : Char) (us : List UInt16) :
    utf16DecodeFrom none (unitsOf c ++ us) = (utf16DecodeFrom none us).map (c :: ·) := by
  have hrange := char_range c
  have hchar : Char.ofNat c.val.toNat = c := Char.ofNat_toNat c
  unfold unitsOf
  by_cases hone : c.val.toNat < 0x10000
  · have hunit : (UInt16.ofNat c.val.toNat).toNat = c.val.toNat := by
      rw [UInt16.toNat_ofNat']
      exact Nat.mod_eq_of_lt hone
    rw [if_pos hone, List.singleton_append, utf16DecodeFrom, hunit, if_pos (by omega), hchar]
  · have hhigh : (UInt16.ofNat (0xD800 + (c.val.toNat - 0x10000) / 0x400)).toNat
        = 0xD800 + (c.val.toNat - 0x10000) / 0x400 := by
      rw [UInt16.toNat_ofNat']
      exact Nat.mod_eq_of_lt (by omega)
    have hlow : (UInt16.ofNat (0xDC00 + (c.val.toNat - 0x10000) % 0x400)).toNat
        = 0xDC00 + (c.val.toNat - 0x10000) % 0x400 := by
      rw [UInt16.toNat_ofNat']
      exact Nat.mod_eq_of_lt (by omega)
    -- Quotient and remainder make the number again.
    have hsum : 0x10000 + (0xD800 + (c.val.toNat - 0x10000) / 0x400 - 0xD800) * 0x400 +
        (0xDC00 + (c.val.toNat - 0x10000) % 0x400 - 0xDC00) = c.val.toNat := by
      omega
    rw [if_neg hone, List.cons_append, List.singleton_append, utf16DecodeFrom, hhigh,
      if_neg (by omega), if_pos (by omega), utf16DecodeFrom, hlow, if_pos (by omega), hhigh, hsum,
      hchar]

theorem utf16Decode_encode (cs : List Char) : utf16Decode (utf16Encode cs) = some cs := by
  unfold utf16Decode
  induction cs with
  | nil => rfl
  | cons c cs ih =>
      have hcons : utf16Encode (c :: cs) = unitsOf c ++ utf16Encode cs := List.flatMap_cons
      rw [hcons, utf16DecodeFrom_unitsOf, ih, Option.map_some]

/-- Only the zero character has a zero unit. -/
theorem zero_mem_unitsOf {c : Char} : (0 : UInt16) ∈ unitsOf c ↔ c = '\x00' := by
  have hrange := char_range c
  have hunit : ∀ n : Nat, n < 0x10000 → ((0 : UInt16) = UInt16.ofNat n ↔ n = 0) := by
    intro n hn
    rw [← UInt16.toNat_inj, UInt16.toNat_ofNat', Nat.mod_eq_of_lt hn, UInt16.toNat_zero]
    exact eq_comm
  unfold unitsOf
  by_cases hone : c.val.toNat < 0x10000
  · rw [if_pos hone, List.mem_singleton, hunit _ hone]
    constructor
    · intro hzero
      by_contra hc
      exact toNat_ne_zero hc hzero
    · rintro rfl
      rfl
  · rw [if_neg hone, List.mem_cons, List.mem_singleton, hunit _ (by omega), hunit _ (by omega)]
    refine iff_of_false (by omega) (fun hc => ?_)
    rw [hc] at hone
    exact hone (by decide)

theorem zero_mem_utf16Encode (cs : List Char) : (0 : UInt16) ∈ utf16Encode cs ↔ '\x00' ∈ cs := by
  unfold utf16Encode
  rw [List.mem_flatMap]
  simp only [zero_mem_unitsOf]
  constructor
  · rintro ⟨c, hc, rfl⟩
    exact hc
  · exact fun h => ⟨_, h, rfl⟩

end Utf
