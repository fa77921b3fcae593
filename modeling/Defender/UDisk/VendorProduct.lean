import Mathlib.Data.Nat.Digits.Defs
import Mathlib.Algebra.Group.Nat.Defs
import Defender.Lib.Search

/-!
# The Vendor and the Product of a USB Device

`ParseUsbVendorProductIdFromUsbParentId` gets the instance id of the hub's
device, such as `USB\VID_1058&PID_2623\57584E324537303541463932` or, with the
driver of Windows 11, `USB\VID1058&PID2623\57584E324537303541463932`. It makes
all letters capital, takes the underscores out, and looks from the right for
`VID` and for `PID`. The four characters behind the place go to `strtoul`.

The ids are in the fields, but the search begins at the end of the serial. `V`
and `P` are not hexadecimal digits, so the place that is found is the field's or
one in what follows the two fields (`readId_vendor`, `readId_product`). Hence the
ids are right exactly when what follows has no such place, or reads the same
there (`parseUsbVendorProductId_iff`); a serial with `DAVID` in it is another
vendor (`parseUsbVendorProductId_david`).

## Main definitions

* `strtoul`: The conversion, for base 16.
* `parseUsbVendorProductIdFromUsbParentId`: The function of the source.
* `HexWord`, `InstanceId`: The instance ids of USB devices.
* `ReadsSame`: What follows the fields does not change an id.

## Theorems

* `strtoul_word`: Four digits are read as their value.
* `readId_vendor`, `readId_product`: The place at which an id is read.
* `parseUsbVendorProductId_iff`: When the ids are those of the fields.
* `readsSame_iff`: The condition, told by the parts of the text.
* `parseUsbVendorProductId_david`: When they are not.
-/

namespace Defender

namespace UDisk

namespace VendorProduct

open Search

/-! ### The function -/

/-- `isspace` in the C locale. -/
def isspace (c : Char) : Bool :=
  c = ' ' || (9 ≤ c.toNat && c.toNat ≤ 13)

/-- The value of a hexadecimal digit. -/
def hexDigit (c : Char) : Option Nat :=
  if '0'.toNat ≤ c.toNat ∧ c.toNat ≤ '9'.toNat then
    some (c.toNat - '0'.toNat)
  else if 'A'.toNat ≤ c.toNat ∧ c.toNat ≤ 'F'.toNat then
    some (c.toNat - 'A'.toNat + 10)
  else if 'a'.toNat ≤ c.toNat ∧ c.toNat ≤ 'f'.toNat then
    some (c.toNat - 'a'.toNat + 10)
  else
    none

/-- The digits at the beginning of a text, behind those that make up `n`. -/
def readDigits (n : Nat) : List Char → Nat
  | [] => n
  | c :: s =>
      match hexDigit c with
      | some d => readDigits (16 * n + d) s
      | none => n

/-- `strtoul (s, NULL, 16)`. -/
def strtoul (s : List Char) : UInt32 :=
  let s := s.dropWhile isspace
  let negative := s.head? = some '-'
  let s := if s.head? = some '-' ∨ s.head? = some '+' then s.tail else s
  let s := if s.take 2 = ['0', 'x'] ∨ s.take 2 = ['0', 'X'] then s.drop 2 else s
  let n := readDigits 0 s
  if 2 ^ 32 ≤ n then
    0xFFFFFFFF
  else if negative then
    -UInt32.ofNat n
  else
    UInt32.ofNat n

def strVIDKey : List Char := ['V', 'I', 'D']

def strPIDKey : List Char := ['P', 'I', 'D']

/-- The text in capital letters, without underscores. -/
def normalised (UsbDeviceId : List Char) : List Char :=
  (UsbDeviceId.map Char.toUpper).filter (· ≠ '_')

/-- One of the two searches: the id behind the last place of the key, or the id
    that was there before. -/
def readId (key UsbDeviceId : List Char) (id : UInt32) : UInt32 :=
  match rfind key UsbDeviceId with
  | none => id
  | some found =>
      let wstrRet := (UsbDeviceId.drop (found + key.length)).take 4
      if 0 < wstrRet.length then strtoul wstrRet else id

/-- `CWLUDisk::ParseUsbVendorProductIdFromUsbParentId`: the two ids as the call
    leaves them. The characters are ASCII, so `ConvertW2A` keeps them. -/
def parseUsbVendorProductIdFromUsbParentId (UsbDeviceId : List Char)
    (ulVendorId ulProductId : UInt32) : UInt32 × UInt32 :=
  let UsbDeviceId := normalised UsbDeviceId
  (readId strVIDKey UsbDeviceId ulVendorId, readId strPIDKey UsbDeviceId ulProductId)

/-! ### Instance ids -/

/-- The hexadecimal digits, in both cases. -/
def hexDigits : List Char :=
  "0123456789ABCDEFabcdef".toList

/-- Four hexadecimal digits. -/
structure HexWord where
  digits : List Char
  four : digits.length = 4
  hex : ∀ c ∈ digits, c ∈ hexDigits

/-- The number that the digits are. -/
def HexWord.value (w : HexWord) : UInt32 :=
  UInt32.ofNat (Nat.ofDigits 16 (w.digits.reverse.map (fun c => (hexDigit c).getD 0)))

/-- The characters that Windows allows in an instance id, but for the separator. -/
def Allowed (c : Char) : Prop :=
  0x20 < c.toNat ∧ c.toNat < 0x80 ∧ c ≠ ',' ∧ c ≠ '\\'

instance (c : Char) : Decidable (Allowed c) :=
  inferInstanceAs (Decidable (_ ∧ _))

/-- `USB\VID_vvvv&PID_pppp[&further fields]\serial`, each underscore there or not. -/
structure InstanceId where
  vendorUnderscore : Bool
  vendor : HexWord
  productUnderscore : Bool
  product : HexWord
  fields : List (List Char)
  serial : List Char
  fields_allowed : ∀ f ∈ fields, ∀ c ∈ f, Allowed c
  fields_free : ∀ f ∈ fields,
    ¬ strVIDKey <:+: f.map Char.toUpper ∧ ¬ strPIDKey <:+: f.map Char.toUpper
  serial_allowed : ∀ c ∈ serial, Allowed c

namespace InstanceId

/-- What each of them begins with. -/
def strUSB : List Char := ['U', 'S', 'B', '\\']

/-- What follows the two fields. -/
def rest (id : InstanceId) : List Char :=
  id.fields.flatMap (fun f => '&' :: f) ++ '\\' :: id.serial

/-- The instance id as the function gets it. -/
def text (id : InstanceId) : List Char :=
  strUSB ++ strVIDKey ++ (if id.vendorUnderscore then ['_'] else []) ++ id.vendor.digits ++
    ['&'] ++ strPIDKey ++ (if id.productUnderscore then ['_'] else []) ++ id.product.digits ++
    id.rest

end InstanceId

/-- What follows the fields does not change an id: the key is not in it, or what stands
    behind the last one is read as the same number. -/
def ReadsSame (key rest : List Char) (value id : UInt32) : Prop :=
  ∀ after, behind key (normalised rest) = some after →
    (after ≠ [] ∧ strtoul (after.take 4) = value) ∨ (after = [] ∧ id = value)

/-! ### Four digits -/

/-- The digits are tried one by one, and not all characters. -/
theorem forall_mem_of_all {s : List Char} {p : Char → Prop} [DecidablePred p]
    (h : s.all (fun c => decide (p c)) = true) : ∀ c ∈ s, p c :=
  fun c hc => of_decide_eq_true (List.all_eq_true.mp h c hc)

theorem hexDigit_isSome : ∀ c ∈ hexDigits, (hexDigit c).isSome :=
  forall_mem_of_all (by decide)

/-- A capital digit has the same value. -/
theorem hexDigit_toUpper : ∀ c ∈ hexDigits, hexDigit c.toUpper = hexDigit c :=
  forall_mem_of_all (by decide)

theorem toUpper_mem_hexDigits : ∀ c ∈ hexDigits, c.toUpper ∈ hexDigits :=
  forall_mem_of_all (by decide)

theorem isspace_eq_false : ∀ c ∈ hexDigits, isspace c = false :=
  forall_mem_of_all (by decide)

/-- No digit is one of the characters that mean something else. -/
theorem ne_of_mem_hexDigits {d : Char} (hd : d ∉ hexDigits) {c : Char} (hc : c ∈ hexDigits) :
    c ≠ d :=
  fun h => hd (h ▸ hc)

theorem hexDigit_lt : ∀ c ∈ hexDigits, (hexDigit c).getD 0 < 16 :=
  forall_mem_of_all (by decide)

/-- Digits only are read to their end. -/
theorem readDigits_eq (s : List Char) (hs : ∀ c ∈ s, c ∈ hexDigits) (n : Nat) :
    readDigits n s
      = n * 16 ^ s.length
        + Nat.ofDigits 16 (s.reverse.map (fun c => (hexDigit c).getD 0)) := by
  induction s generalizing n with
  | nil => simp only [readDigits, List.length_nil, Nat.pow_zero, Nat.mul_one, List.reverse_nil,
      List.map_nil, Nat.ofDigits_nil, Nat.add_zero]
  | cons c s ih =>
      rcases Option.isSome_iff_exists.mp (hexDigit_isSome c (hs c List.mem_cons_self))
        with ⟨d, hd⟩
      have hrest := ih (fun c' hc' => hs c' (List.mem_cons_of_mem c hc')) (16 * n + d)
      simp only [readDigits, hd, hrest, List.reverse_cons, List.map_append, List.map_cons,
        List.map_nil, Nat.ofDigits_append, Nat.ofDigits_singleton, List.length_map,
        List.length_reverse, Option.getD_some, List.length_cons]
      ring

/-- A text of digits has no space, no sign and no `0x` before it. -/
theorem strtoul_of_hex (s : List Char) (hs : ∀ c ∈ s, c ∈ hexDigits)
    (hsmall : readDigits 0 s < 2 ^ 32) : strtoul s = UInt32.ofNat (readDigits 0 s) := by
  have hspace : s.dropWhile isspace = s := by
    cases s with
    | nil => rfl
    | cons c s =>
        rw [List.dropWhile_cons, isspace_eq_false c (hs c List.mem_cons_self),
          if_neg Bool.false_ne_true]
  have hhead : ∀ d, d ∉ hexDigits → s.head? ≠ some d :=
    fun d hd h => hd (hs d (List.mem_of_mem_head? h))
  have htake : ∀ d, d ∉ hexDigits → s.take 2 ≠ ['0', d] := by
    intro d hd h
    have hmem : d ∈ s.take 2 := by
      rw [h]
      exact List.mem_cons_of_mem _ List.mem_cons_self
    exact hd (hs d (List.mem_of_mem_take hmem))
  simp only [strtoul, hspace, hhead '-' (by decide), hhead '+' (by decide), or_self, if_false,
    htake 'x' (by decide), htake 'X' (by decide)]
  rw [if_neg (by omega)]

/-- Four digits are read as their value. -/
theorem strtoul_word (w : HexWord) : strtoul (w.digits.map Char.toUpper) = w.value := by
  have hupper : ∀ c ∈ w.digits.map Char.toUpper, c ∈ hexDigits := by
    intro c hc
    rcases List.mem_map.mp hc with ⟨c', hc', rfl⟩
    exact toUpper_mem_hexDigits c' (w.hex c' hc')
  have hvalue : (w.digits.map Char.toUpper).reverse.map (fun c => (hexDigit c).getD 0)
      = w.digits.reverse.map (fun c => (hexDigit c).getD 0) := by
    rw [← List.map_reverse, List.map_map]
    refine List.map_congr_left (fun c hc => ?_)
    rw [Function.comp_apply, hexDigit_toUpper c (w.hex c (List.mem_reverse.mp hc))]
  have hread := readDigits_eq (w.digits.map Char.toUpper) hupper 0
  rw [Nat.zero_mul, Nat.zero_add, hvalue] at hread
  have hsmall : Nat.ofDigits 16 (w.digits.reverse.map (fun c => (hexDigit c).getD 0)) < 2 ^ 32 := by
    have hlt := Nat.ofDigits_lt_base_pow_length (by decide : 1 < 16)
      (l := w.digits.reverse.map (fun c => (hexDigit c).getD 0)) (fun x hx => by
        rcases List.mem_map.mp hx with ⟨c, hc, rfl⟩
        exact hexDigit_lt c (w.hex c (List.mem_reverse.mp hc)))
    rw [List.length_map, List.length_reverse, w.four] at hlt
    omega
  rw [strtoul_of_hex _ hupper (by rw [hread]; exact hsmall), hread]
  rfl

/-! ### Where the ids are read -/

theorem normalised_append (a b : List Char) :
    normalised (a ++ b) = normalised a ++ normalised b := by
  rw [normalised, List.map_append, List.filter_append]
  rfl

/-- The optional underscore is taken out. -/
theorem normalised_underscore (u : Bool) : normalised (if u then ['_'] else []) = [] := by
  cases u with
  | false => rfl
  | true => decide

theorem normalised_word (w : HexWord) :
    normalised w.digits = w.digits.map Char.toUpper := by
  rw [normalised, List.filter_eq_self]
  intro c hc
  rcases List.mem_map.mp hc with ⟨c', hc', rfl⟩
  have hne : c'.toUpper ≠ '_' :=
    ne_of_mem_hexDigits (by decide) (toUpper_mem_hexDigits c' (w.hex c' hc'))
  exact decide_eq_true hne

/-- A letter that is no digit is not in a word. -/
theorem not_mem_word {d : Char} (hd : d ∉ hexDigits) (w : HexWord) :
    d ∉ w.digits.map Char.toUpper := by
  intro h
  rcases List.mem_map.mp h with ⟨c, hc, hcd⟩
  exact hd (hcd ▸ toUpper_mem_hexDigits c (w.hex c hc))

/-- The instance id as it is searched. -/
theorem normalised_text (id : InstanceId) :
    normalised id.text
      = InstanceId.strUSB ++ (strVIDKey ++ (id.vendor.digits.map Char.toUpper ++
          (['&'] ++ (strPIDKey ++ (id.product.digits.map Char.toUpper ++
            normalised id.rest))))) := by
  have husb : normalised InstanceId.strUSB = InstanceId.strUSB := by decide
  have hvid : normalised strVIDKey = strVIDKey := by decide
  have hand : normalised ['&'] = ['&'] := by decide
  have hpid : normalised strPIDKey = strPIDKey := by decide
  simp only [InstanceId.text, normalised_append, normalised_underscore, normalised_word, husb,
    hvid, hand, hpid, List.append_assoc, List.nil_append]

/-- The id read behind a place, `id` where the text ends there, and `value` without a place. -/
def readBehind (value id : UInt32) : Option (List Char) → UInt32
  | none => value
  | some [] => id
  | some (c :: after) => strtoul ((c :: after).take 4)

/-- The search in terms of what it finds. -/
theorem readId_eq (key s : List Char) (id : UInt32) :
    readId key s id = readBehind id id (behind key s) := by
  unfold readId behind
  cases rfind key s with
  | none => rfl
  | some found =>
      simp only [Option.map_some]
      cases s.drop (found + key.length) with
      | nil => rfl
      | cons c after =>
          rw [if_pos (by rw [List.take_succ_cons, List.length_cons]; omega)]
          rfl

/-- A search that comes to a word first: the rest decides. -/
theorem readId_word (k : Char) (key front : List Char) (w : HexWord) (tail rest : List Char)
    (id : UInt32) (hfront : k ∉ front) (hkey : k ∉ key) (hk : k ∉ hexDigits)
    (htail : behind (k :: key) (tail ++ rest) = behind (k :: key) rest) :
    readId (k :: key) (front ++ ((k :: key) ++ (w.digits.map Char.toUpper ++ (tail ++ rest)))) id
      = readBehind w.value id (behind (k :: key) rest) := by
  rw [readId_eq, behind_append_of_head_not_mem hfront, behind_key_append hkey,
    behind_append_of_head_not_mem (not_mem_word hk w), htail]
  cases behind (k :: key) rest with
  | some after => cases after with
    | nil => rfl
    | cons c after => rfl
  | none =>
      have hlength : (w.digits.map Char.toUpper).length = 4 := by rw [List.length_map, w.four]
      have htake : (w.digits.map Char.toUpper ++ (tail ++ rest)).take 4
          = w.digits.map Char.toUpper := by
        rw [← hlength, List.take_left]
      have hread : strtoul ((w.digits.map Char.toUpper ++ (tail ++ rest)).take 4) = w.value := by
        rw [htake, strtoul_word]
      rw [Option.getD_none, readBehind, ← hread]
      cases hword : w.digits.map Char.toUpper ++ (tail ++ rest) with
      | nil =>
          rw [(List.append_eq_nil_iff.mp hword).1, List.length_nil] at hlength
          exact absurd hlength (by decide)
      | cons c after => rfl

theorem readId_vendor (id : InstanceId) (ulVendorId : UInt32) :
    readId strVIDKey (normalised id.text) ulVendorId
      = readBehind id.vendor.value ulVendorId (behind strVIDKey (normalised id.rest)) := by
  have htail : behind strVIDKey (['&'] ++ strPIDKey ++ id.product.digits.map Char.toUpper ++
      normalised id.rest) = behind strVIDKey (normalised id.rest) := by
    refine behind_append_of_head_not_mem (fun h => ?_) _
    rcases List.mem_append.mp h with h | h
    · exact absurd h (by decide)
    · exact not_mem_word (by decide) id.product h
  have hread := readId_word 'V' ['I', 'D'] InstanceId.strUSB id.vendor _ _ ulVendorId
    (by decide) (by decide) (by decide) htail
  rw [normalised_text, strVIDKey, ← hread]
  simp only [List.append_assoc]

theorem readId_product (id : InstanceId) (ulProductId : UInt32) :
    readId strPIDKey (normalised id.text) ulProductId
      = readBehind id.product.value ulProductId (behind strPIDKey (normalised id.rest)) := by
  have hfront : 'P' ∉ InstanceId.strUSB ++ strVIDKey ++ id.vendor.digits.map Char.toUpper ++
      ['&'] := by
    intro h
    rcases List.mem_append.mp h with h | h
    · rcases List.mem_append.mp h with h | h
      · exact absurd h (by decide)
      · exact not_mem_word (by decide) id.vendor h
    · exact absurd h (by decide)
  have hread := readId_word 'P' ['I', 'D'] _ id.product [] (normalised id.rest) ulProductId
    hfront (by decide) (by decide) (by rw [List.nil_append])
  rw [normalised_text, strPIDKey, ← hread]
  simp only [List.append_assoc, List.nil_append]

/-- An id is right exactly when what follows reads the same. -/
theorem readBehind_eq_iff (key rest : List Char) (value id : UInt32) :
    readBehind value id (behind key (normalised rest)) = value ↔ ReadsSame key rest value id := by
  unfold ReadsSame
  cases behind key (normalised rest) with
  | none =>
      refine iff_of_true rfl (fun after h => ?_)
      exact absurd h (by simp only [reduceCtorEq, not_false_eq_true])
  | some after =>
      simp only [Option.some.injEq, forall_eq']
      cases after with
      | nil => simp only [readBehind, ne_eq, not_true_eq_false, false_and, true_and, false_or]
      | cons c after =>
          simp only [readBehind, ne_eq, reduceCtorEq, not_false_eq_true, true_and, false_and,
            or_false]

/-- The same, told by the parts of what follows: the key for the last time, and what is
    behind it. -/
theorem readsSame_iff (k : Char) (key rest : List Char) (value id : UInt32) :
    ReadsSame (k :: key) rest value id ↔
      ∀ before after, normalised rest = before ++ (k :: key) ++ after →
        ¬ (k :: key) <:+: key ++ after →
          (after ≠ [] ∧ strtoul (after.take 4) = value) ∨ (after = [] ∧ id = value) := by
  unfold ReadsSame
  constructor
  · intro h before after hparts hlast
    exact h after (behind_eq_some_iff.mpr ⟨before, hparts, hlast⟩)
  · intro h after hbehind
    rcases behind_eq_some_iff.mp hbehind with ⟨before, hparts, hlast⟩
    exact h before after hparts hlast

/-- The ids are those of the fields exactly when what follows them reads the same. -/
theorem parseUsbVendorProductId_iff (id : InstanceId) (ulVendorId ulProductId : UInt32) :
    parseUsbVendorProductIdFromUsbParentId id.text ulVendorId ulProductId
        = (id.vendor.value, id.product.value)
      ↔ ReadsSame strVIDKey id.rest id.vendor.value ulVendorId ∧
        ReadsSame strPIDKey id.rest id.product.value ulProductId := by
  rw [← readBehind_eq_iff, ← readBehind_eq_iff, ← readId_vendor, ← readId_product]
  exact Prod.mk.injEq _ _ _ _ ▸ Iff.rfl

/-- A serial in which neither key can be read leaves the ids alone. -/
theorem parseUsbVendorProductId_of_free (id : InstanceId) (ulVendorId ulProductId : UInt32)
    (hv : 'V' ∉ normalised id.rest) (hp : 'P' ∉ normalised id.rest) :
    parseUsbVendorProductIdFromUsbParentId id.text ulVendorId ulProductId
      = (id.vendor.value, id.product.value) := by
  have hfree : ∀ (k : Char) (key : List Char), k ∉ normalised id.rest →
      behind (k :: key) (normalised id.rest) = none := by
    intro k key hk
    rw [behind_eq_none_iff (List.cons_ne_nil k key)]
    exact fun h => hk (h.subset List.mem_cons_self)
  rw [parseUsbVendorProductId_iff]
  constructor
  · intro after h
    rw [strVIDKey, hfree 'V' _ hv] at h
    exact absurd h (by simp only [reduceCtorEq, not_false_eq_true])
  · intro after h
    rw [strPIDKey, hfree 'P' _ hp] at h
    exact absurd h (by simp only [reduceCtorEq, not_false_eq_true])

/-! ### A serial with a key in it -/

/-- `USB\VID_1058&PID_2623\DAVID123`. -/
def davidId : InstanceId where
  vendorUnderscore := true
  vendor := ⟨['1', '0', '5', '8'], rfl, forall_mem_of_all (by decide)⟩
  productUnderscore := true
  product := ⟨['2', '6', '2', '3'], rfl, forall_mem_of_all (by decide)⟩
  fields := []
  serial := "DAVID123".toList
  fields_allowed := fun f hf => absurd hf List.not_mem_nil
  fields_free := fun f hf => absurd hf List.not_mem_nil
  serial_allowed := forall_mem_of_all (by decide)

/-- The vendor is `123`, which is in the serial. -/
theorem parseUsbVendorProductId_david :
    parseUsbVendorProductIdFromUsbParentId davidId.text 0 0 = (0x123, 0x2623) ∧
      ¬ ∀ (id : InstanceId) (ulVendorId ulProductId : UInt32),
        parseUsbVendorProductIdFromUsbParentId id.text ulVendorId ulProductId
          = (id.vendor.value, id.product.value) := by
  have hread : parseUsbVendorProductIdFromUsbParentId davidId.text 0 0 = (0x123, 0x2623) := by
    decide
  refine ⟨hread, fun h => ?_⟩
  have hsame := h davidId 0 0
  rw [hread] at hsame
  exact absurd hsame (by decide)

end VendorProduct

end UDisk

end Defender
