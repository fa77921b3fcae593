import Defender.Lib.CString
import Defender.Lib.Utf

/-!
# The String Converters

Four functions of `StringHelper.cpp` convert between UTF-16 and UTF-8 with the calls of the
system, `WideCharToMultiByte` and `MultiByteToWideChar`. These are given C strings: they
convert the terminator as well and count it, and they fail when the output is too small.
What they do with a string that is not well formed, and what a call that fails leaves in the
output, is a parameter.

`UTF8ToUnicode` and `UnicodeToUTF8` make a C string in a buffer that is long enough, and
then a string object of it, which ends where the C string does. The other two have the call
write to the string object itself. `ConvertW2A` makes it as long as the call says, so that
the terminator becomes a character of it; `ConvertA2W` makes it shorter by one, so that the
call fails.

## Main definitions

* `CodePage`: What the calls do where they are free to.
* `wideCharToMultiByte`, `multiByteToWideChar`: The calls, with a length of -1.
* `convertW2A`, `convertA2W`, `utf8ToUnicode`, `unicodeToUTF8`: The converters.
* `ConvertersAgree`: They agree and are inverse to each other.

## Theorems

* `convertW2A_encode`, `convertA2W_encode`, `utf8ToUnicode_encode`, `unicodeToUTF8_encode`:
  What the converters give.
* `utf8ToUnicode_unicodeToUTF8`: One pair is inverse.
* `not_convertersAgree`: The other is not, and the pairs do not agree.
-/

namespace Defender

namespace Text

open CString Utf

/-! ### The calls -/

/-- A C string of UTF-16 units, up to its terminator. -/
def wcstr (mem : List UInt16) : List UInt16 :=
  mem.takeWhile (· ≠ 0)

/-- The text that is converted in place of what is not well formed, and what the output holds
    after a call that fails. -/
structure CodePage where
  repairWide : List UInt16 → List Char
  repairBytes : List UInt8 → List Char
  failedBytes : List UInt16 → List UInt8 → List UInt8
  failedWide : List UInt8 → List UInt16 → List UInt16

/-- A call that has its result: it gives the number of characters, and writes them if there is an
    output. -/
def convertTo {α : Type} (result out : List α) (size : Nat) (failed : List α) : Nat × List α :=
  if size = 0 then (result.length, out)
  else if size < result.length then (0, failed)
  else (result.length, result ++ out.drop result.length)

/-- `WideCharToMultiByte (CP_UTF8, 0, src, -1, out, size, ...)`. -/
def wideCharToMultiByte (cp : CodePage) (src : List UInt16) (out : List UInt8) (size : Nat) :
    Nat × List UInt8 :=
  convertTo (utf8Encode ((utf16Decode src).getD (cp.repairWide src)) ++ [0]) out size
    (cp.failedBytes src out)

/-- `MultiByteToWideChar (CP_UTF8, flags, src, -1, out, size)`, where the flags may have
    `MB_ERR_INVALID_CHARS`. -/
def multiByteToWideChar (cp : CodePage) (errInvalid : Bool) (src : List UInt8)
    (out : List UInt16) (size : Nat) : Nat × List UInt16 :=
  if errInvalid = true ∧ utf8Decode src = none then (0, cp.failedWide src out)
  else convertTo (utf16Encode ((utf8Decode src).getD (cp.repairBytes src)) ++ [0]) out size
    (cp.failedWide src out)

/-! ### The converters -/

/-- `CStrUtil::ConvertW2A`. -/
def convertW2A (cp : CodePage) (wstr : List UInt16) : List UInt8 :=
  let bufferSize := (wideCharToMultiByte cp (wcstr wstr) [] 0).1
  let result := List.replicate bufferSize 0
  (wideCharToMultiByte cp (wcstr wstr) result bufferSize).2

/-- `CStrUtil::ConvertA2W`. -/
def convertA2W (cp : CodePage) (str : List UInt8) : List UInt16 :=
  let bufferSize := (multiByteToWideChar cp false (cstr str) [] 0).1
  -- Without the terminator, in the string and in the call.
  let result := List.replicate (bufferSize - 1) 0
  (multiByteToWideChar cp false (cstr str) result (bufferSize - 1)).2

/-- `CStrUtil::UTF8ToUnicode`. -/
def utf8ToUnicode (cp : CodePage) (szAnsi : List UInt8) : List UInt16 :=
  let nLen := (multiByteToWideChar cp true (cstr szAnsi) [] 0).1
  let wszAnsi := List.replicate (nLen + 1) 0
  wcstr (multiByteToWideChar cp false (cstr szAnsi) wszAnsi (nLen + 1)).2

/-- `CStrUtil::UnicodeToUTF8`. -/
def unicodeToUTF8 (cp : CodePage) (str : List UInt16) : List UInt8 :=
  let nLen := (wideCharToMultiByte cp (wcstr str) [] 0).1
  let szUtf8 := List.replicate (nLen + 1) 0
  cstr (wideCharToMultiByte cp (wcstr str) szUtf8 (nLen + 1)).2

/-- The converters to UTF-8 agree, and those back are inverse to them. -/
structure ConvertersAgree (cp : CodePage) (w : List UInt16) : Prop where
  agree : convertW2A cp w = unicodeToUTF8 cp w
  convert : convertA2W cp (convertW2A cp w) = w
  unicode : utf8ToUnicode cp (unicodeToUTF8 cp w) = w

/-! ### What they give -/

variable (cp : CodePage)

theorem convertTo_size {α : Type} (result out failed : List α) :
    convertTo result out 0 failed = (result.length, out) :=
  if_pos rfl

/-- An output that is long enough. -/
theorem convertTo_fits {α : Type} {result out failed : List α} {size : Nat}
    (hsize : result.length ≤ size) (hpos : size ≠ 0) :
    convertTo result out size failed = (result.length, result ++ out.drop result.length) := by
  rw [convertTo, if_neg hpos, if_neg (Nat.not_lt.mpr hsize)]

theorem wideCharToMultiByte_encode (cs : List Char) (out : List UInt8) (size : Nat) :
    wideCharToMultiByte cp (utf16Encode cs) out size
      = convertTo (utf8Encode cs ++ [0]) out size (cp.failedBytes (utf16Encode cs) out) := by
  rw [wideCharToMultiByte, utf16Decode_encode, Option.getD_some]

theorem multiByteToWideChar_encode (errInvalid : Bool) (cs : List Char) (out : List UInt16)
    (size : Nat) : multiByteToWideChar cp errInvalid (utf8Encode cs) out size
      = convertTo (utf16Encode cs ++ [0]) out size (cp.failedWide (utf8Encode cs) out) := by
  have hvalid : ¬ (errInvalid = true ∧ utf8Decode (utf8Encode cs) = none) := by
    rw [utf8Decode_encode]
    exact fun h => absurd h.2 (by simp only [reduceCtorEq, not_false_eq_true])
  rw [multiByteToWideChar, if_neg hvalid, utf8Decode_encode, Option.getD_some]

/-- The first calls ask for the number of characters, the terminator being one. -/
theorem wideCharToMultiByte_count (cs : List Char) :
    (wideCharToMultiByte cp (utf16Encode cs) [] 0).1 = (utf8Encode cs ++ [0]).length := by
  rw [wideCharToMultiByte_encode, convertTo_size]

theorem multiByteToWideChar_count (errInvalid : Bool) (cs : List Char) :
    (multiByteToWideChar cp errInvalid (utf8Encode cs) [] 0).1
      = (utf16Encode cs ++ [0]).length := by
  rw [multiByteToWideChar_encode, convertTo_size]

/-- A C string ends at its terminator. -/
theorem wcstr_append_zero {s : List UInt16} (hs : 0 ∉ s) (rest : List UInt16) :
    wcstr (s ++ [0] ++ rest) = s :=
  takeWhile_terminated hs rest

theorem wcstr_of_not_mem {s : List UInt16} (hs : 0 ∉ s) : wcstr s = s :=
  takeWhile_of_not_mem hs

section

variable {cs : List Char} (hcs : '\x00' ∉ cs)
include hcs

/-- The terminator becomes a character of the string. -/
theorem convertW2A_encode : convertW2A cp (utf16Encode cs) = utf8Encode cs ++ [0] := by
  have hwide : wcstr (utf16Encode cs) = utf16Encode cs :=
    wcstr_of_not_mem (fun h => hcs ((zero_mem_utf16Encode cs).mp h))
  -- The count has the terminator, and so has the string.
  have hlen : (utf8Encode cs ++ [0]).length ≠ 0 := by
    rw [List.length_append, List.length_singleton]
    exact Nat.succ_ne_zero _
  unfold convertW2A
  dsimp only
  rw [hwide, wideCharToMultiByte_count, wideCharToMultiByte_encode,
    convertTo_fits (Nat.le_refl _) hlen]
  dsimp only
  rw [List.drop_replicate, Nat.sub_self, List.replicate_zero, List.append_nil]

theorem unicodeToUTF8_encode : unicodeToUTF8 cp (utf16Encode cs) = utf8Encode cs := by
  have hwide : wcstr (utf16Encode cs) = utf16Encode cs :=
    wcstr_of_not_mem (fun h => hcs ((zero_mem_utf16Encode cs).mp h))
  unfold unicodeToUTF8
  dsimp only
  rw [hwide, wideCharToMultiByte_count, wideCharToMultiByte_encode,
    convertTo_fits (Nat.le_succ _) (Nat.succ_ne_zero _)]
  exact cstr_append_zero (zero_mem_utf8Encode hcs) _

theorem utf8ToUnicode_encode : utf8ToUnicode cp (utf8Encode cs) = utf16Encode cs := by
  have hbytes : cstr (utf8Encode cs) = utf8Encode cs := cstr_of_not_mem (zero_mem_utf8Encode hcs)
  unfold utf8ToUnicode
  dsimp only
  rw [hbytes, multiByteToWideChar_count, multiByteToWideChar_encode,
    convertTo_fits (Nat.le_succ _) (Nat.succ_ne_zero _)]
  exact wcstr_append_zero (fun h => hcs ((zero_mem_utf16Encode cs).mp h)) _

/-- The call that is to write the string fails, unless there is nothing to write. -/
theorem convertA2W_encode (rest : List UInt8) :
    convertA2W cp (utf8Encode cs ++ [0] ++ rest) = if utf16Encode cs = [] then []
      else cp.failedWide (utf8Encode cs) (List.replicate (utf16Encode cs).length 0) := by
  have hbytes : cstr (utf8Encode cs ++ [0] ++ rest) = utf8Encode cs :=
    cstr_append_zero (zero_mem_utf8Encode hcs) rest
  have hlen : (utf16Encode cs ++ [0]).length - 1 = (utf16Encode cs).length := by
    rw [List.length_append, List.length_singleton, Nat.add_sub_cancel]
  unfold convertA2W
  dsimp only
  rw [hbytes, multiByteToWideChar_count, hlen, multiByteToWideChar_encode]
  by_cases hempty : utf16Encode cs = []
  · rw [if_pos hempty, hempty]
    rfl
  · have hpos : (utf16Encode cs).length ≠ 0 := fun h => hempty (List.length_eq_zero_iff.mp h)
    rw [if_neg hempty, convertTo, if_neg hpos, if_pos (by
      rw [List.length_append, List.length_singleton]
      exact Nat.lt_succ_self _)]

end

/-- `UTF8ToUnicode` undoes `UnicodeToUTF8`. -/
theorem utf8ToUnicode_unicodeToUTF8 {w : List UInt16} (hw : WellFormed w) (hzero : 0 ∉ w) :
    utf8ToUnicode cp (unicodeToUTF8 cp w) = w := by
  rcases hw with ⟨cs, rfl⟩
  have hcs : '\x00' ∉ cs := fun h => hzero ((zero_mem_utf16Encode cs).mpr h)
  rw [unicodeToUTF8_encode cp hcs, utf8ToUnicode_encode cp hcs]

/-- `ConvertW2A` gives one character more than `UnicodeToUTF8`, for every string. -/
theorem not_convertersAgree (w : List UInt16) (hw : WellFormed w) (hzero : 0 ∉ w) :
    ¬ ConvertersAgree cp w := by
  rcases hw with ⟨cs, rfl⟩
  have hcs : '\x00' ∉ cs := fun h => hzero ((zero_mem_utf16Encode cs).mpr h)
  intro h
  have hsame := h.agree
  rw [convertW2A_encode cp hcs, unicodeToUTF8_encode cp hcs] at hsame
  -- One has a character more than the other.
  have hlen := congrArg List.length hsame
  rw [List.length_append, List.length_singleton] at hlen
  omega

/-- Calls that put nothing in place of what is not well formed, and leave the output as it is when
    they fail. -/
def plainCodePage : CodePage where
  repairWide := fun _ => []
  repairBytes := fun _ => []
  failedBytes := fun _ out => out
  failedWide := fun _ out => out

/-- The letter `A` and a character in two surrogates. -/
theorem not_convertersAgree_pair : ¬ ConvertersAgree plainCodePage [0x41, 0xD834, 0xDD1E] :=
  not_convertersAgree plainCodePage [0x41, 0xD834, 0xDD1E]
    ⟨['A', Char.ofNat 0x1D11E], by decide⟩ (by decide)

/-- The letter `A` is converted to two bytes by the one, and to one byte by the other. -/
theorem not_convertersAgree_letter :
    convertW2A plainCodePage [0x41] = [0x41, 0] ∧ unicodeToUTF8 plainCodePage [0x41] = [0x41] ∧
      ¬ ConvertersAgree plainCodePage [0x41] := by
  have hletter : utf16Encode ['A'] = [0x41] := by decide
  have hconvert : convertW2A plainCodePage [0x41] = [0x41, 0] := by
    rw [← hletter, convertW2A_encode plainCodePage (by decide)]
    decide
  have hunicode : unicodeToUTF8 plainCodePage [0x41] = [0x41] := by
    rw [← hletter, unicodeToUTF8_encode plainCodePage (by decide)]
    decide
  refine ⟨hconvert, hunicode, fun h => ?_⟩
  have hsame := h.agree
  rw [hconvert, hunicode] at hsame
  exact absurd hsame (by decide)

end Text

end Defender
