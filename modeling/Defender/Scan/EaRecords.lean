import Defender.Lib.Reads

/-!
# Records of Extended Attributes

`WriteFileExAttr` and `DeleteEa` fill a `FILE_FULL_EA_INFORMATION` and pass it to
`NtSetEaFile`. The record has the length of the name in a byte and that of the value in
two, and the name, a terminator, and the value behind them. A name is given here by the
characters in front of its own terminator. The size of the memory comes
from the lengths as they are, before they are cut to the size of the fields; the place of
the value comes from the length of the name as it is after that.

The writer copies with `strcpy`, so of a value with a zero in it only the front is copied,
and what follows in the record is what the memory held before. `DeleteEa` copies with
`strcpy_s`, and gives it the length of the name for the size of the destination. There is
no room for the terminator then, and the call ends the process, whatever the name.

## Main definitions

* `eaNameOffset`, `eaStructSize`: Sizes of `FILE_FULL_EA_INFORMATION`.
* `eaAlloc`, `eaHeader`: What both do first.
* `eaToWrite`, `writeFileExAttr`, `deleteEa`: The two functions, up to what is passed on.
* `decodeEa`: The name and the value of a record, as `ReadFileExAttr` takes them.
* `EaRecords`: What is passed on decodes to what was meant.
* `FitsRecord`: The names and the values that fit.
* `eaWritten`: The record of what fits.

## Theorems

* `eaToWrite_eq`, `decodeEa_written`: The record that is written, and what it decodes to.
* `writes_iff`: When the record is right.
* `deleteEa_terminated`: No record is ever passed on for a deletion.
* `eaRecords_iff`: When both are right.
-/

namespace Defender

namespace Scan

open Wire CString Reads

/-! ### The functions -/

/-- The offset of `EaName` in `FILE_FULL_EA_INFORMATION`. -/
def eaNameOffset : Nat := 8

/-- `sizeof(FILE_FULL_EA_INFORMATION)`, with the array of one character and the padding. -/
def eaStructSize : Nat := 12

/-- `malloc(eaSize)`, which gives what the heap holds. The pointer is not checked. -/
def eaAlloc (mallocOk : Bool) (heap : Nat → UInt8) (eaSize : Nat) : Except Fault (List UInt8) :=
  if mallocOk = true then .ok ((List.range eaSize).map heap) else .error .overrun

/-- The four fields in front of the name. -/
def eaHeader (eaInfo : List UInt8) (EaNameLength : UInt8) (EaValueLength : UInt16) :
    Except Fault (List UInt8) := do
  let eaInfo ← writeBytes eaInfo 0 (le32 0)
  let eaInfo ← writeBytes eaInfo 4 [0]
  let eaInfo ← writeBytes eaInfo 5 [EaNameLength]
  writeBytes eaInfo 6 (le16 EaValueLength)

/-- The record that `WriteFileExAttr` fills for a file that it has opened. -/
def eaToWrite (mallocOk : Bool) (heap : Nat → UInt8) (xattrName strAttrValue : List UInt8) :
    Except Fault (List UInt8) := do
  -- A `DWORD`.
  let eaSize := (eaStructSize + xattrName.length + strAttrValue.length + 2) % 2 ^ 32
  let eaInfo ← eaAlloc mallocOk heap eaSize
  let EaNameLength := UInt8.ofNat xattrName.length
  let eaInfo ← eaHeader eaInfo EaNameLength (UInt16.ofNat strAttrValue.length)
  -- Two calls of `strcpy`, which copy up to the first zero.
  let eaInfo ← writeBytes eaInfo eaNameOffset (xattrName ++ [0])
  writeBytes eaInfo (eaNameOffset + EaNameLength.toNat + 1) (cstr strAttrValue ++ [0])

/-- `WriteFileExAttr`: what is passed to `NtSetEaFile`, or nothing when FALSE is returned
    because the file can not be opened. -/
def writeFileExAttr (opens mallocOk : Bool) (heap : Nat → UInt8)
    (xattrName strAttrValue : List UInt8) : Except Fault (Option (List UInt8)) :=
  if opens = false then .ok none
  else (eaToWrite mallocOk heap xattrName strAttrValue).map some

/-- `DeleteEa`: what is passed to `NtSetEaFile`. -/
def deleteEa (mallocOk : Bool) (heap : Nat → UInt8) (xattrName : List UInt8) :
    Except Fault (List UInt8) := do
  let eaSize := (eaStructSize + xattrName.length + 1) % 2 ^ 32
  let eaInfo ← eaAlloc mallocOk heap eaSize
  let EaNameLength := UInt8.ofNat xattrName.length
  let eaInfo ← eaHeader eaInfo EaNameLength 0
  -- The size that is given to `strcpy_s` is the length of the name.
  let text ← strcpyS EaNameLength.toNat xattrName
  writeBytes eaInfo eaNameOffset (text ++ [0])

/-- The name and the value of a record: as many bytes as the fields say, with one byte
    between them. -/
def decodeEa (eaInfo : List UInt8) : Option (List UInt8 × List UInt8) :=
  let EaNameLength := (byteAt eaInfo 5).toNat
  let EaValueLength := (word16At eaInfo 6).toNat
  if eaNameOffset + EaNameLength + 1 + EaValueLength ≤ eaInfo.length then
    some (slice eaInfo eaNameOffset EaNameLength,
      slice eaInfo (eaNameOffset + EaNameLength + 1) EaValueLength)
  else none

/-- Whatever the heap holds: a record that is passed on for a name and a value is written
    inside its memory and decodes to them, and one for the deletion of a name that a record
    can have decodes to the name and nothing. -/
structure EaRecords (opens mallocOk : Bool) (xattrName strAttrValue : List UInt8) : Prop where
  write : ∀ heap, ∃ passed,
    writeFileExAttr opens mallocOk heap xattrName strAttrValue = .ok passed ∧
      ∀ eaInfo ∈ passed, decodeEa eaInfo = some (xattrName, strAttrValue)
  delete : xattrName ≠ [] → xattrName.length ≤ 255 → ∀ heap, ∃ eaInfo,
    deleteEa mallocOk heap xattrName = .ok eaInfo ∧ decodeEa eaInfo = some (xattrName, [])

/-- The lengths fit their fields, and there is no zero in the value in front of its last
    byte. -/
structure FitsRecord (xattrName strAttrValue : List UInt8) : Prop where
  name : xattrName.length ≤ 255
  value : strAttrValue.length ≤ 65535
  zero : strAttrValue.length ≤ (cstr strAttrValue).length + 1

/-! ### The record -/

/-- The front of some memory is overwritten. -/
def front (m d : List UInt8) : List UInt8 :=
  poke m 0 d

theorem front_eq (m d : List UInt8) : front m d = d ++ m.drop d.length := by
  rw [front, poke, List.take_zero, List.nil_append, Nat.zero_add]

/-- Writing on from where the front ends. -/
theorem writeBytes_front {m a b : List UInt8} (h : a.length + b.length ≤ m.length) :
    writeBytes (front m a) a.length b = .ok (front m (a ++ b)) := by
  have hlen : (front m a).length = m.length := length_poke m a 0 (by omega)
  have hpoke := poke_poke m a b 0 (by omega)
  rw [Nat.zero_add] at hpoke
  rw [writeBytes_eq_ok (by rw [hlen]; exact h), front, hpoke, front]

/-- The fields of a record in front of the name. -/
def eaFields (EaNameLength : UInt8) (EaValueLength : UInt16) : List UInt8 :=
  le32 0 ++ [0] ++ [EaNameLength] ++ le16 EaValueLength

theorem length_eaFields (EaNameLength : UInt8) (EaValueLength : UInt16) :
    (eaFields EaNameLength EaValueLength).length = eaNameOffset :=
  rfl

theorem eaHeader_eq (m : List UInt8) (EaNameLength : UInt8) (EaValueLength : UInt16)
    (h : eaNameOffset ≤ m.length) :
    eaHeader m EaNameLength EaValueLength
      = .ok (front m (eaFields EaNameLength EaValueLength)) := by
  have hsize : 8 ≤ m.length := h
  have hnext : writeBytes m 0 (le32 0) = .ok (front m (le32 0)) :=
    writeBytes_eq_ok (by rw [length_le32]; omega)
  have hflags : writeBytes (front m (le32 0)) 4 [0] = .ok (front m (le32 0 ++ [0])) :=
    writeBytes_front (a := le32 0) (by rw [length_le32, List.length_singleton]; omega)
  have hname : writeBytes (front m (le32 0 ++ [0])) 5 [EaNameLength]
      = .ok (front m (le32 0 ++ [0] ++ [EaNameLength])) :=
    writeBytes_front (a := le32 0 ++ [0])
      (by rw [List.length_append, length_le32, List.length_singleton, List.length_singleton]; omega)
  have hvalue : writeBytes (front m (le32 0 ++ [0] ++ [EaNameLength])) 6 (le16 EaValueLength)
      = .ok (front m (eaFields EaNameLength EaValueLength)) :=
    writeBytes_front (a := le32 0 ++ [0] ++ [EaNameLength])
      (by
        rw [List.length_append, List.length_append, length_le32, length_le16,
          List.length_singleton, List.length_singleton]
        omega)
  rw [eaHeader, hnext, ok_bind, hflags, ok_bind, hname, ok_bind, hvalue]

/-- The record that is written for lengths that fit their fields. -/
def eaWritten (heap : Nat → UInt8) (xattrName strAttrValue : List UInt8) : List UInt8 :=
  front ((List.range (eaStructSize + xattrName.length + strAttrValue.length + 2)).map heap)
    (eaFields (UInt8.ofNat xattrName.length) (UInt16.ofNat strAttrValue.length)
      ++ (xattrName ++ [0]) ++ (cstr strAttrValue ++ [0]))

/-- What the writer passes on for lengths that fit their fields. -/
theorem eaToWrite_eq (heap : Nat → UInt8) {xattrName strAttrValue : List UInt8}
    (hname : xattrName.length ≤ 255) (hvalue : strAttrValue.length ≤ 65535) :
    eaToWrite true heap xattrName strAttrValue
      = .ok (eaWritten heap xattrName strAttrValue) := by
  have hcstr := length_cstr_le strAttrValue
  have hstruct : eaStructSize = 12 := rfl
  have hoffset : eaNameOffset = 8 := rfl
  have hsize : (eaStructSize + xattrName.length + strAttrValue.length + 2) % 2 ^ 32
      = eaStructSize + xattrName.length + strAttrValue.length + 2 := Nat.mod_eq_of_lt (by omega)
  have hfield : (UInt8.ofNat xattrName.length).toNat = xattrName.length := by
    rw [UInt8.toNat_ofNat']
    exact Nat.mod_eq_of_lt (by omega)
  generalize hm : (List.range (eaStructSize + xattrName.length + strAttrValue.length + 2)).map heap
    = m
  have hlen : m.length = eaStructSize + xattrName.length + strAttrValue.length + 2 := by
    rw [← hm, List.length_map, List.length_range]
  -- The name goes behind the fields, and the value behind the name and its terminator.
  have hcopy := writeBytes_front (m := m)
    (a := eaFields (UInt8.ofNat xattrName.length) (UInt16.ofNat strAttrValue.length))
    (b := xattrName ++ [0])
    (by rw [length_eaFields, List.length_append, List.length_singleton]; omega)
  rw [length_eaFields] at hcopy
  have hcopy' := writeBytes_front (m := m)
    (a := eaFields (UInt8.ofNat xattrName.length) (UInt16.ofNat strAttrValue.length)
      ++ (xattrName ++ [0]))
    (b := cstr strAttrValue ++ [0])
    (by
      rw [List.length_append, length_eaFields, List.length_append, List.length_append,
        List.length_singleton]
      omega)
  rw [List.length_append, length_eaFields, List.length_append, List.length_singleton,
    ← Nat.add_assoc] at hcopy'
  unfold eaToWrite eaAlloc
  dsimp only
  rw [if_pos rfl, hsize, hm, ok_bind, eaHeader_eq m _ _ (by omega), ok_bind, hcopy, ok_bind,
    hfield, hcopy', eaWritten, hm]

/-- The length of the value reads back. -/
theorem word16At_eaFields (EaNameLength : UInt8) (EaValueLength : UInt16) :
    word16At (eaFields EaNameLength EaValueLength) 6 = EaValueLength :=
  word16At_le16_append EaValueLength []

/-- A record that begins with its fields decodes to what they say. -/
theorem decodeEa_fields (EaNameLength : UInt8) (EaValueLength : UInt16) (t : List UInt8)
    (hlen : EaNameLength.toNat + 1 + EaValueLength.toNat ≤ t.length) :
    decodeEa (eaFields EaNameLength EaValueLength ++ t)
      = some (slice t 0 EaNameLength.toNat,
        slice t (EaNameLength.toNat + 1) EaValueLength.toNat) := by
  have hname : byteAt (eaFields EaNameLength EaValueLength ++ t) 5 = EaNameLength :=
    byteAt_append_left _ _ 5 (by rw [length_eaFields]; decide)
  have hvalue : word16At (eaFields EaNameLength EaValueLength ++ t) 6 = EaValueLength := by
    rw [← word16At_eaFields EaNameLength EaValueLength]
    refine word16At_congr _ _ _ _ (fun k hk => ?_)
    refine (byteAt_append_left _ _ (6 + k) (by rw [length_eaFields, eaNameOffset]; omega)).trans ?_
    rw [word16At_eaFields]
  have hslice : ∀ i n, slice (eaFields EaNameLength EaValueLength ++ t) (eaNameOffset + i) n
      = slice t i n := by
    intro i n
    rw [← length_eaFields EaNameLength EaValueLength]
    exact slice_append_right _ t i n
  have hzero := hslice 0 EaNameLength.toNat
  rw [Nat.add_zero] at hzero
  unfold decodeEa
  dsimp only
  rw [hname, hvalue, List.length_append, length_eaFields, if_pos (by omega), hzero, Nat.add_assoc,
    hslice]

/-- What the record decodes to: the name, and the front of the value, with a zero and what the
    heap held behind it. -/
theorem decodeEa_written (heap : Nat → UInt8) {xattrName strAttrValue : List UInt8}
    (hname : xattrName.length ≤ 255) (hvalue : strAttrValue.length ≤ 65535) :
    ∃ rest, decodeEa (eaWritten heap xattrName strAttrValue)
        = some (xattrName, (cstr strAttrValue ++ [0] ++ rest).take strAttrValue.length) ∧
      rest = ((List.range (eaStructSize + xattrName.length + strAttrValue.length + 2)).map
        heap).drop (eaNameOffset + xattrName.length + 1 + ((cstr strAttrValue).length + 1)) := by
  have hcstr := length_cstr_le strAttrValue
  have hstruct : eaStructSize = 12 := rfl
  have hoffset : eaNameOffset = 8 := rfl
  have hn : (UInt8.ofNat xattrName.length).toNat = xattrName.length := by
    rw [UInt8.toNat_ofNat']
    exact Nat.mod_eq_of_lt (by omega)
  have hv : (UInt16.ofNat strAttrValue.length).toNat = strAttrValue.length := by
    rw [UInt16.toNat_ofNat']
    exact Nat.mod_eq_of_lt (by omega)
  refine ⟨_, ?_, rfl⟩
  generalize hm : (List.range (eaStructSize + xattrName.length + strAttrValue.length + 2)).map heap
    = m
  have hlen : m.length = eaStructSize + xattrName.length + strAttrValue.length + 2 := by
    rw [← hm, List.length_map, List.length_range]
  -- Behind the fields: the name with its terminator, and the value behind that.
  rw [eaWritten, hm, front_eq, List.append_assoc, List.append_assoc, decodeEa_fields, hn, hv]
  · refine congrArg some (Prod.ext ?_ ?_)
    · rw [List.append_assoc, slice_append_left _ _ _ _ (by omega)]
      exact slice_all _ _ (Nat.le_refl _)
    · have hbehind : (xattrName ++ [0]).length = xattrName.length + 1 := by
        rw [List.length_append, List.length_singleton]
      rw [← hbehind]
      have hskip := slice_append_right (xattrName ++ [0])
        ((cstr strAttrValue ++ [0]) ++ m.drop (eaFields (UInt8.ofNat xattrName.length)
          (UInt16.ofNat strAttrValue.length) ++ (xattrName ++ [0])
          ++ (cstr strAttrValue ++ [0])).length) 0 strAttrValue.length
      rw [Nat.add_zero] at hskip
      rw [hskip]
      simp only [slice, List.drop_zero, List.length_append, length_eaFields,
        List.length_singleton, Nat.add_assoc]
  · rw [hn, hv]
    simp only [List.length_append, List.length_singleton, List.length_drop, length_eaFields, hlen]
    omega

/-! ### When the record is right -/

/-- A record decodes to lengths that its fields can have. -/
theorem lengths_of_decodeEa {eaInfo xattrName strAttrValue : List UInt8}
    (h : decodeEa eaInfo = some (xattrName, strAttrValue)) :
    xattrName.length ≤ 255 ∧ strAttrValue.length ≤ 65535 := by
  have hname := (byteAt eaInfo 5).toNat_lt
  have hvalue := (word16At eaInfo 6).toNat_lt
  unfold decodeEa at h
  dsimp only at h
  split at h
  · rw [Option.some.injEq, Prod.mk.injEq] at h
    rw [← h.1, ← h.2]
    have hshort := length_slice_le eaInfo eaNameOffset (byteAt eaInfo 5).toNat
    have hshort' := length_slice_le eaInfo (eaNameOffset + (byteAt eaInfo 5).toNat + 1)
      (word16At eaInfo 6).toNat
    omega
  · exact absurd h (by simp only [reduceCtorEq, not_false_eq_true])

/-- A value with a zero at its end at most is copied with the terminator. -/
theorem take_cstr_of_fits {s rest : List UInt8} (h : s.length ≤ (cstr s).length + 1) :
    (cstr s ++ [0] ++ rest).take s.length = s := by
  rcases eq_cstr_append s with hs | ⟨t, hs⟩
  · have hlen : s.length = (cstr s).length := congrArg List.length hs
    rw [hlen, List.append_assoc, List.take_left]
    exact hs.symm
  · have hlen := congrArg List.length hs
    rw [List.length_append, List.length_cons] at hlen
    have ht : t = [] := List.length_eq_zero_iff.mp (by omega)
    rw [ht] at hs
    have hfront : s.length = (cstr s ++ [0]).length := congrArg List.length hs
    rw [hfront, List.take_left]
    exact hs.symm

/-- Of any other value something is left to what the heap holds: here, another byte in each
    place. -/
theorem fits_of_take_cstr {s : List UInt8} {k n : Nat} (hn : k + s.length ≤ n)
    (h : (cstr s ++ [0] ++ ((List.range n).map fun i => byteAt s (i - k) + 1).drop
      (k + ((cstr s).length + 1))).take s.length = s) : s.length ≤ (cstr s).length + 1 := by
  by_contra hlong
  have hfront : (cstr s ++ [0]).length = (cstr s).length + 1 := by
    rw [List.length_append, List.length_singleton]
  -- The first byte behind the zero is the heap's, which is another one than the value's.
  have hat := congrArg (fun l => l[(cstr s).length + 1]?) h
  rw [List.getElem?_take_of_lt (by omega), List.getElem?_append_right (by omega), hfront,
    Nat.sub_self, List.getElem?_drop, List.getElem?_map, List.getElem?_range (by omega),
    Option.map_some, List.getElem?_eq_getElem (by omega), Option.some.injEq] at hat
  have hbyte : byteAt s (k + ((cstr s).length + 1) + 0 - k) = s[(cstr s).length + 1] := by
    rw [Nat.add_zero, Nat.add_sub_cancel_left, byteAt, List.getD_eq_getElem?_getD,
      List.getElem?_eq_getElem (by omega), Option.getD_some]
  rw [hbyte] at hat
  have hsum := congrArg UInt8.toNat hat
  have hlt := s[(cstr s).length + 1].toNat_lt
  have hone : (1 : UInt8).toNat = 1 := rfl
  rw [UInt8.toNat_add] at hsum
  omega

/-- The writer's record is right, whatever the heap holds, exactly when there is memory for it
    and it fits. -/
theorem eaToWrite_right_iff (mallocOk : Bool) (xattrName strAttrValue : List UInt8) :
    (∀ heap, ∃ eaInfo, eaToWrite mallocOk heap xattrName strAttrValue = .ok eaInfo ∧
        decodeEa eaInfo = some (xattrName, strAttrValue))
      ↔ mallocOk = true ∧ FitsRecord xattrName strAttrValue := by
  cases mallocOk with
  | false =>
      refine iff_of_false (fun h => ?_) (fun h => absurd h.1 (by decide))
      rcases h (fun _ => 0) with ⟨eaInfo, heaInfo, -⟩
      have hfault : eaToWrite false (fun _ => 0) xattrName strAttrValue = .error .overrun := rfl
      rw [hfault] at heaInfo
      exact absurd heaInfo (by simp only [reduceCtorEq, not_false_eq_true])
  | true =>
      rw [and_iff_right rfl]
      constructor
      · intro h
        -- The heap that spoils a value that does not fit.
        rcases h fun i => byteAt strAttrValue (i - (eaNameOffset + xattrName.length + 1)) + 1
          with ⟨eaInfo, heaInfo, hdecode⟩
        rcases lengths_of_decodeEa hdecode with ⟨hname, hvalue⟩
        refine ⟨hname, hvalue, ?_⟩
        rw [eaToWrite_eq _ hname hvalue, Except.ok.injEq] at heaInfo
        rcases decodeEa_written (fun i => byteAt strAttrValue
          (i - (eaNameOffset + xattrName.length + 1)) + 1) hname hvalue with ⟨rest, hdecode', rfl⟩
        rw [← heaInfo, hdecode', Option.some.injEq, Prod.mk.injEq] at hdecode
        refine fits_of_take_cstr ?_ hdecode.2
        have hstruct : eaStructSize = 12 := rfl
        have hoffset : eaNameOffset = 8 := rfl
        omega
      · intro hfits heap
        rcases decodeEa_written heap hfits.name hfits.value with ⟨rest, hdecode, -⟩
        refine ⟨_, eaToWrite_eq heap hfits.name hfits.value, ?_⟩
        rw [hdecode, take_cstr_of_fits hfits.zero]

/-- What is passed on is right exactly when nothing is, or the record is. -/
theorem writes_iff (opens mallocOk : Bool) (xattrName strAttrValue : List UInt8) :
    (∀ heap, ∃ passed, writeFileExAttr opens mallocOk heap xattrName strAttrValue = .ok passed ∧
        ∀ eaInfo ∈ passed, decodeEa eaInfo = some (xattrName, strAttrValue))
      ↔ opens = false ∨ mallocOk = true ∧ FitsRecord xattrName strAttrValue := by
  rw [← eaToWrite_right_iff]
  cases opens with
  | false =>
      refine iff_of_true (fun heap => ⟨none, rfl, fun eaInfo h => ?_⟩) (Or.inl rfl)
      exact absurd h (by simp only [Option.mem_def, reduceCtorEq, not_false_eq_true])
  | true =>
      rw [or_iff_right (by decide)]
      refine forall_congr' (fun heap => ?_)
      rw [writeFileExAttr, if_neg (by decide)]
      cases eaToWrite mallocOk heap xattrName strAttrValue with
      | error e =>
          refine iff_of_false (fun h => ?_) (fun h => ?_)
          · rcases h with ⟨passed, hpassed, -⟩
            exact absurd hpassed (by simp only [Except.map, reduceCtorEq, not_false_eq_true])
          · rcases h with ⟨eaInfo, heaInfo, -⟩
            exact absurd heaInfo (by simp only [reduceCtorEq, not_false_eq_true])
      | ok eaInfo =>
          constructor
          · rintro ⟨passed, hpassed, hdecodes⟩
            exact ⟨eaInfo, rfl, hdecodes eaInfo (Except.ok.inj hpassed).symm⟩
          · rintro ⟨eaInfo', heq, hdecode⟩
            rw [Except.ok.injEq] at heq
            refine ⟨some eaInfo, rfl, fun eaInfo'' h => ?_⟩
            rw [← Option.some.inj h, heq]
            exact hdecode

/-- A length that is cut to a byte leaves no room for the terminator: no record is passed on for
    a deletion. -/
theorem deleteEa_terminated (mallocOk : Bool) (heap : Nat → UInt8) (xattrName : List UInt8) :
    ¬ Safe (deleteEa mallocOk heap xattrName) := by
  intro hsafe
  unfold deleteEa at hsafe
  rcases (safe_bind_iff _ _).mp hsafe with ⟨eaInfo, -, hsafe⟩
  rcases (safe_bind_iff _ _).mp hsafe with ⟨eaInfo', -, hsafe⟩
  rcases (safe_bind_iff _ _).mp hsafe with ⟨text, htext, -⟩
  -- The text would have to be shorter than its length, or what is left of that in a byte.
  have hfits := (strcpyS_safe_iff _ xattrName).mp ⟨text, htext⟩
  rw [UInt8.toNat_ofNat'] at hfits
  exact absurd hfits (Nat.not_lt.mpr (Nat.mod_le _ _))

/-- The records are right exactly when the writer's is and there is no name of a length that a
    record can have, as none of these can be deleted. -/
theorem eaRecords_iff (opens mallocOk : Bool) (xattrName strAttrValue : List UInt8) :
    EaRecords opens mallocOk xattrName strAttrValue ↔
      (opens = false ∨ mallocOk = true ∧ FitsRecord xattrName strAttrValue) ∧
        (xattrName = [] ∨ 255 < xattrName.length) := by
  rw [← writes_iff]
  constructor
  · rintro ⟨hwrite, hdelete⟩
    refine ⟨hwrite, ?_⟩
    by_contra hboth
    rw [not_or, Nat.not_lt] at hboth
    rcases hdelete hboth.1 hboth.2 (fun _ => 0) with ⟨eaInfo, heaInfo, -⟩
    exact deleteEa_terminated _ _ _ ⟨eaInfo, heaInfo⟩
  · rintro ⟨hwrite, hlength⟩
    refine ⟨hwrite, fun hne hle => ?_⟩
    rcases hlength with hnil | hlong
    · exact absurd hnil hne
    · exact absurd hle (Nat.not_le.mpr hlong)

/-- The name `WL` with the value `A` is not deleted, and the value `A`, zero, `B` is not written. -/
theorem not_eaRecords_short :
    ¬ EaRecords true true [0x57, 0x4c] [0x41] ∧
      ¬ ∀ heap, ∃ passed, writeFileExAttr true true heap [0x57, 0x4c] [0x41, 0, 0x42] = .ok passed ∧
        ∀ eaInfo ∈ passed, decodeEa eaInfo = some ([0x57, 0x4c], [0x41, 0, 0x42]) := by
  constructor
  · intro h
    rcases h.delete (by decide) (by decide) (fun _ => 0) with ⟨eaInfo, heaInfo, -⟩
    exact deleteEa_terminated _ _ _ ⟨eaInfo, heaInfo⟩
  · intro h
    rcases h (fun _ => 0) with ⟨passed, hpassed, hdecodes⟩
    have hwritten : writeFileExAttr true true (fun _ => 0) [0x57, 0x4c] [0x41, 0, 0x42]
        = .ok (some [0, 0, 0, 0, 0, 2, 3, 0, 0x57, 0x4c, 0, 0x41, 0, 0, 0, 0, 0, 0, 0]) := by
      decide
    rw [hwritten, Except.ok.injEq] at hpassed
    exact absurd (hdecodes _ hpassed.symm) (by decide)

end Scan

end Defender
