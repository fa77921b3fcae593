import Mathlib.Algebra.Group.Nat.Defs
import Defender.Scan.EaRecords

/-!
# Reading Extended Attributes

`ReadFileExAttr` has `NtQueryEaFile` fill a buffer of 4096 bytes and walks along the
entries in it, each of which says how far it is to the next one. The name of an entry is
copied to an array of 256 characters and compared with the one that is looked for, and at
the first entry that has it the value is copied to an array of 4096. Both copies are by
`strncpy_s` with the length that the entry says, which ends the process when what it
copies does not fit, and stops at a zero.

A name is at most 255 bytes long and a value begins behind its name, so on a reply of the
system nothing is read outside the buffer and everything fits. What is compared are C
strings: of a name with a zero in it only the front is looked at.

The steps of the walk are counted down by `fuel`, and `running` is a walk that goes on.

## Main definitions

* `copiedString`, `strncpyFrom`: A copy with a bound.
* `stricmp`: `_stricmp`, in the C locale.
* `readValue`, `readEntries`, `readFileExAttr`: The loop, and the function.
* `EntryAt`, `Chain`: What a reply holds.
* `selected`, `selectedWhole`: What the first entry with the name gives, its name being a C
  string or as long as it says.

## Theorems

* `copiedString_eq`: A copy of what is in the buffer.
* `EntryAt.name_eq`, `EntryAt.value_eq`: The copies of an entry fit.
* `readEntries_finds`, `readEntries_skips`, `readEntries_eq`: One step of the walk, and the
  walk.
* `readFileExAttr_eq`: What is read from a reply.
-/

namespace Defender

namespace Scan

open Wire CString Reads

/-! ### The function -/

/-- What is copied of a C string, a character after the other, up to a zero or a count. -/
def copiedString (b : Buffer) : Nat → Nat → Except Fault (List UInt8)
  | _, 0 => pure []
  | p, count + 1 => do
      let c ← readByte b p
      if c = 0 then pure []
      else do
        let later ← copiedString b (p + 1) count
        pure (c :: later)

/-- `strncpy_s` to an array. -/
def strncpyFrom (size : Nat) (b : Buffer) (p count : Nat) : Except Fault (List UInt8) := do
  let text ← copiedString b p count
  strcpyS size text

/-- A capital letter becomes a small one. -/
def tolower (c : UInt8) : UInt8 :=
  if 0x41 ≤ c ∧ c ≤ 0x5A then c + 0x20 else c

/-- `_stricmp (...) == 0`. -/
def stricmp (s t : List UInt8) : Bool :=
  s.map tolower == t.map tolower

/-- Where the walk is. -/
inductive EaWalk where
  | running
  | notFound
  | found (nameBuf valueBuf : List UInt8)
deriving DecidableEq

/-- What is done at an entry with the name. -/
def readValue (b : Buffer) (eaInfo : Nat) (nameBuf : List UInt8) : Except Fault EaWalk := do
  let EaNameLength ← readByte b (eaInfo + 5)
  let EaValueLength ← readWord b (eaInfo + 6)
  let valueBuf ← strncpyFrom 4096 b (eaInfo + (eaNameOffset + EaNameLength.toNat + 1))
    EaValueLength.toNat
  pure (.found nameBuf valueBuf)

/-- The loop of `ReadFileExAttr`. -/
def readEntries (b : Buffer) (xattrName : List UInt8) : Nat → Nat → Except Fault EaWalk
  | 0, _ => pure .running
  | fuel + 1, eaInfo =>
      -- `while (eaInfo)`, a pointer that never is null.
      if b.wrap (b.address + eaInfo) = 0 then pure .notFound
      else do
        let EaNameLength ← readByte b (eaInfo + 5)
        let nameBuf ← strncpyFrom 256 b (eaInfo + eaNameOffset) EaNameLength.toNat
        if stricmp nameBuf xattrName then readValue b eaInfo nameBuf
        else do
          let NextEntryOffset ← readDword b eaInfo
          if NextEntryOffset = 0 then pure .notFound
          else readEntries b xattrName fuel (eaInfo + NextEntryOffset.toNat)

/-- `ReadFileExAttr`: what is returned, and the walk. -/
def readFileExAttr (opens : Bool) (status : UInt32) (b : Buffer) (xattrName : List UInt8)
    (fuel : Nat) : Except Fault (Bool × EaWalk) :=
  if opens = false then .ok (false, .notFound)
  else if status = 0 then do
    let walk ← readEntries b xattrName fuel 0
    pure (true, walk)
  else pure (true, .notFound)

/-! ### A reply -/

/-- The fields of an entry. -/
def entryNext (b : Buffer) (p : Nat) : UInt32 :=
  b.dword p

def entryNameLength (b : Buffer) (p : Nat) : Nat :=
  (b.byte (p + 5)).toNat

def entryValueLength (b : Buffer) (p : Nat) : Nat :=
  (b.word (p + 6)).toNat

/-- The name of an entry, and its value. -/
def entryName (b : Buffer) (p : Nat) : List UInt8 :=
  b.part (p + eaNameOffset) (entryNameLength b p)

def entryValue (b : Buffer) (p : Nat) : List UInt8 :=
  b.part (p + (eaNameOffset + entryNameLength b p + 1)) (entryValueLength b p)

/-- There is an entry in the buffer, with its name, and with its value if it has one. -/
structure EntryAt (b : Buffer) (p : Nat) : Prop where
  fields : b.Has p eaNameOffset
  name : b.Has (p + eaNameOffset) (entryNameLength b p)
  value : entryValueLength b p ≠ 0 →
    b.Has (p + (eaNameOffset + entryNameLength b p + 1)) (entryValueLength b p)

/-- The entries of a reply, from one of them to the last. -/
inductive Chain (b : Buffer) : Nat → List Nat → Prop where
  | last {p : Nat} (hentry : EntryAt b p) (hend : entryNext b p = 0) : Chain b p [p]
  | more {p : Nat} {ps : List Nat} (hentry : EntryAt b p) (hnext : entryNext b p ≠ 0)
      (hrest : Chain b (p + (entryNext b p).toNat) ps) : Chain b p (p :: ps)

/-- The first entry whose name, as a C string, is the one that is looked for gives its name and
    its value, as C strings. -/
def selected (b : Buffer) (xattrName : List UInt8) (ps : List Nat) : EaWalk :=
  match ps.find? (fun p => stricmp (cstr (entryName b p)) xattrName) with
  | none => .notFound
  | some p => .found (cstr (entryName b p)) (cstr (entryValue b p))

/-! ### Copies -/

variable {b : Buffer}

/-- The first byte of a part, and the rest. -/
theorem part_succ {p n : Nat} (h : b.Has p (n + 1)) :
    b.part p (n + 1) = b.byte p :: b.part (p + 1) n := by
  have hnext := Buffer.wrap_add (k := 1) (h.mono (Nat.zero_le _)) (by decide)
  unfold Buffer.Has at h
  rw [Buffer.part, Buffer.part, Buffer.byte, hnext, slice_eq_map _ _ _ h,
    slice_eq_map _ _ _ (by omega), List.range'_succ, List.map_cons]

/-- A copy of what is in the buffer is the string in front of it. -/
theorem copiedString_eq {p count : Nat} (h : b.Has p count) :
    copiedString b p count = .ok (cstr (b.part p count)) := by
  induction count generalizing p with
  | zero =>
      rw [Buffer.part, slice_zero]
      rfl
  | succ count ih =>
      have hrest : b.Has (p + 1) count := h.field (by decide) (by omega)
      have hbyte : readByte b p = .ok (b.byte p) := readByte_eq_ok (h.mono (by omega))
      rw [copiedString, hbyte, ok_bind, part_succ h]
      by_cases hzero : b.byte p = 0
      · rw [if_pos hzero, hzero, cstr_cons_zero]
        rfl
      -- Another character, which the rest is copied behind.
      · rw [if_neg hzero, ih hrest, ok_bind, cstr_cons_of_ne hzero]
        rfl

/-- A copy that is shorter than the array fits. -/
theorem strncpyFrom_eq {size p count : Nat} (h : b.Has p count) (hsize : count < size) :
    strncpyFrom size b p count = .ok (cstr (b.part p count)) := by
  have hcstr := length_cstr_le (b.part p count)
  have hpart := length_slice_le b.bytes (b.wrap p) count
  rw [strncpyFrom, copiedString_eq h, ok_bind]
  refine strcpyS_eq_ok ?_
  rw [Buffer.part] at hcstr ⊢
  omega

/-- A copy of nothing reads nothing. -/
theorem strncpyFrom_zero {size p : Nat} (hsize : 0 < size) :
    strncpyFrom size b p 0 = .ok (cstr (b.part p 0)) := by
  rw [Buffer.part, slice_zero, strncpyFrom, copiedString]
  exact strcpyS_eq_ok hsize

/-! ### Entries -/

section

variable {p : Nat} (hentry : EntryAt b p)
include hentry

/-- An entry is not at the null pointer. -/
theorem EntryAt.not_null : b.wrap (b.address + p) ≠ 0 := by
  have hlow := b.low
  have hfits := b.fits
  have hfields := hentry.fields
  unfold Buffer.Has Buffer.wrap at hfields
  unfold Buffer.wrap
  rw [Nat.add_mod, Nat.mod_eq_of_lt (a := b.address) (by
    have hlen : eaNameOffset = 8 := rfl
    omega), Nat.mod_eq_of_lt]
  · omega
  · have hlen : eaNameOffset = 8 := rfl
    omega

/-- The name of an entry is copied. -/
theorem EntryAt.name_eq :
    strncpyFrom 256 b (p + eaNameOffset) (entryNameLength b p) = .ok (cstr (entryName b p)) :=
  strncpyFrom_eq hentry.name (b.byte (p + 5)).toNat_lt

/-- The value is copied, which begins behind the fields and so is shorter than the buffer. -/
theorem EntryAt.value_eq (hlen : b.bytes.length = 4096) :
    strncpyFrom 4096 b (p + (eaNameOffset + entryNameLength b p + 1)) (entryValueLength b p)
      = .ok (cstr (entryValue b p)) := by
  have hname := (b.byte (p + 5)).toNat_lt
  have hoffset : eaNameOffset = 8 := rfl
  rw [entryValue]
  by_cases hzero : entryValueLength b p = 0
  · rw [hzero]
    exact strncpyFrom_zero (by decide)
  · have hvalue := hentry.value hzero
    refine strncpyFrom_eq hvalue ?_
    -- It is behind nine bytes at least, of the 4096.
    have hstart := Buffer.wrap_add (k := eaNameOffset + entryNameLength b p + 1)
      (hentry.fields.mono (Nat.zero_le _)) (by unfold entryNameLength; omega)
    unfold Buffer.Has at hvalue
    rw [hstart, hlen] at hvalue
    omega

end

/-! ### The walk -/

section

variable {p : Nat} (hentry : EntryAt b p) (xattrName : List UInt8) (fuel : Nat)
include hentry

/-- An entry with the name ends the walk, with its value. -/
theorem readEntries_finds (hlen : b.bytes.length = 4096)
    (hsame : stricmp (cstr (entryName b p)) xattrName = true) :
    readEntries b xattrName (fuel + 1) p
      = .ok (.found (cstr (entryName b p)) (cstr (entryValue b p))) := by
  have hlength : readByte b (p + 5) = .ok (b.byte (p + 5)) :=
    readByte_eq_ok (hentry.fields.field (by decide) (by decide))
  have hword : readWord b (p + 6) = .ok (b.word (p + 6)) :=
    readWord_eq_ok (hentry.fields.field (by decide) (by decide))
  have hname := hentry.name_eq
  have hvalue := hentry.value_eq hlen
  unfold entryNameLength at hname
  unfold entryNameLength entryValueLength at hvalue
  rw [readEntries, if_neg hentry.not_null, hlength, ok_bind, hname, ok_bind, if_pos hsame,
    readValue, hlength, ok_bind, hword, ok_bind, hvalue]
  rfl

/-- An entry without the name is passed over, or ends the walk if it is the last. -/
theorem readEntries_skips (hother : stricmp (cstr (entryName b p)) xattrName = false) :
    readEntries b xattrName (fuel + 1) p
      = if entryNext b p = 0 then .ok .notFound
        else readEntries b xattrName fuel (p + (entryNext b p).toNat) := by
  have hlength : readByte b (p + 5) = .ok (b.byte (p + 5)) :=
    readByte_eq_ok (hentry.fields.field (by decide) (by decide))
  have hname := hentry.name_eq
  unfold entryNameLength at hname
  have hnext : readDword b p = .ok (b.dword p) :=
    readDword_eq_ok (hentry.fields.mono (by decide))
  rw [readEntries, if_neg hentry.not_null, hlength, ok_bind, hname, ok_bind,
    if_neg (by rw [hother]; decide), hnext]
  rfl

end

theorem selected_same {xattrName : List UInt8} {p : Nat} (ps : List Nat)
    (hsame : stricmp (cstr (entryName b p)) xattrName = true) :
    selected b xattrName (p :: ps) = .found (cstr (entryName b p)) (cstr (entryValue b p)) := by
  have hfind : (p :: ps).find? (fun p => stricmp (cstr (entryName b p)) xattrName) = some p :=
    List.find?_cons_of_pos hsame
  rw [selected, hfind]

theorem selected_other {xattrName : List UInt8} {p : Nat} (ps : List Nat)
    (hother : stricmp (cstr (entryName b p)) xattrName = false) :
    selected b xattrName (p :: ps) = selected b xattrName ps := by
  have hfind : (p :: ps).find? (fun p => stricmp (cstr (entryName b p)) xattrName)
      = ps.find? (fun p => stricmp (cstr (entryName b p)) xattrName) :=
    List.find?_cons_of_neg (by rw [hother]; decide)
  rw [selected, hfind, selected]

/-- The walk along a chain gives the first entry with the name. Induction on the chain. -/
theorem readEntries_eq (hlen : b.bytes.length = 4096) (xattrName : List UInt8) {p : Nat}
    {ps : List Nat} (hchain : Chain b p ps) {fuel : Nat} (hfuel : ps.length ≤ fuel) :
    readEntries b xattrName fuel p = .ok (selected b xattrName ps) := by
  induction hchain generalizing fuel with
  | @last p hentry hend =>
      rcases Nat.exists_eq_succ_of_ne_zero (Nat.ne_of_gt hfuel) with ⟨n, rfl⟩
      cases hsame : stricmp (cstr (entryName b p)) xattrName with
      | true => rw [readEntries_finds hentry xattrName n hlen hsame, selected_same [] hsame]
      | false =>
          rw [readEntries_skips hentry xattrName n hsame, if_pos hend, selected_other [] hsame]
          rfl
  | @more p ps hentry hnext hrest ih =>
      rw [List.length_cons] at hfuel
      rcases Nat.exists_eq_succ_of_ne_zero
        (Nat.ne_of_gt (Nat.lt_of_lt_of_le (Nat.succ_pos _) hfuel)) with ⟨n, rfl⟩
      cases hsame : stricmp (cstr (entryName b p)) xattrName with
      | true => rw [readEntries_finds hentry xattrName n hlen hsame, selected_same ps hsame]
      | false =>
          rw [readEntries_skips hentry xattrName n hsame, if_neg hnext, selected_other ps hsame]
          exact ih (Nat.le_of_succ_le_succ hfuel)

/-- From a reply the function reads the first entry with the name, and it comes back, without a
    fault. -/
theorem readFileExAttr_eq (b : Buffer) (hlen : b.bytes.length = 4096) (xattrName : List UInt8)
    (ps : List Nat) (hchain : Chain b 0 ps) (fuel : Nat) (hfuel : ps.length ≤ fuel) :
    readFileExAttr true 0 b xattrName fuel = .ok (true, selected b xattrName ps) := by
  rw [readFileExAttr, if_neg (by decide), if_pos rfl, readEntries_eq hlen xattrName hchain hfuel]
  rfl

/-! ### A reply -/

/-- A reply with three entries. The name of the first is `WL`, a zero and `X`, that of the second
    is `WL`, and that of the third `PE`. The values of the first and the third have a zero in
    them. -/
def replyWithZero : Buffer :=
  Buffer.lowest ([16, 0, 0, 0, 0, 4, 3, 0, 0x57, 0x4c, 0, 0x58, 0, 0x31, 0, 0x32]
      ++ [12, 0, 0, 0, 0, 2, 1, 0, 0x57, 0x4c, 0, 0x33]
      ++ [0, 0, 0, 0, 0, 2, 3, 0, 0x50, 0x45, 0, 0x34, 0, 0x35] ++ List.replicate 4054 0)
    (by
      rw [List.length_append, List.length_replicate]
      decide)

theorem length_replyWithZero : replyWithZero.bytes.length = 4096 := by
  rw [replyWithZero, Buffer.lowest_bytes, List.length_append, List.length_replicate]
  rfl

theorem chain_replyWithZero : Chain replyWithZero 0 [0, 16, 28] := by
  have hentries : EntryAt replyWithZero 0 ∧ EntryAt replyWithZero 16 ∧
      EntryAt replyWithZero 28 := by
    refine ⟨⟨?_, ?_, fun _ => ?_⟩, ⟨?_, ?_, fun _ => ?_⟩, ⟨?_, ?_, fun _ => ?_⟩⟩
    all_goals
      unfold Buffer.Has
      rw [length_replyWithZero]
      decide
  have hlast : Chain replyWithZero (16 + (entryNext replyWithZero 16).toNat) [28] := by
    rw [show 16 + (entryNext replyWithZero 16).toNat = 28 by decide]
    exact .last hentries.2.2 (by decide)
  have hlater : Chain replyWithZero (0 + (entryNext replyWithZero 0).toNat) [16, 28] := by
    rw [show 0 + (entryNext replyWithZero 0).toNat = 16 by decide]
    exact .more hentries.2.1 (by decide) hlast
  exact .more hentries.1 (by decide) hlater

/-- The first entry is read for the name `wl`, and the third for `pe`, each as far as its value
    has no zero. -/
theorem readFileExAttr_replyWithZero :
    (readFileExAttr true 0 replyWithZero [0x77, 0x6c] 3
        = .ok (true, selected replyWithZero [0x77, 0x6c] [0, 16, 28]) ∧
      selected replyWithZero [0x77, 0x6c] [0, 16, 28] = .found [0x57, 0x4c] [0x31]) ∧
    readFileExAttr true 0 replyWithZero [0x70, 0x65] 3
        = .ok (true, selected replyWithZero [0x70, 0x65] [0, 16, 28]) ∧
      selected replyWithZero [0x70, 0x65] [0, 16, 28] = .found [0x50, 0x45] [0x34] :=
  ⟨⟨readFileExAttr_eq replyWithZero length_replyWithZero [0x77, 0x6c] [0, 16, 28]
      chain_replyWithZero 3 (Nat.le_refl 3), by decide⟩,
    readFileExAttr_eq replyWithZero length_replyWithZero [0x70, 0x65] [0, 16, 28]
      chain_replyWithZero 3 (Nat.le_refl 3), by decide⟩

/-- The first entry whose name, as many bytes as it says, is the one that is looked for gives its
    name and its value. -/
def selectedWhole (b : Buffer) (xattrName : List UInt8) (ps : List Nat) : EaWalk :=
  match ps.find? (fun p => stricmp (entryName b p) xattrName) with
  | none => .notFound
  | some p => .found (entryName b p) (entryValue b p)

/-- The second entry of the reply has the name `WL`, and the value of the first is given for it.
    For `PE` it is the third, as it should be, but not all of its value is given. -/
theorem not_selectedWhole_replyWithZero :
    replyWithZero.bytes.length = 4096 ∧ Chain replyWithZero 0 [0, 16, 28] ∧
      (readFileExAttr true 0 replyWithZero [0x57, 0x4c] 3
          = .ok (true, .found [0x57, 0x4c] [0x31]) ∧
        selectedWhole replyWithZero [0x57, 0x4c] [0, 16, 28] = .found [0x57, 0x4c] [0x33]) ∧
      readFileExAttr true 0 replyWithZero [0x50, 0x45] 3 = .ok (true, .found [0x50, 0x45] [0x34]) ∧
        selectedWhole replyWithZero [0x50, 0x45] [0, 16, 28]
          = .found [0x50, 0x45] [0x34, 0, 0x35] := by
  have hread : ∀ xattrName, readFileExAttr true 0 replyWithZero xattrName 3
      = .ok (true, selected replyWithZero xattrName [0, 16, 28]) := by
    intro xattrName
    rw [readFileExAttr, if_neg (by decide), if_pos rfl,
      readEntries_eq length_replyWithZero xattrName chain_replyWithZero (Nat.le_refl 3)]
    rfl
  refine ⟨length_replyWithZero, chain_replyWithZero, ⟨?_, by decide⟩, ?_, by decide⟩
  · rw [hread]
    decide
  · rw [hread]
    decide

end Scan

end Defender
