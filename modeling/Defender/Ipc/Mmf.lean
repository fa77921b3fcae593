import Defender.Lib.Wire
import Mathlib.Algebra.Group.Nat.Defs

/-!
# The Shared-Memory Container

`CWLIPCMmf`, the container every sender and the service open on one named
file mapping. The mapping starts with a DWORD, the number of bytes written and
not yet read, and the bytes follow. Writing appends behind the count; reading
copies everything out and resets the count.

The mapping is shared and the object is not, so the two are separate: `mem` is
the mapped memory and `CWLIPCMmf` holds the fields of one process's object.
DWORD sums wrap as they do in the source, so the capacity test of
`writeDataInternal` is on the wrapped sum. A copy that leaves the mapping is an
access violation, which no handler of this code catches, and is modelled by
`none`.

The steps inside a call, and the mutex around it, are in `Ipc.Threads`. Here a
call is one function from the memory before to the memory after, and the two
are tied together there.

## Main definitions

* `IpcErrorCode`: The error enumeration, whose first member is zero.
* `CWLIPCMmf`: The fields of a container object.
* `curDataSize`, `pending`: The count and the bytes it covers.
* `writeDataInternal`, `writeData`: Appending.
* `readDataInternal`, `readData`: Draining.
* `Holds`: A mapping of the stated capacity whose count is within it.

## Theorems

* `writeData_accepts`: Enough room: the bytes are appended, the result is zero.
* `writeData_rejects`: Too little room: nothing changes, the result is an
  error.
* `readData_drains`: A non-empty mapping is read whole and emptied.
* `readData_overflows`: The one count whose buffer size wraps.
* `readData_empty`: An empty mapping is left alone.
-/

namespace Defender

namespace Ipc

open Wire

/-- `IPC_ERROE_CODE`. -/
inductive IpcErrorCode where
  | mapViewOfFileError
  | writeDataOutRangeError
  | nullPointerError
  | catchError
  deriving DecidableEq, Repr

/-- The enumerators count from zero. -/
def IpcErrorCode.toDword : IpcErrorCode → UInt32
  | .mapViewOfFileError => 0
  | .writeDataOutRangeError => 1
  | .nullPointerError => 2
  | .catchError => 3

/-- The fields of a container. `pMapView` says whether the view is mapped;
    what it points at is the shared memory. -/
structure CWLIPCMmf where
  dwErrorCode : UInt32
  hMff : Bool
  pMapView : Bool
  dwMmfSize : UInt32
  hMutex : Bool
  deriving DecidableEq, Repr

/-- `DEFAULT_MMF_BUFFER_SIZE`. -/
def defaultMmfBufferSize : UInt32 := 64 * 1024

/-- `*pCurDataSize`: the number of bytes not yet read. -/
def curDataSize (mem : List UInt8) : UInt32 :=
  dwordAt mem 0

/-- The bytes written and not yet read. -/
def pending (mem : List UInt8) : List UInt8 :=
  slice mem 4 (curDataSize mem).toNat

/-- Fail with an error code, memory untouched. -/
def CWLIPCMmf.failed (c : CWLIPCMmf) (e : IpcErrorCode) : CWLIPCMmf :=
  { c with dwErrorCode := e.toDword }

/-- `CWLIPCMmf::WriteDataInternal`. A null `pData` is `none`; otherwise it
    holds the bytes readable behind the pointer. -/
def writeDataInternal (c : CWLIPCMmf) (mem : List UInt8) (dwDataSize : UInt32)
    (pData : Option (List UInt8)) : Option (Bool × CWLIPCMmf × List UInt8) :=
  match pData with
  | none => some (false, c.failed .nullPointerError, mem)
  | some data =>
      if c.pMapView = false then some (false, c.failed .mapViewOfFileError, mem)
      else if curDataSize mem + dwDataSize > c.dwMmfSize then
        some (false, c.failed .writeDataOutRangeError, mem)
      else
        match memcpy mem (4 + (curDataSize mem).toNat) data dwDataSize.toNat with
        | none => none
        | some mem' => some (true, c, poke mem' 0 (le32 (curDataSize mem' + dwDataSize)))

/-- `CWLIPCMmf::WriteData`, without the mutex around it. -/
def writeData (c : CWLIPCMmf) (mem : List UInt8) (dwDataSize : UInt32)
    (pData : Option (List UInt8)) : Option (UInt32 × CWLIPCMmf × List UInt8) :=
  match writeDataInternal c mem dwDataSize pData with
  | none => none
  | some (false, c', mem') => some (c'.dwErrorCode, c', mem')
  | some (true, c', mem') => some (0, c', mem')

/-- The two reference parameters of `ReadData`. A buffer is its received
    bytes; it is allocated one byte longer. -/
structure ReadOut where
  dwDataSize : UInt32
  pDataBuffer : Option (List UInt8)
  deriving DecidableEq, Repr

/-- `CWLIPCMmf::ReadDataInternal`. `alloc` says whether `new` succeeds. -/
def readDataInternal (c : CWLIPCMmf) (mem : List UInt8) (alloc : Bool) (out : ReadOut) :
    Option (Bool × CWLIPCMmf × List UInt8 × ReadOut) :=
  if c.pMapView = false then some (false, c.failed .mapViewOfFileError, mem, out)
  else if curDataSize mem = 0 then
    some (false, c.failed .writeDataOutRangeError, mem, { out with pDataBuffer := none })
  else if alloc = false then
    some (false, c.failed .catchError, mem, { out with pDataBuffer := none })
  else
    -- The buffer has `*pCurDataSize + 1` bytes, a DWORD sum.
    match memcpy (List.replicate (curDataSize mem + 1).toNat 0) 0 (mem.drop 4)
        (curDataSize mem).toNat with
    | none => none
    | some buffer =>
        some (true, c, poke mem 0 (le32 0),
          { dwDataSize := curDataSize mem
            pDataBuffer := some (buffer.take (curDataSize mem).toNat) })

/-- `CWLIPCMmf::ReadData`, without the mutex around it. -/
def readData (c : CWLIPCMmf) (mem : List UInt8) (alloc : Bool) (out : ReadOut) :
    Option (UInt32 × CWLIPCMmf × List UInt8 × ReadOut) :=
  match readDataInternal c mem alloc out with
  | none => none
  | some (false, c', mem', out') => some (c'.dwErrorCode, c', mem', out')
  | some (true, c', mem', out') => some (0, c', mem', out')

/-- A mapping of capacity `cap` whose count is within it. -/
structure Holds (cap : UInt32) (mem : List UInt8) : Prop where
  length_eq : mem.length = 4 + cap.toNat
  count_le : (curDataSize mem).toNat ≤ cap.toNat

theorem length_pending (cap : UInt32) (mem : List UInt8) (h : Holds cap mem) :
    (pending mem).length = (curDataSize mem).toNat := by
  have h1 := h.length_eq
  have h2 := h.count_le
  exact length_slice mem 4 _ (by omega)

/-- Raising the count by `n` makes the next `n` bytes pending. -/
theorem raise_pending (mem : List UInt8) (n : UInt32) (hlen : mem.length ≤ 2 ^ 32)
    (hroom : 4 + (curDataSize mem).toNat + n.toNat ≤ mem.length) :
    (curDataSize (poke mem 0 (le32 (curDataSize mem + n)))).toNat
        = (curDataSize mem).toNat + n.toNat ∧
      pending (poke mem 0 (le32 (curDataSize mem + n)))
        = pending mem ++ slice mem (4 + (curDataSize mem).toNat) n.toNat := by
  have hcount : (curDataSize (poke mem 0 (le32 (curDataSize mem + n)))).toNat
      = (curDataSize mem).toNat + n.toNat := by
    rw [curDataSize, dwordAt_poke_le32, UInt32.toNat_add]
    exact Nat.mod_eq_of_lt (by omega)
  refine ⟨hcount, ?_⟩
  rw [pending, hcount, slice_poke_after mem _ 0 4 _ (by omega)
      (Nat.le_of_eq (by rw [length_le32])),
    slice_add]
  rfl

/-- Setting the count to zero leaves nothing pending. -/
theorem reset_pending (mem : List UInt8) :
    curDataSize (poke mem 0 (le32 0)) = 0 ∧ pending (poke mem 0 (le32 0)) = [] := by
  have hcount : curDataSize (poke mem 0 (le32 0)) = 0 := dwordAt_poke_le32 mem 0
  refine ⟨hcount, ?_⟩
  rw [pending, hcount]
  exact slice_zero _ 4

/-- Copying `data` behind the pending bytes and raising the count appends it. -/
theorem append_pending (cap : UInt32) (mem data : List UInt8) (n : UInt32) (h : Holds cap mem)
    (hn : data.length = n.toNat) (hroom : (curDataSize mem).toNat + n.toNat ≤ cap.toNat) :
    let mem' := poke mem (4 + (curDataSize mem).toNat) data
    let mem'' := poke mem' 0 (le32 (curDataSize mem' + n))
    Holds cap mem'' ∧ pending mem'' = pending mem ++ data := by
  have hlen := h.length_eq
  have hcap := cap.toNat_lt
  intro mem' mem''
  have hlen' : mem'.length = 4 + cap.toNat := by
    rw [length_poke mem data _ (by omega)]
    exact hlen
  have hcount' : curDataSize mem' = curDataSize mem :=
    dwordAt_poke_before mem data _ 0 (by omega) (by omega)
  have hcount : (curDataSize mem'').toNat = (curDataSize mem).toNat + n.toNat := by
    have : curDataSize mem'' = curDataSize mem + n := by
      rw [← hcount']
      exact dwordAt_poke_le32 mem' _
    rw [this, UInt32.toNat_add]
    omega
  refine ⟨⟨?_, by omega⟩, ?_⟩
  · rw [length_poke mem' _ 0 (by rw [length_le32]; omega)]
    exact hlen'
  · rw [pending, hcount, slice_poke_after mem' _ 0 4 _ (by omega)
        (Nat.le_of_eq (by rw [length_le32])),
      slice_add,
      slice_poke_before mem data _ 4 _ (by omega) (by omega), ← hn,
      slice_poke_self mem data _ (by omega)]
    rfl

/-- Enough room: the bytes are appended and the result is zero. -/
theorem writeData_accepts (c : CWLIPCMmf) (mem data : List UInt8) (n : UInt32)
    (hmap : c.pMapView = true) (h : Holds c.dwMmfSize mem) (hn : n.toNat ≤ data.length)
    (hroom : (curDataSize mem).toNat + n.toNat ≤ c.dwMmfSize.toNat) :
    ∃ mem', writeData c mem n (some data) = some (0, c, mem') ∧ Holds c.dwMmfSize mem' ∧
      pending mem' = pending mem ++ data.take n.toNat := by
  have hcap := c.dwMmfSize.toNat_lt
  have hfit : ¬ curDataSize mem + n > c.dwMmfSize := by
    rw [gt_iff_lt, UInt32.lt_iff_toNat_lt, UInt32.toNat_add]
    omega
  have hcopy : memcpy mem (4 + (curDataSize mem).toNat) data n.toNat
      = some (poke mem (4 + (curDataSize mem).toNat) (data.take n.toNat)) :=
    (memcpy_eq_some _ _ _ _ _).mpr ⟨hn, by rw [h.length_eq]; omega, rfl⟩
  have hlen : (data.take n.toNat).length = n.toNat := by
    rw [List.length_take]
    omega
  have happ := append_pending c.dwMmfSize mem (data.take n.toNat) n h hlen hroom
  refine ⟨_, ?_, happ⟩
  simp only [writeData, writeDataInternal, hmap, Bool.true_eq_false, if_false, if_neg hfit, hcopy]

/-- Too little room, the DWORD sum not wrapping: nothing is written and the
    result is the out-of-range code. -/
theorem writeData_rejects (c : CWLIPCMmf) (mem data : List UInt8) (n : UInt32)
    (hmap : c.pMapView = true) (hwrap : (curDataSize mem).toNat + n.toNat < 2 ^ 32)
    (hroom : c.dwMmfSize.toNat < (curDataSize mem).toNat + n.toNat) :
    writeData c mem n (some data) = some (1, c.failed .writeDataOutRangeError, mem) := by
  have hfit : curDataSize mem + n > c.dwMmfSize := by
    rw [gt_iff_lt, UInt32.lt_iff_toNat_lt, UInt32.toNat_add]
    omega
  simp only [writeData, writeDataInternal, hmap, Bool.true_eq_false, if_false, if_pos hfit]
  rfl

/-- A non-empty mapping is read whole, and the count goes to zero. -/
theorem readData_drains (c : CWLIPCMmf) (mem : List UInt8) (out : ReadOut) (cap : UInt32)
    (hmap : c.pMapView = true) (h : Holds cap mem) (hsome : curDataSize mem ≠ 0)
    (hmax : (curDataSize mem).toNat + 1 < 2 ^ 32) :
    ∃ mem', readData c mem true out = some (0, c, mem',
        { dwDataSize := curDataSize mem, pDataBuffer := some (pending mem) }) ∧
      Holds cap mem' ∧ curDataSize mem' = 0 := by
  have hlen := h.length_eq
  have hle := h.count_le
  have hbuf : (curDataSize mem + 1).toNat = (curDataSize mem).toNat + 1 := by
    rw [UInt32.toNat_add]
    exact Nat.mod_eq_of_lt hmax
  have hcopy : memcpy (List.replicate (curDataSize mem + 1).toNat 0) 0 (mem.drop 4)
      (curDataSize mem).toNat = some (poke (List.replicate (curDataSize mem + 1).toNat 0) 0
        ((mem.drop 4).take (curDataSize mem).toNat)) :=
    (memcpy_eq_some _ _ _ _ _).mpr ⟨by rw [List.length_drop]; omega,
      by rw [List.length_replicate]; omega, rfl⟩
  have htake : (poke (List.replicate (curDataSize mem + 1).toNat 0) 0
      ((mem.drop 4).take (curDataSize mem).toNat)).take (curDataSize mem).toNat = pending mem := by
    have hself := slice_poke_self (List.replicate (curDataSize mem + 1).toNat 0) (pending mem) 0
      (Nat.zero_le _)
    rw [slice, List.drop_zero, length_pending cap mem h] at hself
    exact hself
  refine ⟨poke mem 0 (le32 0), ?_, ⟨?_, ?_⟩, dwordAt_poke_le32 mem 0⟩
  · simp only [readData, readDataInternal, hmap, Bool.true_eq_false, if_false, if_neg hsome, hcopy,
      htake]
  · rw [length_poke mem _ 0 (by rw [length_le32]; omega)]
    exact hlen
  · rw [curDataSize, dwordAt_poke_le32]
    exact Nat.zero_le _

/-- At the largest count the allocation size wraps to zero, and the copy
    leaves the buffer. -/
theorem readData_overflows (c : CWLIPCMmf) (mem : List UInt8) (out : ReadOut)
    (hmap : c.pMapView = true) (hmax : 2 ^ 32 ≤ (curDataSize mem).toNat + 1) :
    readData c mem true out = none := by
  have hlt := (curDataSize mem).toNat_lt
  have hsome : curDataSize mem ≠ 0 := by
    intro hzero
    rw [hzero] at hmax
    exact absurd hmax (by decide)
  have hbuf : (curDataSize mem + 1).toNat = 0 := by
    rw [UInt32.toNat_add, UInt32.toNat_one]
    omega
  have hcopy : memcpy (List.replicate (curDataSize mem + 1).toNat 0) 0 (mem.drop 4)
      (curDataSize mem).toNat = none := by
    rw [memcpy, if_neg]
    rw [hbuf, List.replicate_zero, List.length_nil]
    omega
  simp only [readData, readDataInternal, hmap, Bool.true_eq_false, if_false, if_neg hsome, hcopy]

/-- An empty mapping is left alone and the result is the out-of-range code. -/
theorem readData_empty (c : CWLIPCMmf) (mem : List UInt8) (alloc : Bool) (out : ReadOut)
    (hmap : c.pMapView = true) (hnone : curDataSize mem = 0) :
    readData c mem alloc out = some (1, c.failed .writeDataOutRangeError, mem,
      { out with pDataBuffer := none }) := by
  simp only [readData, readDataInternal, hmap, Bool.true_eq_false, if_false, if_pos hnone]
  rfl

end Ipc

end Defender
