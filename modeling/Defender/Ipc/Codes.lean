import Defender.Ipc.Capacity

/-!
# What the Return Codes Tell

The callers of `WriteData` and `ReadData` take zero for success. What is
returned on a failure is the member `m_dwErrorCode`, and the first enumerator of
`IPC_ERROE_CODE`, the one for a view that is not mapped, is zero as well. So a
container whose mapping failed reports success for every write and every read,
and `SendMsgToMmf` passes that on.

On a mapped view the codes are right as long as the call returns. It does not
return when a DWORD sum wraps to something that fits, and the copy leaves the
mapping, nor when there is more pending than the mapping holds.

A container is taken in any state: mapped or not, with any count, and with any
code left over from earlier calls.

## Main definitions

* `Appended`, `Kept`, `HandedOver`: What a call did to the pending bytes.
* `WriteTells`, `SendTells`, `ReadTells`: The code of a call says what it did.
* `LetThrough`: A sum that wraps and fits.

## Theorems

* `writeData_tells_iff`, `sendMsgToMmf_tells_iff`, `readData_tells_iff`: When
  the code of a call is right.
* `codes_tell_iff`: All three.
* `codes_lie`: A write to a view that is not mapped.
-/

namespace Defender

namespace Ipc

open Wire

/-- Bytes went into the mapping behind the pending ones, and the count was
    raised by their number. -/
structure Appended (c : CWLIPCMmf) (mem mem' data : List UInt8) : Prop where
  mapped : c.pMapView = true
  inside : (curDataSize mem').toNat ≤ c.dwMmfSize.toNat
  pending_eq : pending mem' = pending mem ++ data
  count_eq : (curDataSize mem').toNat = (curDataSize mem).toNat + data.length

/-- The pending bytes and their count are what they were. -/
structure Kept (mem mem' : List UInt8) : Prop where
  pending_eq : pending mem' = pending mem
  count_eq : curDataSize mem' = curDataSize mem

/-- The pending bytes, of which there were some, are in the buffer handed over,
    and the count is zero. -/
structure HandedOver (mem mem' : List UInt8) (out : ReadOut) : Prop where
  buffer : out.pDataBuffer = some (pending mem)
  size : out.dwDataSize.toNat = (pending mem).length
  nonempty : 0 < (pending mem).length
  reset : curDataSize mem' = 0

theorem Kept.refl (mem : List UInt8) : Kept mem mem :=
  ⟨rfl, rfl⟩

/-- `WriteData` returns zero exactly when it appended, and else changes
    nothing. -/
def WriteTells (c : CWLIPCMmf) (mem : List UInt8) (dwDataSize : UInt32)
    (pData : Option (List UInt8)) : Prop :=
  ∃ dwResult c' mem', writeData c mem dwDataSize pData = some (dwResult, c', mem') ∧
    (dwResult = 0 ↔ ∃ data, pData = some data ∧
      Appended c mem mem' (data.take dwDataSize.toNat)) ∧
    (dwResult ≠ 0 → Kept mem mem')

/-- `SendMsgToMmf` returns zero only when it appended the message, and else
    changes nothing. -/
def SendTells (c : CWLIPCMmf) (mem : List UInt8) (alloc : Bool)
    (dwEventType dwMsgCode dwDataSize : UInt32) (lpEventData : Option (List UInt8)) : Prop :=
  ∃ dwResult c' mem',
    sendMsgToMmf c mem alloc dwEventType dwMsgCode dwDataSize lpEventData
        = some (dwResult, c', mem') ∧
      (dwResult = 0 →
        Appended c mem mem' (encode (sentMsg dwEventType dwMsgCode dwDataSize lpEventData))) ∧
      (dwResult ≠ 0 → Kept mem mem')

/-- `ReadData` returns zero exactly when it handed over what was pending, and
    else changes nothing. -/
def ReadTells (c : CWLIPCMmf) (mem : List UInt8) (alloc : Bool) (out : ReadOut) : Prop :=
  ∃ dwResult c' mem' out', readData c mem alloc out = some (dwResult, c', mem', out') ∧
    (dwResult = 0 ↔ HandedOver mem mem' out') ∧ (dwResult ≠ 0 → Kept mem mem')

/-- What is pending and what is to be written wrap together to a sum that
    fits. -/
def LetThrough (c : CWLIPCMmf) (mem : List UInt8) (dwDataSize : UInt32) : Prop :=
  2 ^ 32 ≤ (curDataSize mem).toNat + dwDataSize.toNat ∧
    curDataSize mem + dwDataSize ≤ c.dwMmfSize

instance (c : CWLIPCMmf) (mem : List UInt8) (dwDataSize : UInt32) :
    Decidable (LetThrough c mem dwDataSize) :=
  inferInstanceAs (Decidable (_ ∧ _))

/-- The view of a container, where it is mapped, has the size of the mapping. -/
def Sized (c : CWLIPCMmf) (mem : List UInt8) : Prop :=
  c.pMapView = true → mem.length = 4 + c.dwMmfSize.toNat

/-- A sum that is let through is of a copy that leaves the mapping. -/
theorem writeData_letThrough (c : CWLIPCMmf) (mem data : List UInt8) (n : UInt32)
    (hmap : c.pMapView = true) (hsized : Sized c mem) (h : LetThrough c mem n) :
    writeData c mem n (some data) = none := by
  have hcap := c.dwMmfSize.toNat_lt
  have hlen := hsized hmap
  have hfit : ¬ curDataSize mem + n > c.dwMmfSize := UInt32.not_lt.mpr h.2
  have hcopy : memcpy mem (4 + (curDataSize mem).toNat) data n.toNat = none := by
    -- The sum without wrapping is more than the mapping has.
    have hwrap := h.1
    rw [memcpy, if_neg]
    omega
  simp only [writeData, writeDataInternal, hmap, Bool.true_eq_false, if_false, if_neg hfit, hcopy]

/-- The code for a view that is not mapped is zero. -/
theorem writeData_unmapped (c : CWLIPCMmf) (mem data : List UInt8) (n : UInt32)
    (hmap : ¬ c.pMapView = true) :
    writeData c mem n (some data) = some (0, c.failed .mapViewOfFileError, mem) := by
  simp only [writeData, writeDataInternal, if_pos (Bool.eq_false_iff.mpr hmap)]
  rfl

/-- A sum that does not fit is refused, and nothing was appended, not even no
    bytes at all. -/
theorem writeData_refuses (c : CWLIPCMmf) (mem data : List UInt8) (n : UInt32)
    (hmap : c.pMapView = true) (hlen : n.toNat ≤ data.length)
    (hfit : curDataSize mem + n > c.dwMmfSize) : WriteTells c mem n (some data) := by
  have hrun : writeData c mem n (some data) = some (1, c.failed .writeDataOutRangeError, mem) := by
    simp only [writeData, writeDataInternal, hmap, Bool.true_eq_false, if_false, if_pos hfit]
    rfl
  have htake : (data.take n.toNat).length = n.toNat := by
    rw [List.length_take]
    omega
  refine ⟨1, _, mem, hrun, iff_of_false (by decide) ?_, fun _ => Kept.refl mem⟩
  rintro ⟨data', hdata', happ⟩
  -- Had it appended, the count would be inside the mapping.
  rw [← Option.some.inj hdata'] at happ
  have hcount := happ.count_eq
  have hinside := happ.inside
  rw [gt_iff_lt, UInt32.lt_iff_toNat_lt, UInt32.toNat_add] at hfit
  omega

/-- A sum that fits without wrapping is of bytes that are appended. -/
theorem writeData_appends (c : CWLIPCMmf) (mem data : List UInt8) (n : UInt32)
    (hmap : c.pMapView = true) (hsized : Sized c mem) (hlen : n.toNat ≤ data.length)
    (hnowrap : (curDataSize mem).toNat + n.toNat < 2 ^ 32)
    (hfit : ¬ curDataSize mem + n > c.dwMmfSize) : WriteTells c mem n (some data) := by
  rw [gt_iff_lt, UInt32.lt_iff_toNat_lt, UInt32.toNat_add, Nat.mod_eq_of_lt hnowrap] at hfit
  have hholds : Holds c.dwMmfSize mem := ⟨hsized hmap, by omega⟩
  rcases writeData_accepts c mem data n hmap hholds hlen (by omega) with
    ⟨mem', hrun, hholds', hpending⟩
  -- The count is the number of pending bytes, before and after.
  have hcount : (curDataSize mem').toNat
      = (curDataSize mem).toNat + (data.take n.toNat).length := by
    rw [← length_pending c.dwMmfSize mem' hholds', hpending, List.length_append,
      length_pending c.dwMmfSize mem hholds]
  exact ⟨0, c, mem', hrun, iff_of_true rfl ⟨data, rfl, hmap, hholds'.count_le, hpending, hcount⟩,
    fun hne => absurd rfl hne⟩

/-- When the code of `WriteData` is right. -/
theorem writeData_tells_iff (c : CWLIPCMmf) (mem : List UInt8) (n : UInt32)
    (pData : Option (List UInt8)) (hsized : Sized c mem)
    (hptr : ∀ data, pData = some data → n.toNat ≤ data.length) :
    WriteTells c mem n pData ↔ pData = none ∨ (c.pMapView = true ∧ ¬ LetThrough c mem n) := by
  cases pData with
  | none =>
      refine iff_of_true ⟨2, c.failed .nullPointerError, mem, rfl, ?_, fun _ => Kept.refl mem⟩
        (Or.inl rfl)
      refine iff_of_false (by decide) ?_
      rintro ⟨data, hdata, -⟩
      exact absurd hdata (by simp only [reduceCtorEq, not_false_eq_true])
  | some data =>
      have hlen := hptr data rfl
      rw [or_iff_right (by simp only [reduceCtorEq, not_false_eq_true])]
      by_cases hmap : c.pMapView = true
      · rw [and_iff_right hmap]
        by_cases hfit : curDataSize mem + n > c.dwMmfSize
        · exact iff_of_true (writeData_refuses c mem data n hmap hlen hfit)
            (fun hlet => UInt32.not_lt.mpr hlet.2 hfit)
        · by_cases hlet : LetThrough c mem n
          · -- The copy leaves the mapping, so there is no code.
            refine iff_of_false ?_ (not_not_intro hlet)
            rintro ⟨dwResult, c', mem', hrun, -⟩
            rw [writeData_letThrough c mem data n hmap hsized hlet] at hrun
            exact absurd hrun (by simp only [reduceCtorEq, not_false_eq_true])
          · -- The sum does not wrap, so the bytes fit and are copied.
            have hnowrap : (curDataSize mem).toNat + n.toNat < 2 ^ 32 := by
              by_contra hwrap
              exact hlet ⟨Nat.le_of_not_lt hwrap, UInt32.not_lt.mp hfit⟩
            exact iff_of_true (writeData_appends c mem data n hmap hsized hlen hnowrap hfit) hlet
      · refine iff_of_false ?_ (fun h => hmap h.1)
        rintro ⟨dwResult, c', mem', hrun, hiff, -⟩
        rw [writeData_unmapped c mem data n hmap, Option.some.injEq] at hrun
        -- The code says that the bytes were appended, without a mapping.
        rcases hiff.mp (Prod.mk.inj hrun).1.symm with ⟨_, _, happ⟩
        exact hmap happ.mapped

/-- What the code of a write says, that of the send says too. -/
theorem sendTells_of_writeTells (c : CWLIPCMmf) (mem : List UInt8)
    (dwEventType dwMsgCode dwDataSize : UInt32) (lpEventData : Option (List UInt8))
    (hptr : ∀ payload, lpEventData = some payload → dwDataSize.toNat ≤ payload.length)
    (hwrap : msgHeaderLen + dwDataSize.toNat < 2 ^ 32)
    (hdata : ¬ (lpEventData = none ∧ dwDataSize > 0))
    (h : WriteTells c mem (UInt32.ofNat (msgHeaderLen + dwDataSize.toNat))
      (some (encode (sentMsg dwEventType dwMsgCode dwDataSize lpEventData)))) :
    SendTells c mem true dwEventType dwMsgCode dwDataSize lpEventData := by
  rcases sendMsgToMmf_writes c mem dwEventType dwMsgCode dwDataSize lpEventData hptr hwrap hdata
    with ⟨hlen, hsend⟩
  rcases h with ⟨dwResult, c', mem', hrun, hiff, hkept⟩
  have hsize : (UInt32.ofNat (msgHeaderLen + dwDataSize.toNat)).toNat
      = msgHeaderLen + dwDataSize.toNat := by
    rw [UInt32.toNat_ofNat']
    exact Nat.mod_eq_of_lt hwrap
  rw [hrun, Option.map_some] at hsend
  refine ⟨_, c', mem', hsend, fun hzero => ?_, fun hne => hkept (fun hzero => ?_)⟩
  · -- The send returns zero for a write that does, and for no other.
    have hresult : dwResult = 0 := by
      by_contra hne
      rw [if_neg hne] at hzero
      exact absurd hzero (by decide)
    rcases hiff.mp hresult with ⟨data, hsame, happ⟩
    rw [← Option.some.inj hsame, hsize, ← hlen, List.take_length] at happ
    exact happ
  · rw [if_pos hzero] at hne
    exact hne rfl

/-- When the code of `SendMsgToMmf` is right. -/
theorem sendMsgToMmf_tells_iff (c : CWLIPCMmf) (mem : List UInt8) (alloc : Bool)
    (dwEventType dwMsgCode dwDataSize : UInt32) (lpEventData : Option (List UInt8))
    (hsized : Sized c mem)
    (hptr : ∀ payload, lpEventData = some payload → dwDataSize.toNat ≤ payload.length) :
    SendTells c mem alloc dwEventType dwMsgCode dwDataSize lpEventData ↔
      alloc = false ∨ (msgHeaderLen + dwDataSize.toNat < 2 ^ 32 ∧
        ((lpEventData = none ∧ dwDataSize > 0) ∨ (c.pMapView = true ∧
          ¬ LetThrough c mem (UInt32.ofNat (msgHeaderLen + dwDataSize.toNat))))) := by
  cases alloc with
  | false =>
      refine iff_of_true ⟨errorInvalidFunction, c, mem, rfl, fun hzero => ?_,
        fun _ => Kept.refl mem⟩ (Or.inl rfl)
      exact absurd hzero (by decide)
  | true =>
      rw [or_iff_right (by decide)]
      by_cases hwrap : msgHeaderLen + dwDataSize.toNat < 2 ^ 32
      · rw [and_iff_right hwrap]
        have hsize : (UInt32.ofNat (msgHeaderLen + dwDataSize.toNat)).toNat
            = msgHeaderLen + dwDataSize.toNat := by
          rw [UInt32.toNat_ofNat']
          exact Nat.mod_eq_of_lt hwrap
        by_cases hdata : lpEventData = none ∧ dwDataSize > 0
        · -- The missing payload is noticed before the container is used.
          have hheader := buildHeader_eq dwMsgCode dwEventType dwDataSize
            (UInt32.ofNat (msgHeaderLen + dwDataSize.toNat)) hsize
          have hrun : sendMsgToMmf c mem true dwEventType dwMsgCode dwDataSize lpEventData
              = some (errorInvalidData, c, mem) := by
            simp only [sendMsgToMmf, Bool.true_eq_false, if_false, hheader, fillData,
              if_pos hdata.2, hdata.1]
          refine iff_of_true ⟨errorInvalidData, c, mem, hrun, fun hzero => ?_,
            fun _ => Kept.refl mem⟩ (Or.inl hdata)
          exact absurd hzero (by decide)
        · rw [or_iff_right hdata]
          rcases sendMsgToMmf_writes c mem dwEventType dwMsgCode dwDataSize lpEventData hptr hwrap
            hdata with ⟨hlen, hsend⟩
          have hwrite := writeData_tells_iff c mem
            (UInt32.ofNat (msgHeaderLen + dwDataSize.toNat))
            (some (encode (sentMsg dwEventType dwMsgCode dwDataSize lpEventData))) hsized (by
              intro data hsame
              refine Nat.le_of_eq ?_
              rw [← Option.some.inj hsame, hsize, hlen])
          rw [or_iff_right (by simp only [reduceCtorEq, not_false_eq_true])] at hwrite
          rw [← hwrite]
          refine ⟨fun htells => hwrite.mpr ?_,
            sendTells_of_writeTells c mem _ _ _ _ hptr hwrap hdata⟩
          rcases htells with ⟨dwResult, c', mem', hrun, happ, -⟩
          rw [hsend] at hrun
          by_cases hmap : c.pMapView = true
          · refine ⟨hmap, fun hlet => ?_⟩
            rw [writeData_letThrough c mem _ _ hmap hsized hlet] at hrun
            exact absurd hrun (by simp only [Option.map_none, reduceCtorEq, not_false_eq_true])
          · -- The write returns zero, and so does the send.
            rw [writeData_unmapped c mem _ _ hmap, Option.map_some, Option.some.injEq] at hrun
            exact absurd (happ (Prod.mk.inj hrun).1.symm).mapped hmap
      · -- The size of the message wraps, and the buffer is too short for its header.
        refine iff_of_false ?_ (fun h => hwrap h.1)
        rintro ⟨dwResult, c', mem', hrun, -⟩
        rw [sendMsgToMmf_wraps c mem _ _ _ _ (Nat.le_of_not_lt hwrap)] at hrun
        exact absurd hrun (by simp only [reduceCtorEq, not_false_eq_true])

/-- Without memory the bytes stay where they are. -/
theorem readData_noMemory (c : CWLIPCMmf) (mem : List UInt8) (out : ReadOut)
    (hmap : c.pMapView = true) (hempty : curDataSize mem ≠ 0) :
    readData c mem false out = some (3, c.failed .catchError, mem,
      { out with pDataBuffer := none }) := by
  simp only [readData, readDataInternal, hmap, Bool.true_eq_false, if_false, if_neg hempty, if_true]
  rfl

/-- When more is pending than the mapping holds, the copy reads past its end. -/
theorem readData_pastEnd (c : CWLIPCMmf) (mem : List UInt8) (out : ReadOut)
    (hmap : c.pMapView = true) (hsized : Sized c mem)
    (hpast : c.dwMmfSize.toNat < (curDataSize mem).toNat) : readData c mem true out = none := by
  have hlen := hsized hmap
  have hempty : curDataSize mem ≠ 0 := by
    intro hzero
    rw [hzero, UInt32.toNat_zero] at hpast
    exact absurd hpast (Nat.not_lt_zero _)
  have hcopy : memcpy (List.replicate (curDataSize mem + 1).toNat 0) 0 (mem.drop 4)
      (curDataSize mem).toNat = none := by
    rw [memcpy, if_neg]
    rw [List.length_drop]
    omega
  simp only [readData, readDataInternal, hmap, Bool.true_eq_false, if_false, if_neg hempty, hcopy]

/-- The code for a view that is not mapped is zero, and nothing was read. -/
theorem readData_unmapped (c : CWLIPCMmf) (mem : List UInt8) (alloc : Bool) (out : ReadOut)
    (hmap : ¬ c.pMapView = true) : ¬ ReadTells c mem alloc out := by
  rintro ⟨dwResult, c', mem', out', hrun, hiff, -⟩
  have hfalse : c.pMapView = false := Bool.eq_false_iff.mpr hmap
  simp only [readData, readDataInternal, if_pos hfalse, Option.some.injEq, Prod.mk.injEq] at hrun
  have hover := hiff.mp hrun.1.symm
  -- The count is still that of some bytes.
  have hpos := hover.nonempty
  have hreset := hover.reset
  rw [← hrun.2.2.1] at hreset
  rw [pending, hreset] at hpos
  exact absurd hpos (Nat.lt_irrefl 0)

/-- When the code of `ReadData` is right. -/
theorem readData_tells_iff (c : CWLIPCMmf) (mem : List UInt8) (alloc : Bool) (out : ReadOut)
    (hsized : Sized c mem) :
    ReadTells c mem alloc out ↔
      c.pMapView = true ∧ (curDataSize mem = 0 ∨ alloc = false ∨
        ((curDataSize mem).toNat ≤ c.dwMmfSize.toNat ∧ (curDataSize mem).toNat + 1 < 2 ^ 32)) := by
  by_cases hmap : c.pMapView = true
  · rw [and_iff_right hmap]
    have hlen := hsized hmap
    -- A call that hands over no buffer has not handed over what is pending.
    have hnot : ∀ out', out'.pDataBuffer = none → ¬ HandedOver mem mem out' := by
      intro out' hnone hover
      exact absurd (hnone.symm.trans hover.buffer) (by
        simp only [reduceCtorEq, not_false_eq_true])
    by_cases hempty : curDataSize mem = 0
    · refine iff_of_true ⟨1, _, mem, _, readData_empty c mem alloc out hmap hempty,
        iff_of_false (by decide) (hnot _ rfl), fun _ => Kept.refl mem⟩ (Or.inl hempty)
    · rw [or_iff_right hempty]
      cases alloc with
      | false =>
          exact iff_of_true ⟨3, _, mem, _, readData_noMemory c mem out hmap hempty,
            iff_of_false (by decide) (hnot _ rfl), fun _ => Kept.refl mem⟩ (Or.inl rfl)
      | true =>
          rw [or_iff_right (by decide)]
          -- One byte more than is pending is allocated, and that sum wraps too.
          by_cases hmax : (curDataSize mem).toNat + 1 < 2 ^ 32
          · rw [and_iff_left hmax]
            by_cases hcount : (curDataSize mem).toNat ≤ c.dwMmfSize.toNat
            · have hholds : Holds c.dwMmfSize mem := ⟨hlen, hcount⟩
              rcases readData_drains c mem out c.dwMmfSize hmap hholds hempty hmax with
                ⟨mem', hrun, -, hreset⟩
              have hpending := length_pending c.dwMmfSize mem hholds
              have hpos : 0 < (pending mem).length := by
                rw [hpending]
                exact Nat.pos_of_ne_zero (fun hzero => hempty (UInt32.toNat_inj.mp hzero))
              exact iff_of_true ⟨0, c, mem', _, hrun,
                iff_of_true rfl ⟨rfl, hpending.symm, hpos, hreset⟩, fun hne => absurd rfl hne⟩
                hcount
            · refine iff_of_false ?_ hcount
              rintro ⟨dwResult, c', mem', out', hrun, -⟩
              rw [readData_pastEnd c mem out hmap hsized (Nat.lt_of_not_le hcount)] at hrun
              exact absurd hrun (by simp only [reduceCtorEq, not_false_eq_true])
          · refine iff_of_false ?_ (fun h => hmax h.2)
            rintro ⟨dwResult, c', mem', out', hrun, -⟩
            rw [readData_overflows c mem out hmap (Nat.le_of_not_lt hmax)] at hrun
            exact absurd hrun (by simp only [reduceCtorEq, not_false_eq_true])
  · exact iff_of_false (readData_unmapped c mem alloc out hmap) (fun h => hmap h.1)

/-- When the codes are right: a write needs a pointer that is null, or a mapped
    view and a sum that is not let through by wrapping; a send, an allocation
    that fails, or a size that does not wrap and either a missing payload or
    what the write needs; a read, a mapped view with nothing pending, or no
    memory for it, or no more than the mapping holds. -/
theorem codes_tell_iff (c : CWLIPCMmf) (mem : List UInt8) (alloc : Bool)
    (dwEventType dwMsgCode dwDataSize : UInt32) (pData : Option (List UInt8)) (out : ReadOut)
    (hsized : Sized c mem) (hptr : ∀ data, pData = some data → dwDataSize.toNat ≤ data.length) :
    (WriteTells c mem dwDataSize pData ↔
        pData = none ∨ (c.pMapView = true ∧ ¬ LetThrough c mem dwDataSize)) ∧
      (SendTells c mem alloc dwEventType dwMsgCode dwDataSize pData ↔
        alloc = false ∨ (msgHeaderLen + dwDataSize.toNat < 2 ^ 32 ∧
          ((pData = none ∧ dwDataSize > 0) ∨ (c.pMapView = true ∧
            ¬ LetThrough c mem (UInt32.ofNat (msgHeaderLen + dwDataSize.toNat)))))) ∧
      (ReadTells c mem alloc out ↔
        c.pMapView = true ∧ (curDataSize mem = 0 ∨ alloc = false ∨
          ((curDataSize mem).toNat ≤ c.dwMmfSize.toNat ∧
            (curDataSize mem).toNat + 1 < 2 ^ 32))) :=
  ⟨writeData_tells_iff c mem dwDataSize pData hsized hptr,
    sendMsgToMmf_tells_iff c mem alloc dwEventType dwMsgCode dwDataSize pData hsized hptr,
    readData_tells_iff c mem alloc out hsized⟩

/-- Three bytes to the container of the default size, and what is there then. -/
theorem codes_tell_threeBytes :
    WriteTells defaultMmf emptyMem 3 (some [7, 8, 9]) ∧
      SendTells defaultMmf emptyMem true 1 1 3 (some [7, 8, 9]) ∧
      ReadTells defaultMmf emptyMem true { dwDataSize := 0, pDataBuffer := none } := by
  have hempty : curDataSize emptyMem = 0 := dwordAt_le32_append 0 _
  have hsmall : ∀ n : UInt32, ¬ LetThrough defaultMmf emptyMem n := by
    intro n hlet
    have hwrap := hlet.1
    have hn := n.toNat_lt
    rw [hempty, UInt32.toNat_zero] at hwrap
    omega
  rcases codes_tell_iff defaultMmf emptyMem true 1 1 3 (some [7, 8, 9])
    { dwDataSize := 0, pDataBuffer := none } (fun _ => emptyMem_holds.length_eq) (by
      intro data hdata
      rw [← Option.some.inj hdata]
      decide) with ⟨hwrite, hsend, hread⟩
  exact ⟨hwrite.mpr (Or.inr ⟨rfl, hsmall _⟩),
    hsend.mpr (Or.inr ⟨by decide, Or.inr ⟨rfl, hsmall _⟩⟩), hread.mpr ⟨rfl, Or.inl hempty⟩⟩

/-- A container whose mapping failed. -/
def unmappedMmf : CWLIPCMmf :=
  { dwErrorCode := 0, hMff := false, pMapView := false, dwMmfSize := 0, hMutex := true }

/-- A byte written to it is reported written, and the bytes read from it are
    reported read. -/
theorem codes_lie :
    ¬ ∀ (c : CWLIPCMmf) (mem : List UInt8) (alloc : Bool)
      (dwEventType dwMsgCode dwDataSize : UInt32) (pData : Option (List UInt8)) (out : ReadOut),
      Sized c mem → (∀ data, pData = some data → dwDataSize.toNat ≤ data.length) →
      WriteTells c mem dwDataSize pData ∧
        SendTells c mem alloc dwEventType dwMsgCode dwDataSize pData ∧
        ReadTells c mem alloc out := by
  intro hall
  have hunmapped : ¬ unmappedMmf.pMapView = true := Bool.false_ne_true
  rcases hall unmappedMmf emptyMem true 1 1 1 (some [7]) { dwDataSize := 0, pDataBuffer := none }
    (fun hmap => absurd hmap hunmapped) (by
      intro data hdata
      rw [← Option.some.inj hdata]
      decide) with ⟨⟨dwResult, c', mem', hrun, hiff, -⟩, -⟩
  rw [writeData_unmapped unmappedMmf emptyMem [7] 1 hunmapped, Option.some.injEq] at hrun
  rcases hiff.mp (Prod.mk.inj hrun).1.symm with ⟨_, _, happ⟩
  exact hunmapped happ.mapped

end Ipc

end Defender
