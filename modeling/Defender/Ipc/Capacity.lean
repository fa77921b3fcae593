import Defender.Ipc.Message

/-!
# Sizes and the Capacity of the Container

`SendMsgToMmf` and `WriteData` add DWORDs before they compare: the header to
the payload, and what is pending to what is to be written. Both sums wrap, and
a sum that wraps is small, so the test against the capacity lets through what
it was to keep out.

Up to 2^32 the two calls are exact: they succeed when the bytes fit and fail
when they do not, every copy stays inside its buffer, and the count stays
within the capacity. From there on a copy of four gigabytes leaves the message
buffer or the mapping.

## Main definitions

* `WriteExact`, `SendExact`: What a call of each kind is to do.

## Theorems

* `writeData_wraps`: A wrapped sum is let through, and the copy leaves the
  mapping.
* `sendMsgToMmf_wraps`: A wrapped message size is too small for a header.
* `sendMsgToMmf_writes`, `sendMsgToMmf_eq`: A send whose message size does not wrap
  writes the encoded message.
* `sizes_exact_iff`: The calls are exact below 2^32, and only there.
* `send_overruns`: A payload of 2^32 - 12 bytes.
-/

namespace Defender

namespace Ipc

open Wire

/-- A write succeeds when the bytes fit, stays inside the mapping, and leaves a
    count within the capacity. -/
def WriteExact (c : CWLIPCMmf) (mem data : List UInt8) (dwDataSize : UInt32) : Prop :=
  ∃ dwResult c' mem', writeData c mem dwDataSize (some data) = some (dwResult, c', mem') ∧
    (dwResult = 0 ↔ dwDataSize.toNat + (curDataSize mem).toNat ≤ c.dwMmfSize.toNat) ∧
    Holds c.dwMmfSize mem'

/-- A send succeeds when header and payload fit, stays inside the message
    buffer and the mapping, and leaves a count within the capacity. -/
def SendExact (c : CWLIPCMmf) (mem : List UInt8) (dwEventType dwMsgCode dwDataSize : UInt32)
    (payload : List UInt8) : Prop :=
  ∃ dwResult c' mem',
    sendMsgToMmf c mem true dwEventType dwMsgCode dwDataSize (some payload)
        = some (dwResult, c', mem') ∧
      (dwResult = 0 ↔
        msgHeaderLen + dwDataSize.toNat + (curDataSize mem).toNat ≤ c.dwMmfSize.toNat) ∧
      Holds c.dwMmfSize mem'

/-- A sum that wraps is within every capacity that holds what is pending, and
    the copy leaves the mapping. -/
theorem writeData_wraps (c : CWLIPCMmf) (mem data : List UInt8) (n : UInt32)
    (hmap : c.pMapView = true) (h : Holds c.dwMmfSize mem)
    (hwrap : 2 ^ 32 ≤ (curDataSize mem).toNat + n.toNat) :
    writeData c mem n (some data) = none := by
  have hcap := c.dwMmfSize.toNat_lt
  have hn := n.toNat_lt
  have hlen := h.length_eq
  have hcount := h.count_le
  -- The sum that wrapped is small, so the comparison lets it through.
  have hfit : ¬ curDataSize mem + n > c.dwMmfSize := by
    rw [gt_iff_lt, UInt32.lt_iff_toNat_lt, UInt32.toNat_add]
    omega
  -- The copy itself is of all the bytes, and they do not fit.
  have hcopy : memcpy mem (4 + (curDataSize mem).toNat) data n.toNat = none := by
    rw [memcpy, if_neg]
    omega
  simp only [writeData, writeDataInternal, hmap, Bool.true_eq_false, if_false, if_neg hfit, hcopy]

/-- Below 2^32 a write is exact. -/
theorem writeData_exact (c : CWLIPCMmf) (mem data : List UInt8) (n : UInt32)
    (hmap : c.pMapView = true) (h : Holds c.dwMmfSize mem) (hlen : n.toNat ≤ data.length)
    (hwrap : (curDataSize mem).toNat + n.toNat < 2 ^ 32) : WriteExact c mem data n := by
  by_cases hroom : (curDataSize mem).toNat + n.toNat ≤ c.dwMmfSize.toNat
  · rcases writeData_accepts c mem data n hmap h hlen hroom with ⟨mem', hrun, hholds, -⟩
    exact ⟨0, c, mem', hrun, iff_of_true rfl (by omega), hholds⟩
  · have hrun := writeData_rejects c mem data n hmap hwrap (by omega)
    exact ⟨1, _, mem, hrun, iff_of_false (by decide) (by omega), h⟩

/-- A message size that wraps leaves a buffer too small for its header. -/
theorem sendMsgToMmf_wraps (c : CWLIPCMmf) (mem : List UInt8)
    (dwEventType dwMsgCode dwDataSize : UInt32) (lpEventData : Option (List UInt8))
    (hwrap : 2 ^ 32 ≤ msgHeaderLen + dwDataSize.toNat) :
    sendMsgToMmf c mem true dwEventType dwMsgCode dwDataSize lpEventData = none := by
  have hhead : msgHeaderLen = 12 := rfl
  have hlt := dwDataSize.toNat_lt
  have hsize : (UInt32.ofNat (msgHeaderLen + dwDataSize.toNat)).toNat
      = msgHeaderLen + dwDataSize.toNat - 2 ^ 32 := by
    rw [UInt32.toNat_ofNat']
    omega
  -- Fewer than 12 bytes are left of the size.
  have hheader : buildHeader dwMsgCode dwEventType dwDataSize
      (UInt32.ofNat (msgHeaderLen + dwDataSize.toNat)) = none := by
    rw [buildHeader, if_neg]
    omega
  simp only [sendMsgToMmf, Bool.true_eq_false, if_false, hheader]

/-- A send that gets as far as the container writes the encoded message, and
    returns zero when the write does. -/
theorem sendMsgToMmf_writes (c : CWLIPCMmf) (mem : List UInt8)
    (dwEventType dwMsgCode dwDataSize : UInt32) (lpEventData : Option (List UInt8))
    (hptr : ∀ payload, lpEventData = some payload → dwDataSize.toNat ≤ payload.length)
    (hwrap : msgHeaderLen + dwDataSize.toNat < 2 ^ 32)
    (hdata : ¬ (lpEventData = none ∧ dwDataSize > 0)) :
    (encode (sentMsg dwEventType dwMsgCode dwDataSize lpEventData)).length
        = msgHeaderLen + dwDataSize.toNat ∧
      sendMsgToMmf c mem true dwEventType dwMsgCode dwDataSize lpEventData
        = (writeData c mem (UInt32.ofNat (msgHeaderLen + dwDataSize.toNat))
            (some (encode (sentMsg dwEventType dwMsgCode dwDataSize lpEventData)))).map
          (fun r => (if r.1 = 0 then 0 else errorWriteFault, r.2)) := by
  have hsize : (UInt32.ofNat (msgHeaderLen + dwDataSize.toNat)).toNat
      = msgHeaderLen + dwDataSize.toNat := by
    rw [UInt32.toNat_ofNat']
    exact Nat.mod_eq_of_lt hwrap
  have hheader := buildHeader_eq dwMsgCode dwEventType dwDataSize
    (UInt32.ofNat (msgHeaderLen + dwDataSize.toNat)) hsize
  rcases fillData_eq dwMsgCode dwEventType dwDataSize lpEventData hptr _ rfl with
    hnone | ⟨hfill, hlen⟩
  · -- Only a null pointer to a payload that is due leaves the buffer unfilled.
    refine absurd ?_ hdata
    unfold fillData at hnone
    split at hnone
    · rename_i hpos
      cases lpEventData with
      | none => exact ⟨rfl, hpos⟩
      | some payload =>
          rcases Option.map_eq_some_iff.mp hnone with ⟨p, -, hp⟩
          exact absurd hp (by simp only [reduceCtorEq, not_false_eq_true])
    · exact absurd hnone (by simp only [Option.some.injEq, reduceCtorEq, not_false_eq_true])
  · refine ⟨by rw [length_encode, hlen], ?_⟩
    simp only [sendMsgToMmf, Bool.true_eq_false, if_false, hheader, hfill]
    cases writeData c mem (UInt32.ofNat (msgHeaderLen + dwDataSize.toNat))
      (some (encode (sentMsg dwEventType dwMsgCode dwDataSize lpEventData))) with
    | none => rfl
    | some r => rfl

/-- With a message size that does not wrap a send writes the encoded message,
    and its result is zero when that of the write is. -/
theorem sendMsgToMmf_eq (c : CWLIPCMmf) (mem : List UInt8)
    (dwEventType dwMsgCode dwDataSize : UInt32) (payload : List UInt8)
    (hlen : payload.length = dwDataSize.toNat)
    (hwrap : msgHeaderLen + dwDataSize.toNat < 2 ^ 32) :
    ∃ msg, msg.length = msgHeaderLen + dwDataSize.toNat ∧
      sendMsgToMmf c mem true dwEventType dwMsgCode dwDataSize (some payload)
        = (writeData c mem (UInt32.ofNat (msgHeaderLen + dwDataSize.toNat)) (some msg)).map
          (fun r => (if r.1 = 0 then 0 else errorWriteFault, r.2)) := by
  have hptr : ∀ p, some payload = some p → dwDataSize.toNat ≤ p.length := by
    intro p hp
    rw [← Option.some.inj hp]
    exact Nat.le_of_eq hlen.symm
  exact ⟨_, sendMsgToMmf_writes c mem dwEventType dwMsgCode dwDataSize (some payload) hptr hwrap
    (fun h => absurd h.1 (by simp only [reduceCtorEq, not_false_eq_true]))⟩

/-- Both calls are exact below 2^32, and only there. -/
theorem sizes_exact_iff (c : CWLIPCMmf) (mem payload : List UInt8)
    (dwEventType dwMsgCode dwDataSize : UInt32) (hmap : c.pMapView = true)
    (h : Holds c.dwMmfSize mem) (hlen : payload.length = dwDataSize.toNat) :
    (SendExact c mem dwEventType dwMsgCode dwDataSize payload ↔
        msgHeaderLen + dwDataSize.toNat + (curDataSize mem).toNat < 2 ^ 32) ∧
      (WriteExact c mem payload dwDataSize ↔
        dwDataSize.toNat + (curDataSize mem).toNat < 2 ^ 32) := by
  refine ⟨⟨fun hexact => ?_, fun hwrap => ?_⟩, ⟨fun hexact => ?_, fun hwrap => ?_⟩⟩
  · rcases hexact with ⟨dwResult, c', mem', hrun, -, -⟩
    by_contra hwrap
    by_cases hsize : 2 ^ 32 ≤ msgHeaderLen + dwDataSize.toNat
    · rw [sendMsgToMmf_wraps c mem _ _ _ _ hsize] at hrun
      exact absurd hrun (by simp only [reduceCtorEq, not_false_eq_true])
    · -- The message is built, and its write wraps.
      rcases sendMsgToMmf_eq c mem dwEventType dwMsgCode dwDataSize payload hlen (by omega) with
        ⟨msg, -, hsend⟩
      have hmsg : (UInt32.ofNat (msgHeaderLen + dwDataSize.toNat)).toNat
          = msgHeaderLen + dwDataSize.toNat := by
        rw [UInt32.toNat_ofNat']
        exact Nat.mod_eq_of_lt (by omega)
      rw [hsend, writeData_wraps c mem msg _ hmap h (by omega)] at hrun
      exact absurd hrun (by simp only [Option.map_none, reduceCtorEq, not_false_eq_true])
  · rcases sendMsgToMmf_eq c mem dwEventType dwMsgCode dwDataSize payload hlen (by omega) with
      ⟨msg, hmsglen, hsend⟩
    have hmsg : (UInt32.ofNat (msgHeaderLen + dwDataSize.toNat)).toNat
        = msgHeaderLen + dwDataSize.toNat := by
      rw [UInt32.toNat_ofNat']
      exact Nat.mod_eq_of_lt (by omega)
    rcases writeData_exact c mem msg (UInt32.ofNat (msgHeaderLen + dwDataSize.toNat)) hmap h
      (by omega) (by omega) with ⟨dwResult, c', mem', hrun, hiff, hholds⟩
    rw [hrun, Option.map_some] at hsend
    rw [hmsg] at hiff
    refine ⟨_, c', mem', hsend, ?_, hholds⟩
    -- The send reports every failure of the write by one code.
    rw [← hiff]
    by_cases hzero : dwResult = 0
    · rw [if_pos hzero]
      exact iff_of_true rfl hzero
    · rw [if_neg hzero]
      exact iff_of_false (by decide) hzero
  · rcases hexact with ⟨dwResult, c', mem', hrun, -, -⟩
    by_contra hwrap
    rw [writeData_wraps c mem payload dwDataSize hmap h (by omega)] at hrun
    exact absurd hrun (by simp only [reduceCtorEq, not_false_eq_true])
  · exact writeData_exact c mem payload dwDataSize hmap h (Nat.le_of_eq hlen.symm) (by omega)

/-- A container of the default size. -/
def defaultMmf : CWLIPCMmf :=
  { dwErrorCode := 0, hMff := true, pMapView := true, dwMmfSize := defaultMmfBufferSize
    hMutex := true }

/-- Its mapping with nothing pending. -/
def emptyMem : List UInt8 :=
  le32 0 ++ List.replicate 65536 0

theorem emptyMem_holds : Holds defaultMmf.dwMmfSize emptyMem := by
  have hcount : curDataSize emptyMem = 0 := dwordAt_le32_append 0 _
  refine ⟨?_, ?_⟩
  · rw [emptyMem, List.length_append, length_le32, List.length_replicate]
    rfl
  · rw [hcount]
    exact Nat.zero_le _

/-- A payload of 2^32 - 12 bytes makes a message of none, whose buffer does not
    hold the header that is written to it. -/
theorem send_overruns :
    defaultMmf.pMapView = true ∧ Holds defaultMmf.dwMmfSize emptyMem ∧
      (List.replicate 4294967284 (0 : UInt8)).length = (4294967284 : UInt32).toNat ∧
      ¬ SendExact defaultMmf emptyMem 1 1 4294967284 (List.replicate 4294967284 0) := by
  refine ⟨rfl, emptyMem_holds, List.length_replicate, ?_⟩
  rintro ⟨dwResult, c', mem', hrun, -, -⟩
  rw [sendMsgToMmf_wraps defaultMmf emptyMem 1 1 4294967284 _ (by decide)] at hrun
  exact absurd hrun (by simp only [reduceCtorEq, not_false_eq_true])

/-- A payload of three bytes fits. -/
theorem sizes_exact_threeBytes :
    SendExact defaultMmf emptyMem 1 1 3 [7, 8, 9] ∧ WriteExact defaultMmf emptyMem [7, 8, 9] 3 := by
  have hcount : (curDataSize emptyMem).toNat = 0 := congrArg UInt32.toNat (dwordAt_le32_append 0 _)
  rcases sizes_exact_iff defaultMmf emptyMem [7, 8, 9] 1 1 3 rfl emptyMem_holds rfl with
    ⟨hsend, hwrite⟩
  rw [hcount] at hsend hwrite
  exact ⟨hsend.mpr (by decide), hwrite.mpr (by decide)⟩

end Ipc

end Defender
