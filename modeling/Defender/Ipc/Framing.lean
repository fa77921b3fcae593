import Defender.Ipc.Service

/-!
# What the Splitting Loop Reads

The loop of `GetMessageThread` checks that a header fits in the batch and never
that the data behind it does. So a batch is read within its bounds exactly when
its bytes already are whole frames, followed by too few bytes for another
header; any other batch makes the loop queue a message that reaches past what
was read.

`WellFramed` is that condition, a property of the bytes alone. `BatchSafe` is
about the loop: however many iterations it makes, what it has queued lies
inside the batch, does not overlap, and gives the system-log component a string
it can build. The loop need not terminate on every batch, which is why the
statement is over every number of iterations.

## Main definitions

* `WellFramed`: Whole frames and a rest shorter than a header.
* `IpcMsgPtr.Inside`: A message lies inside the received bytes.
* `BatchSafe`: Everything the loop queues is inside and disjoint.

## Theorems

* `encode_msgAt`: A message inside the batch is the bytes it covers.
* `inserted_of_frames`: On whole frames the loop stays inside.
* `wellFramed_of_inside`: A loop that stays inside has whole frames.
* `length_of_readData`: A batch has the length it is said to have.
* `batchSafe_iff_wellFramed`: Safe exactly when well framed.
* `batchSafe_truncated`: One header that promises a byte which is not there.
-/

namespace Defender

namespace Ipc

open Wire

/-- Whole frames, then fewer bytes than a header. -/
def WellFramed (buffer : List UInt8) : Prop :=
  ∃ fs tail, buffer = encodeAll fs ++ tail ∧ tail.length < msgHeaderLen

/-- One past the last byte of the message. -/
def IpcMsgPtr.stop (p : IpcMsgPtr) : Nat :=
  p.offset + msgHeaderLen + p.msg.dwSize.toNat

/-- The header and the data lie inside the received bytes. -/
def IpcMsgPtr.Inside (dwSize : UInt32) (p : IpcMsgPtr) : Prop :=
  p.stop ≤ dwSize.toNat

/-- Two messages share no byte. -/
def IpcMsgPtr.Disjoint (p q : IpcMsgPtr) : Prop :=
  p.stop ≤ q.offset ∨ q.stop ≤ p.offset

/-- After any number of iterations, everything queued is inside the batch, no
    two of them overlap, and the string the system-log component builds from
    each reads received bytes only. -/
def BatchSafe (pMsgData : List UInt8) (dwSize : UInt32) : Prop :=
  ∀ n, (∀ p ∈ inserted n pMsgData dwSize 0,
      p.Inside dwSize ∧ (systemLogDispatch dwSize p).isSome) ∧
    (inserted n pMsgData dwSize 0).Pairwise IpcMsgPtr.Disjoint

/-- A message inside the buffer is the bytes it covers. -/
theorem encode_msgAt (buffer : List UInt8) (d : Nat)
    (h : d + msgHeaderLen + (msgAt buffer d).dwSize.toNat ≤ buffer.length) :
    encode (msgAt buffer d) = slice buffer d (msgHeaderLen + (msgAt buffer d).dwSize.toNat) := by
  have hhead : msgHeaderLen = 4 + 4 + 4 := rfl
  rw [hhead, slice_add, slice_add, slice_add]
  simp only [encode, msgAt, msgHeaderLen]
  rw [le32_dwordAt buffer d (by omega), le32_dwordAt buffer (d + 4) (by omega),
    le32_dwordAt buffer (d + 8) (by omega)]

/-- On whole frames the loop queues messages that lie inside the batch, from
    `dwSizeDone` on and one behind the other. Induction on the iterations,
    with the bytes not yet split as whole frames. -/
theorem inserted_of_frames (pMsgData tail : List UInt8) (dwSize : UInt32)
    (hsize : dwSize.toNat = pMsgData.length) (htail : tail.length < msgHeaderLen) :
    ∀ (n : Nat) (fs : List Frame) (d : UInt32), d.toNat ≤ dwSize.toNat →
      pMsgData.drop d.toNat = encodeAll fs ++ tail →
        (∀ p ∈ inserted n pMsgData dwSize d, d.toNat ≤ p.offset ∧ p.Inside dwSize) ∧
        (inserted n pMsgData dwSize d).Pairwise (fun p q => p.stop ≤ q.offset) := by
  intro n
  induction n with
  | zero =>
      intro fs d _ _
      exact ⟨fun p hp => absurd hp List.not_mem_nil, List.Pairwise.nil⟩
  | succ k ih =>
      intro fs d hd hrest
      cases fs with
      | nil =>
          -- What is left is too short for a header, and the loop ends.
          have hlen := congrArg List.length hrest
          rw [List.length_drop, encodeAll, List.map_nil, List.flatten_nil, List.nil_append] at hlen
          rw [inserted, splitStep_short _ _ _ (by omega)]
          exact ⟨fun p hp => absurd hp List.not_mem_nil, List.Pairwise.nil⟩
      | cons f fs =>
          rw [encodeAll_cons, List.append_assoc] at hrest
          rcases splitStep_frame pMsgData (encodeAll fs ++ tail) dwSize d f hsize hrest with
            ⟨next, hsplit, hnext, hle, hdrop, hmsg⟩
          rcases ih fs next hle hdrop with ⟨hin, hpair⟩
          have hstop : (IpcMsgPtr.mk pMsgData d.toNat).stop = next.toNat := by
            rw [IpcMsgPtr.stop, IpcMsgPtr.msg, hmsg, hnext, Nat.add_assoc]
          rw [inserted, hsplit]
          refine ⟨fun p hp => ?_, List.pairwise_cons.mpr ⟨fun q hq => ?_, hpair⟩⟩
          · rcases List.mem_cons.mp hp with rfl | hp
            · exact ⟨Nat.le_refl _, by rw [IpcMsgPtr.Inside, hstop]; exact hle⟩
            · exact ⟨by have := (hin p hp).1; omega, (hin p hp).2⟩
          · rw [hstop]
            exact (hin q hq).1

/-- A loop that stays inside the batch has whole frames in front of it.
    Induction on the bytes not yet split: the message it queues is a frame,
    because the bytes its size promises are there. -/
theorem wellFramed_of_inside (pMsgData : List UInt8) (dwSize : UInt32)
    (hsize : dwSize.toNat = pMsgData.length) :
    ∀ (left : Nat) (d : UInt32), pMsgData.length - d.toNat = left → d.toNat ≤ dwSize.toNat →
      (∀ n, ∀ p ∈ inserted n pMsgData dwSize d, p.Inside dwSize) →
        WellFramed (pMsgData.drop d.toNat) := by
  intro left
  induction left using Nat.strongRecOn with
  | ind left ih =>
    intro d hleft hd hin
    have hhead : msgHeaderLen = 12 := rfl
    by_cases hshort : dwSize.toNat < d.toNat + msgHeaderLen
    · refine ⟨[], pMsgData.drop d.toNat, rfl, ?_⟩
      rw [List.length_drop]
      omega
    · -- The loop queues the message at `d`, and it lies inside.
      have hsplit : splitStep pMsgData dwSize d
          = some ({ buffer := pMsgData, offset := d.toNat },
            UInt32.ofNat (d.toNat + (msgHeaderLen + (msgAt pMsgData d.toNat).dwSize.toNat))) := by
        unfold splitStep
        rw [if_pos (by omega)]
        rfl
      have hfirst : (IpcMsgPtr.mk pMsgData d.toNat).Inside dwSize := by
        refine hin 1 _ ?_
        rw [inserted, hsplit]
        exact List.mem_cons_self
      rw [IpcMsgPtr.Inside, IpcMsgPtr.stop, IpcMsgPtr.msg] at hfirst
      simp only at hfirst
      have hlt := dwSize.toNat_lt
      have hnext : (UInt32.ofNat (d.toNat
          + (msgHeaderLen + (msgAt pMsgData d.toNat).dwSize.toNat))).toNat
          = d.toNat + (msgHeaderLen + (msgAt pMsgData d.toNat).dwSize.toNat) := by
        rw [UInt32.toNat_ofNat']
        exact Nat.mod_eq_of_lt (by omega)
      have hrest := ih _ (by omega) (UInt32.ofNat (d.toNat
          + (msgHeaderLen + (msgAt pMsgData d.toNat).dwSize.toNat))) rfl (by omega)
        (fun n p hp => hin (n + 1) p (by
          rw [inserted, hsplit]
          exact List.mem_cons_of_mem _ hp))
      rcases hrest with ⟨fs, tail, hfs, htail⟩
      -- The bytes of the message are those of a frame, and behind it the loop goes on.
      have hbytes := encode_msgAt pMsgData d.toNat (by omega)
      have hdata : (msgAt pMsgData d.toNat).data.length
          = (msgAt pMsgData d.toNat).dwSize.toNat := by
        have hlen := congrArg List.length hbytes
        rw [length_encode, length_slice _ _ _ (by omega)] at hlen
        omega
      let f : Frame := { msgAt pMsgData d.toNat with size_eq := hdata }
      refine ⟨f :: fs, tail, ?_, htail⟩
      have hcut : pMsgData.drop d.toNat
          = slice pMsgData d.toNat (msgHeaderLen + (msgAt pMsgData d.toNat).dwSize.toNat)
            ++ pMsgData.drop (d.toNat
              + (msgHeaderLen + (msgAt pMsgData d.toNat).dwSize.toNat)) := by
        rw [slice, ← List.drop_drop, List.take_append_drop]
      rw [hcut, ← hbytes, ← hnext, hfs, encodeAll_cons, List.append_assoc]

/-- A batch handed over has the length it is said to have. -/
theorem length_of_readData (c c' : CWLIPCMmf) (mem mem' pMsgData : List UInt8) (alloc : Bool)
    (dwResult dwSize : UInt32)
    (hread : readData c mem alloc { dwDataSize := 0, pDataBuffer := none }
      = some (dwResult, c', mem', { dwDataSize := dwSize, pDataBuffer := some pMsgData })) :
    dwSize.toNat = pMsgData.length := by
  unfold readData readDataInternal at hread
  by_cases hmap : c.pMapView = false
  · simp only [hmap, if_true, Option.some.injEq, Prod.mk.injEq, ReadOut.mk.injEq, reduceCtorEq,
      and_false] at hread
  · by_cases hzero : curDataSize mem = 0
    · simp only [if_neg hmap, if_pos hzero, Option.some.injEq, Prod.mk.injEq, ReadOut.mk.injEq,
        reduceCtorEq, and_false] at hread
    · by_cases halloc : alloc = false
      · simp only [if_neg hmap, if_neg hzero, if_pos halloc, Option.some.injEq, Prod.mk.injEq,
          ReadOut.mk.injEq, reduceCtorEq, and_false] at hread
      · -- The only path on which a buffer is handed out: it has the size that was read.
        simp only [if_neg hmap, if_neg hzero, if_neg halloc] at hread
        cases hcopy : memcpy (List.replicate (curDataSize mem + 1).toNat 0) 0 (mem.drop 4)
            (curDataSize mem).toNat with
        | none =>
            rw [hcopy] at hread
            exact absurd hread (by simp only [reduceCtorEq, not_false_eq_true])
        | some buffer =>
            rw [hcopy] at hread
            simp only [Option.some.injEq, Prod.mk.injEq, ReadOut.mk.injEq] at hread
            rcases hread with ⟨_, _, _, hsize, hbuf⟩
            rcases (memcpy_eq_some _ _ _ _ _).mp hcopy with ⟨hsrc, hdst, hout⟩
            have hlen : buffer.length = (List.replicate (curDataSize mem + 1).toNat
                (0 : UInt8)).length := by
              rw [hout, length_poke]
              rw [List.length_take]
              omega
            rw [← hsize, ← hbuf, List.length_take]
            omega

/-- For every batch `ReadData` hands over, the loop reads inside it and queues
    disjoint messages exactly when the batch is well framed. -/
theorem batchSafe_iff_wellFramed (c c' : CWLIPCMmf) (mem mem' pMsgData : List UInt8) (alloc : Bool)
    (dwSize : UInt32)
    (hread : readData c mem alloc { dwDataSize := 0, pDataBuffer := none }
      = some (0, c', mem', { dwDataSize := dwSize, pDataBuffer := some pMsgData })) :
    BatchSafe pMsgData dwSize ↔ WellFramed pMsgData := by
  have hsize := length_of_readData c c' mem mem' pMsgData alloc 0 dwSize hread
  constructor
  · intro hsafe
    -- The loop begins at the first byte of the batch.
    have h := wellFramed_of_inside pMsgData dwSize hsize _ 0 rfl (Nat.zero_le _)
      (fun n p hp => ((hsafe n).1 p hp).1)
    rwa [UInt32.toNat_zero, List.drop_zero] at h
  · rintro ⟨fs, tail, hfs, htail⟩ n
    rcases inserted_of_frames pMsgData tail dwSize hsize htail n fs 0 (Nat.zero_le _) hfs with
      ⟨hin, hpair⟩
    refine ⟨fun p hp => ⟨(hin p hp).2, ?_⟩, hpair.imp fun h => Or.inl h⟩
    have hstop := (hin p hp).2
    rw [IpcMsgPtr.Inside, IpcMsgPtr.stop] at hstop
    rw [systemLogDispatch, if_pos hstop]
    rfl

/-- A container of sixteen bytes holding one header that promises a byte of
    data which is not there. -/
def truncatedMem : List UInt8 :=
  le32 12 ++ (le32 1 ++ le32 2 ++ le32 1) ++ [0, 0, 0, 0]

/-- The container the service maps over that buffer. -/
def truncatedMmf : CWLIPCMmf :=
  { dwErrorCode := 0, hMff := true, pMapView := true, dwMmfSize := 16, hMutex := true }

/-- `ReadData` hands the header over, the loop queues it, and the message
    reaches past the batch. -/
theorem batchSafe_truncated :
    readData truncatedMmf truncatedMem true { dwDataSize := 0, pDataBuffer := none }
        = some (0, truncatedMmf, poke truncatedMem 0 (le32 0),
            { dwDataSize := 12, pDataBuffer := some (le32 1 ++ le32 2 ++ le32 1) }) ∧
      ¬ BatchSafe (le32 1 ++ le32 2 ++ le32 1) 12 := by
  refine ⟨by decide +kernel, fun hsafe => ?_⟩
  have hmem : IpcMsgPtr.mk (le32 1 ++ le32 2 ++ le32 1) 0
      ∈ inserted 1 (le32 1 ++ le32 2 ++ le32 1) 12 0 := by decide +kernel
  have hin := ((hsafe 1).1 _ hmem).1
  exact absurd hin (by rw [IpcMsgPtr.Inside]; decide +kernel)

/-- A batch of one whole message of three bytes is split within its bounds. -/
theorem batchSafe_wholeMessage :
    BatchSafe (le32 1 ++ le32 2 ++ le32 3 ++ [7, 8, 9]) 15 := by
  refine (batchSafe_iff_wellFramed truncatedMmf truncatedMmf
    (le32 15 ++ (le32 1 ++ le32 2 ++ le32 3 ++ [7, 8, 9]) ++ [0])
    (poke (le32 15 ++ (le32 1 ++ le32 2 ++ le32 3 ++ [7, 8, 9]) ++ [0]) 0 (le32 0)) _ true 15
    (by decide +kernel)).mpr ?_
  exact ⟨[{ dwMsgCode := 1, dwEventType := 2, dwSize := 3, data := [7, 8, 9], size_eq := rfl }], [],
    rfl, by decide⟩

end Ipc

end Defender
