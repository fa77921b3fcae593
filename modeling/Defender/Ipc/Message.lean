import Defender.Ipc.Mmf

/-!
# Messages and Their Sender

The frame `IPC_MSG_DATA`, and `CWLMessageSender::SendMsgToMmf`, which builds
one and writes it to the container.

A frame is twelve header bytes, three DWORDs, followed by the data the third
of them measures. Nothing delimits frames: a run of them can only be taken
apart by following the sizes, which `framesIn` does. `framesIn_encode` says
that following the sizes recovers exactly what was written, provided every
frame's size field is the length of its data. That proviso is the field
`size_eq` of `Frame`, so a frame that lies about its size cannot be built.

## Main definitions

* `IpcMsgData`: The fields of a message.
* `Frame`: A message whose size field measures its data.
* `encode`: The bytes of a message.
* `msgAt`: The message a pointer into a buffer shows.
* `framesIn`: A buffer taken apart by its size fields.
* `buildHeader`, `fillData`, `sendMsgToMmf`: The sender.
* `sentMsg`: The message a send describes.

## Theorems

* `msgAt_encode`: A written frame reads back.
* `framesIn_encode`: So does a run of frames.
* `fillData_eq`: The buffer the sender fills is the encoded message.
* `sendMsgToMmf_spec`: What every send does, by its result.
-/

namespace Defender

namespace Ipc

open Wire

/-- `IPC_MSG_DATA_HEADNER_LEN`. -/
def msgHeaderLen : Nat := 3 * 4

/-- `IPC_MSG_DATA`. -/
@[ext] structure IpcMsgData where
  dwMsgCode : UInt32
  dwEventType : UInt32
  dwSize : UInt32
  data : List UInt8
  deriving DecidableEq, Repr

/-- A message whose size field is the length of its data. -/
structure Frame extends IpcMsgData where
  size_eq : data.length = dwSize.toNat

/-- The bytes of a message, in the order of the struct's fields. -/
def encode (m : IpcMsgData) : List UInt8 :=
  le32 m.dwMsgCode ++ le32 m.dwEventType ++ le32 m.dwSize ++ m.data

/-- The message an `IPC_MSG_DATA*` into a buffer shows. -/
def msgAt (buffer : List UInt8) (offset : Nat) : IpcMsgData :=
  { dwMsgCode := dwordAt buffer offset
    dwEventType := dwordAt buffer (offset + 4)
    dwSize := dwordAt buffer (offset + 8)
    data := slice buffer (offset + msgHeaderLen) (dwordAt buffer (offset + 8)).toNat }

/-- Take at most `n` frames off a buffer by following the size fields. -/
def framesFrom : Nat → List UInt8 → List IpcMsgData
  | 0, _ => []
  | n + 1, buffer =>
      if msgHeaderLen ≤ buffer.length then
        msgAt buffer 0 :: framesFrom n (buffer.drop (msgHeaderLen + (dwordAt buffer 8).toNat))
      else []

/-- The frames of a buffer. A frame takes at least twelve bytes, so the
    buffer's length is fuel enough. -/
def framesIn (buffer : List UInt8) : List IpcMsgData :=
  framesFrom buffer.length buffer

/-- The bytes of a run of frames. -/
def encodeAll (fs : List Frame) : List UInt8 :=
  (fs.map fun f => encode f.toIpcMsgData).flatten

theorem length_encode (m : IpcMsgData) : (encode m).length = msgHeaderLen + m.data.length := by
  simp only [encode, List.length_append, length_le32, msgHeaderLen]

theorem encodeAll_cons (f : Frame) (fs : List Frame) :
    encodeAll (f :: fs) = encode f.toIpcMsgData ++ encodeAll fs := rfl

theorem encodeAll_append (fs gs : List Frame) :
    encodeAll (fs ++ gs) = encodeAll fs ++ encodeAll gs := by
  simp only [encodeAll, List.map_append, List.flatten_append]

/-- The header of an encoded message reads back, whatever follows. -/
theorem header_encode (m : IpcMsgData) (t : List UInt8) :
    dwordAt (encode m ++ t) 0 = m.dwMsgCode ∧ dwordAt (encode m ++ t) 4 = m.dwEventType ∧
      dwordAt (encode m ++ t) 8 = m.dwSize := by
  have h4 := dwordAt_append_right (le32 m.dwMsgCode)
    (le32 m.dwEventType ++ (le32 m.dwSize ++ (m.data ++ t))) 0
  have h8 := dwordAt_append_right (le32 m.dwMsgCode ++ le32 m.dwEventType)
    (le32 m.dwSize ++ (m.data ++ t)) 0
  rw [dwordAt_le32_append] at h4 h8
  simp only [encode, List.append_assoc]
  simp only [List.append_assoc] at h8
  exact ⟨dwordAt_le32_append _ _, h4, h8⟩

/-- A written frame reads back. -/
theorem msgAt_encode (f : Frame) (t : List UInt8) :
    msgAt (encode f.toIpcMsgData ++ t) 0 = f.toIpcMsgData := by
  rcases header_encode f.toIpcMsgData t with ⟨h0, h4, h8⟩
  have hdata : slice (encode f.toIpcMsgData ++ t) (0 + msgHeaderLen) f.dwSize.toNat = f.data := by
    have hsplit : encode f.toIpcMsgData ++ t
        = (le32 f.dwMsgCode ++ le32 f.dwEventType ++ le32 f.dwSize) ++ (f.data ++ t) := by
      simp only [encode, List.append_assoc]
    rw [hsplit, slice, List.drop_left' (by rfl), ← f.size_eq, List.take_left' rfl]
  ext1
  · exact h0
  · simpa only [msgAt, Nat.zero_add] using h4
  · simpa only [msgAt, Nat.zero_add] using h8
  · simpa only [msgAt, Nat.zero_add, h8] using hdata

theorem drop_encode (f : Frame) (t : List UInt8) :
    (encode f.toIpcMsgData ++ t).drop (msgHeaderLen + f.dwSize.toNat) = t := by
  rw [List.drop_left']
  rw [length_encode, f.size_eq]

/-- Enough fuel takes a run of frames apart into exactly the frames written.
    Each frame costs one unit of fuel and at least twelve bytes. -/
theorem framesFrom_encodeAll (fs : List Frame) (n : Nat) (hn : (encodeAll fs).length ≤ n) :
    framesFrom n (encodeAll fs) = fs.map fun f => f.toIpcMsgData := by
  induction fs generalizing n with
  | nil =>
      cases n with
      | zero => rfl
      | succ k => rfl
  | cons f fs ih =>
      have hlen := length_encode f.toIpcMsgData
      rw [encodeAll_cons, List.length_append] at hn
      rw [hlen, msgHeaderLen] at hn
      cases n with
      | zero => omega
      | succ k =>
          rw [framesFrom, encodeAll_cons, if_pos (by rw [List.length_append, hlen]; omega),
            msgAt_encode, (header_encode f.toIpcMsgData _).2.2, drop_encode, ih k (by omega),
            List.map_cons]

/-- A run of frames reads back. -/
theorem framesIn_encode (fs : List Frame) :
    framesIn (encodeAll fs) = fs.map fun f => f.toIpcMsgData :=
  framesFrom_encodeAll fs _ (Nat.le_refl _)

/-- `ERROR_INVALID_FUNCTION`. -/
def errorInvalidFunction : UInt32 := 1

/-- `ERROR_INVALID_DATA`. -/
def errorInvalidData : UInt32 := 13

/-- `ERROR_WRITE_FAULT`. -/
def errorWriteFault : UInt32 := 29

/-- The zeroed message buffer with its header filled in. The three stores are
    in bounds only when the buffer holds a header. -/
def buildHeader (dwMsgCode dwEventType dwDataSize dwMsgSize : UInt32) : Option (List UInt8) :=
  if msgHeaderLen ≤ dwMsgSize.toNat then
    some (poke (poke (poke (List.replicate dwMsgSize.toNat 0) 0 (le32 dwMsgCode)) 4
      (le32 dwEventType)) 8 (le32 dwDataSize))
  else none

/-- The payload copied behind the header: `some none` when a payload is due
    and the pointer is null, `none` when the copy leaves a buffer. -/
def fillData (header : List UInt8) (dwDataSize : UInt32) (lpEventData : Option (List UInt8)) :
    Option (Option (List UInt8)) :=
  if dwDataSize > 0 then
    match lpEventData with
    | none => some none
    | some payload => (memcpy header msgHeaderLen payload dwDataSize.toNat).map some
  else some (some header)

/-- `CWLMessageSender::SendMsgToMmf`. `alloc` says whether `new` succeeds; a
    null `lpEventData` is `none`. The result is `none` when a copy leaves its
    buffer. -/
def sendMsgToMmf (c : CWLIPCMmf) (mem : List UInt8) (alloc : Bool)
    (dwEventType dwMsgCode dwDataSize : UInt32) (lpEventData : Option (List UInt8)) :
    Option (UInt32 × CWLIPCMmf × List UInt8) :=
  if alloc = false then some (errorInvalidFunction, c, mem)
  else
    -- A size_t sum stored in a DWORD.
    let dwMsgSize := UInt32.ofNat (msgHeaderLen + dwDataSize.toNat)
    match buildHeader dwMsgCode dwEventType dwDataSize dwMsgSize with
    | none => none
    | some header =>
        match fillData header dwDataSize lpEventData with
        | none => none
        | some none => some (errorInvalidData, c, mem)
        | some (some pMsgBuffer) =>
            match writeData c mem dwMsgSize (some pMsgBuffer) with
            | none => none
            | some (dwResult, c', mem') =>
                some (if dwResult = 0 then 0 else errorWriteFault, c', mem')

/-- The message a send with these arguments describes. -/
def sentMsg (dwEventType dwMsgCode dwDataSize : UInt32) (lpEventData : Option (List UInt8)) :
    IpcMsgData :=
  { dwMsgCode := dwMsgCode
    dwEventType := dwEventType
    dwSize := dwDataSize
    data := (lpEventData.getD []).take dwDataSize.toNat }

theorem buildHeader_eq (dwMsgCode dwEventType dwDataSize dwMsgSize : UInt32)
    (h : dwMsgSize.toNat = msgHeaderLen + dwDataSize.toNat) :
    buildHeader dwMsgCode dwEventType dwDataSize dwMsgSize
      = some (le32 dwMsgCode ++ le32 dwEventType ++ le32 dwDataSize
          ++ List.replicate dwDataSize.toNat 0) := by
  have hzero : List.replicate dwMsgSize.toNat (0 : UInt8)
      = [] ++ ([0, 0, 0, 0] ++ ([0, 0, 0, 0] ++ ([0, 0, 0, 0]
          ++ List.replicate dwDataSize.toNat 0))) := by
    rw [h, msgHeaderLen, show 3 * 4 + dwDataSize.toNat = dwDataSize.toNat + 12 by omega]
    rfl
  have h1 := poke_middle [] [0, 0, 0, 0]
    ([0, 0, 0, 0] ++ ([0, 0, 0, 0] ++ List.replicate dwDataSize.toNat 0)) (le32 dwMsgCode) rfl
  have h2 := poke_middle (le32 dwMsgCode) [0, 0, 0, 0]
    ([0, 0, 0, 0] ++ List.replicate dwDataSize.toNat 0) (le32 dwEventType) rfl
  have h3 := poke_middle (le32 dwMsgCode ++ le32 dwEventType) [0, 0, 0, 0]
    (List.replicate dwDataSize.toNat 0) (le32 dwDataSize) rfl
  simp only [List.length_append, length_le32, List.append_assoc, List.nil_append,
    List.length_nil] at h1 h2 h3
  rw [buildHeader, if_pos (by omega), hzero, List.nil_append, h1, h2]
  simp only [List.append_assoc, Option.some.injEq]
  exact h3

/-- The buffer handed to the container is the encoded message, unless a
    payload was due and none was given. -/
theorem fillData_eq (dwMsgCode dwEventType dwDataSize : UInt32) (lpEventData : Option (List UInt8))
    (hptr : ∀ payload, lpEventData = some payload → dwDataSize.toNat ≤ payload.length)
    (header : List UInt8)
    (hheader : header = le32 dwMsgCode ++ le32 dwEventType ++ le32 dwDataSize
      ++ List.replicate dwDataSize.toNat 0) :
    fillData header dwDataSize lpEventData = some none ∨
      (fillData header dwDataSize lpEventData
          = some (some (encode (sentMsg dwEventType dwMsgCode dwDataSize lpEventData))) ∧
        (sentMsg dwEventType dwMsgCode dwDataSize lpEventData).data.length = dwDataSize.toNat) := by
  by_cases hpos : dwDataSize > 0
  · unfold fillData
    rw [if_pos hpos]
    cases lpEventData with
    | none => exact Or.inl rfl
    | some payload =>
        have hlen := hptr payload rfl
        have htake : (payload.take dwDataSize.toNat).length = dwDataSize.toNat := by
          rw [List.length_take]
          omega
        have hpoke := poke_middle (le32 dwMsgCode ++ le32 dwEventType ++ le32 dwDataSize)
          (List.replicate dwDataSize.toNat 0) [] (payload.take dwDataSize.toNat)
          (by rw [List.length_replicate, htake])
        rw [List.append_nil, List.append_nil] at hpoke
        have hcopy : memcpy header msgHeaderLen payload dwDataSize.toNat
            = some (encode (sentMsg dwEventType dwMsgCode dwDataSize (some payload))) := by
          refine (memcpy_eq_some _ _ _ _ _).mpr ⟨hlen, ?_, ?_⟩
          · rw [hheader]
            simp only [List.length_append, length_le32, List.length_replicate, msgHeaderLen]
            omega
          · rw [hheader]
            exact hpoke.symm
        exact Or.inr ⟨by simp only [hcopy, Option.map_some], htake⟩
  · -- No payload: the header alone is the whole message.
    have hzero : dwDataSize.toNat = 0 := by
      rw [gt_iff_lt, UInt32.lt_iff_toNat_lt] at hpos
      exact Nat.eq_zero_of_not_pos hpos
    unfold fillData
    rw [if_neg hpos, hheader]
    simp only [sentMsg, encode, hzero, List.replicate_zero, List.take_zero, List.length_nil,
      and_self, or_true]

/-- What a send does to a mapped container, the sum of the sizes not
    wrapping: a zero result means the frame was appended, any other result
    that nothing was. -/
theorem sendMsgToMmf_spec (c : CWLIPCMmf) (mem : List UInt8)
    (dwEventType dwMsgCode dwDataSize : UInt32) (lpEventData : Option (List UInt8))
    (hmap : c.pMapView = true) (h : Holds c.dwMmfSize mem)
    (hwrap : (curDataSize mem).toNat + msgHeaderLen + dwDataSize.toNat < 2 ^ 32)
    (hptr : ∀ payload, lpEventData = some payload → dwDataSize.toNat ≤ payload.length) :
    ∃ dwResult c' mem',
      sendMsgToMmf c mem true dwEventType dwMsgCode dwDataSize lpEventData
          = some (dwResult, c', mem') ∧
        c'.pMapView = true ∧ c'.dwMmfSize = c.dwMmfSize ∧
        ((dwResult = 0 ∧ Holds c.dwMmfSize mem' ∧
            (sentMsg dwEventType dwMsgCode dwDataSize lpEventData).data.length
              = dwDataSize.toNat ∧
            pending mem' = pending mem
              ++ encode (sentMsg dwEventType dwMsgCode dwDataSize lpEventData)) ∨
          (dwResult ≠ 0 ∧ mem' = mem)) := by
  have hsize : (UInt32.ofNat (msgHeaderLen + dwDataSize.toNat)).toNat
      = msgHeaderLen + dwDataSize.toNat := by
    rw [UInt32.toNat_ofNat']
    exact Nat.mod_eq_of_lt (by omega)
  have hheader := buildHeader_eq dwMsgCode dwEventType dwDataSize
    (UInt32.ofNat (msgHeaderLen + dwDataSize.toNat)) hsize
  -- A size without data is refused; otherwise the frame has the length that is announced.
  rcases fillData_eq dwMsgCode dwEventType dwDataSize lpEventData hptr _ rfl with
    hfill | ⟨hfill, hlen⟩
  · refine ⟨errorInvalidData, c, mem, ?_, hmap, rfl, Or.inr ⟨by decide, rfl⟩⟩
    simp only [sendMsgToMmf, Bool.true_eq_false, if_false, hheader, hfill]
  · have henc := length_encode (sentMsg dwEventType dwMsgCode dwDataSize lpEventData)
    rw [hlen] at henc
    -- The frame fits behind what is pending, or the container is left as it is.
    by_cases hroom : (curDataSize mem).toNat + (msgHeaderLen + dwDataSize.toNat)
        ≤ c.dwMmfSize.toNat
    · rcases writeData_accepts c mem _ _ hmap h (Nat.le_of_eq (hsize.trans henc.symm))
        (by omega) with ⟨mem', hw, hh, hp⟩
      rw [hsize, ← henc, List.take_length] at hp
      refine ⟨0, c, mem', ?_, hmap, rfl, Or.inl ⟨rfl, hh, hlen, hp⟩⟩
      simp only [sendMsgToMmf, Bool.true_eq_false, if_false, hheader, hfill, hw, if_true]
    · have hw := writeData_rejects c mem
        (encode (sentMsg dwEventType dwMsgCode dwDataSize lpEventData))
        (UInt32.ofNat (msgHeaderLen + dwDataSize.toNat)) hmap (by omega) (by omega)
      refine ⟨errorWriteFault, c.failed .writeDataOutRangeError, mem, ?_, hmap, rfl,
        Or.inr ⟨by decide, rfl⟩⟩
      simp only [sendMsgToMmf, Bool.true_eq_false, if_false, hheader, hfill, hw]
      rfl

end Ipc

end Defender
