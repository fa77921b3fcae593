import Mathlib.Algebra.Group.Nat.Defs
import Defender.Lib.Wire

/-!
# String Descriptors of USB Devices

`GetStringDescriptor` asks a hub for a string descriptor of the device at one of
its ports. The request and the reply share a buffer of 12 + 512 bytes, which the
reply overwrites from its beginning. The descriptor is behind the 12 bytes of
the request: its length in bytes, its type, and the string.

The length that goes to `assign` is the length byte less the size of a
`USB_STRING_DESCRIPTOR`, which has a `WCHAR` in it, and it counts units and not
bytes. So a string of one unit is refused, one of two units is decoded, and a
longer one gets units that are not its own. From 0 and 2 the difference wraps
around, and `assign` reads far behind the buffer unless it can not make a string
of that length (`getStringDescriptor_iff`).

## Main definitions

* `Reply`: What `DeviceIoControl` comes back with.
* `assignLength`: The number of units that are assigned.
* `getStringDescriptor`: The function of the source.
* `Decoded`: The string is the descriptor's, and no byte outside is read.
* `TurnedDown`: The replies that are refused before the length is used.
* `Harmless`: The lengths with which nothing goes wrong.

## Theorems

* `assignLength_eq_iff`: The lengths for which the number of units is right.
* `decoded_assigned_iff`: When what is assigned is the string.
* `getStringDescriptor_iff`: When a descriptor is decoded.
* `getStringDescriptor_long_short`: Two that are not.
-/

namespace Defender

namespace UDisk

namespace StringDescriptor

open Wire

/-! ### The request and the reply -/

/-- `sizeof (USB_DESCRIPTOR_REQUEST)`. -/
def requestSize : Nat := 12

/-- `MAXIMUM_USB_STRING_LENGTH`. -/
def maximumUsbStringLength : Nat := 512

/-- `sizeof (USB_STRING_DESCRIPTOR)`: the two bytes of its header and a `WCHAR`. -/
def stringDescriptorSize : UInt32 := 4

/-- `USB_STRING_DESCRIPTOR_TYPE`. -/
def usbStringDescriptorType : UInt8 := 3

/-- `sizeof (stringDescReqBuf)`. -/
def nBytes : Nat := requestSize + maximumUsbStringLength

/-- `stringDescReqBuf` as it goes to the driver. -/
def stringDescReq (ConnectionIndex : UInt32) (DescriptorIndex : UInt8) (LanguageID : UInt16) :
    List UInt8 :=
  le32 ConnectionIndex ++ ([0, 0] : List UInt8) ++
    le16 (usbStringDescriptorType.toUInt16 <<< 8 ||| DescriptorIndex.toUInt16) ++
    le16 LanguageID ++ le16 (UInt16.ofNat (nBytes - requestSize)) ++
    List.replicate maximumUsbStringLength 0

/-- What `DeviceIoControl` comes back with: whether it succeeds, and the
    `nBytesReturned` bytes that it writes. -/
structure Reply where
  success : Bool
  bytes : List UInt8
  fits : bytes.length ≤ nBytes

/-- What a call does: it returns, with `WstrOutDesc` as it is then, or `assign` throws. -/
inductive Outcome where
  | returned (bRet : Bool) (WstrOutDesc : List UInt16)
  | thrown
deriving DecidableEq

/-- A call and the ranges of the buffer that it reads, as offsets and lengths. -/
structure Call where
  outcome : Outcome
  reads : List (Nat × Nat)

/-- `bLength` and `bDescriptorType` stand behind the request, and then `bString`. -/
def bLengthAt : Nat := requestSize
def bDescriptorTypeAt : Nat := requestSize + 1
def bStringAt : Nat := requestSize + 2

/-- `(DWORD)bLength - (DWORD)sizeof (USB_STRING_DESCRIPTOR)`. -/
def assignLength (bLength : UInt8) : UInt32 :=
  bLength.toUInt32 - stringDescriptorSize

/-- The units from an offset on. -/
def unitsAt (memory : List UInt8) (place n : Nat) : List UInt16 :=
  (List.range n).map (fun i => word16At memory (place + 2 * i))

/-- The buffer after the request. -/
def stringDescReqBuf (ConnectionIndex : UInt32) (DescriptorIndex : UInt8) (LanguageID : UInt16)
    (reply : Reply) : List UInt8 :=
  poke (stringDescReq ConnectionIndex DescriptorIndex LanguageID) 0 reply.bytes

/-- `CWLUDisk::GetStringDescriptor`. `behind` is the memory that follows the buffer, and
    `makes` says whether a string of so many units can be made. -/
def getStringDescriptor (ConnectionIndex : UInt32) (DescriptorIndex : UInt8)
    (LanguageID : UInt16) (reply : Reply) (behind : List UInt8) (makes : Nat → Bool)
    (WstrOutDesc : List UInt16) : Call :=
  let buf := stringDescReqBuf ConnectionIndex DescriptorIndex LanguageID reply
  if reply.success = false then
    ⟨.returned false WstrOutDesc, []⟩
  else if reply.bytes.length < 2 then
    ⟨.returned false WstrOutDesc, []⟩
  else if byteAt buf bDescriptorTypeAt ≠ usbStringDescriptorType then
    ⟨.returned false WstrOutDesc, [(bDescriptorTypeAt, 1)]⟩
  else if byteAt buf bLengthAt % 2 ≠ 0 then
    ⟨.returned false WstrOutDesc, [(bDescriptorTypeAt, 1), (bLengthAt, 1)]⟩
  else
    let len := (assignLength (byteAt buf bLengthAt)).toNat
    if 0 < len then
      if makes len then
        ⟨.returned true (unitsAt (buf ++ behind) bStringAt len),
          [(bDescriptorTypeAt, 1), (bLengthAt, 1), (bStringAt, 2 * len)]⟩
      else
        ⟨.thrown, [(bDescriptorTypeAt, 1), (bLengthAt, 1)]⟩
    else
      ⟨.returned false WstrOutDesc, [(bDescriptorTypeAt, 1), (bLengthAt, 1)]⟩

/-! ### What is asked for -/

/-- What is returned is the string of the descriptor, and no byte outside the buffer is read. -/
structure Decoded (buf : List UInt8) (call : Call) : Prop where
  exact : ∀ desc, call.outcome = .returned true desc →
    byteAt buf bLengthAt % 2 = 0 ∧ 4 ≤ byteAt buf bLengthAt ∧
      desc = unitsAt buf bStringAt (((byteAt buf bLengthAt).toNat - 2) / 2)
  inside : ∀ r ∈ call.reads, r.1 + r.2 ≤ nBytes

/-- The replies that are refused whatever their length is. -/
def TurnedDown (buf : List UInt8) (reply : Reply) : Prop :=
  reply.success = false ∨ reply.bytes.length < 2 ∨
    byteAt buf bDescriptorTypeAt ≠ usbStringDescriptorType

/-- The lengths that do no harm: odd ones are refused and so is 4, 6 is right, and for the
    others it takes that `assign` throws. -/
def Harmless (buf : List UInt8) (makes : Nat → Bool) : Prop :=
  byteAt buf bLengthAt % 2 = 1 ∨ byteAt buf bLengthAt = 4 ∨ byteAt buf bLengthAt = 6 ∨
    makes (assignLength (byteAt buf bLengthAt)).toNat = false

/-! ### When it is so -/

variable (ConnectionIndex : UInt32) (DescriptorIndex : UInt8) (LanguageID : UInt16)
  (reply : Reply) (behind : List UInt8) (makes : Nat → Bool) (WstrOutDesc : List UInt16)

theorem length_stringDescReqBuf :
    (stringDescReqBuf ConnectionIndex DescriptorIndex LanguageID reply).length = nBytes := by
  have hreq : (stringDescReq ConnectionIndex DescriptorIndex LanguageID).length = nBytes := by
    simp only [stringDescReq, List.length_append, length_le32, length_le16, List.length_cons,
      List.length_nil, List.length_replicate]
    rfl
  rw [stringDescReqBuf, length_poke _ _ _ (by rw [hreq, Nat.zero_add]; exact reply.fits), hreq]

/-- The length of an even descriptor in units, and what is assigned. -/
theorem assignLength_toNat (b : UInt8) :
    (assignLength b).toNat = if b.toNat < 4 then 2 ^ 32 - 4 + b.toNat else b.toNat - 4 := by
  have hb := b.toNat_lt
  rw [assignLength, UInt32.toNat_sub, UInt8.toNat_toUInt32]
  change (2 ^ 32 - 4 + b.toNat) % 2 ^ 32 = _
  by_cases hsmall : b.toNat < 4
  · rw [if_pos hsmall]
    omega
  · rw [if_neg hsmall]
    omega

/-- The number of units is right for descriptors of two units only. -/
theorem assignLength_eq_iff (b : UInt8) (heven : b.toNat % 2 = 0) (hb : 4 < b.toNat) :
    (assignLength b).toNat = (b.toNat - 2) / 2 ↔ b.toNat = 6 := by
  rw [assignLength_toNat, if_neg (by omega)]
  omega

/-- Nothing is assigned for a descriptor of one unit, and for no other. -/
theorem assignLength_pos_iff (b : UInt8) : 0 < (assignLength b).toNat ↔ b ≠ 4 := by
  have hb := b.toNat_lt
  have hfour : b = 4 ↔ b.toNat = 4 := UInt8.toNat_inj.symm
  rw [ne_eq, hfour, assignLength_toNat]
  by_cases hsmall : b.toNat < 4
  · rw [if_pos hsmall]
    omega
  · rw [if_neg hsmall]
    omega

theorem length_unitsAt (memory : List UInt8) (place n : Nat) :
    (unitsAt memory place n).length = n := by
  rw [unitsAt, List.length_map, List.length_range]

/-- Units inside the buffer do not depend on what is behind it. -/
theorem unitsAt_append (memory behind : List UInt8) (place n : Nat)
    (h : place + 2 * n ≤ memory.length) :
    unitsAt (memory ++ behind) place n = unitsAt memory place n := by
  refine List.map_congr_left (fun i hi => ?_)
  have hi := List.mem_range.mp hi
  refine word16At_congr _ _ _ _ (fun k hk => ?_)
  exact byteAt_append_left memory behind _ (by omega)

/-- What a call does with a reply that it does not turn down. -/
theorem getStringDescriptor_of_checked
    (h : ¬ TurnedDown (stringDescReqBuf ConnectionIndex DescriptorIndex LanguageID reply) reply) :
    getStringDescriptor ConnectionIndex DescriptorIndex LanguageID reply behind makes WstrOutDesc
      = if byteAt (stringDescReqBuf ConnectionIndex DescriptorIndex LanguageID reply) bLengthAt % 2
            ≠ 0 then
          ⟨.returned false WstrOutDesc, [(bDescriptorTypeAt, 1), (bLengthAt, 1)]⟩
        else
          let buf := stringDescReqBuf ConnectionIndex DescriptorIndex LanguageID reply
          let len := (assignLength (byteAt buf bLengthAt)).toNat
          if 0 < len then
            if makes len then
              ⟨.returned true (unitsAt (buf ++ behind) bStringAt len),
                [(bDescriptorTypeAt, 1), (bLengthAt, 1), (bStringAt, 2 * len)]⟩
            else
              ⟨.thrown, [(bDescriptorTypeAt, 1), (bLengthAt, 1)]⟩
          else
            ⟨.returned false WstrOutDesc, [(bDescriptorTypeAt, 1), (bLengthAt, 1)]⟩ := by
  unfold TurnedDown at h
  rw [not_or, not_or, not_not] at h
  unfold getStringDescriptor
  dsimp only
  rw [if_neg h.1, if_neg h.2.1, if_neg (not_not_intro h.2.2)]

/-- Where nothing is returned, only the reads are to be looked at. -/
theorem decoded_of_not_returned {buf : List UInt8} {call : Call}
    (hout : ∀ desc, call.outcome ≠ .returned true desc)
    (hreads : ∀ r ∈ call.reads, r = (bDescriptorTypeAt, 1) ∨ r = (bLengthAt, 1)) :
    Decoded buf call where
  exact := fun desc h => absurd h (hout desc)
  inside := by
    intro r hr
    rcases hreads r hr with rfl | rfl
    · decide
    · decide

theorem decoded_of_turnedDown
    (h : TurnedDown (stringDescReqBuf ConnectionIndex DescriptorIndex LanguageID reply) reply) :
    Decoded (stringDescReqBuf ConnectionIndex DescriptorIndex LanguageID reply)
      (getStringDescriptor ConnectionIndex DescriptorIndex LanguageID reply behind makes
        WstrOutDesc) := by
  unfold getStringDescriptor
  dsimp only
  by_cases hsuccess : reply.success = false
  · rw [if_pos hsuccess]
    exact decoded_of_not_returned (by simp) (by simp)
  rw [if_neg hsuccess]
  by_cases hbytes : reply.bytes.length < 2
  · rw [if_pos hbytes]
    exact decoded_of_not_returned (by simp) (by simp)
  rw [if_neg hbytes, if_pos ((h.resolve_left hsuccess).resolve_left hbytes)]
  exact decoded_of_not_returned (by simp) (by simp)

/-- What is assigned is the string of the descriptor when that has two units: with any other
    even length it is longer or shorter. -/
theorem decoded_assigned_iff {buf : List UInt8} (hbuf : buf.length = nBytes)
    (heven : byteAt buf bLengthAt % 2 = 0) (hfour : byteAt buf bLengthAt ≠ 4) :
    Decoded buf
        ⟨.returned true
            (unitsAt (buf ++ behind) bStringAt (assignLength (byteAt buf bLengthAt)).toNat),
          [(bDescriptorTypeAt, 1), (bLengthAt, 1),
            (bStringAt, 2 * (assignLength (byteAt buf bLengthAt)).toNat)]⟩
      ↔ byteAt buf bLengthAt = 6 := by
  generalize hbLength : byteAt buf bLengthAt = bLength at heven hfour
  constructor
  · intro h
    rcases h.exact _ rfl with ⟨-, hle, hdesc⟩
    rw [hbLength] at hle hdesc
    have hmod : bLength.toNat % 2 = 0 :=
      (UInt8.toNat_mod bLength 2).symm.trans (congrArg UInt8.toNat heven)
    -- The lengths of what is assigned and of what is there are different.
    have hlength := congrArg List.length hdesc
    rw [length_unitsAt, length_unitsAt] at hlength
    have hle' : 4 ≤ bLength.toNat := UInt8.le_iff_toNat_le.mp hle
    have hne : bLength.toNat ≠ 4 := fun h4 => hfour (UInt8.toNat_inj.mp h4)
    exact UInt8.toNat_inj.mp ((assignLength_eq_iff bLength hmod (by omega)).mp hlength)
  · rintro rfl
    have htwo : (assignLength 6).toNat = 2 := rfl
    rw [htwo]
    refine ⟨fun desc hdesc => ?_, fun r hr => ?_⟩
    · rw [unitsAt_append _ _ _ _ (by rw [hbuf]; decide), Outcome.returned.injEq] at hdesc
      rw [hbLength]
      exact ⟨rfl, by decide, hdesc.2.symm⟩
    · simp only [List.mem_cons, List.not_mem_nil, or_false] at hr
      rcases hr with rfl | rfl | rfl
      all_goals decide

/-- A descriptor is decoded when it is turned down, when its length is odd, 4 or 6, and when
    `assign` throws, and then only. -/
theorem getStringDescriptor_iff :
    Decoded (stringDescReqBuf ConnectionIndex DescriptorIndex LanguageID reply)
        (getStringDescriptor ConnectionIndex DescriptorIndex LanguageID reply behind makes
          WstrOutDesc)
      ↔ TurnedDown (stringDescReqBuf ConnectionIndex DescriptorIndex LanguageID reply) reply ∨
        Harmless (stringDescReqBuf ConnectionIndex DescriptorIndex LanguageID reply) makes := by
  by_cases hdown :
      TurnedDown (stringDescReqBuf ConnectionIndex DescriptorIndex LanguageID reply) reply
  · exact iff_of_true
      (decoded_of_turnedDown ConnectionIndex DescriptorIndex LanguageID reply behind makes
        WstrOutDesc hdown) (Or.inl hdown)
  have hbuf := length_stringDescReqBuf ConnectionIndex DescriptorIndex LanguageID reply
  rw [getStringDescriptor_of_checked ConnectionIndex DescriptorIndex LanguageID reply behind makes
    WstrOutDesc hdown, or_iff_right hdown]
  generalize stringDescReqBuf ConnectionIndex DescriptorIndex LanguageID reply = buf at hbuf ⊢
  unfold Harmless
  dsimp only
  -- From here on the tests come one after the other, as in the function.
  have hhalf : byteAt buf bLengthAt % 2 ≠ 0 ↔ byteAt buf bLengthAt % 2 = 1 := by
    have hmod := UInt8.toNat_mod (byteAt buf bLengthAt) 2
    rw [ne_eq, ← UInt8.toNat_inj, ← UInt8.toNat_inj, hmod]
    exact Nat.mod_two_ne_zero
  by_cases hodd : byteAt buf bLengthAt % 2 ≠ 0
  · rw [if_pos hodd]
    exact iff_of_true (decoded_of_not_returned (by simp) (by simp)) (Or.inl (hhalf.mp hodd))
  rw [if_neg hodd, or_iff_right (fun h => hodd (hhalf.mpr h))]
  by_cases hfour : byteAt buf bLengthAt = 4
  · rw [if_neg (fun hpos => (assignLength_pos_iff _).mp hpos hfour)]
    exact iff_of_true (decoded_of_not_returned (by simp) (by simp)) (Or.inl hfour)
  rw [if_pos ((assignLength_pos_iff _).mpr hfour), or_iff_right hfour]
  cases hmakes : makes (assignLength (byteAt buf bLengthAt)).toNat with
  | false =>
      rw [if_neg Bool.false_ne_true]
      exact iff_of_true (decoded_of_not_returned (by simp) (by simp)) (Or.inr rfl)
  | true =>
      rw [if_pos rfl, or_iff_left (by simp only [Bool.true_eq_false, not_false_eq_true])]
      exact decoded_assigned_iff behind hbuf (not_not.mp hodd) hfour

/-! ### Two descriptors -/

/-- A reply with a descriptor of this length byte and this string. -/
def replyOf (bLength : UInt8) (bString : List UInt8) (h : bString.length ≤ 510) : Reply where
  success := true
  bytes := List.replicate requestSize 0 ++ [bLength, usbStringDescriptorType] ++ bString
  fits := by
    simp only [List.length_append, List.length_replicate, List.length_cons, List.length_nil]
    unfold nBytes requestSize maximumUsbStringLength
    omega

/-- The string of three units is returned with a fourth one, and for a descriptor that is
    only its header 8 GB behind the buffer are read. -/
theorem getStringDescriptor_long_short :
    (getStringDescriptor 1 2 0x409 (replyOf 8 [0x61, 0, 0x62, 0, 0x63, 0] (by decide)) []
        (fun _ => true) []).outcome = .returned true [0x61, 0x62, 0x63, 0] ∧
      ¬ Decoded (stringDescReqBuf 1 2 0x409 (replyOf 8 [0x61, 0, 0x62, 0, 0x63, 0] (by decide)))
        (getStringDescriptor 1 2 0x409 (replyOf 8 [0x61, 0, 0x62, 0, 0x63, 0] (by decide)) []
          (fun _ => true) []) ∧
      (14, 8589934588) ∈ (getStringDescriptor 1 2 0x409 (replyOf 2 [] (by decide)) []
        (fun _ => true) []).reads := by
  refine ⟨by decide, fun h => ?_, ?_⟩
  · have hexact := (h.exact [0x61, 0x62, 0x63, 0] (by decide)).2.2
    exact absurd hexact (by decide)
  · exact List.mem_cons_of_mem _ (List.mem_cons_of_mem _ List.mem_cons_self)

end StringDescriptor

end UDisk

end Defender
