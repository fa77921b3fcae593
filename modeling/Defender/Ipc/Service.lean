import Defender.Ipc.Message

/-!
# The Service's Receiving Side

What `Service.cpp` does with the bytes it reads: the queue between its two
threads, the loop that splits a batch into messages, and the dispatch to a
component.

The splitting loop does not copy. It puts into the queue pointers into the
batch buffer, which is never freed, so an `IpcMsgPtr` is a buffer and an
offset and the message is what it shows. The loop advances by the size field
of the message it has just queued, a DWORD the sender chose, and the next
iteration checks only that a header still fits.

Sums of a DWORD and `IPC_MSG_DATA_HEADNER_LEN` are taken in size_t, so the loop
condition does not wrap; storing such a sum back into `dwSizeDone` does.

## Main definitions

* `IpcMsgPtr`: A pointer into a batch buffer.
* `CWLMetaDataQueue`: The queue, with its two counters.
* `splitStep`: One test and iteration of the splitting loop.
* `inserted`: What the loop queues in at most a number of iterations.
* `componentOf`: The switch of `DispatchMessageFun`.
* `systemLogDispatch`: The system-log component's handler.

## Theorems

* `msgAt_drop`: A message seen from further into the buffer.
* `splitStep_frame`: On a frame the loop queues it and moves past it.
* `splitStep_short`: On less than a header the loop ends.
-/

namespace Defender

namespace Ipc

open Wire

/-- An `IPC_MSG_DATA*` into a batch buffer. -/
structure IpcMsgPtr where
  buffer : List UInt8
  offset : Nat
  deriving DecidableEq, Repr

/-- The message a pointer shows. -/
def IpcMsgPtr.msg (p : IpcMsgPtr) : IpcMsgData :=
  msgAt p.buffer p.offset

/-- `CWLMetaDataQueue`. Its elements are non-null pointers, `Insert` dropping
    null ones. -/
structure CWLMetaDataQueue (α : Type) where
  queue : List α
  nTotalSize : UInt32
  nSize : UInt32
  deriving DecidableEq, Repr

namespace CWLMetaDataQueue

variable {α : Type}

/-- The constructor. -/
def empty : CWLMetaDataQueue α :=
  { queue := [], nTotalSize := 0, nSize := 0 }

/-- `Insert`. -/
def insert (q : CWLMetaDataQueue α) (pMetadata : Option α) : CWLMetaDataQueue α :=
  match pMetadata with
  | none => q
  | some p => { q with queue := q.queue ++ [p], nTotalSize := q.nTotalSize + 1 }

/-- `GetHead`. On an empty queue `front` is undefined, so there is no
    result. -/
def getHead (q : CWLMetaDataQueue α) : Option (α × CWLMetaDataQueue α) :=
  match q.queue with
  | [] => none
  | p :: rest => some (p, { q with queue := rest, nTotalSize := q.nTotalSize - 1 })

/-- `GetCount`. -/
def getCount (q : CWLMetaDataQueue α) : UInt32 :=
  UInt32.ofNat q.queue.length

/-- `GetTotalSize`. -/
def getTotalSize (q : CWLMetaDataQueue α) : UInt32 :=
  q.nTotalSize

/-- `RemoveAll`. The loop frees and pops; the counters are not touched. -/
def removeAll (q : CWLMetaDataQueue α) : CWLMetaDataQueue α :=
  { q with queue := [] }

theorem getCount_pos (q : CWLMetaDataQueue α) (h : q.getCount > 0) : q.queue ≠ [] := by
  intro hnil
  rw [getCount, hnil, List.length_nil] at h
  exact absurd h (by decide)

end CWLMetaDataQueue

/-- One pass of the `while` of `GetMessageThread`: the pointer it queues and
    the next `dwSizeDone`, or `none` when the condition fails. -/
def splitStep (pMsgData : List UInt8) (dwSize dwSizeDone : UInt32) : Option (IpcMsgPtr × UInt32) :=
  if dwSizeDone.toNat + msgHeaderLen ≤ dwSize.toNat then
    let pMsg : IpcMsgPtr := { buffer := pMsgData, offset := dwSizeDone.toNat }
    some (pMsg, UInt32.ofNat (dwSizeDone.toNat + (msgHeaderLen + pMsg.msg.dwSize.toNat)))
  else none

/-- What the loop queues in at most `n` iterations from `dwSizeDone`. -/
def inserted : Nat → List UInt8 → UInt32 → UInt32 → List IpcMsgPtr
  | 0, _, _, _ => []
  | n + 1, pMsgData, dwSize, dwSizeDone =>
      match splitStep pMsgData dwSize dwSizeDone with
      | none => []
      | some (pMsg, next) => pMsg :: inserted n pMsgData dwSize next

/-- The components `DispatchMessageFun` hands a message to. -/
inductive Component where
  | deviceControl
  | systemLogControl
  | fileScanControl
  | fireWallControl
  | clipboardControl
  deriving DecidableEq, Repr

/-- The switch of `DispatchMessageFun` on the event type. -/
def componentOf (dwEventType : UInt32) : Option Component :=
  if dwEventType = 1 then some .deviceControl
  else if dwEventType = 2 then some .systemLogControl
  else if dwEventType = 3 then some .fileScanControl
  else if dwEventType = 4 then some .fireWallControl
  else if dwEventType = 5 then some .clipboardControl
  else none

/-- The functions a control message switches. -/
inductive ControlFunction where
  | enableFunction
  | disableFunction
  deriving DecidableEq, Repr

/-- `CSystemLogControl::DispatchMessages` on a non-null message: the string it
    builds from `Data` and the function it calls. There is no result when the
    string reads past the `received` bytes of the batch. -/
def systemLogDispatch (received : UInt32) (pIpcMsg : IpcMsgPtr) :
    Option (List UInt8 × Option ControlFunction) :=
  if pIpcMsg.offset + msgHeaderLen + pIpcMsg.msg.dwSize.toNat ≤ received.toNat then
    some (slice pIpcMsg.buffer (pIpcMsg.offset + msgHeaderLen) pIpcMsg.msg.dwSize.toNat,
      if pIpcMsg.msg.dwMsgCode = 1 then some .enableFunction
      else if pIpcMsg.msg.dwMsgCode = 2 then some .disableFunction
      else none)
  else none

/-- A message seen from further into the buffer. -/
theorem msgAt_drop (buffer : List UInt8) (d i : Nat) :
    msgAt (buffer.drop d) i = msgAt buffer (d + i) := by
  have hword : ∀ j, dwordAt (buffer.drop d) j = dwordAt buffer (d + j) := by
    intro j
    refine dwordAt_congr _ _ _ _ (fun k _ => ?_)
    simp only [byteAt, List.getD_eq_getElem?_getD, List.getElem?_drop, Nat.add_assoc]
  simp only [msgAt, hword, slice, List.drop_drop, Nat.add_assoc]

/-- On less than a header the loop ends. -/
theorem splitStep_short (pMsgData : List UInt8) (dwSize dwSizeDone : UInt32)
    (h : dwSize.toNat < dwSizeDone.toNat + msgHeaderLen) :
    splitStep pMsgData dwSize dwSizeDone = none := by
  unfold splitStep
  rw [if_neg (by omega)]

/-- On a frame the loop queues it and moves past it. The frame lies inside the
    batch, so the sum does not wrap. -/
theorem splitStep_frame (pMsgData t : List UInt8) (dwSize dwSizeDone : UInt32) (f : Frame)
    (hsize : dwSize.toNat = pMsgData.length)
    (hrest : pMsgData.drop dwSizeDone.toNat = encode f.toIpcMsgData ++ t) :
    ∃ next, splitStep pMsgData dwSize dwSizeDone
        = some ({ buffer := pMsgData, offset := dwSizeDone.toNat }, next) ∧
      next.toNat = dwSizeDone.toNat + (msgHeaderLen + f.dwSize.toNat) ∧
      next.toNat ≤ dwSize.toNat ∧ pMsgData.drop next.toNat = t ∧
      msgAt pMsgData dwSizeDone.toNat = f.toIpcMsgData := by
  have hmsg : msgAt pMsgData dwSizeDone.toNat = f.toIpcMsgData := by
    have h := msgAt_drop pMsgData dwSizeDone.toNat 0
    rw [hrest, msgAt_encode, Nat.add_zero] at h
    exact h.symm
  have hlen : pMsgData.length - dwSizeDone.toNat = msgHeaderLen + f.dwSize.toNat + t.length := by
    rw [← List.length_drop, hrest, List.length_append, length_encode, f.size_eq]
  have hhead : msgHeaderLen = 12 := rfl
  have hlt := dwSize.toNat_lt
  have hnext : (UInt32.ofNat (dwSizeDone.toNat + (msgHeaderLen + f.dwSize.toNat))).toNat
      = dwSizeDone.toNat + (msgHeaderLen + f.dwSize.toNat) := by
    rw [UInt32.toNat_ofNat']
    exact Nat.mod_eq_of_lt (by omega)
  refine ⟨UInt32.ofNat (dwSizeDone.toNat + (msgHeaderLen + f.dwSize.toNat)), ?_, hnext,
    by omega, ?_, hmsg⟩
  · unfold splitStep
    simp only [IpcMsgPtr.msg, hmsg]
    rw [if_pos (by omega)]
  · rw [hnext, ← List.drop_drop, hrest, drop_encode]

end Ipc

end Defender
