import Defender.Lib.Machine
import Defender.Ipc.Service
import Mathlib.Logic.Function.Basic

/-!
# Delivery

The whole path of a message: any number of senders, the shared buffer, the
thread that polls and splits, the queue, and the thread that dispatches. One
`SendMsgToMmf` and one `ReadData` are a step each; the splitting loop takes a
step per iteration and the dispatcher one for each of its two queue calls, so
the other threads run between any two of them.

What is delivered is read off the state. A message is in one of four places:
handed to the dispatcher, in the queue, in the part of a batch the poll has
not yet split, or in the shared buffer. `Delivering` says that those four, in
that order, are the messages of the accepted sends, and that the two byte
regions hold whole frames, which is what lets them be read as messages at all.
`accepted` is a record of the sends that returned zero, kept by the send step
from the value it returns and never read by any other.

Between polls the third place is empty, so the handed messages, the queue and
the buffer are all of it.

## Main definitions

* `Channel`: The state, with the poll and the dispatcher mid-way.
* `Event`, `step`: The moves and what each does.
* `Admissible`: A send whose sizes do not wrap and whose pointer is good.
* `Start`: A fresh mapping, every container mapped with one capacity.
* `Delivering`: The invariant.

## Theorems

* `delivering_start`: A fresh channel delivers.
* `delivering_send`, `delivering_readData`, `delivering_split`,
  `delivering_getCount`, `delivering_getHead`: One lemma per move.
* `delivering_step`: Every admissible move keeps delivering.
* `send_error_frame`: A refused send leaves the buffer alone.
* `channel_delivers`: Every accepted message is in exactly one place, in the
  order of the writes.
-/

namespace Defender

namespace Ipc

open Wire

/-- A poll whose splitting loop is under way. -/
structure Batch where
  pMsgData : List UInt8
  dwSize : UInt32
  dwSizeDone : UInt32
  deriving DecidableEq, Repr

/-- The shared buffer, the containers on it, and the service's two threads. -/
structure Channel where
  mem : List UInt8
  sender : Nat → CWLIPCMmf
  receiver : CWLIPCMmf
  /-- The batch a poll is splitting, if one is under way. -/
  batch : Option Batch
  queue : CWLMetaDataQueue IpcMsgPtr
  /-- The dispatcher has seen a positive count and not yet taken the head. -/
  counted : Bool
  /-- The pointers passed to `DispatchMessageFun` so far. -/
  handed : List IpcMsgPtr
  /-- The messages of the sends that returned `ERROR_SUCCESS`. -/
  accepted : List IpcMsgData

/-- The moves. -/
inductive Event where
  | send (i : Nat) (dwEventType dwMsgCode dwDataSize : UInt32) (lpEventData : Option (List UInt8))
  | readData
  | split
  | getCount
  | getHead

/-- One call of `SendMsgToMmf` by sender `i`. -/
def stepSend (s : Channel) (i : Nat) (dwEventType dwMsgCode dwDataSize : UInt32)
    (lpEventData : Option (List UInt8)) : Option Channel :=
  match sendMsgToMmf (s.sender i) s.mem true dwEventType dwMsgCode dwDataSize lpEventData with
  | none => none
  | some (dwResult, c', mem') =>
      some { s with
        mem := mem'
        sender := Function.update s.sender i c'
        accepted := if dwResult = 0 then
            s.accepted ++ [sentMsg dwEventType dwMsgCode dwDataSize lpEventData]
          else s.accepted }

/-- The `ReadData` of a poll; a successful one starts the splitting loop. -/
def stepReadData (s : Channel) : Option Channel :=
  match s.batch with
  | some _ => none
  | none =>
      match readData s.receiver s.mem true { dwDataSize := 0, pDataBuffer := none } with
      | none => none
      | some (dwResult, c', mem', out) =>
          some { s with
            mem := mem'
            receiver := c'
            batch := if dwResult = 0 then
                out.pDataBuffer.map fun b =>
                  { pMsgData := b, dwSize := out.dwDataSize, dwSizeDone := 0 }
              else none }

/-- One pass of the splitting loop; when its condition fails the poll is
    over. -/
def stepSplit (s : Channel) : Option Channel :=
  match s.batch with
  | none => none
  | some b =>
      match splitStep b.pMsgData b.dwSize b.dwSizeDone with
      | none => some { s with batch := none }
      | some (pMsg, next) =>
          some { s with
            batch := some { b with dwSizeDone := next }
            queue := s.queue.insert (some pMsg) }

/-- The dispatcher's `GetCount() > 0`. -/
def stepGetCount (s : Channel) : Option Channel :=
  if s.counted then none else some { s with counted := decide (s.queue.getCount > 0) }

/-- The dispatcher's `GetHead`, and the hand-over. -/
def stepGetHead (s : Channel) : Option Channel :=
  if s.counted then
    match s.queue.getHead with
    | none => none
    | some (pMsg, q) =>
        some { s with queue := q, counted := false, handed := s.handed ++ [pMsg] }
  else none

/-- What each move does. -/
def step (s : Channel) : Event → Option Channel
  | .send i dwEventType dwMsgCode dwDataSize lpEventData =>
      stepSend s i dwEventType dwMsgCode dwDataSize lpEventData
  | .readData => stepReadData s
  | .split => stepSplit s
  | .getCount => stepGetCount s
  | .getHead => stepGetHead s

/-- A send whose sizes do not wrap and whose payload pointer is null or good
    for the size. The other moves are always admissible. -/
def Admissible (s : Channel) : Event → Prop
  | .send _ _ _ dwDataSize lpEventData =>
      (curDataSize s.mem).toNat + msgHeaderLen + dwDataSize.toNat < 2 ^ 32 ∧
        ∀ payload, lpEventData = some payload → dwDataSize.toNat ≤ payload.length
  | _ => True

theorem admissible_send_iff (s : Channel) (i : Nat) (dwEventType dwMsgCode dwDataSize : UInt32)
    (lpEventData : Option (List UInt8)) :
    (curDataSize s.mem).toNat + msgHeaderLen + dwDataSize.toNat < 2 ^ 32 ∧
        lpEventData.all (fun payload => decide (dwDataSize.toNat ≤ payload.length)) = true ↔
      Admissible s (.send i dwEventType dwMsgCode dwDataSize lpEventData) := by
  rw [Option.all_eq_true]
  simp only [decide_eq_true_eq]
  exact Iff.rfl

instance (s : Channel) (e : Event) : Decidable (Admissible s e) :=
  match e with
  | .send i dwEventType dwMsgCode dwDataSize lpEventData =>
      decidable_of_iff _ (admissible_send_iff s i dwEventType dwMsgCode dwDataSize lpEventData)
  | .readData => inferInstanceAs (Decidable True)
  | .split => inferInstanceAs (Decidable True)
  | .getCount => inferInstanceAs (Decidable True)
  | .getHead => inferInstanceAs (Decidable True)

/-- A container of capacity `cap` with its view mapped. -/
def Mapped (cap : UInt32) (c : CWLIPCMmf) : Prop :=
  c.pMapView = true ∧ c.dwMmfSize = cap

/-- Nothing sent yet, every container mapped with capacity `cap`. -/
structure Start (cap : UInt32) (s : Channel) : Prop where
  holds : Holds cap s.mem
  count_zero : curDataSize s.mem = 0
  sender : ∀ i, Mapped cap (s.sender i)
  receiver : Mapped cap s.receiver
  batch : s.batch = none
  queue : s.queue.queue = []
  counted : s.counted = false
  handed : s.handed = []
  accepted : s.accepted = []

/-- The messages handed over so far. -/
def handedMsgs (s : Channel) : List IpcMsgData :=
  s.handed.map IpcMsgPtr.msg

/-- The messages in the queue. -/
def queuedMsgs (s : Channel) : List IpcMsgData :=
  s.queue.queue.map IpcMsgPtr.msg

/-- The messages of the batch that the poll has not yet queued. -/
def unsplitMsgs (s : Channel) : List IpcMsgData :=
  match s.batch with
  | none => []
  | some b => framesIn (b.pMsgData.drop b.dwSizeDone.toNat)

/-- The messages still in the shared buffer. -/
def pendingMsgs (s : Channel) : List IpcMsgData :=
  framesIn (pending s.mem)

/-- The batch holds whole frames from `dwSizeDone` on. -/
def BatchHolds (b : Batch) (fs : List Frame) : Prop :=
  b.dwSize.toNat = b.pMsgData.length ∧ b.dwSizeDone.toNat ≤ b.dwSize.toNat ∧
    b.pMsgData.drop b.dwSizeDone.toNat = encodeAll fs

/-- The four places hold the accepted messages, and the two regions of bytes
    hold whole frames. -/
structure Delivering (cap : UInt32) (s : Channel) : Prop where
  holds : Holds cap s.mem
  sender : ∀ i, Mapped cap (s.sender i)
  receiver : Mapped cap s.receiver
  waiting : ∃ fs, pending s.mem = encodeAll fs
  unsplit : ∀ b, s.batch = some b → ∃ fs, BatchHolds b fs
  counted : s.counted = true → s.queue.queue ≠ []
  places : handedMsgs s ++ queuedMsgs s ++ unsplitMsgs s ++ pendingMsgs s = s.accepted

theorem pending_of_count_zero (mem : List UInt8) (h : curDataSize mem = 0) : pending mem = [] := by
  rw [pending, h]
  exact slice_zero mem 4

theorem delivering_start (cap : UInt32) (s : Channel) (h : Start cap s) : Delivering cap s := by
  have hpend := pending_of_count_zero s.mem h.count_zero
  refine ⟨h.holds, h.sender, h.receiver, ⟨[], hpend⟩, ?_, ?_, ?_⟩
  · intro b hb
    rw [h.batch] at hb
    exact absurd hb (by simp only [reduceCtorEq, not_false_eq_true])
  · intro hc
    rw [h.counted] at hc
    exact absurd hc (by simp only [Bool.false_eq_true, not_false_eq_true])
  · simp only [handedMsgs, queuedMsgs, unsplitMsgs, pendingMsgs, h.handed, h.queue, h.batch, hpend,
      h.accepted, List.map_nil, List.append_nil]
    rfl

/-- A run of frames with one more behind it reads back with one more message
    at the end. -/
theorem framesIn_snoc (fs : List Frame) (f : Frame) :
    framesIn (encodeAll fs ++ encode f.toIpcMsgData)
      = framesIn (encodeAll fs) ++ [f.toIpcMsgData] := by
  have hone : encode f.toIpcMsgData = encodeAll [f] := by
    rw [encodeAll_cons]
    exact (List.append_nil _).symm
  rw [hone, ← encodeAll_append, framesIn_encode, framesIn_encode, List.map_append, List.map_cons,
    List.map_nil]

theorem delivering_send (cap : UInt32) (s t : Channel) (i : Nat)
    (dwEventType dwMsgCode dwDataSize : UInt32) (lpEventData : Option (List UInt8))
    (h : Delivering cap s)
    (hok : Admissible s (.send i dwEventType dwMsgCode dwDataSize lpEventData))
    (hstep : stepSend s i dwEventType dwMsgCode dwDataSize lpEventData = some t) :
    Delivering cap t := by
  rcases h.sender i with ⟨hmap, hcap⟩
  rcases sendMsgToMmf_spec (s.sender i) s.mem dwEventType dwMsgCode dwDataSize lpEventData hmap
    (hcap ▸ h.holds) hok.1 hok.2 with ⟨dwResult, c', mem', hsend, hmap', hcap', hres⟩
  rw [stepSend, hsend, Option.some.injEq] at hstep
  subst hstep
  have hsender : ∀ j, Mapped cap (Function.update s.sender i c' j) := by
    intro j
    by_cases hj : j = i
    · rw [hj, Function.update_self]
      exact ⟨hmap', hcap'.trans hcap⟩
    · rw [Function.update_of_ne hj]
      exact h.sender j
  rcases hres with ⟨hzero, hholds, hlen, hpend⟩ | ⟨herr, hmem⟩
  · -- Accepted: one more frame behind the pending ones.
    rcases h.waiting with ⟨fs, hfs⟩
    let f : Frame :=
      { sentMsg dwEventType dwMsgCode dwDataSize lpEventData with size_eq := hlen }
    have hpend' : pending mem' = encodeAll (fs ++ [f]) := by
      rw [hpend, hfs, encodeAll_append, encodeAll_cons]
      exact congrArg _ (List.append_nil _).symm
    have hmsgs : framesIn (pending mem') = framesIn (pending s.mem)
        ++ [sentMsg dwEventType dwMsgCode dwDataSize lpEventData] := by
      rw [hpend, hfs]
      exact framesIn_snoc fs f
    refine ⟨hcap ▸ hholds, hsender, h.receiver, ⟨_, hpend'⟩, h.unsplit, h.counted, ?_⟩
    have hplaces := h.places
    simp only [handedMsgs, queuedMsgs, unsplitMsgs, pendingMsgs] at hplaces ⊢
    rw [if_pos hzero, hmsgs, ← hplaces, List.append_assoc _ (framesIn (pending s.mem)) [_]]
  · -- Refused: nothing moved.
    subst hmem
    refine ⟨h.holds, hsender, h.receiver, h.waiting, h.unsplit, h.counted, ?_⟩
    have hplaces := h.places
    simp only [handedMsgs, queuedMsgs, unsplitMsgs, pendingMsgs] at hplaces ⊢
    rw [if_neg herr]
    exact hplaces

theorem delivering_readData (cap : UInt32) (s t : Channel) (h : Delivering cap s)
    (hstep : stepReadData s = some t) : Delivering cap t := by
  rcases h.receiver with ⟨hmap, hcap⟩
  have hplaces := h.places
  unfold stepReadData at hstep
  cases hb : s.batch with
  | some b =>
      rw [hb] at hstep
      exact absurd hstep (by simp only [reduceCtorEq, not_false_eq_true])
  | none =>
      simp only [hb] at hstep
      by_cases hzero : curDataSize s.mem = 0
      · -- An empty poll changes only the error code.
        rw [readData_empty _ _ _ _ hmap hzero] at hstep
        simp only [if_neg (by decide : (1 : UInt32) ≠ 0), Option.some.injEq] at hstep
        subst hstep
        refine ⟨h.holds, h.sender, ⟨hmap, hcap⟩, h.waiting, ?_, h.counted, ?_⟩
        · exact fun b hb' => absurd hb' (by simp only [reduceCtorEq, not_false_eq_true])
        · simp only [handedMsgs, queuedMsgs, unsplitMsgs, pendingMsgs, hb] at hplaces ⊢
          exact hplaces
      · by_cases hmax : (curDataSize s.mem).toNat + 1 < 2 ^ 32
        · rcases readData_drains s.receiver s.mem { dwDataSize := 0, pDataBuffer := none } cap hmap
            h.holds hzero hmax with ⟨mem', hread, hholds, hcount⟩
          rw [hread] at hstep
          simp only [if_true, Option.map_some, Option.some.injEq] at hstep
          subst hstep
          rcases h.waiting with ⟨fs, hfs⟩
          have hempty := pending_of_count_zero mem' hcount
          refine ⟨hholds, h.sender, ⟨hmap, hcap⟩, ⟨[], hempty⟩, ?_, h.counted, ?_⟩
          · intro b hb'
            rw [Option.some.injEq] at hb'
            subst hb'
            refine ⟨fs, ?_, Nat.zero_le _, hfs⟩
            exact (length_pending cap s.mem h.holds).symm
          · -- The frames move from the buffer to the batch.
            have hnil : framesIn ([] : List UInt8) = [] := rfl
            simp only [handedMsgs, queuedMsgs, unsplitMsgs, pendingMsgs, hb, hempty,
              UInt32.toNat_zero, List.drop_zero, List.append_nil, hnil] at hplaces ⊢
            exact hplaces
        -- With 2^32 - 1 bytes pending the size of the buffer wraps and the read faults.
        · rw [readData_overflows _ _ _ hmap (by omega)] at hstep
          exact absurd hstep (by simp only [reduceCtorEq, not_false_eq_true])

theorem delivering_split (cap : UInt32) (s t : Channel) (h : Delivering cap s)
    (hstep : stepSplit s = some t) : Delivering cap t := by
  have hplaces := h.places
  unfold stepSplit at hstep
  cases hb : s.batch with
  | none =>
      rw [hb] at hstep
      exact absurd hstep (by simp only [reduceCtorEq, not_false_eq_true])
  | some b =>
      simp only [hb] at hstep
      rcases h.unsplit b hb with ⟨fs, hsize, hdone, hrest⟩
      cases fs with
      | nil =>
          -- Everything is split: the loop condition fails and the poll ends.
          have hlen := congrArg List.length hrest
          rw [List.length_drop, encodeAll, List.map_nil, List.flatten_nil, List.length_nil] at hlen
          rw [splitStep_short _ _ _ (by rw [msgHeaderLen]; omega), Option.some.injEq] at hstep
          subst hstep
          refine ⟨h.holds, h.sender, h.receiver, h.waiting, ?_, h.counted, ?_⟩
          · exact fun b' hb' => absurd hb' (by simp only [reduceCtorEq, not_false_eq_true])
          · have hnil : framesIn (b.pMsgData.drop b.dwSizeDone.toNat) = [] := by
              rw [hrest]
              rfl
            simp only [handedMsgs, queuedMsgs, unsplitMsgs, pendingMsgs, hb, hnil] at hplaces ⊢
            exact hplaces
      | cons f fs =>
          rcases splitStep_frame b.pMsgData (encodeAll fs) b.dwSize b.dwSizeDone f hsize hrest with
            ⟨next, hsplit, _, hle, hdrop, hmsg⟩
          rw [hsplit] at hstep
          simp only [Option.some.injEq] at hstep
          subst hstep
          refine ⟨h.holds, h.sender, h.receiver, h.waiting, ?_, ?_, ?_⟩
          · intro b' hb'
            rw [Option.some.injEq] at hb'
            subst hb'
            exact ⟨fs, hsize, hle, hdrop⟩
          · intro _
            exact List.append_ne_nil_of_right_ne_nil _ (List.cons_ne_nil _ _)
          · -- The first unsplit message becomes the last queued one.
            have hmove : framesIn (encodeAll (f :: fs))
                = f.toIpcMsgData :: framesIn (encodeAll fs) := by
              rw [framesIn_encode, framesIn_encode, List.map_cons]
            simp only [handedMsgs, queuedMsgs, unsplitMsgs, pendingMsgs, hb, hrest, hmove]
              at hplaces
            simp only [handedMsgs, queuedMsgs, unsplitMsgs, pendingMsgs, hdrop,
              CWLMetaDataQueue.insert, List.map_append, List.map_cons, List.map_nil, IpcMsgPtr.msg,
              hmsg]
            rw [← hplaces]
            simp only [List.append_assoc, List.cons_append, List.nil_append]

theorem delivering_getCount (cap : UInt32) (s t : Channel) (h : Delivering cap s)
    (hstep : stepGetCount s = some t) : Delivering cap t := by
  unfold stepGetCount at hstep
  cases hc : s.counted with
  | true =>
      simp only [hc, if_true] at hstep
      exact absurd hstep (by simp only [reduceCtorEq, not_false_eq_true])
  | false =>
      simp only [hc, Bool.false_eq_true, if_false, Option.some.injEq] at hstep
      subst hstep
      refine ⟨h.holds, h.sender, h.receiver, h.waiting, h.unsplit, ?_, h.places⟩
      intro hpos
      -- The queue is counted before it is read, and only `getHead` takes from it.
      exact s.queue.getCount_pos (of_decide_eq_true hpos)

theorem delivering_getHead (cap : UInt32) (s t : Channel) (h : Delivering cap s)
    (hstep : stepGetHead s = some t) : Delivering cap t := by
  have hplaces := h.places
  unfold stepGetHead CWLMetaDataQueue.getHead at hstep
  cases hc : s.counted with
  | false =>
      simp only [hc, Bool.false_eq_true, if_false] at hstep
      exact absurd hstep (by simp only [reduceCtorEq, not_false_eq_true])
  | true =>
      cases hq : s.queue.queue with
      | nil => exact absurd hq (h.counted hc)
      | cons p rest =>
          simp only [hc, hq, if_true, Option.some.injEq] at hstep
          subst hstep
          refine ⟨h.holds, h.sender, h.receiver, h.waiting, h.unsplit, ?_, ?_⟩
          · exact fun hf => absurd hf (by simp only [Bool.false_eq_true, not_false_eq_true])
          · simp only [handedMsgs, queuedMsgs, unsplitMsgs, pendingMsgs, hq, List.map_cons]
              at hplaces
            simp only [handedMsgs, queuedMsgs, unsplitMsgs, pendingMsgs, List.map_append,
              List.map_cons, List.map_nil]
            rw [← hplaces]
            simp only [List.append_assoc, List.cons_append, List.nil_append]

/-- Every admissible move keeps delivering. -/
theorem delivering_step (cap : UInt32) (s : Channel) (e : Event) (t : Channel)
    (h : Delivering cap s) (hok : Admissible s e) (hstep : step s e = some t) :
    Delivering cap t := by
  cases e with
  | send i dwEventType dwMsgCode dwDataSize lpEventData =>
      exact delivering_send cap s t i _ _ _ _ h hok hstep
  | readData => exact delivering_readData cap s t h hstep
  | split => exact delivering_split cap s t h hstep
  | getCount => exact delivering_getCount cap s t h hstep
  | getHead => exact delivering_getHead cap s t h hstep

/-- A send that returns an error leaves the pending bytes as they were. -/
theorem send_error_frame (cap : UInt32) (s : Channel) (i : Nat)
    (dwEventType dwMsgCode dwDataSize : UInt32) (lpEventData : Option (List UInt8))
    (h : Delivering cap s)
    (hok : Admissible s (.send i dwEventType dwMsgCode dwDataSize lpEventData)) :
    ∃ dwResult c' mem',
      sendMsgToMmf (s.sender i) s.mem true dwEventType dwMsgCode dwDataSize lpEventData
          = some (dwResult, c', mem') ∧
        (dwResult ≠ 0 → pending mem' = pending s.mem) := by
  rcases h.sender i with ⟨hmap, hcap⟩
  rcases sendMsgToMmf_spec (s.sender i) s.mem dwEventType dwMsgCode dwDataSize lpEventData hmap
    (hcap ▸ h.holds) hok.1 hok.2 with ⟨dwResult, c', mem', hsend, _, _, hres⟩
  refine ⟨dwResult, c', mem', hsend, fun herr => ?_⟩
  -- A send that failed wrote nothing.
  rcases hres with ⟨hzero, _⟩ | ⟨_, hmem⟩
  · exact absurd hzero herr
  · rw [hmem]

/-- Every accepted message is in exactly one of the four places, in the order
    of the writes, at every point of every run; between polls it is handed
    over, queued or still in the buffer. -/
theorem channel_delivers (cap : UInt32) (s₀ s : Channel) (es : List Event) (h0 : Start cap s₀)
    (hok : Machine.StepsMeet step Admissible s₀ es) (hrun : Machine.run step s₀ es = some s) :
    handedMsgs s ++ queuedMsgs s ++ unsplitMsgs s ++ pendingMsgs s = s.accepted ∧
      (s.batch = none → handedMsgs s ++ queuedMsgs s ++ pendingMsgs s = s.accepted) ∧
      ∀ i dwEventType dwMsgCode dwDataSize lpEventData,
        Admissible s (.send i dwEventType dwMsgCode dwDataSize lpEventData) →
          ∃ dwResult c' mem',
            sendMsgToMmf (s.sender i) s.mem true dwEventType dwMsgCode dwDataSize lpEventData
                = some (dwResult, c', mem') ∧
              (dwResult ≠ 0 → pending mem' = pending s.mem) := by
  have h : Delivering cap s := Machine.run_invariant_of_stepsMeet step Admissible (Delivering cap)
    (fun s e t hs he ht => delivering_step cap s e t hs he ht) s₀ s es
    (delivering_start cap s₀ h0) hok hrun
  refine ⟨h.places, fun hb => ?_,
    fun i ev code n lp ha => send_error_frame cap s i ev code n lp h ha⟩
  have hplaces := h.places
  rwa [unsplitMsgs, hb, List.append_nil] at hplaces

/-- A container with everything mapped. -/
def openContainer (cap : UInt32) : CWLIPCMmf :=
  { dwErrorCode := 0, hMff := true, pMapView := true, dwMmfSize := cap, hMutex := true }

/-- A fresh channel of capacity 32. -/
def smallChannel : Channel :=
  { mem := List.replicate 36 0
    sender := fun _ => openContainer 32
    receiver := openContainer 32
    batch := none
    queue := CWLMetaDataQueue.empty
    counted := false
    handed := []
    accepted := [] }

/-- Two senders. The third message has no room, and the fourth is sent while
    the first two are split. -/
def twoSenders : List Event :=
  [.send 0 2 1 3 (some [7, 8, 9]), .send 1 2 5 2 (some [5, 6]),
    .send 0 2 1 4 (some [1, 2, 3, 4]), .readData, .split, .getCount, .getHead,
    .send 1 2 6 1 (some [4]), .split, .split, .getCount, .getHead]

theorem channel_delivers_twoSenders :
    ∃ s, Machine.run step smallChannel twoSenders = some s ∧ s.batch = none ∧
      s.accepted.map IpcMsgData.dwMsgCode = [1, 5, 6] ∧ (handedMsgs s).length = 2 ∧
      handedMsgs s ++ queuedMsgs s ++ pendingMsgs s = s.accepted := by
  have hrun : (Machine.run step smallChannel twoSenders).any (fun s => s.batch.isNone &&
      s.accepted.map IpcMsgData.dwMsgCode == [1, 5, 6] && (handedMsgs s).length == 2) = true := by
    decide +kernel
  rcases hs : Machine.run step smallChannel twoSenders with _ | s
  · rw [hs] at hrun
    exact absurd hrun (by simp only [Option.any_none, Bool.false_eq_true, not_false_eq_true])
  · rw [hs] at hrun
    simp only [Option.any_some, Bool.and_eq_true, Option.isNone_iff_eq_none, beq_iff_eq] at hrun
    have hstart : Start 32 smallChannel :=
      ⟨⟨rfl, by decide⟩, by decide, fun _ => ⟨rfl, rfl⟩, ⟨rfl, rfl⟩, rfl, rfl, rfl, rfl, rfl⟩
    have hok : Machine.StepsMeet step Admissible smallChannel twoSenders := by decide +kernel
    exact ⟨s, rfl, hrun.1.1, hrun.1.2, hrun.2,
      (channel_delivers 32 _ s _ hstart hok hs).2.1 hrun.1.1⟩

end Ipc

end Defender
