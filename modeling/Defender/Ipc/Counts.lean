import Mathlib.Algebra.Group.Nat.Defs
import Defender.Lib.Machine
import Defender.Ipc.Service

/-!
# The Two Counts of the Queue

The queue of `MessageQueue.cpp` is counted twice: `GetCount` asks the
container, and `GetTotalSize` returns a member that `Insert` and `GetHead` keep
by hand. `RemoveAll` empties the container and leaves the member alone.

A `History` is the queue together with what has been put into it and what has
become of it, so that both counts can be compared with the number of messages
that are still in it. After any operations the member counts what is queued
and, besides, all that `RemoveAll` has ever dropped; the counts agree as long
as `RemoveAll` meets an empty queue, up to the 32 bits they have. The order of
the messages does not depend on the counts.

## Main definitions

* `QueueOp`: The operations of the queue.
* `History`: The queue, and what has been put into it and taken from it.
* `queueStep`: One operation.
* `CountsAgree`: Both counts are the number of messages in the queue.
* `Accounted`: What every history has.
* `KeepsCounts`: What an operation must meet for the counts to agree.

## Theorems

* `accounted_step`: Every operation keeps the account.
* `total_drifts`: The member counts what was dropped as well.
* `countsAgree_iff`: What the agreement comes to.
* `counts_iff_keeps`: The counts agree throughout exactly in the runs whose
  operations keep them.
-/

namespace Defender

namespace Ipc

open Machine

variable {α : Type}

/-- The operations of `CWLMetaDataQueue` that change it. -/
inductive QueueOp (α : Type) where
  | insert (pMetadata : Option α)
  | getHead
  | removeAll
  deriving DecidableEq, Repr

/-- The queue, the messages `Insert` has put into it, those `GetHead` has
    returned and those `RemoveAll` has deleted. -/
structure History (α : Type) where
  q : CWLMetaDataQueue α
  inserted : List α
  handedOut : List α
  dropped : List α
  deriving DecidableEq, Repr

/-- After the constructor. -/
def History.start : History α :=
  { q := CWLMetaDataQueue.empty, inserted := [], handedOut := [], dropped := [] }

/-- One operation. `GetHead` has no result on an empty queue. -/
def queueStep (s : History α) : QueueOp α → Option (History α)
  | .insert pMetadata =>
      some { s with q := s.q.insert pMetadata, inserted := s.inserted ++ pMetadata.toList }
  | .getHead =>
      s.q.getHead.map fun r => { s with q := r.2, handedOut := s.handedOut ++ [r.1] }
  | .removeAll =>
      -- The member that counts is left as it is.
      some { s with q := s.q.removeAll, dropped := s.dropped ++ s.q.queue }

/-- The number of messages inserted and neither handed out nor dropped. -/
def History.remaining (s : History α) : Nat :=
  s.inserted.length - (s.handedOut.length + s.dropped.length)

/-- Both counts are the number of messages that remain, and what was handed out
    was inserted in that order, each message once at most. -/
structure CountsAgree (s : History α) : Prop where
  total : s.q.getTotalSize.toNat = s.remaining
  count : s.q.getCount.toNat = s.remaining
  order : s.handedOut.Sublist s.inserted

/-- What every history has. -/
structure Accounted (s : History α) : Prop where
  order : (s.handedOut ++ s.q.queue).Sublist s.inserted
  number : s.inserted.length = s.handedOut.length + s.dropped.length + s.q.queue.length
  total : s.q.nTotalSize = UInt32.ofNat (s.q.queue.length + s.dropped.length)

/-- `RemoveAll` meets an empty queue, and `Insert` one with room in the 32 bits
    of the counts. -/
def KeepsCounts (s : History α) : QueueOp α → Prop
  | .insert pMetadata => pMetadata.isSome = true → s.q.queue.length + 1 < 2 ^ 32
  | .getHead => True
  | .removeAll => s.q.queue = []

/-- What an operation that is done does. -/
theorem queueStep_cases {s t : History α} {op : QueueOp α} (hstep : queueStep s op = some t) :
    (op = .insert none ∧ t = s) ∨
    (∃ p, op = .insert (some p) ∧
      t = { s with q := s.q.insert (some p), inserted := s.inserted ++ [p] }) ∨
    (∃ p rest, op = .getHead ∧ s.q.queue = p :: rest ∧
      t = { s with q := { s.q with queue := rest, nTotalSize := s.q.nTotalSize - 1 },
                   handedOut := s.handedOut ++ [p] }) ∨
    (op = .removeAll ∧ t = { s with q := s.q.removeAll, dropped := s.dropped ++ s.q.queue }) := by
  cases op with
  | insert pMetadata =>
      cases pMetadata with
      | none =>
          simp only [queueStep, CWLMetaDataQueue.insert, Option.toList_none, List.append_nil,
            Option.some.injEq] at hstep
          exact Or.inl ⟨rfl, hstep.symm⟩
      | some p => exact Or.inr (Or.inl ⟨p, rfl, (Option.some.inj hstep).symm⟩)
  | getHead =>
      cases hq : s.q.queue with
      | nil =>
          simp only [queueStep, CWLMetaDataQueue.getHead, hq, Option.map_none,
            reduceCtorEq] at hstep
      | cons p rest =>
          simp only [queueStep, CWLMetaDataQueue.getHead, hq, Option.map_some,
            Option.some.injEq] at hstep
          exact Or.inr (Or.inr (Or.inl ⟨p, rest, rfl, rfl, hstep.symm⟩))
  | removeAll => exact Or.inr (Or.inr (Or.inr ⟨rfl, (Option.some.inj hstep).symm⟩))

theorem accounted_start : Accounted (History.start : History α) :=
  ⟨List.Sublist.refl [], rfl, rfl⟩

/-- Every operation keeps the account. -/
theorem accounted_step (s : History α) (op : QueueOp α) (t : History α) (h : Accounted s)
    (hstep : queueStep s op = some t) : Accounted t := by
  have hnumber := h.number
  rcases queueStep_cases hstep with ⟨-, rfl⟩ | ⟨p, -, rfl⟩ | ⟨p, rest, -, hq, rfl⟩ | ⟨-, rfl⟩
  · exact h
  · refine ⟨?_, ?_, ?_⟩
    · simp only [CWLMetaDataQueue.insert, ← List.append_assoc]
      exact h.order.append (List.Sublist.refl [p])
    · simp only [CWLMetaDataQueue.insert, List.length_append, List.length_singleton]
      omega
    · simp only [CWLMetaDataQueue.insert, h.total, List.length_append, List.length_singleton,
        Nat.add_right_comm _ 1, UInt32.ofNat_add]
      rfl
  · refine ⟨?_, ?_, ?_⟩
    · rw [List.append_assoc, List.singleton_append, ← hq]
      exact h.order
    · rw [hq, List.length_cons] at hnumber
      simp only [List.length_append, List.length_singleton]
      omega
    · -- The decrement takes back one of the increments.
      simp only [h.total, hq, List.length_cons, Nat.add_right_comm _ 1, UInt32.ofNat_add]
      exact UInt32.add_sub_cancel _ _
  · refine ⟨?_, ?_, ?_⟩
    · simp only [CWLMetaDataQueue.removeAll, List.append_nil]
      exact (List.sublist_append_left _ _).trans h.order
    · simp only [CWLMetaDataQueue.removeAll, List.length_append, List.length_nil]
      omega
    · simp only [CWLMetaDataQueue.removeAll, List.length_append, List.length_nil, h.total]
      -- What was queued is counted with what was dropped.
      rw [Nat.zero_add, Nat.add_comm]

/-- In every run the member counts what is queued and what was dropped. -/
theorem total_drifts (ops : List (QueueOp α)) (t : History α)
    (hrun : run queueStep History.start ops = some t) :
    t.q.getTotalSize = UInt32.ofNat (t.q.queue.length + t.dropped.length) :=
  (run_invariant queueStep Accounted accounted_step _ t ops accounted_start hrun).total

/-- The counts agree where the container's fits and what was dropped does not
    show in the member. -/
theorem countsAgree_iff (s : History α) (h : Accounted s) :
    CountsAgree s ↔ s.q.queue.length < 2 ^ 32 ∧ s.dropped.length % 2 ^ 32 = 0 := by
  -- What remains is what is queued, and the member is too high by what was dropped.
  have hremain : s.remaining = s.q.queue.length := by
    have hnumber := h.number
    unfold History.remaining
    omega
  have htotal : s.q.getTotalSize.toNat = (s.q.queue.length + s.dropped.length) % 2 ^ 32 := by
    rw [CWLMetaDataQueue.getTotalSize, h.total, UInt32.toNat_ofNat']
  have hcount : s.q.getCount.toNat = s.q.queue.length % 2 ^ 32 := UInt32.toNat_ofNat'
  constructor
  · rintro ⟨ht, hc, -⟩
    rw [htotal, hremain] at ht
    rw [hcount, hremain] at hc
    omega
  · rintro ⟨hlen, hdropped⟩
    refine ⟨?_, ?_, (List.sublist_append_left _ _).trans h.order⟩
    · rw [htotal, hremain]
      omega
    · rw [hcount, hremain]
      omega

/-- From a history whose counts agree, an operation leads to one whose counts
    agree exactly when it keeps them. -/
theorem countsAgree_step (s : History α) (op : QueueOp α) (t : History α) (h : Accounted s)
    (hagree : CountsAgree s) (hstep : queueStep s op = some t) :
    CountsAgree t ↔ KeepsCounts s op := by
  have ht := accounted_step s op t h hstep
  rcases (countsAgree_iff s h).mp hagree with ⟨hlen, hdropped⟩
  rw [countsAgree_iff t ht]
  rcases queueStep_cases hstep with
    ⟨rfl, rfl⟩ | ⟨p, rfl, rfl⟩ | ⟨p, rest, rfl, hq, rfl⟩ | ⟨rfl, rfl⟩
  · exact iff_of_true ⟨hlen, hdropped⟩ (fun hsome => absurd hsome (by
      simp only [Option.isSome_none, Bool.false_eq_true, not_false_eq_true]))
  · simp only [CWLMetaDataQueue.insert, KeepsCounts, List.length_append, List.length_singleton,
      Option.isSome_some, true_implies]
    exact and_iff_left hdropped
  · rw [hq, List.length_cons] at hlen
    exact iff_of_true ⟨Nat.lt_of_succ_lt hlen, hdropped⟩ trivial
  · simp only [CWLMetaDataQueue.removeAll, KeepsCounts, List.length_append, List.length_nil,
      ← List.length_eq_zero_iff]
    omega

/-- The counts agree throughout a run exactly when its operations keep them. -/
theorem counts_iff_keeps (ops : List (QueueOp α)) (t : History α)
    (hrun : run queueStep History.start ops = some t) :
    Throughout queueStep CountsAgree History.start ops ↔
      StepsMeet queueStep KeepsCounts History.start ops :=
  throughout_iff_stepsMeet queueStep Accounted CountsAgree KeepsCounts accounted_step
    countsAgree_step History.start t ops accounted_start
    ((countsAgree_iff _ accounted_start).mpr ⟨Nat.two_pow_pos 32, rfl⟩) hrun

/-- Two messages, one of which is handed out. -/
theorem counts_two_messages :
    Throughout queueStep CountsAgree (History.start : History Nat)
        [.insert (some 1), .insert none, .insert (some 2), .getHead] ↔
      StepsMeet queueStep KeepsCounts (History.start : History Nat)
        [.insert (some 1), .insert none, .insert (some 2), .getHead] :=
  counts_iff_keeps [.insert (some 1), .insert none, .insert (some 2), .getHead] _ rfl

/-- One message inserted and dropped: the container is empty, and the member is
    one. -/
theorem counts_after_removeAll :
    ¬ Throughout queueStep CountsAgree (History.start : History Nat)
      [.insert (some 1), .removeAll] := by
  intro h
  have hlast := h [.insert (some 1), .removeAll] [] _ rfl rfl
  exact absurd hlast.total (by decide)

end Ipc

end Defender
