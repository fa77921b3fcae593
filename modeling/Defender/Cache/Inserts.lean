import Mathlib.Algebra.Group.Int.Defs
import Defender.Cache.KeySet
import Defender.Lib.Machine
import Defender.Lib.Slots

/-!
# Putting Items in at the Same Time

`hashtb_insert_item` called by any number of threads. The search for an item with the
key is under `ListMutex`; behind it, without the lock, are the two groups of pointers
that `__list_add_tail` writes, the read of `item_count` and the write. Each is a step
here, and calls are interleaved.

A call has its own item, which has the number of the call.

## Main definitions

* `searchItem`, `pointItem`, `linkItem`: The parts of a call.
* `InsertCall`, `State`, `step`, `Stepped`: The calls and their steps.
* `KeepsSet`: What is asked for.
* `Orderly`: The steps that do not get in each other's way.

## Theorems

* `listAddTail_eq`: The two groups one after the other.
* `run_alone`: A call that is not interleaved is the one of the source.
* `stepped_of_step`: What a step can do.
-/

namespace Defender

namespace Cache

namespace Inserts

open RingList

/-! ### The parts of a call -/

/-- The part of `__hashtb_insert_item` under the lock: the head of the list that the item is
    to be put into, if it is. -/
def searchItem (fuel : Nat) (m : Mem) (table : HashTb) (val : PeCacheItemKey) :
    Option (Option Ptr) :=
  if table.bucket_count = 0 then some none
  else
    match table.hash_list with
    | none => none
    | some list =>
        let head := Ptr.head list (hashtbHash table val).toNat
        match walk m.links head (hashtbEqual table m val) fuel (m.links.next head) with
        | .found _ => some none
        | .ended => some (some head)
        | .null => none
        | .outOfFuel => none

/-- The first group of `__list_add_tail`: the pointer that is read, and those of the item. -/
def pointItem (links : Links Ptr) (head item : Ptr) : Option (Ptr × Links Ptr) :=
  match links.prev head with
  | none => none
  | some prev => some (prev, (links.setNext item (some head)).setPrev item (some prev))

/-- The second group. -/
def linkItem (links : Links Ptr) (head item prev : Ptr) : Links Ptr :=
  (links.setNext prev (some item)).setPrev head (some item)

/-- The two groups one after the other. -/
theorem listAddTail_eq (links : Links Ptr) (head item : Ptr) :
    listAddTail links head item =
      (pointItem links head item).map (fun r => linkItem r.2 head item r.1) := by
  unfold listAddTail pointItem
  cases links.prev head with
  | none => rfl
  | some prev => rfl

/-! ### Calls -/

/-- Where a call is: not made, behind the search, behind the first group and the second, with
    the count that was read, and back. -/
inductive InsertCall where
  | notCalled
  | searched (head : Ptr)
  | pointed (head prev : Ptr)
  | linked
  | counting (item_count : Int32)
  | returned (retval : Bool)
deriving DecidableEq

/-- Memory, the table, and the calls. -/
structure State where
  m : Mem
  table : HashTb
  calls : Nat → InsertCall

/-- Nothing was called. -/
def start (m : Mem) (table : HashTb) : State where
  m := m
  table := table
  calls := fun _ => .notCalled

/-- The steps of a call. A search is given a bound on its steps. -/
inductive Label where
  | search (i fuel : Nat)
  | point (i : Nat)
  | link (i : Nat)
  | readCount (i : Nat)
  | writeCount (i : Nat)
deriving DecidableEq

/-- A call is at another place. -/
def State.setCall (s : State) (i : Nat) (call : InsertCall) : State :=
  { s with calls := Slots.put s.calls i call }

/-- A step of a call. -/
def step (s : State) : Label → Option State
  | .search i fuel =>
      match s.calls i, searchItem fuel s.m s.table (s.m.key i) with
      | .notCalled, some none => some (s.setCall i (.returned false))
      | .notCalled, some (some head) => some (s.setCall i (.searched head))
      | _, _ => none
  | .point i =>
      match s.calls i with
      | .searched head =>
          match pointItem s.m.links head (.item i) with
          | none => none
          | some (prev, links) =>
              some ({ s with m := { s.m with links := links } }.setCall i (.pointed head prev))
      | _ => none
  | .link i =>
      match s.calls i with
      | .pointed head prev =>
          some ({ s with m := { s.m with links := linkItem s.m.links head (.item i) prev } }.setCall
            i .linked)
      | _ => none
  | .readCount i =>
      match s.calls i with
      | .linked => some (s.setCall i (.counting s.table.item_count))
      | _ => none
  | .writeCount i =>
      match s.calls i with
      | .counting item_count =>
          some ({ s with table := { s.table with item_count := item_count + 1 } }.setCall i
            (.returned true))
      | _ => none

/-- The steps, each with where it is taken. -/
inductive Stepped (s : State) : Label → State → Prop where
  | searchFound (i fuel : Nat) (hcall : s.calls i = .notCalled)
      (hsearch : searchItem fuel s.m s.table (s.m.key i) = some none) :
      Stepped s (.search i fuel) (s.setCall i (.returned false))
  | searchEnded (i fuel : Nat) (head : Ptr) (hcall : s.calls i = .notCalled)
      (hsearch : searchItem fuel s.m s.table (s.m.key i) = some (some head)) :
      Stepped s (.search i fuel) (s.setCall i (.searched head))
  | point (i : Nat) (head prev : Ptr) (hcall : s.calls i = .searched head)
      (hprev : s.m.links.prev head = some prev) :
      Stepped s (.point i) ({ s with m := { s.m with
        links := (s.m.links.setNext (.item i) (some head)).setPrev (.item i) (some prev) } }.setCall
          i (.pointed head prev))
  | link (i : Nat) (head prev : Ptr) (hcall : s.calls i = .pointed head prev) :
      Stepped s (.link i) ({ s with
        m := { s.m with links := linkItem s.m.links head (.item i) prev } }.setCall i .linked)
  | readCount (i : Nat) (hcall : s.calls i = .linked) :
      Stepped s (.readCount i) (s.setCall i (.counting s.table.item_count))
  | writeCount (i : Nat) (item_count : Int32) (hcall : s.calls i = .counting item_count) :
      Stepped s (.writeCount i) ({ s with
        table := { s.table with item_count := item_count + 1 } }.setCall i (.returned true))

theorem stepped_of_step {s t : State} {l : Label} (h : step s l = some t) : Stepped s l t := by
  -- A step has a result only where the call is at the place that the label is for.
  cases l with
  | search i fuel =>
      simp only [step] at h
      split at h
      case h_1 hcall hsearch => exact Option.some.inj h ▸ .searchFound i fuel hcall hsearch
      case h_2 head hcall hsearch =>
        exact Option.some.inj h ▸ .searchEnded i fuel head hcall hsearch
      case h_3 => exact absurd h (by simp only [reduceCtorEq, not_false_eq_true])
  | point i =>
      simp only [step] at h
      split at h
      case h_1 head hcall =>
        cases hprev : s.m.links.prev head with
        | none => simp only [pointItem, hprev, reduceCtorEq] at h
        | some prev =>
            simp only [pointItem, hprev, Option.some.injEq] at h
            exact h ▸ .point i head prev hcall hprev
      case h_2 => exact absurd h (by simp only [reduceCtorEq, not_false_eq_true])
  | link i =>
      simp only [step] at h
      split at h
      case h_1 head prev hcall => exact Option.some.inj h ▸ .link i head prev hcall
      case h_2 => exact absurd h (by simp only [reduceCtorEq, not_false_eq_true])
  | readCount i =>
      simp only [step] at h
      split at h
      case h_1 hcall => exact Option.some.inj h ▸ .readCount i hcall
      case h_2 => exact absurd h (by simp only [reduceCtorEq, not_false_eq_true])
  | writeCount i =>
      simp only [step] at h
      split at h
      case h_1 item_count hcall => exact Option.some.inj h ▸ .writeCount i item_count hcall
      case h_2 => exact absurd h (by simp only [reduceCtorEq, not_false_eq_true])

/-! ### A call alone -/

/-- The search and what comes behind it are the function of the source. -/
theorem insertItem_eq (fuel : Nat) (m : Mem) (table : HashTb) (item : Nat)
    (val : PeCacheItemKey) :
    insertItem fuel m table item val =
      match searchItem fuel m table val with
      | none => none
      | some none => some (false, m)
      | some (some head) =>
          (pointItem m.links head (.item item)).map
            (fun r => (true, { m with links := linkItem r.2 head (.item item) r.1 })) := by
  unfold insertItem searchItem
  by_cases hbuckets : table.bucket_count = 0
  · rw [if_pos hbuckets, if_pos hbuckets]
  rw [if_neg hbuckets, if_neg hbuckets]
  cases table.hash_list with
  | none => rfl
  | some list =>
      dsimp only
      generalize walk m.links (.head list (hashtbHash table val).toNat) (hashtbEqual table m val)
        fuel (m.links.next (.head list (hashtbHash table val).toNat)) = found
      cases found with
      | found entry => rfl
      | ended =>
          dsimp only
          rw [listAddTail_eq]
          cases pointItem m.links (.head list (hashtbHash table val).toNat) (.item item) with
          | none => rfl
          | some r => rfl
      | null => rfl
      | outOfFuel => rfl

/-- A call whose steps follow one another does what the function does. -/
theorem run_alone (s : State) (i fuel : Nat) (hcall : s.calls i = .notCalled) (m : Mem)
    (table : HashTb) (h : hashtbInsertItem fuel s.m s.table i (s.m.key i) = some (true, m, table)) :
    Machine.run step s [.search i fuel, .point i, .link i, .readCount i, .writeCount i] =
      some ⟨m, table, Slots.put s.calls i (.returned true)⟩ := by
  rw [hashtbInsertItem, insertItem_eq] at h
  cases hsearch : searchItem fuel s.m s.table (s.m.key i) with
  | none => simp only [hsearch, reduceCtorEq] at h
  | some found =>
      cases found with
      | none => simp only [hsearch, Option.some.injEq, Prod.mk.injEq, Bool.false_eq_true,
          false_and] at h
      | some head =>
          cases hpoint : pointItem s.m.links head (.item i) with
          | none => simp only [hsearch, hpoint, Option.map_none, reduceCtorEq] at h
          | some r =>
              simp only [hsearch, hpoint, Option.map_some, Option.some.injEq, Prod.mk.injEq,
                true_and] at h
              rcases h with ⟨rfl, rfl⟩
              simp only [Machine.run, List.foldlM_cons, List.foldlM_nil, step, hcall, hsearch,
                hpoint, State.setCall, Slots.put_self, Slots.put_put, Option.bind_eq_bind,
                Option.bind_some, Option.pure_def]

/-! ### What is asked for -/

/-- No call is in progress. -/
def Quiet (s : State) : Prop :=
  ∀ i, s.calls i = .notCalled ∨ ∃ retval, s.calls i = .returned retval

/-- When no call is in progress, the buckets are rings of items, each in the bucket of its key,
    and no two with the same key; the items are those of the calls that returned `TRUE`, and the
    count is their number. -/
def KeepsSet (list : Nat) (s : State) : Prop :=
  Quiet s → ∃ chains, Chained s.m s.table.bucket_count list chains ∧
    (∀ i, i ∈ chains.flatten ↔ s.calls i = .returned true) ∧
    s.table.item_count.toInt = chains.flatten.length

/-- A call that has searched and has not put its item in yet. -/
def InsertCall.Waiting : InsertCall → Prop
  | .searched _ | .pointed _ _ => True
  | _ => False

/-- The steps for which the table stays a set: nobody searches for a key that another call is
    about to put in, the head still points back to where it did when the second group is
    written, and the count is the one that was read when it is written, and no `long` overflows. -/
def Orderly (s : State) : Label → Prop
  | .search i _ => ∀ j, (s.calls j).Waiting → s.m.key j ≠ s.m.key i
  | .link i => ∀ head prev, s.calls i = .pointed head prev → s.m.links.prev head = some prev
  | .writeCount i => ∀ item_count, s.calls i = .counting item_count →
      s.table.item_count = item_count ∧ item_count.toInt + 1 < 2 ^ 31
  | _ => True

end Inserts

end Cache

end Defender
