import Mathlib.Algebra.GroupWithZero.Nat
import Mathlib.Data.List.Basic

/-!
# A List of Workers

A system of workers is a list of what each of them is doing, and a step of the
system replaces one entry. `perm_set` is all there is to such a replacement:
with the old entry put back the list is the one before with the new entry.
What is counted over the workers, or gathered from them, follows.

## Theorems

* `perm_set`: One entry is exchanged.
* `countP_set`: What a replacement does to a count.
* `sum_set`: What it does to a sum.
* `flatMap_set`: What it does to what the workers hold.
* `of_mem_set`: Who is in the list afterwards.
-/

namespace Crew

variable {α β : Type}

/-- Replacing an entry exchanges it for another, wherever it was. -/
theorem perm_set (l : List α) (i : Nat) (a x : α) (h : l[i]? = some x) :
    (x :: l.set i a).Perm (a :: l) := by
  induction l generalizing i with
  | nil => exact absurd h (by simp only [List.getElem?_nil, reduceCtorEq, not_false_eq_true])
  | cons y l ih =>
      cases i with
      | zero =>
          rw [List.getElem?_cons_zero, Option.some.injEq] at h
          rw [List.set_cons_zero, h]
          exact List.Perm.swap a x l
      | succ i =>
          rw [List.getElem?_cons_succ] at h
          rw [List.set_cons_succ]
          exact ((List.Perm.swap y x _).trans ((ih i h).cons y)).trans (List.Perm.swap a y l)

/-- What a replacement does to a count. -/
theorem countP_set (p : α → Bool) (l : List α) (i : Nat) (a x : α) (h : l[i]? = some x) :
    (l.set i a).countP p + (if p x = true then 1 else 0)
      = l.countP p + (if p a = true then 1 else 0) := by
  have hcount := (perm_set l i a x h).countP_eq p
  rw [List.countP_cons, List.countP_cons] at hcount
  exact hcount

/-- What a replacement does to a sum. -/
theorem sum_set (w : α → Nat) (l : List α) (i : Nat) (a x : α) (h : l[i]? = some x) :
    ((l.set i a).map w).sum + w x = (l.map w).sum + w a := by
  have hsum := ((perm_set l i a x h).map w).sum_nat
  rw [List.map_cons, List.map_cons, List.sum_cons, List.sum_cons] at hsum
  omega

/-- What a replacement does to what is gathered. -/
theorem flatMap_set (f : α → List β) (l : List α) (i : Nat) (a x : α) (h : l[i]? = some x) :
    (f x ++ (l.set i a).flatMap f).Perm (f a ++ l.flatMap f) := by
  have hperm := (perm_set l i a x h).flatMap_right f
  rw [List.flatMap_cons, List.flatMap_cons] at hperm
  exact hperm

/-- An entry that stays what it was. -/
theorem getElem?_set_of_ne (l : List α) (i j : Nat) (a : α) (h : j ≠ i) :
    (l.set i a)[j]? = l[j]? :=
  List.getElem?_set_ne (Ne.symm h)

/-- Where an entry was there is one after the replacement. -/
theorem getElem?_set_of_some (l : List α) (i : Nat) (a x : α) (h : l[i]? = some x) :
    (l.set i a)[i]? = some a :=
  List.getElem?_set_self (List.getElem?_eq_some_iff.mp h).1

/-- An entry of the list afterwards is the new one or was there before. -/
theorem of_mem_set (l : List α) (i : Nat) (a y : α) (h : y ∈ l.set i a) : y = a ∨ y ∈ l :=
  (List.mem_or_eq_of_mem_set h).symm

end Crew
