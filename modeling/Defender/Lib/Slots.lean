import Mathlib.Data.List.Nodup
import Mathlib.Data.List.Perm.Basic

/-!
# Slots

A slot for each number, as when any number of calls may be made and each is somewhere.
One of them is put to something else at a time.

## Main definitions

* `put`: One slot put to something else.

## Theorems

* `put_self`, `put_of_ne`, `put_put`: What is in the slots then.
* `put_cases`, `eq_of_put`: The slot that was put, or another one.
* `put_congr`: What does not tell the new from the old is the same everywhere.
* `countP_put_of_iff`, `countP_put_of_mem`: How many slots of a list are something.
-/

namespace Slots

variable {β : Type}

/-- One slot put to something else. -/
def put (f : Nat → β) (i : Nat) (b : β) : Nat → β :=
  fun j => if j = i then b else f j

theorem put_self (f : Nat → β) (i : Nat) (b : β) : put f i b i = b :=
  if_pos rfl

theorem put_of_ne (f : Nat → β) {i j : Nat} (b : β) (h : j ≠ i) : put f i b j = f j :=
  if_neg h

theorem put_put (f : Nat → β) (i : Nat) (a b : β) : put (put f i a) i b = put f i b := by
  funext j
  by_cases hj : j = i
  · rw [hj, put_self, put_self]
  · rw [put_of_ne _ b hj, put_of_ne f a hj, put_of_ne f b hj]

/-- What is known of a slot is known of the new if it is the one that was put, and was so
    before if it is another one. -/
theorem put_cases {p : β → Prop} {f : Nat → β} {i j : Nat} {b : β} (h : p (put f i b j)) :
    (j = i ∧ p b) ∨ (j ≠ i ∧ p (f j)) := by
  by_cases hj : j = i
  · rw [hj, put_self] at h
    exact Or.inl ⟨hj, h⟩
  · rw [put_of_ne f b hj] at h
    exact Or.inr ⟨hj, h⟩

theorem eq_of_put {f : Nat → β} {i j : Nat} {b c : β} (h : put f i b j = c) :
    (j = i ∧ b = c) ∨ (j ≠ i ∧ f j = c) :=
  put_cases (p := (· = c)) h

/-- What does not tell the new from the old is the same everywhere. -/
theorem put_congr {γ : Type} (g : β → γ) {f : Nat → β} {i : Nat} {b : β} (h : g b = g (f i))
    (j : Nat) : g (put f i b j) = g (f j) := by
  by_cases hj : j = i
  · rw [hj, put_self]
    exact h
  · rw [put_of_ne f b hj]

/-- As many slots are something as before when the one that is put is not in the list, or is it
    as much as before. -/
theorem countP_put_of_iff (p : β → Bool) {f : Nat → β} {i : Nat} {b : β} {xs : List Nat}
    (h : i ∈ xs → p b = p (f i)) :
    xs.countP (fun j => p (put f i b j)) = xs.countP (fun j => p (f j)) := by
  refine List.countP_congr (fun j hj => ?_)
  by_cases hji : j = i
  · rw [hji, put_self, h (hji ▸ hj)]
  · rw [put_of_ne f b hji]

/-- One more is, when the one that is put is in the list and was not. -/
theorem countP_put_of_mem (p : β → Bool) {f : Nat → β} {i : Nat} {b : β} {xs : List Nat}
    (hnodup : xs.Nodup) (hi : i ∈ xs) (hnew : p b = true) (hold : p (f i) = false) :
    xs.countP (fun j => p (put f i b j)) = xs.countP (fun j => p (f j)) + 1 := by
  have hperm := List.perm_cons_erase hi
  have hnot : i ∉ xs.erase i := fun hmem => absurd rfl (hnodup.mem_erase_iff.mp hmem).1
  rw [hperm.countP_eq, hperm.countP_eq, List.countP_cons, List.countP_cons,
    countP_put_of_iff p (fun hmem => absurd hmem hnot), put_self, if_pos hnew, hold,
    if_neg Bool.false_ne_true]

end Slots
