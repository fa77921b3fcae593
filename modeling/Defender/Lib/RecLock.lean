import Mathlib.Tactic.TypeStar

/-!
# Recursive Locks

A lock that its owner may take again. It is free, or held by one owner who
still has to release it `again` more times after the first release; a lock
that is owned but not held cannot be written down.

Taking a lock someone else holds has no result: the taker waits. Releasing a
lock one does not own changes nothing, and a holder that dies leaves the lock
free.

## Main definitions

* `RecLock`: Free, or held by an owner.
* `wait`, `release`, `abandon`: Taking it, giving it back, dying with it.
* `owner`: Who holds it.

## Theorems

* `owner_wait`: Whoever gets past the wait owns the lock.
* `wait_owner_of_ne`: A lock that was taken was not held by another.
* `owner_release_of_ne`, `owner_abandon_of_ne`: What others do to a lock they
  do not own.
-/

/-- A lock that is free, or held and to be released `again + 1` times. -/
inductive RecLock (τ : Type*) where
  | free
  | held (owner : τ) (again : Nat)
  deriving DecidableEq, Repr

namespace RecLock

variable {τ : Type*} [DecidableEq τ]

/-- Who holds the lock. -/
def owner : RecLock τ → Option τ
  | free => none
  | held o _ => some o

/-- Take the lock, or wait. -/
def wait (t : τ) : RecLock τ → Option (RecLock τ)
  | free => some (held t 0)
  | held o k => if o = t then some (held o (k + 1)) else none

/-- Give the lock back once. -/
def release (t : τ) : RecLock τ → RecLock τ
  | free => free
  | held o 0 => if o = t then free else held o 0
  | held o (k + 1) => if o = t then held o k else held o (k + 1)

/-- The lock when `t` has died. -/
def abandon (t : τ) : RecLock τ → RecLock τ
  | free => free
  | held o k => if o = t then free else held o k

/-- Whoever gets past the wait owns the lock. -/
theorem owner_wait (t : τ) (m m' : RecLock τ) (h : wait t m = some m') : m'.owner = some t := by
  cases m with
  | free =>
      rw [wait, Option.some.injEq] at h
      rw [← h, owner]
  | held o k =>
      rw [wait] at h
      by_cases ho : o = t
      · rw [if_pos ho, Option.some.injEq] at h
        rw [← h, owner, ho]
      · rw [if_neg ho] at h
        exact absurd h (by simp only [reduceCtorEq, not_false_eq_true])

/-- A lock that `t` could take was not held by another. -/
theorem wait_owner_of_ne (t u : τ) (m m' : RecLock τ) (h : wait t m = some m') (hu : u ≠ t) :
    m.owner ≠ some u := by
  cases m with
  | free => exact fun hc => absurd hc (by simp only [owner, reduceCtorEq, not_false_eq_true])
  | held o k =>
      intro hc
      rw [owner, Option.some.injEq] at hc
      rw [wait, if_neg (by rw [hc]; exact hu)] at h
      exact absurd h (by simp only [reduceCtorEq, not_false_eq_true])

theorem owner_release_of_ne (t u : τ) (m : RecLock τ) (h : m.owner = some u) (hu : u ≠ t) :
    (release t m).owner = some u := by
  cases m with
  | free => exact absurd h (by simp only [owner, reduceCtorEq, not_false_eq_true])
  | held o k =>
      rw [owner, Option.some.injEq] at h
      have ho : o ≠ t := by rw [h]; exact hu
      cases k with
      | zero => rw [release, if_neg ho, owner, h]
      | succ k => rw [release, if_neg ho, owner, h]

theorem owner_abandon_of_ne (t u : τ) (m : RecLock τ) (h : m.owner = some u) (hu : u ≠ t) :
    (abandon t m).owner = some u := by
  cases m with
  | free => exact absurd h (by simp only [owner, reduceCtorEq, not_false_eq_true])
  | held o k =>
      rw [owner, Option.some.injEq] at h
      rw [abandon, if_neg (by rw [h]; exact hu), owner, h]

end RecLock
