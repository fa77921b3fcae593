import Defender.Lib.Machine
import Mathlib.Data.List.Basic

/-!
# Counted References

Objects that own each other by counted references, after the last reference
from outside has been given up. An object to which no live object refers is
freed, and with it go the references that it held, so others may follow, in any
order.

A set of objects each of which is referred to from the set is never touched.
So what is left in the end does not depend on the order: it is the union of
those sets, and what is in no cycle and behind none is freed.

## Main definitions

* `Held`: A live object refers to it.
* `free`: One object is freed.
* `Supported`: Each of the objects is held by one of them.

## Theorems

* `supported_survives`: Objects that hold each other are not freed.
* `settled_iff`: Nothing more can be freed.
* `left_iff`: What is left in the end.
* `run_nodup`: No object is there twice.
-/

namespace Counted

variable {ι : Type*} (refs : ι → List ι)

/-- One of the objects refers to `k`. -/
def Held (live : List ι) (k : ι) : Prop :=
  ∃ i ∈ live, k ∈ refs i

/-- More objects hold more. -/
theorem Held.mono {live live' : List ι} {k : ι} (h : Held refs live k) (hsub : live ⊆ live') :
    Held refs live' k := by
  rcases h with ⟨i, hi, hk⟩
  exact ⟨i, hsub hi, hk⟩

/-- Each of the objects is referred to by one of them. -/
def Supported (objects : List ι) : Prop :=
  ∀ k ∈ objects, Held refs objects k

variable [DecidableEq ι]

instance (live : List ι) (k : ι) : Decidable (Held refs live k) :=
  inferInstanceAs (Decidable (∃ i ∈ live, _))

/-- The object `k` is freed, if it is alive and no live object refers to it. -/
def free (live : List ι) (k : ι) : Option (List ι) :=
  if k ∈ live ∧ ¬ Held refs live k then some (live.filter (· ≠ k)) else none

theorem free_cases {live t : List ι} {k : ι} (h : free refs live k = some t) :
    k ∈ live ∧ ¬ Held refs live k ∧ t = live.filter (· ≠ k) := by
  unfold free at h
  split at h
  · next hk => exact ⟨hk.1, hk.2, (Option.some.inj h).symm⟩
  · exact absurd h (by simp only [reduceCtorEq, not_false_eq_true])

theorem mem_filter_ne {live : List ι} {k j : ι} : j ∈ live.filter (· ≠ k) ↔ j ∈ live ∧ j ≠ k := by
  rw [List.mem_filter, decide_eq_true_eq]

theorem free_subset {live t : List ι} {k : ι} (h : free refs live k = some t) : t ⊆ live := by
  rcases free_cases refs h with ⟨-, -, rfl⟩
  exact fun j hj => (mem_filter_ne.mp hj).1

theorem run_subset {live t : List ι} {ks : List ι}
    (hrun : Machine.run (free refs) live ks = some t) : t ⊆ live :=
  Machine.run_invariant (free refs) (· ⊆ live)
    (fun _ _ _ hs hstep => List.Subset.trans (free_subset refs hstep) hs) live t ks
    (List.Subset.refl live) hrun

/-- Objects that hold each other are not freed. -/
theorem supported_survives {objects live t : List ι} {ks : List ι} (h : Supported refs objects)
    (hsub : objects ⊆ live) (hrun : Machine.run (free refs) live ks = some t) : objects ⊆ t := by
  refine Machine.run_invariant (free refs) (objects ⊆ ·) (fun s k u hs hstep j hj => ?_) live t ks
    hsub hrun
  rcases free_cases refs hstep with ⟨-, hnot, rfl⟩
  -- The one that is freed is held by nobody, and each of these is.
  refine mem_filter_ne.mpr ⟨hs hj, fun hjk => hnot ?_⟩
  exact hjk ▸ (h j hj).mono refs hs

/-- Nothing more can be freed when every object that is left is held. -/
theorem settled_iff (live : List ι) : (∀ k, free refs live k = none) ↔ Supported refs live := by
  constructor
  · intro h k hk
    by_contra hnot
    have hfree := h k
    rw [free, if_pos ⟨hk, hnot⟩] at hfree
    exact absurd hfree (by simp only [reduceCtorEq, not_false_eq_true])
  · exact fun h k => if_neg (fun hk => hk.2 (h k hk.1))

/-- What is left in the end, whatever the order: what belongs to objects that
    hold each other. -/
theorem left_iff {live t : List ι} {ks : List ι}
    (hrun : Machine.run (free refs) live ks = some t) (hsettled : ∀ k, free refs t k = none)
    (k : ι) : k ∈ t ↔ ∃ objects, objects ⊆ live ∧ Supported refs objects ∧ k ∈ objects := by
  constructor
  · exact fun hk => ⟨t, run_subset refs hrun, (settled_iff refs t).mp hsettled, hk⟩
  · rintro ⟨objects, hsub, hsupported, hk⟩
    exact supported_survives refs hsupported hsub hrun hk

/-- Nothing is in the list twice that was not. -/
theorem run_nodup {live t : List ι} {ks : List ι}
    (hrun : Machine.run (free refs) live ks = some t) (h : live.Nodup) : t.Nodup := by
  refine Machine.run_invariant (free refs) List.Nodup (fun s k u hs hstep => ?_) live t ks h hrun
  rcases free_cases refs hstep with ⟨-, -, rfl⟩
  exact hs.filter _

end Counted
