import Mathlib.Data.List.Basic

/-!
# Keeping Part of a List by Position

`keep p i l` is what is left of a list that starts at position `i` when only
the positions that satisfy `p` are kept. It is what a reader that skips ranges
of a file delivers, with the ranges as the predicate: reading from one position
to another is an append, a run between two ranges keeps everything, and a skip
keeps nothing.

Two lists from which different positions were taken out cannot be compared
element by element, but as far as the predicates agree they can: what was kept
of the one is then as long as what was kept of the other, so it is the same
prefix of both. `getElem?_of_keep_eq` says so.

## Main definitions

* `keep`: The elements at the positions kept.
* `Range`, `Range.covers`, `outside`: A range of positions, and the positions
  in none of some ranges.
* `gaps`: What is left between ranges.

## Theorems

* `keep_append`: Keeping goes piece by piece.
* `keep_all`: A piece that is kept as a whole.
* `keep_map`, `keep_range'`: What is kept is a filter of the positions.
* `getElem?_of_keep_eq`: Equal elements where the predicates agree.
* `length_keep`, `countP_covers`: How much is kept, and how much a range covers.
* `countP_eq_iff`: Predicates that count the same are the same, if one implies
  the other.
* `keep_sublist`: What is kept of more is more.
-/

namespace Ranges

variable {α : Type}

/-- The elements whose position is kept, of a list that starts at position
    `i`. -/
def keep (p : Nat → Bool) (i : Nat) (l : List α) : List α :=
  match l with
  | [] => []
  | a :: l => if p i = true then a :: keep p (i + 1) l else keep p (i + 1) l

theorem keep_nil (p : Nat → Bool) (i : Nat) : keep p i ([] : List α) = [] := rfl

theorem keep_append (p : Nat → Bool) (i : Nat) (l m : List α) :
    keep p i (l ++ m) = keep p i l ++ keep p (i + l.length) m := by
  induction l generalizing i with
  | nil => rw [List.nil_append, keep_nil, List.nil_append, List.length_nil, Nat.add_zero]
  | cons a l ih =>
      have hnext : i + 1 + l.length = i + (a :: l).length := by
        rw [List.length_cons]
        omega
      rw [List.cons_append, keep, keep, ih (i + 1), hnext]
      by_cases hp : p i = true
      · rw [if_pos hp, if_pos hp, List.cons_append]
      · rw [if_neg hp, if_neg hp]

theorem keep_all (p : Nat → Bool) (i : Nat) (l : List α)
    (h : ∀ k, i ≤ k → k < i + l.length → p k = true) : keep p i l = l := by
  induction l generalizing i with
  | nil => rfl
  | cons a l ih =>
      rw [List.length_cons] at h
      rw [keep, if_pos (h i (Nat.le_refl i) (by omega)),
        ih (i + 1) (fun k hlow hhigh => h k (by omega) (by omega))]

theorem keep_map {β : Type} (f : α → β) (p : Nat → Bool) (i : Nat) (l : List α) :
    keep p i (l.map f) = (keep p i l).map f := by
  induction l generalizing i with
  | nil => rfl
  | cons a l ih =>
      rw [List.map_cons, keep, keep, ih (i + 1)]
      by_cases hp : p i = true
      · rw [if_pos hp, if_pos hp, List.map_cons]
      · rw [if_neg hp, if_neg hp]

/-- Of the positions themselves, those kept are a filter. -/
theorem keep_range' (p : Nat → Bool) (i n : Nat) :
    keep p i (List.range' i n) = (List.range' i n).filter p := by
  induction n generalizing i with
  | zero => rfl
  | succ n ih =>
      rw [List.range'_succ, keep, List.filter_cons, ih (i + 1)]

/-- How much is kept depends on the predicate and the length only. -/
theorem length_keep_congr (p q : Nat → Bool) (i : Nat) (l m : List α)
    (hlen : l.length = m.length) (h : ∀ k, i ≤ k → k < i + l.length → p k = q k) :
    (keep p i l).length = (keep q i m).length := by
  induction l generalizing i m with
  | nil =>
      have hm : m = [] := List.eq_nil_of_length_eq_zero hlen.symm
      rw [hm]
      rfl
  | cons a l ih =>
      cases m with
      | nil => exact absurd hlen (Nat.succ_ne_zero _)
      | cons b m =>
          rw [List.length_cons] at h
          have hrest := ih (i + 1) m (Nat.succ.inj hlen) (fun k hlow hhigh => h k (by omega)
            (by omega))
          rw [keep, keep, h i (Nat.le_refl i) (by omega)]
          by_cases hq : q i = true
          · rw [if_pos hq, if_pos hq, List.length_cons, List.length_cons, hrest]
          · rw [if_neg hq, if_neg hq, hrest]

/-- Lists of one length from which the same was kept at the same positions
    agree at the positions kept. -/
theorem getElem?_of_keep (p q : Nat → Bool) (i : Nat) (l m : List α)
    (hlen : l.length = m.length) (h : ∀ k, i ≤ k → k < i + l.length → p k = q k)
    (hkeep : keep p i l = keep q i m) (k : Nat) (hk : p (i + k) = true) : l[k]? = m[k]? := by
  induction l generalizing i m k with
  | nil =>
      have hm : m = [] := List.eq_nil_of_length_eq_zero hlen.symm
      rw [hm]
  | cons a l ih =>
      cases m with
      | nil => exact absurd hlen (Nat.succ_ne_zero _)
      | cons b m =>
          rw [List.length_cons] at h
          have hagree : ∀ k, i + 1 ≤ k → k < i + 1 + l.length → p k = q k :=
            fun k hlow hhigh => h k (by omega) (by omega)
          rw [keep, keep, h i (Nat.le_refl i) (by omega)] at hkeep
          -- The heads are both kept, with equal tails, or both left out.
          have hboth : (q i = true → a = b) ∧ keep p (i + 1) l = keep q (i + 1) m := by
            by_cases hq : q i = true
            · rw [if_pos hq, if_pos hq] at hkeep
              rcases List.cons.inj hkeep with ⟨hab, hrest⟩
              exact ⟨fun _ => hab, hrest⟩
            · rw [if_neg hq, if_neg hq] at hkeep
              exact ⟨fun hq' => absurd hq' hq, hkeep⟩
          cases k with
          | zero =>
              have hq : q i = true := by
                rw [← h i (Nat.le_refl i) (by omega)]
                exact hk
              rw [hboth.1 hq]
              rfl
          | succ k =>
              have hshift : i + (k + 1) = i + 1 + k := by omega
              rw [hshift] at hk
              exact ih (i + 1) m (Nat.succ.inj hlen) hagree hboth.2 k hk

/-- If the same was kept of two lists, they agree where the predicates do so
    far. -/
theorem getElem?_of_keep_eq (p q : Nat → Bool) (l m : List α) (n : Nat) (hl : n ≤ l.length)
    (hm : n ≤ m.length) (h : ∀ k, k < n → p k = q k) (hkeep : keep p 0 l = keep q 0 m)
    (k : Nat) (hk : k < n) (hp : p k = true) : l[k]? = m[k]? := by
  have hlenl : (l.take n).length = n := by
    rw [List.length_take]
    omega
  have hlenm : (m.take n).length = n := by
    rw [List.length_take]
    omega
  have hagree : ∀ k, 0 ≤ k → k < 0 + (l.take n).length → p k = q k :=
    fun k _ hk => h k (by omega)
  have hsame := length_keep_congr p q 0 (l.take n) (m.take n) (hlenl.trans hlenm.symm) hagree
  rw [← List.take_append_drop n l, ← List.take_append_drop n m, keep_append, keep_append] at hkeep
  rcases List.append_inj hkeep hsame with ⟨hfront, -⟩
  have hget := getElem?_of_keep p q 0 (l.take n) (m.take n) (hlenl.trans hlenm.symm) hagree hfront
    k (by rw [Nat.zero_add]; exact hp)
  rw [List.getElem?_take_of_lt hk, List.getElem?_take_of_lt hk] at hget
  exact hget

/-! ### Ranges -/

/-- The positions from `first` up to, and not including, `last`. -/
structure Range where
  first : Nat
  last : Nat
  deriving DecidableEq, Repr

/-- A position lies in a range. -/
def Range.covers (r : Range) (k : Nat) : Bool :=
  decide (r.first ≤ k) && decide (k < r.last)

/-- A position lies in none of the ranges. -/
def outside (rs : List Range) (k : Nat) : Bool :=
  rs.all (fun r => !r.covers k)

theorem covers_iff (r : Range) (k : Nat) : r.covers k = true ↔ r.first ≤ k ∧ k < r.last := by
  rw [Range.covers, Bool.and_eq_true, decide_eq_true_eq, decide_eq_true_eq]

theorem outside_iff (rs : List Range) (k : Nat) :
    outside rs k = true ↔ ∀ r ∈ rs, ¬ (r.first ≤ k ∧ k < r.last) := by
  rw [outside, List.all_eq_true]
  refine forall_congr' (fun r => forall_congr' (fun _ => ?_))
  rw [Bool.not_eq_true', ← covers_iff, Bool.not_eq_true]

theorem outside_cons (r : Range) (rs : List Range) (k : Nat) :
    outside (r :: rs) k = (!r.covers k && outside rs k) := rfl

/-- Which ranges there are matters, not their order. -/
theorem outside_congr (rs rs' : List Range) (h : ∀ r, r ∈ rs ↔ r ∈ rs') :
    outside rs = outside rs' := by
  funext k
  rw [Bool.eq_iff_iff, outside_iff, outside_iff]
  exact forall_congr' (fun r => imp_congr (h r) Iff.rfl)

/-! ### Gaps -/

/-- What is left between ranges that are gone through in turn, from a position up
    to an end: where each gap begins, and how long it is. Of a range that begins
    before the position only the rest is gone past. -/
def gaps (n : Nat) : List Range → Nat → List (Nat × Nat)
  | [], p => if p < n then [(p, n - p)] else []
  | r :: rs, p =>
      (if p < min r.first n then [(p, min r.first n - p)] else [])
        ++ gaps n rs (max p (min n (max r.first r.last)))

/-- At the end there are no more. -/
theorem gaps_end (n : Nat) (rs : List Range) : gaps n rs n = [] := by
  induction rs with
  | nil => exact if_neg (Nat.lt_irrefl n)
  | cons r rs ih =>
      have hstay : max n (min n (max r.first r.last)) = n := by omega
      rw [gaps, if_neg (by omega), hstay, ih, List.nil_append]

/-! ### Counting -/

/-- As much is kept as there are positions. -/
theorem length_keep (p : Nat → Bool) (i : Nat) (l : List α) :
    (keep p i l).length = (List.range' i l.length).countP p := by
  induction l generalizing i with
  | nil => rfl
  | cons a l ih =>
      rw [keep, List.length_cons, List.range'_succ, List.countP_cons, ← ih (i + 1)]
      by_cases hp : p i = true
      · rw [if_pos hp, if_pos hp, List.length_cons]
      · rw [if_neg hp, if_neg hp]
        rfl

/-- What is kept by less is part of what is kept by more. -/
theorem keep_sublist (p q : Nat → Bool) (i : Nat) (l : List α)
    (h : ∀ k, p k = true → q k = true) : (keep p i l).Sublist (keep q i l) := by
  induction l generalizing i with
  | nil => exact List.Sublist.refl _
  | cons a l ih =>
      rw [keep, keep]
      by_cases hp : p i = true
      · rw [if_pos hp, if_pos (h i hp)]
        exact (ih (i + 1)).cons_cons a
      · rw [if_neg hp]
        by_cases hq : q i = true
        · rw [if_pos hq]
          exact (ih (i + 1)).cons a
        · rw [if_neg hq]
          exact ih (i + 1)

/-- The positions that a range covers, of those from one on. -/
theorem countP_covers (r : Range) (i n : Nat) :
    (List.range' i n).countP r.covers = min (i + n) r.last - max i r.first := by
  induction n generalizing i with
  | zero =>
      rw [List.range'_zero, List.countP_nil]
      omega
  | succ n ih =>
      rw [List.range'_succ, List.countP_cons, ih (i + 1)]
      by_cases hcovers : r.covers i = true
      · have hin := (covers_iff r i).mp hcovers
        rw [if_pos hcovers]
        omega
      · have hout : ¬ (r.first ≤ i ∧ i < r.last) := fun h => hcovers ((covers_iff r i).mpr h)
        rw [if_neg hcovers]
        omega

/-- A position is counted by a predicate or by its negation. -/
theorem countP_add_not (p : Nat → Bool) (l : List Nat) :
    l.countP p + l.countP (fun k => !p k) = l.length := by
  induction l with
  | nil => rfl
  | cons k l ih =>
      rw [List.countP_cons, List.countP_cons, List.length_cons, ← ih]
      cases hp : p k with
      | false =>
          rw [if_neg Bool.false_ne_true, Bool.not_false, if_pos rfl]
          omega
      | true =>
          rw [if_pos rfl, Bool.not_true, if_neg Bool.false_ne_true]
          omega

/-- Of two predicates one of which implies the other, the counts are equal when
    they are. -/
theorem countP_eq_iff (p q : Nat → Bool) (l : List Nat) (h : ∀ k ∈ l, p k = true → q k = true) :
    l.countP p = l.countP q ↔ ∀ k ∈ l, p k = q k := by
  induction l with
  | nil => exact iff_of_true rfl (fun k hk => absurd hk List.not_mem_nil)
  | cons k l ih =>
      have htail : ∀ k ∈ l, p k = true → q k = true :=
        fun k hk => h k (List.mem_cons_of_mem _ hk)
      have hle : l.countP p ≤ l.countP q := List.countP_mono_left htail
      have hhead := h k List.mem_cons_self
      rw [List.countP_cons, List.countP_cons, List.forall_mem_cons, ← ih htail]
      cases hp : p k with
      | true => rw [hhead hp, if_pos rfl, and_iff_right rfl, Nat.add_right_cancel_iff]
      | false =>
          cases hq : q k with
          | false => rw [and_iff_right rfl, Nat.add_right_cancel_iff]
          | true =>
              rw [if_neg Bool.false_ne_true, if_pos rfl]
              refine iff_of_false (by omega) (fun hand => Bool.false_ne_true hand.1)

/-- Where two predicates imply a third together, they count no more than the
    positions and the third. -/
theorem countP_add_le (p q r : Nat → Bool) (l : List Nat)
    (h : ∀ k ∈ l, p k = true → q k = true → r k = true) :
    l.countP p + l.countP q ≤ l.length + l.countP r := by
  induction l with
  | nil => exact Nat.le_refl _
  | cons k l ih =>
      have htail := ih (fun k hk => h k (List.mem_cons_of_mem _ hk))
      have hhead := h k List.mem_cons_self
      rw [List.countP_cons, List.countP_cons, List.countP_cons, List.length_cons]
      by_cases hp : p k = true
      · by_cases hq : q k = true
        · rw [if_pos hp, if_pos hq, if_pos (hhead hp hq)]
          omega
        · rw [if_pos hp, if_neg hq]
          omega
      · rw [if_neg hp]
        split <;> omega

end Ranges
