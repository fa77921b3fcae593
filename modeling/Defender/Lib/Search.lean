import Mathlib.Data.List.Infix

/-!
# The Last Place of a Text in Another

`rfind` looks for the last place at which a list begins another one, as
`std::wstring::rfind` does. What a caller goes on with is what stands behind
that place, and `behind` is this.

A stretch in which the first letter of the key does not occur is as good as not
there (`rfind_append_of_head_not_mem`). So a text that is put together from
parts is searched part by part, from its end (`behind_key_append`).

## Main definitions

* `rfind`: The last place.
* `behind`: What follows the last place.

## Theorems

* `rfind_eq_none_iff`: Nothing is found where there is nothing.
* `rfind_append_of_head_not_mem`: A stretch without the first letter.
* `behind_eq_some_iff`: What follows, told by the parts of the text.
* `behind_key_append`: The key itself, and then the rest.
-/

namespace Defender

namespace Search

variable {α : Type*} [DecidableEq α]

/-- The last place at which `key` stands in a list. -/
def rfind (key : List α) : List α → Option Nat
  | [] => if key = [] then some 0 else none
  | c :: s =>
      match rfind key s with
      | some i => some (i + 1)
      | none => if key.isPrefixOf (c :: s) then some 0 else none

/-- What follows the last place. -/
def behind (key s : List α) : Option (List α) :=
  (rfind key s).map (fun i => s.drop (i + key.length))

theorem rfind_cons_of_some {key s : List α} {c : α} {i : Nat} (h : rfind key s = some i) :
    rfind key (c :: s) = some (i + 1) := by
  rw [rfind, h]

theorem rfind_cons_of_none {key s : List α} {c : α} (h : rfind key s = none) :
    rfind key (c :: s) = if key.isPrefixOf (c :: s) then some 0 else none := by
  rw [rfind, h]

/-- Nothing is found where there is nothing. -/
theorem rfind_eq_none_iff {key : List α} (hkey : key ≠ []) {s : List α} :
    rfind key s = none ↔ ¬ key <:+: s := by
  induction s with
  | nil => rw [rfind, if_neg hkey, List.infix_nil, eq_self_iff_true, true_iff]; exact hkey
  | cons c s ih =>
      rw [List.infix_cons_iff, not_or, ← ih]
      cases hs : rfind key s with
      | some j =>
          rw [rfind_cons_of_some hs]
          simp only [reduceCtorEq, and_false]
      | none =>
          rw [rfind_cons_of_none hs]
          by_cases hprefix : key.isPrefixOf (c :: s) = true
          · rw [if_pos hprefix]
            exact iff_of_false (by simp only [reduceCtorEq, not_false_eq_true])
              (fun h => h.1 (List.isPrefixOf_iff_prefix.mp hprefix))
          · rw [if_neg hprefix]
            exact iff_of_true rfl
              ⟨fun h => hprefix (List.isPrefixOf_iff_prefix.mpr h), rfl⟩

/-- What is found behind a stretch is found with it. -/
theorem rfind_append_of_some {key b : List α} {i : Nat} (h : rfind key b = some i) (a : List α) :
    rfind key (a ++ b) = some (a.length + i) := by
  induction a with
  | nil => rw [List.nil_append, List.length_nil, Nat.zero_add, h]
  | cons c a ih =>
      rw [List.cons_append, rfind_cons_of_some ih, List.length_cons, Nat.add_right_comm]

/-- A stretch in which the first letter of the key does not occur. -/
theorem rfind_append_of_head_not_mem {k : α} {key a : List α} (ha : k ∉ a) (b : List α) :
    rfind (k :: key) (a ++ b) = (rfind (k :: key) b).map (a.length + ·) := by
  induction a with
  | nil =>
      simp only [List.nil_append, List.length_nil, Nat.zero_add, Option.map_id']
  | cons c a ih =>
      rw [List.mem_cons, not_or] at ha
      rw [List.cons_append]
      cases hb : rfind (k :: key) b with
      | some j =>
          rw [hb, Option.map_some] at ih
          rw [rfind_cons_of_some (ih ha.2), Option.map_some, List.length_cons,
            Nat.add_right_comm]
      | none =>
          rw [hb, Option.map_none] at ih
          rw [rfind_cons_of_none (ih ha.2), Option.map_none, List.isPrefixOf_cons_cons,
            beq_eq_false_iff_ne.mpr ha.1, Bool.false_and, if_neg Bool.false_ne_true]

theorem behind_append_of_head_not_mem {k : α} {key a : List α} (ha : k ∉ a) (b : List α) :
    behind (k :: key) (a ++ b) = behind (k :: key) b := by
  rw [behind, behind, rfind_append_of_head_not_mem ha, Option.map_map]
  congr 1
  funext i
  rw [Function.comp_apply, Nat.add_assoc, List.drop_append, List.drop_eq_nil_of_le (by omega),
    List.nil_append, Nat.add_sub_cancel_left]

theorem behind_eq_none_iff {key : List α} (hkey : key ≠ []) {s : List α} :
    behind key s = none ↔ ¬ key <:+: s := by
  rw [behind, Option.map_eq_none_iff, rfind_eq_none_iff hkey]

/-- The key itself, and then the rest: the rest decides where it has the key. -/
theorem behind_key_append {k : α} {key : List α} (hkey : k ∉ key) (b : List α) :
    behind (k :: key) ((k :: key) ++ b) = some ((behind (k :: key) b).getD b) := by
  have hskip : rfind (k :: key) (key ++ b) = (rfind (k :: key) b).map (key.length + ·) :=
    rfind_append_of_head_not_mem hkey b
  cases hb : rfind (k :: key) b with
  | some j =>
      rw [hb, Option.map_some] at hskip
      rw [behind, behind, hb, List.cons_append, rfind_cons_of_some hskip, Option.map_some,
        Option.map_some, Option.getD_some, List.length_cons,
        show key.length + j + 1 + (key.length + 1) = (key.length + (j + (key.length + 1))) + 1
          from by omega,
        List.drop_succ_cons, List.drop_append, List.drop_eq_nil_of_le (by omega),
        List.nil_append, Nat.add_sub_cancel_left]
  | none =>
      rw [hb, Option.map_none] at hskip
      have hprefix : (k :: key).isPrefixOf (k :: (key ++ b)) = true :=
        List.isPrefixOf_iff_prefix.mpr (List.prefix_append (k :: key) b)
      rw [behind, behind, hb, List.cons_append, rfind_cons_of_none hskip, if_pos hprefix,
        Option.map_some, Option.map_none, Option.getD_none, Nat.zero_add, ← List.cons_append,
        List.drop_left]

/-- What follows, told by the parts of the text: the key, and what does not have it again. -/
theorem behind_eq_some_iff {k : α} {key s after : List α} :
    behind (k :: key) s = some after ↔
      ∃ before, s = before ++ (k :: key) ++ after ∧ ¬ (k :: key) <:+: key ++ after := by
  constructor
  · intro h
    induction s with
    | nil =>
        rw [behind, rfind, if_neg (List.cons_ne_nil k key), Option.map_none] at h
        exact absurd h (by simp only [reduceCtorEq, not_false_eq_true])
    | cons c s ih =>
        -- An occurrence further back is the last one; without it, the text may begin with the key.
        cases hs : rfind (k :: key) s with
        | some j =>
            rw [behind, rfind_cons_of_some hs, Option.map_some, Nat.add_right_comm,
              List.drop_succ_cons] at h
            rw [behind, hs, Option.map_some] at ih
            rcases ih h with ⟨before, hparts, hlast⟩
            exact ⟨c :: before, by rw [hparts]; rfl, hlast⟩
        | none =>
            rw [behind, rfind_cons_of_none hs] at h
            by_cases hprefix : (k :: key).isPrefixOf (c :: s) = true
            · rw [if_pos hprefix, Option.map_some, Nat.zero_add, Option.some.injEq] at h
              have hparts := List.prefix_iff_eq_append.mp (List.isPrefixOf_iff_prefix.mp hprefix)
              rw [h, List.cons_append, List.cons.injEq] at hparts
              refine ⟨[], by rw [List.nil_append, List.cons_append, hparts.1, hparts.2], ?_⟩
              rw [hparts.2]
              exact (rfind_eq_none_iff (List.cons_ne_nil k key)).mp hs
            · rw [if_neg hprefix] at h
              exact absurd h (by simp only [Option.map_none, reduceCtorEq, not_false_eq_true])
  · rintro ⟨before, hparts, hlast⟩
    have hfound : rfind (k :: key) ((k :: key) ++ after) = some 0 := by
      rw [List.cons_append, rfind_cons_of_none
        ((rfind_eq_none_iff (List.cons_ne_nil k key)).mpr hlast)]
      exact if_pos (List.isPrefixOf_iff_prefix.mpr (List.prefix_append (k :: key) after))
    rw [hparts, List.append_assoc, behind, rfind_append_of_some hfound before, Option.map_some,
      Nat.add_zero, List.drop_append, List.drop_eq_nil_of_le (by omega), List.nil_append,
      Nat.add_sub_cancel_left, List.drop_left]

end Search

end Defender
