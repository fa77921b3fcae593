import Mathlib.Data.List.Basic

/-!
# Doubly Linked Rings

Lists that are threaded through memory: every node has a pointer to the next
and one to the one before, and a head, which is a node itself, closes the list
to a ring. A pointer may be null.

A `Path` is a stretch of such a list with both of its ends, and a ring is a
path from its head to its head on which no node is met twice. A path depends
on no more than the pointers between its nodes (`Path.congr`), and two paths
that meet are one (`path_append`). What is done to a ring is done at one place
of it: the paths on both sides stay, and in between a node is put in or taken
out.

A loop that follows the pointers until it is back at the head is `walk`. It is
given a bound on its steps, and with one more step than the ring has nodes it
comes to an end.

## Main definitions

* `Links`, `setPrev`, `setNext`: The pointers, and writing one.
* `Path`, `IsRing`: A stretch of a list, and a list with its head.
* `walk`: Looking for a node.

## Theorems

* `path_append`: A path can be cut at any of its nodes.
* `Path.next_ne_none`, `IsRing.next_head`: Where the pointers lead.
* `Path.congr`, `IsRing.congr`: What a path and a ring depend on.
* `ring_alone`: A head that points to itself.
* `IsRing.insertLast`: A node put in before the head.
* `IsRing.removeFirst`: The node behind the head taken out.
* `walk_add`, `walk_ring`: What a walk finds.
-/

namespace RingList

variable {α : Type}

/-- The pointers of the nodes in memory. -/
structure Links (α : Type) where
  prev : α → Option α
  next : α → Option α

section Pointers

variable [DecidableEq α]

/-- The pointer of `a` to the one before is written. -/
def Links.setPrev (m : Links α) (a : α) (b : Option α) : Links α :=
  { m with prev := fun x => if x = a then b else m.prev x }

/-- The pointer of `a` to the next is written. -/
def Links.setNext (m : Links α) (a : α) (b : Option α) : Links α :=
  { m with next := fun x => if x = a then b else m.next x }

@[simp] theorem next_setPrev (m : Links α) (a : α) (b : Option α) :
    (m.setPrev a b).next = m.next := rfl

@[simp] theorem prev_setNext (m : Links α) (a : α) (b : Option α) :
    (m.setNext a b).prev = m.prev := rfl

theorem prev_setPrev (m : Links α) (a x : α) (b : Option α) :
    (m.setPrev a b).prev x = if x = a then b else m.prev x := rfl

theorem next_setNext (m : Links α) (a x : α) (b : Option α) :
    (m.setNext a b).next x = if x = a then b else m.next x := rfl

/-- A pointer that is written again. -/
theorem setNext_of_eq {m : Links α} {a : α} {b : Option α} (h : m.next a = b) :
    m.setNext a b = m := by
  have hnext : (m.setNext a b).next = m.next := by
    funext x
    rw [next_setNext]
    by_cases hx : x = a
    · rw [if_pos hx, hx, h]
    · rw [if_neg hx]
  exact congrArg (Links.mk m.prev) hnext

theorem setPrev_of_eq {m : Links α} {a : α} {b : Option α} (h : m.prev a = b) :
    m.setPrev a b = m := by
  have hprev : (m.setPrev a b).prev = m.prev := by
    funext x
    rw [prev_setPrev]
    by_cases hx : x = a
    · rw [if_pos hx, hx, h]
    · rw [if_neg hx]
  exact congrArg (fun prev => Links.mk prev m.next) hprev

end Pointers

/-! ### Paths -/

/-- From `a` over `xs` to `b` the pointers lead there and back. -/
def Path (m : Links α) : α → List α → α → Prop
  | a, [], b => m.next a = some b ∧ m.prev b = some a
  | a, x :: xs, b => (m.next a = some x ∧ m.prev x = some a) ∧ Path m x xs b

/-- A path can be cut at any of its nodes. -/
theorem path_append (m : Links α) (a b y : α) (xs ys : List α) :
    Path m a (xs ++ y :: ys) b ↔ Path m a xs y ∧ Path m y ys b := by
  induction xs generalizing a with
  | nil => rfl
  | cons x xs ih =>
      rw [List.cons_append, Path, Path, ih x, ← and_assoc]

/-- A path depends on the pointers between its nodes. -/
theorem Path.congr {m m' : Links α} {a b : α} {xs : List α} (h : Path m a xs b)
    (hnext : ∀ x ∈ a :: xs, m'.next x = m.next x)
    (hprev : ∀ x ∈ xs ++ [b], m'.prev x = m.prev x) : Path m' a xs b := by
  induction xs generalizing a with
  | nil =>
      refine ⟨?_, ?_⟩
      · rw [hnext a List.mem_cons_self]
        exact h.1
      · rw [hprev b List.mem_cons_self]
        exact h.2
  | cons x xs ih =>
      refine ⟨⟨?_, ?_⟩, ih h.2 ?_ ?_⟩
      · rw [hnext a List.mem_cons_self]
        exact h.1.1
      · rw [hprev x List.mem_cons_self]
        exact h.1.2
      · exact fun y hy => hnext y (List.mem_cons_of_mem a hy)
      · exact fun y hy => hprev y (List.mem_cons_of_mem x hy)

/-- On a path no pointer to the next node is null. -/
theorem Path.next_ne_none {m : Links α} {a b : α} {xs : List α} (h : Path m a xs b) :
    ∀ x ∈ a :: xs, m.next x ≠ none := by
  induction xs generalizing a with
  | nil =>
      intro x hx
      rw [List.mem_singleton.mp hx, h.1]
      exact Option.some_ne_none b
  | cons y xs ih =>
      intro x hx
      rcases List.mem_cons.mp hx with rfl | hmem
      · rw [h.1.1]
        exact Option.some_ne_none y
      · exact ih h.2 x hmem

/-! ### Rings -/

/-- From the head over `xs` back to the head, and no node twice. -/
structure IsRing (m : Links α) (head : α) (xs : List α) : Prop where
  path : Path m head xs head
  nodup : (head :: xs).Nodup

/-- A ring depends on the pointers of its nodes. -/
theorem IsRing.congr {m m' : Links α} {head : α} {xs : List α} (h : IsRing m head xs)
    (hnext : ∀ x ∈ head :: xs, m'.next x = m.next x)
    (hprev : ∀ x ∈ head :: xs, m'.prev x = m.prev x) : IsRing m' head xs where
  path := h.path.congr hnext (fun x hx => hprev x (by
    rcases List.mem_append.mp hx with hmem | hhead
    · exact List.mem_cons_of_mem head hmem
    · rw [List.mem_singleton.mp hhead]
      exact List.mem_cons_self))
  nodup := h.nodup

/-- A head that points to itself is a ring. -/
theorem ring_alone (m : Links α) (head : α) (hprev : m.prev head = some head)
    (hnext : m.next head = some head) : IsRing m head [] :=
  ⟨⟨hnext, hprev⟩, List.pairwise_singleton _ head⟩

/-- The ring has no other nodes when the head points back to itself. -/
theorem IsRing.prev_head_iff {m : Links α} {head : α} {xs : List α} (h : IsRing m head xs) :
    m.prev head = some head ↔ xs = [] := by
  constructor
  · intro hself
    rcases List.eq_nil_or_concat xs with hnil | ⟨ys, y, hconcat⟩
    · exact hnil
    · have hpath := h.path
      have hnodup := h.nodup
      rw [hconcat, List.concat_eq_append] at hpath hnodup
      rw [path_append] at hpath
      have hy : y = head := Option.some.inj (hpath.2.2.symm.trans hself)
      rw [hy] at hnodup
      exact absurd (List.mem_append_right ys (List.mem_singleton_self head))
        (List.nodup_cons.mp hnodup).1
  · intro hnil
    have hpath := h.path
    rw [hnil] at hpath
    exact hpath.2

/-- The head points to a node of the ring. -/
theorem IsRing.next_head {m : Links α} {head : α} {xs : List α} (h : IsRing m head xs) :
    ∃ x ∈ head :: xs, m.next head = some x := by
  cases xs with
  | nil => exact ⟨head, List.mem_cons_self, h.path.1⟩
  | cons x xs => exact ⟨x, List.mem_cons_of_mem head List.mem_cons_self, h.path.1.1⟩

section Edits

variable [DecidableEq α]

/-- A node put in before the head, behind the last one. -/
theorem IsRing.insertLast {m : Links α} {head x : α} {xs : List α} (h : IsRing m head xs)
    (hx : x ∉ head :: xs) :
    ∃ last ∈ head :: xs, m.prev head = some last ∧
      IsRing ((((m.setNext x (some head)).setPrev x (some last)).setNext last (some x)).setPrev head
        (some x)) head (xs ++ [x]) := by
  have hxhead : x ≠ head := fun heq => hx (heq ▸ List.mem_cons_self)
  have hnodup : (head :: (xs ++ [x])).Nodup := by
    rw [← List.cons_append]
    refine List.nodup_append.mpr ⟨h.nodup, List.pairwise_singleton _ x, fun a ha b hb => ?_⟩
    rw [List.mem_singleton.mp hb]
    exact fun heq => hx (heq ▸ ha)
  rcases List.eq_nil_or_concat xs with rfl | ⟨ys, last, hconcat⟩
  · -- The head is alone, and is the last node itself.
    refine ⟨head, List.mem_cons_self, h.path.2, ⟨⟨⟨?_, ?_⟩, ⟨?_, ?_⟩⟩, hnodup⟩⟩
    · simp only [next_setPrev, next_setNext, if_true]
    · simp only [prev_setPrev, prev_setNext, if_neg hxhead, if_true]
    · simp only [next_setPrev, next_setNext, if_neg hxhead, if_true]
    · simp only [prev_setPrev, if_true]
  · rw [List.concat_eq_append] at hconcat
    subst hconcat
    have hpath := (path_append m head head last ys []).mp h.path
    rcases List.nodup_cons.mp h.nodup with ⟨hheadys, hys⟩
    have hlast : last ∈ ys ++ [last] := List.mem_append_right ys (List.mem_singleton_self last)
    have hxlast : x ≠ last := fun heq => hx (List.mem_cons_of_mem head (by rw [heq]; exact hlast))
    refine ⟨last, List.mem_cons_of_mem head hlast, hpath.2.2, ⟨?_, hnodup⟩⟩
    rw [List.append_assoc, List.singleton_append, path_append]
    refine ⟨hpath.1.congr ?_ ?_, ⟨⟨?_, ?_⟩, ⟨?_, ?_⟩⟩⟩
    · -- Up to the last node nothing was written.
      intro y hy
      have hyx : y ≠ x := fun heq => hx (by
        rw [← heq, ← List.cons_append]
        exact List.mem_append_left [last] hy)
      have hylast : y ≠ last := by
        intro heq
        rcases List.mem_cons.mp hy with hhead | hmem
        · exact hheadys (hhead ▸ heq ▸ hlast)
        · exact (List.nodup_append.mp hys).2.2 y hmem last (List.mem_singleton_self last) heq
      simp only [next_setPrev, next_setNext, if_neg hyx, if_neg hylast]
    · intro y hy
      have hyx : y ≠ x := fun heq => hx (heq ▸ List.mem_cons_of_mem head hy)
      have hyhead : y ≠ head := fun heq => hheadys (heq ▸ hy)
      simp only [prev_setPrev, prev_setNext, if_neg hyx, if_neg hyhead]
    · simp only [next_setPrev, next_setNext, if_true]
    · simp only [prev_setPrev, prev_setNext, if_neg hxhead, if_true]
    · simp only [next_setPrev, next_setNext, if_neg hxlast, if_true]
    · simp only [prev_setPrev, if_true]

/-- The node behind the head taken out. -/
theorem IsRing.removeFirst {m : Links α} {head x : α} {xs : List α} (h : IsRing m head (x :: xs)) :
    m.prev x = some head ∧ ∃ second ∈ head :: xs, m.next x = some second ∧
      IsRing ((m.setNext head (some second)).setPrev second (some head)) head xs := by
  rcases h.path with ⟨⟨hhead, hback⟩, hrest⟩
  rcases List.nodup_cons.mp h.nodup with ⟨hheadxs, hxxs⟩
  have hnodup : (head :: xs).Nodup :=
    List.nodup_cons.mpr ⟨fun hmem => hheadxs (List.mem_cons_of_mem x hmem),
      (List.nodup_cons.mp hxxs).2⟩
  refine ⟨hback, ?_⟩
  cases xs with
  | nil =>
      -- It was the only one, and the head is alone.
      refine ⟨head, List.mem_cons_self, hrest.1, ⟨⟨?_, ?_⟩, hnodup⟩⟩
      · simp only [next_setPrev, next_setNext, if_true]
      · simp only [prev_setPrev, if_true]
  | cons y ys =>
      have hyhead : y ≠ head := fun heq => (List.nodup_cons.mp hnodup).1 (heq ▸ List.mem_cons_self)
      refine ⟨y, List.mem_cons_of_mem head List.mem_cons_self, hrest.1.1,
        ⟨⟨⟨?_, ?_⟩, hrest.2.congr ?_ ?_⟩, hnodup⟩⟩
      · simp only [next_setPrev, next_setNext, if_true]
      · simp only [prev_setPrev, if_true]
      · -- Behind the second node nothing was written.
        intro z hz
        have hzhead : z ≠ head := fun heq => (List.nodup_cons.mp hnodup).1 (heq ▸ hz)
        simp only [next_setPrev, next_setNext, if_neg hzhead]
      · intro z hz
        have hzy : z ≠ y := by
          intro heq
          rcases List.mem_append.mp hz with hmem | hlast
          · exact (List.nodup_cons.mp (List.nodup_cons.mp hnodup).2).1 (heq ▸ hmem)
          · exact hyhead (heq ▸ List.mem_singleton.mp hlast)
        simp only [prev_setPrev, prev_setNext, if_neg hzy]

/-! ### Walks -/

/-- What a walk comes to: it has found a node, it is back at the head, it has
    met a null pointer, or its steps are used up. -/
inductive Walk (α : Type) where
  | found (x : α)
  | ended
  | null
  | outOfFuel
  deriving DecidableEq, Repr

/-- What a walk comes to that meets all the nodes there are. -/
def Walk.ofFind : Option α → Walk α
  | some x => .found x
  | none => .ended

/-- Look for a node with `p` from a pointer on, until back at the head. -/
def walk (m : Links α) (head : α) (p : α → Bool) : Nat → Option α → Walk α
  | 0, _ => .outOfFuel
  | _ + 1, none => .null
  | n + 1, some x =>
      if x = head then .ended
      else if p x = true then .found x
      else walk m head p n (m.next x)

/-- A walk that comes to something comes to it with more steps. -/
theorem walk_add (m : Links α) (head : α) (p : α → Bool) (fuel k : Nat) (entry : Option α)
    (h : walk m head p fuel entry ≠ .outOfFuel) :
    walk m head p (fuel + k) entry = walk m head p fuel entry := by
  induction fuel generalizing entry with
  | zero => exact absurd rfl h
  | succ fuel ih =>
      rw [Nat.succ_add]
      cases entry with
      | none => rfl
      | some x =>
          rw [walk] at h ⊢
          rw [walk]
          by_cases hx : x = head
          · rw [if_pos hx, if_pos hx]
          rw [if_neg hx] at h ⊢
          rw [if_neg hx]
          by_cases hp : p x = true
          · rw [if_pos hp, if_pos hp]
          · rw [if_neg hp] at h ⊢
            rw [if_neg hp]
            exact ih (m.next x) h

/-- From a node on, the walk finds the first one with `p` before the head. -/
theorem walk_path (m : Links α) (head a : α) (p : α → Bool) (xs : List α) (fuel : Nat)
    (h : Path m a xs head) (hhead : head ∉ xs) (hfuel : xs.length < fuel) :
    walk m head p fuel (m.next a)
      = .ofFind (xs.find? p) := by
  induction xs generalizing a fuel with
  | nil =>
      cases fuel with
      | zero => exact absurd hfuel (Nat.not_lt_zero _)
      | succ fuel =>
          rw [h.1, walk, if_pos rfl]
          rfl
  | cons x xs ih =>
      cases fuel with
      | zero => exact absurd hfuel (Nat.not_lt_zero _)
      | succ fuel =>
          have hx : x ≠ head := fun heq => hhead (heq ▸ List.mem_cons_self)
          rw [h.1.1, walk, if_neg hx, List.find?_cons]
          cases hp : p x with
          | true =>
              rw [if_pos rfl]
              rfl
          | false =>
              rw [if_neg Bool.false_ne_true]
              exact ih x fuel h.2 (fun hmem => hhead (List.mem_cons_of_mem x hmem))
                (Nat.lt_of_succ_lt_succ hfuel)

/-- With one more step than there are nodes, a walk around a ring finds the
    first one with `p`, or ends. -/
theorem walk_ring {m : Links α} {head : α} {xs : List α} (h : IsRing m head xs) (p : α → Bool)
    (fuel : Nat) (hfuel : xs.length < fuel) :
    walk m head p fuel (m.next head)
      = .ofFind (xs.find? p) :=
  walk_path m head head p xs fuel h.path (List.nodup_cons.mp h.nodup).1 hfuel

end Edits

end RingList
