import Mathlib.Tactic.TypeStar

/-!
# Four-Branch Feistel Networks

A block of four words, of which a round replaces the first by its sum with a
function of the other three, and turns the block by one place. Such a network
needs nothing of its round function to be invertible: running the rounds
again, with the keys reversed, on the block read backwards undoes them.

What it needs is that adding the same thing twice changes nothing, and that
the round function does not care in which direction it reads the three words.

## Main definitions

* `Quad`: Four words.
* `flip`: The block read backwards.
* `round`, `rounds`: One round, and a list of them.
* `Reversible`: What the network needs of its two operations.

## Theorems

* `round_flip_round`: A round undoes itself on the block read backwards.
* `rounds_flip_rounds`: So do all of them, with the keys reversed.
-/

namespace Feistel

/-- Four words. -/
structure Quad (α : Type*) where
  a : α
  b : α
  c : α
  d : α
  deriving DecidableEq, Repr

/-- The block read backwards. -/
def Quad.flip {α : Type*} (q : Quad α) : Quad α :=
  ⟨q.d, q.c, q.b, q.a⟩

variable {α κ : Type*} (add : α → α → α) (f : κ → α → α → α → α)

/-- One round: the first word takes up a function of the rest, and the block
    turns by one place. -/
def round (k : κ) (q : Quad α) : Quad α :=
  ⟨q.b, q.c, q.d, add q.a (f k q.b q.c q.d)⟩

/-- One round for each key. -/
def rounds (ks : List κ) (q : Quad α) : Quad α :=
  ks.foldl (fun q k => round add f k q) q

/-- Adding twice changes nothing, and the round function reads its words in
    either direction. -/
structure Reversible : Prop where
  cancel : ∀ x y, add (add x y) y = x
  symm : ∀ k x y z, f k x y z = f k z y x

theorem rounds_append (ks ls : List κ) (q : Quad α) :
    rounds add f (ks ++ ls) q = rounds add f ls (rounds add f ks q) := by
  rw [rounds, List.foldl_append]
  rfl

/-- A round undoes itself on the block read backwards. -/
theorem round_flip_round (h : Reversible add f) (k : κ) (q : Quad α) :
    round add f k (round add f k q).flip = q.flip := by
  simp only [round, Quad.flip, h.symm k q.d q.c q.b, h.cancel]

/-- All rounds undo themselves on the block read backwards, when the keys come
    in reverse. Induction on the keys, the last round undone first. -/
theorem rounds_flip_rounds (h : Reversible add f) (ks : List κ) (q : Quad α) :
    rounds add f ks.reverse (rounds add f ks q).flip = q.flip := by
  induction ks generalizing q with
  | nil => rfl
  | cons k ks ih =>
      have hcons : rounds add f (k :: ks) q = rounds add f ks (round add f k q) := rfl
      have hlast : ∀ p, rounds add f [k] p = round add f k p := fun _ => rfl
      rw [List.reverse_cons, rounds_append, hcons, ih (round add f k q), hlast,
        round_flip_round add f h k q]

end Feistel
