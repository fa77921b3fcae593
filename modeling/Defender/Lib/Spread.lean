import Defender.Lib.Machine
import Mathlib.Logic.Relation
import Mathlib.Data.List.Nodup
import Mathlib.Order.WellFounded
import Mathlib.Data.Fintype.EquivFin
import Mathlib.Order.RelClasses

/-!
# Marks that Spread over a Forest

A forest is a relation between parents and children. Some of its nodes are
marked, and the marks are to spread, until all nodes of a tree are marked that
has a mark.

They spread in turns, one for each node. A turn of `v` begins with a pass from
`v` downwards, a `Push`: it marks the unmarked children it finds below marked
nodes, and stops at those. If `v` is marked and its parent is not, the parent
is marked and has a turn of its own. So a turn moves the lower border of the
marks by one level for every node it goes up, and if no other turn comes by,
the border stays where it is.

That is the only way for the marks not to spread (`spread_iff_noneLeft`): a turn marks
a node and leaves an unmarked child of it behind, where neither the node nor
one above it has a turn to come, and below which nothing was marked. In a
forest of two levels it cannot happen (`noneLeft_of_flat`), and where there
are three it does, when of one tree only the root is marked and its turn is the
last (`lone_root`).

## Main definitions

* `Forest`, `Above`: Forests, and their nodes above each other.
* `Way`: The nodes before another on a way.
* `Within`: A path of marked nodes.
* `Push`, `Passed`: A pass downwards, and its loop over the children.
* `Turn`: A turn.
* `LeavesBehind`, `NoneLeft`: What goes wrong.
* `Inv`: What holds between the turns.

## Theorems

* `Forest.siblings`: Siblings have nothing in common.
* `length_lt_of_nodup`, `Way.length_lt`: A path is not longer than there are nodes.
* `Passed.push`: The loop is a pass.
* `Turn.stay`, `Turn.goUp`: A turn that stays, and one that goes up.
* `Turn.inv`: What a turn keeps.
* `spread_iff_noneLeft`, `noneLeft_of_flat`, `lone_root`: Where the marks spread.
-/

namespace Spread

open Relation Machine

variable {α : Type*} {E : α → α → Prop}

/-! ### Forests -/

/-- Every node has at most one parent, and none is above itself. -/
structure Forest (E : α → α → Prop) : Prop where
  unique : ∀ p q c, E p c → E q c → p = q
  acyclic : ∀ x, ¬ TransGen E x x

/-- `a` is `b`, or above it. -/
def Above (E : α → α → Prop) (a b : α) : Prop :=
  ReflTransGen E a b

/-- What every link keeps is the same for all nodes of a tree. -/
theorem eqvGen_iff (P : α → Prop) (hlink : ∀ p c, E p c → (P p ↔ P c)) {x y : α}
    (h : EqvGen E x y) : P x ↔ P y := by
  induction h with
  | rel a b hab => exact hlink a b hab
  | refl a => exact Iff.rfl
  | symm a b _ ih => exact ih.symm
  | trans a b c _ _ ihab ihbc => exact ihab.trans ihbc

/-- A node above another is above its parent, unless they are the same. -/
theorem Forest.above_parent (hE : Forest E) {a p c : α} (h : Above E a c) (hp : E p c) :
    a = c ∨ Above E a p := by
  cases h with
  | refl => exact Or.inl rfl
  | tail hrest hlast => exact Or.inr (hE.unique _ _ _ hlast hp ▸ hrest)

/-- No child is above its parent. -/
theorem Forest.not_above (hE : Forest E) {p c : α} (hp : E p c) : ¬ Above E c p :=
  fun h => hE.acyclic p (TransGen.head' hp h)

/-- Of two nodes above a third, one is above the other. -/
theorem Forest.above_or (hE : Forest E) {a b c : α} (ha : Above E a c) (hb : Above E b c) :
    Above E a b ∨ Above E b a := by
  induction ha with
  | refl => exact Or.inr hb
  | tail hrest hlast ih =>
      rcases hE.above_parent hb hlast with rfl | habove
      · exact Or.inl (ReflTransGen.tail hrest hlast)
      · exact ih habove

/-- Siblings have nothing in common. -/
theorem Forest.siblings (hE : Forest E) {d c c' p : α} (hc : E d c) (hc' : E d c')
    (hp : Above E c p) (hp' : Above E c' p) : c = c' := by
  rcases hE.above_or hp hp' with habove | habove
  · rcases hE.above_parent habove hc' with heq | hparent
    · exact heq
    · exact absurd hparent (hE.not_above hc)
  · rcases hE.above_parent habove hc with heq | hparent
    · exact heq.symm
    · exact absurd hparent (hE.not_above hc')

/-- A node and others it is above, or that are above it, are not more than there
    are nodes. -/
theorem length_lt_of_nodup (names path : List α) (d : α) (hnodup : path.Nodup) (hd : d ∉ path)
    (hnames : ∀ x ∈ d :: path, x ∈ names) : path.length < names.length := by
  have hsub := List.subperm_of_subset (List.nodup_cons.mpr ⟨hd, hnodup⟩) hnames
  exact Nat.lt_of_succ_le hsub.length_le

/-- The nodes that a way along `R` came by before it is at `i`. -/
structure Way (R : α → α → Prop) (names path : List α) (i : α) : Prop where
  nodup : path.Nodup
  before : ∀ x ∈ path, x ∈ names ∧ TransGen R x i

theorem Way.nil (R : α → α → Prop) (names : List α) (i : α) : Way R names [] i where
  nodup := List.nodup_nil
  before := fun _ h => absurd h List.not_mem_nil

/-- Where no way comes back, the next node is a new one. -/
theorem Way.cons {R : α → α → Prop} (hR : ∀ x, ¬ TransGen R x x) {names path : List α} {i j : α}
    (h : Way R names path i) (hi : i ∈ names) (hij : R i j) : Way R names (i :: path) j where
  nodup := List.nodup_cons.mpr ⟨fun hin => hR i (h.before i hin).2, h.nodup⟩
  before := by
    intro x hx
    rcases List.mem_cons.mp hx with rfl | hold
    · exact ⟨hi, TransGen.single hij⟩
    · exact ⟨(h.before x hold).1, TransGen.tail (h.before x hold).2 hij⟩

/-- The way was not longer than there are nodes. -/
theorem Way.length_lt {R : α → α → Prop} (hR : ∀ x, ¬ TransGen R x x) {names path : List α} {i : α}
    (h : Way R names path i) (hi : i ∈ names) : path.length < names.length :=
  length_lt_of_nodup names path i h.nodup (fun hin => hR i (h.before i hin).2)
    (List.forall_mem_cons.mpr ⟨hi, fun x hx => (h.before x hx).1⟩)

/-- Every node of a finite forest has a root above it. -/
theorem Forest.exists_root [Finite α] (hE : Forest E) (a : α) :
    ∃ r, Above E r a ∧ ∀ p, ¬ E p r := by
  have hwf : WellFounded (TransGen E) := by
    have : Std.Irrefl (TransGen E) := ⟨hE.acyclic⟩
    exact Finite.wellFounded_of_trans_of_irrefl (TransGen E)
  induction a using hwf.induction with
  | _ a ih =>
      by_cases hroot : ∃ p, E p a
      · rcases hroot with ⟨p, hp⟩
        rcases ih p (TransGen.single hp) with ⟨r, hr, hnone⟩
        exact ⟨r, ReflTransGen.tail hr hp, hnone⟩
      · exact ⟨a, ReflTransGen.refl, fun p hp => hroot ⟨p, hp⟩⟩

/-! ### A pass downwards -/

/-- `a` is above `b`, and all nodes from `a` to `b` are marked. -/
def Within (E : α → α → Prop) (I : α → Prop) (a b : α) : Prop :=
  I b ∧ ReflTransGen (fun p c => E p c ∧ I p) a b

theorem Within.above {I : α → Prop} {a b : α} (h : Within E I a b) : Above E a b :=
  ReflTransGen.mono (fun _ _ => And.left) a b h.2

theorem Within.mono {I I' : α → Prop} {a b : α} (h : Within E I a b) (hII' : ∀ x, I x → I' x) :
    Within E I' a b :=
  ⟨hII' b h.1, ReflTransGen.mono (fun p _ => And.imp_right (hII' p)) a b h.2⟩

/-- The first node is marked, and either it is the last, or a child of it begins
    the rest. -/
theorem Within.cases {I : α → Prop} {a b : α} (h : Within E I a b) :
    I a ∧ (a = b ∨ ∃ c, E a c ∧ Within E I c b) := by
  rcases ReflTransGen.cases_head h.2 with rfl | ⟨c, ⟨hc, ha⟩, hrest⟩
  · exact ⟨h.1, Or.inl rfl⟩
  · exact ⟨ha, Or.inr ⟨c, hc, h.1, hrest⟩⟩

/-- A pass downwards from `d`: what is marked stays so, a node is marked only
    below a marked one, and below nodes that are marked from `d` on all
    children are marked. -/
structure Push (E : α → α → Prop) (d : α) (I I' : α → Prop) : Prop where
  mono : ∀ x, I x → I' x
  new : ∀ x, I' x → ¬ I x → ∃ p, E p x ∧ I p ∧ Above E d p
  reach : ∀ y c, Within E I d y → E y c → I' c

/-- Below a node without children there is nothing to do. -/
theorem Push.leaf {d : α} {I : α → Prop} (hd : ∀ c, ¬ E d c) : Push E d I I where
  mono := fun _ h => h
  new := fun _ h hnot => absurd h hnot
  reach := by
    intro y c hy hc
    rcases hy.cases.2 with rfl | ⟨c', hc', -⟩
    · exact absurd hc (hd c)
    · exact absurd hc' (hd c')

/-- A pass does not mark the node it begins at. -/
theorem Push.same (hE : Forest E) {d : α} {I I' : α → Prop} (h : Push E d I I') : I' d ↔ I d := by
  constructor
  · intro hd
    by_contra hnot
    rcases h.new d hd hnot with ⟨p, hp, -, habove⟩
    exact hE.not_above hp habove
  · exact h.mono d

/-- The loop of a pass from `d`, when it is through with the children `cs`. -/
structure Passed (E : α → α → Prop) (d : α) (cs : List α) (I I' : α → Prop) : Prop where
  children : ∀ c ∈ cs, E d c
  mono : ∀ x, I x → I' x
  new : ∀ x, I' x → ¬ I x → (∃ p, E p x ∧ I p ∧ Above E d p) ∧ ∃ c ∈ cs, Above E c x
  marked : I d → ∀ c ∈ cs, I' c
  reach : ∀ c ∈ cs, ∀ y e, Within E I c y → E y e → I' e

theorem Passed.nil (d : α) (I : α → Prop) : Passed E d [] I I where
  children := fun _ h => absurd h List.not_mem_nil
  mono := fun _ h => h
  new := fun _ h hnot => absurd h hnot
  marked := fun _ _ h => absurd h List.not_mem_nil
  reach := fun _ h => absurd h List.not_mem_nil

/-- A mark at `c`. -/
def mark (I : α → Prop) (c : α) (x : α) : Prop :=
  I x ∨ x = c

/-- The loop marks an unmarked child of a marked node, and leaves what is below. -/
theorem Passed.markChild (hE : Forest E) {d c : α} {cs : List α} {I I' : α → Prop}
    (h : Passed E d cs I I') (hc : E d c) (hd : I' d) (hnot : ¬ I' c) :
    Passed E d (cs ++ [c]) I (mark I' c) := by
  -- The loop marks only below the children of `d`, so `d` was marked before it.
  have hId : I d := by
    by_contra hd'
    rcases (h.new d hd hd').2 with ⟨c', hc', habove⟩
    exact hE.not_above (h.children c' hc') habove
  refine ⟨?_, fun x hx => Or.inl (h.mono x hx), ?_, ?_, ?_⟩
  · intro c' hc'
    rcases List.mem_append.mp hc' with hold | hlast
    · exact h.children c' hold
    · exact List.mem_singleton.mp hlast ▸ hc
  · rintro x (hx | rfl) hnew
    · rcases h.new x hx hnew with ⟨hp, c', hc', habove⟩
      exact ⟨hp, c', List.mem_append_left _ hc', habove⟩
    · exact ⟨⟨d, hc, hId, ReflTransGen.refl⟩, x,
        List.mem_append_right _ (List.mem_singleton_self x), ReflTransGen.refl⟩
  · intro _ c' hc'
    rcases List.mem_append.mp hc' with hold | hlast
    · exact Or.inl (h.marked hId c' hold)
    · exact Or.inr (List.mem_singleton.mp hlast)
  · intro c' hc' y e hy he
    rcases List.mem_append.mp hc' with hold | hlast
    · exact Or.inl (h.reach c' hold y e hy he)
    · rw [List.mem_singleton.mp hlast] at hy
      exact absurd (h.mono c hy.cases.1) hnot

/-- The loop goes down to a child that is marked, or whose parent is not. -/
theorem Passed.descend (hE : Forest E) {d c : α} {cs : List α} {I I' I'' : α → Prop}
    (h : Passed E d cs I I') (hc : E d c) (hcs : c ∉ cs) (hd : I' d → I' c)
    (hpush : Push E c I' I'') : Passed E d (cs ++ [c]) I I'' := by
  refine ⟨?_, fun x hx => hpush.mono x (h.mono x hx), ?_, ?_, ?_⟩
  · intro c' hc'
    rcases List.mem_append.mp hc' with hold | hlast
    · exact h.children c' hold
    · exact List.mem_singleton.mp hlast ▸ hc
  · intro x hx hnew
    by_cases hx' : I' x
    · rcases h.new x hx' hnew with ⟨hp, c', hc', habove⟩
      exact ⟨hp, c', List.mem_append_left _ hc', habove⟩
    · rcases hpush.new x hx hx' with ⟨p, hp, hIp, habove⟩
      -- The parent was not marked by the loop, which was at other children so far.
      have hIp' : I p := by
        by_contra hnot
        rcases (h.new p hIp hnot).2 with ⟨c', hc', habove'⟩
        exact hcs (hE.siblings hc (h.children c' hc') habove habove' ▸ hc')
      exact ⟨⟨p, hp, hIp', ReflTransGen.head hc habove⟩, c,
        List.mem_append_right _ (List.mem_singleton_self c), ReflTransGen.tail habove hp⟩
  · intro hId c' hc'
    rcases List.mem_append.mp hc' with hold | hlast
    · exact hpush.mono c' (h.marked hId c' hold)
    · rw [List.mem_singleton.mp hlast]
      exact hpush.mono c (hd (h.mono d hId))
  · intro c' hc' y e hy he
    rcases List.mem_append.mp hc' with hold | hlast
    · exact hpush.mono e (h.reach c' hold y e hy he)
    · rw [List.mem_singleton.mp hlast] at hy
      exact hpush.reach y e (hy.mono h.mono) he

/-- The loop over all children is a pass. -/
theorem Passed.push {d : α} {cs : List α} {I I' : α → Prop} (h : Passed E d cs I I')
    (hall : ∀ c, E d c → c ∈ cs) : Push E d I I' where
  mono := h.mono
  new := fun x hx hnot => (h.new x hx hnot).1
  reach := by
    intro y e hy he
    rcases hy.cases with ⟨hd, rfl | ⟨c, hc, hrest⟩⟩
    · exact h.marked hd e (hall e he)
    · exact h.reach c (hall c hc) y e hrest he

/-! ### Turns -/

/-- A turn of `v`. A node that is marked in it is above `v`, and has its children
    and its parent marked, or it has a parent that is marked, at or below `v` or
    below a node above `v` that was not marked. -/
structure Turn (E : α → α → Prop) (v : α) (I I' : α → Prop) : Prop where
  mono : ∀ x, I x → I' x
  reach : ∀ y c, Within E I v y → E y c → I' c
  up : I v → ∀ p, E p v → I' p
  new : ∀ x, I' x → ¬ I x →
    (Above E x v ∧ I v ∧ (∀ c, E x c → I' c) ∧ ∀ p, E p x → I' p) ∨
      ∃ p z, E p x ∧ I' p ∧ Above E z p ∧ (z = v ∨ (¬ I z ∧ Above E z v ∧ I v))
  sound : ∀ x, I' x → ∃ j, EqvGen E x j ∧ I j
  down : (∀ p, E p v → I v → I p) → Push E v I I'

theorem Push.sound {d : α} {I I' : α → Prop} (h : Push E d I I') (x : α) (hx : I' x) :
    ∃ j, EqvGen E x j ∧ I j := by
  by_cases hI : I x
  · exact ⟨x, EqvGen.refl x, hI⟩
  · rcases h.new x hx hI with ⟨p, hp, hIp, -⟩
    exact ⟨p, EqvGen.symm _ _ (EqvGen.rel _ _ hp), hIp⟩

/-- The parent is marked, or the node is not: the turn is the pass. -/
theorem Turn.stay {v : α} {I I' : α → Prop} (h : Push E v I I')
    (hstay : ∀ p, E p v → I' v → I' p) : Turn E v I I' where
  mono := h.mono
  reach := h.reach
  up := fun hv p hp => hstay p hp (h.mono v hv)
  new := by
    intro x hx hnot
    rcases h.new x hx hnot with ⟨p, hp, hIp, habove⟩
    exact Or.inr ⟨p, v, hp, h.mono p hIp, habove, Or.inl rfl⟩
  sound := h.sound
  down := fun _ => h

/-- The parent is marked after the pass, and has its turn. -/
theorem Turn.goUp (hE : Forest E) {v p : α} {I I' I'' : α → Prop} (hpush : Push E v I I')
    (hp : E p v) (hv : I' v) (hnot : ¬ I' p) (hturn : Turn E p (mark I' p) I'') :
    Turn E v I I'' := by
  have hIv : I v := (hpush.same hE).mp hv
  have hnotI : ¬ I p := fun hIp => hnot (hpush.mono p hIp)
  have habove : Above E p v := ReflTransGen.single hp
  have hmono : ∀ x, I x → I'' x := fun x hx => hturn.mono x (Or.inl (hpush.mono x hx))
  refine ⟨hmono, ?_, ?_, ?_, ?_, ?_⟩
  · exact fun y c hy hc => hturn.mono c (Or.inl (hpush.reach y c hy hc))
  · intro _ q hq
    rw [hE.unique q p v hq hp]
    exact hturn.mono p (Or.inr rfl)
  · intro x hx hnew
    by_cases hx' : I' x
    · -- Marked by the pass.
      rcases hpush.new x hx' hnew with ⟨q, hq, hIq, hvq⟩
      exact Or.inr ⟨q, v, hq, hmono q hIq, hvq, Or.inl rfl⟩
    · by_cases hxp : x = p
      · rw [hxp]
        have hwithin : Within E (mark I' p) p p := ⟨Or.inr rfl, ReflTransGen.refl⟩
        exact Or.inl ⟨habove, hIv, fun c hc => hturn.reach p c hwithin hc,
          hturn.up (Or.inr rfl)⟩
      · -- Marked in the turn of the parent.
        rcases hturn.new x hx (fun hmark => hmark.elim hx' hxp) with
          ⟨hxabove, -, hchildren, hparent⟩ | ⟨q, z, hq, hIq, hzq, hz⟩
        · exact Or.inl ⟨hxabove.trans habove, hIv, hchildren, hparent⟩
        · refine Or.inr ⟨q, z, hq, hIq, hzq, Or.inr ?_⟩
          rcases hz with rfl | ⟨hnotz, hzabove, -⟩
          · exact ⟨hnotI, habove, hIv⟩
          · exact ⟨fun hIz => hnotz (Or.inl (hpush.mono z hIz)), hzabove.trans habove, hIv⟩
  · intro x hx
    rcases hturn.sound x hx with ⟨j, hxj, hj | rfl⟩
    · rcases hpush.sound j hj with ⟨k, hjk, hk⟩
      exact ⟨k, EqvGen.trans _ _ _ hxj hjk, hk⟩
    · exact ⟨v, EqvGen.trans _ _ _ hxj (EqvGen.rel _ _ hp), hIv⟩
  · intro hstay
    exact absurd (hstay p hp hIv) hnotI

/-! ### What a turn keeps -/

/-- Between the turns, of which those of `rest` are to come, and where `J` were
    marked at first: the parent of a marked node is marked, but for nodes
    marked at first whose turn is to come, and marks are only in trees that had
    one at first. -/
structure Inv (E : α → α → Prop) (J I : α → Prop) (rest : List α) : Prop where
  initial : ∀ y, J y → I y
  up : ∀ y, I y → (J y ∧ y ∈ rest) ∨ ∀ p, E p y → I p
  sound : ∀ y, I y → ∃ j, EqvGen E y j ∧ J j

variable {J I I' : α → Prop} {v : α} {rest : List α}

theorem Turn.inv (hE : Forest E) (h : Turn E v I I') (hinv : Inv E J I (v :: rest)) :
    Inv E J I' rest where
  initial := fun y hy => h.mono y (hinv.initial y hy)
  up := by
    intro y hy
    by_cases hI : I y
    · rcases hinv.up y hI with ⟨hJ, hmem⟩ | hparent
      · rcases List.mem_cons.mp hmem with rfl | hrest
        · exact Or.inr (h.up hI)
        · exact Or.inl ⟨hJ, hrest⟩
      · exact Or.inr (fun p hp => h.mono p (hparent p hp))
    · rcases h.new y hy hI with ⟨-, -, -, hparent⟩ | ⟨p, z, hp, hIp, -⟩
      · exact Or.inr hparent
      · exact Or.inr (fun q hq => hE.unique p q y hp hq ▸ hIp)
  sound := by
    intro y hy
    rcases h.sound y hy with ⟨i, hyi, hi⟩
    rcases hinv.sound i hi with ⟨j, hij, hj⟩
    exact ⟨j, EqvGen.trans _ _ _ hyi hij, hj⟩

/-- Going up from a marked node, if there is a node whose turn is to come, the
    first such node is reached through marked ones. -/
theorem Inv.exists_within (hinv : Inv E J I rest) {z y : α} (hy : I y) (hzy : Above E z y)
    (hz : z ∈ rest) : ∃ w ∈ rest, Within E I w y := by
  induction hzy with
  | refl => exact ⟨z, hz, hy, ReflTransGen.refl⟩
  | tail hrest hlast ih =>
      rcases hinv.up _ hy with ⟨-, hmem⟩ | hparent
      · exact ⟨_, hmem, hy, ReflTransGen.refl⟩
      · have hIp := hparent _ hlast
        rcases ih hIp with ⟨w, hw, -, hpath⟩
        exact ⟨w, hw, hy, ReflTransGen.tail hpath ⟨hlast, hIp⟩⟩

/-- Going up from a marked node, all nodes are marked, if none whose turn is to
    come is among them. -/
theorem Inv.above_marked (hinv : Inv E J I rest) {z y : α} (hy : I y) (hzy : Above E z y)
    (hnone : ∀ w ∈ rest, ¬ Above E w y) : I z := by
  induction hzy with
  | refl => exact hy
  | tail hrest hlast ih =>
      rcases hinv.up _ hy with ⟨-, hmem⟩ | hparent
      · exact absurd ReflTransGen.refl (hnone _ hmem)
      · exact ih (hparent _ hlast) (fun w hw habove => hnone w hw (ReflTransGen.tail habove hlast))

/-- Below an unmarked node nothing is marked, if nothing was at first. -/
theorem Inv.below_unmarked (hinv : Inv E J I rest) {c x : α} (hc : ¬ I c)
    (hcx : Above E c x) (hnone : ∀ j, Above E c j → ¬ J j) : ¬ I x := by
  induction hcx with
  | refl => exact hc
  | tail hrest hlast ih =>
      intro hx
      rcases hinv.up _ hx with ⟨hJ, -⟩ | hparent
      · exact hnone _ (ReflTransGen.tail hrest hlast) hJ
      · exact ih (hparent _ hlast)

/-! ### What goes wrong -/

/-- A turn marks a node and leaves an unmarked child of it behind, while no turn
    of the node or of one above it is to come, and nothing at or below the
    child was marked at first. -/
def LeavesBehind (E : α → α → Prop) (J I I' : α → Prop) (rest : List α) : Prop :=
  ∃ y c, E y c ∧ ¬ I y ∧ I' y ∧ ¬ I' c ∧ (∀ j, Above E c j → ¬ J j) ∧ ∀ z ∈ rest, ¬ Above E z y

/-- The children of marked nodes are marked, or will be: something at or below
    them was marked at first, or a turn that comes by is to come. -/
def Fed (E : α → α → Prop) (J I : α → Prop) (rest : List α) : Prop :=
  ∀ y c, I y → E y c → I c ∨ (∃ j, Above E c j ∧ J j) ∨ ∃ z ∈ rest, Within E I z y

theorem Turn.fed (hE : Forest E) (h : Turn E v I I') (hinv : Inv E J I (v :: rest))
    (hfed : Fed E J I (v :: rest)) (hleaves : ¬ LeavesBehind E J I I' rest) :
    Fed E J I' rest := by
  intro y c hy hc
  by_cases hI : I y
  · rcases hfed y c hI hc with hIc | hbelow | ⟨z, hz, hwithin⟩
    · exact Or.inl (h.mono c hIc)
    · exact Or.inr (Or.inl hbelow)
    · rcases List.mem_cons.mp hz with rfl | hrest
      · exact Or.inl (h.reach y c hwithin hc)
      · exact Or.inr (Or.inr ⟨z, hrest, hwithin.mono h.mono⟩)
  · by_cases hIc : I' c
    · exact Or.inl hIc
    · by_cases hbelow : ∃ j, Above E c j ∧ J j
      · exact Or.inr (Or.inl hbelow)
      · -- The node is marked in this turn, so a turn of it or above it is to come.
        have hcome : ∃ z ∈ rest, Above E z y := by
          by_contra hnone
          exact hleaves ⟨y, c, hc, hI, hy, hIc, fun j hj hJ => hbelow ⟨j, hj, hJ⟩,
            fun z hz habove => hnone ⟨z, hz, habove⟩⟩
        rcases hcome with ⟨z, hz, habove⟩
        exact Or.inr (Or.inr ((h.inv hE hinv).exists_within hy habove hz))

/-- A marked node with a child under which nothing is marked, while neither it
    nor a node above it has a turn to come, and all these are marked. -/
structure Stuck (E : α → α → Prop) (I : α → Prop) (rest : List α) (y c : α) : Prop where
  child : E y c
  above : ∀ z, Above E z y → I z
  below : ∀ x, Above E c x → ¬ I x
  rest : ∀ z ∈ rest, ¬ Above E z y

theorem LeavesBehind.stuck (hinv : Inv E J I' rest)
    (h : LeavesBehind E J I I' rest) : ∃ y c, Stuck E I' rest y c := by
  rcases h with ⟨y, c, hc, -, hy, hnot, hbelow, hrest⟩
  exact ⟨y, c, hc, fun z hz => hinv.above_marked hy hz hrest,
    fun x hx => hinv.below_unmarked hnot hx hbelow, hrest⟩

/-- No later turn comes by. -/
theorem Turn.stuck (hE : Forest E) (h : Turn E v I I') {y c : α}
    (hstuck : Stuck E I (v :: rest) y c) : Stuck E I' rest y c := by
  -- The turn of `v` would have to come from above `y`, or go up through `y`.
  have hv : ¬ Above E v y := hstuck.rest v List.mem_cons_self
  refine ⟨hstuck.child, fun z hz => h.mono z (hstuck.above z hz), ?_,
    fun z hz => hstuck.rest z (List.mem_cons_of_mem v hz)⟩
  intro x hx
  -- Induction down from `c`: a node is newly marked only below a newly marked one.
  induction hx with
  | refl =>
      intro hIc
      rcases h.new c hIc (hstuck.below c ReflTransGen.refl) with
        ⟨habove, hIv, -⟩ | ⟨p, z, hp, -, hzp, hz⟩
      · exact hstuck.below v habove hIv
      · rw [hE.unique p y c hp hstuck.child] at hzp
        rcases hz with rfl | ⟨hnot, -⟩
        · exact hv hzp
        · exact hnot (hstuck.above z hzp)
  | tail hrest hlast ih =>
      intro hIx
      have hbelow := ReflTransGen.tail hrest hlast
      rcases h.new _ hIx (hstuck.below _ hbelow) with ⟨habove, hIv, -⟩ | ⟨p, z, hp, hIp, -⟩
      · exact hstuck.below v (hbelow.trans habove) hIv
      · rw [hE.unique p _ _ hp hlast] at hIp
        exact ih hIp

/-- In a forest of two levels nothing is left behind. -/
theorem Turn.not_leavesBehind (h : Turn E v I I') (hflat : ∀ a b c, E a b → ¬ E b c) :
    ¬ LeavesBehind E J I I' rest := by
  rintro ⟨y, c, hc, hnot, hy, hnotc, -⟩
  rcases h.new y hy hnot with ⟨-, -, hchildren, -⟩ | ⟨p, z, hp, -⟩
  · exact hnotc (hchildren c hc)
  · exact hflat p y c hp hc

/-! ### All turns -/

variable {σ ι : Type*} (step : σ → ι → Option σ) (marks : σ → α → Prop) (name : ι → α)

/-- Of turns taken one after the other none leaves a node behind. -/
def NoneLeft (E : α → α → Prop) (J : α → Prop) : σ → List ι → Prop
  | _, [] => True
  | s, i :: is => ∀ t, step s i = some t →
      ¬ LeavesBehind E J (marks s) (marks t) (is.map name) ∧ NoneLeft E J t is

section

variable {step marks name} (Ok : σ → Prop)
  (hturn : ∀ s i t, Ok s → step s i = some t → Turn E (name i) (marks s) (marks t) ∧ Ok t)

include hturn

/-- In a forest of two levels the marks spread. -/
theorem noneLeft_of_flat (hflat : ∀ a b c, E a b → ¬ E b c) (s : σ) (is : List ι) (hOk : Ok s) :
    NoneLeft step marks name E J s is := by
  induction is generalizing s with
  | nil => trivial
  | cons i is ih =>
      intro t ht
      rcases hturn s i t hOk ht with ⟨hone, hOk'⟩
      exact ⟨hone.not_leavesBehind hflat, ih t hOk'⟩

/-- Where of one tree only the root is marked, a turn of another node marks
    nothing. -/
theorem run_lone (s t : σ) (is : List ι) (hOk : Ok s) {r : α} (hroot : ∀ p, ¬ E p r)
    (hlone : ∀ x, marks s x ↔ x = r) (hr : r ∉ is.map name) (hrun : run step s is = some t) :
    Ok t ∧ ∀ x, marks t x ↔ x = r := by
  induction is generalizing s with
  | nil =>
      rw [run_nil, Option.some.injEq] at hrun
      exact hrun ▸ ⟨hOk, hlone⟩
  | cons i is ih =>
      rcases (run_cons step s t i is).mp hrun with ⟨m, hm, hrest⟩
      rcases hturn s i m hOk hm with ⟨hone, hOk'⟩
      rw [List.map_cons, List.mem_cons, not_or] at hr
      have hpush := hone.down (fun p _ hmarked => absurd ((hlone _).mp hmarked).symm hr.1)
      refine ih m hOk' (fun x => ⟨fun hx => ?_, fun hx => hpush.mono x ((hlone x).mpr hx)⟩) hr.2
        hrest
      by_contra hne
      rcases hpush.new x hx (fun hx' => hne ((hlone x).mp hx')) with ⟨p, -, hp, habove⟩
      rw [(hlone p).mp hp] at habove
      cases habove with
      | refl => exact hr.1 rfl
      | tail _ hlast => exact hroot _ hlast

variable (hE : Forest E)

include hE

theorem run_fed (s t : σ) (is : List ι) (hOk : Ok s)
    (hinv : Inv E J (marks s) (is.map name)) (hfed : Fed E J (marks s) (is.map name))
    (hnone : NoneLeft step marks name E J s is) (hrun : run step s is = some t) :
    Inv E J (marks t) [] ∧ Fed E J (marks t) [] := by
  induction is generalizing s with
  | nil =>
      rw [run_nil, Option.some.injEq] at hrun
      exact hrun ▸ ⟨hinv, hfed⟩
  | cons i is ih =>
      rcases (run_cons step s t i is).mp hrun with ⟨m, hm, hrest⟩
      rcases hturn s i m hOk hm with ⟨hone, hOk'⟩
      rcases hnone m hm with ⟨hleaves, hnone'⟩
      exact ih m hOk' (hone.inv hE hinv) (hone.fed hE hinv hfed hleaves) hnone' hrest

theorem run_stuck (s t : σ) (is : List ι) (hOk : Ok s) {y c : α}
    (hstuck : Stuck E (marks s) (is.map name) y c) (hrun : run step s is = some t) :
    Stuck E (marks t) [] y c := by
  induction is generalizing s with
  | nil =>
      rw [run_nil, Option.some.injEq] at hrun
      exact hrun ▸ hstuck
  | cons i is ih =>
      rcases (run_cons step s t i is).mp hrun with ⟨m, hm, hrest⟩
      rcases hturn s i m hOk hm with ⟨hone, hOk'⟩
      exact ih m hOk' (hone.stuck hE hstuck) hrest

theorem run_inv (s t : σ) (is : List ι) (hOk : Ok s) (hinv : Inv E J (marks s) (is.map name))
    (hrun : run step s is = some t) : Inv E J (marks t) [] := by
  induction is generalizing s with
  | nil =>
      rw [run_nil, Option.some.injEq] at hrun
      exact hrun ▸ hinv
  | cons i is ih =>
      rcases (run_cons step s t i is).mp hrun with ⟨m, hm, hrest⟩
      rcases hturn s i m hOk hm with ⟨hone, hOk'⟩
      exact ih m hOk' (hone.inv hE hinv) hrest

/-- What a turn leaves behind is left at the end. -/
theorem run_leaves (s t : σ) (is : List ι) (hOk : Ok s)
    (hinv : Inv E J (marks s) (is.map name)) (hrun : run step s is = some t)
    (hleft : ¬ NoneLeft step marks name E J s is) : ∃ y c, Stuck E (marks t) [] y c := by
  induction is generalizing s with
  | nil => exact absurd trivial hleft
  | cons i is ih =>
      rcases (run_cons step s t i is).mp hrun with ⟨m, hm, hrest⟩
      rcases hturn s i m hOk hm with ⟨hone, hOk'⟩
      have hinv' : Inv E J (marks m) (is.map name) := hone.inv hE hinv
      by_cases hleaves : LeavesBehind E J (marks s) (marks m) (is.map name)
      · rcases hleaves.stuck hinv' with ⟨y, c, hstuck⟩
        exact ⟨y, c, run_stuck Ok hturn hE m t is hOk' hstuck hrest⟩
      · refine ih m hOk' hinv' hrest (fun hnone => hleft (fun m' hm' => ?_))
        rw [hm, Option.some.injEq] at hm'
        exact hm' ▸ ⟨hleaves, hnone⟩

/-- The marks spread over the trees that had one exactly when no turn leaves a
    node behind, where every node that is marked at first has a turn. -/
theorem spread_iff_noneLeft (s t : σ) (is : List ι) (hOk : Ok s)
    (hall : ∀ y, marks s y → y ∈ is.map name) (hrun : run step s is = some t) :
    (∀ x, marks t x ↔ ∃ y, EqvGen E x y ∧ marks s y) ↔
      NoneLeft step marks name E (marks s) s is := by
  have hinv : Inv E (marks s) (marks s) (is.map name) :=
    ⟨fun _ hy => hy, fun y hy => Or.inl ⟨hy, hall y hy⟩, fun y hy => ⟨y, EqvGen.refl y, hy⟩⟩
  have hend := run_inv Ok hturn hE s t is hOk hinv hrun
  constructor
  · intro hspread
    by_contra hleft
    -- What was left behind has a marked parent, in the same tree.
    rcases run_leaves Ok hturn hE s t is hOk hinv hrun hleft with ⟨y, c, hstuck⟩
    rcases (hspread y).mp (hstuck.above y ReflTransGen.refl) with ⟨j, hyj, hj⟩
    refine hstuck.below c ReflTransGen.refl ((hspread c).mpr ⟨j, ?_, hj⟩)
    exact EqvGen.trans _ _ _ (EqvGen.symm _ _ (EqvGen.rel _ _ hstuck.child)) hyj
  · intro hnone x
    have hfed : Fed E (marks s) (marks s) (is.map name) := fun y _ hy _ =>
      Or.inr (Or.inr ⟨y, hall y hy, hy, ReflTransGen.refl⟩)
    have hfed' := (run_fed Ok hturn hE s t is hOk hinv hfed hnone hrun).2
    refine ⟨hend.sound x, ?_⟩
    -- At the end the marks go up and down along every link.
    have hlink : ∀ p c, E p c → (marks t p ↔ marks t c) := by
      intro p c hpc
      constructor
      · intro hp
        rcases hfed' p c hp hpc with hc | ⟨j, hcj, hj⟩ | ⟨z, hz, -⟩
        · exact hc
        · exact hend.above_marked (hend.initial j hj) hcj
            (fun w hw => absurd hw List.not_mem_nil)
        · exact absurd hz List.not_mem_nil
      · intro hc
        exact hend.above_marked hc (ReflTransGen.single hpc)
          (fun w hw => absurd hw List.not_mem_nil)
    rintro ⟨y, hxy, hy⟩
    exact (eqvGen_iff (marks t) hlink hxy).mpr (hend.initial y hy)

/-- Where only a root is marked and its turn is the last, its grandchildren are
    not marked. -/
theorem lone_root (s t : σ) (is : List ι) (i : ι) (hOk : Ok s) {y c : α}
    (hroot : ∀ p, ¬ E p (name i)) (hlone : ∀ x, marks s x ↔ x = name i)
    (hr : name i ∉ is.map name) (hy : E (name i) y) (hc : E y c)
    (hrun : run step s (is ++ [i]) = some t) : ¬ marks t c := by
  rcases (run_snoc step s t i is).mp hrun with ⟨m, hm, hlast⟩
  rcases run_lone Ok hturn s m is hOk hroot hlone hr hm with ⟨hOk', hlone'⟩
  -- The last turn is a pass from the root, which marks its children only.
  have hpush := (hturn m i t hOk' hlast).1.down (fun p hp => absurd hp (hroot p))
  intro hmarked
  by_cases hcm : marks m c
  · rw [(hlone' c).mp hcm] at hc
    exact hroot y hc
  · rcases hpush.new c hmarked hcm with ⟨p, hp, hmp, -⟩
    rw [hE.unique p y c hp hc, hlone'] at hmp
    rw [hmp] at hy
    exact hroot _ hy

end

end Spread
