import Defender.Lib.Wire
import Mathlib.Algebra.Group.Fin.Basic
import Mathlib.Algebra.Group.Nat.Defs
import Mathlib.Algebra.GroupWithZero.Nat

/-!
# Hashing by Blocks

An iterated hash: a compression function folded over the whole blocks of a
message that has been padded to whole blocks. The compression function, the
start value and the size of a block are parameters.

A program is given its message in pieces, and keeps what does not fill a block
in a buffer. `absorb_append` is what makes that work: a message may be cut
anywhere, if what the first part leaves is put in front of the second.
`Holds` is the invariant of such a context, and there are three things a
program does with one: fill the buffer up and compress it, compress blocks
where they are, and put a short piece into the buffer. Each is a rule of
`Holds`, and an update is a sequence of them.

The registers of a compression function written out line by line do not move;
it is their roles that do, each line naming them one place back. `roles` reads
the registers in their roles: writing one is writing its role, and going to
the next line is moving the roles along. `foldl_range_rel` then relates the
lines to rounds that move the registers.

## Main definitions

* `absorb`, `rest`: The fold over the whole blocks, and what is behind them.
* `Holds`: A context that has taken a message.
* `wholeBlocks`: The loop over the blocks of a piece.
* `padding`: The mark, the zeros, and the field with the length.
* `be64`, `le64`: The length in either byte order.
* `keyBlock`, `hmac`: A keyed hash from a hash.
* `roles`, `along`: Registers in their roles, and moved by one place.

## Theorems

* `absorb_append`, `rest_append`: A message may be cut anywhere.
* `Holds.fill`, `Holds.blocks`, `Holds.hold`: The rules.
* `wholeBlocks_eq`: The loop computes `absorb` and `rest`.
* `roles_set`, `roles_succ`: Writing a role, and the next line.
* `foldl_range_rel`: Two loops over the same numbers, related line by line.
-/

namespace BlockHash

open Wire

section Blocks

variable {σ : Type*} (w : Nat) (f : σ → List UInt8 → σ)

/-- The compression function over the whole blocks of a message. -/
def absorb (s : σ) (m : List UInt8) : σ :=
  (List.range (m.length / w)).foldl (fun s i => f s (slice m (w * i) w)) s

/-- What is behind the whole blocks. -/
def rest (m : List UInt8) : List UInt8 :=
  m.drop (w * (m.length / w))

theorem length_rest (m : List UInt8) : (rest w m).length = m.length % w := by
  have hdiv := Nat.div_add_mod m.length w
  rw [rest, List.length_drop]
  omega

theorem absorb_of_lt (s : σ) (m : List UInt8) (h : m.length < w) : absorb w f s m = s := by
  rw [absorb, Nat.div_eq_of_lt h]
  rfl

theorem rest_of_lt (m : List UInt8) (h : m.length < w) : rest w m = m := by
  rw [rest, Nat.div_eq_of_lt h, Nat.mul_zero, List.drop_zero]

theorem rest_of_mod (m : List UInt8) (h : m.length % w = 0) : rest w m = [] := by
  rw [← List.length_eq_zero_iff, length_rest, h]

variable {w}

theorem length_block_div (hw : 0 < w) (b m : List UInt8) (hb : b.length = w) :
    (b ++ m).length / w = m.length / w + 1 := by
  rw [List.length_append, hb, Nat.add_div_left _ hw]

/-- A block in front is compressed first. -/
theorem absorb_block (hw : 0 < w) (s : σ) (b m : List UInt8) (hb : b.length = w) :
    absorb w f s (b ++ m) = absorb w f (f s b) m := by
  have hfirst : slice (b ++ m) (w * 0) w = b := by
    rw [Nat.mul_zero, slice_append_left b m 0 w (by omega), slice_all b w (Nat.le_of_eq hb)]
  have hlater : ∀ i, slice (b ++ m) (w * (i + 1)) w = slice m (w * i) w := by
    intro i
    rw [Nat.mul_succ, Nat.add_comm]
    conv => lhs; rw [← hb]
    rw [slice_append_right, hb]
  rw [absorb, absorb, length_block_div hw b m hb, List.range_succ_eq_map, List.foldl_cons,
    List.foldl_map, hfirst]
  simp only [Nat.succ_eq_add_one, hlater]

theorem rest_block (hw : 0 < w) (b m : List UInt8) (hb : b.length = w) :
    rest w (b ++ m) = rest w m := by
  have hcut : w * (m.length / w + 1) = b.length + w * (m.length / w) := by
    rw [hb, Nat.mul_succ, Nat.add_comm]
  rw [rest, rest, length_block_div hw b m hb, hcut, ← List.drop_drop, List.drop_left]

/-- Whole blocks and the rest, cut off one block at a time. -/
theorem block_induction (hw : 0 < w) (P : List UInt8 → Prop)
    (short : ∀ m, m.length < w → P m)
    (block : ∀ b m, b.length = w → P m → P (b ++ m)) (m : List UInt8) : P m := by
  induction hn : m.length using Nat.strongRecOn generalizing m with
  | ind n ih =>
      by_cases hlt : m.length < w
      · exact short m hlt
      · have hrec := ih (m.drop w).length (by rw [List.length_drop]; omega) (m.drop w) rfl
        have hlen : (m.take w).length = w := by
          rw [List.length_take]
          omega
        rw [← List.take_append_drop w m]
        exact block _ _ hlen hrec

/-- A message may be cut anywhere: what the first part leaves goes in front of
    the second. Induction on the blocks of the first part. -/
theorem absorb_append (hw : 0 < w) (s : σ) (a b : List UInt8) :
    absorb w f s (a ++ b) = absorb w f (absorb w f s a) (rest w a ++ b) := by
  induction a using block_induction hw generalizing s with
  | short m hm => rw [absorb_of_lt w f s m hm, rest_of_lt w m hm]
  | block c m hc ih =>
      rw [List.append_assoc, absorb_block f hw s c _ hc, ih, absorb_block f hw s c m hc,
        rest_block hw c m hc]

theorem rest_append (hw : 0 < w) (a b : List UInt8) :
    rest w (a ++ b) = rest w (rest w a ++ b) := by
  induction a using block_induction hw with
  | short m hm => rw [rest_of_lt w m hm]
  | block c m hc ih => rw [List.append_assoc, rest_block hw c _ hc, ih, rest_block hw c m hc]

variable (w)

/-- A context that has taken the message `m` from the start value `s₀`: the
    chaining value of its whole blocks, and what is behind them in front of
    the buffer. -/
structure Holds (s₀ : σ) (m : List UInt8) (s : σ) (buffer : List UInt8) : Prop where
  state : s = absorb w f s₀ m
  length : buffer.length = w
  held : buffer.take (m.length % w) = rest w m

variable {w f}

/-- A context that has taken nothing. -/
theorem Holds.start (s₀ : σ) (buffer : List UInt8) (hw : 0 < w) (h : buffer.length = w) :
    Holds w f s₀ [] s₀ buffer where
  state := (absorb_of_lt w f s₀ [] hw).symm
  length := h
  held := by rw [List.length_nil, Nat.zero_mod, List.take_zero, rest_of_lt w [] hw]

/-- What is held and a piece behind it. -/
theorem Holds.take_poke {s₀ s : σ} {m buffer : List UInt8} (h : Holds w f s₀ m s buffer)
    (a : List UInt8) (ha : m.length % w + a.length ≤ w) :
    (poke buffer (m.length % w) a).take (m.length % w + a.length) = rest w m ++ a := by
  have hlen : (buffer.take (m.length % w) ++ a).length = m.length % w + a.length := by
    rw [List.length_append, List.length_take, h.length, Nat.min_eq_left (by omega)]
  rw [poke, ← hlen, List.take_left, h.held]

/-- Fill the buffer up and compress it. -/
theorem Holds.fill {s₀ s : σ} {m buffer : List UInt8} (h : Holds w f s₀ m s buffer) (hw : 0 < w)
    (a : List UInt8) (ha : m.length % w + a.length = w) :
    Holds w f s₀ (m ++ a) (f s (poke buffer (m.length % w) a))
      (poke buffer (m.length % w) a) := by
  have hlen : (poke buffer (m.length % w) a).length = w := by
    rw [length_poke buffer a _ (by rw [h.length]; omega), h.length]
  have hblock : poke buffer (m.length % w) a = rest w m ++ a := by
    rw [← h.take_poke a (Nat.le_of_eq ha), List.take_of_length_le (by omega)]
  have hmod : (m ++ a).length % w = 0 := by
    rw [List.length_append, ← Nat.mod_add_mod, ha, Nat.mod_self]
  have hwhole : (rest w m ++ a).length = w := by rw [← hblock, hlen]
  refine ⟨?_, hlen, ?_⟩
  · have happend := absorb_block f hw (absorb w f s₀ m) (rest w m ++ a) [] hwhole
    rw [List.append_nil] at happend
    rw [absorb_append f hw, happend, absorb_of_lt w f _ [] hw, hblock, h.state]
  · rw [hmod, List.take_zero, rest_of_mod w _ hmod]

/-- Compress the blocks of a piece where they are, and keep what is behind
    them. -/
theorem Holds.blocks {s₀ s : σ} {m buffer : List UInt8} (h : Holds w f s₀ m s buffer)
    (hw : 0 < w) (hzero : m.length % w = 0) (a : List UInt8) :
    Holds w f s₀ (m ++ a) (absorb w f s a) (poke buffer 0 (rest w a)) := by
  have hrest := length_rest w a
  have hlt := Nat.mod_lt a.length hw
  have hnone : rest w m = [] := rest_of_mod w m hzero
  have hmod : (m ++ a).length % w = (rest w a).length := by
    rw [List.length_append, ← Nat.mod_add_mod, hzero, Nat.zero_add, hrest]
  refine ⟨?_, ?_, ?_⟩
  · rw [absorb_append f hw, hnone, List.nil_append, h.state]
  · rw [length_poke _ _ _ (by rw [h.length]; omega), h.length]
  · rw [rest_append hw, hnone, List.nil_append, hmod, poke, List.take_zero, List.nil_append,
      List.take_left]

/-- Keep a piece that does not fill the buffer. -/
theorem Holds.hold {s₀ s : σ} {m buffer : List UInt8} (h : Holds w f s₀ m s buffer)
    (hw : 0 < w) (a : List UInt8) (ha : m.length % w + a.length < w) :
    Holds w f s₀ (m ++ a) s (poke buffer (m.length % w) a) := by
  have hlen : (rest w m ++ a).length = m.length % w + a.length := by
    rw [List.length_append, length_rest]
  have hmod : (m ++ a).length % w = m.length % w + a.length := by
    rw [List.length_append, ← Nat.mod_add_mod, Nat.mod_eq_of_lt ha]
  refine ⟨?_, ?_, ?_⟩
  · rw [absorb_append f hw, absorb_of_lt w f _ _ (by omega), h.state]
  · rw [length_poke _ _ _ (by rw [h.length]; omega), h.length]
  · rw [rest_append hw, rest_of_lt w _ (by omega), hmod, h.take_poke a (by omega)]

variable (w f)

/-- The loop over the blocks of a piece: the chaining value, and what is left
    of the piece. -/
def wholeBlocks (s : σ) (input : List UInt8) : σ × List UInt8 :=
  if 0 < w ∧ w ≤ input.length then wholeBlocks (f s (input.take w)) (input.drop w)
  else (s, input)
termination_by input.length
decreasing_by
  rw [List.length_drop]
  omega

theorem wholeBlocks_eq (hw : 0 < w) (s : σ) (input : List UInt8) :
    wholeBlocks w f s input = (absorb w f s input, rest w input) := by
  induction input using block_induction hw generalizing s with
  | short m hm =>
      rw [wholeBlocks, if_neg (by omega), absorb_of_lt w f s m hm, rest_of_lt w m hm]
  | block b m hb ih =>
      have hle : 0 < w ∧ w ≤ (b ++ m).length := by
        rw [List.length_append]
        omega
      have htake : (b ++ m).take w = b := by rw [← hb, List.take_left]
      have hdrop : (b ++ m).drop w = m := by rw [← hb, List.drop_left]
      rw [wholeBlocks, if_pos hle, htake, hdrop, ih, absorb_block f hw s b m hb,
        rest_block hw b m hb]

end Blocks

section Padding

/-- Behind a message of `n` bytes: the mark, zeros, and the field, which ends a
    block. -/
def padding (w n : Nat) (field : List UInt8) : List UInt8 :=
  0x80 :: List.replicate ((2 * w - 1 - field.length - n % w) % w) 0 ++ field

/-- A number in eight bytes, the first the highest. -/
def be64 (n : Nat) : List UInt8 :=
  be32 (UInt32.ofNat (n / 4294967296)) ++ be32 (UInt32.ofNat n)

/-- A number in eight bytes, the first the lowest. -/
def le64 (n : Nat) : List UInt8 :=
  le32 (UInt32.ofNat n) ++ le32 (UInt32.ofNat (n / 4294967296))

@[simp] theorem length_be64 (n : Nat) : (be64 n).length = 8 := rfl

@[simp] theorem length_le64 (n : Nat) : (le64 n).length = 8 := rfl

end Padding

section Keyed

/-- A key in a block: hashed when it is longer, and zeros behind it. -/
def keyBlock (w : Nat) (hash : List UInt8 → List UInt8) (key : List UInt8) : List UInt8 :=
  let short := if w < key.length then hash key else key
  short ++ List.replicate (w - short.length) 0

/-- The keyed hash: the message behind the key with one mask, hashed, behind
    the key with the other. -/
def hmac (w : Nat) (hash : List UInt8 → List UInt8) (key m : List UInt8) : List UInt8 :=
  hash ((keyBlock w hash key).map (· ^^^ 0x5C)
    ++ hash ((keyBlock w hash key).map (· ^^^ 0x36) ++ m))

end Keyed

section Roles

/-- The numbers of registers, and of lines. -/
scoped instance neZero_four : NeZero 4 := ⟨by decide⟩

scoped instance neZero_eight : NeZero 8 := ⟨by decide⟩

scoped instance neZero_sixtyFour : NeZero 64 := ⟨by decide⟩

variable {α : Type*} {n : Nat}

/-- The registers, read `q` places back. -/
def roles (q : Fin n) (r : Vector α n) : Vector α n :=
  Vector.ofFn (fun k => r.get (k - q))

/-- Every register moved to the next place. -/
def along [NeZero n] (v : Vector α n) : Vector α n :=
  Vector.ofFn (fun k => v.get (k - 1))

theorem get_ofFn (f : Fin n → α) (k : Fin n) : (Vector.ofFn f).get k = f k :=
  Vector.getElem_ofFn k.isLt

theorem get_set (r : Vector α n) (j k : Fin n) (y : α) :
    (r.set j.val y).get k = if j = k then y else r.get k := by
  have hget : (r.set j.val y)[k.val] = if j.val = k.val then y else r[k.val] :=
    Vector.getElem_set j.isLt k.isLt
  simp only [← Fin.ext_iff] at hget
  exact hget

/-- Vectors with the same entries are the same. -/
theorem ext_get (r v : Vector α n) (h : ∀ k, r.get k = v.get k) : r = v :=
  Vector.ext (fun i hi => h ⟨i, hi⟩)

theorem get_roles (q k : Fin n) (r : Vector α n) : (roles q r).get k = r.get (k - q) :=
  get_ofFn _ k

variable [NeZero n]

theorem get_along (v : Vector α n) (k : Fin n) : (along v).get k = v.get (k - 1) :=
  get_ofFn _ k

theorem roles_zero (r : Vector α n) : roles 0 r = r :=
  ext_get _ _ (fun k => by rw [get_roles, sub_zero])

/-- Writing a register is writing its role. -/
theorem roles_set (q j : Fin n) (r : Vector α n) (y : α) :
    roles q (r.set (j - q : Fin n).val y) = (roles q r).set j.val y := by
  refine ext_get _ _ (fun k => ?_)
  rw [get_set, get_roles, get_roles, get_set]
  simp only [sub_left_inj]

/-- In the next line every register has the next role. -/
theorem roles_succ (q : Fin n) (r : Vector α n) : roles (q + 1) r = along (roles q r) := by
  refine ext_get _ _ (fun k => ?_)
  rw [get_along, get_roles, get_roles, sub_sub, add_comm]

end Roles

/-- An array filled by a loop. -/
theorem getD_map_range {α : Type*} (g : Nat → α) (d : α) (n i : Nat) (h : i < n) :
    ((List.range n).map g).getD i d = g i := by
  rw [List.getD_eq_getElem?_getD, List.getElem?_map, List.getElem?_range h]
  rfl

/-- Two loops over the same numbers, related line by line. -/
theorem foldl_range_rel {ρ β : Type*} (R : Nat → ρ → β → Prop) (line : ρ → Nat → ρ)
    (round : β → Nat → β) (n : Nat)
    (hstep : ∀ t r v, t < n → R t r v → R (t + 1) (line r t) (round v t)) (r : ρ) (v : β)
    (h0 : R 0 r v) :
    R n ((List.range n).foldl line r) ((List.range n).foldl round v) := by
  induction n with
  | zero => exact h0
  | succ n ih =>
      rw [List.range_succ, List.foldl_append, List.foldl_append]
      exact hstep n _ _ (Nat.lt_succ_self n)
        (ih (fun t r v ht => hstep t r v (Nat.lt_succ_of_lt ht)))

end BlockHash
