import Mathlib.Algebra.Group.Nat.Defs
import Mathlib.Algebra.GroupWithZero.Nat
import Defender.Lib.Machine
import Defender.Lib.Wire

/-!
# The Buffer the PNG Is Written To

`write_to_bufio` is handed to libpng, which calls it with one chunk after the
other, and puts the chunks one behind the other into a buffer that it
reallocates. The new size is found by doubling, in 32 bits, until it is beyond
what is needed, which is computed in 64.

A size is a power of two of at least 4096. When more than the last one below
2³² is needed the doubling never gets there: 2³¹ becomes 0, which stays 0. The
loop is run with fuel, so that a call that never ends is one that has no result
for any fuel. Whenever the loop does end, the buffer has room for the chunk.

## Main definitions

* `WriteBufferIo`: The buffer, the position in it and its size.
* `doubled`: The loop that finds the new size.
* `realloc`: The old bytes, and what the heap holds behind them.
* `writeToBufio`: One call.
* `Bufio`, `bufioStep`: The buffer with the chunks so far, and a call on it.
* `Filled`: The buffer begins with the chunks, and has room for them.
* `Sized`: The sizes a buffer has.
* `Fits`: What a call must meet to end.
* `Kept`: What the calls so far leave.
* `GrowsCorrectly`: Every call ends, and leaves a filled buffer.

## Theorems

* `doubled_eq_none`: From 2³¹ on, the loop never ends.
* `doubled_eq_some`: Below, it ends.
* `doubled_spec`: What it ends with is beyond what is needed.
* `copy_inside`: What ends copies inside the buffer.
* `bufioStep_kept`: What a call that ends does.
* `growsCorrectly_iff`: Every call ends and the buffer is filled exactly when
  the chunks fit.
* `run_large_first`: A first chunk of 2³¹ bytes is never written.
-/

namespace Defender

namespace Clipboard

open Machine Wire

/-- `WriteBufferIo`, with the bytes that are allocated at `buf`. -/
structure WriteBufferIo where
  buf : List UInt8
  pos : UInt32
  size : UInt32
  deriving DecidableEq, Repr

/-- The constructor. -/
def WriteBufferIo.new : WriteBufferIo :=
  { buf := [], pos := 0, size := 0 }

/-- A chunk of libpng's, and what the heap holds behind the buffer if it is
    reallocated for it. -/
structure Chunk where
  inn : List UInt8
  heap : Nat → UInt8

/-- `while (io.pos + size >= new_size) new_size *= 2`, at most `fuel` tests of
    it. The sum is a size_t, `new_size` a uint32_t. -/
def doubled (needed : Nat) : Nat → UInt32 → Option UInt32
  | 0, _ => none
  | fuel + 1, newSize =>
      if needed ≥ newSize.toNat then doubled needed fuel (newSize * 2) else some newSize

/-- `realloc` to `newSize` bytes, where it succeeds. -/
def realloc (buf : List UInt8) (newSize : Nat) (heap : Nat → UInt8) : List UInt8 :=
  buf.take newSize ++ (List.range (newSize - buf.length)).map heap

/-- The part of the call that makes room. -/
def grown (fuel : Nat) (io : WriteBufferIo) (c : Chunk) : Option WriteBufferIo :=
  if (io.pos.toNat + c.inn.length) % 2 ^ 64 > io.size.toNat then
    -- The first size to be tested is twice the old one, which is 0 for 2³¹.
    (doubled ((io.pos.toNat + c.inn.length) % 2 ^ 64) fuel
      (if io.size ≠ 0 then io.size * 2 else 4096)).map
      fun newSize => { io with buf := realloc io.buf newSize.toNat c.heap, size := newSize }
  else some io

/-- `write_to_bufio`. There is no result while the loop goes on, and none when
    the copy leaves the buffer. -/
def writeToBufio (fuel : Nat) (io : WriteBufferIo) (c : Chunk) : Option WriteBufferIo := do
  let io ← grown fuel io c
  let buf ← memcpy io.buf io.pos.toNat c.inn c.inn.length
  some { io with buf := buf, pos := io.pos + UInt32.ofNat c.inn.length }

/-- The buffer, and all that was handed to it so far. -/
structure Bufio where
  io : WriteBufferIo
  written : List UInt8
  deriving DecidableEq, Repr

/-- Before the first call. -/
def Bufio.start : Bufio :=
  { io := WriteBufferIo.new, written := [] }

/-- A call of libpng's. -/
def bufioStep (fuel : Nat) (s : Bufio) (c : Chunk) : Option Bufio :=
  (writeToBufio fuel s.io c).map fun io => { io := io, written := s.written ++ c.inn }

/-- The buffer has its size, the position is inside, and what is in front of it
    is what was written. -/
structure Filled (s : Bufio) : Prop where
  within : s.io.pos.toNat ≤ s.io.size.toNat
  allocated : s.io.buf.length = s.io.size.toNat
  front : s.io.buf.take s.io.pos.toNat = s.written

/-- The sizes of a buffer, up to the last power of two that a uint32_t has. -/
def Sized (size : UInt32) : Prop :=
  size = 0 ∨ ∃ k, k ≤ 31 ∧ size.toNat = 2 ^ k

/-- The chunk fits into the buffer, or less than 2³¹ bytes are needed. -/
def Fits (s : Bufio) (c : Chunk) : Prop :=
  s.io.pos.toNat + c.inn.length ≤ s.io.size.toNat ∨ s.io.pos.toNat + c.inn.length < 2 ^ 31

/-! ### The loop -/

/-- Twice a size is a size, 2³¹ giving 0. -/
theorem sized_double {size : UInt32} (h : Sized size) : Sized (size * 2) := by
  rcases h with rfl | ⟨k, hk, hsize⟩
  · exact Or.inl rfl
  · by_cases hlast : k = 31
    · refine Or.inl (UInt32.toNat_inj.mp ?_)
      rw [UInt32.toNat_mul, hsize, hlast]
      rfl
    · refine Or.inr ⟨k + 1, by omega, ?_⟩
      have hlt : 2 ^ (k + 1) < 2 ^ 32 := Nat.pow_lt_pow_right (by decide) (by omega)
      rw [UInt32.toNat_mul, hsize, Nat.pow_succ]
      exact Nat.mod_eq_of_lt hlt

theorem sized_le {size : UInt32} (h : Sized size) : size.toNat ≤ 2 ^ 31 := by
  rcases h with rfl | ⟨k, hk, hsize⟩
  · exact Nat.zero_le _
  · rw [hsize]
    exact Nat.pow_le_pow_right (by decide) hk

/-- From 2³¹ on, the loop never ends. -/
theorem doubled_eq_none (needed fuel : Nat) (newSize : UInt32) (hneeded : 2 ^ 31 ≤ needed)
    (h : Sized newSize) : doubled needed fuel newSize = none := by
  induction fuel generalizing newSize with
  | zero => rfl
  | succ fuel ih =>
      have hle := sized_le h
      rw [doubled, if_pos (by omega)]
      exact ih (newSize * 2) (sized_double h)

/-- Below, it ends. Induction on the fuel; the loop runs at most until 2³¹. -/
theorem doubled_eq_some (needed fuel : Nat) (newSize : UInt32) (k : Nat)
    (hneeded : needed < 2 ^ 31) (hk : k ≤ 31) (hsize : newSize.toNat = 2 ^ k)
    (hfuel : 31 - k < fuel) : ∃ m, doubled needed fuel newSize = some m := by
  induction fuel generalizing newSize k with
  | zero => exact absurd hfuel (Nat.not_lt_zero _)
  | succ fuel ih =>
      rw [doubled]
      by_cases hstop : needed ≥ newSize.toNat
      · -- The size is not the last one, which is beyond what is needed.
        have hnext : k ≠ 31 := by
          rintro rfl
          omega
        have hlt : 2 ^ (k + 1) < 2 ^ 32 := Nat.pow_lt_pow_right (by decide) (by omega)
        rw [if_pos hstop]
        refine ih (newSize * 2) (k + 1) (by omega) ?_ (by omega)
        rw [UInt32.toNat_mul, hsize, Nat.pow_succ]
        exact Nat.mod_eq_of_lt hlt
      · exact ⟨newSize, if_neg hstop⟩

/-- What the loop ends with is a size beyond what is needed. -/
theorem doubled_spec {needed fuel : Nat} {newSize m : UInt32} (h : Sized newSize)
    (hm : doubled needed fuel newSize = some m) : needed < m.toNat ∧ Sized m := by
  induction fuel generalizing newSize with
  | zero => exact absurd hm (by simp only [doubled, reduceCtorEq, not_false_eq_true])
  | succ fuel ih =>
      rw [doubled] at hm
      by_cases hstop : needed ≥ newSize.toNat
      · rw [if_pos hstop] at hm
        exact ih (sized_double h) hm
      · rw [if_neg hstop, Option.some.injEq] at hm
        exact ⟨hm ▸ Nat.lt_of_not_le hstop, hm ▸ h⟩

/-- Fuel does not change what the loop ends with. -/
theorem doubled_unique {needed f g : Nat} {newSize m n : UInt32}
    (hm : doubled needed f newSize = some m) (hn : doubled needed g newSize = some n) :
    m = n := by
  induction f generalizing g newSize with
  | zero => exact absurd hm (by simp only [doubled, reduceCtorEq, not_false_eq_true])
  | succ f ih =>
      cases g with
      | zero => exact absurd hn (by simp only [doubled, reduceCtorEq, not_false_eq_true])
      | succ g =>
          rw [doubled] at hm hn
          by_cases hstop : needed ≥ newSize.toNat
          · rw [if_pos hstop] at hm hn
            exact ih hm hn
          · rw [if_neg hstop] at hm hn
            exact Option.some.inj (hm.symm.trans hn)

/-! ### One call -/

theorem length_realloc (buf : List UInt8) (n : Nat) (heap : Nat → UInt8) :
    (realloc buf n heap).length = n := by
  rw [realloc, List.length_append, List.length_take, List.length_map, List.length_range]
  omega

/-- The bytes in front of the position survive. -/
theorem take_realloc (buf : List UInt8) (n p : Nat) (heap : Nat → UInt8) (hp : p ≤ buf.length)
    (hn : p ≤ n) : (realloc buf n heap).take p = buf.take p := by
  rw [realloc, List.take_append_of_le_length (by rw [List.length_take]; omega), List.take_take,
    Nat.min_eq_left hn]

/-- The size the loop starts from. -/
theorem sized_first {size : UInt32} (h : Sized size) :
    Sized (if size ≠ 0 then size * 2 else 4096) := by
  by_cases hzero : size = 0
  · rw [if_neg (not_not_intro hzero)]
    exact Or.inr ⟨12, by decide, rfl⟩
  · rw [if_pos hzero]
    exact sized_double h

/-- The loop starts from a power of two where the last size is not 2³¹. -/
theorem first_pow {size : UInt32} (h : Sized size) (hlast : size.toNat < 2 ^ 31) :
    ∃ k, k ≤ 31 ∧ (if size ≠ 0 then size * 2 else 4096).toNat = 2 ^ k := by
  by_cases hzero : size = 0
  · rw [if_neg (not_not_intro hzero)]
    exact ⟨12, by decide, rfl⟩
  · rcases h with hnull | ⟨k, hk, hsize⟩
    · exact absurd hnull hzero
    · have hne : k ≠ 31 := by
        rintro rfl
        omega
      have hlt : 2 ^ (k + 1) < 2 ^ 32 := Nat.pow_lt_pow_right (by decide) (by omega)
      refine ⟨k + 1, by omega, ?_⟩
      rw [if_pos hzero, UInt32.toNat_mul, hsize, Nat.pow_succ]
      exact Nat.mod_eq_of_lt hlt

/-- What the calls so far leave. -/
structure Kept (s : Bufio) : Prop where
  filled : Filled s
  sized : Sized s.io.size

theorem kept_start : Kept Bufio.start :=
  ⟨⟨Nat.le_refl 0, rfl, rfl⟩, Or.inl rfl⟩

/-- The position is the number of bytes written. -/
theorem Kept.pos {s : Bufio} (h : Kept s) : s.io.pos.toNat = s.written.length := by
  have hwithin := h.filled.within
  rw [← h.filled.front, List.length_take, h.filled.allocated, Nat.min_eq_left hwithin]

section

variable {s : Bufio} {c : Chunk} (hs : Kept s) (hlen : s.written.length + c.inn.length < 2 ^ 32)
include hs hlen

/-- The sum in 64 bits is the number of bytes needed. -/
theorem needed_eq : (s.io.pos.toNat + c.inn.length) % 2 ^ 64 = s.io.pos.toNat + c.inn.length := by
  have hpos := hs.pos
  exact Nat.mod_eq_of_lt (by omega)

/-- What making room does: the position and the bytes in front of it stay, and
    the chunk fits behind them. -/
theorem grown_spec {fuel : Nat} {io : WriteBufferIo} (h : grown fuel s.io c = some io) :
    io.pos = s.io.pos ∧ io.buf.length = io.size.toNat ∧
      io.buf.take s.io.pos.toNat = s.written ∧
      s.io.pos.toNat + c.inn.length ≤ io.size.toNat ∧ Sized io.size := by
  have hwithin := hs.filled.within
  have hallocated := hs.filled.allocated
  unfold grown at h
  rw [needed_eq hs hlen] at h
  by_cases hroom : s.io.pos.toNat + c.inn.length > s.io.size.toNat
  · rw [if_pos hroom, Option.map_eq_some_iff] at h
    rcases h with ⟨m, hm, rfl⟩
    rcases doubled_spec (sized_first hs.sized) hm with ⟨hlt, hm'⟩
    refine ⟨rfl, length_realloc _ _ _, ?_, Nat.le_of_lt hlt, hm'⟩
    rw [take_realloc _ _ _ _ (by omega) (by omega)]
    exact hs.filled.front
  · rw [if_neg hroom, Option.some.injEq] at h
    subst h
    exact ⟨rfl, hallocated, hs.filled.front, Nat.le_of_not_lt hroom, hs.sized⟩

/-- What does not fit is never made room for. -/
theorem fits_of_grown {fuel : Nat} {io : WriteBufferIo} (h : grown fuel s.io c = some io) :
    Fits s c := by
  by_cases hroom : s.io.pos.toNat + c.inn.length > s.io.size.toNat
  · refine Or.inr (Nat.lt_of_not_le fun hlarge => ?_)
    unfold grown at h
    rw [needed_eq hs hlen, if_pos hroom, doubled_eq_none _ _ _ hlarge (sized_first hs.sized),
      Option.map_none] at h
    exact absurd h (by simp only [reduceCtorEq, not_false_eq_true])
  · exact Or.inl (Nat.le_of_not_lt hroom)

/-- For what fits the loop ends, after all sizes at the latest. -/
theorem grown_of_fits (hfits : Fits s c) : ∃ io, grown 32 s.io c = some io := by
  unfold grown
  rw [needed_eq hs hlen]
  by_cases hroom : s.io.pos.toNat + c.inn.length > s.io.size.toNat
  · have hsmall := hfits.resolve_left (Nat.not_le_of_lt hroom)
    rcases first_pow hs.sized (by omega) with ⟨k, hk, hpow⟩
    rcases doubled_eq_some _ 32 _ k hsmall hk hpow (by omega) with ⟨m, hm⟩
    rw [if_pos hroom, hm]
    exact ⟨_, rfl⟩
  · exact ⟨s.io, if_neg hroom⟩

/-- What ends copies inside the buffer. -/
theorem copy_inside {fuel : Nat} {io : WriteBufferIo} (h : grown fuel s.io c = some io) :
    bufioStep fuel s c = some
      { io := { io with buf := poke io.buf io.pos.toNat c.inn,
                        pos := io.pos + UInt32.ofNat c.inn.length },
        written := s.written ++ c.inn } := by
  rcases grown_spec hs hlen h with ⟨hpos, hbuf, -, hfit, -⟩
  have hcopy : memcpy io.buf io.pos.toNat c.inn c.inn.length
      = some (poke io.buf io.pos.toNat c.inn) := by
    rw [memcpy, if_pos ⟨Nat.le_refl _, by rw [hpos, hbuf]; exact hfit⟩, List.take_length]
  simp only [bufioStep, writeToBufio, h, hcopy, Option.bind_eq_bind, Option.bind_some,
    Option.map_some]

/-- A call whose chunk fits ends. -/
theorem bufioStep_of_fits (hfits : Fits s c) : ∃ t, bufioStep 32 s c = some t := by
  rcases grown_of_fits hs hlen hfits with ⟨io, hio⟩
  exact ⟨_, copy_inside hs hlen hio⟩

end

theorem grown_of_bufioStep {fuel : Nat} {s t : Bufio} {c : Chunk}
    (h : bufioStep fuel s c = some t) : ∃ io, grown fuel s.io c = some io := by
  cases hg : grown fuel s.io c with
  | none =>
      simp only [bufioStep, writeToBufio, hg, Option.bind_eq_bind, Option.bind_none,
        Option.map_none, reduceCtorEq] at h
  | some io => exact ⟨io, rfl⟩

/-- What a call that ends does. -/
theorem bufioStep_kept {fuel : Nat} {s t : Bufio} {c : Chunk} (hs : Kept s)
    (hlen : s.written.length + c.inn.length < 2 ^ 32) (h : bufioStep fuel s c = some t) :
    Kept t ∧ t.written = s.written ++ c.inn := by
  rcases grown_of_bufioStep h with ⟨io, hio⟩
  rw [copy_inside hs hlen hio, Option.some.injEq] at h
  rcases grown_spec hs hlen hio with ⟨hpos, hbuf, hfront, hfit, hsized⟩
  have hkept := hs.pos
  -- Less than 2³² bytes are written in all, so that the position does not wrap.
  have hmoved : (io.pos + UInt32.ofNat c.inn.length).toNat = io.pos.toNat + c.inn.length := by
    rw [UInt32.toNat_add, UInt32.toNat_ofNat', Nat.mod_eq_of_lt (a := c.inn.length) (by omega)]
    exact Nat.mod_eq_of_lt (by rw [hpos]; omega)
  have hinside : io.pos.toNat + c.inn.length ≤ io.buf.length := by
    rw [hpos, hbuf]
    exact hfit
  subst h
  refine ⟨⟨⟨?_, ?_, ?_⟩, hsized⟩, rfl⟩
  · rw [hmoved, ← hbuf]
    exact hinside
  · exact (length_poke _ _ _ hinside).trans hbuf
  · -- The front and the chunk behind it.
    have hhead : (io.buf.take io.pos.toNat ++ c.inn).length = io.pos.toNat + c.inn.length := by
      rw [List.length_append, List.length_take, Nat.min_eq_left (by omega)]
    rw [hmoved, poke, ← hhead, List.take_left, hpos, hfront]

/-- A call ends in one way only. -/
theorem bufioStep_unique {f g : Nat} {s t u : Bufio} {c : Chunk}
    (ht : bufioStep f s c = some t) (hu : bufioStep g s c = some u) : t = u := by
  rcases grown_of_bufioStep ht with ⟨io, hio⟩
  rcases grown_of_bufioStep hu with ⟨io', hio'⟩
  have hsame : io = io' := by
    unfold grown at hio hio'
    split at hio
    · rename_i hroom
      rw [if_pos hroom, Option.map_eq_some_iff] at hio'
      rw [Option.map_eq_some_iff] at hio
      rcases hio with ⟨m, hm, rfl⟩
      rcases hio' with ⟨n, hn, rfl⟩
      rw [doubled_unique hm hn]
    · rename_i hroom
      rw [if_neg hroom] at hio'
      exact Option.some.inj (hio.symm.trans hio')
  rw [bufioStep, writeToBufio, hio] at ht
  rw [bufioStep, writeToBufio, hio', ← hsame] at hu
  exact Option.some.inj (ht.symm.trans hu)

/-! ### All calls -/

/-- The number of bytes of some chunks. -/
def total (chunks : List Chunk) : Nat :=
  (chunks.map (·.inn.length)).sum

/-- Every call ends, and leaves a buffer that holds what was written. -/
def GrowsCorrectly (chunks : List Chunk) : Prop :=
  ∃ fuel t, run (bufioStep fuel) Bufio.start chunks = some t ∧
    Throughout (bufioStep fuel) Filled Bufio.start chunks

section

variable {s : Bufio} {chunks : List Chunk} (hs : Kept s)
  (hlen : s.written.length + total chunks < 2 ^ 32)
include hs hlen

/-- The calls of a run that ends fit, whatever fuel they are looked at with. -/
theorem fits_of_run {f : Nat} {t : Bufio} (g : Nat) (hrun : run (bufioStep f) s chunks = some t) :
    StepsMeet (bufioStep g) Fits s chunks := by
  induction chunks generalizing s with
  | nil => trivial
  | cons c chunks ih =>
      rw [total, List.map_cons, List.sum_cons] at hlen
      rcases (run_cons _ _ _ _ _).mp hrun with ⟨m, hm, hrest⟩
      rcases grown_of_bufioStep hm with ⟨io, hio⟩
      rcases bufioStep_kept hs (by omega) hm with ⟨hkept, hwritten⟩
      -- With more or less fuel the call ends in the same way, if it ends.
      refine ⟨fits_of_grown hs (by omega) hio, fun m' hm' => ?_⟩
      rw [bufioStep_unique hm' hm]
      refine ih hkept ?_ hrest
      rw [hwritten, List.length_append, total]
      omega

/-- Calls that fit run. -/
theorem run_of_fits (h : StepsMeet (bufioStep 32) Fits s chunks) :
    ∃ t, run (bufioStep 32) s chunks = some t := by
  induction chunks generalizing s with
  | nil => exact ⟨s, rfl⟩
  | cons c chunks ih =>
      rw [total, List.map_cons, List.sum_cons] at hlen
      rcases bufioStep_of_fits hs (by omega) h.1 with ⟨m, hm⟩
      rcases bufioStep_kept hs (by omega) hm with ⟨hkept, hwritten⟩
      have hrest : m.written.length + total chunks < 2 ^ 32 := by
        rw [hwritten, List.length_append, total]
        omega
      rcases ih hkept hrest (h.2 m hm) with ⟨t, ht⟩
      exact ⟨t, (run_cons _ _ _ _ _).mpr ⟨m, hm, ht⟩⟩

/-- Calls that end leave a filled buffer. -/
theorem filled_throughout (fuel : Nat) : Throughout (bufioStep fuel) Filled s chunks := by
  induction chunks generalizing s with
  | nil => exact (throughout_nil _ _ s).mpr hs.filled
  | cons c chunks ih =>
      rw [total, List.map_cons, List.sum_cons] at hlen
      cases hstep : bufioStep fuel s c with
      | none => exact (throughout_cons_none _ _ s c chunks hstep).mpr hs.filled
      | some m =>
          rcases bufioStep_kept hs (by omega) hstep with ⟨hkept, hwritten⟩
          refine (throughout_cons _ _ s m c chunks hstep).mpr ⟨hs.filled, ih hkept ?_⟩
          rw [hwritten, List.length_append, total]
          omega

end

/-- Every call ends and leaves a filled buffer exactly when, each judged in the
    buffer the ones before it leave, all chunks fit. -/
theorem growsCorrectly_iff (chunks : List Chunk) (hlen : total chunks < 2 ^ 32) :
    GrowsCorrectly chunks ↔ ∀ fuel, StepsMeet (bufioStep fuel) Fits Bufio.start chunks := by
  have hstart : Bufio.start.written.length + total chunks < 2 ^ 32 := by
    rw [Bufio.start, List.length_nil, Nat.zero_add]
    exact hlen
  constructor
  · rintro ⟨f, t, hrun, -⟩ fuel
    exact fits_of_run kept_start hstart fuel hrun
  · intro h
    rcases run_of_fits kept_start hstart (h 32) with ⟨t, ht⟩
    exact ⟨32, t, ht, filled_throughout kept_start hstart 32⟩

/-- Two small chunks. -/
theorem growsCorrectly_small :
    GrowsCorrectly [⟨[1, 2, 3], fun _ => 0⟩, ⟨[], fun _ => 0⟩] ↔
      ∀ fuel, StepsMeet (bufioStep fuel) Fits Bufio.start
        [⟨[1, 2, 3], fun _ => 0⟩, ⟨[], fun _ => 0⟩] :=
  growsCorrectly_iff [⟨[1, 2, 3], fun _ => 0⟩, ⟨[], fun _ => 0⟩] (by decide)

/-- A first chunk of 2³¹ bytes or more never ends. -/
theorem run_large_first (fuel : Nat) (c : Chunk) (chunks : List Chunk)
    (hlarge : 2 ^ 31 ≤ c.inn.length) (hlen : c.inn.length < 2 ^ 32) :
    run (bufioStep fuel) Bufio.start (c :: chunks) = none := by
  cases hrun : run (bufioStep fuel) Bufio.start (c :: chunks) with
  | none => rfl
  | some t =>
      rcases (run_cons _ _ _ _ _).mp hrun with ⟨m, hm, -⟩
      rcases grown_of_bufioStep hm with ⟨io, hio⟩
      rcases fits_of_grown kept_start (by rw [Bufio.start, List.length_nil]; omega) hio with
        hroom | hsmall
      · have hzero : Bufio.start.io.size.toNat = 0 := rfl
        omega
      · omega

/-- One chunk of 2³¹ bytes: the size goes from 4096 to 2³¹, and from there to 0. -/
theorem not_growsCorrectly_large :
    total [⟨List.replicate (2 ^ 31) 0, fun _ => 0⟩] < 2 ^ 32 ∧
      ¬ GrowsCorrectly [⟨List.replicate (2 ^ 31) 0, fun _ => 0⟩] := by
  have hlt : (2 : Nat) ^ 31 < 2 ^ 32 := Nat.pow_lt_pow_right (by decide) (by decide)
  refine ⟨?_, ?_⟩
  · rw [total, List.map_singleton, List.sum_singleton, List.length_replicate]
    exact hlt
  · rintro ⟨fuel, t, hrun, -⟩
    rw [run_large_first fuel _ [] (Nat.le_of_eq List.length_replicate.symm)
      (by rw [List.length_replicate]; exact hlt)] at hrun
    exact absurd hrun (by simp only [reduceCtorEq, not_false_eq_true])

end Clipboard

end Defender
