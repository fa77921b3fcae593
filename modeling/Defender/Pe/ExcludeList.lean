import Mathlib.Data.List.Sort
import Defender.Lib.Ranges
import Defender.Pe.Image

/-!
# The Exclude List

`EXCLUDE_LIST` holds ranges of a file, in the order of their offsets, and
`Emit` passes the rest of the file to the digest function. It goes through the
ranges once with a read position: what lies between the position and the next
range is emitted, and what lies between the position and the end of that range
is skipped. A range that begins before the position was reached overlaps an
earlier one, and only what is left of it is skipped. Both steps are cut off at
the end of the file.

`__calculate` reads a piece in blocks of the size of its buffer. It takes the
size as a `DWORD` and counts it down in an `int`.

What is emitted is settled before anything is read: `pieces` are the offsets and
sizes, and `Emit` goes through them until a call fails. When every call succeeds
all of this comes to `Ranges.keep`: the bytes outside the ranges, in order.

## Main definitions

* `ExcludeRange`, `add`: A range, and inserting one.
* `calculate`, `calcLoop`: Reading and digesting a piece.
* `emitLoop`, `emit`: The pass over the ranges.
* `Turn`, `turns`, `pieces`, `positions`: The pass as a plan.
* `skipped`: The positions a range takes out.

## Theorems

* `add_sorted`, `mem_add`: Inserting keeps the order.
* `emitLoop_eq`: `Emit` passes on its pieces.
* `turns_fit`: No turn goes past the end.
* `calculateAll_blocks`: Pieces that succeed were passed on.
* `pieces_eq_gaps`: The pieces are the gaps between the ranges.
* `positions_pieces`: The positions emitted are those outside the ranges.
* `emit_good`: What is outside the ranges is passed on.
-/

namespace Defender

namespace Pe

open Wire Ranges

/-- A `DWORD` made of a wider value. -/
def dword (x : Int) : Nat :=
  (x % 4294967296).toNat

/-- `EXCLUDE_RANGE`. -/
structure ExcludeRange where
  Offset : Nat
  Size : Nat
  deriving DecidableEq, Repr

/-- `EXCLUDE_LIST::Add`: behind the ranges that begin before it. -/
def add (m_ExRange : List ExcludeRange) (Offset Size : Nat) : List ExcludeRange :=
  match m_ExRange with
  | [] => [{ Offset := dword Offset, Size := Size }]
  | r :: rs =>
      if r.Offset < Offset then r :: add rs Offset Size
      else { Offset := dword Offset, Size := Size } :: r :: rs

/-- `EMIT_BUFFER_SIZE`. -/
def emitBufferSize : Nat := 4096 * 10

/-- The loop of `__calculate`, on what is left. -/
def calcLoop (o : IoOutcomes) (file : List UInt8) (left : Nat) (d : Handle) : Bool × Handle :=
  if _hleft : left = 0 then (true, d)
  else
    let length := min left emitBufferSize
    match readFile o file d length with
    | (none, d) => (false, d)
    | (some data, d) =>
        if data.length ≠ length then (false, d)
        else calcLoop o file (left - length) { d with blocks := d.blocks ++ [data] }
termination_by left
decreasing_by
  simp only [emitBufferSize]
  omega

/-- `EXCLUDE_LIST::__calculate`. -/
def calculate (o : IoOutcomes) (file : List UInt8) (Offset : Nat) (size : Nat) (d : Handle) :
    Bool × Handle :=
  match setFilePointerEx o d Offset with
  | (false, d) => (false, d)
  | (true, d) => calcLoop o file (long size).toNat d

/-- The loop of `Emit` over the ranges, and what it does behind them. -/
def emitLoop (o : IoOutcomes) (file : List UInt8) (pExRange : List ExcludeRange) (Size Offset : Nat)
    (d : Handle) : Bool × Handle :=
  match pExRange with
  | [] => if Size = 0 then (true, d) else calculate o file Offset Size d
  | r :: rs =>
      if Size = 0 then (true, d)
      else
        -- What is before the range.
        let EmitSize := if r.Offset ≥ dword Offset then min (dword (r.Offset - Offset)) Size else 0
        let (ok, d) := if EmitSize = 0 then (true, d) else calculate o file Offset EmitSize d
        if ok = false then (false, d)
        else
          let Size := Size - EmitSize
          let Offset := Offset + EmitSize
          -- What is left of the range.
          let ExcludeSize :=
            if Size ≠ 0 ∧ dword (r.Offset + r.Size) ≥ dword Offset then
              min Size (dword (dword (r.Offset + r.Size) - Offset))
            else 0
          emitLoop o file rs (Size - ExcludeSize) (Offset + ExcludeSize) d

/-- `EXCLUDE_LIST::Emit`. -/
def emit (o : IoOutcomes) (file : List UInt8) (m_ExRange : List ExcludeRange) (Size : Nat)
    (d : Handle) : Bool × Handle :=
  if o.mallocBuffer = false then (false, d) else emitLoop o file m_ExRange Size 0 d

/-! ### The pass as a plan -/

/-- Pieces of a file one after the other, until one of them fails. -/
def calculateAll (o : IoOutcomes) (file : List UInt8) : List (Nat × Nat) → Handle → Bool × Handle
  | [], d => (true, d)
  | p :: ps, d =>
      match calculate o file p.1 p.2 d with
      | (false, d) => (false, d)
      | (true, d) => calculateAll o file ps d

/-- A turn of the loop of `Emit`: the read position and the size that is left,
    as it begins, and how much it emits and how much it skips. -/
structure Turn where
  Offset : Nat
  Size : Nat
  EmitSize : Nat
  ExcludeSize : Nat

/-- The turn for a range. -/
def turn (r : ExcludeRange) (Size Offset : Nat) : Turn :=
  let EmitSize := if r.Offset ≥ dword Offset then min (dword (r.Offset - Offset)) Size else 0
  { Offset := Offset
    Size := Size
    EmitSize := EmitSize
    ExcludeSize :=
      if Size - EmitSize ≠ 0 ∧ dword (r.Offset + r.Size) ≥ dword (Offset + EmitSize : Nat) then
        min (Size - EmitSize) (dword (dword (r.Offset + r.Size) - (Offset + EmitSize : Nat)))
      else 0 }

/-- The turns of the loop. -/
def turns : List ExcludeRange → Nat → Nat → List Turn
  | [], _, _ => []
  | r :: rs, Size, Offset =>
      if Size = 0 then []
      else
        let t := turn r Size Offset
        t :: turns rs (Size - t.EmitSize - t.ExcludeSize) (Offset + t.EmitSize + t.ExcludeSize)

/-- The pieces that are emitted: offsets and sizes. -/
def pieces : List ExcludeRange → Nat → Nat → List (Nat × Nat)
  | [], Size, Offset => if Size = 0 then [] else [(Offset, Size)]
  | r :: rs, Size, Offset =>
      if Size = 0 then []
      else
        let t := turn r Size Offset
        (if t.EmitSize = 0 then [] else [(Offset, t.EmitSize)])
          ++ pieces rs (Size - t.EmitSize - t.ExcludeSize) (Offset + t.EmitSize + t.ExcludeSize)

/-- The positions of some pieces. -/
def positions (ps : List (Nat × Nat)) : List Nat :=
  ps.flatMap (fun p => List.range' p.1 p.2)

theorem emitLoop_cons (o : IoOutcomes) (file : List UInt8) (r : ExcludeRange)
    (rs : List ExcludeRange) (Size Offset : Nat) (d : Handle) (hsize : Size ≠ 0) :
    emitLoop o file (r :: rs) Size Offset d
      = match (if (turn r Size Offset).EmitSize = 0 then (true, d)
          else calculate o file Offset (turn r Size Offset).EmitSize d) with
        | (false, d) => (false, d)
        | (true, d) =>
            emitLoop o file rs
              (Size - (turn r Size Offset).EmitSize - (turn r Size Offset).ExcludeSize)
              (Offset + (turn r Size Offset).EmitSize + (turn r Size Offset).ExcludeSize) d := by
  rw [emitLoop, if_neg hsize]
  change (match (if (turn r Size Offset).EmitSize = 0 then (true, d)
      else calculate o file Offset (turn r Size Offset).EmitSize d) with
    | (ok, d) =>
        if ok = false then (false, d)
        else
          emitLoop o file rs
            (Size - (turn r Size Offset).EmitSize - (turn r Size Offset).ExcludeSize)
            (Offset + (turn r Size Offset).EmitSize + (turn r Size Offset).ExcludeSize) d) = _
  -- Whether the piece before the range was passed on decides, not how.
  rcases (if (turn r Size Offset).EmitSize = 0 then (true, d)
    else calculate o file Offset (turn r Size Offset).EmitSize d) with ⟨ok, d'⟩
  cases ok with
  | false => rfl
  | true => rfl

/-- What `Emit` does is to pass on its pieces, whatever the calls come to. -/
theorem emitLoop_eq (o : IoOutcomes) (file : List UInt8) (rs : List ExcludeRange)
    (Size Offset : Nat) (d : Handle) :
    emitLoop o file rs Size Offset d = calculateAll o file (pieces rs Size Offset) d := by
  induction rs generalizing Size Offset d with
  | nil =>
      rw [emitLoop, pieces]
      by_cases hzero : Size = 0
      · rw [if_pos hzero, if_pos hzero, calculateAll]
      · rw [if_neg hzero, if_neg hzero, calculateAll]
        rcases calculate o file Offset Size d with ⟨ok, d'⟩
        cases ok with
        | false => rfl
        | true => rfl
  | cons r rs ih =>
      rw [pieces]
      by_cases hzero : Size = 0
      · rw [emitLoop, if_pos hzero, if_pos hzero, calculateAll]
      rw [emitLoop_cons o file r rs Size Offset d hzero, if_neg hzero]
      dsimp only
      by_cases hemit : (turn r Size Offset).EmitSize = 0
      · rw [if_pos hemit, if_pos hemit, List.nil_append]
        exact ih _ _ d
      · rw [if_neg hemit, if_neg hemit, List.singleton_append, calculateAll]
        rcases calculate o file Offset (turn r Size Offset).EmitSize d with ⟨ok, d'⟩
        cases ok with
        | false => rfl
        | true => exact ih _ _ d'

theorem turn_excludeSize (r : ExcludeRange) (Size Offset : Nat) :
    (turn r Size Offset).ExcludeSize
      = if Size - (turn r Size Offset).EmitSize ≠ 0 ∧
          dword (r.Offset + r.Size) ≥ dword (Offset + (turn r Size Offset).EmitSize : Nat) then
          min (Size - (turn r Size Offset).EmitSize)
            (dword (dword (r.Offset + r.Size) - (Offset + (turn r Size Offset).EmitSize : Nat)))
        else 0 := rfl

/-- A turn goes no further than what is left, whatever the range. -/
theorem turn_fits (r : ExcludeRange) (Size Offset : Nat) :
    (turn r Size Offset).EmitSize + (turn r Size Offset).ExcludeSize ≤ Size := by
  have hemit : (turn r Size Offset).EmitSize ≤ Size := by
    unfold turn
    dsimp only
    split
    · exact Nat.min_le_right _ _
    · exact Nat.zero_le _
  have hexclude : (turn r Size Offset).ExcludeSize ≤ Size - (turn r Size Offset).EmitSize := by
    rw [turn_excludeSize]
    split
    · exact Nat.min_le_left _ _
    · exact Nat.zero_le _
  omega

/-- Nothing underflows and the read position stays in the file, in every
    turn. -/
theorem turns_fit (rs : List ExcludeRange) (Size Offset : Nat) (t : Turn)
    (h : t ∈ turns rs Size Offset) :
    t.EmitSize + t.ExcludeSize ≤ t.Size ∧ t.Offset + t.Size = Offset + Size := by
  induction rs generalizing Size Offset with
  | nil => exact absurd h List.not_mem_nil
  | cons r rs ih =>
      rw [turns] at h
      by_cases hzero : Size = 0
      · rw [if_pos hzero] at h
        exact absurd h List.not_mem_nil
      rw [if_neg hzero] at h
      have hfits := turn_fits r Size Offset
      -- The rest begins where the turn ends, with the size that the turn leaves.
      rcases List.mem_cons.mp h with rfl | h
      · exact ⟨hfits, rfl⟩
      · rcases ih _ _ h with ⟨hle, hsum⟩
        exact ⟨hle, by omega⟩

/-- The pieces lie in what is to be gone through. -/
theorem pieces_inside (rs : List ExcludeRange) (Size Offset : Nat) (p : Nat × Nat)
    (h : p ∈ pieces rs Size Offset) : Offset ≤ p.1 ∧ p.1 + p.2 ≤ Offset + Size := by
  induction rs generalizing Size Offset with
  | nil =>
      rw [pieces] at h
      by_cases hzero : Size = 0
      · rw [if_pos hzero] at h
        exact absurd h List.not_mem_nil
      · rw [if_neg hzero] at h
        rw [List.mem_singleton.mp h]
        exact ⟨Nat.le_refl _, Nat.le_refl _⟩
  | cons r rs ih =>
      rw [pieces] at h
      by_cases hzero : Size = 0
      · rw [if_pos hzero] at h
        exact absurd h List.not_mem_nil
      rw [if_neg hzero] at h
      have hfits := turn_fits r Size Offset
      rcases List.mem_append.mp h with h | h
      · split at h
        · exact absurd h List.not_mem_nil
        · rw [List.mem_singleton.mp h]
          exact ⟨Nat.le_refl _, by dsimp only; omega⟩
      · have hin := ih _ _ h
        omega

/-! ### Inserting -/

/-- The ranges are in the order of their offsets, and offsets are `DWORD`s. -/
structure Sorted (rs : List ExcludeRange) : Prop where
  pairwise : rs.Pairwise (fun r r' => r.Offset ≤ r'.Offset)
  small : ∀ r ∈ rs, r.Offset < 4294967296

theorem sorted_nil : Sorted [] :=
  ⟨List.Pairwise.nil, fun _ hr => absurd hr List.not_mem_nil⟩

theorem dword_of_lt (n : Nat) (h : n < 4294967296) : dword n = n := by
  unfold dword
  omega

theorem mem_add (rs : List ExcludeRange) (Offset Size : Nat) (r : ExcludeRange) :
    r ∈ add rs Offset Size ↔ r = { Offset := dword Offset, Size := Size } ∨ r ∈ rs := by
  induction rs with
  | nil => rw [add, List.mem_singleton, or_iff_left List.not_mem_nil]
  | cons r' rs ih =>
      rw [add]
      by_cases hlt : r'.Offset < Offset
      · rw [if_pos hlt, List.mem_cons, ih, List.mem_cons]
        exact or_left_comm
      · rw [if_neg hlt, List.mem_cons]

/-- Inserting keeps the order. -/
theorem add_sorted (rs : List ExcludeRange) (Offset Size : Nat) (hoffset : Offset < 4294967296)
    (h : Sorted rs) : Sorted (add rs Offset Size) := by
  have hdword := dword_of_lt Offset hoffset
  refine ⟨?_, fun r hr => ?_⟩
  · have hpairwise := h.pairwise
    clear h
    induction rs with
    | nil => exact List.pairwise_singleton _ _
    | cons r rs ih =>
        rcases List.pairwise_cons.mp hpairwise with ⟨hfirst, hrest⟩
        rw [add]
        by_cases hlt : r.Offset < Offset
        · rw [if_pos hlt]
          refine List.pairwise_cons.mpr ⟨fun r' hr' => ?_, ih hrest⟩
          rcases (mem_add rs Offset Size r').mp hr' with rfl | hr'
          · dsimp only
            omega
          · exact hfirst r' hr'
        · rw [if_neg hlt]
          refine List.pairwise_cons.mpr ⟨fun r' hr' => ?_, hpairwise⟩
          -- The inserted range begins no later than the first, and so than all.
          rcases List.mem_cons.mp hr' with rfl | hr'
          · dsimp only
            omega
          · have hle := hfirst r' hr'
            dsimp only
            omega
  · rcases (mem_add rs Offset Size r).mp hr with rfl | hr
    · dsimp only
      omega
    · exact h.small r hr

/-! ### Passing a piece on -/

theorem long_lt (n : Nat) : long n < 2147483648 := by
  rw [long, toInt_ofNat]
  split <;> omega

theorem long_of_lt (n : Nat) (h : n < 2147483648) : long n = n := by
  rw [long, toInt_ofNat, Nat.mod_eq_of_lt (by omega), if_pos h]

/-- The loop of `__calculate` goes on behind a block that was read in full. -/
theorem calcLoop_full (o : IoOutcomes) (file : List UInt8) (left : Nat) (d : Handle)
    (hleft : left ≠ 0) (hfull : FullRead o file d (min left emitBufferSize)) :
    calcLoop o file left d
      = calcLoop o file (left - min left emitBufferSize)
        { pos := d.pos + min left emitBufferSize
          calls := d.calls + 1
          blocks := d.blocks ++ [slice file d.pos (min left emitBufferSize)] } := by
  have hbuffer : emitBufferSize = 40960 := rfl
  have hlen := length_slice file d.pos (min left emitBufferSize) (hfull.inside (by omega))
  rw [calcLoop, dif_neg hleft]
  simp only [hfull.readFile_eq, hlen, ne_eq, not_true_eq_false, if_false]

/-- Otherwise it ends. -/
theorem calcLoop_short (o : IoOutcomes) (file : List UInt8) (left : Nat) (d : Handle)
    (hleft : left ≠ 0) (hshort : ¬ FullRead o file d (min left emitBufferSize)) :
    (calcLoop o file left d).1 = false := by
  unfold FullRead at hshort
  rw [calcLoop, dif_neg hleft]
  dsimp only
  rcases hread : readFile o file d (min left emitBufferSize) with ⟨data, d'⟩
  rw [hread] at hshort
  cases data with
  | none => rfl
  | some data =>
      -- The read gave less than was asked for.
      have hlen : data.length ≠ min left emitBufferSize := fun h => hshort (congrArg some h)
      dsimp only
      rw [if_pos hlen]

/-- When the loop is done, what was left is in its blocks. Induction on what is
    left. -/
theorem calcLoop_blocks (o : IoOutcomes) (file : List UInt8) (left : Nat) (d d' : Handle)
    (h : calcLoop o file left d = (true, d')) :
    d'.blocks.flatten = d.blocks.flatten ++ slice file d.pos left := by
  induction left using Nat.strongRecOn generalizing d with
  | ind left ih =>
      by_cases hleft : left = 0
      · rw [calcLoop, dif_pos hleft] at h
        rw [← (Prod.mk.inj h).2, hleft, slice_zero, List.append_nil]
      have hbuffer : emitBufferSize = 40960 := rfl
      by_cases hfull : FullRead o file d (min left emitBufferSize)
      · rw [calcLoop_full o file left d hleft hfull] at h
        -- What was left is the block and what the rest of the loop makes of it.
        have hsplit : left = min left emitBufferSize + (left - min left emitBufferSize) := by omega
        have hpiece : slice file d.pos left
            = slice file d.pos (min left emitBufferSize)
              ++ slice file (d.pos + min left emitBufferSize) (left - min left emitBufferSize) := by
          rw [← slice_add, ← hsplit]
        rw [ih _ (by omega) _ h, hpiece, List.flatten_append, List.flatten_singleton,
          List.append_assoc]
      · have hfalse := calcLoop_short o file left d hleft hfull
        rw [h] at hfalse
        exact absurd hfalse.symm Bool.false_ne_true

/-- When every call succeeds the loop is done. -/
theorem calcLoop_returns (o : IoOutcomes) (hreads : o.Reads) (file : List UInt8) (left : Nat)
    (d : Handle) (hroom : d.pos + left ≤ file.length) :
    ∃ d', calcLoop o file left d = (true, d') := by
  induction left using Nat.strongRecOn generalizing d with
  | ind left ih =>
      by_cases hleft : left = 0
      · rw [calcLoop, dif_pos hleft]
        exact ⟨d, rfl⟩
      have hbuffer : emitBufferSize = 40960 := rfl
      rw [calcLoop_full o file left d hleft (fullRead_good o hreads file d _ (by omega))]
      exact ih _ (by omega) _ (by dsimp only; omega)

/-- When `__calculate` succeeds the piece was passed on, as long as its size is
    positive as an `int`. -/
theorem calculate_blocks (o : IoOutcomes) (file : List UInt8) (Offset size : Nat) (d d' : Handle)
    (h : calculate o file Offset size d = (true, d')) :
    d'.blocks.flatten = d.blocks.flatten ++ slice file Offset (long size).toNat := by
  have hneg : ¬ (Offset : Int) < 0 := by omega
  rw [calculate, setFilePointerEx] at h
  by_cases hseek : o.seekOk d.calls = false
  · rw [if_pos (Or.inl hseek)] at h
    exact absurd (Prod.mk.inj h).1 Bool.false_ne_true
  · rw [if_neg (not_or.mpr ⟨hseek, hneg⟩), Int.toNat_natCast] at h
    exact calcLoop_blocks o file _ _ d' h

/-- Pieces that all succeed were all passed on. -/
theorem calculateAll_blocks (o : IoOutcomes) (file : List UInt8) (ps : List (Nat × Nat))
    (d d' : Handle) (h : calculateAll o file ps d = (true, d')) :
    d'.blocks.flatten
      = d.blocks.flatten ++ ps.flatMap (fun p => slice file p.1 (long p.2).toNat) := by
  induction ps generalizing d with
  | nil =>
      rw [← (Prod.mk.inj h).2, List.flatMap_nil, List.append_nil]
  | cons p ps ih =>
      rw [calculateAll] at h
      rcases hcalc : calculate o file p.1 p.2 d with ⟨ok, d₁⟩
      rw [hcalc] at h
      cases ok with
      | false => exact absurd (Prod.mk.inj h).1 Bool.false_ne_true
      | true =>
          rw [ih d₁ h, calculate_blocks o file p.1 p.2 d d₁ hcalc, List.flatMap_cons,
            List.append_assoc]

/-- When every call succeeds pieces in the file are all passed on. -/
theorem calculateAll_returns (o : IoOutcomes) (hreads : o.Reads) (file : List UInt8)
    (ps : List (Nat × Nat)) (hroom : ∀ p ∈ ps, p.1 + (long p.2).toNat ≤ file.length) (d : Handle) :
    ∃ d', calculateAll o file ps d = (true, d') := by
  induction ps generalizing d with
  | nil => exact ⟨d, rfl⟩
  | cons p ps ih =>
      rcases calcLoop_returns o hreads file (long p.2).toNat
        { d with pos := p.1, calls := d.calls + 1 } (hroom p List.mem_cons_self) with ⟨d₁, hd₁⟩
      rw [calculateAll, calculate, setFilePointerEx_good o hreads]
      dsimp only
      rw [hd₁]
      exact ih (fun p hp => hroom p (List.mem_cons_of_mem _ hp)) d₁

/-! ### The positions emitted -/

/-- The positions a range takes out. Its end is a `DWORD`, so a range that
    would go past 2^32 ends before it begins. -/
def skipped (r : ExcludeRange) : Range where
  first := r.Offset
  last := (r.Offset + r.Size) % 4294967296

/-- What a range takes out is put where the range is put. -/
theorem map_skipped_add (rs : List ExcludeRange) (Offset Size : Nat) (h : Offset < 4294967296) :
    (add rs Offset Size).map skipped
      = (rs.map skipped).orderedInsert (fun r r' => r.first ≤ r'.first)
          (skipped { Offset := Offset, Size := Size }) := by
  induction rs with
  | nil =>
      rw [add, dword_of_lt Offset h, List.map_nil, List.orderedInsert_nil]
      rfl
  | cons r rs ih =>
      rw [add, List.map_cons, List.orderedInsert_cons]
      by_cases hlt : r.Offset < Offset
      · have hnot : ¬ (skipped { Offset := Offset, Size := Size }).first ≤ (skipped r).first :=
          Nat.not_le_of_lt hlt
        rw [if_pos hlt, if_neg hnot, List.map_cons, ih]
      · have hle : (skipped { Offset := Offset, Size := Size }).first ≤ (skipped r).first :=
          Nat.le_of_not_lt hlt
        rw [if_neg hlt, if_pos hle, dword_of_lt Offset h]
        rfl

/-- The end of a range as `Emit` computes it. -/
theorem skipped_last (r : ExcludeRange) :
    dword ((r.Offset : Int) + r.Size) = (skipped r).last := by
  unfold dword skipped
  dsimp only
  omega

/-- What a turn emits and skips, without the wrapping. -/
theorem turn_spec (r : ExcludeRange) (Size Offset : Nat) (hsmall : r.Offset < 4294967296)
    (hsize : Offset + Size < 4294967296) :
    (turn r Size Offset).EmitSize = min (r.Offset - Offset) Size ∧
      (turn r Size Offset).ExcludeSize
        = min (Size - min (r.Offset - Offset) Size)
          ((skipped r).last - (Offset + min (r.Offset - Offset) Size)) := by
  have hdword : dword Offset = Offset := dword_of_lt Offset (by omega)
  have hemit : (turn r Size Offset).EmitSize = min (r.Offset - Offset) Size := by
    unfold turn
    dsimp only
    rw [hdword]
    unfold dword
    split <;> omega
  refine ⟨hemit, ?_⟩
  have hlast : (skipped r).last < 4294967296 := Nat.mod_lt _ (by decide)
  have hdwordE := dword_of_lt (Offset + min (r.Offset - Offset) Size) (by omega)
  -- Where the end lies before the read position, the difference is zero as a number.
  rw [turn_excludeSize, hemit, hdwordE, skipped_last]
  unfold dword
  split <;> omega

/-- The pieces are the gaps that the ranges leave, as they are taken out.
    Induction on the ranges; a turn goes to where the next gap can begin. -/
theorem pieces_eq_gaps (rs : List ExcludeRange) (hsorted : Sorted rs) (n p : Nat) (hp : p ≤ n)
    (hn : n < 4294967296) : pieces rs (n - p) p = gaps n (rs.map skipped) p := by
  induction rs generalizing p with
  | nil =>
      rw [pieces, List.map_nil, gaps]
      by_cases hend : n - p = 0
      · rw [if_pos hend, if_neg (by omega)]
      · rw [if_neg hend, if_pos (by omega)]
  | cons r rs ih =>
      have hrest : Sorted rs := ⟨(List.pairwise_cons.mp hsorted.pairwise).2,
        fun r' hr' => hsorted.small r' (List.mem_cons_of_mem _ hr')⟩
      have hsmall := hsorted.small r List.mem_cons_self
      have hfirst : (skipped r).first = r.Offset := rfl
      rcases turn_spec r (n - p) p hsmall (by omega) with ⟨hemit, hexclude⟩
      rw [pieces, List.map_cons]
      by_cases hend : n - p = 0
      · rw [if_pos hend, show p = n by omega]
        exact (gaps_end n _).symm
      · have hnext : p + (turn r (n - p) p).EmitSize + (turn r (n - p) p).ExcludeSize
            = max p (min n (max (skipped r).first (skipped r).last)) := by omega
        have hleft : n - p - (turn r (n - p) p).EmitSize - (turn r (n - p) p).ExcludeSize
            = n - max p (min n (max (skipped r).first (skipped r).last)) := by omega
        dsimp only
        rw [if_neg hend, hnext, hleft, ih hrest _ (by omega), gaps]
        congr 1
        by_cases hnone : (turn r (n - p) p).EmitSize = 0
        · rw [if_pos hnone, if_neg (by omega)]
        · rw [if_neg hnone, if_pos (by omega), show (turn r (n - p) p).EmitSize
            = min (skipped r).first n - p by omega]

/-- What lies before the first range lies before all of them. -/
theorem filter_before (r : ExcludeRange) (rs : List ExcludeRange) (hsorted : Sorted (r :: rs))
    (Offset n : Nat) (hn : Offset + n ≤ r.Offset ∨ n = 0) :
    (List.range' Offset n).filter (outside ((r :: rs).map skipped)) = List.range' Offset n := by
  have hfirst := (List.pairwise_cons.mp hsorted.pairwise).1
  refine List.filter_eq_self.mpr (fun k hk => ?_)
  have hk' := List.mem_range'_1.mp hk
  rw [outside_iff]
  intro x hx hcovers
  rcases List.mem_map.mp hx with ⟨r', hr', rfl⟩
  have hle : r.Offset ≤ (skipped r').first := by
    rcases List.mem_cons.mp hr' with rfl | hr'
    · exact Nat.le_refl _
    · exact hfirst r' hr'
  omega

theorem filter_inside (r : ExcludeRange) (rs : List ExcludeRange) (Offset n : Nat)
    (hn : (r.Offset ≤ Offset ∧ Offset + n ≤ (skipped r).last) ∨ n = 0) :
    (List.range' Offset n).filter (outside ((r :: rs).map skipped)) = [] := by
  refine List.filter_eq_nil_iff.mpr (fun k hk => ?_)
  have hk' := List.mem_range'_1.mp hk
  have hbegin : (skipped r).first = r.Offset := rfl
  rw [outside_iff]
  exact fun hout => hout (skipped r) List.mem_cons_self (by omega)

/-- Behind a range only the others matter. -/
theorem filter_behind (r : ExcludeRange) (rs : List ExcludeRange) (Offset n : Nat)
    (hn : (skipped r).last ≤ Offset ∨ n = 0) :
    (List.range' Offset n).filter (outside ((r :: rs).map skipped))
      = (List.range' Offset n).filter (outside (rs.map skipped)) := by
  refine List.filter_congr (fun k hk => ?_)
  have hk' := List.mem_range'_1.mp hk
  have hnot : (skipped r).covers k = false := by
    refine Bool.eq_false_iff.mpr (fun hcovers => ?_)
    have hin := (covers_iff (skipped r) k).mp hcovers
    omega
  rw [List.map_cons, outside_cons, hnot]
  rfl

theorem positions_append (ps qs : List (Nat × Nat)) :
    positions (ps ++ qs) = positions ps ++ positions qs :=
  List.flatMap_append

/-- The positions emitted, from a read position on, are those that no range
    takes out. Induction on the ranges; every one of them either lies ahead, so
    that the file up to it is emitted, or reaches back, so that only its rest
    matters. -/
theorem positions_pieces (rs : List ExcludeRange) (hsorted : Sorted rs) (Size Offset : Nat)
    (hsize : Offset + Size < 4294967296) :
    positions (pieces rs Size Offset)
      = (List.range' Offset Size).filter (outside (rs.map skipped)) := by
  induction rs generalizing Size Offset with
  | nil =>
      rw [pieces]
      have hall : (List.range' Offset Size).filter (outside (([] : List ExcludeRange).map skipped))
          = List.range' Offset Size := List.filter_eq_self.mpr (fun _ _ => rfl)
      rw [hall]
      by_cases hzero : Size = 0
      · rw [if_pos hzero, hzero]
        rfl
      · rw [if_neg hzero, positions, List.flatMap_singleton]
  | cons r rs ih =>
      have hrest : Sorted rs := ⟨(List.pairwise_cons.mp hsorted.pairwise).2,
        fun x hx => hsorted.small x (List.mem_cons_of_mem r hx)⟩
      rw [pieces]
      by_cases hzero : Size = 0
      · rw [if_pos hzero, hzero]
        rfl
      rw [if_neg hzero]
      rcases turn_spec r Size Offset (hsorted.small r List.mem_cons_self) hsize with ⟨hE, hX⟩
      obtain ⟨E, hE'⟩ : ∃ E, E = (turn r Size Offset).EmitSize := ⟨_, rfl⟩
      obtain ⟨X, hX'⟩ : ∃ X, X = (turn r Size Offset).ExcludeSize := ⟨_, rfl⟩
      -- The two sizes are named, so that the arithmetic sees nothing of the turn.
      rw [← hE'] at hE
      rw [← hX', ← hE] at hX
      dsimp only
      rw [← hE', ← hX']
      -- The positions are those emitted, those skipped, and the rest.
      have hsplit : List.range' Offset Size = List.range' Offset E
          ++ (List.range' (Offset + E) X ++ List.range' (Offset + E + X) (Size - E - X)) := by
        rw [List.range'_append_1, List.range'_append_1]
        congr 1
        omega
      have hpiece : positions (if E = 0 then [] else [(Offset, E)]) = List.range' Offset E := by
        by_cases hE0 : E = 0
        · rw [if_pos hE0, hE0]
          rfl
        · rw [if_neg hE0, positions, List.flatMap_singleton]
      rw [positions_append, hpiece, ih hrest _ _ (by omega), hsplit, List.filter_append,
        List.filter_append, filter_before r rs hsorted Offset E (by omega),
        filter_inside r rs (Offset + E) X (by omega),
        filter_behind r rs (Offset + E + X) (Size - E - X) (by omega), List.nil_append]

/-- The content of pieces in a file that are below 2^31. -/
theorem slices_pieces (file : List UInt8) (ps : List (Nat × Nat))
    (hroom : ∀ p ∈ ps, p.1 + p.2 ≤ file.length ∧ p.2 < 2147483648) :
    ps.flatMap (fun p => slice file p.1 (long p.2).toNat) = (positions ps).map (byteAt file) := by
  induction ps with
  | nil => rfl
  | cons p ps ih =>
      rcases hroom p List.mem_cons_self with ⟨hin, hsmall⟩
      rw [List.flatMap_cons, ih (fun p hp => hroom p (List.mem_cons_of_mem _ hp)),
        long_of_lt p.2 hsmall, Int.toNat_natCast, slice_eq_map file p.1 p.2 hin, positions,
        positions, List.flatMap_cons, List.map_append]

/-- The content of the pieces is what is outside the ranges. -/
theorem pieces_content (file : List UInt8) (rs : List ExcludeRange) (hsorted : Sorted rs)
    (Size : Nat) (hroom : Size ≤ file.length) (hsize : Size < 2147483648) :
    (pieces rs Size 0).flatMap (fun p => slice file p.1 (long p.2).toNat)
      = keep (outside (rs.map skipped)) 0 (file.take Size) := by
  have htake : file.take Size = slice file 0 Size := by rw [slice, List.drop_zero]
  have hin : ∀ p ∈ pieces rs Size 0, p.1 + p.2 ≤ file.length ∧ p.2 < 2147483648 := by
    intro p hp
    have hp' := pieces_inside rs Size 0 p hp
    omega
  rw [slices_pieces file _ hin, positions_pieces rs hsorted Size 0 (by omega), htake,
    slice_eq_map file 0 Size (by omega), keep_map, keep_range']

/-- What `Emit` passes on of the front of a file: all that is outside the
    ranges. -/
theorem emit_good (o : IoOutcomes) (hreads : o.Reads) (hmalloc : o.mallocBuffer = true)
    (file : List UInt8) (rs : List ExcludeRange) (hsorted : Sorted rs) (Size : Nat) (d : Handle)
    (hroom : Size ≤ file.length) (hsize : Size < 2147483648) :
    ∃ d', emit o file rs Size d = (true, d') ∧
      d'.blocks.flatten = d.blocks.flatten
        ++ keep (outside (rs.map skipped)) 0 (file.take Size) := by
  have hbuffer : ¬ o.mallocBuffer = false := by rw [hmalloc]; decide
  have hin : ∀ p ∈ pieces rs Size 0, p.1 + (long p.2).toNat ≤ file.length := by
    intro p hp
    have hp' := pieces_inside rs Size 0 p hp
    rw [long_of_lt p.2 (by omega), Int.toNat_natCast]
    omega
  rcases calculateAll_returns o hreads file (pieces rs Size 0) hin d with ⟨d', hd'⟩
  refine ⟨d', ?_, ?_⟩
  · rw [emit, if_neg hbuffer, emitLoop_eq, hd']
  · rw [calculateAll_blocks o file _ d d' hd', pieces_content file rs hsorted Size hroom hsize]

end Pe

end Defender
