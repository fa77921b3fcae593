import Defender.Pe.Digest

/-!
# Ranges that Wrap

`EXCLUDE_RANGE` holds an offset and a size, and `Emit` adds them up as
`DWORD`s. Both come from the Security directory of the file. Where the sum is
2^32 or more the end of the range is before its beginning, nothing is skipped
for it, and the bytes of the file that lie in it are digested.

The other ranges are fields of the headers and end inside the file, so the last
byte of the file is in none of them. It is the one to look at: a range that
wraps and begins inside the file covers it, and it is emitted
(`emit_skips_iff`). The sizes are another matter. What is emitted and skipped is
cut off at what is left in every turn, so they are right for every list.

## Main definitions

* `ExcludeRange.unwrapped`: A range with its end as a natural number.
* `SkipsExactly`: What is wanted of `Emit`.

## Theorems

* `emitStart_shape`: What is on the list, whatever the calls come to.
* `agree_iff`: When the positions skipped are those in the ranges.
* `emit_skips_iff`: When `Emit` skips exactly the ranges.
* `emit_notSkips`: Certificates that wrap.
-/

namespace Defender

namespace Pe

open Wire Ranges

/-- A range with its end as a natural number. -/
def ExcludeRange.unwrapped (r : ExcludeRange) : Range where
  first := r.Offset
  last := r.Offset + r.Size

/-- What holds of the ranges of headers holds of the three. -/
theorem HeaderRanges.forall_iff {rs : List ExcludeRange} {h security VirtualAddress Size : Nat}
    (hrs : HeaderRanges rs h security VirtualAddress Size) (P : ExcludeRange → Prop) :
    (∀ r ∈ rs, P r) ↔ P { Offset := VirtualAddress, Size := Size } ∧
      P { Offset := h + security, Size := 8 } ∧ P { Offset := h + checkSumOffset, Size := 4 } := by
  simp only [hrs.mem, forall_eq_or_imp, forall_eq]

/-- Outside the ranges of a list, whatever is taken for a range. -/
theorem outside_map_iff (rs : List ExcludeRange) (f : ExcludeRange → Range) (k : Nat) :
    outside (rs.map f) k = true ↔ ∀ r ∈ rs, ¬ ((f r).first ≤ k ∧ k < (f r).last) := by
  rw [outside_iff, List.forall_mem_map]

/-- A range that wraps takes nothing out, the others what they are. -/
theorem outside_skipped_of_unwrapped {rs : List ExcludeRange} {k : Nat}
    (hout : outside (rs.map ExcludeRange.unwrapped) k = true) :
    outside (rs.map skipped) k = true := by
  rw [outside_map_iff] at hout ⊢
  intro r hr hin
  refine hout r hr ?_
  unfold skipped at hin
  unfold ExcludeRange.unwrapped
  dsimp only at hin ⊢
  omega

/-- What is on the list when `Emit` is called, whatever the calls come to:
    nothing, or the ranges of headers that lie in the image. -/
theorem emitStart_shape (o : IoOutcomes) (file : List UInt8) (bForce : Bool)
    (rs : List ExcludeRange) (d : Handle) (hstart : emitStart o file bForce = (.ok rs, d)) :
    rs = [] ∨ ∃ h security VirtualAddress Size : Nat,
      (h : Int) + ntHeaders32Size ≤ long file.length ∧ 92 ≤ security ∧ security ≤ 168 ∧
        VirtualAddress < 4294967296 ∧ Size < 4294967296 ∧
        HeaderRanges rs h security VirtualAddress Size := by
  rcases emitStart_ok o file bForce rs d hstart with ⟨-, -, -, hranges⟩
  -- The headers that were accepted lie in the image with all their fields.
  have hin := (calculateImagePtrs_inside o file (initPEData o file.length) ⟨rfl, rfl⟩).2
  have hlong := long_lt file.length
  have hnt : ntHeaders32Size = 248 := rfl
  rcases digestRanges_cases o file _ _ bForce rs d hranges with
    ⟨-, hrs, -⟩ | ⟨hsections, -, -, hrs⟩ | ⟨hsections, -, ntHdr, -, hrs⟩
  · exact Or.inl hrs
  · rcases hin hsections with ⟨-, h, hoffset, hinside⟩
    have hinside' : (h : Int) + ntHeaders32Size ≤ long file.length := hinside
    exact Or.inr ⟨h, securityOffset32, _, _, hinside', by decide, by decide, UInt32.toNat_lt _,
      UInt32.toNat_lt _, excludeHeaders_ranges o _ h securityOffset32 rs hoffset (by omega)
        (by decide) hrs⟩
  · rcases hin hsections with ⟨-, h, hoffset, hinside⟩
    have hinside' : (h : Int) + ntHeaders32Size ≤ long file.length := hinside
    exact Or.inr ⟨h, securityOffset64, _, _, hinside', by decide, by decide, UInt32.toNat_lt _,
      UInt32.toNat_lt _, excludeHeaders_ranges o { (imagePtrs o file).2.1 with ntHdr := ntHdr } h
        securityOffset64 rs hoffset (by omega) (by decide) hrs⟩

theorem addedRanges_shape (o : IoOutcomes) (file : List UInt8) (bForce : Bool) :
    addedRanges o file bForce = [] ∨ ∃ h security VirtualAddress Size : Nat,
      (h : Int) + ntHeaders32Size ≤ long file.length ∧ 92 ≤ security ∧ security ≤ 168 ∧
        VirtualAddress < 4294967296 ∧ Size < 4294967296 ∧
        HeaderRanges (addedRanges o file bForce) h security VirtualAddress Size := by
  unfold addedRanges
  rcases hstart : emitStart o file bForce with ⟨rc | rs, d⟩
  · exact Or.inl rfl
  · exact emitStart_shape o file bForce rs d hstart

/-- `Emit` skips exactly the positions in the ranges: what it emits are the
    others, each once and in order. No size underflows, and the read position
    stays inside the file. -/
structure SkipsExactly (rs : List ExcludeRange) (n : Nat) : Prop where
  emitted : positions (pieces rs n 0)
    = (List.range n).filter (outside (rs.map ExcludeRange.unwrapped))
  sizes : ∀ t ∈ turns rs n 0, t.EmitSize ≤ t.Size ∧ t.ExcludeSize ≤ t.Size - t.EmitSize
  inside : ∀ t ∈ turns rs n 0, t.Offset + t.EmitSize + t.ExcludeSize ≤ n

/-- It depends on the positions emitted only. -/
theorem skipsExactly_iff (rs : List ExcludeRange) (n : Nat) (hsorted : Sorted rs)
    (hn : n < 4294967296) :
    SkipsExactly rs n ↔ ∀ k < n, outside (rs.map skipped) k
      = outside (rs.map ExcludeRange.unwrapped) k := by
  have hpositions := positions_pieces rs hsorted n 0 (by omega)
  rw [← List.range_eq_range'] at hpositions
  constructor
  · intro h k hk
    -- A position is in both lists or in none of them.
    have hmem : k ∈ (List.range n).filter (outside (rs.map skipped))
        ↔ k ∈ (List.range n).filter (outside (rs.map ExcludeRange.unwrapped)) := by
      rw [← hpositions, h.emitted]
    rw [List.mem_filter, List.mem_filter, and_iff_right (List.mem_range.mpr hk),
      and_iff_right (List.mem_range.mpr hk)] at hmem
    exact Bool.eq_iff_iff.mpr hmem
  · intro h
    refine ⟨?_, fun t ht => ?_, fun t ht => ?_⟩
    · rw [hpositions]
      exact List.filter_congr (fun k hk => h k (List.mem_range.mp hk))
    · have hfits := turns_fit rs n 0 t ht
      omega
    · have hfits := turns_fit rs n 0 t ht
      omega

theorem addedRanges_sorted (o : IoOutcomes) (file : List UInt8) (bForce : Bool) :
    Sorted (addedRanges o file bForce) := by
  rcases addedRanges_shape o file bForce with hnil | ⟨_, _, _, _, -, -, -, -, -, hrs⟩
  · rw [hnil]
    exact sorted_nil
  · exact hrs.sorted

/-- The positions skipped are those in the ranges, in a file below 2^31, when none
    of the ranges that begin in the file wraps. -/
theorem agree_iff (o : IoOutcomes) (file : List UInt8) (bForce : Bool)
    (hlarge : file.length < 2147483648) :
    (∀ k < file.length, outside ((addedRanges o file bForce).map skipped) k
        = outside ((addedRanges o file bForce).map ExcludeRange.unwrapped) k) ↔
      ∀ r ∈ addedRanges o file bForce,
        r.Offset + r.Size < 4294967296 ∨ file.length ≤ r.Offset := by
  constructor
  · rcases addedRanges_shape o file bForce with hnil | ⟨h, security, VirtualAddress, Size, hinside,
      hlow, hhigh, hva, hsize, hrs⟩
    · rw [hnil]
      exact fun _ r hr => absurd hr List.not_mem_nil
    rw [long_of_lt file.length hlarge] at hinside
    have hnt : ntHeaders32Size = 248 := rfl
    have hcheck : checkSumOffset = 88 := rfl
    intro hagree
    refine (hrs.forall_iff _).mpr ⟨?_, Or.inl (by dsimp only; omega), Or.inl (by dsimp only; omega)⟩
    -- The last byte of the file lies in certificates that wrap, and is emitted.
    by_contra hwraps
    rw [not_or] at hwraps
    dsimp only at hwraps
    have hlast := hagree (file.length - 1) (by omega)
    have hout : outside ((addedRanges o file bForce).map skipped) (file.length - 1) = true := by
      rw [outside_map_iff, hrs.forall_iff]
      unfold skipped
      dsimp only
      omega
    -- So it is in no range at all, but the certificates go past it.
    rw [hout] at hlast
    have hin := (outside_map_iff _ _ _).mp hlast.symm
    rw [hrs.forall_iff] at hin
    unfold ExcludeRange.unwrapped at hin
    dsimp only at hin
    omega
  · intro hends k hk
    rw [Bool.eq_iff_iff, outside_map_iff, outside_map_iff]
    refine forall₂_congr (fun r hr => ?_)
    -- A range that does not wrap is skipped as it is, and one behind the file is not met.
    have hsmall := (addedRanges_sorted o file bForce).small r hr
    have hend := hends r hr
    unfold skipped ExcludeRange.unwrapped
    dsimp only
    omega

/-- `Emit` skips exactly the ranges on the list, in a file below 2^31, when none
    of those that begin in the file wraps. -/
theorem emit_skips_iff (o : IoOutcomes) (file : List UInt8) (bForce : Bool)
    (hlarge : file.length < 2147483648) :
    (∀ (o' : IoOutcomes) (d : Handle), o'.Reads → o'.mallocBuffer = true →
        (emit o' file (addedRanges o file bForce) file.length d).2.blocks.flatten
          = d.blocks.flatten
            ++ (positions (pieces (addedRanges o file bForce) file.length 0)).map (byteAt file)) ∧
      (SkipsExactly (addedRanges o file bForce) file.length ↔
        ∀ r ∈ addedRanges o file bForce,
          r.Offset + r.Size < 4294967296 ∨ file.length ≤ r.Offset) := by
  have hsorted := addedRanges_sorted o file bForce
  refine ⟨fun o' d hreads hmalloc => ?_, ?_⟩
  · rcases emit_good o' hreads hmalloc file _ hsorted file.length d (Nat.le_refl _) hlarge with
      ⟨d', hemit, hflat⟩
    rw [hemit, hflat, positions_pieces _ hsorted _ 0 (by omega), ← keep_range', ← keep_map,
      ← slice_eq_map file 0 file.length (by omega), slice_all file _ (Nat.le_refl _),
      List.take_length]
  · rw [skipsExactly_iff _ _ hsorted (by omega)]
    exact agree_iff o file bForce hlarge

theorem emit_skips_iff_noStub :
    SkipsExactly (addedRanges goodOutcomes noStub true) noStub.length :=
  (emit_skips_iff goodOutcomes noStub true (by decide +kernel)).2.mpr (by decide +kernel)

/-- The headers of `noStub`, with certificates at 200 of 2^32 - 1 bytes. -/
def wrapping : List UInt8 :=
  noStub.take 152 ++ [200, 0, 0, 0, 255, 255, 255, 255] ++ noStub.drop 160

/-- Certificates that begin in the file and wrap are digested. -/
theorem emit_notSkips :
    ¬ ∀ (o : IoOutcomes) (file : List UInt8) (bForce : Bool), 0 < file.length →
      file.length < 2147483648 → SkipsExactly (addedRanges o file bForce) file.length := by
  intro h
  have hskips := (h goodOutcomes wrapping true (by decide +kernel) (by decide +kernel)).emitted
  exact absurd hskips (by decide +kernel)

end Pe

end Defender
