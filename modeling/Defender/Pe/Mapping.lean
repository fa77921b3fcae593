import Mathlib.Algebra.Group.Nat.Defs
import Mathlib.Data.List.Chain
import Defender.Pe.Inside

/-!
# Where Addresses Are in the File

What `ConvertRvaToFoa` is for: an address in a section is as far behind the beginning of
the section's data as it is behind its `VirtualAddress`, and an address in no section is
nowhere. The loop takes the first section that does not end before the address, and tests
for its end with `<=`. So the first address behind a section is taken for one of it.

In a section table whose sections are laid one behind the other that is the only address
where this makes a difference: an empty section at the end of another one, or the section
that begins there, does not get to see it. `EndsAgree` says, of the fields of the table,
when the difference does not show.

## Main definitions

* `SectionHeader.rawEnd`, `SectionHeader.Covers`: Where a section ends, and its addresses.
* `SectionHeader.offsetOf`: Where an address of a section is in the file.
* `Laid`: The sections are one behind the other.
* `RawDisjoint`: Sections with no byte of the file in common.
* `MapsAsTable`: Addresses are where the section table says.
* `EndsAgree`: The fields at the ends of the sections.

## Theorems

* `placeIn_covers`, `placeIn_end`, `placeIn_outside`: Where an address in a section is, one
  at the end of a section, and one in no section.
* `inside_of_endsAgree`, `outside_of_endsAgree`, `endsAgree_of_maps`: Both directions.
* `mapsAsTable_iff`: Addresses are where the table says exactly when the fields agree.
-/

namespace Defender

namespace Pe

namespace Tools

open Wire CString Reads

/-! ### What the table says -/

/-- `VirtualAddress + SizeOfRawData`, where this does not overflow. -/
def SectionHeader.rawEnd (s : SectionHeader) : Nat :=
  s.VirtualAddress.toNat + s.SizeOfRawData.toNat

/-- The addresses in a section. -/
def SectionHeader.Covers (s : SectionHeader) (RVA : Nat) : Prop :=
  s.VirtualAddress.toNat ≤ RVA ∧ RVA < s.rawEnd

/-- Where a section's address is in the file. -/
def SectionHeader.offsetOf (s : SectionHeader) (RVA : Nat) : Nat :=
  s.PointerToRawData.toNat + (RVA - s.VirtualAddress.toNat)

/-- A section ends where another one begins at the latest. -/
def SectionHeader.Before (s t : SectionHeader) : Prop :=
  s.rawEnd ≤ t.VirtualAddress.toNat

instance (s t : SectionHeader) : Decidable (s.Before t) :=
  inferInstanceAs (Decidable (_ ≤ _))

/-- The sections are sorted and do not overlap, and no sum overflows. -/
structure Laid (table : List SectionHeader) : Prop where
  chain : table.IsChain SectionHeader.Before
  bounded : ∀ s ∈ table, s.rawEnd < 2 ^ 32

/-- The parts of the file that two sections are in do not overlap. -/
def RawDisjoint (s t : SectionHeader) : Prop :=
  s.PointerToRawData.toNat + s.SizeOfRawData.toNat ≤ t.PointerToRawData.toNat ∨
    t.PointerToRawData.toNat + t.SizeOfRawData.toNat ≤ s.PointerToRawData.toNat

/-- Addresses are where the section table says, and different ones in different places.
    An address is a `size_t`. -/
structure MapsAsTable (b : Buffer) : Prop where
  inside : ∀ RVA, RVA < 2 ^ b.bits → ∀ s ∈ sectionTable b, s.Covers RVA →
    convertRvaToFoa b RVA = .ok (s.offsetOf RVA)
  outside : ∀ RVA, RVA < 2 ^ b.bits → (headerAt b (firstSection b)).VirtualAddress.toNat ≤ RVA →
    (∀ s ∈ sectionTable b, ¬ s.Covers RVA) → convertRvaToFoa b RVA = .ok 0
  injective : ∀ s ∈ sectionTable b, ∀ t ∈ sectionTable b, s = t ∨ RawDisjoint s t →
    ∀ RVA RVA', s.Covers RVA → t.Covers RVA' → RVA ≠ RVA' →
      convertRvaToFoa b RVA ≠ convertRvaToFoa b RVA'

/-- No section's data reaches beyond what a pointer can say, and where a section ends (the
    first of those that end there) its data ends where the data of the section begins that
    begins there, or at 0 when none begins. -/
structure EndsAgree (b : Buffer) : Prop where
  fits : ∀ s ∈ sectionTable b, s.SizeOfRawData ≠ 0 →
    s.PointerToRawData.toNat + s.SizeOfRawData.toNat ≤ 2 ^ b.bits
  meets : ∀ before s after, sectionTable b = before ++ s :: after →
    (∀ r ∈ before, r.rawEnd ≠ s.rawEnd) →
    ∀ t ∈ sectionTable b, t.VirtualAddress.toNat = s.rawEnd → t.SizeOfRawData ≠ 0 →
      b.wrap (s.PointerToRawData.toNat + s.SizeOfRawData.toNat) = t.PointerToRawData.toNat
  last : ∀ before s after, sectionTable b = before ++ s :: after →
    (∀ r ∈ before, r.rawEnd ≠ s.rawEnd) →
    (∀ t ∈ sectionTable b, t.VirtualAddress.toNat = s.rawEnd → t.SizeOfRawData = 0) →
      b.wrap (s.PointerToRawData.toNat + s.SizeOfRawData.toNat) = 0

/-! ### Sections one behind the other -/

variable {b : Buffer} {table : List SectionHeader}

theorem SectionHeader.size_ne_zero {s : SectionHeader} (h : s.SizeOfRawData ≠ 0) :
    s.SizeOfRawData.toNat ≠ 0 :=
  fun hzero => h (UInt32.toNat_inj.mp hzero)

/-- What a table is split at is one of its sections. -/
theorem mem_of_split {before after : List SectionHeader} {s : SectionHeader}
    (hsplit : table = before ++ s :: after) : s ∈ table :=
  hsplit ▸ List.mem_append_right before List.mem_cons_self

theorem SectionHeader.begin_le (s : SectionHeader) : s.VirtualAddress.toNat ≤ s.rawEnd :=
  Nat.le_add_right _ _

instance : Trans SectionHeader.Before SectionHeader.Before SectionHeader.Before where
  trans {s t u} hst htu := by
    have hend := t.begin_le
    unfold SectionHeader.Before at *
    omega

/-- Those before it end where a section begins at the latest, and those behind it begin
    where it ends at the earliest. -/
theorem Laid.split {before after : List SectionHeader} {s : SectionHeader}
    (h : Laid (before ++ s :: after)) :
    (∀ r ∈ before, r.rawEnd ≤ s.VirtualAddress.toNat) ∧
      ∀ t ∈ after, s.rawEnd ≤ t.VirtualAddress.toNat := by
  have hpairs := List.pairwise_append.mp h.chain.pairwise
  exact ⟨fun r hr => hpairs.2.2 r hr s List.mem_cons_self,
    (List.pairwise_cons.mp hpairs.2.1).1⟩

/-- The sections that end a search are those that do not end before the address. -/
theorem Laid.ends_iff (h : Laid table) {s : SectionHeader} (hs : s ∈ table) (RVA : Nat) :
    s.Ends RVA ↔ RVA ≤ s.rawEnd := by
  have hbound := h.bounded s hs
  have hsum : (s.VirtualAddress + s.SizeOfRawData).toNat = s.rawEnd := by
    rw [UInt32.toNat_add]
    exact Nat.mod_eq_of_lt hbound
  have hend := s.begin_le
  unfold SectionHeader.Ends
  rw [hsum]
  omega

/-- A section with an address that is not behind its end is the one that is found, unless
    another one ends there. -/
theorem Laid.find_of_split {before after : List SectionHeader} {s : SectionHeader}
    (h : Laid (before ++ s :: after)) {RVA : Nat} (hin : s.VirtualAddress.toNat ≤ RVA)
    (hend : RVA ≤ s.rawEnd) (hbefore : ∀ r ∈ before, r.rawEnd ≠ RVA) :
    (before ++ s :: after).find? (fun s => decide (s.Ends RVA)) = some s := by
  have hmem : s ∈ before ++ s :: after := List.mem_append_right before List.mem_cons_self
  refine List.find?_eq_some_iff_append.mpr ⟨?_, before, after, rfl, fun r hr => ?_⟩
  · rw [decide_eq_true_eq, h.ends_iff hmem]
    exact hend
  · have hle := h.split.1 r hr
    have hne := hbefore r hr
    rw [Bool.not_eq_true', decide_eq_false_iff_not, h.ends_iff (List.mem_append_left _ hr)]
    omega

theorem placeIn_of_find {RVA : Nat} {s : SectionHeader}
    (hfind : table.find? (fun s => decide (s.Ends RVA)) = some s)
    (hin : s.VirtualAddress.toNat ≤ RVA) : placeIn b table RVA = b.wrap (s.offsetOf RVA) := by
  rw [placeIn, hfind, SectionHeader.offsetOf, Nat.add_comm]
  exact if_neg (Nat.not_lt.mpr hin)

/-- Where the addresses of a section are, unless another section ends there. -/
theorem placeIn_covers (h : Laid table) {s : SectionHeader} {before after : List SectionHeader}
    (hsplit : table = before ++ s :: after) {RVA : Nat} (hin : s.Covers RVA)
    (hbefore : ∀ r ∈ before, r.rawEnd ≠ RVA) :
    placeIn b table RVA = b.wrap (s.offsetOf RVA) := by
  subst hsplit
  exact placeIn_of_find (h.find_of_split hin.1 (Nat.le_of_lt hin.2) hbefore) hin.1

/-- The end of a section, the first that ends there, is taken for one of its addresses. -/
theorem placeIn_end (h : Laid table) {s : SectionHeader} {before after : List SectionHeader}
    (hsplit : table = before ++ s :: after) (hbefore : ∀ r ∈ before, r.rawEnd ≠ s.rawEnd) :
    placeIn b table s.rawEnd
      = b.wrap (s.PointerToRawData.toNat + s.SizeOfRawData.toNat) := by
  subst hsplit
  rw [placeIn_of_find (h.find_of_split s.begin_le (Nat.le_refl _) hbefore) s.begin_le,
    SectionHeader.offsetOf, SectionHeader.rawEnd, Nat.add_sub_cancel_left]

/-- An address in no section, and at the end of none, is nowhere. -/
theorem placeIn_outside (h : Laid table) {RVA : Nat} (hout : ∀ s ∈ table, ¬ s.Covers RVA)
    (hend : ∀ s ∈ table, s.rawEnd ≠ RVA) : placeIn b table RVA = 0 := by
  cases hfind : table.find? (fun s => decide (s.Ends RVA)) with
  | none => rw [placeIn, hfind]
  | some s =>
      have hmem := List.mem_of_find?_eq_some hfind
      have hle := List.find?_some hfind
      rw [decide_eq_true_eq, h.ends_iff hmem] at hle
      have hlt : RVA < s.VirtualAddress.toNat := by
        have hne := hend s hmem
        have hnot := hout s hmem
        unfold SectionHeader.Covers at hnot
        omega
      rw [placeIn, hfind]
      exact if_pos hlt

/-- Of two sections one is before the other. -/
theorem Laid.before_or (h : Laid table) {s t : SectionHeader} (hs : s ∈ table) (ht : t ∈ table) :
    s = t ∨ s.Before t ∨ t.Before s := by
  rcases List.append_of_mem hs with ⟨before, after, rfl⟩
  rcases List.mem_append.mp ht with hbefore | hafter
  · exact Or.inr (Or.inr (h.split.1 t hbefore))
  · rcases List.mem_cons.mp hafter with heq | hafter
    · exact Or.inl heq.symm
    · exact Or.inr (Or.inl (h.split.2 t hafter))

/-- The first of the sections that end somewhere. -/
theorem exists_first_end {RVA : Nat} (h : ∃ s ∈ table, s.rawEnd = RVA) :
    ∃ before s after, table = before ++ s :: after ∧ s.rawEnd = RVA ∧
      ∀ r ∈ before, r.rawEnd ≠ s.rawEnd := by
  rcases h with ⟨s, hs, hend⟩
  have hsome : (table.find? (fun s => decide (s.rawEnd = RVA))).isSome = true :=
    List.find?_isSome.mpr ⟨s, hs, decide_eq_true hend⟩
  rcases Option.isSome_iff_exists.mp hsome with ⟨s', hfind⟩
  rcases List.find?_eq_some_iff_append.mp hfind with ⟨hs', before, after, hsplit, hbefore⟩
  rw [decide_eq_true_eq] at hs'
  refine ⟨before, s', after, hsplit, hs', fun r hr => ?_⟩
  -- Those in front of the first one end elsewhere.
  have hnot := hbefore r hr
  rw [Bool.not_eq_true', decide_eq_false_iff_not] at hnot
  rw [hs']
  exact hnot

/-- A section whose address another one ends at begins there. -/
theorem Laid.begin_of_end (h : Laid table) {s t : SectionHeader} (hs : s ∈ table) (ht : t ∈ table)
    (hin : t.Covers s.rawEnd) : t.VirtualAddress.toNat = s.rawEnd := by
  have hle := s.begin_le
  unfold SectionHeader.Covers at hin
  rcases h.before_or hs ht with rfl | hbefore | hafter
  · omega
  · exact Nat.le_antisymm hin.1 hbefore
  · unfold SectionHeader.Before at hafter
    omega

/-! ### The conversion -/

/-- The first section begins before all others. -/
theorem firstSection_le (hk : 1 ≤ numberOfSections b) (hlaid : Laid (sectionTable b))
    {s : SectionHeader} (hs : s ∈ sectionTable b) :
    (headerAt b (firstSection b)).VirtualAddress.toNat ≤ s.VirtualAddress.toNat := by
  rcases Nat.exists_eq_succ_of_ne_zero (Nat.ne_of_gt hk) with ⟨n, hn⟩
  have htable : sectionTable b = headerAt b (firstSection b) ::
      tableAt b (firstSection b + sectionHeaderSize) n := by
    rw [sectionTable, hn]
    exact tableAt_succ b (firstSection b) n
  rw [htable] at hs hlaid
  rcases List.mem_cons.mp hs with rfl | hlater
  · exact Nat.le_refl _
  · have hsplit := @Laid.split [] _ _ hlaid
    exact Nat.le_trans (SectionHeader.begin_le _) (hsplit.2 s hlater)

/-- From the first section on, the conversion is the search. -/
theorem convertRvaToFoa_of_le (h : SectionsInFile b) (hk : 1 ≤ numberOfSections b) {RVA : Nat}
    (hle : (headerAt b (firstSection b)).VirtualAddress.toNat ≤ RVA) :
    convertRvaToFoa b RVA = .ok (placeIn b (sectionTable b) RVA) := by
  have hfirst : b.Has (firstSection b) 40 := h.table 0 hk
  have hcan : CanPlace b RVA :=
    ⟨hfirst.field (by omega) (by omega), fun _ => hfirst.field (by omega) (by omega)⟩
  rw [convertRvaToFoa_eq_readIf h, readIf_eq_ok _ hcan, place, if_neg (Nat.not_lt.mpr hle)]

/-- An address up to the end of a section is one of 32 bits. -/
theorem lt_of_le_rawEnd (hlaid : Laid (sectionTable b)) {RVA : Nat} {s : SectionHeader}
    (hs : s ∈ sectionTable b) (hle : RVA ≤ s.rawEnd) : RVA < 2 ^ b.bits := by
  have hbound := hlaid.bounded s hs
  have hwide := b.pow_le
  omega

/-- What is where the table says is in different places. -/
theorem offsetOf_ne {s t : SectionHeader} (hst : s = t ∨ RawDisjoint s t) {RVA RVA' : Nat}
    (hs : s.Covers RVA) (ht : t.Covers RVA') (hne : RVA ≠ RVA') :
    s.offsetOf RVA ≠ t.offsetOf RVA' := by
  unfold SectionHeader.Covers SectionHeader.rawEnd at *
  unfold SectionHeader.offsetOf
  rcases hst with rfl | hdisjoint
  · omega
  · unfold RawDisjoint at hdisjoint
    omega

section

variable (h : SectionsInFile b) (hk : 1 ≤ numberOfSections b) (hlaid : Laid (sectionTable b))
include h hk hlaid

/-- The same for the addresses of a section, and for its end. -/
theorem convertRvaToFoa_of_mem {RVA : Nat} {s : SectionHeader} (hs : s ∈ sectionTable b)
    (hin : s.VirtualAddress.toNat ≤ RVA) :
    convertRvaToFoa b RVA = .ok (placeIn b (sectionTable b) RVA) :=
  convertRvaToFoa_of_le h hk (Nat.le_trans (firstSection_le hk hlaid hs) hin)

/-- Where the fields agree, the addresses of a section are where the table says. -/
theorem inside_of_endsAgree (hends : EndsAgree b) {RVA : Nat} {s : SectionHeader}
    (hs : s ∈ sectionTable b) (hin : s.Covers RVA) :
    convertRvaToFoa b RVA = .ok (s.offsetOf RVA) := by
  rw [convertRvaToFoa_of_mem h hk hlaid hs hin.1]
  refine congrArg Except.ok ?_
  have hrange := hin
  unfold SectionHeader.Covers SectionHeader.rawEnd at hrange
  have hsize : s.SizeOfRawData ≠ 0 := by
    intro hzero
    rw [hzero, UInt32.toNat_zero] at hrange
    omega
  -- At the end of another section that one is found, as its end counts as an address of it.
  by_cases hend : ∃ r ∈ sectionTable b, r.rawEnd = RVA
  · rcases exists_first_end hend with ⟨before, r, after, hsplit, rfl, hbefore⟩
    have hr := mem_of_split hsplit
    have hbegin := hlaid.begin_of_end hr hs hin
    rw [placeIn_end hlaid hsplit hbefore,
      hends.meets before r after hsplit hbefore s hs hbegin hsize, SectionHeader.offsetOf, hbegin,
      Nat.sub_self, Nat.add_zero]
  · rcases List.append_of_mem hs with ⟨before, after, hsplit⟩
    have hfits := hends.fits s hs hsize
    rw [placeIn_covers hlaid hsplit hin (fun r hr heq => hend ⟨r, ?_, heq⟩)]
    · refine Nat.mod_eq_of_lt ?_
      unfold SectionHeader.offsetOf
      omega
    · rw [hsplit]
      exact List.mem_append_left _ hr

/-- And the addresses of no section are nowhere. -/
theorem outside_of_endsAgree (hends : EndsAgree b) {RVA : Nat}
    (hle : (headerAt b (firstSection b)).VirtualAddress.toNat ≤ RVA)
    (hout : ∀ s ∈ sectionTable b, ¬ s.Covers RVA) : convertRvaToFoa b RVA = .ok 0 := by
  rw [convertRvaToFoa_of_le h hk hle]
  refine congrArg Except.ok ?_
  by_cases hend : ∃ r ∈ sectionTable b, r.rawEnd = RVA
  · rcases exists_first_end hend with ⟨before, r, after, hsplit, rfl, hbefore⟩
    rw [placeIn_end hlaid hsplit hbefore]
    refine hends.last before r after hsplit hbefore (fun t ht hbegin => ?_)
    -- A section that begins there and has bytes would have the address.
    by_contra hsize
    have hpos := SectionHeader.size_ne_zero hsize
    exact hout t ht ⟨Nat.le_of_eq hbegin, by unfold SectionHeader.rawEnd at *; omega⟩
  · exact placeIn_outside hlaid hout (fun s hs heq => hend ⟨s, hs, heq⟩)

/-- Addresses that are where the table says do not need more than a pointer. -/
theorem fits_of_maps (hmaps : MapsAsTable b) {s : SectionHeader} (hs : s ∈ sectionTable b)
    (hsize : s.SizeOfRawData ≠ 0) :
    s.PointerToRawData.toNat + s.SizeOfRawData.toNat ≤ 2 ^ b.bits := by
  have hwide := b.pow_le
  have hpointer := s.PointerToRawData.toNat_lt
  have hpos := SectionHeader.size_ne_zero hsize
  by_cases hone : s.SizeOfRawData.toNat = 1
  · omega
  -- The last address of the section, which is not the end of one before it.
  have hin : s.Covers (s.VirtualAddress.toNat + (s.SizeOfRawData.toNat - 1)) := by
    unfold SectionHeader.Covers SectionHeader.rawEnd
    omega
  have hwhere := hmaps.inside _ (lt_of_le_rawEnd hlaid hs (Nat.le_of_lt hin.2)) s hs hin
  rcases List.append_of_mem hs with ⟨before, after, hsplit⟩
  have hbefore : ∀ r ∈ before,
      r.rawEnd ≠ s.VirtualAddress.toNat + (s.SizeOfRawData.toNat - 1) := by
    intro r hr
    have hle := (hsplit ▸ hlaid).split.1 r hr
    omega
  rw [convertRvaToFoa_of_mem h hk hlaid hs hin.1, placeIn_covers hlaid hsplit hin hbefore,
    Except.ok.injEq] at hwhere
  have hlt : b.wrap (s.offsetOf (s.VirtualAddress.toNat + (s.SizeOfRawData.toNat - 1)))
      < 2 ^ b.bits := Nat.mod_lt _ (Nat.two_pow_pos _)
  rw [hwhere, SectionHeader.offsetOf, Nat.add_sub_cancel_left] at hlt
  omega

/-- Addresses that are where the table says agree at the ends of the sections. -/
theorem endsAgree_of_maps (hmaps : MapsAsTable b) : EndsAgree b := by
  refine ⟨fun s hs hsize => fits_of_maps h hk hlaid hmaps hs hsize, ?_, ?_⟩
  · intro before s after hsplit hbefore t ht hbegin hsize
    have hs := mem_of_split hsplit
    have hpos := SectionHeader.size_ne_zero hsize
    -- Its first address is where the other one ends.
    have hin : t.Covers s.rawEnd :=
      ⟨Nat.le_of_eq hbegin, by rw [← hbegin]; unfold SectionHeader.rawEnd; omega⟩
    have hwhere := hmaps.inside _ (lt_of_le_rawEnd hlaid hs (Nat.le_refl _)) t ht hin
    rw [convertRvaToFoa_of_mem h hk hlaid hs s.begin_le, placeIn_end hlaid hsplit hbefore,
      Except.ok.injEq, SectionHeader.offsetOf, hbegin, Nat.sub_self] at hwhere
    exact hwhere
  · intro before s after hsplit hbefore hempty
    have hs := mem_of_split hsplit
    -- No section has the address, which must then be nowhere.
    have hout : ∀ t ∈ sectionTable b, ¬ t.Covers s.rawEnd := by
      intro t ht hin
      have hbegin := hlaid.begin_of_end hs ht hin
      have hlt := hin.2
      rw [← hbegin, SectionHeader.rawEnd, hempty t ht hbegin, UInt32.toNat_zero] at hlt
      exact Nat.lt_irrefl _ hlt
    have hwhere := hmaps.outside _ (lt_of_le_rawEnd hlaid hs (Nat.le_refl _))
      (Nat.le_trans (firstSection_le hk hlaid hs) s.begin_le) hout
    rw [convertRvaToFoa_of_mem h hk hlaid hs s.begin_le, placeIn_end hlaid hsplit hbefore,
      Except.ok.injEq] at hwhere
    exact hwhere

end

/-- Addresses are where the section table says exactly when its fields agree at the ends of the
    sections. -/
theorem mapsAsTable_iff (b : Buffer) (h : SectionsInFile b) (hk : 1 ≤ numberOfSections b)
    (hlaid : Laid (sectionTable b)) : MapsAsTable b ↔ EndsAgree b := by
  constructor
  · exact endsAgree_of_maps h hk hlaid
  · intro hends
    refine ⟨fun RVA _ s hs hin => inside_of_endsAgree h hk hlaid hends hs hin,
      fun RVA _ hle hout => outside_of_endsAgree h hk hlaid hends hle hout, ?_⟩
    intro s hs t ht hst RVA RVA' hin hin' hne
    rw [inside_of_endsAgree h hk hlaid hends hs hin, inside_of_endsAgree h hk hlaid hends ht hin',
      Ne, Except.ok.injEq]
    exact offsetOf_ne hst hin hin' hne

/-! ### Two adjacent sections -/

/-- An image of two sections, of 512 bytes each, the second of which begins where the first
    ends. Their data is not adjacent. -/
def adjacentSections : Buffer :=
  Buffer.lowest
    (List.replicate 60 0 ++ le32 64
      ++ (le32 imageNtSignature ++ le16 0 ++ le16 2 ++ List.replicate 16 0)
      ++ (List.replicate 12 0 ++ le32 0x1000 ++ le32 0x200 ++ le32 0x400 ++ List.replicate 16 0)
      ++ (List.replicate 12 0 ++ le32 0x1200 ++ le32 0x200 ++ le32 0x800 ++ List.replicate 16 0))
    (by decide +kernel)

theorem adjacentSections_table : sectionTable adjacentSections =
    [⟨0x1000, 0x200, 0x400⟩, ⟨0x1200, 0x200, 0x800⟩] := by
  decide +kernel

theorem adjacentSections_laid : Laid (sectionTable adjacentSections) := by
  rw [adjacentSections_table]
  exact ⟨by decide, by decide⟩

theorem adjacentSections_inFile : SectionsInFile adjacentSections :=
  ⟨by decide +kernel, by decide +kernel, by decide +kernel⟩

theorem mapsAsTable_adjacentSections : MapsAsTable adjacentSections ↔ EndsAgree adjacentSections :=
  mapsAsTable_iff adjacentSections adjacentSections_inFile (by decide +kernel)
    adjacentSections_laid

/-- The first address of the second section is converted as if it were behind the first one's
    data. -/
theorem not_mapsAsTable_adjacentSections :
    SectionsInFile adjacentSections ∧ Laid (sectionTable adjacentSections) ∧
      convertRvaToFoa adjacentSections 0x1200 = .ok 0x600 ∧ ¬ MapsAsTable adjacentSections := by
  have hplace : convertRvaToFoa adjacentSections 0x1200 = .ok 0x600 := by decide +kernel
  refine ⟨adjacentSections_inFile, adjacentSections_laid, hplace, fun hmaps => ?_⟩
  have hwhere := hmaps.inside 0x1200 (by decide) ⟨0x1200, 0x200, 0x800⟩
    (by rw [adjacentSections_table]; decide) (by unfold SectionHeader.Covers; decide)
  rw [hplace] at hwhere
  exact absurd hwhere (by decide)

end Tools

end Pe

end Defender
