import Defender.Feature.LoadDat

/-!
# The Hash of a File

`CFeatureDB::FetchFileHash` maps a file and has `CalcFileHash` hash the view.
On the way the size of the file changes its type. `FetchFileHash` has it in
sixty-four bits and passes it as a `DWORD`, so only its remainder modulo 2^32
arrives. From there sha1 and md5 take it as an unsigned integer, sha256 as a
`size_t`, and SM3 as an `int`, which is negative from 2^31 on, and then SM3
takes nothing at all.

Reading the view can raise an in-page error. The exception is swallowed, the
digest is not written, and the function returns true.

The hash functions are parameters. `Whole` is what it takes for the digest to
be that of the file, and `fileHash_iff` says that it takes no less.

## Main definitions

* `HashLibs`, `digestOf`: The hash functions, and the one of a type.
* `fed`: What an update function reads, if reading does not raise an error.
* `calcFileHash`, `fetchFileHash`: The functions.
* `FetchCalls`: The calls before the hashing succeed.
* `Whole`: All of the file arrives.

## Theorems

* `fetchFileHash_eq`: What the function does once the calls succeed.
* `fileHash_iff`: The digest is that of the file exactly when all of it arrives.
* `fileHash_inPage`: A digest that was not computed.
-/

namespace Defender

namespace Feature

open Wire

/-- The hash functions. -/
structure HashLibs where
  sha1 : List UInt8 → Vector UInt8 20
  sha256 : List UInt8 → Vector UInt8 32
  sm3 : Sm3
  md5 : List UInt8 → Vector UInt8 16

/-- The digest of a type. -/
def digestOf (libs : HashLibs) (nType : Int) (bytes : List UInt8) : List UInt8 :=
  if nType = 1 then (libs.sha1 bytes).toList
  else if nType = 2 then (libs.sha256 bytes).toList
  else if nType = 4 then (libs.sm3 bytes).toList
  else (libs.md5 bytes).toList

/-- The bytes an update function is fed, or nothing when reading one of them
    raises an in-page error. -/
def fed (inPage : Nat → Bool) (pBuf : List UInt8) (len : Nat) : Option (List UInt8) :=
  if ∃ k, k < len ∧ inPage k = true then none else some (pBuf.take len)

/-- The length an update function sees of the `DWORD` it is passed: `sm3_update`
    returns at once when the `int` it makes of it is not positive. -/
def updateLength (nType : Int) (size : UInt32) : Nat :=
  if nType = 4 then
    if size.toInt32.toInt ≤ 0 then 0 else size.toInt32.toInt.toNat
  else size.toNat

/-- `CFeatureDB::CalcFileHash`: what `pHash` holds, or nothing when an exception
    leaves it. -/
def calcFileHash (libs : HashLibs) (inPage : Nat → Bool) (pHash : List UInt8) (nType : Int)
    (pBuf : List UInt8) (size : UInt32) : Option (List UInt8) :=
  match fed inPage pBuf (updateLength nType size) with
  | none => none
  | some bytes => some (poke pHash 0 (digestOf libs nType bytes))

/-- What the calls out of `FetchFileHash` come to, and which bytes of the view
    raise an error when read. -/
structure FileHashOutcomes where
  openOk : Bool
  sizeOk : Bool
  mapOk : Bool
  viewOk : Bool
  inPage : Nat → Bool

/-- `CFeatureDB::FetchFileHash`: the value returned, and what `pHash` holds. -/
def fetchFileHash (libs : HashLibs) (o : FileHashOutcomes) (pHash : Option (List UInt8))
    (nLength nType : Int) (file : List UInt8) : Bool × Option (List UInt8) :=
  match pHash with
  | none => (false, none)
  | some pHash =>
      let nCheckLength := getHashLengthByType nType
      if nCheckLength ≤ 0 ∨ nCheckLength ≠ nLength then (false, some pHash)
      else if o.openOk = false then (false, some pHash)
      else
        let filesize := if o.sizeOk = true then file.length else 0
        if o.mapOk = false then (false, some pHash)
        else if o.viewOk = false then (false, some pHash)
        else
          match calcFileHash libs o.inPage pHash nType file (UInt32.ofNat filesize) with
          -- The handler of the exception does nothing.
          | none => (true, some pHash)
          | some pHash => (true, some pHash)

/-- The calls before the hashing succeed. -/
structure FetchCalls (o : FileHashOutcomes) : Prop where
  openOk : o.openOk = true
  mapOk : o.mapOk = true
  viewOk : o.viewOk = true

/-- All of the file arrives: its size is known and fits in what carries it, and
    no byte of it raises an error. -/
structure Whole (o : FileHashOutcomes) (nType : Int) (file : List UInt8) : Prop where
  sizeOk : o.sizeOk = true
  dword : file.length < 4294967296
  int : nType = 4 → file.length < 2147483648
  readable : ∀ k, k < file.length → o.inPage k = false

/-- The size as it arrives at the update function. -/
def arriving (o : FileHashOutcomes) (nType : Int) (file : List UInt8) : Nat :=
  updateLength nType (UInt32.ofNat (if o.sizeOk = true then file.length else 0))

/-- What the function does once its checks and calls succeed. -/
theorem fetchFileHash_eq (libs : HashLibs) (o : FileHashOutcomes) (hcalls : FetchCalls o)
    (pHash : List UInt8) (nLength nType : Int) (hpos : 0 < nLength)
    (hlen : getHashLengthByType nType = nLength) (file : List UInt8) :
    fetchFileHash libs o (some pHash) nLength nType file
      = (true, some (match fed o.inPage file (arriving o nType file) with
          | none => pHash
          | some bytes => poke pHash 0 (digestOf libs nType bytes))) := by
  have hcheck : ¬ (getHashLengthByType nType ≤ 0 ∨ getHashLengthByType nType ≠ nLength) := by
    rw [hlen]
    omega
  unfold fetchFileHash calcFileHash
  simp only [if_neg hcheck, hcalls.openOk, hcalls.mapOk, hcalls.viewOk, Bool.true_eq_false,
    if_false]
  rw [arriving]
  cases fed o.inPage file (updateLength nType (UInt32.ofNat (if o.sizeOk = true then file.length
    else 0))) with
  | none => rfl
  | some bytes => rfl

/-- When a call fails the function returns false. -/
theorem fetchFileHash_fails (libs : HashLibs) (o : FileHashOutcomes) (hcalls : ¬ FetchCalls o)
    (pHash : List UInt8) (nLength nType : Int) (file : List UInt8) :
    (fetchFileHash libs o (some pHash) nLength nType file).1 = false := by
  unfold fetchFileHash
  dsimp only
  split
  · rfl
  by_cases hopen : o.openOk = false
  · rw [if_pos hopen]
  rw [if_neg hopen]
  by_cases hmap : o.mapOk = false
  · rw [if_pos hmap]
  rw [if_neg hmap]
  by_cases hview : o.viewOk = false
  · rw [if_pos hview]
  exact absurd ⟨eq_true_of_ne_false hopen, eq_true_of_ne_false hmap, eq_true_of_ne_false hview⟩
    hcalls

/-- What arrives of a length: its remainder, and nothing of one that SM3 takes
    for negative. -/
theorem updateLength_eq (nType : Int) (n : Nat) :
    updateLength nType (UInt32.ofNat n)
      = if nType = 4 ∧ 2147483648 ≤ n % 4294967296 then 0 else n % 4294967296 := by
  unfold updateLength
  by_cases hsm3 : nType = 4
  · rw [if_pos hsm3, toInt_ofNat]
    by_cases hneg : n % 4294967296 < 2147483648
    · have hnot : ¬ (nType = 4 ∧ 2147483648 ≤ n % 4294967296) := fun h => absurd h.2 (by omega)
      rw [if_pos hneg, if_neg hnot]
      split <;> omega
    · have hsign : ((n % 4294967296 : Nat) : Int) - 4294967296 ≤ 0 := by omega
      have hboth : nType = 4 ∧ 2147483648 ≤ n % 4294967296 := ⟨hsm3, by omega⟩
      rw [if_neg hneg, if_pos hboth, if_pos hsign]
  · rw [if_neg hsm3, if_neg (fun h => hsm3 h.1)]
    exact UInt32.toNat_ofNat'

/-- A length arrives when it is below 2^32, and for SM3 below 2^31. -/
theorem updateLength_ge_iff (nType : Int) (n : Nat) (hn : 0 < n) :
    n ≤ updateLength nType (UInt32.ofNat n) ↔
      n < 4294967296 ∧ (nType = 4 → n < 2147483648) := by
  rw [updateLength_eq]
  split
  · rename_i h
    refine iff_of_false (by omega) (fun hsmall => ?_)
    have hint := hsmall.2 h.1
    omega
  · rename_i h
    constructor
    · intro hle
      refine ⟨by omega, fun hsm3 => ?_⟩
      have hlow : ¬ 2147483648 ≤ n % 4294967296 := fun hge => h ⟨hsm3, hge⟩
      omega
    · rintro ⟨hdword, -⟩
      omega

/-- It never grows on the way. -/
theorem updateLength_le (nType : Int) (n : Nat) : updateLength nType (UInt32.ofNat n) ≤ n := by
  rw [updateLength_eq]
  split <;> omega

/-- The bytes fed are all of the file exactly when all of it arrives. -/
theorem fed_eq_iff (o : FileHashOutcomes) (nType : Int) (file : List UInt8) (hfile : file ≠ []) :
    fed o.inPage file (arriving o nType file) = some file ↔ Whole o nType file := by
  have hpos : 0 < file.length := List.length_pos_iff.mpr hfile
  have hfed : fed o.inPage file (arriving o nType file) = some file ↔
      file.length ≤ arriving o nType file ∧
        ∀ k, k < arriving o nType file → o.inPage k = false := by
    unfold fed
    by_cases hraises : ∃ k, k < arriving o nType file ∧ o.inPage k = true
    · rw [if_pos hraises]
      rcases hraises with ⟨k, hk, hbad⟩
      refine iff_of_false (by simp only [reduceCtorEq, not_false_eq_true]) (fun h => ?_)
      exact absurd (hbad.symm.trans (h.2 k hk)) (by decide)
    · have htake : file.take (arriving o nType file) = file ↔
          file.length ≤ arriving o nType file := by
        refine ⟨fun h => ?_, List.take_of_length_le⟩
        have hlen := congrArg List.length h
        rw [List.length_take] at hlen
        omega
      rw [if_neg hraises, Option.some.injEq, htake]
      refine (and_iff_left (fun k hk => ?_)).symm
      exact Bool.eq_false_iff.mpr (fun hbad => hraises ⟨k, hk, hbad⟩)
  rw [hfed]
  unfold arriving
  cases hsize : o.sizeOk with
  | false =>
      -- A size of zero never reaches the length of the file.
      have hle := updateLength_le nType 0
      refine iff_of_false (fun h => ?_) (fun h => absurd (hsize.symm.trans h.sizeOk) (by decide))
      rw [if_neg Bool.false_ne_true] at h
      omega
  | true =>
      rw [if_pos rfl]
      have hle := updateLength_le nType file.length
      have hge := updateLength_ge_iff nType file.length hpos
      constructor
      · rintro ⟨hlen, hread⟩
        rcases hge.mp hlen with ⟨hdword, hint⟩
        exact ⟨hsize, hdword, hint, fun k hk => hread k (by omega)⟩
      · intro hwhole
        exact ⟨hge.mpr ⟨hwhole.dword, hwhole.int⟩, fun k hk => hwhole.readable k (by omega)⟩

/-- The digest of the file is in the buffer whenever the function returns
    true, whatever the hash functions and whatever the buffer held. -/
def Digests (o : FileHashOutcomes) (nLength nType : Int) (file : List UInt8) : Prop :=
  ∀ (libs : HashLibs) (pHash : List UInt8), pHash.length = nLength.toNat → ∀ out,
    fetchFileHash libs o (some pHash) nLength nType file = (true, some out) →
    out = digestOf libs nType file

/-- The type of a hash and its length. -/
def IsHashType (nType nLength : Int) : Prop :=
  (nType = 1 ∧ nLength = 20) ∨ (nType = 2 ∧ nLength = 32) ∨ (nType = 3 ∧ nLength = 16) ∨
    (nType = 4 ∧ nLength = 32)

theorem isHashType_length (nType nLength : Int) (h : IsHashType nType nLength) :
    0 < nLength ∧ getHashLengthByType nType = nLength := by
  rcases h with ⟨rfl, rfl⟩ | ⟨rfl, rfl⟩ | ⟨rfl, rfl⟩ | ⟨rfl, rfl⟩ <;> decide

theorem length_digestOf (libs : HashLibs) (nType nLength : Int) (h : IsHashType nType nLength)
    (bytes : List UInt8) : (digestOf libs nType bytes).length = nLength.toNat := by
  rcases h with ⟨rfl, rfl⟩ | ⟨rfl, rfl⟩ | ⟨rfl, rfl⟩ | ⟨rfl, rfl⟩ <;> exact Vector.length_toList

/-- A digest written over a buffer of its length. -/
theorem poke_all (m d : List UInt8) (h : d.length = m.length) : poke m 0 d = d := by
  rw [poke, List.take_zero, List.nil_append, Nat.zero_add, h, List.drop_length, List.append_nil]

/-- Hash functions that tell one file from every other. -/
def telling (file : List UInt8) : HashLibs where
  sha1 := fun bytes => Vector.replicate 20 (if bytes = file then 1 else 0)
  sha256 := fun bytes => Vector.replicate 32 (if bytes = file then 1 else 0)
  sm3 := fun bytes => Vector.replicate 32 (if bytes = file then 1 else 0)
  md5 := fun bytes => Vector.replicate 16 (if bytes = file then 1 else 0)

theorem digestOf_telling (file bytes : List UInt8) (nType nLength : Int)
    (h : IsHashType nType nLength) :
    digestOf (telling file) nType bytes
      = List.replicate nLength.toNat (if bytes = file then 1 else 0) := by
  rcases h with ⟨rfl, rfl⟩ | ⟨rfl, rfl⟩ | ⟨rfl, rfl⟩ | ⟨rfl, rfl⟩ <;>
    exact Vector.toList_replicate

/-- The digest is that of the file exactly when all of the file arrives, if the
    calls before the hashing succeed. -/
theorem fileHash_iff (o : FileHashOutcomes) (nLength nType : Int)
    (htype : IsHashType nType nLength) (file : List UInt8) (hfile : file ≠ []) :
    Digests o nLength nType file ↔ (FetchCalls o → Whole o nType file) := by
  rcases isHashType_length nType nLength htype with ⟨hpos, hlen⟩
  constructor
  · intro hdigests hcalls
    rw [← fed_eq_iff o nType file hfile]
    by_contra hnot
    -- Hash functions that tell this file from others, over a buffer of zeros.
    have hrun := fetchFileHash_eq (telling file) o hcalls (List.replicate nLength.toNat 0) nLength
      nType hpos hlen file
    have hout := hdigests (telling file) (List.replicate nLength.toNat 0) List.length_replicate _
      hrun
    rw [digestOf_telling file file nType nLength htype, if_pos rfl] at hout
    have hzero : (match fed o.inPage file (arriving o nType file) with
        | none => List.replicate nLength.toNat 0
        | some bytes => poke (List.replicate nLength.toNat 0) 0
            (digestOf (telling file) nType bytes)) = List.replicate nLength.toNat 0 := by
      cases hfed : fed o.inPage file (arriving o nType file) with
      | none => rfl
      | some bytes =>
          have hother : bytes ≠ file := fun hsame => hnot (by rw [hfed, hsame])
          dsimp only
          rw [digestOf_telling file bytes nType nLength htype, if_neg hother,
            poke_all _ _ (by rw [List.length_replicate])]
    rw [hzero] at hout
    have hne : nLength.toNat ≠ 0 := by omega
    exact absurd (List.replicate_right_injective hne hout) (by decide)
  · intro hwhole libs pHash hbuffer out hrun
    by_cases hcalls : FetchCalls o
    · have hfed := (fed_eq_iff o nType file hfile).mpr (hwhole hcalls)
      rw [fetchFileHash_eq libs o hcalls pHash nLength nType hpos hlen file, hfed] at hrun
      have hout : poke pHash 0 (digestOf libs nType file) = out :=
        Option.some.inj (Prod.mk.inj hrun).2
      rw [← hout, poke_all]
      rw [length_digestOf libs nType nLength htype, hbuffer]
    · have hfalse := fetchFileHash_fails libs o hcalls pHash nLength nType file
      rw [hrun] at hfalse
      exact absurd hfalse.symm Bool.false_ne_true

/-- Every call succeeds, and the first byte raises an error. -/
def FileHashOutcomes.removed : FileHashOutcomes where
  openOk := true
  sizeOk := true
  mapOk := true
  viewOk := true
  inPage := fun k => k == 0

/-- The medium is gone when its only byte is read: the function returns true,
    and the buffer is as it was. -/
theorem fileHash_inPage : ∃ out,
    fetchFileHash (telling [7]) FileHashOutcomes.removed (some (List.replicate 16 0)) 16 3 [7]
      = (true, some out) ∧ out ≠ digestOf (telling [7]) 3 [7] := by
  refine ⟨List.replicate 16 0, ?_, by decide⟩
  have hcalls : FetchCalls FileHashOutcomes.removed := ⟨rfl, rfl, rfl⟩
  have hfed : fed FileHashOutcomes.removed.inPage [7]
      (arriving FileHashOutcomes.removed 3 [7]) = none := by decide
  rw [fetchFileHash_eq (telling [7]) _ hcalls _ 16 3 (by decide) rfl [7], hfed]

/-- Not all of that file arrives. -/
theorem fileHash_iff_removed :
    Digests FileHashOutcomes.removed 16 3 [7] ↔
      (FetchCalls FileHashOutcomes.removed → Whole FileHashOutcomes.removed 3 [7]) :=
  fileHash_iff FileHashOutcomes.removed 16 3 (Or.inr (Or.inr (Or.inl ⟨rfl, rfl⟩))) [7]
    (by decide)

end Feature

end Defender
