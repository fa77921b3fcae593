import Defender.Crypto.Md5
import Defender.Crypto.Sm3
import Defender.Feature.FileHash

/-!
# The Digest of a File

`CalcFileHash` with the hash functions of the program in it: a context of the
stack is started, given the view in one piece, and finished. With the
functions of the standards for parameters `calcFileHash` says the same, except
where the loop of MD5 over the blocks leaves the view, which it does on the
sixty-four longest lengths. `FetchFileHash` does not come back then.

## Main definitions

* `HashStack`: The contexts on the stack.
* `HashStack.calcFileHash`, `HashStack.fetchFileHash`: The functions.
* `standardDigest`, `standardLibs`: The digests of the standards.
* `Strays`: The loop of MD5 leaves the view.

## Theorems

* `calcDigest_eq`: The digest the contexts come to.
* `stack_fetchFileHash_eq`: The function is the one with the standards for
  parameters, where it comes back.
* `fetchFileHash_digest`: What is in the buffer in the end.
-/

namespace Defender

namespace Feature

open Wire Crypto

/-- The contexts that the cases of `CalcFileHash` have on the stack, with
    whatever is in them. -/
structure HashStack where
  sha1 : Sha1Ctx
  sha256 : Sha256Ctx
  sm3 : Sm3Ctx
  md5 : Md5Ctx
  sha1_buffer : sha1.buffer.length = 64
  sha256_buffer : sha256.hash.buffer.length = 64
  sm3_buffer : sm3.hash.buffer.length = 64
  md5_buffer : md5.buffer.length = 64

/-- The digest that a case of `CalcFileHash` writes, or nothing when it leaves
    the view. -/
def HashStack.calcDigest (stack : HashStack) (nType : Int) (pBuf : List UInt8) (size : UInt32) :
    Option (List UInt8) :=
  if nType = 1 then
    some (sha1Finish (sha1Update (sha1Starts stack.sha1) (pBuf.take size.toNat)))
  else if nType = 2 then
    some (sha256Finish (sha256Update (sha256Starts stack.sha256 0) (pBuf.take size.toNat))).2
  else if nType = 4 then
    some (sm3Finish (sm3Update (sm3Starts stack.sm3) pBuf size.toInt32)).2
  else (md5Update (md5Init stack.md5) (pBuf.take size.toNat)).bind md5Final

/-- How `CalcFileHash` ends: with the digest written, with the exception of a
    page that cannot be read, or not at all. -/
inductive CalcEnd where
  | written (pHash : List UInt8)
  | inPageError
  | never

/-- `CFeatureDB::CalcFileHash`. -/
def HashStack.calcFileHash (stack : HashStack) (inPage : Nat → Bool) (pHash : List UInt8)
    (nType : Int) (pBuf : List UInt8) (size : UInt32) : CalcEnd :=
  match fed inPage pBuf (updateLength nType size) with
  | none => .inPageError
  | some _ =>
      match stack.calcDigest nType pBuf size with
      | none => .never
      | some digest => .written (poke pHash 0 digest)

/-- `CFeatureDB::FetchFileHash`: the value returned and what `pHash` holds, or
    nothing when the function does not come back. -/
def HashStack.fetchFileHash (stack : HashStack) (o : FileHashOutcomes)
    (pHash : Option (List UInt8)) (nLength nType : Int) (file : List UInt8) :
    Option (Bool × Option (List UInt8)) :=
  match pHash with
  | none => some (false, none)
  | some pHash =>
      let nCheckLength := getHashLengthByType nType
      if nCheckLength ≤ 0 ∨ nCheckLength ≠ nLength then some (false, some pHash)
      else if o.openOk = false then some (false, some pHash)
      else
        let filesize := if o.sizeOk = true then file.length else 0
        if o.mapOk = false then some (false, some pHash)
        else if o.viewOk = false then some (false, some pHash)
        else
          match stack.calcFileHash o.inPage pHash nType file (UInt32.ofNat filesize) with
          | .inPageError => some (true, some pHash)
          | .written pHash => some (true, some pHash)
          | .never => none

/-! ### The standards -/

/-- The digest of a type by the standards. -/
def standardDigest (nType : Int) (bytes : List UInt8) : List UInt8 :=
  if nType = 1 then fipsSha1 bytes
  else if nType = 2 then fipsSha256 false bytes
  else if nType = 4 then gbSm3 bytes
  else rfcMd5 bytes

theorem length_flatMap_words (f : UInt32 → List UInt8) (hf : ∀ w, (f w).length = 4)
    (ws : List UInt32) : (ws.flatMap f).length = 4 * ws.length := by
  induction ws with
  | nil => rfl
  | cons w ws ih =>
      rw [List.flatMap_cons, List.length_append, hf, ih, List.length_cons]
      omega

theorem length_be32_words {n : Nat} (v : Vector UInt32 n) :
    (v.toList.flatMap be32).length = 4 * n := by
  rw [length_flatMap_words be32 (fun _ => rfl), Vector.length_toList]

theorem length_le32_words {n : Nat} (v : Vector UInt32 n) :
    (v.toList.flatMap le32).length = 4 * n := by
  rw [length_flatMap_words le32 (fun _ => rfl), Vector.length_toList]

theorem length_fipsSha256 (m : List UInt8) : (fipsSha256 false m).length = 32 := by
  rw [fipsSha256, if_neg Bool.false_ne_true]
  rw [List.take_of_length_le (by rw [Vector.length_toList])]
  exact length_be32_words _

theorem length_rfcMd5 (m : List UInt8) : (rfcMd5 m).length = 16 :=
  length_le32_words _

/-- The functions of the standards. -/
def standardLibs : HashLibs where
  sha1 := fun m => ⟨(fipsSha1 m).toArray, length_be32_words _⟩
  sha256 := fun m => ⟨(fipsSha256 false m).toArray, length_fipsSha256 m⟩
  sm3 := standardSm3
  md5 := fun m => ⟨(rfcMd5 m).toArray, length_rfcMd5 m⟩

theorem digestOf_standardLibs (nType : Int) (bytes : List UInt8) :
    digestOf standardLibs nType bytes = standardDigest nType bytes := rfl

/-! ### The functions and the standards -/

/-- The loop of MD5 leaves the view: the type is one that goes to MD5, and the
    length is one of the longest. -/
def Strays (nType : Int) (length : Nat) : Prop :=
  nType ≠ 1 ∧ nType ≠ 2 ∧ nType ≠ 4 ∧ 4294967232 ≤ length

instance (nType : Int) (length : Nat) : Decidable (Strays nType length) :=
  inferInstanceAs (Decidable (_ ∧ _))

/-- MD5 of one piece. -/
theorem md5_one (context : Md5Ctx) (hbuffer : context.buffer.length = 64) (input : List UInt8)
    (hlen : input.length < 4294967296) :
    (md5Update (md5Init context) input).bind md5Final
      = if 4294967232 ≤ input.length then none else some (rfcMd5 input) := by
  rcases md5Update_eq [] _ (tookMd5_init context hbuffer) input hlen with ⟨hnone, htook⟩
  have hwraps : Wraps (([] : List UInt8).length % 64) input.length ↔ 4294967232 ≤ input.length := by
    rw [List.length_nil, Nat.zero_mod, Wraps, if_pos rfl]
    omega
  by_cases hlong : 4294967232 ≤ input.length
  · rw [if_pos hlong, hnone.mpr (hwraps.mpr hlong), Option.bind_none]
  · rw [if_neg hlong]
    cases hafter : md5Update (md5Init context) input with
    | none => exact absurd (hwraps.mp (hnone.mp hafter)) hlong
    | some after => exact md5Final_eq input after (htook after hafter)

/-- The digest the contexts come to is that of the standard, of what arrives. -/
theorem calcDigest_eq (stack : HashStack) (nType : Int) (pBuf : List UInt8) (size : UInt32)
    (hsize : size.toNat ≤ pBuf.length) :
    stack.calcDigest nType pBuf size
      = if Strays nType (updateLength nType size) then none
        else some (standardDigest nType (pBuf.take (updateLength nType size))) := by
  have hlt := size.toNat_lt
  have hshort : (pBuf.take size.toNat).length < 4294967296 := by
    rw [List.length_take]
    omega
  have hone : ∀ c ∈ [pBuf.take size.toNat], c.length < 4294967296 := by
    intro c hc
    rw [List.mem_singleton.mp hc]
    exact hshort
  have hflat : [pBuf.take size.toNat].flatten = pBuf.take size.toNat := List.flatten_singleton
  unfold HashStack.calcDigest standardDigest updateLength
  by_cases h1 : nType = 1
  · have hnot : nType ≠ 4 := by omega
    have htook := tookSha1_foldl stack.sha1 stack.sha1_buffer _ hone
    rw [hflat] at htook
    rw [if_neg (fun h : Strays _ _ => h.1 h1), if_pos h1, if_pos h1, if_neg hnot]
    exact congrArg some (sha1Finish_eq _ _ htook)
  rw [if_neg h1, if_neg h1]
  by_cases h2 : nType = 2
  · have hnot : nType ≠ 4 := by omega
    have htook := (tookSha256_starts stack.sha256 stack.sha256_buffer 0).foldl _ hone
    rw [hflat, List.nil_append] at htook
    rw [if_neg (fun h : Strays _ _ => h.2.1 h2), if_pos h2, if_pos h2, if_neg hnot]
    exact congrArg some (sha256Finish_eq 0 _ _ htook)
  rw [if_neg h2, if_neg h2]
  by_cases h4 : nType = 4
  · have htook := (tookSm3_starts stack.sm3 stack.sm3_buffer).update pBuf size.toInt32
    rw [List.nil_append] at htook
    have hlength : (if size.toInt32.toInt ≤ 0 then 0 else size.toInt32.toInt.toNat)
        = size.toInt32.toInt.toNat := by
      split <;> omega
    rw [if_neg (fun h : Strays _ _ => h.2.2.1 h4), if_pos h4, if_pos h4, if_pos h4, hlength]
    exact congrArg some (sm3Finish_eq _ _ htook)
  · have hstrays : Strays nType size.toNat ↔ 4294967232 ≤ (pBuf.take size.toNat).length := by
      rw [List.length_take, Nat.min_eq_left hsize]
      exact ⟨fun h => h.2.2.2, fun h => ⟨h1, h2, h4, h⟩⟩
    rw [if_neg h4, if_neg h4, if_neg h4, md5_one stack.md5 stack.md5_buffer _ hshort]
    by_cases hlong : 4294967232 ≤ (pBuf.take size.toNat).length
    · rw [if_pos hlong, if_pos (hstrays.mpr hlong)]
    · rw [if_neg hlong, if_neg (mt hstrays.mp hlong)]

/-- Where it comes back the function is the one with the standards for
    parameters. -/
theorem stack_fetchFileHash_eq (stack : HashStack) (o : FileHashOutcomes) (hcalls : FetchCalls o)
    (pHash : List UInt8) (nLength nType : Int) (hpos : 0 < nLength)
    (hlen : getHashLengthByType nType = nLength) (file : List UInt8) :
    stack.fetchFileHash o (some pHash) nLength nType file
      = match fed o.inPage file (arriving o nType file) with
        | none => some (true, some pHash)
        | some bytes =>
            if Strays nType bytes.length then none
            else some (true, some (poke pHash 0 (standardDigest nType bytes))) := by
  have hcheck : ¬ (getHashLengthByType nType ≤ 0 ∨ getHashLengthByType nType ≠ nLength) := by
    rw [hlen]
    omega
  -- The size as it is known is a length of the file at most.
  have hle : (if o.sizeOk = true then file.length else 0) ≤ file.length := by
    split <;> omega
  have harriving : arriving o nType file
      = updateLength nType (UInt32.ofNat (if o.sizeOk = true then file.length else 0)) := rfl
  rw [harriving]
  unfold HashStack.fetchFileHash HashStack.calcFileHash
  simp only [if_neg hcheck, hcalls.openOk, hcalls.mapOk, hcalls.viewOk, Bool.true_eq_false,
    if_false]
  generalize (if o.sizeOk = true then file.length else 0) = filesize at hle ⊢
  have hsize : (UInt32.ofNat filesize).toNat ≤ file.length := by
    rw [UInt32.toNat_ofNat']
    omega
  have harrives : (file.take (updateLength nType (UInt32.ofNat filesize))).length
      = updateLength nType (UInt32.ofNat filesize) := by
    have hless := updateLength_le nType filesize
    rw [List.length_take]
    omega
  rw [calcDigest_eq stack nType file _ hsize]
  by_cases hraises : ∃ k, k < updateLength nType (UInt32.ofNat filesize) ∧ o.inPage k = true
  · rw [fed, if_pos hraises]
  · rw [fed, if_neg hraises]
    dsimp only
    rw [harrives]
    by_cases hstrays : Strays nType (updateLength nType (UInt32.ofNat filesize))
    · rw [if_pos hstrays, if_pos hstrays]
    · rw [if_neg hstrays, if_neg hstrays]

/-- What is in the buffer in the end: what was there, after a page that could
    not be read, and else the digest of the standard, of as much of the file as
    arrives. Only MD5 of the longest files does not come back. -/
theorem fetchFileHash_digest (stack : HashStack) (o : FileHashOutcomes) (hcalls : FetchCalls o)
    (nLength nType : Int) (htype : IsHashType nType nLength) (pHash : List UInt8)
    (hbuffer : pHash.length = nLength.toNat) (file : List UInt8) :
    stack.fetchFileHash o (some pHash) nLength nType file
      = match fed o.inPage file (arriving o nType file) with
        | none => some (true, some pHash)
        | some bytes =>
            if nType = 3 ∧ 4294967232 ≤ bytes.length then none
            else some (true, some (standardDigest nType bytes)) := by
  rcases isHashType_length nType nLength htype with ⟨hpos, hlen⟩
  rw [stack_fetchFileHash_eq stack o hcalls pHash nLength nType hpos hlen file]
  cases fed o.inPage file (arriving o nType file) with
  | none => rfl
  | some bytes =>
      have hstrays : Strays nType bytes.length ↔ nType = 3 ∧ 4294967232 ≤ bytes.length := by
        unfold Strays
        rcases htype with ⟨rfl, -⟩ | ⟨rfl, -⟩ | ⟨rfl, -⟩ | ⟨rfl, -⟩ <;> omega
      have hwritten : poke pHash 0 (standardDigest nType bytes) = standardDigest nType bytes := by
        refine poke_all _ _ ?_
        rw [← digestOf_standardLibs, length_digestOf standardLibs nType nLength htype, hbuffer]
      dsimp only
      rw [hwritten]
      by_cases hlong : Strays nType bytes.length
      · rw [if_pos hlong, if_pos (hstrays.mp hlong)]
      · rw [if_neg hlong, if_neg (mt hstrays.mpr hlong)]

/-- A stack of what happens to be in memory. -/
def HashStack.fresh : HashStack where
  sha1 := Sha1Ctx.fresh
  sha256 := Sha256Ctx.init
  sm3 := Sm3Ctx.fresh
  md5 := Md5Ctx.fresh
  sha1_buffer := rfl
  sha256_buffer := rfl
  sm3_buffer := rfl
  md5_buffer := rfl

/-- Every call succeeds, and every page can be read. -/
def FileHashOutcomes.good : FileHashOutcomes where
  openOk := true
  sizeOk := true
  mapOk := true
  viewOk := true
  inPage := fun _ => false

/-- The MD5 of three bytes, into memory fresh from the heap. -/
theorem fetchFileHash_digest_threeBytes :
    HashStack.fresh.fetchFileHash FileHashOutcomes.good (some (List.replicate 16 0xCD)) 16 3
      [97, 98, 99] = some (true, some (rfcMd5 [97, 98, 99])) := by
  have hfed : fed FileHashOutcomes.good.inPage [97, 98, 99]
      (arriving FileHashOutcomes.good 3 [97, 98, 99]) = some [97, 98, 99] := rfl
  have hdigest := fetchFileHash_digest HashStack.fresh FileHashOutcomes.good ⟨rfl, rfl, rfl⟩ 16 3
    (Or.inr (Or.inr (Or.inl ⟨rfl, rfl⟩))) (List.replicate 16 0xCD) rfl [97, 98, 99]
  rw [hfed] at hdigest
  exact hdigest

end Feature

end Defender
