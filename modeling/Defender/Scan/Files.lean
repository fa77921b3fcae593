import Defender.Cache.PECache
import Defender.Feature.Ransomware
import Defender.Pe.OwnSha1
import Defender.Scan.Coverage
import Defender.Scan.EaRecords
import Defender.Text.Converters

/-!
# Scanning the Files

What `GetFileListByFolder` does with the files that it meets. `CheckIsPEFile`
opens a file for all access and looks at its first two bytes. Of an executable
a line is written to `FileScan.txt`, with the hash of its image; it is looked up
in the PE cache and put there; and `CheckRansomware` is asked whether it is a
virus, in which case its extended attribute `Virus` is set to `1`.

The result of `GetFileInfoEx` is not looked at. Where it fails there is no hash
in the line, and the size and the time that go to the cache are what was on the
stack. Nor does it matter whether the line can be written, or the attribute.

All of this happens in the middle of going through the folders. `walkFolder`
goes through them with a state, for any visit, and is the visits of the paths of
`getFileListByFolder` one after the other (`walkFolder_eq`).

## Main definitions

* `Seen`: What the calls on the file of a path come to.
* `World`: The database, the cache, the file of lines, and the attributes.
* `checkIsPEFile`, `getHashString`, `getFileInfoEx`: The functions of the source.
* `scanFile`: What is done with a file.
* `walkFolder`, `scanFolder`: Going through the folders with it.
* `Seen.IsPE`, `Seen.digest`, `Seen.info`: The executables, the hash of the image,
  and what `GetFileInfoEx` leaves.

## Theorems

* `walkFolder_eq`: The visits, one after the other.
* `checkIsPEFile_iff`: What `CheckIsPEFile` returns.
* `getHashString_eq`: The digits of a hash.
* `getFileInfoEx_eq`: There is always room for them.
-/

namespace Defender

namespace Scan

open Cache Cache.PECache Crypto CString Feature Pe Text Utf Wire

/-! ### The calls on a file -/

/-- What the calls on the file of a path come to: whether it is a directory, and
    whether it can be opened and read; what is in it; the calls of the hashing;
    the size and the time; what was on the stack in their place; and so on. -/
structure Seen where
  attributes : Option Bool
  opens : Bool
  reads : Bool
  data : List UInt8
  digestOpens : Bool
  io : IoOutcomes
  attributesEx : Option (UInt64 × UInt64)
  sizeOnStack : UInt64
  timeOnStack : UInt64
  lineOpens : Bool
  queryCreated : Bool
  insertCreated : Bool
  heap : Nat → UInt8
  hash : FileHashOutcomes
  query : QueryOutcomes
  get_fault : query.get ≠ some mdbSuccess
  eaOpens : Bool
  eaMalloc : Bool
  eaHeap : Nat → UInt8

/-- The database, the PE cache, what is in `FileScan.txt`, and what was passed to
    `NtSetEaFile`, each time with the name of the file. -/
structure World where
  db : CFeatureDB
  cache : PeCacheData
  lines : List UInt8
  attributes : List (List UInt8 × List UInt8)

/-- How a scan can end early. -/
inductive Halt where
  | fault (e : Fault)
  | noItem
  | check (e : Stop)

/-! ### The functions -/

/-- `CheckIsPEFile`. -/
def checkIsPEFile (f : Seen) : Bool :=
  if f.attributes ≠ some false then false
  else if f.opens = false then false
  else if f.reads = false ∨ (f.data.take 2).length ≠ 2 then false
  else f.data.take 2 = [0x4D, 0x5A]

/-- A digit of `%02X`. -/
def hexDigit (d : UInt8) : UInt16 :=
  if d < 10 then 0x30 + d.toUInt16 else 0x41 + (d.toUInt16 - 10)

/-- `%02X`. -/
def hexByte (b : UInt8) : List UInt16 :=
  [hexDigit (b / 16), hexDigit (b % 16)]

/-- The loop of `GetHashString`. `swprintf_s` needs room for a terminator too. -/
def hexLoop (dwDstLen : Nat) : Nat → List UInt8 → Except Fault (List UInt16)
  | _, [] => .ok []
  | i, b :: bs =>
      if dwDstLen - 2 * i < 3 then .error .terminated
      else do
        let digits ← hexLoop dwDstLen (i + 1) bs
        .ok (hexByte b ++ digits)

/-- `GetHashString`: what is written, or nothing when NULL is returned. -/
def getHashString (pcSrc : List UInt8) (dwDstLen : Nat) : Except Fault (Option (List UInt16)) :=
  if dwDstLen < pcSrc.length * 2 % 2 ^ 32 then .ok none
  else (hexLoop dwDstLen 0 pcSrc).map some

/-- What `GetFileInfoEx` leaves in its arguments. -/
structure FileInfo where
  wstrHashCode : List UInt16
  FileSize : UInt64
  LastWriteTime : UInt64

/-- `GetFileInfoEx`: the value returned, and its arguments. -/
def getFileInfoEx (f : Seen) : Except Fault (Bool × FileInfo) :=
  let kept : FileInfo := ⟨[], f.sizeOnStack, f.timeOnStack⟩
  let r := imageDigestCalcExtBySHA1Lib fipsSha1 f.digestOpens f.io f.data
    (List.replicate 20 0) true
  if r.1 = false then .ok (false, kept)
  else do
    let written ← getHashString r.2 41
    match f.attributesEx with
    | none => .ok (false, kept)
    -- The array was zeros, and its string ends at the first of them.
    | some (size, time) => .ok (true, ⟨wcstr (written.getD []), size, time⟩)

/-- `SeWriteFile`. The file is not opened as text. -/
def World.seWriteFile (w : World) (opens : Bool) (strBuffer : List UInt8) : World :=
  if opens = false then w else { w with lines := w.lines ++ strBuffer ++ [0x0A] }

/-- A file is put into the cache unless it is found there. -/
def remember (cache : PeCacheData) (f : Seen) (a : CacheArgs) : Option PeCacheData :=
  match peCacheQueryCache cache f.queryCreated a with
  | none => none
  | some (retval, cache) =>
      if retval = bfalse then (peCacheInsert cache f.insertCreated a).map Prod.snd
      else some cache

/-- The call of `CheckRansomware`, with the type that it has when none is given. -/
def Seen.check (f : Seen) (p : Path) : Check where
  wstrFileName := String.ofList p
  nType := 3
  file := f.data
  heap := f.heap
  hash := f.hash
  query := f.query
  get_fault := f.get_fault

/-- `"Hash:"`. -/
def hashText : List UInt8 := [0x48, 0x61, 0x73, 0x68, 0x3A]

/-- `"Virus"`. -/
def virusName : List UInt8 := [0x56, 0x69, 0x72, 0x75, 0x73]

/-- `"1"`. -/
def virusValue : List UInt8 := [0x31]

/-- What the loop does with a file. -/
def scanFile (cp : CodePage) (stack : HashStack) (seen : Path → Seen) (w : World) (p : Path) :
    Except Halt World :=
  let f := seen p
  if checkIsPEFile f = false then .ok w
  else
    match getFileInfoEx f with
    | .error e => .error (.fault e)
    | .ok (_, info) =>
        let strFileName := convertW2A cp (utf16Encode p)
        let w := w.seWriteFile f.lineOpens
          (strFileName ++ hashText ++ convertW2A cp info.wstrHashCode)
        match remember w.cache f ⟨utf16Encode p, info.FileSize, info.LastWriteTime⟩ with
        | none => .error .noItem
        | some cache =>
            match w.db.checkRansomware stack (f.check p) with
            | .error e => .error (.check e)
            | .ok (bVirus, db) =>
                let w := { w with db := db, cache := cache }
                if bVirus = false then .ok w
                else
                  match writeFileExAttr f.eaOpens f.eaMalloc f.eaHeap virusName virusValue with
                  | .error e => .error (.fault e)
                  | .ok passed => .ok { w with
                      attributes := w.attributes ++ passed.toList.map (fun r => (strFileName, r)) }

section Walk

variable {ε : Type} {σ : Type} (visit : σ → Path → Except ε σ)

/-- `scanEntry`, where the files are visited with a state. -/
def walkEntry (recurse : Nat → Bool → Path → σ → Option (Except ε σ)) (wstrFolder : Path)
    (e : Entry) (s : σ) : Option (Except ε σ) :=
  match e.kind with
  | .file => some (visit s (wstrFolder ++ e.name))
  | .folder reparse dir =>
      if e.isDot then some (.ok s)
      else if containsText (subFolder wstrFolder e) then some (.ok s)
      else recurse dir reparse (subFolder wstrFolder e) s

/-- The loop over the entries. -/
def walkEntries (recurse : Nat → Bool → Path → σ → Option (Except ε σ)) (wstrFolder : Path) :
    List Entry → σ → Option (Except ε σ)
  | [], s => some (.ok s)
  | e :: es, s =>
      match walkEntry visit recurse wstrFolder e s with
      | none => none
      | some (.error h) => some (.error h)
      | some (.ok s) => walkEntries recurse wstrFolder es s

/-- `GetFileListByFolder`, where the files are visited with a state. -/
def walkFolder (fs : FileSystem) : Nat → Nat → Bool → Path → σ → Option (Except ε σ)
  | 0, _, _, _, _ => none
  | fuel + 1, dir, reparse, wstrFolder, s =>
      if lower (tail wstrFolder) = ".link/".toList then some (.ok s)
      else if reparse = true then some (.ok s)
      else walkEntries visit (walkFolder fs fuel) wstrFolder (fs.listing dir) s

end Walk

/-- `GetFileListByFolder`. -/
def scanFolder (cp : CodePage) (stack : HashStack) (seen : Path → Seen) (fs : FileSystem)
    (fuel : Nat) (root : Root) (w : World) : Option (Except Halt World) :=
  walkFolder (scanFile cp stack seen) fs fuel root.dir root.reparse root.path w

/-! ### The visits -/

section Walk

variable {ε : Type} {σ : Type} {visit : σ → Path → Except ε σ}

/-- A recursive call is the visits of the paths of a recursive call. -/
def Visits (visit : σ → Path → Except ε σ) (walk : Nat → Bool → Path → σ → Option (Except ε σ))
    (list : Nat → Bool → Path → Option (List Path)) : Prop :=
  ∀ t reparse folder paths s, list t reparse folder = some paths →
    walk t reparse folder s = some (paths.foldlM visit s)

theorem walkEntry_eq {walk : Nat → Bool → Path → σ → Option (Except ε σ)}
    {list : Nat → Bool → Path → Option (List Path)} (h : Visits visit walk list) {folder : Path}
    {e : Entry} {paths : List Path} (hentry : scanEntry list folder e = some paths) (s : σ) :
    walkEntry visit walk folder e s = some (paths.foldlM visit s) := by
  unfold scanEntry at hentry
  unfold walkEntry
  cases hkind : e.kind with
  | file =>
      rw [hkind] at hentry
      rw [← Option.some.inj hentry]
      simp only [List.foldlM_cons, List.foldlM_nil, bind_pure]
  | folder reparse t =>
      rw [hkind] at hentry
      dsimp only at hentry ⊢
      by_cases hdot : e.isDot
      · rw [if_pos hdot] at hentry ⊢
        rw [← Option.some.inj hentry]
        rfl
      rw [if_neg hdot] at hentry ⊢
      by_cases htext : containsText (subFolder folder e)
      · rw [if_pos htext] at hentry ⊢
        rw [← Option.some.inj hentry]
        rfl
      rw [if_neg htext] at hentry ⊢
      exact h t reparse (subFolder folder e) paths s hentry

theorem walkEntries_eq {walk : Nat → Bool → Path → σ → Option (Except ε σ)}
    {list : Nat → Bool → Path → Option (List Path)} (h : Visits visit walk list) {folder : Path}
    (es : List Entry) {paths : List Path} (hentries : scanEntries list folder es = some paths)
    (s : σ) : walkEntries visit walk folder es s = some (paths.foldlM visit s) := by
  induction es generalizing paths s with
  | nil =>
      rw [← Option.some.inj hentries]
      rfl
  | cons e es ih =>
      simp only [scanEntries, Option.bind_eq_bind, Option.bind_eq_some_iff,
        Option.some.injEq] at hentries
      rcases hentries with ⟨here, hhere, later, hlater, rfl⟩
      rw [walkEntries, walkEntry_eq h hhere, List.foldlM_append]
      cases here.foldlM visit s with
      | error e => rfl
      | ok s' => exact ih hlater s'

/-- Going through the folders with a state is the visits of the files, one after the
    other. Induction on the depth. -/
theorem walkFolder_eq (fs : FileSystem) (fuel : Nat) :
    Visits visit (walkFolder visit fs fuel) (getFileListByFolder fs fuel) := by
  induction fuel with
  | zero =>
      intro t reparse folder paths s h
      exact absurd h (by simp only [getFileListByFolder, reduceCtorEq, not_false_eq_true])
  | succ fuel ih =>
      intro t reparse folder paths s h
      rw [getFileListByFolder] at h
      rw [walkFolder]
      by_cases hlink : lower (tail folder) = ".link/".toList
      · rw [if_pos hlink] at h ⊢
        rw [← Option.some.inj h]
        rfl
      rw [if_neg hlink] at h ⊢
      by_cases hreparse : reparse = true
      · rw [if_pos hreparse] at h ⊢
        rw [← Option.some.inj h]
        rfl
      rw [if_neg hreparse] at h ⊢
      exact walkEntries_eq ih _ h s

end Walk

/-! ### What is done with a file -/

/-- An executable that can be opened. -/
def Seen.IsPE (f : Seen) : Prop :=
  f.attributes = some false ∧ f.opens = true ∧ f.reads = true ∧ f.data.take 2 = [0x4D, 0x5A]

instance (f : Seen) : Decidable f.IsPE :=
  inferInstanceAs (Decidable (_ ∧ _))

theorem checkIsPEFile_iff (f : Seen) : checkIsPEFile f = true ↔ f.IsPE := by
  unfold checkIsPEFile Seen.IsPE
  by_cases hattr : f.attributes = some false
  · rw [if_neg (not_not_intro hattr)]
    by_cases hopen : f.opens = false
    · rw [if_pos hopen, hopen]
      simp only [Bool.false_eq_true, false_and, and_false]
    rw [if_neg hopen]
    by_cases hread : f.reads = false ∨ (f.data.take 2).length ≠ 2
    · rw [if_pos hread]
      refine iff_of_false Bool.false_ne_true (fun h => ?_)
      rcases hread with hread | hlen
      · exact Bool.false_ne_true (hread.symm.trans h.2.2.1)
      · exact hlen (congrArg List.length h.2.2.2)
    rw [if_neg hread, decide_eq_true_iff]
    rw [not_or] at hread
    exact ⟨fun h => ⟨hattr, eq_true_of_ne_false hopen, eq_true_of_ne_false hread.1, h⟩,
      fun h => h.2.2.2⟩
  · rw [if_pos hattr]
    exact iff_of_false Bool.false_ne_true (fun h => hattr h.1)

theorem hexLoop_eq (dwDstLen i : Nat) (bs : List UInt8) (h : 2 * (i + bs.length) < dwDstLen) :
    hexLoop dwDstLen i bs = .ok (bs.flatMap hexByte) := by
  induction bs generalizing i with
  | nil => rfl
  | cons b bs ih =>
      rw [List.length_cons] at h
      rw [hexLoop, if_neg (by omega), ih (i + 1) (by omega)]
      rfl

/-- The digits of a hash, where there is room for them and a terminator. -/
theorem getHashString_eq (pcSrc : List UInt8) (dwDstLen : Nat) (h : 2 * pcSrc.length < dwDstLen) :
    getHashString pcSrc dwDstLen = .ok (some (pcSrc.flatMap hexByte)) := by
  have hmod := Nat.mod_le (pcSrc.length * 2) (2 ^ 32)
  rw [getHashString, if_neg (by omega), hexLoop_eq dwDstLen 0 pcSrc (by omega)]
  rfl

theorem hexByte_ne_zero (b : UInt8) : ∀ u ∈ hexByte b, u ≠ 0 := by
  have hall : ∀ n, n < 16 → hexDigit (UInt8.ofNat n) ≠ 0 := by decide
  have hdigit : ∀ d : UInt8, d.toNat < 16 → hexDigit d ≠ 0 := by
    intro d hd
    rw [← UInt8.ofNat_toNat (x := d)]
    exact hall d.toNat hd
  have hb := b.toNat_lt
  intro u hu
  rcases List.mem_cons.mp hu with rfl | hu
  · refine hdigit _ ?_
    rw [UInt8.toNat_div]
    exact Nat.div_lt_of_lt_mul hb
  · rw [List.mem_singleton.mp hu]
    refine hdigit _ ?_
    rw [UInt8.toNat_mod]
    exact Nat.mod_lt _ (by decide)

/-- The hash of the image, as it is asked for. -/
def Seen.digest (f : Seen) : Bool × List UInt8 :=
  imageDigestCalcExtBySHA1Lib fipsSha1 f.digestOpens f.io f.data (List.replicate 20 0) true

theorem Seen.length_digest (f : Seen) : f.digest.2.length = 20 := by
  unfold Seen.digest imageDigestCalcExtBySHA1Lib
  split
  · rfl
  · dsimp only
    rw [poke, List.length_append, List.length_append, List.length_take, List.length_drop,
      length_fipsSha1, List.length_replicate]
    rfl

/-- What `GetFileInfoEx` leaves, when it fails too. -/
def Seen.info (f : Seen) : FileInfo :=
  match f.digest.1, f.attributesEx with
  | true, some (size, time) => ⟨f.digest.2.flatMap hexByte, size, time⟩
  | _, _ => ⟨[], f.sizeOnStack, f.timeOnStack⟩

theorem getFileInfoEx_eq (f : Seen) : ∃ bRet, getFileInfoEx f = .ok (bRet, f.info) := by
  have hlen := f.length_digest
  have hstring := getHashString_eq f.digest.2 41 (by omega)
  unfold getFileInfoEx Seen.info
  rw [← Seen.digest]
  dsimp only
  cases f.digest.1 with
  | false => exact ⟨false, rfl⟩
  | true =>
      rw [if_neg Bool.noConfusion, hstring]
      cases f.attributesEx with
      | none => exact ⟨false, rfl⟩
      | some known =>
          have hwcstr : wcstr (f.digest.2.flatMap hexByte) = f.digest.2.flatMap hexByte := by
            refine List.takeWhile_eq_self_iff.mpr (fun u hu => ?_)
            rcases List.mem_flatMap.mp hu with ⟨b, -, hu⟩
            exact decide_eq_true (hexByte_ne_zero b u hu)
          refine ⟨true, ?_⟩
          show Except.ok (true, (⟨wcstr (f.digest.2.flatMap hexByte), known.1, known.2⟩ : FileInfo))
            = _
          rw [hwcstr]

end Scan

end Defender
