import Defender.Scan.Files

/-!
# What a Scan Leaves Behind

A scan of a folder after a successful `Load` of the database. The scan comes to
an end, and what is left of it can be told from the files of the folder alone,
in whatever order they were met: the lines of `FileScan.txt`, the keys in the PE
cache, and the files whose attribute `Virus` was set.

The database and the cache each have their invariant, and the files do not
disturb each other: the database is as it was after every check
(`checkRansomware_open`), and the cache only gains keys. So there is one step
lemma for a file (`scanFile_spec`), an induction on the files that are visited
(`scanFiles_spec`), and the visits are those of the folders (`walkFolder_eq`).

A file is looked up in the cache and then put into it, so that it matters that
the two agree. The table has buckets, which it has unless no memory could be had
for them in the constructor.

## Main definitions

* `Seen.args`, `Seen.item`: What a file is kept as in the cache.
* `Seen.line`, `Seen.mark`: The line of a file, and its attribute.
* `Seen.Undisturbed`: Memory can be had, and the check comes back.
* `World.Ready`: The invariant.
* `Scanned`: What a scan leaves behind.

## Theorems

* `remember_spec`: A file is in the cache afterwards.
* `scanFile_spec`, `scanFiles_spec`: One file, and any number.
* `scan_after_load`: A scan after a `Load`.
-/

namespace Defender

namespace Scan

open Cache Cache.PECache Crypto CString Feature Pe Text Utf Wire

/-! ### The cache -/

/-- What a file is looked up with. -/
def Seen.args (f : Seen) (p : Path) : CacheArgs :=
  ⟨utf16Encode p, f.info.FileSize, f.info.LastWriteTime⟩

/-- The keys that a file has in the cache: none if it is rejected there. -/
def Seen.item (f : Seen) (p : Path) : Finset PeCacheItemKey :=
  if f.IsPE ∧ (f.args p).Accepted then {createPECacheItem (f.args p)} else ∅

theorem peCacheQueryCache_table {d d' : PeCacheData} {created : Bool} {a : CacheArgs}
    {retval : UInt32} (h : peCacheQueryCache d created a = some (retval, d')) :
    d'.lookupTB = d.lookupTB := by
  unfold peCacheQueryCache at h
  by_cases ha : ¬ a.Accepted
  · rw [if_pos ha, Option.some.injEq, Prod.mk.injEq] at h
    rw [← h.2]
  rw [if_neg ha] at h
  by_cases hcreated : created = false
  · rw [if_pos hcreated] at h
    split at h
    · rw [Option.some.injEq, Prod.mk.injEq] at h
      rw [← h.2]
    · exact absurd h (by simp only [reduceCtorEq, not_false_eq_true])
  rw [if_neg hcreated] at h
  split at h
  · exact absurd h (by simp only [reduceCtorEq, not_false_eq_true])
  all_goals
    rw [Option.some.injEq, Prod.mk.injEq] at h
    rw [← h.2]
    rfl

/-- A file that is not in the table is put there, if there are buckets. -/
theorem peCacheInsert_absent (d : PeCacheData) (keys : Finset PeCacheItemKey) (h : Holds d keys)
    (hbuckets : d.lookupTB.bucket_count ≠ 0) (a : CacheArgs) (ha : a.Accepted)
    (habsent : createPECacheItem a ∉ keys) :
    ∃ cache, peCacheInsert d true a = some (btrue, cache) ∧
      cache.lookupTB.bucket_count = d.lookupTB.bucket_count := by
  rcases h.table with ⟨hnone, -⟩ | ⟨list, chains, hset, hchained, hitems, hkeys⟩
  · exact absurd hnone hbuckets
  have hfresh : d.items ∉ chains.flatten := fun hmem => Nat.lt_irrefl _ (hitems _ hmem)
  have hkey : (d.mem.create d.items (createPECacheItem a)).key d.items = createPECacheItem a :=
    if_pos rfl
  have hpath : (createPECacheItem a).FilePathBuffer ≠ [] := fun hnil => ha (Or.inl hnil)
  have hspec := insertItem_spec hset (hchained.create d.items (createPECacheItem a) hfresh) d.items
    hfresh (by rw [hkey]; exact hpath) (d.items + 1)
    (Nat.lt_succ_of_le (length_flatten_le hchained d.items hitems))
  rw [hkey, map_create d.items _ hfresh, ← hkeys] at hspec
  rcases hspec with ⟨hthere, -⟩ | ⟨-, links, chains', hinsert, -⟩
  · exact absurd hthere habsent
  · have hinsert' : hashtbInsertItem (d.items + 1) (d.alloc (createPECacheItem a)).mem
        d.lookupTB d.items (createPECacheItem a)
        = some (true, { (d.alloc (createPECacheItem a)).mem with links := links },
            { d.lookupTB with item_count := d.lookupTB.item_count + 1 }) := hinsert
    unfold peCacheInsert
    rw [if_neg (not_not_intro ha), if_neg Bool.noConfusion, hinsert']
    exact ⟨_, rfl, rfl⟩

/-- A file is in the cache afterwards, unless its arguments are rejected. -/
theorem remember_spec (cache : PeCacheData) (keys : Finset PeCacheItemKey) (h : Holds cache keys)
    (hbuckets : cache.lookupTB.bucket_count ≠ 0) (f : Seen) (hquery : f.queryCreated = true)
    (hinsert : f.insertCreated = true) (a : CacheArgs) :
    ∃ cache', remember cache f a = some cache' ∧ cache'.lookupTB.bucket_count ≠ 0 ∧
      Holds cache' (keys ∪ if a.Accepted then {createPECacheItem a} else ∅) := by
  unfold remember
  rw [hquery, hinsert]
  by_cases ha : a.Accepted
  · rw [if_pos ha, Finset.union_comm, Finset.singleton_union]
    rcases peCacheQueryCache_spec cache keys h a ha with ⟨retval, queried, hfound, hret, hholds⟩
    have htable := peCacheQueryCache_table hfound
    rw [hfound]
    dsimp only
    by_cases hbfalse : retval = bfalse
    · rw [if_pos hbfalse]
      have habsent : createPECacheItem a ∉ keys := fun hmem => hret.mpr hmem hbfalse
      rw [← htable] at hbuckets
      rcases peCacheInsert_absent queried keys hholds hbuckets a ha habsent with
        ⟨cache', hput, hcount⟩
      rcases peCacheInsert_spec queried keys hholds a ha with ⟨retval', cache'', hspec, hin, -⟩
      rw [hput, Option.some.injEq, Prod.mk.injEq] at hspec
      rw [hput]
      refine ⟨cache', rfl, by rw [hcount]; exact hbuckets, ?_⟩
      rw [hspec.2]
      exact hin (by rw [← hspec.1]; decide)
    · rw [if_neg hbfalse, Finset.insert_eq_of_mem (hret.mp hbfalse)]
      exact ⟨queried, rfl, by rw [htable]; exact hbuckets, hholds⟩
  · rw [if_neg ha, Finset.union_empty]
    have hrejected : peCacheQueryCache cache true a = some (statusInvalidParameter, cache) :=
      if_pos ha
    rw [hrejected]
    dsimp only
    rw [if_neg (by decide)]
    exact ⟨cache, rfl, hbuckets, h⟩

/-! ### One file -/

/-- What is written for a file. -/
def Seen.line (cp : CodePage) (f : Seen) (p : Path) : List UInt8 :=
  if f.IsPE ∧ f.lineOpens = true then
    convertW2A cp (utf16Encode p) ++ hashText ++ convertW2A cp f.info.wstrHashCode ++ [0x0A]
  else []

/-- The attribute that is set: the name of the file, and the record. -/
def Seen.mark (cp : CodePage) (f : Seen) (p : Path) : List UInt8 × List UInt8 :=
  (convertW2A cp (utf16Encode p), eaWritten f.eaHeap virusName virusValue)

/-- Memory can be had for the items and the record, and the check comes back. -/
structure Seen.Undisturbed (f : Seen) (p : Path) : Prop where
  queryCreated : f.queryCreated = true
  insertCreated : f.insertCreated = true
  eaMalloc : f.eaMalloc = true
  returns : ¬ (f.check p).Never

/-- The database is asked for a file, and has it. -/
def Seen.Infected (db : Db) (f : Seen) (p : Path) : Prop :=
  (f.check p).Asks ∧ f.query.Succeeds ∧ db.Has (f.check p).key

/-- The database is open, and the cache holds these keys and has buckets. -/
structure World.Ready (db : Db) (keys : Finset PeCacheItemKey) (w : World) : Prop where
  opened : OpenOn db w.db
  holds : Holds w.cache keys
  buckets : w.cache.lookupTB.bucket_count ≠ 0

/-- What is left behind when these files were visited. -/
structure Scanned (cp : CodePage) (seen : Path → Seen) (isVirus : Path → Prop)
    (visited : List Path) (keys keys' : Finset PeCacheItemKey) (w w' : World) : Prop where
  lines : w'.lines = w.lines ++ visited.flatMap (fun p => (seen p).line cp p)
  cached : ∀ key, key ∈ keys' ↔ key ∈ keys ∨ ∃ p ∈ visited, key ∈ (seen p).item p
  marked : ∀ m, m ∈ w'.attributes ↔ m ∈ w.attributes ∨
    ∃ p ∈ visited, (seen p).IsPE ∧ isVirus p ∧ (seen p).eaOpens = true ∧ m = (seen p).mark cp p

theorem Scanned.nil {cp : CodePage} {seen : Path → Seen} {isVirus : Path → Prop}
    {keys : Finset PeCacheItemKey} {w : World} : Scanned cp seen isVirus [] keys keys w w where
  lines := (List.append_nil _).symm
  cached key := by simp only [List.not_mem_nil, false_and, exists_false, or_false]
  marked m := by simp only [List.not_mem_nil, false_and, exists_false, or_false]

/-- First a file, and then others. -/
theorem Scanned.cons {cp : CodePage} {seen : Path → Seen} {isVirus : Path → Prop} {p : Path}
    {ps : List Path} {keys keys' keys'' : Finset PeCacheItemKey} {w w' w'' : World}
    (h : Scanned cp seen isVirus [p] keys keys' w w')
    (h' : Scanned cp seen isVirus ps keys' keys'' w' w'') :
    Scanned cp seen isVirus (p :: ps) keys keys'' w w'' where
  lines := by
    rw [h'.lines, h.lines, List.flatMap_cons, List.flatMap_cons, List.flatMap_nil, List.append_nil,
      List.append_assoc]
  cached key := by
    rw [h'.cached, h.cached]
    simp only [List.mem_cons, List.not_mem_nil, or_false, exists_eq_left, exists_eq_or_imp,
      or_assoc]
  marked m := by
    rw [h'.marked, h.marked]
    simp only [List.mem_cons, List.not_mem_nil, or_false, exists_eq_left, exists_eq_or_imp,
      or_assoc]

@[simp] theorem seWriteFile_db (w : World) (opens : Bool) (strBuffer : List UInt8) :
    (w.seWriteFile opens strBuffer).db = w.db := by
  unfold World.seWriteFile
  split <;> rfl

@[simp] theorem seWriteFile_cache (w : World) (opens : Bool) (strBuffer : List UInt8) :
    (w.seWriteFile opens strBuffer).cache = w.cache := by
  unfold World.seWriteFile
  split <;> rfl

@[simp] theorem seWriteFile_attributes (w : World) (opens : Bool) (strBuffer : List UInt8) :
    (w.seWriteFile opens strBuffer).attributes = w.attributes := by
  unfold World.seWriteFile
  split <;> rfl

/-- The line of an executable. -/
theorem seWriteFile_line (cp : CodePage) (w : World) (f : Seen) (p : Path) (h : f.IsPE) :
    (w.seWriteFile f.lineOpens (convertW2A cp (utf16Encode p) ++ hashText
      ++ convertW2A cp f.info.wstrHashCode)).lines = w.lines ++ f.line cp p := by
  unfold World.seWriteFile Seen.line
  cases f.lineOpens with
  | false => rw [if_pos rfl, if_neg (fun hboth => Bool.false_ne_true hboth.2), List.append_nil]
  | true =>
      rw [if_neg Bool.noConfusion, if_pos ⟨h, rfl⟩]
      simp only [List.append_assoc]

/-- The record is passed on for a file that can be opened. -/
theorem writeFileExAttr_virus (opens : Bool) (heap : Nat → UInt8) :
    writeFileExAttr opens true heap virusName virusValue
      = .ok (if opens = true then some (eaWritten heap virusName virusValue) else none) := by
  unfold writeFileExAttr
  cases opens with
  | false => rfl
  | true =>
      rw [if_neg Bool.noConfusion, eaToWrite_eq heap (by decide) (by decide)]
      rfl

variable (cp : CodePage) (stack : HashStack) (db : Db) (seen : Path → Seen)

/-- What is left of a file, whatever the world was. -/
theorem scanFile_spec (keys : Finset PeCacheItemKey) (w : World) (h : w.Ready db keys) (p : Path)
    (hund : (seen p).IsPE → (seen p).Undisturbed p) :
    ∃ w' keys', scanFile cp stack seen w p = .ok w' ∧ w'.Ready db keys' ∧
      Scanned cp seen (fun p => (seen p).Infected db p) [p] keys keys' w w' := by
  unfold scanFile
  dsimp only
  by_cases hpe : (seen p).IsPE
  · have hcalls := hund hpe
    rcases getFileInfoEx_eq (seen p) with ⟨bRet, hinfo⟩
    rcases remember_spec w.cache keys h.holds h.buckets (seen p) hcalls.queryCreated
      hcalls.insertCreated ((seen p).args p) with ⟨cache, hcache, hbuckets, hholds⟩
    rw [Seen.args] at hcache
    rcases checkRansomware_open stack db w.db h.opened ((seen p).check p) hcalls.returns with
      ⟨bVirus, this, hcheck, hopen, hverdict⟩
    have hinfected : bVirus = true ↔ (seen p).Infected db p := hverdict
    rw [if_neg (by rw [(checkIsPEFile_iff _).mpr hpe]; exact Bool.noConfusion), hinfo]
    dsimp only
    rw [seWriteFile_cache, hcache]
    dsimp only
    rw [seWriteFile_db, hcheck, hcalls.eaMalloc, writeFileExAttr_virus]
    dsimp only
    -- The key of the file is the one that the cache has gained.
    have hitem : ∀ key, key ∈ keys ∪ (if ((seen p).args p).Accepted then
        {createPECacheItem ((seen p).args p)} else ∅) ↔
          key ∈ keys ∨ ∃ q ∈ [p], key ∈ (seen q).item q := by
      intro key
      rw [Finset.mem_union]
      simp only [List.mem_singleton, exists_eq_left, Seen.item, hpe, true_and]
    have hline := seWriteFile_line cp w (seen p) p hpe
    by_cases hvirus : bVirus = false
    · rw [if_pos hvirus]
      refine ⟨_, _, rfl, ⟨hopen, hholds, hbuckets⟩, ⟨?_, hitem, fun m => ?_⟩⟩
      · rw [List.flatMap_singleton]
        exact hline
      · rw [seWriteFile_attributes]
        refine ⟨Or.inl, fun hm => hm.elim id ?_⟩
        rintro ⟨q, hq, -, hq', -⟩
        rw [List.mem_singleton.mp hq, ← hinfected, hvirus] at hq'
        exact absurd hq' Bool.false_ne_true
    · rw [if_neg hvirus]
      refine ⟨_, _, rfl, ⟨hopen, hholds, hbuckets⟩, ⟨?_, hitem, fun m => ?_⟩⟩
      · rw [List.flatMap_singleton]
        exact hline
      · have hinf := hinfected.mp (eq_true_of_ne_false hvirus)
        rw [List.mem_append, seWriteFile_attributes]
        refine or_congr_right ?_
        simp only [List.mem_singleton, exists_eq_left, hpe, hinf, true_and]
        cases (seen p).eaOpens with
        | false =>
            simp only [Bool.false_eq_true, if_false, Option.toList_none, List.map_nil,
              List.not_mem_nil, false_and]
        | true =>
            simp only [if_true, Option.toList_some, List.map_cons, List.map_nil,
              List.mem_singleton, true_and]
            exact Iff.rfl
  · have hnot : checkIsPEFile (seen p) = false :=
      Bool.eq_false_iff.mpr (fun hc => hpe ((checkIsPEFile_iff _).mp hc))
    rw [if_pos hnot]
    refine ⟨w, keys, rfl, h, ⟨?_, fun key => ?_, fun m => ?_⟩⟩
    · rw [List.flatMap_singleton, Seen.line, if_neg (fun hboth => hpe hboth.1), List.append_nil]
    · simp only [List.mem_singleton, exists_eq_left, Seen.item, hpe, false_and, if_false,
        Finset.notMem_empty, or_false]
    · simp only [List.mem_singleton, exists_eq_left, hpe, false_and, or_false]

/-- What is left of any files. Induction on the files. -/
theorem scanFiles_spec (ps : List Path) (keys : Finset PeCacheItemKey) (w : World)
    (h : w.Ready db keys) (hund : ∀ p ∈ ps, (seen p).IsPE → (seen p).Undisturbed p) :
    ∃ w' keys', ps.foldlM (scanFile cp stack seen) w = .ok w' ∧ w'.Ready db keys' ∧
      Scanned cp seen (fun p => (seen p).Infected db p) ps keys keys' w w' := by
  induction ps generalizing keys w with
  | nil => exact ⟨w, keys, rfl, h, Scanned.nil⟩
  | cons p ps ih =>
      rcases scanFile_spec cp stack db seen keys w h p (hund p List.mem_cons_self) with
        ⟨next, nkeys, hscan, hready, hfirst⟩
      rcases ih nkeys next hready (fun q hq => hund q (List.mem_cons_of_mem p hq)) with
        ⟨last, lkeys, hscans, hlast, hrest⟩
      refine ⟨last, lkeys, ?_, hlast, hfirst.cons hrest⟩
      rw [List.foldlM_cons, hscan]
      exact hscans

/-! ### A scan -/

/-- After `Load` of a directory returned true, with an environment to load into,
    a scan of a folder comes to an end. It leaves the lines, the keys in the cache
    and the attributes of the files in the folder, each visited once; and a file
    gets the attribute exactly when it is an executable that can be opened, the
    database is asked for it, and its hash was there before or is one that an
    accepted file of the directory put. -/
theorem scan_after_load (c : CSM4Crypto) (o : LoadOutcomes) (this : CFeatureDB)
    (strHashstoreDir strSuffix : String) (r : LoadResult)
    (hdir : o.attributes (loadPath o strHashstoreDir) = some true)
    (h : this.load standardLibs.sm3 c o strHashstoreDir strSuffix = .ok r) (hret : r.bRet = true)
    (hready : CanBeReady this o.envCreate o.envOpen) (cache : PeCacheData)
    (keys : Finset PeCacheItemKey) (hholds : Holds cache keys)
    (hbuckets : cache.lookupTB.bucket_count ≠ 0) (lines : List UInt8)
    (attributes : List (List UInt8 × List UInt8)) (fs : FileSystem) (root : Root)
    (hund : ∀ p, Under fs containsText root.dir root.path p → (seen p).IsPE →
      (seen p).Undisturbed p) (fuel : Nat) (hfuel : fs.rank root.dir + 1 < fuel) :
    ∃ w' visited keys',
      scanFolder cp stack seen fs fuel root ⟨r.this, cache, lines, attributes⟩ = some (.ok w') ∧
      visited.Nodup ∧ (∀ p, p ∈ visited ↔
        root.reparse = false ∧ Under fs containsText root.dir root.path p) ∧
      Holds w'.cache keys' ∧
      Scanned cp seen (fun p => ((seen p).check p).Asks ∧ (seen p).query.Succeeds ∧
        (this.m_pEnv.committed.Has ((seen p).check p).key ∨
          ∃ i, Accepts standardLibs.sm3 c o this.m_pEnv.committed.Has
            (o.listed strHashstoreDir strSuffix) i ∧ ((seen p).check p).key ∈ putKeysAt c o i))
        visited keys keys' ⟨r.this, cache, lines, attributes⟩ w' := by
  unfold CFeatureDB.load at h
  rw [hdir] at h
  rcases load_directory standardLibs.sm3 c o this _ _ r h hret with
    ⟨hnot, -⟩ | ⟨-, hinit, hopened, -, -, hkeys⟩
  · exact absurd hready hnot
  -- The folder is walked first, and the files that were found are then looked at.
  rcases getFileListByFolder_spec fs fuel root.dir root.reparse root.path root.ends (by omega)
    (fun _ => hfuel) with ⟨visited, hvisited, hnodup, hmem⟩
  rcases scanFiles_spec cp stack r.this.m_pEnv.committed seen visited keys
    ⟨r.this, cache, lines, attributes⟩ ⟨⟨hinit, hopened, rfl⟩, hholds, hbuckets⟩
    (fun p hp => hund p ((hmem p).mp hp).2) with ⟨w', keys', hscan, hlast, hscanned⟩
  refine ⟨w', visited, keys', ?_, hnodup, hmem, hlast.holds, hscanned.lines, hscanned.cached,
    fun m => ?_⟩
  · rw [scanFolder, walkFolder_eq fs fuel _ _ _ _ _ hvisited, hscan]
  · rw [hscanned.marked]
    simp only [Seen.Infected, hkeys, LoadOutcomes.listed]

/-- A folder with a file in it. -/
def oneFolder : FileSystem where
  listing
    | 0 => [⟨"a.exe".toList, .file⟩]
    | _ => []
  rank _ := 0
  names_nodup d := by
    match d with
    | 0 => exact List.nodup_singleton _
    | _ + 1 => exact List.nodup_nil
  names_ok d := by
    match d with
    | 0 => decide
    | _ + 1 => exact fun e he => absurd he List.not_mem_nil
  descends d e he t hkind _ := by
    match d with
    | 0 =>
        rw [List.mem_singleton.mp he] at hkind
        exact absurd hkind (by simp only [reduceCtorEq, not_false_eq_true])
    | _ + 1 => exact absurd he List.not_mem_nil

/-- A file with two letters in it, of which every call succeeds. -/
def twoLetters : Seen where
  attributes := some false
  opens := true
  reads := true
  data := [0x4D, 0x5A]
  digestOpens := true
  io := goodOutcomes
  attributesEx := some (2, 1)
  sizeOnStack := 0
  timeOnStack := 0
  lineOpens := true
  queryCreated := true
  insertCreated := true
  heap := fun _ => 0
  hash := FileHashOutcomes.good
  query := QueryOutcomes.good
  get_fault := good_get_ne
  eaOpens := true
  eaMalloc := true
  eaHeap := fun _ => 0

/-- The path of the file. -/
def lettersPath : Path :=
  cacheRoot.path ++ "a.exe".toList

/-- A directory has a file with the MD5 of the letters in it, and the scan after
    it marks the file. -/
theorem scan_after_load_twoLetters : ∃ r,
    (CFeatureDB.withKey (List.replicate 16 0)).load standardLibs.sm3 CSM4Crypto.getInstance
      (LoadOutcomes.md5 (rfcMd5 [0x4D, 0x5A])) "D:" ".dat" = .ok r ∧ r.bRet = true ∧
    ∃ w', scanFolder plainCodePage HashStack.fresh (fun _ => twoLetters) oneFolder 2 cacheRoot
        ⟨r.this, peCacheInit (PECache.start emptyMem).cache true, [], []⟩ = some (.ok w') ∧
      twoLetters.mark plainCodePage lettersPath ∈ w'.attributes := by
  rcases load_md5 (List.replicate 16 0) (rfcMd5 [0x4D, 0x5A]) (length_rfcMd5 _) with
    ⟨r, hr, hret, haccepts, hkeys⟩
  have hnever : ∀ p, ¬ (twoLetters.check p).Never := by
    rintro p ⟨-, bytes, hbytes, -, hlong⟩
    have hsome : (twoLetters.check p).hashed = some [0x4D, 0x5A] := rfl
    rw [hsome, Option.some.injEq] at hbytes
    rw [← hbytes] at hlong
    exact absurd hlong (by decide)
  rcases scan_after_load plainCodePage HashStack.fresh (fun _ => twoLetters)
    CSM4Crypto.getInstance (LoadOutcomes.md5 (rfcMd5 [0x4D, 0x5A]))
    (CFeatureDB.withKey (List.replicate 16 0)) "D:" ".dat" r rfl hr hret (Or.inl rfl)
    (peCacheInit (PECache.start emptyMem).cache true) ∅ (peCacheInit_holds _ rfl true) (by decide)
    [] [] oneFolder cacheRoot (fun p _ _ => ⟨rfl, rfl, rfl, hnever p⟩) 2 (by decide) with
    ⟨w', visited, keys', hscan, -, hvisited, -, hscanned⟩
  have hunder : lettersPath ∈ visited :=
    (hvisited lettersPath).mpr ⟨rfl, Under.file ⟨"a.exe".toList, .file⟩ List.mem_cons_self rfl⟩
  have hkey : (twoLetters.check lettersPath).key = rfcMd5 [0x4D, 0x5A] := rfl
  refine ⟨r, hr, hret, w', hscan, (hscanned.marked _).mpr (Or.inr ⟨lettersPath, hunder, ?_, ?_, rfl,
    rfl⟩)⟩
  · exact ⟨by decide, rfl, rfl, rfl⟩
  · refine ⟨⟨by decide, rfl, rfl, rfl⟩, ⟨rfl, rfl, rfl⟩, Or.inr ⟨0, (haccepts _ 0).mpr rfl, ?_⟩⟩
    rw [(hkeys 0).2, hkey]
    exact List.mem_singleton_self _

end Scan

end Defender
