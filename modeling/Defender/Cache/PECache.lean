import Defender.Cache.KeySet
import Defender.Lib.Machine

/-!
# The PE Cache

`PECacheHelper` keeps the files that were scanned, each by its path, size and
write time, in the hash table. There is one table, `l_PECacheData`, which all
helpers share: it begins as zeros, and a constructor sets it up with 1000
buckets. Callers look for a file, put it in, and clear the cache.

What becomes of a call is told by a `BOOL`. Three things are not as they look.
Arguments that are rejected give `STATUS_INVALID_PARAMETER`, which as a `BOOL`
is true. Every constructor sets the table up anew, and what was in it is lost.
And `PE_CACHE_Clear_AllCache` does nothing, since it asks for `bInit`, which
nothing sets.

A fourth thing is that an item for which no memory is had is used all the same,
which ends the process.

Where none of this comes up the cache is a set of files (`exact_iff`): all
arguments are accepted, memory is had, and while a file is in the cache no
helper is constructed and the cache is not cleared.

## Main definitions

* `CacheArgs`: What identifies a file.
* `PeCacheData`: The cache, with memory.
* `peCacheInit`, `peCacheQueryCache`, `peCacheInsert`, `peCacheClearAllCache`:
  The constructor and the calls.
* `State`, `step`: The cache, and what was put in and not cleared since.
* `Exact`, `Answered`: What is to hold of the states and of the calls.
* `Duly`: The calls that keep it.
* `Holds`, `Inv`: The keys in the table.

## Theorems

* `peCacheInit_holds`, `peCacheQueryCache_spec`, `peCacheInsert_spec`: What the
  calls do to the keys.
* `exact_iff`: When the cache is a set of files.
* `exact_rejected`: A file without a path is found.
-/

namespace Defender

namespace Cache

namespace PECache

open RingList Machine

/-- The arguments that identify a file. -/
structure CacheArgs where
  FilePath : List UInt16
  FileSize : UInt64
  LastWriteTime : UInt64
  deriving DecidableEq, Repr

/-- `PE_CACHE_DATA`, and the memory it is in: the arrays and the items that
    were allocated are numbered. -/
structure PeCacheData where
  mem : Mem
  lookupTB : HashTb
  bInit : Bool
  lists : Nat
  items : Nat

/-- `TRUE`. -/
def btrue : UInt32 := 1

/-- `FALSE`. -/
def bfalse : UInt32 := 0

/-- `STATUS_INVALID_PARAMETER`. -/
def statusInvalidParameter : UInt32 := 0xC000000D

/-- The check of the arguments. -/
def CacheArgs.Accepted (a : CacheArgs) : Prop :=
  ¬ (a.FilePath = [] ∨ a.FileSize = 0 ∨ a.LastWriteTime = 0)

instance (a : CacheArgs) : Decidable a.Accepted :=
  inferInstanceAs (Decidable (¬ _))

/-- `__createPECacheItem`: the key of the item. -/
def createPECacheItem (a : CacheArgs) : PeCacheItemKey where
  FilePathBuffer := a.FilePath
  FilePathLen := Int32.ofNat a.FilePath.length
  FileSize := a.FileSize
  LastWriteTime := a.LastWriteTime

/-- An item is allocated, with its key. -/
def PeCacheData.alloc (d : PeCacheData) (key : PeCacheItemKey) : PeCacheData :=
  { d with mem := d.mem.create d.items key, items := d.items + 1 }

/-- `PE_CACHE_Init_Internal`. -/
def peCacheInitInternal (table : HashTb) (valueLen : Nat) : HashTb :=
  if valueLen % 4 ≠ 0 then table
  else { table with
    bucket_count := 0
    hash_list := none
    compare_item := some comparePeCache
    hash_calc := some hashCalc }

/-- The loop that initialises the heads of an array. -/
def initHeads (links : Links Ptr) (list count : Nat) : Links Ptr :=
  (List.range count).foldl (fun links i => listInit links (.head list i)) links

/-- `PE_CACHE_SetBucketCount`, where the array can be allocated or not. -/
def peCacheSetBucketCount (d : PeCacheData) (BucketCount : UInt16) (malloc : Bool) :
    PeCacheData :=
  if BucketCount = 0 then d
  else if d.lookupTB.bucket_count = BucketCount then d
  else if malloc = false then
    { d with lookupTB := { d.lookupTB with bucket_count := 0, hash_list := none } }
  else { d with
    -- The array has one entry more than there are buckets. The old one is not freed.
    mem := { d.mem with links := initHeads d.mem.links d.lists (BucketCount.toNat + 1) }
    lookupTB := { d.lookupTB with bucket_count := BucketCount, hash_list := some d.lists }
    lists := d.lists + 1 }

/-- `PE_CACHE_Init`, the constructor. A pointer has eight bytes. -/
def peCacheInit (d : PeCacheData) (malloc : Bool) : PeCacheData :=
  peCacheSetBucketCount { d with lookupTB := peCacheInitInternal d.lookupTB 8 } 1000 malloc

/-- `PE_CACHE_Query_Cache`, where the item can be created or not. The loop over
    a bucket meets no more items than there are. -/
def peCacheQueryCache (d : PeCacheData) (created : Bool) (a : CacheArgs) :
    Option (UInt32 × PeCacheData) :=
  if ¬ a.Accepted then some (statusInvalidParameter, d)
  else if created = false then
    -- The key of no item is looked for, and read unless there are no buckets.
    if d.lookupTB.bucket_count = 0 then some (bfalse, d) else none
  else
    match hashtbQueryItem (d.items + 1) (d.alloc (createPECacheItem a)).mem d.lookupTB
        (createPECacheItem a) with
    | none => none
    | some none => some (bfalse, d.alloc (createPECacheItem a))
    | some (some _) => some (btrue, d.alloc (createPECacheItem a))

/-- `PE_CACHE_insert`. -/
def peCacheInsert (d : PeCacheData) (created : Bool) (a : CacheArgs) :
    Option (UInt32 × PeCacheData) :=
  if ¬ a.Accepted then some (statusInvalidParameter, d)
  else if created = false then none
  else
    match hashtbInsertItem (d.items + 1) (d.alloc (createPECacheItem a)).mem d.lookupTB d.items
        (createPECacheItem a) with
    | none => none
    | some (false, mem, table) =>
        some (bfalse, { d.alloc (createPECacheItem a) with mem := mem, lookupTB := table })
    | some (true, mem, table) =>
        some (btrue, { d.alloc (createPECacheItem a) with mem := mem, lookupTB := table })

/-- `PE_CACHE_Clear_AllCache`. -/
def peCacheClearAllCache (d : PeCacheData) : Option (UInt32 × PeCacheData) :=
  -- No function sets `bInit`.
  if d.bInit = false then some (bfalse, d)
  else
    match hashtbRemoveAll (d.items + 1) d.mem d.lookupTB with
    | none => none
    | some (mem, table) => some (btrue, { d with mem := mem, lookupTB := table })

/-! ### Runs -/

/-- A helper is constructed, or a call is made of one. -/
inductive Label where
  | construct (malloc : Bool)
  | query (created : Bool) (a : CacheArgs)
  | insert (created : Bool) (a : CacheArgs)
  | clear
  deriving DecidableEq, Repr

/-- The cache, and the files that were put in with success and not cleared
    since. -/
structure State where
  cache : PeCacheData
  inserted : Finset CacheArgs

/-- One step, if it comes to an end. -/
def step (s : State) : Label → Option State
  | .construct malloc => some { s with cache := peCacheInit s.cache malloc }
  | .query created a =>
      match peCacheQueryCache s.cache created a with
      | none => none
      | some (_, cache) => some { s with cache := cache }
  | .insert created a =>
      match peCacheInsert s.cache created a with
      | none => none
      | some (retval, cache) =>
          -- A code for rejected arguments is a true value too, but nothing was put in.
          some { cache := cache
                 inserted := if a.Accepted ∧ retval ≠ bfalse then Insert.insert a s.inserted
                   else s.inserted }
  | .clear =>
      match peCacheClearAllCache s.cache with
      | none => none
      | some (_, cache) => some { cache := cache, inserted := ∅ }

/-- `l_PECacheData` is zero, in whatever memory, and no helper was constructed. -/
def start (mem : Mem) : State where
  cache := { mem := mem
             lookupTB := { bucket_count := 0, hash_list := none, item_count := 0,
                           compare_item := none, hash_calc := none }
             bInit := false
             lists := 0
             items := 0 }
  inserted := ∅

/-- A query with arguments that are accepted returns true exactly for the files
    that were put in and not cleared since. -/
def Exact (s : State) : Prop :=
  ∀ a : CacheArgs, a.Accepted → ∃ retval cache,
    peCacheQueryCache s.cache true a = some (retval, cache) ∧
      (retval ≠ bfalse ↔ a ∈ s.inserted)

/-- A call comes back. A query returns true exactly for these files, and an
    insert with arguments that are rejected does not. -/
def Answered (s : State) : Label → Prop
  | .construct _ => True
  | .query created a => ∃ retval cache,
      peCacheQueryCache s.cache created a = some (retval, cache) ∧
        (retval ≠ bfalse ↔ a ∈ s.inserted)
  | .insert created a => ∃ retval cache,
      peCacheInsert s.cache created a = some (retval, cache) ∧ (¬ a.Accepted → retval = bfalse)
  | .clear => ∃ retval cache, peCacheClearAllCache s.cache = some (retval, cache)

/-- Arguments are accepted, and their item can be created, which only a query in
    a table without buckets does without. A helper is constructed and the cache
    cleared only while no file is in it. -/
def Duly (s : State) : Label → Prop
  | .construct _ => s.inserted = ∅
  | .query created a => a.Accepted ∧ (created = true ∨ s.cache.lookupTB.bucket_count = 0)
  | .insert created a => a.Accepted ∧ created = true
  | .clear => s.inserted = ∅

/-! ### The keys in the table -/

/-- The table holds these keys: none where it has no buckets. The items in the
    buckets were allocated. -/
structure Holds (d : PeCacheData) (keys : Finset PeCacheItemKey) : Prop where
  bInit : d.bInit = false
  table : (d.lookupTB.bucket_count = 0 ∧ keys = ∅) ∨
    ∃ list chains, SetUp d.lookupTB list ∧
      Chained d.mem d.lookupTB.bucket_count list chains ∧ (∀ x ∈ chains.flatten, x < d.items) ∧
      ∀ key, key ∈ keys ↔ key ∈ chains.flatten.map d.mem.key

/-- The key tells the file. -/
theorem createPECacheItem_inj (a b : CacheArgs) :
    createPECacheItem a = createPECacheItem b ↔ a = b := by
  constructor
  · intro h
    rcases PeCacheItemKey.mk.inj h with ⟨hpath, -, hsize, htime⟩
    cases a
    cases b
    rw [CacheArgs.mk.injEq]
    exact ⟨hpath, hsize, htime⟩
  · intro h
    rw [h]

/-- Fewer items are in the buckets than are allowed for. -/
theorem length_flatten_le {m : Mem} {b : UInt16} {list : Nat} {chains : List (List Nat)}
    (h : Chained m b list chains) (items : Nat) (hitems : ∀ x ∈ chains.flatten, x < items) :
    chains.flatten.length ≤ items := by
  have hsub : chains.flatten ⊆ List.range items := fun x hx => List.mem_range.mpr (hitems x hx)
  have hnodup : chains.flatten.Nodup := List.Nodup.of_map m.key h.nodup
  have hle := (List.subperm_of_subset hnodup hsub).length_le
  rw [List.length_range] at hle
  exact hle

/-- An item that is allocated is in no bucket. -/
theorem Holds.alloc {d : PeCacheData} {keys : Finset PeCacheItemKey} (h : Holds d keys)
    (key : PeCacheItemKey) : Holds (d.alloc key) keys := by
  refine ⟨h.bInit, ?_⟩
  rcases h.table with hnone | ⟨list, chains, hset, hchained, hitems, hkeys⟩
  · exact Or.inl hnone
  · have hfresh : d.items ∉ chains.flatten := fun hmem => Nat.lt_irrefl _ (hitems _ hmem)
    refine Or.inr ⟨list, chains, hset, hchained.create d.items key hfresh,
      fun x hx => Nat.lt_succ_of_lt (hitems x hx), fun k => ?_⟩
    rw [hkeys]
    show _ ↔ k ∈ chains.flatten.map (d.mem.create d.items key).key
    rw [map_create d.items key hfresh]

/-! ### The calls -/

/-- The loop leaves the heads pointing to themselves. -/
theorem initHeads_spec (links : Links Ptr) (list count i : Nat) (hi : i < count) :
    (initHeads links list count).prev (.head list i) = some (.head list i) ∧
      (initHeads links list count).next (.head list i) = some (.head list i) := by
  induction count with
  | zero => exact absurd hi (Nat.not_lt_zero i)
  | succ count ih =>
      have hlast : initHeads links list (count + 1)
          = listInit (initHeads links list count) (.head list count) := by
        unfold initHeads
        rw [List.range_succ, List.foldl_append]
        rfl
      rw [hlast]
      unfold listInit
      rw [prev_setNext, next_setNext, next_setPrev, prev_setPrev]
      by_cases hic : i = count
      · rw [hic, if_pos rfl, if_pos rfl]
        exact ⟨rfl, rfl⟩
      · have hne : Ptr.head list i ≠ Ptr.head list count := fun heq => hic (Ptr.head.inj heq).2
        rw [if_neg hne, if_neg hne]
        exact ih (by omega)

/-- A table that gets another number of buckets holds no key. -/
theorem peCacheSetBucketCount_holds (d : PeCacheData) (BucketCount : UInt16) (malloc : Bool)
    (hinit : d.bInit = false) (hcount : BucketCount ≠ 0)
    (hother : d.lookupTB.bucket_count ≠ BucketCount)
    (hcompare : d.lookupTB.compare_item = some comparePeCache)
    (hhash : d.lookupTB.hash_calc = some hashCalc) :
    Holds (peCacheSetBucketCount d BucketCount malloc) ∅ := by
  unfold peCacheSetBucketCount
  rw [if_neg hcount, if_neg hother]
  cases malloc with
  | false => exact ⟨hinit, Or.inl ⟨rfl, rfl⟩⟩
  | true =>
      rw [if_neg Bool.noConfusion]
      refine ⟨hinit, Or.inr ⟨d.lists, List.replicate BucketCount.toNat [],
        ⟨hcount, rfl, hcompare, hhash⟩,
        chained_replicate _ BucketCount d.lists (fun i hi => ?_) (fun i hi => ?_), ?_, ?_⟩⟩
      · exact (initHeads_spec d.mem.links d.lists _ i (Nat.lt_succ_of_lt hi)).1
      · exact (initHeads_spec d.mem.links d.lists _ i (Nat.lt_succ_of_lt hi)).2
      · rw [List.flatten_replicate_nil]
        exact fun x hx => absurd hx List.not_mem_nil
      · rw [List.flatten_replicate_nil]
        simp only [Finset.notMem_empty, List.map_nil, List.not_mem_nil, implies_true]

/-- A constructor leaves no key in the table. -/
theorem peCacheInit_holds (d : PeCacheData) (hinit : d.bInit = false) (malloc : Bool) :
    Holds (peCacheInit d malloc) ∅ := by
  have hzero : (peCacheInitInternal d.lookupTB 8).bucket_count ≠ 1000 := by
    show (0 : UInt16) ≠ 1000
    decide
  exact peCacheSetBucketCount_holds _ 1000 malloc hinit (by decide) hzero rfl rfl

/-- A query returns true exactly for the keys in the table, and leaves them. -/
theorem peCacheQueryCache_spec (d : PeCacheData) (keys : Finset PeCacheItemKey) (h : Holds d keys)
    (a : CacheArgs) (ha : a.Accepted) :
    ∃ retval cache, peCacheQueryCache d true a = some (retval, cache) ∧
      (retval ≠ bfalse ↔ createPECacheItem a ∈ keys) ∧ Holds cache keys := by
  have halloc := h.alloc (createPECacheItem a)
  unfold peCacheQueryCache
  rw [if_neg (not_not_intro ha), if_neg Bool.noConfusion]
  rcases h.table with ⟨hnone, hempty⟩ | ⟨list, chains, hset, hchained, hitems, hkeys⟩
  · have hquery : hashtbQueryItem (d.items + 1) (d.alloc (createPECacheItem a)).mem d.lookupTB
        (createPECacheItem a) = some none := if_pos hnone
    rw [hquery]
    refine ⟨bfalse, _, rfl, ?_, halloc⟩
    simp only [hempty, Finset.notMem_empty, ne_eq, not_true_eq_false]
  · have hfresh : d.items ∉ chains.flatten := fun hmem => Nat.lt_irrefl _ (hitems _ hmem)
    rcases queryItem_spec hset (hchained.create d.items (createPECacheItem a) hfresh)
      (createPECacheItem a) (d.items + 1)
      (Nat.lt_succ_of_le (length_flatten_le hchained d.items hitems)) with ⟨found, hquery, hfound⟩
    rw [map_create d.items _ hfresh, ← hkeys] at hfound
    have hquery' : hashtbQueryItem (d.items + 1) (d.alloc (createPECacheItem a)).mem d.lookupTB
        (createPECacheItem a) = some found := hquery
    rw [hquery', ← hfound]
    cases found with
    | none => exact ⟨bfalse, _, rfl, iff_of_false (not_not_intro rfl) Bool.false_ne_true, halloc⟩
    | some entry => exact ⟨btrue, _, rfl, iff_of_true (by decide) rfl, halloc⟩

/-- An insert that returns true puts the key into the table, and one that
    returns false leaves the keys. -/
theorem peCacheInsert_spec (d : PeCacheData) (keys : Finset PeCacheItemKey) (h : Holds d keys)
    (a : CacheArgs) (ha : a.Accepted) :
    ∃ retval cache, peCacheInsert d true a = some (retval, cache) ∧
      (retval ≠ bfalse → Holds cache (Insert.insert (createPECacheItem a) keys)) ∧
      (retval = bfalse → Holds cache keys) := by
  have halloc := h.alloc (createPECacheItem a)
  unfold peCacheInsert
  rw [if_neg (not_not_intro ha), if_neg Bool.noConfusion]
  -- Without a table nothing is inserted.
  rcases h.table with ⟨hnone, hempty⟩ | ⟨list, chains, hset, hchained, hitems, hkeys⟩
  · have hinsert : hashtbInsertItem (d.items + 1) (d.alloc (createPECacheItem a)).mem d.lookupTB
        d.items (createPECacheItem a)
        = some (false, (d.alloc (createPECacheItem a)).mem, d.lookupTB) := by
      unfold hashtbInsertItem insertItem
      rw [if_pos hnone]
    rw [hinsert]
    exact ⟨bfalse, _, rfl, fun hne => absurd rfl hne, fun _ => halloc⟩
  · have hfresh : d.items ∉ chains.flatten := fun hmem => Nat.lt_irrefl _ (hitems _ hmem)
    have hcreated := hchained.create d.items (createPECacheItem a) hfresh
    have hkey : (d.mem.create d.items (createPECacheItem a)).key d.items = createPECacheItem a :=
      if_pos rfl
    have hpath : (createPECacheItem a).FilePathBuffer ≠ [] := fun hnil => ha (Or.inl hnil)
    have hspec := insertItem_spec hset hcreated d.items hfresh (by rw [hkey]; exact hpath)
      (d.items + 1) (Nat.lt_succ_of_le (length_flatten_le hchained d.items hitems))
    rw [hkey] at hspec
    -- The key is there already, or the new item is put into its bucket.
    rcases hspec with ⟨-, hinsert⟩ | ⟨-, links, chains', hinsert, hchained', hperm⟩
    · have hinsert' : hashtbInsertItem (d.items + 1) (d.alloc (createPECacheItem a)).mem
          d.lookupTB d.items (createPECacheItem a)
          = some (false, (d.alloc (createPECacheItem a)).mem, d.lookupTB) := hinsert
      rw [hinsert']
      exact ⟨bfalse, _, rfl, fun hne => absurd rfl hne, fun _ => halloc⟩
    · have hinsert' : hashtbInsertItem (d.items + 1) (d.alloc (createPECacheItem a)).mem
          d.lookupTB d.items (createPECacheItem a)
          = some (true, { (d.alloc (createPECacheItem a)).mem with links := links },
              { d.lookupTB with item_count := d.lookupTB.item_count + 1 }) := hinsert
      rw [hinsert']
      refine ⟨btrue, _, rfl, fun _ => ?_, fun heq => absurd heq (by decide)⟩
      refine ⟨halloc.bInit, Or.inr ⟨list, chains', ⟨hset.buckets, hset.hash_list,
        hset.compare_item, hset.hash_calc⟩, hchained', fun x hx => ?_, fun key => ?_⟩⟩
      · rcases List.mem_cons.mp (hperm.mem_iff.mp hx) with rfl | hold
        · exact Nat.lt_succ_self d.items
        · exact Nat.lt_succ_of_lt (hitems x hold)
      · show _ ↔ key ∈ chains'.flatten.map (d.mem.create d.items (createPECacheItem a)).key
        rw [(hperm.map _).mem_iff, List.map_cons, hkey, List.mem_cons,
          map_create d.items _ hfresh, Finset.mem_insert, hkeys]

/-! ### Calls that return -/

/-- A query that returns, whether its item was created or not. -/
theorem Holds.query {d : PeCacheData} {keys : Finset PeCacheItemKey} (h : Holds d keys)
    (created : Bool) (a : CacheArgs) (retval : UInt32) (cache : PeCacheData)
    (hquery : peCacheQueryCache d created a = some (retval, cache)) :
    Holds cache keys ∧ (retval ≠ bfalse ↔ (a.Accepted → createPECacheItem a ∈ keys)) := by
  by_cases ha : a.Accepted
  · rw [imp_iff_right ha]
    cases created with
    | true =>
        rcases peCacheQueryCache_spec d keys h a ha with ⟨retval', cache', hspec, hret, hholds⟩
        rw [hquery, Option.some.injEq, Prod.mk.injEq] at hspec
        rw [hspec.1, hspec.2]
        exact ⟨hholds, hret⟩
    | false =>
        unfold peCacheQueryCache at hquery
        rw [if_neg (not_not_intro ha), if_pos rfl] at hquery
        -- A table without buckets is not looked into, so that the missing item does no harm.
        by_cases hnone : d.lookupTB.bucket_count = 0
        · rw [if_pos hnone, Option.some.injEq, Prod.mk.injEq] at hquery
          rw [← hquery.1, ← hquery.2]
          rcases h.table with ⟨-, hempty⟩ | ⟨list, chains, hset, -⟩
          · refine ⟨h, iff_of_false (not_not_intro rfl) ?_⟩
            rw [hempty]
            exact Finset.notMem_empty _
          · exact absurd hnone hset.buckets
        · rw [if_neg hnone] at hquery
          exact absurd hquery (by simp only [reduceCtorEq, not_false_eq_true])
  · unfold peCacheQueryCache at hquery
    rw [if_pos ha, Option.some.injEq, Prod.mk.injEq] at hquery
    rw [← hquery.1, ← hquery.2]
    exact ⟨h, iff_of_true (by decide) (fun hacc => absurd hacc ha)⟩

/-- An insert that returns, whether its item was created or not. -/
theorem Holds.insert {d : PeCacheData} {keys : Finset PeCacheItemKey} (h : Holds d keys)
    (created : Bool) (a : CacheArgs) (retval : UInt32) (cache : PeCacheData)
    (hinsert : peCacheInsert d created a = some (retval, cache)) :
    Holds cache (if a.Accepted ∧ retval ≠ bfalse then Insert.insert (createPECacheItem a) keys
      else keys) ∧ (¬ a.Accepted → retval ≠ bfalse) := by
  by_cases ha : a.Accepted
  · refine ⟨?_, fun hnot => absurd ha hnot⟩
    cases created with
    | true =>
        rcases peCacheInsert_spec d keys h a ha with ⟨retval', cache', hspec, hin, hout⟩
        rw [hinsert, Option.some.injEq, Prod.mk.injEq] at hspec
        rw [hspec.1, hspec.2]
        by_cases hret : retval' = bfalse
        · rw [if_neg (fun hboth => hboth.2 hret)]
          exact hout hret
        · rw [if_pos ⟨ha, hret⟩]
          exact hin hret
    | false =>
        unfold peCacheInsert at hinsert
        rw [if_neg (not_not_intro ha), if_pos rfl] at hinsert
        exact absurd hinsert (by simp only [reduceCtorEq, not_false_eq_true])
  · rw [if_neg (fun hboth => ha hboth.1)]
    unfold peCacheInsert at hinsert
    rw [if_pos ha, Option.some.injEq, Prod.mk.injEq] at hinsert
    rw [← hinsert.1, ← hinsert.2]
    exact ⟨h, fun _ => by decide⟩

/-- Nothing sets `bInit`, so that clearing the cache does nothing. -/
theorem Holds.clear {d : PeCacheData} {keys : Finset PeCacheItemKey} (h : Holds d keys) :
    peCacheClearAllCache d = some (bfalse, d) :=
  if_pos h.bInit

/-! ### Runs -/

/-- The table holds some keys, and the files that were put in had arguments
    that are accepted. -/
structure Inv (s : State) : Prop where
  holds : ∃ keys, Holds s.cache keys
  accepted : ∀ a ∈ s.inserted, a.Accepted

theorem start_inv (mem : Mem) : Inv (start mem) where
  holds := ⟨∅, rfl, Or.inl ⟨rfl, rfl⟩⟩
  accepted := fun a ha => absurd ha (Finset.notMem_empty a)

/-- What a step leaves in the table and among the files that were put in. -/
def Leaves (s t : State) (keys : Finset PeCacheItemKey) : Label → Prop
  | .construct _ => Holds t.cache ∅ ∧ t.inserted = s.inserted
  | .query created a => ∃ retval,
      peCacheQueryCache s.cache created a = some (retval, t.cache) ∧
      (retval ≠ bfalse ↔ (a.Accepted → createPECacheItem a ∈ keys)) ∧
      Holds t.cache keys ∧ t.inserted = s.inserted
  | .insert created a => ∃ retval,
      peCacheInsert s.cache created a = some (retval, t.cache) ∧
      (¬ a.Accepted → retval ≠ bfalse) ∧
      ((a.Accepted ∧ Holds t.cache (Insert.insert (createPECacheItem a) keys) ∧
          t.inserted = Insert.insert a s.inserted) ∨
        (Holds t.cache keys ∧ t.inserted = s.inserted))
  | .clear => Holds t.cache keys ∧ t.inserted = ∅

theorem step_leaves (s t : State) (l : Label) (keys : Finset PeCacheItemKey)
    (h : Holds s.cache keys) (hstep : step s l = some t) : Leaves s t keys l := by
  unfold step at hstep
  cases l with
  | construct malloc =>
      rw [← Option.some.inj hstep]
      exact ⟨peCacheInit_holds s.cache h.bInit malloc, rfl⟩
  | query created a =>
      dsimp only at hstep
      cases hquery : peCacheQueryCache s.cache created a with
      | none =>
          rw [hquery] at hstep
          exact absurd hstep (by simp only [reduceCtorEq, not_false_eq_true])
      | some result =>
          rcases result with ⟨retval, cache⟩
          rw [hquery] at hstep
          rcases h.query created a retval cache hquery with ⟨hholds, hret⟩
          rw [← Option.some.inj hstep]
          exact ⟨retval, hquery, hret, hholds, rfl⟩
  | insert created a =>
      dsimp only at hstep
      cases hinsert : peCacheInsert s.cache created a with
      | none =>
          rw [hinsert] at hstep
          exact absurd hstep (by simp only [reduceCtorEq, not_false_eq_true])
      | some result =>
          rcases result with ⟨retval, cache⟩
          rw [hinsert] at hstep
          rcases h.insert created a retval cache hinsert with ⟨hholds, hret⟩
          rw [← Option.some.inj hstep]
          refine ⟨retval, hinsert, hret, ?_⟩
          dsimp only
          -- The keys grow only with an item that was accepted and inserted.
          by_cases hboth : a.Accepted ∧ retval ≠ bfalse
          · rw [if_pos hboth] at hholds ⊢
            exact Or.inl ⟨hboth.1, hholds, rfl⟩
          · rw [if_neg hboth] at hholds ⊢
            exact Or.inr ⟨hholds, rfl⟩
  | clear =>
      dsimp only at hstep
      rw [h.clear] at hstep
      rw [← Option.some.inj hstep]
      exact ⟨h, rfl⟩

theorem step_inv (s : State) (l : Label) (t : State) (h : Inv s) (hstep : step s l = some t) :
    Inv t := by
  rcases h.holds with ⟨keys, hkeys⟩
  have hleaves := step_leaves s t l keys hkeys hstep
  cases l with
  | construct malloc => exact ⟨⟨∅, hleaves.1⟩, hleaves.2 ▸ h.accepted⟩
  | query created a =>
      rcases hleaves with ⟨retval, -, -, hcache, hinserted⟩
      exact ⟨⟨keys, hcache⟩, hinserted ▸ h.accepted⟩
  | insert created a =>
      rcases hleaves with ⟨retval, -, -, ⟨ha, hcache, hinserted⟩ | ⟨hcache, hinserted⟩⟩
      · refine ⟨⟨_, hcache⟩, fun b hb => ?_⟩
        rw [hinserted] at hb
        rcases Finset.mem_insert.mp hb with rfl | hold
        · exact ha
        · exact h.accepted b hold
      · exact ⟨⟨keys, hcache⟩, hinserted ▸ h.accepted⟩
  | clear =>
      refine ⟨⟨keys, hleaves.1⟩, fun b hb => ?_⟩
      rw [hleaves.2] at hb
      exact absurd hb (Finset.notMem_empty b)

/-- The cache is exact when the keys in the table are those of the files that
    were put in. -/
theorem exact_iff_keys (s : State) (keys : Finset PeCacheItemKey) (h : Holds s.cache keys) :
    Exact s ↔ ∀ a : CacheArgs, a.Accepted → (createPECacheItem a ∈ keys ↔ a ∈ s.inserted) := by
  constructor
  · intro hexact a ha
    rcases hexact a ha with ⟨retval, cache, hquery, hret⟩
    rw [← hret, (h.query true a retval cache hquery).2, imp_iff_right ha]
  · intro hsame a ha
    rcases peCacheQueryCache_spec s.cache keys h a ha with ⟨retval, cache, hquery, hret, -⟩
    exact ⟨retval, cache, hquery, hret.trans (hsame a ha)⟩

/-- A table without keys is exact when no file was put in. -/
theorem exact_iff_empty (s : State) (h : Holds s.cache ∅)
    (haccepted : ∀ a ∈ s.inserted, a.Accepted) : Exact s ↔ s.inserted = ∅ := by
  rw [exact_iff_keys s ∅ h]
  constructor
  · intro hsame
    rw [Finset.eq_empty_iff_forall_notMem]
    intro a ha
    exact Finset.notMem_empty _ ((hsame a (haccepted a ha)).mpr ha)
  · intro hempty a _
    rw [hempty]
    exact iff_of_false (Finset.notMem_empty _) (Finset.notMem_empty _)

/-- A query comes back when its arguments are rejected, its item can be created,
    or the table has no buckets. -/
theorem query_returns (d : PeCacheData) (keys : Finset PeCacheItemKey) (h : Holds d keys)
    (created : Bool) (a : CacheArgs) :
    (∃ retval cache, peCacheQueryCache d created a = some (retval, cache)) ↔
      (a.Accepted → created = true ∨ d.lookupTB.bucket_count = 0) := by
  by_cases ha : a.Accepted
  · rw [imp_iff_right ha]
    cases created with
    | true =>
        rcases peCacheQueryCache_spec d keys h a ha with ⟨retval, cache, hquery, -⟩
        exact iff_of_true ⟨retval, cache, hquery⟩ (Or.inl rfl)
    | false =>
        unfold peCacheQueryCache
        rw [if_neg (not_not_intro ha), if_pos rfl]
        by_cases hnone : d.lookupTB.bucket_count = 0
        · rw [if_pos hnone]
          exact iff_of_true ⟨_, _, rfl⟩ (Or.inr hnone)
        · rw [if_neg hnone]
          refine iff_of_false ?_ (fun h => h.elim Bool.false_ne_true hnone)
          simp only [reduceCtorEq, exists_false, not_false_eq_true]
  · exact iff_of_true ⟨_, _, if_pos ha⟩ (fun hacc => absurd hacc ha)

/-- An insert comes back when its arguments are rejected or its item can be
    created. -/
theorem insert_returns (d : PeCacheData) (keys : Finset PeCacheItemKey) (h : Holds d keys)
    (created : Bool) (a : CacheArgs) :
    (∃ retval cache, peCacheInsert d created a = some (retval, cache)) ↔
      (a.Accepted → created = true) := by
  by_cases ha : a.Accepted
  · rw [imp_iff_right ha]
    cases created with
    | true =>
        rcases peCacheInsert_spec d keys h a ha with ⟨retval, cache, hinsert, -⟩
        exact iff_of_true ⟨retval, cache, hinsert⟩ rfl
    | false =>
        unfold peCacheInsert
        rw [if_neg (not_not_intro ha), if_pos rfl]
        refine iff_of_false ?_ Bool.false_ne_true
        simp only [reduceCtorEq, exists_false, not_false_eq_true]
  · exact iff_of_true ⟨_, _, if_pos ha⟩ (fun hacc => absurd hacc ha)

/-- A query of an exact cache comes back and answers as it should exactly when it
    is made duly. -/
theorem query_exact (s : State) (created : Bool) (a : CacheArgs) (h : Inv s) (hexact : Exact s) :
    Answered s (.query created a) ↔ Duly s (.query created a) := by
  rcases h.holds with ⟨keys, hkeys⟩
  have hsame := (exact_iff_keys s keys hkeys).mp hexact
  have hreturns := query_returns s.cache keys hkeys created a
  constructor
  · -- Arguments that are rejected give a true value, for a file never put in.
    rintro ⟨retval, cache, hquery, hanswered⟩
    have ha : a.Accepted := by
      by_contra ha
      have hret := (hkeys.query created a retval cache hquery).2.mpr (fun hacc => absurd hacc ha)
      exact ha (h.accepted a (hanswered.mp hret))
    exact ⟨ha, hreturns.mp ⟨retval, cache, hquery⟩ ha⟩
  · rintro ⟨ha, hitem⟩
    rcases hreturns.mpr (fun _ => hitem) with ⟨retval, cache, hquery⟩
    refine ⟨retval, cache, hquery, ?_⟩
    rw [(hkeys.query created a retval cache hquery).2, imp_iff_right ha]
    exact hsame a ha

theorem insert_exact (s : State) (created : Bool) (a : CacheArgs) (h : Inv s) :
    Answered s (.insert created a) ↔ Duly s (.insert created a) := by
  rcases h.holds with ⟨keys, hkeys⟩
  have hreturns := insert_returns s.cache keys hkeys created a
  constructor
  · rintro ⟨retval, cache, hinsert, hanswered⟩
    have ha : a.Accepted := by
      by_contra ha
      exact (hkeys.insert created a retval cache hinsert).2 ha (hanswered ha)
    exact ⟨ha, hreturns.mp ⟨retval, cache, hinsert⟩ ha⟩
  · rintro ⟨ha, hitem⟩
    rcases hreturns.mpr (fun _ => hitem) with ⟨retval, cache, hinsert⟩
    exact ⟨retval, cache, hinsert, fun hnot => absurd ha hnot⟩

/-- A query and an insert leave the cache exact. -/
theorem exact_of_call (s t : State) (l : Label) (h : Inv s) (hexact : Exact s)
    (hstep : step s l = some t) (hconstruct : ∀ malloc, l ≠ .construct malloc)
    (hclear : l ≠ .clear) : Exact t := by
  rcases h.holds with ⟨keys, hkeys⟩
  have hleaves := step_leaves s t l keys hkeys hstep
  have hsame := (exact_iff_keys s keys hkeys).mp hexact
  cases l with
  | construct malloc => exact absurd rfl (hconstruct malloc)
  | clear => exact absurd rfl hclear
  | query created a =>
      rcases hleaves with ⟨retval, -, -, hcache, hinserted⟩
      rw [exact_iff_keys t keys hcache, hinserted]
      exact hsame
  | insert created a =>
      rcases hleaves with ⟨retval, -, -, ⟨-, hcache, hinserted⟩ | ⟨hcache, hinserted⟩⟩
      · rw [exact_iff_keys t _ hcache, hinserted]
        intro b hb
        rw [Finset.mem_insert, Finset.mem_insert, createPECacheItem_inj, hsame b hb]
      · rw [exact_iff_keys t keys hcache, hinserted]
        exact hsame

/-- A call comes back, answers as it should and leaves the cache exact exactly
    when it is made duly. -/
theorem step_exact (s : State) (l : Label) (h : Inv s) (hexact : Exact s) :
    Answered s l ∧ (∀ t, step s l = some t → Exact t) ↔ Duly s l := by
  rcases h.holds with ⟨keys, hkeys⟩
  have hsame := (exact_iff_keys s keys hkeys).mp hexact
  cases l with
  | construct malloc =>
      -- A new table is empty, and exact only when nothing was put in before.
      have hcache := peCacheInit_holds s.cache hkeys.bInit malloc
      have hempty := exact_iff_empty { s with cache := peCacheInit s.cache malloc } hcache h.accepted
      constructor
      · rintro ⟨-, hall⟩
        exact hempty.mp (hall _ rfl)
      · intro hnone
        refine ⟨trivial, fun t ht => ?_⟩
        rw [← Option.some.inj ht]
        exact hempty.mpr hnone
  | query created a =>
      rw [← query_exact s created a h hexact]
      exact and_iff_left (fun t ht => exact_of_call s t _ h hexact ht
        (fun _ => by simp only [ne_eq, reduceCtorEq, not_false_eq_true])
        (by simp only [ne_eq, reduceCtorEq, not_false_eq_true]))
  | insert created a =>
      rw [← insert_exact s created a h]
      exact and_iff_left (fun t ht => exact_of_call s t _ h hexact ht
        (fun _ => by simp only [ne_eq, reduceCtorEq, not_false_eq_true])
        (by simp only [ne_eq, reduceCtorEq, not_false_eq_true]))
  | clear =>
      -- The table stays as it is, while nothing counts as put in any more.
      have hreturns : Answered s .clear := ⟨bfalse, s.cache, hkeys.clear⟩
      have hstep : step s .clear = some { s with inserted := ∅ } := by
        rw [step, hkeys.clear]
      have hafter := exact_iff_keys { s with inserted := ∅ } keys hkeys
      rw [and_iff_right hreturns]
      constructor
      · intro hall
        have hnone := hafter.mp (hall _ hstep)
        refine Finset.eq_empty_iff_forall_notMem.mpr (fun a ha => ?_)
        have hacc := h.accepted a ha
        exact Finset.notMem_empty a ((hnone a hacc).mp ((hsame a hacc).mpr ha))
      · intro hempty t ht
        rw [hstep, Option.some.injEq] at ht
        rw [← ht, hafter]
        intro a ha
        rw [hsame a ha, show s.inserted = ∅ from hempty]

/-- From a table that is zero, the calls come back and answer as they should with
    the cache exact throughout, up to one that does not come back, exactly when
    they are made duly. -/
theorem exact_iff (mem : Mem) (ls : List Label) :
    Throughout step Exact (start mem) ls ∧ StepsMeet step Answered (start mem) ls ↔
      StepsMeet step Duly (start mem) ls := by
  have h0 := start_inv mem
  refine throughout_and_iff step Inv Exact Answered Duly step_inv step_exact (start mem) ls h0 ?_
  rw [exact_iff_empty (start mem) ⟨rfl, Or.inl ⟨rfl, rfl⟩⟩ h0.accepted]
  rfl

/-- A file without a path is found, although no file was put in. -/
theorem exact_rejected :
    ¬ ∀ (mem : Mem) (ls : List Label),
      Throughout step Exact (start mem) ls ∧ StepsMeet step Answered (start mem) ls := by
  intro h
  have hquery : peCacheQueryCache (start emptyMem).cache true ⟨[], 1, 1⟩
      = some (statusInvalidParameter, (start emptyMem).cache) := rfl
  rcases (h emptyMem [.query true ⟨[], 1, 1⟩]).2.1 with ⟨retval, cache, hresult, hanswered⟩
  rw [hquery, Option.some.injEq, Prod.mk.injEq] at hresult
  rw [← hresult.1] at hanswered
  exact absurd (hanswered.mp (by decide)) (Finset.notMem_empty _)

end PECache

end Cache

end Defender
