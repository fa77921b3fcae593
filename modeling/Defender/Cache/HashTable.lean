import Defender.Lib.RingList

/-!
# The Hash Table of the Cache

A table of buckets, each a ring of items with its head in the array
`hash_list`. An item's key is a path with its length, a size and a write time;
the bucket is a hash of these, reduced modulo the number of buckets.

Memory is a store of list heads, those of the arrays and those at the beginning
of the items, and of the keys of the items. What reads a null pointer, and what
does not come to an end in the steps it is given, has no result.

The functions are called with a table that may not have been set up, and look
for that: without buckets, or without a function that hashes or compares.

## Main definitions

* `PeCacheItemKey`, `hashkey`, `hashCalc`, `comparePeCache`: Keys.
* `Ptr`, `Mem`, `HashTb`: Memory and the table.
* `listAddTail`, `listInit`, `listIsEmpty`, `listRemoveItem`: The list macros.
* `hashtbInsertItem`, `hashtbQueryItem`, `hashtbRemoveAll`: The operations.

## Theorems

* `hashCalc_lt`: The hash is the index of a bucket.
* `comparePeCache_iff`: What compares equal.
-/

namespace Defender

namespace Cache

open RingList

/-! ### Keys -/

/-- `PE_CACHE_ITEM_KEY`. -/
structure PeCacheItemKey where
  FilePathBuffer : List UInt16
  FilePathLen : Int32
  FileSize : UInt64
  LastWriteTime : UInt64
  deriving DecidableEq, Repr

/-- `FNV_32_PRIME`. -/
def fnv32Prime : UInt32 := 0x01000193

/-- `FNV1_32_INIT`. -/
def fnv1Init : UInt32 := 0x811c9dc5

/-- `hashkey`, over the first `len` bytes. -/
def hashkey (pdata : List UInt8) (len : Int32) : UInt32 :=
  (pdata.take len.toInt.toNat).foldl (fun hash d => (hash ^^^ d.toUInt32) * fnv32Prime) fnv1Init

/-- The bytes of a `ULONGLONG`. -/
def le64 (v : UInt64) : List UInt8 :=
  (List.range 8).map (fun i => (v.toNat >>> (8 * i)).toUInt8)

/-- The bytes of a path. -/
def pathBytes (path : List UInt16) : List UInt8 :=
  path.flatMap (fun c : UInt16 => [c.toUInt8, (c >>> 8).toUInt8])

/-- `__hashCalc`. -/
def hashCalc (bucket_count : UInt16) (key : PeCacheItemKey) : UInt32 :=
  let HashKey := hashkey (le64 key.FileSize) 8 + hashkey (le64 key.LastWriteTime) 8
  let HashKey2 := hashkey (pathBytes key.FilePathBuffer) (key.FilePathLen * 2)
  (HashKey2 + HashKey) % bucket_count.toUInt32

/-- `__ComparePeCache`. -/
def comparePeCache (key1 key2 : PeCacheItemKey) : Bool :=
  if key1.FilePathBuffer = [] ∨ key2.FilePathBuffer = [] then false
  else if key1.FileSize ≠ key2.FileSize ∨ key1.LastWriteTime ≠ key2.LastWriteTime ∨
      key1.FilePathLen ≠ key2.FilePathLen then false
  else if key1.FilePathBuffer ≠ key2.FilePathBuffer then false
  else true

/-! ### Memory -/

/-- Where a `LIST_HEAD` is: the entry of an array, or the beginning of an item. -/
inductive Ptr where
  | head (list i : Nat)
  | item (id : Nat)
  deriving DecidableEq, Repr

/-- The list heads in memory, and the keys of the items. -/
structure Mem where
  links : Links Ptr
  key : Nat → PeCacheItemKey

/-- `HASHTB`. The functions that give an item's key and release it are those of
    the cache. -/
structure HashTb where
  bucket_count : UInt16
  hash_list : Option Nat
  item_count : Int32
  compare_item : Option (PeCacheItemKey → PeCacheItemKey → Bool)
  hash_calc : Option (UInt16 → PeCacheItemKey → UInt32)

/-- `__list_add_tail`. -/
def listAddTail (links : Links Ptr) (head item : Ptr) : Option (Links Ptr) :=
  match links.prev head with
  | none => none
  | some prev =>
      some ((((links.setNext item (some head)).setPrev item (some prev)).setNext prev
        (some item)).setPrev head (some item))

/-- `__list_init`. -/
def listInit (links : Links Ptr) (list : Ptr) : Links Ptr :=
  (links.setPrev list (some list)).setNext list (some list)

/-- `__list_is_empty`. -/
def listIsEmpty (links : Links Ptr) (list : Ptr) : Bool :=
  links.prev list = some list

/-- `__list_remove_item`. -/
def listRemoveItem (links : Links Ptr) (item : Ptr) : Option (Links Ptr) :=
  match links.prev item, links.next item with
  | some prev, some next => some ((links.setNext prev (some next)).setPrev next (some prev))
  | _, _ => none

/-- `__PeCacheRelease`, which clears the path of the item. -/
def peCacheRelease (m : Mem) : Ptr → Mem
  | .head _ _ => m
  | .item id =>
      { m with key := fun x =>
          if x = id then { m.key id with FilePathBuffer := [] } else m.key x }

/-! ### The operations -/

/-- `hashtb_hash`. -/
def hashtbHash (table : HashTb) (val : PeCacheItemKey) : UInt32 :=
  match table.hash_calc with
  | none => 0
  | some hash_calc => hash_calc table.bucket_count val

/-- `__hashtb_equal`. -/
def hashtbEqual (table : HashTb) (m : Mem) (val : PeCacheItemKey) : Ptr → Bool
  | .head _ _ => false
  | .item id =>
      match table.compare_item with
      | none => false
      | some compare_item => compare_item (m.key id) val

/-- `__hashtb_insert_item`. -/
def insertItem (fuel : Nat) (m : Mem) (table : HashTb) (item : Nat) (val : PeCacheItemKey) :
    Option (Bool × Mem) :=
  if table.bucket_count = 0 then some (false, m)
  else
    match table.hash_list with
    | none => none
    | some list =>
        let head := Ptr.head list (hashtbHash table val).toNat
        match walk m.links head (hashtbEqual table m val) fuel (m.links.next head) with
        -- An item with this key is there.
        | .found _ => some (false, m)
        | .ended =>
            match listAddTail m.links head (.item item) with
            | none => none
            | some links => some (true, { m with links := links })
        -- The loop reads through a pointer that was never set.
        | .null => none
        | .outOfFuel => none

/-- `hashtb_insert_item`. -/
def hashtbInsertItem (fuel : Nat) (m : Mem) (table : HashTb) (item : Nat) (val : PeCacheItemKey) :
    Option (Bool × Mem × HashTb) :=
  match insertItem fuel m table item val with
  | none => none
  | some (false, m) => some (false, m, table)
  | some (true, m) => some (true, m, { table with item_count := table.item_count + 1 })

/-- `hashtb_query_item`. -/
def hashtbQueryItem (fuel : Nat) (m : Mem) (table : HashTb) (val : PeCacheItemKey) :
    Option (Option Ptr) :=
  if table.bucket_count = 0 then some none
  else
    match table.hash_list with
    | none => none
    | some list =>
        let head := Ptr.head list (hashtbHash table val).toNat
        match m.links.next head with
        -- The source tests both pointers before its loop.
        | none => some none
        | some entry =>
            if m.links.next entry = none then some none
            else
              match walk m.links head (hashtbEqual table m val) fuel (some entry) with
              | .found entry => some (some entry)
              | .ended => some none
              | .null => some none
              | .outOfFuel => none

/-- The loop of `hashtb_remove_all` over one bucket. -/
def removeBucket (header : Ptr) : Nat → Mem × HashTb → Option (Mem × HashTb)
  | 0, _ => none
  | fuel + 1, (m, table) =>
      if listIsEmpty m.links header = true then some (m, table)
      else
        match m.links.next header with
        | none => none
        | some entry =>
            match listRemoveItem m.links entry with
            | none => none
            | some links =>
                removeBucket header fuel
                  (peCacheRelease { m with links := listInit links entry } entry,
                    { table with item_count := table.item_count - 1 })

/-- `hashtb_remove_all`. -/
def hashtbRemoveAll (fuel : Nat) (m : Mem) (table : HashTb) : Option (Mem × HashTb) :=
  if table.bucket_count = 0 then some (m, table)
  else
    match table.hash_list with
    | none => none
    | some list =>
        (List.range table.bucket_count.toNat).foldlM
          (fun s i => removeBucket (.head list i) fuel s) (m, table)

/-! ### What hashes and compares -/

/-- The hash is the index of a bucket. -/
theorem hashCalc_lt (bucket_count : UInt16) (key : PeCacheItemKey) (h : bucket_count ≠ 0) :
    (hashCalc bucket_count key).toNat < bucket_count.toNat := by
  have hpos : 0 < bucket_count.toNat :=
    Nat.pos_of_ne_zero (fun hzero => h (UInt16.toNat_inj.mp hzero))
  unfold hashCalc
  rw [UInt32.toNat_mod, UInt16.toNat_toUInt32]
  exact Nat.mod_lt _ hpos

/-- Two keys compare equal when they are the same and have a path. -/
theorem comparePeCache_iff (key1 key2 : PeCacheItemKey) :
    comparePeCache key1 key2 = true ↔ key1 = key2 ∧ key1.FilePathBuffer ≠ [] := by
  rcases key1 with ⟨path1, len1, size1, time1⟩
  rcases key2 with ⟨path2, len2, size2, time2⟩
  unfold comparePeCache
  dsimp only
  constructor
  · intro h
    split at h
    · exact absurd h Bool.false_ne_true
    · next hpaths =>
        split at h
        · exact absurd h Bool.false_ne_true
        · next hfields =>
            split at h
            · exact absurd h Bool.false_ne_true
            · next hsame =>
                simp only [not_or, ne_eq, Decidable.not_not] at hpaths hfields hsame
                rcases hfields with ⟨hsize, htime, hlen⟩
                subst hsize htime hlen hsame
                exact ⟨rfl, hpaths.1⟩
  · rintro ⟨heq, hpath⟩
    rcases PeCacheItemKey.mk.inj heq with ⟨rfl, rfl, rfl, rfl⟩
    simp only [hpath, or_self, if_false, ne_eq, not_true_eq_false]

end Cache

end Defender
