import Defender.Cache.Chains
import Mathlib.Data.Finset.Card
import Mathlib.Data.Finset.Dedup

/-!
# The Table as a Set of Keys

What the hash table is for: to tell of a key whether it was put in. `specStep`
says so of a finite set of keys, and the table is run beside it.

`Represents` relates the two. The operations keep it, and return what the set
says (`step_refines`), so a run of the table from empty buckets returns what
the run of the set does, and comes to the same keys. The number of items is
that of the keys.

It is counted in a `long`, which has 32 bits. So the count is the number of
items up to `2147483647`, and behind that the number reduced to a `long`.

## Main definitions

* `Op`, `Result`, `step`, `run`: Calls of the three operations.
* `specStep`, `specRun`: The same calls of a set of keys.
* `Initialised`: All buckets are empty.
* `Represents`: The table holds these keys.
* `GoesAs`: A call that goes as it does for the set.

## Theorems

* `step_refines`, `run_refines`: The table returns what the set does.
* `table_refines`: A run from empty buckets.
* `itemCount_wraps`: More items than a `long` counts.
-/

namespace Defender

namespace Cache

open RingList

/-- A call: of `hashtb_insert_item` with an item made for the key, of
    `hashtb_query_item`, or of `hashtb_remove_all`. -/
inductive Op where
  | insert (item : Nat) (key : PeCacheItemKey)
  | query (key : PeCacheItemKey)
  | removeAll
  deriving DecidableEq, Repr

/-- What a call returns, where a pointer is told from null. -/
inductive Result where
  | inserted (retval : Bool)
  | found (retval : Bool)
  | removed
  deriving DecidableEq, Repr

/-- An item is made, with its key. -/
def Mem.create (m : Mem) (item : Nat) (key : PeCacheItemKey) : Mem :=
  { m with key := fun x => if x = item then key else m.key x }

/-- One call. -/
def step (fuel : Nat) (s : Mem × HashTb) : Op → Option ((Mem × HashTb) × Result)
  | .insert item key =>
      match hashtbInsertItem fuel (s.1.create item key) s.2 item key with
      | none => none
      | some (retval, m, table) => some ((m, table), .inserted retval)
  | .query key =>
      match hashtbQueryItem fuel s.1 s.2 key with
      | none => none
      | some found => some (s, .found found.isSome)
  | .removeAll =>
      match hashtbRemoveAll fuel s.1 s.2 with
      | none => none
      | some s => some (s, .removed)

/-- Calls one after the other. -/
def run (fuel : Nat) (s : Mem × HashTb) : List Op → Option ((Mem × HashTb) × List Result)
  | [] => some (s, [])
  | op :: ops =>
      match step fuel s op with
      | none => none
      | some (s, r) =>
          match run fuel s ops with
          | none => none
          | some (s, rs) => some (s, r :: rs)

/-- One call of a set of keys. -/
def specStep (keys : Finset PeCacheItemKey) : Op → Finset PeCacheItemKey × Result
  | .insert _ key => (insert key keys, .inserted (decide (key ∉ keys)))
  | .query key => (keys, .found (decide (key ∈ keys)))
  | .removeAll => (∅, .removed)

/-- Calls of a set of keys. -/
def specRun (keys : Finset PeCacheItemKey) : List Op → Finset PeCacheItemKey × List Result
  | [] => (keys, [])
  | op :: ops =>
      ((specRun (specStep keys op).1 ops).1,
        (specStep keys op).2 :: (specRun (specStep keys op).1 ops).2)

/-- The items a call is given. -/
def Op.items : Op → List Nat
  | .insert item _ => [item]
  | _ => []

/-- An item that is put in has a path. -/
def Op.HasPath : Op → Prop
  | .insert _ key => key.FilePathBuffer ≠ []
  | _ => True

instance (op : Op) : Decidable op.HasPath :=
  match op with
  | .insert _ _ => inferInstanceAs (Decidable (_ ≠ _))
  | .query _ | .removeAll => isTrue trivial

/-- All buckets are empty, and nothing is counted. -/
structure Initialised (m : Mem) (table : HashTb) (list : Nat) : Prop where
  prev : ∀ i < table.bucket_count.toNat, m.links.prev (.head list i) = some (.head list i)
  next : ∀ i < table.bucket_count.toNat, m.links.next (.head list i) = some (.head list i)
  item_count : table.item_count = 0

/-! ### One call -/

/-- The table holds these keys. -/
structure Represents (s : Mem × HashTb) (list : Nat) (chains : List (List Nat))
    (keys : Finset PeCacheItemKey) : Prop where
  setUp : SetUp s.2 list
  chained : Chained s.1 s.2.bucket_count list chains
  counted : Counted 0 s.2 chains
  mem_keys : ∀ key, key ∈ keys ↔ key ∈ chains.flatten.map s.1.key

/-- An item that is in no bucket is made. -/
theorem Chained.create {m : Mem} {b : UInt16} {list : Nat} {chains : List (List Nat)}
    (h : Chained m b list chains) (item : Nat) (key : PeCacheItemKey)
    (hitem : item ∉ chains.flatten) : Chained (m.create item key) b list chains :=
  h.congr _ (fun _ _ _ _ _ => rfl) (fun _ _ _ _ _ => rfl)
    (fun x hx => if_neg (fun heq : x = item => hitem (heq ▸ hx)))

theorem map_create {m : Mem} {chains : List (List Nat)} (item : Nat) (key : PeCacheItemKey)
    (hitem : item ∉ chains.flatten) :
    chains.flatten.map (m.create item key).key = chains.flatten.map m.key :=
  List.map_congr_left (fun x hx => if_neg (fun heq : x = item => hitem (heq ▸ hx)))

/-- A call that goes as it does for the set of keys: it returns the same, the
    table then holds the keys of the set, and at most its item is new. -/
def GoesAs (fuel : Nat) (s : Mem × HashTb) (list : Nat) (chains : List (List Nat))
    (keys : Finset PeCacheItemKey) (op : Op) : Prop :=
  ∃ t chains', step fuel s op = some (t, (specStep keys op).2) ∧
    Represents t list chains' (specStep keys op).1 ∧ t.2.bucket_count = s.2.bucket_count ∧
    (∀ x ∈ chains'.flatten, x ∈ op.items ∨ x ∈ chains.flatten) ∧
    chains'.flatten.length ≤ chains.flatten.length + 1

variable {s : Mem × HashTb} {list : Nat} {chains : List (List Nat)} {keys : Finset PeCacheItemKey}

theorem Represents.insert (h : Represents s list chains keys) (item : Nat) (key : PeCacheItemKey)
    (hitem : item ∉ chains.flatten) (hpath : key.FilePathBuffer ≠ []) (fuel : Nat)
    (hfuel : chains.flatten.length < fuel) : GoesAs fuel s list chains keys (.insert item key) := by
  rcases s with ⟨m, table⟩
  have hcreated := h.chained.create item key hitem
  have hkey : (m.create item key).key item = key := if_pos rfl
  have hspec := insertItem_spec h.setUp hcreated item hitem (by rw [hkey]; exact hpath) fuel hfuel
  rw [hkey, map_create item key hitem, ← h.mem_keys] at hspec
  -- An equal item is there and the table is as it was, or the item is put in.
  rcases hspec with ⟨hmem, hrun⟩ | ⟨hnew, links, chains', hrun, hchained, hperm⟩
  · refine ⟨(m.create item key, table), chains, ?_, ⟨h.setUp, hcreated, h.counted, ?_⟩, rfl,
      fun x hx => Or.inr hx, Nat.le_succ _⟩
    · rw [step, hrun]
      simp only [specStep, hmem, not_true_eq_false, decide_false]
    · intro k
      rw [map_create item key hitem, ← h.mem_keys, specStep, Finset.insert_eq_of_mem hmem]
  · refine ⟨({ m.create item key with links := links },
        { table with item_count := table.item_count + 1 }), chains', ?_,
      ⟨⟨h.setUp.buckets, h.setUp.hash_list, h.setUp.compare_item, h.setUp.hash_calc⟩, hchained,
        ?_, ?_⟩, rfl, ?_, ?_⟩
    · rw [step, hrun]
      simp only [specStep, hnew, not_false_eq_true, decide_true]
    · -- One item more is counted.
      show table.item_count + 1 = 0 + Int32.ofNat chains'.flatten.length
      rw [hperm.length_eq, List.length_cons, Int32.ofNat_add, ← Int32.add_assoc,
        show table.item_count = 0 + Int32.ofNat chains.flatten.length from h.counted]
      rfl
    · intro k
      rw [(hperm.map _).mem_iff, List.map_cons, List.mem_cons, specStep, Finset.mem_insert,
        h.mem_keys, ← map_create item key hitem]
      refine or_congr_left ?_
      show k = key ↔ k = (m.create item key).key item
      rw [hkey]
    · intro x hx
      rcases List.mem_cons.mp (hperm.mem_iff.mp hx) with rfl | hold
      · exact Or.inl (List.mem_singleton_self x)
      · exact Or.inr hold
    · exact Nat.le_of_eq hperm.length_eq

theorem Represents.query (h : Represents s list chains keys) (key : PeCacheItemKey) (fuel : Nat)
    (hfuel : chains.flatten.length < fuel) : GoesAs fuel s list chains keys (.query key) := by
  rcases queryItem_spec h.setUp h.chained key fuel hfuel with ⟨found, hrun, hfound⟩
  rw [← h.mem_keys] at hfound
  refine ⟨s, chains, ?_, h, rfl, fun x hx => Or.inr hx, Nat.le_succ _⟩
  rw [step, hrun]
  dsimp only
  have hsame : found.isSome = decide (key ∈ keys) := by
    rw [Bool.eq_iff_iff, decide_eq_true_iff]
    exact hfound
  rw [hsame]
  rfl

theorem Represents.removeAll (h : Represents s list chains keys) (fuel : Nat)
    (hfuel : chains.flatten.length < fuel) : GoesAs fuel s list chains keys .removeAll := by
  rcases removeAll_spec h.setUp h.chained h.counted fuel hfuel with
    ⟨m', table', chains', hrun, hchained, hcounted, htable, hempty⟩
  refine ⟨(m', table'), chains', ?_, ⟨?_, ?_, hcounted, ?_⟩, ?_, ?_, ?_⟩
  · rw [step, hrun]
    rfl
  · rw [htable]
    exact ⟨h.setUp.buckets, h.setUp.hash_list, h.setUp.compare_item, h.setUp.hash_calc⟩
  · rw [htable]
    exact hchained
  · intro k
    rw [hempty]
    simp only [specStep, Finset.notMem_empty, List.map_nil, List.not_mem_nil]
  · rw [htable]
  · rw [hempty]
    exact fun x hx => absurd hx List.not_mem_nil
  · rw [hempty]
    exact Nat.zero_le _

/-- A call with a new item returns what the set of keys does, and changes the
    keys as it does. -/
theorem step_refines (h : Represents s list chains keys) (op : Op)
    (hfresh : ∀ x ∈ op.items, x ∉ chains.flatten) (hpath : op.HasPath) (fuel : Nat)
    (hfuel : chains.flatten.length < fuel) : GoesAs fuel s list chains keys op := by
  cases op with
  | insert item key =>
      exact h.insert item key (hfresh item (List.mem_singleton_self item)) hpath fuel hfuel
  | query key => exact h.query key fuel hfuel
  | removeAll => exact h.removeAll fuel hfuel

/-! ### Runs -/

/-- A run with new items returns what the run of the set of keys does, and comes
    to its keys. -/
theorem run_refines (ops : List Op) (s : Mem × HashTb) (list : Nat) (chains : List (List Nat))
    (keys : Finset PeCacheItemKey) (h : Represents s list chains keys)
    (hdistinct : (ops.flatMap Op.items).Nodup)
    (hfresh : ∀ x ∈ ops.flatMap Op.items, x ∉ chains.flatten) (hpaths : ∀ op ∈ ops, op.HasPath)
    (fuel : Nat) (hfuel : chains.flatten.length + ops.length ≤ fuel) :
    ∃ t chains', run fuel s ops = some (t, (specRun keys ops).2) ∧
      Represents t list chains' (specRun keys ops).1 ∧
      t.2.bucket_count = s.2.bucket_count := by
  induction ops generalizing s chains keys with
  | nil => exact ⟨s, chains, rfl, h, rfl⟩
  | cons op ops ih =>
      rw [List.length_cons] at hfuel
      rw [List.flatMap_cons] at hdistinct hfresh
      rcases List.nodup_append.mp hdistinct with ⟨-, hrest, hdisjoint⟩
      rcases step_refines h op
          (fun x hx => hfresh x (List.mem_append_left _ hx)) (hpaths op List.mem_cons_self) fuel
          (by omega) with
        ⟨u, chains', hstep, hu, hbuckets, hitems, hlength⟩
      -- An item that is still to come is not in a bucket by now.
      have hfresh' : ∀ x ∈ ops.flatMap Op.items, x ∉ chains'.flatten := by
        intro x hx hmem
        rcases hitems x hmem with hnew | hold
        · exact hdisjoint x hnew x hx rfl
        · exact hfresh x (List.mem_append_right _ hx) hold
      rcases ih u chains' (specStep keys op).1 hu hrest hfresh'
          (fun op' hop' => hpaths op' (List.mem_cons_of_mem op hop')) (by omega) with
        ⟨t, chains'', hrun, ht, hbuckets'⟩
      refine ⟨t, chains'', ?_, ht, hbuckets'.trans hbuckets⟩
      rw [run, hstep]
      dsimp only
      rw [hrun]
      rfl

/-- The count of a table that holds these keys. -/
theorem Represents.card {s : Mem × HashTb} {list : Nat} {chains : List (List Nat)}
    {keys : Finset PeCacheItemKey} (h : Represents s list chains keys) :
    (chains.flatten.map s.1.key).toFinset = keys ∧ chains.flatten.length = keys.card ∧
      s.2.item_count = Int32.ofNat chains.flatten.length := by
  have hkeys : (chains.flatten.map s.1.key).toFinset = keys := by
    ext key
    rw [List.mem_toFinset, h.mem_keys]
  refine ⟨hkeys, ?_, ?_⟩
  · rw [← hkeys, List.toFinset_card_of_nodup h.chained.nodup, List.length_map]
  · rw [h.counted, Int32.zero_add]

/-- Empty buckets hold no keys. -/
theorem Initialised.represents {s : Mem × HashTb} {list : Nat} (h : Initialised s.1 s.2 list)
    (hset : SetUp s.2 list) :
    Represents s list (List.replicate s.2.bucket_count.toNat []) ∅ := by
  have hflatten : (List.replicate s.2.bucket_count.toNat ([] : List Nat)).flatten = [] :=
    List.flatten_replicate_nil
  refine ⟨hset, chained_replicate s.1 _ list h.prev h.next, ?_, ?_⟩
  · unfold Counted
    rw [hflatten, h.item_count]
    rfl
  · intro key
    rw [hflatten]
    simp only [Finset.notMem_empty, List.map_nil, List.not_mem_nil]

/-- After `hashtb_remove_all` no keys are left. -/
theorem specRun_removeAll (keys : Finset PeCacheItemKey) (ops : List Op)
    (h : ops.getLast? = some .removeAll) : (specRun keys ops).1 = ∅ := by
  induction ops generalizing keys with
  | nil => exact absurd h (by simp only [List.getLast?_nil, reduceCtorEq, not_false_eq_true])
  | cons op ops ih =>
      cases ops with
      | nil =>
          rw [List.getLast?_singleton, Option.some.injEq] at h
          rw [h]
          rfl
      | cons op' ops =>
          rw [List.getLast?_cons_cons] at h
          exact ih (specStep keys op).1 h

/-- From empty buckets, with new items that have a path, the table returns what
    a set of keys does. Its buckets are rings with their items, each in the
    bucket of its key and no key twice, the keys are those of the set, and their
    number, as a `long`, is the count. After `hashtb_remove_all` the count is 0
    and no query finds anything. -/
theorem table_refines (s : Mem × HashTb) (list : Nat) (hset : SetUp s.2 list)
    (hinit : Initialised s.1 s.2 list) (ops : List Op)
    (hdistinct : (ops.flatMap Op.items).Nodup) (hpaths : ∀ op ∈ ops, op.HasPath) (fuel : Nat)
    (hfuel : ops.length < fuel) :
    ∃ t chains, run fuel s ops = some (t, (specRun ∅ ops).2) ∧
      t.2.bucket_count = s.2.bucket_count ∧ Chained t.1 s.2.bucket_count list chains ∧
      (chains.flatten.map t.1.key).toFinset = (specRun ∅ ops).1 ∧
      t.2.item_count = Int32.ofNat chains.flatten.length ∧
      (ops.getLast? = some .removeAll → t.2.item_count = 0 ∧
        ∀ key, hashtbQueryItem fuel t.1 t.2 key = some none) := by
  have hflatten : (List.replicate s.2.bucket_count.toNat ([] : List Nat)).flatten = [] :=
    List.flatten_replicate_nil
  rcases run_refines ops s list _ ∅ (hinit.represents hset) hdistinct
      (fun x _ => by rw [hflatten]; exact List.not_mem_nil) hpaths fuel
      (by rw [hflatten, List.length_nil]; omega) with
    ⟨t, chains, hrun, ht, hbuckets⟩
  rcases ht.card with ⟨hkeys, hcard, hcount⟩
  refine ⟨t, chains, hrun, hbuckets, hbuckets ▸ ht.chained, hkeys, hcount, fun hlast => ?_⟩
  have hnone := specRun_removeAll ∅ ops hlast
  rw [hnone, Finset.card_empty] at hcard
  refine ⟨by rw [hcount, hcard]; rfl, fun key => ?_⟩
  rcases queryItem_spec ht.setUp ht.chained key fuel (by omega) with ⟨found, hfound, hiff⟩
  rw [List.eq_nil_of_length_eq_zero hcard, List.map_nil] at hiff
  rw [hfound, Option.not_isSome_iff_eq_none.mp (fun hsome => List.not_mem_nil (hiff.mp hsome))]

/-- A memory in which every list head points to itself. -/
def emptyMem : Mem where
  links := { prev := some, next := some }
  key := fun _ => { FilePathBuffer := [], FilePathLen := 0, FileSize := 0, LastWriteTime := 0 }

/-- A table with its buckets in array 0. -/
def emptyTable (bucket_count : UInt16) : HashTb where
  bucket_count := bucket_count
  hash_list := some 0
  item_count := 0
  compare_item := some comparePeCache
  hash_calc := some hashCalc

theorem emptyTable_setUp (bucket_count : UInt16) (h : bucket_count ≠ 0) :
    SetUp (emptyTable bucket_count) 0 :=
  ⟨h, rfl, rfl, rfl⟩

theorem emptyTable_initialised (bucket_count : UInt16) :
    Initialised emptyMem (emptyTable bucket_count) 0 :=
  ⟨fun _ _ => rfl, fun _ _ => rfl, rfl⟩

/-- The key of a file `a` of this size. -/
def sizedKey (i : Nat) : PeCacheItemKey where
  FilePathBuffer := [97]
  FilePathLen := 1
  FileSize := UInt64.ofNat i
  LastWriteTime := 1

/-- Put in, found, not put in twice, and taken out. -/
theorem table_refines_twoBuckets :
    ∃ t, run 5 (emptyMem, emptyTable 2)
        [.insert 0 (sizedKey 7), .query (sizedKey 7), .insert 1 (sizedKey 7), .removeAll]
        = some (t, [.inserted true, .found true, .inserted false, .removed]) ∧
      t.2.item_count = 0 := by
  rcases table_refines (emptyMem, emptyTable 2) 0 (emptyTable_setUp 2 (by decide))
      (emptyTable_initialised 2)
      [.insert 0 (sizedKey 7), .query (sizedKey 7), .insert 1 (sizedKey 7), .removeAll]
      (by decide) (by decide) 5 (by decide) with ⟨t, chains, hrun, -, -, -, -, hlast⟩
  exact ⟨t, hrun, (hlast rfl).1⟩

/-! ### More items than a `long` counts -/

/-- Files of different sizes put in one after the other. -/
def sizedInserts (n : Nat) : List Op :=
  (List.range n).map (fun i => .insert i (sizedKey i))

theorem specRun_append (keys : Finset PeCacheItemKey) (ops ops' : List Op) :
    (specRun keys (ops ++ ops')).1 = (specRun (specRun keys ops).1 ops').1 := by
  induction ops generalizing keys with
  | nil => rfl
  | cons op ops ih => exact ih (specStep keys op).1

theorem specRun_sizedInserts (n : Nat) :
    (specRun ∅ (sizedInserts n)).1 = ((List.range n).map sizedKey).toFinset := by
  induction n with
  | zero => rfl
  | succ n ih =>
      have hinserts : sizedInserts (n + 1) = sizedInserts n ++ [.insert n (sizedKey n)] := by
        unfold sizedInserts
        rw [List.range_succ, List.map_append, List.map_singleton]
      rw [hinserts, specRun_append, ih]
      ext key
      simp only [specRun, specStep, List.range_succ, List.map_append, List.map_singleton,
        List.mem_toFinset, List.mem_append, List.mem_singleton, Finset.mem_insert, or_comm]

/-- As many keys as inserts. -/
theorem card_sizedInserts (n : Nat) (hn : n ≤ 18446744073709551616) :
    (specRun ∅ (sizedInserts n)).1.card = n := by
  rw [specRun_sizedInserts, List.toFinset_card_of_nodup, List.length_map, List.length_range]
  refine List.Nodup.map_on ?_ List.nodup_range
  intro i hi j hj heq
  rw [List.mem_range] at hi hj
  have hsize : UInt64.ofNat i = UInt64.ofNat j := congrArg PeCacheItemKey.FileSize heq
  rw [← UInt64.toNat_inj, UInt64.toNat_ofNat', UInt64.toNat_ofNat'] at hsize
  omega

theorem items_sizedInserts (n : Nat) : (sizedInserts n).flatMap Op.items = List.range n := by
  unfold sizedInserts
  rw [List.flatMap_map]
  exact List.flatMap_singleton' _

/-- With `2147483648` items in it the count of the table is negative. -/
theorem itemCount_wraps :
    ¬ ∀ (s : Mem × HashTb) (list : Nat), SetUp s.2 list → Initialised s.1 s.2 list →
      ∀ ops : List Op, (ops.flatMap Op.items).Nodup → (∀ op ∈ ops, op.HasPath) →
      ∀ fuel, ops.length < fuel →
      ∃ t chains, run fuel s ops = some (t, (specRun ∅ ops).2) ∧
        Chained t.1 s.2.bucket_count list chains ∧
        (chains.flatten.map t.1.key).toFinset = (specRun ∅ ops).1 ∧
        t.2.item_count.toInt = chains.flatten.length := by
  intro h
  rcases (⟨2147483648, rfl⟩ : ∃ n, n = 2147483648) with ⟨n, hn⟩
  have hset := emptyTable_setUp 1 (by decide)
  have hinit := emptyTable_initialised 1
  have hdistinct : ((sizedInserts n).flatMap Op.items).Nodup := by
    rw [items_sizedInserts]
    exact List.nodup_range
  have hpaths : ∀ op ∈ sizedInserts n, op.HasPath := by
    intro op hop
    rcases List.mem_map.mp hop with ⟨i, -, rfl⟩
    exact List.cons_ne_nil 97 []
  have hcard := card_sizedInserts n (by omega)
  rcases h (emptyMem, emptyTable 1) 0 hset hinit (sizedInserts n) hdistinct hpaths
    ((sizedInserts n).length + 1) (Nat.lt_succ_self _) with
    ⟨t, chains, hrun, hchained, hkeys, hcount⟩
  -- The number of items is that of the keys, and the count is its reduction.
  have hlength : chains.flatten.length = n := by
    rw [← hcard, ← hkeys, List.toFinset_card_of_nodup hchained.nodup, List.length_map]
  rcases run_refines (sizedInserts n) (emptyMem, emptyTable 1) 0 _ ∅ (hinit.represents hset)
      hdistinct (fun x _ => by rw [List.flatten_replicate_nil]; exact List.not_mem_nil) hpaths
      ((sizedInserts n).length + 1)
      (by rw [List.flatten_replicate_nil, List.length_nil]; omega) with
    ⟨t', chains', hrun', ht', -⟩
  rcases ht'.card with ⟨-, hlength', hcount'⟩
  rw [hrun, Option.some.injEq, Prod.mk.injEq] at hrun'
  rw [← hrun'.1, hlength', hcard] at hcount'
  rw [hcount', hlength, hn] at hcount
  exact absurd hcount (by decide)

end Cache

end Defender
