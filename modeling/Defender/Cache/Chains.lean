import Defender.Cache.HashTable
import Defender.Lib.Crew
import Mathlib.Data.List.Nodup

/-!
# The Buckets as Lists

What the table holds, read off memory: for every bucket the list of its items,
in the order of its ring.

`Chained` says that memory has that shape, that every item is in the bucket its
key belongs to, and that no two items have the same key. Two buckets have no
list head in common, since an item's key tells its bucket. So a change to one
ring leaves the others what they are, and each operation has to be looked at in
one bucket only.

## Main definitions

* `SetUp`: The table has buckets and its functions.
* `Chained`: Memory holds these lists of items.
* `Counted`: The count of items goes with them.

## Theorems

* `Chained.disjoint`: Buckets have nothing in common.
* `chained_replicate`: Empty buckets.
* `queryItem_spec`: What is found.
* `Chained.set_bucket`: One bucket changes.
* `insertItem_spec`: What is put in.
* `removeBucket_spec`, `removeAll_spec`: What is left.
-/

namespace Defender

namespace Cache

open RingList

/-- The table has buckets, whose heads are in `list`, and hashes and compares
    the keys of the cache. -/
structure SetUp (table : HashTb) (list : Nat) : Prop where
  buckets : table.bucket_count ≠ 0
  hash_list : table.hash_list = some list
  compare_item : table.compare_item = some comparePeCache
  hash_calc : table.hash_calc = some hashCalc

/-- The buckets hold the items of these lists, each in a ring, every item in the
    bucket of its key, and no key twice. -/
structure Chained (m : Mem) (bucket_count : UInt16) (list : Nat) (chains : List (List Nat)) :
    Prop where
  length : chains.length = bucket_count.toNat
  ring : ∀ i xs, chains[i]? = some xs → IsRing m.links (.head list i) (xs.map .item)
  bucket : ∀ i xs, chains[i]? = some xs → ∀ x ∈ xs, (hashCalc bucket_count (m.key x)).toNat = i
  path : ∀ x ∈ chains.flatten, (m.key x).FilePathBuffer ≠ []
  nodup : (chains.flatten.map m.key).Nodup

/-- The items are counted, from `c` on. -/
def Counted (c : Int32) (table : HashTb) (chains : List (List Nat)) : Prop :=
  table.item_count = c + Int32.ofNat chains.flatten.length

variable {m : Mem} {table : HashTb} {list : Nat} {chains : List (List Nat)}

theorem mem_flatten_of (i x : Nat) (xs : List Nat) (hxs : chains[i]? = some xs) (hx : x ∈ xs) :
    x ∈ chains.flatten :=
  List.mem_flatten.mpr ⟨xs, List.mem_of_getElem? hxs, hx⟩

/-- The list heads of a bucket. -/
def nodes (list i : Nat) (xs : List Nat) : List Ptr :=
  .head list i :: xs.map .item

theorem head_ne_item (list i id : Nat) : Ptr.head list i ≠ Ptr.item id :=
  Ptr.noConfusion

/-- An item that is in no bucket is none of the list heads. -/
theorem Chained.item_not_mem {b : UInt16} (_ : Chained m b list chains) (item i : Nat)
    (xs : List Nat) (hitem : item ∉ chains.flatten) (hxs : chains[i]? = some xs) :
    Ptr.item item ∉ nodes list i xs := by
  intro hmem
  rcases List.mem_cons.mp hmem with hhead | hmap
  · exact head_ne_item list i item hhead.symm
  · rcases List.mem_map.mp hmap with ⟨x, hx, heq⟩
    exact hitem (mem_flatten_of i item xs hxs (Ptr.item.inj heq ▸ hx))

/-- Buckets have no list head in common. -/
theorem Chained.disjoint {b : UInt16} (h : Chained m b list chains) (i j : Nat)
    (xs ys : List Nat) (hxs : chains[i]? = some xs) (hys : chains[j]? = some ys) (hij : j ≠ i)
    (p : Ptr) (hp : p ∈ nodes list i xs) : p ∉ nodes list j ys := by
  intro hq
  rcases List.mem_cons.mp hp with rfl | hpmap
  · rcases List.mem_cons.mp hq with heq | hqmap
    · exact hij (Ptr.head.inj heq).2.symm
    · rcases List.mem_map.mp hqmap with ⟨y, -, heq⟩
      exact head_ne_item list i y heq.symm
  · rcases List.mem_map.mp hpmap with ⟨x, hx, rfl⟩
    rcases List.mem_cons.mp hq with heq | hqmap
    · exact head_ne_item list j x heq.symm
    · -- The key of the item tells which of the two buckets it is in.
      rcases List.mem_map.mp hqmap with ⟨y, hy, heq⟩
      rw [Ptr.item.inj heq] at hy
      exact hij ((h.bucket j ys hys x hy).symm.trans (h.bucket i xs hxs x hx))

/-! ### Empty buckets -/

/-- Heads that point to themselves are empty buckets. -/
theorem chained_replicate (m : Mem) (b : UInt16) (list : Nat)
    (hprev : ∀ i < b.toNat, m.links.prev (.head list i) = some (.head list i))
    (hnext : ∀ i < b.toNat, m.links.next (.head list i) = some (.head list i)) :
    Chained m b list (List.replicate b.toNat []) := by
  have hflatten : (List.replicate b.toNat ([] : List Nat)).flatten = [] :=
    List.flatten_replicate_nil
  have hnil : ∀ (i : Nat) (xs : List Nat),
      (List.replicate b.toNat ([] : List Nat))[i]? = some xs → i < b.toNat ∧ xs = [] := by
    intro i xs hxs
    rcases List.getElem?_eq_some_iff.mp hxs with ⟨hlt, heq⟩
    rw [List.length_replicate] at hlt
    rw [List.getElem_replicate] at heq
    exact ⟨hlt, heq.symm⟩
  refine ⟨List.length_replicate, ?_, ?_, ?_, ?_⟩
  · intro i xs hxs
    rcases hnil i xs hxs with ⟨hlt, rfl⟩
    exact ring_alone _ _ (hprev i hlt) (hnext i hlt)
  · intro i xs hxs x hx
    rw [(hnil i xs hxs).2] at hx
    exact absurd hx List.not_mem_nil
  · rw [hflatten]
    exact fun x hx => absurd hx List.not_mem_nil
  · rw [hflatten]
    exact List.nodup_nil

/-! ### Looking for a key -/

theorem hashtbHash_eq (hset : SetUp table list) (val : PeCacheItemKey) :
    hashtbHash table val = hashCalc table.bucket_count val := by
  rw [hashtbHash, hset.hash_calc]

theorem hashtbEqual_iff (hset : SetUp table list) (val : PeCacheItemKey) (id : Nat) :
    hashtbEqual table m val (.item id) = true ↔
      m.key id = val ∧ (m.key id).FilePathBuffer ≠ [] := by
  rw [hashtbEqual, hset.compare_item]
  exact comparePeCache_iff (m.key id) val

/-- The bucket of a key. -/
theorem Chained.bucket_of (h : Chained m table.bucket_count list chains)
    (hset : SetUp table list) (val : PeCacheItemKey) :
    ∃ xs, chains[(hashCalc table.bucket_count val).toNat]? = some xs := by
  have hlt := hashCalc_lt table.bucket_count val hset.buckets
  rw [← h.length] at hlt
  exact ⟨_, List.getElem?_eq_getElem hlt⟩

/-- An item with the key is found in the bucket of the key, if there is one. -/
theorem Chained.find_isSome (h : Chained m table.bucket_count list chains)
    (hset : SetUp table list) (val : PeCacheItemKey) (xs : List Nat)
    (hxs : chains[(hashCalc table.bucket_count val).toNat]? = some xs) :
    ((xs.map Ptr.item).find? (hashtbEqual table m val)).isSome = true ↔
      val ∈ chains.flatten.map m.key := by
  rw [List.find?_isSome, List.mem_map]
  constructor
  · rintro ⟨p, hp, hequal⟩
    rcases List.mem_map.mp hp with ⟨x, hx, rfl⟩
    exact ⟨x, mem_flatten_of _ x xs hxs hx, ((hashtbEqual_iff hset val x).mp hequal).1⟩
  · rintro ⟨x, hx, hkey⟩
    rcases List.mem_flatten.mp hx with ⟨ys, hys, hxys⟩
    rcases List.mem_iff_getElem?.mp hys with ⟨j, hj⟩
    have hbucket := h.bucket j ys hj x hxys
    rw [hkey] at hbucket
    rw [hbucket, hj, Option.some.injEq] at hxs
    exact ⟨.item x, List.mem_map.mpr ⟨x, hxs ▸ hxys, rfl⟩,
      (hashtbEqual_iff hset val x).mpr ⟨hkey, h.path x hx⟩⟩

/-- A walk through the bucket of a key, in which every item is met. -/
theorem Chained.walk_eq (h : Chained m table.bucket_count list chains) (val : PeCacheItemKey)
    (i : Nat) (xs : List Nat) (hxs : chains[i]? = some xs) (fuel : Nat)
    (hfuel : chains.flatten.length < fuel) :
    walk m.links (.head list i) (hashtbEqual table m val) fuel (m.links.next (.head list i))
      = .ofFind ((xs.map Ptr.item).find? (hashtbEqual table m val)) := by
  refine walk_ring (h.ring i xs hxs) (hashtbEqual table m val) fuel
    (Nat.lt_of_le_of_lt ?_ hfuel)
  rw [List.length_map]
  exact (List.sublist_flatten_of_mem (List.mem_of_getElem? hxs)).length_le

/-- A query finds an item exactly when one has the key. -/
theorem queryItem_spec (hset : SetUp table list) (h : Chained m table.bucket_count list chains)
    (val : PeCacheItemKey) (fuel : Nat) (hfuel : chains.flatten.length < fuel) :
    ∃ found, hashtbQueryItem fuel m table val = some found ∧
      (found.isSome = true ↔ val ∈ chains.flatten.map m.key) := by
  rcases h.bucket_of hset val with ⟨xs, hxs⟩
  have hring := h.ring _ xs hxs
  rcases hring.next_head with ⟨entry, hentry, hnext⟩
  have hwalk := h.walk_eq val _ xs hxs fuel hfuel
  have hfind := h.find_isSome hset val xs hxs
  unfold hashtbQueryItem
  rw [if_neg hset.buckets, hset.hash_list]
  dsimp only
  rw [hashtbHash_eq hset, hnext]
  rw [hnext] at hwalk
  dsimp only
  rw [if_neg (hring.path.next_ne_none entry hentry), hwalk, ← hfind]
  cases (xs.map Ptr.item).find? (hashtbEqual table m val) with
  | none => exact ⟨none, rfl, Iff.rfl⟩
  | some e => exact ⟨some e, rfl, Iff.rfl⟩

/-! ### Putting an item in -/

/-- Memory in which some list heads and keys were written that no bucket has. -/
theorem Chained.congr {b : UInt16} (h : Chained m b list chains) (m' : Mem)
    (hnext : ∀ i xs, chains[i]? = some xs → ∀ p ∈ nodes list i xs,
      m'.links.next p = m.links.next p)
    (hprev : ∀ i xs, chains[i]? = some xs → ∀ p ∈ nodes list i xs,
      m'.links.prev p = m.links.prev p)
    (hkey : ∀ x ∈ chains.flatten, m'.key x = m.key x) : Chained m' b list chains where
  length := h.length
  ring := fun i xs hxs => (h.ring i xs hxs).congr (hnext i xs hxs) (hprev i xs hxs)
  bucket := by
    intro i xs hxs x hx
    rw [hkey x (mem_flatten_of i x xs hxs hx)]
    exact h.bucket i xs hxs x hx
  path := by
    intro x hx
    rw [hkey x hx]
    exact h.path x hx
  nodup := by
    rw [List.map_congr_left hkey]
    exact h.nodup

/-- Another list of items in one bucket, where the list heads of the other buckets
    were left as they are. -/
theorem Chained.set_bucket {b : UInt16} (h : Chained m b list chains) (i : Nat)
    (xs ys : List Nat) (hxs : chains[i]? = some xs) (links : Links Ptr)
    (hring : IsRing links (.head list i) (ys.map .item))
    (hothers : ∀ j zs, chains[j]? = some zs → j ≠ i → ∀ p ∈ nodes list j zs,
      links.next p = m.links.next p ∧ links.prev p = m.links.prev p)
    (hbucket : ∀ y ∈ ys, (hashCalc b (m.key y)).toNat = i)
    (hpath : ∀ x ∈ (chains.set i ys).flatten, (m.key x).FilePathBuffer ≠ [])
    (hnodup : ((chains.set i ys).flatten.map m.key).Nodup) :
    Chained { m with links := links } b list (chains.set i ys) where
  length := by
    rw [List.length_set]
    exact h.length
  ring := by
    intro j zs hzs
    -- The changed bucket has its ring as given; the nodes of the others kept their pointers.
    by_cases hji : j = i
    · subst hji
      rw [Crew.getElem?_set_of_some chains j _ xs hxs, Option.some.injEq] at hzs
      rw [← hzs]
      exact hring
    · rw [Crew.getElem?_set_of_ne chains i j _ hji] at hzs
      exact (h.ring j zs hzs).congr (fun p hp => (hothers j zs hzs hji p hp).1)
        (fun p hp => (hothers j zs hzs hji p hp).2)
  bucket := by
    intro j zs hzs z hz
    by_cases hji : j = i
    · subst hji
      rw [Crew.getElem?_set_of_some chains j _ xs hxs, Option.some.injEq] at hzs
      exact hbucket z (hzs ▸ hz)
    · rw [Crew.getElem?_set_of_ne chains i j _ hji] at hzs
      exact h.bucket j zs hzs z hz
  path := hpath
  nodup := hnodup

/-- The bucket of a key gets one more item at its end. -/
theorem Chained.append {b : UInt16} (h : Chained m b list chains) (item i : Nat) (xs : List Nat)
    (hxs : chains[i]? = some xs) (hitem : item ∉ chains.flatten)
    (hbucket : (hashCalc b (m.key item)).toNat = i) (hpath : (m.key item).FilePathBuffer ≠ [])
    (hnew : m.key item ∉ chains.flatten.map m.key) :
    ∃ links, listAddTail m.links (.head list i) (.item item) = some links ∧
      Chained { m with links := links } b list (chains.set i (xs ++ [item])) ∧
      (chains.set i (xs ++ [item])).flatten.Perm (item :: chains.flatten) := by
  have hnot : Ptr.item item ∉ nodes list i xs := h.item_not_mem item i xs hitem hxs
  rcases (h.ring i xs hxs).insertLast hnot with ⟨last, hlast, hprev, hring⟩
  refine ⟨_, by rw [listAddTail, hprev], ?_⟩
  have hperm : (chains.set i (xs ++ [item])).flatten.Perm (item :: chains.flatten) := by
    have hset := Crew.flatMap_set id chains i (xs ++ [item]) xs hxs
    rw [List.flatMap_id, List.flatMap_id] at hset
    refine (List.perm_append_left_iff xs).mp (hset.trans ?_)
    rw [id, List.append_assoc]
    exact List.Perm.refl _
  refine ⟨h.set_bucket i xs (xs ++ [item]) hxs _ ?_ ?_ ?_ ?_ ?_, hperm⟩
  · rw [List.map_append]
    exact hring
  · -- What is written are the item and list heads of this bucket.
    intro j zs hzs hji p hp
    have hother := h.disjoint i j xs zs hxs hzs hji
    have hitem' := h.item_not_mem item j zs hitem hzs
    have hpitem : p ≠ .item item := fun heq => hitem' (heq ▸ hp)
    have hplast : p ≠ last := fun heq => hother last hlast (heq ▸ hp)
    have hphead : p ≠ .head list i := fun heq => hother _ List.mem_cons_self (heq ▸ hp)
    constructor
    · simp only [next_setPrev, next_setNext, if_neg hpitem, if_neg hplast]
    · simp only [prev_setPrev, prev_setNext, if_neg hpitem, if_neg hphead]
  · intro y hy
    rcases List.mem_append.mp hy with hold | hlast'
    · exact h.bucket i xs hxs y hold
    · rw [List.mem_singleton.mp hlast']
      exact hbucket
  · intro x hx
    rcases List.mem_cons.mp (hperm.mem_iff.mp hx) with rfl | hold
    · exact hpath
    · exact h.path x hold
  · rw [(hperm.map m.key).nodup_iff, List.map_cons]
    exact List.nodup_cons.mpr ⟨hnew, h.nodup⟩

/-- An item is put in exactly when no item has its key. -/
theorem insertItem_spec (hset : SetUp table list) (h : Chained m table.bucket_count list chains)
    (item : Nat) (hitem : item ∉ chains.flatten) (hpath : (m.key item).FilePathBuffer ≠ [])
    (fuel : Nat) (hfuel : chains.flatten.length < fuel) :
    (m.key item ∈ chains.flatten.map m.key ∧
        hashtbInsertItem fuel m table item (m.key item) = some (false, m, table)) ∨
      (m.key item ∉ chains.flatten.map m.key ∧ ∃ links chains',
        hashtbInsertItem fuel m table item (m.key item)
          = some (true, { m with links := links },
              { table with item_count := table.item_count + 1 }) ∧
        Chained { m with links := links } table.bucket_count list chains' ∧
        chains'.flatten.Perm (item :: chains.flatten)) := by
  rcases h.bucket_of hset (m.key item) with ⟨xs, hxs⟩
  have hwalk := h.walk_eq (m.key item) _ xs hxs fuel hfuel
  have hfind := h.find_isSome hset (m.key item) xs hxs
  unfold hashtbInsertItem insertItem
  rw [if_neg hset.buckets, hset.hash_list]
  dsimp only
  rw [hashtbHash_eq hset, hwalk]
  -- The item goes in where the walk came round without an equal one.
  cases hfound : (xs.map Ptr.item).find? (hashtbEqual table m (m.key item)) with
  | some e =>
      rw [hfound] at hfind
      exact Or.inl ⟨hfind.mp rfl, rfl⟩
  | none =>
      rw [hfound] at hfind
      have hnew : m.key item ∉ chains.flatten.map m.key :=
        fun hmem => Bool.false_ne_true (hfind.mpr hmem)
      rcases h.append item _ xs hxs hitem rfl hpath hnew with ⟨links, hlinks, hchained, hperm⟩
      refine Or.inr ⟨hnew, links, _, ?_, hchained, hperm⟩
      dsimp only [Walk.ofFind]
      rw [hlinks]

/-! ### Taking the items out -/

/-- The first item of a bucket taken out, and released. -/
theorem Chained.removeFirst {b : UInt16} (h : Chained m b list chains) (i x : Nat)
    (xs : List Nat) (hxs : chains[i]? = some (x :: xs)) :
    m.links.next (.head list i) = some (.item x) ∧
      ∃ links, listRemoveItem m.links (.item x) = some links ∧
        Chained (peCacheRelease { m with links := listInit links (.item x) } (.item x)) b list
          (chains.set i xs) ∧
        (x :: (chains.set i xs).flatten).Perm chains.flatten := by
  have hring : IsRing m.links (.head list i) (.item x :: xs.map .item) := h.ring i _ hxs
  rcases hring.removeFirst with ⟨hprev, second, hsecond, hnext, hrest⟩
  refine ⟨hring.path.1.1, _, by rw [listRemoveItem, hprev, hnext], ?_⟩
  have hperm : (x :: (chains.set i xs).flatten).Perm chains.flatten := by
    have hset := Crew.flatMap_set id chains i xs (x :: xs) hxs
    rw [List.flatMap_id, List.flatMap_id] at hset
    refine (List.perm_append_left_iff xs).mp (List.Perm.trans ?_ hset)
    exact List.perm_middle
  have hnodup : (x :: (chains.set i xs).flatten).Nodup :=
    hperm.nodup_iff.mpr (List.Nodup.of_map m.key h.nodup)
  have hout : x ∉ (chains.set i xs).flatten := (List.nodup_cons.mp hnodup).1
  have hxne : ∀ y ∈ (chains.set i xs).flatten, y ≠ x := fun y hy heq => hout (heq ▸ hy)
  -- The shape of memory once the item is out, before it is written itself.
  have hchained : Chained { m with links :=
      (m.links.setNext (.head list i) (some second)).setPrev second (some (.head list i)) } b list
      (chains.set i xs) := by
    refine h.set_bucket i (x :: xs) xs hxs _ hrest ?_ ?_ ?_ ?_
    · intro j ys hys hji p hp
      have hother := h.disjoint i j _ ys hxs hys hji
      have hsecond' : second ∈ nodes list i (x :: xs) := by
        rcases List.mem_cons.mp hsecond with rfl | hmem
        · exact List.mem_cons_self
        · exact List.mem_cons_of_mem _ (List.mem_cons_of_mem _ hmem)
      have hphead : p ≠ .head list i := fun heq => hother _ List.mem_cons_self (heq ▸ hp)
      have hpsecond : p ≠ second := fun heq => hother second hsecond' (heq ▸ hp)
      constructor
      · simp only [next_setPrev, next_setNext, if_neg hphead]
      · simp only [prev_setPrev, prev_setNext, if_neg hpsecond]
    · exact fun y hy => h.bucket i _ hxs y (List.mem_cons_of_mem x hy)
    · exact fun y hy => h.path y (hperm.mem_iff.mp (List.mem_cons_of_mem x hy))
    · have hkeys := (hperm.map m.key).nodup_iff.mpr h.nodup
      rw [List.map_cons] at hkeys
      exact (List.nodup_cons.mp hkeys).2
  -- What is written then is the item, which is in no bucket any more.
  refine ⟨hchained.congr _ ?_ ?_ ?_, hperm⟩
  · intro j ys hys p hp
    have hpx : p ≠ .item x := fun heq => hchained.item_not_mem x j ys hout hys (heq ▸ hp)
    simp only [peCacheRelease, listInit, next_setPrev, next_setNext, if_neg hpx]
  · intro j ys hys p hp
    have hpx : p ≠ .item x := fun heq => hchained.item_not_mem x j ys hout hys (heq ▸ hp)
    simp only [peCacheRelease, listInit, prev_setPrev, prev_setNext, if_neg hpx]
  · intro y hy
    simp only [peCacheRelease, if_neg (hxne y hy)]

/-- One item fewer is counted. -/
theorem Counted.removeFirst {c : Int32} (h : Counted c table chains) (i x : Nat) (xs : List Nat)
    (hperm : (x :: (chains.set i xs).flatten).Perm chains.flatten) :
    Counted c { table with item_count := table.item_count - 1 } (chains.set i xs) := by
  unfold Counted at h ⊢
  rw [h, ← hperm.length_eq, List.length_cons, Int32.ofNat_add, ← Int32.add_assoc]
  exact Int32.add_sub_cancel _ 1

/-- The loop over a bucket empties it. -/
theorem removeBucket_spec {b : UInt16} {c : Int32} (i : Nat) (xs : List Nat) (m : Mem)
    (table : HashTb) (chains : List (List Nat)) (h : Chained m b list chains)
    (hcounted : Counted c table chains) (hxs : chains[i]? = some xs) (fuel : Nat)
    (hfuel : xs.length < fuel) :
    ∃ m' table', removeBucket (.head list i) fuel (m, table) = some (m', table') ∧
      Chained m' b list (chains.set i []) ∧ Counted c table' (chains.set i []) ∧
      table' = { table with item_count := table'.item_count } := by
  induction xs generalizing m table chains fuel with
  | nil =>
      cases fuel with
      | zero => exact absurd hfuel (Nat.not_lt_zero _)
      | succ fuel =>
          have hempty : listIsEmpty m.links (.head list i) = true :=
            decide_eq_true ((h.ring i [] hxs).prev_head_iff.mpr rfl)
          have hsame : chains.set i [] = chains := by
            rcases List.getElem?_eq_some_iff.mp hxs with ⟨hlt, heq⟩
            rw [← heq]
            exact List.set_getElem_self hlt
          refine ⟨m, table, by rw [removeBucket, if_pos hempty], ?_, ?_, rfl⟩
          · rw [hsame]
            exact h
          · rw [hsame]
            exact hcounted
  | cons x xs ih =>
      cases fuel with
      | zero => exact absurd hfuel (Nat.not_lt_zero _)
      | succ fuel =>
          have hempty : ¬ listIsEmpty m.links (.head list i) = true := by
            intro hempty
            have hnil := (h.ring i _ hxs).prev_head_iff.mp (of_decide_eq_true hempty)
            exact absurd hnil (List.cons_ne_nil _ _)
          rcases h.removeFirst i x xs hxs with ⟨hnext, links, hlinks, hchained, hperm⟩
          have hset : (chains.set i xs)[i]? = some xs :=
            Crew.getElem?_set_of_some chains i xs _ hxs
          -- The loop goes on with the rest of the bucket.
          rcases ih _ _ _ hchained (hcounted.removeFirst i x xs hperm) hset fuel
            (Nat.lt_of_succ_lt_succ hfuel) with ⟨m', table', hrun, hchained', hcounted', htable⟩
          rw [List.set_set] at hchained' hcounted'
          refine ⟨m', table', ?_, hchained', hcounted', ?_⟩
          · rw [removeBucket, if_neg hempty, hnext]
            dsimp only
            rw [hlinks]
            exact hrun
          · rw [htable]

/-- The first buckets emptied, and the others as they were. -/
theorem removeBuckets_spec {b : UInt16} {c : Int32} (h : Chained m b list chains)
    (hcounted : Counted c table chains) (fuel : Nat) (hfuel : chains.flatten.length < fuel)
    (k : Nat) (hk : k ≤ chains.length) :
    ∃ m' table' chains', (List.range k).foldlM
        (fun s i => removeBucket (.head list i) fuel s) (m, table) = some (m', table') ∧
      Chained m' b list chains' ∧ Counted c table' chains' ∧
      table' = { table with item_count := table'.item_count } ∧
      (∀ i < k, chains'[i]? = some []) ∧ (∀ i ≥ k, chains'[i]? = chains[i]?) := by
  -- Induction on the number of buckets that are emptied, the last one at the end.
  induction k with
  | zero =>
      exact ⟨m, table, chains, rfl, h, hcounted, rfl, fun i hi => absurd hi (Nat.not_lt_zero i),
        fun _ _ => rfl⟩
  | succ k ih =>
      rcases ih (Nat.le_of_succ_le hk) with
        ⟨m', table', chains', hrun, hchained, hcounted', htable, hempty, hothers⟩
      rcases List.getElem?_eq_some_iff.mpr ⟨hk, rfl⟩ with hxs
      have hmem : chains[k] ∈ chains := List.getElem_mem hk
      have hlength : (chains[k]).length < fuel :=
        Nat.lt_of_le_of_lt (List.sublist_flatten_of_mem hmem).length_le hfuel
      have hxs' : chains'[k]? = some chains[k] := (hothers k (Nat.le_refl k)).trans hxs
      rcases removeBucket_spec k chains[k] m' table' chains' hchained hcounted' hxs' fuel hlength
        with ⟨m'', table'', hone, hchained', hcounted'', htable'⟩
      refine ⟨m'', table'', chains'.set k [], ?_, hchained', hcounted'', ?_, ?_, ?_⟩
      · rw [List.range_succ, List.foldlM_append, hrun, Option.bind_eq_bind, Option.bind_some,
          List.foldlM_cons, hone]
        rfl
      · rw [htable', htable]
      · intro i hi
        rcases Nat.lt_succ_iff_lt_or_eq.mp hi with hlt | rfl
        · rw [Crew.getElem?_set_of_ne chains' k i [] (Nat.ne_of_lt hlt)]
          exact hempty i hlt
        · exact Crew.getElem?_set_of_some chains' i [] _ hxs'
      · intro i hi
        rw [Crew.getElem?_set_of_ne chains' k i [] (Nat.ne_of_gt hi)]
        exact hothers i (Nat.le_of_succ_le hi)

/-- All buckets are emptied. -/
theorem removeAll_spec {c : Int32} (hset : SetUp table list)
    (h : Chained m table.bucket_count list chains) (hcounted : Counted c table chains) (fuel : Nat)
    (hfuel : chains.flatten.length < fuel) :
    ∃ m' table' chains', hashtbRemoveAll fuel m table = some (m', table') ∧
      Chained m' table.bucket_count list chains' ∧ Counted c table' chains' ∧
      table' = { table with item_count := table'.item_count } ∧ chains'.flatten = [] := by
  rcases removeBuckets_spec h hcounted fuel hfuel chains.length (Nat.le_refl _) with
    ⟨m', table', chains', hrun, hchained, hcounted', htable, hempty, -⟩
  refine ⟨m', table', chains', ?_, hchained, hcounted', htable, ?_⟩
  · unfold hashtbRemoveAll
    rw [if_neg hset.buckets, hset.hash_list, ← h.length]
    exact hrun
  · rw [List.flatten_eq_nil_iff]
    intro xs hxs
    rcases List.mem_iff_getElem?.mp hxs with ⟨i, hi⟩
    have hlt : i < chains.length := by
      rw [h.length, ← hchained.length]
      exact (List.getElem?_eq_some_iff.mp hi).1
    rw [hempty i hlt] at hi
    exact (Option.some.inj hi).symm

end Cache

end Defender
