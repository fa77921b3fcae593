import Defender.Cache.Inserts

/-!
# When the Table Stays a Set

What calls that are interleaved leave behind. As long as nobody searches for a key that
another call is about to put in, and the pointers and the count that a call has read are
still what they were when it writes, every step keeps what the calls of the source keep
one after the other (`Kept`). So when no call is in progress the table is a set
(`inserts_keep`).

The lock is given back behind the search. Two calls with one key may both have searched
by then, and the key is in the table twice (`inserts_twice`).

## Main definitions

* `home`: The head of the list that an item belongs to.
* `InsertCall.InTable`: A call that has put its item in.
* `Kept`: What the steps keep.

## Theorems

* `searchItem_eq`, `searchItem_cases`: What a search finds.
* `Kept.setCall`, `Kept.search`, `Kept.point`, `Kept.link`, `Kept.writeCount`: The
  steps.
* `kept_step`: What the steps keep.
* `inserts_keep`: When the table stays a set.
* `inserts_twice`: When it does not.
-/

namespace Defender

namespace Cache

namespace Inserts

open RingList

/-! ### Searching -/

variable {m : Mem} {table : HashTb} {list : Nat} {chains : List (List Nat)}

/-- A search with enough steps comes back, and finds an item when there is one with the key. -/
theorem searchItem_eq (hset : SetUp table list) (h : Chained m table.bucket_count list chains)
    (val : PeCacheItemKey) (fuel : Nat) (hfuel : chains.flatten.length < fuel) :
    searchItem fuel m table val = some (if val ∈ chains.flatten.map m.key then none
      else some (.head list (hashCalc table.bucket_count val).toNat)) := by
  rcases h.bucket_of hset val with ⟨xs, hxs⟩
  have hfind := h.find_isSome hset val xs hxs
  unfold searchItem
  rw [if_neg hset.buckets, hset.hash_list]
  dsimp only
  rw [hashtbHash_eq hset, h.walk_eq val _ xs hxs fuel hfuel]
  cases hfound : (xs.map Ptr.item).find? (hashtbEqual table m val) with
  | some e =>
      rw [hfound] at hfind
      rw [if_pos (hfind.mp rfl)]
      rfl
  | none =>
      rw [hfound] at hfind
      rw [if_neg (fun hmem => Bool.false_ne_true (hfind.mpr hmem))]
      rfl

theorem searchItem_add {fuel : Nat} {val : PeCacheItemKey} {found : Option Ptr} (k : Nat)
    (h : searchItem fuel m table val = some found) :
    searchItem (fuel + k) m table val = some found := by
  unfold searchItem at *
  by_cases hbuckets : table.bucket_count = 0
  · rw [if_pos hbuckets] at h ⊢
    exact h
  rw [if_neg hbuckets] at h ⊢
  cases hlist : table.hash_list with
  | none =>
      rw [hlist] at h
      exact absurd h (by simp only [reduceCtorEq, not_false_eq_true])
  | some list =>
      rw [hlist] at h
      dsimp only at h ⊢
      rw [walk_add]
      · exact h
      · intro hfuel
        rw [hfuel] at h
        exact absurd h (by simp only [reduceCtorEq, not_false_eq_true])

/-- A search that comes back has found what there is. -/
theorem searchItem_cases (hset : SetUp table list)
    (h : Chained m table.bucket_count list chains) {val : PeCacheItemKey} {fuel : Nat}
    {found : Option Ptr} (hsearch : searchItem fuel m table val = some found) :
    found = if val ∈ chains.flatten.map m.key then none
      else some (.head list (hashCalc table.bucket_count val).toNat) := by
  have hmore := searchItem_add (chains.flatten.length + 1) hsearch
  rw [searchItem_eq hset h val _ (by omega), Option.some_inj] at hmore
  exact hmore.symm

/-! ### What the steps keep -/

/-- A call that has put its item in. -/
def InsertCall.InTable : InsertCall → Prop
  | .linked | .counting _ | .returned true => True
  | _ => False

theorem waiting_of_searched {call : InsertCall} {head : Ptr} (h : call = .searched head) :
    call.Waiting :=
  h ▸ trivial

theorem waiting_of_pointed {call : InsertCall} {head prev : Ptr} (h : call = .pointed head prev) :
    call.Waiting :=
  h ▸ trivial

/-- A call that has returned `TRUE`. -/
def InsertCall.done (call : InsertCall) : Bool :=
  decide (call = .returned true)

/-- The head of the list that an item belongs to. -/
def home (list : Nat) (s : State) (i : Nat) : Ptr :=
  .head list (hashCalc s.table.bucket_count (s.m.key i)).toNat

/-- What is known between steps: the items in the table are those of the calls that have put
    theirs in, and the others are to put in keys that are not there, each another one. -/
structure Kept (list : Nat) (chains : List (List Nat)) (s : State) : Prop where
  setUp : SetUp s.table list
  chained : Chained s.m s.table.bucket_count list chains
  path : ∀ i, (s.m.key i).FilePathBuffer ≠ []
  inTable : ∀ i, i ∈ chains.flatten ↔ (s.calls i).InTable
  searched : ∀ i head, s.calls i = .searched head → head = home list s i
  pointed : ∀ i head prev, s.calls i = .pointed head prev → head = home list s i ∧
    s.m.links.next (.item i) = some head ∧ s.m.links.prev (.item i) = some prev
  fresh : ∀ i, (s.calls i).Waiting → s.m.key i ∉ chains.flatten.map s.m.key
  apart : ∀ i j, (s.calls i).Waiting → (s.calls j).Waiting → s.m.key i = s.m.key j → i = j
  counted : s.table.item_count.toInt =
    chains.flatten.countP (fun j => (s.calls j).done)

variable {s t : State}

theorem setCall_self (s : State) (i : Nat) (call : InsertCall) :
    (s.setCall i call).calls i = call :=
  Slots.put_self s.calls i call

theorem setCall_of_ne (s : State) {i j : Nat} (call : InsertCall) (h : j ≠ i) :
    (s.setCall i call).calls j = s.calls j :=
  Slots.put_of_ne s.calls call h

/-- A call is the one that was put there, or as it was. -/
theorem setCall_cases {s : State} {i j : Nat} {call call' : InsertCall}
    (h : (s.setCall i call).calls j = call') :
    (j = i ∧ call = call') ∨ (j ≠ i ∧ s.calls j = call') :=
  Slots.eq_of_put h

/-- The same for a call that waits. -/
theorem waiting_cases {s : State} {i j : Nat} {call : InsertCall}
    (h : ((s.setCall i call).calls j).Waiting) :
    (j = i ∧ call.Waiting) ∨ (j ≠ i ∧ (s.calls j).Waiting) :=
  Slots.put_cases h

/-- A call that waits is another one than one that does not. -/
theorem put_eq_of_waiting {i j : Nat} {call : InsertCall} (hcall : ¬ call.Waiting)
    (h : (Slots.put s.calls i call j).Waiting) : Slots.put s.calls i call j = s.calls j := by
  rcases Slots.put_cases h with ⟨-, hwait⟩ | ⟨hji, -⟩
  · exact absurd hwait hcall
  · exact Slots.put_of_ne s.calls call hji

theorem Kept.nodup (h : Kept list chains s) : chains.flatten.Nodup :=
  List.Nodup.of_map s.m.key h.chained.nodup

/-- A call that moves on, and not from searching to putting in. -/
theorem Kept.setCall (h : Kept list chains s) {i : Nat} {call : InsertCall}
    (hin : call.InTable ↔ (s.calls i).InTable) (hwait : ¬ call.Waiting)
    (hdone : call.done = (s.calls i).done) : Kept list chains (s.setCall i call) := by
  have hother : ∀ {j}, ((s.setCall i call).calls j).Waiting →
      (s.setCall i call).calls j = s.calls j := fun hj => put_eq_of_waiting hwait hj
  refine ⟨h.setUp, h.chained, h.path, ?_, ?_, ?_, ?_, ?_, ?_⟩
  · intro j
    exact (h.inTable j).trans (iff_of_eq (Slots.put_congr InsertCall.InTable
      (propext hin) j).symm)
  · intro j head hcall
    exact h.searched j head ((hother (waiting_of_searched hcall)).symm.trans hcall)
  · intro j head prev hcall
    exact h.pointed j head prev ((hother (waiting_of_pointed hcall)).symm.trans hcall)
  · intro j hj
    exact h.fresh j (hother hj ▸ hj)
  · intro j k hj hk
    exact h.apart j k (hother hj ▸ hj) (hother hk ▸ hk)
  · exact h.counted.trans (congrArg Nat.cast
      (Slots.countP_put_of_iff InsertCall.done (fun _ => hdone)).symm)

/-- A search that finds nothing. -/
theorem Kept.search (h : Kept list chains s) {i fuel : Nat} {head : Ptr}
    (hcall : s.calls i = .notCalled)
    (hsearch : searchItem fuel s.m s.table (s.m.key i) = some (some head))
    (hkeys : ∀ j, (s.calls j).Waiting → s.m.key j ≠ s.m.key i) :
    Kept list chains (s.setCall i (.searched head)) := by
  have hfound := searchItem_cases h.setUp h.chained hsearch
  -- A search that ends at the head of a list has not found the key.
  have hnew : s.m.key i ∉ chains.flatten.map s.m.key := by
    intro hmem
    rw [if_pos hmem] at hfound
    exact absurd hfound (by simp only [reduceCtorEq, not_false_eq_true])
  rw [if_neg hnew, Option.some_inj] at hfound
  have hi : ¬ (s.calls i).InTable := by
    rw [hcall]
    exact not_false
  refine ⟨h.setUp, h.chained, h.path, ?_, ?_, ?_, ?_, ?_, ?_⟩
  · intro j
    by_cases hji : j = i
    · rw [hji, setCall_self]
      exact iff_of_false (fun hmem => hi ((h.inTable i).mp hmem)) not_false
    · rw [setCall_of_ne s _ hji]
      exact h.inTable j
  · intro j head' hj
    rcases setCall_cases hj with ⟨hji, hcall'⟩ | ⟨-, hold⟩
    · rw [← InsertCall.searched.inj hcall', hfound, hji]
      rfl
    · exact h.searched j head' hold
  · intro j head' prev hj
    rcases setCall_cases hj with ⟨-, hcall'⟩ | ⟨-, hold⟩
    · exact absurd hcall' (by simp only [reduceCtorEq, not_false_eq_true])
    · exact h.pointed j head' prev hold
  · intro j hj
    rcases waiting_cases hj with ⟨hji, -⟩ | ⟨-, hold⟩
    · rw [hji]
      exact hnew
    · exact h.fresh j hold
  · intro j k hj hk hkey
    -- No other call waits with the key of the new one.
    rcases waiting_cases hj with ⟨hji, -⟩ | ⟨-, hj'⟩ <;>
      rcases waiting_cases hk with ⟨hki, -⟩ | ⟨-, hk'⟩
    · exact hji.trans hki.symm
    · exact absurd hkey.symm (hji ▸ hkeys k hk')
    · exact absurd hkey (hki ▸ hkeys j hj')
    · exact h.apart j k hj' hk' hkey
  · refine h.counted.trans (congrArg Nat.cast
      (Slots.countP_put_of_iff InsertCall.done (fun hmem => ?_)).symm)
    exact absurd ((h.inTable i).mp hmem) hi

/-- The item of a call that waits is not in the table. -/
theorem Kept.not_mem (h : Kept list chains s) {i : Nat} (hi : (s.calls i).Waiting) :
    i ∉ chains.flatten :=
  fun hmem => h.fresh i hi (List.mem_map_of_mem hmem)

/-- The first group of pointers is that of an item that is not in the table. -/
theorem Kept.point (h : Kept list chains s) {i : Nat} {head prev : Ptr}
    (hcall : s.calls i = .searched head) :
    Kept list chains ({ s with m := { s.m with
      links := (s.m.links.setNext (.item i) (some head)).setPrev (.item i) (some prev) } }.setCall
        i (.pointed head prev)) := by
  have hwait := waiting_of_searched hcall
  -- The pointers that are set are those of an item outside all rings.
  have hsame : ∀ j xs, chains[j]? = some xs → ∀ p ∈ nodes list j xs, p ≠ .item i :=
    fun j xs hxs p hp heq => h.chained.item_not_mem i j xs (h.not_mem hwait) hxs (heq ▸ hp)
  have hin : (InsertCall.pointed head prev).InTable = (s.calls i).InTable := by
    rw [hcall]
    rfl
  have hwaiting : (InsertCall.pointed head prev).Waiting = (s.calls i).Waiting := by
    rw [hcall]
    rfl
  have hdone : (InsertCall.pointed head prev).done = (s.calls i).done := by
    rw [hcall]
    rfl
  refine ⟨h.setUp, h.chained.congr _ ?_ ?_ (fun _ _ => rfl), h.path, ?_, ?_, ?_, ?_, ?_, ?_⟩
  · exact fun j xs hxs p hp => if_neg (hsame j xs hxs p hp)
  · exact fun j xs hxs p hp => if_neg (hsame j xs hxs p hp)
  · intro j
    exact (h.inTable j).trans (iff_of_eq (Slots.put_congr InsertCall.InTable hin j).symm)
  · intro j head' hj
    rcases setCall_cases hj with ⟨-, hcall'⟩ | ⟨-, hold⟩
    · exact absurd hcall' (by simp only [reduceCtorEq, not_false_eq_true])
    · exact h.searched j head' hold
  · intro j head' prev' hj
    rcases setCall_cases hj with ⟨hji, hcall'⟩ | ⟨hji, hold⟩
    · rw [InsertCall.pointed.injEq] at hcall'
      rw [hji, ← hcall'.1, ← hcall'.2]
      exact ⟨h.searched i head hcall, by simp only [State.setCall, next_setPrev, next_setNext,
        if_true], by simp only [State.setCall, prev_setPrev, if_true]⟩
    · have hne : Ptr.item j ≠ .item i := fun heq => hji (Ptr.item.inj heq)
      rcases h.pointed j head' prev' hold with ⟨hhome, hnext, hprev⟩
      refine ⟨hhome, ?_, ?_⟩
      · simp only [State.setCall, next_setPrev, next_setNext, if_neg hne]
        exact hnext
      · simp only [State.setCall, prev_setPrev, prev_setNext, if_neg hne]
        exact hprev
  · intro j hj
    exact h.fresh j (Slots.put_congr InsertCall.Waiting hwaiting j ▸ hj)
  · intro j k hj hk
    exact h.apart j k (Slots.put_congr InsertCall.Waiting hwaiting j ▸ hj)
      (Slots.put_congr InsertCall.Waiting hwaiting k ▸ hk)
  · exact h.counted.trans (congrArg Nat.cast
      (Slots.countP_put_of_iff InsertCall.done (fun _ => hdone)).symm)

/-- The second group, when the head still points back to where it did. -/
theorem Kept.link (h : Kept list chains s) {i : Nat} {head prev : Ptr}
    (hcall : s.calls i = .pointed head prev) (hprev : s.m.links.prev head = some prev) :
    ∃ chains', Kept list chains' ({ s with
      m := { s.m with links := linkItem s.m.links head (.item i) prev } }.setCall i .linked) := by
  have hwait := waiting_of_pointed hcall
  rcases h.pointed i head prev hcall with ⟨hhome, hnext, hback⟩
  rcases h.chained.bucket_of h.setUp (s.m.key i) with ⟨xs, hxs⟩
  rcases h.chained.append i _ xs hxs (h.not_mem hwait) rfl (h.path i) (h.fresh i hwait) with
    ⟨links, hlinks, hchained, hperm⟩
  -- the pointers of the item are written already
  have hpoint : pointItem s.m.links head (.item i) = some (prev, s.m.links) := by
    unfold pointItem
    rw [hprev]
    dsimp only
    rw [setNext_of_eq hnext, setPrev_of_eq hback]
  have hlinked : links = linkItem s.m.links head (.item i) prev := by
    rw [show Ptr.head list (hashCalc s.table.bucket_count (s.m.key i)).toNat = head from
      hhome.symm, listAddTail_eq, hpoint, Option.map_some, Option.some_inj] at hlinks
    exact hlinks.symm
  rw [hlinked] at hchained
  have hmem : prev ∈ nodes list (hashCalc s.table.bucket_count (s.m.key i)).toNat xs := by
    rcases (h.chained.ring _ xs hxs).insertLast
      (h.chained.item_not_mem i _ xs (h.not_mem hwait) hxs) with ⟨last, hlast, hprev', -⟩
    rw [hhome] at hprev
    exact Option.some_inj.mp (hprev'.symm.trans hprev) ▸ hlast
  have hwaiting : ∀ j, (Slots.put s.calls i .linked j).Waiting → j ≠ i ∧ (s.calls j).Waiting :=
    fun j hj => (Slots.put_cases hj).resolve_left (fun h => h.2)
  refine ⟨_, h.setUp, hchained, h.path, ?_, ?_, ?_, ?_, ?_, ?_⟩
  · intro j
    rw [hperm.mem_iff, List.mem_cons]
    by_cases hji : j = i
    · rw [hji, setCall_self]
      exact iff_of_true (Or.inl rfl) trivial
    · rw [setCall_of_ne _ _ hji, or_iff_right hji]
      exact h.inTable j
  · intro j head' hj
    rcases setCall_cases hj with ⟨-, hcall'⟩ | ⟨-, hold⟩
    · exact absurd hcall' (by simp only [reduceCtorEq, not_false_eq_true])
    · exact h.searched j head' hold
  · intro j head' prev' hj
    rcases setCall_cases hj with ⟨-, hcall'⟩ | ⟨-, hold⟩
    · exact absurd hcall' (by simp only [reduceCtorEq, not_false_eq_true])
    · have hj' := waiting_of_pointed hold
      have hother := h.chained.item_not_mem j _ xs (h.not_mem hj') hxs
      have hjprev : Ptr.item j ≠ prev := fun heq => hother (heq ▸ hmem)
      rcases h.pointed j head' prev' hold with ⟨hhome', hnext', hback'⟩
      refine ⟨hhome', (if_neg hjprev).trans hnext', (if_neg ?_).trans hback'⟩
      rw [hhome]
      exact (head_ne_item list _ j).symm
  · intro j hj
    rcases hwaiting j hj with ⟨hji, hj'⟩
    intro hkey
    rcases List.mem_cons.mp ((hperm.map s.m.key).mem_iff.mp hkey) with heq | hold
    · exact hji (h.apart j i hj' hwait heq)
    · exact h.fresh j hj' hold
  · intro j k hj hk
    exact h.apart j k (hwaiting j hj).2 (hwaiting k hk).2
  · have hnot := h.not_mem hwait
    refine h.counted.trans (congrArg Nat.cast ?_)
    rw [hperm.countP_eq, List.countP_cons, setCall_self]
    exact (Slots.countP_put_of_iff InsertCall.done (fun hi => absurd hi hnot)).symm

/-- The count is written. -/
theorem Kept.writeCount (h : Kept list chains s) {i : Nat} {item_count : Int32}
    (hcall : s.calls i = .counting item_count) (hsame : s.table.item_count = item_count)
    (hfits : item_count.toInt + 1 < 2 ^ 31) :
    Kept list chains ({ s with table := { s.table with item_count := item_count + 1 } }.setCall i
      (.returned true)) := by
  have hin : (InsertCall.returned true).InTable = (s.calls i).InTable := by
    rw [hcall]
    rfl
  have hwaiting : (InsertCall.returned true).Waiting = (s.calls i).Waiting := by
    rw [hcall]
    rfl
  have hmem : i ∈ chains.flatten := (h.inTable i).mpr (hin ▸ trivial)
  -- A call that has returned waits no more, so that all that wait are as they were.
  have hold : ∀ {j}, (Slots.put s.calls i (.returned true) j).Waiting →
      Slots.put s.calls i (.returned true) j = s.calls j :=
    fun hj => put_eq_of_waiting not_false hj
  refine ⟨⟨h.setUp.buckets, h.setUp.hash_list, h.setUp.compare_item, h.setUp.hash_calc⟩,
    h.chained, h.path, ?_, ?_, ?_, ?_, ?_, ?_⟩
  · intro j
    exact (h.inTable j).trans (iff_of_eq (Slots.put_congr InsertCall.InTable hin j).symm)
  · intro j head hj
    exact h.searched j head ((hold (waiting_of_searched hj)).symm.trans hj)
  · intro j head prev hj
    exact h.pointed j head prev ((hold (waiting_of_pointed hj)).symm.trans hj)
  · intro j hj
    exact h.fresh j (hold hj ▸ hj)
  · intro j k hj hk
    exact h.apart j k (hold hj ▸ hj) (hold hk ▸ hk)
  · -- One more item is done, and the count that was read is still the one in the table.
    have hdone : (s.calls i).done = false := by
      rw [hcall]
      rfl
    have hcount := Slots.countP_put_of_mem InsertCall.done h.nodup hmem
      (show (InsertCall.returned true).done = true from rfl) hdone
    have hincrement : (item_count + 1).toInt = item_count.toInt + 1 := by
      have hpos : 0 ≤ item_count.toInt := by
        rw [← hsame, h.counted]
        exact Int.natCast_nonneg _
      have hone : (1 : Int32).toInt = 1 := rfl
      rw [Int32.toInt_add, hone]
      exact Int.bmod_eq_of_le (by omega) (by omega)
    refine hincrement.trans ?_
    rw [← hsame, h.counted]
    exact (congrArg Nat.cast hcount).symm

theorem kept_step (h : Kept list chains s) {l : Label} (ho : Orderly s l) (hst : Stepped s l t) :
    ∃ chains', Kept list chains' t := by
  cases hst with
  | searchFound i fuel hcall hsearch =>
      refine ⟨chains, h.setCall ?_ not_false ?_⟩
      · rw [hcall]
        exact Iff.rfl
      · rw [hcall]
        rfl
  | searchEnded i fuel head hcall hsearch => exact ⟨chains, h.search hcall hsearch ho⟩
  | point i head prev hcall hprev => exact ⟨chains, h.point hcall⟩
  | link i head prev hcall => exact h.link hcall (ho head prev hcall)
  | readCount i hcall =>
      refine ⟨chains, h.setCall ?_ not_false ?_⟩
      · rw [hcall]
        exact Iff.rfl
      · rw [hcall]
        rfl
  | writeCount i item_count hcall =>
      rcases ho item_count hcall with ⟨hsame, hfits⟩
      exact ⟨chains, h.writeCount hcall hsame hfits⟩

/-! ### The table as a set -/

/-- When no call is in progress, all items in the table are counted. -/
theorem Kept.keepsSet (h : Kept list chains s) : KeepsSet list s := by
  intro hquiet
  have hin : ∀ i, i ∈ chains.flatten ↔ s.calls i = .returned true := by
    intro i
    rw [h.inTable i]
    rcases hquiet i with hcall | ⟨retval, hcall⟩
    · rw [hcall]
      exact iff_of_false not_false (by simp only [reduceCtorEq, not_false_eq_true])
    · rw [hcall]
      cases retval with
      | true => exact iff_of_true trivial rfl
      | false => exact iff_of_false not_false (by simp only [InsertCall.returned.injEq,
          Bool.false_eq_true, not_false_eq_true])
  refine ⟨chains, h.chained, hin, ?_⟩
  rw [h.counted]
  exact congrArg Nat.cast (List.countP_eq_length.mpr
    (fun i hi => decide_eq_true ((hin i).mp hi)))

theorem kept_start (hset : SetUp table list) (hinit : Initialised m table list)
    (hpath : ∀ i, (m.key i).FilePathBuffer ≠ []) :
    Kept list (List.replicate table.bucket_count.toNat []) (start m table) := by
  have hflatten : (List.replicate table.bucket_count.toNat ([] : List Nat)).flatten = [] :=
    List.flatten_replicate_nil
  refine ⟨hset, chained_replicate m table.bucket_count list hinit.prev hinit.next, hpath, ?_,
    ?_, ?_, ?_, ?_, ?_⟩
  · intro i
    rw [hflatten]
    exact iff_of_false List.not_mem_nil not_false
  · exact fun i head hcall => absurd hcall (by simp only [start, reduceCtorEq, not_false_eq_true])
  · exact fun i head prev hcall => absurd hcall (by
      simp only [start, reduceCtorEq, not_false_eq_true])
  · exact fun i hi => hi.elim
  · exact fun i j hi => hi.elim
  · rw [hflatten]
    exact congrArg Int32.toInt hinit.item_count

/-- In every state of a run from an initialised table whose steps do not get in each other's
    way, the table is a set when no call is in progress. -/
theorem inserts_keep (hset : SetUp table list) (hinit : Initialised m table list)
    (hpath : ∀ i, (m.key i).FilePathBuffer ≠ []) (ls : List Label)
    (ho : Machine.StepsMeet step Orderly (start m table) ls) :
    Machine.Throughout step (KeepsSet list) (start m table) ls := by
  have hkept : Machine.Throughout step (fun s => ∃ chains, Kept list chains s) (start m table)
      ls := by
    refine Machine.throughout_of_stepsMeet step Orderly _ (fun s l t h hl hst => ?_) _ ls
      ⟨_, kept_start hset hinit hpath⟩ ho
    rcases h with ⟨chains, hchains⟩
    exact kept_step hchains hl (stepped_of_step hst)
  refine hkept.mono step (fun s h => ?_)
  rcases h with ⟨chains, hchains⟩
  exact hchains.keepsSet

/-! ### One bucket -/

/-- A table with one bucket, which is empty. -/
def oneBucket : HashTb where
  bucket_count := 1
  hash_list := some 0
  item_count := 0
  compare_item := some comparePeCache
  hash_calc := some hashCalc

/-- Its memory, with items that have keys. -/
def oneRing (key : Nat → PeCacheItemKey) : Mem where
  links :=
    { prev := fun p => if p = .head 0 0 then some p else none
      next := fun p => if p = .head 0 0 then some p else none }
  key := key

/-- A path of eight characters. -/
def pathKey (c : UInt16) : PeCacheItemKey where
  FilePathBuffer := List.replicate 8 c
  FilePathLen := 8
  FileSize := 1
  LastWriteTime := 1

theorem setUp_oneBucket : SetUp oneBucket 0 :=
  ⟨by decide, rfl, rfl, rfl⟩

theorem initialised_oneBucket (key : Nat → PeCacheItemKey) :
    Initialised (oneRing key) oneBucket 0 := by
  have hone : ∀ i, i < oneBucket.bucket_count.toNat → i = 0 := fun i hi => Nat.lt_one_iff.mp hi
  refine ⟨fun i hi => ?_, fun i hi => ?_, rfl⟩
  · rw [hone i hi]
    rfl
  · rw [hone i hi]
    rfl

/-- Two calls with different keys: both search before either has put its item in, and both count
    after both have. -/
theorem inserts_keep_two : Machine.Throughout step (KeepsSet 0)
    (start (oneRing fun i => pathKey (UInt16.ofNat (97 + i))) oneBucket)
    [.search 0 3, .search 1 3, .point 0, .link 0, .point 1, .link 1, .readCount 0, .writeCount 0,
      .readCount 1, .writeCount 1] := by
  have hpath : ∀ i, (pathKey (UInt16.ofNat (97 + i))).FilePathBuffer ≠ [] :=
    fun i => List.cons_ne_nil _ _
  refine inserts_keep setUp_oneBucket (initialised_oneBucket _) hpath _ ?_
  refine Machine.stepsMeet_cons step (fun j hj => hj.elim) rfl
    (Machine.stepsMeet_cons step (fun j hj => ?_) rfl
    (Machine.stepsMeet_cons step trivial rfl
    (Machine.stepsMeet_cons step (fun head prev hcall => ?_) rfl
    (Machine.stepsMeet_cons step trivial rfl
    (Machine.stepsMeet_cons step (fun head prev hcall => ?_) rfl
    (Machine.stepsMeet_cons step trivial rfl
    (Machine.stepsMeet_cons step (fun item_count hcall => ?_) rfl
    (Machine.stepsMeet_cons step trivial rfl
    (Machine.stepsMeet_cons step (fun item_count hcall => ?_) rfl trivial)))))))))
  · -- Only the first call waits, and its key is another one.
    rcases Slots.put_cases hj with ⟨rfl, -⟩ | ⟨-, hnot⟩
    · decide
    · exact hnot.elim
  · rcases InsertCall.pointed.inj hcall with ⟨rfl, rfl⟩
    rfl
  · rcases InsertCall.pointed.inj hcall with ⟨rfl, rfl⟩
    rfl
  · rcases InsertCall.counting.inj hcall with rfl
    exact ⟨rfl, by decide⟩
  · rcases InsertCall.counting.inj hcall with rfl
    exact ⟨rfl, by decide⟩

/-- Two calls with the same key search before either has put its item in. -/
theorem inserts_twice : ¬ ∀ ls s,
    Machine.run step (start (oneRing fun _ => pathKey 97) oneBucket) ls = some s →
      KeepsSet 0 s := by
  intro h
  have hset := h [.search 0 1, .search 1 1, .point 0, .link 0, .readCount 0, .writeCount 0,
    .point 1, .link 1, .readCount 1, .writeCount 1] _ rfl
  have hquiet : ∀ i, i = 0 ∨ i = 1 ∨ i ≠ 0 ∧ i ≠ 1 := fun i => by omega
  rcases hset (fun i => by
    rcases hquiet i with rfl | rfl | ⟨hzero, hone⟩
    · exact Or.inr ⟨true, rfl⟩
    · exact Or.inr ⟨true, rfl⟩
    · refine Or.inl ?_
      simp only [State.setCall, Slots.put_of_ne _ _ hzero, Slots.put_of_ne _ _ hone, start]) with
    ⟨chains, hchained, hin, -⟩
  have hzero : 0 ∈ chains.flatten := (hin 0).mpr rfl
  have hone : 1 ∈ chains.flatten := (hin 1).mpr rfl
  exact absurd (List.inj_on_of_nodup_map hchained.nodup hzero hone rfl) Nat.zero_ne_one

end Inserts

end Cache

end Defender
