import Defender.UDisk.Devices

/-!
# What the Relations Are

`BuildDeviceRelation` is two loops, one inside the other, over the same list,
and it fills two links from one comparison: the list of the children of the one
device and the pointer to the parent of the other. Whether the two agree, and
whether a device has one parent, is nothing the function looks at.

When the numbers of the devices differ, they agree, whatever the devices name
as their parents: a device that is not there, or themselves. Every device is
then in the list of at most one other, once, and the children of each are in the
order in which the devices were enumerated.

## Main definitions

* `DeviceTree`: The links are those that the numbers give.

## Theorems

* `linked_unique`: With different numbers there are no two parents.
* `childrenOf_pairwise`: The children come in the order of the list.
* `buildDeviceRelation_tree`: The links are those that the numbers give.
-/

namespace Defender

namespace UDisk

namespace Devices

/-- A device without its links. -/
def unlinked (d : DeviceInfoFull) : DeviceInfoFull :=
  { d with vectChild := [], parent := none }

/-- The links of the devices, which are named by their places in the list, are
    those that their numbers give: the children of a device are those that name
    it, each once and in the order of the list, and the parent is the one device
    that has it for a child. -/
structure DeviceTree (devices t : List DeviceInfoFull) : Prop where
  same : t.map unlinked = devices.map unlinked
  child_iff : ∀ (p c : Nat) (P : DeviceInfoFull), t[p]? = some P → (c ∈ P.vectChild ↔
    ∃ C, t[c]? = some C ∧ C.isParentUSB ≠ 0 ∧ C.ParentDevInst = P.SelfDevInst)
  once : ∀ (p c : Nat) (P : DeviceInfoFull), t[p]? = some P → c ∈ P.vectChild →
    P.vectChild.count c = 1
  parent_iff : ∀ (p c : Nat) (P C : DeviceInfoFull), t[p]? = some P → t[c]? = some C →
    (C.parent = some p ↔ c ∈ P.vectChild)
  parent_place : ∀ (p c : Nat) (C : DeviceInfoFull), t[c]? = some C → C.parent = some p →
    ∃ P, t[p]? = some P
  orphan_iff : ∀ (c : Nat) (C : DeviceInfoFull), t[c]? = some C →
    (C.parent = none ↔ ∀ (p : Nat) (P : DeviceInfoFull), t[p]? = some P → c ∉ P.vectChild)
  one_list : ∀ (p q c : Nat) (P Q : DeviceInfoFull), t[p]? = some P → t[q]? = some Q →
    c ∈ P.vectChild → c ∈ Q.vectChild → p = q
  ordered : ∀ (p : Nat) (P : DeviceInfoFull), t[p]? = some P → P.vectChild.Pairwise (· < ·)

/-- Different places have different numbers. -/
theorem place_eq_of_nodup {devices : List DeviceInfoFull}
    (h : (devices.map DeviceInfoFull.SelfDevInst).Nodup) {i j : Nat} {d e : DeviceInfoFull}
    (hd : devices[i]? = some d) (he : devices[j]? = some e)
    (hname : d.SelfDevInst = e.SelfDevInst) : i = j := by
  have hi : i < (devices.map DeviceInfoFull.SelfDevInst).length := by
    rw [List.length_map]
    exact (List.getElem?_eq_some_iff.mp hd).1
  refine (List.getElem?_inj hi h).mp ?_
  rw [List.getElem?_map, List.getElem?_map, hd, he, Option.map_some, Option.map_some, hname]

/-- With different numbers there are no two parents. -/
theorem linked_unique {devices : List DeviceInfoFull}
    (h : (devices.map DeviceInfoFull.SelfDevInst).Nodup) {a b j : Nat}
    (ha : linked devices a j = true) (hb : linked devices b j = true) : a = b := by
  rcases (linked_iff devices a j).mp ha with ⟨A, C, hA, hC, -, hparentA⟩
  rcases (linked_iff devices b j).mp hb with ⟨B, C', hB, hC', -, hparentB⟩
  rw [hC, Option.some.injEq] at hC'
  exact place_eq_of_nodup h hA hB (by rw [← hparentA, ← hparentB, hC'])

/-- Of the pairs with one first place, the second places come in order. -/
theorem product_pairwise (is js : List Nat) (his : is.Nodup) (hjs : js.Pairwise (· < ·)) :
    (is ×ˢ js).Pairwise (fun q q' => q.1 = q'.1 → q.2 < q'.2) := by
  induction is with
  | nil =>
      rw [List.nil_product]
      exact List.Pairwise.nil
  | cons i is ih =>
      rcases List.nodup_cons.mp his with ⟨hnotin, hnodup⟩
      rw [List.product_cons]
      refine List.pairwise_append.mpr ⟨?_, ih hnodup, ?_⟩
      · refine List.pairwise_map.mpr (hjs.imp ?_)
        exact fun hlt _ => hlt
      · -- A pair of the first device and one of another do not have the first place in common.
        intro q hq q' hq' heq
        rcases List.mem_map.mp hq with ⟨j, -, rfl⟩
        rw [show i = q'.1 from heq] at hnotin
        exact absurd (List.mem_product.mp hq').1 hnotin

/-- The children come in the order of the list. -/
theorem childrenOf_pairwise (devices : List DeviceInfoFull) (k : Nat) :
    (childrenOf devices (allPairs devices) k).Pairwise (· < ·) := by
  have hpairs := product_pairwise (List.range devices.length) (List.range devices.length)
    List.nodup_range List.pairwise_lt_range
  unfold childrenOf
  refine List.pairwise_map.mpr ?_
  refine (hpairs.filter _).imp_of_mem (fun hq hq' hlt => hlt ?_)
  -- All the pairs that are left have `k` for their first place.
  have hfirst := (List.mem_filter.mp hq).2
  have hfirst' := (List.mem_filter.mp hq').2
  rw [Bool.and_eq_true, beq_iff_eq] at hfirst hfirst'
  exact hfirst.1.trans hfirst'.1.symm

/-- A device without a parent is linked to by none. -/
theorem parentOf_eq_none_iff (devices : List DeviceInfoFull) (k : Nat) :
    parentOf devices (allPairs devices) k = none ↔ ∀ a, linked devices a k = false := by
  unfold parentOf
  rw [List.getLast?_eq_none_iff, List.map_eq_nil_iff, List.filter_eq_nil_iff]
  constructor
  · intro h a
    refine Bool.eq_false_iff.mpr (fun hlinked => ?_)
    refine h (a, k) (mem_allPairs devices a k hlinked) ?_
    rw [hlinked, beq_self_eq_true, Bool.and_true]
  · rintro h ⟨a, j⟩ - hboth
    rw [Bool.and_eq_true, beq_iff_eq] at hboth
    rw [hboth.1, h a] at hboth
    exact Bool.false_ne_true hboth.2

/-- A device of the result is one of the list, with its links. -/
theorem of_getElem?_related {devices : List DeviceInfoFull} {k : Nat} {d : DeviceInfoFull}
    (h : (related devices (allPairs devices))[k]? = some d) :
    ∃ d0, devices[k]? = some d0 ∧ d = { d0 with
      vectChild := childrenOf devices (allPairs devices) k
      parent := parentOf devices (allPairs devices) k } := by
  rw [getElem?_related] at h
  rcases Option.map_eq_some_iff.mp h with ⟨d0, hd0, heq⟩
  exact ⟨d0, hd0, heq.symm⟩

theorem mem_vectChild_related {devices : List DeviceInfoFull} {p : Nat} {P : DeviceInfoFull}
    (hP : (related devices (allPairs devices))[p]? = some P) (c : Nat) :
    c ∈ P.vectChild ↔ linked devices p c = true := by
  rcases of_getElem?_related hP with ⟨P0, -, rfl⟩
  exact mem_childrenOf devices p c

theorem parent_related_eq_some_iff {devices : List DeviceInfoFull}
    (hdistinct : (devices.map DeviceInfoFull.SelfDevInst).Nodup) {c : Nat} {C : DeviceInfoFull}
    (hC : (related devices (allPairs devices))[c]? = some C) (p : Nat) :
    C.parent = some p ↔ linked devices p c = true := by
  rcases of_getElem?_related hC with ⟨C0, -, rfl⟩
  exact parentOf_eq_some_iff devices c p (fun a b => linked_unique hdistinct)

theorem parent_related_eq_none_iff {devices : List DeviceInfoFull} {c : Nat} {C : DeviceInfoFull}
    (hC : (related devices (allPairs devices))[c]? = some C) :
    C.parent = none ↔ ∀ p, linked devices p c = false := by
  rcases of_getElem?_related hC with ⟨C0, -, rfl⟩
  exact parentOf_eq_none_iff devices c

/-- A device that has children is in the result. -/
theorem related_of_linked {devices : List DeviceInfoFull} {p c : Nat}
    (h : linked devices p c = true) : ∃ P, (related devices (allPairs devices))[p]? = some P := by
  rcases (linked_iff devices p c).mp h with ⟨P0, -, hP0, -⟩
  rw [getElem?_related, hP0]
  exact ⟨_, rfl⟩

/-- With different numbers, and no links yet, the links become those that the
    numbers give. -/
theorem buildDeviceRelation_tree (devices : List DeviceInfoFull) (hfresh : Fresh devices)
    (hdistinct : (devices.map DeviceInfoFull.SelfDevInst).Nodup) :
    DeviceTree devices (buildDeviceRelation devices) := by
  rw [buildDeviceRelation_eq devices hfresh]
  refine ⟨List.ext_getElem? (fun k => ?_), fun p c P hP => ?_, fun p c P hP hc => ?_,
    fun p c P C hP hC => ?_, fun p c C hC hp => ?_, fun c C hC => ?_,
    fun p q c P Q hP hQ hcP hcQ => ?_, fun p P hP => ?_⟩
  · -- Everything but the links is as it was.
    rw [List.getElem?_map, List.getElem?_map, getElem?_related]
    cases devices[k]? with
    | none => rfl
    | some d => rfl
  · rw [mem_vectChild_related hP c]
    rcases of_getElem?_related hP with ⟨P0, hP0, rfl⟩
    rw [linked_iff]
    constructor
    · rintro ⟨P1, C1, hP1, hC1, husb, hname⟩
      rw [hP0, Option.some.injEq] at hP1
      refine ⟨_, (getElem?_related devices (allPairs devices) c).trans (congrArg _ hC1), husb, ?_⟩
      rw [hP1]
      exact hname
    · rintro ⟨C, hC, husb, hname⟩
      rcases of_getElem?_related hC with ⟨C0, hC0, rfl⟩
      exact ⟨P0, C0, hP0, hC0, husb, hname⟩
  · rcases of_getElem?_related hP with ⟨P0, -, rfl⟩
    exact List.count_eq_one_of_mem (nodup_childrenOf devices p) hc
  · rw [parent_related_eq_some_iff hdistinct hC p, mem_vectChild_related hP c]
  · exact related_of_linked ((parent_related_eq_some_iff hdistinct hC p).mp hp)
  · rw [parent_related_eq_none_iff hC]
    constructor
    · intro h p P hP hc
      exact absurd (((mem_vectChild_related hP c).mp hc).symm.trans (h p)) (by decide)
    · intro h p
      refine Bool.eq_false_iff.mpr (fun hlinked => ?_)
      rcases related_of_linked hlinked with ⟨P, hP⟩
      exact h p P hP ((mem_vectChild_related hP c).mpr hlinked)
  · exact linked_unique hdistinct ((mem_vectChild_related hP c).mp hcP)
      ((mem_vectChild_related hQ c).mp hcQ)
  · rcases of_getElem?_related hP with ⟨P0, -, rfl⟩
    exact childrenOf_pairwise devices p

/-- A hub, a device that names itself, and a mouse at the hub that comes before
    it. -/
def hubBehindMouse : List DeviceInfoFull :=
  [⟨2, 1, 1, true, 0, [], none⟩, ⟨3, 3, 1, false, 0, [], none⟩, ⟨1, 9, 1, false, 0, [], none⟩]

theorem buildDeviceRelation_tree_hub :
    DeviceTree hubBehindMouse (buildDeviceRelation hubBehindMouse) :=
  buildDeviceRelation_tree hubBehindMouse (by decide) (by decide)

example : (buildDeviceRelation hubBehindMouse).map (fun d => (d.vectChild, d.parent))
    = [([], some 2), ([1], some 1), ([0], none)] := by
  decide

end Devices

end UDisk

end Defender
