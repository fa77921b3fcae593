import Defender.Lib.Machine
import Mathlib.Data.List.Nodup
import Mathlib.Data.List.ProdSigma

/-!
# The Devices and Their Trees

The list `g_vecDevice`, as it is built when devices come or go. Of a device
there are its own number and that of its parent, whether the parent is a USB
device, and the mark `bIgnore`.

`BuildDeviceRelation` gives every device pointers to its children and to its
parent, which it finds by the numbers. Then the marks are to be brought to the
whole tree, by two functions that call themselves: one goes down from a device
and marks the children of marked devices, and one goes up from it, to a parent
that is not marked yet. Both go through the pointers, and the model gives them
a number of steps.

A pointer to a device is its place in the list.

## Main definitions

* `DeviceInfoFull`: A device.
* `buildDeviceRelation`: The loops over the list.
* `rsynUSBChildignoreState`, `rsynUSBParentAndChlidignoreState`: Down and up.
* `dealDeviceChangeMsg`: All of it.
* `related`: The pointers as they should be.

## Theorems

* `buildDeviceRelation_eq`: The pointers are as they should be.
* `mem_childrenOf`, `parentOf_eq_some_iff`: What they point to.
-/

namespace Defender

namespace UDisk

namespace Devices

/-- `DeviceInfoFull`, where a pointer is a place in `g_vecDevice`. -/
structure DeviceInfoFull where
  SelfDevInst : UInt32
  ParentDevInst : UInt32
  isParentUSB : Int32
  bIgnore : Bool
  iAction : Int32
  vectChild : List Nat
  parent : Option Nat
  deriving DecidableEq, Repr

/-- `DEVICE_KEEP`. -/
def deviceKeep : Int32 := 0

/-- The body of the loops of `BuildDeviceRelation`. -/
def linkChild (devices : List DeviceInfoFull) (it it2 : Nat) : List DeviceInfoFull :=
  match devices[it]?, devices[it2]? with
  | some USBDevInfo, some ChildInfo =>
      if ChildInfo.isParentUSB = 0 then devices
      else if ChildInfo.ParentDevInst = USBDevInfo.SelfDevInst then
        (devices.modify it (fun d => { d with vectChild := d.vectChild ++ [it2] })).modify it2
          (fun d => { d with parent := some it })
      else devices
  | _, _ => devices

/-- `BuildDeviceRelation`. -/
def buildDeviceRelation (devices : List DeviceInfoFull) : List DeviceInfoFull :=
  (List.range devices.length).foldl
    (fun devices it => (List.range devices.length).foldl
      (fun devices it2 => linkChild devices it it2) devices) devices

/-- A device is marked, and its action is `DEVICE_KEEP`. -/
def ignore (devices : List DeviceInfoFull) (it : Nat) : List DeviceInfoFull :=
  devices.modify it (fun d =>
    { d with
      bIgnore := true
      iAction := if d.iAction ≠ deviceKeep then deviceKeep else d.iAction })

/-- The body of the loop of `RsynUSBChildignoreState`, which goes on with
    `descend`. -/
def childStep (descend : List DeviceInfoFull → Nat → Option (List DeviceInfoFull)) (i : Nat)
    (devices : List DeviceInfoFull) (it : Nat) : Option (List DeviceInfoFull) :=
  match devices[i]?, devices[it]? with
  | some USBDeviceInfo, some childDevInfo =>
      -- A child that is marked here has its own children left out.
      if USBDeviceInfo.bIgnore = true ∧ childDevInfo.bIgnore = false then some (ignore devices it)
      else if childDevInfo.vectChild ≠ [] then descend devices it
      else some devices
  | _, _ => none

/-- `RsynUSBChildignoreState`. -/
def rsynUSBChildignoreState : Nat → List DeviceInfoFull → Nat → Option (List DeviceInfoFull)
  | 0, _, _ => none
  | fuel + 1, devices, i =>
      match devices[i]? with
      | none => none
      | some USBDeviceInfo =>
          USBDeviceInfo.vectChild.foldlM (childStep (rsynUSBChildignoreState fuel) i) devices

/-- `RsynUSBParentAndChlidignoreState`. -/
def rsynUSBParentAndChlidignoreState :
    Nat → List DeviceInfoFull → Nat → Option (List DeviceInfoFull)
  | 0, _, _ => none
  | fuel + 1, devices, i =>
      match devices[i]? with
      | none => none
      | some childDevInfo =>
          match (if childDevInfo.vectChild ≠ [] then rsynUSBChildignoreState fuel devices i
            else some devices) with
          | none => none
          | some devices =>
              match devices[i]? with
              | none => none
              | some childDevInfo =>
                  match childDevInfo.parent with
                  | none => some devices
                  | some parent =>
                      match devices[parent]? with
                      | none => none
                      | some USBDeviceInfo =>
                          if childDevInfo.bIgnore = true ∧ USBDeviceInfo.bIgnore = false then
                            rsynUSBParentAndChlidignoreState fuel (ignore devices parent) parent
                          else some devices

/-- `DealDeviceChangeMsg`, of the list that was enumerated: the relations, and a
    turn for each device. -/
def dealDeviceChangeMsg (fuel : Nat) (devices : List DeviceInfoFull) :
    Option (List DeviceInfoFull) :=
  Machine.run (rsynUSBParentAndChlidignoreState fuel) (buildDeviceRelation devices)
    (List.range devices.length)

/-- A device that is marked keeps the rest, and so do the others. -/
theorem getElem?_ignore (devices : List DeviceInfoFull) (it k : Nat) :
    (ignore devices it)[k]? = if it = k
      then devices[k]?.map (fun d => { d with bIgnore := true, iAction := deviceKeep })
      else devices[k]? := by
  have hkeep : ∀ a : Int32, (if a ≠ deviceKeep then deviceKeep else a) = deviceKeep := by
    intro a
    by_cases ha : a = deviceKeep
    · rw [if_neg (not_not.mpr ha), ha]
    · rw [if_pos ha]
  unfold ignore
  rw [List.getElem?_modify]
  by_cases hk : it = k
  · simp only [if_pos hk, hkeep, Option.map_eq_map]
  · simp only [if_neg hk, Option.map_eq_map, Option.map_id']

/-! ### The relations -/

/-- The device `it2` has `it` for its parent. -/
def linked (devices : List DeviceInfoFull) (it it2 : Nat) : Bool :=
  match devices[it]?, devices[it2]? with
  | some P, some C => C.isParentUSB ≠ 0 && C.ParentDevInst = P.SelfDevInst
  | _, _ => false

/-- The children of `k`, of the pairs that the loops have been through. -/
def childrenOf (devices : List DeviceInfoFull) (pairs : List (Nat × Nat)) (k : Nat) : List Nat :=
  (pairs.filter (fun q => q.1 == k && linked devices q.1 q.2)).map Prod.snd

/-- The last parent of `k`. -/
def parentOf (devices : List DeviceInfoFull) (pairs : List (Nat × Nat)) (k : Nat) : Option Nat :=
  ((pairs.filter (fun q => q.2 == k && linked devices q.1 q.2)).map Prod.fst).getLast?

/-- The devices, with their pointers. -/
def related (devices : List DeviceInfoFull) (pairs : List (Nat × Nat)) : List DeviceInfoFull :=
  devices.mapIdx (fun k d =>
    { d with vectChild := childrenOf devices pairs k, parent := parentOf devices pairs k })

/-- Devices as they are enumerated have no pointers. -/
def Fresh (devices : List DeviceInfoFull) : Prop :=
  ∀ d ∈ devices, d.vectChild = [] ∧ d.parent = none

instance (devices : List DeviceInfoFull) : Decidable (Fresh devices) :=
  inferInstanceAs (Decidable (∀ d ∈ devices, _))

theorem getElem?_related (devices : List DeviceInfoFull) (pairs : List (Nat × Nat)) (k : Nat) :
    (related devices pairs)[k]? = devices[k]?.map (fun d =>
      { d with vectChild := childrenOf devices pairs k, parent := parentOf devices pairs k }) :=
  List.getElem?_mapIdx

theorem related_nil (devices : List DeviceInfoFull) (h : Fresh devices) :
    related devices [] = devices := by
  refine List.ext_getElem? (fun k => ?_)
  rw [getElem?_related]
  cases hk : devices[k]? with
  | none => rfl
  | some d =>
      rcases h d (List.mem_of_getElem? hk) with ⟨hchild, hparent⟩
      rw [Option.map_some, show childrenOf devices [] k = d.vectChild from hchild.symm,
        show parentOf devices [] k = d.parent from hparent.symm]

theorem childrenOf_snoc (devices : List DeviceInfoFull) (pairs : List (Nat × Nat)) (i j k : Nat) :
    childrenOf devices (pairs ++ [(i, j)]) k
      = childrenOf devices pairs k ++ if i = k ∧ linked devices i j = true then [j] else [] := by
  unfold childrenOf
  rw [List.filter_append, List.map_append]
  by_cases h : i = k ∧ linked devices i j = true
  · rw [if_pos h, List.filter_cons_of_pos]
    · rfl
    · rw [Bool.and_eq_true, beq_iff_eq]
      exact h
  · rw [if_neg h, List.filter_cons_of_neg]
    · rfl
    · rw [Bool.and_eq_true, beq_iff_eq]
      exact h

theorem parentOf_snoc (devices : List DeviceInfoFull) (pairs : List (Nat × Nat)) (i j k : Nat) :
    parentOf devices (pairs ++ [(i, j)]) k
      = if j = k ∧ linked devices i j = true then some i else parentOf devices pairs k := by
  unfold parentOf
  rw [List.filter_append, List.map_append]
  by_cases h : j = k ∧ linked devices i j = true
  · rw [if_pos h, List.filter_cons_of_pos]
    · exact List.getLast?_concat
    · rw [Bool.and_eq_true, beq_iff_eq]
      exact h
  · rw [if_neg h, List.filter_cons_of_neg]
    · rw [List.filter_nil, List.map_nil, List.append_nil]
    · rw [Bool.and_eq_true, beq_iff_eq]
      exact h

theorem linked_iff (devices : List DeviceInfoFull) (i j : Nat) :
    linked devices i j = true ↔ ∃ P C, devices[i]? = some P ∧ devices[j]? = some C ∧
      C.isParentUSB ≠ 0 ∧ C.ParentDevInst = P.SelfDevInst := by
  unfold linked
  cases hi : devices[i]? with
  | none => simp only [Bool.false_eq_true, reduceCtorEq, false_and, exists_false]
  | some P =>
      cases hj : devices[j]? with
      | none => simp only [Bool.false_eq_true, reduceCtorEq, false_and, and_false, exists_false]
      | some C =>
          simp only [Bool.and_eq_true, decide_eq_true_eq, Option.some.injEq]
          constructor
          · rintro ⟨husb, hparent⟩
            exact ⟨P, C, rfl, rfl, husb, hparent⟩
          · rintro ⟨P', C', rfl, rfl, husb, hparent⟩
            exact ⟨husb, hparent⟩

/-- The body of the loops goes on by one pair. -/
theorem linkChild_related (devices : List DeviceInfoFull) (pairs : List (Nat × Nat)) (i j : Nat) :
    linkChild (related devices pairs) i j = related devices (pairs ++ [(i, j)]) := by
  refine List.ext_getElem? (fun k => ?_)
  rw [getElem?_related devices (pairs ++ [(i, j)]), childrenOf_snoc, parentOf_snoc]
  -- A pair that is not linked changes nothing; one that is, two devices at most.
  by_cases hlinked : linked devices i j = true
  · rcases (linked_iff devices i j).mp hlinked with ⟨P, C, hP, hC, husb, hparent⟩
    unfold linkChild
    simp only [getElem?_related, hP, hC, Option.map_some]
    rw [if_neg husb, if_pos hparent, List.getElem?_modify, List.getElem?_modify, getElem?_related]
    cases devices[k]? with
    | none => rfl
    | some d =>
        simp only [hlinked, and_true, Option.map_some, Option.map_eq_map]
        -- The device asked for may be the parent, the child, or both.
        by_cases hik : i = k
        · by_cases hjk : j = k
          · simp only [hik, hjk, if_true]
          · simp only [hik, hjk, if_true, if_false]
        · by_cases hjk : j = k
          · simp only [hik, hjk, if_true, if_false, List.append_nil]
          · simp only [hik, hjk, if_false, List.append_nil]
  · have hsame : linkChild (related devices pairs) i j = related devices pairs := by
      unfold linkChild
      rw [linked_iff] at hlinked
      cases hi : devices[i]? with
      | none => simp only [getElem?_related, hi, Option.map_none]
      | some P =>
          cases hj : devices[j]? with
          | none => simp only [getElem?_related, hi, hj, Option.map_none, Option.map_some]
          | some C =>
              simp only [getElem?_related, hi, hj, Option.map_some]
              by_cases husb : C.isParentUSB = 0
              · rw [if_pos husb]
              · rw [if_neg husb, if_neg (fun hparent => hlinked ⟨P, C, hi, hj, husb, hparent⟩)]
    rw [hsame, getElem?_related]
    simp only [hlinked, and_false, if_false, List.append_nil, Bool.false_eq_true]

/-- The inner loop, for the device `i`. -/
theorem foldl_inner (devices : List DeviceInfoFull) (i : Nat) (js : List Nat)
    (pairs : List (Nat × Nat)) :
    js.foldl (fun t j => linkChild t i j) (related devices pairs)
      = related devices (pairs ++ js.map (Prod.mk i)) := by
  induction js generalizing pairs with
  | nil => rw [List.foldl_nil, List.map_nil, List.append_nil]
  | cons j js ih =>
      rw [List.foldl_cons, linkChild_related, ih, List.map_cons, List.append_assoc,
        List.singleton_append]

/-- The outer loop, over the devices `is`. -/
theorem foldl_outer (devices : List DeviceInfoFull) (is : List Nat) (pairs : List (Nat × Nat)) :
    is.foldl (fun t i => (List.range t.length).foldl (fun t j => linkChild t i j) t)
        (related devices pairs)
      = related devices (pairs ++ is ×ˢ List.range devices.length) := by
  induction is generalizing pairs with
  | nil => rw [List.foldl_nil, List.nil_product, List.append_nil]
  | cons i is ih =>
      have hlength : (related devices pairs).length = devices.length := List.length_mapIdx
      rw [List.foldl_cons, hlength, foldl_inner, ih, List.product_cons, List.append_assoc]

/-- The pairs that the loops go through. -/
def allPairs (devices : List DeviceInfoFull) : List (Nat × Nat) :=
  List.range devices.length ×ˢ List.range devices.length

/-- Devices that had no pointers get all of them. -/
theorem buildDeviceRelation_eq (devices : List DeviceInfoFull) (h : Fresh devices) :
    buildDeviceRelation devices = related devices (allPairs devices) := by
  have houter := foldl_outer devices (List.range devices.length) []
  rw [related_nil devices h] at houter
  exact houter

theorem mem_allPairs (devices : List DeviceInfoFull) (i j : Nat)
    (h : linked devices i j = true) : (i, j) ∈ allPairs devices := by
  rcases (linked_iff devices i j).mp h with ⟨P, C, hP, hC, -⟩
  have hi := (List.getElem?_eq_some_iff.mp hP).1
  have hj := (List.getElem?_eq_some_iff.mp hC).1
  exact List.mem_product.mpr ⟨List.mem_range.mpr hi, List.mem_range.mpr hj⟩

/-- The children of a device are those whose parent it is. -/
theorem mem_childrenOf (devices : List DeviceInfoFull) (k j : Nat) :
    j ∈ childrenOf devices (allPairs devices) k ↔ linked devices k j = true := by
  unfold childrenOf
  rw [List.mem_map]
  constructor
  · rintro ⟨⟨i, j'⟩, hmem, rfl⟩
    have hboth := (List.mem_filter.mp hmem).2
    rw [Bool.and_eq_true, beq_iff_eq] at hboth
    exact hboth.1 ▸ hboth.2
  · intro hlinked
    refine ⟨(k, j), List.mem_filter.mpr ⟨mem_allPairs devices k j hlinked, ?_⟩, rfl⟩
    rw [hlinked, beq_self_eq_true, Bool.and_true]

/-- No child is listed twice. -/
theorem nodup_childrenOf (devices : List DeviceInfoFull) (k : Nat) :
    (childrenOf devices (allPairs devices) k).Nodup := by
  have hpairs : (allPairs devices).Nodup := List.Nodup.product List.nodup_range List.nodup_range
  refine List.Nodup.map_on ?_ (hpairs.filter _)
  rintro ⟨i, j⟩ hp ⟨i', j'⟩ hp' heq
  have hi := (List.mem_filter.mp hp).2
  have hi' := (List.mem_filter.mp hp').2
  rw [Bool.and_eq_true, beq_iff_eq] at hi hi'
  exact Prod.ext (hi.1.trans hi'.1.symm) heq

/-- Where a device has one parent, the pointer is to it. -/
theorem parentOf_eq_some_iff (devices : List DeviceInfoFull) (k i : Nat)
    (hunique : ∀ a b, linked devices a k = true → linked devices b k = true → a = b) :
    parentOf devices (allPairs devices) k = some i ↔ linked devices i k = true := by
  have hmem : ∀ a, a ∈ ((allPairs devices).filter
      (fun q => q.2 == k && linked devices q.1 q.2)).map Prod.fst ↔ linked devices a k = true := by
    intro a
    rw [List.mem_map]
    constructor
    · rintro ⟨⟨a', j⟩, hq, rfl⟩
      have hboth := (List.mem_filter.mp hq).2
      rw [Bool.and_eq_true, beq_iff_eq] at hboth
      exact hboth.1 ▸ hboth.2
    · intro hlinked
      refine ⟨(a, k), List.mem_filter.mpr ⟨mem_allPairs devices a k hlinked, ?_⟩, rfl⟩
      rw [hlinked, beq_self_eq_true, Bool.and_true]
  unfold parentOf
  rw [← hmem]
  constructor
  · exact List.mem_of_getLast?
  · intro hi
    cases hlast : (((allPairs devices).filter
        (fun q => q.2 == k && linked devices q.1 q.2)).map Prod.fst).getLast? with
    | none =>
        rw [List.getLast?_eq_none_iff] at hlast
        rw [hlast] at hi
        exact absurd hi List.not_mem_nil
    | some a =>
        rw [hunique a i ((hmem a).mp (List.mem_of_getLast? hlast)) ((hmem i).mp hi)]

end Devices

end UDisk

end Defender
