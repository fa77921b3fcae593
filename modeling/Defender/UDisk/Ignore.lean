import Defender.Lib.Spread
import Defender.UDisk.Relations

/-!
# Which Devices are Ignored

The devices are named by their numbers, and `Link` is the relation that the
numbers of the parents make. The marks `bIgnore` are to spread over its trees.

Going down from a device is a pass in the sense of `Spread`, and the call for a
device is a turn (`rsynUSBChildignoreState_push`,
`rsynUSBParentAndChlidignoreState_turn`), and both come to an end. The loop of
`DealDeviceChangeMsg` gives each device one turn, in the order of the list. So
what is said of turns holds of it (`devices_spread_iff`): the marks spread
exactly when no turn leaves a device behind, and whatever the order and the
marks exactly when no device has a grandchild. In the order in which they are
named, the devices of the comment's tree are not all marked
(`devices_notSpread`).

## Main definitions

* `Link`, `DevForest`: The trees.
* `Ignored`: The marks.
* `Built`: The list with its pointers, whatever the marks.
* `Spreads`, `NoneLeftBehind`: What is asked for, and what it depends on.
* `Reordered`: The same devices in another order, with other marks.

## Theorems

* `rsynUSBChildignoreState_push`: Going down.
* `rsynUSBParentAndChlidignoreState_turn`: A turn.
* `devices_spread_iff`: When the marks spread.
* `devices_notSpread`: When they do not.
-/

namespace Defender

namespace UDisk

namespace Devices

open Relation Spread Machine

/-! ### Trees of devices -/

/-- The device `c` has `p` for its parent, by their numbers. -/
def Link (devices : List DeviceInfoFull) (p c : UInt32) : Prop :=
  ∃ P ∈ devices, ∃ C ∈ devices, P.SelfDevInst = p ∧ C.SelfDevInst = c ∧ C.isParentUSB ≠ 0 ∧
    C.ParentDevInst = p

instance (devices : List DeviceInfoFull) (p c : UInt32) : Decidable (Link devices p c) :=
  inferInstanceAs (Decidable (∃ P ∈ devices, ∃ C ∈ devices, _))

/-- The numbers are different, and no device is above itself. -/
structure DevForest (devices : List DeviceInfoFull) : Prop where
  distinct : (devices.map DeviceInfoFull.SelfDevInst).Nodup
  acyclic : ∀ x, ¬ TransGen (Link devices) x x

/-- The devices that are marked, by their numbers. -/
def Ignored (devices : List DeviceInfoFull) (x : UInt32) : Prop :=
  ∃ d ∈ devices, d.SelfDevInst = x ∧ d.bIgnore = true

instance (devices : List DeviceInfoFull) (x : UInt32) : Decidable (Ignored devices x) :=
  inferInstanceAs (Decidable (∃ d ∈ devices, _))

/-- A device but for its mark. -/
def shape (d : DeviceInfoFull) : DeviceInfoFull :=
  { d with bIgnore := false, iAction := deviceKeep }

/-- The devices with their pointers, whatever the marks. -/
def Built (devices t : List DeviceInfoFull) : Prop :=
  t.map shape = (buildDeviceRelation devices).map shape

/-- The number of the device at a place. -/
def nameAt (devices : List DeviceInfoFull) (i : Nat) : UInt32 :=
  ((devices[i]?).map DeviceInfoFull.SelfDevInst).getD 0

theorem nameAt_eq {devices : List DeviceInfoFull} {i : Nat} {d : DeviceInfoFull}
    (h : devices[i]? = some d) : nameAt devices i = d.SelfDevInst := by
  rw [nameAt, h]
  rfl

/-- Different places have different numbers. -/
theorem DevForest.place_eq {devices : List DeviceInfoFull} (h : DevForest devices) {i j : Nat}
    {d e : DeviceInfoFull} (hd : devices[i]? = some d) (he : devices[j]? = some e)
    (hname : d.SelfDevInst = e.SelfDevInst) : i = j :=
  place_eq_of_nodup h.distinct hd he hname

theorem DevForest.device_eq {devices : List DeviceInfoFull} (h : DevForest devices)
    {d e : DeviceInfoFull} (hd : d ∈ devices) (he : e ∈ devices)
    (hname : d.SelfDevInst = e.SelfDevInst) : d = e := by
  rcases List.mem_iff_getElem?.mp hd with ⟨i, hi⟩
  rcases List.mem_iff_getElem?.mp he with ⟨j, hj⟩
  rw [h.place_eq hi hj hname, hj, Option.some.injEq] at hi
  exact hi.symm

/-- Going up does not come back either. -/
theorem DevForest.acyclic_swap {devices : List DeviceInfoFull} (h : DevForest devices)
    (x : UInt32) : ¬ TransGen (Function.swap (Link devices)) x x := by
  rw [transGen_swap]
  exact h.acyclic x

/-- The numbers make a forest. -/
theorem DevForest.forest {devices : List DeviceInfoFull} (h : DevForest devices) :
    Forest (Link devices) where
  unique := by
    rintro p q c ⟨-, -, C, hC, -, hc, -, hp⟩ ⟨-, -, C', hC', -, hc', -, hq⟩
    rw [← hp, ← hq, h.device_eq hC hC' (hc.trans hc'.symm)]
  acyclic := h.acyclic

/-- What the loops of `BuildDeviceRelation` look for are the links. -/
theorem DevForest.linked_iff_link {devices : List DeviceInfoFull} (h : DevForest devices)
    {i j : Nat} {P C : DeviceInfoFull} (hP : devices[i]? = some P) (hC : devices[j]? = some C) :
    linked devices i j = true ↔ Link devices P.SelfDevInst C.SelfDevInst := by
  rw [linked_iff]
  constructor
  · rintro ⟨P', C', hP', hC', husb, hparent⟩
    rw [hP, Option.some.injEq] at hP'
    rw [hC, Option.some.injEq] at hC'
    rw [← hP', ← hC'] at hparent
    exact ⟨P, List.mem_of_getElem? hP, C, List.mem_of_getElem? hC, rfl, rfl, hC' ▸ husb, hparent⟩
  · rintro ⟨-, -, C', hC', -, hname, husb, hparent⟩
    rw [h.device_eq hC' (List.mem_of_getElem? hC) hname] at husb hparent
    exact ⟨P, C, hP, hC, husb, hparent⟩

theorem exists_place_of_link {devices : List DeviceInfoFull} {p c : UInt32}
    (h : Link devices p c) :
    ∃ (i j : Nat) (P C : DeviceInfoFull), devices[i]? = some P ∧ devices[j]? = some C ∧
      P.SelfDevInst = p ∧ C.SelfDevInst = c := by
  rcases h with ⟨P, hP, C, hC, hp, hc, -⟩
  rcases List.mem_iff_getElem?.mp hP with ⟨i, hi⟩
  rcases List.mem_iff_getElem?.mp hC with ⟨j, hj⟩
  exact ⟨i, j, P, C, hi, hj, hp, hc⟩

/-! ### The list with its pointers -/

variable {devices t : List DeviceInfoFull}

theorem built_buildDeviceRelation (devices : List DeviceInfoFull) :
    Built devices (buildDeviceRelation devices) :=
  rfl

/-- A mark leaves the rest as it is. -/
theorem Built.ignore (h : Built devices t) (k : Nat) : Built devices (ignore t k) := by
  unfold Built
  rw [← show t.map shape = _ from h]
  refine List.ext_getElem? (fun j => ?_)
  rw [List.getElem?_map, List.getElem?_map, getElem?_ignore]
  by_cases hkj : k = j
  · rw [if_pos hkj, Option.map_map]
    rfl
  · rw [if_neg hkj]

/-- What is known of a device and its pointers. -/
structure Knows (devices : List DeviceInfoFull) (k : Nat) (d : DeviceInfoFull) : Prop where
  self : ∃ d0, devices[k]? = some d0 ∧ d0.SelfDevInst = d.SelfDevInst
  vectChild : d.vectChild = childrenOf devices (allPairs devices) k
  parent : d.parent = parentOf devices (allPairs devices) k

theorem Built.knows (hfresh : Fresh devices) (h : Built devices t) {k : Nat} {d : DeviceInfoFull}
    (hd : t[k]? = some d) : Knows devices k d := by
  have hmap : (t.map shape)[k]? = some (shape d) := by
    rw [List.getElem?_map, hd]
    rfl
  rw [show t.map shape = _ from h, List.getElem?_map, buildDeviceRelation_eq devices hfresh,
    getElem?_related] at hmap
  cases hd0 : devices[k]? with
  | none =>
      rw [hd0] at hmap
      exact absurd hmap (by simp only [Option.map_none, reduceCtorEq, not_false_eq_true])
  | some d0 =>
      rw [hd0, Option.map_some, Option.map_some, Option.some.injEq] at hmap
      rcases DeviceInfoFull.mk.inj hmap with ⟨hself, -, -, -, -, hchild, hparent⟩
      exact ⟨⟨d0, hd0, hself⟩, hchild.symm, hparent.symm⟩

theorem Built.exists_device (hfresh : Fresh devices) (h : Built devices t) {k : Nat}
    {d0 : DeviceInfoFull} (hd0 : devices[k]? = some d0) : ∃ d, t[k]? = some d := by
  have hmap : (t.map shape)[k]? = ((buildDeviceRelation devices).map shape)[k]? := by
    rw [show t.map shape = _ from h]
  rw [List.getElem?_map, List.getElem?_map, buildDeviceRelation_eq devices hfresh,
    getElem?_related, hd0] at hmap
  cases hd : t[k]? with
  | none =>
      rw [hd] at hmap
      exact absurd hmap (by simp only [Option.map_none, Option.map_some, reduceCtorEq,
        not_false_eq_true])
  | some d => exact ⟨d, rfl⟩

theorem Knows.name_eq {k : Nat} {d : DeviceInfoFull} (h : Knows devices k d) :
    nameAt devices k = d.SelfDevInst := by
  rcases h.self with ⟨d0, hd0, hself⟩
  rw [nameAt_eq hd0, hself]

theorem Knows.mem_names {k : Nat} {d : DeviceInfoFull} (h : Knows devices k d) :
    d.SelfDevInst ∈ devices.map DeviceInfoFull.SelfDevInst := by
  rcases h.self with ⟨d0, hd0, hself⟩
  exact List.mem_map.mpr ⟨d0, List.mem_of_getElem? hd0, hself⟩

/-- Different places of the list have devices with different numbers. -/
theorem Knows.place_eq (hforest : DevForest devices) {i j : Nat} {d e : DeviceInfoFull}
    (hd : Knows devices i d) (he : Knows devices j e) (hname : d.SelfDevInst = e.SelfDevInst) :
    i = j := by
  rcases hd.self with ⟨d0, hd0, hself⟩
  rcases he.self with ⟨e0, he0, hself'⟩
  exact hforest.place_eq hd0 he0 (hself.trans (hname.trans hself'.symm))

/-- The children of a device are those that the numbers make its children. -/
theorem Knows.link_iff (hforest : DevForest devices) {i j : Nat} {d e : DeviceInfoFull}
    (hd : Knows devices i d) (he : Knows devices j e) :
    j ∈ d.vectChild ↔ Link devices d.SelfDevInst e.SelfDevInst := by
  rcases hd.self with ⟨d0, hd0, hself⟩
  rcases he.self with ⟨e0, he0, hself'⟩
  rw [hd.vectChild, mem_childrenOf, hforest.linked_iff_link hd0 he0, hself, hself']

/-- The parent of a device is the one that the numbers make its parent. -/
theorem Knows.parent_iff (hforest : DevForest devices) {i j : Nat} {d e : DeviceInfoFull}
    (hd : Knows devices i d) (he : Knows devices j e) :
    e.parent = some i ↔ Link devices d.SelfDevInst e.SelfDevInst := by
  rcases hd.self with ⟨d0, hd0, hself⟩
  rcases he.self with ⟨e0, he0, hself'⟩
  rw [he.parent, parentOf_eq_some_iff devices j i (fun a b => linked_unique hforest.distinct),
    hforest.linked_iff_link hd0 he0, hself, hself']

/-- The pointer to the parent is a place of the list. -/
theorem Knows.exists_place (hforest : DevForest devices) {i j : Nat} {e : DeviceInfoFull}
    (he : Knows devices j e) (h : e.parent = some i) : ∃ d0, devices[i]? = some d0 := by
  rw [he.parent, parentOf_eq_some_iff devices j i (fun a b => linked_unique hforest.distinct),
    linked_iff] at h
  rcases h with ⟨d0, -, hd0, -⟩
  exact ⟨d0, hd0⟩

/-- A child by the numbers is in the list of the children. -/
theorem Knows.exists_child (hfresh : Fresh devices) (hforest : DevForest devices)
    (ht : Built devices t) {i : Nat} {d : DeviceInfoFull} (hd : Knows devices i d) {c : UInt32}
    (h : Link devices d.SelfDevInst c) : ∃ j ∈ d.vectChild, nameAt devices j = c := by
  rcases exists_place_of_link h with ⟨-, j, -, e0, -, he0, -, hname⟩
  rcases ht.exists_device hfresh he0 with ⟨e, he⟩
  have heknows := ht.knows hfresh he
  rw [← hname, ← nameAt_eq he0, heknows.name_eq, ← hd.link_iff hforest heknows] at h
  exact ⟨j, h, (nameAt_eq he0).trans hname⟩

/-- A parent by the numbers is the one that is pointed to. -/
theorem Knows.exists_parent (hfresh : Fresh devices) (hforest : DevForest devices)
    (ht : Built devices t) {j : Nat} {e : DeviceInfoFull} (he : Knows devices j e) {p : UInt32}
    (h : Link devices p e.SelfDevInst) :
    ∃ i d, e.parent = some i ∧ t[i]? = some d ∧ d.SelfDevInst = p := by
  rcases exists_place_of_link h with ⟨i, -, d0, -, hd0, -, hname, -⟩
  rcases ht.exists_device hfresh hd0 with ⟨d, hd⟩
  have hdknows := ht.knows hfresh hd
  have hname' : d.SelfDevInst = p := by
    rw [← hdknows.name_eq, nameAt_eq hd0, hname]
  rw [← hname', ← hdknows.parent_iff hforest he] at h
  exact ⟨i, d, h, hd, hname'⟩

/-! ### The marks -/

/-- A device is marked when its number is. -/
theorem Built.ignored_iff (hfresh : Fresh devices) (hforest : DevForest devices)
    (h : Built devices t) {k : Nat} {d : DeviceInfoFull} (hd : t[k]? = some d) :
    Ignored t d.SelfDevInst ↔ d.bIgnore = true := by
  constructor
  · rintro ⟨e, he, hname, hmarked⟩
    rcases List.mem_iff_getElem?.mp he with ⟨j, hj⟩
    have hplace := (h.knows hfresh hj).place_eq hforest (h.knows hfresh hd) hname
    rw [hplace, hd, Option.some.injEq] at hj
    exact hj ▸ hmarked
  · exact fun hmarked => ⟨d, List.mem_of_getElem? hd, rfl, hmarked⟩

/-- One more device is marked. -/
theorem ignored_ignore {k : Nat} {d : DeviceInfoFull} (hd : t[k]? = some d) :
    Ignored (ignore t k) = mark (Ignored t) d.SelfDevInst := by
  funext x
  refine propext ⟨?_, ?_⟩
  · rintro ⟨e, he, hname, hmarked⟩
    rcases List.mem_iff_getElem?.mp he with ⟨j, hj⟩
    rw [getElem?_ignore] at hj
    by_cases hkj : k = j
    · rw [if_pos hkj, ← hkj, hd, Option.map_some, Option.some.injEq] at hj
      rw [← hj] at hname
      exact Or.inr hname.symm
    · rw [if_neg hkj] at hj
      exact Or.inl ⟨e, List.mem_of_getElem? hj, hname, hmarked⟩
  · -- The device that is marked is found at its place.
    have hnew := getElem?_ignore t k k
    rw [if_pos rfl, hd, Option.map_some] at hnew
    rintro (⟨e, he, hname, hmarked⟩ | heq)
    · rcases List.mem_iff_getElem?.mp he with ⟨j, hj⟩
      by_cases hkj : k = j
      · rw [← hkj, hd, Option.some.injEq] at hj
        exact ⟨_, List.mem_of_getElem? hnew, hj ▸ hname, rfl⟩
      · have hold := getElem?_ignore t k j
        rw [if_neg hkj, hj] at hold
        exact ⟨e, List.mem_of_getElem? hold, hname, hmarked⟩
    · exact ⟨_, List.mem_of_getElem? hnew, heq.symm, rfl⟩

/-! ### Going down -/

/-- A call that is made for a device in the loop goes on from there as a pass. -/
def Descends (devices : List DeviceInfoFull)
    (descend : List DeviceInfoFull → Nat → Option (List DeviceInfoFull)) (d : DeviceInfoFull) :
    Prop :=
  ∀ u j e, Built devices u → u[j]? = some e → Link devices d.SelfDevInst e.SelfDevInst →
    ∃ u', descend u j = some u' ∧ Built devices u' ∧
      Push (Link devices) e.SelfDevInst (Ignored u) (Ignored u')

/-- The child that the loop comes to is a device of the list, and none of those
    it has been at. -/
theorem Knows.next_child (hfresh : Fresh devices) (hforest : DevForest devices) {i j : Nat}
    {d : DeviceInfoFull} (hd : Knows devices i d) (done js : List Nat)
    (hchild : d.vectChild = done ++ j :: js) {u : List DeviceInfoFull} (hu : Built devices u) :
    ∃ e, u[j]? = some e ∧ Link devices d.SelfDevInst e.SelfDevInst ∧
      e.SelfDevInst ∉ done.map (nameAt devices) := by
  have hplace : ∀ k ∈ d.vectChild, ∃ e0, devices[k]? = some e0 := by
    intro k hk
    rw [hd.vectChild, mem_childrenOf, linked_iff] at hk
    rcases hk with ⟨-, e0, -, he0, -⟩
    exact ⟨e0, he0⟩
  have hmem : j ∈ d.vectChild := by
    rw [hchild]
    exact List.mem_append_right _ List.mem_cons_self
  rcases hplace j hmem with ⟨e0, he0⟩
  rcases hu.exists_device hfresh he0 with ⟨e, he⟩
  have hknows := hu.knows hfresh he
  refine ⟨e, he, (hd.link_iff hforest hknows).mp hmem, fun hin => ?_⟩
  -- A child met before with the same number would be at the same place.
  rcases List.mem_map.mp hin with ⟨j', hj', heq⟩
  have hmem' : j' ∈ d.vectChild := by
    rw [hchild]
    exact List.mem_append_left _ hj'
  rcases hplace j' hmem' with ⟨f0, hf0⟩
  rw [nameAt_eq hf0, ← hknows.name_eq, nameAt_eq he0] at heq
  have hnodup : (done ++ j :: js).Nodup := by
    rw [← hchild, hd.vectChild]
    exact nodup_childrenOf devices i
  exact (List.nodup_append.mp hnodup).2.2 j' hj' j List.mem_cons_self
    (hforest.place_eq hf0 he0 heq)

/-- The device itself, as it is by now. -/
theorem Knows.again (hfresh : Fresh devices) {i : Nat} {d : DeviceInfoFull}
    (hd : Knows devices i d) {u : List DeviceInfoFull} (hu : Built devices u) :
    ∃ d', u[i]? = some d' ∧ d'.SelfDevInst = d.SelfDevInst := by
  rcases hd.self with ⟨d0, hd0, -⟩
  rcases hu.exists_device hfresh hd0 with ⟨d', hd'⟩
  exact ⟨d', hd', by rw [← (hu.knows hfresh hd').name_eq, hd.name_eq]⟩

/-- Below a device without children there is nothing to do. -/
theorem Knows.leaf (hfresh : Fresh devices) (hforest : DevForest devices) (ht : Built devices t)
    {i : Nat} {d : DeviceInfoFull} (hd : Knows devices i d) (hnil : ¬ d.vectChild ≠ []) :
    Push (Link devices) d.SelfDevInst (Ignored t) (Ignored t) := by
  refine Push.leaf (fun c hc => ?_)
  rcases hd.exists_child hfresh hforest ht hc with ⟨k, hk, -⟩
  rw [not_not.mp hnil] at hk
  exact List.not_mem_nil hk

/-- The loop of `RsynUSBChildignoreState` goes on by one child. -/
theorem childStep_passed (hfresh : Fresh devices) (hforest : DevForest devices)
    {descend : List DeviceInfoFull → Nat → Option (List DeviceInfoFull)} {i : Nat}
    {d : DeviceInfoFull} (hd : Knows devices i d) (hdescend : Descends devices descend d)
    (I : UInt32 → Prop) (done js : List Nat) (j : Nat) (hchild : d.vectChild = done ++ j :: js)
    (u : List DeviceInfoFull) (hu : Built devices u)
    (hpassed : Passed (Link devices) d.SelfDevInst (done.map (nameAt devices)) I (Ignored u)) :
    ∃ u', childStep descend i u j = some u' ∧ Built devices u' ∧
      Passed (Link devices) d.SelfDevInst ((done ++ [j]).map (nameAt devices)) I (Ignored u') := by
  have hE := hforest.forest
  rcases hd.again hfresh hu with ⟨d', hd', hname⟩
  rcases hd.next_child hfresh hforest done js hchild hu with ⟨e, he, hlink, hnotin⟩
  have hknows := hu.knows hfresh he
  rw [List.map_append, List.map_singleton, hknows.name_eq]
  have hd'marked := hu.ignored_iff hfresh hforest hd'
  have hemarked := hu.ignored_iff hfresh hforest he
  rw [hname] at hd'marked
  unfold childStep
  rw [hd', he]
  dsimp only
  by_cases hset : d'.bIgnore = true ∧ e.bIgnore = false
  · rw [if_pos hset]
    refine ⟨ignore u j, rfl, hu.ignore j, ?_⟩
    rw [ignored_ignore he]
    refine hpassed.markChild hE hlink (hd'marked.mpr hset.1) (fun hmarked => ?_)
    rw [hemarked, hset.2] at hmarked
    exact Bool.false_ne_true hmarked
  · rw [if_neg hset]
    -- The child is marked, or the device is not.
    have hgoes : Ignored u d.SelfDevInst → Ignored u e.SelfDevInst := by
      intro hmarked
      rw [hemarked]
      by_contra hnot
      exact hset ⟨hd'marked.mp hmarked, Bool.eq_false_iff.mpr hnot⟩
    by_cases hchildren : e.vectChild ≠ []
    · rw [if_pos hchildren]
      rcases hdescend u j e hu he hlink with ⟨u', hrun, hu', hpush⟩
      exact ⟨u', hrun, hu', hpassed.descend hE hlink hnotin hgoes hpush⟩
    · rw [if_neg hchildren]
      exact ⟨u, rfl, hu, hpassed.descend hE hlink hnotin hgoes
        (hknows.leaf hfresh hforest hu hchildren)⟩

/-- The loop over the children that are left. -/
theorem childLoop_passed (hfresh : Fresh devices) (hforest : DevForest devices)
    {descend : List DeviceInfoFull → Nat → Option (List DeviceInfoFull)} {i : Nat}
    {d : DeviceInfoFull} (hd : Knows devices i d) (hdescend : Descends devices descend d)
    (I : UInt32 → Prop) (done js : List Nat) (hchild : d.vectChild = done ++ js)
    (u : List DeviceInfoFull) (hu : Built devices u)
    (hpassed : Passed (Link devices) d.SelfDevInst (done.map (nameAt devices)) I (Ignored u)) :
    ∃ t', js.foldlM (childStep descend i) u = some t' ∧ Built devices t' ∧
      Passed (Link devices) d.SelfDevInst (d.vectChild.map (nameAt devices)) I (Ignored t') := by
  induction js generalizing done u with
  | nil =>
      rw [List.append_nil] at hchild
      rw [hchild]
      exact ⟨u, rfl, hu, hpassed⟩
  | cons j js ih =>
      rcases childStep_passed hfresh hforest hd hdescend I done js j hchild u hu hpassed with
        ⟨u', hone, hu', hpassed'⟩
      rcases ih (done ++ [j]) (by rw [hchild, List.append_assoc]; rfl) u' hu' hpassed' with
        ⟨t', hrun, ht', hpassed''⟩
      refine ⟨t', ?_, ht', hpassed''⟩
      rw [List.foldlM_cons, hone]
      exact hrun

/-- Going down from a device is a pass, with steps enough for the devices that
    are not above it. -/
theorem rsynUSBChildignoreState_push (hfresh : Fresh devices) (hforest : DevForest devices)
    (fuel : Nat) (t : List DeviceInfoFull) (i : Nat) (d : DeviceInfoFull) (path : List UInt32)
    (ht : Built devices t) (hd : t[i]? = some d)
    (hway : Way (Link devices) (devices.map DeviceInfoFull.SelfDevInst) path d.SelfDevInst)
    (hfuel : devices.length ≤ fuel + path.length) :
    ∃ t', rsynUSBChildignoreState fuel t i = some t' ∧ Built devices t' ∧
      Push (Link devices) d.SelfDevInst (Ignored t) (Ignored t') := by
  have hknows := ht.knows hfresh hd
  have hlength := hway.length_lt hforest.acyclic hknows.mem_names
  rw [List.length_map] at hlength
  induction fuel generalizing t i d path with
  | zero => omega
  | succ fuel ih =>
      -- The calls for the children have one step fewer, and one more device above them.
      have hdescend : Descends devices (rsynUSBChildignoreState fuel) d := by
        intro u j e hu he hlink
        have heknows := hu.knows hfresh he
        have hway' := hway.cons hforest.acyclic hknows.mem_names hlink
        have hlength' := hway'.length_lt hforest.acyclic heknows.mem_names
        rw [List.length_map] at hlength'
        refine ih u j e _ hu he hway' ?_ heknows hlength'
        rw [List.length_cons]
        omega
      rcases childLoop_passed hfresh hforest hknows hdescend (Ignored t) [] d.vectChild rfl t ht
        (Passed.nil d.SelfDevInst (Ignored t)) with ⟨t', hrun, ht', hpassed⟩
      refine ⟨t', ?_, ht', hpassed.push (fun c hc => ?_)⟩
      · rw [rsynUSBChildignoreState, hd]
        exact hrun
      · rcases hknows.exists_child hfresh hforest ht hc with ⟨k, hk, hname⟩
        exact List.mem_map.mpr ⟨k, hk, hname⟩

/-! ### A turn -/

/-- A turn begins with the way down, which is nothing for a device without
    children. -/
theorem goDown_push (hfresh : Fresh devices) (hforest : DevForest devices) (fuel : Nat)
    (t : List DeviceInfoFull) (i : Nat) (d : DeviceInfoFull) (ht : Built devices t)
    (hd : t[i]? = some d) (hfuel : devices.length ≤ fuel) :
    ∃ u, (if d.vectChild ≠ [] then rsynUSBChildignoreState fuel t i else some t) = some u ∧
      Built devices u ∧ Push (Link devices) d.SelfDevInst (Ignored t) (Ignored u) := by
  by_cases hchildren : d.vectChild ≠ []
  · rw [if_pos hchildren]
    exact rsynUSBChildignoreState_push hfresh hforest fuel t i d [] ht hd (Way.nil _ _ _) hfuel
  · rw [if_neg hchildren]
    exact ⟨t, rfl, ht, (ht.knows hfresh hd).leaf hfresh hforest ht hchildren⟩

/-- The call for a device is a turn of it, with steps enough for the devices
    that are not below it, and for going down. -/
theorem rsynUSBParentAndChlidignoreState_turn (hfresh : Fresh devices)
    (hforest : DevForest devices) (fuel : Nat) (t : List DeviceInfoFull) (i : Nat)
    (d : DeviceInfoFull) (path : List UInt32) (ht : Built devices t) (hd : t[i]? = some d)
    (hway : Way (Function.swap (Link devices)) (devices.map DeviceInfoFull.SelfDevInst) path
      d.SelfDevInst)
    (hfuel : 2 * devices.length ≤ fuel + path.length) :
    ∃ t', rsynUSBParentAndChlidignoreState fuel t i = some t' ∧ Built devices t' ∧
      Turn (Link devices) d.SelfDevInst (Ignored t) (Ignored t') := by
  have hE := hforest.forest
  have hknows := ht.knows hfresh hd
  have hlength := hway.length_lt hforest.acyclic_swap hknows.mem_names
  rw [List.length_map] at hlength
  induction fuel generalizing t i d path with
  | zero => omega
  | succ fuel ih =>
      rcases goDown_push hfresh hforest fuel t i d ht hd (by omega) with ⟨u, hrun, hu, hpush⟩
      rcases hknows.again hfresh hu with ⟨d', hd', hname⟩
      have hknows' := hu.knows hfresh hd'
      have hd'marked := hu.ignored_iff hfresh hforest hd'
      rw [hname] at hd'marked
      rw [rsynUSBParentAndChlidignoreState, hd]
      dsimp only
      rw [hrun]
      dsimp only
      rw [hd']
      dsimp only
      cases hparent : d'.parent with
      | none =>
          refine ⟨u, rfl, hu, Turn.stay hpush (fun p hp => ?_)⟩
          rw [← hname] at hp
          rcases hknows'.exists_parent hfresh hforest hu hp with ⟨k, f, hk, -⟩
          rw [hparent] at hk
          exact absurd hk (by simp only [reduceCtorEq, not_false_eq_true])
      | some k =>
          rcases hknows'.exists_place hforest hparent with ⟨f0, hf0⟩
          rcases hu.exists_device hfresh hf0 with ⟨f, hf⟩
          have hfknows := hu.knows hfresh hf
          have hlink := (hfknows.parent_iff hforest hknows').mp hparent
          rw [hname] at hlink
          have hfmarked := hu.ignored_iff hfresh hforest hf
          dsimp only
          rw [hf]
          dsimp only
          by_cases hup : d'.bIgnore = true ∧ f.bIgnore = false
          · -- The parent is marked, and has its turn.
            rw [if_pos hup]
            have hu' := hu.ignore k
            rcases hfknows.again hfresh hu' with ⟨g, hg, hgname⟩
            have hgknows := hu'.knows hfresh hg
            have hway' := hway.cons hforest.acyclic_swap hknows.mem_names
              (show Function.swap (Link devices) d.SelfDevInst g.SelfDevInst from hgname ▸ hlink)
            have hlength' := hway'.length_lt hforest.acyclic_swap hgknows.mem_names
            rw [List.length_map] at hlength'
            -- The device joins those below the parent, which leaves the parent one step fewer.
            rcases ih (ignore u k) k g _ hu' hg hway' (by rw [List.length_cons]; omega) hgknows
              hlength' with ⟨t', hturn, ht', hspec⟩
            rw [ignored_ignore hf, hgname] at hspec
            refine ⟨t', hturn, ht', Turn.goUp hE hpush hlink (hd'marked.mpr hup.1) ?_ hspec⟩
            rw [hfmarked, hup.2]
            exact Bool.false_ne_true
          · rw [if_neg hup]
            -- The turn ends here: the parent is marked by now, or the device is not.
            refine ⟨u, rfl, hu, Turn.stay hpush (fun p hp hmarked => ?_)⟩
            rw [hE.unique p _ _ hp hlink, hfmarked]
            by_contra hnot
            exact hup ⟨hd'marked.mp hmarked, Bool.eq_false_iff.mpr hnot⟩

/-! ### The loop -/

/-- What the loop is for: it comes to an end, and the marked devices are those
    in whose tree one was marked. -/
def Spreads (fuel : Nat) (devices : List DeviceInfoFull) : Prop :=
  ∃ t, dealDeviceChangeMsg fuel devices = some t ∧
    ∀ x, Ignored t x ↔ ∃ y, EqvGen (Link devices) x y ∧ Ignored devices y

/-- No turn of the loop leaves a device behind. -/
def NoneLeftBehind (fuel : Nat) (devices : List DeviceInfoFull) : Prop :=
  NoneLeft (rsynUSBParentAndChlidignoreState fuel) Ignored (nameAt devices) (Link devices)
    (Ignored devices) (buildDeviceRelation devices) (List.range devices.length)

/-- A call that returns was a turn. -/
theorem turn_of_step (hfresh : Fresh devices) (hforest : DevForest devices) (fuel : Nat)
    (hfuel : 2 * devices.length ≤ fuel) (s : List DeviceInfoFull) (i : Nat)
    (t : List DeviceInfoFull) (hs : Built devices s)
    (hstep : rsynUSBParentAndChlidignoreState fuel s i = some t) :
    Turn (Link devices) (nameAt devices i) (Ignored s) (Ignored t) ∧ Built devices t := by
  cases hd : s[i]? with
  | none =>
      have hnone : rsynUSBParentAndChlidignoreState fuel s i = none := by
        cases fuel with
        | zero => rfl
        | succ fuel => rw [rsynUSBParentAndChlidignoreState, hd]
      rw [hnone] at hstep
      exact absurd hstep (by simp only [reduceCtorEq, not_false_eq_true])
  | some d =>
      rcases rsynUSBParentAndChlidignoreState_turn hfresh hforest fuel s i d [] hs hd
        (Way.nil _ _ _) (by rw [List.length_nil]; omega) with ⟨t', hrun, ht', hturn⟩
      rw [hstep, Option.some.injEq] at hrun
      rw [(hs.knows hfresh hd).name_eq, hrun]
      exact ⟨hturn, ht'⟩

/-- The turns of the devices come to an end. -/
theorem turns_total (hfresh : Fresh devices) (hforest : DevForest devices) (fuel : Nat)
    (hfuel : 2 * devices.length ≤ fuel) (s : List DeviceInfoFull) (is : List Nat)
    (hs : Built devices s) (his : ∀ i ∈ is, i < devices.length) :
    ∃ t, run (rsynUSBParentAndChlidignoreState fuel) s is = some t := by
  have htotal := run_total (rsynUSBParentAndChlidignoreState fuel) (Built devices) s is hs
    (fun s' hs' i hi => ?_)
  · rcases htotal with ⟨t, ht, -⟩
    exact ⟨t, ht⟩
  · rcases hs'.exists_device hfresh (List.getElem?_eq_getElem (his i hi)) with ⟨d, hd⟩
    rcases rsynUSBParentAndChlidignoreState_turn hfresh hforest fuel s' i d [] hs' hd
      (Way.nil _ _ _) (by rw [List.length_nil]; omega) with ⟨m, hm, hm', -⟩
    exact ⟨m, hm, hm'⟩

/-- The relations leave the marks as they were. -/
theorem ignored_buildDeviceRelation (hfresh : Fresh devices) :
    Ignored (buildDeviceRelation devices) = Ignored devices := by
  rw [buildDeviceRelation_eq devices hfresh]
  funext x
  refine propext ⟨?_, ?_⟩
  · rintro ⟨e, he, hname, hmarked⟩
    rcases List.mem_iff_getElem?.mp he with ⟨j, hj⟩
    rw [getElem?_related] at hj
    rcases Option.map_eq_some_iff.mp hj with ⟨d, hd, rfl⟩
    exact ⟨d, List.mem_of_getElem? hd, hname, hmarked⟩
  · rintro ⟨d, hd, hname, hmarked⟩
    rcases List.mem_iff_getElem?.mp hd with ⟨j, hj⟩
    have hnew := getElem?_related devices (allPairs devices) j
    rw [hj, Option.map_some] at hnew
    exact ⟨_, List.mem_of_getElem? hnew, hname, hmarked⟩

/-- The marks spread exactly when no turn leaves a device behind. -/
theorem spreads_iff_noneLeftBehind (hfresh : Fresh devices) (hforest : DevForest devices)
    (fuel : Nat) (hfuel : 2 * devices.length ≤ fuel) :
    Spreads fuel devices ↔ NoneLeftBehind fuel devices := by
  rcases turns_total hfresh hforest fuel hfuel _ (List.range devices.length)
    (built_buildDeviceRelation devices) (fun i hi => List.mem_range.mp hi) with ⟨t, ht⟩
  -- Every device has a turn, the marked ones among them.
  have hall : ∀ y, Ignored (buildDeviceRelation devices) y →
      y ∈ (List.range devices.length).map (nameAt devices) := by
    rw [ignored_buildDeviceRelation hfresh]
    rintro y ⟨d, hd, hname, -⟩
    rcases List.mem_iff_getElem?.mp hd with ⟨j, hj⟩
    exact List.mem_map.mpr ⟨j, List.mem_range.mpr (List.getElem?_eq_some_iff.mp hj).1,
      (nameAt_eq hj).trans hname⟩
  have hspread := spread_iff_noneLeft (Built devices)
    (turn_of_step hfresh hforest fuel hfuel) hforest.forest _ t _
    (built_buildDeviceRelation devices) hall ht
  rw [ignored_buildDeviceRelation hfresh] at hspread
  unfold NoneLeftBehind
  rw [← hspread]
  constructor
  · rintro ⟨t', ht', hiff⟩
    rw [show dealDeviceChangeMsg fuel devices = some t from ht, Option.some.injEq] at ht'
    exact ht' ▸ hiff
  · exact fun hiff => ⟨t, ht, hiff⟩

/-! ### Other orders and marks -/

/-- The same devices in some order, with any marks. -/
def Reordered (devices devices' : List DeviceInfoFull) : Prop :=
  (devices'.map shape).Perm (devices.map shape)

variable {devices' : List DeviceInfoFull}

theorem Reordered.symm (h : Reordered devices devices') : Reordered devices' devices :=
  List.Perm.symm h

theorem Reordered.exists_mem (h : Reordered devices devices') {d : DeviceInfoFull}
    (hd : d ∈ devices) : ∃ d' ∈ devices', shape d' = shape d :=
  List.mem_map.mp (h.mem_iff.mpr (List.mem_map_of_mem hd))

theorem Reordered.link (h : Reordered devices devices') {p c : UInt32}
    (hlink : Link devices p c) : Link devices' p c := by
  rcases hlink with ⟨P, hP, C, hC, hp, hc, husb, hparent⟩
  rcases h.exists_mem hP with ⟨P', hP', hPshape⟩
  rcases h.exists_mem hC with ⟨C', hC', hCshape⟩
  rcases DeviceInfoFull.mk.inj hPshape with ⟨hPself, -⟩
  rcases DeviceInfoFull.mk.inj hCshape with ⟨hCself, hCparent, hCusb, -⟩
  exact ⟨P', hP', C', hC', hPself.trans hp, hCself.trans hc, hCusb ▸ husb, hCparent.trans hparent⟩

theorem Reordered.fresh (h : Reordered devices devices') (hfresh : Fresh devices) :
    Fresh devices' := by
  intro d' hd'
  rcases h.symm.exists_mem hd' with ⟨d, hd, hshape⟩
  rcases DeviceInfoFull.mk.inj hshape with ⟨-, -, -, -, -, hchild, hparent⟩
  rcases hfresh d hd with ⟨hchild', hparent'⟩
  exact ⟨hchild.symm.trans hchild', hparent.symm.trans hparent'⟩

theorem Reordered.devForest (h : Reordered devices devices') (hforest : DevForest devices) :
    DevForest devices' where
  distinct := by
    have hself : ∀ ds : List DeviceInfoFull,
        ds.map DeviceInfoFull.SelfDevInst = (ds.map shape).map DeviceInfoFull.SelfDevInst := by
      intro ds
      rw [List.map_map]
      rfl
    rw [hself devices', (h.map DeviceInfoFull.SelfDevInst).nodup_iff, ← hself devices]
    exact hforest.distinct
  acyclic := fun x hx => hforest.acyclic x (TransGen.mono (fun _ _ => h.symm.link) x x hx)

theorem Reordered.length_eq (h : Reordered devices devices') :
    devices'.length = devices.length := by
  have hlength := List.Perm.length_eq h
  rw [List.length_map, List.length_map] at hlength
  exact hlength

/-- Without grandchildren the marks spread. -/
theorem spreads_of_flat (hfresh : Fresh devices) (hforest : DevForest devices) (fuel : Nat)
    (hfuel : 2 * devices.length ≤ fuel) (hflat : ∀ a b c, Link devices a b → ¬ Link devices b c) :
    Spreads fuel devices :=
  (spreads_iff_noneLeftBehind hfresh hforest fuel hfuel).mpr
    (noneLeft_of_flat (Built devices) (turn_of_step hfresh hforest fuel hfuel) hflat _ _
      (built_buildDeviceRelation devices))

/-- A device with a grandchild is below a root with one. -/
theorem DevForest.exists_root (hforest : DevForest devices) {a b c : UInt32}
    (hab : Link devices a b) (hbc : Link devices b c) :
    ∃ r y c', (∀ p, ¬ Link devices p r) ∧ Link devices r y ∧ Link devices y c' := by
  have : Finite UInt32 := Finite.of_injective UInt32.toFin (fun _ _ h => UInt32.toFin_inj.mp h)
  rcases hforest.forest.exists_root a with ⟨r, hra, hroot⟩
  rcases ReflTransGen.cases_head hra with rfl | ⟨y, hry, hya⟩
  · exact ⟨r, b, c, hroot, hab, hbc⟩
  · rcases ReflTransGen.cases_head hya with rfl | ⟨c', hyc', -⟩
    · exact ⟨r, y, b, hroot, hry, hab⟩
    · exact ⟨r, y, c', hroot, hry, hyc'⟩

/-- One device marked, and its turn the last. -/
def loneLast (others : List DeviceInfoFull) (d : DeviceInfoFull) : List DeviceInfoFull :=
  others.map (fun e => { e with bIgnore := false }) ++ [{ d with bIgnore := true }]

theorem ignored_loneLast (others : List DeviceInfoFull) (d : DeviceInfoFull) (x : UInt32) :
    Ignored (loneLast others d) x ↔ x = d.SelfDevInst := by
  constructor
  · rintro ⟨e, he, hname, hmarked⟩
    rcases List.mem_append.mp he with hother | hlast
    · rcases List.mem_map.mp hother with ⟨f, -, rfl⟩
      exact absurd hmarked Bool.false_ne_true
    · rw [List.mem_singleton.mp hlast] at hname
      exact hname.symm
  · intro hx
    exact ⟨_, List.mem_append_right _ (List.mem_singleton_self _), hx.symm, rfl⟩

theorem reordered_loneLast (before after : List DeviceInfoFull) (d : DeviceInfoFull) :
    Reordered (before ++ d :: after) (loneLast (before ++ after) d) := by
  have hshape : (loneLast (before ++ after) d).map shape
      = (before ++ after).map shape ++ [shape d] := by
    unfold loneLast
    rw [List.map_append, List.map_map, List.map_singleton]
    rfl
  unfold Reordered
  rw [hshape, List.map_append, List.map_append, List.map_cons]
  refine List.perm_append_comm.trans ?_
  rw [List.singleton_append]
  exact List.perm_middle.symm

theorem length_loneLast (others : List DeviceInfoFull) (d : DeviceInfoFull) :
    (loneLast others d).length = others.length + 1 := by
  unfold loneLast
  rw [List.length_append, List.length_map]
  rfl

theorem getElem?_loneLast (others : List DeviceInfoFull) (d : DeviceInfoFull) :
    (loneLast others d)[others.length]? = some { d with bIgnore := true } := by
  unfold loneLast
  rw [List.getElem?_append_right (Nat.le_of_eq (List.length_map _)), List.length_map, Nat.sub_self]
  rfl

/-- The marked device is not among the others. -/
theorem not_mem_others (others : List DeviceInfoFull) (d : DeviceInfoFull)
    (hforest : DevForest (loneLast others d)) :
    d.SelfDevInst ∉ (List.range others.length).map (nameAt (loneLast others d)) := by
  intro hin
  rcases List.mem_map.mp hin with ⟨i, hi, heq⟩
  rw [List.mem_range] at hi
  have hplace : i < (loneLast others d).length := by
    rw [length_loneLast]
    exact Nat.lt_succ_of_lt hi
  have he := List.getElem?_eq_getElem hplace
  rw [nameAt_eq he] at heq
  exact Nat.ne_of_lt hi (hforest.place_eq he (getElem?_loneLast others d) heq)

/-- Where some device has a grandchild, there is an order and there are marks
    with which the marks do not spread. -/
theorem exists_reordered_not_spreads (hfresh : Fresh devices) (hforest : DevForest devices)
    (fuel : Nat) (hfuel : 2 * devices.length ≤ fuel) {a b c : UInt32} (hab : Link devices a b)
    (hbc : Link devices b c) :
    ∃ devices', Reordered devices devices' ∧ ¬ Spreads fuel devices' := by
  rcases hforest.exists_root hab hbc with ⟨r, y, c', hroot, hry, hyc'⟩
  have hexists : ∃ D ∈ devices, D.SelfDevInst = r := by
    rcases hry with ⟨D, hD, -, -, hself, -⟩
    exact ⟨D, hD, hself⟩
  rcases hexists with ⟨D, hD, hself⟩
  rcases List.append_of_mem hD with ⟨before, after, hsplit⟩
  have hreorder : Reordered devices (loneLast (before ++ after) D) := by
    rw [hsplit]
    exact reordered_loneLast before after D
  refine ⟨_, hreorder, ?_⟩
  rintro ⟨t, hrun, hiff⟩
  have hfresh' := hreorder.fresh hfresh
  have hforest' := hreorder.devForest hforest
  have hfuel' : 2 * (loneLast (before ++ after) D).length ≤ fuel := by
    rw [hreorder.length_eq]
    exact hfuel
  -- The marked device is the last of the list.
  have hname : nameAt (loneLast (before ++ after) D) (before ++ after).length = r :=
    (nameAt_eq (getElem?_loneLast (before ++ after) D)).trans hself
  have hrun' : run (rsynUSBParentAndChlidignoreState fuel)
      (buildDeviceRelation (loneLast (before ++ after) D))
      (List.range (before ++ after).length ++ [(before ++ after).length]) = some t := by
    rw [← List.range_succ, Nat.succ_eq_add_one, ← length_loneLast (before ++ after) D]
    exact hrun
  have hlone : ∀ x, Ignored (buildDeviceRelation (loneLast (before ++ after) D)) x ↔
      x = nameAt (loneLast (before ++ after) D) (before ++ after).length := by
    intro x
    rw [ignored_buildDeviceRelation hfresh', ignored_loneLast, hname, hself]
  -- The grandchild stays as it was, although its tree has a mark.
  have hnot : ¬ Ignored t c' := by
    refine lone_root (Built (loneLast (before ++ after) D))
      (turn_of_step hfresh' hforest' fuel hfuel') hforest'.forest _ t _ _
      (built_buildDeviceRelation _) ?_ hlone ?_ ?_ (hreorder.link hyc') hrun'
    · rw [hname]
      exact fun p hp => hroot p (hreorder.symm.link hp)
    · rw [hname, ← hself]
      exact not_mem_others (before ++ after) D hforest'
    · rw [hname]
      exact hreorder.link hry
  refine hnot ((hiff c').mpr ⟨r, ?_, (ignored_loneLast _ D r).mpr hself.symm⟩)
  exact EqvGen.trans _ _ _ (EqvGen.symm _ _ (EqvGen.rel _ _ (hreorder.link hyc')))
    (EqvGen.symm _ _ (EqvGen.rel _ _ (hreorder.link hry)))

/-- Of devices that make a forest and have no pointers yet, the marks spread
    exactly when no turn of the loop leaves a device behind, and in every order
    and with all marks exactly when no device has a grandchild. -/
theorem devices_spread_iff (devices : List DeviceInfoFull) (hfresh : Fresh devices)
    (hforest : DevForest devices) (fuel : Nat) (hfuel : 2 * devices.length ≤ fuel) :
    (Spreads fuel devices ↔ NoneLeftBehind fuel devices) ∧
      ((∀ devices', Reordered devices devices' → Spreads fuel devices') ↔
        ∀ a b c, Link devices a b → ¬ Link devices b c) := by
  refine ⟨spreads_iff_noneLeftBehind hfresh hforest fuel hfuel, ?_, ?_⟩
  · intro hall a b c hab hbc
    rcases exists_reordered_not_spreads hfresh hforest fuel hfuel hab hbc with
      ⟨devices', hreorder, hnot⟩
    exact hnot (hall devices' hreorder)
  · intro hflat devices' hreorder
    refine spreads_of_flat (hreorder.fresh hfresh) (hreorder.devForest hforest) fuel ?_ ?_
    · rw [hreorder.length_eq]
      exact hfuel
    · exact fun a b c hab hbc => hflat a b c (hreorder.symm.link hab) (hreorder.symm.link hbc)

/-- A device as it is enumerated. -/
def device (self parent : UInt32) (bIgnore : Bool) : DeviceInfoFull where
  SelfDevInst := self
  ParentDevInst := parent
  isParentUSB := 1
  bIgnore := bIgnore
  iAction := deviceKeep
  vectChild := []
  parent := none

/-- Where a parent has the smaller number, the numbers make a forest. -/
theorem devForest_of_lt (devices : List DeviceInfoFull)
    (hdistinct : (devices.map DeviceInfoFull.SelfDevInst).Nodup)
    (hlt : ∀ P ∈ devices, ∀ C ∈ devices, C.ParentDevInst = P.SelfDevInst →
      P.SelfDevInst < C.SelfDevInst) : DevForest devices where
  distinct := hdistinct
  acyclic := by
    have habove : ∀ x y, TransGen (Link devices) x y → x.toNat < y.toNat := by
      intro x y h
      induction h with
      | single hlink =>
          rcases hlink with ⟨P, hP, C, hC, rfl, rfl, -, hparent⟩
          exact UInt32.lt_iff_toNat_lt.mp (hlt P hP C hC hparent)
      | tail _ hlink ih =>
          rcases hlink with ⟨P, hP, C, hC, rfl, rfl, -, hparent⟩
          exact Nat.lt_trans ih (UInt32.lt_iff_toNat_lt.mp (hlt P hP C hC hparent))
    exact fun x hx => Nat.lt_irrefl _ (habove x x hx)

/-- A hub with a mouse that is marked. -/
theorem devices_spread_iff_mouse : Spreads 4 [device 1 0 false, device 2 1 true] := by
  refine (devices_spread_iff [device 1 0 false, device 2 1 true] (by decide)
    (devForest_of_lt _ (by decide) (by decide)) 4 (by decide)).2.mpr ?_ _ (List.Perm.refl _)
  have hflat : ∀ P ∈ [device 1 0 false, device 2 1 true],
      ∀ C ∈ [device 1 0 false, device 2 1 true], ∀ C' ∈ [device 1 0 false, device 2 1 true],
      C.ParentDevInst = P.SelfDevInst → C'.ParentDevInst ≠ C.SelfDevInst := by
    decide
  rintro a b c ⟨P, hP, C, hC, ha, hb, -, hparent⟩ ⟨-, -, C', hC', -, -, -, hparent'⟩
  exact hflat P hP C hC C' hC' (hparent.trans ha.symm) (hparent'.trans hb.symm)

/-- The tree of the comment, in the order of its names: the devices A to G are
    1 to 7, and E is marked. -/
def commentTree : List DeviceInfoFull :=
  [device 1 0 false, device 2 1 false, device 3 1 false, device 4 1 false, device 5 2 true,
    device 6 2 false, device 7 4 false]

/-- G is not marked in the end. -/
theorem devices_notSpread :
    ¬ ∀ (devices : List DeviceInfoFull), Fresh devices → DevForest devices →
      ∀ fuel, 2 * devices.length ≤ fuel → Spreads fuel devices := by
  intro h
  rcases h commentTree (by decide) (devForest_of_lt _ (by decide) (by decide)) 14 (by decide) with
    ⟨t, hrun, hiff⟩
  have hleft : (dealDeviceChangeMsg 14 commentTree).map (fun t => decide (Ignored t 7))
      = some false := by
    decide
  rw [hrun, Option.map_some, Option.some.injEq, decide_eq_false_iff_not] at hleft
  -- G is below D, which is below A, as B is, which E is below.
  have htree : EqvGen (Link commentTree) 7 5 :=
    EqvGen.trans _ 1 _
      (EqvGen.symm _ _
        (EqvGen.trans _ 4 _ (EqvGen.rel _ _ (by decide)) (EqvGen.rel _ _ (by decide))))
      (EqvGen.trans _ 2 _ (EqvGen.rel _ _ (by decide)) (EqvGen.rel _ _ (by decide)))
  exact hleft ((hiff 7).mpr ⟨5, htree, by decide⟩)

end Devices

end UDisk

end Defender
