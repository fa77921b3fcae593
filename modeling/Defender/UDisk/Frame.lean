import Defender.UDisk.Ignore

/-!
# What the Loop Leaves as It Is

The loop of `DealDeviceChangeMsg` over `RsynUSBParentAndChlidignoreState`, for
every list whose pointers make a forest. Here devices are named by their places
and trees are those of the pointers, so that neither the numbers of the devices
nor the order of the children matters.

A device is marked at two places of the code, each time next to a device that
is marked already, and only if it is not marked itself. So between any two marks
the list is `Kept`: a device is as it was at the start, or its tree had a mark
then and it is marked with its action set. The two functions call each other
along the pointers, and no way along the pointers comes back.

## Main definitions

* `Child`, `LinkForest`: The trees of the pointers.
* `syncLoop`: The loop.
* `MarkedTree`, `Kept`: What the loop may do.

## Theorems

* `linkForest_buildDeviceRelation`: The relations are built as a forest.
* `Kept.ignore`: One mark.
* `syncLoop_kept`: The loop comes to an end and keeps the list.
* `syncLoop_frame`: What that says of each device.
-/

namespace Defender

namespace UDisk

namespace Devices

open Relation Machine Spread

/-! ### The trees of the pointers -/

/-- `p` has `c` among its children, by the pointers. -/
def Child (devices : List DeviceInfoFull) (p c : Nat) : Prop :=
  ∃ d, devices[p]? = some d ∧ c ∈ d.vectChild

/-- The pointers to the parents are those to the children the other way round,
    they point into the list, and no device is below itself. -/
structure LinkForest (devices : List DeviceInfoFull) : Prop where
  parent_iff : ∀ p c e, devices[c]? = some e → (e.parent = some p ↔ Child devices p c)
  place : ∀ p c, Child devices p c → c < devices.length
  acyclic : ∀ k, ¬ TransGen (Child devices) k k

/-- The loop of `DealDeviceChangeMsg` over a list with its pointers. -/
def syncLoop (fuel : Nat) (devices : List DeviceInfoFull) : Option (List DeviceInfoFull) :=
  run (rsynUSBParentAndChlidignoreState fuel) devices (List.range devices.length)

/-- The loop is what comes after the relations. -/
theorem dealDeviceChangeMsg_eq_syncLoop (fuel : Nat) (devices : List DeviceInfoFull)
    (hfresh : Fresh devices) :
    dealDeviceChangeMsg fuel devices = syncLoop fuel (buildDeviceRelation devices) := by
  have hlength : (buildDeviceRelation devices).length = devices.length := by
    rw [buildDeviceRelation_eq devices hfresh]
    exact List.length_mapIdx
  unfold syncLoop
  rw [hlength]
  rfl

theorem child_buildDeviceRelation_iff (devices : List DeviceInfoFull) (hfresh : Fresh devices)
    (p c : Nat) : Child (buildDeviceRelation devices) p c ↔ linked devices p c = true := by
  rw [buildDeviceRelation_eq devices hfresh, ← mem_childrenOf]
  unfold Child
  rw [getElem?_related]
  constructor
  · rintro ⟨d, hd, hc⟩
    rcases Option.map_eq_some_iff.mp hd with ⟨d0, -, rfl⟩
    exact hc
  · intro hc
    rcases (linked_iff devices p c).mp ((mem_childrenOf devices p c).mp hc) with ⟨P, -, hP, -⟩
    rw [hP, Option.map_some]
    exact ⟨_, rfl, hc⟩

/-- The relations of devices whose numbers make a forest are one. -/
theorem linkForest_buildDeviceRelation (devices : List DeviceInfoFull) (hfresh : Fresh devices)
    (hforest : DevForest devices) : LinkForest (buildDeviceRelation devices) where
  parent_iff := by
    intro p c e he
    -- Both links come from the same comparison.
    rw [child_buildDeviceRelation_iff devices hfresh,
      ← parentOf_eq_some_iff devices c p (fun a b => linked_unique hforest.distinct)]
    rw [buildDeviceRelation_eq devices hfresh, getElem?_related] at he
    rcases Option.map_eq_some_iff.mp he with ⟨d0, -, rfl⟩
    exact Iff.rfl
  place := by
    intro p c hc
    rw [child_buildDeviceRelation_iff devices hfresh, linked_iff] at hc
    rcases hc with ⟨-, C, -, hC, -⟩
    rw [buildDeviceRelation_eq devices hfresh, related, List.length_mapIdx]
    exact (List.getElem?_eq_some_iff.mp hC).1
  acyclic := by
    -- A way along the pointers is one along the numbers.
    have hlink : ∀ p c, Child (buildDeviceRelation devices) p c →
        Link devices (nameAt devices p) (nameAt devices c) := by
      intro p c hc
      rw [child_buildDeviceRelation_iff devices hfresh] at hc
      rcases (linked_iff devices p c).mp hc with ⟨P, C, hP, hC, -⟩
      rw [nameAt_eq hP, nameAt_eq hC]
      exact (hforest.linked_iff_link hP hC).mp hc
    exact fun k hk => hforest.acyclic _ (TransGen.lift (nameAt devices) hlink _ _ hk)

/-- A child is below a device of the list. -/
theorem Child.parent_lt {devices : List DeviceInfoFull} {p c : Nat} (h : Child devices p c) :
    p < devices.length := by
  rcases h with ⟨d, hd, -⟩
  exact (List.getElem?_eq_some_iff.mp hd).1

/-- Going up does not come back either. -/
theorem LinkForest.acyclic_swap {devices : List DeviceInfoFull} (h : LinkForest devices) (k : Nat) :
    ¬ TransGen (Function.swap (Child devices)) k k := by
  rw [transGen_swap]
  exact h.acyclic k

/-! ### What the loop may do -/

/-- The tree of the device at `k` has a marked device. -/
def MarkedTree (devices : List DeviceInfoFull) (k : Nat) : Prop :=
  ∃ y d, EqvGen (Child devices) k y ∧ devices[y]? = some d ∧ d.bIgnore = true

/-- Every device is as it was, or its tree had a mark, and it is marked now and
    its action is `DEVICE_KEEP`. -/
structure Kept (devices u : List DeviceInfoFull) : Prop where
  length_eq : u.length = devices.length
  device : ∀ k d e, devices[k]? = some d → u[k]? = some e →
    e = d ∨ (d.bIgnore = false ∧ MarkedTree devices k ∧
      e = { d with bIgnore := true, iAction := deviceKeep })

variable {devices u : List DeviceInfoFull}

theorem Kept.refl (devices : List DeviceInfoFull) : Kept devices devices where
  length_eq := rfl
  device := fun _ _ _ hd he => Or.inl (Option.some.inj (he.symm.trans hd))

/-- The device at a place of the list. -/
theorem Kept.exists_device (h : Kept devices u) {k : Nat} (hk : k < devices.length) :
    ∃ e, u[k]? = some e := by
  rw [← h.length_eq] at hk
  exact ⟨_, List.getElem?_eq_getElem hk⟩

/-- The pointers are as they were. -/
theorem Kept.pointers (h : Kept devices u) {k : Nat} {e : DeviceInfoFull} (he : u[k]? = some e) :
    ∃ d, devices[k]? = some d ∧ e.vectChild = d.vectChild ∧ e.parent = d.parent := by
  have hk : k < devices.length := by
    rw [← h.length_eq]
    exact (List.getElem?_eq_some_iff.mp he).1
  have hd := List.getElem?_eq_getElem hk
  rcases h.device k _ e hd he with rfl | ⟨-, -, rfl⟩
  · exact ⟨_, hd, rfl, rfl⟩
  · exact ⟨_, hd, rfl, rfl⟩

theorem Kept.child (h : Kept devices u) {k c : Nat} {e : DeviceInfoFull} (he : u[k]? = some e)
    (hc : c ∈ e.vectChild) : Child devices k c := by
  rcases h.pointers he with ⟨d, hd, hchild, -⟩
  exact ⟨d, hd, hchild ▸ hc⟩

theorem Kept.parent (hforest : LinkForest devices) (h : Kept devices u) {k p : Nat}
    {e : DeviceInfoFull} (he : u[k]? = some e) (hp : e.parent = some p) : Child devices p k := by
  rcases h.pointers he with ⟨d, hd, -, hparent⟩
  exact (hforest.parent_iff p k d hd).mp (hparent ▸ hp)

/-- A marked device is in a tree that had a mark. -/
theorem Kept.markedTree (h : Kept devices u) {k : Nat} {e : DeviceInfoFull} (he : u[k]? = some e)
    (hmarked : e.bIgnore = true) : MarkedTree devices k := by
  rcases h.pointers he with ⟨d, hd, -⟩
  rcases h.device k d e hd he with rfl | ⟨-, htree, -⟩
  · exact ⟨k, e, EqvGen.refl k, hd, hmarked⟩
  · exact htree

theorem MarkedTree.of_eqvGen {k c : Nat} (h : MarkedTree devices k)
    (hkc : EqvGen (Child devices) c k) : MarkedTree devices c := by
  rcases h with ⟨y, d, hky, hd, hmarked⟩
  exact ⟨y, d, EqvGen.trans c k y hkc hky, hd, hmarked⟩

/-- A device that is not marked is marked next to one that is. -/
theorem Kept.ignore (h : Kept devices u) {k c : Nat} {d e : DeviceInfoFull} (hd : u[k]? = some d)
    (hmarked : d.bIgnore = true) (hkc : EqvGen (Child devices) c k) (he : u[c]? = some e)
    (hnot : e.bIgnore = false) : Kept devices (ignore u c) where
  length_eq := by
    unfold Devices.ignore
    rw [List.length_modify, h.length_eq]
  device := by
    intro j d0 f hd0 hf
    rw [getElem?_ignore] at hf
    by_cases hcj : c = j
    · rw [← hcj] at hd0 hf ⊢
      rw [if_pos rfl, he, Option.map_some, Option.some.injEq] at hf
      -- It was not marked yet, so it is the device of the start.
      rcases h.device c d0 e hd0 he with rfl | ⟨-, -, rfl⟩
      · exact Or.inr ⟨hnot, (h.markedTree hd hmarked).of_eqvGen hkc, hf.symm⟩
      · exact absurd hnot (by simp only [Bool.true_eq_false, not_false_eq_true])
    · rw [if_neg hcj] at hf
      exact h.device j d0 f hd0 hf

/-! ### The recursions -/

/-- The body of the loop over the children keeps the list when the call it makes
    does. -/
theorem childStep_kept {descend : List DeviceInfoFull → Nat → Option (List DeviceInfoFull)}
    {i j : Nat} (hforest : LinkForest devices) (hij : Child devices i j)
    (hdescend : ∀ u, Kept devices u → ∃ u', descend u j = some u' ∧ Kept devices u')
    (hu : Kept devices u) : ∃ u', childStep descend i u j = some u' ∧ Kept devices u' := by
  rcases hu.exists_device hij.parent_lt with ⟨d, hd⟩
  rcases hu.exists_device (hforest.place i j hij) with ⟨e, he⟩
  unfold childStep
  rw [hd, he]
  dsimp only
  by_cases hset : d.bIgnore = true ∧ e.bIgnore = false
  · rw [if_pos hset]
    exact ⟨_, rfl, hu.ignore hd hset.1 (EqvGen.symm i j (EqvGen.rel i j hij)) he hset.2⟩
  · rw [if_neg hset]
    by_cases hchildren : e.vectChild ≠ []
    · rw [if_pos hchildren]
      exact hdescend u hu
    · rw [if_neg hchildren]
      exact ⟨u, rfl, hu⟩

/-- Going down from a device comes to an end, with steps enough for the devices
    that are not above it. -/
theorem rsynUSBChildignoreState_kept (hforest : LinkForest devices) (fuel : Nat)
    (u : List DeviceInfoFull) (i : Nat) (path : List Nat) (hu : Kept devices u)
    (hi : i < devices.length) (hway : Way (Child devices) (List.range devices.length) path i)
    (hfuel : devices.length ≤ fuel + path.length) :
    ∃ u', rsynUSBChildignoreState fuel u i = some u' ∧ Kept devices u' := by
  have hlength := hway.length_lt hforest.acyclic (List.mem_range.mpr hi)
  rw [List.length_range] at hlength
  induction fuel generalizing u i path with
  | zero => omega
  | succ fuel ih =>
      rcases hu.exists_device hi with ⟨d, hd⟩
      rw [rsynUSBChildignoreState, hd]
      refine run_total (childStep (rsynUSBChildignoreState fuel) i) (Kept devices) u d.vectChild hu
        (fun v hv j hj => ?_)
      have hij := hu.child hd hj
      have hj := hforest.place i j hij
      -- The calls for the children have one step fewer, and one more device above them.
      have hway' := hway.cons hforest.acyclic (List.mem_range.mpr hi) hij
      have hlength' := hway'.length_lt hforest.acyclic (List.mem_range.mpr hj)
      rw [List.length_range] at hlength'
      refine childStep_kept hforest hij (fun w hw => ?_) hv
      exact ih w j (i :: path) hw hj hway' (by rw [List.length_cons]; omega) hlength'

/-- A turn comes to an end, with steps enough for the devices that are not below
    its device, and for going down. -/
theorem rsynUSBParentAndChlidignoreState_kept (hforest : LinkForest devices) (fuel : Nat)
    (u : List DeviceInfoFull) (i : Nat) (path : List Nat) (hu : Kept devices u)
    (hi : i < devices.length)
    (hway : Way (Function.swap (Child devices)) (List.range devices.length) path i)
    (hfuel : 2 * devices.length ≤ fuel + path.length) :
    ∃ u', rsynUSBParentAndChlidignoreState fuel u i = some u' ∧ Kept devices u' := by
  have hlength := hway.length_lt hforest.acyclic_swap (List.mem_range.mpr hi)
  rw [List.length_range] at hlength
  induction fuel generalizing u i path with
  | zero => omega
  | succ fuel ih =>
      rcases hu.exists_device hi with ⟨d, hd⟩
      -- Going down keeps the list, so the turn goes on with one that is kept.
      have hdown : ∃ v, (if d.vectChild ≠ [] then rsynUSBChildignoreState fuel u i else some u)
          = some v ∧ Kept devices v := by
        by_cases hchildren : d.vectChild ≠ []
        · rw [if_pos hchildren]
          exact rsynUSBChildignoreState_kept hforest fuel u i [] hu hi (Way.nil _ _ i) (by
            rw [List.length_nil]; omega)
        · rw [if_neg hchildren]
          exact ⟨u, rfl, hu⟩
      rcases hdown with ⟨v, hrun, hv⟩
      rcases hv.exists_device hi with ⟨d', hd'⟩
      rw [rsynUSBParentAndChlidignoreState, hd]
      dsimp only
      rw [hrun]
      dsimp only
      rw [hd']
      dsimp only
      cases hparent : d'.parent with
      | none => exact ⟨v, rfl, hv⟩
      | some p =>
          have hpi := hv.parent hforest hd' hparent
          rcases hv.exists_device hpi.parent_lt with ⟨f, hf⟩
          dsimp only
          rw [hf]
          dsimp only
          by_cases hup : d'.bIgnore = true ∧ f.bIgnore = false
          · -- The parent is marked and has its turn, with one more device below it.
            rw [if_pos hup]
            have hv' := hv.ignore hd' hup.1 (EqvGen.rel p i hpi) hf hup.2
            have hway' := hway.cons hforest.acyclic_swap (List.mem_range.mpr hi)
              (show Function.swap (Child devices) i p from hpi)
            have hlength' := hway'.length_lt hforest.acyclic_swap (List.mem_range.mpr hpi.parent_lt)
            rw [List.length_range] at hlength'
            exact ih _ p (i :: path) hv' hpi.parent_lt hway' (by rw [List.length_cons]; omega)
              hlength'
          · rw [if_neg hup]
            exact ⟨v, rfl, hv⟩

/-- The loop comes to an end and keeps the list. -/
theorem syncLoop_kept (hforest : LinkForest devices) (fuel : Nat)
    (hfuel : 2 * devices.length ≤ fuel) : ∃ t, syncLoop fuel devices = some t ∧ Kept devices t := by
  refine run_total _ (Kept devices) devices _ (Kept.refl devices) (fun u hu i hi => ?_)
  exact rsynUSBParentAndChlidignoreState_kept hforest fuel u i [] hu (List.mem_range.mp hi)
    (Way.nil _ _ i) (by rw [List.length_nil]; omega)

/-! ### More steps -/

/-- The body of the loop over the children does what it did when the call it
    makes does. -/
theorem childStep_mono {descend descend' : List DeviceInfoFull → Nat → Option (List DeviceInfoFull)}
    (hdescend : ∀ u j u', descend u j = some u' → descend' u j = some u') (i : Nat)
    (u : List DeviceInfoFull) (j : Nat) (u' : List DeviceInfoFull)
    (h : childStep descend i u j = some u') : childStep descend' i u j = some u' := by
  unfold childStep at h ⊢
  cases hd : u[i]? with
  | none =>
      rw [hd] at h
      exact absurd h (by simp only [reduceCtorEq, not_false_eq_true])
  | some d =>
      cases he : u[j]? with
      | none =>
          rw [hd, he] at h
          exact absurd h (by simp only [reduceCtorEq, not_false_eq_true])
      | some e =>
          rw [hd, he] at h
          dsimp only at h ⊢
          by_cases hset : d.bIgnore = true ∧ e.bIgnore = false
          · rw [if_pos hset] at h ⊢
            exact h
          · rw [if_neg hset] at h ⊢
            by_cases hchildren : e.vectChild ≠ []
            · rw [if_pos hchildren] at h ⊢
              exact hdescend u j u' h
            · rw [if_neg hchildren] at h ⊢
              exact h

theorem rsynUSBChildignoreState_succ (fuel : Nat) (u : List DeviceInfoFull) (i : Nat)
    (u' : List DeviceInfoFull) (h : rsynUSBChildignoreState fuel u i = some u') :
    rsynUSBChildignoreState (fuel + 1) u i = some u' := by
  induction fuel generalizing u i u' with
  | zero => exact absurd h (by simp only [rsynUSBChildignoreState, reduceCtorEq, not_false_eq_true])
  | succ fuel ih =>
      rw [rsynUSBChildignoreState] at h ⊢
      cases hd : u[i]? with
      | none =>
          rw [hd] at h
          exact absurd h (by simp only [reduceCtorEq, not_false_eq_true])
      | some d =>
          rw [hd] at h
          exact run_mono _ _ (childStep_mono ih i) u u' d.vectChild h

theorem rsynUSBParentAndChlidignoreState_succ (fuel : Nat) (u : List DeviceInfoFull) (i : Nat)
    (u' : List DeviceInfoFull) (h : rsynUSBParentAndChlidignoreState fuel u i = some u') :
    rsynUSBParentAndChlidignoreState (fuel + 1) u i = some u' := by
  -- Induction on the fuel; the children are done before the step to the parent.
  induction fuel generalizing u i u' with
  | zero =>
      exact absurd h (by simp only [rsynUSBParentAndChlidignoreState, reduceCtorEq,
        not_false_eq_true])
  | succ fuel ih =>
      rw [rsynUSBParentAndChlidignoreState] at h ⊢
      cases hd : u[i]? with
      | none =>
          rw [hd] at h
          exact absurd h (by simp only [reduceCtorEq, not_false_eq_true])
      | some d =>
          rw [hd] at h
          dsimp only at h ⊢
          cases hdown : (if d.vectChild ≠ [] then rsynUSBChildignoreState fuel u i else some u) with
          | none =>
              rw [hdown] at h
              exact absurd h (by simp only [reduceCtorEq, not_false_eq_true])
          | some v =>
              have hdown' : (if d.vectChild ≠ [] then rsynUSBChildignoreState (fuel + 1) u i
                  else some u) = some v := by
                by_cases hchildren : d.vectChild ≠ []
                · rw [if_pos hchildren] at hdown ⊢
                  exact rsynUSBChildignoreState_succ fuel u i v hdown
                · rw [if_neg hchildren] at hdown ⊢
                  exact hdown
              rw [hdown] at h
              rw [hdown']
              dsimp only at h ⊢
              cases hd' : v[i]? with
              | none =>
                  rw [hd'] at h
                  exact absurd h (by simp only [reduceCtorEq, not_false_eq_true])
              | some d' =>
                  rw [hd'] at h
                  dsimp only at h ⊢
                  cases hparent : d'.parent with
                  | none =>
                      rw [hparent] at h
                      exact h
                  | some p =>
                      rw [hparent] at h
                      dsimp only at h ⊢
                      cases hf : v[p]? with
                      | none =>
                          rw [hf] at h
                          exact absurd h (by simp only [reduceCtorEq, not_false_eq_true])
                      | some f =>
                          rw [hf] at h
                          dsimp only at h ⊢
                          by_cases hup : d'.bIgnore = true ∧ f.bIgnore = false
                          · rw [if_pos hup] at h ⊢
                            exact ih _ p u' h
                          · rw [if_neg hup] at h ⊢
                            exact h

/-- What the loop comes to with some steps, it comes to with more. -/
theorem syncLoop_mono (devices t : List DeviceInfoFull) (fuel fuel' : Nat) (hle : fuel ≤ fuel')
    (h : syncLoop fuel devices = some t) : syncLoop fuel' devices = some t := by
  induction hle with
  | refl => exact h
  | step _ ih =>
      exact run_mono _ _ (rsynUSBParentAndChlidignoreState_succ _) devices t _ ih

/-! ### The frame -/

/-- For every list whose pointers make a forest, in every order and with all
    marks, the loop comes to an end; no device loses its mark, one that gets its
    mark has its action set, and the devices of a tree without a mark stay as
    they were. -/
theorem syncLoop_frame (devices : List DeviceInfoFull) (hforest : LinkForest devices) :
    ∃ t, (∀ fuel, 2 * devices.length ≤ fuel → syncLoop fuel devices = some t) ∧
      (∀ fuel enumerated, 2 * devices.length ≤ fuel → Fresh enumerated →
        buildDeviceRelation enumerated = devices → dealDeviceChangeMsg fuel enumerated = some t) ∧
      t.length = devices.length ∧
      ∀ k d e, devices[k]? = some d → t[k]? = some e →
        (d.bIgnore = true → e.bIgnore = true) ∧
        (e.bIgnore ≠ d.bIgnore → e.iAction = deviceKeep) ∧
        ((∀ y f, EqvGen (Child devices) k y → devices[y]? = some f → f.bIgnore = false) →
          e.bIgnore = d.bIgnore ∧ e.iAction = d.iAction) := by
  rcases syncLoop_kept hforest (2 * devices.length) (Nat.le_refl _) with ⟨t, hrun, hkept⟩
  -- More steps than are needed do not change what the loop comes to.
  have hmore := fun fuel hfuel => syncLoop_mono devices t (2 * devices.length) fuel hfuel hrun
  refine ⟨t, hmore, fun fuel enumerated hfuel hfresh hbuilt => ?_, hkept.length_eq, ?_⟩
  · rw [dealDeviceChangeMsg_eq_syncLoop fuel enumerated hfresh, hbuilt]
    exact hmore fuel hfuel
  intro k d e hd he
  rcases hkept.device k d e hd he with rfl | ⟨hnot, ⟨y, f, hky, hf, hmarked⟩, rfl⟩
  · exact ⟨fun h => h, fun h => absurd rfl h, fun _ => ⟨rfl, rfl⟩⟩
  · refine ⟨fun _ => rfl, fun _ => rfl, fun hnone => ?_⟩
    -- A device that was marked on the way has a mark in its tree.
    rw [hnone y f hky hf] at hmarked
    exact absurd hmarked Bool.false_ne_true

/-- A hub with a mouse that is marked, and a printer at no hub, with actions that
    are not `DEVICE_KEEP`. -/
def hubMousePrinter : List DeviceInfoFull :=
  [{ device 1 0 false with iAction := 1 }, device 2 1 true, { device 3 9 false with iAction := 2 }]

/-- The hub is marked with its action set, and the printer stays as it was. -/
theorem syncLoop_frame_hub :
    ∃ t, (∀ fuel, 6 ≤ fuel → dealDeviceChangeMsg fuel hubMousePrinter = some t) ∧
      t.map DeviceInfoFull.bIgnore = [true, true, false] ∧
      t.map DeviceInfoFull.iAction = [deviceKeep, deviceKeep, 2] := by
  have hforest : LinkForest (buildDeviceRelation hubMousePrinter) :=
    linkForest_buildDeviceRelation _ (by decide) (devForest_of_lt _ (by decide) (by decide))
  rcases syncLoop_frame _ hforest with ⟨t, -, hdeal, -⟩
  have hrun := fun fuel hfuel => hdeal fuel hubMousePrinter hfuel (by decide) rfl
  have ht : (dealDeviceChangeMsg 6 hubMousePrinter).map
      (fun t => (t.map DeviceInfoFull.bIgnore, t.map DeviceInfoFull.iAction))
        = some ([true, true, false], [deviceKeep, deviceKeep, 2]) := by
    decide
  rw [hrun 6 (by decide), Option.map_some, Option.some.injEq, Prod.mk.injEq] at ht
  exact ⟨t, hrun, ht⟩

end Devices

end UDisk

end Defender
