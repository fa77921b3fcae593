import Defender.Lib.Counted
import Defender.UDisk.Frame
import Defender.UDisk.VendorProduct
import Mathlib.Algebra.GroupWithZero.Nat

/-!
# The Snapshots of the Devices

What `DealDeviceChangeMsg` does each time that the monitoring is opened. The
list of the last time is put aside, the devices of the system are gone through,
and those that are wanted get a record: the class is one of eight, or the
parent is a USB device and the device itself is neither a hub nor a host
controller. Then come the relations and the marks, and the old list is given
up.

What Windows answers for a device is a parameter, a `DevNode`, and so is how it
reads a GUID, `CLSIDFromString`. Of the records the model has what
`GetDeviceFullInfo` sets from these answers; the texts for the product and the
vendor, which are only logged, it has not.

A new list depends on nothing that was before. Nobody has marked a record when
the marks are spread, so no device is ever ignored. The records own each other:
a parent its children, and a child its parent. So the old list takes with it
only the records without relations, and the others stay in memory for good.

## Main definitions

* `DevNode`, `FullInfo`: A device, and its record.
* `getDeviceFullInfo`, `enumAllDeviceFullInfo`: How the records are made.
* `Snapshots`, `Change`, `changeStep`: The lists, over time.
* `DevNode.wanted`, `describe`: Which devices get a record, and which.
* `IsSnapshot`: What a list is to be.
* `linkedCount`: How many records of a list have relations.

## Theorems

* `getDeviceFullInfo_eq`: The records that are made.
* `dealDeviceChangeMsg_unmarked`: Without marks only the relations are made.
* `isSnapshot_snapshotOf`: The list is what it is to be.
* `supported_linked`: Records with relations hold each other.
* `history_step`: What every step keeps.
* `snapshots_leak`: The list and the memory, over every run.
-/

namespace Defender

namespace UDisk

namespace Devices

open Relation VendorProduct

/-! ### The record of a device -/

/-- `GUID`, with the eight bytes of `Data4` as one number. -/
structure GUID where
  Data1 : UInt32
  Data2 : UInt16
  Data3 : UInt16
  Data4 : UInt64
  deriving DecidableEq, Repr

/-- `GUID_DEVINTERFACE_USB_HUB`. -/
def guidUsbHub : GUID :=
  { Data1 := 0xf18a0e88, Data2 := 0xc30c, Data3 := 0x11d0, Data4 := 0x881500a0c906bed8 }

/-- `GUID_DEVINTERFACE_USB_HOST_CONTROLLER`. -/
def guidUsbHostController : GUID :=
  { Data1 := 0x3abf6f2d, Data2 := 0x71c4, Data3 := 0x462a, Data4 := 0x8a921e6861e6af27 }

/-- What Windows answers for a device: its class, its status if there is one,
    the ids, the symbolic name, and where it is. A text that cannot be had is
    empty. -/
structure DevNode where
  DevInst : UInt32
  wszClassName : List Char
  status : Option (UInt32 × UInt32)
  ParentDevInst : UInt32
  ParentDevInstanceId : List Char
  SelfDeviceInstanceId : List Char
  wsDevicePath : List Char
  wstrDeviceName : List Char
  deriving DecidableEq, Repr

/-- `DeviceInfoFull_st`: the record. -/
structure FullInfo extends DeviceInfoFull where
  ParentDevHub : UInt32
  ParentDevPort : UInt32
  ParentDevInstanceId : List Char
  UsbVid : UInt32
  UsbPid : UInt32
  SelfDeviceInstanceId : List Char
  SelfClassName : List Char
  SelfClassType : Nat
  devGuid : GUID
  wsDevicePath : List Char
  dwDevStatus : UInt32
  dwProblem : UInt32
  isInsert : Bool
  deriving DecidableEq, Repr

/-- The GUID of zeros. -/
def guidZero : GUID :=
  { Data1 := 0, Data2 := 0, Data3 := 0, Data4 := 0 }

/-- `DEV_OTHER_MAX`. -/
def devOtherMax : Nat := 8

/-- The constructor. -/
def newDeviceInfo : FullInfo where
  SelfDevInst := 0
  ParentDevInst := 0
  isParentUSB := 0
  bIgnore := false
  iAction := 0
  vectChild := []
  parent := none
  ParentDevHub := 0
  ParentDevPort := 0
  ParentDevInstanceId := []
  UsbVid := 0
  UsbPid := 0
  SelfDeviceInstanceId := []
  SelfClassName := []
  SelfClassType := devOtherMax
  devGuid := guidZero
  wsDevicePath := []
  dwDevStatus := 0
  dwProblem := 0
  isInsert := false

/-- `m_stcDevInfo`. -/
def stcDevInfo : List (List Char) :=
  ["cdrom".toList, "net".toList, "bluetooth".toList, "ports".toList, "diskdrive".toList,
    "floppydisk".toList, "wpd".toList, "usb".toList]

-- `CLSIDFromString`, which is Windows' own.
variable (clsid : List Char → Option GUID)

/-- `CWLUDisk::DevicePathToGUID`: what it leaves in `outGuid`. -/
def devicePathToGUID (SymbolicName : List Char) (outGuid : GUID) : GUID :=
  let startPos := SymbolicName.dropWhile (· ≠ '{')
  if '}' ∉ startPos then outGuid
  else
    let extractedGuid := startPos.takeWhile (· ≠ '}') ++ ['}']
    if 40 ≤ extractedGuid.length then outGuid
    else (clsid extractedGuid).getD outGuid

/-- `std::wstring::find`. -/
def find (key : List Char) : List Char → Option Nat
  | [] => if key = [] then some 0 else none
  | c :: s => if key.isPrefixOf (c :: s) then some 0 else (find key s).map (· + 1)

/-- `_wtoi`, of a few characters. -/
def wtoi (s : List Char) : Int32 :=
  let s := s.dropWhile isspace
  let digits := if s.head? = some '-' ∨ s.head? = some '+' then s.tail else s
  let n := (digits.takeWhile Char.isDigit).foldl (fun n c => 10 * n + (c.toNat - '0'.toNat)) 0
  if s.head? = some '-' then Int32.ofInt (-n) else Int32.ofNat n

/-- One of the two numbers of `CWLUDisk::extractPortAndHub`: the one behind the
    first place of the key, or the one that was there before. -/
def extractNumber (key input : List Char) (value : Int32) : Int32 :=
  match find key input with
  | none => value
  | some pos => wtoi ((input.drop (pos + key.length)).take 4)

/-- `CWLUDisk::extractPortAndHub`. -/
def extractPortAndHub (input : List Char) (port hub : Int32) : Int32 × Int32 :=
  (extractNumber "Port_#".toList input port, extractNumber "Hub_#".toList input hub)

/-- The parent is a USB device: its instance id begins with `USB`. -/
def DevNode.parentUSB (node : DevNode) : Bool :=
  decide (3 ≤ node.ParentDevInstanceId.length ∧
    node.ParentDevInstanceId.take 3 = ['U', 'S', 'B'])

/-- The class is one of those that are looked after, and which. -/
def DevNode.classType (node : DevNode) : Option Nat :=
  stcDevInfo.findIdx? (· = node.wszClassName.map Char.toLower)

/-- The ids of the device, or of its parent if it has none. -/
def DevNode.usbIds (node : DevNode) : UInt32 × UInt32 :=
  let parentIds := if 3 ≤ node.ParentDevInstanceId.length then
      parseUsbVendorProductIdFromUsbParentId node.ParentDevInstanceId 0 0 else (0, 0)
  let selfIds := parseUsbVendorProductIdFromUsbParentId node.SelfDeviceInstanceId 0 0
  if selfIds.1 = 0 ∧ selfIds.2 = 0 then parentIds else selfIds

/-- The GUID in the symbolic name, if there is one. -/
def DevNode.guid (node : DevNode) : GUID :=
  if node.wsDevicePath ≠ [] then devicePathToGUID clsid node.wsDevicePath guidZero else guidZero

/-- The device is a host controller or a hub, the roots of the tree. -/
def DevNode.isRoot (node : DevNode) : Bool :=
  decide (node.wsDevicePath ≠ [] ∧
    (node.guid clsid = guidUsbHostController ∨ node.guid clsid = guidUsbHub))

/-- `CWLUDisk::GetDeviceFullInfo`: what it returns, and the list. -/
def getDeviceFullInfo (node : DevNode) (VectAllDevice : List FullInfo) : Bool × List FullInfo :=
  let DeviceInfo := { newDeviceInfo with
    SelfDevInst := node.DevInst, SelfClassName := node.wszClassName.map Char.toLower }
  match node.status with
  | none => (false, VectAllDevice)
  | some (dwDevStatus, dwProblem) =>
      let DeviceInfo := { DeviceInfo with
        dwDevStatus := dwDevStatus, dwProblem := dwProblem, isInsert := true
        SelfClassType := node.classType.getD devOtherMax
        ParentDevInst := node.ParentDevInst
        ParentDevInstanceId := node.ParentDevInstanceId
        isParentUSB := if node.parentUSB then 1 else 0
        SelfDeviceInstanceId := node.SelfDeviceInstanceId
        UsbVid := node.usbIds.1, UsbPid := node.usbIds.2 }
      if node.parentUSB then
        let DeviceInfo := { DeviceInfo with
          wsDevicePath := node.wsDevicePath, devGuid := node.guid clsid }
        if node.isRoot clsid then (false, VectAllDevice)
        else
          let ids := extractPortAndHub node.wstrDeviceName 0 0
          (true, VectAllDevice ++ [{ DeviceInfo with
            ParentDevHub := ids.2.toUInt32, ParentDevPort := ids.1.toUInt32 }])
      else if node.classType.isSome then (true, VectAllDevice ++ [DeviceInfo])
      else (true, VectAllDevice)

/-- `CWLUDisk::EnumAllDeviceFullInfo`: the list that it fills. The devices are
    `none` when the set of devices cannot be had. -/
def enumAllDeviceFullInfo (nodes : Option (List DevNode)) : List FullInfo :=
  (nodes.getD []).foldl (fun g_vecDevice node => (getDeviceFullInfo clsid node g_vecDevice).2) []

/-! ### The lists over time -/

/-- The references that a record owns. -/
def refsOf (devices : List DeviceInfoFull) (k : Nat) : List Nat :=
  match devices[k]? with
  | none => []
  | some d => d.vectChild ++ d.parent.toList

/-- A list that was given up, and which of its records are still in memory. -/
structure Generation where
  devices : List DeviceInfoFull
  live : List Nat
  deriving DecidableEq, Repr

/-- The list, the ones that were given up, and what Windows answered for each of
    them and for the list. -/
structure Snapshots where
  g_vecDevice : List FullInfo
  old : List Generation
  changes : List (Option (List DevNode))
  deriving DecidableEq, Repr

/-- `DealDeviceChangeMsg` is called, or a record of an old list is freed. -/
inductive Change where
  | deal (nodes : Option (List DevNode))
  | free (g k : Nat)
  deriving DecidableEq, Repr

/-- One step, with a number of steps for the marks. The old list is given up
    when `vecDeviceLastSnap` is destroyed, at the end of `DealDeviceChangeMsg`. -/
def changeStep (fuel : Nat) (s : Snapshots) : Change → Option Snapshots
  | .deal nodes =>
      let enumerated := enumAllDeviceFullInfo clsid nodes
      match dealDeviceChangeMsg fuel (enumerated.map FullInfo.toDeviceInfoFull) with
      | none => none
      | some devices =>
          some
            { g_vecDevice := List.zipWith (fun info device =>
                { info with toDeviceInfoFull := device }) enumerated devices
              old := s.old ++ [{ devices := s.g_vecDevice.map FullInfo.toDeviceInfoFull
                                 live := List.range s.g_vecDevice.length }]
              changes := s.changes ++ [nodes] }
  | .free g k =>
      match s.old[g]? with
      | none => none
      | some gen => (Counted.free (refsOf gen.devices) gen.live k).map fun live =>
          { s with old := s.old.set g { gen with live := live } }

/-- Nothing was enumerated yet, which is as if Windows had not answered. -/
def noDevices : Snapshots where
  g_vecDevice := []
  old := []
  changes := [none]

/-! ### What is asked for -/

/-- A device that gets a record. -/
def DevNode.wanted (node : DevNode) : Bool :=
  node.status.isSome &&
    if node.parentUSB then !node.isRoot clsid else node.classType.isSome

/-- The devices that get one, in the order of Windows. -/
def wantedOf (nodes : Option (List DevNode)) : List DevNode :=
  (nodes.getD []).filter (DevNode.wanted clsid)

/-- The record, without relations. -/
def describe (node : DevNode) : FullInfo :=
  { newDeviceInfo with
    SelfDevInst := node.DevInst
    ParentDevInst := node.ParentDevInst
    isParentUSB := if node.parentUSB then 1 else 0
    ParentDevHub := if node.parentUSB then (extractPortAndHub node.wstrDeviceName 0 0).2.toUInt32
      else 0
    ParentDevPort := if node.parentUSB then (extractPortAndHub node.wstrDeviceName 0 0).1.toUInt32
      else 0
    ParentDevInstanceId := node.ParentDevInstanceId
    UsbVid := node.usbIds.1
    UsbPid := node.usbIds.2
    SelfDeviceInstanceId := node.SelfDeviceInstanceId
    SelfClassName := node.wszClassName.map Char.toLower
    SelfClassType := node.classType.getD devOtherMax
    devGuid := if node.parentUSB then node.guid clsid else guidZero
    wsDevicePath := if node.parentUSB then node.wsDevicePath else []
    dwDevStatus := (node.status.getD (0, 0)).1
    dwProblem := (node.status.getD (0, 0)).2
    isInsert := true }

/-- The device at `c` has the one at `p` for its parent. -/
def Below (nodes : List DevNode) (p c : Nat) : Prop :=
  ∃ P C, nodes[p]? = some P ∧ nodes[c]? = some C ∧ C.parentUSB = true ∧
    C.ParentDevInst = P.DevInst

/-- A list is as it is to be: a record for each device, with nothing marked, and
    the relations. -/
structure IsSnapshot (nodes : List DevNode) (devices : List FullInfo) : Prop where
  length_eq : devices.length = nodes.length
  entry : ∀ (k : Nat) (d : FullInfo), devices[k]? = some d →
    ∃ node, nodes[k]? = some node ∧
      { d with vectChild := [], parent := none } = describe clsid node
  child : ∀ p c d, devices[p]? = some d → (c ∈ d.vectChild ↔ Below nodes p c)
  parent : ∀ p c d, devices[c]? = some d → (d.parent = some p ↔ Below nodes p c)

/-- The devices that Windows names have numbers of their own, and going up from
    parent to parent ends. -/
def IsTree (nodes : Option (List DevNode)) : Prop :=
  ((nodes.getD []).map DevNode.DevInst).Nodup ∧
    ∃ depth : UInt32 → Nat, ∀ node ∈ nodes.getD [], depth node.ParentDevInst < depth node.DevInst

/-- What is enumerated is a tree. -/
def ChangeOk (_ : Snapshots) : Change → Prop
  | .deal nodes => IsTree nodes
  | .free _ _ => True

/-- Nothing more can be freed. -/
def FreedAll (s : Snapshots) : Prop :=
  ∀ gen ∈ s.old, ∀ k, Counted.free (refsOf gen.devices) gen.live k = none

/-- A device is above or below another one. -/
def hasRelation (nodes : List DevNode) (k : Nat) : Bool :=
  (List.range nodes.length).any fun j =>
    match nodes[k]?, nodes[j]? with
    | some K, some J => (J.parentUSB && J.ParentDevInst == K.DevInst) ||
        (K.parentUSB && K.ParentDevInst == J.DevInst)
    | _, _ => false

/-- How many devices are. -/
def linkedCount (nodes : Option (List DevNode)) : Nat :=
  (List.range (wantedOf clsid nodes).length).countP (hasRelation (wantedOf clsid nodes))

/-- How many records of old lists are in memory. -/
def leftBehind (s : Snapshots) : Nat :=
  (s.old.map fun gen => gen.live.length).sum

/-! ### The records that are made -/

variable {clsid}

/-- A device that is wanted gets its record at the end of the list. -/
theorem getDeviceFullInfo_eq (node : DevNode) (VectAllDevice : List FullInfo) :
    (getDeviceFullInfo clsid node VectAllDevice).2
      = VectAllDevice ++ if node.wanted clsid = true then [describe clsid node] else [] := by
  unfold getDeviceFullInfo DevNode.wanted describe
  cases hstatus : node.status with
  | none => exact (List.append_nil _).symm
  | some status =>
      cases hparent : node.parentUSB with
      | true => cases hroot : node.isRoot clsid <;> simp
      | false => cases hclass : node.classType <;> simp [newDeviceInfo]

/-- The list that is enumerated. -/
theorem enumAllDeviceFullInfo_eq (nodes : Option (List DevNode)) :
    enumAllDeviceFullInfo clsid nodes = (wantedOf clsid nodes).map (describe clsid) := by
  have hfold : ∀ (ns : List DevNode) (start : List FullInfo),
      ns.foldl (fun g_vecDevice node => (getDeviceFullInfo clsid node g_vecDevice).2) start
        = start ++ (ns.filter (DevNode.wanted clsid)).map (describe clsid) := by
    intro ns
    induction ns with
    | nil => exact fun start => (List.append_nil start).symm
    | cons node ns ih =>
        intro start
        rw [List.foldl_cons, ih, getDeviceFullInfo_eq, List.append_assoc, List.filter_cons]
        by_cases hnode : node.wanted clsid = true
        · rw [if_pos hnode, if_pos hnode, List.map_cons, List.singleton_append]
        · rw [if_neg hnode, if_neg hnode, List.nil_append]
  exact (hfold (nodes.getD []) []).trans (List.nil_append _)

/-- The records without what only the relations and the marks are read from. -/
def enumerated (clsid : List Char → Option GUID) (nodes : Option (List DevNode)) :
    List DeviceInfoFull :=
  (wantedOf clsid nodes).map (fun node => (describe clsid node).toDeviceInfoFull)

theorem getElem?_enumerated (nodes : Option (List DevNode)) (k : Nat) :
    (enumerated clsid nodes)[k]?
      = (wantedOf clsid nodes)[k]?.map (fun node => (describe clsid node).toDeviceInfoFull) :=
  List.getElem?_map

theorem fresh_enumerated (nodes : Option (List DevNode)) : Fresh (enumerated clsid nodes) := by
  intro d hd
  rcases List.mem_map.mp hd with ⟨node, -, rfl⟩
  exact ⟨rfl, rfl⟩

theorem unmarked_enumerated (nodes : Option (List DevNode)) :
    ∀ d ∈ enumerated clsid nodes, d.bIgnore = false := by
  intro d hd
  rcases List.mem_map.mp hd with ⟨node, -, rfl⟩
  rfl

theorem map_enumAllDeviceFullInfo (nodes : Option (List DevNode)) :
    (enumAllDeviceFullInfo clsid nodes).map FullInfo.toDeviceInfoFull = enumerated clsid nodes := by
  rw [enumAllDeviceFullInfo_eq, List.map_map]
  rfl

theorem linked_enumerated (nodes : Option (List DevNode)) (p c : Nat) :
    linked (enumerated clsid nodes) p c = true ↔ Below (wantedOf clsid nodes) p c := by
  rw [linked_iff]
  constructor
  · rintro ⟨P, C, hP, hC, husb, hdev⟩
    rw [getElem?_enumerated] at hP hC
    rcases Option.map_eq_some_iff.mp hP with ⟨P', hP', rfl⟩
    rcases Option.map_eq_some_iff.mp hC with ⟨C', hC', rfl⟩
    refine ⟨P', C', hP', hC', ?_, hdev⟩
    by_contra hnot
    exact husb (if_neg hnot)
  · rintro ⟨P, C, hP, hC, husb, hdev⟩
    refine ⟨_, _, (getElem?_enumerated nodes p).trans (congrArg _ hP),
      (getElem?_enumerated nodes c).trans (congrArg _ hC), ?_, hdev⟩
    rw [show (describe clsid C).isParentUSB = 1 from if_pos husb]
    decide

/-! ### The list -/

/-- What is enumerated of a tree is a forest. -/
theorem devForest_enumerated (nodes : Option (List DevNode)) (h : IsTree nodes) :
    DevForest (enumerated clsid nodes) where
  distinct := by
    have hnames : (enumerated clsid nodes).map DeviceInfoFull.SelfDevInst
        = (wantedOf clsid nodes).map DevNode.DevInst := by
      rw [enumerated, List.map_map]
      rfl
    rw [hnames]
    exact h.1.sublist ((List.filter_sublist).map _)
  acyclic := by
    rcases h.2 with ⟨depth, hdepth⟩
    -- A link leads deeper.
    have hlink : ∀ p c, Link (enumerated clsid nodes) p c → depth p < depth c := by
      rintro p c ⟨P, -, C, hC, -, rfl, -, rfl⟩
      rcases List.mem_map.mp hC with ⟨node, hnode, rfl⟩
      exact hdepth node (List.mem_of_mem_filter hnode)
    have hway : ∀ p c, TransGen (Link (enumerated clsid nodes)) p c → depth p < depth c := by
      intro p c hpc
      induction hpc with
      | single hone => exact hlink p _ hone
      | tail _ hone ih => exact Nat.lt_trans ih (hlink _ _ hone)
    exact fun x hx => Nat.lt_irrefl _ (hway x x hx)

/-- Without marks only the relations are made, with enough steps and whenever it
    comes to an end. -/
theorem dealDeviceChangeMsg_unmarked (devices : List DeviceInfoFull) (hfresh : Fresh devices)
    (hforest : DevForest devices) (hnone : ∀ d ∈ devices, d.bIgnore = false) (fuel : Nat) :
    (2 * devices.length ≤ fuel →
        dealDeviceChangeMsg fuel devices = some (buildDeviceRelation devices)) ∧
      ∀ t, dealDeviceChangeMsg fuel devices = some t → t = buildDeviceRelation devices := by
  have hbuilt := buildDeviceRelation_eq devices hfresh
  have hlength : (buildDeviceRelation devices).length = devices.length := by
    rw [hbuilt]
    exact List.length_mapIdx
  -- No tree has a mark, so the loop leaves everything as it is.
  have hkept : ∀ t, Kept (buildDeviceRelation devices) t → t = buildDeviceRelation devices := by
    intro t ht
    refine List.ext_getElem? (fun k => ?_)
    by_cases hk : k < (buildDeviceRelation devices).length
    · have hd := List.getElem?_eq_getElem hk
      have he := List.getElem?_eq_getElem (ht.length_eq.symm ▸ hk)
      rcases ht.device k _ _ hd he with hsame | ⟨-, ⟨y, f, -, hf, hmarked⟩, -⟩
      · rw [hd, he, hsame]
      · rw [hbuilt, getElem?_related] at hf
        rcases Option.map_eq_some_iff.mp hf with ⟨f0, hf0, rfl⟩
        exact absurd ((hnone f0 (List.mem_of_getElem? hf0)).symm.trans hmarked) Bool.false_ne_true
    · rw [List.getElem?_eq_none (ht.length_eq.symm ▸ Nat.not_lt.mp hk),
        List.getElem?_eq_none (Nat.not_lt.mp hk)]
  have hlink := linkForest_buildDeviceRelation devices hfresh hforest
  rw [dealDeviceChangeMsg_eq_syncLoop fuel devices hfresh]
  constructor
  · intro hfuel
    rcases syncLoop_kept hlink fuel (hlength.symm ▸ hfuel) with ⟨t, hrun, ht⟩
    rw [hrun, hkept t ht]
  · intro t hrun
    have hmore := syncLoop_mono _ t fuel (fuel + 2 * devices.length) (Nat.le_add_right _ _) hrun
    rcases syncLoop_kept hlink (fuel + 2 * devices.length)
      (hlength.symm ▸ Nat.le_add_left _ _) with ⟨u, hrun', hu⟩
    rw [← Option.some.inj (hrun'.symm.trans hmore)]
    exact hkept u hu

/-- The list after an enumeration. -/
def snapshotOf (clsid : List Char → Option GUID) (nodes : Option (List DevNode)) : List FullInfo :=
  List.zipWith (fun info device => { info with toDeviceInfoFull := device })
    (enumAllDeviceFullInfo clsid nodes) (buildDeviceRelation (enumerated clsid nodes))

theorem length_buildDeviceRelation (nodes : Option (List DevNode)) :
    (buildDeviceRelation (enumerated clsid nodes)).length = (wantedOf clsid nodes).length := by
  rw [buildDeviceRelation_eq _ (fresh_enumerated nodes), related, List.length_mapIdx, enumerated,
    List.length_map]

/-- The record at a place, with its relations. -/
theorem getElem?_snapshotOf (nodes : Option (List DevNode)) (k : Nat) :
    (snapshotOf clsid nodes)[k]? = (wantedOf clsid nodes)[k]?.map (fun node =>
      { describe clsid node with
        vectChild := childrenOf (enumerated clsid nodes) (allPairs (enumerated clsid nodes)) k
        parent := parentOf (enumerated clsid nodes) (allPairs (enumerated clsid nodes)) k }) := by
  rw [snapshotOf, List.getElem?_zipWith, enumAllDeviceFullInfo_eq, List.getElem?_map,
    buildDeviceRelation_eq _ (fresh_enumerated nodes), getElem?_related, getElem?_enumerated]
  cases (wantedOf clsid nodes)[k]? with
  | none => rfl
  | some node => rfl

theorem map_snapshotOf (nodes : Option (List DevNode)) :
    (snapshotOf clsid nodes).map FullInfo.toDeviceInfoFull
      = buildDeviceRelation (enumerated clsid nodes) := by
  refine List.ext_getElem? (fun k => ?_)
  rw [List.getElem?_map, getElem?_snapshotOf, buildDeviceRelation_eq _ (fresh_enumerated nodes),
    getElem?_related, getElem?_enumerated]
  cases (wantedOf clsid nodes)[k]? with
  | none => rfl
  | some node => rfl

/-- The list after an enumeration is as it is to be. -/
theorem isSnapshot_snapshotOf (nodes : Option (List DevNode)) (h : IsTree nodes) :
    IsSnapshot clsid (wantedOf clsid nodes) (snapshotOf clsid nodes) where
  length_eq := by
    rw [snapshotOf, List.length_zipWith, length_buildDeviceRelation, enumAllDeviceFullInfo_eq,
      List.length_map, Nat.min_self]
  entry := by
    intro k d hd
    rw [getElem?_snapshotOf] at hd
    rcases Option.map_eq_some_iff.mp hd with ⟨node, hnode, rfl⟩
    exact ⟨node, hnode, rfl⟩
  child := by
    intro p c d hd
    rw [getElem?_snapshotOf] at hd
    rcases Option.map_eq_some_iff.mp hd with ⟨node, -, rfl⟩
    exact (mem_childrenOf _ p c).trans (linked_enumerated nodes p c)
  parent := by
    intro p c d hd
    rw [getElem?_snapshotOf] at hd
    rcases Option.map_eq_some_iff.mp hd with ⟨node, -, rfl⟩
    refine (parentOf_eq_some_iff _ c p (fun a b => ?_)).trans (linked_enumerated nodes p c)
    exact linked_unique (devForest_enumerated nodes h).distinct

/-! ### What stays in memory -/

/-- The places that have relations. -/
theorem hasRelation_iff (nodes : List DevNode) (k : Nat) :
    hasRelation nodes k = true ↔ ∃ j, Below nodes k j ∨ Below nodes j k := by
  unfold hasRelation
  rw [List.any_eq_true]
  constructor
  · rintro ⟨j, -, h⟩
    split at h
    · next K J hK hJ =>
        rw [Bool.or_eq_true, Bool.and_eq_true, Bool.and_eq_true, beq_iff_eq, beq_iff_eq] at h
        rcases h with ⟨husb, hdev⟩ | ⟨husb, hdev⟩
        · exact ⟨j, Or.inl ⟨K, J, hK, hJ, husb, hdev⟩⟩
        · exact ⟨j, Or.inr ⟨J, K, hJ, hK, husb, hdev⟩⟩
    · exact absurd h Bool.false_ne_true
  · rintro ⟨j, ⟨K, J, hK, hJ, husb, hdev⟩ | ⟨J, K, hJ, hK, husb, hdev⟩⟩
    · refine ⟨j, List.mem_range.mpr (List.getElem?_eq_some_iff.mp hJ).1, ?_⟩
      simp only [hK, hJ, husb, hdev, Bool.true_and, beq_self_eq_true, Bool.true_or]
    · refine ⟨j, List.mem_range.mpr (List.getElem?_eq_some_iff.mp hJ).1, ?_⟩
      simp only [hK, hJ, husb, hdev, Bool.true_and, beq_self_eq_true, Bool.or_true]

theorem Below.lt_length {nodes : List DevNode} {p c : Nat} (h : Below nodes p c) :
    p < nodes.length ∧ c < nodes.length := by
  rcases h with ⟨P, C, hP, hC, -⟩
  exact ⟨(List.getElem?_eq_some_iff.mp hP).1, (List.getElem?_eq_some_iff.mp hC).1⟩

/-- A record owns its children and its parent. -/
theorem mem_refsOf (nodes : Option (List DevNode)) (h : IsTree nodes) (i k : Nat) :
    k ∈ refsOf (buildDeviceRelation (enumerated clsid nodes)) i ↔
      Below (wantedOf clsid nodes) i k ∨ Below (wantedOf clsid nodes) k i := by
  have hparent := parentOf_eq_some_iff (enumerated clsid nodes) i k
    (fun a b => linked_unique (devForest_enumerated nodes h).distinct)
  rw [linked_enumerated] at hparent
  rw [← linked_enumerated nodes i k, ← mem_childrenOf, ← hparent, refsOf,
    buildDeviceRelation_eq _ (fresh_enumerated nodes), getElem?_related]
  cases hi : (enumerated clsid nodes)[i]? with
  | some d => rw [Option.map_some, List.mem_append, Option.mem_toList]
  | none =>
      -- A place that is not in the list has no relations.
      rw [Option.map_none]
      refine iff_of_false List.not_mem_nil (fun hrel => ?_)
      have hlt : i < (wantedOf clsid nodes).length := by
        rcases hrel with hchild | hup
        · exact ((linked_enumerated nodes i k).mp ((mem_childrenOf _ i k).mp hchild)).lt_length.1
        · exact (hparent.mp hup).lt_length.2
      rw [List.getElem?_eq_none_iff, enumerated, List.length_map] at hi
      omega

/-- Records with relations hold each other. -/
theorem supported_linked (nodes : Option (List DevNode)) (h : IsTree nodes) :
    Counted.Supported (refsOf (buildDeviceRelation (enumerated clsid nodes)))
      ((List.range (wantedOf clsid nodes).length).filter (hasRelation (wantedOf clsid nodes))) := by
  intro k hk
  rcases (hasRelation_iff _ k).mp (List.mem_filter.mp hk).2 with ⟨j, hj⟩
  refine ⟨j, List.mem_filter.mpr ⟨List.mem_range.mpr ?_, ?_⟩, (mem_refsOf nodes h j k).mpr hj.symm⟩
  · rcases hj with hkj | hjk
    · exact hkj.lt_length.2
    · exact hjk.lt_length.1
  · exact (hasRelation_iff _ j).mpr ⟨k, hj.symm⟩

/-- What is left of a list in the end are the records with relations. -/
theorem mem_left_iff (nodes : Option (List DevNode)) (h : IsTree nodes) (live ks : List Nat)
    (hrun : Machine.run (Counted.free (refsOf (buildDeviceRelation (enumerated clsid nodes))))
      (List.range (wantedOf clsid nodes).length) ks = some live)
    (hsettled : ∀ k,
      Counted.free (refsOf (buildDeviceRelation (enumerated clsid nodes))) live k = none)
    (k : Nat) :
    k ∈ live ↔ k ∈ (List.range (wantedOf clsid nodes).length).filter
      (hasRelation (wantedOf clsid nodes)) := by
  rw [Counted.left_iff _ hrun hsettled]
  constructor
  · rintro ⟨objects, hsub, hsupported, hk⟩
    rcases hsupported k hk with ⟨i, -, hi⟩
    exact List.mem_filter.mpr ⟨hsub hk,
      (hasRelation_iff _ k).mpr ⟨i, ((mem_refsOf nodes h i k).mp hi).symm⟩⟩
  · exact fun hk => ⟨_, List.filter_subset_self _, supported_linked nodes h, hk⟩

/-! ### Runs -/

/-- A list that was given up is what was made of an enumeration, and some of its
    records have been freed. -/
structure GivenUp (clsid : List Char → Option GUID) (nodes : Option (List DevNode))
    (gen : Generation) : Prop where
  tree : IsTree nodes
  devices : gen.devices = buildDeviceRelation (enumerated clsid nodes)
  live : ∃ ks, Machine.run (Counted.free (refsOf gen.devices))
    (List.range (wantedOf clsid nodes).length) ks = some gen.live

/-- The list is what was made of the last enumeration, and the lists that were
    given up are what was made of those before it. -/
structure History (clsid : List Char → Option GUID) (s : Snapshots) : Prop where
  length_eq : s.changes.length = s.old.length + 1
  list : ∃ nodes, s.changes[s.old.length]? = some nodes ∧ IsTree nodes ∧
    s.g_vecDevice = snapshotOf clsid nodes
  given : ∀ (g : Nat) (gen : Generation), s.old[g]? = some gen →
    ∃ nodes, s.changes[g]? = some nodes ∧ GivenUp clsid nodes gen

theorem history_noDevices : History clsid noDevices where
  length_eq := rfl
  list := ⟨none, rfl, ⟨List.nodup_nil, fun _ => 0, fun _ h => absurd h List.not_mem_nil⟩, rfl⟩
  given := fun _ _ h => absurd h (by simp only [noDevices, List.getElem?_nil, reduceCtorEq,
    not_false_eq_true])

/-- What every step keeps. -/
theorem history_step (fuel : Nat) (s : Snapshots) (l : Change) (t : Snapshots) (h : History clsid s)
    (hok : ChangeOk s l) (hstep : changeStep clsid fuel s l = some t) : History clsid t := by
  cases l with
  | deal nodes =>
      rcases h.list with ⟨last, hlast, hlastTree, hlist⟩
      simp only [changeStep] at hstep
      rw [map_enumAllDeviceFullInfo] at hstep
      split at hstep
      · exact absurd hstep (by simp only [reduceCtorEq, not_false_eq_true])
      · next devices hdeal =>
          have hdevices := (dealDeviceChangeMsg_unmarked _ (fresh_enumerated nodes)
            (devForest_enumerated nodes hok) (unmarked_enumerated nodes) fuel).2 devices hdeal
          rw [Option.some.injEq] at hstep
          subst hstep
          refine ⟨?_, ⟨nodes, ?_, hok, hdevices ▸ rfl⟩, fun g gen hgen => ?_⟩
          · simp only [List.length_append, List.length_singleton, h.length_eq]
          · simp only [List.length_append, List.length_singleton]
            rw [List.getElem?_append_right (by rw [h.length_eq]), h.length_eq, Nat.sub_self]
            rfl
          · dsimp only at hgen ⊢
            rcases Nat.lt_trichotomy g s.old.length with hlt | heq | hgt
            · -- A list that had been given up before.
              rw [List.getElem?_append_left hlt] at hgen
              rcases h.given g gen hgen with ⟨old, hold, hgiven⟩
              refine ⟨old, ?_, hgiven⟩
              exact (List.getElem?_append_left (by rw [h.length_eq]; omega)).trans hold
            · -- The list that is given up now.
              rw [heq, List.getElem?_append_right (Nat.le_refl _), Nat.sub_self,
                List.getElem?_cons_zero, Option.some.injEq] at hgen
              subst hgen
              refine ⟨last, ?_, hlastTree, hlist ▸ map_snapshotOf last, [], ?_⟩
              · rw [heq]
                exact (List.getElem?_append_left (by rw [h.length_eq]; omega)).trans hlast
              · rw [Machine.run_nil, hlist, (isSnapshot_snapshotOf last hlastTree).length_eq]
            · rw [List.getElem?_eq_none (by rw [List.length_append, List.length_singleton]; omega)]
                at hgen
              exact absurd hgen (by simp only [reduceCtorEq, not_false_eq_true])
  | free g k =>
      simp only [changeStep] at hstep
      split at hstep
      · exact absurd hstep (by simp only [reduceCtorEq, not_false_eq_true])
      · next gen hgen =>
          -- Only the list that is freed from changes, by one step more of its run.
          rcases Option.map_eq_some_iff.mp hstep with ⟨live, hlive, rfl⟩
          refine ⟨h.length_eq.trans (congrArg (· + 1) List.length_set.symm), ?_,
            fun j old hold => ?_⟩
          · rw [List.length_set]
            exact h.list
          · dsimp only at hold
            by_cases hj : g = j
            · subst hj
              rw [List.getElem?_set_self (List.getElem?_eq_some_iff.mp hgen).1,
                Option.some.injEq] at hold
              subst hold
              rcases h.given g gen hgen with ⟨nodes, hnodes, htree, hdevices, ks, hks⟩
              exact ⟨nodes, hnodes, htree, hdevices, ks ++ [k],
                (Machine.run_snoc _ _ _ k ks).mpr ⟨gen.live, hks, hlive⟩⟩
            · rw [List.getElem?_set_ne hj] at hold
              exact h.given j old hold

theorem history_run (fuel : Nat) (s : Snapshots) (ls : List Change)
    (hok : Machine.StepsMeet (changeStep clsid fuel) ChangeOk noDevices ls)
    (hrun : Machine.run (changeStep clsid fuel) noDevices ls = some s) : History clsid s :=
  Machine.run_invariant_of_stepsMeet (changeStep clsid fuel) ChangeOk (History clsid)
    (history_step fuel)
    noDevices s ls history_noDevices hok hrun

/-- Over every run: the list is what Windows answered last, whatever was before,
    with a record for each device that is wanted, its relations and no mark. A
    new enumeration comes to an end. A record with relations is never freed, so
    when all has been freed that can be, the records of old lists in memory are
    those with relations, of every enumeration but the last. -/
theorem snapshots_leak (fuel : Nat) (s : Snapshots) (ls : List Change)
    (hok : Machine.StepsMeet (changeStep clsid fuel) ChangeOk noDevices ls)
    (hrun : Machine.run (changeStep clsid fuel) noDevices ls = some s) :
    (∃ nodes, s.changes.getLast? = some nodes ∧
        IsSnapshot clsid (wantedOf clsid nodes) s.g_vecDevice) ∧
      (∀ nodes, IsTree nodes → 2 * (wantedOf clsid nodes).length ≤ fuel →
        ∃ t, changeStep clsid fuel s (.deal nodes) = some t) ∧
      (∀ (g : Nat) (gen : Generation) (nodes : Option (List DevNode)), s.old[g]? = some gen →
        s.changes[g]? = some nodes →
          ∀ k, hasRelation (wantedOf clsid nodes) k = true → k ∈ gen.live) ∧
      (FreedAll s → leftBehind s = (s.changes.dropLast.map (linkedCount clsid)).sum) := by
  have h := history_run fuel s ls hok hrun
  refine ⟨?_, fun nodes htree hfuel => ?_, fun g gen nodes hgen hnodes k hk => ?_, fun hfreed => ?_⟩
  · rcases h.list with ⟨nodes, hnodes, htree, hlist⟩
    refine ⟨nodes, ?_, hlist ▸ isSnapshot_snapshotOf nodes htree⟩
    rw [List.getLast?_eq_getElem?, h.length_eq, Nat.add_sub_cancel]
    exact hnodes
  · -- The fuel is enough for the turns over an unmarked tree.
    have hdeal := (dealDeviceChangeMsg_unmarked _ (fresh_enumerated nodes)
      (devForest_enumerated nodes htree) (unmarked_enumerated nodes) fuel).1 (by
        rw [enumerated, List.length_map]
        exact hfuel)
    simp only [changeStep, map_enumAllDeviceFullInfo, hdeal]
    exact ⟨_, rfl⟩
  · -- Devices that have a relation hold each other, in whatever order the list is freed.
    rcases h.given g gen hgen with ⟨nodes', hnodes', htree, hdevices, ks, hks⟩
    rw [hnodes, Option.some.injEq] at hnodes'
    subst hnodes'
    rw [hdevices] at hks
    refine Counted.supported_survives _ (supported_linked nodes htree)
      (List.filter_subset_self _) hks (List.mem_filter.mpr ⟨List.mem_range.mpr ?_, hk⟩)
    rcases (hasRelation_iff _ k).mp hk with ⟨j, hkj | hjk⟩
    · exact hkj.lt_length.1
    · exact hjk.lt_length.2
  · -- Of each list exactly the devices with a relation are left.
    refine congrArg List.sum (List.ext_getElem? (fun g => ?_))
    rw [List.getElem?_map, List.getElem?_map, List.getElem?_dropLast, h.length_eq,
      Nat.add_sub_cancel]
    cases hgen : s.old[g]? with
    | none => rw [if_neg (Nat.not_lt.mpr (List.getElem?_eq_none_iff.mp hgen))]; rfl
    | some gen =>
        rw [if_pos (List.getElem?_eq_some_iff.mp hgen).1]
        rcases h.given g gen hgen with ⟨nodes, hnodes, htree, hdevices, ks, hks⟩
        have hsettled := hfreed gen (List.mem_of_getElem? hgen)
        rw [hdevices] at hks hsettled
        have hleft := mem_left_iff nodes htree gen.live ks hks hsettled
        have hnodup : gen.live.Nodup := Counted.run_nodup _ hks List.nodup_range
        rw [hnodes, Option.map_some, Option.map_some, linkedCount, List.countP_eq_length_filter]
        exact congrArg some ((List.perm_ext_iff_of_nodup hnodup
          (List.nodup_range.filter _)).mpr hleft).length_eq

/-- What Windows reads of a text that begins with a brace. -/
def readGuid (s : List Char) : Option GUID :=
  let part := fun i n => (s.drop i).take n
  let digits := part 1 8 ++ part 10 4 ++ part 15 4 ++ part 20 4 ++ part 25 12
  if s.length = 38 ∧ part 37 1 = ['}'] ∧
      part 9 1 ++ part 14 1 ++ part 19 1 ++ part 24 1 = ['-', '-', '-', '-'] ∧
      digits.all (fun c => (hexDigit c).isSome) = true then
    some { Data1 := UInt32.ofNat (readDigits 0 (part 1 8))
           Data2 := UInt16.ofNat (readDigits 0 (part 10 4))
           Data3 := UInt16.ofNat (readDigits 0 (part 15 4))
           Data4 := UInt64.ofNat (readDigits 0 (part 20 4 ++ part 25 12)) }
  else none

/-- A hub with a stick, and a network card. -/
def hubStickCard : List DevNode :=
  [{ DevInst := 1, wszClassName := "USB".toList, status := some (1, 0), ParentDevInst := 0
     ParentDevInstanceId := "PCI\\VEN".toList, SelfDeviceInstanceId := "USB\\ROOT".toList
     wsDevicePath := [], wstrDeviceName := [] },
   { DevInst := 2, wszClassName := "DiskDrive".toList, status := some (1, 0), ParentDevInst := 1
     ParentDevInstanceId := "USB\\ROOT".toList, SelfDeviceInstanceId := "USBSTOR\\X".toList
     wsDevicePath := "USBSTOR#X#{53f56307-b6bf-11d0-94f2-00a0c91efb8b}".toList
     wstrDeviceName := "Port_#0009.Hub_#0001".toList },
   { DevInst := 5, wszClassName := "Net".toList, status := some (1, 0), ParentDevInst := 0
     ParentDevInstanceId := "PCI\\VEN".toList, SelfDeviceInstanceId := "PCI\\DEV".toList
     wsDevicePath := [], wstrDeviceName := [] }]

/-- Monitoring is opened twice, and the second time there is nothing. -/
def openTwice : List Change :=
  [.deal (some hubStickCard), .deal none, .free 1 2]

theorem changeOk_openTwice :
    Machine.StepsMeet (changeStep readGuid 8) ChangeOk noDevices openTwice := by
  have htree : IsTree (some hubStickCard) :=
    ⟨by decide +kernel, fun x => if x = 0 then 0 else if x = 1 then 1 else 2, by decide +kernel⟩
  have hnone : IsTree none := ⟨List.nodup_nil, fun _ => 0, fun _ h => absurd h List.not_mem_nil⟩
  exact ⟨htree, fun _ _ => ⟨hnone, fun _ _ => ⟨trivial, fun _ _ => trivial⟩⟩⟩

/-- The card's record is freed, and the hub and the stick stay in memory. -/
theorem snapshots_leak_openTwice :
    ∃ s, Machine.run (changeStep readGuid 8) noDevices openTwice = some s ∧ s.g_vecDevice = [] ∧
      leftBehind s = 2 ∧ (s.changes.dropLast.map (linkedCount readGuid)).sum = 2 := by
  have hrun : (Machine.run (changeStep readGuid 8) noDevices openTwice).any (fun s =>
      s.g_vecDevice == [] && leftBehind s == 2 && s.old.all (fun gen => gen.live.all (fun k =>
        decide (Counted.Held (refsOf gen.devices) gen.live k)))) = true := by
    decide +kernel
  rcases hs : Machine.run (changeStep readGuid 8) noDevices openTwice with _ | s
  · rw [hs] at hrun
    exact absurd hrun (by simp only [Option.any_none, Bool.false_eq_true, not_false_eq_true])
  · rw [hs] at hrun
    simp only [Option.any_some, Bool.and_eq_true, beq_iff_eq, List.all_eq_true,
      decide_eq_true_eq] at hrun
    rcases hrun with ⟨⟨hlist, hleft⟩, hheld⟩
    have hfreed : FreedAll s := fun gen hgen =>
      (Counted.settled_iff (refsOf gen.devices) gen.live).mpr (hheld gen hgen)
    have hsum := (snapshots_leak 8 s openTwice changeOk_openTwice hs).2.2.2 hfreed
    exact ⟨s, rfl, hlist, hleft, hsum.symm.trans hleft⟩

end Devices

end UDisk

end Defender
