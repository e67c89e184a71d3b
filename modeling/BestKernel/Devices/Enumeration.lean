import BestKernel.Kontrol.Hash
import Mathlib.Data.Set.Function
import Mathlib.Tactic.Common
import Mathlib.Tactic.SplitIfs

/-!
# Device enumeration

`load_all_devices` unmarks the children of `/dev`, walks the buses from bus 0 on with
`enumerate_devices`, and kills every child that is still unmarked.

A child of `/dev` is live when its slot is marked, and nothing ever marks one.
`load_exact_iff` says when a call does what it should: no function answers, and the list
of children is empty and stays so.

Readings of the source.  `enumerate_deivces` and `device_enum` are `enumerate_devices`,
with the arguments that a call leaves out those of the caller, and the counter 0 of a new
bus a new counter.  `DEVKILL` is `DEVICEKILL` of the device in the slot, and what it frees
it frees one slot of.  A variable that is not set is 0, an address that is 0 can be
written to, and devices at different addresses do not overlap.  The address ranges and the
names of the files that are made are left out, and so are the threads behind a device.
-/

namespace BestKernel
namespace Devices

open Machine
open Kontrol

/-- Configuration space, by bus, device, function and register. -/
abbrev ConfigSpace := Byte → BitVec 5 → BitVec 3 → Byte → Half

/-- A device of `/dev`, as far as its enumeration goes. -/
structure PciDevice where
  name : Half
  name_count : Half
  double_link : Word
  present : Byte
  bus : Byte
  device : Byte
  function : Byte
  devsel_timing : Half
  identification : Half
  geninfo : Half
  irline_and_pin : BitVec 16
  expansion_rom : Half
  driver : Word
  virt_irhandler : Word
  thread : Word

/-- A device in zeroed memory. -/
def PciDevice.zero : PciDevice := ⟨0, 0, 0, 0, 0, 0, 0, 0, 0, 0, 0, 0, 0, 0, 0⟩

/-- A driver, with `userspace->code` as `code`. -/
structure FiDriv where
  module_driver : Bool
  classcode : Half
  code : Word
  functions : Half → Word

/-- What answers from outside: the hardware, the drivers and what they do, the disks of
the partitions in a table, and the pool of pointers for a list of children to grow. -/
structure Surroundings where
  cfg : ConfigSpace
  drivgod : List FiDriv
  module_ctl : FiDriv → PciDevice → Half
  partition_table : PciDevice → List Word
  clone_thread : FiDriv → Word
  moreChildren : Half → Word

/-- The pools and what lies in them.  `absentFiles` and `absentChildren` are the slots that
this call took for functions found absent and has not given back, and `removed` are the
slots of the children that it has killed. -/
structure DeviceTree where
  vfs : Hash
  children : Hash
  entries : Word → Word
  devices : Word → PciDevice
  names : Hash
  nameEntries : Nat → Half × Half
  partitions : Hash
  disks : Nat → Word
  absentFiles : List Word
  absentChildren : List Word
  removed : List Nat

/-- `DISK`, `KEYB`, `MOUS` and `VIDE` -/
def DISK : Half := 0x4B534944
def KEYB : Half := 0x4259454B
def MOUS : Half := 0x53554F4D
def VIDE : Half := 0x45444956

/-- `pool_free(sect,1)` -/
def poolFree (h : Hash) (sect : Word) : Hash := (h.free (fun _ => 0) sect 1).1

section Configuration

variable (cfg : ConfigSpace)

/-- `1<<31 | bus<<16 | device<<11 | function<<8 | reg` -/
def configAddress (bus device function : Byte) (reg : Half) : Half :=
  1 <<< 31 ||| bus.setWidth 32 <<< 16 ||| device.setWidth 32 <<< 11 |||
    function.setWidth 32 <<< 8 ||| reg

/-- `ind(0xcfc)` after `outd(mask,0xcf8)` -/
def configData (mask : Half) : Half :=
  cfg (mask.extractLsb' 16 8) (mask.extractLsb' 11 5) (mask.extractLsb' 8 3)
    (mask.extractLsb' 0 8)

def bootRead (dev : PciDevice) (reg : Half) : Half :=
  configData cfg (configAddress dev.bus dev.device dev.function reg)

/-- `get_devsel_timing` -/
def getDevselTiming (dev : PciDevice) : Half :=
  shr (w := 32) (shl (configData cfg (configAddress dev.bus dev.device 0 4)) 22) 30

/-- `get_headertype`, without the bit for several functions -/
def getHeadertype (dev : PciDevice) : Half :=
  shr (w := 32) (shl (bootRead cfg dev 0x6) 16) 24 &&& 127

/-- The bit for several functions -/
def getMultifunction (dev : PciDevice) : Bool :=
  shr (w := 32) (shl (bootRead cfg dev 0x6) 16) 24 &&& 128 ≠ 0

/-- `get_irline_and_pin` -/
def getIrlineAndPin (dev : PciDevice) : BitVec 16 := (bootRead cfg dev 0x3c).setWidth 16

/-- `get_expansionrom` -/
def getExpansionrom (dev : PciDevice) : Half :=
  bootRead cfg dev (if getHeadertype cfg dev = 0 then 0x38 else 0x30)

/-- `get_secondarybus_number` -/
def getSecondarybusNumber (dev : PciDevice) : Half := bootRead cfg dev 0x18

end Configuration

namespace DeviceTree

def setDevice (s : DeviceTree) (p : Word) (dev : PciDevice) : DeviceTree :=
  { s with devices := Function.update s.devices p dev }

/-- `vfs->pool_free(p,1)`, which zeroes the file. -/
def freeFile (s : DeviceTree) (p : Word) : DeviceTree :=
  { s with
    vfs := poolFree s.vfs p
    devices := Function.update s.devices p PciDevice.zero
    absentFiles := s.absentFiles.erase p }

/-- `devices->children->pool_free(p,1)` -/
def freeChild (s : DeviceTree) (p : Word) : DeviceTree :=
  { s with
    children := poolFree s.children p
    entries := Function.update s.entries p 0
    absentChildren := s.absentChildren.erase p }

/-- `vfs->pool_alloc(1)` for a file other than a device. -/
def makeFile (s : DeviceTree) : Word × DeviceTree :=
  ((s.vfs.alloc 1 0).1.getD 0, { s with vfs := (s.vfs.alloc 1 0).2 })

/-- A slot in `/dev`. -/
def childAt (s : DeviceTree) (i : Nat) : Word := s.entries (wordAt s.children.pool i)

/-- `load_partition_table` -/
def loadPartitionTable (s : DeviceTree) (table : List Word) : DeviceTree :=
  table.foldl (fun s disk =>
    let (found, partitions) := s.partitions.alloc 1 0
    { s with
      partitions := partitions
      disks := Function.update s.disks (s.partitions.slotOf (found.getD 0)) disk }) s

/-- The name of a device is known: its count goes up. -/
def countName (s : DeviceTree) (newdev : Word) (gj : Nat) : DeviceTree :=
  let count := (s.nameEntries gj).2 + 1
  { s with nameEntries := Function.update s.nameEntries gj ((s.nameEntries gj).1, count) }.setDevice
    newdev { s.devices newdev with name_count := count + 0x30 }

/-- It is not: the files for it are made, and a name. -/
def addName (s : DeviceTree) (newdev : Word) : DeviceTree :=
  let name := (s.devices newdev).name
  let s :=
    if name = KEYB ∨ name = MOUS then
      let (stream, s) := s.makeFile
      s.setDevice newdev { s.devices newdev with double_link := stream }
    else s
  let s := if name = VIDE then s.makeFile.2 else s
  let (found, names) := s.names.alloc 1 0
  { s with
    names := names
    nameEntries := Function.update s.nameEntries (s.names.slotOf (found.getD 0)) (name, 0) }

/-- The counter of the device's name -/
def nameDevice (s : DeviceTree) (newdev : Word) : DeviceTree :=
  let name := (s.devices newdev).name
  let known := (List.range s.names.length.toNat).find? fun gj => (s.nameEntries gj).1 = name
  known.elim (s.addName newdev) (s.countName newdev)

variable (env : Surroundings)

/-- A disk gets its partitions. -/
def loadDisk (s : DeviceTree) (newdev : Word) : DeviceTree :=
  if (s.devices newdev).name = DISK then
    s.loadPartitionTable (env.partition_table (s.devices newdev))
  else s

/-- `newdev` gets its driver. -/
def bindDriver (s : DeviceTree) (newdev : Word) (fidriv : FiDriv) : DeviceTree :=
  let irhandler := env.module_ctl fidriv (s.devices newdev)
  let s := s.setDevice newdev
    { s.devices newdev with virt_irhandler := fidriv.code + fidriv.functions irhandler }
  let s := (s.loadDisk env newdev).nameDevice newdev
  s.setDevice newdev { s.devices newdev with thread := env.clone_thread fidriv }

/-- The search for a driver. -/
def findDriver (s : DeviceTree) (newdev : Word) : DeviceTree :=
  let fits (fidriv : FiDriv) : Bool :=
    !fidriv.module_driver && fidriv.classcode == (s.devices newdev).geninfo
  (env.drivgod.find? fits).elim s (s.bindDriver env newdev)

/-- A file and a slot of `/dev` for a function, and its identification. -/
structure NewDevice where
  tree : DeviceTree
  file : Option Word
  child : Option Word

def NewDevice.newdev (new : NewDevice) : Word := new.file.getD 0

def takeDevice (s : DeviceTree) (bus_number device_number function : Half) : NewDevice :=
  let (file, vfs) := s.vfs.alloc 1 0
  let (child, children) := s.children.alloc 1 (env.moreChildren s.children.length)
  let newdev := file.getD 0
  let dev :=
    { s.devices newdev with
      bus := bus_number.setWidth 8
      device := device_number.setWidth 8
      function := function.setWidth 8 }
  let dev :=
    { dev with
      devsel_timing := getDevselTiming env.cfg dev
      identification := bootRead env.cfg dev 0 }
  let tree : DeviceTree :=
    { s with
      vfs := vfs
      children := children
      entries := Function.update s.entries (child.getD 0) newdev }
  ⟨tree.setDevice newdev dev, file, child⟩

/-- The function is absent: its file is freed. -/
def skipDevice (new : NewDevice) : DeviceTree :=
  { new.tree with
    absentFiles := new.file.toList ++ new.tree.absentFiles
    absentChildren := new.child.toList ++ new.tree.absentChildren }.freeFile new.newdev

/-- The function answers: its device is filled in. -/
def fillDevice (new : NewDevice) : DeviceTree :=
  let dev := new.tree.devices new.newdev
  let dev :=
    { dev with
      geninfo := bootRead env.cfg dev 0x8
      irline_and_pin := getIrlineAndPin env.cfg dev
      function := 0 }
  let dev := { dev with expansion_rom := getExpansionrom env.cfg dev, driver := 0 }
  (new.tree.setDevice new.newdev dev).findDriver env new.newdev

/-- The functions from 1 on, with one counter. -/
def functionsLoop (recurse : Half → Half → DeviceTree → Option (Half × DeviceTree)) :
    List Half → Half → DeviceTree → Option (Half × DeviceTree)
  | [], device_number, s => some (device_number, s)
  | g :: rest, device_number, s =>
      match recurse device_number g s with
      | none => none
      | some (device_number, s) => functionsLoop recurse rest device_number s

/-- The recursion into the bus of `dev`, for the header of a device. -/
def behindBridge (recurse : Half → Half → Half → DeviceTree → Option (Half × DeviceTree))
    (dev : PciDevice) (s : DeviceTree) : Option DeviceTree :=
  if getHeadertype env.cfg dev = 0 then
    (recurse (getSecondarybusNumber env.cfg dev) 0 0 s).map Prod.snd
  else some s

/-- The recursion into the other functions of `dev`. -/
def otherFunctions (recurse : Half → Half → DeviceTree → Option (Half × DeviceTree))
    (dev : PciDevice) (device_number : Half) (s : DeviceTree) : Option (Half × DeviceTree) :=
  if getMultifunction env.cfg dev then functionsLoop recurse [1, 2, 3] device_number s
  else some (device_number, s)

/-- `enumerate_devices`: where the counter ends and the tree, `none` while it has not
ended. -/
def enumerateDevices : Nat → Half → Half → Half → DeviceTree → Option (Half × DeviceTree)
  | 0, _, _, _, _ => none
  | fuel + 1, bus_number, device_number, function, s =>
      if device_number = 32 then some (device_number, s)
      else
        let new := s.takeDevice env bus_number device_number function
        let dev := new.tree.devices new.newdev
        if dev.identification = -1 then
          enumerateDevices fuel bus_number (device_number + 1) 0 (skipDevice new)
        else
          let dev := { dev with function := 0 }
          match behindBridge env (enumerateDevices fuel) dev (fillDevice env new) with
          | none => none
          | some s =>
              match otherFunctions env (enumerateDevices fuel bus_number) dev device_number s with
              | none => none
              | some (device_number, s) =>
                  enumerateDevices fuel bus_number (device_number + 1) 0 s

/-- `present = 0` for the children. -/
def markDevices (s : DeviceTree) : DeviceTree :=
  (List.range s.children.length.toNat).foldl
    (fun s i => s.setDevice (s.childAt i) { s.devices (s.childAt i) with present := 0 }) s

/-- The partitions of a disk are freed. -/
def removePartitions (s : DeviceTree) (device : Word) : DeviceTree :=
  (List.range s.partitions.length.toNat).foldl
    (fun s o =>
      if s.disks o = device then
        let part := s.partitions.pool + BitVec.ofNat 64 o * s.partitions.stride
        { s with partitions := poolFree s.partitions part, disks := Function.update s.disks o 0 }
      else s) s

/-- `DEVICEKILL` of the device in slot `i` -/
def deviceKill (s : DeviceTree) (i : Nat) : DeviceTree :=
  let device := s.childAt i
  { (s.freeChild (s.devices device).double_link).freeFile device with
    removed := i :: s.removed }

/-- A child is killed that is not present. -/
def removeAbsent (s : DeviceTree) (i : Nat) : DeviceTree :=
  let device := s.devices (s.childAt i)
  if device.present = 0 then
    let s := if device.name = DISK then s.removePartitions (s.childAt i) else s
    s.deviceKill i
  else s

/-- The names get their room; nothing has been taken or killed by this call. -/
def started (s : DeviceTree) : DeviceTree :=
  { s with
    names := { s.names with length := 1028 }
    absentFiles := []
    absentChildren := []
    removed := [] }

/-- `load_all_devices` -/
def loadAllDevices (fuel : Nat) (s : DeviceTree) : Option DeviceTree :=
  match enumerateDevices env fuel 0 0 0 s.started.markDevices with
  | none => none
  | some (_, s) => some ((List.range s.children.length.toNat).foldl removeAbsent s)

end DeviceTree

section Specification

/-- A function answers. -/
def Responds (cfg : ConfigSpace) (bus : Byte) (device : BitVec 5) (function : BitVec 3) : Prop :=
  cfg bus device function 0 ≠ -1

/-- The header of a function is that of a bridge. -/
def IsBridge (cfg : ConfigSpace) (bus : Byte) (device : BitVec 5) (function : BitVec 3) : Prop :=
  (cfg bus device function 0x0c).extractLsb' 16 7 = 1

/-- The buses behind bridges, from bus 0 on. -/
inductive ReachableBus (cfg : ConfigSpace) : Byte → Prop
  | root : ReachableBus cfg 0
  | bridge {bus : Byte} {device : BitVec 5} {function : BitVec 3}
      (hbus : ReachableBus cfg bus)
      (hresponds : Responds cfg bus device function)
      (hbridge : IsBridge cfg bus device function) :
      ReachableBus cfg ((cfg bus device function 0x18).extractLsb' 8 8)

/-- The functions that should have a device. -/
def presentFunctions (cfg : ConfigSpace) : Set (Byte × BitVec 5 × BitVec 3) :=
  {x | ReachableBus cfg x.1 ∧ Responds cfg x.1 x.2.1 x.2.2}

/-- The slots of the live children. -/
def liveChildren (s : DeviceTree) : Set Nat :=
  {i | i < s.children.length.toNat ∧ s.children.ckarray i ≠ 0}

/-- The function that a child is for. -/
def functionOf (s : DeviceTree) (i : Nat) : Byte × BitVec 5 × BitVec 3 :=
  let dev := s.devices (s.childAt i)
  (dev.bus, dev.device.setWidth 5, dev.function.setWidth 3)

/-- What a call should leave behind. -/
structure EnumerationExact (cfg : ConfigSpace) (s s' : DeviceTree) : Prop where
  live : Set.BijOn (functionOf s') (liveChildren s') (presentFunctions cfg)
  returned : s'.absentFiles = [] ∧ s'.absentChildren = []
  removed : ∀ i, i ∈ s'.removed ↔ i ∈ liveChildren s ∧ functionOf s i ∉ presentFunctions cfg
  partitions : ∀ i, i ∈ s'.removed → ∀ j, j < s'.partitions.length.toNat →
    s'.partitions.ckarray j ≠ 0 → s'.disks j ≠ s.childAt i

/-- The list of children has no slot and gets none. -/
def NoChildSlot (env : Surroundings) (h : Hash) : Prop :=
  h.length = 0 ∧ (h.type = .DOUBLE_POINTER → env.moreChildren 0 = 0)

/-- A call ends and leaves what it should, and another one leaves the same devices. -/
def LoadExact (env : Surroundings) (s : DeviceTree) : Prop :=
  ∃ fuel s', s.loadAllDevices env fuel = some s' ∧ EnumerationExact env.cfg s s' ∧
    ∃ fuel s'', s'.loadAllDevices env fuel = some s'' ∧
      functionOf s'' '' liveChildren s'' = functionOf s' '' liveChildren s'

/-- What the kernel gets to: `/dev` starts as `directory_constructor` leaves it, devices
are loaded, and nothing else in the kernel marks a child of it. -/
inductive Reachable : DeviceTree → Prop
  | boot {s : DeviceTree}
      (hlength : s.children.length = 0)
      (hmarks : s.children.ckarray = fun _ => 0) :
      Reachable s
  | load {s s' : DeviceTree} {env : Surroundings} {fuel : Nat}
      (hs : Reachable s)
      (hload : s.loadAllDevices env fuel = some s') :
      Reachable s'
  | elsewhere {s s' : DeviceTree}
      (hs : Reachable s)
      (hmarks : ∀ i, s.children.ckarray i = 0 → s'.children.ckarray i = 0) :
      Reachable s'

end Specification

namespace DeviceTree

section Marks

variable {env : Surroundings} {s : DeviceTree}

theorem loadPartitionTable_children (s : DeviceTree) (table : List Word) :
    (s.loadPartitionTable table).children = s.children := by
  rw [loadPartitionTable]
  induction table generalizing s with
  | nil => rfl
  | cons disk table ih =>
      rw [List.foldl_cons]
      exact (ih _).trans rfl

theorem addName_children (s : DeviceTree) (newdev : Word) :
    (s.addName newdev).children = s.children := by
  rw [addName]
  split_ifs <;> rfl

theorem nameDevice_children (s : DeviceTree) (newdev : Word) :
    (s.nameDevice newdev).children = s.children := by
  rw [nameDevice]
  cases List.find? _ _ with
  | none => exact addName_children s newdev
  | some gj => rfl

theorem loadDisk_children (s : DeviceTree) (newdev : Word) :
    (s.loadDisk env newdev).children = s.children := by
  rw [loadDisk]
  split_ifs
  · exact loadPartitionTable_children _ _
  · rfl

theorem bindDriver_children (s : DeviceTree) (newdev : Word) (fidriv : FiDriv) :
    (s.bindDriver env newdev fidriv).children = s.children :=
  (nameDevice_children _ newdev).trans (loadDisk_children _ newdev)

theorem fillDevice_children (new : NewDevice) :
    (fillDevice env new).children = new.tree.children := by
  simp only [fillDevice, findDriver]
  cases List.find? _ _ with
  | none => rfl
  | some fidriv => exact bindDriver_children _ _ _

theorem takeDevice_ckarray
    (env : Surroundings) (s : DeviceTree) (bus_number device_number function : Half) :
    (s.takeDevice env bus_number device_number function).tree.children.ckarray =
      s.children.ckarray :=
  Hash.alloc_ckarray 1 (env.moreChildren s.children.length)

theorem functionsLoop_ckarray
    {recurse : Half → Half → DeviceTree → Option (Half × DeviceTree)}
    (hrecurse : ∀ n g s r, recurse n g s = some r → r.2.children.ckarray = s.children.ckarray)
    {gs : List Half} {n : Half} {r : Half × DeviceTree}
    (h : functionsLoop recurse gs n s = some r) :
    r.2.children.ckarray = s.children.ckarray := by
  induction gs generalizing n s with
  | nil =>
      cases h
      rfl
  | cons g gs ih =>
      rw [functionsLoop] at h
      split at h
      · cases h
      · next m t hg => exact (ih h).trans (hrecurse n g s (m, t) hg)

theorem behindBridge_ckarray
    {recurse : Half → Half → Half → DeviceTree → Option (Half × DeviceTree)}
    (hrecurse : ∀ b n g s r, recurse b n g s = some r →
      r.2.children.ckarray = s.children.ckarray)
    {dev : PciDevice} {t : DeviceTree}
    (h : behindBridge env recurse dev s = some t) :
    t.children.ckarray = s.children.ckarray := by
  rw [behindBridge] at h
  split_ifs at h
  · obtain ⟨r, hr, rfl⟩ := Option.map_eq_some_iff.mp h
    exact hrecurse _ _ _ _ r hr
  · cases h
    rfl

theorem otherFunctions_ckarray
    {recurse : Half → Half → DeviceTree → Option (Half × DeviceTree)}
    (hrecurse : ∀ n g s r, recurse n g s = some r → r.2.children.ckarray = s.children.ckarray)
    {dev : PciDevice} {n : Half} {r : Half × DeviceTree}
    (h : otherFunctions env recurse dev n s = some r) :
    r.2.children.ckarray = s.children.ckarray := by
  rw [otherFunctions] at h
  split_ifs at h
  · exact functionsLoop_ckarray hrecurse h
  · cases h
    rfl

/-- The walk marks no child. -/
theorem enumerateDevices_ckarray
    {fuel : Nat} {bus_number device_number function : Half} {r : Half × DeviceTree}
    (h : enumerateDevices env fuel bus_number device_number function s = some r) :
    r.2.children.ckarray = s.children.ckarray := by
  induction fuel generalizing bus_number device_number function s r with
  | zero => cases h
  | succ fuel ih =>
      have htake := takeDevice_ckarray env s bus_number device_number function
      rw [enumerateDevices] at h
      split_ifs at h with hend
      · cases h
        rfl
      dsimp only at h
      split_ifs at h with habsent
      · exact (ih h).trans htake
      split at h
      · cases h
      next t hbelow =>
        split at h
        · cases h
        next m u hothers =>
          have ht : t.children.ckarray = s.children.ckarray := by
            rw [behindBridge_ckarray (fun _ _ _ _ _ => ih) hbelow, fillDevice_children, htake]
          have hu : u.children.ckarray = t.children.ckarray :=
            otherFunctions_ckarray (fun _ _ _ _ => ih) hothers
          rw [ih h, hu, ht]

/-- The first pass changes devices only. -/
theorem markDevices_frame (s : DeviceTree) :
    ∃ devices, s.markDevices = { s with devices := devices } := by
  rw [markDevices]
  generalize List.range _ = is
  induction is generalizing s with
  | nil => exact ⟨s.devices, rfl⟩
  | cons i is ih =>
      rw [List.foldl_cons]
      obtain ⟨devices, hdevices⟩ := ih (s.setDevice (s.childAt i)
        { s.devices (s.childAt i) with present := 0 })
      exact ⟨devices, hdevices⟩

theorem removePartitions_children (s : DeviceTree) (device : Word) :
    (s.removePartitions device).children = s.children := by
  rw [removePartitions]
  generalize List.range _ = os
  induction os generalizing s with
  | nil => rfl
  | cons o os ih =>
      rw [List.foldl_cons, ih]
      split_ifs <;> rfl

theorem deviceKill_ckarray
    (i : Nat) {j : Nat}
    (hj : s.children.ckarray j = 0) :
    (s.deviceKill i).children.ckarray j = 0 := by
  have hfree := Hash.free_ckarray (h := s.children) (fun _ => 0)
    (s.devices (s.childAt i)).double_link 1 j
  refine hfree.trans ?_
  split_ifs
  · rfl
  · exact hj

/-- And what is killed is no longer marked. -/
theorem removeAbsent_ckarray
    (i : Nat) {j : Nat}
    (hj : s.children.ckarray j = 0) :
    (s.removeAbsent i).children.ckarray j = 0 := by
  rw [removeAbsent]
  dsimp only
  split_ifs
  · exact deviceKill_ckarray i (by rwa [removePartitions_children])
  · exact deviceKill_ckarray i hj
  · exact hj

/-- So no child is live after a call if none was before. -/
theorem loadAllDevices_ckarray
    {fuel : Nat} {s' : DeviceTree}
    (hload : s.loadAllDevices env fuel = some s')
    {j : Nat}
    (hj : s.children.ckarray j = 0) :
    s'.children.ckarray j = 0 := by
  have hremove : ∀ (is : List Nat) (t : DeviceTree), t.children.ckarray j = 0 →
      (is.foldl removeAbsent t).children.ckarray j = 0 := by
    intro is
    induction is with
    | nil => exact fun t ht => ht
    | cons i is ih => exact fun t ht => ih _ (removeAbsent_ckarray i ht)
  rw [loadAllDevices] at hload
  split at hload
  · cases hload
  next m t henumerate =>
    cases hload
    apply hremove
    obtain ⟨devices, hmark⟩ := markDevices_frame s.started
    rw [enumerateDevices_ckarray henumerate, hmark]
    exact hj

/-- A slot is killed whose device is not present. -/
theorem mem_removed_removeAbsent
    {i : Nat}
    (hpresent : (s.devices (s.childAt i)).present = 0) :
    i ∈ (s.removeAbsent i).removed := by
  rw [removeAbsent]
  dsimp only
  rw [if_pos hpresent]
  exact List.mem_cons_self

theorem removePartitions_removed (s : DeviceTree) (device : Word) :
    (s.removePartitions device).removed = s.removed := by
  rw [removePartitions]
  generalize List.range _ = os
  induction os generalizing s with
  | nil => rfl
  | cons o os ih =>
      rw [List.foldl_cons, ih]
      split_ifs <;> rfl

theorem mem_removed_of_mem
    {i : Nat}
    (is : List Nat)
    (hi : i ∈ s.removed) :
    i ∈ (is.foldl removeAbsent s).removed := by
  induction is generalizing s with
  | nil => exact hi
  | cons j is ih =>
      rw [List.foldl_cons]
      apply ih
      rw [removeAbsent]
      dsimp only
      split_ifs
      · have hkept := removePartitions_removed s (s.childAt j)
        exact List.mem_cons_of_mem j (by rwa [← hkept] at hi)
      · exact List.mem_cons_of_mem j hi
      · exact hi

end Marks
end DeviceTree

section Absence

open DeviceTree

variable {env : Surroundings} {s : DeviceTree}

theorem configAddress_root
    {n : Nat}
    (hn : n < 32) :
    (configAddress 0 ((BitVec.ofNat 32 n).setWidth 8) 0 0).extractLsb' 16 8 = 0 ∧
      (configAddress 0 ((BitVec.ofNat 32 n).setWidth 8) 0 0).extractLsb' 0 8 = 0 := by
  have hall : ∀ k : Fin 32,
      (configAddress 0 ((BitVec.ofNat 32 k).setWidth 8) 0 0).extractLsb' 16 8 = 0 ∧
        (configAddress 0 ((BitVec.ofNat 32 k).setWidth 8) 0 0).extractLsb' 0 8 = 0 := by
    decide
  exact hall ⟨n, hn⟩

/-- Where no function answers the devices of bus 0 are all found absent. -/
theorem takeDevice_absent
    (hnone : presentFunctions env.cfg = ∅)
    {n : Nat}
    (hn : n < 32)
    (s : DeviceTree) :
    ((s.takeDevice env 0 (BitVec.ofNat 32 n) 0).tree.devices
      (s.takeDevice env 0 (BitVec.ofNat 32 n) 0).newdev).identification = -1 := by
  have hroot : ∀ device function, env.cfg 0 device function 0 = -1 := by
    intro device function
    by_contra hresponds
    have hmem : (0, device, function) ∈ presentFunctions env.cfg := ⟨.root, hresponds⟩
    rw [hnone] at hmem
    exact hmem
  obtain ⟨hbus, hreg⟩ := configAddress_root hn
  have hread : configData env.cfg (configAddress 0 ((BitVec.ofNat 32 n).setWidth 8) 0 0) = -1 := by
    rw [configData, hbus, hreg]
    exact hroot _ _
  simp only [takeDevice, NewDevice.newdev, setDevice, Function.update_self]
  exact hread

/-- A round that finds its function absent. -/
def absentRound (env : Surroundings) (s : DeviceTree) (n : Nat) : DeviceTree :=
  skipDevice (s.takeDevice env 0 (BitVec.ofNat 32 n) 0)

theorem enumerateDevices_done
    (fuel : Nat) (bus_number function : Half) (s : DeviceTree) :
    enumerateDevices env (fuel + 1) bus_number (BitVec.ofNat 32 32) function s = some (32, s) := by
  rw [enumerateDevices]
  exact if_pos rfl

theorem enumerateDevices_round
    (hnone : presentFunctions env.cfg = ∅)
    {n : Nat}
    (hn : n < 32)
    (fuel : Nat) (s : DeviceTree) :
    enumerateDevices env (fuel + 1) 0 (BitVec.ofNat 32 n) 0 s =
      enumerateDevices env fuel 0 (BitVec.ofNat 32 (n + 1)) 0 (absentRound env s n) := by
  have hne : BitVec.ofNat 32 n ≠ 32 := by
    intro heq
    have hnat := congrArg BitVec.toNat heq
    have hthirtytwo : (32 : Half).toNat = 32 := rfl
    rw [BitVec.toNat_ofNat, hthirtytwo] at hnat
    omega
  have hnext : BitVec.ofNat 32 n + 1 = BitVec.ofNat 32 (n + 1) := by
    rw [BitVec.ofNat_add]
    rfl
  rw [enumerateDevices, if_neg hne]
  dsimp only
  rw [if_pos (takeDevice_absent hnone hn s), hnext]
  rfl

/-- What the rounds for absent functions keep holds after the walk of bus 0. -/
theorem enumerateDevices_absent
    (hnone : presentFunctions env.cfg = ∅)
    {P : Nat → DeviceTree → Prop}
    (hround : ∀ n s, n < 32 → P n s → P (n + 1) (absentRound env s n))
    {fuel n : Nat} {r : Half × DeviceTree}
    (hn : n ≤ 32)
    (h : enumerateDevices env fuel 0 (BitVec.ofNat 32 n) 0 s = some r)
    (hs : P n s) :
    P 32 r.2 := by
  induction fuel generalizing n s with
  | zero => cases h
  | succ fuel ih =>
      rcases Nat.lt_or_eq_of_le hn with hlt | rfl
      · rw [enumerateDevices_round hnone hlt] at h
        exact ih hlt h (hround n s hlt hs)
      · rw [enumerateDevices_done] at h
        cases h
        exact hs

/-- And that walk ends. -/
theorem enumerateDevices_ends
    (hnone : presentFunctions env.cfg = ∅)
    {fuel n : Nat}
    (hn : n + fuel = 32)
    (s : DeviceTree) :
    ∃ r, enumerateDevices env (fuel + 1) 0 (BitVec.ofNat 32 n) 0 s = some r := by
  induction fuel generalizing n s with
  | zero =>
      obtain rfl : n = 32 := hn
      exact ⟨_, enumerateDevices_done 0 0 0 s⟩
  | succ fuel ih =>
      rw [enumerateDevices_round hnone (by omega)]
      exact ih (by omega) _

theorem allocChild_refused
    {h : Hash}
    (hslot : NoChildSlot env h) :
    h.alloc 1 (env.moreChildren h.length) = (none, h) := by
  obtain ⟨hlength, hmore⟩ := hslot
  have hloop : Hash.allocLoop h.ckarray 1 h.length.toNat 0 0 = none := by
    rw [hlength]
    rfl
  rw [Hash.alloc, hloop, hlength]
  exact if_neg fun hgrow => hgrow.2 (hmore hgrow.1)

/-- The first round with an empty list that can grow. -/
theorem allocChild_grown
    {h : Hash}
    (hlength : h.length = 0)
    (hslot : ¬ NoChildSlot env h) :
    (h.alloc 1 (env.moreChildren h.length)).2.length = 1 := by
  have hgrow : h.type = .DOUBLE_POINTER ∧ env.moreChildren 0 ≠ 0 := by
    by_contra hno
    exact hslot ⟨hlength, fun htype => by_contra fun hmore => hno ⟨htype, hmore⟩⟩
  have hloop : Hash.allocLoop h.ckarray 1 h.length.toNat 0 0 = none := by
    rw [hlength]
    rfl
  rw [Hash.alloc, hloop, hlength]
  dsimp only
  rw [if_pos hgrow]
  exact BitVec.zero_add 1

/-- With slots that are all free the first one is handed out. -/
theorem allocChild_first
    {h : Hash}
    (hlength : h.length ≠ 0)
    (hfree : h.ckarray 0 = 0)
    (tryn : Word) :
    (h.alloc 1 tryn).1 = some h.pool ∧ (h.alloc 1 tryn).2.length = h.length ∧
      (h.alloc 1 tryn).2.pool = h.pool := by
  have hloop : Hash.allocLoop h.ckarray 1 h.length.toNat 0 0 = some 0 := by
    cases hlen : h.length.toNat with
    | zero => exact absurd (BitVec.eq_of_toNat_eq hlen) hlength
    | succ left =>
        rw [Hash.allocLoop, if_pos hfree]
        exact if_pos rfl
  rw [Hash.alloc, hloop]
  exact ⟨congrArg some (BitVec.add_zero _), rfl, rfl⟩

/-- A list of children without a slot stays so, and what is taken is given back. -/
theorem absentRound_refused
    (hslot : NoChildSlot env s.children)
    (n : Nat) :
    (absentRound env s n).children = s.children ∧
      (s.absentFiles = [] → (absentRound env s n).absentFiles = []) ∧
      (absentRound env s n).absentChildren = s.absentChildren ∧
      (absentRound env s n).removed = s.removed := by
  have halloc := allocChild_refused hslot
  simp only [absentRound, skipDevice, takeDevice, freeFile, setDevice, NewDevice.newdev, halloc]
  refine ⟨trivial, fun hfiles => ?_, rfl, trivial⟩
  rw [hfiles, List.append_nil]
  cases (s.vfs.alloc 1 0).1 with
  | none => rfl
  | some p => exact List.erase_cons_head p []

/-- Otherwise there is a slot after a round, and before a later one the first slot is that
of a function found absent. -/
theorem absentRound_taken
    (hfree : s.children.ckarray 0 = 0)
    (hlength : s.children.length ≠ 0)
    (n : Nat) :
    (absentRound env s n).children.length ≠ 0 ∧
      ((absentRound env s n).devices ((absentRound env s n).childAt 0)).present = 0 := by
  obtain ⟨hfound, hlen, hpool⟩ :=
    allocChild_first hlength hfree (env.moreChildren s.children.length)
  simp only [absentRound, skipDevice, takeDevice, freeFile, setDevice, NewDevice.newdev, childAt,
    hfound, hlen, hpool, wordAt_zero, Option.getD_some, Function.update_self]
  exact ⟨hlength, rfl⟩

/-- The walk of a call and its last pass. -/
theorem loadAllDevices_eq_some_iff
    {fuel : Nat} {s' : DeviceTree} :
    s.loadAllDevices env fuel = some s' ↔
      ∃ r, enumerateDevices env fuel 0 0 0 s.started.markDevices = some r ∧
        (List.range r.2.children.length.toNat).foldl removeAbsent r.2 = s' := by
  rw [loadAllDevices]
  cases enumerateDevices env fuel 0 0 0 s.started.markDevices <;> simp

/-- Where nothing answers and no child can be made the call ends and leaves `/dev` alone. -/
theorem loadAllDevices_refused
    (hnone : presentFunctions env.cfg = ∅)
    (hslot : NoChildSlot env s.children) :
    ∃ fuel s', s.loadAllDevices env fuel = some s' ∧ s'.children = s.children ∧
      s'.absentFiles = [] ∧ s'.absentChildren = [] ∧ s'.removed = [] := by
  obtain ⟨devices, hmark⟩ := markDevices_frame s.started
  obtain ⟨r, hr⟩ := enumerateDevices_ends hnone (rfl : 0 + 32 = 32) s.started.markDevices
  have hkept : r.2.children = s.children ∧ r.2.absentFiles = [] ∧ r.2.absentChildren = [] ∧
      r.2.removed = [] := by
    refine enumerateDevices_absent hnone (P := fun _ u => u.children = s.children ∧
      u.absentFiles = [] ∧ u.absentChildren = [] ∧ u.removed = []) ?_ (Nat.zero_le 32) hr ?_
    swap
    · rw [hmark]
      exact ⟨rfl, rfl, rfl, rfl⟩
    rintro n u - ⟨hchildren, hfiles, hslots, hremoved⟩
    rw [← hchildren] at hslot
    obtain ⟨hchildren', hfiles', hslots', hremoved'⟩ := absentRound_refused hslot n
    exact ⟨hchildren'.trans hchildren, hfiles' hfiles, hslots'.trans hslots,
      hremoved'.trans hremoved⟩
  have hlength : r.2.children.length.toNat = 0 := by
    rw [hkept.1, hslot.1]
    rfl
  refine ⟨33, r.2, loadAllDevices_eq_some_iff.mpr ⟨r, hr, ?_⟩, hkept⟩
  rw [hlength]
  rfl

/-- Where nothing answers and a child can be made one is killed. -/
theorem loadAllDevices_taken
    (hnone : presentFunctions env.cfg = ∅)
    (hslot : ¬ NoChildSlot env s.children)
    (hmarks : ∀ j, s.children.ckarray j = 0)
    {fuel : Nat} {s' : DeviceTree}
    (hload : s.loadAllDevices env fuel = some s') :
    0 ∈ s'.removed := by
  obtain ⟨devices, hmark⟩ := markDevices_frame s.started
  obtain ⟨r, hr, rfl⟩ := loadAllDevices_eq_some_iff.mp hload
  -- the first round may have to make the slot, and the second one is the first to use it
  have hkept : r.2.children.length ≠ 0 ∧ (r.2.devices (r.2.childAt 0)).present = 0 := by
    have hwalk := enumerateDevices_absent hnone (n := 0) (P := fun n u =>
      u.children.ckarray 0 = 0 ∧ (n = 0 → ¬ NoChildSlot env u.children) ∧
        (1 ≤ n → u.children.length ≠ 0) ∧
        (2 ≤ n → (u.devices (u.childAt 0)).present = 0)) ?_ (Nat.zero_le 32) hr ?_
    · exact ⟨hwalk.2.2.1 (by decide), hwalk.2.2.2 (by decide)⟩
    · rintro n u - ⟨hfree, hfirst, hlength, -⟩
      have hfree' : (absentRound env u n).children.ckarray 0 = 0 := by
        have hckarray := takeDevice_ckarray env u 0 (BitVec.ofNat 32 n) 0
        exact (congrFun hckarray 0).trans hfree
      refine ⟨hfree', fun h => absurd h (Nat.succ_ne_zero n), fun _ => ?_, fun hn => ?_⟩
      · by_cases hzero : u.children.length = 0
        · have hn : n = 0 := by
            by_contra hn
            exact hlength (Nat.one_le_iff_ne_zero.mpr hn) hzero
          have hgrown : (absentRound env u n).children.length = 1 :=
            allocChild_grown hzero (hfirst hn)
          rw [hgrown]
          decide
        · exact (absentRound_taken hfree hzero n).1
      · exact (absentRound_taken hfree (hlength (by omega)) n).2
    · refine ⟨?_, fun _ => ?_, fun h => by omega, fun h => by omega⟩
      · rw [hmark]
        exact hmarks 0
      · rwa [hmark]
  obtain ⟨left, hleft⟩ := Nat.exists_eq_succ_of_ne_zero
    (fun h => hkept.1 (BitVec.eq_of_toNat_eq h))
  rw [hleft, List.range_succ_eq_map, List.foldl_cons]
  exact mem_removed_of_mem _ (mem_removed_removeAbsent hkept.2)

/-- Nothing that the kernel gets to has a live child in `/dev`. -/
theorem Reachable.unmarked
    (hs : Reachable s)
    (j : Nat) :
    s.children.ckarray j = 0 := by
  induction hs with
  | boot hlength hmarks => rw [hmarks]
  | load hs hload ih => exact loadAllDevices_ckarray hload ih
  | elsewhere hs hmarks ih => exact hmarks j ih

theorem liveChildren_of_unmarked
    (hmarks : ∀ j, s.children.ckarray j = 0) :
    liveChildren s = ∅ :=
  Set.eq_empty_of_forall_notMem fun j hj => hj.2 (hmarks j)

/-- Where some function answers no call can be right. -/
theorem presentFunctions_of_loadExact
    (hs : Reachable s)
    (h : LoadExact env s) :
    presentFunctions env.cfg = ∅ := by
  obtain ⟨fuel, s', hload, hexact, -⟩ := h
  have hlive := liveChildren_of_unmarked (Reachable.load hs hload).unmarked
  rw [← hexact.live.image_eq, hlive, Set.image_empty]

/-- **A call of `load_all_devices` does what it should if no function answers and no slot
for a child is to be had, and only then.** -/
theorem load_exact_iff
    (hs : Reachable s)
    (env : Surroundings) :
    LoadExact env s ↔ presentFunctions env.cfg = ∅ ∧ NoChildSlot env s.children := by
  have hlive := liveChildren_of_unmarked hs.unmarked
  constructor
  · intro h
    have hnone := presentFunctions_of_loadExact hs h
    obtain ⟨fuel, s', hload, hexact, -⟩ := h
    refine ⟨hnone, by_contra fun hslot => ?_⟩
    have hkilled := (hexact.removed 0).mp (loadAllDevices_taken hnone hslot hs.unmarked hload)
    rw [hlive] at hkilled
    exact hkilled.1
  · rintro ⟨hnone, hslot⟩
    obtain ⟨fuel, s', hload, hchildren, hfiles, hslots, hremoved⟩ :=
      loadAllDevices_refused hnone hslot
    rw [← hchildren] at hslot
    obtain ⟨fuel', s'', hload', -⟩ := loadAllDevices_refused hnone hslot
    have hs' := Reachable.load hs hload
    have hlive' := liveChildren_of_unmarked hs'.unmarked
    have hlive'' := liveChildren_of_unmarked (Reachable.load hs' hload').unmarked
    refine ⟨fuel, s', hload, ⟨?_, ⟨hfiles, hslots⟩, fun i => ?_, fun i hi => ?_⟩,
      fuel', s'', hload', ?_⟩
    · rw [hlive', hnone]
      exact Set.bijOn_empty _
    · simp [hremoved, hlive]
    · simp [hremoved] at hi
    · rw [hlive', hlive'', Set.image_empty, Set.image_empty]

/-- Nothing outside but the hardware. -/
def bareHardware (cfg : ConfigSpace) : Surroundings where
  cfg := cfg
  drivgod := []
  module_ctl := fun _ _ => 0
  partition_table := fun _ => []
  clone_thread := fun _ => 0
  moreChildren := fun _ => 0

/-- `/dev` as it is made, with a file system of four files. -/
def bootTree : DeviceTree where
  vfs := ⟨.POINTER, 4, 2, fun i => if i < 2 then 1 else 0, 0x10000, 512⟩
  children := ⟨.POINTER, 0, 0, fun _ => 0, 0, 8⟩
  entries := fun _ => 0
  devices := fun _ => PciDevice.zero
  names := ⟨.POINTER, 0, 0, fun _ => 0, 0x2000, 8⟩
  nameEntries := fun _ => (0, 0)
  partitions := ⟨.POINTER, 0, 0, fun _ => 0, 0x4000, 40⟩
  disks := fun _ => 0
  absentFiles := []
  absentChildren := []
  removed := []

/-- On an empty bus the first call is right. -/
theorem load_exact_iff_emptyBus :
    LoadExact (bareHardware fun _ _ _ _ => -1) bootTree := by
  refine (load_exact_iff (.boot rfl rfl) (bareHardware fun _ _ _ _ => -1)).mpr ⟨?_, rfl, ?_⟩
  · exact Set.eq_empty_of_forall_notMem fun x hx => hx.2 rfl
  · exact fun _ => rfl

/-- The host bridge alone, device 0 of bus 0. -/
def hostBridge : ConfigSpace := fun bus device function reg =>
  if bus = 0 ∧ device = 0 ∧ function = 0 then
    if reg = 0 then 0x12378086 else if reg = 8 then 0x06000002 else 0
  else -1

/-- It does not become a child of `/dev`. -/
theorem hostBridge_not_loaded : ¬ LoadExact (bareHardware hostBridge) bootTree := by
  intro h
  have hnone := presentFunctions_of_loadExact (.boot rfl rfl) h
  have hresponds : hostBridge 0 0 0 0 ≠ -1 := by decide
  have hbridge : (0, 0, 0) ∈ presentFunctions hostBridge := ⟨.root, hresponds⟩
  rw [show presentFunctions hostBridge = ∅ from hnone] at hbridge
  exact hbridge

end Absence

end Devices
end BestKernel
