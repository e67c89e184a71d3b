import BestKernel.Devices.Enumeration
import Mathlib.Data.Set.Lattice
import Mathlib.Order.CompletePartialOrder

/-!
# Accesses to configuration space

An access selects a register through the one port and reads or writes it through the other.
The address is made of the enable bit and the bus, device and function of a device, with an
offset or a register number on top that nothing keeps below 256: a driver may pass any
64-bit offset, of which the two low bits are cut off, and the helpers of the boot interface
pass register numbers as they are, 0x71 in `pci_init` and 0x6 in `get_headertype` among
them.  `get_devsel_timing` leaves out the function.

`spaces_apart_iff` says when the devices of a run of accesses keep to their own spaces: no
offset and no register brings a bit into the fields, or a low bit.

Readings of the source.  `count` is the length of the arrays; a loop over 2^32 offsets or
more, which starts over again and again as its counter has 32 bits, is followed once round.
A device is its bus, device and function.  A dword of configuration space is reached through
any of the register numbers that begin with its number.
-/

namespace BestKernel
namespace Devices

open Machine

/-- A selection with what follows it: a write to the register or a read. -/
inductive Transaction where
  | write (mask contents : Half)
  | read (mask : Half)

/-- The address that is written to port `0xcf8`. -/
def Transaction.mask : Transaction → Half
  | write mask _ => mask
  | read mask => mask

/-- `proto_mask` -/
def protoMask (dev : PciDevice) : Half := configAddress dev.bus dev.device dev.function 0

/-- `proto_mask | offsets[g]>>2<<2` -/
def transferAddress (dev : PciDevice) (offset : Word) : Half :=
  ((protoMask dev).setWidth 64 ||| (offset >>> 2) <<< 2).setWidth 32

/-- The accesses to the space of a device: the two of the drivers, with their arrays, and
those of the boot interface. -/
inductive Access where
  | write (transfers : List (Word × Half))
  | read (offsets : List Word)
  | bootWrite (reg contents : Half)
  | bootRead (reg : Half)
  | devselTiming

/-- What an access does at the ports. -/
def Access.transactions (dev : PciDevice) : Access → List Transaction
  | write transfers =>
      (transfers.take (2 ^ 32)).map fun transfer =>
        .write (transferAddress dev transfer.1) transfer.2
  | read offsets => (offsets.take (2 ^ 32)).map fun offset => .read (transferAddress dev offset)
  | bootWrite reg contents => [.write (configAddress dev.bus dev.device dev.function reg) contents]
  | bootRead reg => [.read (configAddress dev.bus dev.device dev.function reg)]
  | devselTiming => [.read (configAddress dev.bus dev.device 0 4)]

section Ports

/-- `outd(contents,0xcfc)` after `outd(mask,0xcf8)` -/
def configStore (cfg : ConfigSpace) (mask contents : Half) : ConfigSpace :=
  fun bus device function reg =>
    if bus = mask.extractLsb' 16 8 ∧ device = mask.extractLsb' 11 5 ∧
        function = mask.extractLsb' 8 3 ∧ reg = mask.extractLsb' 0 8 then contents
    else cfg bus device function reg

/-- What transactions read, and the space behind them. -/
def transact (cfg : ConfigSpace) : List Transaction → List Half × ConfigSpace
  | [] => ([], cfg)
  | .write mask contents :: rest => transact (configStore cfg mask contents) rest
  | .read mask :: rest =>
      let (values, cfg') := transact cfg rest
      (configData cfg mask :: values, cfg')

/-- A run of accesses, each through a device. -/
def accessAll (cfg : ConfigSpace) : List (PciDevice × Access) → ConfigSpace
  | [] => cfg
  | (dev, access) :: rest => accessAll (transact cfg (access.transactions dev)).2 rest

/-- The read of the boot interface is that of the enumeration. -/
theorem bootRead_eq (cfg : ConfigSpace) (dev : PciDevice) (reg : Half) :
    (transact cfg ((Access.bootRead reg).transactions dev)).1 = [bootRead cfg dev reg] := rfl

theorem devselTiming_eq (cfg : ConfigSpace) (dev : PciDevice) :
    (transact cfg (Access.devselTiming.transactions dev)).1.map
        (fun mask => shr (w := 32) (shl mask 22) 30) = [getDevselTiming cfg dev] := rfl

end Ports

section Specification

/-- The enable bit, the fields of the device and an aligned register. -/
def Proper (dev : PciDevice) (mask : Half) : Prop :=
  ∃ register, register < 256 ∧ 4 ∣ register ∧
    mask.toNat = 2 ^ 31 + dev.bus.toNat * 2 ^ 16 + dev.device.toNat * 2 ^ 11 +
      dev.function.toNat * 2 ^ 8 + register

/-- The device and function numbers of a device fit their fields. -/
structure PciDevice.InRange (dev : PciDevice) : Prop where
  device : dev.device.toNat < 32
  function : dev.function.toNat < 8

/-- One function of one device. -/
def SameFunction (dev dev' : PciDevice) : Prop :=
  dev.bus = dev'.bus ∧ dev.device = dev'.device ∧ dev.function = dev'.function

/-- A dword of configuration space. -/
def dwordOf (mask : Half) : Byte × BitVec 5 × BitVec 3 × BitVec 6 :=
  (mask.extractLsb' 16 8, mask.extractLsb' 11 5, mask.extractLsb' 8 3, mask.extractLsb' 2 6)

/-- The dwords that an access reaches. -/
def Access.dwords (dev : PciDevice) (access : Access) :
    Set (Byte × BitVec 5 × BitVec 3 × BitVec 6) :=
  {dword | ∃ t, t ∈ access.transactions dev ∧ dwordOf t.mask = dword}

variable (calls : List (PciDevice × Access)) (dev : PciDevice) (access : Access)

/-- Accesses, and one through another device, that keep to their own spaces. -/
structure SpacesApart : Prop where
  proper : ∀ dev' access', (dev', access') ∈ calls → ∀ t, t ∈ access'.transactions dev' →
    Proper dev' t.mask
  own : ∀ t, t ∈ access.transactions dev → Proper dev t.mask
  disjoint : ∀ dev' access', (dev', access') ∈ calls → ¬ SameFunction dev' dev →
    Disjoint (access'.dwords dev') (access.dwords dev)
  unchanged : (∀ dev' access', (dev', access') ∈ calls → ¬ SameFunction dev' dev) →
    ∀ cfg, (transact (accessAll cfg calls) (access.transactions dev)).1 =
      (transact cfg (access.transactions dev)).1

/-- A register number that is aligned and brings no bit into the fields. -/
def AddsNothing (reg : Half) : Prop :=
  4 ∣ reg.toNat ∧ (protoMask dev >>> 8) ||| (reg >>> 8) = protoMask dev >>> 8

/-- The condition on an access. -/
def AccessSafe : Access → Prop
  | .write transfers => ∀ transfer, transfer ∈ transfers.take (2 ^ 32) →
      AddsNothing dev ((transfer.1 >>> 2 <<< 2).setWidth 32)
  | .read offsets => ∀ offset, offset ∈ offsets.take (2 ^ 32) →
      AddsNothing dev ((offset >>> 2 <<< 2).setWidth 32)
  | .bootWrite reg _ => AddsNothing dev reg
  | .bootRead reg => AddsNothing dev reg
  | .devselTiming => dev.function = 0

/-- And on all of them. -/
def SpacesSafe : Prop :=
  (∀ dev' access', (dev', access') ∈ calls → AccessSafe dev' access') ∧ AccessSafe dev access

end Specification

section Addresses

variable {dev dev' : PciDevice}

/-- A number below all bits of another. -/
theorem or_eq_add
    {a b : Nat} (n : Nat)
    (hb : b < 2 ^ n)
    (ha : 2 ^ n ∣ a) :
    a ||| b = a + b := by
  obtain ⟨c, rfl⟩ := ha
  exact (Nat.two_pow_add_eq_or_of_lt hb c).symm

/-- The fields lie beside each other. -/
theorem configAddress_toNat
    {bus device function : Byte}
    (hdevice : device.toNat < 32)
    (hfunction : function.toNat < 8) :
    (configAddress bus device function 0).toNat =
      2 ^ 31 + bus.toNat * 2 ^ 16 + device.toNat * 2 ^ 11 + function.toNat * 2 ^ 8 := by
  have hbus := bus.isLt
  have hfield : ∀ (x : Byte) n, x.toNat * 2 ^ n < 2 ^ 32 →
      (x.setWidth 32 <<< n : Half).toNat = x.toNat * 2 ^ n := by
    intro x n hx
    rw [BitVec.toNat_shiftLeft, BitVec.toNat_setWidth, Nat.shiftLeft_eq,
      Nat.mod_eq_of_lt (Nat.lt_trans x.isLt (by decide)), Nat.mod_eq_of_lt hx]
  have hfirst : 2 ^ 31 ||| bus.toNat * 2 ^ 16 = 2 ^ 31 + bus.toNat * 2 ^ 16 :=
    or_eq_add 24 (by omega) (by omega)
  have hsecond : (2 ^ 31 + bus.toNat * 2 ^ 16) ||| device.toNat * 2 ^ 11 =
      2 ^ 31 + bus.toNat * 2 ^ 16 + device.toNat * 2 ^ 11 :=
    or_eq_add 16 (by omega) (by omega)
  have hthird : (2 ^ 31 + bus.toNat * 2 ^ 16 + device.toNat * 2 ^ 11) ||| function.toNat * 2 ^ 8 =
      2 ^ 31 + bus.toNat * 2 ^ 16 + device.toNat * 2 ^ 11 + function.toNat * 2 ^ 8 :=
    or_eq_add 11 (by omega) (by omega)
  have henable : (1 <<< 31 : Half).toNat = 2 ^ 31 := rfl
  have hzero : (0 : Half).toNat = 0 := rfl
  rw [configAddress, BitVec.toNat_or, BitVec.toNat_or, BitVec.toNat_or, BitVec.toNat_or, henable,
    hzero, hfield bus 16 (by omega), hfield device 11 (by omega), hfield function 8 (by omega),
    Nat.or_zero, hfirst, hsecond, hthird]

theorem protoMask_toNat
    (h : dev.InRange) :
    (protoMask dev).toNat = 2 ^ 31 + dev.bus.toNat * 2 ^ 16 + dev.device.toNat * 2 ^ 11 +
      dev.function.toNat * 2 ^ 8 :=
  configAddress_toNat h.device h.function

/-- **An address with a register on top.** -/
theorem proper_or_iff
    (h : dev.InRange)
    (reg : Half) :
    Proper dev (protoMask dev ||| reg) ↔ AddsNothing dev reg := by
  have hproto := protoMask_toNat h
  have hhigh : ((protoMask dev ||| reg) >>> 8 : Half) = (protoMask dev >>> 8) ||| (reg >>> 8) :=
    BitVec.ushiftRight_or_distrib _ _ _
  have hlow : (protoMask dev ||| reg).toNat % 4 = reg.toNat % 4 := by
    rw [BitVec.toNat_or, show 4 = 2 ^ 2 by rfl, Nat.or_mod_two_pow, hproto,
      show (2 ^ 31 + dev.bus.toNat * 2 ^ 16 + dev.device.toNat * 2 ^ 11 +
        dev.function.toNat * 2 ^ 8) % 2 ^ 2 = 0 by omega, Nat.zero_or]
  rw [AddsNothing, ← hhigh, ← BitVec.toNat_inj, BitVec.toNat_ushiftRight, BitVec.toNat_ushiftRight,
    Nat.shiftRight_eq_div_pow, Nat.shiftRight_eq_div_pow]
  constructor
  · rintro ⟨register, hlt, haligned, hmask⟩
    omega
  · rintro ⟨haligned, hfields⟩
    refine ⟨(protoMask dev ||| reg).toNat % 256, Nat.mod_lt _ (by decide), by omega, by omega⟩

theorem configAddress_or (bus device function : Byte) (reg : Half) :
    configAddress bus device function reg = configAddress bus device function 0 ||| reg := by
  unfold configAddress
  rw [BitVec.or_assoc (_ ||| _) 0 reg]
  congr 1
  exact (BitVec.zero_or).symm

theorem transferAddress_or (dev : PciDevice) (offset : Word) :
    transferAddress dev offset = protoMask dev ||| (offset >>> 2 <<< 2).setWidth 32 := by
  rw [transferAddress, BitVec.setWidth_or, BitVec.setWidth_setWidth_of_le _ (by decide),
    BitVec.setWidth_eq]

/-- `get_devsel_timing` goes to function 0. -/
theorem proper_devselTiming_iff
    (h : dev.InRange) :
    Proper dev (configAddress dev.bus dev.device 0 4) ↔ dev.function = 0 := by
  have hmask : (configAddress dev.bus dev.device 0 4).toNat =
      2 ^ 31 + dev.bus.toNat * 2 ^ 16 + dev.device.toNat * 2 ^ 11 + 4 := by
    have hzero : (0 : Byte).toNat = 0 := rfl
    have hfour : (4 : Half).toNat = 4 := rfl
    rw [configAddress_or, BitVec.toNat_or, configAddress_toNat h.device (by decide), hzero, hfour,
      or_eq_add 8 (by decide) (by omega)]
    omega
  have hfunction : dev.function = 0 ↔ dev.function.toNat = 0 := by
    rw [← BitVec.toNat_inj]
    rfl
  rw [Proper, hmask, hfunction]
  constructor
  · rintro ⟨register, hlt, -, hsum⟩
    omega
  · intro hzero
    exact ⟨4, by decide, by decide, by omega⟩

/-- **An access keeps to the space of its device exactly under the condition.** -/
theorem access_proper_iff
    (h : dev.InRange)
    (access : Access) :
    (∀ t, t ∈ access.transactions dev → Proper dev t.mask) ↔ AccessSafe dev access := by
  have hreg : ∀ reg, Proper dev (configAddress dev.bus dev.device dev.function reg) ↔
      AddsNothing dev reg := by
    intro reg
    rw [configAddress_or]
    exact proper_or_iff h reg
  have htransfer : ∀ offset, Proper dev (transferAddress dev offset) ↔
      AddsNothing dev ((offset >>> 2 <<< 2).setWidth 32) := by
    intro offset
    rw [transferAddress_or]
    exact proper_or_iff h _
  cases access with
  | write transfers =>
      rw [Access.transactions, List.forall_mem_map]
      exact forall_congr' fun transfer => imp_congr_right fun _ => htransfer transfer.1
  | read offsets =>
      rw [Access.transactions, List.forall_mem_map]
      exact forall_congr' fun offset => imp_congr_right fun _ => htransfer offset
  | bootWrite reg contents =>
      rw [Access.transactions, List.forall_mem_singleton]
      exact hreg reg
  | bootRead reg =>
      rw [Access.transactions, List.forall_mem_singleton]
      exact hreg reg
  | devselTiming =>
      rw [Access.transactions, List.forall_mem_singleton]
      exact proper_devselTiming_iff h

/-- An aligned register below 256 is all right, whatever the device. -/
theorem addsNothing_of_lt
    {reg : Half}
    (hlt : reg.toNat < 256)
    (haligned : 4 ∣ reg.toNat) :
    AddsNothing dev reg := by
  have hzero : reg >>> 8 = 0#32 := by
    apply BitVec.eq_of_toNat_eq
    rw [BitVec.toNat_ushiftRight, Nat.shiftRight_eq_div_pow, Nat.div_eq_of_lt hlt]
    rfl
  exact ⟨haligned, by rw [hzero, BitVec.or_zero]⟩

/-- The fields of an address. -/
theorem Proper.fields
    {mask : Half}
    (h : dev.InRange)
    (hmask : Proper dev mask) :
    mask.extractLsb' 16 8 = dev.bus ∧ mask.extractLsb' 11 5 = dev.device.setWidth 5 ∧
      mask.extractLsb' 8 3 = dev.function.setWidth 3 := by
  obtain ⟨register, hlt, -, hsum⟩ := hmask
  have hbus := dev.bus.isLt
  have hdevice := h.device
  have hfunction := h.function
  refine ⟨?_, ?_, ?_⟩
  all_goals
    apply BitVec.eq_of_toNat_eq
    simp only [BitVec.extractLsb'_toNat, BitVec.toNat_setWidth, Nat.shiftRight_eq_div_pow]
    omega

end Addresses

section Isolation

variable {dev dev' : PciDevice}

theorem sameFunction_iff
    (h : dev.InRange)
    (h' : dev'.InRange) :
    SameFunction dev dev' ↔
      dev.bus = dev'.bus ∧ dev.device.setWidth 5 = dev'.device.setWidth 5 ∧
        dev.function.setWidth 3 = dev'.function.setWidth 3 := by
  have hdevice := h.device
  have hdevice' := h'.device
  have hfunction := h.function
  have hfunction' := h'.function
  rw [SameFunction, ← BitVec.toNat_inj (y := dev'.device), ← BitVec.toNat_inj (y := dev'.function),
    ← BitVec.toNat_inj (y := dev'.device.setWidth 5),
    ← BitVec.toNat_inj (y := dev'.function.setWidth 3), BitVec.toNat_setWidth,
    BitVec.toNat_setWidth, BitVec.toNat_setWidth, BitVec.toNat_setWidth,
    Nat.mod_eq_of_lt hdevice, Nat.mod_eq_of_lt hdevice', Nat.mod_eq_of_lt hfunction,
    Nat.mod_eq_of_lt hfunction']

/-- The registers of a function are the same. -/
def AgreeOn (dev : PciDevice) (cfg cfg' : ConfigSpace) : Prop :=
  ∀ reg, cfg dev.bus (dev.device.setWidth 5) (dev.function.setWidth 3) reg =
    cfg' dev.bus (dev.device.setWidth 5) (dev.function.setWidth 3) reg

theorem AgreeOn.refl (dev : PciDevice) (cfg : ConfigSpace) : AgreeOn dev cfg cfg := fun _ => rfl

theorem AgreeOn.trans
    {cfg cfg' cfg'' : ConfigSpace}
    (h : AgreeOn dev cfg cfg')
    (h' : AgreeOn dev cfg' cfg'') :
    AgreeOn dev cfg cfg'' :=
  fun reg => (h reg).trans (h' reg)

/-- A read through a function sees its registers only. -/
theorem AgreeOn.configData_eq
    {cfg cfg' : ConfigSpace} {mask : Half}
    (h : AgreeOn dev cfg cfg')
    (hin : dev.InRange)
    (hmask : Proper dev mask) :
    configData cfg mask = configData cfg' mask := by
  obtain ⟨hbus, hdevice, hfunction⟩ := hmask.fields hin
  rw [configData, configData, hbus, hdevice, hfunction]
  exact h _

/-- A write changes a register by its address alone. -/
theorem AgreeOn.configStore
    {cfg cfg' : ConfigSpace}
    (h : AgreeOn dev cfg cfg')
    (mask contents : Half) :
    AgreeOn dev (configStore cfg mask contents) (configStore cfg' mask contents) := by
  intro reg
  unfold Devices.configStore
  rw [h reg]

/-- A write through another function is not seen. -/
theorem agreeOn_configStore
    {mask : Half}
    (hin : dev.InRange)
    (hin' : dev'.InRange)
    (hother : ¬ SameFunction dev' dev)
    (hmask : Proper dev' mask)
    (cfg : ConfigSpace) (contents : Half) :
    AgreeOn dev (configStore cfg mask contents) cfg := by
  intro reg
  obtain ⟨hbus, hdevice, hfunction⟩ := hmask.fields hin'
  unfold configStore
  rw [hbus, hdevice, hfunction]
  refine if_neg ?_
  rintro ⟨hbus', hdevice', hfunction', -⟩
  exact hother ((sameFunction_iff hin' hin).mpr ⟨hbus'.symm, hdevice'.symm, hfunction'.symm⟩)

/-- What is read through a function is settled by its registers. -/
theorem transact_values
    {cfg cfg' : ConfigSpace} {transactions : List Transaction}
    (hin : dev.InRange)
    (hproper : ∀ t, t ∈ transactions → Proper dev t.mask)
    (h : AgreeOn dev cfg cfg') :
    (transact cfg transactions).1 = (transact cfg' transactions).1 := by
  induction transactions generalizing cfg cfg' with
  | nil => rfl
  | cons t rest ih =>
      obtain ⟨hfirst, hrest⟩ := List.forall_mem_cons.mp hproper
      cases t with
      | write mask contents => exact ih hrest (h.configStore mask contents)
      | read mask =>
          have hread : configData cfg mask = configData cfg' mask := h.configData_eq hin hfirst
          rw [transact, transact]
          dsimp only
          rw [hread, ih hrest h]

/-- **A run of transactions through one function leaves the others alone.** -/
theorem transact_agree
    {transactions : List Transaction}
    (hin : dev.InRange)
    (hin' : dev'.InRange)
    (hother : ¬ SameFunction dev' dev)
    (hproper : ∀ t, t ∈ transactions → Proper dev' t.mask)
    (cfg : ConfigSpace) :
    AgreeOn dev (transact cfg transactions).2 cfg := by
  induction transactions generalizing cfg with
  | nil => exact AgreeOn.refl dev cfg
  | cons t rest ih =>
      obtain ⟨hfirst, hrest⟩ := List.forall_mem_cons.mp hproper
      cases t with
      | write mask contents =>
          exact (ih hrest _).trans (agreeOn_configStore hin hin' hother hfirst cfg contents)
      | read mask => exact ih hrest cfg

/-- And so does a run of accesses through others. -/
theorem accessAll_agree
    {calls : List (PciDevice × Access)}
    (hin : dev.InRange)
    (hcalls : ∀ dev' access', (dev', access') ∈ calls → dev'.InRange ∧ ¬ SameFunction dev' dev ∧
      ∀ t, t ∈ access'.transactions dev' → Proper dev' t.mask)
    (cfg : ConfigSpace) :
    AgreeOn dev (accessAll cfg calls) cfg := by
  induction calls generalizing cfg with
  | nil => exact AgreeOn.refl dev cfg
  | cons call rest ih =>
      obtain ⟨dev', access'⟩ := call
      obtain ⟨hin', hother, hproper⟩ := hcalls dev' access' (List.mem_cons_self ..)
      have hrest := ih (fun dev'' access'' hmem => hcalls dev'' access''
        (List.mem_cons_of_mem _ hmem)) (transact cfg (access'.transactions dev')).2
      exact hrest.trans (transact_agree hin hin' hother hproper cfg)

/-- Addresses of two functions lead to different dwords. -/
theorem dwordOf_ne
    {mask mask' : Half}
    (hin : dev.InRange)
    (hin' : dev'.InRange)
    (hother : ¬ SameFunction dev dev')
    (hmask : Proper dev mask)
    (hmask' : Proper dev' mask') :
    dwordOf mask ≠ dwordOf mask' := by
  intro h
  obtain ⟨hbus, hdevice, hfunction⟩ := hmask.fields hin
  obtain ⟨hbus', hdevice', hfunction'⟩ := hmask'.fields hin'
  rw [dwordOf, dwordOf, hbus, hdevice, hfunction, hbus', hdevice', hfunction'] at h
  obtain ⟨hb, h⟩ := Prod.mk.inj h
  obtain ⟨hd, h⟩ := Prod.mk.inj h
  exact hother ((sameFunction_iff hin hin').mpr ⟨hb, hd, (Prod.mk.inj h).1⟩)

/-- **When configuration accesses stay in the spaces of their devices.** -/
theorem spaces_apart_iff
    {calls : List (PciDevice × Access)} {access : Access}
    (hcalls : ∀ dev' access', (dev', access') ∈ calls → dev'.InRange)
    (hdev : dev.InRange) :
    SpacesApart calls dev access ↔ SpacesSafe calls dev access := by
  constructor
  · intro h
    refine ⟨fun dev' access' hmem => ?_, (access_proper_iff hdev access).mp h.own⟩
    exact (access_proper_iff (hcalls dev' access' hmem) access').mp (h.proper dev' access' hmem)
  · rintro ⟨hsafe, hown⟩
    have hproper : ∀ dev' access', (dev', access') ∈ calls →
        ∀ t, t ∈ access'.transactions dev' → Proper dev' t.mask :=
      fun dev' access' hmem =>
        (access_proper_iff (hcalls dev' access' hmem) access').mpr (hsafe dev' access' hmem)
    have hreader := (access_proper_iff hdev access).mpr hown
    refine ⟨hproper, hreader, ?_, ?_⟩
    · intro dev' access' hmem hother
      rw [Set.disjoint_left]
      rintro _ ⟨t, ht, rfl⟩ ⟨t', ht', hsame⟩
      exact dwordOf_ne (hcalls dev' access' hmem) hdev hother (hproper dev' access' hmem t ht)
        (hreader t' ht') hsame.symm
    · intro hothers cfg
      refine transact_values hdev hreader (accessAll_agree hdev ?_ cfg)
      exact fun dev' access' hmem =>
        ⟨hcalls dev' access' hmem, hothers dev' access' hmem, hproper dev' access' hmem⟩

/-- A function of device `device` on bus 0. -/
def onBus (device : Byte) : PciDevice := { PciDevice.zero with device := device }

theorem onBus_inRange
    {device : Byte}
    (h : device.toNat < 32) :
    (onBus device).InRange :=
  ⟨h, show (0 : Nat) < 8 by decide⟩

/-- The host bridge is written at offset 4, and device 1 identified. -/
theorem spaces_apart_iff_host :
    SpacesApart [(onBus 0, .write [(4, 7)])] (onBus 1) (.bootRead 0) := by
  refine (spaces_apart_iff (fun dev' access' hmem => ?_) (onBus_inRange (by decide))).mpr
    ⟨fun dev' access' hmem => ?_, addsNothing_of_lt (by decide) (by decide)⟩
  · obtain ⟨rfl, -⟩ := Prod.mk.inj (List.mem_singleton.mp hmem)
    exact onBus_inRange (by decide)
  · obtain ⟨rfl, rfl⟩ := Prod.mk.inj (List.mem_singleton.mp hmem)
    intro transfer htransfer
    obtain rfl : transfer = (4, 7) := List.mem_singleton.mp htransfer
    exact addsNothing_of_lt (by decide) (by decide)

/-- Offset 2048 of the host bridge is register 0 of device 1, and register 0x71, which
`pci_init` writes, is not aligned. -/
theorem host_not_apart :
    dwordOf (transferAddress (onBus 0) 2048) =
        dwordOf (configAddress 0 1 0 0) ∧
      ¬ SpacesApart [(onBus 0, .write [(2048, 7)])] (onBus 1) (.bootRead 0) ∧
      ¬ SpacesApart [(onBus 0, .bootWrite 0x71 0)] (onBus 1) (.bootRead 0) := by
  refine ⟨by decide, fun h => ?_, fun h => ?_⟩
  · obtain ⟨register, hlt, -, hmask⟩ := h.proper (onBus 0) _ (List.mem_singleton_self _)
      (.write (transferAddress (onBus 0) 2048) 7) (List.mem_singleton_self _)
    have haddress : (transferAddress (onBus 0) 2048).toNat = 2 ^ 31 + 2048 := by decide
    change (transferAddress (onBus 0) 2048).toNat = 2 ^ 31 + 0 * 2 ^ 16 + 0 * 2 ^ 11 + 0 * 2 ^ 8 +
      register at hmask
    omega
  · obtain ⟨register, hlt, haligned, hmask⟩ := h.proper (onBus 0) _ (List.mem_singleton_self _)
      (.write (configAddress 0 0 0 0x71) 0) (List.mem_singleton_self _)
    have haddress : (configAddress 0 0 0 0x71).toNat = 2 ^ 31 + 0x71 := by decide
    change (configAddress 0 0 0 0x71).toNat = 2 ^ 31 + 0 * 2 ^ 16 + 0 * 2 ^ 11 + 0 * 2 ^ 8 +
      register at hmask
    omega

end Isolation

end Devices
end BestKernel
