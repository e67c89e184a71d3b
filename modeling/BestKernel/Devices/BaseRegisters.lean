import BestKernel.Library.Loops
import BestKernel.Library.Words
import Mathlib.Logic.Function.Basic
import Mathlib.Tactic.Common
import Mathlib.Tactic.SplitIfs

/-!
# Base address registers

`set_device_ranges` finds out where the ranges of a device lie and how long they are:
`get_bar_info` writes all ones to a register, reads what is left of them, and puts back what
was there.

The registers are put back (`setDeviceRanges_probed`), but the command that should stop the
device from decoding meanwhile is the one that is there already (`setCommand_getCommand`),
and `probe_right_iff` says when this does no harm.

Readings of the source.  `boot_reg` is `boot_read`, and `or` a name.  The `memset` without a
value fills with zeros.  `get_bar_info` has no `return`, so what its calls leave for the loop
of `set_device_ranges` are arguments.  The two functions reach the configuration space of the
one device that they are called for, and its register 4 has the command below the status.
-/

namespace BestKernel
namespace Devices

open Machine

section Space

/-- A base address register: it keeps the bits of its mask and always shows its flags. -/
structure Bar where
  mask : Half
  flags : Half
  stored : Half
  apart : flags &&& mask = 0
  kept : stored &&& mask = stored

/-- A register that is not implemented. -/
def Bar.unimplemented : Bar := ⟨0, 0, 0, rfl, rfl⟩

def Bar.read (bar : Bar) : Half := bar.stored ||| bar.flags

def Bar.write (bar : Bar) (contents : Half) : Bar :=
  { bar with
    stored := contents &&& bar.mask
    kept := by rw [BitVec.and_assoc, BitVec.and_self] }

/-- The configuration space of a device. -/
structure DeviceSpace where
  headtype : Half
  bars : Nat → Bar
  command : BitVec 16
  status : BitVec 16
  others : Half → Half

namespace DeviceSpace

variable (space : DeviceSpace)

/-- A type 0 header has six base address registers, any other has two. -/
def barsNumber : Nat := if space.headtype = 0 then 6 else 2

/-- The base address register of a register number. -/
def barOf (reg : Half) : Option Nat :=
  if 0x10 ≤ reg.toNat ∧ reg.toNat % 4 = 0 ∧ (reg.toNat - 0x10) / 4 < space.barsNumber then
    some ((reg.toNat - 0x10) / 4)
  else none

/-- `boot_read` -/
def read (reg : Half) : Half :=
  if reg = 4 then space.status ++ space.command
  else
    match space.barOf reg with
    | some i => (space.bars i).read
    | none => space.others reg

/-- `boot_write`: the command is kept, and a one clears its bit of the status. -/
def write (reg contents : Half) : DeviceSpace :=
  if reg = 4 then
    { space with
      command := contents.extractLsb' 0 16
      status := space.status &&& ~~~(contents.extractLsb' 16 16) }
  else
    match space.barOf reg with
    | some i => { space with bars := Function.update space.bars i ((space.bars i).write contents) }
    | none => space

/-- `get_command` -/
def getCommand : Half := shr (shl (space.read 4) 16) 16

end DeviceSpace

/-- `bases`, `lengths` and `types` of a device. -/
structure Ranges where
  bases : Nat → Word
  lengths : Nat → Word
  types : Nat → Byte

/-- A device that is probed, with the contents of its space from the first moment on. -/
structure Probe where
  space : DeviceSpace
  dev : Ranges
  moments : List DeviceSpace

/-- `boot_write` -/
def Probe.bootWrite (p : Probe) (reg contents : Half) : Probe :=
  let space := p.space.write reg contents
  { p with space := space, moments := p.moments ++ [space] }

end Space

section Code

/-- The type that `get_bar_info` gives to a base. -/
def typeOf (base : Half) : Byte :=
  if base &&& 1 = 0 then if base &&& 4 ≠ 0 then 2 else 0 else 1

/-- `(!(boot_read(processor,dev,reg)<<2>>2))+1` -/
def lengthOf (left : Half) : Half := (if shr (shl left 2) 2 = 0 then 1 else 0) + 1

/-- One round of the loop of `get_bar_info`. -/
def barRound (rangenum : Nat) (reg : Half) (or : Nat) (p : Probe) : Probe :=
  let base := p.space.read reg
  let dis := p.space.getCommand
  let probing := (p.bootWrite 4 (shr (shl dis 2) 2)).bootWrite reg (-1)
  let length := shl (lengthOf (probing.space.read reg)) or
  let dev : Ranges :=
    { bases := Function.update p.dev.bases rangenum ((shl (shl (shr base 4) 4) or).setWidth 64)
      lengths := Function.update p.dev.lengths rangenum (length.setWidth 64)
      types := Function.update p.dev.types rangenum (typeOf base) }
  ({ probing with dev := dev }.bootWrite reg base).bootWrite 4 dis

/-- `get_bar_info`: the first round may ask for a second one, which asks for no more. -/
def getBarInfo (rangenum : Nat) (reg : Half) (p : Probe) : Probe :=
  let base := p.space.read reg
  let p' := barRound rangenum reg 0 p
  if base &&& 1 = 0 ∧ base &&& 3 ≠ 0 then barRound rangenum reg 32 p' else p'

/-- The six entries are cleared. -/
def Ranges.cleared (dev : Ranges) : Ranges where
  bases i := if i < 6 then 0 else dev.bases i
  lengths i := if i < 6 then 0 else dev.lengths i
  types i := if i < 6 then 0 else dev.types i

/-- One round of the loop of `set_device_ranges`; the call of number `n` leaves
`returned n`. -/
def rangesRound (returned : Nat → Half) (s : Nat × Half × Probe) :
    (Nat × Half × Probe) ⊕ Probe :=
  let (n, i, p) := s
  if i < 6 then .inl (n + 1, i + returned n + 1, getBarInfo i.toNat 0x10 p) else .inr p

/-- The ranges of a bridge behind its base address registers. -/
def bridgeRanges (space : DeviceSpace) (dev : Ranges) : Ranges :=
  let wide (reg : Half) : Word := (space.read reg).setWidth 64
  let memory := space.read 0x20
  let base2 : Word := (shr (shl memory 16) 16).setWidth 64
  let length2 : Word := (shr memory (16 - base2).toNat).setWidth 64
  let ports := space.read 0x1c
  let helper := space.read 0x30
  let base3 : Word := (shr (shl ports 24) 24 ||| shr (shl helper 16) 16).setWidth 64
  let length3 : Word := (shr (shl ports 16) 24 ||| shr helper 16).setWidth 64 - base3
  let prefetchable := space.read 0x24
  let base4 : Word := (shr (shl prefetchable 16) 16).setWidth 64 ||| wide 0x28
  let length4 : Word := (shr prefetchable 16).setWidth 64 ||| (wide 0x2c - base4)
  { bases := Function.update (Function.update (Function.update dev.bases 2 base2) 3 base3) 4 base4
    lengths :=
      Function.update (Function.update (Function.update dev.lengths 2 length2) 3 length3) 4 length4
    types := Function.update (Function.update (Function.update dev.types 2 0) 3 1) 3 2 }

/-- `set_device_ranges` -/
def setDeviceRanges (returned : Nat → Half) (space : DeviceSpace) (dev : Ranges) (fuel : Nat) :
    Option Probe :=
  let p : Probe := ⟨space, dev.cleared, [space]⟩
  if space.headtype = 0 then Loops.run (rangesRound returned) fuel (0, 0, p)
  else
    let p := getBarInfo 0 0x14 (getBarInfo 0 0x10 p)
    some { p with dev := bridgeRanges p.space p.dev }

end Code

section Specification

/-- The index of the loop before call number `n`. -/
def rangeIndex (returned : Nat → Half) : Nat → Half
  | 0 => 0
  | n + 1 => rangeIndex returned n + returned n + 1

/-- The loop over the registers comes to its end. -/
def LoopEnds (returned : Nat → Half) : Prop := ∃ n, ¬ rangeIndex returned n < 6

variable (returned : Nat → Half) (space : DeviceSpace) (dev : Ranges)

/-- Some register that is implemented holds nothing but ones. -/
def DeviceSpace.AllOnes : Prop :=
  ∃ i, i < space.barsNumber ∧ (space.bars i).mask ≠ 0 ∧
    (space.bars i).stored = (space.bars i).mask

/-- Neither memory nor ports are decoded. -/
def DeviceSpace.Silent : Prop := space.command &&& 3 = 0

instance : Decidable space.Silent := inferInstanceAs (Decidable (_ = _))

/-- The probe leaves the device as it was, and it is silent whenever a register holds nothing
but ones. -/
def ProbeRight : Prop :=
  ∃ fuel p, setDeviceRanges returned space dev fuel = some p ∧
    (∀ i, i < space.barsNumber → p.space.bars i = space.bars i) ∧
      p.space.command = space.command ∧ p.space.status = space.status ∧
        ∀ moment, moment ∈ p.moments → moment.AllOnes → moment.Silent

/-- The registers that are probed. -/
def DeviceSpace.probed : List Nat := if space.headtype = 0 then [0] else [0, 1]

/-- The condition: the loop over the registers of a device ends, and the device is silent
already, or no register holds nothing but ones and none of those that are probed is
implemented. -/
structure ProbeSafe : Prop where
  ends : space.headtype = 0 → LoopEnds returned
  silent : space.Silent ∨
    ¬ space.AllOnes ∧ ∀ i, i ∈ space.probed → (space.bars i).mask = 0

end Specification

section Frame

variable {returned : Nat → Half} {space : DeviceSpace} {dev : Ranges}

/-- What was read restores the register that it was read from. -/
theorem Bar.write_read (bar : Bar) (contents : Half) :
    (bar.write contents).write bar.read = bar := by
  obtain ⟨mask, flags, stored, apart, kept⟩ := bar
  have hstored : (stored ||| flags) &&& mask = stored := by
    rw [BitVec.and_or_distrib_right, kept, apart]
    exact BitVec.or_zero
  simp only [Bar.write, Bar.read, hstored]

/-- The command as it is read, without the status. -/
theorem getCommand_eq : space.getCommand = space.command.setWidth 32 := by
  have hread : space.read 4 = space.status ++ space.command := rfl
  unfold DeviceSpace.getCommand
  rw [hread]
  refine BitVec.eq_of_getLsbD_eq fun i hi => ?_
  simp [shr, shl]
  grind

/-- Writing the command that is there changes neither the command nor the status. -/
theorem restoreCommand : space.write 4 space.getCommand = space := by
  have hcommand : (space.command.setWidth 32).extractLsb' 0 16 = space.command := by
    refine BitVec.eq_of_getLsbD_eq fun i hi => ?_
    simp
    grind
  have hstatus : space.status &&& ~~~((space.command.setWidth 32).extractLsb' 16 16)
      = space.status := by
    refine BitVec.eq_of_getLsbD_eq fun i hi => ?_
    simp
    grind
  rw [getCommand_eq]
  simp only [DeviceSpace.write, if_pos, hcommand, hstatus]

/-- **The command that should stop the decoding is the one that is there.** -/
theorem setCommand_getCommand :
    space.write 4 (shr (shl space.getCommand 2) 2) = space := by
  have hsame : shr (shl space.getCommand 2) 2 = space.getCommand := by
    rw [getCommand_eq]
    refine BitVec.eq_of_getLsbD_eq fun i hi => ?_
    simp [shr, shl]
    grind
  rw [hsame]
  exact restoreCommand

/-- The device while all ones stand in a register. -/
def DeviceSpace.probing (space : DeviceSpace) (i : Nat) : DeviceSpace :=
  { space with bars := Function.update space.bars i ((space.bars i).write (-1)) }

/-- A probe that has come back to `space`, with the registers of `regs` behind it. -/
structure Probed (space : DeviceSpace) (regs : List Nat) (p : Probe) : Prop where
  space_eq : p.space = space
  moments_iff : ∀ moment, moment ∈ p.moments ↔
    moment = space ∨ ∃ i, i ∈ regs ∧ moment = space.probing i

theorem barOf_ne_four
    {reg : Half} {i : Nat}
    (hreg : space.barOf reg = some i) :
    reg ≠ 4 := by
  rintro rfl
  simp [DeviceSpace.barOf] at hreg

/-- **One round: all ones stand in the register for a moment, and the device comes back.** -/
theorem Probed.barRound
    {regs : List Nat} {p : Probe} {reg : Half} {i : Nat}
    (hp : Probed space regs p)
    (hreg : space.barOf reg = some i)
    (rangenum or : Nat) :
    Probed space (i :: regs) (Devices.barRound rangenum reg or p) := by
  obtain ⟨hspace, hmoments⟩ := hp
  have hne := barOf_ne_four hreg
  have hones : space.write reg (-1) = space.probing i := by
    simp only [DeviceSpace.write, if_neg hne, hreg]
    rfl
  have hback : (space.probing i).write reg (space.read reg) = space := by
    have hreg' : (space.probing i).barOf reg = some i := hreg
    simp only [DeviceSpace.write, DeviceSpace.read, if_neg hne, hreg, hreg']
    simp only [DeviceSpace.probing, Function.update_self, Function.update_idem,
      Bar.write_read, Function.update_eq_self]
  have hround : (Devices.barRound rangenum reg or p).space = space ∧
      (Devices.barRound rangenum reg or p).moments
        = p.moments ++ [space] ++ [space.probing i] ++ [space] ++ [space] := by
    simp only [Devices.barRound, Probe.bootWrite, hspace, setCommand_getCommand, hones, hback,
      restoreCommand, and_self]
  refine ⟨hround.1, fun moment => ?_⟩
  rw [hround.2]
  simp only [List.mem_append, hmoments, List.mem_cons]
  grind

/-- A register that is probed twice is one register. -/
theorem Probed.again
    {regs : List Nat} {p : Probe} {i : Nat}
    (hp : Probed space (i :: i :: regs) p) :
    Probed space (i :: regs) p := by
  obtain ⟨hspace, hmoments⟩ := hp
  refine ⟨hspace, fun moment => ?_⟩
  rw [hmoments]
  simp only [List.mem_cons, exists_eq_or_imp, or_self_left]

theorem Probed.getBarInfo
    {regs : List Nat} {p : Probe} {reg : Half} {i : Nat}
    (hp : Probed space regs p)
    (hreg : space.barOf reg = some i)
    (rangenum : Nat) :
    Probed space (i :: regs) (Devices.getBarInfo rangenum reg p) := by
  have hone := hp.barRound hreg rangenum 0
  simp only [Devices.getBarInfo]
  split
  · exact (hone.barRound hreg rangenum 32).again
  · exact hone

end Frame

section Rounds

variable {returned : Nat → Half}

theorem rangesRound_of_lt
    {n : Nat} {i : Half} {p : Probe}
    (hlt : i < 6) :
    rangesRound returned (n, i, p)
      = .inl (n + 1, i + returned n + 1, getBarInfo i.toNat 0x10 p) :=
  if_pos hlt

theorem rangesRound_of_not_lt
    {n : Nat} {i : Half} {p : Probe}
    (hge : ¬ i < 6) :
    rangesRound returned (n, i, p) = .inr p :=
  if_neg hge

/-- What every call of `get_bar_info` for one of the six entries preserves and the first one
brings about holds behind the loop, and a loop that leaves is one that ends. -/
theorem run_ranges
    {I : Probe → Prop}
    (hcall : ∀ i p, i < 6 → I p → I (getBarInfo i 0x10 p))
    {fuel : Nat} {p r : Probe}
    (hfirst : I (getBarInfo 0 0x10 p))
    (hrun : Loops.run (rangesRound returned) fuel (0, 0, p) = some r) :
    LoopEnds returned ∧ I r := by
  have hnext : ∀ s s' : Nat × Half × Probe, s.2.1 = rangeIndex returned s.1 ∧ I s.2.2 →
      rangesRound returned s = .inl s' → s'.2.1 = rangeIndex returned s'.1 ∧ I s'.2.2 := by
    rintro ⟨n, i, p⟩ s' ⟨hi, hp⟩ hround
    change i = rangeIndex returned n at hi
    subst hi
    by_cases hlt : rangeIndex returned n < 6
    · rw [rangesRound_of_lt hlt] at hround
      cases hround
      exact ⟨rfl, hcall _ p hlt hp⟩
    · rw [rangesRound_of_not_lt hlt] at hround
      cases hround
  have hexit : ∀ s r, s.2.1 = rangeIndex returned s.1 ∧ I s.2.2 →
      rangesRound returned s = .inr r → LoopEnds returned ∧ I r := by
    rintro ⟨n, i, p⟩ r ⟨hi, hp⟩ hround
    change i = rangeIndex returned n at hi
    subst hi
    by_cases hlt : rangeIndex returned n < 6
    · rw [rangesRound_of_lt hlt] at hround
      cases hround
    · rw [rangesRound_of_not_lt hlt] at hround
      cases hround
      exact ⟨⟨n, hlt⟩, hp⟩
  cases fuel with
  | zero => cases hrun
  | succ fuel =>
      rw [Loops.run_next (rangesRound_of_lt (by decide))] at hrun
      exact Loops.run_invariant hnext hexit ⟨rfl, hfirst⟩ hrun

/-- The loop needs no more rounds than the index needs to get past the entries. -/
theorem LoopEnds.run
    (hends : LoopEnds returned)
    (p : Probe) :
    ∃ fuel r, Loops.run (rangesRound returned) fuel (0, 0, p) = some r := by
  obtain ⟨last, hlast⟩ := hends
  refine Loops.ends_of_measure (f := fun t : Nat × Probe => (t.1, rangeIndex returned t.1, t.2))
    (I := fun t => t.1 ≤ last) (fun t => last - t.1) ?_ (t := (0, p)) (Nat.zero_le last)
  rintro ⟨n, p⟩ hn
  by_cases hlt : rangeIndex returned n < 6
  · have hbelow : n < last := Nat.lt_of_le_of_ne hn fun heq => hlast (heq ▸ hlt)
    exact .inr ⟨(n + 1, _), rangesRound_of_lt hlt, hbelow, Nat.sub_lt_sub_left hbelow (by simp)⟩
  · exact .inl ⟨p, rangesRound_of_not_lt hlt⟩

end Rounds

section Probing

variable {returned : Nat → Half} {space : DeviceSpace} {dev : Ranges}

theorem setDeviceRanges_ends
    (dev : Ranges)
    (hends : space.headtype = 0 → LoopEnds returned) :
    ∃ fuel p, setDeviceRanges returned space dev fuel = some p := by
  by_cases htype : space.headtype = 0
  · simp only [setDeviceRanges, if_pos htype]
    exact (hends htype).run _
  · exact ⟨0, _, if_neg htype⟩

/-- The whole probe comes back to the device, and all ones have stood in `probed` only. -/
theorem setDeviceRanges_probed
    {fuel : Nat} {p : Probe}
    (hrun : setDeviceRanges returned space dev fuel = some p) :
    (space.headtype = 0 → LoopEnds returned) ∧ Probed space space.probed p := by
  have hstart : Probed space [] ⟨space, dev.cleared, [space]⟩ := ⟨rfl, by simp⟩
  have hfirst : space.barOf 0x10 = some 0 := by
    simp [DeviceSpace.barOf, DeviceSpace.barsNumber]
    split <;> decide
  by_cases htype : space.headtype = 0
  · have hprobed : space.probed = [0] := if_pos htype
    rw [hprobed]
    simp only [setDeviceRanges, if_pos htype] at hrun
    have hcall : ∀ i p, i < 6 → Probed space [0] p → Probed space [0] (getBarInfo i 0x10 p) :=
      fun i p _ hp => (hp.getBarInfo hfirst i).again
    obtain ⟨hends, hback⟩ := run_ranges hcall (hstart.getBarInfo hfirst 0) hrun
    exact ⟨fun _ => hends, hback⟩
  · have hsecond : space.barOf 0x14 = some 1 := by
      simp [DeviceSpace.barOf, DeviceSpace.barsNumber]
      split <;> decide
    have hprobed : space.probed = [0, 1] := if_neg htype
    simp only [setDeviceRanges, if_neg htype] at hrun
    cases hrun
    obtain ⟨hspace, hmoments⟩ := (hstart.getBarInfo hfirst 0).getBarInfo hsecond 0
    refine ⟨fun h => absurd h htype, hspace, fun moment => ?_⟩
    rw [hprobed, hmoments]
    simp only [List.mem_cons, List.not_mem_nil, or_false, exists_eq_or_imp, exists_eq_left]
    exact or_congr_right or_comm

/-- All ones in a register that is not implemented change nothing. -/
theorem probing_of_unimplemented
    {i : Nat}
    (hmask : (space.bars i).mask = 0) :
    space.probing i = space := by
  have hstored : (space.bars i).stored = 0 := by
    rw [← (space.bars i).kept, hmask]
    exact BitVec.and_zero
  have hempty : (-1 : Half) &&& (space.bars i).mask = (space.bars i).stored := by
    rw [hstored, hmask]
    rfl
  have hbar : (space.bars i).write (-1) = space.bars i := by
    simp only [Bar.write, hempty]
  rw [DeviceSpace.probing, hbar, Function.update_eq_self]

/-- In a register that is implemented they stand. -/
theorem probing_allOnes
    {i : Nat}
    (hi : i < space.barsNumber)
    (hmask : (space.bars i).mask ≠ 0) :
    (space.probing i).AllOnes := by
  refine ⟨i, hi, ?_, ?_⟩
  · simp only [DeviceSpace.probing, Function.update_self]
    exact hmask
  · simp only [DeviceSpace.probing, Function.update_self, Bar.write]
    exact BitVec.allOnes_and

theorem probed_lt
    {i : Nat}
    (hi : i ∈ space.probed) :
    i < space.barsNumber := by
  unfold DeviceSpace.probed at hi
  unfold DeviceSpace.barsNumber
  split at hi
  · simp_all
  · simp_all
    omega

/-- **Probing leaves the device as it was, but it decodes while all ones stand in a register,
when it has decoded before.** -/
theorem probe_right_iff
    (returned : Nat → Half)
    (space : DeviceSpace)
    (dev : Ranges) :
    ProbeRight returned space dev ↔ ProbeSafe returned space := by
  constructor
  · rintro ⟨fuel, p, hrun, -, -, -, hmoments⟩
    obtain ⟨hends, hback⟩ := setDeviceRanges_probed hrun
    refine ⟨hends, ?_⟩
    by_cases hsilent : space.Silent
    · exact .inl hsilent
    · refine .inr ⟨fun hones => hsilent ?_, fun i hi => ?_⟩
      · exact hmoments space ((hback.moments_iff space).2 (.inl rfl)) hones
      · by_contra hmask
        have hprobing := (hback.moments_iff _).2 (.inr ⟨i, hi, rfl⟩)
        exact hsilent (hmoments (space.probing i) hprobing (probing_allOnes (probed_lt hi) hmask))
  · rintro ⟨hends, hsafe⟩
    obtain ⟨fuel, p, hrun⟩ := setDeviceRanges_ends dev hends
    obtain ⟨-, hback⟩ := setDeviceRanges_probed hrun
    refine ⟨fuel, p, hrun, ?_⟩
    rw [hback.space_eq]
    refine ⟨fun i _ => rfl, rfl, rfl, fun moment hmoment hones => ?_⟩
    rcases hsafe with hsilent | ⟨hnone, hunimplemented⟩
    · rcases (hback.moments_iff moment).1 hmoment with rfl | ⟨i, -, rfl⟩
      · exact hsilent
      · exact hsilent
    · rcases (hback.moments_iff moment).1 hmoment with rfl | ⟨i, hi, rfl⟩
      · exact absurd hones hnone
      · rw [probing_of_unimplemented (hunimplemented i hi)] at hones
        exact absurd hones hnone

/-- A device that decodes memory and ports and has one register for memory of 4 KiB. -/
def decodingDevice : DeviceSpace where
  headtype := 0
  bars i := if i = 0 then ⟨0xfffff000, 0, 0xe0000000, rfl, rfl⟩ else .unimplemented
  command := 3
  status := 0
  others _ := 0

/-- It decodes them while it is asked for the length. -/
theorem decoding_while_probed :
    ¬ ProbeRight (fun _ => 0) decodingDevice ⟨fun _ => 0, fun _ => 0, fun _ => 0⟩ := by
  rintro ⟨fuel, p, hrun, -, -, -, hmoments⟩
  obtain ⟨-, hback⟩ := setDeviceRanges_probed hrun
  have hprobing : decodingDevice.probing 0 ∈ p.moments :=
    (hback.moments_iff _).2 (.inr ⟨0, by decide, rfl⟩)
  have hones : (decodingDevice.probing 0).AllOnes := probing_allOnes (by decide) (by decide)
  have hsilent := hmoments (decodingDevice.probing 0) hprobing hones
  exact absurd hsilent (by decide)

end Probing

end Devices
end BestKernel
