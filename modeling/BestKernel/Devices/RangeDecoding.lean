import BestKernel.Devices.BaseRegisters

/-!
# Decoding base address registers

The registers of a type 0 header belong to ranges of ports, of memory, and of memory that
takes two registers, in any order.  `get_bar_info` makes the length of a range with a logical
negation, so that it is 1 or 2 (`setDeviceRanges_lengths`), and no range is as short as that.
`decoding_right_iff` says that the entries of a device are right when it has no ranges.
-/

namespace BestKernel
namespace Devices

open Machine

section Layouts

/-- What the flags of a register tell apart. -/
inductive RangeKind
  | ports
  | memory (prefetchable : Bool)
  | wideMemory (prefetchable : Bool)

namespace RangeKind

/-- The number of bits of a base. -/
def width : RangeKind → Nat
  | ports => 32
  | memory _ => 32
  | wideMemory _ => 64

/-- The logarithm of the shortest length, whose bits are left to the flags. -/
def least : RangeKind → Nat
  | ports => 2
  | memory _ => 4
  | wideMemory _ => 4

def flags : RangeKind → Half
  | ports => 1
  | memory prefetchable => if prefetchable then 8 else 0
  | wideMemory prefetchable => if prefetchable then 12 else 4

/-- The types of `Device`: uncacheable memory, ports, and prefetchable memory. -/
def type : RangeKind → Byte
  | ports => 1
  | memory prefetchable => if prefetchable then 2 else 0
  | wideMemory prefetchable => if prefetchable then 2 else 0

/-- The size mask of a length. -/
def mask (kind : RangeKind) (log : Nat) : Word :=
  (BitVec.allOnes 64 <<< log) &&& (BitVec.allOnes 64 >>> (64 - kind.width))

end RangeKind

/-- A range of a device, of a length that is a power of two, at a base that it divides. -/
structure Range where
  kind : RangeKind
  base : Word
  log : Nat
  least_le : kind.least ≤ log
  lt_width : log < kind.width
  aligned : base &&& kind.mask log = base

theorem flags_lt (kind : RangeKind) : kind.flags.toNat < 2 ^ kind.least := by
  rcases kind with _ | prefetchable | prefetchable
  · decide
  · cases prefetchable <;> decide
  · cases prefetchable <;> decide

/-- The flags lie below the mask. -/
theorem flags_and_mask
    (kind : RangeKind)
    {log : Nat}
    (hleast : kind.least ≤ log) :
    kind.flags &&& (kind.mask log).extractLsb' 0 32 = 0 := by
  refine BitVec.eq_of_getLsbD_eq fun i hi => ?_
  by_cases hlog : i < log
  · simp [RangeKind.mask, hlog]
  · have hle : 2 ^ kind.least ≤ 2 ^ i := Nat.pow_le_pow_right (by decide) (by omega)
    have hflag : kind.flags.getLsbD i = false :=
      Nat.testBit_lt_two_pow (Nat.lt_of_lt_of_le (flags_lt kind) hle)
    simp [hflag]

/-- The registers of a range. -/
def Range.registers (range : Range) : List Bar :=
  let low : Bar :=
    { mask := (range.kind.mask range.log).extractLsb' 0 32
      flags := range.kind.flags
      stored := range.base.extractLsb' 0 32
      apart := flags_and_mask range.kind range.least_le
      kept := by rw [← BitVec.extractLsb'_and, range.aligned] }
  let high : Bar :=
    { mask := (range.kind.mask range.log).extractLsb' 32 32
      flags := 0
      stored := range.base.extractLsb' 32 32
      apart := BitVec.zero_and
      kept := by rw [← BitVec.extractLsb'_and, range.aligned] }
  if range.kind.width = 64 then [low, high] else [low]

/-- A register that no range takes is not implemented. -/
def registersOf : Option Range → List Bar
  | none => [.unimplemented]
  | some range => range.registers

/-- A type 0 header with its six registers. -/
structure TypeZeroHeader where
  slots : List (Option Range)
  six : (slots.flatMap registersOf).length = 6
  command : BitVec 16
  status : BitVec 16
  others : Half → Half

def TypeZeroHeader.space (header : TypeZeroHeader) : DeviceSpace where
  headtype := 0
  bars i := (header.slots.flatMap registersOf).getD i .unimplemented
  command := header.command
  status := header.status
  others := header.others

/-- The ranges of the slots with the numbers of their first registers, from number `i` on. -/
def placesFrom : Nat → List (Option Range) → List (Nat × Range)
  | _, [] => []
  | i, none :: slots => placesFrom (i + 1) slots
  | i, some range :: slots => (i, range) :: placesFrom (i + range.registers.length) slots

def TypeZeroHeader.places (header : TypeZeroHeader) : List (Nat × Range) :=
  placesFrom 0 header.slots

end Layouts

section Specification

variable (returned : Nat → Half) (header : TypeZeroHeader) (dev : Ranges)

/-- The entries of a range are right: its base, its length and its type, and the entry of
its second register is left clear. -/
structure EntryRight (ranges : Ranges) (i : Nat) (range : Range) : Prop where
  base : ranges.bases i = range.base
  length : (ranges.lengths i).toNat = 2 ^ range.log
  type : ranges.types i = range.kind.type
  skipped : range.kind.width = 64 →
    ranges.bases (i + 1) = 0 ∧ ranges.lengths (i + 1) = 0 ∧ ranges.types (i + 1) = 0

/-- Nothing behind the six entries is written. -/
def WithinSix (ranges : Ranges) : Prop :=
  ∀ i, 6 ≤ i → ranges.bases i = dev.bases i ∧ ranges.lengths i = dev.lengths i ∧
    ranges.types i = dev.types i

/-- `set_device_ranges` finds every range of the device. -/
def DecodingRight : Prop :=
  ∃ fuel p, setDeviceRanges returned header.space dev fuel = some p ∧
    (∀ i range, (i, range) ∈ header.places → EntryRight p.dev i range) ∧ WithinSix dev p.dev

end Specification

section Entries

variable {returned : Nat → Half} {header : TypeZeroHeader} {dev : Ranges}

/-- A range has one or two registers. -/
theorem registers_pos (range : Range) : 0 < range.registers.length := by
  unfold Range.registers
  split <;> simp

theorem mem_placesFrom_lt
    {slots : List (Option Range)} {i j : Nat} {range : Range}
    (hmem : (j, range) ∈ placesFrom i slots) :
    j < i + (slots.flatMap registersOf).length := by
  induction slots generalizing i with
  | nil => cases hmem
  | cons slot slots ih =>
      cases slot with
      | none =>
          have hlt := ih hmem
          simp only [List.flatMap_cons, registersOf, List.length_append, List.length_singleton]
          omega
      | some first =>
          simp only [List.flatMap_cons, registersOf, List.length_append]
          rcases List.mem_cons.1 hmem with heq | hrest
          · have hpos := registers_pos first
            cases heq
            omega
          · have hlt := ih hrest
            omega

theorem exists_place
    {slots : List (Option Range)} {range : Range}
    (hmem : some range ∈ slots)
    (i : Nat) :
    ∃ j, (j, range) ∈ placesFrom i slots := by
  induction slots generalizing i with
  | nil => cases hmem
  | cons slot slots ih =>
      cases slot with
      | none =>
          rcases List.mem_cons.1 hmem with heq | hrest
          · cases heq
          · exact ih hrest (i + 1)
      | some first =>
          rcases List.mem_cons.1 hmem with heq | hrest
          · cases heq
            exact ⟨i, List.mem_cons_self⟩
          · obtain ⟨j, hj⟩ := ih hrest (i + first.registers.length)
            exact ⟨j, List.mem_cons_of_mem _ hj⟩

/-- Without ranges there are no places. -/
theorem places_eq_nil
    {slots : List (Option Range)}
    (hnone : ∀ slot, slot ∈ slots → slot = none)
    (i : Nat) :
    placesFrom i slots = [] := by
  induction slots generalizing i with
  | nil => rfl
  | cons slot slots ih =>
      cases hnone slot List.mem_cons_self
      exact ih (fun slot hslot => hnone slot (List.mem_cons_of_mem _ hslot)) (i + 1)

/-- No range is as short as two. -/
theorem four_le_size (range : Range) : 4 ≤ 2 ^ range.log := by
  have hleast : 2 ≤ range.kind.least := by
    rcases range.kind with _ | _ | _
    · exact Nat.le_refl 2
    · exact Nat.le_add_right 2 2
    · exact Nat.le_add_right 2 2
  have hlog : 2 ≤ range.log := Nat.le_trans hleast range.least_le
  exact Nat.pow_le_pow_right (n := 2) (by decide) hlog

/-- A logical negation is 0 or 1, and the shift by 32 does not move it. -/
theorem lengthOf_le
    (left : Half)
    {or : Nat}
    (hor : or = 0 ∨ or = 32) :
    ((shl (lengthOf left) or).setWidth 64).toNat ≤ 2 := by
  have hshift : shl (lengthOf left) or = lengthOf left := by
    rcases hor with rfl | rfl
    · exact BitVec.shiftLeft_zero _
    · exact BitVec.shiftLeft_zero _
  rw [hshift]
  unfold lengthOf
  split <;> decide

/-- Entries whose lengths are 2 at most, and nothing behind them that is written. -/
structure Short (dev ranges : Ranges) : Prop where
  lengths_le : ∀ i, i < 6 → (ranges.lengths i).toNat ≤ 2
  within : WithinSix dev ranges

theorem short_cleared : Short dev dev.cleared := by
  constructor
  · intro i hi
    simp [Ranges.cleared, hi]
  · intro i hi
    simp [Ranges.cleared, Nat.not_lt.2 hi]

theorem Short.barRound
    {p : Probe}
    (hp : Short dev p.dev)
    {i : Nat}
    (hi : i < 6)
    (reg : Half)
    {or : Nat}
    (hor : or = 0 ∨ or = 32) :
    Short dev (Devices.barRound i reg or p).dev := by
  obtain ⟨hlengths, hwithin⟩ := hp
  constructor
  · intro j hj
    by_cases heq : j = i
    · subst heq
      simp only [Devices.barRound, Probe.bootWrite, Function.update_self]
      exact lengthOf_le _ hor
    · simp only [Devices.barRound, Probe.bootWrite, Function.update_of_ne heq]
      exact hlengths j hj
  · intro j hj
    have hne : j ≠ i := by omega
    simp only [Devices.barRound, Probe.bootWrite, Function.update_of_ne hne]
    exact hwithin j hj

theorem Short.getBarInfo
    {p : Probe}
    (hp : Short dev p.dev)
    {i : Nat}
    (hi : i < 6)
    (reg : Half) :
    Short dev (Devices.getBarInfo i reg p).dev := by
  have hone := hp.barRound hi reg (.inl rfl)
  simp only [Devices.getBarInfo]
  split
  · exact hone.barRound hi reg (.inr rfl)
  · exact hone

/-- **Every length is 2 at most.** -/
theorem setDeviceRanges_lengths
    {fuel : Nat} {p : Probe}
    (hrun : setDeviceRanges returned header.space dev fuel = some p) :
    LoopEnds returned ∧ Short dev p.dev := by
  have hcall : ∀ i p, i < 6 → Short dev p.dev → Short dev (getBarInfo i 0x10 p).dev :=
    fun i p hi hp => hp.getBarInfo hi 0x10
  have hfirst : Short dev (getBarInfo 0 0x10 ⟨header.space, dev.cleared, [header.space]⟩).dev :=
    short_cleared.getBarInfo (by decide) 0x10
  exact run_ranges hcall hfirst hrun

/-- An entry that is right is longer than that. -/
theorem not_entryRight_of_short
    {ranges : Ranges} {i : Nat} {range : Range}
    (hshort : Short dev ranges)
    (hi : i < 6) :
    ¬ EntryRight ranges i range := by
  intro hright
  have hle := hshort.lengths_le i hi
  rw [hright.length] at hle
  have hsize := four_le_size range
  omega

/-- **The base address registers of a device are decoded correctly exactly when it has no
ranges and the loop over them ends.** -/
theorem decoding_right_iff
    (returned : Nat → Half)
    (header : TypeZeroHeader)
    (dev : Ranges) :
    DecodingRight returned header dev ↔
      (∀ slot, slot ∈ header.slots → slot = none) ∧ LoopEnds returned := by
  constructor
  · rintro ⟨fuel, p, hrun, hright, -⟩
    obtain ⟨hends, hshort⟩ := setDeviceRanges_lengths hrun
    refine ⟨fun slot hslot => ?_, hends⟩
    cases slot with
    | none => rfl
    | some range =>
        obtain ⟨i, hplace⟩ := exists_place hslot 0
        have hlt := mem_placesFrom_lt hplace
        rw [header.six] at hlt
        exact absurd (hright i range hplace) (not_entryRight_of_short hshort (by omega))
  · rintro ⟨hnone, hends⟩
    have hloop : header.space.headtype = 0 → LoopEnds returned := fun _ => hends
    obtain ⟨fuel, p, hrun⟩ := setDeviceRanges_ends dev hloop
    obtain ⟨-, hshort⟩ := setDeviceRanges_lengths hrun
    have hplaces : header.places = [] := places_eq_nil hnone 0
    refine ⟨fuel, p, hrun, fun i range hplace => ?_, hshort.within⟩
    rw [hplaces] at hplace
    cases hplace

/-- A header with one range of 4 KiB of memory. -/
def pageHeader : TypeZeroHeader where
  slots :=
    [some ⟨.memory false, 0xe0000000, 12, by decide, by decide, rfl⟩, none, none, none, none, none]
  six := rfl
  command := 2
  status := 0
  others _ := 0

/-- Its length is lost. -/
theorem lone_range_not_decoded :
    ¬ DecodingRight (fun _ => 0) pageHeader ⟨fun _ => 0, fun _ => 0, fun _ => 0⟩ := by
  rintro ⟨fuel, p, hrun, hright, -⟩
  obtain ⟨-, hshort⟩ := setDeviceRanges_lengths hrun
  exact not_entryRight_of_short hshort (by decide) (hright 0 _ List.mem_cons_self)

end Entries

end Devices
end BestKernel
