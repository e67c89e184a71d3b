import BestKernel.Library.Loops
import BestKernel.Library.Words
import Mathlib.Tactic.SplitIfs

/-!
# Tables of the firmware

`find_toplevel_table` should search the entries of a root table for the table with a
signature.  It looks at one place only, 36 bytes behind what it takes for the root table:
the two dwords there are the signature and the length of a table to it, and together, as a
pointer, the table that it returns (`lookup_cases`).

`lookup_right_iff` says when that is right by accident.

Readings of the source.  `length` is `table_length`, and the `head` of a header the header.
A pointer to headers that goes up by the address of the root table goes up by as many units;
the unit is a parameter, 36 for what the pointer is one to, or 1 for the bytes that must have
been meant.  `table->length-sizeof(ACPI_SYSHEADER)` has 64 bits.
-/

namespace BestKernel
namespace Devices

open Machine

/-- The dword at an address. -/
def dwordAt (m : ByteMemory) (a : Word) : Half := m (a + 3) ++ m (a + 2) ++ m (a + 1) ++ m a

/-- The eight bytes at an address. -/
def qwordAt (m : ByteMemory) (a : Word) : Word := dwordAt m (a + 4) ++ dwordAt m a

/-- `class ACPI_RSDP`, as far as the root tables go. -/
structure Rsdp where
  revision : Byte
  RSDT_ptr : Half
  XSDT_ptr : Word

/-- The root table. -/
def Rsdp.root (rsdp : Rsdp) : Word :=
  if rsdp.revision > 0 then rsdp.XSDT_ptr else rsdp.RSDT_ptr.setWidth 64

/-- The counter of the loop, and the reads of the root table so far: their addresses and
lengths. -/
structure Lookup where
  i : Half
  reads : List (Word × Nat)

section Search

variable (m : ByteMemory) (table : Word) (mask : Half)

/-- A round of `find_toplevel_table`. -/
def lookupRound (s : Lookup) : Lookup ⊕ Word × List (Word × Nat) :=
  let reads := s.reads ++ [(table + 4, 4)]
  if s.i.setWidth 64 < ((dwordAt m (table + 4)).setWidth 64 - 36) / 8 then
    let test := qwordAt m table
    let reads := reads ++ [(table, 8), (table, 4)]
    if dwordAt m table = mask then .inr (test, reads) else .inl ⟨s.i + 1, reads⟩
  else .inr (0, reads)

end Search

/-- `find_toplevel_table`, and what it has read. -/
def findToplevelTable (m : ByteMemory) (unit : Word) (rsdp : Rsdp) (mask : Half) (fuel : Nat) :
    Option (Word × List (Word × Nat)) :=
  Loops.run (lookupRound m (36 + unit * rsdp.root) mask) fuel ⟨0, []⟩

section Specification

variable (m : ByteMemory) (unit : Word) (rsdp : Rsdp) (mask : Half)

/-- The length of the root table. -/
def rootLength : Nat := (dwordAt m (rsdp.root + 4)).toNat

/-- The bytes of an entry. -/
def Rsdp.entryWidth : Nat := if rsdp.revision > 0 then 8 else 4

/-- The number of entries. -/
def rootEntries : Nat := (rootLength m rsdp - 36) / rsdp.entryWidth

/-- The table that an entry points to. -/
def listedTable (i : Nat) : Word :=
  let a := rsdp.root + 36 + BitVec.ofNat 64 (rsdp.entryWidth * i)
  if rsdp.revision > 0 then qwordAt m a else (dwordAt m a).setWidth 64

/-- The first listed table with the signature, or the null pointer. -/
def firstTable : Word :=
  match (List.range (rootEntries m rsdp)).find? fun i =>
      dwordAt m (listedTable m rsdp i) = mask with
  | some i => listedTable m rsdp i
  | none => 0

/-- Bytes of the root table. -/
def InRoot (read : Word × Nat) : Prop :=
  rsdp.root.toNat ≤ read.1.toNat ∧
    read.1.toNat + read.2 ≤ rsdp.root.toNat + rootLength m rsdp

/-- The search ends with the first table, and has read nothing but the root table. -/
def LookupRight : Prop :=
  ∃ fuel reads, findToplevelTable m unit rsdp mask fuel = some (firstTable m rsdp mask, reads) ∧
    ∀ read, read ∈ reads → InRoot m rsdp read

/-- The condition.  Where what is taken for the length leaves no room for an entry, no table
must be there; else the place must lie in the root table, and what is there must be the
table, or there must be none and an end. -/
def LookupSafe : Prop :=
  let table := 36 + unit * rsdp.root
  let length := (dwordAt m (table + 4)).toNat
  InRoot m rsdp (table + 4, 4) ∧
    if 36 ≤ length ∧ length < 44 then firstTable m rsdp mask = 0
    else InRoot m rsdp (table, 8) ∧
      if dwordAt m table = mask then firstTable m rsdp mask = qwordAt m table
      else 44 ≤ length ∧ firstTable m rsdp mask = 0

end Specification

section Rounds

variable {m : ByteMemory} {table : Word} {mask : Half}

/-- The number of rounds. -/
def lookupRounds (m : ByteMemory) (table : Word) : Nat :=
  (((dwordAt m (table + 4)).setWidth 64 - 36 : Word) / 8).toNat

theorem lookupRounds_eq (m : ByteMemory) (table : Word) :
    lookupRounds m table =
      (((dwordAt m (table + 4)).toNat + (2 ^ 64 - 36)) % 2 ^ 64) / 8 := by
  have hdword := (dwordAt m (table + 4)).isLt
  have hhead : (36 : Word).toNat = 36 := rfl
  have height : (8 : Word).toNat = 8 := rfl
  rw [lookupRounds, BitVec.toNat_udiv, BitVec.toNat_sub, BitVec.toNat_setWidth, hhead, height]
  omega

/-- Another round is made. -/
theorem lookup_goes_on
    (i : Half) :
    (i.setWidth 64 < ((dwordAt m (table + 4)).setWidth 64 - 36 : Word) / 8) ↔
      i.toNat < lookupRounds m table := by
  have hi := i.isLt
  rw [BitVec.lt_def, BitVec.toNat_setWidth, lookupRounds, Nat.mod_eq_of_lt (by omega)]

/-- The reads of a round with a test. -/
def lookupReads (table : Word) : List (Word × Nat) := [(table + 4, 4), (table, 8), (table, 4)]

theorem lookupRound_none
    {s : Lookup}
    (h : lookupRounds m table ≤ s.i.toNat) :
    lookupRound m table mask s = .inr (0, s.reads ++ [(table + 4, 4)]) := by
  unfold lookupRound
  dsimp only
  rw [if_neg]
  rw [lookup_goes_on]
  omega

theorem lookupRound_hit
    {s : Lookup}
    (h : s.i.toNat < lookupRounds m table)
    (hmask : dwordAt m table = mask) :
    lookupRound m table mask s = .inr (qwordAt m table, s.reads ++ lookupReads table) := by
  unfold lookupRound
  dsimp only
  rw [if_pos ((lookup_goes_on _).mpr h), if_pos hmask, List.append_assoc]
  rfl

theorem lookupRound_miss
    {s : Lookup}
    (h : s.i.toNat < lookupRounds m table)
    (hmask : dwordAt m table ≠ mask) :
    lookupRound m table mask s = .inl ⟨s.i + 1, s.reads ++ lookupReads table⟩ := by
  unfold lookupRound
  dsimp only
  rw [if_pos ((lookup_goes_on _).mpr h), if_neg hmask, List.append_assoc]
  rfl

/-- A search that misses goes on for all its rounds, with the same reads. -/
theorem lookup_misses
    (hmask : dwordAt m table ≠ mask)
    (hrounds : lookupRounds m table < 2 ^ 32)
    {left : Nat} {s : Lookup}
    (hleft : s.i.toNat + left = lookupRounds m table) :
    ∃ reads, Loops.run (lookupRound m table mask) (left + 1) s = some (0, reads) ∧
      (∀ read, read ∈ s.reads → read ∈ reads) ∧
      ∀ read, read ∈ reads → read ∈ s.reads ∨ read ∈ lookupReads table := by
  induction left generalizing s with
  | zero =>
      refine ⟨_, Loops.run_exit (lookupRound_none (by omega)) 0,
        fun read hread => List.mem_append_left _ hread, fun read hread => ?_⟩
      rcases List.mem_append.mp hread with hbefore | hlast
      · exact Or.inl hbefore
      · rw [List.mem_singleton.mp hlast]
        exact Or.inr (List.mem_cons_self ..)
  | succ left ih =>
      have hnext : (s.i + 1).toNat = s.i.toNat + 1 := by
        rw [BitVec.toNat_add, show (1 : Half).toNat = 1 from rfl]
        omega
      obtain ⟨reads, hrun, hkept, hreads⟩ :=
        ih (s := ⟨s.i + 1, s.reads ++ lookupReads table⟩) (by dsimp only; omega)
      refine ⟨reads, ?_, fun read hread => hkept read (List.mem_append_left _ hread),
        fun read hread => ?_⟩
      · rw [Loops.run_next (lookupRound_miss (by omega) hmask), hrun]
      · rcases hreads read hread with hbefore | hround
        · exact List.mem_append.mp hbefore
        · exact Or.inr hround

/-- A search that misses, and has a length with room for more than 32 bits of rounds, does
not end. -/
theorem lookup_endless
    (hmask : dwordAt m table ≠ mask)
    (hrounds : 2 ^ 32 ≤ lookupRounds m table)
    (s : Lookup) (fuel : Nat) :
    Loops.run (lookupRound m table mask) fuel s = none := by
  refine Loops.endless_of_invariant (f := id) (I := fun _ => True) (fun s _ => ?_) trivial fuel
  have hi := s.i.isLt
  exact ⟨_, lookupRound_miss (by omega) hmask, trivial⟩

end Rounds

section Lookups

variable {m : ByteMemory} {unit : Word} {rsdp : Rsdp} {mask : Half}

/-- A search that has ended is right by its result and its reads. -/
theorem right_of_run
    {fuel : Nat} {found : Word} {reads : List (Word × Nat)}
    (h : findToplevelTable m unit rsdp mask fuel = some (found, reads)) :
    LookupRight m unit rsdp mask ↔
      firstTable m rsdp mask = found ∧ ∀ read, read ∈ reads → InRoot m rsdp read := by
  constructor
  · rintro ⟨fuel', reads', hrun, hreads⟩
    obtain ⟨hfound, rfl⟩ := Prod.mk.inj (Loops.run_unique hrun h)
    exact ⟨hfound, hreads⟩
  · rintro ⟨rfl, hreads⟩
    exact ⟨fuel, reads, h, hreads⟩

/-- The three reads of a round lie in the root table where the two longer ones do. -/
theorem inRoot_lookupReads_iff
    {table : Word} {reads : List (Word × Nat)}
    (hreads : ∀ read, read ∈ reads ↔ read ∈ lookupReads table) :
    (∀ read, read ∈ reads → InRoot m rsdp read) ↔
      InRoot m rsdp (table + 4, 4) ∧ InRoot m rsdp (table, 8) := by
  simp only [hreads, lookupReads, List.forall_mem_cons, List.not_mem_nil, false_implies,
    implies_true, and_true]
  refine and_congr_right fun _ => and_iff_left_of_imp fun h => ?_
  obtain ⟨hstart, hend⟩ := h
  exact ⟨hstart, by dsimp only at hend ⊢; omega⟩

/-- **What the search comes to**, by the two dwords that it looks at. -/
theorem lookup_cases (m : ByteMemory) (unit : Word) (rsdp : Rsdp) (mask : Half) :
    let table := 36 + unit * rsdp.root
    let length := (dwordAt m (table + 4)).toNat
    if 36 ≤ length ∧ length < 44 then
      findToplevelTable m unit rsdp mask 1 = some (0, [(table + 4, 4)])
    else if dwordAt m table = mask then
      findToplevelTable m unit rsdp mask 1 = some (qwordAt m table, lookupReads table)
    else if length < 36 then
      ∀ fuel, findToplevelTable m unit rsdp mask fuel = none
    else
      ∃ fuel reads, findToplevelTable m unit rsdp mask fuel = some (0, reads) ∧
        ∀ read, read ∈ reads ↔ read ∈ lookupReads table := by
  intro table length
  have hrounds := lookupRounds_eq m table
  have hlength : length < 2 ^ 32 := (dwordAt m (table + 4)).isLt
  have hzero : (0 : Half).toNat = 0 := rfl
  change lookupRounds m table = ((length + (2 ^ 64 - 36)) % 2 ^ 64) / 8 at hrounds
  split_ifs with hmiddle hmask hshort
  · have hnone : lookupRounds m table ≤ (0 : Half).toNat := by omega
    exact Loops.run_exit (lookupRound_none (s := ⟨0, []⟩) hnone) 0
  · have hfirst : (0 : Half).toNat < lookupRounds m table := by omega
    exact Loops.run_exit (lookupRound_hit (s := ⟨0, []⟩) hfirst hmask) 0
  · exact lookup_endless hmask (by omega) _
  · have hfirst : (0 : Half).toNat < lookupRounds m table := by omega
    have hleft : (1 : Half).toNat + (lookupRounds m table - 1) = lookupRounds m table := by
      rw [show (1 : Half).toNat = 1 from rfl]
      omega
    obtain ⟨reads, hrun, hkept, hreads⟩ :=
      lookup_misses (s := ⟨1, lookupReads table⟩) hmask (by omega) hleft
    refine ⟨_, reads, (Loops.run_next (lookupRound_miss (s := ⟨0, []⟩) hfirst hmask) _).trans hrun,
      fun read => ⟨fun hread => (hreads read hread).elim id id, hkept read⟩⟩

/-- **When the search of the root table is right.** -/
theorem lookup_right_iff (m : ByteMemory) (unit : Word) (rsdp : Rsdp) (mask : Half) :
    LookupRight m unit rsdp mask ↔ LookupSafe m unit rsdp mask := by
  have hcases := lookup_cases m unit rsdp mask
  dsimp only at hcases
  unfold LookupSafe
  dsimp only
  split_ifs at hcases ⊢ with hmiddle hmask hshort
  · rw [right_of_run hcases, List.forall_mem_singleton, and_comm]
  · rw [right_of_run hcases, inRoot_lookupReads_iff fun _ => Iff.rfl, and_comm, and_assoc]
  · refine iff_of_false ?_ fun h => ?_
    · rintro ⟨fuel, reads, hrun, -⟩
      rw [hcases fuel] at hrun
      cases hrun
    · have hlong := h.2.2.1
      omega
  · obtain ⟨fuel, reads, hrun, hreads⟩ := hcases
    have hlong : 44 ≤ (dwordAt m (36 + unit * rsdp.root + 4)).toNat := by omega
    rw [right_of_run hrun, inRoot_lookupReads_iff hreads, and_iff_right hlong, and_comm, and_assoc]

/-- An extended root table at 4096 whose one entry is an `APIC` table at 8192. -/
def oneTable : ByteMemory := fun a =>
  if a = 4100 then 44
  else if a = 4133 then 0x20
  else if a = 8192 then 0x41
  else if a = 8193 then 0x50
  else if a = 8194 then 0x49
  else if a = 8195 then 0x43
  else 0

/-- The search for it never ends, however the pointer goes up. -/
theorem oneTable_not_right :
    firstTable oneTable ⟨2, 0, 4096⟩ 0x43495041 = 8192 ∧
      (∀ fuel, findToplevelTable oneTable 1 ⟨2, 0, 4096⟩ 0x43495041 fuel = none) ∧
      ¬ LookupRight oneTable 1 ⟨2, 0, 4096⟩ 0x43495041 ∧
      ¬ LookupRight oneTable 36 ⟨2, 0, 4096⟩ 0x43495041 := by
  have hendless : ∀ unit, unit = 1 ∨ unit = 36 →
      ∀ fuel, findToplevelTable oneTable unit ⟨2, 0, 4096⟩ 0x43495041 fuel = none := by
    intro unit hunit
    have hcases := lookup_cases oneTable unit ⟨2, 0, 4096⟩ 0x43495041
    dsimp only at hcases
    rcases hunit with rfl | rfl
    · rwa [if_neg (by decide), if_neg (by decide), if_pos (by decide)] at hcases
    · rwa [if_neg (by decide), if_neg (by decide), if_pos (by decide)] at hcases
  have hwrong : ∀ unit, unit = 1 ∨ unit = 36 →
      ¬ LookupRight oneTable unit ⟨2, 0, 4096⟩ 0x43495041 := by
    rintro unit hunit ⟨fuel, reads, hrun, -⟩
    rw [hendless unit hunit fuel] at hrun
    cases hrun
  exact ⟨by decide, hendless 1 (Or.inl rfl), hwrong 1 (Or.inl rfl), hwrong 36 (Or.inr rfl)⟩

end Lookups

end Devices
end BestKernel
