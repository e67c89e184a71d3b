import BestKernel.Library.Loops
import BestKernel.Mem.PageTree

/-!
# The table of physical frames

Bit `n` of `phys_ram_table` stands for the 4096-byte frame `n`.  The pointer is
a `void *`, so an element of the table is a byte.  `get_free_identity` and
`get_free_phys` look for clear bits, `manipulate_phys` sets or clears them, and
`malloc`, `mfree`, `mrealloc`, `mem_realloc` and the fill of a reserved page put
them together.

The searches advance an index by jumps that can go backwards, so they are loops
with fuel.  `manipulate_phys` has a closed form, `manipulatePhys_eq`: it sets or
clears all eight bits of one byte, whatever the number of pages asked for.  In
`mfree` the undeclared `ret` is the parameter `pointer`.
-/

namespace BestKernel
namespace Mem

open Machine

/-- `phys_ram_table`. -/
abbrev RamTable := Nat → Byte

section Search

/-- The locals of a search. -/
structure Cursor where
  indexer : Half
  bit : Half
  gate : Half

def Cursor.start : Cursor := ⟨0, 1, 0⟩

/-- `if !(bit){ ++bit; ++indexer;}` -/
def Cursor.wrap (c : Cursor) : Cursor :=
  if c.bit = 0 then ⟨c.indexer + 1, c.bit + 1, c.gate⟩ else c

/-- How often `g` is doubled until it is 0. -/
def doublings : Nat → Half → Half → Half
  | 0, _, off => off
  | left + 1, g, off => if g = 0 then off else doublings left (g * 2) (off + 1)

/-- The address that a search reports for its position. -/
def Cursor.address (c : Cursor) (multiplier : Half) : Word :=
  ((c.indexer + doublings 32 c.bit 0) * multiplier).setWidth 64

/-- Where a search goes on after a used frame. -/
def jump (multiplier indexer : Half) : Half :=
  if indexer * 8 % multiplier = 0 then indexer + multiplier / 8
  else indexer / (multiplier / 8) + multiplier / 8

/-- `++gate`, the test of the table, `bit<<=2`. -/
def Cursor.advance (table : RamTable) (multiplier : Half) (c : Cursor) : Cursor :=
  if (table c.indexer.toNat).setWidth 32 &&& c.bit ≠ 0 then
    ⟨jump multiplier c.indexer, c.bit <<< 2, 0⟩
  else ⟨c.indexer, c.bit <<< 2, c.gate + 1⟩

variable (memlen : Half) (table : RamTable) (pages_number : Half) (pagetype : Nat)

/-- One round of the loop of `get_free_identity`; 0 is `NULLPTR`. -/
def identityRound (c : Cursor) : Cursor ⊕ Word :=
  let multiplier := multiplierOf pagetype
  if ¬ c.indexer < memlen / 8 then .inr 0
  else if c.wrap.gate = multiplier * pages_number then
    .inr (c.wrap.address multiplier)
  else .inl (c.wrap.advance table multiplier)

def getFreeIdentity (fuel : Nat) : Option Word :=
  Loops.run (identityRound memlen table pages_number pagetype) fuel Cursor.start

/-- One round of the loop of `get_free_phys`, with the `physrets` filled so far
and `phys_cnt` their number.  The result is the status and the addresses. -/
def physRound (s : Cursor × List Word) : Cursor × List Word ⊕ Nat × List Word :=
  let (c, physrets) := s
  let multiplier := multiplierOf pagetype
  if ¬ c.indexer < memlen / 8 then .inr (1, physrets)
  else
    let physrets :=
      if c.wrap.gate = multiplier then physrets ++ [c.wrap.address multiplier]
      else physrets
    if BitVec.ofNat 32 physrets.length = pages_number then .inr (0, physrets)
    else .inl (c.wrap.advance table multiplier, physrets)

def getFreePhys (fuel : Nat) : Option (Nat × List Word) :=
  Loops.run (physRound memlen table pages_number pagetype) fuel (Cursor.start, [])

end Search

/-- `get_free_identity` computes its address in 32 bits. -/
theorem getFreeIdentity_toNat_lt
    {memlen : Half} {table : RamTable} {pages_number : Half} {pagetype fuel : Nat}
    {ret : Word}
    (h : getFreeIdentity memlen table pages_number pagetype fuel = some ret) :
    ret.toNat < 2 ^ 32 := by
  refine Loops.run_invariant (I := fun _ => True) (Q := fun r : Word => r.toNat < 2 ^ 32)
    (fun _ _ _ _ => trivial) ?_ trivial h
  intro c r _ hround
  unfold identityRound at hround
  dsimp only at hround
  split_ifs at hround
  · cases hround
    rw [Cursor.address, BitVec.toNat_setWidth]
    have := ((c.wrap.indexer + doublings 32 c.wrap.bit 0) * multiplierOf pagetype).isLt
    omega
  · cases hround
    decide

section ClearTable

/-- Where a search stands before its round `r + 1` when it has found no used frame. -/
def clearCursor (r : Nat) : Cursor :=
  ⟨BitVec.ofNat 32 (r / 16), BitVec.ofNat 32 (4 ^ (r % 16)), BitVec.ofNat 32 r⟩

theorem ofNat_four_pow_shift :
    ∀ i, i < 16 → BitVec.ofNat 32 (4 ^ i) <<< 2 = BitVec.ofNat 32 (4 ^ (i + 1)) := by
  decide

theorem ofNat_four_pow_eq_zero_iff :
    ∀ i, i < 17 → (BitVec.ofNat 32 (4 ^ i) = (0 : Half) ↔ i = 16) := by
  decide

/-- A free frame: the bit moves on by two, and after sixteen rounds the index by one. -/
theorem clearCursor_advance
    {table : RamTable} {r : Nat}
    (multiplier : Half)
    (hclear : table (BitVec.ofNat 32 (r / 16)).toNat = 0) :
    ((clearCursor r).advance table multiplier).wrap = clearCursor (r + 1) ∧
      ((clearCursor r).advance table multiplier).indexer = BitVec.ofNat 32 (r / 16) := by
  have hlt : r % 16 < 16 := Nat.mod_lt _ (by decide)
  have hadvance : (clearCursor r).advance table multiplier =
      ⟨BitVec.ofNat 32 (r / 16), BitVec.ofNat 32 (4 ^ (r % 16 + 1)), BitVec.ofNat 32 (r + 1)⟩ := by
    have hfree : ¬ (table (clearCursor r).indexer.toNat).setWidth 32 &&& (clearCursor r).bit ≠ 0 := by
      rw [clearCursor, hclear]
      simp
    rw [Cursor.advance, if_neg hfree, clearCursor, ofNat_four_pow_shift _ hlt]
    simp [BitVec.ofNat_add]
  rw [hadvance]
  refine ⟨?_, rfl⟩
  have hzero := ofNat_four_pow_eq_zero_iff (r % 16 + 1) (by omega)
  rw [Cursor.wrap]
  dsimp only
  by_cases hlast : r % 16 = 15
  · have hindex : (r + 1) / 16 = r / 16 + 1 := by omega
    have hbit : (r + 1) % 16 = 0 := by omega
    rw [if_pos (hzero.mpr (by omega)), clearCursor, hindex, hbit, hlast]
    simp [BitVec.ofNat_add]
  · have hindex : (r + 1) / 16 = r / 16 := by omega
    have hbit : (r + 1) % 16 = r % 16 + 1 := by omega
    rw [if_neg (fun h => hlast (by have := hzero.mp h; omega)), clearCursor, hindex, hbit]

section Rounds

variable {memlen : Half} {table : RamTable} {pages_number : Half} {pagetype r : Nat} {c : Cursor}

theorem clearCursor_gate
    (hr : r < 2 ^ 32)
    (quota : Half) :
    (clearCursor r).gate = quota ↔ r = quota.toNat := by
  rw [clearCursor, ← BitVec.toNat_inj, BitVec.toNat_ofNat, Nat.mod_eq_of_lt hr]

/-- A round that has the quota ends the search. -/
theorem identityRound_quota
    (hin : c.indexer < memlen / 8)
    (hwrap : c.wrap = clearCursor r)
    (hquota : r = (multiplierOf pagetype * pages_number).toNat) :
    identityRound memlen table pages_number pagetype c =
      .inr ((clearCursor r).address (multiplierOf pagetype)) := by
  have hr : r < 2 ^ 32 := hquota ▸ BitVec.isLt _
  rw [identityRound, hwrap, if_neg (not_not.mpr hin),
    if_pos ((clearCursor_gate hr _).mpr hquota)]

/-- One that has not yet goes on. -/
theorem identityRound_missing
    (hin : c.indexer < memlen / 8)
    (hwrap : c.wrap = clearCursor r)
    (hquota : r < (multiplierOf pagetype * pages_number).toNat) :
    identityRound memlen table pages_number pagetype c =
      .inl ((clearCursor r).advance table (multiplierOf pagetype)) := by
  have hr : r < 2 ^ 32 := Nat.lt_trans hquota (BitVec.isLt _)
  have hgate : (clearCursor r).gate ≠ multiplierOf pagetype * pages_number :=
    fun h => Nat.ne_of_lt hquota ((clearCursor_gate hr _).mp h)
  rw [identityRound, hwrap, if_neg (not_not.mpr hin), if_neg hgate]

end Rounds

/-- While the bytes it looks at are 0, a search goes on until it has its quota. -/
theorem getFreeIdentity_clear
    {memlen : Half} {table : RamTable} {pages_number : Half} {pagetype fuel : Nat}
    (hclear : ∀ i, i ≤ (multiplierOf pagetype * pages_number).toNat / 16 → table i = 0)
    (hroom : (multiplierOf pagetype * pages_number).toNat / 16 < memlen.toNat / 8)
    (hfuel : (multiplierOf pagetype * pages_number).toNat < fuel) :
    getFreeIdentity memlen table pages_number pagetype fuel =
      some ((clearCursor (multiplierOf pagetype * pages_number).toNat).address
        (multiplierOf pagetype)) := by
  have hlt := (multiplierOf pagetype * pages_number).isLt
  have hinside : ∀ c : Cursor,
      c.indexer.toNat ≤ (multiplierOf pagetype * pages_number).toNat / 16 →
        c.indexer < memlen / 8 := by
    intro c hc
    rw [BitVec.lt_def, BitVec.toNat_udiv]
    exact Nat.lt_of_le_of_lt hc hroom
  -- the induction is on the frames still missing, from round `r` on
  have hrun : ∀ missing r c fuel,
      missing + r = (multiplierOf pagetype * pages_number).toNat → missing < fuel →
      c.wrap = clearCursor r → c.indexer.toNat ≤ r / 16 →
      Loops.run (identityRound memlen table pages_number pagetype) fuel c =
        some ((clearCursor (multiplierOf pagetype * pages_number).toNat).address
          (multiplierOf pagetype)) := by
    intro missing
    induction missing with
    | zero =>
        intro r c fuel hr hfuel hwrap hindex
        obtain ⟨fuel, rfl⟩ := Nat.exists_eq_succ_of_ne_zero (by omega : fuel ≠ 0)
        obtain rfl : r = (multiplierOf pagetype * pages_number).toNat := by omega
        exact Loops.run_exit (identityRound_quota (hinside c hindex) hwrap rfl) fuel
    | succ missing ih =>
        intro r c fuel hr hfuel hwrap hindex
        obtain ⟨fuel, rfl⟩ := Nat.exists_eq_succ_of_ne_zero (by omega : fuel ≠ 0)
        have hr16 : (BitVec.ofNat 32 (r / 16)).toNat = r / 16 := by
          rw [BitVec.toNat_ofNat, Nat.mod_eq_of_lt (by omega)]
        have hfree : table (BitVec.ofNat 32 (r / 16)).toNat = 0 := by
          rw [hr16]
          exact hclear _ (by omega)
        obtain ⟨hwrap', hindex'⟩ := clearCursor_advance (multiplierOf pagetype) hfree
        rw [Loops.run_next
          (identityRound_missing (hinside c (by omega)) hwrap (by omega))]
        exact ih (r + 1) _ fuel (by omega) (by omega) hwrap' (by rw [hindex', hr16]; omega)
  exact hrun _ 0 Cursor.start fuel rfl hfuel rfl (Nat.le_refl 0)

end ClearTable

/-- Asked for no page, `get_free_phys` finds none. -/
theorem getFreePhys_zero
    {memlen : Half} {table : RamTable} {pagetype fuel : Nat} {r : Nat × List Word}
    (h : getFreePhys memlen table 0 pagetype fuel = some r) :
    r.2 = [] := by
  cases fuel with
  | zero => simp [getFreePhys, Loops.run] at h
  | succ fuel =>
      have hgate : ¬ Cursor.start.wrap.gate = multiplierOf pagetype :=
        fun heq => multiplierOf_ne_zero pagetype heq.symm
      have hround : ∃ status, physRound memlen table 0 pagetype (Cursor.start, []) =
          .inr (status, []) := by
        unfold physRound
        dsimp only
        rw [if_neg hgate]
        split_ifs with hroom hcount
        · exact ⟨0, rfl⟩
        · exact absurd rfl hcount
        · exact ⟨1, rfl⟩
      obtain ⟨status, hround⟩ := hround
      rw [getFreePhys, Loops.run_exit hround] at h
      cases h
      rfl

/-- When `get_free_phys` succeeds it found as many pages as it was asked for. -/
theorem getFreePhys_count
    {memlen : Half} {table : RamTable} {pages_number : Half} {pagetype fuel : Nat}
    {r : Nat × List Word}
    (h : getFreePhys memlen table pages_number pagetype fuel = some r)
    (hstatus : r.1 = 0) :
    BitVec.ofNat 32 r.2.length = pages_number := by
  refine Loops.run_invariant (I := fun _ => True)
    (Q := fun r : Nat × List Word => r.1 = 0 → BitVec.ofNat 32 r.2.length = pages_number)
    (fun _ _ _ _ => trivial) ?_ trivial h hstatus
  rintro ⟨c, physrets⟩ r _ hround
  unfold physRound at hround
  dsimp only at hround
  split_ifs at hround with hroom hgate hcount hcount <;> cases hround
  · exact fun _ => hcount
  · exact fun _ => hcount
  · exact fun h1 => absurd h1 Nat.one_ne_zero

/-- `enum actions`. -/
inductive Action where
  | SET
  | CLEAR
deriving DecidableEq, Repr

/-- `|= bit`, and `^= bit` when clearing, on one byte. -/
def Action.apply (action : Action) (bit : Half) (x : Byte) : Byte :=
  let x := x ||| bit.setWidth 8
  match action with
  | .SET => x
  | .CLEAR => x ^^^ bit.setWidth 8

/-- The byte with all its bits set or cleared. -/
def Action.full : Action → Byte
  | .SET => 0xFF
  | .CLEAR => 0

/-- The inner loop of `manipulate_phys`, over `j`. -/
def manipulateLoop (action : Action) (indexer : Nat) : Nat → Half → RamTable → RamTable
  | 0, _, table => table
  | left + 1, bit, table =>
      let table := Function.update table indexer (action.apply bit (table indexer))
      let bit := bit * 2
      let bit := if bit = 0 then bit + 1 else bit
      manipulateLoop action indexer left bit table

/-- The index into the table for an address. -/
def tableIndex (phys : Word) : Nat :=
  ((phys / 8 / 4096).setWidth 32).toNat

/-- `manipulate_phys` on a single address: every round uses the same one. -/
def manipulatePhys (table : RamTable) (phys : Word) (pages_number : Half)
    (pagetype : Nat) (action : Action) : RamTable :=
  let quota := getMultiFromPagetype pagetype
  (List.range pages_number.toNat).foldl
    (fun table _ => manipulateLoop action (tableIndex phys) quota 1 table) table

section ClosedForm

/-- What the inner loop makes of its byte. -/
def manipulateByte (action : Action) : Nat → Half → Byte → Byte
  | 0, _, x => x
  | left + 1, bit, x =>
      let bit' := bit * 2
      manipulateByte action left (if bit' = 0 then bit' + 1 else bit')
        (action.apply bit x)

theorem manipulateLoop_eq
    (action : Action) (indexer left : Nat) (bit : Half) (table : RamTable) :
    manipulateLoop action indexer left bit table =
      Function.update table indexer
        (manipulateByte action left bit (table indexer)) := by
  induction left generalizing bit table with
  | zero => simp [manipulateLoop, manipulateByte]
  | succ left ih =>
      rw [manipulateLoop, ih, manipulateByte]
      simp

/-- A full byte stays full. -/
theorem manipulateByte_full
    (action : Action) (left : Nat) (bit : Half) :
    manipulateByte action left bit action.full = action.full := by
  induction left generalizing bit with
  | zero => rfl
  | succ left ih =>
      have hstay : action.apply bit action.full = action.full := by
        cases action with
        | SET => exact BitVec.allOnes_or
        | CLEAR => simp [Action.apply, Action.full]
      rw [manipulateByte, hstay]
      exact ih _

/-- The first eight rounds reach every bit of the byte. -/
theorem manipulateByte_eight (action : Action) (x : Byte) :
    manipulateByte action 8 1 x = action.full := by
  revert x
  cases action <;> decide +kernel

/-- The bit that the inner loop holds after `rounds` more rounds. -/
def laterBit : Nat → Half → Half
  | 0, bit => bit
  | rounds + 1, bit =>
      let bit' := bit * 2
      laterBit rounds (if bit' = 0 then bit' + 1 else bit')

theorem manipulateByte_add
    (action : Action) (rounds left : Nat) (bit : Half) (x : Byte) :
    manipulateByte action (rounds + left) bit x =
      manipulateByte action left (laterBit rounds bit)
        (manipulateByte action rounds bit x) := by
  induction rounds generalizing bit x with
  | zero => rw [Nat.zero_add]; rfl
  | succ rounds ih =>
      rw [Nat.succ_add, manipulateByte, ih]
      rfl

/-- **`manipulate_phys` sets or clears one whole byte.** -/
theorem manipulatePhys_eq
    (table : RamTable) (phys : Word) (pages_number : Half) (pagetype : Nat)
    (action : Action) :
    manipulatePhys table phys pages_number pagetype action =
      if pages_number = 0#32 then table
      else Function.update table (tableIndex phys) action.full := by
  have hloop : ∀ t : RamTable,
      manipulateLoop action (tableIndex phys) (getMultiFromPagetype pagetype) 1 t =
        Function.update t (tableIndex phys) action.full := by
    intro t
    have hquota := getMultiFromPagetype_ge pagetype
    rw [manipulateLoop_eq,
      show getMultiFromPagetype pagetype = 8 + (getMultiFromPagetype pagetype - 8) by
        omega,
      manipulateByte_add, manipulateByte_eight, manipulateByte_full]
  have hfold : ∀ n : Nat, ∀ t : RamTable,
      (List.range (n + 1)).foldl
        (fun table _ => manipulateLoop action (tableIndex phys)
          (getMultiFromPagetype pagetype) 1 table) t =
        Function.update t (tableIndex phys) action.full := by
    intro n t
    induction n with
    | zero => exact hloop t
    | succ n ih =>
        rw [List.range_succ, List.foldl_append, ih, List.foldl_cons, List.foldl_nil,
          hloop, Function.update_idem]
  unfold manipulatePhys
  split_ifs with hpages
  · rw [hpages]
    rfl
  · have hpos : 0 < pages_number.toNat := BitVec.toNat_pos_of_ne_zero hpages
    obtain ⟨n, hn⟩ := Nat.exists_eq_succ_of_ne_zero (Nat.ne_of_gt hpos)
    rw [hn]
    exact hfold n table

end ClosedForm

section Calls

variable (memlen : Half) (fuel : Nat)

/-- The address, 0 for failure, and the table. -/
def malloc (table : RamTable) (pages_number : Half) (pagetype : Nat) :
    Option (Word × RamTable) := do
  let ret ← getFreeIdentity memlen table pages_number pagetype fuel
  return (ret, manipulatePhys table ret pages_number pagetype .SET)

def mfree (table : RamTable) (pointer : Word) (pages_number : Half)
    (pagetype : Nat) : RamTable :=
  manipulatePhys table pointer pages_number pagetype .CLEAR

/-- The copy that `backup` asks for does not concern the table. -/
def mrealloc (table : RamTable) (pointer : Word) (previous_pages new_pages : Half)
    (pagetype : Nat) : Option (Word × RamTable) := do
  let (newp, table) ← malloc memlen fuel table new_pages pagetype
  return (newp, mfree table pointer previous_pages pagetype)

/-- What `mem_realloc` comes to: a negative number, or a region whose new frames
are those that `get_free_phys` stored.  The tree may change either way. -/
inductive Reallocated where
  | refused (tree : WordMemory)
  | moved (addresses : List Word) (tree : WordMemory)

/-- The array `phys` of `mem_realloc`: the addresses of the old pages, over them,
from index `oldpages-1` on, the new ones, and elsewhere what the stack held.  Without old
pages that index is the last one of 32 bits, behind the array. -/
def reallocPhys (stack : Nat → Word) (oldpages : Nat) (old new : List Word)
    (h : Nat) : Word :=
  if oldpages ≠ 0 ∧ oldpages ≤ h + 1 ∧ h + 1 - oldpages < new.length then
    new.getD (h + 1 - oldpages) 0
  else old.getD h (stack h)

/-- A failure of `deallocate_vm` is signalled and otherwise ignored. -/
def memRealloc (table : RamTable) (tree : WordMemory) (pagetree vm : Word)
    (oldpages newpages : Half) (pagetype : Nat) (stack : Nat → Word) :
    Option Reallocated :=
  if oldpages > newpages then some (.refused tree)
  else
    let (_, old, tree) := deallocateVm tree pagetree vm oldpages.toNat
    let (found, tree) := vmtreeFetch pagetree tree newpages.toNat pagetype
    let vm := fetchedPointer found
    if vm = -1 then some (.refused tree)
    else do
      let (status, new) ← getFreePhys memlen table (newpages - oldpages) pagetype fuel
      if status ≠ 0 then return .refused tree
      else
        let templ := memreqTemplate pagetype .RESERVE Cache.WRITEBACK.code 0
        let (tree, off) := vmtoEntry vm tree pagetree
        let phys := reallocPhys stack oldpages.toNat old new
        return .moved new
          (storeWords tree off (fun h => templ ||| (phys h <<< 13)) newpages.toNat)

/-- The case `RESERVE` of `softfault_handler`: the address, the table and the
entry. -/
def softfaultReserve (table : RamTable) (entry : Word) (pagetype : Nat) :
    Option (Word × RamTable × Word) := do
  let (phys, table) ← malloc memlen fuel table 1#32 pagetype
  return (phys, table, entry ||| phys)

end Calls

end Mem
end BestKernel
