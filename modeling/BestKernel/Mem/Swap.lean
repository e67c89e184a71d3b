import BestKernel.Mem.Bitmap

/-!
# Swapping

`swap_process` walks a page tree, asks the partitions one after the other for
room and stores what it gets with `exchange_swap`; `hardfault_handler` is meant
to undo it.

Readings of the source.  The two counters of `swap_process` are locals that
start at 0 and are not reset between pages; `pointer[i]` is handed to
`exchange_swap` by its address.  What the pools of the partitions answer is a
parameter, given the partition and the number of calls made before.
`BLOOD_LIBEL`, which marks a process and touches no tree, is taken to return.  `SWAP` is
the signature `SWAP` followed by four zero bytes, and `raw_read` gets the swap
number and the position, both computed from the entry.

The encoder writes the mode to bits 10 and 11 as `3<<10`; the decoder compares
bits 2 to 11, all ten of them, with 3.  So no entry that was swapped out is ever
recognised (`hardfaultHandler_exchangeSwap`).
-/

namespace BestKernel
namespace Mem

open Machine

/-- The entry that `exchange_swap` stores and the address that it returns. -/
def exchangeSwap (entry diskpos : Word) (swap_number : Half) : Word × Word :=
  let new_entry := (entry <<< 55) >>> 55
  let ret := (entry <<< 5) >>> 18
  (diskpos ||| new_entry ||| (3#64 <<< 10) ||| (shl swap_number 57).setWidth 64, ret)

section SwapProcess

/-- What a partition's pool answers to its request, after `calls` earlier ones. -/
abbrev PoolAnswers := Nat → Half → Half → Word

/-- The counters of `swap_process`. -/
structure SwapCounters where
  part_counter : Nat
  swap_counter : Half

/-- A place on a disk: the partition that had room, the position there and the
number that is stored with it. -/
structure DiskPlace where
  part : Nat
  diskpos : Word
  swap_number : Half

/-- One round of the search for a place. -/
def placeRound (answers : PoolAnswers) (pages_number : Half) (c : SwapCounters) :
    SwapCounters ⊕ DiskPlace × SwapCounters :=
  let diskpos := answers c.part_counter c.swap_counter pages_number
  let next : SwapCounters := ⟨c.part_counter + 1, c.swap_counter + 1⟩
  if diskpos = 0 then .inl next
  else .inr (⟨c.part_counter, diskpos, next.swap_counter⟩, next)

def findPlace (answers : PoolAnswers) (pagetype fuel : Nat) (c : SwapCounters) :
    Option (DiskPlace × SwapCounters) :=
  Loops.run (placeRound answers (multiplierOf pagetype / 4096)) fuel c

/-- The locals of `swap_process` and the memory it changes. -/
structure SwapState where
  pointer : Word
  scaling : Half
  i : Half
  counters : SwapCounters
  mem : WordMemory
  table : RamTable

variable (answers : PoolAnswers) (sizeof_ram used_memory : Word) (fuel : Nat)

/-- Swap out the page of the entry at `a`. -/
def SwapState.swapPage (s : SwapState) (a : Word) (pagetype : Nat) : Option SwapState := do
  let (place, counters) ← findPlace answers pagetype fuel s.counters
  let (entry, phys) := exchangeSwap (s.mem a) place.diskpos place.swap_number
  return { s with
    counters := counters
    mem := Function.update s.mem a entry
    table := manipulatePhys s.table phys 1#32 pagetype .SET }

/-- `i == scaling*interval` -/
def SwapState.atEnd (s : SwapState) : Prop := s.i = s.scaling * 512

instance (s : SwapState) : Decidable s.atEnd :=
  inferInstanceAs (Decidable (_ = _))

/-- On to the next level, when the current one is done. -/
def SwapState.descend (s : SwapState) : SwapState :=
  if s.atEnd then
    { s with pointer := wordAt s.pointer s.i.toNat, scaling := s.scaling * 512 }
  else s

/-- The tests and the work on the entry at `i`. -/
def swapEntry (s : SwapState) : SwapState ⊕ Option SwapState :=
  let pagetype := Pag.LEV4
  let a := wordAt s.pointer s.i.toNat
  let flag := if s.scaling = 512 * 512 * 512 then 56 else 7
  if ¬ sizeof_ram / used_memory < 2 then .inr (some s)
  else if ¬ bitSet (s.mem a) flag then .inl { s with i := s.i + 1 }
  else
    match s.swapPage answers fuel a pagetype with
    | none => .inr none
    | some s => .inl { s with i := s.i + 1 }

/-- One round of the walk; it leaves with `none` when a search does not end. -/
def swapRound (s : SwapState) : SwapState ⊕ Option SwapState :=
  let t := s.descend
  if s.atEnd then
    if t.scaling < multiplierOf Pag.LEV4 then .inr (some t)
    else swapEntry answers sizeof_ram used_memory fuel { t with i := 0 }
  else swapEntry answers sizeof_ram used_memory fuel t

def swapProcess (mem : WordMemory) (table : RamTable) (pagetree : Word) :
    Option (Option SwapState) :=
  Loops.run (swapRound answers sizeof_ram used_memory fuel) fuel
    ⟨pagetree, 512, 0, ⟨0, 0⟩, mem, table⟩

end SwapProcess

/-- The table of partitions, as far as swapping looks at it. -/
structure Partitions where
  length : Half
  ckarray : Nat → Byte
  signature : Nat → Word

abbrev SWAP : Word := 0x50415753#64

/-- The loop over the partitions: where it stops, if anywhere, and the count. -/
def partitionLoop (disks : Partitions) : Nat → Nat → Half → Option Nat × Half
  | 0, _, ct => (none, ct)
  | left + 1, i, ct =>
      if disks.ckarray i = 0 then partitionLoop disks left (i + 1) ct
      else
        let ct := if disks.signature i = SWAP then ct - 1 else ct
        if ct = 0 then (some i, ct) else partitionLoop disks left (i + 1) ct

/-- How `hardfault_handler` ends: a signal, or a page read back with the
partition selected, what `raw_read` was given and the new entry. -/
inductive Hardfault where
  | sigsegv
  | sigkill
  | readback (part : Option Nat) (swap_number position entry : Word)
deriving DecidableEq

/-- The test for a page that was swapped out. -/
def swappedOut (entry : Word) : Bool :=
  (entry <<< 52) >>> 54 == Mode.SWAPPED.code.setWidth 64

/-- `phys` is what `malloc` returned. -/
def hardfaultHandler (disks : Partitions) (entry phys : Word) (pagetype : Nat) :
    Hardfault :=
  if swappedOut entry then
    let number := (entry <<< 1) >>> 58
    let (part, ct) := partitionLoop disks disks.length.toNat 0 (number.setWidth 32)
    if ct ≠ 0 then .sigkill
    else
      .readback part number ((entry <<< 16) >>> 29)
        (memreqTemplate pagetype .RESERVE Cache.WRITEBACK.code 0 |||
          ((phys <<< 5) >>> 18))
  else .sigsegv

/-- The frame an entry points at. -/
def entryFrame (entry : Word) : Word := (entry <<< 5) >>> 18

def entryMode (entry : Word) : Word := (entry <<< 52) >>> 61

/-- A page swapped out to a place and faulted in again is back: the partition and
the position are the stored ones, the entry is a reserved one for the new frame,
and the exchange has given up the old frame and kept the flags. -/
def SwapLossless (disks : Partitions) (entry : Word) (place : DiskPlace) (phys : Word)
    (pagetype : Nat) : Prop :=
  let (entry', ret) := exchangeSwap entry place.diskpos place.swap_number
  (∃ number back,
    hardfaultHandler disks entry' phys pagetype =
        .readback (some place.part) number place.diskpos back ∧
      entryMode back = Mode.RESERVE.code.setWidth 64 ∧ entryFrame back = phys) ∧
  ret = entryFrame entry ∧ entry' &&& 0x1FF#64 = entry &&& 0x1FF#64

/-- Bit 10 is set in whatever `exchange_swap` stores. -/
theorem getLsbD_exchangeSwap (entry diskpos : Word) (swap_number : Half) :
    (exchangeSwap entry diskpos swap_number).1.getLsbD 10 = true := by
  simp [exchangeSwap]

/-- An entry with bit 10 set is not taken for one that was swapped out. -/
theorem swappedOut_of_getLsbD
    {entry : Word}
    (h : entry.getLsbD 10 = true) :
    swappedOut entry = false := by
  have hbit : ((entry <<< 52) >>> 54).getLsbD 8 = true := by
    simpa using h
  rw [swappedOut, beq_eq_false_iff_ne]
  intro heq
  rw [heq] at hbit
  exact absurd hbit (by decide)

/-- **An entry that `exchange_swap` has stored is never recognised.** -/
theorem hardfaultHandler_exchangeSwap
    (disks : Partitions) (entry diskpos phys : Word) (swap_number : Half)
    (pagetype : Nat) :
    hardfaultHandler disks (exchangeSwap entry diskpos swap_number).1 phys pagetype =
      .sigsegv := by
  rw [hardfaultHandler, swappedOut_of_getLsbD (getLsbD_exchangeSwap _ _ _)]
  rfl

/-- **No page comes back.** -/
theorem not_swapLossless
    (disks : Partitions) (entry : Word) (place : DiskPlace) (phys : Word)
    (pagetype : Nat) :
    ¬ SwapLossless disks entry place phys pagetype := by
  rintro ⟨⟨number, back, hread, _⟩, _⟩
  have hsegv := hardfaultHandler_exchangeSwap disks entry place.diskpos phys
    place.swap_number pagetype
  exact Hardfault.noConfusion (hsegv.symm.trans hread)

/-- What the exchange itself promises holds for positions above the flags. -/
theorem exchangeSwap_keeps
    (entry : Word) {diskpos : Word} (swap_number : Half)
    (hposition : ∀ i, i < 9 → diskpos.getLsbD i = false) :
    (exchangeSwap entry diskpos swap_number).2 = entryFrame entry ∧
      (exchangeSwap entry diskpos swap_number).1 &&& 0x1FF#64 = entry &&& 0x1FF#64 := by
  refine ⟨rfl, ?_⟩
  apply BitVec.eq_of_getLsbD_eq
  intro i hi
  have hmask : (0x1FF#64).getLsbD i = decide (i < 9) := by
    rw [show (0x1FF#64) = (BitVec.allOnes 9).setWidth 64 by decide, BitVec.getLsbD_setWidth,
      BitVec.getLsbD_allOnes]
    simp [hi]
  rw [BitVec.getLsbD_and, BitVec.getLsbD_and, hmask]
  by_cases hlow : i < 9
  · have hflags : ((entry <<< 55) >>> 55).getLsbD i = entry.getLsbD i := by
      simp only [BitVec.getLsbD_ushiftRight, BitVec.getLsbD_shiftLeft]
      simp [show 55 + i < 64 by omega]
    have hmode : (3#64 <<< 10).getLsbD i = false := by
      rw [BitVec.getLsbD_shiftLeft]
      simp [show i < 10 by omega]
    have hnumber : ((shl swap_number 57).setWidth 64).getLsbD i = false := by
      rw [BitVec.getLsbD_setWidth, shl, BitVec.getLsbD_shiftLeft]
      simp [show i < 25 by omega]
    rw [exchangeSwap, BitVec.getLsbD_or, BitVec.getLsbD_or, BitVec.getLsbD_or, hflags, hmode,
      hnumber, hposition i hlow]
    simp
  · simp [hlow]

section Runs

variable {answers : PoolAnswers} {sizeof_ram used_memory : Word} {fuel : Nat}

/-- Every entry is as it was or one that `exchange_swap` has stored. -/
def OnlySwapped (mem : WordMemory) (s : SwapState) : Prop :=
  ∀ a, s.mem a = mem a ∨ swappedOut (s.mem a) = false

theorem onlySwapped_swapPage
    {mem : WordMemory} {s s' : SwapState} {a : Word} {pagetype : Nat}
    (h : OnlySwapped mem s)
    (hpage : s.swapPage answers fuel a pagetype = some s') :
    OnlySwapped mem s' := by
  unfold SwapState.swapPage at hpage
  cases hplace : findPlace answers pagetype fuel s.counters with
  | none => simp [hplace] at hpage
  | some found =>
      simp only [hplace, Option.bind_eq_bind, Option.bind_some, Option.pure_def,
        Option.some.injEq] at hpage
      subst hpage
      intro b
      dsimp only
      by_cases hb : b = a
      · subst hb
        right
        rw [Function.update_self]
        exact swappedOut_of_getLsbD (getLsbD_exchangeSwap _ _ _)
      · rw [Function.update_of_ne hb]
        exact h b

/-- What a round goes on or leaves with. -/
def RoundKeeps (mem : WordMemory) : SwapState ⊕ Option SwapState → Prop
  | .inl s => OnlySwapped mem s
  | .inr none => True
  | .inr (some s) => OnlySwapped mem s

theorem roundKeeps_swapEntry
    {mem : WordMemory} {s : SwapState}
    (h : OnlySwapped mem s) :
    RoundKeeps mem (swapEntry answers sizeof_ram used_memory fuel s) := by
  unfold swapEntry
  dsimp only
  by_cases hmemory : ¬ sizeof_ram / used_memory < 2
  · rw [if_pos hmemory]
    exact h
  · rw [if_neg hmemory]
    generalize (if s.scaling = 512 * 512 * 512 then 56 else 7) = flag
    by_cases hflag : ¬ bitSet (s.mem (wordAt s.pointer s.i.toNat)) flag = true
    · rw [if_pos hflag]
      exact h
    · rw [if_neg hflag]
      cases hpage : s.swapPage answers fuel (wordAt s.pointer s.i.toNat) Pag.LEV4 with
      | none => trivial
      | some s' =>
          have hswapped : OnlySwapped mem s' := onlySwapped_swapPage h hpage
          exact hswapped

theorem roundKeeps_swapRound
    {mem : WordMemory} {s : SwapState}
    (h : OnlySwapped mem s) :
    RoundKeeps mem (swapRound answers sizeof_ram used_memory fuel s) := by
  have hdescend : s.descend.mem = s.mem := by
    unfold SwapState.descend
    split_ifs <;> rfl
  have h' : OnlySwapped mem s.descend := by
    intro a
    rw [hdescend]
    exact h a
  unfold swapRound
  dsimp only
  split_ifs
  · exact h'
  · exact roundKeeps_swapEntry h'
  · exact roundKeeps_swapEntry h'

/-- **No page that a run of `swap_process` swaps out is recognised later.** -/
theorem swapProcess_onlySwapped
    {mem : WordMemory} {table : RamTable} {pagetree : Word} {s : SwapState}
    (h : swapProcess answers sizeof_ram used_memory fuel mem table pagetree =
      some (some s)) :
    OnlySwapped mem s := by
  have hnext : ∀ t t', OnlySwapped mem t →
      swapRound answers sizeof_ram used_memory fuel t = .inl t' → OnlySwapped mem t' := by
    intro t t' ht hround
    change RoundKeeps mem (.inl t')
    rw [← hround]
    exact roundKeeps_swapRound ht
  have hexit : ∀ t r, OnlySwapped mem t →
      swapRound answers sizeof_ram used_memory fuel t = .inr r →
      RoundKeeps mem (.inr r) := by
    intro t r ht hround
    rw [← hround]
    exact roundKeeps_swapRound ht
  have hstart : OnlySwapped mem ⟨pagetree, 512, 0, ⟨0, 0⟩, mem, table⟩ :=
    fun _ => Or.inl rfl
  exact Loops.run_invariant hnext hexit hstart h

end Runs

section Examples

/-- One swap partition, and a pool that has room at position 8192. -/
def oneSwapDisk : Partitions := ⟨1, fun _ => 1, fun _ => SWAP⟩

def roomAnswers : PoolAnswers := fun _ _ _ => 8192#64

/-- A reserved entry for the frame at 4096. -/
def residentEntry : Word :=
  memreqTemplate Pag.SMALLPAGE .RESERVE Cache.WRITEBACK.code 0 ||| (4096#64 <<< 13)

/-- A place with all its fields in range, and a page that does not come back. -/
theorem residentEntry_not_lossless :
    findPlace roomAnswers Pag.LEV4 1 ⟨0, 0⟩ = some (⟨0, 8192#64, 1⟩, ⟨1, 1⟩) ∧
      entryMode residentEntry = Mode.RESERVE.code.setWidth 64 ∧
      ¬ SwapLossless oneSwapDisk residentEntry ⟨0, 8192#64, 1⟩ 4096#64 Pag.LEV4 := by
  refine ⟨rfl, by decide, ?_⟩
  rintro ⟨⟨number, back, hread, _⟩, _⟩
  have hsegv := hardfaultHandler_exchangeSwap oneSwapDisk residentEntry 8192#64 4096#64 1
    Pag.LEV4
  exact Hardfault.noConfusion (hsegv.symm.trans hread)

end Examples

end Mem
end BestKernel
