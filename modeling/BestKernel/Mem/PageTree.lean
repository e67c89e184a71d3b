import BestKernel.Library.Words
import Mathlib.Tactic.SplitIfs

/-!
# The page tree of a process

The functions of `Kingmem` that lay, search and walk a process' page tree.

The tree is a stretch of physical memory, here a `WordMemory`.  Pointer
arithmetic is that of the declared types: an index into a `uint64_t *` counts
words, the difference of two `void *` counts bytes.  Operators bind as in C++,
so the shift count in `vmto_entry` is `shift * get_multi_from_pagetype(..)` and
the one in `vmto_phys` is `18 + vm%..`.  A `ustd_t` is 32 bits wide and shifts
as such.  The literal of `1<<56` is read as a 64-bit one.

Names the source leaves undeclared are read as follows: `process->pagetree` in
`vmto_entry` is its parameter `pagetree`, `ret` in `vmtree_fetch` is the address
it is about to return, and a missing last argument of `memreq_template` is 0.
-/

namespace BestKernel
namespace Mem

open Machine

namespace Pag

/-- `enum pag` is kept as numbers, since the source computes with them. -/
abbrev LEV4 : Nat := 0
abbrev BIGPAGE : Nat := 1
abbrev MIDPAGE : Nat := 2
abbrev SMALLPAGE : Nat := 3

end Pag

/-- The page modes of bits 9-11. -/
inductive Mode where
  | SEGFAULT
  | MAP
  | RESERVE
  | SWAPPED
  | FILE
deriving DecidableEq, Repr

def Mode.code : Mode → Half
  | .SEGFAULT => 0
  | .MAP => 1
  | .RESERVE => 2
  | .SWAPPED => 3
  | .FILE => 4

/-- `enum cache`. -/
inductive Cache where
  | STRONGUNCACHEABLE
  | WRITETHROUGH
  | WRITEBACK
  | WEAKUNCACHEABLE
  | WRITEPROTECT
  | WRITECOMBINING
deriving DecidableEq, Repr

def Cache.code : Cache → Half
  | .STRONGUNCACHEABLE => 0
  | .WRITETHROUGH => 1
  | .WRITEBACK => 2
  | .WEAKUNCACHEABLE => 3
  | .WRITEPROTECT => 4
  | .WRITECOMBINING => 5

def getMultiFromPagetype (pagetype : Nat) : Nat :=
  if pagetype = Pag.MIDPAGE then 4096 * 512
  else if pagetype = Pag.BIGPAGE then 4096 * 512 * 512
  else 4096

theorem getMultiFromPagetype_ge (pagetype : Nat) :
    4096 ≤ getMultiFromPagetype pagetype := by
  unfold getMultiFromPagetype
  split_ifs <;> omega

/-- The size of a page as the `ustd_t` that it is. -/
def multiplierOf (pagetype : Nat) : Half :=
  BitVec.ofNat 32 (getMultiFromPagetype pagetype)

theorem multiplierOf_ne_zero (pagetype : Nat) : multiplierOf pagetype ≠ 0 := by
  unfold multiplierOf getMultiFromPagetype
  split_ifs <;> decide

/-- `pagetype_roundup`: a multiple goes up to the next number of pages, everything
else down. -/
def pagetypeRoundup {w : Nat} (integer : BitVec w) (pagetype : Nat) : BitVec w :=
  let divider := (multiplierOf pagetype).setWidth w
  if integer % divider ≠ 0 then integer / divider else integer / divider + 1

/-- `ror32`, the shift of the low half, `rol32`. -/
def shiftHighHalf (cache : Half) : Half :=
  let turned := cache.rotateRight 16
  let shifted := (turned &&& 0xFFFF0000#32) ||| ((turned <<< 5) &&& 0x0000FFFF#32)
  shifted.rotateLeft 16

def memreqTemplate (pagetype : Nat) (mode : Mode) (cache exec : Half) : Word :=
  let cache := if pagetype ≠ Pag.SMALLPAGE then shiftHighHalf cache else cache
  ((mode.code <<< 9) ||| cache ||| shl exec 63 ||| 1#32).setWidth 64

/-- Every template carries the present bit. -/
theorem memreqTemplate_getLsbD_zero
    (pagetype : Nat) (mode : Mode) (cache exec : Half) :
    (memreqTemplate pagetype mode cache exec).getLsbD 0 = true := by
  simp [memreqTemplate]

/-- A template is a 32-bit value. -/
theorem memreqTemplate_getLsbD_high
    (pagetype : Nat) (mode : Mode) (cache exec : Half) {i : Nat}
    (hi : 32 ≤ i) :
    (memreqTemplate pagetype mode cache exec).getLsbD i = false := by
  rw [memreqTemplate, BitVec.getLsbD_setWidth, BitVec.getLsbD_of_ge _ _ hi]
  simp

/-- A template clears the occupancy bit. -/
theorem bitSet_memreqTemplate_occupied
    (pagetype : Nat) (mode : Mode) (cache exec : Half) :
    bitSet (memreqTemplate pagetype mode cache exec) 56 = false := by
  rw [bitSet_eq_getLsbD _ (by decide)]
  exact memreqTemplate_getLsbD_high pagetype mode cache exec (by decide)

theorem bitSet_memreqTemplate_present
    (pagetype : Nat) (mode : Mode) (cache exec : Half) :
    bitSet (memreqTemplate pagetype mode cache exec) 0 = true := by
  rw [bitSet_eq_getLsbD _ (by decide)]
  exact memreqTemplate_getLsbD_zero pagetype mode cache exec

/-- The loop of `offset_by_depth`, from `i` on, with its `ret` and `h`. -/
def offsetByDepthLoop : Nat → Word → Half → Word
  | 0, ret, _ => ret
  | steps + 1, ret, h => offsetByDepthLoop steps (ret + h.setWidth 64) (h * 512)

def offsetByDepth (pagetree : Word) (pagetype : Nat) : Word :=
  if pagetype = 0 then pagetree
  else offsetByDepthLoop (pagetype - 1) (512 * 8) 512

section Walk

variable (vm : Word)

/-- The loop of `vmto_entry`, with `steps` rounds left from level `g` on. -/
def vmtoEntryLoop : Nat → Nat → WordMemory → Word → WordMemory × Word
  | 0, _, m, ret => (m, ret)
  | steps + 1, g, m, ret =>
      let shift := 12 + 9 * g - 9
      let count := shift * getMultiFromPagetype (Pag.SMALLPAGE - g) % 2 ^ 32
      let ret := ret + 8#64 * shr (shl vm (64 - shift)) count
      -- needed for `vmtree_fetch`, which finds fathering directories signed here
      let m := Function.update m ret (setBit (m ret) 56)
      if bitSet (m ret) 7 then (m, ret)
      else vmtoEntryLoop steps (g + 1) m ret

/-- The memory after the walk and the entry it ends at.  The page type handed
back through the pointer argument is always 0. -/
def vmtoEntry (m : WordMemory) (pagetree : Word) : WordMemory × Word :=
  vmtoEntryLoop vm (Pag.SMALLPAGE - 1) 1 m pagetree

end Walk

/-- The page type that `vmto_entry` reports. -/
abbrev walkedPagetype : Nat := 0

/-- Physical translation.  The returned memory carries the walk's signatures. -/
def vmtoPhys (m : WordMemory) (pagetree vm : Word) : WordMemory × Word :=
  let (m, entry) := vmtoEntry vm m pagetree
  if entry = 0 then (m, entry)
  else (m, shr (m entry <<< 5) (18 + vm.toNat % getMultiFromPagetype walkedPagetype))

/-- The loop of `entryto_vm`, from level `i` down to 1. -/
def entrytoVmLoop : Nat → Half → Word → Word
  | 0, _, vm => vm
  | i + 1, whatever, vm =>
      let g := BitVec.ofNat 32 (getMultiFromPagetype (i + 1))
      let vm := vm ||| (shl (whatever / g) (12 + 9 * (i + 1))).setWidth 64
      entrytoVmLoop i (whatever % g) vm

def entrytoVm (pagetree entry : Word) : Word :=
  entrytoVmLoop Pag.SMALLPAGE ((entry - pagetree).setWidth 32) 0

section Search

variable (pagetree : Word)

/-- What ends the inner loop of `vmtree_fetch` at entry `iterator`. -/
def fetchBlocked (m : WordMemory) (pointer : Word) (iterator : Nat) : Bool :=
  iterator % 512 == 0 ||
    !bitSet (m (wordAt pointer iterator)) 0 ||
    bitSet (m (wordAt pointer iterator)) 56

/-- The inner loop: how far `j` gets, with `left` rounds to go. -/
def fetchInner (m : WordMemory) (pointer : Word) (iterator : Nat) : Nat → Nat → Nat
  | 0, j => j
  | left + 1, j =>
      if fetchBlocked m pointer iterator then j
      else fetchInner m pointer iterator left (j + 1)

/-- The outer loop, with `left` entries to go from `iterator` on. -/
def fetchLoop (pages_number : Nat) (pointer : Word) :
    Nat → Nat → WordMemory → Option Word × WordMemory
  | 0, _, m => (none, m)
  | left + 1, iterator, m =>
      if fetchInner m pointer iterator pages_number 0 ≠ pages_number then
        fetchLoop pages_number pointer left (iterator + 1) m
      else
        let vm := entrytoVm pagetree (wordAt pointer iterator)
        let (m, entry) := vmtoEntry vm m pagetree
        if entry = wordAt pointer iterator then (some vm, m)
        else fetchLoop pages_number pointer left (iterator + 1) m

/-- The region found, or `none` where the source returns `NULLPTR`, and the
memory with the signatures of every walk made on the way. -/
def vmtreeFetch (m : WordMemory) (pages_number pagetype : Nat) :
    Option Word × WordMemory :=
  fetchLoop pagetree pages_number (offsetByDepth pagetree pagetype)
    (getMultiFromPagetype pagetype / 4096) 0 m

end Search

/-- The value of the pointer `vmtree_fetch` returns. -/
def fetchedPointer : Option Word → Word
  | some vm => vm
  | none => 0

/-- The levels below the top one, all laid from the same `something`. -/
def vmtreeLayLevels (something : Word) : Nat → Nat → Half → WordMemory → WordMemory
  | 0, _, _, m => m
  | left + 1, g, level_length, m =>
      let default_entry := memreqTemplate Pag.BIGPAGE .SEGFAULT Cache.WRITEBACK.code 0
      let level_length := level_length * 512
      let entry := fun i =>
        if g ≠ Pag.SMALLPAGE then
          default_entry ||| ((something + (BitVec.ofNat 32 (i * 512)).setWidth 64) <<< 13)
        else default_entry
      vmtreeLayLevels something left (g + 1) level_length
        (storeWords m something entry level_length.toNat)

/-- The root entries that the second loop signs, up to `512-expected_usage` in the 32 bits of
an `ustd_t`. -/
def uselessEntries (expected_usage : Nat) : Nat :=
  ((512 : Half) - BitVec.ofNat 32 expected_usage).toNat - expected_usage

theorem uselessEntries_of_le
    {expected_usage : Nat}
    (h : expected_usage ≤ 512) :
    uselessEntries expected_usage = 512 - expected_usage - expected_usage := by
  unfold uselessEntries
  rw [BitVec.toNat_sub, BitVec.toNat_ofNat]
  have hbound : (512 : Half).toNat = 512 := rfl
  omega

/-- Lay a page tree.  `expected_usage` is a constant of the build. -/
def vmtreeLay (expected_usage : Nat) (m : WordMemory) (location : Word) : WordMemory :=
  let default_entry := memreqTemplate Pag.BIGPAGE .SEGFAULT Cache.WRITEBACK.code 0
  let level_length : Half := 512 * 8
  let something := wordAt location level_length.toNat
  let entry := fun i =>
    default_entry ||| ((something + (BitVec.ofNat 32 (i * 512)).setWidth 64) <<< 13)
  let m := storeWords m location entry expected_usage
  let m := storeWords m (wordAt location expected_usage)
    (fun i => entry (expected_usage + i)) (uselessEntries expected_usage)
  vmtreeLayLevels something (Pag.SMALLPAGE + 1) 0 level_length m

/-- `deallocate_vm`: its status, the physical addresses it collects and the
memory. -/
def deallocateVm (m : WordMemory) (pagetree vm : Word) (pages_number : Nat) :
    Nat × List Word × WordMemory :=
  let (m, entries) := vmtoEntry vm m pagetree
  if entries = 0 then (1, [], m)
  else if (List.range pages_number).any fun h => bitSet (m (wordAt entries h)) 2 then
    (3, [], m)
  else
    let physret := (List.range pages_number).map fun h =>
      shr (m (wordAt entries h) <<< 5) 18
    let templ := memreqTemplate walkedPagetype .SEGFAULT Cache.WRITEBACK.code 0
    (0, physret, storeWords m entries (fun _ => templ) pages_number)

/-- `mem_alloc`: the region the search found and the memory. -/
def memAlloc (m : WordMemory) (pagetree : Word) (pagetype pages_number : Nat) :
    Option Word × WordMemory :=
  let templ := memreqTemplate pagetype .RESERVE 0 0
  let (found, m) := vmtreeFetch pagetree m pages_number pagetype
  let ret := fetchedPointer found
  if ret = -1 then (none, m)
  else
    let (m, off) := vmtoEntry ret m pagetree
    (found, storeWords m off (fun _ => templ) pages_number)

/-- `mem_map`: the region the search found and the memory.  The walk has set
`pagetype` to 0 by the time the page size is computed. -/
def memMap (m : WordMemory) (pagetree target : Word) (pagetype pages_number : Nat)
    (cache : Half) : Option Word × WordMemory :=
  let templ := memreqTemplate pagetype .MAP cache 0
  let (found, m) := vmtreeFetch pagetree m pages_number pagetype
  let ret := fetchedPointer found
  if ret = -1 then (none, m)
  else
    let (m, off) := vmtoEntry ret m pagetree
    let addition := getMultiFromPagetype walkedPagetype
    (found, storeWords m off
      (fun h => templ ||| ((target + (BitVec.ofNat 32 (addition * h)).setWidth 64) <<< 13))
      pages_number)

/-- The part of `mem_free` that concerns the tree: whether it went through, the
addresses it hands to `manipulate_phys`, and the memory. -/
def memFree (m : WordMemory) (pagetree vm : Word) (pages_number pagetype : Nat) :
    Bool × List Word × WordMemory :=
  let (status, phys, m) := deallocateVm m pagetree vm pages_number
  if status ≠ 0 then (false, [], m)
  else
    let templ := memreqTemplate pagetype .RESERVE Cache.WRITEBACK.code 0
    let (m, off) := vmtoEntry vm m pagetree
    (true, phys, storeWords m off (fun _ => templ) pages_number)

/-- `mem_unmap`: whether it went through, and the memory. -/
def memUnmap (m : WordMemory) (pagetree vm : Word) (pages_number pagetype : Nat) :
    Bool × WordMemory :=
  let (m, off) := vmtoEntry vm m pagetree
  let templ := memreqTemplate pagetype .RESERVE Cache.WRITEBACK.code 0
  if (List.range pages_number).any fun h =>
      bitSet (m (wordAt off h)) 2 ||
        (m (wordAt off h) <<< 53) >>> 61 != Mode.MAP.code.setWidth 64 then
    (false, m)
  else (true, storeWords m off (fun _ => templ) pages_number)

end Mem
end BestKernel
