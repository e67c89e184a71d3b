import BestKernel.Mem.PageTree

/-!
# Entries of mapped files

`fmap` writes one entry for every page of a mapping.  Four places read such an
entry back: `softfault_handler`, which replaces it by a resident one, and then
`SYS_FUNMAP` and `recursive_free`.  Each has shifts of its own.

Readings of the source.  `desc<<13 | g<<46` and `desc<<48` are computed in the 32
bits of a `ustd_t`.  `file->mem`, `file->shared_contents` and `listeners` are one
memory file and its `ckarray`.  In `recursive_free` the pointer `dub` is not
advanced, so every round compares the first page.

`fmap` writes mode `MAP`, bit 9, and the switch of `softfault_handler` compares
bits 1 to 11 with 4, so the case `FILE` is never entered for what `fmap` wrote
(`softfaultHandler_fmapEntry`).
-/

namespace BestKernel
namespace Vfs

open Machine Mem

/-- The contents of a file: its pages in memory, and how they are mapped. -/
structure MemFile where
  pool : Nat → Word
  length : Half
  listeners : Nat → Byte
  mapped_pagetype : Nat
  cache : Half
  executable : Half
  mode : Half

/-- The entry that `fmap` writes for page `g`. -/
def fmapEntry (desc g : Half) (mapped_pagetype : Nat) : Word :=
  let pipe := (shl desc 13 ||| shl g 46).setWidth 64
  pipe ||| memreqTemplate mapped_pagetype .MAP Cache.WRITEBACK.code 0

/-- `load_page`: the address and the file.  `fresh` is what `malloc` returns for a
page that is not in memory. -/
def loadPage (file : MemFile) (page : Half) (fresh : Word) : Word × MemFile :=
  if page > file.length then (1, file)
  else if file.pool page.toNat = 0 then
    (fresh, { file with pool := Function.update file.pool page.toNat fresh })
  else (file.pool page.toNat, file)

/-- What `softfault_handler` does about an entry.  In the case `FILE`: the numbers
it decodes, the new entry and the file. -/
inductive Softfault where
  | reserve (entry : Word)
  | file (desc page : Half) (entry : Word) (loaded : MemFile)
  | segfault
  | ignored

/-- The value that `softfault_handler` switches on. -/
def faultMode (entry : Word) : Word := (entry <<< 52) >>> 53

section Decoders

variable (fileOf : Half → MemFile) (fresh : Word)

/-- The switch.  `fileOf` gives the file of a descriptor, `fresh` what `malloc`
returns.  The signal for a supervisor page, sent before, changes nothing here. -/
def softfaultHandler (entry : Word) (pagetype : Nat) : Softfault :=
  let mode := faultMode entry
  if mode = Mode.RESERVE.code.setWidth 64 then .reserve (entry ||| fresh)
  else if mode = Mode.FILE.code.setWidth 64 then
    let desc : Half := ((entry <<< 18) >>> 32).setWidth 32
    let page : Half := ((entry <<< 1) >>> 49).setWidth 32
    let file := fileOf desc
    let (address, loaded) := loadPage file page fresh
    .file desc page
      (address ||| memreqTemplate pagetype .MAP file.cache file.executable |||
        (shl desc 48).setWidth 64)
      loaded
  else if mode = Mode.SEGFAULT.code.setWidth 64 then .segfault
  else .ignored

end Decoders

/-- The descriptor that `SYS_FUNMAP` takes from an entry. -/
def funmapDesc (entry : Word) : Word := (entry <<< 16) >>> 48

/-- The loop of `SYS_FUNMAP` for the starting page. -/
def funmapLoop (file : MemFile) (phys : Word) : Nat → Nat → Nat
  | 0, i => i
  | left + 1, i =>
      if ¬ phys < file.pool i then i else funmapLoop file phys left (i + 1)

def funmapPage (file : MemFile) (entry : Word) (multi : Nat) : Nat :=
  let phys := ((entry <<< 16) >>> 29) / BitVec.ofNat 64 multi
  funmapLoop file phys file.length.toNat 0

/-- The descriptor that `recursive_free` takes from an entry. -/
def recursiveFreeDesc (entry : Word) : Word := (entry <<< 1) >>> 49

/-- The loop of `recursive_free` for the page. -/
def recursiveFreeLoop (file : MemFile) (comp : Word) : Nat → Nat → Option Nat
  | 0, _ => none
  | left + 1, k =>
      if file.pool 0 = comp then some k else recursiveFreeLoop file comp left (k + 1)

def recursiveFreePage (file : MemFile) (entry : Word) : Option Nat :=
  recursiveFreeLoop file ((entry <<< 16) >>> 29) file.length.toNat 0

/-- What `SYS_FMAP` asks of a descriptor number. -/
def fmapAccepts (desc count : Half) (ckarray : Nat → Byte) : Prop :=
  ¬ desc > 1#32 <<< 14 ∧ count > desc ∧ ckarray desc.toNat ≠ 0

instance (desc count : Half) (ckarray : Nat → Byte) :
    Decidable (fmapAccepts desc count ckarray) :=
  inferInstanceAs (Decidable (_ ∧ _ ∧ _))

/-- The entry for page `g` decodes to it, before and after it is resident. -/
def FileMappingDecodes (fileOf : Half → MemFile) (fresh : Word) (desc g : Half)
    (pagetype : Nat) : Prop :=
  ∃ resident loaded,
    softfaultHandler fileOf fresh (fmapEntry desc g (fileOf desc).mapped_pagetype)
        pagetype =
      .file desc g resident loaded ∧
    funmapDesc resident = desc.setWidth 64 ∧
    funmapPage loaded resident (getMultiFromPagetype walkedPagetype) = g.toNat ∧
    recursiveFreeDesc resident = desc.setWidth 64 ∧
    recursiveFreePage loaded resident = some g.toNat

/-- Bit 9, the mode `MAP`, is set in every template of that mode. -/
theorem getLsbD_memreqTemplate_map
    (pagetype : Nat) (cache exec : Half) :
    (memreqTemplate pagetype .MAP cache exec).getLsbD 9 = true := by
  simp [memreqTemplate, Mode.code]

theorem getLsbD_fmapEntry (desc g : Half) (mapped_pagetype : Nat) :
    (fmapEntry desc g mapped_pagetype).getLsbD 9 = true := by
  rw [fmapEntry, BitVec.getLsbD_or, getLsbD_memreqTemplate_map, Bool.or_true]

/-- An entry with bit 9 set falls through the switch. -/
theorem softfaultHandler_of_getLsbD
    {entry : Word} (fileOf : Half → MemFile) (fresh : Word) (pagetype : Nat)
    (h : entry.getLsbD 9 = true) :
    softfaultHandler fileOf fresh entry pagetype = .ignored := by
  have hbit : (faultMode entry).getLsbD 8 = true := by
    simpa [faultMode] using h
  have hne : ∀ mode : Mode, faultMode entry ≠ mode.code.setWidth 64 := by
    intro mode heq
    rw [heq] at hbit
    revert hbit
    cases mode <;> decide
  unfold softfaultHandler
  dsimp only
  rw [if_neg (hne .RESERVE), if_neg (hne .FILE), if_neg (hne .SEGFAULT)]

/-- **What `fmap` writes never enters the case `FILE`.** -/
theorem softfaultHandler_fmapEntry
    (fileOf : Half → MemFile) (fresh : Word) (desc g : Half)
    (mapped_pagetype pagetype : Nat) :
    softfaultHandler fileOf fresh (fmapEntry desc g mapped_pagetype) pagetype =
      .ignored :=
  softfaultHandler_of_getLsbD fileOf fresh pagetype (getLsbD_fmapEntry _ _ _)

/-- **No entry of a mapped file decodes to what was encoded.** -/
theorem not_fileMappingDecodes
    (fileOf : Half → MemFile) (fresh : Word) (desc g : Half) (pagetype : Nat) :
    ¬ FileMappingDecodes fileOf fresh desc g pagetype := by
  rintro ⟨resident, loaded, hfault, _⟩
  rw [softfaultHandler_fmapEntry] at hfault
  cases hfault

/-- A file of one page at address 4096. -/
def onePageFile : MemFile where
  pool := fun _ => 4096#64
  length := 1
  listeners := fun _ => 0
  mapped_pagetype := Pag.SMALLPAGE
  cache := Cache.WRITEBACK.code
  executable := 0
  mode := 0

/-- Page 0 of a file mapped through descriptor 0. -/
theorem onePageFile_not_decoded :
    fmapAccepts 0 1 (fun _ => 1) ∧
      ¬ FileMappingDecodes (fun _ => onePageFile) 0 0 0 Pag.LEV4 := by
  refine ⟨by decide, ?_⟩
  rintro ⟨resident, loaded, hfault, _⟩
  rw [softfaultHandler_fmapEntry] at hfault
  cases hfault

end Vfs
end BestKernel
