import BestKernel.Kontrol.Hash
import BestKernel.Vfs.FileMapping

/-!
# Mapping files and tearing processes down

`SYS_FMAP`, `SYS_FUNMAP` and `PKILL` with what they share: the page trees, the
pool of pointers that `maps` buffers come from, the memory files and the
processes.

Readings of the source.  `fmap` is called with the descriptor it forgets.  The
undeclared `pagetype` of `PKILL` is 0, `maps` in `SYS_FUNMAP` is that of the
descriptor.  Of `PKILL` the rest, which frees descriptors, segments and the slot
of the process, is left out: it touches neither listeners nor page trees.

`World.live` is not part of the source: the mappings made and not yet undone.
-/

namespace BestKernel
namespace Vfs

open Machine Mem Kontrol

structure Descriptor where
  findex : Nat
  maps : Word

/-- A process as far as its files go.  `root` says whether its owner is. -/
structure Process where
  pagetree : Word
  length : Half
  count : Half
  ckarray : Nat → Byte
  descs : Nat → Descriptor
  root : Bool
  killed : Bool
  alive : Bool

/-- Process `process` has page `page` of file `file` mapped. -/
structure Mapping where
  process : Nat
  file : Nat
  page : Nat
deriving DecidableEq

structure World where
  words : WordMemory
  bytes : ByteMemory
  kptr : Hash
  files : Nat → MemFile
  processes : Nat → Process
  live : List Mapping

/-- `permissions::WRITE`. -/
abbrev WRITE : Half := 2

/-- Add `value` to the bytes `first .. first+n-1`. -/
def addListeners (listeners : Nat → Byte) (first : Nat) (value : Byte) :
    Nat → Nat → Byte
  | 0 => listeners
  | n + 1 =>
      let listeners := addListeners listeners first value n
      Function.update listeners (first + n) (listeners (first + n) + value)

/-- `fmap`: the address, the trees, the file and the pages mapped. -/
def fmap (words : WordMemory) (file : MemFile) (pagetree : Word)
    (desc amount offset : Half) : Word × WordMemory × MemFile × List Nat :=
  let pages_number :=
    pagetypeRoundup (BitVec.ofNat 32 file.mapped_pagetype) amount.toNat
  let multi := multiplierOf file.mapped_pagetype
  let (found, words) :=
    vmtreeFetch pagetree words file.mapped_pagetype pages_number.toNat
  let vm := fetchedPointer found
  if vm = 0 then (vm, words, file, [])
  else
    let (words, entry) := vmtoEntry vm words pagetree
    let first := offset / multi
    let rounds := (first + pages_number).toNat - first.toNat
    (vm,
      storeWords words entry
        (fun i => fmapEntry desc (first + BitVec.ofNat 32 i) file.mapped_pagetype) rounds,
      { file with listeners := addListeners file.listeners first.toNat 1 rounds },
      List.range' first.toNat rounds)

/-- The address of `maps*[g+pureoff]`. -/
def mapsAt (maps : Word) (pureoff : Half) (g : Nat) : Word :=
  maps + (BitVec.ofNat 32 g + pureoff).setWidth 64

/-- The loop of `SYS_FMAP` over the bytes of `maps`: whether one was set, and the
bytes. -/
def markMaps (maps : Word) (pureoff : Half) (bytes : ByteMemory) :
    Nat → Bool × ByteMemory
  | 0 => (false, bytes)
  | g + 1 =>
      let (marked, bytes) := markMaps maps pureoff bytes g
      let a := mapsAt maps pureoff g
      (marked || bytes a == 1, Function.update bytes a 1)

namespace World

/-- `SYS_FMAP`: what it returns, and the world.  `tryn` answers for the growth of
the pool of pointers. -/
def sysFmap (w : World) (process : Nat) (desc amount offset : Half) (tryn : Word) :
    Int × World :=
  let p := w.processes process
  if desc > 1#32 <<< 14 then (-3, w)
  else if ¬ p.count > desc ∨ p.ckarray desc.toNat = 0 then (-1, w)
  else
    let d := p.descs desc.toNat
    let file := w.files d.findex
    if file.mode &&& WRITE ≠ 0 ∧ ¬ p.root then (-2, w)
    else
      let (maps, kptr) :=
        if d.maps = 0 then
          let (found, kptr) := w.kptr.alloc 1 tryn
          (found.getD 0, kptr)
        else (d.maps, w.kptr)
      let pureoff := offset / multiplierOf file.mapped_pagetype
      let (marked, bytes) :=
        markMaps maps pureoff w.bytes
          (pagetypeRoundup amount file.mapped_pagetype).toNat
      let p := { p with
        killed := p.killed || marked
        descs := Function.update p.descs desc.toNat ⟨d.findex, maps⟩ }
      let (vm, words, file, pages) := fmap w.words file p.pagetree desc amount offset
      (vm.toNat,
        { words := words
          bytes := bytes
          kptr := kptr
          files := Function.update w.files d.findex file
          processes := Function.update w.processes process p
          live := pages.map (Mapping.mk process d.findex) ++ w.live })

/-- `SYS_FUNMAP`. -/
def sysFunmap (w : World) (process : Nat) (vm : Word) (amount : Half) : Int × World :=
  let p := w.processes process
  let (words, trash) := vmtoEntry vm w.words p.pagetree
  let w := { w with words := words }
  let multi := getMultiFromPagetype walkedPagetype
  let d := p.descs (funmapDesc (words trash)).toNat
  let file := w.files d.findex
  let i := funmapPage file (words trash) multi
  if i > file.length.toNat then (1, w)
  else
    let keyse := amount / BitVec.ofNat 32 multi
    if keyse ≠ 0 then (2, w)
    else if (List.range keyse.toNat).any fun k =>
        w.bytes (d.maps + BitVec.ofNat 64 (i + k)) == 0 then
      (0, { w with
        processes := Function.update w.processes process { p with killed := true } })
    else
      let file := { file with listeners := addListeners file.listeners i (-1) keyse.toNat }
      let (done, words) := memUnmap words p.pagetree vm keyse.toNat walkedPagetype
      (if done then 0 else 1,
        { w with
          words := words
          files := Function.update w.files d.findex file
          live := w.live.filter fun m =>
            ¬ (done ∧ m.process = process ∧ m.file = d.findex ∧
              i ≤ m.page ∧ m.page < i + keyse.toNat) })

end World

/-- The page trees and the files, which `recursive_free` works on. -/
structure Trees where
  words : WordMemory
  files : Nat → MemFile

/-- What `recursive_free` switches on. -/
def freeMode (entry : Word) : Word := (entry <<< 55) >>> 55

/-- One decrement of a listener. -/
def dropListener (files : Nat → MemFile) (findex page : Nat) : Nat → MemFile :=
  let file := files findex
  Function.update files findex
    { file with listeners :=
        Function.update file.listeners page (file.listeners page - 1) }

section RecursiveFree

variable (p : Process)

/-- The file that `recursive_free` takes an entry for. -/
def entryFile (entry : Word) : Nat := (p.descs (recursiveFreeDesc entry).toNat).findex

/-- The switch of `recursive_free`, for the entry at `a`. -/
def freeEntry (pagetype : Nat) (a : Word) (s : Trees) : Trees :=
  let entry := s.words a
  if freeMode entry = Mode.RESERVE.code.setWidth 64 then
    { s with
      words :=
        (memFree s.words p.pagetree (entrytoVm p.pagetree a) 1 pagetype).2.2 }
  else if freeMode entry = Mode.FILE.code.setWidth 64 then
    match recursiveFreePage (s.files (entryFile p entry)) entry with
    | some k => { s with files := dropListener s.files (entryFile p entry) k }
    | none => s
  else s

/-- `recursive_free`, with `left` levels below the current one. -/
def recursiveFree : Nat → Word → Trees → Trees
  | 0, pointer, s =>
      (List.range 512).foldl (fun s i =>
        let a := wordAt pointer i
        if bitSet (s.words a) 56 then freeEntry p Pag.SMALLPAGE a s else s) s
  | left + 1, pointer, s =>
      (List.range 512).foldl (fun s i =>
        let a := wordAt pointer i
        if bitSet (s.words a) 56 then
          let s := freeEntry p (Pag.SMALLPAGE - (left + 1)) a s
          if ¬ bitSet (s.words a) 7 then recursiveFree left a s else s
        else s) s

end RecursiveFree

/-- The files, the bytes and the pool of pointers, which the walk over the
descriptors works on. -/
structure Maps where
  files : Nat → MemFile
  bytes : ByteMemory
  kptr : Hash

/-- The loop of `PKILL` over the bytes of `maps`.  It is descriptor `i` that the
decrement is indexed with. -/
def dropMaps (s : Maps) (findex : Nat) (maps : Word) (i : Nat) : Nat → Nat → MemFile
  | 0 => s.files
  | y + 1 =>
      let files := dropMaps s findex maps i y
      if s.bytes (maps + BitVec.ofNat 64 y) ≠ 0 then dropListener files findex i
      else files

/-- The number of slots that a `maps` buffer is freed with. -/
abbrev mapsSlots : Half := 512 / 8

/-- What `PKILL` does for descriptor `i`. -/
def killDescriptor (p : Process) (s : Maps) (i : Nat) : Maps :=
  if p.ckarray i = 0 then s
  else
    let d := p.descs i
    if d.maps = 0 then s
    else
      let files := dropMaps s d.findex d.maps i (s.files d.findex).length.toNat
      let (kptr, bytes) := s.kptr.free s.bytes d.maps mapsSlots
      ⟨files, bytes, kptr⟩

namespace World

/-- `PKILL`. -/
def pkill (w : World) (process : Nat) : World :=
  let p := w.processes process
  let trees := recursiveFree p Pag.SMALLPAGE p.pagetree ⟨w.words, w.files⟩
  let maps := (List.range p.length.toNat).foldl (killDescriptor p)
    ⟨trees.files, w.bytes, w.kptr⟩
  { words := trees.words
    bytes := maps.bytes
    kptr := maps.kptr
    files := maps.files
    processes := Function.update w.processes process { p with alive := false }
    live := w.live.filter fun m => m.process ≠ process }

end World

end Vfs
end BestKernel
