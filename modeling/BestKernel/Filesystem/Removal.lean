import BestKernel.Filesystem.Open

/-!
# Closing and removing

`SYSCLOSE`, `SYS_RMFILE` and `SYS_RMDIR`, and the end of a process.  Every one of
them frees a slot through `Hash::free`, which clears the marks from the slot up to
slot number 1: only slot 0 is ever unmarked, and any other slot stays marked over
zeros.

Readings of the source.  `pool_free` of a file without a length frees one slot.
`SYS_RMDIR` tests the `mode` in the metadata, and its `owner_id` is a 32-bit number.
A process ends with `PKILL`, of which only what it does to the process is modelled;
`SYS_PEXIT` and `SYS_TEXIT` only raise a signal.  What the driver of the disk does to
the file is not part of the state.
-/

namespace BestKernel
namespace Filesystem

open Machine
open Kontrol
open Syscalls (DescriptorTable WRITE)

/-- A pool after a free; the memory that is cleared is kept elsewhere. -/
def released (h : Hash) (sect : Word) (length : Half) : Hash :=
  (h.free (fun _ => 0) sect length).1

namespace Vfs

/-- `file->parent->children->pool_free(file->double_link,1)`. -/
def unlink (vfs : Vfs) (file : Nat) : Vfs :=
  let parent := (vfs.descriptions file).parent
  let double_link := (vfs.descriptions file).double_link
  let dir := vfs.descriptions parent
  { vfs with
    descriptions := Function.update vfs.descriptions parent
      { dir with
        children := released dir.children double_link 1
        entries := Function.update dir.entries (dir.children.slotOf double_link) vfs.null } }

/-- `vfs->pool_free(file)`. -/
def freeFile (vfs : Vfs) (file : Nat) : Vfs :=
  { vfs with
    pool := released vfs.pool (vfs.fileAddress (some file)) 1
    descriptions := Function.update vfs.descriptions file (zeroFile vfs.null) }

end Vfs

namespace Kernel

/-- The slot of `vfs->descriptions[process->descs->pool[desc]->findex]`. -/
def fileOf (s : Kernel) (pid : Nat) (desc : Half) : Nat :=
  (s.descriptorOf pid desc).findex.toNat

/-- `(file->meta.mode & permission) && (process->owner_id != owner_ids::ROOT)`. -/
def modeDenied (k : Constants) (s : Kernel) (pid : Nat) (permission desc : Half) : Bool :=
  (s.vfs.descriptions (s.fileOf pid desc)).data.mode &&& permission ≠ 0 ∧
    (s.processes pid).owner_id ≠ k.ROOT

/-- `(dir->mode<<6>>7) > process->owner_id`. -/
def rmdirDenied (s : Kernel) (pid : Nat) (desc : Half) : Bool :=
  ((s.vfs.descriptions (s.fileOf pid desc)).data.mode <<< 6) >>> 7 >
    (s.processes pid).owner_id

/-- `SYSCLOSE`.  The descriptor of the file that loses a listener is read from the
slot that has just been cleared. -/
def sysclose (s : Kernel) (pid : Nat) (desc : Half) : Int × Kernel :=
  let p := s.processes pid
  if p.table.refuses desc .SYSCLOSE then (-1, s)
  else
    let s := s.setProcess pid
      { p with
        table := (p.table.sysclose (fun _ => 0) desc).1
        entries := Function.update p.entries desc.toNat none }
    let file := s.vfs.descriptions (s.fileOf pid desc)
    (0, { s with
      vfs := { s.vfs with
        descriptions := Function.update s.vfs.descriptions (s.fileOf pid desc)
          { file with listeners := file.listeners - 1 } } })

/-- What `SYS_RMFILE` and `SYS_RMDIR` end with. -/
def remove (s : Kernel) (file : Nat) : Kernel :=
  { s with vfs := (s.vfs.unlink file).freeFile file }

/-- `SYS_RMFILE`. -/
def rmfile (k : Constants) (s : Kernel) (pid : Nat) (desc : Half) : Int × Kernel :=
  if (s.processes pid).table.refuses desc .SYS_RMFILE then (1, s)
  else if s.modeDenied k pid WRITE desc then (2, s)
  else (0, s.remove (s.fileOf pid desc))

/-- `SYS_RMDIR`. -/
def rmdir (s : Kernel) (pid : Nat) (desc : Half) : Int × Kernel :=
  if (s.processes pid).table.refuses desc .SYS_RMDIR then (1, s)
  else if s.rmdirDenied pid desc then (2, s)
  else if (s.vfs.descriptions (s.fileOf pid desc)).children.count ≠ 0 then (3, s)
  else (0, s.remove (s.fileOf pid desc))

/-- A process that `PKILL` has cleared.  Its arrays are the bytes from address 0 on. -/
def zeroProcess (bytes : Nat → Byte) : Process where
  owner_id := 0
  table := ⟨⟨.POINTER, 0, 0, bytes, 0, 8⟩, bytes⟩
  entries := fun _ => none

/-- The end of a process. -/
def pkill (s : Kernel) (pid : Nat) (bytes : Nat → Byte) : Kernel :=
  s.setProcess pid (zeroProcess bytes)

end Kernel

section Spec

variable {h : Hash} {sect : Word} {length : Half}

@[simp] theorem released_type : (released h sect length).type = h.type := rfl

@[simp] theorem released_length : (released h sect length).length = h.length := rfl

@[simp] theorem released_pool : (released h sect length).pool = h.pool := rfl

@[simp] theorem released_stride : (released h sect length).stride = h.stride := rfl

theorem released_ckarray (i : Nat) :
    (released h sect length).ckarray i =
      if h.slotOf sect ≤ i ∧ i < length.toNat then 0 else h.ckarray i :=
  Hash.free_ckarray (fun _ => 0) sect length i

variable {vfs : Vfs}

theorem aligned_remove
    (h : vfs.Aligned)
    (file : Nat) :
    ((vfs.unlink file).freeFile file).Aligned :=
  ⟨h.pool, h.stride⟩

end Spec

end Filesystem
end BestKernel
