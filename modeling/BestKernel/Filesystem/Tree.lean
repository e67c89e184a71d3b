import BestKernel.Kontrol.Hash
import BestKernel.Syscalls.Files

/-!
# Files, directories and paths

The pool of files, `recurse_directories` and `open`.  A pointer to a file is given
as the number of its slot in `descriptions`, counted on beyond the pool: the null
pointer is that of the slot `null`, in which address 0 lies.

Readings of the source.  The pool of children is declared as that of the `King` that
a file is, so `dir->ckarray` is the `ckarray` of the children.  The call of
`recurse_directories` by itself is handed the rest of the path and the same out
parameters; its result is dropped, as in the source.  `test-this->descriptions` is a
difference of typed pointers, the slot, which is divided by the size of a `File` once more.
`type` is the type in the metadata.  In `open`, `vfs` is `this`.
-/

namespace BestKernel
namespace Filesystem

open Machine
open Kontrol
open Syscalls (Meta DIRECTORY)

/-- `filetypes::STORAGE`. -/
abbrev STORAGE : Half := 1

/-- `'/'`. -/
abbrev slash : Byte := 47

/-- `class File`, as far as directories go. -/
structure File where
  data : Meta
  parent : Nat
  double_link : Word
  children : Hash
  entries : Nat → Nat
  listeners : Half

/-- `class Virtual_fs`. -/
structure Vfs where
  pool : Hash
  descriptions : Nat → File
  null : Nat
  sizeofFile : Nat

/-- The out parameters: how far into the path the search came, and the index of the file. -/
structure Reached where
  out : Nat
  index : Nat
deriving DecidableEq

/-- `recurse_directories_errors`, after 0 for success. -/
abbrev NOTA_DIR : Nat := 1
abbrev NO_MATCHING_FILENAME : Nat := 2

namespace Vfs

section Search

variable (vfs : Vfs) (path : Nat → Byte)

/-- The loop over the characters of one name, with `path` read from `start` on.
It returns with a value or goes on to the next child; `none` is the loop that has
not ended after `fuel` characters. -/
def nameLoop (recurse : Nat → Nat → Reached → Option (Nat × Reached)) (start test : Nat) :
    Nat → Nat → Reached → Option (Option Nat × Reached)
  | 0, _, _ => none
  | fuel + 1, o, r =>
      let file := vfs.descriptions test
      if path (start + o) ≠ file.data.name o then some (none, r)
      else if path (start + o) = 0 then some (some 0, ⟨start + o, test / vfs.sizeofFile⟩)
      else if path (start + o) = slash then
        if file.data.type ≠ DIRECTORY then some (some NOTA_DIR, r)
        else
          match recurse (start + o + 1) test r with
          | none => none
          | some (_, r) => nameLoop recurse start test fuel (o + 1) r
      else nameLoop recurse start test fuel (o + 1) r

/-- The loop over the children, with `left` slots to look at from `i` on. -/
def childLoop (recurse : Nat → Nat → Reached → Option (Nat × Reached)) (fuel start dir : Nat) :
    Nat → Nat → Reached → Option (Nat × Reached)
  | 0, _, r => some (NO_MATCHING_FILENAME, r)
  | left + 1, i, r =>
      let file := vfs.descriptions dir
      if file.children.ckarray i = 0 then childLoop recurse fuel start dir left (i + 1) r
      else
        match vfs.nameLoop path recurse start (file.entries i) fuel 0 r with
        | none => none
        | some (some code, r) => some (code, r)
        | some (none, r) => childLoop recurse fuel start dir left (i + 1) r

/-- `recurse_directories`, with `fuel` levels and as many characters in a name. -/
def recurseDirectories : Nat → Nat → Nat → Reached → Option (Nat × Reached)
  | 0, _, _, _ => none
  | fuel + 1, start, dir, r =>
      vfs.childLoop path (recurseDirectories fuel) fuel start dir
        (vfs.descriptions dir).children.length.toNat 0 r

/-- `open`: the file that it returns, and the out parameters. -/
def openFile (fuel dir_index : Nat) (r : Reached) : Option (Option Nat × Reached) :=
  if vfs.pool.ckarray dir_index = 0 then some (none, r)
  else
    match vfs.recurseDirectories path fuel 0 dir_index r with
    | none => none
    | some (p, r) => some (some p, r)

end Search

end Vfs

end Filesystem
end BestKernel
