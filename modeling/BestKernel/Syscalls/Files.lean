import BestKernel.Library.Loops
import BestKernel.Mem.PageTree

/-!
# System calls that take a buffer of the caller

`SYSREAD`, `SYSWRITE`, `SYS_STAT`, `SYS_CHMETA` and `SYS_CHROOT`.  All of them
check a descriptor, the last one apart, and translate the pointer once.  The
first two hand the result to `Virtual_fs`, which makes a disk request of it.  A
result carries the addresses at which the bytes of the buffer are accessed.

Readings of the source.  The undeclared `action` of `SYSREAD` is the permission
to read; its `errcode`, which `SYSWRITE` leaves out, is a parameter.  The fields
`type`, `partition` and `reloff` of a file are those of its `meta` data, and
`findex` in `SYSWRITE` is the file.  In `disk_request`, `entry` is the pointer
and `diskpos` the start of the partition.  The driver of the disk, which is
loaded at run time, is the parameter `ioctl`; the page that the request lies in
and the thread that carries it are left out.  Of `open` only what it returns is
modelled: it reads the path that has just been measured.
-/

namespace BestKernel
namespace Syscalls

open Machine Mem

/-- `class meta`. -/
structure Meta where
  name : Nat → Byte
  type : Half
  mode : Half
  partition : Half
  relpos : Word
  length : Word

/-- `sizeof(File.meta.name)`. -/
abbrev sizeofName : Nat := 64

/-- `sizeof(meta)`. -/
abbrev sizeofMeta : Nat := 96

/-- Byte `i` of a number in memory. -/
def byteOf {w : Nat} (x : BitVec w) (i : Nat) : Byte :=
  (x >>> (8 * i)).setWidth 8

/-- Byte `i` of the structure in memory, with four bytes of padding. -/
def Meta.byte (m : Meta) (i : Nat) : Byte :=
  if i < 64 then m.name i
  else if i < 68 then byteOf m.type (i - 64)
  else if i < 72 then byteOf m.mode (i - 68)
  else if i < 76 then byteOf m.partition (i - 72)
  else if i < 80 then 0
  else if i < 88 then byteOf m.relpos (i - 80)
  else byteOf m.length (i - 88)

structure Descriptor where
  findex : Nat
  file_offset : Word

/-- The caller.  `root` says whether its owner is. -/
structure Process where
  pagetree : Word
  count : Half
  ckarray : Nat → Byte
  descs : Nat → Descriptor
  root : Bool

/-- Memory, the caller and the pool of files with its `ckarray`. -/
structure State where
  words : WordMemory
  bytes : ByteMemory
  process : Process
  descriptions : Nat → Meta
  ckarray : Nat → Byte

/-- What a call returns, where `error` is the return of a failed check, and the
addresses of the bytes of the buffer, in the order of the accesses. -/
structure Result where
  sys_retval : Except Int Int
  state : State
  accessed : List Word

/-- `enum permissions`. -/
abbrev READ : Half := 1
abbrev WRITE : Half := 2

/-- `enum filetypes`. -/
abbrev DIRECTORY : Half := 0
abbrev DEVICE : Half := 2

/-- `n` bytes from `base` on. -/
def flatRange (base : Word) (n : Nat) : List Word :=
  (List.range n).map fun i => base + BitVec.ofNat 64 i

/-- Store the bytes `f i`, in increasing order. -/
def storeBytes (m : ByteMemory) (base : Word) (f : Nat → Byte) : Nat → ByteMemory
  | 0 => m
  | n + 1 => Function.update (storeBytes m base f n) (base + BitVec.ofNat 64 n) (f n)

namespace State

/-- `&vfs->descriptions[process->descs->pool[desc]->findex]`. -/
def fileOf (s : State) (desc : Half) : Meta :=
  s.descriptions (s.process.descs desc.toNat).findex

/-- The position in the file that a transfer starts from. -/
def position (s : State) (desc : Half) (offset : Word) : Word :=
  if offset = 0 then (s.process.descs desc.toNat).file_offset else offset

/-- The two checks that a call on a descriptor starts with. -/
def refuses (s : State) (desc permission : Half) (badDescriptor denied : Int) :
    Option Int :=
  if ¬ s.process.count > desc ∨ s.process.ckarray desc.toNat = 0 then
    some badDescriptor
  else if (s.fileOf desc).mode &&& permission ≠ 0 ∧ ¬ s.process.root then some denied
  else none

/-- `vmto_phys` in the tree of the caller. -/
def translate (s : State) (vm : Word) : State × Word :=
  let (words, phys) := vmtoPhys s.words s.process.pagetree vm
  ({ s with words := words }, phys)

end State

section Disk

/-- `enum disk_actions`. -/
inductive DiskAction where
  | READ
  | WRITE
deriving DecidableEq, Repr

/-- What the driver is handed: the position on disk, the pointer to memory and
the number of bytes. -/
structure Packet where
  position : Word
  pointer : Word
  bytes_number : Half

/-- The partitions: where each starts, the tree of the driver of its disk, and
what that driver does. -/
structure Disks where
  diskpos : Half → Word
  pagetree : Half → Word
  ioctl : Half → DiskAction → Packet → WordMemory → ByteMemory →
    WordMemory × ByteMemory

/-- The state of the loop of `disk_request`. -/
structure Transfer where
  g : Half
  words : WordMemory
  bytes : ByteMemory
  accessed : List Word

/-- The inner loop of `disk_request`, whose condition does not depend on `l`. -/
def streak (adjacent : Bool) : Nat → Half → Half
  | 0, l => l
  | left + 1, l => if ¬ adjacent then l else streak adjacent left (l + 1)

variable (disks : Disks) (action : DiskAction) (part : Half) (reloff : Word)

/-- One round of `disk_request`: `l` pages are mapped for the driver, which moves
the bytes of one. -/
def diskRound (entry base : Word) (repetitions : Half) (s : Transfer) :
    Transfer ⊕ Transfer :=
  if ¬ s.g < repetitions then .inr s
  else
    let atom := multiplierOf walkedPagetype
    let adjacent :=
      s.words (wordAt entry (s.g + 1).toNat) ==
        s.words (wordAt entry s.g.toNat) + atom.setWidth 64
    let l := streak adjacent repetitions.toNat 0
    let destination := base + (s.g * atom).setWidth 64
    let (found, words) :=
      memMap s.words (disks.pagetree part) destination walkedPagetype l.toNat
        Cache.WRITEBACK.code
    let data := ⟨disks.diskpos part + reloff, fetchedPointer found, atom⟩
    let (words, bytes) := disks.ioctl part action data words s.bytes
    let (_, words) :=
      memUnmap words (disks.pagetree part) data.pointer l.toNat walkedPagetype
    .inl ⟨s.g + l, words, bytes,
      s.accessed ++ if l = 0 then [] else flatRange destination atom.toNat⟩

/-- `disk_request`, on behalf of the process whose tree is given. -/
def diskRequest (fuel : Nat) (pagetree destination bytes_number : Word)
    (words : WordMemory) (bytes : ByteMemory) : Option Transfer :=
  let (words, entry) := vmtoEntry destination words pagetree
  let repetitions := (pagetypeRoundup bytes_number walkedPagetype).setWidth 32
  Loops.run (diskRound disks action part reloff entry destination repetitions) fuel
    ⟨0, words, bytes, []⟩

end Disk

section VirtualFs

variable (disks : Disks) (fuel : Nat)

/-- The offsets and types that `Virtual_fs::read` and `write` have no data for. -/
def noData (file : Meta) (offset : Word) (beyond : Int) : Option Int :=
  if offset > file.length then some beyond
  else if file.type = DIRECTORY then some 1
  else if file.type = DEVICE then some 2
  else none

/-- `Virtual_fs::read` and `write`, which differ in the `disk_request` of their action and in
the code for an offset beyond the end. -/
def vfsBy
    (request : Half → Word → Word → Word → Word → WordMemory → ByteMemory → Option Transfer)
    (beyond : Int) (s : State) (file : Meta) (buf amount offset : Word) :
    Option (Int × State × List Word) :=
  match noData file offset beyond with
  | some code => some (code, s, [])
  | none =>
      (request file.partition (file.relpos + offset) s.process.pagetree buf amount s.words
        s.bytes).map fun t =>
          (0, { s with words := t.words, bytes := t.bytes }, t.accessed)

/-- With the request of the driver that is given. -/
def vfsTransfer (beyond : Int) (action : DiskAction) (s : State) (file : Meta)
    (buf amount offset : Word) : Option (Int × State × List Word) :=
  vfsBy (fun part reloff => diskRequest disks action part reloff fuel) beyond s file buf amount
    offset

/-- `Virtual_fs::read`. -/
def vfsRead := vfsTransfer disks fuel 3 .READ

/-- `Virtual_fs::write`. -/
def vfsWrite := vfsTransfer disks fuel 4 .WRITE

/-- `SYSREAD` and `SYSWRITE`, which differ in the permission and in `vfs`.  What
`vfs` returns is dropped. -/
def sysTransfer (permission : Half) (errcode : Int)
    (vfs : State → Meta → Word → Word → Word → Option (Int × State × List Word))
    (s : State) (desc : Half) (buf amount offset : Word) : Option Result :=
  match s.refuses desc permission (-1) errcode with
  | some code => some ⟨.error code, s, []⟩
  | none =>
      let (s, truebuf) := s.translate buf
      (vfs s (s.fileOf desc) truebuf amount (s.position desc offset)).map
        fun (_, s, accessed) =>
        let d := s.process.descs desc.toNat
        let descs :=
          if offset = 0 then
            Function.update s.process.descs desc.toNat
              ⟨d.findex, d.file_offset + amount⟩
          else s.process.descs
        ⟨.ok amount.toNat, { s with process := { s.process with descs := descs } },
          accessed⟩

/-- `SYSREAD`. -/
def sysRead (errcode : Int) := sysTransfer READ errcode (vfsRead disks fuel)

/-- `SYSWRITE`, whose amount and offset are half as wide. -/
def sysWrite (errcode : Int) (s : State) (desc : Half) (buf : Word)
    (amount offset : Half) : Option Result :=
  sysTransfer WRITE errcode (vfsWrite disks fuel) s desc buf (amount.setWidth 64)
    (offset.setWidth 64)

end VirtualFs

/-- `SYS_STAT`. -/
def sysStat (s : State) (desc : Half) (returns : Word) : Result :=
  match s.refuses desc WRITE 1 2 with
  | some code => ⟨.error code, s, []⟩
  | none =>
      let (s, true_ret) := s.translate returns
      if true_ret = 0 then ⟨.error 2, s, []⟩
      else
        ⟨.ok 0,
          { s with
            bytes := storeBytes s.bytes true_ret (s.fileOf desc).byte sizeofMeta },
          flatRange true_ret sizeofMeta⟩

/-- `SYS_CHMETA`. -/
def sysChmeta (s : State) (desc : Half) (name : Word) (type mode : Half) : Result :=
  match s.refuses desc WRITE 1 2 with
  | some code => ⟨.error code, s, []⟩
  | none =>
      let (s, truename) := s.translate name
      let file :=
        { s.fileOf desc with
          name := fun i => s.bytes (truename + BitVec.ofNat 64 i)
          type := type
          mode := mode }
      ⟨.ok 0,
        { s with
          descriptions :=
            Function.update s.descriptions (s.process.descs desc.toNat).findex file },
        flatRange truename sizeofName⟩

/-- The loop of `SYS_CHROOT`, with `left` bytes to look at from `g` on: where the
path ends. -/
def pathEnd (bytes : ByteMemory) (true_path : Word) : Nat → Nat → Option Nat
  | 0, _ => none
  | left + 1, g =>
      if bytes (true_path + BitVec.ofNat 64 g) = 0 then some g
      else pathEnd bytes true_path left (g + 1)

/-- The bytes that the loop looks at. -/
def pathBytes (bytes : ByteMemory) (true_path : Word) : Nat :=
  match pathEnd bytes true_path 4096 0 with
  | some g => g + 1
  | none => 4096

/-- Whether `open` returns a pointer other than `NULLPTR`: it does whenever the
slot of the directory that it starts from is taken. -/
def opens (s : State) (dir_index : Nat) : Prop := s.ckarray dir_index ≠ 0

instance (s : State) (dir_index : Nat) : Decidable (opens s dir_index) :=
  inferInstanceAs (Decidable (_ ≠ _))

/-- `SYS_CHROOT`.  A pointer from `open` counts as a failure. -/
def sysChroot (s : State) (absolute_path : Word) : Result :=
  let (s, true_path) := s.translate absolute_path
  if true_path = 0 then ⟨.error 1, s, []⟩
  else
    let accessed := flatRange true_path (pathBytes s.bytes true_path)
    if pathEnd s.bytes true_path 4096 0 = none then ⟨.error 2, s, accessed⟩
    else if opens s 0 then ⟨.error 3, s, accessed⟩
    else ⟨.ok 0, s, accessed⟩

end Syscalls
end BestKernel
