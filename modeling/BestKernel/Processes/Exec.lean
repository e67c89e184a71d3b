import BestKernel.Mem.Bitmap
import BestKernel.Mem.Segments
import BestKernel.Mem.Walk
import BestKernel.Sched.Selection
import BestKernel.Vfs.FileMapping
import BestKernel.Kontrol.Hash

/-!
# Making processes and threads

`exec` makes a process with one thread from an executable file, and `thread` clones
the calling thread.  Both take what they need from the pools of the kernel, from the
physical memory and from the page tree of the process.

`exec_spec` says what `exec` leaves in the pools, in the process and in its thread:
three slots of the pool of pointers, a process that lists the one thread, and a thread
whose parent is what its slot held before.  `thread_spec` says that `thread` always fails,
since the stack that it looks for is only ever found at address 0.

Readings of the source.  Pointers to processes, threads and descriptors are the numbers
of their slots, and the null pointer is the slot behind all of them.  `father` is
`parent`, `index` of a descriptor is `findex`, and `gs` is the segment `fs` of the
thread-local storage.  The pools of the kernel are of the type that does not grow.
What lies in the first page of an executable is a parameter, as are the segment that
`data_segment_insert` describes by a size alone, `get_segment_selector`, the constants of
the build, and the `pagetype` that `exec` uses before it has a value.  Where a name is
used before it is declared, its one evident value is taken: the selector of the
process, its `userspace_code` for the `entry` that the first instruction is counted from,
the stack just found.  `newfag-ktrd->pool` is a difference of typed pointers, the slot, which
is divided by the size once more, as in `SYS_GETTID`.  `make_stack` is called for the process.
`BLOOD_LIBEL` returns and changes nothing here, as `SIGKILL` is 0; `starved` counts its calls.
-/

namespace BestKernel
namespace Processes

open Machine
open Kontrol
open Mem

/-- The slot of the null pointer: slot numbers have 32 bits. -/
abbrev nullSlot : Nat := 2 ^ 32

/-- `class Thread`, as far as it is made and killed. -/
structure Thread where
  parent : Nat
  double_link : Word
  type : Sched.ThreadType
  taken : Half
  stack_pointer : Word
  instruction_pointer : Word
  fs : Word
  ds : Word

/-- What a word of the pool of pointers points to. -/
inductive Pointer where
  | null
  | thread (t : Nat)
  | descriptor (d : Nat)
deriving DecidableEq, Repr

/-- The slot of a descriptor that is pointed to. -/
def Pointer.descriptorSlot : Pointer → Nat
  | .descriptor d => d
  | _ => nullSlot

def threadPointer (t : Nat) : Pointer := if t = nullSlot then .null else .thread t

def descriptorPointer (d : Nat) : Pointer := if d = nullSlot then .null else .descriptor d

/-- `memset(sect,0,..)` as it meets the words of the pool of pointers. -/
def clearPointers (pointers : Word → Pointer) (sect : Word) (bytes : Nat) : Word → Pointer :=
  fun a => if (a - sect).toNat < bytes then .null else pointers a

/-- `class local_descriptor_table`. -/
structure Ldt where
  hash : Hash
  segment_selector : Half

/-- `class Process`. -/
structure Process where
  owner_id : Half
  sigmask : Half
  sigset : Half
  code : Word
  pagetree : Word
  userspace_code : Word
  workers : Hash
  descs : Hash
  maximum : Half
  ldt : Ldt

/-- `class Descriptor`. -/
structure Descriptor where
  findex : Nat
  maps : Word

/-- `class File`, as far as it is loaded, opened and mapped. -/
structure File where
  mem : Vfs.MemFile
  length : Word
  openers : Half

/-- `class Exec_header`. -/
structure Header where
  heapsize : Byte
  tls_size : Byte
  stacksize : Byte
  max_descriptors : BitVec 16
  start : Half
  program_type : Half
  id : Nat → Word
  checksum : Word

/-- The constants of the build, what lies in the first page of an executable, and
what the sources do not define. -/
structure Config where
  memlen : Half
  fuel : Nat
  headerAt : Word → Header
  ROOT : Half
  SYSTEM : Half
  DEVDESC : Nat
  max_threads : Half
  GDT_LOW_ENTRIES : Nat
  kernelcode : Word
  codesize : Word
  expected_usage : Nat
  identityLevel : Nat
  pagetype : Nat
  dataSegment : Byte → Word
  getSegmentSelector : Word → Nat
  physArray : Word
  sizeofThread : Nat

/-- The kernel.  `pointers` are the words of the pool of pointers, in which the lists of
processes lie. -/
structure Kernel where
  words : WordMemory
  bytes : ByteMemory
  pointers : Word → Pointer
  table : RamTable
  kprc : Hash
  ktrd : Hash
  kdescs : Hash
  kptr : Hash
  gdt : Hash
  processes : Nat → Process
  threads : Nat → Thread
  descriptors : Nat → Descriptor
  files : Nat → File
  starved : Nat

/-- The slot of what `alloc` returned; the address 0 is the null pointer. -/
def slotIn (h : Hash) (found : Option Word) : Nat :=
  if found.getD 0 = 0 then nullSlot else h.slotOf (found.getD 0)

/-- A pool that is all zeros; its `ckarray` is the bytes from address 0 on. -/
def zeroHash (bytes : ByteMemory) : Hash :=
  ⟨.POINTER, 0, 0, fun i => bytes (BitVec.ofNat 64 i), 0, 8⟩

/-- `process* = { .. }` of `exec`: what is not named is zero. -/
def newProcess (calling : Process) (header : Header) (code : Word) (bytes : ByteMemory) :
    Process where
  owner_id := calling.owner_id
  sigmask := 0
  sigset := calling.sigset
  code := code
  pagetree := 0
  userspace_code := 0
  workers := { zeroHash bytes with count := 1 }
  descs := zeroHash bytes
  maximum := header.max_descriptors.setWidth 32
  ldt := ⟨zeroHash bytes, 0⟩

/-- A thread that is all zeros. -/
def zeroThread : Thread :=
  ⟨nullSlot, 0, .DRIVER, 0, 0, 0, 0, 0⟩

/-- The sum that `EXEC_CHECK_CHECKSUM` compares; its first terms add up in 32 bits. -/
def Header.sum (h : Header) : Word :=
  (h.heapsize.setWidth 32 + h.tls_size.setWidth 32 + h.stacksize.setWidth 32 +
      h.max_descriptors.setWidth 32 + h.start + h.program_type).setWidth 64 +
    h.id 0 + h.id 1 + h.id 2 + h.id 3

namespace Kernel

/-- A write to a process. -/
def modifyProcess (s : Kernel) (p : Nat) (write : Process → Process) : Kernel :=
  { s with processes := Function.update s.processes p (write (s.processes p)) }

/-- A write to a thread. -/
def modifyThread (s : Kernel) (t : Nat) (write : Thread → Thread) : Kernel :=
  { s with threads := Function.update s.threads t (write (s.threads t)) }

/-- A write to a descriptor. -/
def modifyDescriptor (s : Kernel) (d : Nat) (write : Descriptor → Descriptor) : Kernel :=
  { s with descriptors := Function.update s.descriptors d (write (s.descriptors d)) }

/-- `process->descs->pool[i]`. -/
def descriptorAt (s : Kernel) (p i : Nat) : Nat :=
  (s.pointers (wordAt (s.processes p).descs.pool i)).descriptorSlot

/-- `CONDITIONAL_BLOOD_LIBEL`. -/
def conditionalBloodLibel (s : Kernel) (condition : Bool) : Kernel :=
  { s with starved := s.starved + condition.toNat }

variable (k : Config)

/-- `malloc` of small pages. -/
def malloc (s : Kernel) (pages_number : Half) : Option (Word × Kernel) := do
  let (ret, table) ← Mem.malloc k.memlen k.fuel s.table pages_number Pag.SMALLPAGE
  return (ret, { s with table := table })

/-- `vfs->load_page`. -/
def loadPage (s : Kernel) (f : Nat) (page : Half) : Option (Word × Kernel) :=
  let file := s.files f
  if page > file.mem.length ∨ file.mem.pool page.toNat ≠ 0 then
    some ((Vfs.loadPage file.mem page 0).1, s)
  else do
    let (fresh, table) ← Mem.malloc k.memlen k.fuel s.table 1 file.mem.mapped_pagetype
    let (address, mem) := Vfs.loadPage file.mem page fresh
    return (address,
      { s with table := table, files := Function.update s.files f { file with mem := mem } })

/-- The loop that loads the rest of a file, from page `i` on. -/
def loadPages (f : Nat) : Nat → Half → Kernel → Option Kernel
  | 0, _, s => some s
  | left + 1, i, s => do
      let (address, s) ← s.loadPage k f i
      loadPages f left (i + 1) (s.conditionalBloodLibel (address = 0))

/-- The slot of the process, and what is assigned to it. -/
def takeProcess (s : Kernel) (caller : Nat) (header : Header) (code : Word) : Nat × Kernel :=
  let found := s.kprc.alloc 1 0
  let process := slotIn s.kprc found.1
  let s := { s with kprc := found.2 }.conditionalBloodLibel (found.1.getD 0 = 0)
  (process, s.modifyProcess process fun _ =>
    newProcess (s.processes caller) header code s.bytes)

/-- `kptr->pool_alloc(reqlen)` for one of the lists of a process. -/
def takePointers (s : Kernel) (process : Nat) (reqlen : Half)
    (assign : Process → Word → Process) : Kernel :=
  let found := s.kptr.alloc reqlen 0
  let s := { s with kptr := found.2 }.modifyProcess process fun p => assign p (found.1.getD 0)
  s.conditionalBloodLibel (found.1.getD 0 = 0)

/-- The main thread.  The pool of threads marks it as taken, null or not. -/
def takeThread (s : Kernel) (process : Nat) : Nat × Kernel :=
  let found := s.ktrd.alloc 1 0
  let main_thread := slotIn s.ktrd found.1
  let s := { s with ktrd := found.2 }.modifyThread main_thread fun t => { t with taken := 255 }
  let s := s.conditionalBloodLibel (found.1.getD 0 = 0)
  (main_thread,
    { s with
      pointers := Function.update s.pointers (s.processes process).workers.pool
        (threadPointer main_thread) })

/-- `process->descs->pool[i] = kdescs->pool_alloc(1)`. -/
def takeDescriptor (s : Kernel) (process i : Nat) : Kernel :=
  let found := s.kdescs.alloc 1 0
  { s with
    kdescs := found.2
    pointers := Function.update s.pointers (wordAt (s.processes process).descs.pool i)
      (descriptorPointer (slotIn s.kdescs found.1)) }

/-- The two descriptors: the root of the caller, and that of the devices. -/
def takeDescriptors (s : Kernel) (caller process : Nat) : Kernel :=
  let s := (s.takeDescriptor process 0).takeDescriptor process 1
  let s := s.conditionalBloodLibel (s.pointers (wordAt (s.processes process).descs.pool 1) = .null)
  let root := (s.descriptors (s.descriptorAt caller 0)).findex
  let s := s.modifyDescriptor (s.descriptorAt process 0) fun d => { d with findex := root }
  s.modifyDescriptor (s.descriptorAt process 1) fun d => { d with findex := k.DEVDESC }

/-- The process of `exec`, its thread and its descriptors, out of the pools. -/
def takeSlots (s : Kernel) (caller : Nat) (header : Header) (code : Word) :
    Nat × Nat × Kernel :=
  let process := (s.takeProcess caller header code).1
  let s := (s.takeProcess caller header code).2
  let s := s.takePointers process 1 fun p pool => { p with workers := { p.workers with pool := pool } }
  let s := s.takePointers process 2 fun p pool => { p with descs := { p.descs with pool := pool } }
  let main_thread := (s.takeThread process).1
  (process, main_thread, (s.takeThread process).2.takeDescriptors k caller process)

/-- The page tree of `exec`, with the global descriptor table, the segments in it and
the kernel mapped to themselves. -/
def layTree (s : Kernel) (process : Nat) : Option Kernel := do
  let pagetree_length := offsetByDepth 0 (Pag.SMALLPAGE + 1)
  let (pagetree, s) ← s.malloc k ((tosmallpage pagetree_length).setWidth 32)
  let s := s.modifyProcess process fun p => { p with pagetree := pagetree }
  let s := s.conditionalBloodLibel (pagetree = 0)
  let identity (words : WordMemory) (target : Word) (pages : Half) : Option WordMemory :=
    mapIdentity k.identityLevel words pagetree target pages Cache.WRITEBACK.code 1
  let words := vmtreeLay k.expected_usage s.words pagetree
  let words ← identity words s.gdt.pool ((tosmallpage MAX16BIT).setWidth 32)
  let words ← (List.range k.GDT_LOW_ENTRIES).foldlM (fun words g =>
    let (start, length) := extractSegmentStatistics words (wordAt s.gdt.pool g)
    identity words start ((tosmallpage length).setWidth 32)) words
  let words ← identity words k.kernelcode (k.codesize.setWidth 32)
  return { s with words := words }

/-- The descriptor of the local descriptor table, and its pages in the tree. -/
def mapLdt (s : Kernel) (process : Nat) (actual_ldt entry : Word) (ldtlen : Half) : Kernel :=
  let words := gdtInsert s.words LDT_TYPE actual_ldt entry
  let (something, words) := memMap words (s.processes process).pagetree actual_ldt
    Pag.SMALLPAGE ldtlen.toNat Cache.WRITEBACK.code
  let words := (List.range ldtlen.toNat).foldl (fun words o =>
    let a := wordAt (fetchedPointer something) o
    Function.update words a (setBit (words a) 2)) words
  { s with words := words }

/-- The slot of the local descriptor table in the global one. -/
def takeEntry (s : Kernel) (process : Nat) : Word × Half × Kernel :=
  let found := s.gdt.alloc 1 0
  let entry := found.1.getD 0
  let selector := ((entry - s.gdt.pool) / 16).setWidth 32
  (entry, selector, { s with gdt := found.2 }.modifyProcess process fun p =>
    { p with ldt := { p.ldt with segment_selector := selector } })

/-- The local descriptor table: its slot in the global one and its pages. -/
def takeLdt (s : Kernel) (process : Nat) : Option (Word × Half × Half × Kernel) := do
  let (entry, selector, s) := s.takeEntry process
  let ldtlen := tosmallpage ((k.max_threads + 4 + 1) * 16)
  let (actual_ldt, s) ← s.malloc k ldtlen
  let s := s.conditionalBloodLibel (actual_ldt = 0)
  return (actual_ldt, ldtlen, selector, s.mapLdt process actual_ldt entry ldtlen)

/-- The executable is mapped into the tree. -/
def mapProgram (s : Kernel) (process main_thread source : Nat) (header : Header) : Kernel :=
  let file := s.files source
  let pagetree := (s.processes process).pagetree
  let (found, words) := memMap s.words pagetree (file.mem.pool 0) k.pagetype 1
    Cache.WRITEBACK.code
  let userspace_code := fetchedPointer found
  let s := s.modifyProcess process fun p => { p with userspace_code := userspace_code }
  let s := s.modifyThread main_thread fun t =>
    { t with instruction_pointer := header.start.setWidth 64 + userspace_code }
  let (words, entry) := vmtoEntry userspace_code words pagetree
  let words := storeWords words entry
    (fun g => setBit (memreqTemplate walkedPagetype .MAP Cache.WRITEBACK.code 1 |||
      (file.mem.pool g <<< 12)) 63)
    file.length.toNat
  { s with words := words }

/-- `process->local_descriptor_table ={ .. }`, and the marks of its first six slots. -/
def setLdt (s : Kernel) (process : Nat) (actual_ldt : Word) (ldtlen selector : Half) :
    Option Kernel := do
  let (ckarray, s) ← s.malloc k 1
  let bytes := fillBytes s.bytes ckarray 1 6
  let s := { s with bytes := bytes }
  return s.modifyProcess process fun p =>
    { p with
      ldt :=
        ⟨⟨.POINTER, ldtlen, 0, fun i => bytes (ckarray + BitVec.ofNat 64 i), actual_ldt, 8⟩,
          selector⟩ }

/-- The loop of `make_stack`, with the entry that it has come down to. -/
def stackLoop : Nat → Kernel → Word → Option (Kernel × Word)
  | 0, s, entry => some (s, entry)
  | left + 1, s, entry => do
      let (pipe, s) ← s.malloc k 1
      let s := s.conditionalBloodLibel (pipe = 0)
      let templ := memreqTemplate Pag.SMALLPAGE .RESERVE Cache.WRITEBACK.code 0
      stackLoop left
        { s with words := Function.update s.words entry ((pipe <<< 12) ||| templ) } (entry - 64)

/-- `make_stack`. -/
def makeStack (s : Kernel) (process thread : Nat) : Option (Word × Kernel) := do
  let header := k.headerAt (s.processes (s.threads thread).parent).code
  let pagetree := (s.processes process).pagetree
  let stacksize := header.stacksize.toNat
  let (found, words) := vmtreeFetch pagetree s.words (stacksize + 1) Pag.SMALLPAGE
  let ret := fetchedPointer found
  if ret = -1 then return (0, { s with words := words })
  else
    let (words, entry) := vmtoEntry ret words pagetree
    let entry := wordAt entry ((stacksize + 1) * 8)
    let s := { s with words := words }.modifyThread thread fun t =>
      { t with stack_pointer := entrytoVm pagetree entry }
    let (s, entry) ← stackLoop k stacksize s entry
    return (ret, { s with words := Function.update s.words entry 0 })

/-- The segments of the heap and of the thread-local storage, and the thread can run. -/
def startThread (s : Kernel) (process main_thread : Nat) (header : Header) : Kernel :=
  let pool := (s.processes process).ldt.hash.pool
  let words := Function.update s.words (wordAt pool 4) (k.dataSegment header.heapsize)
  let words := Function.update words (wordAt pool 5) (k.dataSegment header.tls_size)
  { s with words := words }.modifyThread main_thread fun t =>
    { t with ds := 4, fs := 5, type := .APPLICATION, taken := 0 }

/-- What `exec` does with a file whose header is good. -/
def launch (s : Kernel) (caller source : Nat) (header : Header) (code : Word) :
    Option (Nat × Nat × Kernel) := do
  let (process, main_thread, s) := s.takeSlots k caller header code
  let s ← s.layTree k process
  let (actual_ldt, ldtlen, selector, s) ← s.takeLdt k process
  let s := s.mapProgram k process main_thread source header
  let s ← s.setLdt k process actual_ldt ldtlen selector
  let (_, s) ← s.makeStack k process main_thread
  return (process, main_thread, s.startThread k process main_thread header)

/-- `exec`: the value, the thread that was made, and the kernel.  A loop over more pages
than its counter can number does not end. -/
def exec (s : Kernel) (calling_thread source : Nat) : Option (Int × Option Nat × Kernel) := do
  let (code, s) ← s.loadPage k source 0
  let header := k.headerAt code
  if header.sum ≠ header.checksum then return (-1, none, s)
  else
    let caller := (s.threads calling_thread).parent
    if header.program_type = k.SYSTEM ∧ (s.processes caller).owner_id ≠ k.ROOT then
      return (-2, none, s)
    else
      let length := (s.files source).length.toNat
      if 2 ^ 32 ≤ length then none
      else
        let s ← loadPages k source (length - 1) 1 s
        let (process, main_thread, s) ← s.launch k caller source header code
        return (process, some main_thread, s)

/-- `thread`: the number of the new thread, and the kernel. -/
def thread (s : Kernel) (calling_thread : Nat) : Option (Nat × Bool × Kernel) := do
  let (found, ktrd) := s.ktrd.alloc 1 0
  let newfag := slotIn s.ktrd found
  let s := { s with ktrd := ktrd }.modifyThread newfag fun t => { t with taken := 255 }
  let s := s.conditionalBloodLibel (found.getD 0 = 0)
  let s := s.modifyThread newfag fun _ => s.threads calling_thread
  let father := (s.threads calling_thread).parent
  let (term, s) ← s.makeStack k father newfag
  if term = 0 then
    let (ktrd, bytes) := s.ktrd.free s.bytes (found.getD 0) 1
    return (0, false,
      { s with ktrd := ktrd, bytes := bytes }.modifyThread newfag fun _ => zeroThread)
  else
    let (segment, ldt) := (s.processes father).ldt.hash.alloc 1 0
    let s := s.modifyProcess father fun p => { p with ldt := { p.ldt with hash := ldt } }
    return (newfag / k.sizeofThread, true,
      s.modifyThread newfag fun t =>
        { t with stack_pointer := term, ds := 4, fs := segment.getD 0, taken := 0 })

end Kernel

/-- `exec` returns before it takes anything: the header does not add up, or the program is
a system program and the caller is not the root. -/
def Kernel.Refuses (k : Config) (s : Kernel) (calling_thread source : Nat) : Prop :=
  ∃ code s', s.loadPage k source 0 = some (code, s') ∧
    ((k.headerAt code).sum ≠ (k.headerAt code).checksum ∨
      (k.headerAt code).program_type = k.SYSTEM ∧
        (s.processes (s.threads calling_thread).parent).owner_id ≠ k.ROOT)

/-- What the steps of `exec` behind the pools leave alone, for the process `p` and its
thread `t`. -/
structure Builds (p t : Nat) (s s' : Kernel) : Prop where
  starved : s.starved ≤ s'.starved
  kprc : s'.kprc = s.kprc
  ktrd : s'.ktrd = s.ktrd
  kptr : s'.kptr = s.kptr
  pointers : s'.pointers = s.pointers
  processes : ∀ q, q ≠ p → s'.processes q = s.processes q
  owner : (s'.processes p).owner_id = (s.processes p).owner_id
  workers : (s'.processes p).workers = (s.processes p).workers
  descs : (s'.processes p).descs = (s.processes p).descs
  threads : ∀ u, u ≠ t → s'.threads u = s.threads u
  parent : (s'.threads t).parent = (s.threads t).parent

section Frames

variable {p t : Nat} {s s' s'' : Kernel}

theorem Builds.refl (s : Kernel) : Builds p t s s :=
  ⟨Nat.le_refl _, rfl, rfl, rfl, rfl, fun _ _ => rfl, rfl, rfl, rfl, fun _ _ => rfl, rfl⟩

theorem Builds.trans
    (h : Builds p t s s')
    (h' : Builds p t s' s'') :
    Builds p t s s'' where
  starved := Nat.le_trans h.starved h'.starved
  kprc := h'.kprc.trans h.kprc
  ktrd := h'.ktrd.trans h.ktrd
  kptr := h'.kptr.trans h.kptr
  pointers := h'.pointers.trans h.pointers
  processes q hq := (h'.processes q hq).trans (h.processes q hq)
  owner := h'.owner.trans h.owner
  workers := h'.workers.trans h.workers
  descs := h'.descs.trans h.descs
  threads u hu := (h'.threads u hu).trans (h.threads u hu)
  parent := h'.parent.trans h.parent

/-- Page trees, bytes, frames and the global descriptor table. -/
theorem Builds.memory
    (s : Kernel) (words : WordMemory) (bytes : ByteMemory) (table : RamTable) (gdt : Hash) :
    Builds p t s { s with words := words, bytes := bytes, table := table, gdt := gdt } :=
  ⟨Nat.le_refl _, rfl, rfl, rfl, rfl, fun _ _ => rfl, rfl, rfl, rfl, fun _ _ => rfl, rfl⟩

theorem Builds.bloodLibel
    (s : Kernel) (condition : Bool) :
    Builds p t s (s.conditionalBloodLibel condition) :=
  ⟨Nat.le_add_right _ _, rfl, rfl, rfl, rfl, fun _ _ => rfl, rfl, rfl, rfl, fun _ _ => rfl, rfl⟩

/-- A write to the process that is made, to neither its owner nor its lists. -/
theorem Builds.modifyProcess
    {write : Process → Process}
    (howner : ∀ x, (write x).owner_id = x.owner_id)
    (hworkers : ∀ x, (write x).workers = x.workers)
    (hdescs : ∀ x, (write x).descs = x.descs) :
    Builds p t s (s.modifyProcess p write) where
  starved := Nat.le_refl _
  kprc := rfl
  ktrd := rfl
  kptr := rfl
  pointers := rfl
  processes _ hq := Function.update_of_ne hq _ _
  owner := (congrArg Process.owner_id (Function.update_self p _ s.processes)).trans (howner _)
  workers := (congrArg Process.workers (Function.update_self p _ s.processes)).trans (hworkers _)
  descs := (congrArg Process.descs (Function.update_self p _ s.processes)).trans (hdescs _)
  threads _ _ := rfl
  parent := rfl

/-- A write to the thread that is made, not to its parent. -/
theorem Builds.modifyThread
    {write : Thread → Thread}
    (hparent : ∀ x, (write x).parent = x.parent) :
    Builds p t s (s.modifyThread t write) where
  starved := Nat.le_refl _
  kprc := rfl
  ktrd := rfl
  kptr := rfl
  pointers := rfl
  processes _ _ := rfl
  owner := rfl
  workers := rfl
  descs := rfl
  threads _ hu := Function.update_of_ne hu _ _
  parent := (congrArg Thread.parent (Function.update_self t _ s.threads)).trans (hparent _)

end Frames

section Stages

variable {k : Config} {p t : Nat} {s s' : Kernel}

/-- An allocation changes the table of frames and nothing else. -/
theorem malloc_frame
    {pages_number : Half} {ret : Word}
    (h : s.malloc k pages_number = some (ret, s')) :
    ∃ table, Mem.malloc k.memlen k.fuel s.table pages_number Pag.SMALLPAGE = some (ret, table) ∧
      s' = { s with table := table } := by
  unfold Kernel.malloc at h
  obtain ⟨⟨found, table⟩, hmalloc, hkernel⟩ := Option.bind_eq_some_iff.mp h
  obtain ⟨rfl, rfl⟩ := Prod.mk.inj (Option.some.inj hkernel)
  exact ⟨table, hmalloc, rfl⟩

theorem malloc_builds
    {pages_number : Half} {ret : Word}
    (h : s.malloc k pages_number = some (ret, s')) :
    Builds p t s s' := by
  obtain ⟨table, -, rfl⟩ := malloc_frame h
  exact Builds.memory s s.words s.bytes table s.gdt

/-- What `exec` does for the page tree beside the words that it writes. -/
theorem layTree_frame
    (h : s.layTree k p = some s') :
    ∃ pagetree s₁ words, s.malloc k 32834 = some (pagetree, s₁) ∧
      s' = { (s₁.modifyProcess p fun x => { x with pagetree := pagetree }).conditionalBloodLibel
        (pagetree = 0) with words := words } := by
  unfold Kernel.layTree at h
  obtain ⟨⟨pagetree, s₁⟩, hmalloc, h⟩ := Option.bind_eq_some_iff.mp h
  obtain ⟨_, -, h⟩ := Option.bind_eq_some_iff.mp h
  obtain ⟨_, -, h⟩ := Option.bind_eq_some_iff.mp h
  obtain ⟨words, -, h⟩ := Option.bind_eq_some_iff.mp h
  cases h
  exact ⟨pagetree, s₁, words, hmalloc, rfl⟩

theorem layTree_builds
    (h : s.layTree k p = some s') :
    Builds p t s s' := by
  obtain ⟨pagetree, s₁, words, hmalloc, rfl⟩ := layTree_frame h
  have htree :
      Builds p t s₁ (s₁.modifyProcess p fun x => { x with pagetree := pagetree }) :=
    Builds.modifyProcess (fun _ => rfl) (fun _ => rfl) fun _ => rfl
  refine (malloc_builds hmalloc).trans (htree.trans ?_)
  exact (Builds.bloodLibel _ _).trans (Builds.memory _ _ _ _ _)

theorem mapLdt_builds
    (actual_ldt entry : Word) (ldtlen : Half) :
    Builds p t s (s.mapLdt p actual_ldt entry ldtlen) := by
  unfold Kernel.mapLdt
  dsimp only
  exact Builds.memory s _ s.bytes s.table s.gdt

theorem takeEntry_builds :
    Builds p t s (s.takeEntry p).2.2 := by
  unfold Kernel.takeEntry
  dsimp only
  refine Builds.trans ?_ (Builds.modifyProcess (fun _ => rfl) (fun _ => rfl) fun _ => rfl)
  exact Builds.memory s s.words s.bytes s.table (s.gdt.alloc 1 0).2

theorem takeLdt_builds
    {actual_ldt : Word} {ldtlen selector : Half}
    (h : s.takeLdt k p = some (actual_ldt, ldtlen, selector, s')) :
    Builds p t s s' := by
  unfold Kernel.takeLdt at h
  obtain ⟨⟨page, s₁⟩, hmalloc, h⟩ := Option.bind_eq_some_iff.mp h
  cases h
  exact takeEntry_builds.trans ((malloc_builds hmalloc).trans ((Builds.bloodLibel _ _).trans
    (mapLdt_builds _ _ _)))

theorem mapProgram_builds
    (source : Nat) (header : Header) :
    Builds p t s (s.mapProgram k p t source header) := by
  unfold Kernel.mapProgram
  refine Builds.trans ?_ (Builds.memory _ _ _ _ _)
  refine Builds.trans ?_ (Builds.modifyThread fun _ => rfl)
  exact Builds.modifyProcess (fun _ => rfl) (fun _ => rfl) fun _ => rfl

theorem setLdt_builds
    {actual_ldt : Word} {ldtlen selector : Half}
    (h : s.setLdt k p actual_ldt ldtlen selector = some s') :
    Builds p t s s' := by
  unfold Kernel.setLdt at h
  obtain ⟨⟨ckarray, s₁⟩, hmalloc, h⟩ := Option.bind_eq_some_iff.mp h
  cases h
  refine (malloc_builds hmalloc).trans ?_
  refine Builds.trans ?_ (Builds.modifyProcess (fun _ => rfl) (fun _ => rfl) fun _ => rfl)
  exact Builds.memory s₁ s₁.words (fillBytes s₁.bytes ckarray 1 6) s₁.table s₁.gdt

/-- The pages of a stack. -/
theorem stackLoop_builds
    {left : Nat} {entry entry' : Word}
    (h : Kernel.stackLoop k left s entry = some (s', entry')) :
    Builds p t s s' := by
  induction left generalizing s entry with
  | zero =>
      cases h
      exact Builds.refl _
  | succ left ih =>
      rw [Kernel.stackLoop] at h
      obtain ⟨⟨pipe, s₁⟩, hmalloc, h⟩ := Option.bind_eq_some_iff.mp h
      exact (malloc_builds hmalloc).trans ((Builds.bloodLibel _ _).trans
        ((Builds.memory _ _ _ _ _).trans (ih h)))

/-- They are taken for no process and no thread in particular. -/
theorem stackLoop_kept
    {left : Nat} {entry entry' : Word}
    (h : Kernel.stackLoop k left s entry = some (s', entry')) :
    s'.processes = s.processes ∧ s'.threads = s.threads := by
  constructor
  · funext q
    have hbuilds : Builds (q + 1) 0 s s' := stackLoop_builds h
    exact hbuilds.processes q (Nat.ne_of_lt (Nat.lt_succ_self q))
  · funext u
    have hbuilds : Builds 0 (u + 1) s s' := stackLoop_builds h
    exact hbuilds.threads u (Nat.ne_of_lt (Nat.lt_succ_self u))

theorem makeStack_builds
    {process : Nat} {ret : Word}
    (h : s.makeStack k process t = some (ret, s')) :
    Builds p t s s' := by
  unfold Kernel.makeStack at h
  dsimp only at h
  split_ifs at h
  · cases h
    exact Builds.memory _ _ _ _ _
  · obtain ⟨⟨s₁, entry⟩, hloop, h⟩ := Option.bind_eq_some_iff.mp h
    cases h
    refine Builds.trans ?_ ((stackLoop_builds hloop).trans (Builds.memory _ _ _ _ _))
    refine Builds.trans ?_ (Builds.modifyThread fun _ => rfl)
    exact Builds.memory _ _ _ _ _

theorem startThread_builds
    (header : Header) :
    Builds p t s (s.startThread k p t header) := by
  unfold Kernel.startThread
  refine Builds.trans ?_ (Builds.modifyThread fun _ => rfl)
  exact Builds.memory _ _ _ _ _

/-- The process slot and the thread slot that `exec` takes next. -/
def nextProcess (s : Kernel) : Nat := slotIn s.kprc (s.kprc.alloc 1 0).1

def nextThread (s : Kernel) : Nat := slotIn s.ktrd (s.ktrd.alloc 1 0).1

/-- Where `exec` puts the two lists of the process. -/
def nextWorkers (s : Kernel) : Word := (s.kptr.alloc 1 0).1.getD 0

def nextDescs (s : Kernel) : Word := ((s.kptr.alloc 1 0).2.alloc 2 0).1.getD 0

/-- The words of the pool of pointers after `exec`: its thread in the one list, its
descriptors in the other. -/
def launchedPointers (s : Kernel) : Word → Pointer :=
  let first := slotIn s.kdescs (s.kdescs.alloc 1 0).1
  let kdescs := (s.kdescs.alloc 1 0).2
  let second := slotIn kdescs (kdescs.alloc 1 0).1
  Function.update
    (Function.update
      (Function.update s.pointers (nextWorkers s) (threadPointer (nextThread s)))
      (wordAt (nextDescs s) 0) (descriptorPointer first))
    (wordAt (nextDescs s) 1) (descriptorPointer second)

/-- What `exec` leaves in the pools, in its process and in its thread. -/
structure Taken (s s' : Kernel) : Prop where
  kprc : s'.kprc = (s.kprc.alloc 1 0).2
  ktrd : s'.ktrd = (s.ktrd.alloc 1 0).2
  kptr : s'.kptr = ((s.kptr.alloc 1 0).2.alloc 2 0).2
  fed : s'.starved ≤ s.starved →
    (s.kptr.alloc 1 0).1.isSome ∧ ((s.kptr.alloc 1 0).2.alloc 2 0).1.isSome
  pointers : s'.pointers = launchedPointers s
  processes : ∀ q, q ≠ nextProcess s → s'.processes q = s.processes q
  descs : (s'.processes (nextProcess s)).descs.length = 0
  count : (s'.processes (nextProcess s)).workers.count = 1
  pool : (s'.processes (nextProcess s)).workers.pool = nextWorkers s
  threads : ∀ u, u ≠ nextThread s → s'.threads u = s.threads u
  parent : (s'.threads (nextThread s)).parent = (s.threads (nextThread s)).parent

/-- Pools, processes and threads stay, as descriptors are written. -/
structure Keeps (s s' : Kernel) : Prop where
  kprc : s'.kprc = s.kprc
  ktrd : s'.ktrd = s.ktrd
  kptr : s'.kptr = s.kptr
  starved : s.starved ≤ s'.starved
  processes : s'.processes = s.processes
  threads : s'.threads = s.threads

theorem Keeps.trans
    {s₁ : Kernel}
    (h : Keeps s s₁)
    (h' : Keeps s₁ s') :
    Keeps s s' :=
  ⟨h'.kprc.trans h.kprc, h'.ktrd.trans h.ktrd, h'.kptr.trans h.kptr,
    Nat.le_trans h.starved h'.starved, h'.processes.trans h.processes, h'.threads.trans h.threads⟩

theorem takeDescriptors_keeps
    (s : Kernel) (caller : Nat) :
    Keeps s (s.takeDescriptors k caller p) := by
  have htake : ∀ (s : Kernel) i, Keeps s (s.takeDescriptor p i) :=
    fun _ _ => ⟨rfl, rfl, rfl, Nat.le_refl _, rfl, rfl⟩
  have hlibel : ∀ (s : Kernel) condition, Keeps s (s.conditionalBloodLibel condition) :=
    fun _ _ => ⟨rfl, rfl, rfl, Nat.le_add_right _ _, rfl, rfl⟩
  have hmodify : ∀ (s : Kernel) d write, Keeps s (s.modifyDescriptor d write) :=
    fun _ _ _ => ⟨rfl, rfl, rfl, Nat.le_refl _, rfl, rfl⟩
  unfold Kernel.takeDescriptors
  refine Keeps.trans ?_ (hmodify _ _ _)
  refine Keeps.trans ?_ (hmodify _ _ _)
  refine Keeps.trans ?_ (hlibel _ _)
  exact (htake s 0).trans (htake _ 1)

theorem takeDescriptors_pointers
    (s : Kernel) (caller : Nat) :
    (s.takeDescriptors k caller p).pointers =
      ((s.takeDescriptor p 0).takeDescriptor p 1).pointers := by
  have hlibel : ∀ (s : Kernel) condition, (s.conditionalBloodLibel condition).pointers = s.pointers :=
    fun _ _ => rfl
  have hmodify : ∀ (s : Kernel) d write, (s.modifyDescriptor d write).pointers = s.pointers :=
    fun _ _ _ => rfl
  unfold Kernel.takeDescriptors
  dsimp only
  rw [hmodify, hmodify, hlibel]

/-- The kernel with the slots of `exec` but for its descriptors. -/
def slotsTaken (s : Kernel) (caller : Nat) (header : Header) (code : Word) : Kernel :=
  let made := newProcess (s.processes caller) header code s.bytes
  { s with
    kprc := (s.kprc.alloc 1 0).2
    ktrd := (s.ktrd.alloc 1 0).2
    kptr := ((s.kptr.alloc 1 0).2.alloc 2 0).2
    pointers := Function.update s.pointers (nextWorkers s) (threadPointer (nextThread s))
    processes := Function.update s.processes (nextProcess s)
      { made with
        workers := { made.workers with pool := nextWorkers s }
        descs := { made.descs with pool := nextDescs s } }
    threads := Function.update s.threads (nextThread s) { s.threads (nextThread s) with taken := 255 }
    starved := s.starved + (decide ((s.kprc.alloc 1 0).1.getD 0 = 0)).toNat +
      (decide (nextWorkers s = 0)).toNat + (decide (nextDescs s = 0)).toNat +
      (decide ((s.ktrd.alloc 1 0).1.getD 0 = 0)).toNat }

/-- The owner that the process in its slot has. -/
theorem slotsTaken_owner
    (s : Kernel) (caller : Nat) (header : Header) (code : Word) :
    ((slotsTaken s caller header code).processes (nextProcess s)).owner_id =
      (s.processes caller).owner_id := by
  unfold slotsTaken
  dsimp only
  rw [Function.update_self]
  rfl

theorem takeProcess_eq
    (s : Kernel) (caller : Nat) (header : Header) (code : Word) :
    s.takeProcess caller header code =
      (nextProcess s,
        { s with
          kprc := (s.kprc.alloc 1 0).2
          processes := Function.update s.processes (nextProcess s)
            (newProcess (s.processes caller) header code s.bytes)
          starved := s.starved + (decide ((s.kprc.alloc 1 0).1.getD 0 = 0)).toNat }) := rfl

theorem takePointers_eq
    (s : Kernel) (reqlen : Half) (assign : Process → Word → Process) :
    s.takePointers p reqlen assign =
      { s with
        kptr := (s.kptr.alloc reqlen 0).2
        processes := Function.update s.processes p
          (assign (s.processes p) ((s.kptr.alloc reqlen 0).1.getD 0))
        starved := s.starved + (decide ((s.kptr.alloc reqlen 0).1.getD 0 = 0)).toNat } := rfl

theorem takeThread_eq
    (s : Kernel) :
    s.takeThread p =
      (nextThread s,
        { s with
          ktrd := (s.ktrd.alloc 1 0).2
          pointers := Function.update s.pointers (s.processes p).workers.pool
            (threadPointer (nextThread s))
          threads := Function.update s.threads (nextThread s)
            { s.threads (nextThread s) with taken := 255 }
          starved := s.starved + (decide ((s.ktrd.alloc 1 0).1.getD 0 = 0)).toNat }) := rfl

theorem takeSlots_eq
    (s : Kernel) (caller : Nat) (header : Header) (code : Word) :
    s.takeSlots k caller header code = (nextProcess s, nextThread s,
      (slotsTaken s caller header code).takeDescriptors k caller (nextProcess s)) := by
  simp only [Kernel.takeSlots, takeProcess_eq, takePointers_eq, takeThread_eq,
    Function.update_self, Function.update_idem]
  rfl

theorem isSome_of_getD_ne
    {found : Option Word}
    (h : (decide (found.getD 0 = 0)).toNat = 0) :
    found.isSome := by
  cases found with
  | none => cases h
  | some address => rfl

theorem takeSlots_spec
    (caller : Nat) (header : Header) (code : Word) :
    ∃ s', s.takeSlots k caller header code = (nextProcess s, nextThread s, s') ∧ Taken s s' := by
  refine ⟨_, takeSlots_eq s caller header code, ?_⟩
  have hkeeps : Keeps (slotsTaken s caller header code)
      ((slotsTaken s caller header code).takeDescriptors k caller (nextProcess s)) :=
    takeDescriptors_keeps _ caller
  have hlists : ((slotsTaken s caller header code).processes (nextProcess s)).descs.length = 0 ∧
      ((slotsTaken s caller header code).processes (nextProcess s)).descs.pool = nextDescs s ∧
      ((slotsTaken s caller header code).processes (nextProcess s)).workers.count = 1 ∧
      ((slotsTaken s caller header code).processes (nextProcess s)).workers.pool = nextWorkers s := by
    unfold slotsTaken
    dsimp only
    rw [Function.update_self]
    exact ⟨rfl, rfl, rfl, rfl⟩
  obtain ⟨hlength, hdescs, hcount, hpool⟩ := hlists
  refine ⟨hkeeps.kprc, hkeeps.ktrd, hkeeps.kptr, ?_, ?_, ?_, ?_, ?_, ?_, ?_, ?_⟩
  · intro hfed
    -- each null pointer calls `BLOOD_LIBEL` once, and no call is taken back
    have hstarved := Nat.le_trans hkeeps.starved hfed
    rw [slotsTaken] at hstarved
    dsimp only at hstarved
    exact ⟨isSome_of_getD_ne (by unfold nextWorkers at hstarved; omega),
      isSome_of_getD_ne (by unfold nextDescs at hstarved; omega)⟩
  · rw [takeDescriptors_pointers]
    unfold Kernel.takeDescriptor
    dsimp only
    rw [hdescs]
    rfl
  · intro q hq
    rw [hkeeps.processes]
    exact Function.update_of_ne hq _ _
  · rw [hkeeps.processes, hlength]
  · rw [hkeeps.processes, hcount]
  · rw [hkeeps.processes, hpool]
  · intro u hu
    rw [hkeeps.threads]
    exact Function.update_of_ne hu _ _
  · rw [hkeeps.threads]
    unfold slotsTaken
    dsimp only
    rw [Function.update_self]

/-- The stages of a launch. -/
theorem launch_stages
    {caller source process main_thread : Nat} {header : Header} {code : Word}
    (h : s.launch k caller source header code = some (process, main_thread, s')) :
    ∃ s₁ s₂ s₃ s₄ s₅ actual_ldt ldtlen selector ret,
      s.takeSlots k caller header code = (process, main_thread, s₁) ∧
      s₁.layTree k process = some s₂ ∧
      s₂.takeLdt k process = some (actual_ldt, ldtlen, selector, s₃) ∧
      (s₃.mapProgram k process main_thread source header).setLdt k process actual_ldt ldtlen
        selector = some s₄ ∧
      s₄.makeStack k process main_thread = some (ret, s₅) ∧
      s' = s₅.startThread k process main_thread header := by
  unfold Kernel.launch at h
  obtain ⟨⟨taken, main, s₁⟩, htaken⟩ : ∃ r, r = s.takeSlots k caller header code := ⟨_, rfl⟩
  rw [← htaken] at h
  dsimp only at h
  obtain ⟨s₂, htree, h⟩ := Option.bind_eq_some_iff.mp h
  obtain ⟨⟨actual_ldt, ldtlen, selector, s₃⟩, hldt, h⟩ := Option.bind_eq_some_iff.mp h
  obtain ⟨s₄, hset, h⟩ := Option.bind_eq_some_iff.mp h
  obtain ⟨⟨ret, s₅⟩, hstack, h⟩ := Option.bind_eq_some_iff.mp h
  cases h
  exact ⟨s₁, s₂, s₃, s₄, s₅, actual_ldt, ldtlen, selector, ret, htaken.symm, htree, hldt, hset,
    hstack, rfl⟩

/-- Everything that `exec` does once it has its slots. -/
theorem launch_builds
    {caller source process main_thread : Nat} {header : Header} {code : Word}
    (h : s.launch k caller source header code = some (process, main_thread, s')) :
    ∃ s₁, s.takeSlots k caller header code = (process, main_thread, s₁) ∧
      Builds process main_thread s₁ s' := by
  obtain ⟨s₁, s₂, s₃, s₄, s₅, actual_ldt, ldtlen, selector, ret, htaken, htree, hldt, hset, hstack,
    rfl⟩ := launch_stages h
  refine ⟨s₁, htaken, (layTree_builds htree).trans ((takeLdt_builds hldt).trans ?_)⟩
  refine (mapProgram_builds source header).trans ((setLdt_builds hset).trans ?_)
  exact (makeStack_builds hstack).trans (startThread_builds header)

/-- Taking slots and filling them in. -/
theorem Taken.builds
    {s₁ : Kernel}
    (h : Taken s s₁)
    (h' : Builds (nextProcess s) (nextThread s) s₁ s') :
    Taken s s' where
  kprc := h'.kprc.trans h.kprc
  ktrd := h'.ktrd.trans h.ktrd
  kptr := h'.kptr.trans h.kptr
  fed hfed := h.fed (Nat.le_trans h'.starved hfed)
  pointers := h'.pointers.trans h.pointers
  processes q hq := (h'.processes q hq).trans (h.processes q hq)
  descs := (congrArg Hash.length h'.descs).trans h.descs
  count := (congrArg Hash.count h'.workers).trans h.count
  pool := (congrArg Hash.pool h'.workers).trans h.pool
  threads u hu := (h'.threads u hu).trans (h.threads u hu)
  parent := h'.parent.trans h.parent

/-- Loading a file touches frames and files only. -/
structure Loads (s s' : Kernel) : Prop extends Keeps s s' where
  kdescs : s'.kdescs = s.kdescs
  pointers : s'.pointers = s.pointers

theorem Loads.refl (s : Kernel) : Loads s s :=
  ⟨⟨rfl, rfl, rfl, Nat.le_refl _, rfl, rfl⟩, rfl, rfl⟩

theorem Loads.trans
    {s₁ : Kernel}
    (h : Loads s s₁)
    (h' : Loads s₁ s') :
    Loads s s' :=
  ⟨h.toKeeps.trans h'.toKeeps, h'.kdescs.trans h.kdescs, h'.pointers.trans h.pointers⟩

theorem loadPage_loads
    {f : Nat} {page : Half} {address : Word}
    (h : s.loadPage k f page = some (address, s')) :
    Loads s s' := by
  unfold Kernel.loadPage at h
  dsimp only at h
  split_ifs at h
  · cases h
    exact Loads.refl s
  · obtain ⟨⟨fresh, table⟩, _, h⟩ := Option.bind_eq_some_iff.mp h
    cases h
    exact ⟨⟨rfl, rfl, rfl, Nat.le_refl _, rfl, rfl⟩, rfl, rfl⟩

theorem loadPages_loads
    {f left : Nat} {i : Half}
    (h : Kernel.loadPages k f left i s = some s') :
    Loads s s' := by
  induction left generalizing s i with
  | zero =>
      cases h
      exact Loads.refl _
  | succ left ih =>
      rw [Kernel.loadPages] at h
      obtain ⟨⟨address, s₁⟩, hload, h⟩ := Option.bind_eq_some_iff.mp h
      have hlibel : Loads s₁ (s₁.conditionalBloodLibel (address = 0)) :=
        ⟨⟨rfl, rfl, rfl, Nat.le_add_right _ _, rfl, rfl⟩, rfl, rfl⟩
      exact (loadPage_loads hload).trans (hlibel.trans (ih h))

/-- What was loaded before makes no difference to the slots. -/
theorem Loads.taken
    {s₁ : Kernel}
    (h : Loads s s₁)
    (h' : Taken s₁ s') :
    nextProcess s₁ = nextProcess s ∧ nextThread s₁ = nextThread s ∧ Taken s s' := by
  have hprocess : nextProcess s₁ = nextProcess s := by
    unfold nextProcess
    rw [h.kprc]
  have hthread : nextThread s₁ = nextThread s := by
    unfold nextThread
    rw [h.ktrd]
  have hworkers : nextWorkers s₁ = nextWorkers s := by
    unfold nextWorkers
    rw [h.kptr]
  have hdescs : nextDescs s₁ = nextDescs s := by
    unfold nextDescs
    rw [h.kptr]
  have hpointers : launchedPointers s₁ = launchedPointers s := by
    unfold launchedPointers
    rw [hworkers, hdescs, hthread, h.kdescs, h.pointers]
  refine ⟨hprocess, hthread, ?_⟩
  constructor
  · rw [h'.kprc, h.kprc]
  · rw [h'.ktrd, h.ktrd]
  · rw [h'.kptr, h.kptr]
  · intro hfed
    rw [← h.kptr]
    exact h'.fed (Nat.le_trans hfed h.starved)
  · rw [h'.pointers, hpointers]
  · intro q hq
    rw [h'.processes q (hprocess ▸ hq), h.processes]
  · exact hprocess ▸ h'.descs
  · exact hprocess ▸ h'.count
  · rw [← hprocess, h'.pool, hworkers]
  · intro u hu
    rw [h'.threads u (hthread ▸ hu), h.threads]
  · rw [← hthread, h'.parent, h.threads]

/-- A refused file leaves what was loaded of it. -/
theorem exec_refused
    {calling_thread source : Nat} {ret : Int} {made : Option Nat}
    (h : s.exec k calling_thread source = some (ret, made, s'))
    (hbad : s.Refuses k calling_thread source) :
    made = none ∧ Loads s s' := by
  obtain ⟨code', s₀, hload', hbad⟩ := hbad
  unfold Kernel.exec at h
  obtain ⟨⟨code, s₁⟩, hload, h⟩ := Option.bind_eq_some_iff.mp h
  have hloads := loadPage_loads hload
  rw [hload] at hload'
  cases hload'
  rw [← hloads.threads, ← hloads.processes] at hbad
  dsimp only at h
  split_ifs at h with hsum hsystem hlength
  · cases h
    exact ⟨rfl, hloads⟩
  · cases h
    exact ⟨rfl, hloads⟩
  · exact absurd hbad (not_or_intro hsum hsystem)

/-- A good file is loaded and launched. -/
theorem exec_launch
    {calling_thread source : Nat} {ret : Int} {made : Option Nat}
    (h : s.exec k calling_thread source = some (ret, made, s'))
    (hgood : ¬ s.Refuses k calling_thread source) :
    ∃ s₁ header code process main_thread, Loads s s₁ ∧
      s₁.launch k (s.threads calling_thread).parent source header code =
        some (process, main_thread, s') ∧
      ret = process ∧ made = some main_thread := by
  unfold Kernel.exec at h
  obtain ⟨⟨code, s₁⟩, hload, h⟩ := Option.bind_eq_some_iff.mp h
  have hloads := loadPage_loads hload
  dsimp only at h
  rw [hloads.threads, hloads.processes] at h
  split_ifs at h with hsum hsystem hlength
  · exact absurd ⟨code, s₁, hload, Or.inl hsum⟩ hgood
  · exact absurd ⟨code, s₁, hload, Or.inr hsystem⟩ hgood
  · obtain ⟨s₂, hpages, h⟩ := Option.bind_eq_some_iff.mp h
    obtain ⟨⟨process, main_thread, s₃⟩, hlaunch, h⟩ := Option.bind_eq_some_iff.mp h
    cases h
    exact ⟨s₂, _, code, process, main_thread, hloads.trans (loadPages_loads hpages), hlaunch,
      rfl, rfl⟩

/-- **What `exec` does**: either it refuses the file and has loaded some of it, or it
makes a process in the next slot, with a thread in the next slot. -/
theorem exec_spec
    {calling_thread source : Nat} {ret : Int} {made : Option Nat}
    (h : s.exec k calling_thread source = some (ret, made, s')) :
    (s.Refuses k calling_thread source ∧ made = none ∧ Loads s s') ∨
      (¬ s.Refuses k calling_thread source ∧ made = some (nextThread s) ∧
        ret = nextProcess s ∧ Taken s s') := by
  by_cases hbad : s.Refuses k calling_thread source
  · exact Or.inl ⟨hbad, exec_refused h hbad⟩
  · obtain ⟨s₁, header, code, process, main_thread, hloads, hlaunch, rfl, rfl⟩ :=
      exec_launch h hbad
    obtain ⟨s₂, htake, hbuilds⟩ := launch_builds hlaunch
    obtain ⟨s₃, htake', htaken⟩ :=
      takeSlots_spec (k := k) (s := s₁) (s.threads calling_thread).parent header code
    rw [htake'] at htake
    cases htake
    obtain ⟨hprocess, hthread, hmade⟩ := hloads.taken (htaken.builds hbuilds)
    exact Or.inr ⟨hbad, by rw [hthread], by rw [hprocess], hmade⟩

/-- **The process that `exec` makes has the owner of the calling one.** -/
theorem exec_owner
    {calling_thread source : Nat} {ret : Int} {made : Option Nat}
    (h : s.exec k calling_thread source = some (ret, made, s'))
    (hgood : ¬ s.Refuses k calling_thread source) :
    (s'.processes (nextProcess s)).owner_id =
      (s.processes (s.threads calling_thread).parent).owner_id := by
  obtain ⟨s₁, header, code, process, main_thread, hloads, hlaunch, -, -⟩ := exec_launch h hgood
  obtain ⟨s₂, htake, hbuilds⟩ := launch_builds hlaunch
  rw [takeSlots_eq] at htake
  cases htake
  have hprocess : nextProcess s₁ = nextProcess s := by
    unfold nextProcess
    rw [hloads.kprc]
  have howner := hbuilds.owner
  rwa [(takeDescriptors_keeps _ _).processes, slotsTaken_owner, hloads.processes, hprocess]
    at howner

/-- What the search finds starts at address 0, so there is never a stack. -/
theorem makeStack_zero
    {process : Nat} {ret : Word}
    (h : s.makeStack k process t = some (ret, s')) :
    ret = 0 := by
  unfold Kernel.makeStack at h
  dsimp only at h
  split_ifs at h
  · cases h
    rfl
  · obtain ⟨⟨s₁, entry⟩, -, h⟩ := Option.bind_eq_some_iff.mp h
    cases h
    exact fetchedPointer_vmtreeFetch _ _ _

/-- What a `thread` that fails leaves: the slot for the clone is zeroed. -/
structure Cleared (s s' : Kernel) : Prop where
  pointers : s'.pointers = s.pointers
  owner : ∀ q, (s'.processes q).owner_id = (s.processes q).owner_id
  workers : ∀ q, (s'.processes q).workers = (s.processes q).workers
  threads : ∀ u, u ≠ nextThread s → s'.threads u = s.threads u
  cleared : s'.threads (nextThread s) = zeroThread

/-- **`thread` never makes a thread**, for want of a stack. -/
theorem thread_spec
    {calling_thread newfag : Nat} {made : Bool}
    (h : s.thread k calling_thread = some (newfag, made, s')) :
    made = false ∧ Cleared s s' := by
  unfold Kernel.thread at h
  dsimp only at h
  obtain ⟨⟨term, s₁⟩, hstack, h⟩ := Option.bind_eq_some_iff.mp h
  have hbuilds := makeStack_builds (p := (s.threads calling_thread).parent) hstack
  rw [if_pos (makeStack_zero hstack)] at h
  cases h
  refine ⟨rfl, hbuilds.pointers, fun q => ?_, fun q => ?_, fun u hu => ?_,
    Function.update_self _ _ _⟩
  · by_cases hq : q = (s.threads calling_thread).parent
    · rw [hq]
      exact hbuilds.owner
    · exact congrArg Process.owner_id (hbuilds.processes q hq)
  · by_cases hq : q = (s.threads calling_thread).parent
    · rw [hq]
      exact hbuilds.workers
    · exact congrArg Process.workers (hbuilds.processes q hq)
  · refine (Function.update_of_ne hu _ _).trans ((hbuilds.threads u hu).trans ?_)
    exact (Function.update_of_ne hu _ _).trans (Function.update_of_ne hu _ _)

end Stages

end Processes
end BestKernel
