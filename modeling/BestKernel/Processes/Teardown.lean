import BestKernel.Mem.FrameRuns
import BestKernel.Mem.IdentityMap
import BestKernel.Processes.Exec
import BestKernel.Vfs.Calls

/-!
# Ending threads and processes

`TKILL` and `PKILL`, and what a process gives back of what `exec` took.  The three
slots of the pool of pointers are never given back: the list of descriptors that
`PKILL` goes through has length 0, and the lists themselves are freed as descriptors,
with that length (`exec_not_conserved`).

Readings of the source.  `children` of a process are its `workers`, and `process` and
`thread_parent` in `TKILL` the parent of the thread.  `pool_free` of a process or a
thread frees one slot.  The `pagetype` that `PKILL` starts with is 0, and the array in
which `mem_free` collects addresses, whose own address `manipulate_phys` is given, lies
at an address that is a parameter.  A signal for a fault in the process that is torn down
is not part of the state.  `free` is `mfree`.
-/

namespace BestKernel
namespace Processes

open Machine
open Kontrol
open Mem

/-- The page trees, the files and the frames, which `recursive_free` works on. -/
structure Trees where
  words : WordMemory
  files : Nat → File
  table : RamTable

/-- A process that is all zeros. -/
def zeroProcess (bytes : ByteMemory) : Process where
  owner_id := 0
  sigmask := 0
  sigset := 0
  code := 0
  pagetree := 0
  userspace_code := 0
  workers := zeroHash bytes
  descs := zeroHash bytes
  maximum := 0
  ldt := ⟨zeroHash bytes, 0⟩

/-- One decrement of a listener. -/
def dropListener (files : Nat → File) (f page : Nat) : Nat → File :=
  let file := files f
  let listeners := Function.update file.mem.listeners page (file.mem.listeners page - 1)
  Function.update files f { file with mem := { file.mem with listeners := listeners } }

/-- The pool, the bytes and the address of a slot. -/
def slotAddress (h : Hash) (i : Nat) : Word :=
  h.pool + h.stride * BitVec.ofNat 64 i

section RecursiveFree

variable (k : Config) (p : Process) (findexOf : Nat → Nat)

/-- The switch of `recursive_free`, for the entry at `a`. -/
def freeEntry (pagetype : Nat) (a : Word) (s : Trees) : Trees :=
  let entry := s.words a
  if Vfs.freeMode entry = Mode.RESERVE.code.setWidth 64 then
    let (freed, _, words) := memFree s.words p.pagetree (entrytoVm p.pagetree a) 1 pagetype
    { s with
      words := words
      table := if freed then manipulatePhys s.table k.physArray 1 pagetype .CLEAR else s.table }
  else if Vfs.freeMode entry = Mode.FILE.code.setWidth 64 then
    let f := findexOf (Vfs.recursiveFreeDesc entry).toNat
    match Vfs.recursiveFreePage (s.files f).mem entry with
    | some page => { s with files := dropListener s.files f page }
    | none => s
  else s

/-- `recursive_free`, with `left` levels below the current one. -/
def recursiveFree : Nat → Word → Trees → Trees
  | 0, pointer, s =>
      (List.range 512).foldl (fun s i =>
        let a := wordAt pointer i
        if bitSet (s.words a) 56 then freeEntry k p findexOf Pag.SMALLPAGE a s else s) s
  | left + 1, pointer, s =>
      (List.range 512).foldl (fun s i =>
        let a := wordAt pointer i
        if bitSet (s.words a) 56 then
          let s := freeEntry k p findexOf (Pag.SMALLPAGE - (left + 1)) a s
          if ¬ bitSet (s.words a) 7 then recursiveFree left a s else s
        else s) s

end RecursiveFree

namespace Kernel

variable (k : Config)

/-- `free(vmto_phys(process->pagetree,start),tosmallpage(length),pag::SMALLPAGE)` for the
segment whose descriptor is at `base`. -/
def freeSegment (s : Kernel) (pagetree base : Word) : Kernel :=
  let (start, length) := extractSegmentStatistics s.words base
  let (words, phys) := vmtoPhys s.words pagetree start
  { s with
    words := words
    table := mfree s.table phys ((tosmallpage length).setWidth 32) Pag.SMALLPAGE }

/-- What `pool_free` of a section of the pool `h` zeroes in the pool of pointers. -/
def clearSection (s : Kernel) (h : Hash) (sect : Word) (length : Half) : Kernel :=
  { s with pointers := clearPointers s.pointers sect (length.toNat * h.stride.toNat) }

/-- `children->pool_free(sect,1)`. -/
def freeWorker (s : Kernel) (p : Nat) (sect : Word) : Kernel :=
  let process := s.processes p
  let (workers, bytes) := process.workers.free s.bytes sect 1
  { s with bytes := bytes }.clearSection process.workers sect 1 |>.modifyProcess p fun process =>
    { process with workers := workers }

/-- `TKILL`. -/
def tkill (s : Kernel) (t : Nat) : Kernel :=
  let thread := s.threads t
  let parent := s.processes thread.parent
  let segsel := k.getSegmentSelector thread.fs
  let s := s.freeSegment parent.pagetree (wordAt parent.ldt.hash.pool segsel)
  let s := s.freeWorker thread.parent thread.double_link
  let (ktrd, bytes) := s.ktrd.free s.bytes (slotAddress s.ktrd t) 1
  { s with ktrd := ktrd, bytes := bytes }.modifyThread t fun _ => zeroThread

/-- What `PKILL` does for descriptor `i`.  It is `i` that the decrement is indexed with. -/
def killDescriptor (process : Nat) (s : Kernel) (i : Nat) : Kernel :=
  if (s.processes process).descs.ckarray i = 0 then s
  else
    let d := s.descriptors (s.descriptorAt process i)
    let s :=
      if d.maps = 0 then s
      else
        let files := (List.range (s.files d.findex).mem.length.toNat).foldl (fun files y =>
          if s.bytes (d.maps + BitVec.ofNat 64 y) ≠ 0 then dropListener files d.findex i
          else files) s.files
        let (kptr, bytes) := s.kptr.free s.bytes d.maps (512 / 8)
        { s with files := files, kptr := kptr, bytes := bytes }.clearSection s.kptr d.maps (512 / 8)
    let file := s.files d.findex
    { s with files := Function.update s.files d.findex { file with openers := file.openers - 1 } }

/-- `kdesc->pool_free(process->descs->pool,process->descs->length)`.  What it zeroes lies
in the pool of pointers. -/
def freeDescriptors (s : Kernel) (p : Process) : Kernel :=
  let (kdescs, bytes) := s.kdescs.free s.bytes p.descs.pool p.descs.length
  { s with kdescs := kdescs, bytes := bytes }.clearSection s.kdescs p.descs.pool p.descs.length

/-- `PKILL`. -/
def pkill (s : Kernel) (process : Nat) : Kernel :=
  let p := s.processes process
  let trees := recursiveFree k p (fun i => (s.descriptors (s.descriptorAt process i)).findex)
    Pag.SMALLPAGE p.pagetree ⟨s.words, s.files, s.table⟩
  let s := { s with words := trees.words, files := trees.files, table := trees.table }
  let s := (List.range p.descs.length.toNat).foldl (killDescriptor process) s
  let s := s.freeDescriptors p
  let s := s.freeSegment p.pagetree (wordAt p.ldt.hash.pool 4)
  let s := s.freeSegment p.pagetree
    (s.gdt.pool + 16 * p.ldt.segment_selector.setWidth 64)
  let (kprc, bytes) := s.kprc.free s.bytes (slotAddress s.kprc process) 1
  { s with kprc := kprc, bytes := bytes }.modifyProcess process fun _ => zeroProcess bytes

/-- `exec` returns the process `p` with the thread `t` and has not run out of anything. -/
def ExecSucceeds (s : Kernel) (calling_thread source p t : Nat) (s' : Kernel) : Prop :=
  s.exec k calling_thread source = some ((p : Int), some t, s') ∧ s'.starved = s.starved

end Kernel

/-- The frames of the file pages that were loaded since. -/
def cachedFrames (s s' : Kernel) : Set Nat :=
  {n | ∃ f page, (s.files f).mem.pool page = 0 ∧ (s'.files f).mem.pool page ≠ 0 ∧
    n ∈ pageFrames ((s'.files f).mem.pool page) 1 (s'.files f).mem.mapped_pagetype}

/-- What the process `p` and its thread `t` took has been given back, and nothing of
another process has changed. -/
structure Conserved (p t : Nat) (s s' : Kernel) : Prop where
  kprc : s'.kprc = s.kprc
  ktrd : s'.ktrd = s.ktrd
  kdescs : s'.kdescs = s.kdescs
  kptr : s'.kptr = s.kptr
  gdt : s'.gdt = s.gdt
  openers : ∀ f, (s'.files f).openers = (s.files f).openers
  listeners : ∀ f page, (s'.files f).mem.listeners page = (s.files f).mem.listeners page
  frames : usedFrames s'.table = usedFrames s.table ∪ cachedFrames s s'
  processes : ∀ q, q ≠ p → s'.processes q = s.processes q
  threads : ∀ u, u ≠ t → s'.threads u = s.threads u
  workers : ∀ q, q ≠ p → ∀ i, i < (s.processes q).workers.count.toNat →
    s'.pointers (wordAt (s.processes q).workers.pool i) =
      s.pointers (wordAt (s.processes q).workers.pool i)
  descriptors : ∀ q, q ≠ p → ∀ i, i < (s.processes q).descs.length.toNat →
    s'.descriptorAt q i = s.descriptorAt q i ∧
      s'.descriptors (s.descriptorAt q i) = s.descriptors (s.descriptorAt q i)

section Pointers

variable {k : Config} {s s' : Kernel}

/-- An allocation that is answered counts its slots. -/
theorem alloc_count
    {h : Hash} {reqlen : Half} {tryn : Word}
    (hfound : (h.alloc reqlen tryn).1.isSome) :
    (h.alloc reqlen tryn).2.count = h.count + reqlen := by
  unfold Hash.alloc at hfound ⊢
  cases hloop : Hash.allocLoop h.ckarray reqlen h.length.toNat 0 0 with
  | some i => rfl
  | none =>
      rw [hloop] at hfound
      dsimp only at hfound
      split_ifs at hfound <;> cases hfound

/-- A successful `exec` takes three slots of the pool of pointers. -/
theorem exec_pointers
    {calling_thread source p t : Nat}
    (h : s.ExecSucceeds k calling_thread source p t s') :
    s'.kptr.count = s.kptr.count + 3 ∧ (s'.processes p).descs.length = 0 := by
  obtain ⟨hexec, hfed⟩ := h
  obtain ⟨-, hmade, -⟩ | ⟨-, -, hp, htaken⟩ := exec_spec hexec
  · cases hmade
  · obtain rfl : p = nextProcess s := Int.ofNat.inj hp
    obtain ⟨hworkers, hdescs⟩ := htaken.fed (Nat.le_of_eq hfed)
    refine ⟨?_, htaken.descs⟩
    rw [htaken.kptr, alloc_count hdescs, alloc_count hworkers, BitVec.add_assoc]
    rfl

/-- What `TKILL` changes in a process: the list of threads of the parent. -/
theorem tkill_processes
    (s : Kernel) (t : Nat) :
    (s.tkill k t).processes = Function.update s.processes (s.threads t).parent
      { s.processes (s.threads t).parent with
        workers := ((s.processes (s.threads t).parent).workers.free s.bytes
          (s.threads t).double_link 1).1 } := rfl

/-- What it changes in the pool of pointers: the slot of the list that the thread names. -/
theorem tkill_words
    (s : Kernel) (t : Nat) :
    (s.tkill k t).pointers = clearPointers s.pointers (s.threads t).double_link
      (s.processes (s.threads t).parent).workers.stride.toNat := by
  have hone : (1 : Half).toNat * (s.processes (s.threads t).parent).workers.stride.toNat =
      (s.processes (s.threads t).parent).workers.stride.toNat :=
    Nat.one_mul _
  rw [← hone]
  rfl

theorem tkill_threads
    (s : Kernel) (t : Nat) :
    (s.tkill k t).threads = Function.update s.threads t zeroThread := rfl

/-- `TKILL` frees nothing in the pool of pointers, and no descriptor. -/
theorem tkill_pointers
    (s : Kernel) (t p : Nat) :
    (s.tkill k t).kptr = s.kptr ∧
      ((s.tkill k t).processes p).descs = (s.processes p).descs := by
  refine ⟨rfl, ?_⟩
  rw [tkill_processes, Function.update_apply]
  split_ifs with hp
  · rw [hp]
  · rfl

theorem foldl_tkill_pointers
    (threads : List Nat) (s : Kernel) (p : Nat) :
    (threads.foldl (Kernel.tkill k) s).kptr = s.kptr ∧
      ((threads.foldl (Kernel.tkill k) s).processes p).descs = (s.processes p).descs := by
  induction threads generalizing s with
  | nil => exact ⟨rfl, rfl⟩
  | cons t threads ih =>
      obtain ⟨hkptr, hdescs⟩ := tkill_pointers (k := k) s t p
      obtain ⟨hkptr', hdescs'⟩ := ih (s.tkill k t)
      exact ⟨hkptr'.trans hkptr, hdescs'.trans hdescs⟩

/-- `PKILL` of a process whose list of descriptors has length 0. -/
theorem pkill_pointers
    {p : Nat}
    (h : (s.processes p).descs.length = 0) :
    (s.pkill k p).kptr = s.kptr := by
  obtain ⟨s₁, hkptr, hloop⟩ : ∃ s₁ : Kernel, s₁.kptr = s.kptr ∧ (s.pkill k p).kptr =
      ((List.range (s.processes p).descs.length.toNat).foldl
        (Kernel.killDescriptor p) s₁).kptr :=
    ⟨_, by rfl, rfl⟩
  rw [hloop, h]
  exact hkptr

theorem killDescriptor_processes
    (s : Kernel) (p i : Nat) :
    (Kernel.killDescriptor p s i).processes = s.processes := by
  unfold Kernel.killDescriptor
  dsimp only
  split_ifs <;> rfl

theorem foldl_killDescriptor_processes
    (descs : List Nat) (s : Kernel) (p : Nat) :
    (descs.foldl (Kernel.killDescriptor p) s).processes = s.processes := by
  induction descs generalizing s with
  | nil => rfl
  | cons i descs ih => exact (ih _).trans (killDescriptor_processes s p i)

/-- `PKILL` changes no other process. -/
theorem pkill_processes
    (s : Kernel) {p q : Nat}
    (hq : q ≠ p) :
    (s.pkill k p).processes q = s.processes q := by
  unfold Kernel.pkill
  refine (Function.update_of_ne hq _ _).trans ?_
  exact congrFun (foldl_killDescriptor_processes _ _ p) q

end Pointers

/-- What is left of the pool of pointers. -/
theorem teardown_pointers
    {k : Config} {s s' : Kernel} {calling_thread source p t : Nat}
    (h : s.ExecSucceeds k calling_thread source p t s')
    (threads : List Nat) :
    ((threads.foldl (Kernel.tkill k) s').pkill k p).kptr.count = s.kptr.count + 3 := by
  obtain ⟨htaken, hdescs⟩ := exec_pointers h
  obtain ⟨hkptr, hkept⟩ := foldl_tkill_pointers (k := k) threads s' p
  have hlength : ((threads.foldl (Kernel.tkill k) s').processes p).descs.length = 0 := by
    rw [hkept, hdescs]
  rw [pkill_pointers hlength, hkptr, htaken]

/-- Three slots more are not the slots before. -/
theorem not_conserved_of_count
    {s s' : Kernel} {p t : Nat}
    (h : s'.kptr.count = s.kptr.count + 3) :
    ¬ Conserved p t s s' := by
  intro hconserved
  rw [hconserved.kptr] at h
  simp at h

/-- **Making a process and ending it never conserves the resources**: after `exec`
has succeeded, whatever threads `TKILL` is called for, `PKILL` leaves three slots of the
pool of pointers taken. -/
theorem exec_not_conserved
    {k : Config} {s s' : Kernel} {calling_thread source p t : Nat}
    (h : s.ExecSucceeds k calling_thread source p t s')
    (threads : List Nat) :
    ¬ Conserved p t s ((threads.foldl (Kernel.tkill k) s').pkill k p) :=
  not_conserved_of_count (teardown_pointers h threads)

section Examples

variable {k : Config} {s s' : Kernel} {ret : Word} {p t : Nat}

theorem conditionalBloodLibel_starved
    (hret : ret ≠ 0) :
    (s.conditionalBloodLibel (ret = 0)).starved = s.starved := by
  rw [Kernel.conditionalBloodLibel, decide_eq_false hret]
  rfl

/-- A fold whose steps all return comes to an end. -/
theorem foldlM_returns
    {α β : Type} {f : β → α → Option β}
    (h : ∀ b a, ∃ b', f b a = some b')
    (l : List α) (b : β) :
    ∃ b', l.foldlM f b = some b' := by
  induction l generalizing b with
  | nil => exact ⟨b, rfl⟩
  | cons a l ih =>
      obtain ⟨b₁, hfirst⟩ := h b a
      obtain ⟨b₂, hrest⟩ := ih b₁
      exact ⟨b₂, Option.bind_eq_some_iff.mpr ⟨b₁, hfirst, hrest⟩⟩

/-- The page tree has 32834 pages. -/
theorem layTree_fed
    (hlevel : k.identityLevel = Pag.BIGPAGE ∨ k.identityLevel = Pag.MIDPAGE)
    (h : s.malloc k 32834 = some (ret, s'))
    (hret : ret ≠ 0) :
    ∃ s'', s.layTree k p = some s'' ∧ s''.table = s'.table ∧ s''.starved = s'.starved := by
  have hpages : (tosmallpage (offsetByDepth 0 (Pag.SMALLPAGE + 1))).setWidth 32 = (32834 : Half) := by
    decide
  have hidentity : ∀ (words : WordMemory) (target : Word) (pages : Half), ∃ words',
      mapIdentity k.identityLevel words ret target pages Cache.WRITEBACK.code 1 = some words' := by
    intro words target pages
    refine Option.ne_none_iff_exists'.mp fun hnone => ?_
    exact not_or.mpr ((mapIdentity_eq_none_iff _ _ _ _ _ _ _).mp hnone) hlevel
  obtain ⟨words₁, hgdt⟩ := hidentity (vmtreeLay k.expected_usage s'.words ret) s'.gdt.pool
    ((tosmallpage MAX16BIT).setWidth 32)
  obtain ⟨words₂, hsegments⟩ := foldlM_returns (f := fun words g =>
    let (start, length) := extractSegmentStatistics words (wordAt s'.gdt.pool g)
    mapIdentity k.identityLevel words ret start ((tosmallpage length).setWidth 32)
      Cache.WRITEBACK.code 1)
    (fun _ _ => hidentity _ _ _) (List.range k.GDT_LOW_ENTRIES) words₁
  obtain ⟨words₃, hkernel⟩ := hidentity words₂ k.kernelcode (k.codesize.setWidth 32)
  refine ⟨{ (s'.modifyProcess p fun x => { x with pagetree := ret }).conditionalBloodLibel
    (ret = 0) with words := words₃ }, ?_, rfl, conditionalBloodLibel_starved hret⟩
  unfold Kernel.layTree
  dsimp only
  rw [hpages]
  refine Option.bind_eq_some_iff.mpr ⟨(ret, s'), h, ?_⟩
  refine Option.bind_eq_some_iff.mpr ⟨words₁, hgdt, ?_⟩
  refine Option.bind_eq_some_iff.mpr ⟨words₂, hsegments, ?_⟩
  exact Option.bind_eq_some_iff.mpr ⟨words₃, hkernel, rfl⟩

theorem mapLdt_table
    (s : Kernel) (actual_ldt entry : Word) (ldtlen : Half) :
    (s.mapLdt p actual_ldt entry ldtlen).table = s.table := by
  unfold Kernel.mapLdt
  rfl

theorem mapLdt_starved
    (s : Kernel) (actual_ldt entry : Word) (ldtlen : Half) :
    (s.mapLdt p actual_ldt entry ldtlen).starved = s.starved := by
  unfold Kernel.mapLdt
  rfl

theorem takeLdt_fed
    (h : (s.takeEntry p).2.2.malloc k (tosmallpage ((k.max_threads + 4 + 1) * 16)) = some (ret, s'))
    (hret : ret ≠ 0) :
    ∃ ldtlen selector s'', s.takeLdt k p = some (ret, ldtlen, selector, s'') ∧
      s''.table = s'.table ∧ s''.starved = s'.starved := by
  unfold Kernel.takeLdt
  dsimp only
  rw [h]
  refine ⟨_, _, _, rfl, mapLdt_table _ _ _ _, ?_⟩
  exact (mapLdt_starved _ _ _ _).trans (conditionalBloodLibel_starved hret)

theorem mapProgram_table
    (s : Kernel) (source : Nat) (header : Header) :
    (s.mapProgram k p t source header).table = s.table := by
  unfold Kernel.mapProgram
  rfl

theorem mapProgram_starved
    (s : Kernel) (source : Nat) (header : Header) :
    (s.mapProgram k p t source header).starved = s.starved := by
  unfold Kernel.mapProgram
  rfl

theorem setLdt_fed
    (h : s.malloc k 1 = some (ret, s'))
    (p : Nat) (actual_ldt : Word) (ldtlen selector : Half) :
    ∃ s'', s.setLdt k p actual_ldt ldtlen selector = some s'' ∧ s''.starved = s'.starved := by
  unfold Kernel.setLdt
  rw [h]
  exact ⟨_, rfl, rfl⟩

/-- A stack of no pages. -/
theorem makeStack_fed
    (h : (k.headerAt (s.processes (s.threads t).parent).code).stacksize = 0) :
    ∃ ret s', s.makeStack k p t = some (ret, s') ∧ s'.starved = s.starved := by
  have hloop : ∀ s entry, Kernel.stackLoop k (0 : Byte).toNat s entry = some (s, entry) :=
    fun _ _ => rfl
  unfold Kernel.makeStack
  dsimp only
  rw [h]
  split_ifs
  · exact ⟨_, _, rfl, rfl⟩
  · rw [hloop]
    exact ⟨_, _, rfl, rfl⟩

/-- An allocation marks frames in one byte of the table. -/
theorem manipulatePhys_apply_of_ne
    {table : RamTable} {phys : Word} {n : Half} {action : Action} {i : Nat}
    (hi : i ≠ tableIndex phys) :
    manipulatePhys table phys n Pag.SMALLPAGE action i = table i := by
  rw [manipulatePhys_eq]
  split_ifs
  · rfl
  · exact Function.update_of_ne hi _ _

/-- Memory of which the search sees only free frames. -/
theorem malloc_fed
    {n : Half}
    (hclear : ∀ i, i ≤ (4096 * n).toNat / 16 → s.table i = 0)
    (hroom : (4096 * n).toNat / 16 < k.memlen.toNat / 8)
    (hfuel : (4096 * n).toNat < k.fuel) :
    ∃ ret s', ret = (clearCursor (4096 * n).toNat).address 4096 ∧
      s.malloc k n = some (ret, s') ∧
      s'.table = manipulatePhys s.table ret n Pag.SMALLPAGE .SET ∧ s'.starved = s.starved := by
  have hfound : getFreeIdentity k.memlen s.table n Pag.SMALLPAGE k.fuel =
      some ((clearCursor (4096 * n).toNat).address 4096) :=
    getFreeIdentity_clear hclear hroom hfuel
  refine ⟨_, { s with table := _ }, rfl, ?_, rfl, rfl⟩
  rw [Kernel.malloc, Mem.malloc, hfound]
  rfl

/-- A build whose executables need no stack. -/
def idleConfig : Config where
  memlen := 0xFFFFFFFF
  fuel := 2 ^ 28
  headerAt _ := ⟨0, 0, 0, 2, 0, 0, fun _ => 0, 2⟩
  ROOT := 0
  SYSTEM := 1
  DEVDESC := 1
  max_threads := 2043
  GDT_LOW_ENTRIES := 0
  kernelcode := 0x100000
  codesize := 4096
  expected_usage := 1
  identityLevel := Pag.MIDPAGE
  pagetype := 3
  dataSegment _ := 0
  getSegmentSelector _ := 5
  physArray := 0x200000
  sizeofThread := 64

/-- A pool of four slots, of which the last is taken. -/
def idlePool (pool : Word) : Hash :=
  ⟨.POINTER, 4, 1, fun i => if i = 3 then 1 else 0, pool, 8⟩

/-- A process in slot 3 whose only thread is in slot 3, and a file of one page. -/
def idleKernel : Kernel where
  words _ := 0
  bytes _ := 0
  pointers := Function.update (fun _ => .null) 0x4018 (.thread 3)
  table _ := 0
  kprc := idlePool 0x1000
  ktrd := idlePool 0x2000
  kdescs := idlePool 0x3000
  kptr := idlePool 0x4000
  gdt := idlePool 0x5000
  processes := Function.update (fun _ => zeroProcess fun _ => 0) 3
    { zeroProcess fun _ => 0 with
      workers := { zeroHash fun _ => 0 with count := 1, pool := 0x4018 } }
  threads := Function.update (fun _ => zeroThread) 3 { zeroThread with parent := 3 }
  descriptors _ := ⟨0, 0⟩
  files _ := ⟨⟨fun _ => 0x6000, 1, fun _ => 0, Pag.SMALLPAGE, 2, 0, 0⟩, 1, 0⟩
  starved := 0

/-- Slots are not taken from the frames. -/
theorem takeSlots_table
    (s : Kernel) (caller : Nat) (header : Header) (code : Word) :
    (s.takeSlots k caller header code).2.2.table = s.table := by
  have hdescriptors : ∀ (s : Kernel) p, (s.takeDescriptors k caller p).table = s.table :=
    fun _ _ => rfl
  rw [takeSlots_eq]
  exact hdescriptors _ _

/-- The page tree, the local descriptor table and its `ckarray` lie in memory that is
free. -/
theorem launch_clear
    (htable : s.table = fun _ => 0)
    (caller source : Nat) (header : Header) (code : Word) :
    ∃ s', s.launch idleConfig caller source header code =
        some (nextProcess s, nextThread s, s') ∧
      s'.starved = (s.takeSlots idleConfig caller header code).2.2.starved := by
  obtain ⟨s₁, hslots, -⟩ := takeSlots_spec (k := idleConfig) (s := s) caller header code
  have htable₁ : s₁.table = fun _ => 0 := by
    have htaken := takeSlots_table (k := idleConfig) s caller header code
    rw [hslots, htable] at htaken
    exact htaken
  obtain ⟨tree, s₂, htree, hmalloc₂, htable₂, hstarved₂⟩ :=
    malloc_fed (k := idleConfig) (s := s₁) (n := 32834) (fun i _ => congrFun htable₁ i)
      (by decide) (by decide)
  obtain ⟨s₃, hlay, htable₃, hstarved₃⟩ :=
    layTree_fed (p := nextProcess s) (Or.inr rfl) hmalloc₂ (by rw [htree]; decide)
  have htreeByte : tableIndex tree = 2116 := by
    rw [htree]
    decide
  have hclear₃ : ∀ i, i ≤ 2048 → (s₃.takeEntry (nextProcess s)).2.2.table i = 0 := by
    intro i hi
    change s₃.table i = 0
    rw [htable₃, htable₂, manipulatePhys_apply_of_ne (by omega), htable₁]
  obtain ⟨ldt, s₄, hldt, hmalloc₄, htable₄, hstarved₄⟩ :=
    malloc_fed (k := idleConfig) (s := (s₃.takeEntry (nextProcess s)).2.2) (n := 8) hclear₃
      (by decide) (by decide)
  obtain ⟨ldtlen, selector, s₅, htake, htable₅, hstarved₅⟩ :=
    takeLdt_fed hmalloc₄ (by rw [hldt]; decide)
  have hldtByte : tableIndex ldt = 260 := by
    rw [hldt]
    decide
  have hclear₅ : ∀ i, i ≤ 256 →
      (s₅.mapProgram idleConfig (nextProcess s) (nextThread s) source header).table i = 0 := by
    intro i hi
    rw [mapProgram_table, htable₅, htable₄, manipulatePhys_apply_of_ne (by omega),
      hclear₃ i (by omega)]
  obtain ⟨ckarray, s₆, -, hmalloc₆, -, hstarved₆⟩ :=
    malloc_fed (k := idleConfig) (n := 1) hclear₅ (by decide) (by decide)
  obtain ⟨s₇, hset, hstarved₇⟩ :=
    setLdt_fed hmalloc₆ (nextProcess s) ldt ldtlen selector
  obtain ⟨ret, s₈, hstack, hstarved₈⟩ :=
    makeStack_fed (k := idleConfig) (s := s₇) (p := nextProcess s) (t := nextThread s) rfl
  refine ⟨s₈.startThread idleConfig (nextProcess s) (nextThread s) header, ?_, ?_⟩
  · simp only [Kernel.launch, hslots, hlay, htake, hset, hstack, Option.bind_eq_bind,
      Option.bind_some, Option.pure_def]
  · change s₈.starved = _
    have hentry : (s₃.takeEntry (nextProcess s)).2.2.starved = s₃.starved := rfl
    rw [hslots, hstarved₈, hstarved₇, hstarved₆, mapProgram_starved, hstarved₅, hstarved₄,
      hentry, hstarved₃, hstarved₂]

/-- Nothing is short in the idle kernel. -/
theorem launch_idle :
    ∃ s', idleKernel.launch idleConfig 3 0 (idleConfig.headerAt 0x6000) 0x6000 =
      some (0, 0, s') ∧ s'.starved = 0 :=
  launch_clear (s := idleKernel) rfl 3 0 (idleConfig.headerAt 0x6000) 0x6000

/-- A file of one page that is loaded and good. -/
theorem exec_fed
    {calling_thread source : Nat} {code : Word}
    (hload : s.loadPage k source 0 = some (code, s))
    (hsum : (k.headerAt code).sum = (k.headerAt code).checksum)
    (hsystem : (k.headerAt code).program_type ≠ k.SYSTEM)
    (hlength : (s.files source).length.toNat = 1)
    (hlaunch : s.launch k (s.threads calling_thread).parent source (k.headerAt code) code =
      some (p, t, s')) :
    s.exec k calling_thread source = some ((p : Int), some t, s') := by
  have hin : ¬ 2 ^ 32 ≤ (1 : Nat) := by omega
  unfold Kernel.exec
  rw [hload]
  simp only [Option.bind_eq_bind, Option.bind_some, hsum, hsystem, hlength, hin, Kernel.loadPages,
    hlaunch, ne_eq, not_true_eq_false, false_and, if_false, Nat.sub_self, Option.pure_def]

theorem exec_idle : ∃ s', idleKernel.ExecSucceeds idleConfig 3 0 0 0 s' := by
  obtain ⟨s', hlaunch, hstarved⟩ := launch_idle
  have hload : idleKernel.loadPage idleConfig 0 0 = some (0x6000, idleKernel) := rfl
  exact ⟨s', exec_fed hload (by decide) (by decide) rfl hlaunch, hstarved⟩

/-- The process that is made in slot 0. -/
theorem exec_not_conserved_idle :
    ∃ s', idleKernel.ExecSucceeds idleConfig 3 0 0 0 s' ∧
      ¬ Conserved 0 0 idleKernel (([0].foldl (Kernel.tkill idleConfig) s').pkill idleConfig 0) := by
  obtain ⟨s', h⟩ := exec_idle
  exact ⟨s', h, exec_not_conserved h [0]⟩

/-- Making a process and ending it does not always conserve the resources. -/
theorem idle_not_conserved :
    ¬ ∀ (k : Config) (s s' : Kernel) (calling_thread source p t : Nat),
      s.ExecSucceeds k calling_thread source p t s' →
        Conserved p t s (([t].foldl (Kernel.tkill k) s').pkill k p) := by
  intro hall
  obtain ⟨s', h⟩ := exec_idle
  exact not_conserved_of_count (teardown_pointers h [0]) (hall idleConfig idleKernel s' 3 0 0 0 h)

end Examples

end Processes
end BestKernel
