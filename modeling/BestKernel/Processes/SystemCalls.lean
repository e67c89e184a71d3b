import BestKernel.Processes.Workers
import BestKernel.Sched.SignalMasks
import BestKernel.Syscalls.Descriptors
import BestKernel.Syscalls.Files

/-!
# The calls that meet processes

The system calls that make processes and threads, signal them, mask their signals, change
metadata, mount, and go to modules, and the parts of the scheduler that end threads and
processes, over one system.

`run_owner` says that none of them touches the owner of a process, but for the calls that
come to `exec` and for `PKILL`; `run_exec` says what the former do to the kernel.

Readings of the source.  The process of a thread is its `parent`, by whatever name a call
asks for it.  `SYS_IOCTL` and `SYS_MODRM` are the texts of `SYS_EXEC` and `SYS_MODINSERT`,
and the second `SYS_TSIGMASK` is that of the process.  `SYS_EXEC` looks in the `ckarray` of
the process for the descriptor.  The pool of processes does not lie at address 0, so that
`modinsert` returns behind its `exec`, with a driver whose process is the first one.
`clone_thread` and what a driver says about its methods are parameters, and what the disk
answers to a `mount` is an argument.  A thread that is freed has no signals.
-/

namespace BestKernel
namespace Processes

open Machine
open Kontrol
open Mem
open Syscalls (DescriptorTable Meta READ WRITE)

/-- The kernel and what the calls meet beside it: the signals of the threads, the files
with their metadata, the processes of the drivers among them, and the returned values. -/
structure System where
  kernel : Kernel
  signals : Nat → Sched.SignalThread
  vfs : Hash
  metas : Nat → Meta
  runtime : Nat → Nat
  sys_retval : Nat → Int

/-- What the sources do not define: `clone_thread`, which is about threads only, and the
methods in the code of a driver. -/
structure Modules where
  clone_thread : Kernel → Nat → Nat × Kernel
  methodsnum : Word → Half
  functions : Word → Half → Word
  clone_processes : ∀ s t, (clone_thread s t).2.processes = s.processes

/-- The slot of a thread that is pointed to. -/
def Pointer.threadSlot : Pointer → Nat
  | .thread t => t
  | _ => nullSlot

/-- The signals of a thread that is all zeros. -/
def zeroSignals : Sched.SignalThread :=
  ⟨0, 0, fun _ => 0, 0⟩

/-- `bit_pop_count`. -/
def bitPopCount (x : Half) : Nat :=
  ((List.range 32).filter fun i => x.getLsbD i).length

/-- The calls, with the thread that makes them, and the parts of the scheduler. -/
inductive SystemOp where
  | SYS_EXEC (t : Nat) (desc : Half)
  | SYS_THREAD (t : Nat)
  | SYS_TSIGNAL (t : Nat) (tid signal : Half)
  | SYS_PSIGNAL (t : Nat) (pid signal : Half)
  | SYS_PEXIT (t : Nat)
  | SYS_TEXIT (t : Nat)
  | SYS_TSIGMASK (t : Nat) (sigmask : Half)
  | SYS_PSIGMASK (t : Nat) (sigmask : Half)
  | SYS_CHMETA (t : Nat) (desc : Half) (name : Nat → Byte) (type mode : Half)
  | SYSMOUNT (t : Nat) (ret : Int) (vfs : Hash) (metas : Nat → Meta)
  | SYS_MODCTL (t : Nat) (desc function : Half) (data : Word)
  | SYS_MODINSERT (t : Nat) (desc : Half)
  | check_signals (t fuel : Nat)
  | getnext_thread (i : Nat)
  | TKILL (t : Nat)
  | PKILL (p : Nat)

/-- The round of `getnext_thread` for slot `i`: the process that `PKILL` is called for, and
the kernel.  A `DRIVER` is freed. -/
def Kernel.getnextRound (k : Config) (s : Kernel) (i : Nat) : Option Nat × Kernel :=
  let (ended, s) := s.killBranch k i
  if (s.threads i).type = .DRIVER then
    let (ktrd, bytes) := s.ktrd.free s.bytes (slotAddress s.ktrd i) 1
    (ended, { s with ktrd := ktrd, bytes := bytes }.modifyThread i fun _ => zeroThread)
  else (ended, s)

namespace System

section Parts

variable (s : System) (t : Nat)

def parentOf : Nat := (s.kernel.threads t).parent

/-- The process of a thread. -/
def process : Process := s.kernel.processes (s.parentOf t)

/-- The descriptors of the process, and its own `ckarray`. -/
def table : DescriptorTable := ⟨(s.process t).descs, (s.process t).workers.ckarray⟩

/-- `process->descs->pool[desc]->findex`. -/
def fileOf (desc : Half) : Nat :=
  (s.kernel.descriptors (s.kernel.descriptorAt (s.parentOf t) desc.toNat)).findex

/-- `thread->sys_retval = value; SYSRET`. -/
def returns (value : Int) : System :=
  { s with sys_retval := Function.update s.sys_retval t value }

/-- A write to the signals of a thread. -/
def modifySignals (write : Sched.SignalThread → Sched.SignalThread) : System :=
  { s with signals := Function.update s.signals t (write (s.signals t)) }

/-- A write to a process. -/
def modifyProcess (p : Nat) (write : Process → Process) : System :=
  { s with kernel := s.kernel.modifyProcess p write }

end Parts

variable (k : Config) (m : Modules) (s : System) (t : Nat)

/-- What `SYS_EXEC` returns without calling `exec`. -/
def execRefusal (desc : Half) : Option Int :=
  if (s.table t).refuses desc .SYS_EXEC then some 1
  else if (s.metas (s.fileOf t desc)).mode &&& (READ ||| WRITE) = 0 ∨
      (s.process t).owner_id = k.ROOT then some 1
  else none

def sysExec (desc : Half) : Option System :=
  match s.execRefusal k t desc with
  | some value => some (s.returns t value)
  | none =>
      (s.kernel.exec k t (s.fileOf t desc)).map fun (ret, _, kernel) =>
        { s with kernel := kernel }.returns t ret

def sysThread : Option System :=
  (s.kernel.thread k t).map fun (newfag, made, kernel) =>
    let clone := if made then s.signals t else zeroSignals
    ({ s with kernel := kernel }.modifySignals (nextThread s.kernel) fun _ => clone).returns t
      newfag

def sysTsignal (tid signal : Half) : System :=
  if (s.process tid.toNat).owner_id > (s.process t).owner_id then s.returns t 1
  else
    (s.modifySignals tid.toNat fun victim =>
      { victim with sigset := victim.sigset ||| signal }).returns t 0

def sysPsignal (pid signal : Half) : System :=
  if (s.process t).owner_id < (s.kernel.processes pid.toNat).owner_id then s.returns t 1
  else if bitPopCount signal ≠ 1 then s.returns t 2
  else s.modifyProcess pid.toNat fun p => { p with sigset := p.sigset ||| signal }

def sysPexit : System :=
  s.modifyProcess (s.parentOf t) fun p => { p with sigset := Sched.raiseSignal p.sigset .SIGKILL }

def sysTexit : System :=
  s.modifySignals t fun thread => { thread with sigset := Sched.raiseSignal thread.sigset .SIGKILL }

/-- One of the two calls for masks. -/
def maskCall (call : Sched.MaskState → Half → Sched.MaskState) (sigmask : Half) : System :=
  let masks := call ⟨s.signals t, (s.process t).sigmask, 0⟩ sigmask
  ((s.modifySignals t fun _ => masks.thread).modifyProcess (s.parentOf t) fun p =>
    { p with sigmask := masks.process_sigmask }).returns t masks.sys_retval

def sysChmeta (desc : Half) (name : Nat → Byte) (type mode : Half) : System :=
  let file := s.fileOf t desc
  if (s.table t).refuses desc .SYS_CHMETA then s.returns t 1
  else if (s.metas file).mode &&& WRITE ≠ 0 ∧ (s.process t).owner_id ≠ k.ROOT then s.returns t 2
  else
    { s with
      metas := Function.update s.metas file
        { s.metas file with name := name, type := type, mode := mode } }.returns t 0

/-- `SYSMOUNT`, with what `mount` returns and makes of the files. -/
def sysMount (ret : Int) (vfs : Hash) (metas : Nat → Meta) : System :=
  if (s.process t).owner_id ≠ k.ROOT then s.returns t 1
  else { s with vfs := vfs, metas := metas }.returns t ret

/-- The stack of the thread that `module_ctl` cloned: the words behind the stack pointer
hold the data, mapped for the driver, and a zero. -/
def pushData (kernel : Kernel) (callee : Nat) (pagetree data : Word) : Word × Kernel :=
  let thread := kernel.threads callee
  let (words, phys) :=
    vmtoPhys kernel.words (kernel.processes thread.parent).pagetree thread.stack_pointer
  let something := words phys
  let words := Function.update words something 0
  let words :=
    if data = 0 then words
    else
      let (found, words) := memMap words pagetree data Pag.SMALLPAGE 1 Cache.WRITEBACK.code
      Function.update words something (fetchedPointer found)
  (something, { kernel with words := Function.update words (wordAt something 1) 0 })

/-- `module_ctl`: the value, `none` where the clone runs instead. -/
def moduleCtl (driv : Nat) (function : Half) (data : Word) : Option Int × System :=
  let runtime := s.kernel.processes (s.runtime driv)
  let templ := (s.kernel.pointers (wordAt runtime.workers.pool 0)).threadSlot
  let (callee, kernel) := m.clone_thread s.kernel templ
  let kernel := kernel.modifyThread callee fun thread =>
    { thread with stack_pointer := thread.stack_pointer - 16 }
  let (something, kernel) := pushData kernel callee runtime.pagetree data
  let s := { s with kernel := kernel }.modifySignals callee fun _ => s.signals templ
  let parent := kernel.processes (kernel.threads callee).parent
  if kernel.words something = 0 then (some (kernel.words (wordAt something 1)).toNat, s)
  else if function > m.methodsnum parent.code then (some 1, s)
  else
    (none, { s with
      kernel := kernel.modifyThread callee fun thread =>
        { thread with
          instruction_pointer := parent.userspace_code + m.functions parent.code function } })

/-- The value that a call stores, if it returns to its thread. -/
def answered (result : Option Int × System) : System :=
  match result.1 with
  | some value => result.2.returns t value
  | none => result.2

def sysModctl (desc function : Half) (data : Word) : System :=
  if (s.process t).owner_id ≠ k.ROOT then s.returns t 1
  else if (s.table t).refuses desc .SYS_MODCTL then s.returns t 2
  else
    let driv := s.fileOf t desc
    let (words, passdata) :=
      vmtoPhys s.kernel.words (s.kernel.processes (s.runtime driv)).pagetree data
    let s := { s with kernel := { s.kernel with words := words } }
    if passdata = 0 then s.returns t 3
    else answered t (s.moduleCtl m driv function passdata)

/-- What `SYS_MODINSERT` returns without calling `modinsert`. -/
def modinsertRefusal (desc : Half) : Option Int :=
  if (s.kernel.threads t).type ≠ .APPLICATION then some 1
  else if (s.process t).owner_id ≠ k.ROOT then some 2
  else if (s.table t).refuses desc .SYS_MODINSERT then some 3
  else none

/-- `modinsert`, which returns 0 in any case. -/
def modinsert (base : Nat) : Option System :=
  let (file, vfs) := s.vfs.alloc 1 0
  if file.getD 0 = 0 then some { s with vfs := vfs }
  else
    (s.kernel.exec k t base).map fun (_, _, kernel) =>
      { s with
        kernel := kernel
        vfs := vfs
        runtime := Function.update s.runtime (slotIn s.vfs file) 0 }

def sysModinsert (desc : Half) : Option System :=
  match s.modinsertRefusal k t desc with
  | some value => some (s.returns t value)
  | none => (s.modinsert k t (s.fileOf t desc)).map fun s => s.returns t 0

/-- `TKILL`. -/
def killThread : System :=
  { s with kernel := s.kernel.tkill k t }.modifySignals t fun _ => zeroSignals

/-- `PKILL`. -/
def killProcess (p : Nat) : System :=
  { s with kernel := s.kernel.pkill k p }

/-- `check_signals`: the process that `PKILL` is called for, and the system. -/
def checkSignals (fuel : Nat) : Option (Option Nat × System) :=
  (Sched.checkSignals fuel (s.signals t) (s.process t).sigset).map fun checked =>
    let parent := s.parentOf t
    let s := (s.modifySignals t fun _ => checked.thread).modifyProcess parent fun p =>
      { p with sigset := checked.process_sigset }
    let s := if Sched.Signal.SIGKILL.code ∈ checked.thread_taken then s.killThread k t else s
    if Sched.Signal.SIGKILL.code ∈ checked.process_taken then
      (some parent, s.killProcess k parent)
    else (none, s)

/-- A call, or a part of the scheduler: the process that `PKILL` is called for, and the
system; `none` for one that does not end. -/
def run : SystemOp → Option (Option Nat × System)
  | .SYS_EXEC t desc => (s.sysExec k t desc).map fun s => (none, s)
  | .SYS_THREAD t => (s.sysThread k t).map fun s => (none, s)
  | .SYS_TSIGNAL t tid signal => some (none, s.sysTsignal t tid signal)
  | .SYS_PSIGNAL t pid signal => some (none, s.sysPsignal t pid signal)
  | .SYS_PEXIT t => some (none, s.sysPexit t)
  | .SYS_TEXIT t => some (none, s.sysTexit t)
  | .SYS_TSIGMASK t sigmask => some (none, s.maskCall t Sched.sysTsigmask sigmask)
  | .SYS_PSIGMASK t sigmask => some (none, s.maskCall t Sched.sysPsigmask sigmask)
  | .SYS_CHMETA t desc name type mode => some (none, s.sysChmeta k t desc name type mode)
  | .SYSMOUNT t ret vfs metas => some (none, s.sysMount k t ret vfs metas)
  | .SYS_MODCTL t desc function data => some (none, s.sysModctl k m t desc function data)
  | .SYS_MODINSERT t desc => (s.sysModinsert k t desc).map fun s => (none, s)
  | .check_signals t fuel => s.checkSignals k t fuel
  | .getnext_thread i =>
      let (ended, kernel) := s.kernel.getnextRound k i
      some (ended, { s with kernel := kernel })
  | .TKILL t => some (none, s.killThread k t)
  | .PKILL p => some (some p, s.killProcess k p)

/-- The thread and the file for which a call comes to `exec`. -/
def execOf : SystemOp → Option (Nat × Nat)
  | .SYS_EXEC t desc =>
      if s.execRefusal k t desc = none then some (t, s.fileOf t desc) else none
  | .SYS_MODINSERT t desc =>
      if s.modinsertRefusal k t desc = none ∧ (s.vfs.alloc 1 0).1.getD 0 ≠ 0 then
        some (t, s.fileOf t desc)
      else none
  | _ => none

end System

/-- A call, or a part of the scheduler, that ends. -/
def SystemStep (k : Config) (m : Modules) (s : System) (op : SystemOp) (s' : System) : Prop :=
  ∃ ended, s.run k m op = some (ended, s')

/-- Every process keeps its owner. -/
def SameOwners (s s' : Kernel) : Prop :=
  ∀ q, (s'.processes q).owner_id = (s.processes q).owner_id

section Owners

variable {k : Config} {m : Modules} {s s' s'' : Kernel}

theorem SameOwners.refl (s : Kernel) : SameOwners s s := fun _ => rfl

theorem SameOwners.trans
    (h : SameOwners s s')
    (h' : SameOwners s' s'') :
    SameOwners s s'' :=
  fun q => (h' q).trans (h q)

theorem SameOwners.of_processes
    (h : s'.processes = s.processes) :
    SameOwners s s' :=
  fun q => congrArg Process.owner_id (congrFun h q)

/-- A write to something else of a process. -/
theorem SameOwners.modifyProcess
    {write : Process → Process}
    (howner : ∀ x, (write x).owner_id = x.owner_id)
    (p : Nat) :
    SameOwners s (s.modifyProcess p write) := by
  intro q
  unfold Kernel.modifyProcess
  dsimp only
  rw [Function.update_apply]
  split_ifs with hq
  · rw [hq, howner]
  · rfl

theorem SameOwners.tkill (t : Nat) : SameOwners s (s.tkill k t) := by
  intro q
  rw [tkill_processes, Function.update_apply]
  split_ifs with hq
  · rw [hq]
  · rfl

/-- The round of `getnext_thread`, but for the process that it ends. -/
theorem getnextRound_owner
    {i : Nat} {ended : Option Nat}
    (h : s.getnextRound k i = (ended, s')) :
    ∀ q, ended ≠ some q → (s'.processes q).owner_id = (s.processes q).owner_id := by
  have hkill : ∀ q, (s.killBranch k i).1 ≠ some q →
      ((s.killBranch k i).2.processes q).owner_id = (s.processes q).owner_id := by
    unfold Kernel.killBranch
    dsimp only
    split_ifs
    · intro q hq
      rw [pkill_processes _ fun heq => hq (congrArg some heq.symm)]
      exact SameOwners.tkill i q
    · exact fun q _ => SameOwners.tkill i q
    · exact fun q _ => rfl
  unfold Kernel.getnextRound at h
  dsimp only at h
  split_ifs at h
  · cases h
    exact hkill
  · cases h
    exact hkill

namespace System

variable {s s' : System}

@[simp] theorem returns_kernel (t : Nat) (value : Int) : (s.returns t value).kernel = s.kernel :=
  rfl

@[simp] theorem modifySignals_kernel
    (t : Nat) (write : Sched.SignalThread → Sched.SignalThread) :
    (s.modifySignals t write).kernel = s.kernel :=
  rfl

@[simp] theorem modifyProcess_kernel (p : Nat) (write : Process → Process) :
    (s.modifyProcess p write).kernel = s.kernel.modifyProcess p write :=
  rfl

/-- `module_ctl` is about threads and memory. -/
theorem moduleCtl_processes
    (driv : Nat) (function : Half) (data : Word) :
    (s.moduleCtl m driv function data).2.kernel.processes = s.kernel.processes := by
  unfold moduleCtl
  dsimp only
  split_ifs
  · exact m.clone_processes _ _
  · exact m.clone_processes _ _
  · exact m.clone_processes _ _

theorem answered_kernel
    (t : Nat) (result : Option Int × System) :
    (answered t result).kernel = result.2.kernel := by
  unfold answered
  cases result.1 <;> rfl

theorem sysModctl_owner
    (t : Nat) (desc function : Half) (data : Word) :
    SameOwners s.kernel (s.sysModctl k m t desc function data).kernel := by
  unfold sysModctl
  dsimp only
  split_ifs
  · exact .refl _
  · exact .refl _
  · exact .refl _
  · rw [answered_kernel]
    exact .of_processes (moduleCtl_processes _ _ _)

theorem sysThread_owner
    {t : Nat}
    (h : s.sysThread k t = some s') :
    SameOwners s.kernel s'.kernel := by
  obtain ⟨⟨newfag, made, kernel⟩, hthread, rfl⟩ := Option.map_eq_some_iff.mp h
  exact (thread_spec hthread).2.owner

/-- The calls that only read processes, or write to their signals. -/
theorem sysTsignal_owner
    (t : Nat) (tid signal : Half) :
    SameOwners s.kernel (s.sysTsignal t tid signal).kernel := by
  unfold sysTsignal
  split_ifs <;> exact .refl _

theorem sysPsignal_owner
    (t : Nat) (pid signal : Half) :
    SameOwners s.kernel (s.sysPsignal t pid signal).kernel := by
  unfold sysPsignal
  split_ifs
  · exact .refl _
  · exact .refl _
  · rw [modifyProcess_kernel]
    apply SameOwners.modifyProcess
    exact fun _ => rfl

theorem sysPexit_owner (t : Nat) : SameOwners s.kernel (s.sysPexit t).kernel := by
  rw [sysPexit, modifyProcess_kernel]
  apply SameOwners.modifyProcess
  exact fun _ => rfl

theorem maskCall_owner
    (t : Nat) (call : Sched.MaskState → Half → Sched.MaskState) (sigmask : Half) :
    SameOwners s.kernel (s.maskCall t call sigmask).kernel := by
  simp only [maskCall, returns_kernel, modifyProcess_kernel, modifySignals_kernel]
  apply SameOwners.modifyProcess
  exact fun _ => rfl

theorem sysChmeta_owner
    (t : Nat) (desc : Half) (name : Nat → Byte) (type mode : Half) :
    SameOwners s.kernel (s.sysChmeta k t desc name type mode).kernel := by
  unfold sysChmeta
  dsimp only
  split_ifs <;> exact .refl _

theorem sysMount_owner
    (t : Nat) (ret : Int) (vfs : Hash) (metas : Nat → Meta) :
    SameOwners s.kernel (s.sysMount k t ret vfs metas).kernel := by
  unfold sysMount
  split_ifs <;> exact .refl _

/-- `check_signals`, but for the process that it ends. -/
theorem checkSignals_owner
    {t fuel : Nat} {ended : Option Nat}
    (h : s.checkSignals k t fuel = some (ended, s')) :
    ∀ q, ended ≠ some q →
      (s'.kernel.processes q).owner_id = (s.kernel.processes q).owner_id := by
  obtain ⟨checked, -, hchecked⟩ := Option.map_eq_some_iff.mp h
  have hset : SameOwners s.kernel ((s.modifySignals t fun _ => checked.thread).modifyProcess
      (s.parentOf t) fun p => { p with sigset := checked.process_sigset }).kernel := by
    rw [modifyProcess_kernel]
    apply SameOwners.modifyProcess
    exact fun _ => rfl
  have hkill := hset.trans (SameOwners.tkill (k := k) t)
  have hother : ∀ (kernel : Kernel) p q, some p ≠ some q →
      ((kernel.pkill k p).processes q).owner_id = (kernel.processes q).owner_id := by
    intro kernel p q hq
    rw [pkill_processes kernel fun heq => hq (congrArg some heq.symm)]
  dsimp only at hchecked
  split_ifs at hchecked
  · cases hchecked
    exact fun q hq => (hother _ _ q hq).trans (hkill q)
  · cases hchecked
    exact fun q hq => (hother _ _ q hq).trans (hset q)
  · cases hchecked
    exact fun q _ => hkill q
  · cases hchecked
    exact fun q _ => hset q

/-- `SYS_EXEC` comes to `exec`, or returns before. -/
theorem sysExec_cases
    {t : Nat} {desc : Half}
    (h : s.sysExec k t desc = some s') :
    s.execRefusal k t desc ≠ none ∧ s'.kernel = s.kernel ∨
      s.execRefusal k t desc = none ∧
        ∃ ret made, s.kernel.exec k t (s.fileOf t desc) = some (ret, made, s'.kernel) := by
  unfold sysExec at h
  cases hrefusal : s.execRefusal k t desc with
  | some value =>
      rw [hrefusal] at h
      cases h
      exact Or.inl ⟨Option.some_ne_none value, rfl⟩
  | none =>
      rw [hrefusal] at h
      obtain ⟨⟨ret, made, kernel⟩, hexec, rfl⟩ := Option.map_eq_some_iff.mp h
      exact Or.inr ⟨rfl, ret, made, hexec⟩

/-- `SYS_MODINSERT` comes to `exec`, or returns before. -/
theorem sysModinsert_cases
    {t : Nat} {desc : Half}
    (h : s.sysModinsert k t desc = some s') :
    ¬ (s.modinsertRefusal k t desc = none ∧ (s.vfs.alloc 1 0).1.getD 0 ≠ 0) ∧
        s'.kernel = s.kernel ∨
      (s.modinsertRefusal k t desc = none ∧ (s.vfs.alloc 1 0).1.getD 0 ≠ 0) ∧
        ∃ ret made, s.kernel.exec k t (s.fileOf t desc) = some (ret, made, s'.kernel) := by
  unfold sysModinsert at h
  cases hrefusal : s.modinsertRefusal k t desc with
  | some value =>
      rw [hrefusal] at h
      cases h
      exact Or.inl ⟨by simp, rfl⟩
  | none =>
      rw [hrefusal] at h
      obtain ⟨s₁, hinsert, rfl⟩ := Option.map_eq_some_iff.mp h
      unfold modinsert at hinsert
      dsimp only at hinsert
      split_ifs at hinsert with hfile
      · cases hinsert
        exact Or.inl ⟨fun hcome => hcome.2 hfile, rfl⟩
      · obtain ⟨⟨ret, made, kernel⟩, hexec, rfl⟩ := Option.map_eq_some_iff.mp hinsert
        exact Or.inr ⟨⟨rfl, hfile⟩, ret, made, hexec⟩

/-- What a call that comes to `exec` does to the kernel. -/
theorem run_exec
    {op : SystemOp} {ended : Option Nat} {t source : Nat}
    (h : s.run k m op = some (ended, s'))
    (hexec : s.execOf k op = some (t, source)) :
    ended = none ∧ ∃ ret made, s.kernel.exec k t source = some (ret, made, s'.kernel) := by
  cases op with
  | SYS_EXEC t desc =>
      obtain ⟨s₁, hcall, heq⟩ := Option.map_eq_some_iff.mp h
      cases heq
      rw [execOf] at hexec
      split_ifs at hexec with hcome
      cases hexec
      rcases sysExec_cases hcall with ⟨hrefused, -⟩ | ⟨-, hlaunch⟩
      · exact absurd hcome hrefused
      · exact ⟨rfl, hlaunch⟩
  | SYS_MODINSERT t desc =>
      obtain ⟨s₁, hcall, heq⟩ := Option.map_eq_some_iff.mp h
      cases heq
      rw [execOf] at hexec
      split_ifs at hexec with hcome
      cases hexec
      rcases sysModinsert_cases hcall with ⟨hrefused, -⟩ | ⟨-, hlaunch⟩
      · exact absurd hcome hrefused
      · exact ⟨rfl, hlaunch⟩
  | _ => cases hexec

/-- **Nothing but `exec` and `PKILL` touches an owner.** -/
theorem run_owner
    {op : SystemOp} {ended : Option Nat}
    (h : s.run k m op = some (ended, s'))
    (hexec : s.execOf k op = none) :
    ∀ q, ended ≠ some q →
      (s'.kernel.processes q).owner_id = (s.kernel.processes q).owner_id := by
  cases op with
  | SYS_EXEC t desc =>
      obtain ⟨s₁, hcall, heq⟩ := Option.map_eq_some_iff.mp h
      cases heq
      rw [execOf] at hexec
      split_ifs at hexec with hcome
      rcases sysExec_cases hcall with ⟨-, hkernel⟩ | ⟨hpasses, -⟩
      · exact fun q _ => by rw [hkernel]
      · exact absurd hpasses hcome
  | SYS_MODINSERT t desc =>
      obtain ⟨s₁, hcall, heq⟩ := Option.map_eq_some_iff.mp h
      cases heq
      rw [execOf] at hexec
      split_ifs at hexec with hcome
      rcases sysModinsert_cases hcall with ⟨-, hkernel⟩ | ⟨hpasses, -⟩
      · exact fun q _ => by rw [hkernel]
      · exact absurd hpasses hcome
  | SYS_THREAD t =>
      obtain ⟨s₁, hcall, heq⟩ := Option.map_eq_some_iff.mp h
      cases heq
      exact fun q _ => sysThread_owner hcall q
  | SYS_TSIGNAL t tid signal =>
      cases h
      exact fun q _ => sysTsignal_owner t tid signal q
  | SYS_PSIGNAL t pid signal =>
      cases h
      exact fun q _ => sysPsignal_owner t pid signal q
  | SYS_PEXIT t =>
      cases h
      exact fun q _ => sysPexit_owner t q
  | SYS_TEXIT t =>
      cases h
      exact fun q _ => rfl
  | SYS_TSIGMASK t sigmask =>
      cases h
      exact fun q _ => maskCall_owner t _ sigmask q
  | SYS_PSIGMASK t sigmask =>
      cases h
      exact fun q _ => maskCall_owner t _ sigmask q
  | SYS_CHMETA t desc name type mode =>
      cases h
      exact fun q _ => sysChmeta_owner t desc name type mode q
  | SYSMOUNT t ret vfs metas =>
      cases h
      exact fun q _ => sysMount_owner t ret vfs metas q
  | SYS_MODCTL t desc function data =>
      cases h
      exact fun q _ => sysModctl_owner t desc function data q
  | check_signals t fuel => exact checkSignals_owner h
  | getnext_thread i =>
      cases h
      exact getnextRound_owner rfl
  | TKILL t =>
      cases h
      exact fun q _ => SameOwners.tkill t q
  | PKILL p =>
      cases h
      intro q hq
      have hne : q ≠ p := fun heq => hq (congrArg some heq.symm)
      exact congrArg Process.owner_id (pkill_processes s.kernel hne)

end System

end Owners

end Processes
end BestKernel
