import BestKernel.Library.Runs
import BestKernel.Processes.SystemCalls

/-!
# Who owns a process

A process that `exec` makes has the owner of the process that called it, and no other call
touches the owner of a live process.  But `exec` takes its slot from a pool that marks
nothing, so that the slot may be that of a live process, whose owner it replaces; and a
thread whose process has been ended calls it with the owner 0 of a cleared slot.

`owners_inherited_iff` says which runs keep the owners: those in which every `exec` that is
not refused finds a slot without a live process, or with one of the same owner, and is not
called for a cleared slot that passes for the root.

The live processes are kept beside the kernel, with the type of the image that each was
made from, and with the processes that descend from none of the root.  A slot that is taken
from a live process stands for both, and a slot keeps its descent when its process ends.
-/

namespace BestKernel
namespace Processes

open Machine
open Runs

/-- The type of the program in a file. -/
def Kernel.programType (k : Config) (s : Kernel) (source : Nat) : Option Half :=
  (s.loadPage k source 0).map fun loaded => (k.headerAt loaded.1).program_type

/-- The system, its live processes, those that descend only from processes that are not the
root's, and the types of the images. -/
structure Owned where
  system : System
  live : Set Nat
  commoners : Set Nat
  image : Nat → Option Half

namespace Owned

variable (k : Config) (s : Owned)

def owner (q : Nat) : Half := (s.system.kernel.processes q).owner_id

/-- The slot that the next `exec` takes. -/
def next : Nat := nextProcess s.system.kernel

/-- The call comes to `exec` for a good file. -/
def Launches (op : SystemOp) (t source : Nat) : Prop :=
  s.system.execOf k op = some (t, source) ∧ ¬ s.system.kernel.Refuses k t source

/-- Book a process that was made. -/
def launched (t source : Nat) (system : System) : Owned where
  system := system
  live := insert s.next s.live
  commoners :=
    {q | q ≠ s.next ∧ q ∈ s.commoners ∨
      q = s.next ∧ (s.system.parentOf t ∈ s.commoners ∨ s.next ∈ s.live ∧ s.next ∈ s.commoners)}
  image := Function.update s.image s.next (s.system.kernel.programType k source)

end Owned

section Steps

variable (k : Config) (m : Modules)

/-- A call that ends, with the books kept. -/
def OwnStep (s : Owned) (op : SystemOp) (s' : Owned) : Prop :=
  ∃ ended system, s.system.run k m op = some (ended, system) ∧
    (∀ t source, s.Launches k op t source → s' = s.launched k t source system) ∧
      ((∀ t source, ¬ s.Launches k op t source) →
        s' = { s with system := system, live := s.live \ {q | ended = some q} })

/-- No live process that descends only from processes that are not the root's is the root's
or runs a system image. -/
def Unprivileged (s : Owned) : Prop :=
  ∀ q, q ∈ s.live → q ∈ s.commoners → s.owner q ≠ k.ROOT ∧ s.image q ≠ some k.SYSTEM

/-- What a step promises: a process that is made has the owner of its creator, who is the
root if the program is a system program; live processes keep their owners; and an `exec`
that is refused takes no slot. -/
structure Inherits (s : Owned) (op : SystemOp) (s' : Owned) : Prop where
  created : ∀ t source, s.Launches k op t source →
    s'.owner s.next = s.owner (s.system.parentOf t) ∧
      (s.system.kernel.programType k source = some k.SYSTEM →
        s.owner (s.system.parentOf t) = k.ROOT)
  kept : ∀ q, q ∈ s.live → q ∈ s'.live → s'.owner q = s.owner q
  refused : ∀ t source, s.system.execOf k op = some (t, source) →
    s.system.kernel.Refuses k t source →
      s'.system.kernel.kprc = s.system.kernel.kprc ∧
        s'.system.kernel.ktrd = s.system.kernel.ktrd ∧
        s'.system.kernel.kdescs = s.system.kernel.kdescs ∧
        s'.system.kernel.kptr = s.system.kernel.kptr

/-- What an `exec` that is not refused must find: no live process of another owner in its
slot, and if the calling process is no more and did not descend from the root, its cleared
slot does not have the owner of the root. -/
def OwnSafe (s : Owned) (op : SystemOp) : Prop :=
  ∀ t source, s.Launches k op t source →
    (s.next ∈ s.live → s.owner s.next = s.owner (s.system.parentOf t)) ∧
      (s.system.parentOf t ∉ s.live → s.system.parentOf t ∈ s.commoners →
        s.owner (s.system.parentOf t) ≠ k.ROOT)

end Steps

section Rules

variable {k : Config} {m : Modules} {s s' : Owned} {op : SystemOp} {t source : Nat}

/-- A call comes to `exec` for one thread and one file. -/
theorem execOf_unique
    {system : System} {t' source' : Nat}
    (h : system.execOf k op = some (t, source))
    (h' : system.execOf k op = some (t', source')) :
    t = t' ∧ source = source' := by
  simpa using h.symm.trans h'

/-- A good file of a system program is launched for the root only. -/
theorem root_of_system
    (hgood : ¬ s.system.kernel.Refuses k t source)
    (hsystem : s.system.kernel.programType k source = some k.SYSTEM) :
    s.owner (s.system.parentOf t) = k.ROOT := by
  obtain ⟨⟨code, loaded⟩, hload, htype⟩ := Option.map_eq_some_iff.mp hsystem
  by_contra hcommon
  exact hgood ⟨code, loaded, hload, Or.inr ⟨htype, hcommon⟩⟩

/-- A step that launches a process. -/
theorem OwnStep.launches
    (hstep : OwnStep k m s op s')
    (hlaunch : s.Launches k op t source) :
    ∃ system, s' = s.launched k t source system ∧
      (∀ q, q ≠ s.next → s'.owner q = s.owner q) ∧
      s'.owner s.next = s.owner (s.system.parentOf t) := by
  obtain ⟨ended, system, hrun, hmade, -⟩ := hstep
  obtain ⟨-, ret, made, hexec⟩ := System.run_exec hrun hlaunch.1
  obtain ⟨hbad, -⟩ | ⟨-, -, -, htaken⟩ := exec_spec hexec
  · exact absurd hbad hlaunch.2
  · refine ⟨system, hmade t source hlaunch, ?_⟩
    rw [hmade t source hlaunch]
    exact ⟨fun q hq => congrArg Process.owner_id (htaken.processes q hq),
      exec_owner hexec hlaunch.2⟩

/-- A step that launches none. -/
theorem OwnStep.other
    (hstep : OwnStep k m s op s')
    (hnone : ∀ t source, ¬ s.Launches k op t source) :
    s'.live ⊆ s.live ∧ s'.commoners = s.commoners ∧ s'.image = s.image ∧
      (∀ q, q ∈ s'.live → s'.owner q = s.owner q) ∧
      ∀ t source, s.system.execOf k op = some (t, source) →
        Loads s.system.kernel s'.system.kernel := by
  obtain ⟨ended, system, hrun, -, hbooks⟩ := hstep
  obtain rfl := hbooks hnone
  refine ⟨Set.sdiff_subset, rfl, rfl, ?_, ?_⟩
  · intro q hq
    cases hexec : s.system.execOf k op with
    | none => exact System.run_owner hrun hexec q hq.2
    | some call =>
        obtain ⟨t, source⟩ := call
        obtain ⟨-, ret, made, hcall⟩ := System.run_exec hrun hexec
        obtain ⟨-, -, hloads⟩ | ⟨hgood, -⟩ := exec_spec hcall
        · exact congrArg Process.owner_id (congrFun hloads.processes q)
        · exact absurd ⟨hexec, hgood⟩ (hnone t source)
  · intro t source hexec
    obtain ⟨-, ret, made, hcall⟩ := System.run_exec hrun hexec
    obtain ⟨-, -, hloads⟩ | ⟨hgood, -⟩ := exec_spec hcall
    · exact hloads
    · exact absurd ⟨hexec, hgood⟩ (hnone t source)

/-- A step that launches nothing keeps everything. -/
theorem other_kept
    (hstart : Unprivileged k s)
    (hstep : OwnStep k m s op s')
    (hnone : ∀ t source, ¬ s.Launches k op t source) :
    Unprivileged k s' ∧ Inherits k s op s' := by
  obtain ⟨hlive, hcommoners, himage, howner, hloads⟩ := hstep.other hnone
  constructor
  · intro q hq hcommon
    rw [howner q hq, himage]
    exact hstart q (hlive hq) (hcommoners ▸ hcommon)
  · refine ⟨fun t source hlaunch => absurd hlaunch (hnone t source), fun q _ => howner q, ?_⟩
    intro t source hexec _
    have hload := hloads t source hexec
    exact ⟨hload.kprc, hload.ktrd, hload.kdescs, hload.kptr⟩

/-- A launch whose slot was the root's neither before nor after raises nothing. -/
theorem launch_unprivileged
    {system : System}
    (hstart : Unprivileged k s)
    (hlaunch : s.Launches k op t source)
    (hother : ∀ q, q ≠ s.next → (s.launched k t source system).owner q = s.owner q)
    (hmade : (s.launched k t source system).owner s.next = s.owner (s.system.parentOf t))
    (hcommon : s.system.parentOf t ∈ s.commoners ∨ s.next ∈ s.live ∧ s.next ∈ s.commoners →
      s.owner (s.system.parentOf t) ≠ k.ROOT) :
    Unprivileged k (s.launched k t source system) := by
  rintro q hq (⟨hne, hdescent⟩ | ⟨rfl, hdescent⟩)
  · have hlive : q ∈ s.live := hq.resolve_left hne
    have himage : (s.launched k t source system).image q = s.image q :=
      Function.update_of_ne hne _ _
    rw [hother q hne, himage]
    exact hstart q hlive hdescent
  · have himage : (s.launched k t source system).image s.next =
        s.system.kernel.programType k source :=
      Function.update_self _ _ _
    rw [hmade, himage]
    exact ⟨hcommon hdescent, fun hsystem =>
      hcommon hdescent (root_of_system hlaunch.2 hsystem)⟩

/-- **A launch keeps the owners exactly when it replaces none.** -/
theorem launch_kept_iff
    (hstart : Unprivileged k s)
    (hstep : OwnStep k m s op s')
    (hlaunch : s.Launches k op t source) :
    Unprivileged k s' ∧ Inherits k s op s' ↔
      (s.next ∈ s.live → s.owner s.next = s.owner (s.system.parentOf t)) ∧
        (s.system.parentOf t ∉ s.live → s.system.parentOf t ∈ s.commoners →
          s.owner (s.system.parentOf t) ≠ k.ROOT) := by
  obtain ⟨system, rfl, hother, hmade⟩ := hstep.launches hlaunch
  constructor
  · rintro ⟨hprivilege, hinherits⟩
    constructor
    · intro hlive
      exact (hinherits.kept s.next hlive (Or.inl rfl)).symm.trans hmade
    · intro _ hcommon
      rw [← hmade]
      exact (hprivilege s.next (Or.inl rfl) (Or.inr ⟨rfl, Or.inl hcommon⟩)).1
  · rintro ⟨hslot, hcleared⟩
    refine ⟨launch_unprivileged hstart hlaunch hother hmade ?_, ⟨?_, ?_, ?_⟩⟩
    · rintro (hparent | ⟨hlive, hcommon⟩)
      · by_cases hlive : s.system.parentOf t ∈ s.live
        · exact (hstart _ hlive hparent).1
        · exact hcleared hlive hparent
      · rw [← hslot hlive]
        exact (hstart _ hlive hcommon).1
    · intro t' source' hlaunch'
      obtain ⟨rfl, rfl⟩ := execOf_unique hlaunch.1 hlaunch'.1
      exact ⟨hmade, root_of_system hlaunch.2⟩
    · intro q hlive _
      by_cases hq : q = s.next
      · rw [hq, hmade, hslot (hq ▸ hlive)]
      · exact hother q hq
    · intro t' source' hexec hbad
      obtain ⟨rfl, rfl⟩ := execOf_unique hlaunch.1 hexec
      exact absurd hbad hlaunch.2

/-- Which steps keep the owners. -/
theorem step_kept_iff
    (hstart : Unprivileged k s)
    (hstep : OwnStep k m s op s') :
    Unprivileged k s' ∧ Inherits k s op s' ↔ OwnSafe k s op := by
  by_cases hany : ∃ t source, s.Launches k op t source
  · obtain ⟨t, source, hlaunch⟩ := hany
    rw [launch_kept_iff hstart hstep hlaunch]
    constructor
    · intro hsafe t' source' hlaunch'
      obtain ⟨rfl, rfl⟩ := execOf_unique hlaunch.1 hlaunch'.1
      exact hsafe
    · exact fun hsafe => hsafe t source hlaunch
  · have hnone : ∀ t source, ¬ s.Launches k op t source :=
      fun t source hlaunch => hany ⟨t, source, hlaunch⟩
    exact iff_of_true (other_kept hstart hstep hnone)
      fun t source hlaunch => absurd hlaunch (hnone t source)

/--
**Ownership is inherited and never raised exactly in the runs in which no `exec` takes the
slot of a live process of another owner**, nor is called for a cleared slot that passes for
the root.
-/
theorem owners_inherited_iff
    {run : List (SystemOp × Owned)}
    (hrun : Run (OwnStep k m) s run)
    (hstart : Unprivileged k s) :
    Always (Unprivileged k) s run ∧ EveryStep (Inherits k) s run ↔
      StepsMeet (OwnSafe k) s run :=
  always_and_everyStep_iff_stepsMeet (C := OwnSafe k) (R := Inherits k)
    (fun _ _ _ h hstep => step_kept_iff h hstep) hrun hstart

end Rules

section Examples

/-- A `clone_thread` that copies the thread into the next slot. -/
def idleModules : Modules where
  clone_thread s templ :=
    (nextThread s, s.modifyThread (nextThread s) fun _ => s.threads templ)
  methodsnum _ := 0
  functions _ _ := 0
  clone_processes _ _ := rfl

/-- The idle kernel with a process of the owner 1 in slot 0, unmarked as `exec` leaves it,
and one of the owner 2 in slot 3, whose descriptor 0 is for the file 0. -/
def sharedKernel : Kernel :=
  { idleKernel with
    pointers := Function.update idleKernel.pointers 0x7000 (.descriptor 0)
    processes := fun p =>
      { idleKernel.processes p with
        owner_id := if p = 0 then 1 else 2
        workers := { (idleKernel.processes p).workers with ckarray := fun _ => 255 }
        descs := ⟨.POINTER, 1, 1, fun _ => 255, 0x7000, 8⟩ } }

/-- Every file may be read. -/
def sharedSystem : System where
  kernel := sharedKernel
  signals _ := zeroSignals
  vfs := idlePool 0x8000
  metas _ := ⟨fun _ => 0, 1, Syscalls.READ, 0, 0, 4096⟩
  runtime _ := 0
  sys_retval _ := 0

/-- Neither process is the root's. -/
def sharedStart : Owned :=
  ⟨sharedSystem, {0, 3}, {0, 3}, fun _ => none⟩

theorem unprivileged_sharedStart : Unprivileged idleConfig sharedStart := by
  rintro q (rfl | rfl) -
  · exact ⟨by decide, Option.some_ne_none _ ∘ Eq.symm⟩
  · exact ⟨by decide, Option.some_ne_none _ ∘ Eq.symm⟩

/-- `SYS_EXEC` by the process in slot 3. -/
def sharedRun (system : System) : List (SystemOp × Owned) :=
  [(.SYS_EXEC 3 0, sharedStart.launched idleConfig 3 0 system)]

theorem run_sharedRun :
    ∃ system, sharedStart.Launches idleConfig (.SYS_EXEC 3 0) 3 0 ∧
      Run (OwnStep idleConfig idleModules) sharedStart (sharedRun system) := by
  have hpasses : sharedSystem.execRefusal idleConfig 3 0 = none := by decide
  have hcome : sharedSystem.execOf idleConfig (.SYS_EXEC 3 0) = some (3, 0) := by
    rw [System.execOf, if_pos hpasses]
    rfl
  obtain ⟨kernel, hlaunch, -⟩ :=
    launch_clear (s := sharedKernel) rfl 3 0 (idleConfig.headerAt 0x6000) 0x6000
  have hload : sharedKernel.loadPage idleConfig 0 0 = some (0x6000, sharedKernel) := rfl
  have hparent : (sharedKernel.threads 3).parent = 3 := rfl
  rw [← hparent] at hlaunch
  have hexec := exec_fed hload (by decide) (by decide) rfl hlaunch
  obtain ⟨system, hcall⟩ : ∃ system, sharedSystem.sysExec idleConfig 3 0 = some system := by
    have hfile : sharedSystem.kernel.exec idleConfig 3 (sharedSystem.fileOf 3 0) = _ := hexec
    rw [System.sysExec, hpasses]
    dsimp only
    rw [hfile]
    exact ⟨_, rfl⟩
  have hrun : sharedSystem.run idleConfig idleModules (.SYS_EXEC 3 0) = some (none, system) := by
    rw [System.run, hcall]
    rfl
  have hlaunches : sharedStart.Launches idleConfig (.SYS_EXEC 3 0) 3 0 := by
    obtain ⟨-, hnone, -⟩ | ⟨hgood, -⟩ := exec_spec hexec
    · cases hnone
    · exact ⟨hcome, hgood⟩
  refine ⟨system, hlaunches,
    .cons ⟨none, system, hrun, ?_, fun hnone => absurd hlaunches (hnone 3 0)⟩
    (.nil _)⟩
  intro t source hother
  obtain ⟨rfl, rfl⟩ := execOf_unique hlaunches.1 hother.1
  rfl

theorem owners_inherited_iff_shared :
    ∃ system, Run (OwnStep idleConfig idleModules) sharedStart (sharedRun system) ∧
      (Always (Unprivileged idleConfig) sharedStart (sharedRun system) ∧
          EveryStep (Inherits idleConfig) sharedStart (sharedRun system) ↔
        StepsMeet (OwnSafe idleConfig) sharedStart (sharedRun system)) := by
  obtain ⟨system, -, hrun⟩ := run_sharedRun
  exact ⟨system, hrun, owners_inherited_iff hrun unprivileged_sharedStart⟩

/-- The live process in slot 0 gets another owner. -/
theorem shared_owner_changed :
    ∃ system, Run (OwnStep idleConfig idleModules) sharedStart (sharedRun system) ∧
      Unprivileged idleConfig sharedStart ∧
        ¬ EveryStep (Inherits idleConfig) sharedStart (sharedRun system) := by
  obtain ⟨system, hlaunches, hrun⟩ := run_sharedRun
  refine ⟨system, hrun, unprivileged_sharedStart, ?_⟩
  rintro ⟨hinherits, -⟩
  have hmade := (hinherits.created 3 0 hlaunches).1
  have hkept := hinherits.kept 0 (Or.inl rfl) (Or.inl rfl)
  have hsame : sharedStart.owner 0 = sharedStart.owner 3 := hkept.symm.trans hmade
  exact absurd hsame (by decide)

end Examples

end Processes
end BestKernel
