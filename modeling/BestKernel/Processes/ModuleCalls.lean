import BestKernel.Mem.Regions
import BestKernel.Mem.Signatures
import BestKernel.Processes.Ownership
import BestKernel.Processes.Signalling

/-!
# Calls into modules

`SYS_MODCTL` and `module_ctl` should run a function that the module has, or else undo what
they began and return an error code (`ModctlRight`, `ModuleRight`).

`module_ctl` clones a thread, moves its stack and maps the data before its first test, and
takes nothing back.  The first test is for the pointer that `mem_map` returned, which is
never one, so that no function runs and the value is 0 (`moduleCtl_fst`).  What `SYS_MODCTL`
refuses itself is right, but for the signs that a translation leaves in the page tree.

Readings of the source.  The calendar of the driver is what `stream_init` takes, in front of
a function that runs.  The page trees are the words of the kernel.
-/

namespace BestKernel
namespace Processes

open Machine
open Kontrol
open Mem

namespace System

variable (k : Config) (m : Modules) (s : System) (t : Nat)

/-- The clone that `module_ctl` makes. -/
def calleeOf (driv : Nat) : Nat :=
  (m.clone_thread s.kernel (s.kernel.pointers
    (wordAt (s.kernel.processes (s.runtime driv)).workers.pool 0)).threadSlot).1

/-- The calendar of the driver after `module_ctl`, which takes it for a function. -/
def driverCalendar (driv : Nat) (function : Half) (data : Word) (calendar : Byte) : Byte :=
  if (s.moduleCtl m driv function data).1 = none then 255 else calendar

/-- The data of a call, translated for the driver, with the signs of the translation. -/
def translated (desc : Half) (data : Word) : WordMemory × Word :=
  vmtoPhys s.kernel.words (s.kernel.processes (s.runtime (s.fileOf t desc))).pagetree data

/-- The system in which `SYS_MODCTL` calls `module_ctl`. -/
def signed (desc : Half) (data : Word) : System :=
  { s with kernel := { s.kernel with words := (s.translated t desc data).1 } }

/-- A call that comes to `module_ctl`. -/
def Admitted (desc : Half) (data : Word) : Prop :=
  (s.process t).owner_id = k.ROOT ∧ ¬ (s.table t).refuses desc .SYS_MODCTL = true ∧
    (s.translated t desc data).2 ≠ 0

instance (desc : Half) (data : Word) : Decidable (s.Admitted k t desc data) := by
  unfold Admitted
  infer_instance

end System

section Specification

/-- A call that comes to nothing: threads, calendar and page trees are as they were, and the
value is an error code. -/
structure Undone (s s' : System) (calendar calendar' : Byte) (value : Int) : Prop where
  pool : s'.kernel.ktrd = s.kernel.ktrd
  threads : s'.kernel.threads = s.kernel.threads
  calendar : calendar' = calendar
  trees : s'.kernel.words = s.kernel.words
  value : value ≠ 0

/-- A function that runs: it is one of the module, and the clone begins with it. -/
structure RunsFunction (m : Modules) (s' : System) (callee : Nat) (function : Half) : Prop where
  method : function < m.methodsnum (s'.process callee).code
  entry : (s'.kernel.threads callee).instruction_pointer =
    (s'.process callee).userspace_code + m.functions (s'.process callee).code function

variable (k : Config) (m : Modules) (s : System) (t : Nat)

/-- What `module_ctl` should do. -/
def ModuleRight (driv : Nat) (function : Half) (data : Word) (calendar : Byte) : Prop :=
  match s.moduleCtl m driv function data with
  | (none, s') => RunsFunction m s' (s.calleeOf m driv) function
  | (some value, s') =>
      Undone s s' calendar (s.driverCalendar m driv function data calendar) value

/-- What `SYS_MODCTL` should do. -/
def ModctlRight (desc function : Half) (data : Word) (calendar : Byte) : Prop :=
  let driv := s.fileOf t desc
  let called := s.signed t desc data
  let passdata := (s.translated t desc data).2
  let s' := s.sysModctl k m t desc function data
  if s.Admitted k t desc data then
    if (called.moduleCtl m driv function passdata).1 = none then
      RunsFunction m s' (called.calleeOf m driv) function
    else
      Undone s s' calendar (called.driverCalendar m driv function passdata calendar)
        (s'.sys_retval t)
  else Undone s s' calendar calendar (s'.sys_retval t)

/-- The condition: `SYS_MODCTL` refuses the call, and if it does so for the data, the entries
that their translation passes are signed already. -/
def ModctlSafe (desc : Half) (data : Word) : Prop :=
  (s.process t).owner_id ≠ k.ROOT ∨ (s.table t).refuses desc .SYS_MODCTL = true ∨
    (s.translated t desc data).2 = 0 ∧
      WalkSigned data s.kernel.words (s.kernel.processes (s.runtime (s.fileOf t desc))).pagetree

end Specification

section Calls

variable {k : Config} {m : Modules} {s : System} {t : Nat}

theorem wordAt_one_ne (a : Word) : wordAt a 1 ≠ a := by
  unfold wordAt
  bv_omega

/-- What is pushed for a function begins with two zeros. -/
theorem pushData_zero
    (kernel : Kernel)
    (callee : Nat)
    (pagetree data : Word) :
    (System.pushData kernel callee pagetree data).2.words
        (System.pushData kernel callee pagetree data).1 = 0 ∧
      (System.pushData kernel callee pagetree data).2.words
        (wordAt (System.pushData kernel callee pagetree data).1 1) = 0 := by
  have hne := fun a : Word => (wordAt_one_ne a).symm
  unfold System.pushData
  dsimp only
  refine ⟨?_, Function.update_self _ _ _⟩
  rw [Function.update_of_ne (hne _)]
  split_ifs with hdata
  · exact Function.update_self _ _ _
  · rw [Function.update_self, memMap_fst, fetchedPointer_vmtreeFetch]

/-- **No function ever runs**, and the value that `module_ctl` returns is 0. -/
theorem moduleCtl_fst
    (driv : Nat)
    (function : Half)
    (data : Word) :
    (s.moduleCtl m driv function data).1 = some 0 := by
  unfold System.moduleCtl
  dsimp only
  rw [if_pos (pushData_zero _ _ _ _).1]
  dsimp only
  rw [(pushData_zero _ _ _ _).2]
  rfl

theorem not_moduleRight
    (driv : Nat)
    (function : Half)
    (data : Word)
    (calendar : Byte) :
    ¬ ModuleRight m s driv function data calendar := by
  have hvalue := moduleCtl_fst (m := m) (s := s) driv function data
  unfold ModuleRight
  generalize s.moduleCtl m driv function data = result at hvalue
  obtain ⟨value, s'⟩ := result
  obtain rfl : value = some 0 := hvalue
  exact fun h => h.value rfl

/-- A call that is admitted returns 0. -/
theorem sysModctl_admitted
    {desc function : Half} {data : Word}
    (h : s.Admitted k t desc data) :
    (s.sysModctl k m t desc function data).sys_retval t = 0 := by
  obtain ⟨howner, hrefuses, hpassdata⟩ := h
  have hvalue := moduleCtl_fst (m := m) (s := s.signed t desc data) (s.fileOf t desc) function
    (s.translated t desc data).2
  have heq : s.sysModctl k m t desc function data =
      System.answered t ((s.signed t desc data).moduleCtl m (s.fileOf t desc) function
        (s.translated t desc data).2) := by
    unfold System.sysModctl
    rw [if_neg (not_not.2 howner), if_neg hrefuses]
    exact if_neg hpassdata
  rw [heq, System.answered, hvalue]
  exact Function.update_self _ _ _

theorem not_modctlRight_of_admitted
    {desc function : Half} {data : Word}
    (h : s.Admitted k t desc data)
    (calendar : Byte) :
    ¬ ModctlRight k m s t desc function data calendar := by
  have hvalue := moduleCtl_fst (m := m) (s := s.signed t desc data) (s.fileOf t desc) function
    (s.translated t desc data).2
  unfold ModctlRight
  dsimp only
  rw [if_pos h, hvalue, if_neg (Option.some_ne_none _)]
  exact fun hundone => hundone.value (sysModctl_admitted h)

/-- A value that is stored and nothing else. -/
theorem undone_returns
    {value : Int}
    (h : value ≠ 0)
    (s' : System)
    (calendar : Byte) :
    Undone s (s'.returns t value) calendar calendar ((s'.returns t value).sys_retval t) ↔
      s'.kernel.ktrd = s.kernel.ktrd ∧ s'.kernel.threads = s.kernel.threads ∧
        s'.kernel.words = s.kernel.words := by
  have hvalue : (s'.returns t value).sys_retval t = value := by
    unfold System.returns
    exact Function.update_self _ _ _
  constructor
  · exact fun hundone => ⟨hundone.pool, hundone.threads, hundone.trees⟩
  · exact fun hsame => ⟨hsame.1, hsame.2.1, rfl, hsame.2.2, by rwa [hvalue]⟩

variable (k m s t)

/-- **`SYS_MODCTL` is right when it refuses a call without a trace, and `module_ctl` never
is.** -/
theorem modctl_right_iff
    (desc function : Half)
    (data : Word)
    (calendar : Byte) :
    (ModctlRight k m s t desc function data calendar ↔ ModctlSafe k s t desc data) ∧
      ∀ driv, ¬ ModuleRight m s driv function data calendar := by
  refine ⟨?_, fun driv => not_moduleRight driv function data calendar⟩
  by_cases hadmitted : s.Admitted k t desc data
  · refine iff_of_false (not_modctlRight_of_admitted hadmitted calendar) ?_
    rintro (h | h | h)
    · exact h hadmitted.1
    · exact hadmitted.2.1 h
    · exact hadmitted.2.2 h.1
  unfold ModctlRight ModctlSafe
  dsimp only
  rw [if_neg hadmitted]
  by_cases howner : (s.process t).owner_id ≠ k.ROOT
  · have hcall : s.sysModctl k m t desc function data = s.returns t 1 := if_pos howner
    rw [hcall, undone_returns (by decide)]
    exact iff_of_true ⟨rfl, rfl, rfl⟩ (.inl howner)
  · by_cases hrefuses : (s.table t).refuses desc .SYS_MODCTL = true
    · have hcall : s.sysModctl k m t desc function data = s.returns t 2 :=
        (if_neg howner).trans (if_pos hrefuses)
      rw [hcall, undone_returns (by decide)]
      exact iff_of_true ⟨rfl, rfl, rfl⟩ (.inr (.inl hrefuses))
    · have hpassdata : (s.translated t desc data).2 = 0 := by
        by_contra hsome
        exact hadmitted ⟨not_not.1 howner, hrefuses, hsome⟩
      have hcall : s.sysModctl k m t desc function data = (s.signed t desc data).returns t 3 :=
        (if_neg howner).trans ((if_neg hrefuses).trans (if_pos hpassdata))
      rw [hcall, undone_returns (by decide)]
      have hsigned : (s.translated t desc data).1 = s.kernel.words ↔ WalkSigned data _ _ :=
        vmtoPhys_unchanged_iff _ _ _
      constructor
      · exact fun h => .inr (.inr ⟨hpassdata, hsigned.mp h.2.2⟩)
      · rintro (h | h | h)
        · exact absurd h howner
        · exact absurd h hrefuses
        · exact ⟨rfl, rfl, hsigned.mpr h.2⟩

end Calls

/-- The idle system, where the process in slot 3 has a descriptor 0 for the file 0. -/
def describedSystem : System :=
  { idleSystem with
    kernel := idleKernel.modifyProcess 3 fun p =>
      { p with workers := { p.workers with ckarray := fun _ => 255 } } }

/-- Thread 3 asks for the first function of a module that has none, and gets a 0. -/
theorem described_not_undone :
    (describedSystem.sysModctl idleConfig idleModules 3 0 0 1).sys_retval 3 = 0 ∧
      ¬ ModctlRight idleConfig idleModules describedSystem 3 0 0 1 0 := by
  have hadmitted : describedSystem.Admitted idleConfig 3 0 1 :=
    ⟨rfl, by decide, by decide⟩
  exact ⟨sysModctl_admitted hadmitted, not_modctlRight_of_admitted hadmitted 0⟩

end Processes
end BestKernel
