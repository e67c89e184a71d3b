import BestKernel.Kontrol.Hash
import BestKernel.Library.Locks
import BestKernel.Mem.Bitmap
import BestKernel.Mem.Regions

/-!
# Lock discipline

Which calendars `vmtree_fetch`, `deallocate_vm`, the searches for frames, the calls on
regions, `mount` and `reenact_io` take and clear, on every path through them.

`lock_discipline_iff` says where the discipline is kept: `deallocate_vm` returns with the
calendar of the process when it meets a page of the supervisor, and so does what calls it,
where `mem_realloc` then waits for itself; and `reenact_io` never clears the calendars of
the devices.

Readings of the source.  `stream_init` takes the calendar and waits while it is held.  A
process is known by its page tree, and `process` in `vmtree_fetch` is the process of the
tree that is passed.  The pool of pointers is no pool of pointers to itself, as its type is
set at boot.  `pool_alloc` in `Hash::pool_realloc` is that of `Hash`.  `mem_map` returns
`ret`.  How often `mount` and `reenact_io` make the calls that they make, and in which
order, is left open.  The code of drivers, `clone_thread`, `problem_ctl`,
`getdir_entries` and `INIT_KERNEL_THREAD` is from outside: it clears the calendars that it
takes and no others, and takes neither that of the file system nor that of a device.
-/

namespace BestKernel
namespace Kontrol

open Machine
open Mem
open Locks

/-- The pools that `mount` and `reenact_io` hand something out of. -/
inductive Pool where
  | vfs
  | names
  | partitions
deriving DecidableEq, Repr

/-- The calendars; a process is known by its page tree, a device and a driver by its
address. -/
inductive Calendar where
  | process (pagetree : Word)
  | kingmem
  | kptr
  | pool (pool : Pool)
  | device (p : Word)
  | driver (p : Word)
  | foreign (n : Nat)
deriving DecidableEq

section Memory

variable (m : WordMemory) (pagetree : Word)

/-- A calendar is taken and cleared again. -/
def guarded (c : Calendar) : Path Calendar := ⟨[.take c, .clear c], true⟩

def vmtreeFetchPath (pages_number pagetype : Nat) : Path Calendar :=
  match (vmtreeFetch pagetree m pages_number pagetype).1 with
  | some _ => guarded (.process pagetree)
  | none => guarded (.process pagetree)

/-- Only the return of 3 does not clear the calendar. -/
def deallocateVmPath (vm : Word) (pages_number : Nat) : Path Calendar :=
  if (deallocateVm m pagetree vm pages_number).1 = 3 then ⟨[.take (.process pagetree)], true⟩
  else guarded (.process pagetree)

def memAllocPath (pagetype pages_number : Nat) : Path Calendar :=
  vmtreeFetchPath m pagetree pages_number pagetype

def memMapPath (pagetype pages_number : Nat) : Path Calendar :=
  vmtreeFetchPath m pagetree pages_number pagetype

/-- `manipulate_phys` takes the calendar for `SET`. -/
def manipulatePhysPath (action : Action) : Path Calendar :=
  match action with
  | .SET => guarded .kingmem
  | .CLEAR => .ret

def memFreePath (vm : Word) (pages_number : Nat) : Path Calendar :=
  (deallocateVmPath m pagetree vm pages_number).andThen
    (if (deallocateVm m pagetree vm pages_number).1 ≠ 0 then .ret else manipulatePhysPath .CLEAR)

/-- The arguments of a search for frames, and how many rounds it gets. -/
structure Search where
  memlen : Half
  table : RamTable
  pages_number : Half
  pagetype : Nat
  fuel : Nat

/-- A search that comes to an end clears the calendar. -/
def getFreePhysPath (s : Search) : Path Calendar :=
  match getFreePhys s.memlen s.table s.pages_number s.pagetype s.fuel with
  | none => ⟨[.take .kingmem], false⟩
  | some _ => guarded .kingmem

def getFreeIdentityPath (s : Search) : Path Calendar :=
  match getFreeIdentity s.memlen s.table s.pages_number s.pagetype s.fuel with
  | none => ⟨[.take .kingmem], false⟩
  | some _ => guarded .kingmem

/-- `malloc` -/
def mallocPath (s : Search) : Path Calendar :=
  (getFreeIdentityPath s).andThen (manipulatePhysPath .SET)

/-- The failure of `deallocate_vm` is signalled and otherwise ignored. -/
def memReallocPath (vm : Word) (oldpages newpages : Half) (s : Search) : Path Calendar :=
  if oldpages > newpages then .ret
  else
    let (_, _, tree) := deallocateVm m pagetree vm oldpages.toNat
    let found := (vmtreeFetch pagetree tree newpages.toNat s.pagetype).1
    ((deallocateVmPath m pagetree vm oldpages.toNat).andThen
      (vmtreeFetchPath tree pagetree newpages.toNat s.pagetype)).andThen
      (if fetchedPointer found = -1 then .ret
      else getFreePhysPath { s with pages_number := newpages - oldpages })

end Memory

/-- The calendars that code from outside may take while the kernel waits for it. -/
def foreignCalendars : Set Calendar := {c | c ≠ .pool .vfs ∧ ∀ p, c ≠ .device p}

/-- Code from outside. -/
structure ForeignCode where
  path : Path Calendar
  closed : Closed foreignCalendars path
  sticky : Sticky path

/-- The pool of pointers grows a pool, for which it takes memory. -/
def growthPath (growth : Option Search) : Path Calendar :=
  growth.elim .ret fun s => .locked .kptr (mallocPath s)

/-- `module_ctl` of a driver, for its function number `function`. -/
def moduleCtlPath (driver : Word) (function methodsnum : Half) (m : WordMemory)
    (pagetree data : Word) : Path Calendar :=
  if data = 0 then .ret
  else
    let cache := Cache.WRITEBACK.code
    let mapped := (memMap m pagetree data Pag.SMALLPAGE 1 cache).1
    (memMapPath m pagetree Pag.SMALLPAGE 1).andThen
      (if fetchedPointer mapped = 0 then .ret
      else if function > methodsnum then .ret
      else ⟨[.take (.driver driver)], true⟩)

/-- What `mount` does while it holds the calendar of the file system: `kptr->pool_alloc`,
the allocations in `load_file`, and code from outside. -/
inductive MountStep where
  | kptrAlloc
  | malloc (s : Search)
  | foreign (code : ForeignCode)

def MountStep.path : MountStep → Path Calendar
  | .kptrAlloc => guarded .kptr
  | .malloc s => mallocPath s
  | .foreign code => code.path

/-- `mount`, with what it does for a partition of `files_number` files. -/
def mountPath (vfs : Hash) (files_number : Word) (steps : List MountStep) : Path Calendar :=
  .locked (.pool .vfs)
    (if (vfs.length - vfs.count).setWidth 64 < files_number then .ret
    else .all (steps.map MountStep.path))

/-- What `reenact_io` does behind the devices' calendars that concerns calendars: the
frees of `DRIVKILL`, the calls of `load_all_devices`, and the maps. -/
inductive ReenactStep where
  | memFree (m : WordMemory) (pagetree vm : Word) (pages_number : Nat)
  | poolAlloc (pool : Pool) (growth : Option Search)
  | hashAlloc (growth : Option Search)
  | kptrAlloc
  | malloc (s : Search)
  | moduleCtl (driver : Word) (function methodsnum : Half) (m : WordMemory) (pagetree data : Word)
  | memMap (m : WordMemory) (pagetree : Word) (pagetype pages_number : Nat)
  | foreign (code : ForeignCode)

def ReenactStep.path : ReenactStep → Path Calendar
  | .memFree m pagetree vm pages_number => memFreePath m pagetree vm pages_number
  | .poolAlloc pool growth => .locked (.pool pool) (growthPath growth)
  | .hashAlloc growth => growthPath growth
  | .kptrAlloc => guarded .kptr
  | .malloc s => mallocPath s
  | .moduleCtl driver function methodsnum m pagetree data =>
      moduleCtlPath driver function methodsnum m pagetree data
  | .memMap m pagetree pagetype pages_number => memMapPath m pagetree pagetype pages_number
  | .foreign code => code.path

/-- The live children of `/dev`. -/
def liveDevices (children : Hash) (entries : Nat → Word) : List Word :=
  ((List.range children.length.toNat).filter fun i => children.ckarray i ≠ 0).map entries

/-- `reenact_io`: the calendars of the devices are taken, and then the rest. -/
def reenactIoPath (children : Hash) (entries : Nat → Word) (steps : List ReenactStep) :
    Path Calendar :=
  .all ((liveDevices children entries).map (fun p => ⟨[.take (.device p)], true⟩) ++
    steps.map ReenactStep.path)

/-- The calls. -/
inductive Call where
  | vmtreeFetch (m : WordMemory) (pagetree : Word) (pages_number pagetype : Nat)
  | deallocateVm (m : WordMemory) (pagetree vm : Word) (pages_number : Nat)
  | getFreePhys (s : Search)
  | getFreeIdentity (s : Search)
  | manipulatePhys (action : Action)
  | memAlloc (m : WordMemory) (pagetree : Word) (pagetype pages_number : Nat)
  | memMap (m : WordMemory) (pagetree : Word) (pagetype pages_number : Nat)
  | memFree (m : WordMemory) (pagetree vm : Word) (pages_number : Nat)
  | memRealloc (m : WordMemory) (pagetree vm : Word) (oldpages newpages : Half) (s : Search)
  | mount (vfs : Hash) (files_number : Word) (steps : List MountStep)
  | reenactIo (children : Hash) (entries : Nat → Word) (steps : List ReenactStep)

def Call.path : Call → Path Calendar
  | .vmtreeFetch m pagetree pages_number pagetype =>
      vmtreeFetchPath m pagetree pages_number pagetype
  | .deallocateVm m pagetree vm pages_number => deallocateVmPath m pagetree vm pages_number
  | .getFreePhys s => getFreePhysPath s
  | .getFreeIdentity s => getFreeIdentityPath s
  | .manipulatePhys action => manipulatePhysPath action
  | .memAlloc m pagetree pagetype pages_number => memAllocPath m pagetree pagetype pages_number
  | .memMap m pagetree pagetype pages_number => memMapPath m pagetree pagetype pages_number
  | .memFree m pagetree vm pages_number => memFreePath m pagetree vm pages_number
  | .memRealloc m pagetree vm oldpages newpages s =>
      memReallocPath m pagetree vm oldpages newpages s
  | .mount vfs files_number steps => mountPath vfs files_number steps
  | .reenactIo children entries steps => reenactIoPath children entries steps

/-- One of the pages from `vm` on is the supervisor's, as `deallocate_vm` tests it. -/
def SupervisorPage (m : WordMemory) (pagetree vm : Word) (pages_number : Nat) : Prop :=
  (vmtoEntry vm m pagetree).2 ≠ 0 ∧ ∃ h, h < pages_number ∧
    bitSet ((vmtoEntry vm m pagetree).1 (wordAt (vmtoEntry vm m pagetree).2 h)) 2 = true

/-- The condition on what `reenact_io` does. -/
def ReenactStep.Safe : ReenactStep → Prop
  | .memFree m pagetree vm pages_number => ¬ SupervisorPage m pagetree vm pages_number
  | _ => True

/-- The condition on a call. -/
def Call.Safe : Call → Prop
  | .deallocateVm m pagetree vm pages_number => ¬ SupervisorPage m pagetree vm pages_number
  | .memFree m pagetree vm pages_number => ¬ SupervisorPage m pagetree vm pages_number
  | .memRealloc m pagetree vm oldpages newpages _ =>
      oldpages > newpages ∨ ¬ SupervisorPage m pagetree vm oldpages.toNat
  | .reenactIo children entries steps =>
      liveDevices children entries = [] ∧ ∀ step, step ∈ steps → step.Safe
  | _ => True

section Paths

variable {m : WordMemory} {pagetree vm : Word} {pages_number pagetype : Nat} {cs : Set Calendar}

theorem guarded_closed
    {c : Calendar}
    (hc : c ∈ cs) :
    Closed cs (guarded c) := by
  have hret : Closed ∅ (Path.ret : Path Calendar) := closed_ret
  exact hret.locked (fun h => h) hc fun _ h => h.elim

theorem guarded_sticky (c : Calendar) : Sticky (guarded c) := sticky_ret.locked c

theorem search_closed
    {c : Calendar}
    (hc : c ∈ cs) :
    Closed cs ⟨[.take c], false⟩ := by
  intro held hheld
  have hfree : c ∉ held := fun h => hheld c h hc
  exact ⟨c :: held, if_neg hfree, fun h => by cases h⟩

theorem vmtreeFetchPath_eq :
    vmtreeFetchPath m pagetree pages_number pagetype = guarded (.process pagetree) := by
  rw [vmtreeFetchPath]
  cases (vmtreeFetch pagetree m pages_number pagetype).1 <;> rfl

theorem getFreePhysPath_closed
    (hc : Calendar.kingmem ∈ cs)
    (s : Search) :
    Closed cs (getFreePhysPath s) := by
  rw [getFreePhysPath]
  split
  · exact search_closed hc
  · exact guarded_closed hc

theorem getFreeIdentityPath_closed
    (hc : Calendar.kingmem ∈ cs)
    (s : Search) :
    Closed cs (getFreeIdentityPath s) := by
  rw [getFreeIdentityPath]
  split
  · exact search_closed hc
  · exact guarded_closed hc

theorem getFreeIdentityPath_sticky (s : Search) : Sticky (getFreeIdentityPath s) := by
  rw [getFreeIdentityPath]
  split
  · exact sticky_take _ _
  · exact guarded_sticky _

theorem manipulatePhysPath_closed
    (hc : Calendar.kingmem ∈ cs)
    (action : Action) :
    Closed cs (manipulatePhysPath action) := by
  cases action with
  | SET => exact guarded_closed hc
  | CLEAR => exact closed_ret

theorem manipulatePhysPath_sticky (action : Action) : Sticky (manipulatePhysPath action) := by
  cases action with
  | SET => exact guarded_sticky _
  | CLEAR => exact sticky_ret

theorem mallocPath_closed
    (hc : Calendar.kingmem ∈ cs)
    (s : Search) :
    Closed cs (mallocPath s) :=
  (getFreeIdentityPath_closed hc s).andThen (manipulatePhysPath_closed hc .SET)

theorem mallocPath_sticky (s : Search) : Sticky (mallocPath s) :=
  (getFreeIdentityPath_sticky s).andThen (manipulatePhysPath_sticky .SET)

theorem growthPath_closed
    (hkptr : Calendar.kptr ∈ cs)
    (hmem : Calendar.kingmem ∈ cs)
    (growth : Option Search) :
    Closed cs (growthPath growth) := by
  cases growth with
  | none => exact closed_ret
  | some s =>
      have hinner : Closed {.kingmem} (mallocPath s) :=
        mallocPath_closed (Set.mem_singleton _) s
      exact hinner.locked (fun h => by cases h) hkptr fun d hd => hd ▸ hmem

theorem growthPath_sticky (growth : Option Search) : Sticky (growthPath growth) := by
  cases growth with
  | none => exact sticky_ret
  | some s => exact (mallocPath_sticky s).locked _

/-- `mem_map` never returns a pointer, so `module_ctl` never gets to the driver's
calendar. -/
theorem moduleCtlPath_eq
    (driver : Word) (function methodsnum : Half) (m : WordMemory) (pagetree data : Word) :
    moduleCtlPath driver function methodsnum m pagetree data = .ret ∨
      moduleCtlPath driver function methodsnum m pagetree data =
        (guarded (.process pagetree)).andThen .ret := by
  rw [moduleCtlPath]
  split
  · exact Or.inl rfl
  · refine Or.inr ?_
    dsimp only
    rw [memMap_fst, fetchedPointer_vmtreeFetch, if_pos rfl, memMapPath, vmtreeFetchPath_eq]

theorem deallocateVm_status_iff :
    (deallocateVm m pagetree vm pages_number).1 = 3 ↔
      SupervisorPage m pagetree vm pages_number := by
  rw [deallocateVm, SupervisorPage]
  dsimp only
  split_ifs with hentries hsupervisor
  · have hzero : (vmtoEntry vm m pagetree).2 = 0 := hentries
    simp [hzero]
  · obtain ⟨i, hi, hbit⟩ := List.any_eq_true.mp hsupervisor
    exact iff_of_true rfl ⟨hentries, i, List.mem_range.mp hi, hbit⟩
  · refine iff_of_false (by simp) fun h => hsupervisor ?_
    obtain ⟨-, i, hi, hbit⟩ := h
    exact List.any_eq_true.mpr ⟨i, List.mem_range.mpr hi, hbit⟩

theorem deallocateVmPath_safe
    (hsafe : ¬ SupervisorPage m pagetree vm pages_number) :
    deallocateVmPath m pagetree vm pages_number = guarded (.process pagetree) :=
  if_neg fun h => hsafe (deallocateVm_status_iff.mp h)

theorem deallocateVmPath_supervisor
    (h : SupervisorPage m pagetree vm pages_number) :
    deallocateVmPath m pagetree vm pages_number = ⟨[.take (.process pagetree)], true⟩ :=
  if_pos (deallocateVm_status_iff.mpr h)

theorem deallocateVmPath_sticky : Sticky (deallocateVmPath m pagetree vm pages_number) := by
  rw [deallocateVmPath]
  split
  · exact sticky_take _ _
  · exact guarded_sticky _

theorem memFreePath_safe
    (hsafe : ¬ SupervisorPage m pagetree vm pages_number) :
    memFreePath m pagetree vm pages_number = (guarded (.process pagetree)).andThen .ret := by
  rw [memFreePath, deallocateVmPath_safe hsafe, manipulatePhysPath, ite_self]

theorem memFreePath_supervisor
    (h : SupervisorPage m pagetree vm pages_number) :
    memFreePath m pagetree vm pages_number = ⟨[.take (.process pagetree)], true⟩ := by
  rw [memFreePath, deallocateVmPath_supervisor h, manipulatePhysPath, ite_self]
  rfl

theorem memFreePath_sticky : Sticky (memFreePath m pagetree vm pages_number) := by
  rw [memFreePath, manipulatePhysPath, ite_self]
  exact deallocateVmPath_sticky.andThen sticky_ret

/-- A call that leaves a calendar as the last thing it does is not disciplined. -/
theorem not_disciplined_take (c : Calendar) :
    ¬ Disciplined (⟨[.take c], true⟩ : Path Calendar) := by
  rintro ⟨held, hhold, hback⟩
  have hheld : hold [.take c] [] = some [c] := if_neg List.not_mem_nil
  rw [hheld] at hhold
  cases hhold
  cases hback rfl

end Paths

section Steps

theorem MountStep.path_closed (step : MountStep) : Closed foreignCalendars step.path := by
  have hmem : Calendar.kingmem ∈ foreignCalendars := ⟨nofun, nofun⟩
  have hkptr : Calendar.kptr ∈ foreignCalendars := ⟨nofun, nofun⟩
  cases step with
  | kptrAlloc => exact guarded_closed hkptr
  | malloc s => exact mallocPath_closed hmem s
  | foreign code => exact code.closed

/-- `mount` keeps the discipline. -/
theorem mountPath_disciplined (vfs : Hash) (files_number : Word) (steps : List MountStep) :
    Disciplined (mountPath vfs files_number steps) := by
  have hinner : Closed foreignCalendars
      (if (vfs.length - vfs.count).setWidth 64 < files_number then .ret
      else .all (steps.map MountStep.path)) := by
    split
    · exact closed_ret
    · refine closed_all fun p hp => ?_
      obtain ⟨step, -, rfl⟩ := List.mem_map.mp hp
      exact step.path_closed
  have hfree : Calendar.pool .vfs ∉ foreignCalendars := fun h => h.1 rfl
  have houter : Closed Set.univ (mountPath vfs files_number steps) :=
    hinner.locked hfree trivial fun _ _ => trivial
  exact disciplined_of_closed houter

theorem ReenactStep.path_sticky (step : ReenactStep) : Sticky step.path := by
  cases step with
  | memFree m pagetree vm pages_number => exact memFreePath_sticky
  | poolAlloc pool growth => exact (growthPath_sticky growth).locked _
  | hashAlloc growth => exact growthPath_sticky growth
  | kptrAlloc => exact guarded_sticky _
  | malloc s => exact mallocPath_sticky s
  | moduleCtl driver function methodsnum m pagetree data =>
      rw [ReenactStep.path]
      rcases moduleCtlPath_eq driver function methodsnum m pagetree data with h | h
      · rw [h]
        exact sticky_ret
      · rw [h]
        exact (guarded_sticky _).andThen sticky_ret
  | memMap m pagetree pagetype pages_number =>
      rw [ReenactStep.path, memMapPath, vmtreeFetchPath_eq]
      exact guarded_sticky _
  | foreign code => exact code.sticky

theorem ReenactStep.path_closed
    {step : ReenactStep}
    (hsafe : step.Safe) :
    Closed Set.univ step.path := by
  cases step with
  | memFree m pagetree vm pages_number =>
      rw [ReenactStep.path, memFreePath_safe hsafe]
      exact (guarded_closed (Set.mem_univ _)).andThen closed_ret
  | poolAlloc pool growth =>
      have hinner : Closed {c | c = .kptr ∨ c = .kingmem} (growthPath growth) :=
        growthPath_closed (Or.inl rfl) (Or.inr rfl) growth
      exact hinner.locked (fun h => by rcases h with h | h <;> cases h) trivial fun _ _ => trivial
  | hashAlloc growth => exact growthPath_closed (Set.mem_univ _) (Set.mem_univ _) growth
  | kptrAlloc => exact guarded_closed (Set.mem_univ _)
  | malloc s => exact mallocPath_closed (Set.mem_univ _) s
  | moduleCtl driver function methodsnum m pagetree data =>
      rw [ReenactStep.path]
      rcases moduleCtlPath_eq driver function methodsnum m pagetree data with h | h
      · rw [h]
        exact closed_ret
      · rw [h]
        exact (guarded_closed (Set.mem_univ _)).andThen closed_ret
  | memMap m pagetree pagetype pages_number =>
      rw [ReenactStep.path, memMapPath, vmtreeFetchPath_eq]
      exact guarded_closed (Set.mem_univ _)
  | foreign code => exact code.closed.mono fun _ _ => trivial

/-- A step of `reenact_io` that is not safe leaves the calendar of a process. -/
theorem ReenactStep.leaves
    {step : ReenactStep}
    (hbroken : ¬ step.Safe) :
    ∃ c, ∀ held held', hold step.path.events held = some held' → c ∈ held' := by
  cases step with
  | memFree m pagetree vm pages_number =>
      have hpath := memFreePath_supervisor (not_not.mp hbroken)
      refine ⟨.process pagetree, fun held held' h => ?_⟩
      rw [ReenactStep.path, hpath] at h
      exact mem_of_hold_take h
  | _ => exact absurd trivial hbroken

/-- `reenact_io` keeps the discipline when there is no live device and what it does is
safe. -/
theorem reenactIoPath_disciplined
    {children : Hash} {entries : Nat → Word} {steps : List ReenactStep}
    (hlive : liveDevices children entries = [])
    (hsafe : ∀ step, step ∈ steps → step.Safe) :
    Disciplined (reenactIoPath children entries steps) := by
  rw [reenactIoPath, hlive, List.map_nil, List.nil_append]
  have hsteps : Closed Set.univ (Path.all (steps.map ReenactStep.path)) := by
    refine closed_all fun p hp => ?_
    obtain ⟨step, hstep, rfl⟩ := List.mem_map.mp hp
    exact ReenactStep.path_closed (hsafe step hstep)
  exact disciplined_of_closed hsteps

/-- When it comes back and keeps the discipline, that is why. -/
theorem reenactIoPath_safe
    {children : Hash} {entries : Nat → Word} {steps : List ReenactStep}
    (hreturned : (reenactIoPath children entries steps).returned = true)
    (h : Disciplined (reenactIoPath children entries steps)) :
    liveDevices children entries = [] ∧ ∀ step, step ∈ steps → step.Safe := by
  obtain ⟨held, hhold, hback⟩ := h
  obtain rfl := hback hreturned
  have hsticky : ∀ q, q ∈ (liveDevices children entries).map
        (fun p => (⟨[.take (.device p)], true⟩ : Path Calendar)) ++
      steps.map ReenactStep.path → Sticky q := by
    intro q hq
    rcases List.mem_append.mp hq with hq | hq
    · obtain ⟨p, -, rfl⟩ := List.mem_map.mp hq
      exact sticky_take _ _
    · obtain ⟨step, -, rfl⟩ := List.mem_map.mp hq
      exact step.path_sticky
  -- what is left by one of the paths would be held at the end
  have hnone : ∀ p c, p ∈ (liveDevices children entries).map
        (fun p => (⟨[.take (.device p)], true⟩ : Path Calendar)) ++
      steps.map ReenactStep.path →
      ¬ ∀ held held', hold p.events held = some held' → c ∈ held' :=
    fun p c hp hleaves =>
      List.not_mem_nil (mem_hold_all hsticky hp hleaves hreturned hhold)
  constructor
  · refine List.eq_nil_iff_forall_not_mem.mpr fun p hp => ?_
    exact hnone _ (.device p) (List.mem_append_left _ (List.mem_map_of_mem hp))
      fun _ _ => mem_of_hold_take
  · intro step hstep
    by_contra hbroken
    obtain ⟨c, hc⟩ := ReenactStep.leaves hbroken
    exact hnone _ c (List.mem_append_right _ (List.mem_map_of_mem hstep)) hc

end Steps

section Realloc

variable {m : WordMemory} {pagetree vm : Word} {oldpages newpages : Half} {s : Search}

theorem memReallocPath_safe
    (hsafe : oldpages > newpages ∨ ¬ SupervisorPage m pagetree vm oldpages.toNat) :
    Disciplined (memReallocPath m pagetree vm oldpages newpages s) := by
  rw [memReallocPath]
  split_ifs with hshrinks
  · have hret : Closed Set.univ (Path.ret : Path Calendar) := closed_ret
    exact disciplined_of_closed hret
  · dsimp only
    rw [deallocateVmPath_safe (hsafe.resolve_left hshrinks), vmtreeFetchPath_eq]
    have hfetch : Closed Set.univ (guarded (.process pagetree)) :=
      guarded_closed (Set.mem_univ _)
    refine disciplined_of_closed ((hfetch.andThen hfetch).andThen ?_)
    split_ifs
    · exact closed_ret
    · exact getFreePhysPath_closed (Set.mem_univ _) _

/-- After a page of the supervisor `mem_realloc` waits for the calendar that it has
itself. -/
theorem memReallocPath_supervisor
    (hgrows : ¬ oldpages > newpages)
    (h : SupervisorPage m pagetree vm oldpages.toNat) :
    ¬ Disciplined (memReallocPath m pagetree vm oldpages newpages s) := by
  rintro ⟨held, hhold, -⟩
  rw [memReallocPath, if_neg hgrows] at hhold
  dsimp only at hhold
  rw [deallocateVmPath_supervisor h, vmtreeFetchPath_eq, hold_andThen rfl] at hhold
  have hstuck : hold (Path.andThen ⟨[.take (.process pagetree)], true⟩
      (guarded (.process pagetree))).events [] = none := by
    rw [hold_andThen rfl, hold, if_neg List.not_mem_nil]
    exact if_pos List.mem_cons_self
  rw [hstuck] at hhold
  cases hhold

end Realloc

theorem Call.disciplined_of_safe
    {call : Call}
    (hsafe : call.Safe) :
    Disciplined call.path := by
  have hguarded : ∀ c, Disciplined (guarded c) :=
    fun c => disciplined_of_closed (guarded_closed (Set.mem_univ c))
  have hkingmem : Calendar.kingmem ∈ Set.univ := Set.mem_univ _
  cases call with
  | vmtreeFetch m pagetree pages_number pagetype =>
      rw [Call.path, vmtreeFetchPath_eq]
      exact hguarded _
  | deallocateVm m pagetree vm pages_number =>
      rw [Call.path, deallocateVmPath_safe hsafe]
      exact hguarded _
  | getFreePhys s => exact disciplined_of_closed (getFreePhysPath_closed hkingmem s)
  | getFreeIdentity s => exact disciplined_of_closed (getFreeIdentityPath_closed hkingmem s)
  | manipulatePhys action =>
      exact disciplined_of_closed (manipulatePhysPath_closed hkingmem action)
  | memAlloc m pagetree pagetype pages_number =>
      rw [Call.path, memAllocPath, vmtreeFetchPath_eq]
      exact hguarded _
  | memMap m pagetree pagetype pages_number =>
      rw [Call.path, memMapPath, vmtreeFetchPath_eq]
      exact hguarded _
  | memFree m pagetree vm pages_number =>
      rw [Call.path, memFreePath_safe hsafe]
      exact disciplined_of_closed ((guarded_closed (Set.mem_univ _)).andThen closed_ret)
  | memRealloc m pagetree vm oldpages newpages s => exact memReallocPath_safe hsafe
  | mount vfs files_number steps => exact mountPath_disciplined vfs files_number steps
  | reenactIo children entries steps => exact reenactIoPath_disciplined hsafe.1 hsafe.2

theorem Call.safe_of_disciplined
    {call : Call}
    (hreturned : call.path.returned = true)
    (h : Disciplined call.path) :
    call.Safe := by
  cases call with
  | deallocateVm m pagetree vm pages_number =>
      intro hsupervisor
      rw [Call.path, deallocateVmPath_supervisor hsupervisor] at h
      exact not_disciplined_take _ h
  | memFree m pagetree vm pages_number =>
      intro hsupervisor
      rw [Call.path, memFreePath_supervisor hsupervisor] at h
      exact not_disciplined_take _ h
  | memRealloc m pagetree vm oldpages newpages s =>
      by_contra hbroken
      obtain ⟨hgrows, hsupervisor⟩ := not_or.mp hbroken
      exact memReallocPath_supervisor hgrows (not_not.mp hsupervisor) h
  | reenactIo children entries steps => exact reenactIoPath_safe hreturned h
  | _ => trivial

/-- **A call that comes back keeps the lock discipline exactly when it is safe, and one
that does not come back keeps it when it is.** -/
theorem lock_discipline_iff (call : Call) :
    (call.path.returned = true → (Disciplined call.path ↔ call.Safe)) ∧
      (call.Safe → Disciplined call.path) :=
  ⟨fun hreturned => ⟨Call.safe_of_disciplined hreturned, Call.disciplined_of_safe⟩,
    Call.disciplined_of_safe⟩

/-- `mem_free` of a page in an empty tree. -/
theorem lock_discipline_iff_memFree :
    Disciplined (Call.memFree (fun _ => 0) 0x1000 0 1).path := by
  refine (lock_discipline_iff _).2 fun hsupervisor => ?_
  obtain ⟨-, i, hi, hbit⟩ := hsupervisor
  obtain rfl : i = 0 := by omega
  exact absurd hbit (by decide)

/-- A tree whose first entry has the bit of the supervisor. -/
def supervisorTree : WordMemory := fun a => if a = 0x1000 then 0x85 else 0

/-- `deallocate_vm` of the page at address 0 in it. -/
theorem supervisorTree_not_disciplined :
    ¬ Disciplined (Call.deallocateVm supervisorTree 0x1000 0 1).path := by
  have hpage : SupervisorPage supervisorTree 0x1000 0 1 := by
    refine ⟨?_, 0, by decide, ?_⟩ <;> decide
  rw [Call.path, deallocateVmPath_supervisor hpage]
  exact not_disciplined_take _

end Kontrol
end BestKernel
