import BestKernel.Kontrol.LockDiscipline
import BestKernel.Library.LockRuns

/-!
# Calls on several processors

Any number of processors, each with a program of calls, whose steps on calendars interleave
in any way.  The kernel takes calendars downwards: that of a pool, that of the pool of
pointers, and last that of the frames or of a process.

`calls_never_deadlock` says that calls that keep the discipline get along under any lock that
works (`Locks.Works`; `mutex` itself does not, as it never returns): no calendar is held twice,
and as long as something is left to do some processor can go on.  `kept_calendar_blocks` is the
other side.  A processor that has freed a page of the supervisor keeps the calendar of the
process for good, and nobody else ever gets it.

Readings of the source.  As for the discipline, a processor waits while a calendar is held.
A call finds the memory that is its argument.
-/

namespace BestKernel
namespace Kontrol

open Machine
open Mem
open Locks
open Runs

/-- The order in which calendars are taken, the last one first. -/
def Calendar.rank : Calendar → Nat
  | .process _ => 0
  | .kingmem => 0
  | .kptr => 1
  | .pool _ => 2
  | .device _ => 3
  | .driver _ => 3
  | .foreign _ => 3

/-- Code from outside takes calendars that come behind those of the pools, and in order. -/
def ForeignCode.InOrder (code : ForeignCode) : Prop :=
  Under Calendar.rank (Calendar.pool .vfs).rank code.path

def MountStep.InOrder : MountStep → Prop
  | .foreign code => code.InOrder
  | _ => True

def ReenactStep.InOrder : ReenactStep → Prop
  | .foreign code => code.InOrder
  | _ => True

/-- Code from outside that the call waits for keeps the order. -/
def Call.InOrder : Call → Prop
  | .mount _ _ steps => ∀ step, step ∈ steps → step.InOrder
  | .reenactIo _ _ steps => ∀ step, step ∈ steps → step.InOrder
  | _ => True

/-- The calls of a processor, one behind the other. -/
def programPath (calls : List Call) : Path Calendar := .all (calls.map Call.path)

/-- Every processor at the beginning of its program. -/
def start {Processor : Type} (program : Processor → List Call) :
    Processors Processor Calendar :=
  ⟨fun p => (programPath (program p)).events, fun _ => []⟩

section Order

variable {n : Nat}

theorem guarded_under
    {c : Calendar}
    (hc : c.rank < n) :
    Under Calendar.rank n (guarded c) :=
  under_ret.locked hc

theorem vmtreeFetchPath_under
    (m : WordMemory) (pagetree : Word) (pages_number pagetype : Nat)
    (hn : 0 < n) :
    Under Calendar.rank n (vmtreeFetchPath m pagetree pages_number pagetype) := by
  rw [vmtreeFetchPath_eq]
  exact guarded_under hn

theorem getFreePhysPath_under
    (s : Search)
    (hn : 0 < n) :
    Under Calendar.rank n (getFreePhysPath s) := by
  rw [getFreePhysPath]
  split
  · exact under_of_not_returned rfl
  · exact guarded_under hn

theorem getFreeIdentityPath_under
    (s : Search)
    (hn : 0 < n) :
    Under Calendar.rank n (getFreeIdentityPath s) := by
  rw [getFreeIdentityPath]
  split
  · exact under_of_not_returned rfl
  · exact guarded_under hn

theorem manipulatePhysPath_under
    (action : Action)
    (hn : 0 < n) :
    Under Calendar.rank n (manipulatePhysPath action) := by
  cases action with
  | SET => exact guarded_under hn
  | CLEAR => exact under_ret

theorem mallocPath_under
    (s : Search)
    (hn : 0 < n) :
    Under Calendar.rank n (mallocPath s) :=
  (getFreeIdentityPath_under s hn).andThen (manipulatePhysPath_under .SET hn)

theorem growthPath_under
    (growth : Option Search)
    (hn : 1 < n) :
    Under Calendar.rank n (growthPath growth) := by
  cases growth with
  | none => exact under_ret
  | some s => exact (mallocPath_under s (by decide)).locked hn

theorem memFreePath_under
    {m : WordMemory} {pagetree vm : Word} {pages_number : Nat}
    (hsafe : ¬ SupervisorPage m pagetree vm pages_number)
    (hn : 0 < n) :
    Under Calendar.rank n (memFreePath m pagetree vm pages_number) := by
  rw [memFreePath_safe hsafe]
  exact (guarded_under hn).andThen under_ret

theorem memReallocPath_under
    {m : WordMemory} {pagetree vm : Word} {oldpages newpages : Half} {s : Search}
    (hsafe : oldpages > newpages ∨ ¬ SupervisorPage m pagetree vm oldpages.toNat)
    (hn : 0 < n) :
    Under Calendar.rank n (memReallocPath m pagetree vm oldpages newpages s) := by
  rw [memReallocPath]
  split_ifs with hshrinks
  · exact under_ret
  · dsimp only
    rw [deallocateVmPath_safe (hsafe.resolve_left hshrinks)]
    refine ((guarded_under hn).andThen (vmtreeFetchPath_under _ _ _ _ hn)).andThen ?_
    split_ifs
    · exact under_ret
    · exact getFreePhysPath_under _ hn

theorem moduleCtlPath_under
    (driver : Word) (function methodsnum : Half) (m : WordMemory) (pagetree data : Word)
    (hn : 0 < n) :
    Under Calendar.rank n (moduleCtlPath driver function methodsnum m pagetree data) := by
  rcases moduleCtlPath_eq driver function methodsnum m pagetree data with h | h
  · rw [h]
    exact under_ret
  · rw [h]
    exact (guarded_under hn).andThen under_ret

theorem MountStep.path_under
    {step : MountStep}
    (horder : step.InOrder) :
    Under Calendar.rank (Calendar.pool .vfs).rank step.path := by
  cases step with
  | kptrAlloc => exact guarded_under (by decide)
  | malloc s => exact mallocPath_under s (by decide)
  | foreign code => exact horder

theorem mountPath_under
    (vfs : Hash) (files_number : Word) {steps : List MountStep}
    (horder : ∀ step, step ∈ steps → step.InOrder) :
    Under Calendar.rank 3 (mountPath vfs files_number steps) := by
  refine Under.locked ?_ (by decide)
  split
  · exact under_ret
  · refine under_all fun p hp => ?_
    obtain ⟨step, hstep, rfl⟩ := List.mem_map.mp hp
    exact MountStep.path_under (horder step hstep)

theorem ReenactStep.path_under
    {step : ReenactStep}
    (hsafe : step.Safe)
    (horder : step.InOrder) :
    Under Calendar.rank 3 step.path := by
  cases step with
  | memFree m pagetree vm pages_number => exact memFreePath_under hsafe (by decide)
  | poolAlloc pool growth =>
      have hrank : (Calendar.pool pool).rank = 2 := rfl
      refine Under.locked (growthPath_under growth ?_) ?_
      · rw [hrank]
        decide
      · rw [hrank]
        decide
  | hashAlloc growth => exact growthPath_under growth (by decide)
  | kptrAlloc => exact guarded_under (by decide)
  | malloc s => exact mallocPath_under s (by decide)
  | moduleCtl driver function methodsnum m pagetree data =>
      exact moduleCtlPath_under driver function methodsnum m pagetree data (by decide)
  | memMap m pagetree pagetype pages_number =>
      exact vmtreeFetchPath_under m pagetree pages_number pagetype (by decide)
  | foreign code => exact Under.mono horder (by decide)

/-- A call that keeps the discipline and comes back takes calendars in order. -/
theorem Call.path_under
    {call : Call}
    (hsafe : call.Safe)
    (horder : call.InOrder) :
    Under Calendar.rank 3 call.path := by
  cases call with
  | vmtreeFetch m pagetree pages_number pagetype =>
      exact vmtreeFetchPath_under m pagetree pages_number pagetype (by decide)
  | deallocateVm m pagetree vm pages_number =>
      rw [Call.path, deallocateVmPath_safe hsafe]
      exact guarded_under (Nat.succ_pos 2)
  | getFreePhys s => exact getFreePhysPath_under s (by decide)
  | getFreeIdentity s => exact getFreeIdentityPath_under s (by decide)
  | manipulatePhys action => exact manipulatePhysPath_under action (by decide)
  | memAlloc m pagetree pagetype pages_number =>
      exact vmtreeFetchPath_under m pagetree pages_number pagetype (by decide)
  | memMap m pagetree pagetype pages_number =>
      exact vmtreeFetchPath_under m pagetree pages_number pagetype (by decide)
  | memFree m pagetree vm pages_number => exact memFreePath_under hsafe (by decide)
  | memRealloc m pagetree vm oldpages newpages s =>
      exact memReallocPath_under hsafe (by decide)
  | mount vfs files_number steps => exact mountPath_under vfs files_number horder
  | reenactIo children entries steps =>
      obtain ⟨hlive, hsteps⟩ := hsafe
      rw [Call.path, reenactIoPath, hlive, List.map_nil, List.nil_append]
      refine under_all fun p hp => ?_
      obtain ⟨step, hstep, rfl⟩ := List.mem_map.mp hp
      exact ReenactStep.path_under (hsteps step hstep) (horder step hstep)

end Order

section Sticky

theorem getFreePhysPath_sticky (s : Search) : Sticky (getFreePhysPath s) := by
  rw [getFreePhysPath]
  split
  · exact sticky_take _ _
  · exact guarded_sticky _

theorem vmtreeFetchPath_sticky
    (m : WordMemory) (pagetree : Word) (pages_number pagetype : Nat) :
    Sticky (vmtreeFetchPath m pagetree pages_number pagetype) := by
  rw [vmtreeFetchPath_eq]
  exact guarded_sticky _

theorem memReallocPath_sticky
    (m : WordMemory) (pagetree vm : Word) (oldpages newpages : Half) (s : Search) :
    Sticky (memReallocPath m pagetree vm oldpages newpages s) := by
  rw [memReallocPath]
  split
  · exact sticky_ret
  · dsimp only
    refine (deallocateVmPath_sticky.andThen (vmtreeFetchPath_sticky _ _ _ _)).andThen ?_
    split
    · exact sticky_ret
    · exact getFreePhysPath_sticky _

theorem MountStep.path_sticky (step : MountStep) : Sticky step.path := by
  cases step with
  | kptrAlloc => exact guarded_sticky _
  | malloc s => exact mallocPath_sticky s
  | foreign code => exact code.sticky

theorem mountPath_sticky (vfs : Hash) (files_number : Word) (steps : List MountStep) :
    Sticky (mountPath vfs files_number steps) := by
  refine Sticky.locked ?_ _
  split
  · exact sticky_ret
  · refine sticky_all fun p hp => ?_
    obtain ⟨step, -, rfl⟩ := List.mem_map.mp hp
    exact step.path_sticky

theorem reenactIoPath_sticky
    (children : Hash) (entries : Nat → Word) (steps : List ReenactStep) :
    Sticky (reenactIoPath children entries steps) := by
  refine sticky_all fun p hp => ?_
  rcases List.mem_append.mp hp with hp | hp
  · obtain ⟨device, -, rfl⟩ := List.mem_map.mp hp
    exact sticky_take _ _
  · obtain ⟨step, -, rfl⟩ := List.mem_map.mp hp
    exact step.path_sticky

/-- No call clears a calendar that it has not taken. -/
theorem Call.path_sticky (call : Call) : Sticky call.path := by
  cases call with
  | vmtreeFetch m pagetree pages_number pagetype => exact vmtreeFetchPath_sticky _ _ _ _
  | deallocateVm m pagetree vm pages_number => exact deallocateVmPath_sticky
  | getFreePhys s => exact getFreePhysPath_sticky s
  | getFreeIdentity s => exact getFreeIdentityPath_sticky s
  | manipulatePhys action => exact manipulatePhysPath_sticky action
  | memAlloc m pagetree pagetype pages_number => exact vmtreeFetchPath_sticky _ _ _ _
  | memMap m pagetree pagetype pages_number => exact vmtreeFetchPath_sticky _ _ _ _
  | memFree m pagetree vm pages_number => exact memFreePath_sticky
  | memRealloc m pagetree vm oldpages newpages s => exact memReallocPath_sticky _ _ _ _ _ _
  | mount vfs files_number steps => exact mountPath_sticky vfs files_number steps
  | reenactIo children entries steps => exact reenactIoPath_sticky children entries steps

end Sticky

section Processors

variable {Processor : Type} {program : Processor → List Call}
  {run : List (Processor × Processors Processor Calendar)}

theorem start_exclusive : Exclusive (start program) :=
  fun _ _ _ hc => absurd hc List.not_mem_nil

theorem start_inOrder
    (hreturned : ∀ p, (programPath (program p)).returned = true)
    (hcalls : ∀ p call, call ∈ program p → call.Safe ∧ call.InOrder) :
    Locks.InOrder Calendar.rank (start program) := by
  intro p
  have hunder : Under Calendar.rank 3 (programPath (program p)) := by
    refine under_all fun q hq => ?_
    obtain ⟨call, hcall, rfl⟩ := List.mem_map.mp hq
    exact Call.path_under (hcalls p call hcall).1 (hcalls p call hcall).2
  have hall := hunder (hreturned p) [] [] (fun d hd => absurd hd List.not_mem_nil) rfl
  rwa [List.append_nil] at hall

/-- **Calls that keep the discipline never deadlock under a lock that works.**  No calendar is
held by two processors, as long as something is left to do somebody can go on, and every
interleaving ends. -/
theorem calls_never_deadlock
    [Fintype Processor] [DecidableEq Processor]
    {grants : Processors Processor Calendar → Processor → Calendar → Prop}
    (hworks : Works grants)
    (hreturned : ∀ p, (programPath (program p)).returned = true)
    (hcalls : ∀ p call, call ∈ program p → call.Safe ∧ call.InOrder)
    (hrun : Run (AdvanceBy grants) (start program) run) :
    Always (fun t => Exclusive t ∧ (Done t ∨ ∃ p t', AdvanceBy grants t p t'))
        (start program) run ∧
      run.length ≤ left (start program) :=
  hworks.always_progress hrun (start_inOrder hreturned hcalls) start_exclusive

/-- Two processors that allocate in the same process. -/
def twoAllocations : Bool → List Call :=
  fun _ => [.memAlloc (fun _ => 0) 0x1000 Pag.SMALLPAGE 1]

theorem programPath_twoAllocations (p : Bool) :
    programPath (twoAllocations p) = guarded (.process 0x1000) := by
  have hpath : (Call.memAlloc (fun _ => 0) 0x1000 Pag.SMALLPAGE 1).path =
      guarded (.process 0x1000) := by
    rw [Call.path, memAllocPath, vmtreeFetchPath_eq]
  rw [twoAllocations, programPath, List.map_singleton, hpath]
  rfl

/-- A lock that lets everybody through to what is free. -/
def freeForAll (s : Processors Bool Calendar) (_ : Bool) (c : Calendar) : Prop :=
  ∀ q, c ∉ s.held q

theorem freeForAll_works : Works freeForAll where
  alone _ _ _ h := h
  serves _ p _ es hnext hfree := ⟨p, es, hnext, hfree⟩

/-- The first of them takes the calendar. -/
theorem calls_never_deadlock_twoAllocations :
    ∃ t, AdvanceBy freeForAll (start twoAllocations) true t ∧
      Always (fun t => Exclusive t ∧ (Done t ∨ ∃ p t', AdvanceBy freeForAll t p t'))
        (start twoAllocations) [(true, t)] := by
  have hnext : (start twoAllocations).todo true =
      [.take (.process 0x1000), .clear (.process 0x1000)] :=
    congrArg Path.events (programPath_twoAllocations true)
  have hfirst : AdvanceBy freeForAll (start twoAllocations) true _ :=
    .take hnext fun _ => List.not_mem_nil
  refine ⟨_, hfirst, ?_⟩
  refine (calls_never_deadlock freeForAll_works (fun p => ?_) (fun p call hcall => ?_)
    (.cons hfirst (.nil _))).1
  · rw [programPath_twoAllocations]
    rfl
  · rw [List.mem_singleton.mp hcall]
    exact ⟨trivial, trivial⟩

/-- **A page of the supervisor that was freed blocks its process.**  When the processor that
has freed it is done, it holds the calendar, and nobody else ever does again. -/
theorem kept_calendar_blocks
    [DecidableEq Processor]
    {p : Processor} {m : WordMemory} {pagetree vm : Word} {pages_number : Nat}
    (hreturned : (programPath (program p)).returned = true)
    (hcall : Call.memFree m pagetree vm pages_number ∈ program p)
    (hpage : SupervisorPage m pagetree vm pages_number)
    (hrun : Run Advance (start program) run) :
    Always (fun t => t.todo p = [] → Calendar.process pagetree ∈ t.held p ∧
      ∀ q, q ≠ p → Calendar.process pagetree ∉ t.held q) (start program) run := by
  have hexclusive : Always Exclusive (start program) run :=
    always_of_preserved (fun _ _ _ ht hstep => ht.advance hstep) hrun start_exclusive
  have hhold := always_hold hrun p
  have hsticky : ∀ q, q ∈ (program p).map Call.path → Sticky q := by
    intro q hq
    obtain ⟨call, -, rfl⟩ := List.mem_map.mp hq
    exact call.path_sticky
  have hleaves : ∀ held held',
      hold (Call.memFree m pagetree vm pages_number).path.events held = some held' →
        Calendar.process pagetree ∈ held' := by
    intro held held' h
    rw [Call.path, memFreePath_supervisor hpage] at h
    exact mem_of_hold_take h
  have hboth : Always (fun t => Exclusive t ∧
      hold (t.todo p) (t.held p) = hold ((start program).todo p) ((start program).held p))
      (start program) run :=
    ⟨⟨hexclusive.1, hhold.1⟩, fun x hx => ⟨hexclusive.2 x hx, hhold.2 x hx⟩⟩
  refine hboth.mono fun t ht hdone => ?_
  have hsame := ht.2
  rw [hdone, hold] at hsame
  have hheld : Calendar.process pagetree ∈ t.held p :=
    mem_hold_all hsticky (List.mem_map_of_mem hcall) hleaves hreturned hsame.symm
  exact ⟨hheld, fun q hq hother => hq (ht.1 q p _ hother hheld)⟩

/-- One of two processors frees the page at address 0, which is the supervisor's. -/
def freeAndAllocate : Bool → List Call
  | true => [.memFree supervisorTree 0x1000 0 1]
  | false => [.memAlloc (fun _ => 0) 0x1000 Pag.SMALLPAGE 1]

theorem supervisorPage_supervisorTree : SupervisorPage supervisorTree 0x1000 0 1 := by
  refine ⟨?_, 0, by decide, ?_⟩
  · decide
  · decide

theorem programPath_freeAndAllocate :
    programPath (freeAndAllocate true) = ⟨[.take (.process 0x1000)], true⟩ := by
  have hpath : (Call.memFree supervisorTree 0x1000 0 1).path =
      ⟨[.take (.process 0x1000)], true⟩ := memFreePath_supervisor supervisorPage_supervisorTree
  rw [freeAndAllocate, programPath, List.map_singleton, hpath]
  rfl

theorem kept_calendar_blocks_freeAndAllocate :
    ∃ t, Advance (start freeAndAllocate) true t ∧
      Always (fun t => t.todo true = [] → Calendar.process 0x1000 ∈ t.held true ∧
        ∀ q, q ≠ true → Calendar.process 0x1000 ∉ t.held q) (start freeAndAllocate)
        [(true, t)] := by
  have hnext : (start freeAndAllocate).todo true = [.take (.process 0x1000)] :=
    congrArg Path.events programPath_freeAndAllocate
  have hfirst := Advance.take hnext fun _ => List.not_mem_nil
  refine ⟨_, hfirst, ?_⟩
  refine kept_calendar_blocks ?_ (List.mem_singleton.mpr rfl) supervisorPage_supervisorTree
    (.cons hfirst (.nil _))
  rw [programPath_freeAndAllocate]

end Processors

end Kontrol
end BestKernel
