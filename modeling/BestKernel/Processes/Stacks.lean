import BestKernel.Mem.EntryMode
import BestKernel.Processes.Exhaustion

/-!
# Stacks

`make_stack` should map the pages of a stack above a guard page, and leave the top of the
stack in the thread.  The pages of a region have consecutive entries, as everywhere else.
The pointer of `make_stack` is one to words, so it goes up and down by eight entries for
every page, and the address of the entry it starts from is not that of the top:
`entryto_vm` keeps less than a page of it (`entrytoVm_stackEntry_lt`).

So no stack is ever what it should be (`stack_never_mapped`), whatever the region, the size
and the thread.  `thread` would then replace the pointer by the base of the stack, which
makes it fail (`finishThread_pointer`).

Readings of the source.  A call succeeds that gets past the test of `make_stack`; the null
pointer, which is all that the search returns, does.
-/

namespace BestKernel
namespace Processes

open Machine
open Kontrol
open Mem

namespace Kernel

variable (k : Config)

/-- What `thread` does before it makes a stack: the clone and its slot. -/
def cloneThread (s : Kernel) (calling_thread : Nat) : Word × Nat × Kernel :=
  let (found, ktrd) := s.ktrd.alloc 1 0
  let newfag := slotIn s.ktrd found
  let s := { s with ktrd := ktrd }.modifyThread newfag fun t => { t with taken := 255 }
  let s := s.conditionalBloodLibel (found.getD 0 = 0)
  (found.getD 0, newfag, s.modifyThread newfag fun _ => s.threads calling_thread)

/-- What it does with the stack. -/
def finishThread (s : Kernel) (father : Nat) (found : Word) (newfag : Nat) (term : Word) :
    Nat × Bool × Kernel :=
  if term = 0 then
    let (ktrd, bytes) := s.ktrd.free s.bytes found 1
    (0, false, { s with ktrd := ktrd, bytes := bytes }.modifyThread newfag fun _ => zeroThread)
  else
    let (segment, ldt) := (s.processes father).ldt.hash.alloc 1 0
    let s := s.modifyProcess father fun p => { p with ldt := { p.ldt with hash := ldt } }
    (newfag / k.sizeofThread, true,
      s.modifyThread newfag fun t =>
        { t with stack_pointer := term, ds := 4, fs := segment.getD 0, taken := 0 })

/-- `thread` makes the stack of the clone in between. -/
theorem thread_eq (s : Kernel) (calling_thread : Nat) :
    s.thread k calling_thread =
      let (found, newfag, clone) := s.cloneThread calling_thread
      let father := (clone.threads calling_thread).parent
      (clone.makeStack k father newfag).map fun (term, s') =>
        s'.finishThread k father found newfag term := by
  unfold thread cloneThread finishThread
  dsimp only
  rw [Option.map_eq_bind, Option.bind_eq_bind]
  congr 1
  funext r
  dsimp only [Function.comp_apply]
  split_ifs <;> rfl

/-- `thread` puts the base of the stack in the place of its pointer, or gives the thread
up. -/
theorem finishThread_pointer
    (s : Kernel) (father : Nat) (found : Word) (newfag : Nat) (term : Word) :
    ((s.finishThread k father found newfag term).2.2.threads newfag).stack_pointer = term := by
  unfold finishThread modifyThread
  split_ifs with hterm
  · dsimp only
    rw [hterm, Function.update_self]
    rfl
  · dsimp only
    rw [Function.update_self]

end Kernel

section Specification

variable (k : Config) (process thread : Nat) (s : Kernel) (ret : Word) (s' : Kernel)

/-- The entry of page `i` of the region. -/
def regionEntry (i : Nat) : Word :=
  wordAt (entryOf ret s.words (s.processes process).pagetree) i

/-- The frame that an entry points at, as `deallocate_vm` reads it. -/
def frameOf (entry : Word) : Word := shr (entry <<< 5) 18

/-- The frames of the page that an entry points at. -/
def entryFrames (entry : Word) : Set Nat := pageFrames (frameOf entry) 1 Pag.SMALLPAGE

/-- The address above a region of the stack and its guard. -/
def stackTop : Word := ret + BitVec.ofNat 64 ((stackPages k s thread + 1) * 4096)

/-- What a stack from `ret` on should be: page 0 is the guard. -/
structure StackMapped : Prop where
  guard : layoutMode (s'.words (regionEntry process s ret 0)) = Mode.SEGFAULT.code.setWidth 64
  pages : ∀ i, 0 < i → i ≤ stackPages k s thread →
    let entry := s'.words (regionEntry process s ret i)
    bitSet entry 0 = true ∧ bitSet entry 63 = false ∧
      Disjoint (entryFrames entry) (usedFrames s.table) ∧ entryFrames entry ⊆ usedFrames s'.table
  distinct : ∀ i j, 0 < i → i < j → j ≤ stackPages k s thread →
    Disjoint (entryFrames (s'.words (regionEntry process s ret i)))
      (entryFrames (s'.words (regionEntry process s ret j)))
  pointer : (s'.threads thread).stack_pointer = stackTop k thread s ret
  returned : ∀ found,
    ((s'.finishThread k process found thread ret).2.2.threads thread).stack_pointer =
      stackTop k thread s ret
  rest : ∀ a, (∀ i, i ≤ stackPages k s thread → a ≠ regionEntry process s ret i) →
    setBit (s'.words a) 56 = setBit (s.words a) 56

end Specification

section Stacks

variable {k : Config} {s s' : Kernel} {process thread : Nat} {ret : Word}

/-- The pointer that `make_stack` leaves. -/
theorem makeStack_pointer
    (h : s.makeStack k process thread = some (ret, s')) :
    ret = 0 ∧ (s'.threads thread).stack_pointer =
      entrytoVm (s.processes process).pagetree
        (stackEntry (s.processes process).pagetree (stackPages k s thread)) := by
  have hmade := makeStack_eq (k := k) (s := s) k.fuel process thread
  rw [h] at hmade
  obtain ⟨⟨s₁, entry⟩, hloop, hreturned⟩ := Option.map_eq_some_iff.mp hmade.symm
  obtain ⟨rfl, rfl⟩ := Prod.mk.inj hreturned
  refine ⟨rfl, ?_⟩
  have hthreads := (stackLoop_kept hloop).2
  dsimp only
  rw [hthreads, stackBase, Kernel.modifyThread]
  dsimp only
  rw [Function.update_self]

/-- The address of an entry so close to the root is less than a page. -/
theorem entrytoVm_stackEntry_lt
    (pagetree : Word) {n : Nat}
    (hn : n < 256) :
    (entrytoVm pagetree (stackEntry pagetree n)).toNat < 4096 := by
  have hdistance : stackEntry pagetree n - pagetree = BitVec.ofNat 64 (64 * (n + 1)) := by
    rw [stackEntry, wordAt, BitVec.add_comm, BitVec.add_sub_cancel]
    congr 1
    omega
  have hall : ∀ n, n < 256 → (entrytoVmLoop Pag.SMALLPAGE
      ((BitVec.ofNat 64 (64 * (n + 1))).setWidth 32) 0).toNat < 4096 := by
    decide +kernel
  rw [entrytoVm, hdistance]
  exact hall n hn

/-- **The pointer is never the top of the stack.** -/
theorem stackPointer_ne
    (h : s.makeStack k process thread = some (ret, s')) :
    (s'.threads thread).stack_pointer ≠ stackTop k thread s ret := by
  obtain ⟨rfl, hpointer⟩ := makeStack_pointer h
  have hpages : stackPages k s thread < 256 := BitVec.isLt _
  have hlt := entrytoVm_stackEntry_lt (s.processes process).pagetree hpages
  intro htop
  rw [← hpointer, htop, stackTop, BitVec.toNat_add, BitVec.toNat_ofNat] at hlt
  change (0 + (stackPages k s thread + 1) * 4096 % 2 ^ 64) % 2 ^ 64 < 4096 at hlt
  omega

/-- **No stack is mapped as it should be.** -/
theorem stack_never_mapped
    (h : s.makeStack k process thread = some (ret, s')) :
    ¬ StackMapped k process thread s ret s' :=
  fun hmapped => stackPointer_ne h hmapped.pointer

theorem stackLoop_one
    {pipe : Word} {s₁ : Kernel}
    (h : s.malloc k 1 = some (pipe, s₁))
    (entry : Word) :
    ∃ s', Kernel.stackLoop k 1 s entry = some (s', entry - 64) := by
  rw [Kernel.stackLoop, h]
  exact ⟨_, rfl⟩

/-- A build whose executables need a stack of one page. -/
def stackConfig : Config :=
  { idleConfig with headerAt := fun _ => ⟨0, 0, 1, 2, 0, 0, fun _ => 0, 3⟩ }

/-- It gets its frame. -/
theorem makeStack_stackConfig :
    ∃ s', idleKernel.makeStack stackConfig 3 3 = some (0, s') := by
  have hclear : ∀ i, i ≤ (4096 * 1 : Half).toNat / 16 →
      (stackBase stackConfig idleKernel 3 3).table i = 0 := fun _ _ => rfl
  obtain ⟨pipe, s₁, -, hmalloc, -, -⟩ :=
    malloc_fed (k := stackConfig) (n := 1) hclear (by decide) (by decide)
  obtain ⟨s', hloop⟩ := stackLoop_one hmalloc (stackEntry 0 1)
  have hmade := makeStack_eq (k := stackConfig) (s := idleKernel) stackConfig.fuel 3 3
  rw [show stackPages stackConfig idleKernel 3 = 1 from rfl] at hmade
  change idleKernel.makeStack stackConfig 3 3 = Option.map _ (Kernel.stackLoop stackConfig 1
    (stackBase stackConfig idleKernel 3 3) (stackEntry 0 1)) at hmade
  rw [hloop, Option.map_some] at hmade
  exact ⟨_, hmade⟩

theorem stack_never_mapped_stackConfig :
    ∃ s', idleKernel.makeStack stackConfig 3 3 = some (0, s') ∧
      ¬ StackMapped stackConfig 3 3 idleKernel 0 s' := by
  obtain ⟨s', hmade⟩ := makeStack_stackConfig
  exact ⟨s', hmade, stack_never_mapped hmade⟩

/-- Its pointer is at address 0 instead of 8192. -/
theorem stackConfig_not_mapped :
    ∃ s', idleKernel.makeStack stackConfig 3 3 = some (0, s') ∧
      (s'.threads 3).stack_pointer = 0 ∧ stackTop stackConfig 3 idleKernel 0 = 8192 ∧
      ¬ StackMapped stackConfig 3 3 idleKernel 0 s' := by
  obtain ⟨s', hmade⟩ := makeStack_stackConfig
  have hpointer := (makeStack_pointer hmade).2
  have hne := stackPointer_ne hmade
  refine ⟨s', hmade, hpointer.trans (by decide), by decide, ?_⟩
  exact fun hmapped => hne hmapped.pointer

end Stacks

end Processes
end BestKernel
