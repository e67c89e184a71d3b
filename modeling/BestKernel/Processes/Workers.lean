import BestKernel.Library.Roster
import BestKernel.Library.Runs
import BestKernel.Processes.Teardown

/-!
# The lists of threads

A process lists its threads in `workers`, and `getnext_thread` ends a process when the
count of the list is 0.  Here the live processes and threads are kept beside the kernel,
over runs of `exec`, `thread`, `TKILL` and the kill branch of `getnext_thread`, and the
lists are compared with them.

`exec` lists its thread but never tells the thread its parent, and it takes the words for
its lists from a pool that marks nothing.  `TKILL` goes by a `double_link` that nothing
sets.  `workers_exact_iff` says which runs keep the lists exact.  `thread` never makes a
thread (`thread_spec`), and the kill branch, which asks for `SIGKILL` with a mask of 0, is
never taken (`killBranch_eq`).

Readings of the source.  The thread that the kill branch ends is the one it examines.  A
list has no marks for its slots, as `exec` leaves its `ckarray` null; the slots in use are
kept beside it: the first one for a process that `exec` makes, less those that `TKILL` frees.
-/

namespace BestKernel
namespace Processes

open Machine
open Kontrol

namespace Kernel

variable (k : Config)

/-- `tking->pool[i]->parent->sigset & SIGKILL`. -/
def killed (s : Kernel) (i : Nat) : Bool :=
  (s.processes (s.threads i).parent).sigset &&& Sched.Signals.SIGKILL != 0

/-- The kill branch of `getnext_thread` for slot `i`: the process that `PKILL` is called
for, and the kernel. -/
def killBranch (s : Kernel) (i : Nat) : Option Nat × Kernel :=
  if s.killed i then
    let s := s.tkill k i
    let parent := (s.threads i).parent
    if (s.processes parent).workers.count = 0 then (some parent, s.pkill k parent)
    else (none, s)
  else (none, s)

end Kernel

/-- The kernel, the processes and threads that live in it, the slots that the list of a
process uses, and the processes that `PKILL` has freed. -/
structure WorkState where
  kernel : Kernel
  processes : Set Nat
  threads : Set Nat
  used : Nat → Set Nat
  freed : Set Nat

/-- The calls: `exec`, `thread`, `TKILL`, and the kill branch for a slot. -/
inductive WorkOp where
  | exec (calling_thread source : Nat)
  | thread (calling_thread : Nat)
  | tkill (t : Nat)
  | getnext (i : Nat)

namespace WorkState

/-- The live threads whose parent is `q`. -/
def children (s : WorkState) (q : Nat) : Set Nat :=
  {t | t ∈ s.threads ∧ (s.kernel.threads t).parent = q}

/-- `workers->pool[i]` of the process `q`. -/
def entry (s : WorkState) (q i : Nat) : Pointer :=
  s.kernel.pointers (wordAt (s.kernel.processes q).workers.pool i)

/-- The slots of the list of `q` that lie in the section that `TKILL` of `t` frees. -/
def freedSlots (s : WorkState) (t q : Nat) : Set Nat :=
  {i | (wordAt (s.kernel.processes q).workers.pool i - (s.kernel.threads t).double_link).toNat <
    (s.kernel.processes (s.kernel.threads t).parent).workers.stride.toNat}

/-- Book the process and the thread of an `exec`; a null pointer is neither. -/
def launched (s : WorkState) (process main_thread : Nat) (kernel : Kernel) : WorkState where
  kernel := kernel
  processes := s.processes ∪ {q | q = process ∧ q ≠ nullSlot}
  threads := s.threads ∪ {t | t = main_thread ∧ t ≠ nullSlot}
  used := Function.update s.used process {0}
  freed := s.freed \ {process}

/-- Book a thread that is no more. -/
def ended (s : WorkState) (t : Nat) (kernel : Kernel) : WorkState :=
  { s with kernel := kernel, threads := s.threads \ {t} }

/-- Book a `TKILL`. -/
def tkilled (s : WorkState) (t : Nat) (kernel : Kernel) : WorkState :=
  let parent := (s.kernel.threads t).parent
  { s.ended t kernel with
    used := Function.update s.used parent (s.used parent \ s.freedSlots t parent) }

end WorkState

section Steps

variable (k : Config)

/-- A call that returns.  A `thread` that fails frees the slot it took. -/
def WorkStep (s : WorkState) (op : WorkOp) (s' : WorkState) : Prop :=
  match op with
  | .exec calling_thread source =>
      ∃ ret made kernel, s.kernel.exec k calling_thread source = some (ret, made, kernel) ∧
        s' = match made with
          | none => { s with kernel := kernel }
          | some main_thread => s.launched ret.toNat main_thread kernel
  | .thread calling_thread =>
      ∃ newfag made kernel, s.kernel.thread k calling_thread = some (newfag, made, kernel) ∧
        s' = if made then
            { s with
              kernel := kernel
              threads := s.threads ∪ {t | t = nextThread s.kernel ∧ t ≠ nullSlot} }
          else s.ended (nextThread s.kernel) kernel
  | .tkill t => s' = s.tkilled t (s.kernel.tkill k t)
  | .getnext i =>
      let after := s.kernel.killBranch k i
      s' = { (if s.kernel.killed i then s.tkilled i after.2 else s) with
        kernel := after.2
        processes := s.processes \ {q | after.1 = some q}
        freed := s.freed ∪ {q | after.1 = some q} }

/-- Every live process lists its live threads, each once, and counts them. -/
def WorkersExact (s : WorkState) : Prop :=
  ∀ q, q ∈ s.processes →
    Roster.Exact (s.entry q) (s.used q) (s.kernel.processes q).workers.count.toNat
      (Pointer.thread '' s.children q)

/-- The kill branch examines no live thread whose parent has been freed, and `PKILL` is
called for a process without live threads. -/
def KillsRightly (s : WorkState) (op : WorkOp) (s' : WorkState) : Prop :=
  match op with
  | .getnext i =>
      (i ∈ s.threads → (s.kernel.threads i).parent ∉ s.freed) ∧
        ∀ q, (s.kernel.killBranch k i).1 = some q →
          ∀ t, t ∈ s'.threads → (s.kernel.threads t).parent ≠ q
  | _ => True

/-- What an `exec` that makes a process must find.  If there is a process slot: the words
of the two lists are apart, the slot for the thread already names the process as its
parent, and no other live thread does.  No word of the list of another live process is
written over, and none of these gains a thread. -/
structure ExecSafe (s : WorkState) : Prop where
  listed : nextProcess s.kernel ≠ nullSlot →
    launchedPointers s.kernel (nextWorkers s.kernel) = .thread (nextThread s.kernel)
  parent : nextProcess s.kernel ≠ nullSlot →
    (s.kernel.threads (nextThread s.kernel)).parent = nextProcess s.kernel
  alone : nextProcess s.kernel ≠ nullSlot →
    ∀ t, t ∈ s.children (nextProcess s.kernel) → t = nextThread s.kernel
  others : ∀ q, q ∈ s.processes → q ≠ nextProcess s.kernel → ∀ i, i ∈ s.used q →
    launchedPointers s.kernel (wordAt (s.kernel.processes q).workers.pool i) = s.entry q i
  strangers : nextThread s.kernel ≠ nullSlot →
    (s.kernel.threads (nextThread s.kernel)).parent ≠ nextProcess s.kernel →
    (s.kernel.threads (nextThread s.kernel)).parent ∈ s.processes →
    nextThread s.kernel ∈ s.threads

/-- What a call must find for the lists to stay exact. -/
def WorkSafe (s : WorkState) (op : WorkOp) : Prop :=
  match op with
  | .exec calling_thread source => s.kernel.Refuses k calling_thread source ∨ ExecSafe s
  | .thread _ =>
      nextThread s.kernel ∈ s.threads →
        (s.kernel.threads (nextThread s.kernel)).parent ∉ s.processes
  | .tkill t =>
      ((s.kernel.threads t).parent ∈ s.processes → t ∈ s.threads) ∧
        ∀ q, q ∈ s.processes → ∀ i, i ∈ s.used q →
          (i ∈ s.freedSlots t q ↔ s.entry q i = .thread t)
  | .getnext _ => True

/-- Live processes are slots, and none has been freed by the kill branch. -/
structure Placed (s : WorkState) : Prop where
  process : nullSlot ∉ s.processes
  freed : s.freed = ∅

end Steps

section Children

variable {s : WorkState} {kernel : Kernel} {p t q : Nat}

theorem children_launched
    (hparent : ∀ u, (kernel.threads u).parent = (s.kernel.threads u).parent) :
    (s.launched p t kernel).children q =
      s.children q ∪ {u | u = t ∧ u ≠ nullSlot ∧ (s.kernel.threads u).parent = q} := by
  ext u
  constructor
  · rintro ⟨hlive | ⟨hu, hne⟩, hq⟩
    · exact Or.inl ⟨hlive, (hparent u).symm.trans hq⟩
    · exact Or.inr ⟨hu, hne, (hparent u).symm.trans hq⟩
  · rintro (⟨hlive, hq⟩ | ⟨hu, hne, hq⟩)
    · exact ⟨Or.inl hlive, (hparent u).trans hq⟩
    · exact ⟨Or.inr ⟨hu, hne⟩, (hparent u).trans hq⟩

theorem children_ended
    (hother : ∀ u, u ≠ t → kernel.threads u = s.kernel.threads u) :
    (s.ended t kernel).children q = s.children q \ {t} := by
  ext u
  constructor
  · rintro ⟨⟨hlive, hu⟩, hq⟩
    rw [WorkState.ended, hother u hu] at hq
    exact ⟨⟨hlive, hq⟩, hu⟩
  · rintro ⟨⟨hlive, hq⟩, hu⟩
    refine ⟨⟨hlive, hu⟩, ?_⟩
    rw [WorkState.ended, hother u hu]
    exact hq

theorem threads_injective : Function.Injective Pointer.thread :=
  fun _ _ h => Pointer.thread.inj h

theorem thread_mem_image_iff
    {S : Set Nat} :
    Pointer.thread t ∈ Pointer.thread '' S ↔ t ∈ S :=
  threads_injective.mem_set_image

theorem image_sdiff_thread
    (S : Set Nat) (t : Nat) :
    Pointer.thread '' (S \ {t}) = Pointer.thread '' S \ {.thread t} := by
  rw [Set.image_sdiff threads_injective, Set.image_singleton]

end Children

section Launch

variable {s : WorkState} {kernel : Kernel} {q : Nat}

theorem Taken.parents
    {s s' : Kernel}
    (h : Taken s s')
    (u : Nat) :
    (s'.threads u).parent = (s.threads u).parent := by
  by_cases hu : u = nextThread s
  · rw [hu, h.parent]
  · rw [h.threads u hu]

/-- Live processes stay slots. -/
theorem Placed.launched
    (h : Placed s)
    (p t : Nat) (kernel : Kernel) :
    Placed (s.launched p t kernel) where
  process := by
    rintro (hlive | ⟨-, hne⟩)
    · exact h.process hlive
    · exact hne rfl
  freed := by
    rw [WorkState.launched, h.freed, Set.empty_sdiff]

/-- A word after an `exec`: as it was, or the pointer to the thread, or to no thread. -/
theorem launchedPointers_cases
    (s : Kernel) (a : Word) :
    launchedPointers s a = s.pointers a ∨
      launchedPointers s a = threadPointer (nextThread s) ∨
      ∃ d, launchedPointers s a = descriptorPointer d := by
  unfold launchedPointers
  rw [Function.update_apply, Function.update_apply, Function.update_apply]
  split_ifs
  · exact Or.inr (Or.inr ⟨_, rfl⟩)
  · exact Or.inr (Or.inr ⟨_, rfl⟩)
  · exact Or.inr (Or.inl rfl)
  · exact Or.inl rfl

/-- A pointer to a descriptor, null or not, is none to a thread. -/
theorem descriptorPointer_ne_thread
    (d t : Nat) :
    descriptorPointer d ≠ .thread t := by
  unfold descriptorPointer
  split_ifs <;> exact Pointer.noConfusion

/-- A thread in the first word of the new list is the new one. -/
theorem launchedPointers_eq_thread
    {s : Kernel} {t : Nat}
    (h : launchedPointers s (nextWorkers s) = .thread t) :
    t = nextThread s ∧ t ≠ nullSlot := by
  unfold launchedPointers at h
  rw [Function.update_apply, Function.update_apply, Function.update_self] at h
  split_ifs at h
  · exact absurd h (descriptorPointer_ne_thread _ t)
  · exact absurd h (descriptorPointer_ne_thread _ t)
  · unfold threadPointer at h
    split_ifs at h with hnull
    obtain rfl := threads_injective h
    exact ⟨rfl, hnull⟩

/-- The list of a process that was not made. -/
theorem launched_other_iff
    (hexact : WorkersExact s)
    (h : Taken s.kernel kernel)
    (hq : q ∈ s.processes)
    (hne : q ≠ nextProcess s.kernel) :
    Roster.Exact ((s.launched (nextProcess s.kernel) (nextThread s.kernel) kernel).entry q)
        ((s.launched (nextProcess s.kernel) (nextThread s.kernel) kernel).used q)
        (kernel.processes q).workers.count.toNat
        (Pointer.thread ''
          (s.launched (nextProcess s.kernel) (nextThread s.kernel) kernel).children q) ↔
      (nextThread s.kernel ≠ nullSlot → (s.kernel.threads (nextThread s.kernel)).parent = q →
        nextThread s.kernel ∈ s.threads) ∧
      ∀ i, i ∈ s.used q →
        launchedPointers s.kernel (wordAt (s.kernel.processes q).workers.pool i) = s.entry q i := by
  have hentry : (s.launched (nextProcess s.kernel) (nextThread s.kernel) kernel).entry q =
      fun i => launchedPointers s.kernel (wordAt (s.kernel.processes q).workers.pool i) := by
    funext i
    change kernel.pointers (wordAt (kernel.processes q).workers.pool i) = _
    rw [h.processes q hne, h.pointers]
  have hused : (s.launched (nextProcess s.kernel) (nextThread s.kernel) kernel).used q =
      s.used q :=
    Function.update_of_ne hne _ _
  have hchildren := children_launched (p := nextProcess s.kernel) (t := nextThread s.kernel)
    (q := q) h.parents
  have hvalue : ∀ i, i ∈ s.used q →
      launchedPointers s.kernel (wordAt (s.kernel.processes q).workers.pool i) = s.entry q i ∨
      launchedPointers s.kernel (wordAt (s.kernel.processes q).workers.pool i) =
        threadPointer (nextThread s.kernel) ∨
      launchedPointers s.kernel (wordAt (s.kernel.processes q).workers.pool i) ∉
        Pointer.thread ''
          (s.launched (nextProcess s.kernel) (nextThread s.kernel) kernel).children q := by
    intro i _
    obtain hkept | hthread | ⟨d, hd⟩ := launchedPointers_cases s.kernel
      (wordAt (s.kernel.processes q).workers.pool i)
    · exact Or.inl hkept
    · exact Or.inr (Or.inl hthread)
    · refine Or.inr (Or.inr ?_)
      rintro ⟨t, -, ht⟩
      exact descriptorPointer_ne_thread d t (hd.symm.trans ht.symm)
  have hsub : Pointer.thread '' s.children q ⊆ Pointer.thread ''
      (s.launched (nextProcess s.kernel) (nextThread s.kernel) kernel).children q := by
    rw [hchildren]
    exact Set.image_mono Set.subset_union_left
  rw [hentry, hused, h.processes q hne, (hexact q hq).overwrite_iff hsub hvalue,
    Set.image_eq_image threads_injective, hchildren, Set.union_eq_left]
  refine and_congr_left fun _ => ⟨fun hcome hnull hparent => ?_, ?_⟩
  · exact (hcome ⟨rfl, hnull, hparent⟩).1
  · rintro hlive u ⟨rfl, hnull, hparent⟩
    exact ⟨hlive hnull hparent, hparent⟩

/-- The list of the process that was made. -/
theorem launched_self_iff
    (h : Taken s.kernel kernel) :
    Roster.Exact
        ((s.launched (nextProcess s.kernel) (nextThread s.kernel) kernel).entry
          (nextProcess s.kernel))
        ((s.launched (nextProcess s.kernel) (nextThread s.kernel) kernel).used
          (nextProcess s.kernel))
        (kernel.processes (nextProcess s.kernel)).workers.count.toNat
        (Pointer.thread ''
          (s.launched (nextProcess s.kernel) (nextThread s.kernel) kernel).children
            (nextProcess s.kernel)) ↔
      launchedPointers s.kernel (nextWorkers s.kernel) = .thread (nextThread s.kernel) ∧
        (s.kernel.threads (nextThread s.kernel)).parent = nextProcess s.kernel ∧
        ∀ t, t ∈ s.children (nextProcess s.kernel) → t = nextThread s.kernel := by
  have hentry : (s.launched (nextProcess s.kernel) (nextThread s.kernel) kernel).entry
      (nextProcess s.kernel) 0 = launchedPointers s.kernel (nextWorkers s.kernel) := by
    change kernel.pointers (wordAt (kernel.processes (nextProcess s.kernel)).workers.pool 0) = _
    rw [h.pointers, h.pool, wordAt_zero]
  have hused : (s.launched (nextProcess s.kernel) (nextThread s.kernel) kernel).used
      (nextProcess s.kernel) = {0} :=
    Function.update_self _ _ _
  have hone : (1 : Half).toNat = 1 := rfl
  have hchildren := children_launched (p := nextProcess s.kernel) (t := nextThread s.kernel)
    (q := nextProcess s.kernel) h.parents
  rw [hused, h.count, hone, Roster.exact_single_iff, hentry, hchildren]
  constructor
  · intro hset
    obtain ⟨t, ht, hword⟩ := hset.symm.subset (Set.mem_singleton _)
    obtain ⟨rfl, -⟩ := launchedPointers_eq_thread hword.symm
    refine ⟨hword.symm, ?_, fun u hu => ?_⟩
    · obtain ⟨-, hparent⟩ | ⟨-, -, hparent⟩ := ht
      · exact hparent
      · exact hparent
    · have hu' := hset.subset (Set.mem_image_of_mem _ (Or.inl hu))
      rw [← hword] at hu'
      exact threads_injective hu'
  · rintro ⟨hword, hparent, honly⟩
    have hnull := (launchedPointers_eq_thread hword).2
    rw [hword, ← Set.image_singleton, Set.image_eq_image threads_injective,
      Set.eq_singleton_iff_unique_mem]
    refine ⟨Or.inr ⟨rfl, hnull, hparent⟩, ?_⟩
    rintro t (ht | ⟨ht, -⟩)
    · exact honly t ht
    · exact ht

/-- **`exec` keeps the lists exact when its thread has its parent already** and its lists
lie apart from the others. -/
theorem launched_exact_iff
    (hplaced : Placed s)
    (hexact : WorkersExact s)
    (h : Taken s.kernel kernel) :
    WorkersExact (s.launched (nextProcess s.kernel) (nextThread s.kernel) kernel) ↔
      ExecSafe s := by
  have hself := launched_self_iff h
  constructor
  · intro hkept
    have hmade : nextProcess s.kernel ≠ nullSlot → _ :=
      fun hp => hself.mp (hkept (nextProcess s.kernel) (Or.inr ⟨rfl, hp⟩))
    have hother : ∀ q, q ∈ s.processes → q ≠ nextProcess s.kernel → _ :=
      fun q hq hne => (launched_other_iff hexact h hq hne).mp (hkept q (Or.inl hq))
    exact ⟨fun hp => (hmade hp).1, fun hp => (hmade hp).2.1, fun hp => (hmade hp).2.2,
      fun q hq hne => (hother q hq hne).2, fun hnull hne hq => (hother _ hq hne).1 hnull rfl⟩
  · intro hsafe q hq
    by_cases hqp : q = nextProcess s.kernel
    · subst hqp
      have hp : nextProcess s.kernel ≠ nullSlot := by
        intro hnull
        exact (hplaced.launched _ _ kernel).process (hnull ▸ hq)
      exact hself.mpr ⟨hsafe.listed hp, hsafe.parent hp, hsafe.alone hp⟩
    · obtain hlive | ⟨hq', -⟩ := hq
      · refine (launched_other_iff hexact h hlive hqp).mpr ⟨fun hnull hparent => ?_, ?_⟩
        · subst hparent
          exact hsafe.strangers hnull hqp hlive
        · exact hsafe.others q hlive hqp
      · exact absurd hq' hqp

end Launch

section Kill

variable {k : Config} {s : WorkState} {t q : Nat}

theorem toNat_sub_one
    (count : Half) :
    (count - 1).toNat ≠ count.toNat ∧
      (0 < count.toNat → (count - 1).toNat + 1 = count.toNat) := by
  have hlt := count.isLt
  have hsub : (count - 1).toNat = (2 ^ 32 - 1 + count.toNat) % 2 ^ 32 := BitVec.toNat_sub _ _
  omega

/-- A word of a list after a `TKILL`. -/
theorem entry_tkilled
    (s : WorkState) (t q i : Nat) :
    (i ∈ s.freedSlots t q → (s.tkilled t (s.kernel.tkill k t)).entry q i = .null) ∧
      (i ∉ s.freedSlots t q → (s.tkilled t (s.kernel.tkill k t)).entry q i = s.entry q i) := by
  have hpool : ((s.kernel.tkill k t).processes q).workers.pool =
      (s.kernel.processes q).workers.pool := by
    rw [tkill_processes, Function.update_apply]
    split_ifs with hq
    · rw [hq]
      rfl
    · rfl
  have hentry : (s.tkilled t (s.kernel.tkill k t)).entry q i =
      clearPointers s.kernel.pointers (s.kernel.threads t).double_link
        (s.kernel.processes (s.kernel.threads t).parent).workers.stride.toNat
        (wordAt (s.kernel.processes q).workers.pool i) := by
    change (s.kernel.tkill k t).pointers
      (wordAt ((s.kernel.tkill k t).processes q).workers.pool i) = _
    rw [tkill_words, hpool]
  rw [hentry]
  exact ⟨fun hi => if_pos hi, fun hi => if_neg hi⟩

theorem children_tkilled
    (s : WorkState) (t q : Nat) :
    (s.tkilled t (s.kernel.tkill k t)).children q = s.children q \ {t} := by
  have hother : ∀ u, u ≠ t → (s.kernel.tkill k t).threads u = s.kernel.threads u := by
    intro u hu
    rw [tkill_threads, Function.update_of_ne hu]
  exact children_ended hother

/-- The list of the parent of the thread that is ended. -/
theorem tkilled_parent_iff
    (hexact : WorkersExact s)
    (hq : (s.kernel.threads t).parent ∈ s.processes) :
    let parent := (s.kernel.threads t).parent
    Roster.Exact ((s.tkilled t (s.kernel.tkill k t)).entry parent)
        ((s.tkilled t (s.kernel.tkill k t)).used parent)
        ((s.kernel.tkill k t).processes parent).workers.count.toNat
        (Pointer.thread '' (s.tkilled t (s.kernel.tkill k t)).children parent) ↔
      t ∈ s.threads ∧ ∀ i, i ∈ s.used parent →
        (i ∈ s.freedSlots t parent ↔ s.entry parent i = .thread t) := by
  intro parent
  have hused : (s.tkilled t (s.kernel.tkill k t)).used parent =
      s.used parent \ s.freedSlots t parent :=
    Function.update_self _ _ _
  have hcount : ((s.kernel.tkill k t).processes parent).workers.count =
      (s.kernel.processes parent).workers.count - 1 := by
    rw [tkill_processes, Function.update_self]
    rfl
  have hkept : Set.EqOn ((s.tkilled t (s.kernel.tkill k t)).entry parent) (s.entry parent)
      (s.used parent \ s.freedSlots t parent) :=
    fun i hi => (entry_tkilled s t parent i).2 hi.2
  obtain ⟨hne, hpred⟩ := toNat_sub_one (s.kernel.processes parent).workers.count
  rw [hused, hcount, children_tkilled, image_sdiff_thread,
    (hexact parent hq).release_iff hkept hne hpred, thread_mem_image_iff]
  exact and_congr_left fun _ => ⟨fun hchild => hchild.1, fun hlive => ⟨hlive, rfl⟩⟩

/-- The list of another process. -/
theorem tkilled_other_iff
    (hexact : WorkersExact s)
    (hq : q ∈ s.processes)
    (hne : q ≠ (s.kernel.threads t).parent) :
    Roster.Exact ((s.tkilled t (s.kernel.tkill k t)).entry q)
        ((s.tkilled t (s.kernel.tkill k t)).used q)
        ((s.kernel.tkill k t).processes q).workers.count.toNat
        (Pointer.thread '' (s.tkilled t (s.kernel.tkill k t)).children q) ↔
      ∀ i, i ∈ s.used q → (i ∈ s.freedSlots t q ↔ s.entry q i = .thread t) := by
  have hused : (s.tkilled t (s.kernel.tkill k t)).used q = s.used q :=
    Function.update_of_ne hne _ _
  have hprocess : (s.kernel.tkill k t).processes q = s.kernel.processes q := by
    rw [tkill_processes, Function.update_of_ne hne]
  have hnot : t ∉ s.children q := fun hchild => hne hchild.2.symm
  have hvalue : ∀ i, i ∈ s.used q →
      (s.tkilled t (s.kernel.tkill k t)).entry q i = s.entry q i ∨
      (s.tkilled t (s.kernel.tkill k t)).entry q i = .null ∨
      (s.tkilled t (s.kernel.tkill k t)).entry q i ∉ Pointer.thread '' s.children q := by
    intro i _
    by_cases hi : i ∈ s.freedSlots t q
    · exact Or.inr (Or.inl ((entry_tkilled s t q i).1 hi))
    · exact Or.inl ((entry_tkilled s t q i).2 hi)
  rw [hused, hprocess, children_tkilled, Set.sdiff_singleton_eq_self hnot,
    (hexact q hq).overwrite_iff Set.Subset.rfl hvalue, and_iff_right rfl]
  refine forall₂_congr fun i hi => ?_
  -- the slot holds a live thread of `q`, so neither `t` nor nothing
  obtain ⟨u, hu, hentry⟩ := (hexact q hq).lists.mapsTo hi
  have hother : s.entry q i ≠ .thread t := by
    intro heq
    obtain rfl := threads_injective (hentry.trans heq)
    exact hnot hu
  rw [iff_false_right hother]
  constructor
  · intro hsame hfreed
    rw [(entry_tkilled s t q i).1 hfreed, ← hentry] at hsame
    cases hsame
  · exact (entry_tkilled s t q i).2

/-- **`TKILL` keeps the lists exact when the thread is listed where it frees**, and
nothing else is. -/
theorem tkilled_exact_iff
    (hexact : WorkersExact s)
    (t : Nat) :
    WorkersExact (s.tkilled t (s.kernel.tkill k t)) ↔ WorkSafe k s (.tkill t) := by
  constructor
  · intro hkept
    refine ⟨fun hparent => ?_, fun q hq => ?_⟩
    · exact ((tkilled_parent_iff hexact hparent).mp (hkept _ hparent)).1
    · by_cases hqp : q = (s.kernel.threads t).parent
      · subst hqp
        exact ((tkilled_parent_iff hexact hq).mp (hkept _ hq)).2
      · exact (tkilled_other_iff hexact hq hqp).mp (hkept q hq)
  · rintro ⟨hlive, hslots⟩ q hq
    by_cases hqp : q = (s.kernel.threads t).parent
    · subst hqp
      exact (tkilled_parent_iff hexact hq).mpr ⟨hlive hq, hslots _ hq⟩
    · exact (tkilled_other_iff hexact hq hqp).mpr (hslots q hq)

end Kill

section Runs

variable {k : Config} {s s' : WorkState} {op : WorkOp}

/-- The kill branch is never taken: its mask is 0. -/
theorem killBranch_eq
    (s : Kernel) (i : Nat) :
    s.killBranch k i = (none, s) := by
  have hkilled : s.killed i = false := by simp [Kernel.killed]
  rw [Kernel.killBranch, hkilled]
  rfl

theorem workStep_getnext
    {i : Nat}
    (h : WorkStep k s (.getnext i) s') :
    s' = s := by
  have hkilled : s.kernel.killed i = false := by simp [Kernel.killed]
  change s' = _ at h
  rw [h, killBranch_eq]
  simp [hkilled]

/-- A `thread` that fails: the slot it clears must not be that of a listed thread. -/
theorem ended_cleared_iff
    {kernel : Kernel}
    (hexact : WorkersExact s)
    (h : Cleared s.kernel kernel) :
    WorkersExact (s.ended (nextThread s.kernel) kernel) ↔
      (nextThread s.kernel ∈ s.threads →
        (s.kernel.threads (nextThread s.kernel)).parent ∉ s.processes) := by
  have hentry : ∀ q, (s.ended (nextThread s.kernel) kernel).entry q = s.entry q := by
    intro q
    funext i
    change kernel.pointers (wordAt (kernel.processes q).workers.pool i) = _
    rw [h.pointers, h.workers]
    rfl
  have hroster : ∀ q, q ∈ s.processes →
      (Roster.Exact ((s.ended (nextThread s.kernel) kernel).entry q) (s.used q)
          (kernel.processes q).workers.count.toNat
          (Pointer.thread '' (s.ended (nextThread s.kernel) kernel).children q) ↔
        nextThread s.kernel ∉ s.children q) := by
    intro q hq
    rw [hentry, h.workers, children_ended h.threads, (hexact q hq).iff_eq,
      Set.image_eq_image threads_injective, sdiff_eq_left, Set.disjoint_singleton_right]
  constructor
  · intro hkept hlive hparent
    exact (hroster _ hparent).mp (hkept _ hparent) ⟨hlive, rfl⟩
  · intro hsafe q hq
    refine (hroster q hq).mpr ?_
    rintro ⟨hlive, rfl⟩
    exact hsafe hlive hq

theorem workStep_placed
    (h : Placed s)
    (hstep : WorkStep k s op s') :
    Placed s' := by
  cases op with
  | exec calling_thread source =>
      obtain ⟨ret, made, kernel, hexec, rfl⟩ := hstep
      cases made with
      | none => exact ⟨h.process, h.freed⟩
      | some main_thread => exact h.launched _ _ _
  | thread calling_thread =>
      obtain ⟨newfag, made, kernel, hthread, rfl⟩ := hstep
      obtain ⟨rfl, -⟩ := thread_spec hthread
      exact ⟨h.process, h.freed⟩
  | tkill t =>
      obtain rfl := hstep
      exact ⟨h.process, h.freed⟩
  | getnext i =>
      rw [workStep_getnext hstep]
      exact h

/-- **One call keeps the lists exact exactly when it is safe.** -/
theorem workStep_exact_iff
    (hplaced : Placed s)
    (hexact : WorkersExact s)
    (hstep : WorkStep k s op s') :
    WorkersExact s' ↔ WorkSafe k s op := by
  cases op with
  | exec calling_thread source =>
      obtain ⟨ret, made, kernel, hexec, rfl⟩ := hstep
      obtain ⟨hrefuses, rfl, hloads⟩ | ⟨hgood, rfl, rfl, htaken⟩ := exec_spec hexec
      · have hkept : WorkersExact { s with kernel := kernel } := by
          intro q hq
          have hlist := hexact q hq
          unfold WorkState.children WorkState.entry at hlist ⊢
          rw [hloads.pointers, hloads.processes, hloads.threads]
          exact hlist
        exact iff_of_true hkept (Or.inl hrefuses)
      · rw [WorkSafe, or_iff_right hgood]
        exact launched_exact_iff hplaced hexact htaken
  | thread calling_thread =>
      obtain ⟨newfag, made, kernel, hthread, rfl⟩ := hstep
      obtain ⟨rfl, hcleared⟩ := thread_spec hthread
      exact ended_cleared_iff hexact hcleared
  | tkill t =>
      obtain rfl := hstep
      exact tkilled_exact_iff hexact t
  | getnext i =>
      rw [workStep_getnext hstep]
      exact iff_of_true hexact trivial

/-- The kill branch ends nothing, so it ends nothing wrongly. -/
theorem killsRightly_of_placed
    (hplaced : Placed s) :
    KillsRightly k s op s' := by
  cases op with
  | getnext i =>
      refine ⟨fun _ => hplaced.freed ▸ Set.notMem_empty _, fun q hq => ?_⟩
      rw [killBranch_eq] at hq
      cases hq
  | exec calling_thread source => trivial
  | thread calling_thread => trivial
  | tkill t => trivial

/-- **The lists of threads are exact over a run exactly when every call is safe**, and
what the kill branch does is right then. -/
theorem workers_exact_iff
    {run : List (WorkOp × WorkState)}
    (hrun : Runs.Run (WorkStep k) s run)
    (hplaced : Placed s)
    (hexact : WorkersExact s) :
    Runs.Always WorkersExact s run ∧ Runs.EveryStep (KillsRightly k) s run ↔
      Runs.StepsMeet (WorkSafe k) s run := by
  have hplace : ∀ s op s', Placed s → WorkStep k s op s' → Placed s' :=
    fun _ _ _ => workStep_placed
  have hkills : Runs.EveryStep (KillsRightly k) s run :=
    Runs.everyStep_of_invariant hplace (fun _ _ _ hplaced _ => killsRightly_of_placed hplaced)
      hrun hplaced
  have hstep : ∀ s op s', Placed s → WorkersExact s → WorkStep k s op s' →
      (WorkersExact s' ↔ WorkSafe k s op) :=
    fun _ _ _ => workStep_exact_iff
  rw [and_iff_left hkills]
  exact Runs.always_iff_stepsMeet_of_invariant
    (fun s op s' hplaced _ hstep _ => hplace s op s' hplaced hstep) hstep hrun hplaced hexact

end Runs

section Examples

/-- The process and the thread of slot 3 live, and the one lists the other. -/
def idleStart : WorkState := ⟨idleKernel, {3}, {3}, fun _ => {0}, ∅⟩

theorem placed_idleStart : Placed idleStart where
  process := show nullSlot ≠ 3 by decide
  freed := rfl

theorem exact_idleStart : WorkersExact idleStart := by
  rintro q rfl
  have hchildren : idleStart.children 3 = {3} := by
    ext u
    refine ⟨fun hu => hu.1, ?_⟩
    rintro rfl
    exact ⟨rfl, rfl⟩
  have hentry : idleStart.entry 3 0 = .thread 3 := rfl
  refine Roster.exact_single_iff.mpr ?_
  rw [hchildren, hentry, Set.image_singleton]

/-- A run of one `exec`. -/
def launchRun (kernel : Kernel) : List (WorkOp × WorkState) :=
  [(.exec 3 0, idleStart.launched 0 0 kernel)]

theorem run_launchRun :
    ∃ kernel, Runs.Run (WorkStep idleConfig) idleStart (launchRun kernel) ∧
      Taken idleKernel kernel := by
  obtain ⟨kernel, hexec, -⟩ := exec_idle
  obtain ⟨-, hmade, -⟩ | ⟨-, -, -, htaken⟩ := exec_spec hexec
  · cases hmade
  · exact ⟨kernel, .cons ⟨_, _, kernel, hexec, rfl⟩ (.nil _), htaken⟩

theorem workers_exact_iff_launch :
    ∃ kernel, Runs.Run (WorkStep idleConfig) idleStart (launchRun kernel) ∧
      (Runs.Always WorkersExact idleStart (launchRun kernel) ∧
          Runs.EveryStep (KillsRightly idleConfig) idleStart (launchRun kernel) ↔
        Runs.StepsMeet (WorkSafe idleConfig) idleStart (launchRun kernel)) := by
  obtain ⟨kernel, hrun, -⟩ := run_launchRun
  exact ⟨kernel, hrun, workers_exact_iff hrun placed_idleStart exact_idleStart⟩

/-- The new process lists a thread whose parent is the null pointer. -/
theorem launch_not_exact :
    ¬ ∀ (k : Config) (s : WorkState) (run : List (WorkOp × WorkState)),
      Runs.Run (WorkStep k) s run → Placed s → WorkersExact s →
        Runs.Always WorkersExact s run ∧ Runs.EveryStep (KillsRightly k) s run := by
  intro hall
  obtain ⟨kernel, hrun, htaken⟩ := run_launchRun
  have hexact : WorkersExact (idleStart.launched 0 0 kernel) :=
    (hall idleConfig idleStart _ hrun placed_idleStart exact_idleStart).1.2 _
      (List.mem_singleton.mpr rfl)
  have hsafe : ExecSafe idleStart :=
    (launched_exact_iff placed_idleStart exact_idleStart htaken).mp hexact
  have hparent : nullSlot = 0 := hsafe.parent (by decide)
  exact absurd hparent (by decide)

end Examples

end Processes
end BestKernel
