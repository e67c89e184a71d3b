import BestKernel.Mem.FrameRuns
import BestKernel.Mem.Reallocation
import BestKernel.Mem.Signatures
import BestKernel.Processes.Teardown
import BestKernel.Syscalls.MemoryAccounting
import BestKernel.Vfs.Listeners

/-!
# Running out of address space

Seven callers ask `vmtree_fetch` for a region.  `OutOfSpaceRight` says that a caller that
is given the null pointer reports a failure and leaves the page tree, the table of frames
and the listeners alone.

`vmtree_fetch` returns the null pointer whatever it finds (`fetchedPointer_vmtreeFetch`),
and most callers compare with -1.  So `SYS_MALLOC` and `mem_remap` never report, `fmap`
is right when the search is silent, and the others write from the root on and are right
where what they write is there already (`out_of_space_iff`).

A failure is reported as the caller does it elsewhere: by the null pointer, by 2 from
`SYS_MALLOC` and by a negative number from `mem_realloc` and `mem_remap`.  Which words
belong to the page tree is a parameter.
-/

namespace BestKernel
namespace Processes

open Machine Mem

/-- The callers with their arguments.  `used_memory` is that of the process, `held` what
the array of `mem_realloc` holds before, and `array` where that of `mem_remap` lies. -/
inductive Caller where
  | alloc (pagetype : Nat) (pages_number : Half)
  | malloc (pages_number pagetype used_memory : Half)
  | map (target : Word) (pagetype : Nat) (pages_number cache : Half)
  | realloc (vm : Word) (oldpages newpages : Half) (pagetype : Nat) (held : Nat → Word)
  | remap (vm : Word) (oldpages newpages : Half) (pagetype : Nat) (array : Word)
  | fmap (file : Nat) (desc amount offset : Half)
  | stack (process thread : Nat)

section Specification

variable (k : Config) (tree : Word → Prop) (pagetree : Word) (s : Kernel)

/-- `deallocate_vm` goes through. -/
def Released (vm : Word) (oldpages : Half) : Prop :=
  entryOf vm s.words pagetree ≠ 0 ∧
    ¬ Supervised s.words (entryOf vm s.words pagetree) oldpages.toNat

/-- The call comes to `vmtree_fetch`. -/
def Caller.Reached : Caller → Prop
  | .malloc pages_number pagetype _ => Syscalls.refusesPages pages_number pagetype = false
  | .realloc _ oldpages newpages _ _ => ¬ oldpages > newpages
  | .remap vm oldpages newpages _ _ =>
      ¬ oldpages > newpages ∧ Released pagetree s vm oldpages
  | _ => True

/-- Whether the call reports a failure, and the kernel behind it. -/
def Caller.outcome (fuel : Nat) : Caller → Option (Bool × Kernel)
  | .alloc pagetype pages_number =>
      let (ret, words) := memAlloc s.words pagetree pagetype pages_number.toNat
      some (fetchedPointer ret == 0, { s with words := words })
  | .malloc pages_number pagetype used_memory =>
      let (ret, memory) :=
        Syscalls.sysMalloc pages_number pagetype pagetree ⟨s.words, used_memory, 0⟩
      some (ret == 2, { s with words := memory.words })
  | .map target pagetype pages_number cache =>
      let (ret, words) := memMap s.words pagetree target pagetype pages_number.toNat cache
      some (fetchedPointer ret == 0, { s with words := words })
  | .realloc vm oldpages newpages pagetype held =>
      (memRealloc k.memlen fuel s.table s.words pagetree vm oldpages newpages pagetype
        held).map fun
          | .refused words => (true, { s with words := words })
          | .moved _ words => (false, { s with words := words })
  | .remap vm oldpages newpages pagetype array =>
      let (ret, words) := memRemap s.words pagetree vm oldpages newpages pagetype array
      some (ret.isNone, { s with words := words })
  | .fmap file desc amount offset =>
      let (vm, words, mem, _) := Vfs.fmap s.words (s.files file).mem pagetree desc amount offset
      some (vm == 0,
        { s with
          words := words
          files := Function.update s.files file { s.files file with mem := mem } })
  | .stack process thread =>
      (s.makeStack { k with fuel := fuel } process thread).map fun (ret, s) => (ret == 0, s)

/-- The entries of the tree, the table and the listeners are the same. -/
structure Harmless (s' : Kernel) : Prop where
  words : SameOn tree s.words s'.words
  table : s'.table = s.table
  listeners : ∀ f, (s'.files f).mem.listeners = (s.files f).mem.listeners

/-- **A failed search is reported and harmless.** -/
def OutOfSpaceRight (c : Caller) : Prop :=
  c.Reached pagetree s →
    ∃ fuel s', c.outcome k pagetree s fuel = some (true, s') ∧ Harmless tree s s'

/-- All these entries are signed, or in the region that is written. -/
def Signed (written : Word → Prop) (entries : List Word) : Prop :=
  ∀ a, a ∈ entries → tree a → written a ∨ bitSet (s.words a) 56 = true

/-- What is written from the root on is there, and the search is silent beside it. -/
def Rewritten (entry : Nat → Word) (pages_number pagetype : Nat) : Prop :=
  (∀ h, h < pages_number → tree (wordAt pagetree h) →
    s.words (wordAt pagetree h) = entry h) ∧
  Signed tree s (Within pagetree pages_number)
    (searched pagetree s.words pages_number pagetype ++ [pagetree])

/-- The entries that `mem_map` writes. -/
def mapEntry (target : Word) (pagetype : Nat) (cache : Half) (h : Nat) : Word :=
  memreqTemplate pagetype .MAP cache 0 |||
    ((target + (BitVec.ofNat 32 (getMultiFromPagetype walkedPagetype * h)).setWidth 64) <<< 13)

/-- The frames of `mem_realloc` are not found. -/
def FramesMissing (oldpages newpages : Half) (pagetype : Nat) : Prop :=
  ∃ fuel status addresses,
    getFreePhys k.memlen s.table (newpages - oldpages) pagetype fuel =
      some (status, addresses) ∧ status ≠ 0

/-- The search of `mem_realloc` is silent behind a release that is refused. -/
def RefusedQuiet (vm : Word) (newpages : Half) (pagetype : Nat) : Prop :=
  Signed tree s (fun _ => False)
    (walked vm s.words pagetree ++
      searched pagetree (signAll s.words (walked vm s.words pagetree)) newpages.toNat pagetype)

/-- The entries that `mem_realloc` signs behind a release that goes through. -/
def releasedSearch (vm : Word) (oldpages newpages : Half) (pagetype : Nat) : List Word :=
  searched pagetree
    (storeWords (signAll s.words (walked vm s.words pagetree)) (entryOf vm s.words pagetree)
      (fun _ => segfaultEntry) oldpages.toNat)
    newpages.toNat pagetype

/-- What is released is as it is after a release, and the rest is silent. -/
def ReleasedQuiet (vm : Word) (oldpages newpages : Half) (pagetype : Nat) : Prop :=
  (∀ h, h < oldpages.toNat → tree (wordAt (entryOf vm s.words pagetree) h) →
    s.words (wordAt (entryOf vm s.words pagetree) h) =
      if wordAt (entryOf vm s.words pagetree) h ∈
          releasedSearch pagetree s vm oldpages newpages pagetype then
        setBit segfaultEntry 56
      else segfaultEntry) ∧
  Signed tree s (Within (entryOf vm s.words pagetree) oldpages.toNat)
    (walked vm s.words pagetree ++ releasedSearch pagetree s vm oldpages newpages pagetype)

/-- Page `i` of a stack from its guard, page 0, on. -/
def stackEntry (i : Nat) : Word := wordAt pagetree (8 * (i + 1))

/-- The pages of the stack that a thread of a process asks for. -/
def stackPages (thread : Nat) : Nat :=
  (k.headerAt (s.processes (s.threads thread).parent).code).stacksize.toNat

/-- The frame that is found for a page of a stack is not free: its byte is full. -/
def FrameTaken (pipe : Word) : Prop :=
  (∃ fuel, getFreeIdentity k.memlen s.table 1 Pag.SMALLPAGE fuel = some pipe) ∧
    s.table (tableIndex pipe) = 0xFF

/-- The entry of a page of a stack. -/
def stackWord (pipe : Word) : Word :=
  (pipe <<< 12) ||| memreqTemplate Pag.SMALLPAGE .RESERVE Cache.WRITEBACK.code 0

/-- The entries of a stack, its guard and those with this frame, are there already. -/
def StackKept (process thread : Nat) (pipe : Word) : Prop :=
  (∀ i, i ≤ stackPages k s thread → tree (stackEntry (s.processes process).pagetree i) →
    s.words (stackEntry (s.processes process).pagetree i) =
      if i = 0 then 0 else stackWord pipe) ∧
  Signed tree s
    (fun a => ∃ i, i ≤ stackPages k s thread ∧
      a = stackEntry (s.processes process).pagetree i)
    (searched (s.processes process).pagetree s.words (stackPages k s thread + 1)
      Pag.SMALLPAGE ++ [(s.processes process).pagetree])

/-- A stack is there already, with a frame that is taken for all its pages. -/
def StackThere (process thread : Nat) : Prop :=
  ∃ pipe, (stackPages k s thread = 0 ∨ FrameTaken k s pipe) ∧
    StackKept k tree s process thread pipe

/-- The condition on a call. -/
def OutOfSpaceSafe : Caller → Prop
  | .alloc pagetype pages_number =>
      Rewritten tree pagetree s (fun _ => memreqTemplate pagetype .RESERVE 0 0)
        pages_number.toNat pagetype
  | .malloc pages_number pagetype _ => Syscalls.refusesPages pages_number pagetype = true
  | .map target pagetype pages_number cache =>
      Rewritten tree pagetree s (mapEntry target pagetype cache) pages_number.toNat pagetype
  | .realloc vm oldpages newpages pagetype _ =>
      oldpages > newpages ∨
        FramesMissing k s oldpages newpages pagetype ∧
          (Released pagetree s vm oldpages →
            ReleasedQuiet tree pagetree s vm oldpages newpages pagetype) ∧
          (¬ Released pagetree s vm oldpages →
            RefusedQuiet tree pagetree s vm newpages pagetype)
  | .remap vm oldpages newpages _ _ =>
      oldpages > newpages ∨ ¬ Released pagetree s vm oldpages
  | .fmap file _ amount _ =>
      Signed tree s (fun _ => False)
        (searched pagetree s.words (s.files file).mem.mapped_pagetype
          (pagetypeRoundup (BitVec.ofNat 32 (s.files file).mem.mapped_pagetype)
            amount.toNat).toNat)
  | .stack process thread => StackThere k tree s process thread

end Specification

section Searches

variable {tree : Word → Prop} {pagetree : Word} {s : Kernel}

/-- The memory behind a search and the walk to the null pointer. -/
theorem sign_vmtreeFetch (m : WordMemory) (pages_number pagetype : Nat) :
    sign (vmtreeFetch pagetree m pages_number pagetype).2 pagetree =
      signAll m (searched pagetree m pages_number pagetype ++ [pagetree]) := by
  rw [vmtreeFetch_snd, signAll_append]
  rfl

theorem memAlloc_searched (m : WordMemory) (pagetype pages_number : Nat) :
    memAlloc m pagetree pagetype pages_number =
      ((vmtreeFetch pagetree m pages_number pagetype).1,
        storeWords (signAll m (searched pagetree m pages_number pagetype ++ [pagetree])) pagetree
          (fun _ => memreqTemplate pagetype .RESERVE 0 0) pages_number) := by
  rw [memAlloc_eq, sign_vmtreeFetch]

theorem memMap_searched (m : WordMemory) (target : Word) (pagetype pages_number : Nat)
    (cache : Half) :
    memMap m pagetree target pagetype pages_number cache =
      ((vmtreeFetch pagetree m pages_number pagetype).1,
        storeWords (signAll m (searched pagetree m pages_number pagetype ++ [pagetree])) pagetree
          (mapEntry target pagetype cache) pages_number) := by
  rw [memMap_eq, sign_vmtreeFetch]
  rfl

theorem half_le (n : Half) : n.toNat ≤ 2 ^ 61 :=
  Nat.le_trans (Nat.le_of_lt n.isLt) (by decide)

theorem sameOn_rewritten_iff
    {entry : Nat → Word} {pages_number : Half} {pagetype : Nat} :
    SameOn tree s.words
        (storeWords
          (signAll s.words
            (searched pagetree s.words pages_number.toNat pagetype ++ [pagetree])) pagetree
          entry pages_number.toNat) ↔
      Rewritten tree pagetree s entry pages_number.toNat pagetype :=
  sameOn_storeWords_signAll_iff (half_le pages_number)

theorem sameOn_signed_iff
    {entries : List Word} :
    SameOn tree s.words (signAll s.words entries) ↔
      Signed tree s (fun _ => False) entries := by
  rw [sameOn_signAll_iff, Signed]
  simp

/-- A call that only writes words is harmless as far as the tree goes. -/
theorem harmless_words_iff
    {words : WordMemory} :
    Harmless tree s { s with words := words } ↔ SameOn tree s.words words :=
  ⟨fun h => h.words, fun h => ⟨h, rfl, fun _ => rfl⟩⟩

/-- A call that returns whatever the fuel. -/
theorem outOfSpaceRight_iff_of_outcome
    {k : Config} {c : Caller} {reported : Bool} {words : WordMemory}
    (houtcome : ∀ fuel, c.outcome k pagetree s fuel =
      some (reported, { s with words := words }))
    (hreached : c.Reached pagetree s) :
    OutOfSpaceRight k tree pagetree s c ↔ reported = true ∧ SameOn tree s.words words := by
  constructor
  · intro h
    obtain ⟨fuel, s', hcall, hharmless⟩ := h hreached
    rw [houtcome] at hcall
    obtain ⟨rfl, rfl⟩ := Prod.mk.inj (Option.some.inj hcall)
    exact ⟨rfl, harmless_words_iff.mp hharmless⟩
  · rintro ⟨rfl, hsame⟩ _
    exact ⟨0, _, houtcome 0, harmless_words_iff.mpr hsame⟩

end Searches

section Callers

variable {k : Config} {tree : Word → Prop} {pagetree : Word} {s : Kernel}

theorem alloc_right_iff (pagetype : Nat) (pages_number : Half) :
    OutOfSpaceRight k tree pagetree s (.alloc pagetype pages_number) ↔
      OutOfSpaceSafe k tree pagetree s (.alloc pagetype pages_number) := by
  have houtcome : ∀ fuel,
      (Caller.alloc pagetype pages_number).outcome k pagetree s fuel =
        some (true, { s with
          words := (memAlloc s.words pagetree pagetype pages_number.toNat).2 }) := by
    intro fuel
    unfold Caller.outcome
    dsimp only
    rw [memAlloc_fst, fetchedPointer_vmtreeFetch]
    rfl
  rw [outOfSpaceRight_iff_of_outcome houtcome trivial, memAlloc_searched, sameOn_rewritten_iff,
    and_iff_right rfl]
  rfl

theorem map_right_iff (target : Word) (pagetype : Nat) (pages_number cache : Half) :
    OutOfSpaceRight k tree pagetree s (.map target pagetype pages_number cache) ↔
      OutOfSpaceSafe k tree pagetree s (.map target pagetype pages_number cache) := by
  have houtcome : ∀ fuel,
      (Caller.map target pagetype pages_number cache).outcome k pagetree s fuel =
        some (true, { s with
          words := (memMap s.words pagetree target pagetype pages_number.toNat cache).2 }) := by
    intro fuel
    unfold Caller.outcome
    dsimp only
    rw [memMap_fst, fetchedPointer_vmtreeFetch]
    rfl
  rw [outOfSpaceRight_iff_of_outcome houtcome trivial, memMap_searched, sameOn_rewritten_iff,
    and_iff_right rfl]
  rfl

/-- `SYS_MALLOC` returns the null pointer as an address. -/
theorem malloc_right_iff (pages_number pagetype used_memory : Half) :
    OutOfSpaceRight k tree pagetree s (.malloc pages_number pagetype used_memory) ↔
      OutOfSpaceSafe k tree pagetree s (.malloc pages_number pagetype used_memory) := by
  by_cases hrefused : Syscalls.refusesPages pages_number pagetype = true
  · refine iff_of_true (fun hreached => ?_) hrefused
    have hpasses : Syscalls.refusesPages pages_number pagetype = false := hreached
    exact absurd (hpasses.symm.trans hrefused) Bool.false_ne_true
  · have hpasses : Syscalls.refusesPages pages_number pagetype = false :=
      Bool.eq_false_iff.mpr hrefused
    have houtcome : ∀ fuel,
        (Caller.malloc pages_number pagetype used_memory).outcome k pagetree s fuel =
          some (false, { s with
            words := (memAlloc s.words pagetree pagetype.toNat pages_number.toNat).2 }) := by
      intro fuel
      unfold Caller.outcome
      dsimp only
      rw [Syscalls.sysMalloc, hpasses, if_neg Bool.false_ne_true]
      dsimp only
      rw [memAlloc_fst, fetchedPointer_vmtreeFetch, if_neg (by decide)]
      rfl
    rw [outOfSpaceRight_iff_of_outcome houtcome hpasses]
    exact iff_of_false (fun h => Bool.false_ne_true h.1) hrefused

theorem deallocateVm_released
    {vm : Word} {oldpages : Half} :
    (deallocateVm s.words pagetree vm oldpages.toNat).1 = 0 ↔ Released pagetree s vm oldpages := by
  rw [deallocateVm_eq, Released]
  split_ifs with hnull hsupervised
  · exact iff_of_false (by decide) fun h => h.1 hnull
  · exact iff_of_false (by decide) fun h => h.2 hsupervised
  · exact iff_of_true rfl ⟨hnull, hsupervised⟩

/-- `mem_remap` takes the null pointer for a region. -/
theorem remap_right_iff (vm : Word) (oldpages newpages : Half) (pagetype : Nat) (array : Word) :
    OutOfSpaceRight k tree pagetree s (.remap vm oldpages newpages pagetype array) ↔
      OutOfSpaceSafe k tree pagetree s (.remap vm oldpages newpages pagetype array) := by
  by_cases hreached : ¬ oldpages > newpages ∧ Released pagetree s vm oldpages
  · have hstatus := deallocateVm_released.mpr hreached.2
    have houtcome : ∀ fuel,
        (Caller.remap vm oldpages newpages pagetype array).outcome k pagetree s fuel =
          some (false, { s with
            words := (memRemap s.words pagetree vm oldpages newpages pagetype array).2 }) := by
      intro fuel
      unfold Caller.outcome memRemap
      dsimp only
      rw [if_neg hreached.1, if_neg (not_not_intro hstatus), fetchedPointer_vmtreeFetch,
        if_neg (by decide)]
      rfl
    rw [outOfSpaceRight_iff_of_outcome houtcome hreached]
    refine iff_of_false (fun h => Bool.false_ne_true h.1) fun h => ?_
    exact h.elim hreached.1 fun hnot => hnot hreached.2
  · refine iff_of_true (fun h => absurd h hreached) ?_
    by_cases hgrows : oldpages > newpages
    · exact Or.inl hgrows
    · exact Or.inr fun hreleased => hreached ⟨hgrows, hreleased⟩

theorem fmap_right_iff (file : Nat) (desc amount offset : Half) :
    OutOfSpaceRight k tree pagetree s (.fmap file desc amount offset) ↔
      OutOfSpaceSafe k tree pagetree s (.fmap file desc amount offset) := by
  have houtcome : ∀ fuel,
      (Caller.fmap file desc amount offset).outcome k pagetree s fuel =
        some (true, { s with
          words := (vmtreeFetch pagetree s.words (s.files file).mem.mapped_pagetype
            (pagetypeRoundup (BitVec.ofNat 32 (s.files file).mem.mapped_pagetype)
              amount.toNat).toNat).2 }) := by
    intro fuel
    unfold Caller.outcome Vfs.fmap
    dsimp only
    rw [fetchedPointer_vmtreeFetch, if_pos rfl]
    simp
  rw [outOfSpaceRight_iff_of_outcome houtcome trivial, vmtreeFetch_snd, sameOn_signed_iff,
    and_iff_right rfl]
  rfl

/-- The memory of `mem_realloc` behind its search. -/
def searchedWords (pagetree : Word) (s : Kernel) (vm : Word) (oldpages newpages : Half)
    (pagetype : Nat) : WordMemory :=
  (vmtreeFetch pagetree (deallocateVm s.words pagetree vm oldpages.toNat).2.2 newpages.toNat
    pagetype).2

theorem sameOn_searchedWords_of_released
    {vm : Word} {oldpages newpages : Half} {pagetype : Nat}
    (h : Released pagetree s vm oldpages) :
    SameOn tree s.words (searchedWords pagetree s vm oldpages newpages pagetype) ↔
      ReleasedQuiet tree pagetree s vm oldpages newpages pagetype := by
  rw [searchedWords, deallocateVm_of_released (not_or.mpr h), vmtreeFetch_snd]
  exact sameOn_signAll_storeWords_iff (half_le oldpages)

theorem sameOn_searchedWords_of_refused
    {vm : Word} {oldpages newpages : Half} {pagetype : Nat}
    (h : ¬ Released pagetree s vm oldpages) :
    SameOn tree s.words (searchedWords pagetree s vm oldpages newpages pagetype) ↔
      RefusedQuiet tree pagetree s vm newpages pagetype := by
  obtain ⟨_, _, hrefused⟩ :=
    deallocateVm_of_refused (not_not.mp fun hnone => h (not_or.mp hnone))
  rw [searchedWords, hrefused, vmtreeFetch_snd, ← signAll_append]
  exact sameOn_signed_iff

/-- `mem_realloc` goes on behind its search, and reports what the search for frames does. -/
theorem realloc_outcome (k : Config) (s : Kernel) (pagetree vm : Word)
    {oldpages newpages : Half} (pagetype : Nat) (held : Nat → Word) (fuel : Nat)
    (hgrows : ¬ oldpages > newpages) :
    ∃ moved : List Word → WordMemory,
      (Caller.realloc vm oldpages newpages pagetype held).outcome k pagetree s fuel =
        (getFreePhys k.memlen s.table (newpages - oldpages) pagetype fuel).map fun r =>
          if r.1 ≠ 0 then
            (true, { s with words := searchedWords pagetree s vm oldpages newpages pagetype })
          else (false, { s with words := moved r.2 }) := by
  refine ⟨fun new => storeWords
    (vmtoEntry 0 (searchedWords pagetree s vm oldpages newpages pagetype) pagetree).1
    (vmtoEntry 0 (searchedWords pagetree s vm oldpages newpages pagetype) pagetree).2
    (fun h => memreqTemplate pagetype .RESERVE Cache.WRITEBACK.code 0 |||
      (reallocPhys held oldpages.toNat
        (deallocateVm s.words pagetree vm oldpages.toNat).2.1 new h <<< 13))
    newpages.toNat, ?_⟩
  unfold Caller.outcome memRealloc
  dsimp only
  rw [if_neg hgrows, fetchedPointer_vmtreeFetch, if_neg (by decide)]
  cases getFreePhys k.memlen s.table (newpages - oldpages) pagetype fuel with
  | none => rfl
  | some r =>
      obtain ⟨status, new⟩ := r
      by_cases hstatus : status ≠ 0
      · simp only [Option.bind_eq_bind, Option.bind_some, Option.map_some, if_pos hstatus]
        rfl
      · simp only [Option.bind_eq_bind, Option.bind_some, Option.map_some, if_neg hstatus]
        rfl

theorem realloc_right_iff (vm : Word) (oldpages newpages : Half) (pagetype : Nat)
    (held : Nat → Word) :
    OutOfSpaceRight k tree pagetree s (.realloc vm oldpages newpages pagetype held) ↔
      OutOfSpaceSafe k tree pagetree s (.realloc vm oldpages newpages pagetype held) := by
  by_cases hgrows : oldpages > newpages
  · exact iff_of_true (fun hreached => absurd hgrows hreached) (Or.inl hgrows)
  · have hright : OutOfSpaceRight k tree pagetree s
        (.realloc vm oldpages newpages pagetype held) ↔
          FramesMissing k s oldpages newpages pagetype ∧
            SameOn tree s.words (searchedWords pagetree s vm oldpages newpages pagetype) := by
      constructor
      · intro h
        obtain ⟨fuel, s', hcall, hharmless⟩ := h hgrows
        obtain ⟨moved, houtcome⟩ := realloc_outcome k s pagetree vm pagetype held fuel hgrows
        rw [houtcome] at hcall
        obtain ⟨⟨status, addresses⟩, hfound, hreturned⟩ := Option.map_eq_some_iff.mp hcall
        by_cases hstatus : status ≠ 0
        · rw [if_pos hstatus] at hreturned
          obtain ⟨_, rfl⟩ := Prod.mk.inj hreturned
          exact ⟨⟨fuel, status, addresses, hfound, hstatus⟩, harmless_words_iff.mp hharmless⟩
        · rw [if_neg hstatus] at hreturned
          exact absurd (Prod.mk.inj hreturned).1 Bool.false_ne_true
      · rintro ⟨⟨fuel, status, addresses, hfound, hstatus⟩, hsame⟩ _
        obtain ⟨moved, houtcome⟩ := realloc_outcome k s pagetree vm pagetype held fuel hgrows
        refine ⟨fuel, _, ?_, harmless_words_iff.mpr hsame⟩
        rw [houtcome, hfound, Option.map_some, if_pos hstatus]
    rw [hright, OutOfSpaceSafe, or_iff_right hgrows]
    refine and_congr_right' ?_
    by_cases hreleased : Released pagetree s vm oldpages
    · rw [sameOn_searchedWords_of_released hreleased]
      simp [hreleased]
    · rw [sameOn_searchedWords_of_refused hreleased]
      simp [hreleased]

end Callers

section Stacks

variable {k : Config} {tree : Word → Prop} {pagetree : Word} {s s' : Kernel}

theorem stackEntry_succ (i : Nat) :
    stackEntry pagetree (i + 1) - 64 = stackEntry pagetree i := by
  unfold stackEntry wordAt
  rw [show 8 * (8 * (i + 1 + 1)) = 8 * (8 * (i + 1)) + 64 by omega, BitVec.ofNat_add,
    ← BitVec.add_assoc]
  exact BitVec.add_sub_cancel _ _

/-- The guard is none of the pages. -/
theorem stackEntry_ne
    {i : Nat}
    (hi : 0 < i) (hsmall : i < 2 ^ 32) :
    stackEntry pagetree i ≠ stackEntry pagetree 0 := by
  intro h
  have hindex := (wordAt_inj (by omega) (by omega)).mp h
  omega

theorem malloc_page
    {pipe : Word} {s₁ : Kernel}
    (h : s.malloc k 1 = some (pipe, s₁)) :
    getFreeIdentity k.memlen s.table 1 Pag.SMALLPAGE k.fuel = some pipe ∧
      s₁ = { s with table := Function.update s.table (tableIndex pipe) 0xFF } := by
  obtain ⟨table, hmalloc, rfl⟩ := malloc_frame h
  obtain ⟨hfound, htable⟩ := malloc_eq_some hmalloc
  refine ⟨hfound, ?_⟩
  rw [htable, manipulatePhys_eq, if_neg (by decide)]
  rfl

/-- A byte of the table that is full stays so. -/
theorem stackLoop_full
    {left : Nat} {entry entry' : Word} {index : Nat}
    (h : Kernel.stackLoop k left s entry = some (s', entry'))
    (hfull : s.table index = 0xFF) :
    s'.table index = 0xFF := by
  induction left generalizing s entry with
  | zero =>
      obtain ⟨rfl, _⟩ := Prod.mk.inj (Option.some.inj h)
      exact hfull
  | succ left ih =>
      rw [Kernel.stackLoop] at h
      obtain ⟨⟨pipe, s₁⟩, hmalloc, hrest⟩ := Option.bind_eq_some_iff.mp h
      obtain ⟨_, rfl⟩ := malloc_page hmalloc
      refine ih hrest ?_
      change Function.update s.table (tableIndex pipe) 0xFF index = 0xFF
      by_cases hindex : index = tableIndex pipe
      · rw [hindex, Function.update_self]
      · rw [Function.update_of_ne hindex, hfull]

/-- A stack that leaves the table alone has no pages or is given a frame that is taken. -/
theorem stackLoop_taken
    {left : Nat} {entry entry' : Word}
    (h : Kernel.stackLoop k left s entry = some (s', entry'))
    (htable : s'.table = s.table) :
    left = 0 ∨ ∃ pipe,
      getFreeIdentity k.memlen s.table 1 Pag.SMALLPAGE k.fuel = some pipe ∧
        s.table (tableIndex pipe) = 0xFF := by
  cases left with
  | zero => exact Or.inl rfl
  | succ left =>
      rw [Kernel.stackLoop] at h
      obtain ⟨⟨pipe, s₁⟩, hmalloc, hrest⟩ := Option.bind_eq_some_iff.mp h
      obtain ⟨hfound, rfl⟩ := malloc_page hmalloc
      refine Or.inr ⟨pipe, hfound, ?_⟩
      rw [← htable]
      exact stackLoop_full hrest (Function.update_self _ _ _)

/-- The pages of a stack with a frame that is taken. -/
theorem stackLoop_eq (pagetree : Word)
    {left : Nat} {pipe : Word}
    (htaken : left = 0 ∨
      getFreeIdentity k.memlen s.table 1 Pag.SMALLPAGE k.fuel = some pipe ∧
        s.table (tableIndex pipe) = 0xFF) :
    ∃ s', Kernel.stackLoop k left s (stackEntry pagetree left) =
        some (s', stackEntry pagetree 0) ∧
      s'.table = s.table ∧ s'.files = s.files ∧
      (∀ i, 0 < i → i ≤ left → s'.words (stackEntry pagetree i) = stackWord pipe) ∧
      ∀ a, (∀ i, 0 < i → i ≤ left → a ≠ stackEntry pagetree i) → s'.words a = s.words a := by
  induction left generalizing s with
  | zero => exact ⟨s, rfl, rfl, rfl, fun i hi hle => absurd hle (by omega), fun _ _ => rfl⟩
  | succ left ih =>
      obtain ⟨hfound, hfull⟩ := htaken.resolve_left (Nat.succ_ne_zero left)
      have htable : Function.update s.table (tableIndex pipe) 0xFF = s.table := by
        rw [← hfull, Function.update_eq_self]
      have hmalloc : s.malloc k 1 = some (pipe, s) := by
        unfold Kernel.malloc Mem.malloc
        simp only [hfound, Option.bind_eq_bind, Option.bind_some, Option.pure_def,
          manipulatePhys_eq]
        rw [if_neg (by decide)]
        change some (pipe, { s with table := Function.update s.table (tableIndex pipe) 0xFF }) = _
        rw [htable]
      obtain ⟨s', hloop, htable', hfiles', hpages, hrest⟩ :=
        ih (s := { s.conditionalBloodLibel (pipe = 0) with
          words := Function.update s.words (stackEntry pagetree (left + 1)) (stackWord pipe) })
          (Or.inr ⟨hfound, hfull⟩)
      refine ⟨s', ?_, htable', hfiles', fun i hi hle => ?_, fun a ha => ?_⟩
      · rw [Kernel.stackLoop, hmalloc, Option.bind_eq_bind, Option.bind_some, stackEntry_succ]
        exact hloop
      · by_cases hbelow : ∃ j, 0 < j ∧ j ≤ left ∧ stackEntry pagetree i = stackEntry pagetree j
        · obtain ⟨j, hj, hjle, hsame⟩ := hbelow
          rw [hsame, hpages j hj hjle]
        · have hout : ∀ j, 0 < j → j ≤ left → stackEntry pagetree i ≠ stackEntry pagetree j :=
            fun j hj hjle hsame => hbelow ⟨j, hj, hjle, hsame⟩
          have hlast : i = left + 1 := by
            by_contra hne
            exact hout i hi (by omega) rfl
          rw [hrest _ hout, hlast]
          exact Function.update_self _ _ _
      · rw [hrest a fun i hi hle => ha i hi (by omega)]
        exact Function.update_of_ne (ha (left + 1) (by omega) (Nat.le_refl _)) _ _

/-- The kernel in which `make_stack` comes to its loop. -/
def stackBase (k : Config) (s : Kernel) (process thread : Nat) : Kernel :=
  { s with
    words := signAll s.words
      (searched (s.processes process).pagetree s.words (stackPages k s thread + 1)
        Pag.SMALLPAGE ++ [(s.processes process).pagetree]) }.modifyThread thread fun t =>
    { t with
      stack_pointer := entrytoVm (s.processes process).pagetree
        (stackEntry (s.processes process).pagetree (stackPages k s thread)) }

/-- `make_stack` goes down to the root, and returns the null pointer. -/
theorem makeStack_eq (fuel process thread : Nat) :
    s.makeStack { k with fuel := fuel } process thread =
      (Kernel.stackLoop { k with fuel := fuel } (stackPages k s thread)
        (stackBase k s process thread)
        (stackEntry (s.processes process).pagetree (stackPages k s thread))).map fun r =>
          (0, { r.1 with words := Function.update r.1.words r.2 0 }) := by
  unfold Kernel.makeStack
  dsimp only
  rw [fetchedPointer_vmtreeFetch, if_neg (by decide), vmtoEntry_zero, sign_vmtreeFetch,
    stackBase, stackEntry, stackPages, Nat.mul_comm, Option.map_eq_bind]
  rfl

/-- What a stack with a frame that is taken leaves. -/
theorem stack_outcome (tree : Word → Prop) (pagetree : Word) (process : Nat)
    {thread : Nat} {pipe : Word} {fuel : Nat}
    (htaken : stackPages k s thread = 0 ∨
      getFreeIdentity k.memlen s.table 1 Pag.SMALLPAGE fuel = some pipe ∧
        s.table (tableIndex pipe) = 0xFF) :
    ∃ s', (Caller.stack process thread).outcome k pagetree s fuel = some (true, s') ∧
      s'.table = s.table ∧ s'.files = s.files ∧
      (SameOn tree s.words s'.words ↔ StackKept k tree s process thread pipe) := by
  obtain ⟨s', hloop, htable, hfiles, hpages, hrest⟩ :=
    stackLoop_eq (k := { k with fuel := fuel }) (s := stackBase k s process thread)
      (s.processes process).pagetree htaken
  refine ⟨{ s' with
    words := Function.update s'.words (stackEntry (s.processes process).pagetree 0) 0 },
    ?_, htable, hfiles, ?_⟩
  · unfold Caller.outcome
    dsimp only
    rw [makeStack_eq, hloop]
    rfl
  · have hsmall : stackPages k s thread < 2 ^ 32 :=
      Nat.lt_trans (BitVec.isLt _) (by decide)
    have hvalue : ∀ i, i ≤ stackPages k s thread →
        Function.update s'.words (stackEntry (s.processes process).pagetree 0) 0
          (stackEntry (s.processes process).pagetree i) =
        if i = 0 then 0 else stackWord pipe := by
      intro i hi
      split_ifs with hguard
      · rw [hguard, Function.update_self]
      · rw [Function.update_of_ne (stackEntry_ne (Nat.pos_of_ne_zero hguard) (by omega))]
        exact hpages i (Nat.pos_of_ne_zero hguard) hi
    have hout : ∀ a, ¬ (∃ i, i ≤ stackPages k s thread ∧
        a = stackEntry (s.processes process).pagetree i) →
        Function.update s'.words (stackEntry (s.processes process).pagetree 0) 0 a =
          signAll s.words (searched (s.processes process).pagetree s.words
            (stackPages k s thread + 1) Pag.SMALLPAGE ++ [(s.processes process).pagetree]) a := by
      intro a ha
      rw [Function.update_of_ne fun h => ha ⟨0, Nat.zero_le _, h⟩,
        hrest a fun i _ hi h => ha ⟨i, hi, h⟩]
      rfl
    rw [sameOn_overwritten_iff hout, StackKept]
    refine and_congr_left' ⟨fun h i hi ha => ?_, ?_⟩
    · rw [← hvalue i hi]
      exact (h _ ha ⟨i, hi, rfl⟩).symm
    · rintro h a ha ⟨i, hi, rfl⟩
      exact (hvalue i hi).trans (h i hi ha).symm

theorem stack_right_iff (process thread : Nat) :
    OutOfSpaceRight k tree pagetree s (.stack process thread) ↔
      OutOfSpaceSafe k tree pagetree s (.stack process thread) := by
  constructor
  · intro h
    obtain ⟨fuel, s', hcall, hharmless⟩ := h trivial
    have htaken : stackPages k s thread = 0 ∨ ∃ pipe,
        getFreeIdentity k.memlen s.table 1 Pag.SMALLPAGE fuel = some pipe ∧
          s.table (tableIndex pipe) = 0xFF := by
      unfold Caller.outcome at hcall
      dsimp only at hcall
      obtain ⟨r, hmade, hreturned⟩ := Option.map_eq_some_iff.mp hcall
      rw [makeStack_eq] at hmade
      obtain ⟨⟨left, entry⟩, hloop, rfl⟩ := Option.map_eq_some_iff.mp hmade
      obtain ⟨_, rfl⟩ := Prod.mk.inj hreturned
      exact stackLoop_taken hloop hharmless.table
    have hpipe : ∃ pipe, stackPages k s thread = 0 ∨
        getFreeIdentity k.memlen s.table 1 Pag.SMALLPAGE fuel = some pipe ∧
          s.table (tableIndex pipe) = 0xFF := by
      rcases htaken with hnone | ⟨pipe, hpipe⟩
      · exact ⟨0, Or.inl hnone⟩
      · exact ⟨pipe, Or.inr hpipe⟩
    obtain ⟨pipe, hpipe⟩ := hpipe
    obtain ⟨s'', hcall', _, _, hkept⟩ :=
      stack_outcome tree pagetree process hpipe
    rw [hcall] at hcall'
    obtain ⟨_, rfl⟩ := Prod.mk.inj (Option.some.inj hcall')
    refine ⟨pipe, hpipe.imp_right fun hfound => ⟨⟨fuel, hfound.1⟩, hfound.2⟩, ?_⟩
    exact hkept.mp hharmless.words
  · rintro ⟨pipe, htaken, hkept⟩ _
    have hfuel : ∃ fuel, stackPages k s thread = 0 ∨
        getFreeIdentity k.memlen s.table 1 Pag.SMALLPAGE fuel = some pipe ∧
          s.table (tableIndex pipe) = 0xFF := by
      rcases htaken with hnone | ⟨⟨fuel, hfound⟩, hfull⟩
      · exact ⟨0, Or.inl hnone⟩
      · exact ⟨fuel, Or.inr ⟨hfound, hfull⟩⟩
    obtain ⟨fuel, hfuel⟩ := hfuel
    obtain ⟨s', hcall, htable, hfiles, hsame⟩ :=
      stack_outcome tree pagetree process hfuel
    exact ⟨fuel, s', hcall, hsame.mpr hkept, htable, fun f => by rw [hfiles]⟩

end Stacks

/-- **When running out of address space is reported and harmless**, caller by caller. -/
theorem out_of_space_iff (k : Config) (tree : Word → Prop) (pagetree : Word) (s : Kernel)
    (c : Caller) :
    OutOfSpaceRight k tree pagetree s c ↔ OutOfSpaceSafe k tree pagetree s c := by
  cases c with
  | alloc pagetype pages_number => exact alloc_right_iff pagetype pages_number
  | malloc pages_number pagetype used_memory =>
      exact malloc_right_iff pages_number pagetype used_memory
  | map target pagetype pages_number cache =>
      exact map_right_iff target pagetype pages_number cache
  | realloc vm oldpages newpages pagetype held =>
      exact realloc_right_iff vm oldpages newpages pagetype held
  | remap vm oldpages newpages pagetype array =>
      exact remap_right_iff vm oldpages newpages pagetype array
  | fmap file desc amount offset => exact fmap_right_iff file desc amount offset
  | stack process thread => exact stack_right_iff process thread

/-- **In a tree without a page `SYS_MALLOC` returns the null pointer as an address, and
the root entry is overwritten.** -/
theorem exhausted_tree_overwritten :
    (vmtreeFetch 8192#64 idleKernel.words 1 Pag.SMALLPAGE).1 = none ∧
      ¬ OutOfSpaceRight idleConfig (fun a => a = 8192#64) 8192#64 idleKernel (.malloc 1 3 0) ∧
      ¬ OutOfSpaceRight idleConfig (fun a => a = 8192#64) 8192#64 idleKernel
        (.alloc Pag.SMALLPAGE 1) := by
  refine ⟨by decide, ?_, ?_⟩
  · rw [malloc_right_iff]
    exact fun h => absurd (show Syscalls.refusesPages 1 3 = true from h) (by decide)
  · rw [alloc_right_iff]
    rintro ⟨hroot, _⟩
    exact absurd (hroot 0 (by decide) (wordAt_zero _)) (by decide)

end Processes
end BestKernel
