import BestKernel.Library.Runs
import BestKernel.Mem.EntryMode
import BestKernel.Mem.IdentityMap
import BestKernel.Mem.Rewriting
import BestKernel.Mem.SwapSelection
import BestKernel.Processes.Exec

/-!
# The address space of a process

Everything that writes into the page tree of a running process, as one step relation on the
words of memory: the calls of `Kingmem`, `fmap`, `make_stack`, `map_identity`,
`swap_process`, and the handler of page faults.  Whatever else a step depends on, such as
the table of frames and the files, is left open.

A step of most of these stores templates and nothing else (`spaceStep_rewrites`).  The
others are met one by one: `map_identity` writes away from the root, `swap_process` changes
only what its flag selects there (`swapProcess_root`), and the handler stores something only
when the flags of the entry say so (`pagefault_ignored`).

Readings of the source.  `pagefault_handler` tests `entry & 1`, where `entry` points to an
entry; both the pointer and the entry are taken for what it tests.  The handlers get the
process and the page type that their caller has.  `map_identity` is always called with a
`user` of 1.
-/

namespace BestKernel
namespace Processes

open Machine
open Mem

/-- What `entry & 1` is about. -/
inductive PresenceTest where
  | pointer
  | entry

/-- The test, for the entry at `a`. -/
def PresenceTest.present (test : PresenceTest) (m : WordMemory) (a : Word) : Bool :=
  match test with
  | .pointer => bitSet a 0
  | .entry => bitSet (m a) 0

/-- What the handlers find: the files behind the descriptors, what `malloc` returns, and
the partitions. -/
structure FaultInput where
  fileOf : Half → Vfs.MemFile
  fresh : Word
  disks : Partitions

/-- The handler that was called, and how it ended. -/
inductive PageFault where
  | soft (result : Vfs.Softfault)
  | hard (result : Hardfault)

/-- The entry that the handler stores, if it does. -/
def PageFault.stored : PageFault → Option Word
  | .soft (.reserve entry) => some entry
  | .soft (.file _ _ entry _) => some entry
  | .soft .segfault => none
  | .soft .ignored => none
  | .hard (.readback _ _ _ entry) => some entry
  | .hard .sigsegv => none
  | .hard .sigkill => none

/-- `pagefault_handler`, for the address in `cr2`. -/
def pagefaultHandler (test : PresenceTest) (x : FaultInput) (m : WordMemory)
    (pagetree vm : Word) : PageFault × WordMemory :=
  let (m, entry) := vmtoEntry vm m pagetree
  let result :=
    if test.present m entry then
      PageFault.soft (Vfs.softfaultHandler x.fileOf x.fresh (m entry) walkedPagetype)
    else PageFault.hard (hardfaultHandler x.disks (m entry) x.fresh walkedPagetype)
  match result.stored with
  | some stored => (result, Function.update m entry stored)
  | none => (result, m)

/-- What a process does to its page tree, or has done to it. -/
inductive SpaceOp where
  | mem_alloc (pagetype : Nat) (pages_number : Half)
  | mem_map (target : Word) (pagetype : Nat) (pages_number : Half) (cache : Cache)
  | mem_free (vm : Word) (pages_number : Half) (pagetype : Nat)
  | mem_unmap (vm : Word) (pages_number : Half) (pagetype : Nat)
  | mem_realloc (vm : Word) (oldpages newpages : Half) (pagetype : Nat)
  | mem_remap (vm : Word) (oldpages newpages : Half) (pagetype : Nat) (array : Word)
  | fmap (file : Vfs.MemFile) (desc amount offset : Half)
  | make_stack (process thread : Nat)
  | vmto_phys (vm : Word)
  | map_identity (y : Nat) (target : Word) (pages_number : Half) (cache : Cache)
  | swap_process
  | pagefault (vm : Word)

/-- The templates that are asked for, when mappings ask for the caches of `caches` only. -/
def Asked (caches : Cache → Prop) (mode : Mode) (cache : Cache) : Prop :=
  mode = .RESERVE ∧ cache = .STRONGUNCACHEABLE ∨ cache = .WRITEBACK ∨
    mode = .MAP ∧ caches cache

namespace SpaceOp

/-- A mapping asks for one of the caches. -/
def Within (caches : Cache → Prop) : SpaceOp → Prop
  | mem_map _ _ _ cache => caches cache
  | _ => True

/-- The steps that store templates only. -/
def StoresTemplates : SpaceOp → Prop
  | map_identity _ _ _ _ => False
  | swap_process => False
  | pagefault _ => False
  | _ => True

end SpaceOp

/-- The steps for the tree at `pagetree`. -/
inductive SpaceStep (test : PresenceTest) (pagetree : Word) :
    WordMemory → SpaceOp → WordMemory → Prop
  | mem_alloc (m : WordMemory) (pagetype : Nat) (pages_number : Half) :
      SpaceStep test pagetree m (.mem_alloc pagetype pages_number)
        (memAlloc m pagetree pagetype pages_number.toNat).2
  | mem_map (m : WordMemory) (target : Word) (pagetype : Nat) (pages_number : Half)
      (cache : Cache) :
      SpaceStep test pagetree m (.mem_map target pagetype pages_number cache)
        (memMap m pagetree target pagetype pages_number.toNat cache.code).2
  | mem_free (m : WordMemory) (vm : Word) (pages_number : Half) (pagetype : Nat) :
      SpaceStep test pagetree m (.mem_free vm pages_number pagetype)
        (memFree m pagetree vm pages_number.toNat pagetype).2.2
  | mem_unmap (m : WordMemory) (vm : Word) (pages_number : Half) (pagetype : Nat) :
      SpaceStep test pagetree m (.mem_unmap vm pages_number pagetype)
        (memUnmap m pagetree vm pages_number.toNat pagetype).2
  | mem_realloc (m : WordMemory) (vm : Word) (oldpages newpages : Half) (pagetype : Nat)
      (memlen : Half) (fuel : Nat) (table : RamTable) (stack : Nat → Word)
      (result : Reallocated)
      (h : memRealloc memlen fuel table m pagetree vm oldpages newpages pagetype stack =
        some result) :
      SpaceStep test pagetree m (.mem_realloc vm oldpages newpages pagetype) result.tree
  | mem_remap (m : WordMemory) (vm : Word) (oldpages newpages : Half) (pagetype : Nat)
      (array : Word) :
      SpaceStep test pagetree m (.mem_remap vm oldpages newpages pagetype array)
        (memRemap m pagetree vm oldpages newpages pagetype array).2
  | fmap (m : WordMemory) (file : Vfs.MemFile) (desc amount offset : Half) :
      SpaceStep test pagetree m (.fmap file desc amount offset)
        (Vfs.fmap m file pagetree desc amount offset).2.1
  | make_stack (k : Config) (s s' : Kernel) (process thread : Nat) (ret : Word)
      (htree : (s.processes process).pagetree = pagetree)
      (h : s.makeStack k process thread = some (ret, s')) :
      SpaceStep test pagetree s.words (.make_stack process thread) s'.words
  | vmto_phys (m : WordMemory) (vm : Word) :
      SpaceStep test pagetree m (.vmto_phys vm) (vmtoPhys m pagetree vm).1
  | map_identity (m m' : WordMemory) (y : Nat) (target : Word) (pages_number : Half)
      (cache : Cache)
      (h : mapIdentity y m pagetree target pages_number cache.code 1 = some m') :
      SpaceStep test pagetree m (.map_identity y target pages_number cache) m'
  | swap_process (m : WordMemory) (answers : PoolAnswers) (sizeof_ram used_memory : Word)
      (fuel : Nat) (table : RamTable) (s : SwapState)
      (h : swapProcess answers sizeof_ram used_memory fuel m table pagetree = some (some s)) :
      SpaceStep test pagetree m .swap_process s.mem
  | pagefault (m : WordMemory) (vm : Word) (x : FaultInput) :
      SpaceStep test pagetree m (.pagefault vm) (pagefaultHandler test x m pagetree vm).2

section Stacks

variable {allowed : Mode → Cache → Prop} {k : Config} {s s' : Kernel}

theorem malloc_words
    {pages_number : Half} {ret : Word}
    (h : s.malloc k pages_number = some (ret, s')) :
    s'.words = s.words := by
  obtain ⟨⟨ret', table⟩, _, h⟩ := Option.bind_eq_some_iff.mp h
  cases h
  rfl

theorem stackLoop_rewrites
    (hallowed : allowed .RESERVE .WRITEBACK)
    {left : Nat} {entry entry' : Word}
    (h : Kernel.stackLoop k left s entry = some (s', entry')) :
    Rewrites allowed s.words s'.words := by
  induction left generalizing s entry with
  | zero =>
      cases h
      exact Rewrites.refl _
  | succ left ih =>
      rw [Kernel.stackLoop] at h
      obtain ⟨⟨pipe, s₁⟩, hmalloc, hrest⟩ := Option.bind_eq_some_iff.mp h
      have hstore := ih hrest
      have hwords := malloc_words hmalloc
      refine Rewrites.trans ?_ hstore
      dsimp only [Kernel.conditionalBloodLibel]
      rw [hwords, BitVec.or_comm]
      exact rewrites_update (stored_template hallowed Pag.SMALLPAGE 0 pipe (by decide))

theorem makeStack_rewrites
    (hallowed : allowed .RESERVE .WRITEBACK)
    {process thread : Nat} {ret : Word}
    (h : s.makeStack k process thread = some (ret, s')) :
    Rewrites allowed s.words s'.words := by
  unfold Kernel.makeStack at h
  dsimp only at h
  split_ifs at h
  · cases h
    exact vmtreeFetch_rewrites _ _
  · obtain ⟨⟨s₁, entry⟩, hloop, h⟩ := Option.bind_eq_some_iff.mp h
    cases h
    have hguard : Stored allowed 0 := Or.inl flags_zero
    refine Rewrites.trans ?_ (rewrites_update hguard)
    exact ((vmtreeFetch_rewrites _ _).trans vmtoEntry_rewrites).trans
      (stackLoop_rewrites hallowed hloop)

end Stacks

/-- **What most steps write**: templates that are asked for, whatever they search, refuse or
run out of. -/
theorem spaceStep_rewrites
    {test : PresenceTest} {pagetree : Word} {caches : Cache → Prop} {m m' : WordMemory}
    {op : SpaceOp}
    (hstep : SpaceStep test pagetree m op m')
    (hop : op.StoresTemplates)
    (hwithin : op.Within caches) :
    Rewrites (Asked caches) m m' := by
  have hwriteback : ∀ mode, Asked caches mode .WRITEBACK := fun _ => Or.inr (Or.inl rfl)
  cases hstep with
  | mem_alloc => exact memAlloc_rewrites (Or.inl ⟨rfl, rfl⟩) _ _
  | mem_map => exact memMap_rewrites (Or.inr (Or.inr ⟨rfl, hwithin⟩)) _ _ _
  | mem_free => exact memFree_rewrites (hwriteback _) (hwriteback _) _ _
  | mem_unmap => exact memUnmap_rewrites (hwriteback _) _ _
  | mem_realloc _ _ _ _ _ _ _ _ _ _ h =>
      exact memRealloc_rewrites (hwriteback _) (hwriteback _) h
  | mem_remap => exact memRemap_rewrites (hwriteback _) (hwriteback _) _ _ _ _
  | fmap => exact fmap_rewrites (hwriteback _) _ _ _ _
  | make_stack _ _ _ _ _ _ _ h => exact makeStack_rewrites (hwriteback _) h
  | vmto_phys => exact vmtoPhys_rewrites
  | map_identity => exact hop.elim
  | swap_process => exact hop.elim
  | pagefault => exact hop.elim

section Identity

variable {y : Nat} {m m' : WordMemory} {pagetree target : Word} {pages_number : Half}

/-- `map_identity` stores the template of a mapping that lets users in. -/
theorem mapIdentity_flags
    {cache : Cache}
    (h : mapIdentity y m pagetree target pages_number cache.code 1 = some m')
    (a : Word) :
    flags (m' a) = flags (m a) ∨ flags (m' a) = templateFlags .MAP cache ||| 4 := by
  obtain ⟨entry, _, rfl⟩ := mapIdentity_spec h
  rcases storeWords_cases m entry (fun _ => identityTemplate cache.code 1)
    pages_number.toNat a with hkept | ⟨i, _, hstored⟩
  · exact Or.inl (congrArg flags hkept)
  · refine Or.inr ?_
    rw [hstored]
    exact flags_identityTemplate cache

/-- It writes so far behind the root that the root stays as it was. -/
theorem mapIdentity_root
    {cache user : Half} {j : Nat}
    (h : mapIdentity y m pagetree target pages_number cache user = some m')
    (hj : j < 512) :
    m' (wordAt pagetree j) = m (wordAt pagetree j) := by
  obtain ⟨entry, hentry, rfl⟩ := mapIdentity_spec h
  obtain ⟨digits, hdigits, rfl⟩ := phystoOffset_spec hentry
  refine storeWords_of_not_mem fun i hi heq => ?_
  rw [wordAt, wordAt, BitVec.add_assoc, BitVec.add_right_inj] at heq
  have hnat := congrArg BitVec.toNat heq
  have hpages := pages_number.isLt
  simp only [BitVec.toNat_add, BitVec.toNat_ofNat] at hnat
  omega

end Identity

section Swapping

variable {answers : PoolAnswers} {sizeof_ram used_memory : Word} {fuel : Nat}
variable {s s' : SwapState} {mem : WordMemory} {table : RamTable} {pagetree : Word}

/-- The page of an entry was swapped out, or nothing was. -/
def SwappedAt (mem : WordMemory) (a : Word) (flag : Nat) (mem' : WordMemory) : Prop :=
  mem' = mem ∨ bitSet (mem a) flag = true ∧
    ∃ diskpos swap_number,
      mem' = Function.update mem a (exchangeSwap (mem a) diskpos swap_number).1

/-- What a look at an entry does. -/
theorem swapEntry_inl
    (h : swapEntry answers sizeof_ram used_memory fuel s = .inl s') :
    s'.pointer = s.pointer ∧ s'.scaling = s.scaling ∧ s'.i = s.i + 1 ∧
      SwappedAt s.mem (wordAt s.pointer s.i.toNat)
        (if s.scaling = 512 * 512 * 512 then 56 else 7) s'.mem := by
  unfold swapEntry at h
  dsimp only at h
  generalize (if s.scaling = 512 * 512 * 512 then 56 else 7) = flag at h ⊢
  by_cases hspare : ¬ sizeof_ram / used_memory < 2
  · rw [if_pos hspare] at h
    cases h
  · rw [if_neg hspare] at h
    by_cases hflag : ¬ bitSet (s.mem (wordAt s.pointer s.i.toNat)) flag = true
    · rw [if_pos hflag] at h
      cases h
      exact ⟨rfl, rfl, rfl, Or.inl rfl⟩
    · rw [if_neg hflag] at h
      unfold SwapState.swapPage at h
      cases hplace : findPlace answers Pag.LEV4 fuel s.counters with
      | none =>
          rw [hplace] at h
          cases h
      | some found =>
          rw [hplace] at h
          cases h
          exact ⟨rfl, rfl, rfl, Or.inr ⟨not_not.mp hflag, _, _, rfl⟩⟩

/-- A look that ends the scan has changed nothing. -/
theorem swapEntry_inr
    (h : swapEntry answers sizeof_ram used_memory fuel s = .inr (some s')) :
    s' = s := by
  unfold swapEntry at h
  dsimp only at h
  generalize (if s.scaling = 512 * 512 * 512 then 56 else 7) = flag at h
  by_cases hspare : ¬ sizeof_ram / used_memory < 2
  · rw [if_pos hspare] at h
    cases h
    rfl
  · rw [if_neg hspare] at h
    by_cases hflag : ¬ bitSet (s.mem (wordAt s.pointer s.i.toNat)) flag = true
    · rw [if_pos hflag] at h
      cases h
    · rw [if_neg hflag] at h
      cases hpage : s.swapPage answers fuel (wordAt s.pointer s.i.toNat) Pag.LEV4 with
      | none =>
          rw [hpage] at h
          cases h
      | some t =>
          rw [hpage] at h
          cases h

theorem descend_mem (s : SwapState) : s.descend.mem = s.mem := by
  unfold SwapState.descend
  split_ifs <;> rfl

theorem looking_mem (s : SwapState) : s.looking.mem = s.mem := by
  unfold SwapState.looking
  split_ifs
  · exact descend_mem s
  · rfl

/-- A round is the look at the entry that it has come to, unless the last level ends. -/
theorem swapRound_eq
    (h : ¬ s.Leaves) :
    swapRound answers sizeof_ram used_memory fuel s =
      swapEntry answers sizeof_ram used_memory fuel s.looking := by
  unfold swapRound SwapState.looking
  dsimp only
  by_cases hend : s.atEnd
  · have hgoes : ¬ s.descend.scaling < multiplierOf Pag.LEV4 := fun hlast => h ⟨hend, hlast⟩
    rw [if_pos hend, if_pos hend, if_neg hgoes]
  · have hdescend : s.descend = s := if_neg hend
    rw [if_neg hend, if_neg hend, hdescend]

theorem swapRound_of_leaves
    (h : s.Leaves) :
    swapRound answers sizeof_ram used_memory fuel s = .inr (some s.descend) := by
  unfold swapRound
  dsimp only
  rw [if_pos h.1, if_pos h.2]

/-- What a round does that goes on. -/
theorem swapRound_inl
    (h : swapRound answers sizeof_ram used_memory fuel s = .inl s') :
    s'.pointer = s.looking.pointer ∧ s'.scaling = s.looking.scaling ∧ ¬ s.Leaves ∧
      SwappedAt s.mem s.entry s.flag s'.mem := by
  by_cases hleaves : s.Leaves
  · rw [swapRound_of_leaves hleaves] at h
    cases h
  · rw [swapRound_eq hleaves] at h
    obtain ⟨hpointer, hscaling, _, hswapped⟩ := swapEntry_inl h
    rw [looking_mem] at hswapped
    exact ⟨hpointer, hscaling, hleaves, hswapped⟩

/-- The last round changes nothing. -/
theorem swapRound_inr
    (h : swapRound answers sizeof_ram used_memory fuel s = .inr (some s')) :
    s'.mem = s.mem := by
  by_cases hleaves : s.Leaves
  · rw [swapRound_of_leaves hleaves] at h
    cases h
    exact descend_mem s
  · rw [swapRound_eq hleaves] at h
    rw [swapEntry_inr h, looking_mem]

/-- What the rounds that go on keep, a scan keeps. -/
theorem swapProcess_invariant
    {I : SwapState → Prop}
    (hround : ∀ s s', I s → swapRound answers sizeof_ram used_memory fuel s = .inl s' → I s')
    (hstart : I (SwapState.start mem table pagetree))
    (h : swapProcess answers sizeof_ram used_memory fuel mem table pagetree =
      some (some s')) :
    ∃ s, I s ∧ s'.mem = s.mem := by
  have hexit : ∀ s r, I s → swapRound answers sizeof_ram used_memory fuel s = .inr r →
      ∀ t, r = some t → ∃ s, I s ∧ t.mem = s.mem := by
    rintro s r hI hlast t rfl
    exact ⟨s, hI, swapRound_inr hlast⟩
  exact Loops.run_invariant hround hexit hstart h s' rfl

/-- **Swapping leaves the modes of no page**: what it stores has the top bit of the mode. -/
theorem swapProcess_modes
    (h : swapProcess answers sizeof_ram used_memory fuel mem table pagetree =
      some (some s'))
    (a : Word) :
    s'.mem a = mem a ∨ bitSet (s'.mem a) 11 = true := by
  have hround : ∀ s s' : SwapState, (s.mem a = mem a ∨ bitSet (s.mem a) 11 = true) →
      swapRound answers sizeof_ram used_memory fuel s = .inl s' →
      s'.mem a = mem a ∨ bitSet (s'.mem a) 11 = true := by
    intro s s' hI hnext
    obtain ⟨_, _, _, hswapped⟩ := swapRound_inl hnext
    rcases hswapped with hsame | ⟨_, diskpos, swap_number, hstore⟩
    · rwa [hsame]
    · rw [hstore]
      by_cases ha : a = s.entry
      · right
        rw [ha, Function.update_self, bitSet_eq_getLsbD _ (by decide)]
        simp [exchangeSwap]
      · rwa [Function.update_of_ne ha]
  obtain ⟨s, hI, hmem⟩ := swapProcess_invariant hround (Or.inl rfl) h
  rwa [hmem]

/-- Where a scan is: in the first level, or in one of the two behind it. -/
def ScanPlace (pagetree : Word) (s : SwapState) : Prop :=
  s.scaling = 512 ∧ s.pointer = pagetree ∨
    s.scaling = 262144 ∧ s.pointer = wordAt pagetree 262144 ∨
    s.scaling = 134217728 ∧ s.pointer = wordAt pagetree 134479872

/-- It goes on behind what it has scanned. -/
theorem scanPlace_looking
    (h : ScanPlace pagetree s)
    (hgoes : ¬ s.Leaves) :
    ScanPlace pagetree s.looking := by
  by_cases hend : s.atEnd
  · have hdescend : s.descend =
        { s with pointer := wordAt s.pointer s.i.toNat, scaling := s.scaling * 512 } :=
      if_pos hend
    have hlooking : s.looking = { s.descend with i := 0 } := if_pos hend
    have hi : s.i = s.scaling * 512 := hend
    unfold ScanPlace
    rw [hlooking, hdescend]
    dsimp only
    rcases h with ⟨hscaling, hpointer⟩ | ⟨hscaling, hpointer⟩ | ⟨hscaling, _⟩
    · refine Or.inr (Or.inl ⟨?_, ?_⟩)
      · rw [hscaling]
        rfl
      · rw [hi, hscaling, hpointer]
        rfl
    · refine Or.inr (Or.inr ⟨?_, ?_⟩)
      · rw [hscaling]
        rfl
      · rw [hi, hscaling, hpointer, wordAt_wordAt]
        rfl
    · refine absurd ⟨hend, ?_⟩ hgoes
      rw [hdescend]
      dsimp only
      rw [hscaling]
      decide
  · have hlooking : s.looking = s := if_neg hend
    rwa [hlooking]

/-- **Swapping leaves the root alone**, as long as its entries are directories. -/
theorem swapProcess_root
    (h : swapProcess answers sizeof_ram used_memory fuel mem table pagetree =
      some (some s'))
    {j : Nat}
    (hj : j < 512)
    (hdirectory : bitSet (mem (wordAt pagetree j)) 7 = false) :
    s'.mem (wordAt pagetree j) = mem (wordAt pagetree j) := by
  have hround : ∀ s s' : SwapState,
      (ScanPlace pagetree s ∧ s.mem (wordAt pagetree j) = mem (wordAt pagetree j)) →
      swapRound answers sizeof_ram used_memory fuel s = .inl s' →
      ScanPlace pagetree s' ∧ s'.mem (wordAt pagetree j) = mem (wordAt pagetree j) := by
    rintro s s' ⟨hplace, hkept⟩ hnext
    obtain ⟨hpointer, hscaling, hgoes, hswapped⟩ := swapRound_inl hnext
    have hlooking := scanPlace_looking hplace hgoes
    refine ⟨?_, ?_⟩
    · unfold ScanPlace
      rw [hpointer, hscaling]
      exact hlooking
    · rcases hswapped with hsame | ⟨hflag, diskpos, swap_number, hstore⟩
      · rw [hsame, hkept]
      · have hindex := s.looking.i.isLt
        have hne : wordAt pagetree j ≠ s.entry := by
          intro heq
          unfold SwapState.entry at heq
          rcases hlooking with ⟨hlevel, hfrom⟩ | ⟨_, hfrom⟩ | ⟨_, hfrom⟩
          · -- in the first level the flag is the one that no directory has
            have hseven : s.flag = 7 := by
              unfold SwapState.flag
              rw [hlevel]
              decide
            rw [hseven, SwapState.entry, ← heq, hkept, hdirectory] at hflag
            cases hflag
          · rw [hfrom, wordAt_wordAt, wordAt_inj (by omega) (by omega)] at heq
            omega
          · rw [hfrom, wordAt_wordAt, wordAt_inj (by omega) (by omega)] at heq
            omega
        rw [hstore, Function.update_of_ne hne, hkept]
  have hstart : ScanPlace pagetree (SwapState.start mem table pagetree) :=
    Or.inl ⟨rfl, rfl⟩
  obtain ⟨s, ⟨_, hkept⟩, hmem⟩ := swapProcess_invariant hround ⟨hstart, rfl⟩ h
  rw [hmem, hkept]

end Swapping

section Faults

variable {test : PresenceTest} {x : FaultInput} {m : WordMemory} {pagetree vm : Word}

/-- No handler has a page for the entry. -/
structure Unfillable (entry : Word) : Prop where
  reserve : Vfs.faultMode entry ≠ Mode.RESERVE.code.setWidth 64
  file : Vfs.faultMode entry ≠ Mode.FILE.code.setWidth 64
  swapped : hardfaultMode entry ≠ Mode.SWAPPED.code.setWidth 64

theorem flags_toNat (entry : Word) : (flags entry).toNat = entry.toNat % 4096 := by
  have hmask : (0xFFF : Word).toNat = 2 ^ 12 - 1 := rfl
  rw [flags, BitVec.toNat_and, hmask, Nat.and_two_pow_sub_one_eq_mod]

/-- This is a matter of the flags. -/
theorem Unfillable.congr
    {entry entry' : Word}
    (h : Unfillable entry)
    (hflags : flags entry' = flags entry) :
    Unfillable entry' := by
  have hlow : entry'.toNat % 4096 = entry.toNat % 4096 := by
    rw [← flags_toNat, hflags, flags_toNat]
  have hsoft : Vfs.faultMode entry' = Vfs.faultMode entry := by
    rw [← BitVec.toNat_inj, faultMode_toNat, faultMode_toNat, hlow]
  have hhard : hardfaultMode entry' = hardfaultMode entry := by
    rw [← BitVec.toNat_inj, hardfaultMode_toNat, hardfaultMode_toNat, hlow]
  refine ⟨?_, ?_, ?_⟩
  · rw [hsoft]
    exact h.reserve
  · rw [hsoft]
    exact h.file
  · rw [hhard]
    exact h.swapped

/-- The soft handler stores nothing for such an entry. -/
theorem Unfillable.soft
    {entry : Word}
    (h : Unfillable entry)
    (x : FaultInput) (pagetype : Nat) :
    (PageFault.soft (Vfs.softfaultHandler x.fileOf x.fresh entry pagetype)).stored = none := by
  unfold Vfs.softfaultHandler
  dsimp only
  rw [if_neg h.reserve, if_neg h.file]
  split_ifs <;> rfl

/-- Nor does the hard one, which raises a signal. -/
theorem Unfillable.hard
    {entry : Word}
    (h : Unfillable entry)
    (x : FaultInput) (pagetype : Nat) :
    hardfaultHandler x.disks entry x.fresh pagetype = .sigsegv := by
  have hswapped : ¬ swappedOut entry = true := fun hout => h.swapped (eq_of_beq hout)
  exact if_neg hswapped

/-- The entry that a fault is about differs from what was there in its signature. -/
theorem flags_vmtoEntry (a : Word) :
    flags ((vmtoEntry vm m pagetree).1 a) = flags (m a) := by
  rw [← flags_setBit _ (show 12 ≤ 56 by decide) (by decide), vmtoEntry_same vm m pagetree a,
    flags_setBit _ (by decide) (by decide)]

/-- **A fault at such an entry ends without a page**, and leaves the walk's signatures. -/
theorem pagefault_ignored
    (h : Unfillable (m (entryOf vm m pagetree))) :
    (pagefaultHandler test x m pagetree vm).1.stored = none ∧
      (pagefaultHandler test x m pagetree vm).2 = (vmtoEntry vm m pagetree).1 := by
  have hentry : Unfillable ((vmtoEntry vm m pagetree).1 (vmtoEntry vm m pagetree).2) :=
    h.congr (flags_vmtoEntry _)
  have hstored : (if test.present (vmtoEntry vm m pagetree).1 (vmtoEntry vm m pagetree).2 then
      PageFault.soft (Vfs.softfaultHandler x.fileOf x.fresh
        ((vmtoEntry vm m pagetree).1 (vmtoEntry vm m pagetree).2) walkedPagetype)
    else
      PageFault.hard (hardfaultHandler x.disks
        ((vmtoEntry vm m pagetree).1 (vmtoEntry vm m pagetree).2) x.fresh
        walkedPagetype)).stored = none := by
    split_ifs
    · exact hentry.soft x _
    · rw [hentry.hard x]
      rfl
  unfold pagefaultHandler
  dsimp only
  rw [hstored]
  exact ⟨hstored, rfl⟩

/-- Whatever a fault stores, it stores in the entry that it is about. -/
theorem pagefault_elsewhere
    {a : Word}
    (ha : a ≠ entryOf vm m pagetree) :
    flags ((pagefaultHandler test x m pagetree vm).2 a) = flags (m a) := by
  unfold pagefaultHandler
  dsimp only
  generalize (if test.present (vmtoEntry vm m pagetree).1 (vmtoEntry vm m pagetree).2 then
      PageFault.soft (Vfs.softfaultHandler x.fileOf x.fresh
        ((vmtoEntry vm m pagetree).1 (vmtoEntry vm m pagetree).2) walkedPagetype)
    else
      PageFault.hard (hardfaultHandler x.disks
        ((vmtoEntry vm m pagetree).1 (vmtoEntry vm m pagetree).2) x.fresh
        walkedPagetype)) = result
  cases result.stored with
  | none => exact flags_vmtoEntry a
  | some stored =>
      have hentry : a ≠ (vmtoEntry vm m pagetree).2 := ha
      dsimp only
      rw [Function.update_of_ne hentry]
      exact flags_vmtoEntry a

end Faults

end Processes
end BestKernel
