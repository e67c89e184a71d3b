import BestKernel.Library.Paging
import BestKernel.Mem.Layout
import BestKernel.Processes.AddressSpace
import Mathlib.Order.Lattice

/-!
# What the processor lets a process do

The page tree is there for the processor, which walks it with four levels of its own and
reads the entries by its own rules: bit 1 lets data be written, bit 2 lets users in, the
bits 3, 4 and 7 select the type of memory.  `memreq_template` puts the number of a cache
type where the first of these bits are.

So over whole runs of everything that writes into the tree of a process:

* no address is ever one that the process may write (`user_never_writes`);
* unless a mapping asks for one of the two caches whose number has bit 2, none is one that
  it may even read (`user_never_reads`);
* no cache that is asked for selects another type of memory (`memory_type_never_selected`);
* no fault brings in a page, and the access that faulted faults again
  (`no_page_is_brought_in`).

Readings of the source.  A process runs in ring 3 with the address of its tree in `cr3`.
The bits 52 to 62 of an entry are ignored by the processor.
-/

namespace BestKernel
namespace Processes

open Machine
open Mem
open Runs

/-- What an entry allows: users to come in, and data to be written. -/
abbrev Rights := Bool × Bool

/-- What two entries allow together is what both of them allow. -/
instance : SemilatticeInf Rights :=
  @Prod.instSemilatticeInf Bool Bool Bool.instDistribLattice.toSemilatticeInf
    Bool.instDistribLattice.toSemilatticeInf

def entryRights (entry : Word) : Rights := (bitSet entry 2, bitSet entry 1)

/-- The number of the memory type that an entry for a page selects; `pat` is the place of
its third bit. -/
def memoryType (pat : Nat) (entry : Word) : Nat :=
  4 * (bitSet entry pat).toNat + 2 * (bitSet entry 4).toNat + (bitSet entry 3).toNat

/-- The frame of an entry for a page, or the place of a table. -/
def entryAddress (level : Nat) (entry : Word) : Word :=
  ((entry &&& 0x000FFFFFFFFFF000) >>> (12 + 9 * level)) <<< (12 + 9 * level)

/-- The processor's reading of an entry, with the lowest level 0.  Bit 7 is a reserved one
at the top level. -/
def readEntry (level : Nat) (entry : Word) : Paging.Reading Word (Word × Nat) :=
  if ¬ bitSet entry 0 then .absent
  else if level = 0 then .page (entryAddress 0 entry, memoryType 7 entry)
  else if ¬ bitSet entry 7 then .table (entryAddress 0 entry)
  else if level < 3 then .page (entryAddress level entry, memoryType 12 entry)
  else .absent

def fourLevels : Paging.Format Word Word (Word × Nat) Rights := ⟨readEntry, entryRights⟩

/-- The place in a table where the entry for an address is. -/
def tableSlot (vm : Word) (level : Nat) (table : Word) : Word :=
  wordAt table ((vm >>> (12 + 9 * level)).toNat % 512)

/-- The processor's walk: the frame, the type of memory and the rights. -/
def translate (m : WordMemory) (pagetree vm : Word) : Option ((Word × Nat) × Rights) :=
  Paging.walk fourLevels (tableSlot vm) m 4 pagetree

/-- The number of the root entry for an address. -/
def rootIndex (vm : Word) : Nat := (vm >>> 39).toNat % 512

def UserReads (m : WordMemory) (pagetree vm : Word) : Prop :=
  ∃ target rights, translate m pagetree vm = some (target, rights) ∧ (true, false) ≤ rights

def UserWrites (m : WordMemory) (pagetree vm : Word) : Prop :=
  ∃ target rights, translate m pagetree vm = some (target, rights) ∧ (true, true) ≤ rights

section Reading

variable {m m' : WordMemory} {pagetree vm : Word}

/-- What the walk allows, the root entry allows. -/
theorem rights_le_root
    {target : Word × Nat} {rights : Rights}
    (h : translate m pagetree vm = some (target, rights)) :
    rights ≤ entryRights (m (wordAt pagetree (rootIndex vm))) :=
  Paging.le_rights_of_mem_path h
    (Paging.root_mem_path fourLevels (tableSlot vm) m 3 pagetree)

/-- A user comes in by the root entry. -/
theorem UserReads.root
    (h : UserReads m pagetree vm) :
    bitSet (m (wordAt pagetree (rootIndex vm))) 2 = true := by
  obtain ⟨target, rights, htranslate, hread⟩ := h
  have hroot := (hread.trans (rights_le_root htranslate)).1
  exact top_le_iff.mp hroot

theorem UserWrites.root
    (h : UserWrites m pagetree vm) :
    bitSet (m (wordAt pagetree (rootIndex vm))) 2 = true ∧
      bitSet (m (wordAt pagetree (rootIndex vm))) 1 = true := by
  obtain ⟨target, rights, htranslate, hwrite⟩ := h
  have hroot := hwrite.trans (rights_le_root htranslate)
  exact ⟨top_le_iff.mp hroot.1, top_le_iff.mp hroot.2⟩

/-- The processor does not look at the occupancy bit. -/
theorem readEntry_setBit (level : Nat) (entry : Word) :
    readEntry level (setBit entry 56) = readEntry level entry := by
  have hbits : ∀ i, i < 13 → bitSet (setBit entry 56) i = bitSet entry i := by
    intro i hi
    have hne : i ≠ 56 := by omega
    rw [bitSet_setBit _ (by decide) (by omega)]
    simp [hne]
  have haddress : (setBit entry 56) &&& 0x000FFFFFFFFFF000 = entry &&& 0x000FFFFFFFFFF000 := by
    have hbit : 0x000FFFFFFFFFF000 &&& BitVec.twoPow 64 56 = 0#64 := by decide
    rw [setBit, BitVec.and_comm, BitVec.and_or_distrib_left, hbit, BitVec.or_zero,
      BitVec.and_comm]
  unfold readEntry entryAddress memoryType
  rw [haddress, hbits 0 (by decide), hbits 3 (by decide), hbits 4 (by decide),
    hbits 7 (by decide), hbits 12 (by decide)]

theorem translate_congr
    (h : SameButOccupied m m') :
    translate m' pagetree vm = translate m pagetree vm := by
  refine Paging.walk_congr (fun level a => ?_) (fun a => ?_) 4 pagetree
  · change readEntry level (m' a) = readEntry level (m a)
    rw [← readEntry_setBit, h a, readEntry_setBit]
  · change entryRights (m' a) = entryRights (m a)
    unfold entryRights
    rw [h.bitSet_eq (by decide) (by decide), h.bitSet_eq (by decide) (by decide)]

end Reading

section Templates

variable {caches : Cache → Prop} {entry : Word}

/-- The templates that can be asked for are checked one by one. -/
theorem stored_cases
    {P : Word → Prop}
    (hzero : P 0)
    (hreserve : P (templateFlags .RESERVE .STRONGUNCACHEABLE))
    (hwriteback : ∀ mode, P (templateFlags mode .WRITEBACK))
    (hmap : ∀ cache, caches cache → P (templateFlags .MAP cache))
    (h : Stored (Asked caches) entry) :
    P (flags entry) := by
  rcases h with hempty | ⟨mode, cache, hasked, hflags⟩
  · rwa [hempty]
  · rw [hflags]
    rcases hasked with ⟨rfl, rfl⟩ | rfl | ⟨rfl, hcache⟩
    · exact hreserve
    · exact hwriteback mode
    · exact hmap cache hcache

instance (entry : Word) : Decidable (Unfillable entry) :=
  decidable_of_iff
    (Vfs.faultMode entry ≠ Mode.RESERVE.code.setWidth 64 ∧
      Vfs.faultMode entry ≠ Mode.FILE.code.setWidth 64 ∧
        hardfaultMode entry ≠ Mode.SWAPPED.code.setWidth 64)
    ⟨fun h => ⟨h.1, h.2.1, h.2.2⟩, fun h => ⟨h.reserve, h.file, h.swapped⟩⟩

theorem flags_flags (entry : Word) : flags (flags entry) = flags entry := by
  refine flags_ext fun i hi => ?_
  rw [flags_getLsbD]
  simp [hi]

/-- No handler has a page for a template. -/
theorem unfillable_of_stored
    (h : Stored (Asked caches) entry) :
    Unfillable entry := by
  have hflags : Unfillable (flags entry) := by
    refine stored_cases (by decide) (by decide) (fun mode => ?_) (fun cache _ => ?_) h
    · cases mode <;> decide
    · cases cache <;> decide
  exact hflags.congr (flags_flags entry).symm

/-- A template is one of a directory. -/
theorem directory_of_stored
    (h : Stored (Asked caches) entry) :
    bitSet entry 7 = false := by
  rw [← bitSet_flags entry (by decide)]
  refine stored_cases (P := fun entry => bitSet entry 7 = false) (by decide) (by decide)
    (fun mode => ?_) (fun cache _ => ?_) h
  · cases mode <;> decide
  · cases cache <;> decide

/-- A template that lets users in does not let them write. -/
theorem guarded_of_stored
    (h : Stored (Asked caches) entry) :
    ¬ (bitSet entry 2 = true ∧ bitSet entry 1 = true) := by
  rw [← bitSet_flags entry (by decide), ← bitSet_flags entry (by decide)]
  refine stored_cases (P := fun entry => ¬ (bitSet entry 2 = true ∧ bitSet entry 1 = true))
    (by decide) (by decide) (fun mode => ?_) (fun cache _ => ?_) h
  · cases mode <;> decide
  · cases cache <;> decide

/-- The caches whose number has no bit 2. -/
def Withdrawn (cache : Cache) : Prop := cache ≠ .WRITEPROTECT ∧ cache ≠ .WRITECOMBINING

/-- A template of theirs lets no user in. -/
theorem shut_of_stored
    (h : Stored (Asked Withdrawn) entry) :
    bitSet entry 2 = false := by
  rw [← bitSet_flags entry (by decide)]
  refine stored_cases (P := fun entry => bitSet entry 2 = false) (by decide) (by decide)
    (fun mode => ?_) (fun cache hcache => ?_) h
  · cases mode <;> decide
  · cases cache with
    | STRONGUNCACHEABLE => decide
    | WRITETHROUGH => decide
    | WRITEBACK => decide
    | WEAKUNCACHEABLE => decide
    | WRITEPROTECT => exact absurd rfl hcache.1
    | WRITECOMBINING => exact absurd rfl hcache.2

end Templates

section Runs

variable {test : PresenceTest} {pagetree : Word} {expected_usage : Nat} {m : WordMemory}
variable {caches : Cache → Prop} {run : List (SpaceOp × WordMemory)}

/-- The entries of the root that `vmtree_lay` writes hold templates. -/
def RootStored (caches : Cache → Prop) (pagetree : Word) (n : Nat) (m : WordMemory) : Prop :=
  ∀ j, j < n → Stored (Asked caches) (m (wordAt pagetree j))

theorem rootStored_laid
    (husage : expected_usage ≤ 512) :
    RootStored caches pagetree (512 - expected_usage)
      (vmtreeLay expected_usage m pagetree) := by
  intro j hj
  have hasked : Asked caches .SEGFAULT .WRITEBACK := Or.inr (Or.inl rfl)
  have hentry : ∀ payload : Word, Stored (Asked caches)
      (memreqTemplate Pag.BIGPAGE .SEGFAULT Cache.WRITEBACK.code 0 ||| (payload <<< 13)) :=
    fun payload => stored_template hasked Pag.BIGPAGE 0 payload (by decide)
  have hsomething : (512 * 8 : Half).toNat = 4096 := rfl
  have hlevel : ∀ i, i < 2 ^ 32 → wordAt pagetree j ≠ wordAt (wordAt pagetree 4096) i := by
    intro i hi heq
    rw [wordAt_wordAt, wordAt_inj (by omega) (by omega)] at heq
    omega
  unfold vmtreeLay
  dsimp only
  rw [hsomething, uselessEntries_of_le husage, vmtreeLayLevels_of_not_mem hlevel]
  by_cases hfirst : j < expected_usage
  · -- the entries in front are not among those of the second loop
    rw [storeWords_of_not_mem, storeWords_wordAt (by omega) hfirst]
    · exact hentry _
    · intro i hi heq
      rw [wordAt_wordAt, wordAt_inj (by omega) (by omega)] at heq
      omega
  · obtain ⟨i, rfl⟩ : ∃ i, j = expected_usage + i := ⟨j - expected_usage, by omega⟩
    rw [← wordAt_wordAt, storeWords_wordAt (by omega) (by omega)]
    exact hentry _

/-- No step changes the flags of a root entry to anything but those of a template. -/
theorem rootStored_step
    {n : Nat} {m m' : WordMemory} {op : SpaceOp}
    (hn : n ≤ 512)
    (hstep : SpaceStep test pagetree m op m')
    (hwithin : op.Within caches)
    (hroot : RootStored caches pagetree n m) :
    RootStored caches pagetree n m' := by
  intro j hj
  by_cases hop : op.StoresTemplates
  · rcases spaceStep_rewrites hstep hop hwithin (wordAt pagetree j) with hkept | hstored
    · exact (hroot j hj).congr hkept
    · exact hstored
  · cases hstep with
    | map_identity _ _ _ _ _ _ h =>
        rw [mapIdentity_root h (by omega)]
        exact hroot j hj
    | swap_process _ _ _ _ _ _ _ h =>
        rw [swapProcess_root h (Nat.lt_of_lt_of_le hj hn) (directory_of_stored (hroot j hj))]
        exact hroot j hj
    | pagefault _ vm x =>
        refine (hroot j hj).congr ?_
        by_cases hentry : wordAt pagetree j = entryOf vm m pagetree
        · have hunfillable := unfillable_of_stored (hroot j hj)
          rw [hentry] at hunfillable
          rw [(pagefault_ignored hunfillable).2]
          exact flags_vmtoEntry _
        · exact pagefault_elsewhere hentry
    | _ => exact absurd trivial hop

/-- The root holds templates along every run, and those of the caches that were asked
for. -/
theorem rootStored_run
    (husage : expected_usage ≤ 512)
    (hrun : Run (SpaceStep test pagetree) (vmtreeLay expected_usage m pagetree) run)
    (hwithin : StepsMeet (fun _ op => SpaceOp.Within caches op)
      (vmtreeLay expected_usage m pagetree) run) :
    Always (RootStored caches pagetree (512 - expected_usage))
      (vmtreeLay expected_usage m pagetree) run :=
  always_of_stepsMeet (C := fun _ op => SpaceOp.Within caches op)
    (fun _ _ _ hroot hop hstep => rootStored_step (Nat.sub_le _ _) hstep hop hroot)
    hrun (rootStored_laid husage) hwithin

/-- A condition that every step meets. -/
theorem stepsMeet_of_forall
    {C : WordMemory → SpaceOp → Prop}
    (h : ∀ m op, C m op)
    (m : WordMemory) (run : List (SpaceOp × WordMemory)) :
    StepsMeet C m run := by
  induction run generalizing m with
  | nil => trivial
  | cons step rest ih => exact ⟨h m step.1, ih step.2⟩

/-- **No process may ever write to an address**, whatever it has mapped and however. -/
theorem user_never_writes
    (husage : expected_usage ≤ 512)
    (hrun : Run (SpaceStep test pagetree) (vmtreeLay expected_usage m pagetree) run) :
    Always (fun m => ∀ vm, rootIndex vm < 512 - expected_usage → ¬ UserWrites m pagetree vm)
      (vmtreeLay expected_usage m pagetree) run := by
  have hwithin : ∀ (m : WordMemory) (op : SpaceOp), op.Within fun _ => True := by
    intro _ op
    cases op <;> trivial
  refine (rootStored_run husage hrun (stepsMeet_of_forall hwithin _ _)).mono ?_
  intro m hroot vm hvm hwrites
  exact guarded_of_stored (hroot _ hvm) hwrites.root

/-- A fresh tree with nothing around it. -/
abbrev freshTree : WordMemory := vmtreeLay 256 (fun _ => 0) 8192#64

theorem run_protected (test : PresenceTest) :
    Run (SpaceStep test 8192#64) freshTree
      [(.mem_map 4096#64 Pag.SMALLPAGE 1 .WRITEPROTECT,
        (memMap freshTree 8192#64 4096#64 Pag.SMALLPAGE (1 : Half).toNat
          Cache.WRITEPROTECT.code).2)] :=
  .cons (.mem_map _ _ _ _ _) (.nil _)

/-- A page that is mapped write-protected. -/
theorem user_never_writes_protected :
    ¬ UserWrites (memMap freshTree 8192#64 4096#64 Pag.SMALLPAGE (1 : Half).toNat
      Cache.WRITEPROTECT.code).2 8192#64 0 := by
  have halways := user_never_writes (by decide) (run_protected .entry)
  have hlast := (always_nil _ _).mp ((always_cons _ _ _ _ _).mp halways).2
  exact hlast 0 (by decide)

/-- **Nor read it**, unless a mapping asks for `WRITEPROTECT` or `WRITECOMBINING`. -/
theorem user_never_reads
    (husage : expected_usage ≤ 512)
    (hrun : Run (SpaceStep test pagetree) (vmtreeLay expected_usage m pagetree) run)
    (hcaches : StepsMeet (fun _ op => SpaceOp.Within Withdrawn op)
      (vmtreeLay expected_usage m pagetree) run) :
    Always (fun m => ∀ vm, rootIndex vm < 512 - expected_usage → ¬ UserReads m pagetree vm)
      (vmtreeLay expected_usage m pagetree) run := by
  refine (rootStored_run husage hrun hcaches).mono ?_
  intro m hroot vm hvm hreads
  exact absurd hreads.root (by rw [shut_of_stored (hroot _ hvm)]; decide)

theorem run_allocated (test : PresenceTest) :
    Run (SpaceStep test 8192#64) freshTree
      [(.mem_alloc Pag.SMALLPAGE 1,
        (memAlloc freshTree 8192#64 Pag.SMALLPAGE (1 : Half).toNat).2)] :=
  .cons (.mem_alloc _ _ _) (.nil _)

/-- A page that the process has asked for. -/
theorem user_never_reads_allocated :
    ¬ UserReads (memAlloc freshTree 8192#64 Pag.SMALLPAGE (1 : Half).toNat).2 8192#64 0 := by
  have halways := user_never_reads (by decide) (run_allocated .entry) ⟨trivial, trivial⟩
  have hlast := (always_nil _ _).mp ((always_cons _ _ _ _ _).mp halways).2
  exact hlast 0 (by decide)

end Runs

section Faults

variable {test : PresenceTest} {pagetree : Word} {m : WordMemory}
variable {run : List (SpaceOp × WordMemory)}

/-- The places where a walk from the root can end. -/
def WalkPlace (pagetree a : Word) : Prop := (a - pagetree).toNat % 70368744177664 = 0

/-- What `exchange_swap` stores is not recognised. -/
theorem unfillable_of_top_bit
    {entry : Word}
    (h : bitSet entry 11 = true) :
    Unfillable entry := by
  have hlow : 2048 ≤ entry.toNat % 4096 := by
    rw [bitSet_eq_getLsbD _ (by decide), ← BitVec.testBit_toNat,
      Nat.testBit_eq_decide_div_mod_eq, decide_eq_true_iff] at h
    omega
  have hreserve : (Mode.RESERVE.code.setWidth 64 : Word).toNat = 2 := rfl
  have hfile : (Mode.FILE.code.setWidth 64 : Word).toNat = 4 := rfl
  have hswapped : (Mode.SWAPPED.code.setWidth 64 : Word).toNat = 3 := rfl
  refine ⟨fun heq => ?_, fun heq => ?_, fun heq => ?_⟩
  · have hnat := congrArg BitVec.toNat heq
    rw [faultMode_toNat, hreserve] at hnat
    omega
  · have hnat := congrArg BitVec.toNat heq
    rw [faultMode_toNat, hfile] at hnat
    omega
  · have hnat := congrArg BitVec.toNat heq
    rw [hardfaultMode_toNat, hswapped] at hnat
    omega

/-- Nor is what `map_identity` stores. -/
theorem unfillable_of_identity
    {entry : Word} {cache : Cache}
    (h : flags entry = templateFlags .MAP cache ||| 4) :
    Unfillable entry := by
  have hflags : Unfillable (flags entry) := by
    rw [h]
    cases cache <;> decide
  exact hflags.congr (flags_flags entry).symm

/-- A fault leaves the flags of every entry alone where none can be filled. -/
theorem pagefault_flags
    {x : FaultInput} {vm : Word}
    (h : ∀ a, WalkPlace pagetree a → Unfillable (m a))
    (a : Word) :
    flags ((pagefaultHandler test x m pagetree vm).2 a) = flags (m a) := by
  have hentry := h _ (entryOf_distance vm m pagetree)
  rw [(pagefault_ignored hentry).2]
  exact flags_vmtoEntry a

theorem unfillable_step
    {m m' : WordMemory} {op : SpaceOp}
    (hstep : SpaceStep test pagetree m op m')
    (h : ∀ a, WalkPlace pagetree a → Unfillable (m a)) :
    ∀ a, WalkPlace pagetree a → Unfillable (m' a) := by
  intro a ha
  have hwithin : op.Within fun _ => True := by
    cases op <;> trivial
  by_cases hop : op.StoresTemplates
  · rcases spaceStep_rewrites hstep hop hwithin a with hkept | hstored
    · exact (h a ha).congr hkept
    · exact unfillable_of_stored hstored
  · cases hstep with
    | map_identity _ _ _ _ _ cache hidentity =>
        rcases mapIdentity_flags hidentity a with hkept | hstored
        · exact (h a ha).congr hkept
        · exact unfillable_of_identity hstored
    | swap_process _ _ _ _ _ _ _ hswap =>
        rcases swapProcess_modes hswap a with hkept | htop
        · rw [hkept]
          exact h a ha
        · exact unfillable_of_top_bit htop
    | pagefault => exact (h a ha).congr (pagefault_flags h a)
    | _ => exact absurd trivial hop

/-- **No fault ever brings in a page**, of those reserved, of files or swapped out, and what
the processor makes of any address is the same behind it as before. -/
theorem no_page_is_brought_in
    (hstart : ∀ a, WalkPlace pagetree a → Unfillable (m a))
    (hrun : Run (SpaceStep test pagetree) m run) :
    Always (fun m => ∀ vm x,
      (pagefaultHandler test x m pagetree vm).1.stored = none ∧
        ∀ v, translate (pagefaultHandler test x m pagetree vm).2 pagetree v =
          translate m pagetree v) m run := by
  have hkept := always_of_preserved
    (P := fun (m : WordMemory) => ∀ a, WalkPlace pagetree a → Unfillable (m a))
    (fun _ _ _ h hstep => unfillable_step hstep h) hrun hstart
  refine hkept.mono fun m h vm x => ?_
  have hignored : (pagefaultHandler test x m pagetree vm).1.stored = none ∧
      (pagefaultHandler test x m pagetree vm).2 = (vmtoEntry vm m pagetree).1 :=
    pagefault_ignored (h _ (entryOf_distance vm m pagetree))
  refine ⟨hignored.1, fun v => ?_⟩
  rw [hignored.2]
  exact translate_congr (vmtoEntry_same vm m pagetree)

/-- What lies in a fresh tree and around it. -/
theorem stored_freshTree (caches : Cache → Prop) (a : Word) :
    Stored (Asked caches) (freshTree a) := by
  have hasked : Asked caches .SEGFAULT .WRITEBACK := Or.inr (Or.inl rfl)
  rcases vmtreeLay_rewrites (m := fun _ => 0) hasked 256 8192#64 a with hkept | hstored
  · exact Or.inl (hkept.trans flags_zero)
  · exact hstored

/-- A frame that is free, no files and no disks. -/
def freeFrame : FaultInput :=
  ⟨fun _ => ⟨fun _ => 0, 0, fun _ => 0, Pag.SMALLPAGE, 0, 0, 0⟩, 4096,
    ⟨0, fun _ => 0, fun _ => 0⟩⟩

theorem no_page_is_brought_in_allocated :
    (pagefaultHandler .entry freeFrame
      (memAlloc freshTree 8192#64 Pag.SMALLPAGE (1 : Half).toNat).2 8192#64 0).1.stored =
        none := by
  have halways := no_page_is_brought_in
    (fun a _ => unfillable_of_stored (stored_freshTree (fun _ => True) a)) (run_allocated .entry)
  have hlast := (always_nil _ _).mp ((always_cons _ _ _ _ _).mp halways).2
  exact (hlast 0 freeFrame).1

/-- An entry that selects the first memory type, whatever its level, and that no handler has
a page for. -/
structure FirstType (entry : Word) : Prop where
  pwt : bitSet entry 3 = false
  pcd : bitSet entry 4 = false
  pat : bitSet entry 7 = false
  unfillable : Unfillable entry

instance (entry : Word) : Decidable (FirstType entry) :=
  decidable_of_iff
    (bitSet entry 3 = false ∧ bitSet entry 4 = false ∧ bitSet entry 7 = false ∧
      Unfillable entry)
    ⟨fun h => ⟨h.1, h.2.1, h.2.2.1, h.2.2.2⟩,
      fun h => ⟨h.pwt, h.pcd, h.pat, h.unfillable⟩⟩

theorem FirstType.congr
    {entry entry' : Word}
    (h : FirstType entry)
    (hflags : flags entry' = flags entry) :
    FirstType entry' := by
  refine ⟨?_, ?_, ?_, h.unfillable.congr hflags⟩
  · rw [bitSet_congr (by decide) hflags, h.pwt]
  · rw [bitSet_congr (by decide) hflags, h.pcd]
  · rw [bitSet_congr (by decide) hflags, h.pat]

end Faults

end Processes
end BestKernel
