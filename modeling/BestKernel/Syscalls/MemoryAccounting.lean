import BestKernel.Mem.Regions
import Mathlib.Data.Multiset.AddSub

/-!
# The memory that a process is charged for

`SYS_MALLOC` and `SYS_FREE` keep `used_memory` of a process in small pages.
`Charged` says that it is the number of small pages allocated, and `CallExact`
that a call which fails charges nothing, that nothing underflows and that the
product of the number of pages and their size fits into its 32 bits.

Neither call looks at what the allocator did.  `SYS_MALLOC` compares with -1, and
`mem_alloc` gives 0 for a failure; `mem_free` returns nothing at all.  And from 4
big pages on the product does not fit, while the guards let up to 512 through.
`memory_charged_iff` says which runs are good.

Readings of the source.  What `mem_alloc` has found is what it returns.  Pages
allocated twice count twice, and a free takes one of each page off.
-/

namespace BestKernel
namespace Syscalls

open Machine Mem Runs

/-- The page trees, the charge, and the small pages that the process has been
given and has not freed, which are not part of the source. -/
structure ProcessMemory where
  words : WordMemory
  used_memory : Half
  allocated : Multiset Nat

section Calls

variable (vm : Word) (pages_number pagetype : Half)

/-- The guards of both calls. -/
def refusesPages : Bool :=
  pagetype < 1 ∨ pagetype > 3 ∨ pages_number > 512

/-- `pages_number * get_multi_from_pagetype(pagetype) / get_multi_from_pagetype(pag.SMALLPAGE)` -/
def chargedPages : Half :=
  pages_number * multiplierOf pagetype.toNat / multiplierOf Pag.SMALLPAGE

/-- How many small pages a region has. -/
def smallPages : Nat :=
  pages_number.toNat * (getMultiFromPagetype pagetype.toNat / 4096)

/-- The small pages of a region. -/
def regionPages : Multiset Nat :=
  List.range' (vm.toNat / 4096) (smallPages pages_number pagetype)

variable (pagetree : Word) (s : ProcessMemory)

/-- `SYS_MALLOC`: what it returns, and the process. -/
def sysMalloc : Word × ProcessMemory :=
  if refusesPages pages_number pagetype then (1, s)
  else
    let (found, words) := memAlloc s.words pagetree pagetype.toNat pages_number.toNat
    let insertion := fetchedPointer found
    let allocated :=
      match found with
      | some vm => s.allocated + regionPages vm pages_number pagetype
      | none => s.allocated
    let s := { s with words := words, allocated := allocated }
    if insertion = -1 then (2, s)
    else (insertion,
      { s with used_memory := s.used_memory + chargedPages pages_number pagetype })

/-- `SYS_FREE`. -/
def sysFree : Word × ProcessMemory :=
  if refusesPages pages_number pagetype then (1, s)
  else
    let (freed, _, words) := memFree s.words pagetree vm pages_number.toNat pagetype.toNat
    let allocated :=
      if freed then s.allocated - regionPages vm pages_number pagetype else s.allocated
    (0, { words := words
          used_memory := s.used_memory - chargedPages pages_number pagetype
          allocated := allocated })

end Calls

inductive MemoryOp where
  | malloc (pages_number pagetype : Half)
  | free (vm : Word) (pages_number pagetype : Half)

def MemoryOp.pages_number : MemoryOp → Half
  | .malloc pages_number _ => pages_number
  | .free _ pages_number _ => pages_number

def MemoryOp.pagetype : MemoryOp → Half
  | .malloc _ pagetype => pagetype
  | .free _ _ pagetype => pagetype

section Specification

variable (pagetree : Word) (s : ProcessMemory) (op : MemoryOp) (s' : ProcessMemory)

def MemoryStep : Prop :=
  match op with
  | .malloc pages_number pagetype => s' = (sysMalloc pages_number pagetype pagetree s).2
  | .free vm pages_number pagetype => s' = (sysFree vm pages_number pagetype pagetree s).2

/-- The guards refuse the arguments. -/
def MemoryOp.Refused : Prop := refusesPages op.pages_number op.pagetype = true

instance : Decidable op.Refused :=
  inferInstanceAs (Decidable (refusesPages op.pages_number op.pagetype = true))

/-- The allocator does what it is asked for. -/
def Served : Prop :=
  match op with
  | .malloc pages_number pagetype =>
      (vmtreeFetch pagetree s.words pages_number.toNat pagetype.toNat).1 ≠ none
  | .free vm pages_number pagetype =>
      (memFree s.words pagetree vm pages_number.toNat pagetype.toNat).1 = true

/-- The number of pages times their size fits. -/
def MemoryOp.Fits : Prop :=
  op.pages_number.toNat * getMultiFromPagetype op.pagetype.toNat < 2 ^ 32

/-- **The charge is the number of small pages allocated.** -/
def Charged : Prop := s.used_memory.toNat = Multiset.card s.allocated

/-- What a call owes besides. -/
structure CallExact : Prop where
  unchanged : op.Refused ∨ ¬ Served pagetree s op → s'.used_memory = s.used_memory
  fits : ¬ op.Refused → op.Fits
  covered : ¬ op.Refused → ∀ vm pages_number pagetype, op = .free vm pages_number pagetype →
    (chargedPages pages_number pagetype).toNat ≤ s.used_memory.toNat

/-- The condition on a call, in the state before it. -/
def ChargeSafe : Prop :=
  op.Refused ∨ op.Fits ∧ (op.pages_number = 0 ∨ Served pagetree s op ∧
    match op with
    | .malloc pages_number pagetype =>
        s.used_memory.toNat + smallPages pages_number pagetype < 2 ^ 32
    | .free vm pages_number pagetype =>
        regionPages vm pages_number pagetype ≤ s.allocated)

end Specification

section Pages

variable {vm : Word} {pages_number pagetype : Half}

theorem card_regionPages :
    Multiset.card (regionPages vm pages_number pagetype) = smallPages pages_number pagetype := by
  simp [regionPages]

theorem getMulti_lt (pagetype : Nat) : getMultiFromPagetype pagetype < 2 ^ 32 := by
  unfold getMultiFromPagetype
  split_ifs <;> decide

theorem dvd_getMulti (pagetype : Nat) : 4096 ∣ getMultiFromPagetype pagetype := by
  unfold getMultiFromPagetype
  split_ifs <;> decide

/-- A product that fits is charged in full. -/
theorem chargedPages_toNat
    (hfits : pages_number.toNat * getMultiFromPagetype pagetype.toNat < 2 ^ 32) :
    (chargedPages pages_number pagetype).toNat = smallPages pages_number pagetype := by
  have hsmall : (multiplierOf Pag.SMALLPAGE).toNat = 4096 := by decide
  rw [chargedPages, BitVec.toNat_udiv, hsmall, BitVec.toNat_mul, multiplierOf,
    BitVec.toNat_ofNat, Nat.mod_eq_of_lt (getMulti_lt _), Nat.mod_eq_of_lt hfits, smallPages,
    Nat.mul_div_assoc _ (dvd_getMulti _)]

theorem smallPages_eq_zero_iff :
    smallPages pages_number pagetype = 0 ↔ pages_number = 0 := by
  have hpos : 0 < getMultiFromPagetype pagetype.toNat / 4096 :=
    Nat.div_pos (Nat.le_trans (by decide) (getMultiFromPagetype_ge _)) (by decide)
  have hzero : (0 : Half).toNat = 0 := rfl
  rw [smallPages, Nat.mul_eq_zero, ← BitVec.toNat_inj, hzero]
  omega

/-- What is taken off is all there is of it exactly when it was there. -/
theorem card_sub_add_iff (held pages : Multiset Nat) :
    Multiset.card (held - pages) + Multiset.card pages = Multiset.card held ↔
      pages ≤ held := by
  constructor
  · intro hcard
    have hle : held ≤ held - pages + pages := Multiset.le_sub_add
    have heq := Multiset.eq_of_le_of_card_le hle (by rw [Multiset.card_add]; omega)
    rw [heq]
    exact Multiset.le_add_left _ _
  · intro hle
    rw [Multiset.card_sub hle]
    exact Nat.sub_add_cancel (Multiset.card_le_card hle)

end Pages

section Steps

variable {pagetree : Word} {s s' : ProcessMemory} {op : MemoryOp} {vm : Word}
  {pages_number pagetype : Half}

/-- What is allocated by a call that is let through. -/
def allocatedBy (pagetree : Word) (s : ProcessMemory) (pages_number pagetype : Half) :
    Multiset Nat :=
  match (vmtreeFetch pagetree s.words pages_number.toNat pagetype.toNat).1 with
  | some vm => s.allocated + regionPages vm pages_number pagetype
  | none => s.allocated

/-- `SYS_MALLOC` charges whatever the allocator does. -/
theorem sysMalloc_charges
    (hpasses : refusesPages pages_number pagetype = false) :
    (sysMalloc pages_number pagetype pagetree s).2.used_memory =
        s.used_memory + chargedPages pages_number pagetype ∧
      (sysMalloc pages_number pagetype pagetree s).2.allocated =
        allocatedBy pagetree s pages_number pagetype := by
  have hfound := memAlloc_fst pagetree s.words pagetype.toNat pages_number.toNat
  have hnull : fetchedPointer
      (memAlloc s.words pagetree pagetype.toNat pages_number.toNat).1 = 0 := by
    rw [hfound, fetchedPointer_vmtreeFetch]
  rw [sysMalloc, hpasses, if_neg Bool.false_ne_true]
  dsimp only
  rw [hnull, if_neg (by decide), allocatedBy, ← hfound]
  exact ⟨rfl, rfl⟩

theorem card_allocatedBy :
    Multiset.card (allocatedBy pagetree s pages_number pagetype) =
      Multiset.card s.allocated +
        if (vmtreeFetch pagetree s.words pages_number.toNat pagetype.toNat).1 = none then 0
        else smallPages pages_number pagetype := by
  rw [allocatedBy]
  cases (vmtreeFetch pagetree s.words pages_number.toNat pagetype.toNat).1 with
  | none => rw [if_pos rfl]; rfl
  | some vm => rw [if_neg (Option.some_ne_none vm), Multiset.card_add, card_regionPages]

/-- `SYS_FREE` discharges whatever `mem_free` does. -/
theorem sysFree_charges
    (hpasses : refusesPages pages_number pagetype = false) :
    (sysFree vm pages_number pagetype pagetree s).2.used_memory =
        s.used_memory - chargedPages pages_number pagetype ∧
      (sysFree vm pages_number pagetype pagetree s).2.allocated =
        if (memFree s.words pagetree vm pages_number.toNat pagetype.toNat).1 = true
        then s.allocated - regionPages vm pages_number pagetype else s.allocated := by
  rw [sysFree, hpasses, if_neg Bool.false_ne_true]
  exact ⟨rfl, rfl⟩

/-- A sum that stays in 32 bits. -/
theorem toNat_add_eq_iff
    {x y : Half} {n : Nat}
    (hn : n < 2 ^ 32) :
    (x + y).toNat = x.toNat + n ↔ y.toNat = n ∧ x.toNat + n < 2 ^ 32 := by
  have hx := x.isLt
  have hy := y.isLt
  rw [BitVec.toNat_add]
  omega

theorem smallPages_lt
    (hfits : pages_number.toNat * getMultiFromPagetype pagetype.toNat < 2 ^ 32) :
    smallPages pages_number pagetype < 2 ^ 32 := by
  rw [← chargedPages_toNat hfits]
  exact BitVec.isLt _

/-- No pages, no charge. -/
theorem chargedPages_eq_zero_iff
    (hfits : pages_number.toNat * getMultiFromPagetype pagetype.toNat < 2 ^ 32) :
    chargedPages pages_number pagetype = 0 ↔ pages_number = 0 := by
  have hzero : (0 : Half).toNat = 0 := rfl
  rw [← BitVec.toNat_inj, chargedPages_toNat hfits, hzero]
  exact smallPages_eq_zero_iff

/-- A refused call does all that is owed. -/
theorem refused_exact
    (hrefused : op.Refused)
    (hcharged : Charged s)
    (hsame : s' = s) :
    Charged s' ∧ CallExact pagetree s op s' := by
  subst hsame
  exact ⟨hcharged, fun _ => rfl, fun h => absurd hrefused h, fun h => absurd hrefused h⟩

/-- What a call that is let through owes, with the guards gone. -/
theorem callExact_iff
    (hpasses : ¬ op.Refused) :
    CallExact pagetree s op s' ↔
      op.Fits ∧ (¬ Served pagetree s op → s'.used_memory = s.used_memory) ∧
        ∀ vm pages_number pagetype, op = .free vm pages_number pagetype →
          (chargedPages pages_number pagetype).toNat ≤ s.used_memory.toNat := by
  constructor
  · rintro ⟨hunchanged, hfits, hcovered⟩
    exact ⟨hfits hpasses, fun hfails => hunchanged (.inr hfails), hcovered hpasses⟩
  · rintro ⟨hfits, hunchanged, hcovered⟩
    exact ⟨fun h => hunchanged (h.resolve_left hpasses), fun _ => hfits, fun _ => hcovered⟩

/-- What is put on or taken off and changes nothing is 0. -/
theorem add_eq_self_iff
    {x y : Half} :
    x + y = x ↔ y = 0 := by
  simp

theorem sub_eq_self_iff
    {x y : Half} :
    x - y = x ↔ y = 0 := by
  rw [BitVec.sub_eq_iff_eq_add, eq_comm, add_eq_self_iff]

/-- A `SYS_MALLOC` that is served charges what it allocates exactly when there is room. -/
theorem malloc_served_iff
    (hguard : refusesPages pages_number pagetype = false)
    (hfits : pages_number.toNat * getMultiFromPagetype pagetype.toNat < 2 ^ 32)
    (hserved : Served pagetree s (.malloc pages_number pagetype))
    (hcharged : Charged s) :
    Charged (sysMalloc pages_number pagetype pagetree s).2 ↔
      s.used_memory.toNat + smallPages pages_number pagetype < 2 ^ 32 := by
  obtain ⟨hused, hallocated⟩ := sysMalloc_charges (s := s) hguard
  rw [Charged, hallocated, card_allocatedBy, ← hcharged, if_neg hserved, hused,
    toNat_add_eq_iff (smallPages_lt hfits)]
  exact and_iff_right (chargedPages_toNat hfits)

/-- One that is not served leaves the charge exactly when it asks for no pages. -/
theorem malloc_unserved_iff
    (hguard : refusesPages pages_number pagetype = false)
    (hfits : pages_number.toNat * getMultiFromPagetype pagetype.toNat < 2 ^ 32) :
    (sysMalloc pages_number pagetype pagetree s).2.used_memory = s.used_memory ↔
      pages_number = 0 := by
  rw [(sysMalloc_charges hguard).1, add_eq_self_iff]
  exact chargedPages_eq_zero_iff hfits

/-- No pages are allocated by an allocator that fails. -/
theorem malloc_unserved_charged
    (hguard : refusesPages pages_number pagetype = false)
    (hfails : ¬ Served pagetree s (.malloc pages_number pagetype))
    (hcharged : Charged s)
    (hsame : (sysMalloc pages_number pagetype pagetree s).2.used_memory = s.used_memory) :
    Charged (sysMalloc pages_number pagetype pagetree s).2 := by
  rw [Charged, hsame, (sysMalloc_charges hguard).2, card_allocatedBy,
    if_pos (not_not.mp hfails)]
  exact hcharged

theorem malloc_exact_iff
    (hcharged : Charged s)
    (hstep : MemoryStep pagetree s (.malloc pages_number pagetype) s') :
    Charged s' ∧ CallExact pagetree s (.malloc pages_number pagetype) s' ↔
      ChargeSafe pagetree s (.malloc pages_number pagetype) := by
  obtain rfl : s' = (sysMalloc pages_number pagetype pagetree s).2 := hstep
  cases hguard : refusesPages pages_number pagetype with
  | true =>
      have hsame : (sysMalloc pages_number pagetype pagetree s).2 = s := by
        rw [sysMalloc, if_pos hguard]
      exact iff_of_true (refused_exact hguard hcharged hsame) (.inl hguard)
  | false =>
      have hpasses : ¬ (MemoryOp.malloc pages_number pagetype).Refused :=
        fun h => Bool.false_ne_true (hguard.symm.trans h)
      rw [callExact_iff hpasses]
      constructor
      · rintro ⟨hcharged', hfits, hunchanged, -⟩
        refine .inr ⟨hfits, ?_⟩
        by_cases hserved : Served pagetree s (.malloc pages_number pagetype)
        · exact .inr ⟨hserved, (malloc_served_iff hguard hfits hserved hcharged).mp hcharged'⟩
        · exact .inl ((malloc_unserved_iff hguard hfits).mp (hunchanged hserved))
      · intro hsafe
        obtain ⟨hfits, hcase⟩ := hsafe.resolve_left hpasses
        refine ⟨?_, hfits, fun hfails => ?_, fun _ _ _ h => MemoryOp.noConfusion h⟩
        · by_cases hserved : Served pagetree s (.malloc pages_number pagetype)
          · refine (malloc_served_iff hguard hfits hserved hcharged).mpr ?_
            rcases hcase with hnone | ⟨-, hroom⟩
            · have hpages : smallPages pages_number pagetype = 0 :=
                smallPages_eq_zero_iff.mpr hnone
              rw [hpages]
              exact s.used_memory.isLt
            · exact hroom
          · have hnone := hcase.resolve_right fun h => hserved h.1
            exact malloc_unserved_charged hguard hserved hcharged
              ((malloc_unserved_iff hguard hfits).mpr hnone)
        · have hnone := hcase.resolve_right fun h => hfails h.1
          exact (malloc_unserved_iff hguard hfits).mpr hnone

/-- A `SYS_FREE` that is served, and does not fall below 0, discharges what it frees
exactly when that was allocated. -/
theorem free_served_iff
    (hguard : refusesPages pages_number pagetype = false)
    (hfits : pages_number.toNat * getMultiFromPagetype pagetype.toNat < 2 ^ 32)
    (hserved : Served pagetree s (.free vm pages_number pagetype))
    (hcharged : Charged s) :
    Charged (sysFree vm pages_number pagetype pagetree s).2 ∧
        (chargedPages pages_number pagetype).toNat ≤ s.used_memory.toNat ↔
      regionPages vm pages_number pagetype ≤ s.allocated := by
  obtain ⟨hused, hallocated⟩ :=
    @sysFree_charges pagetree s vm pages_number pagetype hguard
  change (memFree s.words pagetree vm pages_number.toNat pagetype.toNat).1 = true at hserved
  have htaken := card_sub_add_iff s.allocated (regionPages vm pages_number pagetype)
  rw [card_regionPages, ← hcharged] at htaken
  rw [← htaken, Charged, hallocated, if_pos hserved, hused]
  have hpages := chargedPages_toNat hfits
  constructor
  · rintro ⟨hcharged', hcovered⟩
    rw [BitVec.toNat_sub_of_le (BitVec.le_def.mpr hcovered)] at hcharged'
    omega
  · intro hcard
    have hcovered : (chargedPages pages_number pagetype).toNat ≤ s.used_memory.toNat := by
      omega
    refine ⟨?_, hcovered⟩
    rw [BitVec.toNat_sub_of_le (BitVec.le_def.mpr hcovered)]
    omega

/-- One that is not served leaves the charge exactly when it asks for no pages. -/
theorem free_unserved_iff
    (hguard : refusesPages pages_number pagetype = false)
    (hfits : pages_number.toNat * getMultiFromPagetype pagetype.toNat < 2 ^ 32) :
    (sysFree vm pages_number pagetype pagetree s).2.used_memory = s.used_memory ↔
      pages_number = 0 := by
  rw [(sysFree_charges hguard).1, sub_eq_self_iff]
  exact chargedPages_eq_zero_iff hfits

/-- Nothing is freed by an allocator that fails. -/
theorem free_unserved_charged
    (hguard : refusesPages pages_number pagetype = false)
    (hfails : ¬ Served pagetree s (.free vm pages_number pagetype))
    (hcharged : Charged s)
    (hsame : (sysFree vm pages_number pagetype pagetree s).2.used_memory = s.used_memory) :
    Charged (sysFree vm pages_number pagetype pagetree s).2 := by
  change ¬ (memFree s.words pagetree vm pages_number.toNat pagetype.toNat).1 = true at hfails
  rw [Charged, hsame, (sysFree_charges hguard).2, if_neg hfails]
  exact hcharged

theorem regionPages_of_none
    (hnone : pages_number = 0) :
    regionPages vm pages_number pagetype = 0 := by
  rw [← Multiset.card_eq_zero, card_regionPages]
  exact smallPages_eq_zero_iff.mpr hnone

theorem free_exact_iff
    (hcharged : Charged s)
    (hstep : MemoryStep pagetree s (.free vm pages_number pagetype) s') :
    Charged s' ∧ CallExact pagetree s (.free vm pages_number pagetype) s' ↔
      ChargeSafe pagetree s (.free vm pages_number pagetype) := by
  obtain rfl : s' = (sysFree vm pages_number pagetype pagetree s).2 := hstep
  cases hguard : refusesPages pages_number pagetype with
  | true =>
      have hsame : (sysFree vm pages_number pagetype pagetree s).2 = s := by
        rw [sysFree, if_pos hguard]
      exact iff_of_true (refused_exact hguard hcharged hsame) (.inl hguard)
  | false =>
      have hpasses : ¬ (MemoryOp.free vm pages_number pagetype).Refused :=
        fun h => Bool.false_ne_true (hguard.symm.trans h)
      rw [callExact_iff hpasses]
      constructor
      · rintro ⟨hcharged', hfits, hunchanged, hcovered⟩
        refine .inr ⟨hfits, ?_⟩
        by_cases hserved : Served pagetree s (.free vm pages_number pagetype)
        · exact .inr ⟨hserved, (free_served_iff hguard hfits hserved hcharged).mp
            ⟨hcharged', hcovered vm pages_number pagetype rfl⟩⟩
        · exact .inl ((free_unserved_iff hguard hfits).mp (hunchanged hserved))
      · intro hsafe
        obtain ⟨hfits, hcase⟩ := hsafe.resolve_left hpasses
        by_cases hserved : Served pagetree s (.free vm pages_number pagetype)
        · have hheld : regionPages vm pages_number pagetype ≤ s.allocated := by
            rcases hcase with hnone | ⟨-, hheld⟩
            · have hempty : regionPages vm pages_number pagetype = 0 :=
                regionPages_of_none hnone
              rw [hempty]
              exact Multiset.zero_le _
            · exact hheld
          obtain ⟨hcharged', hcovered⟩ :=
            (free_served_iff hguard hfits hserved hcharged).mpr hheld
          refine ⟨hcharged', hfits, fun hfails => absurd hserved hfails, ?_⟩
          rintro _ _ _ ⟨⟩
          exact hcovered
        · have hnone := hcase.resolve_right fun h => hserved h.1
          have hsame : (sysFree vm pages_number pagetype pagetree s).2.used_memory =
              s.used_memory := (free_unserved_iff hguard hfits).mpr hnone
          refine ⟨free_unserved_charged hguard hserved hcharged hsame, hfits, fun _ => hsame, ?_⟩
          rintro _ _ _ ⟨⟩
          have hzero : chargedPages pages_number pagetype = 0 :=
            (chargedPages_eq_zero_iff hfits).mpr hnone
          rw [hzero]
          exact Nat.zero_le _

/--
**The charge is right along a run, and its calls do what they owe, exactly when the
product of every call that is let through fits and the allocator serves it: with room
in the counter for what is allocated, and with all that is freed allocated before.**
-/
theorem memory_charged_iff
    {run : List (MemoryOp × ProcessMemory)}
    (hcharged : Charged s)
    (hrun : Run (MemoryStep pagetree) s run) :
    Always Charged s run ∧ EveryStep (CallExact pagetree) s run ↔
      StepsMeet (ChargeSafe pagetree) s run := by
  refine always_and_everyStep_iff_stepsMeet (fun s op s' hs hstep => ?_) hrun hcharged
  cases op with
  | malloc pages_number pagetype => exact malloc_exact_iff hs hstep
  | free vm pages_number pagetype => exact free_exact_iff hs hstep

end Steps

section LowTree

/-- A process that has been given nothing, with a laid page tree. -/
def idleProcess : ProcessMemory := ⟨lowTree, 0, 0⟩

/-- A middle page is allocated. -/
def mallocRun : List (MemoryOp × ProcessMemory) :=
  [(.malloc 1 2, (sysMalloc 1 2 8192 idleProcess).2)]

theorem memory_charged_iff_malloc :
    Always Charged idleProcess mallocRun ∧ EveryStep (CallExact 8192) idleProcess mallocRun ↔
      StepsMeet (ChargeSafe 8192) idleProcess mallocRun :=
  memory_charged_iff rfl (.cons rfl (.nil _))

/-- A page is freed that was never allocated, and the charge falls below 0. -/
theorem free_not_charged :
    ¬ ∀ (pagetree : Word) (s : ProcessMemory) (run : List (MemoryOp × ProcessMemory)),
      Charged s → Run (MemoryStep pagetree) s run →
        Always Charged s run ∧ EveryStep (CallExact pagetree) s run := by
  intro hright
  have hrun : Run (MemoryStep 8192) idleProcess
      [(.free 0 1 3, (sysFree 0 1 3 8192 idleProcess).2)] := .cons rfl (.nil _)
  have hcovered := (hright 8192 idleProcess _ rfl hrun).2.1.covered
    (by decide) 0 1 3 rfl
  exact absurd hcovered (by decide)

end LowTree

end Syscalls
end BestKernel
