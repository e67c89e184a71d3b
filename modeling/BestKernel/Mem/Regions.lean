import BestKernel.Library.Runs
import BestKernel.Mem.Translation
import Mathlib.Data.List.Pairwise
import Mathlib.Data.Set.Lattice
import Mathlib.Order.CompletePartialOrder

/-!
# Virtual regions over whole runs

A process takes regions with `mem_alloc` and `mem_map` and gives them back with
`mem_free` and `mem_unmap`.  `RegionsKept` says that the regions held at a time
are pairwise disjoint and that the entries of a region given back can be found
again.

The occupancy bit does not protect a region: the search signs the entry it
finds, and the template written next clears the bit.  Since a region that is
found starts at address 0, a second one that is found overlaps the first.
`regions_kept_iff` says that this is all that goes wrong: a run keeps its
regions exactly when no step finds a region of some pages while another is held.
-/

namespace BestKernel
namespace Mem

open Machine

/-- A region as the caller knows it. -/
structure Region where
  vm : Word
  pages_number : Half
  pagetype : Nat
deriving DecidableEq

/-- The addresses of a region. -/
def Region.addresses (r : Region) : Set Nat :=
  {a | r.vm.toNat ≤ a ∧
    a < r.vm.toNat + r.pages_number.toNat * getMultiFromPagetype r.pagetype}

/-- Memory, every region returned so far, the ones still held, and the region
that the last call gave back. -/
structure RegionState where
  mem : WordMemory
  returned : List Region
  held : List Region
  freed : Option Region

def RegionState.start (mem : WordMemory) : RegionState :=
  ⟨mem, [], [], none⟩

/-- The calls of a process.  Frees and unmaps name a region by all it was
returned with. -/
inductive RegionOp where
  | alloc (pagetype : Nat) (pages_number : Half)
  | map (target : Word) (pagetype : Nat) (pages_number cache : Half)
  | free (r : Region)
  | unmap (r : Region)

/-- Book a call that looked for a region. -/
def RegionState.take (s : RegionState) (found : Option Region) (mem : WordMemory) :
    RegionState :=
  match found with
  | some r => ⟨mem, r :: s.returned, r :: s.held, none⟩
  | none => ⟨mem, s.returned, s.held, none⟩

/-- Book a call that gives a region back. -/
def RegionState.give (s : RegionState) (r : Region) (ok : Bool) (mem : WordMemory) :
    RegionState :=
  if ok then ⟨mem, s.returned, s.held.erase r, some r⟩
  else ⟨mem, s.returned, s.held, none⟩

section Runs

variable (pagetree : Word)

def regionStep (s : RegionState) : RegionOp → RegionState
  | .alloc pagetype pages_number =>
      let result := memAlloc s.mem pagetree pagetype pages_number.toNat
      s.take (result.1.map fun vm => ⟨vm, pages_number, pagetype⟩) result.2
  | .map target pagetype pages_number cache =>
      let result := memMap s.mem pagetree target pagetype pages_number.toNat cache
      s.take (result.1.map fun vm => ⟨vm, pages_number, pagetype⟩) result.2
  | .free r =>
      let result := memFree s.mem pagetree r.vm r.pages_number.toNat r.pagetype
      s.give r result.1 result.2.2
  | .unmap r =>
      let result := memUnmap s.mem pagetree r.vm r.pages_number.toNat r.pagetype
      s.give r result.1 result.2

/-- Frees and unmaps name regions that were returned earlier. -/
def RegionOp.Legal (s : RegionState) : RegionOp → Prop
  | .alloc _ _ => True
  | .map _ _ _ _ => True
  | .free r => r ∈ s.returned
  | .unmap r => r ∈ s.returned

def RegionStep (s : RegionState) (op : RegionOp) (s' : RegionState) : Prop :=
  op.Legal s ∧ s' = regionStep pagetree s op

/-- The entries of a region pass the tests that `vmtree_fetch` puts to them. -/
def Available (mem : WordMemory) (r : Region) : Prop :=
  ∀ h, h < r.pages_number.toNat →
    bitSet (mem (wordAt (entryOf r.vm mem pagetree) h)) 0 = true ∧
      bitSet (mem (wordAt (entryOf r.vm mem pagetree) h)) 56 = false

/-- Held regions are disjoint and a region given back is available. -/
structure RegionsKept (s : RegionState) : Prop where
  disjoint : s.held.Pairwise fun r t => Disjoint r.addresses t.addresses
  available : ∀ r, s.freed = some r → Available pagetree s.mem r

/-- The step does not find a region of some pages while another is held. -/
def RegionSafe (s : RegionState) (op : RegionOp) : Prop :=
  let safe (pages_number : Half) (pagetype : Nat) :=
    pages_number = 0 ∨ (∀ r, r ∈ s.held → r.pages_number = 0) ∨
      (vmtreeFetch pagetree s.mem pages_number.toNat pagetype).1 = none
  match op with
  | .alloc pagetype pages_number => safe pages_number pagetype
  | .map _ pagetype pages_number _ => safe pages_number pagetype
  | .free _ => True
  | .unmap _ => True

/-- Every region handed out starts at address 0. -/
structure AllAtZero (s : RegionState) : Prop where
  returned : ∀ r, r ∈ s.returned → r.vm = 0
  held : ∀ r, r ∈ s.held → r.vm = 0

/-- `mem_alloc` writes from the root on, whatever its search has found. -/
theorem memAlloc_eq
    (m : WordMemory) (pagetype pages_number : Nat) :
    memAlloc m pagetree pagetype pages_number =
      ((vmtreeFetch pagetree m pages_number pagetype).1,
        storeWords (sign (vmtreeFetch pagetree m pages_number pagetype).2 pagetree) pagetree
          (fun _ => memreqTemplate pagetype .RESERVE 0 0) pages_number) := by
  unfold memAlloc
  dsimp only
  rw [fetchedPointer_vmtreeFetch, if_neg (by decide), vmtoEntry_zero]

/-- And so does `mem_map`. -/
theorem memMap_eq
    (m : WordMemory) (target : Word) (pagetype pages_number : Nat) (cache : Half) :
    memMap m pagetree target pagetype pages_number cache =
      ((vmtreeFetch pagetree m pages_number pagetype).1,
        storeWords (sign (vmtreeFetch pagetree m pages_number pagetype).2 pagetree) pagetree
          (fun h => memreqTemplate pagetype .MAP cache 0 |||
            ((target + (BitVec.ofNat 32 (getMultiFromPagetype walkedPagetype * h)).setWidth 64)
              <<< 13))
          pages_number) := by
  unfold memMap
  dsimp only
  rw [fetchedPointer_vmtreeFetch, if_neg (by decide), vmtoEntry_zero]

theorem memAlloc_fst
    (m : WordMemory) (pagetype pages_number : Nat) :
    (memAlloc m pagetree pagetype pages_number).1 =
      (vmtreeFetch pagetree m pages_number pagetype).1 := by
  rw [memAlloc_eq]

theorem memMap_fst
    (m : WordMemory) (target : Word) (pagetype pages_number : Nat) (cache : Half) :
    (memMap m pagetree target pagetype pages_number cache).1 =
      (vmtreeFetch pagetree m pages_number pagetype).1 := by
  rw [memMap_eq]

/-- The address 0 always walks to the root. -/
theorem entryOf_zero (m : WordMemory) : entryOf 0 m pagetree = pagetree := by
  rw [entryOf, vmtoEntry_zero]

/-- Entries that hold a template are available. -/
theorem available_storeWords
    (m : WordMemory) (pages_number : Half) (pagetype templPagetype : Nat)
    (mode : Mode) (cache exec : Half) :
    Available pagetree
      (storeWords m pagetree (fun _ => memreqTemplate templPagetype mode cache exec)
        pages_number.toNat)
      ⟨0, pages_number, pagetype⟩ := by
  intro h hh
  dsimp only at hh ⊢
  have hlt := pages_number.isLt
  rw [entryOf_zero, storeWords_wordAt (by omega) hh]
  exact ⟨bitSet_memreqTemplate_present _ _ _ _, bitSet_memreqTemplate_occupied _ _ _ _⟩

theorem memFree_available
    {m : WordMemory} {pages_number : Half} {pagetype : Nat}
    (hok : (memFree m pagetree 0 pages_number.toNat pagetype).1 = true) :
    Available pagetree (memFree m pagetree 0 pages_number.toNat pagetype).2.2
      ⟨0, pages_number, pagetype⟩ := by
  unfold memFree at hok ⊢
  dsimp only at hok ⊢
  split_ifs at hok ⊢ with hstatus
  rw [vmtoEntry_zero]
  exact available_storeWords _ _ _ _ _ _ _ _

theorem memUnmap_available
    {m : WordMemory} {pages_number : Half} {pagetype : Nat}
    (hok : (memUnmap m pagetree 0 pages_number.toNat pagetype).1 = true) :
    Available pagetree (memUnmap m pagetree 0 pages_number.toNat pagetype).2
      ⟨0, pages_number, pagetype⟩ := by
  unfold memUnmap at hok ⊢
  rw [vmtoEntry_zero] at hok ⊢
  dsimp only at hok ⊢
  split_ifs at hok ⊢ with hrefused
  exact available_storeWords _ _ _ _ _ _ _ _

section Take

variable {s : RegionState} {found : Option Word} {mem : WordMemory}
  {pages_number : Half} {pagetype : Nat}

theorem allAtZero_take
    (h : AllAtZero s)
    (hfound : ∀ vm, found = some vm → vm = 0) :
    AllAtZero
      (s.take (found.map fun vm => ⟨vm, pages_number, pagetype⟩) mem) := by
  cases found with
  | none => exact ⟨h.returned, h.held⟩
  | some vm =>
      have hvm := hfound vm rfl
      subst hvm
      refine ⟨?_, ?_⟩
      · intro r hr
        rcases List.mem_cons.mp hr with rfl | hr
        · rfl
        · exact h.returned r hr
      · intro r hr
        rcases List.mem_cons.mp hr with rfl | hr
        · rfl
        · exact h.held r hr

/-- Two regions at address 0 are disjoint when one of them has no pages. -/
theorem disjoint_addresses_iff
    {r t : Region}
    (hr : r.vm = 0)
    (ht : t.vm = 0) :
    Disjoint r.addresses t.addresses ↔ r.pages_number = 0 ∨ t.pages_number = 0 := by
  have hmem : ∀ {u : Region}, u.vm = 0 → u.pages_number ≠ 0 → 0 ∈ u.addresses := by
    intro u hu hpages
    have hpos : 0 < u.pages_number.toNat := BitVec.toNat_pos_of_ne_zero hpages
    have hmulti := getMultiFromPagetype_ge u.pagetype
    refine ⟨by rw [hu]; exact Nat.le_refl 0, ?_⟩
    exact Nat.lt_of_lt_of_le (Nat.mul_pos hpos (by omega)) (Nat.le_add_left _ _)
  have hempty : ∀ {u : Region}, u.pages_number = 0 → u.addresses = ∅ := by
    intro u hu
    ext a
    simp [Region.addresses, hu]
  constructor
  · intro hdisj
    by_contra hnone
    obtain ⟨hrp, htp⟩ := not_or.mp hnone
    exact Set.disjoint_left.mp hdisj (hmem hr hrp) (hmem ht htp)
  · rintro (h | h)
    · rw [hempty h]
      exact Set.empty_disjoint _
    · rw [hempty h]
      exact Set.disjoint_empty _

/-- Taking a region keeps the regions apart exactly when the search fails or
one side has no pages. -/
theorem regionsKept_take_iff
    (h : AllAtZero s)
    (hkept : RegionsKept pagetree s)
    (hfound : ∀ vm, found = some vm → vm = 0) :
    RegionsKept pagetree
        (s.take (found.map fun vm => ⟨vm, pages_number, pagetype⟩) mem) ↔
      pages_number = 0 ∨ (∀ r, r ∈ s.held → r.pages_number = 0) ∨ found = none := by
  cases found with
  | none =>
      have hkept' : RegionsKept pagetree (s.take none mem) :=
        ⟨hkept.disjoint, fun r hr => by cases hr⟩
      exact ⟨fun _ => Or.inr (Or.inr rfl), fun _ => hkept'⟩
  | some vm =>
      have hvm := hfound vm rfl
      subst hvm
      have hnew : ∀ r, r ∈ s.held →
          (Disjoint (Region.addresses ⟨0, pages_number, pagetype⟩) r.addresses ↔
            pages_number = 0 ∨ r.pages_number = 0) :=
        fun r hr => disjoint_addresses_iff rfl (h.held r hr)
      constructor
      · intro hkept'
        have hpair := (List.pairwise_cons.mp hkept'.disjoint).1
        by_cases hpages : pages_number = 0
        · exact Or.inl hpages
        · refine Or.inr (Or.inl ?_)
          intro r hr
          exact ((hnew r hr).mp (hpair r hr)).resolve_left hpages
      · intro hsafe
        refine ⟨List.pairwise_cons.mpr ⟨?_, hkept.disjoint⟩, fun r hr => by cases hr⟩
        intro r hr
        rw [hnew r hr]
        rcases hsafe with hpages | hheld | hnone
        · exact Or.inl hpages
        · exact Or.inr (hheld r hr)
        · cases hnone

end Take

section Give

variable {s : RegionState} {r : Region} {ok : Bool} {mem : WordMemory}

theorem allAtZero_give
    (h : AllAtZero s) :
    AllAtZero (s.give r ok mem) := by
  unfold RegionState.give
  split_ifs
  · exact ⟨h.returned, fun t ht => h.held t (List.mem_of_mem_erase ht)⟩
  · exact ⟨h.returned, h.held⟩

theorem regionsKept_give
    (hkept : RegionsKept pagetree s)
    (hok : ok = true → Available pagetree mem r) :
    RegionsKept pagetree (s.give r ok mem) := by
  unfold RegionState.give
  split_ifs with h
  · refine ⟨hkept.disjoint.sublist List.erase_sublist, ?_⟩
    intro t ht
    cases ht
    exact hok h
  · exact ⟨hkept.disjoint, fun t ht => by cases ht⟩

end Give

/-- Regions keep starting at address 0. -/
theorem regionStep_allAtZero
    {s s' : RegionState} {op : RegionOp}
    (h : AllAtZero s)
    (hstep : RegionStep pagetree s op s') :
    AllAtZero s' := by
  obtain ⟨_, rfl⟩ := hstep
  cases op with
  | alloc pagetype pages_number =>
      refine allAtZero_take h fun vm hvm => ?_
      rw [memAlloc_fst] at hvm
      exact vmtreeFetch_eq_zero hvm
  | map target pagetype pages_number cache =>
      refine allAtZero_take h fun vm hvm => ?_
      rw [memMap_fst] at hvm
      exact vmtreeFetch_eq_zero hvm
  | free r => exact allAtZero_give h
  | unmap r => exact allAtZero_give h

/-- The steps that keep the regions are the safe ones. -/
theorem regionStep_kept_iff
    {s s' : RegionState} {op : RegionOp}
    (h : AllAtZero s)
    (hkept : RegionsKept pagetree s)
    (hstep : RegionStep pagetree s op s') :
    RegionsKept pagetree s' ↔ RegionSafe pagetree s op := by
  obtain ⟨hlegal, rfl⟩ := hstep
  cases op with
  | alloc pagetype pages_number =>
      rw [regionStep, memAlloc_fst]
      exact regionsKept_take_iff pagetree h hkept fun _ => vmtreeFetch_eq_zero
  | map target pagetype pages_number cache =>
      rw [regionStep, memMap_fst]
      exact regionsKept_take_iff pagetree h hkept fun _ => vmtreeFetch_eq_zero
  | free r =>
      refine ⟨fun _ => trivial, fun _ => regionsKept_give pagetree hkept ?_⟩
      obtain ⟨vm, pages_number, pagetype⟩ := r
      obtain rfl : vm = 0 := h.returned _ hlegal
      exact memFree_available pagetree
  | unmap r =>
      refine ⟨fun _ => trivial, fun _ => regionsKept_give pagetree hkept ?_⟩
      obtain ⟨vm, pages_number, pagetype⟩ := r
      obtain rfl : vm = 0 := h.returned _ hlegal
      exact memUnmap_available pagetree

theorem allAtZero_start (mem : WordMemory) : AllAtZero (RegionState.start mem) :=
  ⟨fun _ hr => (List.not_mem_nil hr).elim, fun _ hr => (List.not_mem_nil hr).elim⟩

theorem regionsKept_start (mem : WordMemory) :
    RegionsKept pagetree (RegionState.start mem) :=
  ⟨List.Pairwise.nil, fun r hr => by cases hr⟩

/--
**The regions of a process are kept along a run exactly when no step finds a
region of some pages while another is held.**
-/
theorem regions_kept_iff
    {expected_usage : Nat} {m : WordMemory} {run : List (RegionOp × RegionState)}
    (hrun : Runs.Run (RegionStep pagetree)
      (RegionState.start (vmtreeLay expected_usage m pagetree)) run) :
    Runs.Always (RegionsKept pagetree)
        (RegionState.start (vmtreeLay expected_usage m pagetree)) run ↔
      Runs.StepsMeet (RegionSafe pagetree)
        (RegionState.start (vmtreeLay expected_usage m pagetree)) run := by
  have hinv : ∀ s op s', AllAtZero s → RegionsKept pagetree s →
      RegionStep pagetree s op s' → RegionsKept pagetree s' → AllAtZero s' :=
    fun _ _ _ h _ hstep _ => regionStep_allAtZero pagetree h hstep
  have hexact : ∀ s op s', AllAtZero s → RegionsKept pagetree s →
      RegionStep pagetree s op s' →
      (RegionsKept pagetree s' ↔ RegionSafe pagetree s op) :=
    fun _ _ _ h hkept hstep => regionStep_kept_iff pagetree h hkept hstep
  exact Runs.always_iff_stepsMeet_of_invariant hinv hexact hrun
    (allAtZero_start _) (regionsKept_start pagetree _)

end Runs

section LowTree

/-- What a search for middle pages meets in the tree at 8192. -/
structure LowFree (m : WordMemory) : Prop where
  below : ∀ i, 0 < i → i < 448 → bitSet (m (wordAt 4608#64 i)) 0 = false
  present : bitSet (m 8192#64) 0 = true
  free : bitSet (m 8192#64) 56 = false

theorem lowFree_lowTree : LowFree lowTree := by
  have hroot : bitSet (lowTree 8192#64) 0 = true ∧ bitSet (lowTree 8192#64) 56 = false :=
    vmtreeLay_root_free (by decide) (by decide) (by decide)
  refine ⟨?_, hroot.1, hroot.2⟩
  intro i _ hi
  rw [lowTree_below hi]
  decide

theorem LowFree.memAlloc_fst_eq
    {m : WordMemory} {pages_number : Nat}
    (h : LowFree m)
    (hpages : 0 < pages_number) :
    (memAlloc m 8192#64 Pag.MIDPAGE pages_number).1 = some 0 := by
  rw [memAlloc_fst, vmtreeFetch_low_tree hpages h.below h.present h.free]

/-- An allocation of one page leaves the root entry free. -/
theorem LowFree.memAlloc_one
    {m : WordMemory}
    (h : LowFree m) :
    LowFree (memAlloc m 8192#64 Pag.MIDPAGE 1).2 := by
  have hmem : (memAlloc m 8192#64 Pag.MIDPAGE 1).2 =
      Function.update (sign (sign m 8192#64) 8192#64) 8192#64
        (memreqTemplate Pag.MIDPAGE .RESERVE 0 0) := by
    rw [memAlloc_eq, vmtreeFetch_low_tree (by decide) h.below h.present h.free, storeWords,
      storeWords_zero, wordAt_zero]
  rw [hmem]
  refine ⟨?_, ?_, ?_⟩
  · intro i hpos hi
    have hne : wordAt 4608#64 i ≠ 8192#64 := by
      intro heq
      have hroot : wordAt 4608#64 448 = 8192#64 := by decide
      have := (wordAt_inj (by omega) (by omega)).mp (heq.trans hroot.symm)
      omega
    rw [Function.update_of_ne hne, sign_of_ne hne, sign_of_ne hne]
    exact h.below i hpos hi
  · rw [Function.update_self]
    exact bitSet_memreqTemplate_present _ _ _ _
  · rw [Function.update_self]
    exact bitSet_memreqTemplate_occupied _ _ _ _

/-- The state after `n` allocations of one middle page in the low tree. -/
def lowAllocs : Nat → RegionState
  | 0 => RegionState.start lowTree
  | n + 1 => regionStep 8192#64 (lowAllocs n) (.alloc Pag.MIDPAGE 1)

theorem lowAllocs_spec (n : Nat) :
    LowFree (lowAllocs n).mem ∧
      (lowAllocs n).held = List.replicate n ⟨0, 1, Pag.MIDPAGE⟩ := by
  induction n with
  | zero => exact ⟨lowFree_lowTree, rfl⟩
  | succ n ih =>
      obtain ⟨hfree, hheld⟩ := ih
      have hfound : (memAlloc (lowAllocs n).mem 8192#64 Pag.MIDPAGE 1).1 = some 0 :=
        hfree.memAlloc_fst_eq (by decide)
      have hstep : lowAllocs (n + 1) =
          (lowAllocs n).take (some ⟨0, 1, Pag.MIDPAGE⟩)
            (memAlloc (lowAllocs n).mem 8192#64 Pag.MIDPAGE 1).2 := by
        rw [lowAllocs, regionStep, show (1 : Half).toNat = 1 from rfl]
        rw [hfound, Option.map_some]
      rw [hstep]
      exact ⟨hfree.memAlloc_one, by
        rw [RegionState.take, hheld, List.replicate_succ]⟩

/-- Two allocations in a row. -/
def twoAllocs : List (RegionOp × RegionState) :=
  [(.alloc Pag.MIDPAGE 1, lowAllocs 1), (.alloc Pag.MIDPAGE 1, lowAllocs 2)]

theorem run_twoAllocs :
    Runs.Run (RegionStep 8192#64) (RegionState.start lowTree) twoAllocs :=
  .cons ⟨trivial, rfl⟩ (.cons ⟨trivial, rfl⟩ (.nil _))

/-- Two allocations in a row return the same middle page. -/
theorem twoAllocs_not_kept :
    Runs.Run (RegionStep 8192#64) (RegionState.start lowTree) twoAllocs ∧
      ¬ Runs.Always (RegionsKept 8192#64) (RegionState.start lowTree) twoAllocs := by
  refine ⟨run_twoAllocs, ?_⟩
  rintro ⟨_, hall⟩
  have hkept := (hall (.alloc Pag.MIDPAGE 1, lowAllocs 2) (by simp [twoAllocs])).disjoint
  rw [(lowAllocs_spec 2).2] at hkept
  have hpair := (List.pairwise_cons.mp hkept).1 ⟨0, 1, Pag.MIDPAGE⟩ (by simp)
  rw [disjoint_addresses_iff rfl rfl] at hpair
  simp at hpair

theorem regions_kept_iff_twoAllocs :
    Runs.Always (RegionsKept 8192#64) (RegionState.start lowTree) twoAllocs ↔
      Runs.StepsMeet (RegionSafe 8192#64) (RegionState.start lowTree) twoAllocs :=
  regions_kept_iff 8192#64 run_twoAllocs

end LowTree

end Mem
end BestKernel
