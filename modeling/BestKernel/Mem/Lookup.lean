import BestKernel.Mem.Signatures
import BestKernel.Mem.Swap
import BestKernel.Mem.Translation
import BestKernel.Mem.TreeLevels
import BestKernel.Vfs.Calls

/-!
# Lookups

`vmto_phys` is asked for an address by the system calls that take a buffer.  It walks
the tree with `vmto_entry`, which marks the entries it passes as taken, since
`vmtree_fetch` walks with it, too.

`LookupInvisible` says that a lookup changes nothing, so that whatever is done to the
tree later goes as without it.  That is so exactly when all entries passed were taken
before.  Of the entries where a tree is laid out the root entry is the only one that can
be passed, by the addresses that are multiples of 512.
-/

namespace BestKernel
namespace Mem

open Machine

/-- The memory behind a lookup by `vmto_phys`. -/
def afterLookup (m : WordMemory) (pagetree vm : Word) : WordMemory :=
  (vmtoPhys m pagetree vm).1

section Specification

variable (m : WordMemory) (pagetree vm : Word)

/-- **A lookup changes nothing**: no entry, and with that no later search, teardown, swap
or walk to an entry, be it for a fault. -/
structure LookupInvisible : Prop where
  entries : ∀ a, afterLookup m pagetree vm a = m a
  searches :
    ∀ pages_number pagetype,
      vmtreeFetch pagetree (afterLookup m pagetree vm) pages_number pagetype =
        vmtreeFetch pagetree m pages_number pagetype
  teardown :
    ∀ (p : Vfs.Process) files, p.pagetree = pagetree →
      Vfs.recursiveFree p Pag.SMALLPAGE pagetree ⟨afterLookup m pagetree vm, files⟩ =
        Vfs.recursiveFree p Pag.SMALLPAGE pagetree ⟨m, files⟩
  swaps :
    ∀ answers sizeof_ram used_memory fuel table,
      swapProcess answers sizeof_ram used_memory fuel (afterLookup m pagetree vm) table
          pagetree =
        swapProcess answers sizeof_ram used_memory fuel m table pagetree
  walks : ∀ a, vmtoEntry a (afterLookup m pagetree vm) pagetree = vmtoEntry a m pagetree

/-- A lookup changes no entry where the tree is laid out. -/
def LayoutKept (layout : TreeLayout pagetree) : Prop :=
  ∀ level index, level ≤ Pag.SMALLPAGE → index < 512 ^ (level + 1) →
    afterLookup m pagetree vm (layout.entry level index) = m (layout.entry level index)

end Specification

variable {pagetree : Word}

theorem afterLookup_eq (m : WordMemory) (pagetree vm : Word) :
    afterLookup m pagetree vm = signAll m (walked vm m pagetree) :=
  vmtoPhys_fst_eq vm m pagetree

theorem afterLookup_unchanged_iff (m : WordMemory) (pagetree vm : Word) :
    afterLookup m pagetree vm = m ↔ WalkSigned vm m pagetree :=
  vmtoPhys_unchanged_iff vm m pagetree

theorem lookupInvisible_iff (m : WordMemory) (pagetree vm : Word) :
    LookupInvisible m pagetree vm ↔ WalkSigned vm m pagetree := by
  rw [← afterLookup_unchanged_iff]
  constructor
  · intro h
    exact funext h.entries
  · intro h
    refine ⟨fun a => ?_, fun _ _ => ?_, fun _ _ _ => ?_, fun _ _ _ _ _ => ?_, fun a => ?_⟩ <;>
      rw [h]

/-- A word less than `2^46` bytes behind the root that a walk passes is the root. -/
theorem eq_root_of_walked
    {m : WordMemory} {vm a : Word}
    (ha : a ∈ walked vm m pagetree)
    (hnear : (a - pagetree).toNat < 70368744177664) :
    a = pagetree := by
  refine eq_root_of_distance ?_ hnear
  rcases (mem_walked_iff vm m pagetree a).mp ha with rfl | ⟨_, rfl⟩
  · exact firstEntry_distance vm pagetree
  · exact secondEntry_distance vm pagetree

/-- The walk passes the root exactly for the multiples of 512. -/
theorem root_mem_walked_iff (m : WordMemory) (vm : Word) :
    pagetree ∈ walked vm m pagetree ↔ vm.toNat % 512 = 0 := by
  rw [← firstEntry_eq_root_iff vm pagetree, mem_walked_iff]
  constructor
  · rintro (hfirst | ⟨_, hsecond⟩)
    · exact hfirst.symm
    · exact firstEntry_of_secondEntry hsecond.symm
  · intro h
    exact Or.inl h.symm

theorem layoutKept_iff
    (layout : TreeLayout pagetree) (m : WordMemory) (vm : Word) :
    LayoutKept m pagetree vm layout ↔
      vm.toNat % 512 ≠ 0 ∨ bitSet (m pagetree) 56 = true := by
  have hpassed : vm.toNat % 512 ≠ 0 ↔ pagetree ∉ walked vm m pagetree :=
    not_congr (root_mem_walked_iff m vm).symm
  rw [hpassed]
  constructor
  · intro h
    have hroot := h 0 0 (by decide) (by decide)
    rw [layout.root, afterLookup_eq, signAll_apply_eq_self_iff] at hroot
    by_cases hmem : pagetree ∈ walked vm m pagetree
    · exact Or.inr (hroot hmem)
    · exact Or.inl hmem
  · intro h level index hlevel hindex
    rw [afterLookup_eq, signAll_apply_eq_self_iff]
    intro hmem
    have hroot := eq_root_of_walked hmem (layout.near level index hlevel hindex)
    rw [hroot] at hmem ⊢
    exact h.resolve_left (not_not_intro hmem)

/-- **A lookup changes nothing exactly when the entries that its walk passes are taken
already**, and it leaves the tree where it is laid out alone exactly when it does not
pass the root entry or that one is taken. -/
theorem lookup_invisible_iff
    (layout : TreeLayout pagetree) (m : WordMemory) (vm : Word) :
    (LookupInvisible m pagetree vm ↔ WalkSigned vm m pagetree) ∧
      (LayoutKept m pagetree vm layout ↔
        vm.toNat % 512 ≠ 0 ∨ bitSet (m pagetree) 56 = true) :=
  ⟨lookupInvisible_iff m pagetree vm, layoutKept_iff layout m vm⟩

/-- In the tree at 8192 a lookup of address 0 hides the one region that a search for a
middle page finds. -/
theorem lookup_hides_region :
    (vmtreeFetch 8192#64 lowTree 1 Pag.MIDPAGE).1 = some 0 ∧
      (vmtreeFetch 8192#64 (afterLookup lowTree 8192#64 0#64) 1 Pag.MIDPAGE).1 = none := by
  refine ⟨by rw [vmtreeFetch_lowTree (by decide)], fetchLoop_none (by decide) ?_⟩
  intro i hi
  rw [Nat.zero_add, offsetByDepth_midpage]
  have hi' : i < 512 := hi
  have hafter := afterLookup_eq lowTree 8192#64 0#64
  by_cases hlow : i < 448
  · left
    have hpresent : bitSet (afterLookup lowTree 8192#64 0#64 (wordAt 4608#64 i)) 0 = false := by
      rw [hafter, (signAll_same _ _).bitSet_eq (by decide) (by decide), lowTree_below hlow]
      decide
    simp [fetchBlocked, hpresent]
  · by_cases hroot : i = 448
    · left
      have hword : wordAt 4608#64 448 = 8192#64 := by decide
      have hmem : 8192#64 ∈ walked 0#64 lowTree 8192#64 := (root_mem_walked_iff lowTree 0).mpr rfl
      have hsigned : bitSet (afterLookup lowTree 8192#64 0#64 8192#64) 56 = true := by
        rw [hafter]
        exact bitSet_signAll hmem
      simp [fetchBlocked, hroot, hword, hsigned]
    · right
      intro hentry
      have hdistance := entryOf_distance
        (entrytoVm 8192#64 (wordAt 4608#64 i)) (afterLookup lowTree 8192#64 0#64) 8192#64
      rw [hentry, wordAt] at hdistance
      simp only [BitVec.toNat_sub, BitVec.toNat_add, BitVec.toNat_ofNat] at hdistance
      omega

theorem lowTree_lookup_visible : ¬ LookupInvisible lowTree 8192#64 0#64 := by
  intro h
  have hregion := lookup_hides_region
  rw [h.searches] at hregion
  rw [hregion.1] at hregion
  exact absurd hregion.2 (Option.some_ne_none 0)

end Mem
end BestKernel
