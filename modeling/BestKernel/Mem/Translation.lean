import BestKernel.Mem.Layout

/-!
# Mapping and translation

`mem_map` writes `target << 13` into the entries of the region it found, and
`vmto_phys` is meant to read it back.  The decoder ends in
`<<5>>18 + vm%get_multi_from_pagetype(pagetype)`; the sum binds first, so the
in-page offset of the address is added to the shift count.

`MapAgrees` states what a mapping should achieve.  It is achieved exactly by the
mappings of no page at all (`memMap_agrees_iff`): no four addresses in a row have
translations in a row.
-/

namespace BestKernel
namespace Mem

open Machine

/-- The address is mapped: the entry its walk ends at is present. -/
def Translates (m : WordMemory) (pagetree a : Word) : Prop :=
  bitSet (m (entryOf a m pagetree)) 0 = true

/-- `a` lies outside of `length` bytes from `vm` on. -/
def OutsideRegion (vm a : Word) (length : Nat) : Prop :=
  a.toNat < vm.toNat ∨ vm.toNat + length ≤ a.toNat

/--
After `mem_map` every byte of the region translates to its byte of the target,
and what was mapped elsewhere translates as before.
-/
def MapAgrees (m : WordMemory) (pagetree target : Word) (pagetype pages_number : Nat)
    (cache : Half) (vm : Word) : Prop :=
  let m' := (memMap m pagetree target pagetype pages_number cache).2
  let length := pages_number * getMultiFromPagetype pagetype
  (∀ k, k < length →
    physOf m' pagetree (vm + BitVec.ofNat 64 k) = target + BitVec.ofNat 64 k) ∧
  (∀ a, Translates m pagetree a → OutsideRegion vm a length →
    physOf m' pagetree a = physOf m pagetree a)

/-- Mapping no page only signs entries. -/
theorem memMap_no_pages_same
    (m : WordMemory) (pagetree target : Word) (pagetype : Nat) (cache : Half) :
    SameButOccupied m (memMap m pagetree target pagetype 0 cache).2 := by
  have hfetch : SameButOccupied m (vmtreeFetch pagetree m 0 pagetype).2 :=
    vmtreeFetch_same m 0 pagetype
  unfold memMap
  dsimp only
  split_ifs
  · exact hfetch
  · exact hfetch.trans (vmtoEntry_same _ _ _)

/-- No memory translates a region of four bytes or more to a flat one. -/
theorem not_forall_physOf_eq_add
    (m : WordMemory) (pagetree vm target : Word) {length : Nat}
    (hlength : 4 ≤ length) :
    ¬ ∀ k, k < length →
      physOf m pagetree (vm + BitVec.ofNat 64 k) = target + BitVec.ofNat 64 k := by
  intro h
  have hfirst : physOf m pagetree vm = target := by
    simpa using h 0 (by omega)
  subst hfirst
  exact not_flat_of_four m pagetree vm fun k hk => h k (by omega)

/-- **A mapping, wherever its region is found, translates as it should exactly when
it maps no page.** -/
theorem memMap_agrees_iff
    (m : WordMemory) (pagetree target vm : Word) (pagetype pages_number : Nat)
    (cache : Half) :
    MapAgrees m pagetree target pagetype pages_number cache vm ↔
      pages_number = 0 := by
  constructor
  · rintro ⟨hinside, _⟩
    by_contra hpages
    have hlength : 4 ≤ pages_number * getMultiFromPagetype pagetype :=
      calc 4 ≤ 1 * 4096 := by decide
        _ ≤ pages_number * getMultiFromPagetype pagetype :=
          Nat.mul_le_mul (Nat.pos_of_ne_zero hpages)
            (getMultiFromPagetype_ge pagetype)
    exact not_forall_physOf_eq_add _ pagetree vm target hlength hinside
  · rintro rfl
    refine ⟨?_, ?_⟩
    · intro k hk
      rw [Nat.zero_mul] at hk
      exact absurd hk (Nat.not_lt_zero k)
    · intro a _ _
      exact physOf_congr (memMap_no_pages_same m pagetree target pagetype cache)
        pagetree a

/-- A tree laid at 8192 in a memory that is otherwise zero. -/
def lowTree : WordMemory :=
  vmtreeLay 256 (fun _ => 0) 8192#64

theorem lowTree_below
    {i : Nat}
    (hi : i < 448) :
    lowTree (wordAt 4608#64 i) = 0 := by
  apply vmtreeLay_below (by decide) (by decide)
  rw [wordAt_toNat (by simp only [BitVec.toNat_ofNat]; omega)]
  simp only [BitVec.toNat_ofNat]
  omega

/-- The search finds a region in the low tree. -/
theorem vmtreeFetch_lowTree
    {pages_number : Nat}
    (hpages : 0 < pages_number) :
    vmtreeFetch 8192#64 lowTree pages_number Pag.MIDPAGE =
      (some 0, sign lowTree 8192#64) := by
  have hroot : bitSet (lowTree 8192#64) 0 = true ∧ bitSet (lowTree 8192#64) 56 = false :=
    vmtreeLay_root_free (by decide) (by decide) (by decide)
  refine vmtreeFetch_low_tree hpages ?_ hroot.1 hroot.2
  intro i _ hi
  rw [lowTree_below hi]
  decide

/-- One middle page over the frame at 4096: found, and translated wrongly. -/
theorem memMap_lowTree_disagrees :
    (vmtreeFetch 8192#64 lowTree 1 Pag.MIDPAGE).1 = some 0 ∧
      ¬ MapAgrees lowTree 8192#64 4096#64 Pag.MIDPAGE 1 Cache.WRITEBACK.code 0 := by
  refine ⟨by rw [vmtreeFetch_lowTree (by decide)], ?_⟩
  rintro ⟨hinside, _⟩
  exact not_forall_physOf_eq_add _ 8192#64 0 4096#64 (by decide) hinside

end Mem
end BestKernel
