import BestKernel.Mem.Walk

/-!
# The levels of a page tree

A page tree has four levels of directories of 512 entries, the root at level 0, and an
entry with bit 7 ends the walk above the level of small pages.  `TreeLayout` says where
the entries are in memory; all that matters here is that the first one is the root and
that the others are less than `2^46` bytes behind it.

`vmto_entry` moves by multiples of `2^46` bytes and always reports level 0, and
`entryto_vm` finds 0 for every entry that a walk can end at, so the two agree with the
tree on the root entry only.  `vmtree_fetch` returns the null pointer in either case.
-/

namespace BestKernel
namespace Mem

open Machine

/-- The bytes of address space that an entry of a level stands for. -/
def levelSpan (level : Nat) : Nat :=
  2 ^ (12 + 9 * (Pag.SMALLPAGE - level))

example : levelSpan Pag.BIGPAGE = getMultiFromPagetype Pag.BIGPAGE ∧
    levelSpan Pag.MIDPAGE = getMultiFromPagetype Pag.MIDPAGE ∧
    levelSpan Pag.SMALLPAGE = getMultiFromPagetype Pag.SMALLPAGE := by
  decide

/-- Where the entries of the levels are. -/
structure TreeLayout (pagetree : Word) where
  entry : Nat → Nat → Word
  root : entry 0 0 = pagetree
  near :
    ∀ level index, level ≤ Pag.SMALLPAGE → index < 512 ^ (level + 1) →
      (entry level index - pagetree).toNat < 70368744177664

/-- The entries of all levels above. -/
def levelStart : Nat → Nat
  | 0 => 0
  | level + 1 => levelStart level + 512 ^ (level + 1)

/-- One level behind the other, in words from the root on. -/
def contiguous (pagetree : Word) : TreeLayout pagetree where
  entry level index := wordAt pagetree (levelStart level + index)
  root := by
    simp [wordAt, levelStart]
  near := by
    intro level index hlevel hindex
    have hend : levelStart level + index < 137438953472 := by
      have hcases : level = 0 ∨ level = 1 ∨ level = 2 ∨ level = 3 := by
        unfold Pag.SMALLPAGE at hlevel
        omega
      rcases hcases with rfl | rfl | rfl | rfl <;> simp [levelStart] at hindex ⊢ <;> omega
    rw [wordAt, BitVec.add_comm, BitVec.add_sub_cancel]
    simp
    omega

variable {pagetree : Word}

section Walk

variable (layout : TreeLayout pagetree) (m : WordMemory)

/-- The entry is used as a large page. -/
def TreeLayout.Large (level index : Nat) : Prop :=
  bitSet (m (layout.entry level index)) 7 = true

/-- The level at which a walk of the tree for an address stops. -/
structure TreeLayout.StopsAt (vm : Word) (level : Nat) : Prop where
  inside : level ≤ Pag.SMALLPAGE
  passed : ∀ above, above < level → ¬ layout.Large m above (vm.toNat / levelSpan above)
  stopped : level = Pag.SMALLPAGE ∨ layout.Large m level (vm.toNat / levelSpan level)

/-- `vmto_entry` comes to the entry for `vm`, reports its level, and `entryto_vm` takes
that entry back to `vm`, rounded down to what the entry stands for. -/
def WalkExact (vm : Word) : Prop :=
  ∃ level, layout.StopsAt m vm level ∧
    entryOf vm m pagetree = layout.entry level (vm.toNat / levelSpan level) ∧
    walkedPagetype = level ∧
    (entrytoVm pagetree (entryOf vm m pagetree)).toNat =
      vm.toNat / levelSpan level * levelSpan level

/-- An entry that maps a page. -/
structure TreeLayout.Leaf (level index : Nat) : Prop where
  inside : level ≤ Pag.SMALLPAGE
  bound : index < 512 ^ (level + 1)
  passed : ∀ above, above < level → ¬ layout.Large m above (index / 512 ^ (level - above))
  stopped : level = Pag.SMALLPAGE ∨ layout.Large m level index

end Walk

/-- The distance of the first entry that a walk looks at. -/
theorem first_distance (vm : Word) :
    (8#64 * (vm <<< 52)).toNat = vm.toNat % 512 * 36028797018963968 := by
  simp only [BitVec.toNat_mul, BitVec.toNat_shiftLeft, Nat.shiftLeft_eq, BitVec.toNat_ofNat]
  omega

/-- And of the next one from there. -/
theorem second_distance (vm : Word) :
    (8#64 * (vm <<< 43)).toNat = vm.toNat % 262144 * 70368744177664 := by
  simp only [BitVec.toNat_mul, BitVec.toNat_shiftLeft, Nat.shiftLeft_eq, BitVec.toNat_ofNat]
  omega

theorem firstEntry_eq_root_iff (vm pagetree : Word) :
    firstEntry vm pagetree = pagetree ↔ vm.toNat % 512 = 0 := by
  rw [firstEntry, BitVec.add_right_eq_self, ← BitVec.toNat_inj, first_distance]
  exact Nat.mul_eq_zero.trans (or_iff_left (by decide))

theorem firstEntry_of_secondEntry
    {vm : Word}
    (hsecond : secondEntry vm pagetree = pagetree) :
    firstEntry vm pagetree = pagetree := by
  rw [secondEntry, firstEntry, BitVec.add_assoc, BitVec.add_right_eq_self,
    ← BitVec.toNat_inj, BitVec.toNat_add, first_distance, second_distance,
    show vm.toNat % 512 * 36028797018963968 + vm.toNat % 262144 * 70368744177664 =
      70368744177664 * (vm.toNat % 512 * 512 + vm.toNat % 262144) by omega,
    show 2 ^ 64 = 70368744177664 * 262144 from rfl, Nat.mul_mod_mul_left] at hsecond
  have hsum : (vm.toNat % 512 * 512 + vm.toNat % 262144) % 262144 = 0 := by
    rcases Nat.mul_eq_zero.mp hsecond with h | h
    · exact absurd h (by decide)
    · exact h
  rw [firstEntry_eq_root_iff]
  omega

theorem firstEntry_distance (vm pagetree : Word) :
    (firstEntry vm pagetree - pagetree).toNat % 70368744177664 = 0 := by
  rw [firstEntry, BitVec.add_comm, BitVec.add_sub_cancel, first_distance]
  omega

theorem secondEntry_distance (vm pagetree : Word) :
    (secondEntry vm pagetree - pagetree).toNat % 70368744177664 = 0 := by
  rw [secondEntry, firstEntry, BitVec.add_assoc, BitVec.add_comm, BitVec.add_sub_cancel,
    BitVec.toNat_add, first_distance, second_distance]
  omega

/-- A walk ends a multiple of `2^46` bytes behind the root. -/
theorem entryOf_distance
    (vm : Word) (m : WordMemory) (pagetree : Word) :
    (entryOf vm m pagetree - pagetree).toNat % 70368744177664 = 0 := by
  rw [entryOf_eq]
  split_ifs
  · exact firstEntry_distance vm pagetree
  · exact secondEntry_distance vm pagetree

/-- Only the root itself is both a multiple of `2^46` bytes behind it and near. -/
theorem eq_root_of_distance
    {a pagetree : Word}
    (hdistance : (a - pagetree).toNat % 70368744177664 = 0)
    (hnear : (a - pagetree).toNat < 70368744177664) :
    a = pagetree := by
  have hzero : a - pagetree = 0#64 := by
    apply BitVec.eq_of_toNat_eq
    rw [BitVec.toNat_ofNat]
    omega
  exact (BitVec.sub_eq_iff_eq_add.mp hzero).trans (BitVec.zero_add pagetree)

/-- So the only entry of the tree that a walk can end at is the root entry. -/
theorem eq_root_of_entryOf
    {m : WordMemory} {vm : Word} {level index : Nat}
    (layout : TreeLayout pagetree)
    (hlevel : level ≤ Pag.SMALLPAGE)
    (hindex : index < 512 ^ (level + 1))
    (hentry : entryOf vm m pagetree = layout.entry level index) :
    layout.entry level index = pagetree := by
  have hdistance := entryOf_distance vm m pagetree
  rw [hentry] at hdistance
  exact eq_root_of_distance hdistance (layout.near level index hlevel hindex)

/-- The exact addresses on which the walk and its inverse agree with the tree. -/
theorem walkExact_iff
    (layout : TreeLayout pagetree) (m : WordMemory) (vm : Word) :
    WalkExact layout m vm ↔
      vm.toNat < 549755813888 ∧ vm.toNat % 512 = 0 ∧ bitSet (m pagetree) 7 = true := by
  have hspan : levelSpan 0 = 549755813888 := rfl
  constructor
  · rintro ⟨level, hstops, hentry, rfl, hvm⟩
    have hnull : (0 : Word).toNat = 0 := rfl
    rw [entrytoVm_entryOf rfl, hnull, hspan] at hvm
    have hlow : vm.toNat < 549755813888 := by
      omega
    have hindex : vm.toNat / levelSpan 0 = 0 := by
      rw [hspan]
      omega
    rw [hindex, layout.root] at hentry
    have hlarge : bitSet (m pagetree) 7 = true := by
      rcases hstops.stopped with h | h
      · exact absurd h (by decide)
      · rwa [hindex, TreeLayout.Large, layout.root] at h
    refine ⟨hlow, ?_, hlarge⟩
    rw [← firstEntry_eq_root_iff vm pagetree]
    rw [entryOf_eq] at hentry
    split_ifs at hentry with hfirst
    · exact hentry
    · exact firstEntry_of_secondEntry hentry
  · rintro ⟨hlow, haligned, hlarge⟩
    have hfirst := (firstEntry_eq_root_iff vm pagetree).mpr haligned
    have hindex : vm.toNat / levelSpan 0 = 0 := by
      rw [hspan]
      omega
    have hentry : entryOf vm m pagetree = pagetree := by
      rw [entryOf_eq, hfirst, if_pos hlarge]
    refine ⟨0, ⟨by decide, fun above h => absurd h (Nat.not_lt_zero above), .inr ?_⟩, ?_, rfl, ?_⟩
    · rwa [hindex, TreeLayout.Large, layout.root]
    · rw [hindex, layout.root, hentry]
    · rw [entrytoVm_entryOf rfl, hindex]
      rfl

/-- **The walk and `entryto_vm` agree with the tree for the aligned addresses that a
large page at the very first entry stands for**, and bring back no leaf but that one. -/
theorem walk_exact_iff
    (layout : TreeLayout pagetree) (m : WordMemory) :
    (∀ vm, WalkExact layout m vm ↔
      vm.toNat < 549755813888 ∧ vm.toNat % 512 = 0 ∧ bitSet (m pagetree) 7 = true) ∧
    ∀ level index, layout.Leaf m level index →
      (entryOf (entrytoVm pagetree (layout.entry level index)) m pagetree =
          layout.entry level index ↔
        layout.entry level index = pagetree) := by
  refine ⟨walkExact_iff layout m, fun level index hleaf => ⟨?_, ?_⟩⟩
  · exact eq_root_of_entryOf layout hleaf.inside hleaf.bound
  · intro hroot
    have hback : entrytoVm pagetree pagetree = 0 := by
      rw [entrytoVm, BitVec.sub_self]
      decide
    rw [hroot, hback, entryOf, vmtoEntry_zero]

/-- In a tree without large pages already the address 4096 is not walked to its entry. -/
theorem smallPages_not_walked :
    ¬ WalkExact (contiguous 8192) (fun _ => 1) 4096 := by
  rw [walkExact_iff]
  decide

section Fetch

variable (layout : TreeLayout pagetree) (m : WordMemory) (pages_number level : Nat)

/-- Entries in a row of one directory that are present and unoccupied, below no large
page. -/
structure TreeLayout.Run (index : Nat) : Prop where
  bound : index + pages_number ≤ 512 ^ (level + 1)
  directory : ∀ i, i < pages_number → (index + i) / 512 = index / 512
  present : ∀ i, i < pages_number → bitSet (m (layout.entry level (index + i))) 0 = true
  unoccupied : ∀ i, i < pages_number → bitSet (m (layout.entry level (index + i))) 56 = false
  fathers : ∀ above, above < level → ¬ layout.Large m above (index / 512 ^ (level - above))

/-- What `vmtree_fetch` returns starts a run, and it fails only without one. -/
structure FetchExact : Prop where
  sound :
    fetchedPointer (vmtreeFetch pagetree m pages_number level).1 ≠ 0 →
      ∃ index, (fetchedPointer (vmtreeFetch pagetree m pages_number level).1).toNat =
          index * levelSpan level ∧
        layout.Run m pages_number level index
  complete :
    fetchedPointer (vmtreeFetch pagetree m pages_number level).1 = 0 →
      ¬ ∃ index, layout.Run m pages_number level index

/-- **`vmtree_fetch` is right exactly when the level has no run**: whatever it finds, it
returns the null pointer. -/
theorem fetch_exact_iff :
    FetchExact layout m pages_number level ↔
      ¬ ∃ index, layout.Run m pages_number level index := by
  have hnull : fetchedPointer (vmtreeFetch pagetree m pages_number level).1 = 0 :=
    fetchedPointer_vmtreeFetch m pages_number level
  constructor
  · intro hexact
    exact hexact.complete hnull
  · intro hnone
    exact ⟨fun h => absurd hnull h, fun _ => hnone⟩

/-- Where every entry is present and free the search still fails. -/
theorem freeTree_not_fetched :
    ¬ FetchExact (contiguous 8192) (fun _ => 1) 1 Pag.BIGPAGE := by
  intro hexact
  apply hexact.complete (fetchedPointer_vmtreeFetch _ _ _)
  refine ⟨0, by decide, ?_, ?_, ?_, ?_⟩
  · intro i hi
    rw [Nat.lt_one_iff.mp hi]
  · intro i _
    decide
  · intro i _
    decide
  · intro above _ hlarge
    have hclear : bitSet (1 : Word) 7 = false := by
      decide
    exact Bool.false_ne_true (hclear.symm.trans hlarge)

end Fetch

end Mem
end BestKernel
