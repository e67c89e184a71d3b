import BestKernel.Mem.Walk

/-!
# The page tree that `vmtree_lay` leaves

`vmtree_lay` writes the root table at its location and everything below from
`4096` words further up.  Here we record which words it touches, what the first
root entry looks like afterwards, and when a search that starts from a freshly
laid tree finds a region: `offset_by_depth` is used as an address, so the search
reads low memory and meets the tree only where the tree itself lies there.
-/

namespace BestKernel
namespace Mem

open Machine

/-- Below the root every level is laid over the same words. -/
theorem vmtreeLayLevels_of_not_mem
    {something a : Word}
    (ha : ∀ i, i < 2 ^ 32 → a ≠ wordAt something i) :
    ∀ (left g : Nat) (level_length : Half) (m : WordMemory),
      vmtreeLayLevels something left g level_length m a = m a
  | 0, _, _, _ => rfl
  | left + 1, g, level_length, m => by
      rw [vmtreeLayLevels, vmtreeLayLevels_of_not_mem ha]
      exact storeWords_of_not_mem fun i hi =>
        ha i (Nat.lt_trans hi (level_length * 512).isLt)

theorem wordAt_toNat
    {base : Word} {i : Nat}
    (h : base.toNat + 8 * i < 2 ^ 64) :
    (wordAt base i).toNat = base.toNat + 8 * i := by
  rw [wordAt, BitVec.toNat_add, BitVec.toNat_ofNat]
  omega

/-- Words below the location keep their contents. -/
theorem vmtreeLay_below
    {expected_usage : Nat} {m : WordMemory} {location a : Word}
    (husage : expected_usage ≤ 512)
    (hroom : location.toNat + 2 ^ 36 < 2 ^ 64)
    (ha : a.toNat < location.toNat) :
    vmtreeLay expected_usage m location a = m a := by
  have hne : ∀ i, i < 2 ^ 32 + 4096 → a ≠ wordAt location i := by
    intro i hi h
    have := congrArg BitVec.toNat h
    rw [wordAt_toNat (by omega)] at this
    omega
  unfold vmtreeLay
  dsimp only
  rw [uselessEntries_of_le husage, vmtreeLayLevels_of_not_mem, storeWords_of_not_mem,
    storeWords_of_not_mem]
  · exact fun i hi => hne i (by omega)
  · intro i hi
    rw [wordAt_wordAt]
    exact hne _ (by omega)
  · intro i hi
    rw [show (512 * 8 : Half).toNat = 4096 from rfl, wordAt_wordAt]
    exact hne _ (by omega)

/-- The first root entry points at the word `4096` words above the root. -/
theorem vmtreeLay_root
    {expected_usage : Nat} {m : WordMemory} {location : Word}
    (hpos : 0 < expected_usage)
    (husage : expected_usage ≤ 512) :
    vmtreeLay expected_usage m location location =
      memreqTemplate Pag.BIGPAGE .SEGFAULT Cache.WRITEBACK.code 0 |||
        (wordAt location 4096 <<< 13) := by
  have hne : ∀ i, 0 < i → i < 2 ^ 33 → location ≠ wordAt location i := by
    intro i hi hi' h
    have h0 : wordAt location 0 = wordAt location i := by
      rwa [wordAt_zero]
    have := (wordAt_inj (by omega) (by omega)).mp h0
    omega
  unfold vmtreeLay
  dsimp only
  rw [uselessEntries_of_le husage, vmtreeLayLevels_of_not_mem, storeWords_of_not_mem]
  · rw [storeWords_base (by omega) hpos]
    simp
  · intro i hi
    rw [wordAt_wordAt]
    exact hne _ (by omega) (by omega)
  · intro i hi
    rw [show (512 * 8 : Half).toNat = 4096 from rfl, wordAt_wordAt]
    exact hne _ (by omega) (by omega)

/-- The first root entry of a tree in low memory is present and unoccupied. -/
theorem vmtreeLay_root_free
    {expected_usage : Nat} {m : WordMemory} {location : Word}
    (hpos : 0 < expected_usage)
    (husage : expected_usage ≤ 512)
    (hlow : location.toNat + 32768 < 2 ^ 43) :
    bitSet (vmtreeLay expected_usage m location location) 0 = true ∧
      bitSet (vmtreeLay expected_usage m location location) 56 = false := by
  rw [vmtreeLay_root hpos husage, bitSet_eq_getLsbD _ (by decide),
    bitSet_eq_getLsbD _ (by decide), BitVec.getLsbD_or, BitVec.getLsbD_or,
    memreqTemplate_getLsbD_zero, memreqTemplate_getLsbD_high _ _ _ _ (by decide)]
  refine ⟨by simp, ?_⟩
  have hsmall : (wordAt location 4096).getLsbD 43 = false := by
    rw [← BitVec.testBit_toNat]
    apply Nat.testBit_lt_two_pow
    rw [wordAt_toNat (by omega)]
    omega
  simpa [BitVec.getLsbD_shiftLeft] using hsmall

/-- The address from which a search for middle pages scans. -/
theorem offsetByDepth_midpage (pagetree : Word) :
    offsetByDepth pagetree Pag.MIDPAGE = 4608#64 := by
  rw [offsetByDepth, if_neg (by decide)]
  decide

/--
A tree laid at address 8192, with nothing present in the words below it, is met
by a search for middle pages at its first root entry.
-/
theorem vmtreeFetch_low_tree
    {m : WordMemory} {pages_number : Nat}
    (hpages : 0 < pages_number)
    (hbelow : ∀ i, 0 < i → i < 448 → bitSet (m (wordAt 4608#64 i)) 0 = false)
    (hpresent : bitSet (m 8192#64) 0 = true)
    (hfree : bitSet (m 8192#64) 56 = false) :
    vmtreeFetch 8192#64 m pages_number Pag.MIDPAGE =
      (some 0, sign m 8192#64) := by
  have hroot : wordAt 4608#64 448 = 8192#64 := by decide
  have hblocked : ∀ i, i < 448 → fetchBlocked m 4608#64 (0 + i) = true := by
    intro i hi
    rw [Nat.zero_add]
    by_cases h0 : i = 0
    · subst h0
      simp [fetchBlocked]
    · simp [fetchBlocked, hbelow i (by omega) hi]
  have hhit : fetchBlocked m 4608#64 448 = false := by
    simp [fetchBlocked, hroot, hpresent, hfree]
  rw [vmtreeFetch, offsetByDepth_midpage,
    show getMultiFromPagetype Pag.MIDPAGE / 4096 = 448 + (63 + 1) by decide,
    fetchLoop_skip hpages hblocked, Nat.zero_add]
  exact fetchLoop_hit hhit hroot

end Mem
end BestKernel
