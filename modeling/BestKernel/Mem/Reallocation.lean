import BestKernel.Mem.FrameRuns
import BestKernel.Mem.Regions
import BestKernel.Mem.Signatures
import BestKernel.Mem.Translation
import BestKernel.Mem.TreeLevels

/-!
# Growing a region

`mem_realloc` and `mem_remap` release the entries of a region, search for a longer one
and write entries there.  `ReallocLaw` and `RemapLaw` say what they owe: the pages keep
their frames, further ones get frames that were free and are marked, and a failure leaves
everything as it was.

The frames found go to the array from index `oldpages-1` on, over the frame of the last
old page, and nobody marks them; `mem_remap` writes the address of its local array.  The
region found is at address 0, of which all that is read back is the root entry and words
far behind it.  So a region never grows rightly, and where nothing is to grow, or where
the call fails, the laws come down to what the root entry held (`RootFits`).

Readings of the source.  `phys` in `mem_remap` is the array, whose elements are eight
bytes long; its address is the parameter `array`.  `off` is a pointer to entries.
-/

namespace BestKernel
namespace Mem

open Machine

/-- `mem_remap`: the address, `none` where the source returns a negative number, and the
memory. -/
def memRemap (m : WordMemory) (pagetree vm : Word) (oldpages newpages : Half) (pagetype : Nat)
    (array : Word) : Option Word × WordMemory :=
  if oldpages > newpages then (none, m)
  else
    let (status, _, m) := deallocateVm m pagetree vm oldpages.toNat
    if status ≠ 0 then (none, m)
    else
      let (found, m) := vmtreeFetch pagetree m newpages.toNat pagetype
      let vm := fetchedPointer found
      if vm = -1 then (none, m)
      else
        let templ := memreqTemplate pagetype .RESERVE Cache.WRITEBACK.code 0
        let (m, off) := vmtoEntry vm m pagetree
        let addition := multiplierOf pagetype
        (some vm,
          storeWords m off
            (fun h => templ |||
              ((array + 8#64 * (addition * BitVec.ofNat 32 h).setWidth 64) <<< 13))
            newpages.toNat)

section Specification

variable (before after : WordMemory) (table table' : RamTable) (pagetree vm vm' : Word)
  (oldpages newpages pagetype : Nat)

/-- Where page `i` of a region starts. -/
def pageAddress (i : Nat) : Word :=
  vm + BitVec.ofNat 64 (i * getMultiFromPagetype pagetype)

/-- What a region that has moved owes. -/
structure MovedRight : Prop where
  kept :
    ∀ i, i < oldpages →
      physOf after pagetree (pageAddress vm' pagetype i) =
        physOf before pagetree (pageAddress vm pagetype i)
  fresh :
    ∀ i, oldpages ≤ i → i < newpages →
      ∀ n, n ∈ pageFrames (physOf after pagetree (pageAddress vm' pagetype i)) 1#32 pagetype →
        n ∉ usedFrames table ∧ n ∈ usedFrames table'
  gone :
    ∀ a, ¬ OutsideRegion vm a (oldpages * getMultiFromPagetype pagetype) →
      OutsideRegion vm' a (newpages * getMultiFromPagetype pagetype) →
      ¬ Translates after pagetree a

/-- What a failure owes. -/
structure FailedRight : Prop where
  kept :
    ∀ a, ¬ OutsideRegion vm a (oldpages * getMultiFromPagetype pagetype) →
      physOf after pagetree a = physOf before pagetree a
  table : table' = table

end Specification

section Laws

variable (m : WordMemory) (table : RamTable) (pagetree vm : Word) (oldpages newpages : Half)
  (pagetype : Nat)

/-- The address of the region that `mem_realloc` moves to. -/
def reallocAddress : Word :=
  fetchedPointer (vmtreeFetch pagetree
    (deallocateVm m pagetree vm oldpages.toNat).2.2 newpages.toNat pagetype).1

/-- **`mem_realloc` keeps the pages, or fails cleanly.**  It never writes the table, and
says nothing where the search for frames does not end. -/
def ReallocLaw (memlen : Half) (fuel : Nat) (stack : Nat → Word) : Prop :=
  match memRealloc memlen fuel table m pagetree vm oldpages newpages pagetype stack with
  | none => True
  | some (.refused tree) =>
      FailedRight m tree table table pagetree vm oldpages.toNat pagetype
  | some (.moved _ tree) =>
      MovedRight m tree table table pagetree vm
        (reallocAddress m pagetree vm oldpages newpages pagetype) oldpages.toNat newpages.toNat
        pagetype

/-- **`mem_remap` does, too.** -/
def RemapLaw (array : Word) : Prop :=
  match memRemap m pagetree vm oldpages newpages pagetype array with
  | (none, tree) => FailedRight m tree table table pagetree vm oldpages.toNat pagetype
  | (some vm', tree) =>
      MovedRight m tree table table pagetree vm vm' oldpages.toNat newpages.toNat pagetype

/-- `deallocate_vm` goes through for a region at address 0. -/
def Releasable : Prop :=
  pagetree ≠ 0 ∧ ∀ h, h < oldpages.toNat → bitSet (m (wordAt pagetree h)) 2 = false

/-- What the entry `a` translates page-aligned addresses to. -/
def frameAt (a : Word) : Word :=
  if a = 0 then 0 else decodeEntry (m a) 0

/-- With `entry` for the root entry the addresses of `S` keep their frames: it holds the
frame of the root entry, and if that one ends the walks, then the words that they go on
to without it hold this frame, too. -/
def RootFits (entry : Word) (S : Word → Prop) : Prop :=
  (pagetree = 0 ∨ decodeEntry entry 0 = decodeEntry (m pagetree) 0) ∧
    (bitSet (m pagetree) 7 = true →
      ∀ a, S a → frameAt m (secondEntry a pagetree) = frameAt m pagetree)

/-- The addresses in the old region that a walk looks up behind the root. -/
def AlignedIn (a : Word) : Prop :=
  a.toNat < oldpages.toNat * getMultiFromPagetype pagetype ∧ a.toNat % 512 = 0

/-- The pages of the old region. -/
def PageIn (a : Word) : Prop :=
  ∃ i, i < oldpages.toNat ∧ a = pageAddress 0 pagetype i

/-- The condition for a failure behind the release. -/
def FailureFits : Prop :=
  Releasable m pagetree oldpages → oldpages ≠ 0 →
    RootFits m pagetree segfaultEntry (AlignedIn oldpages pagetype)

/-- The condition for a success, given the frame that the first entry gets. -/
def SuccessFits (entry : Word) : Prop :=
  oldpages = newpages ∧ (oldpages ≠ 0 → RootFits m pagetree entry (PageIn oldpages pagetype))

/-- The condition on `mem_realloc`. -/
def ReallocSafe (memlen : Half) (fuel : Nat) (stack : Nat → Word) : Prop :=
  match getFreePhys memlen table (newpages - oldpages) pagetype fuel with
  | none => True
  | some (0, _) =>
      (Releasable m pagetree oldpages →
        SuccessFits m pagetree oldpages newpages pagetype (m pagetree)) ∧
      (¬ Releasable m pagetree oldpages →
        SuccessFits m pagetree oldpages newpages pagetype
          (memreqTemplate pagetype .RESERVE Cache.WRITEBACK.code 0 ||| (stack 0 <<< 13)))
  | some (_, _) => FailureFits m pagetree oldpages pagetype

/-- The condition on `mem_remap`. -/
def RemapSafe (array : Word) : Prop :=
  Releasable m pagetree oldpages →
    SuccessFits m pagetree oldpages newpages pagetype
      (memreqTemplate pagetype .RESERVE Cache.WRITEBACK.code 0 ||| (array <<< 13))

end Laws

section Translations

variable {m after : WordMemory} {pagetree vm : Word} {n : Nat}

/-- For the multiples of 512 all that is left of the offset drops out of the shift. -/
theorem physOf_of_aligned
    (haligned : vm.toNat % 512 = 0) :
    physOf m pagetree vm = frameAt m (entryOf vm m pagetree) := by
  have hcount : (18 + vm.toNat % 4096) % 64 = (18 + (0 : Word).toNat % 4096) % 64 := by
    have hzero : (0 : Word).toNat = 0 := rfl
    omega
  rw [physOf_eq, frameAt]
  simp only [decodeEntry, shr, hcount]

/-- Words a multiple of `2^46` bytes behind the root are not near it. -/
theorem not_within_of_distance
    {a : Word}
    (hn : n < 2 ^ 32)
    (hdistance : (a - pagetree).toNat % 70368744177664 = 0)
    (hroot : a ≠ pagetree) :
    ¬ Within pagetree n a := by
  rintro ⟨h, hh, rfl⟩
  refine hroot (eq_root_of_distance hdistance ?_)
  rw [wordAt, BitVec.add_comm, BitVec.add_sub_cancel, BitVec.toNat_ofNat]
  omega

/-- Equal up to signatures, the first `n` entries apart. -/
def SameBeyond (m after : WordMemory) (pagetree : Word) (n : Nat) : Prop :=
  ∀ a, ¬ Within pagetree n a → setBit (after a) 56 = setBit (m a) 56

theorem frameAt_congr
    {a : Word}
    (h : setBit (after a) 56 = setBit (m a) 56) :
    frameAt after a = frameAt m a := by
  simp only [frameAt, decodeEntry, h]

theorem SameBeyond.signAll
    (h : SameBeyond m after pagetree n)
    (l : List Word) :
    SameBeyond m (signAll after l) pagetree n :=
  fun a ha => (signAll_same after l a).trans (h a ha)

theorem SameBeyond.storeWords
    (h : SameBeyond m after pagetree n)
    (f : Nat → Word) :
    SameBeyond m (storeWords after pagetree f n) pagetree n := by
  intro a ha
  rw [storeWords_of_not_within ha]
  exact h a ha

theorem sameBeyond_of_same
    (h : SameButOccupied m after) :
    SameBeyond m after pagetree n :=
  fun a _ => h a

theorem bitSet_seven_of_setBit
    {x y : Word}
    (h : setBit x 56 = setBit y 56) :
    bitSet x 7 = bitSet y 7 := by
  have hbit := congrArg (fun z => bitSet z 7) h
  simpa [bitSet_setBit] using hbit

/-- The addresses that are no multiples of 512 never come to the first entries. -/
theorem physOf_of_unaligned
    (hn : n < 2 ^ 32)
    (hsame : SameBeyond m after pagetree n)
    (haligned : vm.toNat % 512 ≠ 0) :
    physOf after pagetree vm = physOf m pagetree vm := by
  have hfirst : firstEntry vm pagetree ≠ pagetree :=
    fun h => haligned ((firstEntry_eq_root_iff vm pagetree).mp h)
  have hsecond : secondEntry vm pagetree ≠ pagetree :=
    fun h => hfirst (firstEntry_of_secondEntry h)
  have hfirst' := hsame _ (not_within_of_distance hn (firstEntry_distance vm pagetree) hfirst)
  have hsecond' :=
    hsame _ (not_within_of_distance hn (secondEntry_distance vm pagetree) hsecond)
  rw [physOf_eq, physOf_eq, entryOf_eq, entryOf_eq, bitSet_seven_of_setBit hfirst']
  split_ifs <;> simp only [decodeEntry, hfirst', hsecond']

/-- The others pass the root, which does not stop them. -/
theorem physOf_of_rewritten
    (hn : n < 2 ^ 32)
    (hsame : SameBeyond m after pagetree n)
    (hroot : bitSet (after pagetree) 7 = false)
    (haligned : vm.toNat % 512 = 0) :
    physOf after pagetree vm =
      if secondEntry vm pagetree = pagetree then frameAt after pagetree
      else frameAt m (secondEntry vm pagetree) := by
  have hentry : entryOf vm after pagetree = secondEntry vm pagetree := by
    rw [entryOf_eq, (firstEntry_eq_root_iff vm pagetree).mpr haligned, hroot]
    simp
  rw [physOf_of_aligned haligned, hentry]
  split_ifs with hsecond
  · rw [hsecond]
  · exact frameAt_congr
      (hsame _ (not_within_of_distance hn (secondEntry_distance vm pagetree) hsecond))

/-- **When rewritten first entries keep the frames of some addresses.** -/
theorem kept_iff_rootFits
    {S : Word → Prop} (entry : Word)
    (hn : n < 2 ^ 32)
    (hsame : SameBeyond m after pagetree n)
    (hentry : setBit (after pagetree) 56 = setBit entry 56)
    (hsmall : bitSet entry 7 = false)
    (hzero : S 0)
    (haligned : ∀ a, S a → a.toNat % 512 = 0) :
    (∀ a, S a → physOf after pagetree a = physOf m pagetree a) ↔
      RootFits m pagetree entry S := by
  have hroot : bitSet (after pagetree) 7 = false :=
    (bitSet_seven_of_setBit hentry).trans hsmall
  have hframe : frameAt after pagetree = frameAt m pagetree ↔
      pagetree = 0 ∨ decodeEntry entry 0 = decodeEntry (m pagetree) 0 := by
    unfold frameAt
    simp only [decodeEntry, hentry]
    by_cases hnull : pagetree = 0
    · simp [hnull]
    · rw [if_neg hnull, if_neg hnull, or_iff_right hnull]
  have hbefore : ∀ a, S a → physOf m pagetree a =
      if bitSet (m pagetree) 7 then frameAt m pagetree else frameAt m (secondEntry a pagetree) := by
    intro a ha
    rw [physOf_of_aligned (haligned a ha), entryOf_eq,
      (firstEntry_eq_root_iff a pagetree).mpr (haligned a ha)]
    split_ifs <;> rfl
  rw [RootFits, ← hframe]
  constructor
  · intro hkept
    have hfirst : frameAt after pagetree = frameAt m pagetree := by
      have h := hkept 0 hzero
      rw [physOf_of_rewritten hn hsame hroot rfl, if_pos (secondEntry_zero pagetree),
        hbefore 0 hzero, secondEntry_zero, ite_self] at h
      exact h
    refine ⟨hfirst, fun hlarge a ha => ?_⟩
    have h := hkept a ha
    rw [physOf_of_rewritten hn hsame hroot (haligned a ha), hbefore a ha, if_pos hlarge] at h
    split_ifs at h with hback
    · rw [hback]
    · exact h
  · rintro ⟨hfirst, hlarge⟩ a ha
    rw [physOf_of_rewritten hn hsame hroot (haligned a ha), hbefore a ha]
    split_ifs with hback hstops hstops
    · exact hfirst
    · rw [hback]
      exact hfirst
    · exact hlarge hstops a ha
    · rfl

end Translations

section Release

variable {m : WordMemory} {table : RamTable} {pagetree vm : Word} {oldpages newpages : Half}
  {pagetype : Nat}

theorem releasable_iff :
    Releasable m pagetree oldpages ↔
      pagetree ≠ 0 ∧ ¬ Supervised m pagetree oldpages.toNat := by
  unfold Releasable Supervised
  simp

/-- A release that goes through. -/
theorem deallocateVm_releasable
    (h : Releasable m pagetree oldpages) :
    deallocateVm m pagetree 0 oldpages.toNat =
      (0,
        (List.range oldpages.toNat).map fun h =>
          shr (signAll m (walked 0 m pagetree) (wordAt pagetree h) <<< 5) 18,
        storeWords (signAll m (walked 0 m pagetree)) pagetree (fun _ => segfaultEntry)
          oldpages.toNat) := by
  have hfree : ¬ (entryOf 0 m pagetree = 0 ∨
      Supervised m (entryOf 0 m pagetree) oldpages.toNat) := by
    rw [entryOf_zero, not_or]
    exact releasable_iff.mp h
  have hreleased := deallocateVm_of_released hfree
  rwa [entryOf_zero] at hreleased

/-- One that does not collects nothing. -/
theorem deallocateVm_not_releasable
    (h : ¬ Releasable m pagetree oldpages) :
    ∃ status, status ≠ 0 ∧ deallocateVm m pagetree 0 oldpages.toNat =
      (status, [], signAll m (walked 0 m pagetree)) := by
  apply deallocateVm_of_refused
  rw [entryOf_zero]
  by_contra hnone
  exact h (releasable_iff.mpr (not_or.mp hnone))

theorem not_outsideRegion_zero_iff (a : Word) (length : Nat) :
    ¬ OutsideRegion 0 a length ↔ a.toNat < length := by
  have hzero : (0 : Word).toNat = 0 := rfl
  unfold OutsideRegion
  omega

/-- The tree behind a release and a search. -/
def afterSearch (m : WordMemory) (pagetree : Word) (oldpages newpages : Half)
    (pagetype : Nat) : WordMemory :=
  (vmtreeFetch pagetree (deallocateVm m pagetree 0 oldpages.toNat).2.2 newpages.toNat
    pagetype).2

theorem afterSearch_sameBeyond :
    SameBeyond m (afterSearch m pagetree oldpages newpages pagetype) pagetree
      oldpages.toNat := by
  have hwalked : SameBeyond m (signAll m (walked 0 m pagetree)) pagetree oldpages.toNat :=
    sameBeyond_of_same (signAll_same m _)
  rw [afterSearch, vmtreeFetch_snd]
  refine SameBeyond.signAll ?_ _
  by_cases h : Releasable m pagetree oldpages
  · rw [deallocateVm_releasable h]
    exact hwalked.storeWords _
  · obtain ⟨status, _, hrefused⟩ := deallocateVm_not_releasable h
    rw [hrefused]
    exact hwalked

/-- Nothing but signatures, unless entries were released. -/
theorem afterSearch_same
    (h : Releasable m pagetree oldpages → oldpages = 0) :
    SameButOccupied m (afterSearch m pagetree oldpages newpages pagetype) := by
  rw [afterSearch, vmtreeFetch_snd]
  refine SameButOccupied.trans ?_ (signAll_same _ _)
  by_cases hfree : Releasable m pagetree oldpages
  · rw [deallocateVm_releasable hfree, h hfree]
    exact signAll_same m _
  · obtain ⟨status, _, hrefused⟩ := deallocateVm_not_releasable hfree
    rw [hrefused]
    exact signAll_same m _

theorem afterSearch_root
    (h : Releasable m pagetree oldpages)
    (hpages : oldpages ≠ 0) :
    setBit (afterSearch m pagetree oldpages newpages pagetype pagetree) 56 =
      setBit segfaultEntry 56 := by
  have hlt := oldpages.isLt
  have hpos : 0 < oldpages.toNat := BitVec.toNat_pos_of_ne_zero hpages
  rw [afterSearch, vmtreeFetch_snd, signAll_same, deallocateVm_releasable h]
  dsimp only
  rw [storeWords_base (by omega) hpos]

/-- **A failure behind the release.** -/
theorem failedRight_iff :
    FailedRight m (afterSearch m pagetree oldpages newpages pagetype) table table pagetree 0
        oldpages.toNat pagetype ↔
      FailureFits m pagetree oldpages pagetype := by
  have hregion := not_outsideRegion_zero_iff
  by_cases hkept : Releasable m pagetree oldpages → oldpages = 0
  · have hsame : SameButOccupied m (afterSearch m pagetree oldpages newpages pagetype) :=
      afterSearch_same hkept
    refine ⟨fun _ hfree hpages => absurd (hkept hfree) hpages, fun _ => ⟨?_, rfl⟩⟩
    intro a _
    exact physOf_congr hsame pagetree a
  · rw [Classical.not_imp] at hkept
    obtain ⟨hfree, hpages⟩ := hkept
    have hlt := oldpages.isLt
    have hpos : 0 < oldpages.toNat := BitVec.toNat_pos_of_ne_zero hpages
    have hlength : 0 < oldpages.toNat * getMultiFromPagetype pagetype :=
      Nat.mul_pos hpos (Nat.lt_of_lt_of_le (by decide) (getMultiFromPagetype_ge pagetype))
    have hbeyond : SameBeyond m (afterSearch m pagetree oldpages newpages pagetype) pagetree
        oldpages.toNat := afterSearch_sameBeyond
    have hfits := kept_iff_rootFits (S := AlignedIn oldpages pagetype) _ hlt hbeyond
      (afterSearch_root hfree hpages) (by decide) ⟨hlength, rfl⟩ (fun a ha => ha.2)
    rw [FailureFits, imp_iff_right hfree, imp_iff_right hpages, ← hfits]
    constructor
    · rintro ⟨hall, _⟩ a ⟨hin, _⟩
      exact hall a ((hregion a _).mpr hin)
    · intro hall
      refine ⟨fun a hin => ?_, rfl⟩
      by_cases haligned : a.toNat % 512 = 0
      · exact hall a ⟨(hregion a _).mp hin, haligned⟩
      · exact physOf_of_unaligned hlt hbeyond haligned

end Release

section Growth

variable {m : WordMemory} {table : RamTable} {pagetree : Word} {oldpages newpages : Half}
  {pagetype : Nat}

/-- The entry of a reserved page, whatever its size. -/
theorem reserveTemplate_eq (pagetype : Nat) :
    memreqTemplate pagetype .RESERVE Cache.WRITEBACK.code 0 = 0x403#64 := by
  unfold memreqTemplate
  split_ifs <;> decide

theorem reserved_small (pagetype : Nat) (phys : Word) :
    bitSet (memreqTemplate pagetype .RESERVE Cache.WRITEBACK.code 0 ||| (phys <<< 13)) 7 =
      false := by
  rw [reserveTemplate_eq, bitSet_eq_getLsbD _ (by decide), BitVec.getLsbD_or]
  simp

/-- The frame read from an entry and written to another one is read from that one. -/
theorem decodeEntry_reserved (pagetype : Nat) (entry : Word) :
    decodeEntry (memreqTemplate pagetype .RESERVE Cache.WRITEBACK.code 0 |||
      (decodeEntry entry 0 <<< 13)) 0 = decodeEntry entry 0 := by
  have hcount : (18 + (0 : Word).toNat % 4096) % 64 = 18 := rfl
  have htemplate : ∀ i, 11 ≤ i → (0x403#64).getLsbD i = false := by
    intro i hi
    rw [← BitVec.testBit_toNat]
    exact Nat.testBit_lt_two_pow (Nat.lt_of_lt_of_le (by decide)
      (Nat.pow_le_pow_right (by decide) hi : 2 ^ 11 ≤ 2 ^ i))
  have hdecode : ∀ (e : Word) i, (decodeEntry e 0).getLsbD i =
      (decide (i < 46) && (e.getLsbD (i + 13) || decide (i = 43))) := by
    intro e i
    simp only [decodeEntry, shr, hcount, BitVec.getLsbD_ushiftRight, BitVec.getLsbD_shiftLeft]
    rw [show 18 + i - 5 = i + 13 by omega, getLsbD_setBit _ (by decide)]
    by_cases hi : i < 46
    · simp [hi, show 18 + i < 64 by omega, show ¬ 18 + i < 5 by omega]
    · simp [hi, show ¬ 18 + i < 64 by omega]
  apply BitVec.eq_of_getLsbD_eq
  intro i _
  rw [hdecode, hdecode, BitVec.getLsbD_or, reserveTemplate_eq, htemplate _ (by omega),
    BitVec.getLsbD_shiftLeft, show i + 13 - 13 = i by omega, hdecode]
  by_cases hi : i < 46
  · by_cases h43 : i = 43
    · simp [h43]
    · simp [hi, h43, show i + 13 < 64 by omega]
  · simp [hi]

/-- Pages start at multiples of 512. -/
theorem pageAddress_aligned (pagetype i : Nat) :
    (pageAddress 0#64 pagetype i).toNat % 512 = 0 := by
  obtain ⟨q, hq⟩ : 512 ∣ getMultiFromPagetype pagetype := by
    unfold getMultiFromPagetype
    split_ifs <;> decide
  rw [pageAddress, BitVec.zero_add, BitVec.toNat_ofNat, hq, Nat.mul_left_comm,
    show 2 ^ 64 = 512 * 2 ^ 55 from rfl, Nat.mul_mod_mul_left]
  omega

/-- Nothing is both free and marked in a table that does not change. -/
theorem not_movedRight_of_lt
    {after : WordMemory} {vm vm' : Word} {old new : Nat}
    (hlt : old < new) :
    ¬ MovedRight m after table table pagetree vm vm' old new pagetype := by
  intro h
  have hpages : 0 < getMultiFromPagetype pagetype / 4096 :=
    Nat.div_pos (getMultiFromPagetype_ge pagetype) (by decide)
  have hone : (1#32).toNat = 1 := rfl
  have hfresh := h.fresh old (Nat.le_refl old) hlt
    ((physOf after pagetree (pageAddress vm' pagetype old)).toNat / 4096)
    ⟨Nat.le_refl _, by rw [hone]; omega⟩
  exact hfresh.1 hfresh.2

/-- **A region at 0 that has moved to 0 and kept its length.** -/
theorem movedRight_same_iff
    (m : WordMemory) (table : RamTable) (pagetree : Word) (pages : Half) (pagetype : Nat)
    (f : Nat → Word) (phys : Word)
    (hpos : 0 < pages.toNat)
    (hfirst : f 0 = memreqTemplate pagetype .RESERVE Cache.WRITEBACK.code 0 ||| (phys <<< 13)) :
    MovedRight m
        (storeWords (sign (afterSearch m pagetree pages pages pagetype) pagetree) pagetree
          f pages.toNat)
        table table pagetree 0 0 pages.toNat pages.toNat pagetype ↔
      RootFits m pagetree (f 0) (PageIn pages pagetype) := by
  have hlt := pages.isLt
  have hbeyond : SameBeyond m
      (storeWords (sign (afterSearch m pagetree pages pages pagetype) pagetree)
        pagetree f pages.toNat) pagetree pages.toNat :=
    (afterSearch_sameBeyond.signAll [pagetree]).storeWords f
  have hsmall : bitSet (f 0) 7 = false := by
    rw [hfirst]
    exact reserved_small pagetype phys
  have haligned : ∀ a, PageIn pages pagetype a → a.toNat % 512 = 0 := by
    rintro a ⟨i, _, rfl⟩
    exact pageAddress_aligned pagetype i
  have hfits := kept_iff_rootFits (S := PageIn pages pagetype) (f 0) hlt hbeyond
    (by rw [storeWords_base (by omega) hpos]) hsmall ⟨0, hpos, by simp [pageAddress]⟩
    haligned
  rw [← hfits]
  constructor
  · rintro h a ⟨i, hi, rfl⟩
    exact h.kept i hi
  · intro hall
    refine ⟨fun i hi => hall _ ⟨i, hi, rfl⟩, ?_, ?_⟩
    · intro i hi hi'
      omega
    · intro a hin hout
      exact absurd hout hin

/-- A region without pages is always right. -/
theorem movedRight_zero
    {after : WordMemory} {vm : Word} :
    MovedRight m after table table pagetree vm vm 0 0 pagetype := by
  refine ⟨?_, ?_, ?_⟩
  · intro i hi
    exact absurd hi (Nat.not_lt_zero i)
  · intro i _ hi
    exact absurd hi (Nat.not_lt_zero i)
  · intro a hin hout
    exact absurd hout hin

/-- **A region at 0 that has moved to 0.** -/
theorem movedRight_iff
    (m : WordMemory) (table : RamTable) (pagetree : Word) (pagetype : Nat)
    (f : Nat → Word) (phys : Word)
    (hle : oldpages ≤ newpages)
    (hfirst : f 0 = memreqTemplate pagetype .RESERVE Cache.WRITEBACK.code 0 ||| (phys <<< 13)) :
    MovedRight m
        (storeWords (sign (afterSearch m pagetree oldpages newpages pagetype) pagetree) pagetree
          f newpages.toNat)
        table table pagetree 0 0 oldpages.toNat newpages.toNat pagetype ↔
      SuccessFits m pagetree oldpages newpages pagetype (f 0) := by
  have hle' : oldpages.toNat ≤ newpages.toNat := hle
  by_cases hpages : oldpages = newpages
  · subst hpages
    rw [SuccessFits, and_iff_right rfl]
    by_cases hzero : oldpages = 0
    · subst hzero
      exact iff_of_true movedRight_zero fun h => absurd rfl h
    · rw [imp_iff_right hzero]
      exact movedRight_same_iff m table pagetree oldpages pagetype f phys
        (BitVec.toNat_pos_of_ne_zero hzero) hfirst
  · have hlt : oldpages.toNat < newpages.toNat := by
      have hne : oldpages.toNat ≠ newpages.toNat := fun h => hpages (BitVec.eq_of_toNat_eq h)
      omega
    exact ⟨fun h => absurd h (not_movedRight_of_lt hlt), fun h => absurd h.1 hpages⟩

/-- Of the first entry only its frame matters. -/
theorem successFits_congr
    {entry entry' : Word}
    (h : oldpages ≠ 0 → decodeEntry entry 0 = decodeEntry entry' 0) :
    SuccessFits m pagetree oldpages newpages pagetype entry ↔
      SuccessFits m pagetree oldpages newpages pagetype entry' := by
  unfold SuccessFits RootFits
  refine and_congr_right fun _ => forall_congr' fun hpages => ?_
  rw [h hpages]

end Growth

section Calls

variable {m : WordMemory} {table : RamTable} {pagetree : Word} {oldpages newpages : Half}
  {pagetype fuel : Nat} {memlen : Half} {stack : Nat → Word}

/-- `mem_realloc` of a region at 0. -/
theorem memRealloc_eq
    (hle : oldpages ≤ newpages) :
    memRealloc memlen fuel table m pagetree 0 oldpages newpages pagetype stack =
      (getFreePhys memlen table (newpages - oldpages) pagetype fuel).map fun r =>
        if r.1 ≠ 0 then .refused (afterSearch m pagetree oldpages newpages pagetype)
        else
          .moved r.2
            (storeWords (sign (afterSearch m pagetree oldpages newpages pagetype) pagetree)
              pagetree
              (fun h => memreqTemplate pagetype .RESERVE Cache.WRITEBACK.code 0 |||
                (reallocPhys stack oldpages.toNat
                  (deallocateVm m pagetree 0 oldpages.toNat).2.1 r.2 h <<< 13))
              newpages.toNat) := by
  have hguard : ¬ oldpages > newpages := BitVec.not_lt.mpr hle
  unfold memRealloc
  rw [if_neg hguard]
  dsimp only
  rw [fetchedPointer_vmtreeFetch, if_neg (by decide), vmtoEntry_zero]
  cases getFreePhys memlen table (newpages - oldpages) pagetype fuel with
  | none => rfl
  | some r =>
      rw [Option.map_some]
      split_ifs with hstatus
      · simp [hstatus, afterSearch]
      · simp [hstatus, afterSearch]

/-- The first element of the array when nothing is to grow. -/
theorem decodeEntry_reallocPhys
    (hpages : oldpages ≠ 0) :
    (Releasable m pagetree oldpages →
      reallocPhys stack oldpages.toNat (deallocateVm m pagetree 0 oldpages.toNat).2.1 [] 0 =
        decodeEntry (m pagetree) 0) ∧
    (¬ Releasable m pagetree oldpages →
      reallocPhys stack oldpages.toNat (deallocateVm m pagetree 0 oldpages.toNat).2.1 [] 0 =
        stack 0) := by
  have hpos : 0 < oldpages.toNat := BitVec.toNat_pos_of_ne_zero hpages
  constructor
  · intro hfree
    have hmem : pagetree ∈ walked 0#64 m pagetree :=
      (mem_walked_zero m pagetree pagetree).mpr rfl
    rw [deallocateVm_releasable hfree]
    simp [reallocPhys, hpos, signAll_apply, hmem, decodeEntry]
  · intro hfree
    obtain ⟨status, _, hrefused⟩ := deallocateVm_not_releasable hfree
    rw [hrefused]
    simp [reallocPhys]

theorem reallocLaw_iff
    (hle : oldpages ≤ newpages) :
    ReallocLaw m table pagetree 0 oldpages newpages pagetype memlen fuel stack ↔
      ReallocSafe m table pagetree oldpages newpages pagetype memlen fuel stack := by
  have haddress : reallocAddress m pagetree 0 oldpages newpages pagetype = 0 :=
    fetchedPointer_vmtreeFetch _ _ _
  unfold ReallocLaw ReallocSafe
  rw [memRealloc_eq hle, haddress]
  cases hfound : getFreePhys memlen table (newpages - oldpages) pagetype fuel with
  | none => exact Iff.rfl
  | some r =>
      obtain ⟨status, new⟩ := r
      cases status with
      | succ status => exact failedRight_iff
      | zero =>
          have hmoved := movedRight_iff m table pagetree pagetype
            (fun h => memreqTemplate pagetype .RESERVE Cache.WRITEBACK.code 0 |||
              (reallocPhys stack oldpages.toNat
                (deallocateVm m pagetree 0 oldpages.toNat).2.1 new h <<< 13)) _ hle rfl
          refine hmoved.trans ?_
          by_cases hpages : oldpages = newpages
          · subst hpages
            have hnone : new = [] := by
              rw [BitVec.sub_self] at hfound
              exact getFreePhys_zero hfound
            subst hnone
            by_cases hfree : Releasable m pagetree oldpages
            · rw [imp_iff_right hfree, and_iff_left (fun h => absurd hfree h)]
              refine successFits_congr fun hzero => ?_
              rw [(decodeEntry_reallocPhys hzero).1 hfree]
              exact decodeEntry_reserved pagetype (m pagetree)
            · rw [imp_iff_right hfree, and_iff_right (fun h => absurd h hfree)]
              refine successFits_congr fun hzero => ?_
              rw [(decodeEntry_reallocPhys hzero).2 hfree]
          · refine iff_of_false (fun h => hpages h.1) ?_
            rintro ⟨hgood, hbad⟩
            by_cases hfree : Releasable m pagetree oldpages
            · exact hpages (hgood hfree).1
            · exact hpages (hbad hfree).1

/-- `mem_remap` of a region at 0. -/
theorem remapLaw_iff
    (hle : oldpages ≤ newpages)
    (array : Word) :
    RemapLaw m table pagetree 0 oldpages newpages pagetype array ↔
      RemapSafe m pagetree oldpages newpages pagetype array := by
  have hguard : ¬ oldpages > newpages := BitVec.not_lt.mpr hle
  unfold RemapLaw RemapSafe memRemap
  rw [if_neg hguard]
  dsimp only
  by_cases hfree : Releasable m pagetree oldpages
  · have hstatus : (deallocateVm m pagetree 0 oldpages.toNat).1 = 0 := by
      rw [deallocateVm_releasable hfree]
    rw [if_neg (not_not_intro hstatus), fetchedPointer_vmtreeFetch, if_neg (by decide),
      vmtoEntry_zero, imp_iff_right hfree]
    have hmoved := movedRight_iff m table pagetree pagetype
      (fun h => memreqTemplate pagetype .RESERVE Cache.WRITEBACK.code 0 |||
        ((array + 8#64 * (multiplierOf pagetype * BitVec.ofNat 32 h).setWidth 64) <<< 13))
      array hle (by simp)
    refine hmoved.trans (successFits_congr fun _ => ?_)
    simp
  · obtain ⟨status, hstatus, hrefused⟩ := deallocateVm_not_releasable hfree
    rw [hrefused, if_pos hstatus]
    refine iff_of_true ⟨fun a _ => ?_, rfl⟩ (fun h => absurd h hfree)
    exact physOf_congr (signAll_same m _) pagetree a

/-- A region that `mem_alloc` or `mem_map` has handed out, at whatever time. -/
def HandedOut (pagetree vm : Word) : Prop :=
  (∃ m₀ pagetype pages_number, (memAlloc m₀ pagetree pagetype pages_number).1 = some vm) ∨
    ∃ m₀ target pagetype pages_number cache,
      (memMap m₀ pagetree target pagetype pages_number cache).1 = some vm

theorem HandedOut.eq_zero
    {vm : Word}
    (h : HandedOut pagetree vm) :
    vm = 0 := by
  rcases h with ⟨m₀, pagetype, pages_number, hfound⟩ | ⟨m₀, target, pagetype, pages_number, cache, hfound⟩
  · rw [memAlloc_fst] at hfound
    exact vmtreeFetch_eq_zero hfound
  · rw [memMap_fst] at hfound
    exact vmtreeFetch_eq_zero hfound

/-- **When a region keeps its pages, or the call fails cleanly.** -/
theorem reallocation_iff
    {vm : Word}
    (hvm : HandedOut pagetree vm)
    (hle : oldpages ≤ newpages)
    (array : Word) :
    (ReallocLaw m table pagetree vm oldpages newpages pagetype memlen fuel stack ↔
      ReallocSafe m table pagetree oldpages newpages pagetype memlen fuel stack) ∧
    (RemapLaw m table pagetree vm oldpages newpages pagetype array ↔
      RemapSafe m pagetree oldpages newpages pagetype array) := by
  rw [hvm.eq_zero]
  exact ⟨reallocLaw_iff hle, remapLaw_iff hle array⟩

end Calls

section Examples

theorem handedOut_lowTree : HandedOut 8192#64 0 :=
  Or.inl ⟨lowTree, Pag.MIDPAGE, 1, by rw [memAlloc_fst, vmtreeFetch_lowTree (by decide)]⟩

theorem reallocation_iff_lowTree :
    (ReallocLaw lowTree (fun _ => 0) 8192#64 0 1#32 1#32 Pag.SMALLPAGE 4096#32 1 (fun _ => 0) ↔
      ReallocSafe lowTree (fun _ => 0) 8192#64 1#32 1#32 Pag.SMALLPAGE 4096#32 1
        (fun _ => 0)) ∧
    (RemapLaw lowTree (fun _ => 0) 8192#64 0 1#32 1#32 Pag.SMALLPAGE 4096#64 ↔
      RemapSafe lowTree 8192#64 1#32 1#32 Pag.SMALLPAGE 4096#64) :=
  reallocation_iff handedOut_lowTree (by decide) 4096#64

/-- A tree of reserved pages over the frame at 8192. -/
def reservedTree : WordMemory := fun _ => 0x4000403#64

/-- With all frames in use a region of one page is lost when it is to become one of two. -/
theorem region_lost :
    HandedOut 8192#64 0 ∧
      ¬ ReallocLaw reservedTree (fun _ => 0xFF#8) 8192#64 0 1#32 2#32 Pag.SMALLPAGE 4096#32 2
        (fun _ => 0) := by
  refine ⟨handedOut_lowTree, ?_⟩
  have hfull : getFreePhys 4096#32 (fun _ => 0xFF#8) (2#32 - 1#32) Pag.SMALLPAGE 2 =
      some (1, []) := by
    decide
  rw [reallocLaw_iff (by decide), ReallocSafe, hfull]
  intro hfits
  have hfree : Releasable reservedTree 8192#64 1#32 :=
    ⟨by decide, fun _ _ => (by decide : bitSet 0x4000403#64 2 = false)⟩
  rcases (hfits hfree (by decide)).1 with hnull | hframe
  · exact absurd hnull (by decide)
  · exact absurd hframe (by decide)

end Examples

end Mem
end BestKernel
