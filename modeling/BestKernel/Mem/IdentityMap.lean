import BestKernel.Mem.Segments
import BestKernel.Mem.TreeLevels

/-!
# Identity mappings

`map_identity` should make a range of physical memory its own translation, with
`physto_offset` for the entry of the first page.  `IdentityMapped` says so.

`physto_offset` traps, or it comes to a word between one and two times `2^39` bytes behind
the root, where no walk ends, and the entries written have no address in them.  So it is met
by no call, and already the translations are flat for no range but the empty one.
-/

namespace BestKernel
namespace Mem

open Machine

section Specification

variable (y : Nat) (m : WordMemory) (pagetree target : Word) (pages_number cache user : Half)

/-- The entry that `vmto_entry` finds for page `i` of the range. -/
def rangeEntry (i : Nat) : Word :=
  entryOf (target + BitVec.ofNat 64 (4096 * i)) m pagetree

/-- The call returns, and every byte of the range translates to itself. -/
def TranslatesFlat : Prop :=
  ∃ m', mapIdentity y m pagetree target pages_number cache user = some m' ∧
    ∀ k, k < 4096 * pages_number.toNat →
      physOf m' pagetree (target + BitVec.ofNat 64 k) = target + BitVec.ofNat 64 k

/-- **Identity mapping is the identity**: flat translations, the settings asked for in the
entries of the range, no other entry changed, and the right entry to start from. -/
structure IdentityMapped : Prop where
  flat : TranslatesFlat y m pagetree target pages_number cache user
  settings :
    ∀ m', mapIdentity y m pagetree target pages_number cache user = some m' →
      ∀ i, i < pages_number.toNat → ∃ payload : Word,
        m' (rangeEntry m pagetree target i) = identityTemplate cache user ||| (payload <<< 13)
  frame :
    ∀ m', mapIdentity y m pagetree target pages_number cache user = some m' →
      ∀ a, (∀ i, i < pages_number.toNat → a ≠ rangeEntry m pagetree target i) → m' a = m a
  start : phystoOffset y pagetree target = some (entryOf target m pagetree)

end Specification

/-- Each round divides by the divisor of the round before, over 512. -/
theorem phystoOffsetLoop_eq_none_iff
    {left : Nat} {phys second : Word} {g : Half} :
    phystoOffsetLoop (left + 1) phys g second = none ↔ g.toNat < 512 ^ left := by
  induction left generalizing phys g second with
  | zero =>
      rw [phystoOffsetLoop, pow_zero, Nat.lt_one_iff]
      split_ifs with hg
      · exact iff_of_true rfl (congrArg BitVec.toNat hg)
      · exact iff_of_false (by simp [phystoOffsetLoop])
          fun h => hg (BitVec.eq_of_toNat_eq h)
  | succ left ih =>
      have h512 : (512 : Half).toNat = 512 := rfl
      rw [phystoOffsetLoop, pow_succ]
      split_ifs with hg
      · have hzero : g.toNat = 0 := congrArg BitVec.toNat hg
        exact iff_of_true rfl (by rw [hzero]; exact Nat.mul_pos (Nat.pow_pos (by decide)) (by decide))
      · refine ih.trans ?_
        rw [BitVec.toNat_udiv, h512, Nat.div_lt_iff_lt_mul (by decide)]

/-- **`physto_offset` traps unless it starts from the size of a large page.** -/
theorem phystoOffset_eq_none_iff
    (y : Nat) (pagetree phys : Word) :
    phystoOffset y pagetree phys = none ↔ y ≠ Pag.BIGPAGE ∧ y ≠ Pag.MIDPAGE := by
  have hsize : (multiplierOf y).toNat < 512 ^ 2 ↔ y ≠ Pag.BIGPAGE ∧ y ≠ Pag.MIDPAGE := by
    unfold multiplierOf getMultiFromPagetype
    split_ifs with hmid hbig
    · exact iff_of_false (by decide) fun h => h.2 hmid
    · exact iff_of_false (by decide) fun h => h.1 hbig
    · exact iff_of_true (by decide) ⟨hbig, hmid⟩
  rw [phystoOffset, Option.map_eq_none_iff, ← hsize]
  exact phystoOffsetLoop_eq_none_iff

theorem mapIdentity_eq_none_iff
    (y : Nat) (m : WordMemory) (pagetree target : Word) (pages_number cache user : Half) :
    mapIdentity y m pagetree target pages_number cache user = none ↔
      y ≠ Pag.BIGPAGE ∧ y ≠ Pag.MIDPAGE := by
  rw [mapIdentity, Option.map_eq_none_iff, phystoOffset_eq_none_iff]

/-- The digits that `physto_offset` puts together stay below `2^39`. -/
theorem phystoOffsetLoop_lt
    {left : Nat} {phys second digits : Word} {g : Half}
    (hg : g.toNat ≤ 1073741824)
    (hsecond : second.toNat < 2 ^ 39)
    (h : phystoOffsetLoop left phys g second = some digits) :
    digits.toNat < 2 ^ 39 := by
  induction left generalizing phys g second with
  | zero =>
      cases h
      exact hsecond
  | succ left ih =>
      rw [phystoOffsetLoop] at h
      split_ifs at h
      refine ih ?_ ?_ h
      · have h512 : (512 : Half).toNat = 512 := rfl
        rw [BitVec.toNat_udiv, h512]
        omega
      · have hdigit : (shl phys (64 - g * 9 + 12).toNat >>> 55).toNat < 512 := by
          rw [BitVec.toNat_ushiftRight, Nat.shiftRight_eq_div_pow]
          omega
        have hproduct : g.toNat * (shl phys (64 - g * 9 + 12).toNat >>> 55).toNat < 2 ^ 39 :=
          Nat.lt_of_le_of_lt (Nat.mul_le_mul_right _ hg) (by omega)
        have hterm : (g.setWidth 64 * (shl phys (64 - g * 9 + 12).toNat >>> 55)).toNat <
            2 ^ 39 := by
          have hsmall : g.toNat % 2 ^ 64 = g.toNat := Nat.mod_eq_of_lt (by omega)
          rw [BitVec.toNat_mul, BitVec.toNat_setWidth, hsmall, Nat.mod_eq_of_lt (by omega)]
          exact hproduct
        rw [BitVec.toNat_or]
        exact Nat.or_lt_two_pow hsecond hterm

theorem multiplierOf_toNat_le (pagetype : Nat) : (multiplierOf pagetype).toNat ≤ 1073741824 := by
  unfold multiplierOf getMultiFromPagetype
  split_ifs <;> decide

/-- Where `physto_offset` comes to. -/
theorem phystoOffset_spec
    {y : Nat} {pagetree phys entry : Word}
    (h : phystoOffset y pagetree phys = some entry) :
    ∃ digits : Word, digits.toNat < 2 ^ 39 ∧ entry = pagetree + (552983334912#64 + digits) := by
  obtain ⟨digits, hdigits, rfl⟩ := Option.map_eq_some_iff.mp h
  refine ⟨digits, phystoOffsetLoop_lt (multiplierOf_toNat_le y) (by decide) hdigits, ?_⟩
  rw [BitVec.add_assoc]
  rfl

/-- **`physto_offset` comes to no entry that a walk ends at.** -/
theorem phystoOffset_ne_entryOf (y : Nat) (m : WordMemory) (pagetree phys vm : Word) :
    phystoOffset y pagetree phys ≠ some (entryOf vm m pagetree) := by
  intro h
  obtain ⟨digits, hdigits, hentry⟩ := phystoOffset_spec h
  have hdistance := entryOf_distance vm m pagetree
  rw [hentry, BitVec.add_comm, BitVec.add_sub_cancel, BitVec.toNat_add, BitVec.toNat_ofNat]
    at hdistance
  omega

/-- What `map_identity` leaves at an address. -/
theorem mapIdentity_spec
    {y : Nat} {m m' : WordMemory} {pagetree target : Word} {pages_number cache user : Half}
    (h : mapIdentity y m pagetree target pages_number cache user = some m') :
    ∃ entry, phystoOffset y pagetree target = some entry ∧
      m' = storeWords m entry (fun _ => identityTemplate cache user) pages_number.toNat := by
  obtain ⟨entry, hentry, rfl⟩ := Option.map_eq_some_iff.mp h
  exact ⟨entry, hentry, rfl⟩

theorem translatesFlat_iff (y : Nat) (m : WordMemory) (pagetree target : Word)
    (pages_number cache user : Half) :
    TranslatesFlat y m pagetree target pages_number cache user ↔
      (y = Pag.BIGPAGE ∨ y = Pag.MIDPAGE) ∧ pages_number = 0 := by
  have htrap := mapIdentity_eq_none_iff y m pagetree target pages_number cache user
  constructor
  · rintro ⟨m', hreturns, hflat⟩
    rw [hreturns] at htrap
    refine ⟨?_, ?_⟩
    · by_contra hlevel
      exact Option.some_ne_none _ (htrap.mpr (not_or.mp hlevel))
    · by_contra hpages
      have hpos : 0 < pages_number.toNat := BitVec.toNat_pos_of_ne_zero hpages
      refine not_flat_of_four m' pagetree target fun i hi => ?_
      have hfirst := hflat 0 (by omega)
      rw [BitVec.add_zero] at hfirst
      rw [hflat i (by omega), hfirst]
  · rintro ⟨hlevel, rfl⟩
    obtain ⟨m', hreturns⟩ := Option.ne_none_iff_exists'.mp
      fun h => not_or.mpr (htrap.mp h) hlevel
    exact ⟨m', hreturns, fun k hk => absurd hk (Nat.not_lt_zero k)⟩

/-- **No call maps a range to itself**, and only the empty range translates to itself. -/
theorem not_identityMapped (y : Nat) (m : WordMemory) (pagetree target : Word)
    (pages_number cache user : Half) :
    ¬ IdentityMapped y m pagetree target pages_number cache user ∧
      (TranslatesFlat y m pagetree target pages_number cache user ↔
        (y = Pag.BIGPAGE ∨ y = Pag.MIDPAGE) ∧ pages_number = 0) :=
  ⟨fun h => phystoOffset_ne_entryOf y m pagetree target target h.start,
    translatesFlat_iff y m pagetree target pages_number cache user⟩

/-- One page of the kernel, at 1 MiB, in a tree at 8192. -/
theorem kernelPage_not_identity :
    ¬ IdentityMapped Pag.MIDPAGE (vmtreeLay 256 (fun _ => 0) 8192#64) 8192#64 0x100000#64 1#32
      Cache.WRITEBACK.code 1#32 := by
  intro h
  exact absurd ((translatesFlat_iff _ _ _ _ _ _ _).mp h.flat).2 (by decide)

end Mem
end BestKernel
