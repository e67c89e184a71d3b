import BestKernel.Mem.FrameRuns
import BestKernel.Mem.FrameSearch
import Mathlib.Data.Finset.Card

/-!
# What the frame searches find

A search that finds a page has gone through `multiplier` free bits in a row, each the
even bit of an element, and reports the place where the row ends.  The frames of the
page that it reports are others, some of which no search ever looks at.

For a request of pages that memory may hold there is always a table on which
`get_free_identity` is wrong.  For more pages than memory has blocks a search must find
nothing: `SearchExact` then holds for every table as long as neither gate can be reached
(`QuotaReached`) and the table is too short for a search to go round and find the same
page again and again.
-/

namespace BestKernel
namespace Mem

open Machine

section Specification

variable (memlen : Half) (table : RamTable) (pages_number : Half) (pagetype : Nat)

/-- The frames of a page. -/
def blockFrames (pagetype : Nat) : Nat :=
  getMultiFromPagetype pagetype / 4096

/-- The blocks of a page's size that lie in memory. -/
def blockCount (memlen : Half) (pagetype : Nat) : Nat :=
  memlen.toNat / blockFrames pagetype

/-- Every bit that covers a block in memory is clear. -/
def BlockFree (b : Nat) : Prop :=
  b < blockCount memlen pagetype ∧
    ∀ n, n / blockFrames pagetype = b → n ∉ usedFrames table

/-- The searches find free blocks, and fail only when there are none. -/
structure SearchExact : Prop where
  phys_sound :
    ∀ fuel addresses,
      getFreePhys memlen table pages_number pagetype fuel = some (0, addresses) →
        addresses.length = pages_number.toNat ∧ addresses.Nodup ∧
          ∀ a, a ∈ addresses → ∃ b, a.toNat = b * getMultiFromPagetype pagetype ∧
            BlockFree memlen table pagetype b
  phys_complete :
    ∀ fuel addresses,
      getFreePhys memlen table pages_number pagetype fuel = some (1, addresses) →
        ∀ s : Finset Nat, (∀ b, b ∈ s → BlockFree memlen table pagetype b) →
          s.card < pages_number.toNat
  identity_sound :
    ∀ fuel ret,
      getFreeIdentity memlen table pages_number pagetype fuel = some ret → ret ≠ 0 →
        ∃ b, ret.toNat = b * getMultiFromPagetype pagetype ∧
          ∀ i, i < pages_number.toNat → BlockFree memlen table pagetype (b + i)
  identity_complete :
    ∀ fuel,
      getFreeIdentity memlen table pages_number pagetype fuel = some 0 →
        ¬ ∃ b, ∀ i, i < pages_number.toNat → BlockFree memlen table pagetype (b + i)

/-- What the gate of `get_free_identity` counts up to. -/
def identityQuota (pages_number : Half) (pagetype : Nat) : Nat :=
  (multiplierOf pagetype * pages_number).toNat

/-- Some table lets `get_free_identity` reach its quota at an address other than 0.
With big pages a row of free bits from the start on ends at a multiple of `2^32`. -/
def QuotaReached (memlen pages_number : Half) (pagetype : Nat) : Prop :=
  if pagetype = Pag.BIGPAGE then
    identityQuota pages_number pagetype ≠ 0 ∧
      16 * strideOf pagetype + 1 + identityQuota pages_number pagetype ≤
        16 * (memlen.toNat / 8)
  else
    0 < memlen.toNat / 8 ∧ identityQuota pages_number pagetype ≤ 16 * (memlen.toNat / 8)

theorem pagetype_cases (pagetype : Nat) :
    (pagetype = Pag.BIGPAGE ∧ strideOf pagetype = 134217728 ∧ blockFrames pagetype = 262144) ∨
      (pagetype ≠ Pag.BIGPAGE ∧ strideOf pagetype = 262144 ∧ blockFrames pagetype = 512) ∨
      (pagetype ≠ Pag.BIGPAGE ∧ strideOf pagetype = 512 ∧ blockFrames pagetype = 1) := by
  unfold strideOf blockFrames getMultiFromPagetype
  split_ifs with hmid hbig
  · right; left
    refine ⟨?_, rfl, rfl⟩
    rw [hmid]
    decide
  · exact .inl ⟨hbig, rfl, rfl⟩
  · exact .inr (.inr ⟨hbig, rfl, rfl⟩)

theorem identityQuota_eq :
    identityQuota pages_number pagetype =
      8 * strideOf pagetype * pages_number.toNat % 4294967296 := by
  rw [identityQuota, BitVec.toNat_mul, multiplierOf_toNat]

theorem identityQuota_lt : identityQuota pages_number pagetype < 4294967296 :=
  BitVec.isLt _

end Specification

section Stretches

variable {memlen pages_number : Half} {cells : Cells} {pagetype : Nat}

/-- A row of free bits that stays below the quota. -/
theorem identity_stretch
    (cells : Cells) (pages_number : Half) (pagetype : Nat)
    (hmemory : 0 < memlen.toNat / 8)
    {n p g : Nat}
    (hend : p + n ≤ 16 * (memlen.toNat / 8) + 1)
    (hquota : g + n ≤ identityQuota pages_number pagetype)
    (hfree : ∀ r, p ≤ r → ¬ UsedAt cells r) :
    Loops.Reaches (identityRoundOver memlen cells pages_number pagetype)
      (cursorAt p (BitVec.ofNat 32 g)) (cursorAt (p + n) (BitVec.ofNat 32 (g + n))) := by
  induction n generalizing p g with
  | zero => exact .here _
  | succ n ih =>
      have hlt := identityQuota_lt pages_number pagetype
      have hin : (p - 1) / 16 < memlen.toNat / 8 := by
        omega
      have hround := identityRoundOver_inside cells pages_number pagetype
        (BitVec.ofNat 32 g) hin
      have hgate : ¬ BitVec.ofNat 32 g = multiplierOf pagetype * pages_number := by
        intro h
        have hg := congrArg BitVec.toNat h
        rw [BitVec.toNat_ofNat, Nat.mod_eq_of_lt (by omega)] at hg
        unfold identityQuota at hquota
        omega
      rw [if_neg hgate, if_neg (hfree p (Nat.le_refl p)), gate_succ] at hround
      have hrest := ih (p := p + 1) (g := g + 1) (by omega) (by omega)
        (fun r hr => hfree r (by omega))
      rw [show p + (n + 1) = p + 1 + n by omega, show g + (n + 1) = g + 1 + n by omega]
      exact .next hround hrest

/-- Over free bits only, `get_free_identity` finds its quota or reaches the end. -/
theorem identity_of_free
    (memlen pages_number : Half) (pagetype : Nat) {p : Nat}
    (hplace : (p - 1) / 16 < 4294967296)
    (hfree : ∀ r, p ≤ r → ¬ UsedAt cells r) :
    ∃ fuel, Loops.run (identityRoundOver memlen cells pages_number pagetype) fuel
      (cursorAt p 0) = some
        (if 0 < memlen.toNat / 8 ∧
            p + identityQuota pages_number pagetype ≤ 16 * (memlen.toNat / 8) then
          (placedAt (p + identityQuota pages_number pagetype)
            (multiplierOf pagetype * pages_number)).address (multiplierOf pagetype)
        else 0) := by
  have hlt := identityQuota_lt pages_number pagetype
  split_ifs with hreached
  · have hrow := identity_stretch cells pages_number pagetype hreached.1 (p := p) (g := 0)
      (n := identityQuota pages_number pagetype) (by omega) (by omega) hfree
    have hin : (p + identityQuota pages_number pagetype - 1) / 16 < memlen.toNat / 8 := by
      omega
    have hround := identityRoundOver_inside cells pages_number pagetype
      (multiplierOf pagetype * pages_number) hin
    rw [if_pos rfl] at hround
    rw [Nat.zero_add, identityQuota, BitVec.ofNat_toNat, BitVec.setWidth_eq] at hrow
    exact hrow.run (Loops.run_exit hround 0)
  · by_cases hin : (p - 1) / 16 < memlen.toNat / 8
    · -- the row runs to the end of the table
      have hmemory : 0 < memlen.toNat / 8 := by
        omega
      have hrow := identity_stretch cells pages_number pagetype hmemory (p := p) (g := 0)
        (n := 16 * (memlen.toNat / 8) + 1 - p) (by omega) (by omega) hfree
      have hmemlen := memlen.isLt
      have hout : ¬ (p + (16 * (memlen.toNat / 8) + 1 - p) - 1) / 16 < memlen.toNat / 8 := by
        omega
      have hround := identityRoundOver_outside cells pages_number pagetype
        (BitVec.ofNat 32 (0 + (16 * (memlen.toNat / 8) + 1 - p))) (by omega) hout
      exact hrow.run (Loops.run_exit hround 0)
    · exact ⟨1, Loops.run_exit
        (identityRoundOver_outside cells pages_number pagetype 0 hplace hin) 0⟩

/-- The same after a used bit at the start, which sends the search to the element
`strideOf pagetype`. -/
theorem identity_of_first_used
    (hmemory : 0 < memlen.toNat / 8)
    (hquota : identityQuota pages_number pagetype ≠ 0)
    (hused : UsedAt cells 0)
    (hfree : ∀ r, 16 * strideOf pagetype + 1 ≤ r → ¬ UsedAt cells r) :
    ∃ fuel, searchIdentity memlen cells pages_number pagetype fuel = some
      (if 16 * strideOf pagetype + 1 + identityQuota pages_number pagetype ≤
          16 * (memlen.toNat / 8) then
        (placedAt (16 * strideOf pagetype + 1 + identityQuota pages_number pagetype)
          (multiplierOf pagetype * pages_number)).address (multiplierOf pagetype)
      else 0) := by
  have hgate : ¬ (0 : Half) = multiplierOf pagetype * pages_number := by
    intro h
    apply hquota
    rw [identityQuota, ← h]
    rfl
  have hround := identityRoundOver_inside cells pages_number pagetype (p := 0) 0 hmemory
  have hleap : leapFrom (strideOf pagetype) 0 = 16 * strideOf pagetype + 1 := by
    simp [leapFrom, leap]
  rw [if_neg hgate, if_pos hused, hleap] at hround
  have hstride := strideOf_cases pagetype
  obtain ⟨fuel, hrun⟩ := identity_of_free memlen pages_number pagetype
    (p := 16 * strideOf pagetype + 1) (by omega) hfree
  refine ⟨fuel + 1, ?_⟩
  rw [searchIdentity, ← cursorAt_zero, Loops.run_next hround, hrun]
  simp [hmemory]

end Stretches

section Addresses

theorem doublings_four_pow :
    ∀ i, i < 16 →
      doublings 32 (BitVec.ofNat 32 (4 ^ i)) 0 = BitVec.ofNat 32 (32 - 2 * i) := by
  decide

/-- The address that a search reports at a place. -/
theorem address_placedAt
    {p : Nat}
    (pagetype : Nat) (gate : Half)
    (hp : p / 16 < 536870912) :
    ((placedAt p gate).address (multiplierOf pagetype)).toNat =
      (p / 16 + (32 - 2 * (p % 16))) * (8 * strideOf pagetype) % 4294967296 := by
  have hphase : p % 16 < 16 := Nat.mod_lt _ (by decide)
  rw [Cursor.address, placedAt, doublings_four_pow _ hphase, ← BitVec.ofNat_add,
    BitVec.toNat_setWidth, BitVec.toNat_mul, multiplierOf_toNat, BitVec.toNat_ofNat,
    Nat.mod_eq_of_lt (a := p / 16 + (32 - 2 * (p % 16))) (by omega)]
  exact Nat.mod_eq_of_lt (Nat.lt_trans (Nat.mod_lt _ (by decide)) (by decide))

/-- A row of free bits from the start on ends at address 0 with big pages only. -/
theorem address_quota_eq_zero_iff
    (pages_number gate : Half) (pagetype : Nat) :
    (placedAt (identityQuota pages_number pagetype) gate).address (multiplierOf pagetype) = 0 ↔
      pagetype = Pag.BIGPAGE := by
  have hlt := identityQuota_lt pages_number pagetype
  have hquota := identityQuota_eq pages_number pagetype
  have hnull : (0 : Word).toNat = 0 := rfl
  rw [← BitVec.toNat_inj, address_placedAt pagetype gate (by omega), hnull]
  rcases pagetype_cases pagetype with ⟨hbig, hstride, -⟩ | ⟨hbig, hstride, -⟩ | ⟨hbig, hstride, -⟩
  · rw [hstride] at hquota ⊢
    exact iff_of_true (by omega) hbig
  · rw [hstride] at hquota ⊢
    exact iff_of_false (by omega) hbig
  · rw [hstride] at hquota ⊢
    exact iff_of_false (by omega) hbig

/-- After a used bit at the start the row ends elsewhere. -/
theorem address_jumped_ne_zero
    {pagetype : Nat}
    (pages_number gate : Half)
    (hbig : pagetype = Pag.BIGPAGE) :
    (placedAt (16 * strideOf pagetype + 1 + identityQuota pages_number pagetype) gate).address
      (multiplierOf pagetype) ≠ 0 := by
  have hquota := identityQuota_eq pages_number pagetype
  have hstride : strideOf pagetype = 134217728 := by
    rw [hbig]
    rfl
  have hnull : (0 : Word).toNat = 0 := rfl
  intro hzero
  rw [← BitVec.toNat_inj, address_placedAt pagetype gate (by omega), hnull, hstride] at hzero
  rw [hstride] at hquota
  omega

end Addresses

section Tables

variable {memlen pages_number : Half} {table : RamTable} {pagetype : Nat}

/-- No frame is used. -/
def clearTable : RamTable :=
  fun _ => 0

/-- The frames whose bit no search looks at are used. -/
def oddTable : RamTable :=
  fun _ => 0xAA

/-- Frames 0 and 798 are used. -/
def firstTable : RamTable :=
  fun i => if i = 0 then 1 else if i = 99 then 0x40 else 0

theorem not_usedAt_clearTable (p : Nat) : ¬ UsedAt (byteCells clearTable) p := by
  simp [UsedAt, byteCells, clearTable]

theorem not_usedAt_oddTable (p : Nat) : ¬ UsedAt (byteCells oddTable) p := by
  have hbit : ∀ i, i < 16 → (0xAA : Byte).setWidth 32 &&& BitVec.ofNat 32 (4 ^ i) = (0 : Half) := by
    decide
  exact not_not.mpr (hbit _ (Nat.mod_lt _ (by decide)))

theorem usedAt_firstTable : UsedAt (byteCells firstTable) 0 := by
  decide

theorem not_usedAt_firstTable
    {p : Nat}
    (hp : 1600 ≤ p) :
    ¬ UsedAt (byteCells firstTable) p := by
  have hindex : p / 16 ≠ 0 ∧ p / 16 ≠ 99 := by
    omega
  simp [UsedAt, byteCells, firstTable, hindex]

theorem mem_usedFrames_oddTable (n : Nat) : n ∈ usedFrames oddTable ↔ n % 2 = 1 := by
  have hbit : ∀ i, i < 8 → ((0xAA : Byte).getLsbD i = true ↔ i % 2 = 1) := by
    decide
  have hn := hbit (n % 8) (Nat.mod_lt _ (by decide))
  rw [Nat.mod_mod_of_dvd n (by decide)] at hn
  exact hn

/-- Over free bits only `get_free_identity` has one of two results. -/
theorem getFreeIdentity_of_free
    (memlen pages_number : Half) (pagetype : Nat)
    (hfree : ∀ r, ¬ UsedAt (byteCells table) r) :
    ∃ fuel, getFreeIdentity memlen table pages_number pagetype fuel = some
      (if 0 < memlen.toNat / 8 ∧
          identityQuota pages_number pagetype ≤ 16 * (memlen.toNat / 8) then
        (placedAt (identityQuota pages_number pagetype)
          (multiplierOf pagetype * pages_number)).address (multiplierOf pagetype)
      else 0) := by
  obtain ⟨fuel, hrun⟩ := identity_of_free memlen pages_number pagetype (p := 0) (by decide)
    (fun r _ => hfree r)
  refine ⟨fuel, ?_⟩
  rw [← searchIdentity_byteCells, searchIdentity, ← cursorAt_zero, hrun, Nat.zero_add]

/-- The null pointer is wrong on an empty table that holds the request. -/
theorem not_exact_of_null
    {fuel : Nat}
    (hroom : pages_number.toNat ≤ blockCount memlen pagetype)
    (hrun : getFreeIdentity memlen clearTable pages_number pagetype fuel = some 0) :
    ¬ SearchExact memlen clearTable pages_number pagetype := by
  intro hexact
  apply hexact.identity_complete fuel hrun
  refine ⟨0, fun i hi => ⟨by omega, fun n _ => ?_⟩⟩
  simp [usedFrames, clearTable]

/-- An address is wrong where memory has too few blocks. -/
theorem not_exact_of_few
    {fuel : Nat} {ret : Word}
    (hfew : blockCount memlen pagetype < pages_number.toNat)
    (hrun : getFreeIdentity memlen table pages_number pagetype fuel = some ret)
    (hret : ret ≠ 0) :
    ¬ SearchExact memlen table pages_number pagetype := by
  intro hexact
  rcases hexact.identity_sound fuel ret hrun hret with ⟨b, -, hblocks⟩
  have hlast := (hblocks (pages_number.toNat - 1) (by omega)).1
  omega

/-- Two frames in a row have an odd one among them. -/
theorem exists_odd_frame
    (hframes : 2 ≤ blockFrames pagetype * pages_number.toNat) (b : Nat) :
    ∃ i n, i < pages_number.toNat ∧ n / blockFrames pagetype = b + i ∧ n % 2 = 1 := by
  rcases pagetype_cases pagetype with ⟨-, -, hsize⟩ | ⟨-, -, hsize⟩ | ⟨-, -, hsize⟩
  · rw [hsize] at hframes ⊢
    exact ⟨0, 262144 * b + 1, by omega, by omega, by omega⟩
  · rw [hsize] at hframes ⊢
    exact ⟨0, 512 * b + 1, by omega, by omega, by omega⟩
  · rw [hsize] at hframes ⊢
    exact ⟨(b + 1) % 2, b + (b + 1) % 2, by omega, by omega, by omega⟩

theorem not_exact_oddTable
    {fuel : Nat} {ret : Word}
    (hframes : 2 ≤ blockFrames pagetype * pages_number.toNat)
    (hrun : getFreeIdentity memlen oddTable pages_number pagetype fuel = some ret)
    (hret : ret ≠ 0) :
    ¬ SearchExact memlen oddTable pages_number pagetype := by
  intro hexact
  rcases hexact.identity_sound fuel ret hrun hret with ⟨b, -, hblocks⟩
  rcases exists_odd_frame hframes b with ⟨i, n, hi, hblock, hodd⟩
  exact (hblocks i hi).2 n hblock ((mem_usedFrames_oddTable n).mpr hodd)

/-- One small page: on `firstTable` the search reports frame 798 or nothing. -/
theorem not_exact_firstTable
    (hmemory : 256 ≤ memlen.toNat / 8)
    (hsmall : strideOf pagetype = 512)
    (hframes : blockFrames pagetype = 1) :
    ¬ SearchExact memlen firstTable 1#32 pagetype := by
  have hquota : identityQuota 1#32 pagetype = 4096 := by
    rw [identityQuota_eq, hsmall]
    rfl
  have hquota' : identityQuota 1#32 pagetype ≠ 0 := by
    omega
  have hmemory' : 0 < memlen.toNat / 8 := by
    omega
  obtain ⟨fuel, hrun⟩ := identity_of_first_used hmemory' hquota' usedAt_firstTable
    (fun r hr => not_usedAt_firstTable (by omega))
  rw [searchIdentity_byteCells, hquota, hsmall] at hrun
  have hmemlen := memlen.isLt
  intro hexact
  split_ifs at hrun with hlong
  · have haddress := address_placedAt (p := 16 * 512 + 1 + 4096) pagetype
      (multiplierOf pagetype * 1#32) (by decide)
    rw [hsmall] at haddress
    have hnonnull : (placedAt (16 * 512 + 1 + 4096)
        (multiplierOf pagetype * 1#32)).address (multiplierOf pagetype) ≠ 0 := by
      intro hzero
      rw [hzero] at haddress
      exact absurd haddress (by decide)
    rcases hexact.identity_sound fuel _ hrun hnonnull with ⟨b, hb, hblocks⟩
    rw [haddress, getMulti_eq_strideOf, hsmall] at hb
    have h798 : b = 798 := by
      omega
    have hused : (798 : Nat) ∈ usedFrames firstTable := by
      simp [usedFrames, firstTable]
    exact (hblocks 0 (by decide)).2 798 (by rw [hframes, h798]) hused
  · apply hexact.identity_complete fuel hrun
    refine ⟨1, fun i hi => ?_⟩
    have hzero : i = 0 := by
      simpa using hi
    rw [hzero]
    refine ⟨?_, fun n hn => ?_⟩
    · unfold blockCount
      rw [hframes]
      omega
    · rw [hframes, Nat.div_one] at hn
      simp [usedFrames, firstTable, hn]

/-- For a request that memory may hold some table misleads `get_free_identity`. -/
theorem exists_not_exact_of_room
    (hpages : pages_number ≠ 0)
    (hroom : pages_number.toNat ≤ blockCount memlen pagetype) :
    ∃ table, ¬ SearchExact memlen table pages_number pagetype := by
  obtain ⟨fuel, hclear⟩ := getFreeIdentity_of_free memlen pages_number pagetype
    not_usedAt_clearTable
  obtain ⟨fuel', hodd⟩ := getFreeIdentity_of_free memlen pages_number pagetype
    not_usedAt_oddTable
  by_cases hreached : 0 < memlen.toNat / 8 ∧
      identityQuota pages_number pagetype ≤ 16 * (memlen.toNat / 8)
  · rw [if_pos hreached] at hclear hodd
    have hzero := address_quota_eq_zero_iff pages_number
      (multiplierOf pagetype * pages_number) pagetype
    by_cases hbig : pagetype = Pag.BIGPAGE
    · rw [hzero.mpr hbig] at hclear
      exact ⟨clearTable, not_exact_of_null hroom hclear⟩
    · by_cases hframes : 2 ≤ blockFrames pagetype * pages_number.toNat
      · exact ⟨oddTable, not_exact_oddTable hframes hodd (fun h => hbig (hzero.mp h))⟩
      · -- one small page
        have hpos : pages_number.toNat ≠ 0 := fun h => hpages (BitVec.eq_of_toNat_eq h)
        rcases pagetype_cases pagetype with ⟨h, -, -⟩ | ⟨-, -, hsize⟩ | ⟨-, hstride, hsize⟩
        · exact absurd h hbig
        · rw [hsize] at hframes
          omega
        · rw [hsize] at hframes
          obtain rfl : pages_number = 1#32 := by
            apply BitVec.eq_of_toNat_eq
            rw [BitVec.toNat_ofNat]
            omega
          have hquota := identityQuota_eq 1#32 pagetype
          rw [hstride] at hquota
          refine ⟨firstTable, not_exact_firstTable ?_ hstride hsize⟩
          simp only [BitVec.toNat_ofNat] at hquota
          omega
  · rw [if_neg hreached] at hclear
    exact ⟨clearTable, not_exact_of_null hroom hclear⟩

/-- Where the quota can be reached some table yields an address. -/
theorem exists_not_exact_of_quotaReached
    (hfew : blockCount memlen pagetype < pages_number.toNat)
    (hreached : QuotaReached memlen pages_number pagetype) :
    ∃ table, ¬ SearchExact memlen table pages_number pagetype := by
  unfold QuotaReached at hreached
  have hstride := strideOf_cases pagetype
  split_ifs at hreached with hbig
  · have hmemory : 0 < memlen.toNat / 8 := by
      omega
    obtain ⟨fuel, hrun⟩ := identity_of_first_used hmemory hreached.1 usedAt_firstTable
      (fun r hr => not_usedAt_firstTable (by omega))
    rw [if_pos hreached.2, searchIdentity_byteCells] at hrun
    exact ⟨firstTable, not_exact_of_few hfew hrun
      (address_jumped_ne_zero pages_number _ hbig)⟩
  · obtain ⟨fuel, hrun⟩ := getFreeIdentity_of_free memlen pages_number pagetype
      not_usedAt_clearTable
    rw [if_pos hreached] at hrun
    have hzero := address_quota_eq_zero_iff pages_number
      (multiplierOf pagetype * pages_number) pagetype
    exact ⟨clearTable, not_exact_of_few hfew hrun (fun h => hbig (hzero.mp h))⟩

end Tables

section Cycle

variable {memlen pages_number : Half} {pagetype : Nat}

/-- Bit 0 of the element behind one and a half strides: it sends a search back far
enough to go through `multiplier` free bits again. -/
def cycleTable (stride : Nat) : RamTable :=
  fun i => if i = stride + stride / 2 + 2 then 1 else 0

theorem usedAt_cycleTable
    (stride p : Nat) :
    UsedAt (byteCells (cycleTable stride)) p ↔ p = 16 * (stride + stride / 2 + 2) := by
  have hbit : ∀ i, i < 16 → ((1 : Half) &&& BitVec.ofNat 32 (4 ^ i) ≠ 0 ↔ i = 0) := by
    decide
  unfold UsedAt byteCells cycleTable
  by_cases helement : p / 16 = stride + stride / 2 + 2
  · rw [if_pos helement, show (1 : Byte).setWidth 32 = (1 : Half) from rfl,
      hbit _ (Nat.mod_lt _ (by decide))]
    omega
  · simp only [if_neg helement, BitVec.ofNat_eq_ofNat, BitVec.setWidth_zero,
      BitVec.zero_and, ne_eq, not_true_eq_false, false_iff]
    omega

/-- A row of free bits on which the gate does not come to `multiplier`. -/
theorem phys_stretch
    {physrets : List Word}
    (cells : Cells) (pagetype : Nat)
    (hmemory : 0 < memlen.toNat / 8)
    (hcount : BitVec.ofNat 32 physrets.length ≠ pages_number)
    {n p g : Nat}
    (hend : p + n ≤ 16 * (memlen.toNat / 8) + 1)
    (hgate : g + n ≤ 8 * strideOf pagetype ∨
      8 * strideOf pagetype < g ∧ g + n < 4294967296)
    (hfree : ∀ r, p ≤ r → r < p + n → ¬ UsedAt cells r) :
    Loops.Reaches (physRoundOver memlen cells pages_number pagetype)
      (cursorAt p (BitVec.ofNat 32 g), physrets)
      (cursorAt (p + n) (BitVec.ofNat 32 (g + n)), physrets) := by
  induction n generalizing p g with
  | zero => exact .here _
  | succ n ih =>
      have hstride := strideOf_cases pagetype
      have hmiss : ¬ BitVec.ofNat 32 g = multiplierOf pagetype := by
        intro h
        have hg := congrArg BitVec.toNat h
        rw [BitVec.toNat_ofNat, multiplierOf_toNat] at hg
        omega
      have hin : (p - 1) / 16 < memlen.toNat / 8 := by
        omega
      have hround := physRoundOver_inside cells pages_number pagetype
        (BitVec.ofNat 32 g) physrets hin
      have hfound : foundAt pagetype p (BitVec.ofNat 32 g) physrets = physrets :=
        if_neg hmiss
      rw [hfound, if_neg hcount, if_neg (hfree p (Nat.le_refl p) (by omega)), gate_succ]
        at hround
      have hrest := ih (p := p + 1) (g := g + 1) (by omega) (by omega)
        (fun r hr hlast => hfree r (by omega) (by omega))
      rw [show p + (n + 1) = p + 1 + n by omega, show g + (n + 1) = g + 1 + n by omega]
      exact .next hround hrest

/-- The body of `get_free_phys` over `cycleTable`. -/
abbrev cycleRound (memlen pages_number : Half) (pagetype : Nat) :=
  physRoundOver memlen (byteCells (cycleTable (strideOf pagetype))) pages_number pagetype

/-- The place that the used bit sends a search to. -/
def cyclePlace (pagetype : Nat) : Nat :=
  16 * (strideOf pagetype + 1) + 1

/-- From the used bit a search goes back. -/
theorem cycle_used
    {physrets : List Word} {gate : Half}
    (hlong : strideOf pagetype + strideOf pagetype / 2 + 2 ≤ memlen.toNat / 8)
    (hgate : gate ≠ multiplierOf pagetype)
    (hcount : BitVec.ofNat 32 physrets.length ≠ pages_number) :
    cycleRound memlen pages_number pagetype
        (cursorAt (16 * (strideOf pagetype + strideOf pagetype / 2 + 2)) gate, physrets) =
      .inl (cursorAt (cyclePlace pagetype) 0, physrets) := by
  have hfound : foundAt pagetype (16 * (strideOf pagetype + strideOf pagetype / 2 + 2))
      gate physrets = physrets := if_neg hgate
  have hindex : 16 * (strideOf pagetype + strideOf pagetype / 2 + 2) / 16 =
      strideOf pagetype + strideOf pagetype / 2 + 2 := by
    omega
  have hleap : leap (strideOf pagetype) (strideOf pagetype + strideOf pagetype / 2 + 2) =
      strideOf pagetype + 1 := by
    rcases strideOf_cases pagetype with h | h | h <;> rw [h] <;> rfl
  have hplace : leapFrom (strideOf pagetype)
      (16 * (strideOf pagetype + strideOf pagetype / 2 + 2)) = cyclePlace pagetype := by
    rw [leapFrom, hindex, hleap, Nat.mul_mod_right, cyclePlace]
  rw [cycleRound, physRoundOver_inside _ _ _ gate physrets (by omega), hfound, if_neg hcount,
    if_pos ((usedAt_cycleTable _ _).mpr rfl), hplace]

/-- The round in which a search of `cycleTable` has the page. -/
theorem cycle_found
    {p : Nat} {physrets : List Word}
    (hlong : strideOf pagetype + strideOf pagetype / 2 + 2 ≤ memlen.toNat / 8)
    (hp : p ≤ cyclePlace pagetype)
    (hcount : BitVec.ofNat 32 physrets.length ≠ pages_number) :
    Loops.Reaches (cycleRound memlen pages_number pagetype) (cursorAt p 0, physrets)
      (cursorAt (p + 8 * strideOf pagetype) (multiplierOf pagetype), physrets) := by
  have hstride := strideOf_cases pagetype
  have hgate : BitVec.ofNat 32 (0 + 8 * strideOf pagetype) = multiplierOf pagetype := by
    rw [Nat.zero_add, ← multiplierOf_toNat, BitVec.ofNat_toNat, BitVec.setWidth_eq]
  unfold cyclePlace at hp
  have hmemory : 0 < memlen.toNat / 8 := by
    omega
  have hrow := phys_stretch (byteCells (cycleTable (strideOf pagetype))) pagetype
    hmemory hcount (n := 8 * strideOf pagetype) (p := p) (g := 0)
    (by omega) (.inl (by omega)) (fun r _ hr hused => by
      have := (usedAt_cycleTable _ r).mp hused
      omega)
  rw [hgate] at hrow
  exact hrow

/-- With the page found it goes on to the used bit, and from there back. -/
theorem cycle_back
    {p : Nat} {physrets : List Word}
    (hlong : strideOf pagetype + strideOf pagetype / 2 + 2 ≤ memlen.toNat / 8)
    (hp : p ≤ cyclePlace pagetype)
    (hcount : BitVec.ofNat 32 physrets.length ≠ pages_number) :
    Loops.Reaches (cycleRound memlen pages_number pagetype)
      (cursorAt (p + 8 * strideOf pagetype + 1) (multiplierOf pagetype + 1), physrets)
      (cursorAt (cyclePlace pagetype) 0, physrets) := by
  have hstride := strideOf_cases pagetype
  have hgate : multiplierOf pagetype + 1 = BitVec.ofNat 32 (8 * strideOf pagetype + 1) := by
    rw [← gate_succ, ← multiplierOf_toNat, BitVec.ofNat_toNat, BitVec.setWidth_eq]
  have hsum : p + 8 * strideOf pagetype + 1 +
      (16 * (strideOf pagetype + strideOf pagetype / 2 + 2) -
        (p + 8 * strideOf pagetype + 1)) =
      16 * (strideOf pagetype + strideOf pagetype / 2 + 2) := by
    unfold cyclePlace at hp
    omega
  have hmemory : 0 < memlen.toNat / 8 := by
    omega
  have hrow := phys_stretch (byteCells (cycleTable (strideOf pagetype))) pagetype
    hmemory hcount
    (n := 16 * (strideOf pagetype + strideOf pagetype / 2 + 2) -
      (p + 8 * strideOf pagetype + 1))
    (p := p + 8 * strideOf pagetype + 1) (g := 8 * strideOf pagetype + 1)
    (by omega) (.inr (by omega)) (fun r _ hr hused => by
      have := (usedAt_cycleTable _ r).mp hused
      omega)
  rw [hsum, ← hgate] at hrow
  refine hrow.trans (.next (cycle_used hlong ?_ hcount) (.here _))
  intro h
  have hg := congrArg BitVec.toNat h
  rw [BitVec.toNat_ofNat, multiplierOf_toNat] at hg
  omega

/-- The round that adds the page. -/
theorem cycle_adds
    {p : Nat}
    (pages_number : Half) (physrets : List Word)
    (hlong : strideOf pagetype + strideOf pagetype / 2 + 2 ≤ memlen.toNat / 8)
    (hp : p ≤ cyclePlace pagetype) :
    ∃ a : Word, cycleRound memlen pages_number pagetype
        (cursorAt (p + 8 * strideOf pagetype) (multiplierOf pagetype), physrets) =
      if BitVec.ofNat 32 (physrets ++ [a]).length = pages_number then
        .inr (0, physrets ++ [a])
      else .inl (cursorAt (p + 8 * strideOf pagetype + 1) (multiplierOf pagetype + 1),
        physrets ++ [a]) := by
  have hstride := strideOf_cases pagetype
  have hfree : ¬ UsedAt (byteCells (cycleTable (strideOf pagetype)))
      (p + 8 * strideOf pagetype) := by
    rw [usedAt_cycleTable]
    unfold cyclePlace at hp
    omega
  have hin : (p + 8 * strideOf pagetype - 1) / 16 < memlen.toNat / 8 := by
    unfold cyclePlace at hp
    omega
  have hround := physRoundOver_inside (byteCells (cycleTable (strideOf pagetype)))
    pages_number pagetype (multiplierOf pagetype) physrets hin
  rw [foundAt, if_pos rfl, if_neg hfree] at hround
  exact ⟨_, hround⟩

theorem count_ne
    {physrets : List Word} {missing : Nat}
    (hmissing : physrets.length + (missing + 1) = pages_number.toNat) :
    BitVec.ofNat 32 physrets.length ≠ pages_number := by
  have hlt := pages_number.isLt
  intro h
  have hc := congrArg BitVec.toNat h
  rw [BitVec.toNat_ofNat] at hc
  omega

/-- On `cycleTable` `get_free_phys` finds as many pages as it is asked for. -/
theorem cycle_finds
    (hlong : strideOf pagetype + strideOf pagetype / 2 + 2 ≤ memlen.toNat / 8)
    {missing p : Nat} {physrets : List Word}
    (hmissing : physrets.length + (missing + 1) = pages_number.toNat)
    (hp : p ≤ cyclePlace pagetype) :
    ∃ fuel addresses, Loops.run (cycleRound memlen pages_number pagetype) fuel
      (cursorAt p 0, physrets) = some (0, addresses) := by
  induction missing generalizing p physrets with
  | zero =>
      have hfound := cycle_found hlong hp (count_ne hmissing)
      obtain ⟨a, hround⟩ := cycle_adds pages_number physrets hlong hp
      have hlast : BitVec.ofNat 32 (physrets ++ [a]).length = pages_number := by
        rw [List.length_append, List.length_singleton, hmissing, BitVec.ofNat_toNat,
          BitVec.setWidth_eq]
      rw [if_pos hlast] at hround
      obtain ⟨fuel, hrun⟩ := hfound.run (Loops.run_exit hround 0)
      exact ⟨fuel, _, hrun⟩
  | succ missing ih =>
      have hfound := cycle_found hlong hp (count_ne hmissing)
      obtain ⟨a, hround⟩ := cycle_adds pages_number physrets hlong hp
      have hmore : (physrets ++ [a]).length + (missing + 1) = pages_number.toNat := by
        rw [List.length_append, List.length_singleton]
        omega
      rw [if_neg (count_ne hmore)] at hround
      have hback := cycle_back hlong hp (count_ne hmore)
      obtain ⟨fuel, addresses, hrun⟩ := ih hmore (Nat.le_refl (cyclePlace pagetype))
      obtain ⟨fuel', hrun'⟩ := (hfound.trans (.next hround hback)).run hrun
      exact ⟨fuel', addresses, hrun'⟩

/-- More addresses than memory has blocks are not those of different blocks. -/
theorem not_exact_of_many
    {table : RamTable} {fuel : Nat} {addresses : List Word}
    (hfew : blockCount memlen pagetype < pages_number.toNat)
    (hrun : getFreePhys memlen table pages_number pagetype fuel = some (0, addresses)) :
    ¬ SearchExact memlen table pages_number pagetype := by
  intro hexact
  rcases hexact.phys_sound fuel addresses hrun with ⟨hlength, hnodup, hblocks⟩
  have hsize : 0 < getMultiFromPagetype pagetype := by
    have := getMultiFromPagetype_ge pagetype
    omega
  have hcard : addresses.toFinset.card ≤ (Finset.range (blockCount memlen pagetype)).card := by
    refine Finset.card_le_card_of_injOn
      (fun a : Word => a.toNat / getMultiFromPagetype pagetype) ?_ ?_
    · intro a ha
      rcases hblocks a (List.mem_toFinset.mp ha) with ⟨b, hb, hfree⟩
      have hquotient : a.toNat / getMultiFromPagetype pagetype = b := by
        rw [hb, Nat.mul_div_cancel _ hsize]
      simpa [hquotient] using hfree.1
    · intro a ha a' ha' hsame
      rcases hblocks a (List.mem_toFinset.mp ha) with ⟨b, hb, -⟩
      rcases hblocks a' (List.mem_toFinset.mp ha') with ⟨b', hb', -⟩
      apply BitVec.eq_of_toNat_eq
      dsimp only at hsame
      rw [hb, hb', Nat.mul_div_cancel _ hsize, Nat.mul_div_cancel _ hsize] at hsame
      rw [hb, hb', hsame]
  rw [List.toFinset_card_of_nodup hnodup, Finset.card_range] at hcard
  omega

theorem not_exact_cycleTable
    (hpages : pages_number ≠ 0)
    (hfew : blockCount memlen pagetype < pages_number.toNat)
    (hlong : strideOf pagetype + strideOf pagetype / 2 + 2 ≤ memlen.toNat / 8) :
    ¬ SearchExact memlen (cycleTable (strideOf pagetype)) pages_number pagetype := by
  have hpos : pages_number.toNat ≠ 0 := fun h => hpages (BitVec.eq_of_toNat_eq h)
  obtain ⟨missing, hmissing⟩ := Nat.exists_eq_succ_of_ne_zero hpos
  have hmissing' : ([] : List Word).length + (missing + 1) = pages_number.toNat := by
    simpa using hmissing.symm
  obtain ⟨fuel, addresses, hrun⟩ := cycle_finds (p := 0) hlong hmissing' (Nat.zero_le _)
  exact not_exact_of_many hfew hrun

end Cycle

section NothingFound

variable {memlen pages_number : Half} {table : RamTable} {pagetype : Nat}

/-- At most one and a half strides of elements. -/
def FewElements (memlen : Half) (pagetype : Nat) : Prop :=
  memlen.toNat / 8 ≤ strideOf pagetype + strideOf pagetype / 2 + 1

/-- The gate of `get_free_identity` counts the rounds since the start, or since a used
bit, which has led to the element `stride` at least. -/
def IdentityRow (pages_number : Half) (pagetype : Nat) (c : Cursor) : Prop :=
  ∃ p g, c = cursorAt p (BitVec.ofNat 32 g) ∧ (p - 1) / 16 < 4294967296 ∧
    (p = 0 ∧ g = 0 ∨ identityQuota pages_number pagetype ≠ 0 ∧
      (g = p ∨ 16 * strideOf pagetype + 1 + g ≤ p))

/-- A round at the quota, as numbers. -/
theorem gate_eq_quota_iff
    {g : Nat}
    (pages_number : Half) (pagetype : Nat)
    (hg : g < 4294967296) :
    BitVec.ofNat 32 g = multiplierOf pagetype * pages_number ↔
      g = identityQuota pages_number pagetype := by
  rw [← BitVec.toNat_inj, BitVec.toNat_ofNat, Nat.mod_eq_of_lt hg, identityQuota]

/-- A round stays in a row, and finds nothing out of reach of the quota. -/
theorem identityRow_round
    {c : Cursor}
    (hfew : FewElements memlen pagetype)
    (hc : IdentityRow pages_number pagetype c) :
    (∀ c', identityRoundOver memlen (byteCells table) pages_number pagetype c = .inl c' →
        IdentityRow pages_number pagetype c') ∧
      (¬ QuotaReached memlen pages_number pagetype →
        ∀ ret, identityRoundOver memlen (byteCells table) pages_number pagetype c = .inr ret →
          ret = 0) := by
  rcases hc with ⟨p, g, rfl, hp, hrow⟩
  have hstride := strideOf_cases pagetype
  unfold FewElements at hfew
  by_cases hin : (p - 1) / 16 < memlen.toNat / 8
  · rw [identityRoundOver_inside _ _ _ _ hin]
    have hgate := gate_eq_quota_iff (g := g) pages_number pagetype (by omega)
    split_ifs with hquota hused <;> rw [hgate] at hquota
    · refine ⟨fun c' h => (by cases h), fun hout ret h => ?_⟩
      cases h
      unfold QuotaReached at hout
      split_ifs at hout with hbig
      · -- big pages: only the row from the start on can have reached the quota
        obtain rfl : p = identityQuota pages_number pagetype := by
          omega
        exact (address_quota_eq_zero_iff pages_number _ pagetype).mpr hbig
      · omega
    · refine ⟨fun c' h => ?_, fun _ ret h => by cases h⟩
      cases h
      have hleap := stride_le_leap (strideOf pagetype) (p / 16)
      refine ⟨_, 0, rfl, leapFrom_lt hin, .inr ⟨by omega, .inr ?_⟩⟩
      unfold leapFrom
      omega
    · refine ⟨fun c' h => ?_, fun _ ret h => by cases h⟩
      cases h
      exact ⟨_, g + 1, by rw [gate_succ], by omega, .inr ⟨by omega, by omega⟩⟩
  · rw [identityRoundOver_outside _ _ _ _ hp hin]
    refine ⟨fun c' h => (by cases h), fun _ ret h => ?_⟩
    cases h
    rfl

/-- In a table of few elements `get_free_identity` finds nothing unless the quota can be
reached. -/
theorem identity_finds_nothing
    (hfew : FewElements memlen pagetype)
    (hout : ¬ QuotaReached memlen pages_number pagetype)
    {fuel : Nat} {ret : Word}
    (hrun : getFreeIdentity memlen table pages_number pagetype fuel = some ret) :
    ret = 0 :=
  Loops.run_invariant (I := IdentityRow pages_number pagetype)
    (fun _ _ hc hround => (identityRow_round hfew hc).1 _ hround)
    (fun _ _ hc hround => (identityRow_round hfew hc).2 hout _ hround)
    ⟨0, 0, rfl, by decide, .inl ⟨rfl, rfl⟩⟩ hrun

/-- What `get_free_phys` can have found at a place: one page in the row from the start,
one in a row that begins at the element `stride`, and none in any later row. -/
inductive PhysRow (stride p g count : Nat) : Prop
  | first
      (hgate : g = p)
      (hcount : count = 0 ∨ count = 1 ∧ 8 * stride < g)
  | second
      (hgate : 16 * stride + 1 + g ≤ p)
      (hcount : count ≤ 1 ∨ count = 2 ∧ 8 * stride < g)
  | later
      (hgate : 16 * stride + 17 + g ≤ p)
      (hcount : count ≤ 2)

/-- The number of pages after a round. -/
def countAt (stride g count : Nat) : Nat :=
  if g = 8 * stride then count + 1 else count

theorem PhysRow.free
    {stride p g count : Nat}
    (hrow : PhysRow stride p g count)
    (hp : p ≤ 24 * stride + 16) :
    PhysRow stride (p + 1) (g + 1) (countAt stride g count) := by
  unfold countAt
  cases hrow with
  | first hgate hcount =>
      refine .first (by omega) ?_
      split_ifs <;> omega
  | second hgate hcount =>
      refine .second (by omega) ?_
      split_ifs <;> omega
  | later hgate hcount =>
      refine .later (by omega) ?_
      split_ifs <;> omega

theorem PhysRow.used
    {stride p g count : Nat}
    (hrow : PhysRow stride p g count)
    (hstride : 0 < stride)
    (hp : p ≤ 24 * stride + 16) :
    PhysRow stride (leapFrom stride p) 0 (countAt stride g count) := by
  have hleap := stride_le_leap stride (p / 16)
  unfold countAt leapFrom
  cases hrow with
  | first hgate hcount =>
      refine .second (by omega) ?_
      split_ifs <;> omega
  | second hgate hcount =>
      have hlate := stride_lt_leap hstride (i := p / 16) (by omega)
      refine .later (by omega) ?_
      split_ifs <;> omega
  | later hgate hcount =>
      have hlate := stride_lt_leap hstride (i := p / 16) (by omega)
      refine .later (by omega) ?_
      split_ifs <;> omega

theorem PhysRow.count_le
    {stride p g count : Nat}
    (hrow : PhysRow stride p g count) :
    count ≤ 2 := by
  cases hrow <;> omega

theorem PhysRow.gate_le
    {stride p g count : Nat}
    (hrow : PhysRow stride p g count) :
    g ≤ p := by
  cases hrow <;> omega

theorem length_foundAt
    {g : Nat}
    (pagetype p : Nat) (physrets : List Word)
    (hg : g < 4294967296) :
    (foundAt pagetype p (BitVec.ofNat 32 g) physrets).length =
      countAt (strideOf pagetype) g physrets.length := by
  have hgate : BitVec.ofNat 32 g = multiplierOf pagetype ↔ g = 8 * strideOf pagetype := by
    rw [← BitVec.toNat_inj, BitVec.toNat_ofNat, Nat.mod_eq_of_lt hg, multiplierOf_toNat]
  unfold foundAt countAt
  by_cases h : g = 8 * strideOf pagetype
  · rw [if_pos (hgate.mpr h), if_pos h, List.length_append, List.length_singleton]
  · rw [if_neg (fun h' => h (hgate.mp h')), if_neg h]

/-- A page takes a row of `multiplier` rounds. -/
def PhysState (memlen : Half) (pagetype : Nat) (s : Cursor × List Word) : Prop :=
  ∃ p g, s.1 = cursorAt p (BitVec.ofNat 32 g) ∧ (p - 1) / 16 < 4294967296 ∧
    PhysRow (strideOf pagetype) p g s.2.length ∧
    (s.2.length = 0 ∨ strideOf pagetype ≤ 2 * (memlen.toNat / 8))

/-- The pages found in a table of few elements are two at most. -/
def FoundFew (memlen : Half) (pagetype : Nat) (r : Nat × List Word) : Prop :=
  r.2.length ≤ 2 ∧ (r.2.length = 0 ∨ strideOf pagetype ≤ 2 * (memlen.toNat / 8))

theorem physState_round
    {s : Cursor × List Word}
    (hfew : FewElements memlen pagetype)
    (hs : PhysState memlen pagetype s) :
    (∀ s', physRoundOver memlen (byteCells table) pages_number pagetype s = .inl s' →
        PhysState memlen pagetype s') ∧
      ∀ r, physRoundOver memlen (byteCells table) pages_number pagetype s = .inr r →
        FoundFew memlen pagetype r := by
  rcases s with ⟨c, physrets⟩
  rcases hs with ⟨p, g, rfl, hp, hrow, hlong⟩
  dsimp only at hrow hlong
  have hstride := strideOf_cases pagetype
  have hle := hrow.gate_le
  unfold FewElements at hfew
  by_cases hin : (p - 1) / 16 < memlen.toNat / 8
  · have hlength := length_foundAt (g := g) pagetype p physrets (by omega)
    have hlong' : (foundAt pagetype p (BitVec.ofNat 32 g) physrets).length = 0 ∨
        strideOf pagetype ≤ 2 * (memlen.toNat / 8) := by
      rw [hlength, countAt]
      split_ifs <;> omega
    rw [physRoundOver_inside _ _ _ _ _ hin]
    split_ifs with hcount hused
    · refine ⟨fun s' h => (by cases h), fun r h => ?_⟩
      cases h
      refine ⟨?_, hlong'⟩
      dsimp only
      rw [hlength]
      exact (hrow.free (by omega)).count_le
    · refine ⟨fun s' h => ?_, fun r h => by cases h⟩
      cases h
      refine ⟨_, 0, rfl, leapFrom_lt hin, ?_, hlong'⟩
      dsimp only
      rw [hlength]
      exact hrow.used (by omega) (by omega)
    · refine ⟨fun s' h => ?_, fun r h => by cases h⟩
      cases h
      refine ⟨p + 1, g + 1, by rw [gate_succ], by omega, ?_, hlong'⟩
      dsimp only
      rw [hlength]
      exact hrow.free (by omega)
  · rw [physRoundOver_outside _ _ _ _ _ hp hin]
    refine ⟨fun s' h => (by cases h), fun r h => ?_⟩
    cases h
    exact ⟨hrow.count_le, hlong⟩

/-- In a table of few elements `get_free_phys` does not find more pages than memory has
blocks. -/
theorem phys_finds_nothing
    (hpages : pages_number ≠ 0)
    (hroom : blockCount memlen pagetype < pages_number.toNat)
    (hfew : FewElements memlen pagetype)
    {fuel : Nat} {addresses : List Word} :
    getFreePhys memlen table pages_number pagetype fuel ≠ some (0, addresses) := by
  intro hrun
  have hcount := getFreePhys_count hrun rfl
  rw [← searchPhys_byteCells] at hrun
  have hfound : FoundFew memlen pagetype (0, addresses) :=
    Loops.run_invariant (I := PhysState memlen pagetype)
      (fun _ s' hs hround => (physState_round hfew hs).1 s' hround)
      (fun _ r hs hround => (physState_round hfew hs).2 r hround)
      ⟨0, 0, rfl, by decide, .first rfl (.inl rfl), .inl rfl⟩ hrun
  rcases hfound with ⟨htwo, hlong⟩
  dsimp only at htwo hlong hcount
  have hpos : pages_number.toNat ≠ 0 := fun h => hpages (BitVec.eq_of_toNat_eq h)
  have hnumber : addresses.length = pages_number.toNat := by
    rw [← hcount, BitVec.toNat_ofNat, Nat.mod_eq_of_lt (by omega)]
  unfold blockCount at hroom
  rcases pagetype_cases pagetype with ⟨-, hstride, hsize⟩ | ⟨-, hstride, hsize⟩ | ⟨-, hstride, hsize⟩
  all_goals
    rw [hstride] at hlong
    rw [hsize] at hroom
    omega

/-- A search that finds nothing is right where memory has too few blocks. -/
theorem exact_of_nothing_found
    (hpages : pages_number ≠ 0)
    (hroom : blockCount memlen pagetype < pages_number.toNat)
    (hfew : FewElements memlen pagetype)
    (hout : ¬ QuotaReached memlen pages_number pagetype) :
    SearchExact memlen table pages_number pagetype := by
  constructor
  · intro fuel addresses hrun
    exact absurd hrun (phys_finds_nothing hpages hroom hfew)
  · intro fuel addresses _ s hs
    have hsub : s ⊆ Finset.range (blockCount memlen pagetype) := by
      intro b hb
      exact Finset.mem_range.mpr (hs b hb).1
    have hcard := Finset.card_le_card hsub
    rw [Finset.card_range] at hcard
    omega
  · intro fuel ret hrun hret
    exact absurd (identity_finds_nothing hfew hout hrun) hret
  · rintro fuel - ⟨b, hblocks⟩
    have hlast := (hblocks (pages_number.toNat - 1) (by omega)).1
    omega

end NothingFound

/-- **For a request of at least one page the searches are right on every table exactly
when memory has fewer blocks than asked for**, the table has at most one and a half
strides of elements, and `get_free_identity` cannot reach its quota. -/
theorem search_exact_iff
    {memlen pages_number : Half} {pagetype : Nat}
    (hpages : pages_number ≠ 0) :
    (∀ table, SearchExact memlen table pages_number pagetype) ↔
      blockCount memlen pagetype < pages_number.toNat ∧ FewElements memlen pagetype ∧
        ¬ QuotaReached memlen pages_number pagetype := by
  constructor
  · intro hexact
    have hroom : blockCount memlen pagetype < pages_number.toNat := by
      by_contra hroom
      rcases exists_not_exact_of_room hpages (Nat.not_lt.mp hroom) with ⟨table, hwrong⟩
      exact hwrong (hexact table)
    refine ⟨hroom, ?_, ?_⟩
    · by_contra hlong
      refine not_exact_cycleTable hpages hroom ?_ (hexact _)
      unfold FewElements at hlong
      omega
    · intro hreached
      rcases exists_not_exact_of_quotaReached hroom hreached with ⟨table, hwrong⟩
      exact hwrong (hexact table)
  · rintro ⟨hroom, hfew, hout⟩ table
    exact exact_of_nothing_found hpages hroom hfew hout

/-- One small page more than there are frames in 4 MiB is not found, whatever is used. -/
theorem search_exact_iff_fourMegabytes :
    blockCount 1024#32 Pag.SMALLPAGE = 1024 ∧
      ∀ table, SearchExact 1024#32 table 1025#32 Pag.SMALLPAGE := by
  refine ⟨by decide, (search_exact_iff (by decide)).mpr ⟨by decide, ?_, ?_⟩⟩
  · unfold FewElements
    decide
  · unfold QuotaReached
    decide

/-- One small page in a memory of 8192 frames: `get_free_identity` answers with the
address of frame 798, which is used. -/
theorem firstTable_not_exact :
    ¬ SearchExact 8192#32 firstTable 1#32 Pag.SMALLPAGE :=
  not_exact_firstTable (by decide) rfl rfl

end Mem
end BestKernel
