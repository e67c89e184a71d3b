import BestKernel.Mem.FrameRuns

/-!
# Marking the frames of blocks

`manipulate_phys` gets an array of addresses, and should mark or unmark the frames of the
blocks there, and no other.  It never reads the array: the byte of the table is that of the
address of the array itself, and all of its eight bits are set or cleared
(`usedFrames_set`, `usedFrames_clear`).

That the calls are idempotent and undo each other is true of any set of frames.  So
`marking_right_iff` says when the eight frames of that byte are those of the blocks: when
there are none, or when the blocks are small pages and just these.
-/

namespace BestKernel
namespace Mem

open Machine

section Specification

variable (table : RamTable) (phys : Word) (blocks : Nat → Word) (pages_number : Half)
  (pagetype : Nat)

/-- The frames of the blocks whose addresses the array holds. -/
def arrayFrames : Set Nat :=
  {n | ∃ i, i < pages_number.toNat ∧ n ∈ pageFrames (blocks i) 1 pagetype}

/-- `manipulate_phys` with an array at `phys` that holds `blocks`, as it should be. -/
structure MarkingRight : Prop where
  set : usedFrames (manipulatePhys table phys pages_number pagetype .SET) =
    usedFrames table ∪ arrayFrames blocks pages_number pagetype
  clear : usedFrames (manipulatePhys table phys pages_number pagetype .CLEAR) =
    usedFrames table \ arrayFrames blocks pages_number pagetype
  idempotent : ∀ action,
    manipulatePhys (manipulatePhys table phys pages_number pagetype action) phys pages_number
        pagetype action =
      manipulatePhys table phys pages_number pagetype action
  restores : Disjoint (usedFrames table) (arrayFrames blocks pages_number pagetype) →
    manipulatePhys (manipulatePhys table phys pages_number pagetype .SET) phys pages_number
      pagetype .CLEAR = table

/-- The condition: there are no blocks, or they are of one frame each, and their frames are
those of the byte of the table that the address of the array leads to. -/
def MarkingSafe : Prop :=
  pages_number = 0 ∨
    getMultiFromPagetype pagetype = 4096 ∧
      ∀ n, n / 8 = tableIndex phys ↔
        ∃ i, i < pages_number.toNat ∧ n = (blocks i).toNat / 4096

end Specification

section Marking

/-- The frames in use say all about a table. -/
theorem usedFrames_injective : Function.Injective usedFrames := by
  intro table table' h
  funext index
  refine BitVec.eq_of_getLsbD_eq fun i hi => ?_
  have hmem : index * 8 + i ∈ usedFrames table ↔ index * 8 + i ∈ usedFrames table' := by
    rw [h]
  have hindex : (index * 8 + i) / 8 = index := by omega
  have hbit : (index * 8 + i) % 8 = i := by omega
  unfold usedFrames at hmem
  rw [Set.mem_ofPred_eq, Set.mem_ofPred_eq, hindex, hbit] at hmem
  exact Bool.eq_iff_iff.2 hmem

variable {table : RamTable} {phys : Word} {blocks : Nat → Word} {pages_number : Half}
  {pagetype : Nat}

theorem manipulatePhys_idempotent
    (action : Action) :
    manipulatePhys (manipulatePhys table phys pages_number pagetype action) phys pages_number
        pagetype action =
      manipulatePhys table phys pages_number pagetype action := by
  simp only [manipulatePhys_eq]
  split_ifs
  · rfl
  · exact Function.update_idem _ _ _

/-- What was not marked before is not marked afterwards. -/
theorem manipulatePhys_restores
    (hfree : Disjoint (usedFrames table) (touched phys pages_number)) :
    manipulatePhys (manipulatePhys table phys pages_number pagetype .SET) phys pages_number
      pagetype .CLEAR = table := by
  apply usedFrames_injective
  rw [usedFrames_clear, usedFrames_set, Set.union_sdiff_right]
  exact hfree.sdiff_eq_left

/-- A block that is larger than a small page does not lie in one byte of the table. -/
theorem not_block_of_large
    {a : Word} {index : Nat}
    (hlarge : getMultiFromPagetype pagetype ≠ 4096) :
    ¬ ∀ n, n ∈ pageFrames a 1 pagetype → n / 8 = index := by
  intro hall
  have hcount : 512 ≤ getMultiFromPagetype pagetype / 4096 := by
    unfold getMultiFromPagetype at hlarge ⊢
    split_ifs at hlarge ⊢ with hmid hbig
    · decide
    · decide
    · exact absurd rfl hlarge
  have hone : (1 : Half).toNat = 1 := rfl
  have hfirst : a.toNat / 4096 / 8 = index := by
    refine hall _ ⟨Nat.le_refl _, ?_⟩
    rw [hone]
    omega
  have hlater : (a.toNat / 4096 + 8) / 8 = index := by
    refine hall _ ⟨Nat.le_add_right _ _, ?_⟩
    rw [hone]
    omega
  omega

theorem mem_pageFrames_small_iff
    {a : Word} {n : Nat}
    (hsmall : getMultiFromPagetype pagetype = 4096) :
    n ∈ pageFrames a 1 pagetype ↔ n = a.toNat / 4096 := by
  have hone : (1 : Half).toNat = 1 := rfl
  unfold pageFrames
  rw [Set.mem_ofPred_eq, hsmall, hone]
  omega

/-- The frames touched are those of the blocks. -/
theorem touched_eq_arrayFrames_iff :
    touched phys pages_number = arrayFrames blocks pages_number pagetype ↔
      MarkingSafe phys blocks pages_number pagetype := by
  unfold MarkingSafe
  by_cases hpages : pages_number = 0
  · subst hpages
    refine iff_of_true ?_ (.inl rfl)
    ext n
    exact iff_of_false (fun h => h.1 rfl) fun ⟨i, hi, _⟩ => Nat.not_lt_zero i hi
  · rw [or_iff_right hpages]
    have hpos : 0 < pages_number.toNat := BitVec.toNat_pos_of_ne_zero hpages
    have htouched : ∀ n, n ∈ touched phys pages_number ↔ n / 8 = tableIndex phys :=
      fun n => and_iff_right hpages
    rw [Set.ext_iff]
    simp only [htouched]
    by_cases hsmall : getMultiFromPagetype pagetype = 4096
    · rw [and_iff_right hsmall]
      refine forall_congr' fun n => ?_
      have hblocks : n ∈ arrayFrames blocks pages_number pagetype ↔
          ∃ i, i < pages_number.toNat ∧ n = (blocks i).toNat / 4096 := by
        simp only [arrayFrames, Set.mem_ofPred_eq, mem_pageFrames_small_iff hsmall]
      rw [hblocks]
    · refine iff_of_false (fun h => ?_) fun h => hsmall h.1
      have hlarge : ¬ ∀ n, n ∈ pageFrames (blocks 0) 1 pagetype → n / 8 = tableIndex phys :=
        not_block_of_large hsmall
      exact hlarge fun n hn => (h n).2 ⟨0, hpos, hn⟩

/-- **Marking is exact when there are no blocks, or when the blocks are small pages and their
frames those of the byte that the address of the array leads to.** -/
theorem marking_right_iff
    (table : RamTable)
    (phys : Word)
    (blocks : Nat → Word)
    (pages_number : Half)
    (pagetype : Nat) :
    MarkingRight table phys blocks pages_number pagetype ↔
      MarkingSafe phys blocks pages_number pagetype := by
  rw [← touched_eq_arrayFrames_iff]
  constructor
  · rintro ⟨hset, hclear, -, -⟩
    rw [usedFrames_set] at hset
    rw [usedFrames_clear] at hclear
    exact Ledger.group_eq_iff.1 ⟨hset, hclear⟩
  · intro hsame
    refine ⟨?_, ?_, manipulatePhys_idempotent, fun hfree => ?_⟩
    · rw [usedFrames_set, hsame]
    · rw [usedFrames_clear, hsame]
    · rw [← hsame] at hfree
      exact manipulatePhys_restores hfree

/-- An array at 0x2000 with the address of one small page, and an empty table. -/
theorem one_page_marks_array :
    0 ∈ usedFrames (manipulatePhys (fun _ => 0) 0x2000 1 Pag.SMALLPAGE .SET) ∧
      ¬ MarkingRight (fun _ => 0) 0x2000 (fun _ => 0x100000) 1 Pag.SMALLPAGE := by
  have hmarked : 0 ∈ usedFrames (manipulatePhys (fun _ => 0) 0x2000 1 Pag.SMALLPAGE .SET) := by
    rw [usedFrames_set]
    exact .inr ⟨by decide, by decide⟩
  refine ⟨hmarked, fun h => ?_⟩
  rw [h.set] at hmarked
  rcases hmarked with hused | ⟨i, -, hframe⟩
  · exact absurd (show (0 : Byte).getLsbD 0 = true from hused) (by decide)
  · exact absurd (show 0x100000 / 4096 ≤ 0 from hframe.1) (by decide)

end Marking

end Mem
end BestKernel
