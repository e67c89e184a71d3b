import Mathlib.Data.Set.Lattice
import Mathlib.Order.CompletePartialOrder
import Mathlib.Data.List.Pairwise
import Mathlib.Data.List.Perm.Basic

/-!
# Exclusive ownership of cells

An allocator hands out blocks of cells and marks the cells it has handed out.
`Ledger.Exclusive` says that the live blocks are pairwise disjoint, that they
keep off a fixed set of base cells, and that the marked cells are exactly the
base cells and the cells of the live blocks.

The two rules say what handing out and taking back a block must do to the
marks, no more and no less: `Ledger.claim_iff` and `Ledger.release_iff`.
-/

namespace Ledger

universe u v

variable {γ : Type u} {β : Type v}

/-- Live blocks are disjoint, keep off the base, and account for every mark. -/
structure Exclusive
    (cells : β → Set γ) (base marked : Set γ) (live : List β) : Prop where
  pairwise : live.Pairwise fun b c => Disjoint (cells b) (cells c)
  apart : ∀ b, b ∈ live → Disjoint base (cells b)
  cover : ∀ x, x ∈ marked ↔ x ∈ base ∨ ∃ b, b ∈ live ∧ x ∈ cells b

variable {cells : β → Set γ} {base marked marked' : Set γ} {live : List β} {b : β}

theorem Exclusive.subset_marked
    (h : Exclusive cells base marked live)
    (hb : b ∈ live) :
    cells b ⊆ marked :=
  fun x hx => (h.cover x).mpr (Or.inr ⟨b, hb, hx⟩)

/-- The order in which live blocks are listed does not matter. -/
theorem Exclusive.perm
    {live' : List β}
    (h : Exclusive cells base marked live)
    (hperm : live.Perm live') :
    Exclusive cells base marked live' where
  pairwise :=
    (hperm.pairwise_iff fun {_ _} hd => hd.symm).mp h.pairwise
  apart c hc := h.apart c (hperm.mem_iff.mpr hc)
  cover x := by
    rw [h.cover x]
    simp only [hperm.mem_iff]

/-- A block is claimed correctly when it was unmarked and only it gets marked. -/
theorem claim_iff
    (h : Exclusive cells base marked live) :
    Exclusive cells base marked' (b :: live) ↔
      Disjoint marked (cells b) ∧ marked' = marked ∪ cells b := by
  constructor
  · intro h'
    have hpair := List.pairwise_cons.mp h'.pairwise
    have hbase := h'.apart b (by simp)
    refine ⟨?_, ?_⟩
    · rw [Set.disjoint_left]
      intro x hx hxb
      rcases (h.cover x).mp hx with hx | ⟨c, hc, hxc⟩
      · exact Set.disjoint_left.mp hbase hx hxb
      · exact Set.disjoint_left.mp (hpair.1 c hc) hxb hxc
    · ext x
      rw [h'.cover x, Set.mem_union, h.cover x]
      simp only [List.mem_cons, exists_eq_or_imp]
      exact or_assoc.symm.trans or_right_comm
  · rintro ⟨hdisj, rfl⟩
    refine ⟨List.pairwise_cons.mpr ⟨?_, h.pairwise⟩, ?_, ?_⟩
    · intro c hc
      exact (hdisj.mono_left (h.subset_marked hc)).symm
    · intro c hc
      rcases List.mem_cons.mp hc with rfl | hc
      · exact hdisj.mono_left fun x hx => (h.cover x).mpr (Or.inl hx)
      · exact h.apart c hc
    · intro x
      rw [Set.mem_union, h.cover x]
      simp only [List.mem_cons, exists_eq_or_imp]
      exact or_right_comm.trans or_assoc

/-- A block is released correctly when exactly its cells lose their marks. -/
theorem release_iff
    (h : Exclusive cells base marked (b :: live)) :
    Exclusive cells base marked' live ↔ marked' = marked \ cells b := by
  have hpair := List.pairwise_cons.mp h.pairwise
  have hrest : ∀ x, (x ∈ base ∨ ∃ c, c ∈ live ∧ x ∈ cells c) ↔
      x ∈ marked ∧ x ∉ cells b := by
    intro x
    rw [h.cover x]
    constructor
    · rintro (hx | ⟨c, hc, hxc⟩)
      · exact ⟨Or.inl hx, Set.disjoint_left.mp (h.apart b (by simp)) hx⟩
      · exact ⟨Or.inr ⟨c, List.mem_cons_of_mem _ hc, hxc⟩,
          Set.disjoint_right.mp (hpair.1 c hc) hxc⟩
    · rintro ⟨hx | ⟨c, hc, hxc⟩, hnot⟩
      · exact Or.inl hx
      · rcases List.mem_cons.mp hc with rfl | hc
        · exact absurd hxc hnot
        · exact Or.inr ⟨c, hc, hxc⟩
  constructor
  · intro h'
    ext x
    rw [h'.cover x, hrest x]
    rfl
  · rintro rfl
    refine ⟨hpair.2, fun c hc => h.apart c (List.mem_cons_of_mem _ hc), ?_⟩
    intro x
    rw [hrest x]
    rfl

/-- A ledger is kept without a change of blocks when the marks are the same. -/
theorem unchanged_iff
    (h : Exclusive cells base marked live) :
    Exclusive cells base marked' live ↔ marked' = marked := by
  constructor
  · intro h'
    ext x
    rw [h'.cover x, h.cover x]
  · rintro rfl
    exact h

section CoarseMarks

/-!
An allocator may mark and unmark whole groups of cells instead of the cells of
a block.  What follows says when this is right for a block that replaces
another one, `group` being marked first and `oldGroup` unmarked afterwards.
-/

variable {old fresh group group' oldGroup : Set γ}

/-- A group is what is added to the marks and what is taken from them. -/
theorem group_eq_iff :
    marked ∪ group = marked ∪ group' ∧ marked \ group = marked \ group' ↔ group = group' := by
  constructor
  · rintro ⟨hunion, hsdiff⟩
    ext x
    have hunion := Set.ext_iff.1 hunion x
    have hsdiff := Set.ext_iff.1 hsdiff x
    rw [Set.mem_union, Set.mem_union] at hunion
    rw [Set.mem_sdiff, Set.mem_sdiff] at hsdiff
    by_cases hx : x ∈ marked
    · simpa only [hx, true_and, not_iff_not] using hsdiff
    · simpa only [hx, false_or] using hunion
  · rintro rfl
    exact ⟨rfl, rfl⟩

/-- The replacement failed: nothing may be unmarked, nor anything marked afresh. -/
theorem keep_group_iff :
    (marked ∪ group) \ oldGroup = marked ↔
      Disjoint marked oldGroup ∧ group ⊆ marked ∪ oldGroup := by
  constructor
  · intro h
    have hmem : ∀ x, (x ∈ marked ∨ x ∈ group) ∧ x ∉ oldGroup ↔ x ∈ marked :=
      fun x => Set.ext_iff.mp h x
    refine ⟨Set.disjoint_left.mpr fun x hx => ((hmem x).mpr hx).2, ?_⟩
    intro x hx
    by_cases hxo : x ∈ oldGroup
    · exact Or.inr hxo
    · exact Or.inl ((hmem x).mp ⟨Or.inr hx, hxo⟩)
  · rintro ⟨hdisj, hgroup⟩
    rw [Set.union_sdiff_distrib, hdisj.sdiff_eq_left, Set.union_eq_left]
    rintro x ⟨hx, hxo⟩
    exact (hgroup hx).resolve_right hxo

/-- The replacement succeeded: the old block goes and the fresh one comes. -/
theorem move_group_iff
    (hsub : old ⊆ marked)
    (hold : old ⊆ oldGroup)
    (hmeet : ¬ Disjoint group oldGroup → ∃ x, x ∈ fresh ∧ x ∈ oldGroup) :
    Disjoint (marked \ old) fresh ∧
        (marked ∪ group) \ oldGroup = marked \ old ∪ fresh ↔
      marked ∩ oldGroup = old ∧ fresh = group \ marked ∧ Disjoint group oldGroup := by
  constructor
  · rintro ⟨hdisj, h⟩
    have hmem : ∀ x, (x ∈ marked ∨ x ∈ group) ∧ x ∉ oldGroup ↔
        x ∈ marked ∧ x ∉ old ∨ x ∈ fresh :=
      fun x => Set.ext_iff.mp h x
    have hout : ∀ x, x ∈ fresh → x ∉ oldGroup :=
      fun x hx => ((hmem x).mpr (Or.inr hx)).2
    have hgroups : Disjoint group oldGroup := by
      by_contra hnot
      obtain ⟨x, hx, hxo⟩ := hmeet hnot
      exact hout x hx hxo
    have hnew : ∀ x, x ∈ fresh → x ∉ marked := by
      intro x hx hxm
      have hxold : x ∉ old := fun hxold => hout x hx (hold hxold)
      exact Set.disjoint_left.mp hdisj ⟨hxm, hxold⟩ hx
    refine ⟨?_, ?_, hgroups⟩
    · ext x
      constructor
      · rintro ⟨hx, hxo⟩
        by_contra hnot
        exact ((hmem x).mpr (Or.inl ⟨hx, hnot⟩)).2 hxo
      · exact fun hx => ⟨hsub hx, hold hx⟩
    · ext x
      constructor
      · intro hx
        exact ⟨((hmem x).mpr (Or.inr hx)).1.resolve_left (hnew x hx), hnew x hx⟩
      · rintro ⟨hx, hxm⟩
        have hxo := Set.disjoint_left.mp hgroups hx
        exact ((hmem x).mp ⟨Or.inr hx, hxo⟩).resolve_left fun hx' => hxm hx'.1
  · rintro ⟨rfl, rfl, hgroups⟩
    refine ⟨?_, ?_⟩
    · rw [Set.disjoint_left]
      exact fun x hx hx' => hx'.2 hx.1
    · ext x
      constructor
      · rintro ⟨hx | hx, hxo⟩
        · exact Or.inl ⟨hx, fun hx' => hxo hx'.2⟩
        · by_cases hxm : x ∈ marked
          · exact Or.inl ⟨hxm, fun hx' => hxo hx'.2⟩
          · exact Or.inr ⟨hx, hxm⟩
      · rintro (⟨hx, hnot⟩ | ⟨hx, _⟩)
        · exact ⟨Or.inl hx, fun hxo => hnot ⟨hx, hxo⟩⟩
        · exact ⟨Or.inr hx, Set.disjoint_left.mp hgroups hx⟩

end CoarseMarks

end Ledger
