import Mathlib.Data.Set.Card

/-!
# Rosters

A roster keeps the members of a set in slots, with a count beside them.
`Roster.Exact` says that the slots in use hold the members, each once, and that the count
is their number.

The rules say for which sets a changed roster is exact: one that has not changed
(`Roster.Exact.iff_eq`), one with a single slot (`Roster.exact_single_iff`), one whose
slots have been written over (`Roster.Exact.overwrite_iff`), and one from which slots and a
member have gone (`Roster.Exact.release_iff`).
-/

namespace Roster

universe u v

variable {ι : Type u} {α : Type v}

/-- The slots in use hold the members of `S`, each once, and `count` is their number. -/
structure Exact (slot : ι → α) (used : Set ι) (count : Nat) (S : Set α) : Prop where
  lists : Set.BijOn slot used S
  count : S.encard = count

variable {slot slot' : ι → α} {used C : Set ι} {count count' : Nat} {S S' : Set α} {x : α} {i : ι}

/-- A roster is exact for one set. -/
theorem Exact.iff_eq
    (h : Exact slot used count S) :
    Exact slot used count S' ↔ S' = S := by
  constructor
  · intro h'
    rw [← h'.lists.image_eq, h.lists.image_eq]
  · rintro rfl
    exact h

/-- The roster of one slot. -/
theorem exact_single_iff :
    Exact slot {i} 1 S ↔ S = {slot i} := by
  constructor
  · intro h
    rw [← h.lists.image_eq, Set.image_singleton]
  · rintro rfl
    exact ⟨Set.bijOn_singleton.mpr rfl, Set.encard_singleton _⟩

theorem Exact.finite
    (h : Exact slot used count S) :
    S.Finite :=
  Set.finite_of_encard_eq_coe h.count

/-- **Slots are written over**, by one value that may be a member or by strangers, while
members may come: the roster stays exact exactly when nothing changes. -/
theorem Exact.overwrite_iff
    (h : Exact slot used count S)
    (hsub : S ⊆ S')
    (hvalue : ∀ i, i ∈ used → slot' i = slot i ∨ slot' i = x ∨ slot' i ∉ S') :
    Exact slot' used count S' ↔ S' = S ∧ Set.EqOn slot' slot used := by
  constructor
  · intro h'
    have hsame : S' = S :=
      (h.finite.eq_of_subset_of_encard_le hsub (by rw [h.count, h'.count])).symm
    refine ⟨hsame, fun i hi => ?_⟩
    subst hsame
    by_contra hne
    -- the slot that changed holds `x` now; what it held before is nowhere else
    have hwritten : ∀ i, i ∈ used → slot' i ≠ slot i → slot' i = x := by
      intro i hi hne
      obtain heq | heq | hstranger := hvalue i hi
      · exact absurd heq hne
      · exact heq
      · exact absurd (h'.lists.mapsTo hi) hstranger
    obtain ⟨j, hj, hslot⟩ := h'.lists.surjOn (h.lists.mapsTo hi)
    by_cases hkept : slot' j = slot j
    · have hji : j = i := h.lists.injOn hj hi (hkept.symm.trans hslot)
      exact hne (hji ▸ hkept)
    · have hx : slot i = x := hslot.symm.trans (hwritten j hj hkept)
      exact hne ((hwritten i hi hne).trans hx.symm)
  · rintro ⟨rfl, heq⟩
    exact ⟨heq.bijOn_iff.mpr h.lists, h.count⟩

/-- **Slots are given up and a member leaves**: the roster stays exact exactly when the
member was in it and its slot is the one that was given up. -/
theorem Exact.release_iff
    (h : Exact slot used count S)
    (heq : Set.EqOn slot' slot (used \ C))
    (hcount : count' ≠ count)
    (hpred : 0 < count → count' + 1 = count) :
    Exact slot' (used \ C) count' (S \ {x}) ↔
      x ∈ S ∧ ∀ i, i ∈ used → (i ∈ C ↔ slot i = x) := by
  have hleft : Set.BijOn slot' (used \ C) (S \ {x}) ↔ Set.BijOn slot (used \ C) (S \ {x}) :=
    heq.bijOn_iff
  constructor
  · intro h'
    have hlists := hleft.mp h'.lists
    have hx : x ∈ S := by
      by_contra hx
      have hsame := h'.count
      rw [Set.sdiff_singleton_eq_self hx, h.count] at hsame
      exact hcount (Nat.cast_injective hsame).symm
    refine ⟨hx, fun i hi => ⟨fun hC => ?_, fun hslot => ?_⟩⟩
    · by_contra hne
      obtain ⟨j, hj, hslot⟩ := hlists.surjOn ⟨h.lists.mapsTo hi, hne⟩
      exact hj.2 (h.lists.injOn hj.1 hi hslot ▸ hC)
    · by_contra hC
      exact (hlists.mapsTo ⟨hi, hC⟩).2 hslot
  · rintro ⟨hx, hgone⟩
    refine ⟨hleft.mpr ⟨fun i hi => ?_, h.lists.injOn.mono Set.sdiff_subset, fun y hy => ?_⟩, ?_⟩
    · exact ⟨h.lists.mapsTo hi.1, fun hslot => hi.2 ((hgone i hi.1).mpr hslot)⟩
    · obtain ⟨i, hi, rfl⟩ := h.lists.surjOn hy.1
      exact ⟨i, ⟨hi, fun hC => hy.2 ((hgone i hi).mp hC)⟩, rfl⟩
    · have hpos : 0 < count := by
        refine Nat.pos_of_ne_zero fun hzero => ?_
        have hnone := h.count
        rw [hzero] at hnone
        exact Set.encard_ne_zero_of_mem hx hnone
      have hsum := Set.encard_sdiff_singleton_add_one hx
      rw [h.count, ← hpred hpos, Nat.cast_add, Nat.cast_one] at hsum
      exact WithTop.add_right_cancel WithTop.one_ne_top hsum

end Roster
