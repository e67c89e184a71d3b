import BestKernel.Library.Rounding
import BestKernel.Mem.Segments

/-!
# Rounding to pages

`tosmallpage`, `pagetype_roundown` and `pagetype_roundup` say how many pages a count of bytes
takes.  The first two are the ceiling and the floor of the division by the size of a page,
and a pair for small pages (`tosmallpage_pair`).

The two branches of `pagetype_roundup` have changed places: it is the floor where the ceiling
is one more, and one more where they are the same (`pagetypeRoundup_add_ceilDiv`).  So it is
right for no count, and it is not monotone at the multiples of the size.

Readings of the source.  `T` is one of the unsigned types.  The division by a size that does
not fit into `T` is 0, as is that by the zero that is left of it.
-/

namespace BestKernel
namespace Mem

open Machine

/-- `pagetype_roundown` -/
def pagetypeRoundown {w : Nat} (pagetype : Nat) (val : BitVec w) : BitVec w :=
  if val = 0 then val else val / (multiplierOf pagetype).setWidth w

section Specification

/-- The unsigned types that a count can have. -/
inductive CountType where
  | uchar_t
  | ushort_t
  | ustd_t
  | ulong_t
deriving DecidableEq, Repr

def CountType.width : CountType → Nat
  | uchar_t => 8
  | ushort_t => 16
  | ustd_t => 32
  | ulong_t => 64

/-- Two functions that round a count `x` up and down to units of `m`. -/
structure RoundingPair {w : Nat} (m : Nat) (up down : BitVec w → BitVec w) (x : BitVec w) :
    Prop where
  least : IsLeast {n | x.toNat ≤ m * n} (up x).toNat
  greatest : IsGreatest {n | m * n ≤ x.toNat} (down x).toNat
  monotone : ∀ y, x ≤ y → up x ≤ up y ∧ down x ≤ down y
  near : (up x).toNat ≤ (down x).toNat + 1 ∧ (down x).toNat ≤ (up x).toNat + 1
  same : up x = down x ↔ m ∣ x.toNat

/-- The three helpers at a count. -/
structure RoundingRight (T : CountType) (pagetype : Nat) (x : BitVec T.width) : Prop where
  pair : RoundingPair (getMultiFromPagetype pagetype) (pagetypeRoundup · pagetype)
    (pagetypeRoundown pagetype) x
  small : pagetypeRoundup x Pag.SMALLPAGE = tosmallpage x

end Specification

section Division

variable {w : Nat}

/-- The sizes of pages are powers of two. -/
theorem getMultiFromPagetype_pow
    (pagetype : Nat) :
    ∃ k, k < 32 ∧ getMultiFromPagetype pagetype = 2 ^ k := by
  unfold getMultiFromPagetype
  split_ifs
  · exact ⟨21, by decide, rfl⟩
  · exact ⟨30, by decide, rfl⟩
  · exact ⟨12, by decide, rfl⟩

/-- A size that does not fit into a type is zero there, and above every count. -/
theorem divider_cases
    (x : BitVec w)
    (pagetype : Nat) :
    ((multiplierOf pagetype).setWidth w).toNat = getMultiFromPagetype pagetype ∨
      ((multiplierOf pagetype).setWidth w).toNat = 0 ∧
        x.toNat < getMultiFromPagetype pagetype := by
  obtain ⟨k, hk, hpow⟩ := getMultiFromPagetype_pow pagetype
  have hlt : 2 ^ k < 2 ^ 32 := Nat.pow_lt_pow_right (by decide) hk
  have hwidth : ((multiplierOf pagetype).setWidth w).toNat = 2 ^ k % 2 ^ w := by
    rw [multiplierOf, hpow, BitVec.toNat_setWidth, BitVec.toNat_ofNat, Nat.mod_eq_of_lt hlt]
  rw [hwidth, hpow]
  by_cases hfits : k < w
  · exact .inl (Nat.mod_eq_of_lt (Nat.pow_lt_pow_right (by decide) hfits))
  · have hle := Nat.not_lt.1 hfits
    refine .inr ⟨Nat.mod_eq_zero_of_dvd (Nat.pow_dvd_pow 2 hle), ?_⟩
    exact Nat.lt_of_lt_of_le x.isLt (Nat.pow_le_pow_right (by decide) hle)

/-- The quotient by the size of a page. -/
theorem toNat_div_multiplier
    (x : BitVec w)
    (pagetype : Nat) :
    (x / (multiplierOf pagetype).setWidth w).toNat =
      x.toNat / getMultiFromPagetype pagetype := by
  rw [BitVec.toNat_udiv]
  rcases divider_cases x pagetype with hfits | ⟨hzero, hlt⟩
  · rw [hfits]
  · rw [hzero, Nat.div_zero, Nat.div_eq_of_lt hlt]

theorem toNat_mod_multiplier
    (x : BitVec w)
    (pagetype : Nat) :
    (x % (multiplierOf pagetype).setWidth w).toNat =
      x.toNat % getMultiFromPagetype pagetype := by
  rw [BitVec.toNat_umod]
  rcases divider_cases x pagetype with hfits | ⟨hzero, hlt⟩
  · rw [hfits]
  · rw [hzero, Nat.mod_zero, Nat.mod_eq_of_lt hlt]

theorem mod_multiplier_eq_zero_iff
    (x : BitVec w)
    (pagetype : Nat) :
    x % (multiplierOf pagetype).setWidth w = 0 ↔ getMultiFromPagetype pagetype ∣ x.toNat := by
  rw [← BitVec.toNat_inj, toNat_mod_multiplier, Nat.dvd_iff_mod_eq_zero]
  rfl

theorem smallpage_multiplier : (4096 : BitVec w) = (multiplierOf Pag.SMALLPAGE).setWidth w := by
  apply BitVec.eq_of_toNat_eq
  rw [BitVec.toNat_setWidth]
  exact BitVec.toNat_ofNat 4096 w

/-- One more than a quotient fits into the type. -/
theorem toNat_div_multiplier_add_one
    (hw : 0 < w)
    (x : BitVec w)
    (pagetype : Nat) :
    (x / (multiplierOf pagetype).setWidth w + 1).toNat =
      x.toNat / getMultiFromPagetype pagetype + 1 := by
  have hge := getMultiFromPagetype_ge pagetype
  have hdiv : x.toNat / getMultiFromPagetype pagetype ≤ x.toNat / 2 :=
    Nat.div_le_div_left (Nat.le_trans (by decide) hge) (by decide)
  have htwo : 2 ^ 1 ≤ 2 ^ w := Nat.pow_le_pow_right (by decide) hw
  have hlt := x.isLt
  have hone : (1 : BitVec w).toNat = 1 :=
    (BitVec.toNat_ofNat 1 w).trans (Nat.mod_eq_of_lt (by omega))
  rw [BitVec.toNat_add, toNat_div_multiplier, hone]
  exact Nat.mod_eq_of_lt (by omega)

end Division

section Helpers

variable {w : Nat}

/-- **`pagetype_roundown` is the floor.** -/
theorem pagetypeRoundown_toNat
    (pagetype : Nat)
    (x : BitVec w) :
    (pagetypeRoundown pagetype x).toNat = x.toNat / getMultiFromPagetype pagetype := by
  unfold pagetypeRoundown
  split_ifs with hzero
  · rw [hzero]
    exact (Nat.zero_div _).symm
  · exact toNat_div_multiplier x pagetype

/-- **`tosmallpage` is the ceiling.** -/
theorem tosmallpage_toNat
    (hw : 0 < w)
    (x : BitVec w) :
    (tosmallpage x).toNat = x.toNat ⌈/⌉ getMultiFromPagetype Pag.SMALLPAGE := by
  have hpos : 0 < getMultiFromPagetype Pag.SMALLPAGE := by decide
  unfold tosmallpage
  rw [smallpage_multiplier, Rounding.ceilDiv_eq hpos]
  simp only [ne_eq, mod_multiplier_eq_zero_iff]
  split_ifs with hdvd
  · exact toNat_div_multiplier x Pag.SMALLPAGE
  · exact toNat_div_multiplier_add_one hw x Pag.SMALLPAGE

/-- **`pagetype_roundup` is the floor, and one more at the multiples.** -/
theorem pagetypeRoundup_toNat
    (hw : 0 < w)
    (x : BitVec w)
    (pagetype : Nat) :
    (pagetypeRoundup x pagetype).toNat =
      if getMultiFromPagetype pagetype ∣ x.toNat then
        x.toNat / getMultiFromPagetype pagetype + 1
      else x.toNat / getMultiFromPagetype pagetype := by
  unfold pagetypeRoundup
  simp only [ne_eq, mod_multiplier_eq_zero_iff]
  split_ifs with hdvd
  · exact toNat_div_multiplier_add_one hw x pagetype
  · exact toNat_div_multiplier x pagetype

/-- So it is on the other side of the middle between the floor and its successor. -/
theorem pagetypeRoundup_add_ceilDiv
    (hw : 0 < w)
    (x : BitVec w)
    (pagetype : Nat) :
    (pagetypeRoundup x pagetype).toNat + x.toNat ⌈/⌉ getMultiFromPagetype pagetype =
      2 * (x.toNat / getMultiFromPagetype pagetype) + 1 := by
  have hpos : 0 < getMultiFromPagetype pagetype :=
    Nat.lt_of_lt_of_le (by decide) (getMultiFromPagetype_ge pagetype)
  rw [pagetypeRoundup_toNat hw, Rounding.ceilDiv_eq hpos]
  split_ifs
  · omega
  · omega

/-- Functions that are the ceiling and the floor are a pair. -/
theorem roundingPair_of_toNat
    {m : Nat} {up down : BitVec w → BitVec w}
    (hm : 0 < m)
    (hup : ∀ x, (up x).toNat = x.toNat ⌈/⌉ m)
    (hdown : ∀ x, (down x).toNat = x.toNat / m)
    (x : BitVec w) :
    RoundingPair m up down x := by
  have hceil := Rounding.ceilDiv_eq hm x.toNat
  refine ⟨?_, ?_, fun y hxy => ⟨?_, ?_⟩, ?_, ?_⟩
  · rw [hup]
    exact Rounding.isLeast_ceilDiv hm x.toNat
  · rw [hdown]
    exact Rounding.isGreatest_div hm x.toNat
  · rw [BitVec.le_def, hup, hup]
    exact (gc_mul_ceilDiv hm).monotone_l hxy
  · rw [BitVec.le_def, hdown, hdown]
    exact Nat.div_le_div_right hxy
  · rw [hup, hdown, hceil]
    split_ifs
    · omega
    · omega
  · rw [← BitVec.toNat_inj, hup, hdown, hceil]
    split_ifs with hdvd
    · exact iff_of_true rfl hdvd
    · exact iff_of_false (Nat.succ_ne_self _) hdvd

/-- **For small pages the two helpers that are right are a pair.** -/
theorem tosmallpage_pair
    (hw : 0 < w)
    (x : BitVec w) :
    RoundingPair (getMultiFromPagetype Pag.SMALLPAGE) tosmallpage
      (pagetypeRoundown Pag.SMALLPAGE) x :=
  roundingPair_of_toNat (by decide) (tosmallpage_toNat hw)
    (pagetypeRoundown_toNat Pag.SMALLPAGE) x

/-- Above every multiple `pagetype_roundup` goes down. -/
theorem pagetypeRoundup_not_monotone
    (hw : 0 < w)
    {x y : BitVec w}
    (pagetype : Nat)
    (hdvd : getMultiFromPagetype pagetype ∣ x.toNat)
    (hnext : y.toNat = x.toNat + 1) :
    pagetypeRoundup y pagetype < pagetypeRoundup x pagetype := by
  have hge := getMultiFromPagetype_ge pagetype
  obtain ⟨n, hn⟩ := hdvd
  have hnot : ¬ getMultiFromPagetype pagetype ∣ y.toNat := by
    intro hdvd'
    rw [hnext, hn] at hdvd'
    have hone := (Nat.dvd_add_right (Nat.dvd_mul_right _ n)).1 hdvd'
    have hle := Nat.le_of_dvd Nat.one_pos hone
    omega
  have hsame : y.toNat / getMultiFromPagetype pagetype = n := by
    rw [hnext, hn, Nat.mul_add_div (by omega), Nat.div_eq_of_lt (by omega), Nat.add_zero]
  have hfloor : x.toNat / getMultiFromPagetype pagetype = n := by
    rw [hn, Nat.mul_div_cancel_left n (by omega)]
  rw [BitVec.lt_def, pagetypeRoundup_toNat hw, pagetypeRoundup_toNat hw, if_neg hnot,
    if_pos ⟨n, hn⟩, hsame, hfloor]
  exact Nat.lt_succ_self n

end Helpers

theorem CountType.width_pos (T : CountType) : 0 < T.width := by
  cases T <;> decide

/-- `pagetype_roundup` is not the least number of pages that cover a count. -/
theorem pagetypeRoundup_not_least
    {w : Nat}
    (hw : 0 < w)
    (x : BitVec w)
    (pagetype : Nat) :
    ¬ IsLeast {n | x.toNat ≤ getMultiFromPagetype pagetype * n}
      (pagetypeRoundup x pagetype).toNat := by
  intro hleast
  have hpos : 0 < getMultiFromPagetype pagetype :=
    Nat.lt_of_lt_of_le (by decide) (getMultiFromPagetype_ge pagetype)
  have hceil := hleast.unique (Rounding.isLeast_ceilDiv hpos x.toNat)
  have hmirror := pagetypeRoundup_add_ceilDiv hw x pagetype
  rw [hceil] at hmirror
  omega

/-- **The three helpers are right for no count and no page.** -/
theorem rounding_wrong
    (T : CountType)
    (pagetype : Nat)
    (x : BitVec T.width) :
    ¬ RoundingRight T pagetype x :=
  fun h => pagetypeRoundup_not_least T.width_pos x pagetype h.pair.least

/-- One byte takes no page, and one page of bytes takes two. -/
theorem one_byte_not_covered :
    pagetypeRoundup (1 : Half) Pag.SMALLPAGE = 0 ∧
      pagetypeRoundup (4096 : Half) Pag.SMALLPAGE = 2 ∧
        ¬ RoundingRight .ustd_t Pag.SMALLPAGE (1 : Half) := by
  refine ⟨by decide, by decide, fun h => ?_⟩
  exact absurd h.small (by decide)

end Mem
end BestKernel
