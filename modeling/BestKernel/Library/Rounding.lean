import Mathlib.Algebra.Order.Floor.Div
import Mathlib.Tactic.Common

/-!
# Rounding to whole units

How many units of `m` cover a count, and how many of them fit into it.  The two numbers are
the ceiling and the floor of a division, the lower and the upper adjoint of the
multiplication by `m`, and they lie next to each other (`Rounding.ceilDiv_eq`).
-/

namespace Rounding

variable {m : Nat}

/-- The ceiling is the least number of units that cover a count. -/
theorem isLeast_ceilDiv
    (hm : 0 < m)
    (x : Nat) :
    IsLeast {n | x ≤ m * n} (x ⌈/⌉ m) :=
  (gc_mul_ceilDiv hm).isLeast_l

/-- The floor is the greatest number of units that fit into it. -/
theorem isGreatest_div
    (hm : 0 < m)
    (x : Nat) :
    IsGreatest {n | m * n ≤ x} (x / m) :=
  (gc_floorDiv_mul hm).isGreatest_u

/-- Only a count that is no multiple needs one more unit than fit into it. -/
theorem ceilDiv_eq
    (hm : 0 < m)
    (x : Nat) :
    x ⌈/⌉ m = if m ∣ x then x / m else x / m + 1 := by
  split_ifs with hdvd
  · obtain ⟨n, rfl⟩ := hdvd
    rw [Nat.mul_div_cancel_left n hm]
    exact smul_ceilDiv hm n
  · refine le_antisymm ?_ ?_
    · refine (ceilDiv_le_iff_le_mul hm).2 (Nat.le_of_lt ?_)
      exact Nat.lt_mul_div_succ x hm
    · have hle : x ⌊/⌋ m ≤ x ⌈/⌉ m := floorDiv_le_ceilDiv
      refine Nat.lt_of_le_of_ne hle fun heq => hdvd ?_
      have hcover := (isLeast_ceilDiv hm x).1
      have hfit := (isGreatest_div hm x).1
      change x / m = x ⌈/⌉ m at heq
      rw [← heq] at hcover
      exact ⟨x / m, Nat.le_antisymm hcover hfit⟩

end Rounding
