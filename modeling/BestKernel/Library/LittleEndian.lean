import Mathlib.Data.BitVec
import Mathlib.Tactic.Common

/-!
# Numbers as bytes

A number of any width is read from bytes, the lowest first.  A number whose bytes are
stored is read back as soon as there are enough of them (`LittleEndian.join_eq`).
-/

namespace LittleEndian

variable {w : Nat}

/-- The number whose bytes are `f 0`, `f 1`, and so on, up to `n` of them. -/
def join (w : Nat) (f : Nat → BitVec 8) : Nat → BitVec w
  | 0 => 0
  | n + 1 => join w f n ||| (f n).setWidth w <<< (8 * n)

/-- A bit of the number is a bit of one of its bytes. -/
theorem getLsbD_join (f : Nat → BitVec 8) (n i : Nat) :
    (join w f n).getLsbD i =
      (decide (i < w) && decide (i < 8 * n) && (f (i / 8)).getLsbD (i % 8)) := by
  induction n with
  | zero => simp [join]
  | succ n ih =>
      rw [join, BitVec.getLsbD_or, ih, BitVec.getLsbD_shiftLeft, BitVec.getLsbD_setWidth]
      by_cases hw : i < w
      · rcases Nat.lt_trichotomy (i / 8) n with hlow | hhere | hhigh
        · have hbelow : i < 8 * n := by omega
          have hbelow' : i < 8 * (n + 1) := by omega
          simp [hw, hbelow, hbelow']
        · have hnot : ¬ i < 8 * n := by omega
          have hbelow : i < 8 * (n + 1) := by omega
          have hbit : i - 8 * n = i % 8 := by omega
          have hsmall : i % 8 < w := by omega
          simp [hw, hnot, hbelow, hbit, hhere, hsmall]
        · have hnot : ¬ i < 8 * n := by omega
          have hnot' : ¬ i < 8 * (n + 1) := by omega
          have hbeyond : (f n).getLsbD (i - 8 * n) = false :=
            BitVec.getLsbD_of_ge _ _ (by omega)
          simp [hnot, hnot', hbeyond]
      · simp [hw]

/-- **A number is read back from its bytes.** -/
theorem join_eq
    {x : BitVec w} {f : Nat → BitVec 8} {n : Nat}
    (hn : w ≤ 8 * n)
    (hf : ∀ i, i < n → f i = (x >>> (8 * i)).setWidth 8) :
    join w f n = x := by
  apply BitVec.eq_of_getLsbD_eq
  intro i hi
  have hbyte : i / 8 < n := by omega
  have hbelow : i < 8 * n := by omega
  have hbit : 8 * (i / 8) + i % 8 = i := Nat.div_add_mod i 8
  have hsmall : i % 8 < 8 := Nat.mod_lt i (by decide)
  rw [getLsbD_join, hf _ hbyte, BitVec.getLsbD_setWidth, BitVec.getLsbD_ushiftRight, hbit]
  simp [hi, hbelow, hsmall]

end LittleEndian
