import Mathlib.Algebra.Group.Int.Defs
import Mathlib.Algebra.Group.Nat.Defs
import Mathlib.Data.Int.Order.Basic
import Mathlib.Tactic.Common

/-!
# Integer arithmetic with promotions

The operands of a C++ operator are promoted and converted to a common type, in which the
result is computed.  An unsigned result is reduced; a signed one that does not fit is
undefined, and so is everything that is computed from it.

Natural numbers that fit their types are not changed by conversion, so an operator computes
from them what it denotes as long as the result fits (`Arith.add_eq`, `Arith.mul_eq`,
`Arith.div_eq`); a signed product that does not fit is undefined (`Arith.mul_overflow`), and
an unsigned sum wraps around (`Arith.add_unsigned`).
-/

namespace Promotion

/-- The types of arithmetic, in the order in which they are converted to each other: 32 bits
for `int`, 64 for `long`. -/
inductive IntType where
  | int
  | unsignedInt
  | long
  | unsignedLong
deriving DecidableEq, Repr

namespace IntType

@[simp] def rank : IntType → Nat
  | int => 0
  | unsignedInt => 1
  | long => 2
  | unsignedLong => 3

@[simp] def signed : IntType → Bool
  | int => true
  | unsignedInt => false
  | long => true
  | unsignedLong => false

/-- The values of a type are below its bound. -/
@[simp] def bound : IntType → Nat
  | int => 2 ^ 31
  | unsignedInt => 2 ^ 32
  | long => 2 ^ 63
  | unsignedLong => 2 ^ 64

/-- The usual arithmetic conversions. -/
@[simp] def common (t u : IntType) : IntType := if t.rank ≤ u.rank then u else t

/-- The values of a type; those of a signed one start from minus its bound. -/
def Holds (t : IntType) (n : Int) : Prop :=
  (if t.signed then -(t.bound : Int) else 0) ≤ n ∧ n < t.bound

instance (t : IntType) (n : Int) : Decidable (t.Holds n) :=
  inferInstanceAs (Decidable (_ ∧ _))

/-- Conversion to a type. -/
def convert (t : IntType) (n : Int) : Int :=
  if t.signed then (n + t.bound) % (2 * t.bound) - t.bound else n % t.bound

theorem bound_le_common_left (t u : IntType) : t.bound ≤ (t.common u).bound := by
  cases t <;> cases u <;> simp

theorem bound_le_common_right (t u : IntType) : u.bound ≤ (t.common u).bound := by
  cases t <;> cases u <;> simp

section Naturals

variable {t : IntType} {n : Nat}

theorem holds_natCast_iff : t.Holds (n : Int) ↔ n < t.bound := by
  unfold Holds
  split_ifs <;> omega

theorem convert_natCast
    (hn : n < t.bound) :
    t.convert (n : Int) = n := by
  unfold convert
  split_ifs
  · rw [Int.emod_eq_of_lt (by omega) (by omega), Int.add_sub_cancel]
  · exact Int.emod_eq_of_lt (Int.natCast_nonneg n) (Int.ofNat_lt.mpr hn)

end Naturals

end IntType

/-- A value with its type. -/
structure Number where
  type : IntType
  value : Int
deriving DecidableEq, Repr

/-- What an expression computes: `none` when it is undefined. -/
def Arith := Option Number

namespace Arith

def number (t : IntType) (n : Int) : Arith := some ⟨t, n⟩

def undefined : Arith := none

/-- The result of an operator in its type. -/
def finish (t : IntType) (n : Int) : Arith :=
  if t.signed then if t.Holds n then number t n else undefined
  else number t (n % t.bound)

/-- An operator, on operands of the common type. -/
def operate (op : Int → Int → Int) (x y : Arith) : Arith :=
  Option.bind x fun x => Option.bind y fun y =>
    let t := x.type.common y.type
    finish t (op (t.convert x.value) (t.convert y.value))

instance : Add Arith := ⟨operate (· + ·)⟩
instance : Mul Arith := ⟨operate (· * ·)⟩

/-- Division by 0 is undefined. -/
instance : Div Arith :=
  ⟨fun x y => Option.bind y fun d => if d.value = 0 then undefined else operate Int.tdiv x y⟩

/-- A decimal literal is a `long` when it does not fit an `int`. -/
instance (n : Nat) : OfNat Arith n :=
  ⟨number (if n < 2 ^ 31 then .int else .long) n⟩

/-- An operand of fewer than 32 bits is promoted to `int`. -/
def short {w : Nat} (x : BitVec w) : Arith := number .int x.toNat

def unsignedInt (x : BitVec 32) : Arith := number .unsignedInt x.toNat

def unsignedLong (x : BitVec 64) : Arith := number .unsignedLong x.toNat

/-- The value as an unsigned number of 64 bits. -/
def toWord (x : Arith) : Option (BitVec 64) := Option.map (fun n => BitVec.ofInt 64 n.value) x

@[simp] theorem undefined_add (x : Arith) : undefined + x = undefined := rfl

@[simp] theorem undefined_mul (x : Arith) : undefined * x = undefined := rfl

@[simp] theorem add_undefined (x : Arith) : x + undefined = undefined := by
  cases x <;> rfl

@[simp] theorem toWord_undefined : undefined.toWord = none := rfl

@[simp] theorem toWord_natCast (t : IntType) (n : Nat) :
    (number t n).toWord = some (BitVec.ofNat 64 n) := by
  simp [toWord, number]

section Operators

variable {t u : IntType} {m n : Nat}

theorem operate_eq
    (op : Int → Int → Int)
    (hm : m < t.bound)
    (hn : n < u.bound) :
    operate op (number t m) (number u n) = finish (t.common u) (op m n) := by
  have hleft : (t.common u).convert (m : Int) = m :=
    IntType.convert_natCast (Nat.lt_of_lt_of_le hm (t.bound_le_common_left u))
  have hright : (t.common u).convert (n : Int) = n :=
    IntType.convert_natCast (Nat.lt_of_lt_of_le hn (t.bound_le_common_right u))
  change finish (t.common u) (op ((t.common u).convert m) ((t.common u).convert n)) = _
  rw [hleft, hright]

theorem finish_natCast
    (hn : n < t.bound) :
    finish t (n : Int) = number t n := by
  have hmod : (n : Int) % t.bound = n :=
    Int.emod_eq_of_lt (Int.natCast_nonneg n) (Int.ofNat_lt.mpr hn)
  rw [finish, if_pos (IntType.holds_natCast_iff.mpr hn), hmod, ite_self]

theorem add_eq
    (hm : m < t.bound)
    (hn : n < u.bound)
    (hlt : m + n < (t.common u).bound) :
    number t m + number u n = number (t.common u) ((m + n : Nat) : Int) :=
  (operate_eq (· + ·) hm hn).trans (finish_natCast hlt)

theorem mul_eq
    (hm : m < t.bound)
    (hn : n < u.bound)
    (hlt : m * n < (t.common u).bound) :
    number t m * number u n = number (t.common u) ((m * n : Nat) : Int) :=
  (operate_eq (· * ·) hm hn).trans (finish_natCast hlt)

theorem div_eq
    (hm : m < t.bound)
    (hn : n < u.bound)
    (hpos : 0 < n) :
    number t m / number u n = number (t.common u) ((m / n : Nat) : Int) := by
  have hdivide : number t m / number u n =
      if (n : Int) = 0 then undefined else operate Int.tdiv (number t m) (number u n) := rfl
  have hquotient : m / n < (t.common u).bound :=
    Nat.lt_of_le_of_lt (Nat.div_le_self m n)
      (Nat.lt_of_lt_of_le hm (t.bound_le_common_left u))
  rw [hdivide, if_neg (by omega), operate_eq Int.tdiv hm hn, ← Int.ofNat_tdiv]
  exact finish_natCast hquotient

/-- A signed product that does not fit. -/
theorem mul_overflow
    (hm : m < t.bound)
    (hn : n < u.bound)
    (hsigned : (t.common u).signed = true)
    (hle : (t.common u).bound ≤ m * n) :
    number t m * number u n = undefined := by
  have hholds : ¬ (t.common u).Holds ((m * n : Nat) : Int) := by
    rw [IntType.holds_natCast_iff]
    exact Nat.not_lt.mpr hle
  refine (operate_eq (· * ·) hm hn).trans ?_
  change finish (t.common u) ((m * n : Nat) : Int) = undefined
  rw [finish, if_pos hsigned, if_neg hholds]

/-- An unsigned sum wraps around. -/
theorem add_unsigned
    (hm : m < t.bound)
    (hn : n < u.bound)
    (hsigned : (t.common u).signed = false) :
    number t m + number u n =
      number (t.common u) (((m + n) % (t.common u).bound : Nat) : Int) := by
  refine (operate_eq (· + ·) hm hn).trans ?_
  change finish (t.common u) ((m + n : Nat) : Int) = _
  rw [finish, hsigned, if_neg Bool.false_ne_true]
  rfl

end Operators

end Arith
end Promotion
