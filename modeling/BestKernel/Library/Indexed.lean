import Mathlib.Logic.Function.Basic
import Mathlib.Data.BitVec

/-!
# Registers behind an index

A bank of registers of which one at a time can be seen through a window: an index is
chosen, and the window reads and writes the register of that index.  `modify` is one
read-modify-write through the window.

Its lemmas say which registers it leaves alone, and when the order of two does not matter.
The last section is about the fields of a register, which are given by masks.
-/

namespace Indexed

universe u v

/-- A bank of registers with the index that is chosen. -/
structure Bank (ι : Type u) (α : Type v) where
  select : ι
  file : ι → α

namespace Bank

variable {ι : Type u} {α : Type v}

/-- The index is written. -/
def choose (b : Bank ι α) (i : ι) : Bank ι α := { b with select := i }

/-- The window is read. -/
def window (b : Bank ι α) : α := b.file b.select

@[simp] theorem choose_window (b : Bank ι α) (i : ι) : (b.choose i).window = b.file i := rfl

variable [DecidableEq ι]

/-- The window is written. -/
def store (b : Bank ι α) (x : α) : Bank ι α :=
  { b with file := Function.update b.file b.select x }

/-- A read-modify-write of one register. -/
def modify (b : Bank ι α) (i : ι) (f : α → α) : Bank ι α :=
  (b.choose i).store (f (b.choose i).window)

theorem modify_file (b : Bank ι α) (i : ι) (f : α → α) :
    (b.modify i f).file = Function.update b.file i (f (b.file i)) := rfl

theorem modify_file_congr
    {b b' : Bank ι α}
    (h : b.file = b'.file)
    (i : ι) (f : α → α) :
    (b.modify i f).file = (b'.modify i f).file := by
  rw [modify_file, modify_file, h]

@[simp] theorem modify_file_self (b : Bank ι α) (i : ι) (f : α → α) :
    (b.modify i f).file i = f (b.file i) := by
  rw [modify_file, Function.update_self]

theorem modify_file_of_ne
    {i j : ι}
    (h : j ≠ i)
    (b : Bank ι α) (f : α → α) :
    (b.modify i f).file j = b.file j := by
  rw [modify_file, Function.update_of_ne h]

/-- A write that keeps its register keeps the bank. -/
theorem modify_file_eq_iff
    (b : Bank ι α) (i : ι) (f : α → α) :
    (b.modify i f).file = b.file ↔ f (b.file i) = b.file i := by
  rw [modify_file, Function.update_eq_self_iff]

/-- Writes to two registers can be swapped. -/
theorem modify_comm_of_ne
    {i j : ι}
    (h : i ≠ j)
    (b : Bank ι α) (f g : α → α) :
    ((b.modify i f).modify j g).file = ((b.modify j g).modify i f).file := by
  rw [modify_file, modify_file, modify_file, modify_file, Function.update_of_ne h.symm,
    Function.update_of_ne h, Function.update_comm h]

/-- Two writes to one register can be swapped where their functions can. -/
theorem modify_comm_iff
    (b : Bank ι α) (i : ι) (f g : α → α) :
    ((b.modify i f).modify i g).file = ((b.modify i g).modify i f).file ↔
      g (f (b.file i)) = f (g (b.file i)) := by
  rw [modify_file, modify_file, modify_file, modify_file, Function.update_self,
    Function.update_self, Function.update_idem, Function.update_idem]
  constructor
  · intro h
    have hregister := congrFun h i
    rwa [Function.update_self, Function.update_self] at hregister
  · intro h
    rw [h]

end Bank

section Fields

variable {w : Nat} {mask x y : BitVec w}

/-- Two registers are the same outside of the bits of a field. -/
def AgreeOutside (mask x y : BitVec w) : Prop := x &&& ~~~mask = y &&& ~~~mask

@[simp] theorem agreeOutside_zero_iff : AgreeOutside 0#w x y ↔ x = y := by
  rw [AgreeOutside, BitVec.not_zero, BitVec.and_allOnes, BitVec.and_allOnes]

/-- Bit by bit. -/
theorem agreeOutside_iff :
    AgreeOutside mask x y ↔
      ∀ i, i < w → mask.getLsbD i = false → x.getLsbD i = y.getLsbD i := by
  rw [AgreeOutside, BitVec.eq_of_getLsbD_eq_iff]
  refine forall_congr' fun i => imp_congr_right fun hi => ?_
  rw [BitVec.getLsbD_and, BitVec.getLsbD_and, BitVec.getLsbD_not]
  cases mask.getLsbD i <;> simp [hi]

end Fields

end Indexed
