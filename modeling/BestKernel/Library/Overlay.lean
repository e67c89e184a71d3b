import Mathlib.Data.BitVec
import Mathlib.Tactic.Common

/-!
# Registers over bytes

A page of registers of four bytes each that may also be written a byte or two at a time.
The page is its bytes by their offsets; a register is read from four of them, the lowest
first, and whatever is written is a list of bytes.

* `Overlay.load_store`: a register that was written is read back;
* `Overlay.load_store_of_apart`: what is written beside a register leaves it alone.
-/

namespace Overlay

/-- A page of registers, byte by byte. -/
abbrev Page := Nat → BitVec 8

/-- The register at an offset. -/
def load (page : Page) (offset : Nat) : BitVec 32 :=
  page (offset + 3) ++ page (offset + 2) ++ page (offset + 1) ++ page offset

/-- The bytes of a register. -/
def bytesOf (x : BitVec 32) : List (BitVec 8) :=
  [x.extractLsb' 0 8, x.extractLsb' 8 8, x.extractLsb' 16 8, x.extractLsb' 24 8]

/-- Bytes are written from an offset on. -/
def write (page : Page) (offset : Nat) (bytes : List (BitVec 8)) : Page :=
  fun a => if offset ≤ a then bytes.getD (a - offset) (page a) else page a

/-- A register is written. -/
def store (page : Page) (offset : Nat) (x : BitVec 32) : Page :=
  write page offset (bytesOf x)

variable {page : Page} {offset offset' : Nat}

theorem write_of_apart
    {bytes : List (BitVec 8)} {a : Nat}
    (h : a < offset ∨ offset + bytes.length ≤ a) :
    write page offset bytes a = page a := by
  unfold write
  split_ifs with hle
  · have hout : bytes.length ≤ a - offset := by omega
    rw [List.getD_eq_getElem?_getD, List.getElem?_eq_none hout]
    rfl
  · rfl

/-- What is written beside a register leaves it alone. -/
theorem load_write_of_apart
    {bytes : List (BitVec 8)}
    (h : offset + 4 ≤ offset' ∨ offset' + bytes.length ≤ offset) :
    load (write page offset' bytes) offset = load page offset := by
  unfold load
  rw [write_of_apart (by omega), write_of_apart (by omega), write_of_apart (by omega),
    write_of_apart (by omega)]

theorem load_store_of_apart
    (x : BitVec 32)
    (h : offset + 4 ≤ offset' ∨ offset' + 4 ≤ offset) :
    load (store page offset' x) offset = load page offset :=
  load_write_of_apart h

/-- A register that was written is read back. -/
theorem load_store (page : Page) (offset : Nat) (x : BitVec 32) :
    load (store page offset x) offset = x := by
  have hbyte : ∀ i, i < 4 → store page offset x (offset + i) = x.extractLsb' (8 * i) 8 := by
    intro i hi
    have hback : offset + i - offset = i := by omega
    unfold store write
    rw [if_pos (by omega), hback]
    rcases i with _ | _ | _ | _ | i
    · rfl
    · rfl
    · rfl
    · rfl
    · omega
  have hzero := hbyte 0 (by decide)
  rw [Nat.add_zero] at hzero
  unfold load
  rw [hbyte 3 (by decide), hbyte 2 (by decide), hbyte 1 (by decide), hzero]
  apply BitVec.eq_of_getLsbD_eq
  intro i hi
  simp only [BitVec.getLsbD_append, BitVec.getLsbD_extractLsb']
  grind

end Overlay
