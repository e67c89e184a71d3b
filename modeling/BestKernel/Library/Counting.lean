import BestKernel.Library.Loops
import BestKernel.Library.Words

/-!
# Loops that count in a machine word

`for (i = 0; i < bound; ++i)` with a counter of `w` bits.  The bound is a number,
so that it may exceed what the counter can hold: `Counting.run_counted` says what
the loop returns when it does not, `Counting.endless` that it never ends when it
does, and `Counting.returns_iff` puts the two together.

Byte fills and byte copies are such loops.
-/

namespace Counting

universe u

variable {σ : Type u} {w : Nat}

/-- One round: the counter is tested, `act` runs, the counter goes up. -/
def round (act : σ → BitVec w → σ) (bound : Nat) :
    σ × BitVec w → (σ × BitVec w) ⊕ σ
  | (s, i) => if i.toNat < bound then .inl (act s i, i + 1) else .inr s

/-- The loop, of at most `fuel` tests. -/
def loop (act : σ → BitVec w → σ) (bound fuel : Nat) (s : σ) : Option σ :=
  Loops.run (round act bound) fuel (s, 0)

/-- The state behind `n` rounds. -/
def after (act : σ → BitVec w → σ) (s : σ) : Nat → σ
  | 0 => s
  | n + 1 => act (after act s n) (BitVec.ofNat w n)

variable {act : σ → BitVec w → σ} {bound : Nat} {s : σ}

theorem round_next
    {i : BitVec w}
    (h : i.toNat < bound) :
    round act bound (s, i) = .inl (act s i, i + 1) := by
  simp [round, h]

theorem round_exit
    {i : BitVec w}
    (h : bound ≤ i.toNat) :
    round act bound (s, i) = .inr s := by
  simp [round, Nat.not_lt.mpr h]

/-- A bound that the counter can hold is reached. -/
theorem run_counted
    (hbound : bound < 2 ^ w) :
    loop act bound (bound + 1) s = some (after act s bound) := by
  -- the induction is on the rounds that are left, `n` having been made
  have hrun : ∀ left n, n + left = bound →
      Loops.run (round act bound) (left + 1) (after act s n, BitVec.ofNat w n) =
        some (after act s bound) := by
    intro left
    induction left with
    | zero =>
        rintro n rfl
        have hcounter : n % 2 ^ w = n := Nat.mod_eq_of_lt (by simpa using hbound)
        refine Loops.run_exit (round_exit ?_) 0
        simp [hcounter]
    | succ left ih =>
        intro n hn
        have hcounter : (BitVec.ofNat w n).toNat = n := by
          simp [Nat.mod_eq_of_lt (by omega : n < 2 ^ w)]
        have hnext : (BitVec.ofNat w n + 1 : BitVec w) = BitVec.ofNat w (n + 1) := by
          simp [BitVec.ofNat_add]
        rw [Loops.run_next (round_next (by omega)), hnext]
        exact ih (n + 1) (by omega)
  have hstart := hrun bound 0 (by omega)
  simpa [loop, after] using hstart

/-- Any other is above every counter. -/
theorem endless
    (hbound : 2 ^ w ≤ bound)
    (fuel : Nat) :
    loop act bound fuel s = none := by
  refine Loops.endless_of_invariant (f := id) (I := fun _ => True) ?_ trivial fuel
  rintro ⟨t, i⟩ _
  have hi := i.isLt
  exact ⟨(act t i, i + 1), round_next (by omega), trivial⟩

/-- **A counting loop returns exactly when its bound fits into the counter.** -/
theorem returns_iff
    {r : σ} :
    (∃ fuel, loop act bound fuel s = some r) ↔
      bound < 2 ^ w ∧ r = after act s bound := by
  constructor
  · rintro ⟨fuel, hr⟩
    by_cases hbound : bound < 2 ^ w
    · exact ⟨hbound, Loops.run_unique hr (run_counted hbound)⟩
    · rw [endless (Nat.not_lt.mp hbound)] at hr
      cases hr
  · rintro ⟨hbound, rfl⟩
    exact ⟨bound + 1, run_counted hbound⟩

section Bytes

open Machine

/-- `memset` with a counter of 32 bits. -/
def memset (dest : Word) (val : Byte) (bytes fuel : Nat) (mem : ByteMemory) :
    Option ByteMemory :=
  loop (fun (m : ByteMemory) (i : Half) => Function.update m (dest + i.setWidth 64) val)
    bytes fuel mem

/-- `memcpy` with a counter of 32 bits. -/
def memcpy (dest source : Word) (bytes fuel : Nat) (mem : ByteMemory) :
    Option ByteMemory :=
  loop (fun (m : ByteMemory) (i : Half) =>
    Function.update m (dest + i.setWidth 64) (m (source + i.setWidth 64))) bytes fuel mem

theorem setWidth_ofNat
    {n : Nat}
    (hn : n < 2 ^ 32) :
    (BitVec.ofNat 32 n).setWidth 64 = BitVec.ofNat 64 n := by
  apply BitVec.eq_of_toNat_eq
  simp
  omega

theorem after_memset
    (dest : Word) (val : Byte) (mem : ByteMemory) {bytes : Nat}
    (hbytes : bytes < 2 ^ 32) :
    after (fun (m : ByteMemory) (i : Half) =>
        Function.update m (dest + i.setWidth 64) val) mem bytes =
      fillBytes mem dest val bytes := by
  induction bytes with
  | zero => rfl
  | succ bytes ih =>
      rw [after, fillBytes, ih (by omega), setWidth_ofNat (by omega)]

theorem after_memcpy
    (dest source : Word) (mem : ByteMemory) {bytes : Nat}
    (hbytes : bytes < 2 ^ 32) :
    after (fun (m : ByteMemory) (i : Half) =>
        Function.update m (dest + i.setWidth 64) (m (source + i.setWidth 64))) mem bytes =
      copyBytes mem dest source bytes := by
  induction bytes with
  | zero => rfl
  | succ bytes ih =>
      rw [after, copyBytes, ih (by omega), setWidth_ofNat (by omega)]

theorem memset_returns_iff
    {dest : Word} {val : Byte} {bytes : Nat} {mem mem' : ByteMemory} :
    (∃ fuel, memset dest val bytes fuel mem = some mem') ↔
      bytes < 2 ^ 32 ∧ mem' = fillBytes mem dest val bytes := by
  simp only [memset]
  rw [returns_iff]
  exact and_congr_right fun hbytes => by rw [after_memset dest val mem hbytes]

theorem memcpy_returns_iff
    {dest source : Word} {bytes : Nat} {mem mem' : ByteMemory} :
    (∃ fuel, memcpy dest source bytes fuel mem = some mem') ↔
      bytes < 2 ^ 32 ∧ mem' = copyBytes mem dest source bytes := by
  simp only [memcpy]
  rw [returns_iff]
  exact and_congr_right fun hbytes => by rw [after_memcpy dest source mem hbytes]

end Bytes

end Counting
