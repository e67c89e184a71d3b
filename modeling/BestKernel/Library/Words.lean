import Mathlib.Algebra.Group.Nat.Defs
import Mathlib.Logic.Function.Basic

/-!
# Machine words and word-addressed memory

Addresses and data words are 64-bit vectors.  A `WordMemory` maps the address of
every aligned word to its contents, a `ByteMemory` maps the address of every
byte.  Shift counts are reduced modulo the width of the shifted operand, which
is what an x64 shift instruction does with its count.

The fill loop `storeWords` writes `n` consecutive words; its two lemmas say what
is found inside and outside of the filled stretch.
-/

namespace Machine

/-- A 64-bit word, also used for addresses. -/
abbrev Word := BitVec 64

/-- A 32-bit word. -/
abbrev Half := BitVec 32

/-- A byte. -/
abbrev Byte := BitVec 8

/-- Aligned words by the address of their first byte. -/
abbrev WordMemory := Word → Word

/-- Bytes by address. -/
abbrev ByteMemory := Word → Byte

section Shifts

variable {w : Nat}

/-- Left shift with the count taken modulo the operand width. -/
def shl (x : BitVec w) (count : Nat) : BitVec w :=
  x <<< (count % w)

/-- Logical right shift with the count taken modulo the operand width. -/
def shr (x : BitVec w) (count : Nat) : BitVec w :=
  x >>> (count % w)

/-- What is left after a right shift is small. -/
theorem shr_toNat_lt
    (x : Word) (count : Nat) :
    (shr x count).toNat < 2 ^ (64 - count % 64) := by
  have hcount : count % 64 < 64 := Nat.mod_lt _ (by decide)
  rw [shr, BitVec.toNat_ushiftRight, Nat.shiftRight_eq_div_pow,
    Nat.div_lt_iff_lt_mul (Nat.two_pow_pos _), ← Nat.pow_add,
    Nat.sub_add_cancel (Nat.le_of_lt hcount)]
  exact x.isLt

/-- A right shift keeps at least the weight of every bit it does not drop. -/
theorem le_shr_toNat
    {x : Word} {bit count : Nat}
    (hset : 2 ^ bit ≤ x.toNat)
    (hkept : count % 64 ≤ bit) :
    2 ^ (bit - count % 64) ≤ (shr x count).toNat := by
  rw [shr, BitVec.toNat_ushiftRight, Nat.shiftRight_eq_div_pow,
    Nat.le_div_iff_mul_le (Nat.two_pow_pos _), ← Nat.pow_add,
    Nat.sub_add_cancel hkept]
  exact hset

/-- A field that is shifted to the top of a word and down again. -/
theorem field_toNat
    (x : Word) {up down : Nat}
    (hup : up ≤ 64)
    (hdown : up ≤ down) :
    ((x <<< up) >>> down).toNat = x.toNat % 2 ^ (64 - up) / 2 ^ (down - up) := by
  have hword : 2 ^ 64 = 2 ^ up * 2 ^ (64 - up) := by
    rw [← Nat.pow_add, Nat.add_sub_cancel' hup]
  have hshift : 2 ^ down = 2 ^ up * 2 ^ (down - up) := by
    rw [← Nat.pow_add, Nat.add_sub_cancel' hdown]
  rw [BitVec.toNat_ushiftRight, BitVec.toNat_shiftLeft, Nat.shiftRight_eq_div_pow,
    Nat.shiftLeft_eq, hword, Nat.mul_comm x.toNat, Nat.mul_mod_mul_left, hshift,
    Nat.mul_div_mul_left _ _ (Nat.two_pow_pos up)]

end Shifts

section Bits

/-- The test `x & (1 << bit)` of a C condition. -/
def bitSet (x : Word) (bit : Nat) : Bool :=
  (x &&& BitVec.twoPow 64 bit) != 0

/-- The assignment `x |= 1 << bit`. -/
def setBit (x : Word) (bit : Nat) : Word :=
  x ||| BitVec.twoPow 64 bit

theorem bitSet_eq_getLsbD
    (x : Word) {bit : Nat}
    (hbit : bit < 64) :
    bitSet x bit = x.getLsbD bit := by
  rw [bitSet, BitVec.and_twoPow]
  have hpow : BitVec.twoPow 64 bit ≠ 0#64 := by
    intro h
    have := congrArg (fun v : Word => v.getLsbD bit) h
    simp [hbit] at this
  cases x.getLsbD bit with
  | false => rfl
  | true => simpa using hpow

theorem getLsbD_setBit
    (x : Word) {bit i : Nat}
    (hbit : bit < 64) :
    (setBit x bit).getLsbD i = (x.getLsbD i || decide (i = bit)) := by
  rw [setBit, BitVec.getLsbD_or, BitVec.getLsbD_twoPow]
  congr 1
  by_cases h : i = bit
  · subst h
    simp [hbit]
  · simp [h, Ne.symm h]

theorem bitSet_setBit
    (x : Word) {bit i : Nat}
    (hbit : bit < 64)
    (hi : i < 64) :
    bitSet (setBit x bit) i = (bitSet x i || decide (i = bit)) := by
  rw [bitSet_eq_getLsbD _ hi, bitSet_eq_getLsbD _ hi, getLsbD_setBit x hbit]

/-- Setting a bit that is set changes nothing. -/
theorem setBit_of_bitSet
    {x : Word} {bit : Nat}
    (hbit : bit < 64)
    (h : bitSet x bit = true) :
    setBit x bit = x := by
  rw [bitSet_eq_getLsbD _ hbit] at h
  apply BitVec.eq_of_getLsbD_eq
  intro i hi
  rw [getLsbD_setBit x hbit]
  by_cases hib : i = bit
  · simp [hib, h]
  · simp [hib]

@[simp] theorem setBit_setBit (x : Word) (bit : Nat) :
    setBit (setBit x bit) bit = setBit x bit := by
  rw [setBit, setBit, BitVec.or_assoc, BitVec.or_self]

end Bits

/-- The address of element `i` in an array of words. -/
def wordAt (base : Word) (i : Nat) : Word :=
  base + BitVec.ofNat 64 (8 * i)

@[simp] theorem wordAt_zero (base : Word) : wordAt base 0 = base := by
  simp [wordAt]

theorem wordAt_wordAt (base : Word) (i j : Nat) :
    wordAt (wordAt base i) j = wordAt base (i + j) := by
  simp only [wordAt, BitVec.add_assoc, ← BitVec.ofNat_add, Nat.mul_add]

/-- Word addresses of an array below `2^61` elements are distinct. -/
theorem wordAt_inj
    {base : Word} {i j : Nat}
    (hi : i < 2 ^ 61)
    (hj : j < 2 ^ 61) :
    wordAt base i = wordAt base j ↔ i = j := by
  constructor
  · intro h
    have h' : BitVec.ofNat 64 (8 * i) = BitVec.ofNat 64 (8 * j) :=
      BitVec.add_right_inj base |>.mp h
    have hnat := congrArg BitVec.toNat h'
    simp only [BitVec.toNat_ofNat] at hnat
    omega
  · rintro rfl
    rfl

/-- Store `f i` in the words `base[i]` for `i < n`, in increasing order. -/
def storeWords (m : WordMemory) (base : Word) (f : Nat → Word) : Nat → WordMemory
  | 0 => m
  | n + 1 => Function.update (storeWords m base f n) (wordAt base n) (f n)

@[simp] theorem storeWords_zero
    (m : WordMemory) (base : Word) (f : Nat → Word) :
    storeWords m base f 0 = m :=
  rfl

theorem storeWords_of_not_mem
    {m : WordMemory} {base : Word} {f : Nat → Word} {n : Nat} {a : Word}
    (ha : ∀ i, i < n → a ≠ wordAt base i) :
    storeWords m base f n a = m a := by
  induction n with
  | zero => rfl
  | succ n ih =>
      rw [storeWords, Function.update_of_ne (ha n (Nat.lt_succ_self n))]
      exact ih fun i hi => ha i (Nat.lt_succ_of_lt hi)

theorem storeWords_wordAt
    {m : WordMemory} {base : Word} {f : Nat → Word} {n i : Nat}
    (hn : n ≤ 2 ^ 61)
    (hi : i < n) :
    storeWords m base f n (wordAt base i) = f i := by
  induction n with
  | zero => omega
  | succ n ih =>
      rw [storeWords]
      by_cases hin : i = n
      · subst hin
        rw [Function.update_self]
      · have hne : wordAt base i ≠ wordAt base n :=
          fun h => hin ((wordAt_inj (by omega) (by omega)).mp h)
        rw [Function.update_of_ne hne]
        exact ih (by omega) (by omega)

/-- The first word of a fill. -/
theorem storeWords_base
    {m : WordMemory} {base : Word} {f : Nat → Word} {n : Nat}
    (hn : n ≤ 2 ^ 61)
    (hpos : 0 < n) :
    storeWords m base f n base = f 0 := by
  have hfirst : storeWords m base f n (wordAt base 0) = f 0 := storeWords_wordAt hn hpos
  rwa [wordAt_zero] at hfirst

/-- A fill as a fold. -/
theorem storeWords_eq_foldl
    (m : WordMemory) (base : Word) (f : Nat → Word) (n : Nat) :
    storeWords m base f n =
      (List.range n).foldl (fun m i => Function.update m (wordAt base i) (f i)) m := by
  induction n with
  | zero => rfl
  | succ n ih =>
      rw [storeWords, List.range_succ, List.foldl_append, ih]
      rfl

/-- A fill leaves every word either alone or equal to one of the stored values. -/
theorem storeWords_cases
    (m : WordMemory) (base : Word) (f : Nat → Word) (n : Nat) (a : Word) :
    storeWords m base f n a = m a ∨
      ∃ i, i < n ∧ storeWords m base f n a = f i := by
  induction n with
  | zero => exact Or.inl rfl
  | succ n ih =>
      rw [storeWords]
      by_cases ha : a = wordAt base n
      · right
        exact ⟨n, Nat.lt_succ_self n, by rw [ha, Function.update_self]⟩
      · rw [Function.update_of_ne ha]
        rcases ih with h | ⟨i, hi, h⟩
        · exact Or.inl h
        · exact Or.inr ⟨i, Nat.lt_succ_of_lt hi, h⟩

/-- Set `n` bytes from `base` on. -/
def fillBytes (m : ByteMemory) (base : Word) (value : Byte) : Nat → ByteMemory
  | 0 => m
  | n + 1 =>
      Function.update (fillBytes m base value n) (base + BitVec.ofNat 64 n) value

theorem fillBytes_apply
    (m : ByteMemory) (base : Word) (value : Byte) (n : Nat) (a : Word) :
    ((∃ k, k < n ∧ a = base + BitVec.ofNat 64 k) ∧ fillBytes m base value n a = value) ∨
      ((∀ k, k < n → a ≠ base + BitVec.ofNat 64 k) ∧ fillBytes m base value n a = m a) := by
  induction n with
  | zero => exact Or.inr ⟨fun k hk => absurd hk (Nat.not_lt_zero k), rfl⟩
  | succ n ih =>
      rw [fillBytes]
      by_cases ha : a = base + BitVec.ofNat 64 n
      · refine Or.inl ⟨⟨n, Nat.lt_succ_self n, ha⟩, ?_⟩
        rw [ha, Function.update_self]
      · rw [Function.update_of_ne ha]
        rcases ih with ⟨⟨k, hk, hka⟩, hvalue⟩ | ⟨hout, hvalue⟩
        · exact Or.inl ⟨⟨k, Nat.lt_succ_of_lt hk, hka⟩, hvalue⟩
        · refine Or.inr ⟨fun k hk => ?_, hvalue⟩
          rcases Nat.lt_succ_iff_lt_or_eq.mp hk with hk' | rfl
          · exact hout k hk'
          · exact ha

/-- Copy `n` bytes, one after the other, in increasing order. -/
def copyBytes (m : ByteMemory) (dest source : Word) : Nat → ByteMemory
  | 0 => m
  | n + 1 =>
      let m := copyBytes m dest source n
      Function.update m (dest + BitVec.ofNat 64 n) (m (source + BitVec.ofNat 64 n))

end Machine
