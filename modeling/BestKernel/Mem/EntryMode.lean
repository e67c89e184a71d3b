import BestKernel.Mem.Swap
import BestKernel.Vfs.Calls

/-!
# The mode of an entry

The layout of a page entry keeps the mode in the bits 9 to 11.  Four functions shift it
out by hand, and no two of them take the same bits: `softfault_handler` takes the bits 1
to 11, `hardfault_handler` the bits 2 to 11, `mem_unmap` the bits 8 to 10 and
`recursive_free` the bits 0 to 8.

For each of them we record the entries on which it is right.  Together they are right on
the entries whose low twelve bits are all 0 (`modes_agree_iff`), which no template and
nothing that `exchange_swap` stores is.  The template itself is written where the layout
has it (`layoutMode_template`).

Readings of the source.  A payload is what is left of a word that is shifted up by 13.
-/

namespace BestKernel
namespace Mem

open Machine

/-- The mode by the layout. -/
def layoutMode (entry : Word) : Word := (entry >>> 9) &&& 7

/-- The value that `hardfault_handler` compares with `SWAPPED`. -/
def hardfaultMode (entry : Word) : Word := (entry <<< 52) >>> 54

/-- The value that `mem_unmap` compares with `MAP`. -/
def unmapMode (entry : Word) : Word := (entry <<< 53) >>> 61

/-- All four readers find the mode. -/
structure ReadAs (entry mode : Word) : Prop where
  softfault : Vfs.faultMode entry = mode
  hardfault : hardfaultMode entry = mode
  unmap : unmapMode entry = mode
  free : Vfs.freeMode entry = mode

/-- Where an entry comes from: anywhere, a template with a payload, or `exchange_swap`. -/
inductive EntrySource where
  | any (entry : Word)
  | template (pagetype : Nat) (mode : Mode) (cache exec : Half) (payload : Word)
  | swapped (entry diskpos : Word) (swap_number : Half)

namespace EntrySource

def entry : EntrySource → Word
  | any entry => entry
  | template pagetype mode cache exec payload =>
      memreqTemplate pagetype mode cache exec ||| (payload <<< 13)
  | swapped entry diskpos swap_number => (exchangeSwap entry diskpos swap_number).1

/-- The mode that should be read. -/
def mode : EntrySource → Word
  | any entry => layoutMode entry
  | template _ mode _ _ _ => mode.code.setWidth 64
  | swapped _ _ _ => Mode.SWAPPED.code.setWidth 64

/-- The entries whose mode is read alike. -/
def Plain : EntrySource → Prop
  | any entry => entry &&& 0xFFF = 0
  | template _ _ _ _ _ => False
  | swapped _ _ _ => False

end EntrySource

section Readers

/-- What `mem_unmap` refuses, by the mode that it reads. -/
theorem memUnmap_eq (m : WordMemory) (pagetree vm : Word) (pages_number pagetype : Nat) :
    memUnmap m pagetree vm pages_number pagetype =
      let walked := vmtoEntry vm m pagetree
      if (List.range pages_number).any fun h =>
          bitSet (walked.1 (wordAt walked.2 h)) 2 ||
            unmapMode (walked.1 (wordAt walked.2 h)) != Mode.MAP.code.setWidth 64 then
        (false, walked.1)
      else
        (true, storeWords walked.1 walked.2
          (fun _ => memreqTemplate pagetype .RESERVE Cache.WRITEBACK.code 0) pages_number) := rfl

variable (entry : Word)

theorem layoutMode_toNat : (layoutMode entry).toNat = entry.toNat / 512 % 8 := by
  have hmask : (7 : Word).toNat = 2 ^ 3 - 1 := rfl
  rw [layoutMode, BitVec.toNat_and, BitVec.toNat_ushiftRight, Nat.shiftRight_eq_div_pow, hmask,
    Nat.and_two_pow_sub_one_eq_mod]

theorem layoutMode_getLsbD
    {i : Nat}
    (hi : i < 3) :
    (layoutMode entry).getLsbD i = entry.getLsbD (9 + i) := by
  have hmask : ∀ i, i < 3 → (7 : Word).getLsbD i = true := by decide
  rw [layoutMode, BitVec.getLsbD_and, BitVec.getLsbD_ushiftRight, hmask i hi, Bool.and_true]

theorem faultMode_toNat : (Vfs.faultMode entry).toNat = entry.toNat % 4096 / 2 :=
  field_toNat entry (by decide) (by decide)

theorem hardfaultMode_toNat : (hardfaultMode entry).toNat = entry.toNat % 4096 / 4 :=
  field_toNat entry (by decide) (by decide)

theorem unmapMode_toNat : (unmapMode entry).toNat = entry.toNat % 2048 / 256 :=
  field_toNat entry (by decide) (by decide)

theorem freeMode_toNat : (Vfs.freeMode entry).toNat = entry.toNat % 512 := by
  have hfield : (Vfs.freeMode entry).toNat = entry.toNat % 512 / 1 :=
    field_toNat entry (by decide) (by decide)
  rwa [Nat.div_one] at hfield

/-- `softfault_handler` is right when the bits 1 to 11 are 0. -/
theorem faultMode_eq_iff :
    Vfs.faultMode entry = layoutMode entry ↔ entry.toNat % 4096 < 2 := by
  have hdiv := Nat.div_div_eq_div_mul entry.toNat 512 8
  rw [← BitVec.toNat_inj, faultMode_toNat, layoutMode_toNat]
  omega

/-- `hardfault_handler` is right when the bits 2 to 11 are 0. -/
theorem hardfaultMode_eq_iff :
    hardfaultMode entry = layoutMode entry ↔ entry.toNat % 4096 < 4 := by
  have hdiv := Nat.div_div_eq_div_mul entry.toNat 512 8
  rw [← BitVec.toNat_inj, hardfaultMode_toNat, layoutMode_toNat]
  omega

/-- `mem_unmap` is right when the bits 8 to 11 are all the same. -/
theorem unmapMode_eq_iff :
    unmapMode entry = layoutMode entry ↔
      entry.toNat / 256 % 16 = 0 ∨ entry.toNat / 256 % 16 = 15 := by
  rw [← BitVec.toNat_inj, unmapMode_toNat, layoutMode_toNat]
  omega

/-- `recursive_free` is right when the mode stands in the low bits as well. -/
theorem freeMode_eq_iff :
    Vfs.freeMode entry = layoutMode entry ↔
      entry.toNat % 512 = entry.toNat / 512 % 8 := by
  rw [← BitVec.toNat_inj, freeMode_toNat, layoutMode_toNat]

/-- All four are right when the low twelve bits are 0. -/
theorem readAs_layoutMode_iff :
    ReadAs entry (layoutMode entry) ↔ entry &&& 0xFFF = 0 := by
  have hmask : (0xFFF : Word).toNat = 2 ^ 12 - 1 := rfl
  have hlow : entry &&& 0xFFF = 0 ↔ entry.toNat % 4096 = 0 := by
    rw [← BitVec.toNat_inj, BitVec.toNat_and, hmask, Nat.and_two_pow_sub_one_eq_mod]
    rfl
  rw [hlow]
  constructor
  · intro hread
    have hfault := (faultMode_eq_iff entry).mp hread.softfault
    have hfree := (freeMode_eq_iff entry).mp hread.free
    omega
  · intro hzero
    refine ⟨(faultMode_eq_iff entry).mpr ?_, (hardfaultMode_eq_iff entry).mpr ?_,
      (unmapMode_eq_iff entry).mpr ?_, (freeMode_eq_iff entry).mpr ?_⟩
    all_goals omega

end Readers

section Writers

variable {pagetype : Nat} {mode : Mode} {exec : Half}

theorem code_toNat_lt (mode : Mode) : (mode.code.setWidth 64 : Word).toNat < 5 := by
  cases mode <;> decide

/-- A template carries the present bit, so that `recursive_free` reads twice the mode that
`softfault_handler` reads, and one more. -/
theorem not_readAs_template
    (pagetype : Nat) (mode : Mode) (cache exec : Half) (payload : Word) :
    ¬ ReadAs (memreqTemplate pagetype mode cache exec ||| (payload <<< 13))
      (mode.code.setWidth 64) := by
  intro hread
  have hodd : (memreqTemplate pagetype mode cache exec ||| (payload <<< 13)).getLsbD 0 = true := by
    rw [BitVec.getLsbD_or, memreqTemplate_getLsbD_zero, Bool.true_or]
  generalize memreqTemplate pagetype mode cache exec ||| (payload <<< 13) = entry at hread hodd
  have hfault := congrArg BitVec.toNat hread.softfault
  have hfree := congrArg BitVec.toNat hread.free
  have hcode := code_toNat_lt mode
  rw [faultMode_toNat] at hfault
  rw [freeMode_toNat] at hfree
  have hpresent : entry.toNat % 2 = 1 := by
    rw [← BitVec.testBit_toNat, Nat.testBit_zero] at hodd
    simpa using hodd
  omega

/-- What `exchange_swap` stores has bit 11 set. -/
theorem not_readAs_swapped
    (entry diskpos : Word) (swap_number : Half) :
    ¬ ReadAs (exchangeSwap entry diskpos swap_number).1 (Mode.SWAPPED.code.setWidth 64) := by
  intro hread
  have hset : (exchangeSwap entry diskpos swap_number).1[11] = true := by
    simp [exchangeSwap]
  have hbit := congrArg (fun x : Word => x.getLsbD 10) hread.softfault
  simp [Vfs.faultMode, Mode.code, hset] at hbit

/-- The cache settings fit below the mode. -/
theorem cache_getLsbD (cache : Cache) :
    ∀ i, i < 3 → cache.code.getLsbD (9 + i) = false ∧
      (shiftHighHalf cache.code).getLsbD (9 + i) = false := by
  cases cache <;> decide

/-- The bits of a template at the place of the mode. -/
theorem memreqTemplate_getLsbD_mode
    (pagetype : Nat) (mode : Mode) (cache : Cache) (exec : Half)
    {i : Nat}
    (hi : i < 3) :
    (memreqTemplate pagetype mode cache.code exec).getLsbD (9 + i) = mode.code.getLsbD i := by
  obtain ⟨hsmall, hlarge⟩ := cache_getLsbD cache i hi
  have hcache : (if pagetype ≠ Pag.SMALLPAGE then shiftHighHalf cache.code
      else cache.code).getLsbD (9 + i) = false := by
    split_ifs
    · exact hlarge
    · exact hsmall
  have hexec : (shl exec 63).getLsbD (9 + i) = false := by
    rw [shl, BitVec.getLsbD_shiftLeft]
    simp
    omega
  have hpresent : (1#32).getLsbD (9 + i) = false := by
    simp
  have hcode : (mode.code <<< 9).getLsbD (9 + i) = mode.code.getLsbD i := by
    have hlow : ¬ 9 + i < 9 := by omega
    rw [BitVec.getLsbD_shiftLeft, Nat.add_sub_cancel_left]
    simp [hlow, show 9 + i < 32 by omega]
  rw [memreqTemplate, BitVec.getLsbD_setWidth, BitVec.getLsbD_or, BitVec.getLsbD_or,
    BitVec.getLsbD_or, hcode, hcache, hexec, hpresent]
  simp [show 9 + i < 64 by omega]

/-- **A template is written as the layout says.** -/
theorem layoutMode_template
    (pagetype : Nat) (mode : Mode) (cache : Cache) (exec : Half) (payload : Word) :
    layoutMode (memreqTemplate pagetype mode cache.code exec ||| (payload <<< 13)) =
      mode.code.setWidth 64 := by
  have hcode := code_toNat_lt mode
  apply BitVec.eq_of_getLsbD_eq
  intro i hi
  by_cases hfield : i < 3
  · have hpayload : (payload <<< 13).getLsbD (9 + i) = false := by
      rw [BitVec.getLsbD_shiftLeft]
      simp
      omega
    rw [layoutMode_getLsbD _ hfield, BitVec.getLsbD_or,
      memreqTemplate_getLsbD_mode pagetype mode cache exec hfield, hpayload, Bool.or_false,
      BitVec.getLsbD_setWidth]
    simp [hi]
  · have hpow : 2 ^ 3 ≤ 2 ^ i := Nat.pow_le_pow_right (by decide) (by omega)
    rw [← BitVec.testBit_toNat, ← BitVec.testBit_toNat, layoutMode_toNat,
      Nat.testBit_lt_two_pow (by omega), Nat.testBit_lt_two_pow (by omega)]

end Writers

/-- **The readers agree on the mode of an entry exactly when its low twelve bits are 0**,
and never on what a template or `exchange_swap` has written. -/
theorem modes_agree_iff (source : EntrySource) :
    ReadAs source.entry source.mode ↔ source.Plain := by
  cases source with
  | any entry => exact readAs_layoutMode_iff entry
  | template pagetype mode cache exec payload =>
      exact iff_of_false (not_readAs_template pagetype mode cache exec payload) id
  | swapped entry diskpos swap_number =>
      exact iff_of_false (not_readAs_swapped entry diskpos swap_number) id

/-- A small page that is mapped to the frame at 4096. -/
theorem mapped_page_misread :
    let source := EntrySource.template Pag.SMALLPAGE .MAP Cache.WRITEBACK.code 0 4096
    layoutMode source.entry = Mode.MAP.code.setWidth 64 ∧
      Vfs.faultMode source.entry = 257 ∧ ¬ ReadAs source.entry source.mode := by
  refine ⟨by decide, by decide, ?_⟩
  intro hread
  exact absurd hread.softfault (by decide)

end Mem
end BestKernel
