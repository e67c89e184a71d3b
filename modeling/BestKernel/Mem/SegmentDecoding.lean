import BestKernel.Mem.Segments

/-!
# What a segment descriptor decodes to

`gdt_insert` and `generic_segment_insert` spread a base over the first word of a
descriptor, and `extract_segment_statistics` and `translate_ldt_entry` collect it again.
The length that is read is the whole first word, with the present bit in it, so no length
is ever read back (`segments_never_decode`).

The type of a system descriptor is a 32-bit number that is shifted by 40 places, which are
8: it lies in the limit (`system_attributes_apart_iff`).  The bit for code of the other
descriptors lies in the base (`code_attribute_overlaps`).

Readings of the source.  The inserts have no argument for the length: it is the number
that they put into the limit.  A slot of the global descriptor table is 16 bytes, and the
ones that are shifted into a descriptor have 64 bits.
-/

namespace BestKernel
namespace Mem

open Machine

/-- `sysseg_template` of `gdt_insert`. -/
def systemAttributes (type : Half) : Word :=
  (shl type 40).setWidth 64 ||| (1#64 <<< 47) ||| (1#64 <<< 53) ||| (1#64 <<< 55)

/-- `templ` of `generic_segment_insert`. -/
def genericAttributes (exec_bool : Bool) : Word :=
  let templ : Word := (1#64 <<< 41) ||| (1#64 <<< 44) ||| (1#64 <<< 47)
  if exec_bool then templ ||| (1#64 <<< 63) else templ

/-- `generic_segment_insert`, for the word at `ins`. -/
def genericSegmentInsert (m : WordMemory) (ins target : Word) (exec_bool : Bool) : WordMemory :=
  Function.update m target (genericAttributes exec_bool ||| segmentBase (m ins) ||| 2)

/-- `GDT::translate_ldt_entry`. -/
def translateLdtEntry (m : WordMemory) (processors_number : Half) (pool : Word) (index : Half) :
    Word :=
  if index < processors_number + 256 + 1 then 0
  else
    let ptr := pool + 16 * index.setWidth 64
    ((m ptr <<< 32) >>> 48) ||| ((m ptr <<< 25) >>> 58) ||| (m ptr >>> 56) ||| m (wordAt ptr 1)

/-- The attributes lie apart from the base and the limit. -/
def Apart (attributes base : Word) (limit : BitVec 20) : Prop :=
  attributes &&& (segmentBase base ||| limit.setWidth 64) = 0

/-- What the descriptor of a system segment should say, in the slot `index`. -/
structure SystemDecodes (m : WordMemory) (processors_number : Half) (pool : Word) (index : Half)
    (type : Half) (base : Word) (limit : BitVec 20) : Prop where
  statistics : extractSegmentStatistics m (pool + 16 * index.setWidth 64) =
    (base, limit.setWidth 64)
  translated : translateLdtEntry m processors_number pool index = base
  apart : Apart (systemAttributes type) base limit

/-- What the descriptor of another segment should say. -/
structure GenericDecodes (m : WordMemory) (target : Word) (exec_bool : Bool) (base : Word)
    (limit : BitVec 20) : Prop where
  statistics : extractSegmentStatistics m target = (base, limit.setWidth 64)
  apart : Apart (genericAttributes exec_bool) base limit

section Lengths

variable {m : WordMemory} {target : Word}

/-- A present descriptor has no length that fits into a limit. -/
theorem length_ne_of_present
    (hpresent : (m target)[47] = true)
    (limit : BitVec 20) :
    (extractSegmentStatistics m target).2 ≠ limit.setWidth 64 := by
  intro heq
  have hbit := congrArg (fun x => x[47]) heq
  simp [extractSegmentStatistics, hpresent] at hbit

theorem gdtInsert_present
    (m : WordMemory) (type : Half) (ins target : Word) :
    (gdtInsert m type ins target target)[47] = true := by
  simp [gdtInsert]

theorem genericSegmentInsert_present
    (m : WordMemory) (ins target : Word) (exec_bool : Bool) :
    (genericSegmentInsert m ins target exec_bool target)[47] = true := by
  cases exec_bool <;> simp [genericSegmentInsert, genericAttributes]

end Lengths

section Attributes

theorem getLsbD_of_small
    {w n i : Nat} {x : BitVec w}
    (hx : x.toNat < 2 ^ n)
    (hi : n ≤ i) :
    x.getLsbD i = false :=
  Nat.testBit_lt_two_pow (Nat.lt_of_lt_of_le hx (Nat.pow_le_pow_right (by decide) hi))

/-- The base lies in the bits 16 to 31 and 56 to 63. -/
theorem segmentBase_getLsbD
    (base : Word) {i : Nat}
    (hbit : i < 16 ∨ 32 ≤ i ∧ i < 56) :
    (segmentBase base).getLsbD i = false := by
  simp [segmentBase]
  omega

/-- The type lies 8 places up, and the other attributes in the bits 40 to 55. -/
theorem systemAttributes_getLsbD
    (type : Half) {i : Nat}
    (hout : i < 40 ∨ 56 ≤ i) :
    (systemAttributes type).getLsbD i = (shl type 40).getLsbD i := by
  have hone : ∀ count, 40 ≤ count → count < 56 → (1#64 <<< count).getLsbD i = false := by
    intro count hle hlt
    rw [BitVec.getLsbD_shiftLeft, BitVec.getLsbD_one]
    simp
    omega
  unfold systemAttributes
  rw [BitVec.getLsbD_or, BitVec.getLsbD_or, BitVec.getLsbD_or, hone 47 (by decide) (by decide),
    hone 53 (by decide) (by decide), hone 55 (by decide) (by decide), BitVec.getLsbD_setWidth]
  by_cases hi : i < 64
  · simp [hi]
  · rw [BitVec.getLsbD_of_ge _ i (by omega)]
    simp

theorem shl_type_getLsbD
    {type : Half} {i : Nat}
    (htype : type.toNat < 2 ^ 8)
    (hout : i < 8 ∨ 16 ≤ i) :
    (shl type 40).getLsbD i = false := by
  unfold shl
  rw [BitVec.getLsbD_shiftLeft]
  rcases hout with hlow | hhigh
  · have hcount : i < 40 % 32 := hlow
    simp [hcount]
  · have hkind : type.getLsbD (i - 40 % 32) = false := getLsbD_of_small htype (by omega)
    rw [hkind, Bool.and_false]

/-- What kind of system segment it is lies apart from the base, and apart from the limit when
the two have no bit in common there. -/
theorem system_attributes_apart_iff
    {type : Half} (base : Word) {limit : BitVec 20}
    (htype : type.toNat < 2 ^ 8) :
    Apart (systemAttributes type) base limit ↔ shl type 40 &&& limit.setWidth 32 = 0 := by
  have hbase : ∀ i, i < 16 → (segmentBase base).getLsbD i = false := fun i hi =>
    segmentBase_getLsbD base (.inl hi)
  constructor
  · intro hapart
    apply BitVec.eq_of_getLsbD_eq
    intro i hi
    rw [BitVec.getLsbD_and, BitVec.getLsbD_setWidth, decide_eq_true hi, Bool.true_and]
    by_cases hin : 8 ≤ i ∧ i < 16
    · have hbit : (systemAttributes type &&& (segmentBase base ||| limit.setWidth 64)).getLsbD i =
          (0 : Word).getLsbD i := congrArg (fun x => x.getLsbD i) hapart
      rw [BitVec.getLsbD_and, BitVec.getLsbD_or, systemAttributes_getLsbD type (by omega),
        hbase i hin.2, BitVec.getLsbD_setWidth, decide_eq_true (show i < 64 by omega),
        Bool.true_and, Bool.false_or] at hbit
      rw [hbit]
      simp
    · rw [shl_type_getLsbD htype (by omega), Bool.false_and]
      exact (BitVec.getLsbD_zero).symm
  · intro hlimit
    apply BitVec.eq_of_getLsbD_eq
    intro i hi
    rw [BitVec.getLsbD_and, BitVec.getLsbD_or, BitVec.getLsbD_setWidth, decide_eq_true hi,
      Bool.true_and]
    by_cases hout : i < 40 ∨ 56 ≤ i
    · rw [systemAttributes_getLsbD type hout]
      by_cases hin : 8 ≤ i ∧ i < 16
      · have hbit := congrArg (fun x => x.getLsbD i) hlimit
        have hnarrow : i < 32 := by omega
        simpa [hbase i hin.2, hnarrow] using hbit
      · rw [shl_type_getLsbD htype (by omega), Bool.false_and]
        exact (BitVec.getLsbD_zero).symm
    · rw [segmentBase_getLsbD base (by omega), BitVec.getLsbD_of_ge limit i (by omega)]
      simp

/-- The bit for code lies in the base. -/
theorem code_attribute_overlaps
    {base : Word} {limit : BitVec 20}
    (htop : base[63] = true) :
    ¬ Apart (genericAttributes true) base limit := by
  intro hapart
  have hbit := congrArg (fun x => x[63]) hapart
  simp [genericAttributes, segmentBase, htop] at hbit

end Attributes

section Bases

variable {m : WordMemory} {processors_number type index : Half} {ins pool : Word}

/-- The base that `translate_ldt_entry` finds, of a descriptor whose second word is 0. -/
theorem translateLdtEntry_lt
    (hsecond : m (wordAt (pool + 16 * index.setWidth 64) 1) = 0) :
    (translateLdtEntry m processors_number pool index).toNat < 2 ^ 16 := by
  unfold translateLdtEntry
  dsimp only
  split_ifs with hlow
  · decide
  · rw [hsecond]
    simp only [BitVec.toNat_or, BitVec.toNat_ushiftRight, Nat.shiftRight_eq_div_pow]
    have hdiv : ∀ x : Word, x.toNat / 2 ^ 48 < 2 ^ 16 ∧ x.toNat / 2 ^ 58 < 2 ^ 16 ∧
        x.toNat / 2 ^ 56 < 2 ^ 16 := by
      intro x
      have hx := x.isLt
      omega
    refine Nat.or_lt_two_pow (Nat.or_lt_two_pow (Nat.or_lt_two_pow ?_ ?_) ?_) (by decide)
    · exact (hdiv _).1
    · exact (hdiv _).2.1
    · exact (hdiv _).2.2

theorem segmentBase_of_small
    {base : Word}
    (hsmall : base.toNat < 2 ^ 16) :
    segmentBase base = base <<< 16 := by
  have hhigh : ∀ i, 16 ≤ i → base.getLsbD i = false := fun i hi => getLsbD_of_small hsmall hi
  apply BitVec.eq_of_getLsbD_eq
  intro i hi
  unfold segmentBase
  simp only [BitVec.getLsbD_or, BitVec.getLsbD_shiftLeft, BitVec.getLsbD_ushiftRight]
  by_cases hlow : i < 16
  · simp [hlow]
    omega
  · rw [hhigh (56 + (i - 56)) (by omega), hhigh (16 + (32 + i - 56)) (by omega)]
    by_cases hmid : i < 32
    · have heq : 32 + i - 48 = i - 16 := by omega
      simp [hi, hlow, heq]
      omega
    · rw [hhigh (i - 16) (by omega), hhigh (32 + i - 48) (by omega)]
      simp

/-- A base of 16 bits is collected from where it was put. -/
theorem collected_eq
    {base : Word}
    (htype : type.toNat < 2 ^ 8)
    (hsmall : base.toNat < 2 ^ 16) :
    let word := systemAttributes type ||| segmentBase base ||| tosmallpage MAX16BIT
    ((word <<< 32) >>> 48) ||| ((word <<< 25) >>> 58) ||| (word >>> 56) ||| 0 = base := by
  intro word
  have hword : ∀ i, 16 ≤ i → (i < 40 ∨ 56 ≤ i) → i < 64 →
      word.getLsbD i = base.getLsbD (i - 16) := by
    intro i hi hout hlt
    have hlimit : (tosmallpage MAX16BIT).getLsbD i = false :=
      getLsbD_of_small (show (tosmallpage MAX16BIT).toNat < 2 ^ 5 by decide) (by omega)
    have hnot : ¬ i < 16 := by omega
    rw [BitVec.getLsbD_or, BitVec.getLsbD_or, systemAttributes_getLsbD type hout,
      shl_type_getLsbD htype (by omega), hlimit, segmentBase_of_small hsmall,
      BitVec.getLsbD_shiftLeft]
    simp [hlt, hnot]
  have hhigh : ∀ i, 16 ≤ i → base.getLsbD i = false := fun i hi => getLsbD_of_small hsmall hi
  have hzero : ∀ i, 32 ≤ i → (i < 40 ∨ 56 ≤ i) → word.getLsbD i = false := by
    intro i hi hout
    by_cases hlt : i < 64
    · rw [hword i (by omega) hout hlt, hhigh (i - 16) (by omega)]
    · exact BitVec.getLsbD_of_ge _ _ (by omega)
  apply BitVec.eq_of_getLsbD_eq
  intro i hi
  simp only [BitVec.getLsbD_or, BitVec.getLsbD_shiftLeft, BitVec.getLsbD_ushiftRight,
    BitVec.ofNat_eq_ofNat, BitVec.getLsbD_zero, Bool.or_false]
  rw [hzero (56 + i) (by omega) (by omega)]
  by_cases hlow : i < 16
  · rw [hword (48 + i - 32) (by omega) (by omega) (by omega)]
    have hbit : 48 + i - 32 - 16 = i := by omega
    have hin : 48 + i < 64 := by omega
    have hnot : ¬ 48 + i < 32 := by omega
    rw [hbit]
    by_cases hmid : i < 6
    · simp [hin, hnot, hzero (58 + i - 25) (by omega) (by omega)]
    · have hout : ¬ 58 + i < 64 := by omega
      simp [hin, hnot, hout]
  · rw [hhigh i (by omega)]
    simp
    omega

/-- **`translate_ldt_entry` finds the base of a system descriptor exactly when it has no
more than 16 bits**, in a slot whose second word, which is not written, is zero. -/
theorem translate_gdtInsert_iff
    (htype : type.toNat < 2 ^ 8)
    (hindex : ¬ index < processors_number + 256 + 1)
    (hsecond : m (wordAt (pool + 16 * index.setWidth 64) 1) = 0) :
    translateLdtEntry (gdtInsert m type ins (pool + 16 * index.setWidth 64)) processors_number
        pool index = m ins ↔
      (m ins).toNat < 2 ^ 16 := by
  have hapart : wordAt (pool + 16 * index.setWidth 64) 1 ≠ pool + 16 * index.setWidth 64 := by
    intro h
    have hzero : wordAt (pool + 16 * index.setWidth 64) 1 =
        wordAt (pool + 16 * index.setWidth 64) 0 := by rw [h, wordAt_zero]
    exact absurd ((wordAt_inj (by decide) (by decide)).mp hzero) (by decide)
  have hsecond' : gdtInsert m type ins (pool + 16 * index.setWidth 64)
      (wordAt (pool + 16 * index.setWidth 64) 1) = 0 := by
    rw [gdtInsert, Function.update_of_ne hapart, hsecond]
  constructor
  · intro heq
    rw [← heq]
    exact translateLdtEntry_lt hsecond'
  · intro hsmall
    have hword : gdtInsert m type ins (pool + 16 * index.setWidth 64)
        (pool + 16 * index.setWidth 64) =
          systemAttributes type ||| segmentBase (m ins) ||| tosmallpage MAX16BIT :=
      Function.update_self _ _ _
    unfold translateLdtEntry
    rw [if_neg hindex]
    dsimp only
    rw [hsecond', hword]
    exact collected_eq htype hsmall

/-- The descriptor of a table at 4096. -/
theorem translate_gdtInsert_iff_page :
    translateLdtEntry
        (gdtInsert (fun a => if a = 0 then 4096 else 0) LDT_TYPE 0
          (0x5000 + 16 * (300 : Half).setWidth 64)) 1 0x5000 300 = 4096 ↔
      (4096 : Word).toNat < 2 ^ 16 :=
  translate_gdtInsert_iff (m := fun a => if a = 0 then 4096 else 0) (by decide) (by decide)
    (by decide)

end Bases

/-- **No length is read back**, whatever the base, the kind of segment and the limit. -/
theorem segments_never_decode
    (m : WordMemory) (type : Half) (ins pool target : Word) (processors_number index : Half)
    (exec_bool : Bool) (limit : BitVec 20) :
    ¬ SystemDecodes (gdtInsert m type ins (pool + 16 * index.setWidth 64)) processors_number pool
        index type (m ins) limit ∧
      ¬ GenericDecodes (genericSegmentInsert m ins target exec_bool) target exec_bool (m ins)
        limit := by
  constructor
  · intro h
    exact length_ne_of_present (gdtInsert_present m type ins _) limit
      (congrArg Prod.snd h.statistics)
  · intro h
    exact length_ne_of_present (genericSegmentInsert_present m ins target exec_bool) limit
      (congrArg Prod.snd h.statistics)

/-- The descriptor of a local descriptor table at 4096, and that of a data segment. -/
theorem page_not_decoded :
    ¬ (SystemDecodes (gdtInsert (fun _ => 4096) LDT_TYPE 0 (0x5000 + 16 * 300)) 1 0x5000 300
          LDT_TYPE 4096 16 ∧
        GenericDecodes (genericSegmentInsert (fun _ => 4096) 0 0x6000 false) 0x6000 false
          4096 2) := by
  rintro ⟨-, h⟩
  have hlength : (extractSegmentStatistics
      (genericSegmentInsert (fun _ => 4096) 0 0x6000 false) 0x6000).2 = 2 :=
    congrArg Prod.snd h.statistics
  exact absurd hlength (by decide)

end Mem
end BestKernel
