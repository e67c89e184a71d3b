import BestKernel.Devices.Vectors
import BestKernel.Library.Indexed

/-!
# Redirection entries

The driver of the I/O APICs programs a pin by reading and writing one register through the
window.  The registers of a pin are `16+2p` and the one behind it, of which the first has
all the fields; the driver goes to register `16+p`, or to register `p` for the mask.

`setters_right_iff` says when the setters and getters of a pin get on with each other
nevertheless, law by law: what is to be written must in effect be there already.

Readings of the source.  `mmio` is the `pointer` of an I/O APIC.  An assignment to
`(uchar_t)nyu` writes the low byte of `nyu`, and `(char)nyu` is signed.  The shift of
`set_trigger_mode` by nothing is one by 0, and `get_trigger_mode`, which has no
`trigger_mode`, does not test it.
-/

namespace BestKernel
namespace Devices

open Machine
open Indexed

/-- The registers of an I/O APIC, behind the index register at word 0 and the window at
word 1. -/
abbrev IoapicRegisters := Bank Half Half

/-- `(uchar_t)nyu = x`. -/
def assignByte (nyu : Half) (x : Byte) : Half := (nyu &&& 0xFFFFFF00) ||| x.setWidth 32

/-- The mask bit. -/
def maskbit : Half := 1 <<< 16

/-- `((nyu | 7<<8)^7<<8) | mode`. -/
def insertMode (nyu mode : Half) : Half := ((nyu ||| (7 <<< 8)) ^^^ (7 <<< 8)) ||| mode

section Driver

variable (info : IOapic) (rel_pin : Half) (ioapic_cfg : IoapicRegisters)

/-- `assign_vector`. -/
def assignVector (vector : Byte) : Half × IoapicRegisters :=
  let ioapic_cfg := ioapic_cfg.choose (16 + rel_pin)
  let nyu := ioapic_cfg.window
  (0, ioapic_cfg.store (assignByte nyu vector))

/-- `get_vector`. -/
def getVector : Half × IoapicRegisters :=
  if ¬ info.linesnum > rel_pin then (1, ioapic_cfg)
  else
    let ioapic_cfg := ioapic_cfg.choose (16 + rel_pin)
    let nyu := ioapic_cfg.window
    ((nyu.setWidth 8).signExtend 32, ioapic_cfg)

/-- `mask_pin`. -/
def maskPin : Half × IoapicRegisters :=
  if ¬ info.linesnum > rel_pin then (1, ioapic_cfg)
  else
    let ioapic_cfg := ioapic_cfg.choose rel_pin
    let nyu := ioapic_cfg.window
    (0, ioapic_cfg.store (assignByte nyu (((nyu.setWidth 8).setWidth 32 ||| maskbit).setWidth 8)))

/-- `unmask_pin`. -/
def unmaskPin : Half × IoapicRegisters :=
  if ¬ info.linesnum > rel_pin then (1, ioapic_cfg)
  else
    let ioapic_cfg := ioapic_cfg.choose rel_pin
    let nyu := ioapic_cfg.window
    (0, ioapic_cfg.store (assignByte nyu (((nyu ||| maskbit) ^^^ maskbit).setWidth 8)))

/-- `set_delivery_mode`. -/
def setDeliveryMode (mode : Half) : Half × IoapicRegisters :=
  if mode > 7 then (1, ioapic_cfg)
  else if ¬ info.linesnum > rel_pin then (1, ioapic_cfg)
  else
    let ioapic_cfg := ioapic_cfg.choose (16 + rel_pin)
    let nyu := ioapic_cfg.window
    (0, ioapic_cfg.store (insertMode nyu mode))

/-- `get_delivery_mode`. -/
def getDeliveryMode : Half × IoapicRegisters :=
  if ¬ info.linesnum > rel_pin then (32, ioapic_cfg)
  else
    let ioapic_cfg := ioapic_cfg.choose (16 + rel_pin)
    let nyu := ioapic_cfg.window
    ((nyu <<< 16) >>> 29, ioapic_cfg)

/-- `set_trigger_mode`. -/
def setTriggerMode (trigger_mode : Half) : Half × IoapicRegisters :=
  if trigger_mode > 1 then (1, ioapic_cfg)
  else if ¬ info.linesnum > rel_pin then (1, ioapic_cfg)
  else
    let ioapic_cfg := ioapic_cfg.choose (16 + rel_pin)
    let nyu := ioapic_cfg.window
    (nyu, ioapic_cfg)

/-- `get_trigger_mode`. -/
def getTriggerMode : Half × IoapicRegisters :=
  if ¬ info.linesnum > rel_pin then (1, ioapic_cfg)
  else
    let ioapic_cfg := ioapic_cfg.choose (16 + rel_pin)
    let nyu := ioapic_cfg.window
    ((nyu <<< 15) >>> 31, ioapic_cfg)

end Driver

/-- The setters with what they write. -/
inductive Setter where
  | vector (vector : Byte)
  | delivery (mode : Half)
  | trigger (trigger_mode : Half)
  | mask
  | unmask

/-- A call of a setter: its value, and the registers behind it. -/
def Setter.run (info : IOapic) (rel_pin : Half) (ioapic_cfg : IoapicRegisters) :
    Setter → Half × IoapicRegisters
  | vector x => assignVector rel_pin ioapic_cfg x
  | delivery mode => setDeliveryMode info rel_pin ioapic_cfg mode
  | trigger trigger_mode => setTriggerMode info rel_pin ioapic_cfg trigger_mode
  | mask => maskPin info rel_pin ioapic_cfg
  | unmask => unmaskPin info rel_pin ioapic_cfg

section Specification

/-- The bits of a redirection entry that a setter is about. -/
def Setter.field : Setter → Half
  | vector _ => 0xFF
  | delivery _ => 0x700
  | trigger _ => 0x8000
  | mask | unmask => 0x10000

/-- The register with the fields of a pin. -/
def lowRegister (pin : Half) : Half := 16 + 2 * pin

/-- A pin is masked. -/
def Masked (file : Half → Half) (pin : Half) : Prop := (file (lowRegister pin)).getLsbD 16 = true

/-- Nothing has changed but a field of a pin. -/
def TouchesOnly (field pin : Half) (file file' : Half → Half) : Prop :=
  ∀ r, AgreeOutside (if r = lowRegister pin then field else 0) (file' r) (file r)

variable (info : IOapic) (chip : IoapicRegisters) (pin other : Half) (vector : Byte)
  (mode trigger_mode : Half)

/-- The setters with these arguments. -/
def argumentSetters : List Setter :=
  [.vector vector, .delivery mode, .trigger trigger_mode, .mask, .unmask]

/-- What the setters and getters of a pin should do. -/
structure SettersRight : Prop where
  vector_read : pin < info.linesnum →
    (getVector info pin (assignVector pin chip vector).2).1 = vector.setWidth 32
  delivery_read : pin < info.linesnum →
    (getDeliveryMode info pin (setDeliveryMode info pin chip mode).2).1 = mode
  trigger_read : pin < info.linesnum →
    (getTriggerMode info pin (setTriggerMode info pin chip trigger_mode).2).1 = trigger_mode
  masks : pin < info.linesnum → Masked (maskPin info pin chip).2.file pin
  undone : pin < info.linesnum → ¬ Masked chip.file pin →
    (unmaskPin info pin (maskPin info pin chip).2).2.file = chip.file
  kept : pin < info.linesnum → ∀ setter, setter ∈ argumentSetters vector mode trigger_mode →
    TouchesOnly setter.field pin chip.file (setter.run info pin chip).2.file
  commutes : pin < info.linesnum → other < info.linesnum → ∀ a b,
    a ∈ argumentSetters vector mode trigger_mode → b ∈ argumentSetters vector mode trigger_mode →
    pin ≠ other ∨ a.field ≠ b.field →
    (b.run info other (a.run info pin chip).2).2.file =
      (a.run info pin (b.run info other chip).2).2.file
  refuses : ¬ pin < info.linesnum → ∀ setter, setter ∈ argumentSetters vector mode trigger_mode →
    (setter.run info pin chip).1 ≠ 0 ∧ (setter.run info pin chip).2.file = chip.file

/-- The condition: the register that the driver goes to, and the one it should go to, have
there already what the setters cannot write or should not. -/
structure SettersSafe : Prop where
  inside : pin < info.linesnum
  vector_read : vector.toNat < 128
  delivery_read : (chip.file (16 + pin) <<< 16) >>> 29 = mode
  trigger_read : (chip.file (16 + pin) <<< 15) >>> 31 = trigger_mode
  masks : Masked chip.file pin
  low : chip.file (16 + pin) ||| mode = chip.file (16 + pin)
  rest : pin ≠ 0 → (chip.file (16 + pin)).setWidth 8 = vector ∧ chip.file (16 + pin) &&& 0x700 = 0
  commutes : pin = other → vector.setWidth 32 ||| mode = vector.setWidth 32

end Specification

section Values

variable {x mode : Half} {v : Byte}

theorem assignByte_getLsbD
    (x : Half) (v : Byte) {i : Nat}
    (hi : i < 32) :
    (assignByte x v).getLsbD i = if i < 8 then v.getLsbD i else x.getLsbD i := by
  have hmask : ∀ i, i < 32 → (0xFFFFFF00 : Half).getLsbD i = decide (8 ≤ i) := by decide
  rw [assignByte, BitVec.getLsbD_or, BitVec.getLsbD_and, hmask i hi, BitVec.getLsbD_setWidth]
  by_cases hbyte : i < 8
  · simp [hi, hbyte, Nat.not_le_of_lt hbyte]
  · simp [hi, hbyte, Nat.le_of_not_lt hbyte]

theorem insertMode_getLsbD
    (x mode : Half) (i : Nat) :
    (insertMode x mode).getLsbD i =
      (x.getLsbD i && !(0x700 : Half).getLsbD i || mode.getLsbD i) := by
  have hmask : (7 <<< 8 : Half) = 0x700 := rfl
  rw [insertMode, hmask, BitVec.getLsbD_or, BitVec.getLsbD_xor, BitVec.getLsbD_or]
  cases x.getLsbD i <;> cases (0x700 : Half).getLsbD i <;> rfl

/-- A mode has three bits. -/
theorem mode_getLsbD
    (hmode : mode ≤ 7) {i : Nat}
    (hi : 3 ≤ i) :
    mode.getLsbD i = false := by
  have hlt : mode.toNat < 2 ^ i :=
    Nat.lt_of_le_of_lt hmode (Nat.lt_of_lt_of_le (by decide) (Nat.pow_le_pow_right (by decide) hi))
  rw [← BitVec.testBit_toNat]
  exact Nat.testBit_lt_two_pow hlt

/-- An assignment to the low byte keeps the other bytes. -/
theorem assignByte_agree (x : Half) (v : Byte) : AgreeOutside 0xFF (assignByte x v) x := by
  have hmask : ∀ i, i < 32 → (0xFF : Half).getLsbD i = decide (i < 8) := by decide
  rw [agreeOutside_iff]
  intro i hi hout
  rw [hmask i hi, decide_eq_false_iff_not] at hout
  rw [assignByte_getLsbD _ _ hi, if_neg hout]

theorem assignByte_eq_iff : assignByte x v = x ↔ x.setWidth 8 = v := by
  rw [BitVec.eq_of_getLsbD_eq_iff, BitVec.eq_of_getLsbD_eq_iff]
  constructor
  · intro h i hi
    have hbit := h i (by omega)
    rw [assignByte_getLsbD _ _ (by omega), if_pos hi] at hbit
    rw [BitVec.getLsbD_setWidth, decide_eq_true hi, Bool.true_and, hbit]
  · intro h i hi
    rw [assignByte_getLsbD _ _ hi]
    split_ifs with hbyte
    · rw [← h i hbyte, BitVec.getLsbD_setWidth, decide_eq_true hbyte, Bool.true_and]
    · rfl

theorem or_eq_self_iff :
    x ||| mode = x ↔ ∀ i, i < 32 → mode.getLsbD i = true → x.getLsbD i = true := by
  rw [BitVec.eq_of_getLsbD_eq_iff]
  refine forall_congr' fun i => imp_congr_right fun _ => ?_
  rw [BitVec.getLsbD_or]
  cases x.getLsbD i <;> simp

/-- The field of the mode lies above the mode itself. -/
theorem modeField_getLsbD :
    ∀ i, i < 32 → (0x700 : Half).getLsbD i = decide (8 ≤ i ∧ i < 11) := by
  decide

/-- `set_delivery_mode` keeps what is beside its field if the low bits have the mode
already. -/
theorem insertMode_agree_iff
    (hmode : mode ≤ 7) :
    AgreeOutside 0x700 (insertMode x mode) x ↔ x ||| mode = x := by
  rw [agreeOutside_iff, or_eq_self_iff]
  refine forall_congr' fun i => imp_congr_right fun hi => ?_
  rw [insertMode_getLsbD, modeField_getLsbD i hi, decide_eq_false_iff_not]
  constructor
  · intro h hbit
    have hlow : i < 3 := by
      by_contra hhigh
      rw [mode_getLsbD hmode (Nat.le_of_not_lt hhigh)] at hbit
      cases hbit
    have hsame := h (by omega)
    rw [hbit, Bool.or_true] at hsame
    exact hsame.symm
  · intro h hout
    rw [decide_eq_false hout, Bool.not_false, Bool.and_true]
    cases hbit : mode.getLsbD i with
    | false => rw [Bool.or_false]
    | true => rw [h hbit, Bool.true_or]

/-- It keeps everything if the field is empty, too. -/
theorem insertMode_eq_iff
    (hmode : mode ≤ 7) :
    insertMode x mode = x ↔ x &&& 0x700 = 0 ∧ x ||| mode = x := by
  rw [or_eq_self_iff, BitVec.eq_of_getLsbD_eq_iff, BitVec.eq_of_getLsbD_eq_iff, ← forall_and]
  refine forall_congr' fun i => ?_
  rw [← imp_and]
  refine imp_congr_right fun hi => ?_
  have hapart : (0x700 : Half).getLsbD i = true → mode.getLsbD i = false := by
    intro hfield
    rw [modeField_getLsbD i hi, decide_eq_true_eq] at hfield
    exact mode_getLsbD hmode (by omega)
  have hzero : (0 : Half).getLsbD i = false := BitVec.getLsbD_zero
  rw [insertMode_getLsbD, BitVec.getLsbD_and, hzero]
  cases hfield : (0x700 : Half).getLsbD i with
  | false => cases x.getLsbD i <;> simp
  | true =>
      rw [hapart hfield]
      cases x.getLsbD i <;> simp

/-- What `get_delivery_mode` reads is beside the mode that is written. -/
theorem insertMode_read
    (hmode : mode ≤ 7) :
    (insertMode x mode <<< 16) >>> 29 = (x <<< 16) >>> 29 := by
  apply BitVec.eq_of_getLsbD_eq
  intro i hi
  rw [BitVec.getLsbD_ushiftRight, BitVec.getLsbD_ushiftRight, BitVec.getLsbD_shiftLeft,
    BitVec.getLsbD_shiftLeft]
  by_cases hin : 29 + i < 32
  · have hfield : (0x700 : Half).getLsbD (29 + i - 16) = false := by
      rw [modeField_getLsbD _ (by omega), decide_eq_false_iff_not]
      omega
    rw [insertMode_getLsbD, hfield, mode_getLsbD hmode (by omega), Bool.not_false, Bool.and_true,
      Bool.or_false]
  · rw [decide_eq_false hin, Bool.false_and, Bool.false_and, Bool.false_and]

/-- The two setters of a register can be swapped if the vector has the bits of the mode. -/
theorem insertMode_assignByte_iff
    (hmode : mode ≤ 7) :
    insertMode (assignByte x v) mode = assignByte (insertMode x mode) v ↔
      v.setWidth 32 ||| mode = v.setWidth 32 := by
  rw [or_eq_self_iff, BitVec.eq_of_getLsbD_eq_iff]
  refine forall_congr' fun i => imp_congr_right fun hi => ?_
  rw [insertMode_getLsbD, assignByte_getLsbD _ _ hi, assignByte_getLsbD _ _ hi,
    insertMode_getLsbD, BitVec.getLsbD_setWidth, modeField_getLsbD i hi]
  by_cases hbyte : i < 8
  · have hbelow : ¬ (8 ≤ i ∧ i < 11) := by omega
    rw [if_pos hbyte, if_pos hbyte, decide_eq_true hi, decide_eq_false hbelow]
    cases v.getLsbD i <;> simp
  · rw [if_neg hbyte, if_neg hbyte, mode_getLsbD hmode (by omega)]
    simp

/-- What `get_vector` makes of a vector. -/
theorem signExtend_eq_iff (v : Byte) : v.signExtend 32 = v.setWidth 32 ↔ v.toNat < 128 := by
  have hall : ∀ v : Byte, v.signExtend 32 = v.setWidth 32 ↔ v.toNat < 128 := by decide +kernel
  exact hall v

theorem assignByte_setWidth (x : Half) (v : Byte) : (assignByte x v).setWidth 8 = v := by
  apply BitVec.eq_of_getLsbD_eq
  intro i hi
  rw [BitVec.getLsbD_setWidth, assignByte_getLsbD _ _ (by omega), if_pos hi, decide_eq_true hi,
    Bool.true_and]

/-- The mask bit does not reach the byte that is written. -/
theorem maskbit_getLsbD :
    ∀ i, i < 8 → maskbit.getLsbD i = false := by
  decide

theorem assignByte_mask (x : Half) :
    assignByte x (((x.setWidth 8).setWidth 32 ||| maskbit).setWidth 8) = x := by
  rw [assignByte_eq_iff]
  apply BitVec.eq_of_getLsbD_eq
  intro i hi
  have hwide : i < 32 := by omega
  rw [BitVec.getLsbD_setWidth, BitVec.getLsbD_setWidth, BitVec.getLsbD_or, maskbit_getLsbD i hi,
    BitVec.getLsbD_setWidth, BitVec.getLsbD_setWidth]
  simp [hi, hwide]

theorem assignByte_unmask (x : Half) :
    assignByte x (((x ||| maskbit) ^^^ maskbit).setWidth 8) = x := by
  rw [assignByte_eq_iff]
  apply BitVec.eq_of_getLsbD_eq
  intro i hi
  rw [BitVec.getLsbD_setWidth, BitVec.getLsbD_setWidth, BitVec.getLsbD_xor, BitVec.getLsbD_or,
    maskbit_getLsbD i hi, Bool.or_false, Bool.xor_false]

end Values

section Calls

variable {info : IOapic} {chip : IoapicRegisters} {pin other : Half} {vector : Byte}
  {mode trigger_mode : Half}

/-- `mask_pin` and `unmask_pin` leave every register as it is. -/
theorem maskPin_file (info : IOapic) (pin : Half) (chip : IoapicRegisters) :
    (maskPin info pin chip).2.file = chip.file := by
  unfold maskPin
  split_ifs
  · exact (Bank.modify_file_eq_iff chip pin fun x =>
      assignByte x (((x.setWidth 8).setWidth 32 ||| maskbit).setWidth 8)).mpr (assignByte_mask _)
  · rfl

theorem unmaskPin_file (info : IOapic) (pin : Half) (chip : IoapicRegisters) :
    (unmaskPin info pin chip).2.file = chip.file := by
  unfold unmaskPin
  split_ifs
  · exact (Bank.modify_file_eq_iff chip pin fun x =>
      assignByte x (((x ||| maskbit) ^^^ maskbit).setWidth 8)).mpr (assignByte_unmask _)
  · rfl

theorem setTriggerMode_file (info : IOapic) (pin : Half) (chip : IoapicRegisters)
    (trigger_mode : Half) :
    (setTriggerMode info pin chip trigger_mode).2.file = chip.file := by
  unfold setTriggerMode
  split_ifs <;> rfl

theorem setDeliveryMode_file
    (hpin : pin < info.linesnum)
    (hmode : mode ≤ 7) :
    (setDeliveryMode info pin chip mode).2.file =
      (chip.modify (16 + pin) fun x => insertMode x mode).file := by
  unfold setDeliveryMode
  rw [if_neg (BitVec.not_lt.mpr hmode), if_neg (not_not_intro hpin)]
  rfl

/-- What a setter does to the register of its pin. -/
def Setter.edit : Setter → Half → Half
  | .vector v => fun x => assignByte x v
  | .delivery mode => fun x => insertMode x mode
  | _ => id

/-- **Every setter is one write to register `16+p`.** -/
theorem Setter.run_file
    (hpin : pin < info.linesnum)
    (hmode : mode ≤ 7)
    {setter : Setter}
    (h : setter ∈ argumentSetters vector mode trigger_mode)
    (chip : IoapicRegisters) :
    (setter.run info pin chip).2.file = (chip.modify (16 + pin) setter.edit).file := by
  have hid : (chip.modify (16 + pin) id).file = chip.file :=
    (Bank.modify_file_eq_iff chip _ _).mpr rfl
  cases setter with
  | vector v => rfl
  | delivery mode' =>
      obtain rfl : mode' = mode := by simpa [argumentSetters] using h
      exact setDeliveryMode_file hpin hmode
  | trigger trigger_mode' => exact (setTriggerMode_file info pin chip _).trans hid.symm
  | mask => exact (maskPin_file info pin chip).trans hid.symm
  | unmask => exact (unmaskPin_file info pin chip).trans hid.symm

/-- Register `16+p` is the right one for pin 0 alone. -/
theorem register_eq_iff (pin : Half) : 16 + pin = lowRegister pin ↔ pin = 0 := by
  have hlow : (lowRegister pin).toNat = (16 + 2 * pin.toNat) % 2 ^ 32 := by
    rw [lowRegister, BitVec.toNat_add, BitVec.toNat_mul]
    change (16 + 2 * pin.toNat % 2 ^ 32) % 2 ^ 32 = _
    omega
  have hregister : (16 + pin).toNat = (16 + pin.toNat) % 2 ^ 32 := BitVec.toNat_add _ _
  rw [← BitVec.toNat_inj, ← BitVec.toNat_inj, hlow, hregister, show (0 : Half).toNat = 0 from rfl]
  omega

/-- What a write to it leaves alone. -/
theorem touchesOnly_modify_iff
    (field : Half) (f : Half → Half) :
    TouchesOnly field pin chip.file (chip.modify (16 + pin) f).file ↔
      AgreeOutside (if pin = 0 then field else 0) (f (chip.file (16 + pin)))
        (chip.file (16 + pin)) := by
  unfold TouchesOnly
  constructor
  · intro h
    have hregister := h (16 + pin)
    rwa [Bank.modify_file_self, ite_cond_congr (propext (register_eq_iff pin))] at hregister
  · intro h r
    by_cases hr : r = 16 + pin
    · rw [hr, Bank.modify_file_self, ite_cond_congr (propext (register_eq_iff pin))]
      exact h
    · rw [Bank.modify_file_of_ne hr]
      rfl

theorem forall_argumentSetters_iff
    {P : Setter → Prop} :
    (∀ setter, setter ∈ argumentSetters vector mode trigger_mode → P setter) ↔
      P (.vector vector) ∧ P (.delivery mode) ∧ P (.trigger trigger_mode) ∧ P .mask ∧
        P .unmask := by
  simp [argumentSetters]

/-- The setters leave the rest alone exactly when they leave their register as it is, or
it is the right one and they keep to their fields. -/
theorem kept_iff
    (hpin : pin < info.linesnum)
    (hmode : mode ≤ 7) :
    (∀ setter, setter ∈ argumentSetters vector mode trigger_mode →
        TouchesOnly setter.field pin chip.file (setter.run info pin chip).2.file) ↔
      chip.file (16 + pin) ||| mode = chip.file (16 + pin) ∧
        (pin ≠ 0 → (chip.file (16 + pin)).setWidth 8 = vector ∧
          chip.file (16 + pin) &&& 0x700 = 0) := by
  have hrun : (∀ setter, setter ∈ argumentSetters vector mode trigger_mode →
        TouchesOnly setter.field pin chip.file (setter.run info pin chip).2.file) ↔
      ∀ setter, setter ∈ argumentSetters vector mode trigger_mode →
        AgreeOutside (if pin = 0 then setter.field else 0)
          (setter.edit (chip.file (16 + pin))) (chip.file (16 + pin)) := by
    refine forall_congr' fun setter => forall_congr' fun h => ?_
    rw [Setter.run_file hpin hmode h, touchesOnly_modify_iff]
  have hid : ∀ field : Half, AgreeOutside field (chip.file (16 + pin)) (chip.file (16 + pin)) :=
    fun _ => rfl
  rw [hrun, forall_argumentSetters_iff]
  simp only [Setter.edit, id, hid, and_true]
  by_cases hzero : pin = 0
  · rw [if_pos hzero, if_pos hzero]
    simp only [Setter.field, assignByte_agree, insertMode_agree_iff hmode, true_and]
    exact ⟨fun h => ⟨h, fun hne => absurd hzero hne⟩, fun h => h.1⟩
  · rw [if_neg hzero, if_neg hzero, imp_iff_right hzero]
    rw [show (0 : Half) = 0#32 from rfl, agreeOutside_zero_iff, agreeOutside_zero_iff,
      assignByte_eq_iff, insertMode_eq_iff hmode]
    constructor
    · rintro ⟨hvector, hfield, hlow⟩
      exact ⟨hlow, hvector, hfield⟩
    · rintro ⟨hlow, hvector, hfield⟩
      exact ⟨hvector, hfield, hlow⟩

/-- Two setters, one after the other. -/
theorem Setter.run_run_file
    (hpin : pin < info.linesnum)
    (hother : other < info.linesnum)
    (hmode : mode ≤ 7)
    {a b : Setter}
    (ha : a ∈ argumentSetters vector mode trigger_mode)
    (hb : b ∈ argumentSetters vector mode trigger_mode) :
    (b.run info other (a.run info pin chip).2).2.file =
      ((chip.modify (16 + pin) a.edit).modify (16 + other) b.edit).file := by
  rw [Setter.run_file hother hmode hb]
  exact Bank.modify_file_congr (Setter.run_file hpin hmode ha chip) _ _

theorem edit_cases
    {setter : Setter}
    (h : setter ∈ argumentSetters vector mode trigger_mode) :
    setter = .vector vector ∨ setter = .delivery mode ∨ setter.edit = id := by
  revert setter
  rw [forall_argumentSetters_iff]
  exact ⟨Or.inl rfl, Or.inr (Or.inl rfl), Or.inr (Or.inr rfl), Or.inr (Or.inr rfl),
    Or.inr (Or.inr rfl)⟩

/-- Two setters with different fields commute on one pin. -/
theorem edit_comm
    (hmode : mode ≤ 7)
    (hcommutes : vector.setWidth 32 ||| mode = vector.setWidth 32)
    {a b : Setter}
    (ha : a ∈ argumentSetters vector mode trigger_mode)
    (hb : b ∈ argumentSetters vector mode trigger_mode)
    (hfield : a.field ≠ b.field)
    (x : Half) :
    b.edit (a.edit x) = a.edit (b.edit x) := by
  obtain rfl | rfl | hid := edit_cases ha
  · obtain rfl | rfl | hid := edit_cases hb
    · exact absurd rfl hfield
    · exact (insertMode_assignByte_iff hmode).mpr hcommutes
    · rw [hid, id, id]
  · obtain rfl | rfl | hid := edit_cases hb
    · exact ((insertMode_assignByte_iff hmode).mpr hcommutes).symm
    · exact absurd rfl hfield
    · rw [hid, id, id]
  · rw [hid, id, id]

theorem commutes_iff
    (hpin : pin < info.linesnum)
    (hmode : mode ≤ 7) :
    (other < info.linesnum → ∀ a b, a ∈ argumentSetters vector mode trigger_mode →
        b ∈ argumentSetters vector mode trigger_mode → pin ≠ other ∨ a.field ≠ b.field →
        (b.run info other (a.run info pin chip).2).2.file =
          (a.run info pin (b.run info other chip).2).2.file) ↔
      (pin = other → vector.setWidth 32 ||| mode = vector.setWidth 32) := by
  constructor
  · rintro h rfl
    have hvector : Setter.vector vector ∈ argumentSetters vector mode trigger_mode := by
      simp [argumentSetters]
    have hdelivery : Setter.delivery mode ∈ argumentSetters vector mode trigger_mode := by
      simp [argumentSetters]
    have hfields : (0xFF : Half) ≠ 0x700 := by decide
    have hswap := h hpin _ _ hvector hdelivery (Or.inr hfields)
    rw [Setter.run_run_file hpin hpin hmode hvector hdelivery,
      Setter.run_run_file hpin hpin hmode hdelivery hvector, Bank.modify_comm_iff] at hswap
    exact (insertMode_assignByte_iff hmode).mp hswap
  · intro h hother a b ha hb happart
    rw [Setter.run_run_file hpin hother hmode ha hb, Setter.run_run_file hother hpin hmode hb ha]
    by_cases hsame : pin = other
    · subst hsame
      rw [Bank.modify_comm_iff]
      exact edit_comm hmode (h rfl) ha hb (happart.resolve_left fun hne => hne rfl) _
    · exact Bank.modify_comm_of_ne (fun heq => hsame ((BitVec.add_right_inj 16).mp heq)) _ _ _

/-- What the getters return behind their setters. -/
theorem vector_read_iff
    (hpin : pin < info.linesnum) :
    (getVector info pin (assignVector pin chip vector).2).1 = vector.setWidth 32 ↔
      vector.toNat < 128 := by
  have hread : (getVector info pin (assignVector pin chip vector).2).1 =
      (((chip.modify (16 + pin) fun x => assignByte x vector).file (16 + pin)).setWidth
        8).signExtend 32 := by
    unfold getVector
    rw [if_neg (not_not_intro hpin)]
    rfl
  rw [hread, Bank.modify_file_self, assignByte_setWidth, signExtend_eq_iff]

theorem delivery_read_iff
    (hpin : pin < info.linesnum)
    (hmode : mode ≤ 7) :
    (getDeliveryMode info pin (setDeliveryMode info pin chip mode).2).1 = mode ↔
      (chip.file (16 + pin) <<< 16) >>> 29 = mode := by
  unfold getDeliveryMode
  rw [if_neg (not_not_intro hpin)]
  dsimp only
  rw [Bank.choose_window, setDeliveryMode_file hpin hmode, Bank.modify_file_self,
    insertMode_read hmode]

theorem trigger_read_iff
    (hpin : pin < info.linesnum) :
    (getTriggerMode info pin (setTriggerMode info pin chip trigger_mode).2).1 = trigger_mode ↔
      (chip.file (16 + pin) <<< 15) >>> 31 = trigger_mode := by
  unfold getTriggerMode
  rw [if_neg (not_not_intro hpin)]
  dsimp only
  rw [Bank.choose_window, setTriggerMode_file]

/-- `assign_vector` refuses no pin. -/
theorem not_refuses (info : IOapic) (chip : IoapicRegisters) (pin : Half) (vector : Byte) :
    ¬ ((Setter.vector vector).run info pin chip).1 ≠ 0 :=
  not_not_intro rfl

end Calls

section Laws

variable {info : IOapic} {chip : IoapicRegisters} {pin other : Half} {vector : Byte}
  {mode trigger_mode : Half}

/-- **When the setters and getters of a pin do what they should.** -/
theorem setters_right_iff
    (hmode : mode ≤ 7) :
    SettersRight info chip pin other vector mode trigger_mode ↔
      SettersSafe info chip pin other vector mode trigger_mode := by
  have hvector : Setter.vector vector ∈ argumentSetters vector mode trigger_mode := by
    simp [argumentSetters]
  constructor
  · intro h
    have hpin : pin < info.linesnum := by
      by_contra hout
      exact not_refuses info chip pin vector (h.refuses hout _ hvector).1
    obtain ⟨hlow, hrest⟩ := (kept_iff hpin hmode).mp (h.kept hpin)
    refine ⟨hpin, (vector_read_iff hpin).mp (h.vector_read hpin),
      (delivery_read_iff hpin hmode).mp (h.delivery_read hpin),
      (trigger_read_iff hpin).mp (h.trigger_read hpin), ?_, hlow, hrest,
      (commutes_iff hpin hmode).mp (h.commutes hpin)⟩
    have hmasked := h.masks hpin
    rwa [maskPin_file] at hmasked
  · intro h
    refine ⟨fun hpin => (vector_read_iff hpin).mpr h.vector_read,
      fun hpin => (delivery_read_iff hpin hmode).mpr h.delivery_read,
      fun hpin => (trigger_read_iff hpin).mpr h.trigger_read, fun _ => ?_, fun _ _ => ?_,
      fun hpin => (kept_iff hpin hmode).mpr ⟨h.low, h.rest⟩,
      fun hpin => (commutes_iff hpin hmode).mpr h.commutes, fun hout => absurd h.inside hout⟩
    · rw [maskPin_file]
      exact h.masks
    · rw [unmaskPin_file, maskPin_file]

/-- Pin 0, masked and level-triggered already by what `get_trigger_mode` reads. -/
theorem setters_right_iff_zero :
    SettersRight ⟨0, 24, 0⟩ ⟨0, fun _ => 0x10000⟩ 0 1 64 0 1 ↔
      SettersSafe ⟨0, 24, 0⟩ ⟨0, fun _ => 0x10000⟩ 0 1 64 0 1 :=
  setters_right_iff (by decide)

/-- The vector of pin 1 goes to the destination of pin 0. -/
theorem setters_not_right_one :
    (assignVector 1 ⟨0, fun _ => 0⟩ 64).2.file 17 = 64 ∧
      ¬ SettersRight ⟨0, 24, 0⟩ ⟨0, fun _ => 0⟩ 1 0 64 0 0 := by
  refine ⟨by decide, fun h => ?_⟩
  have hmasked := h.masks (by decide)
  rw [maskPin_file] at hmasked
  exact absurd (show (0 : Half).getLsbD 16 = true from hmasked) (by decide)

end Laws

end Devices
end BestKernel
