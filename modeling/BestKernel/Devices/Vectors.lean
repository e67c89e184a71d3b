import BestKernel.Kontrol.Hash
import Mathlib.Tactic.SplitIfs
import Mathlib.Tactic.Common

/-!
# Interrupt vectors of devices

`assign_vectors` gives the slots of the device directory vectors from 64 on, a fixed step
apart.  The step is the quotient of the 192 vectors by the length of the directory;
`device_interrupt_handler_template` divides by the count of its devices instead to get
back to the slot.  `vectors_exact_iff` says for which directories the two agree.

Readings of the source.  `global_base` is the base of an I/O APIC under its two names, and
`&iogod->pool[i]` an I/O APIC itself.  What lies at address 0 is a parameter, for want of
an I/O APIC.  The vector of a handler is a number of 32 bits.
-/

namespace BestKernel
namespace Devices

open Machine
open Kontrol

/-- `class IOapic`. -/
structure IOapic where
  pointer : Word
  linesnum : Half
  global_base : Half

/-- `class Device`, as far as its interrupts go. -/
structure Device where
  irline : Byte
  virt_irhandler : Word
  thread : Nat

/-- `/dev`. -/
structure DeviceDirectory where
  children : Hash
  entries : Nat → Device

/-- What is done for a slot: its pin is masked, or it is unmasked and its line gets a
vector, with an entry of the interrupt descriptor table for the handler. -/
inductive PinCommand where
  | mask (io : IOapic) (rel_pin : Half)
  | route (io : IOapic) (rel_pin rel_line : Half) (vector : Byte) (entry handler : Word)

section Assignment

variable (iogod : Nat → IOapic) (dev : DeviceDirectory) (idt : Word)

/-- The search for an I/O APIC from `i` on, and where it ends. -/
def findIOapic (io : IOapic) (i : Nat) : IOapic × Nat :=
  match (List.range' i (256 - i)).find? fun j => (iogod j).global_base = 0 with
  | some j => (iogod j, j)
  | none => (io, 256)

/-- The I/O APIC of the next slot: another one when `range` is the number of its lines,
and `range` stays 0. -/
def nextIOapic (io : IOapic) (i : Nat) : IOapic × Nat :=
  if (0 : Half) = io.linesnum then findIOapic iogod io i else (io, i)

/-- `(256-64)/dev->children->length`. -/
def vectorStep : Half := (256 - 64) / dev.children.length

/-- What is done for slot `p`. -/
def pinCommand (io : IOapic) (i p : Nat) (vector : Half) : PinCommand :=
  let rel_pin := BitVec.ofNat 32 i - io.global_base
  if dev.children.ckarray p = 0 then .mask io rel_pin
  else
    let device := dev.entries p
    .route io rel_pin (device.irline.setWidth 32 - io.global_base) (vector.setWidth 8)
      (idt + vector.setWidth 64 * 16) device.virt_irhandler

/-- The loop of `assign_vectors`, with `left` slots from `p` on. -/
def assignLoop : Nat → Nat → IOapic → Nat → Half → List (Nat × PinCommand)
  | 0, _, _, _, _ => []
  | left + 1, p, io, i, vector =>
      let found := nextIOapic iogod io i
      (p, pinCommand dev idt found.1 found.2 p vector) ::
        assignLoop left (p + 1) found.1 found.2 (vector + vectorStep dev)

/-- `assign_vectors`: what is done for which slot. -/
def assignVectors (null : IOapic) : List (Nat × PinCommand) :=
  let found := findIOapic iogod null 0
  assignLoop iogod dev idt dev.children.length.toNat 0 found.1 found.2 64

end Assignment

/-- The slot whose thread `device_interrupt_handler_template` runs; `none` when it divides
by 0. -/
def handlerSlot (dev : DeviceDirectory) (vector : Half) : Option Nat :=
  if dev.children.count = 0 then none
  else some ((vector - 64) / dev.children.count).toNat

/-- There is a device in the slot. -/
def Occupied (dev : DeviceDirectory) (p : Nat) : Prop :=
  p < dev.children.length.toNat ∧ dev.children.ckarray p ≠ 0

/-- Slot `p` is given the vector and its entry. -/
def Assigned (idt : Word) (commands : List (Nat × PinCommand)) (p : Nat) (vector : Byte) : Prop :=
  ∃ io rel_pin rel_line handler,
    (p, .route io rel_pin rel_line vector (idt + vector.setWidth 64 * 16) handler) ∈ commands

/-- What the vectors of a directory should do. -/
structure VectorsExact (dev : DeviceDirectory) (idt : Word) (commands : List (Nat × PinCommand)) :
    Prop where
  assigned : ∀ p, Occupied dev p → ∃ vector, Assigned idt commands p vector
  range : ∀ p vector, Occupied dev p → Assigned idt commands p vector → 64 ≤ vector.toNat
  distinct : ∀ p q vector, Occupied dev p → Occupied dev q → Assigned idt commands p vector →
    Assigned idt commands q vector → p = q
  divides : ∀ p, Occupied dev p → dev.children.length ≠ 0 ∧ dev.children.count ≠ 0
  selects : dev.children.length.toNat ≤ 192 → ∀ p vector, Occupied dev p →
    Assigned idt commands p vector → handlerSlot dev (vector.setWidth 32) = some p

/-- What a directory must be like: where there are devices they are counted; in one of no
more than 192 slots every device but that of slot 0 lies so low that the count makes up
for the step; a larger one has a single device. -/
structure VectorsFit (dev : DeviceDirectory) : Prop where
  counted : ∀ p, Occupied dev p → dev.children.count ≠ 0
  small : dev.children.length.toNat ≤ 192 → ∀ p, Occupied dev p → p ≠ 0 →
    dev.children.count.toNat ≤ 192 / dev.children.length.toNat ∧
      p * (192 / dev.children.length.toNat - dev.children.count.toNat) < dev.children.count.toNat
  large : 192 < dev.children.length.toNat → ∀ p q, Occupied dev p → Occupied dev q → p = q

section Loop

variable {iogod : Nat → IOapic} {dev : DeviceDirectory} {idt : Word}

/-- What the loop does for a slot, with the vector that it has come up to. -/
theorem assignLoop_spec
    {left p : Nat} {io : IOapic} {i : Nat} {vector : Half} {q : Nat} {command : PinCommand}
    (h : (q, command) ∈ assignLoop iogod dev idt left p io i vector) :
    p ≤ q ∧ q < p + left ∧ ∃ io i, command =
      pinCommand dev idt io i q (vector + BitVec.ofNat 32 (q - p) * vectorStep dev) := by
  induction left generalizing p io i vector with
  | zero => simp [assignLoop] at h
  | succ left ih =>
      rw [assignLoop] at h
      rcases List.mem_cons.mp h with heq | hrest
      · obtain ⟨rfl, rfl⟩ := Prod.mk.inj heq
        refine ⟨Nat.le_refl _, by omega, (nextIOapic iogod io i).1, (nextIOapic iogod io i).2, ?_⟩
        rw [Nat.sub_self, BitVec.zero_mul, BitVec.add_zero]
      · obtain ⟨hle, hlt, io', i', hcommand⟩ := ih hrest
        refine ⟨by omega, by omega, io', i', ?_⟩
        have hstep : q - p = 1 + (q - (p + 1)) := by omega
        rw [hcommand, hstep, BitVec.ofNat_add, BitVec.add_mul, BitVec.add_assoc,
          BitVec.one_mul]

/-- Every slot of the loop gets a command. -/
theorem assignLoop_total
    {left p : Nat} (io : IOapic) (i : Nat) (vector : Half) {q : Nat}
    (hle : p ≤ q)
    (hlt : q < p + left) :
    ∃ command, (q, command) ∈ assignLoop iogod dev idt left p io i vector := by
  induction left generalizing p io i vector with
  | zero => omega
  | succ left ih =>
      rw [assignLoop]
      by_cases hq : q = p
      · subst hq
        exact ⟨_, List.mem_cons_self ..⟩
      · obtain ⟨command, hmem⟩ := ih _ _ _ (show p + 1 ≤ q by omega) (by omega)
        exact ⟨command, List.mem_cons_of_mem _ hmem⟩

end Loop

section Slots

variable {iogod : Nat → IOapic} {dev : DeviceDirectory} {idt : Word} {null : IOapic} {p : Nat}

/-- The vector of a slot, as a number. -/
def slotVector (dev : DeviceDirectory) (p : Nat) : Nat :=
  64 + p * (192 / dev.children.length.toNat)

theorem slotVector_lt
    (hp : p < dev.children.length.toNat) :
    slotVector dev p < 256 := by
  have hmul : p * (192 / dev.children.length.toNat) < 192 := by
    rcases Nat.eq_zero_or_pos (192 / dev.children.length.toNat) with hzero | hpos
    · rw [hzero, Nat.mul_zero]
      decide
    · exact Nat.lt_of_lt_of_le (Nat.mul_lt_mul_of_pos_right hp hpos) (Nat.mul_div_le _ _)
  rw [slotVector]
  omega

/-- The vector that the loop has come up to is that of the slot. -/
theorem loop_vector
    (dev : DeviceDirectory) (p : Nat) :
    (64 + BitVec.ofNat 32 p * vectorStep dev : Half) = BitVec.ofNat 32 (slotVector dev p) := by
  have hstep : vectorStep dev = BitVec.ofNat 32 (192 / dev.children.length.toNat) := by
    apply BitVec.eq_of_toNat_eq
    have hlt : 192 / dev.children.length.toNat < 2 ^ 32 :=
      Nat.lt_of_le_of_lt (Nat.div_le_self _ _) (by decide)
    rw [vectorStep, BitVec.toNat_udiv, BitVec.toNat_ofNat, Nat.mod_eq_of_lt hlt]
    rfl
  rw [hstep, ← BitVec.ofNat_mul, slotVector, BitVec.ofNat_add]
  rfl

/-- **The vector of a slot with a device**, and no other slot has one. -/
theorem assigned_iff
    (hp : Occupied dev p)
    (vector : Byte) :
    Assigned idt (assignVectors iogod dev idt null) p vector ↔
      vector.toNat = slotVector dev p := by
  have hlt := slotVector_lt hp.1
  constructor
  · rintro ⟨io, rel_pin, rel_line, handler, hmem⟩
    obtain ⟨-, -, io', i', hcommand⟩ := assignLoop_spec hmem
    rw [pinCommand, if_neg hp.2, Nat.sub_zero, loop_vector dev p] at hcommand
    have hvector := (PinCommand.route.inj hcommand).2.2.2.1
    rw [hvector, BitVec.toNat_setWidth, BitVec.toNat_ofNat]
    omega
  · intro hvector
    have hlive : p < 0 + dev.children.length.toNat := by
      rw [Nat.zero_add]
      exact hp.1
    obtain ⟨command, hmem⟩ : ∃ command, (p, command) ∈
        assignLoop iogod dev idt dev.children.length.toNat 0 (findIOapic iogod null 0).1
          (findIOapic iogod null 0).2 64 :=
      assignLoop_total _ _ _ (Nat.zero_le p) hlive
    obtain ⟨-, -, io', i', hcommand⟩ := assignLoop_spec hmem
    rw [pinCommand, if_neg hp.2, Nat.sub_zero, loop_vector dev p] at hcommand
    have hbyte : (BitVec.ofNat 32 (slotVector dev p)).setWidth 8 = vector := by
      apply BitVec.eq_of_toNat_eq
      rw [BitVec.toNat_setWidth, BitVec.toNat_ofNat, hvector]
      omega
    have hwide : (BitVec.ofNat 32 (slotVector dev p)).setWidth 64 = vector.setWidth 64 := by
      apply BitVec.eq_of_toNat_eq
      rw [BitVec.toNat_setWidth, BitVec.toNat_ofNat, BitVec.toNat_setWidth, hvector]
      omega
    rw [hbyte, hwide] at hcommand
    exact ⟨_, _, _, _, hcommand ▸ hmem⟩

/-- Multiplying by `k` and dividing by `c` gives a number back when they differ by too
little to matter. -/
theorem mul_div_eq_self_iff
    {p k c : Nat}
    (hc : 0 < c) :
    p * k / c = p ↔ (p ≠ 0 → c ≤ k ∧ p * (k - c) < c) := by
  rcases Nat.eq_zero_or_pos p with rfl | hp
  · simp
  · have hne : p ≠ 0 := Nat.pos_iff_ne_zero.mp hp
    rw [Nat.div_eq_iff hc, imp_iff_right hne]
    constructor
    · rintro ⟨hle, hlt⟩
      have hck : c ≤ k := Nat.le_of_mul_le_mul_left hle hp
      refine ⟨hck, ?_⟩
      rw [Nat.mul_sub]
      omega
    · rintro ⟨hck, hlt⟩
      have hle : p * c ≤ p * k := Nat.mul_le_mul_left p hck
      rw [Nat.mul_sub] at hlt
      omega

/-- The handler on the vector of a slot. -/
theorem handlerSlot_iff
    {vector : Byte}
    (hvector : vector.toNat = slotVector dev p) :
    handlerSlot dev (vector.setWidth 32) = some p ↔
      dev.children.count ≠ 0 ∧
        (p ≠ 0 → dev.children.count.toNat ≤ 192 / dev.children.length.toNat ∧
          p * (192 / dev.children.length.toNat - dev.children.count.toNat) <
            dev.children.count.toNat) := by
  unfold handlerSlot
  split_ifs with hcount
  · simp [hcount]
  · have hpos : 0 < dev.children.count.toNat := by
      refine Nat.pos_of_ne_zero fun hzero => hcount (BitVec.eq_of_toNat_eq ?_)
      rw [hzero]
      rfl
    have hslot : (((vector.setWidth 32 : Half) - 64) / dev.children.count).toNat =
        p * (192 / dev.children.length.toNat) / dev.children.count.toNat := by
      have hbyte := vector.isLt
      have hsub : ((vector.setWidth 32 : Half) - 64).toNat =
          p * (192 / dev.children.length.toNat) := by
        have hlow : (64 : Half).toNat = 64 := rfl
        rw [BitVec.toNat_sub, BitVec.toNat_setWidth, hlow]
        rw [slotVector] at hvector
        omega
      rw [BitVec.toNat_udiv, hsub]
    rw [hslot, Option.some_inj, mul_div_eq_self_iff hpos, and_iff_right hcount]

end Slots

/-- **The vectors of a directory are exact exactly when it fits**: the count of its devices
comes close enough to the quotient of 192 by its length. -/
theorem vectors_exact_iff
    (iogod : Nat → IOapic) (dev : DeviceDirectory) (idt : Word) (null : IOapic) :
    VectorsExact dev idt (assignVectors iogod dev idt null) ↔ VectorsFit dev := by
  have hassigned : ∀ p, Occupied dev p → ∃ vector,
      Assigned idt (assignVectors iogod dev idt null) p vector := by
    intro p hp
    refine ⟨BitVec.ofNat 8 (slotVector dev p), (assigned_iff hp _).mpr ?_⟩
    rw [BitVec.toNat_ofNat, Nat.mod_eq_of_lt (slotVector_lt hp.1)]
  constructor
  · intro hexact
    refine ⟨fun p hp => (hexact.divides p hp).2, fun hsmall p hp => ?_, fun hlarge p q hp hq => ?_⟩
    · obtain ⟨vector, hvector⟩ := hassigned p hp
      exact ((handlerSlot_iff ((assigned_iff hp vector).mp hvector)).mp
        (hexact.selects hsmall p vector hp hvector)).2
    · -- the step is 0, so all slots share one vector
      have hzero : 192 / dev.children.length.toNat = 0 := Nat.div_eq_of_lt hlarge
      have hsame : slotVector dev p = slotVector dev q := by
        rw [slotVector, slotVector, hzero]
        simp
      obtain ⟨vector, hvector⟩ := hassigned p hp
      have hvector' := (assigned_iff hp vector).mp hvector
      exact hexact.distinct p q vector hp hq hvector
        ((assigned_iff hq vector).mpr (hvector'.trans hsame))
  · intro hfit
    refine ⟨hassigned, fun p vector hp hvector => ?_, fun p q vector hp hq hpv hqv => ?_,
      fun p hp => ⟨?_, hfit.counted p hp⟩, fun hsmall p vector hp hvector => ?_⟩
    · rw [(assigned_iff hp vector).mp hvector, slotVector]
      omega
    · have hsame : slotVector dev p = slotVector dev q :=
        ((assigned_iff hp vector).mp hpv).symm.trans ((assigned_iff hq vector).mp hqv)
      by_cases hlarge : 192 < dev.children.length.toNat
      · exact hfit.large hlarge p q hp hq
      · have hpos : 0 < 192 / dev.children.length.toNat :=
          Nat.div_pos (Nat.le_of_not_lt hlarge) (Nat.lt_of_le_of_lt (Nat.zero_le p) hp.1)
        exact Nat.eq_of_mul_eq_mul_right hpos (Nat.add_left_cancel hsame)
    · intro hzero
      have hlt := hp.1
      rw [hzero] at hlt
      exact Nat.not_lt_zero p hlt
    · exact (handlerSlot_iff ((assigned_iff hp vector).mp hvector)).mpr
        ⟨hfit.counted p hp, hfit.small hsmall p hp⟩

/-- Two slots, both with a device. -/
def twoDevices : DeviceDirectory where
  children := ⟨.POINTER, 2, 2, fun _ => 255, 4096, 8⟩
  entries := fun p => ⟨0, 0, p⟩

/-- The handler of the second device runs the thread of slot 48. -/
theorem twoDevices_not_exact :
    ¬ VectorsExact twoDevices 0 (assignVectors (fun _ => ⟨0, 24, 0⟩) twoDevices 0 ⟨0, 0, 0⟩) := by
  intro hexact
  have hassigned : Assigned 0 (assignVectors (fun _ => ⟨0, 24, 0⟩) twoDevices 0 ⟨0, 0, 0⟩) 1 160 :=
    (assigned_iff ⟨by decide, by decide⟩ 160).mpr (by decide)
  have hselects := hexact.selects (by decide) 1 160 ⟨by decide, by decide⟩ hassigned
  exact absurd hselects (by decide)

end Devices
end BestKernel
