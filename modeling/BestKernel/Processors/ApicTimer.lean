import BestKernel.Library.Overlay
import BestKernel.Library.Runs
import BestKernel.Library.Words
import BestKernel.Processors.BringUp

/-!
# The timer of the local APIC

A time slice ends when the timer of the local APIC interrupts.  The processor counts down
from what is written at 0x380, and at the end it delivers the vector in the register at
0x320, unless bit 16 of that register masks it, as it does after a reset.

`schedule_timed_interrupt` writes the count and the register, and leaves it to
`unmask_timer` to clear the bit.  But `init_timer`, `mask_timer` and `unmask_timer` go to
the index `320/4`, which is 0x140 in bytes: the register that they change is one of those
in service.  The only write to the timer's own register sets bit 19 (`timer_register_kept`).
So a timer that is masked never interrupts, whatever is called and in whatever order
(`timer_never_interrupts`).

Readings of the source.  `320/` is `320/4`, as it is where the register is read.  The
`brother_id` of `remote_read` is its `remote_id`.  The vector `OS_INTERRUPTS::TIMER` is a
parameter.  A tick is one of the divided clock.
-/

namespace BestKernel
namespace Processors

open Machine
open Runs

def getAllipiMask : Half := 1 <<< 14 ||| 1 <<< 15 ||| 2 <<< 18

/-- The registers, the count that the processor has come down to, and the vectors that the
timer has delivered. -/
structure LocalApic where
  page : Overlay.Page
  count : Half
  delivered : List Byte

namespace LocalApic

/-- `lapic[offset/4]` -/
def register (s : LocalApic) (offset : Nat) : Half := Overlay.load s.page offset

/-- `lapic[offset/4] = x`.  The count starts when the initial one is written. -/
def setRegister (s : LocalApic) (offset : Nat) (x : Half) : LocalApic :=
  { s with
    page := Overlay.store s.page offset x
    count := if offset = 0x380 then x else s.count }

/-- A write through a pointer to something smaller. -/
def setBytes (s : LocalApic) (offset : Nat) (bytes : List Byte) : LocalApic :=
  { s with page := Overlay.write s.page offset bytes }

def signalEOI (s : LocalApic) : LocalApic := s.setRegister 0xB0 1

def setSpurious (s : LocalApic) (newvec : Byte) : LocalApic :=
  s.setRegister 0xF0 (newvec.setWidth 32)

/-- `remote_read`: the register of the other processor is named in byte `0x300/8`. -/
def remoteRead (s : LocalApic) (remote_id regnum : Half) : Half × LocalApic :=
  let s := s.setRegister 0x310 (remote_id <<< 24)
  let s := s.setBytes (0x300 / 8) [regnum.setWidth 8]
  (s.register 0xC0, s)

/-- `init_timer`, with the vector of the timer. -/
def initTimer (timer : Byte) (s : LocalApic) : LocalApic :=
  let f := s.register (4 * (320 / 4))
  let f := f &&& (0xFFFFFFFF ^^^ (1 <<< 17))
  let f := (f &&& 0xFFFFFF00) ||| timer.setWidth 32
  s.setRegister (4 * (320 / 4)) f

def maskTimer (s : LocalApic) : LocalApic :=
  let f := s.register (4 * (320 / 4))
  s.setRegister (4 * (320 / 4)) (f ||| 1 <<< 16)

def unmaskTimer (s : LocalApic) : LocalApic :=
  let f := s.register (4 * (320 / 4))
  s.setRegister (4 * (320 / 4)) (f &&& (0xFFFFFFFF ^^^ (1 <<< 16)))

def scheduleTimedInterrupt (s : LocalApic) (ticks divider : Half) : LocalApic :=
  let s := s.setRegister 0x380 ticks
  let pipe := s.register 0x320
  let (s, pipe) :=
    if divider ≠ 0 then (s.setRegister 0x3E0 divider, pipe ||| 2 <<< 18)
    else (s, pipe)
  (s.setRegister 0x320 pipe).unmaskTimer

/-- `set_ipi_lowreg` writes the high word and the second byte. -/
def setIpiLowreg (s : LocalApic) (mask : Half) : LocalApic :=
  let high := mask >>> 16
  let s := s.setBytes 0x302 [high.extractLsb' 0 8, high.extractLsb' 8 8]
  s.setBytes 0x301 [((mask <<< 16) >>> 24).setWidth 8]

/-- The writes of `poke_brother`. -/
def pokesBrother (s : LocalApic) (brother_id action : Half) : LocalApic :=
  (s.setRegister 0x310 (pokeBrother brother_id action).high).setRegister 0x300
    (pokeBrother brother_id action).low

/-- The write of `brothers_poke`. -/
def pokesBrothers (s : LocalApic) (action : Half) : LocalApic :=
  s.setRegister 0x300 (brothersPoke action).low

def familyPoke (s : LocalApic) (interrupt : Half) : LocalApic :=
  s.setRegister 0x300 (getAllipiMask ||| interrupt)

/-- The register of the timer. -/
def lvtTimer (s : LocalApic) : Half := s.register 0x320

/-- What the processor does in a tick of the timer. -/
def tick (s : LocalApic) : LocalApic :=
  if s.count = 0 then s
  else if s.count = 1 then
    let lvt := s.lvtTimer
    let s := { s with count := if lvt.getLsbD 17 then s.register 0x380 else 0 }
    if lvt.getLsbD 16 then s else { s with delivered := lvt.setWidth 8 :: s.delivered }
  else { s with count := s.count - 1 }

end LocalApic

/-- The functions of the local APIC, and the ticks between them. -/
inductive ApicOp where
  | signal_EOI
  | set_spurious (newvec : Byte)
  | remote_read (remote_id regnum : Half)
  | init_timer
  | mask_timer
  | unmask_timer
  | schedule_timed_interrupt (ticks divider : Half)
  | set_ipi_lowreg (mask : Half)
  | poke_brother (brother_id action : Half)
  | brothers_poke (action : Half)
  | family_poke (interrupt : Half)
  | tick

namespace LocalApic

def perform (timer : Byte) (s : LocalApic) : ApicOp → LocalApic
  | .signal_EOI => s.signalEOI
  | .set_spurious newvec => s.setSpurious newvec
  | .remote_read remote_id regnum => (s.remoteRead remote_id regnum).2
  | .init_timer => s.initTimer timer
  | .mask_timer => s.maskTimer
  | .unmask_timer => s.unmaskTimer
  | .schedule_timed_interrupt ticks divider => s.scheduleTimedInterrupt ticks divider
  | .set_ipi_lowreg mask => s.setIpiLowreg mask
  | .poke_brother brother_id action => s.pokesBrother brother_id action
  | .brothers_poke action => s.pokesBrothers action
  | .family_poke interrupt => s.familyPoke interrupt
  | .tick => s.tick

end LocalApic

/-- The steps of a processor with its local APIC. -/
def ApicStep (timer : Byte) (s : LocalApic) (op : ApicOp) (s' : LocalApic) : Prop :=
  s' = s.perform timer op

section Registers

variable {s : LocalApic} {offset offset' : Nat}

theorem register_setRegister (s : LocalApic) (offset : Nat) (x : Half) :
    (s.setRegister offset x).register offset = x :=
  Overlay.load_store s.page offset x

theorem register_setRegister_of_apart
    (x : Half)
    (h : offset + 4 ≤ offset' ∨ offset' + 4 ≤ offset) :
    (s.setRegister offset' x).register offset = s.register offset :=
  Overlay.load_store_of_apart x h

theorem register_setBytes_of_apart
    {bytes : List Byte}
    (h : offset + 4 ≤ offset' ∨ offset' + bytes.length ≤ offset) :
    (s.setBytes offset' bytes).register offset = s.register offset :=
  Overlay.load_write_of_apart h

/-- What the three functions of the timer write to is not its register. -/
theorem lvtTimer_setRegister
    (x : Half)
    (h : offset + 4 ≤ 0x320 ∨ 0x320 + 4 ≤ offset) :
    (s.setRegister offset x).lvtTimer = s.lvtTimer :=
  register_setRegister_of_apart x (by omega)

theorem lvtTimer_setBytes
    {bytes : List Byte}
    (h : offset + bytes.length ≤ 0x320) :
    (s.setBytes offset bytes).lvtTimer = s.lvtTimer :=
  register_setBytes_of_apart (Or.inr h)

theorem unmaskTimer_lvtTimer (s : LocalApic) : s.unmaskTimer.lvtTimer = s.lvtTimer :=
  lvtTimer_setRegister _ (by decide)

/-- Scheduling sets bit 19 of the register, or nothing. -/
theorem scheduleTimedInterrupt_lvtTimer (s : LocalApic) (ticks divider : Half) :
    (s.scheduleTimedInterrupt ticks divider).lvtTimer =
      if divider ≠ 0 then s.lvtTimer ||| 0x80000 else s.lvtTimer := by
  have hcount : (s.setRegister 0x380 ticks).register 0x320 = s.lvtTimer :=
    lvtTimer_setRegister ticks (by decide)
  unfold LocalApic.scheduleTimedInterrupt
  dsimp only
  rw [unmaskTimer_lvtTimer, hcount]
  split_ifs
  · exact register_setRegister _ 0x320 _
  · exact register_setRegister _ 0x320 _

end Registers

section Timer

variable {timer : Byte} {s s' : LocalApic} {run : List (ApicOp × LocalApic)}

/-- The register of the timer is as it was, or has bit 19 set. -/
def TimerKept (lvt : Half) (s : LocalApic) : Prop :=
  s.lvtTimer = lvt ∨ s.lvtTimer = lvt ||| 0x80000

theorem timerKept_of_eq
    {lvt : Half}
    (h : TimerKept lvt s)
    (hsame : s'.lvtTimer = s.lvtTimer) :
    TimerKept lvt s' := by
  unfold TimerKept
  rw [hsame]
  exact h

theorem tick_page (s : LocalApic) : s.tick.page = s.page := by
  unfold LocalApic.tick
  dsimp only
  split_ifs <;> rfl

theorem timerKept_step
    {lvt : Half} {op : ApicOp}
    (h : TimerKept lvt s)
    (hstep : ApicStep timer s op s') :
    TimerKept lvt s' := by
  subst hstep
  cases op with
  | signal_EOI => exact timerKept_of_eq h (lvtTimer_setRegister _ (by decide))
  | set_spurious newvec => exact timerKept_of_eq h (lvtTimer_setRegister _ (by decide))
  | remote_read remote_id regnum =>
      refine timerKept_of_eq h ?_
      exact (lvtTimer_setBytes (by simp)).trans (lvtTimer_setRegister _ (by decide))
  | init_timer => exact timerKept_of_eq h (lvtTimer_setRegister _ (by decide))
  | mask_timer => exact timerKept_of_eq h (lvtTimer_setRegister _ (by decide))
  | unmask_timer => exact timerKept_of_eq h (unmaskTimer_lvtTimer s)
  | schedule_timed_interrupt ticks divider =>
      have hschedule : (s.perform timer (.schedule_timed_interrupt ticks divider)).lvtTimer =
          if divider ≠ 0 then s.lvtTimer ||| 0x80000 else s.lvtTimer :=
        scheduleTimedInterrupt_lvtTimer s ticks divider
      unfold TimerKept
      rw [hschedule]
      split_ifs
      · rcases h with hsame | hset
        · exact Or.inr (by rw [hsame])
        · exact Or.inr (by rw [hset, BitVec.or_assoc, BitVec.or_self])
      · exact h
  | set_ipi_lowreg mask =>
      refine timerKept_of_eq h ?_
      exact (lvtTimer_setBytes (by simp)).trans (lvtTimer_setBytes (by simp))
  | poke_brother brother_id action =>
      refine timerKept_of_eq h ?_
      exact (lvtTimer_setRegister _ (by decide)).trans (lvtTimer_setRegister _ (by decide))
  | brothers_poke action => exact timerKept_of_eq h (lvtTimer_setRegister _ (by decide))
  | family_poke interrupt => exact timerKept_of_eq h (lvtTimer_setRegister _ (by decide))
  | tick =>
      refine timerKept_of_eq h ?_
      exact congrArg (fun page => Overlay.load page 0x320) (tick_page s)

/-- **The register of the timer keeps its mode, its mask and its vector.** -/
theorem timer_register_kept
    (hrun : Run (ApicStep timer) s run) :
    Always (TimerKept s.lvtTimer) s run :=
  always_of_preserved (fun _ _ _ h hstep => timerKept_step h hstep) hrun (Or.inl rfl)

/-- The timer is masked by what it was, and by what scheduling makes of it. -/
theorem TimerKept.masked
    {lvt : Half}
    (h : TimerKept lvt s)
    (hmask : lvt.getLsbD 16 = true) :
    s.lvtTimer.getLsbD 16 = true := by
  rcases h with hsame | hset
  · rwa [hsame]
  · rw [hset, BitVec.getLsbD_or, hmask, Bool.true_or]

/-- A step of a masked timer delivers nothing. -/
theorem delivered_step
    {op : ApicOp}
    (hmask : s.lvtTimer.getLsbD 16 = true)
    (hstep : ApicStep timer s op s') :
    s'.delivered = s.delivered := by
  subst hstep
  cases op with
  | schedule_timed_interrupt ticks divider =>
      change (s.scheduleTimedInterrupt ticks divider).delivered = s.delivered
      unfold LocalApic.scheduleTimedInterrupt
      dsimp only
      split_ifs <;> rfl
  | tick =>
      change s.tick.delivered = s.delivered
      unfold LocalApic.tick
      dsimp only
      by_cases hzero : s.count = 0
      · rw [if_pos hzero]
      · rw [if_neg hzero]
        by_cases hone : s.count = 1
        · rw [if_pos hone, if_pos hmask]
        · rw [if_neg hone]
  | _ => rfl

/-- **A masked timer never interrupts**, whatever is scheduled, unmasked and initialised. -/
theorem timer_never_interrupts
    (hmask : s.lvtTimer.getLsbD 16 = true)
    (hrun : Run (ApicStep timer) s run) :
    Always (fun t => t.delivered = s.delivered) s run := by
  have hboth : Always
      (fun t => TimerKept s.lvtTimer t ∧ t.delivered = s.delivered) s run := by
    refine always_of_preserved ?_ hrun ⟨Or.inl rfl, rfl⟩
    rintro t op t' ⟨hkept, hdelivered⟩ hstep
    refine ⟨timerKept_step hkept hstep, ?_⟩
    rw [delivered_step (hkept.masked hmask) hstep, hdelivered]
  exact hboth.mono fun _ h => h.2

/-- The local APIC after a reset, with its timer masked. -/
def resetApic : LocalApic :=
  ⟨Overlay.store (fun _ => 0) 0x320 0x10000, 0, []⟩

/-- The timer is initialised, a slice of one tick is scheduled, and the tick comes. -/
theorem timer_never_interrupts_reset :
    (((resetApic.initTimer 64).scheduleTimedInterrupt 1 3).tick).delivered = [] := by
  have hrun : Run (ApicStep 64) resetApic
      [(.init_timer, resetApic.initTimer 64),
        (.schedule_timed_interrupt 1 3, (resetApic.initTimer 64).scheduleTimedInterrupt 1 3),
        (.tick, ((resetApic.initTimer 64).scheduleTimedInterrupt 1 3).tick)] :=
    .cons rfl (.cons rfl (.cons rfl (.nil _)))
  have hmask : resetApic.lvtTimer.getLsbD 16 = true := by decide
  exact (timer_never_interrupts hmask hrun).2
    (.tick, ((resetApic.initTimer 64).scheduleTimedInterrupt 1 3).tick) (by simp)

end Timer

end Processors
end BestKernel
