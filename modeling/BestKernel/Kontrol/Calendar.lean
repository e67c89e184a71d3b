import BestKernel.Library.Runs
import BestKernel.Library.Words
import Mathlib.Tactic.IntervalCases
import Mathlib.Tactic.Common

/-!
# The calendar

`mutex`, instruction by instruction, on any number of processors.  An exchange that
succeeds leaves `%dl` as it is, so the test of `%edx` behind it never finds a zero, and
the loop that wastes time loads its counter anew in every round.  So `mutex` never
returns (`mutex_never_returns`): no two processors are ever inside, and none ever is.

Readings of the source.  `MOVq %rax,%rcx` finds the address of the calendar in `%rax`.
The operands of `CMPXCHG` are taken to be in the order of the others, with the calendar
for its destination.  A processor may call `mutex` with anything in its registers, and the
calendar may be unlocked at any time.
-/

namespace BestKernel
namespace Kontrol

open Machine
open Runs

inductive Register where
  | rax
  | rcx
  | rdx
deriving DecidableEq, Repr

/-- The instructions that `mutex` is made of; jumps go to the number of an instruction. -/
inductive Instruction where
  | movq (source dest : Register)
  | movqImm (value : Word) (dest : Register)
  | xorl (source dest : Register)
  | lockCmpxchg (pointer source : Register)
  | testl (first second : Register)
  | decl (dest : Register)
  | jz (target : Nat)
  | jnz (target : Nat)
  | jmp (target : Nat)

/-- The registers, the zero flag, and the number of the next instruction. -/
structure Core where
  regs : Register → Word
  zf : Bool
  pc : Nat

/-- The low half of a register. -/
def Core.low (c : Core) (r : Register) : Half := (c.regs r).setWidth 32

/-- Write a register and go on. -/
def Core.write (c : Core) (r : Register) (value : Word) : Core :=
  { c with regs := Function.update c.regs r value, pc := c.pc + 1 }

/-- One instruction.  Writing the low half of a register clears the high one. -/
def Instruction.run (i : Instruction) (c : Core) (mem : ByteMemory) : Core × ByteMemory :=
  match i with
  | .movq source dest => (c.write dest (c.regs source), mem)
  | .movqImm value dest => (c.write dest value, mem)
  | .xorl source dest =>
      let result := c.low source ^^^ c.low dest
      ({ c.write dest (result.setWidth 64) with zf := result = 0 }, mem)
  | .lockCmpxchg pointer source =>
      let a := c.regs pointer
      if mem a = (c.regs .rax).setWidth 8 then
        ({ c with zf := true, pc := c.pc + 1 },
          Function.update mem a ((c.regs source).setWidth 8))
      else
        ({ c.write .rax (((c.regs .rax >>> 8) <<< 8) ||| (mem a).setWidth 64) with zf := false },
          mem)
  | .testl first second =>
      ({ c with zf := c.low first &&& c.low second = 0, pc := c.pc + 1 }, mem)
  | .decl dest =>
      let result := c.low dest - 1
      ({ c.write dest (result.setWidth 64) with zf := result = 0 }, mem)
  | .jz target => ({ c with pc := if c.zf then target else c.pc + 1 }, mem)
  | .jnz target => ({ c with pc := if c.zf then c.pc + 1 else target }, mem)
  | .jmp target => ({ c with pc := target }, mem)

/-- The instruction at the label `mutex_loop`. -/
abbrev mutexLoop : Nat := 2

/-- The instruction at the label `lelul`. -/
abbrev lelul : Nat := 6

/-- The label `mutex_broken`, behind the last instruction. -/
abbrev mutexBroken : Nat := 11

/-- `mutex`. -/
def mutexCode : List Instruction :=
  [.movq .rax .rcx,
    .movqImm 255 .rdx,
    .xorl .rax .rax,
    .lockCmpxchg .rcx .rdx,
    .testl .rdx .rdx,
    .jz mutexBroken,
    .movqImm 500 .rax,
    .decl .rax,
    .testl .rax .rax,
    .jnz lelul,
    .jmp mutexLoop]

/-- The memory, the processors that have called `mutex`, and the processor whose exchange
has taken the calendar since it was last unlocked. -/
structure CalendarState (Processor : Type) where
  mem : ByteMemory
  callers : Processor → Option Core
  owner : Option Processor

/-- A call of `mutex`, an instruction of a processor, an unlocking, and what comes after
`mutex` has returned. -/
inductive CalendarOp (Processor : Type) where
  | call (p : Processor) (regs : Register → Word) (zf : Bool)
  | instruction (p : Processor)
  | unlock
  | leave (p : Processor)

section Steps

variable {Processor : Type} [DecidableEq Processor] (calendar : Word)

/-- One instruction of a processor that has not come to the end. -/
def CalendarState.advance (s : CalendarState Processor) (p : Processor) :
    CalendarState Processor :=
  match s.callers p with
  | none => s
  | some c =>
      match mutexCode[c.pc]? with
      | none => s
      | some i =>
          let (c, mem) := i.run c s.mem
          { mem := mem
            callers := Function.update s.callers p (some c)
            owner := if s.mem calendar = 0 ∧ mem calendar = 255 then some p else s.owner }

def CalendarStep (s : CalendarState Processor) (op : CalendarOp Processor)
    (s' : CalendarState Processor) : Prop :=
  match op with
  | .call p regs zf =>
      s.callers p = none ∧
        s' = { s with
          callers := Function.update s.callers p
            (some ⟨Function.update regs .rax calendar, zf, 0⟩) }
  | .instruction p => s' = s.advance calendar p
  | .unlock => s' = { s with mem := Function.update s.mem calendar 0, owner := none }
  | .leave p =>
      (∃ c, s.callers p = some c ∧ c.pc = mutexBroken) ∧
        s' = { s with callers := Function.update s.callers p none }

/-- `mutex` has returned on the processor. -/
def Inside (s : CalendarState Processor) (p : Processor) : Prop :=
  ∃ c, s.callers p = some c ∧ c.pc = mutexBroken

/-- Only the processor whose exchange took the calendar is inside. -/
def CalendarSafe (s : CalendarState Processor) : Prop :=
  ∀ p, Inside s p → s.owner = some p

/-- `mutex` returns after finitely many instructions of the processor alone. -/
def ReturnsAlone (s : CalendarState Processor) (p : Processor) : Prop :=
  ∃ n, Inside ((fun s => CalendarState.advance calendar s p)^[n] s) p

end Steps

section Cores

/-- A processor in `mutex` that will not come to its end: `%rdx` keeps its 255, and the
test of it has cleared the zero flag before the jump to the end. -/
structure Trapped (c : Core) : Prop where
  pc : c.pc < mutexBroken
  value : 2 ≤ c.pc → c.regs .rdx = 255
  tested : c.pc = 5 → c.zf = false

theorem trapped_at
    {regs : Register → Word} {zf : Bool} (pc : Nat)
    (hpc : pc < mutexBroken ∧ pc ≠ 5)
    (hvalue : regs .rdx = 255) :
    Trapped ⟨regs, zf, pc⟩ :=
  ⟨hpc.1, fun _ => hvalue, fun h => absurd h hpc.2⟩

/-- **No instruction leads out of `mutex`.** -/
theorem Trapped.run
    {c : Core} {i : Instruction}
    (h : Trapped c)
    (hi : mutexCode[c.pc]? = some i)
    (mem : ByteMemory) :
    Trapped (i.run c mem).1 := by
  obtain ⟨regs, zf, pc⟩ := c
  obtain ⟨hpc, hvalue, htested⟩ := h
  dsimp only at hpc hvalue htested hi
  have hrax : ∀ value : Word, Function.update regs Register.rax value .rdx = regs .rdx :=
    fun value => Function.update_of_ne (by decide) _ _
  interval_cases pc
  case «0» =>
      cases hi
      exact ⟨show 1 < mutexBroken by decide, fun h => absurd h (show ¬ 2 ≤ 1 by decide),
        fun h => absurd h (show ¬ 1 = 5 by decide)⟩
  case «1» =>
      cases hi
      exact trapped_at 2 (by decide) (Function.update_self _ _ _)
  all_goals
    have hvalue := hvalue (by decide)
    cases hi
    dsimp only [Instruction.run, Core.write]
  case «2».refl =>
      exact trapped_at 3 (by decide) ((hrax _).trans hvalue)
  case «3».refl =>
      split_ifs
      · exact trapped_at 4 (by decide) hvalue
      · exact trapped_at 4 (by decide) ((hrax _).trans hvalue)
  case «4».refl =>
      -- the exchange has changed `%al` or the calendar, and the test is of `%edx`
      have hedx : Core.low ⟨regs, zf, 4⟩ .rdx = 255 :=
        congrArg (BitVec.setWidth 32) hvalue
      refine ⟨show 5 < mutexBroken by decide, fun _ => hvalue, fun _ => ?_⟩
      rw [hedx]
      rfl
  case «5».refl =>
      rw [htested rfl]
      exact trapped_at 6 (by decide) hvalue
  case «6».refl =>
      exact trapped_at 7 (by decide) ((hrax _).trans hvalue)
  case «7».refl =>
      exact trapped_at 8 (by decide) ((hrax _).trans hvalue)
  case «8».refl =>
      exact trapped_at 9 (by decide) hvalue
  case «9».refl =>
      cases zf with
      | true => exact trapped_at 10 (by decide) hvalue
      | false => exact trapped_at lelul (by decide) hvalue
  case «10».refl =>
      exact trapped_at mutexLoop (by decide) hvalue

end Cores

section Trapped

variable {Processor : Type} {s : CalendarState Processor}

/-- All processors in `mutex` are trapped there. -/
def AllTrapped (s : CalendarState Processor) : Prop :=
  ∀ p c, s.callers p = some c → Trapped c

/-- A processor that calls `mutex` begins with its first instruction. -/
def Entered (s : CalendarState Processor) : Prop :=
  ∀ p c, s.callers p = some c → c.pc = 0

theorem Entered.allTrapped
    (h : Entered s) :
    AllTrapped s := by
  intro p c hc
  have hpc := h p c hc
  exact ⟨by rw [hpc]; decide, fun hle => by omega, fun heq => by omega⟩

/-- A processor that is trapped is not inside, and will not be. -/
theorem AllTrapped.not_inside
    (h : AllTrapped s)
    (p : Processor) :
    ¬ Inside s p := by
  rintro ⟨c, hc, hpc⟩
  have hlt := (h p c hc).pc
  omega

end Trapped

section Runs

variable {Processor : Type} [DecidableEq Processor] {calendar : Word}
  {s s' : CalendarState Processor} {op : CalendarOp Processor}

/-- A write to one caller. -/
theorem AllTrapped.update
    (h : AllTrapped s)
    {p : Processor} {found : Option Core}
    (hfound : ∀ c, found = some c → Trapped c)
    {mem : ByteMemory} {owner : Option Processor} :
    AllTrapped ⟨mem, Function.update s.callers p found, owner⟩ := by
  intro q c hc
  by_cases hq : q = p
  · subst hq
    exact hfound c ((Function.update_self q found s.callers).symm.trans hc)
  · exact h q c ((Function.update_of_ne hq found s.callers).symm.trans hc)

theorem AllTrapped.advance
    (h : AllTrapped s)
    (p : Processor) :
    AllTrapped (s.advance calendar p) := by
  unfold CalendarState.advance
  cases hp : s.callers p with
  | none => exact h
  | some c =>
      cases hi : mutexCode[c.pc]? with
      | none => simpa [hi] using h
      | some i =>
          have hnext : Trapped (i.run c s.mem).1 := (h p c hp).run hi s.mem
          simp only [hi]
          refine h.update ?_
          rintro c' ⟨⟩
          exact hnext

theorem calendarStep_allTrapped
    (h : AllTrapped s)
    (hstep : CalendarStep calendar s op s') :
    AllTrapped s' := by
  cases op with
  | call p regs zf =>
      obtain ⟨-, rfl⟩ := hstep
      refine h.update ?_
      rintro c ⟨⟩
      exact ⟨show 0 < mutexBroken by decide, fun h => absurd h (show ¬ 2 ≤ 0 by decide),
        fun h => absurd h (show ¬ 0 = 5 by decide)⟩
  | instruction p =>
      obtain rfl := hstep
      exact h.advance p
  | unlock =>
      obtain rfl := hstep
      exact h
  | leave p =>
      obtain ⟨-, rfl⟩ := hstep
      refine h.update ?_
      rintro c ⟨⟩

theorem AllTrapped.not_returnsAlone
    (h : AllTrapped s)
    (p : Processor) :
    ¬ ReturnsAlone calendar s p := by
  rintro ⟨n, hinside⟩
  have hall : ∀ n, AllTrapped ((fun s => CalendarState.advance calendar s p)^[n] s) := by
    intro n
    induction n with
    | zero => exact h
    | succ n ih =>
        rw [Function.iterate_succ_apply']
        exact ih.advance p
  exact (hall n).not_inside p hinside

/-- **`mutex` never returns**: no processor is ever inside, and none gets there by any
number of instructions of its own, whatever the calendar. -/
theorem mutex_never_returns
    {run : List (CalendarOp Processor × CalendarState Processor)}
    (hrun : Run (CalendarStep calendar) s run)
    (hentered : Entered s) :
    Always (fun t => CalendarSafe t ∧ ∀ p, ¬ Inside t p ∧ ¬ ReturnsAlone calendar t p) s run := by
  have htrapped : Always AllTrapped s run :=
    always_of_preserved (fun _ _ _ h hstep => calendarStep_allTrapped h hstep) hrun
      hentered.allTrapped
  refine htrapped.mono fun t ht => ⟨fun p hp => absurd hp (ht.not_inside p), fun p => ?_⟩
  exact ⟨ht.not_inside p, ht.not_returnsAlone p⟩

end Runs

section Examples

/-- The calendar is free and nobody wants it. -/
def freeCalendar : CalendarState Nat := ⟨fun _ => 0, fun _ => none, none⟩

/-- One processor calls `mutex`. -/
def oneCaller : CalendarState Nat :=
  { freeCalendar with
    callers := Function.update freeCalendar.callers 0
      (some ⟨Function.update (fun _ => 0) .rax 64, false, 0⟩) }

theorem run_oneCaller :
    Run (CalendarStep 64) freeCalendar [(.call 0 (fun _ => 0) false, oneCaller)] :=
  .cons ⟨rfl, rfl⟩ (.nil _)

theorem entered_freeCalendar : Entered freeCalendar := by
  intro p c hc
  cases hc

theorem mutex_never_returns_oneCaller :
    Always (fun t => CalendarSafe t ∧ ∀ p, ¬ Inside t p ∧ ¬ ReturnsAlone 64 t p) freeCalendar
      [(CalendarOp.call 0 (fun _ => 0) false, oneCaller)] :=
  mutex_never_returns run_oneCaller entered_freeCalendar

theorem entered_oneCaller : Entered oneCaller := by
  intro p c hc
  change Function.update (fun _ => none) 0 _ p = some c at hc
  by_cases hp : p = 0
  · rw [hp, Function.update_self] at hc
    cases hc
    rfl
  · rw [Function.update_of_ne hp] at hc
    cases hc

/-- A processor alone, with a free calendar, does not get inside. -/
theorem oneCaller_not_returns :
    ¬ ∀ (calendar : Word) (s : CalendarState Nat) (p : Nat), Entered s → (s.callers p).isSome →
      s.mem calendar = 0 → ReturnsAlone calendar s p := by
  intro hall
  exact entered_oneCaller.allTrapped.not_returnsAlone 0
    (hall 64 oneCaller 0 entered_oneCaller rfl rfl)

end Examples

end Kontrol
end BestKernel
