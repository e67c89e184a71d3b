import BestKernel.Library.Words
import Mathlib.Logic.Function.Iterate
import Mathlib.Tactic.IntervalCases
import Mathlib.Tactic.Common

/-!
# The wrapper of firmware calls

`uefi_wrapper`, instruction by instruction, with the number of arguments in `%rdx`.  The
number is copied to `%r10`, tested again and again, and never counted down, so that with
one argument or more the jumps to the call are never taken (`Looping.run`).

Without arguments the call is reached.  What is popped behind it are the seven words that
lie next to the return address, where the calling convention of the firmware lets the
function that is called keep its own.  `wrapper_right_iff` says that this is all that it
depends on.

Readings of the source.  `uefiwrapper_call` is a label.  A call and what it comes to are one
step.  The words of the stack and of the arguments do not overlap in part.
-/

namespace BestKernel
namespace Boot

open Machine

inductive Register where
  | rax
  | rbx
  | rcx
  | rdx
  | rsi
  | rdi
  | rsp
  | r8
  | r9
  | r10
  | r11
deriving DecidableEq, Repr

/-- The instructions that `uefi_wrapper` is made of; jumps go to the number of an
instruction. -/
inductive Instruction where
  | pushq (source : Register)
  | popq (dest : Register)
  | movq (source dest : Register)
  | load (offset : Word) (base dest : Register)
  | testq (first second : Register)
  | jz (target : Nat)
  | jmp (target : Nat)
  | subq (value : Word) (dest : Register)
  | movsq
  | call (function : Register)
  | std
  | repnzMovsq
  | leaq (base index : Register) (scale : Word) (dest : Register)

/-- The registers, the zero and the direction flag, the memory, and the number of the next
instruction. -/
structure Cpu where
  regs : Register → Word
  zf : Bool
  df : Bool
  mem : WordMemory
  pc : Nat

namespace Cpu

/-- Write a register. -/
def set (c : Cpu) (r : Register) (value : Word) : Cpu :=
  { c with regs := Function.update c.regs r value }

def store (c : Cpu) (a value : Word) : Cpu :=
  { c with mem := Function.update c.mem a value }

/-- Push a register. -/
def push (c : Cpu) (r : Register) : Cpu :=
  (c.set .rsp (c.regs .rsp - 8)).store (c.regs .rsp - 8) (c.regs r)

/-- Pop a register. -/
def pop (c : Cpu) (r : Register) : Cpu :=
  (c.set .rsp (c.regs .rsp + 8)).set r (c.mem (c.regs .rsp))

/-- Go on with the next instruction. -/
def next (c : Cpu) : Cpu := { c with pc := c.pc + 1 }

/-- Copy a word, and move on by the direction flag. -/
def moveString (c : Cpu) : Cpu :=
  let stride : Word := if c.df then -8 else 8
  ((c.store (c.regs .rdi) (c.mem (c.regs .rsi))).set .rsi (c.regs .rsi + stride)).set .rdi
    (c.regs .rdi + stride)

theorem set_regs_self
    (c : Cpu)
    (r : Register)
    (value : Word) :
    (c.set r value).regs r = value := by
  simp only [set, Function.update_self]

theorem set_regs_of_ne
    (c : Cpu)
    {r r' : Register}
    (h : r' ≠ r)
    (value : Word) :
    (c.set r value).regs r' = c.regs r' := by
  simp only [set, Function.update_of_ne h]

end Cpu

/-- What the functions of the firmware make of the machine; they keep four registers. -/
structure Firmware where
  returned : Cpu → Cpu
  keeps : ∀ c r, r ∈ [Register.rsp, .rbx, .rsi, .rdi] → (returned c).regs r = c.regs r

/-- One instruction. -/
def Instruction.run (firmware : Firmware) (i : Instruction) (c : Cpu) : Cpu :=
  match i with
  | .pushq source => (c.push source).next
  | .popq dest => (c.pop dest).next
  | .movq source dest => (c.set dest (c.regs source)).next
  | .load offset base dest => (c.set dest (c.mem (c.regs base + offset))).next
  | .testq first second => { c.next with zf := c.regs first &&& c.regs second = 0 }
  | .jz target => if c.zf then { c with pc := target } else c.next
  | .jmp target => { c with pc := target }
  | .subq value dest => (c.set dest (c.regs dest - value)).next
  | .movsq => c.moveString.next
  | .call _ => { firmware.returned c with pc := c.pc + 1 }
  | .std => { c.next with df := true }
  | .repnzMovsq =>
      if c.regs .rcx = 0 then c.next else c.moveString.set .rcx (c.regs .rcx - 1)
  | .leaq base index scale dest =>
      (c.set dest (c.regs base + c.regs index * scale)).next

/-- The registers that are pushed. -/
def pushedRegisters : List Register := [.r8, .r9, .r10, .r11, .rsi, .rdi, .rbx]

/-- The instruction at the label `uefiwrapper_additionals_loop`. -/
abbrev additionalsLoop : Nat := 23

/-- The instruction at the label `uefiwrapper_call`. -/
abbrev wrapperCall : Nat := 28

/-- Behind the last instruction. -/
abbrev wrapperEnd : Nat := 40

/-- `uefi_wrapper`. -/
def wrapperCode : List Instruction :=
  [.pushq .r8, .pushq .r9, .pushq .r10, .pushq .r11, .pushq .rsi, .pushq .rdi, .pushq .rbx,
    .movq .rdx .rbx,
    .movq .rcx .rsi,
    .movq .rdx .r10,
    .testq .r10 .r10,
    .jz wrapperCall,
    .load 64 .rsi .rcx,
    .testq .r10 .r10,
    .jz wrapperCall,
    .load 72 .rsi .rdx,
    .testq .r10 .r10,
    .jz wrapperCall,
    .load 80 .rsi .r8,
    .testq .r10 .r10,
    .jz wrapperCall,
    .load 88 .rsi .r9,
    .movq .rsp .rdi,
    .testq .r10 .r10,
    .jz wrapperCall,
    .subq 8 .rsp,
    .movsq,
    .jmp additionalsLoop,
    .call .rax,
    .movq .rbx .rcx,
    .std,
    .repnzMovsq,
    .leaq .rsp .rbx 8 .rsp,
    .popq .rbx, .popq .rdi, .popq .rsi, .popq .r11, .popq .r10, .popq .r9, .popq .r8]

section Specification

variable (firmware : Firmware) (c : Cpu)

/-- One instruction of the wrapper, up to its end. -/
def advance : Cpu :=
  match wrapperCode[c.pc]? with
  | none => c
  | some i => i.run firmware c

/-- The machine after `n` instructions of a call of the wrapper. -/
def wrapperAfter (n : Nat) : Cpu := (advance firmware)^[n] { c with pc := 0 }

/-- The arguments and their number. -/
def argument (i : Nat) : Word := c.mem (c.regs .rcx + BitVec.ofNat 64 (8 * i))

def argumentsNumber : Nat := (c.regs .rdx).toNat

/-- The registers of the first four arguments. -/
def argumentRegister : Nat → Register
  | 0 => .rcx
  | 1 => .rdx
  | 2 => .r8
  | _ => .r9

/-- The arguments of the machine `c` are passed in the machine `c'`: four in registers, and
the others in the words from the stack pointer on. -/
structure ArgumentsPassed (c' : Cpu) : Prop where
  registers : ∀ i, i < 4 → i < argumentsNumber c →
    c'.regs (argumentRegister i) = argument c i
  stack : ∀ i, 4 ≤ i → i < argumentsNumber c →
    c'.mem (c'.regs .rsp + BitVec.ofNat 64 (8 * (i - 4))) = argument c i

/-- What the wrapper should do: come to the call with the arguments passed, and from there to
its end with the stack and the pushed registers as they were. -/
def WrapperRight : Prop :=
  ∃ n, (wrapperAfter firmware c n).pc = wrapperCall ∧
    ArgumentsPassed c (wrapperAfter firmware c n) ∧
      ∃ n', n ≤ n' ∧ (wrapperAfter firmware c n').pc = wrapperEnd ∧
        ∀ r, r ∈ .rsp :: pushedRegisters → (wrapperAfter firmware c n').regs r = c.regs r

/-- The machine that calls the firmware when there are no arguments. -/
def calling : Cpu :=
  let pushed := pushedRegisters.foldl Cpu.push c
  { ((pushed.set .rbx (c.regs .rdx)).set .rsi (c.regs .rcx)).set .r10 (c.regs .rdx) with
    zf := true
    pc := wrapperCall }

/-- The condition: there is no argument, and the firmware leaves the seven words behind the
return address as it finds them. -/
def WrapperSafe : Prop :=
  argumentsNumber c = 0 ∧
    ∀ i, i < 7 →
      (firmware.returned (calling c)).mem (c.regs .rsp - 56 + BitVec.ofNat 64 (8 * i)) =
        (calling c).mem (c.regs .rsp - 56 + BitVec.ofNat 64 (8 * i))

end Specification

section Looping

variable {firmware : Firmware} {c : Cpu}

/-- A machine in the wrapper that will not come to the call: the number of arguments is not
zero, and the tests of it have found that. -/
structure Looping (c : Cpu) : Prop where
  pc : c.pc < wrapperCall
  number : c.pc ≤ 9 → c.regs .rdx ≠ 0
  counter : 10 ≤ c.pc → c.regs .r10 ≠ 0
  tested : c.pc ∈ [11, 14, 17, 20, 24] → c.zf = false

/-- Before the counter is set. -/
theorem looping_before
    {regs : Register → Word} {zf df : Bool} {mem : WordMemory} (pc : Nat)
    (hpc : pc ≤ 9)
    (hnumber : regs .rdx ≠ 0) :
    Looping ⟨regs, zf, df, mem, pc⟩ := by
  refine ⟨show pc < 28 by omega, fun _ => hnumber, fun h => ?_, fun h => ?_⟩
  · exact absurd (Nat.le_trans h hpc) (by decide)
  · simp only [List.mem_cons, List.not_mem_nil, or_false] at h
    omega

/-- Between the tests. -/
theorem looping_at
    {regs : Register → Word} {zf df : Bool} {mem : WordMemory} (pc : Nat)
    (hpc : 10 ≤ pc ∧ pc < wrapperCall ∧ pc ∉ [11, 14, 17, 20, 24])
    (hcounter : regs .r10 ≠ 0) :
    Looping ⟨regs, zf, df, mem, pc⟩ :=
  ⟨hpc.2.1, fun h => absurd (Nat.le_trans hpc.1 h) (by decide), fun _ => hcounter,
    fun h => absurd h hpc.2.2⟩

/-- Behind a test of the counter. -/
theorem looping_tested
    {regs : Register → Word} {df : Bool} {mem : WordMemory} (pc : Nat)
    (hpc : 10 ≤ pc ∧ pc < wrapperCall)
    (hcounter : regs .r10 ≠ 0) :
    Looping ⟨regs, decide (regs .r10 &&& regs .r10 = 0), df, mem, pc⟩ := by
  refine ⟨hpc.2, fun h => absurd (Nat.le_trans hpc.1 h) (by decide), fun _ => hcounter,
    fun _ => ?_⟩
  rw [BitVec.and_self]
  exact decide_eq_false hcounter

/-- **With an argument no instruction leads to the call.** -/
theorem Looping.run
    {i : Instruction}
    (h : Looping c)
    (hi : wrapperCode[c.pc]? = some i) :
    Looping (i.run firmware c) := by
  obtain ⟨regs, zf, df, mem, pc⟩ := c
  obtain ⟨hpc, hnumber, hcounter, htested⟩ := h
  dsimp only at hpc hnumber hcounter htested hi
  have hother : ∀ r (value : Word), r ≠ .r10 → Function.update regs r value .r10 = regs .r10 :=
    fun r value hr => Function.update_of_ne hr.symm _ _
  interval_cases pc
  all_goals
    cases hi
    dsimp only [Instruction.run, Cpu.set, Cpu.store, Cpu.push, Cpu.next, Cpu.moveString]
  -- the seven registers are pushed, and the number is copied to `%rbx` and `%r10`
  case «0».refl | «1».refl | «2».refl | «3».refl | «4».refl | «5».refl | «6».refl |
      «7».refl | «8».refl =>
      refine looping_before _ (by decide) fun h => hnumber (by decide) ?_
      exact (Function.update_of_ne (by decide) _ _).symm.trans h
  case «9».refl =>
      refine looping_at 10 (by decide) fun h => hnumber (by decide) ?_
      exact (Function.update_self Register.r10 (regs .rdx) regs).symm.trans h
  all_goals have hcounter := hcounter (by decide)
  case «10».refl | «13».refl | «16».refl | «19».refl | «23».refl =>
      exact looping_tested _ (by decide) hcounter
  case «11».refl | «14».refl | «17».refl | «20».refl | «24».refl =>
      obtain rfl := htested (by decide)
      exact looping_at _ (by decide) hcounter
  case «12».refl | «15».refl | «18».refl | «21».refl | «22».refl | «25».refl =>
      exact looping_at _ (by decide) fun h => hcounter ((hother _ _ (by decide)).symm.trans h)
  case «26».refl =>
      refine looping_at 27 (by decide) fun h => hcounter ?_
      exact ((Function.update_of_ne (by decide) _ _).trans (hother _ _ (by decide))).symm.trans h
  case «27».refl =>
      exact looping_at additionalsLoop (by decide) hcounter

theorem advance_of_get
    {i : Instruction}
    (h : wrapperCode[c.pc]? = some i) :
    advance firmware c = i.run firmware c := by
  unfold advance
  rw [h]

theorem Looping.advance
    (h : Looping c) :
    Looping (advance firmware c) := by
  have hlt : c.pc < wrapperCode.length := h.pc.trans (by decide)
  have hi := List.getElem?_eq_getElem hlt
  rw [advance_of_get hi]
  exact h.run hi

/-- No call of the wrapper with an argument comes to the call of the function. -/
theorem looping_wrapperAfter
    (h : argumentsNumber c ≠ 0)
    (n : Nat) :
    Looping (wrapperAfter firmware c n) := by
  induction n with
  | zero => exact looping_before 0 (by decide) fun hzero => h (congrArg BitVec.toNat hzero)
  | succ n ih =>
      rw [wrapperAfter, Function.iterate_succ_apply']
      exact ih.advance

end Looping

section Returning

variable {firmware : Firmware} {c : Cpu}

/-- Without arguments the function is called in the machine `calling`. -/
theorem wrapperAfter_calling
    (h : argumentsNumber c = 0) :
    wrapperAfter firmware c 12 = calling c := by
  have hrdx : c.regs .rdx = 0 := BitVec.eq_of_toNat_eq h
  have htested : wrapperAfter firmware c 11 =
      ⟨(calling c).regs, decide (c.regs .rdx &&& c.regs .rdx = 0), (calling c).df,
        (calling c).mem, 11⟩ := by
    simp only [wrapperAfter, Function.iterate_succ, Function.iterate_zero, Function.comp, id,
      advance, wrapperCode, List.getElem?_cons_succ, List.getElem?_cons_zero, Instruction.run,
      Cpu.next, calling, pushedRegisters, List.foldl, Cpu.set, Cpu.store, Cpu.push]
    rfl
  have hjump : ∀ regs df mem,
      advance firmware ⟨regs, true, df, mem, 11⟩ = ⟨regs, true, df, mem, wrapperCall⟩ :=
    fun _ _ _ => rfl
  have hzero : decide (c.regs .rdx &&& c.regs .rdx = 0) = true := by
    rw [hrdx]
    rfl
  have hnext : wrapperAfter firmware c 12 = advance firmware (wrapperAfter firmware c 11) :=
    Function.iterate_succ_apply' _ _ _
  rw [hnext, htested, hzero]
  exact hjump _ _ _

/-- The registers in the order in which they are popped. -/
def poppedRegisters : List Register := [.rbx, .rdi, .rsi, .r11, .r10, .r9, .r8]

/-- No word of the stack is given back when there were no arguments. -/
theorem advance_skipped
    {regs : Register → Word} {zf : Bool} {mem : WordMemory}
    (hrcx : regs .rcx = 0)
    (hrbx : regs .rbx = 0) :
    (advance firmware)^[2] ⟨regs, zf, true, mem, 31⟩ = ⟨regs, zf, true, mem, 33⟩ := by
  have hcopied : advance firmware ⟨regs, zf, true, mem, 31⟩ = ⟨regs, zf, true, mem, 32⟩ :=
    (advance_of_get (show _ = some Instruction.repnzMovsq from rfl)).trans (if_pos hrcx)
  have hleft : regs .rsp + regs .rbx * 8 = regs .rsp := by
    simp [hrbx]
  have hleaq : advance firmware ⟨regs, zf, true, mem, 32⟩ =
      ⟨Function.update regs .rsp (regs .rsp + regs .rbx * 8), zf, true, mem, 33⟩ := rfl
  rw [hleft, Function.update_eq_self] at hleaq
  rw [Function.iterate_succ_apply, hcopied]
  exact hleaq

theorem advance_popped
    (c : Cpu) :
    (advance firmware)^[7] { c with pc := 33 } =
      { poppedRegisters.foldl Cpu.pop c with pc := wrapperEnd } := by
  simp only [Function.iterate_succ, Function.iterate_zero, Function.comp, id,
    advance, wrapperCode, List.getElem?_cons_succ, List.getElem?_cons_zero, Instruction.run,
    Cpu.next, poppedRegisters, List.foldl, Cpu.set, Cpu.pop]

/-- The clean-up when `%rbx` is zero: the registers are popped and nothing else. -/
theorem advance_cleaned
    (c : Cpu)
    (h : c.regs .rbx = 0) :
    (advance firmware)^[11] { c with pc := 29 } =
      { poppedRegisters.foldl Cpu.pop { c.set .rcx 0 with df := true } with
        pc := wrapperEnd } := by
  have hcopied : (advance firmware)^[2] { c with pc := 29 } =
      ⟨(c.set .rcx 0).regs, c.zf, true, c.mem, 31⟩ := by
    rw [← h]
    rfl
  have hcounter : (c.set .rcx 0).regs .rcx = 0 := c.set_regs_self .rcx 0
  have hbase : (c.set .rcx 0).regs .rbx = 0 := (c.set_regs_of_ne (by decide) 0).trans h
  have hskipped := @advance_skipped firmware (c.set .rcx 0).regs c.zf c.mem hcounter hbase
  rw [show 11 = 7 + (2 + 2) from rfl, Function.iterate_add_apply,
    Function.iterate_add_apply _ 2 2, hcopied, hskipped]
  exact advance_popped { c.set .rcx 0 with df := true }

section Stack

variable {rs : List Register}

theorem foldl_pop_rsp
    (c : Cpu)
    (h : .rsp ∉ rs) :
    (rs.foldl Cpu.pop c).regs .rsp = c.regs .rsp + BitVec.ofNat 64 (8 * rs.length) := by
  induction rs generalizing c with
  | nil => exact (BitVec.add_zero _).symm
  | cons r rs ih =>
      simp only [List.mem_cons, not_or] at h
      have hr : (c.pop r).regs .rsp = c.regs .rsp + 8 :=
        (Cpu.set_regs_of_ne _ h.1 _).trans (c.set_regs_self .rsp _)
      rw [List.foldl_cons, ih _ h.2, hr, List.length_cons]
      bv_omega

theorem foldl_pop_of_notMem
    (c : Cpu)
    {r : Register}
    (hrsp : r ≠ .rsp)
    (h : r ∉ rs) :
    (rs.foldl Cpu.pop c).regs r = c.regs r := by
  induction rs generalizing c with
  | nil => rfl
  | cons r' rs ih =>
      simp only [List.mem_cons, not_or] at h
      rw [List.foldl_cons, ih _ h.2]
      exact (Cpu.set_regs_of_ne _ h.1 _).trans (c.set_regs_of_ne hrsp _)

/-- What is popped are the words from the stack pointer on. -/
theorem foldl_pop_regs
    (c : Cpu)
    (hrsp : .rsp ∉ rs)
    (hnodup : rs.Nodup)
    {i : Nat}
    (hi : i < rs.length) :
    (rs.foldl Cpu.pop c).regs rs[i] = c.mem (c.regs .rsp + BitVec.ofNat 64 (8 * i)) := by
  induction rs generalizing c i with
  | nil => exact absurd hi (Nat.not_lt_zero i)
  | cons r rs ih =>
      simp only [List.mem_cons, not_or] at hrsp
      obtain ⟨hr, hnodup⟩ := List.nodup_cons.1 hnodup
      rw [List.foldl_cons]
      cases i with
      | zero =>
          rw [List.getElem_cons_zero, foldl_pop_of_notMem _ (Ne.symm hrsp.1) hr]
          exact (Cpu.set_regs_self _ r _).trans (by rw [Nat.mul_zero, BitVec.add_zero])
      | succ i =>
          have hnext : (c.pop r).regs .rsp = c.regs .rsp + 8 :=
            (Cpu.set_regs_of_ne _ hrsp.1 _).trans (c.set_regs_self .rsp _)
          rw [List.getElem_cons_succ, ih _ hrsp.2 hnodup, hnext]
          refine congrArg c.mem ?_
          bv_omega

theorem foldl_push_rsp
    (c : Cpu) :
    (rs.foldl Cpu.push c).regs .rsp = c.regs .rsp - BitVec.ofNat 64 (8 * rs.length) := by
  induction rs generalizing c with
  | nil => exact (BitVec.sub_zero _).symm
  | cons r rs ih =>
      have hr : (c.push r).regs .rsp = c.regs .rsp - 8 := c.set_regs_self .rsp _
      rw [List.foldl_cons, ih, hr, List.length_cons]
      bv_omega

/-- Nothing is written but the words below the stack pointer. -/
theorem foldl_push_of_ne
    (c : Cpu)
    {a : Word}
    (h : ∀ i, i < rs.length → a ≠ c.regs .rsp - BitVec.ofNat 64 (8 * (i + 1))) :
    (rs.foldl Cpu.push c).mem a = c.mem a := by
  induction rs generalizing c with
  | nil => rfl
  | cons r rs ih =>
      have hr : (c.push r).regs .rsp = c.regs .rsp - 8 := c.set_regs_self .rsp _
      rw [List.foldl_cons, ih]
      · exact Function.update_of_ne (h 0 (Nat.succ_pos _)) _ _
      · intro i hi
        have hne := h (i + 1) (Nat.succ_lt_succ hi)
        rw [hr]
        bv_omega

/-- What is pushed are the registers, down from the stack pointer. -/
theorem foldl_push_mem
    (c : Cpu)
    (hrsp : .rsp ∉ rs)
    (hlength : rs.length ≤ 8)
    {i : Nat}
    (hi : i < rs.length) :
    (rs.foldl Cpu.push c).mem (c.regs .rsp - BitVec.ofNat 64 (8 * (i + 1))) =
      c.regs rs[i] := by
  induction rs generalizing c i with
  | nil => exact absurd hi (Nat.not_lt_zero i)
  | cons r rs ih =>
      simp only [List.mem_cons, not_or] at hrsp
      have hr : (c.push r).regs .rsp = c.regs .rsp - 8 := c.set_regs_self .rsp _
      rw [List.length_cons] at hlength hi
      rw [List.foldl_cons]
      cases i with
      | zero =>
          rw [foldl_push_of_ne]
          · exact Function.update_self (c.regs .rsp - 8) (c.regs r) c.mem
          · intro i hi
            rw [hr]
            bv_omega
      | succ i =>
          have hlt := Nat.lt_of_succ_lt_succ hi
          have ha : c.regs .rsp - BitVec.ofNat 64 (8 * (i + 1 + 1)) =
              (c.push r).regs .rsp - BitVec.ofNat 64 (8 * (i + 1)) := by
            rw [hr]
            bv_omega
          have hkept : (c.push r).regs rs[i] = c.regs rs[i] :=
            c.set_regs_of_ne (ne_of_mem_of_not_mem (List.getElem_mem hlt) hrsp.2) _
          rw [ha, ih (c.push r) hrsp.2 (by omega) hlt, hkept]
          rfl

end Stack

theorem calling_regs :
    (calling c).regs = ((((pushedRegisters.foldl Cpu.push c).set .rbx (c.regs .rdx)).set .rsi
      (c.regs .rcx)).set .r10 (c.regs .rdx)).regs :=
  rfl

theorem calling_rsp :
    (calling c).regs .rsp = c.regs .rsp - 56 := by
  rw [calling_regs, Cpu.set_regs_of_ne _ (by decide), Cpu.set_regs_of_ne _ (by decide),
    Cpu.set_regs_of_ne _ (by decide)]
  exact foldl_push_rsp c

theorem calling_rbx :
    (calling c).regs .rbx = c.regs .rdx := by
  rw [calling_regs, Cpu.set_regs_of_ne _ (by decide), Cpu.set_regs_of_ne _ (by decide),
    Cpu.set_regs_self]

/-- The function finds the pushed registers at the stack pointer. -/
theorem calling_mem
    {i : Nat}
    (hi : i < poppedRegisters.length) :
    (calling c).mem (c.regs .rsp - 56 + BitVec.ofNat 64 (8 * i)) =
      c.regs poppedRegisters[i] := by
  have hlt : 6 - i < pushedRegisters.length := Nat.lt_succ_of_le (Nat.sub_le 6 i)
  have ha : c.regs .rsp - 56 + BitVec.ofNat 64 (8 * i) =
      c.regs .rsp - BitVec.ofNat 64 (8 * (6 - i + 1)) := by
    have hi : i < 7 := hi
    bv_omega
  rw [ha]
  refine (foldl_push_mem c (by decide) (by decide) hlt).trans (congrArg c.regs ?_)
  have hi : i < 7 := hi
  interval_cases i <;> rfl

variable (firmware c) in
/-- The machine in front of the registers that are popped, without arguments. -/
def cleaning : Cpu :=
  { (firmware.returned (calling c)).set .rcx 0 with df := true }

theorem cleaning_rsp :
    (cleaning firmware c).regs .rsp = c.regs .rsp - 56 :=
  calc (cleaning firmware c).regs .rsp
      = ((firmware.returned (calling c)).set .rcx 0).regs .rsp := rfl
    _ = (firmware.returned (calling c)).regs .rsp := Cpu.set_regs_of_ne _ (by decide) 0
    _ = c.regs .rsp - 56 := (firmware.keeps _ _ (by decide)).trans calling_rsp

/-- The end of a call without arguments. -/
theorem wrapperAfter_end
    (h : argumentsNumber c = 0) :
    wrapperAfter firmware c 24 =
      { poppedRegisters.foldl Cpu.pop (cleaning firmware c) with pc := wrapperEnd } := by
  have hrbx : (firmware.returned (calling c)).regs .rbx = 0 := by
    rw [firmware.keeps _ _ (by decide), calling_rbx]
    exact BitVec.eq_of_toNat_eq h
  have hcall : wrapperAfter firmware c 13 = { firmware.returned (calling c) with pc := 29 } := by
    have hnext : wrapperAfter firmware c 13 = advance firmware (wrapperAfter firmware c 12) :=
      Function.iterate_succ_apply' _ _ _
    rw [hnext, wrapperAfter_calling h]
    rfl
  have hadd : wrapperAfter firmware c 24 =
      (advance firmware)^[11] (wrapperAfter firmware c 13) :=
    Function.iterate_add_apply _ 11 13 _
  rw [hadd, hcall]
  exact advance_cleaned _ hrbx

theorem wrapperAfter_end_regs
    (h : argumentsNumber c = 0)
    {i : Nat}
    (hi : i < poppedRegisters.length) :
    (wrapperAfter firmware c 24).regs poppedRegisters[i] =
      (firmware.returned (calling c)).mem
        (c.regs .rsp - 56 + BitVec.ofNat 64 (8 * i)) := by
  rw [wrapperAfter_end h]
  change (poppedRegisters.foldl Cpu.pop (cleaning firmware c)).regs poppedRegisters[i] = _
  rw [foldl_pop_regs _ (by decide) (by decide) hi, cleaning_rsp]
  rfl

theorem wrapperAfter_end_rsp
    (h : argumentsNumber c = 0) :
    (wrapperAfter firmware c 24).regs .rsp = c.regs .rsp := by
  rw [wrapperAfter_end h]
  change (poppedRegisters.foldl Cpu.pop (cleaning firmware c)).regs .rsp = c.regs .rsp
  rw [foldl_pop_rsp _ (by decide), cleaning_rsp]
  exact BitVec.sub_add_cancel _ _

/-- The wrapper ends in one way. -/
theorem wrapperAfter_end_unique
    {m n : Nat}
    (hm : (wrapperAfter firmware c m).pc = wrapperEnd)
    (hn : (wrapperAfter firmware c n).pc = wrapperEnd) :
    wrapperAfter firmware c m = wrapperAfter firmware c n := by
  wlog hle : m ≤ n generalizing m n
  · exact (this hn hm (Nat.le_of_not_le hle)).symm
  have hfixed : advance firmware (wrapperAfter firmware c m) = wrapperAfter firmware c m := by
    rw [advance, hm]
    rfl
  calc wrapperAfter firmware c m
      = (advance firmware)^[n - m] (wrapperAfter firmware c m) :=
        (Function.iterate_fixed hfixed _).symm
    _ = wrapperAfter firmware c n := by
        rw [wrapperAfter, ← Function.iterate_add_apply, Nat.sub_add_cancel hle]
        rfl

end Returning

section Right

variable (firmware : Firmware) (c : Cpu)

/-- **The wrapper is right when there is no argument and the firmware leaves the words next
to the return address, and in no other case.** -/
theorem wrapper_right_iff :
    WrapperRight firmware c ↔ WrapperSafe firmware c := by
  constructor
  · rintro ⟨n, hcall, -, n', -, hend, hregs⟩
    have hzero : argumentsNumber c = 0 := by
      by_contra h
      have hlooping : Looping (wrapperAfter firmware c n) := looping_wrapperAfter h n
      have hlt := hlooping.pc
      exact absurd hcall (Nat.ne_of_lt hlt)
    refine ⟨hzero, fun i hi => ?_⟩
    have hpc : (wrapperAfter firmware c 24).pc = wrapperEnd := by
      rw [wrapperAfter_end hzero]
    rw [wrapperAfter_end_unique hend hpc] at hregs
    have hi : i < poppedRegisters.length := hi
    rw [← wrapperAfter_end_regs hzero hi, calling_mem hi]
    exact hregs _ (List.mem_cons_of_mem _ (List.mem_reverse.1 (List.getElem_mem hi)))
  · rintro ⟨hzero, hkept⟩
    have hnone : ∀ i, ¬ i < argumentsNumber c := fun i => by omega
    refine ⟨12, ?_, ⟨fun i _ hi => absurd hi (hnone i), fun i _ hi => absurd hi (hnone i)⟩,
      24, by decide, ?_, ?_⟩
    · rw [wrapperAfter_calling hzero]
      rfl
    · rw [wrapperAfter_end hzero]
    · rintro r hr
      cases hr with
      | head => exact wrapperAfter_end_rsp hzero
      | tail _ hr =>
          have hr : r ∈ poppedRegisters := List.mem_reverse.2 hr
          obtain ⟨i, hi, rfl⟩ := List.getElem_of_mem hr
          rw [wrapperAfter_end_regs hzero hi, hkept i hi, calling_mem hi]

end Right

/-- A machine that calls a function with one argument. -/
def oneArgument : Cpu where
  regs := fun r => if r = .rdx then 1 else 0
  zf := false
  df := false
  mem := fun _ => 0
  pc := 0

/-- A firmware whose functions do nothing. -/
def idleFirmware : Firmware where
  returned := id
  keeps := fun _ _ _ => rfl

/-- A function with one argument is never called. -/
theorem one_argument_looping :
    ¬ WrapperRight idleFirmware oneArgument := by
  rintro ⟨n, hcall, -⟩
  have hone : argumentsNumber oneArgument ≠ 0 := by decide
  have hlooping : Looping (wrapperAfter idleFirmware oneArgument n) :=
    looping_wrapperAfter hone n
  have hlt := hlooping.pc
  exact absurd hcall (Nat.ne_of_lt hlt)

end Boot
end BestKernel
