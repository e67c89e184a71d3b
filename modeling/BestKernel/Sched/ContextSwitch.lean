import BestKernel.Library.Words
import Mathlib.Tactic.SplitIfs

/-!
# The context switch

`asm.S` as lists of transfers between registers, control registers, the stack
and `thread.state`, with an interpreter for them.  Operands come in AT&T order,
source first.  `thread.state` is addressed by the pointer it is reached through,
so each base has a state of its own, apart from the stack.

Readings of the source.  `JMP +0` only serializes and is left out.  `POPF`,
which takes no operand, pops into the one it is given.  Labels and fields that
are spelled in two ways are one.  `interrupt_stack.instruction_pointer` is the
second word of `interrupt_stack`.  The address behind `CALL store_state` is a
parameter, `after_call`.

Two slips decide the result.  `store_state` takes the word at the top of its
stack for the thread pointer, which is the return address, so that nothing is
stored for the thread.  `leave_ringzero` pushes five words in an order that
`IRETQ` does not pop them in, and reads the flags relative to the stack pointer.
-/

namespace BestKernel
namespace Sched

open Machine

inductive Reg where
  | rax | rcx | rdx | rbx | rsp | rdi | rsi | rbp
  | r8 | r9 | r10 | r11 | r12 | r13 | r14 | r15
deriving DecidableEq, Repr

inductive ControlReg where
  | cr3 | cr8 | cr11 | cr12 | cr13 | cr14
deriving DecidableEq, Repr

/-- The fields of `struct state` that the routines use. -/
inductive StateField where
  | accumulator | counter | rdx | rbx | stack_pointer | string_dest | string_source
  | frame_pointer | eight | nine | ten | eleven | twelve | thirteen | fourteen | fifteen
  | flags | instruction_override | instruction_pointer
deriving DecidableEq, Repr

/-- The field that belongs to a register. -/
def Reg.field : Reg → StateField
  | .rax => .accumulator
  | .rcx => .counter
  | .rdx => .rdx
  | .rbx => .rbx
  | .rsp => .stack_pointer
  | .rdi => .string_dest
  | .rsi => .string_source
  | .rbp => .frame_pointer
  | .r8 => .eight
  | .r9 => .nine
  | .r10 => .ten
  | .r11 => .eleven
  | .r12 => .twelve
  | .r13 => .thirteen
  | .r14 => .fourteen
  | .r15 => .fifteen

structure Cpu where
  regs : Reg → Word
  control : ControlReg → Word
  stack : Word → Word
  state : Word → StateField → Word
  /-- Where the last `RET` went. -/
  target : Word

namespace Cpu

def setReg (m : Cpu) (r : Reg) (v : Word) : Cpu :=
  { m with regs := fun x => if x = r then v else m.regs x }

def setControl (m : Cpu) (c : ControlReg) (v : Word) : Cpu :=
  { m with control := fun x => if x = c then v else m.control x }

def setStack (m : Cpu) (a v : Word) : Cpu :=
  { m with stack := fun x => if x = a then v else m.stack x }

def setState (m : Cpu) (base : Word) (f : StateField) (v : Word) : Cpu :=
  { m with state := fun b x => if b = base ∧ x = f then v else m.state b x }

def push (m : Cpu) (v : Word) : Cpu :=
  let m := m.setReg .rsp (m.regs .rsp - 8#64)
  m.setStack (m.regs .rsp) v

end Cpu

inductive Instr where
  | fromControl (c : ControlReg) (r : Reg)
  | toControl (r : Reg) (c : ControlReg)
  | move (source dest : Reg)
  | immediate (v : Word) (r : Reg)
  /-- From the stack, at an offset from a register. -/
  | load (offset : Word) (base dest : Reg)
  | loadField (f : StateField) (base dest : Reg)
  | storeField (source : Reg) (f : StateField) (base : Reg)
  | push (r : Reg)
  | pop (r : Reg)
  | sub (v : Word) (r : Reg)
  | exchange (r s : Reg)
  | call (returnAddress : Word)
  | ret
  /-- `TEST` and a jump over one of two instructions. -/
  | ifZero (r : Reg) (zero nonzero : Instr)
  | nop

def Instr.exec : Instr → Cpu → Cpu
  | .fromControl c r, m => m.setReg r (m.control c)
  | .toControl r c, m => m.setControl c (m.regs r)
  | .move source dest, m => m.setReg dest (m.regs source)
  | .immediate v r, m => m.setReg r v
  | .load offset base dest, m => m.setReg dest (m.stack (m.regs base + offset))
  | .loadField f base dest, m => m.setReg dest (m.state (m.regs base) f)
  | .storeField source f base, m => m.setState (m.regs base) f (m.regs source)
  | .push r, m => m.push (m.regs r)
  | .pop r, m =>
      let v := m.stack (m.regs .rsp)
      (m.setReg .rsp (m.regs .rsp + 8#64)).setReg r v
  | .sub v r, m => m.setReg r (m.regs r - v)
  | .exchange r s, m => (m.setReg r (m.regs s)).setReg s (m.regs r)
  | .call returnAddress, m => m.push returnAddress
  | .ret, m =>
      { m.setReg .rsp (m.regs .rsp + 8#64) with target := m.stack (m.regs .rsp) }
  | .ifZero r zero nonzero, m =>
      if m.regs r = 0 then zero.exec m else nonzero.exec m
  | .nop, m => m

def runCode (code : List Instr) (m : Cpu) : Cpu :=
  code.foldl (fun m i => i.exec m) m

theorem runCode_append (code code' : List Instr) (m : Cpu) :
    runCode (code ++ code') m = runCode code' (runCode code m) :=
  List.foldl_append

/-- The offset of `rip` in `interrupt_stack`. -/
abbrev interruptStackIp : Word := 8#64

/-- `store_state`, up to where it starts to store. -/
def storeStateEntry : List Instr :=
  [.toControl .rsp .cr14,
   .toControl .rax .cr12,
   .load 0#64 .rsp .rax,
   .pop .rcx,
   .storeField .rcx .flags .rax,
   .move .rax .rsp,
   .fromControl .cr12 .rax]

/-- The stores of `store_state`. -/
def storeStateStores : List Instr :=
  [.storeField .rax .accumulator .rsp,
   .storeField .rcx .counter .rsp,
   .storeField .rdx .rdx .rsp,
   .storeField .rbx .rbx .rsp,
   .fromControl .cr14 .rax,
   .storeField .rax .stack_pointer .rsp,
   .storeField .rdi .string_dest .rsp,
   .storeField .rsi .string_source .rsp,
   .storeField .rbp .frame_pointer .rsp,
   .storeField .r8 .eight .rsp,
   .storeField .r9 .nine .rsp,
   .storeField .r10 .ten .rsp,
   .storeField .r11 .eleven .rsp,
   .storeField .r12 .twelve .rsp,
   .storeField .r13 .thirteen .rsp,
   .storeField .r14 .fourteen .rsp,
   .storeField .r15 .fifteen .rsp,
   .load interruptStackIp .rax .rcx,
   .loadField .instruction_override .rsp .rdx,
   .ifZero .rdx
     (.storeField .rcx .instruction_pointer .rsp)
     (.storeField .rcx .instruction_override .rsp)]

def storeState : List Instr :=
  storeStateEntry ++ storeStateStores ++ [.exchange .rax .rsp, .ret]

/-- `enter_ringzero` up to its call. -/
def enterRingzeroEntry (after_call : Word) : List Instr :=
  [.toControl .rax .cr14,
   .immediate 14#64 .rax,
   .toControl .rax .cr8,
   .fromControl .cr13 .rax,
   .toControl .rax .cr3,
   .fromControl .cr11 .rax,
   .toControl .rax .cr12,
   .sub 8#64 .rsp,
   .push .rax,
   .fromControl .cr14 .rax,
   .call after_call]

def enterRingzero (after_call : Word) : List Instr :=
  enterRingzeroEntry after_call ++ storeState ++ [.ret]

/-- The part of `leave_ringzero` that builds the interrupt return stack, up to
the choice of the instruction pointer. -/
def leaveRingzeroHead : List Instr :=
  [.load 8#64 .rsp .rax,
   .fromControl .cr8 .rcx,
   .toControl .rcx .cr3,
   .immediate 0#64 .rdx,
   .push .rdx,
   .loadField .stack_pointer .rax .rdx,
   .push .rdx,
   .immediate 0#64 .rdx,
   .push .rdx,
   .loadField .instruction_override .rax .rdx]

/-- The choice, and the rest of the interrupt return stack. -/
def leaveRingzeroTail : List Instr :=
  [.ifZero .rdx (.loadField .instruction_pointer .rax .rdx) .nop,
   .push .rdx,
   .loadField .flags .rsp .rdx,
   .push .rdx]

/-- The part of `leave_ringzero` that loads the registers, up to `IRETQ`. -/
def leaveRingzeroLoads : List Instr :=
  [.toControl .rsp .cr14,
   .move .rax .rsp,
   .loadField .accumulator .rsp .rax,
   .loadField .counter .rsp .rcx,
   .loadField .rdx .rsp .rdx,
   .loadField .rbx .rsp .rbx,
   .loadField .string_dest .rsp .rdi,
   .loadField .string_source .rsp .rsi,
   .loadField .frame_pointer .rsp .rbp,
   .loadField .eight .rsp .r8,
   .loadField .nine .rsp .r9,
   .loadField .ten .rsp .r10,
   .loadField .eleven .rsp .r11,
   .loadField .twelve .rsp .r12,
   .loadField .thirteen .rsp .r13,
   .loadField .fourteen .rsp .r14,
   .loadField .fifteen .rsp .r15,
   .fromControl .cr14 .rsp]

def leaveRingzero : List Instr :=
  leaveRingzeroHead ++ leaveRingzeroTail ++ leaveRingzeroLoads

/-- An interrupted thread. -/
structure Interrupted where
  regs : Reg → Word
  rflags : Word
  rip : Word

/-- What the processor does on an interrupt: five words on the stack at `top`. -/
def interrupt (t : Interrupted) (top cs ss : Word) (m : Cpu) : Cpu :=
  let m := { m with regs := fun r : Reg => if r = Reg.rsp then top else t.regs r }
  ((((m.push ss).push (t.regs .rsp)).push t.rflags).push cs).push t.rip

/-- What `IRETQ` is about to pop, and the general registers, are those of the
interrupted thread. -/
structure Resumes (t : Interrupted) (m : Cpu) : Prop where
  rip : m.stack (m.regs .rsp) = t.rip
  rflags : m.stack (m.regs .rsp + 16#64) = t.rflags
  rsp : m.stack (m.regs .rsp + 24#64) = t.regs .rsp
  regs : ∀ r : Reg, r ≠ .rsp → m.regs r = t.regs r

section Leave

variable (m : Cpu)

theorem leaveRingzeroLoads_regs
    {r : Reg}
    (hr : r ≠ .rsp) :
    (runCode leaveRingzeroLoads m).regs r = m.state (m.regs .rax) r.field := by
  cases r <;> first | rfl | exact absurd rfl hr

theorem leaveRingzeroLoads_rsp :
    (runCode leaveRingzeroLoads m).regs .rsp = m.regs .rsp :=
  rfl

theorem leaveRingzeroLoads_stack :
    (runCode leaveRingzeroLoads m).stack = m.stack :=
  rfl

/-- The stack after the first three pushes. -/
theorem leaveRingzeroHead_stack (a : Word) :
    (runCode leaveRingzeroHead m).stack a =
      if a = m.regs .rsp - 8#64 - 8#64 - 8#64 then 0
      else if a = m.regs .rsp - 8#64 - 8#64 then
        m.state (m.stack (m.regs .rsp + 8#64)) .stack_pointer
      else if a = m.regs .rsp - 8#64 then 0
      else m.stack a :=
  rfl

/-- The last two pushes: an instruction pointer and the word read as flags. -/
theorem leaveRingzeroTail_spec :
    ∃ ip,
      (runCode leaveRingzeroTail m).regs .rsp = m.regs .rsp - 8#64 - 8#64 ∧
      (runCode leaveRingzeroTail m).regs .rax = m.regs .rax ∧
      (runCode leaveRingzeroTail m).state = m.state ∧
      ∀ a, (runCode leaveRingzeroTail m).stack a =
        if a = m.regs .rsp - 8#64 - 8#64 then m.state (m.regs .rsp - 8#64) .flags
        else if a = m.regs .rsp - 8#64 then ip
        else m.stack a := by
  by_cases hoverride : m.regs .rdx = 0
  · have hchoice : runCode leaveRingzeroTail m = runCode
        [.loadField .instruction_pointer .rax .rdx, .push .rdx,
          .loadField .flags .rsp .rdx, .push .rdx] m := by
      simp only [runCode, leaveRingzeroTail, List.foldl_cons, Instr.exec, if_pos hoverride]
    rw [hchoice]
    exact ⟨_, rfl, rfl, rfl, fun _ => rfl⟩
  · have hchoice : runCode leaveRingzeroTail m = runCode
        [.push .rdx, .loadField .flags .rsp .rdx, .push .rdx] m := by
      simp only [runCode, leaveRingzeroTail, List.foldl_cons, Instr.exec, if_neg hoverride]
    rw [hchoice]
    exact ⟨_, rfl, rfl, rfl, fun _ => rfl⟩

/-- What `leave_ringzero` hands to `IRETQ`, for the thread at `8(%rsp)`. -/
theorem leaveRingzero_spec
    {base thread : Word}
    (hbase : m.regs .rsp = base)
    (hthread : m.stack (base + 8#64) = thread) :
    let m' := runCode leaveRingzero m
    m'.stack (m'.regs .rsp) = m.state (base - 32#64) .flags ∧
      m'.stack (m'.regs .rsp + 16#64) = 0 ∧
      m'.stack (m'.regs .rsp + 24#64) = m.state thread .stack_pointer ∧
      ∀ r : Reg, r ≠ .rsp → m'.regs r = m.state thread r.field := by
  intro m'
  have hheadRsp : (runCode leaveRingzeroHead m).regs .rsp =
      base - 8#64 - 8#64 - 8#64 := by
    rw [← hbase]
    rfl
  have hheadRax : (runCode leaveRingzeroHead m).regs .rax = thread := by
    rw [← hthread, ← hbase]
    rfl
  have hheadState : (runCode leaveRingzeroHead m).state = m.state := rfl
  have hheadStack := leaveRingzeroHead_stack m
  rw [hbase, hthread] at hheadStack
  obtain ⟨ip, hrsp, hrax, hstate, hstack⟩ :=
    leaveRingzeroTail_spec (runCode leaveRingzeroHead m)
  rw [hheadRsp] at hrsp hstack
  rw [hheadState] at hstate hstack
  have hm' : m' = runCode leaveRingzeroLoads
      (runCode leaveRingzeroTail (runCode leaveRingzeroHead m)) := by
    rw [← runCode_append, ← runCode_append, ← List.append_assoc]
    rfl
  have hrsp' : m'.regs .rsp = base - 8#64 - 8#64 - 8#64 - 8#64 - 8#64 := by
    rw [hm', leaveRingzeroLoads_rsp, hrsp]
  refine ⟨?_, ?_, ?_, ?_⟩
  · have hdown : base - 8#64 - 8#64 - 8#64 - 8#64 = base - 32#64 := by bv_omega
    rw [hrsp', hm', leaveRingzeroLoads_stack, hstack, if_pos rfl, hdown]
  · rw [hrsp', hm', leaveRingzeroLoads_stack, hstack, hheadStack, if_neg (by bv_omega),
      if_neg (by bv_omega), if_pos (by bv_omega)]
  · rw [hrsp', hm', leaveRingzeroLoads_stack, hstack, hheadStack, if_neg (by bv_omega),
      if_neg (by bv_omega), if_neg (by bv_omega), if_pos (by bv_omega)]
  · intro r hr
    rw [hm', leaveRingzeroLoads_regs _ hr, hrax, hstate, hheadRax]

end Leave

section Enter

/-- The instruction leaves `rsp` alone and stores under it only. -/
def Instr.storesAtRsp : Instr → Bool
  | .fromControl _ r => r != .rsp
  | .toControl _ _ => true
  | .move _ dest => dest != .rsp
  | .immediate _ r => r != .rsp
  | .load _ _ dest => dest != .rsp
  | .loadField _ _ dest => dest != .rsp
  | .storeField _ _ base => base == .rsp
  | .ifZero _ zero nonzero => zero.storesAtRsp && nonzero.storesAtRsp
  | .nop => true
  | _ => false

theorem setReg_rsp_of_ne
    {m : Cpu} {r : Reg} {v : Word}
    (hr : r ≠ .rsp) :
    (m.setReg r v).regs .rsp = m.regs .rsp :=
  if_neg (Ne.symm hr)

theorem setState_of_ne
    {m : Cpu} {base thread : Word} {f : StateField} {v : Word}
    (hne : thread ≠ base) :
    (m.setState base f v).state thread = m.state thread := by
  funext x
  exact if_neg fun h => hne h.1

/-- Such an instruction touches no other thread. -/
theorem exec_storesAtRsp
    {i : Instr} {m : Cpu}
    (hi : i.storesAtRsp = true) :
    (i.exec m).regs .rsp = m.regs .rsp ∧
      ∀ thread, thread ≠ m.regs .rsp → (i.exec m).state thread = m.state thread := by
  induction i with
  | fromControl c r => exact ⟨setReg_rsp_of_ne (by simpa [Instr.storesAtRsp] using hi), fun _ _ => rfl⟩
  | toControl r c => exact ⟨rfl, fun _ _ => rfl⟩
  | move source dest => exact ⟨setReg_rsp_of_ne (by simpa [Instr.storesAtRsp] using hi), fun _ _ => rfl⟩
  | immediate v r => exact ⟨setReg_rsp_of_ne (by simpa [Instr.storesAtRsp] using hi), fun _ _ => rfl⟩
  | load offset base dest => exact ⟨setReg_rsp_of_ne (by simpa [Instr.storesAtRsp] using hi), fun _ _ => rfl⟩
  | loadField f base dest => exact ⟨setReg_rsp_of_ne (by simpa [Instr.storesAtRsp] using hi), fun _ _ => rfl⟩
  | storeField source f base =>
      obtain rfl : base = .rsp := by simpa [Instr.storesAtRsp] using hi
      exact ⟨rfl, fun _ hne => setState_of_ne hne⟩
  | ifZero r zero nonzero ihz ihn =>
      have hboth : zero.storesAtRsp = true ∧ nonzero.storesAtRsp = true := by
        simpa [Instr.storesAtRsp] using hi
      rw [Instr.exec]
      split_ifs
      · exact ihz hboth.1
      · exact ihn hboth.2
  | nop => exact ⟨rfl, fun _ _ => rfl⟩
  | push r => exact absurd hi (by simp [Instr.storesAtRsp])
  | pop r => exact absurd hi (by simp [Instr.storesAtRsp])
  | sub v r => exact absurd hi (by simp [Instr.storesAtRsp])
  | exchange r s => exact absurd hi (by simp [Instr.storesAtRsp])
  | call returnAddress => exact absurd hi (by simp [Instr.storesAtRsp])
  | ret => exact absurd hi (by simp [Instr.storesAtRsp])

theorem runCode_storesAtRsp
    {code : List Instr} {m : Cpu} {thread : Word}
    (hcode : ∀ i, i ∈ code → i.storesAtRsp = true)
    (hne : thread ≠ m.regs .rsp) :
    (runCode code m).state thread = m.state thread := by
  induction code generalizing m with
  | nil => rfl
  | cons i code ih =>
      obtain ⟨hrsp, hstate⟩ := exec_storesAtRsp (m := m) (hcode i (by simp))
      have hrest := ih (m := i.exec m) (fun j hj => hcode j (List.mem_cons_of_mem i hj))
        (by rwa [hrsp])
      exact hrest.trans (hstate thread hne)

/-- `store_state` stores under the word it finds at the top of its stack. -/
theorem storeState_state
    {m : Cpu} {thread : Word}
    (hne : thread ≠ m.stack (m.regs .rsp)) :
    (runCode storeState m).state thread = m.state thread := by
  have hrsp : (runCode storeStateEntry m).regs .rsp = m.stack (m.regs .rsp) := by
    have hzero : m.stack (m.regs .rsp + 0#64) = m.stack (m.regs .rsp) := by
      rw [BitVec.add_zero]
    exact hzero
  have hentry : (runCode storeStateEntry m).state thread = m.state thread := by
    refine setState_of_ne ?_
    rw [← hrsp] at hne
    exact hne
  have hstores :
      (runCode storeStateStores (runCode storeStateEntry m)).state thread =
        (runCode storeStateEntry m).state thread :=
    runCode_storesAtRsp (by decide) (by rwa [hrsp])
  rw [storeState, runCode_append, runCode_append]
  exact hstores.trans hentry

/-- **`enter_ringzero` stores nothing for the thread it interrupts.** -/
theorem enterRingzero_state
    {m : Cpu} {after_call thread : Word}
    (hne : thread ≠ after_call) :
    (runCode (enterRingzero after_call) m).state thread = m.state thread := by
  have htop : (runCode (enterRingzeroEntry after_call) m).stack
      ((runCode (enterRingzeroEntry after_call) m).regs .rsp) = after_call :=
    if_pos rfl
  have hstore :
      (runCode storeState (runCode (enterRingzeroEntry after_call) m)).state thread =
        (runCode (enterRingzeroEntry after_call) m).state thread :=
    storeState_state (by rwa [htop])
  have hret : ∀ m : Cpu, (runCode [.ret] m).state = m.state := fun _ => rfl
  have hentry : (runCode (enterRingzeroEntry after_call) m).state = m.state := rfl
  rw [enterRingzero, runCode_append, runCode_append, hret, hstore, hentry]

end Enter

section RoundTrip

variable {t : Interrupted} {top cs ss after_call thread : Word} {m back : Cpu}

/--
**A thread resumes as it was interrupted exactly when its flags are 0, its state
already held its registers, and the word read as flags is its instruction
pointer.**  `back` is the machine when the handler leaves for the same thread.
-/
theorem context_switch_iff
    (hcode : thread ≠ after_call)
    (_hcr11 : m.control .cr11 = thread)
    (_hoverride : m.state thread .instruction_override = 0)
    (hstate : back.state thread =
      (runCode (enterRingzero after_call) (interrupt t top cs ss m)).state thread)
    (hthread : back.stack (back.regs .rsp + 8#64) = thread) :
    Resumes t (runCode leaveRingzero back) ↔
      t.rflags = 0 ∧ (∀ r : Reg, m.state thread r.field = t.regs r) ∧
        back.state (back.regs .rsp - 32#64) .flags = t.rip := by
  have hsame : back.state thread = m.state thread :=
    hstate.trans (enterRingzero_state hcode)
  obtain ⟨hip, hflags, hsp, hregs⟩ := leaveRingzero_spec back rfl hthread
  rw [hsame] at hsp hregs
  constructor
  · intro h
    refine ⟨?_, fun r => ?_, ?_⟩
    · rw [← h.rflags, hflags]
    · by_cases hr : r = .rsp
      · subst hr
        exact hsp.symm.trans h.rsp
      · exact (hregs r hr).symm.trans (h.regs r hr)
    · exact hip.symm.trans h.rip
  · rintro ⟨hzero, hheld, hword⟩
    refine ⟨hip.trans hword, hflags.trans hzero.symm, hsp.trans (hheld .rsp),
      fun r hr => (hregs r hr).trans (hheld r)⟩

end RoundTrip

section Examples

/-- A thread with interrupts enabled, and a machine that has a state for it. -/
def running : Interrupted := ⟨fun _ => 0, 0x202#64, 0x1000#64⟩

def machine : Cpu where
  regs := fun _ => 0
  control := fun c => if c = .cr11 then 0x8000#64 else 0
  stack := fun a => if a = 0x7008#64 then 0x8000#64 else 0
  state := fun _ _ => 0
  target := 0

/-- The handler leaves with its stack at `0x7000`. -/
def leaving : Cpu := { machine with regs := fun _ => 0x7000#64 }

theorem leaving_state :
    leaving.state 0x8000#64 =
      (runCode (enterRingzero 0x4000#64)
        (interrupt running 0x9000#64 8#64 0 machine)).state 0x8000#64 := by
  have henter := enterRingzero_state (m := interrupt running 0x9000#64 8#64 0 machine)
    (show (0x8000#64 : Word) ≠ 0x4000#64 by decide)
  rw [henter]
  rfl

/-- The flags of the thread do not come back. -/
theorem running_not_resumed :
    leaving.state 0x8000#64 =
        (runCode (enterRingzero 0x4000#64)
          (interrupt running 0x9000#64 8#64 0 machine)).state 0x8000#64 ∧
      ¬ Resumes running (runCode leaveRingzero leaving) := by
  refine ⟨leaving_state, ?_⟩
  intro h
  have hzero := (leaveRingzero_spec leaving rfl rfl).2.1
  have hflags := h.rflags.symm.trans hzero
  exact absurd hflags (by decide)

theorem context_switch_iff_running :
    Resumes running (runCode leaveRingzero leaving) ↔
      running.rflags = 0 ∧
        (∀ r : Reg, machine.state 0x8000#64 r.field = running.regs r) ∧
        leaving.state (leaving.regs .rsp - 32#64) .flags = running.rip :=
  context_switch_iff (m := machine) (by decide) rfl rfl leaving_state rfl

end Examples

end Sched
end BestKernel
