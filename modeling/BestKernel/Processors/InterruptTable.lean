import BestKernel.Library.Words
import Mathlib.Tactic.SplitIfs
import Mathlib.Tactic.Common

/-!
# The interrupt descriptor table

`setup_idt` writes gates one behind the other, for the routines that are there, and not at
the places of their vectors; behind them it clears 143 places.  `Idescriptor_insert` takes
the code at a handler for its address and shifts its 32-bit arguments by 32 and more, so
that every gate it writes is present and has the type 0.

No written gate is right for a vector that is assigned or has no routine.  A cleared one is
right where no gate was chosen for the vector, and a gate that is not touched is as right
as what was there before: `gate_right_iff`.

Readings of the source.  `target` starts at `idt`, a shift by a count of 32 or more takes
the count modulo 32, the operand missing before `<<47` is a 64-bit 1, and the `i` behind a
loop is the one that it leaves behind.  `target+=16` moves on by sixteen words, or, when
the count is taken for bytes, as the places `idt+48` and `idt+16*255` suggest, by two:
`PointerUnit`.
-/

namespace BestKernel
namespace Processors

open Machine

/-- What the numbers added to `idt` and `target` count. -/
inductive PointerUnit where
  | words
  | bytes
deriving DecidableEq

/-- The words from `idt` to `idt+16`. -/
def PointerUnit.step : PointerUnit → Nat
  | .words => 16
  | .bytes => 2

/-- The words of the table, from `idt` on. -/
abbrev GateTable := Nat → Word

/-- The arguments of an `Idescriptor_insert`, without the place. -/
structure GateCall where
  ins : Word
  gdt_segsel : Half
  tss_entry : Half
  gate_type : Half
  privilege_level : Half

/-- `gate_types::EXCEPTION` and `gate_types::INTERRUPT`. -/
abbrev EXCEPTION : Half := 0xF

abbrev INTERRUPT : Half := 0xE

section Setup

variable (unit : PointerUnit) (code : WordMemory)

/-- The first word of a gate. -/
def gateHead (call : GateCall) : Word :=
  let ins := code call.ins
  ((ins <<< 48) >>> 48) ||| ((ins >>> 16) <<< 48) |||
    (shl call.gdt_segsel 16 ||| shl call.tss_entry 32 ||| shl call.gate_type 40 |||
      shl call.privilege_level 45).setWidth 64 |||
    (1#64 <<< 47)

/-- `Idescriptor_insert` at word `target`. -/
def idescriptorInsert (table : GateTable) (target : Nat) (call : GateCall) : GateTable :=
  Function.update (Function.update table target (gateHead code call)) (target + 1)
    ((code call.ins >>> 32) <<< 32)

/-- `memset(target,0,16)`. -/
def clearGate (table : GateTable) (target : Nat) : GateTable :=
  Function.update (Function.update table target 0) (target + 1) 0

/-- What `setup_idt` keeps between its loops. -/
structure IdtState where
  table : GateTable
  target : Nat
  ist : Half

variable (routines : Nat → Word)

/-- A loop over the vectors from `i` on, with the gate for a vector and `ist`. -/
def insertLoop (call : Nat → Half → GateCall) : Nat → Nat → IdtState → IdtState
  | 0, _, s => s
  | left + 1, i, s =>
      let s := if routines i = 0 then s
        else { s with
          table := idescriptorInsert code s.table s.target (call i s.ist)
          target := s.target + unit.step }
      insertLoop call left (i + 1) { s with ist := s.ist + 1 }

/-- The loop that clears the places behind the gates. -/
def clearLoop : Nat → IdtState → IdtState
  | 0, s => s
  | left + 1, s =>
      clearLoop left { s with
        table := clearGate s.table s.target
        target := s.target + unit.step }

/-- The handlers that `setup_idt` makes or names, and the base of the kernel's code. -/
structure Handlers where
  exception_handler_template : Nat → Word
  device_interrupt_handler_template : Nat → Word
  wake : Word
  kernelcode : Word

variable (handlers : Handlers)

/-- The gate of one of the first 32 vectors. -/
def exceptionCall (i : Nat) (ist : Half) : GateCall :=
  ⟨handlers.exception_handler_template i + handlers.kernelcode, BitVec.ofNat 32 (i + 1),
    ist / 16, EXCEPTION, 0⟩

/-- The second gate of vector 3, which userspace may use. -/
def breakpointCall : GateCall :=
  ⟨routines 3 + handlers.kernelcode, 33, 48, EXCEPTION, 3⟩

/-- The gate of an interrupt of the operating system. -/
def osCall (i : Nat) (ist : Half) : GateCall :=
  ⟨routines i + handlers.kernelcode, BitVec.ofNat 32 (i + 1), ist / 8, INTERRUPT, 0⟩

/-- The gate of a device interrupt. -/
def deviceCall (i : Nat) (ist : Half) : GateCall :=
  ⟨handlers.device_interrupt_handler_template i + handlers.kernelcode,
    BitVec.ofNat 32 (i + 1), ist / 8, INTERRUPT, 0⟩

/-- The gate of vector 255. -/
def wakeCall : GateCall :=
  ⟨handlers.wake + handlers.kernelcode, 256, 7, INTERRUPT, 0⟩

/-- `setup_idt`, over what the memory of the table held. -/
def setupIdt (table : GateTable) : GateTable :=
  let s := insertLoop unit code routines (exceptionCall handlers) 32 0 ⟨table, 0, 1⟩
  let s := { s with
    ist := 48
    table := idescriptorInsert code s.table (3 * unit.step)
      (breakpointCall routines handlers) }
  let s := insertLoop unit code routines (osCall routines handlers) 32 32 s
  let s := insertLoop unit code routines (deviceCall handlers) 96 32 s
  let s := clearLoop unit 143 s
  idescriptorInsert code s.table (255 * unit.step) (wakeCall handlers)

end Setup

section Specification

/-- A gate as the processor reads it. -/
structure Gate where
  offset : Word
  selector : BitVec 16
  stack : BitVec 3
  type : BitVec 4
  privilege : BitVec 2
  present : Bool

/-- The 16 bytes of a vector's gate, decoded. -/
def decodeGate (table : GateTable) (v : Nat) : Gate :=
  let head := table (2 * v)
  let tail := table (2 * v + 1)
  { offset := tail.extractLsb' 0 32 ++ head.extractLsb' 48 16 ++ head.extractLsb' 0 16
    selector := head.extractLsb' 16 16
    stack := head.extractLsb' 32 3
    type := head.extractLsb' 40 4
    privilege := head.extractLsb' 45 2
    present := head.getLsbD 47 }

/-- The gate says what was given for it. -/
structure Gate.Describes (gate : Gate) (call : GateCall) : Prop where
  present : gate.present = true
  offset : gate.offset = call.ins
  selector : gate.selector.setWidth 32 = call.gdt_segsel
  stack : gate.stack.setWidth 32 = call.tss_entry
  type : gate.type.setWidth 32 = call.gate_type
  privilege : gate.privilege.setWidth 32 = call.privilege_level

variable (routines : Nat → Word) (handlers : Handlers)

/-- The gates that `setup_idt` chooses for a vector; `ist` counts the vectors of its
loops. -/
def chosenGates (v : Nat) : List GateCall :=
  (if v < 32 ∧ routines v ≠ 0 then [exceptionCall handlers v (BitVec.ofNat 32 (v + 1))] else []) ++
    (if v = 3 then [breakpointCall routines handlers] else []) ++
    (if 32 ≤ v ∧ v < 64 ∧ routines v ≠ 0 then
      [osCall routines handlers v (BitVec.ofNat 32 (v + 16))] else []) ++
    (if 32 ≤ v ∧ v < 128 ∧ routines v ≠ 0 then
      [deviceCall handlers v (BitVec.ofNat 32 (v + 48))] else []) ++
    (if v = 255 then [wakeCall handlers] else [])

/-- The gate of a vector is one that was chosen for it, or not present when there is
none and no routine either. -/
structure GateRight (table : GateTable) (v : Nat) : Prop where
  assigned :
    chosenGates routines handlers v ≠ [] →
      ∃ call, call ∈ chosenGates routines handlers v ∧ (decodeGate table v).Describes call
  absent :
    chosenGates routines handlers v = [] → routines v = 0 →
      (decodeGate table v).present = false

/-- How many of the vectors from `i` on have a routine. -/
def routineCount (i left : Nat) : Nat :=
  ((List.range' i left).filter fun i => routines i ≠ 0).length

/-- The gates that the loops write. -/
def gateCount : Nat :=
  routineCount routines 0 32 + routineCount routines 32 32 + routineCount routines 32 96

/-- What becomes of the gate of a vector. -/
inductive GateFate where
  | written
  | cleared
  | untouched
deriving DecidableEq

/-- The gates are written from place 0 on and at place 255, and 143 places behind them
are cleared. -/
def gateFate (unit : PointerUnit) (v : Nat) : GateFate :=
  if 2 * v % unit.step ≠ 0 then .untouched
  else if 2 * v / unit.step < gateCount routines ∨ 2 * v / unit.step = 255 then .written
  else if 2 * v / unit.step < gateCount routines + 143 then .cleared
  else .untouched

/-- The vectors whose gate comes out right. -/
def GateSafe (unit : PointerUnit) (table : GateTable) (v : Nat) : Prop :=
  match gateFate routines unit v with
  -- A vector above 127 is not assigned, and where it has a routine nothing is asked.
  | .written => chosenGates routines handlers v = [] ∧ routines v ≠ 0
  | .cleared => chosenGates routines handlers v = []
  | .untouched => GateRight routines handlers table v

end Specification

section Heads

variable (code : WordMemory) (call : GateCall)

/-- The upper half of a gate's first word, below the offset, is bit 47 alone. -/
theorem gateHead_high
    {i : Nat}
    (hlow : 32 ≤ i)
    (hhigh : i < 48) :
    (gateHead code call).getLsbD i = decide (i = 47) := by
  have hout : ¬ i < 32 := by omega
  have hone : (1#64).getLsbD (i - 47) = decide (i - 47 = 0) := by simp
  simp only [gateHead, BitVec.getLsbD_or, BitVec.getLsbD_ushiftRight,
    BitVec.getLsbD_shiftLeft, BitVec.getLsbD_setWidth, hone]
  grind

/-- What the processor reads in a written gate: it is present, and its type is 0. -/
theorem decodeGate_head
    {table : GateTable} {v : Nat}
    (hhead : table (2 * v) = gateHead code call) :
    (decodeGate table v).present = true ∧ (decodeGate table v).type = 0 := by
  constructor
  · simpa [decodeGate, hhead] using gateHead_high code call (i := 47) (by omega) (by omega)
  · apply BitVec.eq_of_getLsbD_eq
    intro i hi
    have hbit := gateHead_high code call (i := 40 + i) (by omega) (by omega)
    have hother : ¬ 40 + i = 47 := by omega
    simpa [decodeGate, hhead, BitVec.getLsbD_extractLsb', hi, hother] using hbit

/-- Every gate that is chosen is for an exception or an interrupt. -/
theorem chosenGates_type
    {routines : Nat → Word} {handlers : Handlers} {v : Nat}
    (hcall : call ∈ chosenGates routines handlers v) :
    call.gate_type = EXCEPTION ∨ call.gate_type = INTERRUPT := by
  simp only [chosenGates, List.mem_append, List.mem_ite_nil_right, List.mem_singleton] at hcall
  rcases hcall with (((⟨-, rfl⟩ | ⟨-, rfl⟩) | ⟨-, rfl⟩) | ⟨-, rfl⟩) | ⟨-, rfl⟩
  all_goals simp [exceptionCall, breakpointCall, osCall, deviceCall, wakeCall]

/-- A gate of type 0 is none that `setup_idt` chooses. -/
theorem not_describes_of_type_zero
    {routines : Nat → Word} {handlers : Handlers} {v : Nat} {gate : Gate}
    (hcall : call ∈ chosenGates routines handlers v)
    (htype : gate.type = 0) :
    ¬ gate.Describes call := by
  intro hdescribes
  have hfield := hdescribes.type
  rw [htype] at hfield
  rcases chosenGates_type call hcall with h | h
  all_goals simp [h] at hfield

end Heads

section Layout

variable (unit : PointerUnit) (code : WordMemory)

/-- The table after `n` gates and `m` cleared places from place 0 on.  The second gate of
vector 3 lies at place 3, so that the first four places count as touched. -/
structure Laid (before : GateTable) (n m : Nat) (s : IdtState) : Prop where
  target : s.target = unit.step * (n + m)
  head : ∀ k, k < n → ∃ call, s.table (unit.step * k) = gateHead code call
  clear : ∀ k, n ≤ k → k < n + m → s.table (unit.step * k) = 0
  frame :
    ∀ p, (∀ k, k < max (n + m) 4 → p ≠ unit.step * k ∧ p ≠ unit.step * k + 1) →
      s.table p = before p

variable {unit code} {before : GateTable} {n m : Nat} {s : IdtState}

/-- Two places are at least two words apart. -/
theorem place_ne
    {j k : Nat}
    (h : j ≠ k) :
    unit.step * j ≠ unit.step * k ∧ unit.step * j ≠ unit.step * k + 1 := by
  cases unit
  all_goals simp only [PointerUnit.step]; omega

/-- The first word of a place that is written. -/
theorem place_head
    (table : GateTable) (target : Nat) (head tail : Word) :
    Function.update (Function.update table target head) (target + 1) tail target = head := by
  rw [Function.update_of_ne (by omega), Function.update_self]

/-- The words outside of a place that is written. -/
theorem place_other
    (table : GateTable) (head tail : Word)
    {target p : Nat}
    (hp : p ≠ target ∧ p ≠ target + 1) :
    Function.update (Function.update table target head) (target + 1) tail p = table p := by
  rw [Function.update_of_ne hp.2, Function.update_of_ne hp.1]

theorem Laid.insert
    (h : Laid unit code before n 0 s)
    (call : GateCall) :
    Laid unit code before (n + 1) 0
      { s with
        table := idescriptorInsert code s.table s.target call
        target := s.target + unit.step } := by
  have htarget : s.target = unit.step * n := h.target
  rw [htarget]
  refine ⟨rfl, ?_, fun k hlow hhigh => absurd hhigh (by omega), ?_⟩
  · intro k hk
    rcases Nat.lt_succ_iff_lt_or_eq.mp hk with hlt | rfl
    · obtain ⟨old, hold⟩ := h.head k hlt
      exact ⟨old, (place_other _ _ _ (place_ne (Nat.ne_of_lt hlt))).trans hold⟩
    · exact ⟨call, place_head _ _ _ _⟩
  · intro p hp
    exact (place_other _ _ _ (hp n (by omega))).trans
      (h.frame p fun k hk => hp k (by omega))

/-- The second gate of vector 3. -/
theorem Laid.breakpoint
    (h : Laid unit code before n 0 s)
    (call : GateCall) (ist : Half) :
    Laid unit code before n 0
      { s with
        ist := ist
        table := idescriptorInsert code s.table (3 * unit.step) call } := by
  rw [Nat.mul_comm 3]
  refine ⟨h.target, ?_, fun k hlow hhigh => absurd hhigh (by omega), ?_⟩
  · intro k hk
    rcases Decidable.em (k = 3) with rfl | hne
    · exact ⟨call, place_head _ _ _ _⟩
    · obtain ⟨old, hold⟩ := h.head k hk
      exact ⟨old, (place_other _ _ _ (place_ne hne)).trans hold⟩
  · intro p hp
    exact (place_other _ _ _ (hp 3 (by omega))).trans (h.frame p hp)

/-- A place is cleared. -/
theorem Laid.clearGate
    (h : Laid unit code before n m s) :
    Laid unit code before n (m + 1)
      { s with
        table := clearGate s.table s.target
        target := s.target + unit.step } := by
  rw [h.target]
  refine ⟨rfl, ?_, ?_, ?_⟩
  · intro k hk
    obtain ⟨old, hold⟩ := h.head k hk
    exact ⟨old, (place_other _ _ _ (place_ne (by omega))).trans hold⟩
  · intro k hlow hhigh
    rcases Decidable.em (k = n + m) with rfl | hne
    · exact place_head _ _ _ _
    · exact (place_other _ _ _ (place_ne hne)).trans (h.clear k hlow (by omega))
  · intro p hp
    exact (place_other _ _ _ (hp (n + m) (by omega))).trans
      (h.frame p fun k hk => hp k (by omega))

/-- `ist` is not part of the table. -/
theorem Laid.ist
    (h : Laid unit code before n m s)
    (ist : Half) :
    Laid unit code before n m { s with ist := ist } :=
  ⟨h.target, h.head, h.clear, h.frame⟩

theorem routineCount_succ
    (routines : Nat → Word) (i left : Nat) :
    routineCount routines i (left + 1) =
      (if routines i = 0 then 0 else 1) + routineCount routines (i + 1) left := by
  rw [routineCount, List.range'_succ, List.filter_cons]
  rcases Decidable.em (routines i = 0) with hroutine | hroutine
  · simp only [hroutine, routineCount, ne_eq, not_true, decide_false, if_true, Nat.zero_add,
      Bool.false_eq_true, if_false]
  · simp only [hroutine, routineCount, ne_eq, not_false_eq_true, decide_true, if_true,
      if_false, List.length_cons, Nat.add_comm]

/-- A loop lays one gate for every routine that it meets. -/
theorem Laid.insertLoop
    (routines : Nat → Word)
    (call : Nat → Half → GateCall)
    (left i : Nat)
    (h : Laid unit code before n 0 s) :
    Laid unit code before (n + routineCount routines i left) 0
      (insertLoop unit code routines call left i s) := by
  induction left generalizing i n s with
  | zero => exact h
  | succ left ih =>
      rw [routineCount_succ, Processors.insertLoop, ← Nat.add_assoc]
      by_cases hroutine : routines i = 0
      · simp only [hroutine, if_true, Nat.add_zero]
        exact ih (i + 1) (h.ist _)
      · simp only [hroutine, if_false]
        exact ih (i + 1) ((h.insert (call i s.ist)).ist _)

theorem Laid.clearLoop
    (left : Nat)
    (h : Laid unit code before n m s) :
    Laid unit code before n (m + left) (clearLoop unit left s) := by
  induction left generalizing m s with
  | zero => exact h
  | succ left ih =>
      rw [Processors.clearLoop, Nat.add_comm left, ← Nat.add_assoc]
      exact ih h.clearGate

end Layout

section Result

variable (unit : PointerUnit) (code : WordMemory)
variable (routines : Nat → Word) (handlers : Handlers) (table : GateTable)

/-- Up to the gate of vector 255, the table holds the gates of the loops and 143 cleared
places behind them. -/
theorem setupIdt_laid :
    ∃ s,
      Laid unit code table (gateCount routines) 143 s ∧
        setupIdt unit code routines handlers table =
          idescriptorInsert code s.table (unit.step * 255) (wakeCall handlers) := by
  have hstart : Laid unit code table 0 0 ⟨table, 0, 1⟩ :=
    ⟨rfl, fun k hk => absurd hk (by omega), fun k _ hk => absurd hk (by omega),
      fun _ _ => rfl⟩
  have hexceptions := hstart.insertLoop routines (exceptionCall handlers) 32 0
  have hbreakpoint := hexceptions.breakpoint (breakpointCall routines handlers) 48
  have hos := hbreakpoint.insertLoop routines (osCall routines handlers) 32 32
  have hdevices := hos.insertLoop routines (deviceCall handlers) 96 32
  have hcleared := hdevices.clearLoop 143
  simp only [Nat.zero_add] at hcleared
  exact ⟨_, hcleared, by rw [setupIdt, Nat.mul_comm 255]⟩

theorem decodeGate_congr
    {table table' : GateTable} {v : Nat}
    (hhead : table (2 * v) = table' (2 * v))
    (htail : table (2 * v + 1) = table' (2 * v + 1)) :
    decodeGate table v = decodeGate table' v := by
  simp only [decodeGate, hhead, htail]

/-- A vector's words, when they are a place. -/
theorem place_of_vector
    {v : Nat}
    (hplace : 2 * v % unit.step = 0) :
    2 * v = unit.step * (2 * v / unit.step) :=
  (Nat.mul_div_cancel' (Nat.dvd_of_mod_eq_zero hplace)).symm

/-- A vector's words, when they are none. -/
theorem vector_ne_place
    {v k : Nat}
    (h : 2 * v % unit.step ≠ 0 ∨ 2 * v / unit.step ≠ k) :
    (2 * v ≠ unit.step * k ∧ 2 * v ≠ unit.step * k + 1) ∧
      (2 * v + 1 ≠ unit.step * k ∧ 2 * v + 1 ≠ unit.step * k + 1) := by
  cases unit
  all_goals
    simp only [PointerUnit.step] at h ⊢
    omega

/-- A vector away from the places that are written or cleared. -/
theorem decodeGate_untouched
    {v : Nat}
    (hfree :
      ∀ k, k < max (gateCount routines + 143) 4 ∨ k = 255 →
        2 * v % unit.step ≠ 0 ∨ 2 * v / unit.step ≠ k) :
    decodeGate (setupIdt unit code routines handlers table) v = decodeGate table v := by
  obtain ⟨s, hlaid, hsetup⟩ := setupIdt_laid unit code routines handlers table
  have hwake := vector_ne_place unit (hfree 255 (Or.inr rfl))
  have hlower := fun k hk => vector_ne_place unit (hfree k (Or.inl hk))
  rw [hsetup]
  apply decodeGate_congr
  · exact (place_other _ _ _ hwake.1).trans (hlaid.frame _ fun k hk => (hlower k hk).1)
  · exact (place_other _ _ _ hwake.2).trans (hlaid.frame _ fun k hk => (hlower k hk).2)

/-- A vector at a place that is written. -/
theorem decodeGate_written
    {v : Nat}
    (hplace : 2 * v % unit.step = 0)
    (hwritten : 2 * v / unit.step < gateCount routines ∨ 2 * v / unit.step = 255) :
    (decodeGate (setupIdt unit code routines handlers table) v).present = true ∧
      (decodeGate (setupIdt unit code routines handlers table) v).type = 0 := by
  obtain ⟨s, hlaid, hsetup⟩ := setupIdt_laid unit code routines handlers table
  have hv := place_of_vector unit hplace
  rw [hsetup]
  rcases Decidable.em (2 * v / unit.step = 255) with hlast | hlast
  · rw [hlast] at hv
    apply decodeGate_head code (wakeCall handlers)
    rw [hv]
    exact place_head _ _ _ _
  · obtain ⟨call, hcall⟩ := hlaid.head _ (hwritten.resolve_right hlast)
    apply decodeGate_head code call
    rw [hv]
    exact (place_other _ _ _ (place_ne hlast)).trans hcall

/-- A vector at a place that is cleared. -/
theorem decodeGate_cleared
    {v : Nat}
    (hplace : 2 * v % unit.step = 0)
    (hlow : gateCount routines ≤ 2 * v / unit.step)
    (hhigh : 2 * v / unit.step < gateCount routines + 143)
    (hlast : 2 * v / unit.step ≠ 255) :
    (decodeGate (setupIdt unit code routines handlers table) v).present = false := by
  obtain ⟨s, hlaid, hsetup⟩ := setupIdt_laid unit code routines handlers table
  have hv := place_of_vector unit hplace
  have hclear : setupIdt unit code routines handlers table (2 * v) = 0 := by
    rw [hsetup, hv]
    exact (place_other _ _ _ (place_ne hlast)).trans (hlaid.clear _ hlow hhigh)
  simp [decodeGate, hclear]

/-- Whether a gate is right depends on what the processor reads of it. -/
theorem gateRight_congr
    {table table' : GateTable} {v : Nat}
    (hsame : decodeGate table v = decodeGate table' v) :
    GateRight routines handlers table v ↔ GateRight routines handlers table' v := by
  constructor
  · rintro ⟨hassigned, habsent⟩
    exact ⟨by rwa [← hsame], by rwa [← hsame]⟩
  · rintro ⟨hassigned, habsent⟩
    exact ⟨by rwa [hsame], by rwa [hsame]⟩

/-- A written gate is right only where none is asked for. -/
theorem gateRight_written_iff
    {v : Nat}
    (hplace : 2 * v % unit.step = 0)
    (hwritten : 2 * v / unit.step < gateCount routines ∨ 2 * v / unit.step = 255) :
    GateRight routines handlers (setupIdt unit code routines handlers table) v ↔
      chosenGates routines handlers v = [] ∧ routines v ≠ 0 := by
  obtain ⟨hpresent, htype⟩ :=
    decodeGate_written unit code routines handlers table hplace hwritten
  constructor
  · intro hright
    have hnone : chosenGates routines handlers v = [] := by
      by_contra hsome
      obtain ⟨call, hcall, hdescribes⟩ := hright.assigned hsome
      exact not_describes_of_type_zero call hcall htype hdescribes
    refine ⟨hnone, fun hroutine => ?_⟩
    exact Bool.false_ne_true ((hright.absent hnone hroutine).symm.trans hpresent)
  · rintro ⟨hnone, hroutine⟩
    exact ⟨fun hsome => absurd hnone hsome, fun _ h => absurd h hroutine⟩

/-- A cleared gate is right where no gate was chosen. -/
theorem gateRight_cleared_iff
    {v : Nat}
    (hplace : 2 * v % unit.step = 0)
    (hlow : gateCount routines ≤ 2 * v / unit.step)
    (hhigh : 2 * v / unit.step < gateCount routines + 143)
    (hlast : 2 * v / unit.step ≠ 255) :
    GateRight routines handlers (setupIdt unit code routines handlers table) v ↔
      chosenGates routines handlers v = [] := by
  have habsent :=
    decodeGate_cleared unit code routines handlers table hplace hlow hhigh hlast
  constructor
  · intro hright
    by_contra hsome
    obtain ⟨call, -, hdescribes⟩ := hright.assigned hsome
    exact Bool.false_ne_true (habsent.symm.trans hdescribes.present)
  · intro hnone
    exact ⟨fun hsome => absurd hnone hsome, fun _ _ => habsent⟩

/-- The gates of an interrupt descriptor table that come out right: no written gate of a
vector that is assigned or has no routine, the cleared gates of vectors that are not
assigned, and the gates that were right before and are not touched. -/
theorem gate_right_iff (v : Nat) :
    GateRight routines handlers (setupIdt unit code routines handlers table) v ↔
      GateSafe routines handlers unit table v := by
  by_cases hplace : 2 * v % unit.step = 0
  · by_cases hwritten : 2 * v / unit.step < gateCount routines ∨ 2 * v / unit.step = 255
    · simpa only [GateSafe, gateFate, hplace, hwritten, ne_eq, not_true, if_false, if_true]
        using gateRight_written_iff unit code routines handlers table hplace hwritten
    · by_cases hcleared : 2 * v / unit.step < gateCount routines + 143
      · simpa only [GateSafe, gateFate, hplace, hwritten, hcleared, ne_eq, not_true, if_false,
          if_true]
          using gateRight_cleared_iff unit code routines handlers table hplace (by omega)
            hcleared (by omega)
      · simpa only [GateSafe, gateFate, hplace, hwritten, hcleared, ne_eq, not_true, if_false]
          using gateRight_congr routines handlers
            (decodeGate_untouched unit code routines handlers table
              (fun k hk => Or.inr (by omega)))
  · simpa only [GateSafe, gateFate, hplace, ne_eq, not_false_eq_true, if_true]
      using gateRight_congr routines handlers
        (decodeGate_untouched unit code routines handlers table
          (fun k _ => Or.inl hplace))

end Result

/-- Only vector 0 has a routine. -/
def syscallRoutine : Nat → Word :=
  fun v => if v = 0 then 0x1000 else 0

/-- Handlers away from the null pointer, and a kernel at address 0. -/
def plainHandlers : Handlers :=
  ⟨fun _ => 0x2000, fun _ => 0x3000, 0x4000, 0⟩

/-- With a single routine in a clear table, the gate of its vector is wrong. -/
theorem syscallGate_not_right :
    ¬ GateRight syscallRoutine plainHandlers
        (setupIdt .words (fun _ => 0) syscallRoutine plainHandlers fun _ => 0) 0 ∧
      ¬ GateRight syscallRoutine plainHandlers
        (setupIdt .bytes (fun _ => 0) syscallRoutine plainHandlers fun _ => 0) 0 := by
  have hcount : 0 < gateCount syscallRoutine := by decide
  constructor
  all_goals
    rw [gateRight_written_iff _ _ _ _ _ rfl (Or.inl hcount)]
    rintro ⟨hnone, -⟩
    simp [chosenGates, syscallRoutine] at hnone

end Processors
end BestKernel
