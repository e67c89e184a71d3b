import BestKernel.Library.Runs
import BestKernel.Library.SlotQueue
import BestKernel.Sched.Signals

/-!
# Pending handlers

`instruction_override` has sixteen slots for the handlers that a thread still has
to run.  `signal_issuer` should append to them and `signal_handler_return` should
take the oldest away, a zero standing for a free slot.

The loop of `signal_issuer` does not stop at the first free slot but writes the
handler into every one, and behind it the kill is raised each time.  So the slots
stop being the queue at the first call (`override_is_queue_iff`).  A thread with
sixteen handlers pending is where `signal_issuer` does what it should and
`signal_handler_return` does not: the last slot stays as it is
(`override_step_iff`).

Readings of the source.  `i` behind the loop is the `i` of the loop.
`signalto_index` is not in the sources and stands for any map of signals to
indices.  The table of handlers is the one that the thread has at the call.
-/

namespace BestKernel
namespace Sched

open Machine
open Runs
open SlotQueue

/-- The length of `instruction_override`. -/
abbrev overrideSlots : Nat := 16

/-- The slots of a thread and the signals of its parent. -/
structure OverrideState where
  instruction_override : Nat → Word
  parent_sigset : Half

/-- The loop of `signal_issuer`, with `left` slots to look at from `i` on: the
slots, and where `i` ends. -/
def issueLoop (insert : Word) : Nat → Nat → (Nat → Word) → (Nat → Word) × Nat
  | 0, i, pointer => (pointer, i)
  | left + 1, i, pointer =>
      issueLoop insert left (i + 1)
        (if pointer i = 0 then Function.update pointer i insert else pointer)

/-- `signal_issuer` for the handler `insert`; the flag says whether the kill was
raised. -/
def signalIssuer (s : OverrideState) (insert : Word) : OverrideState × Bool :=
  let (pointer, i) := issueLoop insert overrideSlots 0 s.instruction_override
  if i = 16 then
    (⟨pointer, raiseSignal s.parent_sigset .SIGKILL⟩, true)
  else (⟨pointer, s.parent_sigset⟩, false)

/-- `codes[i] = codes[i+1]` for `left` slots from `i` on. -/
def shiftLoop : Nat → Nat → (Nat → Word) → (Nat → Word)
  | 0, _, codes => codes
  | left + 1, i, codes =>
      shiftLoop left (i + 1) (Function.update codes i (codes (i + 1)))

/-- `signal_handler_return`. -/
def signalHandlerReturn (s : OverrideState) : OverrideState :=
  { s with instruction_override := shiftLoop 15 0 s.instruction_override }

/-- A call, with the table of handlers that a signal is looked up in. -/
inductive OverrideOp where
  | issue (sighandler : Nat → Word) (signal : Half)
  | handlerReturn

/-- The thread, the handlers that should be pending, and how often the kill was
raised and should have been. -/
structure OverrideHistory where
  thread : OverrideState
  pending : List Word
  raised : Nat
  overflows : Nat

section Queue

variable (signaltoIndex : Half → Nat)

/-- A handler that is issued is not zero. -/
def OverrideStep (s : OverrideHistory) (op : OverrideOp) (s' : OverrideHistory) : Prop :=
  match op with
  | .issue sighandler signal =>
      let insert := sighandler (signaltoIndex signal)
      insert ≠ 0 ∧
        s' = {
          thread := (signalIssuer s.thread insert).1
          pending :=
            if s.pending.length < overrideSlots then s.pending ++ [insert] else s.pending
          raised := if (signalIssuer s.thread insert).2 then s.raised + 1 else s.raised
          overflows :=
            if s.pending.length < overrideSlots then s.overflows else s.overflows + 1 }
  | .handlerReturn =>
      s' = { s with
        thread := signalHandlerReturn s.thread
        pending := s.pending.tail }

/-- The slots are the pending handlers followed by zeros, and the kill was raised
when it should have been. -/
structure OverrideIsQueue (s : OverrideHistory) : Prop where
  holds : Holds 0 overrideSlots s.thread.instruction_override s.pending
  kills : s.raised = s.overflows

/-- Sixteen handlers are pending at an issue, and fewer at a return. -/
def OverrideSafe (s : OverrideHistory) : OverrideOp → Prop
  | .issue _ _ => s.pending.length = overrideSlots
  | .handlerReturn => s.pending.length < overrideSlots

/-- What the loop of `signal_issuer` leaves in a slot. -/
theorem issueLoop_apply
    (insert : Word) (left i j : Nat) (pointer : Nat → Word) :
    (issueLoop insert left i pointer).1 j =
      if (i ≤ j ∧ j < i + left) ∧ pointer j = 0 then insert else pointer j := by
  induction left generalizing i pointer with
  | zero =>
      rw [issueLoop, if_neg (by omega)]
  | succ left ih =>
      rw [issueLoop, ih]
      by_cases hj : j = i
      · subst hj
        rw [if_neg (by omega)]
        by_cases hzero : pointer j = 0
        · rw [if_pos hzero, if_pos ⟨by omega, hzero⟩, Function.update_self]
        · rw [if_neg hzero, if_neg (fun h => hzero h.2)]
      · have hother : (if pointer i = 0 then Function.update pointer i insert else pointer) j =
            pointer j := by
          split_ifs
          · exact Function.update_of_ne hj _ _
          · rfl
        have hrange : (i + 1 ≤ j ∧ j < i + 1 + left) ↔ (i ≤ j ∧ j < i + (left + 1)) := by
          omega
        rw [hother]
        simp only [hrange]

theorem issueLoop_index
    (insert : Word) (left i : Nat) (pointer : Nat → Word) :
    (issueLoop insert left i pointer).2 = i + left := by
  induction left generalizing i pointer with
  | zero => rfl
  | succ left ih =>
      rw [issueLoop, ih]
      omega

/-- The loop of `signal_issuer` fills every zero slot, and the kill is raised. -/
theorem signalIssuer_eq
    (s : OverrideState) (insert : Word) :
    signalIssuer s insert =
      (⟨fill 0 overrideSlots s.instruction_override insert,
        raiseSignal s.parent_sigset .SIGKILL⟩, true) := by
  have hindex := issueLoop_index insert overrideSlots 0 s.instruction_override
  have hslots : (issueLoop insert overrideSlots 0 s.instruction_override).1 =
      fill 0 overrideSlots s.instruction_override insert := by
    funext j
    rw [issueLoop_apply, fill]
    simp
  unfold signalIssuer
  rw [← hslots]
  simp only [hindex]
  rfl

/-- What the loop of `signal_handler_return` leaves in a slot. -/
theorem shiftLoop_apply
    (left i j : Nat) (codes : Nat → Word) :
    shiftLoop left i codes j =
      if i ≤ j ∧ j < i + left then codes (j + 1) else codes j := by
  induction left generalizing i codes with
  | zero =>
      rw [shiftLoop, if_neg (by omega)]
  | succ left ih =>
      rw [shiftLoop, ih]
      by_cases hj : j = i
      · subst hj
        simp
      · rw [Function.update_of_ne hj]
        by_cases hin : i + 1 ≤ j ∧ j < i + 1 + left
        · rw [if_pos hin, if_pos (by omega), Function.update_of_ne (by omega)]
        · rw [if_neg hin, if_neg (by omega)]

theorem signalHandlerReturn_slots
    (s : OverrideState) :
    (signalHandlerReturn s).instruction_override =
      shift overrideSlots s.instruction_override := by
  funext j
  unfold signalHandlerReturn shift
  dsimp only
  rw [shiftLoop_apply]
  have hrange : (0 ≤ j ∧ j < 0 + 15) ↔ j + 1 < overrideSlots := by
    change _ ↔ j + 1 < 16
    omega
  simp only [hrange]

variable {signaltoIndex}

/-- An issue raises a kill and fills all the slots, so it is right when no slot is free. -/
theorem issue_step_iff
    {s s' : OverrideHistory} {sighandler : Nat → Word} {signal : Half}
    (hqueue : OverrideIsQueue s)
    (hstep : OverrideStep signaltoIndex s (.issue sighandler signal) s') :
    OverrideIsQueue s' ↔ s.pending.length = overrideSlots := by
  obtain ⟨hholds, hkills⟩ := hqueue
  obtain ⟨hinsert, rfl⟩ := hstep
  have hfill := hholds.fill hinsert
  constructor
  · rintro ⟨_, hkills'⟩
    by_contra hfull
    have hfree : s.pending.length < overrideSlots :=
      Nat.lt_of_le_of_ne hholds.length_le hfull
    rw [signalIssuer_eq] at hkills'
    dsimp only at hkills'
    rw [if_pos hfree] at hkills'
    simp only [if_true] at hkills'
    omega
  · intro hfull
    have hnotfree : ¬ s.pending.length < overrideSlots := by omega
    rw [hfull, Nat.sub_self, List.replicate_zero, List.append_nil] at hfill
    refine ⟨?_, ?_⟩
    · rw [signalIssuer_eq]
      dsimp only
      rw [if_neg hnotfree]
      exact hfill
    · rw [signalIssuer_eq]
      dsimp only
      rw [if_neg hnotfree, if_pos rfl, hkills]

/-- A return leaves the last slot as it was, so it is right when that slot was zero. -/
theorem handlerReturn_step_iff
    {s s' : OverrideHistory}
    (hqueue : OverrideIsQueue s)
    (hstep : OverrideStep signaltoIndex s .handlerReturn s') :
    OverrideIsQueue s' ↔ s.pending.length < overrideSlots := by
  obtain ⟨hholds, hkills⟩ := hqueue
  obtain rfl := hstep
  constructor
  · rintro ⟨hholds', _⟩
    by_contra hfull
    have hfull' : s.pending.length = overrideSlots :=
      Nat.le_antisymm hholds.length_le (not_lt.mp hfull)
    have hne : s.pending ≠ [] := by
      rintro hnil
      rw [hnil] at hfull'
      cases hfull'
    dsimp only at hholds'
    rw [signalHandlerReturn_slots] at hholds'
    have hlong := congrArg List.length (hholds'.unique (hholds.shift_full hfull' hne))
    rw [List.length_append, List.length_singleton] at hlong
    omega
  · intro hfree
    refine ⟨?_, hkills⟩
    dsimp only
    rw [signalHandlerReturn_slots]
    exact hholds.shift hfree

/-- **The steps that keep the slots a queue.** -/
theorem override_step_iff
    {s s' : OverrideHistory} {op : OverrideOp}
    (hqueue : OverrideIsQueue s)
    (hstep : OverrideStep signaltoIndex s op s') :
    OverrideIsQueue s' ↔ OverrideSafe s op := by
  cases op with
  | issue sighandler signal => exact issue_step_iff hqueue hstep
  | handlerReturn => exact handlerReturn_step_iff hqueue hstep

/-- Nothing is ever pending in a run without an issue. -/
theorem override_stepsMeet_iff
    {s : OverrideHistory} {run : List (OverrideOp × OverrideHistory)}
    (hrun : Run (OverrideStep signaltoIndex) s run)
    (hempty : s.pending = []) :
    StepsMeet OverrideSafe s run ↔ ∀ x, x ∈ run → x.1 = .handlerReturn := by
  induction hrun with
  | nil s => simp [StepsMeet]
  | @cons s s' op rest hstep hrest ih =>
      rw [StepsMeet, List.forall_mem_cons]
      cases op with
      | issue sighandler signal => simp [OverrideSafe, hempty]
      | handlerReturn =>
          have hempty' : s'.pending = [] := by
            obtain rfl := hstep
            simp [hempty]
          rw [ih hempty']
          simp [OverrideSafe, hempty]

/--
**From an empty array on, the slots are the queue of pending handlers exactly as
long as no handler is issued.**
-/
theorem override_is_queue_iff
    {thread : OverrideState} {run : List (OverrideOp × OverrideHistory)}
    (hzero : ∀ i, i < overrideSlots → thread.instruction_override i = 0)
    (hrun : Run (OverrideStep signaltoIndex) ⟨thread, [], 0, 0⟩ run) :
    Always OverrideIsQueue ⟨thread, [], 0, 0⟩ run ↔
      ∀ x, x ∈ run → x.1 = .handlerReturn := by
  have hqueue : OverrideIsQueue ⟨thread, [], 0, 0⟩ := ⟨holds_nil hzero, rfl⟩
  have hmeet : Always OverrideIsQueue ⟨thread, [], 0, 0⟩ run ↔
      StepsMeet OverrideSafe ⟨thread, [], 0, 0⟩ run :=
    always_iff_stepsMeet (fun _ _ _ hkept hstep => override_step_iff hkept hstep) hrun hqueue
  exact hmeet.trans (override_stepsMeet_iff hrun rfl)

end Queue

/-- A thread without pending handlers. -/
def idleThread : OverrideState := ⟨fun _ => 0, 0⟩

/-- A return to a thread without pending handlers. -/
theorem override_is_queue_iff_idle :
    ∃ run, run ≠ [] ∧ Run (OverrideStep BitVec.toNat) ⟨idleThread, [], 0, 0⟩ run ∧
      (Always OverrideIsQueue ⟨idleThread, [], 0, 0⟩ run ↔
        ∀ x, x ∈ run → x.1 = .handlerReturn) := by
  have hrun : Run (OverrideStep BitVec.toNat) ⟨idleThread, [], 0, 0⟩
      [(.handlerReturn, ⟨signalHandlerReturn idleThread, [], 0, 0⟩)] :=
    Run.cons rfl (Run.nil _)
  exact ⟨_, by simp, hrun, override_is_queue_iff (fun _ _ => rfl) hrun⟩

/-- One handler issued to a thread without pending handlers fills all sixteen
slots and raises the kill. -/
theorem breakpoint_not_queued :
    ∃ run, Run (OverrideStep BitVec.toNat) ⟨idleThread, [], 0, 0⟩ run ∧
      ¬ Always OverrideIsQueue ⟨idleThread, [], 0, 0⟩ run := by
  have hstep : OverrideStep BitVec.toNat ⟨idleThread, [], 0, 0⟩
      (.issue (fun _ => 4096) (BitVec.ofNat 32 Signal.BREAKPOINT.code))
      ⟨(signalIssuer idleThread 4096).1, [4096], 1, 0⟩ := by
    refine ⟨by decide, ?_⟩
    rw [signalIssuer_eq]
    rfl
  refine ⟨_, Run.cons hstep (Run.nil _), ?_⟩
  intro halways
  have hkills := (halways.2 _ (List.mem_singleton.mpr rfl)).kills
  exact absurd hkills (by decide)

end Sched
end BestKernel
