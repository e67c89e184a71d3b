import BestKernel.Library.Runs
import BestKernel.Sched.Signals

/-!
# Signal masks

Both forms of `SYS_TSIGMASK` test the mask with the enumerators of `SIGKILL`, `SIGTERM`
and `SIGSTOP`, which are 0, 1 and 2, so they refuse the masks with bit 0 or bit 1.
`signal_handler` tests bit `index`, and only behind its cases for `SIGKILL`, `SIGSTOP`
and `SIGCONT`.

No mask that is accepted has the bit of `SIGTERM`, so none of the three signals is ever
suppressed.  A mask with the bit of `SIGSTOP` alone is accepted, though, one with that of
`SIGCONT` does not suppress it, and nothing reads the mask of the process.
-/

namespace BestKernel
namespace Sched

open Machine

/-- A thread with the mask of its process, and what the last call returned. -/
structure MaskState where
  thread : SignalThread
  process_sigmask : Half
  sys_retval : Nat

/-- The three `CONDITIONAL_SYSRET`s; 0 when none of them returns. -/
def maskRefusal (sigmask : Half) : Nat :=
  if sigmask &&& BitVec.ofNat 32 Signal.SIGKILL.code ≠ 0 then 1
  else if sigmask &&& BitVec.ofNat 32 Signal.SIGTERM.code ≠ 0 then 2
  else if sigmask &&& BitVec.ofNat 32 Signal.SIGSTOP.code ≠ 0 then 3
  else 0

/-- `SYS_TSIGMASK`, with what it stores when it accepts the mask. -/
def sigmaskCall (store : MaskState → Half → MaskState) (s : MaskState) (sigmask : Half) :
    MaskState :=
  if maskRefusal sigmask ≠ 0 then { s with sys_retval := maskRefusal sigmask }
  else { store s sigmask with sys_retval := 0 }

/-- `SYS_TSIGMASK` for the calling thread. -/
def sysTsigmask : MaskState → Half → MaskState :=
  sigmaskCall fun s sigmask => { s with thread := { s.thread with sigmask := sigmask } }

/-- `SYS_TSIGMASK` for the process. -/
def sysPsigmask : MaskState → Half → MaskState :=
  sigmaskCall fun s sigmask => { s with process_sigmask := sigmask }

/-- The calls, and the raise of a signal on the thread. -/
inductive MaskOp where
  | thread (sigmask : Half)
  | process (sigmask : Half)
  | raise (signal : Signal)

def MaskState.raised (s : MaskState) (signal : Signal) : MaskState :=
  { s with thread := { s.thread with sigset := raiseSignal s.thread.sigset signal } }

def MaskStep (s : MaskState) (op : MaskOp) (s' : MaskState) : Prop :=
  match op with
  | .thread sigmask => s' = sysTsigmask s sigmask
  | .process sigmask => s' = sysPsigmask s sigmask
  | .raise signal => s' = s.raised signal

section Specification

/-- The signals that no mask may suppress. -/
def guardedSignals : List Signal :=
  [.SIGKILL, .SIGTERM, .SIGSTOP]

/-- The thread as if its mask were 0. -/
def SignalThread.unmasked (thread : SignalThread) : SignalThread :=
  { thread with sigmask := 0 }

/-- The handling of a signal. -/
def handled (thread : SignalThread) (signal : Signal) : HandlerEnd × SignalThread :=
  signalHandler thread signal.code (BitVec.twoPow 32 signal.code)

/-- The mask makes no difference to the handling of the guarded signals, nor to the
rounds of `check_signals` that look at them, which are the first three. -/
structure Immune (thread : SignalThread) : Prop where
  handler :
    ∀ signal, signal ∈ guardedSignals →
      handled thread.unmasked signal =
        ((handled thread signal).1, (handled thread signal).2.unmasked)
  checks :
    checkThread guardedSignals.length 0 1#32 thread.unmasked [] =
      ((checkThread guardedSignals.length 0 1#32 thread []).1,
        (checkThread guardedSignals.length 0 1#32 thread []).2.1.unmasked,
        (checkThread guardedSignals.length 0 1#32 thread []).2.2)

/-- The mask has the bit of a guarded signal. -/
def Forbidden (sigmask : Half) : Prop :=
  ∃ signal, signal ∈ guardedSignals ∧ sigmask.getLsbD signal.code = true

/-- Under these masks the signal does nothing, whatever the rest of the thread. -/
def Suppresses (thread_sigmask process_sigmask : Half) (signal : Signal) : Prop :=
  ∀ s : MaskState, s.thread.sigmask = thread_sigmask →
    s.process_sigmask = process_sigmask → handled s.thread signal = (.returns 0, s.thread)

/-- A refused call leaves both masks. -/
structure Refused (s s' : MaskState) : Prop where
  reported : s'.sys_retval ≠ 0
  thread : s'.thread.sigmask = s.thread.sigmask
  process : s'.process_sigmask = s.process_sigmask

/-- A call refuses a forbidden mask, and takes every other one, which from then on
suppresses the signals whose bits it has and no others. -/
def CallRight (s : MaskState) (op : MaskOp) (s' : MaskState) : Prop :=
  match op with
  | .thread sigmask =>
      (Forbidden sigmask → Refused s s') ∧
        (¬ Forbidden sigmask → s'.sys_retval = 0 ∧ s'.thread.sigmask = sigmask ∧
          ∀ signal : Signal, Suppresses sigmask 0 signal ↔
            sigmask.getLsbD signal.code = true)
  | .process sigmask =>
      (Forbidden sigmask → Refused s s') ∧
        (¬ Forbidden sigmask → s'.sys_retval = 0 ∧ s'.process_sigmask = sigmask ∧
          ∀ signal : Signal, Suppresses 0 sigmask signal ↔
            sigmask.getLsbD signal.code = true)
  | .raise _ => True

/-- The masks that the calls treat rightly: those that they refuse, and of the others
the ones of a thread without the bits of `SIGSTOP` and `SIGCONT` and the ones of a
process without the bit of any signal. -/
def MaskSafe (_ : MaskState) (op : MaskOp) : Prop :=
  match op with
  | .thread sigmask =>
      sigmask.getLsbD 0 = true ∨ sigmask.getLsbD 1 = true ∨
        sigmask.getLsbD 2 = false ∧ sigmask.getLsbD 3 = false
  | .process sigmask =>
      sigmask.getLsbD 0 = true ∨ sigmask.getLsbD 1 = true ∨
        ∀ signal : Signal, sigmask.getLsbD signal.code = false
  | .raise _ => True

end Specification

section Guards

variable {sigmask : Half}

theorem and_twoPow_eq_zero_iff
    (x : Half) {i : Nat}
    (hi : i < 32) :
    x &&& BitVec.twoPow 32 i = 0 ↔ x.getLsbD i = false := by
  constructor
  · intro h
    have hbit := congrArg (fun y : Half => y.getLsbD i) h
    simpa [hi] using hbit
  · intro h
    rw [BitVec.and_twoPow, h]
    rfl

/-- The guards look at bits 0 and 1. -/
theorem maskRefusal_eq_zero_iff :
    maskRefusal sigmask = 0 ↔ sigmask.getLsbD 0 = false ∧ sigmask.getLsbD 1 = false := by
  have hkill : sigmask &&& BitVec.ofNat 32 Signal.SIGKILL.code = 0 := by
    simp [Signal.code]
  have hterm := and_twoPow_eq_zero_iff sigmask (i := 0) (by decide)
  have hstop := and_twoPow_eq_zero_iff sigmask (i := 1) (by decide)
  rw [show BitVec.twoPow 32 0 = BitVec.ofNat 32 Signal.SIGTERM.code from rfl] at hterm
  rw [show BitVec.twoPow 32 1 = BitVec.ofNat 32 Signal.SIGSTOP.code from rfl] at hstop
  rw [← hterm, ← hstop]
  unfold maskRefusal
  split_ifs with h h' h'' <;> simp_all

theorem forbidden_iff :
    Forbidden sigmask ↔ sigmask.getLsbD 0 = true ∨ sigmask.getLsbD 1 = true ∨
      sigmask.getLsbD 2 = true := by
  simp [Forbidden, guardedSignals, Signal.code]

/-- A call with the outcome of its guards. -/
theorem sigmaskCall_cases
    (store : MaskState → Half → MaskState) (s : MaskState) (sigmask : Half) :
    ((sigmask.getLsbD 0 = true ∨ sigmask.getLsbD 1 = true) ∧ maskRefusal sigmask ≠ 0 ∧
        sigmaskCall store s sigmask = { s with sys_retval := maskRefusal sigmask }) ∨
      (sigmask.getLsbD 0 = false ∧ sigmask.getLsbD 1 = false ∧
        sigmaskCall store s sigmask = { store s sigmask with sys_retval := 0 }) := by
  by_cases hrefused : maskRefusal sigmask = 0
  · rcases maskRefusal_eq_zero_iff.mp hrefused with ⟨hzero, hone⟩
    exact .inr ⟨hzero, hone, if_neg (not_not.mpr hrefused)⟩
  · refine .inl ⟨?_, hrefused, if_pos hrefused⟩
    by_contra hclear
    simp only [not_or, Bool.not_eq_true] at hclear
    exact hrefused (maskRefusal_eq_zero_iff.mpr hclear)

end Guards

section Handling

variable {thread : SignalThread}

theorem signalHandler_sigmask
    (thread : SignalThread) (index : Nat) (signal : Half) :
    (signalHandler thread index signal).2.sigmask = thread.sigmask := by
  unfold signalHandler
  split_ifs <;> rfl

/-- A handler that comes before the test of the mask, or finds the bit clear, does not
depend on the mask. -/
theorem signalHandler_unmasked
    {index : Nat} {signal : Half}
    (h : index = 0 ∨ index = 2 ∨ thread.sigmask &&& signal = 0) :
    signalHandler thread.unmasked index signal =
      ((signalHandler thread index signal).1,
        (signalHandler thread index signal).2.unmasked) := by
  rcases h with rfl | rfl | hclear
  · rfl
  · rfl
  · have hzero : (0 : Half) &&& signal = 0 := BitVec.zero_and
    unfold signalHandler SignalThread.unmasked
    simp only [hclear, hzero, ne_eq, not_true_eq_false, if_false]
    split_ifs <;> rfl

/-- The same for the rounds of `check_signals` over such bits. -/
theorem checkThread_unmasked
    {left i : Nat} {taken : List Nat}
    (h : ∀ j, i ≤ j → j < i + left →
      j = 0 ∨ j = 2 ∨ thread.sigmask &&& BitVec.twoPow 32 j = 0) :
    checkThread left i (BitVec.twoPow 32 i) thread.unmasked taken =
      ((checkThread left i (BitVec.twoPow 32 i) thread taken).1,
        (checkThread left i (BitVec.twoPow 32 i) thread taken).2.1.unmasked,
        (checkThread left i (BitVec.twoPow 32 i) thread taken).2.2) := by
  induction left generalizing i thread taken with
  | zero => rfl
  | succ left ih =>
      have hrest : ∀ j, i + 1 ≤ j → j < i + 1 + left →
          j = 0 ∨ j = 2 ∨ thread.sigmask &&& BitVec.twoPow 32 j = 0 :=
        fun j hj hlast => h j (by omega) (by omega)
      have hmask := signalHandler_sigmask thread i (BitVec.twoPow 32 i)
      rw [checkThread, checkThread, twoPow_mul_two,
        signalHandler_unmasked (h i (Nat.le_refl i) (by omega))]
      rw [show thread.unmasked.sigset = thread.sigset from rfl]
      split_ifs with hset
      · generalize signalHandler thread i (BitVec.twoPow 32 i) = ended at hmask ⊢
        obtain ⟨ending, thread'⟩ := ended
        cases ending with
        | ringthree => rfl
        | returns value =>
            cases value with
            | zero => exact ih (by rw [hmask]; exact hrest)
            | succ value => rfl
      · exact ih hrest

/-- Without the bit of `SIGTERM` in the mask the three signals get through. -/
theorem immune_of_sigterm_clear
    (hterm : thread.sigmask.getLsbD Signal.SIGTERM.code = false) :
    Immune thread := by
  have hclear : thread.sigmask &&& BitVec.twoPow 32 1 = 0 :=
    (and_twoPow_eq_zero_iff _ (by decide)).mpr hterm
  constructor
  · intro signal hsignal
    apply signalHandler_unmasked
    simp only [guardedSignals, List.mem_cons, List.not_mem_nil, or_false] at hsignal
    rcases hsignal with rfl | rfl | rfl
    · exact .inl rfl
    · exact .inr (.inr hclear)
    · exact .inr (.inl rfl)
  · refine checkThread_unmasked (i := 0) fun j _ hj => ?_
    have hcases : j = 0 ∨ j = 1 ∨ j = 2 := by
      simp only [guardedSignals, List.length_cons, List.length_nil] at hj
      omega
    rcases hcases with rfl | rfl | rfl
    · exact .inl rfl
    · exact .inr (.inr hclear)
    · exact .inr (.inl rfl)

/-- Which signals a mask of the thread suppresses. -/
theorem suppresses_iff
    (thread_sigmask process_sigmask : Half) (signal : Signal) :
    Suppresses thread_sigmask process_sigmask signal ↔
      thread_sigmask.getLsbD signal.code = true ∧ signal ≠ .SIGKILL ∧ signal ≠ .SIGSTOP ∧
        signal ≠ .SIGCONT := by
  have hlt : signal.code < 32 := by
    cases signal <;> decide
  have hcancel : cancelStop 2#32 = 0#32 := by
    decide
  constructor
  · intro h
    -- a thread with handlers everywhere, on which `SIGSTOP` is pending
    have hall := h ⟨⟨thread_sigmask, 2#32, fun _ => 1, 0⟩, process_sigmask, 0⟩ rfl rfl
    refine ⟨?_, ?_, ?_, ?_⟩
    · by_contra hbit
      have hclear := (and_twoPow_eq_zero_iff thread_sigmask hlt).mpr (by simpa using hbit)
      rw [handled, signalHandler, hcancel] at hall
      simp only [hclear, ne_eq, not_true_eq_false, if_false] at hall
      split_ifs at hall <;> simp_all
    · rintro rfl
      simp [handled, signalHandler, Signal.code] at hall
    · rintro rfl
      simp [handled, signalHandler, Signal.code] at hall
    · rintro rfl
      simp [handled, signalHandler, Signal.code, hcancel] at hall
  · rintro ⟨hbit, hkill, hstop, hcont⟩ s hmask -
    have hset : ¬ s.thread.sigmask &&& BitVec.twoPow 32 signal.code = 0 := by
      rw [and_twoPow_eq_zero_iff _ hlt, hmask, hbit]
      simp
    unfold handled signalHandler
    cases signal <;> simp_all [Signal.code]

end Handling

section Calls

variable {s s' : MaskState} {op : MaskOp}

/-- No call leaves a thread mask with the bit of `SIGTERM`. -/
theorem maskStep_sigterm
    (hs : s.thread.sigmask.getLsbD Signal.SIGTERM.code = false)
    (hstep : MaskStep s op s') :
    s'.thread.sigmask.getLsbD Signal.SIGTERM.code = false := by
  cases op with
  | thread sigmask =>
      cases hstep
      rcases sigmaskCall_cases (fun s sigmask =>
        { s with thread := { s.thread with sigmask := sigmask } }) s sigmask with
        ⟨-, -, hcall⟩ | ⟨-, hone, hcall⟩
      · rw [sysTsigmask, hcall]
        exact hs
      · rw [sysTsigmask, hcall]
        exact hone
  | process sigmask =>
      cases hstep
      rcases sigmaskCall_cases (fun s sigmask => { s with process_sigmask := sigmask })
        s sigmask with ⟨-, -, hcall⟩ | ⟨-, -, hcall⟩
      · rw [sysPsigmask, hcall]
        exact hs
      · rw [sysPsigmask, hcall]
        exact hs
  | raise signal =>
      cases hstep
      exact hs

theorem thread_call_right_iff
    (s : MaskState) (sigmask : Half) :
    CallRight s (.thread sigmask) (sysTsigmask s sigmask) ↔ MaskSafe s (.thread sigmask) := by
  simp only [CallRight, MaskSafe, forbidden_iff]
  rcases sigmaskCall_cases (fun s sigmask =>
    { s with thread := { s.thread with sigmask := sigmask } }) s sigmask with
    ⟨hbit, hrefused, hcall⟩ | ⟨hzero, hone, hcall⟩
  · rw [sysTsigmask, hcall]
    refine iff_of_true ⟨fun _ => ⟨hrefused, rfl, rfl⟩, fun hallowed => ?_⟩ ?_
    · exact absurd (hbit.imp_right .inl) hallowed
    · exact hbit.imp_right .inl
  · rw [sysTsigmask, hcall]
    simp only [hzero, hone, Bool.false_eq_true, false_or, suppresses_iff]
    constructor
    · rintro ⟨hrefuses, hallows⟩
      have htwo : ¬ sigmask.getLsbD 2 = true :=
        fun hset => (hrefuses hset).reported rfl
      refine ⟨Bool.eq_false_iff.mpr htwo, ?_⟩
      by_contra hset
      have hcont := ((hallows htwo).2.2 .SIGCONT).mpr (eq_true_of_ne_false hset)
      exact hcont.2.2.2 rfl
    · rintro ⟨htwo, hthree⟩
      refine ⟨fun hset => absurd hset (Bool.eq_false_iff.mp htwo),
        fun _ => ⟨trivial, trivial, fun signal => ?_⟩⟩
      constructor
      · exact fun h => h.1
      · intro hset
        refine ⟨hset, ?_, ?_, ?_⟩
        · rintro rfl
          exact absurd hset (Bool.eq_false_iff.mp hzero)
        · rintro rfl
          exact absurd hset (Bool.eq_false_iff.mp htwo)
        · rintro rfl
          exact absurd hset (Bool.eq_false_iff.mp hthree)

theorem process_call_right_iff
    (s : MaskState) (sigmask : Half) :
    CallRight s (.process sigmask) (sysPsigmask s sigmask) ↔ MaskSafe s (.process sigmask) := by
  simp only [CallRight, MaskSafe, forbidden_iff]
  rcases sigmaskCall_cases (fun s sigmask => { s with process_sigmask := sigmask })
    s sigmask with ⟨hbit, hrefused, hcall⟩ | ⟨hzero, hone, hcall⟩
  · rw [sysPsigmask, hcall]
    refine iff_of_true ⟨fun _ => ⟨hrefused, rfl, rfl⟩, fun hallowed => ?_⟩ ?_
    · exact absurd (hbit.imp_right .inl) hallowed
    · exact hbit.imp_right .inl
  · rw [sysPsigmask, hcall]
    -- the mask of the process suppresses nothing
    have hnothing : ∀ signal, ¬ Suppresses 0 sigmask signal := by
      intro signal h
      have hbit := ((suppresses_iff _ _ _).mp h).1
      simp at hbit
    simp only [hzero, hone, Bool.false_eq_true, false_or]
    constructor
    · rintro ⟨hrefuses, hallows⟩ signal
      have htwo : ¬ sigmask.getLsbD 2 = true :=
        fun hset => (hrefuses hset).reported rfl
      by_contra hset
      exact hnothing signal (((hallows htwo).2.2 signal).mpr (by simpa using hset))
    · intro hclear
      have htwo : ¬ sigmask.getLsbD 2 = true :=
        Bool.eq_false_iff.mp (hclear .SIGSTOP)
      refine ⟨fun hset => absurd hset htwo, fun _ => ⟨trivial, trivial, fun signal => ?_⟩⟩
      exact iff_of_false (hnothing signal) (by simp [hclear signal])

theorem call_right_iff
    (hstep : MaskStep s op s') :
    CallRight s op s' ↔ MaskSafe s op := by
  cases op with
  | thread sigmask =>
      cases hstep
      exact thread_call_right_iff s sigmask
  | process sigmask =>
      cases hstep
      exact process_call_right_iff s sigmask
  | raise signal => exact Iff.rfl

end Calls

/-- **In every run from a mask of 0 the guarded signals get through in every state, and
every call is right exactly when its mask is safe.** -/
theorem masks_right_iff
    {s : MaskState} {run : List (MaskOp × MaskState)}
    (hrun : Runs.Run MaskStep s run)
    (hs : s.thread.sigmask = 0) :
    Runs.Always (fun t => Immune t.thread) s run ∧
      (Runs.EveryStep CallRight s run ↔ Runs.StepsMeet MaskSafe s run) := by
  have hstart : s.thread.sigmask.getLsbD Signal.SIGTERM.code = false := by
    simp [hs]
  constructor
  · have hclear := Runs.always_of_preserved
      (P := fun t : MaskState => t.thread.sigmask.getLsbD Signal.SIGTERM.code = false)
      (fun _ _ _ ht hstep => maskStep_sigterm ht hstep) hrun hstart
    exact hclear.mono fun _ ht => immune_of_sigterm_clear ht
  · exact Runs.everyStep_iff_stepsMeet (I := fun _ => True) (R := CallRight) (C := MaskSafe)
      (fun _ _ _ _ _ => trivial) (fun _ _ _ _ hstep => call_right_iff hstep) hrun trivial

/-- A fresh thread of a fresh process. -/
def freshMasks : MaskState :=
  ⟨⟨0, 0, fun _ => 0, 0⟩, 0, 1⟩

/-- The thread masks `SIGOFLOW`, is refused the mask of `SIGTERM` for its process, and
`SIGOFLOW` is raised on it. -/
def freshRun : List (MaskOp × MaskState) :=
  let masked := sysTsigmask freshMasks 16
  let refused := sysPsigmask masked 2
  [(.thread 16, masked), (.process 2, refused), (.raise .SIGOFLOW, refused.raised .SIGOFLOW)]

theorem masks_right_iff_fresh :
    Runs.Run MaskStep freshMasks freshRun ∧ freshMasks.thread.sigmask = 0 ∧
      Runs.Always (fun t => Immune t.thread) freshMasks freshRun ∧
      Runs.EveryStep CallRight freshMasks freshRun := by
  have hrun : Runs.Run MaskStep freshMasks freshRun :=
    .cons rfl (.cons rfl (.cons rfl (.nil _)))
  obtain ⟨himmune, hright⟩ := masks_right_iff hrun rfl
  have hsafe : Runs.StepsMeet MaskSafe freshMasks freshRun :=
    ⟨Or.inr (Or.inr (by decide)), Or.inr (Or.inl (by decide)), trivial, trivial⟩
  exact ⟨hrun, rfl, himmune, hright.mpr hsafe⟩

/-- `SYS_TSIGMASK(4)`: the bit of `SIGSTOP` alone is accepted. -/
theorem sigstop_accepted :
    MaskStep freshMasks (.thread 4) (sysTsigmask freshMasks 4) ∧
      (sysTsigmask freshMasks 4).sys_retval = 0 ∧
      ¬ CallRight freshMasks (.thread 4) (sysTsigmask freshMasks 4) := by
  refine ⟨rfl, by decide, ?_⟩
  rintro ⟨hrefuses, -⟩
  exact (hrefuses ⟨.SIGSTOP, by decide, by decide⟩).reported (by decide)

end Sched
end BestKernel
