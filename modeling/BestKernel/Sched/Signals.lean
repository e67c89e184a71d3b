import BestKernel.Library.Loops
import BestKernel.Library.Words
import Mathlib.Data.Finset.Max

/-!
# Signals, raised and observed

A signal is raised by `sigset |= signals::S`, which takes the enumerator for a
mask; `check_signals` and `signal_handler` take it for the index of a bit.  The
enumerators count up from 0, so `SIGKILL` raises nothing at all, and no set of
signals is raised the way it is tested (`signals_observed_iff`): the one with the
largest number never is.

Readings of the source.  The semicolons in the enumeration are commas.  The `i`
of the loop over the signals of the process is the one that the first loop leaves
behind.  `TKILL` and `PKILL` are the ends of their branches.
-/

namespace BestKernel
namespace Sched

open Machine

/-- `namespace signals`. -/
inductive Signal where
  | SIGKILL
  | SIGTERM
  | SIGSTOP
  | SIGCONT
  | SIGOFLOW
  | SIGFPE
  | SIGSIMD
  | BREAKPOINT
  | SIGPOLLING
  | SIGUSR0
  | SIGUSR1
  | SIGUSR2
  | SIGUSR3
  | SIGUSR4
  | SIGUSR5
deriving DecidableEq, Repr

/-- The value of the enumerator. -/
def Signal.code : Signal → Nat
  | .SIGKILL => 0
  | .SIGTERM => 1
  | .SIGSTOP => 2
  | .SIGCONT => 3
  | .SIGOFLOW => 4
  | .SIGFPE => 5
  | .SIGSIMD => 6
  | .BREAKPOINT => 7
  | .SIGPOLLING => 8
  | .SIGUSR0 => 9
  | .SIGUSR1 => 10
  | .SIGUSR2 => 11
  | .SIGUSR3 => 12
  | .SIGUSR4 => 13
  | .SIGUSR5 => 14

/-- `#define MAXSIG SIGUSR5`. -/
abbrev MAXSIG : Nat := Signal.SIGUSR5.code

/-- `sigset |= signals::S`. -/
def raiseSignal (sigset : Half) (signal : Signal) : Half :=
  sigset ||| BitVec.ofNat 32 signal.code

/-- A set after a sequence of raises. -/
def raiseAll (signals : List Signal) : Half :=
  signals.foldl raiseSignal 0

/-- `sigset |= SIGSTOP` and `sigset ^= SIGSTOP`. -/
def cancelStop (sigset : Half) : Half :=
  raiseSignal sigset .SIGSTOP ^^^ BitVec.ofNat 32 Signal.SIGSTOP.code

/-- A thread as far as signals go. -/
structure SignalThread where
  sigmask : Half
  sigset : Half
  sighandlers : Nat → Word
  instruction_pointer : Word

/-- How `signal_handler` ends: with a value, or in ring three. -/
inductive HandlerEnd where
  | returns (value : Nat)
  | ringthree
deriving DecidableEq

/-- `signal_handler`. -/
def signalHandler (thread : SignalThread) (index : Nat) (signal : Half) :
    HandlerEnd × SignalThread :=
  if index = Signal.SIGKILL.code then (.returns 1, thread)
  else if index = Signal.SIGSTOP.code then (.returns 1, thread)
  else if index = Signal.SIGCONT.code then
    (.returns 0, { thread with sigset := cancelStop thread.sigset })
  else if thread.sigmask &&& signal ≠ 0 then (.returns 0, thread)
  else if thread.sighandlers index ≠ 0 then
    (.ringthree, { thread with
      instruction_pointer := thread.sighandlers index
      sigset := raiseSignal thread.sigset .SIGKILL })
  else (.returns 0, thread)

/-- What a run of `check_signals` did: the indices whose branch was taken, for the
thread and for the process, and what is left of the sets. -/
structure Checked where
  thread_taken : List Nat
  process_taken : List Nat
  thread : SignalThread
  process_sigset : Half

/-- The first loop, with `left` bits to look at from `i` on, whose mask is `g`:
whether it runs to its end, the thread and the branches taken. -/
def checkThread : Nat → Nat → Half → SignalThread → List Nat →
    Bool × SignalThread × List Nat
  | 0, _, _, thread, taken => (true, thread, taken)
  | left + 1, i, g, thread, taken =>
      if thread.sigset &&& g ≠ 0 then
        match signalHandler thread i g with
        | (.returns 0, thread) => checkThread left (i + 1) (g * 2#32) thread (taken ++ [i])
        | (_, thread) => (false, thread, taken ++ [i])
      else checkThread left (i + 1) (g * 2#32) thread taken

/-- One round of the second loop, with the branches taken so far. -/
def processRound (i : Nat) (s : Half × Half × List Nat) :
    (Half × Half × List Nat) ⊕ (Half × List Nat) :=
  let (g, sigset, taken) := s
  if ¬ i < MAXSIG then .inr (sigset, taken)
  else if sigset &&& g ≠ 0 then
    if g.toNat = Signal.SIGKILL.code then .inr (sigset, taken ++ [g.toNat])
    else if g.toNat = Signal.SIGCONT.code then
      .inl (g + 1, cancelStop sigset, taken ++ [g.toNat])
    else .inl (g + 1, sigset, taken)
  else .inl (g + 1, sigset, taken)

/-- `check_signals`. -/
def checkSignals (fuel : Nat) (thread : SignalThread) (process_sigset : Half) :
    Option Checked :=
  match checkThread MAXSIG 0 1#32 thread [] with
  | (false, thread, taken) => some ⟨taken, [], thread, process_sigset⟩
  | (true, thread, taken) =>
      (Loops.run (processRound MAXSIG) fuel (0, process_sigset, [])).map
        fun (process_sigset, process_taken) =>
          ⟨taken, process_taken, thread, process_sigset⟩

/-- The test of `getnext_thread`. -/
def killTest (process_sigset : Half) : Bool :=
  process_sigset &&& BitVec.ofNat 32 Signal.SIGKILL.code != 0

/--
After the raises `mine` on the thread and `ours` on its process, `check_signals`
ends, the branches taken are those of the signals raised, `SIGCONT` cancels
nothing but `SIGSTOP`, and the test for `SIGKILL` is right.
-/
def SignalsObserved (thread : SignalThread) (mine ours : List Signal) : Prop :=
  (∃ fuel r, checkSignals fuel { thread with sigset := raiseAll mine } (raiseAll ours) =
      some r ∧
    (∀ signal : Signal, signal.code ∈ r.thread_taken ↔ signal ∈ mine) ∧
    (∀ signal : Signal, signal.code ∈ r.process_taken ↔ signal ∈ ours) ∧
    (Signal.SIGCONT.code ∈ r.thread_taken →
      ∀ signal : Signal, signal ≠ .SIGSTOP →
        r.thread.sigset.getLsbD signal.code = (raiseAll mine).getLsbD signal.code)) ∧
  (killTest (raiseAll ours) = true ↔ Signal.SIGKILL ∈ ours)

section Raised

variable {signals : List Signal} {sigset : Half}

/-- Bit `i` is set by the enumerators that have it. -/
theorem getLsbD_foldl_raiseSignal (i : Nat) :
    (signals.foldl raiseSignal sigset).getLsbD i = true ↔
      sigset.getLsbD i = true ∨
        ∃ signal, signal ∈ signals ∧ (BitVec.ofNat 32 signal.code).getLsbD i = true := by
  induction signals generalizing sigset with
  | nil => simp
  | cons signal signals ih =>
      rw [List.foldl_cons, ih, raiseSignal, BitVec.getLsbD_or, Bool.or_eq_true]
      simp [or_assoc]

/-- No enumerator up to `n` has bit `n`. -/
theorem getLsbD_code_of_le
    {signal : Signal} {n : Nat}
    (h : signal.code ≤ n) :
    (BitVec.ofNat 32 signal.code).getLsbD n = false := by
  rw [BitVec.getLsbD_ofNat, Nat.testBit_lt_two_pow (Nat.lt_of_le_of_lt h Nat.lt_two_pow_self),
    Bool.and_false]

/-- **The raised signal with the largest number is not set.** -/
theorem exists_raised_not_set
    (h : signals ≠ []) :
    ∃ signal, signal ∈ signals ∧ (raiseAll signals).getLsbD signal.code = false := by
  obtain ⟨signal, hmem, hmax⟩ := Finset.exists_max_image signals.toFinset Signal.code
    (by simpa [List.toFinset_nonempty_iff] using h)
  refine ⟨signal, List.mem_toFinset.mp hmem, ?_⟩
  rw [← Bool.not_eq_true, raiseAll, getLsbD_foldl_raiseSignal]
  rintro (hzero | ⟨other, hother, hset⟩)
  · simp at hzero
  · rw [getLsbD_code_of_le (hmax other (List.mem_toFinset.mpr hother))] at hset
    cases hset

end Raised

section Checks

variable {thread : SignalThread} {left i : Nat} {taken : List Nat}

/-- A handler sets no bit. -/
theorem signalHandler_sigset
    (index : Nat) (signal : Half) {j : Nat}
    (h : (signalHandler thread index signal).2.sigset.getLsbD j = true) :
    thread.sigset.getLsbD j = true := by
  unfold signalHandler at h
  split_ifs at h
  · exact h
  · exact h
  · -- what `SIGSTOP` sets is taken back at once
    dsimp only at h
    rw [cancelStop, raiseSignal, BitVec.getLsbD_xor, BitVec.getLsbD_or] at h
    revert h
    cases thread.sigset.getLsbD j <;> simp
  · exact h
  · dsimp only at h
    rw [raiseSignal, BitVec.getLsbD_or] at h
    simpa [Signal.code] using h
  · exact h

theorem getLsbD_of_and_twoPow
    {x : Half} {i : Nat}
    (h : x &&& BitVec.twoPow 32 i ≠ 0) :
    x.getLsbD i = true := by
  rw [BitVec.and_twoPow] at h
  by_contra hbit
  rw [if_neg hbit] at h
  exact h rfl

theorem twoPow_mul_two (i : Nat) :
    BitVec.twoPow 32 i * 2#32 = BitVec.twoPow 32 (i + 1) := by
  rw [show 2#32 = BitVec.twoPow 32 1 from rfl, BitVec.twoPow_mul_twoPow_eq]

/-- A branch is taken for a bit of the set only. -/
theorem checkThread_taken
    {j : Nat}
    (h : j ∈ (checkThread left i (BitVec.twoPow 32 i) thread taken).2.2) :
    j ∈ taken ∨ thread.sigset.getLsbD j = true := by
  induction left generalizing i thread taken with
  | zero => exact Or.inl h
  | succ left ih =>
      rw [checkThread] at h
      split_ifs at h with hset
      · have hbit := getLsbD_of_and_twoPow hset
        have hhandler : (signalHandler thread i (BitVec.twoPow 32 i)).2.sigset.getLsbD j =
            true → thread.sigset.getLsbD j = true :=
          signalHandler_sigset i (BitVec.twoPow 32 i)
        have happend : j ∈ taken ++ [i] → j ∈ taken ∨ thread.sigset.getLsbD j = true := by
          intro hmem
          rcases List.mem_append.mp hmem with hold | hnew
          · exact Or.inl hold
          · rw [List.mem_singleton.mp hnew]
            exact Or.inr hbit
        generalize signalHandler thread i (BitVec.twoPow 32 i) = handled at h hhandler
        obtain ⟨ending, thread'⟩ := handled
        split at h
        · rename_i heq
          cases heq
          rw [twoPow_mul_two] at h
          rcases ih h with hold | hkept
          · exact happend hold
          · exact Or.inr (hhandler hkept)
        · exact happend h
      · rw [twoPow_mul_two] at h
        exact ih h

/-- The loop over the signals of the process stops before it starts. -/
theorem processRound_maxsig (s : Half × Half × List Nat) :
    processRound MAXSIG s = .inr (s.2.1, s.2.2) := by
  unfold processRound
  dsimp only
  rw [if_pos (Nat.lt_irrefl _)]

/-- **`check_signals` takes no branch for the process.** -/
theorem checkSignals_taken
    {fuel : Nat} {process_sigset : Half} {r : Checked}
    (h : checkSignals fuel thread process_sigset = some r) :
    r.thread_taken = (checkThread MAXSIG 0 1#32 thread []).2.2 ∧ r.process_taken = [] := by
  unfold checkSignals at h
  split at h
  · rename_i hloop
    cases h
    rw [hloop]
    exact ⟨rfl, rfl⟩
  · rename_i hloop
    obtain ⟨⟨sigset, taken⟩, hrun, heq⟩ := Option.map_eq_some_iff.mp h
    cases heq
    have hnone : taken = [] := by
      cases fuel with
      | zero => cases hrun
      | succ fuel =>
          rw [Loops.run_exit (processRound_maxsig _)] at hrun
          cases hrun
          rfl
    rw [hloop]
    exact ⟨rfl, hnone⟩

/-- An empty set is passed over. -/
theorem checkThread_zero
    (h : thread.sigset = 0)
    (left i : Nat) (g : Half) (taken : List Nat) :
    checkThread left i g thread taken = (true, thread, taken) := by
  induction left generalizing i g with
  | zero => rfl
  | succ left ih =>
      rw [checkThread, h, if_neg (by simp)]
      exact ih (i + 1) (g * 2#32)

end Checks

/-- **Signals are observed as they were raised exactly when none was raised.** -/
theorem signals_observed_iff
    (thread : SignalThread) (mine ours : List Signal) :
    SignalsObserved thread mine ours ↔ mine = [] ∧ ours = [] := by
  constructor
  · rintro ⟨⟨fuel, r, hcheck, hmine, hours, _⟩, _⟩
    obtain ⟨htaken, hnone⟩ := checkSignals_taken hcheck
    constructor
    · by_contra hraised
      obtain ⟨signal, hmem, hclear⟩ := exists_raised_not_set hraised
      have htaken' := (hmine signal).mpr hmem
      rw [htaken, ← BitVec.twoPow_zero] at htaken'
      rcases checkThread_taken htaken' with hold | hset
      · cases hold
      · exact absurd hset (by simp [hclear])
    · by_contra hraised
      obtain ⟨signal, hmem⟩ := List.exists_mem_of_ne_nil ours hraised
      have htaken' := (hours signal).mpr hmem
      rw [hnone] at htaken'
      cases htaken'
  · rintro ⟨rfl, rfl⟩
    have hcheck : checkSignals 1 { thread with sigset := raiseAll [] } (raiseAll []) =
        some ⟨[], [], { thread with sigset := raiseAll [] }, raiseAll []⟩ := by
      unfold checkSignals
      rw [checkThread_zero rfl]
      dsimp only
      rw [Loops.run_exit (processRound_maxsig _)]
      rfl
    refine ⟨⟨1, _, hcheck, by simp, by simp, by simp⟩, ?_⟩
    simp [killTest, raiseAll, Signal.code]

/-- `SYS_PEXIT` of a process with nothing else raised. -/
theorem pexit_not_observed :
    killTest (raiseAll [.SIGKILL]) = false ∧
      ¬ SignalsObserved ⟨0, 0, fun _ => 0, 0⟩ [] [.SIGKILL] := by
  refine ⟨by decide, ?_⟩
  rintro ⟨_, htest⟩
  exact absurd (htest.mpr (by simp)) (by decide)

end Sched
end BestKernel
