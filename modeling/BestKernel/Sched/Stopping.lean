import BestKernel.Sched.SignalMasks

/-!
# Threads that are never continued

`check_signals` gives up a thread as soon as `signal_handler` returns 1 or enters ring three.
The branch for `SIGCONT`, which should let a stopped thread go on, comes behind those of
`SIGKILL`, `SIGTERM` and `SIGSTOP`, and takes back bit 1, which is not the one that
`signal_handler` tests for `SIGSTOP`.

So a thread with one of three kinds of pending signals is caught.  `caught_forever_iff` says
that no signal, no mask and no check ever lets it pass, and that every other thread can be
let pass.

Readings of the source.  `signals::SIGPOLLING` is written into the set as a mask, like the
other enumerators.  A thread passes when the loop over its own signals comes to its end.
-/

namespace BestKernel
namespace Sched

open Machine

/-- What happens to the signals of a thread. -/
inductive SignalOp where
  | signal (signals : Half)
  | sigmask (sigmask : Half)
  | reported
  | received
  | check (process_sigset : Half)

/-- `signals::SIGPOLLING`. -/
def SIGPOLLING : Half := BitVec.ofNat 32 Signal.SIGPOLLING.code

/-- `SYS_TSIGNAL` and every raise, `SYS_TSIGMASK`, `report_IO`, the handlers of the devices
and `check_signals`. -/
def SignalStep (thread : SignalThread) (op : SignalOp) (thread' : SignalThread) : Prop :=
  match op with
  | .signal signals => thread' = { thread with sigset := thread.sigset ||| signals }
  | .sigmask sigmask => thread' = (sysTsigmask ⟨thread, 0, 0⟩ sigmask).thread
  | .reported => thread' = { thread with sigset := thread.sigset ^^^ SIGPOLLING }
  | .received => thread' = { thread with sigset := thread.sigset &&& ~~~ SIGPOLLING }
  | .check process_sigset =>
      ∃ fuel r, checkSignals fuel thread process_sigset = some r ∧ thread' = r.thread

/-- The signals of the thread are all passed over. -/
def SignalThread.Passes (thread : SignalThread) : Prop :=
  (checkThread MAXSIG 0 1#32 thread []).1 = true

/-- A signal is pending that is never passed over. -/
def SignalThread.Caught (thread : SignalThread) : Prop :=
  thread.sigset.getLsbD 0 = true ∨ thread.sigset.getLsbD 2 = true ∨
    (thread.sigset.getLsbD 1 = true ∧ thread.sigmask.getLsbD 1 = false ∧
      thread.sighandlers 1 ≠ 0)

section Rounds

variable {thread thread' : SignalThread} {left i : Nat} {taken : List Nat}

theorem and_twoPow_ne_zero_iff
    (x : Half)
    (hi : i < 32) :
    x &&& BitVec.twoPow 32 i ≠ 0 ↔ x.getLsbD i = true := by
  rw [ne_eq, and_twoPow_eq_zero_iff x hi, Bool.not_eq_false]

variable (left taken) in
/-- A round over a bit that is clear, or whose branch returns 0. -/
theorem checkThread_next
    (hi : i < 32)
    (hset : thread.sigset.getLsbD i = true →
      signalHandler thread i (BitVec.twoPow 32 i) = (.returns 0, thread'))
    (hclear : thread.sigset.getLsbD i = false → thread' = thread) :
    ∃ taken', checkThread (left + 1) i (BitVec.twoPow 32 i) thread taken =
      checkThread left (i + 1) (BitVec.twoPow 32 (i + 1)) thread' taken' := by
  rw [checkThread, twoPow_mul_two]
  cases hbit : thread.sigset.getLsbD i with
  | true =>
      rw [if_pos ((and_twoPow_ne_zero_iff _ hi).mpr hbit), hset hbit]
      exact ⟨_, rfl⟩
  | false =>
      have hnone : ¬ thread.sigset &&& BitVec.twoPow 32 i ≠ 0 := by
        rw [and_twoPow_ne_zero_iff _ hi, hbit]
        exact Bool.false_ne_true
      rw [if_neg hnone, hclear hbit]
      exact ⟨_, rfl⟩

/-- A round whose branch does not return 0. -/
theorem checkThread_stop
    {ending : HandlerEnd}
    (hi : i < 32)
    (hset : thread.sigset.getLsbD i = true)
    (hstop : signalHandler thread i (BitVec.twoPow 32 i) = (ending, thread'))
    (hending : ending ≠ .returns 0) :
    checkThread (left + 1) i (BitVec.twoPow 32 i) thread taken =
      (false, thread', taken ++ [i]) := by
  rw [checkThread, if_pos ((and_twoPow_ne_zero_iff _ hi).mpr hset), hstop]
  cases ending with
  | ringthree => rfl
  | returns value =>
      cases value with
      | zero => exact absurd rfl hending
      | succ value => rfl

/-- The check sets no bit. -/
theorem checkThread_sigset
    {g : Half} {j : Nat}
    (h : (checkThread left i g thread taken).2.1.sigset.getLsbD j = true) :
    thread.sigset.getLsbD j = true := by
  induction left generalizing i g thread taken with
  | zero => exact h
  | succ left ih =>
      rw [checkThread] at h
      split_ifs at h
      · have hhandler := @signalHandler_sigset thread i g j
        split at h
        · rename_i heq
          rw [heq] at hhandler
          exact hhandler (ih h)
        · rename_i heq
          rw [heq] at hhandler
          exact hhandler h
      · exact ih h

variable (left taken) in
/-- The rounds over bits that are clear, or whose branches return 0 and do nothing. -/
theorem checkThread_over
    {n : Nat}
    (hlast : i + n ≤ 32)
    (h : ∀ j, i ≤ j → j < i + n → thread.sigset.getLsbD j = true →
      signalHandler thread j (BitVec.twoPow 32 j) = (.returns 0, thread)) :
    ∃ taken', checkThread (left + n) i (BitVec.twoPow 32 i) thread taken =
      checkThread left (i + n) (BitVec.twoPow 32 (i + n)) thread taken' := by
  induction n generalizing i taken with
  | zero => exact ⟨taken, rfl⟩
  | succ n ih =>
      obtain ⟨taken₁, hnext⟩ := checkThread_next (left + n) taken (by omega : i < 32)
        (h i (Nat.le_refl i) (by omega)) (fun _ => rfl)
      have hindex : i + (n + 1) = i + 1 + n := by omega
      rw [← Nat.add_assoc, hnext, hindex]
      exact ih taken₁ (by omega) fun j hj hend => h j (by omega) (by omega)

/-- The rounds over bits that are clear, masked, or that of `SIGCONT`. -/
theorem checkThread_passes
    (hlast : i + left ≤ 32)
    (h : ∀ j, i ≤ j → j < i + left → thread.sigset.getLsbD j = true →
      j = 3 ∨ 3 < j ∧ thread.sigmask.getLsbD j = true) :
    (checkThread left i (BitVec.twoPow 32 i) thread taken).1 = true := by
  induction left generalizing i thread taken with
  | zero => rfl
  | succ left ih =>
      have hi : i < 32 := by omega
      have hrest : ∀ j, i + 1 ≤ j → j < i + 1 + left → thread.sigset.getLsbD j = true →
          j = 3 ∨ 3 < j ∧ thread.sigmask.getLsbD j = true :=
        fun j hj hend => h j (by omega) (by omega)
      cases hset : thread.sigset.getLsbD i with
      | false =>
          obtain ⟨taken', hnext⟩ := checkThread_next left taken hi
            (fun hset' => absurd (hset'.symm.trans hset) (by decide)) (fun _ => rfl)
          rw [hnext]
          exact ih (by omega) hrest
      | true =>
          have hreturns : (signalHandler thread i (BitVec.twoPow 32 i)).1 = .returns 0 := by
            rcases h i (Nat.le_refl i) (by omega) hset with rfl | ⟨hhigh, hmasked⟩
            · rfl
            · have hmask := (and_twoPow_ne_zero_iff thread.sigmask hi).mpr hmasked
              unfold signalHandler
              have hkill : i ≠ Signal.SIGKILL.code :=
                Nat.ne_of_gt (Nat.lt_trans (by decide) hhigh)
              have hstop : i ≠ Signal.SIGSTOP.code :=
                Nat.ne_of_gt (Nat.lt_trans (by decide) hhigh)
              have hcont : i ≠ Signal.SIGCONT.code := Nat.ne_of_gt hhigh
              rw [if_neg hkill, if_neg hstop, if_neg hcont, if_pos hmask]
          obtain ⟨taken', hnext⟩ := checkThread_next left taken hi
            (fun _ => Prod.ext hreturns rfl)
            (fun hclear => absurd (hclear.symm.trans hset) (by decide))
          rw [hnext]
          refine ih (by omega) fun j hj hend hset' => ?_
          rw [signalHandler_sigmask]
          exact hrest j hj hend (signalHandler_sigset i _ hset')

end Rounds

section Branches

variable {thread : SignalThread} {left i j : Nat} {taken : List Nat}

/-- The first three branches do nothing, or end the check and leave the sets alone. -/
theorem signalHandler_below
    (signal : Half)
    (hi : i < 3) :
    signalHandler thread i signal = (.returns 0, thread) ∨
      ∃ ending pointer, ending ≠ .returns 0 ∧
        signalHandler thread i signal =
          (ending, { thread with instruction_pointer := pointer }) := by
  have hcont : i ≠ Signal.SIGCONT.code := Nat.ne_of_lt hi
  have hraise : raiseSignal thread.sigset .SIGKILL = thread.sigset := by
    simp [raiseSignal, Signal.code]
  unfold signalHandler
  rw [if_neg hcont, hraise]
  split_ifs
  · exact Or.inr ⟨.returns 1, thread.instruction_pointer, by decide, rfl⟩
  · exact Or.inr ⟨.returns 1, thread.instruction_pointer, by decide, rfl⟩
  · exact Or.inl rfl
  · exact Or.inr ⟨.ringthree, thread.sighandlers i, by decide, rfl⟩
  · exact Or.inl rfl

/-- The branch for the index of `SIGTERM` does nothing when the signal is masked or has no
handler. -/
theorem signalHandler_one :
    signalHandler thread 1 (BitVec.twoPow 32 1) = (.returns 0, thread) ↔
      ¬ (thread.sigmask.getLsbD 1 = false ∧ thread.sighandlers 1 ≠ 0) := by
  have hmask := and_twoPow_eq_zero_iff thread.sigmask (by decide : 1 < 32)
  unfold signalHandler
  rw [if_neg (by decide), if_neg (by decide), if_neg (by decide), ← hmask]
  split_ifs with hmasked hhandler
  · exact iff_of_true rfl fun h => hmasked h.1
  · exact iff_of_false (fun h => nomatch congrArg Prod.fst h)
      (not_not.mpr ⟨not_not.mp hmasked, hhandler⟩)
  · exact iff_of_true rfl fun h => hhandler h.2

/-- A thread is caught by one of the first three branches. -/
theorem caught_iff :
    thread.Caught ↔ ∃ j, j < 3 ∧ thread.sigset.getLsbD j = true ∧
      signalHandler thread j (BitVec.twoPow 32 j) ≠ (.returns 0, thread) := by
  have hkill : signalHandler thread 0 (BitVec.twoPow 32 0) ≠ (.returns 0, thread) :=
    fun h => nomatch congrArg Prod.fst h
  have hstop : signalHandler thread 2 (BitVec.twoPow 32 2) ≠ (.returns 0, thread) :=
    fun h => nomatch congrArg Prod.fst h
  have hterm : signalHandler thread 1 (BitVec.twoPow 32 1) ≠ (.returns 0, thread) ↔ _ :=
    signalHandler_one.not_left
  constructor
  · rintro (hset | hset | ⟨hset, hends⟩)
    · exact ⟨0, by decide, hset, hkill⟩
    · exact ⟨2, by decide, hset, hstop⟩
    · exact ⟨1, by decide, hset, hterm.mpr hends⟩
  · rintro ⟨j, hj, hset, hends⟩
    have hcases : j = 0 ∨ j = 1 ∨ j = 2 := by omega
    rcases hcases with rfl | rfl | rfl
    · exact Or.inl hset
    · exact Or.inr (Or.inr ⟨hset, hterm.mp hends⟩)
    · exact Or.inr (Or.inl hset)

/-- The check ends at a branch that ends it, or before, and leaves the sets alone. -/
theorem checkThread_below
    (hij : i ≤ j)
    (hj : j < 3)
    (hlast : j < i + left)
    (hset : thread.sigset.getLsbD j = true)
    (hends : signalHandler thread j (BitVec.twoPow 32 j) ≠ (.returns 0, thread)) :
    ∃ pointer taken', checkThread left i (BitVec.twoPow 32 i) thread taken =
      (false, { thread with instruction_pointer := pointer }, taken') := by
  induction left generalizing i taken with
  | zero => omega
  | succ left ih =>
      have hi : i < 32 := by omega
      by_cases hround : thread.sigset.getLsbD i = true ∧
          signalHandler thread i (BitVec.twoPow 32 i) ≠ (.returns 0, thread)
      · obtain ⟨ending, pointer, hending, hstop⟩ :=
          (signalHandler_below (BitVec.twoPow 32 i) (by omega : i < 3)).resolve_left hround.2
        exact ⟨pointer, _, checkThread_stop hi hround.1 hstop hending⟩
      · have hother : i ≠ j := by
          rintro rfl
          exact hround ⟨hset, hends⟩
        obtain ⟨taken', hnext⟩ := checkThread_next left taken hi
          (fun h => not_not.mp fun hstops => hround ⟨h, hstops⟩) (fun _ => rfl)
        rw [hnext]
        exact ih (by omega) (by omega)

end Branches

section Pending

variable {thread thread' : SignalThread} {op : SignalOp}

/-- The check gives up a thread that is caught, and leaves its sets alone. -/
theorem checkThread_of_caught
    (h : thread.Caught) :
    ∃ pointer taken, checkThread MAXSIG 0 1#32 thread [] =
      (false, { thread with instruction_pointer := pointer }, taken) := by
  obtain ⟨j, hj, hset, hends⟩ := caught_iff.mp h
  rw [← BitVec.twoPow_zero]
  exact checkThread_below (Nat.zero_le j) hj (Nat.lt_trans hj (by decide)) hset hends

/-- What a check leaves of the thread. -/
theorem checkSignals_thread
    {fuel : Nat} {process_sigset : Half} {r : Checked}
    (h : checkSignals fuel thread process_sigset = some r) :
    r.thread = (checkThread MAXSIG 0 1#32 thread []).2.1 := by
  unfold checkSignals at h
  split at h
  · rename_i hloop
    cases h
    rw [hloop]
  · rename_i hloop
    obtain ⟨_, _, heq⟩ := Option.map_eq_some_iff.mp h
    cases heq
    rw [hloop]

theorem checkSignals_ends (thread : SignalThread) (process_sigset : Half) :
    ∃ r, checkSignals 1 thread process_sigset = some r := by
  unfold checkSignals
  split
  · exact ⟨_, rfl⟩
  · rw [Loops.run_exit (processRound_maxsig _)]
    exact ⟨_, rfl⟩

/-- Bits that are there stay there, and the other two fields count only for `SIGTERM`. -/
theorem SignalThread.Caught.of_kept
    (h : thread.Caught)
    (hbits : ∀ j, j < 3 → thread.sigset.getLsbD j = true → thread'.sigset.getLsbD j = true)
    (hmask : thread.sigmask.getLsbD 1 = false → thread'.sigmask.getLsbD 1 = false)
    (hhandlers : thread'.sighandlers = thread.sighandlers) :
    thread'.Caught := by
  rcases h with hset | hset | ⟨hset, hunmasked, hhandler⟩
  · exact Or.inl (hbits 0 (by decide) hset)
  · exact Or.inr (Or.inl (hbits 2 (by decide) hset))
  · refine Or.inr (Or.inr ⟨hbits 1 (by decide) hset, hmask hunmasked, ?_⟩)
    rw [hhandlers]
    exact hhandler

/-- `SIGPOLLING` has none of the first three bits. -/
theorem getLsbD_SIGPOLLING
    {j : Nat}
    (hj : j < 3) :
    SIGPOLLING.getLsbD j = false := by
  have hcases : j = 0 ∨ j = 1 ∨ j = 2 := by omega
  rcases hcases with rfl | rfl | rfl
  · decide
  · decide
  · decide

/-- **A thread that is caught stays so.** -/
theorem caught_step
    (h : thread.Caught)
    (hstep : SignalStep thread op thread') :
    thread'.Caught := by
  cases op with
  | signal signals =>
      cases hstep
      refine h.of_kept (fun j _ hset => ?_) id rfl
      rw [BitVec.getLsbD_or, hset, Bool.true_or]
  | sigmask sigmask =>
      cases hstep
      rcases sigmaskCall_cases (fun s sigmask =>
        { s with thread := { s.thread with sigmask := sigmask } }) ⟨thread, 0, 0⟩ sigmask with
        ⟨-, -, hcall⟩ | ⟨-, hone, hcall⟩
      · rw [sysTsigmask, hcall]
        exact h
      · rw [sysTsigmask, hcall]
        exact h.of_kept (fun _ _ => id) (fun _ => hone) rfl
  | reported =>
      cases hstep
      refine h.of_kept (fun j hj hset => ?_) id rfl
      rw [BitVec.getLsbD_xor, hset, getLsbD_SIGPOLLING hj, Bool.xor_false]
  | received =>
      cases hstep
      refine h.of_kept (fun j hj hset => ?_) id rfl
      rw [BitVec.getLsbD_and, hset, BitVec.getLsbD_not, getLsbD_SIGPOLLING hj]
      simpa using Nat.lt_trans hj (by decide : 3 < 32)
  | check process_sigset =>
      obtain ⟨fuel, r, hcheck, rfl⟩ := hstep
      obtain ⟨pointer, taken, hloop⟩ := checkThread_of_caught h
      rw [checkSignals_thread hcheck, hloop]
      exact h.of_kept (fun _ _ => id) id rfl

theorem getLsbD_cancelStop_one (sigset : Half) :
    (cancelStop sigset).getLsbD 1 = false := by
  have hstop : (BitVec.ofNat 32 Signal.SIGSTOP.code).getLsbD 1 = true := by decide
  rw [cancelStop, raiseSignal, BitVec.getLsbD_xor, BitVec.getLsbD_or, hstop, Bool.or_true,
    Bool.xor_self]

theorem getLsbD_cancelStop_of_ne
    (sigset : Half) {j : Nat}
    (hj : j ≠ 1) :
    (cancelStop sigset).getLsbD j = sigset.getLsbD j := by
  have hstop : (BitVec.ofNat 32 Signal.SIGSTOP.code).getLsbD j = false := by
    have hpow : BitVec.ofNat 32 Signal.SIGSTOP.code = BitVec.twoPow 32 1 := rfl
    rw [hpow, BitVec.getLsbD_twoPow]
    simpa using hj.symm
  rw [cancelStop, raiseSignal, BitVec.getLsbD_xor, BitVec.getLsbD_or, hstop, Bool.or_false,
    Bool.xor_false]

/-- Behind a check that reaches the branch for `SIGCONT`, none of the first three bits is
pending. -/
theorem checkThread_continued
    (hfree : ¬ thread.Caught)
    (hcont : thread.sigset.getLsbD 3 = true)
    {j : Nat}
    (hj : j < 3) :
    (checkThread MAXSIG 0 1#32 thread []).2.1.sigset.getLsbD j = false := by
  have hpasses : ∀ k, k < 3 → thread.sigset.getLsbD k = true →
      signalHandler thread k (BitVec.twoPow 32 k) = (.returns 0, thread) := by
    intro k hk hset
    by_contra hends
    exact hfree (caught_iff.mpr ⟨k, hk, hset, hends⟩)
  have hcancelled : (cancelStop thread.sigset).getLsbD j = false := by
    have hcases : j = 0 ∨ j = 1 ∨ j = 2 := by omega
    rcases hcases with rfl | rfl | rfl
    · rw [getLsbD_cancelStop_of_ne _ (by decide)]
      exact Bool.eq_false_iff.mpr fun hset => hfree (Or.inl hset)
    · exact getLsbD_cancelStop_one thread.sigset
    · rw [getLsbD_cancelStop_of_ne _ (by decide)]
      exact Bool.eq_false_iff.mpr fun hset => hfree (Or.inr (Or.inl hset))
  obtain ⟨taken, hover⟩ := checkThread_over 11 [] (by decide : 0 + 3 ≤ 32)
    fun k _ hk => hpasses k (by omega)
  obtain ⟨taken', hround⟩ := checkThread_next 10 taken (by decide : 0 + 3 < 32)
    (fun _ => rfl) (fun hclear => absurd (hclear.symm.trans hcont) (by decide))
  have hcheck : checkThread MAXSIG 0 1#32 thread [] = _ := hover.trans hround
  rw [hcheck]
  exact Bool.eq_false_iff.mpr fun hset =>
    absurd ((checkThread_sigset hset).symm.trans hcancelled) (by decide)

/-- A thread that is not caught can be let pass. -/
theorem exists_run_passes
    (hfree : ¬ thread.Caught) :
    ∃ run t, Runs.Run SignalStep thread run ∧ t ∈ run.map Prod.snd ∧ t.Passes := by
  -- a check that reaches the branch for `SIGCONT`, and a mask for what comes behind it
  let poked : SignalThread := { thread with sigset := thread.sigset ||| 8#32 }
  let checked := (checkThread MAXSIG 0 1#32 poked []).2.1
  let masked : SignalThread := { checked with sigmask := ~~~ 3#32 }
  have hpoked : ∀ j, j < 3 → poked.sigset.getLsbD j = thread.sigset.getLsbD j := by
    intro j hj
    have hcases : j = 0 ∨ j = 1 ∨ j = 2 := by omega
    change (thread.sigset ||| 8#32).getLsbD j = _
    rw [BitVec.getLsbD_or]
    rcases hcases with rfl | rfl | rfl
    · exact Bool.or_false _
    · exact Bool.or_false _
    · exact Bool.or_false _
  have hstill : ¬ poked.Caught := fun h =>
    hfree (h.of_kept (fun j hj => (hpoked j hj).symm.trans) id rfl)
  have hcont : poked.sigset.getLsbD 3 = true := by
    change (thread.sigset ||| 8#32).getLsbD 3 = true
    rw [BitVec.getLsbD_or]
    exact Bool.or_true _
  obtain ⟨r, hends⟩ := checkSignals_ends poked 0
  have hcheck : SignalStep poked (.check 0) checked :=
    ⟨1, r, hends, (checkSignals_thread hends).symm⟩
  have hmask : SignalStep checked (.sigmask (~~~ 3#32)) masked := rfl
  refine ⟨[(.signal 8#32, poked), (.check 0, checked), (.sigmask (~~~ 3#32), masked)], masked,
    .cons rfl (.cons hcheck (.cons hmask (.nil masked))), by simp, ?_⟩
  rw [SignalThread.Passes, ← BitVec.twoPow_zero]
  refine checkThread_passes (by decide) fun j _ hj hset => ?_
  rcases Nat.lt_trichotomy j 3 with hlow | hthree | hhigh
  · have hclear := checkThread_continued hstill hcont hlow
    exact absurd (hset.symm.trans hclear) (by decide)
  · exact Or.inl hthree
  · have hmasks : ∀ k, k < 0 + MAXSIG → 3 < k → (~~~ 3#32).getLsbD k = true := by decide
    exact Or.inr ⟨hhigh, hmasks j hj hhigh⟩

end Pending

/-- **A thread is never let pass exactly when it is caught.** -/
theorem caught_forever_iff (thread : SignalThread) :
    Runs.AlwaysFrom SignalStep (fun t => ¬ t.Passes) thread ↔ thread.Caught := by
  constructor
  · intro h
    by_contra hfree
    obtain ⟨run, t, hrun, hmem, hpasses⟩ := exists_run_passes hfree
    obtain ⟨x, hx, rfl⟩ := List.mem_map.mp hmem
    exact (h run hrun).2 x hx hpasses
  · intro hcaught run hrun
    refine (Runs.always_of_preserved (fun _ _ _ ht hstep => caught_step ht hstep) hrun hcaught).mono
      fun t ht hpasses => ?_
    obtain ⟨pointer, taken, hloop⟩ := checkThread_of_caught ht
    rw [SignalThread.Passes, hloop] at hpasses
    cases hpasses

end Sched
end BestKernel
