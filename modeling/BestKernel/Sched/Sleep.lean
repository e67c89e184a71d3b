import BestKernel.Library.Runs
import BestKernel.Sched.Selection
import BestKernel.Syscalls.Clock

/-!
# Sleeping threads

`SYS_SLEEP` sets the `target_micros` of a thread, and `getnext_thread` compares them with
the time.  The comparison is the last statement of its loop and continues a loop that goes
on anyway, after a thread that is not taken has been returned.  So it makes no difference
(`dueRound_eq`), whatever the clock says.

A run records when each thread has asked to be woken.  `sleep_lasts_iff` says which runs
keep to it: those in which the first thread that can be picked never sleeps.

Readings of the source.  Time is true time, in microseconds; the firmware clock gives the
time of day.  What a conversion leaves that overflows is a parameter.  Between the calls
the threads may change in any way, and a slot may be given to a new thread.
-/

namespace BestKernel
namespace Sched

open Machine
open Runs
open Syscalls

section Time

variable (date : Nat → RtcTime) (overflow : RtcTime → Word)

/-- The firmware clock, with the date of every day. -/
def firmwareClock (t : Nat) : RtcTime :=
  let seconds := t / 1000000
  { date (seconds / 86400) with
    hour := BitVec.ofNat 8 (seconds / 3600 % 24)
    minute := BitVec.ofNat 8 (seconds / 60 % 60)
    second := BitVec.ofNat 8 (seconds % 60)
    nanosecond := BitVec.ofNat 32 (t % 1000000 * 1000) }

/-- What `gettime_nanos` returns. -/
def nanosAt (t : Nat) : Word :=
  (gettimeNanos (firmwareClock date t)).getD (overflow (firmwareClock date t))

/-- `gettime_millis` -/
def millisAt (t : Nat) : Word := nanosAt date overflow t / 1000

end Time

section Deadlines

variable (tkill pkill : Threads → Nat → Threads) (current : Option Nat) (length : Nat)
variable (current_micros : Word) (target_micros : Nat → Word)

/-- One round of the loop of `getnext_thread`, with its last test. -/
def dueRound (s : Nat × Threads) : Nat × Threads ⊕ Option Nat × Threads :=
  let (i, pool) := s
  if current = some i then .inr (none, pool)
  else
    let i := if i = length then 0 else i
    let pool :=
      if (pool i).killed then
        let pool := tkill pool i
        if (pool i).workers = 0 then pkill pool i else pool
      else pool
    let pool :=
      if (pool i).type = .DRIVER then Function.update pool i Thread.zeroed else pool
    if (pool i).taken = 0 then .inr (some i, pool)
    else if target_micros i < current_micros then .inl (i + 1, pool)
    else .inl (i + 1, pool)

/-- `getnext_thread` with the deadlines. -/
def getnextDue (fuel : Nat) (pool : Threads) : Option (Option Nat × Threads) :=
  Loops.run (dueRound tkill pkill current length current_micros target_micros) fuel
    (firstIndex current, pool)

end Deadlines

/-- The threads with their deadlines, the time, and when the sleep ends that each thread has
asked for. -/
structure SleepState where
  pool : Threads
  target_micros : Nat → Word
  now : Nat
  wake : Nat → Nat

/-- Time goes by, a thread calls `SYS_SLEEP`, a processor with its `current_thread` selects
a thread, a slot is given to a new thread, and whatever else happens to the threads. -/
inductive SleepOp where
  | pass (micros : Nat)
  | sleep (i : Nat) (sleep : Word)
  | select (current found : Option Nat)
  | make (i : Nat) (target_micros : Word)
  | others (pool : Threads)

section Specification

variable (date : Nat → RtcTime) (overflow : RtcTime → Word)
variable (tkill pkill : Threads → Nat → Threads) (length : Nat)

/-- `SYS_SLEEP` -/
def SleepState.sysSleep (s : SleepState) (i : Nat) (sleep : Word) : SleepState :=
  { s with
    target_micros :=
      Function.update s.target_micros i (nanosAt date overflow s.now * 1000 + sleep)
    wake := Function.update s.wake i (s.now + sleep.toNat) }

/-- What a processor selects. -/
def SleepState.Selects (s : SleepState) (current : Option Nat) (target_micros : Nat → Word)
    (result : Option Nat × Threads) : Prop :=
  ∃ fuel, getnextDue tkill pkill current length (millisAt date overflow s.now) target_micros
    fuel s.pool = some result

def SleepStep (s : SleepState) (op : SleepOp) (s' : SleepState) : Prop :=
  match op with
  | .pass micros => s' = { s with now := s.now + micros }
  | .sleep i sleep => s' = s.sysSleep date overflow i sleep
  | .select current found =>
      (∀ c, current = some c → c < length) ∧ ∃ pool,
        s.Selects date overflow tkill pkill length current s.target_micros (found, pool) ∧
          s' = { s with pool := pool }
  | .make i target_micros =>
      s' = { s with
        target_micros := Function.update s.target_micros i target_micros
        wake := Function.update s.wake i 0 }
  | .others pool => s' = { s with pool := pool }

/-- The sleep of the thread is over. -/
def SleepState.Awake (s : SleepState) (i : Nat) : Prop := s.wake i ≤ s.now

/-- No thread is selected that sleeps, and it makes no difference what the deadlines are of
those that do not. -/
def SleepRight (s : SleepState) (op : SleepOp) (_ : SleepState) : Prop :=
  match op with
  | .select current found =>
      (∀ i, found = some i → s.Awake i) ∧
        ∀ target_micros, (∀ i, ¬ s.Awake i → target_micros i = s.target_micros i) →
          ∀ result, s.Selects date overflow tkill pkill length current target_micros result ↔
            s.Selects date overflow tkill pkill length current s.target_micros result
  | _ => True

/-- The condition on a step: the first thread that can be picked does not sleep. -/
def SleepSafe (s : SleepState) : SleepOp → Prop
  | .select current _ => ∀ i, FirstPick current length s.pool i → s.Awake i
  | _ => True

end Specification

section Selecting

variable {date : Nat → RtcTime} {overflow : RtcTime → Word}
variable {tkill pkill : Threads → Nat → Threads} {length : Nat}

/-- The last test makes no difference. -/
theorem dueRound_eq
    (tkill pkill : Threads → Nat → Threads) (current : Option Nat) (length : Nat)
    (current_micros : Word) (target_micros : Nat → Word) :
    dueRound tkill pkill current length current_micros target_micros =
      scanRound tkill pkill current length := by
  funext s
  unfold dueRound scanRound
  simp only [ite_self]

theorem selects_iff
    {s : SleepState} {current : Option Nat} {target_micros : Nat → Word}
    {result : Option Nat × Threads} :
    s.Selects date overflow tkill pkill length current target_micros result ↔
      ∃ fuel, getnextThread tkill pkill current length fuel s.pool = some result := by
  unfold SleepState.Selects getnextDue getnextThread
  rw [dueRound_eq]

/-- A step is right exactly when the first thread that can be picked does not sleep. -/
theorem sleepStep_right_iff
    (hlength : 0 < length)
    {s s' : SleepState} {op : SleepOp}
    (hstep : SleepStep date overflow tkill pkill length s op s') :
    SleepRight date overflow tkill pkill length s op s' ↔ SleepSafe length s op := by
  cases op with
  | pass micros => exact Iff.rfl
  | sleep i sleep => exact Iff.rfl
  | make i target_micros => exact Iff.rfl
  | others pool => exact Iff.rfl
  | select current found =>
      obtain ⟨hcurrent, pool, hselects, -⟩ := hstep
      obtain ⟨fuel, hrun⟩ := selects_iff.mp hselects
      have hselected := getnextThread_selected hlength hcurrent hrun
      have hfirst := forall_selected_iff hselected s.Awake
      constructor
      · rintro ⟨hawake, -⟩
        exact hfirst.mp hawake
      · intro hsafe
        refine ⟨hfirst.mpr hsafe, fun target_micros _ result => ?_⟩
        rw [selects_iff, selects_iff]

/-- **Sleeping lasts as long as asked exactly in the runs that never come to a sleeping
thread first.** -/
theorem sleep_lasts_iff
    (hlength : 0 < length)
    {s : SleepState} {run : List (SleepOp × SleepState)}
    (hrun : Run (SleepStep date overflow tkill pkill length) s run) :
    EveryStep (SleepRight date overflow tkill pkill length) s run ↔
      StepsMeet (SleepSafe length) s run :=
  everyStep_iff_stepsMeet (I := fun _ => True) (C := SleepSafe length)
    (R := SleepRight date overflow tkill pkill length) (fun _ _ _ _ _ => trivial)
    (fun _ _ _ _ hstep => sleepStep_right_iff hlength hstep) hrun trivial

end Selecting

section Examples

/-- A thread that is not taken. -/
def sleeper : Thread := ⟨.APPLICATION, 0, 0, 0, true⟩

/-- It is alone, at midnight. -/
def midnight : SleepState := ⟨fun _ => sleeper, fun _ => 0, 0, fun _ => 0⟩

/-- The first day of 2020. -/
def newYearsDay : Nat → RtcTime := fun _ => newYear 0 0

/-- The threads as they are. -/
def noKill : Threads → Nat → Threads := fun pool _ => pool

/-- The thread asks for a second of sleep. -/
def asleep : SleepState := midnight.sysSleep newYearsDay (fun _ => 0) 0 1000000

theorem run_asleep :
    Run (SleepStep newYearsDay (fun _ => 0) noKill noKill 1) midnight
      [(.sleep 0 1000000, asleep), (.select none (some 0), asleep)] := by
  have hselects : asleep.Selects newYearsDay (fun _ => 0) noKill noKill 1 none
      asleep.target_micros (some 0, asleep.pool) :=
    selects_iff.mpr ⟨1, rfl⟩
  have hselect : SleepStep newYearsDay (fun _ => 0) noKill noKill 1 asleep
      (.select none (some 0)) asleep :=
    ⟨nofun, asleep.pool, hselects, rfl⟩
  exact .cons rfl (.cons hselect (.nil _))

theorem sleep_lasts_iff_asleep :
    EveryStep (SleepRight newYearsDay (fun _ => 0) noKill noKill 1) midnight
        [(.sleep 0 1000000, asleep), (.select none (some 0), asleep)] ↔
      StepsMeet (SleepSafe 1) midnight
        [(.sleep 0 1000000, asleep), (.select none (some 0), asleep)] :=
  sleep_lasts_iff (by decide) run_asleep

/-- The thread is selected before any time has passed. -/
theorem asleep_selected :
    Run (SleepStep newYearsDay (fun _ => 0) noKill noKill 1) midnight
        [(.sleep 0 1000000, asleep), (.select none (some 0), asleep)] ∧
      ¬ EveryStep (SleepRight newYearsDay (fun _ => 0) noKill noKill 1) midnight
        [(.sleep 0 1000000, asleep), (.select none (some 0), asleep)] := by
  refine ⟨run_asleep, ?_⟩
  rintro ⟨-, ⟨hawake, -⟩, -⟩
  have hwake : asleep.wake 0 ≤ asleep.now := hawake 0 rfl
  exact absurd hwake (by decide)

end Examples

end Sched
end BestKernel
