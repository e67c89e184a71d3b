import BestKernel.Library.Loops
import BestKernel.Library.Runs
import BestKernel.Sched.Signals

/-!
# Polling

`SYS_POLL` marks its thread as waiting and stores where its `pollfd`s are, `report_IO`
looks through the threads of all processes for a `pollfd` that an event concerns.

The loop over the `pollfd`s of a thread never counts up: it stays at the first one for
ever if there is one, so `report_IO` ends exactly when no thread that it looks at has
any, and then nothing is changed (`reportIO_returns_iff`).  `events_served_iff` draws the
consequence for whole runs.

Readings of the source.  `process->descs[d]` is what slot `d` of the pool of descriptors
points to; `class Descriptor` declares no `reqactions`, which is a field of its own here.
A `pollfd` has eight bytes.
-/

namespace BestKernel
namespace Sched

open Machine

/-- `struct pollfd`. -/
structure Pollfd where
  fdesc : Half
  reqaction : BitVec 16
  retaction : BitVec 16

/-- `class Thread`, as far as it polls. -/
structure PollingThread where
  sigset : Half
  poll : Word
  pollnum : Half
  sys_retval : Word

/-- `class Descriptor`, as far as it is polled. -/
structure PolledDescriptor where
  findex : Half
  reqactions : Half

/-- `class Process`: the pool of its workers, which are numbers of threads, and its
descriptors. -/
structure PollingProcess where
  length : Half
  count : Half
  ckarray : Nat → Byte
  workers : Nat → Nat
  descs : Half → PolledDescriptor

/-- The table of processes, the threads, and the `pollfd`s by address. -/
structure PollState where
  length : Half
  ckarray : Nat → Byte
  pool : Nat → PollingProcess
  threads : Nat → PollingThread
  pollfds : Word → Pollfd

/-- `SIGPOLLING` as it is or-ed in. -/
def pollingMask : Half := BitVec.ofNat 32 Signal.SIGPOLLING.code

/-- The address of `thread->poll[w]`. -/
def PollingThread.pollAt (thread : PollingThread) (w : Half) : Word :=
  thread.poll + 8#64 * w.setWidth 64

/-- `SYS_POLL`; `phys` is what `vmto_phys` makes of its argument. -/
def sysPoll (s : PollState) (thread : Nat) (phys : Word) : PollState :=
  let old := s.threads thread
  { s with
    threads := Function.update s.threads thread
      { old with sigset := raiseSignal old.sigset .SIGPOLLING, poll := phys, sys_retval := 0 } }

section Report

variable (findex action : Half)

/-- The body of the inner loop, for `pollfd` number `w` of a thread of process `i`. -/
def pollBody (i thread : Nat) (w : Half) (s : PollState) : PollState :=
  let a := (s.threads thread).pollAt w
  let poll := s.pollfds a
  let desc := (s.pool i).descs poll.fdesc
  if a = 0 then s
  else if desc.findex ≠ findex then s
  else if desc.reqactions &&& action ≠ 0 then s
  else
    let old := s.threads thread
    { s with
      pollfds := Function.update s.pollfds a { poll with retaction := action.setWidth 16 }
      threads := Function.update s.threads thread
        { old with sigset := old.sigset ^^^ pollingMask } }

/-- One round of the inner loop, which has no `++w`. -/
def pollRound (i thread : Nat) : PollState × Half → (PollState × Half) ⊕ PollState
  | (s, w) =>
      if w < (s.threads thread).pollnum then .inl (pollBody findex action i thread w s, w)
      else .inr s

/-- The loop over the workers of process `i`, with `left` of them from `k` on. -/
def workersLoop (fuel i : Nat) : Nat → Nat → PollState → Option PollState
  | 0, _, s => some s
  | left + 1, k, s => do
      let s ← Loops.run (pollRound findex action i ((s.pool i).workers k)) fuel (s, 0)
      workersLoop fuel i left (k + 1) s

/-- The loop over the processes, with `left` of them from `i` on. -/
def processesLoop (fuel : Nat) : Nat → Nat → PollState → Option PollState
  | 0, _, s => some s
  | left + 1, i, s => do
      let s ← workersLoop findex action fuel i (s.pool i).count.toNat 0 s
      processesLoop fuel left (i + 1) s

/-- `report_IO`. -/
def reportIO (fuel : Nat) (s : PollState) : Option PollState :=
  processesLoop findex action fuel s.length.toNat 0 s

end Report

section Events

/-- A thread of a process, both in use. -/
def LiveWorker (s : PollState) (i k : Nat) : Prop :=
  (i < s.length.toNat ∧ s.ckarray i ≠ 0) ∧
    k < (s.pool i).length.toNat ∧ (s.pool i).ckarray k ≠ 0

/-- One of the `pollfd`s of the thread waits for the event. -/
def Awaits (s : PollState) (findex action : Half) (i k : Nat) (w : Half) : Prop :=
  let thread := s.threads ((s.pool i).workers k)
  let poll := s.pollfds (thread.pollAt w)
  LiveWorker s i k ∧ w < thread.pollnum ∧ ((s.pool i).descs poll.fdesc).findex = findex ∧
    poll.reqaction &&& action.setWidth 16 ≠ 0

/-- The waiting threads are woken, their `pollfd`s marked, and nothing else is changed. -/
structure EventServed (s : PollState) (findex action : Half) (t : PollState) : Prop where
  woken : ∀ i k w, Awaits s findex action i k w →
    t.threads ((s.pool i).workers k) =
      { s.threads ((s.pool i).workers k) with
        sigset := (s.threads ((s.pool i).workers k)).sigset &&& ~~~pollingMask }
  marked : ∀ i k w, Awaits s findex action i k w →
    t.pollfds ((s.threads ((s.pool i).workers k)).pollAt w) =
      { s.pollfds ((s.threads ((s.pool i).workers k)).pollAt w) with
        retaction := action.setWidth 16 }
  threads : ∀ n, (∀ i k w, Awaits s findex action i k w → (s.pool i).workers k ≠ n) →
    t.threads n = s.threads n
  pollfds : ∀ a, (∀ i k w, Awaits s findex action i k w →
    (s.threads ((s.pool i).workers k)).pollAt w ≠ a) → t.pollfds a = s.pollfds a
  processes : t.length = s.length ∧ t.ckarray = s.ckarray ∧ t.pool = s.pool

/-- The calls. -/
inductive PollOp where
  | poll (thread : Nat) (phys : Word)
  | report (findex action : Half)

/-- The state behind a call; `none` is a call that never ends. -/
def PollStep (s : Option PollState) (op : PollOp) (s' : Option PollState) : Prop :=
  match s, op with
  | none, _ => False
  | some s, .poll thread phys => s' = some (sysPoll s thread phys)
  | some s, .report findex action =>
      (∃ fuel t, reportIO findex action fuel s = some t ∧ s' = some t) ∨
        ((∀ fuel, reportIO findex action fuel s = none) ∧ s' = none)

/-- Every event is served. -/
def Serves (s : Option PollState) (op : PollOp) (s' : Option PollState) : Prop :=
  match s, op with
  | some s, .report findex action => ∃ t, s' = some t ∧ EventServed s findex action t
  | _, _ => True

/-- No thread that `report_IO` looks at has a `pollfd`. -/
def NothingVisited (s : PollState) : Prop :=
  ∀ i k, i < s.length.toNat → k < (s.pool i).count.toNat →
    (s.threads ((s.pool i).workers k)).pollnum = 0

/-- No thread waits for the event that is not woken and marked already. -/
def NothingAwaited (s : PollState) (findex action : Half) : Prop :=
  ∀ i k w, Awaits s findex action i k w →
    (s.threads ((s.pool i).workers k)).sigset &&& pollingMask = 0 ∧
      (s.pollfds ((s.threads ((s.pool i).workers k)).pollAt w)).retaction = action.setWidth 16

/-- The condition on a step. -/
def PollSafe (s : Option PollState) (op : PollOp) : Prop :=
  match s, op with
  | some s, .report findex action => NothingVisited s ∧ NothingAwaited s findex action
  | _, _ => True

end Events

section Spec

variable {findex action : Half} {s t : PollState}

/-- The number of `pollfd`s of a thread is never changed. -/
theorem pollBody_pollnum
    (i thread : Nat) (w : Half) (n : Nat) :
    ((pollBody findex action i thread w s).threads n).pollnum = (s.threads n).pollnum := by
  unfold pollBody
  dsimp only
  split_ifs
  · rfl
  · rfl
  · rfl
  · by_cases hn : n = thread
    · subst hn
      simp
    · simp [hn]

/-- A thread with `pollfd`s is never left. -/
theorem pollRound_endless
    (i thread fuel : Nat)
    (hpoll : (s.threads thread).pollnum ≠ 0) :
    Loops.run (pollRound findex action i thread) fuel (s, 0) = none := by
  refine Loops.endless_of_invariant (f := fun s : PollState => (s, (0 : Half)))
    (I := fun s => (s.threads thread).pollnum ≠ 0) ?_ (t := s) hpoll fuel
  intro s hpoll
  have hlt : (0 : Half) < (s.threads thread).pollnum := by
    rw [BitVec.lt_def]
    exact BitVec.toNat_pos_of_ne_zero hpoll
  refine ⟨pollBody findex action i thread 0 s, if_pos hlt, ?_⟩
  rwa [pollBody_pollnum]

theorem pollRound_returns_iff
    (i thread : Nat) {fuel : Nat} :
    Loops.run (pollRound findex action i thread) fuel (s, 0) = some t ↔
      0 < fuel ∧ (s.threads thread).pollnum = 0 ∧ t = s := by
  by_cases hpoll : (s.threads thread).pollnum = 0
  · have hexit : pollRound findex action i thread (s, 0) = .inr s := by
      simp [pollRound, hpoll]
    cases fuel with
    | zero => simp [Loops.run]
    | succ fuel =>
        rw [Loops.run_exit hexit]
        simp [hpoll, eq_comm]
  · rw [pollRound_endless i thread fuel hpoll]
    constructor
    · intro h
      cases h
    · exact fun h => absurd h.2.1 hpoll

theorem workersLoop_returns_iff
    (i : Nat) {fuel left k : Nat} :
    workersLoop findex action fuel i left k s = some t ↔
      (0 < left → 0 < fuel) ∧
        (∀ j, k ≤ j → j < k + left → (s.threads ((s.pool i).workers j)).pollnum = 0) ∧ t = s := by
  induction left generalizing k s with
  | zero =>
      simp only [workersLoop, Option.some.injEq]
      exact ⟨fun h => ⟨fun h => absurd h (by omega), fun j hj hj' => absurd hj' (by omega), h.symm⟩,
        fun h => h.2.2.symm⟩
  | succ left ih =>
      rw [workersLoop, Option.bind_eq_bind, Option.bind_eq_some_iff]
      constructor
      · rintro ⟨s', hfirst, hrest⟩
        obtain ⟨hfuel, hpoll, rfl⟩ := (pollRound_returns_iff i _).mp hfirst
        obtain ⟨_, hall, rfl⟩ := ih.mp hrest
        refine ⟨fun _ => hfuel, fun j hj hj' => ?_, rfl⟩
        rcases Nat.eq_or_lt_of_le hj with rfl | hj
        · exact hpoll
        · exact hall j hj (by omega)
      · rintro ⟨hfuel, hall, rfl⟩
        exact ⟨t, (pollRound_returns_iff i _).mpr
            ⟨hfuel (Nat.succ_pos left), hall k (Nat.le_refl k) (by omega), rfl⟩,
          ih.mpr ⟨fun _ => hfuel (Nat.succ_pos left),
            fun j hj hj' => hall j (by omega) (by omega), rfl⟩⟩

theorem processesLoop_returns_iff
    {left i : Nat} :
    (∃ fuel, processesLoop findex action fuel left i s = some t) ↔
      (∀ j, i ≤ j → j < i + left → ∀ k, k < (s.pool j).count.toNat →
        (s.threads ((s.pool j).workers k)).pollnum = 0) ∧ t = s := by
  constructor
  · rintro ⟨fuel, h⟩
    induction left generalizing i s with
    | zero =>
        rw [processesLoop] at h
        cases h
        exact ⟨fun j hj hj' => absurd hj' (by omega), rfl⟩
    | succ left ih =>
        rw [processesLoop, Option.bind_eq_bind, Option.bind_eq_some_iff] at h
        obtain ⟨s', hfirst, hrest⟩ := h
        obtain ⟨_, hworkers, rfl⟩ := (workersLoop_returns_iff i).mp hfirst
        obtain ⟨hall, rfl⟩ := ih hrest
        refine ⟨fun j hj hj' k hk => ?_, rfl⟩
        rcases Nat.eq_or_lt_of_le hj with rfl | hj
        · exact hworkers k (Nat.zero_le k) (by omega)
        · exact hall j hj (by omega) k hk
  · rintro ⟨hall, rfl⟩
    refine ⟨1, ?_⟩
    induction left generalizing i with
    | zero => rfl
    | succ left ih =>
        rw [processesLoop, Option.bind_eq_bind, Option.bind_eq_some_iff]
        exact ⟨t, (workersLoop_returns_iff i).mpr ⟨fun _ => Nat.zero_lt_one,
            fun k _ hk => hall i (Nat.le_refl i) (by omega) k (by omega), rfl⟩,
          ih fun j hj hj' => hall j (by omega) (by omega)⟩

/-- **`report_IO` ends exactly when it visits no `pollfd`, and then it has done nothing.** -/
theorem reportIO_returns_iff :
    (∃ fuel, reportIO findex action fuel s = some t) ↔ NothingVisited s ∧ t = s := by
  unfold reportIO
  rw [processesLoop_returns_iff]
  refine and_congr_left fun _ => ⟨fun h i k hi hk => h i (Nat.zero_le i) (by omega) k hk,
    fun h i _ hi k hk => h i k (by omega) hk⟩

theorem reportIO_never
    {i k : Nat}
    (hi : i < s.length.toNat)
    (hk : k < (s.pool i).count.toNat)
    (hpoll : (s.threads ((s.pool i).workers k)).pollnum ≠ 0)
    (fuel : Nat) :
    reportIO findex action fuel s = none := by
  cases hreturns : reportIO findex action fuel s with
  | none => rfl
  | some t => exact absurd ((reportIO_returns_iff.mp ⟨fuel, hreturns⟩).1 i k hi hk) hpoll

/-- Bits are cleared already when none of them is set. -/
theorem and_not_eq_self_iff (x mask : Half) :
    x &&& ~~~mask = x ↔ x &&& mask = 0 := by
  constructor
  · intro h
    have hzero : x &&& ~~~mask &&& mask = 0 := by
      rw [BitVec.and_assoc, BitVec.and_comm (~~~mask), BitVec.and_not_self]
      exact BitVec.and_zero
    rwa [h] at hzero
  · intro h
    apply BitVec.eq_of_getLsbD_eq
    intro i hi
    have hbit := congrArg (fun v : Half => v.getLsbD i) h
    simp only [BitVec.getLsbD_and, BitVec.getLsbD_not, hi, decide_true, Bool.true_and] at hbit ⊢
    cases hmask : mask.getLsbD i with
    | false => simp
    | true => simpa [hmask] using hbit

/-- A state is woken and marked as it is exactly when nothing is awaited. -/
theorem eventServed_self_iff :
    EventServed s findex action s ↔ NothingAwaited s findex action := by
  constructor
  · intro h i k w hawaits
    have hsigset := congrArg PollingThread.sigset (h.woken i k w hawaits)
    exact ⟨(and_not_eq_self_iff _ _).mp hsigset.symm,
      congrArg Pollfd.retaction (h.marked i k w hawaits)⟩
  · intro h
    refine ⟨fun i k w hawaits => ?_, fun i k w hawaits => ?_, fun _ _ => rfl, fun _ _ => rfl,
      rfl, rfl, rfl⟩
    · rw [(and_not_eq_self_iff _ _).mpr (h i k w hawaits).1]
    · rw [← (h i k w hawaits).2]

/-- What one call does, exactly. -/
theorem serves_iff
    {s s' : Option PollState} {op : PollOp}
    (hstep : PollStep s op s') :
    Serves s op s' ↔ PollSafe s op := by
  cases s with
  | none => exact Iff.rfl
  | some s =>
      cases op with
      | poll thread phys => exact Iff.rfl
      | report findex action =>
          rcases hstep with ⟨fuel, t, hreturns, rfl⟩ | ⟨hnever, rfl⟩
          · obtain ⟨hvisited, rfl⟩ := reportIO_returns_iff.mp ⟨fuel, hreturns⟩
            constructor
            · rintro ⟨t', ht', hserved⟩
              cases ht'
              exact ⟨hvisited, eventServed_self_iff.mp hserved⟩
            · exact fun h => ⟨t, rfl, eventServed_self_iff.mpr h.2⟩
          · constructor
            · rintro ⟨t, ht, _⟩
              cases ht
            · rintro ⟨hvisited, _⟩
              obtain ⟨fuel, hreturns⟩ := reportIO_returns_iff.mpr ⟨hvisited, rfl⟩
              rw [hnever fuel] at hreturns
              cases hreturns

/-- **Along a run of `SYS_POLL` and `report_IO` every event is served exactly when no
thread that `report_IO` looks at ever has a `pollfd`, and none that it does not look at
waits for an event.** -/
theorem events_served_iff
    {s : Option PollState} {run : List (PollOp × Option PollState)}
    (hrun : Runs.Run PollStep s run) :
    Runs.EveryStep Serves s run ↔ Runs.StepsMeet PollSafe s run := by
  have hexact : ∀ s op s', True → PollStep s op s' → (Serves s op s' ↔ PollSafe s op) :=
    fun _ _ _ _ hstep => serves_iff hstep
  exact Runs.everyStep_iff_stepsMeet (fun _ _ _ _ _ => trivial) hexact hrun trivial

/-- One process with one thread that waits with `pollnum` structures; the descriptor of the
first one refers to file 5. -/
def onePoller (pollnum : Half) : PollState :=
  ⟨1, fun _ => 1, fun _ => ⟨1, 1, fun _ => 1, fun _ => 0, fun _ => ⟨5, 0⟩⟩,
    fun _ => ⟨pollingMask, 4096, pollnum, 0⟩, fun _ => ⟨0, 1, 0⟩⟩

/-- One process with two threads, of which the second lies behind the count: it waits for an
event of file 5 and has been woken and told of it. -/
def markedPoller : PollState :=
  ⟨1, fun _ => 1, fun _ => ⟨2, 1, fun _ => 1, fun k => k, fun _ => ⟨5, 0⟩⟩,
    fun n => if n = 1 then ⟨0, 4096, 1, 0⟩ else ⟨0, 0, 0, 0⟩, fun _ => ⟨0, 1, 1⟩⟩

/-- The first thread polls without structures, and the event comes once more. -/
theorem events_served_iff_marked :
    let polled := sysPoll markedPoller 0 8192
    Awaits polled 5 1 0 1 0 ∧
      Runs.EveryStep Serves (some markedPoller)
        [(.poll 0 8192, some polled), (.report 5 1, some polled)] := by
  intro polled
  have hvisited : NothingVisited polled := by
    intro i k _ hk
    obtain rfl : k = 0 := Nat.lt_one_iff.mp hk
    rfl
  have hawaited : NothingAwaited polled 5 1 := by
    rintro i k w ⟨⟨-, hk, -⟩, hw, -⟩
    replace hk : k < 2 := hk
    obtain rfl | rfl : k = 0 ∨ k = 1 := by omega
    · exact absurd hw (BitVec.not_lt_zero)
    · have hwoken : (0 : Half) &&& pollingMask = 0 := by decide
      exact ⟨hwoken, rfl⟩
  have hreturns : ∃ fuel, reportIO 5 1 fuel polled = some polled :=
    reportIO_returns_iff.mpr ⟨hvisited, rfl⟩
  obtain ⟨fuel, hreturns⟩ := hreturns
  have hrun : Runs.Run PollStep (some markedPoller)
      [(.poll 0 8192, some polled), (.report 5 1, some polled)] :=
    .cons rfl (.cons (Or.inl ⟨fuel, _, hreturns, rfl⟩) (.nil _))
  refine ⟨⟨⟨⟨by decide, by decide⟩, by decide, by decide⟩, by decide, rfl, by decide⟩, ?_⟩
  exact (events_served_iff hrun).mpr ⟨trivial, ⟨hvisited, hawaited⟩, trivial⟩

/-- **With one structure that waits for the event the call never ends.** -/
theorem awaited_event_not_served :
    Runs.Run PollStep (some (onePoller 1)) [(.report 5 1, none)] ∧
      ¬ Runs.EveryStep Serves (some (onePoller 1)) [(.report 5 1, none)] := by
  constructor
  · refine .cons (Or.inr ⟨fun fuel => ?_, rfl⟩) (.nil _)
    exact reportIO_never (i := 0) (k := 0) (by decide) (by decide) (by decide) fuel
  · rintro ⟨⟨t, ht, _⟩, _⟩
    cases ht

end Spec

end Sched
end BestKernel
