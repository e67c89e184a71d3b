import BestKernel.Library.Runs
import BestKernel.Sched.Selection

/-!
# One processor per thread

The scheduler as a step relation over all processors: `routine` after a boot or
an idle stretch, `sysret` of an `APPLICATION` thread, the timer and
`get_some_help`.  A processor has its `current_thread` and the thread object it
runs.

Nothing sets `taken` when a thread is picked, so the search of one processor
stops at threads that another one runs.  `one_processor_per_thread_iff` says that
this is the whole defect: a run is good exactly when every selection happens to
stop at a thread that no other processor runs.  That an idle thread can be
picked again never fails.
-/

namespace BestKernel
namespace Sched

open Machine

/-- A processor.  `running` is the slot of its thread object. -/
structure Processor where
  current_thread : Option Nat
  executed_threads : Half
  online_capable : Half
  running : Option Nat

structure SchedState where
  processors : Nat → Processor
  threads : Threads

inductive SchedOp where
  | select (p : Nat)
  | sysret (p : Nat)
  | timedOut (p : Nat)
  | getSomeHelp (p : Nat)

namespace SchedState

/-- The end of `routine`: run what was selected, or halt. -/
def routine (s : SchedState) (p : Nat) (found : Option Nat) (threads : Threads) :
    SchedState :=
  let processor := s.processors p
  let executed_threads :=
    if found.isSome then processor.executed_threads + 1
    else processor.executed_threads
  ⟨Function.update s.processors p
    ⟨found, executed_threads, processor.online_capable, found⟩, threads⟩

/-- `thread->taken = 0` -/
def released (s : SchedState) (t : Nat) : Threads :=
  Function.update s.threads t { s.threads t with taken := 0 }

/-- The processor that `get_some_help` turns to, of `number`. -/
def brother (s : SchedState) (number : Nat) : Option Nat :=
  (List.range number).find? fun b =>
    (s.processors b).executed_threads == 0 && (s.processors b).online_capable != 0

/-- The assignments of `get_some_help` after its selection, and `help_out` on
the processor that is poked. -/
def handOver (s : SchedState) (p b i : Nat) (threads : Threads) : SchedState :=
  let backup := (s.processors p).current_thread
  let ps := Function.update s.processors p
    { s.processors p with current_thread := some i }
  let ps := Function.update ps b
    { ps b with current_thread := (ps p).current_thread }
  let ps := Function.update ps p { ps p with current_thread := backup }
  let ps := Function.update ps b { ps b with running := (ps b).current_thread }
  ⟨ps, threads⟩

end SchedState

/-- A processor that asks itself for help runs its current thread again. -/
def handed (s : SchedState) (p b i : Nat) : Option Nat :=
  if b = p then (s.processors p).current_thread else some i

section Runs

variable (tkill pkill : Threads → Nat → Threads) (number length : Nat)

/-- The selection that processor `p` makes in a pool. -/
def Selects (s : SchedState) (p : Nat) (pool : Threads) (found : Option Nat)
    (threads : Threads) : Prop :=
  ∃ fuel, getnextThread tkill pkill (s.processors p).current_thread length fuel pool =
    some (found, threads)

/-- The steps.  A selection that does not end makes none. -/
def SchedStep (s : SchedState) (op : SchedOp) (s' : SchedState) : Prop :=
  match op with
  | .select p =>
      p < number ∧ (s.processors p).running = none ∧ ∃ found threads,
        Selects tkill pkill length s p s.threads found threads ∧
          s' = s.routine p found threads
  | .sysret p =>
      p < number ∧ ∃ t,
        (s.processors p).running = some t ∧ (s.threads t).type = .APPLICATION ∧
        ∃ found threads, Selects tkill pkill length s p (s.released t) found threads ∧
          s' = s.routine p found threads
  | .timedOut p =>
      p < number ∧ (∃ t, (s.processors p).running = some t) ∧ ∃ found threads,
        Selects tkill pkill length s p s.threads found threads ∧
          s' = s.routine p found threads
  | .getSomeHelp p =>
      p < number ∧ ∃ b, s.brother number = some b ∧ ∃ i threads,
        Selects tkill pkill length s p s.threads (some i) threads ∧
          s' = s.handOver p b i threads

/-- No two processors run a thread, and an idle one can be picked. -/
structure OneProcessorPerThread (s : SchedState) : Prop where
  exclusive : ∀ p q i, (s.processors p).running = some i →
    (s.processors q).running = some i → p = q
  available : ∀ i, (s.threads i).built = true →
    (∀ p, (s.processors p).running ≠ some i) → (s.threads i).taken = 0

/-- No processor but `p` runs thread `i`. -/
def IdleElsewhere (s : SchedState) (p i : Nat) : Prop :=
  ∀ q, q ≠ p → (s.processors q).running ≠ some i

/-- The first thread that processor `p` can pick runs on no other one. -/
def PicksIdle (s : SchedState) (p : Nat) (pool : Threads) : Prop :=
  ∀ i, FirstPick (s.processors p).current_thread length pool i → IdleElsewhere s p i

/-- The condition on a step, in the state before it. -/
def SelectionSafe (s : SchedState) : SchedOp → Prop
  | .select p => PicksIdle length s p s.threads
  | .sysret p =>
      ∀ t, (s.processors p).running = some t → PicksIdle length s p (s.released t)
  | .timedOut p => PicksIdle length s p s.threads
  | .getSomeHelp p =>
      ∀ b, s.brother number = some b → ∀ i,
        FirstPick (s.processors p).current_thread length s.threads i →
        ∀ t, handed s p b i = some t → IdleElsewhere s b t

/-- What every step keeps: current threads are in the pool, and nothing but the
construction of a thread marks it. -/
structure SchedInv (s : SchedState) : Prop where
  current : ∀ p c, (s.processors p).current_thread = some c → c < length
  taken : ∀ i, (s.threads i).built = true → (s.threads i).taken = 0

variable {tkill pkill number length}

theorem SchedInv.available
    {s : SchedState}
    (h : SchedInv length s) :
    ∀ i, (s.threads i).built = true →
      (∀ p, (s.processors p).running ≠ some i) → (s.threads i).taken = 0 :=
  fun i hbuilt _ => h.taken i hbuilt

theorem taken_released
    {s : SchedState} {t : Nat}
    (h : ∀ i, (s.threads i).built = true → (s.threads i).taken = 0) :
    ∀ i, (s.released t i).built = true → (s.released t i).taken = 0 := by
  intro i hbuilt
  unfold SchedState.released at hbuilt ⊢
  by_cases hi : i = t
  · subst hi
    simp
  · rw [Function.update_of_ne hi] at hbuilt ⊢
    exact h i hbuilt

theorem taken_cleaned
    {pool : Threads} {i : Nat}
    (h : ∀ j, (pool j).built = true → (pool j).taken = 0) :
    ∀ j, (cleaned pool i j).built = true → (cleaned pool i j).taken = 0 := by
  intro j hbuilt
  unfold cleaned at hbuilt ⊢
  split_ifs at hbuilt ⊢ with hdriver
  · by_cases hj : j = i
    · subst hj
      simp [Thread.zeroed]
    · rw [Function.update_of_ne hj] at hbuilt ⊢
      exact h j hbuilt
  · exact h j hbuilt

/-- A selection keeps the marks of threads right and returns a slot. -/
theorem Selected.keeps
    {current : Option Nat} {pool : Threads} {found : Option Nat} {threads : Threads}
    (hselected : Selected current length pool (found, threads))
    (h : ∀ i, (pool i).built = true → (pool i).taken = 0) :
    (∀ i, found = some i → i < length) ∧
      ∀ i, (threads i).built = true → (threads i).taken = 0 := by
  cases found with
  | none =>
      obtain ⟨_, rfl⟩ := hselected
      exact ⟨fun i hi => (Option.some_ne_none i hi.symm).elim, h⟩
  | some i =>
      obtain ⟨hfirst, rfl⟩ := hselected
      refine ⟨fun j hj => ?_, taken_cleaned h⟩
      cases hj
      exact hfirst.inside

theorem schedInv_routine
    {s : SchedState} {p : Nat} {found : Option Nat} {threads : Threads}
    (h : SchedInv length s)
    (hfound : ∀ i, found = some i → i < length)
    (htaken : ∀ i, (threads i).built = true → (threads i).taken = 0) :
    SchedInv length (s.routine p found threads) := by
  refine ⟨?_, htaken⟩
  intro q c hc
  unfold SchedState.routine at hc
  dsimp only at hc
  by_cases hq : q = p
  · subst hq
    rw [Function.update_self] at hc
    exact hfound c hc
  · rw [Function.update_of_ne hq] at hc
    exact h.current q c hc

/-- Who runs what after one processor has changed its thread. -/
theorem exclusive_update_iff
    {running : Nat → Option Nat} (p : Nat) (found : Option Nat)
    (h : ∀ q r i, running q = some i → running r = some i → q = r) :
    (∀ q r i, Function.update running p found q = some i →
        Function.update running p found r = some i → q = r) ↔
      ∀ i, found = some i → ∀ q, q ≠ p → running q ≠ some i := by
  constructor
  · intro h' i hi q hq hrunning
    refine hq (h' q p i ?_ ?_)
    · rwa [Function.update_of_ne hq]
    · rwa [Function.update_self]
  · intro hidle q r i hq hr
    by_cases hqp : q = p <;> by_cases hrp : r = p
    · exact hqp.trans hrp.symm
    · rw [hqp, Function.update_self] at hq
      rw [Function.update_of_ne hrp] at hr
      exact absurd hr (hidle i hq r hrp)
    · rw [hrp, Function.update_self] at hr
      rw [Function.update_of_ne hqp] at hq
      exact absurd hq (hidle i hr q hqp)
    · rw [Function.update_of_ne hqp] at hq
      rw [Function.update_of_ne hrp] at hr
      exact h q r i hq hr

/-- A state in which `p` runs `found` and nothing else has changed. -/
theorem oneProcessorPerThread_iff
    {s s' : SchedState} {p : Nat} {found : Option Nat}
    (h : OneProcessorPerThread s)
    (hinv : SchedInv length s')
    (hrunning : (fun q => (s'.processors q).running) =
      Function.update (fun q => (s.processors q).running) p found) :
    OneProcessorPerThread s' ↔ ∀ i, found = some i → IdleElsewhere s p i := by
  have hupdate := exclusive_update_iff p found h.exclusive
  rw [← hrunning] at hupdate
  exact ⟨fun h' => hupdate.mp h'.exclusive,
    fun hidle => ⟨hupdate.mpr hidle, hinv.available⟩⟩

theorem running_routine
    {s : SchedState} {p : Nat} {found : Option Nat} {threads : Threads} :
    (fun q => ((s.routine p found threads).processors q).running) =
      Function.update (fun q => (s.processors q).running) p found := by
  funext q
  unfold SchedState.routine
  by_cases hq : q = p
  · subst hq
    simp
  · simp [hq]

theorem running_handOver
    {s : SchedState} {p b i : Nat} {threads : Threads} :
    (fun q => ((s.handOver p b i threads).processors q).running) =
      Function.update (fun q => (s.processors q).running) b (handed s p b i) := by
  funext q
  unfold SchedState.handOver handed
  by_cases hq : q = b
  · subst hq
    by_cases hp : q = p
    · subst hp
      simp
    · simp [hp]
  · by_cases hp : q = p
    · subst hp
      simp [hq]
    · simp [hp, hq]

theorem schedInv_handOver
    {s : SchedState} {p b i : Nat} {threads : Threads}
    (h : SchedInv length s)
    (hi : i < length)
    (htaken : ∀ i, (threads i).built = true → (threads i).taken = 0) :
    SchedInv length (s.handOver p b i threads) := by
  refine ⟨?_, htaken⟩
  intro q c hc
  unfold SchedState.handOver at hc
  dsimp only at hc
  by_cases hp : q = p
  · subst hp
    refine h.current q c ?_
    by_cases hq : q = b
    · subst hq
      simpa using hc
    · simpa [hq] using hc
  · by_cases hq : q = b
    · subst hq
      have hic : some i = some c := by simpa [hp] using hc
      cases hic
      exact hi
    · exact h.current q c (by simpa [hp, hq] using hc)

/-- The three ways into `routine` keep the invariant and differ in the pool. -/
theorem routine_iff
    {s : SchedState} {p : Nat} {pool : Threads} {found : Option Nat} {threads : Threads}
    (hlength : 0 < length)
    (hinv : SchedInv length s)
    (htaken : ∀ i, (pool i).built = true → (pool i).taken = 0)
    (hselects : Selects tkill pkill length s p pool found threads) :
    SchedInv length (s.routine p found threads) ∧
      (OneProcessorPerThread s →
        (OneProcessorPerThread (s.routine p found threads) ↔
          PicksIdle length s p pool)) := by
  obtain ⟨fuel, hrun⟩ := hselects
  have hselected := getnextThread_selected hlength (hinv.current p) hrun
  obtain ⟨hfound, htaken'⟩ := hselected.keeps htaken
  have hinv' := schedInv_routine (p := p) hinv hfound htaken'
  refine ⟨hinv', fun h => ?_⟩
  have hiff := oneProcessorPerThread_iff h hinv' running_routine
  exact hiff.trans (forall_selected_iff hselected (IdleElsewhere s p))

theorem handOver_iff
    {s : SchedState} {p b i : Nat} {threads : Threads}
    (hlength : 0 < length)
    (hinv : SchedInv length s)
    (hselects : Selects tkill pkill length s p s.threads (some i) threads) :
    SchedInv length (s.handOver p b i threads) ∧
      (OneProcessorPerThread s →
        (OneProcessorPerThread (s.handOver p b i threads) ↔
          ∀ j, FirstPick (s.processors p).current_thread length s.threads j →
            ∀ t, handed s p b j = some t → IdleElsewhere s b t)) := by
  obtain ⟨fuel, hrun⟩ := hselects
  have hselected := getnextThread_selected hlength (hinv.current p) hrun
  obtain ⟨hfound, htaken'⟩ := hselected.keeps hinv.taken
  have hinv' := schedInv_handOver (p := p) (b := b) hinv (hfound i rfl) htaken'
  refine ⟨hinv', fun h => ?_⟩
  have hiff := oneProcessorPerThread_iff h hinv' running_handOver
  have hfirst := forall_selected_iff hselected fun j =>
    ∀ t, handed s p b j = some t → IdleElsewhere s b t
  refine hiff.trans (Iff.trans ?_ hfirst)
  exact ⟨fun hidle j hj => Option.some.inj hj ▸ hidle, fun hidle => hidle i rfl⟩

/-- Steps keep the invariant, and the safe ones are those that keep threads to
one processor. -/
theorem schedStep_iff
    {s s' : SchedState} {op : SchedOp}
    (hlength : 0 < length)
    (hinv : SchedInv length s)
    (hstep : SchedStep tkill pkill number length s op s') :
    SchedInv length s' ∧
      (OneProcessorPerThread s →
        (OneProcessorPerThread s' ↔ SelectionSafe number length s op)) := by
  cases op with
  | select p =>
      obtain ⟨_, _, found, threads, hselects, rfl⟩ := hstep
      exact routine_iff hlength hinv hinv.taken hselects
  | sysret p =>
      obtain ⟨_, t, ht, _, found, threads, hselects, rfl⟩ := hstep
      obtain ⟨hinv', hiff⟩ :=
        routine_iff hlength hinv (taken_released hinv.taken) hselects
      refine ⟨hinv', fun h => (hiff h).trans ⟨?_, fun hsafe => hsafe t ht⟩⟩
      intro hpicks t' ht'
      rw [ht] at ht'
      cases ht'
      exact hpicks
  | timedOut p =>
      obtain ⟨_, _, found, threads, hselects, rfl⟩ := hstep
      exact routine_iff hlength hinv hinv.taken hselects
  | getSomeHelp p =>
      obtain ⟨_, b, hb, i, threads, hselects, rfl⟩ := hstep
      obtain ⟨hinv', hiff⟩ := handOver_iff (b := b) hlength hinv hselects
      refine ⟨hinv', fun h => (hiff h).trans ⟨?_, fun hsafe => hsafe b hb⟩⟩
      intro hidle b' hb'
      rw [hb] at hb'
      cases hb'
      exact hidle

section Run

variable {s : SchedState} {run : List (SchedOp × SchedState)}

/-- An idle thread that is built can be picked again in every state of a run. -/
theorem always_available
    (hlength : 0 < length)
    (hinv : SchedInv length s)
    (hrun : Runs.Run (SchedStep tkill pkill number length) s run) :
    Runs.Always (fun t => ∀ i, (t.threads i).built = true →
      (∀ p, (t.processors p).running ≠ some i) → (t.threads i).taken = 0) s run := by
  have hkeep : ∀ t op t', SchedInv length t →
      SchedStep tkill pkill number length t op t' → SchedInv length t' :=
    fun _ _ _ ht hstep => (schedStep_iff hlength ht hstep).1
  exact (Runs.always_of_preserved hkeep hrun hinv).mono fun _ ht => ht.available

/--
**Every thread runs on one processor along a run exactly when every selection
stops at a thread that no other processor runs.**
-/
theorem one_processor_per_thread_iff
    (hlength : 0 < length)
    (hcurrent : ∀ p c, (s.processors p).current_thread = some c → c < length)
    (hidle : ∀ p, (s.processors p).running = none)
    (hbuilt : ∀ i, (s.threads i).built = true → (s.threads i).taken = 0)
    (hrun : Runs.Run (SchedStep tkill pkill number length) s run) :
    Runs.Always OneProcessorPerThread s run ↔
      Runs.StepsMeet (SelectionSafe number length) s run := by
  have hstart : SchedInv length s := ⟨hcurrent, hbuilt⟩
  have hkept : OneProcessorPerThread s := by
    refine ⟨?_, hstart.available⟩
    intro p q i hp
    rw [hidle p] at hp
    cases hp
  have hinv : ∀ t op t', SchedInv length t → OneProcessorPerThread t →
      SchedStep tkill pkill number length t op t' → OneProcessorPerThread t' →
      SchedInv length t' :=
    fun _ _ _ ht _ hstep _ => (schedStep_iff hlength ht hstep).1
  have hexact : ∀ t op t', SchedInv length t → OneProcessorPerThread t →
      SchedStep tkill pkill number length t op t' →
      (OneProcessorPerThread t' ↔ SelectionSafe number length t op) :=
    fun _ _ _ ht hP hstep => (schedStep_iff hlength ht hstep).2 hP
  exact Runs.always_iff_stepsMeet_of_invariant hinv hexact hrun hstart hkept

end Run

end Runs

section Examples

/-- Two built threads and processors that have not run yet. -/
def twoThreads : SchedState where
  processors := fun _ => ⟨none, 0, 1, none⟩
  threads := fun _ => ⟨.THREAD, 0, 0, 1, true⟩

/-- Processor 0 selects, then processor 1. -/
def afterFirst : SchedState := twoThreads.routine 0 (some 0) twoThreads.threads

def afterSecond : SchedState := afterFirst.routine 1 (some 0) twoThreads.threads

def bothSelect : List (SchedOp × SchedState) :=
  [(.select 0, afterFirst), (.select 1, afterSecond)]

theorem run_bothSelect :
    Runs.Run (SchedStep (fun pool _ => pool) (fun pool _ => pool) 2 2) twoThreads
      bothSelect :=
  .cons ⟨by decide, rfl, some 0, _, ⟨1, rfl⟩, rfl⟩
    (.cons ⟨by decide, rfl, some 0, _, ⟨1, rfl⟩, rfl⟩ (.nil _))

/-- Both run thread 0. -/
theorem bothSelect_not_exclusive :
    Runs.Run (SchedStep (fun pool _ => pool) (fun pool _ => pool) 2 2) twoThreads
        bothSelect ∧
      ¬ Runs.Always OneProcessorPerThread twoThreads bothSelect := by
  refine ⟨run_bothSelect, ?_⟩
  rintro ⟨_, hall⟩
  have hafter : OneProcessorPerThread afterSecond :=
    hall (.select 1, afterSecond) (by simp [bothSelect])
  exact absurd (hafter.exclusive 0 1 0 rfl rfl) (by decide)

theorem one_processor_per_thread_iff_bothSelect :
    Runs.Always OneProcessorPerThread twoThreads bothSelect ↔
      Runs.StepsMeet (SelectionSafe 2 2) twoThreads bothSelect :=
  one_processor_per_thread_iff (by decide)
    (fun _ _ hc => by cases hc) (fun _ => rfl) (fun _ _ => rfl) run_bothSelect

end Examples

end Sched
end BestKernel
