import BestKernel.Sched.Exclusion

/-!
# How long a thread waits

`getnext_thread` starts behind the current thread and goes round, so a thread that can be
picked comes closer with every selection of a processor, whatever the other processors
select meanwhile.  `turns` counts how many selections away it can be at most: it orders
the slots as the loop meets them (`before_iff_turns`), and a selection of another slot
lowers it (`turns_lt_of_selected`).

`picked_within_round` is the bound over whole runs of the scheduler.  `get_some_help` would
break it, since it puts another processor's choice into `current_thread`; but it turns to
processors with `executed_threads` 0 only, and that counter goes up by one at most while
the turns go down.
-/

namespace BestKernel
namespace Sched

open Machine

section Turns

/-- How many selections away slot `k` is at most.  The current slot itself is met last,
and only after the processor has found nothing else. -/
def turns (current : Option Nat) (length k : Nat) : Nat :=
  match current with
  | none => k + 1
  | some c => if c < k then k - c else if c = k then length + 1 else length - c + k

variable {current : Option Nat} {length : Nat} {pool : Threads} {k : Nat}

theorem turns_pos
    (hcurrent : ∀ c, current = some c → c < length) :
    0 < turns current length k := by
  cases current with
  | none => exact Nat.succ_pos k
  | some c =>
      have hc := hcurrent c rfl
      unfold turns
      dsimp only
      split_ifs <;> omega

theorem turns_le
    (hk : k < length) :
    turns current length k ≤ length + 1 := by
  cases current with
  | none =>
      unfold turns
      dsimp only
      omega
  | some c =>
      unfold turns
      dsimp only
      split_ifs <;> omega

/-- Slots are met in the order of their turns. -/
theorem before_iff_turns
    {i j : Nat}
    (hi : i < length)
    (hj : j < length)
    (hcurrent : ∀ c, current = some c → c < length)
    (hic : current ≠ some i)
    (hjc : current ≠ some j) :
    Before (firstIndex current) j i ↔ turns current length j < turns current length i := by
  cases current with
  | none =>
      unfold Before firstIndex turns
      dsimp only
      split_ifs <;> omega
  | some c =>
      have hc := hcurrent c rfl
      have hci : c ≠ i := fun h => hic (congrArg some h)
      have hcj : c ≠ j := fun h => hjc (congrArg some h)
      unfold Before firstIndex turns
      dsimp only
      split_ifs <;> omega

/-- A slot that can be picked keeps the loop from finding nothing. -/
theorem exists_firstPick
    (hk : k < length)
    (hcurrent : ∀ c, current = some c → c < length)
    (hne : current ≠ some k)
    (hpick : Pickable (pool k)) :
    ∃ i, FirstPick current length pool i := by
  -- of all the slots that can be picked, the one whose turn comes first
  induction hn : turns current length k using Nat.strongRecOn generalizing k with
  | _ n ih =>
      subst hn
      by_cases hfirst :
          ∃ j, j < length ∧ Before (firstIndex current) j k ∧ Pickable (pool j)
      · obtain ⟨j, hj, hbefore, hpickj⟩ := hfirst
        have hnej : current ≠ some j := by
          rintro rfl
          unfold Before firstIndex at hbefore
          dsimp only at hbefore
          split_ifs at hbefore <;> omega
        have hlt := (before_iff_turns hk hj hcurrent hne hnej).mp hbefore
        exact ih _ hlt hj hnej hpickj rfl
      · refine ⟨k, hk, ?_, hpick, ?_⟩
        · rintro c rfl _ rfl
          exact hne rfl
        · intro j hj hbefore hpickj
          exact hfirst ⟨j, hj, hbefore, hpickj⟩

/-- **A selection of another slot brings a slot that can be picked closer.** -/
theorem turns_lt_of_selected
    {found : Option Nat} {pool' : Threads}
    (hk : k < length)
    (hcurrent : ∀ c, current = some c → c < length)
    (hpick : Pickable (pool k))
    (hselected : Selected current length pool (found, pool'))
    (hne : found ≠ some k) :
    turns found length k < turns current length k := by
  by_cases hck : current = some k
  · have hlast : turns current length k = length + 1 := by
      rw [hck, turns, if_neg (Nat.lt_irrefl k), if_pos rfl]
    rw [hlast]
    cases found with
    | none => exact Nat.succ_lt_succ hk
    | some i =>
        have hik : i ≠ k := fun h => hne (congrArg some h)
        have hi := hselected.1.inside
        unfold turns
        dsimp only
        split_ifs <;> omega
  · cases found with
    | none =>
        obtain ⟨i, hi⟩ := exists_firstPick hk hcurrent hck hpick
        exact absurd hi (hselected.1 i)
    | some i =>
        have hik : i ≠ k := fun h => hne (congrArg some h)
        have hi := hselected.1.inside
        have hnot : ¬ Before (firstIndex current) k i :=
          fun hbefore => hselected.1.first k hk hbefore hpick
        have hbefore := (before_total (firstIndex current) hik).resolve_right hnot
        cases current with
        | none =>
            unfold Before firstIndex at hbefore
            unfold turns
            dsimp only at hbefore ⊢
            split_ifs at hbefore ⊢ <;> omega
        | some c =>
            have hc := hcurrent c rfl
            have hkc : c ≠ k := fun h => hck (congrArg some h)
            unfold Before firstIndex at hbefore
            unfold turns
            dsimp only at hbefore ⊢
            split_ifs at hbefore ⊢ <;> omega

/-- A selection leaves what can be picked so. -/
theorem Selected.pickable
    {found : Option Nat} {pool' : Threads}
    (hselected : Selected current length pool (found, pool'))
    (hpick : Pickable (pool k)) :
    Pickable (pool' k) := by
  cases found with
  | none =>
      rw [hselected.2]
      exact hpick
  | some i =>
      rw [hselected.2, cleaned]
      split_ifs with hdriver
      · by_cases hki : k = i
        · subst hki
          rw [Function.update_self]
          exact .inl rfl
        · rwa [Function.update_of_ne hki]
      · exact hpick

end Turns

section Waits

/-- The processor that selects its next thread in a step. -/
def SchedOp.selectsOn : SchedOp → Option Nat
  | .select p => some p
  | .sysret p => some p
  | .timedOut p => some p
  | .getSomeHelp _ => none

/-- How often processor `p` selects in a run. -/
def selections (p : Nat) (run : List (SchedOp × SchedState)) : Nat :=
  run.countP fun x => decide (x.1.selectsOn = some p)

/-- In this step processor `p` selects slot `k` and runs it. -/
def PickedBy (p k : Nat) (op : SchedOp) (s' : SchedState) : Prop :=
  op.selectsOn = some p ∧ (s'.processors p).running = some k

variable {tkill pkill : Threads → Nat → Threads} {number length : Nat}

/-- What waiting for processor `p` rests on: current threads are in the pool, slot `k` can
be picked, and `executed_threads` is not 0 before the turn comes. -/
structure Waits (length p k : Nat) (s : SchedState) : Prop where
  inside : k < length
  current : ∀ q c, (s.processors q).current_thread = some c → c < length
  pickable : Pickable (s.threads k)
  online : 0 < (s.processors p).executed_threads.toNat
  room : (s.processors p).executed_threads.toNat +
    turns (s.processors p).current_thread length k < 2 ^ 32

/-- What a selection returns is in the pool. -/
theorem selected_of_selects
    {s : SchedState} {p : Nat} {pool : Threads} {found : Option Nat} {threads : Threads}
    (hlength : 0 < length)
    (hcurrent : ∀ c, (s.processors p).current_thread = some c → c < length)
    (hselects : Selects tkill pkill length s p pool found threads) :
    Selected (s.processors p).current_thread length pool (found, threads) ∧
      ∀ i, found = some i → i < length := by
  obtain ⟨fuel, hrun⟩ := hselects
  have hselected := getnextThread_selected hlength hcurrent hrun
  refine ⟨hselected, ?_⟩
  rintro i rfl
  exact hselected.1.inside

theorem routine_self
    (s : SchedState) (p : Nat) (found : Option Nat) (threads : Threads) :
    (s.routine p found threads).processors p =
      ⟨found, if found.isSome then (s.processors p).executed_threads + 1
        else (s.processors p).executed_threads,
        (s.processors p).online_capable, found⟩ := by
  simp [SchedState.routine]

theorem routine_other
    (s : SchedState) {p q : Nat} (found : Option Nat) (threads : Threads)
    (hne : q ≠ p) :
    (s.routine p found threads).processors q = s.processors q := by
  simp [SchedState.routine, hne]

/-- Help leaves the current thread of every processor but the one that is asked. -/
theorem handOver_current
    (s : SchedState) {p b i r : Nat} (threads : Threads)
    (hr : r = p ∨ r ≠ b) :
    ((s.handOver p b i threads).processors r).current_thread =
      (s.processors r).current_thread := by
  unfold SchedState.handOver
  rcases hr with rfl | hr
  · by_cases hb : r = b
    · subst hb
      simp
    · simp [hb]
  · by_cases hp : r = p
    · subst hp
      simp [hr]
    · simp [hr, hp]

theorem handOver_asked
    (s : SchedState) {p b i : Nat} (threads : Threads)
    (hne : b ≠ p) :
    ((s.handOver p b i threads).processors b).current_thread = some i := by
  simp [SchedState.handOver, hne]

theorem handOver_executed
    (s : SchedState) (p b i r : Nat) (threads : Threads) :
    ((s.handOver p b i threads).processors r).executed_threads =
      (s.processors r).executed_threads := by
  unfold SchedState.handOver
  by_cases hb : r = b <;> by_cases hp : r = p <;> by_cases hbp : b = p <;>
    simp_all

/-- Help is asked of processors that have executed nothing. -/
theorem executed_of_brother
    {s : SchedState} {b : Nat}
    (hb : s.brother number = some b) :
    (s.processors b).executed_threads = 0 := by
  have hfound := List.find?_some hb
  exact eq_of_beq (Bool.and_eq_true_iff.mp hfound).1

/-- The counter of a processor that selects: it does not come back to 0 while there is
room. -/
theorem executed_routine
    {executed : Half} {before after : Nat}
    (found : Option Nat)
    (honline : 0 < executed.toNat)
    (hroom : executed.toNat + before < 2 ^ 32)
    (hlower : after < before) :
    0 < (if found.isSome then executed + 1 else executed).toNat ∧
      (if found.isSome then executed + 1 else executed).toNat + after < 2 ^ 32 := by
  split_ifs
  · have hnext : (executed + 1).toNat = executed.toNat + 1 := by
      rw [BitVec.toNat_add]
      exact Nat.mod_eq_of_lt (by simp; omega)
    rw [hnext]
    exact ⟨Nat.succ_pos _, by omega⟩
  · exact ⟨honline, by omega⟩

/-- Slot `k` waits no longer behind a selection of a processor that goes on to run what it
has selected, and one turn less when the processor is `p` and selected another slot. -/
theorem waits_routine
    {s : SchedState} {p q k : Nat} {pool : Threads} {found : Option Nat}
    {threads : Threads}
    (hwaits : Waits length p k s)
    (hpick : Pickable (pool k))
    (hselects : Selects tkill pkill length s q pool found threads)
    (hother : q = p → found ≠ some k) :
    Waits length p k (s.routine q found threads) ∧
      turns ((s.routine q found threads).processors p).current_thread length k +
          (decide (some q = some p)).toNat ≤
        turns (s.processors p).current_thread length k := by
  have hlength := Nat.lt_of_le_of_lt (Nat.zero_le k) hwaits.inside
  obtain ⟨hselected, hfound⟩ := selected_of_selects hlength (hwaits.current q) hselects
  have hcurrent : ∀ r c,
      ((s.routine q found threads).processors r).current_thread = some c → c < length := by
    intro r c hc
    by_cases hr : r = q
    · rw [hr, routine_self] at hc
      exact hfound c hc
    · rw [routine_other s found threads hr] at hc
      exact hwaits.current r c hc
  have hpick' := hselected.pickable hpick
  by_cases hq : q = p
  · subst hq
    have hlower := turns_lt_of_selected hwaits.inside (hwaits.current q) hpick hselected
      (hother rfl)
    obtain ⟨honline, hroom⟩ := executed_routine found hwaits.online hwaits.room hlower
    refine ⟨⟨hwaits.inside, hcurrent, hpick', ?_, ?_⟩, ?_⟩
    · rw [routine_self]
      exact honline
    · rw [routine_self]
      exact hroom
    · rw [routine_self, decide_eq_true rfl, Bool.toNat_true]
      exact hlower
  · have hne : ¬ some q = some p := fun h => hq (Option.some.inj h)
    have hsame := routine_other s found threads (Ne.symm hq)
    refine ⟨⟨hwaits.inside, hcurrent, hpick', ?_, ?_⟩, ?_⟩
    · rw [hsame]
      exact hwaits.online
    · rw [hsame]
      exact hwaits.room
    · refine Nat.le_of_eq ?_
      rw [hsame, decide_eq_false hne, Bool.toNat_false, Nat.add_zero]

theorem waits_handOver
    {s : SchedState} {p q b i k : Nat} {threads : Threads}
    (hwaits : Waits length p k s)
    (hb : s.brother number = some b)
    (hselects : Selects tkill pkill length s q s.threads (some i) threads) :
    Waits length p k (s.handOver q b i threads) ∧
      ((s.handOver q b i threads).processors p).current_thread =
        (s.processors p).current_thread := by
  have hlength := Nat.lt_of_le_of_lt (Nat.zero_le k) hwaits.inside
  obtain ⟨hselected, hfound⟩ := selected_of_selects hlength (hwaits.current q) hselects
  have hpb : p ≠ b := by
    rintro rfl
    have honline := hwaits.online
    rw [executed_of_brother hb] at honline
    exact absurd honline (Nat.lt_irrefl 0)
  have hsame := handOver_current s (p := q) (i := i) threads (.inr hpb)
  refine ⟨⟨hwaits.inside, ?_, hselected.pickable hwaits.pickable, ?_, ?_⟩, hsame⟩
  · intro r c hc
    by_cases hr : r = q ∨ r ≠ b
    · rw [handOver_current s threads hr] at hc
      exact hwaits.current r c hc
    · obtain ⟨hrq, hrb⟩ := not_or.mp hr
      rw [not_ne_iff.mp hrb] at hc hrq
      rw [handOver_asked s threads hrq] at hc
      exact hfound c hc
  · rw [handOver_executed]
    exact hwaits.online
  · rw [handOver_executed, hsame]
    exact hwaits.room

/-- **One step.**  Slot `k` still waits, and not longer; when `p` selects another slot, one
turn less. -/
theorem waits_step
    {s s' : SchedState} {op : SchedOp} {p k : Nat}
    (hwaits : Waits length p k s)
    (hother : ¬ PickedBy p k op s')
    (hstep : SchedStep tkill pkill number length s op s') :
    Waits length p k s' ∧
      turns (s'.processors p).current_thread length k +
          (decide (op.selectsOn = some p)).toNat ≤
        turns (s.processors p).current_thread length k := by
  -- a processor that selects slot `k` runs it
  have hpicked : ∀ {q : Nat} {found : Option Nat} {threads : Threads},
      op.selectsOn = some q → s' = s.routine q found threads → q = p →
        found ≠ some k := by
    rintro q found threads hop rfl rfl rfl
    exact hother ⟨hop, by rw [routine_self]⟩
  cases op with
  | select q =>
      obtain ⟨_, _, found, threads, hselects, rfl⟩ := hstep
      exact waits_routine hwaits hwaits.pickable hselects (hpicked rfl rfl)
  | timedOut q =>
      obtain ⟨_, _, found, threads, hselects, rfl⟩ := hstep
      exact waits_routine hwaits hwaits.pickable hselects (hpicked rfl rfl)
  | sysret q =>
      obtain ⟨_, t, _, _, found, threads, hselects, rfl⟩ := hstep
      refine waits_routine hwaits ?_ hselects (hpicked rfl rfl)
      unfold SchedState.released
      by_cases hkt : k = t
      · subst hkt
        rw [Function.update_self]
        exact .inr rfl
      · rw [Function.update_of_ne hkt]
        exact hwaits.pickable
  | getSomeHelp q =>
      obtain ⟨_, b, hb, i, threads, hselects, rfl⟩ := hstep
      obtain ⟨hwaits', hsame⟩ := waits_handOver hwaits hb hselects
      refine ⟨hwaits', ?_⟩
      rw [hsame]
      exact Nat.le_refl _

/--
**A thread waits for no more than a round.**  On any number of processors and in any
interleaving, a processor that has run a thread before, and whose counter does not wrap
within a round, has selected every slot that could be picked once it has selected more
often than there are slots.
-/
theorem picked_within_round
    {s : SchedState} {run : List (SchedOp × SchedState)} {p k : Nat}
    (hk : k < length)
    (hcurrent : ∀ q c, (s.processors q).current_thread = some c → c < length)
    (hpick : Pickable (s.threads k))
    (honline : 0 < (s.processors p).executed_threads.toNat)
    (hroom : (s.processors p).executed_threads.toNat + length + 1 < 2 ^ 32)
    (hrun : Runs.Run (SchedStep tkill pkill number length) s run)
    (hcount : length < selections p run) :
    ∃ x, x ∈ run ∧ PickedBy p k x.1 x.2 := by
  by_contra hnever
  have hother : ∀ x, x ∈ run → ¬ PickedBy p k x.1 x.2 :=
    fun x hx hpicked => hnever ⟨x, hx, hpicked⟩
  have hturns : turns (s.processors p).current_thread length k ≤ length + 1 := turns_le hk
  have hwaits : Waits length p k s := ⟨hk, hcurrent, hpick, honline, by omega⟩
  have hlt := Runs.count_lt_of_measure (I := Waits length p k)
    (D := fun op s' => ¬ PickedBy p k op s')
    (c := fun op => decide (op.selectsOn = some p))
    (M := fun t => turns (t.processors p).current_thread length k)
    (fun t ht => turns_pos (ht.current p))
    (fun t op t' ht hD hstep => waits_step ht hD hstep)
    hrun hwaits hother
  exact absurd hcount (Nat.not_lt.mpr (Nat.le_of_lt_succ (Nat.lt_of_lt_of_le hlt hturns)))

end Waits

section Turnaround

/-- Two threads, all processors on the first one. -/
def bothOnFirst : SchedState where
  processors := fun _ => ⟨some 0, 1, 1, some 0⟩
  threads := fun _ => ⟨.THREAD, 0, 0, 1, true⟩

def firstTurn : SchedState := bothOnFirst.routine 0 (some 1) bothOnFirst.threads

def secondTurn : SchedState := firstTurn.routine 0 (some 0) bothOnFirst.threads

def thirdTurn : SchedState := secondTurn.routine 0 (some 1) bothOnFirst.threads

def threeTurns : List (SchedOp × SchedState) :=
  [(.timedOut 0, firstTurn), (.timedOut 0, secondTurn), (.timedOut 0, thirdTurn)]

theorem run_threeTurns :
    Runs.Run (SchedStep (fun pool _ => pool) (fun pool _ => pool) 1 2) bothOnFirst
      threeTurns :=
  .cons ⟨by decide, ⟨0, rfl⟩, some 1, _, ⟨1, rfl⟩, rfl⟩
    (.cons ⟨by decide, ⟨1, rfl⟩, some 0, _, ⟨1, rfl⟩, rfl⟩
      (.cons ⟨by decide, ⟨0, rfl⟩, some 1, _, ⟨1, rfl⟩, rfl⟩ (.nil _)))

theorem picked_within_round_threeTurns :
    ∃ x, x ∈ threeTurns ∧ PickedBy 0 1 x.1 x.2 :=
  picked_within_round (s := bothOnFirst) (by decide)
    (fun _ c hc => by cases hc; decide) (.inr rfl) (by decide) (by decide) run_threeTurns
    (by decide)

end Turnaround

end Sched
end BestKernel
