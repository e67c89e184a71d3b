import BestKernel.Library.Loops
import BestKernel.Library.Words

/-!
# Selecting the next thread

`getnext_thread` goes round the pool of threads from the one behind
`current_thread` on and stops at the first that is not `taken`.  Here it is a
loop with fuel, since it does not end when nothing is found and the slot it
started from is 0 or none.

Readings of the source.  `current_thread` is `none` for `-1`.  `SIGKILL` is the
first enumerator, so `sigset & SIGKILL` is 0 and nothing is ever killed here;
what `TKILL` and `PKILL` would do to the pool is a parameter.  The slot freed
for a `DRIVER` is `&tking->pool[i]`, which leaves a zeroed thread.  The last test
of the loop, on `target_micros`, continues a loop that would continue anyway.
`APPLICATION`, which `enum thread_types` lacks, is a type of its own.
-/

namespace BestKernel
namespace Sched

open Machine

/-- `enum thread_types`. -/
inductive ThreadType where
  | DRIVER
  | MODULE
  | THREAD
  | DEVICE
  | KERNEL
  | APPLICATION
deriving DecidableEq, Repr

namespace Signals

abbrev SIGKILL : Half := 0

end Signals

/-- What selection looks at in a thread and its parent.  `built` is not a field
of the source: it says that the construction of the thread is over. -/
structure Thread where
  type : ThreadType
  taken : Half
  sigset : Half
  workers : Half
  built : Bool

/-- A slot after `pool_free`. -/
def Thread.zeroed : Thread := ⟨.DRIVER, 0, 0, 0, false⟩

/-- `parent->sigset & SIGKILL`. -/
def Thread.killed (t : Thread) : Bool := t.sigset &&& Signals.SIGKILL != 0

/-- No thread is ever found killed. -/
theorem Thread.killed_eq_false (t : Thread) : t.killed = false := by
  simp [Thread.killed]

abbrev Threads := Nat → Thread

section Scan

variable (tkill pkill : Threads → Nat → Threads)
variable (current : Option Nat) (length : Nat)

/-- One round of the loop of `getnext_thread`. -/
def scanRound (s : Nat × Threads) : Nat × Threads ⊕ Option Nat × Threads :=
  let (i, pool) := s
  if current = some i then .inr (none, pool)
  else
    let i := if i = length then 0 else i
    let pool :=
      if (pool i).killed then
        let pool := tkill pool i
        if (pool i).workers = 0 then pkill pool i else pool
      else pool
    let pool :=
      if (pool i).type = .DRIVER then Function.update pool i Thread.zeroed else pool
    if (pool i).taken = 0 then .inr (some i, pool) else .inl (i + 1, pool)

/-- `current_thread+1`. -/
def firstIndex : Option Nat → Nat
  | none => 0
  | some c => c + 1

/-- The new `current_thread` and the pool. -/
def getnextThread (fuel : Nat) (pool : Threads) : Option (Option Nat × Threads) :=
  Loops.run (scanRound tkill pkill current length) fuel (firstIndex current, pool)

end Scan

/-- What the loop stops at. -/
def Pickable (t : Thread) : Prop := t.type = .DRIVER ∨ t.taken = 0

instance (t : Thread) : Decidable (Pickable t) :=
  inferInstanceAs (Decidable (_ ∨ _))

/-- The pool after slot `i` was picked. -/
def cleaned (pool : Threads) (i : Nat) : Threads :=
  if (pool i).type = .DRIVER then Function.update pool i Thread.zeroed else pool

/-- Slot `j` comes before slot `i` on the way round from `start`. -/
def Before (start j i : Nat) : Prop :=
  if start ≤ i then start ≤ j ∧ j < i else start ≤ j ∨ j < i

/-- Slot `i` is the first that can be picked, apart from the current one, which
the loop does not come back to unless it is slot 0. -/
structure FirstPick (current : Option Nat) (length : Nat) (pool : Threads)
    (i : Nat) : Prop where
  inside : i < length
  other : ∀ c, current = some c → 0 < c → i ≠ c
  pickable : Pickable (pool i)
  first : ∀ j, j < length → Before (firstIndex current) j i → ¬ Pickable (pool j)

theorem before_total
    (start : Nat) {i j : Nat}
    (hne : i ≠ j) :
    Before start i j ∨ Before start j i := by
  unfold Before
  split_ifs <;> omega

section Spec

variable {tkill pkill : Threads → Nat → Threads}
variable {current : Option Nat} {length : Nat} {pool : Threads}

theorem FirstPick.unique
    {i j : Nat}
    (hi : FirstPick current length pool i)
    (hj : FirstPick current length pool j) :
    i = j := by
  by_contra hne
  rcases before_total (firstIndex current) hne with h | h
  · exact hj.first i hi.inside h hi.pickable
  · exact hi.first j hj.inside h hj.pickable

/-- A round, without what never happens. -/
theorem scanRound_eq (i : Nat) :
    scanRound tkill pkill current length (i, pool) =
      if current = some i then .inr (none, pool)
      else if Pickable (pool (if i = length then 0 else i)) then
        .inr (some (if i = length then 0 else i),
          cleaned pool (if i = length then 0 else i))
      else .inl ((if i = length then 0 else i) + 1, pool) := by
  unfold scanRound
  dsimp only
  generalize (if i = length then 0 else i) = k
  rw [Thread.killed_eq_false]
  split_ifs with hcurrent hkilled hdriver htaken hpick hpick htaken hpick hpick
  all_goals first
    | rfl
    | simp_all [Pickable, cleaned, Thread.zeroed]

/-- The slots that the loop has passed when it is at `i`. -/
def Passed (current : Option Nat) (length : Nat) (pool : Threads) (i : Nat) : Prop :=
  i ≤ length ∧
    ((firstIndex current ≤ i ∧
        ∀ j, firstIndex current ≤ j → j < i → ¬ Pickable (pool j)) ∨
      (1 ≤ i ∧ ∀ j, j < length → firstIndex current ≤ j ∨ j < i → ¬ Pickable (pool j)))

/-- What a selection may return. -/
def Selected (current : Option Nat) (length : Nat) (pool : Threads) :
    Option Nat × Threads → Prop
  | (none, pool') => (∀ i, ¬ FirstPick current length pool i) ∧ pool' = pool
  | (some i, pool') => FirstPick current length pool i ∧ pool' = cleaned pool i

theorem passed_next
    {i : Nat}
    (hlength : 0 < length)
    (hpassed : Passed current length pool i)
    (hpick : ¬ Pickable (pool (if i = length then 0 else i))) :
    Passed current length pool ((if i = length then 0 else i) + 1) := by
  obtain ⟨hle, hphase⟩ := hpassed
  split_ifs at hpick ⊢ with hwrap
  · subst hwrap
    refine ⟨hlength, Or.inr ⟨Nat.le_refl 1, ?_⟩⟩
    intro j hj hwhere
    by_cases hzero : j = 0
    · rwa [hzero]
    · rcases hphase with ⟨_, hfirst⟩ | ⟨_, hsecond⟩
      · exact hfirst j (by omega) hj
      · exact hsecond j hj (by omega)
  · refine ⟨by omega, ?_⟩
    rcases hphase with ⟨hstart, hfirst⟩ | ⟨hone, hsecond⟩
    · refine Or.inl ⟨by omega, ?_⟩
      intro j hj hji
      by_cases hlast : j = i
      · rwa [hlast]
      · exact hfirst j hj (by omega)
    · refine Or.inr ⟨by omega, ?_⟩
      intro j hj hwhere
      by_cases hlast : j = i
      · rwa [hlast]
      · exact hsecond j hj (by omega)

theorem firstPick_of_passed
    {i : Nat}
    (hlength : 0 < length)
    (hcurrent : current ≠ some i)
    (hpassed : Passed current length pool i)
    (hpick : Pickable (pool (if i = length then 0 else i))) :
    FirstPick current length pool (if i = length then 0 else i) := by
  obtain ⟨hle, hphase⟩ := hpassed
  refine ⟨?_, ?_, hpick, ?_⟩
  · split_ifs <;> omega
  · intro c hc hpos
    split_ifs with hwrap
    · omega
    · rintro rfl
      exact hcurrent hc
  · intro j hj hbefore
    unfold Before at hbefore
    split_ifs at hpick hbefore with hwrap hstart hstart
    · subst hwrap
      omega
    · subst hwrap
      rcases hphase with ⟨_, hfirst⟩ | ⟨_, hsecond⟩
      · exact hfirst j (by omega) hj
      · exact hsecond j hj (by omega)
    · rcases hphase with ⟨_, hfirst⟩ | ⟨_, hsecond⟩
      · exact hfirst j hbefore.1 hbefore.2
      · exact absurd hpick (hsecond i (by omega) (Or.inl hstart))
    · rcases hphase with ⟨hle', _⟩ | ⟨_, hsecond⟩
      · omega
      · exact hsecond j hj hbefore

theorem not_firstPick_of_passed
    {c : Nat}
    (hcurrent : current = some c)
    (hpassed : Passed current length pool c)
    (i : Nat) :
    ¬ FirstPick current length pool i := by
  intro hi
  obtain ⟨_, hphase⟩ := hpassed
  subst hcurrent
  rcases hphase with ⟨hstart, _⟩ | ⟨hone, hsecond⟩
  · simp only [firstIndex] at hstart
    omega
  · have hne := hi.other c rfl hone
    refine hsecond i hi.inside ?_ hi.pickable
    simp only [firstIndex]
    omega

/-- **`getnext_thread` picks the first thread that can be picked.** -/
theorem getnextThread_selected
    {fuel : Nat} {result : Option Nat × Threads}
    (hlength : 0 < length)
    (hcurrent : ∀ c, current = some c → c < length)
    (h : getnextThread tkill pkill current length fuel pool = some result) :
    Selected current length pool result := by
  refine Loops.run_invariant
    (I := fun s : Nat × Threads => s.2 = pool ∧ Passed current length pool s.1)
    ?_ ?_ ⟨rfl, ?_⟩ h
  · rintro ⟨i, pool'⟩ s' ⟨rfl, hpassed⟩ hround
    rw [scanRound_eq] at hround
    by_cases hc : current = some i
    · rw [if_pos hc] at hround
      cases hround
    · rw [if_neg hc] at hround
      by_cases hpick : Pickable (pool' (if i = length then 0 else i))
      · rw [if_pos hpick] at hround
        cases hround
      · rw [if_neg hpick] at hround
        cases hround
        exact ⟨rfl, passed_next hlength hpassed hpick⟩
  · rintro ⟨i, pool'⟩ r ⟨rfl, hpassed⟩ hround
    rw [scanRound_eq] at hround
    by_cases hc : current = some i
    · rw [if_pos hc] at hround
      cases hround
      exact ⟨not_firstPick_of_passed hc hpassed, rfl⟩
    · rw [if_neg hc] at hround
      by_cases hpick : Pickable (pool' (if i = length then 0 else i))
      · rw [if_pos hpick] at hround
        cases hround
        exact ⟨firstPick_of_passed hlength hc hpassed hpick, rfl⟩
      · rw [if_neg hpick] at hround
        cases hround
  · unfold Passed
    cases current with
    | none => exact ⟨Nat.zero_le _, Or.inl ⟨Nat.le_refl _, fun j _ hj => by
        simp only [firstIndex] at hj; omega⟩⟩
    | some c => exact ⟨hcurrent c rfl, Or.inl ⟨Nat.le_refl _, fun j hj hj' => by omega⟩⟩

/-- What holds of the thread selected holds of the first that can be picked. -/
theorem forall_selected_iff
    {found : Option Nat} {pool' : Threads}
    (h : Selected current length pool (found, pool'))
    (Q : Nat → Prop) :
    (∀ i, found = some i → Q i) ↔ ∀ i, FirstPick current length pool i → Q i := by
  cases found with
  | none =>
      refine ⟨fun _ i hi => absurd hi (h.1 i), fun _ i hi => ?_⟩
      cases hi
  | some i =>
      constructor
      · intro hQ j hj
        rw [← h.1.unique hj]
        exact hQ i rfl
      · intro hQ j hj
        cases hj
        exact hQ i h.1

end Spec

end Sched
end BestKernel
