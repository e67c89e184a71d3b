import BestKernel.Sched.Selection
import Mathlib.Data.Nat.Find

/-!
# The next eligible thread

`getnext_thread` goes round the pool from the slot behind `current_thread` on, so the
slot of round `r` is `slotAfter r`.  It stops at the first that is a `DRIVER` or not
`taken`, without a look at `ckarray` or at `target_micros`, and it gives up only when it
meets `current_thread` again, which it never does when that is 0 or none.

`next_right_iff` says when this comes to the next eligible thread.
-/

namespace BestKernel
namespace Sched

open Machine

/-- The pool of threads with the fields that selection ought to look at. -/
structure KingPool where
  length : Nat
  pool : Threads
  ckarray : Nat → Bool
  target_micros : Nat → Word

/-- How `getnext_thread` ends: in both cases it has released the calendar. -/
structure NextEnd where
  current_thread : Option Nat
  halted : Bool
  calendar : Byte

section Specification

variable (tkill pkill : Threads → Nat → Threads)
variable (king : KingPool) (current_micros : Word) (current : Option Nat)

/-- `getnext_thread` with what follows its loop: `halt` when nothing was found. -/
def getnextEnd (fuel : Nat) : Option NextEnd :=
  (getnextThread tkill pkill current king.length fuel king.pool).map fun result =>
    ⟨result.1, result.1.isNone, 0⟩

/-- A slot that some round of the loop looks at. -/
def Dereferenced (k : Nat) : Prop :=
  ∃ s, Loops.Reaches (scanRound tkill pkill current king.length)
      (firstIndex current, king.pool) s ∧
    current ≠ some s.1 ∧ k = if s.1 = king.length then 0 else s.1

def KingPool.Occupied (k : Nat) : Prop :=
  k < king.length ∧ king.ckarray k = true

/-- What a thread must be like to be picked.  Bit 0 of a set is that of `SIGKILL`. -/
structure KingPool.Eligible (i : Nat) : Prop where
  occupied : king.Occupied i
  type : (king.pool i).type ≠ .DRIVER
  parent : (king.pool i).sigset.getLsbD 0 = false
  taken : (king.pool i).taken = 0
  due : king.target_micros i ≤ current_micros

/-- The slot `r` places behind the first one after the current slot. -/
def slotAfter (current : Option Nat) (length r : Nat) : Nat :=
  (firstIndex current + r) % length

/-- The slots other than the current one. -/
def otherSlots (current : Option Nat) (length : Nat) : Nat :=
  match current with
  | none => length
  | some _ => length - 1

/-- The first eligible slot in cyclic order. -/
def KingPool.FirstEligible (i : Nat) : Prop :=
  ∃ r, r < otherSlots current king.length ∧ i = slotAfter current king.length r ∧
    king.Eligible current_micros i ∧
    ∀ q, q < r → ¬ king.Eligible current_micros (slotAfter current king.length q)

/-- `getnext_thread` ends at the first eligible slot, or halts when no slot but the
current one is eligible, and looks at occupied slots only. -/
structure NextRight : Prop where
  ends :
    ∃ fuel e, getnextEnd tkill pkill king current fuel = some e ∧ e.calendar = 0 ∧
      ((∃ i, king.Eligible current_micros i ∧ current ≠ some i) →
        ∃ i, king.FirstEligible current_micros current i ∧ e.current_thread = some i ∧
          e.halted = false) ∧
      ((¬ ∃ i, king.Eligible current_micros i ∧ current ≠ some i) →
        e.current_thread = none ∧ e.halted = true)
  occupied : ∀ k, Dereferenced tkill pkill king current k → king.Occupied k

/-- Either the first other slot that is a `DRIVER` or not taken is eligible, and all
slots before it are occupied; or there is none, the current slot is behind slot 0, and
all other slots are occupied. -/
def NextSafe : Prop :=
  (∀ c, current = some c → c < king.length) ∧
    ((∃ r, r < otherSlots current king.length ∧
        king.Eligible current_micros (slotAfter current king.length r) ∧
        ∀ q, q < r → ¬ Pickable (king.pool (slotAfter current king.length q)) ∧
          king.Occupied (slotAfter current king.length q)) ∨
      ((∃ c, current = some c ∧ 0 < c) ∧
        ∀ q, q < otherSlots current king.length →
          ¬ Pickable (king.pool (slotAfter current king.length q)) ∧
            king.Occupied (slotAfter current king.length q)))

end Specification

theorem KingPool.Eligible.pickable
    {king : KingPool} {current_micros : Word} {i : Nat}
    (h : king.Eligible current_micros i) :
    Pickable (king.pool i) :=
  .inr h.taken

section Rounds

variable {pool : Threads} {current : Option Nat} {length : Nat}

/-- The index before round `r`: the loop counts up to `length` and goes on at 1. -/
def indexAt (current : Option Nat) (length r : Nat) : Nat :=
  if firstIndex current + r ≤ length then firstIndex current + r
  else firstIndex current + r - length

theorem firstIndex_le
    (hcurrent : ∀ c, current = some c → c < length) :
    firstIndex current ≤ length := by
  cases current with
  | none => exact Nat.zero_le length
  | some c => exact hcurrent c rfl

theorem indexAt_zero
    (hcurrent : ∀ c, current = some c → c < length) :
    indexAt current length 0 = firstIndex current :=
  if_pos (firstIndex_le hcurrent)

/-- The slot of round `r`. -/
theorem slot_indexAt
    (hcurrent : ∀ c, current = some c → c < length)
    {r : Nat}
    (hr : r < length) :
    (if indexAt current length r = length then 0 else indexAt current length r) =
      slotAfter current length r := by
  have hstart := firstIndex_le hcurrent
  unfold slotAfter
  rcases Nat.lt_trichotomy (firstIndex current + r) length with hlt | heq | hgt
  · have hindex : indexAt current length r = firstIndex current + r :=
      if_pos (Nat.le_of_lt hlt)
    rw [hindex, if_neg (Nat.ne_of_lt hlt), Nat.mod_eq_of_lt hlt]
  · have hindex : indexAt current length r = firstIndex current + r :=
      if_pos (Nat.le_of_eq heq)
    rw [hindex, if_pos heq, heq, Nat.mod_self]
  · have hindex : indexAt current length r = firstIndex current + r - length :=
      if_neg (Nat.not_le.mpr hgt)
    rw [hindex, if_neg (by omega), Nat.mod_eq_sub_mod (Nat.le_of_lt hgt),
      Nat.mod_eq_of_lt (by omega)]

/-- The rounds over the other slots do not meet the current one. -/
theorem current_ne_indexAt
    {r : Nat}
    (hr : r < otherSlots current length) :
    current ≠ some (indexAt current length r) := by
  cases current with
  | none => exact Option.some_ne_none _ |>.symm
  | some c =>
      intro h
      have hc := Option.some.inj h
      unfold indexAt firstIndex at hc
      unfold otherSlots at hr
      dsimp only at hc hr
      split_ifs at hc <;> omega

theorem otherSlots_le
    (current : Option Nat) (length : Nat) :
    otherSlots current length ≤ length := by
  cases current with
  | none => exact Nat.le_refl length
  | some c => exact Nat.sub_le length 1

/-- A round over a slot that cannot be picked leads to the next one. -/
theorem scanRound_next
    (tkill pkill : Threads → Nat → Threads)
    (hcurrent : ∀ c, current = some c → c < length)
    {r : Nat}
    (hr : r < otherSlots current length)
    (hpick : ¬ Pickable (pool (slotAfter current length r))) :
    scanRound tkill pkill current length (indexAt current length r, pool) =
      .inl (indexAt current length (r + 1), pool) := by
  have hlength : r < length := Nat.lt_of_lt_of_le hr (otherSlots_le _ _)
  have hstart := firstIndex_le hcurrent
  have hslot := slot_indexAt hcurrent hlength
  have hnext : slotAfter current length r + 1 = indexAt current length (r + 1) := by
    rw [← hslot]
    unfold indexAt
    split_ifs <;> omega
  rw [scanRound_eq, if_neg (current_ne_indexAt hr), hslot, if_neg hpick, hnext]

/-- A round over one that can be picked ends the loop. -/
theorem scanRound_found
    (tkill pkill : Threads → Nat → Threads)
    (hcurrent : ∀ c, current = some c → c < length)
    {r : Nat}
    (hr : r < otherSlots current length)
    (hpick : Pickable (pool (slotAfter current length r))) :
    scanRound tkill pkill current length (indexAt current length r, pool) =
      .inr (some (slotAfter current length r),
        cleaned pool (slotAfter current length r)) := by
  have hlength : r < length := Nat.lt_of_lt_of_le hr (otherSlots_le _ _)
  rw [scanRound_eq, if_neg (current_ne_indexAt hr), slot_indexAt hcurrent hlength,
    if_pos hpick]

/-- The loop comes to a slot when none before it can be picked. -/
theorem scan_reaches
    (tkill pkill : Threads → Nat → Threads)
    (hcurrent : ∀ c, current = some c → c < length)
    {r : Nat}
    (hr : r ≤ otherSlots current length)
    (hpick : ∀ q, q < r → ¬ Pickable (pool (slotAfter current length q))) :
    Loops.Reaches (scanRound tkill pkill current length) (firstIndex current, pool)
      (indexAt current length r, pool) := by
  induction r with
  | zero =>
      rw [indexAt_zero hcurrent]
      exact .here _
  | succ r ih =>
      have hreached := ih (by omega) (fun q hq => hpick q (by omega))
      have hround := scanRound_next tkill pkill hcurrent hr (hpick r (Nat.lt_succ_self r))
      exact hreached.trans (.next hround (.here _))

theorem indexAt_otherSlots
    {c : Nat}
    (hcurrent : c < length)
    (hpos : 0 < c) :
    indexAt (some c) length (otherSlots (some c) length) = c := by
  unfold indexAt firstIndex otherSlots
  dsimp only
  split_ifs <;> omega

/-- Behind slot 0 the loop meets the current slot again after all the others. -/
theorem scanRound_exhausted
    (tkill pkill : Threads → Nat → Threads) (pool : Threads) {c : Nat}
    (hcurrent : c < length)
    (hpos : 0 < c) :
    scanRound tkill pkill (some c) length
        (indexAt (some c) length (otherSlots (some c) length), pool) =
      .inr (none, pool) := by
  rw [scanRound_eq, indexAt_otherSlots hcurrent hpos, if_pos rfl]

/-- From slot 0 it comes to slot 0 as to any other. -/
theorem scanRound_zero
    (tkill pkill : Threads → Nat → Threads)
    (hlength : 0 < length)
    (hpick : Pickable (pool 0)) :
    scanRound tkill pkill (some 0) length
        (indexAt (some 0) length (otherSlots (some 0) length), pool) =
      .inr (some 0, cleaned pool 0) := by
  have hindex : indexAt (some 0) length (otherSlots (some 0) length) = length := by
    unfold indexAt firstIndex otherSlots
    dsimp only
    split_ifs <;> omega
  have hne : ¬ some 0 = some length :=
    fun h => Nat.ne_of_lt hlength (Option.some.inj h)
  rw [scanRound_eq, hindex, if_neg hne, if_pos rfl, if_pos hpick]

/-- With the current slot 0 or none the loop goes on as long as nothing can be picked. -/
theorem scan_endless
    (tkill pkill : Threads → Nat → Threads)
    (hlength : 0 < length)
    (hcurrent : ∀ c, current = some c → c = 0)
    (hpick : ∀ k, k < length → ¬ Pickable (pool k))
    (fuel : Nat) :
    Loops.run (scanRound tkill pkill current length) fuel (firstIndex current, pool) =
      none := by
  refine Loops.endless_of_invariant (f := fun i => (i, pool))
    (I := fun i => i ≤ length ∧ (current = some 0 → 0 < i)) ?_ ?_ fuel
  · rintro i ⟨hle, hone⟩
    have hne : ¬ current = some i := by
      intro h
      have hi := hcurrent i h
      rw [hi] at h hone
      exact Nat.lt_irrefl 0 (hone h)
    have hslot : (if i = length then 0 else i) < length := by
      split_ifs <;> omega
    refine ⟨(if i = length then 0 else i) + 1, ?_, hslot, fun _ => Nat.succ_pos _⟩
    rw [scanRound_eq, if_neg hne, if_neg (hpick _ hslot)]
  · cases current with
    | none => exact ⟨Nat.zero_le length, fun h => by cases h⟩
    | some c =>
        rw [hcurrent c rfl]
        exact ⟨hlength, fun _ => Nat.one_pos⟩

end Rounds

section Slots

variable {current : Option Nat} {length : Nat}

theorem slotAfter_lt
    (hlength : 0 < length)
    (r : Nat) :
    slotAfter current length r < length :=
  Nat.mod_lt _ hlength

/-- The slots other than the current one are those of its rounds. -/
theorem exists_slotAfter_iff
    (hcurrent : ∀ c, current = some c → c < length)
    {i : Nat}
    (hi : i < length) :
    current ≠ some i ↔ ∃ r, r < otherSlots current length ∧ i = slotAfter current length r := by
  have hstart := firstIndex_le hcurrent
  constructor
  · intro hne
    by_cases hle : firstIndex current ≤ i
    · refine ⟨i - firstIndex current, ?_, ?_⟩
      · cases current with
        | none => exact Nat.lt_of_le_of_lt (Nat.sub_le _ _) hi
        | some c =>
            unfold firstIndex otherSlots at *
            dsimp only at *
            omega
      · rw [slotAfter, Nat.add_sub_cancel' hle, Nat.mod_eq_of_lt hi]
    · refine ⟨i + length - firstIndex current, ?_, ?_⟩
      · cases current with
        | none => exact absurd (Nat.zero_le i) hle
        | some c =>
            have hic : i ≠ c := fun h => hne (congrArg some h.symm)
            unfold firstIndex otherSlots at *
            dsimp only at *
            omega
      · rw [slotAfter, show firstIndex current + (i + length - firstIndex current) =
          i + length by omega, Nat.add_mod_right, Nat.mod_eq_of_lt hi]
  · rintro ⟨r, hr, rfl⟩ h
    have hlength : r < length := Nat.lt_of_lt_of_le hr (otherSlots_le _ _)
    have hcurrent' := hcurrent _ h
    rw [← slot_indexAt hcurrent hlength] at h
    have hne := current_ne_indexAt hr
    split_ifs at h with hwrap
    · -- the slot 0 is the current one only when the loop starts behind it
      rw [h] at hwrap hr
      unfold indexAt firstIndex at hwrap
      unfold otherSlots at hr
      dsimp only at hwrap hr
      split_ifs at hwrap <;> omega
    · exact hne h

end Slots

section Ends

variable {tkill pkill : Threads → Nat → Threads}
variable {king : KingPool} {current_micros : Word} {current : Option Nat}

/-- What the loop returns from a round that it comes to. -/
theorem getnextEnd_of_exit
    (hcurrent : ∀ c, current = some c → c < king.length)
    {r : Nat} {result : Option Nat × Threads}
    (hr : r ≤ otherSlots current king.length)
    (hpick : ∀ q, q < r → ¬ Pickable (king.pool (slotAfter current king.length q)))
    (hexit : scanRound tkill pkill current king.length
      (indexAt current king.length r, king.pool) = .inr result) :
    ∃ fuel, getnextEnd tkill pkill king current fuel = some ⟨result.1, result.1.isNone, 0⟩ := by
  have hreached := scan_reaches tkill pkill hcurrent hr hpick
  obtain ⟨fuel, hrun⟩ := hreached.run (Loops.run_exit hexit 0)
  refine ⟨fuel, ?_⟩
  rw [getnextEnd, getnextThread, hrun]
  rfl

theorem getnextEnd_unique
    {fuel fuel' : Nat} {e e' : NextEnd}
    (h : getnextEnd tkill pkill king current fuel = some e)
    (h' : getnextEnd tkill pkill king current fuel' = some e') :
    e = e' := by
  unfold getnextEnd getnextThread at h h'
  rcases Option.map_eq_some_iff.mp h with ⟨result, hrun, rfl⟩
  rcases Option.map_eq_some_iff.mp h' with ⟨result', hrun', rfl⟩
  rw [Loops.run_unique hrun hrun']

/-- Every slot up to the first that can be picked is looked at. -/
theorem dereferenced_slotAfter
    (hcurrent : ∀ c, current = some c → c < king.length)
    {q : Nat}
    (hq : q < otherSlots current king.length)
    (hpick : ∀ j, j < q → ¬ Pickable (king.pool (slotAfter current king.length j))) :
    Dereferenced tkill pkill king current (slotAfter current king.length q) := by
  refine ⟨_, scan_reaches tkill pkill hcurrent (Nat.le_of_lt hq) hpick,
    current_ne_indexAt hq, ?_⟩
  exact (slot_indexAt hcurrent (Nat.lt_of_lt_of_le hq (otherSlots_le _ _))).symm

/-- And no slot behind the round that ends the loop. -/
theorem slot_of_dereferenced
    (hcurrent : ∀ c, current = some c → c < king.length)
    {r k : Nat} {result : Option Nat × Threads}
    (hr : r ≤ otherSlots current king.length)
    (hpick : ∀ q, q < r → ¬ Pickable (king.pool (slotAfter current king.length q)))
    (hexit : scanRound tkill pkill current king.length
      (indexAt current king.length r, king.pool) = .inr result)
    (hk : Dereferenced tkill pkill king current k) :
    ∃ q, q ≤ r ∧ current ≠ some (indexAt current king.length q) ∧
      k = if indexAt current king.length q = king.length then 0
        else indexAt current king.length q := by
  rcases hk with ⟨s, hreached, hne, hslot⟩
  have hplace : ∃ q, q ≤ r ∧ s = (indexAt current king.length q, king.pool) := by
    refine hreached.invariant
      (I := fun s => ∃ q, q ≤ r ∧ s = (indexAt current king.length q, king.pool)) ?_ ?_
    · rintro s s' ⟨q, hq, rfl⟩ hround
      rcases Nat.lt_or_eq_of_le hq with hlt | rfl
      · rw [scanRound_next tkill pkill hcurrent (by omega) (hpick q hlt)] at hround
        cases hround
        exact ⟨q + 1, hlt, rfl⟩
      · rw [hexit] at hround
        cases hround
    · refine ⟨0, Nat.zero_le r, ?_⟩
      rw [indexAt_zero hcurrent]
  rcases hplace with ⟨q, hq, rfl⟩
  exact ⟨q, hq, hne, hslot⟩

/-- Nothing is eligible among slots that cannot be picked. -/
theorem not_eligible_of_not_pickable
    (current_micros : Word)
    (hcurrent : ∀ c, current = some c → c < king.length)
    (hpick : ∀ q, q < otherSlots current king.length →
      ¬ Pickable (king.pool (slotAfter current king.length q))) :
    ¬ ∃ i, king.Eligible current_micros i ∧ current ≠ some i := by
  rintro ⟨i, heligible, hne⟩
  rcases (exists_slotAfter_iff hcurrent heligible.occupied.1).mp hne with ⟨r, hr, rfl⟩
  exact hpick r hr heligible.pickable

/-- A safe pool is searched rightly. -/
theorem nextRight_of_nextSafe
    (hlength : 0 < king.length)
    (hsafe : NextSafe king current_micros current) :
    NextRight tkill pkill king current_micros current := by
  rcases hsafe with ⟨hcurrent, ⟨r, hr, heligible, hbefore⟩ | ⟨⟨c, rfl, hpos⟩, hothers⟩⟩
  · have hpick := fun q hq => (hbefore q hq).1
    have hexit := scanRound_found tkill pkill hcurrent hr heligible.pickable
    obtain ⟨fuel, hend⟩ := getnextEnd_of_exit hcurrent (Nat.le_of_lt hr) hpick hexit
    have hother : current ≠ some (slotAfter current king.length r) :=
      (exists_slotAfter_iff hcurrent (slotAfter_lt hlength r)).mpr ⟨r, hr, rfl⟩
    refine ⟨⟨fuel, _, hend, rfl, fun _ => ?_, fun hnone => ?_⟩, fun k hk => ?_⟩
    · refine ⟨_, ⟨r, hr, rfl, heligible, fun q hq hq' => ?_⟩, rfl, rfl⟩
      exact hpick q hq hq'.pickable
    · exact absurd ⟨_, heligible, hother⟩ hnone
    · rcases slot_of_dereferenced hcurrent (Nat.le_of_lt hr) hpick hexit hk with
        ⟨q, hq, -, rfl⟩
      have hlt := Nat.lt_of_lt_of_le hr (otherSlots_le _ _)
      rw [slot_indexAt hcurrent (Nat.lt_of_le_of_lt hq hlt)]
      rcases Nat.lt_or_eq_of_le hq with hlt | rfl
      · exact (hbefore q hlt).2
      · exact heligible.occupied
  · have hc := hcurrent c rfl
    have hpick := fun q hq => (hothers q hq).1
    have hexit := scanRound_exhausted tkill pkill king.pool hc hpos
    obtain ⟨fuel, hend⟩ := getnextEnd_of_exit hcurrent (Nat.le_refl _) hpick hexit
    refine ⟨⟨fuel, _, hend, rfl, fun hsome => ?_, fun _ => ⟨rfl, rfl⟩⟩, fun k hk => ?_⟩
    · exact absurd hsome (not_eligible_of_not_pickable current_micros hcurrent hpick)
    · rcases slot_of_dereferenced hcurrent (Nat.le_refl _) hpick hexit hk with
        ⟨q, hq, hne, rfl⟩
      rcases Nat.lt_or_eq_of_le hq with hlt | rfl
      · rw [slot_indexAt hcurrent (Nat.lt_of_lt_of_le hlt (otherSlots_le _ _))]
        exact (hothers q hlt).2
      · exact absurd (congrArg some (indexAt_otherSlots hc hpos).symm) hne

/-- A `current_thread` behind the pool makes the first round look behind the pool. -/
theorem current_lt_of_occupied
    (hoccupied : ∀ k, Dereferenced tkill pkill king current k → king.Occupied k) :
    ∀ c, current = some c → c < king.length := by
  rintro c rfl
  by_contra hout
  have hfirst : Dereferenced tkill pkill king (some c) (c + 1) := by
    refine ⟨_, .here _, ?_, ?_⟩
    · intro h
      exact absurd (Option.some.inj h) (Nat.succ_ne_self c).symm
    · rw [firstIndex, if_neg (by omega)]
  have hlt := (hoccupied _ hfirst).1
  omega

/-- A search among slots that cannot be picked gives up only when the current slot is
behind slot 0. -/
theorem current_pos_of_gave_up
    (hlength : 0 < king.length)
    (hcurrent : ∀ c, current = some c → c < king.length)
    (hothers : ∀ q, q < otherSlots current king.length →
      ¬ Pickable (king.pool (slotAfter current king.length q)))
    {fuel : Nat} {e : NextEnd}
    (hend : getnextEnd tkill pkill king current fuel = some e)
    (hnone : e.current_thread = none) :
    ∃ c, current = some c ∧ 0 < c := by
  by_contra hlow
  have hzero : ∀ c, current = some c → c = 0 :=
    fun c hc => Nat.eq_zero_of_not_pos fun hpos => hlow ⟨c, hc, hpos⟩
  by_cases hall : ∀ k, k < king.length → ¬ Pickable (king.pool k)
  · have hrun := scan_endless tkill pkill hlength hzero hall fuel
    rw [getnextEnd, getnextThread, hrun] at hend
    cases hend
  · -- only the current slot can be picked, and it is picked again
    simp only [not_forall, not_not] at hall
    rcases hall with ⟨k, hk, hpick⟩
    have hsame : current = some k := by
      by_contra hne
      rcases (exists_slotAfter_iff hcurrent hk).mp hne with ⟨r, hr, rfl⟩
      exact hothers r hr hpick
    have hslot := hzero k hsame
    rw [hslot] at hsame hpick
    rw [hsame] at hcurrent hothers hend
    have hexit := scanRound_zero tkill pkill hlength hpick
    obtain ⟨fuel', hend'⟩ := getnextEnd_of_exit hcurrent (Nat.le_refl _) hothers hexit
    rw [getnextEnd_unique hend hend'] at hnone
    cases hnone

/-- What is searched rightly is safe: the first slot that can be picked decides. -/
theorem nextSafe_of_nextRight
    (hlength : 0 < king.length)
    (hright : NextRight tkill pkill king current_micros current) :
    NextSafe king current_micros current := by
  rcases hright with ⟨⟨fuel, e, hend, -, hsome, hnone⟩, hoccupied⟩
  have hcurrent := current_lt_of_occupied hoccupied
  refine ⟨hcurrent, ?_⟩
  by_cases hpicked : ∃ r, r < otherSlots current king.length ∧
      Pickable (king.pool (slotAfter current king.length r))
  · -- the first slot that can be picked is the one found
    classical
    obtain ⟨hr, hpick⟩ := Nat.find_spec hpicked
    have hbefore : ∀ q, q < Nat.find hpicked →
        ¬ Pickable (king.pool (slotAfter current king.length q)) :=
      fun q hq h => Nat.find_min hpicked hq ⟨Nat.lt_trans hq hr, h⟩
    have hexit := scanRound_found tkill pkill hcurrent hr hpick
    obtain ⟨fuel', hend'⟩ := getnextEnd_of_exit hcurrent (Nat.le_of_lt hr) hbefore hexit
    rw [getnextEnd_unique hend hend'] at hsome hnone
    have hother : ∃ i, king.Eligible current_micros i ∧ current ≠ some i := by
      by_contra hno
      cases (hnone hno).1
    rcases hsome hother with ⟨i, ⟨-, -, -, heligible, -⟩, hfound, -⟩
    cases hfound
    refine .inl ⟨Nat.find hpicked, hr, heligible, fun q hq => ⟨hbefore q hq, ?_⟩⟩
    refine hoccupied _ (dereferenced_slotAfter hcurrent (Nat.lt_trans hq hr) ?_)
    exact fun j hj => hbefore j (Nat.lt_trans hj hq)
  · have hothers : ∀ q, q < otherSlots current king.length →
        ¬ Pickable (king.pool (slotAfter current king.length q)) :=
      fun q hq h => hpicked ⟨q, hq, h⟩
    have hno := not_eligible_of_not_pickable current_micros hcurrent hothers
    refine .inr ⟨?_, fun q hq => ⟨hothers q hq, ?_⟩⟩
    · exact current_pos_of_gave_up hlength hcurrent hothers hend (hnone hno).1
    · exact hoccupied _ (dereferenced_slotAfter hcurrent hq
        (fun j hj => hothers j (Nat.lt_trans hj hq)))

end Ends

/-- **`getnext_thread` goes on to the next eligible thread exactly in a safe pool.** -/
theorem next_right_iff
    (tkill pkill : Threads → Nat → Threads)
    (king : KingPool) (current_micros : Word) (current : Option Nat)
    (hlength : 0 < king.length) :
    NextRight tkill pkill king current_micros current ↔
      NextSafe king current_micros current :=
  ⟨nextSafe_of_nextRight hlength, nextRight_of_nextSafe hlength⟩

/-- A pool of one driver. -/
def driverPool : KingPool :=
  ⟨1, fun _ => Thread.zeroed, fun _ => true, fun _ => 0⟩

theorem next_right_iff_driverPool :
    0 < driverPool.length ∧
      (NextRight (fun pool _ => pool) (fun pool _ => pool) driverPool 0 none ↔
        NextSafe driverPool 0 none) :=
  ⟨by decide, next_right_iff _ _ driverPool 0 none (by decide)⟩

/-- With the driver as its only thread the pool has none that is eligible, and the driver
is picked. -/
theorem driverPool_not_right :
    ¬ NextRight (fun pool _ => pool) (fun pool _ => pool) driverPool 0 none := by
  intro hright
  rcases (nextSafe_of_nextRight (by decide) hright).2 with ⟨r, -, heligible, -⟩ | ⟨⟨c, hc, -⟩, -⟩
  · exact heligible.type rfl
  · cases hc

end Sched
end BestKernel
