import BestKernel.Library.Loops
import BestKernel.Library.Words
import Mathlib.Tactic.Common

/-!
# Starting the drivers

`enact_IO_context` goes through `driver_pointers` and `info_pointers` and makes a process
of each driver.  The first thing its loop does is to count `drivers_number` up, so the index
never catches up with it: the loop ends when the number has wrapped round to 0.

`enactIoContext_ends` says which indices it goes through, and `drivers_started_iff` for
which numbers these are the drivers that were given.

Readings of the source.  What a round does with the images of its index, up to
`module_ctl`, is a parameter, and it returns.
-/

namespace BestKernel
namespace Boot

open Machine

universe u

/-- The variables of the loop and the kernel around it. -/
structure IoContext (σ : Type u) where
  i : Half
  drivers_number : Half
  kernel : σ

/-- The first indices, in order. -/
def firstIndices (number : Nat) : List Half :=
  (List.range number).map (BitVec.ofNat 32)

section Loop

variable {σ : Type u} (start : σ → Half → σ)

/-- One round of the loop of `enact_IO_context`. -/
def enactRound (s : IoContext σ) : IoContext σ ⊕ σ :=
  if s.i < s.drivers_number then
    .inl ⟨s.i + 1, s.drivers_number + 1, start s.kernel s.i⟩
  else .inr s.kernel

def enactIoContext (drivers_number : Half) (fuel : Nat) (kernel : σ) : Option σ :=
  Loops.run (enactRound start) fuel ⟨0, drivers_number, kernel⟩

/-- All drivers that were given are started, in order and nothing else. -/
def StartsGiven (drivers_number : Half) (kernel : σ) : Prop :=
  ∃ fuel, enactIoContext start drivers_number fuel kernel =
    some ((firstIndices drivers_number.toNat).foldl start kernel)

variable {start} {drivers_number : Half} {kernel : σ}

/-- Behind `r` rounds the number has gone up by `r` too. -/
def IoContext.behind (start : σ → Half → σ) (drivers_number : Half) (kernel : σ) (r : Nat) :
    IoContext σ :=
  ⟨BitVec.ofNat 32 r, drivers_number + BitVec.ofNat 32 r,
    (firstIndices r).foldl start kernel⟩

theorem enactRound_behind
    {r : Nat}
    (hpos : 0 < drivers_number.toNat)
    (hr : drivers_number.toNat + r < 2 ^ 32) :
    enactRound start (.behind start drivers_number kernel r) =
      .inl (.behind start drivers_number kernel (r + 1)) := by
  have hindex : (BitVec.ofNat 32 r).toNat = r :=
    (BitVec.toNat_ofNat r 32).trans (Nat.mod_eq_of_lt (by omega))
  have hnumber : (drivers_number + BitVec.ofNat 32 r).toNat = drivers_number.toNat + r := by
    rw [BitVec.toNat_add, hindex, Nat.mod_eq_of_lt hr]
  have hless : BitVec.ofNat 32 r < drivers_number + BitVec.ofNat 32 r := by
    rw [BitVec.lt_def, hindex, hnumber]
    omega
  have hsucc : BitVec.ofNat 32 (r + 1) = BitVec.ofNat 32 r + 1 := BitVec.ofNat_add r 1
  have hfold : (firstIndices (r + 1)).foldl start kernel =
      start ((firstIndices r).foldl start kernel) (BitVec.ofNat 32 r) := by
    rw [firstIndices, List.range_succ, List.map_append, List.foldl_append]
    rfl
  unfold enactRound IoContext.behind
  rw [if_pos hless, hfold, hsucc, BitVec.add_assoc]

theorem enact_reaches
    {r : Nat}
    (hpos : 0 < drivers_number.toNat)
    (hr : drivers_number.toNat + r ≤ 2 ^ 32) :
    Loops.Reaches (enactRound start) ⟨0, drivers_number, kernel⟩
      (.behind start drivers_number kernel r) := by
  induction r with
  | zero =>
      have hfirst : IoContext.behind start drivers_number kernel 0 =
          ⟨0, drivers_number, kernel⟩ := by
        unfold IoContext.behind
        rw [BitVec.ofNat_eq_ofNat, BitVec.add_zero]
        rfl
      rw [hfirst]
      exact .here _
  | succ r ih =>
      have hround : enactRound start (.behind start drivers_number kernel r) =
          .inl (.behind start drivers_number kernel (r + 1)) := enactRound_behind hpos hr
      exact (ih (by omega)).trans (.next hround (.here _))

/-- **`enact_IO_context` ends, and it has gone through the indices below `-drivers_number`
as an unsigned number.** -/
theorem enactIoContext_ends
    (start : σ → Half → σ)
    (drivers_number : Half)
    (kernel : σ) :
    ∃ fuel, enactIoContext start drivers_number fuel kernel =
      some ((firstIndices (-drivers_number).toNat).foldl start kernel) := by
  by_cases hzero : drivers_number = 0
  · subst hzero
    exact ⟨1, rfl⟩
  · have hne : drivers_number.toNat ≠ 0 := fun h => hzero (BitVec.eq_of_toNat_eq h)
    have hlt := drivers_number.isLt
    have hrounds : (-drivers_number).toNat = 2 ^ 32 - drivers_number.toNat := by
      rw [BitVec.toNat_neg, Nat.mod_eq_of_lt (by omega)]
    have hreached : Loops.Reaches (enactRound start) ⟨0, drivers_number, kernel⟩
        (.behind start drivers_number kernel (-drivers_number).toNat) :=
      enact_reaches (Nat.pos_of_ne_zero hne) (by omega)
    -- here the number has wrapped, and no index is below it
    have hwrapped : drivers_number + BitVec.ofNat 32 (-drivers_number).toNat = 0 := by
      rw [BitVec.ofNat_toNat, BitVec.setWidth_eq]
      exact BitVec.add_right_neg drivers_number
    have hexit : enactRound start
        (.behind start drivers_number kernel (-drivers_number).toNat) =
        .inr ((firstIndices (-drivers_number).toNat).foldl start kernel) := by
      unfold enactRound IoContext.behind
      dsimp only
      rw [hwrapped, if_neg (by simp)]
    exact hreached.run (Loops.run_exit hexit 0)

end Loop

/-- How many indices are below `-drivers_number`. -/
theorem neg_toNat_eq_iff (drivers_number : Half) :
    (-drivers_number).toNat = drivers_number.toNat ↔
      drivers_number = 0 ∨ drivers_number = 0x80000000 := by
  have hlt := drivers_number.isLt
  rw [BitVec.toNat_neg]
  constructor
  · intro h
    by_cases hzero : drivers_number.toNat = 0
    · exact .inl (BitVec.eq_of_toNat_eq hzero)
    · rw [Nat.mod_eq_of_lt (by omega)] at h
      refine .inr (BitVec.eq_of_toNat_eq ?_)
      rw [show (0x80000000 : Half).toNat = 2147483648 from rfl]
      omega
  · rintro (rfl | rfl) <;> rfl

/-- **The drivers that are started are those that were given when there are none or `2 ^ 31`
of them, and in no other case**, whatever a round does. -/
theorem drivers_started_iff (drivers_number : Half) :
    (∀ {σ : Type} (start : σ → Half → σ) (kernel : σ),
        StartsGiven start drivers_number kernel) ↔
      drivers_number = 0 ∨ drivers_number = 0x80000000 := by
  rw [← neg_toNat_eq_iff]
  constructor
  · intro h
    -- count the rounds
    obtain ⟨fuel, hgiven⟩ := h (fun n _ => n + 1) 0
    obtain ⟨fuel', hends⟩ := enactIoContext_ends (fun n _ => n + 1) drivers_number 0
    have hsame := Loops.run_unique hends hgiven
    simpa [firstIndices] using hsame
  · intro hsame σ start kernel
    obtain ⟨fuel, hends⟩ := enactIoContext_ends start drivers_number kernel
    rw [hsame] at hends
    exact ⟨fuel, hends⟩

end Boot
end BestKernel
