import BestKernel.Mem.FrameRuns
import BestKernel.Mem.Swap
import BestKernel.Mem.TreeLevels

/-!
# What swapping selects

`swap_process` scans the levels of a page tree in one loop, which it leaves as soon as
less than half of the memory is used.  `SwapRight` says that it ends, divides by no zero,
stays in the list of partitions and in the level that it scans, and swaps out what may be
swapped out, once, and frees the frame.

A level is scanned for `512*scaling` entries, which is 512 times its length, so a scan that
goes on leaves the root table (`scan_passes_root`).  It is right only where there is
nothing to do: something is used, and less than half of the memory.

The memory used is 0 from the start on and is counted down by evictions only
(`UsedMemory`).
-/

namespace BestKernel
namespace Mem

open Machine

section Specification

variable (answers : PoolAnswers) (sizeof_ram used_memory : Word) (fuel : Nat)

/-- The values of `used_memory`: that of `finalize_kernel_data`, and what an eviction of
`writeback_cycle` makes of one. -/
inductive UsedMemory : Word → Prop where
  | boot : UsedMemory 0
  | evicted {used_memory : Word} (pagetype : Nat) (h : UsedMemory used_memory) :
      UsedMemory (used_memory - BitVec.ofNat 64 (getMultiFromPagetype pagetype / 4096))

namespace SwapState

/-- Where the loop starts. -/
def start (mem : WordMemory) (table : RamTable) (pagetree : Word) : SwapState :=
  ⟨pagetree, 512, 0, ⟨0, 0⟩, mem, table⟩

/-- The round ends the loop at the end of the last level. -/
def Leaves (s : SwapState) : Prop :=
  s.atEnd ∧ s.descend.scaling < multiplierOf Pag.LEV4

/-- The state in which a round looks at an entry. -/
def looking (s : SwapState) : SwapState :=
  if s.atEnd then { s.descend with i := 0 } else s

/-- The entry that a round looks at. -/
def entry (s : SwapState) : Word := wordAt s.looking.pointer s.looking.i.toNat

/-- The bit that decides about it. -/
def flag (s : SwapState) : Nat := if s.looking.scaling = 512 * 512 * 512 then 56 else 7

/-- The round swaps the page of its entry out. -/
def Swaps (s : SwapState) : Prop :=
  ¬ s.Leaves ∧ sizeof_ram / used_memory < 2 ∧ bitSet (s.mem s.entry) s.flag = true

/-- The entry belongs to the level that is scanned. -/
def InLevel (pagetree : Word) (s : SwapState) : Prop :=
  ∃ level, level ≤ Pag.SMALLPAGE ∧ s.looking.scaling.toNat = 512 ^ (level + 1) ∧
    s.looking.pointer = wordAt pagetree (levelStart level) ∧
    s.looking.i.toNat < 512 ^ (level + 1)

end SwapState

/-- Resident, not the supervisor's and reserved. -/
def SwapCandidate (entry : Word) : Prop :=
  bitSet entry 0 = true ∧ bitSet entry 2 = false ∧
    entryMode entry = Mode.RESERVE.code.setWidth 64

/-- **Swapping ends and swaps only what it may.** -/
structure SwapRight (length : Half) (mem : WordMemory) (table : RamTable)
    (pagetree : Word) : Prop where
  /-- The loop ends. -/
  ends : ∃ fuel s,
    swapProcess answers sizeof_ram used_memory fuel mem table pagetree = some (some s)
  /-- No round divides by 0. -/
  divides : ∀ fuel s,
    Loops.Reaches (swapRound answers sizeof_ram used_memory fuel)
      (SwapState.start mem table pagetree) s → ¬ s.Leaves → used_memory ≠ 0
  /-- Every level is where it is scanned. -/
  positions : ∀ fuel s,
    Loops.Reaches (swapRound answers sizeof_ram used_memory fuel)
      (SwapState.start mem table pagetree) s → ¬ s.Leaves → s.InLevel pagetree
  /-- No partition is asked that is not there. -/
  partitions : ∀ fuel s c,
    Loops.Reaches (swapRound answers sizeof_ram used_memory fuel)
      (SwapState.start mem table pagetree) s → s.Swaps sizeof_ram used_memory →
    Loops.Reaches (placeRound answers (multiplierOf Pag.LEV4 / 4096)) s.counters c →
      c.part_counter < length.toNat
  /-- A page is swapped out exactly if it may be. -/
  selects : ∀ fuel s,
    Loops.Reaches (swapRound answers sizeof_ram used_memory fuel)
      (SwapState.start mem table pagetree) s → ¬ s.Leaves → sizeof_ram / used_memory < 2 →
      (s.Swaps sizeof_ram used_memory ↔ SwapCandidate (s.mem s.entry))
  /-- And not again. -/
  once : ∀ fuel s s' s'',
    Loops.Reaches (swapRound answers sizeof_ram used_memory fuel)
      (SwapState.start mem table pagetree) s → s.Swaps sizeof_ram used_memory →
    swapRound answers sizeof_ram used_memory fuel s = .inl s' →
    Loops.Reaches (swapRound answers sizeof_ram used_memory fuel) s' s'' →
    s''.Swaps sizeof_ram used_memory → s''.entry ≠ s.entry
  /-- Its frame is free behind it. -/
  frees : ∀ fuel s s',
    Loops.Reaches (swapRound answers sizeof_ram used_memory fuel)
      (SwapState.start mem table pagetree) s → s.Swaps sizeof_ram used_memory →
    swapRound answers sizeof_ram used_memory fuel s = .inl s' →
      (entryFrame (s.mem s.entry)).toNat / 4096 ∉ usedFrames s'.table

/-- The condition: some memory is used, and less than half of it. -/
def SwapIdle : Prop := used_memory ≠ 0 ∧ ¬ sizeof_ram / used_memory < 2

end Specification

section Scan

variable {answers : PoolAnswers} {sizeof_ram used_memory : Word} {fuel : Nat}
variable {mem : WordMemory} {table : RamTable} {pagetree : Word}

/-- **Evictions alone make every value.** -/
theorem usedMemory_all (used_memory : Word) : UsedMemory used_memory := by
  have hcounted : ∀ n : Nat, UsedMemory (0 - BitVec.ofNat 64 n) := by
    intro n
    induction n with
    | zero => exact .boot
    | succ n ih =>
        have hone : getMultiFromPagetype Pag.SMALLPAGE / 4096 = 1 := by decide
        have hnext := UsedMemory.evicted Pag.SMALLPAGE ih
        rw [hone] at hnext
        have hsum : (0 : Word) - BitVec.ofNat 64 (n + 1) =
            0 - BitVec.ofNat 64 n - BitVec.ofNat 64 1 := by
          rw [BitVec.ofNat_add]
          generalize BitVec.ofNat 64 n = x
          bv_omega
        rwa [hsum]
  have hall := hcounted (-used_memory).toNat
  have hback : (0 : Word) - -used_memory = used_memory := by bv_omega
  rwa [BitVec.ofNat_toNat, BitVec.setWidth_eq, hback] at hall

/-- The look at an entry while memory is scarce: the search does not end, or it is the
turn of the next entry. -/
theorem swapEntry_of_scarce
    (hscarce : sizeof_ram / used_memory < 2)
    (s : SwapState) :
    swapEntry answers sizeof_ram used_memory fuel s = .inr none ∨
      ∃ s', swapEntry answers sizeof_ram used_memory fuel s = .inl s' ∧
        s'.pointer = s.pointer ∧ s'.scaling = s.scaling ∧ s'.i = s.i + 1 := by
  unfold swapEntry
  dsimp only
  rw [if_neg (not_not_intro hscarce)]
  generalize (if s.scaling = 512 * 512 * 512 then 56 else 7) = flag
  by_cases hflag : ¬ bitSet (s.mem (wordAt s.pointer s.i.toNat)) flag = true
  · rw [if_pos hflag]
    exact Or.inr ⟨_, rfl, rfl, rfl, rfl⟩
  · rw [if_neg hflag]
    unfold SwapState.swapPage
    cases findPlace answers Pag.LEV4 fuel s.counters with
    | none => exact Or.inl rfl
    | some found => exact Or.inr ⟨_, rfl, rfl, rfl, rfl⟩

/-- Before the end of a level a round is the look at its entry. -/
theorem swapRound_inside
    {s : SwapState}
    (h : ¬ s.atEnd) :
    swapRound answers sizeof_ram used_memory fuel s =
      swapEntry answers sizeof_ram used_memory fuel s := by
  have hdescend : s.descend = s := if_neg h
  unfold swapRound
  dsimp only
  rw [if_neg h, hdescend]

/-- The states of a scan of the first level. -/
structure Scanning (pagetree : Word) (k : Nat) (s : SwapState) : Prop where
  pointer : s.pointer = pagetree
  scaling : s.scaling = 512
  index : s.i = BitVec.ofNat 32 k

theorem Scanning.not_atEnd
    {k : Nat} {s : SwapState}
    (h : Scanning pagetree k s)
    (hk : k < 262144) :
    ¬ s.atEnd := by
  unfold SwapState.atEnd
  rw [h.scaling, h.index]
  intro hend
  have hnat := congrArg BitVec.toNat hend
  rw [BitVec.toNat_ofNat, Nat.mod_eq_of_lt (by omega)] at hnat
  have hlength : ((512 : Half) * 512).toNat = 262144 := rfl
  omega

/-- **A scan that ends for lack of anything else than scarcity passes the root table.** -/
theorem scan_passes_root
    {r : SwapState} {n : Nat}
    (hscarce : sizeof_ram / used_memory < 2)
    (hrun : Loops.run (swapRound answers sizeof_ram used_memory fuel) n
      (SwapState.start mem table pagetree) = some (some r))
    {k : Nat}
    (hk : k < 262144) :
    ∃ s m, Loops.Reaches (swapRound answers sizeof_ram used_memory fuel)
        (SwapState.start mem table pagetree) s ∧
      Scanning pagetree k s ∧
      Loops.run (swapRound answers sizeof_ram used_memory fuel) m s = some (some r) := by
  induction k with
  | zero => exact ⟨_, n, .here _, ⟨rfl, rfl, rfl⟩, hrun⟩
  | succ k ih =>
      obtain ⟨s, m, hreach, hscan, hrest⟩ := ih (by omega)
      have hround : swapRound answers sizeof_ram used_memory fuel s =
          swapEntry answers sizeof_ram used_memory fuel s :=
        swapRound_inside (hscan.not_atEnd (by omega))
      cases m with
      | zero => cases hrest
      | succ m =>
          rcases swapEntry_of_scarce hscarce s with hstuck | ⟨s', hnext, hpointer, hscaling, hi⟩
          · rw [Loops.run_exit (hround.trans hstuck)] at hrest
            cases hrest
          · rw [Loops.run_next (hround.trans hnext)] at hrest
            refine ⟨s', m, hreach.trans (.next (hround.trans hnext) (.here _)), ⟨?_, ?_, ?_⟩,
              hrest⟩
            · rw [hpointer, hscan.pointer]
            · rw [hscaling, hscan.scaling]
            · rw [hi, hscan.index, BitVec.ofNat_add]
              rfl

/-- Behind the root table no entry belongs to the level. -/
theorem Scanning.not_inLevel
    {s : SwapState}
    (h : Scanning pagetree 512 s) :
    ¬ s.InLevel pagetree := by
  have hlooking : s.looking = s := if_neg (h.not_atEnd (by decide))
  rintro ⟨level, hlevel, hscaling, _, hi⟩
  rw [hlooking, h.scaling] at hscaling
  rw [hlooking, h.index] at hi
  have hroot : (512 : Half).toNat = 512 := rfl
  have hindex : (BitVec.ofNat 32 512).toNat = 512 := rfl
  omega

end Scan

section Exactness

variable {answers : PoolAnswers} {sizeof_ram used_memory : Word} {fuel : Nat}
variable {length : Half} {mem : WordMemory} {table : RamTable} {pagetree : Word}

theorem scanning_start (mem : WordMemory) (table : RamTable) (pagetree : Word) :
    Scanning pagetree 0 (SwapState.start mem table pagetree) :=
  ⟨rfl, rfl, rfl⟩

/-- The first round is not the last for its place. -/
theorem not_leaves_start (mem : WordMemory) (table : RamTable) (pagetree : Word) :
    ¬ (SwapState.start mem table pagetree).Leaves :=
  fun h => (scanning_start mem table pagetree).not_atEnd (by decide) h.1

theorem SwapRight.idle
    (h : SwapRight answers sizeof_ram used_memory length mem table pagetree) :
    SwapIdle sizeof_ram used_memory := by
  refine ⟨h.divides 0 _ (.here _) (not_leaves_start mem table pagetree), fun hscarce => ?_⟩
  obtain ⟨fuel, r, hrun⟩ := h.ends
  obtain ⟨s, m, hreach, hscan, _⟩ :=
    scan_passes_root hscarce hrun (show 512 < 262144 by decide)
  have hinside : ¬ s.Leaves := fun hleaves => hscan.not_atEnd (by decide) hleaves.1
  exact hscan.not_inLevel (h.positions fuel s hreach hinside)

/-- With memory to spare the first round ends the loop. -/
theorem swapRound_start
    (hspare : ¬ sizeof_ram / used_memory < 2) :
    swapRound answers sizeof_ram used_memory fuel (SwapState.start mem table pagetree) =
      .inr (some (SwapState.start mem table pagetree)) := by
  rw [swapRound_inside ((scanning_start mem table pagetree).not_atEnd (by decide)), swapEntry]
  exact if_pos hspare

theorem swapRight_of_idle
    (h : SwapIdle sizeof_ram used_memory) :
    SwapRight answers sizeof_ram used_memory length mem table pagetree := by
  obtain ⟨hused, hspare⟩ := h
  have hstart := scanning_start mem table pagetree
  have hlooking : (SwapState.start mem table pagetree).looking =
      SwapState.start mem table pagetree := if_neg (hstart.not_atEnd (by decide))
  refine ⟨?_, fun _ _ _ _ => hused, ?_, ?_, ?_, ?_, ?_⟩
  · exact ⟨1, _, Loops.run_exit (swapRound_start hspare) 0⟩
  · intro fuel s hreach _
    rw [hreach.eq_of_exit (swapRound_start hspare)]
    refine ⟨0, by decide, ?_, ?_, ?_⟩
    · rw [hlooking, hstart.scaling]
      rfl
    · rw [hlooking, hstart.pointer, levelStart, wordAt_zero]
    · rw [hlooking, hstart.index]
      decide
  · exact fun _ _ _ _ hswaps => absurd hswaps.2.1 hspare
  · exact fun _ _ _ _ hscarce => absurd hscarce hspare
  · exact fun _ _ _ _ _ hswaps => absurd hswaps.2.1 hspare
  · exact fun _ _ _ _ hswaps => absurd hswaps.2.1 hspare

/-- **When swapping is right**, for every value that the memory used can take: when some is
used and less than half, so that there is nothing to swap. -/
theorem swap_right_iff (answers : PoolAnswers) (sizeof_ram used_memory : Word)
    (length : Half) (mem : WordMemory) (table : RamTable) (pagetree : Word) :
    UsedMemory used_memory ∧
      (SwapRight answers sizeof_ram used_memory length mem table pagetree ↔
        SwapIdle sizeof_ram used_memory) :=
  ⟨usedMemory_all used_memory, SwapRight.idle, swapRight_of_idle⟩

/-- **The first call after the start divides by 0**, whatever is in memory. -/
theorem first_swap_divides_by_zero :
    UsedMemory 0 ∧
      ¬ SwapRight roomAnswers 0x100000000#64 0 1 (fun _ => 0) (fun _ => 0) 8192#64 :=
  ⟨.boot, fun h => h.idle.1 rfl⟩

end Exactness

end Mem
end BestKernel
