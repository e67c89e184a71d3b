import BestKernel.Mem.Layout
import Mathlib.Data.List.Nodup
import Mathlib.Data.Set.Basic

/-!
# The levels of the page tree

`vmtree_lay` should write the levels of a tree where `offset_by_depth` looks for them, every
entry once, with the directories pointing at the tables of the next level, and no further
than `exec` has asked for memory.

What it writes is `layWrites` (`vmtreeLay_eq`): the root, and from 4096 words behind it four
levels over one another, since the pointer is never moved.  Their lengths are 2^21, 2^30 and
twice nothing, where 32 bits have overflown (`layLength_eq`).  The offsets add entries to the
bytes of the root.  So no tree is laid as it should be, whether the offsets are taken for
bytes or for entries (`lay_wrong`).

Readings of the source.  The loop of the levels begins with the one below the root.
-/

namespace BestKernel
namespace Mem

open Machine

/-- The stores of a fill, in order. -/
def fillWrites (base : Word) (f : Nat → Word) (n : Nat) : List (Word × Word) :=
  (List.range n).map fun i => (wordAt base i, f i)

/-- The stores of a list, one after the other. -/
def applyWrites (m : WordMemory) (writes : List (Word × Word)) : WordMemory :=
  writes.foldl (fun m w => Function.update m w.1 w.2) m

/-- `level_length` behind `g` rounds. -/
def layLength : Nat → Half
  | 0 => 512 * 8
  | g + 1 => layLength g * 512

/-- The entries of a level. -/
def layEntry (something : Word) (g i : Nat) : Word :=
  let default_entry := memreqTemplate Pag.BIGPAGE .SEGFAULT Cache.WRITEBACK.code 0
  if g ≠ Pag.SMALLPAGE then
    default_entry ||| ((something + (BitVec.ofNat 32 (i * 512)).setWidth 64) <<< 13)
  else default_entry

/-- The stores of the root. -/
def rootWrites (expected_usage : Nat) (location : Word) : List (Word × Word) :=
  let entry := layEntry (wordAt location (layLength 0).toNat) 0
  fillWrites location entry expected_usage ++
    fillWrites (wordAt location expected_usage) (fun i => entry (expected_usage + i))
      (uselessEntries expected_usage)

/-- The stores of the round `g`. -/
def levelWrites (location : Word) (g : Nat) : List (Word × Word) :=
  let something := wordAt location (layLength 0).toNat
  fillWrites something (layEntry something g) (layLength (g + 1)).toNat

/-- The stores of `vmtree_lay`, in order. -/
def layWrites (expected_usage : Nat) (location : Word) : List (Word × Word) :=
  rootWrites expected_usage location ++
    (List.range (Pag.SMALLPAGE + 1)).flatMap (levelWrites location)

/-- `h` in `offset_by_depth` behind `j` rounds. -/
def depthLength : Nat → Half
  | 0 => 512
  | j + 1 => depthLength j * 512

section Specification

/-- What an offset counts. -/
inductive OffsetUnit where
  | bytes
  | entries

def OffsetUnit.size : OffsetUnit → Nat
  | bytes => 1
  | entries => 8

variable (unit : OffsetUnit) (expected_usage : Nat) (location : Word)

/-- The distance of a level from the root, in bytes. -/
def levelOffset (t : Nat) : Nat := unit.size * (offsetByDepth location t).toNat

/-- The address of an entry of a level. -/
def levelEntry (t i : Nat) : Word :=
  location + BitVec.ofNat 64 (levelOffset unit location t + 8 * i)

/-- The entry lies in front of the next level. -/
def WithinLevel (t i : Nat) : Prop :=
  levelOffset unit location t + 8 * i < levelOffset unit location (t + 1)

/-- No product leaves its 32 bits. -/
structure ProductsFit : Prop where
  lengths : ∀ g, g ≤ Pag.SMALLPAGE → (layLength g).toNat * 512 < 2 ^ 32
  entries : ∀ g, g < Pag.SMALLPAGE → ∀ i, i < (layLength (g + 1)).toNat → i * 512 < 2 ^ 32
  depths : ∀ j, j < Pag.SMALLPAGE → (depthLength j).toNat * 512 < 2 ^ 32

/-- A tree as it should be laid. -/
structure LayRight : Prop where
  once : ((layWrites expected_usage location).map Prod.fst).Nodup
  levels : ∀ a, a ∈ (layWrites expected_usage location).map Prod.fst ↔
    (∃ i, i < 512 ∧ a = wordAt location i) ∨
      ∃ t i, Pag.BIGPAGE ≤ t ∧ t ≤ Pag.SMALLPAGE ∧ WithinLevel unit location t i ∧
        a = levelEntry unit location t i
  products : ProductsFit
  directory : ∀ m t i, Pag.BIGPAGE ≤ t → t < Pag.SMALLPAGE → WithinLevel unit location t i →
    vmtreeLay expected_usage m location (levelEntry unit location t i) =
      memreqTemplate Pag.BIGPAGE .SEGFAULT Cache.WRITEBACK.code 0 |||
        (levelEntry unit location (t + 1) (512 * i) <<< 13)
  total : 8 * (layWrites expected_usage location).length =
    levelOffset unit location (Pag.SMALLPAGE + 1)

end Specification

section Stores

theorem applyWrites_append
    (m : WordMemory)
    (writes writes' : List (Word × Word)) :
    applyWrites m (writes ++ writes') = applyWrites (applyWrites m writes) writes' :=
  List.foldl_append

/-- A fill is its stores. -/
theorem applyWrites_fill
    (m : WordMemory)
    (base : Word)
    (f : Nat → Word)
    (n : Nat) :
    applyWrites m (fillWrites base f n) = storeWords m base f n := by
  unfold applyWrites fillWrites
  rw [List.foldl_map, storeWords_eq_foldl]

/-- The rounds from `g` on. -/
theorem vmtreeLayLevels_eq
    (location : Word)
    (left g : Nat)
    (m : WordMemory) :
    vmtreeLayLevels (wordAt location (layLength 0).toNat) left g (layLength g) m =
      applyWrites m ((List.range' g left).flatMap (levelWrites location)) := by
  induction left generalizing g m with
  | zero => rfl
  | succ left ih =>
      rw [vmtreeLayLevels, List.range'_succ, List.flatMap_cons, applyWrites_append, ← ih]
      unfold levelWrites
      rw [applyWrites_fill]
      rfl

/-- **What `vmtree_lay` does is its stores.** -/
theorem vmtreeLay_eq
    (expected_usage : Nat)
    (m : WordMemory)
    (location : Word) :
    vmtreeLay expected_usage m location =
      applyWrites m (layWrites expected_usage location) := by
  unfold layWrites rootWrites
  rw [applyWrites_append, applyWrites_append, applyWrites_fill, applyWrites_fill,
    List.range_eq_range', ← vmtreeLayLevels_eq]
  rfl

end Stores

section Geometry

variable (expected_usage : Nat) (location : Word)

/-- **The lengths of the rounds**: behind the second one 32 bits are too few. -/
theorem layLength_eq :
    (layLength 1).toNat = 2 ^ 21 ∧ (layLength 2).toNat = 2 ^ 30 ∧ layLength 3 = 0 ∧
      layLength 4 = 0 := by
  decide

/-- The offsets of the levels. -/
theorem offsetByDepth_eq :
    offsetByDepth location Pag.BIGPAGE = 4096 ∧ offsetByDepth location Pag.MIDPAGE = 4608 ∧
      offsetByDepth location Pag.SMALLPAGE = 266752 ∧
        offsetByDepth location (Pag.SMALLPAGE + 1) = 134484480 := by
  have hloop : ∀ t, t ≠ 0 → offsetByDepth location t = offsetByDepthLoop (t - 1) (512 * 8) 512 :=
    fun t ht => if_neg ht
  rw [hloop _ (by decide), hloop _ (by decide), hloop _ (by decide), hloop _ (by decide)]
  decide

theorem map_fst_fillWrites
    (base : Word)
    (f : Nat → Word)
    (n : Nat) :
    (fillWrites base f n).map Prod.fst = (List.range n).map (wordAt base) := by
  rw [fillWrites, List.map_map]
  rfl

theorem mem_fillWrites_iff
    (base : Word)
    (f : Nat → Word)
    (n : Nat)
    (a : Word) :
    a ∈ (fillWrites base f n).map Prod.fst ↔ ∃ i, i < n ∧ a = wordAt base i := by
  rw [map_fst_fillWrites, List.mem_map]
  simp only [List.mem_range, eq_comm]

theorem length_fillWrites
    (base : Word)
    (f : Nat → Word)
    (n : Nat) :
    (fillWrites base f n).length = n := by
  rw [fillWrites, List.length_map, List.length_range]

/-- A round writes from 4096 words behind the root on. -/
theorem mem_levelWrites_iff
    (g : Nat)
    (a : Word) :
    a ∈ (levelWrites location g).map Prod.fst ↔
      ∃ i, i < (layLength (g + 1)).toNat ∧ a = wordAt location (4096 + i) := by
  have hstart : (layLength 0).toNat = 4096 := by decide
  unfold levelWrites
  dsimp only
  rw [mem_fillWrites_iff]
  simp only [hstart, wordAt_wordAt]

/-- **Only two rounds write.** -/
theorem layWrites_eq :
    layWrites expected_usage location =
      rootWrites expected_usage location ++ (levelWrites location 0 ++ levelWrites location 1) := by
  obtain ⟨-, -, hthird, hfourth⟩ := layLength_eq
  have hempty : ∀ g, layLength (g + 1) = 0 → levelWrites location g = [] := by
    intro g hzero
    unfold levelWrites
    rw [hzero]
    rfl
  have hrounds : List.range (Pag.SMALLPAGE + 1) = [0, 1, 2, 3] := by decide
  unfold layWrites
  rw [hrounds]
  simp only [List.flatMap_cons, List.flatMap_nil, hempty 2 hthird, hempty 3 hfourth,
    List.append_nil]

/-- The second round writes all words of the first one again. -/
theorem levelWrites_overlap
    {a : Word}
    (ha : a ∈ (levelWrites location 0).map Prod.fst) :
    a ∈ (levelWrites location 1).map Prod.fst := by
  have hle : (layLength (0 + 1)).toNat ≤ (layLength (1 + 1)).toNat := by decide
  rw [mem_levelWrites_iff] at ha ⊢
  obtain ⟨i, hi, rfl⟩ := ha
  exact ⟨i, Nat.lt_of_lt_of_le hi hle, rfl⟩

/-- **The words below the root that are written.** -/
theorem mem_layWrites_iff
    (a : Word) :
    a ∈ (layWrites expected_usage location).map Prod.fst ↔
      a ∈ (rootWrites expected_usage location).map Prod.fst ∨
        ∃ i, i < 2 ^ 30 ∧ a = wordAt location (4096 + i) := by
  obtain ⟨-, hsecond, -⟩ := layLength_eq
  rw [layWrites_eq, List.map_append, List.map_append, List.mem_append, List.mem_append,
    or_iff_right_of_imp (levelWrites_overlap location), mem_levelWrites_iff, hsecond]

theorem layWrites_length :
    (layWrites expected_usage location).length =
      expected_usage + uselessEntries expected_usage + (2 ^ 21 + 2 ^ 30) := by
  obtain ⟨hfirst, hsecond, -⟩ := layLength_eq
  rw [layWrites_eq]
  unfold rootWrites levelWrites
  dsimp only
  rw [List.length_append, List.length_append, List.length_append, length_fillWrites,
    length_fillWrites, length_fillWrites, length_fillWrites, hfirst, hsecond]

end Geometry

section Wrong

variable (unit : OffsetUnit) (expected_usage : Nat) (location : Word)

/-- The first entry below the root is written twice. -/
theorem layWrites_not_nodup :
    ¬ ((layWrites expected_usage location).map Prod.fst).Nodup := by
  intro honce
  rw [layWrites_eq, List.map_append, List.map_append] at honce
  have hlevels := (List.nodup_append.1 honce).2.1
  have hfirst : wordAt location (4096 + 0) ∈ (levelWrites location 0).map Prod.fst :=
    (mem_levelWrites_iff location 0 _).2 ⟨0, by decide, rfl⟩
  have hsecond := levelWrites_overlap location hfirst
  exact (List.nodup_append.1 hlevels).2.2 _ hfirst _ hsecond rfl

/-- The lengths need 39 bits and more. -/
theorem not_productsFit : ¬ ProductsFit :=
  fun h => absurd (h.lengths 2 (by decide)) (by decide)

theorem levelOffset_last_le :
    levelOffset unit location (Pag.SMALLPAGE + 1) ≤ 8 * 134484480 := by
  obtain ⟨-, -, -, hlast⟩ := offsetByDepth_eq location
  unfold levelOffset
  rw [hlast]
  cases unit <;> decide

/-- More is written than `exec` asks for. -/
theorem total_lt_written :
    levelOffset unit location (Pag.SMALLPAGE + 1) <
      8 * (layWrites expected_usage location).length := by
  have hlast := levelOffset_last_le unit location
  rw [layWrites_length]
  omega

/-- **No tree is laid as `offset_by_depth` walks it.** -/
theorem lay_wrong :
    ¬ LayRight unit expected_usage location :=
  fun h => layWrites_not_nodup expected_usage location h.once

/-- A tree at 1 MiB: 8 GiB are written for the 128 MiB that are asked for. -/
theorem megabyte_tree_not_laid :
    (offsetByDepth 0x100000 (Pag.SMALLPAGE + 1)).toNat = 134484480 ∧
      8 * (layWrites 256 0x100000).length = 8606713856 ∧
        ¬ LayRight .bytes 256 0x100000 := by
  obtain ⟨-, -, -, hlast⟩ := offsetByDepth_eq 0x100000
  have hlength := layWrites_length 256 0x100000
  rw [uselessEntries_of_le (by decide)] at hlength
  refine ⟨by rw [hlast]; rfl, by omega, fun h => ?_⟩
  exact layWrites_not_nodup 256 0x100000 h.once

end Wrong

end Mem
end BestKernel
