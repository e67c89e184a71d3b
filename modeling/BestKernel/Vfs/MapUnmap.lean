import BestKernel.Mem.Signatures
import BestKernel.Vfs.Listeners

/-!
# Mapping a file and unmapping it again

`SYS_FMAP` keeps three records, the entries of the page tree, the listeners of the file
and the bytes of `maps`, and `SYS_FUNMAP` is to undo them.  `MapUnmapRight` says so, and
that a call that is refused leaves all three alone.

The first two are never written, since no region is found, and the third is never taken
back: the checks of `SYS_FUNMAP` are on the pages asked for, and no byte of `maps` is
cleared.  What is left are the signatures of the search and the walk.
-/

namespace BestKernel
namespace Vfs

open Machine Mem Kontrol

section Specification

variable (w : World) (process : Nat) (desc amount offset : Half) (tryn : Word)

/-- The entries of the page trees, the bytes of `maps` and the listeners are the same. -/
def SameRecords (w w' : World) : Prop :=
  w'.words = w.words ∧ w'.bytes = w.bytes ∧
    ∀ i, (w'.files i).listeners = (w.files i).listeners

/-- The file behind a descriptor. -/
def World.fileOf : MemFile :=
  w.files ((w.processes process).descs desc.toNat).findex

/-- The checks of `SYS_FMAP` on the descriptor and on the permission. -/
def FmapRefused : Prop :=
  desc > 1#32 <<< 14 ∨
    (¬ (w.processes process).count > desc ∨
      (w.processes process).ckarray desc.toNat = 0) ∨
    (w.fileOf process desc).mode &&& WRITE ≠ 0 ∧ ¬ (w.processes process).root

/-- The buffer of marks, which is allocated when there is none. -/
def fmapMaps : Word × Hash :=
  let d := (w.processes process).descs desc.toNat
  if d.maps = 0 then
    let (found, kptr) := w.kptr.alloc 1 tryn
    (found.getD 0, kptr)
  else (d.maps, w.kptr)

/-- Where mark `g` of the request lies. -/
def fmapMark (g : Nat) : Word :=
  mapsAt (fmapMaps w process desc tryn).1
    (offset / multiplierOf (w.fileOf process desc).mapped_pagetype) g

/-- How many marks it sets. -/
def fmapMarks : Nat :=
  (pagetypeRoundup amount (w.fileOf process desc).mapped_pagetype).toNat

/-- The request is for whole pages. -/
def PageAligned : Prop :=
  amount % multiplierOf (w.fileOf process desc).mapped_pagetype = 0

/-- A page of the request is mapped through this descriptor already. -/
def AlreadyMapped : Prop :=
  ∃ g, g < fmapMarks w process desc amount ∧ w.bytes (fmapMark w process desc offset tryn g) = 1

/-- **`SYS_FUNMAP` undoes `SYS_FMAP`.** -/
def RoundTrip : Prop :=
  let mapped := w.sysFmap process desc amount offset tryn
  let unmapped := mapped.2.sysFunmap process (BitVec.ofInt 64 mapped.1) amount
  unmapped.1 = 0 ∧ SameRecords w unmapped.2

/-- **What is mapped can be unmapped, and what is refused changes nothing.** -/
structure MapUnmapRight : Prop where
  granted :
    ¬ FmapRefused w process desc → ¬ AlreadyMapped w process desc amount offset tryn →
      RoundTrip w process desc amount offset tryn
  refused :
    FmapRefused w process desc ∨ AlreadyMapped w process desc amount offset tryn →
      SameRecords w (w.sysFmap process desc amount offset tryn).2

/-- The condition: the checks refuse the request, or all its pages are marked and the
search signs nothing new. -/
def FmapSafe : Prop :=
  FmapRefused w process desc ∨
    (∀ g, g < fmapMarks w process desc amount →
      w.bytes (fmapMark w process desc offset tryn g) = 1) ∧
    SearchSigned (w.processes process).pagetree w.words
      (w.fileOf process desc).mapped_pagetype
      (pagetypeRoundup (BitVec.ofNat 32 (w.fileOf process desc).mapped_pagetype)
        amount.toNat).toNat

end Specification

section Marks

variable {maps : Word} {pureoff : Half} {bytes : ByteMemory} {n : Nat}

theorem mapsAt_inj
    {g k : Nat}
    (hg : g < 2 ^ 32) (hk : k < 2 ^ 32)
    (h : mapsAt maps pureoff g = mapsAt maps pureoff k) :
    g = k := by
  have hsum : (BitVec.ofNat 32 g + pureoff).setWidth 64 =
      (BitVec.ofNat 32 k + pureoff).setWidth 64 := by
    unfold mapsAt at h
    exact (BitVec.add_right_inj maps).mp h
  have hhalf : BitVec.ofNat 32 g + pureoff = BitVec.ofNat 32 k + pureoff := by
    have hback := congrArg (BitVec.setWidth 32) hsum
    simpa using hback
  have hnat := congrArg BitVec.toNat ((BitVec.add_left_inj pureoff).mp hhalf)
  rwa [BitVec.toNat_ofNat, BitVec.toNat_ofNat, Nat.mod_eq_of_lt hg, Nat.mod_eq_of_lt hk]
    at hnat

theorem markMaps_of_ne
    {a : Word}
    (ha : ∀ g, g < n → a ≠ mapsAt maps pureoff g) :
    (markMaps maps pureoff bytes n).2 a = bytes a := by
  induction n with
  | zero => rfl
  | succ n ih =>
      rw [markMaps]
      dsimp only
      rw [Function.update_of_ne (ha n (Nat.lt_succ_self n))]
      exact ih fun g hg => ha g (Nat.lt_succ_of_lt hg)

theorem markMaps_mark
    {g : Nat}
    (hg : g < n) :
    (markMaps maps pureoff bytes n).2 (mapsAt maps pureoff g) = 1 := by
  induction n with
  | zero => exact absurd hg (Nat.not_lt_zero g)
  | succ n ih =>
      rw [markMaps]
      dsimp only
      by_cases heq : mapsAt maps pureoff g = mapsAt maps pureoff n
      · rw [heq, Function.update_self]
      · rw [Function.update_of_ne heq]
        exact ih (Nat.lt_of_le_of_ne (Nat.le_of_lt_succ hg) fun h => heq (by rw [h]))

/-- The marks are set already exactly when setting them changes nothing. -/
theorem markMaps_unchanged_iff :
    (markMaps maps pureoff bytes n).2 = bytes ↔
      ∀ g, g < n → bytes (mapsAt maps pureoff g) = 1 := by
  constructor
  · intro h g hg
    rw [← h]
    exact markMaps_mark hg
  · intro h
    funext a
    by_cases ha : ∃ g, g < n ∧ a = mapsAt maps pureoff g
    · obtain ⟨g, hg, rfl⟩ := ha
      rw [markMaps_mark hg, h g hg]
    · exact markMaps_of_ne fun g hg heq => ha ⟨g, hg, heq⟩

/-- The request finds a mark exactly when one was set. -/
theorem markMaps_fst_iff
    (hn : n ≤ 2 ^ 32) :
    (markMaps maps pureoff bytes n).1 = true ↔
      ∃ g, g < n ∧ bytes (mapsAt maps pureoff g) = 1 := by
  induction n with
  | zero => simp [markMaps]
  | succ n ih =>
      have hlast : (markMaps maps pureoff bytes n).2 (mapsAt maps pureoff n) =
          bytes (mapsAt maps pureoff n) :=
        markMaps_of_ne fun g hg heq =>
          absurd (mapsAt_inj (by omega) (by omega) heq.symm) (Nat.ne_of_lt hg)
      rw [markMaps]
      dsimp only
      rw [hlast, Bool.or_eq_true, ih (by omega), beq_iff_eq]
      constructor
      · rintro (⟨g, hg, hbit⟩ | hbit)
        · exact ⟨g, by omega, hbit⟩
        · exact ⟨n, by omega, hbit⟩
      · rintro ⟨g, hg, hbit⟩
        rcases Nat.lt_succ_iff_lt_or_eq.mp hg with hlt | rfl
        · exact Or.inl ⟨g, hlt, hbit⟩
        · exact Or.inr hbit

end Marks

section SystemCalls

variable {w : World} {process : Nat} {desc amount offset : Half} {tryn : Word}

theorem sysFmap_refused
    (h : FmapRefused w process desc) :
    (w.sysFmap process desc amount offset tryn).2 = w := by
  unfold World.sysFmap
  dsimp only
  split_ifs with hdesc hslot hmode
  · rfl
  · rfl
  · rfl
  all_goals
    rcases h with hdesc' | hslot' | hmode'
    · exact absurd hdesc' hdesc
    · exact absurd hslot' hslot
    · exact absurd hmode' hmode

/-- A request that passes the checks ends with the address 0, its marks and the signatures
of the search. -/
theorem sysFmap_passed (amount offset : Half) (tryn : Word)
    (h : ¬ FmapRefused w process desc) :
    (w.sysFmap process desc amount offset tryn).1 = 0 ∧
      (w.sysFmap process desc amount offset tryn).2.words =
        (vmtreeFetch (w.processes process).pagetree w.words
          (w.fileOf process desc).mapped_pagetype
          (pagetypeRoundup (BitVec.ofNat 32 (w.fileOf process desc).mapped_pagetype)
            amount.toNat).toNat).2 ∧
      (w.sysFmap process desc amount offset tryn).2.bytes =
        (markMaps (fmapMaps w process desc tryn).1
          (offset / multiplierOf (w.fileOf process desc).mapped_pagetype) w.bytes
          (fmapMarks w process desc amount)).2 ∧
      ((w.sysFmap process desc amount offset tryn).2.processes process).killed =
        ((w.processes process).killed ||
          (markMaps (fmapMaps w process desc tryn).1
            (offset / multiplierOf (w.fileOf process desc).mapped_pagetype) w.bytes
            (fmapMarks w process desc amount)).1) := by
  have hdesc : ¬ desc > 1#32 <<< 14 := fun hdesc => h (Or.inl hdesc)
  have hslot : ¬ (¬ (w.processes process).count > desc ∨
      (w.processes process).ckarray desc.toNat = 0) := fun hslot => h (Or.inr (Or.inl hslot))
  have hmode : ¬ ((w.files ((w.processes process).descs desc.toNat).findex).mode &&& WRITE ≠ 0 ∧
      ¬ (w.processes process).root) := fun hmode => h (Or.inr (Or.inr hmode))
  unfold World.sysFmap
  dsimp only
  rw [if_neg hdesc, if_neg hslot, if_neg hmode]
  unfold fmap
  dsimp only
  rw [fetchedPointer_vmtreeFetch, if_pos rfl]
  refine ⟨rfl, rfl, rfl, ?_⟩
  rw [Function.update_self]
  rfl

/-- `SYS_FUNMAP` leaves the trees as its walk does, and the marks as they are. -/
theorem sysFunmap_records (w : World) (process : Nat) (vm : Word) (amount : Half) :
    (w.sysFunmap process vm amount).2.words =
        (vmtoEntry vm w.words (w.processes process).pagetree).1 ∧
      (w.sysFunmap process vm amount).2.bytes = w.bytes := by
  have htwice : (vmtoEntry vm (vmtoEntry vm w.words (w.processes process).pagetree).1
      (w.processes process).pagetree).1 =
        (vmtoEntry vm w.words (w.processes process).pagetree).1 := by
    rw [vmtoEntry_unchanged_iff]
    intro a ha
    rw [walked_congr _ _ _ (vmtoEntry_same vm w.words _)] at ha
    rw [vmtoEntry_fst_eq]
    exact bitSet_signAll ha
  unfold World.sysFunmap
  dsimp only
  split_ifs with hpage hkeyse hmarks
  · exact ⟨rfl, rfl⟩
  · exact ⟨rfl, rfl⟩
  · exact ⟨rfl, rfl⟩
  all_goals
    rw [not_not.mp hkeyse]
    refine ⟨?_, rfl⟩
    exact htwice

/-- **When `SYS_FUNMAP` changes nothing**: exactly when its walk signs nothing new,
whatever is mapped. -/
theorem sysFunmap_unchanged_iff (w : World) (process : Nat) (vm : Word) (amount : Half) :
    SameRecords w (w.sysFunmap process vm amount).2 ↔
      WalkSigned vm w.words (w.processes process).pagetree := by
  obtain ⟨hwords, hbytes⟩ := sysFunmap_records w process vm amount
  rw [← vmtoEntry_unchanged_iff, ← hwords]
  constructor
  · exact fun h => h.1
  · intro h
    refine ⟨h, hbytes, fun i => ?_⟩
    rw [(sysFunmap_files w process vm amount).1]

/-- A request for whole pages sets a mark at least. -/
theorem fmapMarks_pos
    (haligned : PageAligned w process desc amount) :
    0 < fmapMarks w process desc amount := by
  have hmulti : (multiplierOf (w.fileOf process desc).mapped_pagetype).setWidth 32 =
      multiplierOf (w.fileOf process desc).mapped_pagetype := by simp
  have haligned' : amount % multiplierOf (w.fileOf process desc).mapped_pagetype = 0 := haligned
  have hdiv : (amount / multiplierOf (w.fileOf process desc).mapped_pagetype).toNat <
      2 ^ 32 - 1 := by
    rw [BitVec.toNat_udiv]
    have hamount := amount.isLt
    have hge : 2 ≤ (multiplierOf (w.fileOf process desc).mapped_pagetype).toNat := by
      unfold multiplierOf getMultiFromPagetype
      split_ifs <;> decide
    have hle : amount.toNat / (multiplierOf (w.fileOf process desc).mapped_pagetype).toNat ≤
        amount.toNat / 2 := Nat.div_le_div_left hge (by decide)
    omega
  unfold fmapMarks pagetypeRoundup
  dsimp only
  rw [hmulti, if_neg (not_not_intro haligned'), BitVec.toNat_add]
  have hone : (1 : Half).toNat = 1 := rfl
  rw [hone, Nat.mod_eq_of_lt (by omega)]
  omega

/-- `SYS_FMAP` kills the process exactly when a page is mapped already. -/
theorem sysFmap_killed_iff
    (h : ¬ FmapRefused w process desc)
    (halive : (w.processes process).killed = false) :
    ((w.sysFmap process desc amount offset tryn).2.processes process).killed = true ↔
      AlreadyMapped w process desc amount offset tryn := by
  obtain ⟨_, _, _, hkilled⟩ :=
    sysFmap_passed amount offset tryn h
  have hmarks : fmapMarks w process desc amount ≤ 2 ^ 32 := Nat.le_of_lt (BitVec.isLt _)
  rw [hkilled, halive, Bool.false_or, markMaps_fst_iff hmarks]
  rfl

/-- **When `SYS_FMAP` changes nothing.** -/
theorem sysFmap_unchanged_iff :
    SameRecords w (w.sysFmap process desc amount offset tryn).2 ↔
      FmapSafe w process desc amount offset tryn := by
  by_cases hrefused : FmapRefused w process desc
  · rw [sysFmap_refused hrefused]
    exact iff_of_true ⟨rfl, rfl, fun _ => rfl⟩ (Or.inl hrefused)
  · obtain ⟨_, hwords, hbytes, _⟩ :=
      sysFmap_passed amount offset tryn hrefused
    unfold SameRecords FmapSafe
    rw [hwords, hbytes, vmtreeFetch_unchanged_iff, markMaps_unchanged_iff,
      (sysFmap_files w process desc amount offset tryn).1, or_iff_right hrefused]
    constructor
    · rintro ⟨hsigned, hmarks, _⟩
      exact ⟨hmarks, hsigned⟩
    · rintro ⟨hmarks, hsigned⟩
      exact ⟨hsigned, hmarks, fun _ => rfl⟩

/-- A request that sets a mark is never undone. -/
theorem not_roundTrip
    (haligned : PageAligned w process desc amount)
    (hpass : ¬ FmapRefused w process desc)
    (hnew : ¬ AlreadyMapped w process desc amount offset tryn) :
    ¬ RoundTrip w process desc amount offset tryn := by
  rintro ⟨_, _, hbytes, _⟩
  obtain ⟨_, _, hmarked, _⟩ :=
    sysFmap_passed amount offset tryn hpass
  rw [(sysFunmap_records _ _ _ _).2, hmarked, markMaps_unchanged_iff] at hbytes
  exact hnew ⟨0, fmapMarks_pos haligned, hbytes 0 (fmapMarks_pos haligned)⟩

theorem mapUnmapRight_iff
    (haligned : PageAligned w process desc amount) :
    MapUnmapRight w process desc amount offset tryn ↔
      FmapSafe w process desc amount offset tryn := by
  constructor
  · intro h
    by_cases hrefused : FmapRefused w process desc
    · exact Or.inl hrefused
    · by_cases hmapped : AlreadyMapped w process desc amount offset tryn
      · exact sysFmap_unchanged_iff.mp (h.refused (Or.inr hmapped))
      · exact absurd (h.granted hrefused hmapped) (not_roundTrip haligned hrefused hmapped)
  · intro hsafe
    refine ⟨fun hpass hnew => ?_, fun _ => sysFmap_unchanged_iff.mpr hsafe⟩
    obtain ⟨hmarks, _⟩ := hsafe.resolve_left hpass
    exact absurd ⟨0, fmapMarks_pos haligned, hmarks 0 (fmapMarks_pos haligned)⟩ hnew

/-- **When mapping and unmapping a file is right**: when the request is refused for its
descriptor or its permission, or when all its pages are marked and the search is silent.
Whatever it returns is an error code or the address 0, and unmapping changes nothing
exactly when its walk is silent. -/
theorem map_unmap_iff
    (haligned : PageAligned w process desc amount) :
    (MapUnmapRight w process desc amount offset tryn ↔
      FmapSafe w process desc amount offset tryn) ∧
    (¬ FmapRefused w process desc → (w.sysFmap process desc amount offset tryn).1 = 0) ∧
    ∀ (vm : Word) (unmapped : Half),
      SameRecords w (w.sysFunmap process vm unmapped).2 ↔
        WalkSigned vm w.words (w.processes process).pagetree :=
  ⟨mapUnmapRight_iff haligned, fun hpass => (sysFmap_passed amount offset tryn hpass).1,
    sysFunmap_unchanged_iff w process⟩

/-- The page of the file is marked in the buffer of the descriptor, and every entry signed. -/
def markedWorld : World :=
  { oneFileWorld with
    words := fun _ => -1
    bytes := fun _ => 1
    processes := fun _ => ⟨0, 1, 1, fun _ => 1, fun _ => ⟨0, 4096#64⟩, true, false, true⟩ }

/-- The page is asked for once more. -/
theorem map_unmap_markedWorld :
    ¬ FmapRefused markedWorld 0 0 ∧ AlreadyMapped markedWorld 0 0 4096 0 0 ∧
      MapUnmapRight markedWorld 0 0 4096 0 0 := by
  have haligned : PageAligned markedWorld 0 0 4096 := by
    unfold PageAligned
    decide
  have hpass : ¬ FmapRefused markedWorld 0 0 := by
    unfold FmapRefused
    decide
  have hsigned : bitSet (-1 : Word) 56 = true := by decide
  have hsafe : FmapSafe markedWorld 0 0 4096 0 0 :=
    Or.inr ⟨fun _ _ => rfl, fun _ _ => hsigned⟩
  exact ⟨hpass, ⟨0, fmapMarks_pos haligned, rfl⟩, (map_unmap_iff haligned).1.mpr hsafe⟩

/-- **One page of a file is mapped and unmapped again, and its mark stays.** -/
theorem mapped_page_stays_marked :
    PageAligned oneFileWorld 0 0 4096 ∧ ¬ FmapRefused oneFileWorld 0 0 ∧
      ¬ AlreadyMapped oneFileWorld 0 0 4096 0 0 ∧ ¬ RoundTrip oneFileWorld 0 0 4096 0 0 ∧
      ¬ MapUnmapRight oneFileWorld 0 0 4096 0 0 := by
  have haligned : PageAligned oneFileWorld 0 0 4096 := by
    unfold PageAligned
    decide
  have hpass : ¬ FmapRefused oneFileWorld 0 0 := by
    unfold FmapRefused
    decide
  have hnew : ¬ AlreadyMapped oneFileWorld 0 0 4096 0 0 := by
    rintro ⟨g, _, hmark⟩
    have hzero : (0 : Byte) = 1 := hmark
    exact absurd hzero (by decide)
  have hround := not_roundTrip haligned hpass hnew
  exact ⟨haligned, hpass, hnew, hround, fun h => hround (h.granted hpass hnew)⟩

end SystemCalls

end Vfs
end BestKernel
