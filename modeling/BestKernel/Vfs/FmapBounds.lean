import BestKernel.Vfs.MapUnmap

/-!
# What mapping a file touches

`SYS_FMAP` goes through three arrays: the marks of the descriptor, the listeners of the
file and the entries of the region that `vmtree_fetch` finds.  `FmapInBounds` says that
it stays inside of all of them, that what it writes into an entry fits, and that it
writes the entries of the region, as many as the request has pages.

The marks are indexed from the page of the offset on without a test, and no entry is
ever written, since the address of every region found is 0.
-/

namespace BestKernel
namespace Vfs

open Machine Mem Kontrol

/-- `kptralloc(512/8)`: the bytes of as many pointers. -/
abbrev mapsSize : Nat := 8 * (512 / 8)

/-- The page of the offset, `offset/multi`. -/
def firstPage (file : MemFile) (offset : Half) : Half :=
  offset / multiplierOf file.mapped_pagetype

/-- The search of `fmap`. -/
def fmapSearch (words : WordMemory) (file : MemFile) (pagetree : Word) (amount : Half) :
    Option Word × WordMemory :=
  vmtreeFetch pagetree words file.mapped_pagetype
    (pagetypeRoundup (BitVec.ofNat 32 file.mapped_pagetype) amount.toNat).toNat

/-- The entries that `fmap` writes, with the numbers of their pages. -/
def fmapWrites (words : WordMemory) (file : MemFile) (pagetree : Word)
    (amount offset : Half) : List (Word × Half) :=
  let (found, words) := fmapSearch words file pagetree amount
  let vm := fetchedPointer found
  if vm = 0 then []
  else
    let (_, entry) := vmtoEntry vm words pagetree
    let pages_number :=
      pagetypeRoundup (BitVec.ofNat 32 file.mapped_pagetype) amount.toNat
    let first := firstPage file offset
    (List.range ((first + pages_number).toNat - first.toNat)).map
      fun i => (wordAt entry i, first + BitVec.ofNat 32 i)

/-- The entries of a region of `pages` pages, with the numbers of the pages that belong
there. -/
def regionWrites (words : WordMemory) (pagetree vm : Word) (first : Half) (pages : Nat) :
    List (Word × Half) :=
  (List.range pages).map
    fun i => (wordAt (vmtoEntry vm words pagetree).2 i, first + BitVec.ofNat 32 i)

/-- The pages of a request: the amount over the size of a page, rounded up. -/
def requestPages (file : MemFile) (amount : Half) : Nat :=
  (amount.toNat + getMultiFromPagetype file.mapped_pagetype - 1) /
    getMultiFromPagetype file.mapped_pagetype

section Specification

variable (w : World) (process : Nat) (desc amount offset : Half) (tryn : Word)

/-- The search that a request comes to, and what it writes. -/
def World.searchOf : Option Word × WordMemory :=
  fmapSearch w.words (w.fileOf process desc) (w.processes process).pagetree amount

def World.writesOf : List (Word × Half) :=
  fmapWrites w.words (w.fileOf process desc) (w.processes process).pagetree amount offset

/-- **`SYS_FMAP` stays inside of its arrays and writes the entries of its region.**  An entry
has bits 13 to 45 for the descriptor and 46 to 62 for the page. -/
structure FmapInBounds : Prop where
  refused : FmapRefused w process desc → (w.sysFmap process desc amount offset tryn).2 = w
  maps : ¬ FmapRefused w process desc → ∀ g, g < fmapMarks w process desc amount →
    (BitVec.ofNat 32 g + firstPage (w.fileOf process desc) offset).toNat < mapsSize
  listeners : ¬ FmapRefused w process desc → ∀ e, e ∈ w.writesOf process desc amount offset →
    e.2.toNat < (w.fileOf process desc).length.toNat
  fields : ¬ FmapRefused w process desc → ∀ e, e ∈ w.writesOf process desc amount offset →
    desc.toNat < 2 ^ 33 ∧ e.2.toNat < 2 ^ 17
  entries : ¬ FmapRefused w process desc → w.writesOf process desc amount offset =
    match (w.searchOf process desc amount).1 with
    | none => []
    | some vm => regionWrites (w.searchOf process desc amount).2 (w.processes process).pagetree
        vm (firstPage (w.fileOf process desc) offset)
        (requestPages (w.fileOf process desc) amount)

end Specification

section Writes

variable (words : WordMemory) (file : MemFile) (pagetree : Word) (desc amount offset : Half)

/-- The words behind `fmap` are those of the search with the entries written. -/
theorem fmap_words :
    (fmap words file pagetree desc amount offset).2.1 =
      (fmapWrites words file pagetree amount offset).foldl
        (fun m e => Function.update m e.1 (fmapEntry desc e.2 file.mapped_pagetype))
        (if fetchedPointer (fmapSearch words file pagetree amount).1 = 0 then
          (fmapSearch words file pagetree amount).2
        else
          (vmtoEntry (fetchedPointer (fmapSearch words file pagetree amount).1)
            (fmapSearch words file pagetree amount).2 pagetree).1) := by
  unfold fmap fmapWrites fmapSearch firstPage
  dsimp only
  split_ifs with hnull
  · rfl
  · rw [storeWords_eq_foldl, List.foldl_map]

/-- **It writes nothing, wherever the region is.** -/
theorem fmapWrites_eq_nil :
    fmapWrites words file pagetree amount offset = [] := by
  unfold fmapWrites fmapSearch
  dsimp only
  rw [fetchedPointer_vmtreeFetch, if_pos rfl]

theorem requestPages_eq_zero_iff :
    requestPages file amount = 0 ↔ amount = 0 := by
  have hmulti := getMultiFromPagetype_ge file.mapped_pagetype
  have hzero : amount = 0 ↔ amount.toNat = 0 := by
    rw [← BitVec.toNat_inj]
    rfl
  rw [requestPages, Nat.div_eq_zero_iff, hzero]
  omega

end Writes

/-- Consecutive indexes are below a size exactly when the last one is. -/
theorem indexes_lt_iff
    {first : Half} {n size : Nat}
    (hn : n < 2 ^ 32)
    (hsize : size < 2 ^ 32) :
    (∀ g, g < n → (BitVec.ofNat 32 g + first).toNat < size) ↔
      n = 0 ∨ first.toNat + n ≤ size := by
  have hfirst := first.isLt
  have hindex : ∀ g, g < n → (BitVec.ofNat 32 g + first).toNat =
      (g + first.toNat) % 2 ^ 32 := by
    intro g hg
    rw [BitVec.toNat_add, BitVec.toNat_ofNat, Nat.mod_eq_of_lt (by omega : g < 2 ^ 32)]
  constructor
  · intro hall
    by_contra hnot
    obtain ⟨hne, hlong⟩ := not_or.mp hnot
    -- the first index that is too large
    by_cases hstart : size ≤ first.toNat
    · have hzero := hall 0 (by omega)
      rw [hindex 0 (by omega), Nat.zero_add, Nat.mod_eq_of_lt hfirst] at hzero
      omega
    · have hlast := hall (size - first.toNat) (by omega)
      rw [hindex _ (by omega), Nat.sub_add_cancel (by omega), Nat.mod_eq_of_lt hsize] at hlast
      omega
  · rintro (rfl | hfits) g hg
    · exact absurd hg (Nat.not_lt_zero g)
    · rw [hindex g hg, Nat.mod_eq_of_lt (by omega)]
      omega

section Bounds

variable {w : World} {process : Nat} {desc amount offset : Half} {tryn : Word}

/-- **When mapping a file stays in bounds**: when the request is refused, or when the marks
end below the size of their array and the request has no page or no region. -/
theorem fmap_in_bounds_iff
    (w : World) (process : Nat) (desc amount offset : Half) (tryn : Word) :
    FmapInBounds w process desc amount offset tryn ↔
      FmapRefused w process desc ∨
        (fmapMarks w process desc amount = 0 ∨
          (firstPage (w.fileOf process desc) offset).toNat + fmapMarks w process desc amount ≤
            mapsSize) ∧
        ((w.searchOf process desc amount).1 = none ∨ amount = 0) := by
  have hmarks : fmapMarks w process desc amount < 2 ^ 32 := BitVec.isLt _
  have hwrites : w.writesOf process desc amount offset = [] := fmapWrites_eq_nil _ _ _ _ _
  have hregion : w.writesOf process desc amount offset =
      (match (w.searchOf process desc amount).1 with
      | none => []
      | some vm => regionWrites (w.searchOf process desc amount).2
          (w.processes process).pagetree vm (firstPage (w.fileOf process desc) offset)
          (requestPages (w.fileOf process desc) amount)) ↔
      (w.searchOf process desc amount).1 = none ∨ amount = 0 := by
    rw [hwrites, ← requestPages_eq_zero_iff (w.fileOf process desc) amount]
    cases (w.searchOf process desc amount).1 with
    | none => simp
    | some vm =>
        simp only [regionWrites, List.nil_eq, List.map_eq_nil_iff, List.range_eq_nil,
          reduceCtorEq, false_or]
  constructor
  · intro h
    by_cases hrefused : FmapRefused w process desc
    · exact Or.inl hrefused
    · exact Or.inr ⟨(indexes_lt_iff hmarks (by decide)).mp (h.maps hrefused),
        hregion.mp (h.entries hrefused)⟩
  · intro h
    refine ⟨sysFmap_refused, fun hpass => ?_, fun _ e he => ?_, fun _ e he => ?_,
      fun hpass => ?_⟩
    · exact (indexes_lt_iff hmarks (by decide)).mpr (h.resolve_left hpass).1
    · rw [hwrites] at he
      exact absurd he List.not_mem_nil
    · rw [hwrites] at he
      exact absurd he List.not_mem_nil
    · exact hregion.mpr (h.resolve_left hpass).2

/-- **The mark of page 512 lies behind the marks.** -/
theorem page_512_out_of_bounds :
    ¬ FmapInBounds oneFileWorld 0 0 4096 0x200000 0 := by
  intro h
  have hpass : ¬ FmapRefused oneFileWorld 0 0 := by
    unfold FmapRefused
    decide
  have hindex := h.maps hpass 0 (by decide)
  exact absurd hindex (by decide)

end Bounds

end Vfs
end BestKernel
