import BestKernel.Mem.Reallocation
import BestKernel.Mem.Segments
import BestKernel.Vfs.Calls

/-!
# What the calls write into entries

An entry consists of its flags, the low twelve bits, and of a payload.  The calls of
`Kingmem` change entries in two ways only: they sign them, which leaves the flags alone, or
they store a template with some payload.  `Rewrites` says this about a call, with the
templates that it may store, and there is one lemma for each call.

What an invariant of the flags has to survive is therefore a list of templates, and not the
searches and walks of the calls.
-/

namespace BestKernel
namespace Mem

open Machine

/-- What an entry holds below its payload. -/
def flags (entry : Word) : Word := entry &&& 0xFFF

/-- The flags of a template. -/
def templateFlags (mode : Mode) (cache : Cache) : Word :=
  memreqTemplate Pag.SMALLPAGE mode cache.code 0

/-- `map_identity` writes the template of a mapping, with the bit that lets users in. -/
theorem flags_identityTemplate (cache : Cache) :
    flags (identityTemplate cache.code 1) = templateFlags .MAP cache ||| 4 := by
  cases cache <;> decide

/-- The flags are none, or those of a template that is allowed. -/
def Stored (allowed : Mode → Cache → Prop) (entry : Word) : Prop :=
  flags entry = 0 ∨
    ∃ mode cache, allowed mode cache ∧ flags entry = templateFlags mode cache

/-- Every entry keeps its flags or gets those of a template that is allowed. -/
def Rewrites (allowed : Mode → Cache → Prop) (m m' : WordMemory) : Prop :=
  ∀ a, flags (m' a) = flags (m a) ∨ Stored allowed (m' a)

section Flags

theorem flags_getLsbD (entry : Word) (i : Nat) :
    (flags entry).getLsbD i = (entry.getLsbD i && decide (i < 12)) := by
  have hmask : ∀ i, i < 12 → (0xFFF : Word).getLsbD i = true := by decide
  rw [flags, BitVec.getLsbD_and]
  by_cases hi : i < 12
  · rw [hmask i hi]
    simp [hi]
  · have hhigh : (0xFFF : Word).getLsbD i = false := by
      rw [← BitVec.testBit_toNat]
      have hpow : 2 ^ 12 ≤ 2 ^ i := Nat.pow_le_pow_right (by decide) (by omega)
      exact Nat.testBit_lt_two_pow (Nat.lt_of_lt_of_le (by decide) hpow)
    rw [hhigh]
    simp [hi]

/-- The flags are what the low twelve bits are. -/
theorem flags_ext
    {entry entry' : Word}
    (h : ∀ i, i < 12 → entry.getLsbD i = entry'.getLsbD i) :
    flags entry = flags entry' := by
  apply BitVec.eq_of_getLsbD_eq
  intro i _
  rw [flags_getLsbD, flags_getLsbD]
  by_cases hi : i < 12
  · rw [h i hi]
  · simp [hi]

/-- A flag is read off the flags. -/
theorem bitSet_flags
    (entry : Word) {bit : Nat}
    (hbit : bit < 12) :
    bitSet (flags entry) bit = bitSet entry bit := by
  rw [bitSet_eq_getLsbD _ (by omega), bitSet_eq_getLsbD _ (by omega), flags_getLsbD]
  simp [hbit]

theorem bitSet_congr
    {entry entry' : Word} {bit : Nat}
    (hbit : bit < 12)
    (h : flags entry = flags entry') :
    bitSet entry bit = bitSet entry' bit := by
  rw [← bitSet_flags entry hbit, h, bitSet_flags entry' hbit]

/-- A payload is not among the flags. -/
theorem flags_or_shift
    (entry payload : Word) {n : Nat}
    (hn : 12 ≤ n) :
    flags (entry ||| (payload <<< n)) = flags entry := by
  refine flags_ext fun i hi => ?_
  rw [BitVec.getLsbD_or, BitVec.getLsbD_shiftLeft]
  have hlow : i < n := by omega
  simp [hlow]

/-- Nor is a bit above them. -/
theorem flags_setBit
    (entry : Word) {bit : Nat}
    (hlow : 12 ≤ bit)
    (hbit : bit < 64) :
    flags (setBit entry bit) = flags entry := by
  refine flags_ext fun i hi => ?_
  have hne : i ≠ bit := by omega
  rw [getLsbD_setBit _ hbit]
  simp [hne]

theorem flags_templateFlags (mode : Mode) (cache : Cache) :
    flags (templateFlags mode cache) = templateFlags mode cache := by
  cases mode <;> cases cache <;> decide

/-- The size of the page makes no difference to the cache code. -/
theorem shiftHighHalf_code (cache : Cache) : shiftHighHalf cache.code = cache.code := by
  cases cache <;> decide

/-- The flags of a template depend on its mode and its cache only. -/
theorem flags_memreqTemplate (pagetype : Nat) (mode : Mode) (cache : Cache) (exec : Half) :
    flags (memreqTemplate pagetype mode cache.code exec) = templateFlags mode cache := by
  rw [← flags_templateFlags, templateFlags]
  refine flags_ext fun i hi => ?_
  have hcache : (if pagetype ≠ Pag.SMALLPAGE then shiftHighHalf cache.code else cache.code) =
      cache.code := by
    rw [shiftHighHalf_code, ite_self]
  have hexec : (shl exec 63).getLsbD i = false := by
    rw [shl, BitVec.getLsbD_shiftLeft]
    simp
    omega
  have hzero : (shl (0 : Half) 63).getLsbD i = false := by
    rw [shl, BitVec.getLsbD_shiftLeft]
    simp
  unfold memreqTemplate
  dsimp only
  rw [hcache, if_neg (by decide)]
  simp only [BitVec.getLsbD_setWidth, BitVec.getLsbD_or, hexec, hzero]

theorem flags_zero : flags 0 = 0 := by decide

end Flags

section Relation

variable {allowed allowed' : Mode → Cache → Prop} {m m' m'' : WordMemory}

/-- A template with a payload is stored. -/
theorem stored_template
    {mode : Mode} {cache : Cache}
    (h : allowed mode cache)
    (pagetype : Nat) (exec : Half) (payload : Word) {n : Nat}
    (hn : 12 ≤ n) :
    Stored allowed (memreqTemplate pagetype mode cache.code exec ||| (payload <<< n)) := by
  refine Or.inr ⟨mode, cache, h, ?_⟩
  rw [flags_or_shift _ _ hn, flags_memreqTemplate]

theorem stored_bare
    {mode : Mode} {cache : Cache}
    (h : allowed mode cache)
    (pagetype : Nat) (exec : Half) :
    Stored allowed (memreqTemplate pagetype mode cache.code exec) :=
  Or.inr ⟨mode, cache, h, flags_memreqTemplate pagetype mode cache exec⟩

theorem Stored.congr
    {entry entry' : Word}
    (h : Stored allowed entry)
    (hflags : flags entry' = flags entry) :
    Stored allowed entry' := by
  rcases h with hzero | ⟨mode, cache, hallowed, htemplate⟩
  · exact Or.inl (hflags.trans hzero)
  · exact Or.inr ⟨mode, cache, hallowed, hflags.trans htemplate⟩

theorem Rewrites.refl (m : WordMemory) : Rewrites allowed m m :=
  fun _ => Or.inl rfl

theorem Rewrites.trans
    (h : Rewrites allowed m m')
    (h' : Rewrites allowed m' m'') :
    Rewrites allowed m m'' := by
  intro a
  rcases h' a with hkept | hstored
  · rcases h a with hkept' | hstored'
    · exact Or.inl (hkept.trans hkept')
    · exact Or.inr (hstored'.congr hkept)
  · exact Or.inr hstored

/-- What differs in occupancy bits only. -/
theorem SameButOccupied.rewrites
    (h : SameButOccupied m m') :
    Rewrites allowed m m' := by
  intro a
  refine Or.inl ?_
  rw [← flags_setBit (m' a) (show 12 ≤ 56 by decide) (by decide), h a,
    flags_setBit (m a) (by decide) (by decide)]

theorem rewrites_update
    {a entry : Word}
    (h : Stored allowed entry) :
    Rewrites allowed m (Function.update m a entry) := by
  intro b
  by_cases hb : b = a
  · subst hb
    rw [Function.update_self]
    exact Or.inr h
  · rw [Function.update_of_ne hb]
    exact Or.inl rfl

theorem rewrites_storeWords
    {base : Word} {f : Nat → Word} {n : Nat}
    (h : ∀ i, Stored allowed (f i)) :
    Rewrites allowed m (storeWords m base f n) := by
  intro a
  rcases storeWords_cases m base f n a with hkept | ⟨i, _, hstored⟩
  · exact Or.inl (congrArg flags hkept)
  · rw [hstored]
    exact Or.inr (h i)

end Relation

section Calls

variable {allowed : Mode → Cache → Prop} {m : WordMemory} {pagetree vm : Word}

theorem vmtoEntry_rewrites : Rewrites allowed m (vmtoEntry vm m pagetree).1 :=
  (vmtoEntry_same vm m pagetree).rewrites

theorem vmtreeFetch_rewrites (pages_number pagetype : Nat) :
    Rewrites allowed m (vmtreeFetch pagetree m pages_number pagetype).2 :=
  (vmtreeFetch_same m pages_number pagetype).rewrites

theorem vmtoPhys_rewrites : Rewrites allowed m (vmtoPhys m pagetree vm).1 := by
  unfold vmtoPhys
  dsimp only
  split_ifs <;> exact vmtoEntry_rewrites

theorem vmtreeLayLevels_rewrites
    (h : allowed .SEGFAULT .WRITEBACK)
    (something : Word) (left g : Nat) (level_length : Half) (m : WordMemory) :
    Rewrites allowed m (vmtreeLayLevels something left g level_length m) := by
  induction left generalizing g level_length m with
  | zero => exact Rewrites.refl m
  | succ left ih =>
      rw [vmtreeLayLevels]
      refine Rewrites.trans ?_ (ih _ _ _)
      refine rewrites_storeWords fun i => ?_
      split_ifs
      · exact stored_template h Pag.BIGPAGE 0 _ (by decide)
      · exact stored_bare h Pag.BIGPAGE 0

/-- A tree is laid with templates. -/
theorem vmtreeLay_rewrites
    (h : allowed .SEGFAULT .WRITEBACK)
    (expected_usage : Nat) (location : Word) :
    Rewrites allowed m (vmtreeLay expected_usage m location) := by
  unfold vmtreeLay
  refine Rewrites.trans ?_ (vmtreeLayLevels_rewrites h _ _ _ _ _)
  refine Rewrites.trans ?_
    (rewrites_storeWords fun _ => stored_template h Pag.BIGPAGE 0 _ (by decide))
  exact rewrites_storeWords fun _ => stored_template h Pag.BIGPAGE 0 _ (by decide)

theorem memAlloc_rewrites
    (h : allowed .RESERVE .STRONGUNCACHEABLE)
    (pagetype pages_number : Nat) :
    Rewrites allowed m (memAlloc m pagetree pagetype pages_number).2 := by
  rw [memAlloc_eq]
  refine Rewrites.trans ?_ (rewrites_storeWords fun _ => stored_bare h pagetype 0)
  exact (vmtreeFetch_rewrites pages_number pagetype).trans (sameButOccupied_sign _ _).rewrites

theorem memMap_rewrites
    {cache : Cache}
    (h : allowed .MAP cache)
    (target : Word) (pagetype pages_number : Nat) :
    Rewrites allowed m (memMap m pagetree target pagetype pages_number cache.code).2 := by
  rw [memMap_eq]
  refine Rewrites.trans ?_
    (rewrites_storeWords fun _ => stored_template h pagetype 0 _ (by decide))
  exact (vmtreeFetch_rewrites pages_number pagetype).trans (sameButOccupied_sign _ _).rewrites

theorem deallocateVm_rewrites
    (h : allowed .SEGFAULT .WRITEBACK)
    (pages_number : Nat) :
    Rewrites allowed m (deallocateVm m pagetree vm pages_number).2.2 := by
  unfold deallocateVm
  dsimp only
  split_ifs
  · exact vmtoEntry_rewrites
  · exact vmtoEntry_rewrites
  · exact vmtoEntry_rewrites.trans
      (rewrites_storeWords fun _ => stored_bare h walkedPagetype 0)

theorem memFree_rewrites
    (h : allowed .SEGFAULT .WRITEBACK)
    (h' : allowed .RESERVE .WRITEBACK)
    (pages_number pagetype : Nat) :
    Rewrites allowed m (memFree m pagetree vm pages_number pagetype).2.2 := by
  unfold memFree
  dsimp only
  split_ifs
  · exact deallocateVm_rewrites h pages_number
  · refine Rewrites.trans ?_ (rewrites_storeWords fun _ => stored_bare h' pagetype 0)
    exact (deallocateVm_rewrites h pages_number).trans vmtoEntry_rewrites

theorem memUnmap_rewrites
    (h : allowed .RESERVE .WRITEBACK)
    (pages_number pagetype : Nat) :
    Rewrites allowed m (memUnmap m pagetree vm pages_number pagetype).2 := by
  unfold memUnmap
  dsimp only
  split_ifs
  · exact vmtoEntry_rewrites
  · exact vmtoEntry_rewrites.trans (rewrites_storeWords fun _ => stored_bare h pagetype 0)

/-- The memory that `mem_realloc` leaves. -/
def Reallocated.tree : Reallocated → WordMemory
  | .refused tree => tree
  | .moved _ tree => tree

theorem memRealloc_rewrites
    (h : allowed .SEGFAULT .WRITEBACK)
    (h' : allowed .RESERVE .WRITEBACK)
    {memlen : Half} {fuel : Nat} {table : RamTable} {oldpages newpages : Half} {pagetype : Nat}
    {stack : Nat → Word} {result : Reallocated}
    (hresult : memRealloc memlen fuel table m pagetree vm oldpages newpages pagetype stack =
      some result) :
    Rewrites allowed m result.tree := by
  unfold memRealloc at hresult
  dsimp only at hresult
  split_ifs at hresult with hguard hfound
  · cases hresult
    exact Rewrites.refl m
  · cases hresult
    exact (deallocateVm_rewrites h _).trans (vmtreeFetch_rewrites _ _)
  · obtain ⟨⟨status, new⟩, _, hresult⟩ := Option.bind_eq_some_iff.mp hresult
    dsimp only at hresult
    split_ifs at hresult
    · cases hresult
      exact (deallocateVm_rewrites h _).trans (vmtreeFetch_rewrites _ _)
    · cases hresult
      refine Rewrites.trans ?_
        (rewrites_storeWords fun _ => stored_template h' pagetype 0 _ (by decide))
      exact ((deallocateVm_rewrites h _).trans (vmtreeFetch_rewrites _ _)).trans
        vmtoEntry_rewrites

theorem memRemap_rewrites
    (h : allowed .SEGFAULT .WRITEBACK)
    (h' : allowed .RESERVE .WRITEBACK)
    (oldpages newpages : Half) (pagetype : Nat) (array : Word) :
    Rewrites allowed m (memRemap m pagetree vm oldpages newpages pagetype array).2 := by
  unfold memRemap
  dsimp only
  split_ifs
  · exact Rewrites.refl m
  · exact deallocateVm_rewrites h _
  · exact (deallocateVm_rewrites h _).trans (vmtreeFetch_rewrites _ _)
  · refine Rewrites.trans ?_
      (rewrites_storeWords fun _ => stored_template h' pagetype 0 _ (by decide))
    exact ((deallocateVm_rewrites h _).trans (vmtreeFetch_rewrites _ _)).trans
      vmtoEntry_rewrites

/-- `fmap` stores templates with numbers for a payload. -/
theorem flags_fmapEntry (desc g : Half) (mapped_pagetype : Nat) :
    flags (Vfs.fmapEntry desc g mapped_pagetype) = templateFlags .MAP .WRITEBACK := by
  rw [← flags_memreqTemplate mapped_pagetype .MAP .WRITEBACK 0]
  refine flags_ext fun i hi => ?_
  have hdesc : (shl desc 13).getLsbD i = false := by
    rw [shl, BitVec.getLsbD_shiftLeft]
    simp
    omega
  have hpage : (shl g 46).getLsbD i = false := by
    rw [shl, BitVec.getLsbD_shiftLeft]
    simp
    omega
  unfold Vfs.fmapEntry
  rw [BitVec.getLsbD_or, BitVec.getLsbD_setWidth, BitVec.getLsbD_or, hdesc, hpage]
  simp

theorem fmap_rewrites
    (h : allowed .MAP .WRITEBACK)
    (file : Vfs.MemFile) (desc amount offset : Half) :
    Rewrites allowed m (Vfs.fmap m file pagetree desc amount offset).2.1 := by
  unfold Vfs.fmap
  dsimp only
  split_ifs
  · exact vmtreeFetch_rewrites _ _
  · refine Rewrites.trans ?_
      (rewrites_storeWords fun _ => Or.inr ⟨_, _, h, flags_fmapEntry _ _ _⟩)
    exact (vmtreeFetch_rewrites _ _).trans vmtoEntry_rewrites

end Calls

end Mem
end BestKernel
