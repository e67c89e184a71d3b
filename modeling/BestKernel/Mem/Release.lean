import BestKernel.Mem.EntryMode
import BestKernel.Mem.FrameRuns
import BestKernel.Mem.Regions
import BestKernel.Mem.Signatures
import BestKernel.Mem.TreeLevels

/-!
# Releasing a region

`deallocate_vm`, `mem_free` and `mem_unmap` check the entries of a range and then
overwrite them.  They should do all or nothing: a range with a supervisor page, or for
`mem_unmap` with a page that is not mapped, is refused as it stands, and any other one is
reset, with the bits of its frames where it is freed.

The entries of a range are those from the one on that `vmto_entry` comes to, and a walk
that comes to the null pointer has found none.  It signs what it passes, so a refusal is
without a trace only when all that was signed.  `mem_free` walks a second time, and then
past a large page that it has just reset; its frames are those of one byte of the table,
chosen by where the array of addresses lies.  `mem_unmap` reads the mode one bit too low
and refuses what `mem_map` has mapped.
-/

namespace BestKernel
namespace Mem

open Machine

/-- The bitmap behind `mem_free`, which hands `manipulate_phys` its array of addresses
for the pages: `array` is where that one lies. -/
def memFreePhys (table : RamTable) (m : WordMemory) (pagetree vm : Word) (pages_number : Half)
    (pagetype : Nat) (array : Word) : RamTable :=
  if (memFree m pagetree vm pages_number.toNat pagetype).1 then
    manipulatePhys table array pages_number pagetype .CLEAR
  else table

section Specification

/-- Exactly the entries of a range are reset. -/
structure ResetExactly (before after : WordMemory) (entries : Word) (n : Nat) (templ : Word) :
    Prop where
  inside : ∀ h, h < n → after (wordAt entries h) = templ
  outside : ∀ a, ¬ Within entries n a → after a = before a

variable (m : WordMemory) (pagetree vm : Word) (pages_number : Half) (pagetype : Nat)
  (table : RamTable) (array : Word)

/-- The frames that the entries of a range hold. -/
def heldFrames : Set Nat :=
  {k | ∃ h, h < pages_number.toNat ∧
    k ∈ pageFrames (entryFrame (m (wordAt (entryOf vm m pagetree) h))) 1#32 pagetype}

/-- The range has no entries, or one with the supervisor bit. -/
def Refusable : Prop :=
  entryOf vm m pagetree = 0 ∨ Supervised m (entryOf vm m pagetree) pages_number.toNat

/-- An entry of the range has the supervisor bit or is not mapped. -/
def Unmappable : Prop :=
  ∃ h, h < pages_number.toNat ∧
    (bitSet (m (wordAt (entryOf vm m pagetree) h)) 2 = true ∨
      layoutMode (m (wordAt (entryOf vm m pagetree) h)) ≠ Mode.MAP.code.setWidth 64)

/-- And the same with the mode that `mem_unmap` reads. -/
def ReadUnmappable : Prop :=
  ∃ h, h < pages_number.toNat ∧
    (bitSet (m (wordAt (entryOf vm m pagetree) h)) 2 = true ∨
      unmapMode (m (wordAt (entryOf vm m pagetree) h)) ≠ Mode.MAP.code.setWidth 64)

/-- **`deallocate_vm` does all or nothing.** -/
structure DeallocateAtomic : Prop where
  refused :
    Refusable m pagetree vm pages_number →
      (deallocateVm m pagetree vm pages_number.toNat).1 ≠ 0 ∧
        (deallocateVm m pagetree vm pages_number.toNat).2.2 = m
  done :
    ¬ Refusable m pagetree vm pages_number →
      ResetExactly m (deallocateVm m pagetree vm pages_number.toNat).2.2
        (entryOf vm m pagetree) pages_number.toNat segfaultEntry

/-- **`mem_free` does all or nothing.** -/
structure FreeAtomic : Prop where
  refused :
    Refusable m pagetree vm pages_number →
      (memFree m pagetree vm pages_number.toNat pagetype).1 = false ∧
        (memFree m pagetree vm pages_number.toNat pagetype).2.2 = m ∧
        memFreePhys table m pagetree vm pages_number pagetype array = table
  done :
    ¬ Refusable m pagetree vm pages_number →
      ResetExactly m (memFree m pagetree vm pages_number.toNat pagetype).2.2
          (entryOf vm m pagetree) pages_number.toNat
          (memreqTemplate pagetype .RESERVE Cache.WRITEBACK.code 0) ∧
        usedFrames (memFreePhys table m pagetree vm pages_number pagetype array) =
          usedFrames table \ heldFrames m pagetree vm pages_number pagetype

/-- **`mem_unmap` does all or nothing.** -/
structure UnmapAtomic : Prop where
  refused :
    Unmappable m pagetree vm pages_number →
      (memUnmap m pagetree vm pages_number.toNat pagetype).1 = false ∧
        (memUnmap m pagetree vm pages_number.toNat pagetype).2 = m
  done :
    ¬ Unmappable m pagetree vm pages_number →
      ResetExactly m (memUnmap m pagetree vm pages_number.toNat pagetype).2
        (entryOf vm m pagetree) pages_number.toNat
        (memreqTemplate pagetype .RESERVE Cache.WRITEBACK.code 0)

/-- The entries that the walk passes are signed, or they are in the range. -/
def SignedBeyond : Prop :=
  ∀ a, a ∈ walked vm m pagetree →
    Within (entryOf vm m pagetree) pages_number.toNat a ∨ bitSet (m a) 56 = true

/-- The second walk of `mem_free` comes to the range again. -/
def WalksBack : Prop :=
  pages_number = 0 ∨ bitSet (m (firstEntry vm pagetree)) 7 = false ∨
    secondEntry vm pagetree = firstEntry vm pagetree

/-- The condition on `deallocate_vm`. -/
def DeallocateSafe : Prop :=
  (Refusable m pagetree vm pages_number → WalkSigned vm m pagetree) ∧
    (¬ Refusable m pagetree vm pages_number → SignedBeyond m pagetree vm pages_number)

/-- The condition on `mem_free`: the frames in use in the byte that it clears are those
that the entries hold. -/
def MemFreeSafe : Prop :=
  (Refusable m pagetree vm pages_number → WalkSigned vm m pagetree) ∧
    (¬ Refusable m pagetree vm pages_number →
      SignedBeyond m pagetree vm pages_number ∧ WalksBack m pagetree vm pages_number ∧
        ∀ k, k ∈ usedFrames table →
          (k ∈ touched array pages_number ↔ k ∈ heldFrames m pagetree vm pages_number pagetype))

/-- The condition on `mem_unmap`. -/
def UnmapSafe : Prop :=
  WalkSigned vm m pagetree ∧
    (pages_number = 0 ∨ Unmappable m pagetree vm pages_number ∧
      ReadUnmappable m pagetree vm pages_number)

end Specification

section Walks

variable {m after : WordMemory} {pagetree vm entries templ : Word} {n : Nat} {l : List Word}

/-- Reset on top of signatures is exact when nothing else is newly signed. -/
theorem resetExactly_iff
    (hinside : ∀ h, h < n → after (wordAt entries h) = templ)
    (houtside : ∀ a, ¬ Within entries n a → after a = signAll m l a) :
    ResetExactly m after entries n templ ↔
      ∀ a, a ∈ l → Within entries n a ∨ bitSet (m a) 56 = true := by
  have hframe : SameOn (fun a => ¬ Within entries n a) m after ↔
      ∀ a, a ∈ l → Within entries n a ∨ bitSet (m a) 56 = true := by
    rw [sameOn_overwritten_iff houtside, and_iff_right fun a hout hin => absurd hin hout]
    refine forall_congr' fun a => forall_congr' fun _ => ⟨fun h => ?_, fun h _ => h⟩
    exact or_iff_not_imp_left.mpr fun hout => (h hout).resolve_left hout
  rw [← hframe]
  exact ⟨fun h => h.outside, fun h => ⟨hinside, h⟩⟩

/-- The first entry of a walk lies far from the second one. -/
theorem firstEntry_not_within
    (hn : n < 2 ^ 32)
    (hne : secondEntry vm pagetree ≠ firstEntry vm pagetree) :
    ¬ Within (secondEntry vm pagetree) n (firstEntry vm pagetree) := by
  rintro ⟨h, hh, heq⟩
  have hdistance := second_distance vm
  have hsum : firstEntry vm pagetree =
      firstEntry vm pagetree + (8#64 * (vm <<< 43) + BitVec.ofNat 64 (8 * h)) := by
    rw [← BitVec.add_assoc]
    exact heq
  have hzero := congrArg BitVec.toNat (BitVec.add_right_eq_self.mp hsum.symm)
  rw [BitVec.toNat_add, hdistance, BitVec.toNat_ofNat, BitVec.toNat_ofNat] at hzero
  obtain rfl : h = 0 := by omega
  exact hne (by rw [wordAt_zero] at heq; exact heq.symm)

theorem walked_small
    (hsmall : bitSet (m (firstEntry vm pagetree)) 7 = false) :
    walked vm m pagetree = [firstEntry vm pagetree, secondEntry vm pagetree] ∧
      entryOf vm m pagetree = secondEntry vm pagetree := by
  rw [walked, entryOf_eq, hsmall]
  simp

theorem walked_large
    (hlarge : bitSet (m (firstEntry vm pagetree)) 7 = true) :
    walked vm m pagetree = [firstEntry vm pagetree] ∧
      entryOf vm m pagetree = firstEntry vm pagetree := by
  rw [walked, entryOf_eq, hlarge]
  simp

/-- The memory behind a walk whose range is overwritten. -/
def overwritten (m : WordMemory) (pagetree vm : Word) (n : Nat) (templ : Word) : WordMemory :=
  storeWords (signAll m (walked vm m pagetree)) (entryOf vm m pagetree) (fun _ => templ) n

/-- A walk over a range that has been reset comes to it again, and passes the same
entries, unless it started with a large page. -/
theorem walk_back
    (hn : n < 2 ^ 32)
    (htempl : bitSet templ 7 = false)
    (hback : n = 0 ∨ bitSet (m (firstEntry vm pagetree)) 7 = false ∨
      secondEntry vm pagetree = firstEntry vm pagetree) :
    entryOf vm (overwritten m pagetree vm n templ) pagetree = entryOf vm m pagetree ∧
      ∀ a, a ∈ walked vm (overwritten m pagetree vm n templ) pagetree ↔
        a ∈ walked vm m pagetree := by
  have hsame := signAll_same m (walked vm m pagetree)
  rcases Nat.eq_zero_or_pos n with hzero | hpos
  · have hafter : overwritten m pagetree vm n templ = signAll m (walked vm m pagetree) := by
      simp [overwritten, hzero]
    rw [hafter, entryOf_congr hsame, walked_congr _ _ _ hsame]
    exact ⟨rfl, fun _ => Iff.rfl⟩
  · have hback' := hback.resolve_left (by omega)
    by_cases heq : secondEntry vm pagetree = firstEntry vm pagetree
    · -- both entries are the start of the range
      have hentry : entryOf vm m pagetree = firstEntry vm pagetree := by
        rw [entryOf_eq, heq, ite_self]
      have hsmall : bitSet (overwritten m pagetree vm n templ (firstEntry vm pagetree)) 7 =
          false := by
        rw [overwritten, hentry, storeWords_base (by omega) hpos]
        exact htempl
      obtain ⟨hwalked, hentry'⟩ := walked_small hsmall
      rw [hwalked, hentry', hentry, heq]
      refine ⟨rfl, fun a => ?_⟩
      rw [mem_walked_iff, heq]
      simp
    · have hsmall := hback'.resolve_right heq
      obtain ⟨hwalked, hentry⟩ := walked_small hsmall
      have hsmall' : bitSet (overwritten m pagetree vm n templ (firstEntry vm pagetree)) 7 =
          false := by
        have hout : ¬ Within (entryOf vm m pagetree) n (firstEntry vm pagetree) := by
          rw [hentry]
          exact firstEntry_not_within hn heq
        rw [overwritten, storeWords_of_not_within hout,
          hsame.bitSet_eq (by decide) (by decide)]
        exact hsmall
      obtain ⟨hwalked', hentry'⟩ := walked_small hsmall'
      rw [hwalked, hentry, hwalked', hentry']
      exact ⟨rfl, fun _ => Iff.rfl⟩

/-- The memory outside of an overwritten range. -/
theorem overwritten_outside
    {a : Word}
    (hout : ¬ Within (entryOf vm m pagetree) n a) :
    overwritten m pagetree vm n templ a = signAll m (walked vm m pagetree) a :=
  storeWords_of_not_within hout

end Walks

section Exactness

variable {m : WordMemory} {pagetree vm : Word} {pages_number : Half} {pagetype : Nat}
  {table : RamTable} {array : Word}

theorem deallocateVm_done
    (h : ¬ Refusable m pagetree vm pages_number) :
    (deallocateVm m pagetree vm pages_number.toNat).1 = 0 ∧
      (deallocateVm m pagetree vm pages_number.toNat).2.2 =
        overwritten m pagetree vm pages_number.toNat segfaultEntry := by
  rw [deallocateVm_of_released h]
  exact ⟨rfl, rfl⟩

theorem deallocateAtomic_iff :
    DeallocateAtomic m pagetree vm pages_number ↔
      DeallocateSafe m pagetree vm pages_number := by
  have hlt := pages_number.isLt
  by_cases hrefused : Refusable m pagetree vm pages_number
  · obtain ⟨status, hstatus, heq⟩ := deallocateVm_of_refused hrefused
    have hsigned : (deallocateVm m pagetree vm pages_number.toNat).2.2 = m ↔
        WalkSigned vm m pagetree := by
      rw [heq]
      exact signAll_eq_self_iff m _
    constructor
    · intro h
      exact ⟨fun _ => hsigned.mp (h.refused hrefused).2, fun hn => absurd hrefused hn⟩
    · intro h
      refine ⟨fun _ => ⟨?_, hsigned.mpr (h.1 hrefused)⟩, fun hn => absurd hrefused hn⟩
      rw [heq]
      exact hstatus
  · have hreset : ResetExactly m (deallocateVm m pagetree vm pages_number.toNat).2.2
        (entryOf vm m pagetree) pages_number.toNat segfaultEntry ↔
          ∀ a, a ∈ walked vm m pagetree →
            Within (entryOf vm m pagetree) pages_number.toNat a ∨ bitSet (m a) 56 = true :=
      resetExactly_iff (fun h hh => by
        rw [(deallocateVm_done hrefused).2]
        exact storeWords_wordAt (by omega) hh)
      (fun a hout => by
        rw [(deallocateVm_done hrefused).2]
        exact overwritten_outside hout)
    constructor
    · intro h
      exact ⟨fun hr => absurd hr hrefused, fun _ => hreset.mp (h.done hrefused)⟩
    · intro h
      exact ⟨fun hr => absurd hr hrefused, fun _ => hreset.mpr (h.2 hrefused)⟩

theorem memFree_refusable
    (h : Refusable m pagetree vm pages_number) :
    memFree m pagetree vm pages_number.toNat pagetype =
      (false, [], signAll m (walked vm m pagetree)) := by
  obtain ⟨status, hstatus, heq⟩ := deallocateVm_of_refused h
  rw [memFree, heq]
  exact if_pos hstatus

/-- `mem_free` overwrites the range that its second walk comes to. -/
theorem memFree_done
    (h : ¬ Refusable m pagetree vm pages_number) :
    (memFree m pagetree vm pages_number.toNat pagetype).1 = true ∧
      (memFree m pagetree vm pages_number.toNat pagetype).2.2 =
        overwritten (overwritten m pagetree vm pages_number.toNat segfaultEntry) pagetree vm
          pages_number.toNat (memreqTemplate pagetype .RESERVE Cache.WRITEBACK.code 0) := by
  obtain ⟨hstatus, hwords⟩ := deallocateVm_done h
  unfold memFree
  dsimp only
  rw [if_neg (not_not_intro hstatus), hwords]
  simp only [vmtoEntry_eq_signAll]
  exact ⟨trivial, rfl⟩

theorem bitSet_segfaultEntry : bitSet segfaultEntry 7 = false := by
  decide

/-- Behind a large page the second walk goes on, and the page is left signed. -/
theorem memFree_not_resetExactly
    (h : ¬ Refusable m pagetree vm pages_number)
    (hback : ¬ WalksBack m pagetree vm pages_number) :
    ¬ ResetExactly m (memFree m pagetree vm pages_number.toNat pagetype).2.2
      (entryOf vm m pagetree) pages_number.toNat
      (memreqTemplate pagetype .RESERVE Cache.WRITEBACK.code 0) := by
  have hlt := pages_number.isLt
  obtain ⟨hpages, hback⟩ := not_or.mp hback
  obtain ⟨hlarge, hne⟩ := not_or.mp hback
  have hpos : 0 < pages_number.toNat := BitVec.toNat_pos_of_ne_zero hpages
  obtain ⟨hwalked, hentry⟩ := walked_large (Bool.eq_true_of_not_eq_false hlarge)
  have hfirst : overwritten m pagetree vm pages_number.toNat segfaultEntry
      (firstEntry vm pagetree) = segfaultEntry := by
    rw [overwritten, hentry, storeWords_base (by omega) hpos]
  have hsmall : bitSet (overwritten m pagetree vm pages_number.toNat segfaultEntry
      (firstEntry vm pagetree)) 7 = false := by
    rw [hfirst]
    exact bitSet_segfaultEntry
  obtain ⟨hwalked', hentry'⟩ := walked_small hsmall
  intro hreset
  have hinside := hreset.inside 0 hpos
  rw [(memFree_done h).2, wordAt_zero, hentry,
    overwritten_outside (by rw [hentry']; exact firstEntry_not_within hlt hne), hwalked',
    signAll_apply, hfirst, if_pos (List.mem_cons_self ..)] at hinside
  have hbit := congrArg (fun x => bitSet x 56) hinside
  rw [bitSet_memreqTemplate_occupied] at hbit
  exact absurd hbit (by decide)

theorem memFree_resetExactly_iff (pagetype : Nat)
    (h : ¬ Refusable m pagetree vm pages_number) :
    ResetExactly m (memFree m pagetree vm pages_number.toNat pagetype).2.2
        (entryOf vm m pagetree) pages_number.toNat
        (memreqTemplate pagetype .RESERVE Cache.WRITEBACK.code 0) ↔
      SignedBeyond m pagetree vm pages_number ∧ WalksBack m pagetree vm pages_number := by
  have hlt := pages_number.isLt
  by_cases hback : WalksBack m pagetree vm pages_number
  · have hback' : pages_number.toNat = 0 ∨ bitSet (m (firstEntry vm pagetree)) 7 = false ∨
        secondEntry vm pagetree = firstEntry vm pagetree :=
      hback.imp_left fun hzero => by rw [hzero]; rfl
    obtain ⟨hentry, hwalked⟩ := walk_back hlt bitSet_segfaultEntry hback'
    rw [and_iff_left hback, (memFree_done h).2]
    refine resetExactly_iff (fun i hi => ?_) (fun a hout => ?_)
    · rw [overwritten, hentry, storeWords_wordAt (by omega) hi]
    · rw [overwritten_outside (by rw [hentry]; exact hout), signAll_apply,
        overwritten_outside hout, signAll_apply]
      simp only [hwalked]
      split_ifs
      · rw [setBit_setBit]
      · rfl
  · exact iff_of_false (memFree_not_resetExactly h hback) fun hsafe => hback hsafe.2

theorem freeAtomic_iff :
    FreeAtomic m pagetree vm pages_number pagetype table array ↔
      MemFreeSafe m pagetree vm pages_number pagetype table array := by
  by_cases hrefused : Refusable m pagetree vm pages_number
  · have hsigned := signAll_eq_self_iff m (walked vm m pagetree)
    constructor
    · intro h
      have hwords := (h.refused hrefused).2.1
      rw [memFree_refusable hrefused] at hwords
      exact ⟨fun _ => hsigned.mp hwords, fun hn => absurd hrefused hn⟩
    · intro h
      refine ⟨fun _ => ?_, fun hn => absurd hrefused hn⟩
      rw [memFreePhys, memFree_refusable hrefused]
      exact ⟨rfl, hsigned.mpr (h.1 hrefused), rfl⟩
  · have hreset := memFree_resetExactly_iff pagetype hrefused
    have hframes : usedFrames (memFreePhys table m pagetree vm pages_number pagetype array) =
        usedFrames table \ heldFrames m pagetree vm pages_number pagetype ↔
          ∀ k, k ∈ usedFrames table →
            (k ∈ touched array pages_number ↔
              k ∈ heldFrames m pagetree vm pages_number pagetype) := by
      rw [memFreePhys, if_pos (memFree_done hrefused).1, usedFrames_clear, Set.ext_iff]
      refine forall_congr' fun k => ?_
      rw [Set.mem_sdiff, Set.mem_sdiff, and_congr_right_iff, not_iff_not]
    constructor
    · intro h
      obtain ⟨hwords, hbits⟩ := h.done hrefused
      obtain ⟨hbeyond, hback⟩ := hreset.mp hwords
      exact ⟨fun hr => absurd hr hrefused, fun _ => ⟨hbeyond, hback, hframes.mp hbits⟩⟩
    · intro h
      obtain ⟨hbeyond, hback, hbits⟩ := h.2 hrefused
      exact ⟨fun hr => absurd hr hrefused,
        fun _ => ⟨hreset.mpr ⟨hbeyond, hback⟩, hframes.mpr hbits⟩⟩

end Exactness

section Unmap

variable {m : WordMemory} {pagetree vm : Word} {pages_number : Half} {pagetype : Nat}
  {table : RamTable} {array : Word}

/-- Signatures do not touch the low bits, in which all readers look for the mode. -/
theorem low_congr
    {x y : Word}
    (h : setBit x 56 = setBit y 56) :
    x.toNat % 4096 = y.toNat % 4096 := by
  have hlow : x.setWidth 12 = y.setWidth 12 := by
    apply BitVec.eq_of_getLsbD_eq
    intro i hi
    have hbit := congrArg (fun z : Word => z.getLsbD i) h
    rw [getLsbD_setBit _ (by decide), getLsbD_setBit _ (by decide)] at hbit
    simpa [hi, show i ≠ 56 by omega] using hbit
  have hnat := congrArg BitVec.toNat hlow
  rwa [BitVec.toNat_setWidth, BitVec.toNat_setWidth] at hnat

theorem unmapMode_congr
    {x y : Word}
    (h : setBit x 56 = setBit y 56) :
    unmapMode x = unmapMode y := by
  have hlow := low_congr h
  rw [← BitVec.toNat_inj, unmapMode_toNat, unmapMode_toNat]
  omega

theorem layoutMode_congr
    {x y : Word}
    (h : setBit x 56 = setBit y 56) :
    layoutMode x = layoutMode y := by
  have hlow := low_congr h
  rw [← BitVec.toNat_inj, layoutMode_toNat, layoutMode_toNat]
  omega

/-- The mode of a mapped page is not read as such. -/
theorem unmapMode_of_mapped
    {entry : Word}
    (h : layoutMode entry = Mode.MAP.code.setWidth 64) :
    unmapMode entry ≠ Mode.MAP.code.setWidth 64 := by
  intro hread
  have hmode : (Mode.MAP.code.setWidth 64 : Word).toNat = 1 := rfl
  have hlayout := congrArg BitVec.toNat h
  have hunmap := congrArg BitVec.toNat hread
  rw [layoutMode_toNat, hmode] at hlayout
  rw [unmapMode_toNat, hmode] at hunmap
  omega

theorem memUnmap_closed (m : WordMemory) (pagetree vm : Word) (pages_number : Half)
    (pagetype : Nat) :
    (ReadUnmappable m pagetree vm pages_number →
      memUnmap m pagetree vm pages_number.toNat pagetype =
        (false, signAll m (walked vm m pagetree))) ∧
    (¬ ReadUnmappable m pagetree vm pages_number →
      memUnmap m pagetree vm pages_number.toNat pagetype =
        (true, overwritten m pagetree vm pages_number.toNat
          (memreqTemplate pagetype .RESERVE Cache.WRITEBACK.code 0))) := by
  have hread : ((List.range pages_number.toNat).any fun h =>
      bitSet (signAll m (walked vm m pagetree) (wordAt (entryOf vm m pagetree) h)) 2 ||
        unmapMode (signAll m (walked vm m pagetree) (wordAt (entryOf vm m pagetree) h)) !=
          Mode.MAP.code.setWidth 64) = true ↔
      ReadUnmappable m pagetree vm pages_number := by
    have hsame := signAll_same m (walked vm m pagetree)
    have hbit : ∀ a, bitSet (signAll m (walked vm m pagetree) a) 2 = bitSet (m a) 2 :=
      hsame.bitSet_eq (by decide) (by decide)
    have hmode : ∀ a, unmapMode (signAll m (walked vm m pagetree) a) = unmapMode (m a) :=
      fun a => unmapMode_congr (hsame a)
    simp only [hbit, hmode, List.any_eq_true, List.mem_range, Bool.or_eq_true, bne_iff_ne,
      ReadUnmappable]
  rw [memUnmap_eq, vmtoEntry_eq_signAll, ← hread]
  exact ⟨fun h => if_pos h, fun h => if_neg h⟩

/-- Pages that are mapped, some of them at least, are refused. -/
theorem readUnmappable_of_mapped
    (hpages : pages_number ≠ 0)
    (h : ¬ Unmappable m pagetree vm pages_number) :
    ReadUnmappable m pagetree vm pages_number := by
  have hpos : 0 < pages_number.toNat := BitVec.toNat_pos_of_ne_zero hpages
  refine ⟨0, hpos, Or.inr (unmapMode_of_mapped ?_)⟩
  by_contra hmode
  exact h ⟨0, hpos, Or.inr hmode⟩

theorem not_unmappable_zero (m : WordMemory) (pagetree vm : Word) :
    ¬ Unmappable m pagetree vm 0 ∧ ¬ ReadUnmappable m pagetree vm 0 := by
  have hnull : (0 : Half).toNat = 0 := rfl
  exact ⟨fun ⟨h, hh, _⟩ => absurd hh (Nat.not_lt_zero h),
    fun ⟨h, hh, _⟩ => absurd hh (Nat.not_lt_zero h)⟩

/-- Without pages only the signatures of the walk count. -/
theorem unmapAtomic_zero_iff :
    UnmapAtomic m pagetree vm 0 pagetype ↔ WalkSigned vm m pagetree := by
  obtain ⟨hnone, hread⟩ := not_unmappable_zero m pagetree vm
  have hwords : (memUnmap m pagetree vm (0 : Half).toNat pagetype).2 =
      signAll m (walked vm m pagetree) := by
    rw [(memUnmap_closed m pagetree vm 0 pagetype).2 hread]
    rfl
  have hreset : ResetExactly m (memUnmap m pagetree vm (0 : Half).toNat pagetype).2
      (entryOf vm m pagetree) (0 : Half).toNat
      (memreqTemplate pagetype .RESERVE Cache.WRITEBACK.code 0) ↔
        ∀ a, a ∈ walked vm m pagetree →
          Within (entryOf vm m pagetree) (0 : Half).toNat a ∨ bitSet (m a) 56 = true :=
    resetExactly_iff (fun h hh => absurd hh (Nat.not_lt_zero h)) (fun a _ => by rw [hwords])
  have hwithin : ∀ a, ¬ Within (entryOf vm m pagetree) (0 : Half).toNat a :=
    fun a ⟨h, hh, _⟩ => absurd hh (Nat.not_lt_zero h)
  constructor
  · intro h a ha
    exact (hreset.mp (h.done hnone) a ha).resolve_left (hwithin a)
  · intro h
    exact ⟨fun hr => absurd hr hnone, fun _ => hreset.mpr fun a ha => Or.inr (h a ha)⟩

/-- Pages that must be refused are so when the mode that is read says it. -/
theorem unmapAtomic_iff_of_unmappable
    (hunmappable : Unmappable m pagetree vm pages_number) :
    UnmapAtomic m pagetree vm pages_number pagetype ↔
      WalkSigned vm m pagetree ∧ ReadUnmappable m pagetree vm pages_number := by
  have hsigned := signAll_eq_self_iff m (walked vm m pagetree)
  have hclosed := memUnmap_closed m pagetree vm pages_number pagetype
  by_cases hread : ReadUnmappable m pagetree vm pages_number
  · rw [and_iff_left hread]
    constructor
    · intro h
      have hwords := (h.refused hunmappable).2
      rw [hclosed.1 hread] at hwords
      exact hsigned.mp hwords
    · intro h
      refine ⟨fun _ => ?_, fun hn => absurd hunmappable hn⟩
      rw [hclosed.1 hread]
      exact ⟨rfl, hsigned.mpr h⟩
  · refine iff_of_false (fun h => ?_) fun h => hread h.2
    have hdone := (h.refused hunmappable).1
    rw [hclosed.2 hread] at hdone
    exact Bool.noConfusion hdone

/-- An entry that is mapped is not one that was reset, with its signature or without. -/
theorem not_mapped_of_reset
    {entry entry' : Word}
    (hsame : setBit entry' 56 = setBit entry 56)
    (hreset : entry' = memreqTemplate pagetype .RESERVE Cache.WRITEBACK.code 0) :
    layoutMode entry ≠ Mode.MAP.code.setWidth 64 := by
  intro hmapped
  have hmode := layoutMode_template pagetype .RESERVE .WRITEBACK 0 0#64
  rw [BitVec.zero_shiftLeft, BitVec.or_zero, ← hreset, layoutMode_congr hsame, hmapped] at hmode
  exact absurd hmode (by decide)

/-- Pages that are mapped stay so. -/
theorem not_unmapAtomic_of_mapped
    (hpages : pages_number ≠ 0)
    (hmapped : ¬ Unmappable m pagetree vm pages_number) :
    ¬ UnmapAtomic m pagetree vm pages_number pagetype := by
  intro h
  have hpos : 0 < pages_number.toNat := BitVec.toNat_pos_of_ne_zero hpages
  have hread := readUnmappable_of_mapped hpages hmapped
  have hfirst := (h.done hmapped).inside 0 hpos
  rw [(memUnmap_closed m pagetree vm pages_number pagetype).1 hread] at hfirst
  exact hmapped ⟨0, hpos, Or.inr (not_mapped_of_reset (signAll_same m _ _) hfirst)⟩

theorem unmapAtomic_iff :
    UnmapAtomic m pagetree vm pages_number pagetype ↔ UnmapSafe m pagetree vm pages_number := by
  unfold UnmapSafe
  by_cases hpages : pages_number = 0
  · subst hpages
    rw [unmapAtomic_zero_iff, or_iff_left_of_imp fun _ => rfl, and_iff_left rfl]
  · rw [or_iff_right hpages]
    by_cases hunmappable : Unmappable m pagetree vm pages_number
    · rw [unmapAtomic_iff_of_unmappable hunmappable, and_iff_right hunmappable]
    · have hnot : ¬ UnmapAtomic m pagetree vm pages_number pagetype :=
        not_unmapAtomic_of_mapped hpages hunmappable
      exact iff_of_false hnot fun h => hunmappable h.2.1

/-- What `mem_map` writes, at address 0, is unmapped again exactly when it is nothing. -/
theorem memUnmap_zero_memMap_iff (m : WordMemory) (pagetree target : Word)
    (pages_number : Half) (pagetype : Nat) (cache : Cache) :
    (memUnmap (memMap m pagetree target pagetype pages_number.toNat cache.code).2 pagetree 0
        pages_number.toNat pagetype).1 = true ↔ pages_number = 0 := by
  have hlt := pages_number.isLt
  have hclosed := memUnmap_closed
    (memMap m pagetree target pagetype pages_number.toNat cache.code).2 pagetree 0 pages_number
    pagetype
  by_cases hpages : pages_number = 0
  · subst hpages
    rw [hclosed.2 (not_unmappable_zero _ pagetree 0).2]
    simp
  · have hpos : 0 < pages_number.toNat := BitVec.toNat_pos_of_ne_zero hpages
    have hroot : layoutMode
        ((memMap m pagetree target pagetype pages_number.toNat cache.code).2 pagetree) =
          Mode.MAP.code.setWidth 64 := by
      rw [memMap_eq]
      dsimp only
      rw [storeWords_base (by omega) hpos]
      exact layoutMode_template pagetype .MAP cache 0 _
    have hread : ReadUnmappable
        (memMap m pagetree target pagetype pages_number.toNat cache.code).2 pagetree 0
        pages_number := by
      refine ⟨0, hpos, Or.inr (unmapMode_of_mapped ?_)⟩
      rw [entryOf_zero, wordAt_zero]
      exact hroot
    rw [hclosed.1 hread]
    exact iff_of_false Bool.false_ne_true hpages

/-- **What `mem_map` has just mapped is unmapped again exactly when it is nothing.** -/
theorem memUnmap_memMap_iff
    {target vm : Word} {cache : Cache}
    (hvm : (memMap m pagetree target pagetype pages_number.toNat cache.code).1 = some vm) :
    (memUnmap (memMap m pagetree target pagetype pages_number.toNat cache.code).2 pagetree vm
        pages_number.toNat pagetype).1 = true ↔ pages_number = 0 := by
  have hzero : vm = 0 := by
    rw [memMap_fst] at hvm
    exact vmtreeFetch_eq_zero hvm
  subst hzero
  exact memUnmap_zero_memMap_iff m pagetree target pages_number pagetype cache

end Unmap

/-- **When releasing does all or nothing.** -/
theorem release_atomic_iff (m : WordMemory) (pagetree vm : Word) (pages_number : Half)
    (pagetype : Nat) (table : RamTable) (array : Word) :
    (DeallocateAtomic m pagetree vm pages_number ↔ DeallocateSafe m pagetree vm pages_number) ∧
    (FreeAtomic m pagetree vm pages_number pagetype table array ↔
      MemFreeSafe m pagetree vm pages_number pagetype table array) ∧
    (UnmapAtomic m pagetree vm pages_number pagetype ↔
      UnmapSafe m pagetree vm pages_number) ∧
    ∀ target cache vm',
      (memMap m pagetree target pagetype pages_number.toNat (Cache.code cache)).1 = some vm' →
      ((memUnmap (memMap m pagetree target pagetype pages_number.toNat cache.code).2 pagetree
          vm' pages_number.toNat pagetype).1 = true ↔ pages_number = 0) :=
  ⟨deallocateAtomic_iff, freeAtomic_iff, unmapAtomic_iff, fun _ _ _ => memUnmap_memMap_iff⟩

theorem release_atomic_iff_lowTree :
    (memUnmap (memMap lowTree 8192#64 4096#64 Pag.MIDPAGE (1#32).toNat
        Cache.WRITEBACK.code).2 8192#64 0 (1#32).toNat Pag.MIDPAGE).1 = true ↔ 1#32 = 0 :=
  (release_atomic_iff lowTree 8192#64 0 1#32 Pag.MIDPAGE (fun _ => 0) 0).2.2.2 4096#64
    .WRITEBACK 0 (by rw [memMap_fst]; exact congrArg Prod.fst (vmtreeFetch_lowTree (by decide)))

/-- One mapped page that `mem_map` has put at address 0 of the tree at 8192. -/
theorem mapped_page_not_unmapped :
    (memMap lowTree 8192#64 4096#64 Pag.MIDPAGE 1 Cache.WRITEBACK.code).1 = some 0 ∧
      (memUnmap (memMap lowTree 8192#64 4096#64 Pag.MIDPAGE 1 Cache.WRITEBACK.code).2 8192#64 0
        1 Pag.MIDPAGE).1 = false := by
  have hvm : (memMap lowTree 8192#64 4096#64 Pag.MIDPAGE (1#32).toNat
      Cache.WRITEBACK.code).1 = some 0 := by
    rw [memMap_fst, vmtreeFetch_lowTree (by decide)]
  refine ⟨hvm, Bool.eq_false_iff.mpr fun hdone => ?_⟩
  have hnone : (1#32 : Half) = 0 := (memUnmap_memMap_iff hvm).mp hdone
  exact absurd hnone (by decide)

end Mem
end BestKernel
