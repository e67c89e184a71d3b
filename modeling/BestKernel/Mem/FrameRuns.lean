import BestKernel.Library.Ledger
import BestKernel.Library.Runs
import BestKernel.Mem.Bitmap
import BestKernel.Mem.Walk

/-!
# Physical frames over whole runs

The allocator of frames as a ledger: the live allocations own frames, and the
bits set in `phys_ram_table` should be the frames in use at the start and the
frames of the live allocations.

`manipulate_phys` touches the eight frames of one byte of the table, and the
callers neither ask for eight frames nor check the pointer they pass on, so the
ledger is kept by few calls.  `RamSafe` says by which: an allocation must get
exactly the free frames of its byte, a failing one must find frames 0 to 7 in
use, a release must find nothing else in use in its byte, and `mem_realloc`,
which takes frames without marking them, must not get any.

A block that `mrealloc` finds no other frames for is still allocated, though `mrealloc`
clears its byte all the same.
-/

namespace BestKernel
namespace Mem

open Machine

/-- The frames of `pages_number` pages from an address on. -/
def pageFrames (address : Word) (pages_number : Half) (pagetype : Nat) : Set Nat :=
  {n | address.toNat / 4096 ≤ n ∧
    n < address.toNat / 4096 +
      pages_number.toNat * (getMultiFromPagetype pagetype / 4096)}

/-- An allocation: consecutive frames, or pages wherever they were found. -/
inductive Allocation where
  | identity (address : Word) (pages_number : Half) (pagetype : Nat)
  | scattered (addresses : List Word) (pagetype : Nat)
deriving DecidableEq

def Allocation.frames : Allocation → Set Nat
  | .identity address pages_number pagetype =>
      pageFrames address pages_number pagetype
  | .scattered addresses pagetype =>
      {n | ∃ a, a ∈ addresses ∧ n ∈ pageFrames a 1 pagetype}

/-- The frames whose bit is set. -/
def usedFrames (table : RamTable) : Set Nat :=
  {n | (table (n / 8)).getLsbD (n % 8) = true}

/-- The frames that `manipulate_phys` touches. -/
def touched (phys : Word) (pages_number : Half) : Set Nat :=
  {n | pages_number ≠ 0#32 ∧ n / 8 = tableIndex phys}

theorem mem_usedFrames_update
    (table : RamTable) (index : Nat) (x : Byte) (n : Nat) :
    n ∈ usedFrames (Function.update table index x) ↔
      if n / 8 = index then x.getLsbD (n % 8) = true else n ∈ usedFrames table := by
  unfold usedFrames
  rw [Set.mem_ofPred_eq, Function.update_apply]
  split_ifs <;> rfl

theorem getLsbD_full (action : Action) (n : Nat) :
    action.full.getLsbD (n % 8) = decide (action = .SET) := by
  have hlt : n % 8 < 8 := Nat.mod_lt _ (by decide)
  generalize n % 8 = i at hlt
  cases action <;> revert hlt <;> revert i <;> decide

/-- Setting marks the frames touched. -/
theorem usedFrames_set
    (table : RamTable) (phys : Word) (pages_number : Half) (pagetype : Nat) :
    usedFrames (manipulatePhys table phys pages_number pagetype .SET) =
      usedFrames table ∪ touched phys pages_number := by
  ext n
  rw [manipulatePhys_eq]
  split_ifs with hpages
  · simp [touched, hpages]
  · rw [mem_usedFrames_update, getLsbD_full, Set.mem_union]
    split_ifs with hn
    · simp [touched, hpages, hn]
    · simp [touched, hn]

/-- Clearing unmarks the frames touched. -/
theorem usedFrames_clear
    (table : RamTable) (phys : Word) (pages_number : Half) (pagetype : Nat) :
    usedFrames (manipulatePhys table phys pages_number pagetype .CLEAR) =
      usedFrames table \ touched phys pages_number := by
  ext n
  rw [manipulatePhys_eq]
  split_ifs with hpages
  · simp [touched, hpages]
  · rw [mem_usedFrames_update, getLsbD_full, Set.mem_sdiff]
    split_ifs with hn
    · simp [touched, hpages, hn]
    · simp [touched, hn]

/-- The table, the words of the page trees, and the allocations held. -/
structure RamState where
  table : RamTable
  tree : WordMemory
  live : List Allocation

def RamState.start (table : RamTable) (tree : WordMemory) : RamState :=
  ⟨table, tree, []⟩

/-- The calls.  `stack` is what the array of a `mem_realloc` holds before. -/
inductive RamOp where
  | malloc (pages_number : Half) (pagetype : Nat)
  | mfree (pointer : Word) (pages_number : Half) (pagetype : Nat)
  | mrealloc (pointer : Word) (previous_pages new_pages : Half) (pagetype : Nat)
  | memRealloc (pagetree vm : Word) (oldpages newpages : Half) (pagetype : Nat)
      (stack : Nat → Word)
  | fill (entry : Word) (pagetype : Nat)

/-- The allocations held after a search for consecutive frames. -/
def book (live : List Allocation) (ret : Word) (pages_number : Half)
    (pagetype : Nat) : List Allocation :=
  if ret = 0 then live else .identity ret pages_number pagetype :: live

section Runs

variable (memlen : Half)

/-- The allocations held after an `mrealloc`: one that fails leaves the block as it was. -/
def rebook (live : List Allocation) (pointer : Word) (previous_pages : Half) (ret : Word)
    (new_pages : Half) (pagetype : Nat) : List Allocation :=
  if ret = 0 then live
  else .identity ret new_pages pagetype :: live.erase (.identity pointer previous_pages pagetype)

/-- A call that returns.  What is freed or grown is a live allocation. -/
def RamStep (s : RamState) (op : RamOp) (s' : RamState) : Prop :=
  match op with
  | .malloc pages_number pagetype =>
      ∃ fuel ret table,
        malloc memlen fuel s.table pages_number pagetype = some (ret, table) ∧
        s' = ⟨table, s.tree, book s.live ret pages_number pagetype⟩
  | .mfree pointer pages_number pagetype =>
      .identity pointer pages_number pagetype ∈ s.live ∧
        s' = ⟨mfree s.table pointer pages_number pagetype, s.tree,
          s.live.erase (.identity pointer pages_number pagetype)⟩
  | .mrealloc pointer previous_pages new_pages pagetype =>
      .identity pointer previous_pages pagetype ∈ s.live ∧
        ∃ fuel ret table,
          mrealloc memlen fuel s.table pointer previous_pages new_pages pagetype =
            some (ret, table) ∧
          s' = ⟨table, s.tree,
            rebook s.live pointer previous_pages ret new_pages pagetype⟩
  | .memRealloc pagetree vm oldpages newpages pagetype stack =>
      ∃ fuel result,
        memRealloc memlen fuel s.table s.tree pagetree vm oldpages newpages pagetype
          stack = some result ∧
        s' = match result with
          | .refused tree => ⟨s.table, tree, s.live⟩
          | .moved addresses tree =>
              ⟨s.table, tree, .scattered addresses pagetype :: s.live⟩
  | .fill entry pagetype =>
      ∃ fuel phys table word,
        softfaultReserve memlen fuel s.table (s.tree entry) pagetype =
          some (phys, table, word) ∧
        s' = ⟨table, Function.update s.tree entry word, book s.live phys 1#32 pagetype⟩

/-- An allocation gets the free frames of its byte; a failure finds the byte of
the null pointer in use. -/
def AllocSafe (used : Set Nat) (ret : Word) (pages_number : Half)
    (pagetype : Nat) : Prop :=
  if ret = 0 then touched 0 pages_number ⊆ used
  else pageFrames ret pages_number pagetype = touched ret pages_number \ used

/-- What is released is all that is in use in its byte. -/
def FreeSafe (used : Set Nat) (pointer : Word) (pages_number : Half)
    (pagetype : Nat) : Prop :=
  used ∩ touched pointer pages_number = pageFrames pointer pages_number pagetype

/-- As for an allocation and a release, from one byte to another; a failure must have
nothing to release either. -/
def MreallocSafe (used : Set Nat) (pointer ret : Word)
    (previous_pages new_pages : Half) (pagetype : Nat) : Prop :=
  if ret = 0 then previous_pages = 0 ∧ touched 0 new_pages ⊆ used
  else FreeSafe used pointer previous_pages pagetype ∧
    pageFrames ret new_pages pagetype = touched ret new_pages \ used ∧
    Disjoint (touched ret new_pages) (touched pointer previous_pages)

/-- The condition on a step, in the state before it. -/
def RamSafe (s : RamState) : RamOp → Prop
  | .malloc pages_number pagetype =>
      ∀ fuel ret,
        getFreeIdentity memlen s.table pages_number pagetype fuel = some ret →
        AllocSafe (usedFrames s.table) ret pages_number pagetype
  | .mfree pointer pages_number pagetype =>
      FreeSafe (usedFrames s.table) pointer pages_number pagetype
  | .mrealloc pointer previous_pages new_pages pagetype =>
      ∀ fuel ret,
        getFreeIdentity memlen s.table new_pages pagetype fuel = some ret →
        MreallocSafe (usedFrames s.table) pointer ret previous_pages new_pages pagetype
  | .memRealloc _ _ oldpages newpages pagetype _ =>
      newpages ≤ oldpages ∨
        ∀ fuel result,
          getFreePhys memlen s.table (newpages - oldpages) pagetype fuel = some result →
          result.1 ≠ 0
  | .fill _ pagetype =>
      ∀ fuel ret,
        getFreeIdentity memlen s.table 1#32 pagetype fuel = some ret →
        AllocSafe (usedFrames s.table) ret 1#32 pagetype

/-- The ledger of frames, over the frames in use at the start. -/
def FramesExclusive (base : Set Nat) (s : RamState) : Prop :=
  Ledger.Exclusive Allocation.frames base (usedFrames s.table) s.live

variable {memlen} {base : Set Nat}

theorem malloc_eq_some
    {fuel : Nat} {table table' : RamTable} {pages_number : Half} {pagetype : Nat}
    {ret : Word}
    (h : malloc memlen fuel table pages_number pagetype = some (ret, table')) :
    getFreeIdentity memlen table pages_number pagetype fuel = some ret ∧
      table' = manipulatePhys table ret pages_number pagetype .SET := by
  unfold malloc at h
  cases hfind : getFreeIdentity memlen table pages_number pagetype fuel with
  | none => simp [hfind] at h
  | some found =>
      simp only [hfind, Option.bind_eq_bind, Option.bind_some, Option.pure_def,
        Option.some.injEq, Prod.mk.injEq] at h
      obtain ⟨rfl, rfl⟩ := h
      exact ⟨rfl, rfl⟩

theorem mrealloc_eq_some
    {fuel : Nat} {table table' : RamTable} {pointer ret : Word}
    {previous_pages new_pages : Half} {pagetype : Nat}
    (h : mrealloc memlen fuel table pointer previous_pages new_pages pagetype =
      some (ret, table')) :
    getFreeIdentity memlen table new_pages pagetype fuel = some ret ∧
      table' = mfree (manipulatePhys table ret new_pages pagetype .SET) pointer
        previous_pages pagetype := by
  unfold mrealloc at h
  cases hmalloc : malloc memlen fuel table new_pages pagetype with
  | none => simp [hmalloc] at h
  | some found =>
      obtain ⟨newp, marked⟩ := found
      simp only [hmalloc, Option.bind_eq_bind, Option.bind_some, Option.pure_def,
        Option.some.injEq, Prod.mk.injEq] at h
      obtain ⟨rfl, rfl⟩ := h
      obtain ⟨hfind, rfl⟩ := malloc_eq_some hmalloc
      exact ⟨hfind, rfl⟩

theorem softfaultReserve_eq_some
    {fuel : Nat} {table table' : RamTable} {entry phys word : Word} {pagetype : Nat}
    (h : softfaultReserve memlen fuel table entry pagetype = some (phys, table', word)) :
    malloc memlen fuel table 1#32 pagetype = some (phys, table') := by
  unfold softfaultReserve at h
  cases hmalloc : malloc memlen fuel table 1#32 pagetype with
  | none => simp [hmalloc] at h
  | some found =>
      simp only [hmalloc, Option.bind_eq_bind, Option.bind_some, Option.pure_def,
        Option.some.injEq, Prod.mk.injEq] at h
      obtain ⟨rfl, rfl, _⟩ := h
      rfl

/-- What an allocation does to the ledger, exactly. -/
theorem exclusive_book_iff
    {table : RamTable} {live : List Allocation} {ret : Word} {pages_number : Half}
    {pagetype : Nat}
    (h : Ledger.Exclusive Allocation.frames base (usedFrames table) live) :
    Ledger.Exclusive Allocation.frames base
        (usedFrames (manipulatePhys table ret pages_number pagetype .SET))
        (book live ret pages_number pagetype) ↔
      AllocSafe (usedFrames table) ret pages_number pagetype := by
  rw [usedFrames_set]
  unfold book AllocSafe
  split_ifs with hret
  · subst hret
    rw [Ledger.unchanged_iff h]
    exact Set.union_eq_left
  · rw [Ledger.claim_iff h]
    change Disjoint (usedFrames table) (pageFrames ret pages_number pagetype) ∧
      usedFrames table ∪ touched ret pages_number =
        usedFrames table ∪ pageFrames ret pages_number pagetype ↔ _
    constructor
    · rintro ⟨hdisj, hunion⟩
      rw [← Set.union_sdiff_left (s := usedFrames table), hunion, Set.union_sdiff_left]
      exact hdisj.symm.sdiff_eq_left.symm
    · intro hframes
      rw [hframes]
      exact ⟨Set.disjoint_sdiff_right, Set.union_sdiff_self.symm⟩

/-- What a release does to the ledger, exactly. -/
theorem exclusive_mfree_iff
    {table : RamTable} {live : List Allocation} {pointer : Word} {pages_number : Half}
    {pagetype : Nat}
    (h : Ledger.Exclusive Allocation.frames base (usedFrames table) live)
    (hlive : .identity pointer pages_number pagetype ∈ live) :
    Ledger.Exclusive Allocation.frames base
        (usedFrames (mfree table pointer pages_number pagetype))
        (live.erase (.identity pointer pages_number pagetype)) ↔
      FreeSafe (usedFrames table) pointer pages_number pagetype := by
  have hcons := h.perm (List.perm_cons_erase hlive)
  have hsub : pageFrames pointer pages_number pagetype ⊆ usedFrames table :=
    h.subset_marked hlive
  rw [mfree, usedFrames_clear, Ledger.release_iff hcons]
  change usedFrames table \ touched pointer pages_number =
    usedFrames table \ pageFrames pointer pages_number pagetype ↔ _
  rw [FreeSafe]
  constructor
  · intro hdiff
    rw [← Set.sdiff_sdiff_right_self, hdiff, Set.sdiff_sdiff_right_self]
    exact Set.inter_eq_right.mpr hsub
  · intro hinter
    rw [← hinter, Set.sdiff_self_inter]

/-- Frames of consecutive allocations are among those touched for them. -/
def IdentityTouched (s : RamState) : Prop :=
  ∀ address pages_number pagetype,
    .identity address pages_number pagetype ∈ s.live →
    pageFrames address pages_number pagetype ⊆ touched address pages_number

theorem touched_eq_or_disjoint
    {phys phys' : Word} {pages_number pages_number' : Half} :
    (touched phys pages_number = touched phys' pages_number' ∧ pages_number ≠ 0#32) ∨
      Disjoint (touched phys pages_number) (touched phys' pages_number') := by
  by_cases hsame : tableIndex phys = tableIndex phys' ∧
      pages_number ≠ 0#32 ∧ pages_number' ≠ 0#32
  · obtain ⟨hindex, hpages, hpages'⟩ := hsame
    refine Or.inl ⟨?_, hpages⟩
    simp [touched, hindex, hpages, hpages']
  · refine Or.inr (Set.disjoint_left.mpr ?_)
    rintro n ⟨hpages, hn⟩ ⟨hpages', hn'⟩
    exact hsame ⟨hn.symm.trans hn', hpages, hpages'⟩

/-- The first frame of an allocation that was found is touched for it. -/
theorem exists_frame_touched
    {ret : Word} {pages_number : Half} {pagetype : Nat}
    (hret : ret.toNat < 2 ^ 32)
    (hpages : pages_number ≠ 0#32) :
    ∃ n, n ∈ pageFrames ret pages_number pagetype ∧ n ∈ touched ret pages_number := by
  have hpos : 0 < pages_number.toNat := BitVec.toNat_pos_of_ne_zero hpages
  have hmulti : 0 < getMultiFromPagetype pagetype / 4096 :=
    Nat.div_pos (getMultiFromPagetype_ge pagetype) (by decide)
  refine ⟨ret.toNat / 4096, ⟨Nat.le_refl _, ?_⟩, hpages, ?_⟩
  · exact Nat.lt_add_of_pos_right (Nat.mul_pos hpos hmulti)
  · have h8 : (8 : Word).toNat = 8 := rfl
    have h4096 : (4096 : Word).toNat = 4096 := rfl
    rw [tableIndex, BitVec.toNat_setWidth, BitVec.toNat_udiv, BitVec.toNat_udiv, h8, h4096]
    omega

theorem touched_zero (phys : Word) : touched phys 0 = ∅ :=
  Set.eq_empty_of_forall_notMem fun _ hn => hn.1 rfl

/-- The byte of a live allocation has a used frame, unless the allocation has no page. -/
theorem touched_of_live
    {used : Set Nat} {pointer : Word} {pages_number : Half} {pagetype : Nat}
    (hused : pageFrames pointer pages_number pagetype ⊆ used)
    (htouched : pageFrames pointer pages_number pagetype ⊆ touched pointer pages_number) :
    Disjoint used (touched pointer pages_number) ↔ pages_number = 0 := by
  constructor
  · intro hdisj
    by_contra hpages
    have hpos : 0 < pages_number.toNat := BitVec.toNat_pos_of_ne_zero hpages
    have hmulti : 0 < getMultiFromPagetype pagetype / 4096 :=
      Nat.div_pos (getMultiFromPagetype_ge pagetype) (by decide)
    have hfirst : pointer.toNat / 4096 ∈ pageFrames pointer pages_number pagetype :=
      ⟨Nat.le_refl _, Nat.lt_add_of_pos_right (Nat.mul_pos hpos hmulti)⟩
    exact Set.disjoint_left.mp hdisj (hused hfirst) (htouched hfirst)
  · rintro rfl
    rw [touched_zero]
    exact Set.disjoint_empty _

/-- What `mrealloc` does to the ledger, exactly. -/
theorem exclusive_mrealloc_iff
    {s : RamState} {pointer ret : Word} {previous_pages new_pages : Half}
    {pagetype : Nat}
    (h : FramesExclusive base s)
    (htouched : IdentityTouched s)
    (hlive : .identity pointer previous_pages pagetype ∈ s.live)
    (hret : ret.toNat < 2 ^ 32) :
    Ledger.Exclusive Allocation.frames base
        (usedFrames
          (mfree (manipulatePhys s.table ret new_pages pagetype .SET) pointer
            previous_pages pagetype))
        (rebook s.live pointer previous_pages ret new_pages pagetype) ↔
      MreallocSafe (usedFrames s.table) pointer ret previous_pages new_pages
        pagetype := by
  have hsub : pageFrames pointer previous_pages pagetype ⊆ usedFrames s.table :=
    h.subset_marked hlive
  have hold := htouched _ _ _ hlive
  rw [mfree, usedFrames_clear, usedFrames_set]
  unfold rebook MreallocSafe FreeSafe
  split_ifs with hnull
  · subst hnull
    rw [Ledger.unchanged_iff h, Ledger.keep_group_iff, touched_of_live hsub hold]
    refine and_congr_right fun hpages => ?_
    rw [hpages, touched_zero, Set.union_empty]
  · have hrest := (Ledger.release_iff (h.perm (List.perm_cons_erase hlive))).mpr rfl
    change Ledger.Exclusive _ _
      (usedFrames s.table \ pageFrames pointer previous_pages pagetype) _ at hrest
    rw [Ledger.claim_iff hrest]
    refine Ledger.move_group_iff hsub hold fun hmeet => ?_
    obtain ⟨hsame, hpages⟩ := touched_eq_or_disjoint.resolve_right hmeet
    obtain ⟨n, hn, hn'⟩ := exists_frame_touched hret hpages
    exact ⟨n, hn, hsame ▸ hn'⟩

theorem identityTouched_book
    {live : List Allocation} {ret : Word} {pages_number : Half} {pagetype : Nat}
    {table : RamTable} {tree : WordMemory}
    (h : IdentityTouched ⟨table, tree, live⟩)
    (hframes : ret ≠ 0 →
      pageFrames ret pages_number pagetype ⊆ touched ret pages_number)
    (table' : RamTable) (tree' : WordMemory) :
    IdentityTouched ⟨table', tree', book live ret pages_number pagetype⟩ := by
  intro a n t hmem
  unfold book at hmem
  split_ifs at hmem with hnull
  · exact h a n t hmem
  · rcases List.mem_cons.mp hmem with heq | hmem
    · cases heq
      exact hframes hnull
    · exact h a n t hmem

theorem IdentityTouched.erase
    {s : RamState}
    (h : IdentityTouched s)
    (b : Allocation) (table : RamTable) :
    IdentityTouched ⟨table, s.tree, s.live.erase b⟩ :=
  fun a n t hmem => h a n t (List.mem_of_mem_erase hmem)

theorem identityTouched_rebook
    {s : RamState} {pointer ret : Word} {previous_pages new_pages : Half} {pagetype : Nat}
    (h : IdentityTouched s)
    (hframes : ret ≠ 0 → pageFrames ret new_pages pagetype ⊆ touched ret new_pages)
    (table' : RamTable) (tree' : WordMemory) :
    IdentityTouched
      ⟨table', tree', rebook s.live pointer previous_pages ret new_pages pagetype⟩ := by
  intro a n t hmem
  unfold rebook at hmem
  split_ifs at hmem with hnull
  · exact h a n t hmem
  · rcases List.mem_cons.mp hmem with heq | hmem
    · cases heq
      exact hframes hnull
    · exact h.erase _ s.table a n t hmem

/-- Frames of a found page are there. -/
theorem scattered_frames_eq_empty_iff
    {addresses : List Word} {pagetype : Nat} :
    (Allocation.scattered addresses pagetype).frames = ∅ ↔ addresses = [] := by
  constructor
  · intro hempty
    cases addresses with
    | nil => rfl
    | cons a rest =>
        have hmulti : 0 < getMultiFromPagetype pagetype / 4096 :=
          Nat.div_pos (getMultiFromPagetype_ge pagetype) (by decide)
        have hmem : a.toNat / 4096 ∈ (Allocation.scattered (a :: rest) pagetype).frames := by
          refine ⟨a, by simp, Nat.le_refl _, ?_⟩
          have h1 : (1 : Half).toNat = 1 := rfl
          rw [h1, Nat.one_mul]
          exact Nat.lt_add_of_pos_right hmulti
        rw [hempty] at hmem
        exact hmem.elim
  · rintro rfl
    ext n
    simp [Allocation.frames]

/-- The allocation is exactly safe when no frame changes hands unmarked. -/
theorem exclusive_scattered_iff
    {table : RamTable} {live : List Allocation} {addresses : List Word} {pagetype : Nat}
    (h : Ledger.Exclusive Allocation.frames base (usedFrames table) live) :
    Ledger.Exclusive Allocation.frames base (usedFrames table)
        (.scattered addresses pagetype :: live) ↔
      addresses = [] := by
  have hempty_iff : (Allocation.scattered addresses pagetype).frames = ∅ ↔ addresses = [] :=
    scattered_frames_eq_empty_iff
  rw [Ledger.claim_iff h, ← hempty_iff]
  constructor
  · rintro ⟨hdisj, hunion⟩
    have hsub : (Allocation.scattered addresses pagetype).frames ⊆ usedFrames table := by
      rw [hunion]
      exact Set.subset_union_right
    exact Set.eq_empty_of_forall_notMem fun n hn =>
      Set.disjoint_left.mp hdisj (hsub hn) hn
  · intro hempty
    rw [hempty]
    exact ⟨Set.disjoint_empty _, (Set.union_empty _).symm⟩

/-- How `mem_realloc` can end. -/
theorem memRealloc_cases
    {fuel : Nat} {table : RamTable} {tree : WordMemory} {pagetree vm : Word}
    {oldpages newpages : Half} {pagetype : Nat} {stack : Nat → Word}
    {result : Reallocated}
    (h : memRealloc memlen fuel table tree pagetree vm oldpages newpages pagetype stack =
      some result) :
    (oldpages > newpages ∧ ∃ tree', result = .refused tree') ∨
      (¬ oldpages > newpages ∧ ∃ status new,
        getFreePhys memlen table (newpages - oldpages) pagetype fuel =
          some (status, new) ∧
        ((status ≠ 0 ∧ ∃ tree', result = .refused tree') ∨
          (status = 0 ∧ ∃ tree', result = .moved new tree'))) := by
  unfold memRealloc at h
  split_ifs at h with hshrink
  · exact Or.inl ⟨hshrink, tree, (Option.some.inj h).symm⟩
  · refine Or.inr ⟨hshrink, ?_⟩
    dsimp only at h
    rw [fetchedPointer_vmtreeFetch, if_neg (by decide)] at h
    cases hfind : getFreePhys memlen table (newpages - oldpages) pagetype fuel with
    | none => simp [hfind] at h
    | some found =>
        obtain ⟨status, new⟩ := found
        refine ⟨status, new, rfl, ?_⟩
        simp only [hfind, Option.bind_eq_bind, Option.bind_some, Option.pure_def] at h
        split_ifs at h with hstatus
        · exact Or.inl ⟨hstatus, _, (Option.some.inj h).symm⟩
        · exact Or.inr ⟨not_not.mp hstatus, _, (Option.some.inj h).symm⟩

/-- The condition on an allocation speaks of the only address there is. -/
theorem forall_getFreeIdentity_iff
    {table : RamTable} {pages_number : Half} {pagetype fuel : Nat} {ret : Word}
    (h : getFreeIdentity memlen table pages_number pagetype fuel = some ret)
    (Q : Word → Prop) :
    (∀ fuel' ret', getFreeIdentity memlen table pages_number pagetype fuel' = some ret' →
      Q ret') ↔ Q ret := by
  constructor
  · intro hall
    exact hall fuel ret h
  · intro hQ fuel' ret' h'
    exact Loops.run_unique h h' ▸ hQ

/-- A reallocation takes no frame exactly when it is safe. -/
theorem exclusive_memRealloc_iff
    {s s' : RamState} {pagetree vm : Word} {oldpages newpages : Half} {pagetype : Nat}
    {stack : Nat → Word}
    (h : FramesExclusive base s)
    (hstep : RamStep memlen s
      (.memRealloc pagetree vm oldpages newpages pagetype stack) s') :
    FramesExclusive base s' ↔
      RamSafe memlen s (.memRealloc pagetree vm oldpages newpages pagetype stack) := by
  obtain ⟨fuel, result, hresult, rfl⟩ := hstep
  have hrefused : ∀ tree', FramesExclusive base ⟨s.table, tree', s.live⟩ := fun _ => h
  rcases memRealloc_cases hresult with
    ⟨hshrink, tree', rfl⟩ | ⟨hgrow, status, new, hfind, hend⟩
  · exact ⟨fun _ => Or.inl (BitVec.le_of_lt hshrink), fun _ => hrefused tree'⟩
  · rcases hend with ⟨hstatus, tree', rfl⟩ | ⟨rfl, tree', rfl⟩
    · refine ⟨fun _ => Or.inr ?_, fun _ => hrefused tree'⟩
      intro fuel' found hfound
      rw [← Loops.run_unique hfind hfound]
      exact hstatus
    · have hmoved : FramesExclusive base
          ⟨s.table, tree', .scattered new pagetype :: s.live⟩ ↔ new = [] :=
        exclusive_scattered_iff h
      refine hmoved.trans ⟨?_, ?_⟩
      · rintro rfl
        have hcount := getFreePhys_count hfind rfl
        have hzero : newpages - oldpages = 0#32 := hcount.symm
        exact Or.inl (by bv_omega)
      · rintro (hle | hnone)
        · have hzero : newpages - oldpages = 0 := by bv_omega
          rw [hzero] at hfind
          exact getFreePhys_zero hfind
        · exact absurd rfl (hnone fuel _ hfind)

/-- The steps that keep the ledger are the safe ones. -/
theorem ramStep_exclusive_iff
    {s s' : RamState} {op : RamOp}
    (htouched : IdentityTouched s)
    (h : FramesExclusive base s)
    (hstep : RamStep memlen s op s') :
    FramesExclusive base s' ↔ RamSafe memlen s op := by
  cases op with
  | malloc pages_number pagetype =>
      obtain ⟨fuel, ret, table, hmalloc, rfl⟩ := hstep
      obtain ⟨hfind, rfl⟩ := malloc_eq_some hmalloc
      have hall := forall_getFreeIdentity_iff hfind fun ret =>
        AllocSafe (usedFrames s.table) ret pages_number pagetype
      exact (exclusive_book_iff h).trans hall.symm
  | mfree pointer pages_number pagetype =>
      obtain ⟨hlive, rfl⟩ := hstep
      exact exclusive_mfree_iff h hlive
  | mrealloc pointer previous_pages new_pages pagetype =>
      obtain ⟨hlive, fuel, ret, table, hrealloc, rfl⟩ := hstep
      obtain ⟨hfind, rfl⟩ := mrealloc_eq_some hrealloc
      have hall := forall_getFreeIdentity_iff hfind fun ret =>
        MreallocSafe (usedFrames s.table) pointer ret previous_pages new_pages pagetype
      have hret := getFreeIdentity_toNat_lt hfind
      exact (exclusive_mrealloc_iff h htouched hlive hret).trans hall.symm
  | memRealloc pagetree vm oldpages newpages pagetype stack =>
      exact exclusive_memRealloc_iff h hstep
  | fill entry pagetype =>
      obtain ⟨fuel, phys, table, word, hfill, rfl⟩ := hstep
      obtain ⟨hfind, rfl⟩ := malloc_eq_some (softfaultReserve_eq_some hfill)
      have hall := forall_getFreeIdentity_iff hfind fun ret =>
        AllocSafe (usedFrames s.table) ret 1#32 pagetype
      exact (exclusive_book_iff h).trans hall.symm

/-- A step that keeps the ledger leaves allocations among the frames touched. -/
theorem ramStep_identityTouched
    {s s' : RamState} {op : RamOp}
    (htouched : IdentityTouched s)
    (hsafe : RamSafe memlen s op)
    (hstep : RamStep memlen s op s') :
    IdentityTouched s' := by
  cases op with
  | malloc pages_number pagetype =>
      obtain ⟨fuel, ret, table, hmalloc, rfl⟩ := hstep
      have hret := hsafe fuel ret (malloc_eq_some hmalloc).1
      refine identityTouched_book htouched (fun hnull => ?_) _ _
      rw [AllocSafe, if_neg hnull] at hret
      exact hret.trans_subset Set.sdiff_subset
  | mfree pointer pages_number pagetype =>
      obtain ⟨_, rfl⟩ := hstep
      exact htouched.erase _ _
  | mrealloc pointer previous_pages new_pages pagetype =>
      obtain ⟨_, fuel, ret, table, hrealloc, rfl⟩ := hstep
      have hret := hsafe fuel ret (mrealloc_eq_some hrealloc).1
      refine identityTouched_rebook htouched (fun hnull => ?_) _ _
      rw [MreallocSafe, if_neg hnull] at hret
      exact hret.2.1.trans_subset Set.sdiff_subset
  | memRealloc pagetree vm oldpages newpages pagetype stack =>
      obtain ⟨fuel, result, _, rfl⟩ := hstep
      cases result with
      | refused tree => exact htouched
      | moved addresses tree =>
          intro a n t hmem
          rcases List.mem_cons.mp hmem with heq | hmem
          · cases heq
          · exact htouched a n t hmem
  | fill entry pagetype =>
      obtain ⟨fuel, phys, table, word, hfill, rfl⟩ := hstep
      have hret := hsafe fuel phys (malloc_eq_some (softfaultReserve_eq_some hfill)).1
      refine identityTouched_book htouched (fun hnull => ?_) _ _
      rw [AllocSafe, if_neg hnull] at hret
      exact hret.trans_subset Set.sdiff_subset

/--
**The frames are exclusive along a run exactly when every call gets and gives
back the frames of its byte of the table.**
-/
theorem frames_exclusive_iff
    {table : RamTable} {tree : WordMemory} {run : List (RamOp × RamState)}
    (hrun : Runs.Run (RamStep memlen) (RamState.start table tree) run) :
    Runs.Always (FramesExclusive (usedFrames table)) (RamState.start table tree) run ↔
      Runs.StepsMeet (RamSafe memlen) (RamState.start table tree) run := by
  have hinv : ∀ s op s', IdentityTouched s → FramesExclusive (usedFrames table) s →
      RamStep memlen s op s' → FramesExclusive (usedFrames table) s' →
      IdentityTouched s' :=
    fun _ _ _ htouched h hstep h' =>
      ramStep_identityTouched htouched
        ((ramStep_exclusive_iff htouched h hstep).mp h') hstep
  have hexact : ∀ s op s', IdentityTouched s → FramesExclusive (usedFrames table) s →
      RamStep memlen s op s' →
      (FramesExclusive (usedFrames table) s' ↔ RamSafe memlen s op) :=
    fun _ _ _ htouched h hstep => ramStep_exclusive_iff htouched h hstep
  have htouched : IdentityTouched (RamState.start table tree) :=
    fun _ _ _ hmem => (List.not_mem_nil hmem).elim
  have hstart : FramesExclusive (usedFrames table) (RamState.start table tree) :=
    ⟨List.Pairwise.nil, fun _ hmem => (List.not_mem_nil hmem).elim,
      fun n => by simp [RamState.start]⟩
  exact Runs.always_iff_stepsMeet_of_invariant hinv hexact hrun htouched hstart

end Runs

section Examples

/-- 4096 frames, none in use: the search reports frame 288. -/
theorem getFreeIdentity_empty :
    getFreeIdentity 4096 (fun _ => 0) 1 Pag.SMALLPAGE 4097 = some 0x120000#64 := by
  rw [getFreeIdentity_clear (fun _ _ => rfl) (by decide) (by decide)]
  decide

/-- The state after the allocation of one page in an empty table. -/
def emptyMalloc : RamState :=
  ⟨manipulatePhys (fun _ => 0) 0x120000#64 1 Pag.SMALLPAGE .SET, fun _ => 0,
    [.identity 0x120000#64 1 Pag.SMALLPAGE]⟩

theorem mem_usedFrames_emptyMalloc : 289 ∈ usedFrames emptyMalloc.table := by
  rw [emptyMalloc, usedFrames_set]
  exact Or.inr ⟨by decide, by decide⟩

def emptyRun : List (RamOp × RamState) :=
  [(.malloc 1 Pag.SMALLPAGE, emptyMalloc)]

/-- One page is allocated and eight frames are marked. -/
theorem emptyRun_not_exclusive :
    Runs.Run (RamStep 4096) (RamState.start (fun _ => 0) fun _ => 0) emptyRun ∧
      ¬ Runs.Always (FramesExclusive (usedFrames fun _ => 0))
        (RamState.start (fun _ => 0) fun _ => 0) emptyRun := by
  refine ⟨.cons ⟨4097, 0x120000#64, _, ?_, rfl⟩ (.nil _), ?_⟩
  · rw [RamState.start, malloc, getFreeIdentity_empty]
    rfl
  · rintro ⟨_, hall⟩
    have hafter : FramesExclusive (usedFrames fun _ => 0) emptyMalloc :=
      hall (.malloc 1 Pag.SMALLPAGE, emptyMalloc) (by simp [emptyRun])
    rcases (hafter.cover 289).mp mem_usedFrames_emptyMalloc with hbase | ⟨b, hb, hn⟩
    · simp [usedFrames] at hbase
    · obtain rfl : b = .identity 0x120000#64 1 Pag.SMALLPAGE := List.mem_singleton.mp hb
      have hlt : ¬ 289 < 0x120000 / 4096 + 1 * (4096 / 4096) := by decide
      exact hlt hn.2

/-- 64 frames, the first eight in use. -/
def lowUsed : RamTable := fun index => if index = 0 then 0xFF else 0

theorem getFreeIdentity_lowUsed :
    getFreeIdentity 64 lowUsed 1 Pag.SMALLPAGE 2 = some 0 := by
  decide

/-- A request that fails there. -/
def lowUsedRun : List (RamOp × RamState) :=
  [(.malloc 1 Pag.SMALLPAGE,
    ⟨manipulatePhys lowUsed 0 1 Pag.SMALLPAGE .SET, fun _ => 0, []⟩)]

theorem run_lowUsedRun :
    Runs.Run (RamStep 64) (RamState.start lowUsed fun _ => 0) lowUsedRun := by
  refine .cons ⟨2, 0, _, ?_, rfl⟩ (.nil _)
  rw [RamState.start, malloc, getFreeIdentity_lowUsed]
  rfl

theorem frames_exclusive_iff_lowUsed :
    Runs.Always (FramesExclusive (usedFrames lowUsed))
        (RamState.start lowUsed fun _ => 0) lowUsedRun ↔
      Runs.StepsMeet (RamSafe 64) (RamState.start lowUsed fun _ => 0) lowUsedRun :=
  frames_exclusive_iff run_lowUsedRun

end Examples

end Mem
end BestKernel
