import BestKernel.Processes.Teardown
import BestKernel.Processes.Exhaustion

/-!
# The pages of a program

`exec` loads an executable and maps its pages into the tree of the new process.  Both
loops count pages up to the length of the file, which is in bytes, and the address of a
page is put one bit lower into its entry than it is read from there.

The steps of a launch behind the pools are followed one by one: what they write, and that
the entry of the first page survives (`launch_program`).  Its frame has an even address and
the translation an odd one (`decodeEntry_program_ne`), so `program_mapped_iff` is left with
the empty file.

Readings of the source.  An entry leads where `vmto_phys` finds its frame, and is
executable by bit 63.  The size of a page is that of the page type of the file.
-/

namespace BestKernel
namespace Processes

open Machine
open Kontrol
open Mem

section Specification

/-- The size of the pages of a file. -/
def File.pageSize (file : File) : Nat := getMultiFromPagetype file.mem.mapped_pagetype

/-- The number of pages that the bytes of a file take. -/
def File.pages (file : File) : Nat := (file.length.toNat + (file.pageSize - 1)) / file.pageSize

/-- The entry that the loop of `exec` writes for a page. -/
def programEntry (file : File) (g : Nat) : Word :=
  setBit (memreqTemplate walkedPagetype .MAP Cache.WRITEBACK.code 1 ||| (file.mem.pool g <<< 12)) 63

/-- The loop of `exec` that maps the pages of a file. -/
def mapPages (file : File) (words : WordMemory) (entry : Word) : WordMemory :=
  storeWords words entry (programEntry file) file.length.toNat

variable (k : Config) (source main_thread process : Nat) (s s' : Kernel)

/-- The address of a page of the program. -/
def programAddress (i : Nat) : Word :=
  (s'.processes process).userspace_code + BitVec.ofNat 64 (i * (s.files source).pageSize)

/-- What `exec` should leave of the file: frames for its pages and no others, a tree that
leads there, and a thread that starts in the program. -/
structure ProgramMapped : Prop where
  loaded : ∀ i, i < (s.files source).pages →
    (s'.files source).mem.pool i ≠ 0 ∧ 4096 ∣ ((s'.files source).mem.pool i).toNat
  rest : ∀ i, (s.files source).pages ≤ i →
    (s'.files source).mem.pool i = (s.files source).mem.pool i
  translated : ∀ i, i < (s.files source).pages →
    physOf s'.words (s'.processes process).pagetree (programAddress source process s s' i) =
      (s'.files source).mem.pool i
  executable : ∀ i, i < (s.files source).pages →
    bitSet (s'.words (entryOf (programAddress source process s s' i) s'.words
      (s'.processes process).pagetree)) 63 = true
  start : ∀ code s₁, s.loadPage k source 0 = some (code, s₁) →
    (s'.threads main_thread).instruction_pointer =
      (s'.processes process).userspace_code + (k.headerAt code).start.setWidth 64
  kept : ∀ words entry a, (∀ i, i < (s.files source).pages → a ≠ wordAt entry i) →
    mapPages (s'.files source) words entry a = words a

/-- The condition: the file is empty, and its first page is loaded already or gets no
frame. -/
def ProgramSafe : Prop :=
  (s.files source).length = 0 ∧
    ((s.files source).mem.pool 0 ≠ 0 ∨ ∃ table,
      Mem.malloc k.memlen k.fuel s.table 1 (s.files source).mem.mapped_pagetype = some (0, table))

end Specification

section Frames

/-- What the search returns is the address of a page. -/
theorem getFreeIdentity_aligned
    {memlen : Half} {table : RamTable} {pages_number : Half} {fuel : Nat} {ret : Word}
    (h : getFreeIdentity memlen table pages_number Pag.SMALLPAGE fuel = some ret) :
    4096 ∣ ret.toNat := by
  refine Loops.run_invariant (I := fun _ => True) (Q := fun r : Word => 4096 ∣ r.toNat)
    (fun _ _ _ _ => trivial) ?_ trivial h
  intro c r _ hround
  unfold identityRound at hround
  dsimp only at hround
  split_ifs at hround
  · cases hround
    have hmultiplier : (multiplierOf Pag.SMALLPAGE).toNat = 4096 := by decide
    rw [Cursor.address, BitVec.toNat_setWidth, BitVec.toNat_mul, hmultiplier]
    omega
  · cases hround
    exact Nat.dvd_zero 4096

variable {k : Config} {s s' : Kernel}

/-- An allocation changes the table. -/
theorem malloc_table
    {n : Half} {ret : Word}
    (h : s.malloc k n = some (ret, s')) :
    4096 ∣ ret.toNat ∧ ∃ table, s' = { s with table := table } := by
  obtain ⟨table, hmalloc, rfl⟩ := malloc_frame h
  exact ⟨getFreeIdentity_aligned (malloc_eq_some hmalloc).1, table, rfl⟩

/-- The tree of a process is laid on a page. -/
theorem layTree_aligned
    {p : Nat}
    (h : s.layTree k p = some s') :
    s'.files = s.files ∧ 4096 ∣ (s'.processes p).pagetree.toNat := by
  obtain ⟨pagetree, s₁, words, hmalloc, rfl⟩ := layTree_frame h
  obtain ⟨haligned, table, rfl⟩ := malloc_table hmalloc
  refine ⟨rfl, ?_⟩
  dsimp only [Kernel.conditionalBloodLibel, Kernel.modifyProcess]
  rw [Function.update_self]
  exact haligned

/-- And so is its local descriptor table. -/
theorem takeLdt_frame
    {p : Nat} {actual_ldt : Word} {ldtlen selector : Half}
    (h : s.takeLdt k p = some (actual_ldt, ldtlen, selector, s')) :
    s'.files = s.files ∧ (s'.processes p).pagetree = (s.processes p).pagetree ∧
      4096 ∣ actual_ldt.toNat := by
  unfold Kernel.takeLdt at h
  obtain ⟨⟨found, s₁⟩, hmalloc, h⟩ := Option.bind_eq_some_iff.mp h
  cases h
  obtain ⟨haligned, table, rfl⟩ := malloc_table hmalloc
  dsimp only [Kernel.mapLdt, Kernel.conditionalBloodLibel, Kernel.takeEntry, Kernel.modifyProcess]
  refine ⟨rfl, ?_, haligned⟩
  rw [Function.update_self]

theorem setLdt_frame
    {p : Nat} {actual_ldt : Word} {ldtlen selector : Half}
    (h : s.setLdt k p actual_ldt ldtlen selector = some s') :
    s'.files = s.files ∧ s'.words = s.words ∧ s'.threads = s.threads ∧
      (s'.processes p).pagetree = (s.processes p).pagetree ∧
      (s'.processes p).userspace_code = (s.processes p).userspace_code ∧
      (s'.processes p).ldt.hash.pool = actual_ldt := by
  unfold Kernel.setLdt at h
  obtain ⟨⟨ckarray, s₁⟩, hmalloc, h⟩ := Option.bind_eq_some_iff.mp h
  cases h
  obtain ⟨-, table, rfl⟩ := malloc_table hmalloc
  refine ⟨rfl, rfl, rfl, ?_⟩
  dsimp only [Kernel.modifyProcess]
  rw [Function.update_self]
  exact ⟨rfl, rfl, rfl⟩

/-- The loop of `make_stack` stays above the first entry of the tree. -/
theorem stackLoop_frame
    {pagetree : Word} {left : Nat} {entry' : Word}
    (hleft : left < 2 ^ 32)
    (h : Kernel.stackLoop k left s (stackEntry pagetree left) = some (s', entry')) :
    s'.files = s.files ∧ s'.words pagetree = s.words pagetree ∧
      entry' = stackEntry pagetree 0 := by
  induction left generalizing s with
  | zero =>
      cases h
      exact ⟨rfl, rfl, rfl⟩
  | succ left ih =>
      rw [Kernel.stackLoop] at h
      obtain ⟨⟨pipe, s₁⟩, hmalloc, hrest⟩ := Option.bind_eq_some_iff.mp h
      obtain ⟨-, table, rfl⟩ := malloc_table hmalloc
      have hne : pagetree ≠ stackEntry pagetree (left + 1) := by
        intro heq
        have hzero : wordAt pagetree 0 = wordAt pagetree (8 * (left + 1 + 1)) := by
          rw [wordAt_zero]
          exact heq
        have hindex := (wordAt_inj (by omega) (by omega)).mp hzero
        omega
      dsimp only at hrest
      rw [stackEntry_succ] at hrest
      obtain ⟨hfiles, hwords, hentry⟩ := ih (by omega) hrest
      refine ⟨hfiles, hwords.trans ?_, hentry⟩
      exact Function.update_of_ne hne _ _

/-- `make_stack` signs the root at most, and leaves the rest of the program alone. -/
theorem makeStack_frame
    {p t : Nat} {ret : Word}
    (h : s.makeStack k p t = some (ret, s')) :
    s'.files = s.files ∧ s'.processes = s.processes ∧
      (s'.threads t).instruction_pointer = (s.threads t).instruction_pointer ∧
      setBit (s'.words (s.processes p).pagetree) 56 =
        setBit (s.words (s.processes p).pagetree) 56 := by
  have hmade := makeStack_eq (k := k) (s := s) k.fuel p t
  rw [h] at hmade
  obtain ⟨⟨s₁, entry⟩, hloop, hreturned⟩ := Option.map_eq_some_iff.mp hmade.symm
  obtain ⟨rfl, rfl⟩ := Prod.mk.inj hreturned
  have hpages : stackPages k s t < 2 ^ 32 := Nat.lt_trans (BitVec.isLt _) (by decide)
  obtain ⟨hprocesses, hthreads⟩ := stackLoop_kept hloop
  obtain ⟨hfiles, hwords, rfl⟩ := stackLoop_frame hpages hloop
  refine ⟨hfiles, hprocesses, ?_, ?_⟩
  · dsimp only
    rw [hthreads, stackBase, Kernel.modifyThread]
    dsimp only
    rw [Function.update_self]
  · have hroot : (s.processes p).pagetree ≠ stackEntry (s.processes p).pagetree 0 := by
      intro heq
      have hzero : wordAt (s.processes p).pagetree 0 = wordAt (s.processes p).pagetree 8 := by
        rw [wordAt_zero]
        exact heq
      have hindex := (wordAt_inj (by omega) (by omega)).mp hzero
      omega
    dsimp only
    rw [Function.update_of_ne hroot, hwords]
    dsimp only [stackBase, Kernel.modifyThread]
    rw [← sign_vmtreeFetch]
    exact (vmtreeFetch_same _ _ _).trans (sameButOccupied_sign _ _) _

/-- A page is not a word of another page but its first. -/
theorem ne_wordAt_of_aligned
    {a pool : Word} {i : Nat}
    (ha : 4096 ∣ a.toNat)
    (hpool : 4096 ∣ pool.toNat)
    (hi : 0 < i)
    (hin : i < 512) :
    a ≠ wordAt pool i := by
  intro h
  have hnat := congrArg BitVec.toNat h
  rw [wordAt, BitVec.toNat_add, BitVec.toNat_ofNat] at hnat
  omega

/-- The segments of the program are put behind the first four of the table. -/
theorem startThread_frame
    {p t : Nat} {a : Word} (header : Header)
    (ha : 4096 ∣ a.toNat)
    (hpool : 4096 ∣ (s.processes p).ldt.hash.pool.toNat) :
    (s.startThread k p t header).files = s.files ∧
      (s.startThread k p t header).processes = s.processes ∧
      ((s.startThread k p t header).threads t).instruction_pointer =
        (s.threads t).instruction_pointer ∧
      (s.startThread k p t header).words a = s.words a := by
  unfold Kernel.startThread Kernel.modifyThread
  dsimp only
  refine ⟨rfl, rfl, ?_, ?_⟩
  · rw [Function.update_self]
  · rw [Function.update_of_ne (ne_wordAt_of_aligned ha hpool (by decide) (by decide)),
      Function.update_of_ne (ne_wordAt_of_aligned ha hpool (by decide) (by decide))]

/-- Slots are not taken from the files. -/
theorem takeSlots_files
    (s : Kernel) (caller : Nat) (header : Header) (code : Word) :
    (s.takeSlots k caller header code).2.2.files = s.files := by
  have hdescriptors : ∀ (s : Kernel) p, (s.takeDescriptors k caller p).files = s.files :=
    fun _ _ => rfl
  rw [takeSlots_eq]
  exact hdescriptors _ _

/-- What the mapping of the program leaves.  The region starts at 0, and the loop writes
from the root on. -/
theorem mapProgram_frame (k : Config) (s : Kernel) (p t source : Nat) (header : Header) :
    let s' := s.mapProgram k p t source header
    s'.files = s.files ∧ (s'.processes p).pagetree = (s.processes p).pagetree ∧
      (s'.processes p).userspace_code = 0 ∧
      (s'.threads t).instruction_pointer = header.start.setWidth 64 ∧
      ∃ words, s'.words = mapPages (s.files source) words (s.processes p).pagetree := by
  unfold Kernel.mapProgram Kernel.modifyProcess Kernel.modifyThread
  dsimp only
  rw [memMap_eq]
  dsimp only
  rw [fetchedPointer_vmtreeFetch, vmtoEntry_zero, Function.update_self, Function.update_self]
  refine ⟨rfl, rfl, rfl, ?_, _, rfl⟩
  exact BitVec.add_zero _

end Frames

section Launch

variable {k : Config} {s s' : Kernel}

/-- The entry of the first page, in a table whose loop has run. -/
theorem mapPages_root
    {file : File} {words : WordMemory} {entry : Word}
    (hlength : 0 < file.length.toNat)
    (hsmall : file.length.toNat < 2 ^ 32) :
    mapPages file words entry entry = programEntry file 0 :=
  storeWords_base (by omega) hlength

/-- **What `exec` has made of the file when the main thread can run.** -/
theorem launch_program
    {caller source p t : Nat} {header : Header} {code : Word}
    (h : s.launch k caller source header code = some (p, t, s')) :
    s'.files = s.files ∧ (s'.processes p).userspace_code = 0 ∧
      (s'.threads t).instruction_pointer = header.start.setWidth 64 ∧
      ∃ words, setBit (s'.words (s'.processes p).pagetree) 56 =
        setBit (mapPages (s.files source) words (s'.processes p).pagetree
          (s'.processes p).pagetree) 56 := by
  obtain ⟨s₁, s₂, s₃, s₄, s₅, actual_ldt, ldtlen, selector, ret, htaken, htree, hldt, hset, hstack,
    rfl⟩ := launch_stages h
  have hfiles₁ : s₁.files = s.files := by
    rw [← takeSlots_files (k := k) s caller header code, htaken]
  obtain ⟨hfiles₂, haligned⟩ := layTree_aligned htree
  obtain ⟨hfiles₃, htree₃, hpool⟩ := takeLdt_frame hldt
  obtain ⟨hfiles, hroot, huserspace, hstart, words, hwords⟩ :=
    mapProgram_frame k s₃ p t source header
  obtain ⟨hfiles₄, hwords₄, hthreads₄, hroot₄, huserspace₄, hpool₄⟩ := setLdt_frame hset
  obtain ⟨hfiles₅, hprocesses₅, hstart₅, hwords₅⟩ := makeStack_frame hstack
  have htree₅ : (s₅.processes p).pagetree = (s₃.processes p).pagetree := by
    rw [hprocesses₅, hroot₄, hroot]
  have haligned₅ : 4096 ∣ (s₅.processes p).pagetree.toNat := by
    rw [htree₅, htree₃]
    exact haligned
  have hpool₅ : 4096 ∣ (s₅.processes p).ldt.hash.pool.toNat := by
    rw [hprocesses₅, hpool₄]
    exact hpool
  obtain ⟨hfiles₆, hprocesses₆, hstart₆, hwords₆⟩ :=
    startThread_frame (k := k) (t := t) header haligned₅ hpool₅
  refine ⟨?_, ?_, ?_, words, ?_⟩
  · rw [hfiles₆, hfiles₅, hfiles₄, hfiles, hfiles₃, hfiles₂, hfiles₁]
  · rw [hprocesses₆, hprocesses₅, huserspace₄, huserspace]
  · rw [hstart₆, hstart₅, hthreads₄, hstart]
  · rw [hprocesses₆, hwords₆, hprocesses₅, hwords₅, hwords₄, hwords, hroot₄, hroot, hfiles₃,
      hfiles₂, hfiles₁]

/-- A bit of what an entry is decoded to for an address at the start of a page. -/
theorem decodeEntry_getLsbD
    (entry : Word) {j : Nat}
    (hj : j < 46) :
    (decodeEntry entry 0).getLsbD j = (setBit entry 56).getLsbD (j + 13) := by
  have hcount : decodeEntry entry 0 = (setBit entry 56 <<< 5) >>> 18 := rfl
  have hin : 18 + j < 64 := by omega
  have hlow : ¬ 18 + j < 5 := by omega
  rw [hcount, BitVec.getLsbD_ushiftRight, BitVec.getLsbD_shiftLeft,
    show 18 + j - 5 = j + 13 by omega]
  simp [hin, hlow]

/-- An entry has the bits of the frame from bit 12 on. -/
theorem programEntry_getLsbD
    {file : File} {j : Nat}
    (hj : j < 52)
    (h : (file.mem.pool 0).getLsbD j = true) :
    (programEntry file 0).getLsbD (j + 12) = true := by
  have hlow : ¬ j + 12 < 12 := by omega
  have hin : j + 12 < 64 := by omega
  rw [programEntry, getLsbD_setBit _ (by decide), BitVec.getLsbD_or, BitVec.getLsbD_shiftLeft,
    Nat.add_sub_cancel, h]
  simp [hlow, hin]

/-- **The entry of the first page does not lead to its frame**: the bits of the frame are
read one lower than they were put, and from the occupancy bit down to bit 0 each would
have to be set with the one above it. -/
theorem decodeEntry_program_ne
    {file : File}
    (haligned : 4096 ∣ (file.mem.pool 0).toNat) :
    decodeEntry (programEntry file 0) 0 ≠ file.mem.pool 0 := by
  intro h
  have hbits : ∀ i, i ≤ 43 → (file.mem.pool 0).getLsbD (43 - i) = true := by
    intro i hi
    rw [← h, decodeEntry_getLsbD _ (by omega), getLsbD_setBit _ (by decide)]
    induction i with
    | zero => simp
    | succ i ih =>
        have habove : (file.mem.pool 0).getLsbD (43 - i) = true := by
          rw [← h, decodeEntry_getLsbD _ (by omega), getLsbD_setBit _ (by decide)]
          exact ih (by omega)
        have hentry := programEntry_getLsbD (by omega) habove
        rw [show 43 - (i + 1) + 13 = 43 - i + 12 by omega, hentry, Bool.true_or]
  have hodd := hbits 43 (Nat.le_refl _)
  rw [Nat.sub_self, ← BitVec.testBit_toNat, Nat.testBit_zero, decide_eq_true_eq] at hodd
  omega

/-- So a tree in which the root is that entry up to the occupancy bit does not lead there
from address 0. -/
theorem physOf_program_ne
    {m words : WordMemory} {pagetree : Word} {file : File}
    (hroot : setBit (m pagetree) 56 = setBit (mapPages file words pagetree pagetree) 56)
    (hlength : 0 < file.length.toNat)
    (hsmall : file.length.toNat < 2 ^ 32)
    (hloaded : file.mem.pool 0 ≠ 0)
    (haligned : 4096 ∣ (file.mem.pool 0).toNat) :
    physOf m pagetree 0 ≠ file.mem.pool 0 := by
  have hentry : entryOf 0 m pagetree = pagetree := by
    rw [entryOf, vmtoEntry_zero]
  rw [physOf_eq, hentry]
  split_ifs with hzero
  · exact hloaded.symm
  · rw [decodeEntry, hroot, mapPages_root hlength hsmall]
    exact decodeEntry_program_ne haligned

/-- Loading a page leaves the length of every file. -/
theorem loadPage_length
    {f : Nat} {page : Half} {address : Word}
    (h : s.loadPage k f page = some (address, s'))
    (g : Nat) :
    (s'.files g).length = (s.files g).length := by
  unfold Kernel.loadPage at h
  dsimp only at h
  split_ifs at h
  · cases h
    rfl
  · obtain ⟨⟨fresh, table⟩, -, h⟩ := Option.bind_eq_some_iff.mp h
    cases h
    dsimp only
    by_cases hg : g = f
    · rw [hg, Function.update_self]
    · rw [Function.update_of_ne hg]

theorem loadPages_length
    {f left : Nat} {i : Half}
    (h : Kernel.loadPages k f left i s = some s')
    (g : Nat) :
    (s'.files g).length = (s.files g).length := by
  induction left generalizing s i with
  | zero =>
      cases h
      rfl
  | succ left ih =>
      rw [Kernel.loadPages] at h
      obtain ⟨⟨address, s₁⟩, hload, hrest⟩ := Option.bind_eq_some_iff.mp h
      rw [ih hrest]
      exact loadPage_length hload g

/-- The pages that `exec` loads before it launches. -/
theorem exec_loaded
    {calling_thread source t : Nat} {ret : Int}
    (h : s.exec k calling_thread source = some (ret, some t, s')) :
    ∃ code s₁ s₂ caller p, s.loadPage k source 0 = some (code, s₁) ∧
      (s.files source).length.toNat < 2 ^ 32 ∧
      Kernel.loadPages k source ((s.files source).length.toNat - 1) 1 s₁ = some s₂ ∧
      s₂.launch k caller source (k.headerAt code) code = some (p, t, s') ∧ ret = p := by
  unfold Kernel.exec at h
  obtain ⟨⟨code, s₁⟩, hload, h⟩ := Option.bind_eq_some_iff.mp h
  dsimp only at h
  rw [loadPage_length hload] at h
  split_ifs at h with hsum hsystem hlength
  · cases h
  · cases h
  · obtain ⟨s₂, hpages, h⟩ := Option.bind_eq_some_iff.mp h
    obtain ⟨⟨p, main, s₃⟩, hlaunch, h⟩ := Option.bind_eq_some_iff.mp h
    cases h
    exact ⟨code, s₁, s₂, _, p, hload, Nat.lt_of_not_le hlength, hpages, hlaunch, rfl⟩

/-- The first page of a file stays as it is where it was there, or where there is no frame
for it. -/
theorem loadPage_first_iff
    {f : Nat} {code : Word}
    (h : s.loadPage k f 0 = some (code, s')) :
    (∀ i, (s'.files f).mem.pool i = (s.files f).mem.pool i) ↔
      (s.files f).mem.pool 0 ≠ 0 ∨ ∃ table,
        Mem.malloc k.memlen k.fuel s.table 1 (s.files f).mem.mapped_pagetype =
          some (0, table) := by
  have hinside : ¬ (0 : Half) > (s.files f).mem.length := by
    rw [gt_iff_lt, BitVec.lt_def]
    exact Nat.not_lt_zero _
  have hfirst : (0 : Half).toNat = 0 := rfl
  unfold Kernel.loadPage at h
  dsimp only at h
  rw [hfirst] at h
  by_cases hloaded : (s.files f).mem.pool 0 = 0
  · rw [if_neg (not_or_intro hinside (not_not_intro hloaded))] at h
    obtain ⟨⟨fresh, table⟩, hmalloc, h⟩ := Option.bind_eq_some_iff.mp h
    cases h
    rw [hmalloc]
    unfold Vfs.loadPage
    dsimp only
    rw [Function.update_self, hfirst, if_neg hinside, if_pos hloaded]
    constructor
    · intro hkept
      have hfresh := hkept 0
      dsimp only at hfresh
      rw [Function.update_self, hloaded] at hfresh
      exact Or.inr ⟨table, by rw [hfresh]⟩
    · rintro (hne | ⟨table', hnone⟩) i
      · exact absurd hloaded hne
      · obtain ⟨rfl, -⟩ := Prod.mk.inj (Option.some.inj hnone)
        dsimp only
        rw [← hloaded]
        exact congrFun (Function.update_eq_self _ _) i
  · rw [if_pos (Or.inr hloaded)] at h
    cases h
    exact ⟨fun _ => Or.inl hloaded, fun _ _ => rfl⟩

/-- A file of at least one byte has a first page. -/
theorem File.pages_eq_zero_iff (file : File) : file.pages = 0 ↔ file.length = 0 := by
  have hsize : 4096 ≤ file.pageSize := getMultiFromPagetype_ge _
  rw [File.pages, Nat.div_eq_zero_iff, ← BitVec.toNat_inj]
  have hzero : (0 : Word).toNat = 0 := rfl
  omega

/-- Of a file with a byte the first page is not mapped. -/
theorem not_mapped_of_length
    {calling_thread source process main_thread : Nat}
    (h : s.exec k calling_thread source = some ((process : Int), some main_thread, s'))
    (hlength : (s.files source).length ≠ 0) :
    ¬ ProgramMapped k source main_thread process s s' := by
  obtain ⟨code, s₁, s₂, caller, p, hload, hsmall, hpages, hlaunch, hp⟩ := exec_loaded h
  obtain rfl : process = p := Int.ofNat.inj hp
  obtain ⟨hfiles, huserspace, -, words, hroot⟩ := launch_program hlaunch
  have hlength₂ : (s₂.files source).length = (s.files source).length := by
    rw [loadPages_length hpages, loadPage_length hload]
  intro hmapped
  have hpos : 0 < (s.files source).pages :=
    Nat.pos_of_ne_zero fun hnone => hlength ((File.pages_eq_zero_iff _).mp hnone)
  obtain ⟨hloaded, haligned⟩ := hmapped.loaded 0 hpos
  have hleads := hmapped.translated 0 hpos
  rw [programAddress, huserspace, Nat.zero_mul, BitVec.add_zero] at hleads
  rw [hfiles] at hleads hloaded haligned
  refine physOf_program_ne hroot ?_ ?_ hloaded haligned hleads
  · rw [hlength₂]
    exact Nat.pos_of_ne_zero fun hzero => hlength (BitVec.eq_of_toNat_eq hzero)
  · rw [hlength₂]
    exact hsmall

/-- **When `exec` maps exactly the program.** -/
theorem program_mapped_iff
    {calling_thread source process main_thread : Nat}
    (h : s.exec k calling_thread source = some ((process : Int), some main_thread, s')) :
    ProgramMapped k source main_thread process s s' ↔ ProgramSafe k source s := by
  by_cases hlength : (s.files source).length = 0
  · obtain ⟨code, s₁, s₂, caller, p, hload, -, hpages, hlaunch, hp⟩ := exec_loaded h
    obtain rfl : process = p := Int.ofNat.inj hp
    obtain ⟨hfiles, huserspace, hstart, -⟩ := launch_program hlaunch
    have hnone : (s.files source).pages = 0 := (File.pages_eq_zero_iff _).mpr hlength
    rw [hlength] at hpages
    cases hpages
    rw [ProgramSafe, and_iff_right hlength, ← loadPage_first_iff hload]
    have hvacuous : ∀ {P : Nat → Prop} i, i < (s.files source).pages → P i := by
      intro P i hi
      rw [hnone] at hi
      exact absurd hi (Nat.not_lt_zero i)
    constructor
    · intro hmapped i
      rw [← hfiles]
      exact hmapped.rest i (by omega)
    · intro hkept
      refine ⟨hvacuous, ?_, hvacuous, hvacuous, ?_, ?_⟩
      · intro i _
        rw [hfiles, hkept]
      · intro code' s₁' hload'
        rw [hload] at hload'
        obtain ⟨rfl, -⟩ := Prod.mk.inj (Option.some.inj hload')
        rw [hstart, huserspace]
        exact (BitVec.zero_add _).symm
      · intro words entry a _
        rw [mapPages, hfiles, loadPage_length hload, hlength]
        rfl
  · refine iff_of_false (not_mapped_of_length h hlength) ?_
    exact fun hsafe => hlength hsafe.1

/-- The process that is made in slot 0. -/
theorem program_mapped_iff_idle :
    ∃ s', idleKernel.exec idleConfig 3 0 = some (0, some 0, s') ∧
      (ProgramMapped idleConfig 0 0 0 idleKernel s' ↔ ProgramSafe idleConfig 0 idleKernel) := by
  obtain ⟨s', h, -⟩ := exec_idle
  exact ⟨s', h, program_mapped_iff h⟩

/-- Its program of one byte is not where it should be. -/
theorem idle_not_mapped :
    ∃ s', idleKernel.exec idleConfig 3 0 = some (0, some 0, s') ∧
      (idleKernel.files 0).length = 1 ∧ (s'.files 0).mem.pool 0 = 0x6000 ∧
      ¬ ProgramMapped idleConfig 0 0 0 idleKernel s' := by
  obtain ⟨s', hlaunch, -⟩ := launch_idle
  have hload : idleKernel.loadPage idleConfig 0 0 = some (0x6000, idleKernel) := rfl
  have hexec : idleKernel.exec idleConfig 3 0 = some (0, some 0, s') :=
    exec_fed hload (by decide) (by decide) rfl hlaunch
  refine ⟨s', hexec, rfl, ?_, not_mapped_of_length hexec (by decide)⟩
  rw [(launch_program hlaunch).1]
  rfl

end Launch

end Processes
end BestKernel
