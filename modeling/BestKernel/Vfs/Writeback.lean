import BestKernel.Library.Runs
import BestKernel.Mem.FrameRuns
import BestKernel.Vfs.FileMapping
import Mathlib.Algebra.GroupWithZero.Nat

/-!
# Writing cached pages back

`load_page` brings a page of a file into memory, and `writeback_cycle` is to write
the pages without a listener to the disk and free their frames.  `StepExact` says
this of one step and `FreedOnce` of the frames over a whole run.

The cycle never looks at whether a page is resident and never marks it as gone,
what it frees is computed from the page whose number is that of the file, and it
syncs a file when all pages have a listener.  So a run is good when no cycle meets
a page without a listener, nor a pending sync of a file with pages
(`writeback_exact_iff`).

Readings of the source.  The parentheses of `free(file->mem->pool[i])<<5>>18<<1,…)`
are closed behind the shifts, and `free` is `mfree`.  `pages_count` is the length
of the memory file, whose `ckarray` are the listeners.  `filemulti*h` is computed
in the 32 bits of a `ustd_t`.
-/

namespace BestKernel
namespace Vfs

open Machine Mem Runs

/-- A file with its pages in memory. -/
structure CachedFile where
  mem : MemFile
  diskpos : Word
  pending_sync : Half

/-- The calls made, to the disk and to `free`. -/
inductive CacheEvent where
  | read (file page : Nat) (address : Word)
  | write (file : Nat) (position address : Word) (bytes : Half)
  | free (address : Word) (pagetype : Nat)
  | sync (file : Nat)
deriving DecidableEq

def CacheEvent.isWrite : CacheEvent → Bool
  | .write .. => true
  | _ => false

def CacheEvent.isFree : CacheEvent → Bool
  | .free .. => true
  | _ => false

/-- The table of frames and `used_memory`.  The log is not part of the source. -/
structure FrameBooks where
  table : RamTable
  used_memory : Word
  log : List CacheEvent

/-- The file system as far as cached pages go. -/
structure CacheWorld where
  length : Half
  ckarray : Nat → Byte
  descriptions : Nat → CachedFile
  books : FrameBooks

section Cycle

variable (file : CachedFile) (i : Nat)

/-- One round of the loop over the pages, with `closedyet`. -/
def writebackPage (s : FrameBooks × Half) (h : Nat) : FrameBooks × Half :=
  let (books, closedyet) := s
  let pagetype := file.mem.mapped_pagetype
  let filemulti := multiplierOf pagetype
  if file.mem.listeners h = 0 then
    let position := file.diskpos + (filemulti * BitVec.ofNat 32 h).setWidth 64
    -- the page whose number is that of the file
    let freed := ((file.mem.pool i <<< 5) >>> 18) <<< 1
    ({ table := mfree books.table freed 1 pagetype
       used_memory := books.used_memory - (multiplierOf pagetype / 4096).setWidth 64
       log := books.log ++
         [.write i position (file.mem.pool h) filemulti, .free freed pagetype] },
      closedyet)
  else (books, closedyet + 1)

/-- The body of the loop over the files. -/
def writebackFile (books : FrameBooks) : FrameBooks :=
  let (books, closedyet) :=
    (List.range file.mem.length.toNat).foldl (writebackPage file i) (books, 0)
  if closedyet = file.mem.length ∧ file.pending_sync ≠ 0 then
    { books with log := books.log ++ [.sync i] }
  else books

end Cycle

def CacheWorld.writebackCycle (w : CacheWorld) : CacheWorld :=
  { w with
    books := (List.range w.length.toNat).foldl
      (fun books i =>
        if w.ckarray i ≠ 0 then writebackFile (w.descriptions i) i books else books)
      w.books }

/-- `load_page`, with the `malloc` of its frame and the read from the disk.  It is
`none` when the search for a frame does not come to an end. -/
def CacheWorld.loadPage (memlen : Half) (fuel : Nat) (w : CacheWorld) (i : Nat)
    (page : Half) : Option CacheWorld :=
  let file := w.descriptions i
  if page > file.mem.length ∨ file.mem.pool page.toNat ≠ 0 then some w
  else do
    let (fresh, table) ← malloc memlen fuel w.books.table 1 file.mem.mapped_pagetype
    let mem := (Vfs.loadPage file.mem page fresh).2
    let read := if fresh = 0 then [] else [.read i page.toNat fresh]
    return { w with
      descriptions := Function.update w.descriptions i { file with mem := mem }
      books := { w.books with table := table, log := w.books.log ++ read } }

/-- Add `value` to the listeners of a page. -/
def CacheWorld.addListener (w : CacheWorld) (i h : Nat) (value : Byte) : CacheWorld :=
  let file := w.descriptions i
  let listeners := Function.update file.mem.listeners h (file.mem.listeners h + value)
  let mem := { file.mem with listeners := listeners }
  { w with descriptions := Function.update w.descriptions i { file with mem := mem } }

inductive CacheOp where
  | loadPage (file : Nat) (page : Half)
  | listen (file page : Nat)
  | unlisten (file page : Nat)
  | writebackCycle

def CacheStep (memlen : Half) (fuel : Nat) (w : CacheWorld) (op : CacheOp)
    (w' : CacheWorld) : Prop :=
  match op with
  | .loadPage i page => w.loadPage memlen fuel i page = some w'
  | .listen i h => w' = w.addListener i h 1
  | .unlisten i h => w' = w.addListener i h (-1)
  | .writebackCycle => w' = w.writebackCycle

section Specification

variable (w w' : CacheWorld)

/-- The pages of the live files, by file and number. -/
def CacheWorld.livePages : List (Nat × Nat) :=
  ((List.range w.length.toNat).filter fun i => w.ckarray i ≠ 0).flatMap fun i =>
    (List.range (w.descriptions i).mem.length.toNat).map fun h => (i, h)

def CacheWorld.address (p : Nat × Nat) : Word := (w.descriptions p.1).mem.pool p.2

def CacheWorld.listeners (p : Nat × Nat) : Byte := (w.descriptions p.1).mem.listeners p.2

def CacheWorld.pagetype (p : Nat × Nat) : Nat := (w.descriptions p.1).mem.mapped_pagetype

/-- The pages that are resident and have no listener. -/
def CacheWorld.unusedPages : List (Nat × Nat) :=
  w.livePages.filter fun p => w.listeners p = 0 ∧ w.address p ≠ 0

/-- The write that a page is due. -/
def CacheWorld.pageWrite (p : Nat × Nat) : CacheEvent :=
  .write p.1
    ((w.descriptions p.1).diskpos +
      BitVec.ofNat 64 (p.2 * getMultiFromPagetype (w.pagetype p)))
    (w.address p) (multiplierOf (w.pagetype p))

def CacheWorld.pageFree (p : Nat × Nat) : CacheEvent :=
  .free (w.address p) (w.pagetype p)

/-- What has been logged since. -/
def CacheWorld.eventsSince : List CacheEvent :=
  w'.books.log.drop w.books.log.length

/-- A cycle writes and frees exactly the unused pages, and syncs the files that no
page of has a listener. -/
structure CycleExact : Prop where
  writes : ((w.eventsSince w').filter CacheEvent.isWrite).Perm
    (w.unusedPages.map w.pageWrite)
  frees : ((w.eventsSince w').filter CacheEvent.isFree).Perm
    (w.unusedPages.map w.pageFree)
  frames : usedFrames w'.books.table = usedFrames w.books.table \
    {n | ∃ p, p ∈ w.unusedPages ∧ n ∈ pageFrames (w.address p) 1 (w.pagetype p)}
  dropped : ∀ p, p ∈ w.livePages → w.listeners p = 0 → w'.address p = 0
  kept : ∀ p, p ∈ w.livePages → w.listeners p ≠ 0 → w'.address p = w.address p
  used_memory : w'.books.used_memory.toNat +
      (w.unusedPages.map fun p => getMultiFromPagetype (w.pagetype p) / 4096).sum =
    w.books.used_memory.toNat
  synced : ∀ i, i < w.length.toNat → w.ckarray i ≠ 0 →
    (w.descriptions i).pending_sync ≠ 0 →
    (.sync i ∈ w.eventsSince w' ↔
      ∀ h, h < (w.descriptions i).mem.length.toNat → w.listeners (i, h) = 0)

/-- Resident pages stay where they are. -/
def KeepsResident : Prop :=
  ∀ p, w.address p ≠ 0 → w'.address p = w.address p

/-- A frame that is freed twice has been filled again in between. -/
def FreedOnce : Prop :=
  ∀ address pagetype pagetype' before between after,
    w.books.log = before ++
      .free address pagetype :: (between ++ .free address pagetype' :: after) →
    ∃ file page, .read file page address ∈ between

/-- A cycle finds every page with a listener, and no sync pending where there are
pages. -/
def CycleSafe (op : CacheOp) : Prop :=
  op = .writebackCycle → ∀ i, i < w.length.toNat → w.ckarray i ≠ 0 →
    (∀ h, h < (w.descriptions i).mem.length.toNat → w.listeners (i, h) ≠ 0) ∧
      ((w.descriptions i).mem.length = 0 ∨ (w.descriptions i).pending_sync = 0)

end Specification

/-- What each step is to do.  A page that is not resident is read when it is
loaded. -/
def StepExact (w : CacheWorld) (op : CacheOp) (w' : CacheWorld) : Prop :=
  match op with
  | .loadPage i page => KeepsResident w w' ∧
      (w.address (i, page.toNat) = 0 → w'.address (i, page.toNat) ≠ 0 →
        .read i page.toNat (w'.address (i, page.toNat)) ∈ w.eventsSince w')
  | .listen _ _ => KeepsResident w w'
  | .unlisten _ _ => KeepsResident w w'
  | .writebackCycle => CycleExact w w'

section Pages

variable (file : CachedFile) (i : Nat)

/-- What a page without a listener logs. -/
def pageEvents (h : Nat) : List CacheEvent :=
  if file.mem.listeners h = 0 then
    [.write i
        (file.diskpos +
          (multiplierOf file.mem.mapped_pagetype * BitVec.ofNat 32 h).setWidth 64)
        (file.mem.pool h) (multiplierOf file.mem.mapped_pagetype),
      .free (((file.mem.pool i <<< 5) >>> 18) <<< 1) file.mem.mapped_pagetype]
  else []

theorem writebackPages_log
    (pages : List Nat) (books : FrameBooks) (closedyet : Half) :
    (pages.foldl (writebackPage file i) (books, closedyet)).1.log =
      books.log ++ pages.flatMap (pageEvents file i) := by
  induction pages generalizing books closedyet with
  | nil => simp
  | cons h pages ih =>
      rw [List.foldl_cons, List.flatMap_cons]
      by_cases hlistener : file.mem.listeners h = 0
      · rw [writebackPage, if_pos hlistener, ih, pageEvents, if_pos hlistener,
          List.append_assoc]
      · rw [writebackPage, if_neg hlistener, ih, pageEvents, if_neg hlistener,
          List.nil_append]

/-- Pages with listeners are only counted. -/
theorem writebackPages_listened
    {pages : List Nat}
    (hlistened : ∀ h, h ∈ pages → file.mem.listeners h ≠ 0)
    (books : FrameBooks) (closedyet : Half) :
    pages.foldl (writebackPage file i) (books, closedyet) =
      (books, closedyet + BitVec.ofNat 32 pages.length) := by
  induction pages generalizing closedyet with
  | nil => simp
  | cons h pages ih =>
      have hround : writebackPage file i (books, closedyet) h = (books, closedyet + 1#32) :=
        if_neg (hlistened h List.mem_cons_self)
      rw [List.foldl_cons, hround,
        ih fun h' hh' => hlistened h' (List.mem_cons_of_mem _ hh'), List.length_cons,
        BitVec.ofNat_add, BitVec.add_comm (BitVec.ofNat 32 pages.length),
        ← BitVec.add_assoc]

/-- What a file logs begins with what its pages do. -/
theorem writebackFile_log (books : FrameBooks) :
    ∃ synced, (writebackFile file i books).log =
      books.log ++
        ((List.range file.mem.length.toNat).flatMap (pageEvents file i) ++ synced) := by
  have hpages := writebackPages_log file i (List.range file.mem.length.toNat) books 0
  unfold writebackFile
  split
  rename_i books' closedyet hfold
  rw [hfold] at hpages
  dsimp only at hpages
  split_ifs
  · exact ⟨[.sync i], by simp [hpages]⟩
  · exact ⟨[], by simp [hpages]⟩

/-- A file whose pages all have listeners is synced when a sync is pending. -/
theorem writebackFile_listened
    (hlistened : ∀ h, h < file.mem.length.toNat → file.mem.listeners h ≠ 0)
    (books : FrameBooks) :
    writebackFile file i books =
      if file.pending_sync ≠ 0 then { books with log := books.log ++ [.sync i] }
      else books := by
  have hpages : (List.range file.mem.length.toNat).foldl (writebackPage file i) (books, 0) =
      (books, file.mem.length) := by
    simpa using writebackPages_listened file i
      (fun h hh => hlistened h (List.mem_range.mp hh)) books 0
  rw [writebackFile, hpages]
  simp

end Pages

section Steps

variable {memlen : Half} {fuel : Nat} {w w' : CacheWorld}

/-- What a cycle logs for file `i`, in whatever state of the books. -/
theorem foldl_writebackFile_log
    (w : CacheWorld) (files : List Nat) (books : FrameBooks) :
    ∃ logged, (files.foldl
        (fun books i =>
          if w.ckarray i ≠ 0 then writebackFile (w.descriptions i) i books else books)
        books).log = books.log ++ logged ∧
      ∀ i, i ∈ files → w.ckarray i ≠ 0 →
        ∀ h, h < (w.descriptions i).mem.length.toNat →
          pageEvents (w.descriptions i) i h ⊆ logged := by
  induction files generalizing books with
  | nil => exact ⟨[], by simp, by simp⟩
  | cons j files ih =>
      rw [List.foldl_cons]
      by_cases hlive : w.ckarray j ≠ 0
      · obtain ⟨synced, hfile⟩ := writebackFile_log (w.descriptions j) j books
        obtain ⟨logged, hlog, hpages⟩ := ih (writebackFile (w.descriptions j) j books)
        refine ⟨(List.range (w.descriptions j).mem.length.toNat).flatMap
          (pageEvents (w.descriptions j) j) ++ synced ++ logged, ?_, ?_⟩
        · rw [if_pos hlive, hlog, hfile, List.append_assoc]
        · intro i hi hlivei h hh
          rcases List.mem_cons.mp hi with rfl | hi
          · intro e he
            simp only [List.mem_append, List.mem_flatMap, List.mem_range]
            exact .inl (.inl ⟨h, hh, he⟩)
          · exact fun e he => List.mem_append_right _ (hpages i hi hlivei h hh he)
      · obtain ⟨logged, hlog, hpages⟩ := ih books
        refine ⟨logged, ?_, ?_⟩
        · rw [if_neg hlive, hlog]
        · intro i hi hlivei
          rcases List.mem_cons.mp hi with rfl | hi
          · exact absurd hlivei hlive
          · exact hpages i hi hlivei

/-- With a listener on every page a cycle does nothing but sync. -/
theorem foldl_writebackFile_listened
    (w : CacheWorld) (books : FrameBooks) {files : List Nat}
    (hlistened : ∀ i, i ∈ files → w.ckarray i ≠ 0 →
      ∀ h, h < (w.descriptions i).mem.length.toNat → w.listeners (i, h) ≠ 0) :
    files.foldl
        (fun books i =>
          if w.ckarray i ≠ 0 then writebackFile (w.descriptions i) i books else books)
        books =
      { books with
        log := books.log ++
          (files.filter fun i =>
            w.ckarray i ≠ 0 ∧ (w.descriptions i).pending_sync ≠ 0).map .sync } := by
  induction files generalizing books with
  | nil => simp
  | cons j files ih =>
      have hrest := fun books => ih books fun i hi => hlistened i (List.mem_cons_of_mem _ hi)
      rw [List.foldl_cons, hrest]
      by_cases hlive : w.ckarray j ≠ 0
      · rw [if_pos hlive,
          writebackFile_listened _ _ (hlistened j List.mem_cons_self hlive)]
        by_cases hpending : (w.descriptions j).pending_sync ≠ 0
        · rw [if_pos hpending, List.filter_cons_of_pos (by simpa using ⟨hlive, hpending⟩)]
          simp
        · rw [if_neg hpending, List.filter_cons_of_neg (by simp [not_not.mp hpending])]
      · rw [if_neg hlive, List.filter_cons_of_neg (by simp [not_not.mp hlive])]

theorem mem_livePages (w : CacheWorld) (p : Nat × Nat) :
    p ∈ w.livePages ↔
      (p.1 < w.length.toNat ∧ w.ckarray p.1 ≠ 0) ∧
        p.2 < (w.descriptions p.1).mem.length.toNat := by
  rcases p with ⟨i, h⟩
  simp [CacheWorld.livePages]

theorem eventsSince_of_append
    {logged : List CacheEvent}
    (hlog : w'.books.log = w.books.log ++ logged) :
    w.eventsSince w' = logged := by
  rw [CacheWorld.eventsSince, hlog, List.drop_left]

/-- The log of a cycle that finds every page with a listener. -/
theorem eventsSince_listened
    (hlistened : ∀ i, i < w.length.toNat → w.ckarray i ≠ 0 →
      ∀ h, h < (w.descriptions i).mem.length.toNat → w.listeners (i, h) ≠ 0) :
    w.eventsSince w.writebackCycle =
      ((List.range w.length.toNat).filter fun i =>
        w.ckarray i ≠ 0 ∧ (w.descriptions i).pending_sync ≠ 0).map .sync := by
  refine eventsSince_of_append ?_
  rw [CacheWorld.writebackCycle, foldl_writebackFile_listened w w.books
    fun i hi => hlistened i (List.mem_range.mp hi)]

theorem sync_mem_listened
    (hlistened : ∀ i, i < w.length.toNat → w.ckarray i ≠ 0 →
      ∀ h, h < (w.descriptions i).mem.length.toNat → w.listeners (i, h) ≠ 0)
    {i : Nat}
    (hi : i < w.length.toNat)
    (hlive : w.ckarray i ≠ 0)
    (hpending : (w.descriptions i).pending_sync ≠ 0) :
    .sync i ∈ w.eventsSince w.writebackCycle := by
  rw [eventsSince_listened hlistened]
  exact List.mem_map_of_mem
    (List.mem_filter.mpr ⟨List.mem_range.mpr hi, decide_eq_true ⟨hlive, hpending⟩⟩)

/-- A page without a listener is written though it is not resident, or else it
stays. -/
theorem CycleExact.listened
    (hexact : CycleExact w w.writebackCycle)
    {i h : Nat}
    (hpage : (i, h) ∈ w.livePages) :
    w.listeners (i, h) ≠ 0 := by
  intro hlistener
  obtain ⟨⟨hi, hlive⟩, hh⟩ := (mem_livePages w (i, h)).mp hpage
  have hstays : w.address (i, h) = 0 := hexact.dropped (i, h) hpage hlistener
  obtain ⟨logged, hlog, hpages⟩ :=
    foldl_writebackFile_log w (List.range w.length.toNat) w.books
  have hevents : w.eventsSince w.writebackCycle = logged := eventsSince_of_append hlog
  have hlogged := hpages i (List.mem_range.mpr hi) hlive h hh
  rw [pageEvents, if_pos (show (w.descriptions i).mem.listeners h = 0 from hlistener)]
    at hlogged
  have hwrite := List.mem_filter (p := CacheEvent.isWrite) |>.mpr
    ⟨hlogged List.mem_cons_self, rfl⟩
  rw [← hevents] at hwrite
  obtain ⟨p, hp, heq⟩ := List.mem_map.mp (hexact.writes.mem_iff.mp hwrite)
  have hresident := of_decide_eq_true (List.mem_filter.mp hp).2
  simp only [CacheWorld.pageWrite, CacheEvent.write.injEq] at heq
  exact hresident.2 (heq.2.2.1.trans hstays)

/-- **A cycle is exact when it finds every page with a listener and nothing to
sync, and only then.** -/
theorem cycleExact_iff :
    CycleExact w w.writebackCycle ↔ CycleSafe w .writebackCycle := by
  constructor
  · intro hexact _ i hi hlive
    have hlistened : ∀ i, i < w.length.toNat → w.ckarray i ≠ 0 →
        ∀ h, h < (w.descriptions i).mem.length.toNat → w.listeners (i, h) ≠ 0 :=
      fun i hi hlive h hh => hexact.listened ((mem_livePages w (i, h)).mpr ⟨⟨hi, hlive⟩, hh⟩)
    refine ⟨hlistened i hi hlive, or_iff_not_imp_right.mpr fun hpending => ?_⟩
    have hnone := (hexact.synced i hi hlive hpending).mp
      (sync_mem_listened hlistened hi hlive hpending)
    by_contra hlength
    have hpos : 0 < (w.descriptions i).mem.length.toNat := BitVec.toNat_pos_of_ne_zero hlength
    exact hlistened i hi hlive 0 hpos (hnone 0 hpos)
  · intro hsafe
    have hlistened := fun i hi hlive => (hsafe rfl i hi hlive).1
    have hevents := eventsSince_listened hlistened
    have hbooks := foldl_writebackFile_listened w w.books
      fun i hi => hlistened i (List.mem_range.mp hi)
    have hunused : w.unusedPages = [] := by
      refine List.filter_eq_nil_iff.mpr fun p hp hunused => ?_
      obtain ⟨⟨hi, hlive⟩, hh⟩ := (mem_livePages w p).mp hp
      exact hlistened p.1 hi hlive p.2 hh (of_decide_eq_true hunused).1
    refine
      { writes := ?_, frees := ?_, frames := ?_, dropped := ?_, kept := fun _ _ _ => rfl
        used_memory := ?_, synced := ?_ }
    · rw [hunused, hevents, List.filter_map]
      simp [Function.comp_def, CacheEvent.isWrite]
    · rw [hunused, hevents, List.filter_map]
      simp [Function.comp_def, CacheEvent.isFree]
    · rw [hunused, CacheWorld.writebackCycle, hbooks]
      simp
    · intro p hp hlistener
      obtain ⟨⟨hi, hlive⟩, hh⟩ := (mem_livePages w p).mp hp
      exact absurd hlistener (hlistened p.1 hi hlive p.2 hh)
    · rw [hunused, CacheWorld.writebackCycle, hbooks]
      simp
    · intro i hi hlive hpending
      have hempty : (w.descriptions i).mem.length = 0 :=
        (hsafe rfl i hi hlive).2.resolve_right hpending
      refine iff_of_true (sync_mem_listened hlistened hi hlive hpending) fun h hh => ?_
      rw [hempty] at hh
      exact absurd hh (Nat.not_lt_zero h)

theorem keepsResident_update
    {w : CacheWorld} {i : Nat} {file : CachedFile} {books : FrameBooks}
    (hpool : ∀ h, w.address (i, h) ≠ 0 → file.mem.pool h = w.address (i, h)) :
    KeepsResident w
      { w with descriptions := Function.update w.descriptions i file, books := books } := by
  rintro ⟨j, h⟩ hresident
  rcases eq_or_ne j i with rfl | hne
  · simpa [CacheWorld.address] using hpool h hresident
  · simp [CacheWorld.address, Function.update_of_ne hne]

theorem keepsResident_addListener (w : CacheWorld) (i h : Nat) (value : Byte) :
    KeepsResident w (w.addListener i h value) :=
  keepsResident_update fun _ _ => rfl

/-- `load_page` does what it is to do. -/
theorem loadPage_exact
    {i : Nat} {page : Half}
    (hload : w.loadPage memlen fuel i page = some w') :
    StepExact w (.loadPage i page) w' := by
  unfold CacheWorld.loadPage at hload
  dsimp only at hload
  split_ifs at hload with hstays
  · obtain rfl := Option.some.inj hload
    exact ⟨fun _ _ => rfl, fun habsent hpresent => absurd habsent hpresent⟩
  · obtain ⟨⟨fresh, table⟩, -, hdone⟩ := Option.bind_eq_some_iff.mp hload
    obtain ⟨hpage, habsent⟩ := not_or.mp hstays
    have habsent := not_not.mp habsent
    have hpool : (Vfs.loadPage (w.descriptions i).mem page fresh).2.pool =
        Function.update (w.descriptions i).mem.pool page.toNat fresh := by
      rw [Vfs.loadPage, if_neg hpage, if_pos habsent]
    obtain rfl := Option.some.inj hdone
    refine ⟨keepsResident_update fun h hresident => ?_, fun _ hpresent => ?_⟩
    · have hne : h ≠ page.toNat := fun heq => hresident (heq ▸ habsent)
      rw [hpool, Function.update_of_ne hne]
      rfl
    · have haddress : Function.update (w.descriptions i).mem.pool page.toNat fresh page.toNat =
          fresh := Function.update_self _ _ _
      simp only [CacheWorld.address, Function.update_self, hpool] at hpresent ⊢
      rw [eventsSince_of_append rfl, if_neg hpresent]
      exact List.mem_singleton_self _

/-- The step lemma. -/
theorem cacheStep_exact_iff
    {op : CacheOp}
    (hstep : CacheStep memlen fuel w op w') :
    StepExact w op w' ↔ CycleSafe w op := by
  cases op with
  | loadPage i page =>
      exact iff_of_true (loadPage_exact hstep) fun h => CacheOp.noConfusion h
  | listen i h =>
      obtain rfl := hstep
      exact iff_of_true (keepsResident_addListener w i h 1) fun h => CacheOp.noConfusion h
  | unlisten i h =>
      obtain rfl := hstep
      exact iff_of_true (keepsResident_addListener w i h (-1)) fun h => CacheOp.noConfusion h
  | writebackCycle =>
      obtain rfl := hstep
      exact cycleExact_iff

/-- A step that meets the condition frees nothing. -/
theorem cacheStep_nothingFreed
    {op : CacheOp}
    (hstep : CacheStep memlen fuel w op w')
    (hsafe : CycleSafe w op)
    (hnone : ∀ address pagetype, .free address pagetype ∉ w.books.log) :
    ∀ address pagetype, .free address pagetype ∉ w'.books.log := by
  cases op with
  | loadPage i page =>
      change CacheWorld.loadPage memlen fuel w i page = some w' at hstep
      unfold CacheWorld.loadPage at hstep
      dsimp only at hstep
      split_ifs at hstep with hstays
      · obtain rfl := Option.some.inj hstep
        exact hnone
      · obtain ⟨⟨fresh, table⟩, -, hdone⟩ := Option.bind_eq_some_iff.mp hstep
        obtain rfl := Option.some.inj hdone
        intro address pagetype
        have hread : .free address pagetype ∉
            if fresh = 0 then [] else [CacheEvent.read i page.toNat fresh] := by
          split_ifs <;> simp
        exact fun hmem => (List.mem_append.mp hmem).elim (hnone address pagetype) hread
  | listen i h =>
      obtain rfl := hstep
      exact hnone
  | unlisten i h =>
      obtain rfl := hstep
      exact hnone
  | writebackCycle =>
      obtain rfl := hstep
      intro address pagetype
      rw [CacheWorld.writebackCycle, foldl_writebackFile_listened w w.books
        fun i hi hlive => (hsafe rfl i (List.mem_range.mp hi) hlive).1]
      simp [hnone]

end Steps

/-- **Write-back is exact along a run exactly when every cycle finds a listener on
every page and no sync pending.** -/
theorem writeback_exact_iff
    (memlen : Half) (fuel : Nat)
    {w : CacheWorld} {run : List (CacheOp × CacheWorld)}
    (hstart : w.books.log = [])
    (hrun : Run (CacheStep memlen fuel) w run) :
    EveryStep StepExact w run ∧ Always FreedOnce w run ↔
      StepsMeet CycleSafe w run := by
  have hsteps : EveryStep StepExact w run ↔ StepsMeet CycleSafe w run := by
    refine everyStep_iff_stepsMeet (I := fun _ => True) ?_ ?_ hrun trivial
    · exact fun _ _ _ _ _ => trivial
    · exact fun _ _ _ _ hstep => cacheStep_exact_iff hstep
  refine ⟨fun h => hsteps.mp h.1, fun hmeet => ⟨hsteps.mpr hmeet, ?_⟩⟩
  have hnone : Always
      (fun w : CacheWorld => ∀ address pagetype, .free address pagetype ∉ w.books.log)
      w run := by
    refine always_of_stepsMeet ?_ hrun ?_ hmeet
    · exact fun _ _ _ hnone hsafe hstep => cacheStep_nothingFreed hstep hsafe hnone
    · intro address pagetype
      rw [hstart]
      exact List.not_mem_nil
  refine hnone.mono fun w hnone address pagetype pagetype' before between after hlog => ?_
  exact absurd (by simp [hlog]) (hnone address pagetype)

/-- A file with one page in memory and `listeners` on it. -/
def onePage (listeners : Byte) : CacheWorld where
  length := 1
  ckarray := fun _ => 1
  descriptions := fun _ =>
    { mem :=
        { pool := fun _ => 0x8000, length := 1, listeners := fun _ => listeners
          mapped_pagetype := Pag.SMALLPAGE, cache := 0, executable := 0, mode := 0 }
      diskpos := 0
      pending_sync := 0 }
  books := { table := fun _ => 0xFF, used_memory := 1, log := [] }

/-- Two cycles in a row. -/
def twoCycles (w : CacheWorld) : List (CacheOp × CacheWorld) :=
  [(.writebackCycle, w.writebackCycle), (.writebackCycle, w.writebackCycle.writebackCycle)]

theorem run_twoCycles (memlen : Half) (fuel : Nat) (w : CacheWorld) :
    Run (CacheStep memlen fuel) w (twoCycles w) :=
  .cons (show CacheStep memlen fuel w .writebackCycle w.writebackCycle from rfl)
    (.cons (show CacheStep memlen fuel w.writebackCycle .writebackCycle
      w.writebackCycle.writebackCycle from rfl) (.nil _))

theorem writeback_exact_iff_onePage :
    EveryStep StepExact (onePage 1) (twoCycles (onePage 1)) ∧
        Always FreedOnce (onePage 1) (twoCycles (onePage 1)) ↔
      StepsMeet CycleSafe (onePage 1) (twoCycles (onePage 1)) :=
  writeback_exact_iff 0 0 rfl (run_twoCycles 0 0 (onePage 1))

/-- The only page of the file is freed twice. -/
theorem twoCycles_not_exact :
    ¬ ∀ (memlen : Half) (fuel : Nat) (w : CacheWorld) (run : List (CacheOp × CacheWorld)),
      w.books.log = [] → Run (CacheStep memlen fuel) w run →
        EveryStep StepExact w run ∧ Always FreedOnce w run := by
  intro hexact
  have honce := (hexact 0 0 (onePage 0) _ rfl (run_twoCycles 0 0 (onePage 0))).2.2
    (.writebackCycle, (onePage 0).writebackCycle.writebackCycle) (by simp [twoCycles])
  -- the shifts make 8 of the address 0x8000
  obtain ⟨file, page, hread⟩ := honce 8 Pag.SMALLPAGE Pag.SMALLPAGE
    [.write 0 0 0x8000 4096] [.write 0 0 0x8000 4096] [] rfl
  simp at hread

end Vfs
end BestKernel
