import BestKernel.Mem.FrameRuns
import BestKernel.Syscalls.UserBuffers
import BestKernel.Vfs.FileMapping

/-!
# The pages of a file in memory

`load_page` keeps the pages of a file in `mem->pool`: a page that is there is given back
as it is, another one gets memory from `malloc` and a request to the disk.

The request is for one byte, which `disk_request` rounds to no page at all, so a new page
holds what its memory held before.  A page number behind the end gives 1, which the
callers take for an address, and the number that is the length itself is loaded like a
page.

Readings of the source.  The macro `read` has four parameters and is given five values,
the fourth, 1, for the bytes.  The position is a product of two `ustd_t`.  The log of the
requests is not part of the source.
-/

namespace BestKernel
namespace Vfs

open Machine Mem

/-- A file and the partition it is on, the table of frames, the tree of the caller and
memory.  `reads` are the requests to the disk, of a position and an address. -/
structure PageCache where
  file : MemFile
  disk : Half
  table : RamTable
  pagetree : Word
  words : WordMemory
  bytes : ByteMemory
  reads : List (Word × Word)

namespace PageCache

/-- `page*mm->get_multi_from_pagetype(pagetype)`. -/
def position (s : PageCache) (page : Half) : Word :=
  (page * multiplierOf s.file.mapped_pagetype).setWidth 64

/-- The store to `file->mem->pool[page]` of what `malloc` returned. -/
def store (s : PageCache) (page : Half) (fresh : Word) (table : RamTable) : PageCache :=
  { s with
    file := { s.file with pool := Function.update s.file.pool page.toNat fresh }
    table := table }

section Load

variable (memlen : Half) (disks : Syscalls.Disks)

/-- `load_page`: what it returns, and the state behind it. -/
def loadPage (fuel : Nat) (s : PageCache) (page : Half) : Option (Word × PageCache) :=
  if page > s.file.length then some (1, s)
  else if s.file.pool page.toNat = 0 then do
    let (fresh, table) ← malloc memlen fuel s.table 1 s.file.mapped_pagetype
    if fresh = 0 then some (0, s.store page fresh table)
    else
      let t ← Syscalls.diskRequest disks .READ s.disk (s.position page) fuel s.pagetree fresh 1
        s.words s.bytes
      return (fresh,
        { s.store page fresh table with
          words := t.words
          bytes := t.bytes
          reads := s.reads ++ [(s.position page, fresh)] })
  else some (s.file.pool page.toNat, s)

/-- The state behind a call; `none` is a call that never ends. -/
def LoadStep (s : Option PageCache) (page : Half) (s' : Option PageCache) : Prop :=
  match s with
  | none => False
  | some s =>
      (∃ fuel ret t, loadPage memlen disks fuel s page = some (ret, t) ∧ s' = some t) ∨
        ((∀ fuel, loadPage memlen disks fuel s page = none) ∧ s' = none)

end Load

section Law

variable (memlen : Half) (disks : Syscalls.Disks) (contents : Nat → Nat → Byte)

/-- The memory at an address holds a page of the file. -/
def HoldsPage (s : PageCache) (address : Word) (page : Nat) : Prop :=
  ∀ i, i < getMultiFromPagetype s.file.mapped_pagetype →
    s.bytes (address + BitVec.ofNat 64 i) = contents page i

/-- The frames of one page of the file at an address. -/
def framesAt (s : PageCache) (address : Word) : Set Nat :=
  pageFrames address 1 s.file.mapped_pagetype

/-- The page is one of the file and in memory. -/
def Loaded (s : PageCache) (page : Nat) : Prop :=
  page < s.file.length.toNat ∧ s.file.pool page ≠ 0

/-- **Every page in memory holds its part of the file, in frames of its own.** -/
structure Coherent (s : PageCache) : Prop where
  holds : ∀ p, s.Loaded p → s.HoldsPage contents (s.file.pool p) p
  frames : ∀ p q, s.Loaded p → s.Loaded q → p ≠ q →
    Disjoint (s.framesAt (s.file.pool p)) (s.framesAt (s.file.pool q))

/-- What `malloc` returns for a page of the file. -/
def Mallocs (s : PageCache) (fresh : Word) (table : RamTable) : Prop :=
  ∃ fuel, malloc memlen fuel s.table 1 s.file.mapped_pagetype = some (fresh, table)

/-- What a call returns and leaves behind: the frame of the page, without a request when it
was there; 0 when `malloc` fails; and 0 and nothing else behind the end. -/
structure LoadRight (s : PageCache) (page : Half) (ret : Word) (t : PageCache) : Prop where
  inside : page.toNat < s.file.length.toNat →
    (ret ≠ 0 ∧ t.file.pool page.toNat = ret) ∨
      (s.file.pool page.toNat = 0 ∧ (∃ table, s.Mallocs memlen 0 table) ∧
        ret = 0 ∧ t.file.pool page.toNat = 0)
  cached : s.Loaded page.toNat → ret = s.file.pool page.toNat ∧ t = s
  others : ∀ p, p ≠ page.toNat → t.file.pool p = s.file.pool p
  beyond : s.file.length.toNat ≤ page.toNat → ret = 0 ∧ t = s

/-- The call ends, and rightly. -/
def LoadsRight (s : Option PageCache) (page : Half) (s' : Option PageCache) : Prop :=
  match s with
  | none => True
  | some s => ∃ fuel ret t, loadPage memlen disks fuel s page = some (ret, t) ∧
      s' = some t ∧ s.LoadRight memlen page ret t

/-- `Coherent`, of a state that a call has led to. -/
def CoherentState : Option PageCache → Prop
  | none => True
  | some s => s.Coherent contents

/-- The memory that `malloc` finds holds the page already, and none of the others. -/
def FindsPage (s : PageCache) (page : Nat) (fresh : Word) : Prop :=
  s.HoldsPage contents fresh page ∧
    ∀ p, s.Loaded p → Disjoint (s.framesAt (s.file.pool p)) (s.framesAt fresh)

/-- The condition on a call. -/
def LoadSafe (s : Option PageCache) (page : Half) : Prop :=
  match s with
  | none => True
  | some s =>
      (page.toNat < s.file.length.toNat ∧
        (s.file.pool page.toNat ≠ 0 ∨
          ∃ fresh table, s.Mallocs memlen fresh table ∧
            (fresh = 0 ∨ s.FindsPage contents page.toNat fresh))) ∨
      (page = s.file.length ∧ s.file.pool page.toNat = 0 ∧ s.Mallocs memlen 0 s.table)

end Law

section Spec

variable {memlen : Half} {disks : Syscalls.Disks} {contents : Nat → Nat → Byte}
variable {s t : PageCache} {page : Half} {ret : Word} {fuel : Nat}

theorem Mallocs.unique
    {fresh fresh' : Word} {table table' : RamTable}
    (h : s.Mallocs memlen fresh table)
    (h' : s.Mallocs memlen fresh' table') :
    fresh = fresh' ∧ table = table' := by
  obtain ⟨fuel, hfirst⟩ := h
  obtain ⟨fuel', hsecond⟩ := h'
  obtain ⟨hfind, rfl⟩ := malloc_eq_some hfirst
  obtain ⟨hfind', rfl⟩ := malloc_eq_some hsecond
  cases Loops.run_unique hfind hfind'
  exact ⟨rfl, rfl⟩

/-- The state behind a page that was not there. -/
def placed (s : PageCache) (page : Half) (fresh : Word) (table : RamTable) : PageCache :=
  if fresh = 0 then s.store page fresh table
  else
    { s.store page fresh table with
      words := (vmtoEntry fresh s.words s.pagetree).1
      reads := s.reads ++ [(s.position page, fresh)] }

@[simp] theorem placed_file
    (fresh : Word) (table : RamTable) :
    (s.placed page fresh table).file =
      { s.file with pool := Function.update s.file.pool page.toNat fresh } := by
  unfold placed
  split_ifs <;> rfl

@[simp] theorem placed_bytes
    (fresh : Word) (table : RamTable) :
    (s.placed page fresh table).bytes = s.bytes := by
  unfold placed
  split_ifs <;> rfl

theorem placed_zero
    (hnew : s.file.pool page.toNat = 0)
    (table : RamTable) :
    s.placed page 0 table = { s with table := table } := by
  have hpool : Function.update s.file.pool page.toNat 0 = s.file.pool := by
    rw [← hnew]
    exact Function.update_eq_self _ _
  rw [placed, if_pos rfl, store, hpool]

theorem loadPage_beyond
    (h : page > s.file.length)
    (fuel : Nat) :
    loadPage memlen disks fuel s page = some (1, s) :=
  if_pos h

theorem loadPage_loaded
    (h : ¬ page > s.file.length)
    (hpool : s.file.pool page.toNat ≠ 0)
    (fuel : Nat) :
    loadPage memlen disks fuel s page = some (s.file.pool page.toNat, s) := by
  rw [loadPage, if_neg h, if_neg hpool]

/-- A byte is no page, so the request moves nothing. -/
theorem diskRequest_one
    {action : Syscalls.DiskAction} {part : Half} {reloff pagetree destination : Word}
    {words : WordMemory} {bytes : ByteMemory}
    (fuel : Nat) :
    Syscalls.diskRequest disks action part reloff (fuel + 1) pagetree destination 1 words bytes =
      some ⟨0, (vmtoEntry destination words pagetree).1, bytes, []⟩ := by
  have hrepetitions : (pagetypeRoundup (1 : Word) walkedPagetype).setWidth 32 = (0 : Half) := by
    decide
  unfold Syscalls.diskRequest
  dsimp only
  rw [hrepetitions]
  exact Loops.run_exit (Syscalls.diskRound_exit (by simp)) fuel

/-- **A page that is not there takes what `malloc` returns.** -/
theorem loadPage_new_iff
    (h : ¬ page > s.file.length)
    (hnew : s.file.pool page.toNat = 0) :
    (∃ fuel, loadPage memlen disks fuel s page = some (ret, t)) ↔
      ∃ table, s.Mallocs memlen ret table ∧ t = s.placed page ret table := by
  constructor
  · rintro ⟨fuel, hload⟩
    rw [loadPage, if_neg h, if_pos hnew, Option.bind_eq_bind, Option.bind_eq_some_iff] at hload
    obtain ⟨⟨fresh, table⟩, hmalloc, hrest⟩ := hload
    dsimp only at hrest
    by_cases hnull : fresh = 0
    · rw [if_pos hnull] at hrest
      cases hrest
      subst hnull
      exact ⟨table, ⟨fuel, hmalloc⟩, (if_pos rfl).symm⟩
    · rw [if_neg hnull, Option.bind_eq_bind, Option.bind_eq_some_iff] at hrest
      obtain ⟨u, hrequest, hend⟩ := hrest
      cases fuel with
      | zero => cases hrequest
      | succ fuel =>
          rw [diskRequest_one] at hrequest
          cases hrequest
          cases hend
          exact ⟨table, ⟨fuel + 1, hmalloc⟩, (if_neg hnull).symm⟩
  · rintro ⟨table, ⟨fuel, hmalloc⟩, rfl⟩
    cases fuel with
    | zero => cases hmalloc
    | succ fuel =>
        refine ⟨fuel + 1, ?_⟩
        rw [loadPage, if_neg h, if_pos hnew, hmalloc, Option.bind_eq_bind, Option.bind_some, placed]
        dsimp only
        by_cases hnull : ret = 0
        · rw [if_pos hnull, if_pos hnull, hnull]
        · rw [if_neg hnull, if_neg hnull, diskRequest_one]
          rfl

/-- The three things that a call can do. -/
theorem loadPage_cases
    (h : loadPage memlen disks fuel s page = some (ret, t)) :
    (page > s.file.length ∧ ret = 1 ∧ t = s) ∨
      (¬ page > s.file.length ∧ s.file.pool page.toNat ≠ 0 ∧
        ret = s.file.pool page.toNat ∧ t = s) ∨
      (¬ page > s.file.length ∧ s.file.pool page.toNat = 0 ∧
        ∃ table, s.Mallocs memlen ret table ∧ t = s.placed page ret table) := by
  by_cases hbeyond : page > s.file.length
  · rw [loadPage_beyond hbeyond] at h
    cases h
    exact Or.inl ⟨hbeyond, rfl, rfl⟩
  · by_cases hnew : s.file.pool page.toNat = 0
    · exact Or.inr (Or.inr ⟨hbeyond, hnew, (loadPage_new_iff hbeyond hnew).mp ⟨fuel, h⟩⟩)
    · rw [loadPage_loaded hbeyond hnew] at h
      cases h
      exact Or.inr (Or.inl ⟨hbeyond, hnew, rfl, rfl⟩)

/-- The address and the file are those that `softfault_handler` goes on with. -/
theorem loadPage_file
    (h : loadPage memlen disks fuel s page = some (ret, t)) :
    Vfs.loadPage s.file page ret = (ret, t.file) := by
  rcases loadPage_cases h with ⟨hbeyond, rfl, rfl⟩ | ⟨hinside, hpool, rfl, rfl⟩ |
    ⟨hinside, hnew, table, _, rfl⟩
  · exact if_pos hbeyond
  · rw [Vfs.loadPage, if_neg hinside, if_neg hpool]
  · rw [Vfs.loadPage, if_neg hinside, if_pos hnew, placed_file]

/-- A call has at most one result. -/
theorem loadPage_unique
    {fuel' : Nat} {ret' : Word} {t' : PageCache}
    (h : loadPage memlen disks fuel s page = some (ret, t))
    (h' : loadPage memlen disks fuel' s page = some (ret', t')) :
    ret = ret' ∧ t = t' := by
  rcases loadPage_cases h with ⟨hbeyond, rfl, rfl⟩ | ⟨hinside, hpool, rfl, rfl⟩ |
    ⟨hinside, hnew, table, hmalloc, rfl⟩
  · rw [loadPage_beyond hbeyond] at h'
    cases h'
    exact ⟨rfl, rfl⟩
  · rw [loadPage_loaded hinside hpool] at h'
    cases h'
    exact ⟨rfl, rfl⟩
  · obtain ⟨table', hmalloc', rfl⟩ := (loadPage_new_iff hinside hnew).mp ⟨fuel', h'⟩
    obtain ⟨rfl, rfl⟩ := hmalloc.unique hmalloc'
    exact ⟨rfl, rfl⟩

/-- What is asked of a call is asked of its result. -/
theorem loadsRight_of_returns
    {s' : Option PageCache}
    (h : loadPage memlen disks fuel s page = some (ret, t))
    (hstep : LoadStep memlen disks (some s) page s') :
    s' = some t ∧
      (LoadsRight memlen disks (some s) page s' ↔ s.LoadRight memlen page ret t) := by
  rcases hstep with ⟨fuel', ret', t', hload, rfl⟩ | ⟨hnever, rfl⟩
  · obtain ⟨rfl, rfl⟩ := loadPage_unique h hload
    refine ⟨rfl, ?_, fun hright => ⟨fuel, ret, t, h, rfl, hright⟩⟩
    rintro ⟨_, _, _, hload, _, hright⟩
    obtain ⟨rfl, rfl⟩ := loadPage_unique h hload
    exact hright
  · rw [hnever fuel] at h
    cases h

/-- It is `malloc` that does not end in a call that never does. -/
theorem not_loadSafe_of_never
    (h : ¬ page > s.file.length)
    (hnew : s.file.pool page.toNat = 0)
    (hnever : ∀ fuel, loadPage memlen disks fuel s page = none) :
    ¬ LoadSafe memlen contents (some s) page := by
  have hmalloc : ∀ fresh table, ¬ s.Mallocs memlen fresh table := by
    intro fresh table hmalloc
    have hreturns : ∃ fuel, loadPage memlen disks fuel s page =
        some (fresh, s.placed page fresh table) :=
      (loadPage_new_iff h hnew).mpr ⟨table, hmalloc, rfl⟩
    obtain ⟨fuel, hload⟩ := hreturns
    rw [hnever fuel] at hload
    cases hload
  rintro (⟨_, hpool | ⟨fresh, table, hfind, _⟩⟩ | ⟨_, _, hfind⟩)
  · exact hpool hnew
  · exact hmalloc fresh table hfind
  · exact hmalloc 0 s.table hfind

/-- **A page in memory keeps its frame in every run.** -/
theorem frame_kept
    {address : Word} {p : Nat} {run : List (Half × Option PageCache)}
    (hrun : Runs.Run (LoadStep memlen disks) (some s) run)
    (hpool : s.file.pool p = address)
    (hnull : address ≠ 0) :
    Runs.Always (fun u => ∀ t, u = some t → t.file.pool p = address) (some s) run := by
  refine Runs.always_of_preserved ?_ hrun fun t ht => by
    cases ht
    exact hpool
  intro u page u' hu hstep t ht
  subst ht
  cases u with
  | none => exact absurd hstep id
  | some u =>
      have hpool := hu u rfl
      rcases hstep with ⟨fuel, ret, t', hload, heq⟩ | ⟨_, heq⟩
      · cases heq
        rcases loadPage_cases hload with ⟨_, _, rfl⟩ | ⟨_, _, _, rfl⟩ | ⟨_, hnew, table, _, rfl⟩
        · exact hpool
        · exact hpool
        · have hne : p ≠ page.toNat := by
            rintro rfl
            exact hnull (hpool.symm.trans hnew)
          rw [placed_file]
          exact (Function.update_of_ne hne _ _).trans hpool
      · cases heq

/-- A new page is loaded next to those that were. -/
theorem loaded_placed_iff
    {fresh : Word} {p : Nat}
    (hinside : page.toNat < s.file.length.toNat)
    (hnull : fresh ≠ 0)
    (table : RamTable) :
    (s.placed page fresh table).Loaded p ↔ p = page.toNat ∨ s.Loaded p := by
  simp only [Loaded, placed_file]
  by_cases hp : p = page.toNat
  · subst hp
    simpa [hinside] using hnull
  · simp [hp]

theorem holdsPage_placed
    (fresh address : Word) (table : RamTable) (p : Nat) :
    (s.placed page fresh table).HoldsPage contents address p ↔
      s.HoldsPage contents address p := by
  simp [HoldsPage]

theorem framesAt_placed
    (fresh address : Word) (table : RamTable) :
    (s.placed page fresh table).framesAt address = s.framesAt address := by
  simp [framesAt]

/-- **A page that is loaded must be found in its memory.** -/
theorem coherent_placed_iff
    {fresh : Word}
    (hcoherent : s.Coherent contents)
    (hinside : page.toNat < s.file.length.toNat)
    (hnew : s.file.pool page.toNat = 0)
    (hnull : fresh ≠ 0)
    (table : RamTable) :
    (s.placed page fresh table).Coherent contents ↔ s.FindsPage contents page.toNat fresh := by
  have hself : (s.placed page fresh table).file.pool page.toNat = fresh := by simp
  have hother : ∀ p, s.Loaded p → p ≠ page.toNat ∧
      (s.placed page fresh table).file.pool p = s.file.pool p := by
    intro p hp
    have hne : p ≠ page.toNat := by
      rintro rfl
      exact hp.2 hnew
    exact ⟨hne, by simp [hne]⟩
  have hloaded := fun p => loaded_placed_iff (p := p) hinside hnull table
  constructor
  · intro h
    constructor
    · have hholds := h.holds page.toNat ((hloaded _).mpr (Or.inl rfl))
      rwa [hself, holdsPage_placed] at hholds
    · intro p hp
      obtain ⟨hne, hpool⟩ := hother p hp
      have hframes := h.frames p page.toNat ((hloaded p).mpr (Or.inr hp))
        ((hloaded _).mpr (Or.inl rfl)) hne
      rwa [hself, hpool, framesAt_placed, framesAt_placed] at hframes
  · rintro ⟨hholds, hframes⟩
    constructor
    · intro p hp
      rw [holdsPage_placed]
      rcases (hloaded p).mp hp with rfl | hp
      · rwa [hself]
      · rw [(hother p hp).2]
        exact hcoherent.holds p hp
    · intro p q hp hq hne
      rw [framesAt_placed, framesAt_placed]
      rcases (hloaded p).mp hp with rfl | hp <;> rcases (hloaded q).mp hq with rfl | hq
      · exact absurd rfl hne
      · rw [hself, (hother q hq).2]
        exact (hframes q hq).symm
      · rw [hself, (hother p hp).2]
        exact hframes p hp
      · rw [(hother p hp).2, (hother q hq).2]
        exact hcoherent.frames p q hp hq hne

/-- A page that is there is given back rightly exactly when it is one of the file. -/
theorem loadRight_loaded_iff
    (hpool : s.file.pool page.toNat ≠ 0) :
    s.LoadRight memlen page (s.file.pool page.toNat) s ↔
      page.toNat < s.file.length.toNat := by
  constructor
  · intro h
    by_contra hbeyond
    exact hpool (h.beyond (by omega)).1
  · intro hinside
    exact ⟨fun _ => Or.inl ⟨hpool, rfl⟩, fun _ => ⟨rfl, rfl⟩, fun _ _ => rfl,
      fun hbeyond => absurd hinside (by omega)⟩

/-- A page of the file that is not there is loaded rightly, as far as the slots go. -/
theorem loadRight_placed
    {fresh : Word} {table : RamTable}
    (hinside : page.toNat < s.file.length.toNat)
    (hnew : s.file.pool page.toNat = 0)
    (hmalloc : s.Mallocs memlen fresh table) :
    s.LoadRight memlen page fresh (s.placed page fresh table) := by
  constructor
  · intro _
    by_cases hnull : fresh = 0
    · subst hnull
      exact Or.inr ⟨hnew, ⟨table, hmalloc⟩, rfl, by simp⟩
    · exact Or.inl ⟨hnull, by simp⟩
  · exact fun hloaded => absurd hnew hloaded.2
  · intro p hp
    simp [hp]
  · exact fun hbeyond => absurd hinside (by omega)

/-- The page behind the last one is left alone exactly when nothing can be allocated. -/
theorem loadRight_placed_end_iff
    {fresh : Word} {table : RamTable}
    (hend : page = s.file.length)
    (hnew : s.file.pool page.toNat = 0) :
    s.LoadRight memlen page fresh (s.placed page fresh table) ↔
      fresh = 0 ∧ table = s.table := by
  constructor
  · intro h
    obtain ⟨rfl, hsame⟩ := h.beyond (by rw [hend])
    rw [placed_zero hnew] at hsame
    exact ⟨rfl, congrArg PageCache.table hsame⟩
  · rintro ⟨rfl, rfl⟩
    have hsame := placed_zero hnew s.table
    refine ⟨fun hinside => ?_, fun hloaded => absurd hnew hloaded.2, fun p _ => ?_,
      fun _ => ⟨rfl, hsame⟩⟩
    · exact absurd hinside (by rw [hend]; omega)
    · rw [hsame]

/-- The cache stays coherent when `malloc` fails, and when it finds the page. -/
theorem coherent_new_iff
    {fresh : Word}
    (hcoherent : s.Coherent contents)
    (hinside : page.toNat < s.file.length.toNat)
    (hnew : s.file.pool page.toNat = 0)
    (table : RamTable) :
    (s.placed page fresh table).Coherent contents ↔
      fresh = 0 ∨ s.FindsPage contents page.toNat fresh := by
  by_cases hnull : fresh = 0
  · subst hnull
    rw [placed_zero hnew]
    exact iff_of_true ⟨hcoherent.holds, hcoherent.frames⟩ (Or.inl rfl)
  · rw [or_iff_right hnull]
    exact coherent_placed_iff hcoherent hinside hnew hnull table

/-- The condition for a page of the file, with what `malloc` returns. -/
theorem loadSafe_inside_iff
    {fresh : Word} {table : RamTable}
    (hinside : page.toNat < s.file.length.toNat)
    (hnew : s.file.pool page.toNat = 0)
    (hmalloc : s.Mallocs memlen fresh table) :
    LoadSafe memlen contents (some s) page ↔
      fresh = 0 ∨ s.FindsPage contents page.toNat fresh := by
  constructor
  · rintro (⟨_, hpool | ⟨fresh', table', hmalloc', hfinds⟩⟩ | ⟨hend, _⟩)
    · exact absurd hnew hpool
    · obtain ⟨rfl, rfl⟩ := hmalloc.unique hmalloc'
      exact hfinds
    · rw [hend] at hinside
      omega
  · exact fun hfinds => Or.inl ⟨hinside, Or.inr ⟨fresh, table, hmalloc, hfinds⟩⟩

/-- The condition for the page behind the last one. -/
theorem loadSafe_end_iff
    {fresh : Word} {table : RamTable}
    (hend : page = s.file.length)
    (hnew : s.file.pool page.toNat = 0)
    (hmalloc : s.Mallocs memlen fresh table) :
    LoadSafe memlen contents (some s) page ↔ fresh = 0 ∧ table = s.table := by
  constructor
  · rintro (⟨hlt, _⟩ | ⟨_, _, hmalloc'⟩)
    · rw [hend] at hlt
      omega
    · exact hmalloc.unique hmalloc'
  · rintro ⟨rfl, rfl⟩
    exact Or.inr ⟨hend, hnew, hmalloc⟩

/-- The exact condition for a page that is not there. -/
theorem loadsRight_new_iff
    {s' : Option PageCache}
    (hcoherent : s.Coherent contents)
    (h : ¬ page > s.file.length)
    (hnew : s.file.pool page.toNat = 0)
    (hstep : LoadStep memlen disks (some s) page s') :
    CoherentState contents s' ∧ LoadsRight memlen disks (some s) page s' ↔
      LoadSafe memlen contents (some s) page := by
  by_cases hreturns : ∃ fuel ret t, loadPage memlen disks fuel s page = some (ret, t)
  · obtain ⟨fuel, fresh, t, hload⟩ := hreturns
    obtain ⟨table, hmalloc, rfl⟩ := (loadPage_new_iff h hnew).mp ⟨fuel, hload⟩
    obtain ⟨rfl, hright⟩ := loadsRight_of_returns hload hstep
    rw [hright]
    by_cases hinside : page.toNat < s.file.length.toNat
    · rw [loadSafe_inside_iff hinside hnew hmalloc,
        and_iff_left (loadRight_placed hinside hnew hmalloc)]
      exact coherent_new_iff hcoherent hinside hnew table
    · have hend : page = s.file.length := by
        rw [gt_iff_lt, BitVec.lt_def] at h
        exact BitVec.eq_of_toNat_eq (by omega)
      rw [loadSafe_end_iff hend hnew hmalloc, loadRight_placed_end_iff hend hnew]
      refine and_iff_right_of_imp ?_
      rintro ⟨rfl, rfl⟩
      rw [placed_zero hnew]
      exact ⟨hcoherent.holds, hcoherent.frames⟩
  · have hnever : ∀ fuel, loadPage memlen disks fuel s page = none := by
      intro fuel
      cases hload : loadPage memlen disks fuel s page with
      | none => rfl
      | some result => exact absurd ⟨fuel, result.1, result.2, hload⟩ hreturns
    refine iff_of_false ?_ (not_loadSafe_of_never h hnew hnever)
    rintro ⟨_, fuel, ret, t, hload, _⟩
    exact hreturns ⟨fuel, ret, t, hload⟩

/-- **A call keeps the cache coherent and does what it should exactly when it is safe.** -/
theorem loadsRight_iff
    {s s' : Option PageCache}
    (hcoherent : CoherentState contents s)
    (hstep : LoadStep memlen disks s page s') :
    CoherentState contents s' ∧ LoadsRight memlen disks s page s' ↔
      LoadSafe memlen contents s page := by
  cases s with
  | none => exact absurd hstep id
  | some s =>
      by_cases hbeyond : page > s.file.length
      · obtain ⟨_, hright⟩ := loadsRight_of_returns (loadPage_beyond hbeyond 0) hstep
        rw [gt_iff_lt, BitVec.lt_def] at hbeyond
        constructor
        · rintro ⟨_, h⟩
          have hret := ((hright.mp h).beyond (by omega)).1
          exact absurd hret (by decide)
        · rintro (⟨hinside, _⟩ | ⟨hend, _⟩)
          · omega
          · rw [hend] at hbeyond
            omega
      · by_cases hnew : s.file.pool page.toNat = 0
        · exact loadsRight_new_iff hcoherent hbeyond hnew hstep
        · obtain ⟨rfl, hright⟩ :=
            loadsRight_of_returns (loadPage_loaded hbeyond hnew 0) hstep
          rw [hright, loadRight_loaded_iff hnew]
          constructor
          · rintro ⟨_, hinside⟩
            exact Or.inl ⟨hinside, Or.inl hnew⟩
          · rintro (⟨hinside, _⟩ | ⟨_, hzero, _⟩)
            · exact ⟨hcoherent, hinside⟩
            · exact absurd hzero hnew

/-- **`load_page` caches correctly exactly when it never loads anything new**: every call is for
a page of the file that is there, or whose memory holds it already, or `malloc` fails. -/
theorem load_page_caches_iff
    {s : Option PageCache} {run : List (Half × Option PageCache)}
    (hcoherent : CoherentState contents s)
    (hrun : Runs.Run (LoadStep memlen disks) s run) :
    Runs.Always (CoherentState contents) s run ∧
        Runs.EveryStep (LoadsRight memlen disks) s run ↔
      Runs.StepsMeet (LoadSafe memlen contents) s run := by
  refine Runs.always_and_everyStep_iff_stepsMeet ?_ hrun hcoherent
  exact fun _ _ _ hcoherent hstep => loadsRight_iff hcoherent hstep

end Spec

/-- A file of pages in memory of zeros, in 4096 frames that are all free. -/
def ofFile (file : MemFile) : PageCache :=
  ⟨file, 0, fun _ => 0, 8192, fun _ => 0, fun _ => 0, []⟩

/-- A call for the page that is there. -/
def warmRun : List (Half × Option PageCache) := [(0, some (ofFile onePageFile))]

/-- It is given back. -/
theorem load_page_caches_iff_loaded :
    Runs.Always (CoherentState fun _ _ => 0) (some (ofFile onePageFile)) warmRun ∧
        Runs.EveryStep (LoadsRight 4096 Syscalls.idleDisks) (some (ofFile onePageFile)) warmRun ↔
      Runs.StepsMeet (LoadSafe 4096 fun _ _ => 0) (some (ofFile onePageFile)) warmRun := by
  have hcoherent : CoherentState (fun _ _ => 0) (some (ofFile onePageFile)) := by
    refine ⟨fun _ _ _ _ => rfl, fun p q hp hq hne => ?_⟩
    have hlength : (ofFile onePageFile).file.length.toNat = 1 := rfl
    have hfirst := hp.1
    have hsecond := hq.1
    omega
  have hload : loadPage 4096 Syscalls.idleDisks 0 (ofFile onePageFile) 0 =
      some (4096, ofFile onePageFile) := loadPage_loaded (by decide) (by decide) 0
  exact load_page_caches_iff hcoherent (.cons (Or.inl ⟨0, _, _, hload, rfl⟩) (.nil _))

theorem frame_kept_loaded :
    Runs.Always (fun u => ∀ t, u = some t → t.file.pool 0 = 4096) (some (ofFile onePageFile))
      warmRun := by
  have hload : loadPage 4096 Syscalls.idleDisks 0 (ofFile onePageFile) 0 =
      some (4096, ofFile onePageFile) := loadPage_loaded (by decide) (by decide) 0
  exact frame_kept (.cons (Or.inl ⟨0, _, _, hload, rfl⟩) (.nil _)) rfl (by decide)

/-- A file of one page, which is not in memory. -/
def coldFile : MemFile := { onePageFile with pool := fun _ => 0 }

/-- **A page of ones is loaded as the zeros that were in its memory.** -/
theorem page_not_read :
    CoherentState (fun _ _ => 1) (some (ofFile coldFile)) ∧
      ∃ s', Runs.Run (LoadStep 4096 Syscalls.idleDisks) (some (ofFile coldFile)) [(0, s')] ∧
        ¬ Runs.Always (CoherentState fun _ _ => 1) (some (ofFile coldFile))
          [((0 : Half), s')] := by
  have hcoherent : (ofFile coldFile).Coherent fun _ _ => 1 :=
    ⟨fun p hp => absurd rfl hp.2, fun p _ hp => absurd rfl hp.2⟩
  have hinside : ¬ (0 : Half) > (ofFile coldFile).file.length := by decide
  have hmalloc : (ofFile coldFile).Mallocs 4096 0x120000#64
      (manipulatePhys (fun _ => 0) 0x120000#64 1 Pag.SMALLPAGE .SET) := by
    refine ⟨4097, ?_⟩
    rw [malloc]
    simp only [ofFile, coldFile, onePageFile, getFreeIdentity_empty]
    rfl
  have hreturns : ∃ fuel, loadPage 4096 Syscalls.idleDisks fuel (ofFile coldFile) 0 =
      some (0x120000#64, (ofFile coldFile).placed 0 0x120000#64
        (manipulatePhys (fun _ => 0) 0x120000#64 1 Pag.SMALLPAGE .SET)) :=
    (loadPage_new_iff hinside rfl).mpr ⟨_, hmalloc, rfl⟩
  obtain ⟨fuel, hload⟩ := hreturns
  refine ⟨hcoherent, _, .cons (Or.inl ⟨fuel, _, _, hload, rfl⟩) (.nil _), fun h => ?_⟩
  have hbehind := ((Runs.always_cons _ _ _ _ _).mp h).2.1
  have hfinds := (coherent_placed_iff hcoherent (by decide) rfl (by decide) _).mp hbehind
  have hbyte := hfinds.1 0 (by decide)
  exact absurd hbyte (by decide)

end PageCache

end Vfs
end BestKernel
