import BestKernel.Kontrol.Pools

/-!
# Sections of pointers over whole runs

`kptralloc` and `kptrfree` pass requests on to the pool of pointers.  The pool is a
parameter here, and it is right by itself (`PointerPool.Exact`): it reserves and releases
exactly the section that it is asked for.

Readings of the source.

* `kptralloc` reads no `number`: it asks the pool for one slot.  `kptrfree` passes the
  `number` on.
* A section is known by its first slot and by the number that its owner asked for, which
  is what the owner gives back: `SYS_FMAP` and `PKILL` both say `512/8`.

The owners are right about their sections exactly as long as each of them asks for one
pointer (`kptr_sections_iff`).  A longer section reaches over slots that the pool hands to
others (`kptralloc_rest_unchanged`), and giving it back releases what they hold there
(`kptrfree_releases_neighbour`).

The pool of the source, `kingptr`, is not one of these: it marks nothing that it hands out
(`kingptr_not_exact`).
-/

namespace BestKernel
namespace Kontrol

open Machine
open Runs

universe u

/-- The calls of a pool with states in `σ`.  A section is given by its first slot, `full`
says that there is none of a length, and `taken` are the slots that are not free. -/
structure PointerPool (σ : Type u) where
  pool_alloc : σ → Half → Option Nat × σ
  pool_free : σ → Nat → Half → σ
  full : σ → Half → Prop
  taken : σ → Set Nat

/-- A section of pointers: the first slot and the number of slots. -/
abbrev PointerSection := Nat × Half

def PointerSection.slots (sect : PointerSection) : Set Nat :=
  {i | sect.1 ≤ i ∧ i < sect.1 + sect.2.toNat}

/-- The pool reserves and releases exactly the section that it is asked for. -/
structure PointerPool.Exact {σ : Type u} (pool : PointerPool σ) : Prop where
  refused_iff : ∀ s reqlen, (pool.pool_alloc s reqlen).1 = none ↔ pool.full s reqlen
  refused : ∀ s reqlen, (pool.pool_alloc s reqlen).1 = none →
    pool.taken (pool.pool_alloc s reqlen).2 = pool.taken s
  found : ∀ s reqlen start, (pool.pool_alloc s reqlen).1 = some start →
    Disjoint (pool.taken s) (PointerSection.slots (start, reqlen))
  reserved : ∀ s reqlen start, (pool.pool_alloc s reqlen).1 = some start →
    pool.taken (pool.pool_alloc s reqlen).2 =
      pool.taken s ∪ PointerSection.slots (start, reqlen)
  released : ∀ s start length,
    pool.taken (pool.pool_free s start length) =
      pool.taken s \ PointerSection.slots (start, length)

section Calls

variable {σ : Type u} (pool : PointerPool σ)

/-- `return kptr->pool_alloc(1)` -/
def kptralloc (kptr : σ) (_number : Half) : Option Nat × σ :=
  pool.pool_alloc kptr 1

/-- `kptr->pool_free(section,number)` -/
def kptrfree (kptr : σ) (sect : Nat) (number : Half) : σ :=
  pool.pool_free kptr sect number

end Calls

/-- The pool, and the sections that have owners. -/
structure KptrState (σ : Type u) where
  kptr : σ
  live : List PointerSection

inductive KptrOp where
  | kptralloc (number : Half)
  | kptrfree (sect : Nat) (number : Half)

/-- What is handed out gets an owner. -/
def ownSection (live : List PointerSection) (found : Option Nat) (number : Half) :
    List PointerSection :=
  match found with
  | some start => (start, number) :: live
  | none => live

section Steps

variable {σ : Type u} (pool : PointerPool σ)

/-- Any owner asks for a pointer at least, or gives its section back. -/
def KptrStep (s : KptrState σ) (op : KptrOp) (s' : KptrState σ) : Prop :=
  match op with
  | .kptralloc number =>
      1 ≤ number.toNat ∧
        s' = ⟨(kptralloc pool s.kptr number).2,
          ownSection s.live (kptralloc pool s.kptr number).1 number⟩
  | .kptrfree sect number =>
      (sect, number) ∈ s.live ∧
        s' = ⟨kptrfree pool s.kptr sect number, s.live.erase (sect, number)⟩

/-- The sections of the owners are disjoint, and with the slots of `base` they are all that
the pool has reserved. -/
def SectionsKept (base : Set Nat) (s : KptrState σ) : Prop :=
  Ledger.Exclusive PointerSection.slots base (pool.taken s.kptr) s.live

/-- A call does what it is asked for: `kptralloc` reserves as many slots that were free, and
`kptrfree` releases those of the section. -/
def CallRight (s : KptrState σ) (op : KptrOp) (s' : KptrState σ) : Prop :=
  match op with
  | .kptralloc number =>
      ∀ start, (kptralloc pool s.kptr number).1 = some start →
        Disjoint (pool.taken s.kptr) (PointerSection.slots (start, number)) ∧
          pool.taken s'.kptr = pool.taken s.kptr ∪ PointerSection.slots (start, number)
  | .kptrfree sect number =>
      pool.taken s'.kptr = pool.taken s.kptr \ PointerSection.slots (sect, number)

/-- The condition on a step: one pointer is asked for, unless there is none. -/
def KptrSafe (s : KptrState σ) : KptrOp → Prop
  | .kptralloc number => number = 1 ∨ pool.full s.kptr 1
  | .kptrfree _ _ => True

end Steps

@[simp] theorem mem_slots
    {sect : PointerSection} {i : Nat} :
    i ∈ sect.slots ↔ sect.1 ≤ i ∧ i < sect.1 + sect.2.toNat :=
  Iff.rfl

/-- Sections with the same first slot are the same when one of them is not empty. -/
theorem slots_eq_iff
    {start : Nat} {m n : Half}
    (hm : 1 ≤ m.toNat) :
    PointerSection.slots (start, m) = PointerSection.slots (start, n) ↔ m = n := by
  constructor
  · intro h
    have hmem : ∀ i, (start ≤ i ∧ i < start + m.toNat) ↔ start ≤ i ∧ i < start + n.toNat :=
      fun i => Set.ext_iff.mp h i
    have hfirst := (hmem start).mp ⟨le_rfl, by omega⟩
    have hlast := (hmem (start + m.toNat - 1)).mp ⟨by omega, by omega⟩
    have hlast' := (hmem (start + n.toNat - 1)).mpr ⟨by omega, by omega⟩
    exact BitVec.eq_of_toNat_eq (by omega)
  · rintro rfl
    rfl

section Exactness

variable {σ : Type u} {pool : PointerPool σ} {kptr : σ} {number : Half} {start : Nat}

/-- What `kptralloc` does when there is no slot left. -/
theorem PointerPool.Exact.kptralloc_refused
    (hexact : pool.Exact)
    (hnone : (kptralloc pool kptr number).1 = none) :
    pool.full kptr 1 ∧ pool.taken (kptralloc pool kptr number).2 = pool.taken kptr :=
  ⟨(hexact.refused_iff kptr 1).mp hnone, hexact.refused kptr 1 hnone⟩

/-- What `kptralloc` does when there is one: it reserves this slot. -/
theorem PointerPool.Exact.kptralloc_served
    (hexact : pool.Exact)
    (hstart : (kptralloc pool kptr number).1 = some start) :
    ¬ pool.full kptr 1 ∧
      Disjoint (pool.taken kptr) (PointerSection.slots (start, 1)) ∧
        pool.taken (kptralloc pool kptr number).2 =
          pool.taken kptr ∪ PointerSection.slots (start, 1) := by
  refine ⟨fun hfull => ?_, hexact.found kptr 1 start hstart,
    hexact.reserved kptr 1 start hstart⟩
  have hnone := (hexact.refused_iff kptr 1).mpr hfull
  cases hnone.symm.trans hstart

theorem PointerPool.Exact.kptrfree_taken
    (hexact : pool.Exact)
    (kptr : σ)
    (start : Nat)
    (number : Half) :
    pool.taken (kptrfree pool kptr start number) =
      pool.taken kptr \ PointerSection.slots (start, number) :=
  hexact.released kptr start number

/-- What `kptralloc` hands out is reserved exactly when one pointer is asked for. -/
theorem section_reserved_iff
    (hexact : pool.Exact)
    (hstart : (kptralloc pool kptr number).1 = some start) :
    Disjoint (pool.taken kptr) (PointerSection.slots (start, number)) ∧
        pool.taken (kptralloc pool kptr number).2 =
          pool.taken kptr ∪ PointerSection.slots (start, number) ↔
      number = 1 := by
  obtain ⟨-, hfound, hreserved⟩ := hexact.kptralloc_served hstart
  constructor
  · rintro ⟨hdisjoint, htaken⟩
    have hunion : pool.taken kptr ∪ PointerSection.slots (start, 1) =
        pool.taken kptr ∪ PointerSection.slots (start, number) :=
      hreserved.symm.trans htaken
    have hslots : PointerSection.slots (start, 1) = PointerSection.slots (start, number) := by
      rw [← hfound.sdiff_eq_right, ← hdisjoint.sdiff_eq_right, ← Set.union_sdiff_left,
        hunion, Set.union_sdiff_left]
    exact ((slots_eq_iff (by decide)).mp hslots).symm
  · rintro rfl
    exact ⟨hfound, hreserved⟩

/-- A call is right exactly when it is safe. -/
theorem callRight_iff
    (hexact : pool.Exact)
    {s s' : KptrState σ} {op : KptrOp}
    (hstep : KptrStep pool s op s') :
    CallRight pool s op s' ↔ KptrSafe pool s op := by
  cases op with
  | kptralloc number =>
      obtain ⟨_, rfl⟩ := hstep
      unfold CallRight KptrSafe
      dsimp only
      cases hret : (kptralloc pool s.kptr number).1 with
      | none =>
          have hfull := (hexact.kptralloc_refused hret).1
          exact iff_of_true (fun start hstart => nomatch hstart) (Or.inr hfull)
      | some start =>
          have hroom := (hexact.kptralloc_served hret).1
          rw [or_iff_left hroom, ← section_reserved_iff hexact hret]
          constructor
          · exact fun hright => hright start rfl
          · rintro hright _ ⟨rfl⟩
            exact hright
  | kptrfree sect number =>
      obtain ⟨_, rfl⟩ := hstep
      exact iff_of_true (hexact.kptrfree_taken s.kptr sect number) trivial

/-- Sections stay kept exactly when the call is right. -/
theorem sectionsKept_iff
    (hexact : pool.Exact)
    {base : Set Nat} {s s' : KptrState σ} {op : KptrOp}
    (hs : SectionsKept pool base s)
    (hstep : KptrStep pool s op s') :
    SectionsKept pool base s' ↔ CallRight pool s op s' := by
  cases op with
  | kptralloc number =>
      obtain ⟨_, rfl⟩ := hstep
      unfold CallRight SectionsKept
      dsimp only
      cases hret : (kptralloc pool s.kptr number).1 with
      | none =>
          have hsame := (hexact.kptralloc_refused hret).2
          exact iff_of_true ((Ledger.unchanged_iff hs).mpr hsame)
            fun start hstart => nomatch hstart
      | some start =>
          rw [ownSection, Ledger.claim_iff hs]
          constructor
          · rintro hclaimed _ ⟨rfl⟩
            exact hclaimed
          · exact fun hright => hright start rfl
  | kptrfree sect number =>
      obtain ⟨hlive, rfl⟩ := hstep
      exact Ledger.release_iff (hs.perm (List.perm_cons_erase hlive))

/-- Sections are kept, and every call does what it is asked for, exactly in the runs in
which no owner is handed anything but single pointers. -/
theorem kptr_sections_iff
    (hexact : pool.Exact)
    {base : Set Nat} {s : KptrState σ} {run : List (KptrOp × KptrState σ)}
    (hrun : Run (KptrStep pool) s run)
    (hs : SectionsKept pool base s) :
    Always (SectionsKept pool base) s run ∧ EveryStep (CallRight pool) s run ↔
      StepsMeet (KptrSafe pool) s run := by
  refine always_and_everyStep_iff_stepsMeet ?_ hrun hs
  intro t op t' ht hstep
  rw [sectionsKept_iff hexact ht hstep, and_self]
  exact callRight_iff hexact hstep

/-- `kptralloc` reserves the first slot of a section: the others stay what they were. -/
theorem kptralloc_rest_unchanged
    (hexact : pool.Exact)
    (hstart : (kptralloc pool kptr number).1 = some start)
    {i : Nat}
    (hne : i ≠ start) :
    i ∈ pool.taken (kptralloc pool kptr number).2 ↔ i ∈ pool.taken kptr := by
  obtain ⟨-, -, hreserved⟩ := hexact.kptralloc_served hstart
  have hone : i ∉ PointerSection.slots (start, 1) := by
    rintro ⟨hlow, hhigh⟩
    have hhigh' : i < start + 1 := hhigh
    exact hne (by omega)
  rw [hreserved, Set.mem_union, or_iff_left hone]

/-- A section that starts in a section of another owner loses its first slot with it. -/
theorem kptrfree_releases_neighbour
    (hexact : pool.Exact)
    {s s' : KptrState σ} {other : PointerSection}
    (hother : other ∈ s.live)
    (hne : other ≠ (start, number))
    (hin : other.1 ∈ PointerSection.slots (start, number))
    (hstep : KptrStep pool s (.kptrfree start number) s') :
    other ∈ s'.live ∧ other.1 ∉ pool.taken s'.kptr := by
  obtain ⟨_, rfl⟩ := hstep
  refine ⟨(List.mem_erase_of_ne hne).mpr hother, ?_⟩
  rw [hexact.kptrfree_taken]
  exact fun h => h.2 hin

end Exactness

section Source

/-- `Kingptr`, when `malloc` refuses to let it grow: its slots are of eight bytes. -/
def kingptr : PointerPool (Hash × ByteMemory) where
  pool_alloc s reqlen :=
    ((s.1.alloc reqlen 0).1.map s.1.slotOf, ((s.1.alloc reqlen 0).2, s.2))
  pool_free s start length := s.1.free s.2 (wordAt s.1.pool start) length
  full s reqlen := (s.1.alloc reqlen 0).1 = none
  taken s := markedSlots s.1

/-- What is handed out is not reserved. -/
theorem kingptr_taken
    (s : Hash × ByteMemory)
    (reqlen : Half) :
    kingptr.taken (kingptr.pool_alloc s reqlen).2 = kingptr.taken s := by
  have hlength : (s.1.alloc reqlen 0).2.length = s.1.length := by
    unfold Hash.alloc
    split
    · rfl
    · rw [if_neg fun h => h.2 rfl]
  change markedSlots (s.1.alloc reqlen 0).2 = markedSlots s.1
  unfold markedSlots
  rw [Hash.alloc_ckarray, hlength]

theorem kingptr_not_exact : ¬ kingptr.Exact := by
  intro hexact
  let s : Hash × ByteMemory := (freshPool, fun _ => 0)
  have hstart : (kingptr.pool_alloc s 1).1 = some 0 := by decide
  have hreserved := hexact.reserved s 1 0 hstart
  rw [kingptr_taken] at hreserved
  have hmarked : 0 ∈ kingptr.taken s := by
    rw [hreserved]
    exact Or.inr ⟨Nat.le_refl 0, by decide⟩
  exact hmarked.2 rfl

end Source

section Examples

/-- A table of a length with the slots that are taken. -/
structure SlotTable where
  length : Nat
  reserved : List Nat

/-- The section fits into the table, and none of its slots is taken. -/
def SlotTable.fits (table : SlotTable) (reqlen : Half) (start : Nat) : Bool :=
  decide (start + reqlen.toNat ≤ table.length ∧
    ∀ i, i ∈ table.reserved → ¬ (start ≤ i ∧ i < start + reqlen.toNat))

/-- The first section that fits. -/
def SlotTable.search (table : SlotTable) (reqlen : Half) : Option Nat :=
  (List.range (table.length + 1)).find? (table.fits reqlen)

def SlotTable.alloc (table : SlotTable) (reqlen : Half) : Option Nat × SlotTable :=
  match table.search reqlen with
  | some start =>
      (some start, { table with
        reserved := List.range' start reqlen.toNat ++ table.reserved })
  | none => (none, table)

def SlotTable.free (table : SlotTable) (start : Nat) (length : Half) : SlotTable :=
  { table with
    reserved := table.reserved.filter fun i =>
      !decide (start ≤ i ∧ i < start + length.toNat) }

/-- A pool that does what it should. -/
def slotPool : PointerPool SlotTable where
  pool_alloc := SlotTable.alloc
  pool_free := SlotTable.free
  full table reqlen := ∀ start, start ≤ table.length → table.fits reqlen start = false
  taken table := {i | i ∈ table.reserved}

theorem slotTable_alloc_eq
    (table : SlotTable) (reqlen : Half) :
    (slotPool.pool_alloc table reqlen).1 = table.search reqlen := by
  change (table.alloc reqlen).1 = _
  rw [SlotTable.alloc]
  cases table.search reqlen <;> rfl

theorem slotTable_alloc_taken
    (table : SlotTable) (reqlen : Half) :
    slotPool.taken (slotPool.pool_alloc table reqlen).2 =
      match table.search reqlen with
      | some start => slotPool.taken table ∪ PointerSection.slots (start, reqlen)
      | none => slotPool.taken table := by
  change slotPool.taken (table.alloc reqlen).2 = _
  rw [SlotTable.alloc]
  cases table.search reqlen with
  | none => rfl
  | some start =>
      ext i
      simp [slotPool, or_comm]

theorem slotTable_search_eq_none
    {table : SlotTable} {reqlen : Half} :
    table.search reqlen = none ↔ slotPool.full table reqlen := by
  rw [SlotTable.search, List.find?_eq_none]
  simp only [List.mem_range, Nat.lt_succ_iff, Bool.not_eq_true]
  rfl

theorem slotTable_search_disjoint
    {table : SlotTable} {reqlen : Half} {start : Nat}
    (hsearch : table.search reqlen = some start) :
    Disjoint (slotPool.taken table) (PointerSection.slots (start, reqlen)) := by
  have hfits := List.find?_some hsearch
  rw [SlotTable.fits, decide_eq_true_eq] at hfits
  rw [Set.disjoint_left]
  exact fun i hi hin => hfits.2 i hi hin

theorem slotPool_exact : slotPool.Exact where
  refused_iff table reqlen := by
    rw [slotTable_alloc_eq, slotTable_search_eq_none]
  refused table reqlen hnone := by
    rw [slotTable_alloc_eq] at hnone
    rw [slotTable_alloc_taken, hnone]
  found table reqlen start hstart := by
    rw [slotTable_alloc_eq] at hstart
    exact slotTable_search_disjoint hstart
  reserved table reqlen start hstart := by
    rw [slotTable_alloc_eq] at hstart
    rw [slotTable_alloc_taken, hstart]
  released table start length := by
    ext i
    change i ∈ table.reserved.filter _ ↔ _
    rw [List.mem_filter, Bool.not_eq_true', decide_eq_false_iff_not]
    rfl

/-- A free table of 128 slots. -/
def freeSlots : KptrState SlotTable :=
  ⟨⟨128, []⟩, []⟩

theorem freeSlots_kept : SectionsKept slotPool ∅ freeSlots where
  pairwise := List.Pairwise.nil
  apart b hb := (List.not_mem_nil hb).elim
  cover x := by
    change x ∈ [] ↔ x ∈ (∅ : Set Nat) ∨ ∃ b, b ∈ [] ∧ x ∈ PointerSection.slots b
    simp

/-- Two owners get a pointer, and the first one gives it back. -/
def pointersRun : List (KptrOp × KptrState SlotTable) :=
  [(.kptralloc 1, ⟨⟨128, [0]⟩, [(0, 1)]⟩),
    (.kptralloc 1, ⟨⟨128, [1, 0]⟩, [(1, 1), (0, 1)]⟩),
    (.kptrfree 0 1, ⟨⟨128, [1]⟩, [(1, 1)]⟩)]

theorem kptr_sections_iff_pointersRun :
    Always (SectionsKept slotPool ∅) freeSlots pointersRun ∧
      EveryStep (CallRight slotPool) freeSlots pointersRun := by
  refine (kptr_sections_iff slotPool_exact ?_ freeSlots_kept).mpr ?_
  · exact .cons ⟨by decide, rfl⟩ (.cons ⟨by decide, rfl⟩ (.cons ⟨by decide, rfl⟩ (.nil _)))
  · exact ⟨Or.inl rfl, Or.inl rfl, trivial, trivial⟩

/-- `SYS_FMAP` gets a section for its maps, another owner gets a pointer, and `PKILL` gives
the section back. -/
def mapsRun : List (KptrOp × KptrState SlotTable) :=
  [(.kptralloc 64, ⟨⟨128, [0]⟩, [(0, 64)]⟩),
    (.kptralloc 1, ⟨⟨128, [1, 0]⟩, [(1, 1), (0, 64)]⟩),
    (.kptrfree 0 64, ⟨⟨128, []⟩, [(1, 1)]⟩)]

theorem run_mapsRun : Run (KptrStep slotPool) freeSlots mapsRun :=
  .cons ⟨by decide, rfl⟩ (.cons ⟨by decide, rfl⟩ (.cons ⟨by decide, rfl⟩ (.nil _)))

/-- The pointer of the other owner lies in the section of the maps. -/
theorem maps_section_not_kept :
    ¬ ∀ (pool : PointerPool SlotTable) (base : Set Nat) (s : KptrState SlotTable)
        (run : List (KptrOp × KptrState SlotTable)),
      pool.Exact → SectionsKept pool base s → Run (KptrStep pool) s run →
        Always (SectionsKept pool base) s run ∧ EveryStep (CallRight pool) s run := by
  intro hall
  obtain ⟨⟨_, hkept⟩, _⟩ := hall slotPool ∅ freeSlots mapsRun slotPool_exact freeSlots_kept
    run_mapsRun
  have hboth := (hkept _ (List.mem_cons_of_mem _ (List.mem_cons_self ..))).pairwise
  have hapart := (List.pairwise_cons.mp hboth).1 (0, 64) (List.mem_singleton_self _)
  have hpointer : 1 ∈ PointerSection.slots (1, 1) := ⟨by decide, by decide⟩
  have hmaps : 1 ∈ PointerSection.slots (0, 64) := ⟨by decide, by decide⟩
  exact Set.disjoint_left.mp hapart hpointer hmaps

/-- Giving the maps back frees the pointer, which still has an owner. -/
example :
    ∃ s : KptrState SlotTable, (KptrOp.kptrfree 0 64, s) ∈ mapsRun ∧
      ((1, 1) : PointerSection) ∈ s.live ∧ 1 ∉ slotPool.taken s.kptr :=
  ⟨_, List.mem_cons_of_mem _ (List.mem_cons_of_mem _ (List.mem_singleton_self _)),
    List.mem_singleton_self _, List.not_mem_nil⟩

end Examples

end Kontrol
end BestKernel
