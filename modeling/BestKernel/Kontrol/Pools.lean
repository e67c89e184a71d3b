import BestKernel.Kontrol.Hash
import BestKernel.Library.Ledger
import BestKernel.Library.Runs

/-!
# Slot pools over whole runs

What a pool should keep (`PoolKept`): its live sections are disjoint and inside
of it, `ckarray` is nonzero exactly on them, and `count` is the number of its
nonzero bytes.

`alloc` never marks what it hands out, so the first section that a pool hands
out breaks this, and `pool_kept_iff` says that a run is good exactly when
nothing is ever handed out: every request exceeds the length of the pool, and
the slots that a pool of pointers then grows by are unmarked.

`free` has a fault of its own, which such runs do not reach: it clears the slots
up to number `length` instead of `length` slots.  `pool_free_kept_iff` says that
it is right exactly for a section at slot 0.
-/

namespace BestKernel
namespace Kontrol

open Machine

/-- A section that was returned, with its length. -/
abbrev Section := Word × Half

structure PoolState where
  hash : Hash
  mem : ByteMemory
  live : List Section

/-- The calls, with the answers of `malloc` and of the pool of pointers. -/
inductive PoolOp where
  | alloc (reqlen : Half) (tryn : Word)
  | threadAlloc (taken : Word) (reqlen : Half) (tryn : Word)
  | free (sect : Word) (length : Half)
  | realloc (sect : Word) (prevlen newlen : Half) (backup tryn : Word)

/-- The slots of a section. -/
def sectionSlots (h : Hash) (sect : Section) : Set Nat :=
  {i | h.slotOf sect.1 ≤ i ∧ i < h.slotOf sect.1 + sect.2.toNat}

/-- The slots that `ckarray` says are taken. -/
def markedSlots (h : Hash) : Set Nat :=
  {i | i < h.length.toNat ∧ h.ckarray i ≠ 0}

/-- The number of nonzero bytes of `ckarray`. -/
def markedCount (h : Hash) : Nat :=
  (List.range h.length.toNat).countP fun i => h.ckarray i != 0

/-- Book a section that was handed out. -/
def bookSection (live : List Section) (found : Option Word) (length : Half) :
    List Section :=
  match found with
  | some sect => (sect, length) :: live
  | none => live

/-- A request is for one slot at least; what is freed or grown is live. -/
def PoolStep (s : PoolState) (op : PoolOp) (s' : PoolState) : Prop :=
  match op with
  | .alloc reqlen tryn =>
      1 ≤ reqlen.toNat ∧
        s' = ⟨(s.hash.alloc reqlen tryn).2, s.mem,
          bookSection s.live (s.hash.alloc reqlen tryn).1 reqlen⟩
  | .threadAlloc taken reqlen tryn =>
      let result := kingthreadPoolAlloc s.hash s.mem taken reqlen tryn
      1 ≤ reqlen.toNat ∧
        s' = ⟨result.2.1, result.2.2, bookSection s.live result.1 reqlen⟩
  | .free sect length =>
      (sect, length) ∈ s.live ∧
        s' = ⟨(s.hash.free s.mem sect length).1, (s.hash.free s.mem sect length).2,
          s.live.erase (sect, length)⟩
  | .realloc sect prevlen newlen backup tryn =>
      let result := s.hash.realloc s.mem sect prevlen newlen backup tryn
      (sect, prevlen) ∈ s.live ∧
        s' = ⟨result.2.1, result.2.2,
          if result.1 = 0 then
            if backup = 0 then s.live else s.live.erase (sect, prevlen)
          else (result.1, newlen) :: s.live.erase (sect, prevlen)⟩

structure PoolKept (s : PoolState) : Prop where
  exclusive : Ledger.Exclusive (sectionSlots s.hash) ∅ (markedSlots s.hash) s.live
  inside : ∀ b, b ∈ s.live →
    sectionSlots s.hash b ⊆ {i | i < s.hash.length.toNat}
  count : s.hash.count.toNat = markedCount s.hash

/-- The request exceeds the pool, and what the pool grows by is unmarked. -/
def Refused (h : Hash) (reqlen : Half) (tryn : Word) : Prop :=
  h.length.toNat < reqlen.toNat ∧
    (h.type = .DOUBLE_POINTER → tryn ≠ 0 →
      ∀ i, h.length.toNat ≤ i → i < (h.length + reqlen).toNat → h.ckarray i = 0)

/-- The condition on a step.  Frees and reallocations need a live section, and
there is none as long as every request is refused. -/
def PoolSafe (s : PoolState) : PoolOp → Prop
  | .alloc reqlen tryn => Refused s.hash reqlen tryn
  | .threadAlloc _ reqlen tryn => Refused s.hash reqlen tryn
  | .free _ _ => True
  | .realloc _ _ _ _ _ => True

theorem markedCount_eq_zero
    {h : Hash} :
    markedCount h = 0 ↔ markedSlots h = ∅ := by
  rw [markedCount, List.countP_eq_zero, Set.eq_empty_iff_forall_notMem]
  simp [markedSlots]

/-- Without live sections a pool is kept when nothing is marked or counted. -/
theorem poolKept_nil_iff
    {h : Hash} {mem : ByteMemory} :
    PoolKept ⟨h, mem, []⟩ ↔ markedSlots h = ∅ ∧ h.count = 0 := by
  constructor
  · rintro ⟨hexclusive, _, hcount⟩
    have hnone : markedSlots h = ∅ := by
      rw [Set.eq_empty_iff_forall_notMem]
      intro i hi
      rcases (hexclusive.cover i).mp hi with hbase | ⟨b, hb, _⟩
      · exact hbase
      · exact (List.not_mem_nil hb).elim
    rw [markedCount_eq_zero.mpr hnone] at hcount
    exact ⟨hnone, BitVec.eq_of_toNat_eq hcount⟩
  · rintro ⟨hnone, hcount⟩
    refine ⟨⟨List.Pairwise.nil, fun b hb => (List.not_mem_nil hb).elim, ?_⟩,
      fun b hb => (List.not_mem_nil hb).elim, ?_⟩
    · intro i
      rw [hnone]
      simp
    · rw [markedCount_eq_zero.mpr hnone]
      exact congrArg BitVec.toNat hcount

/-- A pool that hands out a first section is not kept: nothing marks it. -/
theorem not_poolKept_singleton
    {h : Hash} {mem : ByteMemory} {sect : Section}
    (hnone : markedSlots h = ∅)
    (hlength : 1 ≤ sect.2.toNat) :
    ¬ PoolKept ⟨h, mem, [sect]⟩ := by
  rintro ⟨hexclusive, _, _⟩
  have hmem : h.slotOf sect.1 ∈ sectionSlots h sect := by
    refine ⟨Nat.le_refl _, ?_⟩
    omega
  have hmarked := (hexclusive.cover _).mpr (Or.inr ⟨sect, by simp, hmem⟩)
  change h.slotOf sect.1 ∈ markedSlots h at hmarked
  rw [hnone] at hmarked
  exact hmarked

theorem markedSlots_eq_empty
    {h : Hash} :
    markedSlots h = ∅ ↔ ∀ i, i < h.length.toNat → h.ckarray i = 0 := by
  rw [Set.eq_empty_iff_forall_notMem]
  simp [markedSlots]

/-- A request to a pool that has handed out nothing. -/
theorem poolKept_alloc_iff
    {h : Hash} {mem mem' : ByteMemory} {reqlen : Half} {tryn : Word}
    (hkept : PoolKept ⟨h, mem, []⟩)
    (hreq : 1 ≤ reqlen.toNat) :
    PoolKept ⟨(h.alloc reqlen tryn).2, mem',
        bookSection [] (h.alloc reqlen tryn).1 reqlen⟩ ↔
      Refused h reqlen tryn := by
  obtain ⟨hnone, hcount⟩ := poolKept_nil_iff.mp hkept
  have hfree := markedSlots_eq_empty.mp hnone
  have hloop := Hash.allocLoop_empty hfree hreq
  unfold Hash.alloc Refused
  cases hfound : Hash.allocLoop h.ckarray reqlen h.length.toNat 0 0 with
  | some i =>
      have hserved : ¬ h.length.toNat < reqlen.toNat := by
        rw [← hloop, hfound]
        simp
      have hbroken : ¬ PoolKept ⟨{ h with count := h.count + reqlen }, mem',
          [(h.pool + 8#64 * BitVec.ofNat 64 i, reqlen)]⟩ :=
        not_poolKept_singleton hnone hreq
      exact ⟨fun hk => absurd hk hbroken, fun hr => absurd hr.1 hserved⟩
  | none =>
      have hlt := hloop.mp hfound
      dsimp only
      split_ifs with hgrow
      · rw [bookSection, poolKept_nil_iff, markedSlots_eq_empty]
        constructor
        · rintro ⟨hfree', _⟩
          exact ⟨hlt, fun _ _ i _ hi => hfree' i hi⟩
        · rintro ⟨_, hrest⟩
          refine ⟨fun i hi => ?_, hcount⟩
          by_cases hold : i < h.length.toNat
          · exact hfree i hold
          · exact hrest hgrow.1 hgrow.2 i (by omega) hi
      · rw [bookSection, poolKept_nil_iff]
        refine ⟨fun _ => ⟨hlt, fun htype htryn => absurd ⟨htype, htryn⟩ hgrow⟩,
          fun _ => ⟨hnone, hcount⟩⟩

theorem alloc_fst_of_refused
    {h : Hash} {mem : ByteMemory} {reqlen : Half} {tryn : Word}
    (hkept : PoolKept ⟨h, mem, []⟩)
    (hreq : 1 ≤ reqlen.toNat)
    (hrefused : Refused h reqlen tryn) :
    (h.alloc reqlen tryn).1 = none := by
  have hfree := markedSlots_eq_empty.mp (poolKept_nil_iff.mp hkept).1
  have hloop := (Hash.allocLoop_empty hfree hreq).mpr hrefused.1
  unfold Hash.alloc
  rw [hloop]
  dsimp only
  split_ifs <;> rfl

/-- The steps that keep a pool without live sections. -/
theorem poolStep_kept_iff
    {s s' : PoolState} {op : PoolOp}
    (hlive : s.live = [])
    (hkept : PoolKept s)
    (hstep : PoolStep s op s') :
    PoolKept s' ↔ PoolSafe s op := by
  obtain ⟨h, mem, live⟩ := s
  obtain rfl : live = [] := hlive
  cases op with
  | alloc reqlen tryn =>
      obtain ⟨hreq, rfl⟩ := hstep
      exact poolKept_alloc_iff hkept hreq
  | threadAlloc taken reqlen tryn =>
      obtain ⟨hreq, rfl⟩ := hstep
      exact poolKept_alloc_iff hkept hreq
  | free sect length => exact (List.not_mem_nil hstep.1).elim
  | realloc sect prevlen newlen backup tryn => exact (List.not_mem_nil hstep.1).elim

theorem poolStep_live
    {s s' : PoolState} {op : PoolOp}
    (hlive : s.live = [])
    (hkept : PoolKept s)
    (hsafe : PoolSafe s op)
    (hstep : PoolStep s op s') :
    s'.live = [] := by
  obtain ⟨h, mem, live⟩ := s
  obtain rfl : live = [] := hlive
  cases op with
  | alloc reqlen tryn =>
      obtain ⟨hreq, rfl⟩ := hstep
      change bookSection [] (h.alloc reqlen tryn).1 reqlen = []
      rw [alloc_fst_of_refused hkept hreq hsafe, bookSection]
  | threadAlloc taken reqlen tryn =>
      obtain ⟨hreq, rfl⟩ := hstep
      change bookSection [] (h.alloc reqlen tryn).1 reqlen = []
      rw [alloc_fst_of_refused hkept hreq hsafe, bookSection]
  | free sect length => exact (List.not_mem_nil hstep.1).elim
  | realloc sect prevlen newlen backup tryn => exact (List.not_mem_nil hstep.1).elim

/--
**A pool is kept along a run exactly when it refuses every request and what it
grows by is unmarked.**
-/
theorem pool_kept_iff
    {h : Hash} {mem : ByteMemory} {run : List (PoolOp × PoolState)}
    (hfresh : ∀ i, i < h.length.toNat → h.ckarray i = 0)
    (hcount : h.count = 0)
    (hrun : Runs.Run PoolStep ⟨h, mem, []⟩ run) :
    Runs.Always PoolKept ⟨h, mem, []⟩ run ↔
      Runs.StepsMeet PoolSafe ⟨h, mem, []⟩ run := by
  have hstart : PoolKept ⟨h, mem, []⟩ :=
    poolKept_nil_iff.mpr ⟨markedSlots_eq_empty.mpr hfresh, hcount⟩
  have hinv : ∀ s op s', s.live = [] → PoolKept s → PoolStep s op s' → PoolKept s' →
      s'.live = [] :=
    fun _ _ _ hlive hkept hstep hkept' =>
      poolStep_live hlive hkept ((poolStep_kept_iff hlive hkept hstep).mp hkept') hstep
  have hexact : ∀ s op s', s.live = [] → PoolKept s → PoolStep s op s' →
      (PoolKept s' ↔ PoolSafe s op) :=
    fun _ _ _ hlive hkept hstep => poolStep_kept_iff hlive hkept hstep
  exact Runs.always_iff_stepsMeet_of_invariant hinv hexact hrun rfl hstart

section Free

variable {s : PoolState} {sect : Word} {length : Half}

/-- What `free` leaves marked. -/
theorem markedSlots_free (mem : ByteMemory) :
    markedSlots (s.hash.free mem sect length).1 =
      markedSlots s.hash \ {i | s.hash.slotOf sect ≤ i ∧ i < length.toNat} := by
  ext i
  change i < s.hash.length.toNat ∧ (s.hash.free mem sect length).1.ckarray i ≠ 0 ↔
    (i < s.hash.length.toNat ∧ s.hash.ckarray i ≠ 0) ∧
      ¬ (s.hash.slotOf sect ≤ i ∧ i < length.toNat)
  rw [Hash.free_ckarray]
  split_ifs with hcleared
  · simp [hcleared]
  · simp [hcleared]

/-- Unmarking the first slots takes them off the count. -/
theorem markedCount_sub
    {h h' : Hash} {n : Nat}
    (hlength : h'.length = h.length)
    (hn : n ≤ h.length.toNat)
    (hmarked : ∀ i, i < n → h.ckarray i ≠ 0)
    (hcleared : ∀ i, h'.ckarray i = if i < n then 0 else h.ckarray i) :
    markedCount h' + n = markedCount h := by
  obtain ⟨rest, hrest⟩ := Nat.exists_eq_add_of_le hn
  have hfirst : (List.range n).countP (fun i => h.ckarray i != 0) = n := by
    rw [List.countP_eq_length.mpr, List.length_range]
    intro i hi
    simpa using hmarked i (List.mem_range.mp hi)
  have hfirst' : (List.range n).countP (fun i => h'.ckarray i != 0) = 0 := by
    rw [List.countP_eq_zero]
    intro i hi
    simp [hcleared, List.mem_range.mp hi]
  have hrest' : ((List.range rest).map (n + ·)).countP (fun i => h'.ckarray i != 0) =
      ((List.range rest).map (n + ·)).countP (fun i => h.ckarray i != 0) := by
    apply List.countP_congr
    intro i hi
    obtain ⟨j, _, rfl⟩ := List.mem_map.mp hi
    simp [hcleared]
  rw [markedCount, markedCount, hlength, hrest, List.range_add, List.countP_append,
    List.countP_append, hfirst, hfirst', hrest']
  omega

/-- The last slot of a section that starts later stays marked. -/
theorem markedSlots_free_ne
    (hsub : sectionSlots s.hash (sect, length) ⊆ markedSlots s.hash)
    (hlength : 1 ≤ length.toNat)
    (hslot : s.hash.slotOf sect ≠ 0) :
    markedSlots (s.hash.free s.mem sect length).1 ≠
      markedSlots s.hash \ sectionSlots s.hash (sect, length) := by
  intro hmarks
  have hlast : s.hash.slotOf sect + length.toNat - 1 ∈
      sectionSlots s.hash (sect, length) := by
    refine ⟨?_, ?_⟩ <;> dsimp only <;> omega
  have hstays : s.hash.slotOf sect + length.toNat - 1 ∈
      markedSlots (s.hash.free s.mem sect length).1 := by
    rw [markedSlots_free]
    refine ⟨hsub hlast, ?_⟩
    rintro ⟨_, hlt⟩
    omega
  rw [hmarks] at hstays
  exact hstays.2 hlast

/-- A section at slot 0 is taken off the count. -/
theorem markedCount_free
    (hslot : s.hash.slotOf sect = 0)
    (hmarked : {i | i < length.toNat} ⊆ markedSlots s.hash)
    (hlength : 1 ≤ length.toNat) :
    markedCount (s.hash.free s.mem sect length).1 + length.toNat = markedCount s.hash := by
  have hlast : length.toNat - 1 < s.hash.length.toNat :=
    (hmarked (show length.toNat - 1 < length.toNat by omega)).1
  refine markedCount_sub rfl (by omega) (fun i hi => (hmarked hi).2) fun i => ?_
  rw [Hash.free_ckarray, hslot]
  simp

/-- **A section is freed correctly exactly when it starts at slot 0.** -/
theorem pool_free_kept_iff
    (hkept : PoolKept s)
    (hlive : (sect, length) ∈ s.live)
    (hlength : 1 ≤ length.toNat) :
    PoolKept ⟨(s.hash.free s.mem sect length).1, (s.hash.free s.mem sect length).2,
        s.live.erase (sect, length)⟩ ↔
      s.hash.slotOf sect = 0 := by
  have hslots := hkept.exclusive.subset_marked hlive
  have hcons := hkept.exclusive.perm (List.perm_cons_erase hlive)
  have hrelease :
      Ledger.Exclusive (sectionSlots s.hash) ∅
          (markedSlots (s.hash.free s.mem sect length).1) (s.live.erase (sect, length)) ↔
        markedSlots (s.hash.free s.mem sect length).1 =
          markedSlots s.hash \ sectionSlots s.hash (sect, length) :=
    Ledger.release_iff hcons
  constructor
  · rintro ⟨hexclusive, _, _⟩
    by_contra hslot
    exact markedSlots_free_ne hslots hlength hslot (hrelease.mp hexclusive)
  · intro hslot
    have hsection : sectionSlots s.hash (sect, length) = {i | i < length.toNat} := by
      ext i
      simp [sectionSlots, hslot]
    rw [hsection] at hslots
    have hcount := markedCount_free hslot hslots hlength
    refine ⟨hrelease.mpr ?_, ?_, ?_⟩
    · rw [markedSlots_free, hsection, hslot]
      simp
    · exact fun b hb => hkept.inside b (List.mem_of_mem_erase hb)
    · have hold := hkept.count
      change (s.hash.count - length).toNat =
        markedCount (s.hash.free s.mem sect length).1
      rw [BitVec.toNat_sub_of_le (by rw [BitVec.le_def]; omega)]
      omega

end Free

section Examples

/-- A fresh pool of four slots of eight bytes. -/
def freshPool : Hash where
  type := .POINTER
  length := 4
  count := 0
  ckarray := fun _ => 0
  pool := 4096#64
  stride := 8#64

theorem freshPool_alloc_one :
    (freshPool.alloc 1 0).1 = some 4096#64 ∧
      markedSlots (freshPool.alloc 1 0).2 = ∅ := by
  refine ⟨by decide, ?_⟩
  rw [markedSlots_eq_empty]
  exact fun _ _ => rfl

/-- A request for one slot of it. -/
def servedRun : List (PoolOp × PoolState) :=
  [(.alloc 1 0, ⟨(freshPool.alloc 1 0).2, fun _ => 0, [(4096#64, 1)]⟩)]

/-- The slot handed out is not marked. -/
theorem servedRun_not_kept :
    Runs.Run PoolStep ⟨freshPool, fun _ => 0, []⟩ servedRun ∧
      ¬ Runs.Always PoolKept ⟨freshPool, fun _ => 0, []⟩ servedRun := by
  refine ⟨.cons ⟨by decide, ?_⟩ (.nil _), ?_⟩
  · rw [freshPool_alloc_one.1]
    rfl
  · rintro ⟨_, hall⟩
    exact not_poolKept_singleton freshPool_alloc_one.2 (by decide)
      (hall _ (List.mem_singleton_self _))

/-- A request for more slots than it has. -/
def refusedRun : List (PoolOp × PoolState) :=
  [(.alloc 5 0, ⟨freshPool, fun _ => 0, []⟩)]

theorem run_refusedRun :
    Runs.Run PoolStep ⟨freshPool, fun _ => 0, []⟩ refusedRun :=
  .cons ⟨by decide, rfl⟩ (.nil _)

theorem pool_kept_iff_refusedRun :
    Runs.Always PoolKept ⟨freshPool, fun _ => 0, []⟩ refusedRun ↔
      Runs.StepsMeet PoolSafe ⟨freshPool, fun _ => 0, []⟩ refusedRun :=
  pool_kept_iff (fun _ _ => rfl) rfl run_refusedRun

end Examples

end Kontrol
end BestKernel
