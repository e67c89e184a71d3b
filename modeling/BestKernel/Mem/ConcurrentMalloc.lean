import BestKernel.Library.Runs
import BestKernel.Mem.FrameRuns

/-!
# `malloc` on several processors

`malloc` searches for frames and marks them, and each of the two takes the calendar of the
memory for itself.  Here any number of processors take these steps in any order, with a
search and a marking that are right by themselves: `FrameCalls.Correct`.

Between its search and its marking a processor relies on frames that the table shows as
free.  `malloc_disjoint_of_alone` says that results are apart when no other processor
searches in between; `searched_twice` says what happens when one does.

A release clears frames in one step and takes no calendar.  `returned` are the results
since the last release.
-/

namespace BestKernel
namespace Mem

open Machine
open Runs

/-- The calls on the frames: `get_free_identity` and `manipulate_phys`, for `SET` and for
`CLEAR`. -/
structure FrameCalls where
  getFreeIdentity : RamTable → Half → Nat → Word
  set : RamTable → Word → Half → Nat → RamTable
  clear : RamTable → Word → Half → Nat → RamTable

/-- What is found is free, and what is marked is used. -/
structure FrameCalls.Correct (calls : FrameCalls) : Prop where
  found : ∀ table pages_number pagetype,
    calls.getFreeIdentity table pages_number pagetype ≠ 0 →
      Disjoint (pageFrames (calls.getFreeIdentity table pages_number pagetype) pages_number
        pagetype) (usedFrames table)
  marked : ∀ table phys pages_number pagetype,
    usedFrames (calls.set table phys pages_number pagetype) =
      usedFrames table ∪ pageFrames phys pages_number pagetype

/-- What a search has found: `ret` is 0 for failure. -/
structure Found where
  ret : Word
  pages_number : Half
  pagetype : Nat

def Found.frames (c : Found) : Set Nat :=
  pageFrames c.ret c.pages_number c.pagetype

/-- The table, what each processor has found and not yet marked, and the results. -/
structure MallocState (Processor : Type) where
  table : RamTable
  pending : Processor → Option Found
  returned : List Found

/-- The two steps of a `malloc`, and a release. -/
inductive MallocOp (Processor : Type) where
  | search (p : Processor) (pages_number : Half) (pagetype : Nat)
  | mark (p : Processor)
  | mfree (pointer : Word) (pages_number : Half) (pagetype : Nat)

/-- No processor is in a `malloc`. -/
def MallocState.start {Processor : Type} (table : RamTable) : MallocState Processor :=
  ⟨table, fun _ => none, []⟩

section Steps

variable {Processor : Type} [DecidableEq Processor] (calls : FrameCalls)

/-- `mm->get_free_identity(pages_number,pagetype)` -/
def MallocState.searched (s : MallocState Processor) (p : Processor) (pages_number : Half)
    (pagetype : Nat) : MallocState Processor :=
  { s with
    pending := Function.update s.pending p
      (some ⟨calls.getFreeIdentity s.table pages_number pagetype, pages_number, pagetype⟩) }

/-- `mm->manipulate_phys(ret,pages_number,pagetype,SET)`, and the return. -/
def MallocState.markedBy (s : MallocState Processor) (p : Processor) (c : Found) :
    MallocState Processor where
  table := calls.set s.table c.ret c.pages_number c.pagetype
  pending := Function.update s.pending p none
  returned := if c.ret = 0 then s.returned else c :: s.returned

def MallocStep (s : MallocState Processor) (op : MallocOp Processor)
    (s' : MallocState Processor) : Prop :=
  match op with
  | .search p pages_number pagetype =>
      s.pending p = none ∧ s' = s.searched calls p pages_number pagetype
  | .mark p => ∃ c, s.pending p = some c ∧ s' = s.markedBy calls p c
  | .mfree pointer pages_number pagetype =>
      s' = { s with
        table := calls.clear s.table pointer pages_number pagetype
        returned := [] }

end Steps

section Properties

variable {Processor : Type}

/-- The results share no frame. -/
def ReturnedDisjoint (s : MallocState Processor) : Prop :=
  s.returned.Pairwise fun c d => Disjoint c.frames d.frames

/-- When a processor searches, no other one has found frames that it has not marked. -/
def SearchesAlone (s : MallocState Processor) (op : MallocOp Processor) : Prop :=
  match op with
  | .search p _ _ => ∀ q c, q ≠ p → s.pending q = some c → c.ret = 0
  | _ => True

/-- What holds while processors search alone. -/
structure Reserved (s : MallocState Processor) : Prop where
  disjoint : ReturnedDisjoint s
  marked : ∀ c, c ∈ s.returned → c.frames ⊆ usedFrames s.table
  apart : ∀ p c d, s.pending p = some c → c.ret ≠ 0 → d ∈ s.returned →
    Disjoint c.frames d.frames
  alone : ∀ p q c d, s.pending p = some c → s.pending q = some d → c.ret ≠ 0 → d.ret ≠ 0 → p = q

end Properties

section Pending

variable {Processor : Type} [DecidableEq Processor] (calls : FrameCalls)
  (s : MallocState Processor) {p q : Processor} (pages_number : Half) (pagetype : Nat) (c : Found)

@[simp] theorem searched_pending_self :
    (s.searched calls p pages_number pagetype).pending p =
      some ⟨calls.getFreeIdentity s.table pages_number pagetype, pages_number, pagetype⟩ :=
  Function.update_self _ _ _

@[simp] theorem searched_pending_of_ne
    (hq : q ≠ p) :
    (s.searched calls p pages_number pagetype).pending q = s.pending q :=
  Function.update_of_ne hq _ _

@[simp] theorem markedBy_pending_self :
    (s.markedBy calls p c).pending p = none :=
  Function.update_self _ _ _

@[simp] theorem markedBy_pending_of_ne
    (hq : q ≠ p) :
    (s.markedBy calls p c).pending q = s.pending q :=
  Function.update_of_ne hq _ _

end Pending

theorem reserved_start
    {Processor : Type} (table : RamTable) :
    Reserved (MallocState.start table : MallocState Processor) := by
  constructor
  · exact List.Pairwise.nil
  · intro c hc
    cases hc
  · intro p c d hp
    cases hp
  · intro p q c d hp
    cases hp

section Alone

variable {Processor : Type} [DecidableEq Processor] {calls : FrameCalls}
  {s s' : MallocState Processor}

/-- A search finds nothing that has been returned. -/
theorem Reserved.searched
    (hcorrect : calls.Correct)
    (h : Reserved s)
    {p : Processor} {pages_number : Half} {pagetype : Nat}
    (halone : SearchesAlone s (.search p pages_number pagetype)) :
    Reserved (s.searched calls p pages_number pagetype) := by
  have hother : ∀ {q c}, q ≠ p →
      (s.searched calls p pages_number pagetype).pending q = some c → s.pending q = some c := by
    intro q c hq hc
    rwa [searched_pending_of_ne calls s _ _ hq] at hc
  have hself : ∀ {c}, (s.searched calls p pages_number pagetype).pending p = some c →
      c = ⟨calls.getFreeIdentity s.table pages_number pagetype, pages_number, pagetype⟩ := by
    intro c hc
    rw [searched_pending_self] at hc
    exact (Option.some.inj hc).symm
  refine ⟨h.disjoint, h.marked, fun q c d hc hne hd => ?_, fun q r c d hc hd hcne hdne => ?_⟩
  · by_cases hq : q = p
    · subst hq
      rw [hself hc] at hne ⊢
      exact (hcorrect.found s.table pages_number pagetype hne).mono_right (h.marked d hd)
    · exact h.apart q c d (hother hq hc) hne hd
  · by_cases hq : q = p <;> by_cases hr : r = p
    · rw [hq, hr]
    · exact absurd (halone r d hr (hother hr hd)) hdne
    · exact absurd (halone q c hq (hother hq hc)) hcne
    · exact h.alone q r c d (hother hq hc) (hother hr hd) hcne hdne

/-- What is marked joins the results, apart from them. -/
theorem Reserved.markedBy
    (hcorrect : calls.Correct)
    (h : Reserved s)
    {p : Processor} {c : Found}
    (hpending : s.pending p = some c) :
    Reserved (s.markedBy calls p c) := by
  have hother : ∀ {q d}, (s.markedBy calls p c).pending q = some d →
      q ≠ p ∧ s.pending q = some d := by
    intro q d hd
    by_cases hq : q = p
    · rw [hq, markedBy_pending_self] at hd
      cases hd
    · rw [markedBy_pending_of_ne calls s c hq] at hd
      exact ⟨hq, hd⟩
  have hgrows : usedFrames (s.markedBy calls p c).table = usedFrames s.table ∪ c.frames :=
    hcorrect.marked s.table c.ret c.pages_number c.pagetype
  have halone : ∀ q r d e, (s.markedBy calls p c).pending q = some d →
      (s.markedBy calls p c).pending r = some e → d.ret ≠ 0 → e.ret ≠ 0 → q = r :=
    fun q r d e hd he => h.alone q r d e (hother hd).2 (hother he).2
  by_cases hret : c.ret = 0
  · have hsame : (s.markedBy calls p c).returned = s.returned := if_pos hret
    refine ⟨?_, fun d hd => ?_, fun q d e hd hne he => ?_, halone⟩
    · rw [ReturnedDisjoint, hsame]
      exact h.disjoint
    · rw [hsame] at hd
      rw [hgrows]
      exact (h.marked d hd).trans Set.subset_union_left
    · rw [hsame] at he
      exact h.apart q d e (hother hd).2 hne he
  · have hmore : (s.markedBy calls p c).returned = c :: s.returned := if_neg hret
    refine ⟨?_, fun d hd => ?_, fun q d e hd hne he => ?_, halone⟩
    · rw [ReturnedDisjoint, hmore]
      exact List.Pairwise.cons (fun d hd => h.apart p c d hpending hret hd) h.disjoint
    · rw [hmore] at hd
      rw [hgrows]
      rcases List.mem_cons.mp hd with rfl | hd
      · exact Set.subset_union_right
      · exact (h.marked d hd).trans Set.subset_union_left
    · -- the one processor with frames in hand was `p`
      obtain ⟨hq, hd⟩ := hother hd
      exact absurd (h.alone q p d c hd hpending hne hret) hq

theorem mallocStep_reserved
    (hcorrect : calls.Correct)
    {op : MallocOp Processor}
    (h : Reserved s)
    (halone : SearchesAlone s op)
    (hstep : MallocStep calls s op s') :
    Reserved s' := by
  cases op with
  | search p pages_number pagetype =>
      obtain ⟨-, rfl⟩ := hstep
      exact h.searched hcorrect halone
  | mark p =>
      obtain ⟨c, hpending, rfl⟩ := hstep
      exact h.markedBy hcorrect hpending
  | mfree pointer pages_number pagetype =>
      obtain rfl := hstep
      refine ⟨List.Pairwise.nil, ?_, ?_, h.alone⟩
      · intro c hc
        cases hc
      · intro p c d _ _ hd
        cases hd

/-- **Results share no frame in a run in which processors search alone.** -/
theorem malloc_disjoint_of_alone
    (hcorrect : calls.Correct)
    {table : RamTable} {run : List (MallocOp Processor × MallocState Processor)}
    (hrun : Run (MallocStep calls) (MallocState.start table) run)
    (halone : StepsMeet SearchesAlone (MallocState.start table) run) :
    Always ReturnedDisjoint (MallocState.start table) run := by
  have hkeep : ∀ (s : MallocState Processor) op s', Reserved s → SearchesAlone s op →
      MallocStep calls s op s' → Reserved s' :=
    fun _ _ _ h halone hstep => mallocStep_reserved hcorrect h halone hstep
  exact (always_of_stepsMeet hkeep hrun (reserved_start table) halone).mono fun _ h => h.disjoint

end Alone

section Together

variable {Processor : Type} [DecidableEq Processor] (calls : FrameCalls)

/-- Two processors search before either marks. -/
def raceRun (s : MallocState Processor) (p q : Processor) (pages_number : Half)
    (pagetype : Nat) : List (MallocOp Processor × MallocState Processor) :=
  let c : Found := ⟨calls.getFreeIdentity s.table pages_number pagetype, pages_number, pagetype⟩
  let first := s.searched calls p pages_number pagetype
  let second := first.searched calls q pages_number pagetype
  let third := second.markedBy calls p c
  [(.search p pages_number pagetype, first), (.search q pages_number pagetype, second),
    (.mark p, third), (.mark q, third.markedBy calls q c)]

variable {calls} {s : MallocState Processor} {p q : Processor} {pages_number : Half}
  {pagetype : Nat}

theorem run_raceRun
    (hpq : p ≠ q)
    (hp : s.pending p = none)
    (hq : s.pending q = none) :
    Run (MallocStep calls) s (raceRun calls s p q pages_number pagetype) := by
  refine .cons ⟨hp, rfl⟩ (.cons ⟨?_, rfl⟩ (.cons ⟨_, ?_, rfl⟩ (.cons ⟨_, ?_, rfl⟩ (.nil _))))
  · rw [searched_pending_of_ne calls s _ _ hpq.symm, hq]
  · rw [searched_pending_of_ne calls _ _ _ hpq, searched_pending_self]
  · rw [markedBy_pending_of_ne calls _ _ hpq.symm, searched_pending_self]
    rfl

/-- A section of some pages has a frame. -/
theorem Found.frames_nonempty
    {c : Found}
    (hpages : c.pages_number ≠ 0) :
    c.frames.Nonempty := by
  refine ⟨c.ret.toNat / 4096, Nat.le_refl _, ?_⟩
  have hpos : 0 < c.pages_number.toNat := BitVec.toNat_pos_of_ne_zero hpages
  have hframes : 0 < getMultiFromPagetype c.pagetype / 4096 := by
    unfold getMultiFromPagetype
    split_ifs <;> decide
  exact Nat.lt_add_of_pos_right (Nat.mul_pos hpos hframes)

/-- **Two processors that search before either marks return the same frames**, whatever
the search finds. -/
theorem searched_twice
    (hret : calls.getFreeIdentity s.table pages_number pagetype ≠ 0)
    (hpages : pages_number ≠ 0) :
    ¬ Always ReturnedDisjoint s (raceRun calls s p q pages_number pagetype) := by
  intro halways
  have hlast := halways.2 _ (List.mem_cons_of_mem _ (List.mem_cons_of_mem _
    (List.mem_cons_of_mem _ (List.mem_singleton.mpr rfl))))
  have hreturned : ∀ (t : MallocState Processor) (r : Processor) (c : Found), c.ret ≠ 0 →
      (t.markedBy calls r c).returned = c :: t.returned :=
    fun t r c hc => if_neg hc
  rw [ReturnedDisjoint, hreturned _ _ _ hret, hreturned _ _ _ hret] at hlast
  have hself := (List.pairwise_cons.mp hlast).1 _ (List.mem_cons_self ..)
  obtain ⟨n, hn⟩ := Found.frames_nonempty (c := ⟨_, pages_number, pagetype⟩) hpages
  exact Set.disjoint_left.mp hself hn hn

end Together

section Examples

/-- `length` frames from `a` on are free. -/
def fitsAt (table : RamTable) (length a : Nat) : Bool :=
  decide (∀ n, n < length → (table ((a + n) / 8)).getLsbD ((a + n) % 8) = false)

/-- The first of the frames below 1024 from which on the pages are free. -/
def firstFit (table : RamTable) (pages_number : Half) (pagetype : Nat) : Word :=
  match (List.range' 1 1023).find?
      (fitsAt table (pages_number.toNat * (getMultiFromPagetype pagetype / 4096))) with
  | some a => BitVec.ofNat 64 (4096 * a)
  | none => 0

/-- The bits of a byte that a property selects. -/
def byteOf (f : Nat → Bool) : Byte :=
  (BitVec.ofBoolListLE ((List.range 8).map f)).setWidth 8

theorem byteOf_getLsbD
    (f : Nat → Bool) {i : Nat}
    (hi : i < 8) :
    (byteOf f).getLsbD i = f i := by
  rw [byteOf, BitVec.getLsbD_setWidth, BitVec.getLsbD_ofBoolListLE, List.getD_eq_getElem?_getD,
    List.getElem?_map, List.getElem?_range hi]
  simp [hi]

/-- The pages are set in the table. -/
def setFrames (table : RamTable) (phys : Word) (pages_number : Half) (pagetype : Nat) :
    RamTable :=
  fun index => table index ||| byteOf fun j =>
    decide (phys.toNat / 4096 ≤ 8 * index + j) &&
      decide (8 * index + j <
        phys.toNat / 4096 + pages_number.toNat * (getMultiFromPagetype pagetype / 4096))

/-- Calls that do what they should. -/
def firstFitCalls : FrameCalls := ⟨firstFit, setFrames, fun table _ _ _ => table⟩

/-- What `firstFit` finds is free. -/
theorem firstFit_free
    {table : RamTable} {pages_number : Half} {pagetype : Nat}
    (hret : firstFit table pages_number pagetype ≠ 0) :
    Disjoint (pageFrames (firstFit table pages_number pagetype) pages_number pagetype)
      (usedFrames table) := by
  unfold firstFit at hret ⊢
  cases hfind : (List.range' 1 1023).find?
      (fitsAt table (pages_number.toNat * (getMultiFromPagetype pagetype / 4096))) with
  | none =>
      rw [hfind] at hret
      exact absurd rfl hret
  | some a =>
      have hfits := List.find?_some hfind
      rw [fitsAt, decide_eq_true_eq] at hfits
      have hlt : a < 1024 := by
        have hmem := List.mem_of_find?_eq_some hfind
        rw [List.mem_range'_1] at hmem
        omega
      rw [Set.disjoint_left]
      rintro n ⟨hlow, hhigh⟩ hused
      have haddress : (BitVec.ofNat 64 (4096 * a)).toNat / 4096 = a := by
        rw [BitVec.toNat_ofNat]
        omega
      simp only [haddress] at hlow hhigh
      have hbit := hfits (n - a) (by omega)
      rw [Nat.add_sub_cancel' hlow] at hbit
      exact absurd hused (by rw [usedFrames, Set.mem_ofPred_eq, hbit]; decide)

theorem setFrames_used
    (table : RamTable) (phys : Word) (pages_number : Half) (pagetype : Nat) :
    usedFrames (setFrames table phys pages_number pagetype) =
      usedFrames table ∪ pageFrames phys pages_number pagetype := by
  ext n
  have hbit : n % 8 < 8 := Nat.mod_lt _ (by decide)
  have hframe : 8 * (n / 8) + n % 8 = n := Nat.div_add_mod n 8
  unfold usedFrames setFrames pageFrames
  simp only [Set.mem_union, Set.mem_ofPred_eq, BitVec.getLsbD_or, byteOf_getLsbD _ hbit, hframe,
    Bool.or_eq_true, Bool.and_eq_true, decide_eq_true_eq]

theorem firstFitCalls_correct : firstFitCalls.Correct :=
  ⟨fun _ _ _ => firstFit_free, setFrames_used⟩

/-- An empty memory, seen by two processors. -/
def emptyStart : MallocState (Fin 2) := MallocState.start fun _ => 0

theorem firstFit_empty : firstFit emptyStart.table 1 Pag.SMALLPAGE = 4096 := by decide

/-- The two allocate a page each, one after the other. -/
def turnsRun : List (MallocOp (Fin 2) × MallocState (Fin 2)) :=
  let found (s : MallocState (Fin 2)) : Found :=
    ⟨firstFit s.table 1 Pag.SMALLPAGE, 1, Pag.SMALLPAGE⟩
  let first := emptyStart.searched firstFitCalls 0 1 Pag.SMALLPAGE
  let second := first.markedBy firstFitCalls 0 (found emptyStart)
  let third := second.searched firstFitCalls 1 1 Pag.SMALLPAGE
  [(.search 0 1 Pag.SMALLPAGE, first), (.mark 0, second), (.search 1 1 Pag.SMALLPAGE, third),
    (.mark 1, third.markedBy firstFitCalls 1 (found second))]

theorem malloc_disjoint_of_alone_turns :
    Always ReturnedDisjoint emptyStart turnsRun := by
  refine malloc_disjoint_of_alone firstFitCalls_correct ?_ ?_
  · exact .cons ⟨rfl, rfl⟩ (.cons ⟨_, rfl, rfl⟩ (.cons ⟨rfl, rfl⟩ (.cons ⟨_, rfl, rfl⟩ (.nil _))))
  · refine ⟨?_, trivial, ?_, trivial, trivial⟩
    · intro q c _ hc
      cases hc
    · -- the first of them has marked what it found
      intro q c hq hc
      obtain rfl : q = 0 := by omega
      cases hc

/-- Both of them get the page at 4096. -/
theorem race_not_disjoint :
    ¬ ∀ (calls : FrameCalls) (table : RamTable)
        (run : List (MallocOp (Fin 2) × MallocState (Fin 2))),
      calls.Correct → Run (MallocStep calls) (MallocState.start table) run →
        Always ReturnedDisjoint (MallocState.start table) run := by
  intro hall
  have hret : firstFitCalls.getFreeIdentity emptyStart.table 1 Pag.SMALLPAGE ≠ 0 := by
    rw [show firstFitCalls.getFreeIdentity emptyStart.table 1 Pag.SMALLPAGE = 4096 from
      firstFit_empty]
    decide
  have hrun : Run (MallocStep firstFitCalls) emptyStart
      (raceRun firstFitCalls emptyStart 0 1 1 Pag.SMALLPAGE) :=
    run_raceRun (by decide) rfl rfl
  exact searched_twice hret (by decide) (hall firstFitCalls _ _ firstFitCalls_correct hrun)

end Examples

end Mem
end BestKernel
