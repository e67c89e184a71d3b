import BestKernel.Library.Locks
import BestKernel.Library.Runs
import Mathlib.Algebra.BigOperators.Group.Finset.Basic
import Mathlib.Data.Fintype.Basic
import Mathlib.Logic.Function.Basic

/-!
# Locks across interleavings

Any number of processors, each with the events that it has still to go through and the
locks that it holds.  A lock is taken when nobody holds it.

Locks are given ranks, and a processor is in order when it takes no lock while it holds one
of the same rank or a lower one, and gives everything back.  `Locks.progress` is the
argument against deadlock: the lock that a processor waits for is held by one that has
something left to do, and that one can only wait for a lock of a lower rank.
-/

namespace Locks

open Runs

universe u v

variable {ι : Type u} {κ : Type v}

/-- What is left of the events takes locks downwards, and ends with none held. -/
def Descending [DecidableEq κ] (rank : κ → Nat) : List (Event κ) → List κ → Prop
  | [], held => held = []
  | .take c :: es, held => (∀ d, d ∈ held → rank c < rank d) ∧ Descending rank es (c :: held)
  | .clear c :: es, held => Descending rank es (held.erase c)

/-- Under locks of rank at least `n`, a path that comes back takes locks downwards from below
`n`, and gives back what it takes. -/
def Under [DecidableEq κ] (rank : κ → Nat) (n : Nat) (p : Path κ) : Prop :=
  p.returned = true → ∀ es held, (∀ d, d ∈ held → n ≤ rank d) → Descending rank es held →
    Descending rank (p.events ++ es) held

section Under

variable [DecidableEq κ] {rank : κ → Nat} {n : Nat} {p q : Path κ}

theorem under_ret : Under rank n (Path.ret : Path κ) :=
  fun _ _ _ _ h => h

theorem under_of_not_returned
    (h : p.returned = false) :
    Under rank n p :=
  fun hreturned => absurd (hreturned.symm.trans h) (by decide)

theorem Under.mono
    {k : Nat}
    (hp : Under rank n p)
    (hle : n ≤ k) :
    Under rank k p :=
  fun hreturned es held hheld =>
    hp hreturned es held fun d hd => Nat.le_trans hle (hheld d hd)

theorem Under.andThen
    (hp : Under rank n p)
    (hq : Under rank n q) :
    Under rank n (p.andThen q) := by
  intro hreturned es held hheld h
  obtain ⟨hpback, hqback⟩ := returned_andThen.mp hreturned
  rw [Path.andThen, if_pos hpback, List.append_assoc]
  exact hp hpback _ held hheld (hq hqback es held hheld h)

theorem under_all
    {ps : List (Path κ)}
    (h : ∀ p, p ∈ ps → Under rank n p) :
    Under rank n (Path.all ps) := by
  induction ps with
  | nil => exact under_ret
  | cons p ps ih =>
      have hrest := ih fun q hq => h q (List.mem_cons_of_mem p hq)
      exact (h p List.mem_cons_self).andThen hrest

/-- A lock around a path that stays below it. -/
theorem Under.locked
    {c : κ}
    (hp : Under rank (rank c) p)
    (hc : rank c < n) :
    Under rank n (Path.locked c p) := by
  intro hreturned es held hheld h
  have hinner : (Path.andThen ⟨[.take c], true⟩ p).returned = true :=
    (returned_andThen.mp hreturned).1
  have hevents : (Path.locked c p).events ++ es =
      .take c :: (p.events ++ .clear c :: es) := by
    rw [Path.locked, Path.andThen, if_pos hinner]
    exact congrArg (Event.take c :: ·) (List.append_assoc p.events [.clear c] es)
  rw [hevents, Descending]
  refine ⟨fun d hd => Nat.lt_of_lt_of_le hc (hheld d hd), ?_⟩
  refine hp hinner _ _ (fun d hd => ?_) ?_
  · rcases List.mem_cons.mp hd with rfl | hd
    · exact Nat.le_refl _
    · exact Nat.le_of_lt (Nat.lt_of_lt_of_le hc (hheld d hd))
  · rw [Descending, List.erase_cons_head]
    exact h

end Under

/-- The processors: what each has left to do, and what it holds. -/
structure Processors (ι : Type u) (κ : Type v) where
  todo : ι → List (Event κ)
  held : ι → List κ

section Interleaving

variable [DecidableEq ι] [DecidableEq κ]

/-- A processor goes through its next event. -/
inductive Advance (s : Processors ι κ) (p : ι) : Processors ι κ → Prop
  | take {c : κ} {es : List (Event κ)}
      (hnext : s.todo p = .take c :: es)
      (hfree : ∀ q, c ∉ s.held q) :
      Advance s p
        ⟨Function.update s.todo p es, Function.update s.held p (c :: s.held p)⟩
  | clear {c : κ} {es : List (Event κ)}
      (hnext : s.todo p = .clear c :: es) :
      Advance s p
        ⟨Function.update s.todo p es, Function.update s.held p ((s.held p).erase c)⟩

/-- Nobody has anything left to do. -/
def Done (s : Processors ι κ) : Prop := ∀ p, s.todo p = []

/-- No lock is held twice. -/
def Exclusive (s : Processors ι κ) : Prop :=
  ∀ p q c, c ∈ s.held p → c ∈ s.held q → p = q

/-- Every processor is in order. -/
def InOrder (rank : κ → Nat) (s : Processors ι κ) : Prop :=
  ∀ p, Descending rank (s.todo p) (s.held p)

variable {rank : κ → Nat} {s s' : Processors ι κ} {p : ι}

/-- An advance, as what it does to the other processors and to its own. -/
theorem Advance.cases_on
    (h : Advance s p s') :
    (∀ q, q ≠ p → s'.todo q = s.todo q ∧ s'.held q = s.held q) ∧
      ((∃ c, s.todo p = .take c :: s'.todo p ∧ (∀ q, c ∉ s.held q) ∧
          s'.held p = c :: s.held p) ∨
        ∃ c, s.todo p = .clear c :: s'.todo p ∧ s'.held p = (s.held p).erase c) := by
  cases h with
  | @take c es hnext hfree =>
      refine ⟨fun q hq => ⟨Function.update_of_ne hq .., Function.update_of_ne hq ..⟩, ?_⟩
      refine Or.inl ⟨c, hnext.trans ?_, hfree, Function.update_self ..⟩
      dsimp only
      rw [Function.update_self]
  | @clear c es hnext =>
      refine ⟨fun q hq => ⟨Function.update_of_ne hq .., Function.update_of_ne hq ..⟩, ?_⟩
      refine Or.inr ⟨c, hnext.trans ?_, Function.update_self ..⟩
      dsimp only
      rw [Function.update_self]

theorem Exclusive.advance
    (hs : Exclusive s)
    (h : Advance s p s') :
    Exclusive s' := by
  obtain ⟨hothers, hown⟩ := h.cases_on
  -- what a processor other than `p` holds, and `p` holds too, `p` has not just taken
  have hcross : ∀ q c, q ≠ p → c ∈ s'.held q → c ∉ s'.held p := by
    intro q c hq hheld hheldp
    rw [(hothers q hq).2] at hheld
    rcases hown with ⟨d, -, hfree, hafter⟩ | ⟨d, -, hafter⟩
    · rw [hafter] at hheldp
      rcases List.mem_cons.mp hheldp with rfl | hheldp
      · exact hfree q hheld
      · exact hq (hs q p c hheld hheldp)
    · rw [hafter] at hheldp
      exact hq (hs q p c hheld (List.mem_of_mem_erase hheldp))
  intro q r c hq hr
  by_cases hqp : q = p
  · by_cases hrp : r = p
    · exact hqp.trans hrp.symm
    · exact absurd (hqp ▸ hq) (hcross r c hrp hr)
  · by_cases hrp : r = p
    · exact absurd (hrp ▸ hr) (hcross q c hqp hq)
    · rw [(hothers q hqp).2] at hq
      rw [(hothers r hrp).2] at hr
      exact hs q r c hq hr

theorem InOrder.advance
    (hs : InOrder rank s)
    (h : Advance s p s') :
    InOrder rank s' := by
  obtain ⟨hothers, hown⟩ := h.cases_on
  intro q
  by_cases hq : q = p
  · subst hq
    have hq := hs q
    rcases hown with ⟨c, hnext, -, hafter⟩ | ⟨c, hnext, hafter⟩
    · rw [hnext, Descending] at hq
      rw [hafter]
      exact hq.2
    · rw [hnext, Descending] at hq
      rw [hafter]
      exact hq
  · rw [(hothers q hq).1, (hothers q hq).2]
    exact hs q

/-- What a processor holds, and will hold when it has gone through the rest, was settled when
it started. -/
theorem hold_advance
    (h : Advance s p s')
    (q : ι) :
    hold (s'.todo q) (s'.held q) = hold (s.todo q) (s.held q) := by
  obtain ⟨hothers, hown⟩ := h.cases_on
  by_cases hq : q = p
  · subst hq
    rcases hown with ⟨c, hnext, hfree, hafter⟩ | ⟨c, hnext, hafter⟩
    · rw [hnext, hold, if_neg (hfree q), hafter]
    · rw [hnext, hold, hafter]
  · rw [(hothers q hq).1, (hothers q hq).2]

/-- At the end of the line of those that wait is one that can go on. -/
theorem exists_advance_of_waiting
    (hs : InOrder rank s)
    {c : κ} {es : List (Event κ)}
    (hnext : s.todo p = .take c :: es) :
    ∃ q s', Advance s q s' := by
  induction hrank : rank c using Nat.strong_induction_on generalizing p c es with
  | _ n ih =>
      by_cases hfree : ∀ q, c ∉ s.held q
      · exact ⟨p, _, .take hnext hfree⟩
      · obtain ⟨q, hq⟩ := not_forall.mp hfree
        have hheld : c ∈ s.held q := not_not.mp hq
        have horder := hs q
        cases htodo : s.todo q with
        | nil =>
            rw [htodo, Descending] at horder
            rw [horder] at hheld
            cases hheld
        | cons e rest =>
            cases e with
            | take d =>
                rw [htodo, Descending] at horder
                have hlower : rank d < n := hrank ▸ horder.1 c hheld
                exact ih (rank d) hlower htodo rfl
            | clear d => exact ⟨q, _, .clear htodo⟩

/-- **Processors in order do not block each other.** -/
theorem progress
    (hs : InOrder rank s)
    (hleft : s.todo p ≠ []) :
    ∃ q s', Advance s q s' := by
  obtain ⟨e, es, hnext⟩ := List.exists_cons_of_ne_nil hleft
  cases e with
  | take c => exact exists_advance_of_waiting hs hnext
  | clear c => exact ⟨p, _, .clear hnext⟩

/-- How many events are left. -/
def left [Fintype ι] (s : Processors ι κ) : Nat := ∑ p, (s.todo p).length

theorem left_advance
    [Fintype ι]
    (h : Advance s p s') :
    left s' + 1 = left s := by
  obtain ⟨hothers, hown⟩ := h.cases_on
  have hlength : (s.todo p).length = (s'.todo p).length + 1 := by
    rcases hown with ⟨c, hnext, -, -⟩ | ⟨c, hnext, -⟩
    · rw [hnext, List.length_cons]
    · rw [hnext, List.length_cons]
  have hrest : ∑ q ∈ Finset.univ.erase p, (s'.todo q).length =
      ∑ q ∈ Finset.univ.erase p, (s.todo q).length :=
    Finset.sum_congr rfl fun q hq => by rw [(hothers q (Finset.ne_of_mem_erase hq)).1]
  rw [left, left, ← Finset.add_sum_erase _ _ (Finset.mem_univ p),
    ← Finset.add_sum_erase _ _ (Finset.mem_univ p), hrest, hlength]
  omega

/-- **Every interleaving ends.** -/
theorem length_le_left
    [Fintype ι]
    {run : List (ι × Processors ι κ)}
    (hrun : Run Advance s run) :
    run.length ≤ left s := by
  induction hrun with
  | nil s => exact Nat.zero_le _
  | @cons s s' p rest hstep hrest ih =>
      have hleft := left_advance hstep
      rw [List.length_cons]
      omega

/-- **Processors in order never deadlock.** -/
theorem always_progress
    {run : List (ι × Processors ι κ)}
    (hrun : Run Advance s run)
    (horder : InOrder rank s)
    (hexclusive : Exclusive s) :
    Always (fun t => Exclusive t ∧ (Done t ∨ ∃ p t', Advance t p t')) s run := by
  have hkept : Always (fun t => InOrder rank t ∧ Exclusive t) s run :=
    always_of_preserved (fun _ _ _ ht hstep => ⟨ht.1.advance hstep, ht.2.advance hstep⟩) hrun
      ⟨horder, hexclusive⟩
  refine hkept.mono fun t ht => ⟨ht.2, ?_⟩
  by_cases hdone : Done t
  · exact Or.inl hdone
  · obtain ⟨p, hp⟩ := not_forall.mp hdone
    exact Or.inr (progress ht.1 hp)

/-- What a processor holds when it is done was settled when it started. -/
theorem always_hold
    {run : List (ι × Processors ι κ)}
    (hrun : Run Advance s run)
    (p : ι) :
    Always (fun t => hold (t.todo p) (t.held p) = hold (s.todo p) (s.held p)) s run :=
  always_of_preserved (fun _ _ _ ht hstep => (hold_advance hstep p).trans ht) hrun rfl

section Granting

/-!
A lock may be given by what it lets through only: `grants s p c` says that processor `p`, which
waits for `c`, gets it in the state `s`.
-/

variable {grants : Processors ι κ → ι → κ → Prop}

/-- A processor goes through its next event, and takes what it is granted. -/
inductive AdvanceBy (grants : Processors ι κ → ι → κ → Prop) (s : Processors ι κ) (p : ι) :
    Processors ι κ → Prop
  | take {c : κ} {es : List (Event κ)}
      (hnext : s.todo p = .take c :: es)
      (hgranted : grants s p c) :
      AdvanceBy grants s p
        ⟨Function.update s.todo p es, Function.update s.held p (c :: s.held p)⟩
  | clear {c : κ} {es : List (Event κ)}
      (hnext : s.todo p = .clear c :: es) :
      AdvanceBy grants s p
        ⟨Function.update s.todo p es, Function.update s.held p ((s.held p).erase c)⟩

/-- **A lock that works**: nobody gets what is held, and of those that wait for what is free
somebody gets it. -/
structure Works (grants : Processors ι κ → ι → κ → Prop) : Prop where
  alone : ∀ s p c, grants s p c → ∀ q, c ∉ s.held q
  serves : ∀ s p c es, s.todo p = .take c :: es → (∀ q, c ∉ s.held q) →
    ∃ q es', s.todo q = .take c :: es' ∧ grants s q c

theorem AdvanceBy.advance
    (hworks : Works grants)
    (h : AdvanceBy grants s p s') :
    Advance s p s' := by
  cases h with
  | @take c es hnext hgranted => exact .take hnext (hworks.alone s p c hgranted)
  | clear hnext => exact .clear hnext

/-- Where somebody could go on, somebody is let through. -/
theorem Works.exists_advanceBy
    (hworks : Works grants)
    (h : Advance s p s') :
    ∃ q t, AdvanceBy grants s q t := by
  cases h with
  | @take c es hnext hfree =>
      obtain ⟨q, es', hwaits, hgranted⟩ := hworks.serves s p c es hnext hfree
      exact ⟨q, _, .take hwaits hgranted⟩
  | clear hnext => exact ⟨p, _, .clear hnext⟩

/-- **Under a lock that works processors in order never deadlock**, and every interleaving
ends. -/
theorem Works.always_progress
    [Fintype ι]
    {run : List (ι × Processors ι κ)}
    (hworks : Works grants)
    (hrun : Run (AdvanceBy grants) s run)
    (horder : InOrder rank s)
    (hexclusive : Exclusive s) :
    Always (fun t => Exclusive t ∧ (Done t ∨ ∃ p t', AdvanceBy grants t p t')) s run ∧
      run.length ≤ left s := by
  have hfree : Run Advance s run := hrun.mono fun _ _ _ h => h.advance hworks
  refine ⟨(Locks.always_progress hfree horder hexclusive).mono fun t ht => ⟨ht.1, ?_⟩,
    length_le_left hfree⟩
  refine ht.2.imp_right ?_
  rintro ⟨p, t', h⟩
  exact hworks.exists_advanceBy h

end Granting

end Interleaving

end Locks
