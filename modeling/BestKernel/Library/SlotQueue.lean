import Mathlib.Data.List.GetD
import Mathlib.Tactic.ByContra
import Mathlib.Tactic.SplitIfs

/-!
# Queues in a fixed number of slots

A queue of at most `capacity` entries can be kept in as many slots: the entries
in order of arrival from slot 0 on, then a blank value that no entry has.
`SlotQueue.Holds` says which queue the slots hold (there is one at most,
`SlotQueue.Holds.unique`).

Two operations on the slots are read as operations on the queue.  Filling every
blank slot appends an entry once for each free slot (`SlotQueue.Holds.fill`).
Moving every slot down by one drops the oldest entry when a slot is free, and
otherwise takes the youngest a second time (`SlotQueue.Holds.shift`,
`SlotQueue.Holds.shift_full`).
-/

namespace SlotQueue

universe u

variable {α : Type u}

/-- The slots hold the queue, followed by blanks. -/
structure Holds
    (blank : α) (capacity : Nat) (slots : Nat → α) (queue : List α) : Prop where
  length_le : queue.length ≤ capacity
  entry : ∀ i, i < capacity → slots i = queue.getD i blank
  nonblank : ∀ x, x ∈ queue → x ≠ blank

/-- A value put into every blank slot. -/
def fill [DecidableEq α] (blank : α) (capacity : Nat) (slots : Nat → α) (x : α) :
    Nat → α :=
  fun i => if i < capacity ∧ slots i = blank then x else slots i

/-- Every slot but the last takes the value of the next one. -/
def shift (capacity : Nat) (slots : Nat → α) : Nat → α :=
  fun i => if i + 1 < capacity then slots (i + 1) else slots i

variable {blank : α} {capacity : Nat} {slots : Nat → α} {queue queue' : List α}

/-- Blank slots hold the empty queue. -/
theorem holds_nil
    (h : ∀ i, i < capacity → slots i = blank) :
    Holds blank capacity slots [] where
  length_le := Nat.zero_le capacity
  entry i hi := by simpa using h i hi
  nonblank x hx := (List.not_mem_nil hx).elim

/-- Which slots are blank. -/
theorem Holds.blank_iff
    (h : Holds blank capacity slots queue)
    {i : Nat}
    (hi : i < capacity) :
    slots i = blank ↔ queue.length ≤ i := by
  rw [h.entry i hi]
  constructor
  · intro hblank
    by_contra hlt
    rw [Nat.not_le] at hlt
    rw [List.getD_eq_getElem queue blank hlt] at hblank
    exact h.nonblank _ (List.getElem_mem hlt) hblank
  · exact List.getD_eq_default queue blank

/-- Slots hold one queue at most. -/
theorem Holds.unique
    (h : Holds blank capacity slots queue)
    (h' : Holds blank capacity slots queue') :
    queue = queue' := by
  have hle : queue.length ≤ queue'.length := by
    by_contra hlt
    have hi : queue'.length < capacity := by
      have hcapacity := h.length_le
      omega
    have hlength := (h.blank_iff hi).mp ((h'.blank_iff hi).mpr (Nat.le_refl _))
    omega
  have hge : queue'.length ≤ queue.length := by
    by_contra hlt
    have hi : queue.length < capacity := by
      have hcapacity := h'.length_le
      omega
    have hlength := (h'.blank_iff hi).mp ((h.blank_iff hi).mpr (Nat.le_refl _))
    omega
  refine List.ext_getElem (Nat.le_antisymm hle hge) ?_
  intro i hi hi'
  have hcapacity : i < capacity := Nat.lt_of_lt_of_le hi h.length_le
  have hentry := h.entry i hcapacity
  rw [h'.entry i hcapacity, List.getD_eq_getElem queue' blank hi',
    List.getD_eq_getElem queue blank hi] at hentry
  exact hentry.symm

/-- Filling appends the value once for every free slot. -/
theorem Holds.fill
    [DecidableEq α]
    (h : Holds blank capacity slots queue)
    {x : α}
    (hx : x ≠ blank) :
    Holds blank capacity (SlotQueue.fill blank capacity slots x)
      (queue ++ List.replicate (capacity - queue.length) x) where
  length_le := by
    have hcapacity := h.length_le
    rw [List.length_append, List.length_replicate]
    omega
  entry i hi := by
    have hblank := h.blank_iff hi
    by_cases hfree : queue.length ≤ i
    · rw [SlotQueue.fill, if_pos ⟨hi, hblank.mpr hfree⟩,
        List.getD_append_right _ _ _ _ hfree, List.getD_replicate]
      omega
    · have htaken : ¬ (i < capacity ∧ slots i = blank) :=
        fun hfilled => hfree (hblank.mp hfilled.2)
      rw [SlotQueue.fill, if_neg htaken, h.entry i hi,
        List.getD_append _ _ _ _ (by omega)]
  nonblank y hy := by
    rcases List.mem_append.mp hy with hold | hnew
    · exact h.nonblank y hold
    · rw [List.eq_of_mem_replicate hnew]
      exact hx

/-- With a free slot, moving down drops the oldest entry. -/
theorem Holds.shift
    (h : Holds blank capacity slots queue)
    (hfree : queue.length < capacity) :
    Holds blank capacity (SlotQueue.shift capacity slots) queue.tail where
  length_le := by
    rw [List.length_tail]
    omega
  entry i hi := by
    have htail : queue.tail.getD i blank = queue.getD (i + 1) blank := by
      cases queue with
      | nil => simp
      | cons x queue => rfl
    rw [htail, SlotQueue.shift]
    split_ifs with hnext
    · exact h.entry (i + 1) hnext
    · have hlast : queue.length ≤ i := by omega
      rw [(h.blank_iff hi).mpr hlast,
        List.getD_eq_default queue blank (by omega)]
  nonblank x hx := h.nonblank x (List.mem_of_mem_tail hx)

/-- Without one, moving down also takes the youngest entry a second time. -/
theorem Holds.shift_full
    (h : Holds blank capacity slots queue)
    (hfull : queue.length = capacity)
    (hne : queue ≠ []) :
    Holds blank capacity (SlotQueue.shift capacity slots)
      (queue.tail ++ [queue.getLast hne]) where
  length_le := by
    have hpos := List.length_pos_iff.mpr hne
    rw [List.length_append, List.length_tail, List.length_singleton]
    omega
  entry i hi := by
    rw [SlotQueue.shift]
    split_ifs with hnext
    · have htail : i < queue.tail.length := by
        rw [List.length_tail]
        omega
      rw [h.entry (i + 1) hnext, List.getD_append _ _ _ _ htail,
        List.getD_eq_getElem _ _ htail, List.getElem_tail,
        List.getD_eq_getElem _ _ (by omega)]
    · have htail : queue.tail.length = i := by
        rw [List.length_tail]
        omega
      rw [h.entry i hi, List.getD_append_right _ _ _ _ (Nat.le_of_eq htail), htail,
        Nat.sub_self, List.getD_eq_getElem _ _ (by omega), List.getD_cons_zero,
        List.getLast_eq_getElem]
      congr 1
      omega
  nonblank x hx := by
    rcases List.mem_append.mp hx with hold | hnew
    · exact h.nonblank x (List.mem_of_mem_tail hold)
    · rw [List.mem_singleton.mp hnew]
      exact h.nonblank _ (List.getLast_mem hne)

end SlotQueue
