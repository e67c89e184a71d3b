import BestKernel.Kontrol.Hash
import Mathlib.Data.List.Basic
import Mathlib.Tactic.Common

/-!
# Type paths

The image of a module says whose problem it wants to help with: the name of a driver, and
the indices on the way down from there, through problems and solutions by turns.
`recurse_modules` follows them.

It looks at the slots of `DriversGod` whether they are taken or not, tests an index against
the length of its array so that the length itself passes, and never tests whether the slot
is taken.  Two of its three failures release nothing, and behind the last step there is no
`return`.  So it is right for paths that break off at an index that is too
large, and for no others (`recursion_right_iff`).

Readings of the source.  `file` and `driv` are the driver that is inserted, and `type` and
`typerec` are those of its code.  An array is reached in the same way from a driver and from
a quirk.  A call that comes to the end without a `return` has no value.
-/

namespace BestKernel
namespace Drivers

open Machine
open Kontrol

/-- An array of problems or of solutions: what is in its slots are numbers of quirks or of
drivers. -/
structure SlotArray where
  length : Half
  ckarray : Nat → Byte
  pool : Nat → Nat

/-- A driver with its problems. -/
structure DriverNode where
  name : Vector Byte 64
  problems : SlotArray

/-- The drivers and the quirks, and `DriversGod` with what is in its slots. -/
structure Forest where
  drivgod : Hash
  pool : Nat → Nat
  drivers : Nat → DriverNode
  quirks : Nat → SlotArray

/-- What `rel` points to. -/
inductive Rel where
  | driver (n : Nat)
  | quirk (n : Nat)
deriving DecidableEq, Repr

/-- A slot of an array that is dereferenced. -/
structure Access where
  length : Half
  ckarray : Nat → Byte
  index : Nat

/-- What `recurse_modules` returns. -/
inductive Returned where
  | nullptr
  | slot (rel : Rel) (index : Half)
  | nothing
deriving DecidableEq, Repr

/-- What comes of a call: the value, the slots dereferenced, the sections released, and
`DriversGod` with the memory. -/
structure Followed where
  value : Returned
  accesses : List Access
  released : List Word
  drivgod : Hash
  mem : ByteMemory

namespace Forest

variable (f : Forest)

/-- The array of a driver or a quirk. -/
def arrayOf : Rel → SlotArray
  | .driver n => (f.drivers n).problems
  | .quirk n => f.quirks n

/-- `rel->pool[index]`. -/
def below (rel : Rel) (index : Half) : Rel :=
  match rel with
  | .driver _ => .quirk ((f.arrayOf rel).pool index.toNat)
  | .quirk _ => .driver ((f.arrayOf rel).pool index.toNat)

def access (rel : Rel) (index : Half) : Access :=
  ⟨(f.arrayOf rel).length, (f.arrayOf rel).ckarray, index.toNat⟩

/-- The slot that the search for the name stops at. -/
def toplevel (toplevel_name : Vector Byte 64) : Option Nat :=
  (List.range f.drivgod.length.toNat).find? fun i =>
    decide ((f.drivers (f.pool i)).name = toplevel_name)

/-- The slots of `DriversGod` that the search dereferences. -/
def searched (toplevel_name : Vector Byte 64) : List Access :=
  (List.range (((f.toplevel toplevel_name).map (· + 1)).getD f.drivgod.length.toNat)).map fun i =>
    ⟨f.drivgod.length, f.drivgod.ckarray, i⟩

/-- The loop over the indices: the slots dereferenced, and whether it broke off. -/
def descend (rel : Rel) : List Half → List Access × Bool
  | [] => ([], false)
  | index :: rest =>
      if (f.arrayOf rel).length < index then ([], true)
      else
        let (accesses, refused) := descend (f.below rel index) rest
        (f.access rel index :: accesses, refused)

/-- `recurse_modules`, for a driver with the entry `double_link`. -/
def recurseModules (mem : ByteMemory) (double_link : Word) (toplevel_name : Vector Byte 64)
    (type : Nat → Half) (typerec : Half) : Followed :=
  if typerec % 2 ≠ 0 then ⟨.nullptr, [], [], f.drivgod, mem⟩
  else
    match f.toplevel toplevel_name with
    | none => ⟨.nullptr, f.searched toplevel_name, [], f.drivgod, mem⟩
    | some i =>
        let path := (List.range (typerec.toNat - 1)).map fun j => type (j + 1)
        let (accesses, refused) := f.descend (.driver (f.pool i)) path
        let accesses := f.searched toplevel_name ++ accesses
        if refused then
          let (drivgod, mem) := f.drivgod.free mem double_link 1
          ⟨.nullptr, accesses, [double_link], drivgod, mem⟩
        else ⟨.nothing, accesses, [], f.drivgod, mem⟩

end Forest

section Specification

/-- A slot that is there and taken. -/
def Access.Taken (a : Access) : Prop := a.index < a.length.toNat ∧ a.ckarray a.index ≠ 0

variable (f : Forest) (toplevel_name : Vector Byte 64) (type : Nat → Half) (typerec : Half)

/-- The indices of a path. -/
def pathOf : List Half := (List.range (typerec.toNat - 1)).map fun j => type (j + 1)

/-- The slot that a path ends at, if every step exists. -/
def stepsTo (rel : Rel) : List Half → Option (Rel × Half)
  | [] => none
  | index :: rest =>
      if index.toNat < (f.arrayOf rel).length.toNat ∧ (f.arrayOf rel).ckarray index.toNat ≠ 0 then
        if rest = [] then some (rel, index) else stepsTo (f.below rel index) rest
      else none

/-- The driver of a name among the slots that are taken. -/
def named : Option Nat :=
  (List.range f.drivgod.length.toNat).find? fun i =>
    decide (f.drivgod.ckarray i ≠ 0 ∧ (f.drivers (f.pool i)).name = toplevel_name)

/-- The slot of a quirk that a name and a path name. -/
def slotNamed : Option (Rel × Half) :=
  if typerec % 2 ≠ 0 then none
  else (named f toplevel_name).bind fun i =>
    stepsTo f (.driver (f.pool i)) (pathOf type typerec)

variable (mem : ByteMemory) (double_link : Word)

/-- The slot of the driver is released, and nothing else. -/
structure Released (drivgod : Hash) (mem' : ByteMemory) : Prop where
  marks : ∀ i, drivgod.ckarray i =
    if i = f.drivgod.slotOf double_link then 0 else f.drivgod.ckarray i
  bytes : ∀ a, (∀ k, k < f.drivgod.stride.toNat → a ≠ double_link + BitVec.ofNat 64 k) →
    mem' a = mem a

/-- A call as it should be. -/
structure RecursionRight (r : Followed) : Prop where
  accesses : ∀ a, a ∈ r.accesses → a.Taken
  found : ∀ rel index, slotNamed f toplevel_name type typerec = some (rel, index) →
    r.value = .slot rel index ∧ r.released = [] ∧ r.drivgod = f.drivgod ∧ r.mem = mem
  missing : slotNamed f toplevel_name type typerec = none →
    r.value = .nullptr ∧ r.released = [double_link] ∧
      Released f mem double_link r.drivgod r.mem

/-- A path that takes steps that exist, and then breaks off at an index above the length. -/
def BreaksOff (rel : Rel) : List Half → Prop
  | [] => False
  | index :: rest =>
      (f.arrayOf rel).length < index ∨
        (f.access rel index).Taken ∧ BreaksOff (f.below rel index) rest

/-- The condition: the slots up to the driver of the name are taken, the path breaks off, and
the entry of the new driver is the first or bears no mark. -/
structure RecursionSafe : Prop where
  even : typerec % 2 = 0
  searched : ∃ i, f.toplevel toplevel_name = some i ∧
    (∀ j, j ≤ i → f.drivgod.ckarray j ≠ 0) ∧
      BreaksOff f (.driver (f.pool i)) (pathOf type typerec)
  entry : f.drivgod.slotOf double_link = 0 ∨
    f.drivgod.ckarray (f.drivgod.slotOf double_link) = 0

end Specification

section Paths

variable {f : Forest} {toplevel_name : Vector Byte 64} {rel : Rel} {path : List Half}

/-- The loop dereferences slots that are taken and breaks off exactly on such paths. -/
theorem breaksOff_iff :
    BreaksOff f rel path ↔
      (∀ a, a ∈ (f.descend rel path).1 → a.Taken) ∧ (f.descend rel path).2 = true := by
  induction path generalizing rel with
  | nil => exact ⟨False.elim, fun h => absurd h.2 Bool.false_ne_true⟩
  | cons index rest ih =>
      rw [BreaksOff, Forest.descend]
      split_ifs with hlength
      · exact iff_of_true (.inl hlength) ⟨fun a ha => absurd ha List.not_mem_nil, rfl⟩
      · rw [or_iff_right hlength, ih]
        simp only [List.forall_mem_cons, and_assoc]

/-- On such a path no slot is named. -/
theorem BreaksOff.stepsTo
    (h : BreaksOff f rel path) :
    stepsTo f rel path = none := by
  induction path generalizing rel with
  | nil => exact absurd h id
  | cons index rest ih =>
      rw [Drivers.stepsTo]
      rcases h with hlength | ⟨htaken, hrest⟩
      · have hlt : ¬ index.toNat < (f.arrayOf rel).length.toNat :=
          Nat.not_lt.2 (Nat.le_of_lt (BitVec.lt_def.1 hlength))
        exact if_neg fun h => hlt h.1
      · have hsome : rest ≠ [] := by
          rintro rfl
          exact hrest
        exact (if_pos htaken).trans ((if_neg hsome).trans (ih hrest))

/-- Where the slots up to it are taken, the driver of a name is the one that is found. -/
theorem named_of_toplevel
    {i : Nat}
    (h : f.toplevel toplevel_name = some i)
    (htaken : ∀ j, j ≤ i → f.drivgod.ckarray j ≠ 0) :
    named f toplevel_name = some i := by
  obtain ⟨hname, hrange, hbefore⟩ := List.find?_range_eq_some.1 h
  have hname := of_decide_eq_true hname
  refine List.find?_range_eq_some.2
    ⟨decide_eq_true ⟨htaken i (Nat.le_refl i), hname⟩, hrange, ?_⟩
  intro j hj
  have hother := hbefore j hj
  rw [Bool.not_eq_true', decide_eq_false_iff_not] at hother ⊢
  exact fun hboth => hother hboth.2

/-- The slots that the search dereferences are those up to the driver that it finds. -/
theorem searched_taken_iff
    {i : Nat}
    (h : f.toplevel toplevel_name = some i) :
    (∀ a, a ∈ f.searched toplevel_name → a.Taken) ↔
      ∀ j, j ≤ i → f.drivgod.ckarray j ≠ 0 := by
  have hrange := List.mem_range.1 (List.find?_range_eq_some.1 h).2.1
  simp only [Forest.searched, h, Option.map_some, Option.getD_some, List.mem_map,
    List.mem_range, forall_exists_index, and_imp]
  constructor
  · intro htaken j hj
    exact (htaken _ j (Nat.lt_succ_of_le hj) rfl).2
  · rintro htaken a j hj rfl
    have hle := Nat.le_of_lt_succ hj
    exact ⟨Nat.lt_of_le_of_lt hle hrange, htaken j hle⟩

end Paths

section Release

variable {f : Forest} {mem : ByteMemory} {double_link : Word}

/-- The release of one slot clears only the mark of the first. -/
theorem free_released_iff :
    Released f mem double_link (f.drivgod.free mem double_link 1).1
        (f.drivgod.free mem double_link 1).2 ↔
      f.drivgod.slotOf double_link = 0 ∨
        f.drivgod.ckarray (f.drivgod.slotOf double_link) = 0 := by
  constructor
  · intro h
    have hmark := h.marks (f.drivgod.slotOf double_link)
    rw [if_pos rfl, Hash.free_ckarray] at hmark
    by_cases hslot : f.drivgod.slotOf double_link = 0
    · exact .inl hslot
    · rw [if_neg fun hboth => hslot (Nat.lt_one_iff.1 hboth.2)] at hmark
      exact .inr hmark
  · intro h
    have hone : (1 : Half).toNat = 1 := rfl
    refine ⟨fun i => ?_, fun a ha => ?_⟩
    · rw [Hash.free_ckarray, hone]
      split_ifs with hcleared hown hown
      · rfl
      · omega
      · rcases h with hslot | hfree
        · omega
        · rw [hown, hfree]
      · rfl
    · rcases fillBytes_apply mem double_link 0 ((1 : Half).toNat * f.drivgod.stride.toNat) a with
        ⟨⟨k, hk, hka⟩, -⟩ | ⟨-, hsame⟩
      · rw [hone, Nat.one_mul] at hk
        exact absurd hka (ha k hk)
      · exact hsame

end Release

section Right

variable {f : Forest} {mem : ByteMemory} {double_link : Word} {toplevel_name : Vector Byte 64}
  {type : Nat → Half} {typerec : Half}

/-- A right call has a value and releases one section or returns a slot. -/
theorem RecursionRight.released
    {r : Followed}
    (h : RecursionRight f toplevel_name type typerec mem double_link r)
    (hvalue : ∀ rel index, r.value ≠ .slot rel index) :
    slotNamed f toplevel_name type typerec = none ∧ r.value = .nullptr ∧
      r.released = [double_link] ∧ Released f mem double_link r.drivgod r.mem := by
  cases hslot : slotNamed f toplevel_name type typerec with
  | none => exact ⟨rfl, h.missing hslot⟩
  | some slot => exact absurd (h.found slot.1 slot.2 hslot).1 (hvalue slot.1 slot.2)

/-- So it is wrong without a slot and without a release. -/
theorem not_recursionRight_of_kept
    {r : Followed}
    (hvalue : ∀ rel index, r.value ≠ .slot rel index)
    (hkept : r.released = []) :
    ¬ RecursionRight f toplevel_name type typerec mem double_link r := by
  intro h
  obtain ⟨-, -, hreleased, -⟩ := h.released hvalue
  rw [hkept] at hreleased
  cases hreleased

/-- A path that breaks off names no slot. -/
theorem slotNamed_eq_none
    {i : Nat}
    (htop : f.toplevel toplevel_name = some i)
    (hsearched : ∀ j, j ≤ i → f.drivgod.ckarray j ≠ 0)
    (hbreaks : BreaksOff f (.driver (f.pool i)) (pathOf type typerec)) :
    slotNamed f toplevel_name type typerec = none := by
  unfold slotNamed
  split_ifs with hodd
  · rfl
  · rw [named_of_toplevel htop hsearched]
    exact hbreaks.stepsTo

variable (f mem double_link toplevel_name type typerec)

/-- **`recurse_modules` is right for paths that break off at an index above the length, where
the release clears the mark, and for no others.** -/
theorem recursion_right_iff :
    RecursionRight f toplevel_name type typerec mem double_link
        (f.recurseModules mem double_link toplevel_name type typerec) ↔
      RecursionSafe f toplevel_name type typerec double_link := by
  unfold Forest.recurseModules
  split_ifs with hodd
  · exact iff_of_false (not_recursionRight_of_kept (fun _ _ => nofun) rfl) fun h => hodd h.even
  cases htop : f.toplevel toplevel_name with
  | none =>
      refine iff_of_false (not_recursionRight_of_kept (fun _ _ => nofun) rfl) fun h => ?_
      obtain ⟨i, hi, -⟩ := h.searched
      exact absurd (htop.symm.trans hi) nofun
  | some i =>
      have hpath := @breaksOff_iff f (.driver (f.pool i)) (pathOf type typerec)
      dsimp only
      rw [← pathOf]
      cases hrefused : (f.descend (.driver (f.pool i)) (pathOf type typerec)).2 with
      | false =>
          refine iff_of_false (fun h => ?_) fun h => ?_
          · exact absurd (h.released fun _ _ => nofun).2.1 nofun
          · obtain ⟨i', hi', -, hbreaks⟩ := h.searched
            obtain rfl := Option.some.inj (htop.symm.trans hi')
            exact absurd (hrefused.symm.trans (hpath.1 hbreaks).2) Bool.false_ne_true
      | true =>
          constructor
          · intro h
            obtain ⟨-, -, -, hreleased⟩ := h.released fun _ _ => nofun
            have hsearched := (searched_taken_iff htop).1 fun a ha =>
              h.accesses a (List.mem_append_left _ ha)
            have hbreaks := hpath.2
              ⟨fun a ha => h.accesses a (List.mem_append_right _ ha), hrefused⟩
            exact ⟨not_not.1 hodd, ⟨i, htop, hsearched, hbreaks⟩, free_released_iff.1 hreleased⟩
          · rintro ⟨heven, ⟨i', hi', hsearched, hbreaks⟩, hentry⟩
            obtain rfl := Option.some.inj (htop.symm.trans hi')
            have hnone : slotNamed f toplevel_name type typerec = none :=
              slotNamed_eq_none htop hsearched hbreaks
            refine ⟨fun a ha => ?_, fun rel index hsome => ?_, fun _ => ?_⟩
            · rcases List.mem_append.1 ha with hbefore | hstep
              · exact (searched_taken_iff htop).2 hsearched a hbefore
              · exact (hpath.1 hbreaks).1 a hstep
            · exact absurd (hnone.symm.trans hsome) nofun
            · exact ⟨rfl, rfl, free_released_iff.2 hentry⟩

end Right

/-- A driver with one problem, in the only slot of `DriversGod`. -/
def oneDriver : Forest where
  drivgod := ⟨.POINTER, 1, 1, fun _ => 255, 0x1000, 8⟩
  pool _ := 0
  drivers _ := ⟨Vector.replicate 64 0, ⟨1, fun _ => 255, fun _ => 0⟩⟩
  quirks _ := ⟨0, fun _ => 0, fun _ => 0⟩

/-- The path to its problem exists, and nothing is returned for it. -/
theorem problem_not_returned :
    slotNamed oneDriver (Vector.replicate 64 0) (fun _ => 0) 2 = some (.driver 0, 0) ∧
      ¬ RecursionRight oneDriver (Vector.replicate 64 0) (fun _ => 0) 2 (fun _ => 0) 0x1000
        (oneDriver.recurseModules (fun _ => 0) 0x1000 (Vector.replicate 64 0) (fun _ => 0) 2) := by
  have hslot : slotNamed oneDriver (Vector.replicate 64 0) (fun _ => 0) 2 =
      some (.driver 0, 0) := by decide
  refine ⟨hslot, fun h => ?_⟩
  exact absurd (h.found _ _ hslot).1 (by decide)

end Drivers
end BestKernel
