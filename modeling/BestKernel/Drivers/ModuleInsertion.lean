import BestKernel.Drivers.TypePaths
import BestKernel.Filesystem.References
import BestKernel.Processes.Signalling

/-!
# The insertion of a module

`modinsert` takes a slot of the file system, a process, a slot of `DriversGod`, a place in the
quirk that the module names, and the slots for its own problems, in this order.  Each step
can fail, and a failure should leave everything as it was.

Behind `exec` the test for its failure is an assignment, so that the function returns there
with a null pointer, whatever `exec` has done, and the slot of the file system is counted as
taken.  `insertion_right_iff` says that `modinsert` is right when there is no slot in the
first place, and in no other case.

Readings of the source.  The pool of processes does not lie at the address of the null
pointer.  `recurse_modules` gets the name and the path that the code of the module bears, and
`drivindex` is the slot of the file.  `exec` and the later allocations get no answer from the
pool of pointers.  A pointer without a value is not followed, and a thread that runs in ring
three does not come back.  `DRIVKILL` finds no directory to take the driver out of.
-/

namespace BestKernel
namespace Drivers

open Machine
open Kontrol
open Processes

/-- What the code of a process says about its module. -/
structure Images where
  isModule : Word → Bool
  toplevel_name : Word → Vector Byte 64
  type : Word → Nat → Half
  typerec : Word → Half
  name : Word → Nat → Byte
  problems_number : Word → Half

/-- The system with its drivers: for the slot of a driver in the file system, its entry in
`DriversGod` and the array of its problems. -/
structure DriverSystem where
  system : System
  forest : Forest
  double_link : Nat → Word
  problems : Nat → Word

/-- What `modinsert` comes to. -/
inductive Insertion where
  | returned (value : Word) (s : DriverSystem)
  | running (thread : Nat) (s : DriverSystem)

def Insertion.system : Insertion → System
  | .returned _ s => s.system
  | .running _ s => s.system

/-- `pool_alloc(1)* = file` on an array. -/
def SlotArray.add (a : SlotArray) (file : Nat) : SlotArray :=
  match Hash.allocLoop a.ckarray 1 a.length.toNat 0 0 with
  | some i => { a with pool := Function.update a.pool i file }
  | none => a

namespace DriverSystem

variable (k : Config) (images : Images) (s : DriverSystem)

/-- The first thread of the process of a driver. -/
def threadOf (file : Nat) : Nat :=
  (s.system.kernel.pointers
    (wordAt (s.system.kernel.processes (s.system.runtime file)).workers.pool 0)).threadSlot

/-- The code of the process of a driver. -/
def codeOf (file : Nat) : Word := (s.system.kernel.processes (s.system.runtime file)).code

/-- `DRIVKILL`. -/
def drivkill (file : Nat) : DriverSystem :=
  let system := (s.system.killThread k (s.threadOf file)).killProcess k (s.system.runtime file)
  let (drivgod, bytes) := s.forest.drivgod.free system.kernel.bytes (s.double_link file) 1
  let (vfs, bytes) := system.vfs.free bytes (slotAddress system.vfs file) 1
  { s with
    system := { system with vfs := vfs, kernel := { system.kernel with bytes := bytes } }
    forest := { s.forest with drivgod := drivgod } }

/-- The entry in `DriversGod`; a driver without one is killed, and its entry is written all
the same. -/
def enter (file : Nat) : DriverSystem :=
  let (entry, drivgod) := s.forest.drivgod.alloc 1 0
  let s :=
    { s with
      forest := { s.forest with drivgod := drivgod }
      double_link := Function.update s.double_link file (entry.getD 0) }
  let s := if entry.getD 0 = 0 then s.drivkill k file else s
  { s with
    forest :=
      { s.forest with pool := Function.update s.forest.pool (slotIn drivgod entry) file } }

/-- The list of the quirk that a module names: the value returned, if the quirk is not
found. -/
def list (file : Nat) : Option (Option Word × DriverSystem) :=
  let code := s.codeOf file
  if images.isModule code then
    let found := s.forest.recurseModules s.system.kernel.bytes (s.double_link file)
      (images.toplevel_name code) (images.type code) (images.typerec code)
    let s :=
      { s with
        forest := { s.forest with drivgod := found.drivgod }
        system := { s.system with kernel := { s.system.kernel with bytes := found.mem } } }
    match found.value with
    | .nullptr => some (some 0, s)
    | .nothing => none
    | .slot rel index =>
        match s.forest.below rel index with
        | .quirk q =>
            some (none,
              { s with
                forest :=
                  { s.forest with
                    quirks := Function.update s.forest.quirks q
                      ((s.forest.quirks q).add file) } })
        | .driver _ => none
  else some (none, s)

/-- The end of `modinsert`: the name, the slots for the problems, and the start. -/
def start (file : Nat) : Insertion :=
  let code := s.codeOf file
  let thread := s.threadOf file
  let metas := Function.update s.system.metas file
    { s.system.metas file with
      name := fun i => if i < 64 then images.name code i else (s.system.metas file).name i }
  let (problems, vfs) := s.system.vfs.alloc (images.problems_number code) 0
  let s :=
    { s with
      system := { s.system with metas := metas, vfs := vfs }
      problems := Function.update s.problems file (problems.getD 0) }
  let s := if problems.getD 0 = 0 then s.drivkill k file else s
  .running thread
    { s with
      system :=
        { s.system with
          kernel := s.system.kernel.modifyThread thread fun t => { t with type := .DRIVER } } }

/-- `modinsert`, called by the thread `t` for the file `base`; `tryn` is what the pool of
pointers answers when the file system asks it. -/
def modinsert (t base : Nat) (tryn : Word) : Option Insertion := do
  let (found, vfs) := s.system.vfs.alloc 1 tryn
  let file := slotIn s.system.vfs found
  let s := { s with system := { s.system with vfs := vfs } }
  if found.getD 0 = 0 then return .returned 0 s
  else
    let (_, _, kernel) ← s.system.kernel.exec k t base
    -- what is stored is the address of the pool, which is the slot 0, and it is the test
    let s :=
      { s with
        system :=
          { s.system with
            kernel := kernel
            runtime := Function.update s.system.runtime file 0 } }
    if kernel.kprc.pool ≠ 0 then return .returned 0 s
    else
      let (refused, s) ← (s.enter k file).list images file
      match refused with
      | some value => return .returned value s
      | none => return s.start k images file

end DriverSystem

section Specification

variable (k : Config) (images : Images) (s s' : DriverSystem)

/-- Nothing is different. -/
structure Untouched : Prop where
  vfs : s'.system.vfs = s.system.vfs
  processes : s'.system.kernel.kprc = s.system.kernel.kprc
  threads : s'.system.kernel.ktrd = s.system.kernel.ktrd
  forest : s'.forest = s.forest
  runtime : s'.system.runtime = s.system.runtime
  links : s'.double_link = s.double_link
  problems : s'.problems = s.problems

/-- The module in the slot `file` is there. -/
structure Inserted (file : Nat) : Prop where
  live : file < s'.system.vfs.length.toNat ∧ s'.system.vfs.ckarray file ≠ 0
  entry : ∃ i, ∀ j, j < s'.forest.drivgod.length.toNat ∧ s'.forest.drivgod.ckarray j ≠ 0 ∧
    s'.forest.pool j = file ↔ j = i
  runtime : s'.system.runtime file = nextProcess s.system.kernel
  listed : images.isModule (s'.codeOf file) = true → ∃ rel index q,
    slotNamed s'.forest (images.toplevel_name (s'.codeOf file)) (images.type (s'.codeOf file))
        (images.typerec (s'.codeOf file)) = some (rel, index) ∧
      s'.forest.below rel index = .quirk q ∧
        ∃ i, ∀ j, j < (s'.forest.quirks q).length.toNat ∧ (s'.forest.quirks q).pool j = file ↔
          j = i

/-- `modinsert` as it should be: it ends, and with a failure nothing is different. -/
def InsertionRight (t base : Nat) (tryn : Word) : Prop :=
  match s.modinsert k images t base tryn with
  | none => False
  | some (.returned value s') => value = 0 ∧ Untouched s s'
  | some (.running _ s') =>
      Inserted images s s' (slotIn s.system.vfs (s.system.vfs.alloc 1 tryn).1)

/-- The condition: the file system has no free slot, and does not grow. -/
structure InsertionSafe (tryn : Word) : Prop where
  full : ∀ i, i < s.system.vfs.length.toNat → s.system.vfs.ckarray i ≠ 0
  fixed : s.system.vfs.type = .DOUBLE_POINTER → tryn = 0

end Specification

section Insertion

variable {k : Config} {images : Images} {s : DriverSystem} {t base : Nat} {tryn : Word}

theorem alloc_pool
    (h : Hash)
    (reqlen : Half) :
    (h.alloc reqlen 0).2.pool = h.pool := by
  unfold Hash.alloc
  cases Hash.allocLoop h.ckarray reqlen h.length.toNat 0 0 with
  | some i => rfl
  | none => exact congrArg Hash.pool (congrArg Prod.snd (if_neg fun h => h.2 rfl))

/-- `exec` does not move the pool of processes. -/
theorem exec_kprc_pool
    {kernel kernel' : Kernel} {ret : Int} {made : Option Nat}
    (h : kernel.exec k t base = some (ret, made, kernel')) :
    kernel'.kprc.pool = kernel.kprc.pool := by
  rcases exec_spec h with ⟨-, -, hloads⟩ | ⟨-, -, -, htaken⟩
  · rw [hloads.kprc]
  · rw [htaken.kprc, alloc_pool]

/-- **With a slot of the file system `modinsert` fails, and keeps the slot counted.** -/
theorem modinsert_counted
    (hpool : s.system.kernel.kprc.pool ≠ 0)
    {i : Nat}
    (hfree : Hash.allocLoop s.system.vfs.ckarray 1 s.system.vfs.length.toNat 0 0 = some i)
    {outcome : Insertion}
    (h : s.modinsert k images t base tryn = some outcome) :
    ∃ s', outcome = .returned 0 s' ∧ s'.system.vfs.count = s.system.vfs.count + 1 := by
  have halloc : s.system.vfs.alloc 1 tryn =
      (some (s.system.vfs.pool + 8#64 * BitVec.ofNat 64 i),
        { s.system.vfs with count := s.system.vfs.count + 1 }) := by
    rw [Hash.alloc, hfree]
  unfold DriverSystem.modinsert at h
  rw [halloc] at h
  dsimp only at h
  split_ifs at h with hnull
  · cases h
    exact ⟨_, rfl, rfl⟩
  · obtain ⟨⟨ret, made, kernel⟩, hexec, h⟩ := Option.bind_eq_some_iff.1 h
    have hmoved : kernel.kprc.pool ≠ 0 := by
      rwa [exec_kprc_pool hexec]
    dsimp only at h
    rw [if_pos hmoved] at h
    cases h
    exact ⟨_, rfl, rfl⟩

theorem not_insertionRight_of_free
    (hpool : s.system.kernel.kprc.pool ≠ 0)
    {i : Nat}
    (hfree : Hash.allocLoop s.system.vfs.ckarray 1 s.system.vfs.length.toNat 0 0 = some i) :
    ¬ InsertionRight k images s t base tryn := by
  intro h
  unfold InsertionRight at h
  cases hcall : s.modinsert k images t base tryn with
  | none => rwa [hcall] at h
  | some outcome =>
      obtain ⟨s', rfl, hcount⟩ := modinsert_counted hpool hfree hcall
      rw [hcall] at h
      have hsame := congrArg Hash.count h.2.vfs
      rw [hcount] at hsame
      exact absurd hsame (by bv_omega)

/-- Without one it only asks for more. -/
theorem modinsert_full
    (hfull : Hash.allocLoop s.system.vfs.ckarray 1 s.system.vfs.length.toNat 0 0 = none) :
    s.modinsert k images t base tryn =
      some (.returned 0
        { s with system := { s.system with vfs := (s.system.vfs.alloc 1 tryn).2 } }) := by
  have hnone : (s.system.vfs.alloc 1 tryn).1 = none := by
    rw [Hash.alloc, hfull]
    dsimp only
    split_ifs <;> rfl
  unfold DriverSystem.modinsert
  dsimp only
  rw [hnone]
  rfl

theorem alloc_full_iff
    (hfull : Hash.allocLoop s.system.vfs.ckarray 1 s.system.vfs.length.toNat 0 0 = none) :
    (s.system.vfs.alloc 1 tryn).2 = s.system.vfs ↔
      (s.system.vfs.type = .DOUBLE_POINTER → tryn = 0) := by
  rw [Hash.alloc, hfull]
  dsimp only
  split_ifs with hgrows
  · refine iff_of_false (fun h => ?_) fun h => hgrows.2 (h hgrows.1)
    have hlength := congrArg Hash.length h
    exact absurd hlength (by dsimp only; bv_omega)
  · exact iff_of_true rfl fun htype => by_contra fun htryn => hgrows ⟨htype, htryn⟩

/-- What the model of the system calls says of `modinsert` is what comes of it here. -/
theorem modinsert_system
    (hpool : s.system.kernel.kprc.pool ≠ 0) :
    (s.modinsert k images t base 0).map Insertion.system = s.system.modinsert k t base := by
  unfold DriverSystem.modinsert System.modinsert
  dsimp only
  split_ifs with hnull
  · rfl
  · cases hexec : s.system.kernel.exec k t base with
    | none => rfl
    | some result =>
        obtain ⟨ret, made, kernel⟩ := result
        have hmoved : kernel.kprc.pool ≠ 0 := by
          rwa [exec_kprc_pool hexec]
        rw [Option.bind_eq_bind, Option.bind_some]
        dsimp only
        rw [if_pos hmoved]
        rfl

variable (k images s t base tryn) in
/-- **`modinsert` is right when the file system has no slot for the module, and in no other
case.** -/
theorem insertion_right_iff
    (hpool : s.system.kernel.kprc.pool ≠ 0) :
    InsertionRight k images s t base tryn ↔ InsertionSafe s tryn := by
  cases hfound : Hash.allocLoop s.system.vfs.ckarray 1 s.system.vfs.length.toNat 0 0 with
  | some i =>
      refine iff_of_false (not_insertionRight_of_free hpool hfound) fun h => ?_
      obtain ⟨hlt, hfree⟩ := Filesystem.allocLoop_one hfound
      exact h.full i (by rwa [Nat.zero_add] at hlt) hfree
  | none =>
      unfold InsertionRight
      rw [modinsert_full hfound]
      constructor
      · intro h
        refine ⟨fun i hi => ?_, (alloc_full_iff hfound).1 h.2.vfs⟩
        exact Filesystem.allocLoop_one_none hfound (Nat.zero_le i) (by rwa [Nat.zero_add])
      · intro h
        exact ⟨rfl, (alloc_full_iff hfound).2 h.fixed, rfl, rfl, rfl, rfl, rfl, rfl⟩

end Insertion

/-- Images that are no modules. -/
def plainImages : Images where
  isModule _ := false
  toplevel_name _ := Vector.replicate 64 0
  type _ _ := 0
  typerec _ := 0
  name _ _ := 0
  problems_number _ := 0

/-- The idle system without drivers. -/
def idleDrivers : DriverSystem where
  system := idleSystem
  forest :=
    ⟨idlePool 0x7000, fun _ => 0,
      fun _ => ⟨Vector.replicate 64 0, ⟨0, fun _ => 0, fun _ => 0⟩⟩,
      fun _ => ⟨0, fun _ => 0, fun _ => 0⟩⟩
  double_link _ := 0
  problems _ := 0

/-- A module is inserted into it, and a slot of the file system is lost. -/
theorem idle_slot_lost :
    ¬ InsertionRight idleConfig plainImages idleDrivers 3 0 0 := by
  have hfree : Hash.allocLoop idleSystem.vfs.ckarray 1 idleSystem.vfs.length.toNat 0 0 =
      some 0 := by decide
  exact not_insertionRight_of_free (show (0x1000 : Word) ≠ 0 by decide) hfree

/-- The idle system where every slot of the file system is taken. -/
def fullDrivers : DriverSystem :=
  { idleDrivers with
    system := { idleSystem with vfs := { idleSystem.vfs with ckarray := fun _ => 255 } } }

theorem full_insertion_right :
    fullDrivers.system.kernel.kprc.pool ≠ 0 ∧
      InsertionRight idleConfig plainImages fullDrivers 3 0 0 := by
  have hpool : fullDrivers.system.kernel.kprc.pool ≠ 0 := show (0x1000 : Word) ≠ 0 by decide
  exact ⟨hpool, (insertion_right_iff idleConfig plainImages fullDrivers 3 0 0 hpool).2
    ⟨fun _ _ => show (255 : Byte) ≠ 0 by decide, fun _ => rfl⟩⟩

end Drivers
end BestKernel
