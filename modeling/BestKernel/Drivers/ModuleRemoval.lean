import Mathlib.Data.List.Basic
import Mathlib.Tactic.Common

/-!
# The removal of modules

`modrm` and `quirkrm` go down a tree of drivers, their problems, and the solutions to them,
and free every node behind its children.  The arrays may have holes.

Both loops stay where they are at a hole, so that a removal ends for trees without holes and
for no others (`modrm_ends_iff`).  When it ends, the nodes of the tree were freed once each
in `vfs` and in `qgod` (`modrm_frees`), but the entry in `drivgod` is looked up in a file
that has been cleared before, so that the same entry is freed again and again.

Readings of the source.  `modrm_recu` is `modrm`, and `double_link` is a field of the file.
`pool_free` fills what it frees with zeros.  Loops and calls take fuel.
-/

namespace BestKernel
namespace Drivers

/-! A tree of drivers.  An array is what is left of it from an index on. -/

mutual

inductive Driver where
  | mk (unborn double_link : Nat) (problems : Problems)

/-- The array `d->pool` with its `ckarray`. -/
inductive Problems where
  | nil
  | hole (rest : Problems)
  | slot (quirk : Quirk) (rest : Problems)

inductive Quirk where
  | mk (unborn : Nat) (solutions : Solutions)

/-- The array `pool` of a problem with its `ckarray`. -/
inductive Solutions where
  | nil
  | hole (rest : Solutions)
  | slot (driver : Driver) (rest : Solutions)

end

inductive RemovalPool where
  | vfs
  | drivgod
  | qgod
deriving DecidableEq, Repr

inductive Node where
  | driver (unborn : Nat)
  | quirk (unborn : Nat)
deriving DecidableEq, Repr

/-- A removal reads nodes and frees sections of the pools. -/
inductive Event where
  | read (node : Node)
  | free (pool : RemovalPool) (sect : Nat)
deriving DecidableEq, Repr

mutual

def modrm : Nat → Driver → Option (List Event)
  | 0, _ => none
  | fuel + 1, .mk unborn _ problems =>
      -- `double_link` is read behind `vfs->pool_free`, when it is zero
      (problemsLoop fuel unborn problems).map (· ++
        [.free .vfs unborn, .read (.driver unborn), .free .drivgod 0])

/-- The loop of `modrm`, from an index on. -/
def problemsLoop : Nat → Nat → Problems → Option (List Event)
  | 0, _, _ => none
  | _ + 1, unborn, .nil => some [.read (.driver unborn)]
  -- the index is not moved
  | fuel + 1, unborn, .hole rest =>
      (problemsLoop fuel unborn (.hole rest)).map (.read (.driver unborn) :: ·)
  | fuel + 1, unborn, .slot quirk rest => do
      let events ← quirkrm fuel quirk
      let others ← problemsLoop fuel unborn rest
      return .read (.driver unborn) :: (events ++ others)

def quirkrm : Nat → Quirk → Option (List Event)
  | 0, _ => none
  | fuel + 1, .mk unborn solutions =>
      (solutionsLoop fuel unborn solutions).map (· ++ [.free .qgod unborn])

/-- The loop of `quirkrm`, from an index on. -/
def solutionsLoop : Nat → Nat → Solutions → Option (List Event)
  | 0, _, _ => none
  | _ + 1, unborn, .nil => some [.read (.quirk unborn)]
  | fuel + 1, unborn, .hole rest =>
      (solutionsLoop fuel unborn (.hole rest)).map (.read (.quirk unborn) :: ·)
  | fuel + 1, unborn, .slot driver rest => do
      let events ← modrm fuel driver
      let others ← solutionsLoop fuel unborn rest
      return .read (.quirk unborn) :: (events ++ others)

end

section Specification

mutual

/-- The sections of the pools that hold the nodes of a tree, children first. -/
def Driver.sections (pool : RemovalPool) : Driver → List Nat
  | .mk unborn double_link problems =>
      problems.sections pool ++
        match pool with
        | .vfs => [unborn]
        | .drivgod => [double_link]
        | .qgod => []

def Problems.sections (pool : RemovalPool) : Problems → List Nat
  | .nil => []
  | .hole rest => rest.sections pool
  | .slot quirk rest => quirk.sections pool ++ rest.sections pool

def Quirk.sections (pool : RemovalPool) : Quirk → List Nat
  | .mk unborn solutions =>
      solutions.sections pool ++ if pool = .qgod then [unborn] else []

def Solutions.sections (pool : RemovalPool) : Solutions → List Nat
  | .nil => []
  | .hole rest => rest.sections pool
  | .slot driver rest => driver.sections pool ++ rest.sections pool

end

mutual

/-- A tree without holes. -/
def Driver.Full : Driver → Prop
  | .mk _ _ problems => problems.Full

def Problems.Full : Problems → Prop
  | .nil => True
  | .hole _ => False
  | .slot quirk rest => quirk.Full ∧ rest.Full

def Quirk.Full : Quirk → Prop
  | .mk _ solutions => solutions.Full

def Solutions.Full : Solutions → Prop
  | .nil => True
  | .hole _ => False
  | .slot driver rest => driver.Full ∧ rest.Full

end

/-- What frees the node itself. -/
def Node.freed : Node → Event
  | .driver unborn => .free .vfs unborn
  | .quirk unborn => .free .qgod unborn

/-- The sections of a pool that are freed. -/
def freedIn (pool : RemovalPool) (trace : List Event) : List Nat :=
  trace.filterMap fun
    | .free pool' sect => if pool' = pool then some sect else none
    | .read _ => none

/-- A removal as it should be: every section of the tree is freed once, no other is, and no
node is read behind its free. -/
structure TraceRight (d : Driver) (trace : List Event) : Prop where
  frees : ∀ pool sect,
    (freedIn pool trace).count sect = if sect ∈ d.sections pool then 1 else 0
  reads : ∀ before node after, trace = before ++ .read node :: after → node.freed ∉ before

/-- `modrm` ends and is right. -/
def RemovalRight (d : Driver) : Prop :=
  ∃ fuel trace, modrm fuel d = some trace ∧ TraceRight d trace

end Specification

section Removal

mutual

/-- The fuel that is enough for a tree without holes. -/
def Driver.size : Driver → Nat
  | .mk _ _ problems => problems.size + 1

def Problems.size : Problems → Nat
  | .nil => 1
  | .hole rest => rest.size + 1
  | .slot quirk rest => quirk.size + rest.size + 1

def Quirk.size : Quirk → Nat
  | .mk _ solutions => solutions.size + 1

def Solutions.size : Solutions → Nat
  | .nil => 1
  | .hole rest => rest.size + 1
  | .slot driver rest => driver.size + rest.size + 1

end

theorem exists_succ_of_le
    {n fuel : Nat}
    (h : n + 1 ≤ fuel) :
    ∃ fuel', fuel = fuel' + 1 :=
  Nat.exists_eq_succ_of_ne_zero (Nat.ne_of_gt (Nat.lt_of_lt_of_le n.succ_pos h))

mutual

theorem Driver.Full.ends :
    ∀ {d : Driver}, d.Full → ∀ {fuel : Nat}, d.size ≤ fuel → ∃ trace, modrm fuel d = some trace
  | .mk unborn double_link problems, h, fuel, hfuel => by
      obtain ⟨fuel, rfl⟩ := exists_succ_of_le hfuel
      obtain ⟨trace, htrace⟩ :=
        Problems.Full.ends h unborn (Nat.le_of_succ_le_succ hfuel)
      exact ⟨_, congrArg (Option.map _) htrace⟩

theorem Problems.Full.ends :
    ∀ {problems : Problems}, problems.Full → ∀ (unborn : Nat) {fuel : Nat},
      problems.size ≤ fuel → ∃ trace, problemsLoop fuel unborn problems = some trace
  | .nil, h, unborn, fuel, hfuel => by
      obtain ⟨fuel, rfl⟩ := exists_succ_of_le hfuel
      exact ⟨_, rfl⟩
  | .hole rest, h, unborn, fuel, hfuel => absurd h id
  | .slot quirk rest, h, unborn, fuel, hfuel => by
      obtain ⟨fuel, rfl⟩ := exists_succ_of_le hfuel
      have hle := Nat.le_of_succ_le_succ hfuel
      obtain ⟨events, hevents⟩ := Quirk.Full.ends h.1 (Nat.le_of_add_right_le hle)
      obtain ⟨others, hothers⟩ :=
        Problems.Full.ends h.2 unborn (Nat.le_of_add_left_le hle)
      exact ⟨_, by rw [problemsLoop, hevents, Option.bind_eq_bind, Option.bind_some, hothers]; rfl⟩

theorem Quirk.Full.ends :
    ∀ {q : Quirk}, q.Full → ∀ {fuel : Nat}, q.size ≤ fuel → ∃ trace, quirkrm fuel q = some trace
  | .mk unborn solutions, h, fuel, hfuel => by
      obtain ⟨fuel, rfl⟩ := exists_succ_of_le hfuel
      obtain ⟨trace, htrace⟩ :=
        Solutions.Full.ends h unborn (Nat.le_of_succ_le_succ hfuel)
      exact ⟨_, congrArg (Option.map _) htrace⟩

theorem Solutions.Full.ends :
    ∀ {solutions : Solutions}, solutions.Full → ∀ (unborn : Nat) {fuel : Nat},
      solutions.size ≤ fuel → ∃ trace, solutionsLoop fuel unborn solutions = some trace
  | .nil, h, unborn, fuel, hfuel => by
      obtain ⟨fuel, rfl⟩ := exists_succ_of_le hfuel
      exact ⟨_, rfl⟩
  | .hole rest, h, unborn, fuel, hfuel => absurd h id
  | .slot driver rest, h, unborn, fuel, hfuel => by
      obtain ⟨fuel, rfl⟩ := exists_succ_of_le hfuel
      have hle := Nat.le_of_succ_le_succ hfuel
      obtain ⟨events, hevents⟩ := Driver.Full.ends h.1 (Nat.le_of_add_right_le hle)
      obtain ⟨others, hothers⟩ :=
        Solutions.Full.ends h.2 unborn (Nat.le_of_add_left_le hle)
      exact ⟨_, by rw [solutionsLoop, hevents, Option.bind_eq_bind, Option.bind_some, hothers]; rfl⟩

end

theorem freedIn_append
    (pool : RemovalPool)
    (trace trace' : List Event) :
    freedIn pool (trace ++ trace') = freedIn pool trace ++ freedIn pool trace' :=
  List.filterMap_append

/-- What is freed for a section: in `drivgod` always the same. -/
def sectionFreed (pool : RemovalPool) (sect : Nat) : Nat :=
  if pool = .drivgod then 0 else sect

/-- What is known of the removals that end with a fuel: there were no holes, and the sections
were freed, children first. -/
structure Removes (fuel : Nat) : Prop where
  driver : ∀ d trace, modrm fuel d = some trace →
    d.Full ∧ ∀ pool, freedIn pool trace = (d.sections pool).map (sectionFreed pool)
  problems : ∀ unborn problems trace, problemsLoop fuel unborn problems = some trace →
    problems.Full ∧ ∀ pool,
      freedIn pool trace = (problems.sections pool).map (sectionFreed pool)
  quirk : ∀ q trace, quirkrm fuel q = some trace →
    q.Full ∧ ∀ pool, freedIn pool trace = (q.sections pool).map (sectionFreed pool)
  solutions : ∀ unborn solutions trace, solutionsLoop fuel unborn solutions = some trace →
    solutions.Full ∧ ∀ pool,
      freedIn pool trace = (solutions.sections pool).map (sectionFreed pool)

section Step

variable {fuel : Nat}

theorem Removes.driver_succ
    (h : Removes fuel)
    (d : Driver) (trace : List Event)
    (htrace : modrm (fuel + 1) d = some trace) :
    d.Full ∧ ∀ pool, freedIn pool trace = (d.sections pool).map (sectionFreed pool) := by
  obtain ⟨unborn, double_link, problems⟩ := d
  obtain ⟨events, hevents, rfl⟩ := Option.map_eq_some_iff.1 htrace
  obtain ⟨hfull, hfreed⟩ := h.problems unborn problems events hevents
  refine ⟨hfull, fun pool => ?_⟩
  rw [freedIn_append, hfreed]
  cases pool <;> simp [Driver.sections, sectionFreed, freedIn]

theorem Removes.problems_succ
    (h : Removes fuel)
    (unborn : Nat) (problems : Problems) (trace : List Event)
    (htrace : problemsLoop (fuel + 1) unborn problems = some trace) :
    problems.Full ∧ ∀ pool,
      freedIn pool trace = (problems.sections pool).map (sectionFreed pool) := by
  cases problems with
  | nil =>
      cases htrace
      exact ⟨trivial, fun pool => rfl⟩
  | hole rest =>
      obtain ⟨events, hevents, -⟩ := Option.map_eq_some_iff.1 htrace
      exact absurd (h.problems unborn _ events hevents).1 id
  | slot quirk rest =>
      obtain ⟨events, hevents, htrace⟩ := Option.bind_eq_some_iff.1 htrace
      obtain ⟨others, hothers, htrace⟩ := Option.bind_eq_some_iff.1 htrace
      cases htrace
      obtain ⟨hquirk, hfreed⟩ := h.quirk quirk events hevents
      obtain ⟨hrest, hfreed'⟩ := h.problems unborn rest others hothers
      refine ⟨⟨hquirk, hrest⟩, fun pool => ?_⟩
      rw [Problems.sections, List.map_append, ← hfreed, ← hfreed', ← freedIn_append]
      rfl

theorem Removes.quirk_succ
    (h : Removes fuel)
    (q : Quirk) (trace : List Event)
    (htrace : quirkrm (fuel + 1) q = some trace) :
    q.Full ∧ ∀ pool, freedIn pool trace = (q.sections pool).map (sectionFreed pool) := by
  obtain ⟨unborn, solutions⟩ := q
  obtain ⟨events, hevents, rfl⟩ := Option.map_eq_some_iff.1 htrace
  obtain ⟨hfull, hfreed⟩ := h.solutions unborn solutions events hevents
  refine ⟨hfull, fun pool => ?_⟩
  rw [freedIn_append, hfreed]
  cases pool <;> simp [Quirk.sections, sectionFreed, freedIn]

theorem Removes.solutions_succ
    (h : Removes fuel)
    (unborn : Nat) (solutions : Solutions) (trace : List Event)
    (htrace : solutionsLoop (fuel + 1) unborn solutions = some trace) :
    solutions.Full ∧ ∀ pool,
      freedIn pool trace = (solutions.sections pool).map (sectionFreed pool) := by
  cases solutions with
  | nil =>
      cases htrace
      exact ⟨trivial, fun pool => rfl⟩
  | hole rest =>
      obtain ⟨events, hevents, -⟩ := Option.map_eq_some_iff.1 htrace
      exact absurd (h.solutions unborn _ events hevents).1 id
  | slot driver rest =>
      obtain ⟨events, hevents, htrace⟩ := Option.bind_eq_some_iff.1 htrace
      obtain ⟨others, hothers, htrace⟩ := Option.bind_eq_some_iff.1 htrace
      cases htrace
      obtain ⟨hdriver, hfreed⟩ := h.driver driver events hevents
      obtain ⟨hrest, hfreed'⟩ := h.solutions unborn rest others hothers
      refine ⟨⟨hdriver, hrest⟩, fun pool => ?_⟩
      rw [Solutions.sections, List.map_append, ← hfreed, ← hfreed', ← freedIn_append]
      rfl

end Step

theorem removes (fuel : Nat) : Removes fuel := by
  induction fuel with
  | zero =>
      refine ⟨?_, ?_, ?_, ?_⟩
      · intro d trace h
        cases h
      · intro unborn problems trace h
        cases h
      · intro q trace h
        cases h
      · intro unborn solutions trace h
        cases h
  | succ fuel ih =>
      exact ⟨ih.driver_succ, ih.problems_succ, ih.quirk_succ, ih.solutions_succ⟩

/-- **A removal ends when the tree has no hole, and in no other case.** -/
theorem modrm_ends_iff (d : Driver) : (∃ fuel trace, modrm fuel d = some trace) ↔ d.Full := by
  constructor
  · rintro ⟨fuel, trace, htrace⟩
    exact ((removes fuel).driver d trace htrace).1
  · intro h
    exact ⟨d.size, h.ends (Nat.le_refl _)⟩

/-- **What a removal frees**: in `vfs` and `qgod` the nodes of the tree, children first, and
in `drivgod` for every driver the section 0. -/
theorem modrm_frees
    {d : Driver} {fuel : Nat} {trace : List Event}
    (h : modrm fuel d = some trace)
    (pool : RemovalPool) :
    freedIn pool trace = (d.sections pool).map (sectionFreed pool) :=
  ((removes fuel).driver d trace h).2 pool

/-- A removal that ends reads the driver behind its free. -/
theorem modrm_reads_freed
    {d : Driver} {fuel : Nat} {trace : List Event}
    (h : modrm fuel d = some trace) :
    ∃ before node after, trace = before ++ .read node :: after ∧ node.freed ∈ before := by
  cases fuel with
  | zero => cases h
  | succ fuel =>
      obtain ⟨unborn, double_link, problems⟩ := d
      obtain ⟨events, -, rfl⟩ := Option.map_eq_some_iff.1 h
      refine ⟨events ++ [.free .vfs unborn], .driver unborn, [.free .drivgod 0], ?_, ?_⟩
      · rw [List.append_assoc]
        rfl
      · exact List.mem_append_right _ List.mem_cons_self

/-- **No tree is removed as it should be.** -/
theorem removal_wrong (d : Driver) : ¬ RemovalRight d := by
  rintro ⟨fuel, trace, htrace, hright⟩
  obtain ⟨before, node, after, heq, hfreed⟩ := modrm_reads_freed htrace
  exact hright.reads before node after heq hfreed

end Removal

/-- A driver with a problem and without a solution. -/
def oneProblem : Driver := .mk 1 2 (.slot (.mk 3 .nil) .nil)

/-- Its removal frees the section 0 of `drivgod`, and not the section 2. -/
theorem oneProblem_not_removed :
    (modrm 4 oneProblem).map (freedIn .drivgod) = some [0] ∧ ¬ RemovalRight oneProblem := by
  refine ⟨by decide, ?_⟩
  rintro ⟨fuel, trace, htrace, hright⟩
  obtain ⟨before, node, after, heq, hfreed⟩ := modrm_reads_freed htrace
  exact hright.reads before node after heq hfreed

end Drivers
end BestKernel
