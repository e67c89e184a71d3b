import BestKernel.Filesystem.Mount

/-!
# The partitions of the disks

`load_partition_table` goes through the table that the driver of a disk has filled in, up
to the first partition without a signature, and copies each partition to where `pool_alloc`
says.  As `alloc` marks nothing, that is the same place every time.

`tables_share_slot` says what this means for all disks together: of all their partitions
the last one is held, and every other one has been written over.

Readings of the source.  Nothing sets the type of the pool of partitions, so that it does
not grow.  The driver of the tables is given by what it fills in, which lies apart from the
pool.  A partition is its bytes, five words of them.
-/

namespace BestKernel
namespace Filesystem

open Machine
open Kontrol

/-- `sizeof(partition)`. -/
abbrev sizeofPartition : Nat := 40

/-- The number of partitions in the pages of a table. -/
abbrev tableLength : Nat := 4096 * 512 / sizeofPartition

/-- `class partition`, byte by byte. -/
abbrev Partition := Nat → Byte

/-- What the driver of the tables fills in. -/
abbrev PartitionTable := Nat → Partition

/-- A signature is not null. -/
def Partition.signed (p : Partition) : Bool := (List.range 8).any fun i => p i ≠ 0

/-- The pool of partitions, and the memory that it lies in. -/
structure Partitions where
  pool : Hash
  bytes : ByteMemory

/-- A partition is copied to an address. -/
def placePartition (bytes : ByteMemory) (address : Word) (p : Partition) : ByteMemory :=
  fun a => if (a - address).toNat < sizeofPartition then p (a - address).toNat else bytes a

namespace Partitions

/-- Where `pool_alloc` has the next partition put; address 0 is the null pointer. -/
def place (s : Partitions) : Word := (s.pool.alloc 1 0).1.getD 0

/-- `memcpy(this->partitions->pool_alloc(1),&data[t],sizeof(partition))`. -/
def copyIn (s : Partitions) (p : Partition) : Partitions where
  pool := (s.pool.alloc 1 0).2
  bytes := placePartition s.bytes s.place p

/-- The loop, with `left` partitions to look at from `t` on. -/
def loadLoop (data : PartitionTable) : Nat → Nat → Partitions → Partitions
  | 0, _, s => s
  | left + 1, t, s =>
      if (data t).signed then loadLoop data left (t + 1) (s.copyIn (data t)) else s

/-- `load_partition_table`. -/
def loadPartitionTable (s : Partitions) (data : PartitionTable) : Partitions :=
  loadLoop data tableLength 0 s

end Partitions

/-- The partitions of a table: those before the first one without a signature. -/
def PartitionTable.partitions (data : PartitionTable) : List Partition :=
  ((List.range tableLength).map data).takeWhile Partition.signed

section Places

variable {bytes : ByteMemory} {address : Word} {s : Partitions}

/-- A partition is written over by the next one in its place. -/
theorem placePartition_again
    (p q : Partition) :
    placePartition (placePartition bytes address p) address q = placePartition bytes address q := by
  funext a
  unfold placePartition
  split_ifs <;> rfl

namespace Partitions

theorem place_copyIn (p : Partition) : (s.copyIn p).place = s.place := by
  obtain ⟨count, hcount⟩ := alloc_count s.pool 1
  unfold place copyIn
  dsimp only
  rw [hcount, alloc_found, alloc_found]

/-- Only the last of them is held. -/
theorem bytes_copyIns
    (partitions : List Partition) :
    (partitions.foldl copyIn s).bytes =
      match partitions.getLast? with
      | none => s.bytes
      | some p => placePartition s.bytes s.place p := by
  induction partitions generalizing s with
  | nil => rfl
  | cons p partitions ih =>
      rw [List.foldl_cons, ih, place_copyIn]
      cases partitions with
      | nil => rfl
      | cons q partitions =>
          rw [List.getLast?_cons_cons]
          cases hlast : (q :: partitions).getLast? with
          | none => exact absurd (List.getLast?_eq_none_iff.mp hlast) (List.cons_ne_nil q _)
          | some last => exact placePartition_again p last

/-- The pool counts a partition that it has a place for. -/
theorem pool_copyIn (p : Partition) :
    (s.copyIn p).pool = { s.pool with
      count := if (s.pool.alloc 1 0).1 = none then s.pool.count else s.pool.count + 1 } := by
  unfold copyIn Hash.alloc
  dsimp only
  cases Hash.allocLoop s.pool.ckarray 1 s.pool.length.toNat 0 0 with
  | some i => rfl
  | none =>
      dsimp only
      rw [if_neg fun hgrow => hgrow.2 rfl]
      rfl

/-- All of them are counted, if there is a place for one. -/
theorem count_copyIns
    (partitions : List Partition) :
    (partitions.foldl copyIn s).pool.count =
      if (s.pool.alloc 1 0).1 = none then s.pool.count
      else s.pool.count + BitVec.ofNat 32 partitions.length := by
  induction partitions generalizing s with
  | nil => simp
  | cons p partitions ih =>
      have hfound : ((s.copyIn p).pool.alloc 1 0).1 = (s.pool.alloc 1 0).1 := by
        rw [alloc_found, alloc_found, pool_copyIn]
      rw [List.foldl_cons, ih, hfound, pool_copyIn]
      dsimp only
      split_ifs
      · rfl
      · rw [List.length_cons, Nat.add_comm, BitVec.ofNat_add, BitVec.add_assoc]
        rfl

/-- The loop copies what is in front of the first partition without a signature. -/
theorem loadLoop_eq
    (data : PartitionTable) (left t : Nat) :
    loadLoop data left t s =
      (((List.range' t left).map data).takeWhile Partition.signed).foldl copyIn s := by
  induction left generalizing t s with
  | zero => rfl
  | succ left ih =>
      rw [loadLoop, List.range'_succ, List.map_cons, List.takeWhile_cons]
      split_ifs
      · rw [List.foldl_cons, ih]
      · rfl

theorem loadPartitionTables_eq
    (tables : List PartitionTable) :
    tables.foldl loadPartitionTable s =
      (tables.flatMap PartitionTable.partitions).foldl copyIn s := by
  induction tables generalizing s with
  | nil => rfl
  | cons data tables ih =>
      rw [List.foldl_cons, ih, List.flatMap_cons, List.foldl_append, loadPartitionTable,
        loadLoop_eq, ← List.range_eq_range']
      rfl

end Partitions

end Places

/--
**One slot for all partitions.**  Whatever tables the disks have, and in whatever order they
are loaded, the memory of the pool changes in the place of the next partition only, and
what is there is the last partition of them all; the pool counts every one of them.
-/
theorem tables_share_slot
    (s : Partitions)
    (tables : List PartitionTable) :
    let partitions := tables.flatMap PartitionTable.partitions
    let s' := tables.foldl Partitions.loadPartitionTable s
    s'.bytes =
        (match partitions.getLast? with
        | none => s.bytes
        | some p => placePartition s.bytes s.place p) ∧
      s'.pool.count =
        if (s.pool.alloc 1 0).1 = none then s.pool.count
        else s.pool.count + BitVec.ofNat 32 partitions.length := by
  dsimp only
  rw [Partitions.loadPartitionTables_eq]
  exact ⟨Partitions.bytes_copyIns _, Partitions.count_copyIns _⟩

end Filesystem
end BestKernel
