import BestKernel.Syscalls.UserBuffers

/-!
# The bounds of a file

What `Virtual_fs::read` and `write` ask the disk for: a position and a number of bytes.
`InBounds` says that this range lies in the file and that no sum on the way wraps around.
The one check is that the offset is not beyond the end of the file; the number of bytes is
passed on as it comes.
-/

namespace BestKernel
namespace Syscalls

open Machine Mem

section Specification

variable (file : Meta) (amount offset : Word)

/-- The position and the number of bytes that the disk is asked for, if it is. -/
def asked (beyond : Int) : Option (Word × Word) :=
  match noData file offset beyond with
  | some _ => none
  | none => some (file.relpos + offset, amount)

/-- **The range asked for lies in the file**, and the sums of its start and its end do
not wrap around. -/
def InBounds (beyond : Int) : Prop :=
  ∀ start number, asked file amount offset beyond = some (start, number) →
    start.toNat = file.relpos.toNat + offset.toNat ∧
      start.toNat + number.toNat < 2 ^ 64 ∧
      file.relpos.toNat ≤ start.toNat ∧
      start.toNat + number.toNat ≤ file.relpos.toNat + file.length.toNat

/-- The condition: the offset is beyond the end, or the bytes are there. -/
def RangeSafe : Prop :=
  offset > file.length ∨
    offset.toNat + amount.toNat ≤ file.length.toNat ∧
      file.relpos.toNat + offset.toNat + amount.toNat < 2 ^ 64

/-- A file with data on the disk. -/
def IsStorage : Prop := file.type ≠ DIRECTORY ∧ file.type ≠ DEVICE

end Specification

section Exactness

variable {file : Meta} {amount offset : Word} {beyond : Int}

theorem noData_storage_iff
    (hstorage : IsStorage file) :
    noData file offset beyond = none ↔ ¬ offset > file.length := by
  unfold noData
  rw [if_neg hstorage.1, if_neg hstorage.2]
  split_ifs with hbeyond <;> simp [hbeyond]

theorem asked_storage
    (hstorage : IsStorage file) :
    asked file amount offset beyond =
      if offset > file.length then none else some (file.relpos + offset, amount) := by
  have hdata : noData file offset beyond = none ↔ ¬ offset > file.length :=
    noData_storage_iff hstorage
  unfold asked
  split_ifs with hbeyond
  · cases hcode : noData file offset beyond with
    | none => exact absurd hbeyond (hdata.mp hcode)
    | some code => rfl
  · rw [hdata.mpr hbeyond]

/-- What is asked for is what the disk is handed. -/
theorem vfsTransfer_asked (disks : Disks) (fuel : Nat) (action : DiskAction) (s : State)
    (buf : Word) :
    vfsTransfer disks fuel beyond action s file buf amount offset =
      match asked file amount offset beyond with
      | none => some ((noData file offset beyond).getD 0, s, [])
      | some (start, number) =>
          (diskRequest disks action file.partition start fuel s.process.pagetree buf number
            s.words s.bytes).map fun t =>
              (0, { s with words := t.words, bytes := t.bytes }, t.accessed) := by
  unfold vfsTransfer vfsBy asked
  cases noData file offset beyond <;> rfl

theorem inBounds_iff
    (hstorage : IsStorage file) :
    InBounds file amount offset beyond ↔ RangeSafe file amount offset := by
  unfold InBounds RangeSafe
  rw [asked_storage hstorage]
  by_cases hbeyond : offset > file.length
  · rw [if_pos hbeyond]
    exact iff_of_true (fun _ _ h => nomatch h) (Or.inl hbeyond)
  · rw [if_neg hbeyond, or_iff_right hbeyond]
    constructor
    · intro h
      obtain ⟨hstart, hend, _, hlength⟩ := h _ _ rfl
      rw [hstart] at hend hlength
      omega
    · rintro ⟨hlength, hend⟩ start number h
      obtain ⟨rfl, rfl⟩ := Prod.mk.inj (Option.some.inj h)
      rw [BitVec.toNat_add, Nat.mod_eq_of_lt (by omega)]
      omega

/-- **When reads and writes stay inside the file**: exactly when the offset is beyond its
end or the bytes asked for are there.  The two directions differ in nothing else, and the
range is the one that the disk is handed. -/
theorem file_bounds_iff (disks : Disks) (fuel : Nat) (s : State) (buf : Word)
    (hstorage : IsStorage file) :
    (InBounds file amount offset 3 ↔ RangeSafe file amount offset) ∧
    (InBounds file amount offset 4 ↔ RangeSafe file amount offset) ∧
    vfsRead disks fuel s file buf amount offset =
      (match asked file amount offset 3 with
      | none => some ((noData file offset 3).getD 0, s, [])
      | some (start, number) =>
          (diskRequest disks .READ file.partition start fuel s.process.pagetree buf number
            s.words s.bytes).map fun t =>
              (0, { s with words := t.words, bytes := t.bytes }, t.accessed)) ∧
    vfsWrite disks fuel s file buf amount offset =
      (match asked file amount offset 4 with
      | none => some ((noData file offset 4).getD 0, s, [])
      | some (start, number) =>
          (diskRequest disks .WRITE file.partition start fuel s.process.pagetree buf number
            s.words s.bytes).map fun t =>
              (0, { s with words := t.words, bytes := t.bytes }, t.accessed)) :=
  ⟨inBounds_iff hstorage, inBounds_iff hstorage, vfsTransfer_asked disks fuel .READ s buf,
    vfsTransfer_asked disks fuel .WRITE s buf⟩

/-- A file of 100 bytes at position 4096. -/
def shortFile : Meta := ⟨fun _ => 0, 1, 0, 0, 4096, 100⟩

theorem shortFile_inBounds : InBounds shortFile 100 0 3 :=
  ((file_bounds_iff idleDisks 1 nothingMapped 4096 ⟨by decide, by decide⟩).1).mpr
    (Or.inr (by decide))

/-- One byte at its end is asked for, and is not in it. -/
theorem shortFile_not_inBounds : ¬ InBounds shortFile 1 100 3 := by
  rw [inBounds_iff ⟨by decide, by decide⟩]
  rintro (hbeyond | ⟨hlength, _⟩)
  · exact absurd hbeyond (by decide)
  · exact absurd hlength (by decide)

end Exactness

end Syscalls
end BestKernel
