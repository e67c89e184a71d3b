import BestKernel.Kontrol.Hash
import BestKernel.Library.Runs
import Mathlib.Tactic.Tauto

/-!
# Guards on descriptors

Thirteen system calls start by refusing a descriptor that is not live.  They do it
in three ways.  Most compare it with the number of open descriptors, which is right
only while no slot below that number is free (`count` is not the largest live
descriptor).  `SYS_RMFILE` and `SYS_RMDIR` compare it with the length of the table.
`SYS_EXEC`, `SYS_MODCTL` and `SYS_MODINSERT` compare the other way round and let the
length itself through; the first two of them look the slot up in the `ckarray` of
the process, which is that of its threads.

`guard_exact_iff` says for each call, each table and each descriptor when the guard
is the right one.  The tables are those of `Hash`, whose `alloc` marks nothing, so
that opening a descriptor makes none live where the table cannot grow
(`live_descriptors_fixed`).

Readings of the source.  `ckarray` gives the bytes behind the array as well.  The
index `descs` in `SYS_EXEC` is the descriptor.  The other checks of the calls are
not part of the guard.
-/

namespace BestKernel
namespace Syscalls

open Machine
open Kontrol
open Runs

/-- The descriptors of a process, and the `ckarray` of the process itself. -/
structure DescriptorTable where
  descs : Hash
  process_ckarray : Nat → Byte

/-- The calls that take a descriptor. -/
inductive DescriptorCall where
  | SYSOPEN
  | SYSREAD
  | SYSWRITE
  | SYSCLOSE
  | SYS_RMFILE
  | SYS_RMDIR
  | SYS_DISKSYNC
  | SYS_STAT
  | SYS_CHMETA
  | SYS_FMAP
  | SYS_EXEC
  | SYS_MODCTL
  | SYS_MODINSERT
deriving DecidableEq, Repr

namespace DescriptorTable

/-- `!(process->descs->count > desc) || (process->descs->ckarray[desc] == 0)`. -/
def countRefuses (t : DescriptorTable) (desc : Half) : Bool :=
  ¬ t.descs.count > desc ∨ t.descs.ckarray desc.toNat = 0

/-- `!(process->descs->length > desc) || (process->descs->ckarray[desc] == 0)`. -/
def lengthRefuses (t : DescriptorTable) (desc : Half) : Bool :=
  ¬ t.descs.length > desc ∨ t.descs.ckarray desc.toNat = 0

/-- `(desc > process->descs->length) || (ckarray[desc] == 0)`. -/
def beyondRefuses (t : DescriptorTable) (ckarray : Nat → Byte) (desc : Half) : Bool :=
  desc > t.descs.length ∨ ckarray desc.toNat = 0

/-- The two guards of `SYS_FMAP`. -/
def fmapRefuses (t : DescriptorTable) (desc : Half) : Bool :=
  desc > 1#32 <<< 14 ∨ t.countRefuses desc

/-- The guard of each call. -/
def refuses (t : DescriptorTable) (desc : Half) : DescriptorCall → Bool
  | .SYSOPEN => t.countRefuses desc
  | .SYSREAD => t.countRefuses desc
  | .SYSWRITE => t.countRefuses desc
  | .SYSCLOSE => t.countRefuses desc
  | .SYS_RMFILE => t.lengthRefuses desc
  | .SYS_RMDIR => t.lengthRefuses desc
  | .SYS_DISKSYNC => t.countRefuses desc
  | .SYS_STAT => t.countRefuses desc
  | .SYS_CHMETA => t.countRefuses desc
  | .SYS_FMAP => t.fmapRefuses desc
  | .SYS_EXEC => t.beyondRefuses t.process_ckarray desc
  | .SYS_MODCTL => t.beyondRefuses t.process_ckarray desc
  | .SYS_MODINSERT => t.beyondRefuses t.descs.ckarray desc

/-- What `SYSOPEN` does to the table. -/
def sysopen (t : DescriptorTable) (dir_descriptor : Half) (tryn : Word) : DescriptorTable :=
  if t.refuses dir_descriptor .SYSOPEN then t
  else { t with descs := (t.descs.alloc 1 tryn).2 }

/-- `&process->descs->pool[desc]`. -/
def slotAddress (t : DescriptorTable) (desc : Half) : Word :=
  t.descs.pool + t.descs.stride * desc.setWidth 64

/-- What `SYSCLOSE` does to the table, and the memory it clears. -/
def sysclose (t : DescriptorTable) (mem : ByteMemory) (desc : Half) :
    DescriptorTable × ByteMemory :=
  if t.refuses desc .SYSCLOSE then (t, mem)
  else
    let (descs, mem) := t.descs.free mem (t.slotAddress desc) 1
    ({ t with descs := descs }, mem)

end DescriptorTable

/-- The table and the memory, between opens and closes. -/
structure OpenFiles where
  table : DescriptorTable
  mem : ByteMemory

inductive OpenOp where
  | sysopen (dir_descriptor : Half) (tryn : Word)
  | sysclose (desc : Half)

def OpenStep (s : OpenFiles) (op : OpenOp) (s' : OpenFiles) : Prop :=
  match op with
  | .sysopen dir_descriptor tryn =>
      s' = { s with table := s.table.sysopen dir_descriptor tryn }
  | .sysclose desc =>
      s' = ⟨(s.table.sysclose s.mem desc).1, (s.table.sysclose s.mem desc).2⟩

/-- A live descriptor. -/
def DescriptorTable.Live (t : DescriptorTable) (desc : Half) : Prop :=
  desc < t.descs.length ∧ t.descs.ckarray desc.toNat ≠ 0

/-- The guard lets the call through exactly for a live descriptor. -/
def GuardExact (t : DescriptorTable) (desc : Half) (call : DescriptorCall) : Prop :=
  t.refuses desc call = false ↔ t.Live desc

/-- When the guard of a call is right. -/
def GuardSafe (t : DescriptorTable) (desc : Half) : DescriptorCall → Prop
  | .SYS_RMFILE => True
  | .SYS_RMDIR => True
  | .SYS_FMAP =>
      t.descs.ckarray desc.toNat ≠ 0 →
        (desc ≤ 1#32 <<< 14 ∧ desc < t.descs.count ↔ desc < t.descs.length)
  | .SYS_EXEC =>
      (desc < t.descs.length →
        (t.process_ckarray desc.toNat ≠ 0 ↔ t.descs.ckarray desc.toNat ≠ 0)) ∧
      (desc = t.descs.length → t.process_ckarray desc.toNat = 0)
  | .SYS_MODCTL =>
      (desc < t.descs.length →
        (t.process_ckarray desc.toNat ≠ 0 ↔ t.descs.ckarray desc.toNat ≠ 0)) ∧
      (desc = t.descs.length → t.process_ckarray desc.toNat = 0)
  | .SYS_MODINSERT => desc = t.descs.length → t.descs.ckarray desc.toNat = 0
  | _ =>
      t.descs.ckarray desc.toNat ≠ 0 →
        (desc < t.descs.count ↔ desc < t.descs.length)

section Guards

variable {t : DescriptorTable} {desc : Half} {ckarray : Nat → Byte}

theorem countRefuses_eq_false :
    t.countRefuses desc = false ↔
      desc < t.descs.count ∧ t.descs.ckarray desc.toNat ≠ 0 := by
  simp [DescriptorTable.countRefuses]

/-- The comparison with the number of descriptors. -/
theorem countRefuses_exact_iff :
    (t.countRefuses desc = false ↔ t.Live desc) ↔
      (t.descs.ckarray desc.toNat ≠ 0 →
        (desc < t.descs.count ↔ desc < t.descs.length)) := by
  rw [countRefuses_eq_false, DescriptorTable.Live, and_congr_left_iff]

/-- The same below the bound of `SYS_FMAP`. -/
theorem fmapRefuses_exact_iff :
    (t.fmapRefuses desc = false ↔ t.Live desc) ↔
      (t.descs.ckarray desc.toNat ≠ 0 →
        (desc ≤ 1#32 <<< 14 ∧ desc < t.descs.count ↔ desc < t.descs.length)) := by
  have hpasses : t.fmapRefuses desc = false ↔
      (desc ≤ 1#32 <<< 14 ∧ desc < t.descs.count) ∧ t.descs.ckarray desc.toNat ≠ 0 := by
    rw [and_assoc, ← countRefuses_eq_false]
    simp [DescriptorTable.fmapRefuses]
  rw [hpasses, DescriptorTable.Live, and_congr_left_iff]

/-- The comparison with the length is always right. -/
theorem lengthRefuses_exact :
    t.lengthRefuses desc = false ↔ t.Live desc := by
  simp [DescriptorTable.lengthRefuses, DescriptorTable.Live]

/-- The comparison with the length the other way round. -/
theorem beyondRefuses_exact_iff :
    (t.beyondRefuses ckarray desc = false ↔ t.Live desc) ↔
      (desc < t.descs.length →
        (ckarray desc.toNat ≠ 0 ↔ t.descs.ckarray desc.toNat ≠ 0)) ∧
      (desc = t.descs.length → ckarray desc.toNat = 0) := by
  have hpasses : t.beyondRefuses ckarray desc = false ↔
      desc ≤ t.descs.length ∧ ckarray desc.toNat ≠ 0 := by
    simp [DescriptorTable.beyondRefuses]
  have hle : desc ≤ t.descs.length ↔ desc < t.descs.length ∨ desc = t.descs.length := by
    rw [BitVec.le_def, BitVec.lt_def, ← BitVec.toNat_inj]
    exact Nat.le_iff_lt_or_eq
  rw [hpasses, hle, DescriptorTable.Live]
  by_cases hlt : desc < t.descs.length
  · have hne : desc ≠ t.descs.length := by
      rintro rfl
      exact BitVec.lt_irrefl _ hlt
    simp [hlt, hne]
  · simp [hlt]

end Guards

/-- **When the guard of a call lets exactly the live descriptors through.** -/
theorem guard_exact_iff
    (t : DescriptorTable) (desc : Half) (call : DescriptorCall) :
    GuardExact t desc call ↔ GuardSafe t desc call := by
  unfold GuardExact
  cases call with
  | SYSOPEN => exact countRefuses_exact_iff
  | SYSREAD => exact countRefuses_exact_iff
  | SYSWRITE => exact countRefuses_exact_iff
  | SYSCLOSE => exact countRefuses_exact_iff
  | SYS_RMFILE => exact iff_true_intro lengthRefuses_exact
  | SYS_RMDIR => exact iff_true_intro lengthRefuses_exact
  | SYS_DISKSYNC => exact countRefuses_exact_iff
  | SYS_STAT => exact countRefuses_exact_iff
  | SYS_CHMETA => exact countRefuses_exact_iff
  | SYS_FMAP => exact fmapRefuses_exact_iff
  | SYS_EXEC => exact beyondRefuses_exact_iff
  | SYS_MODCTL => exact beyondRefuses_exact_iff
  | SYS_MODINSERT =>
      refine beyondRefuses_exact_iff.trans ?_
      exact and_iff_right fun _ => Iff.rfl

section Marks

variable {t t' t'' : DescriptorTable}

/-- A table of the same length that does not grow, with the marks of before but for that of
descriptor 0, which may be gone. -/
structure KeepsMarks (t t' : DescriptorTable) : Prop where
  type : t'.descs.type = .POINTER
  length : t'.descs.length = t.descs.length
  marks : SameMarks t.descs.ckarray t'.descs.ckarray

theorem KeepsMarks.refl
    (htype : t.descs.type = .POINTER) :
    KeepsMarks t t :=
  ⟨htype, rfl, .refl _⟩

theorem KeepsMarks.trans
    (h : KeepsMarks t t')
    (h' : KeepsMarks t' t'') :
    KeepsMarks t t'' :=
  ⟨h'.type, h'.length.trans h.length, h.marks.trans h'.marks⟩

theorem KeepsMarks.live
    (h : KeepsMarks t t')
    {desc : Half}
    (hlive : t'.Live desc) :
    t.Live desc := by
  obtain ⟨hlength, hmark⟩ := hlive
  refine ⟨h.length ▸ hlength, ?_⟩
  by_cases hzero : desc.toNat = 0
  · rw [hzero] at hmark ⊢
    exact h.marks.first.elim (fun hsame => hsame ▸ hmark) fun hgone => absurd hgone hmark
  · rwa [h.marks.others _ hzero] at hmark

theorem KeepsMarks.stays_live
    (h : KeepsMarks t t')
    {desc : Half}
    (hdesc : desc ≠ 0)
    (hlive : t.Live desc) :
    t'.Live desc := by
  obtain ⟨hlength, hmark⟩ := hlive
  refine ⟨h.length.symm ▸ hlength, ?_⟩
  rwa [h.marks.others _ fun hzero => hdesc (BitVec.eq_of_toNat_eq hzero)]

theorem sysopen_keepsMarks
    (htype : t.descs.type = .POINTER)
    (dir_descriptor : Half) (tryn : Word) :
    KeepsMarks t (t.sysopen dir_descriptor tryn) := by
  have hfixed : (t.descs.alloc 1 tryn).2.type = .POINTER ∧
      (t.descs.alloc 1 tryn).2.length = t.descs.length := by
    unfold Hash.alloc
    split
    · exact ⟨htype, rfl⟩
    · rw [if_neg fun h => absurd (htype.symm.trans h.1) (by decide)]
      exact ⟨htype, rfl⟩
  unfold DescriptorTable.sysopen
  split_ifs
  · exact .refl htype
  · refine ⟨hfixed.1, hfixed.2, ?_⟩
    rw [Hash.alloc_ckarray]
    exact .refl _

theorem sysclose_keepsMarks
    (htype : t.descs.type = .POINTER)
    (mem : ByteMemory) (desc : Half) :
    KeepsMarks t (t.sysclose mem desc).1 := by
  unfold DescriptorTable.sysclose
  split_ifs
  · exact .refl htype
  · exact ⟨htype, rfl, Hash.free_sameMarks mem _⟩

/-- **Opening makes no descriptor live, and closing makes none dead but the descriptor 0**, in
a table that does not grow, as `exec` makes them. -/
theorem live_descriptors_fixed
    {s : OpenFiles} {run : List (OpenOp × OpenFiles)}
    (htype : s.table.descs.type = .POINTER)
    (hrun : Run OpenStep s run) :
    Always (fun s' => (∀ desc, s'.table.Live desc → s.table.Live desc) ∧
      ∀ desc, desc ≠ 0 → s.table.Live desc → s'.table.Live desc) s run := by
  have hkept : Always (fun s' => KeepsMarks s.table s'.table) s run := by
    refine always_of_preserved ?_ hrun (.refl htype)
    intro s₁ op s₂ hmarks hstep
    cases op with
    | sysopen dir_descriptor tryn =>
        obtain rfl := hstep
        exact hmarks.trans (sysopen_keepsMarks hmarks.type dir_descriptor tryn)
    | sysclose desc =>
        obtain rfl := hstep
        exact hmarks.trans (sysclose_keepsMarks hmarks.type s₁.mem desc)
  exact hkept.mono fun s' h => ⟨fun _ => h.live, fun _ => h.stays_live⟩

end Marks

/-- The table of a process that `exec` has just made: all of it but the pool is
zero, so that both arrays are the bytes from address 0 on. -/
def freshTable (bytes : Nat → Byte) : DescriptorTable where
  descs := ⟨.POINTER, 0, 0, bytes, 4096, 8⟩
  process_ckarray := bytes

/-- Three live descriptors. -/
def threeOpen : DescriptorTable where
  descs := ⟨.POINTER, 3, 3, fun i => if i < 3 then 255 else 0, 4096, 8⟩
  process_ckarray := fun _ => 0

/-- The first of three descriptors opens a file, and is closed. -/
theorem live_descriptors_fixed_threeOpen :
    ∃ s₁ s₂, Run OpenStep ⟨threeOpen, fun _ => 0⟩
        [(OpenOp.sysopen 0 0, s₁), (OpenOp.sysclose 0, s₂)] ∧
      Always (fun s' => (∀ desc, s'.table.Live desc → threeOpen.Live desc) ∧
          ∀ desc, desc ≠ 0 → threeOpen.Live desc → s'.table.Live desc)
        ⟨threeOpen, fun _ => 0⟩ [(OpenOp.sysopen 0 0, s₁), (OpenOp.sysclose 0, s₂)] := by
  obtain ⟨s₁, hopen⟩ : ∃ s₁, OpenStep ⟨threeOpen, fun _ => 0⟩ (.sysopen 0 0) s₁ := ⟨_, rfl⟩
  obtain ⟨s₂, hclose⟩ : ∃ s₂, OpenStep s₁ (.sysclose 0) s₂ := ⟨_, rfl⟩
  have hrun := Run.cons hopen (Run.cons hclose (Run.nil _))
  exact ⟨s₁, s₂, hrun, live_descriptors_fixed rfl hrun⟩

/-- A new process can pass the descriptor 0, which it does not have, to `SYS_EXEC`;
and when the first of three descriptors was closed, `SYSREAD` refuses the last. -/
theorem guards_not_exact :
    ¬ GuardExact (freshTable fun _ => 1) 0 .SYS_EXEC ∧
      ∃ s run, s.table = threeOpen ∧ Run OpenStep s run ∧
        ¬ Always (fun s => GuardExact s.table 2 .SYSREAD) s run := by
  constructor
  · intro hexact
    have hlive : (freshTable fun _ => 1).Live 0 := hexact.mp (by decide)
    exact absurd hlive.1 (by decide)
  · have hstep : OpenStep ⟨threeOpen, fun _ => 0⟩ (.sysclose 0)
        ⟨(threeOpen.sysclose (fun _ => 0) 0).1, (threeOpen.sysclose (fun _ => 0) 0).2⟩ := rfl
    refine ⟨_, _, rfl, Run.cons hstep (Run.nil _), ?_⟩
    intro halways
    have hexact := halways.2 _ (List.mem_singleton.mpr rfl)
    have hlive : (threeOpen.sysclose (fun _ => 0) 0).1.Live 2 := ⟨by decide, by decide⟩
    exact absurd (hexact.mpr hlive) (by decide)

end Syscalls
end BestKernel
