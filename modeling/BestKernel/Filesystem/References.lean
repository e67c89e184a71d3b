import BestKernel.Filesystem.Removal
import BestKernel.Library.Runs

/-!
# Descriptors and the files they were opened on

A live descriptor should refer to an occupied slot that still holds the file it was
opened on.  Which file a slot holds, and which one a descriptor was opened on, is
booked along the run.

`SYSOPEN` makes no descriptor live.  `SYS_RMFILE` and `SYS_RMDIR` clear the file of
the descriptor they are called with and leave the descriptor live, and `SYSCLOSE`
clears a slot of the table but unmarks slot 0 only.  So the references are good along
a run exactly as long as nothing is removed and nothing but descriptor 0 is closed
(`references_exact_iff`).
-/

namespace BestKernel
namespace Filesystem

open Machine
open Kontrol
open Runs
open Syscalls (DescriptorTable WRITE)

/-- The kernel, the file that each slot holds, and the file that each descriptor of a
process was opened on. -/
structure Tracked where
  kernel : Kernel
  file : Nat → Option Nat
  opened : Nat → Half → Nat

/-- The calls, with the process that makes them. -/
inductive ReferenceOp where
  | sysopen (pid : Nat) (call : OpenCall)
  | sysclose (pid : Nat) (desc : Half)
  | rmfile (pid : Nat) (desc : Half)
  | rmdir (pid : Nat) (desc : Half)
  | exit (pid : Nat) (bytes : Nat → Byte)

/-- A removal that succeeded takes the file out of its slot. -/
def Tracked.afterRemoval (s : Tracked) (file : Nat) (result : Int × Kernel) : Tracked :=
  { s with
    kernel := result.2
    file := if result.1 = 0 then Function.update s.file file none else s.file }

/-- The steps.  A file that is created is a new one, and what a live descriptor was
opened on does not change. -/
def ReferenceStep (k : Constants) (s : Tracked) (op : ReferenceOp) (s' : Tracked) : Prop :=
  match op with
  | .sysopen pid call =>
      ∃ fuel r, s.kernel.sysopen k pid call fuel = some r ∧
        s'.kernel = r.kernel ∧
        (∀ i, r.created ≠ some i → s'.file i = s.file i) ∧
        ∀ q d, (s.kernel.processes q).table.Live d → s'.opened q d = s.opened q d
  | .sysclose pid desc => s' = { s with kernel := (s.kernel.sysclose pid desc).2 }
  | .rmfile pid desc =>
      s' = s.afterRemoval (s.kernel.fileOf pid desc) (s.kernel.rmfile k pid desc)
  | .rmdir pid desc =>
      s' = s.afterRemoval (s.kernel.fileOf pid desc) (s.kernel.rmdir pid desc)
  | .exit pid bytes => s' = { s with kernel := s.kernel.pkill pid bytes }

/-- The descriptor refers to an occupied slot that holds the file it was opened on. -/
def Refers (s : Tracked) (pid : Nat) (d : Half) : Prop :=
  ∃ x, (s.kernel.processes pid).entries d.toNat = some x ∧
    x.findex.toNat < s.kernel.vfs.pool.length.toNat ∧
    s.kernel.vfs.pool.ckarray x.findex.toNat ≠ 0 ∧
    s.file x.findex.toNat = some (s.opened pid d)

/-- Every live descriptor does. -/
def ReferencesExact (s : Tracked) : Prop :=
  ∀ pid d, (s.kernel.processes pid).table.Live d → Refers s pid d

/-- Nothing is removed, and only the descriptor 0 is closed. -/
def ReferenceSafe (k : Constants) (s : Tracked) : ReferenceOp → Prop
  | .sysopen _ _ => True
  | .sysclose pid desc =>
      (s.kernel.processes pid).table.refuses desc .SYSCLOSE = true ∨ desc = 0 ∨
        ¬ (s.kernel.processes pid).table.Live desc
  | .rmfile pid desc =>
      (s.kernel.processes pid).table.refuses desc .SYS_RMFILE = true ∨
        s.kernel.modeDenied k pid WRITE desc = true
  | .rmdir pid desc =>
      (s.kernel.processes pid).table.refuses desc .SYS_RMDIR = true ∨
        s.kernel.rmdirDenied pid desc = true ∨
        (s.kernel.vfs.descriptions (s.kernel.fileOf pid desc)).children.count ≠ 0
  | .exit _ _ => True

/-- The tables are those that `exec` makes, and the pool of files is aligned. -/
structure Regular (s : Kernel) : Prop where
  type : ∀ pid, (s.processes pid).table.descs.type = .POINTER
  stride : ∀ pid, (s.processes pid).table.descs.stride = 8
  aligned : s.vfs.Aligned

section Slots

variable {h : Hash}

/-- The slot at eight bytes times its number. -/
theorem slotOf_offset
    (hstride : h.stride = 8)
    {i : Nat}
    (hi : i < 2 ^ 32) :
    h.slotOf (h.pool + 8#64 * BitVec.ofNat 64 i) = i := by
  have hoffset : (8#64 * BitVec.ofNat 64 i).toNat = 8 * i := by
    rw [BitVec.toNat_mul, BitVec.toNat_ofNat, BitVec.toNat_ofNat]
    omega
  have hquotient : (8#64 * BitVec.ofNat 64 i / 8#64).toNat = i := by
    rw [BitVec.toNat_udiv, hoffset]
    exact Nat.mul_div_cancel_left i (by decide)
  have hsub : h.pool + 8#64 * BitVec.ofNat 64 i - h.pool = 8#64 * BitVec.ofNat 64 i := by
    rw [BitVec.add_comm, BitVec.add_sub_cancel]
  rw [Hash.slotOf, hstride, hsub, BitVec.toNat_setWidth]
  change (8#64 * BitVec.ofNat 64 i / 8#64).toNat % 2 ^ 32 = i
  rw [hquotient]
  exact Nat.mod_eq_of_lt hi

/-- A single slot that is found is a free one. -/
theorem allocLoop_one
    {ckarray : Nat → Byte} {left i j : Nat}
    (h : Hash.allocLoop ckarray 1 left i 0 = some j) :
    j < i + left ∧ ckarray j = 0 := by
  induction left generalizing i with
  | zero => cases h
  | succ left ih =>
      rw [Hash.allocLoop] at h
      by_cases hfree : ckarray i = 0
      · rw [if_pos hfree] at h
        cases h
        exact ⟨by omega, hfree⟩
      · rw [if_neg hfree] at h
        obtain ⟨hj, hmark⟩ := ih h
        exact ⟨by omega, hmark⟩

/-- Where no slot is found, none is free. -/
theorem allocLoop_one_none
    {ckarray : Nat → Byte} {left i j : Nat}
    (h : Hash.allocLoop ckarray 1 left i 0 = none)
    (hlow : i ≤ j)
    (hhigh : j < i + left) :
    ckarray j ≠ 0 := by
  induction left generalizing i with
  | zero => omega
  | succ left ih =>
      rw [Hash.allocLoop] at h
      by_cases hfree : ckarray i = 0
      · rw [if_pos hfree] at h
        cases h
      · rw [if_neg hfree] at h
        rcases Nat.eq_or_lt_of_le hlow with rfl | hlt
        · exact hfree
        · exact ih h hlt (by omega)

/-- A pool that does not grow hands out a free slot, or has none and stays as it is. -/
theorem alloc_one_cases
    (htype : h.type = .POINTER)
    (hstride : h.stride = 8)
    (tryn : Word) :
    (∃ i, (h.alloc 1 tryn).1.map h.slotOf = some i ∧ i < h.length.toNat ∧ h.ckarray i = 0 ∧
        (h.alloc 1 tryn).2 = { h with count := h.count + 1 }) ∨
      ((∀ i, i < h.length.toNat → h.ckarray i ≠ 0) ∧
        (h.alloc 1 tryn).1.map h.slotOf = none ∧ (h.alloc 1 tryn).2 = h) := by
  unfold Hash.alloc
  cases hfound : Hash.allocLoop h.ckarray 1 h.length.toNat 0 0 with
  | some i =>
      obtain ⟨hi, hfree⟩ := allocLoop_one hfound
      have hlt := h.length.isLt
      left
      exact ⟨i, congrArg some (slotOf_offset hstride (by omega)), by omega, hfree, rfl⟩
  | none =>
      right
      refine ⟨fun i hi => allocLoop_one_none hfound (Nat.zero_le i) (by omega), ?_⟩
      dsimp only
      rw [if_neg (by simp [htype])]
      exact ⟨rfl, rfl⟩

end Slots

section Frames

variable {s : Kernel} {pid q : Nat} {slot : Option Nat} {write : Descriptor → Descriptor}

theorem setProcess_self
    (p : Process) :
    (s.setProcess pid p).processes pid = p := by
  simp [Kernel.setProcess]

theorem setProcess_of_ne
    (p : Process)
    (hq : q ≠ pid) :
    (s.setProcess pid p).processes q = s.processes q := by
  simp [Kernel.setProcess, hq]

@[simp] theorem writeDescriptor_vfs :
    (s.writeDescriptor pid slot write).vfs = s.vfs := by
  cases slot <;> rfl

@[simp] theorem writeDescriptor_table :
    ((s.writeDescriptor pid slot write).processes q).table = (s.processes q).table := by
  cases slot with
  | none => rfl
  | some i =>
      by_cases hq : q = pid
      · subst hq
        rw [Kernel.writeDescriptor, setProcess_self]
      · rw [Kernel.writeDescriptor, setProcess_of_ne _ hq]

/-- Only the slot that is written changes. -/
theorem writeDescriptor_entries
    {i : Nat}
    (h : q = pid → slot ≠ some i) :
    ((s.writeDescriptor pid slot write).processes q).entries i = (s.processes q).entries i := by
  cases slot with
  | none => rfl
  | some j =>
      by_cases hq : q = pid
      · subst hq
        have hne : i ≠ j := fun hij => h rfl (by rw [hij])
        rw [Kernel.writeDescriptor, setProcess_self]
        exact Function.update_of_ne hne _ _
      · rw [Kernel.writeDescriptor, setProcess_of_ne _ hq]

/-- What a process keeps in a step that makes none of its descriptors live. -/
structure Keeps (p p' : Process) : Prop where
  type : p'.table.descs.type = p.table.descs.type
  stride : p'.table.descs.stride = p.table.descs.stride
  live : ∀ d, p'.table.Live d ↔ p.table.Live d
  entries : ∀ d : Half, p.table.Live d → p'.entries d.toNat = p.entries d.toNat

theorem Keeps.refl (p : Process) : Keeps p p :=
  ⟨rfl, rfl, fun _ => Iff.rfl, fun _ _ => rfl⟩

/-- Taking a descriptor makes none live, and the one that is taken was free. -/
theorem takeDescriptor_frame
    (hregular : Regular s)
    (pid : Nat) (tryn : Word) :
    (∀ i, (s.takeDescriptor pid tryn).1 = some i →
        (s.processes pid).table.descs.ckarray i = 0) ∧
      ∀ q, Keeps (s.processes q) ((s.takeDescriptor pid tryn).2.processes q) := by
  have hstep : (s.takeDescriptor pid tryn).1 =
      ((s.processes pid).table.descs.alloc 1 tryn).1.map (s.processes pid).table.descs.slotOf := rfl
  have hself : (s.takeDescriptor pid tryn).2.processes pid =
      { s.processes pid with
        table := { (s.processes pid).table with
          descs := ((s.processes pid).table.descs.alloc 1 tryn).2 } } :=
    setProcess_self _
  have hkeeps : (∀ i, (s.takeDescriptor pid tryn).1 = some i →
        (s.processes pid).table.descs.ckarray i = 0) ∧
      Keeps (s.processes pid) ((s.takeDescriptor pid tryn).2.processes pid) := by
    rw [hself, hstep]
    rcases alloc_one_cases (hregular.type pid) (hregular.stride pid) tryn with
      ⟨i, hslot, -, hfree, halloc⟩ | ⟨-, hslot, halloc⟩
    · rw [hslot, halloc]
      refine ⟨fun j hj => ?_, ⟨rfl, rfl, fun _ => Iff.rfl, fun _ _ => rfl⟩⟩
      obtain rfl : i = j := Option.some.inj hj
      exact hfree
    · rw [hslot, halloc]
      refine ⟨fun j hj => ?_, Keeps.refl _⟩
      simp at hj
  refine ⟨hkeeps.1, fun q => ?_⟩
  by_cases hq : q = pid
  · subst hq
    exact hkeeps.2
  · have hother : (s.takeDescriptor pid tryn).2.processes q = s.processes q :=
      setProcess_of_ne _ hq
    rw [hother]
    exact Keeps.refl _

/-- Writing a descriptor that is not live. -/
theorem Keeps.writeDescriptor
    {p : Process}
    (h : Keeps p (s.processes q))
    (hslot : q = pid → ∀ i, slot = some i → p.table.descs.ckarray i = 0) :
    Keeps p ((s.writeDescriptor pid slot write).processes q) where
  type := by rw [writeDescriptor_table, h.type]
  stride := by rw [writeDescriptor_table, h.stride]
  live d := by rw [writeDescriptor_table, h.live]
  entries d hd := by
    rw [writeDescriptor_entries (fun hq hwritten => hd.2 (hslot hq _ hwritten)), h.entries d hd]

/-- A call of `SYSOPEN` creates no file and leaves the files as they are. -/
theorem sysopen_vfs
    {k : Constants} {call : OpenCall} {fuel : Nat} {r : OpenResult}
    (haligned : s.vfs.Aligned)
    (h : s.sysopen k pid call fuel = some r) :
    r.created = none ∧ r.kernel.vfs = s.vfs := by
  cases hguard : (s.processes pid).table.refuses call.dir_descriptor .SYSOPEN with
  | true =>
      rw [sysopen_refused hguard] at h
      cases h
      exact ⟨rfl, rfl⟩
  | false =>
      obtain ⟨address, rfl⟩ := sysopen_passes haligned hguard h
      refine ⟨rfl, ?_⟩
      dsimp only
      rw [writeDescriptor_vfs, writeDescriptor_vfs]
      rfl

/-- **`SYSOPEN` touches no file and no live descriptor.** -/
theorem sysopen_frame
    {k : Constants} {call : OpenCall} {fuel : Nat} {r : OpenResult}
    (hregular : Regular s)
    (h : s.sysopen k pid call fuel = some r) :
    r.created = none ∧ r.kernel.vfs = s.vfs ∧
      ∀ q, Keeps (s.processes q) (r.kernel.processes q) := by
  obtain ⟨hcreated, hvfs⟩ := sysopen_vfs hregular.aligned h
  refine ⟨hcreated, hvfs, ?_⟩
  cases hguard : (s.processes pid).table.refuses call.dir_descriptor .SYSOPEN with
  | true =>
      rw [sysopen_refused hguard] at h
      cases h
      exact fun q => Keeps.refl _
  | false =>
      obtain ⟨address, rfl⟩ := sysopen_passes hregular.aligned hguard h
      obtain ⟨hfree, hkeeps⟩ := takeDescriptor_frame hregular pid call.tryn
      have hslot : ∀ q, q = pid → ∀ i, (s.takeDescriptor pid call.tryn).1 = some i →
          (s.processes q).table.descs.ckarray i = 0 := by
        rintro q rfl i hi
        exact hfree i hi
      exact fun q => ((hkeeps q).writeDescriptor (hslot q)).writeDescriptor (hslot q)

end Frames

section Closing

variable {s : Kernel} {pid q : Nat} {desc : Half}

theorem sysclose_refused
    (hrefused : (s.processes pid).table.refuses desc .SYSCLOSE = true) :
    (s.sysclose pid desc).2 = s := by
  rw [Kernel.sysclose, if_pos hrefused]

theorem sysclose_self
    (hpasses : (s.processes pid).table.refuses desc .SYSCLOSE = false) :
    (s.sysclose pid desc).2.processes pid =
      { s.processes pid with
        table := ((s.processes pid).table.sysclose (fun _ => 0) desc).1
        entries := Function.update (s.processes pid).entries desc.toNat none } := by
  rw [Kernel.sysclose, hpasses, if_neg Bool.false_ne_true]
  exact setProcess_self _

theorem sysclose_of_ne
    (hq : q ≠ pid) :
    (s.sysclose pid desc).2.processes q = s.processes q := by
  rw [Kernel.sysclose]
  split_ifs
  · rfl
  · exact setProcess_of_ne _ hq

theorem sysclose_pool :
    (s.sysclose pid desc).2.vfs.pool = s.vfs.pool := by
  rw [Kernel.sysclose]
  split_ifs <;> rfl

theorem sysclose_null :
    (s.sysclose pid desc).2.null = s.null := by
  rw [Kernel.sysclose]
  split_ifs <;> rfl

end Closing

section Tables

variable {s : Kernel} {pid : Nat}

theorem Regular.of_keeps
    {s' : Kernel}
    (h : Regular s)
    (hvfs : s'.vfs = s.vfs)
    (hkeeps : ∀ q, Keeps (s.processes q) (s'.processes q)) :
    Regular s' where
  type q := (hkeeps q).type.trans (h.type q)
  stride q := (hkeeps q).stride.trans (h.stride q)
  aligned := hvfs ▸ h.aligned

theorem Regular.setProcess
    {p : Process}
    (h : Regular s)
    (htype : p.table.descs.type = .POINTER)
    (hstride : p.table.descs.stride = 8) :
    Regular (s.setProcess pid p) where
  type q := by
    by_cases hq : q = pid
    · subst hq
      rw [setProcess_self]
      exact htype
    · rw [setProcess_of_ne _ hq]
      exact h.type q
  stride q := by
    by_cases hq : q = pid
    · subst hq
      rw [setProcess_self]
      exact hstride
    · rw [setProcess_of_ne _ hq]
      exact h.stride q
  aligned := h.aligned

theorem Regular.sysopen
    {k : Constants} {call : OpenCall} {fuel : Nat} {r : OpenResult}
    (h : Regular s)
    (hopen : s.sysopen k pid call fuel = some r) :
    Regular r.kernel :=
  h.of_keeps (sysopen_frame h hopen).2.1 (sysopen_frame h hopen).2.2

theorem Regular.sysclose
    (h : Regular s)
    (pid : Nat) (desc : Half) :
    Regular (s.sysclose pid desc).2 := by
  cases hguard : (s.processes pid).table.refuses desc .SYSCLOSE with
  | true =>
      rw [sysclose_refused hguard]
      exact h
  | false =>
      have htable : ((s.processes pid).table.sysclose (fun _ => 0) desc).1.descs.type =
            (s.processes pid).table.descs.type ∧
          ((s.processes pid).table.sysclose (fun _ => 0) desc).1.descs.stride =
            (s.processes pid).table.descs.stride := by
        rw [DescriptorTable.sysclose, hguard]
        exact ⟨rfl, rfl⟩
      rw [Kernel.sysclose, hguard, if_neg Bool.false_ne_true]
      -- the counter of a file is neither a table nor the pool
      have hclosed : Regular (s.setProcess pid
          { s.processes pid with
            table := ((s.processes pid).table.sysclose (fun _ => 0) desc).1
            entries := Function.update (s.processes pid).entries desc.toNat none }) :=
        h.setProcess (htable.1.trans (h.type pid)) (htable.2.trans (h.stride pid))
      exact ⟨hclosed.type, hclosed.stride, h.aligned.pool, h.aligned.stride⟩

theorem Regular.remove
    (h : Regular s)
    (file : Nat) :
    Regular (s.remove file) :=
  ⟨h.type, h.stride, aligned_remove h.aligned file⟩

theorem Regular.rmfile
    (h : Regular s)
    (k : Constants) (pid : Nat) (desc : Half) :
    Regular (s.rmfile k pid desc).2 := by
  rw [Kernel.rmfile]
  split_ifs
  · exact h
  · exact h
  · exact h.remove _

theorem Regular.rmdir
    (h : Regular s)
    (pid : Nat) (desc : Half) :
    Regular (s.rmdir pid desc).2 := by
  rw [Kernel.rmdir]
  split_ifs
  · exact h
  · exact h
  · exact h
  · exact h.remove _

theorem Regular.pkill
    (h : Regular s)
    (pid : Nat) (bytes : Nat → Byte) :
    Regular (s.pkill pid bytes) :=
  h.setProcess rfl rfl

end Tables

section Steps

variable {k : Constants} {s s' : Tracked} {pid q : Nat} {desc d : Half}

/-- A reference is a matter of the pool, the books and the slot of the descriptor. -/
theorem refers_congr
    (s s' : Tracked)
    (hpool : s'.kernel.vfs.pool = s.kernel.vfs.pool)
    (hfile : s'.file = s.file)
    (hopened : s'.opened q d = s.opened q d)
    (hentries : (s'.kernel.processes q).entries d.toNat = (s.kernel.processes q).entries d.toNat) :
    Refers s' q d ↔ Refers s q d := by
  unfold Refers
  rw [hpool, hfile, hopened, hentries]

theorem sysopen_kept
    {call : OpenCall}
    (hregular : Regular s.kernel)
    (hexact : ReferencesExact s)
    (hstep : ReferenceStep k s (.sysopen pid call) s') :
    ReferencesExact s' := by
  obtain ⟨fuel, r, hopen, hkernel, hfile, hopened⟩ := hstep
  obtain ⟨hcreated, hvfs, hkeeps⟩ := sysopen_frame hregular hopen
  intro q d hlive
  rw [hkernel] at hlive
  have hlive' := ((hkeeps q).live d).mp hlive
  refine (refers_congr s s' ?_ ?_ (hopened q d hlive') ?_).mpr (hexact q d hlive')
  · rw [hkernel, hvfs]
  · funext i
    exact hfile i (by simp [hcreated])
  · rw [hkernel]
    exact (hkeeps q).entries d hlive'

/-- The slot that `SYSCLOSE` frees. -/
theorem slotOf_slotAddress
    {t : DescriptorTable}
    (hstride : t.descs.stride = 8)
    (desc : Half) :
    t.descs.slotOf (t.slotAddress desc) = desc.toNat := by
  have haddress : t.slotAddress desc = t.descs.pool + 8#64 * BitVec.ofNat 64 desc.toNat := by
    rw [DescriptorTable.slotAddress, hstride]
    congr 2
    exact (BitVec.ofNat_toNat 64 desc).symm
  rw [haddress]
  exact slotOf_offset hstride desc.isLt

/-- What `SYSCLOSE` leaves live: every descriptor but 0. -/
theorem sysclose_live
    {t : DescriptorTable} {mem : ByteMemory}
    (hstride : t.descs.stride = 8)
    (hpasses : t.refuses desc .SYSCLOSE = false) :
    (t.sysclose mem desc).1.Live d ↔ t.Live d ∧ ¬ (desc = 0 ∧ d = 0) := by
  have hone : (1 : Half).toNat = 1 := rfl
  have hzero : (desc.toNat ≤ d.toNat ∧ d.toNat < 1) ↔ desc = 0 ∧ d = 0 := by
    rw [← BitVec.toNat_inj, ← BitVec.toNat_inj]
    simp
    omega
  rw [DescriptorTable.sysclose, hpasses, if_neg Bool.false_ne_true]
  unfold DescriptorTable.Live
  dsimp only
  rw [Hash.free_ckarray, slotOf_slotAddress hstride, hone]
  simp only [hzero]
  by_cases hboth : desc = 0 ∧ d = 0
  · simp [hboth]
  · rw [if_neg hboth]
    exact ⟨fun h => ⟨h, hboth⟩, fun h => h.1⟩

/-- Which descriptors of the process are live after a `SYSCLOSE`. -/
theorem live_after_sysclose
    (hregular : Regular s.kernel)
    (hpasses : (s.kernel.processes pid).table.refuses desc .SYSCLOSE = false) :
    ((s.kernel.sysclose pid desc).2.processes pid).table.Live d ↔
      (s.kernel.processes pid).table.Live d ∧ ¬ (desc = 0 ∧ d = 0) := by
  rw [sysclose_self hpasses]
  exact sysclose_live (hregular.stride pid) hpasses

/-- **Closing a descriptor other than 0 leaves it live, over a slot that was cleared.** -/
theorem sysclose_not_exact
    (hregular : Regular s.kernel)
    (hpasses : (s.kernel.processes pid).table.refuses desc .SYSCLOSE = false)
    (hne : desc ≠ 0)
    (hopen : (s.kernel.processes pid).table.Live desc) :
    ¬ ReferencesExact { s with kernel := (s.kernel.sysclose pid desc).2 } := by
  intro hexact
  have hstill : ((s.kernel.sysclose pid desc).2.processes pid).table.Live desc :=
    (live_after_sysclose hregular hpasses).mpr ⟨hopen, fun h => hne h.1⟩
  obtain ⟨x, hx, _⟩ := hexact pid desc hstill
  dsimp only at hx
  rw [sysclose_self hpasses] at hx
  simp at hx

/-- The slots of the descriptors that stay live are left alone. -/
theorem sysclose_kept
    (hregular : Regular s.kernel)
    (hpasses : (s.kernel.processes pid).table.refuses desc .SYSCLOSE = false)
    (hsafe : desc = 0 ∨ ¬ (s.kernel.processes pid).table.Live desc)
    (hexact : ReferencesExact s) :
    ReferencesExact { s with kernel := (s.kernel.sysclose pid desc).2 } := by
  intro q d hd
  by_cases hq : q = pid
  · subst hq
    obtain ⟨hopen, hnot⟩ := (live_after_sysclose hregular hpasses).mp hd
    have hne : d ≠ desc := by
      rintro rfl
      rcases hsafe with hzero | hclosed
      · exact hnot ⟨hzero, hzero⟩
      · exact hclosed hopen
    refine (refers_congr s { s with kernel := (s.kernel.sysclose q desc).2 }
      sysclose_pool rfl rfl ?_).mpr (hexact q d hopen)
    dsimp only
    rw [sysclose_self hpasses]
    exact Function.update_of_ne (fun h => hne (BitVec.eq_of_toNat_eq h)) _ _
  · have hother : (s.kernel.sysclose pid desc).2.processes q = s.kernel.processes q :=
      sysclose_of_ne hq
    dsimp only at hd
    rw [hother] at hd
    refine (refers_congr s { s with kernel := (s.kernel.sysclose pid desc).2 }
      sysclose_pool rfl rfl ?_).mpr (hexact q d hd)
    dsimp only
    rw [hother]

theorem sysclose_exact_iff
    (hregular : Regular s.kernel)
    (hexact : ReferencesExact s)
    (hstep : ReferenceStep k s (.sysclose pid desc) s') :
    ReferencesExact s' ↔ ReferenceSafe k s (.sysclose pid desc) := by
  obtain rfl := hstep
  cases hguard : (s.kernel.processes pid).table.refuses desc .SYSCLOSE with
  | true =>
      rw [sysclose_refused hguard]
      exact iff_of_true hexact (Or.inl hguard)
  | false =>
      constructor
      · intro hexact'
        by_contra hunsafe
        simp only [ReferenceSafe, not_or, not_not] at hunsafe
        obtain ⟨_, hne, hopen⟩ := hunsafe
        exact sysclose_not_exact hregular hguard hne hopen hexact'
      · intro hsafe
        have hsafe' := hsafe.resolve_left (by simp [hguard])
        exact sysclose_kept hregular hguard hsafe' hexact

/-- **A removal that succeeds leaves its own descriptor behind.** -/
theorem removal_not_exact
    (hexact : ReferencesExact s)
    (hopen : (s.kernel.processes pid).table.Live desc) :
    ¬ ReferencesExact (s.afterRemoval (s.kernel.fileOf pid desc)
      (0, s.kernel.remove (s.kernel.fileOf pid desc))) := by
  intro hexact'
  obtain ⟨x, hx, _⟩ := hexact pid desc hopen
  obtain ⟨x', hx', _, _, hfile⟩ := hexact' pid desc hopen
  obtain rfl : x = x' := Option.some.inj (hx.symm.trans hx')
  have hslot : s.kernel.fileOf pid desc = x.findex.toNat := by
    rw [Kernel.fileOf, Kernel.descriptorOf, hx]
    rfl
  rw [hslot] at hfile
  simp [Tracked.afterRemoval] at hfile

theorem rmfile_exact_iff
    (hexact : ReferencesExact s)
    (hstep : ReferenceStep k s (.rmfile pid desc) s') :
    ReferencesExact s' ↔ ReferenceSafe k s (.rmfile pid desc) := by
  obtain rfl := hstep
  unfold Kernel.rmfile ReferenceSafe
  cases hguard : (s.kernel.processes pid).table.refuses desc .SYS_RMFILE with
  | true => exact iff_of_true hexact (Or.inl hguard)
  | false =>
      cases hdenied : s.kernel.modeDenied k pid WRITE desc with
      | true => exact iff_of_true hexact (Or.inr hdenied)
      | false =>
          refine iff_of_false ?_ ?_
          · exact removal_not_exact hexact (Syscalls.lengthRefuses_exact.mp hguard)
          · rintro (hrefused | hrefused)
            · exact Bool.false_ne_true (hguard.symm.trans hrefused)
            · exact Bool.false_ne_true (hdenied.symm.trans hrefused)

theorem rmdir_exact_iff
    (hexact : ReferencesExact s)
    (hstep : ReferenceStep k s (.rmdir pid desc) s') :
    ReferencesExact s' ↔ ReferenceSafe k s (.rmdir pid desc) := by
  obtain rfl := hstep
  unfold Kernel.rmdir ReferenceSafe
  cases hguard : (s.kernel.processes pid).table.refuses desc .SYS_RMDIR with
  | true => exact iff_of_true hexact (Or.inl hguard)
  | false =>
      cases hdenied : s.kernel.rmdirDenied pid desc with
      | true => exact iff_of_true hexact (Or.inr (Or.inl hdenied))
      | false =>
          by_cases hcount :
              (s.kernel.vfs.descriptions (s.kernel.fileOf pid desc)).children.count = 0
          · refine iff_of_false ?_ (by simp [hguard, hdenied, hcount])
            rw [hcount]
            exact removal_not_exact hexact (Syscalls.lengthRefuses_exact.mp hguard)
          · refine iff_of_true ?_ (Or.inr (Or.inr hcount))
            rw [if_pos hcount]
            exact hexact

theorem exit_kept
    {bytes : Nat → Byte}
    (hexact : ReferencesExact s)
    (hstep : ReferenceStep k s (.exit pid bytes) s') :
    ReferencesExact s' := by
  obtain rfl := hstep
  intro q d hd
  by_cases hq : q = pid
  · subst hq
    dsimp only at hd
    rw [Kernel.pkill, setProcess_self] at hd
    exact absurd hd.1 (BitVec.not_lt_zero)
  · have hother : (s.kernel.pkill pid bytes).processes q = s.kernel.processes q :=
      setProcess_of_ne _ hq
    dsimp only at hd
    rw [hother] at hd
    refine (refers_congr s { s with kernel := s.kernel.pkill pid bytes }
      rfl rfl rfl ?_).mpr (hexact q d hd)
    dsimp only
    rw [hother]

/-- **The steps that keep every reference.** -/
theorem reference_step_iff
    {op : ReferenceOp}
    (hregular : Regular s.kernel)
    (hexact : ReferencesExact s)
    (hstep : ReferenceStep k s op s') :
    ReferencesExact s' ↔ ReferenceSafe k s op := by
  cases op with
  | sysopen pid call => exact iff_of_true (sysopen_kept hregular hexact hstep) trivial
  | sysclose pid desc => exact sysclose_exact_iff hregular hexact hstep
  | rmfile pid desc => exact rmfile_exact_iff hexact hstep
  | rmdir pid desc => exact rmdir_exact_iff hexact hstep
  | exit pid bytes => exact iff_of_true (exit_kept hexact hstep) trivial

theorem regular_step
    {op : ReferenceOp}
    (hregular : Regular s.kernel)
    (hstep : ReferenceStep k s op s') :
    Regular s'.kernel := by
  cases op with
  | sysopen pid call =>
      obtain ⟨fuel, r, hopen, hkernel, _, _⟩ := hstep
      rw [hkernel]
      exact hregular.sysopen hopen
  | sysclose pid desc =>
      obtain rfl := hstep
      exact hregular.sysclose pid desc
  | rmfile pid desc =>
      obtain rfl := hstep
      exact hregular.rmfile k pid desc
  | rmdir pid desc =>
      obtain rfl := hstep
      exact hregular.rmdir pid desc
  | exit pid bytes =>
      obtain rfl := hstep
      exact hregular.pkill pid bytes

/--
**The references are good along a run exactly when nothing is removed in it and no
descriptor but 0 is closed.**
-/
theorem references_exact_iff
    {run : List (ReferenceOp × Tracked)}
    (hregular : Regular s.kernel)
    (hexact : ReferencesExact s)
    (hrun : Run (ReferenceStep k) s run) :
    Always ReferencesExact s run ↔ StepsMeet (ReferenceSafe k) s run :=
  always_iff_stepsMeet_of_invariant
    (P := ReferencesExact) (C := ReferenceSafe k) (I := fun s => Regular s.kernel)
    (fun _ _ _ hregular _ hstep _ => regular_step hregular hstep)
    (fun _ _ _ hregular hexact hstep => reference_step_iff hregular hexact hstep)
    hrun hregular hexact

end Steps

/-- The files of `nestedFiles`, and processes whose descriptors 0 and 1 were opened on
the first of them. -/
def nestedTracked : Tracked where
  kernel := nestedKernel
  file := fun i => if i < 3 then some i else none
  opened := fun _ _ => 0

theorem nestedTracked_regular :
    Regular nestedTracked.kernel :=
  ⟨fun _ => rfl, fun _ => rfl, by decide, by decide⟩

theorem nestedTracked_exact :
    ReferencesExact nestedTracked := by
  intro pid d hd
  have hmarked : d.toNat < 2 := by
    by_contra hd'
    exact hd.2 (if_neg hd')
  exact ⟨⟨0, 0, 0⟩, if_pos hmarked, by decide, by decide, rfl⟩

/-- The constants, with root for owner 0. -/
def rootZero : Constants := ⟨0, 0, 0⟩

/-- Closing the descriptor 0. -/
theorem references_exact_iff_close :
    ∃ run, Run (ReferenceStep rootZero) nestedTracked run ∧ run ≠ [] ∧
      (Always ReferencesExact nestedTracked run ↔
        StepsMeet (ReferenceSafe rootZero) nestedTracked run) := by
  have hstep : ReferenceStep rootZero nestedTracked (.sysclose 0 0)
      { nestedTracked with kernel := (nestedKernel.sysclose 0 0).2 } := rfl
  have hrun := Run.cons hstep (Run.nil _)
  exact ⟨_, hrun, by simp, references_exact_iff nestedTracked_regular nestedTracked_exact hrun⟩

/-- A process that is not root removes the file of its descriptor 0, and its two
descriptors refer to zeros. -/
theorem removed_file_referenced :
    ∃ run, Run (ReferenceStep rootZero) nestedTracked run ∧
      ¬ Always ReferencesExact nestedTracked run := by
  have hstep : ReferenceStep rootZero nestedTracked (.rmfile 0 0)
      (nestedTracked.afterRemoval (nestedKernel.fileOf 0 0)
        (0, nestedKernel.remove (nestedKernel.fileOf 0 0))) := rfl
  have hopen : (nestedTracked.kernel.processes 0).table.Live 0 := ⟨by decide, by decide⟩
  have hbad : ¬ ReferencesExact (nestedTracked.afterRemoval (nestedKernel.fileOf 0 0)
      (0, nestedKernel.remove (nestedKernel.fileOf 0 0))) :=
    removal_not_exact nestedTracked_exact hopen
  exact ⟨_, Run.cons hstep (Run.nil _), fun halways =>
    hbad (halways.2 _ (List.mem_singleton.mpr rfl))⟩

end Filesystem
end BestKernel
